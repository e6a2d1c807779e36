import Toolwright.Proofs.Lockstep.Contexts

/-!
# Reading from objects and classes

What an object shows through a view of its class is what was set on it. It is read without a change
and is still there when the world has grown.
-/

namespace Toolwright

set_option autoImplicit false

/-- An object shows a value under a name: its class has a view there of an attribute that was set,
and takes over no reading. -/
structure World.Shows (w : World) (o : Nat) (name : String) (x : Value) : Prop where
  shown : ∃ n k of, w.classOf (.opaqueRef (.object o)) = .made n ∧
    w.find? (.made n) name = some (.made k, .view of) ∧
    w.setAttribute? (.opaqueRef (.object o)) of = some x
  plain : ∀ name ∈ ["__getattribute__", "__getattr__"], ∀ k a,
    w.find? (w.classOf (.opaqueRef (.object o))) name ≠ some (.made k, a)

/-- A definition stores a function to execute of which something is known, or none at all: then the
same fault says so whatever is added to the world. -/
inductive World.Stores (w : World) (d : Nat) (p : Nat → Prop) : Prop
  | block {r : Nat} (h : w.Shows d "execute_block" (routineValue r)) (hp : p r)
  | nothing {f : Fault} (h : ∀ (m : Machine) (v : World), w.Extends v →
      (m.storedBlock (.opaqueRef (.object d))).exec v = (.error f, v))

/-- A definition of one world and a definition of another one store functions of which something is
known, or none at all: then the same fault says so whatever is added to the worlds. -/
inductive World.StoreAlike (w v : World) (d d' : Nat) (p : Nat → Nat → Prop) : Prop
  | block {r r' : Nat} (h : w.Shows d "execute_block" (routineValue r))
    (h' : v.Shows d' "execute_block" (routineValue r')) (hp : p r r')
  | nothing {f : Fault} (h : ∀ (m : Machine) (u : World), w.Extends u →
      (m.storedBlock (.opaqueRef (.object d))).exec u = (.error f, u))
    (h' : ∀ (m : Machine) (u : World), v.Extends u →
      (m.storedBlock (.opaqueRef (.object d'))).exec u = (.error f, u))

theorem World.Stores.alike {w : World} {d : Nat} {p : Nat → Prop} {q : Nat → Nat → Prop}
    (h : w.Stores d p) (hq : ∀ r, p r → q r r) : w.StoreAlike w d d q := by
  cases h with
  | block h hp => exact .block h h (hq _ hp)
  | nothing h => exact .nothing h h

namespace World

variable {b w : World} {o : Nat} {name : String} {x : Value}

theorem Extends.classOf_object (h : b.Extends w) {n : Nat}
    (ho : b.classOf (.opaqueRef (.object o)) = .made n) :
    w.classOf (.opaqueRef (.object o)) = .made n := by
  unfold classOf at ho ⊢
  dsimp only at ho ⊢
  cases hb : b.objects[o]? with
  | none => rw [hb] at ho; cases ho
  | some obj =>
    rw [hb] at ho
    rw [h.object hb]
    exact ho

theorem Extends.setAttribute? (h : b.Extends w)
    (hx : b.setAttribute? (.opaqueRef (.object o)) name = some x) :
    w.setAttribute? (.opaqueRef (.object o)) name = some x := by
  unfold World.setAttribute? attributeCell? at hx ⊢
  dsimp only at hx ⊢
  cases ho : b.objects[o]? with
  | none => rw [ho] at hx; cases hx
  | some obj =>
    rw [ho] at hx
    rw [h.object ho]
    cases hn : obj.attributes with
    | none => simp [hn] at hx
    | some n =>
      simp only [Option.bind_some, hn, Option.bind_eq_bind] at hx ⊢
      have hcell : w.cell n = b.cell n := by
        unfold World.cell at hx ⊢
        cases hc : b.cells[n]? with
        | none => rw [hc] at hx; cases hx
        | some y => rw [h.cell hc]
      rw [hcell]
      exact hx

theorem Shows.kept (hs : b.Shows o name x) (h : b.Extends w) : w.Shows o name x := by
  obtain ⟨⟨n, k, of, hc, hf, hx⟩, hp⟩ := hs
  have hcls := h.classOf_object hc
  refine ⟨⟨n, k, of, hcls, ?_, h.setAttribute? hx⟩, ?_⟩
  · rw [find?_congr h.classes]
    exact hf
  · intro name hn k a
    rw [hcls, find?_congr h.classes, ← hc]
    exact hp name hn k a

end World

namespace Machine

variable {w : World} {o : Nat} {name : String} {x : Value}

theorem special?_none {v : Value} {n : Nat} (hc : w.classOf v = .made n)
    (hn : ∀ k a, w.find? (.made n) name ≠ some (.made k, a)) : w.special? v name = none := by
  unfold World.special?
  dsimp only
  rw [hc]
  split
  · rename_i k a hf
    exact absurd hf (hn k a)
  · rfl

inductive IsMethod : Attribute → Prop
  | ofObject (f : Function) : IsMethod (.ofObject f)
  | ofClass (f : Function) : IsMethod (.ofClass f)

theorem exec_reachOver (m : Machine) {n k : Nat} {a : Attribute}
    (hc : w.classOf (.opaqueRef (.object o)) = .made n)
    (hf : w.find? (.made n) name = some (.made k, a)) (ha : IsMethod a)
    (hp : ∀ k x, w.find? (.made n) "__getattribute__" ≠ some (.made k, x)) :
    (m.reach (.opaqueRef (.object o)) name).exec w =
      (.ok (((w.setAttribute? (.opaqueRef (.object o)) name).map Access.value).getD
        (w.reached (.made k) (.made n) (some (.opaqueRef (.object o))) a)), w) := by
  have accessed : (plainAccess (.opaqueRef (.object o)) name).exec w =
      (.ok (some (((w.setAttribute? (.opaqueRef (.object o)) name).map Access.value).getD
        (w.reached (.made k) (.made n) (some (.opaqueRef (.object o))) a))), w) := by
    unfold plainAccess
    rw [Run.exec_bind, Run.exec_world]
    dsimp only
    rw [hc, hf]
    cases ha with
    | ofObject f | ofClass f =>
      dsimp only
      cases w.setAttribute? (.opaqueRef (.object o)) name <;> rfl
  have first : (plainReach (.opaqueRef (.object o)) name).exec w =
      (.ok (((w.setAttribute? (.opaqueRef (.object o)) name).map Access.value).getD
        (w.reached (.made k) (.made n) (some (.opaqueRef (.object o))) a)), w) := by
    unfold plainReach
    rw [Run.exec_bind, accessed]
    rfl
  unfold reach
  rw [Run.exec_bind, Run.exec_world]
  simp only [special?_none hc hp]
  cases w.special? (.opaqueRef (.object o)) "__getattr__" with
  | none => exact first
  | some a =>
    dsimp only
    rw [Run.exec_tryCatch, first]

theorem exec_reachHeld (m : Machine) {n k : Nat} {a : Attribute}
    (hc : w.classOf (.opaqueRef (.object o)) = .made n)
    (hset : w.setAttribute? (.opaqueRef (.object o)) name = none)
    (hf : w.find? (.made n) name = some (.made k, a)) (ha : IsMethod a)
    (hp : ∀ k x, w.find? (.made n) "__getattribute__" ≠ some (.made k, x)) :
    (m.reach (.opaqueRef (.object o)) name).exec w =
      (.ok (w.reached (.made k) (.made n) (some (.opaqueRef (.object o))) a), w) := by
  rw [exec_reachOver m hc hf ha hp, hset]
  rfl

theorem exec_ask (m : Machine) (h : w.Shows o name x) :
    (m.ask (.opaqueRef (.object o)) name).exec w = (.ok x, w) := by
  obtain ⟨⟨n, k, of, hc, hf, hx⟩, hp⟩ := h
  rw [hc] at hp
  have hs (name : String) (hn : name ∈ ["__getattribute__", "__getattr__"]) :
      w.special? (.opaqueRef (.object o)) name = none := special?_none hc (hp name hn)
  have hkept : w.kept (.opaqueRef (.object o)) of = .ok x := by
    unfold World.kept
    rw [hx]
  have accessed : (plainAccess (.opaqueRef (.object o)) name).exec w =
      (.ok (some (.value x)), w) := by
    unfold plainAccess
    rw [Run.exec_bind, Run.exec_world]
    dsimp only
    rw [hc, hf]
    dsimp only
    rw [hkept]
    rfl
  have reached : (m.reach (.opaqueRef (.object o)) name).exec w = (.ok (.value x), w) := by
    unfold reach
    rw [Run.exec_bind, Run.exec_world]
    simp only [hs "__getattribute__" (by simp), hs "__getattr__" (by simp)]
    unfold plainReach
    rw [Run.exec_bind, accessed]
    rfl
  unfold ask
  rw [Run.exec_bind, reached]
  rfl

theorem exec_note (logger : String) (level : Int) (text : String) (w : World) :
    ∃ log, (Run.note logger level (pure text)).exec w = (.ok (), { w with log }) := by
  unfold Run.note
  rw [Run.exec_bind, Run.exec_world]
  dsimp only
  split
  · exact ⟨_, rfl⟩
  · exact ⟨w.log, rfl⟩

theorem exec_storedBlock (m : Machine) {r : Nat} (h : w.Shows o "execute_block" (routineValue r)) :
    (m.storedBlock (.opaqueRef (.object o))).exec w = (.ok (routineValue r), w) := by
  unfold storedBlock
  rw [Run.exec_bind, exec_ask m h]
  rfl

end Machine

end Toolwright
