import Toolwright.Proofs.Lockstep.Reference
import Toolwright.Session.Answer

/-!
# What is told in linked worlds

A value and the one that it stands for are told alike, but for the marks of what is no number.
-/

namespace Toolwright

set_option autoImplicit false

def Binary64.unmarked : Binary64 → Binary64
  | .nan _ => .nan 0
  | x => x

namespace Answer

mutual

/-- The answer without the marks of what is no number in it. -/
def unmarked : Answer → Answer
  | .float x => .float x.unmarked
  | .list items => .list (unmarkedItems items)
  | .tuple items => .tuple (unmarkedItems items)
  | .dict rows => .dict (unmarkedRows rows)
  | .mapping rows => .mapping (unmarkedRows rows)
  | .set items => .set (unmarkedItems items)
  | .frozenset items => .frozenset (unmarkedItems items)
  | .param fields => .param (unmarkedItems fields)
  | .schema rows => .schema (unmarkedRows rows)
  | .response className rows => .response className (unmarkedRows rows)
  | .definition name => .definition (unmarked name)
  | a => a

def unmarkedItems : List Answer → List Answer
  | [] => []
  | a :: items => unmarked a :: unmarkedItems items

def unmarkedRows : List (Answer × Answer) → List (Answer × Answer)
  | [] => []
  | (k, a) :: rows => (unmarked k, unmarked a) :: unmarkedRows rows

end

variable {e : Extent} {ρ : Renaming} {w v : World} {name name' : Value → Except Fault Answer}

theorem ofOpaque_rename {o : Opaque} (h : o.Within e) :
    ofOpaque w name o = ofOpaque v name' (o.rename ρ) := by
  cases o with
  | place p => cases p <;> rfl
  | cls | object | view | cursor => exact h.elim
  | _ => rfl

/-- Two computations in two parts are alike if they are alike in both. -/
theorem bind_alike {α β : Type} {u : α → α} {u' : β → β} {r r' : Except Fault α}
    {k k' : α → Except Fault β} (h : r.map u = r'.map u)
    (hk : ∀ a b, u a = u b → (k a).map u' = (k' b).map u') :
    (r >>= k).map u' = (r' >>= k').map u' := by
  cases r with
  | error f =>
    cases r' with
    | error g => exact congrArg Except.error (Except.error.inj h)
    | ok b => cases h
  | ok a =>
    cases r' with
    | error g => cases h
    | ok b => exact hk a b (Except.ok.inj h)

theorem made_alike {α : Type} {u : α → α} {make : α → Answer} {r r' : Except Fault α}
    (hm : ∀ a, unmarked (make a) = make (u a)) (h : r.map u = r'.map u) :
    (r >>= fun a => (.ok (make a) : Except Fault Answer)).map unmarked =
      (r' >>= fun a => (.ok (make a) : Except Fault Answer)).map unmarked := by
  apply bind_alike h
  intro a b hab
  show Except.ok (unmarked (make a)) = .ok (unmarked (make b))
  rw [hm, hm, hab]

mutual

theorem ofParts_rename {x : Value} (h : x.Within e) :
    (ofParts w name x).map unmarked = (ofParts v name' (x.rename ρ)).map unmarked := by
  cases x with
  | float x =>
    cases x with
    | nan => rfl
    | infinity => rfl
    | finite => rfl
  | list xs => exact made_alike (fun a => (rfl : unmarked (.list a) = _)) (ofItems_rename h)
  | tuple xs => exact made_alike (fun a => (rfl : unmarked (.tuple a) = _)) (ofItems_rename h)
  | set xs => exact made_alike (fun a => (rfl : unmarked (.set a) = _)) (ofItems_rename h)
  | frozenset xs => exact made_alike (fun a => (rfl : unmarked (.frozenset a) = _)) (ofItems_rename h)
  | dict rows => exact made_alike (fun a => (rfl : unmarked (.dict a) = _)) (ofRows_rename h)
  | mapping rows => exact made_alike (fun a => (rfl : unmarked (.mapping a) = _)) (ofRows_rename h)
  | opaqueRef o => exact congrArg (Except.map unmarked) (ofOpaque_rename h)
  | record => exact h.elim
  | _ => rfl

theorem ofItems_rename {xs : List Value} (h : Value.WithinItems e xs) :
    (ofItems w name xs).map unmarkedItems =
      (ofItems v name' (Value.renameItems ρ xs)).map unmarkedItems := by
  cases xs with
  | nil => rfl
  | cons x xs =>
    rw [Value.renameItems, ofItems, ofItems]
    apply bind_alike (ofParts_rename h.1)
    intro a b hab
    apply bind_alike (ofItems_rename h.2)
    intro rest others hrest
    show Except.ok (unmarked a :: unmarkedItems rest) = .ok (unmarked b :: unmarkedItems others)
    rw [hab, hrest]

theorem ofRows_rename {rows : List (Value × Value)} (h : Value.WithinRows e rows) :
    (ofRows w name rows).map unmarkedRows =
      (ofRows v name' (Value.renameRows ρ rows)).map unmarkedRows := by
  cases rows with
  | nil => rfl
  | cons row rows =>
    obtain ⟨k, x⟩ := row
    rw [Value.renameRows, ofRows, ofRows]
    apply bind_alike (ofParts_rename h.1.1)
    intro key key' hkey
    apply bind_alike (ofParts_rename h.1.2)
    intro a b hab
    apply bind_alike (ofRows_rename h.2)
    intro rest others hrest
    show Except.ok ((unmarked key, unmarked a) :: unmarkedRows rest) =
      .ok ((unmarked key', unmarked b) :: unmarkedRows others)
    rw [hkey, hab, hrest]

end

theorem ofValue_rename {L : Link} (h : L.Linked w v) {x : Value} (hx : x.Within (L.extent w)) :
    (ofValue w x).map unmarked = (ofValue v (x.rename L.ρ)).map unmarked := by
  obtain ⟨he, hw⟩ := Link.exposed_rename h hx
  unfold ofValue
  rw [he]
  cases hy : w.exposed x with
  | error f => rfl
  | ok y => exact ofParts_rename (hw y hy)

end Answer

end Toolwright
