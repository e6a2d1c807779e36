import Toolwright.Proofs.Serving.Call

/-!
# One definition on both hosts

A definition that became a class of each host runs its block on an object of the one class, or on a
new helper object of the other. What the first run returns is what the answer of the second one
tells, and what the first one raises the second one raises.
-/

namespace Toolwright

set_option autoImplicit false

/-- The same fault, but for the name of the class that lacks an attribute. -/
inductive Fault.UpToClass (c c' : String) : Fault → Fault → Prop
  | same (f : Fault) : UpToClass c c' f f
  | ofObject (name : String) :
    UpToClass c c' (.noAttribute (.object c) name) (.noAttribute (.object c') name)
  | ofClass (name : String) :
    UpToClass c c' (.noAttribute (.cls c) name) (.noAttribute (.cls c') name)

/-- The class of a function-calling host and the class of a serving host that a definition became. -/
structure World.OnBothHosts (w : World) (a : Nat) (c : ClassRef) (t : Served)
    (apart : Nat → Prop) : Prop extends w.Serves c t where
  execute : ∃ k, w.find? (.made a) "execute" =
    some (.made k, .ofObject (.runs (.opaqueRef (.object t.definition))))
  plain : ∀ name ∈ Link.specials, ∀ k x, w.find? (.made a) name ≠ some (.made k, x) ∧
    w.find? (.made t.helperClass) name ≠ some (.made k, x)
  stores : w.Stores t.definition fun r => w.SameHelpers w id a t.helperClass (· = r) apart True

structure World.NewObject (w : World) (o a s : Nat) : Prop where
  object : w.objects[o]? = some ⟨.made a, some s, []⟩
  cell : w.cells[s]? = some (.dict [])

namespace Machine

variable {w : World} {o a s : Nat} {name : String}

/-- A function that a class has for its objects is reached through an object that has nothing of
its own under the name. -/
theorem exec_reachUnset (m : Machine) {k : Nat} {f : Function}
    (hc : w.classOf (.opaqueRef (.object o)) = .made a)
    (hset : w.setAttribute? (.opaqueRef (.object o)) name = none)
    (hf : w.find? (.made a) name = some (.made k, .ofObject f))
    (hp : ∀ name ∈ ["__getattribute__", "__getattr__"], ∀ k x,
      w.find? (.made a) name ≠ some (.made k, x)) :
    (m.reach (.opaqueRef (.object o)) name).exec w =
      (.ok (.function f (some (.opaqueRef (.object o)))), w) :=
  exec_reachHeld m hc hset hf (.ofObject f) (hp _ (by simp))

end Machine

namespace World

variable {w : World} {o a s : Nat} {c : ClassRef} {t : Served} {apart : Nat → Prop}

theorem NewObject.classOf (h : w.NewObject o a s) :
    w.classOf (.opaqueRef (.object o)) = .made a := by
  simp only [World.classOf, h.object, Option.map_some, Option.getD_some]

theorem NewObject.setAttribute? (h : w.NewObject o a s) (name : String) :
    w.setAttribute? (.opaqueRef (.object o)) name = none := by
  simp [World.setAttribute?, attributeCell?, h.object, World.cell, h.cell, Value.rows?]

theorem exec_execute (h : w.OnBothHosts a c t apart) (ho : w.NewObject o a s) (k : Nat)
    (named : Literal.Rows) :
    ((Machine.nested (k + 1)).callAttribute (.opaqueRef (.object o)) "execute" [] named).exec w =
      Run.exec (do
        let named ← Run.literalRows named
        let block ← (Machine.nested k).storedBlock (.opaqueRef (.object t.definition))
        (Machine.nested k).invoke block [.opaqueRef (.object o)] named) w := by
  obtain ⟨holder, hf⟩ := h.execute
  unfold Machine.callAttribute
  rw [Run.exec_bind, Machine.exec_reachUnset _ ho.classOf (ho.setAttribute? _) hf]
  · rfl
  · intro name hn k x
    refine (h.plain name ?_ k x).1
    simp only [List.mem_cons, List.not_mem_nil, or_false] at hn
    rcases hn with rfl | rfl <;> decide

end World

/-! ## Parting -/

def parted (s n k : Nat) : Nat := if k = s then n else if k < n then k else k + 1

theorem parted_below {s n k : Nat} (hs : k ≠ s) (h : k < n) : parted s n k = k := by
  unfold parted
  rw [if_neg hs, if_pos h]

theorem parted_add {s n : Nat} (h : s < n) (j : Nat) : parted s n (n + j) = n + 1 + j := by
  unfold parted
  rw [if_neg (by omega), if_neg (by omega)]
  omega

def Renaming.parting (s n : Nat) : Renaming where
  __ := Renaming.same
  cell := parted s n
  cell_injective := by
    intro a b h
    unfold parted at h
    split at h <;> split at h <;> (try split at h) <;> (try split at h) <;> omega

section Parting

variable {w w₁ : World} {o a s h r : Nat} {apart : Nat → Prop}

def World.parting (w : World) (a h r : Nat) (apart : Nat → Prop) (o s : Nat) (w₁ : World)
    (log : List Record) : Link :=
  w.contextLink a h (· = r) apart True (.parting s w₁.cells.length) w₁
    ({ w₁ with log }.withObject h) o w₁.objects.length s
    (fun n => n = s ∨ w.cells.length ≤ n) (w.handles.length ≤ ·)

theorem shifted_same (n k : Nat) : shifted n n k = k := by
  unfold shifted moved
  split
  · rfl
  · omega

theorem parting_agrees (hs : s < w.cells.length) :
    (Renaming.parting s w₁.cells.length).Agrees (World.Grown.refl w).ahead.toRenaming
      ((World.Grown.refl w).ahead.link.extent w₁) where
  cell n hn := by
    obtain ⟨hle, hlt⟩ := hn
    have hne : n ≠ s := by
      rintro rfl
      exact absurd hs (Nat.not_lt_of_le hle)
    exact (parted_below hne hlt).trans (shifted_same _ n).symm
  routine n _ := (shifted_same _ n).symm
  mark k _ := (shifted_same _ k).symm

theorem parting_below {log : List Record} : ((World.Grown.refl w).ahead.link.extent w₁).Below
    ((w.parting a h r apart o s w₁ log).extent w₁) where
  cell _ hn := ⟨.inr hn.1, hn.2⟩
  routine _ hr := ⟨.inr (hr.1.resolve_left id), hr.2⟩
  marks := Nat.le_refl _

theorem parting_linked (hl : (World.Grown.refl w).ahead.link.Linked w₁ w₁) (ho : w.NewObject o a s)
    (hs : w.SameHelpers w id a h (· = r) apart True) (log : List Record) :
    (w.parting a h r apart o s w₁ log).Linked w₁ ({ w₁ with log }.withObject h) := by
  have hlt : s < w.cells.length := (List.getElem?_eq_some_iff.mp ho.cell).1
  have hle := hl.left.cells_le
  have hstore : w₁.cells[s]? = some (.dict []) := by
    rw [hl.left.cells s hlt fun e => absurd hlt (by rw [e]; exact Nat.lt_irrefl _)]
    exact ho.cell
  have hkl : w.Keeps w₁ := hl.left.keeps
  have hkr : w.Keeps ({ w₁ with log }.withObject h) := ⟨hkl.classes, hkl.handles⟩
  have fixed (n : Nat) (x : Value) (hn : w.cells.length ≤ n) (hx : w₁.cells[n]? = some x) :
      x.rename (.parting s w₁.cells.length) = x := by
    have := hl.cells n hn
    rw [show (World.Grown.refl w).ahead.link.ρ.cell n = n from shifted_same _ n, hx] at this
    rw [Value.rename_agrees (parting_agrees hlt) (hl.within n x hn hx)]
    exact (Option.some.inj this).symm
  exact {
    sound := by
      apply hs.sound hkl hkr
      · rw [hl.left.objects, show (World.Grown.refl w).ahead.link.left.world.objects = w.objects from rfl,
          ho.object]
        rfl
      · simp [World.withObject, Renaming.parting, parted]
      · intro k _
        rfl
      · exact .inl rfl
      · intro n hn
        exact .inr (Nat.le_trans hle hn)
      · intro j
        simp only [World.withObject, List.length_append, List.length_singleton]
        exact parted_add (Nat.lt_of_lt_of_le hlt hle) j
      · intro k hk
        exact Nat.le_trans hl.left.handles_le hk
      · rfl
    left := Preserved.refl _ _ _
    right := Preserved.refl _ _ _
    cells := by
      rintro n (rfl | hn)
      · have hn : (Renaming.parting n w₁.cells.length).cell n = w₁.cells.length := by
          simp [Renaming.parting, parted]
        show (w₁.cells ++ [Value.dict []])[(Renaming.parting n w₁.cells.length).cell n]? = _
        rw [hn, hstore]
        simp [Value.rename, Value.renameRows]
      · show (w₁.cells ++ [Value.dict []])[(Renaming.parting s w₁.cells.length).cell n]? = _
        rcases Nat.lt_or_ge n w₁.cells.length with hlt₁ | hge
        · have hne : n ≠ s := by
            rintro rfl
            exact absurd hlt (Nat.not_lt_of_le hn)
          rw [show (Renaming.parting s w₁.cells.length).cell n = n from parted_below hne hlt₁,
            List.getElem?_append_left hlt₁, List.getElem?_eq_getElem hlt₁]
          exact congrArg some (fixed n _ hn (List.getElem?_eq_getElem hlt₁)).symm
        · obtain ⟨j, rfl⟩ := Nat.exists_eq_add_of_le hge
          rw [show (Renaming.parting s w₁.cells.length).cell (w₁.cells.length + j) = _ from
            parted_add (Nat.lt_of_lt_of_le hlt hle) j, List.getElem?_eq_none hge]
          exact List.getElem?_eq_none (by simp)
    within := by
      rintro n x (rfl | hn) hx
      · rw [hstore] at hx
        cases hx
        trivial
      · exact (hl.within n x hn hx).mono parting_below
    cell_shift := by
      intro j
      simp only [World.withObject, List.length_append, List.length_singleton]
      exact parted_add (Nat.lt_of_lt_of_le hlt hle) j
    handles := by
      intro k hk hlt
      obtain ⟨_, hf, _⟩ := hl.handles k hk hlt
      exact hf.elim
    routine_shift := fun _ => rfl
    mark_shift := fun _ => rfl
    extras := by
      intro hx
      have he : w₁.extras = [] := (hl.left.extras.resolve_left id).trans (hs.extras hx).1
      show w₁.extras = w₁.extras.map _ ∧ ∀ row ∈ w₁.extras, _
      rw [he]
      exact ⟨rfl, by simp⟩ }

end Parting

/-! ## Arguments -/

namespace Run

def givenRow (row : String × Literal) : Run (String × Value) := do
  return (row.1, ← literal row.2)

theorem keys_of_rows {rows : Literal.Rows} {w w₁ : World} {named : Named}
    (h : (rows.mapM givenRow).exec w = (.ok named, w₁)) : Table.keys named = Table.keys rows := by
  induction rows generalizing w named with
  | nil =>
    rw [List.mapM_nil, exec_pure] at h
    cases h
    rfl
  | cons row rows ih =>
    rw [List.mapM_cons] at h
    obtain ⟨given, v, hrow, h⟩ := of_exec_bind h
    obtain ⟨x, _, _, hrow⟩ := of_exec_bind hrow
    obtain ⟨rest, _, hrest, h⟩ := of_exec_bind h
    cases hrow
    cases h
    exact congrArg (row.1 :: ·) (ih hrest)

theorem erase_literalRows {rows : Literal.Rows} {w w₁ : World} {named : Named}
    (h : (literalRows rows).exec w = (.ok named, w₁)) {name : String}
    (hn : name ∉ Table.keys rows) : Table.erase name named = named := by
  obtain ⟨given, _, hrows, h⟩ := of_exec_bind h
  cases h
  rw [← keys_of_rows hrows] at hn
  apply List.filter_eq_self.mpr
  intro row hrow
  have hkey := Table.mem_keys_ofRows (List.mem_map_of_mem hrow)
  simp only [Bool.not_eq_true', decide_eq_false_iff_not]
  rintro rfl
  exact hn hkey

theorem exec_namedOf {rows : Literal.Rows} {w : World}
    (hr : "server_context" ∉ Table.keys rows) :
    (Machine.namedOf [] rows).exec w = (literalRows rows).exec w := by
  have : (Machine.namedOf [] rows).exec w = Run.exec (do
      let named ← literalRows rows
      return Table.erase "server_context" named) w := rfl
  rw [this, Run.exec_bind]
  cases h : (literalRows rows).exec w with
  | mk result w₁ =>
    cases result with
    | error f => rfl
    | ok named =>
      show (Except.ok (Table.erase "server_context" named), w₁) = _
      rw [erase_literalRows h hr]

end Run

/-! ## The same behaviour -/

/-- What a call on the serving host answers, told of what the execution on the other one gave. -/
inductive World.Wraps (w : World) (a : Nat) (t : Served) (m : Machine) :
    Except Fault Value × World → Except Fault Answer → Prop
  | returned {x : Value} {w₁ w₂ : World} {text : String}
    (ht : (m.resultText x t.indent).exec w₁ = (.ok text, w₂)) :
    Wraps w a t m (.ok x, w₁) (.ok (toldAnswer (w.className (.made t.answerClass)) text))
  | untold {x : Value} {w₁ w₂ : World} {f g : Fault}
    (ht : (m.resultText x t.indent).exec w₁ = (.error f, w₂))
    (hf : Fault.UpToClass (w.className (.made a)) (w.className (.made t.helperClass)) f g) :
    Wraps w a t m (.ok x, w₁) (.error g)
  | raised {w₁ : World} {f g : Fault}
    (hf : Fault.UpToClass (w.className (.made a)) (w.className (.made t.helperClass)) f g) :
    Wraps w a t m (.error f, w₁) (.error g)

/-- The fault of one run of a pair is that of the other one, but for the names of the classes. -/
theorem Link.Faults.upToClass {L : Link} {f g : Fault} (hf : L.Faults f g) {c c' : String}
    (hc : L.left.world.className (.made L.left.cls) = c)
    (hc' : L.right.world.className (.made L.right.cls) = c') : Fault.UpToClass c c' f g := by
  cases hf with
  | same => exact .same _
  | ofObject name => exact hc ▸ hc' ▸ .ofObject name
  | ofClass name => exact hc ▸ hc' ▸ .ofClass name

namespace World

variable {w w₁ : World} {o a s : Nat} {c : ClassRef} {t : Served} {apart : Nat → Prop}

theorem exec_prepare_plain (m : Machine) {v : World} {o h : Nat}
    (hc : v.classOf (.opaqueRef (.object o)) = .made h)
    (hp : ∀ k x, v.find? (.made h) "__init__" ≠ some (.made k, x)) :
    (m.prepare (.opaqueRef (.object o)) [] []).exec v = (.ok (), v) := by
  unfold Machine.prepare
  rw [Run.exec_bind, Run.exec_world]
  dsimp only
  rw [Machine.special?_none hc hp]
  rfl

theorem wraps_result {L : Link} {v₁ : World} {r r' : Run Value} (h : w.Serves c t)
    (hl : L.left.world.classes = w.classes) (hr : L.right.world.classes = w.classes)
    (ha : L.left.cls = a) (hb : L.right.cls = t.helperClass)
    (run : L.Alike L.Renamed w₁ v₁ r r') (k : Nat) :
    w.Wraps a t (Machine.nested (k + 2)) (r.exec w₁)
      (Session.outcome (do
        let told ← (do
          let result ← r'
          let answers ← (Machine.nested (k + 2)).reach (classValue c) "Response"
          let text ← (Machine.nested (k + 2)).resultText result t.indent
          return (answers, text))
        (Machine.nested (k + 2)).answerWith told) v₁).1 := by
  have names {f g : Fault} (hf : L.Faults f g) :
      Fault.UpToClass (w.className (.made a)) (w.className (.made t.helperClass)) f g :=
    hf.upToClass (by rw [ha, className_congr hl]) (by rw [hb, className_congr hr])
  unfold Link.Alike at run
  rw [outcome_bind, Run.exec_bind]
  generalize r.exec w₁ = x at run
  generalize r'.exec v₁ = y at run
  cases run with
  | error _ _ hf => exact .raised (names hf)
  | @ok x y w₂ v₂ hw _ hq =>
    obtain ⟨hx, rfl⟩ := hq
    have classes : v₂.classes = w.classes := hw.right.classes.trans hr
    have reached : ((Machine.nested (k + 2)).reach (classValue c) "Response").exec v₂ =
        (.ok (.value (classValue (.made t.answerClass))), v₂) := by
      obtain ⟨holder, hf⟩ := h.response
      rw [Link.reach_class (by decide) (by decide), find?_congr classes, hf]
      rfl
    have told := Link.resultText_agree (Link.faithful_nested L (k + 2)) hx t.indent w₂ v₂ hw
      (Extent.Below.refl _)
    unfold Link.Alike at told
    dsimp only
    rw [Run.exec_bind, reached]
    dsimp only
    rw [Run.exec_bind]
    generalize hl₃ : ((Machine.nested (k + 2)).resultText x t.indent).exec w₂ = x₃ at told
    generalize ((Machine.nested (k + 2)).resultText (x.rename L.ρ) t.indent).exec v₂ = y₃ at told
    cases told with
    | error _ _ hf => exact .untold hl₃ (names hf)
    | @ok text _ w₃ v₃ hw₃ _ hq =>
      obtain rfl := hq
      have hv₃ : v₃.classes = w.classes := hw₃.right.classes.trans hr
      have answered := Machine.outcome_answerWith (k := k) (h.answers.congr hv₃) text
      rw [className_congr hv₃] at answered
      show w.Wraps a t _ _ (Session.outcome ((Machine.nested (k + 2)).answerWith _) v₃).1
      rw [answered]
      exact .returned hl₃

theorem wraps_block (h : w.OnBothHosts a c t apart) (ho : w.NewObject o a s)
    (hl : (Grown.refl w).ahead.link.Linked w₁ w₁) {named : Named}
    (hn : Named.Within ((Grown.refl w).ahead.link.extent w₁) named)
    (hk : Named.rename (Grown.refl w).ahead.toRenaming named = named) {r : Nat}
    (hr : w.Shows t.definition "execute_block" (routineValue r))
    (hs : w.SameHelpers w id a t.helperClass (· = r) apart True) (k : Nat) :
    w.Wraps a t (Machine.nested (k + 2))
      (((Machine.nested (k + 2)).invoke (routineValue r) [.opaqueRef (.object o)] named).exec w₁)
      (Session.outcome ((Machine.nested (k + 2)).serve c (.opaqueRef (.object t.definition))
        t.helperClass t.indent t.toolName named) w₁).1 := by
  have grown : w.Grown w₁ := (Grown.refl w).ahead.linked_left hl
  have opens : w₁.isOpen (.made t.helperClass) = true := by
    unfold World.isOpen
    rw [World.lineage_congr grown.classes, grown.classes]
    exact h.opens
  have makes (k : Nat) (x : Attribute) :
      w₁.find? (.made t.helperClass) "__new__" ≠ some (.made k, x) := by
    rw [World.find?_congr grown.classes]
    exact h.makes k x
  obtain ⟨log, hserve⟩ := Machine.exec_serve (k := k + 1) c t.indent t.toolName named
    (hr.kept grown.holds) opens makes
  let L := w.parting a t.helperClass r apart o s w₁ log
  have hm := parting_linked hl ho hs log
  have within : Named.Within (L.extent w₁) named := hn.mono parting_below
  have kept : Named.rename L.ρ named = named :=
    (Named.rename_agrees (parting_agrees (List.getElem?_eq_some_iff.mp ho.cell).1) hn).trans hk
  have hcls : ({ w₁ with log }.withObject t.helperClass).classOf
      (.opaqueRef (.object w₁.objects.length)) = .made t.helperClass := by
    simp [World.classOf, World.withObject]
  have classes : ({ w₁ with log }.withObject t.helperClass).classes = w.classes := grown.classes
  have plain (k : Nat) (x : Attribute) : ({ w₁ with log }.withObject t.helperClass).find?
      (.made t.helperClass) "__init__" ≠ some (.made k, x) := by
    rw [find?_congr classes]
    exact (h.plain "__init__" (by decide) k x).2
  have run := (Link.faithful_nested L (k + 2)).run (.inr rfl) (show Link.Args _ [] named from ⟨by simp, within⟩)
    w₁ _ hm (Extent.Below.refl _)
  rw [kept] at run
  rw [outcome_eq, hserve, ← outcome_eq, outcome_bind, Run.exec_bind,
    exec_prepare_plain _ hcls plain, ← outcome_bind]
  exact wraps_result h.toServes grown.classes classes rfl rfl run k

theorem wraps_serve (h : w.OnBothHosts a c t apart) (ho : w.NewObject o a s)
    (hl : (Grown.refl w).ahead.link.Linked w₁ w₁) {named : Named}
    (hn : Named.Within ((Grown.refl w).ahead.link.extent w₁) named)
    (hk : Named.rename (Grown.refl w).ahead.toRenaming named = named) (k : Nat) :
    w.Wraps a t (Machine.nested (k + 2))
      (Run.exec (do
        let block ← (Machine.nested (k + 2)).storedBlock (.opaqueRef (.object t.definition))
        (Machine.nested (k + 2)).invoke block [.opaqueRef (.object o)] named) w₁)
      (Session.outcome ((Machine.nested (k + 2)).serve c (.opaqueRef (.object t.definition))
        t.helperClass t.indent t.toolName named) w₁).1 := by
  have grown : w.Grown w₁ := (Grown.refl w).ahead.linked_left hl
  cases h.stores with
  | block hr hs =>
    rw [Run.exec_bind, Machine.exec_storedBlock _ (hr.kept grown.holds)]
    exact wraps_block h ho hl hn hk hr hs k
  | nothing hf =>
    have failed := Machine.exec_serve_error (n := t.helperClass) _ c t.indent t.toolName named
      (hf (Machine.nested (k + 2)) w₁ grown.holds)
    rw [Run.exec_bind, hf _ w₁ grown.holds, outcome_eq, failed]
    exact .raised (.same _)

/-- A call on the serving host answers with the text of what an execution on the other host gives,
and raises what that one raises. -/
theorem call_wraps_execute (h : w.OnBothHosts a c t apart) (ho : w.NewObject o a s) (k : Nat)
    {named : Literal.Rows} (hn : "server_context" ∉ Table.keys named) :
    w.Wraps a t (Machine.nested (k + 2))
      (((Machine.nested (k + 3)).callAttribute (.opaqueRef (.object o)) "execute" [] named).exec w)
      (Session.outcome ((Machine.nested (k + 3)).callAttribute (classValue c) "call" [] named)
        w).1 := by
  have alike := Link.literalRows_agree (e := (Grown.refl w).ahead.link.extent w) named w w
    (Grown.refl w).ahead.linked (Extent.Below.refl _)
  rw [exec_execute h ho, outcome_eq, Machine.exec_call h.call, ← outcome_eq, outcome_bind,
    Run.exec_namedOf hn, Run.exec_bind]
  unfold Link.Alike at alike
  cases hx : (Run.literalRows named).exec w with
  | mk result w₁ =>
    rw [hx] at alike
    cases alike with
    | error _ _ _ => exact .raised (.same _)
    | ok hl _ hq => exact wraps_serve h ho hl hq.1 hq.2.symm k

end World

end Toolwright
