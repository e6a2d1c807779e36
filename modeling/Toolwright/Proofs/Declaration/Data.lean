import Toolwright.Proofs.Lockstep.Start
import Toolwright.Proofs.Serving.Reading

/-!
# Plain data in a world

Names, types and descriptions are plain data: texts, numbers, opaque tokens, and containers of such
values in cells of their own. What is told of plain data runs nothing and changes nothing, and it is
told again in every world that retains the cells.
-/

namespace Toolwright

set_option autoImplicit false

/-- What stands in plain data of some cells: neither functions nor objects nor classes. -/
def World.data (w : World) (cells : Nat → Prop) : Extent := ⟨cells, fun _ => False, w.marks⟩

/-- Cells of plain data, from which only such cells are reached. -/
def World.HoldsData (w : World) (cells : Nat → Prop) : Prop :=
  ∀ n, cells n → ∃ x, w.cells[n]? = some x ∧ x.Within (w.data cells)

/-- A later world in which some cells are as they were. -/
structure World.Retains (w v : World) (cells : Nat → Prop) : Prop where
  cells : ∀ n, cells n → v.cells[n]? = w.cells[n]?
  cells_le : w.cells.length ≤ v.cells.length
  handles_le : w.handles.length ≤ v.handles.length
  marks_le : w.marks ≤ v.marks
  logFrom : v.logFrom = w.logFrom

namespace World

variable {w v u : World} {C : Nat → Prop}

namespace Retains

theorem refl (w : World) (C : Nat → Prop) : w.Retains w C :=
  ⟨fun _ _ => rfl, Nat.le_refl _, Nat.le_refl _, Nat.le_refl _, rfl⟩

theorem trans (h : w.Retains v C) (h' : v.Retains u C) : w.Retains u C where
  cells n hn := (h'.cells n hn).trans (h.cells n hn)
  cells_le := Nat.le_trans h.cells_le h'.cells_le
  handles_le := Nat.le_trans h.handles_le h'.handles_le
  marks_le := Nat.le_trans h.marks_le h'.marks_le
  logFrom := h'.logFrom.trans h.logFrom

theorem data_below (h : w.Retains v C) : (w.data C).Below (v.data C) :=
  ⟨fun _ hn => hn, fun _ hr => hr, h.marks_le⟩

theorem holdsData (h : w.Retains v C) (hd : w.HoldsData C) : v.HoldsData C := by
  intro n hn
  obtain ⟨x, hx, hw⟩ := hd n hn
  exact ⟨x, (h.cells n hn).trans hx, hw.mono h.data_below⟩

end Retains

theorem data_mono (w : World) {C' : Nat → Prop} (h : ∀ n, C n → C' n) :
    (w.data C).Below (w.data C') := ⟨h, fun _ hr => hr, Nat.le_refl _⟩

theorem HoldsData.lt (hd : w.HoldsData C) {n : Nat} (hn : C n) : n < w.cells.length := by
  obtain ⟨x, hx, _⟩ := hd n hn
  exact (List.getElem?_eq_some_iff.mp hx).1

/-! ## Both worlds side by side -/

def Retains.toRenaming (h : w.Retains v C) : Renaming where
  cell := shifted w.cells.length v.cells.length
  routine := shifted w.handles.length v.handles.length
  mark := shifted w.marks v.marks
  cell_injective := shifted_injective h.cells_le
  routine_injective := shifted_injective h.handles_le
  mark_injective := shifted_injective h.marks_le

def Retains.link (h : w.Retains v C) : Link where
  ρ := h.toRenaming
  left := ⟨w, 0, 0⟩
  right := ⟨v, 0, 0⟩
  store := w.cells.length
  cell n := C n ∨ w.cells.length ≤ n
  bound := (w.handles.length ≤ ·)
  helper _ := False
  shared _ := False
  exposed _ := False
  settable := False
  present := False

theorem Retains.within (h : w.Retains v C) (hd : w.HoldsData C) {x : Value}
    (hx : x.Within (w.data C)) : x.Within (h.link.extent w) :=
  have below : (w.data C).Below (h.link.extent w) :=
    ⟨fun _ hn => ⟨.inl hn, hd.lt hn⟩, fun _ hr => hr.elim, Nat.le_refl _⟩
  hx.mono below

theorem Retains.agrees (h : w.Retains v C) (hd : w.HoldsData C) :
    h.toRenaming.Agrees .same (w.data C) where
  cell _ hn := shifted_below (hd.lt hn)
  routine _ hr := hr.elim
  mark _ hk := shifted_below hk

theorem Retains.rename (h : w.Retains v C) (hd : w.HoldsData C) {x : Value}
    (hx : x.Within (w.data C)) : x.rename h.toRenaming = x :=
  (Value.rename_agrees (h.agrees hd) hx).trans x.rename_same

theorem Retains.linked (h : w.Retains v C) (hd : w.HoldsData C) : h.link.Linked w v where
  sound :=
    { contexts := False.elim
      helper_present := fun _ => False.elim
      helper := fun _ => False.elim
      shared := fun _ => False.elim
      cell_store := .inr (Nat.le_refl _)
      cell_new := fun _ hn => .inr hn
      cell_shift := shifted_add _ _
      bound_new := fun _ hr => hr
      logFrom := h.logFrom.symm }
  left := Preserved.refl _ _ _
  right := Preserved.refl _ _ _
  cells := by
    rintro n (hn | hn)
    · obtain ⟨x, hx, hw⟩ := hd n hn
      show v.cells[shifted _ _ n]? = _
      rw [shifted_below (hd.lt hn), h.cells n hn, hx]
      exact congrArg some (Retains.rename h hd hw).symm
    · obtain ⟨j, rfl⟩ := Nat.exists_eq_add_of_le hn
      show v.cells[shifted _ _ (w.cells.length + j)]? = _
      rw [shifted_add, List.getElem?_eq_none (Nat.le_add_right _ _), List.getElem?_eq_none hn]
      rfl
  within := by
    rintro n x (hn | hn) hx
    · obtain ⟨y, hy, hw⟩ := hd n hn
      rw [hx] at hy
      cases hy
      exact h.within hd hw
    · rw [List.getElem?_eq_none hn] at hx
      cases hx
  cell_shift := shifted_add _ _
  handles := by
    intro r hr hlt
    exact absurd hlt (Nat.not_lt_of_le hr)
  routine_shift := shifted_add _ _
  mark_shift := shifted_add _ _
  extras := fun ⟨_, hr⟩ => hr.elim

/-! ## What is told of data -/

/-- The text of plain data as it stands inside other data. -/
def printedOf (w : World) (x : Value) : Except Fault String := do (← w.outlined x).printed

/-- The text of plain data on its own. -/
def textOf (w : World) (x : Value) : Except Fault String :=
  match x with
  | .opaqueRef (.token _ text) => .ok text
  | .opaqueRef (.mute _ reason) => .error (.unprintable reason)
  | .str s => .ok s
  | x => w.printedOf x

/-- Whether plain data counts as true. -/
def truthOf (w : World) (x : Value) : Bool := (w.followed x).truthy

theorem Retains.printedOf (h : w.Retains v C) (hd : w.HoldsData C) {x : Value}
    (hx : x.Within (w.data C)) : v.printedOf x = w.printedOf x := by
  have hout := (Link.outlined_rename (h.linked hd) (h.within hd hx)).1
  rw [show x.rename h.link.ρ = x from h.rename hd hx] at hout
  unfold World.printedOf
  rw [hout]
  cases w.outlined x with
  | error f => rfl
  | ok y => exact Value.printed_rename h.link.ρ y

theorem Retains.textOf (h : w.Retains v C) (hd : w.HoldsData C) {x : Value}
    (hx : x.Within (w.data C)) : v.textOf x = w.textOf x := by
  unfold World.textOf
  split <;> first | rfl | exact h.printedOf hd hx

theorem Retains.truthOf (h : w.Retains v C) (hd : w.HoldsData C) {x : Value}
    (hx : x.Within (w.data C)) : v.truthOf x = w.truthOf x := by
  have hf := Link.Linked.followed_rename (h.linked hd) (h.within hd hx)
  rw [show x.rename h.link.ρ = x from h.rename hd hx] at hf
  unfold World.truthOf
  rw [hf]
  exact Value.truthy_rename _ _

theorem HoldsData.classOf (hd : w.HoldsData C) {x : Value} (hx : x.Within (w.data C)) :
    ∃ k, w.classOf x = .builtIn k := by
  have h := Retains.refl w C
  obtain ⟨k, hk, _⟩ := Link.Linked.classOf_within (h.linked hd) (h.within hd hx)
  exact ⟨k, hk⟩

theorem HoldsData.special? (hd : w.HoldsData C) {x : Value} (hx : x.Within (w.data C))
    (name : String) : w.special? x name = none := by
  obtain ⟨k, hk⟩ := hd.classOf hx
  exact special?_builtIn hk name

theorem proxied?_data {x : Value} (hx : x.Within (w.data C)) : w.proxied? x = none := by
  cases x with
  | opaqueRef o =>
    cases o with
    | place p =>
      cases p with
      | cell n => rfl
      | attributes => exact hx.elim
      | shown => exact hx.elim
    | _ => rfl
  | _ => rfl

def bare (w : World) : Extent := ⟨fun _ => False, fun _ => False, w.marks⟩

theorem HoldsData.outlined (hd : w.HoldsData C) {x y : Value} (hx : x.Within (w.data C))
    (hy : w.outlined x = .ok y) : y.Within w.bare := by
  have h := Retains.refl w C
  have hout := (Link.outlined_rename (h.linked hd) (h.within hd hx)).2 y hy
  have below : (h.link.extent w).flat.Below w.bare :=
    ⟨fun _ hn => hn, fun r hr => absurd (hr.1.resolve_left id) (Nat.not_le_of_lt hr.2),
      Nat.le_refl _⟩
  exact hout.mono below

end World

namespace Machine

variable {w : World} {C : Nat → Prop}

theorem exec_printedOpaque (m : Machine) {o : Opaque} (ho : o.Within w.bare) :
    (m.printedOpaque o).exec w = (.ok o.printed, w) := by
  cases o with
  | token | mute | plain => rfl
  | place p =>
    cases p with
    | cell n => exact ho.elim
    | attributes => exact ho.elim
    | shown => exact ho.elim
  | cls | object | view | cursor | routine => exact ho.elim

mutual

theorem exec_settled (m : Machine) {x : Value} (hx : x.Within w.bare) :
    ∃ y, (m.settled x).exec w = (.ok y, w) ∧ y.printed = x.printed := by
  cases x with
  | list xs =>
    obtain ⟨ys, hys, hp, _⟩ := exec_settledItems m hx
    refine ⟨.list ys, ?_, by simp only [Value.printed, hp]⟩
    rw [settled, Run.exec_bind, hys]
    rfl
  | tuple xs =>
    obtain ⟨ys, hys, hp, _⟩ := exec_settledItems m hx
    refine ⟨.tuple ys, ?_, by simp only [Value.printed, hp]⟩
    rw [settled, Run.exec_bind, hys]
    rfl
  | set xs =>
    obtain ⟨ys, hys, hp, he⟩ := exec_settledItems m hx
    refine ⟨.set ys, ?_, by simp only [Value.printed, hp, he]⟩
    rw [settled, Run.exec_bind, hys]
    rfl
  | frozenset xs =>
    obtain ⟨ys, hys, hp, he⟩ := exec_settledItems m hx
    refine ⟨.frozenset ys, ?_, by simp only [Value.printed, hp, he]⟩
    rw [settled, Run.exec_bind, hys]
    rfl
  | dict rows =>
    obtain ⟨ys, hys, hp⟩ := exec_settledRows m hx
    refine ⟨.dict ys, ?_, by simp only [Value.printed, hp]⟩
    rw [settled, Run.exec_bind, hys]
    rfl
  | mapping rows =>
    obtain ⟨ys, hys, hp⟩ := exec_settledRows m hx
    refine ⟨.mapping ys, ?_, by simp only [Value.printed, hp]⟩
    rw [settled, Run.exec_bind, hys]
    rfl
  | opaqueRef o =>
    refine ⟨verbatim o.printed, ?_, rfl⟩
    rw [settled, Run.exec_bind, exec_printedOpaque m hx]
    rfl
  | record => exact hx.elim
  | _ => exact ⟨_, rfl, rfl⟩

theorem exec_settledItems (m : Machine) {xs : List Value} (hx : Value.WithinItems w.bare xs) :
    ∃ ys, (m.settledItems xs).exec w = (.ok ys, w) ∧
      Value.printedItems ys = Value.printedItems xs ∧ ys.isEmpty = xs.isEmpty := by
  cases xs with
  | nil => exact ⟨[], rfl, rfl, rfl⟩
  | cons x xs =>
    obtain ⟨y, hy, hp⟩ := exec_settled m hx.1
    obtain ⟨ys, hys, hps, _⟩ := exec_settledItems m hx.2
    refine ⟨y :: ys, ?_, by rw [Value.printedItems, Value.printedItems, hp, hps], rfl⟩
    rw [settledItems, Run.exec_bind, hy]
    dsimp only
    rw [Run.exec_bind, hys]
    rfl

theorem exec_settledRows (m : Machine) {rows : List (Value × Value)}
    (hx : Value.WithinRows w.bare rows) :
    ∃ ys, (m.settledRows rows).exec w = (.ok ys, w) ∧
      Value.printedRows ys = Value.printedRows rows := by
  cases rows with
  | nil => exact ⟨[], rfl, rfl⟩
  | cons row rows =>
    obtain ⟨k, x⟩ := row
    obtain ⟨l, hl, hpl⟩ := exec_settled m hx.1.1
    obtain ⟨y, hy, hp⟩ := exec_settled m hx.1.2
    obtain ⟨ys, hys, hps⟩ := exec_settledRows m hx.2
    refine ⟨(l, y) :: ys, ?_, by rw [Value.printedRows, Value.printedRows, hpl, hp, hps]⟩
    rw [settledRows, Run.exec_bind, hl]
    dsimp only
    rw [Run.exec_bind, hy]
    dsimp only
    rw [Run.exec_bind, hys]
    rfl

end

theorem exec_printed (m : Machine) (hd : w.HoldsData C) {x : Value} (hx : x.Within (w.data C)) :
    (m.printed x).exec w = (w.printedOf x, w) := by
  unfold printed World.printedOf
  rw [Run.exec_bind, Run.exec_world]
  dsimp only
  rw [Run.exec_bind, Run.exec_lift]
  cases hy : w.outlined x with
  | error f => rfl
  | ok y =>
    obtain ⟨z, hz, hp⟩ := exec_settled m (hd.outlined hx hy)
    dsimp only
    rw [Run.exec_bind, hz]
    dsimp only
    rw [Run.exec_lift, hp]
    rfl

theorem exec_unproxied (m : Machine) (hd : w.HoldsData C) {x : Value}
    (hx : x.Within (w.data C)) :
    Run.exec (do
      match (← Run.world).proxied? x with
      | some held => m.printed held
      | none => m.printed x) w = (w.printedOf x, w) := by
  rw [Run.exec_bind, Run.exec_world]
  dsimp only
  rw [World.proxied?_data hx]
  exact exec_printed m hd hx

theorem exec_text (m : Machine) (hd : w.HoldsData C) {x : Value} (hx : x.Within (w.data C)) :
    (m.text x).exec w = (w.textOf x, w) := by
  have other := exec_unproxied m hd hx
  unfold text
  rw [Run.exec_bind, Run.exec_world]
  dsimp only
  rw [hd.special? hx "__str__"]
  cases x with
  | str => rfl
  | opaqueRef o =>
    cases o with
    | token | mute => rfl
    | _ => exact other
  | _ => exact other

theorem exec_truthy (m : Machine) (hd : w.HoldsData C) {x : Value} (hx : x.Within (w.data C)) :
    (m.truthy x).exec w = (.ok (w.truthOf x), w) := by
  unfold truthy
  rw [Run.exec_bind, Run.exec_world]
  dsimp only
  rw [hd.special? hx, hd.special? hx]
  dsimp only
  split
  · exact hx.elim
  · rfl

/-- What a definition without a block says, with its name. -/
def noBlockFault (w : World) (name : Value) : Fault :=
  match w.printedOf name with
  | .ok text => .noBlock text
  | .error f => f

/-- A definition without a block of which the name is plain data says so in every world to which
things were added. -/
theorem exec_noBlock (hd : w.HoldsData C) {d : Nat} {name : Value} (hx : name.Within (w.data C))
    (h : w.Shows d "execute_block" .null) (hn : w.Shows d "name" name) (m : Machine) (v : World)
    (hv : w.Extends v) :
    (m.storedBlock (.opaqueRef (.object d))).exec v = (.error (noBlockFault w name), v) := by
  have hr : w.Retains v C :=
    { cells := fun n hn => by
        obtain ⟨x, hx, -⟩ := hd n hn
        rw [hx, hv.cell hx]
      cells_le := hv.cells.length_le
      handles_le := hv.handles.length_le
      marks_le := hv.marks
      logFrom := hv.logFrom }
  unfold storedBlock
  rw [Run.exec_bind, exec_ask m (h.kept hv)]
  dsimp only
  rw [Run.exec_bind, exec_ask m (hn.kept hv)]
  dsimp only
  rw [Run.exec_bind, exec_printed m (hr.holdsData hd) (hx.mono hr.data_below), hr.printedOf hd hx]
  unfold noBlockFault
  cases w.printedOf name <;> rfl

end Machine

end Toolwright
