import Toolwright.Proofs.Adaptation.Classes
import Toolwright.Tool.Publication

/-!
# Parameters of classes

A class of a function-calling host keeps its parameters in a table of its own, which starts as a copy
of the table of the class above. A parameter that is declared takes the place of one of its name.
-/

namespace Toolwright

set_option autoImplicit false

/-- Where a class keeps its parameters. -/
structure Shelf where
  /-- The cell of the table. -/
  cell : Nat
  /-- The object of each parameter and the cell of its attributes, under its name. -/
  rows : List (String × Nat × Nat)

def Shelf.cells (s : Shelf) : List Nat := s.cell :: s.rows.map (·.2.2)

def Shelf.adding (s : Shelf) (w : World) (name : String) : Shelf :=
  ⟨s.cell, Table.insert name (w.objects.length, w.cells.length) s.rows⟩

def objectRows (rows : List (String × Nat × Nat)) : Named :=
  rows.map fun row => (row.1, objectValue row.2.1)

theorem objectRows_insert (name : String) (kept : Nat × Nat) (rows : List (String × Nat × Nat)) :
    objectRows (Table.insert name kept rows) =
      Table.insert name (objectValue kept.1) (objectRows rows) :=
  (Table.insert_map (fun _ (kept : Nat × Nat) => objectValue kept.1) name kept rows).symm

namespace Parameter

def values (p : Parameter) : List Value := [.str p.name, p.type, p.description, p.required]

def fields (p : Parameter) : Named := Shape.toolParameter.fields.zip p.values

end Parameter

namespace World

variable {w v : World} {s : Shelf} {t : ParameterTable} {C own : Nat → Prop}

/-- An object that is the parameter of a row. -/
structure ParameterAt (w : World) (row : String × Nat × Nat) (p : String × Parameter) : Prop where
  key : row.1 = p.1
  name : p.2.name = p.1
  object : w.ObjectAt row.2.1 Shape.toolParameter.cls row.2.2 p.2.fields

/-- The parameters of a class stand in a world as they were declared, and are plain data. -/
structure Shelves (w : World) (s : Shelf) (t : ParameterTable) (C : Nat → Prop) : Prop where
  cell : w.cells[s.cell]? = some (.ofRows (objectRows s.rows))
  rows : List.Forall₂ w.ParameterAt s.rows t
  names : (Table.keys t).Nodup
  cells : s.cell ∉ s.rows.map (·.2.2)
  apart : ∀ n ∈ s.cells, ¬ C n
  values : ∀ p ∈ t, ∀ x ∈ p.2.values, x.Within (w.data C) ∧ x.IsShared

theorem Later.shelves (hl : w.Later v own) (h : w.Shelves s t C) (hd : w.HoldsData C)
    (ho : ∀ n ∈ s.cells, ¬ own n) (hc : ∀ n, C n → ¬ own n) : v.Shelves s t C where
  cell := hl.cells _ _ (ho _ List.mem_cons_self) h.cell
  rows := by
    have hrows := (List.forall₂_and_left _ _).mpr
      ⟨fun row hr => ho row.2.2 (List.mem_cons_of_mem _ (List.mem_map_of_mem hr)), h.rows⟩
    exact hrows.imp fun row p hp => ⟨hp.2.key, hp.2.name, hl.objectAt hp.2.object hp.1⟩
  names := h.names
  cells := h.cells
  apart := h.apart
  values p hp x hx :=
    ⟨(h.values p hp x hx).1.mono (hl.retains hd hc).data_below, (h.values p hp x hx).2⟩

theorem Shelves.withClasses (h : w.Shelves s t C) (classes : List HostClass) :
    World.Shelves { w with classes } s t C :=
  { h with rows := h.rows.imp fun _ _ hp => ⟨hp.key, hp.name, hp.object.object, hp.object.cell⟩ }

theorem Shelves.keys_eq (h : w.Shelves s t C) : Table.keys s.rows = Table.keys t := by
  have keys_eq {rows : List (String × Nat × Nat)} {t : ParameterTable}
      (hr : List.Forall₂ w.ParameterAt rows t) : Table.keys rows = Table.keys t := by
    induction hr with
    | nil => rfl
    | cons hp _ ih => exact congr (congrArg List.cons hp.key) ih
  exact keys_eq h.rows

theorem Shelves.lt (h : w.Shelves s t C) {n : Nat} (hn : n ∈ s.cells) : n < w.cells.length := by
  rcases List.mem_cons.mp hn with rfl | hn
  · exact (List.getElem?_eq_some_iff.mp h.cell).1
  · obtain ⟨row, hrow, rfl⟩ := List.mem_map.mp hn
    obtain ⟨i, hi, rfl⟩ := List.getElem_of_mem hrow
    exact (List.getElem?_eq_some_iff.mp (h.rows.get hi (h.rows.length_eq ▸ hi)).object.cell).1

theorem Shelves.mono (h : w.Shelves s t C) {C' : Nat → Prop} (hC : ∀ n, C n → C' n)
    (ha : ∀ n ∈ s.cells, ¬ C' n) : w.Shelves s t C' where
  cell := h.cell
  rows := h.rows
  names := h.names
  cells := h.cells
  apart := ha
  values p hp x hx :=
    ⟨(h.values p hp x hx).1.mono (w.data_mono hC), (h.values p hp x hx).2⟩

theorem forall₂_insert {α β : Type} {R : String × α → String × β → Prop} (key : String) {a : α}
    {b : β} (hnew : R (key, a) (key, b)) (hkey : ∀ x y, R x y → x.1 = y.1)
    {xs : List (String × α)} {ys : List (String × β)} (h : List.Forall₂ R xs ys) :
    List.Forall₂ R (Table.insert key a xs) (Table.insert key b ys) := by
  induction h with
  | nil => exact .cons hnew .nil
  | @cons x y xs ys hxy hrest ih =>
    rw [Table.insert_cons, Table.insert_cons, ← hkey x y hxy]
    split
    · rename_i he
      rw [he]
      exact .cons hnew hrest
    · exact .cons hxy ih

end World

namespace Machine

variable {w : World} {n : Nat} {s : Shelf} {t : ParameterTable} {C : Nat → Prop}

theorem exec_parametersOf (m : Machine) {c : ClassRef}
    (h : ∃ k, w.find? c "_parameters" = some (.made k, .value (cellValue s.cell))) :
    (m.parametersOf c).exec w = (.ok (cellValue s.cell), w) := by
  obtain ⟨k, h⟩ := h
  unfold parametersOf ask
  rw [Run.exec_bind, Link.reach_class (by decide) (by decide), h]
  rfl

theorem exec_copyParameters (k : Nat) (hs : w.Shelves s t C) (hb : w.Bundled)
    (h : ∃ k, w.find? (.made n) "_parameters" = some (.made k, .value (cellValue s.cell))) :
    ((nested (k + 1)).copyParameters (.made n)).exec w = (.ok .null,
      (w.withCell (.ofRows (objectRows s.rows))).setAttribute n "_parameters"
        (.value (cellValue w.cells.length))) := by
  have hd : (Table.keys (objectRows s.rows)).Nodup := by
    rw [objectRows, Table.keys, List.map_map]
    have hn := hs.names
    rw [← hs.keys_eq] at hn
    exact hn
  unfold copyParameters
  rw [Run.exec_bind, exec_parametersOf _ h]
  dsimp only
  rw [Run.exec_bind, exec_copyRows k hd hs.cell hb.places]
  dsimp only
  exact exec_declareOn ⟨by decide, by decide⟩ _

end Machine

def World.withParameter (w : World) (s : Shelf) (p : Parameter) : World :=
  (w.withObjectOf Shape.toolParameter.cls p.fields).put s.cell
    (.ofRows (objectRows (s.adding w p.name).rows))

namespace Machine

variable {w : World} {n : Nat} {s : Shelf} {t : ParameterTable} {C : Nat → Prop}

/-- A parameter of a class whose name is plain data is declared under the text of its name. -/
theorem exec_declareParameter (k : Nat) (hs : w.Shelves s t C) (hb : w.Bundled)
    (hd : w.HoldsData C)
    (h : ∃ k, w.find? (.made n) "_parameters" = some (.made k, .value (cellValue s.cell)))
    {p : Parameter} {name : Value} (hn : name.Within (w.data C)) (ht : w.textOf name = .ok p.name)
    (hx : ∀ x ∈ [p.type, p.description, p.required], x.Within (w.data C) ∧ x.IsShared) :
    ((nested (k + 2)).declareParameter (.made n) name p.type p.description p.required).exec w =
        (.ok .null, w.withParameter s p) ∧
      w.Later (w.withParameter s p) (· = s.cell) ∧
      (w.withParameter s p).Shelves (s.adding w p.name) (Table.insert p.name p t) C ∧
      ∀ row ∈ (s.adding w p.name).rows, row ∈ s.rows ∨ w.cells.length ≤ row.2.2 := by
  let u := w.withObjectOf Shape.toolParameter.cls p.fields
  let rows := (s.adding w p.name).rows
  have hl : w.Later u (fun _ => False) := (World.Later.refl w _).withObjectOf _ _
  have hu : u.Shelves s t C := hl.shelves hs hd (fun _ _ => id) (fun _ _ => id)
  have hr := hl.retains hd fun _ _ => id
  have hput : u.Later (u.put s.cell (.ofRows (objectRows rows))) (· = s.cell) :=
    (World.Later.refl u (· = s.cell)).put (.inl rfl) _
  have hlater : w.Later (u.put s.cell (.ofRows (objectRows rows))) (· = s.cell) :=
    (hl.mono fun _ => False.elim).trans hput fun _ hn _ => hn
  have hcell : s.cell < w.cells.length := hs.lt List.mem_cons_self
  have hnew : ∀ row ∈ rows, row ∈ s.rows ∨ row.2.2 = w.cells.length := by
    intro row hm
    exact (Table.mem_insert hm).imp_right fun he => congrArg (·.2.2) he
  have hvalues : ∀ x ∈ p.values, x.Within (w.data C) ∧ x.IsShared := by
    intro x hm
    rcases List.mem_cons.mp hm with rfl | hm
    · exact ⟨trivial, rfl⟩
    · exact hx x hm
  refine ⟨?_, hlater, ?_, ?_⟩
  · have made := exec_makeRecord k .toolParameter (by decide) hb
      (show p.values.length = _ from rfl) fun x hm => (hvalues x hm).2
    have hfound : ∃ k, u.find? (.made n) "_parameters" =
        some (.made k, .value (cellValue s.cell)) := h
    have htext : u.textOf name = .ok p.name := (hr.textOf hd hn).trans ht
    unfold declareParameter
    rw [Run.exec_bind, exec_text _ hd hn, ht]
    dsimp only
    rw [Run.exec_bind, show [("name", Value.str p.name), ("type", p.type), ("description", p.description),
      ("required", p.required)] = Shape.toolParameter.fields.zip p.values from rfl, made]
    show Run.exec _ u = _
    rw [Run.exec_bind, exec_parametersOf _ hfound]
    dsimp only
    rw [Run.exec_bind, exec_text _ (hr.holdsData hd) (hn.mono hr.data_below), htext]
    dsimp only
    rw [Run.exec_bind, exec_setItem _ hu.cell, insertBy_str]
    dsimp only
    unfold World.withParameter Shelf.adding
    rw [objectRows_insert]
    rfl
  · have hobj : (u.put s.cell (.ofRows (objectRows rows))).ObjectAt w.objects.length
        Shape.toolParameter.cls w.cells.length p.fields :=
      hput.objectAt (World.objectAt_withObjectOf w _ _) (by omega)
    exact {
      cell := List.getElem?_set_self (Nat.lt_of_lt_of_le hcell hl.cells_le)
      rows := by
        refine World.forall₂_insert p.name ⟨rfl, rfl, hobj⟩ (fun _ _ hp => hp.key) ?_
        have old := (List.forall₂_and_left _ _).mpr
          ⟨fun row hrow (he : row.2.2 = s.cell) => hs.cells (List.mem_map.mpr ⟨row, hrow, he⟩),
            hu.rows⟩
        exact old.imp fun row q hq => ⟨hq.2.key, hq.2.name, hput.objectAt hq.2.object hq.1⟩
      names := Table.nodup_keys_insert hs.names _ _
      cells := by
        intro hm
        obtain ⟨row, hrow, he⟩ := List.mem_map.mp hm
        rcases hnew row hrow with hold | hlast
        · exact hs.cells (List.mem_map.mpr ⟨row, hold, he⟩)
        · exact absurd (hlast.symm.trans he) (Nat.ne_of_gt hcell)
      apart := by
        intro k hk hc
        have hlt := hd.lt hc
        rcases List.mem_cons.mp hk with rfl | hk
        · exact hs.apart _ List.mem_cons_self hc
        · obtain ⟨row, hrow, rfl⟩ := List.mem_map.mp hk
          rcases hnew row hrow with hold | hlast
          · exact hs.apart _ (List.mem_cons_of_mem _ (List.mem_map_of_mem hold)) hc
          · omega
      values := by
        intro q hq x hm
        have hback := (hlater.retains hd fun k hk he =>
          hs.apart _ List.mem_cons_self (he ▸ hk)).data_below
        rcases Table.mem_insert hq with hold | rfl
        · exact ⟨(hs.values q hold x hm).1.mono hback, (hs.values q hold x hm).2⟩
        · exact ⟨(hvalues x hm).1.mono hback, (hvalues x hm).2⟩ }
  · intro row hm
    exact (hnew row hm).imp_right fun he => Nat.le_of_eq he.symm

end Machine

end Toolwright
