import Toolwright.Proofs.Adaptation.Course
import Toolwright.Proofs.Publication.Listings

/-!
# Hosts that stay as they are

A class tells what it told as long as it finds the same methods, what was declared on it is the same,
and nothing has changed in the cells of its parameters or of its schema.
-/

namespace Toolwright

set_option autoImplicit false

namespace World

variable {w v u : World} {n : Nat} {C : Nat → Prop} {s : Shelf} {card : FunctionCard}
  {served : ServingCard} {name description : Value}

/-- A class as it was: it finds what it found, but for what was declared on classes above it, and has
what was declared on it. -/
structure KeepsClass (w v : World) (n : Nat) : Prop where
  rooted : w.Rooted (.made n) → v.Rooted (.made n)
  finds : ∀ key, key ∉ declaredNames → v.find? (.made n) key = w.find? (.made n) key
  declared : ∀ key ∈ declaredNames, v.own? (.made n) key = w.own? (.made n) key
  className : v.className (.made n) = w.className (.made n)

theorem keepsClass_congr (h : v.classes = w.classes) (n : Nat) : w.KeepsClass v n where
  rooted hr k hk := by
    rw [lineage_congr h] at hk
    rw [h]
    exact hr k hk
  finds key _ := find?_congr h _ key
  declared key _ := own?_congr h _ key
  className := className_congr h _

theorem LeadsTo.keepsClass (h : w.LeadsTo v) (hn : w.Rooted (.made n))
    (hd : ∀ key ∈ declaredNames, v.own? (.made n) key = w.own? (.made n) key) :
    w.KeepsClass v n where
  rooted := h.rooted
  finds _ hk := h.find? hn hk
  declared := hd
  className := h.className hn

theorem Extends.retains (h : w.Extends v) (hd : w.HoldsData C) : w.Retains v C where
  cells n hn := by
    obtain ⟨x, hx, -⟩ := hd n hn
    rw [hx, h.cell hx]
  cells_le := h.cells.length_le
  handles_le := h.handles.length_le
  marks_le := h.marks
  logFrom := h.logFrom

theorem HasMethods.kept {methods : List (String × HostMethod)}
    (h : w.HasMethods (.made n) methods) (hk : w.KeepsClass v n)
    (hm : ∀ row ∈ methods, row.1 ∉ declaredNames) : v.HasMethods (.made n) methods where
  rooted := hk.rooted h.rooted
  finds row hr := by
    rw [hk.finds _ (hm row hr)]
    exact h.finds row hr

theorem Titled.kept (h : w.Titled n name description C) (hk : w.KeepsClass v n)
    (hr : w.Retains v C) : v.Titled n name description C where
  tellsName := by
    rw [hk.finds _ (by decide)]
    exact h.tellsName
  tellsDescription := by
    rw [hk.finds _ (by decide)]
    exact h.tellsDescription
  ownName := by
    rw [hk.declared _ (by decide)]
    exact h.ownName
  ownDescription := by
    rw [hk.declared _ (by decide)]
    exact h.ownDescription
  data := ⟨h.data.1.mono hr.data_below, h.data.2.mono hr.data_below⟩

theorem ObjectAt.stays {o k j : Nat} {fields : Named} (h : w.ObjectAt o k j fields)
    (ho : w.objects <+: v.objects) (hc : ∀ x, w.cells[j]? = some x → v.cells[j]? = some x) :
    v.ObjectAt o k j fields :=
  ⟨getElem?_of_extended ho h.object, hc _ h.cell⟩

theorem Shelves.kept {t : ParameterTable} (h : w.Shelves s t C) (hr : w.Retains v C)
    (ho : w.objects <+: v.objects)
    (hc : ∀ k ∈ s.cells, ∀ x, w.cells[k]? = some x → v.cells[k]? = some x) :
    v.Shelves s t C where
  cell := hc _ List.mem_cons_self _ h.cell
  rows := by
    have hrows := (List.forall₂_and_left _ _).mpr
      ⟨fun row hrow => hc row.2.2 (List.mem_cons_of_mem _ (List.mem_map_of_mem hrow)), h.rows⟩
    exact hrows.imp fun row p hp => ⟨hp.2.key, hp.2.name, hp.2.object.stays ho hp.1⟩
  names := h.names
  cells := h.cells
  apart := h.apart
  values p hp x hx := ⟨(h.values p hp x hx).1.mono hr.data_below, (h.values p hp x hx).2⟩

/-- A class of a function-calling host stays one, with what was declared on it. -/
theorem FunctionHost.kept (h : w.FunctionHost n card s C) (hk : w.KeepsClass v n)
    (hr : w.Retains v C) (ho : w.objects <+: v.objects)
    (hc : ∀ k ∈ s.cells, ∀ x, w.cells[k]? = some x → v.cells[k]? = some x) :
    v.FunctionHost n card s C where
  toTitled := h.toTitled.kept hk hr
  methods := h.methods.kept hk (by decide)
  parameters := by
    rw [hk.finds _ (by decide)]
    exact h.parameters
  shelf := h.shelf.kept hr ho hc

theorem ServingHost.kept (h : w.ServingHost n served C) (hk : w.KeepsClass v n)
    (hr : w.Retains v C) (ho : w.objects <+: v.objects)
    (hc : ∀ k, w.HasSchemaCell n k → ∀ x, w.cells[k]? = some x → v.cells[k]? = some x) :
    v.ServingHost n served C where
  toTitled := h.toTitled.kept hk hr
  methods := h.methods.kept hk (by decide)
  schema := by
    have hcell := fun o (he : w.own? (.made n) "_input_schema" = some (.value (objectValue o))) obj
      hobj k hk => hc k ⟨o, he, obj, hobj, hk⟩
    rw [hk.declared _ (by decide)]
    have hs := h.schema
    generalize w.own? (.made n) "_input_schema" = a at hs hcell
    generalize served.schema = fields at hs
    cases hs with
    | none => exact .none
    | null => exact .null
    | given hx hy hobj =>
      exact .given (hx.mono hr.data_below) (hy.mono hr.data_below)
        (hobj.stays ho (hcell _ rfl _ hobj.object _ rfl))

end World

namespace Session

variable {w v : World} {n : Nat} {C : Nat → Prop} {s : Shelf} {card : FunctionCard}
  {served : ServingCard} {c c' : String}

/-- A class of a function-calling host that stays one tells what it told. -/
theorem function_tells_kept (hb : w.Bundled) (hb' : v.Bundled) (hd : w.HoldsData C)
    (hr : w.Retains v C) (h : w.FunctionHost n card s C) (h' : v.FunctionHost n card s C)
    (hclass : v.className (.made n) = w.className (.made n))
    (hc : Table.find? w.classIds c = some (.made n))
    (hc' : Table.find? v.classIds c' = some (.made n)) (g : FunctionGetter) :
    (perform v (.callClass c' g.attribute [] [])).1.outcome =
      (perform w (.callClass c g.attribute [] [])).1.outcome := by
  rw [function_tells hb' (hr.holdsData hd) h' hc' g, function_tells hb hd h hc g, hclass,
    hr.functionTells hd h.isData]

theorem serving_tells_kept (hb : w.Bundled) (hb' : v.Bundled) (hd : w.HoldsData C)
    (hr : w.Retains v C) (h : w.ServingHost n served C) (h' : v.ServingHost n served C)
    (hclass : v.className (.made n) = w.className (.made n))
    (hc : Table.find? w.classIds c = some (.made n))
    (hc' : Table.find? v.classIds c' = some (.made n)) (g : ServingGetter) :
    (perform v (.callClass c' g.attribute [] [])).1.outcome =
      (perform w (.callClass c g.attribute [] [])).1.outcome := by
  rw [serving_tells hb' (hr.holdsData hd) h' hc' g, serving_tells hb hd h hc g, hclass,
    hr.servingTells hd h.isData]

end Session

end Toolwright
