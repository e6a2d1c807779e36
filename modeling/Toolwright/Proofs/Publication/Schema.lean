import Toolwright.Proofs.Declaration.Rows
import Toolwright.Tool.Publication

/-!
# Published schemas

Both hosts publish a parameter under the text of its name. A later declaration of a name takes the
place of an earlier one in the properties, but the required names of a served schema only grow.
-/

namespace Toolwright

set_option autoImplicit false

theorem of_mapM_cons_ok {α β : Type} {f : α → Except Fault β} {x : α} {xs : List α} {ys : List β}
    (h : (x :: xs).mapM f = .ok ys) :
    ∃ y rest, f x = .ok y ∧ xs.mapM f = .ok rest ∧ ys = y :: rest := by
  rw [List.mapM_cons] at h
  obtain ⟨y, hy, h⟩ := of_bind_ok h
  obtain ⟨rest, hrest, h⟩ := of_bind_ok h
  cases h
  exact ⟨y, rest, hy, hrest, rfl⟩

/-! ## Parameters in the order of their declarations -/

/-- The text of a name and the property that is published under it. -/
def ParamSpec.row (p : ParamSpec) : Except Fault (String × Value) := do
  let property ← propertySchema p.type p.description
  return (← p.name.text, property)

theorem ParamSpec.row_eq {p : ParamSpec} {name : String} {property : Value}
    (hp : propertySchema p.type p.description = .ok property) (hn : p.name.text = .ok name) :
    p.row = .ok (name, property) := by
  unfold ParamSpec.row
  rw [hp, hn]
  rfl

section Required

variable {isRequired : ParamSpec → Bool} {rows : List (ParamSpec × String)} {name : String}

/-- The names of the required ones among parameters with the texts of their names. -/
def requiredOf (isRequired : ParamSpec → Bool) (rows : List (ParamSpec × String)) : List String :=
  (rows.filter (isRequired ·.1)).map (·.2)

theorem requiredOf_cons (row : ParamSpec × String) (rows : List (ParamSpec × String)) :
    requiredOf isRequired (row :: rows) =
      if isRequired row.1 then row.2 :: requiredOf isRequired rows
      else requiredOf isRequired rows := by
  unfold requiredOf
  rw [List.filter_cons]
  split <;> rfl

theorem requiredOf_sublist : (requiredOf isRequired rows).Sublist (rows.map (·.2)) :=
  List.filter_sublist.map _

theorem mem_requiredOf :
    name ∈ requiredOf isRequired rows ↔ ∃ p, (p, name) ∈ rows ∧ isRequired p = true := by
  unfold requiredOf
  constructor
  · intro h
    obtain ⟨⟨p, _⟩, hrow, rfl⟩ := List.mem_map.mp h
    obtain ⟨hmem, hp⟩ := List.mem_filter.mp hrow
    exact ⟨p, hmem, hp⟩
  · rintro ⟨p, hmem, hp⟩
    exact List.mem_map.mpr ⟨(p, name), List.mem_filter.mpr ⟨hmem, hp⟩, rfl⟩

theorem eq_of_mem_rows (h : (rows.map (·.2)).Nodup) {p q : ParamSpec} (hp : (p, name) ∈ rows)
    (hq : (q, name) ∈ rows) : p = q :=
  congrArg Prod.fst (List.inj_on_of_nodup_map h hp hq rfl)

end Required

namespace InputSchema

theorem ofParamsFrom_eq {ps : List ParamSpec} {s t : InputSchema} (h : ofParamsFrom s ps = .ok t) :
    ∃ rows, ps.mapM ParamSpec.row = .ok rows ∧
      t.properties = rows.foldl (fun t row => Table.insert row.1 row.2 t) s.properties ∧
      t.required = s.required ++ requiredOf (·.required.truthy) (ps.zip (Table.keys rows)) := by
  induction ps generalizing s with
  | nil =>
    cases h
    exact ⟨[], rfl, rfl, (List.append_nil _).symm⟩
  | cons p ps ih =>
    rw [ofParamsFrom] at h
    obtain ⟨property, hp, h⟩ := of_bind_ok h
    obtain ⟨name, hn, h⟩ := of_bind_ok h
    obtain ⟨rows, hrows, hprops, hreq⟩ := ih h
    refine ⟨(name, property) :: rows, ?_, hprops, ?_⟩
    · rw [List.mapM_cons, p.row_eq hp hn, hrows]
      rfl
    · have hkeys : Table.keys ((name, property) :: rows) = name :: Table.keys rows := rfl
      rw [hreq, hkeys, List.zip_cons_cons, requiredOf_cons]
      dsimp only
      split
      · rw [List.append_assoc]
        rfl
      · rfl

end InputSchema

end Toolwright
