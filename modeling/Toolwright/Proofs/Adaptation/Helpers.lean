import Toolwright.Proofs.Adaptation.Classes

/-!
# Helpers that classes take over

The helpers of a definition, those of instances and those of the class together, and the attributes
that they become in a class.
-/

namespace Toolwright

set_option autoImplicit false

/-- The helper that a definition has under a name: one of the class, or else one of instances. -/
def Definition.helper? (D : Definition Stored) (name : String) : Option (Scope × Stored) :=
  ((Table.find? D.classHelpers name).map (Scope.ofClass, ·)).or
    ((Table.find? D.instanceHelpers name).map (Scope.ofInstance, ·))

/-- The attribute that a helper becomes. -/
def helperAttribute (h : Scope × Stored) : Attribute :=
  match h.1 with
  | .ofInstance => .ofObject (.forwards h.2.value)
  | .ofClass => .fixed h.2.value

def Definition.merged (D : Definition Stored) : List (String × Scope × Stored) :=
  mergeHelpers (fun a b => decide (a = b)) D.instanceHelpers D.classHelpers

def keptHelper (h : String × Scope × Stored) : Helper := (.str h.1, h.2.1, h.2.2.value)

section Merged

variable {D : Definition Stored}

theorem Definition.merged_eq (D : Definition Stored) :
    D.merged = (D.classHelpers.map fun h => (h.1, Scope.ofClass, h.2)).foldl
      (fun t row => Table.insert row.1 row.2 t)
      (D.instanceHelpers.map fun h => (h.1, Scope.ofInstance, h.2)) := by
  unfold merged mergeHelpers
  rw [List.foldl_map]
  rfl

theorem Definition.nodup_merged (hi : (Table.keys D.instanceHelpers).Nodup) :
    (Table.keys D.merged).Nodup := by
  have hd : (Table.keys (D.instanceHelpers.map fun h => (h.1, Scope.ofInstance, h.2))).Nodup := by
    rw [Table.keys, List.map_map]
    exact hi
  rw [D.merged_eq]
  generalize D.classHelpers.map (fun h => (h.1, Scope.ofClass, h.2)) = rows
  induction rows using List.reverseRecOn with
  | nil => exact hd
  | append_singleton rows row ih =>
    rw [List.foldl_append]
    exact Table.nodup_keys_insert ih _ _

theorem Definition.find?_merged (hc : (Table.keys D.classHelpers).Nodup) (name : String) :
    Table.find? D.merged name = D.helper? name := by
  have hd : (Table.keys (D.classHelpers.map fun h => (h.1, Scope.ofClass, h.2))).Nodup := by
    rw [Table.keys, List.map_map]
    exact hc
  rw [D.merged_eq, Table.find?_foldl, Table.ofRows_of_nodup hd,
    Table.find?_mapValues (fun _ => (Scope.ofClass, ·)),
    Table.find?_mapValues (fun _ => (Scope.ofInstance, ·))]
  rfl

theorem mergeHelpers_kept (D : Definition Stored) :
    mergeHelpers Value.same ((helperRows D.instanceHelpers).map fun row => (Value.str row.1, row.2))
      ((helperRows D.classHelpers).map fun row => (Value.str row.1, row.2)) =
        D.merged.map keptHelper := by
  have merge (rows : List (String × Stored)) (t : List (String × Scope × Stored)) :
      ((helperRows rows).map fun row => (Value.str row.1, row.2)).foldl
        (fun t h => Table.insertBy Value.same h.1 (Scope.ofClass, h.2) t) (t.map keptHelper) =
        (rows.foldl (fun t h => Table.insertBy (fun a b => decide (a = b)) h.1 (Scope.ofClass, h.2) t)
          t).map keptHelper := by
    induction rows generalizing t with
    | nil => rfl
    | cons row rows ih =>
      have step : Table.insertBy Value.same (Value.str row.1) (Scope.ofClass, row.2.value)
          (t.map keptHelper) = (Table.insertBy (fun a b => decide (a = b)) row.1
            (Scope.ofClass, row.2) t).map keptHelper := by
        have inserted := Machine.insertBy_str row.1 (Scope.ofClass, row.2.value)
          (t.map fun h => (h.1, h.2.1, h.2.2.value))
        rw [List.map_map] at inserted
        have renamed := Table.insert_map (fun _ (h : Scope × Stored) => (h.1, h.2.value)) row.1
          (Scope.ofClass, row.2) t
        refine inserted.trans ?_
        rw [renamed, List.map_map]
        rfl
      show List.foldl _ (Table.insertBy Value.same (Value.str row.1) (Scope.ofClass, row.2.value)
        (t.map keptHelper)) _ = _
      rw [step]
      exact ih _
  have start : ((helperRows D.instanceHelpers).map fun row => (Value.str row.1, row.2)).map
      (fun h => (h.1, Scope.ofInstance, h.2)) =
        (D.instanceHelpers.map fun h => (h.1, Scope.ofInstance, h.2)).map keptHelper := by
    simp only [helperRows, List.map_map]
    rfl
  unfold mergeHelpers Definition.merged
  rw [start]
  exact merge D.classHelpers _

theorem Definition.of_mem_merged {h : String × Scope × Stored} (hm : h ∈ D.merged) :
    (h.2.1 = .ofInstance ∧ (h.1, h.2.2) ∈ D.instanceHelpers) ∨
      (h.2.1 = .ofClass ∧ (h.1, h.2.2) ∈ D.classHelpers) := by
  rw [D.merged_eq, List.foldl_map] at hm
  generalize D.classHelpers = rows at hm ⊢
  induction rows using List.reverseRecOn with
  | nil =>
    obtain ⟨row, hrow, rfl⟩ := List.mem_map.mp hm
    exact .inl ⟨rfl, hrow⟩
  | append_singleton rows last ih =>
    rw [List.foldl_append] at hm
    rcases Table.mem_insert hm with hm | rfl
    · exact (ih hm).imp_right fun ⟨hs, hrow⟩ => ⟨hs, List.mem_append_left _ hrow⟩
    · exact .inr ⟨rfl, List.mem_append_right _ (List.mem_singleton_self _)⟩

end Merged

/-- All that a class itself calls as a helper is a helper of the definition, under a name that is not
reserved. -/
structure Definition.Covers (D : Definition Stored) (reserved : List String)
    (own : String → Option Attribute) : Prop where
  ofInstance : ∀ key x, own key = some (.ofObject (.forwards x)) →
    reserved.contains key = false ∧ ∃ s, (key, s) ∈ D.instanceHelpers ∧ s.value = x
  ofClass : ∀ key x, own key = some (.fixed x) →
    reserved.contains key = false ∧ ∃ s, (key, s) ∈ D.classHelpers ∧ s.value = x

theorem Definition.Covers.set {D : Definition Stored} {reserved : List String}
    {own own' : String → Option Attribute} (h : D.Covers reserved own)
    (hset : ∀ key, (∀ x, own' key ≠ some (.value x)) → own' key = none ∨ own' key = own key) :
    D.Covers reserved own' where
  ofInstance key x hx := by
    rcases hset key (fun y hy => by rw [hy] at hx; cases hx) with hnone | heq
    · rw [hnone] at hx
      cases hx
    · exact h.ofInstance key x (heq ▸ hx)
  ofClass key x hx := by
    rcases hset key (fun y hy => by rw [hy] at hx; cases hx) with hnone | heq
    · rw [hnone] at hx
      cases hx
    · exact h.ofClass key x (heq ▸ hx)

/-! ## Helpers below other helpers -/

section Over

variable {D B : Definition Stored} {name : String}

def Definition.bare : Definition Stored := { name := .null }

/-- The names of helpers that stay what they are in a class below. Those that begin with underscores are
not reserved. -/
def Definition.reserves (B : Definition Stored) (name : String) : Bool :=
  !name.startsWith "__" && (B.helper? name).isSome

/-- The names of helpers that take the place of what is found above. -/
def Definition.hides (D : Definition Stored) (name : String) : Bool :=
  name.startsWith "__" && !ClassPlan.standing.contains name && (D.helper? name).isSome

/-- A definition with the helpers that objects have when it is adapted to a class that has helpers
already: those of the class, and its own where these are not in their way. -/
def Definition.atop (D B : Definition Stored) : Definition Stored :=
  { D with
    instanceHelpers := D.instanceHelpers.filter (fun row => !B.reserves row.1) ++
      B.instanceHelpers.filter fun row => !D.hides row.1
    classHelpers := D.classHelpers.filter (fun row => !B.reserves row.1) ++
      B.classHelpers.filter fun row => !D.hides row.1 }

theorem Definition.of_reserves (h : B.reserves name = true) :
    name.startsWith "__" = false ∧ ∃ x, B.helper? name = some x := by
  obtain ⟨hs, hx⟩ := Bool.and_eq_true_iff.mp h
  exact ⟨(Bool.not_eq_true' _).mp hs, Option.isSome_iff_exists.mp hx⟩

theorem Definition.reserves_some (hs : name.startsWith "__" = false) {x : Scope × Stored}
    (hx : B.helper? name = some x) : B.reserves name = true := by
  unfold reserves
  rw [hs, hx]
  rfl

theorem Definition.of_hides (h : D.hides name = true) :
    name.startsWith "__" = true ∧ name ∉ ClassPlan.standing ∧ ∃ x, D.helper? name = some x := by
  obtain ⟨hs, hx⟩ := Bool.and_eq_true_iff.mp h
  obtain ⟨hs, hst⟩ := Bool.and_eq_true_iff.mp hs
  refine ⟨hs, fun hm => ?_, Option.isSome_iff_exists.mp hx⟩
  rw [List.contains_iff_mem.mpr hm] at hst
  cases hst

theorem Definition.not_reserves_special (h : name.startsWith "__" = true) : B.reserves name = false := by
  unfold reserves
  rw [h]
  rfl

theorem Definition.not_hides_plain (h : name.startsWith "__" = false) : D.hides name = false := by
  unfold hides
  rw [h]
  rfl

theorem Definition.not_reserves_bare (name : String) : bare.reserves name = false := Bool.and_false _

theorem Definition.atop_bare (D : Definition Stored) : D.atop bare = D := by
  have whole (rows : List (String × Stored)) :
      rows.filter (fun row => !bare.reserves row.1) ++ [].filter (fun row => !D.hides row.1) = rows := by
    rw [List.filter_nil, List.append_nil, List.filter_eq_self]
    intro row _
    rw [not_reserves_bare]
    rfl
  unfold atop
  rw [show bare.instanceHelpers = [] from rfl, show bare.classHelpers = [] from rfl, whole, whole]

theorem Definition.find?_atop (rows above : List (String × Stored)) (name : String) :
    Table.find? (rows.filter (fun row => !B.reserves row.1) ++
        above.filter fun row => !D.hides row.1) name =
      (if B.reserves name then none else Table.find? rows name).or
        (if D.hides name then none else Table.find? above name) := by
  rw [Table.find?_append, Table.find?_filter (fun key => !B.reserves key),
    Table.find?_filter (fun key => !D.hides key)]
  cases B.reserves name <;> cases D.hides name <;> rfl

theorem Definition.helper?_none_iff : D.helper? name = none ↔
    Table.find? D.classHelpers name = none ∧ Table.find? D.instanceHelpers name = none := by
  unfold helper?
  rw [Option.or_eq_none_iff, Option.map_eq_none_iff, Option.map_eq_none_iff]

theorem Definition.helper?_atop_above (h : B.reserves name = true) :
    (D.atop B).helper? name = B.helper? name := by
  unfold helper? atop
  rw [find?_atop, find?_atop, h, not_hides_plain (of_reserves h).1]
  rfl

theorem Definition.helper?_atop_hidden (h : D.hides name = true) :
    (D.atop B).helper? name = D.helper? name := by
  unfold helper? atop
  rw [find?_atop, find?_atop, h, not_reserves_special (of_hides h).1]
  simp only [Bool.false_eq_true, if_false, if_true, Option.or_none]

theorem Definition.helper?_atop_none (hr : B.reserves name = false) (hh : D.hides name = false)
    (h : D.helper? name = none ∨ B.helper? name = none) :
    (D.atop B).helper? name = (D.helper? name).or (B.helper? name) := by
  have found : (D.atop B).helper? name =
      (((Table.find? D.classHelpers name).or (Table.find? B.classHelpers name)).map
        (Scope.ofClass, ·)).or
      (((Table.find? D.instanceHelpers name).or (Table.find? B.instanceHelpers name)).map
        (Scope.ofInstance, ·)) := by
    unfold helper? atop
    rw [find?_atop, find?_atop, hr, hh]
    rfl
  rw [found]
  rcases h with h | h
  · obtain ⟨hc, hi⟩ := helper?_none_iff.mp h
    rw [h, hc, hi]
    rfl
  · obtain ⟨hc, hi⟩ := helper?_none_iff.mp h
    rw [h, hc, hi, Option.or_none, Option.or_none, Option.or_none]
    rfl

/-- Under a name without underscores the helper of the class above counts. -/
theorem Definition.helper?_atop_plain (h : name.startsWith "__" = false) :
    (D.atop B).helper? name = (B.helper? name).or (D.helper? name) := by
  cases hb : B.helper? name with
  | some x =>
    rw [helper?_atop_above (reserves_some h hb), hb]
    rfl
  | none =>
    have reserves : B.reserves name = false := by
      unfold reserves
      rw [hb]
      exact Bool.and_false _
    rw [helper?_atop_none reserves (not_hides_plain h) (.inr hb), hb, Option.or_none]
    rfl

theorem Definition.helper?_atop_special (h : name.startsWith "__" = true)
    (hs : name ∉ ClassPlan.standing) :
    (D.atop B).helper? name = (D.helper? name).or (B.helper? name) := by
  have standing : ClassPlan.standing.contains name = false :=
    Bool.eq_false_iff.mpr fun hc => hs (List.contains_iff_mem.mp hc)
  cases hd : D.helper? name with
  | some x =>
    have hides : D.hides name = true := by
      unfold hides
      rw [h, standing, hd]
      rfl
    rw [helper?_atop_hidden hides, hd]
    rfl
  | none =>
    have hides : D.hides name = false := by
      unfold hides
      rw [hd]
      exact Bool.and_false _
    rw [helper?_atop_none (not_reserves_special h) hides (.inl hd), hd]

theorem Definition.helper?_atop_cases (hs : name ∉ ClassPlan.standing) :
    (D.atop B).helper? name = D.helper? name ∨ (D.atop B).helper? name = B.helper? name := by
  cases h : name.startsWith "__" with
  | true =>
    rw [helper?_atop_special h hs]
    cases D.helper? name with
    | some x => exact .inl rfl
    | none => exact .inr rfl
  | false =>
    rw [helper?_atop_plain h]
    cases B.helper? name with
    | some x => exact .inr rfl
    | none => exact .inl rfl

end Over

namespace Machine

variable {w v : World} {p : Draft} {D : Definition Stored} {C : Nat → Prop}

theorem exec_rowsOf (m : Machine) {n : Nat} {rows : Named} (h : w.cells[n]? = some (.ofRows rows)) :
    (m.rowsOf (cellValue n)).exec w =
      (.ok (rows.map fun row => (Value.str row.1, row.2)), w) := by
  unfold rowsOf
  rw [Run.exec_bind, exec_lookCell h]
  rfl

theorem exec_askTable (m : Machine) (h : w.Drafts p D) (hb : w.Bundled) {field : String} {x : Value}
    (hp : Session.start.isPlain (.made 4) field = true)
    (hx : Table.find? [("instance", cellValue p.ofInstance),
      ("class_scope", cellValue p.ofClass)] field = some x) :
    (m.ask (objectValue p.table) field).exec w = (.ok x, w) :=
  exec_askSet m h.table hb (by decide) (by decide) hp hx

theorem exec_helpersOf (m : Machine) (h : w.Drafts p D) (hb : w.Bundled) :
    (m.helpersOf p.value).exec w = (.ok (D.merged.map keptHelper), w) := by
  unfold helpersOf
  rw [Run.exec_bind, exec_askHelpers m h hb]
  dsimp only
  rw [Run.exec_bind, exec_askTable m h hb
    (show Session.start.isPlain (.made 4) "instance" = true by decide) rfl]
  dsimp only
  rw [Run.exec_bind, exec_rowsOf m h.ofInstance]
  dsimp only
  rw [Run.exec_bind, exec_askTable m h hb
    (show Session.start.isPlain (.made 4) "class_scope" = true by decide) rfl]
  dsimp only
  rw [Run.exec_bind, exec_rowsOf m h.ofClass]
  dsimp only
  rw [mergeHelpers_kept]
  rfl

end Machine

end Toolwright
