import Toolwright.Proofs.Renaming.Value

/-!
# Extents of values

What a block can get hold of: the cells and functions that an extent names, marks below a bound, and
neither objects nor classes nor records. Values that are made of values of an extent stay in it.
-/

namespace Toolwright

set_option autoImplicit false

/-- The cells, the functions and the marks that may stand in a value. -/
structure Extent where
  cell : Nat → Prop
  routine : Nat → Prop
  marks : Nat

/-- What one extent names is named by the other. -/
structure Extent.Below (s t : Extent) : Prop where
  cell : ∀ n, s.cell n → t.cell n
  routine : ∀ r, s.routine r → t.routine r
  marks : s.marks ≤ t.marks

variable {s t : Extent}

theorem Extent.Below.refl (s : Extent) : s.Below s :=
  ⟨fun _ h => h, fun _ h => h, Nat.le_refl _⟩

theorem Extent.Below.trans {s t u : Extent} (h : s.Below t) (h' : t.Below u) : s.Below u :=
  ⟨fun n hn => h'.cell n (h.cell n hn), fun r hr => h'.routine r (h.routine r hr),
    Nat.le_trans h.marks h'.marks⟩

def Binary64.Within (s : Extent) : Binary64 → Prop
  | .nan mark => mark < s.marks
  | .infinity _ => True
  | .finite .. => True

def Opaque.Within (s : Extent) : Opaque → Prop
  | .token serial _ => serial < s.marks
  | .mute serial _ => serial < s.marks
  | .routine r => s.routine r
  | .place (.cell n) => s.cell n
  | .plain .. => True
  | _ => False

mutual

def Value.Within (s : Extent) : Value → Prop
  | .null => True
  | .bool _ => True
  | .int _ => True
  | .float x => x.Within s
  | .str _ => True
  | .bytes _ => True
  | .list xs => Value.WithinItems s xs
  | .tuple xs => Value.WithinItems s xs
  | .dict rows => Value.WithinRows s rows
  | .mapping rows => Value.WithinRows s rows
  | .set xs => Value.WithinItems s xs
  | .frozenset xs => Value.WithinItems s xs
  | .opaqueRef o => o.Within s
  | .record .. => False

def Value.WithinItems (s : Extent) : List Value → Prop
  | [] => True
  | x :: xs => Value.Within s x ∧ Value.WithinItems s xs

def Value.WithinRows (s : Extent) : List (Value × Value) → Prop
  | [] => True
  | (k, v) :: rows => (Value.Within s k ∧ Value.Within s v) ∧ Value.WithinRows s rows

end

def Named.Within (s : Extent) (named : Named) : Prop := ∀ row ∈ named, row.2.Within s

namespace Value

theorem withinItems_iff {xs : List Value} : WithinItems s xs ↔ ∀ x ∈ xs, x.Within s := by
  induction xs with
  | nil => simp [WithinItems]
  | cons x xs ih => simp [WithinItems, ih]

theorem withinRows_iff {rows : List (Value × Value)} :
    WithinRows s rows ↔ ∀ row ∈ rows, row.1.Within s ∧ row.2.Within s := by
  induction rows with
  | nil => simp [WithinRows]
  | cons row rows ih =>
    obtain ⟨k, v⟩ := row
    simp [WithinRows, ih]

@[simp] theorem within_str (text : String) : (Value.str text).Within s := trivial

end Value

theorem Binary64.Within.mono (hst : s.Below t) {x : Binary64} (h : x.Within s) : x.Within t := by
  cases x with
  | nan mark => exact Nat.lt_of_lt_of_le h hst.marks
  | infinity => trivial
  | finite => trivial

theorem Opaque.Within.mono (hst : s.Below t) {o : Opaque} (h : o.Within s) : o.Within t := by
  cases o with
  | token serial _ => exact Nat.lt_of_lt_of_le h hst.marks
  | mute serial _ => exact Nat.lt_of_lt_of_le h hst.marks
  | routine r => exact hst.routine r h
  | place p =>
    cases p with
    | cell n => exact hst.cell n h
    | attributes => exact h
    | shown => exact h
  | _ => exact h

mutual

theorem Value.Within.mono (hst : s.Below t) {v : Value} (h : v.Within s) : v.Within t := by
  cases v with
  | float x => exact Binary64.Within.mono hst h
  | list xs | tuple xs | set xs | frozenset xs => exact Value.WithinItems.mono hst h
  | dict rows | mapping rows => exact Value.WithinRows.mono hst h
  | opaqueRef o => exact Opaque.Within.mono hst h
  | _ => exact h

theorem Value.WithinItems.mono (hst : s.Below t) {xs : List Value}
    (h : Value.WithinItems s xs) : Value.WithinItems t xs := by
  cases xs with
  | nil => trivial
  | cons x xs => exact ⟨Value.Within.mono hst h.1, Value.WithinItems.mono hst h.2⟩

theorem Value.WithinRows.mono (hst : s.Below t) {rows : List (Value × Value)}
    (h : Value.WithinRows s rows) : Value.WithinRows t rows := by
  cases rows with
  | nil => trivial
  | cons row rows =>
    obtain ⟨k, v⟩ := row
    exact ⟨⟨Value.Within.mono hst h.1.1, Value.Within.mono hst h.1.2⟩,
      Value.WithinRows.mono hst h.2⟩

end

/-! ## Renamings that agree on an extent -/

structure Renaming.Agrees (ρ τ : Renaming) (s : Extent) : Prop where
  cell : ∀ n, s.cell n → ρ.cell n = τ.cell n
  routine : ∀ r, s.routine r → ρ.routine r = τ.routine r
  mark : ∀ k, k < s.marks → ρ.mark k = τ.mark k

section Agreement

variable {ρ τ : Renaming}

theorem Binary64.rename_agrees (ha : ρ.Agrees τ s) {x : Binary64} (h : x.Within s) : x.rename ρ = x.rename τ := by
  cases x with
  | nan mark => exact congrArg Binary64.nan (ha.mark mark h)
  | infinity => rfl
  | finite => rfl

theorem Opaque.rename_agrees (ha : ρ.Agrees τ s) {o : Opaque} (h : o.Within s) : o.rename ρ = o.rename τ := by
  cases o with
  | token serial text => exact congrArg (Opaque.token · text) (ha.mark serial h)
  | mute serial reason => exact congrArg (Opaque.mute · reason) (ha.mark serial h)
  | routine r => exact congrArg Opaque.routine (ha.routine r h)
  | place p =>
    cases p with
    | cell n => exact congrArg (fun n => Opaque.place (.cell n)) (ha.cell n h)
    | attributes => rfl
    | shown => rfl
  | _ => rfl

mutual

theorem Value.rename_agrees (ha : ρ.Agrees τ s) {v : Value} (h : v.Within s) : v.rename ρ = v.rename τ := by
  cases v with
  | float x => exact congrArg Value.float (Binary64.rename_agrees ha h)
  | list xs => exact congrArg Value.list (Value.renameItems_agrees ha h)
  | tuple xs => exact congrArg Value.tuple (Value.renameItems_agrees ha h)
  | set xs => exact congrArg Value.set (Value.renameItems_agrees ha h)
  | frozenset xs => exact congrArg Value.frozenset (Value.renameItems_agrees ha h)
  | dict rows => exact congrArg Value.dict (Value.renameRows_agrees ha h)
  | mapping rows => exact congrArg Value.mapping (Value.renameRows_agrees ha h)
  | opaqueRef o => exact congrArg Value.opaqueRef (Opaque.rename_agrees ha h)
  | record => exact h.elim
  | _ => rfl

theorem Value.renameItems_agrees (ha : ρ.Agrees τ s) {xs : List Value} (h : Value.WithinItems s xs) :
    Value.renameItems ρ xs = Value.renameItems τ xs := by
  cases xs with
  | nil => rfl
  | cons x xs =>
    rw [Value.renameItems, Value.renameItems, Value.rename_agrees ha h.1, Value.renameItems_agrees ha h.2]

theorem Value.renameRows_agrees (ha : ρ.Agrees τ s) {rows : List (Value × Value)} (h : Value.WithinRows s rows) :
    Value.renameRows ρ rows = Value.renameRows τ rows := by
  cases rows with
  | nil => rfl
  | cons row rows =>
    obtain ⟨k, v⟩ := row
    rw [Value.renameRows, Value.renameRows, Value.rename_agrees ha h.1.1, Value.rename_agrees ha h.1.2,
      Value.renameRows_agrees ha h.2]

end

theorem Named.rename_agrees (ha : ρ.Agrees τ s) {named : Named} (h : Named.Within s named) :
    Named.rename ρ named = Named.rename τ named :=
  List.map_congr_left fun row hrow => congrArg (row.1, ·) (Value.rename_agrees ha (h row hrow))

end Agreement

/-! ## Rows and elements -/

namespace Table

variable {κ β : Type}

/-- The rows of a table after a write: a key that was there or the new one, and a value that was
there or the new one. -/
theorem mem_insertBy {same : κ → κ → Bool} {k : κ} {v : β} {rows : List (κ × β)} {row : κ × β}
    (h : row ∈ insertBy same k v rows) :
    (row.1 = k ∨ ∃ r ∈ rows, r.1 = row.1) ∧ (row.2 = v ∨ ∃ r ∈ rows, r.2 = row.2) := by
  induction rows with
  | nil =>
    rw [insertBy, List.mem_singleton] at h
    subst h
    exact ⟨.inl rfl, .inl rfl⟩
  | cons first rows ih =>
    rw [insertBy] at h
    split at h
    · rcases List.mem_cons.mp h with rfl | h
      · exact ⟨.inr ⟨first, List.mem_cons_self, rfl⟩, .inl rfl⟩
      · exact ⟨.inr ⟨row, List.mem_cons_of_mem _ h, rfl⟩, .inr ⟨row, List.mem_cons_of_mem _ h, rfl⟩⟩
    · rcases List.mem_cons.mp h with rfl | h
      · exact ⟨.inr ⟨row, List.mem_cons_self, rfl⟩, .inr ⟨row, List.mem_cons_self, rfl⟩⟩
      · obtain ⟨hk, hv⟩ := ih h
        refine ⟨hk.imp_right ?_, hv.imp_right ?_⟩
        · rintro ⟨r, hr, e⟩
          exact ⟨r, List.mem_cons_of_mem _ hr, e⟩
        · rintro ⟨r, hr, e⟩
          exact ⟨r, List.mem_cons_of_mem _ hr, e⟩

theorem mem_keys_ofRows [DecidableEq κ] {rows : List (κ × β)} {k : κ} :
    k ∈ keys (ofRows rows) → k ∈ keys rows := by
  have step (t : List (κ × β)) (h : k ∈ keys (rows.foldl (fun t row => insert row.1 row.2 t) t)) :
      k ∈ keys t ∨ k ∈ keys rows := by
    induction rows generalizing t with
    | nil => exact .inl h
    | cons row rows ih =>
      rcases ih _ h with ht | hr
      · rw [keys_insert] at ht
        split at ht
        · exact .inl ht
        · rcases List.mem_append.mp ht with ht | hk
          · exact .inl ht
          · exact .inr (List.mem_singleton.mp hk ▸ List.mem_cons_self)
      · exact .inr (List.mem_cons_of_mem _ hr)
  exact fun h => (step [] h).resolve_left List.not_mem_nil

end Table

namespace Value

/-- Rows in an extent. -/
abbrev RowsWithin (s : Extent) (rows : List (Value × Value)) : Prop :=
  ∀ row ∈ rows, row.1.Within s ∧ row.2.Within s

theorem within_insertBy {k v : Value} {rows : List (Value × Value)} (hk : k.Within s)
    (hv : v.Within s) (h : RowsWithin s rows) : RowsWithin s (Table.insertBy same k v rows) := by
  intro row hrow
  obtain ⟨h1, h2⟩ := Table.mem_insertBy hrow
  constructor
  · rcases h1 with e | ⟨r, hr, e⟩
    · exact e ▸ hk
    · exact e ▸ (h r hr).1
  · rcases h2 with e | ⟨r, hr, e⟩
    · exact e ▸ hv
    · exact e ▸ (h r hr).2

theorem within_collectRows {rows : List (Value × Value)} (h : RowsWithin s rows) :
    RowsWithin s (collectRows rows) := by
  have step (t : List (Value × Value)) (ht : RowsWithin s t) :
      RowsWithin s (rows.foldl (fun t row => Table.insertBy same row.1 row.2 t) t) := by
    induction rows generalizing t with
    | nil => exact ht
    | cons row rows ih =>
      rw [List.foldl_cons]
      have hrow := h row List.mem_cons_self
      exact ih (fun r hr => h r (List.mem_cons_of_mem _ hr)) _
        (within_insertBy hrow.1 hrow.2 ht)
  exact step [] (by simp [RowsWithin])

theorem mem_of_mem_distinct {xs t : List Value} {x : Value}
    (h : x ∈ xs.foldl (fun t x => if t.any (same x) then t else t ++ [x]) t) :
    x ∈ t ∨ x ∈ xs := by
  induction xs generalizing t with
  | nil => exact .inl h
  | cons y ys ih =>
    rw [List.foldl_cons] at h
    rcases ih h with ht | hy
    · split at ht
      · exact .inl ht
      · rcases List.mem_append.mp ht with ht | hy
        · exact .inl ht
        · exact .inr (List.mem_singleton.mp hy ▸ List.mem_cons_self)
    · exact .inr (List.mem_cons_of_mem _ hy)

theorem mem_collectItems {xs : List Value} {x : Value} (h : x ∈ collectItems xs) : x ∈ xs := by
  rcases mem_of_mem_distinct (mem_inOrder.mp h) with h | h
  · exact absurd h List.not_mem_nil
  · exact h

theorem within_rows {v : Value} {rows : List (Value × Value)} (h : v.Within s)
    (hr : v.rows? = some rows) : RowsWithin s rows := by
  cases v <;> simp only [rows?, Option.some.injEq, reduceCtorEq] at hr
  · subst hr
    exact withinRows_iff.mp h
  · subst hr
    exact withinRows_iff.mp h

/-- A sum is in the extent of its parts, or it is no number and has the mark that it was given. -/
theorem within_add {mark : Nat} {a b sum : Value} (ha : a.Within s) (hb : b.Within s)
    (h : add mark a b = .ok sum) : sum.Within s ∨ sum = .float (.nan mark) := by
  have joined (xs ys : List Value) (hx : WithinItems s xs) (hy : WithinItems s ys) :
      WithinItems s (xs ++ ys) := by
    rw [withinItems_iff] at *
    intro x hmem
    rcases List.mem_append.mp hmem with hmem | hmem
    · exact hx x hmem
    · exact hy x hmem
  unfold add at h
  split at h
  · cases h; exact .inl trivial
  · cases h; exact .inl trivial
  · cases h; exact .inl (joined _ _ ha hb)
  · cases h; exact .inl (joined _ _ ha hb)
  · split at h
    · cases h; exact .inl trivial
    · split at h
      · cases hx : a.asFloat with
        | error f => rw [hx] at h; cases h
        | ok x =>
          cases hy : b.asFloat with
          | error f => rw [hx, hy] at h; cases h
          | ok y =>
            rw [hx, hy] at h
            cases h
            rcases Binary64.add_cases mark x y with hn | hn
            · exact .inr (congrArg Value.float hn)
            · left
              show (Binary64.add mark x y).Within s
              generalize Binary64.add mark x y = z at hn
              cases z with
              | nan n => exact absurd rfl (hn n)
              | infinity => trivial
              | finite => trivial
      · cases h

end Value

/-! ## Values in which nothing can change -/

def Value.Closed (x : Value) : Prop := x.Within ⟨fun _ => False, fun _ => False, 0⟩

namespace Value.Closed

variable {x : Value}

theorem within (h : x.Closed) (e : Extent) : x.Within e :=
  h.mono ⟨fun _ => False.elim, fun _ => False.elim, Nat.zero_le _⟩

theorem rename_eq (h : x.Closed) (ρ : Renaming) : x.rename ρ = x :=
  (Value.rename_agrees
    ⟨fun _ => False.elim, fun _ => False.elim, fun _ hk => absurd hk (Nat.not_lt_zero _)⟩ h).trans
    x.rename_same

end Value.Closed

end Toolwright
