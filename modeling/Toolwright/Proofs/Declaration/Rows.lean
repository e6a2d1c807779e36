import Mathlib.Data.List.Forall2
import Mathlib.Data.List.Induction
import Mathlib.Data.List.Nodup
import Toolwright.Table

/-!
# Rows of tables

Rows that are written one after another: the keys are those of the rows, each once, and rows of
different keys stay as they are.
-/

namespace Toolwright

set_option autoImplicit false

/-! ## Two lists side by side -/

section Related
variable {α β : Type} {R : α → β → Prop} {xs : List α} {ys : List β}

theorem forall₂_left (h : List.Forall₂ R xs ys) {x : α} (hx : x ∈ xs) : ∃ y ∈ ys, R x y := by
  induction h with
  | nil => cases hx
  | cons hr _ ih =>
    rcases List.mem_cons.mp hx with rfl | hm
    · exact ⟨_, List.mem_cons_self, hr⟩
    · obtain ⟨y, hy, hxy⟩ := ih hm
      exact ⟨y, List.mem_cons_of_mem _ hy, hxy⟩

theorem forall₂_right (h : List.Forall₂ R xs ys) {y : β} (hy : y ∈ ys) : ∃ x ∈ xs, R x y :=
  forall₂_left h.flip hy

end Related

theorem eraseDups_concat {α : Type} [BEq α] [LawfulBEq α] (xs : List α) (x : α) :
    (xs ++ [x]).eraseDups = if x ∈ xs then xs.eraseDups else xs.eraseDups ++ [x] := by
  rw [List.eraseDups_append]
  by_cases h : x ∈ xs
  · rw [if_pos h, List.removeAll, List.filter_cons_of_neg (by simpa using h), List.filter_nil]
    exact List.append_nil _
  · rw [if_neg h, List.removeAll, List.filter_cons_of_pos (by simpa using h), List.filter_nil]
    rfl

/-! ## Tables -/

namespace Table

variable {κ β γ : Type} [DecidableEq κ]

theorem ofRows_append (rows more : List (κ × β)) :
    ofRows (rows ++ more) = more.foldl (fun t row => insert row.1 row.2 t) (ofRows rows) :=
  List.foldl_append

theorem nodup_keys_ofRows (rows : List (κ × β)) : (keys (ofRows rows)).Nodup := by
  induction rows using List.reverseRecOn with
  | nil => exact List.nodup_nil
  | append_singleton rows row ih =>
    rw [ofRows_append]
    exact nodup_keys_insert ih _ _

/-- What stands in a table after a row was written stood there before, or is what was written. -/
theorem mem_insert {t : List (κ × β)} {k : κ} {v : β} {row : κ × β} (h : row ∈ insert k v t) :
    row ∈ t ∨ row = (k, v) := by
  induction t with
  | nil =>
    rw [insert_nil, List.mem_singleton] at h
    exact .inr h
  | cons first t ih =>
    rw [insert_cons] at h
    split at h
    · rename_i he
      rcases List.mem_cons.mp h with rfl | hm
      · exact .inr (Prod.ext he rfl)
      · exact .inl (List.mem_cons_of_mem _ hm)
    · rcases List.mem_cons.mp h with rfl | hm
      · exact .inl List.mem_cons_self
      · exact (ih hm).imp_left (List.mem_cons_of_mem _)

theorem insert_map (f : κ → β → γ) (k : κ) (v : β) (t : List (κ × β)) :
    insert k (f k v) (t.map fun row => (row.1, f row.1 row.2)) =
      (insert k v t).map fun row => (row.1, f row.1 row.2) := by
  induction t with
  | nil => rfl
  | cons row t ih =>
    rw [List.map_cons, insert_cons, insert_cons, ih]
    split
    · rename_i h
      dsimp only at h
      rw [← h]
      rfl
    · rfl

theorem ofRows_map (f : κ → β → γ) (rows : List (κ × β)) :
    ofRows (rows.map fun row => (row.1, f row.1 row.2)) =
      (ofRows rows).map fun row => (row.1, f row.1 row.2) := by
  induction rows using List.reverseRecOn with
  | nil => rfl
  | append_singleton rows row ih =>
    rw [List.map_append, ofRows_append, ofRows_append, ih]
    exact insert_map f row.1 row.2 _

theorem find?_mapValues (f : κ → β → γ) (t : List (κ × β)) (k : κ) :
    find? (t.map fun row => (row.1, f row.1 row.2)) k = (find? t k).map (f k) := by
  induction t with
  | nil => rfl
  | cons row t ih =>
    rw [List.map_cons, find?_cons, find?_cons, ih]
    split
    · rename_i h
      dsimp only at h
      rw [h]
      rfl
    · rfl

theorem find?_eq_none {t : List (κ × β)} {k : κ} (h : k ∉ keys t) : find? t k = none := by
  induction t with
  | nil => rfl
  | cons row t ih =>
    have hne : row.1 ≠ k := by
      rintro rfl
      exact h List.mem_cons_self
    rw [find?_cons, if_neg hne, ih fun hm => h (List.mem_cons_of_mem _ hm)]

/-- What is written last counts. -/
theorem find?_foldl (rows t : List (κ × β)) (k : κ) :
    find? (rows.foldl (fun t row => insert row.1 row.2 t) t) k =
      (find? (ofRows rows) k).or (find? t k) := by
  induction rows using List.reverseRecOn with
  | nil => rfl
  | append_singleton rows row ih =>
    rw [ofRows_append, List.foldl_append]
    simp only [List.foldl_cons, List.foldl_nil, find?_insert, ih]
    split <;> rfl

theorem find?_ofRows_append (rows more : List (κ × β)) (k : κ) :
    find? (ofRows (rows ++ more)) k = (find? (ofRows more) k).or (find? (ofRows rows) k) := by
  rw [ofRows_append, find?_foldl]

theorem insert_new {k : κ} {v : β} {t : List (κ × β)} (h : k ∉ keys t) :
    insert k v t = t ++ [(k, v)] := by
  induction t with
  | nil => rfl
  | cons row t ih =>
    have hne : row.1 ≠ k := by
      rintro rfl
      exact h List.mem_cons_self
    rw [insert_cons, if_neg hne, ih fun hm => h (List.mem_cons_of_mem _ hm)]
    rfl

/-- Rows of different keys stay as they are. -/
theorem ofRows_of_nodup {rows : List (κ × β)} (h : (keys rows).Nodup) : ofRows rows = rows := by
  induction rows using List.reverseRecOn with
  | nil => rfl
  | append_singleton rows row ih =>
    have hkeys : keys (rows ++ [row]) = keys rows ++ [row.1] := by simp [keys]
    rw [hkeys, List.nodup_append] at h
    rw [ofRows_append, ih h.1]
    refine insert_new fun hm => ?_
    exact h.2.2 _ hm _ (List.mem_singleton_self _) rfl

theorem keys_insert_subset {t : List (κ × β)} {k : κ} {v : β} {x : κ} :
    x ∈ keys (insert k v t) ↔ x ∈ keys t ∨ x = k := by
  rw [keys_insert]
  split
  · rename_i hk
    exact ⟨.inl, fun h => h.elim id fun e => e ▸ hk⟩
  · simp

theorem mem_keys_ofRows_iff {rows : List (κ × β)} {k : κ} :
    k ∈ keys (ofRows rows) ↔ k ∈ keys rows := by
  induction rows using List.reverseRecOn with
  | nil => exact Iff.rfl
  | append_singleton rows row ih =>
    rw [ofRows_append]
    show k ∈ keys (insert row.1 row.2 (ofRows rows)) ↔ _
    rw [keys_insert_subset, ih]
    simp [keys]

theorem find?_ofRows_of_not_mem {rows : List (κ × β)} {k : κ} (h : k ∉ keys rows) :
    find? (ofRows rows) k = none := find?_eq_none fun hm => h (mem_keys_ofRows_iff.mp hm)

theorem find?_append (t more : List (κ × β)) (k : κ) :
    find? (t ++ more) k = (find? t k).or (find? more k) := by
  unfold find?
  rw [List.find?_append]
  cases List.find? (fun row => decide (row.1 = k)) t <;> rfl

theorem find?_filter (p : κ → Bool) (t : List (κ × β)) (k : κ) :
    find? (t.filter fun row => p row.1) k = if p k then find? t k else none := by
  induction t with
  | nil => simp
  | cons row t ih =>
    rw [List.filter_cons, find?_cons]
    by_cases hk : row.1 = k
    · subst hk
      cases hp : p row.1 <;> simp [hp, ih, find?_cons]
    · cases hp : p row.1 <;> simp [ih, find?_cons, hk]

theorem mem_of_find? {t : List (κ × β)} {k : κ} {v : β} (h : find? t k = some v) : (k, v) ∈ t := by
  induction t with
  | nil => cases h
  | cons row t ih =>
    rw [find?_cons] at h
    split at h
    · rename_i he
      cases h
      exact he ▸ List.mem_cons_self
    · exact List.mem_cons_of_mem _ (ih h)

/-- What stands in a table was written in one of its rows. -/
theorem mem_ofRows {rows : List (κ × β)} {row : κ × β} (h : row ∈ ofRows rows) : row ∈ rows := by
  induction rows using List.reverseRecOn with
  | nil => cases h
  | append_singleton rows last ih =>
    rw [ofRows_append] at h
    rcases mem_insert h with hm | rfl
    · exact List.mem_append_left _ (ih hm)
    · exact List.mem_append_right _ (List.mem_singleton_self _)

theorem find?_of_mem {t : List (κ × β)} {k : κ} {v : β}
    (hn : (keys t).Nodup) (h : (k, v) ∈ t) : find? t k = some v := by
  induction t with
  | nil => cases h
  | cons row t ih =>
    obtain ⟨hnew, hrest⟩ := List.nodup_cons.mp hn
    rw [find?_cons]
    rcases List.mem_cons.mp h with rfl | hm
    · exact if_pos rfl
    · rw [if_neg, ih hrest hm]
      intro he
      have hk : k ∈ keys t := List.mem_map_of_mem (f := Prod.fst) hm
      rw [← he] at hk
      exact hnew hk

end Table

end Toolwright
