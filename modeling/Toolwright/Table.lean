/-!
# Ordered tables

A table is a list of rows in the order in which their keys first came. Writing under a key that is
there replaces the value and keeps the place and the key; a new key goes to the end.
-/

namespace Toolwright.Table

set_option autoImplicit false

variable {κ β : Type}

/-- Writes under the first key that `same` takes for the new one; the stored key is its first
argument. -/
def insertBy (same : κ → κ → Bool) (k : κ) (v : β) : List (κ × β) → List (κ × β)
  | [] => [(k, v)]
  | row :: rows => if same row.1 k then (row.1, v) :: rows else row :: insertBy same k v rows

def insert [DecidableEq κ] (k : κ) (v : β) (t : List (κ × β)) : List (κ × β) :=
  insertBy (fun a b => decide (a = b)) k v t

/-- Rows written one after another. -/
def ofRows [DecidableEq κ] (rows : List (κ × β)) : List (κ × β) :=
  rows.foldl (fun t row => insert row.1 row.2 t) []

def find? [DecidableEq κ] (t : List (κ × β)) (k : κ) : Option β :=
  (List.find? (fun row => decide (row.1 = k)) t).map (·.2)

def erase [DecidableEq κ] (k : κ) (t : List (κ × β)) : List (κ × β) :=
  t.filter fun row => !decide (row.1 = k)

def keys (t : List (κ × β)) : List κ := t.map (·.1)

section Laws
variable [DecidableEq κ]

@[simp] theorem find?_nil (k : κ) : find? ([] : List (κ × β)) k = none := rfl

theorem find?_cons (row : κ × β) (t : List (κ × β)) (k : κ) :
    find? (row :: t) k = if row.1 = k then some row.2 else find? t k := by
  by_cases h : row.1 = k <;> simp [find?, h]

@[simp] theorem insert_nil (k : κ) (v : β) : insert k v [] = [(k, v)] := rfl

theorem insert_cons (k : κ) (v : β) (row : κ × β) (t : List (κ × β)) :
    insert k v (row :: t) = if row.1 = k then (row.1, v) :: t else row :: insert k v t := by
  by_cases h : row.1 = k <;> simp [insert, insertBy, h]

@[simp] theorem find?_insert (t : List (κ × β)) (k k' : κ) (v : β) :
    find? (insert k v t) k' = if k = k' then some v else find? t k' := by
  induction t with
  | nil => simp [find?_cons]
  | cons row t ih =>
    rw [insert_cons]
    by_cases h : row.1 = k
    · subst h
      by_cases hk : row.1 = k' <;> simp [find?_cons, hk]
    · by_cases hk : row.1 = k'
      · subst hk
        simp [find?_cons, h, Ne.symm h]
      · simp [find?_cons, h, hk, ih]

theorem keys_insert (t : List (κ × β)) (k : κ) (v : β) :
    keys (insert k v t) = if k ∈ keys t then keys t else keys t ++ [k] := by
  induction t with
  | nil => simp [keys]
  | cons row t ih =>
    rw [insert_cons]
    by_cases h : row.1 = k
    · simp [keys, h]
    · have h' : ¬ k = row.1 := fun e => h e.symm
      simp only [keys] at ih
      by_cases hm : k ∈ t.map (·.1)
      · simp [keys, h, ih, hm]
      · simp [keys, h, h', ih, hm]

theorem nodup_keys_insert {t : List (κ × β)} (h : (keys t).Nodup) (k : κ) (v : β) :
    (keys (insert k v t)).Nodup := by
  rw [keys_insert]
  by_cases hm : k ∈ keys t
  · simpa [hm] using h
  · simp only [hm, if_false, List.nodup_append]
    exact ⟨h, by simp, fun a ha b hb => by
      rw [List.mem_singleton] at hb; subst hb; exact fun e => hm (e ▸ ha)⟩

@[simp] theorem find?_erase (t : List (κ × β)) (k k' : κ) :
    find? (erase k t) k' = if k = k' then none else find? t k' := by
  induction t with
  | nil => simp [erase]
  | cons row t ih =>
    simp only [erase] at ih
    by_cases h : row.1 = k
    · subst h
      by_cases hk : row.1 = k'
      · simpa [erase, hk] using ih
      · simpa [erase, find?_cons, hk] using ih
    · by_cases hk : row.1 = k'
      · subst hk
        simp [erase, find?_cons, h, Ne.symm h]
      · simp [erase, find?_cons, h, hk, ih]

end Laws

end Toolwright.Table
