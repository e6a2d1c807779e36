import Toolwright.Arguments
import Toolwright.Value.Effect
import Toolwright.Value.Hash

/-!
# Renaming of references

Two runs of the same code give out different cells, functions and marks. A renaming says which
reference of one run stands for which of the other; what is computed of values commutes with it.
-/

namespace Toolwright

set_option autoImplicit false

/-- Which cell, which function and which mark of one run stands for which of the other. -/
structure Renaming where
  cell : Nat → Nat
  routine : Nat → Nat
  mark : Nat → Nat
  cell_injective : ∀ {a b}, cell a = cell b → a = b
  routine_injective : ∀ {a b}, routine a = routine b → a = b
  mark_injective : ∀ {a b}, mark a = mark b → a = b

variable (ρ : Renaming)

/-! ## What is renamed -/

def Binary64.rename : Binary64 → Binary64
  | .nan mark => .nan (ρ.mark mark)
  | .infinity negative => .infinity negative
  | .finite negative m e => .finite negative m e

def Place.rename : Place → Place
  | .cell n => .cell (ρ.cell n)
  | .attributes c => .attributes c
  | .shown n => .shown n

def Opaque.rename : Opaque → Opaque
  | .token serial text => .token (ρ.mark serial) text
  | .mute serial reason => .mute (ρ.mark serial) reason
  | .cls c => .cls c
  | .object o => .object o
  | .routine r => .routine (ρ.routine r)
  | .place p => .place (p.rename ρ)
  | .view kind id => .view kind id
  | .cursor kind id => .cursor kind id
  | .plain kind text => .plain kind text

mutual

def Value.rename : Value → Value
  | .null => .null
  | .bool b => .bool b
  | .int n => .int n
  | .float x => .float (x.rename ρ)
  | .str s => .str s
  | .bytes bs => .bytes bs
  | .list xs => .list (Value.renameItems xs)
  | .tuple xs => .tuple (Value.renameItems xs)
  | .dict rows => .dict (Value.renameRows rows)
  | .mapping rows => .mapping (Value.renameRows rows)
  | .set xs => .set (Value.renameItems xs)
  | .frozenset xs => .frozenset (Value.renameItems xs)
  | .opaqueRef o => .opaqueRef (o.rename ρ)
  | .record shape fields => .record shape (Value.renameItems fields)

def Value.renameItems : List Value → List Value
  | [] => []
  | x :: xs => Value.rename x :: Value.renameItems xs

def Value.renameRows : List (Value × Value) → List (Value × Value)
  | [] => []
  | (k, v) :: rows => (Value.rename k, Value.rename v) :: Value.renameRows rows

end

/-- Values by name, each of them renamed. -/
def Named.rename (named : Named) : Named := named.map fun row => (row.1, row.2.rename ρ)

theorem Value.renameItems_eq (xs : List Value) :
    Value.renameItems ρ xs = xs.map (Value.rename ρ) := by
  induction xs with
  | nil => rfl
  | cons x xs ih => rw [Value.renameItems, List.map_cons, ih]

theorem Value.renameRows_eq (rows : List (Value × Value)) :
    Value.renameRows ρ rows = rows.map fun row => (row.1.rename ρ, row.2.rename ρ) := by
  induction rows with
  | nil => rfl
  | cons row rows ih =>
    obtain ⟨k, v⟩ := row
    rw [Value.renameRows, List.map_cons, ih]

/-! ## The renaming that changes nothing -/

def Renaming.same : Renaming := ⟨id, id, id, id, id, id⟩

theorem Opaque.rename_same (o : Opaque) : o.rename .same = o := by
  cases o with
  | place p => cases p <;> rfl
  | _ => rfl

mutual

theorem Value.rename_same (x : Value) : x.rename .same = x := by
  cases x with
  | float x => cases x <;> rfl
  | list xs => exact congrArg Value.list (Value.renameItems_same xs)
  | tuple xs => exact congrArg Value.tuple (Value.renameItems_same xs)
  | set xs => exact congrArg Value.set (Value.renameItems_same xs)
  | frozenset xs => exact congrArg Value.frozenset (Value.renameItems_same xs)
  | dict rows => exact congrArg Value.dict (Value.renameRows_same rows)
  | mapping rows => exact congrArg Value.mapping (Value.renameRows_same rows)
  | opaqueRef o => exact congrArg Value.opaqueRef o.rename_same
  | record shape fields => exact congrArg (Value.record shape) (Value.renameItems_same fields)
  | _ => rfl

theorem Value.renameItems_same (xs : List Value) : Value.renameItems .same xs = xs := by
  cases xs with
  | nil => rfl
  | cons x xs => rw [Value.renameItems, Value.rename_same x, Value.renameItems_same xs]

theorem Value.renameRows_same (rows : List (Value × Value)) :
    Value.renameRows .same rows = rows := by
  cases rows with
  | nil => rfl
  | cons row rows =>
    obtain ⟨k, x⟩ := row
    rw [Value.renameRows, Value.rename_same k, Value.rename_same x, Value.renameRows_same rows]

end

section References

theorem Place.rename_inj {a b : Place} : a.rename ρ = b.rename ρ ↔ a = b := by
  constructor
  · intro h
    cases a <;> cases b <;> simp_all [Place.rename]
    exact ρ.cell_injective h
  · intro h
    rw [h]

theorem Opaque.rename_inj {a b : Opaque} : a.rename ρ = b.rename ρ ↔ a = b := by
  constructor
  · intro h
    cases a <;> cases b <;> simp_all [Opaque.rename, Place.rename_inj]
    · exact ρ.mark_injective h.1
    · exact ρ.mark_injective h.1
    · exact ρ.routine_injective h
  · intro h
    rw [h]

theorem Opaque.beq_rename (a b : Opaque) : (a.rename ρ == b.rename ρ) = (a == b) := by
  rw [Bool.eq_iff_iff]
  simp only [beq_iff_eq]
  exact Opaque.rename_inj ρ

end References

namespace Binary64

theorem rename_inj {x y : Binary64} : x.rename ρ = y.rename ρ ↔ x = y := by
  constructor
  · intro h
    cases x <;> cases y <;> simp_all [Binary64.rename]
    exact ρ.mark_injective h
  · intro h
    rw [h]

theorem beq_rename (x y : Binary64) : (x.rename ρ == y.rename ρ) = (x == y) := by
  rw [Bool.eq_iff_iff]
  simp only [beq_iff_eq]
  exact rename_inj ρ

@[simp] theorem isZero_rename (x : Binary64) : (x.rename ρ).isZero = x.isZero := by
  cases x <;> rfl

@[simp] theorem equal_rename (x y : Binary64) : (x.rename ρ).equal (y.rename ρ) = x.equal y := by
  cases x <;> cases y <;> rfl

@[simp] theorem toInt?_rename (x : Binary64) : (x.rename ρ).toInt? = x.toInt? := by
  cases x <;> rfl

@[simp] theorem rename_ofRatio (negative : Bool) (n d : Nat) :
    (ofRatio negative n d).rename ρ = ofRatio negative n d := by
  unfold ofRatio
  dsimp only
  split
  · rfl
  · generalize (if roundDiv (scale n d (-exponentFor n d)).1 (scale n d (-exponentFor n d)).2 == 2 ^ 53
      then (2 ^ 52, exponentFor n d + 1) else _ : Nat × Int) = rounded
    obtain ⟨m, e⟩ := rounded
    dsimp only
    split
    · rfl
    · split <;> rfl

theorem ofRatio_ne_nan (negative : Bool) (n d mark : Nat) : ofRatio negative n d ≠ .nan mark := by
  have h := rename_ofRatio ⟨id, id, (· + (mark + 1)), id, id, Nat.add_right_cancel⟩ negative n d
  intro hn
  rw [hn] at h
  have := Binary64.nan.inj h
  dsimp only at this
  omega

theorem rename_ofInt? (n : Int) : (ofInt? n).map (Binary64.rename ρ) = ofInt? n := by
  unfold ofInt?
  have h := rename_ofRatio ρ (n < 0) n.natAbs 1
  cases hx : ofRatio (n < 0) n.natAbs 1 with
  | nan mark =>
    rw [hx] at h
    exact congrArg some h
  | infinity negative => rfl
  | finite negative m e => rfl

/-- A sum that is no number has the mark that it was given. -/
theorem add_cases (mark : Nat) (x y : Binary64) :
    add mark x y = .nan mark ∨ ∀ n, add mark x y ≠ .nan n := by
  cases x with
  | nan => exact .inl rfl
  | infinity a =>
    cases y with
    | nan => exact .inl rfl
    | infinity b =>
      simp only [add]
      split
      · exact .inr fun _ => Binary64.noConfusion
      · exact .inl rfl
    | finite => exact .inr fun _ => Binary64.noConfusion
  | finite a m e =>
    cases y with
    | nan => exact .inl rfl
    | infinity => exact .inr fun _ => Binary64.noConfusion
    | finite b n f =>
      right
      intro k
      simp only [add]
      split
      · exact Binary64.noConfusion
      · exact ofRatio_ne_nan _ _ _ k

/-- The sum of renamed numbers, where the mark for what is no number is renamed with them. -/
theorem add_rename (mark : Nat) (x y : Binary64) :
    add (ρ.mark mark) (x.rename ρ) (y.rename ρ) = (add mark x y).rename ρ := by
  cases x with
  | nan => cases y <;> rfl
  | infinity a =>
    cases y with
    | nan => rfl
    | infinity b =>
      simp only [Binary64.rename, add]
      split <;> rfl
    | finite => rfl
  | finite a m e =>
    cases y with
    | nan => rfl
    | infinity => rfl
    | finite b n f =>
      simp only [Binary64.rename, add]
      split
      · rfl
      · exact (rename_ofRatio ρ _ _ _).symm

end Binary64

namespace Value

@[simp] theorem kind_rename (v : Value) : (v.rename ρ).kind = v.kind := by
  cases v with
  | opaqueRef o =>
    cases o with
    | place p => cases p <;> rfl
    | _ => rfl
  | _ => rfl

@[simp] theorem truthy_rename (v : Value) : (v.rename ρ).truthy = v.truthy := by
  cases v with
  | float x => simp [Value.rename, truthy]
  | list xs | tuple xs | set xs | frozenset xs => cases xs <;> rfl
  | dict rows | mapping rows => cases rows <;> rfl
  | _ => rfl

theorem rows?_rename (v : Value) :
    (v.rename ρ).rows? =
      v.rows?.map fun rows => rows.map fun row => (row.1.rename ρ, row.2.rename ρ) := by
  cases v <;> simp [Value.rename, rows?, renameRows_eq]

@[simp] theorem asInt?_rename (v : Value) : (v.rename ρ).asInt? = v.asInt? := by
  cases v <;> rfl

@[simp] theorem isNumber_rename (v : Value) : (v.rename ρ).isNumber = v.isNumber := by
  cases v <;> rfl

/-! ## Equality -/

mutual

theorem same_rename (a b : Value) : same (a.rename ρ) (b.rename ρ) = same a b := by
  cases a with
  | float x =>
    cases b with
    | float y => simp [Value.rename, same, Binary64.beq_rename]
    | _ => simp [Value.rename, same]
  | list xs =>
    cases b with
    | list ys => simp only [Value.rename, same, sameItems_rename xs ys]
    | _ => simp only [Value.rename, same]
  | tuple xs =>
    cases b with
    | tuple ys => simp only [Value.rename, same, sameItems_rename xs ys]
    | _ => simp only [Value.rename, same]
  | dict rows =>
    cases b with
    | dict others | mapping others =>
      simp only [Value.rename, same, sameRows_rename rows others]
      simp [renameRows_eq]
    | _ => simp only [Value.rename, same]
  | mapping rows =>
    cases b with
    | dict others | mapping others =>
      simp only [Value.rename, same, sameRows_rename rows others]
      simp [renameRows_eq]
    | _ => simp only [Value.rename, same]
  | set xs =>
    cases b with
    | set ys | frozenset ys =>
      simp only [Value.rename, same, allIn_rename xs ys]
      simp [renameItems_eq]
    | _ => simp only [Value.rename, same]
  | frozenset xs =>
    cases b with
    | set ys | frozenset ys =>
      simp only [Value.rename, same, allIn_rename xs ys]
      simp [renameItems_eq]
    | _ => simp only [Value.rename, same]
  | opaqueRef o =>
    cases b with
    | opaqueRef p => simp only [Value.rename, same, Opaque.beq_rename]
    | _ => simp only [Value.rename, same]
  | record s xs =>
    cases b with
    | record t ys => simp only [Value.rename, same, sameItems_rename xs ys]
    | _ => simp only [Value.rename, same]
  | _ => cases b <;> simp [Value.rename, same]

theorem sameItems_rename (xs ys : List Value) :
    sameItems (renameItems ρ xs) (renameItems ρ ys) = sameItems xs ys := by
  cases xs with
  | nil => cases ys <;> simp only [renameItems, sameItems]
  | cons x xs =>
    cases ys with
    | nil => simp only [renameItems, sameItems]
    | cons y ys => simp only [renameItems, sameItems, same_rename x y, sameItems_rename xs ys]

theorem sameRows_rename (rows others : List (Value × Value)) :
    sameRows (renameRows ρ rows) (renameRows ρ others) = sameRows rows others := by
  cases rows with
  | nil => simp only [renameRows, sameRows]
  | cons row rows =>
    obtain ⟨k, v⟩ := row
    have hk (row : Value × Value) : same (k.rename ρ) (row.1.rename ρ) = same k row.1 :=
      same_rename k row.1
    simp only [renameRows, sameRows, sameRows_rename rows others]
    congr 1
    rw [renameRows_eq, List.find?_map]
    simp only [Function.comp_def, hk]
    cases others.find? fun row => same k row.1 with
    | none => rfl
    | some row => exact same_rename v row.2

theorem allIn_rename (xs ys : List Value) :
    allIn (renameItems ρ xs) (renameItems ρ ys) = allIn xs ys := by
  cases xs with
  | nil => simp only [renameItems, allIn]
  | cons x xs =>
    have hx (y : Value) : same (x.rename ρ) (y.rename ρ) = same x y := same_rename x y
    simp only [renameItems, allIn, allIn_rename xs ys]
    rw [renameItems_eq, List.any_map]
    simp only [Function.comp_def, hx]

end

/-- A text is the same as what is renamed if it is the same as what was there before. -/
theorem same_str_rename (v : Value) (s : String) :
    same (v.rename ρ) (.str s) = same v (.str s) := same_rename ρ v (.str s)

mutual

theorem hashable_rename (v : Value) : (v.rename ρ).hashable = v.hashable := by
  cases v with
  | tuple xs => exact allHashable_rename xs
  | opaqueRef o =>
    cases o with
    | place p => cases p <;> rfl
    | _ => rfl
  | _ => rfl

theorem allHashable_rename (xs : List Value) :
    allHashable (renameItems ρ xs) = allHashable xs := by
  cases xs with
  | nil => rfl
  | cons x xs => simp only [renameItems, allHashable, hashable_rename x, allHashable_rename xs]

end

theorem numberHash?_rename (x : Binary64) : numberHash? (x.rename ρ) = numberHash? x := by
  cases x <;> rfl

mutual

theorem hash?_rename (v : Value) : (v.rename ρ).hash? = v.hash? := by
  cases v with
  | float x => exact numberHash?_rename ρ x
  | tuple xs => simp only [Value.rename, hash?, hashes?_rename xs]
  | frozenset xs => simp only [Value.rename, hash?, hashes?_rename xs]
  | _ => rfl

theorem hashes?_rename (xs : List Value) : hashes? (renameItems ρ xs) = hashes? xs := by
  cases xs with
  | nil => rfl
  | cons x xs => simp only [renameItems, hashes?, hash?_rename x, hashes?_rename xs]

end

/-! ## Rows and elements -/

/-- A row with its key and its value renamed. -/
abbrev renameRow (row : Value × Value) : Value × Value := (row.1.rename ρ, row.2.rename ρ)

theorem insertBy_rename (k v : Value) (rows : List (Value × Value)) :
    Table.insertBy same (k.rename ρ) (v.rename ρ) (rows.map (renameRow ρ)) =
      (Table.insertBy same k v rows).map (renameRow ρ) := by
  induction rows with
  | nil => rfl
  | cons row rows ih =>
    simp only [List.map_cons, Table.insertBy, same_rename, ih]
    split <;> rfl

theorem collectRows_rename (rows : List (Value × Value)) :
    collectRows (rows.map (renameRow ρ)) = (collectRows rows).map (renameRow ρ) := by
  have h (t : List (Value × Value)) :
      (rows.map (renameRow ρ)).foldl (fun t row => Table.insertBy same row.1 row.2 t)
          (t.map (renameRow ρ)) =
        (rows.foldl (fun t row => Table.insertBy same row.1 row.2 t) t).map (renameRow ρ) := by
    induction rows generalizing t with
    | nil => rfl
    | cons row rows ih =>
      rw [List.map_cons, List.foldl_cons, List.foldl_cons, insertBy_rename]
      exact ih _
  exact h []

theorem mem_inOrder {xs : List Value} {x : Value} : x ∈ inOrder xs ↔ x ∈ xs := by
  unfold inOrder
  split
  · exact List.mem_mergeSort
  · rfl

theorem inOrder_eq_self {xs : List Value} (h : ¬ ∀ x ∈ xs, ∃ n, x = .int n) :
    inOrder xs = xs := by
  unfold inOrder
  rw [if_neg]
  intro hall
  apply h
  intro x hx
  have := List.all_eq_true.mp hall x hx
  cases x <;> simp_all

/-- Only integers are put in order, and a renaming keeps those. -/
theorem inOrder_rename (xs : List Value) :
    inOrder (xs.map (Value.rename ρ)) = (inOrder xs).map (Value.rename ρ) := by
  by_cases h : ∀ x ∈ xs, ∃ n, x = .int n
  · have keeps (ys : List Value) (hys : ∀ y ∈ ys, y ∈ xs) : ys.map (Value.rename ρ) = ys := by
      conv => rhs; rw [← List.map_id ys]
      apply List.map_congr_left
      intro y hy
      obtain ⟨n, rfl⟩ := h y (hys y hy)
      rfl
    rw [keeps xs fun y hy => hy, keeps (inOrder xs) fun y hy => mem_inOrder.mp hy]
  · have h' : ¬ ∀ x ∈ xs.map (Value.rename ρ), ∃ n, x = .int n := by
      intro hall
      apply h
      intro x hx
      obtain ⟨n, hn⟩ := hall _ (List.mem_map_of_mem hx)
      cases x <;> simp_all [Value.rename]
    rw [inOrder_eq_self h, inOrder_eq_self h']

theorem collectItems_rename (xs : List Value) :
    collectItems (xs.map (Value.rename ρ)) = (collectItems xs).map (Value.rename ρ) := by
  have h (t : List Value) :
      (xs.map (Value.rename ρ)).foldl (fun t x => if t.any (same x) then t else t ++ [x])
          (t.map (Value.rename ρ)) =
        (xs.foldl (fun t x => if t.any (same x) then t else t ++ [x]) t).map (Value.rename ρ) := by
    induction xs generalizing t with
    | nil => rfl
    | cons x xs ih =>
      have hx : (t.map (Value.rename ρ)).any (same (x.rename ρ)) = t.any (same x) := by
        rw [List.any_map]
        congr 1
        funext y
        exact same_rename ρ x y
      rw [List.map_cons, List.foldl_cons, List.foldl_cons, hx, ← ih]
      congr 1
      split <;> simp
  unfold collectItems
  rw [← inOrder_rename]
  exact congrArg inOrder (h [])

/-! ## Sums -/

theorem asFloat_rename (v : Value) :
    (v.rename ρ).asFloat = v.asFloat.map (Binary64.rename ρ) := by
  cases v with
  | bool b =>
    have h := Binary64.rename_ofInt? ρ (if b then 1 else 0)
    simp only [Value.rename, asFloat, asInt?]
    cases hx : Binary64.ofInt? (if b then 1 else 0) with
    | none => rfl
    | some x =>
      rw [hx] at h
      exact congrArg Except.ok (Option.some.inj h).symm
  | int n =>
    have h := Binary64.rename_ofInt? ρ n
    simp only [Value.rename, asFloat, asInt?]
    cases hx : Binary64.ofInt? n with
    | none => rfl
    | some x =>
      rw [hx] at h
      exact congrArg Except.ok (Option.some.inj h).symm
  | _ => rfl

/-- Renaming and adding values that are added as numbers. -/
theorem addNumbers_rename (mark : Nat) (a b : Value) (h : (match a.asInt?, b.asInt? with
      | some n, some m => .ok (.int (n + m))
      | _, _ =>
        if a.isNumber && b.isNumber then do
          return .float (Binary64.add mark (← a.asFloat) (← b.asFloat))
        else .error .mismatch) = add mark a b)
    (h' : (match (a.rename ρ).asInt?, (b.rename ρ).asInt? with
      | some n, some m => .ok (.int (n + m))
      | _, _ =>
        if (a.rename ρ).isNumber && (b.rename ρ).isNumber then do
          return .float (Binary64.add (ρ.mark mark) (← (a.rename ρ).asFloat)
            (← (b.rename ρ).asFloat))
        else .error .mismatch) = add (ρ.mark mark) (a.rename ρ) (b.rename ρ)) :
    add (ρ.mark mark) (a.rename ρ) (b.rename ρ) = (add mark a b).map (Value.rename ρ) := by
  rw [← h, ← h']
  simp only [asInt?_rename, isNumber_rename, asFloat_rename]
  split
  · rfl
  · split
    · cases a.asFloat with
      | error f => rfl
      | ok x =>
        cases b.asFloat with
        | error f => rfl
        | ok y =>
          show Except.ok _ = Except.ok _
          rw [Binary64.add_rename]
          rfl
    · rfl

theorem add_rename (mark : Nat) (a b : Value) :
    add (ρ.mark mark) (a.rename ρ) (b.rename ρ) = (add mark a b).map (Value.rename ρ) := by
  cases a with
  | str s =>
    cases b with
    | str t => rfl
    | _ => rfl
  | bytes s =>
    cases b with
    | bytes t => rfl
    | _ => rfl
  | list xs =>
    cases b with
    | list ys => simp [Value.rename, add, renameItems_eq, Except.map]
    | _ => rfl
  | tuple xs =>
    cases b with
    | tuple ys => simp [Value.rename, add, renameItems_eq, Except.map]
    | _ => rfl
  | bool x => cases b <;> exact addNumbers_rename ρ mark _ _ rfl rfl
  | int x => cases b <;> exact addNumbers_rename ρ mark _ _ rfl rfl
  | float x => cases b <;> exact addNumbers_rename ρ mark _ _ rfl rfl
  | _ => cases b <;> rfl

end Value

end Toolwright
