import Toolwright.Proofs.Declaration.Rows
import Toolwright.Proofs.Document.Result
import Toolwright.Proofs.Renaming.Extent

/-!
# Settled values

What a value is settled to has lists for its lists and tuples, dictionaries with keys that a document
can name for its mappings, and the other parts of the value as they are. Settling fails only at a key.
-/

namespace Toolwright.Value

set_option autoImplicit false

/-! ## Parts -/

mutual

/-- A value and what is reached through the items of lists and tuples and the values of mappings. -/
def parts : Value → List Value
  | .list xs => .list xs :: partsOfItems xs
  | .tuple xs => .tuple xs :: partsOfItems xs
  | .dict rows => .dict rows :: partsOfRows rows
  | .mapping rows => .mapping rows :: partsOfRows rows
  | v => [v]

def partsOfItems : List Value → List Value
  | [] => []
  | x :: xs => parts x ++ partsOfItems xs

def partsOfRows : List (Value × Value) → List Value
  | [] => []
  | (_, v) :: rows => parts v ++ partsOfRows rows

end

/-- The keys of a mapping; nothing else has any. -/
def ownKeys (v : Value) : List Value := Table.keys (v.rows?.getD [])

/-- The keys of the mappings among the parts of a value. -/
def partKeys (v : Value) : List Value := v.parts.flatMap ownKeys

theorem mem_parts_self (v : Value) : v ∈ v.parts := by
  cases v <;> exact List.mem_cons_self

theorem mem_partKeys {v u k : Value} (hu : u ∈ v.parts) (hk : k ∈ u.ownKeys) : k ∈ v.partKeys :=
  List.mem_flatMap.2 ⟨u, hu, hk⟩

theorem ownKeys_subset (v : Value) : v.ownKeys ⊆ v.partKeys := fun _ hk =>
  mem_partKeys (mem_parts_self v) hk

theorem partKeys_subset {v u : Value} (h : u.parts ⊆ v.parts) : u.partKeys ⊆ v.partKeys := by
  intro k hk
  obtain ⟨p, hp, hk⟩ := List.mem_flatMap.1 hk
  exact mem_partKeys (h hp) hk

theorem parts_subset_items {x : Value} {xs : List Value} (h : x ∈ xs) :
    x.parts ⊆ partsOfItems xs := by
  induction xs with
  | nil => cases h
  | cons y xs ih =>
    intro u hu
    rw [partsOfItems, List.mem_append]
    rcases List.mem_cons.1 h with rfl | h
    · exact .inl hu
    · exact .inr (ih h hu)

theorem parts_subset_rows {row : Value × Value} {rows : List (Value × Value)} (h : row ∈ rows) :
    row.2.parts ⊆ partsOfRows rows := by
  induction rows with
  | nil => cases h
  | cons first rows ih =>
    obtain ⟨k, v⟩ := first
    intro u hu
    rw [partsOfRows, List.mem_append]
    rcases List.mem_cons.1 h with rfl | h
    · exact .inl hu
    · exact .inr (ih h hu)

/-- Stands for the values that have items: lists and tuples. -/
def items? : Value → Option (List Value)
  | .list xs | .tuple xs => some xs
  | _ => none

theorem parts_of_items {v x : Value} {xs : List Value} (h : v.items? = some xs) (hx : x ∈ xs) :
    x.parts ⊆ v.parts := by
  intro u hu
  cases v with
  | list ys | tuple ys =>
    cases h
    exact List.mem_cons_of_mem _ (parts_subset_items hx hu)
  | _ => cases h

theorem parts_of_rows {v : Value} {rows : List (Value × Value)} (h : v.rows? = some rows)
    {row : Value × Value} (hr : row ∈ rows) : row.2.parts ⊆ v.parts := by
  intro u hu
  cases v with
  | dict ys | mapping ys =>
    cases h
    exact List.mem_cons_of_mem _ (parts_subset_rows hr hu)
  | _ => cases h

theorem mem_partsOfItems {xs : List Value} {u : Value} (h : u ∈ partsOfItems xs) :
    ∃ x ∈ xs, u ∈ x.parts := by
  induction xs with
  | nil => cases h
  | cons x xs ih =>
    rcases List.mem_append.1 h with h | h
    · exact ⟨x, List.mem_cons_self, h⟩
    · obtain ⟨y, hy, hu⟩ := ih h
      exact ⟨y, List.mem_cons_of_mem _ hy, hu⟩

theorem mem_partsOfRows {rows : List (Value × Value)} {u : Value} (h : u ∈ partsOfRows rows) :
    ∃ row ∈ rows, u ∈ row.2.parts := by
  induction rows with
  | nil => cases h
  | cons row rows ih =>
    obtain ⟨k, v⟩ := row
    rcases List.mem_append.1 h with h | h
    · exact ⟨(k, v), List.mem_cons_self, h⟩
    · obtain ⟨r, hr, hu⟩ := ih h
      exact ⟨r, List.mem_cons_of_mem _ hr, hu⟩

/-- The parts of a value: itself, and those of its items or of the values of its rows. -/
theorem mem_parts_cases {v u : Value} (h : u ∈ v.parts) :
    u = v ∨ (∃ xs, v.items? = some xs ∧ ∃ x ∈ xs, u ∈ x.parts) ∨
      ∃ rows, v.rows? = some rows ∧ ∃ row ∈ rows, u ∈ row.2.parts := by
  cases v with
  | list xs | tuple xs =>
    rcases List.mem_cons.1 h with h | h
    · exact .inl h
    · exact .inr (.inl ⟨xs, rfl, mem_partsOfItems h⟩)
  | dict rows | mapping rows =>
    rcases List.mem_cons.1 h with h | h
    · exact .inl h
    · exact .inr (.inr ⟨rows, rfl, mem_partsOfRows h⟩)
  | _ => exact .inl (List.mem_singleton.1 h)

theorem ownKeys_of_rows {v : Value} {rows : List (Value × Value)} (h : v.rows? = some rows) :
    v.ownKeys = Table.keys rows := by
  rw [ownKeys, h]
  rfl

theorem of_mem_partKeys {v k : Value} (h : k ∈ v.partKeys) :
    ∃ u ∈ v.parts, ∃ rows, u.rows? = some rows ∧ ∃ row ∈ rows, row.1 = k := by
  obtain ⟨u, hu, hk⟩ := List.mem_flatMap.1 h
  cases hrows : u.rows? with
  | none =>
    rw [ownKeys, hrows] at hk
    cases hk
  | some rows =>
    rw [ownKeys_of_rows hrows] at hk
    exact ⟨u, hu, rows, hrows, List.mem_map.1 hk⟩

/-! ## Settled values -/

/-- The values that consist of lists, of dictionaries with keys of one kind and of leaves. -/
inductive Settled (key leaf : Value → Prop) : Value → Prop
  | leaf {v : Value} : ¬ IsContainer v → leaf v → Settled key leaf v
  | list {xs : List Value} : (∀ x ∈ xs, Settled key leaf x) → Settled key leaf (.list xs)
  | dict {rows : List (Value × Value)} : (∀ row ∈ rows, key row.1) →
      (∀ row ∈ rows, Settled key leaf row.2) → Settled key leaf (.dict rows)

theorem Settled.mono {key key' leaf leaf' : Value → Prop} (hkey : ∀ k, key k → key' k)
    (hleaf : ∀ v, leaf v → leaf' v) {v : Value} (h : Settled key leaf v) :
    Settled key' leaf' v := by
  induction h with
  | leaf hv h => exact .leaf hv (hleaf _ h)
  | list _ ih => exact .list ih
  | dict hkeys _ ih => exact .dict (fun row hr => hkey _ (hkeys row hr)) ih

/-- What holds of all keys and of all values holds of those that a dictionary keeps. -/
theorem forall_collectRows (key value : Value → Prop) {rows : List (Value × Value)}
    (h : ∀ row ∈ rows, key row.1 ∧ value row.2) :
    ∀ row ∈ collectRows rows, key row.1 ∧ value row.2 := by
  have step (t : List (Value × Value)) (ht : ∀ row ∈ t, key row.1 ∧ value row.2) :
      ∀ row ∈ rows.foldl (fun t row => Table.insertBy same row.1 row.2 t) t,
        key row.1 ∧ value row.2 := by
    induction rows generalizing t with
    | nil => exact ht
    | cons first rows ih =>
      obtain ⟨hk, hv⟩ := h first List.mem_cons_self
      rw [List.foldl_cons]
      refine ih (fun r hr => h r (List.mem_cons_of_mem _ hr)) _ fun row hrow => ?_
      obtain ⟨hkey, hvalue⟩ := Table.mem_insertBy hrow
      constructor
      · rcases hkey with e | ⟨r, hr, e⟩
        · exact e ▸ hk
        · exact e ▸ (ht r hr).1
      · rcases hvalue with e | ⟨r, hr, e⟩
        · exact e ▸ hv
        · exact e ▸ (ht r hr).2
  exact step [] fun row hrow => by cases hrow

/-! ## Settling -/

/-- The rows of a mapping, settled one after another. -/
def SettlesRow (row settled : Value × Value) : Prop :=
  row.1.memberKey = .ok settled.1 ∧ row.2.settleKeys = .ok settled.2

theorem of_settleItems {xs ws : List Value} (h : settleItems xs = .ok ws) :
    List.Forall₂ (fun x w => x.settleKeys = .ok w) xs ws := by
  induction xs generalizing ws with
  | nil =>
    cases h
    exact .nil
  | cons x xs ih =>
    rw [settleItems] at h
    obtain ⟨w, hw, h⟩ := of_bind_ok h
    obtain ⟨rest, hrest, h⟩ := of_bind_ok h
    cases h
    exact .cons hw (ih hrest)

theorem of_settleRows {rows ws : List (Value × Value)} (h : settleRows rows = .ok ws) :
    List.Forall₂ SettlesRow rows ws := by
  induction rows generalizing ws with
  | nil =>
    cases h
    exact .nil
  | cons row rows ih =>
    obtain ⟨k, v⟩ := row
    rw [settleRows] at h
    obtain ⟨key, hkey, h⟩ := of_bind_ok h
    obtain ⟨w, hw, h⟩ := of_bind_ok h
    obtain ⟨rest, hrest, h⟩ := of_bind_ok h
    cases h
    exact .cons ⟨hkey, hw⟩ (ih hrest)

theorem of_settle_items {v w : Value} {xs : List Value} (hv : v.items? = some xs)
    (h : v.settleKeys = .ok w) :
    ∃ ws, w = .list ws ∧ List.Forall₂ (fun x w => x.settleKeys = .ok w) xs ws := by
  cases v with
  | list ys | tuple ys =>
    cases hv
    rw [settleKeys] at h
    obtain ⟨ws, hws, h⟩ := of_bind_ok h
    cases h
    exact ⟨ws, rfl, of_settleItems hws⟩
  | _ => cases hv

theorem of_settle_rows {v w : Value} {rows : List (Value × Value)} (hv : v.rows? = some rows)
    (h : v.settleKeys = .ok w) :
    ∃ ws, w = .dict (collectRows ws) ∧ List.Forall₂ SettlesRow rows ws := by
  cases v with
  | dict others | mapping others =>
    cases hv
    rw [settleKeys] at h
    obtain ⟨ws, hws, h⟩ := of_bind_ok h
    cases h
    exact ⟨ws, rfl, of_settleRows hws⟩
  | _ => cases hv

theorem settle_leaf {v : Value} (h : ¬ IsContainer v) : v.settleKeys = .ok v := by
  cases v with
  | list _ | tuple _ | dict _ | mapping _ => exact (h trivial).elim
  | _ => rfl

theorem container_cases (v : Value) :
    ¬ IsContainer v ∨ (∃ xs, v.items? = some xs) ∨ ∃ rows, v.rows? = some rows := by
  cases v with
  | list xs | tuple xs => exact .inr (.inl ⟨xs, rfl⟩)
  | dict rows | mapping rows => exact .inr (.inr ⟨rows, rfl⟩)
  | _ => exact .inl id

theorem sizeOf_item {v x : Value} {xs : List Value} (h : v.items? = some xs) (hx : x ∈ xs) :
    sizeOf x < sizeOf v := by
  have hlt := List.sizeOf_lt_of_mem hx
  cases v with
  | list ys | tuple ys =>
    cases h
    simp only [list.sizeOf_spec, tuple.sizeOf_spec]
    omega
  | _ => cases h

theorem sizeOf_row {v : Value} {rows : List (Value × Value)} (h : v.rows? = some rows)
    {row : Value × Value} (hr : row ∈ rows) : sizeOf row.2 < sizeOf v := by
  have hlt := List.sizeOf_lt_of_mem hr
  obtain ⟨k, u⟩ := row
  cases v with
  | dict others | mapping others =>
    cases h
    simp only [dict.sizeOf_spec, mapping.sizeOf_spec, Prod.mk.sizeOf_spec] at *
    omega
  | _ => cases h

theorem induct_parts {motive : Value → Prop}
    (leaf : ∀ v, ¬ IsContainer v → motive v)
    (items : ∀ v xs, v.items? = some xs → (∀ x ∈ xs, motive x) → motive v)
    (rows : ∀ v rows, v.rows? = some rows → (∀ row ∈ rows, motive row.2) → motive v)
    (v : Value) : motive v := by
  rcases container_cases v with h | ⟨xs, h⟩ | ⟨others, h⟩
  · exact leaf v h
  · exact items v xs h fun x hx =>
      have := sizeOf_item h hx
      induct_parts leaf items rows x
  · exact rows v others h fun row hr =>
      have := sizeOf_row h hr
      induct_parts leaf items rows row.2
termination_by v

@[elab_as_elim]
theorem induct_mem_parts {u : Value} {motive : Value → Prop} (self : motive u)
    (item : ∀ v xs, v.items? = some xs → ∀ x ∈ xs, motive x → motive v)
    (row : ∀ v rows, v.rows? = some rows → ∀ row ∈ rows, motive row.2 → motive v)
    {v : Value} (h : u ∈ v.parts) : motive v := by
  rcases mem_parts_cases h with rfl | ⟨xs, hxs, x, hx, h⟩ | ⟨rows, hrows, r, hr, h⟩
  · exact self
  · have := sizeOf_item hxs hx
    exact item v xs hxs x hx (induct_mem_parts self item row h)
  · have := sizeOf_row hrows hr
    exact row v rows hrows r hr (induct_mem_parts self item row h)
termination_by v

/-- What a value is settled to consists of leaves of the value, under keys that stand for its keys. -/
theorem settled_parts {v w : Value} (h : v.settleKeys = .ok w) :
    Settled (fun key => ∃ k ∈ v.partKeys, k.memberKey = .ok key) (· ∈ v.parts) w := by
  induction v using induct_parts generalizing w with
  | leaf v hv =>
    rw [settle_leaf hv] at h
    cases h
    exact .leaf hv (mem_parts_self v)
  | items v xs hv ih =>
    obtain ⟨ws, rfl, hws⟩ := of_settle_items hv h
    refine .list fun w hw => ?_
    obtain ⟨x, hx, hs⟩ := forall₂_right hws hw
    have hparts := parts_of_items hv hx
    exact (ih x hx hs).mono (fun key ⟨k, hk, hkey⟩ => ⟨k, partKeys_subset hparts hk, hkey⟩)
      fun u hu => hparts hu
  | rows v rows hv ih =>
    obtain ⟨ws, rfl, hws⟩ := of_settle_rows hv h
    let stands : Value → Prop := fun key => ∃ k ∈ v.partKeys, k.memberKey = .ok key
    have each : ∀ row ∈ ws, stands row.1 ∧ Settled stands (· ∈ v.parts) row.2 := by
      intro settled hsettled
      obtain ⟨row, hrow, hkey, hvalue⟩ := forall₂_right hws hsettled
      have hown : row.1 ∈ v.ownKeys := ownKeys_of_rows hv ▸ List.mem_map_of_mem hrow
      have hparts := parts_of_rows hv hrow
      refine ⟨⟨row.1, ownKeys_subset v hown, hkey⟩, ?_⟩
      exact (ih row hrow hvalue).mono
        (fun key ⟨k, hk, hkey⟩ => ⟨k, partKeys_subset hparts hk, hkey⟩) fun u hu => hparts hu
    have kept := forall_collectRows stands (Settled stands (· ∈ v.parts)) each
    exact .dict (fun row hr => (kept row hr).1) fun row hr => (kept row hr).2

theorem settled_part {v u : Value} (hu : u ∈ v.parts) (h : ∃ w, v.settleKeys = .ok w) :
    ∃ w, u.settleKeys = .ok w := by
  revert h
  refine induct_mem_parts ?self ?item ?row hu
  case self => exact id
  case item =>
    rintro v xs hxs x hx ih ⟨w, h⟩
    obtain ⟨ws, rfl, hws⟩ := of_settle_items hxs h
    obtain ⟨w, -, hw⟩ := forall₂_left hws hx
    exact ih ⟨w, hw⟩
  case row =>
    rintro v rows hrows r hr ih ⟨w, h⟩
    obtain ⟨ws, rfl, hws⟩ := of_settle_rows hrows h
    obtain ⟨settled, -, -, hvalue⟩ := forall₂_left hws hr
    exact ih ⟨settled.2, hvalue⟩

theorem settled_keys {v w : Value} (h : v.settleKeys = .ok w) :
    ∀ k ∈ v.partKeys, ∃ key, k.memberKey = .ok key := by
  intro k hk
  obtain ⟨u, hu, rows, hrows, row, hrow, rfl⟩ := of_mem_partKeys hk
  obtain ⟨x, hx⟩ := settled_part hu ⟨w, h⟩
  obtain ⟨ws, rfl, hws⟩ := of_settle_rows hrows hx
  obtain ⟨settled, -, hkey, -⟩ := forall₂_left hws hrow
  exact ⟨settled.1, hkey⟩

theorem settleItems_error {xs : List Value} {e : Fault} (h : settleItems xs = .error e) :
    ∃ x ∈ xs, x.settleKeys = .error e := by
  induction xs with
  | nil => cases h
  | cons x xs ih =>
    rw [settleItems] at h
    rcases of_bind_error h with h | ⟨w, -, h⟩
    · exact ⟨x, List.mem_cons_self, h⟩
    rcases of_bind_error h with h | ⟨ws, -, h⟩
    · obtain ⟨y, hy, he⟩ := ih h
      exact ⟨y, List.mem_cons_of_mem _ hy, he⟩
    · cases h

theorem settleRows_error {rows : List (Value × Value)} {e : Fault}
    (h : settleRows rows = .error e) :
    ∃ row ∈ rows, row.1.memberKey = .error e ∨ row.2.settleKeys = .error e := by
  induction rows with
  | nil => cases h
  | cons row rows ih =>
    obtain ⟨k, v⟩ := row
    rw [settleRows] at h
    rcases of_bind_error h with h | ⟨key, -, h⟩
    · exact ⟨_, List.mem_cons_self, .inl h⟩
    rcases of_bind_error h with h | ⟨w, -, h⟩
    · exact ⟨_, List.mem_cons_self, .inr h⟩
    rcases of_bind_error h with h | ⟨ws, -, h⟩
    · obtain ⟨r, hr, he⟩ := ih h
      exact ⟨r, List.mem_cons_of_mem _ hr, he⟩
    · cases h

theorem settle_error {v : Value} {e : Fault} (h : v.settleKeys = .error e) :
    ∃ k ∈ v.partKeys, k.memberKey = .error e := by
  induction v using induct_parts with
  | leaf v hv =>
    rw [settle_leaf hv] at h
    cases h
  | items v xs hv ih =>
    have hitems : settleItems xs = .error e := by
      cases v with
      | list ys | tuple ys =>
        cases hv
        rw [settleKeys] at h
        rcases of_bind_error h with h | ⟨ws, -, h⟩
        · exact h
        · cases h
      | _ => cases hv
    obtain ⟨x, hx, he⟩ := settleItems_error hitems
    obtain ⟨k, hk, hkey⟩ := ih x hx he
    exact ⟨k, partKeys_subset (parts_of_items hv hx) hk, hkey⟩
  | rows v rows hv ih =>
    have hrows : settleRows rows = .error e := by
      cases v with
      | dict others | mapping others =>
        cases hv
        rw [settleKeys] at h
        rcases of_bind_error h with h | ⟨ws, -, h⟩
        · exact h
        · cases h
      | _ => cases hv
    obtain ⟨row, hrow, he | he⟩ := settleRows_error hrows
    · exact ⟨row.1, ownKeys_subset v (ownKeys_of_rows hv ▸ List.mem_map_of_mem hrow), he⟩
    · obtain ⟨k, hk, hkey⟩ := ih row hrow he
      exact ⟨k, partKeys_subset (parts_of_rows hv hrow) hk, hkey⟩

end Toolwright.Value
