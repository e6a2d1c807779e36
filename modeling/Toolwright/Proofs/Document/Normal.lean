import Toolwright.Proofs.Document.Settling

/-!
# Entries of settled mappings

The dictionary that a mapping is settled to has the entries of the mapping, one for each, as long as
no two of its keys stand under the same key in a document. Keys that a document can name stay apart;
another key is written as its text, and goes under with an entry that has this text for its key.

What a value is settled to has nothing left to settle: its keys are keys of a document, no two of which
are the same, and its lists and dictionaries hold values of the same form. Settling it once more gives
it back.
-/

namespace Toolwright.Value

set_option autoImplicit false

/-! ## Entries of settled mappings -/

def Apart (keys : List Value) : Prop := keys.Pairwise fun a b => same a b = false

theorem insertBy_cases (k v : Value) (rows : List (Value × Value)) :
    (Table.insertBy same k v rows = rows ++ [(k, v)] ∧ ∀ row ∈ rows, same row.1 k = false) ∨
      ((Table.insertBy same k v rows).length = rows.length ∧ ∃ row ∈ rows, same row.1 k = true) := by
  induction rows with
  | nil => exact .inl ⟨rfl, fun _ h => by cases h⟩
  | cons row rows ih =>
    rw [Table.insertBy]
    cases hsame : same row.1 k with
    | true =>
      rw [if_pos rfl]
      exact .inr ⟨rfl, row, List.mem_cons_self, hsame⟩
    | false =>
      rw [if_neg (by decide)]
      rcases ih with ⟨heq, hnew⟩ | ⟨hlen, r, hr, hsame'⟩
      · refine .inl ⟨by rw [heq]; rfl, fun r hr => ?_⟩
        rcases List.mem_cons.1 hr with rfl | hr
        · exact hsame
        · exact hnew r hr
      · exact .inr ⟨congrArg (· + 1) hlen, r, List.mem_cons_of_mem _ hr, hsame'⟩

theorem Apart.snoc {rows : List (Value × Value)} {row : Value × Value}
    (h : Apart (Table.keys rows)) (hnew : ∀ r ∈ rows, same r.1 row.1 = false) :
    Apart (Table.keys (rows ++ [row])) := by
  rw [Table.keys, List.map_append]
  refine List.pairwise_append.2 ⟨h, List.pairwise_singleton _ _, fun a ha b hb => ?_⟩
  obtain ⟨r, hr, rfl⟩ := List.mem_map.1 ha
  rw [List.mem_singleton.1 hb]
  exact hnew r hr

theorem length_foldl_insertBy (rows t : List (Value × Value)) :
    (rows.foldl (fun t row => Table.insertBy same row.1 row.2 t) t).length ≤ t.length + rows.length ∧
      ((rows.foldl (fun t row => Table.insertBy same row.1 row.2 t) t).length = t.length + rows.length →
        Apart (Table.keys t) → Apart (Table.keys (t ++ rows))) := by
  induction rows generalizing t with
  | nil => exact ⟨Nat.le_refl _, fun _ h => by rwa [List.append_nil]⟩
  | cons row rows ih =>
    obtain ⟨hle, hall⟩ := ih (Table.insertBy same row.1 row.2 t)
    rw [List.foldl_cons, List.length_cons]
    rcases insertBy_cases row.1 row.2 t with ⟨heq, hnew⟩ | ⟨hlen, -⟩
    · rw [heq, List.length_append, List.length_singleton] at hle hall
      rw [heq]
      refine ⟨by omega, fun h ht => ?_⟩
      have hback := hall (by omega) (ht.snoc hnew)
      rwa [List.append_assoc] at hback
    · rw [hlen] at hle hall
      exact ⟨by omega, fun h => by omega⟩

theorem length_collectRows_le (rows : List (Value × Value)) :
    (collectRows rows).length ≤ rows.length := by
  have hle := (length_foldl_insertBy rows []).1
  rwa [List.length_nil, Nat.zero_add] at hle

theorem length_collectRows_iff {rows : List (Value × Value)} :
    (collectRows rows).length = rows.length ↔ Apart (Table.keys rows) := by
  constructor
  · intro h
    refine (length_foldl_insertBy rows []).2 ?_ List.Pairwise.nil
    rw [List.length_nil, Nat.zero_add]
    exact h
  · intro h
    rw [collectRows_eq (List.pairwise_map.1 h)]

theorem memberKey_of_isMemberKey {k : Value} (h : k.isMemberKey = true) : k.memberKey = .ok k := by
  rw [memberKey, if_pos h]

/-- Each mapping inside a value becomes a dictionary. It has an entry for each one of the mapping, in
their order and each with what its value is settled to, just if the keys of the mapping are settled
to keys that are apart. Keys that a document can name are settled to themselves. -/
theorem settled_entries {v w m : Value} {rows : List (Value × Value)} (hv : v.settleKeys = .ok w)
    (hm : m ∈ v.parts) (hrows : m.rows? = some rows) :
    ∃ keys entries, m.settleKeys = .ok (.dict entries) ∧
      List.Forall₂ (fun row key => row.1.memberKey = .ok key ∧
        (row.1.isMemberKey = true → key = row.1)) rows keys ∧
      entries.length ≤ rows.length ∧ (entries.length = rows.length ↔ Apart keys) ∧
      (Apart keys → List.Forall₂ SettlesRow rows entries) := by
  obtain ⟨u, hu⟩ := settled_part hm ⟨w, hv⟩
  obtain ⟨ws, rfl, hws⟩ := of_settle_rows hrows hu
  refine ⟨Table.keys ws, collectRows ws, hu, ?_, ?_, ?_, fun h => ?_⟩
  · refine List.forall₂_map_right_iff.2 (hws.imp fun row settled h => ⟨h.1, fun hk => ?_⟩)
    exact Except.ok.inj (h.1.symm.trans (memberKey_of_isMemberKey hk))
  · rw [hws.length_eq]
    exact length_collectRows_le ws
  · rw [hws.length_eq]
    exact length_collectRows_iff
  · rwa [collectRows_eq (List.pairwise_map.1 h)]

def labelled : Value :=
  .list [.mapping [(.int 1, .tuple [.null]), (.tuple [.null], .str "a"), (.str "1", .null)]]

theorem settled_entries_labelled : ∃ w m rows keys entries, labelled.settleKeys = .ok w ∧
    m ∈ labelled.parts ∧ m.rows? = some rows ∧ m.settleKeys = .ok (.dict entries) ∧
    List.Forall₂ (fun row key => row.1.memberKey = .ok key ∧
      (row.1.isMemberKey = true → key = row.1)) rows keys ∧
    entries.length ≤ rows.length ∧ (entries.length = rows.length ↔ Apart keys) ∧
    (Apart keys → List.Forall₂ SettlesRow rows entries) := by
  obtain ⟨m, hm, rows, hrows⟩ : ∃ m ∈ labelled.parts, ∃ rows, m.rows? = some rows :=
    ⟨_, List.mem_cons_of_mem _ List.mem_cons_self, _, rfl⟩
  obtain ⟨w, hw⟩ : ∃ w, labelled.settleKeys = .ok w := ⟨_, rfl⟩
  obtain ⟨keys, entries, hs, h⟩ := settled_entries hw hm hrows
  exact ⟨w, m, rows, keys, entries, hw, hm, hrows, hs, h⟩

/-- A dictionary with two keys that differ, of which one has the other one for its text. -/
def overwritten : Value := .dict [(.tuple [.null], .str "a"), (.str "(None,)", .str "b")]

/-- An entry goes under with its key, and is not in the result text. -/
theorem overwritten_loses : Apart overwritten.ownKeys ∧
    overwritten.settleKeys = .ok (.dict [(.str "(None,)", .str "b")]) ∧
    overwritten.resultText .null = .ok "\x7b\"(None,)\": \"b\"\x7d" := by
  have hsettled : overwritten.settleKeys = .ok (.dict [(.str "(None,)", .str "b")]) := by
    have hrows : settleRows [(.tuple [.null], .str "a"), (.str "(None,)", .str "b")] =
        .ok [(.str "(None,)", .str "a"), (.str "(None,)", .str "b")] := rfl
    rw [overwritten, settleKeys, hrows]
    show Except.ok (dict (collectRows _)) = _
    simp [collectRows, Table.insertBy, same]
  refine ⟨?_, hsettled, ?_⟩
  · refine List.pairwise_pair.2 ?_
    simp only [same]
  · show overwritten.documentText .null = _
    rw [documentText, hsettled]
    rfl

/-! ## Settled values are normal -/

theorem mem_keys_insertBy {k key v : Value} {rows : List (Value × Value)}
    (h : key ∈ Table.keys (Table.insertBy same k v rows)) : key = k ∨ key ∈ Table.keys rows := by
  obtain ⟨row, hrow, rfl⟩ := List.mem_map.1 h
  rcases (Table.mem_insertBy hrow).1 with hk | ⟨r, hr, he⟩
  · exact .inl hk
  · exact .inr (he ▸ List.mem_map_of_mem hr)

theorem Apart.insertBy {k v : Value} {rows : List (Value × Value)} (h : Apart (Table.keys rows)) :
    Apart (Table.keys (Table.insertBy same k v rows)) := by
  induction rows with
  | nil => exact List.pairwise_singleton _ _
  | cons row rows ih =>
    obtain ⟨hrow, hrows⟩ := List.pairwise_cons.1 h
    rw [Table.insertBy]
    cases hsame : same row.1 k with
    | true =>
      rw [if_pos rfl]
      exact h
    | false =>
      rw [if_neg Bool.false_ne_true]
      refine List.pairwise_cons.2 ⟨fun key hkey => ?_, ih hrows⟩
      rcases mem_keys_insertBy hkey with rfl | hkey
      · exact hsame
      · exact hrow key hkey

theorem apart_collectRows (rows : List (Value × Value)) : Apart (Table.keys (collectRows rows)) := by
  have step (t : List (Value × Value)) (ht : Apart (Table.keys t)) :
      Apart (Table.keys (rows.foldl (fun t row => Table.insertBy same row.1 row.2 t) t)) := by
    induction rows generalizing t with
    | nil => exact ht
    | cons row rows ih => exact ih _ ht.insertBy
  exact step [] List.Pairwise.nil

theorem collectRows_idem (rows : List (Value × Value)) :
    collectRows (collectRows rows) = collectRows rows :=
  collectRows_eq (List.pairwise_map.1 (apart_collectRows rows))

theorem isMemberKey_memberKey {k key : Value} (h : k.memberKey = .ok key) :
    key.isMemberKey = true := by
  rw [memberKey] at h
  split at h
  · cases h
    assumption
  · cases htext : k.text with
    | error e =>
      rw [htext] at h
      cases h
    | ok s =>
      rw [htext] at h
      cases h
      rfl

/-! ## Settling once more -/

theorem settleItems_self {xs : List Value} (h : ∀ x ∈ xs, x.settleKeys = .ok x) :
    settleItems xs = .ok xs := by
  induction xs with
  | nil => rfl
  | cons x xs ih =>
    rw [settleItems, h x List.mem_cons_self, ih fun y hy => h y (List.mem_cons_of_mem _ hy)]
    rfl

theorem settleRows_self {rows : List (Value × Value)}
    (h : ∀ row ∈ rows, row.1.isMemberKey = true ∧ row.2.settleKeys = .ok row.2) :
    settleRows rows = .ok rows := by
  induction rows with
  | nil => rfl
  | cons row rows ih =>
    obtain ⟨hkey, hvalue⟩ := h row List.mem_cons_self
    obtain ⟨k, v⟩ := row
    rw [settleRows, memberKey_of_isMemberKey hkey, hvalue,
      ih fun r hr => h r (List.mem_cons_of_mem _ hr)]
    rfl

theorem settle_settled {v w : Value} (h : v.settleKeys = .ok w) : w.settleKeys = .ok w := by
  induction v using induct_parts generalizing w with
  | leaf v hv =>
    rw [settle_leaf hv] at h
    cases h
    exact settle_leaf hv
  | items v xs hv ih =>
    obtain ⟨ws, rfl, hws⟩ := of_settle_items hv h
    have hself : settleItems ws = .ok ws := settleItems_self fun w hw =>
      have ⟨x, hx, hs⟩ := forall₂_right hws hw
      ih x hx hs
    rw [settleKeys, hself]
    rfl
  | rows v rows hv ih =>
    obtain ⟨ws, rfl, hws⟩ := of_settle_rows hv h
    have each : ∀ row ∈ ws, row.1.isMemberKey = true ∧ row.2.settleKeys = .ok row.2 := fun row hr =>
      have ⟨given, hgiven, hkey, hvalue⟩ := forall₂_right hws hr
      ⟨isMemberKey_memberKey hkey, ih given hgiven hvalue⟩
    have hself := settleRows_self
      (forall_collectRows (·.isMemberKey = true) (fun v => v.settleKeys = .ok v) each)
    rw [settleKeys, hself]
    show Except.ok (dict (collectRows (collectRows ws))) = _
    rw [collectRows_idem]

/-- What a value is settled to consists of lists, of dictionaries whose keys a document can name, and of
leaves of the value. Each list and each tuple inside the value becomes a list of what its items are
settled to, in their order. Settling once more succeeds and changes nothing. -/
theorem settled_normal {v w : Value} (h : v.settleKeys = .ok w) :
    Settled (·.isMemberKey = true) (· ∈ v.parts) w ∧
    (∀ m ∈ v.parts, ∀ xs, m.items? = some xs → ∃ ws, m.settleKeys = .ok (.list ws) ∧
      List.Forall₂ (fun x w => x.settleKeys = .ok w) xs ws) ∧
    w.settleKeys = .ok w := by
  refine ⟨?_, fun m hm xs hxs => ?_, settle_settled h⟩
  · exact (settled_parts h).mono (fun _ ⟨_, _, hkey⟩ => isMemberKey_memberKey hkey) fun _ => id
  · obtain ⟨u, hu⟩ := settled_part hm ⟨w, h⟩
    obtain ⟨ws, rfl, hws⟩ := of_settle_items hxs hu
    exact ⟨ws, hu, hws⟩

/-- A tuple with a mapping, of which two keys are the same and a third is written as the text that is
the fourth one. -/
def crowded : Value :=
  .tuple [.mapping [(.int 1, .tuple [.null, .set []]), (.bool true, .str "a"),
    (.tuple [.null], .list []), (.str "(None,)", .null)]]

theorem settled_normal_crowded : ∃ w, crowded.settleKeys = .ok w ∧
    Settled (·.isMemberKey = true) (· ∈ crowded.parts) w ∧
    (∀ m ∈ crowded.parts, ∀ xs, m.items? = some xs → ∃ ws, m.settleKeys = .ok (.list ws) ∧
      List.Forall₂ (fun x w => x.settleKeys = .ok w) xs ws) ∧
    w.settleKeys = .ok w := by
  obtain ⟨w, hw⟩ : ∃ w, crowded.settleKeys = .ok w := ⟨_, rfl⟩
  exact ⟨w, hw, settled_normal hw⟩

end Toolwright.Value
