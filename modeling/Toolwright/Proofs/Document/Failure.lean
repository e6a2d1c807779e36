import Toolwright.Proofs.Document.Settling
import Toolwright.Proofs.Document.Spacing

/-!
# When a result has no text

A value whose integers can be written out fails to have a result text only where an object has none:
the object is the value, a key of one of its mappings, or among its items and values. A key fails
before anything else does.
-/

namespace Toolwright.Value

set_option autoImplicit false

/-! ## Integers inside a value -/

mutual

def integers : Value → List Int
  | .int n => [n]
  | .list xs | .tuple xs | .set xs | .frozenset xs => integersOfItems xs
  | .dict rows | .mapping rows => integersOfRows rows
  | .record _ fields => integersOfItems fields
  | _ => []

def integersOfItems : List Value → List Int
  | [] => []
  | x :: xs => integers x ++ integersOfItems xs

def integersOfRows : List (Value × Value) → List Int
  | [] => []
  | (k, v) :: rows => integers k ++ (integers v ++ integersOfRows rows)

end

/-- Values with integers of at most 4300 digits. -/
def Short (v : Value) : Prop := ∀ n ∈ v.integers, n.natAbs < 10 ^ 4300

theorem Short.int {n : Int} (h : Short (.int n)) : intText n = .ok (toString n) :=
  intText_eq (h n (List.mem_singleton_self n))

def Prints {α : Type} (ns : List Int) (printed : Except Fault α) : Prop :=
  (∀ n ∈ ns, n.natAbs < 10 ^ 4300) → ∃ s, printed = .ok s

mutual

theorem prints (v : Value) : Prints v.integers v.printed := by
  intro h
  match v with
  | .null | .bool _ | .float _ | .str _ | .bytes _ | .opaqueRef _ => exact ⟨_, rfl⟩
  | .int n => exact ⟨_, Short.int h⟩
  | .list xs =>
    obtain ⟨parts, hp⟩ := printsItems xs h
    exact ⟨_, by rw [printed, hp]; rfl⟩
  | .tuple xs =>
    obtain ⟨parts, hp⟩ := printsItems xs h
    rw [printed, hp]
    match parts with
    | [] | [_] | _ :: _ :: _ => exact ⟨_, rfl⟩
  | .dict rows =>
    obtain ⟨parts, hp⟩ := printsRows rows h
    exact ⟨_, by rw [printed, hp]; rfl⟩
  | .mapping rows =>
    obtain ⟨parts, hp⟩ := printsRows rows h
    exact ⟨_, by rw [printed, hp]; rfl⟩
  | .set xs =>
    obtain ⟨parts, hp⟩ := printsItems xs h
    rw [printed, hp]
    split <;> exact ⟨_, rfl⟩
  | .frozenset xs =>
    obtain ⟨parts, hp⟩ := printsItems xs h
    rw [printed, hp]
    split <;> exact ⟨_, rfl⟩
  | .record shape fields =>
    obtain ⟨parts, hp⟩ := printsItems fields h
    exact ⟨_, by rw [printed, hp]; rfl⟩

theorem printsItems (xs : List Value) : Prints (integersOfItems xs) (printedItems xs) := by
  intro h
  match xs with
  | [] => exact ⟨_, rfl⟩
  | x :: xs =>
    obtain ⟨s, hs⟩ := prints x fun n hn => h n (List.mem_append_left _ hn)
    obtain ⟨parts, hp⟩ := printsItems xs fun n hn => h n (List.mem_append_right _ hn)
    exact ⟨_, by rw [printedItems, hs, hp]; rfl⟩

theorem printsRows (rows : List (Value × Value)) :
    Prints (integersOfRows rows) (printedRows rows) := by
  intro h
  match rows with
  | [] => exact ⟨_, rfl⟩
  | (k, v) :: rows =>
    obtain ⟨key, hk⟩ := prints k fun n hn => h n (List.mem_append_left _ hn)
    obtain ⟨s, hs⟩ := prints v fun n hn =>
      h n (List.mem_append_right _ (List.mem_append_left _ hn))
    obtain ⟨parts, hp⟩ := printsRows rows fun n hn =>
      h n (List.mem_append_right _ (List.mem_append_right _ hn))
    exact ⟨_, by rw [printedRows, hk, hs, hp]; rfl⟩

end

theorem integers_of_item {x : Value} {xs : List Value} (h : x ∈ xs) :
    x.integers ⊆ integersOfItems xs := by
  induction xs with
  | nil => cases h
  | cons y xs ih =>
    intro n hn
    rcases List.mem_cons.1 h with rfl | h
    · exact List.mem_append_left _ hn
    · exact List.mem_append_right _ (ih h hn)

theorem integers_of_row {row : Value × Value} {rows : List (Value × Value)} (h : row ∈ rows) :
    row.1.integers ⊆ integersOfRows rows ∧ row.2.integers ⊆ integersOfRows rows := by
  induction rows with
  | nil => cases h
  | cons first rows ih =>
    obtain ⟨k, v⟩ := first
    rcases List.mem_cons.1 h with rfl | h
    · exact ⟨fun n hn => List.mem_append_left _ hn,
        fun n hn => List.mem_append_right _ (List.mem_append_left _ hn)⟩
    · obtain ⟨hk, hv⟩ := ih h
      exact ⟨fun n hn => List.mem_append_right _ (List.mem_append_right _ (hk hn)),
        fun n hn => List.mem_append_right _ (List.mem_append_right _ (hv hn))⟩

theorem Short.items {v x : Value} {xs : List Value} (h : Short v) (hv : v.items? = some xs)
    (hx : x ∈ xs) : Short x := by
  intro n hn
  cases v with
  | list ys | tuple ys =>
    cases hv
    exact h n (integers_of_item hx hn)
  | _ => cases hv

theorem Short.rows {v : Value} {rows : List (Value × Value)} (h : Short v)
    (hv : v.rows? = some rows) {row : Value × Value} (hr : row ∈ rows) :
    Short row.1 ∧ Short row.2 := by
  cases v with
  | dict others | mapping others =>
    cases hv
    obtain ⟨hk, hu⟩ := integers_of_row hr
    exact ⟨fun n hn => h n (hk hn), fun n hn => h n (hu hn)⟩
  | _ => cases hv

theorem Short.parts {v u : Value} (h : Short v) (hu : u ∈ v.parts) : Short u := by
  revert h
  refine induct_mem_parts ?self ?item ?row hu
  case self => exact id
  case item => exact fun v xs hxs x hx ih h => ih (h.items hxs hx)
  case row => exact fun v rows hrows r hr ih h => ih (h.rows hrows hr).2

theorem Short.partKeys {v k : Value} (h : Short v) (hk : k ∈ v.partKeys) : Short k := by
  obtain ⟨u, hu, rows, hrows, row, hrow, rfl⟩ := of_mem_partKeys hk
  exact ((h.parts hu).rows hrows hrow).1

/-! ## Objects without a text -/

/-- An object that has no text, for a reason of its own. -/
def Mute (v : Value) (reason : String) : Prop := ∃ serial, v = .opaqueRef (.mute serial reason)

theorem Mute.memberKey {v : Value} {reason : String} (h : Mute v reason) :
    v.memberKey = .error (.unprintable reason) := by
  obtain ⟨serial, rfl⟩ := h
  rfl

theorem text_error {v : Value} {e : Fault} (hv : Short v) (h : v.text = .error e) :
    ∃ reason, e = .unprintable reason ∧ v.Mute reason := by
  have hprints : v.printed ≠ .error e := by
    obtain ⟨s, hs⟩ := prints v hv
    rw [hs]
    exact fun h => by cases h
  unfold text at h
  split at h
  · cases h
  · cases h
  · cases h
    exact ⟨_, rfl, _, rfl⟩
  · exact (hprints h).elim

theorem memberKey_error {k : Value} {e : Fault} (hk : Short k) (h : k.memberKey = .error e) :
    ∃ reason, e = .unprintable reason ∧ k.Mute reason := by
  rw [memberKey] at h
  split at h
  · cases h
  · cases htext : k.text with
    | ok s =>
      rw [htext] at h
      cases h
    | error e' =>
      rw [htext] at h
      cases h
      exact text_error hk htext

theorem memberName_memberKey {k key : Value} (hk : Short k) (h : k.memberKey = .ok key) :
    ∃ name, Document.memberName key = .ok name := by
  rw [memberKey] at h
  split at h
  · cases h
    cases k with
    | null | bool _ | float _ | str _ => exact ⟨_, rfl⟩
    | int n => exact ⟨_, hk.int⟩
    | _ => contradiction
  · cases htext : k.text with
    | ok s =>
      rw [htext] at h
      cases h
      exact ⟨s, rfl⟩
    | error e =>
      rw [htext] at h
      cases h

/-! ## Documents of settled values -/

theorem ofItems_error {leaf : Value → Except Fault Document} {xs : List Value} {e : Fault}
    (h : Document.ofItems leaf xs = .error e) : ∃ x ∈ xs, Document.ofValue leaf x = .error e := by
  induction xs with
  | nil => cases h
  | cons x xs ih =>
    rw [Document.ofItems] at h
    rcases of_bind_error h with h | ⟨d, -, h⟩
    · exact ⟨x, List.mem_cons_self, h⟩
    rcases of_bind_error h with h | ⟨ds, -, h⟩
    · obtain ⟨y, hy, he⟩ := ih h
      exact ⟨y, List.mem_cons_of_mem _ hy, he⟩
    · cases h

theorem ofRows_error {leaf : Value → Except Fault Document} {rows : List (Value × Value)}
    {e : Fault} (hkeys : ∀ row ∈ rows, ∃ name, Document.memberName row.1 = .ok name)
    (h : Document.ofRows leaf rows = .error e) :
    ∃ row ∈ rows, Document.ofValue leaf row.2 = .error e := by
  induction rows with
  | nil => cases h
  | cons row rows ih =>
    obtain ⟨k, v⟩ := row
    obtain ⟨name, hname⟩ := hkeys _ List.mem_cons_self
    rw [Document.ofRows, hname] at h
    rcases of_bind_error h with h | ⟨name, -, h⟩
    · cases h
    rcases of_bind_error h with h | ⟨d, -, h⟩
    · exact ⟨_, List.mem_cons_self, h⟩
    rcases of_bind_error h with h | ⟨ds, -, h⟩
    · obtain ⟨r, hr, he⟩ := ih (fun r hr => hkeys r (List.mem_cons_of_mem _ hr)) h
      exact ⟨r, List.mem_cons_of_mem _ hr, he⟩
    · cases h

theorem Settled.document_error {key leaf : Value → Prop} {write : Value → Except Fault Document}
    {w : Value} {e : Fault} (hw : Settled key leaf w)
    (hkey : ∀ k, key k → ∃ name, Document.memberName k = .ok name)
    (h : Document.ofValue write w = .error e) :
    ∃ u, ¬ IsContainer u ∧ leaf u ∧ Document.ofValue write u = .error e := by
  induction hw with
  | leaf hv hl => exact ⟨_, hv, hl, h⟩
  | list _ ih =>
    rw [Document.ofValue] at h
    rcases of_bind_error h with h | ⟨ds, -, h⟩
    · obtain ⟨x, hx, he⟩ := ofItems_error h
      exact ih x hx he
    · cases h
  | dict hkeys _ ih =>
    rw [Document.ofValue] at h
    rcases of_bind_error h with h | ⟨ds, -, h⟩
    · obtain ⟨row, hrow, he⟩ := ofRows_error (fun row hr => hkey _ (hkeys row hr)) h
      exact ih row hrow he
    · cases h

theorem leaf_error {u : Value} {e : Fault} (hu : Short u) (hl : ¬ IsContainer u)
    (h : Document.ofValue leafDocument u = .error e) : u.text = .error e := by
  have of_leaf : leafDocument u = .error e → u.text = .error e := by
    intro h
    rw [leafDocument] at h
    cases htext : u.text with
    | ok s =>
      rw [htext] at h
      cases h
    | error e' =>
      rw [htext] at h
      cases h
      rfl
  cases u with
  | null | bool _ | float _ | str _ => cases h
  | int n =>
    rw [Document.ofValue, hu.int] at h
    cases h
  | list _ | tuple _ | dict _ | mapping _ => exact (hl trivial).elim
  | _ => exact of_leaf h

/-! ## Result texts -/

/-- What a document may be indented by: nothing, so many spaces as can be made, or any text. -/
def Widens : Value → Prop
  | .null | .bool _ | .str _ => True
  | .int n => -(2 ^ 63) ≤ n ∧ n ≤ 2 ^ 28
  | _ => False

theorem ofIndent_widens {indent : Value} (h : Widens indent) :
    ∃ layout, Layout.ofIndent indent = .ok layout := by
  cases indent with
  | null | bool _ | str _ => exact ⟨_, rfl⟩
  | int n => exact ⟨_, by rw [Layout.ofIndent, repeated_space h]; rfl⟩
  | _ => exact h.elim

/-- Why a result text fails: a key without a text, or else some other part without one. -/
def Fails (v : Value) (e : Fault) : Prop :=
  ∃ reason, e = .unprintable reason ∧ ((∃ k ∈ v.partKeys, k.Mute reason) ∨
    (∀ k ∈ v.partKeys, ∀ reason, ¬ k.Mute reason) ∧ ∃ u ∈ v.parts, u.Mute reason)

theorem document_fails {v : Value} {e : Fault} (hv : Short v) (h : v.document = .error e) :
    v.Fails e := by
  rcases of_bind_error h with h | ⟨w, hw, h⟩
  · obtain ⟨k, hk, he⟩ := settle_error h
    obtain ⟨reason, rfl, hmute⟩ := memberKey_error (hv.partKeys hk) he
    exact ⟨reason, rfl, .inl ⟨k, hk, hmute⟩⟩
  · have named : ∀ key, (∃ k ∈ v.partKeys, k.memberKey = .ok key) →
        ∃ name, Document.memberName key = .ok name :=
      fun key ⟨k, hk, hkey⟩ => memberName_memberKey (hv.partKeys hk) hkey
    obtain ⟨u, hleaf, hu, he⟩ := (settled_parts hw).document_error named h
    obtain ⟨reason, rfl, hmute⟩ := text_error (hv.parts hu) (leaf_error (hv.parts hu) hleaf he)
    refine ⟨reason, rfl, .inr ⟨fun k hk reason hm => ?_, u, hu, hmute⟩⟩
    obtain ⟨key, hkey⟩ := settled_keys hw k hk
    rw [hm.memberKey] at hkey
    cases hkey

theorem document_mute {v k : Value} {reason : String} (hk : k ∈ v.partKeys)
    (hm : k.Mute reason) : ∃ e, v.document = .error e := by
  cases h : v.settleKeys with
  | error e =>
    refine ⟨e, ?_⟩
    rw [document, h]
    rfl
  | ok w =>
    obtain ⟨key, hkey⟩ := settled_keys h k hk
    rw [hm.memberKey] at hkey
    cases hkey

/-- A value with short integers has a result text unless it or a key or a part of it has no text. It
then fails as that one does, and at a key if one of the keys has no text. -/
theorem resultText_fails {v indent : Value} (hv : Short v) (hi : Widens indent) :
    ((∀ u ∈ v.partKeys ++ v.parts, ∀ reason, ¬ u.Mute reason) →
        ∃ t, v.resultText indent = .ok t) ∧
      (∀ e, v.resultText indent = .error e → v.Fails e) ∧
      ((∃ k ∈ v.partKeys, ∃ reason, k.Mute reason) → ∃ e, v.resultText indent = .error e) := by
  obtain ⟨layout, hlayout⟩ := ofIndent_widens hi
  have written : v.documentText indent = (Document.text layout) <$> v.document :=
    documentText_eq hlayout
  have fails : ∀ e, v.resultText indent = .error e → v.Fails e := by
    intro e h
    have contained (h : v.documentText indent = .error e) : v.Fails e := by
      rw [written] at h
      refine document_fails hv ?_
      cases hd : v.document with
      | error e' =>
        rw [hd] at h
        cases h
        rfl
      | ok d =>
        rw [hd] at h
        cases h
    have plain (hc : ¬ IsContainer v) (h : v.text = .error e) : v.Fails e := by
      obtain ⟨reason, rfl, hmute⟩ := text_error hv h
      refine ⟨reason, rfl, .inr ⟨fun k hk => ?_, v, mem_parts_self v, hmute⟩⟩
      obtain ⟨serial, rfl⟩ := hmute
      cases hk
    cases v with
    | list _ | tuple _ | dict _ | mapping _ => exact contained h
    | str s => cases h
    | _ => exact plain id h
  refine ⟨fun hnone => ?_, fails, fun ⟨k, hk, reason, hm⟩ => ?_⟩
  · cases h : v.resultText indent with
    | ok t => exact ⟨t, rfl⟩
    | error e =>
      obtain ⟨reason, -, ⟨k, hk, hm⟩ | ⟨-, u, hu, hm⟩⟩ := fails e h
      · exact (hnone k (List.mem_append_left _ hk) reason hm).elim
      · exact (hnone u (List.mem_append_right _ hu) reason hm).elim
  · obtain ⟨e, he⟩ := document_mute hk hm
    cases v with
    | list _ | tuple _ | dict _ | mapping _ =>
      refine ⟨e, written.trans ?_⟩
      rw [he]
      rfl
    | _ => cases hk

/-- A mapping with an object without a text inside a set and inside a key, where it does no harm. -/
def harmless : Value :=
  .mapping [(.tuple [.opaqueRef (.mute 0 "key")], .list [.set [.opaqueRef (.mute 1 "item")], .int 3])]

/-- A list of an object without a text and of a mapping with another one as a key. -/
def silent : Value :=
  .list [.opaqueRef (.mute 0 "item"), .dict [(.opaqueRef (.mute 1 "key"), .null)]]

theorem resultText_fails_harmless : Short harmless ∧ Short silent ∧ Widens (.str "--") ∧
    (∃ t, harmless.resultText (.str "--") = .ok t) ∧
    ∃ e, silent.resultText (.str "--") = .error e ∧ silent.Fails e := by
  have hshort : Short harmless := by
    intro n hn
    rw [List.mem_singleton.1 (show n ∈ [3] from hn)]
    decide +kernel
  have hsilent : Short silent := fun n hn => by cases hn
  have hindent : Widens (.str "--") := trivial
  have hnone : ∀ u ∈ harmless.partKeys ++ harmless.parts, ∀ reason, ¬ u.Mute reason := by
    intro u hu reason hm
    obtain ⟨serial, rfl⟩ := hm
    simp [harmless, partKeys, parts, partsOfItems, partsOfRows, ownKeys, Table.keys, rows?] at hu
  have hkey : ∃ k ∈ silent.partKeys, ∃ reason, k.Mute reason :=
    ⟨.opaqueRef (.mute 1 "key"), by simp [silent, partKeys, parts, partsOfItems, partsOfRows,
      ownKeys, Table.keys, rows?], "key", 1, rfl⟩
  obtain ⟨e, he⟩ := (resultText_fails hsilent hindent).2.2 hkey
  exact ⟨hshort, hsilent, hindent, (resultText_fails hshort hindent).1 hnone, e, he,
    (resultText_fails hsilent hindent).2.1 e he⟩

example : (harmless.resultText .null).toOption =
    some "\x7b\"(BadObj(),)\": [\"\x7bBadObj()\x7d\", 3]\x7d" := by decide +kernel

example : silent.resultText .null = .error (.unprintable "key") := rfl

end Toolwright.Value
