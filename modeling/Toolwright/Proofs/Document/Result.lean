import Toolwright.Document.Result
import Toolwright.Proofs.Document.RoundTrip

/-!
# Result texts

The text of a container is read as its tree. The tree is a function of the container alone: it has
the items and members in their order, and the text of what has no place in a document.
-/

namespace Toolwright.Value

set_option autoImplicit false

def Shows (v : Value) : Prop := ∃ s, v.text = .ok s

def shown (v : Value) : String := v.text.toOption.getD ""

theorem text_eq_shown {v : Value} (h : Shows v) : v.text = .ok v.shown := by
  obtain ⟨s, hs⟩ := h
  rw [shown, hs]
  rfl

/-- The name under which a value is a key: JSON has names of its own for some of them. -/
def label : Value → String
  | .str s => s
  | .null => "null"
  | .bool b => if b then "true" else "false"
  | .int n => toString n
  | .float x => Document.floatText x
  | k => k.shown

mutual

/-- The document that stands for a value. -/
def tree : Value → Document
  | .null => .null
  | .bool b => .bool b
  | .int n => .int n
  | .float x => .float x
  | .str s => .str s
  | .list xs => .array (treeItems xs)
  | .tuple xs => .array (treeItems xs)
  | .dict rows => .object (treeRows rows)
  | .mapping rows => .object (treeRows rows)
  | v => .str v.shown

def treeItems : List Value → List Document
  | [] => []
  | x :: xs => tree x :: treeItems xs

def treeRows : List (Value × Value) → List (String × Document)
  | [] => []
  | (k, v) :: rows => (k.label, tree v) :: treeRows rows

end

/-- The rows of a mapping: no key is there twice, nor two keys under one name. -/
structure DistinctKeys (rows : List (Value × Value)) : Prop where
  keys : rows.Pairwise fun a b => same a.1 b.1 = false
  labels : rows.Pairwise fun a b => a.1.label ≠ b.1.label

mutual

/-- The values whose document can be written: numbers are finite and not too long, and every leaf
and key can be shown. -/
def Encodable : Value → Prop
  | .float x => Document.ReadableNumber x
  | .list xs => EncodableItems xs
  | .tuple xs => EncodableItems xs
  | .dict rows => DistinctKeys rows ∧ EncodableRows rows
  | .mapping rows => DistinctKeys rows ∧ EncodableRows rows
  | v => Shows v

def EncodableItems : List Value → Prop
  | [] => True
  | x :: xs => Encodable x ∧ EncodableItems xs

def EncodableRows : List (Value × Value) → Prop
  | [] => True
  | (k, v) :: rows => Shows k ∧ Encodable v ∧ EncodableRows rows

end

/-! ## Keys -/

def settledKey (k : Value) : Value := if k.isMemberKey then k else .str k.shown

theorem memberKey_eq {k : Value} (h : Shows k) : memberKey k = .ok k.settledKey := by
  rw [memberKey, settledKey]
  split
  · rfl
  · rw [text_eq_shown h]
    rfl

theorem settledKey_cases (k : Value) : k.settledKey = k ∨ k.settledKey = .str k.label := by
  cases k <;> first | exact .inl rfl | exact .inr rfl

theorem intText_eq {n : Int} (h : n.natAbs < 10 ^ 4300) : intText n = .ok (toString n) := by
  unfold intText
  exact if_pos h

theorem intText_error {n : Int} (h : ¬ n.natAbs < 10 ^ 4300) :
    intText n = .error .tooManyDigits := by
  unfold intText
  exact if_neg h

theorem shows_int_iff {n : Int} : Shows (.int n) ↔ n.natAbs < 10 ^ 4300 := by
  have htext : (Value.int n).text = intText n := rfl
  refine ⟨fun ⟨s, hs⟩ => ?_, fun h => ⟨toString n, htext.trans (intText_eq h)⟩⟩
  by_contra h
  have := (htext.symm.trans hs).symm.trans (intText_error h)
  cases this

theorem intText_of_shows {n : Int} (h : Shows (.int n)) : intText n = .ok (toString n) :=
  intText_eq (shows_int_iff.1 h)

theorem memberName_settledKey {k : Value} (h : Shows k) :
    Document.memberName k.settledKey = .ok k.label := by
  cases k
  case int n => exact intText_of_shows h
  all_goals rfl

theorem same_str_left {s : String} {k : Value} (h : s ≠ k.label) : same (.str s) k = false := by
  cases k
  case str t =>
    rw [same]
    exact beq_eq_false_iff_ne.2 h
  all_goals simp only [same]

theorem same_str_right {k : Value} {t : String} (h : k.label ≠ t) : same k (.str t) = false := by
  cases k
  case str s =>
    rw [same]
    exact beq_eq_false_iff_ne.2 h
  all_goals simp only [same]

theorem same_settledKey {a b : Value} (hkey : same a b = false) (hlabel : a.label ≠ b.label) :
    same a.settledKey b.settledKey = false := by
  rcases settledKey_cases a with ha | ha
  · rcases settledKey_cases b with hb | hb
    · rw [ha, hb]
      exact hkey
    · rw [ha, hb]
      exact same_str_right hlabel
  · rcases settledKey_cases b with hb | hb
    · rw [ha, hb]
      exact same_str_left hlabel
    · rw [ha, hb, same]
      exact beq_eq_false_iff_ne.2 hlabel

theorem insertBy_new {k v : Value} {rows : List (Value × Value)}
    (h : ∀ row ∈ rows, same row.1 k = false) :
    Table.insertBy same k v rows = rows ++ [(k, v)] := by
  induction rows with
  | nil => rfl
  | cons row rows ih =>
    have hrow := h row List.mem_cons_self
    rw [Table.insertBy, if_neg (by rw [hrow]; decide),
      ih fun r hr => h r (List.mem_cons_of_mem row hr)]
    rfl

theorem collectRows_eq {rows : List (Value × Value)}
    (h : rows.Pairwise fun a b => same a.1 b.1 = false) : collectRows rows = rows := by
  have general : ∀ front back : List (Value × Value),
      (front ++ back).Pairwise (fun a b => same a.1 b.1 = false) →
      back.foldl (fun t row => Table.insertBy same row.1 row.2 t) front = front ++ back := by
    intro front back
    induction back generalizing front with
    | nil => exact fun _ => (List.append_nil front).symm
    | cons row back ih =>
      intro hpair
      have hnew : ∀ r ∈ front, same r.1 row.1 = false := fun r hr =>
        (List.pairwise_append.1 hpair).2.2 r hr row List.mem_cons_self
      rw [List.foldl_cons, insertBy_new hnew, ih (front ++ [row]) (by simpa using hpair),
        List.append_assoc, List.singleton_append]
  exact general [] rows h

theorem DistinctKeys.collectRows_eq {rows ws : List (Value × Value)} (h : DistinctKeys rows)
    (hkeys : ws.map (·.1) = rows.map (·.1.settledKey)) : collectRows ws = ws := by
  have hrows : (rows.map (·.1.settledKey)).Pairwise fun a b => same a b = false := by
    rw [List.pairwise_map]
    exact (h.keys.and h.labels).imp fun hab => same_settledKey hab.1 hab.2
  rw [← hkeys, List.pairwise_map] at hrows
  exact Value.collectRows_eq hrows

/-! ## Settled containers -/

/-- A leaf that is no number, text or container is written as its text. -/
def leafDocument (leaf : Value) : Except Fault Document := .str <$> leaf.text

theorem leafDocument_eq {v : Value} (h : Shows v) : leafDocument v = .ok (.str v.shown) := by
  rw [leafDocument, text_eq_shown h]
  rfl

mutual

theorem settleKeys_tree (v : Value) (h : Encodable v) :
    ∃ w, v.settleKeys = .ok w ∧ Document.ofValue leafDocument w = .ok v.tree := by
  cases v with
  | list xs =>
    obtain ⟨ws, hws, htree⟩ := settleItems_tree xs h
    refine ⟨.list ws, ?_, ?_⟩
    · rw [settleKeys, hws]
      rfl
    · rw [Document.ofValue, htree]
      rfl
  | tuple xs =>
    obtain ⟨ws, hws, htree⟩ := settleItems_tree xs h
    refine ⟨.list ws, ?_, ?_⟩
    · rw [settleKeys, hws]
      rfl
    · rw [Document.ofValue, htree]
      rfl
  | dict rows =>
    obtain ⟨ws, hws, hkeys, htree⟩ := settleRows_tree rows h.2
    refine ⟨.dict ws, ?_, ?_⟩
    · rw [settleKeys, hws]
      exact congrArg (fun ws => Except.ok (Value.dict ws)) (h.1.collectRows_eq hkeys)
    · rw [Document.ofValue, htree]
      rfl
  | mapping rows =>
    obtain ⟨ws, hws, hkeys, htree⟩ := settleRows_tree rows h.2
    refine ⟨.dict ws, ?_, ?_⟩
    · rw [settleKeys, hws]
      exact congrArg (fun ws => Except.ok (Value.dict ws)) (h.1.collectRows_eq hkeys)
    · rw [Document.ofValue, htree]
      rfl
  | int n =>
    refine ⟨.int n, rfl, ?_⟩
    rw [Document.ofValue, intText_of_shows h]
    rfl
  | null => exact ⟨_, rfl, rfl⟩
  | bool b => exact ⟨_, rfl, rfl⟩
  | float x => exact ⟨_, rfl, rfl⟩
  | str s => exact ⟨_, rfl, rfl⟩
  | bytes bs => exact ⟨_, rfl, leafDocument_eq h⟩
  | set xs => exact ⟨_, rfl, leafDocument_eq h⟩
  | frozenset xs => exact ⟨_, rfl, leafDocument_eq h⟩
  | opaqueRef o => exact ⟨_, rfl, leafDocument_eq h⟩
  | record shape fields => exact ⟨_, rfl, leafDocument_eq h⟩

theorem settleItems_tree (xs : List Value) (h : EncodableItems xs) :
    ∃ ws, settleItems xs = .ok ws ∧ Document.ofItems leafDocument ws = .ok (treeItems xs) := by
  match xs with
  | [] => exact ⟨[], rfl, rfl⟩
  | x :: xs =>
    obtain ⟨w, hw, htree⟩ := settleKeys_tree x h.1
    obtain ⟨ws, hws, htrees⟩ := settleItems_tree xs h.2
    refine ⟨w :: ws, ?_, ?_⟩
    · rw [settleItems, hw, hws]
      rfl
    · rw [Document.ofItems, htree, htrees]
      rfl

theorem settleRows_tree (rows : List (Value × Value)) (h : EncodableRows rows) :
    ∃ ws, settleRows rows = .ok ws ∧ ws.map (·.1) = rows.map (·.1.settledKey) ∧
      Document.ofRows leafDocument ws = .ok (treeRows rows) := by
  match rows with
  | [] => exact ⟨[], rfl, rfl, rfl⟩
  | (k, v) :: rows =>
    obtain ⟨w, hw, htree⟩ := settleKeys_tree v h.2.1
    obtain ⟨ws, hws, hkeys, htrees⟩ := settleRows_tree rows h.2.2
    refine ⟨(k.settledKey, w) :: ws, ?_, ?_, ?_⟩
    · rw [settleRows, memberKey_eq h.1, hw, hws]
      rfl
    · rw [List.map_cons, List.map_cons, hkeys]
    · rw [Document.ofRows, memberName_settledKey h.1, htree, htrees]
      rfl

end

/-! ## Trees -/

mutual

theorem readable_tree (v : Value) (h : Encodable v) : v.tree.Readable := by
  cases v with
  | float x => exact h
  | list xs => exact readable_treeItems xs h
  | tuple xs => exact readable_treeItems xs h
  | dict rows => exact readable_treeRows rows h.2
  | mapping rows => exact readable_treeRows rows h.2
  | _ => trivial

theorem readable_treeItems (xs : List Value) (h : EncodableItems xs) :
    Document.ReadableItems (treeItems xs) := by
  match xs with
  | [] => trivial
  | x :: xs => exact ⟨readable_tree x h.1, readable_treeItems xs h.2⟩

theorem readable_treeRows (rows : List (Value × Value)) (h : EncodableRows rows) :
    Document.ReadableMembers (treeRows rows) := by
  match rows with
  | [] => trivial
  | (k, v) :: rows => exact ⟨readable_tree v h.2.1, readable_treeRows rows h.2.2⟩

end

/-! ## Result texts -/

/-- What a document may be indented by: nothing, so many spaces as can be made, or white space. -/
def Indents : Value → Prop
  | .null | .bool _ => True
  | .int n => -(2 ^ 63) ≤ n ∧ n ≤ 2 ^ 28
  | .str s => ∀ c ∈ s.toList, Document.isSpace c = true
  | _ => False

theorem repeated_space {n : Int} (h : -(2 ^ 63) ≤ n ∧ n ≤ 2 ^ 28) :
    Word.repeated none [' '] n = .ok (List.replicate n.toNat ' ') := by
  have hcount : Word.count n = .ok n.toNat := by
    rw [Word.count, Word.holds, if_pos]
    rw [Bool.and_eq_true, decide_eq_true_eq, decide_eq_true_eq]
    exact ⟨h.1, by have : (Word.size.bits : Nat) = 63 := rfl; rw [this]; omega⟩
  have hroom : Word.fitRoom (n.toNat * [' '].length) = .ok (n.toNat * [' '].length) := by
    rw [Word.fitRoom, if_pos]
    rw [Word.room, List.length_singleton]
    omega
  have hflat : (List.replicate n.toNat [' ']).flatten = List.replicate n.toNat ' ' := by
    rw [List.flatten_replicate_singleton]
  rw [Word.repeated, hcount]
  show (do
    let _ ← Word.fitRoom (n.toNat * [' '].length)
    return (List.replicate n.toNat [' ']).flatten) = _
  rw [hroom, hflat]
  rfl

theorem ofIndent_blank {indent : Value} (h : Indents indent) :
    ∃ layout, Layout.ofIndent indent = .ok layout ∧ Document.Blank layout := by
  cases indent with
  | null => exact ⟨.compact, rfl, trivial⟩
  | bool b =>
    refine ⟨_, rfl, ?_⟩
    intro c hc
    cases b with
    | false => cases hc
    | true =>
      rw [List.mem_singleton.1 hc]
      decide
  | int n =>
    refine ⟨.indented (List.replicate n.toNat ' '), ?_, ?_⟩
    · rw [Layout.ofIndent, repeated_space h]
      rfl
    · intro c hc
      rw [(List.mem_replicate.1 hc).2]
      decide
  | str s => exact ⟨.indented s.toList, rfl, h⟩
  | _ => exact h.elim

/-- The lists, tuples, dictionaries and mappings. -/
def IsContainer : Value → Prop
  | .list _ | .tuple _ | .dict _ | .mapping _ => True
  | _ => False

/-- The text of a container is valid under every indentation, and is read as its tree. -/
theorem resultText_reads {v indent : Value} (hc : IsContainer v) (hv : Encodable v)
    (hi : Indents indent) :
    ∃ t, v.resultText indent = .ok t ∧ Document.read? t = some v.tree := by
  obtain ⟨layout, hlayout, hblank⟩ := ofIndent_blank hi
  obtain ⟨w, hw, htree⟩ := settleKeys_tree v hv
  have hdoc : v.documentText indent = .ok (v.tree.text layout) := by
    rw [documentText, hw, hlayout]
    show (do
      let d ← Document.ofValue leafDocument w
      return d.text layout) = _
    rw [htree]
    rfl
  refine ⟨v.tree.text layout, ?_, Document.read?_text hblank v.tree (readable_tree v hv)⟩
  cases v with
  | list _ | tuple _ | dict _ | mapping _ => exact hdoc
  | _ => exact hc.elim

/-- A dictionary with keys of several kinds, an escape, a binary number and leaves of their own. -/
def assorted : Value :=
  .dict [(.str "a\"\n", .list [.int (-3), .float (.finite true 6755399441055744 (-52)), .null]),
    (.int 12, .tuple []), (.null, .bytes [0, 255]), (.float (.nan 0), .set [.str "x"]),
    (.opaqueRef (.token 0 "k"), .mapping [(.bool true, .opaqueRef (.token 1 "é"))])]

theorem resultText_reads_assorted : IsContainer assorted ∧ Encodable assorted ∧
    Indents (.int 2) ∧
    ∃ t, assorted.resultText (.int 2) = .ok t ∧ Document.read? t = some assorted.tree := by
  have hfloat : Document.ReadableNumber (.finite true 6755399441055744 (-52)) :=
    .inr ⟨by decide, by decide, by decide, by decide, .inl (by decide)⟩
  have hint : Shows (.int (-3)) := shows_int_iff.2 (by decide +kernel)
  have hkey : Shows (.int 12) := shows_int_iff.2 (by decide +kernel)
  have hencodable : Encodable assorted := by
    refine ⟨⟨by simp [same, Binary64.toInt?], by decide +kernel⟩, ⟨_, rfl⟩,
      ⟨hint, hfloat, ⟨_, rfl⟩, trivial⟩, hkey, trivial, ⟨_, rfl⟩, ⟨_, rfl⟩, ⟨_, rfl⟩, ⟨_, rfl⟩,
      ⟨_, rfl⟩, ⟨?_, ⟨_, rfl⟩, ⟨_, rfl⟩, trivial⟩, trivial⟩
    exact ⟨List.pairwise_singleton _ _, List.pairwise_singleton _ _⟩
  have hindent : Indents (.int 2) := ⟨by decide, by decide⟩
  exact ⟨trivial, hencodable, hindent, resultText_reads trivial hencodable hindent⟩

end Toolwright.Value
