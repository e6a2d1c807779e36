import Toolwright.Proofs.Document.Result

/-!
# White space of documents

A layout decides the white space outside the texts of a document. Without it, what is written is the
same under every layout, so that an indentation lays a result out and does nothing else.
-/

namespace Toolwright

set_option autoImplicit false

namespace Document

/-- Where a reader of written documents stands. -/
inductive Spot where
  | outside
  /-- Inside a text. -/
  | inside
  /-- Inside a text, right behind a backslash. -/
  | escaped

/-- Written characters without the white space outside texts. -/
def condense : Spot → List Char → List Char
  | _, [] => []
  | .outside, c :: cs =>
    if isSpace c then condense .outside cs
    else c :: condense (if c == '"' then .inside else .outside) cs
  | .inside, c :: cs =>
    c :: condense (if c == '"' then .outside else if c == '\\' then .escaped else .inside) cs
  | .escaped, c :: cs => c :: condense .inside cs

mutual

def denseChars : Document → List Char
  | .array items => '[' :: denseItems items ++ [']']
  | .object members => '\x7b' :: denseMembers members ++ ['\x7d']
  | d => d.chars .compact 0

def denseItems : List Document → List Char
  | [] => []
  | item :: items =>
    denseChars item ++ (if items.isEmpty then [] else ',' :: denseItems items)

def denseMembers : List (String × Document) → List Char
  | [] => []
  | (name, d) :: members =>
    textChars name ++ ':' :: denseChars d ++
      (if members.isEmpty then [] else ',' :: denseMembers members)

end

/-! ## What is kept -/

theorem condense_blank {blank : List Char} (h : ∀ c ∈ blank, isSpace c = true) (rest : List Char) :
    condense .outside (blank ++ rest) = condense .outside rest := by
  induction blank with
  | nil => rfl
  | cons c blank ih =>
    rw [List.cons_append, condense, if_pos (h c List.mem_cons_self),
      ih fun c hc => h c (List.mem_cons_of_mem _ hc)]

def Solid (cs : List Char) : Prop := ∀ c ∈ cs, isSpace c = false ∧ c ≠ '"'

instance (cs : List Char) : Decidable (Solid cs) :=
  decidable_of_iff (cs.all fun c => !isSpace c && c != '"') (by simp [Solid])

theorem Solid.append {cs ds : List Char} (hc : Solid cs) (hd : Solid ds) : Solid (cs ++ ds) := by
  intro c h
  rcases List.mem_append.1 h with h | h
  · exact hc c h
  · exact hd c h

theorem condense_solid {cs : List Char} (h : Solid cs) (rest : List Char) :
    condense .outside (cs ++ rest) = cs ++ condense .outside rest := by
  induction cs with
  | nil => rfl
  | cons c cs ih =>
    obtain ⟨hspace, hquote⟩ := h c List.mem_cons_self
    rw [List.cons_append, condense, hspace, if_neg (by decide), if_neg (by simpa using hquote),
      ih fun c hc => h c (List.mem_cons_of_mem _ hc)]
    rfl

theorem condense_inside {cs : List Char} (h : ∀ c ∈ cs, c ≠ '"' ∧ c ≠ '\\') (rest : List Char) :
    condense .inside (cs ++ rest) = cs ++ condense .inside rest := by
  induction cs with
  | nil => rfl
  | cons c cs ih =>
    obtain ⟨hquote, hslash⟩ := h c List.mem_cons_self
    rw [List.cons_append, condense, if_neg (by simpa using hquote), if_neg (by simpa using hslash),
      ih fun c hc => h c (List.mem_cons_of_mem _ hc)]
    rfl

theorem hexDigit_plain : ∀ n < 16, Text.hexDigit n ≠ '"' ∧ Text.hexDigit n ≠ '\\' := by decide

theorem hexDigits_plain (count n : Nat) :
    ∀ c ∈ Text.hexDigits count n, c ≠ '"' ∧ c ≠ '\\' := by
  induction count generalizing n with
  | zero => exact fun c hc => by cases hc
  | succ count ih =>
    intro c hc
    rcases List.mem_append.1 hc with hc | hc
    · exact ih _ c hc
    · rw [List.mem_singleton.1 hc]
      exact hexDigit_plain _ (Nat.mod_lt _ (by decide))

/-- Behind the backslash of an escape, and the character after it, nothing ends the text. -/
theorem escapeChar_shape (c : Char) :
    (escapeChar c = [c] ∧ c ≠ '"' ∧ c ≠ '\\') ∨
      ∃ d cs, escapeChar c = '\\' :: d :: cs ∧ ∀ c ∈ cs, c ≠ '"' ∧ c ≠ '\\' := by
  unfold escapeChar
  by_cases hquote : (c == '"' || c == '\\') = true
  · rw [if_pos hquote]
    exact .inr ⟨c, [], rfl, fun _ h => by cases h⟩
  rw [if_neg hquote]
  have hplain : c ≠ '"' ∧ c ≠ '\\' := by simpa using hquote
  split_ifs
  · exact .inr ⟨'n', [], rfl, fun _ h => by cases h⟩
  · exact .inr ⟨'r', [], rfl, fun _ h => by cases h⟩
  · exact .inr ⟨'t', [], rfl, fun _ h => by cases h⟩
  · exact .inr ⟨'f', [], rfl, fun _ h => by cases h⟩
  · exact .inr ⟨'b', [], rfl, fun _ h => by cases h⟩
  · exact .inr ⟨'u', _, rfl, hexDigits_plain 4 c.toNat⟩
  · exact .inl ⟨rfl, hplain⟩

theorem condense_escapeChar (c : Char) (rest : List Char) :
    condense .inside (escapeChar c ++ rest) = escapeChar c ++ condense .inside rest := by
  rcases escapeChar_shape c with ⟨h, hplain⟩ | ⟨d, cs, h, hcs⟩
  · rw [h]
    exact condense_inside (fun c hc => by rwa [List.mem_singleton.1 hc]) rest
  · rw [h, List.cons_append, List.cons_append, condense, if_neg (by decide), if_pos (by decide),
      condense, condense_inside hcs]
    rfl

theorem condense_textChars (s : String) (rest : List Char) :
    condense .outside (textChars s ++ rest) = textChars s ++ condense .outside rest := by
  have hchars (cs : List Char) : condense .inside (cs.flatMap escapeChar ++ '"' :: rest) =
      cs.flatMap escapeChar ++ '"' :: condense .outside rest := by
    induction cs with
    | nil => rfl
    | cons c cs ih =>
      rw [List.flatMap_cons, List.append_assoc, condense_escapeChar, ih, List.append_assoc]
  rw [textChars_eq, List.cons_append, List.append_assoc, List.singleton_append, condense,
    if_neg (by decide), if_pos (by decide), hchars, List.cons_append, List.append_assoc,
    List.singleton_append]

/-! ## Numbers -/

theorem solid_of_isDigit {c : Char} (h : c.isDigit = true) : isSpace c = false ∧ c ≠ '"' := by
  refine ⟨isSpace_of_numberHead (.inl h), ?_⟩
  rintro rfl
  exact absurd h (by decide)

theorem Digits.solid {ds : List Char} (h : Digits ds) : Solid ds :=
  fun c hc => solid_of_isDigit (h c hc)

theorem solid_sign (negative : Bool) : Solid (Binary64.sign negative) := by
  cases negative <;> decide

theorem solid_int (n : Int) : Solid (toString n).toList := by
  rw [toList_toString_int]
  exact (solid_sign _).append (digits_toDigits _).solid

theorem solid_power (power : Int) : Solid (powerChars power) := by
  refine Solid.append (Solid.append ?_ (digits_zeros _).solid) (digits_toDigits _).solid
  split
  · exact (by decide : Solid ['e', '-'])
  · exact (by decide : Solid ['e', '+'])

/-- A written number of digits alone, with or without a point and an exponent. -/
structure WrittenInDigits (w : Binary64.Written) : Prop where
  whole : Digits w.whole
  fraction : ∀ ds, w.fraction = some ds → Digits ds

theorem WrittenInDigits.solid {w : Binary64.Written} (h : WrittenInDigits w) :
    Solid (w.whole ++ w.tail 'e') := by
  rw [tail_eq]
  refine h.whole.solid.append (Solid.append ?_ ?_)
  · cases hf : w.fraction with
    | none => exact fun c hc => by cases hc
    | some ds =>
      intro c hc
      rcases List.mem_cons.1 hc with rfl | hc
      · decide
      · exact (h.fraction ds hf).solid c hc
  · cases w.exponent with
    | none => exact fun c hc => by cases hc
    | some power => exact solid_power power

theorem digits_behindPoint {keepsPoint : Bool} {ds es : List Char} (hd : Digits ds)
    (h : Binary64.Written.behindPoint keepsPoint ds = some es) : Digits es := by
  unfold Binary64.Written.behindPoint at h
  split at h
  · cases h
  · cases h
    exact hd

theorem writtenInDigits (d : Binary64.Decimal) : WrittenInDigits (d.written false) := by
  have hdigits : Digits (Nat.toDigits 10 d.digits) := digits_toDigits _
  have htake (n : Nat) : Digits ((Nat.toDigits 10 d.digits).take n) :=
    fun c hc => hdigits c (List.mem_of_mem_take hc)
  have hdrop (n : Nat) : Digits ((Nat.toDigits 10 d.digits).drop n) :=
    fun c hc => hdigits c (List.mem_of_mem_drop hc)
  have withZero {w : Binary64.Written} (h : WrittenInDigits w) : WrittenInDigits w.withZero := by
    unfold Binary64.Written.withZero
    split
    · exact ⟨h.whole, fun ds hds => by cases hds; exact digits_zeros 1⟩
    · exact ⟨h.whole, fun ds hds => by cases hds; exact digits_zeros 1⟩
    · exact h
  unfold Binary64.Decimal.written
  dsimp only
  split
  · refine withZero ?_
    unfold Binary64.Written.positional
    split
    · exact ⟨digits_zeros 1, fun ds hds => by cases hds; exact (digits_zeros _).append hdigits⟩
    · exact ⟨(htake _).append (digits_zeros _), fun ds hds => digits_behindPoint (hdrop _) hds⟩
  · exact ⟨htake _, fun ds hds => digits_behindPoint (hdrop _) hds⟩

theorem solid_float (x : Binary64) : Solid (floatText x).toList := by
  cases x with
  | nan _ => exact (by decide : Solid "NaN".toList)
  | infinity negative =>
    cases negative
    · exact (by decide : Solid "Infinity".toList)
    · exact (by decide : Solid "-Infinity".toList)
  | finite negative m e =>
    cases m with
    | zero =>
      show Solid (String.ofList (Binary64.sign negative ++ ['0', '.', '0'])).toList
      rw [String.toList_ofList]
      exact (solid_sign negative).append (by decide)
    | succ m =>
      show Solid (String.ofList (Binary64.sign negative ++ (Binary64.shortest (m + 1) e).chars)).toList
      rw [String.toList_ofList]
      exact (solid_sign negative).append (writtenInDigits _).solid

/-! ## Documents -/

variable {layout : Layout}

theorem condense_lineBreak (h : Blank layout) (depth : Nat) (rest : List Char) :
    condense .outside (layout.lineBreak depth ++ rest) = condense .outside rest :=
  condense_blank (isSpace_lineBreak h depth) rest

theorem condense_separator (h : Blank layout) (depth : Nat) (rest : List Char) :
    condense .outside (layout.separator depth ++ rest) = ',' :: condense .outside rest := by
  obtain ⟨blank, heq, hblank⟩ := separator_eq h depth
  rw [heq, List.cons_append, condense, if_neg (by decide), if_neg (by decide),
    condense_blank hblank]

theorem condense_cons {c : Char} (hspace : isSpace c = false) (hquote : c ≠ '"') (rest : List Char) :
    condense .outside (c :: rest) = c :: condense .outside rest := by
  rw [condense, hspace, if_neg (by decide), if_neg (by simpa using hquote)]

theorem itemChars_single (depth : Nat) (item : Document) :
    itemChars layout depth [item] = chars layout depth item := List.append_nil _

theorem memberChars_single (depth : Nat) (name : String) (d : Document) :
    memberChars layout depth [(name, d)] = textChars name ++ ':' :: ' ' :: chars layout depth d :=
  List.append_nil _

theorem condense_member {cs ds : List Char} (name : String)
    (h : condense .outside cs = ds) :
    condense .outside (textChars name ++ ':' :: ' ' :: cs) = textChars name ++ ':' :: ds := by
  have hspace : condense .outside (' ' :: cs) = condense .outside cs := by
    rw [condense, if_pos (by decide)]
  rw [condense_textChars, condense_cons (by decide) (by decide), hspace, h]

mutual

/-- What is written for a document is, without white space, the same under every layout. -/
theorem condense_chars (h : Blank layout) (d : Document) (depth : Nat) (rest : List Char) :
    condense .outside (chars layout depth d ++ rest) = denseChars d ++ condense .outside rest := by
  match d with
  | .null =>
    have hsolid : Solid "null".toList := by decide
    exact condense_solid hsolid rest
  | .bool b =>
    have hsolid : Solid (if b then "true" else "false").toList := by cases b <;> decide
    exact condense_solid hsolid rest
  | .int n => exact condense_solid (solid_int n) rest
  | .float x => exact condense_solid (solid_float x) rest
  | .str s => exact condense_textChars s rest
  | .array [] =>
    have hsolid : Solid ['[', ']'] := by decide
    exact condense_solid hsolid rest
  | .object [] =>
    have hsolid : Solid ['\x7b', '\x7d'] := by decide
    exact condense_solid hsolid rest
  | .array (item :: items) =>
    have hitems := condense_itemChars h (item :: items) (depth + 1)
    rw [chars, if_neg (by simp), denseChars]
    simp only [List.cons_append, List.append_assoc, List.nil_append]
    rw [condense_cons (by decide) (by decide), condense_lineBreak h, hitems, condense_lineBreak h,
      condense_cons (by decide) (by decide)]
  | .object (member :: members) =>
    have hmembers := condense_memberChars h (member :: members) (depth + 1)
    rw [chars, if_neg (by simp), denseChars]
    simp only [List.cons_append, List.append_assoc, List.nil_append]
    rw [condense_cons (by decide) (by decide), condense_lineBreak h, hmembers, condense_lineBreak h,
      condense_cons (by decide) (by decide)]

theorem condense_itemChars (h : Blank layout) (items : List Document) (depth : Nat)
    (rest : List Char) : condense .outside (itemChars layout depth items ++ rest) =
      denseItems items ++ condense .outside rest := by
  match items with
  | [] => rfl
  | [item] =>
    have hdense : denseItems [item] = denseChars item := List.append_nil _
    rw [itemChars_single, hdense]
    exact condense_chars h item depth rest
  | item :: next :: items =>
    have hnext := condense_itemChars h (next :: items) depth rest
    rw [itemChars_cons, denseItems, if_neg (by simp), List.append_assoc, List.append_assoc,
      condense_chars h item depth, condense_separator h, hnext, List.append_assoc, List.cons_append]

theorem condense_memberChars (h : Blank layout) (members : List (String × Document)) (depth : Nat)
    (rest : List Char) : condense .outside (memberChars layout depth members ++ rest) =
      denseMembers members ++ condense .outside rest := by
  match members with
  | [] => rfl
  | [(name, d)] =>
    have hdense : denseMembers [(name, d)] = textChars name ++ ':' :: denseChars d :=
      List.append_nil _
    rw [memberChars_single, hdense, List.append_assoc, List.append_assoc]
    exact condense_member name (condense_chars h d depth rest)
  | (name, d) :: next :: members =>
    have hnext := condense_memberChars h (next :: members) depth rest
    rw [memberChars_cons, denseMembers, if_neg (by simp)]
    simp only [List.append_assoc, List.cons_append]
    refine condense_member name ?_
    rw [condense_chars h d depth, condense_separator h, hnext]

end

/-- The text of a document without the white space outside its texts. -/
def bare (s : String) : String := String.ofList (condense .outside s.toList)

theorem bare_text (h : Blank layout) (d : Document) :
    bare (d.text layout) = String.ofList d.denseChars := by
  have hdense := condense_chars h d 0 []
  rw [List.append_nil, condense, List.append_nil] at hdense
  rw [bare, text, String.toList_ofList, hdense]

end Document

namespace Value

def document (v : Value) : Except Fault Document := do
  let settled ← v.settleKeys
  Document.ofValue leafDocument settled

/-- An indentation takes no part in whether a container has a document, nor in which one. -/
theorem documentText_eq {v indent : Value} {layout : Layout}
    (h : Layout.ofIndent indent = .ok layout) :
    v.documentText indent = (Document.text layout) <$> v.document := by
  rw [documentText, document, h]
  cases v.settleKeys with
  | error e => rfl
  | ok settled => rfl

/-- Under two indentations a result fails alike, or has two texts that differ in the white space
outside the texts of a document at most. -/
theorem resultText_indents {v i j : Value} (hi : Indents i) (hj : Indents j) :
    (∃ e, v.resultText i = .error e ∧ v.resultText j = .error e) ∨
      ∃ s t, v.resultText i = .ok s ∧ v.resultText j = .ok t ∧
        (IsContainer v → Document.bare s = Document.bare t) ∧ (¬ IsContainer v → s = t) := by
  obtain ⟨front, hfront, hblank⟩ := ofIndent_blank hi
  obtain ⟨back, hback, hblank'⟩ := ofIndent_blank hj
  have container : (∃ e, v.documentText i = .error e ∧ v.documentText j = .error e) ∨
      ∃ s t, v.documentText i = .ok s ∧ v.documentText j = .ok t ∧
        Document.bare s = Document.bare t := by
    rw [documentText_eq hfront, documentText_eq hback]
    cases v.document with
    | error e => exact .inl ⟨e, rfl, rfl⟩
    | ok d =>
      refine .inr ⟨_, _, rfl, rfl, ?_⟩
      rw [Document.bare_text hblank, Document.bare_text hblank']
  have plain (result : Except Fault String) :
      (∃ e, result = .error e ∧ result = .error e) ∨
        ∃ s t, result = .ok s ∧ result = .ok t ∧ s = t := by
    cases result with
    | error e => exact .inl ⟨e, rfl, rfl⟩
    | ok s => exact .inr ⟨s, s, rfl, rfl, rfl⟩
  cases v with
  | list _ | tuple _ | dict _ | mapping _ =>
    exact container.imp_right fun ⟨s, t, hs, ht, h⟩ =>
      ⟨s, t, hs, ht, fun _ => h, fun hn => (hn trivial).elim⟩
  | str s => exact .inr ⟨s, s, rfl, rfl, fun hc => hc.elim, fun _ => rfl⟩
  | _ =>
    exact (plain _).imp_right fun ⟨s, t, hs, ht, h⟩ => ⟨s, t, hs, ht, fun hc => hc.elim, fun _ => h⟩

/-- A list of a text with white space and a quote in it, and an object that repeats a name. -/
def spaced : Value :=
  .list [.str "a \" b", .dict [(.int 1, .float (.nan 0)), (.str "1", .set [])]]

theorem resultText_indents_spaced : Indents .null ∧ Indents (.int 2) ∧
    ((∃ e, spaced.resultText .null = .error e ∧ spaced.resultText (.int 2) = .error e) ∨
      ∃ s t, spaced.resultText .null = .ok s ∧ spaced.resultText (.int 2) = .ok t ∧
        (IsContainer spaced → Document.bare s = Document.bare t) ∧
        (¬ IsContainer spaced → s = t)) := by
  have hindent : Indents (.int 2) := ⟨by decide, by decide⟩
  exact ⟨trivial, hindent, resultText_indents trivial hindent⟩

example : (spaced.resultText .null).toOption =
    some "[\"a \\\" b\", \x7b\"1\": NaN, \"1\": \"set()\"\x7d]" := by decide +kernel

example : (spaced.resultText (.int 1)).toOption.map Document.bare =
    some "[\"a \\\" b\",\x7b\"1\":NaN,\"1\":\"set()\"\x7d]" := by decide +kernel

end Value

end Toolwright
