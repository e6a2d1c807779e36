import Toolwright.Proofs.Document.Numbers

/-!
# Reading documents back

What is written under a layout of white space is read as the document that was written. The
induction follows the document; behind each part stands a text in front of which a number ends.
-/

namespace Toolwright.Document

set_option autoImplicit false

/-! ## White space -/

/-- A text that does not start with white space. -/
def Starts (cs : List Char) : Prop := ∃ c ds, cs = c :: ds ∧ isSpace c = false

theorem skipSpace_blank {blank : List Char} (h : ∀ c ∈ blank, isSpace c = true) (cs : List Char) :
    skipSpace (blank ++ cs) = skipSpace cs :=
  List.dropWhile_append_of_pos h

theorem skipSpace_cons {c : Char} (h : isSpace c = false) (cs : List Char) :
    skipSpace (c :: cs) = c :: cs :=
  List.dropWhile_cons_of_neg (by rw [h]; decide)

theorem Starts.skipSpace {cs : List Char} (h : Starts cs) : skipSpace cs = cs := by
  obtain ⟨c, ds, rfl, hc⟩ := h
  exact skipSpace_cons hc ds

/-- A layout that adds nothing but white space. -/
def Blank : Layout → Prop
  | .compact => True
  | .indented unit => ∀ c ∈ unit, isSpace c = true

theorem isSpace_lineBreak {layout : Layout} (h : Blank layout) (depth : Nat) :
    ∀ c ∈ layout.lineBreak depth, isSpace c = true := by
  cases layout with
  | compact => exact fun c hc => by cases hc
  | indented unit =>
    intro c hc
    rcases List.mem_cons.1 hc with rfl | hc
    · decide
    · rw [List.mem_flatten] at hc
      obtain ⟨unit', hunit, hc⟩ := hc
      rw [List.mem_replicate] at hunit
      rw [hunit.2] at hc
      exact h c hc

/-- Behind the comma of a separator stands white space. -/
theorem separator_eq {layout : Layout} (h : Blank layout) (depth : Nat) :
    ∃ blank, layout.separator depth = ',' :: blank ∧ ∀ c ∈ blank, isSpace c = true := by
  cases layout with
  | compact =>
    refine ⟨[' '], rfl, fun c hc => ?_⟩
    rw [List.mem_singleton.1 hc]
    decide
  | indented unit => exact ⟨_, rfl, isSpace_lineBreak h depth⟩

theorem endsNumber_of_isSpace {c : Char} (h : isSpace c = true) : endsNumber c = true := by
  simp only [isSpace, Bool.or_eq_true, beq_iff_eq] at h
  rcases h with ((rfl | rfl) | rfl) | rfl <;> decide

/-- White space and what ends a number behind it end a number. -/
theorem stops_blank {blank : List Char} (h : ∀ c ∈ blank, isSpace c = true) {c : Char}
    (hc : endsNumber c = true) (rest : List Char) : Stops (blank ++ c :: rest) := by
  cases blank with
  | nil =>
    intro d hd
    obtain rfl := Option.some.inj hd
    exact hc
  | cons b blank =>
    intro d hd
    obtain rfl := Option.some.inj hd
    exact endsNumber_of_isSpace (h b List.mem_cons_self)

theorem stops_comma (rest : List Char) : Stops (',' :: rest) := by
  intro c hc
  obtain rfl := Option.some.inj hc
  decide

/-! ## Texts -/

theorem hexValue?_hexDigit : ∀ n < 16, Text.hexValue? (Text.hexDigit n) = some n := by decide

/-- Four hexadecimal digits are read as the number that they write. -/
theorem readUnit?_hexDigits {n : Nat} (hn : n < 2 ^ 16) (rest : List Char) :
    readUnit? (Text.hexDigits 4 n ++ rest) = some (n, rest) := by
  have hd (k : Nat) : Text.hexValue? (Text.hexDigit (k % 16)) = some (k % 16) :=
    hexValue?_hexDigit _ (Nat.mod_lt _ (by decide))
  simp only [Text.hexDigits, List.nil_append, List.cons_append, readUnit?, hd,
    Option.bind_eq_bind, Option.bind_some]
  have : ((n / 16 / 16 / 16 % 16 * 16 + n / 16 / 16 % 16) * 16 + n / 16 % 16) * 16 + n % 16 = n := by
    omega
  rw [this]
  rfl

theorem readEscape?_hexDigits {c : Char} (hc : c.toNat < 0x20) (rest : List Char) :
    readEscape? ('u' :: Text.hexDigits 4 c.toNat ++ rest) = some (c, rest) := by
  rw [List.cons_append, readEscape?, readCode?, readUnit?_hexDigits (by omega)]
  simp only [Option.bind_eq_bind, Option.bind_some]
  rw [if_pos (by simp; omega), Char.ofNat_toNat]
  rfl

/-- A character is written as itself, or as a backslash and what is read as the character. -/
theorem escapeChar_cases (c : Char) :
    (escapeChar c = [c] ∧ c ≠ '"' ∧ c ≠ '\\' ∧ 0x20 ≤ c.toNat) ∨
      ∃ cs, escapeChar c = '\\' :: cs ∧ ∀ rest, readEscape? (cs ++ rest) = some (c, rest) := by
  unfold escapeChar
  by_cases hquote : c = '"' ∨ c = '\\'
  · rw [if_pos (by simpa using hquote)]
    refine .inr ⟨[c], rfl, fun rest => ?_⟩
    rcases hquote with rfl | rfl
    · rfl
    · rfl
  rw [if_neg (by simpa using hquote)]
  by_cases hn : c = '\n'
  · subst hn
    exact .inr ⟨['n'], rfl, fun rest => rfl⟩
  rw [if_neg (by simpa using hn)]
  by_cases hr : c = '\r'
  · subst hr
    exact .inr ⟨['r'], rfl, fun rest => rfl⟩
  rw [if_neg (by simpa using hr)]
  by_cases ht : c = '\t'
  · subst ht
    exact .inr ⟨['t'], rfl, fun rest => rfl⟩
  rw [if_neg (by simpa using ht)]
  by_cases hf : c.toNat = 0xC
  · rw [if_pos (by simpa using hf)]
    refine .inr ⟨['f'], rfl, fun rest => ?_⟩
    rw [← Char.ofNat_toNat c, hf]
    rfl
  rw [if_neg (by simpa using hf)]
  by_cases hb : c.toNat = 0x8
  · rw [if_pos (by simpa using hb)]
    refine .inr ⟨['b'], rfl, fun rest => ?_⟩
    rw [← Char.ofNat_toNat c, hb]
    rfl
  rw [if_neg (by simpa using hb)]
  by_cases hcontrol : c.toNat < 0x20
  · rw [if_pos hcontrol]
    exact .inr ⟨_, rfl, readEscape?_hexDigits hcontrol⟩
  · rw [if_neg hcontrol]
    rw [not_or] at hquote
    exact .inl ⟨rfl, hquote.1, hquote.2, by omega⟩

theorem readText?_escapeChar (fuel : Nat) (c : Char) (rest : List Char) :
    readText? (fuel + 1) (escapeChar c ++ rest) =
      (readText? fuel rest).map fun (text, cs) => (c :: text, cs) := by
  rcases escapeChar_cases c with ⟨h, hquote, hslash, hcontrol⟩ | ⟨cs, h, hread⟩
  · rw [h, List.singleton_append, readText?, if_neg (by simpa using hquote),
      if_neg (by simpa using hslash), if_neg (by omega)]
    cases readText? fuel rest with
    | none => rfl
    | some r => rfl
  · rw [h, List.cons_append, readText?, if_neg (by decide), if_pos (by decide), hread]
    simp only [Option.bind_eq_bind, Option.bind_some]
    cases readText? fuel rest with
    | none => rfl
    | some r => rfl

/-- Escaped characters and a closing quote are read as the characters. -/
theorem readText?_flatMap (cs rest : List Char) {fuel : Nat} (hfuel : cs.length < fuel) :
    readText? fuel (cs.flatMap escapeChar ++ '"' :: rest) = some (cs, rest) := by
  induction cs generalizing fuel with
  | nil =>
    obtain ⟨fuel, rfl⟩ := Nat.exists_eq_succ_of_ne_zero hfuel.ne'
    rfl
  | cons c cs ih =>
    obtain ⟨fuel, rfl⟩ := Nat.exists_eq_succ_of_ne_zero (Nat.ne_zero_of_lt hfuel)
    rw [List.length_cons, Nat.succ_lt_succ_iff] at hfuel
    rw [List.flatMap_cons, List.append_assoc, readText?_escapeChar, ih hfuel]
    rfl

theorem escapeChar_ne_nil (c : Char) : escapeChar c ≠ [] := by
  rcases escapeChar_cases c with ⟨h, _⟩ | ⟨cs, h, _⟩
  · rw [h]
    exact List.cons_ne_nil _ _
  · rw [h]
    exact List.cons_ne_nil _ _

theorem length_le_flatMap_escapeChar (cs : List Char) :
    cs.length ≤ (cs.flatMap escapeChar).length := by
  induction cs with
  | nil => exact Nat.le_refl 0
  | cons c cs ih =>
    rw [List.flatMap_cons, List.length_append, List.length_cons]
    have := List.length_pos_of_ne_nil (escapeChar_ne_nil c)
    omega

theorem textChars_eq (s : String) :
    textChars s = '"' :: (s.toList.flatMap escapeChar ++ ['"']) := rfl

theorem readText?_textChars (s : String) (rest : List Char) (fuel : Nat)
    (hfuel : (textChars s).length ≤ fuel + 1) :
    ∃ cs, textChars s ++ rest = '"' :: cs ∧ readText? fuel cs = some (s.toList, rest) := by
  refine ⟨s.toList.flatMap escapeChar ++ '"' :: rest, ?_, ?_⟩
  · rw [textChars_eq, List.cons_append, List.append_assoc, List.singleton_append]
  refine readText?_flatMap s.toList rest ?_
  have := length_le_flatMap_escapeChar s.toList
  rw [textChars_eq, List.length_cons, List.length_append, List.length_singleton] at hfuel
  omega

/-! ## Documents -/

/-- The documents that can be written: their numbers are finite. -/
def ReadableNumber : Binary64 → Prop
  | .finite negative m e => Binary64.WellFormed (.finite negative m e)
  | _ => False

mutual

def Readable : Document → Prop
  | .float x => ReadableNumber x
  | .array items => ReadableItems items
  | .object members => ReadableMembers members
  | _ => True

def ReadableItems : List Document → Prop
  | [] => True
  | item :: items => Readable item ∧ ReadableItems items

def ReadableMembers : List (String × Document) → Prop
  | [] => True
  | (_, d) :: members => Readable d ∧ ReadableMembers members

end

theorem readValue?_blank {blank : List Char} (h : ∀ c ∈ blank, isSpace c = true) (fuel : Nat)
    (cs : List Char) : readValue? fuel (blank ++ cs) = readValue? fuel cs := by
  cases fuel with
  | zero => rw [readValue?, readValue?]
  | succ fuel => rw [readValue?, readValue?, skipSpace_blank h]

theorem readValue?_space (fuel : Nat) (cs : List Char) :
    readValue? fuel (' ' :: cs) = readValue? fuel cs := by
  have hspace : ∀ c ∈ [' '], isSpace c = true := by
    intro c hc
    rw [List.mem_singleton.1 hc]
    decide
  exact readValue?_blank hspace fuel cs

theorem readItems?_blank {blank : List Char} (h : ∀ c ∈ blank, isSpace c = true) (fuel : Nat)
    (cs : List Char) : readItems? fuel (blank ++ cs) = readItems? fuel cs := by
  cases fuel with
  | zero => rw [readItems?, readItems?]
  | succ fuel => rw [readItems?, readItems?, readValue?_blank h]

theorem readMembers?_blank {blank : List Char} (h : ∀ c ∈ blank, isSpace c = true) (fuel : Nat)
    (cs : List Char) : readMembers? fuel (blank ++ cs) = readMembers? fuel cs := by
  cases fuel with
  | zero => rw [readMembers?, readMembers?]
  | succ fuel => rw [readMembers?, readMembers?, skipSpace_blank h]

theorem isSpace_of_numberHead {c : Char} (h : c.isDigit = true ∨ c = '-') : isSpace c = false := by
  rw [Bool.eq_false_iff]
  intro hc
  simp only [isSpace, Bool.or_eq_true, beq_iff_eq] at hc
  rcases hc with ((rfl | rfl) | rfl) | rfl <;> exact absurd h (by decide)

theorem readValue?_number (fuel : Nat) {c : Char} {cs : List Char}
    (hc : c.isDigit = true ∨ c = '-') : readValue? (fuel + 1) (c :: cs) = readNumber? (c :: cs) := by
  rw [readValue?, skipSpace_cons (isSpace_of_numberHead hc)]
  split
  all_goals first
    | rfl
    | (rename_i e
       obtain ⟨rfl, _⟩ := List.cons.inj e
       exact absurd hc (by decide))

theorem readValue?_text (fuel : Nat) (cs : List Char) :
    readValue? (fuel + 1) ('"' :: cs) =
      (readText? fuel cs).map fun (text, cs) => (.str (String.ofList text), cs) := by
  rw [readValue?, skipSpace_cons (by decide)]
  rfl

theorem readValue?_emptyArray (fuel : Nat) (rest : List Char) :
    readValue? (fuel + 1) ('[' :: ']' :: rest) = some (.array [], rest) := by
  rw [readValue?, skipSpace_cons (by decide)]
  rfl

theorem readValue?_emptyObject (fuel : Nat) (rest : List Char) :
    readValue? (fuel + 1) ('\x7b' :: '\x7d' :: rest) = some (.object [], rest) := by
  rw [readValue?, skipSpace_cons (by decide)]
  rfl

theorem readValue?_array (fuel : Nat) {blank cs : List Char}
    (hblank : ∀ c ∈ blank, isSpace c = true) (hcs : Starts cs) (hend : cs.head? ≠ some ']') :
    readValue? (fuel + 1) ('[' :: (blank ++ cs)) =
      (readItems? fuel cs).map fun (items, cs) => (.array items, cs) := by
  have hskip : skipSpace (blank ++ cs) = cs := (skipSpace_blank hblank cs).trans hcs.skipSpace
  rw [readValue?, skipSpace_cons (by decide)]
  simp only [hskip]
  split
  · exact absurd rfl hend
  · rfl

theorem readValue?_object (fuel : Nat) {blank cs : List Char}
    (hblank : ∀ c ∈ blank, isSpace c = true) (hcs : Starts cs) (hend : cs.head? ≠ some '\x7d') :
    readValue? (fuel + 1) ('\x7b' :: (blank ++ cs)) =
      (readMembers? fuel cs).map fun (members, cs) => (.object members, cs) := by
  have hskip : skipSpace (blank ++ cs) = cs := (skipSpace_blank hblank cs).trans hcs.skipSpace
  rw [readValue?, skipSpace_cons (by decide)]
  simp only [hskip]
  split
  · exact absurd rfl hend
  · rfl

/-- Documents start with neither white space nor the end of an array. -/
def Opens (cs : List Char) : Prop := ∃ c ds, cs = c :: ds ∧ isSpace c = false ∧ c ≠ ']'

theorem Opens.starts {cs : List Char} (h : Opens cs) : Starts cs := by
  obtain ⟨c, ds, hcs, hc, _⟩ := h
  exact ⟨c, ds, hcs, hc⟩

theorem Opens.append {cs : List Char} (h : Opens cs) (rest : List Char) : Opens (cs ++ rest) := by
  obtain ⟨c, ds, rfl, hc⟩ := h
  exact ⟨c, ds ++ rest, rfl, hc⟩

theorem Opens.head?_ne {cs : List Char} (h : Opens cs) : cs.head? ≠ some ']' := by
  obtain ⟨c, ds, rfl, _, hc⟩ := h
  exact fun e => hc (Option.some.inj e)

theorem IsNumber.opens {cs : List Char} {d : Document} (h : IsNumber cs d) : Opens cs := by
  obtain ⟨c, ds, hcs, hc⟩ := h.head
  refine ⟨c, ds, hcs, isSpace_of_numberHead hc, ?_⟩
  rintro rfl
  exact absurd hc (by decide)

theorem ReadableNumber.isNumber {x : Binary64} (h : ReadableNumber x) :
    IsNumber (floatText x).toList (.float x) := by
  cases x with
  | finite negative m e => exact isNumber_float h
  | nan _ => exact h.elim
  | infinity _ => exact h.elim

theorem opens_chars (layout : Layout) (depth : Nat) {d : Document} (hd : Readable d) :
    Opens (chars layout depth d) := by
  cases d with
  | null => exact ⟨_, _, rfl, by decide, by decide⟩
  | bool b => cases b <;> exact ⟨_, _, rfl, by decide, by decide⟩
  | int n => exact (isNumber_int n).opens
  | float x => exact (ReadableNumber.isNumber hd).opens
  | str s => exact ⟨_, _, rfl, by decide, by decide⟩
  | array items =>
    cases items with
    | nil => exact ⟨_, _, rfl, by decide, by decide⟩
    | cons item items => exact ⟨_, _, rfl, by decide, by decide⟩
  | object members =>
    cases members with
    | nil => exact ⟨_, _, rfl, by decide, by decide⟩
    | cons member members => exact ⟨_, _, rfl, by decide, by decide⟩

theorem length_chars_pos (layout : Layout) (depth : Nat) {d : Document} (hd : Readable d) :
    0 < (chars layout depth d).length := by
  obtain ⟨c, ds, h, _⟩ := opens_chars layout depth hd
  rw [h]
  exact Nat.succ_pos _

theorem itemChars_cons (layout : Layout) (depth : Nat) (item next : Document)
    (items : List Document) :
    itemChars layout depth (item :: next :: items) =
      chars layout depth item ++ (layout.separator depth ++ itemChars layout depth (next :: items)) := by
  rw [itemChars, if_neg (by simp)]

theorem memberChars_cons (layout : Layout) (depth : Nat) (member next : String × Document)
    (members : List (String × Document)) :
    memberChars layout depth (member :: next :: members) =
      textChars member.1 ++ ':' :: ' ' :: chars layout depth member.2 ++
        (layout.separator depth ++ memberChars layout depth (next :: members)) := by
  rw [memberChars, if_neg (by simp)]

/-- The last item is followed by the end of its array. -/
theorem readItems?_last {fuel : Nat} {cs blank rest : List Char} {item : Document}
    (hblank : ∀ c ∈ blank, isSpace c = true)
    (hread : readValue? fuel cs = some (item, blank ++ ']' :: rest)) :
    readItems? (fuel + 1) cs = some ([item], rest) := by
  rw [readItems?, hread]
  simp only [Option.bind_eq_bind, Option.bind_some, skipSpace_blank hblank,
    skipSpace_cons (show isSpace ']' = false by decide)]
  rfl

theorem readItems?_next {fuel : Nat} {cs back rest : List Char} {item : Document}
    {items : List Document} (hread : readValue? fuel cs = some (item, ',' :: back))
    (hrest : readItems? fuel back = some (items, rest)) :
    readItems? (fuel + 1) cs = some (item :: items, rest) := by
  rw [readItems?, hread]
  simp only [Option.bind_eq_bind, Option.bind_some, hrest,
    skipSpace_cons (show isSpace ',' = false by decide)]
  rfl

theorem readMembers?_last {fuel : Nat} {cs ds blank rest : List Char} {name : String} {d : Document}
    (hblank : ∀ c ∈ blank, isSpace c = true)
    (hname : readText? fuel cs = some (name.toList, ':' :: ' ' :: ds))
    (hread : readValue? fuel ds = some (d, blank ++ '\x7d' :: rest)) :
    readMembers? (fuel + 1) ('"' :: cs) = some ([(name, d)], rest) := by
  have hspace : readValue? fuel (' ' :: ds) = some (d, blank ++ '\x7d' :: rest) :=
    (readValue?_space fuel ds).trans hread
  rw [readMembers?, skipSpace_cons (by decide)]
  simp only [hname, hspace, Option.bind_eq_bind, Option.bind_some, skipSpace_blank hblank,
    skipSpace_cons (show isSpace ':' = false by decide),
    skipSpace_cons (show isSpace '\x7d' = false by decide), String.ofList_toList]
  rfl

theorem readMembers?_next {fuel : Nat} {cs ds back rest : List Char} {name : String} {d : Document}
    {members : List (String × Document)}
    (hname : readText? fuel cs = some (name.toList, ':' :: ' ' :: ds))
    (hread : readValue? fuel ds = some (d, ',' :: back))
    (hrest : readMembers? fuel back = some (members, rest)) :
    readMembers? (fuel + 1) ('"' :: cs) = some ((name, d) :: members, rest) := by
  have hspace : readValue? fuel (' ' :: ds) = some (d, ',' :: back) :=
    (readValue?_space fuel ds).trans hread
  rw [readMembers?, skipSpace_cons (by decide)]
  simp only [hname, hspace, hrest, Option.bind_eq_bind, Option.bind_some,
    skipSpace_cons (show isSpace ':' = false by decide),
    skipSpace_cons (show isSpace ',' = false by decide), String.ofList_toList]
  rfl

section
variable {layout : Layout} (hl : Blank layout)
include hl

mutual

/-- What is written for a document is read as the document. -/
theorem readValue?_chars (d : Document) (hd : Readable d) (depth : Nat) (fuel : Nat)
    {rest : List Char} (hrest : Stops rest) (hfuel : (chars layout depth d).length ≤ fuel) :
    readValue? fuel (chars layout depth d ++ rest) = some (d, rest) := by
  obtain ⟨fuel, rfl⟩ := Nat.exists_eq_succ_of_ne_zero
    (Nat.ne_zero_of_lt (Nat.lt_of_lt_of_le (length_chars_pos layout depth hd) hfuel))
  cases d with
  | null => rfl
  | bool b => cases b <;> rfl
  | int n =>
    obtain ⟨c, cs, hcs, hc⟩ := (isNumber_int n).head
    have hread := (isNumber_int n).read hrest
    rw [chars, hcs] at *
    rw [List.cons_append, readValue?_number fuel hc]
    exact hread
  | float x =>
    obtain ⟨c, cs, hcs, hc⟩ := (ReadableNumber.isNumber hd).head
    have hread := (ReadableNumber.isNumber hd).read hrest
    rw [chars, hcs] at *
    rw [List.cons_append, readValue?_number fuel hc]
    exact hread
  | str s =>
    obtain ⟨cs, hcs, hread⟩ := readText?_textChars s rest fuel hfuel
    rw [chars, hcs, readValue?_text, hread, Option.map_some]
    simp only [String.ofList_toList]
  | array items =>
    cases items with
    | nil => exact readValue?_emptyArray fuel rest
    | cons item items =>
      have hbreak := isSpace_lineBreak hl (depth + 1)
      have hopens : Opens (itemChars layout (depth + 1) (item :: items)) := by
        rw [itemChars]
        exact (opens_chars layout (depth + 1) hd.1).append _
      have hlength : (itemChars layout (depth + 1) (item :: items)).length + 1 ≤ fuel := by
        rw [chars, if_neg (by simp)] at hfuel
        simp only [List.length_append, List.length_cons, List.length_nil] at hfuel
        omega
      rw [chars, if_neg (by simp)]
      simp only [List.cons_append, List.append_assoc, List.nil_append]
      rw [readValue?_array fuel hbreak (hopens.append _).starts (hopens.append _).head?_ne,
        readItems?_chars (item :: items) hd (List.cons_ne_nil _ _) (depth + 1) fuel
          (isSpace_lineBreak hl depth) rest hlength]
      rfl
  | object members =>
    cases members with
    | nil => exact readValue?_emptyObject fuel rest
    | cons member members =>
      have hbreak := isSpace_lineBreak hl (depth + 1)
      have hopens : ∃ cs, memberChars layout (depth + 1) (member :: members) = '"' :: cs := by
        rw [memberChars, textChars_eq]
        exact ⟨_, rfl⟩
      have hlength : (memberChars layout (depth + 1) (member :: members)).length + 1 ≤ fuel := by
        rw [chars, if_neg (by simp)] at hfuel
        simp only [List.length_append, List.length_cons, List.length_nil] at hfuel
        omega
      have hread := readMembers?_chars (member :: members) hd (List.cons_ne_nil _ _) (depth + 1) fuel
          (isSpace_lineBreak hl depth) rest hlength
      obtain ⟨cs, hcs⟩ := hopens
      rw [chars, if_neg (by simp)]
      simp only [List.cons_append, List.append_assoc, List.nil_append]
      rw [readValue?_object fuel hbreak, hread]
      · rfl
      · exact ⟨'"', _, by rw [hcs]; rfl, by decide⟩
      · rw [hcs, List.cons_append, List.head?_cons]
        decide

theorem readItems?_chars (items : List Document) (hitems : ReadableItems items) (hne : items ≠ [])
    (depth : Nat) (fuel : Nat) {blank : List Char} (hblank : ∀ c ∈ blank, isSpace c = true)
    (rest : List Char) (hfuel : (itemChars layout depth items).length + 1 ≤ fuel) :
    readItems? fuel (itemChars layout depth items ++ (blank ++ ']' :: rest)) =
      some (items, rest) := by
  obtain ⟨fuel, rfl⟩ := Nat.exists_eq_succ_of_ne_zero (Nat.ne_zero_of_lt hfuel)
  match items with
  | [] => exact absurd rfl hne
  | [item] =>
    have hread := readValue?_chars item hitems.1 depth fuel
      (stops_blank hblank (c := ']') (by decide) rest) (by
        rw [itemChars, List.length_append] at hfuel
        omega)
    rw [itemChars, List.isEmpty_nil, if_pos rfl, List.append_nil]
    exact readItems?_last hblank hread
  | item :: next :: items =>
    obtain ⟨space, hsep, hspace⟩ := separator_eq hl depth
    rw [itemChars_cons, hsep] at hfuel ⊢
    simp only [List.length_append, List.length_cons] at hfuel
    have hread := readValue?_chars item hitems.1 depth fuel
      (stops_comma (space ++ (itemChars layout depth (next :: items) ++ (blank ++ ']' :: rest))))
      (by omega)
    have hrest := readItems?_chars (next :: items) hitems.2 (List.cons_ne_nil _ _) depth fuel hblank
      rest (by have := length_chars_pos layout depth hitems.1; omega)
    simp only [List.append_assoc, List.cons_append]
    exact readItems?_next hread ((readItems?_blank hspace fuel _).trans hrest)

theorem readMembers?_chars (members : List (String × Document)) (hmembers : ReadableMembers members)
    (hne : members ≠ []) (depth : Nat) (fuel : Nat) {blank : List Char}
    (hblank : ∀ c ∈ blank, isSpace c = true) (rest : List Char)
    (hfuel : (memberChars layout depth members).length + 1 ≤ fuel) :
    readMembers? fuel (memberChars layout depth members ++ (blank ++ '\x7d' :: rest)) =
      some (members, rest) := by
  obtain ⟨fuel, rfl⟩ := Nat.exists_eq_succ_of_ne_zero (Nat.ne_zero_of_lt hfuel)
  match members with
  | [] => exact absurd rfl hne
  | [(name, d)] =>
    rw [memberChars, List.isEmpty_nil, if_pos rfl, List.append_nil] at hfuel ⊢
    simp only [List.length_append, List.length_cons] at hfuel
    have hread := readValue?_chars d hmembers.1 depth fuel
      (stops_blank hblank (c := '\x7d') (by decide) rest) (by omega)
    obtain ⟨cs, hcs, hname⟩ := readText?_textChars name
      (':' :: ' ' :: (chars layout depth d ++ (blank ++ '\x7d' :: rest))) fuel (by omega)
    simp only [List.append_assoc, List.cons_append]
    rw [hcs]
    exact readMembers?_last hblank hname hread
  | (name, d) :: next :: members =>
    obtain ⟨space, hsep, hspace⟩ := separator_eq hl depth
    rw [memberChars_cons, hsep] at hfuel ⊢
    simp only [List.length_append, List.length_cons] at hfuel
    have hread := readValue?_chars d hmembers.1 depth fuel
      (stops_comma (space ++
        (memberChars layout depth (next :: members) ++ (blank ++ '\x7d' :: rest))))
      (by omega)
    have hrest := readMembers?_chars (next :: members) hmembers.2 (List.cons_ne_nil _ _) depth
      fuel hblank rest (by omega)
    obtain ⟨cs, hcs, hname⟩ := readText?_textChars name
      (':' :: ' ' :: (chars layout depth d ++ (',' :: (space ++
        (memberChars layout depth (next :: members) ++ (blank ++ '\x7d' :: rest))))))
      fuel (by omega)
    simp only [List.append_assoc, List.cons_append]
    rw [hcs]
    exact readMembers?_next hname hread ((readMembers?_blank hspace fuel _).trans hrest)

end

/-- The text of a document is valid and is read as the document. -/
theorem read?_text (d : Document) (hd : Readable d) : read? (d.text layout) = some d := by
  have hstop : Stops [] := fun c hc => by cases hc
  have hread := readValue?_chars hl d hd 0 ((chars layout 0 d).length + 1) hstop (Nat.le_succ _)
  rw [List.append_nil] at hread
  rw [read?, text, String.toList_ofList, String.length_ofList, hread]
  rfl

end

end Toolwright.Document
