import Mathlib
import Toolwright.Proofs.Document.Numbers
import Toolwright.Proofs.Names.Inverse
import Toolwright.Settings.Config

/-!
# Integer settings

The grammar of integer settings in basic characters, and what a setting of the grammar denotes. The
reader takes exactly the settings of the grammar at what they denote, and the default for all others.
-/

namespace Toolwright.Settings

set_option autoImplicit false

open Text

/-- A basic character that is no information separator. -/
def IsPlain (c : Char) : Prop := c.toNat < 128 ∧ ¬(0x1C ≤ c.toNat ∧ c.toNat ≤ 0x1F)

/-- Space, tab, line feed, vertical tab, form feed or carriage return. -/
def IsSpacing (c : Char) : Prop := c ∈ [' ', '\t', '\n', '\x0b', '\x0c', '\r']

instance : DecidablePred IsPlain := fun _ => inferInstanceAs (Decidable (_ ∧ _))

instance : DecidablePred IsSpacing := fun _ => inferInstanceAs (Decidable (_ ∈ _))

/-- Digits, and what each of them is worth. Between any two of them there may be one underscore. -/
inductive DigitRow : List Char → List Nat → Prop
  | last {c : Char} (hc : c.isDigit = true) : DigitRow [c] [c.toNat - '0'.toNat]
  | next {c : Char} {cs : List Char} {ds : List Nat} (hc : c.isDigit = true)
    (h : DigitRow cs ds) : DigitRow (c :: cs) ((c.toNat - '0'.toNat) :: ds)
  | spaced {c : Char} {cs : List Char} {ds : List Nat} (hc : c.isDigit = true)
    (h : DigitRow cs ds) : DigitRow (c :: '_' :: cs) ((c.toNat - '0'.toNat) :: ds)

/-- An optional sign, and whether it is a minus. -/
inductive SignMark : List Char → Bool → Prop
  | none : SignMark [] false
  | plus : SignMark ['+'] false
  | minus : SignMark ['-'] true

/-- A text that writes an integer: a sign and at most 4300 digits with white space around them. The
digits denote the number that has them as its decimal digits. -/
inductive Numeral : List Char → Int → Prop
  | mk {before sign row after : List Char} {negative : Bool} {ds : List Nat}
    (hbefore : ∀ c ∈ before, IsSpacing c) (hsign : SignMark sign negative) (hrow : DigitRow row ds)
    (hafter : ∀ c ∈ after, IsSpacing c) (hlength : ds.length ≤ 4300) :
    Numeral (before ++ sign ++ row ++ after) (signed negative (Nat.ofDigits 10 ds.reverse))

/-! ## Characters -/

theorem isNumeralBlank_iff {c : Char} (hc : IsPlain c) : isNumeralBlank c = true ↔ IsSpacing c :=
  Naming.forall_basic (p := fun c => ¬(0x1C ≤ c.toNat ∧ c.toNat ≤ 0x1F) →
    (isNumeralBlank c = true ↔ IsSpacing c)) (by unfold IsSpacing; decide +kernel) hc.1 hc.2

theorem IsSpacing.isNumeralBlank {c : Char} (hc : IsSpacing c) : isNumeralBlank c = true := by
  have all : [' ', '\t', '\n', '\x0b', '\x0c', '\r'].all Text.isNumeralBlank = true := by decide
  exact List.all_eq_true.mp all c hc

theorem digitIn?_plain {c : Char} (hc : IsPlain c) :
    digitIn? 10 c = if c.isDigit then some (c.toNat - '0'.toNat) else none :=
  Naming.forall_basic (p := fun c => digitIn? 10 c =
    if c.isDigit then some (c.toNat - '0'.toNat) else none) (by decide) hc.1

theorem digitIn?_digit {c : Char} (hc : c.isDigit = true) :
    digitIn? 10 c = some (c.toNat - '0'.toNat) := by
  have basic : c.toNat < 128 := Naming.lt_of_isTail (Bool.or_eq_true_iff.mpr (.inr hc))
  have plain : ¬(0x1C ≤ c.toNat ∧ c.toNat ≤ 0x1F) :=
    Naming.forall_basic (p := fun c => c.isDigit = true → ¬(0x1C ≤ c.toNat ∧ c.toNat ≤ 0x1F))
      (by decide) basic hc
  rw [digitIn?_plain ⟨basic, plain⟩, if_pos hc]

/-- What the white space behind a numeral starts with goes on with no digits. -/
theorem IsSpacing.not_digit {c : Char} (hc : IsSpacing c) : digitIn? 10 c = none ∧ c ≠ '_' := by
  have all : [' ', '\t', '\n', '\x0b', '\x0c', '\r'].all
      (fun c => digitIn? 10 c == none && c != '_') = true := by decide
  simpa using List.all_eq_true.mp all c hc

/-! ## Digits -/

theorem DigitRow.ne_nil {cs : List Char} {ds : List Nat} (h : DigitRow cs ds) : ds ≠ [] := by
  cases h <;> exact List.cons_ne_nil _ _

theorem DigitRow.head {cs : List Char} {ds : List Nat} (h : DigitRow cs ds) :
    ∃ c cs', cs = c :: cs' ∧ c.isDigit = true := by
  cases h with
  | last hc => exact ⟨_, _, rfl, hc⟩
  | next hc h => exact ⟨_, _, rfl, hc⟩
  | spaced hc h => exact ⟨_, _, rfl, hc⟩

theorem takeDigitsBy_space {value? : Char → Option Nat} {c : Char} {d : Nat} {cs : List Char}
    (hc : value? c = some d) (hcs : ∀ e ∈ cs.head?, e ≠ '_') :
    takeDigitsBy value? (c :: cs) =
      (d :: (takeDigitsBy value? cs).1, (takeDigitsBy value? cs).2) := by
  rw [takeDigitsBy]
  simp only [hc]
  split
  · exact absurd rfl (hcs _ rfl)
  · rfl

theorem DigitRow.take {row : List Char} {ds : List Nat} (h : DigitRow row ds) {after : List Char}
    (hafter : ∀ c ∈ after, IsSpacing c) :
    takeDigitsBy (digitIn? 10) (row ++ after) = (ds, after) := by
  have ends : takeDigitsBy (digitIn? 10) after = ([], after) := by
    cases after with
    | nil => rfl
    | cons c cs => rw [takeDigitsBy, (hafter c List.mem_cons_self).not_digit.1]
  induction h with
  | @last c hc =>
    rw [List.singleton_append, takeDigitsBy_space (digitIn?_digit hc), ends]
    intro e he
    exact (hafter e (List.mem_of_mem_head? he)).not_digit.2
  | @next c cs ds hc h ih =>
    rw [List.cons_append, takeDigitsBy_space (digitIn?_digit hc), ih]
    obtain ⟨d, cs', rfl, hd⟩ := h.head
    intro e he
    obtain rfl : d = e := Option.some.inj he
    rintro rfl
    exact absurd hd (by decide)
  | @spaced c cs ds hc h ih =>
    obtain ⟨d, cs', rfl, hd⟩ := h.head
    rw [List.cons_append, List.cons_append, List.cons_append, takeDigitsBy, digitIn?_digit hc]
    rw [List.cons_append] at ih
    simp only [digitIn?_digit hd, Option.isSome_some, if_true, ih]

theorem of_digitIn? {c : Char} (hc : IsPlain c) {d : Nat} (h : digitIn? 10 c = some d) :
    c.isDigit = true ∧ d = c.toNat - '0'.toNat := by
  rw [digitIn?_plain hc] at h
  split at h
  · exact ⟨‹_›, (Option.some.inj h).symm⟩
  · cases h

theorem taken_ne_nil {value? : Char → Option Nat} {c : Char} {cs : List Char}
    (hc : (value? c).isSome = true) {ds : List Nat} {rest : List Char}
    (h : takeDigitsBy value? (c :: cs) = (ds, rest)) : ds ≠ [] := by
  rintro rfl
  rw [takeDigitsBy] at h
  split at h
  · rename_i e
    rw [e] at hc
    cases hc
  · repeat' split at h
    all_goals cases h

theorem nothing_taken {value? : Char → Option Nat} {cs rest : List Char}
    (h : takeDigitsBy value? cs = ([], rest)) : cs = rest := by
  cases cs with
  | nil => exact (Prod.mk.inj h).2
  | cons c cs =>
    cases hc : value? c with
    | none =>
      rw [takeDigitsBy, hc] at h
      exact (Prod.mk.inj h).2
    | some d => exact absurd rfl (taken_ne_nil (by rw [hc]; rfl) h)

theorem of_takeDigitsBy {cs : List Char} (hcs : ∀ c ∈ cs, IsPlain c) {ds : List Nat}
    {rest : List Char} (h : takeDigitsBy (digitIn? 10) cs = (ds, rest)) (hds : ds ≠ []) :
    ∃ row, cs = row ++ rest ∧ DigitRow row ds := by
  fun_induction takeDigitsBy (digitIn? 10) cs generalizing ds rest with
  | case1 => exact absurd (Prod.mk.inj h).1.symm hds
  | case2 c cs hc => exact absurd (Prod.mk.inj h).1.symm hds
  | case3 c d hc d' cs hd' es left htake ih =>
    obtain ⟨rfl, rfl⟩ := Prod.mk.inj h
    obtain ⟨hdigit, rfl⟩ := of_digitIn? (hcs c List.mem_cons_self) hc
    have plain : ∀ e ∈ d' :: cs, IsPlain e := fun e he =>
      hcs e (List.mem_cons_of_mem c (List.mem_cons_of_mem '_' he))
    obtain ⟨row, hrow, hdigits⟩ := ih plain htake (taken_ne_nil hd' htake)
    exact ⟨c :: '_' :: row, by rw [hrow]; rfl, .spaced hdigit hdigits⟩
  | case4 c d hc d' cs hd' =>
    obtain ⟨rfl, rfl⟩ := Prod.mk.inj h
    obtain ⟨hdigit, rfl⟩ := of_digitIn? (hcs c List.mem_cons_self) hc
    exact ⟨[c], rfl, .last hdigit⟩
  | case5 c d hc cs hcs' es left htake ih =>
    obtain ⟨rfl, rfl⟩ := Prod.mk.inj h
    obtain ⟨hdigit, rfl⟩ := of_digitIn? (hcs c List.mem_cons_self) hc
    have plain : ∀ e ∈ cs, IsPlain e := fun e he => hcs e (List.mem_cons_of_mem c he)
    by_cases hes : es = []
    · -- nothing more is taken, so this digit is the last one
      subst hes
      rw [← nothing_taken htake]
      exact ⟨[c], rfl, .last hdigit⟩
    · obtain ⟨row, hrow, hdigits⟩ := ih plain htake hes
      exact ⟨c :: row, by rw [hrow]; rfl, .next hdigit hdigits⟩

/-! ## Numerals -/

theorem SignMark.take {sign : List Char} {negative : Bool} (h : SignMark sign negative)
    {cs : List Char} (hcs : ∀ c ∈ cs.head?, c.isDigit = true) :
    takeSign (sign ++ cs) = (negative, cs) := by
  cases h with
  | none =>
    unfold takeSign
    rw [List.nil_append]
    split
    · exact absurd (hcs '-' rfl) (by decide)
    · exact absurd (hcs '+' rfl) (by decide)
    · rfl
  | plus => rfl
  | minus => rfl

theorem exists_signMark (cs : List Char) :
    ∃ sign, cs = sign ++ (takeSign cs).2 ∧ SignMark sign (takeSign cs).1 := by
  unfold takeSign
  split
  · exact ⟨['-'], rfl, .minus⟩
  · exact ⟨['+'], rfl, .plus⟩
  · exact ⟨[], rfl, .none⟩

theorem takeBase_ten (cs : List Char) : takeBase 10 cs = (10, cs) := by
  unfold takeBase
  split
  · rename_i c rest
    cases hm : markedBase? c with
    | none => rfl
    | some marked =>
      have ne : marked ≠ 10 := by
        unfold markedBase? at hm
        split at hm <;> cases hm <;> decide
      simp [Ne.symm ne]
  · rfl

theorem digitsValue_eq (ds : List Nat) : digitsValueIn 10 ds = Nat.ofDigits 10 ds.reverse := by
  induction ds using List.reverseRecOn with
  | nil => rfl
  | append_singleton ds d ih =>
    rw [digitsValueIn, List.foldl_append, ← digitsValueIn, ih, List.reverse_append,
      List.reverse_singleton, List.singleton_append, Nat.ofDigits_cons]
    exact Nat.add_comm _ _

/-- A text is a numeral if it is read as digits, at most 4300 of them, and nothing but white space
stands behind them. -/
theorem readNumeral?_eq_some {cs : List Char} {n : Int} : readNumeral? cs = some n ↔
    ∃ negative cs' ds rest, takeSign (cs.dropWhile isNumeralBlank) = (negative, cs') ∧
      takeDigitsBy (digitIn? 10) cs' = (ds, rest) ∧ ds ≠ [] ∧ rest.all isNumeralBlank = true ∧
      ds.length ≤ 4300 ∧ n = signed negative (Nat.ofDigits 10 ds.reverse) := by
  rcases hsign : takeSign (cs.dropWhile isNumeralBlank) with ⟨negative, cs'⟩
  rcases htake : takeDigitsBy (digitIn? 10) cs' with ⟨ds, rest⟩
  have power : (2 ^ (10 : Nat).log2 != 10) = true := by decide
  simp only [readNumeral?, readNumeral, hsign, takeBase_ten, htake, digitsValue_eq, power,
    Nat.reduceBEq, Bool.false_eq_true, if_false, Bool.false_and, Bool.or_false, Bool.and_true]
  constructor
  · intro h
    cases ds with
    | nil => cases h
    | cons d ds =>
      simp only [Bool.not_eq_true', gt_iff_lt, decide_eq_true_eq] at h
      by_cases hrest : rest.all isNumeralBlank = true
      · by_cases hlength : (d :: ds).length ≤ 4300
        · rw [hrest, if_neg (Bool.noConfusion), if_neg (Nat.not_lt.mpr hlength)] at h
          exact ⟨negative, cs', d :: ds, rest, rfl, htake, List.cons_ne_nil d ds, hrest, hlength,
            (Option.some.inj h).symm⟩
        · rw [hrest, if_neg (Bool.noConfusion), if_pos (Nat.lt_of_not_le hlength)] at h
          cases h
      · rw [if_pos (Bool.eq_false_iff.mpr hrest)] at h
        cases h
  · rintro ⟨negative', cs'', es, left, hsign', htake', hes, hrest, hlength, rfl⟩
    obtain ⟨rfl, rfl⟩ := Prod.mk.inj hsign'
    obtain ⟨rfl, rfl⟩ := Prod.mk.inj (htake.symm.trans htake')
    cases ds with
    | nil => exact absurd rfl hes
    | cons d ds =>
      simp only [hrest, Bool.not_true, Bool.false_eq_true, if_false, gt_iff_lt, decide_eq_true_eq,
        if_neg (Nat.not_lt.mpr hlength)]

theorem Numeral.read {cs : List Char} {n : Int} (h : Numeral cs n) : readNumeral? cs = some n := by
  obtain @⟨before, sign, row, after, negative, ds, hbefore, hsign, hrow, hafter, hlength⟩ := h
  obtain ⟨c, row', hcons, hdigit⟩ := hrow.head
  have skipped : (before ++ sign ++ row ++ after).dropWhile isNumeralBlank =
      sign ++ (row ++ after) := by
    rw [List.append_assoc, List.append_assoc,
      List.dropWhile_append_of_pos fun c hc => (hbefore c hc).isNumeralBlank, hcons]
    have visible : isNumeralBlank c = false :=
      (Naming.forall_basic (p := fun c => c.isDigit = true → isNumeralBlank c = false)
        (by decide) (Naming.lt_of_isTail (Bool.or_eq_true_iff.mpr (.inr hdigit))) hdigit)
    cases hsign <;> simp [List.dropWhile_cons, visible] <;> decide
  have starts : ∀ e ∈ (row ++ after).head?, e.isDigit = true := by
    intro e he
    rw [hcons] at he
    obtain rfl : c = e := Option.some.inj he
    exact hdigit
  refine readNumeral?_eq_some.mpr ⟨negative, row ++ after, ds, after, ?_, hrow.take hafter,
    hrow.ne_nil, ?_, hlength, rfl⟩
  · rw [skipped, hsign.take starts]
  · exact List.all_eq_true.mpr fun e he => (hafter e he).isNumeralBlank

theorem of_readNumeral? {cs : List Char} (hcs : ∀ c ∈ cs, IsPlain c) {n : Int}
    (h : readNumeral? cs = some n) : Numeral cs n := by
  obtain ⟨negative, cs', ds, rest, hsign, htake, hds, hrest, hlength, rfl⟩ :=
    readNumeral?_eq_some.mp h
  obtain ⟨sign, hdrop, hmark⟩ := exists_signMark (cs.dropWhile isNumeralBlank)
  rw [hsign] at hdrop hmark
  have whole : cs = cs.takeWhile isNumeralBlank ++ (sign ++ cs') := by
    rw [← hdrop, List.takeWhile_append_dropWhile]
  have plain : ∀ c ∈ cs', IsPlain c := by
    intro c hc
    apply hcs
    rw [whole]
    exact List.mem_append_right _ (List.mem_append_right _ hc)
  obtain ⟨row, rfl, hrow⟩ := of_takeDigitsBy plain htake hds
  have spacing : ∀ c ∈ cs.takeWhile isNumeralBlank, IsSpacing c := fun c hc =>
    (isNumeralBlank_iff (hcs c ((List.takeWhile_prefix _).subset hc))).mp (List.mem_takeWhile_imp hc)
  have spacing_after : ∀ c ∈ rest, IsSpacing c := fun c hc =>
    (isNumeralBlank_iff (plain c (List.mem_append_right _ hc))).mp (List.all_eq_true.mp hrest c hc)
  have numeral := Numeral.mk spacing hmark hrow spacing_after hlength
  rw [List.append_assoc, List.append_assoc, ← whole] at numeral
  exact numeral

theorem digitRow_of_digits {cs : List Char} (hne : cs ≠ []) (h : ∀ c ∈ cs, c.isDigit = true) :
    DigitRow cs (cs.map fun c => c.toNat - '0'.toNat) := by
  induction cs with
  | nil => exact absurd rfl hne
  | cons c cs ih =>
    have hc : c.isDigit = true := h c List.mem_cons_self
    cases cs with
    | nil => exact .last hc
    | cons d cs =>
      exact .next hc (ih (List.cons_ne_nil d cs) fun e he => h e (List.mem_cons_of_mem c he))

theorem length_toDigits_le {n k : Nat} (hk : 0 < k) (h : n < 10 ^ k) :
    (Nat.toDigits 10 n).length ≤ k :=
  Nat.toDigits_length 10 n k hk h

theorem lt_pow_of_lt {n k : Nat} (h : n < 10 ^ 2) (hk : 2 ≤ k) : n < 10 ^ k :=
  Nat.lt_of_lt_of_le h (Nat.pow_le_pow_right (by decide) hk)

theorem signed_natAbs (n : Int) : signed (decide (n < 0)) n.natAbs = n := by
  unfold signed
  split
  · rename_i h
    have := of_decide_eq_true h
    omega
  · rename_i h
    have : ¬ n < 0 := fun hn => h (decide_eq_true hn)
    omega

theorem numeral_toString {n : Int} (h : n.natAbs < 10 ^ 4300) : Numeral (toString n).toList n := by
  have row := digitRow_of_digits Nat.toDigits_ne_nil (Document.digits_toDigits n.natAbs)
  have length : ((Nat.toDigits 10 n.natAbs).map fun c => c.toNat - '0'.toNat).length ≤ 4300 := by
    rw [List.length_map]
    exact length_toDigits_le (by decide) h
  have value : Nat.ofDigits 10 ((Nat.toDigits 10 n.natAbs).map
      fun c => c.toNat - '0'.toNat).reverse = n.natAbs := by
    rw [← digitsValue_eq, digitsValueIn, List.foldl_map]
    exact Nat.ofDigitChars_ten_toDigits
  have mark : SignMark (Binary64.sign (decide (n < 0))) (decide (n < 0)) := by
    cases decide (n < 0)
    · exact .none
    · exact .minus
  have blank : ∀ c ∈ ([] : List Char), IsSpacing c := by simp
  have numeral := Numeral.mk blank mark row blank length
  rw [value, List.nil_append, List.append_nil, ← Document.toList_toString_int] at numeral
  rwa [signed_natAbs] at numeral

/-- An integer setting in basic characters is read as the integer that it writes, and as the default
if it writes none. So the text of each integer of at most 4300 digits is read as the integer. -/
theorem readInteger_reads (s : String) (default : Int) (hs : ∀ c ∈ s.toList, IsPlain c) :
    (∀ n, Numeral s.toList n → readInteger (some s) default = n) ∧
      ((∀ n, ¬ Numeral s.toList n) → readInteger (some s) default = default) ∧
      ∀ n : Int, n.natAbs < 10 ^ 4300 → readInteger (some (toString n)) default = n := by
  refine ⟨?_, ?_, ?_⟩
  · intro n hn
    rw [readInteger, hn.read, Option.getD_some]
  · intro none
    cases hread : readNumeral? s.toList with
    | none => rw [readInteger, hread, Option.getD_none]
    | some n => exact absurd (of_readNumeral? hs hread) (none n)
  · intro n hn
    rw [readInteger, (numeral_toString hn).read, Option.getD_some]

theorem forall_of_all {α : Type} {p : α → Prop} [DecidablePred p] {xs : List α}
    (h : xs.all (fun x => decide (p x)) = true) : ∀ x ∈ xs, p x := fun x hx =>
  of_decide_eq_true (List.all_eq_true.mp h x hx)

theorem readInteger_reads_spaced :
    (∀ c ∈ "\t -0_42\n".toList, IsPlain c) ∧ (∀ c ∈ "1__0".toList, IsPlain c) ∧
      Numeral "\t -0_42\n".toList (-42) ∧ (∀ n, ¬ Numeral "1__0".toList n) ∧
      readInteger (some "\t -0_42\n") 7 = -42 ∧ readInteger (some "1__0") 7 = 7 ∧
      readInteger (some (toString (-42 : Int))) 7 = -42 := by
  have spaced : ∀ c ∈ "\t -0_42\n".toList, IsPlain c := forall_of_all (by decide)
  have doubled : ∀ c ∈ "1__0".toList, IsPlain c := forall_of_all (by decide)
  have numeral : Numeral "\t -0_42\n".toList (-42) :=
    @Numeral.mk ['\t', ' '] ['-'] ['0', '_', '4', '2'] ['\n'] _ _
      (forall_of_all (by decide)) .minus (.spaced rfl (.next rfl (.last rfl)))
      (forall_of_all (by decide)) (by decide)
  have none : ∀ n, ¬ Numeral "1__0".toList n := by
    intro n h
    have := h.read
    rw [show readNumeral? "1__0".toList = Option.none from by decide] at this
    cases this
  have short : (-42 : Int).natAbs < 10 ^ 4300 :=
    lt_pow_of_lt (n := 42) (k := 4300) (by decide) (by decide)
  exact ⟨spaced, doubled, numeral, none, (readInteger_reads _ 7 spaced).1 _ numeral,
    (readInteger_reads _ 7 doubled).2.1 none, (readInteger_reads _ 7 spaced).2.2 _ short⟩

end Toolwright.Settings
