import Toolwright.Proofs.Binary64.Shortest
import Toolwright.Proofs.Document.Reader

/-!
# Reading numbers back

The text of an integer is read as the integer, and the text of a finite binary number as the number.
Both hold whatever stands behind the text, as long as it does not go on with the number.
-/

namespace Toolwright.Document

set_option autoImplicit false

open Binary64

def endsNumber (c : Char) : Bool := !(c.isDigit || c == '.' || c == 'e' || c == 'E')

def Stops (cs : List Char) : Prop := ∀ c ∈ cs.head?, endsNumber c = true

def NoDigit (cs : List Char) : Prop := ∀ c ∈ cs.head?, c.isDigit = false

def Digits (ds : List Char) : Prop := ∀ c ∈ ds, c.isDigit = true

theorem Stops.noDigit {cs : List Char} (h : Stops cs) : NoDigit cs := by
  intro c hc
  have := h c hc
  simp only [endsNumber, Bool.not_eq_true', Bool.or_eq_false_iff] at this
  exact this.1.1.1

theorem takeDigits_append {ds rest : List Char} (hds : Digits ds) (hrest : NoDigit rest) :
    takeDigits (ds ++ rest) = (ds, rest) := by
  rw [takeDigits, List.span_eq_takeWhile_dropWhile, List.takeWhile_append_of_pos hds,
    List.dropWhile_append_of_pos hds]
  cases rest with
  | nil => rw [List.takeWhile_nil, List.dropWhile_nil, List.append_nil]
  | cons c cs =>
    have hc : c.isDigit = false := hrest c rfl
    rw [List.takeWhile_cons_of_neg (by simp [hc]), List.dropWhile_cons_of_neg (by simp [hc]),
      List.append_nil]

theorem digits_toDigits (n : Nat) : Digits (Nat.toDigits 10 n) := fun _ hc =>
  Nat.isDigit_of_mem_toDigits (by decide) (by decide) hc

theorem digits_zeros (n : Nat) : Digits (zeros n) := by
  intro c hc
  rw [zeros, List.mem_replicate] at hc
  rw [hc.2]
  decide

theorem Digits.append {ds es : List Char} (hds : Digits ds) (hes : Digits es) :
    Digits (ds ++ es) := by
  intro c hc
  rcases List.mem_append.1 hc with h | h
  · exact hds c h
  · exact hes c h

theorem head?_toDigits {n : Nat} (hn : 0 < n) : (Nat.toDigits 10 n).head? ≠ some '0' := by
  induction n using Nat.strongRecOn with
  | ind n ih =>
    rcases Nat.lt_or_ge n 10 with h | h
    · rw [Nat.toDigits_of_lt_base h, List.head?_singleton, ne_eq, Option.some.injEq,
        Nat.digitChar_eq_zero]
      omega
    · rw [Nat.toDigits_of_base_le (by decide) h, List.head?_append_of_ne_nil _ Nat.toDigits_ne_nil]
      exact ih (n / 10) (by omega) (by omega)

/-! ## Written numbers -/

/-- The form of a number that a document may hold. -/
structure Strict (w : Written) : Prop where
  whole : Digits w.whole
  whole_ne : w.whole ≠ []
  leading : w.whole = ['0'] ∨ w.whole.head? ≠ some '0'
  fraction : ∀ ds, w.fraction = some ds → Digits ds ∧ ds ≠ []

theorem readWhole?_append {ds rest : List Char} (hds : Digits ds) (hne : ds ≠ [])
    (hlead : ds = ['0'] ∨ ds.head? ≠ some '0') (hrest : NoDigit rest) :
    readWhole? (ds ++ rest) = some (ds, rest) := by
  rw [readWhole?, takeDigits_append hds hrest]
  cases ds with
  | nil => exact absurd rfl hne
  | cons d ds =>
    rcases hlead with h | h
    · obtain ⟨rfl, rfl⟩ := List.cons.inj h
      rfl
    · have hd : d ≠ '0' := fun e => h (by rw [e, List.head?_cons])
      split
      · rename_i e
        cases e
      · rename_i e
        obtain ⟨rfl, _⟩ := List.cons.inj (Prod.mk.inj e).1
        exact absurd rfl hd
      · rename_i e
        rw [← (Prod.mk.inj e).1, ← (Prod.mk.inj e).2]

theorem readFraction?_some {ds rest : List Char} (hds : Digits ds) (hne : ds ≠ [])
    (hrest : NoDigit rest) : readFraction? ('.' :: ds ++ rest) = some (some ds, rest) := by
  rw [List.cons_append, readFraction?, takeDigits_append hds hrest]
  cases ds with
  | nil => exact absurd rfl hne
  | cons d ds => rfl

theorem readFraction?_none {rest : List Char} (hrest : ∀ c ∈ rest.head?, c ≠ '.') :
    readFraction? rest = some (none, rest) := by
  cases rest with
  | nil => rfl
  | cons c cs =>
    have hc : c ≠ '.' := hrest c rfl
    unfold readFraction?
    split
    · rename_i e
      exact absurd (List.cons.inj e).1 hc
    · rfl

theorem readPower?_none {rest : List Char} (hrest : Stops rest) :
    readPower? rest = some (none, rest) := by
  cases rest with
  | nil => rfl
  | cons c cs =>
    have hc := hrest c rfl
    simp only [endsNumber, Bool.not_eq_true', Bool.or_eq_false_iff] at hc
    rw [readPower?, if_neg (by simp [hc.1.2, hc.2])]

/-- What is written behind the digits of an exponent. -/
def powerChars (power : Int) : List Char :=
  ['e', if power < 0 then '-' else '+'] ++ zeros (2 - (Nat.toDigits 10 power.natAbs).length) ++
    Nat.toDigits 10 power.natAbs

theorem tail_eq (w : Written) : w.tail 'e' =
    (w.fraction.map ('.' :: ·)).getD [] ++ (w.exponent.map powerChars).getD [] := by
  unfold Written.tail powerChars
  cases w.exponent with
  | none => rfl
  | some power => rfl

theorem readPower?_some (power : Int) {rest : List Char} (hrest : NoDigit rest) :
    readPower? (powerChars power ++ rest) = some (some power, rest) := by
  set ds := zeros (2 - (Nat.toDigits 10 power.natAbs).length) ++ Nat.toDigits 10 power.natAbs
    with hds
  have hdigits : Digits ds := (digits_zeros _).append (digits_toDigits _)
  have hne : ds ≠ [] := by
    rw [hds]
    exact List.append_ne_nil_of_right_ne_nil _ Nat.toDigits_ne_nil
  have hvalue : Nat.ofDigitChars 10 ds 0 = power.natAbs := by
    rw [hds, Nat.ofDigitChars_append, zeros, Nat.ofDigitChars_replicate_zero, Nat.mul_zero,
      Nat.ofDigitChars_ten_toDigits]
  have hchars : powerChars power ++ rest =
      'e' :: (if power < 0 then '-' else '+') :: (ds ++ rest) := by
    simp only [powerChars, hds, List.cons_append, List.nil_append, List.append_assoc]
  have hsign : Text.takeSign ((if power < 0 then '-' else '+') :: (ds ++ rest)) =
      (decide (power < 0), ds ++ rest) := by
    split
    · rename_i h
      rw [decide_eq_true h]
      rfl
    · rename_i h
      rw [decide_eq_false h]
      rfl
  rw [hchars, readPower?, if_pos (by decide), hsign]
  simp only [takeDigits_append hdigits hrest]
  cases hcs : ds with
  | nil => exact absurd hcs hne
  | cons d cs =>
    simp only [← hcs, hvalue, Text.signed]
    by_cases h : power < 0
    · rw [decide_eq_true h, if_pos rfl, show -(power.natAbs : Int) = power by omega]
    · rw [decide_eq_false h, if_neg (by decide), show (power.natAbs : Int) = power by omega]

theorem readWritten?_append {w : Written} (hw : Strict w) {rest : List Char} (hrest : Stops rest) :
    readWritten? (w.whole ++ w.tail 'e' ++ rest) = some (w, rest) := by
  obtain ⟨hwhole, hne, hlead, hfrac⟩ := hw
  have hpow : readPower? ((w.exponent.map powerChars).getD [] ++ rest) =
      some (w.exponent, rest) := by
    cases w.exponent with
    | none => exact readPower?_none hrest
    | some power => exact readPower?_some power hrest.noDigit
  -- the exponent starts with its mark, so the digits in front of it end there
  have hstop : ∀ c ∈ ((w.exponent.map powerChars).getD [] ++ rest).head?,
      c.isDigit = false ∧ c ≠ '.' := by
    cases w.exponent with
    | none =>
      intro c hc
      have := hrest c hc
      simp only [endsNumber, Bool.not_eq_true', Bool.or_eq_false_iff, beq_eq_false_iff_ne] at this
      exact ⟨this.1.1.1, this.1.1.2⟩
    | some power =>
      intro c hc
      obtain rfl : 'e' = c := Option.some.inj hc
      exact ⟨by decide, by decide⟩
  rw [List.append_assoc, tail_eq, List.append_assoc, readWritten?]
  generalize (w.exponent.map powerChars).getD [] ++ rest = back at hpow hstop
  have hfraction : readFraction? ((w.fraction.map ('.' :: ·)).getD [] ++ back) =
      some (w.fraction, back) := by
    cases hf : w.fraction with
    | none => exact readFraction?_none fun c hc => (hstop c hc).2
    | some ds =>
      obtain ⟨hds, hdne⟩ := hfrac ds hf
      exact readFraction?_some hds hdne fun c hc => (hstop c hc).1
  have hnodigit : NoDigit ((w.fraction.map ('.' :: ·)).getD [] ++ back) := by
    cases w.fraction with
    | none => exact fun c hc => (hstop c hc).1
    | some ds =>
      intro c hc
      obtain rfl : '.' = c := Option.some.inj hc
      decide
  simp only [readWhole?_append hwhole hne hlead hnodigit, hfraction, hpow, Option.bind_eq_bind,
    Option.bind_some]
  rfl

/-! ## Decimals -/

/-- The decimal whose digits a written number has. -/
def decimalOf (w : Written) : Decimal :=
  ⟨Nat.ofDigitChars 10 (w.whole ++ w.fraction.getD []) 0,
    w.exponent.getD 0 - (w.fraction.getD []).length⟩

/-- A number in strict form that is no integer and writes `x`. -/
structure Writes (w : Written) (x : ℚ) : Prop where
  strict : Strict w
  marked : ¬ (w.fraction = none ∧ w.exponent = none)
  value : (decimalOf w).value = x

/-- The digits of a decimal: at least one, and no zero in front. -/
structure Leading (ds : List Char) (n : Nat) : Prop where
  digits : Digits ds
  ne_nil : ds ≠ []
  head : ds.head? ≠ some '0'
  value : Nat.ofDigitChars 10 ds 0 = n

theorem leading_toDigits {n : Nat} (hn : 0 < n) : Leading (Nat.toDigits 10 n) n :=
  ⟨digits_toDigits n, Nat.toDigits_ne_nil, head?_toDigits hn, Nat.ofDigitChars_ten_toDigits⟩

theorem ofDigitChars_zeros (n : Nat) (ds : List Char) :
    Nat.ofDigitChars 10 (zeros n ++ ds) 0 = Nat.ofDigitChars 10 ds 0 := by
  rw [Nat.ofDigitChars_append, zeros, Nat.ofDigitChars_replicate_zero, Nat.mul_zero]

theorem ofDigitChars_append_zeros (n : Nat) (ds : List Char) :
    Nat.ofDigitChars 10 (ds ++ zeros n) 0 = 10 ^ n * Nat.ofDigitChars 10 ds 0 := by
  rw [Nat.ofDigitChars_append, zeros, Nat.ofDigitChars_replicate_zero]

theorem Leading.scientific {ds : List Char} {n : Nat} (h : Leading ds n) (power : Int) :
    Writes (Written.scientific false ds power) (n * 10 ^ (power + 1 - ds.length)) := by
  obtain ⟨hds, hne, hhead, hvalue⟩ := h
  cases ds with
  | nil => exact absurd rfl hne
  | cons d ds =>
    have hd : d.isDigit = true := hds d List.mem_cons_self
    have htail : Digits ds := fun c hc => hds c (List.mem_cons_of_mem d hc)
    refine ⟨⟨?_, List.cons_ne_nil d [], .inr hhead, ?_⟩, fun e => (Option.some_ne_none _ e.2), ?_⟩
    · intro c hc
      rw [List.mem_singleton.1 hc]
      exact hd
    · intro es hes
      simp only [Written.scientific, Written.behindPoint, List.drop_one, List.tail_cons] at hes
      split at hes
      · cases hes
      · rename_i hempty
        obtain rfl := Option.some.inj hes
        refine ⟨htail, fun e => hempty ?_⟩
        rw [e]
        rfl
    · have hfraction : (Written.scientific false (d :: ds) power).fraction.getD [] = ds := by
        cases ds with
        | nil => rfl
        | cons e es => rfl
      have hexp : power - (ds.length : Int) = power + 1 - ((d :: ds).length : Int) := by
        rw [List.length_cons]
        omega
      rw [decimalOf, hfraction, ← hexp, ← hvalue]
      rfl

theorem Leading.positional_neg {ds : List Char} {n : Nat} (h : Leading ds n) {power : Int}
    (hp : power < 0) :
    Writes (Written.positional false ds power).withZero (n * 10 ^ (power + 1 - ds.length)) := by
  obtain ⟨hds, hne, _, hvalue⟩ := h
  have hback : zeros (-power - 1).toNat ++ ds ≠ [] := List.append_ne_nil_of_right_ne_nil _ hne
  have hform : (Written.positional false ds power).withZero =
      ⟨['0'], some (zeros (-power - 1).toNat ++ ds), none⟩ := by
    rw [Written.positional, if_pos hp, Written.withZero]
    split
    · rename_i e _
      cases e
    · rename_i e _
      exact absurd (Option.some.inj e) hback
    · rfl
  rw [hform]
  refine ⟨⟨?_, List.cons_ne_nil _ _, .inl rfl, ?_⟩, fun e => (Option.some_ne_none _ e.1), ?_⟩
  · intro c hc
    rw [List.mem_singleton.1 hc]
    decide
  · intro es hes
    obtain rfl := Option.some.inj hes
    exact ⟨(digits_zeros _).append hds, hback⟩
  · have hdigits : Nat.ofDigitChars 10 (['0'] ++ (zeros (-power - 1).toNat ++ ds)) 0 = n := by
      rw [show ['0'] = zeros 1 from rfl, ofDigitChars_zeros, ofDigitChars_zeros, hvalue]
    simp only [decimalOf, Decimal.value, Option.getD_some, Option.getD_none, hdigits]
    congr 2
    rw [List.length_append, zeros, List.length_replicate]
    omega

/-- From one on, the digits reach up to the point or zeros fill the places up to it. -/
theorem Leading.positional_nonneg {ds : List Char} {n : Nat} (h : Leading ds n) {power : Int}
    (hp : 0 ≤ power) :
    Writes (Written.positional false ds power).withZero (n * 10 ^ (power + 1 - ds.length)) := by
  obtain ⟨hds, hne, hhead, hvalue⟩ := h
  set count := power.toNat + 1 with hcount
  have hwhole : Digits (ds.take count ++ zeros (count - ds.length)) :=
    Digits.append (fun c hc => hds c (List.mem_of_mem_take hc)) (digits_zeros _)
  have hwhole_ne : ds.take count ++ zeros (count - ds.length) ≠ [] := by
    refine List.append_ne_nil_of_left_ne_nil ?_ _
    rw [ne_eq, List.take_eq_nil_iff]
    rintro (e | e)
    · omega
    · exact hne e
  have hlead : (ds.take count ++ zeros (count - ds.length)).head? ≠ some '0' := by
    cases ds with
    | nil => exact absurd rfl hne
    | cons d ds =>
      rw [hcount, List.take_succ_cons, List.cons_append, List.head?_cons]
      exact hhead
  by_cases hlong : ds.length ≤ count
  · have hform : (Written.positional false ds power).withZero =
        ⟨ds.take count ++ zeros (count - ds.length), some ['0'], none⟩ := by
      simp only [Written.positional, if_neg (not_lt.2 hp), ← hcount,
        List.drop_of_length_le hlong]
      rfl
    rw [hform]
    refine ⟨⟨hwhole, hwhole_ne, .inr hlead, ?_⟩, fun e => (Option.some_ne_none _ e.1), ?_⟩
    · intro es hes
      obtain rfl := Option.some.inj hes
      exact ⟨digits_zeros 1, List.cons_ne_nil _ _⟩
    · have hdigits : Nat.ofDigitChars 10 (ds.take count ++ zeros (count - ds.length) ++ ['0']) 0 =
          10 ^ (count - ds.length + 1) * n := by
        rw [List.take_of_length_le hlong, List.append_assoc, show ['0'] = zeros 1 from rfl, zeros,
          zeros, List.replicate_append_replicate, ← zeros, ofDigitChars_append_zeros, hvalue]
      simp only [decimalOf, Decimal.value, Option.getD_some, Option.getD_none, hdigits]
      rw [Nat.cast_mul, mul_comm ((10 ^ _ : Nat) : ℚ), mul_assoc, ← zpow_ten_natCast,
        ← zpow_ten_add]
      congr 2
      rw [List.length_singleton]
      omega
  · have hdrop : ds.drop count ≠ [] := by
      rw [ne_eq, List.drop_eq_nil_iff]
      omega
    have hform : (Written.positional false ds power).withZero =
        ⟨ds.take count ++ zeros (count - ds.length), some (ds.drop count), none⟩ := by
      have hpoint : Written.behindPoint false (ds.drop count) = some (ds.drop count) := by
        rw [Written.behindPoint, if_neg (by simpa using hdrop)]
      simp only [Written.positional, if_neg (not_lt.2 hp), ← hcount, hpoint]
      rw [Written.withZero]
      split
      · rename_i e _
        cases e
      · rename_i e _
        exact absurd (Option.some.inj e) hdrop
      · rfl
    rw [hform]
    refine ⟨⟨hwhole, hwhole_ne, .inr hlead, ?_⟩, fun e => (Option.some_ne_none _ e.1), ?_⟩
    · intro es hes
      obtain rfl := Option.some.inj hes
      exact ⟨fun c hc => hds c (List.mem_of_mem_drop hc), hdrop⟩
    · have hdigits :
          Nat.ofDigitChars 10 (ds.take count ++ zeros (count - ds.length) ++ ds.drop count) 0 =
            n := by
        rw [show count - ds.length = 0 by omega, zeros, List.replicate_zero, List.append_nil,
          List.take_append_drop, hvalue]
      simp only [decimalOf, Decimal.value, Option.getD_some, Option.getD_none, hdigits]
      congr 2
      rw [List.length_drop]
      omega

/-- The text of a decimal is in strict form and writes the decimal. -/
theorem written_writes {d : Decimal} (hd : 0 < d.digits) : Writes (d.written false) d.value := by
  have h := leading_toDigits hd
  set ds := Nat.toDigits 10 d.digits with hds
  set power : Int := ds.length + d.exponent - 1 with hpower
  have hvalue : d.value = d.digits * 10 ^ (power + 1 - ds.length) := by
    rw [Decimal.value, hpower, show (ds.length : Int) + d.exponent - 1 + 1 - ds.length =
      d.exponent by omega]
  rw [hvalue, Decimal.written]
  simp only [← hds, ← hpower]
  split
  · rcases lt_or_ge power 0 with hp | hp
    · exact h.positional_neg hp
    · exact h.positional_nonneg hp
  · exact h.scientific power

/-! ## Numbers in documents -/

theorem Writes.ofWritten {w : Written} {x : ℚ} (hw : Writes w x) (negative : Bool) :
    ofWritten negative w =
      .float (ofDecimal negative (decimalOf w).digits (decimalOf w).exponent) := by
  have hmarked : (w.fraction.isNone && w.exponent.isNone) = false := by
    rw [Bool.eq_false_iff]
    intro h
    rw [Bool.and_eq_true, Option.isNone_iff_eq_none, Option.isNone_iff_eq_none] at h
    exact hw.marked h
  rw [Document.ofWritten, hmarked, if_neg (by decide)]
  rfl

theorem Strict.head_isDigit {w : Written} (hw : Strict w) {c : Char} {cs : List Char}
    (h : w.whole = c :: cs) : c.isDigit = true :=
  hw.whole c (h ▸ List.mem_cons_self)

/-- A text that is a number in strict form behind its sign. -/
def IsNumber (cs : List Char) (d : Document) : Prop :=
  ∃ negative w, Strict w ∧ cs = sign negative ++ (w.whole ++ w.tail 'e') ∧ ofWritten negative w = d

theorem IsNumber.head {cs : List Char} {d : Document} (h : IsNumber cs d) :
    ∃ c ds, cs = c :: ds ∧ (c.isDigit = true ∨ c = '-') := by
  obtain ⟨negative, w, hw, rfl, _⟩ := h
  cases negative with
  | true => exact ⟨'-', _, rfl, .inr rfl⟩
  | false =>
    cases hwhole : w.whole with
    | nil => exact absurd hwhole hw.whole_ne
    | cons c ds => exact ⟨c, _, rfl, .inl (hw.head_isDigit hwhole)⟩

theorem IsNumber.read {cs : List Char} {d : Document} (h : IsNumber cs d) {rest : List Char}
    (hrest : Stops rest) : readNumber? (cs ++ rest) = some (d, rest) := by
  obtain ⟨negative, w, hw, rfl, rfl⟩ := h
  have hread := readWritten?_append hw hrest
  cases negative with
  | true =>
    rw [sign, if_pos rfl, List.append_assoc, List.singleton_append, readNumber?, hread]
    rfl
  | false =>
    cases hwhole : w.whole with
    | nil => exact absurd hwhole hw.whole_ne
    | cons c cs =>
      have hdigit := hw.head_isDigit hwhole
      have hc : c ≠ '-' := by
        rintro rfl
        exact absurd hdigit (by decide)
      rw [hwhole] at hread
      rw [sign, if_neg (by decide), List.nil_append, List.cons_append, List.cons_append] at *
      unfold readNumber?
      split
      · rename_i e
        exact absurd (List.cons.inj e).1 hc
      · rw [hread]
        rfl

theorem isNumber_float {negative : Bool} {m : Nat} {e : Int}
    (hx : WellFormed (.finite negative m e)) :
    IsNumber (floatText (.finite negative m e)).toList (.float (.finite negative m e)) := by
  rcases hx with ⟨rfl, rfl⟩ | ⟨hpos, hnormal⟩
  · refine ⟨negative, ⟨['0'], some ['0'], none⟩, ?_, ?_, rfl⟩
    · exact ⟨digits_zeros 1, List.cons_ne_nil _ _, .inl rfl, fun ds h => by
        obtain rfl := Option.some.inj h
        exact ⟨digits_zeros 1, List.cons_ne_nil _ _⟩⟩
    · rw [floatText, Binary64.text, String.toList_ofList]
      · rfl
      · intro _ h; cases h
      · intro _ h; cases h
  · have hwrites := written_writes (shortest_digits_pos hnormal hpos)
    refine ⟨negative, _, hwrites.strict, ?_, ?_⟩
    · obtain ⟨k, rfl⟩ := Nat.exists_eq_succ_of_ne_zero hpos.ne'
      rw [floatText, Binary64.text, String.toList_ofList]
      · rfl
      · intro h; cases h
      · intro _ h; cases h
      · intro _ h; cases h
    · rw [hwrites.ofWritten, ofDecimal_eq negative hnormal hpos]
      rw [hwrites.value]
      exact shortest_rounds hnormal hpos

theorem toList_toString_int (n : Int) :
    (toString n).toList = sign (decide (n < 0)) ++ Nat.toDigits 10 n.natAbs := by
  cases n with
  | ofNat n =>
    rw [decide_eq_false (Int.not_lt.2 (Int.natCast_nonneg n) : ¬ Int.ofNat n < 0), sign, if_neg (by decide),
      List.nil_append]
    exact Nat.toList_repr
  | negSucc n =>
    rw [decide_eq_true (Int.negSucc_lt_zero n), sign, if_pos rfl]
    show ("-" ++ Nat.repr (n + 1)).toList = _
    rw [String.toList_append, Nat.toList_repr]
    rfl

theorem isNumber_int (n : Int) : IsNumber (toString n).toList (.int n) := by
  refine ⟨decide (n < 0), ⟨Nat.toDigits 10 n.natAbs, none, none⟩, ?_, ?_, ?_⟩
  · refine ⟨digits_toDigits _, Nat.toDigits_ne_nil, ?_, fun ds h => by cases h⟩
    rcases Nat.eq_zero_or_pos n.natAbs with h | h
    · rw [h]
      exact .inl rfl
    · exact .inr (head?_toDigits h)
  · rw [toList_toString_int]
    exact congrArg _ (List.append_nil _).symm
  · simp only [ofWritten, Option.isNone_none, Bool.and_self, if_true,
      Nat.ofDigitChars_ten_toDigits, Text.signed, decide_eq_true_eq]
    congr 1
    split <;> omega

end Toolwright.Document
