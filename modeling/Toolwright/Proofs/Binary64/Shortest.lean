import Toolwright.Binary64.Reader
import Toolwright.Proofs.Binary64.Rounding

/-!
# Shortest decimals

The search for the shortest decimal of a number ends: decimals of seventeen digits are closer to
each other than the ends of the interval of a number. What it finds lies in the interval, so it is
read back as the number.
-/

namespace Toolwright.Binary64

set_option autoImplicit false

def Decimal.value (d : Decimal) : ℚ := d.digits * 10 ^ d.exponent

theorem zpow_ten_pos (e : Int) : (0 : ℚ) < 10 ^ e := zpow_pos (by norm_num) e

theorem zpow_ten_add (a b : Int) : (10 : ℚ) ^ (a + b) = 10 ^ a * 10 ^ b :=
  zpow_add₀ (by norm_num) a b

theorem zpow_ten_natCast (n : Nat) : (10 : ℚ) ^ (n : Int) = ((10 ^ n : Nat) : ℚ) := by
  rw [zpow_natCast, Nat.cast_pow, Nat.cast_ofNat]

theorem Decimal.ratio_den_pos (d : Decimal) : 0 < d.ratio.2 := by
  unfold ratio
  split
  · exact Nat.one_pos
  · positivity

theorem Decimal.ratio_value (d : Decimal) : (d.ratio.1 : ℚ) / d.ratio.2 = d.value := by
  unfold ratio value
  split
  · rename_i h
    obtain ⟨j, hj⟩ := Int.eq_ofNat_of_zero_le h
    simp only [hj, Int.toNat_natCast, Nat.cast_mul, Nat.cast_pow, Nat.cast_ofNat, zpow_natCast,
      Nat.cast_one, div_one]
  · rename_i h
    obtain ⟨j, hj⟩ := Int.eq_ofNat_of_zero_le (show 0 ≤ -d.exponent by omega)
    have hexp : d.exponent = -(j : Int) := by omega
    simp only [hexp, neg_neg, Int.toNat_natCast, Nat.cast_pow, Nat.cast_ofNat, zpow_neg,
      zpow_natCast, div_eq_mul_inv]

/-! ## The interval of a number -/

theorem interval_den_pos (m : Nat) (e : Int) : 0 < (interval m e).den :=
  scale_den_pos (by norm_num) e

theorem interval_unit (e : Int) :
    ((scale 1 4 e).1 : ℚ) / (scale 1 4 e).2 = 1 / 4 * 2 ^ e := by
  rw [scale_ratio]
  norm_num

theorem interval_value (m : Nat) (e : Int) :
    ((interval m e).value : ℚ) / (interval m e).den = m * 2 ^ e := by
  simp only [interval]
  rw [Nat.cast_mul, mul_div_assoc, interval_unit]
  push_cast
  ring

theorem interval_high (m : Nat) (e : Int) :
    ((interval m e).high : ℚ) / (interval m e).den = (m + 1 / 2) * 2 ^ e := by
  simp only [interval]
  rw [Nat.cast_mul, mul_div_assoc, interval_unit]
  push_cast
  ring

theorem interval_low {m : Nat} (e : Int) (hm : 0 < m) :
    ((interval m e).low : ℚ) / (interval m e).den = (m - reach m e) * 2 ^ e := by
  simp only [interval]
  rw [Nat.cast_mul, mul_div_assoc, interval_unit]
  by_cases h : Narrow m e
  · have hb : (m == 2 ^ 52 && decide (e > -1074)) = true := by
      simp only [Bool.and_eq_true, beq_iff_eq, decide_eq_true_eq]
      exact h
    rw [hb, if_pos rfl, Nat.cast_sub (by omega), reach, if_pos h]
    push_cast
    ring
  · have hb : (m == 2 ^ 52 && decide (e > -1074)) = false := by
      rw [Bool.eq_false_iff]
      simp only [ne_eq, Bool.and_eq_true, beq_iff_eq, decide_eq_true_eq]
      exact h
    rw [hb, if_neg (by simp), Nat.cast_sub (by omega), reach, if_neg h]
    push_cast
    ring

theorem cross_le {a b c d : Nat} (hb : 0 < b) (hd : 0 < d) :
    a * d ≤ c * b ↔ (a : ℚ) / b ≤ c / d := by
  rw [div_le_div_iff₀ (by exact_mod_cast hb) (by exact_mod_cast hd)]
  norm_cast

theorem cross_lt {a b c d : Nat} (hb : 0 < b) (hd : 0 < d) :
    a * d < c * b ↔ (a : ℚ) / b < c / d := by
  rw [div_lt_div_iff₀ (by exact_mod_cast hb) (by exact_mod_cast hd)]
  norm_cast

theorem interval_contains_iff {m : Nat} (e : Int) (hm : 0 < m) (d : Decimal) :
    (interval m e).contains d = true ↔ Rounds m e d.value := by
  have hden := interval_den_pos m e
  have hd := d.ratio_den_pos
  have hle := cross_le (a := (interval m e).low) (c := d.ratio.1) hden hd
  have hle' := cross_le (a := d.ratio.1) (c := (interval m e).high) hd hden
  have hlt := cross_lt (a := (interval m e).low) (c := d.ratio.1) hden hd
  have hlt' := cross_lt (a := d.ratio.1) (c := (interval m e).high) hd hden
  rw [interval_low e hm, d.ratio_value] at hle hlt
  rw [interval_high, d.ratio_value] at hle' hlt'
  have hclosed : (interval m e).closed = (m % 2 == 0) := rfl
  simp only [Interval.contains, Rounds, hclosed, beq_iff_eq]
  split
  · rename_i h
    simp only [Bool.and_eq_true, decide_eq_true_eq, hle, hle', h, or_true, and_true]
  · rename_i h
    simp only [Bool.and_eq_true, decide_eq_true_eq, hlt, hlt', h, or_false]
    exact ⟨fun t => ⟨t.1.le, t.2.le, t⟩, fun t => t.2.2⟩

theorem Rounds.pos {m : Nat} {e : Int} {x : ℚ} (hm : 0 < m) (hx : Rounds m e x) : 0 < x := by
  have h1 : (1 : ℚ) ≤ m := by exact_mod_cast hm
  refine lt_of_lt_of_le (mul_pos ?_ (zpow_two_pos e)) hx.1
  rcases reach_cases m e with h | h
  · rw [h]; linarith
  · rw [h]; linarith

/-! ## The search -/

theorem digitCount_bounds {n : Nat} (hn : 0 < n) :
    0 < digitCount n ∧ 10 ^ (digitCount n - 1) ≤ n ∧ n < 10 ^ digitCount n := by
  have hpos : 0 < digitCount n := Nat.length_toDigits_pos
  refine ⟨hpos, ?_, (Nat.length_toDigits_le_iff (by norm_num) hpos).1 le_rfl⟩
  by_cases h1 : digitCount n = 1
  · rw [h1]
    exact hn
  · by_contra hlt
    have := (Nat.length_toDigits_le_iff (n := n) (b := 10) (by norm_num)
      (show 0 < digitCount n - 1 by omega)).2 (not_le.1 hlt)
    unfold digitCount at *
    omega

theorem digitCount_value {n : Nat} (hn : 0 < n) :
    (10 : ℚ) ^ ((digitCount n : Int) - 1) ≤ n ∧ (n : ℚ) < 10 ^ (digitCount n : Int) := by
  obtain ⟨hpos, hlow, hhigh⟩ := digitCount_bounds hn
  constructor
  · rw [show (digitCount n : Int) - 1 = ((digitCount n - 1 : Nat) : Int) by omega,
      zpow_ten_natCast]
    exact_mod_cast hlow
  · rw [zpow_ten_natCast]
    exact_mod_cast hhigh

/-- The whole part of a ratio from one on has as many digits as the ratio. -/
theorem digitCount_div {a b : Nat} (hb : 0 < b) (hab : b ≤ a) :
    (10 : ℚ) ^ ((digitCount (a / b) : Int) - 1) ≤ a / b ∧
      (a : ℚ) / b < 10 ^ (digitCount (a / b) : Int) := by
  have hq : 0 < a / b := Nat.div_pos hab hb
  obtain ⟨hsum, hf0, hf1⟩ := quotient_bounds a hb
  obtain ⟨hpos, _, hhigh⟩ := digitCount_bounds hq
  constructor
  · linarith [(digitCount_value hq).1]
  · have : ((a / b : Nat) : ℚ) + 1 ≤ 10 ^ (digitCount (a / b) : Int) := by
      rw [zpow_ten_natCast]
      exact_mod_cast hhigh
    linarith

theorem magnitude_bounds {i : Interval} (hden : 0 < i.den) (hval : 0 < i.value) :
    (10 : ℚ) ^ (i.magnitude - 1) ≤ i.value / i.den ∧
      (i.value : ℚ) / i.den ≤ 10 ^ i.magnitude := by
  unfold Interval.magnitude
  split
  · rename_i h
    obtain ⟨h1, h2⟩ := digitCount_div hden h
    exact ⟨h1, h2.le⟩
  · rename_i h
    obtain ⟨h1, h2⟩ := digitCount_div hval (by omega : i.value ≤ i.den)
    set k : Int := (digitCount (i.den / i.value) : Int)
    have hinv : (i.value : ℚ) / i.den = ((i.den : ℚ) / i.value)⁻¹ := by rw [inv_div]
    constructor
    · rw [show 1 - k - 1 = -k by ring, zpow_neg, hinv]
      exact inv_anti₀ (by positivity) h2.le
    · rw [show 1 - k = -(k - 1) by ring, zpow_neg, hinv]
      exact inv_anti₀ (zpow_ten_pos _) h1

/-- The decimals that are tried are the two around the value. -/
theorem floorAt_bounds {i : Interval} (hden : 0 < i.den) (e : Int) :
    (i.floorAt e : ℚ) * 10 ^ e ≤ i.value / i.den ∧
      (i.value : ℚ) / i.den < ((i.floorAt e + 1 : Nat) : ℚ) * 10 ^ e := by
  have hpos : (0 : ℚ) < i.den := by exact_mod_cast hden
  have hfloor : (i.floorAt e : ℚ) ≤ i.value / i.den / 10 ^ e ∧
      (i.value : ℚ) / i.den / 10 ^ e < i.floorAt e + 1 := by
    by_cases h : 0 ≤ e
    · obtain ⟨j, hj⟩ := Int.eq_ofNat_of_zero_le h
      obtain ⟨hsum, hf0, hf1⟩ := quotient_bounds i.value
        (show 0 < i.den * 10 ^ j by positivity)
      have hf : i.floorAt e = i.value / (i.den * 10 ^ j) := by
        rw [Interval.floorAt, if_pos h, hj, Int.toNat_natCast]
      rw [hf, hj, zpow_natCast, div_div]
      push_cast at hsum hf0 hf1 ⊢
      constructor <;> linarith
    · obtain ⟨j, hj⟩ := Int.eq_ofNat_of_zero_le (show 0 ≤ -e by omega)
      obtain ⟨hsum, hf0, hf1⟩ := quotient_bounds (i.value * 10 ^ j) hden
      have hf : i.floorAt e = i.value * 10 ^ j / i.den := by
        rw [Interval.floorAt, if_neg h, hj, Int.toNat_natCast]
      have he : (i.value : ℚ) / i.den / 10 ^ e = ((i.value * 10 ^ j : Nat) : ℚ) / i.den := by
        rw [show e = -(j : Int) by omega, zpow_neg, zpow_natCast]
        push_cast
        field_simp
      rw [hf, he]
      constructor <;> linarith
  constructor
  · exact (le_div_iff₀ (zpow_ten_pos e)).1 hfloor.1
  · push_cast
    exact (div_lt_iff₀ (zpow_ten_pos e)).1 hfloor.2

theorem nearer_cases (i : Interval) (below above : Decimal) :
    i.nearer below above = below ∨ i.nearer below above = above := by
  unfold Interval.nearer
  simp only
  split
  · exact .inl rfl
  · exact .inr rfl

theorem atDigits?_contains {i : Interval} {count : Nat} {d : Decimal}
    (h : i.atDigits? count = some d) : i.contains d = true := by
  simp only [Interval.atDigits?] at h
  split at h
  · rename_i h1 h2
    obtain rfl := Option.some.inj h
    rcases nearer_cases i ⟨i.floorAt (i.magnitude - count), i.magnitude - count⟩
      ⟨i.floorAt (i.magnitude - count) + 1, i.magnitude - count⟩ with h | h
    · rw [h]; exact h1
    · rw [h]; exact h2
  · rename_i h1 _
    obtain rfl := Option.some.inj h
    exact h1
  · rename_i _ h2
    obtain rfl := Option.some.inj h
    exact h2
  · cases h

theorem atDigits?_ne_none {i : Interval} {count : Nat} {k : Nat} (hk : k ≤ 1)
    (h : i.contains ⟨i.floorAt (i.magnitude - count) + k, i.magnitude - count⟩ = true) :
    i.atDigits? count ≠ none := by
  intro hnone
  simp only [Interval.atDigits?] at hnone
  split at hnone
  · cases hnone
  · cases hnone
  · cases hnone
  · rename_i h1 h2
    obtain rfl | rfl : k = 0 ∨ k = 1 := by omega
    · exact absurd h (by rw [Nat.add_zero, h1]; simp)
    · exact absurd h (by rw [h2]; simp)

/-- Strictly between the ends of its interval a number is met whatever its mantissa. -/
theorem Rounds.of_lt {m : Nat} {e : Int} {x : ℚ} (low : (m - reach m e) * 2 ^ e < x)
    (high : x < (m + 1 / 2) * 2 ^ e) : Rounds m e x :=
  ⟨low.le, high.le, .inl ⟨low, high⟩⟩

/-- Decimals of seventeen digits lie so close that one of the two around a number is nearer to it
than to its neighbours. -/
theorem seventeen_digits {m : Nat} {e : Int} (hm : Normal m e) (hpos : 0 < m) :
    (interval m e).atDigits? 17 ≠ none := by
  set i := interval m e with hi
  have hden : 0 < i.den := interval_den_pos m e
  have hmq : (1 : ℚ) ≤ m := by exact_mod_cast hpos
  have hval : (i.value : ℚ) / i.den = m * 2 ^ e := interval_value m e
  have hvpos : 0 < i.value := by
    rcases Nat.eq_zero_or_pos i.value with h | h
    · rw [h, Nat.cast_zero, zero_div] at hval
      exact absurd hval.symm (mul_pos (by linarith) (zpow_two_pos e)).ne'
    · exact h
  obtain ⟨hmag, _⟩ := magnitude_bounds hden hvpos
  obtain ⟨hbelow, habove⟩ := floorAt_bounds hden (i.magnitude - (17 : Nat))
  generalize hp : i.magnitude - ((17 : Nat) : Int) = p at hbelow habove
  generalize hf : i.floorAt p = f at hbelow habove
  have hspace : (10 : ℚ) ^ p * 10 ^ 16 ≤ m * 2 ^ e := by
    rw [← hval]
    refine le_trans (le_of_eq ?_) hmag
    rw [← zpow_natCast, ← zpow_ten_add]
    congr 1
    push_cast
    omega
  rw [hval] at hbelow habove
  have h2 := zpow_two_pos e
  have h10 := zpow_ten_pos p
  push_cast at habove
  by_cases hlow : (m - reach m e) * 2 ^ e < (f : ℚ) * 10 ^ p
  · refine atDigits?_ne_none (Nat.zero_le 1) ((interval_contains_iff e hpos _).2 ?_)
    rw [hp, hf]
    refine Rounds.of_lt hlow (lt_of_le_of_lt hbelow ?_)
    exact mul_lt_mul_of_pos_right (by linarith) h2
  · refine atDigits?_ne_none (le_refl 1) ((interval_contains_iff e hpos _).2 ?_)
    have hvalue : Decimal.value ⟨f + 1, p⟩ = (f + 1) * 10 ^ p := by
      simp only [Decimal.value, Nat.cast_add, Nat.cast_one]
    rw [hp, hf, hvalue]
    have hreach : 0 < reach m e := by
      rcases reach_cases m e with h | h
      · rw [h]; norm_num
      · rw [h]; norm_num
    refine Rounds.of_lt (lt_trans (mul_lt_mul_of_pos_right (by linarith) h2) habove) ?_
    -- the spacing is less than the width of the interval
    have hwidth : (10 : ℚ) ^ p < (reach m e + 1 / 2) * 2 ^ e := by
      by_cases hn : Narrow m e
      · have hm52 : (m : ℚ) = 2 ^ 52 := by exact_mod_cast hn.1
        rw [hm52] at hspace
        rw [reach, if_pos hn]
        nlinarith
      · have hm53 : (m : ℚ) < 2 ^ 53 := by exact_mod_cast hm.1
        rw [reach, if_neg hn]
        nlinarith
    nlinarith

/-! ## What is found -/

theorem strip_value (fuel : Nat) (d : Decimal) : (d.strip fuel).value = d.value := by
  induction fuel generalizing d with
  | zero => rfl
  | succ fuel ih =>
    unfold Decimal.strip
    split
    · rename_i h
      have hmod : d.digits % 10 = 0 := by
        simp only [Bool.and_eq_true, beq_iff_eq] at h
        exact h.1
      rw [ih]
      have hdiv : (d.digits : ℚ) = ((d.digits / 10 : Nat) : ℚ) * 10 := by
        exact_mod_cast (Nat.div_mul_cancel (Nat.dvd_of_mod_eq_zero hmod)).symm
      simp only [Decimal.value]
      rw [hdiv, zpow_ten_add, zpow_one]
      ring
    · rfl

/-- The shortest decimal of a number lies in its interval. -/
theorem shortest_rounds {m : Nat} {e : Int} (hm : Normal m e) (hpos : 0 < m) :
    Rounds m e (shortest m e).value := by
  simp only [shortest]
  split
  · rename_i d hd
    obtain ⟨n, _, hn⟩ := List.exists_of_findSome?_eq_some hd
    rw [strip_value]
    exact (interval_contains_iff e hpos d).1 (atDigits?_contains hn)
  · rename_i hnone
    rw [List.findSome?_eq_none_iff] at hnone
    exact absurd (hnone 16 (by simp)) (seventeen_digits hm hpos)

theorem shortest_digits_pos {m : Nat} {e : Int} (hm : Normal m e) (hpos : 0 < m) :
    0 < (shortest m e).digits := by
  have h := (shortest_rounds hm hpos).pos hpos
  rw [Decimal.value] at h
  have := (pos_iff_pos_of_mul_pos h).2 (zpow_ten_pos _)
  exact_mod_cast this

/-! ## Reading back -/

theorem two_pow_lt_ten_pow : (2 : ℚ) ^ (1075 : Int) < 10 ^ (399 : Int) := by
  calc (2 : ℚ) ^ (1075 : Int) ≤ 2 ^ (3 * 359 : Int) := zpow_le_zpow_right₀ (by norm_num) (by norm_num)
    _ = (2 ^ 3) ^ (359 : Int) := by rw [zpow_mul]; rfl
    _ ≤ 10 ^ (359 : Int) := zpow_le_zpow_left₀ (by norm_num) (by norm_num) (by norm_num)
    _ < 10 ^ (399 : Int) := zpow_lt_zpow_right₀ (by norm_num) (by norm_num)

/-- The numbers lie far inside the range that is expanded. -/
theorem Rounds.range {m : Nat} {e : Int} {x : ℚ} (hm : Normal m e) (hpos : 0 < m)
    (hx : Rounds m e x) : (10 : ℚ) ^ (-400 : Int) < x ∧ x < 10 ^ (399 : Int) := by
  obtain ⟨hm53, hleast, hmost, _⟩ := hm
  have hmq : (1 : ℚ) ≤ m := by exact_mod_cast hpos
  have hm53q : (m : ℚ) + 1 ≤ 2 ^ 53 := by exact_mod_cast hm53
  constructor
  · have h1 : (2 : ℚ) ^ (-1074 : Int) ≤ 2 ^ e := zpow_le_zpow_right₀ (by norm_num) hleast
    have h2 : (1 / 2 : ℚ) ≤ m - reach m e := by
      rcases reach_cases m e with h | h
      · rw [h]; linarith
      · rw [h]; linarith
    have h3 : (10 : ℚ) ^ (-400 : Int) < 1 / 2 * 2 ^ (-1074 : Int) := by
      calc (10 : ℚ) ^ (-400 : Int) < 10 ^ (-399 : Int) :=
            zpow_lt_zpow_right₀ (by norm_num) (by norm_num)
        _ < 2 ^ (-1075 : Int) := by
            rw [zpow_neg, zpow_neg]
            exact inv_strictAnti₀ (zpow_two_pos _) two_pow_lt_ten_pow
        _ = 1 / 2 * 2 ^ (-1074 : Int) := by
            rw [show (-1075 : Int) = -1 + -1074 by norm_num, zpow_two_add]
            norm_num
    calc (10 : ℚ) ^ (-400 : Int) < 1 / 2 * 2 ^ (-1074 : Int) := h3
      _ ≤ (m - reach m e) * 2 ^ e := mul_le_mul h2 h1 (by positivity) (by linarith)
      _ ≤ x := hx.1
  · have h1 : (2 : ℚ) ^ e ≤ 2 ^ (971 : Int) := zpow_le_zpow_right₀ (by norm_num) hmost
    calc x ≤ (m + 1 / 2) * 2 ^ e := hx.2.1
      _ ≤ 2 ^ 53 * 2 ^ (971 : Int) := mul_le_mul (by linarith) h1 (by positivity) (by positivity)
      _ = 2 ^ (1024 : Int) := by rw [← zpow_natCast, ← zpow_two_add]; norm_num
      _ ≤ 2 ^ (1075 : Int) := zpow_le_zpow_right₀ (by norm_num) (by norm_num)
      _ < 10 ^ (399 : Int) := two_pow_lt_ten_pow

/-- A decimal in the interval of a number is read as the number. -/
theorem ofDecimal_eq (negative : Bool) {m : Nat} {e : Int} {d : Decimal} (hm : Normal m e)
    (hpos : 0 < m) (hd : Rounds m e d.value) :
    ofDecimal negative d.digits d.exponent = .finite negative m e := by
  have hdpos : 0 < d.digits := by
    have h := hd.pos hpos
    rw [Decimal.value] at h
    exact_mod_cast (pos_iff_pos_of_mul_pos h).2 (zpow_ten_pos _)
  obtain ⟨hcount, hlow, hhigh⟩ := digitCount_bounds hdpos
  obtain ⟨hmin, hmax⟩ := hd.range hm hpos
  obtain ⟨hlow, hhigh⟩ := digitCount_value hdpos
  have hsmall : ¬ d.exponent + digitCount d.digits > 400 := by
    intro hbig
    have h1 : (10 : ℚ) ^ ((digitCount d.digits : Int) - 1) * 10 ^ d.exponent ≤ d.value :=
      mul_le_mul_of_nonneg_right hlow (zpow_ten_pos _).le
    rw [← zpow_ten_add] at h1
    have := (zpow_lt_zpow_iff_right₀ (by norm_num)).1 (h1.trans_lt hmax)
    omega
  have hlarge : ¬ d.exponent + digitCount d.digits < -400 := by
    intro hbig
    have h1 : d.value < (10 : ℚ) ^ (digitCount d.digits : Int) * 10 ^ d.exponent :=
      mul_lt_mul_of_pos_right hhigh (zpow_ten_pos _)
    rw [← zpow_ten_add] at h1
    have := (zpow_lt_zpow_iff_right₀ (by norm_num)).1 (hmin.trans h1)
    omega
  have hnum : 0 < d.ratio.1 := by
    have h := hd.pos hpos
    rw [← d.ratio_value] at h
    have hden : (0 : ℚ) < d.ratio.2 := by exact_mod_cast d.ratio_den_pos
    exact_mod_cast (div_pos_iff_of_pos_right hden).1 h
  unfold ofDecimal
  rw [if_neg (by simp; omega), if_neg hsmall, if_neg hlarge]
  exact ofRatio_eq negative hnum d.ratio_den_pos hm hpos (d.ratio_value.symm ▸ hd)

end Toolwright.Binary64
