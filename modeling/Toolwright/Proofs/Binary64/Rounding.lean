import Mathlib.Algebra.Order.Field.Power
import Mathlib.Data.Nat.Log
import Mathlib.Tactic.FieldSimp
import Mathlib.Tactic.Linarith
import Mathlib.Tactic.NormNum
import Mathlib.Tactic.Positivity
import Mathlib.Tactic.Ring
import Toolwright.Binary64.Basic

/-!
# Rounding to binary numbers

A ratio is rounded to the number in whose interval it lies. The interval reaches half a unit to both
sides, or a quarter of one below a power of two, and has its ends if the mantissa is even.
-/

namespace Toolwright.Binary64

set_option autoImplicit false

/-- The mantissas and exponents of the finite numbers: 53 bits unless the exponent is least. -/
def Normal (m : Nat) (e : Int) : Prop :=
  m < 2 ^ 53 ∧ -1074 ≤ e ∧ e ≤ 971 ∧ (2 ^ 52 ≤ m ∨ e = -1074)

/-- The form in which numbers are kept: a zero has no other exponent than zero. -/
def WellFormed : Binary64 → Prop
  | .finite _ m e => m = 0 ∧ e = 0 ∨ 0 < m ∧ Normal m e
  | _ => True

def Narrow (m : Nat) (e : Int) : Prop := m = 2 ^ 52 ∧ -1074 < e

instance (m : Nat) (e : Int) : Decidable (Narrow m e) :=
  inferInstanceAs (Decidable (_ ∧ _))

/-- How far the interval of a number reaches below it, in units of the last place. -/
def reach (m : Nat) (e : Int) : ℚ := if Narrow m e then 1 / 4 else 1 / 2

/-- The magnitudes that are nearer to a number than to its neighbours, in units of `2^e`. -/
def Rounds (m : Nat) (e : Int) (x : ℚ) : Prop :=
  (m - reach m e) * 2 ^ e ≤ x ∧ x ≤ (m + 1 / 2) * 2 ^ e ∧
    ((m - reach m e) * 2 ^ e < x ∧ x < (m + 1 / 2) * 2 ^ e ∨ m % 2 = 0)

theorem scale_den_pos {n d : Nat} (hd : 0 < d) (k : Int) : 0 < (scale n d k).2 := by
  unfold scale
  split
  · exact hd
  · positivity

theorem scale_ratio (n d : Nat) (k : Int) :
    ((scale n d k).1 : ℚ) / (scale n d k).2 = n / d * 2 ^ k := by
  unfold scale
  split
  · rename_i h
    obtain ⟨j, rfl⟩ := Int.eq_ofNat_of_zero_le h
    simp only [Int.toNat_natCast, Nat.cast_mul, Nat.cast_pow, Nat.cast_ofNat, zpow_natCast]
    ring
  · rename_i h
    obtain ⟨j, hj⟩ := Int.eq_ofNat_of_zero_le (show 0 ≤ -k by omega)
    obtain rfl : k = -(j : Int) := by omega
    simp only [neg_neg, Int.toNat_natCast, Nat.cast_mul, Nat.cast_pow, Nat.cast_ofNat, zpow_neg,
      zpow_natCast]
    rw [div_mul_eq_div_div, div_eq_mul_inv]

theorem quotient_bounds (num : Nat) {den : Nat} (hd : 0 < den) :
    ((num / den : Nat) : ℚ) + ((num % den : Nat) : ℚ) / den = num / den ∧
      0 ≤ ((num % den : Nat) : ℚ) / den ∧ ((num % den : Nat) : ℚ) / den < 1 := by
  have hpos : (0 : ℚ) < den := by exact_mod_cast hd
  refine ⟨?_, by positivity, ?_⟩
  · have h : (num : ℚ) = den * (num / den : Nat) + (num % den : Nat) := by
      exact_mod_cast (Nat.div_add_mod num den).symm
    rw [h]
    field_simp
  · rw [div_lt_one hpos]
    exact_mod_cast Nat.mod_lt num hd

theorem roundDiv_cases (num : Nat) {den : Nat} (hd : 0 < den) :
    let q := num / den
    let f : ℚ := ((num % den : Nat) : ℚ) / den
    (f < 1 / 2 ∧ roundDiv num den = q) ∨ (1 / 2 < f ∧ roundDiv num den = q + 1) ∨
      (f = 1 / 2 ∧ q % 2 = 0 ∧ roundDiv num den = q) ∨
      (f = 1 / 2 ∧ q % 2 = 1 ∧ roundDiv num den = q + 1) := by
  intro q f
  have hpos : (0 : ℚ) < den := by exact_mod_cast hd
  unfold roundDiv
  rcases lt_trichotomy (2 * (num % den)) den with h | h | h
  · have hf : f < 1 / 2 := by
      rw [div_lt_div_iff₀ hpos (by norm_num)]
      have : ((2 * (num % den) : Nat) : ℚ) < den := by exact_mod_cast h
      push_cast at this
      linarith
    refine .inl ⟨hf, ?_⟩
    rw [if_neg (by simp; omega)]
  · have hf : f = 1 / 2 := by
      rw [div_eq_div_iff hpos.ne' (by norm_num)]
      have : ((2 * (num % den) : Nat) : ℚ) = den := by exact_mod_cast h
      push_cast at this
      linarith
    rcases Nat.mod_two_eq_zero_or_one q with hq | hq
    · refine .inr (.inr (.inl ⟨hf, hq, ?_⟩))
      rw [if_neg (by simp; omega)]
    · refine .inr (.inr (.inr ⟨hf, hq, ?_⟩))
      rw [if_pos (by simp; omega)]
  · have hf : 1 / 2 < f := by
      rw [div_lt_div_iff₀ (by norm_num) hpos]
      have : (den : ℚ) < ((2 * (num % den) : Nat) : ℚ) := by exact_mod_cast h
      push_cast at this
      linarith
    refine .inr (.inl ⟨hf, ?_⟩)
    rw [if_pos (by simp; omega)]

theorem roundDiv_eq {num den m : Nat} (hd : 0 < den) (low : (m : ℚ) - 1 / 2 ≤ num / den)
    (high : (num : ℚ) / den ≤ m + 1 / 2)
    (tie : ((m : ℚ) - 1 / 2 < num / den ∧ (num : ℚ) / den < m + 1 / 2) ∨ m % 2 = 0) :
    roundDiv num den = m := by
  obtain ⟨hsum, hf0, hf1⟩ := quotient_bounds num hd
  rw [← hsum] at low high tie
  have above : ∀ {a b : Nat}, (a : ℚ) < b + 1 → a ≤ b := by
    intro a b h
    have : a < b + 1 := by exact_mod_cast h
    omega
  rcases roundDiv_cases num hd with ⟨hf, h⟩ | ⟨hf, h⟩ | ⟨hf, hq, h⟩ | ⟨hf, hq, h⟩
  · rw [h]
    exact Nat.le_antisymm (above (by linarith)) (above (by linarith))
  · rw [h]
    refine Nat.le_antisymm (above ?_) (above ?_)
    · push_cast; linarith
    · push_cast; linarith
  · rw [h]
    have h1 : num / den ≤ m := above (by linarith)
    have h2 : m ≤ num / den + 1 := above (by push_cast; linarith)
    rcases tie with ⟨_, t⟩ | t
    · have : m ≤ num / den := above (by linarith)
      omega
    · omega
  · rw [h]
    have h1 : num / den ≤ m := above (by linarith)
    have h2 : m ≤ num / den + 1 := above (by push_cast; linarith)
    rcases tie with ⟨_, t⟩ | t
    · have : num / den + 1 ≤ m := above (by push_cast; linarith)
      omega
    · omega

theorem zpow_two_pos (e : Int) : (0 : ℚ) < 2 ^ e := zpow_pos (by norm_num) e

theorem zpow_two_add (a b : Int) : (2 : ℚ) ^ (a + b) = 2 ^ a * 2 ^ b :=
  zpow_add₀ (by norm_num) a b

theorem scale_neg_mul (n d : Nat) (k : Int) :
    ((scale n d (-k)).1 : ℚ) / (scale n d (-k)).2 * 2 ^ k = n / d := by
  rw [scale_ratio, mul_assoc, ← zpow_two_add, neg_add_cancel, zpow_zero, mul_one]

theorem ratio_log2_bounds {n d : Nat} (hn : 0 < n) (hd : 0 < d) :
    (2 : ℚ) ^ ((n.log2 : Int) - d.log2 - 1) < n / d ∧
      (n : ℚ) / d < 2 ^ ((n.log2 : Int) - d.log2 + 1) := by
  have hn1 : (2 : ℚ) ^ (n.log2 : Int) ≤ n := by
    exact_mod_cast Nat.log2_self_le hn.ne'
  have hn2 : (n : ℚ) < 2 ^ ((n.log2 : Int) + 1) := by
    exact_mod_cast Nat.lt_log2_self
  have hd1 : (2 : ℚ) ^ (d.log2 : Int) ≤ d := by
    exact_mod_cast Nat.log2_self_le hd.ne'
  have hd2 : (d : ℚ) < 2 ^ ((d.log2 : Int) + 1) := by
    exact_mod_cast Nat.lt_log2_self
  have hpos : (0 : ℚ) < d := by exact_mod_cast hd
  constructor
  · rw [lt_div_iff₀ hpos]
    calc (2 : ℚ) ^ ((n.log2 : Int) - d.log2 - 1) * d
        < 2 ^ ((n.log2 : Int) - d.log2 - 1) * 2 ^ ((d.log2 : Int) + 1) :=
          mul_lt_mul_of_pos_left hd2 (zpow_two_pos _)
      _ = 2 ^ (n.log2 : Int) := by rw [← zpow_two_add]; congr 1; omega
      _ ≤ n := hn1
  · rw [div_lt_iff₀ hpos]
    calc (n : ℚ) < 2 ^ ((n.log2 : Int) + 1) := hn2
      _ = 2 ^ ((n.log2 : Int) - d.log2 + 1) * 2 ^ (d.log2 : Int) := by
          rw [← zpow_two_add]; congr 1; omega
      _ ≤ 2 ^ ((n.log2 : Int) - d.log2 + 1) * d :=
          mul_le_mul_of_nonneg_left hd1 (zpow_two_pos _).le

/-- Exponents below the least one are raised to it; the others give a mantissa of 53 bits. -/
theorem exponentFor_spec {n d : Nat} (hn : 0 < n) (hd : 0 < d) :
    ∃ e : Int, exponentFor n d = max e (-1074) ∧
      (2 : ℚ) ^ (e + 52) ≤ n / d ∧ (n : ℚ) / d < 2 ^ (e + 53) := by
  obtain ⟨low, high⟩ := ratio_log2_bounds hn hd
  set e : Int := (n.log2 : Int) - d.log2 - 53 with he
  set scaled := scale n d (-e) with hs
  have hpos : (0 : ℚ) < scaled.2 := by exact_mod_cast scale_den_pos hd (-e)
  have hx : (n : ℚ) / d = scaled.1 / scaled.2 * 2 ^ e := (scale_neg_mul n d e).symm
  have hquot : scaled.1 / scaled.2 < 2 ^ 53 ↔ (n : ℚ) / d < 2 ^ (e + 53) := by
    rw [Nat.div_lt_iff_lt_mul (by exact_mod_cast hpos), add_comm e, zpow_two_add, hx,
      mul_lt_mul_iff_left₀ (zpow_two_pos e), div_lt_iff₀ hpos]
    norm_cast
  unfold exponentFor
  by_cases h : scaled.1 / scaled.2 < 2 ^ 53
  · refine ⟨e, ?_, ?_, hquot.1 h⟩
    · simp only [← he, ← hs, if_pos h]
    · rw [show e + 52 = (n.log2 : Int) - d.log2 - 1 by omega]
      exact low.le
  · refine ⟨e + 1, ?_, ?_, ?_⟩
    · simp only [← he, ← hs, if_neg h]
    · rw [show e + 1 + 52 = e + 53 by ring]
      exact not_lt.1 fun hlt => h (hquot.2 hlt)
    · rw [show e + 1 + 53 = (n.log2 : Int) - d.log2 + 1 by omega]
      exact high

theorem exponent_unique {x : ℚ} {a b : Int} (ha : (2 : ℚ) ^ a ≤ x) (ha' : x < 2 ^ (a + 1))
    (hb : (2 : ℚ) ^ b ≤ x) (hb' : x < 2 ^ (b + 1)) : a = b := by
  have h1 : a < b + 1 := (zpow_lt_zpow_iff_right₀ (by norm_num)).1 (ha.trans_lt hb')
  have h2 : b < a + 1 := (zpow_lt_zpow_iff_right₀ (by norm_num)).1 (hb.trans_lt ha')
  omega

theorem reach_cases (m : Nat) (e : Int) : reach m e = 1 / 4 ∨ reach m e = 1 / 2 := by
  unfold reach
  split
  · exact .inl rfl
  · exact .inr rfl

theorem Rounds.narrow {m : Nat} {e : Int} {x : ℚ} (hm : Normal m e) (hx : Rounds m e x)
    (he : e ≠ -1074) (below : x < 2 ^ (e + 52)) : Narrow m e := by
  obtain ⟨_, hlow, _, hbits⟩ := hm
  have h52 : 2 ^ 52 ≤ m := hbits.resolve_right he
  refine ⟨?_, by omega⟩
  rw [add_comm, zpow_two_add] at below
  have hlt := (mul_lt_mul_iff_left₀ (zpow_two_pos e)).1 (hx.1.trans_lt below)
  norm_num at hlt
  have hle : (m : ℚ) < 2 ^ 52 + 1 := by
    rcases reach_cases m e with h | h
    · rw [h] at hlt; linarith
    · rw [h] at hlt; linarith
  have : m < 2 ^ 52 + 1 := by exact_mod_cast hle
  omega

theorem ofRatio_inside (negative : Bool) {n d m : Nat} {e : Int} (hn : n ≠ 0)
    (he : exponentFor n d = e) (hm : roundDiv (scale n d (-e)).1 (scale n d (-e)).2 = m)
    (hpos : m ≠ 0) (hbits : m < 2 ^ 53) (hmost : e ≤ 971) :
    ofRatio negative n d = .finite negative m e := by
  have hcarry : (m == 2 ^ 53) = false := by
    rw [beq_eq_false_iff_ne]
    omega
  simp only [ofRatio, he, hm, hcarry, beq_eq_false_iff_ne.2 hn, beq_eq_false_iff_ne.2 hpos,
    Bool.false_eq_true, if_false]
  rw [if_neg (by omega)]

theorem ofRatio_carry (negative : Bool) {n d : Nat} {e : Int} (hn : n ≠ 0)
    (he : exponentFor n d = e) (hm : roundDiv (scale n d (-e)).1 (scale n d (-e)).2 = 2 ^ 53)
    (hmost : e + 1 ≤ 971) : ofRatio negative n d = .finite negative (2 ^ 52) (e + 1) := by
  have hzero : ((2 : Nat) ^ 52 == 0) = false := by decide
  simp only [ofRatio, he, hm, beq_self_eq_true, beq_eq_false_iff_ne.2 hn, hzero,
    Bool.false_eq_true, if_false, if_true]
  rw [if_neg (by omega)]

theorem ofRatio_eq (negative : Bool) {n d m : Nat} {e : Int} (hn : 0 < n) (hd : 0 < d)
    (hm : Normal m e) (hpos : 0 < m) (hx : Rounds m e (n / d)) :
    ofRatio negative n d = .finite negative m e := by
  obtain ⟨e₀, hexp, low, high⟩ := exponentFor_spec hn hd
  obtain ⟨hm53, hleast, hmost, hbits⟩ := hm
  have hmq : (m : ℚ) + 1 ≤ 2 ^ 53 := by exact_mod_cast hm53
  have hbelow : (n : ℚ) / d < 2 ^ (e + 53) := by
    rw [add_comm, zpow_two_add]
    refine hx.2.1.trans_lt (mul_lt_mul_of_pos_right ?_ (zpow_two_pos e))
    norm_num
    linarith
  by_cases hcase : e = -1074 ∨ (2 : ℚ) ^ (e + 52) ≤ n / d
  · -- the ratio lies in the binade of the number
    have hexp' : exponentFor n d = e := by
      rcases hcase with rfl | hcase
      · rw [hexp]
        have : e₀ + 52 < -1074 + 53 :=
          (zpow_lt_zpow_iff_right₀ (by norm_num)).1 (low.trans_lt hbelow)
        omega
      · have : e₀ + 52 = e + 52 := exponent_unique low
          (by rw [show e₀ + 52 + 1 = e₀ + 53 by ring]; exact high) hcase
          (by rw [show e + 52 + 1 = e + 53 by ring]; exact hbelow)
        omega
    have hround : roundDiv (scale n d (-e)).1 (scale n d (-e)).2 = m := by
      obtain ⟨h1, h2, h3⟩ := hx
      rw [← scale_neg_mul n d e] at h1 h2 h3
      have h1 := le_of_mul_le_mul_right h1 (zpow_two_pos e)
      have h2 := le_of_mul_le_mul_right h2 (zpow_two_pos e)
      have hreach : reach m e ≤ 1 / 2 := by
        rcases reach_cases m e with h | h
        · rw [h]; norm_num
        · rw [h]
      refine roundDiv_eq (scale_den_pos hd _) (by linarith) h2 (h3.imp_left fun h => ⟨?_, ?_⟩)
      · exact lt_of_le_of_lt (by linarith) (lt_of_mul_lt_mul_right h.1 (zpow_two_pos e).le)
      · exact lt_of_mul_lt_mul_right h.2 (zpow_two_pos e).le
    exact ofRatio_inside negative hn.ne' hexp' hround hpos.ne' hm53 hmost
  · -- it lies just below the power of two that the number is
    push Not at hcase
    obtain ⟨hne, hlt⟩ := hcase
    have hnarrow := Rounds.narrow ⟨hm53, hleast, hmost, hbits⟩ hx hne hlt
    obtain ⟨hm52, _⟩ := hnarrow
    have hreach : reach m e = 1 / 4 := if_pos ⟨hm52, by omega⟩
    have hlow : ((2 : ℚ) ^ 53 - 1 / 2) * 2 ^ (e - 1) ≤ n / d := by
      have h := hx.1
      rw [hreach, hm52] at h
      calc ((2 : ℚ) ^ 53 - 1 / 2) * 2 ^ (e - 1)
          = (((2 ^ 52 : Nat) : ℚ) - 1 / 4) * (2 ^ (e - 1) * 2 ^ (1 : Int)) := by
            norm_num; ring
        _ = (((2 ^ 52 : Nat) : ℚ) - 1 / 4) * 2 ^ e := by
            rw [← zpow_two_add, sub_add_cancel]
        _ ≤ n / d := h
    have hexp' : exponentFor n d = e - 1 := by
      have : e₀ + 52 = e - 1 + 52 := by
        refine exponent_unique low (by rw [show e₀ + 52 + 1 = e₀ + 53 by ring]; exact high) ?_ ?_
        · refine le_trans ?_ hlow
          rw [add_comm, zpow_two_add]
          exact mul_le_mul_of_nonneg_right (by norm_num) (zpow_two_pos _).le
        · rw [show e - 1 + 52 + 1 = e + 52 by ring]
          exact hlt
      rw [hexp]
      omega
    have hround : roundDiv (scale n d (-(e - 1))).1 (scale n d (-(e - 1))).2 = 2 ^ 53 := by
      have hlt' : (n : ℚ) / d < 2 ^ 53 * 2 ^ (e - 1) := by
        refine hlt.trans_eq ?_
        rw [show e + 52 = 53 + (e - 1) by ring, zpow_two_add]
        norm_num
      rw [← scale_neg_mul n d (e - 1)] at hlow hlt'
      have h1 := le_of_mul_le_mul_right hlow (zpow_two_pos _)
      have h2 := lt_of_mul_lt_mul_right hlt' (zpow_two_pos _).le
      refine roundDiv_eq (scale_den_pos hd _) ?_ ?_ (.inr (by norm_num))
      · push_cast; exact h1
      · push_cast; linarith
    rw [ofRatio_carry negative hn.ne' hexp' hround (by omega), hm52, sub_add_cancel]

end Toolwright.Binary64
