import DerivativeEngine.Numeral.Literal
import Mathlib.Algebra.Order.Field.Power
import Mathlib.Data.Rat.Cast.Order
import Mathlib.Tactic.FieldSimp
import Mathlib.Tactic.NormNum
import Mathlib.Tactic.Positivity
import Mathlib.Tactic.Ring

/-! Which literals are doubles. Half a unit below the first power of two that is no double, the
nearest double is that power, since the tie goes to the even one; from there on a magnitude has no
word. A decimal literal has a double in any case. -/

namespace DerivativeEngine.Numeral

def doubleLimit : ℚ := (2 ^ 54 - 1) * 2 ^ 970

theorem roundDiv_le {num den n : Nat} (h : num < n * den) : roundDiv num den ≤ n := by
  have quotient : num / den < n := Nat.div_lt_of_lt_mul (by rwa [Nat.mul_comm])
  unfold roundDiv
  dsimp only
  split_ifs <;> omega

theorem roundDiv_lt_iff {num den n : Nat} (positive : 0 < den) (even : n % 2 = 0) (some : 0 < n) :
    roundDiv num den < n ↔ 2 * num < (2 * n - 1) * den := by
  have split := Nat.div_add_mod num den
  have small := Nat.mod_lt num positive
  simp only [roundDiv, beq_iff_eq]
  generalize num / den = q at split ⊢
  generalize num % den = r at split small ⊢
  rw [← split]
  have halves : (2 * n - 1) * den = 2 * (n * den) - den := by
    rw [Nat.sub_mul, Nat.one_mul, Nat.mul_assoc]
  rw [halves, Nat.mul_comm den q]
  have least : den ≤ n * den := Nat.le_mul_of_pos_left den some
  have below (h : q + 1 ≤ n) : q * den + den ≤ n * den := by
    rw [← Nat.succ_mul]
    exact Nat.mul_le_mul_right den h
  have twice (h : q + 2 ≤ n) : q * den + 2 * den ≤ n * den := by
    rw [← Nat.add_mul]
    exact Nat.mul_le_mul_right den h
  have above (h : n ≤ q) : n * den ≤ q * den := Nat.mul_le_mul_right den h
  have next (h : n ≤ q + 1) : n * den ≤ q * den + den := by
    rw [← Nat.succ_mul]
    exact Nat.mul_le_mul_right den h
  rcases Nat.lt_or_ge q n with low | high
  · have low' := below low
    rcases Nat.lt_or_ge (q + 1) n with lower | higher
    · have lower' := twice lower
      split_ifs <;> omega
    · have higher' := next higher
      split_ifs <;> omega
  · have high' := above high
    split_ifs <;> omega

theorem fraction_eq (m : Nat) (e : Int) :
    0 < (fraction m e).2 ∧ ((fraction m e).1 : ℚ) = m * 2 ^ e * (fraction m e).2 := by
  unfold fraction
  split_ifs with h
  · refine ⟨Nat.one_pos, ?_⟩
    obtain ⟨k, rfl⟩ := Int.eq_ofNat_of_zero_le h
    simp
  · refine ⟨Nat.pow_pos Nat.two_pos, ?_⟩
    obtain ⟨k, hk⟩ : ∃ k : Nat, -e = k := Int.eq_ofNat_of_zero_le (by omega)
    obtain rfl : e = -k := by omega
    simp [zpow_neg]

theorem log2_bounds {m : Nat} (positive : m ≠ 0) (e : Int) :
    (2 : ℚ) ^ (m.log2 + e) ≤ m * 2 ^ e ∧ (m * 2 ^ e : ℚ) < 2 ^ (m.log2 + e + 1) := by
  have scale : (0 : ℚ) < 2 ^ e := by positivity
  constructor
  · rw [zpow_add₀ two_ne_zero]
    refine mul_le_mul_of_nonneg_right ?_ scale.le
    have low := Nat.log2_self_le positive
    exact_mod_cast low
  · rw [add_right_comm, zpow_add₀ two_ne_zero]
    refine mul_lt_mul_of_pos_right ?_ scale
    have high := Nat.lt_log2_self (n := m)
    exact_mod_cast high

theorem doubleLimit_eq : doubleLimit = (2 ^ 54 - 1) * 2 ^ (970 : Int) := rfl

theorem doubleLimit_pos : 0 < doubleLimit := by
  norm_num [doubleLimit]

theorem doubleLimit_le {top : Int} (large : 1024 ≤ top) : doubleLimit ≤ 2 ^ top := by
  refine le_trans ?_ (zpow_le_zpow_right₀ one_le_two large)
  rw [doubleLimit_eq, show (1024 : Int) = 54 + 970 from rfl, zpow_add₀ two_ne_zero]
  gcongr
  norm_num

theorem le_doubleLimit {top : Int} (small : top ≤ 1023) : (2 : ℚ) ^ top ≤ doubleLimit := by
  refine (zpow_le_zpow_right₀ one_le_two small).trans ?_
  rw [doubleLimit_eq, show (1023 : Int) = 53 + 970 from rfl, zpow_add₀ two_ne_zero]
  gcongr
  norm_num

theorem word_lt_iff {m : Nat} {e top : Int} (low : minExponent - 2 ≤ top) (high : top < 1024)
    (least : (2 : ℚ) ^ top ≤ m * 2 ^ e) (most : (m * 2 ^ e : ℚ) < 2 ^ (top + 1)) :
    (max (top - 52) minExponent - minExponent).toNat * hiddenBit +
        roundDiv (fraction m (e - max (top - 52) minExponent)).1
          (fraction m (e - max (top - 52) minExponent)).2 < infinityWord ↔
      m * 2 ^ e < doubleLimit := by
  generalize unit_eq : max (top - 52) minExponent = unit
  obtain ⟨positive, quotient⟩ := fraction_eq m (e - unit)
  generalize (fraction m (e - unit)).1 = num at quotient ⊢
  generalize (fraction m (e - unit)).2 = den at positive quotient ⊢
  have den_pos : (0 : ℚ) < den := by exact_mod_cast positive
  have scaled : (num : ℚ) * 2 ^ unit = m * 2 ^ e * den := by
    rw [quotient, zpow_sub₀ two_ne_zero]
    field_simp
  have scale : (0 : ℚ) < 2 ^ unit := by positivity
  simp only [minExponent] at low unit_eq ⊢
  rcases lt_or_ge top 1023 with inner | last
  · refine iff_of_true ?_ (most.trans_le (le_doubleLimit (by omega)))
    have short : num < 2 ^ 53 * den := by
      have bound : (num : ℚ) * 2 ^ unit < 2 ^ 53 * den * 2 ^ unit := by
        rw [scaled, mul_right_comm (2 ^ 53 : ℚ)]
        refine mul_lt_mul_of_pos_right (most.trans_le ?_) den_pos
        rw [← zpow_natCast, ← zpow_add₀ two_ne_zero]
        exact zpow_le_zpow_right₀ one_le_two (by omega)
      exact_mod_cast lt_of_mul_lt_mul_right bound scale.le
    have rounded := roundDiv_le short
    have fields : (unit - -1074).toNat ≤ 2044 := by omega
    simp only [hiddenBit, infinityWord, Nat.pow_eq]
    omega
  · obtain rfl : top = 1023 := by omega
    obtain rfl : unit = 971 := by omega
    have rounds := @roundDiv_lt_iff num den (2 ^ 53) positive (by norm_num) (by norm_num)
    have fields : ((971 : Int) - -1074).toNat = 2045 := rfl
    rw [fields]
    simp only [hiddenBit, infinityWord, Nat.pow_eq]
    have word : 2045 * 2 ^ 52 + roundDiv num den < 2047 * 2 ^ 52 ↔ roundDiv num den < 2 ^ 53 := by
      omega
    rw [word, rounds]
    have below : m * 2 ^ e < doubleLimit ↔ (num : ℚ) * 2 ^ (971 : Int) < doubleLimit * den := by
      rw [scaled, mul_lt_mul_iff_left₀ den_pos]
    have half : doubleLimit * den = (2 ^ 54 - 1) * den / 2 * 2 ^ (971 : Int) := by
      rw [doubleLimit_eq, show (971 : Int) = 1 + 970 from rfl, zpow_add₀ two_ne_zero]
      ring
    rw [below, half, mul_lt_mul_iff_left₀ scale, lt_div_iff₀ two_pos, mul_comm]
    norm_num
    exact_mod_cast Iff.rfl

theorem nearestWord?_eq_none_iff (m : Nat) (e : Int) :
    nearestWord? m e = none ↔ doubleLimit ≤ m * 2 ^ e := by
  unfold nearestWord?
  rcases Nat.eq_zero_or_pos m with rfl | positive
  · simp [doubleLimit_pos]
  rw [if_neg (by simpa using positive.ne')]
  obtain ⟨low, high⟩ := log2_bounds positive.ne' e
  dsimp only
  generalize (m.log2 : Int) + e = top at low high ⊢
  split_ifs with large small fits
  · exact iff_of_true rfl ((doubleLimit_le large).trans low)
  · simp only [minExponent] at small
    exact iff_of_false (by simp) (not_le.2 (high.trans_le (le_doubleLimit (by omega))))
  · have word := word_lt_iff (by omega) (by omega) low high
    exact iff_of_false (by simp) (not_le.2 (word.1 fits))
  · have word := word_lt_iff (by omega) (by omega) low high
    exact iff_of_true rfl (not_lt.1 fun below => fits (word.2 below))

def Literal.magnitude (l : Literal) : ℚ :=
  natOfDigits 16 (l.whole ++ l.frac) * 2 ^ (l.exponent - 4 * l.frac.length)

theorem Literal.toFloat?_eq_none_iff (l : Literal) :
    l.toFloat? = none ↔ l.hex = true ∧ doubleLimit ≤ l.magnitude := by
  unfold toFloat? magnitude
  dsimp only
  split_ifs with hex
  · rw [Option.map_eq_none_iff, nearestWord?_eq_none_iff]
    simp [hex]
  · simp [hex]

end DerivativeEngine.Numeral
