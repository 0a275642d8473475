import Mathlib

/-!
# Rounding to binary floats

A rational that is not negative is rounded to the nearest one with a given number of
significant bits, halves to even; the exponent is not limited. Below the numbers with
more integer bits than that, rounding takes nothing across an integer, and it moves
nothing by more than half the distance between neighbours. Nothing here refers to a
particular program.
-/
namespace LdpProtocol.RoundedFloats

/-- The nearest integer, halves to even. -/
def roundEven (q : ℚ) : ℤ :=
  let rest := q - ⌊q⌋
  if 1 / 2 < rest ∨ rest = 1 / 2 ∧ ⌊q⌋ % 2 = 1 then ⌊q⌋ + 1 else ⌊q⌋

theorem roundEven_error (q : ℚ) : |(roundEven q : ℚ) - q| ≤ 1 / 2 := by
  have hlow := Int.floor_le q
  have hhigh := Int.lt_floor_add_one q
  unfold roundEven
  dsimp only
  split_ifs with hup
  · have hrest : 1 / 2 ≤ q - ⌊q⌋ := by
      rcases hup with h | ⟨h, _⟩
      · exact h.le
      · exact h.ge
    rw [abs_le]
    push_cast
    constructor <;> linarith
  · have hrest : q - ⌊q⌋ ≤ 1 / 2 := not_lt.mp fun h => hup (.inl h)
    rw [abs_le]
    constructor <;> linarith

theorem le_roundEven {q : ℚ} {n : ℤ} (h : (n : ℚ) ≤ q) : n ≤ roundEven q := by
  have hfloor : n ≤ ⌊q⌋ := Int.le_floor.mpr h
  unfold roundEven
  dsimp only
  split_ifs <;> omega

theorem roundEven_le {q : ℚ} {n : ℤ} (h : q ≤ n) : roundEven q ≤ n := by
  unfold roundEven
  dsimp only
  split_ifs with hup
  · have hrest : (0 : ℚ) < q - ⌊q⌋ := by
      rcases hup with hup | ⟨hup, _⟩ <;> linarith
    have hlt : (⌊q⌋ : ℚ) < n := by linarith
    exact Int.add_one_le_iff.mpr (by exact_mod_cast hlt)
  · exact Int.floor_le_iff.mpr (by linarith)

section Bits
variable (bits : ℕ) {q : ℚ}

/-- The distance between neighbouring floats around a number. -/
def ulp (q : ℚ) : ℚ := 2 ^ (Int.log 2 q + 1 - bits)

/-- The nearest float. -/
def nearest (q : ℚ) : ℚ := roundEven (q / ulp bits q) * ulp bits q

@[simp] theorem nearest_zero : nearest bits 0 = 0 := by
  simp [nearest, roundEven]

theorem ulp_pos (q : ℚ) : 0 < ulp bits q := zpow_pos (by norm_num) _

theorem nearest_error (q : ℚ) : |nearest bits q - q| ≤ ulp bits q / 2 := by
  have hulp := ulp_pos bits q
  have hdiff : nearest bits q - q = (roundEven (q / ulp bits q) - q / ulp bits q) * ulp bits q := by
    unfold nearest
    field_simp
  rw [hdiff, abs_mul, abs_of_pos hulp]
  have herror := mul_le_mul_of_nonneg_right (roundEven_error (q / ulp bits q)) hulp.le
  linarith

theorem ulp_le (hq : 0 < q) {k : ℤ} (h : q < 2 ^ k) : ulp bits q ≤ 2 ^ (k - bits) := by
  have hlog : Int.log 2 q < k := (Int.lt_zpow_iff_log_lt (by norm_num) hq).mp (by exact_mod_cast h)
  exact zpow_le_zpow_right₀ (by norm_num) (by omega)

theorem ulp_le_mul (hq : 0 < q) : ulp bits q ≤ q * 2 ^ (1 - bits : ℤ) := by
  have hpow : (2 : ℚ) ^ Int.log 2 q ≤ q := by exact_mod_cast Int.zpow_log_le_self (by norm_num) hq
  have hsplit : ulp bits q = 2 ^ Int.log 2 q * 2 ^ (1 - bits : ℤ) := by
    rw [ulp, ← zpow_add₀ (by norm_num)]
    congr 1
    omega
  rw [hsplit]
  exact mul_le_mul_of_nonneg_right hpow (by positivity)

/-- The part of a large number that rounding leaves of it. -/
theorem mul_le_nearest (hq : 0 < q) : q * (1 - 2 ^ (1 - bits : ℤ) / 2) ≤ nearest bits q := by
  have herror := (abs_le.mp (nearest_error bits q)).1
  have hulp := ulp_le_mul bits hq
  linarith

/-- Below the limit every integer is a float. -/
theorem exists_ulp (hq : 0 < q) (h : q < 2 ^ bits) : ∃ m : ℕ, 1 / ulp bits q = 2 ^ m := by
  have hlog : Int.log 2 q < bits := (Int.lt_zpow_iff_log_lt (by norm_num) hq).mp (by
    exact_mod_cast h)
  refine ⟨(bits - (Int.log 2 q + 1)).toNat, ?_⟩
  unfold ulp
  rw [one_div, ← zpow_neg, ← zpow_natCast]
  congr 1
  omega

theorem nearest_le (hq : 0 ≤ q) (hbits : q < 2 ^ bits) {n : ℤ} (h : q ≤ n) :
    nearest bits q ≤ n := by
  rcases hq.eq_or_lt with rfl | hq
  · rwa [nearest_zero]
  have hulp := ulp_pos bits q
  obtain ⟨m, hm⟩ := exists_ulp bits hq hbits
  have hscaled : q / ulp bits q ≤ ((n * 2 ^ m : ℤ) : ℚ) := by
    push_cast
    rw [← hm, mul_one_div]
    exact div_le_div_of_nonneg_right h hulp.le
  have hround : (roundEven (q / ulp bits q) : ℚ) ≤ n * 2 ^ m := by
    exact_mod_cast roundEven_le hscaled
  calc nearest bits q ≤ n * 2 ^ m * ulp bits q := mul_le_mul_of_nonneg_right hround hulp.le
    _ = n := by
      rw [← hm]
      field_simp

theorem le_nearest (hq : 0 ≤ q) (hbits : q < 2 ^ bits) {n : ℤ} (h : (n : ℚ) ≤ q) :
    n ≤ nearest bits q := by
  rcases hq.eq_or_lt with rfl | hq
  · rwa [nearest_zero]
  have hulp := ulp_pos bits q
  obtain ⟨m, hm⟩ := exists_ulp bits hq hbits
  have hscaled : ((n * 2 ^ m : ℤ) : ℚ) ≤ q / ulp bits q := by
    push_cast
    rw [← hm, mul_one_div]
    exact div_le_div_of_nonneg_right h hulp.le
  have hround : (n : ℚ) * 2 ^ m ≤ roundEven (q / ulp bits q) := by
    exact_mod_cast le_roundEven hscaled
  calc (n : ℚ) = n * 2 ^ m * ulp bits q := by
        rw [← hm]
        field_simp
    _ ≤ nearest bits q := mul_le_mul_of_nonneg_right hround hulp.le

/-- A number stays above what it exceeds by more than half a neighbour's distance. -/
theorem lt_nearest (hq : 0 ≤ q) {k : ℤ} (hk : q < 2 ^ k) {x : ℚ}
    (h : x + 2 ^ (k - bits) / 2 < q) : x < nearest bits q := by
  rcases hq.eq_or_lt with rfl | hq
  · have hhalf : (0 : ℚ) < 2 ^ (k - bits) := by positivity
    rw [nearest_zero]
    linarith
  have herror := (abs_le.mp (nearest_error bits q)).1
  have hulp := ulp_le bits hq hk
  linarith

end Bits

end LdpProtocol.RoundedFloats
