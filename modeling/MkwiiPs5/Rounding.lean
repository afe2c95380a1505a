import Mathlib.Algebra.Order.Floor.Ring
import Mathlib.Data.Int.Log
import Mathlib.Data.Rat.Floor

/-!
# Rounding

What floating-point operations make of their exact results: larger results do not become smaller,
and whole numbers that the format holds stay. Nothing else is said, so that what is proved holds
for every format and every direction of rounding.
-/

/-- How the exact results of a format with a significand of 53 bits are rounded. -/
structure Rounding where
  round : ℚ → ℚ
  monotone : Monotone round
  round_int : ∀ n : ℤ, |n| ≤ 2 ^ 53 → round n = n

namespace Rounding

/-- Results that are not rounded at all. -/
def exact : Rounding := ⟨id, monotone_id, fun _ _ => rfl⟩

variable (R : Rounding) {x : ℚ}

@[simp]
theorem round_zero : R.round 0 = 0 := R.round_int 0 (by decide)

theorem round_le {n : ℤ} (hn : |n| ≤ 2 ^ 53) (h : x ≤ n) : R.round x ≤ n :=
  R.round_int n hn ▸ R.monotone h

/-- The nearest integer of a number that is not negative; halves go up. -/
def llround (x : ℚ) : ℕ := ⌊x + 1 / 2⌋.toNat

theorem llround_le {n : ℕ} (h : x ≤ n) : llround x ≤ n := by
  have hfloor : ⌊x + 1 / 2⌋ ≤ (n : ℤ) := by
    rw [← Int.lt_add_one_iff, Int.floor_lt]
    push_cast
    linarith
  exact Int.toNat_le.mpr hfloor

end Rounding

/-- Rounding to doubles: the error is half a unit in the last place, where the result is not smaller
than the smallest number of full precision. -/
structure DoubleRounding extends Rounding where
  error_le : ∀ x, 1 / 2 ^ 1022 ≤ |x| → |round x - x| ≤ |x| / 2 ^ 53

namespace DoubleRounding

def exact : DoubleRounding where
  toRounding := .exact
  error_le x _ := by
    show |x - x| ≤ _
    rw [sub_self, abs_zero]
    positivity

variable (R : DoubleRounding) {a b : ℕ}

/-- Quotients of small numbers that are not whole stay away from whole numbers. -/
theorem abs_round_div_sub_lt (ha : a < 2 ^ 32) (hpos : 0 < a) (hb : 0 < b) (hb' : b < 2 ^ 16) :
    |R.round ((a : ℚ) / b) - (a : ℚ) / b| < 1 / b := by
  have hbq : (0 : ℚ) < b := by exact_mod_cast hb
  have haq : (1 : ℚ) ≤ a := by exact_mod_cast hpos
  have haq' : (a : ℚ) < 2 ^ 32 := by exact_mod_cast ha
  have hbq' : (b : ℚ) < 2 ^ 16 := by exact_mod_cast hb'
  have hq : 0 < (a : ℚ) / b := by positivity
  have hsmall : (1 : ℚ) / 2 ^ 1022 ≤ |(a : ℚ) / b| := by
    rw [abs_of_pos hq, div_le_div_iff₀ (by positivity) hbq, one_mul]
    calc (b : ℚ) ≤ 2 ^ 1022 := hbq'.le.trans (pow_le_pow_right₀ one_le_two (by decide))
      _ ≤ a * 2 ^ 1022 := le_mul_of_one_le_left (by positivity) haq
  refine (R.error_le _ hsmall).trans_lt ?_
  rw [abs_of_pos hq, div_div, mul_comm, ← div_div, div_lt_div_iff_of_pos_right hbq,
    div_lt_one (by positivity)]
  exact haq'.trans (by norm_num)

/-- Rounding a quotient of small numbers does not change the whole number below it. -/
theorem floor_round_div (ha : a < 2 ^ 32) (hb : 0 < b) (hb' : b < 2 ^ 16) :
    ⌊R.round ((a : ℚ) / b)⌋ = ⌊(a : ℚ) / b⌋ := by
  have hbq : (0 : ℚ) < b := by exact_mod_cast hb
  have hle := Int.floor_le ((a : ℚ) / b)
  have hsmall : |⌊(a : ℚ) / b⌋| ≤ 2 ^ 53 := by
    have hnonneg : 0 ≤ ⌊(a : ℚ) / b⌋ := Int.floor_nonneg.mpr (by positivity)
    have hdiv : (⌊(a : ℚ) / b⌋ : ℚ) ≤ a := hle.trans (div_le_self (by positivity) (by
      exact_mod_cast hb))
    have hfloor : ⌊(a : ℚ) / b⌋ ≤ (a : ℤ) := by exact_mod_cast hdiv
    rw [abs_of_nonneg hnonneg]
    omega
  refine Int.floor_eq_iff.mpr ⟨?_, ?_⟩
  · rw [← R.round_int _ hsmall]
    exact R.monotone hle
  · rcases Nat.eq_zero_or_pos a with rfl | hpos
    · rw [Nat.cast_zero, zero_div, R.round_zero, Int.floor_zero]
      norm_num
    · have hnear := (abs_lt.mp (R.abs_round_div_sub_lt ha hpos hb hb')).2
      have habove : (a : ℚ) / b + 1 / b ≤ ⌊(a : ℚ) / b⌋ + 1 := by
        have hmul : (a : ℚ) < (⌊(a : ℚ) / b⌋ + 1) * b := by
          rw [← div_lt_iff₀ hbq]
          exact Int.lt_floor_add_one _
        have hint : (a : ℤ) + 1 ≤ (⌊(a : ℚ) / b⌋ + 1) * (b : ℤ) := by exact_mod_cast hmul
        have hcast : (((a : ℤ) + 1 : ℤ) : ℚ) ≤ (((⌊(a : ℚ) / b⌋ + 1) * (b : ℤ) : ℤ) : ℚ) := by
          exact_mod_cast hint
        push_cast at hcast
        rw [← add_div, div_le_iff₀ hbq]
        exact hcast
      linarith

/-- Rounding a quotient of small numbers does not change the whole number above it. -/
theorem ceil_round_div (ha : a < 2 ^ 32) (hb : 0 < b) (hb' : b < 2 ^ 16) :
    ⌈R.round ((a : ℚ) / b)⌉ = ⌈(a : ℚ) / b⌉ := by
  have hbq : (0 : ℚ) < b := by exact_mod_cast hb
  have hle := Int.le_ceil ((a : ℚ) / b)
  have hsmall : |⌈(a : ℚ) / b⌉| ≤ 2 ^ 53 := by
    have hnonneg : 0 ≤ ⌈(a : ℚ) / b⌉ := Int.ceil_nonneg (by positivity)
    have hceil : ⌈(a : ℚ) / b⌉ ≤ (a : ℤ) := Int.ceil_le.mpr (by
      push_cast
      exact div_le_self (by positivity) (by exact_mod_cast hb))
    rw [abs_of_nonneg hnonneg]
    omega
  refine Int.ceil_eq_iff.mpr ⟨?_, ?_⟩
  · rcases Nat.eq_zero_or_pos a with rfl | hpos
    · rw [Nat.cast_zero, zero_div, R.round_zero, Int.ceil_zero]
      norm_num
    · have hnear := (abs_lt.mp (R.abs_round_div_sub_lt ha hpos hb hb')).1
      have hlt := Int.ceil_lt_add_one ((a : ℚ) / b)
      have hbelow : (⌈(a : ℚ) / b⌉ : ℚ) - 1 ≤ a / b - 1 / b := by
        have hmul : ((⌈(a : ℚ) / b⌉ - 1) * b : ℚ) < a := by
          rw [← lt_div_iff₀ hbq]
          linarith
        have hint : (⌈(a : ℚ) / b⌉ - 1) * (b : ℤ) + 1 ≤ a := by exact_mod_cast hmul
        rw [← sub_div, le_div_iff₀ hbq]
        have hcast : (((⌈(a : ℚ) / b⌉ - 1) * (b : ℤ) + 1 : ℤ) : ℚ) ≤ a := by exact_mod_cast hint
        push_cast at hcast
        linarith
      linarith
  · rw [← R.round_int _ hsmall]
    exact R.monotone hle

end DoubleRounding

/-- Rounding to floats: numbers with few bits, not too far behind the point, stay. -/
structure SingleRounding where
  round : ℚ → ℚ
  monotone : Monotone round
  round_dyadic : ∀ (n : ℤ) (k : ℕ), |n| ≤ 2 ^ 24 → k ≤ 24 → round (n / 2 ^ k) = n / 2 ^ k

namespace SingleRounding

def exact : SingleRounding := ⟨id, monotone_id, fun _ _ _ _ => rfl⟩

variable (R : SingleRounding)

theorem round_int {n : ℤ} (h : |n| ≤ 2 ^ 24) : R.round n = n := by
  have hdyadic := R.round_dyadic n 0 h (Nat.zero_le 24)
  rwa [pow_zero, div_one] at hdyadic

end SingleRounding

/-- The nearest integer; halves go to the even one. -/
def roundEven (x : ℚ) : ℤ :=
  if x - ⌊x⌋ < 1 / 2 ∨ x - ⌊x⌋ = 1 / 2 ∧ ⌊x⌋ % 2 = 0 then ⌊x⌋ else ⌊x⌋ + 1

@[simp]
theorem roundEven_intCast (n : ℤ) : roundEven n = n := by
  rw [roundEven, Int.floor_intCast, sub_self, if_pos (Or.inl (by norm_num))]

/-- Numbers that are nearer to an integer than to the one below do not go below it. -/
theorem le_roundEven {x : ℚ} {n : ℤ} (h : (n : ℚ) - 1 / 2 < x) : n ≤ roundEven x := by
  have hlt := Int.lt_floor_add_one x
  rw [roundEven]
  split
  · next hdown =>
    have hle : x - ⌊x⌋ ≤ 1 / 2 := hdown.elim le_of_lt fun hhalf => hhalf.1.le
    have hfloor : ((n - 1 : ℤ) : ℚ) < ⌊x⌋ := by
      push_cast
      linarith
    have := Int.cast_lt.mp hfloor
    omega
  · have hfloor : ((n - 2 : ℤ) : ℚ) < ⌊x⌋ := by
      push_cast
      linarith
    have := Int.cast_lt.mp hfloor
    omega

theorem roundEven_le {x : ℚ} {n : ℤ} (h : x < (n : ℚ) + 1 / 2) : roundEven x ≤ n := by
  have hle := Int.floor_le x
  rw [roundEven]
  split
  · have hfloor : (⌊x⌋ : ℚ) < ((n + 1 : ℤ) : ℚ) := by
      push_cast
      linarith
    have := Int.cast_lt.mp hfloor
    omega
  · next hup =>
    have hge : 1 / 2 ≤ x - ⌊x⌋ := not_lt.mp fun hlt => hup (Or.inl hlt)
    have hfloor : (⌊x⌋ : ℚ) < n := by linarith
    have := Int.cast_lt.mp hfloor
    omega

/-- The distance of the floats around a number of full precision: a unit in their last place. -/
def ulp (x : ℚ) : ℚ := 2 ^ (Int.log 2 |x| - 23)

/-- The float nearest to a number, of two the even one. -/
def nearestFloat (x : ℚ) : ℚ := roundEven (x / ulp x) * ulp x
