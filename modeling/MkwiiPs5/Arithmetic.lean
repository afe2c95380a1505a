import Mathlib.Algebra.Order.Ring.Int
import Mathlib.Algebra.Order.Ring.Nat
import Mathlib.Data.Int.Bitwise
import Mathlib.Data.Nat.Cast.Defs
import Mathlib.Data.Nat.Notation

/-!
# Arithmetic of machine words

What the operations on words of some width make of their exact results. A result that fits is
kept; nothing is said about the others, so that a computation which is the same in every
arithmetic never leaves the range of its words.
-/

/-- What unsigned and signed operations of a width make of an exact result. -/
structure Arithmetic where
  unsigned : ℕ → ℤ → ℕ
  signed : ℕ → ℤ → ℤ
  unsigned_of_fits : ∀ bits x, 0 ≤ x → x < 2 ^ bits → (unsigned bits x : ℤ) = x
  signed_of_fits : ∀ bits x, 0 < bits → -2 ^ (bits - 1) ≤ x → x < 2 ^ (bits - 1) →
    signed bits x = x

namespace Arithmetic

/-- Arithmetic modulo the number of words, signed words in two's complement. -/
def modular : Arithmetic where
  unsigned bits x := (x % 2 ^ bits).toNat
  signed bits x := (x + 2 ^ (bits - 1)) % 2 ^ bits - 2 ^ (bits - 1)
  unsigned_of_fits bits x hlo hhi := by
    rw [Int.emod_eq_of_lt hlo hhi, Int.toNat_of_nonneg hlo]
  signed_of_fits bits x hbits hlo hhi := by
    have hhalf : (2 : ℤ) ^ bits = 2 ^ (bits - 1) + 2 ^ (bits - 1) := by
      rw [← Int.two_mul, ← pow_succ', Nat.sub_add_cancel hbits]
    rw [hhalf, Int.emod_eq_of_lt (by omega) (by omega)]
    omega

/-- A mask of the bits from `low` on rounds a word down. -/
theorem and_highBits {n low bits : ℕ} (h : n < 2 ^ (low + bits)) :
    n &&& (2 ^ bits - 1) <<< low = n / 2 ^ low * 2 ^ low := by
  have hdiv : n / 2 ^ low * 2 ^ low = n >>> low <<< low := by
    rw [Nat.shiftLeft_eq, Nat.shiftRight_eq_div_pow]
  rw [hdiv]
  apply Nat.eq_of_testBit_eq
  intro i
  rw [Nat.testBit_and, Nat.testBit_shiftLeft, Nat.testBit_shiftLeft, Nat.testBit_shiftRight,
    Nat.testBit_two_pow_sub_one]
  by_cases hi : low ≤ i
  · rw [Nat.add_sub_cancel' hi]
    by_cases hbit : i < low + bits
    · simp [hi, show i - low < bits by omega]
    · have hpow : 2 ^ (low + bits) ≤ 2 ^ i := Nat.pow_le_pow_right (by decide) (by omega)
      rw [Nat.testBit_eq_false_of_lt (by omega), Bool.false_and, Bool.and_false]
  · simp [hi]

variable (A : Arithmetic)

/-- Results of `uint32_t`, `size_t`, `int32_t` and `int64_t` operations. -/
def u32 (x : ℤ) : ℕ := A.unsigned 32 x
def u64 (x : ℤ) : ℕ := A.unsigned 64 x
def i32 (x : ℤ) : ℤ := A.signed 32 x
def i64 (x : ℤ) : ℤ := A.signed 64 x

theorem u32_eq {n : ℕ} {x : ℤ} (hx : x = n) (h : n < 2 ^ 32) : A.u32 x = n := by
  have hfit := A.unsigned_of_fits 32 x (by omega) (by omega)
  rw [u32]
  omega

theorem u64_eq {n : ℕ} {x : ℤ} (hx : x = n) (h : n < 2 ^ 64) : A.u64 x = n := by
  have hfit := A.unsigned_of_fits 64 x (by omega) (by omega)
  rw [u64]
  omega

theorem i32_eq {x : ℤ} (hlo : -2 ^ 31 ≤ x) (hhi : x < 2 ^ 31) : A.i32 x = x :=
  A.signed_of_fits 32 x (by decide) hlo hhi

theorem i64_eq {x : ℤ} (hlo : -2 ^ 63 ≤ x) (hhi : x < 2 ^ 63) : A.i64 x = x :=
  A.signed_of_fits 64 x (by decide) hlo hhi

theorem u32_add {a b : ℕ} (h : a + b < 2 ^ 32) : A.u32 (a + b) = a + b :=
  A.u32_eq (Int.natCast_add a b).symm h

theorem u32_sub {a b : ℕ} (hle : b ≤ a) (h : a < 2 ^ 32) : A.u32 (a - b) = a - b :=
  A.u32_eq (by omega) (by omega)

theorem u64_add {a b : ℕ} (h : a + b < 2 ^ 64) : A.u64 (a + b) = a + b :=
  A.u64_eq (Int.natCast_add a b).symm h

theorem u64_mul {a b : ℕ} (h : a * b < 2 ^ 64) : A.u64 (a * b) = a * b :=
  A.u64_eq (Int.natCast_mul a b).symm h

end Arithmetic
