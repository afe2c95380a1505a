import Mathlib.Data.Nat.Bitwise

/-!
# Bit fields

Fields of words that are put together by shifts and disjunctions.
-/

namespace BitField

/-- The field of `size` bits from bit `shift` on. -/
def field (word size shift : ℕ) : ℕ := word >>> shift % 2 ^ size

variable {x word size shift n s : ℕ}

theorem field_lt (word size shift : ℕ) : field word size shift < 2 ^ size :=
  Nat.mod_lt _ (Nat.two_pow_pos size)

theorem field_or (a b size shift : ℕ) :
    field (a ||| b) size shift = field a size shift ||| field b size shift := by
  rw [field, Nat.shiftRight_or_distrib, Nat.or_mod_two_pow]
  rfl

/-- A value that fits is read back where it was put. -/
theorem field_shiftLeft (h : x < 2 ^ size) : field (x <<< shift) size shift = x := by
  rw [field, Nat.shiftLeft_shiftRight, Nat.mod_eq_of_lt h]

theorem field_shiftLeft_above (h : shift + size ≤ s) : field (x <<< s) size shift = 0 := by
  obtain ⟨k, rfl⟩ := Nat.exists_eq_add_of_le h
  rw [field, Nat.shiftLeft_eq, Nat.shiftRight_eq_div_pow, Nat.add_assoc, Nat.pow_add,
    Nat.mul_left_comm, Nat.mul_div_cancel_left _ (Nat.two_pow_pos shift), Nat.pow_add,
    Nat.mul_left_comm, Nat.mul_mod_right]

theorem field_eq_zero (h : x < 2 ^ shift) : field x size shift = 0 := by
  rw [field, Nat.shiftRight_eq_div_pow, Nat.div_eq_of_lt h, Nat.zero_mod]

theorem field_shiftLeft_below (hx : x < 2 ^ n) (h : s + n ≤ shift) :
    field (x <<< s) size shift = 0 := by
  apply field_eq_zero
  rw [Nat.shiftLeft_eq]
  calc x * 2 ^ s < 2 ^ n * 2 ^ s := Nat.mul_lt_mul_of_pos_right hx (Nat.two_pow_pos s)
    _ = 2 ^ (s + n) := by rw [← Nat.pow_add, Nat.add_comm]
    _ ≤ 2 ^ shift := Nat.pow_le_pow_right (by decide) h

/-- A field of a field that starts at the first bit. -/
theorem field_field (h : shift + size ≤ n) :
    field (field word n 0) size shift = field word size shift := by
  obtain ⟨k, rfl⟩ := Nat.exists_eq_add_of_le h
  rw [field, field, field, Nat.shiftRight_zero, Nat.shiftRight_eq_div_pow,
    Nat.shiftRight_eq_div_pow, Nat.add_assoc, Nat.pow_add, Nat.mod_mul_right_div_self,
    Nat.pow_add, Nat.mod_mul_right_mod]

/-- `n` fields of `size` bits each, from the first bit on. -/
def pack (x : ℕ → ℕ) (size n base : ℕ) : ℕ :=
  (List.range n).foldl (fun word i => word ||| x i <<< (i * size)) base

theorem pack_succ (x : ℕ → ℕ) (size n base : ℕ) :
    pack x size (n + 1) base = pack x size n base ||| x n <<< (n * size) := by
  rw [pack, List.range_succ, List.foldl_append]
  rfl

variable {f : ℕ → ℕ} {base : ℕ}

/-- Fields above the packed ones are those of the base. -/
theorem field_pack_above (hf : ∀ i < n, f i < 2 ^ size) (h : n * size ≤ shift) :
    field (pack f size n base) s shift = field base s shift := by
  induction n with
  | zero => rfl
  | succ n ih =>
    rw [Nat.add_mul, Nat.one_mul] at h
    rw [pack_succ, field_or, ih (fun i hi => hf i (by omega)) (by omega),
      field_shiftLeft_below (hf n (by omega)) h, Nat.or_zero]

/-- A packed field is read back, where the base has no bits. -/
theorem field_pack (hf : ∀ i < n, f i < 2 ^ size) {j : ℕ} (hj : j < n)
    (hbase : field base size (j * size) = 0) : field (pack f size n base) size (j * size) = f j := by
  induction n with
  | zero => exact absurd hj (Nat.not_lt_zero j)
  | succ n ih =>
    rw [pack_succ, field_or]
    rcases Nat.lt_succ_iff_lt_or_eq.mp hj with hlt | rfl
    · have habove : j * size + size ≤ n * size := by
        rw [← Nat.succ_mul]
        exact Nat.mul_le_mul_right size hlt
      rw [ih (fun i hi => hf i (by omega)) hlt, field_shiftLeft_above habove, Nat.or_zero]
    · rw [field_pack_above (fun i hi => hf i (by omega)) (Nat.le_refl _), hbase,
        field_shiftLeft (hf j (by omega)), Nat.zero_or]

/-- A set of one element that is added. -/
theorem testBit_or_one_shiftLeft (x k n : ℕ) :
    (x ||| 1 <<< k).testBit n ↔ x.testBit n ∨ k = n := by
  rw [Nat.testBit_or, Nat.one_shiftLeft, Nat.testBit_two_pow, Bool.or_eq_true, decide_eq_true_eq]

/-- A set of bits that a loop collects. -/
theorem testBit_foldl {α : Type*} {f : ℕ → α → ℕ} {q : α → Prop}
    (hstep : ∀ x a, (f x a).testBit n ↔ x.testBit n ∨ q a) (l : List α) (x : ℕ) :
    (l.foldl f x).testBit n ↔ x.testBit n ∨ ∃ a ∈ l, q a := by
  induction l generalizing x with
  | nil => simp
  | cons a l ih =>
    rw [List.foldl_cons, ih, hstep]
    simp [or_assoc]

end BitField
