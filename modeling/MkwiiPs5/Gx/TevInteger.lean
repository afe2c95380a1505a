import Mathlib.Tactic.IntervalCases
import MkwiiPs5.BitField
import MkwiiPs5.Gx.TevProgram

/-!
# The packed evaluator on integers

A TEV program whose inputs are integers leaves integers in the registers: those that the integer
reference gives, with the selectors that the state of the registers had before they were packed.
-/

namespace Gx.Tev

open BitField (field)
open Loop (bind_eq_ok)

/-! ### The integer operations do not overflow -/

section Integers

variable (A : Arithmetic) {a b c d bias : ℤ} {op scale : ℕ}

/-- A product of the interpolation. -/
theorem interpolation_bounds (ha : 0 ≤ a ∧ a ≤ 255) (hb : 0 ≤ b ∧ b ≤ 255) {w : ℤ}
    (hw : 0 ≤ w ∧ w ≤ 256) : 0 ≤ a * 256 + (b - a) * w ∧ a * 256 + (b - a) * w ≤ 65280 := by
  have hsplit : a * 256 + (b - a) * w = a * (256 - w) + b * w := by ring
  rw [hsplit]
  constructor
  · exact add_nonneg (mul_nonneg ha.1 (by omega)) (mul_nonneg hb.1 hw.1)
  · have hleft : a * (256 - w) ≤ 255 * (256 - w) := mul_le_mul_of_nonneg_right ha.2 (by omega)
    have hright : b * w ≤ 255 * w := mul_le_mul_of_nonneg_right hb.2 hw.1
    omega

/-- The result of the regular operations fits in 14 bits, and so do the intermediates in 32. -/
theorem regular_spec (ha : 0 ≤ a ∧ a ≤ 255) (hb : 0 ≤ b ∧ b ≤ 255) (hc : 0 ≤ c ∧ c ≤ 255)
    (hd : -1024 ≤ d ∧ d ≤ 1023) (hbias : -128 ≤ bias ∧ bias ≤ 128) (A' : Arithmetic) :
    regular A a b c d op bias scale = regular A' a b c d op bias scale ∧
      |regular A a b c d op bias scale| ≤ 8192 := by
  have hshift : c >>> (7 : ℕ) = c / 128 := Int.shiftRight_eq_div_pow c 7
  have hw : 0 ≤ c + c / 128 ∧ c + c / 128 ≤ 256 := by omega
  -- the product is at most a byte times 256, so that no step leaves 32 bits
  have hproduct := interpolation_bounds ha hb hw
  set p := (b - a) * (c + c / 128) with hp
  obtain ⟨factor, hfactor, hcases⟩ : ∃ factor : ℤ,
      factor = (if scale = 1 then 2 else if scale = 2 then 4 else 1) ∧
        (factor = 1 ∨ factor = 2 ∨ factor = 4) := by
    refine ⟨_, rfl, ?_⟩
    split_ifs <;> omega
  have hcore : ∀ A : Arithmetic, regular A a b c d op bias scale =
      (let interpolation := (a * 256 + p) * factor +
        (if scale ≠ 3 then if op = 1 then 127 else 128 else 0)
      let lerp := interpolation / 256
      let result := (d + bias) * factor + if op = 1 then -lerp else lerp
      if scale = 3 then result / 2 else result) ∧
      |regular A a b c d op bias scale| ≤ 8192 := by
    intro A
    have h₁ : A.i32 (a * 256) = a * 256 := A.i32_eq (by omega) (by omega)
    have h₂ : A.i32 (b - a) = b - a := A.i32_eq (by omega) (by omega)
    have h₃ : A.i32 (c + c / 128) = c + c / 128 := A.i32_eq (by omega) (by omega)
    have h₄ : A.i32 p = p := A.i32_eq (by omega) (by omega)
    have h₅ : A.i32 (a * 256 + p) = a * 256 + p := A.i32_eq (by omega) (by omega)
    have h₆ : A.i32 ((a * 256 + p) * factor) = (a * 256 + p) * factor := by
      rcases hcases with h | h | h <;> rw [h] <;> exact A.i32_eq (by omega) (by omega)
    have h₇ : A.i32 (d + bias) = d + bias := A.i32_eq (by omega) (by omega)
    have h₈ : A.i32 ((d + bias) * factor) = (d + bias) * factor := by
      rcases hcases with h | h | h <;> rw [h] <;> exact A.i32_eq (by omega) (by omega)
    have hlerp : ∀ x : ℤ, x >>> (8 : ℕ) = x / 256 := fun x => Int.shiftRight_eq_div_pow x 8
    have hhalf : ∀ x : ℤ, x >>> (1 : ℕ) = x / 2 := fun x => Int.shiftRight_eq_div_pow x 1
    rw [regular, hshift, ← hfactor, h₁, h₂, h₃, ← hp, h₄, h₅, h₆, h₇, h₈]
    simp only [hlerp, hhalf]
    have hx : 0 ≤ (a * 256 + p) * factor ∧ (a * 256 + p) * factor ≤ 261120 := by
      rcases hcases with h | h | h <;> rw [h] <;> omega
    have hy : -4608 ≤ (d + bias) * factor ∧ (d + bias) * factor ≤ 4608 := by
      rcases hcases with h | h | h <;> rw [h] <;> omega
    generalize (a * 256 + p) * factor = x at hx
    generalize (d + bias) * factor = y at hy
    -- what is left is a division that rounds down, for four scales and two signs
    have hi32 : ∀ z : ℤ, -2 ^ 31 ≤ z → z < 2 ^ 31 → A.i32 z = z := fun z => A.i32_eq
    by_cases hscale : scale = 3 <;> by_cases hop : op = 1 <;>
      simp (disch := omega) only [hscale, hop, ne_eq, not_true_eq_false, if_true, if_false, hi32,
        not_false_eq_true, add_zero, abs_le, true_and] <;>
      omega
  exact ⟨(hcore A).1.trans (hcore A').1.symm, (hcore A).2⟩

theorem byte_cast (x : ℤ) : (byte x : ℤ) = x % 256 :=
  Int.toNat_of_nonneg (Int.emod_nonneg x (by decide))

theorem byte_bounds (x : ℤ) : (0 : ℤ) ≤ byte x ∧ (byte x : ℤ) ≤ 255 := by
  rw [byte_cast]
  omega

theorem clamp_bounds (clamps : Bool) (x : ℤ) : -1024 ≤ clamp clamps x ∧ clamp clamps x ≤ 1023 := by
  rw [clamp]
  cases clamps <;> simp only [if_true, Bool.false_eq_true, if_false] <;> split_ifs <;> omega

end Integers

/-! ### Operations on floats that are integers -/

/-- A value of integers, as the floats that stand for them. -/
def Value.map {α β : Type*} (f : α → β) (v : Value α) : Value β := ⟨f v.r, f v.g, f v.b, f v.a⟩

def Registers.map {α β : Type*} (f : α → β) (v : Registers α) : Registers β :=
  ⟨v.prev.map f, v.reg0.map f, v.reg1.map f, v.reg2.map f⟩

/-- The floats of integers. -/
def Value.float (v : Value ℤ) : Value ℚ := v.map (↑)
def Registers.float (v : Registers ℤ) : Registers ℚ := v.map (↑)

/-- All components in a range. -/
structure Value.Within (lo hi : ℤ) (v : Value ℤ) : Prop where
  r : lo ≤ v.r ∧ v.r ≤ hi
  g : lo ≤ v.g ∧ v.g ≤ hi
  b : lo ≤ v.b ∧ v.b ≤ hi
  a : lo ≤ v.a ∧ v.a ≤ hi

structure Registers.Within (lo hi : ℤ) (v : Registers ℤ) : Prop where
  prev : v.prev.Within lo hi
  reg0 : v.reg0.Within lo hi
  reg1 : v.reg1.Within lo hi
  reg2 : v.reg2.Within lo hi

section Floats

variable (R : SingleRounding) (A : Arithmetic)

theorem round_intCast {n : ℤ} (h : |n| ≤ 2 ^ 24) : round A (n : ℚ) = n := by
  rw [abs_le] at h
  rw [round, roundEven_intCast, A.i32_eq (by omega) (by omega)]

theorem wrap_intCast {n : ℤ} (h : |n| ≤ 2 ^ 15) : wrap R n = (byte n : ℤ) := by
  rw [abs_le] at h
  have hquotient : R.round ((n : ℚ) * (1 / 256)) = n / 2 ^ 8 := by
    rw [← R.round_dyadic n 8 (abs_le.mpr ⟨by omega, by omega⟩) (by omega)]
    norm_num [div_eq_mul_inv]
  have hfloor : ⌊(n : ℚ) / 2 ^ 8⌋ = n / 256 := by
    have := Rat.floor_intCast_div_natCast n 256
    norm_num at this ⊢
    exact this
  rw [wrap, hquotient, hfloor, byte_cast]
  have hproduct : R.round (((n / 256 : ℤ) : ℚ) * 256) = ((n / 256 * 256 : ℤ) : ℚ) := by
    rw [← R.round_int (abs_le.mpr ⟨by omega, by omega⟩ : |n / 256 * 256| ≤ 2 ^ 24)]
    push_cast
    rfl
  rw [hproduct, ← Int.cast_sub, R.round_int (abs_le.mpr ⟨by omega, by omega⟩)]
  congr 1
  omega

end Floats

/-! ### Fields of packed words -/

/-- The fields of a word add up. -/
theorem or_shiftLeft {x i : ℕ} (h : x < 2 ^ i) (y : ℕ) : x ||| y <<< i = x + y * 2 ^ i := by
  rw [Nat.or_comm, ← Nat.shiftLeft_add_eq_or_of_lt h, Nat.shiftLeft_eq, Nat.add_comm]

theorem and_fifteen (x : ℕ) : x &&& 15 = x % 16 := Nat.and_two_pow_sub_one_eq_mod x 4
theorem and_seven (x : ℕ) : x &&& 7 = x % 8 := Nat.and_two_pow_sub_one_eq_mod x 3
theorem and_three (x : ℕ) : x &&& 3 = x % 4 := Nat.and_two_pow_sub_one_eq_mod x 2

/-- What a packed operation says of the operation of the registers. -/
structure OpFields (flags : ℕ) (v : TevOp) : Prop where
  op : flags &&& 15 = v.op
  scale : (flags >>> 4) &&& 3 = v.scale
  clamp : flags &&& 64 ≠ 0 ↔ v.clamp = true
  bias : (flags >>> 8) &&& 3 = shiftedBias v
  outReg : (flags >>> 10) &&& 3 = v.outReg
  valid : v.op < 2 ∨ 8 ≤ v.op ∧ v.op ≤ 15
  bias_le : v.bias ≤ 2
  plain : 8 ≤ v.op → v.bias = 0

/-- An operation as it is packed: comparisons have no bias. -/
def normalOp (v : TevOp) : TevOp := { v with bias := if 8 ≤ v.op then 0 else v.bias }

theorem shiftedBias_normalOp (v : TevOp) : shiftedBias (normalOp v) = shiftedBias v := by
  rw [shiftedBias, shiftedBias, normalOp]
  dsimp only
  split_ifs <;> rfl

theorem operation_fields {v : TevOp} {flags : ℕ} (h : operation v = .ok flags) :
    OpFields flags (normalOp v) := by
  obtain ⟨_, hvalid, h⟩ := bind_eq_ok.1 h
  obtain ⟨_, hbias, h⟩ := bind_eq_ok.1 h
  obtain rfl := Except.ok.inj h
  rw [validate, require_eq_ok, decide_eq_true_eq] at hbias
  rw [validate, require_eq_ok] at hvalid
  simp only [Bool.and_eq_true, Bool.or_eq_true, decide_eq_true_eq, and_assoc] at hvalid
  obtain ⟨hop, hscale, hout⟩ := hvalid
  rw [GX_CS_DIVIDE_2] at hscale
  rw [GX_TEVREG2] at hout
  have hclamp : v.clamp.toNat ≤ 1 := v.clamp.toNat_le
  have hshifted : shiftedBias v ≤ 2 := by
    rw [shiftedBias]
    split_ifs <;> omega
  -- the fields of the word do not overlap, so that shifts and ors are sums
  have hword : v.op ||| v.scale <<< 4 ||| v.clamp.toNat <<< 6 ||| shiftedBias v <<< 8 |||
      v.outReg <<< 10 =
      v.op + v.scale * 2 ^ 4 + v.clamp.toNat * 2 ^ 6 + shiftedBias v * 2 ^ 8 +
        v.outReg * 2 ^ 10 := by
    have hscale' := or_shiftLeft (show v.op < 2 ^ 4 by omega) v.scale
    have hclamp' := or_shiftLeft (show v.op + v.scale * 2 ^ 4 < 2 ^ 6 by omega) v.clamp.toNat
    have hbias' := or_shiftLeft
      (show v.op + v.scale * 2 ^ 4 + v.clamp.toNat * 2 ^ 6 < 2 ^ 8 by omega) (shiftedBias v)
    rw [hscale', hclamp', hbias', or_shiftLeft (by omega)]
  rw [hword]
  refine ⟨?_, ?_, ?_, ?_, ?_, ?_, hbias, fun hop => if_pos hop⟩
  · change _ = v.op
    rw [and_fifteen]
    omega
  · change _ = v.scale
    rw [and_three, Nat.shiftRight_eq_div_pow]
    omega
  · change _ ↔ v.clamp = true
    -- the flag is one bit of the word
    have hbit : (v.op + v.scale * 2 ^ 4 + v.clamp.toNat * 2 ^ 6 + shiftedBias v * 2 ^ 8 +
        v.outReg * 2 ^ 10) / 2 ^ 6 % 2 = v.clamp.toNat := by omega
    have hand := Nat.and_two_pow (v.op + v.scale * 2 ^ 4 + v.clamp.toNat * 2 ^ 6 +
      shiftedBias v * 2 ^ 8 + v.outReg * 2 ^ 10) 6
    rw [Nat.testBit_eq_decide_div_mod_eq, hbit] at hand
    rw [show 64 = 2 ^ 6 from rfl, hand]
    cases v.clamp <;> decide
  · rw [shiftedBias_normalOp, and_three, Nat.shiftRight_eq_div_pow]
    omega
  · change _ = v.outReg
    rw [and_three, Nat.shiftRight_eq_div_pow]
    omega
  · change v.op < 2 ∨ 8 ≤ v.op ∧ v.op ≤ 15
    omega

/-! ### The operation of a component -/

/-- `GXTevBias` in bytes. -/
def biasValue (v : TevOp) : ℤ :=
  if v.bias = GX_TB_ADDHALF then 128 else if v.bias = GX_TB_SUBHALF then -128 else 0

theorem biasValue_bounds (v : TevOp) : -128 ≤ biasValue v ∧ biasValue v ≤ 128 := by
  rw [biasValue]
  split_ifs <;> omega

/-- The color of a comparison in one word: red, green and blue from the first byte on. -/
def packBytes (v : Value ℤ) : ℕ := byte v.r ||| byte v.g <<< 8 ||| byte v.b <<< 16

/-- The bytes of a comparison. -/
def compareMask (op : ℕ) : ℕ := if op < 10 then 255 else if op < 12 then 65535 else 16777215

def Value.bytes (v : Value ℤ) : Value ℤ := v.map fun x => byte x

section Floats

variable (R : SingleRounding) (A : Arithmetic)

theorem wrap4_float {v : Value ℤ} (hv : v.Within (-1024) 1023) :
    wrap4 R v.float = v.bytes.float := by
  obtain ⟨hr, hg, hb, ha⟩ := hv
  have hwrap : ∀ x : ℤ, -1024 ≤ x ∧ x ≤ 1023 → wrap R (x : ℚ) = ((byte x : ℤ) : ℚ) := fun x hx =>
    wrap_intCast R (abs_le.mpr ⟨by omega, by omega⟩)
  exact Value.ext (hwrap v.r hr) (hwrap v.g hg) (hwrap v.b hb) (hwrap v.a ha)

theorem packed_bytes (v : Value ℤ) (op : ℕ) :
    packed R v.bytes.float op = ((packBytes v &&& compareMask op : ℕ) : ℤ) := by
  have hr := byte_bounds v.r
  have hg := byte_bounds v.g
  have hb := byte_bounds v.b
  have hgreen := or_shiftLeft (show byte v.r < 2 ^ 8 by omega) (byte v.g)
  have hword : packBytes v = byte v.r + byte v.g * 2 ^ 8 + byte v.b * 2 ^ 16 := by
    rw [packBytes, hgreen, or_shiftLeft (by omega)]
  have h₈ : packBytes v &&& 255 = byte v.r :=
    (Nat.and_two_pow_sub_one_eq_mod _ 8).trans (by omega)
  have h₁₆ : packBytes v &&& 65535 = byte v.r + byte v.g * 2 ^ 8 :=
    (Nat.and_two_pow_sub_one_eq_mod _ 16).trans (by omega)
  have h₂₄ : packBytes v &&& 16777215 = byte v.r + byte v.g * 2 ^ 8 + byte v.b * 2 ^ 16 :=
    (Nat.and_two_pow_sub_one_eq_mod _ 24).trans (by omega)
  -- the floats of the sums are exact
  have hexact : ∀ n : ℕ, n ≤ 2 ^ 24 → R.round (n : ℚ) = n := by
    intro n hn
    have hint := R.round_int (n := n) (abs_le.mpr ⟨by omega, by omega⟩)
    exact_mod_cast hint
  have hsum₁ : R.round ((byte v.r : ℚ) + R.round ((byte v.g : ℚ) * 256)) =
      (byte v.r + byte v.g * 2 ^ 8 : ℕ) := by
    have hproduct := hexact (byte v.g * 2 ^ 8) (by omega)
    have hsum := hexact (byte v.r + byte v.g * 2 ^ 8) (by omega)
    push_cast at hproduct hsum ⊢
    rw [hproduct, hsum]
  have hsum₂ : R.round (((byte v.r + byte v.g * 2 ^ 8 : ℕ) : ℚ) +
      R.round ((byte v.b : ℚ) * 65536)) =
      (byte v.r + byte v.g * 2 ^ 8 + byte v.b * 2 ^ 16 : ℕ) := by
    have hproduct := hexact (byte v.b * 2 ^ 16) (by omega)
    have hsum := hexact (byte v.r + byte v.g * 2 ^ 8 + byte v.b * 2 ^ 16) (by omega)
    push_cast at hproduct hsum ⊢
    rw [hproduct, hsum]
  have hvalue : v.bytes.float = ⟨(byte v.r : ℚ), byte v.g, byte v.b, byte v.a⟩ := by
    simp [Value.bytes, Value.float, Value.map]
  rw [packed, compareMask, hvalue]
  dsimp only
  by_cases hten : op ≥ 10
  · by_cases htwelve : op ≥ 12
    · rw [if_pos hten, if_pos htwelve, if_neg (by omega), if_neg (by omega), hsum₁, hsum₂, h₂₄,
        Int.cast_natCast]
    · rw [if_pos hten, if_neg htwelve, if_neg (by omega), if_pos (by omega), hsum₁, h₁₆,
        Int.cast_natCast]
  · rw [if_neg hten, if_neg (by omega), if_pos (by omega), h₈, Int.cast_natCast]

/-- A comparison of floats is that of the packed words. -/
theorem compare_bytes (a b : Value ℤ) (op : ℕ) :
    compare R A a.bytes.float b.bytes.float op =
      if op &&& 1 ≠ 0 then packBytes a &&& compareMask op == packBytes b &&& compareMask op
      else decide (packBytes a &&& compareMask op > packBytes b &&& compareMask op) := by
  have hmask : compareMask op < 2 ^ 24 := by
    rw [compareMask]
    split_ifs <;> omega
  have hround : ∀ v : Value ℤ, round A (packed R v.bytes.float op) =
      ((packBytes v &&& compareMask op : ℕ) : ℤ) := by
    intro v
    have hle : packBytes v &&& compareMask op ≤ compareMask op := Nat.and_le_right
    rw [packed_bytes]
    exact round_intCast A (abs_le.mpr ⟨by omega, by omega⟩)
  rw [compare, hround, hround]
  split_ifs
  · rw [Bool.eq_iff_iff, beq_iff_eq, beq_iff_eq, Int.ofNat_inj]
  · exact decide_eq_decide.mpr Int.ofNat_lt

/-- One component of the packed evaluator is the component of the reference. -/
theorem eval_eq {flags : ℕ} {v : TevOp} (hflags : OpFields flags v) {a b c d : ℤ}
    (hd : -1024 ≤ d ∧ d ≤ 1023) {colorA colorB : ℕ} {pass : Bool}
    (hpass : 8 ≤ v.op → v.op < 14 → pass =
      if v.op &&& 1 ≠ 0 then colorA &&& compareMask v.op == colorB &&& compareMask v.op
      else decide (colorA &&& compareMask v.op > colorB &&& compareMask v.op)) (A' : Arithmetic) :
    eval R A ((byte a : ℤ) : ℚ) ((byte b : ℤ) : ℚ) ((byte c : ℤ) : ℚ) (d : ℚ) flags pass =
      (component A' a b c d colorA colorB v.op (biasValue v) v.scale v.clamp : ℤ) := by
  -- inputs are whole numbers that the format holds, so that nothing is lost in rounding them
  have hround : ∀ x : ℤ, round A ((byte x : ℤ) : ℚ) = byte x := by
    intro x
    have := byte_bounds x
    exact round_intCast A (abs_le.mpr ⟨by omega, by omega⟩)
  have hroundD : round A (d : ℚ) = d := round_intCast A (abs_le.mpr ⟨by omega, by omega⟩)
  have hclamp : ∀ x : ℤ, (if (x : ℚ) < (if flags &&& 64 ≠ 0 then 0 else -1024) then
      if flags &&& 64 ≠ 0 then 0 else -1024
      else if (x : ℚ) > (if flags &&& 64 ≠ 0 then 255 else 1023) then
        if flags &&& 64 ≠ 0 then 255 else 1023
      else (x : ℚ)) = (clamp v.clamp x : ℤ) := by
    intro x
    rw [clamp]
    cases hc : v.clamp with
    | true =>
      have hbit := hflags.clamp.mpr hc
      simp only [if_pos hbit, if_true]
      split_ifs <;> norm_cast at *
    | false =>
      have hbit : ¬ flags &&& 64 ≠ 0 := fun hbit =>
        Bool.false_ne_true (hc.symm.trans (hflags.clamp.mp hbit))
      simp only [if_neg hbit, Bool.false_eq_true, if_false]
      split_ifs <;> norm_cast at *
  rw [eval, component, hflags.op, hflags.scale, hflags.bias, hround, hround, hround, hroundD]
  dsimp only
  rcases hflags.valid with hop | hop
  · -- adding and subtracting: the packed bias is shifted to be a natural number
    have hshifted : A.i32 (A.i32 ((shiftedBias v : ℤ) * 128) - 128) = biasValue v := by
      have hsmall : shiftedBias v ≤ 2 ∧ (shiftedBias v : ℤ) * 128 - 128 = biasValue v := by
        rw [shiftedBias, biasValue, if_neg (by omega : ¬ 8 ≤ v.op)]
        split_ifs <;> omega
      have hproduct : A.i32 ((shiftedBias v : ℤ) * 128) = shiftedBias v * 128 :=
        A.i32_eq (by omega) (by omega)
      rw [hproduct, A.i32_eq (by omega) (by omega), hsmall.2]
    obtain ⟨hsame, hbound⟩ :
        regular A (byte a) (byte b) (byte c) d v.op (biasValue v) v.scale =
          regular A' (byte a) (byte b) (byte c) d v.op (biasValue v) v.scale ∧
        |regular A (byte a) (byte b) (byte c) d v.op (biasValue v) v.scale| ≤ 8192 :=
      regular_spec A (byte_bounds a) (byte_bounds b) (byte_bounds c) hd (biasValue_bounds v) A'
    simp only [if_pos hop]
    rw [hshifted, R.round_int (hbound.trans (by norm_num)), hclamp, hsame]
  · -- comparing: the sum is small, so that it is rounded once at most and exactly
    have hnot : ¬ v.op < 2 := by omega
    simp only [if_neg hnot]
    have hpass' : (if v.op ≥ 14 then
        if v.op &&& 1 ≠ 0 then (byte a : ℤ) == (byte b : ℤ)
        else decide ((byte a : ℤ) > (byte b : ℤ))
        else pass) = componentPass (byte a) (byte b) colorA colorB v.op := by
      rw [componentPass]
      by_cases hscalar : v.op ≥ 14
      · have hmany : ¬ v.op < 14 := by omega
        simp only [if_pos hscalar, if_neg hmany]
        split_ifs
        · rw [Bool.eq_iff_iff, beq_iff_eq, beq_iff_eq, Int.ofNat_inj]
        · exact decide_eq_decide.mpr Int.ofNat_lt
      · have hfew : v.op < 14 := by omega
        simp only [if_neg hscalar, if_pos hfew]
        exact hpass hop.1 hfew
    rw [hpass']
    generalize componentPass (byte a) (byte b) colorA colorB v.op = passes
    have hc := byte_bounds c
    obtain ⟨sum, hsum⟩ : ∃ sum, sum = d + if passes then (byte c : ℤ) else 0 := ⟨_, rfl⟩
    have hbound : -1024 ≤ sum ∧ sum ≤ 1278 := by
      rw [hsum]
      split_ifs <;> omega
    have hfloat : (d : ℚ) + (if passes then ((byte c : ℤ) : ℚ) else 0) = sum := by
      rw [hsum]
      push_cast
      split_ifs <;> rfl
    rw [← hsum, hfloat, R.round_int (abs_le.mpr ⟨by omega, by omega⟩), hclamp,
      A'.i32_eq (by omega) (by omega)]

end Floats

end Gx.Tev
