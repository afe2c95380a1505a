import Mathlib.Algebra.BigOperators.Intervals
import Mathlib.Algebra.BigOperators.Ring.Finset
import Mathlib.Algebra.Order.BigOperators.Group.Finset
import Mathlib.Data.Nat.Bitwise
import Mathlib.Tactic.IntervalCases
import MkwiiPs5.Gpu.TextureLayout
import MkwiiPs5.Loop

/-!
# Texels of a layout do not overlap

The exact shape of a texture layout: large levels in regions of their own, small levels in boxes
of the tail block, and texels of 64 KiB blocks permuted by the swizzle.
-/

namespace Gpu.TextureLayout

open Overlay (write load)

/-! ### The swizzle -/

/-- The swizzle without wrapping. -/
def permute (x y : ℕ) : ℕ :=
  (y <<< 4 &&& 0x70) ^^^ (y <<< 5 &&& 0xf00) ^^^ (y <<< 9 &&& 0x1000) ^^^
    (y <<< 8 &&& 0x4000) ^^^ (x <<< 2 &&& 0xc) ^^^ (x <<< 5 &&& 0x380) ^^^
    (x <<< 4 &&& 0x400) ^^^ (x <<< 6 &&& 0x800) ^^^ (x <<< 9 &&& 0xa000)

theorem shl_eq (A : Arithmetic) {x k : ℕ} (hx : x < 2 ^ 15) (hk : k ≤ 9) :
    shl A x k = x <<< k := by
  have hpow : 2 ^ k ≤ 2 ^ 9 := Nat.pow_le_pow_right (by decide) hk
  have hlt : x * 2 ^ k < 2 ^ 32 := calc
    x * 2 ^ k ≤ x * 2 ^ 9 := Nat.mul_le_mul_left _ hpow
    _ < 2 ^ 32 := by omega
  rw [shl, Nat.shiftLeft_eq]
  exact A.u32_eq (by push_cast; rfl) hlt

theorem swizzle_eq (A : Arithmetic) {x y : ℕ} (hx : x < 2 ^ 15) (hy : y < 2 ^ 15) :
    swizzle A x y = permute x y := by
  simp only [swizzle, permute]
  rw [shl_eq A hy (by decide), shl_eq A hy (by decide), shl_eq A hy (by decide),
    shl_eq A hy (by decide), shl_eq A hx (by decide), shl_eq A hx (by decide),
    shl_eq A hx (by decide), shl_eq A hx (by decide), shl_eq A hx (by decide)]

theorem permute_lt (x y : ℕ) : permute x y < 65536 := by
  have hmask (a m : ℕ) (hm : m < 2 ^ 16) : a &&& m < 2 ^ 16 := Nat.and_lt_two_pow a hm
  rw [permute]
  refine Nat.xor_lt_two_pow (n := 16) (Nat.xor_lt_two_pow (Nat.xor_lt_two_pow (Nat.xor_lt_two_pow
    (Nat.xor_lt_two_pow (Nat.xor_lt_two_pow (Nat.xor_lt_two_pow (Nat.xor_lt_two_pow ?_ ?_) ?_) ?_)
    ?_) ?_) ?_) ?_) ?_
  all_goals exact hmask _ _ (by decide)

theorem four_dvd_permute (x y : ℕ) : 4 ∣ permute x y := by
  have hmod (a b : ℕ) : (a ^^^ b) % 4 = a % 4 ^^^ b % 4 := Nat.xor_mod_two_pow (n := 2)
  have hand (a m : ℕ) (hm : m % 4 = 0) : (a &&& m) % 4 = 0 := by
    rw [show 4 = 2 ^ 2 from rfl, Nat.and_mod_two_pow]
    rw [show (2 ^ 2 : ℕ) = 4 from rfl, hm, Nat.and_zero]
  apply Nat.dvd_of_mod_eq_zero
  simp only [permute, hmod]
  simp only [hand, Nat.reduceMod, Nat.xor_self]

theorem shiftLeft_mod_and {x k mask : ℕ} (h : mask < 2 ^ (7 + k)) :
    (x % 128) <<< k &&& mask = x <<< k &&& mask := by
  apply Nat.eq_of_testBit_eq
  intro i
  rw [Nat.testBit_and, Nat.testBit_and, Nat.testBit_shiftLeft, Nat.testBit_shiftLeft,
    show (128 : ℕ) = 2 ^ 7 from rfl, Nat.testBit_mod_two_pow]
  by_cases hi : i - k < 7
  · rw [decide_eq_true hi, Bool.true_and]
  · have hpow : 2 ^ (7 + k) ≤ 2 ^ i := Nat.pow_le_pow_right (by decide) (by omega)
    rw [Nat.testBit_eq_false_of_lt (h.trans_le hpow), Bool.and_false, Bool.and_false]

/-- Only the place in a block of 128 by 128 texels counts. -/
theorem permute_mod (x y : ℕ) : permute (x % 128) (y % 128) = permute x y := by
  simp only [permute]
  rw [shiftLeft_mod_and (by decide), shiftLeft_mod_and (by decide), shiftLeft_mod_and (by decide),
    shiftLeft_mod_and (by decide), shiftLeft_mod_and (by decide), shiftLeft_mod_and (by decide),
    shiftLeft_mod_and (by decide), shiftLeft_mod_and (by decide), shiftLeft_mod_and (by decide)]

theorem eq_of_testBit_lt {a b : ℕ} (ha : a < 128) (hb : b < 128)
    (h : ∀ i < 7, a.testBit i = b.testBit i) : a = b := by
  apply Nat.eq_of_testBit_eq
  intro i
  by_cases hi : i < 7
  · exact h i hi
  · have hpow : 2 ^ 7 ≤ 2 ^ i := Nat.pow_le_pow_right (by decide) (by omega)
    rw [Nat.testBit_eq_false_of_lt (by omega), Nat.testBit_eq_false_of_lt (by omega)]

theorem testBit_shiftLeft_and (x k mask i : ℕ) :
    (x <<< k &&& mask).testBit i =
      if mask.testBit i = true ∧ k ≤ i then x.testBit (i - k) else false := by
  rw [Nat.testBit_and, Nat.testBit_shiftLeft]
  by_cases hk : k ≤ i <;> cases mask.testBit i <;> simp [hk]

/-- The high bits of a permuted offset are bits of one coordinate, and give away the mixed ones. -/
theorem permute_injective {x y x' y' : ℕ} (hx : x < 128) (hy : y < 128) (hx' : x' < 128)
    (hy' : y' < 128) (h : permute x y = permute x' y') : x = x' ∧ y = y' := by
  have bit (i : ℕ) : (permute x y).testBit i = (permute x' y').testBit i := by rw [h]
  have x0 := bit 2
  have x1 := bit 3
  have y0 := bit 4
  have y1 := bit 5
  have y2 := bit 6
  have x2 := bit 7
  have x3 := bit 8
  have y4 := bit 9
  have y5 := bit 10
  have x5 := bit 11
  have y3 := bit 12
  have x4 := bit 13
  have y6 := bit 14
  have x6 := bit 15
  simp +decide only [permute, Nat.testBit_xor, testBit_shiftLeft_and, if_true, if_false,
    Bool.false_xor, Bool.xor_false, Nat.reduceSub]
    at x0 x1 x2 x3 x4 x5 x6 y0 y1 y2 y3 y4 y5 y6
  constructor
  · apply eq_of_testBit_lt hx hx'
    intro i hi
    interval_cases i <;> simp_all
  · apply eq_of_testBit_lt hy hy'
    intro i hi
    interval_cases i <;> simp_all

/-! ### The shape of a layout -/

/-- Multiples of 128, and the larger half of a size at each level. -/
def pad (n : ℕ) : ℕ := (n + 127) / 128 * 128
def ceil (n m : ℕ) : ℕ := max 1 ((n + (2 ^ m - 1)) / 2 ^ m)

def levelBytes (width height m : ℕ) : ℕ := pad (ceil width m) * pad (ceil height m) * 4

theorem pad_le {n : ℕ} (h : n ≤ 16384) : pad n ≤ 16384 := by
  rw [pad]
  omega

theorem ceil_le {n m : ℕ} (h : n ≤ 16384) : ceil n m ≤ 16384 := by
  have hpow : 0 < 2 ^ m := Nat.two_pow_pos m
  rw [ceil]
  apply max_le (by decide)
  apply Nat.le_of_lt_succ
  rw [Nat.div_lt_iff_lt_mul hpow]
  have : 16384 ≤ 16384 * 2 ^ m := Nat.le_mul_of_pos_right _ hpow
  omega

/-- The size of a level, which rounds down, is at most what is reserved for it. -/
theorem max_shiftRight_le_ceil (n m : ℕ) : max 1 (n >>> m) ≤ ceil n m := by
  rw [ceil, Nat.shiftRight_eq_div_pow]
  exact max_le_max le_rfl (Nat.div_le_div_right (by omega))

theorem levelBytes_le {width height m : ℕ} (hw : width ≤ 16384) (hh : height ≤ 16384) :
    levelBytes width height m ≤ 2 ^ 30 := by
  rw [levelBytes]
  have := Nat.mul_le_mul (pad_le (ceil_le (m := m) hw)) (pad_le (ceil_le (m := m) hh))
  omega

theorem aligned_eq (A : Arithmetic) {n : ℕ} (h : n ≤ 16384) : aligned A n = pad n := by
  have hmask : (0xffffff80 : ℕ) = (2 ^ 25 - 1) <<< 7 := rfl
  rw [aligned, A.u32_eq (n := n + 127) (by push_cast; rfl) (by omega), pad, hmask]
  exact Arithmetic.and_highBits (by omega)

theorem ceilMip_eq (A : Arithmetic) {n m : ℕ} (hn : n ≤ 16384) (hm : m < 15) :
    ceilMip A n m = ceil n m := by
  have hlo : 1 ≤ 2 ^ m := Nat.one_le_two_pow
  have hhi : 2 ^ m ≤ 2 ^ 14 := Nat.pow_le_pow_right (by decide) (by omega)
  have hstep : A.u32 (2 ^ m) = 2 ^ m := A.u32_eq (by push_cast; rfl) (by omega)
  have hround : A.u32 ((n + 2 ^ m : ℕ) - 1) = n + (2 ^ m - 1) := A.u32_eq (by omega) (by omega)
  rw [ceilMip, hstep, A.u32_add (by omega), hround, Nat.shiftRight_eq_div_pow, ceil]

/-- A level can start the tail. -/
def FitsTail (width height mipCount m : ℕ) : Prop :=
  1 < mipCount ∧ ceil width m ≤ 64 ∧ ceil height m ≤ 128 ∧ mipCount - m ≤ 12

instance (width height mipCount m : ℕ) : Decidable (FitsTail width height mipCount m) :=
  inferInstanceAs (Decidable (_ ∧ _))

/-- `addMip` without wrapping. -/
def addLevel (width height mipCount : ℕ) (s : Building) (m : ℕ) : Building :=
  let w := max 1 (width >>> m)
  let h := max 1 (height >>> m)
  let firstTail :=
    if s.firstTail = mipCount ∧ FitsTail width height mipCount m then m else s.firstTail
  if m < firstTail then
    { firstTail := firstTail
      sizes := Function.update s.sizes m (levelBytes width height m)
      bytes := s.bytes + levelBytes width height m
      linearBytes := s.linearBytes + w * h * 4
      mips := Function.update s.mips m ⟨w, h, pad (ceil width m), 0, 0, 0⟩ }
  else
    { s with
      firstTail := firstTail
      linearBytes := s.linearBytes + w * h * 4
      mips := Function.update s.mips m
        ⟨w, h, 128, (tail.getD (m - firstTail) (0, 0)).1, (tail.getD (m - firstTail) (0, 0)).2, 0⟩ }

/-- The running totals after `m` levels stay small. -/
def Bounded (m : ℕ) (s : Building) : Prop :=
  s.bytes ≤ m * 2 ^ 30 ∧ s.linearBytes ≤ m * 2 ^ 30

theorem texels_le {width height m : ℕ} (hw : width ≤ 16384) (hh : height ≤ 16384) :
    max 1 (width >>> m) * max 1 (height >>> m) * 4 ≤ 2 ^ 30 := by
  have hw' := (max_shiftRight_le_ceil width m).trans (ceil_le hw)
  have hh' := (max_shiftRight_le_ceil height m).trans (ceil_le hh)
  have := Nat.mul_le_mul hw' hh'
  omega

theorem bytes_eq (A : Arithmetic) {texels : ℕ} (h : texels * 4 < 2 ^ 64) :
    A.u64 (texels * 4) = texels * 4 := A.u64_eq (by push_cast; rfl) h

theorem addMip_eq (A : Arithmetic) {width height mipCount m : ℕ} {s : Building}
    (hw : width ≤ 16384) (hh : height ≤ 16384) (hcount : mipCount ≤ 15) (hm : m < mipCount)
    (hs : Bounded m s) :
    addMip A width height mipCount s m = addLevel width height mipCount s m := by
  obtain ⟨hbytes, hlinear⟩ := hs
  have htexels := texels_le (m := m) hw hh
  have hlevel := levelBytes_le (m := m) hw hh
  have hmul : m * 2 ^ 30 ≤ 15 * 2 ^ 30 := Nat.mul_le_mul_right _ (by omega)
  have hfirst : (1 < mipCount ∧ s.firstTail = mipCount ∧ ceil width m ≤ 64 ∧
      ceil height m ≤ 128 ∧ mipCount - m ≤ 12) ↔
      (s.firstTail = mipCount ∧ FitsTail width height mipCount m) := and_left_comm
  simp only [addMip, addLevel]
  rw [levelBytes] at hlevel ⊢
  rw [ceilMip_eq A hw (by omega), ceilMip_eq A hh (by omega), aligned_eq A (ceil_le hw),
    aligned_eq A (ceil_le hh), A.u32_sub hm.le (by omega), A.u64_mul (by omega),
    bytes_eq A (by omega), A.u64_add (by omega), A.u64_mul (by omega),
    bytes_eq A (by omega), A.u64_add (by omega), if_congr hfirst rfl rfl]
  generalize (if s.firstTail = mipCount ∧ FitsTail width height mipCount m then m
    else s.firstTail) = first
  by_cases hlt : m < first
  · rw [if_pos hlt, if_pos hlt]
  · rw [if_neg hlt, if_neg hlt, A.u32_sub (not_lt.mp hlt) (by omega)]

open Finset in
/-- What the loop over the levels has built after `n` turns. -/
structure Built (width height mipCount n : ℕ) (s : Building) : Prop where
  first_le : s.firstTail ≤ mipCount
  first_lt : s.firstTail < n ∨ s.firstTail = mipCount
  fits : s.firstTail < mipCount → FitsTail width height mipCount s.firstTail
  large : ∀ m < n, m < s.firstTail → s.sizes m = levelBytes width height m ∧
    s.mips m = ⟨max 1 (width >>> m), max 1 (height >>> m), pad (ceil width m), 0, 0, 0⟩
  small : ∀ m < n, s.firstTail ≤ m → s.mips m =
    ⟨max 1 (width >>> m), max 1 (height >>> m), 128, (tail.getD (m - s.firstTail) (0, 0)).1,
      (tail.getD (m - s.firstTail) (0, 0)).2, 0⟩
  bytes : s.bytes = ∑ k ∈ range (min n s.firstTail), levelBytes width height k
  linearBytes : s.linearBytes =
    ∑ k ∈ range n, max 1 (width >>> k) * max 1 (height >>> k) * 4

theorem sum_le {f : ℕ → ℕ} {n : ℕ} (h : ∀ k < n, f k ≤ 2 ^ 30) :
    ∑ k ∈ Finset.range n, f k ≤ n * 2 ^ 30 := by
  calc ∑ k ∈ Finset.range n, f k
      ≤ ∑ _k ∈ Finset.range n, 2 ^ 30 :=
        Finset.sum_le_sum fun k hk => h k (Finset.mem_range.mp hk)
    _ = n * 2 ^ 30 := by rw [Finset.sum_const_nat fun _ _ => rfl, Finset.card_range]

section Built

variable {width height mipCount n : ℕ} {s : Building}

theorem Built.bounded (h : Built width height mipCount n s) (hw : width ≤ 16384)
    (hh : height ≤ 16384) : Bounded n s := by
  constructor
  · rw [h.bytes]
    apply (sum_le fun k _ => levelBytes_le hw hh).trans
    exact Nat.mul_le_mul_right _ (min_le_left _ _)
  · rw [h.linearBytes]
    exact sum_le fun k _ => texels_le hw hh

/-- The level starts the tail. -/
theorem Built.start (h : Built width height mipCount n s) (hn : n < mipCount)
    (hfirst : s.firstTail = mipCount) (hfits : FitsTail width height mipCount n) :
    Built width height mipCount (n + 1) (addLevel width height mipCount s n) := by
  have hadd : addLevel width height mipCount s n = { s with
      firstTail := n
      linearBytes := s.linearBytes + max 1 (width >>> n) * max 1 (height >>> n) * 4
      mips := Function.update s.mips n ⟨max 1 (width >>> n), max 1 (height >>> n), 128,
        (tail.getD (n - n) (0, 0)).1, (tail.getD (n - n) (0, 0)).2, 0⟩ } := by
    have hcond : s.firstTail = mipCount ∧ FitsTail width height mipCount n := ⟨hfirst, hfits⟩
    simp only [addLevel, if_pos hcond, if_neg (lt_irrefl n)]
  rw [hadd]
  refine ⟨hn.le, Or.inl n.lt_succ_self, fun _ => hfits, ?_, ?_, ?_, ?_⟩
  · intro m _ hm
    dsimp only at hm ⊢
    rw [Function.update_of_ne hm.ne]
    exact h.large m hm (by omega)
  · intro m hm hle
    dsimp only at hle ⊢
    obtain rfl : m = n := by omega
    rw [Function.update_self]
  · dsimp only
    rw [h.bytes, hfirst, min_eq_left hn.le, min_eq_right (Nat.le_succ n)]
  · dsimp only
    rw [Finset.sum_range_succ, h.linearBytes]

/-- A level before the tail. -/
theorem Built.add_large (h : Built width height mipCount n s) (hn : n < s.firstTail)
    (hnot : ¬ (s.firstTail = mipCount ∧ FitsTail width height mipCount n)) :
    Built width height mipCount (n + 1) (addLevel width height mipCount s n) := by
  have hadd : addLevel width height mipCount s n = { s with
      sizes := Function.update s.sizes n (levelBytes width height n)
      bytes := s.bytes + levelBytes width height n
      linearBytes := s.linearBytes + max 1 (width >>> n) * max 1 (height >>> n) * 4
      mips := Function.update s.mips n
        ⟨max 1 (width >>> n), max 1 (height >>> n), pad (ceil width n), 0, 0, 0⟩ } := by
    simp only [addLevel]
    rw [if_neg hnot, if_pos hn]
  have hle := h.first_le
  have hlast := h.first_lt
  rw [hadd]
  refine ⟨hle, Or.inr (by dsimp only; omega), h.fits, ?_, ?_, ?_, ?_⟩
  · intro m hm hlt
    dsimp only at hlt ⊢
    rcases Nat.lt_succ_iff_lt_or_eq.mp hm with hm | rfl
    · rw [Function.update_of_ne hm.ne, Function.update_of_ne hm.ne]
      exact h.large m hm hlt
    · rw [Function.update_self, Function.update_self]
      exact ⟨rfl, rfl⟩
  · intro m hm hle
    dsimp only at hle ⊢
    omega
  · dsimp only
    rw [min_eq_left (by omega), Finset.sum_range_succ, h.bytes, min_eq_left (by omega)]
  · dsimp only
    rw [Finset.sum_range_succ, h.linearBytes]

/-- A further level of the tail. -/
theorem Built.add_small (h : Built width height mipCount n s) (hn : s.firstTail ≤ n)
    (hnot : ¬ (s.firstTail = mipCount ∧ FitsTail width height mipCount n)) :
    Built width height mipCount (n + 1) (addLevel width height mipCount s n) := by
  have hadd : addLevel width height mipCount s n = { s with
      linearBytes := s.linearBytes + max 1 (width >>> n) * max 1 (height >>> n) * 4
      mips := Function.update s.mips n ⟨max 1 (width >>> n), max 1 (height >>> n), 128,
        (tail.getD (n - s.firstTail) (0, 0)).1, (tail.getD (n - s.firstTail) (0, 0)).2, 0⟩ } := by
    simp only [addLevel]
    rw [if_neg hnot, if_neg (by omega)]
  rw [hadd]
  refine ⟨h.first_le, Or.inl (by dsimp only; omega), h.fits, ?_, ?_, ?_, ?_⟩
  · intro m hm hlt
    dsimp only at hlt ⊢
    rw [Function.update_of_ne (by omega)]
    exact h.large m (by omega) hlt
  · intro m hm hle
    dsimp only at hle ⊢
    rcases Nat.lt_succ_iff_lt_or_eq.mp hm with hm | rfl
    · rw [Function.update_of_ne hm.ne]
      exact h.small m hm hle
    · rw [Function.update_self]
  · dsimp only
    rw [h.bytes, min_eq_right hn, min_eq_right (by omega)]
  · dsimp only
    rw [Finset.sum_range_succ, h.linearBytes]

theorem Built.step (h : Built width height mipCount n s) (hn : n < mipCount) :
    Built width height mipCount (n + 1) (addLevel width height mipCount s n) := by
  by_cases hstart : s.firstTail = mipCount ∧ FitsTail width height mipCount n
  · exact h.start hn hstart.1 hstart.2
  · by_cases hlarge : n < s.firstTail
    · exact h.add_large hlarge hstart
    · exact h.add_small (not_lt.mp hlarge) hstart

end Built

/-- The first loop of the constructor, in any arithmetic. -/
theorem built (A : Arithmetic) {width height mipCount : ℕ} (hw : width ≤ 16384)
    (hh : height ≤ 16384) (hcount : mipCount ≤ 15) (n : ℕ) (hn : n ≤ mipCount) :
    let start : Building := ⟨mipCount, fun _ => 0, 0, 0, fun _ => ⟨0, 0, 0, 0, 0, 0⟩⟩
    (List.range n).foldl (addMip A width height mipCount) start =
        (List.range n).foldl (addLevel width height mipCount) start ∧
      Built width height mipCount n ((List.range n).foldl (addLevel width height mipCount) start) := by
  intro start
  induction n with
  | zero =>
    refine ⟨rfl, le_rfl, Or.inr rfl, fun h => absurd h (lt_irrefl _), ?_, ?_, ?_, rfl⟩
    · intro m hm
      exact absurd hm m.not_lt_zero
    · intro m hm
      exact absurd hm m.not_lt_zero
    · rw [Nat.zero_min]
      rfl
  | succ n ih =>
    obtain ⟨heq, hbuilt⟩ := ih (by omega)
    rw [List.range_succ, List.foldl_append, List.foldl_append, heq]
    exact ⟨addMip_eq A hw hh hcount (by omega) (hbuilt.bounded hw hh), hbuilt.step (by omega)⟩

/-- The loop that places the levels before the tail, from the last one. -/
theorem place_levels (A : Arithmetic) {sizes : ℕ → ℕ} {first offset : ℕ} (mips : ℕ → Mip)
    (hsizes : ∀ m < first, sizes m ≤ 2 ^ 30) (hfit : offset + first * 2 ^ 30 < 2 ^ 64) :
    (List.range first).reverse.foldl (placeMip A sizes) (mips, offset) =
      (fun m => if m < first then
          { mips m with offset := offset + ∑ k ∈ Finset.Ico (m + 1) first, sizes k }
        else mips m, offset + ∑ k ∈ Finset.range first, sizes k) := by
  induction first generalizing mips offset with
  | zero =>
    simp only [Nat.not_lt_zero, if_false, Finset.range_zero, Finset.sum_empty]
    rfl
  | succ first ih =>
    have hlast := hsizes first first.lt_succ_self
    rw [Nat.succ_mul] at hfit
    rw [List.range_succ, List.reverse_append, List.reverse_singleton, List.singleton_append,
      List.foldl_cons]
    simp only [placeMip]
    rw [A.u64_add (by omega), ih _ (fun m hm => hsizes m (by omega)) (by omega)]
    apply Prod.ext
    · funext m
      dsimp only
      by_cases hm : m < first
      · rw [if_pos hm, if_pos (by omega), Function.update_of_ne hm.ne,
          Finset.sum_Ico_succ_top (by omega)]
        congr 1
        omega
      · rw [if_neg hm]
        by_cases hfirst : m = first
        · subst hfirst
          rw [if_pos m.lt_succ_self, Function.update_self, Finset.Ico_self, Finset.sum_empty,
            Nat.add_zero]
        · rw [if_neg (by omega), Function.update_of_ne hfirst]
    · dsimp only
      rw [Finset.sum_range_succ]
      omega

/-- Bytes of the block of the small levels. -/
def tailBytes (first count : ℕ) : ℕ := if first < count then 65536 else 0

/-- What the constructor leaves, with the first level of the tail block. -/
structure Shape (L : TextureLayout) (width height first : ℕ) : Prop where
  width_le : width ≤ 16384
  height_le : height ≤ 16384
  count_le : L.count ≤ 15
  first_le : first ≤ L.count
  fits : first < L.count → FitsTail width height L.count first
  large : ∀ m < first, L.mips m =
    ⟨max 1 (width >>> m), max 1 (height >>> m), pad (ceil width m), 0, 0,
      tailBytes first L.count + ∑ k ∈ Finset.Ico (m + 1) first, levelBytes width height k⟩
  small : ∀ m < L.count, first ≤ m → L.mips m =
    ⟨max 1 (width >>> m), max 1 (height >>> m), 128, (tail.getD (m - first) (0, 0)).1,
      (tail.getD (m - first) (0, 0)).2, 0⟩
  bytes : L.bytes =
    tailBytes first L.count + ∑ k ∈ Finset.range first, levelBytes width height k
  linearBytes : L.linearBytes =
    ∑ k ∈ Finset.range L.count, max 1 (width >>> k) * max 1 (height >>> k) * 4

theorem maxMips_eq (A B : Arithmetic) (fuel d : ℕ) (hfuel : fuel ≤ 32) :
    maxMips A fuel d = maxMips B fuel d ∧ maxMips A fuel d ≤ fuel + 1 := by
  induction fuel generalizing d with
  | zero => exact ⟨rfl, le_rfl⟩
  | succ fuel ih =>
    obtain ⟨heq, hle⟩ := ih (d >>> 1) (by omega)
    have hadd (C : Arithmetic) : C.u32 (maxMips A fuel (d >>> 1) + 1) =
        maxMips A fuel (d >>> 1) + 1 := C.u32_eq (by push_cast; rfl) (by omega)
    rw [maxMips, maxMips, ← heq, hadd, hadd]
    split
    · exact ⟨rfl, by omega⟩
    · exact ⟨rfl, by omega⟩

/-- The layout that the constructor makes of its locals. -/
def finish (width height mipCount : ℕ) (s : Building) : TextureLayout where
  width := width
  height := height
  count := mipCount
  bytes := s.bytes + tailBytes s.firstTail mipCount
  linearBytes := s.linearBytes
  mips m := if m < s.firstTail then
      { s.mips m with offset := tailBytes s.firstTail mipCount +
          ∑ k ∈ Finset.Ico (m + 1) s.firstTail, s.sizes k }
    else s.mips m

theorem finish_shape {width height mipCount : ℕ} {s : Building} (hw : width ≤ 16384)
    (hh : height ≤ 16384) (hcount : mipCount ≤ 15)
    (h : Built width height mipCount mipCount s) :
    (finish width height mipCount s).Shape width height s.firstTail where
  width_le := hw
  height_le := hh
  count_le := hcount
  first_le := h.first_le
  fits := h.fits
  large m hm := by
    have hle := h.first_le
    rw [finish]
    dsimp only
    rw [if_pos hm, (h.large m (by omega) hm).2]
    congr 2
    apply Finset.sum_congr rfl
    intro k hk
    have hk := (Finset.mem_Ico.mp hk).2
    exact (h.large k (by omega) hk).1
  small m hm hle := by
    rw [finish]
    dsimp only
    rw [if_neg (not_lt.mpr hle)]
    exact h.small m hm hle
  bytes := by
    rw [finish]
    dsimp only
    rw [h.bytes, min_eq_right h.first_le, Nat.add_comm]
  linearBytes := h.linearBytes

/-- The constructor makes the same layout in every arithmetic, of a known shape. -/
theorem make_shape {A : Arithmetic} {width height mipCount : ℕ} {L : TextureLayout}
    (h : make A width height mipCount = .ok L) :
    (∀ B, make B width height mipCount = .ok L) ∧ L.width = width ∧ L.height = height ∧
      L.count = mipCount ∧ ∃ first, L.Shape width height first := by
  have hmade := h
  rw [make] at h
  split_ifs at h with hdims hmips
  have hw : width ≤ 16384 := by omega
  have hh : height ≤ 16384 := by omega
  have hcount : mipCount ≤ 15 := by omega
  have hbuilt := (built A hw hh hcount mipCount le_rfl).2
  have hmake : ∀ B, make B width height mipCount = .ok (finish width height mipCount
      ((List.range mipCount).foldl (addLevel width height mipCount)
        ⟨mipCount, fun _ => 0, 0, 0, fun _ => ⟨0, 0, 0, 0, 0, 0⟩⟩)) := by
    intro B
    rw [make, if_neg hdims, (maxMips_eq B A 32 _ le_rfl).1, if_neg hmips,
      (built B hw hh hcount mipCount le_rfl).1]
    generalize (List.range mipCount).foldl (addLevel width height mipCount) _ = s at hbuilt ⊢
    have hle := hbuilt.first_le
    have htail : tailBytes s.firstTail mipCount ≤ 65536 := by
      rw [tailBytes]
      split <;> omega
    have hmul : s.firstTail * 2 ^ 30 ≤ 15 * 2 ^ 30 := Nat.mul_le_mul_right _ (by omega)
    have hmul' : mipCount * 2 ^ 30 ≤ 15 * 2 ^ 30 := Nat.mul_le_mul_right _ hcount
    have hbytes := (hbuilt.bounded hw hh).1
    have hsizes : ∀ m < s.firstTail, s.sizes m ≤ 2 ^ 30 := by
      intro m hm
      rw [(hbuilt.large m (by omega) hm).1]
      exact levelBytes_le hw hh
    dsimp only
    rw [← tailBytes, B.u64_add (by omega), place_levels B s.mips hsizes (by omega)]
    rfl
  obtain rfl := Except.ok.inj (hmade.symm.trans (hmake A))
  exact ⟨hmake, rfl, rfl, rfl, _, finish_shape hw hh hcount hbuilt⟩

/-! ### Places of texels -/

/-- The offset of a texel without wrapping. -/
def place (m : Mip) (x y : ℕ) : ℕ :=
  m.offset + (y / 128 * (m.paddedWidth / 128) + x / 128) * 65536 +
    permute (x + m.tailX) (y + m.tailY)

/-- The box of the tail block that holds the `j`th small level. -/
def boxWidth (j : ℕ) : ℕ := max 1 (64 >>> j)
def boxHeight (j : ℕ) : ℕ := max 1 (128 >>> j)

theorem box_le {j : ℕ} (h : j < 12) : (tail.getD j (0, 0)).1 + boxWidth j ≤ 128 ∧
    (tail.getD j (0, 0)).2 + boxHeight j ≤ 128 := by
  revert h
  revert j
  decide

/-- Two boxes are apart in one direction. -/
theorem box_apart {i j : ℕ} (hi : i < 12) (hj : j < 12) (hij : i ≠ j) :
    (tail.getD i (0, 0)).1 + boxWidth i ≤ (tail.getD j (0, 0)).1 ∨
    (tail.getD j (0, 0)).1 + boxWidth j ≤ (tail.getD i (0, 0)).1 ∨
    (tail.getD i (0, 0)).2 + boxHeight i ≤ (tail.getD j (0, 0)).2 ∨
    (tail.getD j (0, 0)).2 + boxHeight j ≤ (tail.getD i (0, 0)).2 := by
  have hall : ∀ i < 12, ∀ j < 12, i ≠ j →
      (tail.getD i (0, 0)).1 + boxWidth i ≤ (tail.getD j (0, 0)).1 ∨
      (tail.getD j (0, 0)).1 + boxWidth j ≤ (tail.getD i (0, 0)).1 ∨
      (tail.getD i (0, 0)).2 + boxHeight i ≤ (tail.getD j (0, 0)).2 ∨
      (tail.getD j (0, 0)).2 + boxHeight j ≤ (tail.getD i (0, 0)).2 := by decide
  exact hall i hi j hj hij

theorem shiftRight_add_le {n f j bound : ℕ} (h : n >>> f ≤ bound) :
    max 1 (n >>> (f + j)) ≤ max 1 (bound >>> j) := by
  rw [Nat.shiftRight_add, Nat.shiftRight_eq_div_pow _ j, Nat.shiftRight_eq_div_pow bound j]
  exact max_le_max le_rfl (Nat.div_le_div_right h)

/-- An entry of a row-major table gives away its row and column. -/
theorem row_major_injective {q a b a' b' : ℕ} (hb : b < q) (hb' : b' < q)
    (h : a * q + b = a' * q + b') : a = a' ∧ b = b' := by
  have ha : a = a' := by
    have hdiv := congrArg (· / q) h
    simpa only [Nat.mul_comm _ q, Nat.mul_add_div (by omega : q > 0), Nat.div_eq_of_lt hb,
      Nat.div_eq_of_lt hb', Nat.add_zero] using hdiv
  subst ha
  exact ⟨rfl, by omega⟩

section Shape

variable {L : TextureLayout} {width height first level x y : ℕ}

theorem Shape.width_eq (h : L.Shape width height first) (hlevel : level < L.count) :
    (L.mips level).width = max 1 (width >>> level) := by
  by_cases hlarge : level < first
  · rw [h.large level hlarge]
  · rw [h.small level hlevel (not_lt.mp hlarge)]

theorem Shape.height_eq (h : L.Shape width height first) (hlevel : level < L.count) :
    (L.mips level).height = max 1 (height >>> level) := by
  by_cases hlarge : level < first
  · rw [h.large level hlarge]
  · rw [h.small level hlevel (not_lt.mp hlarge)]

theorem Shape.width_lt (h : L.Shape width height first) (hlevel : level < L.count)
    (hx : x < (L.mips level).width) : x < ceil width level := by
  rw [h.width_eq hlevel] at hx
  exact hx.trans_le (max_shiftRight_le_ceil width level)

theorem Shape.height_lt (h : L.Shape width height first) (hlevel : level < L.count)
    (hy : y < (L.mips level).height) : y < ceil height level := by
  rw [h.height_eq hlevel] at hy
  exact hy.trans_le (max_shiftRight_le_ceil height level)

theorem Shape.index_lt (h : L.Shape width height first) (hlevel : level < L.count)
    (hsmall : first ≤ level) : level - first < 12 := by
  have hfits := (h.fits (by omega)).2.2.2
  omega

/-- A texel of a small level lies in the box of the level. -/
theorem Shape.box_lt (h : L.Shape width height first) (hlevel : level < L.count)
    (hsmall : first ≤ level) (hx : x < (L.mips level).width) (hy : y < (L.mips level).height) :
    x < boxWidth (level - first) ∧ y < boxHeight (level - first) := by
  obtain ⟨_, hw, hh, _⟩ := h.fits (by omega)
  rw [h.width_eq hlevel] at hx
  rw [h.height_eq hlevel] at hy
  have hle : first + (level - first) = level := by omega
  have hw' := ((le_max_right _ _).trans (max_shiftRight_le_ceil width first)).trans hw
  have hh' := ((le_max_right _ _).trans (max_shiftRight_le_ceil height first)).trans hh
  have hbw := shiftRight_add_le (j := level - first) hw'
  have hbh := shiftRight_add_le (j := level - first) hh'
  rw [hle] at hbw hbh
  exact ⟨hx.trans_le hbw, hy.trans_le hbh⟩

theorem Shape.place_small (h : L.Shape width height first) (hlevel : level < L.count)
    (hsmall : first ≤ level) (hx : x < (L.mips level).width) (hy : y < (L.mips level).height) :
    place (L.mips level) x y = permute (x + (tail.getD (level - first) (0, 0)).1)
      (y + (tail.getD (level - first) (0, 0)).2) := by
  obtain ⟨hbx, hby⟩ := h.box_lt hlevel hsmall hx hy
  obtain ⟨htx, hty⟩ := box_le (h.index_lt hlevel hsmall)
  rw [h.small level hlevel hsmall, place]
  dsimp only
  rw [Nat.div_eq_of_lt (by omega : x < 128), Nat.div_eq_of_lt (by omega : y < 128)]
  omega

/-- The blocks of a large level. -/
theorem Shape.block_lt (h : L.Shape width height first) (hlarge : level < first)
    (hx : x < (L.mips level).width) (hy : y < (L.mips level).height) :
    x / 128 < (ceil width level + 127) / 128 ∧ y / 128 < (ceil height level + 127) / 128 := by
  have hlevel := hlarge.trans_le h.first_le
  have hx' := h.width_lt hlevel hx
  have hy' := h.height_lt hlevel hy
  exact ⟨by omega, by omega⟩

theorem Shape.place_large (h : L.Shape width height first) (hlarge : level < first) :
    place (L.mips level) x y = tailBytes first L.count +
      ∑ k ∈ Finset.Ico (level + 1) first, levelBytes width height k +
      (y / 128 * ((ceil width level + 127) / 128) + x / 128) * 65536 + permute x y := by
  rw [h.large level hlarge, place]
  dsimp only
  rw [pad, Nat.mul_div_cancel _ (by decide : 0 < 128)]
  simp only [Nat.add_zero]

/-- The texels of a large level stay in the region of the level. -/
theorem Shape.place_large_lt (h : L.Shape width height first) (hlarge : level < first)
    (hx : x < (L.mips level).width) (hy : y < (L.mips level).height) :
    place (L.mips level) x y < tailBytes first L.count +
      ∑ k ∈ Finset.Ico (level + 1) first, levelBytes width height k +
      levelBytes width height level := by
  obtain ⟨hbx, hby⟩ := h.block_lt hlarge hx hy
  have hpermute := permute_lt x y
  rw [h.place_large hlarge, levelBytes, pad, pad]
  generalize (ceil width level + 127) / 128 = q at hbx ⊢
  generalize (ceil height level + 127) / 128 = r at hby ⊢
  have hblock : y / 128 * q + x / 128 + 1 ≤ r * q := calc
    y / 128 * q + x / 128 + 1 ≤ (y / 128 + 1) * q := by rw [Nat.succ_mul]; omega
    _ ≤ r * q := Nat.mul_le_mul_right q hby
  have hsize : q * 128 * (r * 128) * 4 = r * q * 65536 := by ring
  rw [hsize]
  omega

/-- The region of a large level ends where an earlier level begins. -/
theorem Shape.regions_apart (h : L.Shape width height first) {level' x' y' : ℕ}
    (hlt : level < level') (hlarge : level' < first) (hx : x' < (L.mips level').width)
    (hy : y' < (L.mips level').height) :
    place (L.mips level') x' y' < place (L.mips level) x y := by
  have hend := h.place_large_lt hlarge hx hy
  have hsub : levelBytes width height level' +
      ∑ k ∈ Finset.Ico (level' + 1) first, levelBytes width height k ≤
      ∑ k ∈ Finset.Ico (level + 1) first, levelBytes width height k := by
    rw [← Finset.sum_eq_sum_Ico_succ_bot hlarge]
    apply Finset.sum_le_sum_of_subset
    exact Finset.Ico_subset_Ico_left hlt
  rw [h.place_large (hlt.trans hlarge)]
  omega

/-- The tail block lies below the large levels. -/
theorem Shape.small_lt_large (h : L.Shape width height first) {level' x' y' : ℕ}
    (hlevel : level < L.count) (hsmall : first ≤ level) (hx : x < (L.mips level).width)
    (hy : y < (L.mips level).height) (hlarge : level' < first) :
    place (L.mips level) x y < place (L.mips level') x' y' := by
  have hpermute := permute_lt (x + (tail.getD (level - first) (0, 0)).1)
    (y + (tail.getD (level - first) (0, 0)).2)
  rw [h.place_small hlevel hsmall hx hy, h.place_large hlarge, tailBytes, if_pos (by omega)]
  omega

theorem Shape.place_injective_large (h : L.Shape width height first) {x' y' : ℕ}
    (hlarge : level < first) (hx : x < (L.mips level).width) (hy : y < (L.mips level).height)
    (hx' : x' < (L.mips level).width) (hy' : y' < (L.mips level).height)
    (heq : place (L.mips level) x y = place (L.mips level) x' y') : x = x' ∧ y = y' := by
  rw [h.place_large hlarge, h.place_large hlarge] at heq
  have hp := permute_lt x y
  have hp' := permute_lt x' y'
  obtain ⟨hblock, hpermute⟩ : y / 128 * ((ceil width level + 127) / 128) + x / 128 =
      y' / 128 * ((ceil width level + 127) / 128) + x' / 128 ∧
      permute x y = permute x' y' := by omega
  obtain ⟨hrow, hcolumn⟩ := row_major_injective (h.block_lt hlarge hx hy).1
    (h.block_lt hlarge hx' hy').1 hblock
  rw [← permute_mod x, ← permute_mod x'] at hpermute
  obtain ⟨hxmod, hymod⟩ := permute_injective (Nat.mod_lt _ (by decide)) (Nat.mod_lt _ (by decide))
    (Nat.mod_lt _ (by decide)) (Nat.mod_lt _ (by decide)) hpermute
  exact ⟨by omega, by omega⟩

theorem Shape.place_injective_small (h : L.Shape width height first) {level' x' y' : ℕ}
    (hlevel : level < L.count) (hsmall : first ≤ level) (hx : x < (L.mips level).width)
    (hy : y < (L.mips level).height) (hlevel' : level' < L.count) (hsmall' : first ≤ level')
    (hx' : x' < (L.mips level').width) (hy' : y' < (L.mips level').height)
    (heq : place (L.mips level) x y = place (L.mips level') x' y') :
    level = level' ∧ x = x' ∧ y = y' := by
  obtain ⟨hbx, hby⟩ := h.box_lt hlevel hsmall hx hy
  obtain ⟨hbx', hby'⟩ := h.box_lt hlevel' hsmall' hx' hy'
  obtain ⟨htx, hty⟩ := box_le (h.index_lt hlevel hsmall)
  obtain ⟨htx', hty'⟩ := box_le (h.index_lt hlevel' hsmall')
  rw [h.place_small hlevel hsmall hx hy, h.place_small hlevel' hsmall' hx' hy'] at heq
  obtain ⟨hxx, hyy⟩ := permute_injective (by omega) (by omega) (by omega) (by omega) heq
  by_cases hne : level - first = level' - first
  · rw [hne] at hxx hyy
    exact ⟨by omega, by omega, by omega⟩
  · have hapart := box_apart (h.index_lt hlevel hsmall) (h.index_lt hlevel' hsmall') hne
    omega

/-- A texel of the layout. -/
def InRange (L : TextureLayout) (level x y : ℕ) : Prop :=
  level < L.count ∧ x < (L.mips level).width ∧ y < (L.mips level).height

theorem Shape.place_injective (h : L.Shape width height first) {level' x' y' : ℕ}
    (hin : L.InRange level x y) (hin' : L.InRange level' x' y')
    (heq : place (L.mips level) x y = place (L.mips level') x' y') :
    level = level' ∧ x = x' ∧ y = y' := by
  obtain ⟨hlevel, hx, hy⟩ := hin
  obtain ⟨hlevel', hx', hy'⟩ := hin'
  by_cases hlarge : level < first <;> by_cases hlarge' : level' < first
  · rcases Nat.lt_trichotomy level level' with hlt | rfl | hlt
    · exact absurd heq (h.regions_apart hlt hlarge' hx' hy').ne'
    · exact ⟨rfl, h.place_injective_large hlarge hx hy hx' hy' heq⟩
    · exact absurd heq (h.regions_apart hlt hlarge hx hy).ne
  · exact absurd heq (h.small_lt_large hlevel' (not_lt.mp hlarge') hx' hy' hlarge).ne'
  · exact absurd heq (h.small_lt_large hlevel (not_lt.mp hlarge) hx hy hlarge').ne
  · exact h.place_injective_small hlevel (not_lt.mp hlarge) hx hy hlevel' (not_lt.mp hlarge')
      hx' hy' heq

theorem Shape.four_dvd_bytes (h : L.Shape width height first) : 4 ∣ L.bytes := by
  rw [h.bytes, tailBytes]
  apply Nat.dvd_add
  · split
    · exact ⟨16384, rfl⟩
    · exact dvd_zero 4
  · exact Finset.dvd_sum fun k _ => Dvd.intro_left _ rfl

theorem Shape.four_dvd_place (h : L.Shape width height first) (hin : L.InRange level x y) :
    4 ∣ place (L.mips level) x y := by
  obtain ⟨hlevel, hx, hy⟩ := hin
  by_cases hlarge : level < first
  · rw [h.place_large hlarge, tailBytes]
    apply Nat.dvd_add _ (four_dvd_permute x y)
    apply Nat.dvd_add _ (Dvd.dvd.mul_left ⟨16384, rfl⟩ _)
    apply Nat.dvd_add
    · split
      · exact ⟨16384, rfl⟩
      · exact dvd_zero 4
    · exact Finset.dvd_sum fun k _ => Dvd.intro_left _ rfl
  · rw [h.place_small hlevel (not_lt.mp hlarge) hx hy]
    exact four_dvd_permute _ _

theorem Shape.place_lt (h : L.Shape width height first) (hin : L.InRange level x y) :
    place (L.mips level) x y < L.bytes := by
  obtain ⟨hlevel, hx, hy⟩ := hin
  rw [h.bytes]
  by_cases hlarge : level < first
  · apply (h.place_large_lt hlarge hx hy).trans_le
    rw [Nat.add_assoc]
    apply Nat.add_le_add_left
    rw [Nat.add_comm, ← Finset.sum_eq_sum_Ico_succ_bot hlarge, Finset.range_eq_Ico]
    exact Finset.sum_le_sum_of_subset (Finset.Ico_subset_Ico_left level.zero_le)
  · rw [h.place_small hlevel (not_lt.mp hlarge) hx hy, tailBytes, if_pos (by omega)]
    apply (permute_lt _ _).trans_le
    omega

theorem Shape.tailBytes_le (L : TextureLayout) (first : ℕ) :
    tailBytes first L.count ≤ 65536 := by
  rw [tailBytes]
  split <;> omega

/-- The fields of a level are far from the limits of their words. -/
theorem Shape.mip_le (h : L.Shape width height first) (hlevel : level < L.count) :
    (L.mips level).width ≤ 16384 ∧ (L.mips level).height ≤ 16384 ∧
      (L.mips level).paddedWidth ≤ 16384 ∧ (L.mips level).tailX ≤ 128 ∧
      (L.mips level).tailY ≤ 128 ∧ (L.mips level).offset ≤ 2 ^ 40 := by
  have hw := (max_shiftRight_le_ceil width level).trans (ceil_le h.width_le)
  have hh := (max_shiftRight_le_ceil height level).trans (ceil_le h.height_le)
  by_cases hlarge : level < first
  · have hall : ∑ k ∈ Finset.range first, levelBytes width height k ≤ first * 2 ^ 30 :=
      sum_le fun k _ => levelBytes_le h.width_le h.height_le
    have hsum : ∑ k ∈ Finset.Ico (level + 1) first, levelBytes width height k ≤
        ∑ k ∈ Finset.range first, levelBytes width height k := by
      rw [Finset.range_eq_Ico]
      exact Finset.sum_le_sum_of_subset (Finset.Ico_subset_Ico_left (Nat.zero_le _))
    have hfirst : first * 2 ^ 30 ≤ 15 * 2 ^ 30 :=
      Nat.mul_le_mul_right _ (h.first_le.trans h.count_le)
    have htail := tailBytes_le L first
    rw [h.large level hlarge]
    exact ⟨hw, hh, pad_le (ceil_le h.width_le), Nat.zero_le _, Nat.zero_le _,
      by dsimp only; omega⟩
  · obtain ⟨htx, hty⟩ := box_le (h.index_lt hlevel (not_lt.mp hlarge))
    rw [h.small level hlevel (not_lt.mp hlarge)]
    exact ⟨hw, hh, by dsimp only; omega, by dsimp only; omega, by dsimp only; omega,
      Nat.zero_le _⟩

/-- `pixel_offset` of a texel, in any arithmetic. -/
theorem Shape.pixelOffset_eq (A : Arithmetic) (h : L.Shape width height first)
    (hin : L.InRange level x y) : L.pixelOffset A x y level = .ok (place (L.mips level) x y) := by
  obtain ⟨hlevel, hx, hy⟩ := hin
  obtain ⟨hw, hh, hpad, htx, hty, hoffset⟩ := h.mip_le hlevel
  have hok : L.mip level = .ok (L.mips level) := by
    rw [mip, if_neg (not_le.mpr hlevel)]
  have hrow : y / 128 * ((L.mips level).paddedWidth / 128) ≤ 128 * 128 :=
    Nat.mul_le_mul (by omega) (by omega)
  have hpermute := permute_lt (x + (L.mips level).tailX) (y + (L.mips level).tailY)
  have hblock : A.u64 ((y / 128 * ((L.mips level).paddedWidth / 128) + x / 128 : ℕ) * 2 ^ 16) =
      (y / 128 * ((L.mips level).paddedWidth / 128) + x / 128) * 65536 :=
    A.u64_eq (by push_cast; rfl) (by omega)
  rw [pixelOffset, hok]
  show (if x ≥ (L.mips level).width ∨ y ≥ (L.mips level).height then _ else _) = _
  rw [if_neg (by omega)]
  rw [Nat.shiftRight_eq_div_pow, Nat.shiftRight_eq_div_pow, Nat.shiftRight_eq_div_pow,
    show 2 ^ 7 = 128 from rfl, A.u64_mul (by omega),
    A.u64_add (a := y / 128 * ((L.mips level).paddedWidth / 128)) (by omega), hblock,
    A.u64_add (a := (L.mips level).offset) (by omega), A.u32_add (by omega),
    A.u32_add (by omega), swizzle_eq A (by omega) (by omega), A.u64_add (by omega), place]

theorem pixelOffset_inRange {A : Arithmetic} {o : ℕ} (h : L.pixelOffset A x y level = .ok o) :
    L.InRange level x y := by
  rw [pixelOffset, Loop.bind_eq_ok] at h
  obtain ⟨m, hm, h⟩ := h
  rw [mip] at hm
  split_ifs at hm with hlevel
  obtain rfl := Except.ok.inj hm
  split_ifs at h with hout
  exact ⟨by omega, by omega, by omega⟩

end Shape

end Gpu.TextureLayout
