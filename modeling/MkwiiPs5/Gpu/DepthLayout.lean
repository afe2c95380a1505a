import MkwiiPs5.Gpu.TextureTiling

/-!
# Depth layout

`depth_layout.cpp` and `gx_depth_offset.h`: where the texels of a depth target lie, for the host and
for the shader that copies it.
-/

namespace Gpu

structure DepthLayout where
  width : ℕ
  height : ℕ
  paddedWidth : ℕ
  bytes : ℕ

namespace DepthLayout

open TextureLayout

variable (A : Arithmetic)

def swizzled (x y : ℕ) : ℕ :=
  (shl A y 3 &&& 0x8) ^^^ (shl A y 4 &&& 0x20) ^^^ (shl A y 5 &&& 0xf80) ^^^
    (shl A y 9 &&& 0x1000) ^^^ (shl A y 8 &&& 0x4000) ^^^ (shl A x 2 &&& 0x4) ^^^
    (shl A x 3 &&& 0x10) ^^^ (shl A x 4 &&& 0x440) ^^^ (shl A x 5 &&& 0x300) ^^^
    (shl A x 6 &&& 0x800) ^^^ (shl A x 9 &&& 0xa000)

/-- `mkw_depth_pixel_offset`. -/
def pixelOffsetOf (x y blocksPerRow : ℕ) : ℕ :=
  let block := A.u32 (A.u32 ((y >>> 7) * blocksPerRow) + (x >>> 7))
  A.u32 (shl A block 16 + swizzled A x y)

/-- The constructor. -/
def make (width height : ℕ) : Except String DepthLayout :=
  if width = 0 ∨ height = 0 ∨ width > 16384 ∨ height > 16384 then
    .error "Invalid AGC depth dimensions"
  else
    let paddedWidth := aligned A width
    .ok ⟨width, height, paddedWidth, A.u64 (A.u64 (paddedWidth * aligned A height) * 4)⟩

def pixelOffset (L : DepthLayout) (x y : ℕ) : Except String ℕ :=
  if x ≥ L.width ∨ y ≥ L.height then .error "AGC depth texel coordinate"
  else .ok (pixelOffsetOf A x y (L.paddedWidth >>> 7))

/-! ### The swizzle -/

/-- The place in a block of 128 by 128 texels, without wrapping. -/
def inBlock (x y : ℕ) : ℕ :=
  (y <<< 3 &&& 0x8) ^^^ (y <<< 4 &&& 0x20) ^^^ (y <<< 5 &&& 0xf80) ^^^ (y <<< 9 &&& 0x1000) ^^^
    (y <<< 8 &&& 0x4000) ^^^ (x <<< 2 &&& 0x4) ^^^ (x <<< 3 &&& 0x10) ^^^ (x <<< 4 &&& 0x440) ^^^
    (x <<< 5 &&& 0x300) ^^^ (x <<< 6 &&& 0x800) ^^^ (x <<< 9 &&& 0xa000)

theorem swizzled_eq {x y : ℕ} (hx : x < 2 ^ 15) (hy : y < 2 ^ 15) :
    swizzled A x y = inBlock x y := by
  simp only [swizzled, inBlock]
  rw [shl_eq A hy (by decide), shl_eq A hy (by decide), shl_eq A hy (by decide),
    shl_eq A hy (by decide), shl_eq A hy (by decide), shl_eq A hx (by decide),
    shl_eq A hx (by decide), shl_eq A hx (by decide), shl_eq A hx (by decide),
    shl_eq A hx (by decide), shl_eq A hx (by decide)]

/-- The bits of the place: some are bits of one coordinate, the others mix two. -/
theorem testBit_inBlock (x y i : ℕ) : (inBlock x y).testBit i =
    ((y <<< 3 &&& 0x8).testBit i ^^ (y <<< 4 &&& 0x20).testBit i ^^
    (y <<< 5 &&& 0xf80).testBit i ^^ (y <<< 9 &&& 0x1000).testBit i ^^
    (y <<< 8 &&& 0x4000).testBit i ^^ (x <<< 2 &&& 0x4).testBit i ^^
    (x <<< 3 &&& 0x10).testBit i ^^ (x <<< 4 &&& 0x440).testBit i ^^
    (x <<< 5 &&& 0x300).testBit i ^^ (x <<< 6 &&& 0x800).testBit i ^^
    (x <<< 9 &&& 0xa000).testBit i) := by
  simp only [inBlock, Nat.testBit_xor, Bool.xor_assoc]

/-- Bits outside of all masks are not set. -/
theorem testBit_inBlock_eq_false {i : ℕ} (x y : ℕ)
    (h : (0xfffc : ℕ).testBit i = false) : (inBlock x y).testBit i = false := by
  have hmask (a m : ℕ) (hm : m &&& 0xfffc = m) : (a &&& m).testBit i = false := by
    rw [← hm, Nat.testBit_and, Nat.testBit_and, h, Bool.and_false, Bool.and_false]
  rw [testBit_inBlock]
  simp (disch := decide) only [hmask, Bool.xor_false]

theorem inBlock_lt (x y : ℕ) : inBlock x y < 2 ^ 16 := by
  apply Nat.lt_pow_two_of_testBit
  intro i hi
  apply testBit_inBlock_eq_false
  exact Nat.testBit_eq_false_of_lt
    (lt_of_lt_of_le (by decide) (Nat.pow_le_pow_right (by decide : 0 < 2) hi))

theorem four_dvd_inBlock (x y : ℕ) : 4 ∣ inBlock x y := by
  apply Nat.dvd_of_mod_eq_zero
  apply Nat.eq_of_testBit_eq
  intro i
  rw [show 4 = 2 ^ 2 from rfl, Nat.testBit_mod_two_pow, Nat.zero_testBit]
  by_cases hi : i < 2
  · have hlow : (0xfffc : ℕ).testBit i = false := by interval_cases i <;> rfl
    rw [testBit_inBlock_eq_false x y hlow, Bool.and_false]
  · rw [decide_eq_false hi, Bool.false_and]

/-- Only the place of the texel in its block counts. -/
theorem inBlock_mod (x y : ℕ) : inBlock (x % 128) (y % 128) = inBlock x y := by
  simp only [inBlock]
  rw [shiftLeft_mod_and (by decide), shiftLeft_mod_and (by decide), shiftLeft_mod_and (by decide),
    shiftLeft_mod_and (by decide), shiftLeft_mod_and (by decide), shiftLeft_mod_and (by decide),
    shiftLeft_mod_and (by decide), shiftLeft_mod_and (by decide), shiftLeft_mod_and (by decide),
    shiftLeft_mod_and (by decide), shiftLeft_mod_and (by decide)]

/-- The bits of one coordinate give away the mixed ones. -/
theorem inBlock_injective {x y x' y' : ℕ} (hx : x < 128) (hy : y < 128) (hx' : x' < 128)
    (hy' : y' < 128) (h : inBlock x y = inBlock x' y') : x = x' ∧ y = y' := by
  have bit (i : ℕ) : (inBlock x y).testBit i = (inBlock x' y').testBit i := by rw [h]
  have x0 := bit 2
  have y0 := bit 3
  have x1 := bit 4
  have y1 := bit 5
  have x2 := bit 6
  have y2 := bit 7
  have x3 := bit 8
  have y4 := bit 9
  have y5 := bit 10
  have x5 := bit 11
  have y3 := bit 12
  have x4 := bit 13
  have y6 := bit 14
  have x6 := bit 15
  simp +decide only [testBit_inBlock, testBit_shiftLeft_and, if_true, if_false,
    Bool.false_xor, Bool.xor_false, Nat.reduceSub]
    at x0 x1 x2 x3 x4 x5 x6 y0 y1 y2 y3 y4 y5 y6
  constructor
  · apply eq_of_testBit_lt hx hx'
    intro i hi
    interval_cases i <;> simp_all
  · apply eq_of_testBit_lt hy hy'
    intro i hi
    interval_cases i <;> simp_all

/-! ### The layout -/

variable {w h : ℕ}

/-- What the constructor makes, in any arithmetic. -/
def layout (w h : ℕ) : DepthLayout := ⟨w, h, pad w, pad w * pad h * 4⟩

theorem make_eq (hw : 0 < w ∧ w ≤ 16384) (hh : 0 < h ∧ h ≤ 16384) :
    make A w h = .ok (layout w h) := by
  have hbytes := Nat.mul_le_mul (pad_le hw.2) (pad_le hh.2)
  rw [make, if_neg (by omega), layout]
  dsimp only
  rw [aligned_eq A hw.2, aligned_eq A hh.2, A.u64_mul (by omega), bytes_eq A (by omega)]

/-- The offset of a texel, without wrapping: its block, and its place there. -/
def place (w x y : ℕ) : ℕ := (y / 128 * (pad w / 128) + x / 128) * 65536 + inBlock x y

/-- The column of a block is in its row. -/
theorem column_lt {x : ℕ} (hx : x < w) : x / 128 < pad w / 128 := by
  rw [pad]
  omega

/-- The blocks of a layout lie one after another. -/
theorem block_lt {x y : ℕ} (hx : x < w) (hy : y < h) :
    y / 128 * (pad w / 128) + x / 128 < pad h / 128 * (pad w / 128) := by
  have hrow : y / 128 + 1 ≤ pad h / 128 := column_lt hy
  calc y / 128 * (pad w / 128) + x / 128
      < y / 128 * (pad w / 128) + pad w / 128 := Nat.add_lt_add_left (column_lt hx) _
    _ = (y / 128 + 1) * (pad w / 128) := (Nat.succ_mul ..).symm
    _ ≤ pad h / 128 * (pad w / 128) := Nat.mul_le_mul_right _ hrow

theorem layout_bytes (w h : ℕ) :
    (layout w h).bytes = pad h / 128 * (pad w / 128) * 65536 := by
  rw [layout, pad, pad, Nat.mul_div_cancel _ (by decide), Nat.mul_div_cancel _ (by decide)]
  ring

theorem blocks_le (hw : w ≤ 16384) (hh : h ≤ 16384) : pad h / 128 * (pad w / 128) ≤ 16384 := by
  have hrows : pad h / 128 ≤ 128 := Nat.div_le_div_right (c := 128) (pad_le hh)
  have hcolumns : pad w / 128 ≤ 128 := Nat.div_le_div_right (c := 128) (pad_le hw)
  exact Nat.mul_le_mul hrows hcolumns

/-- `mkw_depth_pixel_offset` never wraps, with the pitch of the layout. -/
theorem pixelOffsetOf_eq {x y : ℕ} (hw : w ≤ 16384) (hh : h ≤ 16384) (hx : x < w) (hy : y < h) :
    pixelOffsetOf A x y (pad w >>> 7) = place w x y := by
  have hblock := block_lt hx hy
  have hblocks := blocks_le hw hh
  have hin := inBlock_lt x y
  have hshift : shl A (y / 128 * (pad w / 128) + x / 128) 16 =
      (y / 128 * (pad w / 128) + x / 128) * 65536 :=
    A.u32_eq (by push_cast; rfl) (by omega)
  rw [pixelOffsetOf, Nat.shiftRight_eq_div_pow, Nat.shiftRight_eq_div_pow,
    Nat.shiftRight_eq_div_pow, show 2 ^ 7 = 128 from rfl]
  have hrow : A.u32 ((y / 128 * (pad w / 128) : ℕ) : ℤ) = y / 128 * (pad w / 128) :=
    A.u32_eq rfl (by omega)
  rw [← Int.natCast_mul, hrow, A.u32_add (a := y / 128 * (pad w / 128)) (by omega), hshift,
    swizzled_eq A (by omega) (by omega), A.u32_add (by omega), place]

theorem place_injective {x y x' y' : ℕ} (hx : x < w) (hx' : x' < w)
    (heq : place w x y = place w x' y') : x = x' ∧ y = y' := by
  have hin := inBlock_lt x y
  have hin' := inBlock_lt x' y'
  rw [place, place] at heq
  have hblock : y / 128 * (pad w / 128) + x / 128 = y' / 128 * (pad w / 128) + x' / 128 := by omega
  have hplace : inBlock x y = inBlock x' y' := by omega
  obtain ⟨hrow, hcolumn⟩ := row_major_injective (column_lt hx) (column_lt hx') hblock
  rw [← inBlock_mod x, ← inBlock_mod x'] at hplace
  obtain ⟨hxmod, hymod⟩ := inBlock_injective (Nat.mod_lt _ (by decide))
    (Nat.mod_lt _ (by decide)) (Nat.mod_lt _ (by decide)) (Nat.mod_lt _ (by decide)) hplace
  exact ⟨by omega, by omega⟩

theorem four_dvd_place (w x y : ℕ) : 4 ∣ place w x y :=
  Nat.dvd_add (Dvd.dvd.mul_left ⟨16384, rfl⟩ _) (four_dvd_inBlock x y)

theorem place_le {x y : ℕ} (hx : x < w) (hy : y < h) : place w x y ≤ (layout w h).bytes - 4 := by
  have hblock := block_lt hx hy
  have hin := inBlock_lt x y
  obtain ⟨k, hk⟩ := four_dvd_place w x y
  rw [layout_bytes]
  rw [place] at hk ⊢
  omega

/-- The texels of a depth target: each has an offset of its own, a multiple of four inside of the
target, which the host and the shader agree on in any arithmetic. -/
structure Addressing (w h : ℕ) (L : DepthLayout) (offset : ℕ → ℕ → ℕ) : Prop where
  host : ∀ A x y, x < w → y < h → L.pixelOffset A x y = .ok (offset x y)
  shader : ∀ A x y, x < w → y < h → pixelOffsetOf A x y (L.paddedWidth >>> 7) = offset x y
  injective : ∀ x y x' y', x < w → y < h → x' < w → y' < h → offset x y = offset x' y' →
    x = x' ∧ y = y'
  aligned : ∀ x y, 4 ∣ offset x y
  bounded : ∀ x y, x < w → y < h → offset x y ≤ L.bytes - 4 ∧ offset x y + 4 ≤ 2 ^ 30

theorem depth_addressing (w h : ℕ) (hw : 0 < w ∧ w ≤ 16384) (hh : 0 < h ∧ h ≤ 16384) :
    ∃ L offset, (∀ A, make A w h = .ok L) ∧ Addressing w h L offset := by
  refine ⟨layout w h, place w, fun A => make_eq A hw hh, ?_⟩
  constructor
  · intro A x y hx hy
    have hin : ¬ (x ≥ (layout w h).width ∨ y ≥ (layout w h).height) :=
      not_or.mpr ⟨Nat.not_le.mpr hx, Nat.not_le.mpr hy⟩
    rw [pixelOffset, if_neg hin]
    exact congrArg _ (pixelOffsetOf_eq A hw.2 hh.2 hx hy)
  · exact fun A x y hx hy => pixelOffsetOf_eq A hw.2 hh.2 hx hy
  · exact fun x y x' y' hx _ hx' _ heq => place_injective hx hx' heq
  · exact four_dvd_place w
  · intro x y hx hy
    have hle := place_le hx hy
    have hblocks := blocks_le hw.2 hh.2
    have hblock := block_lt hx hy
    rw [layout_bytes] at hle ⊢
    exact ⟨hle, by omega⟩

theorem depth_addressing_largest :
    ∃ L offset, (∀ A, make A 16384 16384 = .ok L) ∧ Addressing 16384 16384 L offset :=
  depth_addressing 16384 16384 ⟨by decide, le_rfl⟩ ⟨by decide, le_rfl⟩

end DepthLayout

end Gpu
