import MkwiiPs5.Arithmetic
import MkwiiPs5.Overlay

/-!
# Texture layouts

`texture_layout.cpp`: where the texels of an RGBA8 texture and of its mips lie in GPU memory, and
the upload that puts them there.
-/

namespace Gpu

open Overlay (write load)

/-- A `std::span` of bytes. -/
structure Span where
  data : ℕ
  size : ℕ

structure Mip where
  width : ℕ
  height : ℕ
  paddedWidth : ℕ
  tailX : ℕ
  tailY : ℕ
  offset : ℕ

structure TextureLayout where
  width : ℕ
  height : ℕ
  count : ℕ
  bytes : ℕ
  linearBytes : ℕ
  mips : ℕ → Mip

namespace TextureLayout

/-- Positions of the small levels in the tail block. -/
def tail : List (ℕ × ℕ) :=
  [(64, 0), (0, 64), (32, 0), (0, 32), (16, 0), (8, 16), (0, 24), (0, 16), (8, 8), (8, 0), (0, 8),
    (0, 0)]

variable (A : Arithmetic)

def aligned (n : ℕ) : ℕ := A.u32 (n + 127) &&& 0xffffff80

def ceilMip (n m : ℕ) : ℕ := max 1 (A.u32 (A.u32 (n + A.u32 (2 ^ m)) - 1) >>> m)

/-- `x << k` on 32 bits. -/
def shl (x k : ℕ) : ℕ := A.u32 (x * 2 ^ k)

def swizzle (x y : ℕ) : ℕ :=
  (shl A y 4 &&& 0x70) ^^^ (shl A y 5 &&& 0xf00) ^^^ (shl A y 9 &&& 0x1000) ^^^
    (shl A y 8 &&& 0x4000) ^^^ (shl A x 2 &&& 0xc) ^^^ (shl A x 5 &&& 0x380) ^^^
    (shl A x 4 &&& 0x400) ^^^ (shl A x 6 &&& 0x800) ^^^ (shl A x 9 &&& 0xa000)

/-- Levels down to one texel: a number of 32 bits is halved at most `fuel = 32` times. -/
def maxMips : ℕ → ℕ → ℕ
  | 0, _ => 1
  | fuel + 1, d => if 1 < d then A.u32 (maxMips fuel (d >>> 1) + 1) else 1

/-- Locals of the constructor. -/
structure Building where
  firstTail : ℕ
  sizes : ℕ → ℕ
  bytes : ℕ
  linearBytes : ℕ
  mips : ℕ → Mip

/-- One turn of the loop over the levels. -/
def addMip (width height mipCount : ℕ) (s : Building) (m : ℕ) : Building :=
  let w := max 1 (width >>> m)
  let h := max 1 (height >>> m)
  let linearBytes := A.u64 (s.linearBytes + A.u64 (A.u64 (w * h) * 4))
  let wc := ceilMip A width m
  let hc := ceilMip A height m
  let firstTail :=
    if 1 < mipCount ∧ s.firstTail = mipCount ∧ wc ≤ 64 ∧ hc ≤ 128 ∧ A.u32 (mipCount - m) ≤ 12 then m
    else s.firstTail
  if m < firstTail then
    let size := A.u64 (A.u64 (aligned A wc * aligned A hc) * 4)
    { firstTail := firstTail
      sizes := Function.update s.sizes m size
      bytes := A.u64 (s.bytes + size)
      linearBytes := linearBytes
      mips := Function.update s.mips m ⟨w, h, aligned A wc, 0, 0, 0⟩ }
  else
    let place := tail.getD (A.u32 (m - firstTail)) (0, 0)
    { s with
      firstTail := firstTail
      linearBytes := linearBytes
      mips := Function.update s.mips m ⟨w, h, 128, place.1, place.2, 0⟩ }

/-- One turn of the loop over the levels before the tail, from the last one. -/
def placeMip (sizes : ℕ → ℕ) (s : (ℕ → Mip) × ℕ) (m : ℕ) : (ℕ → Mip) × ℕ :=
  (Function.update s.1 m { s.1 m with offset := s.2 }, A.u64 (s.2 + sizes m))

/-- The constructor. -/
def make (width height mipCount : ℕ) : Except String TextureLayout :=
  if width = 0 ∨ height = 0 ∨ width > 16384 ∨ height > 16384 ∨ mipCount = 0 ∨ mipCount > 15 then
    .error "Invalid AGC texture dimensions/mips"
  else if mipCount > maxMips A 32 (max width height) then
    .error "Too many AGC texture mips"
  else
    let s := (List.range mipCount).foldl (addMip A width height mipCount)
      ⟨mipCount, fun _ => 0, 0, 0, fun _ => ⟨0, 0, 0, 0, 0, 0⟩⟩
    let offset := if s.firstTail < mipCount then 65536 else 0
    let placed := (List.range s.firstTail).reverse.foldl (placeMip A s.sizes) (s.mips, offset)
    .ok ⟨width, height, mipCount, A.u64 (s.bytes + offset), s.linearBytes, placed.1⟩

variable (L : TextureLayout)

/-- `mip`. -/
def mip (level : ℕ) : Except String Mip :=
  if level ≥ L.count then .error "AGC mip level" else .ok (L.mips level)

def pixelOffset (x y level : ℕ) : Except String ℕ := do
  let m ← L.mip level
  if x ≥ m.width ∨ y ≥ m.height then .error "AGC texel coordinate"
  else
    let block := A.u64 (A.u64 ((y >>> 7) * (m.paddedWidth >>> 7)) + (x >>> 7))
    .ok (A.u64 (A.u64 (m.offset + A.u64 (block * 2 ^ 16)) +
      swizzle A (A.u32 (x + m.tailX)) (A.u32 (y + m.tailY))))

/-- The body of the loops of `tile`: copies a texel from `source` of the pixels. -/
def tileTexel (storage pixels : Span) (level y : ℕ) (s : (ℕ → UInt8) × ℕ) (x : ℕ) :
    Except String ((ℕ → UInt8) × ℕ) := do
  let offset ← L.pixelOffset A x y level
  pure (write s.1 (storage.data + offset) (load s.1 (pixels.data + s.2) 4), A.u64 (s.2 + 4))

def tileRow (storage pixels : Span) (level : ℕ) (s : (ℕ → UInt8) × ℕ) (y : ℕ) :
    Except String ((ℕ → UInt8) × ℕ) :=
  (List.range (L.mips level).width).foldlM (L.tileTexel A storage pixels level y) s

def tileLevel (storage pixels : Span) (s : (ℕ → UInt8) × ℕ) (level : ℕ) :
    Except String ((ℕ → UInt8) × ℕ) :=
  (List.range (L.mips level).height).foldlM (L.tileRow A storage pixels level) s

/-- The spans share a byte. -/
def overlapping (storage pixels : Span) : Bool :=
  if storage.data ≤ pixels.data then pixels.data - storage.data < L.bytes
  else storage.data - pixels.data < L.linearBytes

def tile (mem : ℕ → UInt8) (storage pixels : Span) : Except String (ℕ → UInt8) :=
  if storage.size < L.bytes ∨ pixels.size ≠ L.linearBytes then
    .error "AGC texture byte size mismatch"
  else if L.overlapping storage pixels then
    .error "AGC upload source and destination overlap"
  else do
    let s ← (List.range L.count).foldlM (L.tileLevel A storage pixels)
      (write mem storage.data (List.replicate L.bytes 0), 0)
    pure s.1

end TextureLayout

end Gpu
