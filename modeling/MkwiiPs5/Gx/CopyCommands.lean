import MkwiiPs5.Arithmetic
import MkwiiPs5.BitField
import MkwiiPs5.Gx.RegisterRuns

/-!
# Copy commands

The producers of `gx_copy_commands.cpp` that assign the copy state and also pack it into BP words.
The words wait in the FIFO, and the decoder unpacks them when it is drained.
-/

namespace Gx

open Overlay (write)
open BitField

/-! ### Words -/

/-- `SET_REG_FIELD`, a macro of the SDK: register, size, shift and value. -/
abbrev SetRegField := ℕ → ℕ → ℕ → ℕ → ℕ

/-- A value that fits goes to its field, and the others stay. -/
structure SetsField (set : SetRegField) : Prop where
  same : ∀ reg size shift value, shift + size ≤ 32 → value < 2 ^ size →
    field (set reg size shift value) size shift = value
  apart : ∀ reg size shift value n s, shift + size ≤ 32 → value < 2 ^ size → s + n ≤ 32 →
    s + n ≤ shift ∨ shift + size ≤ s → field (set reg size shift value) n s = field reg n s

structure GXColor where
  r : UInt8
  g : UInt8
  b : UInt8
  a : UInt8

/-- `pack_copy_filter_samples`. -/
def packCopyFilterSamples (reg : ℕ) (samplePattern : ℕ → ℕ) (first : ℕ) : ℕ :=
  (List.range 6).foldl
    (fun value i => value ||| (samplePattern (first + i) &&& 0x0f) <<< (i * 4)) (reg <<< 24)

/-- `pack_copy_filter0`. -/
def packCopyFilter0 (vfilter : ℕ → ℕ) : ℕ :=
  0x53000000 ||| (vfilter 0 &&& 0x3f) <<< 0 ||| (vfilter 1 &&& 0x3f) <<< 6 |||
    (vfilter 2 &&& 0x3f) <<< 12 ||| (vfilter 3 &&& 0x3f) <<< 18

/-- `pack_copy_filter1`. -/
def packCopyFilter1 (vfilter : ℕ → ℕ) : ℕ :=
  0x54000000 ||| (vfilter 4 &&& 0x3f) <<< 0 ||| (vfilter 5 &&& 0x3f) <<< 6 |||
    (vfilter 6 &&& 0x3f) <<< 12

/-- `x - 1u`, of 32 bits. -/
def decrement (x : ℕ) : ℕ := (x + UINT32_MAX) % 2 ^ 32

/-! ### Producers -/

/-- The registers, the display copy height, which is in none, and the commands in the FIFO. -/
structure Frontend where
  state : GXRegisterState
  dispCopyDstHeight : ℕ
  fifo : List RegisterWrite

namespace Frontend

/-- `GX_WRITE_RAS_REG`. -/
def writeRasRegs (words : List ℕ) (f : Frontend) : Frontend :=
  { f with fifo := f.fifo ++ words.map .bp }

def setCopy (copy : CopyState) (f : Frontend) : Frontend :=
  { f with state := { f.state with decoded := { f.state.decoded with copy := copy } } }

def setCopyFilter (copyFilter : CopyFilter) (f : Frontend) : Frontend :=
  { f with state := { f.state with decoded := { f.state.decoded with copyFilter := copyFilter } } }

/-- All commands of the FIFO are decoded. -/
def drain (f : Frontend) : Except Fault Frontend := do
  let state ← registerRun true f.state f.fifo
  pure { f with state := state, fifo := [] }

end Frontend

def dispCopySrcWords (left top wd ht : ℕ) : List ℕ :=
  [0x49000000 ||| (top &&& 0x3ff) <<< 10 ||| (left &&& 0x3ff),
    0x4a000000 ||| (decrement ht * 0x400 &&& 0x000ffc00) ||| (decrement wd &&& 0x3ff)]

def GXSetDispCopySrc (left top wd ht : ℕ) (f : Frontend) : Frontend :=
  (f.setCopy { f.state.decoded.copy with dispSrcXY := (left, top), dispSrcSize := (wd, ht) }).writeRasRegs
    (dispCopySrcWords left top wd ht)

def dispCopyDstWords (wd : ℕ) : List ℕ :=
  [0x4d000000 ||| (((wd &&& 0x7fff) <<< 1) >>> 5 &&& 0x3ff)]

def GXSetDispCopyDst (wd ht : ℕ) (f : Frontend) : Frontend :=
  { f.setCopy { f.state.decoded.copy with dispDstWidth := wd } with
    dispCopyDstHeight := ht }.writeRasRegs (dispCopyDstWords wd)

def copyClearWords (set : SetRegField) (color : GXColor) (depth : ℕ) : List ℕ :=
  [set (set (set 0 8 0 color.r.toNat) 8 8 color.a.toNat) 8 24 0x4F,
    set (set (set 0 8 0 color.b.toNat) 8 8 color.g.toNat) 8 24 0x50,
    set (set 0 24 0 depth) 8 24 0x51]

/-- The clear values go through the FIFO only. -/
def GXSetCopyClear (set : SetRegField) (color : GXColor) (depth : ℕ) (f : Frontend) : Frontend :=
  f.writeRasRegs (copyClearWords set color depth)

/-- What `GXSetCopyFilter` stores; without anti-aliasing or a filter, the defaults. -/
def storedCopyFilter (aa : Bool) (samplePattern : Option (ℕ → ℕ)) (vf : Bool)
    (vfilter : Option (ℕ → ℕ)) (old : CopyFilter) : CopyFilter :=
  let pattern := match samplePattern with
    | some p => write old.samplePattern 0 ((List.range 24).map p)
    | none => old.samplePattern
  let taps := match vfilter with
    | some v => write old.vFilter 0 ((List.range 7).map v)
    | none => old.vFilter
  { aa := aa
    vf := vf
    samplePattern := if aa then pattern else write pattern 0 (List.replicate 24 6)
    vFilter := if vf then taps else write taps 0 [0, 0, 21, 22, 21, 0, 0] }

def copyFilterWords (f : CopyFilter) : List ℕ :=
  [packCopyFilterSamples 0x01 f.samplePattern 0, packCopyFilterSamples 0x02 f.samplePattern 6,
    packCopyFilterSamples 0x03 f.samplePattern 12, packCopyFilterSamples 0x04 f.samplePattern 18,
    packCopyFilter0 f.vFilter, packCopyFilter1 f.vFilter]

def GXSetCopyFilter (aa : Bool) (samplePattern : Option (ℕ → ℕ)) (vf : Bool)
    (vfilter : Option (ℕ → ℕ)) (f : Frontend) : Frontend :=
  let stored := storedCopyFilter aa samplePattern vf vfilter f.state.decoded.copyFilter
  (f.setCopyFilter stored).writeRasRegs (copyFilterWords stored)

/-! ### Calls and runs -/

inductive CopyCall
  | dispCopySrc (left top wd ht : ℕ)
  | dispCopyDst (wd ht : ℕ)
  | copyClear (color : GXColor) (depth : ℕ)
  | copyFilter (aa : Bool) (samplePattern : Option (ℕ → ℕ)) (vf : Bool) (vfilter : Option (ℕ → ℕ))

namespace CopyCall

def apply (set : SetRegField) : CopyCall → Frontend → Frontend
  | dispCopySrc left top wd ht => GXSetDispCopySrc left top wd ht
  | dispCopyDst wd ht => GXSetDispCopyDst wd ht
  | copyClear color depth => GXSetCopyClear set color depth
  | copyFilter aa samplePattern vf vfilter => GXSetCopyFilter aa samplePattern vf vfilter

/-- Arguments in the range of the hardware. An array that is not given stands for the one that is
there. -/
def InRange (old : CopyFilter) : CopyCall → Prop
  | dispCopySrc left top wd ht =>
    left < 1024 ∧ top < 1024 ∧ (1 ≤ wd ∧ wd ≤ 1024) ∧ 1 ≤ ht ∧ ht ≤ 1024
  | dispCopyDst wd _ => 16 ∣ wd ∧ wd < 16384
  | copyClear _ depth => depth < 2 ^ 24
  | copyFilter _ samplePattern _ vfilter =>
    (∀ i < 24, samplePattern.getD old.samplePattern i < 16) ∧
      ∀ i < 7, vfilter.getD old.vFilter i < 64

/-- The fields as a call is to leave them: its arguments, and all others as they were. -/
def leaves (old : CopyFilter) (d : Decoded) : CopyCall → Decoded
  | dispCopySrc left top wd ht =>
    { d with copy := { d.copy with dispSrcXY := (left, top), dispSrcSize := (wd, ht) } }
  | dispCopyDst wd _ => { d with copy := { d.copy with dispDstWidth := wd } }
  | copyClear color depth =>
    { d with copy :=
      { d.copy with
        clearRedAlpha := (unorm8 color.r.toNat, unorm8 color.a.toNat)
        clearBlueGreen := (unorm8 color.b.toNat, unorm8 color.g.toNat)
        clearDepth := depth } }
  | copyFilter aa samplePattern vf vfilter =>
    { d with copyFilter := storedCopyFilter aa samplePattern vf vfilter old }

def height (old : ℕ) : CopyCall → ℕ
  | dispCopyDst _ ht => ht
  | _ => old

end CopyCall

end Gx
