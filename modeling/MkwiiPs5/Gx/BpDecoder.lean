import Mathlib.Data.Nat.Bitwise
import MkwiiPs5.Gx.Viewport
import MkwiiPs5.RegisterFile

/-!
# BP registers

`handle_bp`. Each part of the state has one decoder, made of the cases of the source's switch
that write the part.
-/

namespace Gx

open Overlay (write)

/-- `bp_get`. -/
def bpGet (reg size shift : ℕ) : ℕ := reg >>> shift &&& (1 <<< size - 1)

def bpFlag (reg shift : ℕ) : Bool := bpGet reg 1 shift != 0

/-- A field of 11 bits, sign-extended. -/
def bpSigned11 (reg shift : ℕ) : ℤ :=
  let field := bpGet reg 11 shift
  if field &&& 0x400 ≠ 0 then (field : ℤ) - 0x800 else field

/-- `static_cast<s8>`. -/
def toS8 (x : ℕ) : ℤ := if x < 128 then x else (x : ℤ) - 256

def floatOfBits (bits : ℕ) : Float32 := .ofBits (.ofNat bits)

/-- A byte as a fraction of 255. -/
def unorm8 (x : ℕ) : Float32 := Float32.ofNat x / 255.0

/-! ### Generator mode and copy filter -/

/-- genMode (0x00); front and back are swapped. -/
def decodeGenMode (value : ℕ) : GenMode where
  numTexGens := bpGet value 4 0
  numChans := bpGet value 3 4
  numTevStages := bpGet value 4 10 + 1
  cullMode :=
    let hwCull := bpGet value 2 14
    if hwCull = GX_CULL_FRONT then GX_CULL_BACK
    else if hwCull = GX_CULL_BACK then GX_CULL_FRONT
    else hwCull
  numIndStages := bpGet value 3 16

def GenMode.bp (r value : ℕ) (g : GenMode) : GenMode :=
  if r = 0x00 then decodeGenMode value else g

/-- `refresh_copy_filter_flags`. -/
def refreshCopyFilterFlags (f : CopyFilter) : CopyFilter :=
  { f with
    aa := (List.range 24).any fun i => f.samplePattern i != 6
    vf := (List.range 7).any fun i => f.vFilter i != [0, 0, 21, 22, 21, 0, 0].getD i 0 }

def CopyFilter.bp (r value : ℕ) (f : CopyFilter) : CopyFilter :=
  if 0x01 ≤ r ∧ r ≤ 0x04 then
    let samples := (List.range 6).map fun i => bpGet value 4 (i * 4)
    refreshCopyFilterFlags
      { f with samplePattern := write f.samplePattern ((r - 0x01) * 6) samples }
  else if r = 0x53 then
    let taps := [bpGet value 6 0, bpGet value 6 6, bpGet value 6 12, bpGet value 6 18]
    refreshCopyFilterFlags { f with vFilter := write f.vFilter 0 taps }
  else if r = 0x54 then
    let taps := [bpGet value 6 0, bpGet value 6 6, bpGet value 6 12]
    refreshCopyFilterFlags { f with vFilter := write f.vFilter 4 taps }
  else f

/-! ### Indirect stages and matrices -/

/-- The bits of one column replace theirs in `adjScaleRaw`; the third column has one bit. -/
def adjScale (column value adjScaleRaw : ℕ) : ℕ :=
  let scaleBits := bpGet value 2 22
  let shift := column * 2
  if column = 2 then
    (adjScaleRaw &&& (0xff ^^^ (1 <<< shift))) ||| ((scaleBits &&& 1) <<< shift)
  else
    (adjScaleRaw &&& (0xff ^^^ (3 <<< shift))) ||| (scaleBits <<< shift)

/-- Indirect texture matrices (0x06-0x0E), one column a register. -/
def IndTexMtxInfo.column (column value : ℕ) (info : IndTexMtxInfo) : IndTexMtxInfo :=
  let packed := (Float32.ofInt (bpSigned11 value 0) / 1024.0,
    Float32.ofInt (bpSigned11 value 11) / 1024.0)
  let raw := adjScale column value info.adjScaleRaw
  { mtx := write info.mtx column [packed]
    adjScaleRaw := raw
    scaleExp := toS8 raw - 17 }

def bpIndTexMtxs (r value : ℕ) (mtxs : ℕ → IndTexMtxInfo) : ℕ → IndTexMtxInfo :=
  if 0x06 ≤ r ∧ r ≤ 0x0E then
    let idx := (r - 0x06) / 3
    write mtxs idx [(mtxs idx).column ((r - 0x06) % 3) value]
  else mtxs

def bpIndTexMask (r value mask : ℕ) : ℕ := if r = 0x0F then value &&& 0xff else mask

def IndStages.bp (r value : ℕ) (s : IndStages) : IndStages :=
  if r = 0x25 then
    let scales := [(bpGet value 4 0, bpGet value 4 4), (bpGet value 4 8, bpGet value 4 12)]
    { s with scale := write s.scale 0 scales }
  else if r = 0x26 then
    let scales := [(bpGet value 4 0, bpGet value 4 4), (bpGet value 4 8, bpGet value 4 12)]
    { s with scale := write s.scale 2 scales }
  else if r = 0x27 then
    { s with
      texMapId := write s.texMapId 0 ((List.range MaxIndStages).map fun i => bpGet value 3 (i * 6))
      texCoordId := write s.texCoordId 0
        ((List.range MaxIndStages).map fun i => bpGet value 3 (i * 6 + 3)) }
  else s

/-! ### TEV stages -/

/-- Bias 3 is the compare mode, with three more bits of operation. -/
def decodeTevOp (value : ℕ) : TevOp where
  clamp := bpFlag value 19
  outReg := bpGet value 2 22
  op := if bpGet value 2 16 = 3 then (bpGet value 1 18 ||| (bpGet value 2 20 <<< 1)) + 8
    else bpGet value 1 18
  bias := if bpGet value 2 16 = 3 then GX_TB_ZERO else bpGet value 2 16
  scale := if bpGet value 2 16 = 3 then GX_CS_SCALE_1 else bpGet value 2 20

def decodeTevColor (value : ℕ) : TevPass × TevOp :=
  ({ d := bpGet value 4 0
     c := bpGet value 4 4
     b := bpGet value 4 8
     a := bpGet value 4 12 }, decodeTevOp value)

def decodeTevAlpha (value : ℕ) : TevAlpha where
  swapRas := bpGet value 2 0
  swapTex := bpGet value 2 2
  pass :=
    { d := bpGet value 3 4
      c := bpGet value 3 7
      b := bpGet value 3 10
      a := bpGet value 3 13 }
  op := decodeTevOp value

def decodeTevIndirect (value : ℕ) : TevIndirect where
  stage := bpGet value 2 0
  format := bpGet value 2 2
  biasSel := bpGet value 3 4
  alphaSel := bpGet value 2 7
  mtxId := bpGet value 4 9
  wrapS := bpGet value 3 13
  wrapT := bpGet value 3 16
  useOrigLOD := bpFlag value 19
  addPrev := bpFlag value 20

/-- `r2c`, from the channels of the hardware to those of GX. -/
def r2c : List ℕ :=
  [GX_COLOR0A0, GX_COLOR1A1, GX_COLOR0A0, GX_COLOR1A1, GX_COLOR0A0, GX_ALPHA_BUMP,
    GX_ALPHA_BUMPN, GX_COLOR_ZERO]

/-- One half of a TEV order register. -/
def decodeTevOrder (value shift : ℕ) : TevOrder where
  texMapId := if bpGet value 1 (shift + 6) = 0 then GX_TEXMAP_NULL else bpGet value 3 shift
  texCoordId := bpGet value 3 (shift + 3)
  channelId := r2c.getD (bpGet value 3 (shift + 7)) GX_COLOR_NULL

/-- The stages from `stage` on that are in the array. -/
def writeStages {α : Type*} (a : ℕ → α) (stage : ℕ) (data : List α) : ℕ → α :=
  write a stage (data.take (MaxTevStages - stage))

def bpTevColor (r value : ℕ) (a : ℕ → TevPass × TevOp) : ℕ → TevPass × TevOp :=
  if 0xC0 ≤ r ∧ r ≤ 0xDE ∧ r &&& 1 = 0 then
    writeStages a ((r - 0xC0) / 2) [decodeTevColor value]
  else a

def bpTevAlpha (r value : ℕ) (a : ℕ → TevAlpha) : ℕ → TevAlpha :=
  if 0xC1 ≤ r ∧ r ≤ 0xDF ∧ r &&& 1 = 1 then
    writeStages a ((r - 0xC1) / 2) [decodeTevAlpha value]
  else a

def bpTevIndirect (r value : ℕ) (a : ℕ → TevIndirect) : ℕ → TevIndirect :=
  if 0x10 ≤ r ∧ r ≤ 0x1F then writeStages a (r - 0x10) [decodeTevIndirect value] else a

def bpTevOrder (r value : ℕ) (a : ℕ → TevOrder) : ℕ → TevOrder :=
  if 0x28 ≤ r ∧ r ≤ 0x2F then
    writeStages a ((r - 0x28) * 2) [decodeTevOrder value 0, decodeTevOrder value 12]
  else a

/-- TEV K selections of two stages (0xF6-0xFD). -/
def bpTevKSel (r value : ℕ) (a : ℕ → ℕ × ℕ) : ℕ → ℕ × ℕ :=
  if 0xF6 ≤ r ∧ r ≤ 0xFD then
    writeStages a ((r - 0xF6) * 2)
      [(bpGet value 5 4, bpGet value 5 9), (bpGet value 5 14, bpGet value 5 19)]
  else a

/-- One half of a swap table entry, by the same registers: red and green for the even ones. -/
def bpTevSwap (half r value : ℕ) (a : ℕ → ℕ × ℕ) : ℕ → ℕ × ℕ :=
  if (0xF6 ≤ r ∧ r ≤ 0xFD) ∧ (r - 0xF6) &&& 1 = half then
    write a ((r - 0xF6) / 2) [(bpGet value 2 0, bpGet value 2 2)]
  else a

def TevStages.bp (r value : ℕ) (t : TevStages) : TevStages where
  color := bpTevColor r value t.color
  alpha := bpTevAlpha r value t.alpha
  indirect := bpTevIndirect r value t.indirect
  order := bpTevOrder r value t.order
  kSel := bpTevKSel r value t.kSel
  swapRedGreen := bpTevSwap 0 r value t.swapRedGreen
  swapBlueAlpha := bpTevSwap 1 r value t.swapBlueAlpha

/-! ### Scissor, lines and texture coordinates -/

def decodeScissor (scis0 scis1 : ℕ) : ClipRect :=
  let tp := (bpGet scis0 11 0 : ℤ) - 342
  let lf := (bpGet scis0 11 12 : ℤ) - 342
  let bm := (bpGet scis1 11 0 : ℤ) - 342
  let rt := (bpGet scis1 11 12 : ℤ) - 342
  ⟨lf, tp, max (rt - lf + 1) 0, max (bm - tp + 1) 0⟩

/-- Scissor box offset (0x59). -/
def ViewState.setScissorOffset (value : ℕ) (s : ViewState) : ViewState :=
  { s with
    scissorOffsetX := (((value &&& 0x3ff) <<< 1 : ℕ) : ℤ) - 0x156
    scissorOffsetY := (((value &&& 0xffc00) >>> 9 : ℕ) : ℤ) - 0x156 }.setLogicalScissor
      s.logicalScissor

/-- Scissor (0x20, 0x21) and scissor box offset. -/
def ViewState.bp (cache : ℕ → ℕ) (r value : ℕ) (s : ViewState) : ViewState :=
  if r = 0x20 ∨ r = 0x21 then s.setLogicalScissor (decodeScissor (cache 0x20) (cache 0x21))
  else if r = 0x59 then s.setScissorOffset value
  else s

def LinePoint.bp (r value : ℕ) (l : LinePoint) : LinePoint :=
  if r = 0x22 then
    { lineWidth := bpGet value 8 0
      pointSize := bpGet value 8 8
      lineTexOffset := bpGet value 3 16
      pointTexOffset := bpGet value 3 19
      lineHalfAspect := bpFlag value 22 }
  else l

/-- SU texture coordinate scale registers (0x30-0x3F), even for S and odd for T. -/
def bpTexCoordScaleS (r value : ℕ) (a : ℕ → TexCoordScaleS) : ℕ → TexCoordScaleS :=
  if (0x30 ≤ r ∧ r ≤ 0x3F) ∧ r &&& 1 = 0 then
    write a ((r - 0x30) / 2) [⟨bpGet value 16 0, bpFlag value 16, bpFlag value 17,
      bpFlag value 18, bpFlag value 19⟩]
  else a

def bpTexCoordScaleT (r value : ℕ) (a : ℕ → TexCoordScaleT) : ℕ → TexCoordScaleT :=
  if (0x30 ≤ r ∧ r ≤ 0x3F) ∧ r &&& 1 ≠ 0 then
    write a ((r - 0x30) / 2) [⟨bpGet value 16 0, bpFlag value 16, bpFlag value 17⟩]
  else a

def TexCoordScales.bp (r value : ℕ) (t : TexCoordScales) : TexCoordScales where
  s := bpTexCoordScaleS r value t.s
  t := bpTexCoordScaleT r value t.t

/-! ### Pixel engine -/

def decodePixelFmt (peCtrl cmode1 : ℕ) : ℕ :=
  match bpGet peCtrl 3 0 with
  | 0 => GX_PF_RGB8_Z24
  | 1 => GX_PF_RGBA6_Z24
  | 2 => GX_PF_RGB565_Z16
  | 3 => GX_PF_Z24
  | 4 =>
    match bpGet cmode1 2 9 with
    | 0 => GX_PF_Y8
    | 1 => GX_PF_U8
    | 2 => GX_PF_V8
    | _ => GX_PF_Y8
  | 5 => GX_PF_YUV420
  | _ => GX_PF_RGB8_Z24

/-- Blend mode / cmode0 (0x41). -/
def decodeBlend (value : ℕ) : Blend where
  colorUpdate := bpFlag value 3
  alphaUpdate := bpFlag value 4
  facDst := bpGet value 3 5
  facSrc := bpGet value 3 8
  op := bpGet value 4 12
  mode := if bpFlag value 11 then GX_BM_SUBTRACT
    else if bpFlag value 0 then GX_BM_BLEND
    else if bpFlag value 1 then GX_BM_LOGIC
    else GX_BM_NONE

/-- Dst alpha / cmode1 (0x42) and PE control (0x43), which choose the pixel format together. -/
def PixelFormat.bp (cache : ℕ → ℕ) (r value : ℕ) (p : PixelFormat) : PixelFormat :=
  if r = 0x42 then
    { p with
      dstAlpha := if bpFlag value 8 then bpGet value 8 0 else UINT32_MAX
      pixelFmt := decodePixelFmt (cache 0x43) value }
  else if r = 0x43 then
    { p with
      pixelFmt := decodePixelFmt value (cache 0x42)
      zFmt := bpGet value 3 3
      zCompLocBeforeTex := bpFlag value 6 }
  else p

def PixelState.bp (r value : ℕ) (p : PixelState) : PixelState :=
  if r = 0x40 then { p with zMode := ⟨bpFlag value 0, bpGet value 3 1, bpFlag value 4⟩ }
  else if r = 0x41 then { p with blend := decodeBlend value }
  else if r = 0x44 then { p with fieldMask := value &&& 0x3 }
  else if r = 0x58 then { p with revBits := value &&& 0x00ffffff }
  else if r = 0x68 then { p with fieldMode := value &&& 0x1 }
  else if r = 0xF3 then
    { p with alphaCompare :=
      { ref0 := bpGet value 8 0
        ref1 := bpGet value 8 8
        comp0 := bpGet value 3 16
        comp1 := bpGet value 3 19
        op := bpGet value 2 22 } }
  else if r = 0xF4 then { p with zTextureBias := value &&& 0x00ffffff }
  else if r = 0xF5 then { p with zTextureFmt := bpGet value 2 0, zTextureOp := bpGet value 2 2 }
  else p

/-! ### Copies -/

def CopyState.bp (r value : ℕ) (c : CopyState) : CopyState :=
  if r = 0x49 then { c with dispSrcXY := (bpGet value 10 0, bpGet value 10 10) }
  else if r = 0x4A then { c with dispSrcSize := (bpGet value 10 0 + 1, bpGet value 10 10 + 1) }
  else if r = 0x4D then { c with dispDstWidth := bpGet value 10 0 <<< 4 }
  else if r = 0x4E then
    let iScale := bpGet value 9 0
    { c with dispYScale := if iScale ≠ 0 then 256.0 / Float32.ofNat iScale else c.dispYScale }
  else if r = 0x4F then
    { c with clearRedAlpha := (unorm8 (bpGet value 8 0), unorm8 (bpGet value 8 8)) }
  else if r = 0x50 then
    { c with clearBlueGreen := (unorm8 (bpGet value 8 0), unorm8 (bpGet value 8 8)) }
  else if r = 0x51 then { c with clearDepth := bpGet value 24 0 }
  else if r = 0x52 then
    { c with control :=
      { clamp := bpGet value 2 0
        texFmt := bpGet value 4 3
        gamma := bpGet value 2 7
        halfScale := bpFlag value 9
        frame2Field := bpGet value 2 12 } }
  else c

/-- Bounding box clear/update registers (0x55, 0x56). -/
def bpBoundingBox (r value : ℕ) (box : ℕ → ℕ) : ℕ → ℕ :=
  if r = 0x55 ∨ r = 0x56 then
    write box (r &&& 2) [value &&& 0x3ff, (value >>> 10) &&& 0x3ff]
  else box

/-! ### Textures -/

/-- TLUT load execute (0x65), with the load address of 0x64. -/
def bpTluts (cache : ℕ → ℕ) (r value : ℕ) (tluts : ℕ → TlutObj) : ℕ → TlutObj :=
  if r = 0x65 then
    let idx := bpGet value 10 0
    if idx < MaxTluts then
      write tluts idx [{ tluts idx with
        loadTlut0 := cache 0x64
        numEntries := bpGet value 10 10 + 1 }]
    else tluts
  else tluts

inductive TexBpRegKind
  | mode0 | mode1 | image0 | image1 | image2 | image3 | tlut

/-- `decode_tex_bp_reg`: each kind has four registers for the maps 0 to 3, from 0x80 on, and
four for the maps 4 to 7, from 0xA0 on. -/
def decodeTexBpReg (regId : ℕ) : Option (ℕ × TexBpRegKind) :=
  if 0x80 ≤ regId ∧ regId < 0xC0 then
    let texMapId := (regId - 0x80) / 0x20 * 4 + regId % 4
    match regId % 0x20 / 4 with
    | 0 => some (texMapId, .mode0)
    | 1 => some (texMapId, .mode1)
    | 2 => some (texMapId, .image0)
    | 3 => some (texMapId, .image1)
    | 4 => some (texMapId, .image2)
    | 5 => some (texMapId, .image3)
    | 6 => some (texMapId, .tlut)
    | _ => none
  else none

def InvalidTextureFormat : ℕ := UINT32_MAX

def TexObj.bp (kind : TexBpRegKind) (value : ℕ) (slot : TexObj) : TexObj :=
  match kind with
  | .mode0 => { slot with mode0 := value }
  | .mode1 => { slot with mode1 := value }
  | .image0 =>
    if slot.image0 ≠ value then
      { slot with
        image0 := value
        mWidth := 0
        mHeight := 0
        mFormat := InvalidTextureFormat }
    else slot
  | .image3 => { slot with image3 := value }
  | .tlut | .image1 | .image2 => slot

def bpTextures (r value : ℕ) (textures : ℕ → TexObj) : ℕ → TexObj :=
  match decodeTexBpReg r with
  | none => textures
  | some (texMapId, kind) => write textures texMapId [(textures texMapId).bp kind value]

/-! ### Colours and fog -/

/-- Red and alpha, or blue and green, of one colour register. -/
def writeHalf (isRA : Bool) (low high : Float32) (color : ℕ → Float32) : ℕ → Float32 :=
  if isRA then write (write color 0 [low]) 3 [high] else write (write color 2 [low]) 1 [high]

/-- TEV and K colour registers (0xE0-0xE7), even for red and alpha, odd for blue and green. -/
def bpKColors (r value : ℕ) (a : ℕ → ℕ → Float32) : ℕ → ℕ → Float32 :=
  if (0xE0 ≤ r ∧ r ≤ 0xE7) ∧ bpFlag value 23 = true then
    let idx := (r - 0xE0) / 2
    write a idx [writeHalf (r &&& 1 == 0) (unorm8 (bpGet value 8 0)) (unorm8 (bpGet value 8 12))
      (a idx)]
  else a

def bpColorRegs (r value : ℕ) (a : ℕ → ℕ → Float32) : ℕ → ℕ → Float32 :=
  if (0xE0 ≤ r ∧ r ≤ 0xE7) ∧ bpFlag value 23 = false then
    let idx := (r - 0xE0) / 2
    write a idx [writeHalf (r &&& 1 == 0) (Float32.ofInt (bpSigned11 value 0) / 255.0)
      (Float32.ofInt (bpSigned11 value 12) / 255.0) (a idx)]
  else a

def TevColors.bp (r value : ℕ) (c : TevColors) : TevColors where
  colorRegs := bpColorRegs r value c.colorRegs
  kcolors := bpKColors r value c.kcolors

/-- The partial float of the fog parameters A and C. -/
def fogFloat (value : ℕ) : Float32 :=
  floatOfBits ((bpGet value 1 19 <<< 31) ||| (bpGet value 8 11 <<< 23) ||| (bpGet value 11 0 <<< 12))

/-- The fog parameter B, of a 24-bit magnitude and a shift. -/
def fogB (magnitude shift : ℕ) : Float32 :=
  (Float32.ofNat magnitude / 8388638.0).scaleB ((shift : ℤ) - 1)

def bpFogRange (r value : ℕ) (range : ℕ → ℕ) : ℕ → ℕ :=
  if 0xE8 ≤ r ∧ r ≤ 0xED then write range (r - 0xE8) [value &&& 0x00ffffff] else range

def FogState.bp (r value : ℕ) (f : FogState) : FogState :=
  if r = 0xEE then
    { f with
      fog0Raw := value
      aRaw := fogFloat value
      a := (fogFloat value).scaleB (bpGet f.fog2Raw 5 0 : ℕ) }
  else if r = 0xEF then
    { f with
      fog1Raw := value
      bMagnitude := bpGet value 24 0
      b := fogB (bpGet value 24 0) (bpGet f.fog2Raw 5 0) }
  else if r = 0xF0 then
    { f with
      fog2Raw := value
      bShift := bpGet value 5 0
      aRaw := fogFloat f.fog0Raw
      a := (fogFloat f.fog0Raw).scaleB (bpGet value 5 0 : ℕ)
      bMagnitude := bpGet f.fog1Raw 24 0
      b := fogB (bpGet f.fog1Raw 24 0) (bpGet value 5 0) }
  else if r = 0xF1 then
    { f with
      type := bpGet value 3 21 ||| (bpGet value 1 20 <<< 3)
      c := fogFloat value }
  else if r = 0xF2 then
    { f with color :=
      [unorm8 (bpGet value 8 16), unorm8 (bpGet value 8 8), unorm8 (bpGet value 8 0), 1.0] }
  else f

/-! ### The handler -/

/-- The switch of `handle_bp`, on the register cache with the new value in it. -/
def decodeBp (cache : ℕ → ℕ) (r value : ℕ) (d : Decoded) : Decoded :=
  { d with
    genMode := d.genMode.bp r value
    copyFilter := d.copyFilter.bp r value
    indTexMtxs := bpIndTexMtxs r value d.indTexMtxs
    indTexMask := bpIndTexMask r value d.indTexMask
    indStages := d.indStages.bp r value
    tevStages := d.tevStages.bp r value
    view := d.view.bp cache r value
    linePoint := d.linePoint.bp r value
    texCoordScales := d.texCoordScales.bp r value
    pixelFormat := d.pixelFormat.bp cache r value
    pixel := d.pixel.bp r value
    copy := d.copy.bp r value
    boundingBox := bpBoundingBox r value d.boundingBox
    loadedTluts := bpTluts cache r value d.loadedTluts
    loadedTextures := bpTextures r value d.loadedTextures
    tevColors := d.tevColors.bp r value
    fog := d.fog.bp r value
    fogRange := bpFogRange r value d.fogRange }

/-- `invalidateXfReg`. -/
def GXRegisterState.invalidateXfReg (reg : ℕ) (s : GXRegisterState) : GXRegisterState :=
  { s with xfRegCacheValid := Function.update s.xfRegCacheValid reg false }

/-- What `handle_bp` does with a register whose value is new. -/
def GXRegisterState.storeBp (r value : ℕ) (s : GXRegisterState) : GXRegisterState :=
  let cache := Function.update s.bpRegCache r value
  let s := { s with bpRegCache := cache, decoded := decodeBp cache r value s.decoded }
  if r = 0x00 then (s.invalidateXfReg 0x3F).invalidateXfReg 0x09 else s

@[simp]
theorem GXRegisterState.storeBp_decoded (r value : ℕ) (s : GXRegisterState) :
    (s.storeBp r value).decoded =
      decodeBp (Function.update s.bpRegCache r value) r value s.decoded := by
  rw [storeBp]
  split <;> rfl

@[simp]
theorem GXRegisterState.storeBp_bpRegCache (r value : ℕ) (s : GXRegisterState) :
    (s.storeBp r value).bpRegCache = Function.update s.bpRegCache r value := by
  rw [storeBp]
  split <;> rfl

/-- The register of a BP word, and the value that the mask register lets through. -/
def mergeBp (cache : ℕ → ℕ) (word : ℕ) : ℕ × ℕ :=
  let regId := (word >>> 24) &&& 0xff
  let ssMask := cache 0xFE
  let merged := (cache regId &&& (UINT32_MAX ^^^ ssMask)) ||| (word &&& ssMask)
  (regId, (regId <<< 24) ||| (merged &&& 0x00ffffff))

/-- `handle_bp`. Without `skip` the register is decoded although its value is unchanged. -/
def handleBp (skip : Bool) (word : ℕ) (s : GXRegisterState) : GXRegisterState :=
  if (word >>> 24) &&& 0xff = 0xFE then
    { s with bpRegCache := Function.update s.bpRegCache 0xFE (word &&& 0x00ffffff) }
  else
    let (regId, value) := mergeBp s.bpRegCache word
    -- the mask holds for one write
    let s := { s with bpRegCache := Function.update s.bpRegCache 0xFE 0x00ffffff }
    if skip && s.bpRegCache regId == value then s else s.storeBp regId value

end Gx
