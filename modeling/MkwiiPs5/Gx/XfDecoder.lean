import MkwiiPs5.Gx.CommandReader
import MkwiiPs5.Gx.CpDecoder

/-!
# XF memory and registers

`handle_xf`: matrices and lights, then the registers from 0x1000 on.
-/

namespace Gx

open Overlay (write write_write write_comm write_singleton)
open RegisterFile

def GX_AF_SPEC : ℕ := 0
def GX_AF_SPOT : ℕ := 1
def GX_AF_NONE : ℕ := 2

def GX_TG_MTX3x4 : ℕ := 0
def GX_TG_MTX2x4 : ℕ := 1
def GX_TG_SRTG : ℕ := 10

def GX_ORTHOGRAPHIC : ℕ := 1

/-- `unpack_color`. -/
def unpackColor (packed : ℕ) : List Float32 :=
  [unorm8 (packed >>> 24 &&& 0xFF), unorm8 (packed >>> 16 &&& 0xFF),
    unorm8 (packed >>> 8 &&& 0xFF), unorm8 (packed &&& 0xFF)]

/-! ### Matrix memory -/

/-- One of the 16 values of a light. -/
def Light.setField (field word : ℕ) (light : Light) : Light :=
  let val := floatOfBits word
  if field = 3 then { light with color := unpackColor word }
  else if 4 ≤ field ∧ field ≤ 6 then { light with cosAtt := write light.cosAtt (field - 4) [val] }
  else if 7 ≤ field ∧ field ≤ 9 then { light with distAtt := write light.distAtt (field - 7) [val] }
  else if 10 ≤ field ∧ field ≤ 12 then { light with pos := write light.pos (field - 10) [val] }
  else if 13 ≤ field ∧ field ≤ 15 then { light with dir := write light.dir (field - 13) [val] }
  else light

/-- `copy_xf_data`; `none` is for addresses outside matrix memory. A copy that is not of a whole
matrix, or crosses lights, changes nothing. -/
def copyXfData (addr : ℕ) (words : List ℕ) (m : MatrixMemory) : Option MatrixMemory :=
  let len := words.length
  let floats := words.map floatOfBits
  if addr < 0x78 then
    let mtxIdx := addr / 12
    if mtxIdx < MaxPnMtx ∧ addr % 12 = 0 ∧ len = 12 then
      some { m with pos := write m.pos mtxIdx [write (m.pos mtxIdx) 0 floats] }
    else some m
  else if addr < 0xF0 then
    let mtxIdx := (addr - 0x78) / 12
    if mtxIdx < MaxTexMtx ∧ (addr - 0x78) % 12 = 0 ∧ (len = 8 ∨ len = 12) then
      some { m with texMtxs := write m.texMtxs mtxIdx [write (m.texMtxs mtxIdx) 0 floats] }
    else some m
  else if 0x400 ≤ addr ∧ addr < 0x45A then
    let mtxIdx := (addr - 0x400) / 9
    if mtxIdx < MaxPnMtx ∧ (addr - 0x400) % 9 = 0 ∧ len = 9 then
      -- rows of three, at a distance of four
      let flat := write (write (write (m.nrm mtxIdx) 0 (floats.take 3)) 4
        ((floats.drop 3).take 3)) 8 (floats.drop 6)
      some { m with nrm := write m.nrm mtxIdx [flat] }
    else some m
  else if 0x500 ≤ addr ∧ addr < 0x5F0 then
    let mtxIdx := (addr - 0x500) / 12
    if mtxIdx < MaxPTTexMtx ∧ (addr - 0x500) % 12 = 0 ∧ len = 12 then
      some { m with ptTexMtxs := write m.ptTexMtxs mtxIdx [write (m.ptTexMtxs mtxIdx) 0 floats] }
    else some m
  else if 0x600 ≤ addr ∧ addr < 0x680 then
    let lightIdx := (addr - 0x600) / 0x10
    let startOffset := (addr - 0x600) % 0x10
    if lightIdx < MaxLights ∧ startOffset + len ≤ 0x10 then
      let light := (words.zipIdx startOffset).foldl (fun light w => light.setField w.2 w.1)
        (m.lights lightIdx)
      some { m with lights := write m.lights lightIdx [light] }
    else some m
  else none

/-! ### Registers -/

/-- numChans and numTexGens (0x09, 0x3F), of one byte. -/
def GenMode.xf (reg val : ℕ) (g : GenMode) : GenMode :=
  if reg = 0x09 then { g with numChans := val % 0x100 }
  else if reg = 0x3F then { g with numTexGens := val % 0x100 }
  else g

/-- Ambient (0x0A, 0x0B) or material (0x0C, 0x0D) colour, for colour and alpha channel. -/
def xfColor (base reg val : ℕ) (a : ℕ → List Float32) : ℕ → List Float32 :=
  if reg = base ∨ reg = base + 1 then
    write (write a (reg - base) [unpackColor val]) (reg - base + 2) [unpackColor val]
  else a

def decodeChannel (val : ℕ) : ColorChannelConfig where
  matSrc := bpGet val 1 0
  lightingEnabled := bpFlag val 1
  ambSrc := bpGet val 1 6
  diffFn := bpGet val 2 7
  attnFn := if bpGet val 2 9 = 1 then GX_AF_SPEC
    else if bpGet val 2 9 = 3 then GX_AF_SPOT
    else GX_AF_NONE

/-- Channel control registers (0x0E-0x11). -/
def xfChannel (reg val : ℕ) (a : ℕ → ColorChannelConfig) : ℕ → ColorChannelConfig :=
  if 0x0E ≤ reg ∧ reg ≤ 0x11 then write a (reg - 0x0E) [decodeChannel val] else a

def xfLightMask (reg val : ℕ) (a : ℕ → ℕ) : ℕ → ℕ :=
  if 0x0E ≤ reg ∧ reg ≤ 0x11 then
    write a (reg - 0x0E) [bpGet val 4 2 ||| (bpGet val 4 11 <<< 4)]
  else a

def ColorChannels.xf (reg val : ℕ) (c : ColorChannels) : ColorChannels where
  ambColor := xfColor 0x0A reg val c.ambColor
  matColor := xfColor 0x0C reg val c.matColor
  config := xfChannel reg val c.config
  lightMask := xfLightMask reg val c.lightMask

/-- Matrix index A and B (0x18, 0x19). -/
def MatrixIndices.xf (reg val : ℕ) (m : MatrixIndices) : MatrixIndices :=
  if reg = 0x18 then ⟨bpGet val 6 0 / 3, write m.tcgMtx 0 (texMtxIndices val 6)⟩
  else if reg = 0x19 then { m with tcgMtx := write m.tcgMtx 4 (texMtxIndices val 0) }
  else m

def xfViewportReg (reg val : ℕ) (a : ℕ → Float32) : ℕ → Float32 :=
  if 0x1A ≤ reg ∧ reg ≤ 0x1F then write a (reg - 0x1A) [floatOfBits val] else a

def xfProjectionReg (reg val : ℕ) (a : ℕ → Float32) : ℕ → Float32 :=
  if 0x20 ≤ reg ∧ reg ≤ 0x25 then write a (reg - 0x20) [floatOfBits val] else a

/-- Viewport (0x1A-0x1F) and projection (0x20-0x26), to be applied after the burst. -/
def Transform.xf (reg val : ℕ) (t : Transform) : Transform :=
  { t with
    xfViewport := xfViewportReg reg val t.xfViewport
    xfProjection := xfProjectionReg reg val t.xfProjection
    projType := if reg = 0x26 then val else t.projType }

/-- `rowToSrc`. -/
def rowToSrc : List ℕ := [0, 1, 19, 2, 3, 4, 5, 6, 7, 8, 9, 10, 11]

/-- TexGen config (0x40-0x47). -/
def TexGen.decode (val : ℕ) (g : TexGen) : TexGen where
  inputFormAB11 := bpGet val 1 2 == 0
  type :=
    let tgType := bpGet val 3 4
    if tgType = 0 then if bpGet val 1 1 ≠ 0 then GX_TG_MTX3x4 else GX_TG_MTX2x4
    else if tgType = 1 then bpGet val 3 15 + 2
    else if tgType = 2 ∨ tgType = 3 then GX_TG_SRTG
    else g.type
  src := rowToSrc.getD (bpGet val 5 7) g.src

def xfTexGen (reg val : ℕ) (a : ℕ → TexGen) : ℕ → TexGen :=
  if 0x40 ≤ reg ∧ reg ≤ 0x4F ∧ reg - 0x40 < MaxTexCoord then
    write a (reg - 0x40) [(a (reg - 0x40)).decode val]
  else a

/-- Post-transform config (0x50-0x57). -/
def xfPostTransform (reg val : ℕ) (a : ℕ → PostTransform) : ℕ → PostTransform :=
  if 0x50 ≤ reg ∧ reg ≤ 0x5F ∧ reg - 0x50 < MaxTexCoord then
    write a (reg - 0x50) [⟨bpGet val 6 0 + 64, bpFlag val 8⟩]
  else a

def TexCoordGens.xf (reg val : ℕ) (t : TexCoordGens) : TexCoordGens where
  gen := xfTexGen reg val t.gen
  post := xfPostTransform reg val t.post

/-- One register that has a number `number`. -/
def xfWord (number reg val old : ℕ) : ℕ := if reg = number then val else old

/-- The switch of `handle_xf`. -/
def decodeXf (reg val : ℕ) (d : Decoded) : Decoded :=
  { d with
    xfError := xfWord 0x00 reg val d.xfError
    genMode := d.genMode.xf reg val
    colorChannels := d.colorChannels.xf reg val
    dualTex := xfWord 0x12 reg val d.dualTex
    matrixIndices := d.matrixIndices.xf reg val
    transform := d.transform.xf reg val
    texCoordGens := d.texCoordGens.xf reg val }

/-- `apply_xf_viewport`. -/
def applyXfViewport (d : Decoded) : Decoded :=
  let vp := d.transform.xfViewport
  let width := vp 0 * 2.0
  let height := -vp 1 * 2.0
  let z24Scale : Float32 := 16777216.0
  { d with
    view := d.view.setLogicalViewport
      { left := vp 3 - 340.0 - width / 2.0
        top := vp 4 - 340.0 - height / 2.0
        width := width
        height := height
        znear := (vp 5 - vp 2) / z24Scale
        zfar := vp 5 / z24Scale } }

/-- `apply_xf_projection`; `proj i j` is `m_i[j]`. -/
def applyXfProjection (d : Decoded) : Decoded :=
  let raw := d.transform.xfProjection
  let ortho := d.transform.projType = GX_ORTHOGRAPHIC
  let proj : ℕ → ℕ → Float32
    | 0, 0 => raw 0
    | 1, 1 => raw 2
    | 2, 2 => raw 4
    | 2, 3 => raw 5
    | 0, 3 => if ortho then raw 1 else 0.0
    | 1, 3 => if ortho then raw 3 else 0.0
    | 3, 3 => if ortho then 1.0 else 0.0
    | 0, 2 => if ortho then 0.0 else raw 1
    | 1, 2 => if ortho then 0.0 else raw 3
    | 3, 2 => if ortho then 0.0 else -1.0
    | _, _ => 0.0
  { d with transform := { d.transform with proj := proj } }

/-! ### The handler -/

/-- `xfRegMatches`, for the registers that are cached. -/
def GXRegisterState.xfRegMatches (reg val : ℕ) (s : GXRegisterState) : Bool :=
  reg < 0x60 && s.xfRegCacheValid reg && s.xfRegCache reg == val

/-- `storeXfReg`, for the registers that are cached. -/
def GXRegisterState.storeXfReg (reg val : ℕ) (s : GXRegisterState) : GXRegisterState :=
  if reg < 0x60 then
    { s with
      xfRegCache := Function.update s.xfRegCache reg val
      xfRegCacheValid := Function.update s.xfRegCacheValid reg true }
  else s

/-- Registers whose rewrite is skipped; viewport and projection are always applied. -/
def xfSkipped (reg : ℕ) : Bool := reg ≤ 0x19 || 0x3F ≤ reg

/-- One turn of the loop over registers. -/
def GXRegisterState.writeXfReg (skip : Bool) (s : GXRegisterState) (w : ℕ × ℕ) :
    GXRegisterState :=
  let (val, reg) := w
  let unchanged := s.xfRegMatches reg val
  let s := s.storeXfReg reg val
  if skip && unchanged && xfSkipped reg then s
  else { s with decoded := decodeXf reg val s.decoded }

/-- The registers from `xfAddr` on, then what their burst updated. -/
def GXRegisterState.writeXfRegs (skip : Bool) (xfAddr : ℕ) (words : List ℕ)
    (s : GXRegisterState) : GXRegisterState :=
  let regs := words.zipIdx xfAddr
  let s := regs.foldl (GXRegisterState.writeXfReg skip) s
  let s := if regs.any fun w => 0x1A ≤ w.2 && w.2 ≤ 0x1F then
    { s with decoded := applyXfViewport s.decoded } else s
  if regs.any fun w => 0x20 ≤ w.2 && w.2 ≤ 0x26 then
    { s with decoded := applyXfProjection s.decoded } else s

def GXRegisterState.writeXf (skip : Bool) (addr : ℕ) (words : List ℕ) (s : GXRegisterState) :
    GXRegisterState :=
  match copyXfData addr words s.decoded.matrices with
  | some matrices => { s with decoded := { s.decoded with matrices := matrices } }
  | none => if 0x1000 ≤ addr then s.writeXfRegs skip (addr - 0x1000) words else s

/-- Words for XF addresses from `addr` on; the next command is at `next`. -/
structure XfBurst where
  addr : ℕ
  words : List ℕ
  next : ℕ

/-- What `handle_xf` reads; `none` when the data end too early. -/
def readXf (data : List UInt8) (pos : ℕ) (bigEndian : Bool) : Except Fault (Option XfBurst) :=
  if pos > data.length ∨ data.length - pos < 4 then pure none
  else do
    let header ← readU32 data pos bigEndian
    let pos := pos + 4
    let count := ((header >>> 16) &&& 0xFFFF) + 1
    let dataBytes := count * 4
    if data.length - pos < dataBytes then pure none
    else do
      let words ← readWords data pos count bigEndian
      pure (some ⟨header &&& 0xFFFF, words, pos + dataBytes⟩)

/-- `handle_xf`, with the new position. -/
def handleXf (skip : Bool) (data : List UInt8) (pos : ℕ) (bigEndian : Bool)
    (s : GXRegisterState) : Except Fault (ℕ × GXRegisterState) := do
  match ← readXf data pos bigEndian with
  | none => pure (data.length, s)
  | some burst => pure (burst.next, s.writeXf skip burst.addr burst.words)

/-! ### XF registers are separate -/

theorem GenMode.xf_separate (r : ℕ) : Separate (fun _ => GenMode.xf) r := by
  apply Separate.of_pairwise [0x09, 0x3F]
  · intro r hr w g
    simp only [List.mem_cons, List.not_mem_nil, or_false, not_or] at hr
    simp only [xf, hr, if_false]
  · simp [xf]
  · simp [xf]

theorem MatrixIndices.xf_separate (r : ℕ) : Separate (fun _ => MatrixIndices.xf) r := by
  apply Separate.of_pairwise [0x18, 0x19]
  · intro r hr w m
    simp only [List.mem_cons, List.not_mem_nil, or_false, not_or] at hr
    simp only [xf, hr, if_false]
  · simp [xf, write_write]
  · simp [xf]
    intro w w' m
    apply write_comm
    rw [Interval.Meets]
    simp [texMtxIndices]

theorem xfColor_separate (base r : ℕ) : Separate (fun _ => xfColor base) r := by
  apply Separate.of_comm
  · intro w a
    funext i
    simp only [xfColor, write_singleton]
    split_ifs
    · simp only [Function.update_apply]
      split_ifs <;> rfl
    · rfl
  · intro r' w w' a hne
    funext i
    simp only [xfColor, write_singleton]
    split_ifs
    · simp only [Function.update_apply]
      split_ifs <;> first | rfl | omega
    all_goals rfl

theorem xfChannel_separate (r : ℕ) : Separate (fun _ => xfChannel) r := by
  show Separate (fun _ => block (fun r => 0x0E ≤ r ∧ r ≤ 0x11) (fun r => r - 0x0E)
    fun _ val => [decodeChannel val]) r
  apply Separate.block fun _ => 1
  · exact fun _ _ _ => rfl
  · omega

theorem xfLightMask_separate (r : ℕ) : Separate (fun _ => xfLightMask) r := by
  show Separate (fun _ => block (fun r => 0x0E ≤ r ∧ r ≤ 0x11) (fun r => r - 0x0E)
    fun _ val => [bpGet val 4 2 ||| (bpGet val 4 11 <<< 4)]) r
  apply Separate.block fun _ => 1
  · exact fun _ _ _ => rfl
  · omega

theorem ColorChannels.xf_separate (r : ℕ) : Separate (fun _ => ColorChannels.xf) r := by
  apply ((xfColor_separate 0x0A r).prod <| (xfColor_separate 0x0C r).prod <|
    (xfChannel_separate r).prod <| xfLightMask_separate r).of_injective
      fun c => (c.ambColor, c.matColor, c.config, c.lightMask)
  · rintro ⟨⟩ ⟨⟩ h
    cases h
    rfl
  · exact fun _ _ _ _ => rfl

theorem xfTexGen_separate (r : ℕ) : Separate (fun _ => xfTexGen) r := by
  apply Separate.of_update (P := fun r _ => 0x40 ≤ r ∧ r ≤ 0x4F ∧ r - 0x40 < MaxTexCoord)
    (g := fun _ => TexGen.decode)
  · intro r w a
    simp only [xfTexGen, write_singleton]
    rfl
  · intro r w g _
    simp only [TexGen.decode, TexGen.mk.injEq, and_true]
    constructor
    · split_ifs <;> rfl
    · rw [List.getD_eq_getElem?_getD, List.getD_eq_getElem?_getD]
      cases rowToSrc[bpGet w 5 7]? <;> rfl
  · omega

theorem xfPostTransform_separate (r : ℕ) : Separate (fun _ => xfPostTransform) r := by
  show Separate (fun _ => block (fun r => 0x50 ≤ r ∧ r ≤ 0x5F ∧ r - 0x50 < MaxTexCoord)
    (fun r => r - 0x50) fun _ val => [(⟨bpGet val 6 0 + 64, bpFlag val 8⟩ : PostTransform)]) r
  apply Separate.block fun _ => 1
  · exact fun _ _ _ => rfl
  · omega

theorem TexCoordGens.xf_separate (r : ℕ) : Separate (fun _ => TexCoordGens.xf) r := by
  apply ((xfTexGen_separate r).prod (xfPostTransform_separate r)).of_injective
    fun t => (t.gen, t.post)
  · rintro ⟨⟩ ⟨⟩ h
    cases h
    rfl
  · exact fun _ _ _ _ => rfl

theorem xfWord_separate (number r : ℕ) : Separate (fun _ => xfWord number) r := by
  apply Separate.of_pairwise [number]
  · intro r hr w old
    rw [xfWord, if_neg (by simpa using hr)]
  · simp [xfWord]
  · simp

/-- The parts of the state that the registers before and after viewport and projection write. -/
def Decoded.xfParts (d : Decoded) :=
  (d.genMode, d.matrixIndices, d.colorChannels, d.texCoordGens, d.xfError, d.dualTex)

def xfPartsDecoder : Decoder ℕ (GenMode × MatrixIndices × ColorChannels × TexCoordGens × ℕ × ℕ) :=
  fun _ r w p => (p.1.xf r w, p.2.1.xf r w, p.2.2.1.xf r w, p.2.2.2.1.xf r w,
    xfWord 0x00 r w p.2.2.2.2.1, xfWord 0x12 r w p.2.2.2.2.2)

theorem xfPartsDecoder_separate (r : ℕ) : Separate xfPartsDecoder r :=
  (GenMode.xf_separate r).prod <| (MatrixIndices.xf_separate r).prod <|
    (ColorChannels.xf_separate r).prod <| (TexCoordGens.xf_separate r).prod <|
    (xfWord_separate 0x00 r).prod (xfWord_separate 0x12 r)

/-- Viewport and projection have registers of their own, which are not skipped. -/
theorem Transform.xf_of_skipped {r : ℕ} (hr : xfSkipped r = true) (w : ℕ) (t : Transform) :
    t.xf r w = t := by
  simp only [xfSkipped, Bool.or_eq_true, decide_eq_true_eq] at hr
  rw [xf, xfViewportReg, if_neg (by omega), xfProjectionReg, if_neg (by omega), if_neg (by omega)]

/-- Skipped registers change these parts only. -/
theorem decodeXf_eq_self {r : ℕ} (hr : xfSkipped r = true) {words : ℕ → ℕ} {w : ℕ} {d : Decoded}
    (h : xfPartsDecoder words r w d.xfParts = d.xfParts) : decodeXf r w d = d := by
  simp only [xfPartsDecoder, Decoded.xfParts, Prod.mk.injEq] at h
  simp only [decodeXf, Transform.xf_of_skipped hr, h]

theorem holds_decodeXf_iff {r : ℕ} (hr : xfSkipped r = true) {words : ℕ → ℕ} {d : Decoded} :
    Holds (fun _ => decodeXf) words r d ↔ Holds xfPartsDecoder words r d.xfParts :=
  Holds.iff_part Decoded.xfParts rfl (decodeXf_eq_self hr)

/-- Every XF register that is skipped is separate from the other XF registers. -/
theorem decodeXf_separate {r : ℕ} (hr : xfSkipped r = true) : Separate (fun _ => decodeXf) r :=
  (xfPartsDecoder_separate r).of_part Decoded.xfParts (fun _ _ _ _ => rfl)
    fun _ _ _ => decodeXf_eq_self hr

/-- The counts are the only part of genMode that an XF register writes. -/
theorem GenMode.xf_eq (reg val : ℕ) (g : GenMode) : ∃ texGens chans,
    g.xf reg val = { g with numTexGens := texGens, numChans := chans } := by
  rw [xf]
  split_ifs <;> exact ⟨_, _, rfl⟩

theorem GXRegisterState.storeXfReg_eq (reg val : ℕ) (s : GXRegisterState) : ∃ valid cache,
    s.storeXfReg reg val = { s with xfRegCacheValid := valid, xfRegCache := cache } := by
  rw [storeXfReg]
  split <;> exact ⟨_, _, rfl⟩

/-- A register that matches is stored already. -/
theorem GXRegisterState.storeXfReg_of_matches {s : GXRegisterState} {reg val : ℕ}
    (h : s.xfRegMatches reg val = true) : s.storeXfReg reg val = s := by
  simp only [xfRegMatches, Bool.and_eq_true, decide_eq_true_eq, beq_iff_eq] at h
  obtain ⟨⟨hreg, hvalid⟩, rfl⟩ := h
  rw [storeXfReg, if_pos hreg, Function.update_eq_self, ← hvalid, Function.update_eq_self]

end Gx
