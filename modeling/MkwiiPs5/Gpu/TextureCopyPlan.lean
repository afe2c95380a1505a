import MkwiiPs5.Arithmetic
import MkwiiPs5.Bytes
import MkwiiPs5.Gpu.BlitRect
import MkwiiPs5.Gx.RegisterState
import MkwiiPs5.Interval
import MkwiiPs5.Loop
import MkwiiPs5.Rounding

/-!
# Plans of texture copies

`plan_gx_texture_copy` and the meshes of its blits. Floating-point steps give exact results.
-/

namespace Gpu.TextureCopy

open Gx Interval Rounding

/-! ### Blits -/

structure BlitSampleRect where
  x : ℚ
  y : ℚ
  width : ℚ
  height : ℚ
  deriving DecidableEq

structure BlitVertex where
  position : ℚ × ℚ × ℚ
  normal : ℚ × ℚ × ℚ
  uv : ℚ × ℚ
  color : ℕ

variable (A : Arithmetic)

def validate (width height : ℕ) (r : BlitRect) : Except String Unit :=
  if width = 0 ∨ height = 0 ∨ width > 16384 ∨ height > 16384 ∨ r.width = 0 ∨ r.height = 0 ∨
      r.x ≥ width ∨ r.y ≥ height ∨ r.width > A.u32 (width - r.x) ∨
      r.height > A.u32 (height - r.y) then
    .error "Blit rectangle outside image"
  else .ok ()

def sampledBlitVertices (sw sh dw dh : ℕ) (s : BlitSampleRect) (d : BlitRect) :
    Except String (Fin 4 → BlitVertex) := do
  validate A dw dh d
  if sw = 0 ∨ sh = 0 ∨ sw > 16384 ∨ sh > 16384 ∨ s.x < 0 ∨ s.y < 0 ∨ s.width ≤ 0 ∨
      s.height ≤ 0 ∨ s.x ≥ sw ∨ s.y ≥ sh ∨ s.width > sw - s.x ∨ s.height > sh - s.y then
    .error "Sampled blit rectangle outside image"
  else
    let x (right : Bool) : ℚ :=
      if right then 2 * A.u32 (d.x + d.width) / dw - 1 else 2 * d.x / dw - 1
    let y (bottom : Bool) : ℚ :=
      if bottom then 1 - 2 * A.u32 (d.y + d.height) / dh else 1 - 2 * d.y / dh
    let u (right : Bool) : ℚ := if right then (s.x + s.width) / sw else s.x / sw
    let v (bottom : Bool) : ℚ := if bottom then (s.y + s.height) / sh else s.y / sh
    pure fun i =>
      let right := i == 1 || i == 2
      let bottom := decide (i ≥ 2)
      ⟨(x right, y bottom, 1 / 2), (u right, v bottom, 0), (0, 0), 0xffffffff⟩

/-! ### Formats -/

def GX_TF_Z8 : ℕ := 0x11
def GX_TF_Z16 : ℕ := 0x13
def GX_TF_Z24X8 : ℕ := 0x16
def GX_CTF_Z4 : ℕ := 0x30
def GX_CTF_Z8M : ℕ := 0x39
def GX_CTF_Z8L : ℕ := 0x3A
def GX_CTF_Z16L : ℕ := 0x3C
def GX_CLAMP_TOP : ℕ := 1
def GX_CLAMP_BOTTOM : ℕ := 2

def isDepthFormat (format : ℕ) : Bool :=
  [GX_TF_Z8, GX_TF_Z16, GX_TF_Z24X8, GX_CTF_Z4, GX_CTF_Z8M, GX_CTF_Z8L, GX_CTF_Z16L].contains format

/-! ### The plan -/

/-- The registers of a copy. A component of the clear color may fail to be finite. -/
structure CopyRegisters where
  nativePolicy : Bool
  texCopySrc : ClipRect
  texCopySrcRenderSpace : Bool
  texCopyFmt : ℕ
  texCopyDstWidth : ℕ
  texCopyDstHeight : ℕ
  texCopyHalfScale : Bool
  copyFilterAa : Bool
  copyFilterVf : Bool
  copyFilterVFilter : Fin 7 → ℕ
  copyClamp : ℕ
  pixelFmt : ℕ
  dstAlpha : ℕ
  clearColor : Fin 4 → Option ℚ
  clearDepth : ℕ
  depthUpdate : Bool
  colorUpdate : Bool
  alphaUpdate : Bool

structure GxCopyOptions where
  format : ℕ
  filter : ℕ × ℕ × ℕ
  rowStride : ℚ
  linear : Bool
  forceOpaqueAlpha : Bool
  clampTop : Bool
  clampBottom : Bool

structure Clear where
  rect : BlitRect
  mask : ℕ
  color : ℕ
  depth : Bool
  depthValue : ℚ

structure Plan where
  source : BlitSampleRect
  logicalWidth : ℕ
  logicalHeight : ℕ
  scaledWidth : ℕ
  scaledHeight : ℕ
  options : GxCopyOptions
  clear : Clear
  preCopyAlpha : ℕ
  depth : Bool

variable (s : CopyRegisters) (e : GxRenderExtent)

/-- `render_target_has_alpha`. -/
def CopyRegisters.hasAlpha : Bool := s.pixelFmt == GX_PF_RGBA6_Z24

/-- Source coordinates are those of the target. -/
def CopyRegisters.unscaled : Bool := s.nativePolicy || s.texCopySrcRenderSpace

def checkRegisters : Except String Unit :=
  if e.logicalWidth = 0 ∨ e.logicalHeight = 0 ∨ e.targetWidth = 0 ∨ e.targetHeight = 0 ∨
      e.logicalWidth > 16384 ∨ e.logicalHeight > 16384 ∨ e.targetWidth > 16384 ∨
      e.targetHeight > 16384 then
    .error "Invalid EFB copy extent"
  else if ¬ mkwCopyColorFormat s.texCopyFmt ∧ ¬ mkwCopyDepthFormat s.texCopyFmt then
    if isDepthFormat s.texCopyFmt then
      .error "GX copy depth format requires unimplemented RAM encoding"
    else .error "Invalid GX texture copy format"
  else if s.copyFilterAa then .error "GX multisample copy is not implemented"
  else if s.texCopySrc.x < 0 ∨ s.texCopySrc.y < 0 ∨ s.texCopySrc.width ≤ 0 ∨
      s.texCopySrc.height ≤ 0 then
    .error "Invalid GX texture copy source"
  else .ok ()

/-- `sx` and `sy`. -/
def factor (target logical : ℕ) : ℚ := if s.unscaled then 1 else (target : ℚ) / logical

/-- A part of the target, with at least one texel, from its start and size. -/
def clip (start size limit : ℚ) : ℚ × ℚ :=
  let low := clamp start 0 limit
  let high := clamp (start + size) low limit
  if high - low < 1 then
    let high := min (low + 1) limit
    let low := max (high - 1) 0
    (low, high - low)
  else (low, high - low)

def scale (size logical target : ℕ) : Except String ℕ :=
  let value := llround ((size : ℚ) * target / logical)
  if value > 16384 then .error "Scaled GX copy exceeds AGC texture dimensions"
  else .ok (A.u32 (max value 1 : ℕ))

def planScale (size logical target : ℕ) : Except String ℕ :=
  if s.nativePolicy then .ok size else scale A size logical target

/-- An edge of the rectangle that is cleared. -/
def edge (v : ℤ) (logical target : ℕ) : ℕ :=
  if s.unscaled then A.u32 v else A.u32 (A.i64 (llround ((v : ℚ) * target / logical)))

/-- The lower and the upper edge. -/
def clearEdges (start size : ℤ) (logical target : ℕ) : ℕ × ℕ :=
  let low := min (edge A s start logical target) (A.u32 (target - 1))
  let high := min (max (edge A s (A.i64 (start + size)) logical target) (A.u32 (low + 1))) target
  (low, high)

def clearRect : BlitRect :=
  let (left, right) :=
    clearEdges A s s.texCopySrc.x s.texCopySrc.width e.logicalWidth e.targetWidth
  let (top, bottom) :=
    clearEdges A s s.texCopySrc.y s.texCopySrc.height e.logicalHeight e.targetHeight
  ⟨left, top, A.u32 (right - left), A.u32 (bottom - top)⟩

/-- `byte`. -/
def clearByte (v : Option ℚ) : Except String ℕ :=
  match v with
  | none => .error "Nonfinite GX clear color"
  | some v => .ok (A.u32 (llround (clamp v 0 1 * 255)))

/-- `clearColor`, where the colors are cleared. -/
def clearColors (mask : ℕ) : Except String ℕ :=
  if mask &&& 7 ≠ 0 then do
    let r ← clearByte A (s.clearColor 0)
    let g ← clearByte A (s.clearColor 1)
    let b ← clearByte A (s.clearColor 2)
    pure (r <<< 16 ||| g <<< 8 ||| b)
  else .ok 0

/-- `clearColor` with its alpha, where that is cleared. -/
def clearAlpha (mask color : ℕ) : Except String ℕ :=
  if mask &&& 8 ≠ 0 then do
    let a ← clearByte A (s.clearColor 3)
    pure (color ||| a <<< 24)
  else .ok color

/-- With reversed depth. -/
def clearDepthValue : ℚ := 1 - min ((s.clearDepth : ℚ) / 16777216) (16777215 / 16777216)

def planClear : Except String Clear := do
  let rect := clearRect A s e
  let mask := (if s.colorUpdate then 7 else 0) ||| (if s.alphaUpdate && s.hasAlpha then 8 else 0)
  let mask := if rect.width = 0 ∨ rect.height = 0 then 0 else mask
  let depth := s.depthUpdate && rect.width != 0 && rect.height != 0
  let color ← clearColors A s mask
  let color ← clearAlpha A s mask color
  pure ⟨rect, mask, color, depth, if depth then clearDepthValue s else 0⟩

def planClearIf (clear : Bool) : Except String Clear :=
  if clear then planClear A s e else .ok ⟨⟨0, 0, 0, 0⟩, 0, 0, false, 0⟩

def planFilter : Except String (ℕ × ℕ × ℕ) :=
  let f := s.copyFilterVFilter
  if ¬ s.copyFilterVf then .ok (0, 64, 0)
  else if ∃ i, f i > 63 then .error "Invalid GX copy filter coefficient"
  else .ok (A.u32 (f 0 + f 1), A.u32 (A.u32 (f 2 + f 3) + f 4), A.u32 (f 5 + f 6))

/-- `.01f`. -/
def tolerance : ℚ := 5368709 / 2 ^ 29

def fractional (value : ℚ) : Bool := |value - llround value| > tolerance

def planOptions (source : BlitSampleRect) (scaledWidth scaledHeight : ℕ) (rowStride : ℚ)
    (filter : ℕ × ℕ × ℕ) : GxCopyOptions :=
  let filtered := filter != (0, 64, 0)
  let sampled := s.texCopyHalfScale || filtered || !s.hasAlpha || fractional source.x ||
    fractional source.y || fractional source.width || fractional source.height ||
    decide (|source.width - scaledWidth| > tolerance) ||
    decide (|source.height - scaledHeight| > tolerance)
  let depth := mkwCopyDepthFormat s.texCopyFmt
  { format := s.texCopyFmt
    filter
    rowStride
    linear := !depth && (s.texCopyHalfScale || (sampled && !filtered))
    forceOpaqueAlpha := !depth && !s.hasAlpha
    clampTop := s.copyClamp &&& GX_CLAMP_TOP != 0
    clampBottom := s.copyClamp &&& GX_CLAMP_BOTTOM != 0 }

def planSource : BlitSampleRect :=
  let r := s.texCopySrc
  let sx := factor s e.targetWidth e.logicalWidth
  let sy := factor s e.targetHeight e.logicalHeight
  let (x, width) := clip (r.x * sx) (r.width * sx) e.targetWidth
  let (y, height) := clip (r.y * sy) (r.height * sy) e.targetHeight
  ⟨x, y, width, height⟩

def planPreCopyAlpha : Except String ℕ :=
  if s.hasAlpha ∧ s.alphaUpdate ∧ s.dstAlpha ≠ 2 ^ 32 - 1 then
    if s.dstAlpha > 255 then .error "Invalid GX destination alpha" else .ok s.dstAlpha
  else .ok (2 ^ 32 - 1)

/-- `plan_gx_texture_copy`. -/
def planGxTextureCopy (clear : Bool) : Except String Plan := do
  checkRegisters s e
  let source := planSource s e
  let logicalWidth := max s.texCopyDstWidth 1
  let logicalHeight := max s.texCopyDstHeight 1
  let scaledWidth ← planScale A s logicalWidth e.logicalWidth e.targetWidth
  let scaledHeight ← planScale A s logicalHeight e.logicalHeight e.targetHeight
  let _ ← sampledBlitVertices A e.targetWidth e.targetHeight scaledWidth scaledHeight source
    ⟨0, 0, scaledWidth, scaledHeight⟩
  let preCopyAlpha ← planPreCopyAlpha s
  let cleared ← planClearIf A s e clear
  let filter ← planFilter A s
  let unclippedHeight := s.texCopySrc.height * factor s e.targetHeight e.logicalHeight
  let options := planOptions s source scaledWidth scaledHeight
    (unclippedHeight / s.texCopySrc.height) filter
  pure ⟨source, logicalWidth, logicalHeight, scaledWidth, scaledHeight, options, cleared,
    preCopyAlpha, mkwCopyDepthFormat s.texCopyFmt⟩

end Gpu.TextureCopy
