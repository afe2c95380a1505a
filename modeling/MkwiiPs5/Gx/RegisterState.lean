import Mathlib.Data.Int.Notation
import Mathlib.Data.Nat.Notation
import MkwiiPs5.Overlay

/-!
# The GX register state

`GXRegisterState`, as far as the FIFO decoder and the draws use it. Fields that one group of
registers writes are gathered in one record, an array of records is one array for each group,
and arrays are functions on indices. Enumerations are the numbers the registers hold, since
the source casts any bits to them. Dirty flags and generation counters are left out.
-/

namespace Gx

/-! ### Numbers of the GX headers -/

def GX_CULL_FRONT : ℕ := 1
def GX_CULL_BACK : ℕ := 2
def GX_CULL_ALL : ℕ := 3

def GX_VA_PNMTXIDX : ℕ := 0
def GX_VA_TEX0MTXIDX : ℕ := 1
def GX_VA_POS : ℕ := 9
def GX_VA_NRM : ℕ := 10
def GX_VA_CLR0 : ℕ := 11
def GX_VA_CLR1 : ℕ := 12
def GX_VA_TEX0 : ℕ := 13
def GX_VA_TEX7 : ℕ := 20
def GX_POS_MTX_ARRAY : ℕ := 21

def GX_NONE : ℕ := 0
def GX_DIRECT : ℕ := 1
def GX_INDEX8 : ℕ := 2
def GX_INDEX16 : ℕ := 3

def GX_U8 : ℕ := 0
def GX_S8 : ℕ := 1
def GX_U16 : ℕ := 2
def GX_S16 : ℕ := 3
def GX_F32 : ℕ := 4

def GX_NRM_XYZ : ℕ := 0
def GX_NRM_NBT : ℕ := 1
def GX_NRM_NBT3 : ℕ := 2

def GX_PF_RGB8_Z24 : ℕ := 0
def GX_PF_RGBA6_Z24 : ℕ := 1
def GX_PF_RGB565_Z16 : ℕ := 2
def GX_PF_Z24 : ℕ := 3
def GX_PF_Y8 : ℕ := 4
def GX_PF_U8 : ℕ := 5
def GX_PF_V8 : ℕ := 6
def GX_PF_YUV420 : ℕ := 7

def GX_BM_NONE : ℕ := 0
def GX_BM_BLEND : ℕ := 1
def GX_BM_LOGIC : ℕ := 2
def GX_BM_SUBTRACT : ℕ := 3

def GX_TB_ZERO : ℕ := 0
def GX_CS_SCALE_1 : ℕ := 0

def GX_COLOR0A0 : ℕ := 4
def GX_COLOR1A1 : ℕ := 5
def GX_COLOR_ZERO : ℕ := 6
def GX_ALPHA_BUMP : ℕ := 7
def GX_ALPHA_BUMPN : ℕ := 8

def GX_TEXMAP_NULL : ℕ := 0xff
def GX_COLOR_NULL : ℕ := 0xff
def GX_TG_TEX0 : ℕ := 4

def UINT32_MAX : ℕ := 0xffffffff

/-! ### Sizes of the arrays -/

def MaxTextures : ℕ := 8
def MaxTluts : ℕ := 20
def MaxTevStages : ℕ := 16
def MaxColorChannels : ℕ := 4
def MaxTevRegs : ℕ := 4
def MaxKColors : ℕ := 4
def MaxPnMtx : ℕ := 10
def MaxTexMtx : ℕ := 10
def MaxPTTexMtx : ℕ := 20
def MaxTexCoord : ℕ := 8
def MaxVtxAttr : ℕ := 26
def MaxTevSwap : ℕ := 4
def MaxIndStages : ℕ := 4
def MaxIndTexMtxs : ℕ := 3
def MaxVtxFmt : ℕ := 8
def MaxLights : ℕ := 8

/-! ### Raster and pixel state -/

structure GenMode where
  numTexGens : ℕ
  numChans : ℕ
  numTevStages : ℕ
  cullMode : ℕ
  numIndStages : ℕ
  deriving DecidableEq

/-- Sample `[i][j]` of the pattern is at `2 * i + j`. -/
structure CopyFilter where
  samplePattern : ℕ → ℕ
  vFilter : ℕ → ℕ
  aa : Bool
  vf : Bool

/-- Columns `m0`, `m1`, `m2`; the scale exponent is a signed byte. -/
structure IndTexMtxInfo where
  mtx : ℕ → Float32 × Float32
  scaleExp : ℤ
  adjScaleRaw : ℕ

/-- `IndStage`: scales and references of the stages. -/
structure IndStages where
  scale : ℕ → ℕ × ℕ
  texMapId : ℕ → ℕ
  texCoordId : ℕ → ℕ

structure TevPass where
  a : ℕ
  b : ℕ
  c : ℕ
  d : ℕ

structure TevOp where
  op : ℕ
  bias : ℕ
  scale : ℕ
  outReg : ℕ
  clamp : Bool

structure TevAlpha where
  pass : TevPass
  op : TevOp
  swapRas : ℕ
  swapTex : ℕ

structure TevIndirect where
  stage : ℕ
  format : ℕ
  biasSel : ℕ
  alphaSel : ℕ
  mtxId : ℕ
  wrapS : ℕ
  wrapT : ℕ
  useOrigLOD : Bool
  addPrev : Bool

structure TevOrder where
  texCoordId : ℕ
  texMapId : ℕ
  channelId : ℕ

/-- `TevStage`, by the registers that write its fields, and the swap table. -/
structure TevStages where
  color : ℕ → TevPass × TevOp
  alpha : ℕ → TevAlpha
  indirect : ℕ → TevIndirect
  order : ℕ → TevOrder
  kSel : ℕ → ℕ × ℕ
  swapRedGreen : ℕ → ℕ × ℕ
  swapBlueAlpha : ℕ → ℕ × ℕ

structure LinePoint where
  lineWidth : ℕ
  pointSize : ℕ
  lineTexOffset : ℕ
  pointTexOffset : ℕ
  lineHalfAspect : Bool

structure TexCoordScaleS where
  scale : ℕ
  bias : Bool
  cylWrap : Bool
  lineOffset : Bool
  pointOffset : Bool

structure TexCoordScaleT where
  scale : ℕ
  bias : Bool
  cylWrap : Bool

structure TexCoordScales where
  s : ℕ → TexCoordScaleS
  t : ℕ → TexCoordScaleT

structure ZMode where
  depthCompare : Bool
  depthFunc : ℕ
  depthUpdate : Bool

structure Blend where
  colorUpdate : Bool
  alphaUpdate : Bool
  facDst : ℕ
  facSrc : ℕ
  op : ℕ
  mode : ℕ

structure AlphaCompare where
  comp0 : ℕ
  ref0 : ℕ
  op : ℕ
  comp1 : ℕ
  ref1 : ℕ

@[ext]
structure PixelFormat where
  dstAlpha : ℕ
  pixelFmt : ℕ
  zFmt : ℕ
  zCompLocBeforeTex : Bool

structure PixelState where
  zMode : ZMode
  blend : Blend
  fieldMask : ℕ
  fieldMode : ℕ
  revBits : ℕ
  alphaCompare : AlphaCompare
  zTextureBias : ℕ
  zTextureFmt : ℕ
  zTextureOp : ℕ

structure CopyControl where
  clamp : ℕ
  texFmt : ℕ
  gamma : ℕ
  halfScale : Bool
  frame2Field : ℕ

structure CopyState where
  dispSrcXY : ℕ × ℕ
  dispSrcSize : ℕ × ℕ
  dispDstWidth : ℕ
  dispYScale : Float32
  clearRedAlpha : Float32 × Float32
  clearBlueGreen : Float32 × Float32
  clearDepth : ℕ
  control : CopyControl

structure FogState where
  type : ℕ
  a : Float32
  b : Float32
  c : Float32
  aRaw : Float32
  color : List Float32
  fog0Raw : ℕ
  fog1Raw : ℕ
  fog2Raw : ℕ
  bMagnitude : ℕ
  bShift : ℕ

/-- Colour registers, by component. -/
structure TevColors where
  colorRegs : ℕ → ℕ → Float32
  kcolors : ℕ → ℕ → Float32

/-- `GXTexObj_`. -/
structure TexObj where
  mode0 : ℕ
  mode1 : ℕ
  image0 : ℕ
  image3 : ℕ
  data : ℕ
  mWidth : ℕ
  mHeight : ℕ
  mFormat : ℕ
  tlut : ℕ
  texObjId : ℕ
  texDataVersion : ℕ
  flags : ℕ

/-- `GXTlutObj_`. -/
structure TlutObj where
  loadTlut0 : ℕ
  numEntries : ℕ
  data : ℕ
  format : ℕ
  tlutObjId : ℕ
  tlutDataVersion : ℕ
  flags : ℕ

/-! ### Viewport and scissor -/

structure Viewport where
  left : Float32
  top : Float32
  width : Float32
  height : Float32
  znear : Float32
  zfar : Float32

/-- `==` on viewports, by IEEE comparison of the fields. -/
def Viewport.same (v w : Viewport) : Bool :=
  v.left == w.left && v.top == w.top && v.width == w.width && v.height == w.height &&
    v.znear == w.znear && v.zfar == w.zfar

structure ClipRect where
  x : ℤ
  y : ℤ
  width : ℤ
  height : ℤ
  deriving DecidableEq

structure GxRenderExtent where
  logicalWidth : ℕ
  logicalHeight : ℕ
  targetWidth : ℕ
  targetHeight : ℕ

/-- With the extent of the backend, and whether the policy is `AURORA_VIEWPORT_NATIVE`. -/
structure ViewState where
  extent : GxRenderExtent
  nativePolicy : Bool
  logicalViewport : Viewport
  renderViewport : Viewport
  logicalScissor : ClipRect
  renderScissor : ClipRect
  scissorOffsetX : ℤ
  scissorOffsetY : ℤ

/-- Viewport and projection as the registers give them, and the projection matrix. -/
structure Transform where
  xfViewport : ℕ → Float32
  xfProjection : ℕ → Float32
  projType : ℕ
  proj : ℕ → ℕ → Float32

/-! ### Vertices, transforms and lights -/

structure VtxAttrFmt where
  cnt : ℕ
  type : ℕ
  frac : ℕ
  deriving DecidableEq

/-- `AttrArray`; `data` is a host address, zero for null. -/
structure AttrArray where
  data : ℕ
  size : UInt32
  stride : UInt8
  le : Bool
  deriving DecidableEq

structure VertexState where
  vtxDesc : ℕ → ℕ
  sourceVtxDesc : ℕ → ℕ
  vtxFmts : ℕ → ℕ → VtxAttrFmt
  arrays : ℕ → AttrArray

/-- The current position matrix, and `mtx` of the texture coordinate generators. -/
structure MatrixIndices where
  currentPnMtx : ℕ
  tcgMtx : ℕ → ℕ

structure TexGen where
  type : ℕ
  src : ℕ
  inputFormAB11 : Bool

structure PostTransform where
  postMtx : ℕ
  normalize : Bool

/-- `TcgConfig` without `mtx`, by the registers that write its fields. -/
structure TexCoordGens where
  gen : ℕ → TexGen
  post : ℕ → PostTransform

structure ColorChannelConfig where
  matSrc : ℕ
  ambSrc : ℕ
  diffFn : ℕ
  attnFn : ℕ
  lightingEnabled : Bool

structure ColorChannels where
  config : ℕ → ColorChannelConfig
  matColor : ℕ → List Float32
  ambColor : ℕ → List Float32
  lightMask : ℕ → ℕ

structure Light where
  pos : ℕ → Float32
  dir : ℕ → Float32
  color : List Float32
  cosAtt : ℕ → Float32
  distAtt : ℕ → Float32

/-- Matrix memory; matrices are flat, with rows of four. -/
structure MatrixMemory where
  pos : ℕ → ℕ → Float32
  nrm : ℕ → ℕ → Float32
  texMtxs : ℕ → ℕ → Float32
  ptTexMtxs : ℕ → ℕ → Float32
  lights : ℕ → Light

/-- What the registers decode to. -/
structure Decoded where
  genMode : GenMode
  copyFilter : CopyFilter
  indTexMtxs : ℕ → IndTexMtxInfo
  indTexMask : ℕ
  indStages : IndStages
  tevStages : TevStages
  view : ViewState
  transform : Transform
  linePoint : LinePoint
  texCoordScales : TexCoordScales
  pixelFormat : PixelFormat
  pixel : PixelState
  copy : CopyState
  boundingBox : ℕ → ℕ
  loadedTluts : ℕ → TlutObj
  loadedTextures : ℕ → TexObj
  tevColors : TevColors
  fog : FogState
  fogRange : ℕ → ℕ
  vertex : VertexState
  matrixIndices : MatrixIndices
  texCoordGens : TexCoordGens
  colorChannels : ColorChannels
  matrices : MatrixMemory
  xfError : ℕ
  dualTex : ℕ

/-- The registers with their caches; those of CP registers are statics of the decoder. -/
structure GXRegisterState where
  decoded : Decoded
  bpRegCache : ℕ → ℕ
  xfRegCache : ℕ → ℕ
  xfRegCacheValid : ℕ → Bool
  cpRegisterCache : ℕ → ℕ
  cpRegisterCacheValid : ℕ → Bool

/-! ### The reset state -/

def TexObj.reset : TexObj where
  mode0 := 0
  mode1 := 0
  image0 := UINT32_MAX
  image3 := 0
  data := 0
  mWidth := 0
  mHeight := 0
  mFormat := UINT32_MAX
  tlut := 0
  texObjId := 0
  texDataVersion := 0
  flags := 0

def TevStages.reset : TevStages where
  color _ := (⟨15, 15, 15, 15⟩, ⟨0, 0, 0, 0, true⟩)
  alpha _ := ⟨⟨7, 7, 7, 7⟩, ⟨0, 0, 0, 0, true⟩, 0, 0⟩
  indirect _ := ⟨0, 0, 0, 0, 0, 0, 0, false, false⟩
  order _ := ⟨0xff, GX_TEXMAP_NULL, GX_COLOR_NULL⟩
  kSel _ := (0, 0)
  swapRedGreen i := [(0, 1), (0, 0), (1, 1), (2, 2)].getD i (0, 0)
  swapBlueAlpha i := [(2, 3), (0, 3), (1, 3), (2, 3)].getD i (0, 0)

def ViewState.reset (extent : GxRenderExtent) (nativePolicy : Bool) : ViewState where
  extent := extent
  nativePolicy := nativePolicy
  logicalViewport := ⟨0, 0, 640, 480, 0, 1⟩
  renderViewport := ⟨0, 0, 640, 480, 0, 1⟩
  logicalScissor := ⟨0, 0, 640, 480⟩
  renderScissor := ⟨0, 0, 640, 480⟩
  scissorOffsetX := 0
  scissorOffsetY := 0

/-- The fields that `GXRegisterState{}` has, with the texture coordinate sources of the backend. -/
def Decoded.reset (extent : GxRenderExtent) (nativePolicy : Bool) : Decoded where
  genMode := ⟨0, 0, 0, GX_CULL_BACK, 0⟩
  copyFilter := ⟨fun _ => 0, fun _ => 0, false, false⟩
  indTexMtxs _ := ⟨fun _ => (0, 0), 0, 0⟩
  indTexMask := 0
  indStages := ⟨fun _ => (0, 0), fun _ => 0, fun _ => 0⟩
  tevStages := .reset
  view := .reset extent nativePolicy
  transform := ⟨fun i => [320.0, -240.0, 16777215.0, 660.0, 580.0, 16777215.0].getD i 0,
    fun _ => 0, 0, fun _ _ => 0⟩
  linePoint := ⟨0, 0, 0, 0, false⟩
  texCoordScales := ⟨fun _ => ⟨0, false, false, false, false⟩, fun _ => ⟨0, false, false⟩⟩
  pixelFormat := ⟨0, GX_PF_RGB8_Z24, 0, false⟩
  pixel := ⟨⟨true, 3, true⟩, ⟨true, true, 5, 4, 0, GX_BM_NONE⟩, 0, 0, 0, ⟨7, 0, 0, 7, 0⟩, 0, 0, 0⟩
  copy := ⟨(0, 0), (0, 0), 640, 1.0, (0, 1.0), (0, 0), 0xffffff, ⟨0, 0, 0, false, 0⟩⟩
  boundingBox i := [1023, 0, 1023, 0].getD i 0
  loadedTluts _ := ⟨0, 0, 0, 0, 0, 0, 0⟩
  loadedTextures _ := .reset
  tevColors := ⟨fun _ _ => 0, fun _ _ => 0⟩
  fog := ⟨0, 0, 0.5, 0, 0, [0, 0, 0, 0], 0, 0, 0, 1, 1⟩
  fogRange _ := 0
  vertex := ⟨fun _ => GX_NONE, fun _ => GX_NONE, fun _ _ => ⟨0, 0, 0⟩, fun _ => ⟨0, 0, 0, true⟩⟩
  matrixIndices := ⟨0, fun _ => 60⟩
  texCoordGens := ⟨fun i => ⟨1, GX_TG_TEX0 + i, false⟩, fun _ => ⟨125, false⟩⟩
  colorChannels := ⟨fun _ => ⟨0, 0, 0, 2, false⟩, fun _ => [0, 0, 0, 0], fun _ => [0, 0, 0, 0],
    fun _ => 0⟩
  matrices := ⟨fun _ _ => 0, fun _ _ => 0, fun _ _ => 0, fun _ _ => 0,
    fun _ => ⟨fun _ => 0, fun _ => 0, [0, 0, 0, 0], fun _ => 0, fun _ => 0⟩⟩
  xfError := 0
  dualTex := 0

/-- All caches are empty; the mask of BP writes is open. -/
def GXRegisterState.reset (extent : GxRenderExtent) (nativePolicy : Bool) : GXRegisterState where
  decoded := .reset extent nativePolicy
  bpRegCache := Function.update (fun _ => 0) 0xFE 0x00ffffff
  xfRegCache _ := 0
  xfRegCacheValid _ := false
  cpRegisterCache _ := 0
  cpRegisterCacheValid _ := false

end Gx
