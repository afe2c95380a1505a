import MkwiiPs5.Gx.Geometry

/-!
# The reference decoder of vertices

`decode_gx_vertex` reads one vertex of a snapshot, attribute by attribute.
-/

namespace Gx

open Bytes (slice number)

/-- A number of a vertex: the exact result of the operation that rounds to it, for the integer
formats, or the bits of a float. -/
inductive Scalar
  | exact (q : ℚ)
  | bits (word : ℕ)
  deriving DecidableEq

/-- `load`. -/
def load (bytes : List UInt8) (pos width : ℕ) (little : Bool) : Except Fault ℕ := do
  require (pos ≤ bytes.length && width ≤ bytes.length - pos) "GX attribute read outside snapshot"
  readUint bytes pos width (!little)

/-- `int32_t` of a word. -/
def s32 (x : ℕ) : ℤ := if u32 x < 2 ^ 31 then u32 x else (u32 x : ℤ) - 2 ^ 32

/-- The number of a word, before the fraction. -/
def signedNumber (type v : ℕ) : ℤ :=
  if type = GX_S8 then s32 (v ^^^ 128) - 128
  else if type = GX_S16 then s32 (v ^^^ 32768) - 32768
  else s32 v

/-- `component`. -/
def component (bytes : List UInt8) (pos : ℕ) (d : AttributeLayout) (little : Bool) :
    Except Fault Scalar := do
  let v ← load bytes pos d.componentBytes little
  if d.type = GX_F32 then pure (.bits v)
  else pure (.exact (signedNumber d.type v / (2 ^ d.fraction : ℕ)))

/-- The `bits` bits of a colour from `shift` on, as a fraction of their maximum. -/
def colorField (v shift bits : ℕ) : Scalar :=
  .exact (((v >>> shift) &&& (2 ^ bits - 1) : ℕ) / (2 ^ bits - 1 : ℕ))

/-- `color_value`. -/
def colorValue (bytes : List UInt8) (pos : ℕ) (d : AttributeLayout) (little : Bool) :
    Except Fault (List Scalar) :=
  if d.type = GX_RGB8 ∨ d.type = GX_RGBX8 ∨ d.type = GX_RGBA8 then do
    let r ← load bytes pos 1 true
    let g ← load bytes (pos + 1) 1 true
    let b ← load bytes (pos + 2) 1 true
    if d.type = GX_RGBA8 then do
      let a ← load bytes (pos + 3) 1 true
      pure [colorField r 0 8, colorField g 0 8, colorField b 0 8, colorField a 0 8]
    else pure [colorField r 0 8, colorField g 0 8, colorField b 0 8, .exact 1]
  else do
    let v ← load bytes pos d.componentBytes little
    if d.type = GX_RGB565 then
      pure [colorField v 11 5, colorField v 5 6, colorField v 0 5, .exact 1]
    else if d.type = GX_RGBA4 then
      pure [colorField v 12 4, colorField v 8 4, colorField v 4 4, colorField v 0 4]
    else pure [colorField v 18 6, colorField v 12 6, colorField v 6 6, colorField v 0 6]

/-- `GxDecodedVertex`. -/
structure DecodedVertex where
  position : ℕ → Scalar
  normal : ℕ → Scalar
  binormal : ℕ → Scalar
  tangent : ℕ → Scalar
  colors : ℕ → List Scalar
  uv : ℕ → ℕ → Scalar
  positionMatrix : ℕ
  textureMatrices : ℕ → ℕ

/-- The bytes of a group, where it starts in them, and their order. -/
def groupSource (g : Geometry) (attr : ℕ) (d : AttributeLayout) (pos group : ℕ) :
    Except Fault (List UInt8 × ℕ × Bool) :=
  if d.indexed then do
    let width := indexWidth d.mode
    let index ← load g.records (pos + if d.indexCount = 3 then group * width else 0) width false
    let array := g.arrays attr
    let address := u64 (sub64 (u64 (index * d.arrayStride)) array.sourceOffset +
      if d.indexCount = 3 then 0 else group * 3 * d.componentBytes)
    pure (array.bytes, address, d.arrayLittleEndian)
  else pure (g.records, u64 (pos + group * 3 * d.componentBytes), false)

def DecodedVertex.setComponent (attr group c : ℕ) (value : Scalar) (out : DecodedVertex) :
    DecodedVertex :=
  if attr = GX_VA_POS then { out with position := Function.update out.position c value }
  else if attr = GX_VA_NRM then
    if group = 0 then { out with normal := Function.update out.normal c value }
    else if group = 1 then { out with binormal := Function.update out.binormal c value }
    else { out with tangent := Function.update out.tangent c value }
  else
    let coord := attr - GX_VA_TEX0
    { out with uv := Function.update out.uv coord (Function.update (out.uv coord) c value) }

/-- Components of one group. -/
def groupComponents (attr : ℕ) (d : AttributeLayout) : ℕ :=
  if attr = GX_VA_NRM then 3 else d.components

/-- One turn of the loop over groups. -/
def decodeGroup (g : Geometry) (attr : ℕ) (d : AttributeLayout) (pos : ℕ) (out : DecodedVertex)
    (group : ℕ) : Except Fault DecodedVertex := do
  let (bytes, address, little) ← groupSource g attr d pos group
  if isColor attr then do
    let color ← colorValue bytes address d little
    pure { out with colors := Function.update out.colors (attr - GX_VA_CLR0) color }
  else
    (List.range (groupComponents attr d)).foldlM (fun out c => do
      let value ← component bytes (u64 (address + c * d.componentBytes)) d little
      pure (out.setComponent attr group c value)) out

/-- Groups of one attribute: normal, binormal and tangent, or one. -/
def groupCount (attr : ℕ) (d : AttributeLayout) : ℕ :=
  if attr = GX_VA_NRM ∧ d.components = 9 then 3 else 1

/-- One turn of the loop over attributes. -/
def decodeAttribute (g : Geometry) (vertex : ℕ) (out : DecodedVertex) (attr : ℕ) :
    Except Fault DecodedVertex :=
  let d := g.layout.attributes attr
  if d.mode = GX_NONE then pure out
  else
    let pos := u64 (vertex * g.layout.stride + d.offset)
    if attr < GX_VA_POS then do
      let value ← load g.records pos 1 false
      if attr = GX_VA_PNMTXIDX then pure { out with positionMatrix := value / 3 }
      else pure { out with
        textureMatrices := Function.update out.textureMatrices (attr - GX_VA_TEX0MTXIDX) value }
    else do
      let out ← (List.range (groupCount attr d)).foldlM (decodeGroup g attr d pos) out
      if attr = GX_VA_NRM ∧ groupCount attr d = 1 then
        pure { out with binormal := out.normal, tangent := out.normal }
      else pure out

/-- What a vertex has without attributes. -/
def DecodedVertex.initial (currentPnMtx : ℕ) : DecodedVertex where
  position _ := .exact 0
  normal c := .exact (if c = 0 then 1 else 0)
  binormal c := .exact (if c = 0 then 1 else 0)
  tangent c := .exact (if c = 0 then 1 else 0)
  colors _ := [.exact 1, .exact 1, .exact 1, .exact 1]
  uv _ _ := .exact 0
  positionMatrix := currentPnMtx
  textureMatrices _ := UINT32_MAX

/-- `decode_gx_vertex`. -/
def decodeGxVertex (g : Geometry) (vertex : ℕ) : Except Fault DecodedVertex := do
  require (vertex < g.count) "GX vertex index outside packet"
  (List.range GxGeometryAttributeCount).foldlM (decodeAttribute g vertex)
    (.initial g.currentPnMtx)

end Gx
