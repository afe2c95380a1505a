import Mathlib.Data.Rat.Defs
import MkwiiPs5.Gx.CommandReader
import MkwiiPs5.Gx.RegisterState

/-!
# Draw geometry

`gx_geometry.cpp`: the layout of the vertex records, snapshots of the arrays they index, and the
reference decoder of one vertex. Decoded values are exact: fractions for the integer formats,
bits for floats.
-/

namespace Gx

open Bytes (slice number)

/-- Arithmetic of `uint32_t` and of `size_t`. -/
def u32 (x : ℕ) : ℕ := x % 2 ^ 32
def u64 (x : ℕ) : ℕ := x % 2 ^ 64
def sub64 (x y : ℕ) : ℕ := (x + (2 ^ 64 - y % 2 ^ 64)) % 2 ^ 64

def require (value : Bool) (why : String) : Except Fault Unit :=
  if value then .ok () else .error (.thrown why)

theorem require_eq_ok {value : Bool} {why : String} {u : Unit} :
    require value why = .ok u ↔ value = true := by
  rw [require]
  cases value <;> simp

def GxGeometryAttributeCount : ℕ := 21

def GX_RGB565 : ℕ := 0
def GX_RGB8 : ℕ := 1
def GX_RGBX8 : ℕ := 2
def GX_RGBA4 : ℕ := 3
def GX_RGBA6 : ℕ := 4
def GX_RGBA8 : ℕ := 5

def GX_POS_XY : ℕ := 0
def GX_POS_XYZ : ℕ := 1
def GX_TEX_S : ℕ := 0
def GX_TEX_ST : ℕ := 1

/-- `color`. -/
def isColor (attr : ℕ) : Bool := attr == GX_VA_CLR0 || attr == GX_VA_CLR1

/-! ### The vertex layout -/

/-- `GxAttributeLayout`. -/
structure AttributeLayout where
  mode : ℕ
  type : ℕ
  offset : ℕ
  componentBytes : ℕ
  components : ℕ
  indexCount : ℕ
  arrayStride : ℕ
  fraction : ℕ
  arrayLittleEndian : Bool

def AttributeLayout.none : AttributeLayout where
  mode := GX_NONE
  type := GX_F32
  offset := 0
  componentBytes := 0
  components := 0
  indexCount := 1
  arrayStride := 0
  fraction := 0
  arrayLittleEndian := false

structure VertexLayout where
  attributes : ℕ → AttributeLayout
  stride : ℕ

/-- Bytes of a colour of each type. -/
def colorBytes (type : ℕ) : ℕ := [2, 3, 4, 2, 3, 4].getD type 0

/-- Bytes of a number of each type. -/
def numberBytes (type : ℕ) : ℕ := if type ≤ GX_S8 then 1 else if type ≤ GX_S16 then 2 else 4

def indexWidth (mode : ℕ) : ℕ := if mode = GX_INDEX16 then 2 else 1

def AttributeLayout.indexed (d : AttributeLayout) : Bool :=
  d.mode == GX_INDEX8 || d.mode == GX_INDEX16

/-- Type, component size and counts of an attribute, from its format. -/
def attributeFormat (attr : ℕ) (f : VtxAttrFmt) (dst : AttributeLayout) :
    Except Fault AttributeLayout :=
  if attr < GX_VA_POS then do
    require (dst.mode == GX_DIRECT) "GX matrix index must be direct"
    pure { dst with type := GX_U8, fraction := 0, components := 1, componentBytes := 1 }
  else if isColor attr then do
    require (f.type ≤ GX_RGBA8) "Invalid GX color format"
    pure { dst with components := 1, componentBytes := colorBytes f.type, fraction := 0 }
  else do
    require (f.type ≤ GX_F32 && f.frac ≤ 31) "Invalid GX numeric format"
    let dst := { dst with componentBytes := numberBytes f.type }
    if attr = GX_VA_POS then do
      require (f.cnt ≤ GX_POS_XYZ) "Invalid GX position count"
      pure { dst with components := if f.cnt = GX_POS_XY then 2 else 3 }
    else if attr = GX_VA_NRM then do
      require (f.cnt ≤ GX_NRM_NBT3) "Invalid GX normal count"
      pure { dst with
        components := if f.cnt = GX_NRM_XYZ then 3 else 9
        indexCount := if f.cnt = GX_NRM_NBT3 then 3 else 1 }
    else do
      require (f.cnt ≤ GX_TEX_ST) "Invalid GX texture coordinate count"
      pure { dst with components := if f.cnt = GX_TEX_S then 1 else 2 }

/-- One turn of the loop of `GxVertexLayout::build`, at `offset` of the record. -/
def attributeLayout (v : VertexState) (format attr offset : ℕ) : Except Fault AttributeLayout :=
  let mode := v.vtxDesc attr
  if mode = GX_NONE then pure .none
  else do
    require (mode == GX_DIRECT || mode == GX_INDEX8 || mode == GX_INDEX16)
      "Invalid GX attribute mode"
    let f := v.vtxFmts format attr
    let dst ← attributeFormat attr f
      { AttributeLayout.none with
        mode := mode
        offset := offset
        type := f.type
        fraction := f.frac }
    if mode = GX_DIRECT then pure dst
    else
      let a := v.arrays attr
      pure { dst with arrayStride := a.stride.toNat, arrayLittleEndian := a.le }

/-- Bytes of an attribute in the record. -/
def AttributeLayout.recordBytes (d : AttributeLayout) : ℕ :=
  if d.mode = GX_NONE then 0
  else if d.mode = GX_DIRECT then d.componentBytes * d.components
  else indexWidth d.mode * d.indexCount

/-- `GxVertexLayout::build`. -/
def VertexLayout.build (v : VertexState) (format : ℕ) : Except Fault VertexLayout := do
  require (format < MaxVtxFmt) "GX VAT index out of range"
  (List.range GxGeometryAttributeCount).foldlM (fun out attr => do
    let dst ← attributeLayout v format attr out.stride
    pure ⟨Function.update out.attributes attr dst, u32 (out.stride + dst.recordBytes)⟩)
    ⟨fun _ => .none, 0⟩

/-! ### Indices -/

inductive Primitive
  | quads | triangles | triangleStrip | triangleFan | lines | lineStrip | points
  deriving DecidableEq

/-- `gx_primitive_from_command`. -/
def primitiveFromCommand (command : ℕ) : Except Fault Primitive :=
  match command &&& 0xf8 with
  | 0x80 => pure .quads
  | 0x88 => pure .quads
  | 0x90 => pure .triangles
  | 0x98 => pure .triangleStrip
  | 0xa0 => pure .triangleFan
  | 0xa8 => pure .lines
  | 0xb0 => pure .lineStrip
  | 0xb8 => pure .points
  | _ => .error (.thrown "Invalid GX primitive opcode")

/-- `triangle_class`. -/
def Primitive.triangleClass : Primitive → Bool
  | .quads | .triangles | .triangleStrip | .triangleFan => true
  | .lines | .lineStrip | .points => false

/-- The corners of the triangles that a primitive draws, in order. -/
def Primitive.corners (count : ℕ) : Primitive → List ℕ
  | .quads => (List.range (count / 4)).flatMap fun i =>
      [4 * i, 4 * i + 1, 4 * i + 2, 4 * i + 2, 4 * i + 3, 4 * i]
  | .triangles => (List.range (count / 3)).flatMap fun i => [3 * i, 3 * i + 1, 3 * i + 2]
  | .triangleStrip => (List.range' 2 (count - 2)).flatMap fun v =>
      if v % 2 = 1 then [v - 1, v - 2, v] else [v - 2, v - 1, v]
  | .triangleFan => (List.range' 2 (count - 2)).flatMap fun v => [0, v - 1, v]
  | .lines | .lineStrip | .points => []

/-- `write_triangle_indices`. -/
def writeTriangleIndices (primitive : Primitive) (count base : ℕ) : Except Fault (List ℕ) :=
  if primitive.triangleClass then pure ((primitive.corners count).map fun v => u32 (base + v))
  else .error (.thrown "Only triangle GX primitives can share a draw")

/-- `build_indices`. -/
def buildIndices (primitive : Primitive) (count : ℕ) : List ℕ :=
  match primitive with
  | .lines => (List.range (count / 2)).flatMap fun i => [2 * i, 2 * i + 1]
  | .lineStrip => (List.range' 1 (count - 1)).flatMap fun v => [v - 1, v]
  | .points => List.range count
  | primitive => primitive.corners count

/-! ### Snapshots -/

/-- `GxArraySnapshot`. -/
structure ArraySnapshot where
  sourceOffset : ℕ
  bytes : List UInt8

/-- `GxGeometry`. -/
structure Geometry where
  layout : VertexLayout
  records : List UInt8
  arrays : ℕ → ArraySnapshot
  indices : List ℕ
  primitive : Primitive
  count : ℕ
  currentPnMtx : ℕ

/-- `GxArrayResolver`: the bytes of an array from an offset on. -/
abbrev Resolver := ℕ → AttrArray → ℕ → ℕ → Except Fault (List UInt8)

/-- The smallest and the largest index, with one more that is read from a record. -/
def scanIndex (records : List UInt8) (width : ℕ) (range : ℕ × ℕ) (position : ℕ) :
    Except Fault (ℕ × ℕ) := do
  let index ← readUint records position width true
  pure (min range.1 index, max range.2 index)

/-- The loop over records with one index of 16 bits. -/
def scan16 (records : List UInt8) (count stride offset : ℕ) : Except Fault (ℕ × ℕ) :=
  (List.range count).foldlM (fun range v => scanIndex records 2 range (v * stride + offset))
    (UINT32_MAX, 0)

/-- The loop over records with one index of 8 bits. -/
def scan8 (records : List UInt8) (count stride offset : ℕ) : Except Fault (ℕ × ℕ) :=
  (List.range count).foldlM (fun range v => scanIndex records 1 range (v * stride + offset))
    (UINT32_MAX, 0)

/-- The loop over records and the groups of each. -/
def scanGroups (records : List UInt8) (count stride offset width groups : ℕ) :
    Except Fault (ℕ × ℕ) :=
  (List.range count).foldlM (fun range v =>
    (List.range groups).foldlM (fun range group =>
      scanIndex records width range (v * stride + offset + group * width)) range)
    (UINT32_MAX, 0)

def scanIndices (records : List UInt8) (count stride : ℕ) (d : AttributeLayout) :
    Except Fault (ℕ × ℕ) :=
  let width := indexWidth d.mode
  if width = 2 ∧ d.indexCount = 1 then scan16 records count stride d.offset
  else if width = 1 ∧ d.indexCount = 1 then scan8 records count stride d.offset
  else scanGroups records count stride d.offset width d.indexCount

/-- Bytes of an array element that a vertex uses. -/
def AttributeLayout.elementBytes (d : AttributeLayout) : ℕ :=
  u32 (d.componentBytes * if d.indexCount = 3 then 3 else d.components)

/-- The part of an indexed array that the records refer to. -/
def snapshotArray (layout : VertexLayout) (v : VertexState) (count : ℕ) (records : List UInt8)
    (resolve : Resolver) (attr : ℕ) : Except Fault ArraySnapshot := do
  let d := layout.attributes attr
  let array := v.arrays attr
  require (array.data != 0) "Missing GX vertex array source"
  require (d.offset + d.indexCount * indexWidth d.mode ≤ layout.stride)
    "GX index outside vertex record"
  let (lo, hi) ← scanIndices records count layout.stride d
  let first := u64 (lo * d.arrayStride)
  let last := u64 (hi * d.arrayStride + d.elementBytes)
  require (last ≤ array.size.toNat) "GX index addresses bytes outside declared array"
  let bytes ← resolve attr array (u32 first) (u32 (sub64 last first))
  require (sub64 last first ≤ bytes.length) "Truncated resolved GX array"
  pure ⟨u32 first, bytes.take (sub64 last first)⟩

/-- `snapshot_records`. -/
def snapshotRecords (layout : VertexLayout) (d : Decoded) (count : ℕ) (records : List UInt8)
    (resolve : Resolver) : Except Fault Geometry := do
  require (records.length == u64 (count * layout.stride)) "GX vertex stream size mismatch"
  require (count == 0 || d.vertex.vtxDesc GX_VA_POS != GX_NONE) "GX draw has no position attribute"
  let attrs := if count = 0 then [] else
    List.range' GX_VA_POS (GxGeometryAttributeCount - GX_VA_POS)
  let arrays ← attrs.foldlM (fun arrays attr =>
    if (layout.attributes attr).indexed then do
      let snapshot ← snapshotArray layout d.vertex count records resolve attr
      pure (Function.update arrays attr snapshot)
    else pure arrays) fun _ => ⟨0, []⟩
  pure
    { layout := layout
      records := records
      arrays := arrays
      indices := []
      primitive := .triangles
      count := count
      currentPnMtx := d.matrixIndices.currentPnMtx }

/-- `GxGeometry::snapshot`, with a layout that is built already. -/
def snapshot (layout : VertexLayout) (d : Decoded) (primitive : Primitive) (count : ℕ)
    (records : List UInt8) (resolve : Resolver) : Except Fault Geometry := do
  let out ← snapshotRecords layout d count records resolve
  pure { out with primitive := primitive, indices := buildIndices primitive count }

/-- `GxDrawSegment`. -/
structure DrawSegment where
  primitive : Primitive
  count : ℕ

/-- The indices of the segments, each from the vertices before it on. -/
def segmentIndices (base : ℕ) : List DrawSegment → Except Fault (List ℕ)
  | [] => pure []
  | segment :: segments => do
    let indices ← writeTriangleIndices segment.primitive segment.count base
    let rest ← segmentIndices (u32 (base + segment.count)) segments
    pure (indices ++ rest)

/-- `GxGeometry::snapshot_segments`. -/
def snapshotSegments (layout : VertexLayout) (d : Decoded) (segments : List DrawSegment)
    (records : List UInt8) (resolve : Resolver) : Except Fault Geometry := do
  require (segments.all fun segment => segment.primitive.triangleClass)
    "Only triangle GX primitives can share a draw"
  let total := (segments.map DrawSegment.count).sum
  require (total ≤ UINT32_MAX) "Merged GX draw exceeds 32-bit vertex indices"
  let out ← snapshotRecords layout d (u32 total) records resolve
  let indices ← segmentIndices 0 segments
  pure { out with indices := indices }

end Gx
