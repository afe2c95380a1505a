import MkwiiPs5.Attempt
import MkwiiPs5.Gx.AuroraCommands

/-!
# Draws

`gx_draw.cpp`, which gathers consecutive draws of triangles into one, and `gx_draw_dispatch.cpp`, which
forwards what it makes to the receiver that is installed.
-/

namespace Gx

open Bytes (slice)

/-! ### The receiver -/

/-- What a receiver is given: a geometry, and the registers that are in force. -/
structure Submission where
  geometry : Geometry
  registers : Decoded

/-- `GxDrawSink`. A submission may be refused, on account of those before it. -/
structure DrawSink where
  resolve : ℕ → AttrArray → ℕ → ℕ → Except String (List UInt8)
  submit : List Submission → Submission → Except String Unit

/-- `resolve_gx_array`. -/
def resolveGxArray (active : Option DrawSink) : Resolver := fun attr array offset bytes =>
  match active with
  | none => .error (.thrown "GX arrays require the active renderer")
  | some active => do
    require (array.data != 0 && offset ≤ array.size.toNat && bytes ≤ array.size.toNat - offset)
      "GX array exceeds declared interval"
    let range ← (active.resolve attr array offset bytes).mapError .thrown
    require (bytes ≤ range.length) "GX array resolver returned truncated storage"
    pure (range.take bytes)

/-! ### The state of the processor -/

/-- `PendingDraws`. -/
structure PendingDraws where
  records : List UInt8
  segments : List DrawSegment
  layout : VertexLayout
  format : ℕ
  vertices : ℕ

/-- The registers, the draws that are pending, the calls of the backend, and what the receiver was
given. -/
structure FifoState where
  registers : GXRegisterState
  pending : PendingDraws
  calls : List BackendCall
  submitted : List Submission

/-- The draws go, layout and format stay. -/
def PendingDraws.clear (p : PendingDraws) : PendingDraws :=
  { p with records := [], segments := [], vertices := 0 }

def FifoState.clearPending (s : FifoState) : FifoState := { s with pending := s.pending.clear }

/-- `submit_gx_geometry`. -/
def submitGxGeometry (active : Option DrawSink) (packet : Geometry) (s : FifoState) :
    Attempt Fault FifoState Unit :=
  match active with
  | none => (.error (.thrown "GX draws require the active renderer"), s)
  | some active =>
    let submission : Submission := ⟨packet, s.registers.decoded⟩
    ((active.submit s.submitted submission).mapError .thrown,
      { s with submitted := s.submitted ++ [submission] })

/-- Geometry that is made, or not, goes to the receiver unless nothing of it is drawn. -/
def submitPacket (active : Option DrawSink) (packet : Except Fault Geometry) (s : FifoState) :
    Attempt Fault FifoState Unit :=
  match packet with
  | .error e => (.error e, s)
  | .ok packet => if packet.indices.isEmpty then (.ok (), s) else submitGxGeometry active packet s

/-- `submit`. -/
def submitDraw (active : Option DrawSink) (layout : VertexLayout) (primitive : Primitive)
    (count : ℕ) (records : List UInt8) (s : FifoState) : Attempt Fault FifoState Unit :=
  let d := s.registers.decoded
  if count = 0 then (.ok (), s)
  else if d.genMode.cullMode = GX_CULL_ALL ∧ primitive ≠ .lines ∧ primitive ≠ .lineStrip ∧
      primitive ≠ .points then (.ok (), s)
  else submitPacket active (snapshot layout d primitive count records (resolveGxArray active)) s

/-- `kMergedRecordBytes`. -/
def mergedRecordBytes : ℕ := 2 ^ 18

/-- What `submit_pending` does before the draws are cleared. -/
def submitGroup (active : Option DrawSink) (pending : PendingDraws) (s : FifoState) :
    Attempt Fault FifoState Unit :=
  let d := s.registers.decoded
  match pending.segments with
  | [] => (.ok (), s)
  | [segment] => submitDraw active pending.layout segment.primitive segment.count pending.records s
  | segments =>
    if d.genMode.cullMode = GX_CULL_ALL then (.ok (), s)
    else submitPacket active
      (snapshotSegments pending.layout d segments pending.records (resolveGxArray active)) s

/-- `submit_pending`; the draws are cleared also when there is an exception. -/
def submitPending (active : Option DrawSink) (s : FifoState) : Attempt Fault FifoState Unit :=
  let r := submitGroup active s.pending s
  (r.1, r.2.clearPending)

/-! ### Joining draws -/

/-- The position after the bytes that are zero. -/
def skipPadding (data : List UInt8) (pos : ℕ) : ℕ :=
  pos + ((data.drop pos).takeWhile (· == 0)).length

/-- `next_draw_joins`. -/
def nextDrawJoins (data : List UInt8) (pos : ℕ) (bigEndian : Bool) (format stride : ℕ) :
    Except Fault Bool :=
  let pos := skipPadding data pos
  if pos ≥ data.length ∨ data.length - pos < 3 then pure false
  else do
    let command ← readU8 data pos
    let opcode := command &&& 0xf8
    if opcode < 0x80 ∨ opcode > 0xa0 ∨ command &&& 7 ≠ format then pure false
    else do
      let count ← readU16 data (pos + 1) bigEndian
      pure (decide (count * stride ≤ data.length - pos - 3))

/-! ### A draw -/

/-- What `handle_draw` knows of a draw before its records. -/
structure DrawHeader where
  primitive : Primitive
  format : ℕ
  count : ℕ
  layout : VertexLayout

/-- Whether a draw continues the group that is pending. -/
def PendingDraws.joined (p : PendingDraws) (primitive : Primitive) (format : ℕ) : Bool :=
  !p.segments.isEmpty && primitive.triangleClass && p.format == format

def readDrawHeader (command : ℕ) (data : List UInt8) (pos : ℕ) (bigEndian : Bool)
    (s : FifoState) : Except Fault DrawHeader := do
  let primitive ← primitiveFromCommand command
  let format := command &&& 7
  let count ← readU16 data pos bigEndian
  if s.pending.joined primitive format then pure ⟨primitive, format, count, s.pending.layout⟩
  else do
    let layout ← VertexLayout.build s.registers.decoded.vertex format
    pure ⟨primitive, format, count, layout⟩

/-- The group with one more draw. -/
def PendingDraws.push (p : PendingDraws) (draw : DrawHeader) (records : List UInt8) :
    PendingDraws where
  layout := if p.segments.isEmpty then draw.layout else p.layout
  format := if p.segments.isEmpty then draw.format else p.format
  records := p.records ++ records
  segments := p.segments ++ [⟨draw.primitive, draw.count⟩]
  vertices := u32 (p.vertices + draw.count)

/-- Whether the group waits for the draw at `pos`. -/
def waits (data : List UInt8) (pos : ℕ) (bigEndian : Bool) (draw : DrawHeader)
    (p : PendingDraws) : Except Fault Bool :=
  if p.records.length < mergedRecordBytes ∧ p.vertices ≤ 0xffff * 64 then
    nextDrawJoins data pos bigEndian draw.format draw.layout.stride
  else pure false

/-- A draw of triangles joins the group, which is submitted unless the next draw continues it. -/
def gatherDraw (active : Option DrawSink) (data : List UInt8) (next : ℕ) (bigEndian : Bool)
    (draw : DrawHeader) (records : List UInt8) (s : FifoState) :
    Attempt Fault FifoState (Option ℕ) :=
  let s := { s with pending := s.pending.push draw records }
  match waits data next bigEndian draw s.pending with
  | .error e => (.error e, s.clearPending)
  | .ok true => (.ok (some next), s)
  | .ok false => (submitPending active s).andThen fun _ s => (.ok (some next), s)

/-- A draw that is complete, by itself. -/
def singleDraw (active : Option DrawSink) (next : ℕ) (draw : DrawHeader) (records : List UInt8)
    (s : FifoState) : Attempt Fault FifoState (Option ℕ) :=
  (submitDraw active draw.layout draw.primitive draw.count records s).andThen fun _ s =>
    (.ok (some next), s)

/-- What becomes of a draw that is complete, at the position after it. -/
abbrev DrawHandler := ℕ → DrawHeader → List UInt8 → FifoState → Attempt Fault FifoState (Option ℕ)

/-- `handle_draw` up to its records; `none` is for `false`. -/
def readDraw (handler : DrawHandler) (command : ℕ) (data : List UInt8) (pos : ℕ)
    (bigEndian : Bool) (s : FifoState) : Attempt Fault FifoState (Option ℕ) :=
  if pos > data.length ∨ data.length - pos < 2 then (.ok none, s)
  else
    match readDrawHeader command data pos bigEndian s with
    | .error e => (.error e, s)
    | .ok draw =>
      let total := draw.count * draw.layout.stride
      if total > data.length - pos - 2 then (.ok none, s)
      else
        match readBytes data (pos + 2) total with
        | .error e => (.error e, s)
        | .ok records => handler (pos + 2 + total) draw records s

/-- `handle_draw`. -/
def handleDraw (active : Option DrawSink) (data : List UInt8) (bigEndian : Bool) : DrawHandler :=
  fun next draw records s =>
    if draw.primitive.triangleClass then gatherDraw active data next bigEndian draw records s
    else singleDraw active next draw records s

end Gx
