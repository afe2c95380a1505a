import Mathlib.Data.Vector.Basic
import MkwiiPs5.Attempt
import MkwiiPs5.Gpu.AgcBlit
import MkwiiPs5.Gx.Viewport
import MkwiiPs5.Overlay

/-!
# Batched draws

`agc_gx_draw.cpp`: draws are recorded into a batch, and a batch is submitted as one command buffer.
Four batches take turns; the storage of each is written again only when the completion label has
reached its serial. The label grows when it likes; the log keeps what is written, submitted and
released.
-/

namespace Gpu.AgcGxDraw

open AgcBlit (Target)

def InFlightSlots : ℕ := 4
def BatchDraws : ℕ := 256
def CommandBytes : ℕ := 2 ^ 20
def WordBytes : ℕ := 2 ^ 18
def RegisterBase : ℕ := WordBytes
def MaxRegistersPerDraw : ℕ := 1024
def MaxShaderRegisters : ℕ := 512
def WordsPerDrawMargin : ℕ := 256

/-- The words and the registers that the command storage of a batch has room for. -/
def WordCapacity : ℕ := WordBytes / 4
def RegisterCapacity : ℕ := (CommandBytes - RegisterBase) / 8

def TransformBytes : ℕ := 2480
def LightingBytes : ℕ := 896
def TexgenBytes : ℕ := 272
def TexgenOffset : ℕ := TransformBytes + LightingBytes
def VertexBytes : ℕ := TexgenOffset + TexgenBytes
def UniformBytes : ℕ := 2288

@[irreducible]
def uint32Max : ℕ := 2 ^ 32 - 1

/-- `aligned`; no size that it is called with is near the end of `size_t`. -/
def aligned (value : ℕ) : ℕ := (value + 255) / 256 * 256

inductive Failure
  | logicError (what : String)
  | invalidArgument (what : String)
  | overflowError (what : String)
  | lengthError (what : String)
  | runtimeError (what : String)
  /-- "GX draw completion timeout; resources retained" -/
  | timeout
  /-- "GX submit failed; resources retained" -/
  | submission
  /-- An exception of `gpu_wait_slice`. -/
  | waitSlice
deriving DecidableEq

def refuseIf (p : Prop) [Decidable p] (failure : Failure) : Except Failure Unit :=
  if p then .error failure else .ok ()

/-! ### Registers -/

structure Register where
  offset : ℕ
  value : UInt32

def ColorTargetOffsets : List.Vector ℕ 16 :=
  ⟨[0x318, 0x31b, 0x31c, 0x31d, 0x31e, 0x31f, 0x321, 0x323, 0x324, 0x325, 0x390, 0x398, 0x3a0, 0x3a8,
    0x3b0, 0x3b8], rfl⟩

def DepthTargetOffsets : List.Vector ℕ 16 :=
  ⟨[0x10, 0x11, 0x12, 0x13, 0x14, 0x15, 0x1a, 0x1b, 0x1c, 0x1d, 0x1e, 0x2, 0x5, 0x7, 0xb, 0xa], rfl⟩

/-- Sets the bits of a mask in one of the registers of a target. -/
def setBits (r : List.Vector UInt32 16) (i : Fin 16) (mask value : UInt32) : List.Vector UInt32 16 :=
  r.set i ((r.get i &&& ~~~mask) ||| value)

/-- The bits that `encode_color_target` and `encode_depth_target` set, in their order. -/
def setAll (r : List.Vector UInt32 16) (bits : List (Fin 16 × UInt32 × UInt32)) :
    List.Vector UInt32 16 :=
  bits.foldl (fun r (i, mask, value) => setBits r i mask value) r

def whole : UInt32 := 0xffffffff

/-- `encode_color_target`. -/
def encodeColorTarget (defaults : List.Vector UInt32 16) (width height address : ℕ) :
    Except Failure (List.Vector UInt32 16) :=
  if width = 0 ∨ height = 0 ∨ width > 16384 ∨ height > 16384 ∨ address % 65536 ≠ 0 ∨
      address ≥ 2 ^ 48 then
    .error (.invalidArgument "Invalid AGC color target extent/address")
  else .ok (setAll (setAll defaults
    [(1, 0x03ffe000, 0),
      (2, 0x0000007c, 0x28), (2, 0x700, 0), (2, 0x1800, 0x800), (2, 0x10000, 0),
      (2, 0x8000, 0x8000), (2, 0x40000, 0), (2, 0x10000000, 0), (2, 0x4000, 0), (2, 0x04000000, 0),
      (3, 0x7000, 0), (3, 0x18000, 0),
      (4, 0xc, 8), (4, 0x60, 0x40), (4, 0x00100200, 0), (4, 0x80000, 0)])
    [(14, 0x3fff, UInt32.ofNat (height - 1)), (14, 0x0fffc000, UInt32.ofNat (width - 1) <<< 14),
      (14, 0xf0000000, 0),
      (15, 0x1fff, 0), (15, 0x7c000, 0x6c000), (15, 0x03000000, 0x01000000),
      (15, 0x44000000, 0x44000000),
      (0, whole, UInt32.ofNat (address >>> 8)), (10, 0xff, UInt32.ofNat (address >>> 40)),
      (5, whole, 0), (6, whole, 0), (9, whole, 0), (11, 0xff, 0), (12, 0xff, 0), (13, 0xff, 0)])

/-- `encode_depth_target`. -/
def encodeDepthTarget (defaults : List.Vector UInt32 16) (width height address : ℕ) :
    Except Failure (List.Vector UInt32 16) :=
  if width = 0 ∨ height = 0 ∨ width > 16384 ∨ height > 16384 ∨ address % 65536 ≠ 0 ∨
      address ≥ 2 ^ 48 then
    .error (.invalidArgument "Invalid AGC depth extent/address")
  else .ok (setAll (setAll defaults
    [(0, 0x000f0000, 0), (0, 3, 3), (0, 0xc, 0), (0, 0x20000000, 0), (0, 0x08000000, 0),
      (0, 0x80000000, 0), (0, 0x00100800, 0), (0, 0x1000, 0), (0, 0x03800000, 0),
      (1, 1, 0), (1, 0x00100800, 0), (1, 0x20000000, 0x20000000), (1, 0x1000, 0),
      (1, 0x08000000, 0),
      (11, 0x1fff, 0), (11, 0xc0ffe000, 0), (11, 0x3c000000, 0), (11, 0x01000000, 0),
      (11, 0x02000000, 0x02000000)])
    [(13, 0x3fff, UInt32.ofNat (width - 1)), (13, 0x3fff0000, UInt32.ofNat (height - 1) <<< 16),
      (14, whole, 0x3f800000), (15, 0xff, 0),
      (2, whole, UInt32.ofNat (address >>> 8)), (4, whole, UInt32.ofNat (address >>> 8)),
      (6, 0xff, UInt32.ofNat (address >>> 40)), (8, 0xff, UInt32.ofNat (address >>> 40)),
      (3, whole, 0), (5, whole, 0), (12, whole, 0), (7, 0xff, 0), (9, 0xff, 0), (10, 0xff, 0)])

/-- `GpuColorTarget::context_values`. -/
def colorValues (defaults : List.Vector UInt32 16) (target : Target) :
    Except Failure (List.Vector UInt32 16) :=
  match target.data with
  | none => .error (.logicError "Released color target")
  | some address => encodeColorTarget defaults target.width target.height address

/-- `GpuDepthTarget::context_values`. -/
def depthValues (defaults : List.Vector UInt32 16) (target : Target) :
    Except Failure (List.Vector UInt32 16) :=
  match target.data with
  | none => .error (.logicError "Released depth target")
  | some address => encodeDepthTarget defaults target.width target.height address

def corner (x y : ℤ) : UInt32 :=
  UInt32.ofNat (Gx.clampInt x 0 32767).toNat ||| UInt32.ofNat (Gx.clampInt y 0 32767).toNat <<< 16

/-- The twelve numbers of a viewport, each with its register. -/
def viewportValues (v : Gx.Viewport) : List (ℕ × Float32) :=
  let xs := v.width * 0.5
  let ys := -v.height * 0.5
  [(0x10f, xs), (0x110, v.left + xs), (0x111, ys), (0x112, v.top + v.height * 0.5),
    (0x113, v.zfar - v.znear), (0x114, v.znear),
    (0xb4, if v.zfar < v.znear then v.zfar else v.znear),
    (0xb5, if v.znear < v.zfar then v.zfar else v.znear),
    (0x2fa, 1), (0x2fb, 1), (0x2fc, 1), (0x2fd, 1)]

/-- `snapshot_gx_viewport`. -/
def snapshotGxViewport (m : Gx.Viewport × Gx.ClipRect) : Except Failure (List Register) :=
  let (v, s) := m
  if !v.finite || v.width < 0 || v.height < 0 || v.znear < 0 || v.znear > 1 || v.zfar < 0 ||
      v.zfar > 1 then
    .error (.invalidArgument "GX viewport is not a finite AGC viewport")
  else if (viewportValues v).any fun value => !value.2.isFinite then
    .error (.invalidArgument "GX viewport transform overflow")
  else .ok ((viewportValues v).map (fun (offset, value) => ⟨offset, value.toBits⟩) ++
    [⟨0x90, corner s.x s.y ||| 0x80000000⟩,
      ⟨0x91, corner (s.x + max s.width 0) (s.y + max s.height 0)⟩])

/-! ### Packets -/

/-- A material, of which the owners of its textures and copies are `id`. -/
structure Material where
  id : ℕ
  uniforms : List.Vector UInt8 UniformBytes
  colorCopies : List (Option Target)

structure Packet where
  geometry : List UInt8
  indices : List UInt32
  transforms : List.Vector UInt8 TransformBytes
  lighting : List.Vector UInt8 LightingBytes
  texgen : List.Vector UInt8 TexgenBytes
  material : Material
  viewport : Gx.Viewport × Gx.ClipRect
  blendControl : UInt32
  targetMask : UInt32
  blendConstant : List.Vector Float32 4
  cullMode : UInt32
  depthControl : UInt32

namespace Packet

/-- The indices as they lie in memory. -/
def indexBytes (packet : Packet) : List UInt8 :=
  packet.indices.flatMap fun i : UInt32 =>
    [i.toUInt8, (i >>> 8).toUInt8, (i >>> 16).toUInt8, (i >>> 24).toUInt8]

def vertexBlock (packet : Packet) : List UInt8 :=
  packet.transforms.1 ++ packet.lighting.1 ++ packet.texgen.1

def worstUpload (packet : Packet) : ℕ :=
  aligned packet.geometry.length + aligned (packet.indices.length * 4) + aligned VertexBytes +
    aligned UniformBytes

/-- An empty scissor or the culling of everything: there is nothing to draw. -/
def culled (packet : Packet) : Bool :=
  packet.cullMode = 3 ∨ packet.viewport.2.width ≤ 0 ∨ packet.viewport.2.height ≤ 0

end Packet

/-- A buffer descriptor. -/
structure Descriptor where
  low : ℕ
  high : ℕ
  size : ℕ
  format : ℕ

def Descriptor.address (d : Descriptor) : ℕ := d.low + d.high * 2 ^ 32

/-- `buffer`. -/
def bufferDescriptor (address size : ℕ) : Except Failure Descriptor :=
  if size = 0 ∨ size > uint32Max then
    .error (.invalidArgument "GX buffer exceeds descriptor range")
  else if address ≥ 2 ^ 48 then
    .error (.invalidArgument "GX buffer address exceeds GPU range")
  else .ok ⟨address % 2 ^ 32, address / 2 ^ 32 % 65536, size % 2 ^ 32, 0x30005204⟩

/-- What the commands of a draw refer to: three buffers, the indices, and some of the registers of
its batch. -/
structure Drawn where
  geometry : Descriptor
  vertex : Descriptor
  material : Descriptor
  indices : ℕ
  indexCount : ℕ
  registers : ℕ
  registerCount : ℕ

/-! ### The state -/

/-- A `GpuBuffer`, with what is at its addresses. -/
structure GpuBuffer where
  address : ℕ
  size : ℕ
  bytes : ℕ → UInt8

def GpuBuffer.write (buf : GpuBuffer) (offset : ℕ) (data : List UInt8) : GpuBuffer :=
  { buf with bytes := Overlay.write buf.bytes (buf.address + offset) data }

/-- A draw that was recorded. -/
structure Recorded where
  serial : ℕ
  packet : Packet
  color : Target
  depth : Target
  context : List Register
  commands : Drawn

/-- A batch. The words of its commands are given by the room that is left for them and by what they
refer to; `registerUsed` counts registers, where the source counts bytes. `recorded` is not in the
source: the draws that `draws` counts. -/
structure Batch where
  created : Bool
  upload : Option GpuBuffer
  materials : List Material
  colors : List Target
  depths : List Target
  uploadUsed : ℕ
  registerUsed : ℕ
  registers : ℕ → Register
  vertexOffset : Option ℕ
  materialOffset : Option ℕ
  room : ℕ
  overflow : Bool
  commands : List Drawn
  draws : ℕ
  serial : ℕ
  submitted : Bool
  recorded : List Recorded

def Batch.none : Batch where
  created := false
  upload := .none
  materials := []
  colors := []
  depths := []
  uploadUsed := 0
  registerUsed := 0
  registers _ := ⟨0, 0⟩
  vertexOffset := .none
  materialOffset := .none
  room := 0
  overflow := false
  commands := []
  draws := 0
  serial := 0
  submitted := false
  recorded := []

/-- `Batch::release`. -/
def Batch.release (b : Batch) : Batch := { b with materials := [], colors := [], depths := [] }

def Batch.capacity (b : Batch) : ℕ := b.upload.elim 0 (·.size)

def Batch.address (b : Batch) : ℕ := b.upload.elim 0 (·.address)

/-- What the constructor finds out about the two shaders, and what it checks. -/
structure Shaders where
  linkage : List.Vector Register 34
  uc : List.Vector Register 8
  cx : List Register
  sh : List Register
  colorBase : List.Vector UInt32 16
  depthBase : List.Vector UInt32 16
  blendBase : UInt32
  cullBase : UInt32
  sh_le : sh.length ≤ MaxShaderRegisters
  cx_le : 34 + cx.length + 32 + 14 + 10 ≤ MaxRegistersPerDraw

/-- A batch that was submitted, as it was then. -/
structure Submission where
  slot : ℕ
  serial : ℕ
  batch : Batch

inductive Storage
  | commands
  | registers
  | upload

inductive Event
  /-- A block of some storage of a batch is written; `room` is the size of that storage. -/
  | write (slot : ℕ) (storage : Storage) (start size room : ℕ)
  /-- The upload storage of a batch is replaced by a larger one. -/
  | replace (slot : ℕ)
  /-- The owners of a batch are released. -/
  | release (slot : ℕ)
  | record (slot serial : ℕ)
  | submit (submission : Submission)
  /-- The completion label shows a serial. -/
  | reach (label : ℕ)
  | finished
  | destroyed
  | threw (failure : Failure)

/-- What the completion label shows. -/
def reached : List Event → ℕ
  | [] => 0
  | .reach label :: _ => label
  | _ :: past => reached past

def submissions : List Event → List Submission
  | [] => []
  | .submit submission :: past => submission :: submissions past
  | _ :: past => submissions past

/-- The batches whose serials the label has not reached. -/
def pending (past : List Event) : List Submission :=
  (submissions past).filter fun s => reached past < s.serial

/-- The batch and the serial of the last draw. -/
def lastRecord : List Event → Option (ℕ × ℕ)
  | [] => none
  | .record slot serial :: _ => some (slot, serial)
  | _ :: past => lastRecord past

/-- The answers of the graphics processor and the system, by when they are asked. -/
structure Environment where
  /-- By how much the completion label grows. -/
  advances : ℕ → ℕ
  waits : ℕ → Bool
  /-- The address at which a buffer is mapped, or the text of the failure. -/
  maps : ℕ → Except String ℕ
  contents : ℕ → ℕ → UInt8
  /-- The sizes of the commands of a draw. -/
  words : ℕ → List ℕ
  submits : ℕ → ℤ

structure World where
  batches : ℕ → Batch
  opened : Option ℕ
  cursor : ℕ
  label : ℕ
  serial : ℕ
  submittedSerial : ℕ
  failed : Bool
  alive : Bool
  clock : ℕ
  log : List Event

abbrev Result (α : Type) := Attempt Failure World α

namespace World

def tick (w : World) : World := { w with clock := w.clock + 1 }

def note (w : World) (e : Event) : World := { w with log := e :: w.log }

def throw {α : Type} (w : World) (failure : Failure) : Result α :=
  (.error failure, w.note (.threw failure))

/-- Sets the latch. -/
def fail (w : World) : World := { w with failed := true }

def setBatch (w : World) (slot : ℕ) (b : Batch) : World :=
  { w with batches := Function.update w.batches slot b }

/-- Releases the owners of a batch that is complete. -/
def retireSlot (label : ℕ) (w : World) (slot : ℕ) : World :=
  let b := w.batches slot
  if b.submitted ∧ b.serial ≤ label then
    (w.setBatch slot { b.release with submitted := false }).note (.release slot)
  else w

end World

variable (env : Environment) (shaders : Shaders)

/-- `completed`: the label that is seen is some later one than the last time. -/
def completed (w : World) : World :=
  let label := w.label + env.advances w.clock
  { w with label := label }.note (.reach label) |>.tick

def retire (w : World) : World :=
  let w := completed env w
  (List.range InFlightSlots).foldl (World.retireSlot w.label) w

/-- The polls that `wait_until` has left, each with whether the guest is served after it. -/
def waitPolls (target : ℕ) : List Bool → World → Result Unit
  | [], w => w.fail.throw .timeout
  | slice :: polls, w =>
    let w := completed env w
    if target ≤ w.label then (.ok (), retire env w)
    else if slice then
      if env.waits w.clock then waitPolls target polls w.tick else w.tick.throw .waitSlice
    else waitPolls target polls w

/-- The guest is served after every 1024th poll of the first 8192, and after each of the others. -/
@[irreducible]
def polls : List Bool :=
  (List.range 8192).map (fun i => decide (i % 1024 = 1023)) ++ List.replicate 5000 true

def waitUntil (target : ℕ) (w : World) : Result Unit := waitPolls env target polls w

/-! ### Batches -/

/-- The constructor of `GpuBuffer`. -/
def newBuffer (bytes : ℕ) (w : World) : Result GpuBuffer :=
  match env.maps w.clock with
  | .error what => w.tick.throw (.runtimeError what)
  | .ok address =>
    if address = 0 ∨ address % 65536 ≠ 0 ∨ address ≥ 2 ^ 48 then
      w.tick.throw (.runtimeError "Invalid GPU buffer mapping address")
    else (.ok ⟨address, (bytes + 65535) / 65536 * 65536, env.contents w.clock⟩, w.tick)

def createBatch (slot : ℕ) (w : World) : Result Unit :=
  if (w.batches slot).created then (.ok (), w)
  else (newBuffer env CommandBytes w).andThen fun _ w =>
    (.ok (), w.setBatch slot { Batch.none with created := true })

/-- Doubles a capacity until it suffices, at most as often as is given. -/
def grow (needed : ℕ) : ℕ → ℕ → ℕ
  | 0, capacity => capacity
  | times + 1, capacity => if capacity < needed then grow needed times (capacity * 2) else capacity

/-- Sizes below 2^32 need at most ten doublings of four megabytes. -/
def growUpload (slot needed : ℕ) (w : World) : Result Unit :=
  if (w.batches slot).upload.isNone ∨ (w.batches slot).capacity < needed then
    (newBuffer env (grow needed 10 (4 * 2 ^ 20)) w).andThen fun grown w =>
      (.ok (), (w.setBatch slot { w.batches slot with upload := some grown }).note (.replace slot))
  else (.ok (), w)

/-- The batch starts again, with the registers that all of its draws share. -/
def Batch.restarted (b : Batch) : Batch :=
  { b with
    uploadUsed := 0
    registerUsed := MaxShaderRegisters + 3
    registers := Overlay.write (Overlay.write b.registers 0 shaders.sh) MaxShaderRegisters
      (shaders.uc.1.take 3)
    vertexOffset := .none
    materialOffset := .none
    room := WordCapacity
    overflow := false
    commands := []
    draws := 0
    submitted := false
    recorded := [] }

def World.reset (w : World) (slot : ℕ) : World :=
  let w := w.note (.write slot .registers 0 shaders.sh.length RegisterCapacity)
  let w := w.note (.write slot .registers MaxShaderRegisters 3 RegisterCapacity)
  { w.setBatch slot ((w.batches slot).restarted shaders) with
    opened := some slot
    cursor := w.cursor + 1 }

/-- `if(b.submitted)wait_until(b.serial)`. -/
def waitFor (slot : ℕ) (w : World) : Result Unit :=
  if (w.batches slot).submitted then waitUntil env (w.batches slot).serial w else (.ok (), w)

def World.releaseBatch (w : World) (slot : ℕ) : World :=
  (w.setBatch slot (w.batches slot).release).note (.release slot)

def beginBatch (needed : ℕ) (w : World) : Result ℕ :=
  let slot := w.cursor % InFlightSlots
  (createBatch env slot w).andThen fun _ w =>
  (waitFor env slot (retire env w)).andThen fun _ w =>
  (growUpload env slot needed (w.releaseBatch slot)).andThen fun _ w =>
  (.ok slot, w.reset shaders slot)

/-- The fence follows the commands, and the batch is handed over. -/
def World.submit (w : World) (slot : ℕ) : World :=
  let b := w.batches slot
  let w := w.note (.write slot .commands (WordCapacity - b.room) 8 WordCapacity)
  let b := { b with room := b.room - 8, submitted := true }
  { (w.setBatch slot b).note (.submit ⟨slot, b.serial, b⟩) with submittedSerial := b.serial }

def submitOpen (w : World) : Result Unit :=
  match w.opened with
  | none => (.ok (), w)
  | some slot =>
    let b := w.batches slot
    let w := { w with opened := none }
    if b.draws = 0 then (.ok (), w)
    else if b.overflow ∨ b.room < 8 then
      w.throw (.lengthError "GX draw command buffer overflow")
    else
      let w := w.submit slot
      if env.submits w.clock < 0 then w.tick.fail.throw .submission
      else (.ok (), retire env w.tick)

def unresolvedError : Failure := .logicError "GX draw unresolved; resources retained"

def finish (w : World) : Result Unit :=
  if w.failed then w.throw unresolvedError
  else (submitOpen env w).andThen fun _ w =>
    let w := completed env w
    (if w.label < w.submittedSerial then waitUntil env w.submittedSerial w
      else (.ok (), retire env w)).andThen fun _ w => (.ok (), w.note .finished)

def submit (w : World) : Result Unit :=
  if w.failed then w.throw unresolvedError else submitOpen env w

/-! ### Draws -/

def checkTargets (color depth : Option Target) : Except Failure (Target × Target) :=
  match color, depth with
  | some c, some z =>
    if c.data = none ∨ z.data = none ∨ c.width ≠ z.width ∨ c.height ≠ z.height then
      .error (.invalidArgument "GX draw requires matching live color/depth targets")
    else .ok (c, z)
  | _, _ => .error (.invalidArgument "GX draw requires matching live color/depth targets")

def checkPacket (serial : ℕ) (packet : Packet) (c : Target) : Except Failure (List Register) := do
  refuseIf (packet.geometry = [] ∨ packet.geometry.length > uint32Max ∨ packet.indices = [] ∨
      packet.indices.length % 3 ≠ 0 ∨ packet.indices.length > uint32Max / 4)
    (.invalidArgument "Invalid GX draw packet sizes")
  refuseIf (packet.cullMode > 3 ∨ packet.depthControl &&& ~~~0x76 ≠ 0 ∨
      packet.depthControl &&& 2 = 0 ∨ packet.targetMask > 15)
    (.invalidArgument "Invalid GX draw raster packet")
  refuseIf (packet.material.colorCopies.any fun copy => copy.any fun t => t.data = c.data)
    (.invalidArgument "GX draw cannot sample its active color target")
  refuseIf (serial = 2 ^ 64 - 1) (.overflowError "GX draw completion serial exhausted")
  snapshotGxViewport packet.viewport

/-- The open batch has no room for a draw. -/
def Batch.full (b : Batch) (needed : ℕ) : Bool :=
  b.draws ≥ BatchDraws ∨ b.upload.isNone ∨ b.capacity - b.uploadUsed < needed ∨
    b.registerUsed + MaxRegistersPerDraw > RegisterCapacity ∨ b.room < WordsPerDrawMargin

def makeRoom (needed : ℕ) (w : World) : Result Unit :=
  if w.opened.any fun slot => (w.batches slot).full needed then submitOpen env w else (.ok (), w)

def openBatch (needed : ℕ) (w : World) : Result ℕ :=
  (makeRoom env needed w).andThen fun _ w =>
    match w.opened with
    | some slot => (.ok slot, w)
    | none => beginBatch env shaders needed w

/-- The batch with some bytes placed behind those in use. -/
def Batch.placed (b : Batch) (bytes : List UInt8) : Batch :=
  { b with
    upload := b.upload.map (·.write b.uploadUsed bytes)
    uploadUsed := b.uploadUsed + aligned bytes.length }

/-- A target is kept once for the draws to it that follow each other. -/
def keepTarget (kept : List Target) (t : Target) : List Target :=
  if kept.getLast?.any fun last => last.id = t.id then kept else kept ++ [t]

namespace World

variable (w : World) (slot : ℕ)

/-- `place`. -/
def place (bytes : List UInt8) : World :=
  let b := w.batches slot
  (w.setBatch slot (b.placed bytes)).note
    (.write slot .upload b.uploadUsed bytes.length b.capacity)

/-- The bytes at an offset of the upload storage are the given ones. -/
def same (offset : ℕ) (bytes : List UInt8) : Bool :=
  (w.batches slot).upload.any fun buf =>
    Overlay.load buf.bytes (buf.address + offset) bytes.length = bytes

def sharesVertex (packet : Packet) (offset : ℕ) : Bool :=
  w.same slot offset packet.transforms.1 ∧
    w.same slot (offset + TransformBytes) packet.lighting.1 ∧
    w.same slot (offset + TexgenOffset) packet.texgen.1

/-- The last vertex block is used again if it is the same. -/
def placeVertex (packet : Packet) : World :=
  if (w.batches slot).vertexOffset.any (w.sharesVertex slot packet) then w
  else
    let offset := (w.batches slot).uploadUsed
    let w := w.place slot packet.vertexBlock
    w.setBatch slot { w.batches slot with vertexOffset := some offset }

/-- The last material block is used again if it is the same. -/
def placeMaterial (packet : Packet) : World :=
  let uniforms := packet.material.uniforms.1
  if (w.batches slot).materialOffset.any fun offset => w.same slot offset uniforms then w
  else
    let offset := (w.batches slot).uploadUsed
    let w := w.place slot uniforms
    w.setBatch slot { w.batches slot with materialOffset := some offset }

/-- Registers are written behind those that are used. -/
def writeRegisters (registers : List Register) : World :=
  let b := w.batches slot
  (w.setBatch slot
    { b with registers := Overlay.write b.registers b.registerUsed registers }).note
    (.write slot .registers b.registerUsed registers.length RegisterCapacity)

def useRegisters (count : ℕ) : World :=
  let b := w.batches slot
  w.setBatch slot { b with registerUsed := b.registerUsed + count }

/-- A command of the given size, if there is room for it. -/
def emit (size : ℕ) : World :=
  let b := w.batches slot
  if size ≤ b.room then
    (w.setBatch slot { b with room := b.room - size }).note
      (.write slot .commands (WordCapacity - b.room) size WordCapacity)
  else w.setBatch slot { b with overflow := true }

/-- The commands of a draw. Where they do not all fit, the batch is not submitted any more. -/
def emitAll (sizes : List ℕ) (drawn : Drawn) : World :=
  let w := sizes.foldl (fun w size => w.emit slot size) w
  let b := w.batches slot
  w.setBatch slot { b with commands := b.commands ++ [drawn] }

/-- The batch keeps the owners, and the draw gets its serial. -/
def record (c z : Target) (packet : Packet) (context : List Register) (drawn : Drawn) : World :=
  let b := w.batches slot
  let serial := w.serial + 1
  { (w.setBatch slot
      { b with
        materials := b.materials ++ [packet.material]
        colors := keepTarget b.colors c
        depths := keepTarget b.depths z
        draws := b.draws + 1
        serial := serial
        recorded := b.recorded ++ [⟨serial, packet, c, z, context, drawn⟩] }).note
      (.record slot serial) with
    serial := serial }

end World

def targetRegisters (offsets : List.Vector ℕ 16) (values : List.Vector UInt32 16) : List Register :=
  List.zipWith Register.mk offsets.1 values.1

def rasterRegisters (packet : Packet) : List Register :=
  [⟨0, 0⟩, ⟨0x200, packet.depthControl⟩,
    ⟨0x1e0, (shaders.blendBase &&& ~~~0x7fff1fff) ||| packet.blendControl⟩,
    ⟨0x8e, packet.targetMask⟩] ++
  packet.blendConstant.1.mapIdx (fun i value => ⟨0x105 + i, value.toBits⟩) ++
  [⟨0x205, (shaders.cullBase &&& ~~~7) ||| 4 ||| packet.cullMode⟩]

/-- The context registers of a draw, as far as they are added, and the failure that stops it. -/
def contextRegisters (c z : Target) (packet : Packet) (viewport : List Register) :
    List Register × Option Failure :=
  let shader := shaders.linkage.1 ++ shaders.cx
  match colorValues shaders.colorBase c with
  | .error failure => (shader, some failure)
  | .ok values =>
    let color := shader ++ targetRegisters ColorTargetOffsets values
    match depthValues shaders.depthBase z with
    | .error failure => (color, some failure)
    | .ok values =>
      (color ++ targetRegisters DepthTargetOffsets values ++ viewport ++
        rasterRegisters shaders packet, none)

/-- The three buffers of a draw. -/
def descriptors (address geometryOffset vertexOffset materialOffset : ℕ) (packet : Packet) :
    Except Failure (Descriptor × Descriptor × Descriptor) := do
  let geometry ← bufferDescriptor (address + geometryOffset) packet.geometry.length
  let vertex ← bufferDescriptor (address + vertexOffset) VertexBytes
  let material ← bufferDescriptor (address + materialOffset) UniformBytes
  return (geometry, vertex, material)

/-- The commands of a draw whose blocks and registers are placed. -/
def emitDraw (w : World) (slot geometryOffset indexOffset registers count : ℕ) (c z : Target)
    (packet : Packet) (context : List Register) : Result ℕ :=
  let b := w.batches slot
  match descriptors b.address geometryOffset (b.vertexOffset.getD 0) (b.materialOffset.getD 0)
      packet with
  | .error failure => w.throw failure
  | .ok (geometry, vertex, material) =>
    let drawn : Drawn := ⟨geometry, vertex, material, b.address + indexOffset,
      packet.indices.length, registers, count⟩
    let w := w.tick.emitAll slot (env.words w.clock) drawn
    let b := w.batches slot
    if b.overflow ∨ b.room < 8 then w.throw (.lengthError "GX draw command buffer overflow")
    else
      let w := w.record slot c z packet context drawn
      (.ok w.serial, w)

/-- The part of `draw` with a batch that has room. -/
def drawIn (w : World) (slot : ℕ) (c z : Target) (packet : Packet) (viewport : List Register) :
    Result ℕ :=
  let geometryOffset := (w.batches slot).uploadUsed
  let w := w.place slot packet.geometry
  let indexOffset := (w.batches slot).uploadUsed
  let w := ((w.place slot packet.indexBytes).placeVertex slot packet).placeMaterial slot packet
  let (context, failure) := contextRegisters shaders c z packet viewport
  let registers := (w.batches slot).registerUsed
  let w := w.writeRegisters slot context
  match failure with
  | some failure => w.throw failure
  | none =>
    if context.length > MaxRegistersPerDraw then w.throw (.lengthError "GX context overflow")
    else emitDraw env (w.useRegisters slot context.length) slot geometryOffset indexOffset registers
      context.length c z packet context

def draw (w : World) (packet : Packet) (color depth : Option Target) : Result ℕ :=
  if w.failed then w.throw unresolvedError
  else
    match checkTargets color depth with
    | .error failure => w.throw failure
    | .ok (c, z) =>
      match checkPacket w.serial packet c with
      | .error failure => w.throw failure
      | .ok viewport =>
        if packet.culled then (.ok w.serial, w)
        else if packet.worstUpload > uint32Max then
          w.throw (.lengthError "GX upload exceeds descriptor address range")
        else (openBatch env shaders packet.worstUpload w).andThen fun slot w =>
          drawIn env shaders w slot c z packet viewport

/-! ### Calls -/

inductive Call
  | draw (packet : Packet) (color depth : Option Target)
  | submit
  | finish
  /-- The destructor. -/
  | destroy

/-- `pending`, with the label that it sees. -/
def unresolved (w : World) : Bool × World :=
  if w.failed then (true, w)
  else
    let w := completed env w
    (w.label < w.submittedSerial, w)

/-- The destructor keeps everything for the rest of the process where some batch is unresolved. -/
def destroy (w : World) : World :=
  let (retained, w) := unresolved env w
  if retained then { w with alive := false } else { w with alive := false }.note .destroyed

def step (w : World) (call : Call) : World :=
  if w.alive then
    match call with
    | .draw packet color depth => (draw env shaders w packet color depth).2
    | .submit => (submit env w).2
    | .finish => (finish env w).2
    | .destroy => destroy env w
  else w

def run (w : World) (calls : List Call) : World := calls.foldl (step env shaders) w

def World.start : World where
  batches _ := .none
  opened := none
  cursor := 0
  label := 0
  serial := 0
  submittedSerial := 0
  failed := false
  alive := true
  clock := 0
  log := []

end Gpu.AgcGxDraw
