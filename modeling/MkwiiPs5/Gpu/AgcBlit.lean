import Mathlib.Data.Finset.Card
import Mathlib.Data.Int.Notation
import Mathlib.Logic.Function.Basic
import MkwiiPs5.Attempt
import MkwiiPs5.Gpu.CopyStore
import MkwiiPs5.History

/-!
# Asynchronous blits

`agc_blit.cpp` and the checks of `blit_vertices.cpp`: sixteen arenas, each with the commands and the
owners of one submitted blit until its completion label lands. The graphics processor writes the
labels when it likes; the log keeps what is written, submitted, released and completed.
-/

namespace Gpu

namespace AgcBlit

/-! ### Requests -/

def InFlight : ℕ := 16

inductive ShaderAbi
  | SdkTexture
  | GxCopy
deriving DecidableEq

/-- What a shared pointer keeps alive: an image of the caller, or a 1x1 fill image. -/
inductive Owner
  | image (id : ℕ)
  | fill (id : ℕ)
deriving DecidableEq

/-- A colour or depth target of the caller, with the address of its data. -/
structure Target where
  id : ℕ
  data : Option ℕ
  width : ℕ
  height : ℕ

/-- A source of a blit. -/
structure Image where
  owner : Owner
  data : Option ℕ
  width : ℕ
  height : ℕ

def Target.image (t : Target) : Image := ⟨.image t.id, t.data, t.width, t.height⟩

/-- The options that are checked; `rowStride` says whether it is finite, positive and not above
16384. -/
structure GxCopyOptions where
  format : ℕ
  filter : ℕ × ℕ × ℕ
  rowStride : Bool

def GxCopyOptions.default : GxCopyOptions := ⟨6, (0, 64, 0), true⟩

/-- The arguments of `execute`. The checks on floating-point numbers are given by their outcomes:
`sampled` for the rectangle of the source, `depthTest` for the value and comparison. -/
structure Blit where
  source : Option Image
  target : Option Target
  sampled : Bool
  rect : BlitRect
  options : Option GxCopyOptions
  writeMask : ℕ
  depth : Option Target
  depthTest : Bool
  depthSource : Option Target

inductive Failure
  | logicError (what : String)
  | invalidArgument (what : String)
  | overflowError (what : String)
  | runtimeError (what : String)
  /-- "Blit completion timeout; resources retained" -/
  | timeout
  /-- "Blit submit failed; resources retained" -/
  | submission
  /-- An exception of the allocation of a fill image. -/
  | allocation
  /-- An exception while commands are written to an arena. -/
  | encoding
  /-- An exception of `gpu_wait_slice`. -/
  | waitSlice
deriving DecidableEq

/-! ### The state -/

structure Arena where
  memory : Bool
  serial : ℕ
  submitted : Bool
  source : Option Owner
  target : Option Owner
  depthTarget : Option Owner
  depthSource : Option Owner

def Arena.none : Arena := ⟨false, 0, false, .none, .none, .none, .none⟩

/-- `Arena::release`. -/
def Arena.released (a : Arena) : Arena :=
  { a with
    submitted := false
    source := .none
    target := .none
    depthTarget := .none
    depthSource := .none }

/-- A blit that was submitted. -/
structure Submission where
  serial : ℕ
  arena : ℕ
  source : Option Owner
  target : Option Owner
  depthTarget : Option Owner
  depthSource : Option Owner

inductive Event
  /-- An arena is written. -/
  | rewrite (arena : ℕ)
  | submit (submission : Submission)
  /-- A completion label lands. -/
  | landed (serial : ℕ)
  /-- The owners of an arena are released. -/
  | release (arena : ℕ)
  /-- The pixel of a fill image is written. -/
  | fill (image bgra : ℕ)
  | finished
  /-- The arenas are unmapped and their owners released. -/
  | destroyed
  | threw (failure : Failure)

/-- The blits whose labels have not landed. -/
def pending : List Event → List Submission
  | [] => []
  | .submit submission :: past => submission :: pending past
  | .landed serial :: past => (pending past).filter fun s => s.serial ≠ serial
  | _ :: past => pending past

/-- The answers of the graphics processor and the system, by when they are asked. -/
structure Environment where
  /-- The labels that land at a time, in this order. -/
  lands : ℕ → List ℕ
  waits : ℕ → Bool
  /-- With what text the allocation of an arena fails, if it does. -/
  allocates : ℕ → Option String
  fills : ℕ → Bool
  fillData : ℕ → ℕ
  encodes : ℕ → Bool
  submits : ℕ → ℤ

/-- `label` is the completion label in the memory of each arena, `fills` the number of fill images
made so far. -/
structure World where
  abi : ShaderAbi
  arenas : ℕ → Arena
  label : ℕ → ℕ
  serial : ℕ
  failed : Bool
  constant : Option ℕ
  fills : ℕ
  alive : Bool
  clock : ℕ
  log : List Event

abbrev Result (α : Type) := Attempt Failure World α

namespace World

def tick (w : World) : World := { w with clock := w.clock + 1 }

def note (w : World) (e : Event) : World := { w with log := e :: w.log }

def throw {α : Type} (w : World) (failure : Failure) : Result α :=
  (.error failure, w.note (.threw failure))

/-- Sets the latch. -/
def fail (w : World) : World := { w with failed := true }

def setArena (w : World) (a : ℕ) (arena : Arena) : World :=
  { w with arenas := Function.update w.arenas a arena }

/-- The graphics processor writes the label of a blit. -/
def land (w : World) (serial : ℕ) : World :=
  if (pending w.log).any fun s => s.serial = serial then
    { w with
      label := fun a =>
        if (pending w.log).any fun s => s.serial = serial ∧ s.arena = a then serial else w.label a
      log := .landed serial :: w.log }
  else w

def landed (w : World) (a : ℕ) : Bool := w.label a = (w.arenas a).serial

def release (w : World) (a : ℕ) : World :=
  (w.setArena a (w.arenas a).released).note (.release a)

/-- The arenas with a blit that was not found complete yet. -/
def submittedArenas (w : World) : Finset ℕ :=
  (Finset.range InFlight).filter fun a => (w.arenas a).submitted = true

/-- The arena with the least serial among some. -/
def oldest (w : World) (candidate : ℕ → Bool) : Option ℕ :=
  (List.range InFlight).foldl
    (fun oldest a => if candidate a ∧ oldest.all fun o => (w.arenas a).serial < (w.arenas o).serial
      then some a else oldest)
    none

/-- The shared pointers to a fill image: that of the blitter, and those of the arenas. -/
def useCount (w : World) (image : ℕ) : ℕ :=
  1 + (List.range InFlight).countP fun a => (w.arenas a).source = some (.fill image)

end World

variable (env : Environment)

/-- Labels land while the processor goes on. -/
def pass (w : World) : World := ((env.lands w.clock).foldl World.land w).tick

/-! ### Arenas -/

def retireArena (w : World) (a : ℕ) : World :=
  if (w.arenas a).submitted then
    let w := pass env w
    if w.landed a then w.release a else w
  else w

def retire (w : World) : World := (List.range InFlight).foldl (retireArena env) w

/-- The attempts that `wait` has left; the polls of one attempt are one poll here. -/
def waitAttempts (a : ℕ) : ℕ → World → Result Unit
  | 0, w => w.fail.throw .timeout
  | attempts + 1, w =>
    let w := pass env w
    if w.landed a then (.ok (), w.release a)
    else if env.waits w.clock then waitAttempts a attempts w.tick
    else w.tick.throw .waitSlice

def wait (w : World) (a : ℕ) : Result Unit := waitAttempts env a 5000 w

def finishLoop : ℕ → World → Result Unit
  | 0, w => (.ok (), w.note .finished)
  | n + 1, w =>
    match w.oldest fun a => (w.arenas a).submitted with
    | none => (.ok (), w.note .finished)
    | some a => (wait env w a).andThen fun _ w => finishLoop n w

/-- `finish`: each turn of its loop releases an arena. -/
def finish (w : World) : Result Unit :=
  if w.failed then w.throw (.logicError "Blit submission unresolved; resources retained")
  else finishLoop env w.submittedArenas.card w

def allocate (w : World) (a : ℕ) : Result ℕ :=
  match env.allocates w.clock with
  | some what => w.tick.throw (.runtimeError what)
  | none =>
    let mapped := w.tick.setArena a { w.arenas a with memory := true }
    (.ok a, { mapped with label := Function.update w.label a 0 }.note (.rewrite a))

def World.freeArena (w : World) : Option ℕ :=
  (List.range InFlight).find? fun a => (w.arenas a).memory && !(w.arenas a).submitted

def World.unmappedArena (w : World) : Option ℕ :=
  (List.range InFlight).find? fun a => !(w.arenas a).memory

def claim (w : World) : Result ℕ :=
  let w := retire env w
  match w.freeArena with
  | some a => (.ok a, w)
  | none =>
    match w.unmappedArena with
    | some a => allocate env w a
    | none =>
      let a := (w.oldest fun _ => true).getD 0
      (wait env w a).andThen fun _ w => (.ok a, w)

/-! ### Blits -/

/-- `validate` of `blit_vertices.cpp`. -/
def validRect (width height : ℕ) (r : BlitRect) : Bool :=
  ¬ (width = 0 ∨ height = 0 ∨ width > 16384 ∨ height > 16384 ∨ r.width = 0 ∨ r.height = 0 ∨
    r.x ≥ width ∨ r.y ≥ height ∨ r.width > width - r.x ∨ r.height > height - r.y)

def checkSource (blit : Blit) : Except Failure Unit :=
  match blit.depthSource with
  | some depthSource =>
    if depthSource.data = none then
      .error (.invalidArgument "Depth copy requires a live depth source")
    else .ok ()
  | none =>
    match blit.source with
    | none => .error (.invalidArgument "Blit requires a live color source")
    | some source =>
      if source.data = none ∨ (blit.target.any fun t => source.data = t.data) then
        .error (.invalidArgument "Blit requires a live color source")
      else .ok ()

def checkDepth (blit : Blit) (target : Target) : Except Failure Unit :=
  match blit.depth with
  | none => .ok ()
  | some depth =>
    if depth.data = none ∨ depth.width ≠ target.width ∨ depth.height ≠ target.height ∨
        ¬ blit.depthTest ∨ blit.writeMask > 15 then
      .error (.invalidArgument "Invalid blit depth attachment/state")
    else .ok ()

def checkOptions (abi : ShaderAbi) (blit : Blit) : Except Failure Unit :=
  let opt := blit.options.getD .default
  let formatOk := if blit.depthSource.isSome then mkwCopyDepthFormat opt.format
    else mkwCopyColorFormat opt.format
  if blit.options.isSome ∧ abi ≠ .GxCopy then
    .error (.invalidArgument "Copy options require GX copy shader ABI")
  else if blit.depthSource.isSome ∧ abi ≠ .GxCopy then
    .error (.invalidArgument "Depth copy requires the GX copy shader ABI")
  else if ¬ formatOk ∨ ¬ opt.rowStride ∨ opt.filter.1 > 126 ∨ opt.filter.2.1 > 441 ∨
      opt.filter.2.2 > 126 then
    .error (.invalidArgument "Unsupported GX copy options")
  else .ok ()

def refuseIf (p : Prop) [Decidable p] (failure : Failure) : Except Failure Unit :=
  if p then .error failure else .ok ()

def checkTarget (w : World) (blit : Blit) (target : Target) : Except Failure Unit := do
  refuseIf (target.data = none) (.invalidArgument "Blit requires a live destination")
  refuseIf (¬ validRect target.width target.height blit.rect)
    (.invalidArgument "Blit rectangle outside image")
  refuseIf (¬ blit.sampled) (.invalidArgument "Sampled blit rectangle outside image")
  checkDepth blit target
  checkOptions w.abi blit
  refuseIf (w.serial = 2 ^ 64 - 1) (.overflowError "Blit completion serial exhausted")

/-- The checks of `execute`, which touch nothing. -/
def checkBlit (w : World) (blit : Blit) : Except Failure Unit := do
  refuseIf (w.failed = true) (.logicError "Blit submission unresolved; resources retained")
  checkSource blit
  match blit.target with
  | none => .error (.invalidArgument "Blit requires a live destination")
  | some target => checkTarget w blit target

/-- The submission of a blit from an arena. -/
def World.submission (w : World) (a : ℕ) (blit : Blit) : Submission where
  serial := w.serial + 1
  arena := a
  source := blit.source.map (·.owner)
  target := blit.target.map fun t => .image t.id
  depthTarget := blit.depth.map fun t => .image t.id
  depthSource := blit.depthSource.map fun t => .image t.id

/-- The label is cleared, and the arena takes the owners. -/
def World.submit (w : World) (a : ℕ) (blit : Blit) : World :=
  let s := w.submission a blit
  { w with
    arenas := Function.update w.arenas a
      { w.arenas a with
        serial := s.serial
        submitted := true
        source := s.source
        target := s.target
        depthTarget := s.depthTarget
        depthSource := s.depthSource }
    label := Function.update w.label a 0
    serial := s.serial
    log := .submit s :: w.log }

/-- The part of `execute` with an arena. -/
def executeIn (w : World) (a : ℕ) (blit : Blit) : Result ℕ :=
  let w := w.note (.rewrite a)
  if ¬ env.encodes w.clock then w.tick.throw .encoding
  else
    let w := w.submit a blit
    if env.submits w.clock < 0 then w.tick.fail.throw .submission
    else (.ok w.serial, retire env w.tick)

def execute (w : World) (blit : Blit) : Result ℕ :=
  match checkBlit w blit with
  | .error failure => w.throw failure
  | .ok () => (claim env w).andThen fun a w => executeIn env w a blit

/-- A fill image whose pixel is written: that of the last fill if nothing else uses it. -/
def fillConstant (w : World) (bgra : ℕ) : Result ℕ :=
  let reused := w.constant.filter fun c => w.useCount c = 1
  match reused with
  | some c => (.ok c, w.note (.fill c bgra))
  | none =>
    if env.fills w.clock then
      (.ok w.fills, { w.tick with constant := some w.fills, fills := w.fills + 1 }.note
        (.fill w.fills bgra))
    else w.tick.throw .allocation

def fillBlit (image data : ℕ) (target : Target) (rect : BlitRect) (writeMask : ℕ) : Blit where
  source := some ⟨.fill image, some data, 1, 1⟩
  target := some target
  sampled := true
  rect := rect
  options := none
  writeMask := writeMask
  depth := none
  depthTest := true
  depthSource := none

def clearColor (w : World) (target : Option Target) (rect : BlitRect) (bgra writeMask : ℕ) :
    Result ℕ :=
  if w.failed then w.throw (.logicError "Blit submission unresolved; resources retained")
  else
    match target with
    | none => w.throw (.invalidArgument "Invalid GPU color clear")
    | some target =>
      if target.data = none ∨ writeMask = 0 ∨ writeMask > 15 then
        w.throw (.invalidArgument "Invalid GPU color clear")
      else if ¬ validRect target.width target.height rect then
        w.throw (.invalidArgument "Blit rectangle outside image")
      else (fillConstant env w bgra).andThen fun image w =>
        execute env w (fillBlit image (env.fillData image) target rect writeMask)

def fillDepthTested (w : World) (target depth : Option Target) (rect : BlitRect) (bgra : ℕ)
    (depthTest : Bool) (writeMask : ℕ) : Result ℕ :=
  if w.failed then w.throw (.logicError "Blit submission unresolved; resources retained")
  else
    match target, depth with
    | some target, some depth =>
      if target.data = none ∨ depth.data = none ∨ depth.width ≠ target.width ∨
          depth.height ≠ target.height ∨ ¬ depthTest ∨ writeMask > 15 then
        w.throw (.invalidArgument "Invalid GPU depth fill")
      else if ¬ validRect target.width target.height rect then
        w.throw (.invalidArgument "Blit rectangle outside image")
      else (fillConstant env w bgra).andThen fun image w =>
        execute env w { fillBlit image (env.fillData image) target rect writeMask with
          depth := some depth
          depthTest := depthTest }
    | _, _ => w.throw (.invalidArgument "Invalid GPU depth fill")

/-! ### Calls -/

inductive Call
  /-- `copy` and `copy_sampled`. -/
  | copy (source target : Option Target) (sampled : Bool) (rect : BlitRect)
    (options : Option GxCopyOptions)
  | copyDepth (source target : Option Target) (sampled : Bool) (rect : BlitRect)
    (options : Option GxCopyOptions)
  | clearColor (target : Option Target) (rect : BlitRect) (bgra writeMask : ℕ)
  | fillDepthTested (target depth : Option Target) (rect : BlitRect) (bgra : ℕ) (depthTest : Bool)
    (writeMask : ℕ)
  | finish
  /-- The destructor. -/
  | destroy

/-- `unresolved`, over the arenas that are left to look at. -/
def unresolvedFrom : List ℕ → World → Bool × World
  | [], w => (false, w)
  | a :: rest, w =>
    if (w.arenas a).submitted then
      let w := pass env w
      if w.landed a then unresolvedFrom rest w else (true, w)
    else unresolvedFrom rest w

def unresolved (w : World) : Bool × World :=
  if w.failed then (true, w) else unresolvedFrom env (List.range InFlight) w

/-- The destructor keeps everything for the rest of the process where some blit is unresolved. -/
def destroy (w : World) : World :=
  let w := if w.failed then w else (finish env w).2
  let (retained, w) := unresolved env w
  if retained then { w with alive := false } else { w with alive := false }.note .destroyed

def step (w : World) (call : Call) : World :=
  if w.alive then
    match call with
    | .copy source target sampled rect options => (execute env w
        ⟨source.map Target.image, target, sampled, rect, options, 15, none, true, none⟩).2
    | .copyDepth source target sampled rect options => (execute env w
        ⟨none, target, sampled, rect, options, 15, none, true, source⟩).2
    | .clearColor target rect bgra writeMask => (clearColor env w target rect bgra writeMask).2
    | .fillDepthTested target depth rect bgra depthTest writeMask =>
      (fillDepthTested env w target depth rect bgra depthTest writeMask).2
    | .finish => (finish env w).2
    | .destroy => destroy env w
  else w

def run (w : World) (calls : List Call) : World := calls.foldl (step env) w

/-- A blitter that was just made: it has one arena. -/
def World.start (abi : ShaderAbi) : World where
  abi := abi
  arenas := Function.update (fun _ => .none) 0 { Arena.none with memory := true }
  label _ := 0
  serial := 0
  failed := false
  constant := none
  fills := 0
  alive := true
  clock := 0
  log := []

end AgcBlit

end Gpu
