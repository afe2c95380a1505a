import MkwiiPs5.Attempt
import MkwiiPs5.Input.NativePad

/-!
# Input of the guest

`aurora_input.cpp` and `virtual_pad.cpp`: any number of input objects, each with four native slots
and a virtual device of SDL for each slot. The native services and SDL answer as they like, and
whenever one of them is called the rumble callbacks of devices that are attached may come. The log
keeps what SDL is told and what reaches the native handles through a callback.
-/

namespace Input.AuroraInput

/-! ### The state -/

/-- `VirtualPad`. Where its callback is set, the context is the target of its slot. -/
structure VirtualPad where
  id : ℕ
  gamepad : Bool
  rumble : Bool

structure RumbleTarget where
  owner : Option ℕ
  slot : Fin 4
  user : ℤ
  handle : ℤ

/-- A virtual device that is attached for a slot of an object: the user and the handle that the slot
had then, and whether SDL may call it back. -/
structure Device where
  id : ℕ
  object : ℕ
  slot : Fin 4
  user : ℤ
  handle : ℤ
  rumbles : Bool

/-- The events of SDL that are told apart. -/
inductive SdlEvent
  | gamepadAdded (which : ℕ)
  | gamepadRemapped (which : ℕ)
  | gamepadRemoved (which : ℕ)
  | quit
  | other (type : ℕ)

inductive AuroraEvent
  | none
  | controllerAdded (controller : ℕ)
  | controllerRemoved (controller : ℕ)
  | exit
  | sdl (event : SdlEvent)

/-- An input object. -/
structure Object where
  native : NativePads.World
  pads : Fin 4 → VirtualPad
  targets : Fin 4 → RumbleTarget
  events : List AuroraEvent
  autopilot : Bool
  initialized : Bool
  nativeError : ℤ

inductive Event
  /-- The subsystems of SDL are initialized for an object, and given up. -/
  | inited (object : ℕ)
  | quit (object : ℕ)
  | attached (device : Device)
  | detached (id : ℕ)
  /-- A device gets the value of an axis and the state of a button. -/
  | axis (id : ℕ) (axis : Fin 6) (value : ℤ)
  | button (id : ℕ) (button : ℕ) (held : Bool)
  /-- A callback of a device commands the handle of a slot of an object, which is as given. -/
  | commanded (id object : ℕ) (slot : Fin 4) (current : NativePads.PadSlot) (low high : UInt8)

/-- The devices that are attached, by their numbers. -/
def attached : List Event → ℕ → Option Device
  | [] => fun _ => .none
  | .attached device :: past => Function.update (attached past) device.id (some device)
  | .detached id :: past => Function.update (attached past) id .none
  | _ :: past => attached past

/-- How often an object holds the subsystems of SDL. -/
def holds (object : ℕ) : List Event → ℤ
  | [] => 0
  | .inited o :: past => if o = object then holds object past + 1 else holds object past
  | .quit o :: past => if o = object then holds object past - 1 else holds object past
  | _ :: past => holds object past

/-- A rumble callback that SDL makes. -/
structure Callback where
  id : ℕ
  low : UInt16
  high : UInt16

/-- The answers of the services, by when they are asked, and what SDL does while it is called. -/
structure Environment where
  native : ℕ → NativePads.Environment
  callbacks : ℕ → List Callback
  inits : ℕ → Bool
  attaches : ℕ → Bool
  /-- The numbers that SDL has used for something else before the next device. -/
  skips : ℕ → ℕ
  opens : ℕ → Bool
  players : ℕ → Bool
  axes : ℕ → Bool
  buttons : ℕ → Bool
  detaches : ℕ → Bool
  polls : ℕ → List SdlEvent
  /-- `aurora::input::add_controller` and `refresh_controller`. -/
  added : ℕ → Option ℕ
  refreshed : ℕ → Bool
  /-- Whether a script for the autopilot is there and has presses, and the buttons it holds. -/
  script : ℕ → Option Bool
  held : ℕ → ℕ

/-- All input objects, the one that owns the input, the next number of a device of SDL, and the hint
about events in the background. -/
structure World where
  objects : ℕ → Object
  active : Option ℕ
  nextId : ℕ
  background : Option Bool
  clock : ℕ
  log : List Event

namespace World

def tick (w : World) : World := { w with clock := w.clock + 1 }

def note (w : World) (e : Event) : World := { w with log := e :: w.log }

def update (w : World) (o : ℕ) (f : Object → Object) : World :=
  { w with objects := Function.update w.objects o (f (w.objects o)) }

def pad (w : World) (o : ℕ) (i : Fin 4) : VirtualPad := (w.objects o).pads i

def setPad (w : World) (o : ℕ) (i : Fin 4) (pad : VirtualPad) : World :=
  w.update o fun x => { x with pads := Function.update x.pads i pad }

def setNative (w : World) (o : ℕ) (native : NativePads.World) : World :=
  w.update o fun x => { x with native := native }

end World

variable (env : Environment)

/-! ### Rumble -/

/-- What `rumble` refuses a command for. -/
def Refused (target : RumbleTarget) (current : NativePads.PadSlot) (low high : UInt16) : Prop :=
  current.user ≠ target.user ∨ current.handle ≠ target.handle ∨ current.signedIn = false ∨
    (current.sample.connected = false ∧ (low ≠ 0 ∨ high ≠ 0)) ∨
    (current.sample.intercepted = true ∧ (low ≠ 0 ∨ high ≠ 0))

instance (target : RumbleTarget) (current : NativePads.PadSlot) (low high : UInt16) :
    Decidable (Refused target current low high) :=
  inferInstanceAs (Decidable (_ ∨ _ ∨ _ ∨ _ ∨ _))

/-- `AuroraInput::rumble`, with the target of a slot, for the device that is there. -/
def rumble (id o : ℕ) (i : Fin 4) (low high : UInt16) (w : World) : Bool × World :=
  let target := (w.objects o).targets i
  match target.owner with
  | none => (false, w)
  | some owner =>
    let native := (w.objects owner).native
    let current := native.slots target.slot
    if Refused target current low high then (false, w)
    else
      let low8 := (low >>> 8).toUInt8
      let high8 := (high >>> 8).toUInt8
      let (rc, native) := NativePads.vibrate (env.native owner) native target.slot low8 high8
      (0 ≤ rc, (w.setNative owner native).note
        (.commanded id owner target.slot current low8 high8))

/-- `VirtualPad::rumble`. -/
def virtualRumble (id o : ℕ) (i : Fin 4) (low high : UInt16) (w : World) : Bool × World :=
  if (w.pad o i).rumble then rumble env id o i low high w else (false, w)

/-- Callbacks come from devices that are attached. -/
def deliver (w : World) (c : Callback) : World :=
  match attached w.log c.id with
  | none => w
  | some d => if d.rumbles then (virtualRumble env c.id d.object d.slot c.low c.high w).2 else w

/-- A service is called, and callbacks come. -/
def serve (w : World) : World := ((env.callbacks w.clock).foldl (deliver env) w).tick

/-! ### Virtual devices -/

/-- `SDL_DetachVirtualJoystick`; where it fails, the device is gone already. -/
def detach (o : ℕ) (i : Fin 4) (w : World) : Bool × World :=
  let detached := env.detaches w.clock
  let w := serve env w
  let pad := w.pad o i
  (detached, (w.note (.detached pad.id)).setPad o i { pad with id := 0 })

/-- The motors are stopped while the device is there. -/
def stopDevice (o : ℕ) (i : Fin 4) (w : World) : World :=
  let pad := w.pad o i
  if pad.id ≠ 0 ∧ pad.rumble then (rumble env pad.id o i 0 0 w).2 else w

def closeGamepad (o : ℕ) (i : Fin 4) (w : World) : World :=
  if (w.pad o i).gamepad then
    let w := serve env w
    w.setPad o i { w.pad o i with gamepad := false }
  else w

/-- `VirtualPad::close`. -/
def closePad (o : ℕ) (i : Fin 4) (w : World) : Bool × World :=
  let w := closeGamepad env o i (stopDevice env o i w)
  if (w.pad o i).id ≠ 0 then detach env o i w else (true, w)

/-- SDL attaches a device with a number. -/
def World.attach (w : World) (o : ℕ) (i : Fin 4) (id : ℕ) : World :=
  let slot := (w.objects o).native.slots i
  let device : Device := ⟨id, o, i, slot.user, slot.handle, (w.pad o i).rumble⟩
  ({ w with nextId := id + 1 }.note (.attached device)).setPad o i { w.pad o i with id := id }

/-- The part of `VirtualPad::update` that attaches a device where there is none. -/
def attachPad (o : ℕ) (i : Fin 4) (w : World) : Bool × World :=
  if (w.pad o i).id ≠ 0 then (true, w)
  else
    let attaches := env.attaches w.clock
    let skips := env.skips w.clock
    let w := serve env w
    if ¬ attaches then (false, w)
    else
      let w := w.attach o i (w.nextId + skips)
      let opens := env.opens w.clock
      let w := serve env w
      if ¬ opens then (false, (detach env o i w).2)
      else
        let w := w.setPad o i { w.pad o i with gamepad := true }
        let player := env.players w.clock
        let w := serve env w
        if ¬ player then (false, (closePad env o i w).2) else (true, w)

/-- The value of an axis: a trigger at rest is at the lower end of its range in SDL. -/
def axisValue (sample : PadSample) (axis : Fin 6) : ℤ :=
  let value := if sample.intercepted then 0 else sample.axes.getD axis 0
  if 4 ≤ axis.val then (max value 0 * 65535 + 32766) / 32767 - 32768 else value

/-- The native masks of the buttons, in the order of SDL. -/
def buttonMasks : List ℕ :=
  [0x4000, 0x2000, 0x8000, 0x1000, 0x8, 0x2, 0x4, 0x400, 0x800, 0x10, 0x40, 0x80, 0x20, 0x100000]

def feedAxes (id : ℕ) (sample : PadSample) : List (Fin 6) → World → Bool × World
  | [], w => (true, w)
  | axis :: rest, w =>
    let ok := env.axes w.clock
    let w := (serve env w).note (.axis id axis (axisValue sample axis))
    if ok then feedAxes id sample rest w else (false, w)

def feedButtons (id : ℕ) (sample : PadSample) : List (ℕ × ℕ) → World → Bool × World
  | [], w => (true, w)
  | (mask, k) :: rest, w =>
    let ok := env.buttons w.clock
    let held : Bool := ¬ sample.intercepted ∧ sample.buttons &&& mask ≠ 0
    let w := (serve env w).note (.button id k held)
    if ok then feedButtons id sample rest w else (false, w)

/-- The part of `VirtualPad::update` that gives the sample to the device. -/
def feed (o : ℕ) (i : Fin 4) (sample : PadSample) (w : World) : Bool × World :=
  let id := (w.pad o i).id
  let (ok, w) := feedAxes env id sample (List.finRange 6) w
  if ¬ ok then (false, w)
  else
    let (ok, w) := feedButtons env id sample buttonMasks.zipIdx w
    if ¬ ok then (false, w) else (true, serve env w)

/-- `VirtualPad::update`. -/
def updatePad (o : ℕ) (i : Fin 4) (sample : PadSample) (w : World) : Bool × World :=
  if ¬ sample.connected then closePad env o i w
  else
    let (ok, w) := attachPad env o i w
    if ¬ ok then (false, w) else feed env o i sample w

/-! ### Polling -/

inductive Failure
  /-- "Aurora input is not initialized" -/
  | notInitialized
  /-- A `std::runtime_error` with the text of `SDL_GetError`. -/
  | sdl

/-- A slot gets a new target, and its pad the callback. -/
def Object.retarget (x : Object) (o : ℕ) (i : Fin 4) (user handle : ℤ) : Object :=
  { x with
    targets := Function.update x.targets i ⟨some o, i, user, handle⟩
    pads := Function.update x.pads i { x.pads i with rumble := true } }

/-- The device of a slot that has another user or handle is closed. -/
def retarget (o : ℕ) (i : Fin 4) (w : World) : Attempt Failure World Unit :=
  let slot := (w.objects o).native.slots i
  let target := (w.objects o).targets i
  if target.user ≠ slot.user ∨ target.handle ≠ slot.handle then
    let (closed, w) := closePad env o i w
    if ¬ closed then (.error .sdl, w)
    else
      let slot := (w.objects o).native.slots i
      (.ok (), w.update o fun x => x.retarget o i slot.user slot.handle)
  else (.ok (), w)

/-- The sample that the device of a slot gets; the autopilot plays in the first. -/
def Object.sample (x : Object) (i : Fin 4) (held : ℕ) : PadSample :=
  let sample := (x.native.slots i).sample
  if i = 0 ∧ x.autopilot then
    { sample with connected := true, intercepted := false, buttons := sample.buttons ||| held }
  else sample

/-- The first failed read is the error of the poll. -/
def noteRead (o : ℕ) (i : Fin 4) (w : World) : World :=
  w.update o fun x =>
    let rc := (x.native.slots i).readResult
    if rc < 0 ∧ x.nativeError = 0 then { x with nativeError := rc } else x

def pollSlot (o : ℕ) (i : Fin 4) (w : World) : Attempt Failure World Unit :=
  (retarget env o i w).andThen fun _ w =>
    let sample := (w.objects o).sample i (env.held w.clock)
    let (updated, w) := updatePad env o i sample w
    if ¬ updated then (.error .sdl, w) else (.ok (), noteRead o i w)

def pollSlots (o : ℕ) : List (Fin 4) → World → Attempt Failure World Unit
  | [], w => (.ok (), w)
  | i :: rest, w => (pollSlot env o i w).andThen fun _ w => pollSlots o rest w

def World.push (w : World) (o : ℕ) (events : List AuroraEvent) : World :=
  w.update o fun x => { x with events := x.events ++ events }

/-- What an event of SDL means for Aurora. -/
def translate (o : ℕ) (w : World) : SdlEvent → World
  | .gamepadAdded _ =>
    match env.added w.clock with
    | none => serve env w
    | some id => (serve env w).push o [.controllerAdded id]
  | .gamepadRemapped which =>
    if env.refreshed w.clock then (serve env w).push o [.controllerAdded which] else serve env w
  | .gamepadRemoved which => (serve env w).push o [.controllerRemoved which]
  | .quit => w.push o [.exit]
  | .other _ => w

/-- The loop over `SDL_PollEvent`. -/
def pollEvents (o : ℕ) : List SdlEvent → World → World
  | [], w => (serve env w).push o [.none]
  | event :: rest, w =>
    pollEvents o rest ((translate env o (serve env w) event).push o [.sdl event])

/-- The native side of a poll. -/
def pollNative (o : ℕ) (w : World) : World :=
  let (rc, native) := NativePads.refresh (env.native o) (w.objects o).native
  let w := serve env (w.update o fun x =>
    { x with events := [], nativeError := rc, native := native })
  serve env (w.setNative o (NativePads.read (env.native o) (w.objects o).native))

def poll (o : ℕ) (w : World) : Attempt Failure World (List AuroraEvent) :=
  if ¬ (w.objects o).initialized then (.error .notInitialized, w)
  else (pollSlots env o (List.finRange 4) (pollNative env o w)).andThen fun _ w =>
    let w := pollEvents env o (env.polls w.clock) w
    (.ok (w.objects o).events, w)

/-! ### Beginning and end -/

inductive Refusal
  /-- "Aurora input already has an owner" -/
  | owner
  /-- "Native pad handles still await close" -/
  | awaitClose
  /-- `SDL_InitSubSystem` failed. -/
  | sdl
  /-- "Native pad initialization failed: 0x%08x" -/
  | native (rc : ℤ)

/-- `SDL_InitSubSystem` for an object, where it succeeds, and `SDL_QuitSubSystem`. -/
def initSubSystem (o : ℕ) (w : World) : Bool × World :=
  let ok := env.inits w.clock
  let w := serve env w
  (ok, if ok then w.note (.inited o) else w)

def quitSubSystem (o : ℕ) (w : World) : World := (serve env w).note (.quit o)

/-- The native side of `initialize`, where the subsystems of SDL are there. -/
def initializeNative (o : ℕ) (w : World) : Except Refusal Unit × World :=
  let (rc, native) := NativePads.initializePads (env.native o) (w.objects o).native
  let w := serve env (w.update o fun x => { x with native := native, nativeError := rc })
  if rc < 0 then
    let w := quitSubSystem env o w
    -- a roll-back that failed still owns handles
    (.error (.native rc), if (w.objects o).native.initialized then { w with active := some o } else w)
  else
    (.ok (), ({ w with active := some o }.update o fun x =>
      { x with initialized := true, autopilot := (env.script w.clock).getD x.autopilot }))

def initializeInput (o : ℕ) (backgroundEvents : Bool) (w : World) : Except Refusal Unit × World :=
  if (w.objects o).initialized then (.ok (), w)
  else if w.active.any fun a => a ≠ o then (.error .owner, w)
  else if (w.objects o).native.initialized then (.error .awaitClose, w)
  else
    let (ok, w) := initSubSystem env o { w with background := some backgroundEvents }
    if ¬ ok then (.error .sdl, w) else initializeNative env o w

/-- The devices of an object are closed, and PAD lets go of them. -/
def closePads (o : ℕ) : List (Fin 4) → ℤ → World → ℤ × World
  | [], failure, w => (failure, w)
  | i :: rest, failure, w =>
    let id := (w.pad o i).id
    let (closed, w) := closePad env o i w
    let w := if id ≠ 0 then serve env w else w
    closePads o rest (if closed then failure else -1) w

/-- The part of `close` of an object that is initialized. -/
def shutDown (o : ℕ) (w : World) : ℤ × World :=
  if (w.objects o).initialized then
    let (failure, w) := closePads env o (List.finRange 4) 0 w
    (failure, (quitSubSystem env o w).update o fun x => { x with initialized := false, events := [] })
  else (0, w)

def close (o : ℕ) (w : World) : ℤ × World :=
  let (failure, w) := shutDown env o w
  let (rc, native) := NativePads.close (env.native o) (w.objects o).native
  let w := serve env (w.update o fun x => { x with native := native, nativeError := rc })
  let w := if 0 ≤ rc ∧ w.active = some o then { w with active := none } else w
  (if rc < 0 then rc else failure, w)

/-! ### Calls -/

inductive Call
  | initializeInput (object : ℕ) (backgroundEvents : Bool)
  | poll (object : ℕ)
  | close (object : ℕ)
  /-- A callback between the calls of the guest. -/
  | callback (callback : Callback)

def step (w : World) : Call → World
  | .initializeInput o backgroundEvents => (initializeInput env o backgroundEvents w).2
  | .poll o => (poll env o w).2
  | .close o => (close env o w).2
  | .callback c => deliver env w c

def run (w : World) (calls : List Call) : World := calls.foldl (step env) w

def Object.start : Object where
  native := .start
  pads _ := ⟨0, false, false⟩
  targets _ := ⟨none, 0, -1, -1⟩
  events := []
  autopilot := false
  initialized := false
  nativeError := 0

/-- Nothing is initialized; the numbers of devices start at one. -/
def World.start : World := ⟨fun _ => .start, none, 1, none, 0, []⟩

end Input.AuroraInput
