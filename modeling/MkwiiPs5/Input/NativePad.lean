import Mathlib.Data.List.FinRange
import Mathlib.Data.Vector.Basic
import Mathlib.Logic.Equiv.Basic
import MkwiiPs5.Bytes

/-!
# Native pads

`native_pad.cpp` and `pad_sample.cpp`: four slots with the pads of the users that are signed in. The
native services answer as they like; the log keeps what is opened, closed, released and vibrated.
-/

namespace Input

/-! ### Samples -/

structure PadSample where
  buttons : ℕ
  axes : List ℤ
  connected : Bool
  intercepted : Bool
  timestampMicroseconds : ℕ

def PadSample.none : PadSample := ⟨0, [0, 0, 0, 0, 0, 0], false, false, 0⟩

/-- An axis of a stick: both ends and the middle are exact. -/
def stickAxis (byte : UInt8) : ℤ :=
  let delta := (byte.toNat : ℤ) - 128
  if delta < 0 then delta * 256 else delta * 32767 / 127

def triggerAxis (byte : UInt8) : ℤ := (byte.toNat : ℤ) * 32767 / 255

/-- `decode_pad_sample`. -/
def decodePadSample (bytes : List UInt8) : PadSample :=
  if bytes.length < 88 then .none
  else
    let buttons := Bytes.ofLittle (Bytes.slice bytes 0 4)
    let connected := bytes.getD 76 0 ≠ 0
    let intercepted := buttons.testBit 31
    let timestamp := Bytes.ofLittle (Bytes.slice bytes 80 8)
    if ¬ connected ∨ intercepted then
      { PadSample.none with
        connected := connected
        intercepted := intercepted
        timestampMicroseconds := timestamp }
    else
      { buttons := buttons
        axes := (Bytes.slice bytes 4 4).map stickAxis ++ (Bytes.slice bytes 8 2).map triggerAxis
        connected := connected
        intercepted := intercepted
        timestampMicroseconds := timestamp }

namespace NativePads

def alreadyOpened : ℤ := 0x80920004 - 2 ^ 32
def notInitialized : ℤ := 0x80920005 - 2 ^ 32
def invalidArgument : ℤ := 0x80920001 - 2 ^ 32

/-! ### The state -/

structure PadSlot where
  user : ℤ
  handle : ℤ
  owned : Bool
  signedIn : Bool
  readResult : ℤ
  sample : PadSample
  vibrating : Bool

def PadSlot.empty : PadSlot := ⟨-1, -1, false, false, 0, .none, false⟩

inductive Event
  /-- A slot gets a handle: one that was opened for it, or one that it borrows. -/
  | opened (slot : Fin 4) (user handle : ℤ) (owned : Bool)
  | closed (slot : Fin 4) (handle result : ℤ)
  | vibrated (slot : Fin 4) (handle : ℤ) (low high : UInt8) (result : ℤ)
  /-- A slot is emptied. -/
  | released (slot : Fin 4)

/-- The answers of the native services, by when they are asked. -/
structure Environment where
  /-- The result, and the user that is written. -/
  initialUsers : ℕ → ℤ × Option ℤ
  inits : ℕ → ℤ
  loginLists : ℕ → ℤ × (Fin 4 → ℤ)
  opens : ℕ → ℤ
  handles : ℕ → ℤ
  closes : ℕ → ℤ
  reads : ℕ → ℤ × List.Vector UInt8 1024
  vibrations : ℕ → ℤ

structure World where
  slots : Fin 4 → PadSlot
  initialized : Bool
  initialUser : ℤ
  clock : ℕ
  log : List Event

/-- The number that a call returns, and the state that it leaves. -/
abbrev Result := ℤ × World

namespace World

def tick (w : World) : World := { w with clock := w.clock + 1 }

def note (w : World) (e : Event) : World := { w with log := e :: w.log }

def setSlot (w : World) (slot : Fin 4) (s : PadSlot) : World :=
  { w with slots := Function.update w.slots slot s }

/-- Nothing of what was read is exposed any more. -/
def hide (w : World) (slot : Fin 4) : World :=
  w.setSlot slot { w.slots slot with sample := .none, signedIn := false }

def release (w : World) (slot : Fin 4) : World := (w.setSlot slot .empty).note (.released slot)

end World

variable (env : Environment)

/-- `scePadSetVibration` for the handle of a slot. -/
def setVibration (w : World) (slot : Fin 4) (low high : UInt8) : Result :=
  let s := w.slots slot
  let rc := env.vibrations w.clock
  let w := w.tick.note (.vibrated slot s.handle low high rc)
  (rc, if 0 ≤ rc then w.setSlot slot { s with vibrating := low ≠ 0 ∨ high ≠ 0 } else w)

def stopSlot (w : World) (slot : Fin 4) : Result :=
  if ¬ (w.slots slot).vibrating ∨ (w.slots slot).handle < 0 then (0, w)
  else setVibration env w slot 0 0

/-- A handle that the class opened is closed; a slot that cannot be closed stays. -/
def closeHandle (w : World) (slot : Fin 4) : Result :=
  let s := w.slots slot
  if s.owned ∧ 0 ≤ s.handle then
    let rc := env.closes w.clock
    let w := w.tick.note (.closed slot s.handle rc)
    if rc < 0 then (rc, w) else (0, w.release slot)
  else (0, w.release slot)

def closeSlot (w : World) (slot : Fin 4) : Result :=
  let (stop, w) := stopSlot env (w.hide slot) slot
  if stop < 0 then (stop, w) else closeHandle env w slot

/-- The first failure of several calls. -/
def firstFailure (failure result : ℤ) : ℤ :=
  if result < 0 ∧ failure = 0 then result else failure

def closeSlots : List (Fin 4) → ℤ → World → Result
  | [], failure, w => (failure, w)
  | slot :: rest, failure, w =>
    let (rc, w) := closeSlot env w slot
    closeSlots rest (firstFailure failure rc) w

def close (w : World) : Result :=
  let (failure, w) := closeSlots env (List.finRange 4) 0 w
  (failure, if failure = 0 then { w with initialized := false } else w)

/-! ### Users -/

/-- The initial user changes places with the first. -/
def ordered (initialUser : ℤ) (users : Fin 4 → ℤ) : Fin 4 → ℤ :=
  match (List.finRange 4).find? fun k => users k = initialUser with
  | some k => if initialUser ≠ -1 then users ∘ Equiv.swap 0 k else users
  | none => users

/-- Slots whose users have signed out are closed. -/
def retireSlots (users : Fin 4 → ℤ) : List (Fin 4) → ℤ → World → Result
  | [], failure, w => (failure, w)
  | slot :: rest, failure, w =>
    let s := w.slots slot
    let signedIn : Bool := 0 ≤ s.handle ∧ ∃ k, users k = s.user
    let w := w.setSlot slot { s with signedIn := signedIn }
    if s.handle < 0 ∨ signedIn then retireSlots users rest failure w
    else
      let (rc, w) := closeSlot env w slot
      retireSlots users rest (firstFailure failure rc) w

def World.freeSlot (w : World) : Option (Fin 4) :=
  (List.finRange 4).find? fun slot => (w.slots slot).handle < 0

/-- A handle is noted where the system hands it out. -/
def World.handedOut (w : World) (slot : Fin 4) (user handle : ℤ) (owned : Bool) : World :=
  if handle < 0 then w else w.note (.opened slot user handle owned)

/-- The pad of a user is opened, or borrowed if somebody else has it open. -/
def openPad (w : World) (slot : Fin 4) (user : ℤ) : ℤ × Bool × World :=
  let handle := env.opens w.clock
  let w := w.tick
  if handle ≠ alreadyOpened then (handle, true, w.handedOut slot user handle true)
  else
    let handle := env.handles w.clock
    (handle, false, w.tick.handedOut slot user handle false)

def openSlot (w : World) (slot : Fin 4) (user : ℤ) : World :=
  let (handle, owned, w) := openPad env w slot user
  if handle < 0 then w else w.setSlot slot ⟨user, handle, owned, true, 0, .none, false⟩

/-- Users without a slot get one that is free. -/
def assignSlots : List ℤ → World → World
  | [], w => w
  | user :: users, w =>
    if user = -1 ∨ ∃ slot, (w.slots slot).user = user then assignSlots users w
    else
      match w.freeSlot with
      | none => w
      | some slot => assignSlots users (openSlot env w slot user)

/-- Without a list of users nothing is exposed. -/
def hideSlots : List (Fin 4) → World → World
  | [], w => w
  | slot :: rest, w => hideSlots rest ((stopSlot env w slot).2.hide slot)

def refresh (w : World) : Result :=
  if ¬ w.initialized then (notInitialized, w)
  else
    let (rc, listed) := env.loginLists w.clock
    let w := w.tick
    if rc < 0 then (rc, hideSlots env (List.finRange 4) w)
    else
      let users := ordered w.initialUser listed
      let (failure, w) := retireSlots env users (List.finRange 4) 0 w
      (failure, assignSlots env ((List.finRange 4).map users) w)

/-! ### Calls -/

/-- `sceUserServiceGetInitialUser`. -/
def queryInitialUser (w : World) : Result :=
  let (rc, user) := env.initialUsers w.clock
  (rc, { w.tick with initialUser := user.getD w.initialUser })

def initializePads (w : World) : Result :=
  if w.initialized then (0, w)
  else
    let (rc, w) := queryInitialUser env w
    if rc < 0 then (rc, w)
    else
      let rc := env.inits w.clock
      let w := w.tick
      if rc < 0 then (rc, w)
      else
        let (rc, w) := refresh env { w with initialized := true }
        (rc, if rc < 0 then (close env w).2 else w)

def readSlot (w : World) (slot : Fin 4) : World :=
  let w := w.setSlot slot { w.slots slot with sample := .none }
  let s := w.slots slot
  if ¬ w.initialized ∨ s.handle < 0 ∨ ¬ s.signedIn then w
  else
    let answer := env.reads w.clock
    let sample := if 0 ≤ answer.1 then decodePadSample answer.2.1 else .none
    let w := w.tick.setSlot slot { s with readResult := answer.1, sample := sample }
    if ¬ sample.connected ∨ sample.intercepted then (stopSlot env w slot).2 else w

def read (w : World) : World := (List.finRange 4).foldl (readSlot env) w

def vibrate (w : World) (slot : ℕ) (low high : UInt8) : Result :=
  if ¬ w.initialized then (notInitialized, w)
  else if h : slot < 4 then
    if (w.slots ⟨slot, h⟩).handle < 0 ∨ ¬ (w.slots ⟨slot, h⟩).signedIn then (invalidArgument, w)
    else setVibration env w ⟨slot, h⟩ low high
  else (invalidArgument, w)

inductive Call
  | initializePads
  | refresh
  | read
  | vibrate (slot : ℕ) (low high : UInt8)
  | close

def step (w : World) : Call → World
  | .initializePads => (initializePads env w).2
  | .refresh => (refresh env w).2
  | .read => read env w
  | .vibrate slot low high => (vibrate env w slot low high).2
  | .close => (close env w).2

def run (w : World) (calls : List Call) : World := calls.foldl (step env) w

def World.start : World where
  slots _ := .empty
  initialized := false
  initialUser := -1
  clock := 0
  log := []

end NativePads

end Input
