import Mathlib.Algebra.Order.Ring.Nat
import Mathlib.Data.List.Basic
import Mathlib.Data.Nat.Notation
import Mathlib.Logic.Function.Basic

/-!
# The host context scheduler

`host_context_ps5.cpp` and the stack switch of `context_x86_64.S`. A saved stack pointer stands for
the stack it points into and the place where its code goes on; a state says whose stack the
processor is on. Switch calls and contexts are numbered so that they can be told apart.
-/

namespace HostContext

def Page : ℕ := 16384

/-- A `Context*`: the static context of the scheduler, or the address of a record in a mapping. -/
inductive Handle
  | scheduler
  | worker (address : ℕ)
deriving DecidableEq

/-- Where a suspended stack goes on. -/
inductive Resume
  | entry
  | inSwitch (source : Option Handle) (call : ℕ)
  | inEnter
deriving DecidableEq

structure SavedStack where
  stack : Handle
  resume : Resume
deriving DecidableEq

/-- `Context`, with the number of its creation. -/
structure Context where
  savedSp : Option SavedStack
  mapping : ℕ
  mappingSize : ℕ
  entry : ℕ
  argument : ℕ
  finished : Bool
  id : ℕ
deriving DecidableEq

/-- The statics of the scheduler, the records in memory by address, and the processor. -/
structure State where
  schedulerContext : Context
  workers : List (ℕ × Context)
  current : Option Handle
  ownerThread : Option ℕ
  workerCount : ℕ
  running : Handle
  switches : ℕ
  lastSwitch : Handle → ℕ
  created : ℕ

/-- Before `InitializeScheduler`; the processor is on the stack of the main thread. -/
def State.start : State where
  schedulerContext := ⟨none, 0, 0, 0, 0, false, 0⟩
  workers := []
  current := none
  ownerThread := none
  workerCount := 0
  running := .scheduler
  switches := 0
  lastSwitch _ := 0
  created := 1

/-- What a call came to: it returned on the stack that made it, or a numbered `Switch` call
returned on its stack, or a context was entered. -/
inductive Event
  | done
  | handle (result : Option Handle)
  | returned (stack : Handle) (call : ℕ)
  | entered (stack : Handle)
deriving DecidableEq

variable (s : State)

/-- The record that a pointer points to; none where it is dangling. -/
def State.record : Handle → Option Context
  | .scheduler => some s.schedulerContext
  | .worker address => (s.workers.find? (·.1 == address)).map (·.2)

/-- Updates the record that a pointer points to. -/
def State.update (h : Handle) (f : Context → Context) : State :=
  match h with
  | .scheduler => { s with schedulerContext := f s.schedulerContext }
  | .worker address => { s with
      workers := s.workers.map fun w => if w.1 = address then (w.1, f w.2) else w }

def State.onSchedulerThread (thread : ℕ) : Bool := s.ownerThread == some thread

/-- `mkw_ps5_context_switch`: saves the stack pointer in the record of `source`, then loads that of
`target`; the code found there goes on. None where a pointer dangles, nothing was saved, or
`Enter` would be resumed, which traps. -/
def contextSwitch (target source : Handle) (resume : Resume) : Option (State × Event) := do
  let _ ← s.record source
  let s := s.update source fun c => { c with savedSp := some ⟨s.running, resume⟩ }
  let destination ← s.record target
  let saved ← destination.savedSp
  let s := { s with running := saved.stack }
  match saved.resume with
  | .entry => some (s, .entered saved.stack)
  | .inSwitch source call => some ({ s with current := source }, .returned saved.stack call)
  | .inEnter => none

/-- `scheduler` says whether the caller passed a place for the handle. -/
def initializeScheduler (thread : ℕ) (scheduler : Bool) : Option (State × Event) :=
  if !scheduler then some (s, .handle none)
  else if s.ownerThread.isSome then some (s, .handle none)
  else some ({ s with
    ownerThread := some thread
    schedulerContext := { s.schedulerContext with savedSp := none, finished := false }
    current := some .scheduler }, .handle (some .scheduler))

def shutdownScheduler (thread : ℕ) (scheduler : Option Handle) : Option (State × Event) :=
  if !s.onSchedulerThread thread || scheduler != some .scheduler || s.current != some .scheduler ||
      s.workerCount != 0 then
    some (s, .done)
  else some ({ s with current := none, ownerThread := none }, .done)

/-- The stack of a context, rounded to pages. -/
def stackBytes (stackSize : ℕ) : ℕ := (stackSize + Page - 1) / Page * Page

/-- The record at the top of a new stack, with its address. -/
def newContext (stackSize entry argument mapping : ℕ) : ℕ × Context :=
  let top := mapping + Page + stackBytes stackSize
  (top,
    { savedSp := some ⟨.worker top, .entry⟩
      mapping := mapping
      mappingSize := stackBytes stackSize + 2 * Page
      entry := entry
      argument := argument
      finished := false
      id := s.created })

def State.add (w : ℕ × Context) : State :=
  { s with
    workers := w :: s.workers
    workerCount := s.workerCount + 1
    created := s.created + 1 }

def State.remove (address : ℕ) : State :=
  { s with
    workers := s.workers.filter (·.1 != address)
    workerCount := s.workerCount - 1 }

/-- `mapping` is what `sceKernelMapFlexibleMemory` gives and `protect` whether `sceKernelMprotect`
succeeds. -/
def create (thread stackSize entry argument : ℕ) (mapping : Option ℕ) (protect : Bool) :
    Option (State × Event) :=
  if !s.onSchedulerThread thread || entry == 0 || stackSize == 0 then some (s, .handle none)
  else if stackSize > 2 ^ 64 - 1 - 3 * Page then some (s, .handle none)
  else match mapping with
  | none => some (s, .handle none)
  | some mapping =>
    if !protect then some (s, .handle none)
    else
      let w := newContext s stackSize entry argument mapping
      some (s.add w, .handle (some (.worker w.1)))

def destroy (thread : ℕ) (handle : Option Handle) : Option (State × Event) :=
  if !s.onSchedulerThread thread || handle == none || handle == s.current ||
      handle == some .scheduler then
    some (s, .done)
  else match handle with
  | some (.worker address) => do
    let _ ← s.record (.worker address)
    some (s.remove address, .done)
  | _ => none

/-- `Switch`, called on the running stack. -/
def switch (thread : ℕ) (handle : Option Handle) : Option (State × Event) :=
  let call := s.switches
  let s := { s with switches := call + 1 }
  if !s.onSchedulerThread thread || handle == none || handle == s.current then
    some (s, .returned s.running call)
  else do
    let target ← handle
    let destination ← s.record target
    if destination.finished then some (s, .returned s.running call)
    else
      let source ← s.current
      contextSwitch
        { s with current := some target, lastSwitch := Function.update s.lastSwitch s.running call }
        target source (.inSwitch (some source) call)

/-- The entry function of the running context returns to `Enter`. -/
def entryReturns : Option (State × Event) :=
  let context := s.running
  let s := s.update context fun c => { c with finished := true }
  contextSwitch { s with current := some .scheduler } .scheduler context .inEnter

/-- A call, on a thread; the entry function returns on the running stack. -/
inductive Call
  | initializeScheduler (scheduler : Bool)
  | shutdownScheduler (scheduler : Option Handle)
  | create (stackSize entry argument : ℕ) (mapping : Option ℕ) (protect : Bool)
  | destroy (handle : Option Handle)
  | switch (handle : Option Handle)
  | entryReturns
deriving DecidableEq

def step (thread : ℕ) : Call → Option (State × Event)
  | .initializeScheduler scheduler => initializeScheduler s thread scheduler
  | .shutdownScheduler scheduler => shutdownScheduler s thread scheduler
  | .create stackSize entry argument mapping protect =>
    create s thread stackSize entry argument mapping protect
  | .destroy handle => destroy s thread handle
  | .switch handle => switch s thread handle
  | .entryReturns => entryReturns s

/-- Null, the scheduler, or a context that was created and not destroyed. -/
def State.Live (h : Option Handle) : Prop := ∀ h' ∈ h, (s.record h').isSome = true

/-- What callers and the kernel promise: handles are live, a new mapping meets no other, and an entry
function returns in a context that runs on the thread of the scheduler. -/
def State.Admits (thread : ℕ) : Call → Prop
  | .shutdownScheduler h => s.Live h
  | .destroy h => s.Live h
  | .switch h => s.Live h
  | .create stackSize _ _ mapping _ => ∀ m ∈ mapping, ∀ w ∈ s.workers,
      m + (stackBytes stackSize + 2 * Page) ≤ w.2.mapping ∨
      w.2.mapping + w.2.mappingSize ≤ m
  | .initializeScheduler _ => True
  | .entryReturns => s.ownerThread = some thread ∧ s.running ≠ .scheduler

end HostContext
