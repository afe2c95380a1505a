import Mathlib.Algebra.Order.Ring.Nat
import Mathlib.Data.Nat.Notation
import Mathlib.Logic.Function.Basic

/-!
# The fast clock

`fast_clock.h`: nanoseconds derived from a cheap counter, with an anchor that readers move to the
time of the kernel now and then. Callers take one atomic step after another, in any order, and see
the memory as it is at each step.
-/

namespace Runtime.FastMonotonicClock

structure FastClockSources where
  frequency : UInt64
  positive : 0 < frequency

/-- The sources, and `resyncTicks_`. -/
structure Clock where
  sources : FastClockSources
  resyncTicks : UInt64

namespace Clock

/-- `ticks_for`. -/
def ticksFor (nanos frequency : UInt64) : UInt64 :=
  let ticks := nanos.toNat * frequency.toNat / 1000000000
  if ticks ≠ 0 then UInt64.ofNat ticks else 1

def make (sources : FastClockSources) (resyncNanos : UInt64) : Clock :=
  ⟨sources, ticksFor resyncNanos sources.frequency⟩

variable (clock : Clock)

/-- Ticks to nanoseconds. -/
def scale (ticks : UInt64) : UInt64 :=
  UInt64.ofNat (ticks.toNat * 1000000000 / clock.sources.frequency.toNat)

/-- `elapsed` of `now_nanos`. -/
def elapsed (counter baseCounter : UInt64) : UInt64 :=
  if counter > baseCounter then counter - baseCounter else 0

end Clock

/-- The locals of `resync` once both sources were read. -/
structure Anchor where
  counterAfter : UInt64
  anchor : UInt64
  base : UInt64

/-- Locals of a call, before its next operation on a source or on the memory of the clock. -/
inductive Pc
  | idle
  | counter
  | sequence (counter : UInt64)
  | baseCounter (counter sequence : UInt64)
  | baseNanos (counter sequence baseCounter : UInt64)
  | check (counter sequence baseCounter baseNanos : UInt64)
  | testAndSet (counter nanos : UInt64)
  | slowNanos (counterBefore : UInt64)
  | counterAfter (counterBefore real : UInt64)
  | load (locals : Anchor)
  | storeOdd (locals : Anchor) (sequence : UInt64)
  | storeCounter (locals : Anchor) (sequence : UInt64)
  | storeNanos (locals : Anchor) (sequence : UInt64)
  | storeEven (locals : Anchor) (sequence : UInt64)
  | fetchAdd (locals : Anchor)
  | clear (nanos : UInt64)
  | last (nanos : UInt64)
  | exchange (nanos previous : UInt64)
  | done (value : UInt64)

/-- From `test_and_set` to `clear`. -/
def Pc.resyncing : Pc → Bool
  | .slowNanos _ => true
  | .counterAfter _ _ => true
  | .load _ => true
  | .storeOdd _ _ => true
  | .storeCounter _ _ => true
  | .storeNanos _ _ => true
  | .storeEven _ _ => true
  | .fetchAdd _ => true
  | .clear _ => true
  | _ => false

/-- What happens to the clock. -/
inductive Event (τ : Type*)
  | constructed (baseCounter baseNanos : UInt64)
  | called (thread : τ)
  /-- A reader has loaded the sequence. -/
  | loaded (thread : τ)
  /-- A resync has stored its anchor. -/
  | published (baseCounter baseNanos : UInt64)
  /-- A caller computes nanoseconds from these bases. -/
  | computed (thread : τ) (baseCounter baseNanos : UInt64)
  | returned (thread : τ) (value : UInt64)

/-- The atomics of the clock, what was last read from the counter, and the history. -/
structure Memory (τ : Type*) where
  sequence : UInt64
  baseCounter : UInt64
  baseNanos : UInt64
  last : UInt64
  resyncs : UInt64
  resyncing : Bool
  counter : UInt64
  log : List (Event τ)

structure World (τ : Type*) where
  memory : Memory τ
  threads : τ → Pc

/-- A thread takes its next step. A source that it reads answers `value`, where the counter does not
go back; a weak exchange may fail without a reason. -/
structure Choice (τ : Type*) where
  thread : τ
  value : UInt64
  spurious : Bool

variable {τ : Type*} (clock : Clock)

namespace Memory

variable (m : Memory τ)

/-- The counter never goes back. -/
def tick (value : UInt64) : Memory τ := { m with counter := max m.counter value }

def note (e : Event τ) : Memory τ := { m with log := e :: m.log }

end Memory

/-- The loop of the final clamp goes on as long as the clock is behind. -/
def clamp (nanos previous : UInt64) : Pc :=
  if nanos > previous then .exchange nanos previous else .done previous

/-- One step of a call by the thread `t`. -/
def act (t : τ) (value : UInt64) (spurious : Bool) (m : Memory τ) : Pc → Memory τ × Pc
  | .idle => (m.note (.called t), .counter)
  | .counter => (m.tick value, .sequence (m.tick value).counter)
  | .sequence counter => (m.note (.loaded t), .baseCounter counter m.sequence)
  | .baseCounter counter sequence => (m, .baseNanos counter sequence m.baseCounter)
  | .baseNanos counter sequence baseCounter =>
    if sequence &&& 1 = 1 then (m, .sequence counter)
    else (m, .check counter sequence baseCounter m.baseNanos)
  | .check counter sequence baseCounter baseNanos =>
    if sequence ≠ m.sequence then (m, .sequence counter)
    else
      let elapsed := Clock.elapsed counter baseCounter
      let nanos := baseNanos + clock.scale elapsed
      (m.note (.computed t baseCounter baseNanos),
        if elapsed ≥ clock.resyncTicks then .testAndSet counter nanos else .last nanos)
  | .testAndSet counter nanos =>
    if m.resyncing then (m, .last nanos) else ({ m with resyncing := true }, .slowNanos counter)
  | .slowNanos counterBefore => (m, .counterAfter counterBefore value)
  | .counterAfter counterBefore real =>
    let counterAfter := (m.tick value).counter
    (m.tick value,
      .load ⟨counterAfter, counterBefore + (counterAfter - counterBefore) / 2, real⟩)
  | .load locals => (m, .storeOdd locals m.sequence)
  | .storeOdd locals sequence => ({ m with sequence := sequence + 1 }, .storeCounter locals sequence)
  | .storeCounter locals sequence =>
    ({ m with baseCounter := locals.anchor }, .storeNanos locals sequence)
  | .storeNanos locals sequence => ({ m with baseNanos := locals.base }, .storeEven locals sequence)
  | .storeEven locals sequence =>
    (({ m with sequence := sequence + 2 } : Memory τ).note (.published locals.anchor locals.base),
      .fetchAdd locals)
  | .fetchAdd locals =>
    (({ m with resyncs := m.resyncs + 1 } : Memory τ).note
        (.computed t locals.anchor locals.base),
      .clear (locals.base + clock.scale (Clock.elapsed locals.counterAfter locals.anchor)))
  | .clear nanos => ({ m with resyncing := false }, .last nanos)
  | .last nanos => (m, clamp nanos m.last)
  | .exchange nanos previous =>
    if m.last = previous ∧ spurious = false then ({ m with last := nanos }, .done nanos)
    else (m, clamp nanos m.last)
  | .done value => (m.note (.returned t value), .idle)

variable [DecidableEq τ]

def step (w : World τ) (c : Choice τ) : World τ :=
  let r := act clock c.thread c.value c.spurious w.memory (w.threads c.thread)
  ⟨r.1, Function.update w.threads c.thread r.2⟩

/-- The constructor, with what it reads from the sources. -/
def construct (before nanos after : UInt64) : World τ :=
  let after := max before after
  let baseCounter := before + (after - before) / 2
  { memory :=
      { sequence := 0
        baseCounter := baseCounter
        baseNanos := nanos
        last := nanos
        resyncs := 0
        resyncing := false
        counter := after
        log := [.constructed baseCounter nanos] }
    threads := fun _ => .idle }

def run (w : World τ) (choices : List (Choice τ)) : World τ := choices.foldl (step clock) w

end Runtime.FastMonotonicClock
