import MkwiiPs5.OpenAddressing

/-!
# Function profiler

`function_profiler_ps5.cpp`: the hooks of one thread, with the readings of the time-stamp counter that
each of them makes. The profiler is enabled; its reports are left out.
-/

namespace FunctionProfiler

def kTableBits : ℕ := 16
def kTableSize : ℕ := 65536
def kMaxDepth : ℕ := 2048

instance : NeZero kTableSize := ⟨by decide⟩

/-! ### Counters -/

def add64 (a b : ℕ) : ℕ := (a + b) % 2 ^ 64
def sub64 (a b : ℕ) : ℕ := (a + (2 ^ 64 - b)) % 2 ^ 64
def inc32 (a : ℕ) : ℕ := (a + 1) % 2 ^ 32
def dec32 (a : ℕ) : ℕ := (a + (2 ^ 32 - 1)) % 2 ^ 32

/-! ### The state of a thread -/

structure Stat where
  key : ℕ
  calls : ℕ
  childCalls : ℕ
  self : ℕ
  inclusive : ℕ
  active : ℕ

def Stat.zero : Stat := ⟨0, 0, 0, 0, 0, 0⟩

/-- An entry of the table, or the one that is shared by the keys that do not fit. -/
abbrev Entry := Option (Fin kTableSize)

structure Frame where
  stat : Entry
  enter : ℕ
  excludedAtEnter : ℕ
  outermost : Bool

/-- A shadow stack, with its frames from the top. -/
structure Stack where
  excluded : ℕ
  leftAt : ℕ
  overflow : ℕ
  frames : List Frame

def Stack.empty : Stack := ⟨0, 0, 0, []⟩

/-- The stacks are numbered as they are made. -/
structure ThreadState where
  stats : Entry → Stat
  shadows : ℕ → Stack
  made : ℕ
  stack : ℕ
  last : ℕ
  root : ℕ
  hook : ℕ
  events : ℕ
  unmatched : ℕ
  unwound : ℕ
  overflows : ℕ
  switches : ℕ

/-- The state that `state` makes. -/
def ThreadState.fresh (now : ℕ) : ThreadState :=
  ⟨fun _ => .zero, fun _ => .empty, 1, 0, now, 0, 0, 0, 0, 0, 0, 0⟩

namespace ThreadState

variable (s : ThreadState)

def setStat (e : Entry) (stat : Stat) : ThreadState :=
  { s with stats := Function.update s.stats e stat }

def setStack (j : ℕ) (stack : Stack) : ThreadState :=
  { s with shadows := Function.update s.shadows j stack }

/-- The stack of the fiber that runs. -/
def top : Stack := s.shadows s.stack

def keys (i : Fin kTableSize) : ℕ := (s.stats (some i)).key

end ThreadState

variable (s : ThreadState)

def hash (key : ℕ) : Fin kTableSize :=
  Fin.ofNat kTableSize (key * 0x9E3779B97F4A7C15 % 2 ^ 64 / 2 ^ (64 - kTableBits))

def find (key : ℕ) : Entry × ThreadState :=
  match OpenAddressing.find s.keys 0 hash key with
  | some i => (some i, s.setStat (some i) { s.stats (some i) with key := key })
  | none => (none, s)

def charge (now : ℕ) : ThreadState :=
  let delta := sub64 now s.last
  match s.top.frames with
  | f :: _ => s.setStat f.stat { s.stats f.stat with self := add64 (s.stats f.stat).self delta }
  | [] => { s with root := add64 s.root delta }

/-- `++stat->calls` and `++k->frames[k->depth - 1].stat->childCalls`. -/
def countCall (e : Entry) : ThreadState :=
  let s := s.setStat e { s.stats e with calls := add64 (s.stats e).calls 1 }
  match s.top.frames with
  | f :: _ =>
    s.setStat f.stat { s.stats f.stat with childCalls := add64 (s.stats f.stat).childCalls 1 }
  | [] => s

/-- A frame for an entry, if there is room for one. -/
def openFrame (e : Entry) (t0 : ℕ) : ThreadState :=
  let k := s.top
  if k.frames.length < kMaxDepth then
    let f : Frame := ⟨e, t0, k.excluded, (s.stats e).active == 0⟩
    let s := s.setStat e { s.stats e with active := inc32 (s.stats e).active }
    s.setStack s.stack { k with frames := f :: k.frames }
  else
    { s.setStack s.stack { k with overflow := inc32 k.overflow } with
      overflows := add64 s.overflows 1 }

def push (key t0 : ℕ) : ThreadState :=
  let s := charge s t0
  let (e, s) := find s key
  openFrame (countCall s e) e t0

def finalize (now : ℕ) : ThreadState :=
  let k := s.top
  match k.frames with
  | [] => s
  | f :: frames =>
    let time := sub64 (sub64 now f.enter) (sub64 k.excluded f.excludedAtEnter)
    let stat := s.stats f.stat
    let s := s.setStat f.stat { stat with
      active := dec32 stat.active
      inclusive := if f.outermost then add64 stat.inclusive time else stat.inclusive }
    s.setStack s.stack { k with frames := frames }

/-- `while (k->depth > i)`, for the number of frames above. -/
def unwind (now : ℕ) : ℕ → ThreadState → ThreadState
  | 0, s => s
  | n + 1, s =>
    let s := finalize s now
    unwind now n { s with unwound := add64 s.unwound 1 }

/-- What `pop` does once the time is charged. -/
def closeFrame (key t0 : ℕ) : ThreadState :=
  let k := s.top
  let matching := fun f : Frame => (s.stats f.stat).key == key
  if k.overflow ≠ 0 then s.setStack s.stack { k with overflow := dec32 k.overflow }
  else if k.frames.head?.any matching then finalize s t0
  else
    let above := k.frames.findIdx matching
    if above < k.frames.length then unwind t0 (above + 1) s
    else { s with unmatched := add64 s.unmatched 1 }

def pop (key t0 : ℕ) : ThreadState := closeFrame (charge s t0) key t0

def finishHook (t0 t1 : ℕ) : ThreadState :=
  let k := s.top
  { s.setStack s.stack { k with excluded := add64 k.excluded (sub64 t1 t0) } with
    hook := add64 s.hook (sub64 t1 t0)
    events := add64 s.events 1
    last := t1 }

/-! ### The hooks -/

/-- `state`, which reads the counter if it has to make the state. -/
def state (w : Option ThreadState) (now : ℕ) : ThreadState := w.getD (.fresh now)

/-- `__cyg_profile_func_enter` and `mkw_fprof_native_enter`. -/
def enterHook (w : Option ThreadState) (key t0 made t1 : ℕ) : ThreadState :=
  finishHook (push (state w made) key t0) t0 t1

/-- `__cyg_profile_func_exit` and `mkw_fprof_native_exit`. -/
def exitHook (w : Option ThreadState) (key t0 made t1 : ℕ) : ThreadState :=
  finishHook (pop (state w made) key t0) t0 t1

/-- `mkw_fprof_fiber_leave`: the fiber keeps the number of its stack. -/
def fiberLeave (w : Option ThreadState) (now : ℕ) : Option ThreadState :=
  w.map fun s =>
    let s := { charge s now with last := now }
    { s.setStack s.stack { s.top with leftAt := now } with switches := add64 s.switches 1 }

/-- `mkw_fprof_fiber_enter`, with the stack that the fiber kept, if it did. -/
def fiberEnter (w : Option ThreadState) (kept : Option ℕ) (now made : ℕ) : ThreadState :=
  let s := state w made
  match kept with
  | some j =>
    let k := s.shadows j
    { s.setStack j { k with excluded := add64 k.excluded (sub64 now k.leftAt) } with
      stack := j
      last := now }
  | none => { s.setStack s.made .empty with stack := s.made, made := s.made + 1, last := now }

/-- The hooks of a thread, with their readings: `made` is that of `state`, where it makes the state. A
switch leaves one fiber and enters the next. -/
inductive Hook
  | enter (key t0 made t1 : ℕ)
  | exit (key t0 made t1 : ℕ)
  | switch (kept : Option ℕ) (left entered made : ℕ)

def step (w : Option ThreadState) : Hook → ThreadState
  | .enter key t0 made t1 => enterHook w key t0 made t1
  | .exit key t0 made t1 => exitHook w key t0 made t1
  | .switch kept left entered made => fiberEnter (fiberLeave w left) kept entered made

def run : Option ThreadState → List Hook → Option ThreadState
  | w, [] => w
  | w, h :: trace => run (some (step w h)) trace

/-! ### Readings -/

namespace Hook

def start : Hook → ℕ
  | .enter _ t0 _ _ | .exit _ t0 _ _ => t0
  | .switch _ left _ _ => left

def finish : Hook → ℕ
  | .enter _ _ _ t1 | .exit _ _ _ t1 => t1
  | .switch _ _ entered _ => entered

/-- The time between leaving one fiber and entering the next. -/
def gap : Hook → ℕ
  | .enter .. | .exit .. => 0
  | .switch _ left entered _ => entered - left

/-- The readings are in order, after an earlier one. -/
def Ordered (now : ℕ) : Hook → Prop
  | .enter _ t0 made t1 | .exit _ t0 made t1 => now ≤ t0 ∧ t0 ≤ made ∧ made ≤ t1 ∧ t1 < 2 ^ 64
  | .switch _ left entered made =>
    now ≤ left ∧ left ≤ entered ∧ entered ≤ made ∧ made < 2 ^ 64

instance : (now : ℕ) → DecidablePred (Ordered now)
  | _, .enter .. | _, .exit .. | _, .switch .. => inferInstanceAs (Decidable (_ ∧ _ ∧ _ ∧ _))

end Hook

/-- The readings of a trace do not decrease. -/
def Ordered : ℕ → List Hook → Prop
  | _, [] => True
  | now, h :: trace => h.Ordered now ∧ Ordered h.finish trace

instance Ordered.decidable : (now : ℕ) → DecidablePred (Ordered now)
  | _, [] => .isTrue trivial
  | _, h :: trace =>
    have := Ordered.decidable h.finish trace
    inferInstanceAs (Decidable (_ ∧ _))

end FunctionProfiler
