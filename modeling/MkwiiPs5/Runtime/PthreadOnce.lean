import Mathlib.Data.Nat.Notation
import Mathlib.Logic.Function.Basic
import Mathlib.Logic.Relation
import MkwiiPs5.History

/-!
# One-time initialization

`pthread_once` of `cxx_platform_ps5.cpp`, which the repository implements itself on one atomic word.
Any number of threads call it, in any order, and the callback of a call may throw.
-/

namespace Runtime.PthreadOnce

/-- Where a call is, before its next operation on the word. -/
inductive Pc
  | idle
  | load
  | exchange
  | callback
  | undo
  | publish
  | sleep
  deriving DecidableEq

/-- What a thread that runs the callback has not finished yet. -/
def Pc.holds : Pc → Bool
  | .callback => true
  | .undo => true
  | .publish => true
  | _ => false

/-- What happens to the word. -/
inductive Event (τ : Type*)
  | called (thread : τ)
  /-- The callback begins, and then it returns or throws. -/
  | began (thread : τ)
  | completed (thread : τ)
  | threw (thread : τ)
  /-- The call returns 0, or throws. -/
  | returned (thread : τ)
  | rethrown (thread : τ)

/-- `once->state`, where each call is, and the history. -/
structure World (τ : Type*) where
  state : ℕ
  threads : τ → Pc
  log : List (Event τ)

/-- A thread takes its next step; a callback that ends may throw. -/
structure Choice (τ : Type*) where
  thread : τ
  throws : Bool

variable {τ : Type*}

section Steps

variable [DecidableEq τ]

/-- The thread goes on at `pc`. -/
def World.moved (w : World τ) (t : τ) (pc : Pc) : World τ :=
  { w with threads := Function.update w.threads t pc }

def World.record (w : World τ) (e : Event τ) : World τ := { w with log := e :: w.log }

def World.store (w : World τ) (state : ℕ) : World τ := { w with state := state }

/-- One step of a call of `pthread_once`. -/
def step (c : Choice τ) (w : World τ) : World τ :=
  let t := c.thread
  match w.threads t with
  | .idle => (w.moved t .load).record (.called t)
  | .load =>
    if w.state = 2 then (w.moved t .idle).record (.returned t)
    else if w.state = 0 then w.moved t .exchange
    else w.moved t .sleep
  | .exchange =>
    if w.state = 0 then ((w.moved t .callback).store 1).record (.began t) else w.moved t .sleep
  | .callback =>
    if c.throws then (w.moved t .undo).record (.threw t)
    else (w.moved t .publish).record (.completed t)
  | .undo => ((w.moved t .idle).store 0).record (.rethrown t)
  | .publish => ((w.moved t .idle).store 2).record (.returned t)
  | .sleep => w.moved t .load

end Steps

/-- The word as it is initialized, before any call. -/
def World.fresh : World τ := ⟨0, fun _ => .idle, []⟩

def Reaches [DecidableEq τ] : World τ → World τ → Prop := Relation.ReflTransGen fun w w' => ∃ c, w' = step c w

/-! ### What callers rely on -/

/-- What the history says of the callback. -/
inductive Phase (τ : Type*)
  | fresh
  | running (thread : τ)
  | failing (thread : τ)
  | finished

/-- The last event that says something of the callback. -/
def phase : List (Event τ) → Phase τ
  | [] => .fresh
  | .began t :: _ => .running t
  | .completed _ :: _ => .finished
  | .threw t :: _ => .failing t
  | .rethrown _ :: _ => .fresh
  | .called _ :: past => phase past
  | .returned _ :: past => phase past

/-- A callback begins when none has begun, or every one that did has thrown to its caller; it ends
once; and a call returns only after one has completed. -/
def Event.Safe : Event τ → List (Event τ) → Prop
  | .called _, _ => True
  | .began _, past => phase past = .fresh
  | .completed t, past => phase past = .running t
  | .threw t, past => phase past = .running t
  | .returned _, past => phase past = .finished
  | .rethrown t, past => phase past = .failing t

/-- The callbacks that completed. -/
def completions : List (Event τ) → ℕ
  | [] => 0
  | .completed _ :: past => completions past + 1
  | _ :: past => completions past

def Phase.completions : Phase τ → ℕ
  | .finished => 1
  | _ => 0

/-- In a safe history the callback completes once, if it does. -/
theorem completions_eq {log : List (Event τ)} (h : History.Ok Event.Safe log) :
    completions log = (phase log).completions := by
  induction log with
  | nil => rfl
  | cons e past ih =>
    obtain ⟨hsafe, hpast⟩ := h
    have hpast := ih hpast
    cases e with
    | called t => exact hpast
    | returned t => exact hpast
    | began t =>
      rw [show phase past = .fresh from hsafe] at hpast
      exact hpast
    | completed t =>
      rw [show phase past = .running t from hsafe] at hpast
      exact congrArg (· + 1) hpast
    | threw t =>
      rw [show phase past = .running t from hsafe] at hpast
      exact hpast
    | rethrown t =>
      rw [show phase past = .failing t from hsafe] at hpast
      exact hpast

/-! ### The invariant -/

/-- No thread but `t` runs the callback. -/
def World.Alone (w : World τ) (t : τ) : Prop := ∀ u, u ≠ t → (w.threads u).holds = false

/-- No thread runs the callback. -/
def World.Free (w : World τ) : Prop := ∀ u, (w.threads u).holds = false

/-- The word and the threads are where the history says. -/
def World.Agrees (w : World τ) : Prop :=
  match phase w.log with
  | .fresh => w.state = 0 ∧ w.Free
  | .running t => w.state = 1 ∧ w.threads t = .callback ∧ w.Alone t
  | .failing t => w.state = 1 ∧ w.threads t = .undo ∧ w.Alone t
  | .finished =>
    w.state = 2 ∧ w.Free ∨ w.state = 1 ∧ ∃ t, w.threads t = .publish ∧ w.Alone t

structure World.Ok (w : World τ) : Prop where
  history : History.Ok Event.Safe w.log
  agrees : w.Agrees

variable {w : World τ} {t : τ} {pc : Pc}

theorem World.Free.alone (h : w.Free) (t : τ) : w.Alone t := fun u _ => h u

/-- Where the word is 0, a callback may begin. -/
theorem World.Agrees.of_zero (h : w.Agrees) (hstate : w.state = 0) :
    phase w.log = .fresh ∧ w.Free := by
  rw [Agrees] at h
  split at h
  · next hphase => exact ⟨hphase, h.2⟩
  all_goals omega

/-- Where the word is 2, one has completed. -/
theorem World.Agrees.of_two (h : w.Agrees) (hstate : w.state = 2) :
    phase w.log = .finished ∧ w.Free := by
  rw [Agrees] at h
  split at h
  · omega
  · omega
  · omega
  · next hphase =>
    rcases h with ⟨-, hfree⟩ | ⟨hone, -⟩
    · exact ⟨hphase, hfree⟩
    · omega

/-- A thread that runs the callback is the one that the history names. -/
theorem World.Agrees.of_holds (h : w.Agrees) (ht : (w.threads t).holds = true) :
    w.state = 1 ∧ w.Alone t ∧ (w.threads t = .callback ∧ phase w.log = .running t ∨
      w.threads t = .undo ∧ phase w.log = .failing t ∨
      w.threads t = .publish ∧ phase w.log = .finished) := by
  have hsame : ∀ {u : τ}, w.Alone u → u = t := fun halone => by
    by_contra hne
    exact absurd ht (by rw [halone t (Ne.symm hne)]; exact Bool.false_ne_true)
  rw [Agrees] at h
  split at h
  · exact absurd ht (by rw [h.2 t]; exact Bool.false_ne_true)
  · next u hphase =>
    obtain ⟨hstate, hpc, halone⟩ := h
    obtain rfl := hsame halone
    exact ⟨hstate, halone, Or.inl ⟨hpc, hphase⟩⟩
  · next u hphase =>
    obtain ⟨hstate, hpc, halone⟩ := h
    obtain rfl := hsame halone
    exact ⟨hstate, halone, Or.inr (Or.inl ⟨hpc, hphase⟩)⟩
  · next hphase =>
    rcases h with ⟨-, hfree⟩ | ⟨hstate, u, hpc, halone⟩
    · exact absurd ht (by rw [hfree t]; exact Bool.false_ne_true)
    · obtain rfl := hsame halone
      exact ⟨hstate, halone, Or.inr (Or.inr ⟨hpc, hphase⟩)⟩

variable [DecidableEq τ]

theorem World.moved_self (w : World τ) (t : τ) (pc : Pc) : (w.moved t pc).threads t = pc := by
  simp [moved]

theorem World.moved_of_ne {u : τ} (w : World τ) (pc : Pc) (h : u ≠ t) :
    (w.moved t pc).threads u = w.threads u := by
  simp [moved, h]

theorem World.Free.moved (h : w.Free) (hpc : pc.holds = false) : (w.moved t pc).Free := by
  intro u
  by_cases hu : u = t
  · rw [hu, w.moved_self]
    exact hpc
  · rw [w.moved_of_ne pc hu]
    exact h u

theorem World.Alone.moved_self (h : w.Alone t) (pc : Pc) : (w.moved t pc).Alone t := by
  intro u hu
  rw [w.moved_of_ne pc hu]
  exact h u hu

theorem World.Alone.free (h : w.Alone t) (hpc : pc.holds = false) : (w.moved t pc).Free := by
  intro u
  by_cases hu : u = t
  · rw [hu, w.moved_self]
    exact hpc
  · rw [w.moved_of_ne pc hu]
    exact h u hu

theorem World.Alone.moved {u : τ} (h : w.Alone u) (hpc : pc.holds = false) :
    (w.moved t pc).Alone u := by
  intro v hv
  by_cases hvt : v = t
  · rw [hvt, w.moved_self]
    exact hpc
  · rw [w.moved_of_ne pc hvt]
    exact h v hv

/-- A thread that does not run the callback goes on, and the history says nothing new of it. -/
theorem World.Agrees.moved (h : w.Agrees) (ht : (w.threads t).holds = false)
    (hpc : pc.holds = false) : (w.moved t pc).Agrees := by
  have hother : ∀ {u : τ}, (w.threads u).holds = true → (w.moved t pc).threads u = w.threads u :=
    fun hu => w.moved_of_ne pc fun heq => by
      rw [heq, ht] at hu
      cases hu
  rw [Agrees] at h ⊢
  change match phase w.log with
    | .fresh => w.state = 0 ∧ (w.moved t pc).Free
    | .running u => w.state = 1 ∧ (w.moved t pc).threads u = .callback ∧ (w.moved t pc).Alone u
    | .failing u => w.state = 1 ∧ (w.moved t pc).threads u = .undo ∧ (w.moved t pc).Alone u
    | .finished => w.state = 2 ∧ (w.moved t pc).Free ∨
      w.state = 1 ∧ ∃ u, (w.moved t pc).threads u = .publish ∧ (w.moved t pc).Alone u
  split at h
  · exact ⟨h.1, h.2.moved hpc⟩
  · obtain ⟨hstate, hu, halone⟩ := h
    exact ⟨hstate, (hother (by rw [hu]; rfl)).trans hu, halone.moved hpc⟩
  · obtain ⟨hstate, hu, halone⟩ := h
    exact ⟨hstate, (hother (by rw [hu]; rfl)).trans hu, halone.moved hpc⟩
  · rcases h with ⟨hstate, hfree⟩ | ⟨hstate, u, hu, halone⟩
    · exact Or.inl ⟨hstate, hfree.moved hpc⟩
    · exact Or.inr ⟨hstate, u, (hother (by rw [hu]; rfl)).trans hu, halone.moved hpc⟩

theorem step_ok (c : Choice τ) (h : w.Ok) : (step c w).Ok := by
  obtain ⟨hhistory, hagrees⟩ := h
  rw [step]
  cases hpc : w.threads c.thread with
  | idle => exact ⟨⟨trivial, hhistory⟩, hagrees.moved (by rw [hpc]; rfl) rfl⟩
  | load =>
    dsimp only
    split
    · next htwo =>
      exact ⟨⟨(hagrees.of_two htwo).1, hhistory⟩, hagrees.moved (by rw [hpc]; rfl) rfl⟩
    · split
      · exact ⟨hhistory, hagrees.moved (by rw [hpc]; rfl) rfl⟩
      · exact ⟨hhistory, hagrees.moved (by rw [hpc]; rfl) rfl⟩
  | exchange =>
    dsimp only
    split
    · next hzero =>
      -- the exchange succeeds: no other thread can be in the callback
      obtain ⟨hphase, hfree⟩ := hagrees.of_zero hzero
      exact ⟨⟨hphase, hhistory⟩, rfl, w.moved_self _ _, (hfree.alone _).moved_self _⟩
    · exact ⟨hhistory, hagrees.moved (by rw [hpc]; rfl) rfl⟩
  | callback =>
    obtain ⟨hstate, halone, hcases⟩ := hagrees.of_holds (t := c.thread) (by rw [hpc]; rfl)
    have hphase : phase w.log = .running c.thread := by
      rcases hcases with ⟨-, hphase⟩ | ⟨hpc', -⟩ | ⟨hpc', -⟩
      · exact hphase
      · cases hpc.symm.trans hpc'
      · cases hpc.symm.trans hpc'
    dsimp only
    split
    · exact ⟨⟨hphase, hhistory⟩, hstate, w.moved_self _ _, halone.moved_self _⟩
    · exact ⟨⟨hphase, hhistory⟩, Or.inr ⟨hstate, c.thread, w.moved_self _ _, halone.moved_self _⟩⟩
  | undo =>
    obtain ⟨hstate, halone, hcases⟩ := hagrees.of_holds (t := c.thread) (by rw [hpc]; rfl)
    have hphase : phase w.log = .failing c.thread := by
      rcases hcases with ⟨hpc', -⟩ | ⟨-, hphase⟩ | ⟨hpc', -⟩
      · cases hpc.symm.trans hpc'
      · exact hphase
      · cases hpc.symm.trans hpc'
    exact ⟨⟨hphase, hhistory⟩, rfl, halone.free rfl⟩
  | publish =>
    obtain ⟨hstate, halone, hcases⟩ := hagrees.of_holds (t := c.thread) (by rw [hpc]; rfl)
    have hphase : phase w.log = .finished := by
      rcases hcases with ⟨hpc', -⟩ | ⟨hpc', -⟩ | ⟨-, hphase⟩
      · cases hpc.symm.trans hpc'
      · cases hpc.symm.trans hpc'
      · exact hphase
    refine ⟨⟨hphase, hhistory⟩, ?_⟩
    change match phase w.log with
      | .fresh => _
      | .running u => _
      | .failing u => _
      | .finished => _
    rw [hphase]
    exact Or.inl ⟨rfl, halone.free rfl⟩
  | sleep => exact ⟨hhistory, hagrees.moved (by rw [hpc]; rfl) rfl⟩

theorem reaches_ok (h : Reaches .fresh w) : w.Ok := by
  induction h with
  | refl => exact ⟨trivial, rfl, fun _ => rfl⟩
  | tail _ hstep ih =>
    obtain ⟨c, rfl⟩ := hstep
    exact step_ok c ih

/-! ### Results -/

omit [DecidableEq τ] in
theorem completed_of_finished {log : List (Event τ)} (h : phase log = .finished) :
    ∃ u, Event.completed u ∈ log := by
  induction log with
  | nil => cases h
  | cons e past ih =>
    cases e with
    | called t => exact (ih h).imp fun _ => List.mem_cons_of_mem _
    | returned t => exact (ih h).imp fun _ => List.mem_cons_of_mem _
    | completed t => exact ⟨t, List.mem_cons_self⟩
    | began t => cases h
    | threw t => cases h
    | rethrown t => cases h

omit [DecidableEq τ] in
/-- The word is 1 exactly while a thread runs the callback or stores what came of it. -/
theorem World.Agrees.one_iff (h : w.Agrees) : w.state = 1 ↔ ∃ t, (w.threads t).holds = true := by
  constructor
  · intro hone
    rw [Agrees] at h
    split at h
    · omega
    · next t _ => exact ⟨t, by rw [h.2.1]; rfl⟩
    · next t _ => exact ⟨t, by rw [h.2.1]; rfl⟩
    · rcases h with ⟨htwo, -⟩ | ⟨-, t, ht, -⟩
      · omega
      · exact ⟨t, by rw [ht]; rfl⟩
  · rintro ⟨t, ht⟩
    exact (h.of_holds ht).1

omit [DecidableEq τ] in
theorem World.Agrees.state_le (h : w.Agrees) : w.state ≤ 2 := by
  rw [Agrees] at h
  split at h <;> omega

/-- A call goes to sleep while some thread runs the callback; one whose exchange failed may also do
so after the callback has completed, and then returns at its next load. -/
theorem World.Agrees.sleeps (h : w.Agrees) (c : Choice τ)
    (hsleep : (step c w).threads c.thread = .sleep) :
    (∃ t, (w.threads t).holds = true) ∨
      w.threads c.thread = .exchange ∧ ∃ u, .completed u ∈ w.log := by
  have hle := h.state_le
  rw [← h.one_iff]
  rw [step] at hsleep
  cases hpc : w.threads c.thread with
  | load =>
    rw [hpc] at hsleep
    dsimp only at hsleep
    split at hsleep
    · cases (w.moved_self c.thread .idle).symm.trans hsleep
    · split at hsleep
      · cases (w.moved_self c.thread .exchange).symm.trans hsleep
      · omega
  | exchange =>
    rw [hpc] at hsleep
    dsimp only at hsleep
    split at hsleep
    · cases (w.moved_self c.thread .callback).symm.trans hsleep
    · by_cases hone : w.state = 1
      · exact Or.inl hone
      · -- another thread took the word and published between the load and the exchange
        exact Or.inr ⟨rfl, completed_of_finished (h.of_two (by omega)).1⟩
  | callback =>
    rw [hpc] at hsleep
    dsimp only at hsleep
    split at hsleep
    · cases (w.moved_self c.thread .undo).symm.trans hsleep
    · cases (w.moved_self c.thread .publish).symm.trans hsleep
  | idle =>
    rw [hpc] at hsleep
    cases (w.moved_self c.thread .load).symm.trans hsleep
  | undo =>
    rw [hpc] at hsleep
    cases (w.moved_self c.thread .idle).symm.trans hsleep
  | publish =>
    rw [hpc] at hsleep
    cases (w.moved_self c.thread .idle).symm.trans hsleep
  | sleep =>
    rw [hpc] at hsleep
    cases (w.moved_self c.thread .load).symm.trans hsleep

/-- In every interleaving: no two threads run the callback at a time; it completes at most once, and
does not begin again after that; a call returns only after it has completed, and one that throws is
the one whose callback threw. A call that loads the word goes on at once unless some thread runs the
callback; after a failed exchange it may sleep once more although the callback has completed. -/
theorem pthread_once_protocol {w : World τ} (h : Reaches .fresh w) :
    History.Ok Event.Safe w.log ∧ completions w.log ≤ 1 ∧
    (∀ t u, (w.threads t).holds = true → (w.threads u).holds = true → t = u) ∧
    (∀ after t before, w.log = after ++ .began t :: before → completions before = 0) ∧
    (∀ after t before, w.log = after ++ .returned t :: before → ∃ u, .completed u ∈ before) ∧
    (w.state = 1 ↔ ∃ t, (w.threads t).holds = true) ∧
    (∀ c : Choice τ, w.threads c.thread = .load →
      (w.state = 2 → (step c w).log = .returned c.thread :: w.log) ∧
      (w.state = 0 → (step c (step c w)).log = .began c.thread :: w.log) ∧
      (w.state ≠ 0 → w.state ≠ 2 → ∃ t, (w.threads t).holds = true)) ∧
    ∀ c : Choice τ, (step c w).threads c.thread = .sleep →
      (∃ t, (w.threads t).holds = true) ∨
        w.threads c.thread = .exchange ∧ ∃ u, .completed u ∈ w.log := by
  obtain ⟨hhistory, hagrees⟩ := reaches_ok h
  refine ⟨hhistory, ?_, fun t u ht hu => ?_, fun after t before hlog => ?_,
    fun after t before hlog => ?_, hagrees.one_iff, fun c hc => ⟨fun htwo => ?_, fun hzero => ?_,
      fun hzero htwo => ?_⟩, hagrees.sleeps⟩
  · rw [completions_eq hhistory]
    cases phase w.log with
    | finished => exact Nat.le_refl 1
    | _ => exact Nat.zero_le 1
  · by_contra hne
    have hnot := (hagrees.of_holds hu).2.1 t hne
    exact Bool.false_ne_true (hnot.symm.trans ht)
  · rw [hlog] at hhistory
    obtain ⟨hsafe, hbefore⟩ := hhistory.of_append
    rw [completions_eq hbefore, show phase before = .fresh from hsafe]
    rfl
  · rw [hlog] at hhistory
    exact completed_of_finished hhistory.of_append.1
  · rw [step, hc]
    dsimp only
    rw [if_pos htwo]
    rfl
  · have hstep : step c w = w.moved c.thread .exchange := by
      rw [step, hc]
      dsimp only
      rw [if_neg (by omega), if_pos hzero]
    rw [hstep, step, w.moved_self]
    dsimp only
    rw [if_pos (show (w.moved c.thread .exchange).state = 0 from hzero)]
    rfl
  · rw [← hagrees.one_iff]
    have hle := hagrees.state_le
    omega

theorem reaches_foldl (choices : List (Choice τ)) {w : World τ} (h : Reaches .fresh w) :
    Reaches .fresh (choices.foldl (fun w c => step c w) w) := by
  induction choices generalizing w with
  | nil => exact h
  | cons c choices ih => exact ih (h.tail ⟨c, rfl⟩)

/-- Two threads load 0, the callback of the first one throws, and that of the second one completes. -/
theorem pthread_once_protocol_retry : ∃ w : World Bool, Reaches .fresh w ∧ w.state = 2 ∧
    w.log.length = 8 ∧ completions w.log ≤ 1 ∧
    ∀ after t before, w.log = after ++ .returned t :: before → ∃ u, .completed u ∈ before := by
  have hreaches := reaches_foldl [⟨true, false⟩, ⟨false, false⟩, ⟨true, false⟩, ⟨false, false⟩,
    ⟨true, false⟩, ⟨false, false⟩, ⟨true, true⟩, ⟨true, false⟩, ⟨false, false⟩, ⟨false, false⟩,
    ⟨false, false⟩, ⟨false, false⟩, ⟨false, false⟩] (w := World.fresh (τ := Bool)) .refl
  obtain ⟨-, hcompletions, -, -, hreturned, -⟩ := pthread_once_protocol hreaches
  exact ⟨_, hreaches, rfl, rfl, hcompletions, hreturned⟩

end Runtime.PthreadOnce
