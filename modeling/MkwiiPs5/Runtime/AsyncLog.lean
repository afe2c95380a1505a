import Mathlib.Algebra.Order.Ring.Nat
import Mathlib.Data.Nat.Notation
import MkwiiPs5.History

/-!
# The asynchronous log

`async_log.cpp`: lines wait in a bounded queue until one thread writes them, in batches. Pushes are
made under the lock, and come from any threads between any two steps of the writer.
-/

namespace Runtime.AsyncLog

def kQueueLimit : ℕ := 2 ^ 20
def kLineLimit : ℕ := 2048

/-- `kSlowWrite` in nanoseconds. -/
def kSlowWrite : UInt64 := 100000000

/-- What happens to the lines. -/
inductive Event
  | accepted (line : List UInt8)
  | rejected (line : List UInt8)
  /-- The writer takes everything that waits. -/
  | taken (batch : List UInt8)
  | wrote (bytes : List UInt8)
  /-- A write failed, and what the batch still held is given up. -/
  | lost (bytes : List UInt8)

/-- Where `run` stands. -/
inductive Phase
  | waiting
  | sleeping
  | writing (done : ℕ)
  | measuring
  | reporting (line : List UInt8)
  | clearing

/-- The queue, the local buffer of the writer, and what is in the file. -/
structure Queue where
  pending : List UInt8
  dropped : UInt64
  maxWriteNanos : UInt64
  writing : List UInt8
  phase : Phase
  file : List UInt8
  log : List Event

namespace Queue

variable (q : Queue)

def note (e : Event) : Queue := { q with log := e :: q.log }

/-- `push`. -/
def push (line : List UInt8) : Queue :=
  if q.pending.length + line.length > kQueueLimit then
    { q with dropped := q.dropped + 1 }.note (.rejected line)
  else { q with pending := q.pending ++ line }.note (.accepted line)

/-- `mkw_log`, where `vsnprintf` gives this text or fails. -/
def mkwLog (formatted : Option (List UInt8)) : Queue :=
  match formatted with
  | none => q
  | some text => if text.length ≤ 0 then q else q.push (text.take (kLineLimit - 1))

end Queue

/-- What the writer meets in a step: the answer of `write`, which never writes more than it is asked
to, how long the writes took, and how `printf` prints that in milliseconds. -/
structure Outcome where
  n : ℤ
  nanos : UInt64
  milliseconds : String

/-- The line about a slow write, in a buffer of 160 bytes. -/
def slowLine (size : ℕ) (milliseconds : String) : List UInt8 :=
  ("[mkw-log] writing " ++ toString size ++ " bytes to stderr took " ++ milliseconds ++
    " ms\n").toUTF8.toList.take 159

namespace Queue

variable (q : Queue)

/-- A step of `run`. -/
def work (o : Outcome) : Queue :=
  match q.phase with
  | .waiting => if q.pending.isEmpty then q else { q with phase := .sleeping }
  | .sleeping =>
    { q with writing := q.pending, pending := q.writing, phase := .writing 0 }.note (.taken q.pending)
  | .writing done =>
    if done < q.writing.length then
      if o.n ≤ 0 then { q with phase := .measuring }.note (.lost (q.writing.drop done))
      else
        let n := min o.n.toNat (q.writing.length - done)
        let bytes := (q.writing.drop done).take n
        { q with file := q.file ++ bytes, phase := .writing (done + n) }.note (.wrote bytes)
    else { q with phase := .measuring }
  | .measuring =>
    { q with
      maxWriteNanos := if o.nanos > q.maxWriteNanos then o.nanos else q.maxWriteNanos
      phase :=
        if o.nanos ≥ kSlowWrite then .reporting (slowLine q.writing.length o.milliseconds)
        else .clearing }
  | .reporting line => { q.push line with phase := .clearing }
  | .clearing => { q with writing := [], phase := .waiting }

/-- What the writer holds and has not written yet. -/
def rest : List UInt8 :=
  match q.phase with
  | .waiting => q.writing
  | .sleeping => q.writing
  | .writing done => q.writing.drop done
  | _ => []

end Queue

/-- A call of `mkw_log`, or a step of the writer. -/
inductive Step
  | log (formatted : Option (List UInt8))
  | work (outcome : Outcome)

def step (q : Queue) : Step → Queue
  | .log formatted => q.mkwLog formatted
  | .work outcome => q.work outcome

def start : Queue := ⟨[], 0, 0, [], .waiting, [], []⟩

def run (steps : List Step) : Queue := steps.foldl step start

/-! ### Histories -/

/-- The line that a step offers to the queue: the text of a call, cut at the limit, or what the writer
says about a slow write. -/
def Step.offered (q : Queue) : Step → Option (List UInt8)
  | .log none => none
  | .log (some text) => if text = [] then none else some (text.take (kLineLimit - 1))
  | .work _ =>
    match q.phase with
    | .reporting line => some line
    | _ => none

/-- A line is accepted if it fits behind the lines that wait. -/
def decision (waiting : List UInt8) (line : List UInt8) : Event :=
  if waiting.length + line.length ≤ kQueueLimit then .accepted line else .rejected line

/-- What was decided about the lines that were offered. -/
def decisions : List Event → List Event
  | [] => []
  | .accepted line :: past => .accepted line :: decisions past
  | .rejected line :: past => .rejected line :: decisions past
  | _ :: past => decisions past

/-- The bytes of all accepted lines, in the order of acceptance. -/
def accepted : List Event → List UInt8
  | [] => []
  | .accepted line :: past => accepted past ++ line
  | _ :: past => accepted past

def rejected : List Event → ℕ
  | [] => 0
  | .rejected _ :: past => rejected past + 1
  | _ :: past => rejected past

/-- What the writer has written or given up. -/
def gone : List Event → List UInt8
  | [] => []
  | .wrote bytes :: past => gone past ++ bytes
  | .lost bytes :: past => gone past ++ bytes
  | _ :: past => gone past

def written : List Event → List UInt8
  | [] => []
  | .wrote bytes :: past => written past ++ bytes
  | _ :: past => written past

/-- The batch that was last taken, and what was delivered of it. -/
def batch : List Event → List UInt8
  | [] => []
  | .taken bytes :: _ => bytes
  | _ :: past => batch past

def delivered : List Event → List UInt8
  | [] => []
  | .taken _ :: _ => []
  | .wrote bytes :: past => delivered past ++ bytes
  | _ :: past => delivered past

/-- A failed write loses what was not delivered of its batch. -/
def Event.Safe : Event → List Event → Prop
  | .lost bytes, past => delivered past ++ bytes = batch past
  | _, _ => True

theorem written_eq_gone {log : List Event} (h : ∀ bytes, Event.lost bytes ∉ log) :
    written log = gone log := by
  induction log with
  | nil => rfl
  | cons e past ih =>
    have hpast := ih fun bytes hmem => h bytes (List.mem_cons_of_mem e hmem)
    cases e with
    | wrote bytes => exact congrArg (· ++ bytes) hpast
    | lost bytes => exact absurd List.mem_cons_self (h bytes)
    | accepted line => exact hpast
    | rejected line => exact hpast
    | taken bytes => exact hpast

/-! ### Decisions -/

variable {q : Queue}

theorem push_decisions (q : Queue) (line : List UInt8) :
    decisions (q.push line).log = decision q.pending line :: decisions q.log := by
  rw [Queue.push, decision]
  by_cases hfull : q.pending.length + line.length > kQueueLimit
  · rw [if_pos hfull, if_neg (not_le.mpr hfull)]
    rfl
  · rw [if_neg hfull, if_pos (not_lt.mp hfull)]
    rfl

theorem mkwLog_decisions (q : Queue) (formatted : Option (List UInt8)) :
    decisions (q.mkwLog formatted).log =
      (((Step.log formatted).offered q).map (decision q.pending)).toList ++ decisions q.log := by
  cases formatted with
  | none => rfl
  | some text =>
    cases text with
    | nil => rfl
    | cons byte text => exact push_decisions q _

/-- The writer decides about a line of its own only. -/
theorem work_decisions (q : Queue) (o : Outcome) :
    decisions (q.work o).log =
      (((Step.work o).offered q).map (decision q.pending)).toList ++ decisions q.log := by
  rw [Queue.work, Step.offered]
  cases q.phase with
  | waiting =>
    dsimp only
    split <;> rfl
  | sleeping => rfl
  | writing done =>
    dsimp only
    split
    · split <;> rfl
    · rfl
  | measuring => rfl
  | reporting line => exact push_decisions q line
  | clearing => rfl

/-- A step decides about the line that it offers, and about no other. -/
theorem step_decisions (q : Queue) (s : Step) :
    decisions (step q s).log = ((s.offered q).map (decision q.pending)).toList ++ decisions q.log := by
  cases s with
  | log formatted => exact mkwLog_decisions q formatted
  | work outcome => exact work_decisions q outcome

theorem run_concat (steps : List Step) (s : Step) : run (steps ++ [s]) = step (run steps) s := by
  simp [run]

/-! ### Conservation -/

/-- What the phase of the writer says about its buffer. -/
def Phase.Holds (q : Queue) : Phase → Prop
  | .waiting => q.writing = []
  | .sleeping => q.writing = []
  | .writing done => delivered q.log = q.writing.take done ∧ batch q.log = q.writing
  | _ => True

structure Inv (q : Queue) : Prop where
  conserved : gone q.log ++ (q.rest ++ q.pending) = accepted q.log
  file : q.file = written q.log
  dropped : q.dropped = UInt64.ofNat (rejected q.log)
  bounded : q.pending.length ≤ kQueueLimit
  safe : History.Ok Event.Safe q.log
  phase : q.phase.Holds q

theorem inv_start : Inv start where
  conserved := rfl
  file := rfl
  dropped := rfl
  bounded := Nat.zero_le _
  safe := trivial
  phase := rfl

theorem Phase.Holds.push {phase : Phase} (h : phase.Holds q) (line : List UInt8) :
    phase.Holds (q.push line) := by
  rw [Queue.push]
  split <;> cases phase <;> exact h

theorem Queue.push_rest (q : Queue) (line : List UInt8) : (q.push line).rest = q.rest := by
  rw [Queue.push]
  split <;> rfl

theorem push_inv (h : Inv q) (line : List UInt8) : Inv (q.push line) := by
  have hphase : (q.push line).phase.Holds (q.push line) := by
    have hsame : (q.push line).phase = q.phase := by
      rw [Queue.push]
      split <;> rfl
    rw [hsame]
    exact h.phase.push line
  have hrest := q.push_rest line
  rw [Queue.push] at hphase hrest ⊢
  split at hphase
  next hfull =>
    rw [if_pos hfull] at hrest ⊢
    refine ⟨?_, h.file, ?_, h.bounded, ⟨trivial, h.safe⟩, hphase⟩
    · rw [hrest]
      exact h.conserved
    · show q.dropped + 1 = UInt64.ofNat (rejected q.log + 1)
      rw [h.dropped, UInt64.ofNat_add]
      rfl
  next hroom =>
    rw [if_neg hroom] at hrest ⊢
    refine ⟨?_, h.file, h.dropped, ?_, ⟨trivial, h.safe⟩, hphase⟩
    · rw [hrest]
      show gone q.log ++ (q.rest ++ (q.pending ++ line)) = accepted q.log ++ line
      rw [← h.conserved, List.append_assoc, List.append_assoc]
    · show (q.pending ++ line).length ≤ kQueueLimit
      rw [List.length_append]
      exact not_lt.mp hroom

theorem mkwLog_inv (h : Inv q) (formatted : Option (List UInt8)) : Inv (q.mkwLog formatted) := by
  cases formatted with
  | none => exact h
  | some text =>
    rw [Queue.mkwLog]
    split
    · exact h
    · exact push_inv h _

/-- A step of the writer that moves no bytes. -/
theorem inv_of_still (h : Inv q) (phase : Phase) (hphase : phase.Holds { q with phase := phase })
    (hrest : Queue.rest { q with phase := phase } = q.rest) : Inv { q with phase := phase } :=
  ⟨hrest ▸ h.conserved, h.file, h.dropped, h.bounded, h.safe, hphase⟩

theorem work_inv (h : Inv q) (o : Outcome) : Inv (q.work o) := by
  have hconserved := h.conserved
  have hphase := h.phase
  rw [Queue.work]
  cases hq : q.phase with
  | waiting =>
    rw [hq] at hphase
    dsimp only
    split
    · exact h
    · refine inv_of_still h .sleeping hphase ?_
      rw [Queue.rest, Queue.rest, hq]
  | sleeping =>
    -- the buffer of the writer is empty, so that the swap takes everything that waits
    rw [hq] at hphase
    have hempty : q.writing = [] := hphase
    rw [Queue.rest, hq, hempty] at hconserved
    refine ⟨?_, h.file, h.dropped, ?_, ⟨trivial, h.safe⟩, ⟨rfl, rfl⟩⟩
    · show gone q.log ++ (q.pending.drop 0 ++ q.writing) = accepted q.log
      rw [List.drop_zero, hempty, List.append_nil, ← hconserved]
      rfl
    · show q.writing.length ≤ kQueueLimit
      rw [hempty]
      exact Nat.zero_le _
  | writing done =>
    rw [hq] at hphase
    obtain ⟨hdelivered, hbatch⟩ := hphase
    rw [Queue.rest, hq] at hconserved
    dsimp only at hconserved ⊢
    split
    next hleft =>
      split
      next hfailed =>
        refine ⟨?_, h.file, h.dropped, h.bounded, ⟨?_, h.safe⟩, trivial⟩
        · show gone q.log ++ q.writing.drop done ++ ([] ++ q.pending) = accepted q.log
          rw [List.append_assoc, List.nil_append]
          exact hconserved
        · show delivered q.log ++ q.writing.drop done = batch q.log
          rw [hdelivered, hbatch, List.take_append_drop]
      next hok =>
        have hsplit : ∀ n, (q.writing.drop done).take n ++ q.writing.drop (done + n) =
            q.writing.drop done := by
          intro n
          rw [← List.drop_drop, List.take_append_drop]
        refine ⟨?_, ?_, h.dropped, h.bounded, ⟨trivial, h.safe⟩, ?_, hbatch⟩
        · show gone q.log ++ (q.writing.drop done).take _ ++ (q.writing.drop (done + _) ++ q.pending) =
            accepted q.log
          rw [List.append_assoc, ← List.append_assoc (List.take _ _), hsplit]
          exact hconserved
        · exact congrArg (· ++ _) h.file
        · show delivered q.log ++ (q.writing.drop done).take _ = q.writing.take (done + _)
          rw [hdelivered, List.take_add]
    next hdone =>
      refine inv_of_still h .measuring trivial ?_
      rw [Queue.rest, Queue.rest, hq]
      exact (List.drop_eq_nil_of_le (not_lt.mp hdone)).symm
  | measuring =>
    rw [Queue.rest, hq] at hconserved
    dsimp only
    by_cases hslow : o.nanos ≥ kSlowWrite
    · rw [if_pos hslow]
      exact ⟨hconserved, h.file, h.dropped, h.bounded, h.safe, trivial⟩
    · rw [if_neg hslow]
      exact ⟨hconserved, h.file, h.dropped, h.bounded, h.safe, trivial⟩
  | reporting line =>
    have hpush := push_inv h line
    have hnone : q.rest = [] := by rw [Queue.rest, hq]
    have hpushed := hpush.conserved
    rw [q.push_rest, hnone] at hpushed
    exact ⟨hpushed, hpush.file, hpush.dropped, hpush.bounded, hpush.safe, trivial⟩
  | clearing =>
    rw [Queue.rest, hq] at hconserved
    exact ⟨hconserved, h.file, h.dropped, h.bounded, h.safe, rfl⟩

theorem step_inv (h : Inv q) (s : Step) : Inv (step q s) := by
  cases s with
  | log formatted => exact mkwLog_inv h formatted
  | work outcome => exact work_inv h outcome

theorem foldl_inv (h : Inv q) (steps : List Step) : Inv (steps.foldl step q) := by
  induction steps generalizing q with
  | nil => exact h
  | cons s steps ih => exact ih (step_inv h s)

/-- For any pushes between the steps of the writer: what was written or given up, the unwritten rest
of the batch and the lines that wait are the accepted lines in their order. Without a failed write
nothing was given up, and a failed write gives up the rest of its batch. Every line that is offered is
accepted or counted as dropped, by whether it fits, and no other is. -/
theorem log_conserves (steps : List Step) :
    gone (run steps).log ++ ((run steps).rest ++ (run steps).pending) = accepted (run steps).log ∧
      ((∀ bytes, Event.lost bytes ∉ (run steps).log) →
        (run steps).file ++ ((run steps).rest ++ (run steps).pending) =
          accepted (run steps).log) ∧
      History.Ok Event.Safe (run steps).log ∧
      (run steps).file = written (run steps).log ∧
      (run steps).dropped = UInt64.ofNat (rejected (run steps).log) ∧
      (run steps).pending.length ≤ kQueueLimit ∧
      ∀ before s after, steps = before ++ s :: after →
        decisions (run (before ++ [s])).log =
          ((s.offered (run before)).map (decision (run before).pending)).toList ++
            decisions (run before).log := by
  have h : Inv (run steps) := foldl_inv inv_start steps
  refine ⟨h.conserved, fun hnone => ?_, h.safe, h.file, h.dropped, h.bounded,
    fun before s after _ => ?_⟩
  · rw [h.file, written_eq_gone hnone]
    exact h.conserved
  · rw [run_concat]
    exact step_decisions (run before) s

end Runtime.AsyncLog
