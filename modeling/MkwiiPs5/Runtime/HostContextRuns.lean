import Mathlib.Data.List.Nodup
import Mathlib.Logic.Relation
import MkwiiPs5.KeyedList
import MkwiiPs5.Runtime.HostContext

/-!
# Runs of the host context scheduler

What holds before every call: the current context is the one on the processor, every other context
is suspended where it last switched away, and the records are those of the live contexts.
-/

namespace HostContext

/-! ### Records -/

section Records

variable {s : State} {h h' : Handle} {f : Context → Context}

theorem record_update (s : State) (h h' : Handle) (f : Context → Context) :
    (s.update h f).record h' = if h' = h then (s.record h').map f else s.record h' := by
  cases h with
  | scheduler =>
    cases h' with
    | scheduler => rfl
    | worker address => rfl
  | worker address =>
    cases h' with
    | scheduler => rfl
    | worker address' =>
      simp only [State.update, State.record, Handle.worker.injEq]
      induction s.workers with
      | nil => split <;> rfl
      | cons w workers ih =>
        rw [List.map_cons, List.find?_cons, List.find?_cons]
        by_cases hw : w.1 = address
        · rw [if_pos hw]
          by_cases ha : w.1 = address'
          · have heq : address' = address := ha.symm.trans hw
            simp [ha, heq]
          · simp only [beq_eq_false_iff_ne.mpr ha]
            exact ih
        · rw [if_neg hw]
          by_cases ha : w.1 = address'
          · have hne : address' ≠ address := fun heq => hw (ha.trans heq)
            simp [ha, hne]
          · simp only [beq_eq_false_iff_ne.mpr ha]
            exact ih

@[simp]
theorem update_current : (s.update h f).current = s.current := by cases h <;> rfl

@[simp]
theorem update_ownerThread : (s.update h f).ownerThread = s.ownerThread := by cases h <;> rfl

@[simp]
theorem update_workerCount : (s.update h f).workerCount = s.workerCount := by cases h <;> rfl

@[simp]
theorem update_running : (s.update h f).running = s.running := by cases h <;> rfl

@[simp]
theorem update_lastSwitch : (s.update h f).lastSwitch = s.lastSwitch := by cases h <;> rfl

@[simp]
theorem update_created : (s.update h f).created = s.created := by cases h <;> rfl

theorem update_workers : (s.update h f).workers =
    s.workers.map fun w => if h = .worker w.1 then (w.1, f w.2) else w := by
  cases h with
  | scheduler =>
    simp only [State.update, reduceCtorEq, if_false, List.map_id']
  | worker address =>
    simp only [State.update, Handle.worker.injEq, eq_comm]

end Records

/-! ### The invariant -/

/-- A context that waits to be entered, or to return from its latest `Switch` call. -/
def Waiting (s : State) (h : Handle) (c : Context) : Prop :=
  c.savedSp = some ⟨h, .entry⟩ ∧ h ≠ .scheduler ∨
    c.savedSp = some ⟨h, .inSwitch (some h) (s.lastSwitch h)⟩

/-- What holds of the records, whoever runs. -/
structure Records (s : State) : Prop where
  nodup : (s.workers.map (·.1)).Nodup
  inside : ∀ w ∈ s.workers, w.2.mapping < w.1 ∧ w.1 < w.2.mapping + w.2.mappingSize
  count : s.workerCount = s.workers.length
  created_pos : 0 < s.created
  id_pos : ∀ w ∈ s.workers, 0 < w.2.id ∧ w.2.id < s.created
  id_nodup : (s.workers.map (·.2.id)).Nodup
  scheduler : s.schedulerContext.finished = false ∧ s.schedulerContext.id = 0

/-- What holds before every call. -/
structure Good (s : State) : Prop where
  records : Records s
  unowned : s.ownerThread = none → s.running = .scheduler ∧ s.workers = []
  current : s.ownerThread ≠ none → s.current = some s.running
  runs : ∃ c, s.record s.running = some c ∧ c.finished = false
  waiting : ∀ h c, h ≠ s.running → s.record h = some c → c.finished = false → Waiting s h c

/-- A change of one record that keeps its place and number. -/
theorem Records.update {s : State} (hs : Records s) (h : Handle) {f : Context → Context}
    (hmapping : ∀ c, (f c).mapping = c.mapping ∧ (f c).mappingSize = c.mappingSize)
    (hid : ∀ c, (f c).id = c.id)
    (hfinished : h = .scheduler → ∀ c, (f c).finished = c.finished) : Records (s.update h f) := by
  -- the update keeps every address and number, so the keys stay distinct
  have hkeys : (s.update h f).workers.map (·.1) = s.workers.map (·.1) := by
    rw [update_workers, List.map_map]
    apply List.map_congr_left
    intro w _
    dsimp only [Function.comp]
    split <;> rfl
  have hids : (s.update h f).workers.map (·.2.id) = s.workers.map (·.2.id) := by
    rw [update_workers, List.map_map]
    apply List.map_congr_left
    intro w _
    dsimp only [Function.comp]
    split
    · exact hid w.2
    · rfl
  refine ⟨hkeys ▸ hs.nodup, ?_, ?_, ?_, ?_, hids ▸ hs.id_nodup, ?_⟩
  · intro w hw
    rw [update_workers, List.mem_map] at hw
    obtain ⟨v, hv, rfl⟩ := hw
    split
    · dsimp only
      rw [(hmapping v.2).1, (hmapping v.2).2]
      exact hs.inside v hv
    · exact hs.inside v hv
  · rw [update_workerCount, hs.count, update_workers, List.length_map]
  · rw [update_created]
    exact hs.created_pos
  · intro w hw
    rw [update_workers, List.mem_map] at hw
    obtain ⟨v, hv, rfl⟩ := hw
    rw [update_created]
    split
    · dsimp only
      rw [hid v.2]
      exact hs.id_pos v hv
    · exact hs.id_pos v hv
  · cases h with
    | scheduler =>
      simp only [State.update]
      rw [hfinished rfl, hid]
      exact hs.scheduler
    | worker address => exact hs.scheduler

/-- Switching to a waiting context: it goes on. -/
theorem contextSwitch_eq {s : State} {target source : Handle} {resume : Resume}
    {c destination : Context} (hsource : s.record source = some c)
    (htarget : s.record target = some destination) (hne : target ≠ source)
    (hcurrent : s.current = some target) (hwaiting : Waiting s target destination) :
    contextSwitch s target source resume =
      some ({ s.update source fun c => { c with savedSp := some ⟨s.running, resume⟩ } with
        running := target },
      if destination.savedSp = some ⟨target, .entry⟩ then .entered target
      else .returned target (s.lastSwitch target)) := by
  have hkept : (s.update source fun c => { c with savedSp := some ⟨s.running, resume⟩ }).record
      target = some destination := by
    rw [record_update, if_neg hne, htarget]
  rw [contextSwitch]
  rcases hwaiting with ⟨hentry, _⟩ | hswitch
  · rw [if_pos hentry]
    simp only [hsource, hkept, hentry, Option.bind_eq_bind, Option.bind_some]
  · rw [if_neg (by rw [hswitch]; simp)]
    simp only [hsource, hkept, hswitch, Option.bind_eq_bind, Option.bind_some]
    rw [← hcurrent, ← update_current (s := s)]

theorem Good.of_waiting {s : State} {target : Handle} {destination : Context}
    (hrecords : Records s) (howner : s.ownerThread ≠ none)
    (htarget : s.record target = some destination) (hfinished : destination.finished = false)
    (hcurrent : s.current = some target)
    (hwaiting : ∀ h c, h ≠ target → s.record h = some c → c.finished = false → Waiting s h c) :
    Good { s with running := target } where
  records := ⟨hrecords.nodup, hrecords.inside, hrecords.count, hrecords.created_pos,
    hrecords.id_pos, hrecords.id_nodup, hrecords.scheduler⟩
  unowned h := absurd h howner
  current _ := hcurrent
  runs := ⟨destination, by cases target <;> exact htarget, hfinished⟩
  waiting h c hne hrecord hunfinished := by
    have hrecord' : s.record h = some c := by
      cases h <;> exact hrecord
    exact hwaiting h c hne hrecord' hunfinished

/-- The contexts of a later state: older ones that stay finished once they are, and new ones. -/
def Ages (s s' : State) : Prop :=
  s.created ≤ s'.created ∧ ∀ w ∈ s'.workers, s.created ≤ w.2.id ∨
    ∃ v ∈ s.workers, v.2.id = w.2.id ∧ (v.2.finished = true → w.2.finished = true)

theorem ages_of_workers {s s' : State} (hcreated : s'.created = s.created)
    (hworkers : s'.workers = s.workers) : Ages s s' :=
  ⟨Nat.le_of_eq hcreated.symm, fun w hw => Or.inr ⟨w, hworkers ▸ hw, rfl, id⟩⟩

theorem Ages.trans {s t u : State} (h₁ : Ages s t) (h₂ : Ages t u) : Ages s u := by
  refine ⟨Nat.le_trans h₁.1 h₂.1, ?_⟩
  intro w hw
  rcases h₂.2 w hw with hnew | ⟨v, hv, hid, hfinished⟩
  · exact Or.inl (Nat.le_trans h₁.1 hnew)
  · rcases h₁.2 v hv with hnew | ⟨x, hx, hid', hfinished'⟩
    · exact Or.inl (hid ▸ hnew)
    · exact Or.inr ⟨x, hx, hid'.trans hid, hfinished ∘ hfinished'⟩

theorem ages_update (s : State) (h : Handle) {f : Context → Context}
    (hid : ∀ c, (f c).id = c.id) (hfinished : ∀ c, c.finished = true → (f c).finished = true) :
    Ages s (s.update h f) := by
  refine ⟨Nat.le_of_eq update_created.symm, ?_⟩
  intro w hw
  rw [update_workers, List.mem_map] at hw
  obtain ⟨v, hv, rfl⟩ := hw
  refine Or.inr ⟨v, hv, ?_⟩
  split
  · exact ⟨(hid v.2).symm, hfinished v.2⟩
  · exact ⟨rfl, id⟩

/-- `Switch` to a context that can run. -/
theorem switch_eq {s : State} (hs : Good s) {thread : ℕ} (hthread : s.ownerThread = some thread)
    {target : Handle} {destination : Context} (hne : target ≠ s.running)
    (htarget : s.record target = some destination) (hfinished : destination.finished = false) :
    ∃ s', switch s thread (some target) = some (s',
        if destination.savedSp = some ⟨target, .entry⟩ then .entered target
        else .returned target (s.lastSwitch target)) ∧
      Good s' ∧ s'.running = target ∧ s'.current = some target ∧
      s'.ownerThread = s.ownerThread ∧ Ages s s' := by
  have howner : s.ownerThread ≠ none := by rw [hthread]; exact nofun
  have hcurrent := hs.current howner
  obtain ⟨c, hrunning, hunfinished⟩ := hs.runs
  let left : State :=
    { s with
      switches := s.switches + 1
      current := some target
      lastSwitch := Function.update s.lastSwitch s.running s.switches }
  have hleft (h : Handle) : left.record h = s.record h := by cases h <;> rfl
  -- the switch renumbers the running context only
  have hwaits (h : Handle) (c : Context) (hh : h ≠ s.running) (hw : Waiting s h c) :
      Waiting left h c := by
    rw [Waiting] at hw ⊢
    simp only [left]
    rwa [Function.update_of_ne hh]
  have hlast : left.lastSwitch target = s.lastSwitch target := Function.update_of_ne hne _ _
  have hswitch : contextSwitch left target s.running
      (.inSwitch (some s.running) s.switches) = _ :=
    contextSwitch_eq ((hleft s.running).trans hrunning) ((hleft target).trans htarget) hne rfl
    (hwaits target _ hne (hs.waiting target _ hne htarget hfinished))
  rw [hlast] at hswitch
  -- no guard of `Switch` holds: the owner calls it, on a context that is live, other and unfinished
  have hstep : switch s thread (some target) = contextSwitch left target s.running
      (.inSwitch (some s.running) s.switches) := by
    have hon : State.onSchedulerThread { s with switches := s.switches + 1 } thread = true := by
      simp [State.onSchedulerThread, hthread]
    have hrecord : State.record { s with switches := s.switches + 1 } target =
        some destination := by
      rw [← htarget]
      cases target <;> rfl
    have hnot : (some target == s.current) = false := by
      rw [hcurrent]
      simpa using hne
    rw [switch]
    dsimp only
    rw [hon, hnot, if_neg (by simp)]
    simp only [Option.bind_eq_bind, Option.bind_some, hrecord, hfinished, Bool.false_eq_true,
      if_false]
    simp only [hcurrent, Option.bind_some]
    rfl
  rw [hstep, hswitch]
  refine ⟨_, rfl, @Good.of_waiting _ _ destination ?_ ?_ ?_ hfinished ?_ ?_, rfl, ?_,
    ?_, ?_⟩
  · apply Records.update
    · exact ⟨hs.records.nodup, hs.records.inside, hs.records.count, hs.records.created_pos,
        hs.records.id_pos, hs.records.id_nodup, hs.records.scheduler⟩
    · exact fun _ => ⟨rfl, rfl⟩
    · exact fun _ => rfl
    · exact fun _ _ => rfl
  · rw [update_ownerThread]
    exact howner
  · rw [record_update, if_neg hne, hleft, htarget]
  · rw [update_current]
  · -- the context that is left now waits in its own `Switch` call; the others wait as before
    intro h c' hh hrecord hc'
    rw [record_update, hleft] at hrecord
    rw [Waiting, update_lastSwitch, ← Waiting]
    by_cases hrun : h = s.running
    · subst hrun
      rw [if_pos rfl, hrunning, Option.map_some] at hrecord
      obtain rfl := Option.some.inj hrecord
      right
      simp only [left, Function.update_self]
    · rw [if_neg hrun] at hrecord
      exact hwaits h c' hrun (hs.waiting h c' hrun hrecord hc')
  · rw [update_current]
  · rw [update_ownerThread]
  · exact ages_update left s.running (fun _ => rfl) fun _ => id

/-- The entry function of a worker returns: the scheduler goes on from its latest `Switch` call. -/
theorem entryReturns_eq {s : State} (hs : Good s) (howner : s.ownerThread ≠ none)
    (hworker : s.running ≠ .scheduler) :
    ∃ s', entryReturns s = some (s', .returned .scheduler (s.lastSwitch .scheduler)) ∧
      Good s' ∧ s'.running = .scheduler ∧ s'.current = some .scheduler ∧
      s'.ownerThread = s.ownerThread ∧ Ages s s' ∧
      ∃ c, s'.record s.running = some c ∧ c.finished = true := by
  obtain ⟨c, hrunning, _⟩ := hs.runs
  let left : State :=
    { s.update s.running fun c => { c with finished := true } with current := some .scheduler }
  have hleft (h : Handle) : left.record h =
      if h = s.running then (s.record h).map fun c => { c with finished := true }
      else s.record h := by
    rw [← record_update]
    cases h <;> rfl
  have hscheduler : s.record .scheduler = some s.schedulerContext := rfl
  have hwait : Waiting s .scheduler s.schedulerContext :=
    hs.waiting .scheduler _ hworker.symm hscheduler hs.records.scheduler.1
  -- the scheduler has no entry function, so it waits in a `Switch` call
  have hsaved : s.schedulerContext.savedSp =
      some ⟨.scheduler, .inSwitch (some .scheduler) (s.lastSwitch .scheduler)⟩ := by
    rcases hwait with ⟨_, hne⟩ | hsaved
    · exact absurd rfl hne
    · exact hsaved
  have hlast : left.lastSwitch = s.lastSwitch := update_lastSwitch
  have hrun : left.running = s.running := update_running
  have hsource : left.record s.running = some { c with finished := true } := by
    rw [hleft, if_pos rfl, hrunning]
    rfl
  have hswitch : contextSwitch left .scheduler s.running .inEnter = _ := contextSwitch_eq hsource
    ((hleft .scheduler).trans (if_neg hworker.symm)) hworker.symm rfl
    (Or.inr (by rw [hlast]; exact hsaved))
  rw [if_neg (by rw [hsaved]; simp), hlast] at hswitch
  rw [entryReturns]
  refine ⟨_, hswitch, @Good.of_waiting _ _ s.schedulerContext ?_ ?_ ?_
    hs.records.scheduler.1 ?_ ?_, rfl, ?_, ?_, ?_, ?_⟩
  · apply Records.update
    · have hrecords := hs.records.update s.running (f := fun c => { c with finished := true })
        (fun _ => ⟨rfl, rfl⟩) (fun _ => rfl) (fun h => absurd h hworker)
      exact ⟨hrecords.nodup, hrecords.inside, hrecords.count, hrecords.created_pos,
        hrecords.id_pos, hrecords.id_nodup, hrecords.scheduler⟩
    · exact fun _ => ⟨rfl, rfl⟩
    · exact fun _ => rfl
    · exact fun _ _ => rfl
  · rw [update_ownerThread]
    exact fun h => howner (update_ownerThread.symm.trans h)
  · rw [record_update, if_neg hworker.symm, hleft, if_neg hworker.symm, hscheduler]
  · rw [update_current]
  · intro h c' hh hrecord hc'
    rw [record_update, hleft] at hrecord
    rw [Waiting, update_lastSwitch, hlast, ← Waiting]
    by_cases hself : h = s.running
    · subst hself
      rw [if_pos rfl, if_pos rfl, hrunning, Option.map_some, Option.map_some] at hrecord
      -- the worker that returned is finished, so nothing is asked of it
      obtain rfl := Option.some.inj hrecord
      exact absurd hc' (by simp)
    · rw [if_neg hself, if_neg hself] at hrecord
      exact hs.waiting h c' hself hrecord hc'
  · rw [update_current]
  · rw [update_ownerThread]
    exact update_ownerThread
  · have hfirst : Ages s left := ages_update s s.running
      (f := fun c => { c with finished := true }) (fun _ => rfl) fun _ _ => rfl
    exact hfirst.trans (ages_update left s.running (fun _ => rfl) fun _ => id)
  · refine ⟨{ c with savedSp := some ⟨left.running, .inEnter⟩, finished := true }, ?_, rfl⟩
    apply (record_update left s.running s.running _).trans
    rw [if_pos rfl, hsource]
    rfl

/-- Only the numbering changes. -/
theorem Good.count {s : State} (hs : Good s) (n : ℕ) : Good { s with switches := n } where
  records := ⟨hs.records.nodup, hs.records.inside, hs.records.count, hs.records.created_pos,
    hs.records.id_pos, hs.records.id_nodup, hs.records.scheduler⟩
  unowned := hs.unowned
  current := hs.current
  runs := by
    obtain ⟨c, hc, hfinished⟩ := hs.runs
    exact ⟨c, by rw [← hc]; cases s.running <;> rfl, hfinished⟩
  waiting h c hne hrecord hfinished :=
    hs.waiting h c hne (by rw [← hrecord]; cases h <;> rfl) hfinished

theorem initialize_good {s : State} (hs : Good s) (thread : ℕ) (scheduler : Bool) :
    ∃ s' e, initializeScheduler s thread scheduler = some (s', e) ∧ Good s' ∧ Ages s s' ∧
      s'.running = s.running ∧ s'.workers = s.workers ∧
      (s.ownerThread ≠ none → s' = s) ∧ ∀ stack n, e ≠ .returned stack n := by
  rw [initializeScheduler]
  cases scheduler with
  | false => exact ⟨s, _, rfl, hs, ages_of_workers rfl rfl, rfl, rfl, fun _ => rfl, nofun⟩
  | true =>
    cases howner : s.ownerThread with
    | some owner =>
      exact ⟨s, _, rfl, hs, ages_of_workers rfl rfl, rfl, rfl, fun _ => rfl, nofun⟩
    | none =>
      obtain ⟨hrunning, hworkers⟩ := hs.unowned howner
      refine ⟨_, _, rfl, ?_, ages_of_workers rfl rfl, rfl, rfl, fun h => absurd rfl h, nofun⟩
      constructor
      · exact ⟨hs.records.nodup, hs.records.inside, hs.records.count, hs.records.created_pos,
          hs.records.id_pos, hs.records.id_nodup, rfl, hs.records.scheduler.2⟩
      · exact nofun
      · exact fun _ => congrArg some hrunning.symm
      · exact ⟨{ s.schedulerContext with savedSp := none, finished := false },
          by rw [hrunning]; rfl, rfl⟩
      · intro h c hne hrecord _
        cases h with
        | scheduler => exact absurd hrunning.symm hne
        | worker address =>
          simp [State.record, hworkers] at hrecord

theorem shutdown_good {s : State} (hs : Good s) (thread : ℕ) (scheduler : Option Handle) :
    ∃ s', shutdownScheduler s thread scheduler = some (s', .done) ∧ Good s' ∧ Ages s s' ∧
      s'.running = s.running ∧ s'.workers = s.workers ∧
      (s' = s ∨ s.running = .scheduler ∧ s.workers = [] ∧ s'.ownerThread = none) := by
  rw [shutdownScheduler]
  split
  · exact ⟨s, rfl, hs, ages_of_workers rfl rfl, rfl, rfl, Or.inl rfl⟩
  · rename_i hcond
    simp only [Bool.or_eq_true, not_or, bne_iff_ne, ne_eq, not_not, Bool.not_eq_true'] at hcond
    obtain ⟨⟨⟨hthread, _⟩, hcurrent⟩, hcount⟩ := hcond
    have howner : s.ownerThread ≠ none := by
      intro hnone
      simp [State.onSchedulerThread, hnone] at hthread
    have hrunning : s.running = .scheduler :=
      (Option.some.inj ((hs.current howner).symm.trans hcurrent))
    have hworkers : s.workers = [] :=
      List.length_eq_zero_iff.mp (hs.records.count.symm.trans hcount)
    refine ⟨_, rfl, ?_, ages_of_workers rfl rfl, rfl, rfl, Or.inr ⟨hrunning, hworkers, rfl⟩⟩
    constructor
    · exact ⟨hs.records.nodup, hs.records.inside, hs.records.count, hs.records.created_pos,
        hs.records.id_pos, hs.records.id_nodup, hs.records.scheduler⟩
    · exact fun _ => ⟨hrunning, hworkers⟩
    · exact fun h => absurd rfl h
    · exact ⟨s.schedulerContext, by rw [hrunning]; rfl, hs.records.scheduler.1⟩
    · intro h c hne hrecord _
      cases h with
      | scheduler => exact absurd hrunning.symm hne
      | worker address => simp [State.record, hworkers] at hrecord

theorem mem_of_record {s : State} {address : ℕ} {c : Context}
    (h : s.record (.worker address) = some c) : (address, c) ∈ s.workers := by
  simp only [State.record, Option.map_eq_some_iff] at h
  obtain ⟨w, hw, rfl⟩ := h
  have haddress : w.1 = address := by simpa using List.find?_some hw
  rw [← haddress]
  exact List.mem_of_find?_eq_some hw

theorem onSchedulerThread_iff {s : State} {thread : ℕ} :
    s.onSchedulerThread thread = true ↔ s.ownerThread = some thread := by
  rw [State.onSchedulerThread, beq_iff_eq]

theorem record_add {s : State} {w : ℕ × Context} {h : Handle} (hne : h ≠ .worker w.1) :
    (s.add w).record h = s.record h := by
  cases h with
  | scheduler => rfl
  | worker address =>
    have hw : w.1 ≠ address := fun heq => hne (congrArg Handle.worker heq.symm)
    simp only [State.record, State.add]
    rw [List.find?_cons, beq_eq_false_iff_ne.mpr hw]

theorem record_remove {s : State} {address : ℕ} {h : Handle} (hne : h ≠ .worker address) :
    (s.remove address).record h = s.record h := by
  cases h with
  | scheduler => rfl
  | worker address' =>
    have hne : address' ≠ address := fun heq => hne (congrArg Handle.worker heq)
    simp only [State.record, State.remove]
    congr 1
    induction s.workers with
    | nil => rfl
    | cons w workers ih =>
      rw [List.filter_cons, List.find?_cons]
      by_cases hw : w.1 = address
      · rw [if_neg (by simpa using hw), beq_eq_false_iff_ne.mpr (by omega)]
        exact ih
      · rw [if_pos (by simpa using hw), List.find?_cons]
        split
        · rfl
        · exact ih

/-- A record whose mapping meets no other. -/
theorem Records.add {s : State} (hs : Records s) (stackSize entry argument mapping : ℕ)
    (hapart : ∀ w ∈ s.workers, mapping + (stackBytes stackSize + 2 * Page) ≤ w.2.mapping ∨
      w.2.mapping + w.2.mappingSize ≤ mapping) :
    Records (s.add (newContext s stackSize entry argument mapping)) ∧
      ∀ w ∈ s.workers, w.1 ≠ (newContext s stackSize entry argument mapping).1 := by
  have hfresh : ∀ w ∈ s.workers, w.1 ≠ (newContext s stackSize entry argument mapping).1 := by
    intro w hw
    have hinside := hs.inside w hw
    have hapart := hapart w hw
    simp only [newContext, Page] at hapart ⊢
    omega
  refine ⟨⟨?_, ?_, ?_, Nat.succ_pos _, ?_, ?_, hs.scheduler⟩, hfresh⟩
  · simp only [State.add]
    rw [List.map_cons, List.nodup_cons]
    refine ⟨fun hmem => ?_, hs.nodup⟩
    obtain ⟨w, hw, heq⟩ := List.mem_map.mp hmem
    exact hfresh w hw heq
  · intro w hw
    rcases List.mem_cons.mp hw with rfl | hw
    · simp only [newContext, Page]
      omega
    · exact hs.inside w hw
  · simp only [State.add]
    rw [List.length_cons, hs.count]
  · intro w hw
    rcases List.mem_cons.mp hw with rfl | hw
    · exact ⟨hs.created_pos, Nat.lt_succ_self _⟩
    · exact ⟨(hs.id_pos w hw).1, Nat.lt_succ_of_lt (hs.id_pos w hw).2⟩
  · simp only [State.add]
    rw [List.map_cons, List.nodup_cons]
    refine ⟨fun hmem => ?_, hs.id_nodup⟩
    obtain ⟨w, hw, heq⟩ := List.mem_map.mp hmem
    have hlt := (hs.id_pos w hw).2
    simp only [newContext] at heq
    omega

theorem Records.remove {s : State} (hs : Records s) {address : ℕ} {c : Context}
    (hrecord : s.record (.worker address) = some c) : Records (s.remove address) := by
  have hsub : (s.remove address).workers.Sublist s.workers := List.filter_sublist
  refine ⟨hs.nodup.sublist (hsub.map _), fun w hw => hs.inside w (hsub.subset hw), ?_,
    hs.created_pos, fun w hw => hs.id_pos w (hsub.subset hw), hs.id_nodup.sublist (hsub.map _),
    hs.scheduler⟩
  have hperm := KeyedList.perm_filter hs.nodup (mem_of_record hrecord)
  have hlength : s.workers.length = (s.remove address).workers.length + 1 := hperm.length_eq
  have hcount : (s.remove address).workerCount = s.workerCount - 1 := rfl
  rw [hcount, hs.count]
  omega

theorem create_good {s : State} (hs : Good s) {thread stackSize entry argument : ℕ}
    {mapping : Option ℕ} {protect : Bool}
    (hadmits : s.Admits thread (.create stackSize entry argument mapping protect)) :
    ∃ s' e, create s thread stackSize entry argument mapping protect = some (s', e) ∧
      Good s' ∧ Ages s s' ∧ s'.running = s.running ∧ s'.ownerThread = s.ownerThread ∧
      (∀ h c, s.record h = some c → s'.record h = some c) ∧ ∀ stack n, e ≠ .returned stack n := by
  have hsame : Good s ∧ Ages s s ∧ s.running = s.running ∧ s.ownerThread = s.ownerThread ∧
      (∀ h c, s.record h = some c → s.record h = some c) ∧
      ∀ stack n, Event.handle none ≠ .returned stack n :=
    ⟨hs, ages_of_workers rfl rfl, rfl, rfl, fun _ _ h => h, nofun⟩
  unfold create
  split
  · exact ⟨s, _, rfl, hsame⟩
  rename_i hthread
  split
  · exact ⟨s, _, rfl, hsame⟩
  cases mapping with
  | none => exact ⟨s, _, rfl, hsame⟩
  | some m =>
    dsimp only
    split
    · exact ⟨s, _, rfl, hsame⟩
    have howner : s.ownerThread = some thread := by
      rw [← onSchedulerThread_iff]
      simp only [Bool.or_eq_true, not_or, Bool.not_eq_true', Bool.not_eq_false] at hthread
      exact hthread.1.1
    obtain ⟨hrecords, hfresh⟩ := hs.records.add stackSize entry argument m (hadmits m rfl)
    have hkept : ∀ h c, s.record h = some c →
        (s.add (newContext s stackSize entry argument m)).record h = some c := by
      intro h c hrecord
      rw [record_add, hrecord]
      rintro rfl
      exact hfresh _ (mem_of_record hrecord) rfl
    refine ⟨_, _, rfl, ⟨hrecords, ?_, hs.current, ?_, ?_⟩, ⟨Nat.le_succ _, ?_⟩, rfl, rfl, hkept,
      nofun⟩
    · intro hnone
      exact nomatch howner.symm.trans hnone
    · obtain ⟨c, hc, hfinished⟩ := hs.runs
      exact ⟨c, hkept _ c hc, hfinished⟩
    · intro h c hne hrecord hfinished
      -- the new context waits to be entered; the others are as they were
      by_cases hnew : h = .worker (newContext s stackSize entry argument m).1
      · subst hnew
        left
        simp only [State.record, State.add, List.find?_cons, beq_self_eq_true,
          Option.map_some] at hrecord
        obtain rfl := Option.some.inj hrecord
        exact ⟨rfl, nofun⟩
      · rw [record_add hnew] at hrecord
        exact hs.waiting h c hne hrecord hfinished
    · intro w hw
      rcases List.mem_cons.mp hw with rfl | hw
      · exact Or.inl (Nat.le_refl _)
      · exact Or.inr ⟨w, hw, rfl, id⟩

/-- `Destroy` leaves the running context and the scheduler alone. -/
theorem destroy_good {s : State} (hs : Good s) (thread : ℕ) {handle : Option Handle}
    (hlive : s.Live handle) :
    ∃ s', destroy s thread handle = some (s', .done) ∧ Good s' ∧ Ages s s' ∧
      s'.running = s.running ∧ s'.ownerThread = s.ownerThread ∧
      s'.record s.running = s.record s.running ∧ s'.record .scheduler = s.record .scheduler := by
  unfold destroy
  split
  · exact ⟨s, rfl, hs, ages_of_workers rfl rfl, rfl, rfl, rfl, rfl⟩
  rename_i hcond
  simp only [Bool.or_eq_true, not_or, Bool.not_eq_true', Bool.not_eq_false, beq_iff_eq] at hcond
  obtain ⟨⟨⟨hthread, hnull⟩, hcurrent⟩, hscheduler⟩ := hcond
  have howner := onSchedulerThread_iff.mp hthread
  cases handle with
  | none => exact absurd rfl hnull
  | some h =>
    cases h with
    | scheduler => exact absurd rfl hscheduler
    | worker address =>
      obtain ⟨c, hrecord⟩ := Option.isSome_iff_exists.mp (hlive _ rfl)
      -- the running context is the current one, which `Destroy` refuses
      have hne : s.running ≠ .worker address := by
        rintro heq
        rw [hs.current (by rw [howner]; exact nofun), heq] at hcurrent
        exact hcurrent rfl
      have hrun : (s.remove address).record s.running = s.record s.running := record_remove hne
      simp only [hrecord, Option.bind_eq_bind, Option.bind_some]
      refine ⟨_, rfl, ⟨hs.records.remove hrecord, ?_, hs.current, ?_, ?_⟩, ⟨Nat.le_refl _, ?_⟩, rfl, rfl,
        hrun, rfl⟩
      · intro hnone
        exact nomatch howner.symm.trans hnone
      · obtain ⟨c', hc', hfinished⟩ := hs.runs
        exact ⟨c', hrun.trans hc', hfinished⟩
      · intro h c' hh hrecord' hfinished
        by_cases hgone : h = .worker address
        · subst hgone
          have hmem := mem_of_record hrecord'
          simp [State.remove] at hmem
        · rw [record_remove hgone] at hrecord'
          exact hs.waiting h c' hh hrecord' hfinished
      · intro w hw
        exact Or.inr ⟨w, List.mem_of_mem_filter hw, rfl, id⟩

/-- `Switch` either returns at once or lets another context go on; a `Switch` call returns on the
stack that the processor is then on. -/
theorem switch_good {s : State} (hs : Good s) (thread : ℕ) {handle : Option Handle}
    (hlive : s.Live handle) :
    ∃ s' e, switch s thread handle = some (s', e) ∧ Good s' ∧ Ages s s' ∧
      s'.ownerThread = s.ownerThread ∧
      (∀ stack n, e = .returned stack n → stack = s'.running) ∧
      (s'.running = s.running ∨ handle = some s'.running) := by
  -- a call that returns at once counts a switch and changes nothing else
  have hstays : Good { s with switches := s.switches + 1 } ∧
      Ages s { s with switches := s.switches + 1 } ∧ s.ownerThread = s.ownerThread ∧
      (∀ stack n, Event.returned s.running s.switches = .returned stack n →
        stack = s.running) ∧ (s.running = s.running ∨ handle = some s.running) :=
    ⟨hs.count _, ages_of_workers rfl rfl, rfl, fun _ _ h => (Event.returned.inj h).1.symm,
      Or.inl rfl⟩
  by_cases hthread : s.ownerThread = some thread
  · have hcurrent := hs.current (by rw [hthread]; exact nofun)
    cases handle with
    | none =>
      refine ⟨_, _, ?_, hstays⟩
      rw [switch]
      simp
    | some target =>
      by_cases hself : target = s.running
      · refine ⟨_, _, ?_, hstays⟩
        rw [switch]
        simp [hself, hcurrent]
      · obtain ⟨destination, htarget⟩ := Option.isSome_iff_exists.mp (hlive target rfl)
        cases hfinished : destination.finished with
        | true =>
          have hrecord : State.record { s with switches := s.switches + 1 } target =
              some destination := by
            rw [← htarget]
            cases target <;> rfl
          refine ⟨_, _, ?_, hstays⟩
          rw [switch]
          simp [hrecord, hfinished]
        | false =>
          obtain ⟨s', hstep, hgood, hrunning, _, howner, hages⟩ :=
            switch_eq hs hthread hself htarget hfinished
          refine ⟨s', _, hstep, hgood, hages, howner, ?_, Or.inr (congrArg some hrunning.symm)⟩
          intro stack n he
          rw [hrunning]
          split at he
          · exact nomatch he
          · exact (Event.returned.inj he).1.symm
  · refine ⟨_, _, ?_, hstays⟩
    rw [switch]
    simp [State.onSchedulerThread, hthread]

/-! ### Runs -/

/-- Some admitted call. -/
def Step (s s' : State) : Prop :=
  ∃ thread call e, s.Admits thread call ∧ step s thread call = some (s', e)

def Reaches : State → State → Prop := Relation.ReflTransGen Step

/-- One call: it meets no dangling pointer and no trap, and keeps the invariant. -/
theorem step_good {s : State} (hs : Good s) {thread : ℕ} {call : Call}
    (hadmits : s.Admits thread call) :
    ∃ s' e, step s thread call = some (s', e) ∧ Good s' ∧ Ages s s' ∧
      ∀ stack n, e = .returned stack n → stack = s'.running := by
  cases call with
  | initializeScheduler scheduler =>
    obtain ⟨s', e, hstep, hgood, hages, _, _, _, he⟩ := initialize_good hs thread scheduler
    exact ⟨s', e, hstep, hgood, hages, fun stack n h => absurd h (he stack n)⟩
  | shutdownScheduler scheduler =>
    obtain ⟨s', hstep, hgood, hages, _⟩ := shutdown_good hs thread scheduler
    exact ⟨s', _, hstep, hgood, hages, nofun⟩
  | create stackSize entry argument mapping protect =>
    obtain ⟨s', e, hstep, hgood, hages, _, _, _, he⟩ := create_good hs hadmits
    exact ⟨s', e, hstep, hgood, hages, fun stack n h => absurd h (he stack n)⟩
  | destroy handle =>
    obtain ⟨s', hstep, hgood, hages, _⟩ := destroy_good hs thread hadmits
    exact ⟨s', _, hstep, hgood, hages, nofun⟩
  | switch handle =>
    obtain ⟨s', e, hstep, hgood, hages, _, he, _⟩ := switch_good hs thread hadmits
    exact ⟨s', e, hstep, hgood, hages, he⟩
  | entryReturns =>
    obtain ⟨s', hstep, hgood, hrunning, _, _, hages, _⟩ :=
      entryReturns_eq hs (by rw [hadmits.1]; exact nofun) hadmits.2
    exact ⟨s', _, hstep, hgood, hages, fun stack n h => (Event.returned.inj h).1.symm.trans
      hrunning.symm⟩

theorem Step.good {s s' : State} (h : Step s s') (hs : Good s) : Good s' ∧ Ages s s' := by
  obtain ⟨thread, call, e, hadmits, hstep⟩ := h
  obtain ⟨t, e', hstep', hgood, hages, _⟩ := step_good hs hadmits
  obtain ⟨rfl, _⟩ := Prod.mk.inj (Option.some.inj (hstep.symm.trans hstep'))
  exact ⟨hgood, hages⟩

theorem Reaches.good {s s' : State} (h : Reaches s s') (hs : Good s) : Good s' ∧ Ages s s' := by
  induction h with
  | refl => exact ⟨hs, ages_of_workers rfl rfl⟩
  | tail _ hstep ih =>
    obtain ⟨hgood, hages⟩ := hstep.good ih.1
    exact ⟨hgood, ih.2.trans hages⟩

end HostContext
