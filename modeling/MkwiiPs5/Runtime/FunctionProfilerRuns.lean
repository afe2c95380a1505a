import MkwiiPs5.Runtime.FunctionProfilerCalls

/-!
# Runs of the function profiler

Every trace of hooks that starts with the thread, or with the attachment of the thread to the profiler.
-/

namespace FunctionProfiler

variable {K : Finset ℕ} {s : ThreadState} {L : Ledger} {t k : ℕ}

/-! ### Hooks and the ledger -/

theorem tracks_fresh (K : Finset ℕ) {now : ℕ} (hlt : now < 2 ^ 64) :
    Tracks K (.fresh now) (.fresh now) := by
  refine ⟨rfl, rfl, Nat.one_pos, fun _ _ => ⟨rfl, rfl⟩, fun _ hi => absurd rfl hi,
    fun _ hi => absurd rfl hi, fun _ _ => ⟨rfl, rfl⟩, fun _ => trivial, fun _ => rfl,
    fun _ => Nat.zero_le _, fun _ _ _ hk => (nomatch hk), fun j => ?_, fun _ => Nat.zero_le _,
    fun _ _ hf => (nomatch hf), fun _ _ hi => absurd rfl hi, fun _ _ _ => rfl,
    fun _ => Nat.zero_le _, hlt⟩
  rw [chargedUntil]
  split
  · exact le_rfl
  · exact Nat.zero_le _

/-- The time of a hook is excluded from the stack that is current. -/
theorem Tracks.finishHook (h : Tracks K s L) (hle : L.last ≤ t) (hlt : t < 2 ^ 64) :
    Tracks K (FunctionProfiler.finishHook s L.last t) { L with last := t } := by
  have huntil : chargedUntil s L L.current = L.last := if_pos rfl
  have hexcluded := h.excluded L.current
  rw [huntil] at hexcluded
  have hsum : add64 (s.shadows L.current).excluded (sub64 t L.last) =
      (s.shadows L.current).excluded + (t - L.last) := by
    rw [sub64_of_le hle hlt, add64_of_lt (by omega)]
  have hstacks : (FunctionProfiler.finishHook s L.last t).shadows =
      Function.update s.shadows L.current
        { s.shadows L.current with
          excluded := (s.shadows L.current).excluded + (t - L.last) } := by
    rw [← hsum, ← h.current]
    rfl
  refine h.resume _ le_rfl h.currentLt ⟨rfl, hstacks, h.current, h.made⟩ hle hlt
    (fun hne => absurd rfl hne) rfl (h.overflow _) ?_ (fun f hf => ?_) fun k _ => ?_
  · show (s.shadows L.current).excluded + (t - L.last) ≤ t
    omega
  · obtain ⟨h₁, h₂, h₃, h₄⟩ := h.stamped L.current f hf
    rw [huntil] at h₁ h₄
    refine ⟨h₁.trans hle, h₂.trans (Nat.le_add_right _ _), h₃, h₄.trans ?_⟩
    show _ ≤ t - ((s.shadows L.current).excluded + (t - L.last))
    omega
  · show t - ((s.shadows L.current).excluded + (t - L.last)) = _
    rw [clockOf, huntil]
    omega

/-- A stack that is left remembers the time. -/
theorem Tracks.leave (h : Tracks K s L) :
    Tracks K (s.setStack L.current { s.shadows L.current with leftAt := L.last }) L := by
  have huntil : chargedUntil s L L.current = L.last := if_pos rfl
  have hexcluded := h.excluded L.current
  have hstamped := h.stamped L.current
  rw [huntil] at hexcluded hstamped
  exact h.resume _ le_rfl h.currentLt ⟨rfl, rfl, h.current, h.made⟩ le_rfl h.lt
    (fun hne => absurd rfl hne) rfl (h.overflow _) hexcluded hstamped fun k _ => by
      rw [clockOf, huntil]

/-- The time since a stack was left is excluded from it. -/
theorem Tracks.enterKept (h : Tracks K s L) {j : ℕ} (hj : j < L.made)
    (hleft : (s.shadows L.current).leftAt = L.last) (hle : L.last ≤ t) (hlt : t < 2 ^ 64) :
    Tracks K { s.setStack j { s.shadows j with
        excluded := add64 (s.shadows j).excluded (sub64 t (s.shadows j).leftAt) } with
      stack := j
      last := t } { L with current := j, last := t } := by
  have huntil : chargedUntil s L j = (s.shadows j).leftAt := by
    rw [chargedUntil]
    split
    next heq => rw [heq, hleft]
    · rfl
  have hlast := h.until_le j
  have hexcluded := h.excluded j
  have hstamped := h.stamped j
  rw [huntil] at hlast hexcluded hstamped
  have hsum : add64 (s.shadows j).excluded (sub64 t (s.shadows j).leftAt) =
      (s.shadows j).excluded + (t - (s.shadows j).leftAt) := by
    rw [sub64_of_le (hlast.trans hle) hlt, add64_of_lt (by omega)]
  rw [hsum]
  refine h.resume _ le_rfl hj ⟨rfl, rfl, rfl, h.made⟩ hle hlt (fun _ => hleft) rfl
    (h.overflow j) ?_ (fun f hf => ?_) fun k _ => ?_
  · show (s.shadows j).excluded + (t - (s.shadows j).leftAt) ≤ t
    omega
  · obtain ⟨h₁, h₂, h₃, h₄⟩ := hstamped f hf
    refine ⟨h₁.trans (hlast.trans hle), h₂.trans (Nat.le_add_right _ _), h₃, h₄.trans ?_⟩
    show _ ≤ t - ((s.shadows j).excluded + (t - (s.shadows j).leftAt))
    omega
  · show t - ((s.shadows j).excluded + (t - (s.shadows j).leftAt)) = _
    rw [clockOf, huntil]
    omega

theorem Tracks.enterNew (h : Tracks K s L) (hleft : (s.shadows L.current).leftAt = L.last)
    (hle : L.last ≤ t) (hlt : t < 2 ^ 64) :
    Tracks K { s.setStack s.made .empty with stack := s.made, made := s.made + 1, last := t }
      { L with current := L.made, made := L.made + 1, last := t } := by
  obtain ⟨hempty, hcalls⟩ := h.unused L.made le_rfl
  rw [h.made]
  refine h.resume .empty (Nat.le_succ _) (Nat.lt_succ_self _) ⟨rfl, rfl, rfl, rfl⟩ hle hlt
    (fun _ => hleft) ?_ rfl (Nat.zero_le _) (fun _ hf => (nomatch hf)) fun k hk => ?_
  · rw [hempty]
  · rw [hcalls] at hk
    exact nomatch hk

/-! ### Steps -/

/-- What `mkw_fprof_fiber_leave` leaves. -/
def leave (s : ThreadState) (now : ℕ) : ThreadState :=
  let s := { charge s now with last := now }
  { s.setStack s.stack { s.top with leftAt := now } with switches := add64 s.switches 1 }

/-- What a well-nested hook asks of the functions that are counted. -/
def Admitted (K : Finset ℕ) (L : Ledger) (hook : Hook) : Prop :=
  L.Nested hook ∧ L.Alone hook ∧ ∀ k, hook.entered = some k → k ∈ K

/-- One hook keeps the stacks and the table with the ledger. -/
theorem step_tracks (h : Tracks K s L) (hcard : K.card ≤ kTableSize) {hook : Hook}
    (hordered : hook.Ordered L.last) (hadmitted : Admitted K L hook) :
    Tracks K (step (some s) hook) (L.step hook) := by
  obtain ⟨hnested, halone, hknown⟩ := hadmitted
  cases hook with
  | enter key t0 made t1 =>
    obtain ⟨h0, h1, h2, hlt⟩ := hordered
    obtain ⟨hkey, hroom⟩ := hnested
    -- time is charged first, the call found or counted, and only then its frame opened
    have hcharge := (sameCalls_charge s t0).tracks (h.charge h0 (by omega))
    obtain ⟨i, s', hfind, hi, _, hs'⟩ := hcharge.find hcard (hknown key rfl) hkey
    have hcount := sameCalls_countCall s' (some i)
    have hopen := (hcount.tracks hs').openFrame ((hcount.key (some i)).trans hi) hkey hroom halone
    have hpush : push s key t0 = openFrame (countCall s' (some i)) (some i) t0 := by
      rw [push, hfind]
    show Tracks K (finishHook (push s key t0) t0 t1) _
    rw [hpush]
    exact hopen.finishHook (h1.trans h2) hlt
  | exit key t0 made t1 =>
    obtain ⟨h0, h1, h2, hlt⟩ := hordered
    -- the hook closes the frame on top, as the trace is nested
    obtain ⟨calls, hrunning⟩ := List.head?_eq_some_iff.mp hnested
    have hcharge := (sameCalls_charge s t0).tracks (h.charge h0 (by omega))
    have hclose := (hcharge.closeFrame hrunning).finishHook
      (h1.trans h2) hlt
    show Tracks K (finishHook (pop s key t0) t0 t1)
      { (L.charge t0).setRunning (Ledger.ended key L.running) with last := t1 }
    rw [hrunning, Ledger.ended_cons_self]
    exact hclose
  | switch kept left entered made =>
    obtain ⟨h0, h1, h2, hlt⟩ := hordered
    -- the stack that is left keeps the time it was left at
    have hcharge := (sameCalls_charge s left).tracks (h.charge h0 (by omega))
    have hstacks : (leave s left).shadows = Function.update (charge s left).shadows L.current
        { (charge s left).shadows L.current with leftAt := left } := by
      show Function.update (charge s left).shadows (charge s left).stack
        { (charge s left).shadows (charge s left).stack with leftAt := left } = _
      rw [hcharge.current]
      rfl
    have hsame : SameCalls ((charge s left).setStack L.current
        { (charge s left).shadows L.current with leftAt := left }) (leave s left) :=
      ⟨rfl, rfl, hstacks, fun _ => rfl, fun _ => rfl, fun _ => rfl⟩
    have hleave : Tracks K (leave s left) (L.charge left) := hsame.tracks hcharge.leave
    have hleft : ((leave s left).shadows L.current).leftAt = left := by
      rw [hstacks, Function.update_self]
    cases kept with
    | none => exact hleave.enterNew hleft h1 (h2.trans_lt hlt)
    | some j => exact hleave.enterKept (hnested j rfl) hleft h1 (h2.trans_lt hlt)

/-! ### Runs -/

theorem run_tracks (hcard : K.card ≤ kTableSize) (trace : List Hook) (h : Tracks K s L)
    (hordered : Ordered L.last trace) (hadmitted : Along (Admitted K) L trace) :
    ∃ s', run (some s) trace = some s' ∧ Tracks K s' (L.run trace) := by
  induction trace generalizing s L with
  | nil => exact ⟨s, rfl, h⟩
  | cons hook trace ih =>
    obtain ⟨hfirst, hrest⟩ := hordered
    refine ih (step_tracks h hcard hfirst hadmitted.1) ?_ hadmitted.2
    cases hook with
    | enter => exact hrest
    | exit => exact hrest
    | switch kept => cases kept <;> exact hrest

theorem along_admitted (trace : List Hook) (hnested : Along Ledger.Nested L trace)
    (halone : Along Ledger.Alone L trace) (hentered : entered trace ⊆ K) :
    Along (Admitted K) L trace := by
  induction trace generalizing L with
  | nil => trivial
  | cons hook trace ih =>
    have hmem : ∀ k ∈ (hook :: trace).filterMap Hook.entered, k ∈ K := fun k hk =>
      hentered (List.mem_toFinset.mpr hk)
    refine ⟨⟨hnested.1, halone.1, fun k hk => hmem k ?_⟩, ih hnested.2 halone.2 fun k hk =>
      hmem k ?_⟩
    · exact List.mem_filterMap.mpr ⟨hook, List.mem_cons_self, hk⟩
    · obtain ⟨hook', hin, heq⟩ := List.mem_filterMap.mp (List.mem_toFinset.mp hk)
      exact List.mem_filterMap.mpr ⟨hook', List.mem_cons_of_mem _ hin, heq⟩

/-! ### What the profiler reports -/

/-- The inclusive time that the table has for a function. -/
def ThreadState.inclusiveOf (s : ThreadState) (k : ℕ) : ℕ :=
  match OpenAddressing.find s.keys 0 hash k with
  | some i => (s.stats (some i)).inclusive
  | none => 0

/-- The shadow stacks are as deep as the calls that are open, and each function that is not open any
more has the time that was charged while it was. -/
structure Accounts (s : ThreadState) (L : Ledger) : Prop where
  depth : ∀ j, (s.shadows j).frames.length = (L.calls j).length ∧ (s.shadows j).overflow = 0
  inclusive : ∀ k ≠ 0, (∀ j, k ∉ L.calls j) → s.inclusiveOf k = L.spent k

theorem Tracks.accounts (h : Tracks K s L) : Accounts s L := by
  refine ⟨fun j => ⟨(h.shadows j).length_eq, h.overflow j⟩, fun k hk hclosed => ?_⟩
  unfold ThreadState.inclusiveOf
  rcases OpenAddressing.find_cases s.keys 0 hash k with
    ⟨d, _, hfound, hstop, _⟩ | ⟨hnone, hothers⟩
  · generalize hash k + Fin.ofNat kTableSize d = i at hfound hstop
    rw [hfound]
    dsimp only
    rcases hstop with hkey | hempty
    · obtain ⟨-, hspent⟩ := h.entry i 0 (by rwa [hkey]) fun j _ => by
        rw [hkey]
        exact hclosed j
      rw [hkey, owed_of_not_mem _ _ (hclosed 0)] at hspent
      exact hspent.symm
    · have hnew : ∀ i', s.keys i' ≠ k := by
        intro i' heq
        obtain rfl := Option.some.inj (hfound.symm.trans (h.probed.find_eq heq hk))
        exact hk (heq.symm.trans hempty)
      rw [(h.blank i hempty).2, h.unknown k hk hnew]
  · rw [hnone]
    exact (h.unknown k hk fun i => (hothers i).1).symm

/-- The state of a thread that was attached to the profiler, if it was. -/
def attach (attached : Option ℕ) : Option ThreadState := attached.map .fresh

/-- The time from which a thread is counted. -/
def start (attached : Option ℕ) (hook : Hook) : ℕ := attached.getD hook.start

/-- The first hook finds the state of the thread, or reads the same time when it makes it. -/
def StateAtOnce (attached : Option ℕ) : Hook → Prop
  | .enter _ t0 made _ | .exit _ t0 made _ => attached = none → made = t0
  | .switch .. => True

/-- The times that are counted are the time that passed between the first hook and the last, less the
gaps. -/
def ConservesTime (attached : Option ℕ) (hook : Hook) (trace : List Hook) (s : ThreadState) : Prop :=
  start attached hook + ((hook :: trace).map Hook.gap).sum + s.total =
    ((hook :: trace).getLast (List.cons_ne_nil _ _)).finish

/-- A trace whose calls end in the order in which they began. -/
def WellNested (attached : Option ℕ) (hook : Hook) (trace : List Hook) : Prop :=
  Along Ledger.Nested (.fresh (start attached hook)) (hook :: trace)

/-- A trace that enters no more functions than the table has room for, and none while it is open on
another fiber. -/
def Accountable (attached : Option ℕ) (hook : Hook) (trace : List Hook) : Prop :=
  (entered (hook :: trace)).card ≤ kTableSize ∧
    Along Ledger.Alone (.fresh (start attached hook)) (hook :: trace)

/-- The times are conserved, and the calls are accounted for where they are well nested. -/
def Conserves (attached : Option ℕ) (hook : Hook) (trace : List Hook) : Prop :=
  ∃ s, run (attach attached) (hook :: trace) = some s ∧ ConservesTime attached hook trace s ∧
    (WellNested attached hook trace →
      Accounts s (Ledger.run (.fresh (start attached hook)) (hook :: trace)))

theorem total_fresh (now : ℕ) : (ThreadState.fresh now).total = 0 := by
  have hself : ∑ e, ((ThreadState.fresh now).stats e).self = 0 :=
    Finset.sum_eq_zero fun _ _ => rfl
  rw [ThreadState.total, hself]
  rfl

/-- The first hook, with or without a state. -/
theorem step_first {attached : Option ℕ} {hook : Hook}
    (hordered : hook.Ordered (start attached hook)) (hstate : StateAtOnce attached hook) :
    let s := step (attach attached) hook
    Counted (start attached hook) hook.gap hook.finish s ∧ s.last = hook.finish ∧
      (K.card ≤ kTableSize → Admitted K (.fresh (start attached hook)) hook →
        Tracks K s (Ledger.step (.fresh (start attached hook)) hook)) := by
  have hlt : start attached hook < 2 ^ 64 := by
    cases hook <;> obtain ⟨h0, h1, h2, h3⟩ := hordered <;> omega
  have hfresh : Counted (start attached hook) 0 (start attached hook)
      (.fresh (start attached hook)) := by
    rw [Counted, total_fresh]
    rfl
  have htracks := tracks_fresh K hlt
  have hmade : ∀ s, s = step (some (.fresh (start attached hook))) hook →
      Counted (start attached hook) hook.gap hook.finish s ∧ s.last = hook.finish ∧
        (K.card ≤ kTableSize → Admitted K (.fresh (start attached hook)) hook →
          Tracks K s (Ledger.step (.fresh (start attached hook)) hook)) := by
    rintro s rfl
    obtain ⟨hstep, hlast⟩ := step_counted hfresh hordered
    rw [Nat.zero_add] at hstep
    exact ⟨hstep, hlast, fun hcard => step_tracks htracks hcard hordered⟩
  cases attached with
  | some now => exact hmade _ rfl
  | none =>
    cases hook with
    | enter key t0 made t1 =>
      obtain rfl := hstate rfl
      exact hmade _ rfl
    | exit key t0 made t1 =>
      obtain rfl := hstate rfl
      exact hmade _ rfl
    | switch kept left entered made =>
      -- no state was left: the one that is made here has counted nothing
      obtain ⟨-, h1, h2, h3⟩ := hordered
      have htotal : (step (attach none) (.switch kept left entered made)).total = 0 := by
        cases kept <;> exact total_fresh made
      have hcounted : Counted left (entered - left) entered
          (step (attach none) (.switch kept left entered made)) := by
        rw [Counted, htotal]
        omega
      refine ⟨hcounted, by cases kept <;> rfl, fun _ hadmitted => ?_⟩
      have hidle : (Ledger.fresh left).charge left = { Ledger.fresh 0 with last := left } := by
        unfold Ledger.charge
        congr 1
      have hzero : Tracks K (.fresh made) (.fresh 0) :=
        SameCalls.tracks (s := .fresh 0) ⟨rfl, rfl, rfl, fun _ => rfl, fun _ => rfl, fun _ => rfl⟩
          (tracks_fresh K (by decide))
      have hentered : entered < 2 ^ 64 := by omega
      show Tracks K (step none (.switch kept left entered made))
        (((Ledger.fresh left).charge left).resume kept entered)
      rw [hidle]
      cases kept with
      | none => exact hzero.enterNew rfl (Nat.zero_le _) hentered
      | some j => exact hzero.enterKept (hadmitted.1 j rfl) rfl (Nat.zero_le _) hentered

/-- The time that a trace takes is counted, whatever its calls are. -/
theorem run_conservesTime {attached : Option ℕ} {hook : Hook} {trace : List Hook}
    (hordered : Ordered (start attached hook) (hook :: trace)) (hstate : StateAtOnce attached hook) :
    ∃ s, run (attach attached) (hook :: trace) = some s ∧ ConservesTime attached hook trace s := by
  obtain ⟨hfirst, hrest⟩ := hordered
  obtain ⟨hcounted, hlast, -⟩ := step_first (K := ∅) hfirst hstate
  rw [← hlast] at hcounted hrest
  obtain ⟨s, hrun, hs, hend⟩ := run_counted trace hcounted hrest
  refine ⟨s, hrun, ?_⟩
  have hfinish : s.last = ((hook :: trace).getLast (List.cons_ne_nil _ _)).finish := by
    rw [hend, hlast]
    by_cases hnil : trace = []
    · subst hnil
      rfl
    · rw [List.getLast_cons hnil, List.getLast?_eq_some_getLast hnil]
      rfl
  rw [ConservesTime, List.map_cons, List.sum_cons, ← hfinish]
  exact hs

/-- Well-nested calls are accounted for. -/
theorem run_accounts {attached : Option ℕ} {hook : Hook} {trace : List Hook}
    (hordered : Ordered (start attached hook) (hook :: trace)) (hstate : StateAtOnce attached hook)
    (hnested : WellNested attached hook trace) (haccountable : Accountable attached hook trace) :
    ∃ s, run (attach attached) (hook :: trace) = some s ∧
      Accounts s (Ledger.run (.fresh (start attached hook)) (hook :: trace)) := by
  obtain ⟨hfirst, hrest⟩ := hordered
  obtain ⟨hcard, halone⟩ := haccountable
  obtain ⟨-, hlast, htracks⟩ := step_first (K := entered (hook :: trace)) hfirst hstate
  obtain ⟨hadmitted, hadmitted'⟩ := along_admitted _ hnested halone subset_rfl
  have hlast' : (Ledger.step (.fresh (start attached hook)) hook).last = hook.finish := by
    cases hook with
    | enter => rfl
    | exit => rfl
    | switch kept => cases kept <;> rfl
  obtain ⟨s, hrun, hs⟩ := run_tracks hcard trace (htracks hcard hadmitted)
    (hlast' ▸ hrest) hadmitted'
  exact ⟨s, hrun, hs.accounts⟩

/-- The profiler conserves time on every trace, and accounts for the calls of a well-nested one that
enters at most as many functions as the table has room for, and none that is open on another fiber. -/
theorem profiler_conserves (attached : Option ℕ) (hook : Hook) (trace : List Hook)
    (hordered : Ordered (start attached hook) (hook :: trace))
    (hstate : StateAtOnce attached hook) :
    (∃ s, run (attach attached) (hook :: trace) = some s ∧ ConservesTime attached hook trace s) ∧
    ((WellNested attached hook trace → Accountable attached hook trace) →
      Conserves attached hook trace) := by
  obtain ⟨s, hrun, htime⟩ := run_conservesTime hordered hstate
  refine ⟨⟨s, hrun, htime⟩, fun haccountable => ⟨s, hrun, htime, fun hnested => ?_⟩⟩
  obtain ⟨s', hrun', haccounts⟩ := run_accounts hordered hstate hnested (haccountable hnested)
  obtain rfl := Option.some.inj (hrun'.symm.trans hrun)
  exact haccounts

theorem profiler_conserves_call : Conserves none (.enter 5 10 10 11)
    [.enter 5 20 20 21, .exit 5 30 30 31, .switch none 40 50 51, .enter 7 60 60 61,
      .exit 7 70 70 71, .switch (some 0) 80 90 91, .exit 5 100 100 101] := by
  refine (profiler_conserves none (.enter 5 10 10 11) _ (by decide) fun _ => rfl).2 fun _ =>
    ⟨by decide, fun j _ => List.not_mem_nil, ?_, trivial, trivial, ?_, trivial, trivial, trivial,
      trivial⟩
  · rintro (_ | j) hj
    · exact absurd rfl hj
    · exact List.not_mem_nil
  · rintro (_ | _ | j) hj
    · decide
    · exact absurd rfl hj
    · exact List.not_mem_nil

/-- A function that is open on one fiber is not credited with its time on another: of the 28 units in
which it is open on the fiber that runs, it is credited with 19. -/
theorem other_fiber_lost : ¬ ∀ attached hook trace, Ordered (start attached hook) (hook :: trace) →
    Conserves attached hook trace := by
  intro hall
  obtain ⟨s, hrun, -, haccounts⟩ := hall none (.enter 5 10 10 11)
    [.switch none 20 30 31, .enter 5 40 40 41, .exit 5 50 50 51, .switch (some 0) 60 70 71,
      .exit 5 80 80 81] (by decide)
  obtain ⟨-, hinclusive⟩ := haccounts ⟨⟨by decide, by decide⟩, fun _ hj => (by cases hj),
    ⟨by decide, by decide⟩, rfl, fun j hj => Option.some.inj hj ▸ by decide, rfl, trivial⟩
  have hspent := hinclusive 5 (by decide) ?_
  · obtain rfl := Option.some.inj hrun
    exact absurd hspent (by decide)
  · rintro (_ | _ | j)
    · exact List.not_mem_nil
    · exact List.not_mem_nil
    · exact List.not_mem_nil

end FunctionProfiler
