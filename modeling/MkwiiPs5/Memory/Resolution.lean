import MkwiiPs5.Memory.Protocol

/-!
# Resolving an interval

The whole of `ResolveDeferredReads` over the critical sections of the protocol: it searches, runs the
callback of what it finds and searches again. A callback may re-enter the registry, but like that of
an EFB copy it registers nothing.
-/

namespace Memory

variable {κ ω μ : Type*}

def DeferredRead.idle (read : DeferredRead κ ω) : DeferredRead κ ω :=
  { read with executing := false }

/-- The action registers nothing and is not one of an invocation. -/
def Action.Settles (call : ℕ) : Action κ ω → Prop
  | .registerRead .. | .registerRamRead .. => False
  | .cancel _ | .clear => True
  | .access i _ _ | .search i | .finish i _ => i ≠ call

/-- What runs between entering a callback and its return. `μ` stands for the state of the program
outside the registry. -/
structure Callbacks (rt : Runtime) (κ ω μ : Type*) where
  run : (call : ℕ) → κ → ω → System κ ω → μ → (System κ ω × μ) × Outcome
  settles : ∀ call callback user s m, ∃ actions,
    s.run rt actions = some (run call callback user s m).1.1 ∧ ∀ a ∈ actions, a.Settles call

namespace System

/-- The loop of one invocation; it ends with the reply to the caller. -/
def resolveLoop {rt : Runtime} (callbacks : Callbacks rt κ ω μ) (call : ℕ) :
    ℕ → System κ ω → μ → Option (Reply × System κ ω × μ)
  | 0, _, _ => none
  | fuel + 1, s, m =>
    match s.step rt (.search call) with
    | none => none
    | some (s, .pending) =>
      match (s.calls call).bind Call.running with
      | none => none
      | some read =>
        let ((s, m), outcome) := callbacks.run call read.callback read.user s m
        match s.step rt (.finish call outcome) with
        | none => none
        | some (s, .pending) => resolveLoop callbacks call fuel s m
        | some (s, reply) => some (reply, s, m)
    | some (s, reply) => some (reply, s, m)

def resolveDeferredReads {rt : Runtime} (callbacks : Callbacks rt κ ω μ) (call fuel addr length : ℕ)
    (s : System κ ω) (m : μ) : Option (Reply × System κ ω × μ) :=
  match s.step rt (.access call addr length) with
  | none => none
  | some (s, .pending) => resolveLoop callbacks call fuel s m
  | some (s, reply) => some (reply, s, m)

/-! ### Nothing is registered -/

/-- No registration is in the second state that was not in the first. -/
def Settled (s s' : System κ ω) : Prop :=
  (s'.registry.reads.map DeferredRead.idle).Sublist (s.registry.reads.map DeferredRead.idle)

variable {rt : Runtime} {s s' s'' : System κ ω} {call addr length : ℕ}

theorem Settled.refl (s : System κ ω) : s.Settled s := List.Sublist.refl _

theorem settled_setCall (s : System κ ω) (call : ℕ) (value : Option (Call κ ω)) :
    s.Settled (s.setCall call value) := List.Sublist.refl _

theorem Settled.trans (h : s.Settled s') (h' : s'.Settled s'') : s.Settled s'' :=
  List.Sublist.trans h' h

theorem Settled.length_le (h : s.Settled s') :
    s'.registry.reads.length ≤ s.registry.reads.length := by
  simpa using List.Sublist.length_le h

theorem pendingRanges_idle (reads : List (DeferredRead κ ω)) :
    pendingRanges (reads.map DeferredRead.idle) = pendingRanges reads := by
  induction reads with
  | nil => rfl
  | cons read reads ih =>
    simp only [pendingRanges, List.map_cons, List.flatMap_cons] at ih ⊢
    rw [ih, DeferredRead.idle]

theorem Settled.pending (h : s.Settled s') {range : DeferredRange}
    (hrange : range ∈ pendingRanges s'.registry.reads) :
    range ∈ pendingRanges s.registry.reads := by
  rw [← pendingRanges_idle] at hrange ⊢
  obtain ⟨read, hread, hmem⟩ := mem_pendingRanges.mp hrange
  exact mem_pendingRanges.mpr ⟨read, h.subset hread, hmem⟩

theorem Settled.of_sublist (h : s'.registry.reads.Sublist s.registry.reads) : s.Settled s' :=
  h.map _

theorem idle_setExecuting (token : ℕ) (executing : Bool) (registry : Registry κ ω) :
    (setExecuting token executing registry).reads.map DeferredRead.idle =
      registry.reads.map DeferredRead.idle := by
  simp only [setExecuting, List.map_map]
  refine List.map_congr_left fun read _ => ?_
  exact mark_idle token executing read

theorem Settled.of_setExecuting {token : ℕ} {executing : Bool}
    (h : s'.registry = setExecuting token executing s.registry) : s.Settled s' := by
  rw [Settled, h, idle_setExecuting]

theorem length_finishDeferredRead_lt {registry : Registry κ ω} {read : DeferredRead κ ω}
    (h : read ∈ registry.reads) :
    (finishDeferredRead rt read registry).reads.length < registry.reads.length :=
  List.length_filter_lt_length_iff_exists.mpr ⟨read, h, by simp⟩

/-- An action that settles keeps the invocation as it is and registers nothing. -/
theorem step_settles {action : Action κ ω} {reply : Reply} (hsettles : action.Settles call)
    (hstep : s.step rt action = some (s', reply)) :
    s'.calls call = s.calls call ∧ s.Settled s' := by
  cases action with
  | registerRead addr length callback user => exact hsettles.elim
  | registerRamRead addr length callback user => exact hsettles.elim
  | cancel token =>
    simp only [step] at hstep
    split at hstep
    · next registry hcancel =>
      cases hstep
      -- a cancelled record only leaves the list
      refine ⟨rfl, .of_sublist ?_⟩
      rw [cancelDeferredRead] at hcancel
      split at hcancel
      · cases hcancel
      · split at hcancel
        · cases hcancel
        · cases hcancel
          exact List.eraseP_sublist
    · next registry hcancel =>
      cases hstep
      obtain rfl := cancelDeferredRead_false hcancel
      exact ⟨rfl, .refl _⟩
  | clear =>
    simp only [step] at hstep
    split at hstep
    · next registry hclear =>
      cases hstep
      refine ⟨rfl, .of_sublist ?_⟩
      rw [clearDeferredReads] at hclear
      split at hclear
      · cases hclear
      · cases hclear
        exact List.nil_sublist _
    · cases hstep
      exact ⟨rfl, .refl _⟩
  | access i addr length =>
    simp only [step] at hstep
    split at hstep
    · cases hstep
    · split at hstep
      · cases hstep
        exact ⟨rfl, .refl _⟩
      · split at hstep
        · cases hstep
          exact ⟨rfl, .refl _⟩
        · cases hstep
          -- another call begins; the settling one is not touched
          exact ⟨setCall_other hsettles.symm, .refl _⟩
  | search i =>
    simp only [step] at hstep
    split at hstep
    · split at hstep
      · cases hstep
        exact ⟨setCall_other hsettles.symm, .refl _⟩
      · split at hstep
        · cases hstep
          exact ⟨setCall_other hsettles.symm, .refl _⟩
        · cases hstep
          exact ⟨setCall_other hsettles.symm, .of_setExecuting rfl⟩
    · cases hstep
  | finish i outcome =>
    simp only [step] at hstep
    split at hstep
    · cases outcome with
      | succeeded =>
        cases hstep
        -- the finished record leaves the list
        exact ⟨setCall_other hsettles.symm, .of_sublist List.filter_sublist⟩
      | returnedFalse =>
        cases hstep
        exact ⟨setCall_other hsettles.symm, .of_setExecuting rfl⟩
      | threw =>
        cases hstep
        exact ⟨setCall_other hsettles.symm, .of_setExecuting rfl⟩
    · cases hstep

theorem run_settles {actions : List (Action κ ω)} (hsettles : ∀ a ∈ actions, a.Settles call)
    (hrun : s.run rt actions = some s') : s'.calls call = s.calls call ∧ s.Settled s' := by
  induction actions generalizing s with
  | nil =>
    cases hrun
    exact ⟨rfl, .refl _⟩
  | cons action actions ih =>
    simp only [System.run] at hrun
    split at hrun
    · cases hrun
    · next next reply hstep =>
      obtain ⟨hcall, hstepped⟩ := step_settles (hsettles action List.mem_cons_self) hstep
      obtain ⟨hcalls, hrest⟩ := ih (fun a ha => hsettles a (List.mem_cons_of_mem _ ha)) hrun
      exact ⟨hcalls.trans hcall, hstepped.trans hrest⟩

theorem run_append {actions actions' : List (Action κ ω)} (h : s.run rt actions = some s')
    (h' : s'.run rt actions' = some s'') : s.run rt (actions ++ actions') = some s'' := by
  induction actions generalizing s with
  | nil =>
    cases h
    exact h'
  | cons action actions ih =>
    simp only [List.cons_append, System.run] at h ⊢
    split at h
    · cases h
    · exact ih h

theorem run_step {action : Action κ ω} {reply : Reply}
    (h : s.step rt action = some (s', reply)) : s.run rt [action] = some s' := by
  simp only [System.run, h]

/-! ### The resolution of an interval -/

/-- What a search of an invocation without a callback does. -/
theorem search_cases (rt : Runtime) (hcall : s.calls call = some ⟨addr, length, none⟩) :
    (findDeferredRead rt addr length s.registry = none ∧
      s.step rt (.search call) = some (s.setCall call none, .answer true)) ∨
    s.step rt (.search call) = some (s.setCall call none, .threw) ∨
    ∃ s₁ read, s.step rt (.search call) = some (s₁, .pending) ∧ s.Settled s₁ ∧
      s₁.calls call = some ⟨addr, length, some read⟩ := by
  simp only [step, hcall]
  cases hfind : findDeferredRead rt addr length s.registry with
  | none => exact .inl ⟨rfl, rfl⟩
  | some found =>
    right
    cases hexec : found.executing with
    | true => exact .inl (by simp only [hexec, if_true])
    | false =>
      let s₁ := { s with registry := setExecuting found.token true s.registry }.setCall call
        (some ⟨addr, length, some { found with executing := true }⟩)
      have hsettled : s.Settled s₁ := .of_setExecuting rfl
      refine .inr ⟨s₁, { found with executing := true }, ?_, hsettled, setCall_self⟩
      simp only [hexec, Bool.false_eq_true, if_false, s₁]

/-- What the return of a callback does; a success takes its registration away. -/
theorem Inv.finish_cases (h : s.Inv rt) {read : DeferredRead κ ω}
    (hcall : s.calls call = some ⟨addr, length, some read⟩) (outcome : Outcome) :
    ∃ s₁, s.Settled s₁ ∧
      (outcome = .succeeded ∧ s.step rt (.finish call outcome) = some (s₁, .pending) ∧
          s₁.calls call = some ⟨addr, length, none⟩ ∧
          s₁.registry.reads.length < s.registry.reads.length ∨
        outcome ≠ .succeeded ∧ s.step rt (.finish call outcome) = some (s₁, .threw) ∧
          s₁.calls call = none) := by
  simp only [step, hcall]
  cases outcome with
  | succeeded =>
    exact ⟨_, .of_sublist List.filter_sublist,
      .inl ⟨rfl, rfl, setCall_self, length_finishDeferredRead_lt (h.running_mem hcall rfl)⟩⟩
  | returnedFalse =>
    exact ⟨_, .of_setExecuting rfl, .inr ⟨by decide, rfl, setCall_self⟩⟩
  | threw =>
    exact ⟨_, .of_setExecuting rfl, .inr ⟨by decide, rfl, setCall_self⟩⟩

/-- The end of a resolution: it was a run of the protocol that registered nothing. Where it came
back, all callbacks of the invocation succeeded and nothing pending meets the interval. -/
structure Resolved (rt : Runtime) (call addr length : ℕ) (s s' : System κ ω) (reply : Reply) :
    Prop where
  settled : s.Settled s'
  ended : s'.calls call = none
  replied : reply = .answer true ∨ reply = .threw
  run : ∃ actions, s.run rt actions = some s' ∧
    (reply = .answer true → ∀ outcome, .finish call outcome ∈ actions → outcome = .succeeded)
  clear : reply = .answer true → ∀ range ∈ pendingRanges s'.registry.reads,
    ¬ Interval.Meets addr length range.start range.length

/-- One more action, or run of a callback, before a resolution. -/
theorem Resolved.head {reply : Reply} {actions : List (Action κ ω)}
    (h : Resolved rt call addr length s' s'' reply) (hrun : s.run rt actions = some s')
    (hsettled : s.Settled s')
    (hactions : ∀ outcome, .finish call outcome ∈ actions → outcome = .succeeded) :
    Resolved rt call addr length s s'' reply := by
  obtain ⟨rest, hrest, houtcomes⟩ := h.run
  refine ⟨hsettled.trans h.settled, h.ended, h.replied, ⟨_, run_append hrun hrest, ?_⟩, h.clear⟩
  intro hreply outcome hmem
  rcases List.mem_append.mp hmem with hmem | hmem
  · exact hactions outcome hmem
  · exact houtcomes hreply outcome hmem

theorem resolveLoop_spec (callbacks : Callbacks rt κ ω μ) (hs : s.Reachable rt)
    (hcall : s.calls call = some ⟨addr, length, none⟩) (m : μ) :
    ∃ reply s' m', Resolved rt call addr length s s' reply ∧
      ∀ fuel, s.registry.reads.length < fuel →
        resolveLoop callbacks call fuel s m = some (reply, s', m') := by
  -- each round that goes on takes a registration away
  induction hn : s.registry.reads.length using Nat.strong_induction_on generalizing s m with
  | _ n ih =>
  rcases search_cases rt hcall with ⟨hnone, hsearch⟩ | hsearch |
    ⟨s₁, read, hsearch, hs₁, hcall₁⟩
  · refine ⟨.answer true, s.setCall call none, m,
      ⟨settled_setCall s call none, setCall_self, .inl rfl, ⟨_, run_step hsearch, ?_⟩,
        fun _ => (reachable_inv hs).answered hcall hsearch⟩, ?_⟩
    · intro _ outcome hmem
      simp at hmem
    · intro fuel hfuel
      obtain ⟨k, rfl⟩ := Nat.exists_eq_add_one_of_ne_zero (Nat.ne_zero_of_lt hfuel)
      simp only [resolveLoop, hsearch]
  · refine ⟨.threw, s.setCall call none, m,
      ⟨settled_setCall s call none, setCall_self, .inr rfl, ⟨_, run_step hsearch, nofun⟩, nofun⟩, ?_⟩
    intro fuel hfuel
    obtain ⟨k, rfl⟩ := Nat.exists_eq_add_one_of_ne_zero (Nat.ne_zero_of_lt hfuel)
    simp only [resolveLoop, hsearch]
  · obtain ⟨actions, hrun, hsettles⟩ :=
      callbacks.settles call read.callback read.user s₁ m
    obtain ⟨hcall₂, hs₂⟩ := run_settles hsettles hrun
    rw [hcall₁] at hcall₂
    have hreach := (hs.step _ hsearch).run hrun
    obtain ⟨s₃, hs₃, ⟨hok, hfinish, hcall₃, hless⟩ | ⟨hfailed, hfinish, hcall₃⟩⟩ :=
      (reachable_inv hreach).finish_cases hcall₂
        (callbacks.run call read.callback read.user s₁ m).2
    · have hlt : s₃.registry.reads.length < n := by
        have := hs₁.length_le
        have := hs₂.length_le
        omega
      obtain ⟨reply, s', m', hresolved, hloop⟩ :=
        ih _ hlt (hreach.step _ hfinish) hcall₃
          (callbacks.run call read.callback read.user s₁ m).1.2 rfl
      refine ⟨reply, s', m', ?_, ?_⟩
      · refine hresolved.head (run_append (run_step hsearch) (run_append hrun (run_step hfinish)))
          (hs₁.trans (hs₂.trans hs₃)) ?_
        intro outcome hmem
        simp only [List.mem_append, List.mem_singleton, reduceCtorEq, false_or] at hmem
        rcases hmem with hmem | hmem
        · exact absurd rfl (hsettles _ hmem)
        · cases hmem
          exact hok
      · intro fuel hfuel
        obtain ⟨k, rfl⟩ := Nat.exists_eq_add_one_of_ne_zero (Nat.ne_zero_of_lt hfuel)
        simp only [resolveLoop, hsearch, hcall₁, Option.bind_some, hfinish]
        exact hloop k (by omega)
    · refine ⟨.threw, s₃, (callbacks.run call read.callback read.user s₁ m).1.2,
        ⟨hs₁.trans (hs₂.trans hs₃), hcall₃, .inr rfl,
          ⟨_, run_append (run_step hsearch) (run_append hrun (run_step hfinish)), nofun⟩, nofun⟩, ?_⟩
      intro fuel hfuel
      obtain ⟨k, rfl⟩ := Nat.exists_eq_add_one_of_ne_zero (Nat.ne_zero_of_lt hfuel)
      simp only [resolveLoop, hsearch, hcall₁, Option.bind_some, hfinish]

/-- Every resolution by a new invocation comes to an end. -/
theorem resolveDeferredReads_spec (callbacks : Callbacks rt κ ω μ) (hs : s.Reachable rt)
    (hcall : s.calls call = none) (hlength : 0 < length) (hend : addr + length ≤ kAddressSpace)
    (m : μ) :
    ∃ reply s' m', Resolved rt call addr length s s' reply ∧
      ∀ fuel, s.registry.reads.length < fuel →
        resolveDeferredReads callbacks call fuel addr length s m = some (reply, s', m') := by
  have haccess : s.step rt (.access call addr length) =
      some (s.setCall call (some ⟨addr, length, none⟩), .pending) := by
    simp only [step, hcall, Option.isSome_none, Bool.false_eq_true, if_false]
    rw [if_neg (by omega), if_neg (by omega)]
  obtain ⟨reply, s', m', hresolved, hloop⟩ :=
    resolveLoop_spec callbacks (hs.step _ haccess) setCall_self m
  refine ⟨reply, s', m', hresolved.head (run_step haccess) (settled_setCall s call _) ?_, ?_⟩
  · intro outcome hmem
    simp at hmem
  · intro fuel hfuel
    simp only [resolveDeferredReads, haccess]
    exact hloop fuel hfuel

/-! ### Registrations in RAM -/

/-- The states of the runs that register by `RegisterDeferredRamRead` only. -/
inductive RamReachable (rt : Runtime) : System κ ω → Prop
  | initial {s : System κ ω} (h : s.Initial) : RamReachable rt s
  | step {s s' : System κ ω} {reply : Reply} (action : Action κ ω) (h : RamReachable rt s)
      (hram : ∀ addr length callback user, action ≠ .registerRead addr length callback user)
      (hstep : s.step rt action = some (s', reply)) : RamReachable rt s'

theorem RamReachable.reachable (h : s.RamReachable rt) : s.Reachable rt := by
  induction h with
  | initial h => exact .initial h
  | step action _ _ hstep ih => exact ih.step action hstep

/-- All registrations cover the three aliases of a range of physical RAM. -/
def Aliased (s : System κ ω) : Prop :=
  ∀ read ∈ s.registry.reads, ∃ physical length hl he, read.ranges = aliasRanges physical length hl he

theorem Settled.aliased (h : s.Settled s') (hs : s.Aliased) : s'.Aliased := by
  intro read hread
  obtain ⟨old, hold, hidle⟩ := List.mem_map.mp (h.subset (List.mem_map_of_mem hread))
  obtain ⟨physical, length, hl, he, hranges⟩ := hs old hold
  exact ⟨physical, length, hl, he, (congrArg DeferredRead.ranges hidle).symm.trans hranges⟩

/-- An action that is no registration settles for any other invocation. -/
theorem exists_settles {action : Action κ ω}
    (hread : ∀ addr length callback user, action ≠ .registerRead addr length callback user)
    (hram : ∀ addr length callback user, action ≠ .registerRamRead addr length callback user) :
    ∃ call, action.Settles call := by
  cases action with
  | registerRead addr length callback user => exact absurd rfl (hread addr length callback user)
  | registerRamRead addr length callback user => exact absurd rfl (hram addr length callback user)
  | cancel token => exact ⟨0, trivial⟩
  | clear => exact ⟨0, trivial⟩
  | access i addr length => exact ⟨i + 1, (Nat.succ_ne_self i).symm⟩
  | search i => exact ⟨i + 1, (Nat.succ_ne_self i).symm⟩
  | finish i outcome => exact ⟨i + 1, (Nat.succ_ne_self i).symm⟩

theorem Aliased.step {action : Action κ ω} {reply : Reply} (h : s.Aliased)
    (hread : ∀ addr length callback user, action ≠ .registerRead addr length callback user)
    (hstep : s.step rt action = some (s', reply)) : s'.Aliased := by
  by_cases hram : ∃ addr length callback user, action = .registerRamRead addr length callback user
  · obtain ⟨addr, length, callback, user, rfl⟩ := hram
    simp only [System.step] at hstep
    obtain heq | ⟨cb, owner, hl, he, -, -, -, -, heq⟩ :=
      registerDeferredRamRead_cases rt addr length callback user s.registry
    · rw [heq, register_same] at hstep
      cases hstep
      exact h
    · rw [heq] at hstep
      cases hstep
      intro read hmem
      obtain ⟨token, -, -, -, hreads, -⟩ := insertDeferredRead_spec rt
        ⟨0, aliasRanges (addr &&& 0x3fffffff) length hl he, cb, owner, some owner, false⟩ s.registry
      change read ∈ (insertDeferredRead rt _ s.registry).2.reads at hmem
      rw [hreads, List.mem_append, List.mem_singleton] at hmem
      rcases hmem with hmem | rfl
      · exact h read hmem
      · exact ⟨_, _, hl, he, rfl⟩
  · obtain ⟨call, hsettles⟩ := exists_settles hread
      fun addr length callback user heq => hram ⟨addr, length, callback, user, heq⟩
    exact (step_settles hsettles hstep).2.aliased h

theorem RamReachable.aliased (h : s.RamReachable rt) : s.Aliased := by
  induction h with
  | initial h =>
    intro read hread
    rw [h.reads] at hread
    cases hread
  | step action _ hread hstep ih => exact ih.step hread hstep

/-- What meets no registration through one window of RAM meets none through any window. -/
theorem Aliased.clear {physical window n : ℕ} (h : s.Aliased) (hwindow : window ∈ ramWindows)
    (hend : physical + n ≤ 0x18000000)
    (hclear : ∀ range ∈ pendingRanges s.registry.reads,
      ¬ Interval.Meets (physical ||| window) n range.start range.length) :
    ∀ window' ∈ ramWindows, ∀ range ∈ pendingRanges s.registry.reads,
      ¬ Interval.Meets (physical ||| window') n range.start range.length := by
  intro window' hwindow' range hrange hmeets
  obtain ⟨read, hread, hmem⟩ := mem_pendingRanges.mp hrange
  obtain ⟨start, length, hl, he, hranges⟩ := h read hread
  rw [hranges] at hmem
  obtain ⟨window'', hwindow'', hstart, hlength⟩ := mem_aliasRanges.mp hmem
  rw [hstart, hlength, lor_window (by omega) hwindow', lor_window (by omega) hwindow''] at hmeets
  obtain ⟨h₁, h₂⟩ := hmeets
  have hsame : window' = window'' := by
    simp only [ramWindows, List.mem_cons, List.not_mem_nil, or_false] at hwindow' hwindow''
    omega
  subst hsame
  -- the alias of the same registration in the window that was searched
  have halias : aliasRange start length window hl he hwindow ∈ pendingRanges s.registry.reads :=
    mem_pendingRanges.mpr ⟨read, hread, hranges ▸ mem_aliasRanges.mpr ⟨window, hwindow, rfl, rfl⟩⟩
  refine hclear _ halias ?_
  have hbound : start < 0x40000000 := by omega
  rw [show (aliasRange start length window hl he hwindow).start = start + window from
    lor_window hbound hwindow, lor_window (by omega) hwindow]
  change Interval.Meets _ _ _ length
  exact ⟨by omega, by omega⟩

end System

end Memory
