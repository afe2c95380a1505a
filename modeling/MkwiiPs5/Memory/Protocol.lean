import MkwiiPs5.Memory.Guards

/-!
# The registry as a protocol

`ResolveDeferredReads` runs its callbacks outside the registry mutex, so other
operations come between its critical sections: from the callback itself, which may
re-enter the registry, or from another thread. Each critical section is one action
here, and a run is any sequence of enabled actions.
-/

namespace Memory

variable {κ ω : Type*}

/-- One invocation of `ResolveDeferredReads`: its arguments, and the registration
`match` while the callback of that registration runs. -/
structure Call (κ ω : Type*) where
  addr : ℕ
  length : ℕ
  running : Option (DeferredRead κ ω)

/-- The registry, the invocations under way, and what became of the registrations. -/
structure System (κ ω : Type*) where
  registry : Registry κ ω
  calls : ℕ → Option (Call κ ω)
  registered : List (DeferredRead κ ω)
  materialised : List ℕ
  cancelled : List ℕ
  cleared : List ℕ

/-- How a callback comes back. -/
inductive Outcome
  | succeeded
  | returnedFalse
  | threw
deriving DecidableEq

inductive Action (κ ω : Type*)
  | registerRead (addr length : ℕ) (callback : Option κ) (user : ω)
  | registerRamRead (addr length : ℕ) (callback : Option κ) (user : Option ω)
  | cancel (token : ℕ)
  | clear
  | access (call addr length : ℕ)
  | search (call : ℕ)
  | finish (call : ℕ) (outcome : Outcome)

/-- What an action hands to its caller; `pending` while the invocation goes on. -/
inductive Reply
  | token (token : ℕ)
  | answer (result : Bool)
  | done
  | threw
  | pending
deriving DecidableEq

namespace System

/-- Records what a registration added to the registry. -/
def register (s : System κ ω) (registry : Registry κ ω) : System κ ω :=
  { s with
    registry := registry
    registered := s.registered ++ registry.reads.drop s.registry.reads.length }

def setCall (s : System κ ω) (call : ℕ) (value : Option (Call κ ω)) : System κ ω :=
  { s with calls := Function.update s.calls call value }

/-- One action; `none` where it is not enabled. -/
def step (rt : Runtime) (s : System κ ω) : Action κ ω → Option (System κ ω × Reply)
  | .registerRead addr length callback user =>
    let result := registerDeferredRead rt addr length callback user s.registry
    some (s.register result.2, .token result.1)
  | .registerRamRead addr length callback user =>
    let result := registerDeferredRamRead rt addr length callback user s.registry
    some (s.register result.2, .token result.1)
  | .cancel token =>
    match cancelDeferredRead rt token s.registry with
    | (true, registry) =>
      some ({ s with registry := registry, cancelled := token :: s.cancelled }, .answer true)
    | (false, registry) => some ({ s with registry := registry }, .answer false)
  | .clear =>
    match clearDeferredReads rt s.registry with
    | some registry =>
      some ({ s with
        registry := registry
        cleared := s.registry.reads.map (·.token) ++ s.cleared }, .done)
    | none => some (s, .threw)
  | .access call addr length =>
    if (s.calls call).isSome then none
    else if length = 0 then some (s, .answer true)
    else if length > kAddressSpace - addr then some (s, .threw)
    else some (s.setCall call (some ⟨addr, length, none⟩), .pending)
  | .search call =>
    match s.calls call with
    | some ⟨addr, length, none⟩ =>
      match findDeferredRead rt addr length s.registry with
      | none => some (s.setCall call none, .answer true)
      | some found =>
        if found.executing then some (s.setCall call none, .threw)
        else
          some ({ s with registry := setExecuting found.token true s.registry }.setCall call
            (some ⟨addr, length, some { found with executing := true }⟩), .pending)
    | _ => none
  | .finish call outcome =>
    match s.calls call with
    | some ⟨addr, length, some running⟩ =>
      match outcome with
      | .succeeded =>
        some ({ s with
          registry := finishDeferredRead rt running s.registry
          materialised := running.token :: s.materialised }.setCall call
            (some ⟨addr, length, none⟩), .pending)
      | _ =>
        some ({ s with registry := setExecuting running.token false s.registry }.setCall call
          none, .threw)
    | _ => none

/-- An empty registry with clear guard tables, and no invocation. -/
structure Initial (s : System κ ω) : Prop where
  reads : s.registry.reads = []
  counters : ∀ subPage, s.registry.tables.deferredReadCoveredSubPages subPage = 0
  flags : ∀ page, s.registry.tables.deferredReadCoveredPages page = 0
  calls : ∀ call, s.calls call = none
  registered : s.registered = []
  materialised : s.materialised = []
  cancelled : s.cancelled = []
  cleared : s.cleared = []

/-- The states of all runs: any actions in any order, with any outcomes. -/
inductive Reachable (rt : Runtime) : System κ ω → Prop
  | initial {s : System κ ω} (h : s.Initial) : Reachable rt s
  | step {s s' : System κ ω} {reply : Reply} (action : Action κ ω) (h : Reachable rt s)
      (hstep : s.step rt action = some (s', reply)) : Reachable rt s'

/-- The state after a list of actions. -/
def run (rt : Runtime) (s : System κ ω) : List (Action κ ω) → Option (System κ ω)
  | [] => some s
  | action :: actions =>
    match s.step rt action with
    | none => none
    | some (s', _) => s'.run rt actions

theorem Reachable.run {rt : Runtime} {s s' : System κ ω} {actions : List (Action κ ω)}
    (h : s.Reachable rt) (hrun : s.run rt actions = some s') : s'.Reachable rt := by
  induction actions generalizing s with
  | nil =>
    cases hrun
    exact h
  | cons action actions ih =>
    simp only [System.run] at hrun
    split at hrun
    · cases hrun
    · next next reply hstep => exact ih (h.step action hstep) hrun

/-- How often a token appears among the live registrations and the ended ones. -/
def account (s : System κ ω) (token : ℕ) : ℕ :=
  (s.registry.reads.map (·.token)).count token + s.materialised.count token +
    s.cancelled.count token + s.cleared.count token

/-- The invariant of all runs. -/
structure Inv (rt : Runtime) (s : System κ ω) : Prop where
  guarded : s.registry.Guarded
  valid : ∀ {i call}, s.calls i = some call → 0 < call.length ∧
    call.addr + call.length ≤ kAddressSpace
  fresh : ∀ read ∈ s.registered, 0 < read.token ∧ read.token < s.registry.nextToken
  distinct : (s.registered.map (·.token)).Nodup
  account_eq : ∀ token, s.account token = (s.registered.map (·.token)).count token
  recorded : ∀ read ∈ s.registry.reads, { read with executing := false } ∈ s.registered
  running : ∀ {i call read}, s.calls i = some call → call.running = some read →
    read.executing = true ∧
      findDeferredRead rt call.addr call.length s.registry = some read
  executing : ∀ read ∈ s.registry.reads, read.executing = true →
    ∃ i call, s.calls i = some call ∧ call.running = some read
  exclusive : ∀ {i j ci cj ri rj}, s.calls i = some ci → ci.running = some ri →
    s.calls j = some cj → cj.running = some rj → ri.token = rj.token → i = j

theorem Inv.live_nodup {rt : Runtime} {s : System κ ω} (h : s.Inv rt) :
    (s.registry.reads.map (·.token)).Nodup := by
  rw [List.nodup_iff_count_le_one]
  intro token
  have hone := List.nodup_iff_count_le_one.mp h.distinct token
  have hsum := h.account_eq token
  rw [account] at hsum
  omega

/-- Live registrations with one token are one registration. -/
theorem Inv.eq_of_token_eq {rt : Runtime} {s : System κ ω} (h : s.Inv rt)
    {read read' : DeferredRead κ ω} (hr : read ∈ s.registry.reads)
    (hr' : read' ∈ s.registry.reads) (ht : read.token = read'.token) : read = read' :=
  List.inj_on_of_nodup_map h.live_nodup hr hr' ht

theorem Inv.running_mem {rt : Runtime} {s : System κ ω} (h : s.Inv rt) {i : ℕ}
    {call : Call κ ω} {read : DeferredRead κ ω} (hc : s.calls i = some call)
    (hr : call.running = some read) : read ∈ s.registry.reads :=
  List.mem_of_find?_eq_some (h.running hc hr).2

theorem setCall_other {s : System κ ω} {i j : ℕ} {value : Option (Call κ ω)} (h : j ≠ i) :
    (s.setCall i value).calls j = s.calls j := Function.update_of_ne h _ _

theorem setCall_self {s : System κ ω} {i : ℕ} {value : Option (Call κ ω)} :
    (s.setCall i value).calls i = value := Function.update_self ..

/-! ### One lemma for each kind of step -/

variable {rt : Runtime} {s : System κ ω}

theorem Inv.valid_setCall (h : s.Inv rt) {i : ℕ} {value : Option (Call κ ω)}
    (hv : ∀ call, value = some call → 0 < call.length ∧ call.addr + call.length ≤ kAddressSpace)
    {j : ℕ} {call : Call κ ω} (hc : (s.setCall i value).calls j = some call) :
    0 < call.length ∧ call.addr + call.length ≤ kAddressSpace := by
  by_cases hj : j = i
  · subst hj
    rw [setCall_self] at hc
    exact hv call hc
  · rw [setCall_other hj] at hc
    exact h.valid hc

theorem inv_initial (h : s.Initial) : s.Inv rt where
  guarded := by
    rw [Registry.Guarded, h.reads]
    exact guarded_nil h.counters h.flags
  valid := by simp [h.calls]
  fresh := by simp [h.registered]
  distinct := by simp [h.registered]
  account_eq := by simp [account, h.registered, h.reads, h.materialised, h.cancelled, h.cleared]
  recorded := by simp [h.reads]
  running := by simp [h.calls]
  executing := by simp [h.reads]
  exclusive := by simp [h.calls]

/-- A registration appends one idle entry under a token not used before. -/
theorem Inv.inserted (h : s.Inv rt) {read : DeferredRead κ ω} (hidle : read.executing = false) :
    (s.register (insertDeferredRead rt read s.registry).2).Inv rt := by
  obtain ⟨token, hle, hpos, -, hreads, hnext⟩ := insertDeferredRead_spec rt read s.registry
  have hguarded := insertDeferredRead_guarded rt h.guarded read
  generalize (insertDeferredRead rt read s.registry).2 = registry at hreads hnext hguarded
  have hregistered : (s.register registry).registered =
      s.registered ++ [{ read with token := token }] := by
    rw [register, hreads, List.drop_left]
  -- the token is past every token handed out, so no recorded read carries it
  have hnew : token ∉ s.registered.map (·.token) := by
    intro hmem
    obtain ⟨old, hold, heq⟩ := List.mem_map.mp hmem
    have := (h.fresh old hold).2
    omega
  refine ⟨hguarded, h.valid, ?_, ?_, ?_, ?_, ?_, ?_, h.exclusive⟩
  · intro old hold
    change 0 < old.token ∧ old.token < registry.nextToken
    rw [hregistered, List.mem_append, List.mem_singleton] at hold
    rcases hold with hold | rfl
    · have := h.fresh old hold
      omega
    · exact ⟨hpos, by simp only; omega⟩
  · rw [hregistered, List.map_append]
    refine h.distinct.append (List.nodup_singleton _) ?_
    intro t ht ht'
    obtain rfl : t = token := List.mem_singleton.mp ht'
    exact hnew ht
  · intro t
    have := h.account_eq t
    rw [hregistered]
    simp only [account, register, hreads, List.map_append, List.count_append,
      List.map_cons, List.map_nil] at this ⊢
    omega
  · intro old hold
    rw [hregistered, List.mem_append, List.mem_singleton]
    change old ∈ registry.reads at hold
    rw [hreads, List.mem_append, List.mem_singleton] at hold
    rcases hold with hold | rfl
    · exact Or.inl (h.recorded old hold)
    · right
      rw [hidle]
  · -- a run that is under way keeps its record: the new one comes after it in the list
    intro i call run hc hr
    obtain ⟨hexec, hfind⟩ := h.running hc hr
    refine ⟨hexec, ?_⟩
    rw [findDeferredRead] at hfind ⊢
    change registry.reads.find? _ = _
    rw [hreads, List.find?_append, hfind]
    rfl
  · intro old hold hexec
    change old ∈ registry.reads at hold
    rw [hreads, List.mem_append, List.mem_singleton] at hold
    rcases hold with hold | rfl
    · exact h.executing old hold hexec
    · exact absurd (hidle.symm.trans hexec) Bool.false_ne_true

/-- Counting tokens before and after one registration leaves. -/
theorem count_token_of_perm {reads reads' : List (DeferredRead κ ω)} {read : DeferredRead κ ω}
    (h : reads.Perm (read :: reads')) (token : ℕ) :
    (reads.map (·.token)).count token =
      (reads'.map (·.token)).count token + [read.token].count token := by
  rw [(h.map _).count_eq, List.map_cons, List.count_cons, List.count_singleton]

/-- A registration that is not executing leaves: `CancelDeferredRead`. -/
theorem Inv.cancelled (h : s.Inv rt) {token : ℕ} {registry : Registry κ ω}
    (hcancel : cancelDeferredRead rt token s.registry = (true, registry)) :
    Inv rt { s with registry := registry, cancelled := token :: s.cancelled } := by
  have hguarded := cancelDeferredRead_guarded rt h.guarded token
  rw [cancelDeferredRead] at hcancel hguarded
  split at hcancel
  · cases hcancel
  · next read hfind =>
    rw [hfind] at hguarded
    split at hcancel
    · cases hcancel
    · next hidle =>
      cases hcancel
      simp only [hidle] at hguarded
      have htoken : read.token = token := by simpa using List.find?_some hfind
      have hmem := List.mem_of_find?_eq_some hfind
      have hfilter := KeyedList.eraseP_eq_filter h.live_nodup token
      refine ⟨hguarded, h.valid, h.fresh, h.distinct, ?_, ?_, ?_, ?_, h.exclusive⟩
      · intro t
        have hacc := h.account_eq t
        have hcount := count_token_of_perm (KeyedList.perm_eraseP_of_find? hfind) t
        simp only [account, retire] at hacc ⊢
        rw [← List.singleton_append (l := s.cancelled), List.count_append, ← htoken]
        rw [htoken] at hcount ⊢
        omega
      · intro old hold
        exact h.recorded old (List.mem_of_mem_eraseP hold)
      · intro i call run hc hr
        obtain ⟨hexec, hrun⟩ := h.running hc hr
        refine ⟨hexec, ?_⟩
        rw [findDeferredRead, retire, hfilter]
        refine KeyedList.find?_filter_of_find? hrun ?_
        rw [bne_iff_ne]
        intro heq
        have : run = read := h.eq_of_token_eq (h.running_mem hc hr) hmem (heq.trans htoken.symm)
        exact hidle (this ▸ hexec)
      · intro old hold hexec
        exact h.executing old (List.mem_of_mem_eraseP hold) hexec

/-- No registration executes while the registry is cleared. -/
theorem Inv.cleared (h : s.Inv rt) {registry : Registry κ ω}
    (hclear : clearDeferredReads rt s.registry = some registry) :
    Inv rt { s with
      registry := registry
      cleared := s.registry.reads.map (·.token) ++ s.cleared } := by
  have hguarded := clearDeferredReads_guarded h.guarded hclear
  rw [clearDeferredReads] at hclear
  split at hclear
  · cases hclear
  · next hidle =>
    cases hclear
    refine ⟨hguarded, h.valid, h.fresh, h.distinct, ?_, by simp, ?_, by simp, h.exclusive⟩
    · intro t
      have hacc := h.account_eq t
      simp only [account, List.count_append, List.map_nil, List.count_nil] at hacc ⊢
      omega
    · intro i call run hc hr
      refine absurd ?_ hidle
      exact List.any_eq_true.mpr ⟨run, h.running_mem hc hr, (h.running hc hr).1⟩

/-- The search loop moves between invocations without touching the registry. -/
theorem Inv.called (h : s.Inv rt) {i : ℕ} (value : Option (Call κ ω))
    (hold : ∀ call, s.calls i = some call → call.running = none)
    (hnew : ∀ call, value = some call → call.running = none ∧ 0 < call.length ∧
      call.addr + call.length ≤ kAddressSpace) :
    (s.setCall i value).Inv rt := by
  have hother : ∀ {j : ℕ} {call : Call κ ω} {run : DeferredRead κ ω},
      (s.setCall i value).calls j = some call → call.running = some run →
        s.calls j = some call := by
    intro j call run hc hr
    by_cases hj : j = i
    · subst hj
      rw [setCall_self] at hc
      rw [(hnew call hc).1] at hr
      cases hr
    · rwa [setCall_other hj] at hc
  refine ⟨h.guarded, ?_, h.fresh, h.distinct, h.account_eq, h.recorded, ?_, ?_, ?_⟩
  · exact h.valid_setCall fun call hc => (hnew call hc).2
  · intro j call run hc hr
    exact h.running (hother hc hr) hr
  · intro read hmem hexec
    obtain ⟨j, call, hc, hr⟩ := h.executing read hmem hexec
    refine ⟨j, call, ?_, hr⟩
    by_cases hj : j = i
    · subst hj
      rw [hold call hc] at hr
      cases hr
    · rwa [setCall_other hj]
  · intro j k cj ck rj rk hcj hrj hck hrk
    exact h.exclusive (hother hcj hrj) hrj (hother hck hrk) hrk

theorem mark_of_ne {token : ℕ} {executing : Bool} {read : DeferredRead κ ω}
    (h : read.token ≠ token) : read.mark token executing = read := if_neg h

@[simp]
theorem mark_token (token : ℕ) (executing : Bool) (read : DeferredRead κ ω) :
    (read.mark token executing).token = read.token := by
  rw [DeferredRead.mark]
  split <;> rfl

@[simp]
theorem mark_idle (token : ℕ) (executing : Bool) (read : DeferredRead κ ω) :
    { read.mark token executing with executing := false } = { read with executing := false } := by
  rw [DeferredRead.mark]
  split <;> rfl

@[simp]
theorem overlaps_mark (addr length token : ℕ) (executing : Bool) (read : DeferredRead κ ω) :
    (read.mark token executing).overlaps rt addr length = read.overlaps rt addr length := by
  rw [DeferredRead.mark]
  split <;> rfl

/-- The search sees ranges only, so it finds the same registration under any flags. -/
theorem findDeferredRead_setExecuting (addr length token : ℕ) (executing : Bool)
    (registry : Registry κ ω) :
    findDeferredRead rt addr length (setExecuting token executing registry) =
      (findDeferredRead rt addr length registry).map (DeferredRead.mark token executing) := by
  simp only [findDeferredRead, setExecuting, List.find?_map, Function.comp_def, overlaps_mark]

theorem tokens_setExecuting (token : ℕ) (executing : Bool) (registry : Registry κ ω) :
    (setExecuting token executing registry).reads.map (·.token) =
      registry.reads.map (·.token) := by
  simp only [setExecuting, List.map_map, Function.comp_def, mark_token]

theorem recorded_setExecuting {registered : List (DeferredRead κ ω)} {registry : Registry κ ω}
    (h : ∀ read ∈ registry.reads, { read with executing := false } ∈ registered)
    (token : ℕ) (executing : Bool) :
    ∀ read ∈ (setExecuting token executing registry).reads,
      { read with executing := false } ∈ registered := by
  intro read hread
  obtain ⟨old, hold, rfl⟩ := List.mem_map.mp hread
  rw [mark_idle]
  exact h old hold

/-- The search stops at an idle registration and starts its callback. -/
theorem Inv.entered (h : s.Inv rt) {i addr length : ℕ} {found : DeferredRead κ ω}
    (hcall : s.calls i = some ⟨addr, length, none⟩)
    (hfind : findDeferredRead rt addr length s.registry = some found)
    (hidle : found.executing = false) :
    Inv rt ({ s with registry := setExecuting found.token true s.registry }.setCall i
      (some ⟨addr, length, some { found with executing := true }⟩)) := by
  have hmem : found ∈ s.registry.reads := List.mem_of_find?_eq_some hfind
  -- a registration that another invocation runs is not the one found
  have hother : ∀ {j : ℕ} {call : Call κ ω} {run : DeferredRead κ ω},
      s.calls j = some call → call.running = some run → run.token ≠ found.token := by
    intro j call run hc hr heq
    have : run = found := h.eq_of_token_eq (h.running_mem hc hr) hmem heq
    rw [← this, (h.running hc hr).1] at hidle
    cases hidle
  refine ⟨setExecuting_guarded h.guarded _ _, ?_, h.fresh, h.distinct, ?_,
    recorded_setExecuting h.recorded _ _, ?_, ?_, ?_⟩
  · exact h.valid_setCall fun call hc => by cases hc; exact (h.valid hcall :)
  · intro t
    have := h.account_eq t
    simpa only [account, setCall, tokens_setExecuting] using this
  · intro j call run hc hr
    change run.executing = true ∧ findDeferredRead rt call.addr call.length
      (setExecuting found.token true s.registry) = some run
    rw [findDeferredRead_setExecuting]
    by_cases hj : j = i
    · subst hj
      rw [setCall_self] at hc
      cases hc
      cases hr
      refine ⟨rfl, ?_⟩
      rw [hfind, Option.map_some, DeferredRead.mark, if_pos rfl]
    · rw [setCall_other hj] at hc
      obtain ⟨hexec, hrun⟩ := h.running hc hr
      refine ⟨hexec, ?_⟩
      rw [hrun, Option.map_some, mark_of_ne (hother hc hr)]
  · intro read hread hexec
    obtain ⟨old, hold, rfl⟩ := List.mem_map.mp hread
    by_cases htoken : old.token = found.token
    · have : old = found := h.eq_of_token_eq hold hmem htoken
      subst this
      exact ⟨i, _, setCall_self, by rw [DeferredRead.mark, if_pos rfl]⟩
    · rw [mark_of_ne htoken] at hexec ⊢
      obtain ⟨j, call, hc, hr⟩ := h.executing old hold hexec
      refine ⟨j, call, ?_, hr⟩
      rw [setCall_other]
      · exact hc
      · rintro rfl
        rw [hcall] at hc
        cases hc
        cases hr
  · intro j k cj ck rj rk hcj hrj hck hrk heq
    by_cases hj : j = i
    · by_cases hk : k = i
      · rw [hj, hk]
      · subst hj
        rw [setCall_self] at hcj
        rw [setCall_other hk] at hck
        cases hcj
        cases hrj
        exact absurd heq.symm (hother hck hrk)
    · rw [setCall_other hj] at hcj
      by_cases hk : k = i
      · subst hk
        rw [setCall_self] at hck
        cases hck
        cases hrk
        exact absurd heq (hother hcj hrj)
      · rw [setCall_other hk] at hck
        exact h.exclusive hcj hrj hck hrk heq

/-- The callback comes back with `true`, and its registration leaves. -/
theorem Inv.finished (h : s.Inv rt) {i addr length : ℕ} {run : DeferredRead κ ω}
    (hcall : s.calls i = some ⟨addr, length, some run⟩) :
    Inv rt ({ s with
      registry := finishDeferredRead rt run s.registry
      materialised := run.token :: s.materialised }.setCall i (some ⟨addr, length, none⟩)) := by
  have hmem : run ∈ s.registry.reads := h.running_mem hcall rfl
  -- the finished run's token is its own: any other call runs a read of another token
  have hother : ∀ {j : ℕ} {call : Call κ ω} {run' : DeferredRead κ ω},
      (s.setCall i (some ⟨addr, length, none⟩)).calls j = some call →
        call.running = some run' → s.calls j = some call ∧ run'.token ≠ run.token := by
    intro j call run' hc hr
    by_cases hj : j = i
    · subst hj
      rw [setCall_self] at hc
      cases hc
      cases hr
    · rw [setCall_other hj] at hc
      exact ⟨hc, fun heq => hj (h.exclusive hc hr hcall rfl heq)⟩
  -- the record leaves the list and its token joins the materialised ones, so each account stands
  refine ⟨finishDeferredRead_guarded h.guarded h.live_nodup hmem, ?_, h.fresh, h.distinct,
    ?_, ?_, ?_, ?_, ?_⟩
  · exact h.valid_setCall fun call hc => by cases hc; exact (h.valid hcall :)
  · intro t
    have hacc := h.account_eq t
    have hcount := count_token_of_perm (KeyedList.perm_filter h.live_nodup hmem) t
    simp only [account, setCall, finishDeferredRead, retire] at hacc ⊢
    rw [← List.singleton_append (l := s.materialised), List.count_append]
    omega
  · intro read hread
    exact h.recorded read (List.mem_of_mem_filter hread)
  · intro j call run' hc hr
    obtain ⟨hc, hne⟩ := hother hc hr
    obtain ⟨hexec, hrun⟩ := h.running hc hr
    exact ⟨hexec, KeyedList.find?_filter_of_find? hrun (bne_iff_ne.mpr hne)⟩
  · intro read hread hexec
    obtain ⟨hread, hne⟩ := List.mem_filter.mp hread
    obtain ⟨j, call, hc, hr⟩ := h.executing read hread hexec
    refine ⟨j, call, ?_, hr⟩
    rw [setCall_other]
    · exact hc
    · rintro rfl
      rw [hcall] at hc
      cases hc
      cases hr
      exact absurd rfl (bne_iff_ne.mp hne)
  · intro j k cj ck rj rk hcj hrj hck hrk
    exact h.exclusive (hother hcj hrj).1 hrj (hother hck hrk).1 hrk

/-- The callback fails, and its registration stays for a retry. -/
theorem Inv.failed (h : s.Inv rt) {i addr length : ℕ} {run : DeferredRead κ ω}
    (hcall : s.calls i = some ⟨addr, length, some run⟩) :
    Inv rt ({ s with registry := setExecuting run.token false s.registry }.setCall i none) := by
  have hmem : run ∈ s.registry.reads := h.running_mem hcall rfl
  have hother : ∀ {j : ℕ} {call : Call κ ω} {run' : DeferredRead κ ω},
      (s.setCall i none).calls j = some call →
        call.running = some run' → s.calls j = some call ∧ run'.token ≠ run.token := by
    intro j call run' hc hr
    by_cases hj : j = i
    · subst hj
      rw [setCall_self] at hc
      cases hc
    · rw [setCall_other hj] at hc
      exact ⟨hc, fun heq => hj (h.exclusive hc hr hcall rfl heq)⟩
  refine ⟨setExecuting_guarded h.guarded _ _, ?_, h.fresh, h.distinct, ?_,
    recorded_setExecuting h.recorded _ _, ?_, ?_, ?_⟩
  · exact h.valid_setCall fun call hc => by cases hc
  · intro t
    have := h.account_eq t
    simpa only [account, setCall, tokens_setExecuting] using this
  · intro j call run' hc hr
    obtain ⟨hc, hne⟩ := hother hc hr
    obtain ⟨hexec, hrun⟩ := h.running hc hr
    refine ⟨hexec, ?_⟩
    change findDeferredRead rt call.addr call.length
      (setExecuting run.token false s.registry) = some run'
    rw [findDeferredRead_setExecuting, hrun, Option.map_some, mark_of_ne hne]
  · intro read hread hexec
    obtain ⟨old, hold, rfl⟩ := List.mem_map.mp hread
    by_cases htoken : old.token = run.token
    · rw [DeferredRead.mark, if_pos htoken] at hexec
      cases hexec
    · rw [mark_of_ne htoken] at hexec ⊢
      obtain ⟨j, call, hc, hr⟩ := h.executing old hold hexec
      refine ⟨j, call, ?_, hr⟩
      rw [setCall_other]
      · exact hc
      · rintro rfl
        rw [hcall] at hc
        cases hc
        cases hr
        exact htoken rfl
  · intro j k cj ck rj rk hcj hrj hck hrk
    exact h.exclusive (hother hcj hrj).1 hrj (hother hck hrk).1 hrk

/-- A registration that is refused changes nothing. -/
theorem register_same (s : System κ ω) : s.register s.registry = s := by
  simp [register]

theorem inv_step {action : Action κ ω} {s' : System κ ω} {reply : Reply} (h : s.Inv rt)
    (hstep : s.step rt action = some (s', reply)) : s'.Inv rt := by
  cases action with
  | registerRead addr length callback user =>
    simp only [step] at hstep
    obtain heq | ⟨read, hidle, heq⟩ :=
      registerDeferredRead_cases rt addr length callback user s.registry
    · rw [heq, register_same] at hstep
      cases hstep
      exact h
    · rw [heq] at hstep
      cases hstep
      exact h.inserted hidle
  | registerRamRead addr length callback user =>
    simp only [step] at hstep
    obtain heq | ⟨cb, owner, hl, he, -, -, -, -, heq⟩ :=
      registerDeferredRamRead_cases rt addr length callback user s.registry
    · rw [heq, register_same] at hstep
      cases hstep
      exact h
    · rw [heq] at hstep
      cases hstep
      exact h.inserted rfl
  | cancel token =>
    simp only [step] at hstep
    split at hstep
    · next registry hcancel =>
      cases hstep
      exact h.cancelled hcancel
    · next registry hcancel =>
      cases hstep
      obtain rfl := cancelDeferredRead_false hcancel
      exact h
  | clear =>
    simp only [step] at hstep
    split at hstep
    · next registry hclear =>
      cases hstep
      exact h.cleared hclear
    · cases hstep
      exact h
  | access call addr length =>
    simp only [step] at hstep
    split at hstep
    · cases hstep
    · next hfree =>
      split at hstep
      · cases hstep
        exact h
      · split at hstep
        · cases hstep
          exact h
        · -- a call that has just begun runs nothing yet
          cases hstep
          refine h.called _ (fun c hc => ?_) (fun c hc => ?_)
          · simp [hc] at hfree
          · cases hc
            exact ⟨rfl, by simp only; omega, by simp only; omega⟩
  | search call =>
    simp only [step] at hstep
    split at hstep
    · next addr length hcall =>
      -- the searching call ran nothing before, whichever way the search ends
      have hold : ∀ c, s.calls call = some c → c.running = none := by
        intro c hc
        rw [hcall] at hc
        cases hc
        rfl
      split at hstep
      · cases hstep
        exact h.called none hold (fun c hc => by cases hc)
      · next found hfind =>
        split at hstep
        · cases hstep
          exact h.called none hold (fun c hc => by cases hc)
        · next hidle =>
          cases hstep
          exact h.entered hcall hfind (by simpa using hidle)
    · cases hstep
  | finish call outcome =>
    simp only [step] at hstep
    split at hstep
    · next addr length run hcall =>
      cases outcome with
      | succeeded =>
        cases hstep
        exact h.finished hcall
      | returnedFalse =>
        cases hstep
        exact h.failed hcall
      | threw =>
        cases hstep
        exact h.failed hcall
    · cases hstep

theorem reachable_inv (h : s.Reachable rt) : s.Inv rt := by
  induction h with
  | initial h => exact inv_initial h
  | step action _ hstep ih => exact inv_step ih hstep

/-! ### The counter -/

theorem cancelDeferredRead_nextToken (rt : Runtime) (token : ℕ) (registry : Registry κ ω) :
    (cancelDeferredRead rt token registry).2.nextToken = registry.nextToken := by
  rw [cancelDeferredRead]
  split
  · rfl
  · split <;> rfl

theorem insertDeferredRead_counts (rt : Runtime) (read : DeferredRead κ ω) {registry : Registry κ ω}
    (hpos : 0 < registry.nextToken) :
    (insertDeferredRead rt read registry).2.nextToken = registry.nextToken + 1 := by
  change (takeToken registry.nextToken).2 = _
  rw [takeToken, if_neg (Nat.ne_of_gt hpos)]

/-- An action takes one token at most. -/
theorem step_counts {action : Action κ ω} {s' : System κ ω} {reply : Reply}
    (hpos : 0 < s.registry.nextToken) (hstep : s.step rt action = some (s', reply)) :
    s.registry.nextToken ≤ s'.registry.nextToken ∧
      s'.registry.nextToken ≤ s.registry.nextToken + 1 := by
  cases action with
  | registerRead addr length callback user =>
    simp only [step] at hstep
    cases hstep
    change _ ≤ (registerDeferredRead rt addr length callback user s.registry).2.nextToken ∧
      (registerDeferredRead rt addr length callback user s.registry).2.nextToken ≤ _
    obtain heq | ⟨read, -, heq⟩ :=
      -- a refused registration leaves the registry; an accepted one takes the next token
      registerDeferredRead_cases rt addr length callback user s.registry
    · rw [heq]
      exact ⟨le_rfl, Nat.le_succ _⟩
    · rw [heq, insertDeferredRead_counts rt read hpos]
      exact ⟨Nat.le_succ _, le_rfl⟩
  | registerRamRead addr length callback user =>
    simp only [step] at hstep
    cases hstep
    change _ ≤ (registerDeferredRamRead rt addr length callback user s.registry).2.nextToken ∧
      (registerDeferredRamRead rt addr length callback user s.registry).2.nextToken ≤ _
    obtain heq | ⟨_, _, _, _, -, -, -, -, heq⟩ :=
      registerDeferredRamRead_cases rt addr length callback user s.registry
    · rw [heq]
      exact ⟨le_rfl, Nat.le_succ _⟩
    · rw [heq, insertDeferredRead_counts rt _ hpos]
      exact ⟨Nat.le_succ _, le_rfl⟩
  | cancel token =>
    have hsame := cancelDeferredRead_nextToken rt token s.registry
    simp only [step] at hstep
    split at hstep
    all_goals
      next registry hcancel =>
      rw [hcancel] at hsame
      cases hstep
      exact ⟨hsame.ge, hsame.trans_le (Nat.le_succ _)⟩
  | clear =>
    simp only [step] at hstep
    split at hstep
    · next registry hclear =>
      rw [clearDeferredReads] at hclear
      split at hclear
      · cases hclear
      · cases hclear
        cases hstep
        exact ⟨le_rfl, Nat.le_succ _⟩
    · cases hstep
      exact ⟨le_rfl, Nat.le_succ _⟩
  | access call addr length =>
    simp only [step] at hstep
    split at hstep
    · cases hstep
    · split at hstep
      · cases hstep
        exact ⟨le_rfl, Nat.le_succ _⟩
      · split at hstep <;> cases hstep <;> exact ⟨le_rfl, Nat.le_succ _⟩
  | search call =>
    simp only [step] at hstep
    split at hstep
    · split at hstep
      · cases hstep
        exact ⟨le_rfl, Nat.le_succ _⟩
      · split at hstep <;> cases hstep <;> exact ⟨le_rfl, Nat.le_succ _⟩
    · cases hstep
  | finish call outcome =>
    simp only [step] at hstep
    split at hstep
    · cases outcome <;> cases hstep <;> exact ⟨le_rfl, Nat.le_succ _⟩
    · cases hstep

/-- In a run that is shorter than the counter is wide, the next token is the one that the counter of
the source gives. -/
theorem run_counts {s s' : System κ ω} {actions : List (Action κ ω)}
    (hpos : 0 < s.registry.nextToken) (hrun : s.run rt actions = some s')
    (hshort : s.registry.nextToken + actions.length + 1 < 2 ^ 64) :
    takeToken s'.registry.nextToken = takeTokenWrapped s'.registry.nextToken := by
  induction actions generalizing s with
  | nil =>
    cases hrun
    exact takeToken_eq_wrapped hshort
  | cons action actions ih =>
    simp only [System.run] at hrun
    split at hrun
    · cases hrun
    · next next reply hstep =>
      obtain ⟨hle, hnext⟩ := step_counts hpos hstep
      rw [List.length_cons] at hshort
      exact ih (by omega) hrun (by omega)

/-! ### What a run guarantees -/

/-- A registration was materialised, cancelled or cleared. -/
def Ended (s : System κ ω) (token : ℕ) : Prop :=
  token ∈ s.materialised ∨ token ∈ s.cancelled ∨ token ∈ s.cleared

theorem Inv.ends_at_most_once (h : s.Inv rt) (token : ℕ) :
    s.materialised.count token + s.cancelled.count token + s.cleared.count token ≤ 1 := by
  have hsum := h.account_eq token
  have hone := List.nodup_iff_count_le_one.mp h.distinct token
  rw [account] at hsum
  omega

theorem Inv.not_ended (h : s.Inv rt) {read : DeferredRead κ ω}
    (hread : read ∈ s.registry.reads) : ¬ s.Ended read.token := by
  have hsum := h.account_eq read.token
  have hone := List.nodup_iff_count_le_one.mp h.distinct read.token
  have hlive := List.count_pos_iff.mpr (List.mem_map_of_mem (f := (·.token)) hread)
  rw [account] at hsum
  rw [Ended, ← List.count_pos_iff, ← List.count_pos_iff, ← List.count_pos_iff]
  omega

/-- A registration that has not ended is live with all it was registered with. -/
theorem Inv.live_of_not_ended (h : s.Inv rt) {read : DeferredRead κ ω}
    (hread : read ∈ s.registered) (hend : ¬ s.Ended read.token) :
    ∃ live ∈ s.registry.reads, { live with executing := false } = read := by
  have hsum := h.account_eq read.token
  have hpos := List.count_pos_iff.mpr (List.mem_map_of_mem (f := (·.token)) hread)
  rw [Ended, ← List.count_pos_iff, ← List.count_pos_iff, ← List.count_pos_iff] at hend
  rw [account] at hsum
  have hlive : 0 < (s.registry.reads.map (·.token)).count read.token := by omega
  obtain ⟨live, hmem, htoken⟩ := List.mem_map.mp (List.count_pos_iff.mp hlive)
  exact ⟨live, hmem, List.inj_on_of_nodup_map h.distinct (h.recorded live hmem) hread htoken⟩

/-- The guards of a pending registration: the flags of its coarse pages are set, the
fast readable pages it marks are taken away, and its ranges are counted in the
counters of their sub-pages. -/
def GuardsActive (read : DeferredRead κ ω) (registry : Registry κ ω) : Prop :=
  ∀ range ∈ read.ranges,
    (∀ page, range.Marks kPageSize page →
      registry.tables.deferredReadCoveredPages page = 1 ∧
        registry.tables.fullReadablePageBias page = 0) ∧
    ∀ subPage, range.Marks kDeferredSubPageSize subPage →
      0 < subPageMarks registry.reads subPage ∧
        registry.tables.deferredReadCoveredSubPages subPage =
          subPageMarks registry.reads subPage % 65536

theorem guardsActive_of_mem {registry : Registry κ ω} (h : registry.Guarded)
    {read : DeferredRead κ ω} (hread : read ∈ registry.reads) : GuardsActive read registry := by
  intro range hrange
  have hpending : range ∈ pendingRanges registry.reads :=
    mem_pendingRanges.mpr ⟨read, hread, hrange⟩
  refine ⟨?_, ?_⟩
  · intro page hmarks
    obtain ⟨hflag, hbias⟩ := h.pages page hmarks.page_mul_lt
    have hmarked : PageMarked registry.reads page := ⟨range, hpending, hmarks⟩
    rw [if_pos hmarked] at hflag
    exact ⟨hflag, hbias hmarked⟩
  · intro subPage hmarks
    refine ⟨?_, h.counters subPage⟩
    exact List.countP_pos_iff.mpr ⟨range, hpending, by simpa using hmarks⟩

/-- The step at which a callback fails. -/
theorem Inv.failed_step (h : s.Inv rt) {i : ℕ} {outcome : Outcome} {s' : System κ ω}
    {reply : Reply} (hfail : outcome ≠ .succeeded)
    (hstep : s.step rt (.finish i outcome) = some (s', reply)) :
    ∃ addr length run, s.calls i = some ⟨addr, length, some run⟩ ∧ reply = .threw ∧
      s'.registry.tables = s.registry.tables ∧
      { run with executing := false } ∈ s'.registry.reads ∧
      GuardsActive { run with executing := false } s'.registry ∧
      findDeferredRead rt addr length s'.registry = some { run with executing := false } := by
  have hinv := inv_step h hstep
  simp only [step] at hstep
  split at hstep
  · next addr length run hcall =>
    obtain ⟨-, hfind⟩ := h.running hcall rfl
    have hretry : findDeferredRead rt addr length (setExecuting run.token false s.registry) =
        some { run with executing := false } := by
      rw [findDeferredRead_setExecuting, hfind, Option.map_some, DeferredRead.mark, if_pos rfl]
    have hmem := List.mem_of_find?_eq_some hretry
    have heq : s' = { s with registry := setExecuting run.token false s.registry }.setCall i
        none ∧ reply = .threw := by
      cases outcome with
      | succeeded => exact absurd rfl hfail
      | returnedFalse =>
        cases hstep
        exact ⟨rfl, rfl⟩
      | threw =>
        cases hstep
        exact ⟨rfl, rfl⟩
    obtain ⟨rfl, rfl⟩ := heq
    exact ⟨addr, length, run, hcall, rfl, rfl, hmem, guardsActive_of_mem hinv.guarded hmem, hretry⟩
  · cases hstep

/-- Cancelling an unknown or executing registration changes nothing. -/
theorem cancel_refused {token : ℕ} (h : ∀ read ∈ s.registry.reads, read.token = token →
    read.executing = true) : s.step rt (.cancel token) = some (s, .answer false) := by
  have hcancel : cancelDeferredRead rt token s.registry = (false, s.registry) := by
    rw [cancelDeferredRead]
    split
    · rfl
    · next read hfind =>
      rw [if_pos (h read (List.mem_of_find?_eq_some hfind) (by simpa using List.find?_some hfind))]
  simp only [step, hcancel]

/-- While a callback runs, clearing throws and changes nothing. -/
theorem Inv.clear_refused (h : s.Inv rt) {i : ℕ} {call : Call κ ω} {run : DeferredRead κ ω}
    (hc : s.calls i = some call) (hr : call.running = some run) :
    s.step rt .clear = some (s, .threw) := by
  have hany : s.registry.reads.any (·.executing) = true :=
    List.any_eq_true.mpr ⟨run, h.running_mem hc hr, (h.running hc hr).1⟩
  simp only [step, clearDeferredReads, hany, if_true]

/-- An access that is answered meets no pending range. -/
theorem Inv.answered (h : s.Inv rt) {i addr length : ℕ} {s' : System κ ω} {result : Bool}
    (hcall : s.calls i = some ⟨addr, length, none⟩)
    (hstep : s.step rt (.search i) = some (s', .answer result)) :
    ∀ range ∈ pendingRanges s.registry.reads,
      ¬ Interval.Meets addr length range.start range.length := by
  obtain ⟨hpos, hend⟩ := h.valid hcall
  simp only [step, hcall] at hstep
  split at hstep
  · next hfind =>
    intro range hrange hmeets
    obtain ⟨read, hread, hmem⟩ := mem_pendingRanges.mp hrange
    refine List.find?_eq_none.mp hfind read hread (List.any_eq_true.mpr ⟨range, hmem, ?_⟩)
    exact (rt.rangesOverlap_iff hpos range.length_pos hend range.end_le).mpr hmeets
  · split at hstep <;> cases hstep

/-- A search that starts a callback starts one that no invocation runs. -/
theorem Inv.enters_idle (h : s.Inv rt) {i addr length : ℕ} {s' : System κ ω} {reply : Reply}
    {run : DeferredRead κ ω} (hcall : s.calls i = some ⟨addr, length, none⟩)
    (hstep : s.step rt (.search i) = some (s', reply))
    (hrun : s'.calls i = some ⟨addr, length, some run⟩) :
    ∀ {j cj rj}, s.calls j = some cj → cj.running = some rj → rj.token ≠ run.token := by
  have hinv := inv_step h hstep
  intro j cj rj hcj hrj heq
  have hj : j ≠ i := by
    rintro rfl
    rw [hcall] at hcj
    cases hcj
    cases hrj
  have hcj' : s'.calls j = some cj := by
    simp only [step, hcall] at hstep
    split at hstep
    · cases hstep
      rwa [setCall_other hj]
    · split at hstep
      · cases hstep
        rwa [setCall_other hj]
      · cases hstep
        rwa [setCall_other hj]
  exact hj (hinv.exclusive hcj' hrj hrun rfl heq)

/-- In every run: each registration ends at most once, in one of three ways, and only
then leaves the registry with its owner; a failed callback stays registered, idle and
guarded, and its access finds it again; refused cancellations and clearings change
nothing; and no callback is entered twice at a time, an access that meets it while it
executes is not answered. -/
theorem deferred_read_protocol (h : s.Reachable rt) :
    (∀ token,
      s.materialised.count token + s.cancelled.count token + s.cleared.count token ≤ 1) ∧
    (∀ read ∈ s.registered, ¬ s.Ended read.token →
      ∃ live ∈ s.registry.reads, { live with executing := false } = read) ∧
    (∀ live ∈ s.registry.reads, { live with executing := false } ∈ s.registered ∧
      ¬ s.Ended live.token) ∧
    (∀ i outcome s' reply, outcome ≠ .succeeded →
      s.step rt (.finish i outcome) = some (s', reply) →
      ∃ addr length run, s.calls i = some ⟨addr, length, some run⟩ ∧ reply = .threw ∧
        s'.registry.tables = s.registry.tables ∧
        { run with executing := false } ∈ s'.registry.reads ∧
        GuardsActive { run with executing := false } s'.registry ∧
        findDeferredRead rt addr length s'.registry = some { run with executing := false }) ∧
    (∀ token, (∀ read ∈ s.registry.reads, read.token = token → read.executing = true) →
      s.step rt (.cancel token) = some (s, .answer false)) ∧
    (∀ i call run, s.calls i = some call → call.running = some run →
      s.step rt .clear = some (s, .threw)) ∧
    (∀ i addr length s' reply, s.calls i = some ⟨addr, length, none⟩ →
      s.step rt (.search i) = some (s', reply) →
      (∀ run, s'.calls i = some ⟨addr, length, some run⟩ →
        ∀ j cj rj, s.calls j = some cj → cj.running = some rj → rj.token ≠ run.token) ∧
      (∀ result, reply = .answer result → ∀ range ∈ pendingRanges s.registry.reads,
        ¬ Interval.Meets addr length range.start range.length) ∧
      (∀ found, findDeferredRead rt addr length s.registry = some found →
        found.executing = true → reply = .threw ∧ s'.registry = s.registry)) := by
  have hinv := reachable_inv h
  refine ⟨hinv.ends_at_most_once, fun read => hinv.live_of_not_ended,
    fun live hlive => ⟨hinv.recorded live hlive, hinv.not_ended hlive⟩,
    fun i outcome s' reply => hinv.failed_step, fun token => cancel_refused,
    fun i call run => hinv.clear_refused, ?_⟩
  intro i addr length s' reply hcall hstep
  refine ⟨fun run hrun j cj rj => hinv.enters_idle hcall hstep hrun, ?_, ?_⟩
  · rintro result rfl
    exact hinv.answered hcall hstep
  · intro found hfind hexec
    simp only [step, hcall, hfind, hexec, if_true] at hstep
    cases hstep
    exact ⟨rfl, rfl⟩

/-- Clear tables, an empty registry, no invocation. -/
def empty : System Unit ℕ where
  registry :=
    { reads := []
      nextToken := 1
      tables :=
        { fullPageBias := fun _ => 1
          fullReadablePageBias := fun _ => 1
          fullWritablePageBias := fun _ => 1
          deferredReadCoveredPages := fun _ => 0
          deferredReadCoveredSubPages := fun _ => 0 } }
  calls := fun _ => none
  registered := []
  materialised := []
  cancelled := []
  cleared := []

theorem empty_initial : empty.Initial := ⟨rfl, fun _ => rfl, fun _ => rfl, fun _ => rfl, rfl, rfl,
  rfl, rfl⟩

/-- A run that registers 16 bytes at `0x8000` and leaves their callback running. -/
def oneRunning : List (Action Unit ℕ) :=
  [.registerRamRead 0x80008000 16 (some ()) (some 7), .access 0 0xc0008004 4, .search 0]

theorem deferred_read_protocol_oneRunning : ∃ s, empty.run .ramOnly oneRunning = some s ∧
    s.step .ramOnly .clear = some (s, .threw) := by
  refine ⟨_, rfl, ?_⟩
  have hrun : empty.run .ramOnly oneRunning = some _ := rfl
  exact (deferred_read_protocol (Reachable.run (.initial empty_initial) hrun)).2.2.2.2.2.1
    0 _ _ rfl rfl

end System

end Memory
