import MkwiiPs5.Runtime.FunctionProfilerTime

/-!
# The calls of the function profiler

What the shadow stacks and the inclusive times stand for: the calls that are open on each fiber, and
the time that passed while a function was open on the fiber that ran.
-/

namespace FunctionProfiler

/-! ### Open calls -/

/-- The open calls of each stack, the innermost first, and the time that was charged while a function
was among those of the stack that was current. -/
structure Ledger where
  calls : ℕ → List ℕ
  made : ℕ
  current : ℕ
  last : ℕ
  spent : ℕ → ℕ

namespace Ledger

variable (L : Ledger)

def fresh (now : ℕ) : Ledger := ⟨fun _ => [], 1, 0, now, fun _ => 0⟩

/-- The calls of the fiber that runs. -/
def running : List ℕ := L.calls L.current

def charge (now : ℕ) : Ledger :=
  { L with
    spent := fun k => if k ∈ L.running then L.spent k + (now - L.last) else L.spent k
    last := now }

def setRunning (calls : List ℕ) : Ledger :=
  { L with calls := Function.update L.calls L.current calls }

/-- A function ends with all the calls that it has made and that have not ended; one that is not open
ends nothing. -/
def ended (key : ℕ) (calls : List ℕ) : List ℕ :=
  if key ∈ calls then calls.drop (calls.idxOf key + 1) else calls

@[simp] theorem ended_cons_self (key : ℕ) (calls : List ℕ) : ended key (key :: calls) = calls := by
  simp [ended]

def resume (kept : Option ℕ) (now : ℕ) : Ledger :=
  match kept with
  | some j => { L with current := j, last := now }
  | none => { L with current := L.made, made := L.made + 1, last := now }

def step : Hook → Ledger
  | .enter key t0 _ t1 => { (L.charge t0).setRunning (key :: L.running) with last := t1 }
  | .exit key t0 _ t1 => { (L.charge t0).setRunning (ended key L.running) with last := t1 }
  | .switch kept left entered _ => (L.charge left).resume kept entered

def run (trace : List Hook) : Ledger := trace.foldl step L

/-- Calls end in the order in which they began, and there is room for all of them. -/
def Nested : Hook → Prop
  | .enter key .. => key ≠ 0 ∧ L.running.length < kMaxDepth
  | .exit key .. => L.running.head? = some key
  | .switch kept .. => ∀ j, kept = some j → j < L.made

/-- A function that begins is not open on another fiber. -/
def Alone : Hook → Prop
  | .enter key .. => ∀ j ≠ L.current, key ∉ L.calls j
  | .exit .. | .switch .. => True

end Ledger

/-- What holds before each hook of a trace. -/
def Along (P : Ledger → Hook → Prop) : Ledger → List Hook → Prop
  | _, [] => True
  | L, h :: trace => P L h ∧ Along P (L.step h) trace

/-- The function that a hook enters. -/
def Hook.entered : Hook → Option ℕ
  | .enter key .. => some key
  | .exit .. | .switch .. => none

def entered (trace : List Hook) : Finset ℕ := (trace.filterMap Hook.entered).toFinset

/-! ### Times that are owed -/

/-- The time on its stack's clock at which a frame was opened. -/
def Frame.stamp (f : Frame) : ℕ := f.enter - f.excludedAtEnter

/-- What a function will be credited with when its outermost frame is closed. -/
def owed (clock : ℕ) : List Frame → List ℕ → ℕ → ℕ
  | f :: frames, k' :: calls, k =>
    if k ∈ calls then owed clock frames calls k else if k = k' then clock - f.stamp else 0
  | _, _, _ => 0

/-- The frames of a stack stand for its open calls. -/
def Shadows (keys : Fin kTableSize → ℕ) : List Frame → List ℕ → Prop
  | [], [] => True
  | f :: frames, k :: calls =>
    ((∃ i, f.stat = some i ∧ keys i = k) ∧ k ≠ 0 ∧ f.outermost = decide (k ∉ calls)) ∧
      Shadows keys frames calls
  | _, _ => False

variable {keys keys' : Fin kTableSize → ℕ} {frames : List Frame} {calls : List ℕ}
  {clock delta k : ℕ}

theorem owed_of_not_mem (clock : ℕ) (frames : List Frame) (h : k ∉ calls) :
    owed clock frames calls k = 0 := by
  cases frames with
  | nil => rfl
  | cons f frames =>
    cases calls with
    | nil => rfl
    | cons k' calls =>
      obtain ⟨hne, hcalls⟩ := not_or.mp fun hor => h (List.mem_cons.mpr hor)
      rw [owed, if_neg hcalls, if_neg hne]

theorem owed_cons_of_ne (clock : ℕ) (f : Frame) (frames : List Frame) (calls : List ℕ) {k' : ℕ}
    (hne : k ≠ k') : owed clock (f :: frames) (k' :: calls) k = owed clock frames calls k := by
  by_cases hmem : k ∈ calls
  · rw [owed, if_pos hmem]
  · rw [owed, if_neg hmem, if_neg hne, owed_of_not_mem _ _ hmem]

theorem Shadows.length_eq (h : Shadows keys frames calls) : frames.length = calls.length := by
  induction frames generalizing calls with
  | nil =>
    cases calls with
    | nil => rfl
    | cons => exact h.elim
  | cons f frames ih =>
    cases calls with
    | nil => exact h.elim
    | cons k calls => rw [List.length_cons, List.length_cons, ih h.2]

theorem Shadows.mono (h : Shadows keys frames calls) (hkeys : ∀ i, keys i ≠ 0 → keys' i = keys i) :
    Shadows keys' frames calls := by
  induction frames generalizing calls with
  | nil =>
    cases calls with
    | nil => trivial
    | cons => exact h.elim
  | cons f frames ih =>
    cases calls with
    | nil => exact h.elim
    | cons k calls =>
      obtain ⟨⟨⟨i, hstat, hi⟩, hk, hmark⟩, hrest⟩ := h
      exact ⟨⟨⟨i, hstat, by rw [hkeys i (hi ▸ hk), hi]⟩, hk, hmark⟩, ih hrest⟩

/-- The keys of open calls stand in the table. -/
theorem Shadows.exists_key (h : Shadows keys frames calls) (hk : k ∈ calls) : ∃ i, keys i = k := by
  induction frames generalizing calls with
  | nil =>
    cases calls with
    | nil => exact nomatch hk
    | cons => exact h.elim
  | cons f frames ih =>
    cases calls with
    | nil => exact h.elim
    | cons k' calls =>
      obtain ⟨⟨⟨i, _, hi⟩, _, _⟩, hrest⟩ := h
      rcases List.mem_cons.mp hk with rfl | hmem
      · exact ⟨i, hi⟩
      · exact ih hrest hmem

/-- What is owed for an open call grows with the clock of its stack. -/
theorem Shadows.owed_add (h : Shadows keys frames calls) (hstamp : ∀ f ∈ frames, f.stamp ≤ clock)
    (hk : k ∈ calls) : owed (clock + delta) frames calls k = owed clock frames calls k + delta := by
  induction frames generalizing calls with
  | nil =>
    cases calls with
    | nil => exact nomatch hk
    | cons => exact h.elim
  | cons f frames ih =>
    cases calls with
    | nil => exact h.elim
    | cons k' calls =>
      by_cases hmem : k ∈ calls
      · rw [owed, owed, if_pos hmem, if_pos hmem]
        exact ih h.2 (fun f hf => hstamp f (List.mem_cons_of_mem _ hf)) hmem
      · have heq : k = k' := (List.mem_cons.mp hk).resolve_right hmem
        have hle := hstamp f List.mem_cons_self
        rw [owed, owed, if_neg hmem, if_neg hmem, if_pos heq, if_pos heq]
        omega

/-! ### The profiler keeps the ledger -/

/-- The time up to which a stack has been charged. -/
def chargedUntil (s : ThreadState) (L : Ledger) (j : ℕ) : ℕ :=
  if j = L.current then L.last else (s.shadows j).leftAt

/-- The clock of a stack: the time that was charged on it, from some time on. -/
def clockOf (s : ThreadState) (L : Ledger) (j : ℕ) : ℕ :=
  chargedUntil s L j - (s.shadows j).excluded

/-- A frame was opened in the past of its stack. -/
structure Stamped (now off : ℕ) (f : Frame) : Prop where
  enter : f.enter ≤ now
  excluded : f.excludedAtEnter ≤ off
  start : f.excludedAtEnter ≤ f.enter
  stamp : f.stamp ≤ now - off

/-- The stacks and the table stand for the ledger. -/
structure Tracks (K : Finset ℕ) (s : ThreadState) (L : Ledger) : Prop where
  current : s.stack = L.current
  made : s.made = L.made
  currentLt : L.current < L.made
  unused : ∀ j, L.made ≤ j → s.shadows j = .empty ∧ L.calls j = []
  probed : OpenAddressing.Probed s.keys 0 hash
  known : ∀ i, s.keys i ≠ 0 → s.keys i ∈ K
  blank : ∀ i, s.keys i = 0 → (s.stats (some i)).active = 0 ∧ (s.stats (some i)).inclusive = 0
  shadows : ∀ j, Shadows s.keys (s.shadows j).frames (L.calls j)
  overflow : ∀ j, (s.shadows j).overflow = 0
  depth : ∀ j, (L.calls j).length ≤ kMaxDepth
  alone : ∀ k j j', k ∈ L.calls j → k ∈ L.calls j' → j = j'
  until_le : ∀ j, chargedUntil s L j ≤ L.last
  excluded : ∀ j, (s.shadows j).excluded ≤ chargedUntil s L j
  stamped : ∀ j, ∀ f ∈ (s.shadows j).frames,
    Stamped (chargedUntil s L j) (s.shadows j).excluded f
  /-- A function that is open on one stack at most. -/
  entry : ∀ i j, s.keys i ≠ 0 → (∀ j' ≠ j, s.keys i ∉ L.calls j') →
    (s.stats (some i)).active = (L.calls j).count (s.keys i) ∧
      L.spent (s.keys i) = (s.stats (some i)).inclusive +
        owed (clockOf s L j) (s.shadows j).frames (L.calls j) (s.keys i)
  unknown : ∀ k, k ≠ 0 → (∀ i, s.keys i ≠ k) → L.spent k = 0
  bound : ∀ k, L.spent k ≤ L.last
  lt : L.last < 2 ^ 64

variable {K : Finset ℕ} {s s' : ThreadState} {L : Ledger} {t : ℕ}

/-- Two states with the same frames and the same credits. -/
structure SameCalls (s s' : ThreadState) : Prop where
  stack : s'.stack = s.stack
  made : s'.made = s.made
  shadows : s'.shadows = s.shadows
  key : ∀ e, (s'.stats e).key = (s.stats e).key
  active : ∀ e, (s'.stats e).active = (s.stats e).active
  inclusive : ∀ e, (s'.stats e).inclusive = (s.stats e).inclusive

theorem SameCalls.trans {s'' : ThreadState} (h : SameCalls s s') (h' : SameCalls s' s'') :
    SameCalls s s'' :=
  ⟨h'.stack.trans h.stack, h'.made.trans h.made, h'.shadows.trans h.shadows,
    fun e => (h'.key e).trans (h.key e), fun e => (h'.active e).trans (h.active e),
    fun e => (h'.inclusive e).trans (h.inclusive e)⟩

theorem SameCalls.tracks (hs : SameCalls s s') (h : Tracks K s L) : Tracks K s' L := by
  have hkeys : s'.keys = s.keys := funext fun i => hs.key (some i)
  have huntil : ∀ j, chargedUntil s' L j = chargedUntil s L j := by
    intro j
    rw [chargedUntil, chargedUntil, hs.shadows]
  refine ⟨hs.stack.trans h.current, hs.made.trans h.made, h.currentLt, ?_, ?_, ?_, ?_, ?_, ?_,
    h.depth, h.alone, ?_, ?_, ?_, ?_, ?_, h.bound, h.lt⟩
  · rw [hs.shadows]
    exact h.unused
  · rw [hkeys]
    exact h.probed
  · rw [hkeys]
    exact h.known
  · intro i hi
    rw [hs.active, hs.inclusive]
    exact h.blank i (hkeys ▸ hi)
  · rw [hs.shadows, hkeys]
    exact h.shadows
  · rw [hs.shadows]
    exact h.overflow
  · intro j
    rw [huntil]
    exact h.until_le j
  · intro j
    rw [huntil, hs.shadows]
    exact h.excluded j
  · intro j
    rw [huntil, hs.shadows]
    exact h.stamped j
  · intro i j
    rw [hkeys, hs.active, hs.inclusive, hs.shadows, clockOf, huntil, hs.shadows, ← clockOf]
    exact h.entry i j
  · rw [hkeys]
    exact h.unknown

theorem sameCalls_setStat {e : Entry} {stat : Stat} (hkey : stat.key = (s.stats e).key)
    (hactive : stat.active = (s.stats e).active)
    (hinclusive : stat.inclusive = (s.stats e).inclusive) : SameCalls s (s.setStat e stat) := by
  have hstats : ∀ e', (s.setStat e stat).stats e' = if e' = e then stat else s.stats e' := by
    intro e'
    show Function.update s.stats e stat e' = _
    by_cases he : e' = e
    · subst he
      rw [Function.update_self, if_pos rfl]
    · rw [Function.update_of_ne he, if_neg he]
  refine ⟨rfl, rfl, rfl, fun e' => ?_, fun e' => ?_, fun e' => ?_⟩
  all_goals
    rw [hstats]
    split
    next he =>
      subst he
      assumption
    · rfl

theorem sameCalls_charge (s : ThreadState) (now : ℕ) : SameCalls s (charge s now) := by
  unfold charge
  dsimp only
  split
  · exact sameCalls_setStat rfl rfl rfl
  · exact ⟨rfl, rfl, rfl, fun _ => rfl, fun _ => rfl, fun _ => rfl⟩

theorem sameCalls_countCall (s : ThreadState) (e : Entry) : SameCalls s (countCall s e) := by
  have hcalls : SameCalls s (s.setStat e { s.stats e with calls := add64 (s.stats e).calls 1 }) :=
    sameCalls_setStat rfl rfl rfl
  unfold countCall
  dsimp only
  split
  · exact hcalls.trans (sameCalls_setStat rfl rfl rfl)
  · exact hcalls

/-- Time passes on the stack that is current. -/
theorem Tracks.charge (h : Tracks K s L) (hle : L.last ≤ t) (hlt : t < 2 ^ 64) :
    Tracks K s (L.charge t) := by
  -- only the stack that is current is charged
  have huntil : ∀ j, chargedUntil s (L.charge t) j =
      chargedUntil s L j + if j = L.current then t - L.last else 0 := by
    intro j
    show (if j = L.current then t else _) = (if j = L.current then L.last else _) + _
    by_cases hj : j = L.current
    · rw [if_pos hj, if_pos hj, if_pos hj]
      omega
    · rw [if_neg hj, if_neg hj, if_neg hj, Nat.add_zero]
  refine ⟨h.current, h.made, h.currentLt, h.unused, h.probed, h.known, h.blank, h.shadows,
    h.overflow, h.depth, h.alone, fun j => ?_, fun j => ?_, fun j f hf => ?_, fun i j hi hj => ?_,
    fun k hzero hk => ?_, fun k => ?_, hlt⟩
  · have hold := h.until_le j
    rw [huntil]
    show _ ≤ t
    split <;> omega
  · rw [huntil]
    exact (h.excluded j).trans (Nat.le_add_right _ _)
  · have hold := h.stamped j f hf
    rw [huntil]
    exact ⟨hold.enter.trans (Nat.le_add_right _ _), hold.excluded, hold.start,
      hold.stamp.trans (Nat.sub_le_sub_right (Nat.le_add_right _ _) _)⟩
  · -- the credit of a function that is open grows with its stack's clock, and with no other
    obtain ⟨hactive, hspent⟩ := h.entry i j hi hj
    refine ⟨hactive, ?_⟩
    have hclock : clockOf s (L.charge t) j =
        clockOf s L j + if j = L.current then t - L.last else 0 := by
      have hold := h.excluded j
      rw [clockOf, clockOf, huntil]
      omega
    show (if s.keys i ∈ L.running then L.spent (s.keys i) + (t - L.last)
      else L.spent (s.keys i)) = _ + owed _ _ (L.calls j) _
    rw [hclock]
    by_cases hrunning : s.keys i ∈ L.running
    · have hcurrent : j = L.current := by
        by_contra hne
        exact hj L.current (Ne.symm hne) hrunning
      subst hcurrent
      have hstamp : ∀ f ∈ (s.shadows L.current).frames, f.stamp ≤ clockOf s L L.current :=
        fun f hf => (h.stamped _ f hf).stamp
      rw [if_pos hrunning, if_pos rfl, (h.shadows _).owed_add hstamp hrunning, hspent]
      omega
    · rw [if_neg hrunning, hspent]
      by_cases hmem : s.keys i ∈ L.calls j
      · have hcurrent : j ≠ L.current := by
          rintro rfl
          exact hrunning hmem
        rw [if_neg hcurrent, Nat.add_zero]
      · rw [owed_of_not_mem _ _ hmem, owed_of_not_mem _ _ hmem]
  · have hclosed : k ∉ L.running := fun hmem => by
      obtain ⟨i, hi⟩ := (h.shadows _).exists_key hmem
      exact hk i hi
    show (if k ∈ L.running then _ else L.spent k) = 0
    rw [if_neg hclosed]
    exact h.unknown k hzero hk
  · have hold := h.bound k
    show (if k ∈ L.running then L.spent k + (t - L.last) else L.spent k) ≤ t
    split <;> omega

/-! ### A function that begins -/

theorem keys_setStat (s : ThreadState) (i : Fin kTableSize) (stat : Stat) :
    (s.setStat (some i) stat).keys = Function.update s.keys i stat.key := by
  funext i'
  show (Function.update s.stats (some i) stat (some i')).key = _
  by_cases hi : i' = i
  · subst hi
    rw [Function.update_self, Function.update_self]
  · rw [Function.update_of_ne fun heq => hi (Option.some.inj heq), Function.update_of_ne hi]
    rfl

/-- The functions of open calls have entries of their own. -/
theorem Tracks.exists_key (h : Tracks K s L) {j : ℕ} (hk : k ∈ L.calls j) : ∃ i, s.keys i = k :=
  (h.shadows j).exists_key hk

/-- A function gets an entry of its own, if there is one for each of the functions. -/
theorem Tracks.find (h : Tracks K s L) (hcard : K.card ≤ kTableSize) (hK : k ∈ K) (hk : k ≠ 0) :
    ∃ i s', FunctionProfiler.find s k = (some i, s') ∧ s'.keys i = k ∧ s'.shadows = s.shadows ∧
      Tracks K s' L := by
  obtain ⟨i, hfind⟩ := h.probed.exists_find hcard h.known hK
  let s' := s.setStat (some i) { s.stats (some i) with key := k }
  have hkeys : s'.keys = Function.update s.keys i k := keys_setStat s i _
  have hself : s'.keys i = k := by rw [hkeys, Function.update_self]
  -- the entry was empty, or the function's own
  have hslot : s.keys i = k ∨ s.keys i = 0 := by
    rcases OpenAddressing.find_cases s.keys 0 hash k with ⟨d, _, hfound, hstop, _⟩ | ⟨hnone, _⟩
    · obtain rfl := Option.some.inj (hfound.symm.trans hfind)
      exact hstop
    · exact nomatch hnone.symm.trans hfind
  have hkeep : ∀ i', s.keys i' ≠ 0 → s'.keys i' = s.keys i' := by
    intro i' hi'
    rw [hkeys]
    by_cases heq : i' = i
    · subst heq
      rw [Function.update_self]
      exact (hslot.resolve_right hi').symm
    · rw [Function.update_of_ne heq]
  have hactive : ∀ e, (s'.stats e).active = (s.stats e).active := by
    intro e
    show (Function.update s.stats (some i) _ e).active = _
    by_cases he : e = some i
    · subst he
      rw [Function.update_self]
    · rw [Function.update_of_ne he]
  have hinclusive : ∀ e, (s'.stats e).inclusive = (s.stats e).inclusive := by
    intro e
    show (Function.update s.stats (some i) _ e).inclusive = _
    by_cases he : e = some i
    · subst he
      rw [Function.update_self]
    · rw [Function.update_of_ne he]
  refine ⟨i, s', by rw [FunctionProfiler.find, hfind], hself, rfl, h.current, h.made, h.currentLt,
    h.unused, ?_, ?_, ?_, fun j => (h.shadows j).mono hkeep, h.overflow, h.depth, h.alone,
    h.until_le, h.excluded, h.stamped, ?_, ?_, h.bound, h.lt⟩
  · rw [hkeys]
    exact h.probed.insert hfind
  · intro i' hi'
    rw [hkeys] at hi' ⊢
    by_cases heq : i' = i
    · subst heq
      rwa [Function.update_self]
    · rw [Function.update_of_ne heq] at hi' ⊢
      exact h.known i' hi'
  · intro i' hi'
    rw [hactive, hinclusive]
    refine h.blank i' ?_
    by_contra hne
    exact hne ((hkeep i' hne).symm.trans hi')
  · intro i' j hi' hj
    rw [hactive, hinclusive]
    by_cases hblank : s.keys i' = 0
    · -- the function is new: nothing is owed
      obtain ⟨ha, hi⟩ := h.blank i' hblank
      have hself' : i' = i := by
        by_contra hne
        rw [hkeys, Function.update_of_ne hne] at hi'
        exact hi' hblank
      subst hself'
      rw [hself] at hj ⊢
      have hnew : ∀ i'', s.keys i'' ≠ k := by
        intro i'' heq
        have hsame := Option.some.inj (hfind.symm.trans (h.probed.find_eq heq hk))
        subst hsame
        exact hk (heq.symm.trans hblank)
      have hclosed : k ∉ L.calls j := fun hmem => by
        obtain ⟨i'', heq⟩ := h.exists_key hmem
        exact hnew i'' heq
      rw [ha, hi, List.count_eq_zero_of_not_mem hclosed, h.unknown k hk hnew,
        owed_of_not_mem _ _ hclosed]
      exact ⟨rfl, rfl⟩
    · rw [hkeep i' hblank] at hj ⊢
      exact h.entry i' j hblank hj
  · intro k' hzero hk'
    exact h.unknown k' hzero fun i' heq => hk' i' ((hkeep i' (heq ▸ hzero)).trans heq)

/-! ### Frames that come and go -/

/-- The state with other frames on a stack, and other credits of one entry. -/
def ThreadState.reframe (s : ThreadState) (j : ℕ) (i : Fin kTableSize) (stat : Stat)
    (frames : List Frame) : ThreadState :=
  (s.setStat (some i) stat).setStack j { s.shadows j with frames := frames }

section Reframe

variable {i : Fin kTableSize} {stat : Stat} {j j' : ℕ}

theorem reframe_stats_self : (s.reframe j i stat frames).stats (some i) = stat :=
  Function.update_self ..

theorem reframe_stats_of_ne {i' : Fin kTableSize} (h : i' ≠ i) :
    (s.reframe j i stat frames).stats (some i') = s.stats (some i') :=
  Function.update_of_ne (fun heq => h (Option.some.inj heq)) ..

/-- The entry keeps its key. -/
theorem reframe_keys (hkey : stat.key = s.keys i) : (s.reframe j i stat frames).keys = s.keys := by
  have hkeys : (s.setStat (some i) stat).keys = s.keys := by
    rw [keys_setStat, hkey, Function.update_eq_self]
  exact hkeys

theorem reframe_shadows_self :
    (s.reframe j i stat frames).shadows j = { s.shadows j with frames := frames } :=
  Function.update_self ..

theorem reframe_shadows_of_ne (h : j' ≠ j) :
    (s.reframe j i stat frames).shadows j' = s.shadows j' := Function.update_of_ne h ..

theorem reframe_leftAt (j' : ℕ) :
    ((s.reframe j i stat frames).shadows j').leftAt = (s.shadows j').leftAt := by
  by_cases h : j' = j
  · subst h
    rw [reframe_shadows_self]
  · rw [reframe_shadows_of_ne h]

theorem reframe_excluded (j' : ℕ) :
    ((s.reframe j i stat frames).shadows j').excluded = (s.shadows j').excluded := by
  by_cases h : j' = j
  · subst h
    rw [reframe_shadows_self]
  · rw [reframe_shadows_of_ne h]

theorem reframe_overflow (j' : ℕ) :
    ((s.reframe j i stat frames).shadows j').overflow = (s.shadows j').overflow := by
  by_cases h : j' = j
  · subst h
    rw [reframe_shadows_self]
  · rw [reframe_shadows_of_ne h]

theorem reframe_chargedUntil (j' : ℕ) :
    chargedUntil (s.reframe j i stat frames) (L.setRunning calls) j' = chargedUntil s L j' := by
  rw [chargedUntil, chargedUntil, reframe_leftAt]
  rfl

theorem reframe_clockOf (j' : ℕ) :
    clockOf (s.reframe j i stat frames) (L.setRunning calls) j' = clockOf s L j' := by
  rw [clockOf, clockOf, reframe_chargedUntil, reframe_excluded]

theorem setRunning_calls : (L.setRunning calls).calls L.current = calls := Function.update_self ..

theorem setRunning_calls_of_ne (h : j ≠ L.current) : (L.setRunning calls).calls j = L.calls j :=
  Function.update_of_ne h ..

/-- A property of what is open on each stack, where it holds of the calls that run. -/
theorem setRunning_forall {P : ℕ → List ℕ → Prop} (hrunning : P L.current calls)
    (hother : ∀ j ≠ L.current, P j (L.calls j)) (j : ℕ) : P j ((L.setRunning calls).calls j) := by
  by_cases h : j = L.current
  · subst h
    rw [setRunning_calls]
    exact hrunning
  · rw [setRunning_calls_of_ne h]
    exact hother j h

/-- The functions that are open are the same, but for one. -/
theorem setRunning_mem {k' : ℕ} (hcount : calls.count k' = L.running.count k') (j : ℕ) :
    k' ∈ (L.setRunning calls).calls j ↔ k' ∈ L.calls j :=
  setRunning_forall (P := fun j calls => k' ∈ calls ↔ k' ∈ L.calls j)
    (by rw [← List.count_pos_iff, hcount, List.count_pos_iff]; rfl) (fun _ _ => Iff.rfl) j

/-- The function that comes or goes is open on the stack that runs only, and all others stay. -/
theorem setRunning_alone (halone : ∀ k j j', k ∈ L.calls j → k ∈ L.calls j' → j = j')
    (hclosed : ∀ j ≠ L.current, k ∉ L.calls j)
    (hcount : ∀ k' ≠ k, calls.count k' = L.running.count k') {k' : ℕ}
    (hj : k' ∈ (L.setRunning calls).calls j) (hj' : k' ∈ (L.setRunning calls).calls j') : j = j' := by
  by_cases hne : k' = k
  · subst hne
    have honly : ∀ j, k' ∈ (L.setRunning calls).calls j → j = L.current := by
      intro j hj
      by_contra hne
      rw [setRunning_calls_of_ne hne] at hj
      exact hclosed j hne hj
    exact (honly j hj).trans (honly j' hj').symm
  · exact halone k' j j' ((setRunning_mem (hcount k' hne) j).mp hj)
      ((setRunning_mem (hcount k' hne) j').mp hj')

end Reframe

/-- What the frames and the calls of the stack that runs become, with the credits of one function; for
all other functions they say the same. -/
structure Reframes (s : ThreadState) (L : Ledger) (k : ℕ) (stat : Stat) (frames : List Frame)
    (calls : List ℕ) : Prop where
  key : stat.key = k
  shadows : Shadows s.keys frames calls
  depth : calls.length ≤ kMaxDepth
  stamped : ∀ f ∈ frames, Stamped (chargedUntil s L L.current) (s.shadows L.current).excluded f
  active : stat.active = calls.count k
  spent : L.spent k = stat.inclusive + owed (clockOf s L L.current) frames calls k
  count : ∀ k' ≠ k, calls.count k' = L.running.count k'
  owed : ∀ k' ≠ k, owed (clockOf s L L.current) frames calls k' =
    owed (clockOf s L L.current) (s.shadows L.current).frames L.running k'

/-- The credits of an entry, where its function is open on one stack at most. -/
def Credited (s : ThreadState) (L : Ledger) (i : Fin kTableSize) (j : ℕ) : Prop :=
  (s.stats (some i)).active = (L.calls j).count (s.keys i) ∧
    L.spent (s.keys i) = (s.stats (some i)).inclusive +
      owed (clockOf s L j) (s.shadows j).frames (L.calls j) (s.keys i)

section SetRunning

variable {i : Fin kTableSize} {stat : Stat}

/-- The entry of the function that comes or goes. -/
theorem Reframes.credited_self (hr : Reframes s L k stat frames calls) (hi : s.keys i = k)
    (hclosed : ∀ j ≠ L.current, k ∉ L.calls j) {j : ℕ}
    (hopen : ∀ j' ≠ j, k ∉ (L.setRunning calls).calls j') :
    Credited (s.reframe L.current i stat frames) (L.setRunning calls) i j := by
  have hkeys : (s.reframe L.current i stat frames).keys i = k := by
    rw [reframe_keys (hr.key.trans hi.symm), hi]
  rw [Credited, hkeys, reframe_stats_self, reframe_clockOf]
  by_cases hj : j = L.current
  · subst hj
    rw [setRunning_calls, reframe_shadows_self]
    exact ⟨hr.active, hr.spent⟩
  · have hnot : k ∉ calls := by
      have hrunning : (L.setRunning calls).calls L.current = calls := setRunning_calls
      rw [← hrunning]
      exact hopen L.current (Ne.symm hj)
    have hspent := hr.spent
    rw [owed_of_not_mem _ _ hnot] at hspent
    rw [setRunning_calls_of_ne hj, hr.active, List.count_eq_zero_of_not_mem hnot,
      List.count_eq_zero_of_not_mem (hclosed j hj), owed_of_not_mem _ _ (hclosed j hj)]
    exact ⟨rfl, hspent⟩

/-- The entry of another function. -/
theorem Reframes.credited_of_ne (hr : Reframes s L k stat frames calls) (hi : s.keys i = k)
    {i' : Fin kTableSize} (hi' : i' ≠ i) (hne : s.keys i' ≠ k) {j : ℕ} (h : Credited s L i' j) :
    Credited (s.reframe L.current i stat frames) (L.setRunning calls) i' j := by
  rw [Credited, reframe_keys (hr.key.trans hi.symm), reframe_stats_of_ne hi', reframe_clockOf]
  by_cases hj : j = L.current
  · subst hj
    rw [setRunning_calls, reframe_shadows_self, hr.count _ hne]
    refine ⟨h.1, ?_⟩
    rw [hr.owed _ hne]
    exact h.2
  · rw [setRunning_calls_of_ne hj, reframe_shadows_of_ne hj]
    exact h

/-- The stack that is current gets other frames, and one function other credits. -/
theorem Tracks.setRunning (h : Tracks K s L) (hi : s.keys i = k) (hk : k ≠ 0)
    (hclosed : ∀ j ≠ L.current, k ∉ L.calls j) (hr : Reframes s L k stat frames calls) :
    Tracks K (s.reframe L.current i stat frames) (L.setRunning calls) := by
  have hkeys : (s.reframe L.current i stat frames).keys = s.keys :=
    reframe_keys (hr.key.trans hi.symm)
  refine ⟨h.current, h.made, h.currentLt, fun j hj => ?_, ?_, ?_, fun i' hi' => ?_, fun j => ?_,
    fun j => ?_, setRunning_forall (P := fun _ calls => calls.length ≤ kMaxDepth) hr.depth
      fun j _ => h.depth j, fun _ _ _ => setRunning_alone h.alone hclosed hr.count, fun j => ?_, fun j => ?_,
    fun j f hf => ?_, fun i' j hi' hj => ?_, ?_, h.bound, h.lt⟩
  · -- stacks past the ones made, and other stacks, are as they were
    have hne : j ≠ L.current := (h.currentLt.trans_le hj).ne'
    rw [setRunning_calls_of_ne hne, reframe_shadows_of_ne hne]
    exact h.unused j hj
  · rw [hkeys]
    exact h.probed
  · rw [hkeys]
    exact h.known
  · rw [hkeys] at hi'
    have hne : i' ≠ i := by
      rintro rfl
      exact hk (hi.symm.trans hi')
    rw [reframe_stats_of_ne hne]
    exact h.blank i' hi'
  · rw [hkeys]
    by_cases hj : j = L.current
    · subst hj
      rw [reframe_shadows_self, setRunning_calls]
      exact hr.shadows
    · rw [reframe_shadows_of_ne hj, setRunning_calls_of_ne hj]
      exact h.shadows j
  · rw [reframe_overflow]
    exact h.overflow j
  · rw [reframe_chargedUntil]
    exact h.until_le j
  · rw [reframe_chargedUntil, reframe_excluded]
    exact h.excluded j
  · rw [reframe_chargedUntil, reframe_excluded]
    by_cases hj : j = L.current
    · subst hj
      rw [reframe_shadows_self] at hf
      exact hr.stamped f hf
    · rw [reframe_shadows_of_ne hj] at hf
      exact h.stamped j f hf
  · -- the function's own entry takes the new credits; another function is counted as before
    rw [hkeys] at hi' hj
    by_cases hself : i' = i
    · subst hself
      exact hr.credited_self hi hclosed (hi ▸ hj)
    · have hne : s.keys i' ≠ k := fun heq => hself (h.probed.injective hi' (heq.trans hi.symm))
      exact hr.credited_of_ne hi hself hne (h.entry i' j hi' fun j' hj' hmem =>
        hj j' hj' ((setRunning_mem (hr.count _ hne) j').mpr hmem))
  · rw [hkeys]
    exact h.unknown

end SetRunning

theorem openFrame_eq {j : ℕ} (hj : s.stack = j) (hroom : (s.shadows j).frames.length < kMaxDepth)
    (i : Fin kTableSize) (t0 : ℕ) :
    FunctionProfiler.openFrame s (some i) t0 =
      s.reframe j i { s.stats (some i) with active := inc32 (s.stats (some i)).active }
        (⟨some i, t0, (s.shadows j).excluded, (s.stats (some i)).active == 0⟩ ::
          (s.shadows j).frames) := by
  subst hj
  exact if_pos hroom

theorem finalize_eq {j : ℕ} (hj : s.stack = j) {f : Frame} {i : Fin kTableSize}
    (hframes : (s.shadows j).frames = f :: frames) (hstat : f.stat = some i) (now : ℕ) :
    finalize s now =
      s.reframe j i { s.stats (some i) with
        active := dec32 (s.stats (some i)).active
        inclusive :=
          if f.outermost then add64 (s.stats (some i)).inclusive
            (sub64 (sub64 now f.enter) (sub64 (s.shadows j).excluded f.excludedAtEnter))
          else (s.stats (some i)).inclusive } frames := by
  subst hj
  unfold finalize
  dsimp only [ThreadState.top]
  rw [hframes]
  dsimp only
  rw [hstat]
  rfl

/-- A function is not open anywhere but on the stack that it begins on. -/
theorem Tracks.openFrame (h : Tracks K s L) {i : Fin kTableSize} (hi : s.keys i = k) (hk : k ≠ 0)
    (hroom : L.running.length < kMaxDepth) (halone : ∀ j ≠ L.current, k ∉ L.calls j) :
    Tracks K (FunctionProfiler.openFrame s (some i) L.last) (L.setRunning (k :: L.running)) := by
  have hframes := h.shadows L.current
  have hlength : (s.shadows L.current).frames.length < kMaxDepth :=
    hframes.length_eq.trans_lt hroom
  obtain ⟨hactive, hspent⟩ := h.entry i L.current (hi ▸ hk) (hi ▸ halone)
  rw [hi] at hactive hspent
  have huntil : chargedUntil s L L.current = L.last := if_pos rfl
  have hexcluded := h.excluded L.current
  rw [openFrame_eq h.current hlength]
  refine h.setRunning hi hk halone ⟨hi, ⟨⟨⟨i, rfl, hi⟩, hk, ?_⟩, hframes⟩, hroom,
    fun g hg => ?_, ?_, ?_, fun k' hne => List.count_cons_of_ne (Ne.symm hne),
    fun k' hne => owed_cons_of_ne _ _ _ _ hne⟩
  · show ((s.stats (some i)).active == 0) = _
    rw [hactive, Bool.eq_iff_iff, beq_iff_eq, List.count_eq_zero, decide_eq_true_iff]
    rfl
  · rcases List.mem_cons.mp hg with rfl | hg
    · rw [huntil] at hexcluded ⊢
      exact ⟨le_rfl, le_rfl, hexcluded, le_rfl⟩
    · exact h.stamped L.current g hg
  · have hcount : L.running.count k ≤ L.running.length := List.count_le_length
    have hbound : L.running.length < 2048 := hroom
    show inc32 (s.stats (some i)).active = (k :: L.running).count k
    rw [List.count_cons_self, hactive]
    exact Nat.mod_eq_of_lt (by
      show L.running.count k + 1 < _
      omega)
  · -- the new frame has been open for no time, and a frame below keeps the credit of its own
    show L.spent k = (s.stats (some i)).inclusive + owed _ _ _ _
    rw [hspent]
    by_cases hmem : k ∈ L.running
    · rw [owed, if_pos hmem]
      rfl
    · have hnone : owed (clockOf s L L.current) (s.shadows L.current).frames
          (L.calls L.current) k = 0 := owed_of_not_mem _ _ hmem
      rw [owed, if_neg hmem, if_pos rfl, hnone, clockOf, huntil]
      exact congrArg _ (Nat.sub_self _).symm

/-- A frame that ends is the innermost one of its stack, and is credited to its function if it is the
outermost one of it. -/
theorem Tracks.closeFrame (h : Tracks K s L) (hrunning : L.running = k :: calls) :
    Tracks K (FunctionProfiler.closeFrame s k L.last) (L.setRunning calls) := by
  have hshadows := h.shadows L.current
  have hstamped := h.stamped L.current
  have hoverflow := h.overflow L.current
  have hexcluded := h.excluded L.current
  have huntil : chargedUntil s L L.current = L.last := if_pos rfl
  have hdepth := h.depth L.current
  change (L.running).length ≤ _ at hdepth
  change Shadows _ _ L.running at hshadows
  rw [hrunning] at hshadows hdepth
  rcases hstack : (s.shadows L.current).frames with _ | ⟨f, frames⟩
  · rw [hstack] at hshadows
    exact hshadows.elim
  rw [hstack] at hshadows hstamped
  obtain ⟨⟨⟨i, hstat, hi⟩, hk, hmark⟩, hrest⟩ := hshadows
  have hmem : k ∈ L.running := hrunning ▸ List.mem_cons_self
  have hclosed : ∀ j ≠ L.current, k ∉ L.calls j := fun j hj hopen =>
    hj (h.alone k j L.current hopen hmem)
  obtain ⟨hactive, hspent⟩ := h.entry i L.current (hi ▸ hk) (hi ▸ hclosed)
  change _ = L.running.count _ at hactive
  change _ = _ + owed _ _ L.running _ at hspent
  rw [hi, hrunning] at hactive hspent
  rw [hstack] at hspent
  have hfinalize : FunctionProfiler.closeFrame s k L.last = finalize s L.last := by
    unfold FunctionProfiler.closeFrame
    dsimp only [ThreadState.top]
    rw [h.current, hstack, hoverflow, if_neg (fun hne => hne rfl)]
    refine if_pos ?_
    show ((s.stats f.stat).key == k) = true
    rw [hstat]
    exact beq_iff_eq.mpr hi
  rw [hfinalize, finalize_eq h.current hstack hstat]
  refine h.setRunning hi hk hclosed ⟨hi, hrest, (Nat.le_succ _).trans hdepth,
    fun g hg => hstamped g (List.mem_cons_of_mem _ hg), ?_, ?_, fun k' hne => ?_, fun k' hne => ?_⟩
  · have hcount : calls.count k ≤ calls.length := List.count_le_length
    have hbound : calls.length + 1 ≤ 2048 := hdepth
    show dec32 (s.stats (some i)).active = calls.count k
    rw [hactive, List.count_cons_self, dec32]
    omega
  · by_cases hinner : k ∈ calls
    · rw [hmark, decide_eq_false (not_not.mpr hinner), if_neg (by decide)]
      rw [owed, if_pos hinner] at hspent
      exact hspent
    · obtain ⟨hf₁, hf₂, hf₃, hf₄⟩ := hstamped f List.mem_cons_self
      rw [huntil] at hf₁ hf₄ hexcluded
      rw [Frame.stamp] at hf₄
      have hlt := h.lt
      have hbound := h.bound k
      rw [owed, if_neg hinner, if_pos rfl, clockOf, huntil, Frame.stamp] at hspent
      -- the time since the frame was opened, less what was excluded since
      have htime : sub64 (sub64 L.last f.enter)
          (sub64 (s.shadows L.current).excluded f.excludedAtEnter) =
          L.last - (s.shadows L.current).excluded - (f.enter - f.excludedAtEnter) := by
        rw [sub64_of_le hf₁ hlt, sub64_of_le hf₂ (by omega), sub64_of_le (by omega) (by omega)]
        omega
      rw [hmark, decide_eq_true hinner, if_pos rfl, htime, owed_of_not_mem _ _ hinner,
        add64_of_lt (by omega)]
      exact hspent
  · rw [hrunning, List.count_cons_of_ne (Ne.symm hne)]
  · rw [hrunning, hstack, owed_cons_of_ne _ _ _ _ hne]

/-! ### A stack that goes on -/

/-- Time passes that is excluded from the stack that goes on. -/
theorem Tracks.resume (h : Tracks K s L) {j made : ℕ} (stack : Stack) (hmade : L.made ≤ made)
    (hj : j < made) (hs' : s'.stats = s.stats ∧ s'.shadows = Function.update s.shadows j stack ∧
      s'.stack = j ∧ s'.made = made)
    (hle : L.last ≤ t) (hlt : t < 2 ^ 64)
    (hleft : L.current ≠ j → (s.shadows L.current).leftAt = L.last)
    (hframes : stack.frames = (s.shadows j).frames) (hoverflow : stack.overflow = 0)
    (hexcluded : stack.excluded ≤ t) (hstamped : ∀ f ∈ stack.frames, Stamped t stack.excluded f)
    (howed : ∀ k ∈ L.calls j, t - stack.excluded = clockOf s L j) :
    Tracks K s' { L with current := j, made := made, last := t } := by
  obtain ⟨hstats, hstacks, hcurrent, hmade'⟩ := hs'
  have hkeys : s'.keys = s.keys := by
    funext i
    exact congrArg (fun stats => (stats (some i)).key) hstats
  have hself : s'.shadows j = stack := by rw [hstacks, Function.update_self]
  -- the clocks of the other stacks stand still: the stack that was left carries its last time
  have hother : ∀ j' ≠ j, s'.shadows j' = s.shadows j' := by
    intro j' hj'
    rw [hstacks, Function.update_of_ne hj']
  have huntil : chargedUntil s' { L with current := j, made := made, last := t } j = t :=
    if_pos rfl
  have huntilOther : ∀ j' ≠ j,
      chargedUntil s' { L with current := j, made := made, last := t } j' =
        chargedUntil s L j' := by
    intro j' hj'
    show (if j' = j then t else _) = if j' = L.current then _ else _
    rw [if_neg hj', hother j' hj']
    split
    next heq =>
      subst heq
      exact hleft hj'
    · rfl
  refine ⟨hcurrent, hmade', hj, fun j' hj' => ?_, hkeys ▸ h.probed, hkeys ▸ h.known, ?_,
    fun j' => ?_, fun j' => ?_, h.depth, h.alone, fun j' => ?_, fun j' => ?_,
    fun j' f hf => ?_, fun i j' hi hj' => ?_, hkeys ▸ h.unknown, fun k => (h.bound k).trans hle,
    hlt⟩
  · rw [hother j' (Nat.ne_of_gt (hj.trans_le hj'))]
    exact h.unused j' (hmade.trans hj')
  · rw [hkeys, hstats]
    exact h.blank
  · rw [hkeys]
    by_cases heq : j' = j
    · subst heq
      rw [hself, hframes]
      exact h.shadows j'
    · rw [hother j' heq]
      exact h.shadows j'
  · by_cases heq : j' = j
    · subst heq
      rw [hself, hoverflow]
    · rw [hother j' heq]
      exact h.overflow j'
  · by_cases heq : j' = j
    · subst heq
      exact huntil.le
    · rw [huntilOther j' heq]
      exact (h.until_le j').trans hle
  · by_cases heq : j' = j
    · subst heq
      rw [huntil, hself]
      exact hexcluded
    · rw [huntilOther j' heq, hother j' heq]
      exact h.excluded j'
  · by_cases heq : j' = j
    · subst heq
      rw [hself] at hf ⊢
      rw [huntil]
      exact hstamped f hf
    · rw [hother j' heq] at hf ⊢
      rw [huntilOther j' heq]
      exact h.stamped j' f hf
  · -- an open function's credit is owed on its own stack, whose clock goes on where it was left
    rw [hkeys] at hi hj' ⊢
    rw [hstats]
    obtain ⟨hactive, hspent⟩ := h.entry i j' hi hj'
    refine ⟨hactive, ?_⟩
    show L.spent _ = _ + owed _ _ (L.calls j') _
    rw [hspent]
    by_cases hopen : s.keys i ∈ L.calls j'
    · by_cases heq : j' = j
      · subst heq
        rw [clockOf.eq_def s', huntil, hself, howed _ hopen, hframes]
      · rw [clockOf.eq_def s', huntilOther j' heq, hother j' heq, ← clockOf]
    · rw [owed_of_not_mem _ _ hopen, owed_of_not_mem _ _ hopen]

end FunctionProfiler
