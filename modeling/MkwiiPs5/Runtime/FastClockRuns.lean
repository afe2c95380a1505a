import MkwiiPs5.History
import MkwiiPs5.Runtime.FastClock

/-!
# What readers of the fast clock see

The histories of a clock: which anchor a reader computes from, and the values that calls return.
-/

namespace Runtime.FastMonotonicClock

variable {τ : Type*} [DecidableEq τ] {clock : Clock}

/-! ### Histories -/

/-- How many resyncs have stored their anchor. -/
def published : List (Event τ) → ℕ
  | [] => 0
  | .published _ _ :: past => published past + 1
  | _ :: past => published past

/-- How many did since the thread last loaded the sequence. -/
def publishedSince (t : τ) : List (Event τ) → ℕ
  | [] => 0
  | .loaded u :: past => if u = t then 0 else publishedSince t past
  | .published _ _ :: past => publishedSince t past + 1
  | _ :: past => publishedSince t past

/-- The pairs that were stored together. -/
def anchors : List (Event τ) → List (UInt64 × UInt64)
  | [] => []
  | .constructed baseCounter baseNanos :: past => (baseCounter, baseNanos) :: anchors past
  | .published baseCounter baseNanos :: past => (baseCounter, baseNanos) :: anchors past
  | _ :: past => anchors past

def returned : List (Event τ) → List UInt64
  | [] => []
  | .returned _ value :: past => value :: returned past
  | _ :: past => returned past

/-- What had been returned when the thread made its last call. -/
def returnedBefore (t : τ) : List (Event τ) → List UInt64
  | [] => []
  | .called u :: past => if u = t then returned past else returnedBefore t past
  | _ :: past => returnedBefore t past

/-- A reader which is not overtaken by `2 ^ 63` resyncs computes from a pair that was stored
together. No call returns less than those that returned before it. -/
def Event.Safe : Event τ → List (Event τ) → Prop
  | .computed t baseCounter baseNanos, past =>
    publishedSince t past < 2 ^ 63 → (baseCounter, baseNanos) ∈ anchors past
  | .returned t value, past => ∀ earlier ∈ returnedBefore t past, earlier ≤ value
  | _, _ => True

theorem returnedBefore_subset (t : τ) (log : List (Event τ)) :
    returnedBefore t log ⊆ returned log := by
  induction log with
  | nil => exact List.Subset.refl _
  | cons e past ih =>
    cases e with
    | called u =>
      show (if u = t then returned past else returnedBefore t past) ⊆ returned past
      split
      · exact List.Subset.refl _
      · exact ih
    | returned u value => exact List.Subset.trans ih (List.subset_cons_self _ _)
    | constructed baseCounter baseNanos => exact ih
    | loaded u => exact ih
    | published baseCounter baseNanos => exact ih
    | computed u baseCounter baseNanos => exact ih

/-! ### Sequence numbers -/

/-- What the sequence is after `n` stores. -/
theorem even_and_one (n : ℕ) : UInt64.ofNat (2 * n) &&& 1 ≠ 1 := by
  intro h
  have h := congrArg UInt64.toNat h
  rw [UInt64.toNat_and, UInt64.toNat_ofNat', UInt64.toNat_one, Nat.and_one_is_mod] at h
  omega

theorem odd_and_one (n : ℕ) : UInt64.ofNat (2 * n + 1) &&& 1 = 1 := by
  apply UInt64.toNat_inj.mp
  rw [UInt64.toNat_and, UInt64.toNat_ofNat', UInt64.toNat_one, Nat.and_one_is_mod]
  omega

theorem even_ne_odd (a b : ℕ) : UInt64.ofNat (2 * a + 1) ≠ UInt64.ofNat (2 * b) := by
  intro h
  exact even_and_one b (h ▸ odd_and_one a)

/-- Fewer than `2 ^ 63` resyncs do not bring the sequence back. -/
theorem eq_zero_of_wraps {earlier since : ℕ} (hsince : since < 2 ^ 63)
    (h : UInt64.ofNat (2 * earlier) = UInt64.ofNat (2 * (earlier + since))) : since = 0 := by
  have h := congrArg UInt64.toNat h
  rw [UInt64.toNat_ofNat', UInt64.toNat_ofNat'] at h
  omega

theorem even_add_one (n : ℕ) : UInt64.ofNat (2 * n) + 1 = UInt64.ofNat (2 * n + 1) :=
  (UInt64.ofNat_add _ _).symm

theorem even_add_two (n : ℕ) : UInt64.ofNat (2 * n) + 2 = UInt64.ofNat (2 * (n + 1)) :=
  (UInt64.ofNat_add _ _).symm

/-! ### One step -/

/-- The three stores that leave the sequence odd. -/
def Pc.writing : Pc → Bool
  | .storeCounter _ _ => true
  | .storeNanos _ _ => true
  | .storeEven _ _ => true
  | _ => false

theorem Pc.resyncing_of_writing {pc : Pc} (h : pc.writing = true) : pc.resyncing = true := by
  cases pc <;> first | rfl | exact absurd h Bool.false_ne_true

/-- A reader that has loaded an even sequence knows how many resyncs there had been. -/
def LoadedEven (m : Memory τ) (t : τ) (sequence : UInt64) : Prop :=
  ∃ earlier, published m.log = earlier + publishedSince t m.log ∧
    sequence = UInt64.ofNat (2 * earlier)

/-- What was loaded still stands, unless some resync stored an anchor or is about to. -/
def Current (m : Memory τ) (t : τ) (p : Prop) : Prop :=
  publishedSince t m.log = 0 → m.sequence = UInt64.ofNat (2 * published m.log) → p

/-- What the locals of a call tell about the memory. -/
def Holds (m : Memory τ) (t : τ) : Pc → Prop
  | .baseCounter _ sequence => sequence &&& 1 ≠ 1 → LoadedEven m t sequence
  | .baseNanos _ sequence baseCounter =>
    (sequence &&& 1 ≠ 1 → LoadedEven m t sequence) ∧ Current m t (baseCounter = m.baseCounter)
  | .check _ sequence baseCounter baseNanos =>
    LoadedEven m t sequence ∧
      Current m t (baseCounter = m.baseCounter ∧ baseNanos = m.baseNanos)
  | .storeOdd _ sequence =>
    sequence = UInt64.ofNat (2 * published m.log) ∧ m.sequence = sequence
  | .storeCounter _ sequence =>
    sequence = UInt64.ofNat (2 * published m.log) ∧ m.sequence = sequence + 1
  | .storeNanos locals sequence =>
    (sequence = UInt64.ofNat (2 * published m.log) ∧ m.sequence = sequence + 1) ∧
      m.baseCounter = locals.anchor
  | .storeEven locals sequence =>
    (sequence = UInt64.ofNat (2 * published m.log) ∧ m.sequence = sequence + 1) ∧
      m.baseCounter = locals.anchor ∧ m.baseNanos = locals.base
  | .fetchAdd locals => (locals.anchor, locals.base) ∈ anchors m.log
  | .exchange nanos previous =>
    previous < nanos ∧ ∀ earlier ∈ returnedBefore t m.log, earlier ≤ previous
  | .done value => value ≤ m.last ∧ ∀ earlier ∈ returnedBefore t m.log, earlier ≤ value
  | _ => True

/-- What holds of the memory alone. -/
structure Sound (m : Memory τ) : Prop where
  parity : m.sequence = UInt64.ofNat (2 * published m.log) ∨
    m.sequence = UInt64.ofNat (2 * published m.log + 1)
  anchored : m.sequence = UInt64.ofNat (2 * published m.log) →
    (m.baseCounter, m.baseNanos) ∈ anchors m.log
  answered : ∀ value ∈ returned m.log, value ≤ m.last
  safe : History.Ok Event.Safe m.log

/-- No thread is between its stores. -/
def Settled (m : Memory τ) : Prop := m.sequence = UInt64.ofNat (2 * published m.log)

variable {m m' : Memory τ} {t u : τ} {pc pc' : Pc} {value : UInt64} {spurious : Bool}

theorem clamp_holds (hsound : Sound m) (nanos : UInt64) : Holds m t (clamp nanos m.last) := by
  have hbefore : ∀ earlier ∈ returnedBefore t m.log, earlier ≤ m.last :=
    fun earlier h => hsound.answered earlier (returnedBefore_subset t m.log h)
  rw [clamp]
  split
  next hlt => exact ⟨hlt, hbefore⟩
  next hle => exact ⟨UInt64.le_refl _, hbefore⟩

/-- The thread that takes the step. A resync is the only one, so that the sequence is even when it
loads it. -/
theorem act_holds (hsound : Sound m) (hpc : Holds m t pc)
    (hsettled : pc.resyncing = true → pc.writing = false → Settled m) :
    Holds (act clock t value spurious m pc).1 t (act clock t value spurious m pc).2 := by
  cases pc with
  -- an even sequence is the one of the resyncs published so far
  | sequence counter =>
    intro heven
    have hsequence : m.sequence = UInt64.ofNat (2 * published m.log) := by
      refine hsound.parity.resolve_right ?_
      intro hodd
      exact heven (hodd ▸ odd_and_one _)
    refine ⟨published m.log, ?_, hsequence⟩
    show published m.log = published m.log + if t = t then 0 else publishedSince t m.log
    rw [if_pos rfl, Nat.add_zero]
  | baseCounter counter sequence => exact ⟨hpc, fun _ _ => rfl⟩
  | baseNanos counter sequence baseCounter =>
    rw [act]
    split
    · trivial
    next heven => exact ⟨hpc.1 heven, fun hnone hstill => ⟨hpc.2 hnone hstill, rfl⟩⟩
  | check counter sequence baseCounter baseNanos =>
    rw [act]
    split
    · trivial
    dsimp only
    split <;> trivial
  | testAndSet counter nanos =>
    rw [act]
    split <;> trivial
  | load locals => exact ⟨hsettled rfl rfl, rfl⟩
  | storeOdd locals sequence => exact ⟨hpc.1, rfl⟩
  | storeCounter locals sequence => exact ⟨hpc, rfl⟩
  | storeNanos locals sequence => exact ⟨hpc.1, hpc.2, rfl⟩
  | storeEven locals sequence => exact List.mem_cons_self
  | last nanos => exact clamp_holds hsound nanos
  -- a swapped value was above the one it replaced, which no earlier answer exceeds
  | exchange nanos previous =>
    rw [act]
    split
    · refine ⟨UInt64.le_refl _, fun earlier hearlier => ?_⟩
      exact UInt64.le_of_lt (UInt64.lt_of_le_of_lt (hpc.2 earlier hearlier) hpc.1)
    · exact clamp_holds hsound nanos
  | idle => trivial
  | counter => trivial
  | slowNanos counterBefore => trivial
  | counterAfter counterBefore real => trivial
  | fetchAdd locals => trivial
  | clear nanos => trivial
  | done value => trivial

/-- A reader whose second load of the sequence gives the same number. -/
theorem check_safe (hsound : Sound m) {counter baseCounter baseNanos : UInt64}
    (hpc : Holds m t (.check counter m.sequence baseCounter baseNanos)) :
    (Event.computed t baseCounter baseNanos).Safe m.log := by
  intro hsince
  obtain ⟨⟨earlier, hcount, hsequence⟩, hcurrent⟩ := hpc
  have heven : m.sequence = UInt64.ofNat (2 * published m.log) := by
    refine hsound.parity.resolve_right ?_
    intro hodd
    exact even_ne_odd _ _ (hodd.symm.trans hsequence)
  have hnone : publishedSince t m.log = 0 :=
    eq_zero_of_wraps hsince (hcount ▸ hsequence.symm.trans heven)
  obtain ⟨rfl, rfl⟩ := hcurrent hnone heven
  exact hsound.anchored heven

/-- Stores between the odd sequence and the even one. -/
theorem sound_of_odd (hsound : Sound m) (hlog : m'.log = m.log) (hlast : m'.last = m.last)
    (hodd : m'.sequence = UInt64.ofNat (2 * published m.log + 1)) : Sound m' := by
  refine ⟨Or.inr (hlog ▸ hodd), ?_, ?_, ?_⟩
  · intro heven
    exact absurd (hodd.symm.trans (hlog ▸ heven)) (even_ne_odd _ _)
  · rw [hlog, hlast]
    exact hsound.answered
  · rw [hlog]
    exact hsound.safe

/-- Steps that do not touch what is stored. -/
theorem sound_of_note (hsound : Sound m) {e : Event τ}
    (hpublished : published (e :: m.log) = published m.log)
    (hanchors : anchors (e :: m.log) = anchors m.log)
    (hanswered : ∀ value ∈ returned (e :: m.log), value ≤ m.last) (hsafe : e.Safe m.log) :
    Sound (m.note e) := by
  refine ⟨?_, ?_, hanswered, hsafe, hsound.safe⟩
  · show m.sequence = UInt64.ofNat (2 * published (e :: m.log)) ∨
      m.sequence = UInt64.ofNat (2 * published (e :: m.log) + 1)
    rw [hpublished]
    exact hsound.parity
  · show m.sequence = UInt64.ofNat (2 * published (e :: m.log)) →
      (m.baseCounter, m.baseNanos) ∈ anchors (e :: m.log)
    rw [hpublished, hanchors]
    exact hsound.anchored

theorem act_sound (hsound : Sound m) (hpc : Holds m t pc) :
    Sound (act clock t value spurious m pc).1 := by
  -- a step that stores nothing a reader sees
  have hsame : ∀ m' : Memory τ, m'.sequence = m.sequence → m'.baseCounter = m.baseCounter →
      m'.baseNanos = m.baseNanos → m'.last = m.last → m'.log = m.log → Sound m' := by
    rintro m' hsequence hcounter hnanos hlast hlog
    refine ⟨?_, ?_, ?_, ?_⟩
    · rw [hsequence, hlog]
      exact hsound.parity
    · rw [hsequence, hcounter, hnanos, hlog]
      exact hsound.anchored
    · rw [hlast, hlog]
      exact hsound.answered
    · rw [hlog]
      exact hsound.safe
  cases pc with
  | idle => exact sound_of_note hsound rfl rfl hsound.answered trivial
  | sequence counter => exact sound_of_note hsound rfl rfl hsound.answered trivial
  | check counter sequence baseCounter baseNanos =>
    rw [act]
    split
    · exact hsound
    next heq =>
      obtain rfl := not_not.mp heq
      exact sound_of_note hsound rfl rfl hsound.answered (check_safe hsound hpc)
  | testAndSet counter nanos =>
    rw [act]
    split
    · exact hsound
    · exact hsame _ rfl rfl rfl rfl rfl
  | baseNanos counter sequence baseCounter =>
    rw [act]
    split <;> exact hsound
  -- the three stores of a resync stand between an odd sequence and the even one
  | storeOdd locals sequence =>
    refine sound_of_odd hsound rfl rfl ?_
    show sequence + 1 = _
    rw [hpc.1, even_add_one]
  | storeCounter locals sequence =>
    refine sound_of_odd hsound rfl rfl ?_
    show m.sequence = _
    rw [hpc.2, hpc.1, even_add_one]
  | storeNanos locals sequence =>
    refine sound_of_odd hsound rfl rfl ?_
    show m.sequence = _
    rw [hpc.1.2, hpc.1.1, even_add_one]
  -- the even sequence publishes the anchor that was stored
  | storeEven locals sequence =>
    have heven : sequence + 2 = UInt64.ofNat (2 * (published m.log + 1)) := by
      rw [hpc.1.1, even_add_two]
    refine ⟨Or.inl heven, fun _ => ?_, hsound.answered, trivial, hsound.safe⟩
    show (m.baseCounter, m.baseNanos) ∈ (locals.anchor, locals.base) :: anchors m.log
    rw [hpc.2.1, hpc.2.2]
    exact List.mem_cons_self
  | fetchAdd locals =>
    exact sound_of_note (hsame { m with resyncs := m.resyncs + 1 } rfl rfl rfl rfl rfl) rfl rfl
      hsound.answered fun _ => hpc
  -- the last answer only grows
  | exchange nanos previous =>
    rw [act]
    split
    next hswap =>
      refine ⟨hsound.parity, hsound.anchored, fun v hv => ?_, hsound.safe⟩
      have hle := hsound.answered v hv
      rw [hswap.1] at hle
      exact UInt64.le_of_lt (UInt64.lt_of_le_of_lt hle hpc.1)
    · exact hsound
  | done value =>
    refine sound_of_note hsound rfl rfl ?_ hpc.2
    exact List.forall_mem_cons.mpr ⟨hpc.1, hsound.answered⟩
  | counter => exact hsame _ rfl rfl rfl rfl rfl
  | baseCounter counter sequence => exact hsound
  | slowNanos counterBefore => exact hsound
  | counterAfter counterBefore real => exact hsame _ rfl rfl rfl rfl rfl
  | load locals => exact hsound
  | clear nanos => exact hsame _ rfl rfl rfl rfl rfl
  | last nanos => exact hsound

/-! ### The other threads -/

/-- Nothing was stored that the thread `u` depends on. -/
structure Quiet (u : τ) (m m' : Memory τ) : Prop where
  sequence : m'.sequence = m.sequence
  baseCounter : m'.baseCounter = m.baseCounter
  baseNanos : m'.baseNanos = m.baseNanos
  published : published m'.log = published m.log
  since : publishedSince u m'.log = publishedSince u m.log
  anchors : anchors m'.log = anchors m.log
  before : returnedBefore u m'.log = returnedBefore u m.log
  last_le : m.last ≤ m'.last

/-- A resync was at its stores, so that nothing that a reader has loaded need be current. -/
structure Stored (u : τ) (m m' : Memory τ) : Prop where
  count : ∃ d, published m'.log = published m.log + d ∧
    publishedSince u m'.log = publishedSince u m.log + d
  unsettled : publishedSince u m'.log = 0 → m'.sequence ≠ UInt64.ofNat (2 * published m'.log)
  before : returnedBefore u m'.log = returnedBefore u m.log
  last : m'.last = m.last

theorem Quiet.holds (h : Quiet u m m') (hpc : Holds m u pc) : Holds m' u pc := by
  have hloaded : ∀ sequence, LoadedEven m u sequence → LoadedEven m' u sequence := by
    rintro sequence ⟨earlier, hcount, heven⟩
    exact ⟨earlier, by rw [h.published, h.since, hcount], heven⟩
  have hcurrent : ∀ p p' : Prop, (p → p') → Current m u p → Current m' u p' := by
    intro p p' himp hp hnone hstill
    rw [h.since] at hnone
    rw [h.sequence, h.published] at hstill
    exact himp (hp hnone hstill)
  -- what the thread has loaded still stands, as nothing it depends on was stored
  cases pc with
  | baseCounter counter sequence => exact fun heven => hloaded sequence (hpc heven)
  | baseNanos counter sequence baseCounter =>
    refine ⟨fun heven => hloaded sequence (hpc.1 heven), hcurrent _ _ ?_ hpc.2⟩
    rw [h.baseCounter]
    exact id
  | check counter sequence baseCounter baseNanos =>
    refine ⟨hloaded sequence hpc.1, hcurrent _ _ ?_ hpc.2⟩
    rw [h.baseCounter, h.baseNanos]
    exact id
  | storeOdd locals sequence =>
    rw [Holds, h.published, h.sequence]
    exact hpc
  | storeCounter locals sequence =>
    rw [Holds, h.published, h.sequence]
    exact hpc
  | storeNanos locals sequence =>
    rw [Holds, h.published, h.sequence, h.baseCounter]
    exact hpc
  | storeEven locals sequence =>
    rw [Holds, h.published, h.sequence, h.baseCounter, h.baseNanos]
    exact hpc
  | fetchAdd locals =>
    rw [Holds, h.anchors]
    exact hpc
  | exchange nanos previous =>
    rw [Holds, h.before]
    exact hpc
  | done value =>
    rw [Holds, h.before]
    exact ⟨UInt64.le_trans hpc.1 h.last_le, hpc.2⟩
  | idle => trivial
  | counter => trivial
  | sequence counter => trivial
  | testAndSet counter nanos => trivial
  | slowNanos counterBefore => trivial
  | counterAfter counterBefore real => trivial
  | load locals => trivial
  | clear nanos => trivial
  | last nanos => trivial

theorem Stored.holds (h : Stored u m m') (hpc : Holds m u pc) (hreader : pc.resyncing = false) :
    Holds m' u pc := by
  have hloaded : ∀ sequence, LoadedEven m u sequence → LoadedEven m' u sequence := by
    rintro sequence ⟨earlier, hcount, heven⟩
    obtain ⟨d, hpublished, hsince⟩ := h.count
    exact ⟨earlier, by omega, heven⟩
  have hcurrent : ∀ p : Prop, Current m' u p :=
    fun p hnone hstill => absurd hstill (h.unsettled hnone)
  cases pc with
  | baseCounter counter sequence => exact fun heven => hloaded sequence (hpc heven)
  | baseNanos counter sequence baseCounter =>
    exact ⟨fun heven => hloaded sequence (hpc.1 heven), hcurrent _⟩
  | check counter sequence baseCounter baseNanos => exact ⟨hloaded sequence hpc.1, hcurrent _⟩
  | exchange nanos previous =>
    rw [Holds, h.before]
    exact hpc
  | done value =>
    rw [Holds, h.before, h.last]
    exact hpc
  | storeOdd locals sequence => exact absurd hreader Bool.false_ne_true.symm
  | storeCounter locals sequence => exact absurd hreader Bool.false_ne_true.symm
  | storeNanos locals sequence => exact absurd hreader Bool.false_ne_true.symm
  | storeEven locals sequence => exact absurd hreader Bool.false_ne_true.symm
  | fetchAdd locals => exact absurd hreader Bool.false_ne_true.symm
  | idle => trivial
  | counter => trivial
  | sequence counter => trivial
  | testAndSet counter nanos => trivial
  | slowNanos counterBefore => trivial
  | counterAfter counterBefore real => trivial
  | load locals => trivial
  | clear nanos => trivial
  | last nanos => trivial

theorem Quiet.refl (u : τ) (m : Memory τ) : Quiet u m m :=
  ⟨rfl, rfl, rfl, rfl, rfl, rfl, rfl, UInt64.le_refl _⟩

/-- A step of a thread that is not at its stores. -/
theorem act_quiet (hne : u ≠ t) (hpc : Holds m t pc) (hodd : ∀ locals sequence,
    pc ≠ .storeOdd locals sequence) (hwriting : pc.writing = false) :
    Quiet u m (act clock t value spurious m pc).1 := by
  have hrfl := UInt64.le_refl m.last
  cases pc with
  | idle =>
    refine ⟨rfl, rfl, rfl, rfl, rfl, rfl, ?_, hrfl⟩
    exact if_neg hne.symm
  | sequence counter =>
    refine ⟨rfl, rfl, rfl, rfl, ?_, rfl, rfl, hrfl⟩
    exact if_neg hne.symm
  | baseNanos counter sequence baseCounter =>
    rw [act]
    split <;> exact Quiet.refl u m
  | check counter sequence baseCounter baseNanos =>
    rw [act]
    split
    · exact Quiet.refl u m
    · exact ⟨rfl, rfl, rfl, rfl, rfl, rfl, rfl, hrfl⟩
  | testAndSet counter nanos =>
    rw [act]
    split
    · exact Quiet.refl u m
    · exact ⟨rfl, rfl, rfl, rfl, rfl, rfl, rfl, hrfl⟩
  | exchange nanos previous =>
    rw [act]
    split
    next hswap =>
      refine ⟨rfl, rfl, rfl, rfl, rfl, rfl, rfl, ?_⟩
      exact hswap.1 ▸ UInt64.le_of_lt hpc.1
    · exact Quiet.refl u m
  | storeOdd locals sequence => exact absurd rfl (hodd locals sequence)
  | storeCounter locals sequence => exact absurd hwriting Bool.false_ne_true.symm
  | storeNanos locals sequence => exact absurd hwriting Bool.false_ne_true.symm
  | storeEven locals sequence => exact absurd hwriting Bool.false_ne_true.symm
  | counter => exact ⟨rfl, rfl, rfl, rfl, rfl, rfl, rfl, hrfl⟩
  | baseCounter counter sequence => exact Quiet.refl u m
  | slowNanos counterBefore => exact Quiet.refl u m
  | counterAfter counterBefore real => exact ⟨rfl, rfl, rfl, rfl, rfl, rfl, rfl, hrfl⟩
  | load locals => exact Quiet.refl u m
  | fetchAdd locals => exact ⟨rfl, rfl, rfl, rfl, rfl, rfl, rfl, hrfl⟩
  | clear nanos => exact ⟨rfl, rfl, rfl, rfl, rfl, rfl, rfl, hrfl⟩
  | last nanos => exact Quiet.refl u m
  | done value => exact ⟨rfl, rfl, rfl, rfl, rfl, rfl, rfl, hrfl⟩

/-- The stores of a resync. -/
theorem act_stored (hpc : Holds m t pc) (hstores : (∃ locals sequence,
    pc = .storeOdd locals sequence) ∨ pc.writing = true) :
    Stored u m (act clock t value spurious m pc).1 := by
  have hodd : ∀ sequence, sequence = UInt64.ofNat (2 * published m.log) →
      sequence + 1 ≠ UInt64.ofNat (2 * published m.log) := by
    rintro sequence rfl
    rw [even_add_one]
    exact even_ne_odd _ _
  cases pc with
  | storeOdd locals sequence => exact ⟨⟨0, rfl, rfl⟩, fun _ => hodd _ hpc.1, rfl, rfl⟩
  | storeCounter locals sequence =>
    refine ⟨⟨0, rfl, rfl⟩, fun _ => ?_, rfl, rfl⟩
    show m.sequence ≠ _
    exact hpc.2 ▸ hodd _ hpc.1
  | storeNanos locals sequence =>
    refine ⟨⟨0, rfl, rfl⟩, fun _ => ?_, rfl, rfl⟩
    show m.sequence ≠ _
    exact hpc.1.2 ▸ hodd _ hpc.1.1
  | storeEven locals sequence =>
    exact ⟨⟨1, rfl, rfl⟩, fun h => absurd h (Nat.succ_ne_zero _), rfl, rfl⟩
  | _ =>
    rcases hstores with ⟨locals, sequence, h⟩ | h
    · exact absurd h nofun
    · exact absurd h Bool.false_ne_true

/-! ### The invariant -/

structure Inv (w : World τ) : Prop where
  sound : Sound w.memory
  holds : ∀ t, Holds w.memory t (w.threads t)
  /-- At most one thread is in `resync`, -/
  alone : ∀ t u, (w.threads t).resyncing = true → (w.threads u).resyncing = true → t = u
  /-- and the flag is set as long as one is. -/
  held : ∀ t, (w.threads t).resyncing = true → w.memory.resyncing = true
  settled : (∀ t, (w.threads t).writing = false) → Settled w.memory

theorem inv_construct (before nanos after : UInt64) :
    Inv (construct before nanos after : World τ) where
  sound := by
    refine ⟨Or.inl rfl, fun _ => List.mem_cons_self, fun v hv => ?_, trivial, trivial⟩
    exact absurd hv List.not_mem_nil
  holds _ := trivial
  alone _ _ h := absurd h Bool.false_ne_true
  held _ h := absurd h Bool.false_ne_true
  settled _ := rfl

theorem clamp_resyncing (nanos previous : UInt64) : (clamp nanos previous).resyncing = false := by
  rw [clamp]
  split <;> rfl

omit [DecidableEq τ] in
/-- How a step enters `resync`, stays there, leaves it, or stays away from it. -/
theorem act_resyncing (clock : Clock) (t : τ) (value : UInt64) (spurious : Bool) (m : Memory τ)
    (pc : Pc) : let r := act clock t value spurious m pc
    (pc.resyncing = false ∧ m.resyncing = false ∧ r.2.resyncing = true ∧ r.1.resyncing = true) ∨
      (pc.resyncing = true ∧ r.2.resyncing = true ∧ r.1.resyncing = m.resyncing) ∨
      (pc.resyncing = true ∧ r.2.resyncing = false) ∨
      (pc.resyncing = false ∧ r.2.resyncing = false ∧ r.1.resyncing = m.resyncing) := by
  cases pc with
  | testAndSet counter nanos =>
    cases hflag : m.resyncing with
    | true => simp [act, hflag, Pc.resyncing]
    | false => simp [act, hflag, Pc.resyncing]
  | baseNanos counter sequence baseCounter =>
    refine Or.inr (Or.inr (Or.inr ⟨rfl, ?_⟩))
    rw [act]
    split <;> exact ⟨rfl, rfl⟩
  | check counter sequence baseCounter baseNanos =>
    refine Or.inr (Or.inr (Or.inr ⟨rfl, ?_⟩))
    rw [act]
    split
    · exact ⟨rfl, rfl⟩
    dsimp only
    split <;> exact ⟨rfl, rfl⟩
  | last nanos => exact Or.inr (Or.inr (Or.inr ⟨rfl, clamp_resyncing nanos m.last, rfl⟩))
  | exchange nanos previous =>
    refine Or.inr (Or.inr (Or.inr ⟨rfl, ?_⟩))
    rw [act]
    split
    · exact ⟨rfl, rfl⟩
    · exact ⟨clamp_resyncing nanos m.last, rfl⟩
  | slowNanos counterBefore => exact Or.inr (Or.inl ⟨rfl, rfl, rfl⟩)
  | counterAfter counterBefore real => exact Or.inr (Or.inl ⟨rfl, rfl, rfl⟩)
  | load locals => exact Or.inr (Or.inl ⟨rfl, rfl, rfl⟩)
  | storeOdd locals sequence => exact Or.inr (Or.inl ⟨rfl, rfl, rfl⟩)
  | storeCounter locals sequence => exact Or.inr (Or.inl ⟨rfl, rfl, rfl⟩)
  | storeNanos locals sequence => exact Or.inr (Or.inl ⟨rfl, rfl, rfl⟩)
  | storeEven locals sequence => exact Or.inr (Or.inl ⟨rfl, rfl, rfl⟩)
  | fetchAdd locals => exact Or.inr (Or.inl ⟨rfl, rfl, rfl⟩)
  | clear nanos => exact Or.inr (Or.inr (Or.inl ⟨rfl, rfl⟩))
  | idle => exact Or.inr (Or.inr (Or.inr ⟨rfl, rfl, rfl⟩))
  | counter => exact Or.inr (Or.inr (Or.inr ⟨rfl, rfl, rfl⟩))
  | sequence counter => exact Or.inr (Or.inr (Or.inr ⟨rfl, rfl, rfl⟩))
  | baseCounter counter sequence => exact Or.inr (Or.inr (Or.inr ⟨rfl, rfl, rfl⟩))
  | done value => exact Or.inr (Or.inr (Or.inr ⟨rfl, rfl, rfl⟩))

/-- Where no thread is left between its stores, the sequence is even. -/
theorem act_settled (hpc : Holds m t pc) (hsettled : pc.writing = false → Settled m)
    (hleft : (act clock t value spurious m pc).2.writing = false) :
    Settled (act clock t value spurious m pc).1 := by
  cases pc with
  | storeOdd locals sequence => exact absurd hleft Bool.false_ne_true.symm
  | storeCounter locals sequence => exact absurd hleft Bool.false_ne_true.symm
  | storeNanos locals sequence => exact absurd hleft Bool.false_ne_true.symm
  | storeEven locals sequence =>
    show sequence + 2 = UInt64.ofNat (2 * (published m.log + 1))
    rw [hpc.1.1, even_add_two]
  | baseNanos counter sequence baseCounter =>
    rw [act]
    split <;> exact hsettled rfl
  | check counter sequence baseCounter baseNanos =>
    rw [act]
    split <;> exact hsettled rfl
  | testAndSet counter nanos =>
    rw [act]
    split <;> exact hsettled rfl
  | exchange nanos previous =>
    rw [act]
    split <;> exact hsettled rfl
  | idle => exact hsettled rfl
  | counter => exact hsettled rfl
  | sequence counter => exact hsettled rfl
  | baseCounter counter sequence => exact hsettled rfl
  | slowNanos counterBefore => exact hsettled rfl
  | counterAfter counterBefore real => exact hsettled rfl
  | load locals => exact hsettled rfl
  | fetchAdd locals => exact hsettled rfl
  | clear nanos => exact hsettled rfl
  | last nanos => exact hsettled rfl
  | done value => exact hsettled rfl

/-- What another thread knows is still true. -/
theorem act_other (hne : u ≠ t) (hpc : Holds m t pc) (hother : Holds m u pc')
    (halone : pc.resyncing = true → pc'.resyncing = false) :
    Holds (act clock t value spurious m pc).1 u pc' := by
  by_cases hstores : (∃ locals sequence, pc = .storeOdd locals sequence) ∨ pc.writing = true
  · have hresyncing : pc.resyncing = true := by
      rcases hstores with ⟨locals, sequence, rfl⟩ | hwriting
      · rfl
      · exact Pc.resyncing_of_writing hwriting
    exact (act_stored hpc hstores).holds hother (halone hresyncing)
  · have hnot := not_or.mp hstores
    refine (act_quiet hne hpc ?_ (Bool.not_eq_true _ ▸ hnot.2)).holds hother
    rintro locals sequence rfl
    exact hnot.1 ⟨locals, sequence, rfl⟩

theorem step_inv {w : World τ} (hw : Inv w) (c : Choice τ) : Inv (step clock w c) := by
  have hpc := hw.holds c.thread
  have hresync := act_resyncing clock c.thread c.value c.spurious w.memory (w.threads c.thread)
  have hothers : ∀ u, (w.threads c.thread).resyncing = true → u ≠ c.thread →
      (w.threads u).resyncing = false := by
    intro u hin hne
    rw [← Bool.not_eq_true]
    exact fun hu => hne (hw.alone u c.thread hu hin)
  -- a thread in `resync` that is not at its stores is alone there, so that nobody is
  have hsettled : ((w.threads c.thread).resyncing = true → (w.threads c.thread).writing = false →
      Settled w.memory) := by
    intro hin hnot
    refine hw.settled fun u => ?_
    rcases eq_or_ne u c.thread with rfl | hne
    · exact hnot
    · rw [← Bool.not_eq_true]
      exact fun hwriting => absurd (Pc.resyncing_of_writing hwriting)
        (by rw [hothers u hin hne]; exact Bool.false_ne_true)
  rw [step]
  dsimp only at hresync ⊢
  generalize hact : act clock c.thread c.value c.spurious w.memory (w.threads c.thread) = r
    at hresync
  refine ⟨hact ▸ act_sound hw.sound hpc, ?_, ?_, ?_, ?_⟩
  · rw [Function.forall_update_iff w.threads fun u pc => Holds r.1 u pc]
    refine ⟨hact ▸ act_holds hw.sound hpc hsettled, fun u hne => ?_⟩
    exact hact ▸ act_other hne hpc (hw.holds u) fun hin => hothers u hin hne
  · have hentered : r.2.resyncing = true → ∀ u, u ≠ c.thread →
        (w.threads u).resyncing = false := by
      intro hin u hne
      rcases hresync with ⟨_, hflag, _⟩ | ⟨hpcin, _⟩ | ⟨_, hout⟩ | ⟨_, hout, _⟩
      · rw [← Bool.not_eq_true]
        exact fun hu => Bool.false_ne_true (hflag.symm.trans (hw.held u hu))
      · exact hothers u hpcin hne
      · exact absurd (hout.symm.trans hin) Bool.false_ne_true
      · exact absurd (hout.symm.trans hin) Bool.false_ne_true
    intro a b ha hb
    dsimp only at ha hb
    rcases eq_or_ne a c.thread with rfl | hane
    · rw [Function.update_self] at ha
      by_contra hne
      rw [Function.update_of_ne (Ne.symm hne), hentered ha b (Ne.symm hne)] at hb
      exact Bool.false_ne_true hb
    rw [Function.update_of_ne hane] at ha
    rcases eq_or_ne b c.thread with rfl | hbne
    · rw [Function.update_self] at hb
      rw [hentered hb a hane] at ha
      exact absurd ha Bool.false_ne_true
    · rw [Function.update_of_ne hbne] at hb
      exact hw.alone a b ha hb
  · rw [Function.forall_update_iff w.threads fun u pc => pc.resyncing = true → r.1.resyncing = true]
    refine ⟨fun hin => ?_, fun u hne hu => ?_⟩
    · rcases hresync with ⟨_, _, _, hflag⟩ | ⟨hpcin, _, hflag⟩ | ⟨_, hout⟩ | ⟨_, hout, _⟩
      · exact hflag
      · exact hflag.trans (hw.held c.thread hpcin)
      · exact absurd (hout.symm.trans hin) Bool.false_ne_true
      · exact absurd (hout.symm.trans hin) Bool.false_ne_true
    · have hout : (w.threads c.thread).resyncing = false := by
        rw [← Bool.not_eq_true]
        exact fun hin => Bool.false_ne_true ((hothers u hin hne).symm.trans hu)
      rcases hresync with ⟨_, hflag, _⟩ | ⟨hpcin, _⟩ | ⟨hpcin, _⟩ | ⟨_, _, hflag⟩
      · exact absurd (hflag.symm.trans (hw.held u hu)) Bool.false_ne_true
      · exact absurd (hout.symm.trans hpcin) Bool.false_ne_true
      · exact absurd (hout.symm.trans hpcin) Bool.false_ne_true
      · exact hflag.trans (hw.held u hu)
  · rw [Function.forall_update_iff w.threads fun _ pc => pc.writing = false]
    rintro ⟨hleft, hrest⟩
    refine hact ▸ act_settled hpc (fun hnot => hw.settled fun u => ?_) (hact ▸ hleft)
    rcases eq_or_ne u c.thread with rfl | hne
    · exact hnot
    · exact hrest u hne

theorem run_inv {w : World τ} (hw : Inv w) (choices : List (Choice τ)) :
    Inv (run clock w choices) := by
  induction choices generalizing w with
  | nil => exact hw
  | cons c choices ih => exact ih (step_inv hw c)

/-- Any callers in any order: a call returns no less than what was returned before it was made, a
reader that no `2 ^ 63` resyncs overtake computes from two bases that were stored together, and no
two calls are in `resync`. -/
theorem clock_protocol (clock : Clock) (before nanos after : UInt64) (choices : List (Choice τ)) :
    History.Ok Event.Safe (run clock (construct before nanos after) choices).memory.log ∧
      ∀ t u, ((run clock (construct before nanos after) choices).threads t).resyncing = true →
        ((run clock (construct before nanos after) choices).threads u).resyncing = true → t = u :=
  have hinv := run_inv (inv_construct before nanos after) choices
  ⟨hinv.sound.safe, hinv.alone⟩

/-! ### A reader that is overtaken -/

/-- One thread takes some steps. -/
def solo (clock : Clock) (t : τ) (s : Memory τ × Pc) (values : List UInt64) : Memory τ × Pc :=
  values.foldl (fun s value => act clock t value false s.1 s.2) s

theorem run_solo (w : World τ) (t : τ) (values : List UInt64) :
    run clock w (values.map (⟨t, ·, false⟩)) =
      ⟨(solo clock t (w.memory, w.threads t) values).1,
        Function.update w.threads t (solo clock t (w.memory, w.threads t) values).2⟩ := by
  induction values generalizing w with
  | nil => exact congrArg (World.mk w.memory) (Function.update_eq_self t w.threads).symm
  | cons value values ih =>
    show run clock (step clock w ⟨t, value, false⟩) _ = _
    rw [ih, step]
    dsimp only
    rw [Function.update_self, Function.update_idem]
    rfl

theorem run_append (w : World τ) (choices more : List (Choice τ)) :
    run clock w (choices ++ more) = run clock (run clock w choices) more := List.foldl_append

/-- Nanoseconds are counted, and every tick asks for a resync. -/
def eager : Clock := Clock.make ⟨1000000000, by decide⟩ 1

/-- The memory after `n` resyncs, one each tick. -/
def lap (n : ℕ) (resyncs : UInt64) (log : List (Event Bool)) : Memory Bool where
  sequence := UInt64.ofNat (2 * n)
  baseCounter := UInt64.ofNat n
  baseNanos := UInt64.ofNat n
  last := UInt64.ofNat n
  resyncs := resyncs
  resyncing := false
  counter := UInt64.ofNat n
  log := log

/-- A call that finds its anchor too old: up to `test_and_set`, -/
theorem solo_read {n : ℕ} {v : UInt64} (resyncs : UInt64) (log : List (Event Bool))
    (hlt : UInt64.ofNat n < v) (helapsed : Clock.elapsed v (UInt64.ofNat n) = 1) :
    solo eager false (lap n resyncs log, .idle) (.replicate 6 v) =
      ({ lap n resyncs log with
          counter := v
          log := .computed false (.ofNat n) (.ofNat n) :: .loaded false :: .called false :: log },
        .testAndSet v (UInt64.ofNat n + eager.scale 1)) := by
  have hmax : max (UInt64.ofNat n) v = v := if_pos (UInt64.le_of_lt hlt)
  have hticks : eager.resyncTicks = 1 := by decide
  simp only [solo, List.replicate, List.foldl_cons, List.foldl_nil, act, lap, Memory.note,
    Memory.tick, hmax, if_neg (even_and_one n), helapsed, hticks, ne_eq, not_true_eq_false,
    if_false, ge_iff_le, UInt64.le_refl, if_true]

/-- in `resync`, -/
theorem solo_resync (n : ℕ) (v nanos resyncs : UInt64) (log : List (Event Bool)) :
    solo eager false ({ lap n resyncs log with counter := v }, .testAndSet v nanos)
        (.replicate 9 v) =
      ({ sequence := .ofNat (2 * (n + 1))
         baseCounter := v
         baseNanos := v
         last := .ofNat n
         resyncs := resyncs + 1
         resyncing := true
         counter := v
         log := .computed false v v :: .published v v :: log }, .clear v) := by
  have hself : max v v = v := if_pos (UInt64.le_refl v)
  have hnone : Clock.elapsed v v = 0 := if_neg (UInt64.lt_irrefl v)
  have hscale : eager.scale 0 = 0 := by decide
  simp only [solo, List.replicate, List.foldl_cons, List.foldl_nil, act, lap, Memory.note,
    Memory.tick, hself, UInt64.sub_self, hnone, hscale, UInt64.zero_div, UInt64.add_zero,
    even_add_two, if_false, Bool.false_eq_true]

/-- and from `clear` on. -/
theorem solo_clamp {m : Memory Bool} {v : UInt64} (hlt : m.last < v) :
    solo eager false (m, .clear v) (.replicate 4 v) =
      ({ m with last := v, resyncing := false, log := .returned false v :: m.log }, .idle) := by
  simp only [solo, List.replicate, List.foldl_cons, List.foldl_nil, act, Memory.note, clamp,
    gt_iff_lt, if_pos hlt, if_true, and_self]

omit [DecidableEq τ] in
theorem solo_append (t : τ) (s : Memory τ × Pc) (values more : List UInt64) :
    solo clock t s (values ++ more) = solo clock t (solo clock t s values) more :=
  List.foldl_append

/-- A call one tick after the last resync makes the next one. -/
theorem solo_lap {n : ℕ} (h : n < 2 ^ 63) (resyncs : UInt64) (log : List (Event Bool)) :
    ∃ log', solo eager false (lap n resyncs log, .idle) (.replicate 19 (UInt64.ofNat (n + 1))) =
        (lap (n + 1) (resyncs + 1) log', .idle) ∧
      anchors log' = (UInt64.ofNat (n + 1), UInt64.ofNat (n + 1)) :: anchors log := by
  have hlt : UInt64.ofNat n < UInt64.ofNat (n + 1) := by
    rw [UInt64.lt_iff_toNat_lt, UInt64.toNat_ofNat', UInt64.toNat_ofNat']
    omega
  have helapsed : Clock.elapsed (UInt64.ofNat (n + 1)) (UInt64.ofNat n) = 1 := by
    rw [Clock.elapsed, if_pos hlt, UInt64.ofNat_add, UInt64.add_comm, UInt64.add_sub_cancel]
    rfl
  have hsteps (v : UInt64) :
      List.replicate 19 v = (.replicate 6 v ++ .replicate 9 v) ++ .replicate 4 v := rfl
  rw [hsteps, solo_append, solo_append, solo_read resyncs log hlt helapsed]
  have hresync := solo_resync n (UInt64.ofNat (n + 1)) (UInt64.ofNat n + eager.scale 1) resyncs
    (.computed false (.ofNat n) (.ofNat n) :: .loaded false :: .called false :: log)
  simp only [lap] at hresync ⊢
  rw [hresync, solo_clamp hlt]
  exact ⟨_, rfl, rfl⟩

/-- A reader which has loaded the sequence and the first base waits while the other thread makes
any number of resyncs. -/
theorem exists_laps (n : ℕ) (hn : n ≤ 2 ^ 63) :
    ∃ choices resyncs log, run eager (construct 0 0 0) choices =
        ⟨lap n resyncs log, fun t => if t then .baseNanos 0 0 0 else .idle⟩ ∧
      ∀ p ∈ anchors log, p.1 = p.2 := by
  induction n with
  | zero =>
    refine ⟨(List.replicate 4 0).map (⟨true, ·, false⟩), 0,
      [.loaded true, .called true, .constructed 0 0], ?_, ?_⟩
    · have hread : solo eager true ((construct 0 0 0 : World Bool).memory, .idle) (.replicate 4 0) =
          (lap 0 0 [.loaded true, .called true, .constructed 0 0], .baseNanos 0 0 0) := rfl
      rw [run_solo]
      show World.mk (solo eager true ((construct 0 0 0 : World Bool).memory, .idle) _).1 _ = _
      rw [hread]
      congr 1
      funext t
      cases t <;> rfl
    · intro p hp
      obtain rfl := List.mem_singleton.mp hp
      rfl
  | succ n ih =>
    obtain ⟨choices, resyncs, log, hrun, hsame⟩ := ih (by omega)
    obtain ⟨log', hlap, hanchors⟩ := solo_lap (n := n) (by omega) resyncs log
    refine ⟨choices ++ (List.replicate 19 (UInt64.ofNat (n + 1))).map (⟨false, ·, false⟩),
      resyncs + 1, log', ?_, ?_⟩
    · rw [run_append, hrun, run_solo]
      dsimp only
      rw [if_neg Bool.false_ne_true, hlap]
      congr 1
      funext t
      cases t <;> rfl
    · rw [hanchors]
      exact List.forall_mem_cons.mpr ⟨rfl, hsame⟩

/-- After `2 ^ 63` resyncs the sequence is zero again, and the reader takes the second base for one
that was stored with the first. -/
theorem overtaken_reader :
    ¬ ∀ (choices : List (Choice Bool)) (later past : List (Event Bool)) (t : Bool)
      (baseCounter baseNanos : UInt64),
      (run eager (construct 0 0 0) choices).memory.log =
        later ++ .computed t baseCounter baseNanos :: past →
          (baseCounter, baseNanos) ∈ anchors past := by
  intro h
  obtain ⟨choices, resyncs, log, hrun, hsame⟩ := exists_laps (2 ^ 63) (Nat.le_refl _)
  have hzero : UInt64.ofNat (2 * 2 ^ 63) = 0 := by decide
  have hread : (solo eager true (lap (2 ^ 63) resyncs log, .baseNanos 0 0 0) [0, 0]).1.log =
      [] ++ .computed true 0 (UInt64.ofNat (2 ^ 63)) :: log := by
    have heven : ¬ (0 : UInt64) &&& 1 = 1 := by decide
    simp only [solo, List.foldl_cons, List.foldl_nil, act, lap, hzero, if_neg heven, ne_eq,
      not_true_eq_false, if_false, Memory.note, List.nil_append]
  have hmem := h (choices ++ [0, 0].map (⟨true, ·, false⟩)) [] log true 0 (UInt64.ofNat (2 ^ 63)) (by
    rw [run_append, hrun, run_solo]
    exact hread)
  exact absurd (hsame _ hmem) (by decide)

end Runtime.FastMonotonicClock
