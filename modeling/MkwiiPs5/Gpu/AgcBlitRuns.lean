import MkwiiPs5.Gpu.AgcBlit

/-!
# The arena protocol

What the histories of a blitter have in common, whenever the labels land: nothing that a blit still
uses is written or released.
-/

namespace Gpu.AgcBlit

/-! ### Histories -/

/-- A failure after which a blitter refuses everything. -/
def Failure.latched : Failure → Bool
  | .timeout => true
  | .submission => true
  | _ => false

/-- A failure of a wait or of a submission. -/
def Failure.ofWaitOrSubmission : Failure → Bool
  | .waitSlice => true
  | failure => failure.latched

/-- Some failure of the given kind happened. -/
def Broken (kind : Failure → Bool) (past : List Event) : Prop :=
  ∃ failure, Event.threw failure ∈ past ∧ kind failure = true

/-- No blit that is not complete uses the arena. -/
def Vacant (a : ℕ) (past : List Event) : Prop := ∀ s ∈ pending past, s.arena ≠ a

/-- What may be done, where a failure of the given kind is final. -/
def Event.Safe (kind : Failure → Bool) : Event → List Event → Prop
  | .rewrite a, past => Vacant a past ∧ ¬ Broken kind past
  | .submit s, past => Vacant s.arena past
  | .release a, past => Vacant a past
  | .fill image _, past => ∀ s ∈ pending past, s.source ≠ some (.fill image)
  | .finished, past => pending past = []
  | .destroyed, past => pending past = []
  | _, _ => True

theorem broken_cons {kind : Failure → Bool} {e : Event} {past : List Event} :
    Broken kind (e :: past) ↔
      (∃ failure, e = .threw failure ∧ kind failure = true) ∨ Broken kind past := by
  constructor
  · rintro ⟨failure, hmem, hkind⟩
    rcases List.mem_cons.mp hmem with rfl | hmem
    · exact Or.inl ⟨failure, rfl, hkind⟩
    · exact Or.inr ⟨failure, hmem, hkind⟩
  · rintro (⟨failure, rfl, hkind⟩ | ⟨failure, hmem, hkind⟩)
    · exact ⟨failure, List.mem_cons_self, hkind⟩
    · exact ⟨failure, List.mem_cons_of_mem _ hmem, hkind⟩

/-! ### The invariant -/

variable {env : Environment} {w w' : World}

/-- The arena of a blit that is not complete, with its owners. -/
structure Holds (w : World) (s : Submission) : Prop where
  range : s.arena < InFlight
  memory : (w.arenas s.arena).memory = true
  submitted : (w.arenas s.arena).submitted = true
  serial : (w.arenas s.arena).serial = s.serial
  source : (w.arenas s.arena).source = s.source
  target : (w.arenas s.arena).target = s.target
  depthTarget : (w.arenas s.arena).depthTarget = s.depthTarget
  depthSource : (w.arenas s.arena).depthSource = s.depthSource
  label : w.label s.arena ≠ s.serial

theorem Holds.congr {s : Submission} (h : Holds w s)
    (harena : w'.arenas s.arena = w.arenas s.arena)
    (hlabel : w'.label s.arena = w.label s.arena) : Holds w' s where
  range := h.range
  memory := harena ▸ h.memory
  submitted := harena ▸ h.submitted
  serial := harena ▸ h.serial
  source := harena ▸ h.source
  target := harena ▸ h.target
  depthTarget := harena ▸ h.depthTarget
  depthSource := harena ▸ h.depthSource
  label := hlabel ▸ h.label

structure Inv (w : World) : Prop where
  safe : History.Ok (Event.Safe Failure.latched) w.log
  held : ∀ s ∈ pending w.log, Holds w s
  fills : ∀ s ∈ pending w.log, ∀ image, s.source = some (.fill image) → image < w.fills
  constant : ∀ c, w.constant = some c → c < w.fills
  unbroken : w.failed = false → ¬ Broken Failure.latched w.log

/-- An event that completes and submits nothing. -/
theorem Inv.note {e : Event} (h : Inv w) (hsafe : e.Safe Failure.latched w.log)
    (hpending : pending (e :: w.log) = pending w.log)
    (hthrew : ∀ failure, e = .threw failure → failure.latched = true → w.failed = true) :
    Inv (w.note e) where
  safe := ⟨hsafe, h.safe⟩
  held s hs := (h.held s (hpending ▸ hs)).congr rfl rfl
  fills s hs := h.fills s (hpending ▸ hs)
  constant := h.constant
  unbroken hfailed hbroken := by
    rcases broken_cons.mp hbroken with ⟨failure, rfl, hlatched⟩ | hbroken
    · exact absurd (hfailed.symm.trans (hthrew failure rfl hlatched)) nofun
    · exact h.unbroken hfailed hbroken

theorem Inv.tick (h : Inv w) : Inv w.tick :=
  ⟨h.safe, fun s hs => (h.held s hs).congr rfl rfl, h.fills, h.constant, h.unbroken⟩

theorem Inv.fail (h : Inv w) : Inv w.fail :=
  ⟨h.safe, fun s hs => (h.held s hs).congr rfl rfl, h.fills, h.constant, nofun⟩

theorem Inv.throw (h : Inv w) {β : Type} {failure : Failure} {Q : β → World → Prop}
    (hlatched : failure.latched = true → w.failed = true) :
    (w.throw failure : Result β).Post Q Inv := by
  refine Attempt.post_error (h.note trivial rfl ?_)
  rintro _ ⟨⟩ hlatch
  exact hlatched hlatch

/-! ### Labels that land -/

/-- What labels that land do not change. -/
structure SameArenas (w w' : World) : Prop where
  arenas : w'.arenas = w.arenas
  failed : w'.failed = w.failed
  fills : w'.fills = w.fills
  pending : ∀ s ∈ pending w'.log, s ∈ pending w.log

theorem SameArenas.refl (w : World) : SameArenas w w := ⟨rfl, rfl, rfl, fun _ hs => hs⟩

theorem SameArenas.trans {w₁ w₂ w₃ : World} (h : SameArenas w₁ w₂) (h' : SameArenas w₂ w₃) :
    SameArenas w₁ w₃ :=
  ⟨h'.arenas.trans h.arenas, h'.failed.trans h.failed, h'.fills.trans h.fills,
    fun s hs => h.pending s (h'.pending s hs)⟩

theorem Inv.land (h : Inv w) (serial : ℕ) : Inv (w.land serial) := by
  rw [World.land]
  split
  · constructor
    · exact ⟨trivial, h.safe⟩
    · intro s hs
      obtain ⟨hs, hne⟩ := List.mem_filter.mp hs
      have hheld := h.held s hs
      refine ⟨hheld.range, hheld.memory, hheld.submitted, hheld.serial, hheld.source, hheld.target,
        hheld.depthTarget, hheld.depthSource, ?_⟩
      dsimp only
      split
      · exact fun heq => of_decide_eq_true hne heq.symm
      · exact hheld.label
    · exact fun s hs => h.fills s (List.mem_filter.mp hs).1
    · exact h.constant
    · intro hfailed hbroken
      rcases broken_cons.mp hbroken with ⟨failure, hthrew, _⟩ | hbroken
      · exact absurd hthrew nofun
      · exact h.unbroken hfailed hbroken
  · exact h

theorem sameArenas_land (w : World) (serial : ℕ) : SameArenas w (w.land serial) := by
  rw [World.land]
  split
  · exact ⟨rfl, rfl, rfl, fun s hs => (List.mem_filter.mp hs).1⟩
  · exact .refl w

theorem pass_spec (env : Environment) (h : Inv w) : Inv (pass env w) ∧ SameArenas w (pass env w) := by
  rw [pass]
  generalize env.lands w.clock = serials
  have hfold : Inv (serials.foldl World.land w) ∧ SameArenas w (serials.foldl World.land w) := by
    induction serials generalizing w with
    | nil => exact ⟨h, .refl w⟩
    | cons serial serials ih =>
      obtain ⟨hinv, hsame⟩ := ih (h.land serial)
      exact ⟨hinv, (sameArenas_land w serial).trans hsame⟩
  exact ⟨hfold.1.tick, hfold.2.arenas, hfold.2.failed, hfold.2.fills, hfold.2.pending⟩

/-- The label of an arena says that nothing uses it any more. -/
theorem Inv.vacant_of_landed (h : Inv w) {a : ℕ} (hlanded : w.landed a = true) : Vacant a w.log := by
  rintro s hs rfl
  have hheld := h.held s hs
  exact hheld.label ((of_decide_eq_true hlanded).trans hheld.serial)

theorem Inv.vacant_of_not_submitted (h : Inv w) {a : ℕ} (hfree : (w.arenas a).submitted = false) :
    Vacant a w.log := by
  rintro s hs rfl
  rw [(h.held s hs).submitted] at hfree
  exact absurd hfree nofun

/-! ### Releasing -/

theorem Inv.release (h : Inv w) {a : ℕ} (hlanded : w.landed a = true) : Inv (w.release a) := by
  have hvacant := h.vacant_of_landed hlanded
  refine ⟨⟨hvacant, h.safe⟩, ?_, h.fills, h.constant, ?_⟩
  · intro s hs
    exact (h.held s hs).congr (Function.update_of_ne (hvacant s hs) _ _) rfl
  · intro hfailed hbroken
    rcases broken_cons.mp hbroken with ⟨failure, hthrew, _⟩ | hbroken
    · exact absurd hthrew nofun
    · exact h.unbroken hfailed hbroken

/-- What the release of completed blits does not change. -/
structure Keeps (w w' : World) : Prop where
  failed : w'.failed = w.failed
  fills : w'.fills = w.fills

theorem Keeps.refl (w : World) : Keeps w w := ⟨rfl, rfl⟩

theorem Keeps.trans {w₁ w₂ w₃ : World} (h : Keeps w₁ w₂) (h' : Keeps w₂ w₃) : Keeps w₁ w₃ :=
  ⟨h'.failed.trans h.failed, h'.fills.trans h.fills⟩

theorem SameArenas.keeps (h : SameArenas w w') : Keeps w w' := ⟨h.failed, h.fills⟩

theorem retireArena_spec (env : Environment) (h : Inv w) (a : ℕ) :
    Inv (retireArena env w a) ∧ Keeps w (retireArena env w a) := by
  rw [retireArena]
  split
  · obtain ⟨hpass, hsame⟩ := pass_spec env h
    dsimp only
    split
    · next hlanded => exact ⟨hpass.release hlanded, hsame.failed, hsame.fills⟩
    · exact ⟨hpass, hsame.keeps⟩
  · exact ⟨h, .refl w⟩

theorem retire_spec (env : Environment) (h : Inv w) : Inv (retire env w) ∧ Keeps w (retire env w) := by
  rw [retire]
  generalize List.range InFlight = arenas
  induction arenas generalizing w with
  | nil => exact ⟨h, .refl w⟩
  | cons a arenas ih =>
    obtain ⟨hinv, hkeeps⟩ := retireArena_spec env h a
    obtain ⟨hrest, hkeeps'⟩ := ih hinv
    exact ⟨hrest, hkeeps.trans hkeeps'⟩

/-! ### Waiting -/

/-- What a wait for an arena leaves where it returns. -/
structure Waited (w : World) (a : ℕ) (w' : World) : Prop where
  inv : Inv w'
  keeps : Keeps w w'
  arenas : w'.arenas = Function.update w.arenas a (w.arenas a).released

theorem waitAttempts_post (a attempts : ℕ) (h : Inv w) :
    (waitAttempts env a attempts w).Post (fun _ w' => Waited w a w') Inv := by
  induction attempts generalizing w with
  | zero => exact h.fail.throw fun _ => rfl
  | succ attempts ih =>
    rw [waitAttempts]
    obtain ⟨hpass, hsame⟩ := pass_spec env h
    split
    · next hlanded =>
      refine ⟨hpass.release hlanded, ⟨hsame.failed, hsame.fills⟩, ?_⟩
      rw [World.release, World.setArena, hsame.arenas]
      rfl
    · split
      · refine (ih hpass.tick).mono fun _ w' hwaited => ?_
        refine ⟨hwaited.inv, hsame.keeps.trans ⟨hwaited.keeps.failed, hwaited.keeps.fills⟩, ?_⟩
        rw [hwaited.arenas, World.tick, hsame.arenas]
      · exact hpass.tick.throw nofun

theorem wait_post (a : ℕ) (h : Inv w) :
    (wait env w a).Post (fun _ w' => Waited w a w') Inv := waitAttempts_post a 5000 h

theorem Waited.vacant {a : ℕ} (h : Waited w a w') : Vacant a w'.log := by
  apply h.inv.vacant_of_not_submitted
  rw [h.arenas, Function.update_self]
  rfl

/-- The arena that is found is one of those looked at; if none is, there is none. -/
theorem oldest_fold {serials : ℕ → ℕ} {candidate : ℕ → Bool} (l : List ℕ) (start : Option ℕ) :
    let result := l.foldl (fun oldest a =>
      if candidate a ∧ oldest.all fun o => serials a < serials o then some a else oldest) start
    (∀ a, result = some a → start = some a ∨ a ∈ l ∧ candidate a = true) ∧
    (result = none → start = none ∧ ∀ a ∈ l, candidate a = false) := by
  induction l generalizing start with
  | nil => exact ⟨fun a ha => Or.inl ha, fun hnone => ⟨hnone, nofun⟩⟩
  | cons b l ih =>
    intro result
    have hrest := ih (if candidate b ∧ start.all fun o => serials b < serials o then some b else start)
    constructor
    · intro a ha
      rcases hrest.1 a ha with hstart | ⟨hmem, hcandidate⟩
      · split at hstart
        · next hb =>
          obtain rfl := Option.some.inj hstart
          exact Or.inr ⟨List.mem_cons_self, hb.1⟩
        · exact Or.inl hstart
      · exact Or.inr ⟨List.mem_cons_of_mem _ hmem, hcandidate⟩
    · intro hnone
      obtain ⟨hstart, hall⟩ := hrest.2 hnone
      split at hstart
      · exact absurd hstart nofun
      · next hb =>
        refine ⟨hstart, ?_⟩
        intro a ha
        rcases List.mem_cons.mp ha with rfl | ha
        · rw [hstart] at hb
          exact Bool.not_eq_true _ ▸ fun hcandidate => hb ⟨hcandidate, rfl⟩
        · exact hall a ha

theorem oldest_eq_some {candidate : ℕ → Bool} {a : ℕ} (h : w.oldest candidate = some a) :
    a < InFlight ∧ candidate a = true := by
  rcases (oldest_fold (List.range InFlight) none).1 a h with hnone | ⟨hmem, hcandidate⟩
  · exact absurd hnone nofun
  · exact ⟨List.mem_range.mp hmem, hcandidate⟩

theorem oldest_eq_none {candidate : ℕ → Bool} (h : w.oldest candidate = none) :
    ∀ a < InFlight, candidate a = false := fun a ha =>
  ((oldest_fold (List.range InFlight) none).2 h).2 a (List.mem_range.mpr ha)

/-- Where no arena has a blit, every blit is complete. -/
theorem Inv.pending_eq_nil (h : Inv w) (hfree : ∀ a < InFlight, (w.arenas a).submitted = false) :
    pending w.log = [] := by
  refine List.eq_nil_iff_forall_not_mem.mpr fun s hs => ?_
  have hheld := h.held s hs
  exact absurd ((hfree s.arena hheld.range).symm.trans hheld.submitted) nofun

theorem Waited.card {a : ℕ} (h : Waited w a w') (ha : a < InFlight)
    (hsubmitted : (w.arenas a).submitted = true) :
    w'.submittedArenas.card < w.submittedArenas.card := by
  refine Finset.card_lt_card (Finset.ssubset_iff_of_subset ?_ |>.mpr ⟨a, ?_, ?_⟩)
  · intro b hb
    obtain ⟨hrange, hb⟩ := Finset.mem_filter.mp hb
    rw [h.arenas, Function.update_apply] at hb
    split at hb
    · exact absurd hb nofun
    · exact Finset.mem_filter.mpr ⟨hrange, hb⟩
  · exact Finset.mem_filter.mpr ⟨Finset.mem_range.mpr ha, hsubmitted⟩
  · intro hmem
    have hb := (Finset.mem_filter.mp hmem).2
    rw [h.arenas, Function.update_self] at hb
    exact absurd hb nofun

theorem Inv.finished (h : Inv w) (hfree : ∀ a < InFlight, (w.arenas a).submitted = false) :
    Inv (w.note .finished) ∧ pending (w.note .finished).log = [] :=
  ⟨h.note (h.pending_eq_nil hfree) rfl nofun, h.pending_eq_nil hfree⟩

theorem finishLoop_post (n : ℕ) (h : Inv w) (hn : w.submittedArenas.card ≤ n) :
    (finishLoop env n w).Post (fun _ w' => Inv w' ∧ pending w'.log = []) Inv := by
  induction n generalizing w with
  | zero =>
    refine Attempt.post_ok (h.finished fun a ha => ?_)
    have hempty := Finset.card_eq_zero.mp (Nat.le_zero.mp hn)
    refine Bool.not_eq_true _ ▸ fun hsubmitted => ?_
    exact Finset.eq_empty_iff_forall_notMem.mp hempty a
      (Finset.mem_filter.mpr ⟨Finset.mem_range.mpr ha, hsubmitted⟩)
  | succ n ih =>
    rw [finishLoop]
    cases holdest : w.oldest fun a => (w.arenas a).submitted with
    | none => exact Attempt.post_ok (h.finished (oldest_eq_none holdest))
    | some a =>
      obtain ⟨ha, hsubmitted⟩ := oldest_eq_some holdest
      refine (wait_post a h).andThen fun _ w' hwaited => ih hwaited.inv ?_
      have hcard := hwaited.card ha hsubmitted
      omega

theorem finish_post (h : Inv w) :
    (finish env w).Post (fun _ w' => Inv w' ∧ pending w'.log = []) Inv := by
  rw [finish]
  split
  · next hfailed => exact h.throw fun _ => hfailed
  · exact finishLoop_post _ h le_rfl

/-! ### Claiming an arena -/

/-- An arena that may be written. -/
structure Claimed (w : World) (a : ℕ) (w' : World) : Prop where
  inv : Inv w'
  keeps : Keeps w w'
  range : a < InFlight
  memory : (w'.arenas a).memory = true
  vacant : Vacant a w'.log

/-- An arena without memory is not in use. -/
theorem Inv.vacant_of_no_memory (h : Inv w) {a : ℕ} (hmemory : (w.arenas a).memory = false) :
    Vacant a w.log := by
  rintro s hs rfl
  rw [(h.held s hs).memory] at hmemory
  exact absurd hmemory nofun

/-- An arena that nothing uses is written. -/
theorem Inv.rewrite (h : Inv w) {a : ℕ} (hvacant : Vacant a w.log) (hfailed : w.failed = false) :
    Inv (w.note (.rewrite a)) := h.note ⟨hvacant, h.unbroken hfailed⟩ rfl nofun

theorem allocate_post (h : Inv w) (hfailed : w.failed = false) {a : ℕ} (ha : a < InFlight)
    (hmemory : (w.arenas a).memory = false) :
    (allocate env w a).Post (fun a' w' => Claimed w a' w') Inv := by
  rw [allocate]
  have hvacant := h.vacant_of_no_memory hmemory
  split
  · exact h.tick.throw nofun
  · have hinv : Inv { w.tick.setArena a { w.arenas a with memory := true } with
        label := Function.update w.label a 0 } := by
      refine ⟨h.safe, fun s hs => ?_, h.fills, h.constant, h.unbroken⟩
      exact (h.held s hs).congr (Function.update_of_ne (hvacant s hs) _ _)
        (Function.update_of_ne (hvacant s hs) _ _)
    refine ⟨hinv.rewrite hvacant hfailed, ⟨rfl, rfl⟩, ha, ?_, hvacant⟩
    simp only [World.note, World.setArena, Function.update_self]

theorem freeArena_eq_some {a : ℕ} (h : w.freeArena = some a) :
    a < InFlight ∧ (w.arenas a).memory = true ∧ (w.arenas a).submitted = false := by
  have hfree := List.find?_some h
  rw [Bool.and_eq_true, Bool.not_eq_true'] at hfree
  exact ⟨List.mem_range.mp (List.mem_of_find?_eq_some h), hfree⟩

theorem unmappedArena_eq_some {a : ℕ} (h : w.unmappedArena = some a) :
    a < InFlight ∧ (w.arenas a).memory = false := by
  have hmemory := List.find?_some h
  rw [Bool.not_eq_true'] at hmemory
  exact ⟨List.mem_range.mp (List.mem_of_find?_eq_some h), hmemory⟩

theorem unmappedArena_eq_none (h : w.unmappedArena = none) :
    ∀ a < InFlight, (w.arenas a).memory = true := by
  intro a ha
  have hno := List.find?_eq_none.mp h a (List.mem_range.mpr ha)
  rwa [Bool.not_eq_true', Bool.not_eq_false] at hno

theorem oldest_lt (w : World) : (w.oldest fun _ => true).getD 0 < InFlight := by
  cases holdest : w.oldest fun _ => true with
  | none =>
    have hnone := oldest_eq_none holdest 0 (Nat.zero_lt_succ 15)
    exact absurd hnone nofun
  | some a => exact (oldest_eq_some holdest).1

theorem claim_post (h : Inv w) (hfailed : w.failed = false) :
    (claim env w).Post (fun a w' => Claimed w a w') Inv := by
  unfold claim
  obtain ⟨hinv, hkeeps⟩ := retire_spec env h
  generalize retire env w = w₁ at hinv hkeeps
  have hfailed₁ : w₁.failed = false := hkeeps.failed.trans hfailed
  dsimp only
  cases hfree : w₁.freeArena with
  | some a =>
    obtain ⟨ha, hmemory, hsubmitted⟩ := freeArena_eq_some hfree
    exact ⟨hinv, hkeeps, ha, hmemory, hinv.vacant_of_not_submitted hsubmitted⟩
  | none =>
    cases hunmapped : w₁.unmappedArena with
    | some a =>
      obtain ⟨ha, hmemory⟩ := unmappedArena_eq_some hunmapped
      refine (allocate_post hinv hfailed₁ ha hmemory).mono fun a' w' hclaimed => ?_
      exact ⟨hclaimed.inv, hkeeps.trans hclaimed.keeps, hclaimed.range, hclaimed.memory,
        hclaimed.vacant⟩
    | none =>
      -- Every arena has a blit, so the oldest is waited for.
      have hrange := oldest_lt w₁
      dsimp only
      refine (wait_post _ hinv).andThen fun _ w₂ hwaited => ?_
      refine ⟨hwaited.inv, hkeeps.trans hwaited.keeps, hrange, ?_, hwaited.vacant⟩
      rw [hwaited.arenas, Function.update_self]
      exact unmappedArena_eq_none hunmapped _ hrange

/-! ### Submitting -/

/-- A fill image that a blit reads was made before. -/
def FillMade (w : World) (blit : Blit) : Prop :=
  ∀ source ∈ blit.source, ∀ image, source.owner = .fill image → image < w.fills

theorem Inv.submit (h : Inv w) {a : ℕ} (ha : a < InFlight) (hmemory : (w.arenas a).memory = true)
    (hvacant : Vacant a w.log) {blit : Blit} (hmade : FillMade w blit) : Inv (w.submit a blit) := by
  constructor
  · exact ⟨hvacant, h.safe⟩
  · intro s hs
    rcases List.mem_cons.mp hs with rfl | hs
    · have harena : (w.submit a blit).arenas a = { w.arenas a with
          serial := (w.submission a blit).serial
          submitted := true
          source := (w.submission a blit).source
          target := (w.submission a blit).target
          depthTarget := (w.submission a blit).depthTarget
          depthSource := (w.submission a blit).depthSource } := Function.update_self ..
      have hlabel : (w.submit a blit).label a = 0 := Function.update_self ..
      have hat : (w.submission a blit).arena = a := rfl
      constructor
      · exact ha
      · rw [hat, harena]
        exact hmemory
      · rw [hat, harena]
      · rw [hat, harena]
      · rw [hat, harena]
      · rw [hat, harena]
      · rw [hat, harena]
      · rw [hat, harena]
      · rw [hat, hlabel]
        exact (Nat.succ_ne_zero _).symm
    · exact (h.held s hs).congr (Function.update_of_ne (hvacant s hs) _ _)
        (Function.update_of_ne (hvacant s hs) _ _)
  · intro s hs image hsource
    rcases List.mem_cons.mp hs with rfl | hs
    · obtain ⟨source, hmem, howner⟩ := Option.map_eq_some_iff.mp hsource
      exact hmade source hmem image howner
    · exact h.fills s hs image hsource
  · exact h.constant
  · intro hfailed hbroken
    rcases broken_cons.mp hbroken with ⟨failure, hthrew, _⟩ | hbroken
    · exact absurd hthrew nofun
    · exact h.unbroken hfailed hbroken

theorem executeIn_post (h : Inv w) (hfailed : w.failed = false) {a : ℕ} (ha : a < InFlight)
    (hmemory : (w.arenas a).memory = true) (hvacant : Vacant a w.log) {blit : Blit}
    (hmade : FillMade w blit) : (executeIn env w a blit).Post (fun _ w' => Inv w') Inv := by
  rw [executeIn]
  have hrewritten := h.rewrite hvacant hfailed
  dsimp only
  split
  · exact hrewritten.tick.throw nofun
  · have hsubmitted := hrewritten.submit ha hmemory hvacant hmade
    split
    · exact hsubmitted.tick.fail.throw fun _ => rfl
    · exact Attempt.post_ok (retire_spec env hsubmitted.tick).1

/-- A check whose failures leave the blitter as it is. -/
def Refuses (check : Except Failure Unit) : Prop :=
  ∀ failure, check = .error failure → failure.latched = false

theorem refuses_ok : Refuses (.ok ()) := nofun

theorem refuses_error {failure : Failure} (h : failure.latched = false) :
    Refuses (.error failure) := by
  rintro _ ⟨⟩
  exact h

theorem Refuses.bind {x : Except Failure Unit} {f : Unit → Except Failure Unit} (hx : Refuses x)
    (hf : Refuses (f ())) : Refuses (x >>= f) := by
  cases x with
  | error failure => exact hx
  | ok _ => exact hf

theorem refuses_ite {p : Prop} [Decidable p] {x y : Except Failure Unit} (hx : Refuses x)
    (hy : Refuses y) : Refuses (if p then x else y) := by
  split
  · exact hx
  · exact hy

theorem checkSource_refuses (blit : Blit) : Refuses (checkSource blit) := by
  unfold checkSource
  split
  · exact refuses_ite (refuses_error rfl) refuses_ok
  · split
    · exact refuses_error rfl
    · exact refuses_ite (refuses_error rfl) refuses_ok

theorem checkDepth_refuses (blit : Blit) (target : Target) : Refuses (checkDepth blit target) := by
  unfold checkDepth
  split
  · exact refuses_ok
  · exact refuses_ite (refuses_error rfl) refuses_ok

theorem checkOptions_refuses (abi : ShaderAbi) (blit : Blit) : Refuses (checkOptions abi blit) :=
  refuses_ite (refuses_error rfl) (refuses_ite (refuses_error rfl)
    (refuses_ite (refuses_error rfl) refuses_ok))

theorem refuseIf_refuses {p : Prop} [Decidable p] {failure : Failure}
    (h : failure.latched = false) : Refuses (refuseIf p failure) :=
  refuses_ite (refuses_error h) refuses_ok

theorem checkTarget_refuses (w : World) (blit : Blit) (target : Target) :
    Refuses (checkTarget w blit target) := by
  refine (refuseIf_refuses rfl).bind ((refuseIf_refuses rfl).bind ((refuseIf_refuses rfl).bind ?_))
  refine (checkDepth_refuses blit target).bind ((checkOptions_refuses w.abi blit).bind ?_)
  exact refuseIf_refuses rfl

theorem checkBlit_refuses (w : World) (blit : Blit) : Refuses (checkBlit w blit) := by
  refine (refuseIf_refuses rfl).bind ((checkSource_refuses blit).bind ?_)
  split
  · exact refuses_error rfl
  · exact checkTarget_refuses w blit _

theorem checkBlit_ok {blit : Blit} (h : checkBlit w blit = .ok ()) : w.failed = false := by
  refine Bool.not_eq_true _ ▸ fun hfailed => ?_
  rw [checkBlit, refuseIf, if_pos hfailed] at h
  exact absurd h nofun

theorem execute_post (h : Inv w) {blit : Blit} (hmade : FillMade w blit) :
    (execute env w blit).Post (fun _ w' => Inv w') Inv := by
  rw [execute]
  cases hcheck : checkBlit w blit with
  | error failure =>
    have hrefused := checkBlit_refuses w blit failure hcheck
    exact h.throw fun hlatched => absurd (hrefused.symm.trans hlatched) nofun
  | ok _ =>
    have hfailed := checkBlit_ok hcheck
    refine (claim_post h hfailed).andThen fun a w' hclaimed => ?_
    refine executeIn_post hclaimed.inv (hclaimed.keeps.failed.trans hfailed) hclaimed.range
      hclaimed.memory hclaimed.vacant ?_
    intro source hsource image howner
    rw [hclaimed.keeps.fills]
    exact hmade source hsource image howner

/-! ### Fill images -/

/-- The pixel of a fill image that only the blitter has is not read any more. -/
theorem Inv.unread (h : Inv w) {image : ℕ} (hcount : w.useCount image = 1) :
    ∀ s ∈ pending w.log, s.source ≠ some (.fill image) := by
  intro s hs hsource
  have hheld := h.held s hs
  have hzero : (List.range InFlight).countP (fun a => (w.arenas a).source = some (.fill image)) = 0 :=
    Nat.add_left_cancel (hcount.trans (Nat.add_zero 1).symm)
  refine List.countP_eq_zero.mp hzero s.arena (List.mem_range.mpr hheld.range) ?_
  exact decide_eq_true (hheld.source.trans hsource)

theorem fillConstant_post (h : Inv w) (bgra : ℕ) : (fillConstant env w bgra).Post
      (fun image w' => Inv w' ∧ w'.failed = w.failed ∧ image < w'.fills) Inv := by
  rw [fillConstant]
  dsimp only
  split
  · next c hreused =>
    obtain ⟨hc, hcount⟩ := Option.filter_eq_some_iff.mp hreused
    exact ⟨h.note (h.unread (of_decide_eq_true hcount)) rfl nofun, rfl, h.constant c hc⟩
  · split
    · have hinv : Inv { w.tick with constant := some w.fills, fills := w.fills + 1 } := by
        refine ⟨h.safe, fun s hs => (h.held s hs).congr rfl rfl, ?_, ?_, h.unbroken⟩
        · exact fun s hs image hsource => Nat.lt_succ_of_lt (h.fills s hs image hsource)
        · rintro c ⟨⟩
          exact Nat.lt_succ_self _
      refine ⟨hinv.note ?_ rfl nofun, rfl, Nat.lt_succ_self _⟩
      intro s hs hsource
      exact Nat.lt_irrefl _ (h.fills s hs w.fills hsource)
    · exact h.tick.throw nofun

/-! ### Calls and runs -/

theorem fillExecute_post (h : Inv w) (bgra : ℕ) (blit : ℕ → Blit)
    (hblit : ∀ image, ∀ source ∈ (blit image).source, source.owner = .fill image) :
    ((fillConstant env w bgra).andThen fun image w => execute env w (blit image)).Post
      (fun _ w' => Inv w') Inv := by
  refine (fillConstant_post h bgra).andThen fun image w' hfill => ?_
  refine execute_post hfill.1 ?_
  intro source hsource image' howner
  obtain rfl := Owner.fill.inj ((hblit image source hsource).symm.trans howner)
  exact hfill.2.2

theorem fillBlit_owner (data : ℕ) (target : Target) (rect : BlitRect) (writeMask image : ℕ) :
    ∀ source ∈ (fillBlit image data target rect writeMask).source, source.owner = .fill image := by
  rintro _ ⟨⟩
  rfl

theorem clearColor_post (h : Inv w) (target : Option Target) (rect : BlitRect)
    (bgra writeMask : ℕ) :
    (clearColor env w target rect bgra writeMask).Post (fun _ w' => Inv w') Inv := by
  unfold clearColor
  split
  · exact h.throw nofun
  · split
    · exact h.throw nofun
    · split
      · exact h.throw nofun
      · split
        · exact h.throw nofun
        · exact fillExecute_post h bgra _ fun image => fillBlit_owner _ _ rect writeMask image

theorem fillDepthTested_post (h : Inv w) (target depth : Option Target) (rect : BlitRect)
    (bgra : ℕ) (depthTest : Bool) (writeMask : ℕ) :
    (fillDepthTested env w target depth rect bgra depthTest writeMask).Post (fun _ w' => Inv w')
      Inv := by
  unfold fillDepthTested
  split
  · exact h.throw nofun
  · split
    · next target depth =>
      split
      · exact h.throw nofun
      · split
        · exact h.throw nofun
        · exact fillExecute_post h bgra (fun image =>
            { fillBlit image (env.fillData image) target rect writeMask with
              depth := some depth
              depthTest := depthTest })
            fun image => fillBlit_owner (env.fillData image) target rect writeMask image
    · exact h.throw nofun

/-- A blit between images of the caller reads no fill image. -/
theorem fillMade_image (w : World) {blit : Blit} {source : Option Target}
    (hsource : blit.source = source.map Target.image) : FillMade w blit := by
  intro image himage fill howner
  rw [hsource] at himage
  obtain ⟨target, _, rfl⟩ := Option.map_eq_some_iff.mp himage
  exact absurd howner nofun

/-- What the destructor finds where it destroys. -/
theorem unresolvedFrom_spec (env : Environment) (arenas : List ℕ) (h : Inv w) :
    Inv (unresolvedFrom env arenas w).2 ∧ SameArenas w (unresolvedFrom env arenas w).2 ∧
      ((unresolvedFrom env arenas w).1 = false →
        ∀ a ∈ arenas, Vacant a (unresolvedFrom env arenas w).2.log) := by
  induction arenas generalizing w with
  | nil => exact ⟨h, .refl w, nofun⟩
  | cons a arenas ih =>
    rw [unresolvedFrom]
    split
    · obtain ⟨hpass, hsame⟩ := pass_spec env h
      dsimp only
      split
      · next hlanded =>
        obtain ⟨hinv, hsame', hvacant⟩ := ih hpass
        refine ⟨hinv, hsame.trans hsame', fun hdone b hb => ?_⟩
        rcases List.mem_cons.mp hb with rfl | hb
        · exact fun s hs => hpass.vacant_of_landed hlanded s (hsame'.pending s hs)
        · exact hvacant hdone b hb
      · exact ⟨hpass, hsame, nofun⟩
    · next hfree =>
      obtain ⟨hinv, hsame, hvacant⟩ := ih h
      refine ⟨hinv, hsame, fun hdone b hb => ?_⟩
      rcases List.mem_cons.mp hb with rfl | hb
      · exact fun s hs =>
          h.vacant_of_not_submitted (Bool.not_eq_true _ ▸ hfree) s (hsame.pending s hs)
      · exact hvacant hdone b hb

theorem unresolved_spec (env : Environment) (h : Inv w) : Inv (unresolved env w).2 ∧
    ((unresolved env w).1 = false → pending (unresolved env w).2.log = []) := by
  rw [unresolved]
  split
  · exact ⟨h, nofun⟩
  · obtain ⟨hinv, _, hvacant⟩ := unresolvedFrom_spec env (List.range InFlight) h
    refine ⟨hinv, fun hdone => List.eq_nil_iff_forall_not_mem.mpr fun s hs => ?_⟩
    exact hvacant hdone s.arena (List.mem_range.mpr (hinv.held s hs).range) s hs rfl

theorem Inv.dead (h : Inv w) : Inv { w with alive := false } :=
  ⟨h.safe, fun s hs => (h.held s hs).congr rfl rfl, h.fills, h.constant, h.unbroken⟩

theorem Inv.destroy (h : Inv w) : Inv (destroy env w) := by
  rw [AgcBlit.destroy]
  have hfinished : Inv (if w.failed = true then w else (finish env w).2) := by
    split
    · exact h
    · exact (finish_post h).left fun _ _ hpost => hpost.1
  generalize (if w.failed = true then w else (finish env w).2) = w₁ at hfinished
  obtain ⟨hinv, hdone⟩ := unresolved_spec env hfinished
  generalize unresolved env w₁ = result at hinv hdone
  obtain ⟨retained, w₂⟩ := result
  dsimp only at hinv hdone ⊢
  split
  · exact hinv.dead
  · next hresolved => exact hinv.dead.note (hdone (Bool.not_eq_true _ ▸ hresolved)) rfl nofun

theorem Inv.step (h : Inv w) (call : Call) : Inv (AgcBlit.step env w call) := by
  unfold AgcBlit.step
  split
  · cases call with
    | copy source target sampled rect options =>
      exact (execute_post h (fillMade_image w rfl)).left fun _ _ hpost => hpost
    | copyDepth source target sampled rect options =>
      exact (execute_post h (@fillMade_image w _ none rfl)).left fun _ _ hpost => hpost
    | clearColor target rect bgra writeMask =>
      exact (clearColor_post h target rect bgra writeMask).left fun _ _ hpost => hpost
    | fillDepthTested target depth rect bgra depthTest writeMask =>
      exact (fillDepthTested_post h target depth rect bgra depthTest writeMask).left
        fun _ _ hpost => hpost
    | finish => exact (finish_post h).left fun _ _ hpost => hpost.1
    | destroy => exact h.destroy
  · exact h

theorem inv_start (abi : ShaderAbi) : Inv (.start abi) :=
  ⟨History.ok_nil, nofun, nofun, nofun, fun _ ⟨_, hmem, _⟩ => List.not_mem_nil hmem⟩

theorem Inv.run (h : Inv w) (calls : List Call) : Inv (run env w calls) := by
  induction calls generalizing w with
  | nil => exact h
  | cons call calls ih => exact ih (h.step call)

/-- Whenever the labels land, an arena is written only where no blit uses it, what a blit uses is
neither released nor written before its label lands, `finish` returns when every blit is complete,
and a failure that is latched is final. -/
theorem arena_protocol (env : Environment) (abi : ShaderAbi) (calls : List Call) :
    (∀ after e before, (run env (.start abi) calls).log = after ++ e :: before →
      e.Safe Failure.latched before) ∧
    (∀ s ∈ pending (run env (.start abi) calls).log, Holds (run env (.start abi) calls) s) ∧
    ∀ w, finish env (run env (.start abi) calls) = (.ok (), w) → pending w.log = [] := by
  have hrun : Inv (run env (.start abi) calls) := (inv_start abi).run calls
  refine ⟨History.ok_iff.mp hrun.safe, hrun.held, ?_⟩
  intro w hfinish
  have hpost : (finish env _).Post (fun _ w' => Inv w' ∧ pending w'.log = []) Inv := finish_post hrun
  rw [hfinish] at hpost
  exact hpost.2

/-- A system that breaks off the waits, where the first label lands late. -/
def brokenOff : Environment where
  lands t := if t = 4 then [1] else []
  waits _ := false
  allocates _ := none
  fills _ := true
  fillData _ := 65536
  encodes _ := true
  submits _ := 0

def smallCopy : Call :=
  .copy (some ⟨0, some 4096, 32, 32⟩) (some ⟨1, some 8192, 32, 32⟩) true ⟨0, 0, 32, 32⟩ none

/-- Not every failure of a wait is final: where the wait service throws, the arena is used again
once its label has landed. -/
theorem broken_off_then_reused : ¬ History.Ok (Event.Safe Failure.ofWaitOrSubmission)
    (run brokenOff (.start .GxCopy) [smallCopy, .finish, smallCopy]).log := by
  rintro ⟨_, hrewrite, _⟩
  exact hrewrite.2 ⟨.waitSlice, .tail _ (.tail _ (.head _)), rfl⟩

end Gpu.AgcBlit
