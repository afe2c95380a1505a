import MkwiiPs5.History
import MkwiiPs5.Input.NativePad

/-!
# Handles of native pads

What holds of the slots after any calls, whatever the native services answer: which slot has which
handle, that each handle that was opened is closed once, and that no motor is left running.
-/

namespace Input.NativePads

/-! ### Histories -/

/-- What a slot has. -/
inductive Phase
  | free
  | held (user handle : ℤ) (owned : Bool)
  /-- A handle that was closed, in a slot that is not emptied yet. -/
  | closed

/-- What a slot has after some events. -/
def phase (slot : Fin 4) : List Event → Phase
  | [] => .free
  | .opened s user handle owned :: past =>
    if s = slot then .held user handle owned else phase slot past
  | .closed s _ result :: past => if s = slot ∧ 0 ≤ result then .closed else phase slot past
  | .released s :: past => if s = slot then .free else phase slot past
  | .vibrated _ _ _ _ _ :: past => phase slot past

/-- The last vibration command that succeeded for the handle of a slot was not zero. -/
def motor (slot : Fin 4) : List Event → Bool
  | [] => false
  | .opened s _ _ _ :: past => if s = slot then false else motor slot past
  | .vibrated s _ low high result :: past =>
    if s = slot ∧ 0 ≤ result then low ≠ 0 ∨ high ≠ 0 else motor slot past
  | .closed _ _ _ :: past => motor slot past
  | .released _ :: past => motor slot past

/-- What may be done: a user gets one slot, a handle is closed in the slot that owns it, and a
slot is given up when its motor does not run. -/
def Event.Safe : Event → List Event → Prop
  | .opened slot user handle _, past => phase slot past = .free ∧ 0 ≤ handle ∧
      ∀ other handle' owned', phase other past ≠ .held user handle' owned'
  | .closed slot handle _, past =>
      (∃ user, phase slot past = .held user handle true) ∧ motor slot past = false
  | .vibrated slot handle _ _ _, past => ∃ user owned, phase slot past = .held user handle owned
  | .released slot, past =>
      (∀ user handle, phase slot past ≠ .held user handle true) ∧ motor slot past = false

def PadSlot.phase (s : PadSlot) : Phase :=
  if s.handle < 0 then .free else .held s.user s.handle s.owned

/-! ### The invariant -/

variable {env : Environment} {w w' : World} {slot : Fin 4}

structure Inv (w : World) : Prop where
  safe : History.Ok Event.Safe w.log
  phases : ∀ slot, phase slot w.log = (w.slots slot).phase
  motors : ∀ slot, motor slot w.log = (w.slots slot).vibrating
  distinct : ∀ i j, 0 ≤ (w.slots i).handle → 0 ≤ (w.slots j).handle →
    (w.slots i).user = (w.slots j).user → i = j
  hidden : ∀ slot, (w.slots slot).signedIn = false → (w.slots slot).sample = .none
  empty : ∀ slot, (w.slots slot).handle < 0 → w.slots slot = .empty
  idle : w.initialized = false → ∀ slot, (w.slots slot).handle < 0

/-- The slot has the same handle of the same user. -/
structure SameHandle (s s' : PadSlot) : Prop where
  user : s'.user = s.user
  handle : s'.handle = s.handle
  owned : s'.owned = s.owned

theorem SameHandle.refl (s : PadSlot) : SameHandle s s := ⟨rfl, rfl, rfl⟩

theorem SameHandle.trans {s₁ s₂ s₃ : PadSlot} (h : SameHandle s₁ s₂) (h' : SameHandle s₂ s₃) :
    SameHandle s₁ s₃ :=
  ⟨h'.user.trans h.user, h'.handle.trans h.handle, h'.owned.trans h.owned⟩

theorem SameHandle.phase {s s' : PadSlot} (h : SameHandle s s') : s'.phase = s.phase := by
  rw [PadSlot.phase, PadSlot.phase, h.user, h.handle, h.owned]

/-- Which slots are left as they are: those with handles of certain users. -/
def Keeps (P : ℤ → Prop) (w w' : World) : Prop :=
  ∀ slot, 0 ≤ (w.slots slot).handle → P (w.slots slot).user →
    SameHandle (w.slots slot) (w'.slots slot)

theorem Keeps.refl (P : ℤ → Prop) (w : World) : Keeps P w w := fun _ _ _ => .refl _

theorem Keeps.trans {P : ℤ → Prop} {w₁ w₂ w₃ : World} (h : Keeps P w₁ w₂) (h' : Keeps P w₂ w₃) :
    Keeps P w₁ w₃ := by
  intro slot hhandle huser
  have hfirst := h slot hhandle huser
  exact hfirst.trans (h' slot (hfirst.handle ▸ hhandle) (hfirst.user ▸ huser))

theorem Keeps.mono {P Q : ℤ → Prop} (h : Keeps Q w w') (himp : ∀ user, P user → Q user) :
    Keeps P w w' := fun slot hhandle huser => h slot hhandle (himp _ huser)

/-- What no call but `initialize` and `close` changes. -/
structure Steady (w w' : World) : Prop where
  initialized : w'.initialized = w.initialized
  initialUser : w'.initialUser = w.initialUser

theorem Steady.refl (w : World) : Steady w w := ⟨rfl, rfl⟩

theorem Steady.trans {w₁ w₂ w₃ : World} (h : Steady w₁ w₂) (h' : Steady w₂ w₃) : Steady w₁ w₃ :=
  ⟨h'.initialized.trans h.initialized, h'.initialUser.trans h.initialUser⟩

@[simp]
theorem slot_setSlot (w : World) (slot : Fin 4) (s : PadSlot) :
    (w.setSlot slot s).slots slot = s := Function.update_self ..

theorem slot_setSlot_of_ne (w : World) {slot other : Fin 4} (h : other ≠ slot) (s : PadSlot) :
    (w.setSlot slot s).slots other = w.slots other := Function.update_of_ne h ..

/-- What holds of every slot where it holds of the others and of the new one. -/
theorem forall_setSlot {P : Fin 4 → PadSlot → Prop} {s : PadSlot}
    (h : ∀ i, i ≠ slot → P i (w.slots i)) (hs : P slot s) :
    ∀ i, P i ((w.setSlot slot s).slots i) :=
  Function.forall_update_iff w.slots P |>.mpr ⟨hs, h⟩

theorem Inv.tick (h : Inv w) : Inv w.tick :=
  ⟨h.safe, h.phases, h.motors, h.distinct, h.hidden, h.empty, h.idle⟩

/-- A slot changes that keeps its handle. -/
theorem Inv.setSlot (h : Inv w) {s : PadSlot} (hsame : SameHandle (w.slots slot) s)
    (hvibrating : s.vibrating = (w.slots slot).vibrating)
    (hhidden : s.signedIn = false → s.sample = .none) (hempty : s.handle < 0 → s = .empty) :
    Inv (w.setSlot slot s) := by
  have hall : ∀ i, SameHandle (w.slots i) ((w.setSlot slot s).slots i) :=
    forall_setSlot (P := fun i => SameHandle (w.slots i)) (fun _ _ => .refl _) hsame
  constructor
  · exact h.safe
  · exact fun i => (h.phases i).trans (hall i).phase.symm
  · exact forall_setSlot (P := fun i t => motor i w.log = t.vibrating) (fun i _ => h.motors i)
      ((h.motors slot).trans hvibrating.symm)
  · intro i j hi hj huser
    rw [(hall i).user, (hall j).user] at huser
    exact h.distinct i j ((hall i).handle ▸ hi) ((hall j).handle ▸ hj) huser
  · exact forall_setSlot (P := fun _ t => t.signedIn = false → t.sample = .none)
      (fun i _ => h.hidden i) hhidden
  · exact forall_setSlot (P := fun _ t => t.handle < 0 → t = .empty) (fun i _ => h.empty i) hempty
  · intro hidle i
    rw [(hall i).handle]
    exact h.idle hidle i

theorem Inv.hide (h : Inv w) (slot : Fin 4) : Inv (w.hide slot) := by
  refine h.setSlot ⟨rfl, rfl, rfl⟩ rfl (fun _ => rfl) fun hhandle => ?_
  rw [h.empty slot hhandle]
  rfl

/-- What a call leaves that changes nothing but one slot. -/
structure OneSlot (w w' : World) (slot : Fin 4) : Prop where
  inv : Inv w'
  steady : Steady w w'
  others : ∀ other, other ≠ slot → w'.slots other = w.slots other

theorem OneSlot.refl (h : Inv w) (slot : Fin 4) : OneSlot w w slot := ⟨h, .refl w, fun _ _ => rfl⟩

theorem OneSlot.trans {w₁ w₂ w₃ : World} (h : OneSlot w₁ w₂ slot) (h' : OneSlot w₂ w₃ slot) :
    OneSlot w₁ w₃ slot :=
  ⟨h'.inv, h.steady.trans h'.steady, fun other hne => (h'.others other hne).trans (h.others other hne)⟩

theorem OneSlot.keeps {P : ℤ → Prop} (h : OneSlot w w' slot)
    (hslot : P (w.slots slot).user → SameHandle (w.slots slot) (w'.slots slot)) : Keeps P w w' := by
  intro i _ huser
  by_cases hi : i = slot
  · subst hi
    exact hslot huser
  · rw [h.others i hi]
    exact .refl _

theorem oneSlot_hide (h : Inv w) (slot : Fin 4) : OneSlot w (w.hide slot) slot :=
  ⟨h.hide slot, ⟨rfl, rfl⟩, fun _ hne => slot_setSlot_of_ne w hne _⟩

/-! ### Vibration -/

theorem phase_eq_held (h : Inv w) (hhandle : 0 ≤ (w.slots slot).handle) :
    phase slot w.log = .held (w.slots slot).user (w.slots slot).handle (w.slots slot).owned := by
  rw [h.phases, PadSlot.phase, if_neg (Int.not_lt.mpr hhandle)]

/-- A vibration command for a slot with a handle: the flag says what the motor does. -/
theorem setVibration_spec (env : Environment) (h : Inv w) (hhandle : 0 ≤ (w.slots slot).handle) (low high : UInt8) :
    OneSlot w (setVibration env w slot low high).2 slot ∧
      (setVibration env w slot low high).2.slots slot = { w.slots slot with
        vibrating := if 0 ≤ (setVibration env w slot low high).1 then low ≠ 0 ∨ high ≠ 0
          else (w.slots slot).vibrating } := by
  have hsafe : Event.Safe (.vibrated slot (w.slots slot).handle low high (env.vibrations w.clock))
      w.log := ⟨_, _, phase_eq_held h hhandle⟩
  rw [setVibration]
  dsimp only
  split
  · next hrc =>
    refine ⟨⟨?_, ⟨rfl, rfl⟩, fun other hne => slot_setSlot_of_ne _ hne _⟩, slot_setSlot ..⟩
    have hall : ∀ i, SameHandle (w.slots i) ((w.setSlot slot { w.slots slot with
        vibrating := low ≠ 0 ∨ high ≠ 0 }).slots i) :=
      forall_setSlot (P := fun i => SameHandle (w.slots i)) (fun _ _ => .refl _) ⟨rfl, rfl, rfl⟩
    constructor
    · exact ⟨hsafe, h.safe⟩
    · exact fun i => (h.phases i).trans (hall i).phase.symm
    · intro i
      change (if slot = i ∧ 0 ≤ env.vibrations w.clock then decide (low ≠ 0 ∨ high ≠ 0)
        else motor i w.log) = _
      by_cases hi : i = slot
      · subst hi
        rw [if_pos ⟨rfl, hrc⟩, slot_setSlot]
      · rw [if_neg fun hboth => hi hboth.1.symm, h.motors i]
        exact (congrArg PadSlot.vibrating (slot_setSlot_of_ne _ hi _)).symm
    · intro i j hi hj huser
      have huser' : (w.slots i).user = (w.slots j).user :=
        (hall i).user.symm.trans (huser.trans (hall j).user)
      exact h.distinct i j ((hall i).handle ▸ hi) ((hall j).handle ▸ hj) huser'
    · exact forall_setSlot (w := w) (P := fun _ t => t.signedIn = false → t.sample = .none)
        (fun i _ => h.hidden i) (h.hidden slot)
    · refine forall_setSlot (w := w) (P := fun _ t => t.handle < 0 → t = .empty)
        (fun i _ => h.empty i) fun hneg => ?_
      exact absurd hneg (Int.not_lt.mpr hhandle)
    · exact fun hidle i => (hall i).handle ▸ h.idle hidle i
  · next hrc =>
    refine ⟨⟨?_, ⟨rfl, rfl⟩, fun _ _ => rfl⟩, rfl⟩
    refine ⟨⟨hsafe, h.safe⟩, h.phases, fun i => ?_, h.distinct, h.hidden, h.empty, h.idle⟩
    change (if slot = i ∧ 0 ≤ env.vibrations w.clock then decide (low ≠ 0 ∨ high ≠ 0)
      else motor i w.log) = _
    rw [if_neg fun hboth => hrc hboth.2]
    exact h.motors i

/-- Where `stop_slot` does not fail, the motor does not run. -/
theorem stopSlot_spec (env : Environment) (h : Inv w) (slot : Fin 4) :
    OneSlot w (stopSlot env w slot).2 slot ∧
      (stopSlot env w slot).2.slots slot = { w.slots slot with
        vibrating := ((stopSlot env w slot).2.slots slot).vibrating } ∧
      (0 ≤ (stopSlot env w slot).1 → ((stopSlot env w slot).2.slots slot).vibrating = false) := by
  rw [stopSlot]
  split
  · next hstill =>
    refine ⟨.refl h slot, rfl, fun _ => ?_⟩
    rcases hstill with hstill | hhandle
    · exact Bool.not_eq_true _ ▸ hstill
    · rw [h.empty slot hhandle]
      rfl
  · next hmoving =>
    have hhandle := Int.not_lt.mp (not_or.mp hmoving).2
    obtain ⟨hone, hslot⟩ := setVibration_spec env h hhandle 0 0
    refine ⟨hone, ?_, fun hrc => ?_⟩
    · rw [hslot]
    · rw [hslot, if_pos hrc]
      rfl

/-! ### Closing -/

/-- A slot that owns no open handle, and whose motor does not run, is emptied. -/
theorem Inv.release (h : Inv w) (slot : Fin 4) (log : List Event) (hlog : History.Ok Event.Safe log)
    (hothers : ∀ i, i ≠ slot → phase i log = phase i w.log)
    (hphase : ∀ user handle, phase slot log ≠ .held user handle true)
    (hmotor : ∀ i, motor i log = motor i w.log) (hstill : (w.slots slot).vibrating = false) :
    Inv ({ w with log := log }.release slot) := by
  have hmotorSlot : motor slot log = false := (hmotor slot).trans ((h.motors slot).trans hstill)
  constructor
  · exact ⟨⟨hphase, hmotorSlot⟩, hlog⟩
  · refine forall_setSlot (w := w) (P := fun i t => phase i (.released slot :: log) = t.phase)
      (fun i hi => ?_) (if_pos rfl)
    exact (if_neg hi.symm).trans ((hothers i hi).trans (h.phases i))
  · exact forall_setSlot (w := w) (P := fun i t => motor i (.released slot :: log) = t.vibrating)
      (fun i _ => (hmotor i).trans (h.motors i)) hmotorSlot
  · refine forall_setSlot (w := w) (P := fun i t => ∀ j, 0 ≤ t.handle →
      0 ≤ ((w.setSlot slot .empty).slots j).handle →
      t.user = ((w.setSlot slot .empty).slots j).user → i = j) (fun i hi j => ?_) ?_
    · refine forall_setSlot (w := w) (P := fun j t => 0 ≤ (w.slots i).handle → 0 ≤ t.handle →
        (w.slots i).user = t.user → i = j) (fun j _ => h.distinct i j) ?_ j
      exact fun _ hneg => absurd hneg (by decide)
    · exact fun _ hneg => absurd hneg (by decide)
  · exact forall_setSlot (w := w) (P := fun _ t => t.signedIn = false → t.sample = .none)
      (fun i _ => h.hidden i) fun _ => rfl
  · exact forall_setSlot (w := w) (P := fun _ t => t.handle < 0 → t = .empty)
      (fun i _ => h.empty i) fun _ => rfl
  · exact fun hidle => forall_setSlot (w := w) (P := fun _ t => t.handle < 0)
      (fun i _ => h.idle hidle i) (by decide)

/-- Either the slot is emptied or it stays, with its handle, and nothing of it is exposed. -/
structure SlotClosed (w : World) (slot : Fin 4) (result : Result) : Prop where
  one : OneSlot w result.2 slot
  left : result.2.slots slot = .empty ∨ SameHandle (w.slots slot) (result.2.slots slot)
  success : 0 ≤ result.1 → result.2.slots slot = .empty

theorem closeHandle_spec (env : Environment) (h : Inv w) (hstill : (w.slots slot).vibrating = false) :
    SlotClosed w slot (closeHandle env w slot) := by
  rw [closeHandle]
  dsimp only
  split
  · next howned =>
    have hphase := phase_eq_held h howned.2
    rw [howned.1] at hphase
    have hsafe : Event.Safe (.closed slot (w.slots slot).handle (env.closes w.clock)) w.log :=
      ⟨⟨_, hphase⟩, (h.motors slot).trans hstill⟩
    split
    · next hrc =>
      -- the handle is kept, so that it cannot be lost
      refine ⟨⟨?_, ⟨rfl, rfl⟩, fun _ _ => rfl⟩, Or.inr (.refl _), fun hok => ?_⟩
      · refine ⟨⟨hsafe, h.safe⟩, fun i => ?_, h.motors, h.distinct, h.hidden, h.empty, h.idle⟩
        refine Eq.trans ?_ (h.phases i)
        exact if_neg fun hboth => absurd hrc (Int.not_lt.mpr hboth.2)
      · exact absurd hrc (Int.not_lt.mpr hok)
    · next hrc =>
      have hclosed : phase slot (.closed slot (w.slots slot).handle (env.closes w.clock) :: w.log) =
          .closed := if_pos ⟨rfl, Int.not_lt.mp hrc⟩
      have hreleased := h.tick.release slot
        (.closed slot (w.slots slot).handle (env.closes w.clock) :: w.log) ⟨hsafe, h.safe⟩
        (fun i hi => if_neg fun hboth => hi hboth.1.symm) (by rw [hclosed]; exact nofun)
        (fun _ => rfl) hstill
      exact ⟨⟨hreleased, ⟨rfl, rfl⟩, fun other hne => slot_setSlot_of_ne _ hne _⟩,
        Or.inl (slot_setSlot ..), fun _ => slot_setSlot ..⟩
  · next howned =>
    have hphase : ∀ user handle, phase slot w.log ≠ .held user handle true := by
      intro user handle heq
      rw [h.phases, PadSlot.phase] at heq
      split at heq
      · exact absurd heq nofun
      · next hhandle =>
        injection heq with _ _ hown
        exact howned ⟨hown, Int.not_lt.mp hhandle⟩
    have hreleased := h.release slot w.log h.safe (fun _ _ => rfl) hphase (fun _ => rfl) hstill
    exact ⟨⟨hreleased, ⟨rfl, rfl⟩, fun other hne => slot_setSlot_of_ne _ hne _⟩,
      Or.inl (slot_setSlot ..), fun _ => slot_setSlot ..⟩

theorem closeSlot_spec (env : Environment) (h : Inv w) (slot : Fin 4) :
    SlotClosed w slot (closeSlot env w slot) := by
  have hhidden := oneSlot_hide h slot
  have hsame : SameHandle (w.slots slot) ((w.hide slot).slots slot) := by
    rw [World.hide, slot_setSlot]
    exact ⟨rfl, rfl, rfl⟩
  rw [closeSlot]
  generalize w.hide slot = w₁ at hhidden hsame
  obtain ⟨hone, hslot, hstill⟩ := stopSlot_spec env hhidden.inv slot
  generalize stopSlot env w₁ slot = stopped at hone hslot hstill
  obtain ⟨stop, w₂⟩ := stopped
  dsimp only at hone hslot hstill ⊢
  have hsame' : SameHandle (w.slots slot) (w₂.slots slot) := by
    rw [hslot]
    exact hsame.trans ⟨rfl, rfl, rfl⟩
  split
  · next hfailed =>
    exact ⟨hhidden.trans hone, Or.inr hsame', fun hok => absurd hfailed (Int.not_lt.mpr hok)⟩
  · next hok =>
    have hclosed := closeHandle_spec env hone.inv (hstill (Int.not_lt.mp hok))
    exact ⟨(hhidden.trans hone).trans hclosed.one, hclosed.left.imp id hsame'.trans, hclosed.success⟩

/-! ### Loops over the slots -/

theorem SlotClosed.keeps {P : ℤ → Prop} {result : Result} (h : SlotClosed w slot result)
    (hnot : ¬ P (w.slots slot).user) : Keeps P w result.2 :=
  h.one.keeps fun huser => absurd huser hnot

theorem firstFailure_eq_zero {failure result : ℤ} (h : firstFailure failure result = 0) :
    failure = 0 ∧ 0 ≤ result := by
  rw [firstFailure] at h
  split at h
  · next hboth => exact absurd h hboth.1.ne
  · next hboth => exact ⟨h, Int.not_lt.mp fun hneg => hboth ⟨hneg, h⟩⟩

/-- Where no slot fails to close, the slots are empty. -/
theorem closeSlots_spec (env : Environment) (slots : List (Fin 4)) (failure : ℤ) (h : Inv w) :
    Inv (closeSlots env slots failure w).2 ∧ Steady w (closeSlots env slots failure w).2 ∧
      ((closeSlots env slots failure w).1 = 0 → failure = 0 ∧
        ∀ slot, w.slots slot = .empty ∨ slot ∈ slots →
          (closeSlots env slots failure w).2.slots slot = .empty) := by
  induction slots generalizing w failure with
  | nil =>
    refine ⟨h, .refl w, fun hzero => ⟨hzero, fun slot hempty => ?_⟩⟩
    exact hempty.resolve_right List.not_mem_nil
  | cons first rest ih =>
    rw [closeSlots]
    have hclosed := closeSlot_spec env h first
    generalize closeSlot env w first = result at hclosed
    obtain ⟨rc, w₁⟩ := result
    obtain ⟨hinv, hsteady, hzero⟩ := ih (firstFailure failure rc) hclosed.one.inv
    refine ⟨hinv, hclosed.one.steady.trans hsteady, fun hresult => ?_⟩
    obtain ⟨hfirst, hempty⟩ := hzero hresult
    obtain ⟨hfailure, hrc⟩ := firstFailure_eq_zero hfirst
    refine ⟨hfailure, fun slot hslot => hempty slot ?_⟩
    by_cases heq : slot = first
    · subst heq
      exact Or.inl (hclosed.success hrc)
    · rcases hslot with hslot | hslot
      · exact Or.inl ((hclosed.one.others slot heq).trans hslot)
      · exact Or.inr (List.mem_of_ne_of_mem heq hslot)

theorem close_inv (env : Environment) (h : Inv w) : Inv (close env w).2 := by
  rw [close]
  obtain ⟨hinv, _, hzero⟩ := closeSlots_spec env (List.finRange 4) 0 h
  generalize closeSlots env (List.finRange 4) 0 w = result at hinv hzero
  obtain ⟨failure, w₁⟩ := result
  dsimp only at hinv hzero ⊢
  split
  · next hfailure =>
    obtain ⟨_, hempty⟩ := hzero hfailure
    refine ⟨hinv.safe, hinv.phases, hinv.motors, hinv.distinct, hinv.hidden, hinv.empty, ?_⟩
    intro _ slot
    have hslot : w₁.slots slot = .empty := hempty slot (Or.inr (List.mem_finRange slot))
    rw [hslot]
    decide
  · exact hinv

/-- Closing a slot does not look at whether its user is signed in. -/
theorem closeSlot_signedIn (env : Environment) (w : World) (slot : Fin 4) (signedIn : Bool) :
    closeSlot env (w.setSlot slot { w.slots slot with signedIn := signedIn }) slot =
      closeSlot env w slot := by
  have hhide : (w.setSlot slot { w.slots slot with signedIn := signedIn }).hide slot =
      w.hide slot := by
    rw [World.hide, slot_setSlot, World.hide]
    simp only [World.setSlot, Function.update_idem]
  rw [closeSlot, hhide, closeSlot]

/-- A slot whose user is signed in is not closed. -/
theorem retireSlots_spec (env : Environment) (users : Fin 4 → ℤ) (slots : List (Fin 4))
    (failure : ℤ) (h : Inv w) :
    Inv (retireSlots env users slots failure w).2 ∧
      Steady w (retireSlots env users slots failure w).2 ∧
      Keeps (fun user => ∃ k, users k = user) w (retireSlots env users slots failure w).2 := by
  induction slots generalizing w failure with
  | nil => exact ⟨h, .refl w, .refl _ w⟩
  | cons first rest ih =>
    rw [retireSlots]
    dsimp only
    split
    · next hstays =>
      have hset : OneSlot w (w.setSlot first { w.slots first with
          signedIn := 0 ≤ (w.slots first).handle ∧ ∃ k, users k = (w.slots first).user }) first := by
        refine ⟨h.setSlot ⟨rfl, rfl, rfl⟩ rfl (fun hout => ?_) fun hneg => ?_, ⟨rfl, rfl⟩,
          fun other hne => slot_setSlot_of_ne w hne _⟩
        · rcases hstays with hneg | hin
          · rw [h.empty first hneg]
            rfl
          · exact absurd (hout.symm.trans hin) nofun
        · have hfirst : (w.slots first).handle < 0 := hneg
          rw [decide_eq_false fun hboth => absurd hfirst (Int.not_lt.mpr hboth.1),
            h.empty first hfirst]
          rfl
      have hkeeps : Keeps (fun user => ∃ k, users k = user) w (w.setSlot first { w.slots first with
          signedIn := 0 ≤ (w.slots first).handle ∧ ∃ k, users k = (w.slots first).user }) := by
        refine hset.keeps fun _ => ?_
        rw [slot_setSlot]
        exact ⟨rfl, rfl, rfl⟩
      obtain ⟨hinv, hsteady, hrest⟩ := ih failure hset.inv
      exact ⟨hinv, hset.steady.trans hsteady, hkeeps.trans hrest⟩
    · next hout =>
      obtain ⟨hhandle, hsigned⟩ := not_or.mp hout
      rw [closeSlot_signedIn]
      have hclosed := closeSlot_spec env h first
      generalize closeSlot env w first = result at hclosed
      obtain ⟨rc, w₁⟩ := result
      have hkeeps := hclosed.keeps (P := fun user => ∃ k, users k = user) fun hin =>
        hsigned (decide_eq_true ⟨Int.not_lt.mp hhandle, hin⟩)
      obtain ⟨hinv, hsteady, hrest⟩ := ih (firstFailure failure rc) hclosed.one.inv
      exact ⟨hinv, hclosed.one.steady.trans hsteady, hkeeps.trans hrest⟩

/-- The first user and the initial user change places; no user is lost. -/
theorem exists_ordered {initialUser user : ℤ} {users : Fin 4 → ℤ} (h : ∃ k, users k = user) :
    ∃ k, ordered initialUser users k = user := by
  rw [ordered]
  cases (List.finRange 4).find? fun k => users k = initialUser with
  | none => exact h
  | some first =>
    by_cases hinitial : initialUser ≠ -1
    · obtain ⟨k, hk⟩ := h
      refine ⟨Equiv.swap 0 first k, ?_⟩
      dsimp only
      rw [if_pos hinitial, Function.comp_apply, Equiv.swap_apply_self]
      exact hk
    · obtain ⟨k, hk⟩ := h
      refine ⟨k, ?_⟩
      dsimp only
      rw [if_neg hinitial]
      exact hk

theorem freeSlot_eq_some (h : w.freeSlot = some slot) : (w.slots slot).handle < 0 :=
  of_decide_eq_true (List.find?_some (p := fun slot => (w.slots slot).handle < 0) h)

/-- A free slot gets a pad of a user that has none. -/
theorem Inv.opened (h : Inv w) (hinit : w.initialized = true) (hfree : (w.slots slot).handle < 0)
    {user handle : ℤ} (huser : ∀ i, (w.slots i).user ≠ user) (hhandle : 0 ≤ handle) (owned : Bool) :
    Inv ((w.setSlot slot ⟨user, handle, owned, true, 0, .none, false⟩).note
      (.opened slot user handle owned)) := by
  have hphase : phase slot w.log = .free := by
    rw [h.phases, PadSlot.phase, if_pos hfree]
  have hnone : ∀ i handle' owned', phase i w.log ≠ .held user handle' owned' := by
    intro i handle' owned' heq
    rw [h.phases, PadSlot.phase] at heq
    split at heq
    · exact absurd heq nofun
    · injection heq with heq
      exact huser i heq
  constructor
  · exact ⟨⟨hphase, hhandle, hnone⟩, h.safe⟩
  · refine forall_setSlot (w := w)
      (P := fun i t => phase i (.opened slot user handle owned :: w.log) = t.phase) (fun i hi => ?_) ?_
    · exact (if_neg hi.symm).trans (h.phases i)
    · rw [PadSlot.phase, if_neg (Int.not_lt.mpr hhandle)]
      exact if_pos rfl
  · refine forall_setSlot (w := w)
      (P := fun i t => motor i (.opened slot user handle owned :: w.log) = t.vibrating)
      (fun i hi => ?_) (if_pos rfl)
    exact (if_neg hi.symm).trans (h.motors i)
  · intro i j
    by_cases hi : i = slot
    · subst hi
      by_cases hj : j = i
      · exact fun _ _ _ => hj.symm
      · intro _ _ heq
        rw [World.note, slot_setSlot, slot_setSlot_of_ne w hj] at heq
        exact absurd heq.symm (huser j)
    · by_cases hj : j = slot
      · subst hj
        intro _ _ heq
        rw [World.note, slot_setSlot, slot_setSlot_of_ne w hi] at heq
        exact absurd heq (huser i)
      · rw [World.note, slot_setSlot_of_ne w hi, slot_setSlot_of_ne w hj]
        exact h.distinct i j
  · exact forall_setSlot (w := w) (P := fun _ t => t.signedIn = false → t.sample = .none)
      (fun i _ => h.hidden i) fun _ => rfl
  · exact forall_setSlot (w := w) (P := fun _ t => t.handle < 0 → t = .empty)
      (fun i _ => h.empty i) fun hneg => absurd hneg (Int.not_lt.mpr hhandle)
  · exact fun hidle => absurd (hinit.symm.trans hidle) nofun

theorem openSlot_spec (env : Environment) (h : Inv w) (hinit : w.initialized = true)
    (hfree : (w.slots slot).handle < 0) {user : ℤ} (huser : ∀ i, (w.slots i).user ≠ user) :
    OneSlot w (openSlot env w slot user) slot := by
  rw [openSlot, openPad]
  dsimp only
  by_cases hborrowed : env.opens w.clock = alreadyOpened
  · rw [if_neg (not_not.mpr hborrowed)]
    dsimp only
    split
    · next hhandle =>
      rw [World.handedOut, if_pos hhandle]
      exact ⟨h.tick.tick, ⟨rfl, rfl⟩, fun _ _ => rfl⟩
    · next hhandle =>
      rw [World.handedOut, if_neg hhandle]
      exact ⟨h.tick.tick.opened hinit hfree huser (Int.not_lt.mp hhandle) false, ⟨rfl, rfl⟩,
        fun other hne => slot_setSlot_of_ne _ hne _⟩
  · rw [if_pos hborrowed]
    dsimp only
    split
    · next hhandle =>
      rw [World.handedOut, if_pos hhandle]
      exact ⟨h.tick, ⟨rfl, rfl⟩, fun _ _ => rfl⟩
    · next hhandle =>
      rw [World.handedOut, if_neg hhandle]
      exact ⟨h.tick.opened hinit hfree huser (Int.not_lt.mp hhandle) true, ⟨rfl, rfl⟩,
        fun other hne => slot_setSlot_of_ne _ hne _⟩

/-- Users get slots that are free: no slot with a handle changes. -/
theorem assignSlots_spec (env : Environment) (users : List ℤ) (h : Inv w)
    (hinit : w.initialized = true) :
    Inv (assignSlots env users w) ∧ Steady w (assignSlots env users w) ∧
      Keeps (fun _ => True) w (assignSlots env users w) := by
  induction users generalizing w with
  | nil => exact ⟨h, .refl w, .refl _ w⟩
  | cons user users ih =>
    rw [assignSlots]
    split
    · exact ih h hinit
    · next hnew =>
      split
      · exact ⟨h, .refl w, .refl _ w⟩
      · next slot hslot =>
        have hfree := freeSlot_eq_some hslot
        have hopened := openSlot_spec env h hinit hfree fun i heq => hnew (Or.inr ⟨i, heq⟩)
        generalize openSlot env w slot user = w₁ at hopened
        have hkeeps : Keeps (fun _ => True) w w₁ := by
          intro i hi _
          have hne : i ≠ slot := by
            rintro rfl
            exact absurd hfree (Int.not_lt.mpr hi)
          rw [hopened.others i hne]
          exact .refl _
        obtain ⟨hinv, hsteady, hrest⟩ := ih hopened.inv (hopened.steady.initialized.trans hinit)
        exact ⟨hinv, hopened.steady.trans hsteady, hkeeps.trans hrest⟩

theorem hideSlots_spec (env : Environment) (slots : List (Fin 4)) (h : Inv w) :
    Inv (hideSlots env slots w) ∧ Steady w (hideSlots env slots w) ∧
      Keeps (fun _ => True) w (hideSlots env slots w) := by
  induction slots generalizing w with
  | nil => exact ⟨h, .refl w, .refl _ w⟩
  | cons first rest ih =>
    rw [hideSlots]
    obtain ⟨hone, hslot, _⟩ := stopSlot_spec env h first
    generalize (stopSlot env w first).2 = w₁ at hone hslot
    have hhidden := hone.trans (oneSlot_hide hone.inv first)
    have hkeeps : Keeps (fun _ => True) w (w₁.hide first) := by
      refine hhidden.keeps fun _ => ?_
      rw [World.hide, slot_setSlot, hslot]
      exact ⟨rfl, rfl, rfl⟩
    obtain ⟨hinv, hsteady, hrest⟩ := ih hhidden.inv
    exact ⟨hinv, hhidden.steady.trans hsteady, hkeeps.trans hrest⟩

/-! ### Calls -/

/-- The list of users that is read names the user, if it can be read. -/
def Listed (env : Environment) (w : World) (user : ℤ) : Prop :=
  0 ≤ (env.loginLists w.clock).1 → ∃ k, (env.loginLists w.clock).2 k = user

theorem refresh_spec (env : Environment) (h : Inv w) :
    Inv (refresh env w).2 ∧ Steady w (refresh env w).2 ∧ Keeps (Listed env w) w (refresh env w).2 := by
  rw [refresh]
  split
  · exact ⟨h, .refl w, .refl _ w⟩
  · next hinit =>
    have hinit' : w.tick.initialized = true := not_not.mp hinit
    dsimp only
    split
    · obtain ⟨hinv, hsteady, hkeeps⟩ := hideSlots_spec env (List.finRange 4) h.tick
      exact ⟨hinv, ⟨hsteady.initialized, hsteady.initialUser⟩, hkeeps.mono fun _ _ => trivial⟩
    · next hrc =>
      obtain ⟨hinv, hsteady, hkeeps⟩ := retireSlots_spec env
        (ordered w.tick.initialUser (env.loginLists w.clock).2) (List.finRange 4) 0 h.tick
      generalize retireSlots env (ordered w.tick.initialUser (env.loginLists w.clock).2)
        (List.finRange 4) 0 w.tick = result at hinv hsteady hkeeps
      obtain ⟨failure, w₁⟩ := result
      dsimp only at hinv hsteady hkeeps ⊢
      obtain ⟨hinv', hsteady', hkeeps'⟩ := assignSlots_spec env
        ((List.finRange 4).map (ordered w.tick.initialUser (env.loginLists w.clock).2)) hinv
        (hsteady.initialized.trans hinit')
      have hlisted : Keeps (Listed env w) w w₁ :=
        Keeps.mono (w := w) hkeeps fun user hlisted => exists_ordered (hlisted (Int.not_lt.mp hrc))
      have hboth := hsteady.trans hsteady'
      exact ⟨hinv', ⟨hboth.initialized, hboth.initialUser⟩, hlisted.trans (hkeeps'.mono fun _ _ => trivial)⟩

/-- Only a list that is read while the pads are not in use fails, and then no slot has a handle. -/
theorem initializePads_inv (env : Environment) (h : Inv w) :
    Inv (initializePads env w).2 ∧
      (w.initialized = true → (initializePads env w).2 = w) := by
  rw [initializePads, queryInitialUser]
  cases hinit : w.initialized with
  | true => exact ⟨h, fun _ => rfl⟩
  | false =>
    refine ⟨?_, nofun⟩
    have hidle := h.idle hinit
    simp only [Bool.false_eq_true, if_false]
    have hqueried : Inv { w.tick with initialUser :=
        (env.initialUsers w.clock).2.getD w.initialUser } :=
      ⟨h.safe, h.phases, h.motors, h.distinct, h.hidden, h.empty, h.idle⟩
    split
    · exact hqueried
    · split
      · exact hqueried.tick
      · have hready : Inv { { w.tick with initialUser :=
            (env.initialUsers w.clock).2.getD w.initialUser }.tick with initialized := true } :=
          ⟨h.safe, h.phases, h.motors, h.distinct, h.hidden, h.empty, nofun⟩
        have hrefreshed := (refresh_spec env hready).1
        split
        · exact close_inv env hrefreshed
        · exact hrefreshed

/-- A change of one slot that keeps its handle. -/
theorem keeps_setSlot (P : ℤ → Prop) (w : World) (s : PadSlot)
    (hsame : SameHandle (w.slots slot) s) : Keeps P w (w.setSlot slot s) := fun i _ _ =>
  forall_setSlot (P := fun i => SameHandle (w.slots i)) (fun _ _ => .refl _) hsame i

theorem readSlot_spec (env : Environment) (h : Inv w) (slot : Fin 4) :
    Inv (readSlot env w slot) ∧ Steady w (readSlot env w slot) ∧
      Keeps (fun _ => True) w (readSlot env w slot) := by
  have hcleared : Inv (w.setSlot slot { w.slots slot with sample := .none }) := by
    refine h.setSlot ⟨rfl, rfl, rfl⟩ rfl (fun _ => rfl) fun hneg => ?_
    have hslot : (w.slots slot).handle < 0 := hneg
    rw [h.empty slot hslot]
    rfl
  have hsteady : Steady w (w.setSlot slot { w.slots slot with sample := .none }) := ⟨rfl, rfl⟩
  have hkept : Keeps (fun _ => True) w (w.setSlot slot { w.slots slot with sample := .none }) :=
    keeps_setSlot _ w _ ⟨rfl, rfl, rfl⟩
  rw [readSlot]
  generalize w.setSlot slot { w.slots slot with sample := .none } = w₁ at hcleared hsteady hkept
  dsimp only
  split
  · exact ⟨hcleared, hsteady, hkept⟩
  · next hreadable =>
    obtain ⟨_, hreadable⟩ := not_or.mp hreadable
    obtain ⟨hhandle, hsigned⟩ := not_or.mp hreadable
    generalize (if 0 ≤ (env.reads w₁.clock).1 then decodePadSample (env.reads w₁.clock).2.1
      else PadSample.none) = sample
    generalize (env.reads w₁.clock).1 = rc
    have hinv : Inv (w₁.tick.setSlot slot
        { w₁.slots slot with readResult := rc, sample := sample }) :=
      hcleared.tick.setSlot ⟨rfl, rfl, rfl⟩ rfl
        (fun hout => absurd (not_not.mp hsigned) (Bool.not_eq_true _ ▸ hout))
        fun hneg => absurd hneg hhandle
    have hsteady' : Steady w (w₁.tick.setSlot slot
        { w₁.slots slot with readResult := rc, sample := sample }) := hsteady.trans ⟨rfl, rfl⟩
    have hkeeps : Keeps (fun _ => True) w (w₁.tick.setSlot slot
        { w₁.slots slot with readResult := rc, sample := sample }) :=
      hkept.trans (keeps_setSlot (fun _ => True) w₁.tick
        { w₁.slots slot with readResult := rc, sample := sample } ⟨rfl, rfl, rfl⟩)
    split
    · obtain ⟨hone, hslot, _⟩ := stopSlot_spec env hinv slot
      refine ⟨hone.inv, hsteady'.trans hone.steady, hkeeps.trans (hone.keeps fun _ => ?_)⟩
      rw [hslot]
      exact ⟨rfl, rfl, rfl⟩
    · exact ⟨hinv, hsteady', hkeeps⟩

theorem read_spec (env : Environment) (h : Inv w) :
    Inv (read env w) ∧ Steady w (read env w) ∧ Keeps (fun _ => True) w (read env w) := by
  rw [read]
  generalize List.finRange 4 = slots
  induction slots generalizing w with
  | nil => exact ⟨h, .refl w, .refl _ w⟩
  | cons first rest ih =>
    obtain ⟨hinv, hsteady, hkeeps⟩ := readSlot_spec env h first
    obtain ⟨hrest, hsteady', hkeeps'⟩ := ih hinv
    exact ⟨hrest, hsteady.trans hsteady', hkeeps.trans hkeeps'⟩

/-- All slots are as they were, but for their motors. -/
def SameButMotors (w w' : World) : Prop :=
  ∀ slot, w'.slots slot = { w.slots slot with vibrating := (w'.slots slot).vibrating }

theorem vibrate_spec (env : Environment) (h : Inv w) (slot : ℕ) (low high : UInt8) :
    Inv (vibrate env w slot low high).2 ∧ Steady w (vibrate env w slot low high).2 ∧
      SameButMotors w (vibrate env w slot low high).2 := by
  rw [vibrate]
  split
  · exact ⟨h, .refl w, fun _ => rfl⟩
  · split
    · next hslot =>
      split
      · exact ⟨h, .refl w, fun _ => rfl⟩
      · next hready =>
        obtain ⟨hone, hleft⟩ :=
          setVibration_spec env h (Int.not_lt.mp (not_or.mp hready).1) low high
        refine ⟨hone.inv, hone.steady, fun other => ?_⟩
        by_cases hother : other = ⟨slot, hslot⟩
        · subst hother
          rw [hleft]
        · rw [hone.others other hother]
    · exact ⟨h, .refl w, fun _ => rfl⟩

theorem firstFailure_nonpos {failure result : ℤ} (h : failure ≤ 0) :
    firstFailure failure result ≤ 0 := by
  rw [firstFailure]
  split
  · next hboth => exact hboth.1.le
  · exact h

theorem closeSlots_nonpos (env : Environment) (slots : List (Fin 4)) {failure : ℤ}
    (h : failure ≤ 0) (w : World) : (closeSlots env slots failure w).1 ≤ 0 := by
  induction slots generalizing failure w with
  | nil => exact h
  | cons first rest ih => exact ih (firstFailure_nonpos h) _

/-- The pads are in use after they are closed only where they were before and closing failed. -/
theorem close_initialized (env : Environment) (h : Inv w)
    (hclosed : (close env w).2.initialized = true) :
    w.initialized = true ∧ (close env w).1 < 0 := by
  have hnonpos := closeSlots_nonpos env (List.finRange 4) le_rfl w
  have hsteady := (closeSlots_spec env (List.finRange 4) 0 h).2.1
  rw [close] at hclosed ⊢
  dsimp only at hclosed ⊢
  split at hclosed
  · exact absurd hclosed Bool.false_ne_true
  · next hfailure => exact ⟨hsteady.initialized.symm.trans hclosed, lt_of_le_of_ne hnonpos hfailure⟩

/-! ### Runs -/

theorem step_inv (env : Environment) (h : Inv w) (call : Call) : Inv (step env w call) := by
  cases call with
  | initializePads => exact (initializePads_inv env h).1
  | refresh => exact (refresh_spec env h).1
  | read => exact (read_spec env h).1
  | vibrate slot low high => exact (vibrate_spec env h slot low high).1
  | close => exact close_inv env h

theorem run_inv (env : Environment) (h : Inv w) (calls : List Call) : Inv (run env w calls) := by
  rw [run]
  induction calls generalizing w with
  | nil => exact h
  | cons call calls ih => exact ih (step_inv env h call)

theorem start_inv : Inv .start where
  safe := trivial
  phases _ := rfl
  motors _ := rfl
  distinct _ _ hi := absurd hi (by decide : ¬ (0 : ℤ) ≤ -1)
  hidden _ _ := rfl
  empty _ _ := rfl
  idle _ _ := (by decide : (-1 : ℤ) < 0)

/-- A user is in every list that is read, and the pads are not closed. -/
def StaysSignedIn (env : Environment) (user : ℤ) : World → List Call → Prop
  | _, [] => True
  | w, call :: calls => (match call with
      | .refresh => Listed env w user
      | .close => False
      | _ => True) ∧ StaysSignedIn env user (step env w call) calls

theorem step_keeps (env : Environment) (h : Inv w) {slot : Fin 4} {call : Call}
    {calls : List Call} (hhandle : 0 ≤ (w.slots slot).handle)
    (hstays : StaysSignedIn env (w.slots slot).user w (call :: calls)) :
    SameHandle (w.slots slot) ((step env w call).slots slot) := by
  obtain ⟨hcall, _⟩ := hstays
  cases call with
  | initializePads =>
    have hinit : w.initialized = true := by
      by_contra hno
      exact absurd (h.idle (Bool.not_eq_true _ ▸ hno) slot) (Int.not_lt.mpr hhandle)
    rw [step, (initializePads_inv env h).2 hinit]
    exact .refl _
  | refresh => exact (refresh_spec env h).2.2 slot hhandle hcall
  | read => exact (read_spec env h).2.2 slot hhandle trivial
  | vibrate i low high =>
    rw [step, (vibrate_spec env h i low high).2.2 slot]
    exact ⟨rfl, rfl, rfl⟩
  | close => exact hcall.elim

theorem run_keeps (env : Environment) (h : Inv w) {slot : Fin 4} {calls : List Call}
    (hhandle : 0 ≤ (w.slots slot).handle)
    (hstays : StaysSignedIn env (w.slots slot).user w calls) :
    SameHandle (w.slots slot) ((run env w calls).slots slot) := by
  rw [run]
  induction calls generalizing w with
  | nil => exact .refl _
  | cons call calls ih =>
    have hfirst := step_keeps env h hhandle hstays
    refine hfirst.trans (ih (step_inv env h call) (hfirst.handle ▸ hhandle) ?_)
    rw [hfirst.user]
    exact hstays.2

/-- What holds after any calls: everything that happened was safe, each slot has the handle that
was opened for it and was not closed, and its flag says whether its motor runs. -/
structure Protocol (env : Environment) (w : World) : Prop where
  safe : ∀ after e before, w.log = after ++ e :: before → e.Safe before
  held : ∀ slot, phase slot w.log = (w.slots slot).phase
  motor : ∀ slot, motor slot w.log = (w.slots slot).vibrating
  distinct : ∀ i j, 0 ≤ (w.slots i).handle → 0 ≤ (w.slots j).handle →
    (w.slots i).user = (w.slots j).user → i = j
  hidden : ∀ slot, (w.slots slot).signedIn = false → (w.slots slot).sample = .none
  stays : ∀ slot calls, 0 ≤ (w.slots slot).handle →
    StaysSignedIn env (w.slots slot).user w calls →
      SameHandle (w.slots slot) ((run env w calls).slots slot)

/-- Whatever the native services answer, handles are kept and closed by the slots that own them. -/
theorem handle_protocol (env : Environment) (calls : List Call) :
    Protocol env (run env .start calls) := by
  have hinv := run_inv env start_inv calls
  exact ⟨History.ok_iff.mp hinv.safe, hinv.phases, hinv.motors, hinv.distinct, hinv.hidden,
    fun slot calls hhandle hstays => run_keeps env hinv hhandle hstays⟩

end Input.NativePads
