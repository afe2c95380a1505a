import Mathlib.Algebra.Order.Ring.Int
import MkwiiPs5.Gpu.VideoPresenter

/-!
# What a presenter does to its buffers

The histories of a presenter whose display shows the flips that were submitted to it: which buffers
are drawn, and what is in a buffer that is flipped.
-/

namespace Gpu.VideoPresenter

/-! ### Histories -/

/-- The buffers that were handed to the display. -/
def flipped : List Event → List ℤ
  | [] => []
  | .flip slot _ _ _ :: past => slot :: flipped past
  | _ :: past => flipped past

/-- The buffers of the flips that were not seen on the screen yet. -/
def unretired : List Event → List ℤ
  | [] => []
  | .flip slot _ _ _ :: past => slot :: unretired past
  | .retired slot :: past => (unretired past).erase slot
  | _ :: past => unretired past

/-- The buffer that was last seen on the screen. -/
def displayed : List Event → Option ℤ
  | [] => none
  | .status status :: _ => some status.current
  | _ :: past => displayed past

/-- The display shows no buffer that was not handed to it. -/
def Event.Honest : Event → List Event → Prop
  | .status shown, past => shown.current = 0 ∨ shown.current = 1 → shown.current ∈ flipped past
  | _, _ => True

/-- A failure after which a presenter is of no more use. Arguments that are refused, and a wait for
the display that is broken off, leave it as it is. -/
def Failure.latched : Failure → Bool
  | .invalidArgument _ => false
  | .waitSlice => false
  | _ => true

/-- Some failure of the given kind happened. -/
def Broken (latched : Failure → Bool) (past : List Event) : Prop :=
  ∃ failure, Event.threw failure ∈ past ∧ latched failure = true

/-- Every pixel of a buffer outside a rectangle is opaque black. -/
def Black (width height : ℕ) (rect : BlitRect) (pixels : Pixels) : Prop :=
  ∀ x < width, ∀ y < height, ¬ rect.Contains x y → pixels x y = opaqueBlack

/-- A buffer that may be drawn. -/
structure Free (latched : Failure → Bool) (slot : ℤ) (past : List Event) : Prop where
  hidden : displayed past ≠ some slot
  unnamed : slot ∉ unretired past
  unbroken : ¬ Broken latched past

/-- A buffer that may be flipped. -/
structure Complete (latched : Failure → Bool) (width height : ℕ) (slot : ℤ) (rect : BlitRect)
    (pixels : Pixels) (past : List Event) : Prop where
  free : Free latched slot past
  alone : unretired past = []
  black : Black width height rect pixels

/-- What may be done to the buffers, where a failure of the given kind is final. -/
def Event.Safe (latched : Failure → Bool) (width height : ℕ) : Event → List Event → Prop
  | .clear slot _ _, past => Free latched slot past
  | .copy slot _ _ _ _, past => Free latched slot past
  | .flip slot _ rect pixels, past => Complete latched width height slot rect pixels past
  | _, _ => True

theorem honest_displayed {log : List Event} (h : History.Ok Event.Honest log) {slot : ℤ}
    (hslot : slot = 0 ∨ slot = 1) (hshown : displayed log = some slot) : slot ∈ flipped log := by
  induction log with
  | nil => exact absurd hshown nofun
  | cons e past ih =>
    cases e with
    | status status =>
      obtain rfl := Option.some.inj hshown
      exact h.1 hslot
    | flip slot' arg rect pixels => exact List.mem_cons_of_mem _ (ih h.2 hshown)
    | clear slot' rect bgra => exact ih h.2 hshown
    | copy slot' source sourceRect rect linear => exact ih h.2 hshown
    | finish => exact ih h.2 hshown
    | retired slot' => exact ih h.2 hshown
    | closed rc => exact ih h.2 hshown
    | threw failure => exact ih h.2 hshown

/-- A flip is submitted only when none is outstanding. -/
theorem unretired_length {latched : Failure → Bool} {width height : ℕ} {log : List Event}
    (h : History.Ok (Event.Safe latched width height) log) : (unretired log).length ≤ 1 := by
  induction log with
  | nil => exact Nat.zero_le 1
  | cons e past ih =>
    cases e with
    | flip slot arg rect pixels =>
      have halone : unretired past = [] := h.1.alone
      rw [unretired, halone]
      exact le_rfl
    | retired slot => exact List.length_erase_le.trans (ih h.2)
    | status shown => exact ih h.2
    | clear slot rect bgra => exact ih h.2
    | copy slot source sourceRect rect linear => exact ih h.2
    | finish => exact ih h.2
    | closed rc => exact ih h.2
    | threw failure => exact ih h.2

theorem broken_cons {latched : Failure → Bool} {e : Event} {past : List Event} :
    Broken latched (e :: past) ↔
      (∃ failure, e = .threw failure ∧ latched failure = true) ∨ Broken latched past := by
  constructor
  · rintro ⟨failure, hmem, hlatched⟩
    rcases List.mem_cons.mp hmem with rfl | hmem
    · exact Or.inl ⟨failure, rfl, hlatched⟩
    · exact Or.inr ⟨failure, hmem, hlatched⟩
  · rintro (⟨failure, rfl, hlatched⟩ | ⟨failure, hmem, hlatched⟩)
    · exact ⟨failure, List.mem_cons_self, hlatched⟩
    · exact ⟨failure, List.mem_cons_of_mem _ hmem, hlatched⟩

/-! ### The invariant -/

variable {α : Type*} {A : AspectArithmetic α} {env : Environment} {W H : ℕ} {w w' : World}

/-- A presenter that may still draw. -/
structure Impl.Usable (p : Impl) : Prop where
  handle : 0 ≤ p.handle
  failed : p.failed = false
  serial : p.serial ≠ 2 ^ 63 - 1

/-- What a presenter that may still draw knows of its buffers. -/
structure Live (W H : ℕ) (w : World) : Prop where
  unbroken : ¬ Broken Failure.latched w.log
  pending : w.presenter.outstanding = true → unretired w.log = [w.presenter.outstandingSlot]
  idle : w.presenter.outstanding = false → unretired w.log = []
  fresh : w.presenter.serial = 0 → flipped w.log = []
  kept : ∀ slot, w.presenter.previousRect slot = ⟨0, 0, 0, 0⟩ ∨
    Black W H (w.presenter.previousRect slot) (w.pixels slot)

structure Inv (W H : ℕ) (w : World) : Prop where
  width : w.presenter.width = W
  height : w.presenter.height = H
  safe : History.Ok Event.Honest w.log → History.Ok (Event.Safe Failure.latched W H) w.log
  live : w.presenter.Usable → Live W H w

/-- Events that are neither flips nor what follows one. -/
structure Event.Neutral (W H : ℕ) (e : Event) (past : List Event) : Prop where
  safe : History.Ok Event.Honest past → e.Safe Failure.latched W H past
  unretired : unretired (e :: past) = unretired past
  flipped : flipped (e :: past) = flipped past

theorem Inv.note {e : Event} (h : Inv W H w) (hneutral : e.Neutral W H w.log)
    (hthrew : ∀ failure, e = .threw failure → failure.latched = true → ¬ w.presenter.Usable) :
    Inv W H (w.note e) where
  width := h.width
  height := h.height
  safe honest := ⟨hneutral.safe honest.2, h.safe honest.2⟩
  live husable := by
    have hlive := h.live husable
    refine ⟨?_, ?_, ?_, ?_, hlive.kept⟩
    · intro hbroken
      rcases broken_cons.mp hbroken with ⟨failure, rfl, hlatched⟩ | hbroken
      · exact hthrew failure rfl hlatched husable
      · exact hlive.unbroken hbroken
    · exact fun hout => hneutral.unretired.trans (hlive.pending hout)
    · exact fun hout => hneutral.unretired.trans (hlive.idle hout)
    · exact fun hserial => hneutral.flipped.trans (hlive.fresh hserial)

theorem neutral_status (status : FlipStatus) (past : List Event) :
    (Event.status status).Neutral W H past := ⟨fun _ => trivial, rfl, rfl⟩

theorem neutral_closed (rc : ℤ) (past : List Event) : (Event.closed rc).Neutral W H past :=
  ⟨fun _ => trivial, rfl, rfl⟩

theorem neutral_threw (failure : Failure) (past : List Event) :
    (Event.threw failure).Neutral W H past := ⟨fun _ => trivial, rfl, rfl⟩

theorem Inv.tick (h : Inv W H w) : Inv W H w.tick :=
  ⟨h.width, h.height, h.safe, fun husable => ⟨(h.live husable).unbroken,
    (h.live husable).pending, (h.live husable).idle, (h.live husable).fresh,
    (h.live husable).kept⟩⟩

theorem Impl.Usable.fail {w : World} : ¬ w.fail.presenter.Usable :=
  fun h => absurd h.failed nofun

/-- A presenter whose latch is set need not know anything. -/
theorem Inv.latch (h : Inv W H w) {w' : World} (hlog : w'.log = w.log)
    (hwidth : w'.presenter.width = w.presenter.width)
    (hheight : w'.presenter.height = w.presenter.height) (hlatched : ¬ w'.presenter.Usable) :
    Inv W H w' where
  width := hwidth.trans h.width
  height := hheight.trans h.height
  safe := hlog ▸ h.safe
  live husable := absurd husable hlatched

theorem Inv.fail (h : Inv W H w) : Inv W H w.fail := h.latch rfl rfl rfl Impl.Usable.fail

theorem Inv.throw (h : Inv W H w) {β : Type} {failure : Failure} {Q : β → World → Prop}
    (hlatched : failure.latched = true → ¬ w.presenter.Usable) :
    (w.throw failure : Result β).Post Q (Inv W H) := by
  refine Attempt.post_error (h.note (neutral_threw _ _) ?_)
  rintro _ ⟨⟩ hlatch
  exact hlatched hlatch

theorem Inv.fail_throw (h : Inv W H w) {β : Type} {failure : Failure} {Q : β → World → Prop} :
    (w.fail.throw failure : Result β).Post Q (Inv W H) :=
  h.fail.throw fun _ => Impl.Usable.fail

/-! ### Retirement -/

/-- A flip was retired and nothing else changed. -/
structure Retired (w w' : World) : Prop where
  outstanding : w'.presenter.outstanding = false
  handle : w'.presenter.handle = w.presenter.handle
  failed : w'.presenter.failed = w.presenter.failed

theorem Inv.retired (h : Inv W H w) (hout : w.presenter.outstanding = true) (status : FlipStatus) :
    Inv W H ((w.update (·.retired status)).note (.retired w.presenter.outstandingSlot)) where
  width := h.width
  height := h.height
  safe honest := ⟨trivial, h.safe honest.2⟩
  live husable := by
    have hlive := h.live ⟨husable.handle, husable.failed, husable.serial⟩
    refine ⟨?_, nofun, ?_, hlive.fresh, hlive.kept⟩
    · intro hbroken
      rcases broken_cons.mp hbroken with ⟨failure, hthrew, _⟩ | hbroken
      · exact absurd hthrew nofun
      · exact hlive.unbroken hbroken
    · intro _
      have herase : (unretired w.log).erase w.presenter.outstandingSlot = [] := by
        rw [hlive.pending hout, List.erase_cons_head]
      exact herase

theorem retireAttempts_post (attempts : ℕ) (h : Inv W H w)
    (hout : w.presenter.outstanding = true) :
    (retireAttempts env attempts w).Post (fun _ w' => Inv W H w' ∧ Retired w w') (Inv W H) := by
  induction attempts generalizing w with
  | zero => exact h.fail_throw
  | succ attempts ih =>
    rw [retireAttempts, getFlipStatus]
    cases env.status w.clock with
    | none => exact h.tick.fail_throw
    | some status =>
      have hnoted := h.tick.note (neutral_status status w.log) nofun
      dsimp only
      split
      · exact ⟨hnoted.retired hout status, rfl, rfl, rfl⟩
      · split
        · exact (ih hnoted.tick hout).mono fun _ _ hpost =>
            ⟨hpost.1, hpost.2.1, hpost.2.2, hpost.2.3⟩
        · exact hnoted.tick.throw nofun

theorem retire_post (h : Inv W H w) (hout : w.presenter.outstanding = true) :
    (retire env w).Post (fun _ w' => Inv W H w' ∧ Retired w w') (Inv W H) := by
  rw [retire, if_neg (not_not.mpr hout)]
  exact retireAttempts_post 5000 h hout

theorem retireBefore_post (h : Inv W H w) :
    (retireBefore env w).Post (fun _ w' => Inv W H w' ∧ Retired w w') (Inv W H) := by
  rw [retireBefore]
  split
  · next hout => exact (retire_post h hout).andThen fun _ _ hpost => Attempt.post_ok hpost
  · next hout => exact Attempt.post_ok ⟨h, Bool.not_eq_true _ ▸ hout, rfl, rfl⟩

/-! ### Requests -/

theorem fit_present_rect_cases (width height : ℕ) (aspect : α) :
    fit_present_rect A width height aspect =
        .error (.invalidArgument "Invalid presentation size/aspect") ∨
      ∃ rect, fit_present_rect A width height aspect = .ok rect ∧ 0 < rect.width := by
  rw [fit_present_rect]
  split
  · exact Or.inl rfl
  · next hsize =>
    refine Or.inr ⟨_, rfl, ?_⟩
    dsimp only
    split
    · rw [extent]
      omega
    · omega

/-- A request that is refused for good is one whose serial is exhausted. -/
theorem checkRequest_error {p : Impl} {source : Option Image} {aspect : α} {failure : Failure}
    (h : checkRequest A p source aspect = .error failure) (hlatched : failure.latched = true) :
    p.serial = 2 ^ 63 - 1 := by
  unfold checkRequest at h
  split at h
  · obtain rfl := Except.error.inj h
    exact absurd hlatched nofun
  · split at h
    · obtain rfl := Except.error.inj h
      exact absurd hlatched nofun
    · rcases fit_present_rect_cases (A := A) p.width p.height aspect with hfit | ⟨rect, hfit, _⟩
      · rw [hfit] at h
        obtain rfl := Except.error.inj h
        exact absurd hlatched nofun
      · rw [hfit] at h
        dsimp only at h
        split_ifs at h with halias hserial
        · obtain rfl := Except.error.inj h
          exact absurd hlatched nofun
        · exact hserial

theorem checkRequest_ok {p : Impl} {source : Option Image} {aspect : α} {data : ℕ} {image : Image}
    {rect : BlitRect} (h : checkRequest A p source aspect = .ok (data, image, rect)) :
    p.serial ≠ 2 ^ 63 - 1 ∧ 0 < rect.width := by
  unfold checkRequest at h
  split at h
  · exact absurd h nofun
  · split at h
    · exact absurd h nofun
    · rcases fit_present_rect_cases (A := A) p.width p.height aspect with hfit | ⟨rect', hfit, hwidth⟩
      · rw [hfit] at h
        exact absurd h nofun
      · rw [hfit] at h
        dsimp only at h
        split_ifs at h with halias hserial
        obtain ⟨rfl, rfl, rfl⟩ : _ ∧ _ ∧ rect' = rect := by simpa using Except.ok.inj h
        exact ⟨hserial, hwidth⟩

/-! ### Drawing -/

/-- The rectangle that a presenter remembers for a buffer is of use. -/
def Kept (W H : ℕ) (w : World) (slot : ℤ) : Prop :=
  w.presenter.previousRect slot = ⟨0, 0, 0, 0⟩ ∨
    Black W H (w.presenter.previousRect slot) (w.pixels slot)

theorem Kept.congr {slot : ℤ} (h : Kept W H w slot)
    (hrect : w'.presenter.previousRect slot = w.presenter.previousRect slot)
    (hpixels : w'.pixels slot = w.pixels slot) : Kept W H w' slot := by
  rw [Kept, hrect, hpixels]
  exact h

/-- A presenter that is about to draw a buffer, or has drawn in it. -/
structure Ready (W H : ℕ) (slot : ℤ) (w : World) : Prop where
  width : w.presenter.width = W
  height : w.presenter.height = H
  safe : History.Ok Event.Honest w.log → History.Ok (Event.Safe Failure.latched W H) w.log
  usable : w.presenter.Usable
  outstanding : w.presenter.outstanding = false
  hidden : History.Ok Event.Honest w.log → displayed w.log ≠ some slot
  unbroken : ¬ Broken Failure.latched w.log
  idle : unretired w.log = []
  fresh : w.presenter.serial = 0 → flipped w.log = []
  kept : ∀ other, other ≠ slot → Kept W H w other

section Ready

variable {slot : ℤ}

theorem Ready.free (h : Ready W H slot w) (honest : History.Ok Event.Honest w.log) :
    Free Failure.latched slot w.log where
  hidden := h.hidden honest
  unnamed := by
    rw [h.idle]
    exact List.not_mem_nil
  unbroken := h.unbroken

/-- The slot that a presenter chooses is not the one it saw on the screen. -/
theorem observe_post (h : Inv W H w) (husable : w.presenter.Usable)
    (hout : w.presenter.outstanding = false) :
    (observe env w).Post (fun _ w' => Ready W H w'.presenter.slot w' ∧
      Kept W H w' w'.presenter.slot) (Inv W H) := by
  rw [observe, getFlipStatus]
  cases env.status w.clock with
  | none => exact h.tick.fail_throw
  | some before =>
    have hnoted := h.tick.note (neutral_status before w.log) nofun
    dsimp only
    split
    · exact hnoted.fail_throw
    · next hchanged =>
      have hlive := hnoted.live husable
      refine ⟨⟨hnoted.width, hnoted.height, hnoted.safe, husable, hout, ?_, hlive.unbroken,
        hlive.idle hout, hlive.fresh, fun other _ => hlive.kept other⟩, hlive.kept _⟩
      intro honest hshown
      have hcurrent : before.current = w.presenter.slot := Option.some.inj hshown
      by_cases hserial : w.presenter.serial = 0
      · have hflipped := honest_displayed honest (by rw [Impl.slot]; split <;> simp) hshown
        rw [hlive.fresh hserial] at hflipped
        exact List.not_mem_nil hflipped
      · have hsame : before.current = w.presenter.current := by
          by_contra hne
          exact hchanged (decide_eq_true (Or.inr (Or.inr ⟨hserial, Or.inl hne⟩)))
        rw [hsame, Impl.slot] at hcurrent
        split at hcurrent <;> omega

/-- Where the latch is set, it does not matter what was drawn. -/
theorem Ready.latch (h : Ready W H slot w) (hlog : w'.log = w.log)
    (hwidth : w'.presenter.width = w.presenter.width)
    (hheight : w'.presenter.height = w.presenter.height) (hlatched : ¬ w'.presenter.Usable) :
    Inv W H w' where
  width := hwidth.trans h.width
  height := hheight.trans h.height
  safe := hlog ▸ h.safe
  live husable := absurd husable hlatched

theorem Ready.fail_throw (h : Ready W H slot w) {β : Type} {failure : Failure}
    {Q : β → World → Prop} : (w.fail.throw failure : Result β).Post Q (Inv W H) :=
  (h.latch rfl rfl rfl Impl.Usable.fail : Inv W H w.fail).throw fun _ => Impl.Usable.fail

/-- An event of the blitter on the buffer. -/
theorem Ready.note {e : Event} (h : Ready W H slot w)
    (hsafe : Free Failure.latched slot w.log → e.Safe Failure.latched W H w.log)
    (hunretired : unretired (e :: w.log) = unretired w.log)
    (hflipped : flipped (e :: w.log) = flipped w.log)
    (hdisplayed : displayed (e :: w.log) = displayed w.log)
    (hthrew : ∀ failure, e ≠ .threw failure) : Ready W H slot (w.tick.note e) where
  width := h.width
  height := h.height
  safe honest := ⟨hsafe (h.free honest.2), h.safe honest.2⟩
  usable := h.usable
  outstanding := h.outstanding
  hidden honest := hdisplayed ▸ h.hidden honest.2
  unbroken hbroken := by
    rcases broken_cons.mp hbroken with ⟨failure, rfl, _⟩ | hbroken
    · exact hthrew failure rfl
    · exact h.unbroken hbroken
  idle := hunretired.trans h.idle
  fresh hserial := hflipped.trans (h.fresh hserial)
  kept := h.kept

theorem Ready.draw (h : Ready W H slot w) (pixels : Pixels) : Ready W H slot (w.draw slot pixels) :=
  { h with
    kept := by
      intro other hne
      exact (h.kept other hne).congr rfl (Function.update_of_ne hne _ _) }

theorem clearColor_post (h : Ready W H slot w) :
    (clearColor env w slot ⟨0, 0, W, H⟩ opaqueBlack).Post (fun _ w' => Ready W H slot w' ∧
      w'.presenter = w.presenter ∧ ∀ rect, Black W H rect (w'.pixels slot)) (Inv W H) := by
  rw [clearColor]
  have hnoted := h.note (e := .clear slot ⟨0, 0, W, H⟩ opaqueBlack) id rfl rfl rfl nofun
  split
  · refine ⟨hnoted.draw _, rfl, ?_⟩
    intro rect x hx y hy _
    simp only [World.draw, Function.update_self]
    exact if_pos ⟨Nat.zero_le x, by dsimp only; omega, Nat.zero_le y, by dsimp only; omega⟩
  · exact (hnoted.draw _).fail_throw

theorem copyImage_post (h : Ready W H slot w) (source : ℕ) (sourceRect : BlitRect)
    {rect : BlitRect} (linear : Bool) (hblack : Black W H rect (w.pixels slot)) :
    (copyImage env w slot source sourceRect rect linear).Post (fun _ w' => Ready W H slot w' ∧
      w'.presenter = w.presenter ∧ Black W H rect (w'.pixels slot)) (Inv W H) := by
  rw [copyImage]
  have hnoted := h.note (e := .copy slot source sourceRect rect linear) id rfl rfl rfl nofun
  split
  · refine ⟨hnoted.draw _, rfl, ?_⟩
    intro x hx y hy hout
    simp only [World.draw, Function.update_self]
    rw [if_neg hout]
    exact hblack x hx y hy hout
  · exact (hnoted.draw _).fail_throw

theorem finishBlits_post (h : Ready W H slot w) :
    (finishBlits env w).Post (fun _ w' => Ready W H slot w' ∧ w'.presenter = w.presenter ∧
      w'.pixels = w.pixels) (Inv W H) := by
  rw [finishBlits]
  have hnoted := h.note (e := .finish) (fun _ => trivial) rfl rfl rfl nofun
  split
  · exact ⟨hnoted, rfl, rfl⟩
  · exact hnoted.fail_throw

/-- A rectangle of the whole buffer has nothing outside. -/
theorem black_of_full {p : Impl} {rect : BlitRect} (hfull : p.full rect = true) (pixels : Pixels) :
    Black p.width p.height rect pixels := by
  obtain ⟨hx, hy, hwidth, hheight⟩ := of_decide_eq_true hfull
  intro x hx' y hy' hout
  exact absurd ⟨by omega, by omega, by omega, by omega⟩ hout

/-- A buffer whose remembered rectangle is that of the frame needs no clearing. -/
theorem Kept.black {rect : BlitRect} (h : Kept W H w slot)
    (hsame : w.presenter.previousRect slot = rect) (hwidth : 0 < rect.width) :
    Black W H rect (w.pixels slot) := by
  rcases h with hzero | hblack
  · rw [← hsame, hzero] at hwidth
    exact absurd hwidth (Nat.lt_irrefl 0)
  · exact hsame ▸ hblack

theorem drawFrame_post (h : Ready W H slot w) (hkept : Kept W H w slot) (source : ℕ)
    (image : Image) {rect : BlitRect} (hwidth : 0 < rect.width) (linear : Bool) :
    (drawFrame env w slot source image rect linear).Post (fun _ w' => Ready W H slot w' ∧
      Black W H rect (w'.pixels slot) ∧ w'.presenter.previousRect slot = rect) (Inv W H) := by
  rw [drawFrame]
  have hcleared : Attempt.Post (if ¬ w.presenter.full rect ∧ w.presenter.previousRect slot ≠ rect then
      clearColor env w slot ⟨0, 0, w.presenter.width, w.presenter.height⟩ opaqueBlack
      else (.ok (), w)) (fun _ w' => Ready W H slot w' ∧ Black W H rect (w'.pixels slot))
      (Inv W H) := by
    split
    · rw [h.width, h.height]
      exact (clearColor_post h).mono fun _ _ hpost => ⟨hpost.1, hpost.2.2 rect⟩
    · next hskip =>
      refine Attempt.post_ok ⟨h, ?_⟩
      by_cases hfull : w.presenter.full rect = true
      · have hblack := black_of_full hfull (w.pixels slot)
        rwa [h.width, h.height] at hblack
      · exact hkept.black (by_contra fun hne => hskip ⟨hfull, hne⟩) hwidth
  refine hcleared.andThen fun _ w₁ h₁ => ?_
  refine (copyImage_post h₁.1 source _ linear h₁.2).andThen fun _ w₂ h₂ => ?_
  refine (finishBlits_post h₂.1).andThen fun _ w₃ h₃ => ?_
  refine Attempt.post_ok ⟨?_, ?_, Function.update_self ..⟩
  · have husable := h₃.1.usable
    refine { h₃.1 with usable := ⟨husable.handle, husable.failed, husable.serial⟩, kept := ?_ }
    intro other hne
    exact (h₃.1.kept other hne).congr (Function.update_of_ne hne _ _) rfl
  · exact h₃.2.2 ▸ h₂.2.2

/-! ### Flipping -/

theorem waitDeadline_post (h : Inv W H w) (hlatched : ¬ w.presenter.Usable) (deadline : ℕ) :
    (waitDeadline env w deadline).Post (fun _ w' => w'.presenter = w.presenter ∧
      w'.pixels = w.pixels ∧ w'.log = w.log) (Inv W H) := by
  rw [waitDeadline]
  split
  · exact Attempt.post_ok ⟨rfl, rfl, rfl⟩
  · split
    · exact Attempt.post_ok ⟨rfl, rfl, rfl⟩
    · exact h.tick.throw fun _ => hlatched

/-- The flip of a buffer that was drawn, with the latch set. -/
theorem Ready.flip (h : Ready W H slot w) {rect : BlitRect}
    (hblack : Black W H rect (w.pixels slot)) {w' : World} (hlog : w'.log = w.log)
    (hwidth : w'.presenter.width = w.presenter.width)
    (hheight : w'.presenter.height = w.presenter.height) (hlatched : ¬ w'.presenter.Usable)
    (serial : ℕ) : Inv W H (w'.note (.flip slot serial rect (w.pixels slot))) where
  width := hwidth.trans h.width
  height := hheight.trans h.height
  safe honest := by
    rw [World.note, hlog] at honest ⊢
    exact ⟨⟨h.free honest.2, h.idle, hblack⟩, h.safe honest.2⟩
  live husable := absurd husable hlatched

theorem submitFlip_post (h : Ready W H slot w) {rect : BlitRect}
    (hblack : Black W H rect (w.pixels slot)) (hrect : w.presenter.previousRect slot = rect)
    (before : FlipStatus) (deadline : ℕ) :
    (submitFlip env w slot before rect deadline).Post (fun _ w' => Inv W H w' ∧
      w'.presenter.outstanding = true) (Inv W H) := by
  rw [submitFlip]
  -- the latch is set before the wait, and taken back only when the display took the flip
  let w₁ := w.update fun p => { p with serial := p.serial + 1, failed := true }
  have hlatched : ¬ w₁.presenter.Usable := fun husable => absurd husable.failed nofun
  have h₁ : Inv W H w₁ := h.latch rfl rfl rfl hlatched
  refine (waitDeadline_post h₁ hlatched deadline).andThen fun _ w₂ h₂ => ?_
  obtain ⟨hpresenter, hpixels, hlog⟩ := h₂
  dsimp only
  rw [hpresenter, hpixels]
  have hlatched₂ : ¬ w₂.tick.presenter.Usable := by
    rw [World.tick, hpresenter]
    exact hlatched
  have hwidth : w₂.presenter.width = w.presenter.width := (congrArg Impl.width hpresenter).trans rfl
  have hheight : w₂.presenter.height = w.presenter.height := (congrArg Impl.height hpresenter).trans rfl
  have hflipped := @Ready.flip W H w slot h rect hblack w₂.tick hlog hwidth hheight hlatched₂
    w₁.presenter.serial
  split
  · exact hflipped.throw fun _ => hlatched₂
  · refine Attempt.post_ok ⟨⟨hflipped.width, hflipped.height, hflipped.safe, ?_⟩, rfl⟩
    intro husable
    have hlog' : w₂.tick.log = w.log := hlog
    refine ⟨?_, ?_, nofun, ?_, ?_⟩
    · intro hbroken
      rw [World.update, World.note, hlog', broken_cons] at hbroken
      rcases hbroken with ⟨failure, hthrew, _⟩ | hbroken
      · exact absurd hthrew nofun
      · exact h.unbroken hbroken
    · intro _
      rw [World.update, World.note, hlog', unretired, h.idle]
    · intro hserial
      have hnext : w₂.presenter.serial = 0 := hserial
      rw [hpresenter] at hnext
      exact absurd hnext (Nat.succ_ne_zero _)
    · intro other
      have hprevious : w₂.presenter.previousRect other = w.presenter.previousRect other := by
        rw [hpresenter]
        rfl
      -- the buffer that is shown now has the new rectangle, and the other one is not touched
      by_cases hother : other = slot
      · subst hother
        refine Or.inr ?_
        have hkept : Black W H (w₂.presenter.previousRect other) (w₂.pixels other) := by
          rw [hprevious, hpixels, hrect]
          exact hblack
        exact hkept
      · have hkept : Kept W H w₂ other :=
          (h.kept other hother).congr hprevious (congrFun hpixels other)
        exact hkept

end Ready

/-! ### Calls and runs -/

theorem submitRetired_post (h : Inv W H w) (hhandle : 0 ≤ w.presenter.handle)
    (hfailed : w.presenter.failed = false) (hout : w.presenter.outstanding = false)
    (source : Option Image) (aspect : α) (linear : Bool) (deadline : ℕ) :
    (submitRetired A env w source aspect linear deadline).Post (fun _ w' => Inv W H w' ∧
      w'.presenter.outstanding = true) (Inv W H) := by
  rw [submitRetired]
  cases hcheck : checkRequest A w.presenter source aspect with
  | error failure =>
    exact h.throw fun hlatched husable => husable.serial (checkRequest_error hcheck hlatched)
  | ok request =>
    obtain ⟨data, image, rect⟩ := request
    obtain ⟨hserial, hwidth⟩ := checkRequest_ok hcheck
    have husable : w.presenter.Usable := ⟨hhandle, hfailed, hserial⟩
    refine (observe_post h husable hout).andThen fun before w₁ h₁ => ?_
    refine (drawFrame_post h₁.1 h₁.2 data image hwidth linear).andThen fun _ w₂ h₂ => ?_
    exact submitFlip_post h₂.1 h₂.2.1 h₂.2.2 before deadline

theorem submit_post (h : Inv W H w) (source : Option Image) (aspect : α) (linear : Bool)
    (deadline : ℕ) : (submit A env w source aspect linear deadline).Post (fun _ w' => Inv W H w' ∧
      w'.presenter.outstanding = true) (Inv W H) := by
  rw [submit]
  split
  · next hrefused =>
    refine h.throw fun _ husable => ?_
    rcases hrefused with hhandle | hfailed
    · exact absurd husable.handle (not_le.mpr hhandle)
    · exact absurd (husable.failed.symm.trans hfailed) nofun
  · next hrefused =>
    obtain ⟨hhandle, hfailed⟩ := not_or.mp hrefused
    refine (retireBefore_post h).andThen fun _ w₁ h₁ => ?_
    obtain ⟨h₁, hretired⟩ := h₁
    exact submitRetired_post h₁ (hretired.handle ▸ not_lt.mp hhandle)
      (hretired.failed.trans (Bool.not_eq_true _ ▸ hfailed)) hretired.outstanding source aspect
      linear deadline

theorem present_post (h : Inv W H w) (source : Option Image) (aspect : α) (linear : Bool)
    (deadline : ℕ) :
    (present A env w source aspect linear deadline).Post (fun _ w' => Inv W H w') (Inv W H) :=
  (submit_post h source aspect linear deadline).andThen fun _ _ hpost =>
    (retire_post hpost.1 hpost.2).mono fun _ _ hretired => hretired.1

/-! ### The owners of the scan-out buffers -/

/-- VideoOut and the buffers are as they were. -/
structure Impl.Steady (p p' : Impl) : Prop where
  handle : p'.handle = p.handle
  buffers : p'.buffers = p.buffers

theorem Impl.Steady.refl (p : Impl) : p.Steady p := ⟨rfl, rfl⟩

theorem Impl.Steady.trans {p p' p'' : Impl} (h : p.Steady p') (h' : p'.Steady p'') : p.Steady p'' :=
  ⟨h'.handle.trans h.handle, h'.buffers.trans h.buffers⟩

/-- A call that keeps VideoOut and the buffers, also where it throws. -/
def Steadies {β : Type} (w : World) (r : Result β) : Prop :=
  r.Post (fun _ w' => w.presenter.Steady w'.presenter) fun w' => w.presenter.Steady w'.presenter

theorem Steadies.after {β : Type} {w' : World} {r : Result β} (h : Steadies w' r)
    (hsteady : w.presenter.Steady w'.presenter) : Steadies w r :=
  Attempt.Post.imp h (fun _ _ => hsteady.trans) fun _ => hsteady.trans

theorem Steadies.andThen {β γ : Type} {r : Result β} {f : β → World → Result γ}
    (h : Steadies w r) (hf : ∀ b w', Steadies w' (f b w')) : Steadies w (r.andThen f) :=
  Attempt.Post.andThen h fun b w' hsteady => (hf b w').after hsteady

theorem getFlipStatus_presenter (env : Environment) (w : World) :
    (getFlipStatus env w).2.presenter = w.presenter := by
  rw [getFlipStatus]
  split <;> rfl

theorem retireAttempts_steadies (attempts : ℕ) (w : World) :
    Steadies w (retireAttempts env attempts w) := by
  induction attempts generalizing w with
  | zero => exact ⟨rfl, rfl⟩
  | succ attempts ih =>
    rw [retireAttempts, getFlipStatus]
    cases env.status w.clock with
    | none => exact ⟨rfl, rfl⟩
    | some status =>
      dsimp only
      split
      · exact ⟨rfl, rfl⟩
      · split
        · exact ih _
        · exact ⟨rfl, rfl⟩

theorem retire_steadies (w : World) : Steadies w (retire env w) := by
  rw [retire]
  split
  · exact ⟨rfl, rfl⟩
  · exact retireAttempts_steadies 5000 w

theorem retirePending_steadies (w : World) : Steadies w (retirePending env w) := by
  rw [retirePending]
  split
  · exact ⟨rfl, rfl⟩
  · exact (retire_steadies w).andThen fun _ _ => ⟨rfl, rfl⟩

theorem observe_steadies (w : World) : Steadies w (observe env w) := by
  have hpresenter := getFlipStatus_presenter env w
  rw [observe]
  generalize getFlipStatus env w = r at hpresenter
  obtain ⟨_ | before, w'⟩ := r
  · exact ⟨congrArg (·.handle) hpresenter, congrArg (·.buffers) hpresenter⟩
  · have hsteady : w.presenter.Steady w'.presenter :=
      ⟨congrArg (·.handle) hpresenter, congrArg (·.buffers) hpresenter⟩
    dsimp only
    split
    · exact Attempt.post_error ⟨hsteady.handle, hsteady.buffers⟩
    · exact Attempt.post_ok hsteady

theorem drawFrame_steadies (w : World) (slot : ℤ) (source : ℕ) (image : Image) (rect : BlitRect)
    (linear : Bool) : Steadies w (drawFrame env w slot source image rect linear) := by
  have hclear : ∀ rect bgra, Steadies w (clearColor env w slot rect bgra) := by
    intro rect bgra
    rw [clearColor]
    split <;> exact ⟨rfl, rfl⟩
  rw [drawFrame]
  refine Steadies.andThen ?_ fun _ w₁ => ?_
  · split
    · exact hclear _ _
    · exact ⟨rfl, rfl⟩
  have hcopy : Steadies w₁
      (copyImage env w₁ slot source ⟨0, 0, image.width, image.height⟩ rect linear) := by
    rw [copyImage]
    split <;> exact ⟨rfl, rfl⟩
  refine hcopy.andThen fun _ w₂ => ?_
  have hfinish : Steadies w₂ (finishBlits env w₂) := by
    rw [finishBlits]
    split <;> exact ⟨rfl, rfl⟩
  exact hfinish.andThen fun _ _ => ⟨rfl, rfl⟩

theorem submitFlip_steadies (w : World) (slot : ℤ) (before : FlipStatus) (rect : BlitRect)
    (deadline : ℕ) : Steadies w (submitFlip env w slot before rect deadline) := by
  have hwait : ∀ w : World, Steadies w (waitDeadline env w deadline) := by
    intro w
    rw [waitDeadline]
    split
    · exact ⟨rfl, rfl⟩
    · split <;> exact ⟨rfl, rfl⟩
  rw [submitFlip]
  refine Steadies.andThen ((hwait _).after ⟨rfl, rfl⟩) fun _ w₁ => ?_
  dsimp only
  split
  · exact ⟨rfl, rfl⟩
  · exact ⟨rfl, rfl⟩

theorem submit_steadies (w : World) (source : Option Image) (aspect : α) (linear : Bool)
    (deadline : ℕ) : Steadies w (submit A env w source aspect linear deadline) := by
  rw [submit]
  split
  · exact ⟨rfl, rfl⟩
  have hbefore : Steadies w (retireBefore env w) := by
    rw [retireBefore]
    split
    · exact (retire_steadies w).andThen fun _ _ => ⟨rfl, rfl⟩
    · exact ⟨rfl, rfl⟩
  refine hbefore.andThen fun _ w₁ => ?_
  rw [submitRetired]
  split
  · exact ⟨rfl, rfl⟩
  · exact (observe_steadies w₁).andThen fun before w₂ =>
      (drawFrame_steadies w₂ _ _ _ _ linear).andThen fun _ w₃ =>
        submitFlip_steadies w₃ _ before _ deadline

/-- The buffers are kept until VideoOut is closed. -/
theorem close_steady (env : Environment) (w : World) :
    w.presenter.Steady (close env w).2.presenter ∨ (close env w).2.presenter.handle < 0 := by
  rw [close]
  split
  · exact Or.inl ⟨rfl, rfl⟩
  · dsimp only
    split
    · exact Or.inl ⟨rfl, rfl⟩
    · exact Or.inr (neg_one_lt_zero : (-1 : ℤ) < 0)

/-- A submission that returns leaves no latch, whatever happened before. -/
theorem submit_unfailed (w : World) (source : Option Image) (aspect : α) (linear : Bool)
    (deadline : ℕ) : (submit A env w source aspect linear deadline).Post
      (fun _ w' => w'.presenter.failed = false) fun _ => True := by
  rw [submit]
  split
  · trivial
  refine (Attempt.post_true (retireBefore env w)).andThen fun _ w₁ _ => ?_
  rw [submitRetired]
  split
  · trivial
  refine (Attempt.post_true _).andThen fun before w₂ _ => ?_
  refine (Attempt.post_true _).andThen fun _ w₃ _ => ?_
  rw [submitFlip]
  refine (Attempt.post_true _).andThen fun _ w₄ _ => ?_
  dsimp only
  split
  · trivial
  · rfl

theorem retireAttempts_failed (attempts : ℕ) (w : World) : (retireAttempts env attempts w).Post
      (fun _ w' => w'.presenter.failed = w.presenter.failed) fun _ => True := by
  induction attempts generalizing w with
  | zero => trivial
  | succ attempts ih =>
    rw [retireAttempts, getFlipStatus]
    cases env.status w.clock with
    | none => trivial
    | some status =>
      dsimp only
      split
      · rfl
      · split
        · exact ih _
        · trivial

theorem retirePending_failed (w : World) : (retirePending env w).Post
      (fun _ w' => w'.presenter.failed = w.presenter.failed) fun _ => True := by
  rw [retirePending]
  split
  · rfl
  rw [retire]
  split
  · trivial
  · exact (retireAttempts_failed 5000 w).andThen fun _ _ hfailed => hfailed

/-- Where the display is not closed, `close` says so. -/
theorem close_spec (env : Environment) (w : World) :
    (close env w).2.presenter.failed = w.presenter.failed ∧
      ((close env w).1 < 0 ∨ (close env w).2.presenter.handle < 0) := by
  rw [close]
  split
  · next hclosed => exact ⟨rfl, Or.inr hclosed⟩
  · dsimp only
    split
    · next hrc => exact ⟨rfl, Or.inl hrc⟩
    · exact ⟨rfl, Or.inr (neg_one_lt_zero : (-1 : ℤ) < 0)⟩

theorem Inv.close (h : Inv W H w) : Inv W H (close env w).2 := by
  rw [VideoPresenter.close]
  split
  · exact h
  · have hnoted := h.tick.note (neutral_closed (env.close w.clock) w.log) nofun
    dsimp only
    split
    · exact hnoted
    · refine hnoted.latch rfl rfl rfl fun husable => absurd husable.handle ?_
      dsimp only [World.update]
      decide

theorem Inv.step (h : Inv W H w) (call : Call α) : Inv W H (step A env w call) := by
  cases call with
  | submit source aspect linear deadline =>
    exact (submit_post h source aspect linear deadline).left fun _ _ hpost => hpost.1
  | present source aspect linear deadline =>
    exact (present_post h source aspect linear deadline).left fun _ _ hpost => hpost
  | retirePending =>
    rw [VideoPresenter.step, retirePending]
    split
    · exact h
    · next hout =>
      have hpost : Attempt.Post ((retire env w).andThen fun _ w => (.ok true, w))
          (fun _ w' => Inv W H w') (Inv W H) :=
        (retire_post h (not_not.mp hout)).andThen fun _ _ hretired => Attempt.post_ok hretired.1
      exact hpost.left fun _ _ hinv => hinv
  | close => exact h.close

theorem Inv.run (h : Inv W H w) (calls : List (Call α)) : Inv W H (run A env w calls) := by
  induction calls generalizing w with
  | nil => exact h
  | cons call calls ih => exact ih (h.step call)

/-- A presenter that was just set up. -/
structure Impl.Fresh (W H : ℕ) (p : Impl) : Prop where
  width : p.width = W
  height : p.height = H
  failed : p.failed = false
  outstanding : p.outstanding = false
  buffers : ∀ slot, (p.buffers slot).isSome = true
  previousRect : ∀ slot, p.previousRect slot = ⟨0, 0, 0, 0⟩

theorem fresh_of_initializeImpl {setup : Setup} {p : Impl}
    (hp : initializeImpl A W H setup = .ok p) : p.Fresh W H := by
  rw [initializeImpl] at hp
  rcases fit_present_rect_cases (A := A) W H A.one with hfit | ⟨rect, hfit, _⟩
  · rw [hfit] at hp
    exact absurd hp nofun
  · rw [hfit] at hp
    dsimp only at hp
    split_ifs at hp with hopen hrate hregister
    obtain rfl := Except.ok.inj hp
    exact ⟨rfl, rfl, rfl, rfl, fun _ => rfl, fun _ => rfl⟩

theorem inv_start {setup : Setup} {p : Impl} (hp : initializeImpl A W H setup = .ok p)
    (pixels : ℤ → Pixels) : Inv W H (.start p pixels) := by
  have hfresh := fresh_of_initializeImpl hp
  refine ⟨hfresh.width, hfresh.height, fun _ => History.ok_nil, fun _ => ?_⟩
  refine ⟨fun ⟨_, hmem, _⟩ => List.not_mem_nil hmem, ?_, fun _ => rfl, fun _ => rfl, ?_⟩
  · exact fun hout => absurd (hfresh.outstanding.symm.trans hout) nofun
  · exact fun slot => Or.inl (hfresh.previousRect slot)

/-- Where the display shows only flips that were submitted to it, no buffer is drawn that is on the
screen or named by a flip, at most one flip is outstanding, a failure that is latched is final, and
a buffer is flipped with black around its frame. -/
theorem scan_out_protected (A : AspectArithmetic α) (env : Environment) {W H : ℕ} {setup : Setup}
    {p : Impl} (hp : initializeImpl A W H setup = .ok p) (pixels : ℤ → Pixels)
    (calls : List (Call α))
    (honest : History.Ok Event.Honest (run A env (.start p pixels) calls).log) :
    (∀ after before, (run A env (.start p pixels) calls).log = after ++ before →
      (unretired before).length ≤ 1) ∧
    ∀ after e before, (run A env (.start p pixels) calls).log = after ++ e :: before →
      e.Safe Failure.latched W H before := by
  have hrun : Inv W H (run A env (.start p pixels) calls) := (inv_start hp pixels).run calls
  have hsafe := hrun.safe honest
  refine ⟨?_, History.ok_iff.mp hsafe⟩
  intro after before hlog
  rw [hlog] at hsafe
  exact unretired_length hsafe.of_append

/-- Aspects as fractions. -/
def fractionArithmetic : AspectArithmetic (ℕ × ℕ) where
  one := (1, 1)
  usable aspect := aspect.1 ≠ 0 ∧ aspect.2 ≠ 0
  heightFor w aspect := ↑((2 * w * aspect.2 + aspect.1) / (2 * aspect.1))
  widthFor h aspect := ↑((2 * h * aspect.1 + aspect.2) / (2 * aspect.2))

/-- A display that shows two flips. -/
def twoFlips : Environment where
  status t := some (if t < 5 then ⟨0, 0, 0, 0, 0, -1⟩ else if t < 10 then ⟨1, 16667, 1, 0, 0, 0⟩
    else ⟨2, 33334, 2, 0, 0, 1⟩)
  waits _ := true
  blits _ := true
  image _ _ _ := 0xffffffff
  submitFlip _ := 0
  close _ := 0

def smallSetup : Setup := ⟨fun slot => if slot = 0 then 4096 else 8192, 17, 0, 0⟩

def smallPresenter : Impl where
  width := 64
  height := 36
  handle := 17
  current := -1
  buffers slot := some (if slot = 0 then 4096 else 8192)
  previousRect _ := ⟨0, 0, 0, 0⟩
  serial := 0
  count := 0
  failed := false
  outstanding := false
  outstandingSlot := -1
  outstandingBefore := 0
  outstandingRect := ⟨0, 0, 0, 0⟩

def frameImage : Image := ⟨some 65536, 32, 32⟩

/-- A square frame, which is cleared around, and one that fills the screen. -/
def twoFrames : List (Call (ℕ × ℕ)) :=
  [.present (some frameImage) (1, 1) true 0, .submit (some frameImage) (16, 9) true 0, .retirePending]

def twoFramesRun : World :=
  run fractionArithmetic twoFlips (.start smallPresenter fun _ _ _ => 0) twoFrames

theorem scan_out_protected_twoFrames :
    (∀ after before, twoFramesRun.log = after ++ before → (unretired before).length ≤ 1) ∧
    ∀ after e before, twoFramesRun.log = after ++ e :: before →
      e.Safe Failure.latched 64 36 before :=
  @scan_out_protected _ fractionArithmetic twoFlips 64 36 smallSetup smallPresenter rfl
    (fun _ _ _ => 0) twoFrames ⟨trivial, fun _ => by decide, trivial, trivial, trivial,
      fun _ => by decide, trivial, fun _ => by decide, trivial, trivial, trivial, trivial,
      fun h => by revert h; decide, trivial⟩

/-- A request that is refused leaves a presenter that draws. -/
def refusedRun : World :=
  run fractionArithmetic twoFlips (.start smallPresenter fun _ _ _ => 0)
    [.submit none (1, 1) true 0, .submit (some frameImage) (1, 1) true 0]

/-- Not every failure is final: a refused argument is not. -/
theorem refused_then_drawn :
    initializeImpl fractionArithmetic 64 36 smallSetup = .ok smallPresenter ∧
    History.Ok Event.Honest refusedRun.log ∧
    ¬ History.Ok (Event.Safe (fun _ => true) 64 36) refusedRun.log := by
  refine ⟨rfl, ?_, ?_⟩
  · exact ⟨trivial, trivial, trivial, trivial, fun h => by revert h; decide, trivial, trivial⟩
  · rintro ⟨_, _, hcopy, _⟩
    exact hcopy.unbroken ⟨.invalidArgument "Missing presentation image",
      .tail _ (.tail _ (.head _)), rfl⟩

end Gpu.VideoPresenter
