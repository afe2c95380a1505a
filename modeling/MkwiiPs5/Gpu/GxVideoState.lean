import MkwiiPs5.Gpu.VideoPresenter
import MkwiiPs5.Gx.Viewport

/-!
# The video configuration

`gx_video_state.cpp` and `gx_video_backend.cpp`: what the guest has set through VI, and the plan of
the render targets that follows from it.
-/

namespace Gpu.GxVideo

open Gx (GxRenderExtent)

/-! ### Settings and plans -/

/-- The fields of a render mode that are read. -/
structure GXRenderModeObj where
  viTVmode : ℕ
  fbWidth : ℕ
  efbHeight : ℕ
  viWidth : ℕ
  viHeight : ℕ

def AURORA_VIEWPORT_FIT : ℕ := 0
def AURORA_VIEWPORT_STRETCH : ℕ := 1
def AURORA_VIEWPORT_NATIVE : ℕ := 2

def VI_PAL : ℕ := 1
def VI_DEBUG_PAL : ℕ := 4

/-- The floating-point arithmetic of a plan. -/
structure VideoArithmetic (α : Type*) extends VideoPresenter.AspectArithmetic α where
  ofInt : ℤ → α
  finite : α → Bool
  lt : α → α → Bool
  mul : α → α → α
  div : α → α → α
  /-- `std::max` and `std::min`. -/
  max : α → α → α
  min : α → α → α
  /-- `uint32_t(std::lround(v))` -/
  lround : α → ℕ
  /-- The width of the active picture, for PAL or not, and its height. -/
  activeW : Bool → α
  activeH : Bool → α
  zero_ok : finite (ofInt 0) = true ∧ lt (ofInt 0) (ofInt 0) = false ∧
    lt (ofInt 64) (ofInt 0) = false

/-- `aurora::render_size_limits`. -/
structure RenderSizeLimits (α : Type*) where
  scaleFramebufferToAspect : ℕ → ℕ → α → α → ℕ × ℕ
  fitFramebufferToBudget : ℕ → ℕ → ℕ → ℕ × ℕ

structure GxVideoSettings (α : Type*) where
  mode : Option GXRenderModeObj
  policy : ℕ
  scale : α
  aspectWidth : ℤ
  aspectHeight : ℤ
  surfaceWidth : ℕ
  surfaceHeight : ℕ

structure GxVideoPlan (α : Type*) where
  extent : GxRenderExtent
  aspectCorrection : α
  presentAspect : α
  policy : ℕ

variable {α : Type*} (F : VideoArithmetic α) (L : RenderSizeLimits α)

def GxVideoSettings.default : GxVideoSettings α := ⟨none, AURORA_VIEWPORT_FIT, F.ofInt 0, 0, 0, 1920, 1080⟩

/-! ### The plan -/

/-- The logical size of the EFB. -/
def logicalExtent (mode : Option GXRenderModeObj) : ℕ × ℕ :=
  match mode with
  | none => (640, 528)
  | some mode => (Nat.max 640 mode.fbWidth, Nat.max 528 mode.efbHeight)

def aspectCorrection (mode : Option GXRenderModeObj) : α :=
  match mode with
  | none => F.one
  | some mode =>
    if mode.viWidth ≠ 0 ∧ mode.viHeight ≠ 0 then
      let format := (mode.viTVmode >>> 2) &&& 7
      let pal := decide (format = VI_PAL ∨ format = VI_DEBUG_PAL)
      F.div (F.div (F.ofInt mode.viWidth) (F.activeW pal))
        (F.div (F.ofInt mode.viHeight) (F.activeH pal))
    else F.one

def targetSize (s : GxVideoSettings α) (logicalWidth logicalHeight : ℕ) : ℕ × ℕ :=
  if s.policy = AURORA_VIEWPORT_FIT then
    let scale := if F.lt (F.ofInt 0) s.scale then s.scale
      else F.max (F.ofInt 1) (F.min (F.div (F.ofInt s.surfaceWidth) (F.ofInt logicalWidth))
        (F.div (F.ofInt s.surfaceHeight) (F.ofInt logicalHeight)))
    (Nat.max 1 (F.lround (F.mul (F.ofInt logicalWidth) scale)),
      Nat.max 1 (F.lround (F.mul (F.ofInt logicalHeight) scale)))
  else if F.lt (F.ofInt 0) s.scale then
    L.scaleFramebufferToAspect logicalWidth logicalHeight s.scale
      (F.div (F.ofInt s.surfaceWidth) (F.ofInt s.surfaceHeight))
  else (s.surfaceWidth, s.surfaceHeight)

def presentAspect (s : GxVideoSettings α) : α :=
  if s.policy = AURORA_VIEWPORT_STRETCH then F.div (F.ofInt s.surfaceWidth) (F.ofInt s.surfaceHeight)
  else if s.aspectWidth > 0 ∧ s.aspectHeight > 0 then
    F.mul (F.div (F.ofInt s.aspectWidth) (F.ofInt s.aspectHeight)) (aspectCorrection F s.mode)
  else F.ofInt 0

/-- What a plan is refused for, whatever the mode. -/
def GxVideoSettings.Invalid (s : GxVideoSettings α) : Prop :=
  s.surfaceWidth = 0 ∨ s.surfaceHeight = 0 ∨ s.surfaceWidth > 16384 ∨ s.surfaceHeight > 16384 ∨
    ¬ F.finite s.scale ∨ F.lt s.scale (F.ofInt 0) ∨ F.lt (F.ofInt 64) s.scale ∨
    s.policy > AURORA_VIEWPORT_NATIVE

instance (s : GxVideoSettings α) : Decidable (s.Invalid F) :=
  inferInstanceAs (Decidable (_ ∨ _ ∨ _ ∨ _ ∨ _ ∨ _ ∨ _ ∨ _))

/-- `plan_gx_video`; its failures are texts of `std::invalid_argument`. -/
def planGxVideo (s : GxVideoSettings α) : Except String (GxVideoPlan α) :=
  if s.Invalid F then .error "Invalid VI render configuration"
  else
    let (logicalWidth, logicalHeight) := logicalExtent s.mode
    if logicalWidth > 16384 ∨ logicalHeight > 16384 then
      .error "VI EFB extent exceeds native renderer limits"
    else
      let size := targetSize F L s logicalWidth logicalHeight
      let size := L.fitFramebufferToBudget size.1 size.2 16384
      .ok {
        extent := ⟨logicalWidth, logicalHeight, size.1, size.2⟩
        aspectCorrection := aspectCorrection F s.mode
        presentAspect := presentAspect F s
        policy := s.policy }

/-! ### What the guest calls -/

/-- Settings are stored once there is a plan for them. -/
def store (s next : GxVideoSettings α) : Except String Unit × GxVideoSettings α :=
  match planGxVideo F L next with
  | .error what => (.error what, s)
  | .ok _ => (.ok (), next)

def viConfigure (s : GxVideoSettings α) (mode : Option GXRenderModeObj) :
    Except String Unit × GxVideoSettings α := store F L s { s with mode := mode }

def viSetFrameBufferScale (s : GxVideoSettings α) (scale : α) :
    Except String Unit × GxVideoSettings α :=
  if ¬ F.finite scale then (.error "Nonfinite VI framebuffer scale", s)
  else store F L s { s with scale := F.max scale (F.ofInt 0) }

def viLockAspectRatio (s : GxVideoSettings α) (width height : ℤ) : GxVideoSettings α :=
  { s with
    aspectWidth := if width > 0 ∧ height > 0 then width else 0
    aspectHeight := if width > 0 ∧ height > 0 then height else 0 }

/-- `AuroraSetViewportPolicy`, as far as the settings go. -/
def auroraSetViewportPolicy (s : GxVideoSettings α) (policy : ℕ) : GxVideoSettings α :=
  { s with policy := policy }

/-! ### There is always a plan -/

/-- The settings have a plan. -/
def GxVideoSettings.Planned (s : GxVideoSettings α) : Prop := ∃ plan, planGxVideo F L s = .ok plan

variable {F L} {s : GxVideoSettings α}

theorem planned_iff : s.Planned F L ↔ ¬ s.Invalid F ∧
    (logicalExtent s.mode).1 ≤ 16384 ∧ (logicalExtent s.mode).2 ≤ 16384 := by
  rw [GxVideoSettings.Planned, planGxVideo]
  constructor
  · rintro ⟨plan, hplan⟩
    split at hplan
    · exact absurd hplan nofun
    · next hvalid =>
      dsimp only at hplan
      split at hplan
      · exact absurd hplan nofun
      · next hsize =>
        obtain ⟨hwidth, hheight⟩ := not_or.mp hsize
        exact ⟨hvalid, not_lt.mp hwidth, not_lt.mp hheight⟩
  · rintro ⟨hvalid, hwidth, hheight⟩
    rw [if_neg hvalid]
    dsimp only
    rw [if_neg (not_or.mpr ⟨not_lt.mpr hwidth, not_lt.mpr hheight⟩)]
    exact ⟨_, rfl⟩

/-- The settings that nobody has changed have a plan. -/
theorem planned_default : (GxVideoSettings.default F).Planned F L := by
  obtain ⟨hfinite, hnegative, habove⟩ := F.zero_ok
  have hsize : logicalExtent (GxVideoSettings.default F).mode = (640, 528) := rfl
  refine planned_iff.mpr ⟨?_, by rw [hsize]; decide, by rw [hsize]; decide⟩
  simp [GxVideoSettings.Invalid, GxVideoSettings.default, hfinite, hnegative, habove,
    AURORA_VIEWPORT_FIT]

theorem planned_store (h : s.Planned F L) (next : GxVideoSettings α) :
    (store F L s next).2.Planned F L := by
  rw [store]
  split
  · exact h
  · next plan hplan => exact ⟨plan, hplan⟩

theorem planned_viSetFrameBufferScale (h : s.Planned F L) (scale : α) :
    (viSetFrameBufferScale F L s scale).2.Planned F L := by
  rw [viSetFrameBufferScale]
  split
  · exact h
  · exact planned_store h _

/-- What is not checked by a plan of its own is not checked by any plan. -/
theorem planned_viLockAspectRatio (h : s.Planned F L) (width height : ℤ) :
    (viLockAspectRatio s width height).Planned F L := by
  have hold := planned_iff.mp h
  exact planned_iff.mpr hold

theorem planned_auroraSetViewportPolicy (h : s.Planned F L) {policy : ℕ}
    (hpolicy : policy ≤ AURORA_VIEWPORT_NATIVE) :
    (auroraSetViewportPolicy s policy).Planned F L := by
  obtain ⟨hvalid, hsize⟩ := planned_iff.mp h
  refine planned_iff.mpr ⟨?_, hsize⟩
  simp only [GxVideoSettings.Invalid, auroraSetViewportPolicy, not_or, not_lt] at hvalid ⊢
  tauto

end Gpu.GxVideo
