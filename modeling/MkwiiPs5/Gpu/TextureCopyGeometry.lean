import Mathlib.Tactic.Linarith
import MkwiiPs5.Gpu.TextureCopyPlan

/-!
# The geometry of texture copies

Sources that are clipped to the target keep a texel, what is cleared keeps a pixel, and the blit takes
the plan.
-/

namespace Gpu.TextureCopy

open Gx Interval Rounding Loop

variable {A : Arithmetic} {s : CopyRegisters} {e : GxRenderExtent}

/-! ### Sources -/

/-- What is sampled is a part of the target, and not less than a texel. -/
structure Sampled (start size : ℚ) (limit : ℕ) : Prop where
  nonneg : 0 ≤ start
  texel : 1 ≤ size
  inside : start + size ≤ limit

theorem clip_sampled (start size : ℚ) {limit : ℕ} (hlimit : 0 < limit) :
    Sampled (clip start size limit).1 (clip start size limit).2 limit := by
  have hone : (1 : ℚ) ≤ limit := by exact_mod_cast hlimit
  have hzero : (0 : ℚ) ≤ limit := zero_le_one.trans hone
  have hlow := le_clamp (v := start) hzero
  have hlow' := clamp_le (v := start) hzero
  have hhigh := le_clamp (v := start + size) hlow'
  have hhigh' := clamp_le (v := start + size) hlow'
  rw [clip]
  dsimp only
  split
  · -- less than a texel: it grows to the right, or to the left at the edge
    rcases le_total (clamp start 0 (limit : ℚ) + 1) limit with hroom | hedge
    · rw [min_eq_left hroom, add_sub_cancel_right, max_eq_left hlow, add_sub_cancel_left]
      exact ⟨hlow, le_rfl, hroom⟩
    · rw [min_eq_right hedge, max_eq_left (sub_nonneg.mpr hone)]
      refine ⟨sub_nonneg.mpr hone, ?_, ?_⟩ <;> linarith
  · refine ⟨hlow, ?_, ?_⟩ <;> linarith

/-- The size of a copy on one axis. -/
def scaledSize (s : CopyRegisters) (size logical target : ℕ) : ℕ :=
  if s.nativePolicy then max size 1
  else max (llround ((max size 1 : ℕ) * target / logical)) 1

/-- The registers and extents that a plan is made for: source rectangles of 16 bits, and copies that the
hardware can hold. -/
structure InDomain (s : CopyRegisters) (e : GxRenderExtent) : Prop where
  x : 0 ≤ s.texCopySrc.x ∧ s.texCopySrc.x < 2 ^ 16
  y : 0 ≤ s.texCopySrc.y ∧ s.texCopySrc.y < 2 ^ 16
  width : 0 < s.texCopySrc.width ∧ s.texCopySrc.width < 2 ^ 16
  height : 0 < s.texCopySrc.height ∧ s.texCopySrc.height < 2 ^ 16
  logicalWidth : 0 < e.logicalWidth ∧ e.logicalWidth ≤ 16384
  logicalHeight : 0 < e.logicalHeight ∧ e.logicalHeight ≤ 16384
  targetWidth : 0 < e.targetWidth ∧ e.targetWidth ≤ 16384
  targetHeight : 0 < e.targetHeight ∧ e.targetHeight ≤ 16384
  scaledWidth : scaledSize s s.texCopyDstWidth e.logicalWidth e.targetWidth ≤ 16384
  scaledHeight : scaledSize s s.texCopyDstHeight e.logicalHeight e.targetHeight ≤ 16384

theorem planSource_sampled (h : InDomain s e) :
    Sampled (planSource s e).x (planSource s e).width e.targetWidth ∧
      Sampled (planSource s e).y (planSource s e).height e.targetHeight :=
  ⟨clip_sampled _ _ h.targetWidth.1, clip_sampled _ _ h.targetHeight.1⟩

/-! ### The blit -/

theorem planScale_eq {size logical target : ℕ} (h : scaledSize s size logical target ≤ 16384) :
    planScale A s (max size 1) logical target = .ok (scaledSize s size logical target) := by
  rw [planScale, scaledSize] at *
  split
  · rfl
  next hnative =>
    rw [if_neg hnative] at h
    rw [scale, if_neg (not_lt.mpr ((le_max_left _ _).trans h)),
      A.u32_eq rfl (h.trans_lt (by decide))]

theorem scaledSize_pos (s : CopyRegisters) (size logical target : ℕ) :
    0 < scaledSize s size logical target := by
  rw [scaledSize]
  split
  · exact Nat.lt_of_lt_of_le Nat.one_pos (le_max_right _ _)
  · exact Nat.lt_of_lt_of_le Nat.one_pos (le_max_right _ _)

theorem validate_eq {width height : ℕ} (hw : 0 < width ∧ width ≤ 16384)
    (hh : 0 < height ∧ height ≤ 16384) :
    validate A width height ⟨0, 0, width, height⟩ = .ok () := by
  rw [validate]
  refine if_neg ?_
  dsimp only
  rw [A.u32_eq (by push_cast; exact sub_zero _) (show width < 2 ^ 32 by omega),
    A.u32_eq (by push_cast; exact sub_zero _) (show height < 2 ^ 32 by omega)]
  omega

/-- The blit takes a source that is sampled from a target. -/
theorem sampledBlitVertices_ok {sw sh dw dh : ℕ} {r : BlitSampleRect} (hsw : 0 < sw ∧ sw ≤ 16384)
    (hsh : 0 < sh ∧ sh ≤ 16384) (hdw : 0 < dw ∧ dw ≤ 16384) (hdh : 0 < dh ∧ dh ≤ 16384)
    (hx : Sampled r.x r.width sw) (hy : Sampled r.y r.height sh) :
    ∃ mesh, sampledBlitVertices A sw sh dw dh r ⟨0, 0, dw, dh⟩ = .ok mesh := by
  obtain ⟨hx₁, hx₂, hx₃⟩ := hx
  obtain ⟨hy₁, hy₂, hy₃⟩ := hy
  rw [sampledBlitVertices, validate_eq hdw hdh]
  refine ⟨_, if_neg ?_⟩
  rintro (h | h | h | h | h | h | h | h | h | h | h | h)
  · omega
  · omega
  · omega
  · omega
  all_goals linarith

/-! ### The rectangle that is cleared -/

/-- An edge of the source on the target, to the nearest pixel. -/
def nearestEdge (s : CopyRegisters) (v : ℤ) (logical target : ℕ) : ℕ :=
  if s.unscaled then v.toNat else llround ((v : ℚ) * target / logical)

theorem edge_eq {v : ℤ} {logical target : ℕ} (hv : 0 ≤ v ∧ v < 2 ^ 17) (hlogical : 0 < logical)
    (htarget : target ≤ 16384) : edge A s v logical target = nearestEdge s v logical target := by
  obtain ⟨n, rfl⟩ := Int.eq_ofNat_of_zero_le hv.1
  have hn : n < 2 ^ 17 := by exact_mod_cast hv.2
  rw [edge, nearestEdge]
  split
  · exact A.u32_eq rfl (by omega)
  · have hscaled : ((n : ℤ) : ℚ) * target / logical ≤ (n * target : ℕ) := by
      push_cast
      exact div_le_self (by positivity) (by exact_mod_cast hlogical)
    have hround := llround_le hscaled
    have hprod : n * target ≤ (2 ^ 17 - 1) * 16384 := Nat.mul_le_mul (by omega) htarget
    rw [A.i64_eq (by omega) (by omega)]
    exact A.u32_eq rfl (by omega)

/-- The edges of what is cleared are the nearest ones of the source, but the lower one is not beyond
the last pixel, and the upper one is behind the lower one and not beyond the target. -/
structure Cleared (low high target start size : ℕ) : Prop where
  lower : start = min low (target - 1)
  upper : start + size = min (max high (start + 1)) target
  nonempty : 0 < size
  inside : start + size ≤ target

theorem clearEdges_cleared {start size : ℤ} {logical target : ℕ}
    (hstart : 0 ≤ start ∧ start < 2 ^ 16) (hsize : 0 < size ∧ size < 2 ^ 16)
    (hlogical : 0 < logical) (htarget : 0 < target ∧ target ≤ 16384) :
    let edges := clearEdges A s start size logical target
    Cleared (nearestEdge s start logical target) (nearestEdge s (start + size) logical target)
      target edges.1 (A.u32 (edges.2 - edges.1)) := by
  have hlast : A.u32 ((target : ℤ) - 1) = target - 1 := A.u32_eq (by omega) (by omega)
  have hsum : A.i64 (start + size) = start + size := A.i64_eq (by omega) (by omega)
  have hlow := edge_eq (A := A) (s := s) (v := start) ⟨hstart.1, by omega⟩ hlogical htarget.2
  have hhigh := edge_eq (A := A) (s := s) (v := start + size) ⟨by omega, by omega⟩ hlogical
    htarget.2
  intro edges
  have hedges : edges = clearEdges A s start size logical target := rfl
  simp only [clearEdges, hlast, hsum, hlow, hhigh] at hedges
  have hnext : A.u32 ((min (nearestEdge s start logical target) (target - 1) : ℕ) + 1) =
      min (nearestEdge s start logical target) (target - 1) + 1 :=
    A.u32_add (b := 1) (by omega)
  rw [hnext] at hedges
  have hdiff : A.u32 ((edges.2 : ℤ) - edges.1) = edges.2 - edges.1 := by
    refine A.u32_sub ?_ ?_ <;> rw [hedges] <;> dsimp only <;> omega
  rw [hdiff, hedges]
  dsimp only
  refine ⟨rfl, ?_, ?_, ?_⟩ <;> omega

/-! ### Plans -/

/-- Registers that the backend does not implement, or that do not hold what they should. -/
def Unsupported (what : String) : Prop :=
  what ∈ ["GX copy depth format requires unimplemented RAM encoding",
    "Invalid GX texture copy format", "GX multisample copy is not implemented",
    "Invalid GX destination alpha", "Nonfinite GX clear color",
    "Invalid GX copy filter coefficient"]

instance (what : String) : Decidable (Unsupported what) := inferInstanceAs (Decidable (_ ∈ _))

theorem checkRegisters_post (h : InDomain s e) :
    Post (checkRegisters s e) (fun _ => True) Unsupported := by
  rw [checkRegisters, if_neg (by
    have := h.logicalWidth
    have := h.logicalHeight
    have := h.targetWidth
    have := h.targetHeight
    omega)]
  split
  · split
    · show Unsupported _
      decide
    · show Unsupported _
      decide
  split
  · show Unsupported _
    decide
  rw [if_neg]
  · trivial
  · have hx := h.x
    have hy := h.y
    have hwidth := h.width
    have hheight := h.height
    omega

theorem clearByte_post (v : Option ℚ) : Post (clearByte A v) (fun _ => True) Unsupported := by
  cases v with
  | none =>
    show Unsupported _
    decide
  | some v => trivial

theorem planClear_post :
    Post (planClear A s e) (fun c => c.rect = clearRect A s e) Unsupported := by
  have hcolors : ∀ mask, Post (clearColors A s mask) (fun _ => True) Unsupported := by
    intro mask
    unfold clearColors
    split
    · refine (clearByte_post _).bind fun _ _ => ?_
      refine (clearByte_post _).bind fun _ _ => ?_
      exact (clearByte_post _).bind fun _ _ => trivial
    · trivial
  have halpha : ∀ mask color, Post (clearAlpha A s mask color) (fun _ => True) Unsupported := by
    intro mask color
    unfold clearAlpha
    split
    · exact (clearByte_post _).bind fun _ _ => trivial
    · trivial
  unfold planClear
  dsimp only
  refine (hcolors _).bind fun _ _ => ?_
  exact (halpha _ _).bind fun _ _ => rfl

theorem planFilter_post : Post (planFilter A s) (fun _ => True) Unsupported := by
  unfold planFilter
  dsimp only
  split
  · trivial
  split
  · show Unsupported _
    decide
  · trivial

theorem planPreCopyAlpha_post : Post (planPreCopyAlpha s) (fun _ => True) Unsupported := by
  unfold planPreCopyAlpha
  split
  · split
    · show Unsupported _
      decide
    · trivial
  · trivial

/-- A plan samples a part of the target and clears a part of it. -/
structure Sound (s : CopyRegisters) (e : GxRenderExtent) (clear : Bool) (p : Plan) : Prop where
  sourceX : Sampled p.source.x p.source.width e.targetWidth
  sourceY : Sampled p.source.y p.source.height e.targetHeight
  clearX : clear → Cleared (nearestEdge s s.texCopySrc.x e.logicalWidth e.targetWidth)
    (nearestEdge s (s.texCopySrc.x + s.texCopySrc.width) e.logicalWidth e.targetWidth)
    e.targetWidth p.clear.rect.x p.clear.rect.width
  clearY : clear → Cleared (nearestEdge s s.texCopySrc.y e.logicalHeight e.targetHeight)
    (nearestEdge s (s.texCopySrc.y + s.texCopySrc.height) e.logicalHeight e.targetHeight)
    e.targetHeight p.clear.rect.y p.clear.rect.height

/-- In any arithmetic of words, a plan is sound, and where there is none, the registers are not
supported: the blit never refuses it. -/
theorem texture_copy_sound (A : Arithmetic) (s : CopyRegisters) (e : GxRenderExtent) (clear : Bool)
    (h : InDomain s e) :
    Post (planGxTextureCopy A s e clear) (Sound s e clear) Unsupported := by
  obtain ⟨hx, hy⟩ := planSource_sampled h
  obtain ⟨mesh, hmesh⟩ := sampledBlitVertices_ok (A := A) h.targetWidth h.targetHeight
    ⟨scaledSize_pos .., h.scaledWidth⟩ ⟨scaledSize_pos .., h.scaledHeight⟩ hx hy
  have hclearX := clearEdges_cleared (A := A) (s := s) h.x h.width h.logicalWidth.1 h.targetWidth
  have hclearY := clearEdges_cleared (A := A) (s := s) h.y h.height h.logicalHeight.1
    h.targetHeight
  have hcleared : Post (planClearIf A s e clear)
      (fun c => clear → c.rect = clearRect A s e) Unsupported := by
    unfold planClearIf
    split
    · exact planClear_post.mono fun c hc _ => hc
    next hkeep => exact fun hclear => absurd hclear hkeep
  unfold planGxTextureCopy
  refine (checkRegisters_post h).bind fun _ _ => ?_
  dsimp only
  rw [planScale_eq h.scaledWidth, planScale_eq h.scaledHeight]
  show Post (sampledBlitVertices .. >>= _) _ _
  rw [hmesh]
  refine planPreCopyAlpha_post.bind fun _ _ => hcleared.bind fun c hc => ?_
  refine planFilter_post.bind fun _ _ => ⟨hx, hy, fun hclear => ?_, fun hclear => ?_⟩
  · dsimp only
    rw [hc hclear]
    exact hclearX
  · dsimp only
    rw [hc hclear]
    exact hclearY

/-- A copy of one pixel to a target of half the size. -/
def halved : CopyRegisters :=
  { nativePolicy := false
    texCopySrc := ⟨1, 1, 1, 1⟩
    texCopySrcRenderSpace := false
    texCopyFmt := 6
    texCopyDstWidth := 1
    texCopyDstHeight := 1
    texCopyHalfScale := false
    copyFilterAa := false
    copyFilterVf := false
    copyFilterVFilter := fun _ => 0
    copyClamp := 0
    pixelFmt := GX_PF_RGBA6_Z24
    dstAlpha := 2 ^ 32 - 1
    clearColor := fun _ => some 0
    clearDepth := 0
    depthUpdate := true
    colorUpdate := true
    alphaUpdate := true }

theorem halved_inDomain : InDomain halved ⟨4, 4, 2, 2⟩ := by
  constructor <;> decide +kernel

theorem texture_copy_sound_halved : InDomain halved ⟨4, 4, 2, 2⟩ ∧
    Post (planGxTextureCopy .modular halved ⟨4, 4, 2, 2⟩ true) (Sound halved ⟨4, 4, 2, 2⟩ true)
      Unsupported :=
  ⟨halved_inDomain, texture_copy_sound _ _ _ _ halved_inDomain⟩

/-- Both edges of a pixel can come to the same edge of the target; the pixel behind it is cleared. -/
theorem clear_edge_moved : ¬ ∀ (A : Arithmetic) (s : CopyRegisters) (e : GxRenderExtent),
    InDomain s e → Post (planGxTextureCopy A s e true)
      (fun p => p.clear.rect.x + p.clear.rect.width =
        min (nearestEdge s (s.texCopySrc.x + s.texCopySrc.width) e.logicalWidth e.targetWidth)
          e.targetWidth) Unsupported := by
  intro hall
  have hplan := hall .modular halved ⟨4, 4, 2, 2⟩ halved_inDomain
  have hrect : (planGxTextureCopy .modular halved ⟨4, 4, 2, 2⟩ true).toOption.map
      (fun p => p.clear.rect.x + p.clear.rect.width) = some 2 := by decide +kernel
  have hedge : min (nearestEdge halved 2 4 2) 2 = 1 := by decide +kernel
  cases hp : planGxTextureCopy .modular halved ⟨4, 4, 2, 2⟩ true with
  | error what =>
    rw [hp] at hrect
    exact nomatch hrect
  | ok p =>
    rw [hp] at hplan hrect
    have hstop : p.clear.rect.x + p.clear.rect.width = 2 := Option.some.inj hrect
    have hstop' : p.clear.rect.x + p.clear.rect.width = 1 := Eq.trans hplan hedge
    omega

end Gpu.TextureCopy
