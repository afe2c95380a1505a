import MkwiiPs5.Gpu.TextureCopyGeometry

/-!
# Plans of display copies

`plan_gx_display_copy`: the source is brought to whole pixels of the target before a texture copy is
planned, so that what is cleared is what was copied.
-/

namespace Gpu.DisplayCopy

open Gx Interval Rounding TextureCopy

variable (A : Arithmetic) (R : SingleRounding)

/-- The registers of a display copy, and those that it shares with texture copies. -/
structure DisplayRegisters where
  shared : CopyRegisters
  dispCopySrc : ClipRect
  dispCopyDstWidth : ℕ
  dispCopyDstHeight : ℕ

variable (s : DisplayRegisters) (e : GxRenderExtent)

def checkDisplay : Except String Unit :=
  if e.logicalWidth = 0 ∨ e.logicalHeight = 0 ∨ e.targetWidth = 0 ∨ e.targetHeight = 0 ∨
      e.logicalWidth > 16384 ∨ e.logicalHeight > 16384 ∨ e.targetWidth > 16384 ∨
      e.targetHeight > 16384 then
    .error "Invalid display-copy extent"
  else if s.dispCopySrc.x < 0 ∨ s.dispCopySrc.y < 0 ∨ s.dispCopySrc.width ≤ 0 ∨
      s.dispCopySrc.height ≤ 0 then
    .error "Invalid display-copy source"
  else .ok ()

/-- An edge of the source: lower edges go down to a pixel, upper edges up. -/
def displayEdge (v : ℤ) (logical target : ℕ) (upper : Bool) : ℤ :=
  if s.shared.nativePolicy then v
  else
    let scaled := R.round (R.round (R.round v * target) / logical)
    clamp (if upper then ⌈scaled⌉ else ⌊scaled⌋) 0 target

def left : ℤ := displayEdge R s s.dispCopySrc.x e.logicalWidth e.targetWidth false
def top : ℤ := displayEdge R s s.dispCopySrc.y e.logicalHeight e.targetHeight false

def right : ℤ :=
  displayEdge R s (A.i64 (s.dispCopySrc.x + s.dispCopySrc.width)) e.logicalWidth e.targetWidth true

def bottom : ℤ :=
  displayEdge R s (A.i64 (s.dispCopySrc.y + s.dispCopySrc.height)) e.logicalHeight e.targetHeight
    true

/-- A size of the copy; without one, that of the source is cut to the register's 16 bits. -/
def destination (size : ℕ) (source : ℤ) : ℕ := if size ≠ 0 then size else A.unsigned 16 source

/-- The registers of the texture copy. -/
def copyRegisters : CopyRegisters :=
  { s.shared with
    texCopySrc :=
      { x := A.i32 (left R s e)
        y := A.i32 (top R s e)
        width := A.i32 (max (A.i64 (right A R s e - left R s e)) 1)
        height := A.i32 (max (A.i64 (bottom A R s e - top R s e)) 1) }
    texCopySrcRenderSpace := true
    texCopyDstWidth := destination A s.dispCopyDstWidth s.dispCopySrc.width
    texCopyDstHeight := destination A s.dispCopyDstHeight s.dispCopySrc.height
    texCopyFmt := 6
    texCopyHalfScale := false
    dstAlpha := 2 ^ 32 - 1 }

/-- The filter, which can be replaced by one row with its whole weight. -/
def displayFilter (disableFilter : Bool) (f : ℕ × ℕ × ℕ) : ℕ × ℕ × ℕ :=
  if disableFilter then (0, A.u32 (A.u32 (f.1 + f.2.1) + f.2.2), 0) else f

def displayOptions (disableFilter : Bool) (height : ℤ) (p : Plan) : GxCopyOptions :=
  let filter := displayFilter A disableFilter p.options.filter
  { p.options with
    forceOpaqueAlpha := false
    rowStride := max (R.round (R.round height / R.round s.dispCopySrc.height)) 1
    filter
    linear := filter == (0, 64, 0) &&
      (p.source.width != p.scaledWidth || p.source.height != p.scaledHeight) }

/-- `plan_gx_display_copy`. -/
def planGxDisplayCopy (clear disableFilter : Bool) : Except String Plan := do
  checkDisplay s e
  if left R s e ≥ right A R s e ∨ top R s e ≥ bottom A R s e ∨ right A R s e > e.targetWidth ∨
      bottom A R s e > e.targetHeight then
    .error "Display-copy source exceeds EFB"
  else
    let registers := copyRegisters A R s e
    let p ← planGxTextureCopy A registers e clear
    pure { p with options := displayOptions A R s disableFilter registers.texCopySrc.height p }

/-! ### What a plan is made of -/

section Made

variable {A R s e} {c : CopyRegisters} {clear disableFilter : Bool} {p : Plan}

theorem planGxTextureCopy_eq_ok (h : planGxTextureCopy A c e clear = .ok p) :
    p.source = planSource c e ∧
    (∃ mesh, sampledBlitVertices A e.targetWidth e.targetHeight p.scaledWidth p.scaledHeight
      p.source ⟨0, 0, p.scaledWidth, p.scaledHeight⟩ = .ok mesh) ∧
    planClearIf A c e clear = .ok p.clear ∧ planFilter A c = .ok p.options.filter ∧
    p.options.format = c.texCopyFmt := by
  rw [planGxTextureCopy, Loop.bind_eq_ok] at h
  obtain ⟨-, -, h⟩ := h
  dsimp only at h
  obtain ⟨width, hwidth, h⟩ := Loop.bind_eq_ok.mp h
  obtain ⟨height, hheight, h⟩ := Loop.bind_eq_ok.mp h
  obtain ⟨mesh, hmesh, h⟩ := Loop.bind_eq_ok.mp h
  obtain ⟨alpha, -, h⟩ := Loop.bind_eq_ok.mp h
  obtain ⟨cleared, hcleared, h⟩ := Loop.bind_eq_ok.mp h
  obtain ⟨filter, hfilter, h⟩ := Loop.bind_eq_ok.mp h
  obtain rfl := Except.ok.inj h
  exact ⟨rfl, ⟨mesh, hmesh⟩, hcleared, hfilter, rfl⟩

theorem validate_eq_ok {width height : ℕ} {r : BlitRect}
    (h : validate A width height r = .ok ()) :
    (0 < width ∧ width ≤ 16384) ∧ 0 < height ∧ height ≤ 16384 := by
  rw [validate] at h
  split at h
  · cases h
  · omega

/-- The mesh of a plan has a target that an image can have. -/
theorem sampledBlitVertices_target {sw sh dw dh : ℕ} {r : BlitSampleRect}
    {d : BlitRect} {mesh : Fin 4 → BlitVertex}
    (h : sampledBlitVertices A sw sh dw dh r d = .ok mesh) :
    (0 < dw ∧ dw ≤ 16384) ∧ 0 < dh ∧ dh ≤ 16384 := by
  rw [sampledBlitVertices, Loop.bind_eq_ok] at h
  obtain ⟨⟨⟩, hvalid, -⟩ := h
  exact validate_eq_ok hvalid

theorem planFilter_le {f : ℕ × ℕ × ℕ} (h : planFilter A c = .ok f) :
    f.1 ≤ 126 ∧ f.2.1 ≤ 189 ∧ f.2.2 ≤ 126 := by
  rw [planFilter] at h
  split at h
  · obtain rfl := Except.ok.inj h
    decide
  split at h
  · cases h
  next hsmall =>
    obtain rfl := Except.ok.inj h
    have hle : ∀ i, c.copyFilterVFilter i ≤ 63 := fun i => not_lt.mp fun hi => hsmall ⟨i, hi⟩
    have h₀ := hle 0
    have h₁ := hle 1
    have h₂ := hle 2
    have h₃ := hle 3
    have h₄ := hle 4
    have h₅ := hle 5
    have h₆ := hle 6
    dsimp only
    rw [A.u32_add (a := c.copyFilterVFilter 2) (by omega), A.u32_add (by omega),
      A.u32_add (by omega), A.u32_add (by omega)]
    omega

theorem clearDepthValue_mem (c : CopyRegisters) : 0 ≤ clearDepthValue c ∧ clearDepthValue c ≤ 1 :=
  ⟨sub_nonneg.mpr ((min_le_right _ _).trans (by norm_num)),
    sub_le_self _ (le_min (by positivity) (by norm_num))⟩

/-- A mask of the channels that are cleared, and the color and the depth that they get. -/
theorem planClearIf_spec {cleared : Clear} (h : planClearIf A c e clear = .ok cleared) :
    cleared.mask ≤ 15 ∧ (0 ≤ cleared.depthValue ∧ cleared.depthValue ≤ 1) ∧
    (clear → cleared.rect = clearRect A c e) ∧
    (clear = false → cleared.mask = 0 ∧ cleared.depth = false) := by
  rw [planClearIf] at h
  split at h
  next hclear =>
    have hmask : ∀ color alpha zero : Prop, ∀ [Decidable color] [Decidable alpha] [Decidable zero],
        (if zero then 0 else (if color then 7 else 0) ||| if alpha then 8 else 0) ≤ 15 := by
      intro color alpha zero _ _ _
      split_ifs <;> decide
    rw [planClear] at h
    obtain ⟨color, -, h⟩ := Loop.bind_eq_ok.mp h
    obtain ⟨color', -, h⟩ := Loop.bind_eq_ok.mp h
    obtain rfl := Except.ok.inj h
    refine ⟨hmask _ _ _, ?_, fun _ => rfl, fun hnot => absurd (hclear.symm.trans hnot) (by decide)⟩
    dsimp only
    split
    · exact clearDepthValue_mem c
    · exact ⟨le_rfl, zero_le_one⟩
  next hclear =>
    obtain rfl := Except.ok.inj h
    exact ⟨by decide, ⟨le_rfl, zero_le_one⟩, fun hnot => absurd hnot hclear, fun _ => ⟨rfl, rfl⟩⟩

/-! ### What is copied -/

/-- What is copied is a rectangle of pixels of the target, and what is cleared is the same
rectangle. -/
structure Sound (e : GxRenderExtent) (clear : Bool) (p : Plan) (r : BlitRect) : Prop where
  inside : r.x + r.width ≤ e.targetWidth ∧ r.y + r.height ≤ e.targetHeight
  nonempty : 0 < r.width ∧ 0 < r.height
  source : p.source = ⟨r.x, r.y, r.width, r.height⟩
  cleared : clear → p.clear.rect = r

/-- A source of whole pixels is sampled where it is. -/
theorem clip_eq {start stop limit : ℕ} (hlt : start < stop) (hle : stop ≤ limit) :
    clip start ((stop - start : ℕ) : ℚ) limit = ((start : ℚ), ((stop - start : ℕ) : ℚ)) := by
  have hsum : (start : ℚ) + ((stop - start : ℕ) : ℚ) = stop := by
    rw [← Nat.cast_add, Nat.add_sub_cancel' hlt.le]
  have hstart : (start : ℚ) ≤ stop := by exact_mod_cast hlt.le
  have hstop : (stop : ℚ) ≤ limit := by exact_mod_cast hle
  have hone : (1 : ℚ) ≤ ((stop - start : ℕ) : ℚ) := by exact_mod_cast Nat.sub_pos_of_lt hlt
  have hlow : clamp (start : ℚ) 0 limit = start := by
    rw [clamp_eq (Nat.cast_nonneg limit), min_eq_left (hstart.trans hstop),
      max_eq_right (Nat.cast_nonneg start)]
  have hhigh : clamp (start + ((stop - start : ℕ) : ℚ)) (start : ℚ) limit = stop := by
    rw [hsum, clamp_eq (hstart.trans hstop), min_eq_left hstop, max_eq_right hstart]
  rw [clip]
  dsimp only
  rw [hlow, hhigh, if_neg (not_lt.mpr _), Nat.cast_sub hlt.le]
  rwa [← Nat.cast_sub hlt.le]

theorem displayEdge_nonneg (R : SingleRounding) (s : DisplayRegisters) {v : ℤ} (hv : 0 ≤ v)
    (logical target : ℕ) (upper : Bool) : 0 ≤ displayEdge R s v logical target upper := by
  rw [displayEdge]
  split
  · exact hv
  · exact le_clamp (by omega)

theorem planGxDisplayCopy_eq_ok {clear disableFilter : Bool} {p : Plan}
    (h : planGxDisplayCopy A R s e clear disableFilter = .ok p) :
    ((0 < e.targetWidth ∧ e.targetWidth ≤ 16384) ∧ 0 < e.targetHeight ∧ e.targetHeight ≤ 16384) ∧
    (0 < e.logicalWidth ∧ 0 < e.logicalHeight ∧ 0 < s.dispCopySrc.height) ∧
    ∃ l r t b : ℕ, (l < r ∧ r ≤ e.targetWidth) ∧ (t < b ∧ b ≤ e.targetHeight) ∧
      left R s e = l ∧ right A R s e = r ∧ top R s e = t ∧ bottom A R s e = b ∧
      ∃ q, planGxTextureCopy A (copyRegisters A R s e) e clear = .ok q ∧
        p = { q with
          options := displayOptions A R s disableFilter (copyRegisters A R s e).texCopySrc.height q } := by
  rw [planGxDisplayCopy, Loop.bind_eq_ok] at h
  obtain ⟨⟨⟩, hcheck, h⟩ := h
  rw [checkDisplay] at hcheck
  split at hcheck
  · cases hcheck
  next hextent =>
  split at hcheck
  · cases hcheck
  next hsource =>
  split at h
  · cases h
  next hedges =>
  obtain ⟨q, hq, h⟩ := Loop.bind_eq_ok.mp h
  obtain rfl := Except.ok.inj h
  have hleft : 0 ≤ left R s e := displayEdge_nonneg R s (by omega) _ _ false
  have htop : 0 ≤ top R s e := displayEdge_nonneg R s (by omega) _ _ false
  refine ⟨by omega, by omega, (left R s e).toNat, (right A R s e).toNat, (top R s e).toNat,
    (bottom A R s e).toNat, by omega, by omega, by omega, by omega, by omega, by omega, q, hq, rfl⟩

/-- An axis of the rectangle that is cleared, where the source is one of pixels. -/
theorem clearEdges_eq {c : CopyRegisters} (hunscaled : c.unscaled = true) {start stop logical limit : ℕ}
    (hlt : start < stop) (hle : stop ≤ limit) (hlogical : 0 < logical) (hlimit : limit ≤ 16384) :
    let edges := clearEdges A c start ((stop - start : ℕ) : ℤ) logical limit
    edges.1 = start ∧ A.u32 (edges.2 - edges.1) = stop - start := by
  intro edges
  have hcleared : Cleared (nearestEdge c start logical limit)
      (nearestEdge c (start + ((stop - start : ℕ) : ℤ)) logical limit) limit edges.1
      (A.u32 (edges.2 - edges.1)) :=
    clearEdges_cleared (by omega) (by omega) hlogical (by omega)
  obtain ⟨hlower, hupper, -, -⟩ := hcleared
  rw [nearestEdge, if_pos hunscaled] at hlower hupper
  have hstart : edges.1 = start := by
    refine hlower.trans ?_
    omega
  refine ⟨hstart, ?_⟩
  have hstop : edges.1 + A.u32 ((edges.2 : ℤ) - edges.1) = stop := by
    refine hupper.trans ?_
    show min (max _ (edges.1 + 1)) limit = stop
    omega
  omega

theorem plan_sound {clear disableFilter : Bool} {p : Plan}
    (h : planGxDisplayCopy A R s e clear disableFilter = .ok p) : ∃ r, Sound e clear p r := by
  obtain ⟨⟨hwidth, hheight⟩, hlogical, l, r, t, b, hx, hy, hl, hr, ht, hb, q, hq, rfl⟩ :=
    planGxDisplayCopy_eq_ok h
  obtain ⟨hplan, -, hclear, -, -⟩ := planGxTextureCopy_eq_ok hq
  have hunscaled : (copyRegisters A R s e).unscaled = true := Bool.or_true _
  have hsrc : (copyRegisters A R s e).texCopySrc =
      ⟨(l : ℤ), (t : ℤ), ((r - l : ℕ) : ℤ), ((b - t : ℕ) : ℤ)⟩ := by
    rw [copyRegisters, hl, hr, ht, hb, A.i64_eq (by omega) (by omega),
      A.i64_eq (by omega) (by omega), A.i32_eq (by omega) (by omega),
      A.i32_eq (by omega) (by omega), A.i32_eq (by omega) (by omega),
      A.i32_eq (by omega) (by omega)]
    refine congr (congrArg (ClipRect.mk (l : ℤ) (t : ℤ)) ?_) ?_ <;> omega
  have hfactor : ∀ target logical, factor (copyRegisters A R s e) target logical = 1 :=
    fun target logical => if_pos hunscaled
  refine ⟨⟨l, t, r - l, b - t⟩, by dsimp only; omega, by dsimp only; omega, ?_, fun hdo => ?_⟩
  · show q.source = _
    rw [hplan, planSource, hfactor, hfactor, hsrc]
    simp only [mul_one, Int.cast_natCast]
    rw [clip_eq hx.1 hx.2, clip_eq hy.1 hy.2]
  · show q.clear.rect = _
    rw [(planClearIf_spec hclear).2.2.1 hdo, clearRect, hsrc]
    obtain ⟨hleft, hsize⟩ := clearEdges_eq (A := A) hunscaled hx.1 hx.2 hlogical.1 hwidth.2
    obtain ⟨htop, hsize'⟩ := clearEdges_eq (A := A) hunscaled hy.1 hy.2 hlogical.2.1 hheight.2
    dsimp only
    rw [hsize, hleft, hsize', htop]

/-- The options that the blit checks, the target that it checks, and the clear. -/
structure Acceptable (e : GxRenderExtent) (A : Arithmetic) (p : Plan) : Prop where
  format : p.options.format = 6
  filter : p.options.filter.1 ≤ 126 ∧ p.options.filter.2.1 ≤ 441 ∧ p.options.filter.2.2 ≤ 126
  rowStride : 0 < p.options.rowStride ∧ p.options.rowStride ≤ 16384
  alphaKept : p.options.forceOpaqueAlpha = false
  target : (0 < p.scaledWidth ∧ p.scaledWidth ≤ 16384) ∧ 0 < p.scaledHeight ∧
    p.scaledHeight ≤ 16384
  mesh : ∃ mesh, sampledBlitVertices A e.targetWidth e.targetHeight p.scaledWidth p.scaledHeight
    p.source ⟨0, 0, p.scaledWidth, p.scaledHeight⟩ = .ok mesh
  mask : p.clear.mask ≤ 15
  depthValue : 0 ≤ p.clear.depthValue ∧ p.clear.depthValue ≤ 1

theorem displayFilter_le {f : ℕ × ℕ × ℕ} (h : f.1 ≤ 126 ∧ f.2.1 ≤ 189 ∧ f.2.2 ≤ 126) :
    (displayFilter A disableFilter f).1 ≤ 126 ∧ (displayFilter A disableFilter f).2.1 ≤ 441 ∧
      (displayFilter A disableFilter f).2.2 ≤ 126 := by
  rw [displayFilter]
  split
  · dsimp only
    rw [A.u32_add (a := f.1) (b := f.2.1) (by omega), A.u32_add (by omega)]
    omega
  · omega

theorem plan_acceptable {clear disableFilter : Bool} {p : Plan}
    (h : planGxDisplayCopy A R s e clear disableFilter = .ok p) : Acceptable e A p := by
  obtain ⟨⟨hwidth, hheight⟩, hlogical, l, r, t, b, hx, hy, hl, hr, ht, hb, q, hq, rfl⟩ :=
    planGxDisplayCopy_eq_ok h
  obtain ⟨-, ⟨mesh, hmesh⟩, hclear, hfilter, hformat⟩ := planGxTextureCopy_eq_ok hq
  have hclear := planClearIf_spec hclear
  refine ⟨hformat, displayFilter_le (planFilter_le hfilter), ?_, rfl,
    sampledBlitVertices_target hmesh, ⟨mesh, hmesh⟩, hclear.1, hclear.2.1⟩
  refine ⟨zero_lt_one.trans_le (le_max_right _ _), max_le ?_ (by norm_num)⟩
  -- The rows of the target are not more than 16384, those of the source at least one.
  have hrows : (copyRegisters A R s e).texCopySrc.height ≤ 16384 ∧
      0 ≤ (copyRegisters A R s e).texCopySrc.height := by
    rw [copyRegisters, hb, ht]
    dsimp only
    rw [A.i64_eq (by omega) (by omega), A.i32_eq (by omega) (by omega)]
    omega
  have hone : (1 : ℚ) ≤ R.round s.dispCopySrc.height := by
    have hround : R.round ((1 : ℤ) : ℚ) = (1 : ℤ) := R.round_int (by decide)
    refine le_of_eq_of_le (hround.trans Int.cast_one).symm (R.monotone ?_)
    exact_mod_cast hlogical.2.2
  have htop : R.round ((copyRegisters A R s e).texCopySrc.height : ℚ) ≤ 16384 := by
    have hround : R.round ((16384 : ℤ) : ℚ) = (16384 : ℤ) := R.round_int (by decide)
    refine (R.monotone ?_).trans_eq (hround.trans (by norm_num))
    exact_mod_cast hrows.1
  have hnonneg : 0 ≤ R.round ((copyRegisters A R s e).texCopySrc.height : ℚ) := by
    have hround : R.round ((0 : ℤ) : ℚ) = (0 : ℤ) := R.round_int (by decide)
    refine le_of_eq_of_le (hround.trans Int.cast_zero).symm (R.monotone ?_)
    exact_mod_cast hrows.2
  have hround : R.round ((16384 : ℤ) : ℚ) = (16384 : ℤ) := R.round_int (by decide)
  refine (R.monotone ((div_le_self hnonneg hone).trans htop)).trans_eq ?_
  exact_mod_cast hround

end Made

end Gpu.DisplayCopy
