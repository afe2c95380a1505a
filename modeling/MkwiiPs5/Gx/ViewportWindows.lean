import Mathlib.Data.Int.ConditionallyCompleteOrder
import Mathlib.Data.List.MinMax
import Mathlib.Data.List.ProdSigma
import Mathlib.Data.Prod.Lex
import Mathlib.Tactic.Linarith
import MkwiiPs5.Gx.ViewportScissor

/-!
# The windows of the scissor

The wrapped windows of a scissor, which of them the mapping chooses, and what it becomes on the target.
-/

namespace Gx.Scissor

open Interval

variable {A : Arithmetic} {R : DoubleRounding} {s : Registers} {v : FiniteViewport}

/-! ### Windows -/

/-- The offsets by which a scissor is wrapped on both axes. -/
def wraps : List (ℤ × ℤ) := wrapOffsets ×ˢ wrapOffsets

theorem mem_wraps {p : ℤ × ℤ} (hp : p ∈ wraps) :
    (-4096 ≤ p.1 ∧ p.1 ≤ 4096) ∧ -4096 ≤ p.2 ∧ p.2 ≤ 4096 := by
  revert p
  decide

/-- Where an interval of the scissor comes to on the frame. -/
def cut (start size offset : ℤ) (logical : ℕ) : ℤ × ℤ :=
  (clamp (start - offset) 0 logical, clamp (start + size - offset) 0 logical)

/-- The part of the frame that is inside a wrapped scissor. -/
def window (s : Registers) (p : ℤ × ℤ) : Candidate :=
  let x := cut s.logicalScissor.x s.logicalScissor.width (s.scissorOffsetX + p.1)
    s.extent.logicalWidth
  let y := cut s.logicalScissor.y s.logicalScissor.height (s.scissorOffsetY + p.2)
    s.extent.logicalHeight
  ⟨⟨x.1, y.1, x.2 - x.1, y.2 - y.1⟩, s.scissorOffsetX + p.1, s.scissorOffsetY + p.2⟩

/-- A wrapped scissor and the frame have a pixel in common. -/
def Meets (s : Registers) (p : ℤ × ℤ) : Prop :=
  (∃ i, (s.logicalScissor.x ≤ i + (s.scissorOffsetX + p.1) ∧
      i + (s.scissorOffsetX + p.1) < s.logicalScissor.x + s.logicalScissor.width) ∧
    0 ≤ i ∧ i < s.extent.logicalWidth) ∧
  ∃ i, (s.logicalScissor.y ≤ i + (s.scissorOffsetY + p.2) ∧
      i + (s.scissorOffsetY + p.2) < s.logicalScissor.y + s.logicalScissor.height) ∧
    0 ≤ i ∧ i < s.extent.logicalHeight

theorem cut_lt_iff {start size offset : ℤ} {logical : ℕ} :
    (cut start size offset logical).1 < (cut start size offset logical).2 ↔
      ∃ i, (start ≤ i + offset ∧ i + offset < start + size) ∧ 0 ≤ i ∧ i < logical := by
  constructor
  · intro hlt
    refine ⟨(cut start size offset logical).1, ?_⟩
    simp only [cut, clamp] at hlt ⊢
    split_ifs at hlt ⊢ <;> omega
  · rintro ⟨i, hi, hi'⟩
    simp only [cut, clamp]
    split_ifs <;> omega

theorem meets_iff {p : ℤ × ℤ} :
    Meets s p ↔ 0 < (window s p).rect.width ∧ 0 < (window s p).rect.height := by
  show _ ↔ 0 < _ - _ ∧ 0 < _ - _
  rw [sub_pos, sub_pos]
  exact and_congr cut_lt_iff.symm cut_lt_iff.symm

instance (s : Registers) : DecidablePred (Meets s) := fun _ => decidable_of_iff _ meets_iff.symm

/-- The whole pixels of the viewport that are inside a window. -/
def pixels (R : Rounding) (v : FiniteViewport) (c : Candidate) : ℤ :=
  ⌊R.round (max (span R (c.rect.x + c.xOffset) (c.rect.x + c.xOffset + c.rect.width)
      v.left v.width) 0 *
    max (span R (c.rect.y + c.yOffset) (c.rect.y + c.yOffset + c.rect.height)
      v.top v.height) 0)⌋

def area (c : Candidate) : ℤ := c.rect.width * c.rect.height

/-- Windows are ranked by the pixels of the viewport, then by their area. -/
def rank (R : Rounding) (s : Registers) (v : FiniteViewport) (p : ℤ × ℤ) : ℤ ×ₗ ℤ :=
  toLex (pixels R v (window s p), area (window s p))

/-! ### The loop -/

/-- Registers of 32 bits, and an extent that is accepted. -/
structure InRange (s : Registers) : Prop where
  x : -2 ^ 31 ≤ s.logicalScissor.x ∧ s.logicalScissor.x < 2 ^ 31
  y : -2 ^ 31 ≤ s.logicalScissor.y ∧ s.logicalScissor.y < 2 ^ 31
  width : -2 ^ 31 ≤ s.logicalScissor.width ∧ s.logicalScissor.width < 2 ^ 31
  height : -2 ^ 31 ≤ s.logicalScissor.height ∧ s.logicalScissor.height < 2 ^ 31
  offsetX : -2 ^ 31 ≤ s.scissorOffsetX ∧ s.scissorOffsetX < 2 ^ 31
  offsetY : -2 ^ 31 ≤ s.scissorOffsetY ∧ s.scissorOffsetY < 2 ^ 31
  logicalWidth : 0 < s.extent.logicalWidth ∧ s.extent.logicalWidth ≤ 32767
  logicalHeight : 0 < s.extent.logicalHeight ∧ s.extent.logicalHeight ≤ 32767
  targetWidth : 0 < s.extent.targetWidth ∧ s.extent.targetWidth ≤ 32767
  targetHeight : 0 < s.extent.targetHeight ∧ s.extent.targetHeight ≤ 32767

theorem cut_mem (start size offset : ℤ) (logical : ℕ) :
    (0 ≤ (cut start size offset logical).1 ∧ (cut start size offset logical).1 ≤ logical) ∧
      0 ≤ (cut start size offset logical).2 ∧ (cut start size offset logical).2 ≤ logical := by
  have h : (0 : ℤ) ≤ logical := Int.natCast_nonneg _
  exact ⟨⟨le_clamp h, clamp_le h⟩, le_clamp h, clamp_le h⟩

/-- No sum of a window leaves its words. -/
theorem overlap_eq {c : Candidate} (hx : 0 ≤ c.rect.x ∧ c.rect.x < 2 ^ 15)
    (hy : 0 ≤ c.rect.y ∧ c.rect.y < 2 ^ 15) (hw : 0 ≤ c.rect.width ∧ c.rect.width < 2 ^ 15)
    (hh : 0 ≤ c.rect.height ∧ c.rect.height < 2 ^ 15) (hox : |c.xOffset| ≤ 2 ^ 32)
    (hoy : |c.yOffset| ≤ 2 ^ 32) : overlap A R.toRounding v c = pixels R.toRounding v c := by
  rw [abs_le] at hox hoy
  have hleft : A.i64 (c.rect.x + c.xOffset) = c.rect.x + c.xOffset :=
    A.i64_eq (by omega) (by omega)
  have hright : A.i64 (c.rect.x + c.xOffset + c.rect.width) =
      c.rect.x + c.xOffset + c.rect.width := A.i64_eq (by omega) (by omega)
  have htop : A.i64 (c.rect.y + c.yOffset) = c.rect.y + c.yOffset :=
    A.i64_eq (by omega) (by omega)
  have hbottom : A.i64 (c.rect.y + c.yOffset + c.rect.height) =
      c.rect.y + c.yOffset + c.rect.height := A.i64_eq (by omega) (by omega)
  rw [overlap, hleft, hright, htop, hbottom, pixels]

/-- What the loop remembers of a window. -/
def bestOf (R : Rounding) (s : Registers) (v : FiniteViewport) (p : ℤ × ℤ) : Best :=
  ⟨window s p, pixels R v (window s p), area (window s p)⟩

/-- No coordinate of a window leaves its words. -/
theorem cut_eq {start size offset : ℤ} {wrap : ℤ} (logical : ℕ)
    (hstart : -2 ^ 31 ≤ start ∧ start < 2 ^ 31) (hsize : -2 ^ 31 ≤ size ∧ size < 2 ^ 31)
    (hoffset : -2 ^ 31 ≤ offset ∧ offset < 2 ^ 31) (hwrap : -4096 ≤ wrap ∧ wrap ≤ 4096) :
    A.i64 (offset + wrap) = offset + wrap ∧
      clamp (A.i64 (start - (offset + wrap))) 0 (logical : ℤ) =
        (cut start size (offset + wrap) logical).1 ∧
      clamp (A.i64 (A.i64 (start + size) - (offset + wrap))) 0 (logical : ℤ) =
        (cut start size (offset + wrap) logical).2 := by
  have hstop : A.i64 (start + size) = start + size := A.i64_eq (by omega) (by omega)
  refine ⟨A.i64_eq (by omega) (by omega), ?_, ?_⟩
  · rw [A.i64_eq (by omega) (by omega), cut]
  · rw [hstop, A.i64_eq (by omega) (by omega), cut]

theorem window_mem (s : Registers) (p : ℤ × ℤ) :
    ((0 ≤ (window s p).rect.x ∧
        (window s p).rect.x + (window s p).rect.width ≤ s.extent.logicalWidth) ∧
      0 ≤ (window s p).rect.y ∧
        (window s p).rect.y + (window s p).rect.height ≤ s.extent.logicalHeight) := by
  obtain ⟨hx₁, hx₂⟩ := cut_mem s.logicalScissor.x s.logicalScissor.width
    (s.scissorOffsetX + p.1) s.extent.logicalWidth
  obtain ⟨hy₁, hy₂⟩ := cut_mem s.logicalScissor.y s.logicalScissor.height
    (s.scissorOffsetY + p.2) s.extent.logicalHeight
  exact ⟨⟨hx₁.1, (add_sub_cancel _ _).trans_le hx₂.2⟩,
    hy₁.1, (add_sub_cancel _ _).trans_le hy₂.2⟩

/-- A turn passes over a window that is empty, and keeps the better one of two. -/
theorem tryCandidate_eq (h : InRange s) {p : ℤ × ℤ} (hp : p ∈ wraps) (best : Option Best) :
    tryCandidate A R.toRounding s v best p.1 p.2 =
      if Meets s p then keepBest best (bestOf R.toRounding s v p) else best := by
  obtain ⟨hpx, hpy⟩ := mem_wraps hp
  obtain ⟨hox, hleft, hright⟩ := cut_eq (A := A) s.extent.logicalWidth h.x h.width h.offsetX hpx
  obtain ⟨hoy, htop, hbottom⟩ := cut_eq (A := A) s.extent.logicalHeight h.y h.height h.offsetY hpy
  obtain ⟨⟨hx₁, hx₂⟩, hy₁, hy₂⟩ := window_mem s p
  have hlogicalX := h.logicalWidth.2
  have hlogicalY := h.logicalHeight.2
  have hoffsetX := h.offsetX
  have hoffsetY := h.offsetY
  unfold tryCandidate
  dsimp only
  rw [hox, hoy, hleft, hright, htop, hbottom]
  let c : Candidate := ⟨⟨A.i32 (window s p).rect.x, A.i32 (window s p).rect.y,
    A.i32 (A.i64 (window s p).rect.width), A.i32 (A.i64 (window s p).rect.height)⟩,
    (window s p).xOffset, (window s p).yOffset⟩
  change (if (window s p).rect.x ≥ _ ∨ (window s p).rect.y ≥ _ then best else
    keepBest best ⟨c, overlap A R.toRounding v c,
      A.i64 (A.i64 (window s p).rect.width * A.i64 (window s p).rect.height)⟩) = _
  by_cases hmeets : Meets s p
  · obtain ⟨hw, hh⟩ := meets_iff.mp hmeets
    -- a window is at most 32767 on each side, so that no word wraps
    have hwidth : A.i64 (window s p).rect.width = (window s p).rect.width :=
      A.i64_eq (by omega) (by omega)
    have hheight : A.i64 (window s p).rect.height = (window s p).rect.height :=
      A.i64_eq (by omega) (by omega)
    have hprod : (window s p).rect.width * (window s p).rect.height ≤ 32767 * 32767 :=
      mul_le_mul (by omega) (by omega) hh.le (by decide)
    have hprod' := mul_pos hw hh
    have harea : A.i64 ((window s p).rect.width * (window s p).rect.height) =
        area (window s p) := A.i64_eq (by omega) (by omega)
    have hpixels := overlap_eq (A := A) (R := R) (v := v) (c := window s p) ⟨hx₁, by omega⟩
      ⟨hy₁, by omega⟩ ⟨hw.le, by omega⟩ ⟨hh.le, by omega⟩
      (abs_le.mpr (show -2 ^ 32 ≤ s.scissorOffsetX + p.1 ∧ s.scissorOffsetX + p.1 ≤ 2 ^ 32 by
        omega))
      (abs_le.mpr (show -2 ^ 32 ≤ s.scissorOffsetY + p.2 ∧ s.scissorOffsetY + p.2 ≤ 2 ^ 32 by
        omega))
    have hc : c = window s p := by
      show Candidate.mk ⟨A.i32 _, A.i32 _, A.i32 _, A.i32 _⟩ _ _ = _
      rw [hwidth, hheight, A.i32_eq (by omega) (by omega), A.i32_eq (by omega) (by omega),
        A.i32_eq (by omega) (by omega), A.i32_eq (by omega) (by omega)]
    rw [if_pos hmeets, if_neg, hc, hpixels, hwidth, hheight, harea]
    · rfl
    · rintro (hempty | hempty)
      · exact absurd (sub_pos.mp hw) (not_lt.mpr hempty)
      · exact absurd (sub_pos.mp hh) (not_lt.mpr hempty)
  · -- an empty window is passed over, as in the source
    rw [if_neg hmeets, if_pos]
    rw [meets_iff, not_and_or] at hmeets
    rcases hmeets with hempty | hempty
    · exact Or.inl (sub_nonpos.mp (not_lt.mp hempty))
    · exact Or.inr (sub_nonpos.mp (not_lt.mp hempty))

/-- The better of two windows is the one of higher rank, and the first of two that rank the same. -/
theorem keepBest_eq (best : Option (ℤ × ℤ)) (p : ℤ × ℤ) :
    keepBest (best.map (bestOf R.toRounding s v)) (bestOf R.toRounding s v p) =
      (List.argAux (fun p q => rank R.toRounding s v q < rank R.toRounding s v p) best p).map
        (bestOf R.toRounding s v) := by
  cases best with
  | none => rfl
  | some q =>
    have hiff : (pixels R.toRounding v (window s p) > pixels R.toRounding v (window s q) ∨
        pixels R.toRounding v (window s p) = pixels R.toRounding v (window s q) ∧
          area (window s p) > area (window s q)) ↔
        rank R.toRounding s v q < rank R.toRounding s v p := by
      rw [rank, rank, Prod.Lex.toLex_lt_toLex]
      exact or_congr_right (and_congr_left' eq_comm)
    show (if _ then _ else _) = Option.map _ (if _ then _ else _)
    rw [apply_ite (Option.map _)]
    exact if_congr hiff rfl rfl

/-- The loops choose the window of highest rank. -/
theorem bestCandidate_eq (h : InRange s) (hw : 0 < s.logicalScissor.width)
    (hh : 0 < s.logicalScissor.height) :
    bestCandidate A R.toRounding s v =
      ((wraps.filter (Meets s)).argmax (rank R.toRounding s v)).map (bestOf R.toRounding s v) := by
  have hloop : ∀ l : List (ℤ × ℤ), (∀ p ∈ l, p ∈ wraps) → ∀ best : Option (ℤ × ℤ),
      l.foldl (fun best p => tryCandidate A R.toRounding s v best p.1 p.2)
        (best.map (bestOf R.toRounding s v)) =
      ((l.filter (Meets s)).foldl
        (List.argAux fun p q => rank R.toRounding s v q < rank R.toRounding s v p) best).map
        (bestOf R.toRounding s v) := by
    intro l
    induction l with
    | nil => exact fun _ _ => rfl
    | cons p l ih =>
      intro hl best
      rw [List.foldl_cons, tryCandidate_eq h (hl p List.mem_cons_self)]
      have htail := ih fun q hq => hl q (List.mem_cons_of_mem p hq)
      by_cases hmeets : Meets s p
      · rw [if_pos hmeets, keepBest_eq, htail, List.filter_cons_of_pos
          (p := fun q => decide (Meets s q)) (decide_eq_true hmeets), List.foldl_cons]
      · rw [if_neg hmeets, htail, List.filter_cons_of_neg
          (p := fun q => decide (Meets s q)) (by simpa using hmeets)]
  have hproduct : wraps = wrapOffsets.flatMap fun x => wrapOffsets.map (Prod.mk x) := rfl
  rw [bestCandidate, if_pos ⟨hw, hh⟩]
  refine Eq.trans ?_ (hloop wraps (fun _ hp => hp) none)
  rw [hproduct, List.foldl_flatMap]
  simp only [List.foldl_map]
  rfl

/-! ### The target -/

/-- The smallest interval of whole numbers around an interval. -/
structure Smallest (low high : ℚ) (start size : ℤ) : Prop where
  start_le : start ≤ low
  le_stop : high ≤ start + size
  least : ∀ a b : ℤ, a ≤ low → high ≤ b → a ≤ start ∧ start + size ≤ b

theorem scaleToTarget_eq {value : ℤ} {target logical : ℕ} (hvalue : 0 ≤ value ∧ value ≤ logical)
    (hlogical : 0 < logical ∧ logical ≤ 32767) (htarget : target ≤ 32767) (upper : Bool) :
    scaleToTarget A R.toRounding value target logical upper =
      if upper then ⌈(value : ℚ) * target / logical⌉ else ⌊(value : ℚ) * target / logical⌋ := by
  obtain ⟨n, rfl⟩ := Int.eq_ofNat_of_zero_le hvalue.1
  have hn : n ≤ logical := by exact_mod_cast hvalue.2
  have hprod : n * target ≤ 32767 * 32767 := Nat.mul_le_mul (hn.trans hlogical.2) htarget
  have hround : R.round (((n : ℤ) : ℚ) * target) = (n * target : ℕ) := by
    have hexact := R.round_int ((n * target : ℕ) : ℤ) (by
      rw [abs_of_nonneg (Int.natCast_nonneg _)]
      omega)
    push_cast at hexact ⊢
    exact hexact
  have hquotient : ((n : ℤ) : ℚ) * target / logical = (n * target : ℕ) / logical := by
    push_cast
    rfl
  have hnonneg : (0 : ℚ) ≤ (n * target : ℕ) / logical := by positivity
  have hle : ((n * target : ℕ) : ℚ) / logical ≤ target := by
    rw [div_le_iff₀ (by exact_mod_cast hlogical.1)]
    exact_mod_cast (Nat.mul_le_mul_right target hn).trans_eq (Nat.mul_comm _ _)
  rw [scaleToTarget, hround, hquotient, R.floor_round_div (by omega) hlogical.1 (by omega),
    R.ceil_round_div (by omega) hlogical.1 (by omega)]
  have hmem : ∀ m : ℤ, 0 ≤ m → m ≤ target → A.i32 (clamp m 0 target) = m := by
    intro m hm hm'
    rw [clamp_eq_self hm hm', A.i32_eq (by omega) (by omega)]
  cases upper with
  | true => exact hmem _ (Int.ceil_nonneg hnonneg) (Int.ceil_le.mpr (by exact_mod_cast hle))
  | false =>
    refine hmem _ (Int.floor_nonneg.mpr hnonneg) ?_
    exact (Int.floor_le_ceil _).trans (Int.ceil_le.mpr (by exact_mod_cast hle))

theorem smallest_floor_ceil (low high : ℚ) : Smallest low high ⌊low⌋ (⌈high⌉ - ⌊low⌋) := by
  refine ⟨Int.floor_le _, ?_, fun a b ha hb => ⟨Int.le_floor.mpr ha, ?_⟩⟩
  · push_cast
    rw [add_sub_cancel]
    exact Int.le_ceil _
  · rw [add_sub_cancel]
    exact Int.ceil_le.mpr hb

/-- A coordinate of the frame on the target. -/
def image (value : ℤ) (target logical : ℕ) : ℚ := value * target / logical

/-- The scissor is inside the target. It is empty if the logical one is, or is nowhere on the frame;
else it is the smallest rectangle around a window, and no window ranks higher than that one. -/
structure Mapped (R : Rounding) (s : Registers) (v : FiniteViewport) (t : ClipRect) : Prop where
  insideX : 0 ≤ t.x ∧ 0 ≤ t.width ∧ t.x + t.width ≤ s.extent.targetWidth
  insideY : 0 ≤ t.y ∧ 0 ≤ t.height ∧ t.y + t.height ≤ s.extent.targetHeight
  empty_iff : t.width = 0 ∨ t.height = 0 ↔
    s.logicalScissor.width ≤ 0 ∨ s.logicalScissor.height ≤ 0 ∨ ∀ p ∈ wraps, ¬ Meets s p
  chosen : t.width ≠ 0 → t.height ≠ 0 → ∃ p ∈ wraps, Meets s p ∧
    Smallest (image (window s p).rect.x s.extent.targetWidth s.extent.logicalWidth)
      (image ((window s p).rect.x + (window s p).rect.width) s.extent.targetWidth
        s.extent.logicalWidth) t.x t.width ∧
    Smallest (image (window s p).rect.y s.extent.targetHeight s.extent.logicalHeight)
      (image ((window s p).rect.y + (window s p).rect.height) s.extent.targetHeight
        s.extent.logicalHeight) t.y t.height ∧
    ∀ q ∈ wraps, Meets s q → pixels R v (window s q) < pixels R v (window s p) ∨
      pixels R v (window s q) = pixels R v (window s p) ∧ area (window s q) ≤ area (window s p)

theorem mapped_empty (h : s.logicalScissor.width ≤ 0 ∨ s.logicalScissor.height ≤ 0 ∨
    ∀ p ∈ wraps, ¬ Meets s p) : Mapped R.toRounding s v ⟨0, 0, 0, 0⟩ :=
  ⟨⟨le_rfl, le_rfl, Int.natCast_nonneg _⟩, ⟨le_rfl, le_rfl, Int.natCast_nonneg _⟩,
    ⟨fun _ => h, fun _ => Or.inl rfl⟩, fun hwidth => absurd rfl hwidth⟩

/-- What one axis of a window becomes. -/
theorem axis_mapped {start size : ℤ} {target logical : ℕ} (hstart : 0 ≤ start) (hsize : 0 < size)
    (hstop : start + size ≤ logical) (hlogical : 0 < logical ∧ logical ≤ 32767)
    (htarget : 0 < target ∧ target ≤ 32767) :
    let low := scaleToTarget A R.toRounding start target logical false
    let high := scaleToTarget A R.toRounding (A.i64 (start + size)) target logical true
    Smallest (image start target logical) (image (start + size) target logical) low
        (A.i32 (high - low)) ∧
      0 ≤ low ∧ 0 < A.i32 (high - low) ∧ low + A.i32 (high - low) ≤ target := by
  intro low high
  have hlow : low = ⌊image start target logical⌋ :=
    scaleToTarget_eq ⟨hstart, by omega⟩ hlogical htarget.2 false
  have hhigh : high = ⌈image (start + size) target logical⌉ := by
    have hsum : A.i64 (start + size) = start + size := A.i64_eq (by omega) (by omega)
    have hend : 0 ≤ start + size ∧ start + size ≤ logical := ⟨by omega, hstop⟩
    have hscale := scaleToTarget_eq (A := A) (R := R) hend hlogical htarget.2 true
    rw [← hsum] at hscale
    rw [image, ← hsum]
    exact hscale
  have hlogicalq : (0 : ℚ) < logical := by exact_mod_cast hlogical.1
  have htargetq : (0 : ℚ) < target := by exact_mod_cast htarget.1
  have hlow0 : 0 ≤ low := by
    rw [hlow]
    refine Int.floor_nonneg.mpr (div_nonneg (mul_nonneg ?_ htargetq.le) hlogicalq.le)
    exact_mod_cast hstart
  have hlt : low < high := by
    have himage : image start target logical < image (start + size) target logical := by
      rw [image, image, div_lt_div_iff_of_pos_right hlogicalq, mul_lt_mul_iff_left₀ htargetq]
      exact_mod_cast lt_add_of_pos_right start hsize
    rw [hlow, hhigh]
    exact_mod_cast (Int.floor_le _).trans_lt (himage.trans_le (Int.le_ceil _))
  have hhighle : high ≤ target := by
    rw [hhigh]
    refine Int.ceil_le.mpr ?_
    rw [image, div_le_iff₀ hlogicalq, mul_comm, Int.cast_natCast]
    refine mul_le_mul_of_nonneg_left ?_ htargetq.le
    exact_mod_cast hstop
  have hdiff : A.i32 (high - low) = high - low := A.i32_eq (by omega) (by omega)
  rw [hdiff]
  refine ⟨?_, hlow0, by omega, by omega⟩
  rw [hlow, hhigh]
  exact smallest_floor_ceil _ _

/-- The mapping chooses a window of highest rank and takes it to the target, in any arithmetic of
words and with any rounding of doubles. -/
theorem scissor_mapped (A : Arithmetic) (R : DoubleRounding) (s : Registers) (v : FiniteViewport)
    (h : InRange s) (hv : s.logicalViewport = some v) (hpolicy : s.nativePolicy = false) :
    Mapped R.toRounding s v (mapScissor A R.toRounding s) := by
  have hvalid : s.extent.valid = true := by
    have hlogicalX := h.logicalWidth
    have hlogicalY := h.logicalHeight
    have htargetX := h.targetWidth
    have htargetY := h.targetHeight
    simp only [GxRenderExtent.valid, Bool.and_eq_true, bne_iff_ne, decide_eq_true_iff]
    omega
  rw [mapScissor, hv]
  dsimp only
  rw [hvalid, hpolicy]
  by_cases hsize : 0 < s.logicalScissor.width ∧ 0 < s.logicalScissor.height
  swap
  · have hnone : bestCandidate A R.toRounding s v = none := if_neg hsize
    rw [hnone]
    exact mapped_empty (by omega)
  rw [bestCandidate_eq h hsize.1 hsize.2]
  cases hbest : (wraps.filter (Meets s)).argmax (rank R.toRounding s v) with
  | none =>
    rw [List.argmax_eq_none, List.filter_eq_nil_iff] at hbest
    exact mapped_empty (Or.inr (Or.inr fun p hp hmeets => hbest p hp (decide_eq_true hmeets)))
  | some p =>
    have hmem := List.mem_filter.mp (List.argmax_mem hbest)
    have hmeets : Meets s p := of_decide_eq_true hmem.2
    obtain ⟨hw, hh⟩ := meets_iff.mp hmeets
    obtain ⟨⟨hx₁, hx₂⟩, hy₁, hy₂⟩ := window_mem s p
    obtain ⟨hsmallX, hlowX, hposX, hstopX⟩ := axis_mapped (A := A) (R := R) hx₁ hw hx₂
      h.logicalWidth h.targetWidth
    obtain ⟨hsmallY, hlowY, hposY, hstopY⟩ := axis_mapped (A := A) (R := R) hy₁ hh hy₂
      h.logicalHeight h.targetHeight
    refine ⟨⟨hlowX, hposX.le, hstopX⟩, ⟨hlowY, hposY.le, hstopY⟩, ⟨fun hempty => ?_,
      fun hempty => ?_⟩, fun _ _ => ⟨p, hmem.1, hmeets, hsmallX, hsmallY, fun q hq hq' => ?_⟩⟩
    · rcases hempty with hzero | hzero
      · exact absurd hzero hposX.ne'
      · exact absurd hzero hposY.ne'
    · rcases hempty with hempty | hempty | hempty
      · omega
      · omega
      · exact absurd hmeets (hempty p hmem.1)
    · have hle := List.le_of_mem_argmax (List.mem_filter.mpr ⟨hq, decide_eq_true hq'⟩) hbest
      exact Prod.Lex.toLex_le_toLex.mp hle

/-! ### What is ranked -/

/-- The length of what two ranges have in common; the second one may run backwards. -/
def common (low high start size : ℚ) : ℚ :=
  max 0 (min high (max start (start + size)) - max low (min start (start + size)))

/-- The area of the part of a viewport that is inside a window. -/
def overlapArea (v : FiniteViewport) (c : Candidate) : ℚ :=
  common (c.rect.x + c.xOffset) (c.rect.x + c.xOffset + c.rect.width) v.left v.width *
    common (c.rect.y + c.yOffset) (c.rect.y + c.yOffset + c.rect.height) v.top v.height

theorem span_exact {low high : ℤ} (h : low ≤ high) (start size : ℚ) :
    max (span .exact low high start size) 0 = common low high start size := by
  have hlh : (low : ℚ) ≤ high := by exact_mod_cast h
  have hrange : min start (start + size) ≤ max start (start + size) := min_le_max
  rw [span, common]
  dsimp only [Rounding.exact, id]
  generalize min start (start + size) = x0 at hrange ⊢
  generalize max start (start + size) = x1 at hrange ⊢
  rw [clamp_eq hrange, clamp_eq hrange, max_comm _ (0 : ℚ)]
  rcases le_total (high : ℚ) x0 with hleft | hleft
  · -- the range ends before the other one starts
    rw [min_eq_left (hleft.trans hrange), min_eq_left (hlh.trans (hleft.trans hrange)),
      max_eq_left hleft, max_eq_left (hlh.trans hleft), max_eq_right (hlh.trans hleft), sub_self,
      max_self, max_eq_left (sub_nonpos.mpr hleft)]
  rcases le_total x1 (low : ℚ) with hright | hright
  · -- the range starts behind the other one
    rw [min_eq_right (hright.trans hlh), min_eq_right hright, sub_self, max_self,
      max_eq_left (hrange.trans hright), max_eq_left (sub_nonpos.mpr hright)]
  · rw [max_eq_right (le_min hleft hrange), min_eq_left hright, max_comm x0]

/-- Without rounding, the pixels of a window are its overlap with the viewport, rounded down. -/
theorem pixels_exact (v : FiniteViewport) {c : Candidate} (hw : 0 ≤ c.rect.width)
    (hh : 0 ≤ c.rect.height) : pixels .exact v c = ⌊overlapArea v c⌋ := by
  rw [pixels, span_exact (le_add_of_nonneg_right hw), span_exact (le_add_of_nonneg_right hh),
    overlapArea]
  push_cast
  rfl

/-- Two windows of the frame, and a viewport of which they hold more than one pixel and less than two
each. -/
def halfPixels : Registers where
  extent := ⟨1024, 1, 1024, 1⟩
  nativePolicy := false
  logicalViewport := some ⟨4091 / 4, 0, 3, 1⟩
  logicalScissor := ⟨0, 0, 2000, 1⟩
  scissorOffsetX := 0
  scissorOffsetY := 0

theorem halfPixels_inRange : InRange halfPixels := by
  constructor <;> decide

theorem scissor_mapped_halfPixels : Mapped .exact halfPixels ⟨4091 / 4, 0, 3, 1⟩
    (mapScissor .modular .exact halfPixels) :=
  scissor_mapped .modular .exact halfPixels ⟨4091 / 4, 0, 3, 1⟩ halfPixels_inRange rfl rfl

/-- Parts of pixels do not count: of two windows with an overlap of 5/4 and 7/4 pixels the first is
chosen, as the larger one. -/
theorem partial_pixel_lost : ¬ ∀ (A : Arithmetic) (R : DoubleRounding) (s : Registers)
    (v : FiniteViewport), InRange s → s.logicalViewport = some v → s.nativePolicy = false →
    (mapScissor A R.toRounding s).width ≠ 0 → (mapScissor A R.toRounding s).height ≠ 0 →
    ∃ p ∈ wraps, Meets s p ∧
      Smallest (image (window s p).rect.x s.extent.targetWidth s.extent.logicalWidth)
        (image ((window s p).rect.x + (window s p).rect.width) s.extent.targetWidth
          s.extent.logicalWidth) (mapScissor A R.toRounding s).x
        (mapScissor A R.toRounding s).width ∧
      ∀ q ∈ wraps, Meets s q → overlapArea v (window s q) ≤ overlapArea v (window s p) := by
  intro hall
  have hscissor : mapScissor .modular .exact halfPixels = ⟨0, 0, 1024, 1⟩ := by decide +kernel
  have hmeets : ∀ p ∈ wraps, Meets halfPixels p → p = (0, 0) ∨ p = (1024, 0) := by
    decide +kernel
  obtain ⟨p, hp, hp', hsmall, hmax⟩ := hall .modular .exact halfPixels ⟨4091 / 4, 0, 3, 1⟩
    halfPixels_inRange rfl rfl (by decide +kernel) (by decide +kernel)
  change Smallest _ _ (mapScissor .modular .exact halfPixels).x
    (mapScissor .modular .exact halfPixels).width at hsmall
  rw [hscissor] at hsmall
  rcases hmeets p hp hp' with rfl | rfl
  · have hle := hmax (1024, 0) (by decide +kernel) (by decide +kernel)
    revert hle
    decide +kernel
  · have hleast := (hsmall.least 0 976 (by decide +kernel) (by decide +kernel)).2
    revert hleast
    decide

end Gx.Scissor
