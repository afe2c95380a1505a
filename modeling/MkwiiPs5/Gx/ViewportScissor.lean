import MkwiiPs5.Arithmetic
import MkwiiPs5.Gx.Viewport
import MkwiiPs5.Interval
import MkwiiPs5.Rounding

/-!
# The scissor of the backend

`map_gx_viewport`, as far as its scissor goes, over any arithmetic of words and any rounding of
doubles. What it makes of the viewport is in `Gx.mapGxViewport`.
-/

namespace Gx.Scissor

open Interval

/-- A viewport whose numbers are finite. Its range of depth has no part in the scissor. -/
structure FiniteViewport where
  left : ℚ
  top : ℚ
  width : ℚ
  height : ℚ

/-- The registers, with the extent of the backend; a viewport that is not finite is none. -/
structure Registers where
  extent : GxRenderExtent
  nativePolicy : Bool
  logicalViewport : Option FiniteViewport
  logicalScissor : ClipRect
  scissorOffsetX : ℤ
  scissorOffsetY : ℤ

variable (A : Arithmetic) (R : Rounding) (s : Registers) (v : FiniteViewport)

/-- The length of what a viewport covers on one axis, from one coordinate to another. -/
def span (low high : ℤ) (start size : ℚ) : ℚ :=
  let x0 := min start (R.round (start + size))
  let x1 := max start (R.round (start + size))
  R.round (clamp (R.round high) x0 x1 - clamp (R.round low) x0 x1)

def overlap (c : Candidate) : ℤ :=
  let left := A.i64 (c.rect.x + c.xOffset)
  let right := A.i64 (A.i64 (c.rect.x + c.xOffset) + c.rect.width)
  let top := A.i64 (c.rect.y + c.yOffset)
  let bottom := A.i64 (A.i64 (c.rect.y + c.yOffset) + c.rect.height)
  ⌊R.round (max (span R left right v.left v.width) 0 * max (span R top bottom v.top v.height) 0)⌋

structure Best where
  candidate : Candidate
  overlap : ℤ
  area : ℤ

/-- `score>bestOverlap||(score==bestOverlap&&area>bestArea)`, where one was found. -/
def keepBest (best : Option Best) (new : Best) : Option Best :=
  match best with
  | none => some new
  | some old =>
    if new.overlap > old.overlap ∨ new.overlap = old.overlap ∧ new.area > old.area then some new
    else some old

/-- One turn of the loops over wrapped scissor offsets. -/
def tryCandidate (best : Option Best) (x y : ℤ) : Option Best :=
  let r := s.logicalScissor
  let ox := A.i64 (s.scissorOffsetX + x)
  let oy := A.i64 (s.scissorOffsetY + y)
  let left := clamp (A.i64 (r.x - ox)) 0 s.extent.logicalWidth
  let right := clamp (A.i64 (A.i64 (r.x + r.width) - ox)) 0 s.extent.logicalWidth
  let top := clamp (A.i64 (r.y - oy)) 0 s.extent.logicalHeight
  let bottom := clamp (A.i64 (A.i64 (r.y + r.height) - oy)) 0 s.extent.logicalHeight
  if left ≥ right ∨ top ≥ bottom then best
  else
    let width := A.i64 (right - left)
    let height := A.i64 (bottom - top)
    let c : Candidate := ⟨⟨A.i32 left, A.i32 top, A.i32 width, A.i32 height⟩, ox, oy⟩
    keepBest best ⟨c, overlap A R v c, A.i64 (width * height)⟩

def bestCandidate : Option Best :=
  if s.logicalScissor.width > 0 ∧ s.logicalScissor.height > 0 then
    wrapOffsets.foldl
      (fun best x => wrapOffsets.foldl (fun best y => tryCandidate A R s v best x y) best) none
  else none

def scaleToTarget (value : ℤ) (target logical : ℕ) (upper : Bool) : ℤ :=
  let n := R.round (R.round (value * target) / logical)
  A.i32 (clamp (if upper then ⌈n⌉ else ⌊n⌋) 0 target)

/-- The scissor of `map_gx_viewport`. -/
def mapScissor : ClipRect :=
  match s.logicalViewport with
  | none => ⟨0, 0, 0, 0⟩
  | some v =>
    let e := s.extent
    if !e.valid then ⟨0, 0, 0, 0⟩
    else if s.nativePolicy then s.logicalScissor
    else
      match bestCandidate A R s v with
      | none => ⟨0, 0, 0, 0⟩
      | some best =>
        let rect := best.candidate.rect
        let left := scaleToTarget A R rect.x e.targetWidth e.logicalWidth false
        let top := scaleToTarget A R rect.y e.targetHeight e.logicalHeight false
        let right :=
          scaleToTarget A R (A.i64 (rect.x + rect.width)) e.targetWidth e.logicalWidth true
        let bottom :=
          scaleToTarget A R (A.i64 (rect.y + rect.height)) e.targetHeight e.logicalHeight true
        ⟨left, top, A.i32 (right - left), A.i32 (bottom - top)⟩

/-! ### One algorithm

`Gx.mapGxViewport` computes with floats and `mapScissor` with rounded fractions. Both are the same
loops, over the numbers that they are given. -/

/-- The words, doubles and scores of candidates that the scissor is computed with. -/
structure Numbers where
  i64 : ℤ → ℤ
  i32 : ℤ → ℤ
  Double : Type
  ofInt : ℤ → Double
  zero : Double
  add : Double → Double → Double
  sub : Double → Double → Double
  mul : Double → Double → Double
  less : Double → Double → Bool
  Score : Type
  floor : Double → Score
  beats : Score → Score → Bool
  ties : Score → Score → Bool
  scale : ℤ → ℕ → ℕ → Bool → ℤ

namespace Numbers

@[reducible]
def floats : Numbers where
  i64 := id
  i32 := id
  Double := Float
  ofInt := .ofInt
  zero := 0.0
  add := (· + ·)
  sub := (· - ·)
  mul := (· * ·)
  less a b := a < b
  Score := Float
  floor := .floor
  beats a b := a > b
  ties a b := a == b
  scale := Gx.scaleToTarget

@[reducible]
def rounded : Numbers where
  i64 := A.i64
  i32 := A.i32
  Double := ℚ
  ofInt n := R.round n
  zero := 0
  add a b := R.round (a + b)
  sub a b := R.round (a - b)
  mul a b := R.round (a * b)
  less a b := a < b
  Score := ℤ
  floor a := ⌊a⌋
  beats a b := a > b
  ties a b := a = b
  scale := scaleToTarget A R

variable (N : Numbers)

def min (a b : N.Double) : N.Double := if N.less b a then b else a
def max (a b : N.Double) : N.Double := if N.less a b then b else a
def clamp (v lo hi : N.Double) : N.Double :=
  if N.less v lo then lo else if N.less hi v then hi else v

/-- A finite viewport in doubles. -/
structure Box where
  left : N.Double
  top : N.Double
  width : N.Double
  height : N.Double

structure Windows where
  extent : GxRenderExtent
  nativePolicy : Bool
  viewport : Option N.Box
  logicalScissor : ClipRect
  scissorOffsetX : ℤ
  scissorOffsetY : ℤ

structure Best where
  candidate : Candidate
  overlap : N.Score
  area : ℤ

def span (low high : ℤ) (start size : N.Double) : N.Double :=
  let x0 := N.min start (N.add start size)
  let x1 := N.max start (N.add start size)
  N.sub (N.clamp (N.ofInt high) x0 x1) (N.clamp (N.ofInt low) x0 x1)

def overlap (v : N.Box) (c : Candidate) : N.Score :=
  let left := N.i64 (c.rect.x + c.xOffset)
  let right := N.i64 (left + c.rect.width)
  let top := N.i64 (c.rect.y + c.yOffset)
  let bottom := N.i64 (top + c.rect.height)
  N.floor (N.mul (N.max (N.span left right v.left v.width) N.zero)
    (N.max (N.span top bottom v.top v.height) N.zero))

def keepBest (best : Option N.Best) (new : N.Best) : Option N.Best :=
  match best with
  | none => some new
  | some old =>
    if N.beats new.overlap old.overlap || (N.ties new.overlap old.overlap && new.area > old.area) then
      some new
    else some old

def tryCandidate (s : N.Windows) (v : N.Box) (best : Option N.Best) (x y : ℤ) : Option N.Best :=
  let r := s.logicalScissor
  let ox := N.i64 (s.scissorOffsetX + x)
  let oy := N.i64 (s.scissorOffsetY + y)
  let left := clampInt (N.i64 (r.x - ox)) 0 s.extent.logicalWidth
  let right := clampInt (N.i64 (N.i64 (r.x + r.width) - ox)) 0 s.extent.logicalWidth
  let top := clampInt (N.i64 (r.y - oy)) 0 s.extent.logicalHeight
  let bottom := clampInt (N.i64 (N.i64 (r.y + r.height) - oy)) 0 s.extent.logicalHeight
  if left ≥ right ∨ top ≥ bottom then best
  else
    let width := N.i64 (right - left)
    let height := N.i64 (bottom - top)
    let c : Candidate := ⟨⟨N.i32 left, N.i32 top, N.i32 width, N.i32 height⟩, ox, oy⟩
    N.keepBest best ⟨c, N.overlap v c, N.i64 (width * height)⟩

def bestCandidate (s : N.Windows) (v : N.Box) : Option N.Best :=
  if s.logicalScissor.width > 0 ∧ s.logicalScissor.height > 0 then
    wrapOffsets.foldl
      (fun best x => wrapOffsets.foldl (fun best y => N.tryCandidate s v best x y) best) none
  else none

def mapScissor (s : N.Windows) : ClipRect :=
  match s.viewport with
  | none => ⟨0, 0, 0, 0⟩
  | some v =>
    let e := s.extent
    if !e.valid then ⟨0, 0, 0, 0⟩
    else if s.nativePolicy then s.logicalScissor
    else
      match N.bestCandidate s v with
      | none => ⟨0, 0, 0, 0⟩
      | some best =>
        let rect := best.candidate.rect
        let left := N.scale rect.x e.targetWidth e.logicalWidth false
        let top := N.scale rect.y e.targetHeight e.logicalHeight false
        let right := N.scale (N.i64 (rect.x + rect.width)) e.targetWidth e.logicalWidth true
        let bottom := N.scale (N.i64 (rect.y + rect.height)) e.targetHeight e.logicalHeight true
        ⟨left, top, N.i32 (right - left), N.i32 (bottom - top)⟩

/-! ### Over fractions -/

theorem rounded_min (a b : ℚ) : (rounded A R).min a b = Min.min a b := by
  change (if decide (b < a) = true then b else a) = _
  rw [min_def]
  by_cases h : b < a
  · rw [if_pos (decide_eq_true h), if_neg (not_le.mpr h)]
  · rw [if_neg (by simpa using h), if_pos (not_lt.mp h)]

theorem rounded_max (a b : ℚ) : (rounded A R).max a b = Max.max a b := by
  change (if decide (a < b) = true then b else a) = _
  rw [max_def]
  by_cases h : a < b
  · rw [if_pos (decide_eq_true h), if_pos h.le]
  · by_cases hle : a ≤ b
    · rw [if_neg (by simpa using h), if_pos hle]
      exact le_antisymm hle (not_lt.mp h)
    · rw [if_neg (by simpa using h), if_neg hle]

theorem rounded_clamp (v lo hi : ℚ) : (rounded A R).clamp v lo hi = Interval.clamp v lo hi := by
  change (if decide (v < lo) = true then lo else if decide (hi < v) = true then hi else v) = _
  rw [Interval.clamp]
  simp only [decide_eq_true_eq]

theorem rounded_span (low high : ℤ) (start size : ℚ) :
    (rounded A R).span low high start size = Scissor.span R low high start size := by
  unfold Numbers.span Scissor.span
  dsimp only
  rw [rounded_min, rounded_max, rounded_clamp, rounded_clamp]

variable {A R}

/-- A viewport of fractions, and what is kept of the best candidate. -/
def box (v : FiniteViewport) : (rounded A R).Box := ⟨v.left, v.top, v.width, v.height⟩
def best (b : Scissor.Best) : (rounded A R).Best := ⟨b.candidate, b.overlap, b.area⟩

variable (A R)

def fractions (s : Registers) : (rounded A R).Windows :=
  ⟨s.extent, s.nativePolicy, s.logicalViewport.map box, s.logicalScissor, s.scissorOffsetX,
    s.scissorOffsetY⟩

theorem rounded_overlap (v : FiniteViewport) (c : Candidate) :
    (rounded A R).overlap (box v) c = Scissor.overlap A R v c := by
  unfold Numbers.overlap Scissor.overlap
  dsimp only [box]
  rw [rounded_span, rounded_span, rounded_max, rounded_max]

theorem rounded_keepBest (old : Option Scissor.Best) (new : Scissor.Best) :
    (rounded A R).keepBest (old.map best) (best new) = (Scissor.keepBest old new).map best := by
  cases old with
  | none => rfl
  | some old =>
    rw [Scissor.keepBest, apply_ite (Option.map best)]
    have hnew : ((rounded A R).beats new.overlap old.overlap ||
        ((rounded A R).ties new.overlap old.overlap && decide (new.area > old.area))) =
        decide (new.overlap > old.overlap ∨ new.overlap = old.overlap ∧ new.area > old.area) := by
      rw [Bool.decide_or, Bool.decide_and]
    change (if ((rounded A R).beats new.overlap old.overlap ||
        ((rounded A R).ties new.overlap old.overlap && decide (new.area > old.area))) = true then
      some (best new) else some (best old)) = _
    rw [hnew]
    simp only [decide_eq_true_eq, Option.map_some]

theorem rounded_tryCandidate (s : Registers) (v : FiniteViewport) (old : Option Scissor.Best)
    (x y : ℤ) :
    (rounded A R).tryCandidate (fractions A R s) (box v) (old.map best) x y =
      (Scissor.tryCandidate A R s v old x y).map best := by
  unfold Numbers.tryCandidate Scissor.tryCandidate
  dsimp only [fractions]
  rw [apply_ite (Option.map best), ← rounded_keepBest]
  simp only [rounded_overlap]
  rfl

theorem rounded_bestCandidate (s : Registers) (v : FiniteViewport) :
    (rounded A R).bestCandidate (fractions A R s) (box v) =
      (Scissor.bestCandidate A R s v).map best := by
  rw [Numbers.bestCandidate, Scissor.bestCandidate, apply_ite (Option.map best)]
  have hrow : ∀ old x, wrapOffsets.foldl
      (fun old y => (rounded A R).tryCandidate (fractions A R s) (box v) old x y) (old.map best) =
      (wrapOffsets.foldl (fun old y => Scissor.tryCandidate A R s v old x y) old).map best :=
    fun old x => List.foldl_hom (Option.map best) fun old y => rounded_tryCandidate A R s v old x y
  exact congrArg (fun found => if s.logicalScissor.width > 0 ∧ s.logicalScissor.height > 0 then found
    else none) (@List.foldl_hom _ _ _ (Option.map best) _ _ wrapOffsets none hrow)

/-- Over rounded fractions the algorithm is the one whose scissor is judged. -/
theorem mapScissor_rounded (s : Registers) :
    Scissor.mapScissor A R s = (rounded A R).mapScissor (fractions A R s) := by
  have hviewport : (fractions A R s).viewport = s.logicalViewport.map box := rfl
  rw [Numbers.mapScissor, Scissor.mapScissor, hviewport]
  cases s.logicalViewport with
  | none => rfl
  | some v =>
    dsimp only [Option.map_some]
    rw [rounded_bestCandidate]
    cases Scissor.bestCandidate A R s v <;> rfl

/-! ### Over floats -/

def widened (v : Viewport) : floats.Box :=
  ⟨v.left.toFloat, v.top.toFloat, v.width.toFloat, v.height.toFloat⟩

/-- The viewport in doubles, if it is finite. -/
def doubles (s : ViewState) : floats.Windows where
  extent := s.extent
  nativePolicy := s.nativePolicy
  viewport := if s.logicalViewport.finite then some (widened s.logicalViewport) else none
  logicalScissor := s.logicalScissor
  scissorOffsetX := s.scissorOffsetX
  scissorOffsetY := s.scissorOffsetY

/-- The best candidate as `mapGxViewport` keeps it. -/
def kept : Option floats.Best → BestCandidate
  | none => ⟨⟨⟨0, 0, 0, 0⟩, 0, 0⟩, false, -1.0, -1⟩
  | some b => ⟨b.candidate, true, b.overlap, b.area⟩

theorem floats_min (a b : Float) : floats.min a b = stdMin a b := by
  simp [Numbers.min, stdMin]

theorem floats_max (a b : Float) : floats.max a b = stdMax a b := by
  simp [Numbers.max, stdMax]

theorem floats_clamp (v lo hi : Float) : floats.clamp v lo hi = stdClamp v lo hi := by
  simp [Numbers.clamp, stdClamp]

theorem floats_overlap (v : Viewport) (c : Candidate) :
    floats.overlap (widened v) c = Gx.overlap c v := by
  unfold Numbers.overlap Numbers.span Gx.overlap
  simp only [floats_min, floats_max, floats_clamp]
  rfl

theorem floats_tryCandidate (s : ViewState) (old : Option floats.Best) (x y : ℤ) :
    kept (floats.tryCandidate (doubles s) (widened s.logicalViewport) old x y) =
      Gx.tryCandidate s (kept old) x y := by
  unfold Numbers.tryCandidate Gx.tryCandidate
  simp only [floats_overlap]
  rw [apply_ite kept]
  cases old with
  | none => rfl
  | some old =>
    rw [Numbers.keepBest, apply_ite kept]
    rfl

theorem floats_bestCandidate (s : ViewState) :
    kept (floats.bestCandidate (doubles s) (widened s.logicalViewport)) = Gx.bestCandidate s := by
  rw [Numbers.bestCandidate, Gx.bestCandidate, apply_ite kept]
  have hrow : ∀ old x, wrapOffsets.foldl (fun old y => Gx.tryCandidate s old x y) (kept old) =
      kept (wrapOffsets.foldl
        (fun old y => floats.tryCandidate (doubles s) (widened s.logicalViewport) old x y) old) :=
    fun old x => List.foldl_hom kept fun old y => (floats_tryCandidate s old x y).symm
  exact congrArg (fun found => if s.logicalScissor.width > 0 ∧ s.logicalScissor.height > 0 then found
    else kept none) (@List.foldl_hom _ _ _ kept _ _ wrapOffsets none hrow).symm

/-- Over floats it is the one that the setters apply. -/
theorem mapGxViewport_floats (s : ViewState) :
    (mapGxViewport s).2 = floats.mapScissor (doubles s) := by
  have hviewport : (doubles s).viewport =
      if s.logicalViewport.finite then some (widened s.logicalViewport) else none := rfl
  rw [mapGxViewport, Numbers.mapScissor, hviewport, ← floats_bestCandidate]
  cases hfinite : s.logicalViewport.finite with
  | false =>
    dsimp only
    rw [if_pos (by simp)]
    rfl
  | true =>
    change Prod.snd (if (!s.extent.valid || !true) = true then _ else if s.nativePolicy then _ else _) =
      if (!s.extent.valid) = true then _ else if s.nativePolicy then _ else _
    cases s.extent.valid with
    | false => rfl
    | true =>
      cases s.nativePolicy with
      | true => rfl
      | false =>
        generalize floats.bestCandidate (doubles s) _ = found
        cases found <;> rfl

end Numbers

end Gx.Scissor
