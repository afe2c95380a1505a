import MkwiiPs5.Gx.RegisterState

/-!
# The viewport of the backend

`map_gx_viewport` maps the logical viewport and scissor to the render target; the setters of
the register backend apply it after every change.
-/

namespace Gx

def Viewport.finite (v : Viewport) : Bool :=
  v.left.isFinite && v.top.isFinite && v.width.isFinite && v.height.isFinite &&
    v.znear.isFinite && v.zfar.isFinite

def GxRenderExtent.valid (e : GxRenderExtent) : Bool :=
  e.logicalWidth != 0 && e.logicalHeight != 0 && e.targetWidth != 0 && e.targetHeight != 0 &&
    e.logicalWidth ≤ 32767 && e.logicalHeight ≤ 32767 && e.targetWidth ≤ 32767 &&
    e.targetHeight ≤ 32767

/-- `std::min`, `std::max` and `std::clamp` of doubles. -/
def stdMin (a b : Float) : Float := if b < a then b else a
def stdMax (a b : Float) : Float := if a < b then b else a
def stdClamp (v lo hi : Float) : Float := if v < lo then lo else if hi < v then hi else v

def clampInt (v lo hi : ℤ) : ℤ := if v < lo then lo else if hi < v then hi else v

structure Candidate where
  rect : ClipRect
  xOffset : ℤ
  yOffset : ℤ

def overlap (c : Candidate) (v : Viewport) : Float :=
  let l := v.left.toFloat
  let t := v.top.toFloat
  let x0 := stdMin l (l + v.width.toFloat)
  let x1 := stdMax l (l + v.width.toFloat)
  let y0 := stdMin t (t + v.height.toFloat)
  let y1 := stdMax t (t + v.height.toFloat)
  let left := stdClamp (.ofInt (c.rect.x + c.xOffset)) x0 x1
  let right := stdClamp (.ofInt (c.rect.x + c.xOffset + c.rect.width)) x0 x1
  let top := stdClamp (.ofInt (c.rect.y + c.yOffset)) y0 y1
  let bottom := stdClamp (.ofInt (c.rect.y + c.yOffset + c.rect.height)) y0 y1
  (stdMax (right - left) 0.0 * stdMax (bottom - top) 0.0).floor

/-- The best candidate so far, with its overlap and area. -/
structure BestCandidate where
  candidate : Candidate
  found : Bool
  overlap : Float
  area : ℤ

/-- One turn of the loops over wrapped scissor offsets. -/
def tryCandidate (s : ViewState) (best : BestCandidate) (x y : ℤ) : BestCandidate :=
  let r := s.logicalScissor
  let ox := s.scissorOffsetX + x
  let oy := s.scissorOffsetY + y
  let left := clampInt (r.x - ox) 0 s.extent.logicalWidth
  let right := clampInt (r.x + r.width - ox) 0 s.extent.logicalWidth
  let top := clampInt (r.y - oy) 0 s.extent.logicalHeight
  let bottom := clampInt (r.y + r.height - oy) 0 s.extent.logicalHeight
  if left ≥ right ∨ top ≥ bottom then best
  else
    let c : Candidate := ⟨⟨left, top, right - left, bottom - top⟩, ox, oy⟩
    let score := overlap c s.logicalViewport
    let area := (right - left) * (bottom - top)
    if !best.found || score > best.overlap || (score == best.overlap && area > best.area) then
      ⟨c, true, score, area⟩
    else best

/-- `for (x = -4096; x <= 4096; x += 1024)`. -/
def wrapOffsets : List ℤ := (List.range 9).map fun i => (i : ℤ) * 1024 - 4096

def bestCandidate (s : ViewState) : BestCandidate :=
  let none : BestCandidate := ⟨⟨⟨0, 0, 0, 0⟩, 0, 0⟩, false, -1.0, -1⟩
  if s.logicalScissor.width > 0 ∧ s.logicalScissor.height > 0 then
    wrapOffsets.foldl (fun best x => wrapOffsets.foldl (fun best y => tryCandidate s best x y) best)
      none
  else none

def scaleToTarget (value : ℤ) (target logical : ℕ) (upper : Bool) : ℤ :=
  let n := Float.ofInt value * Float.ofNat target / Float.ofNat logical
  let n := if upper then n.ceil else n.floor
  (stdClamp n 0.0 (Float.ofNat target)).toInt32.toInt

/-- `map_gx_viewport`. -/
def mapGxViewport (s : ViewState) : Viewport × ClipRect :=
  let v := s.logicalViewport
  let e := s.extent
  if !e.valid || !v.finite then (v, ⟨0, 0, 0, 0⟩)
  else if s.nativePolicy then (v, s.logicalScissor)
  else
    let best := bestCandidate s
    let sx := Float32.ofNat e.targetWidth / Float32.ofNat e.logicalWidth
    let sy := Float32.ofNat e.targetHeight / Float32.ofNat e.logicalHeight
    let mapped : Viewport :=
      { left := (v.left - Float32.ofInt best.candidate.xOffset) * sx
        top := (v.top - Float32.ofInt best.candidate.yOffset) * sy
        width := v.width * sx
        height := v.height * sy
        znear := v.znear
        zfar := v.zfar }
    if !best.found then (mapped, ⟨0, 0, 0, 0⟩)
    else
      let rect := best.candidate.rect
      let left := scaleToTarget rect.x e.targetWidth e.logicalWidth false
      let top := scaleToTarget rect.y e.targetHeight e.logicalHeight false
      let right := scaleToTarget (rect.x + rect.width) e.targetWidth e.logicalWidth true
      let bottom := scaleToTarget (rect.y + rect.height) e.targetHeight e.logicalHeight true
      (mapped, ⟨left, top, right - left, bottom - top⟩)

/-! ### The setters -/

def ViewState.setRenderViewport (value : Viewport) (s : ViewState) : ViewState :=
  if s.renderViewport.same value then s else { s with renderViewport := value }

def ViewState.setRenderScissor (value : ClipRect) (s : ViewState) : ViewState :=
  if s.renderScissor = value then s else { s with renderScissor := value }

/-- `apply`. -/
def ViewState.applyMapped (s : ViewState) : ViewState :=
  let mapped := mapGxViewport s
  (s.setRenderViewport mapped.1).setRenderScissor mapped.2

def ViewState.setLogicalViewport (value : Viewport) (s : ViewState) : ViewState :=
  (if s.logicalViewport.same value then s else { s with logicalViewport := value }).applyMapped

def ViewState.setLogicalScissor (value : ClipRect) (s : ViewState) : ViewState :=
  { s with logicalScissor := value }.applyMapped

/-- What `map_gx_viewport` reads is left alone by the render setters. -/
theorem mapGxViewport_setRenderViewport (s : ViewState) (value : Viewport) :
    mapGxViewport (s.setRenderViewport value) = mapGxViewport s := by
  rw [ViewState.setRenderViewport]
  split <;> rfl

theorem mapGxViewport_setRenderScissor (s : ViewState) (value : ClipRect) :
    mapGxViewport (s.setRenderScissor value) = mapGxViewport s := by
  rw [ViewState.setRenderScissor]
  split <;> rfl

/-- A setter that changes nothing the second time. -/
theorem ViewState.setRenderViewport_again (value : Viewport) (s : ViewState) :
    (s.setRenderViewport value).setRenderViewport value = s.setRenderViewport value := by
  simp only [setRenderViewport]
  split
  · rfl
  · split <;> rfl

theorem ViewState.setRenderScissor_again (value : ClipRect) (s : ViewState) :
    (s.setRenderScissor value).setRenderScissor value = s.setRenderScissor value := by
  simp only [setRenderScissor]
  split
  · rfl
  · split <;> rfl

theorem ViewState.setRender_comm (v : Viewport) (r : ClipRect) (s : ViewState) :
    (s.setRenderScissor r).setRenderViewport v = (s.setRenderViewport v).setRenderScissor r := by
  simp only [setRenderScissor, setRenderViewport]
  split_ifs <;> rfl

/-- Applying the mapping twice is applying it once. -/
theorem ViewState.applyMapped_again (s : ViewState) :
    s.applyMapped.applyMapped = s.applyMapped := by
  have hmap : mapGxViewport s.applyMapped = mapGxViewport s := by
    rw [applyMapped, mapGxViewport_setRenderScissor, mapGxViewport_setRenderViewport]
  rw [applyMapped, hmap]
  conv_lhs => rw [applyMapped]
  rw [setRender_comm, setRenderViewport_again, setRenderScissor_again]
  rfl

/-- The mapping sets what is rendered and keeps the rest. -/
theorem ViewState.applyMapped_eq (s : ViewState) : ∃ viewport scissor,
    s.applyMapped = { s with renderViewport := viewport, renderScissor := scissor } := by
  simp only [applyMapped, setRenderScissor, setRenderViewport]
  split_ifs <;> exact ⟨_, _, rfl⟩

@[simp]
theorem ViewState.applyMapped_logicalScissor (s : ViewState) :
    s.applyMapped.logicalScissor = s.logicalScissor := by
  obtain ⟨viewport, scissor, h⟩ := s.applyMapped_eq
  rw [h]

@[simp]
theorem ViewState.applyMapped_scissorOffsetX (s : ViewState) :
    s.applyMapped.scissorOffsetX = s.scissorOffsetX := by
  obtain ⟨viewport, scissor, h⟩ := s.applyMapped_eq
  rw [h]

@[simp]
theorem ViewState.applyMapped_scissorOffsetY (s : ViewState) :
    s.applyMapped.scissorOffsetY = s.scissorOffsetY := by
  obtain ⟨viewport, scissor, h⟩ := s.applyMapped_eq
  rw [h]

/-- A scissor is set again to no effect where it is set and applied. -/
theorem ViewState.setLogicalScissor_eq_self {s : ViewState} {value : ClipRect} :
    s.setLogicalScissor value = s ↔ s.logicalScissor = value ∧ s.applyMapped = s := by
  rw [setLogicalScissor]
  constructor
  · intro h
    have hvalue : s.logicalScissor = value := by
      rw [← h]
      simp
    subst hvalue
    exact ⟨rfl, h⟩
  · rintro ⟨rfl, h⟩
    exact h

end Gx
