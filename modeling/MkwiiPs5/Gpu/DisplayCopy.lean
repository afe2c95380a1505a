import MkwiiPs5.Gpu.AgcBlitReferences
import MkwiiPs5.Gpu.CopyPool
import MkwiiPs5.Gpu.DisplayCopyPlan

/-!
# Display copies

`GxDisplayCopyBackend`: up to three images take the copies of the frame. An image is used again when
nothing but the pool references it: neither the last presentable frame, nor a presenter, nor a blit
that is not complete.
-/

namespace Gpu.DisplayCopy

open Gx Rounding TextureCopy GxTextureCopyBackend

/-- The receiver of display copies, with the color and the depth target of the frame. The images with
numbers below `first` are not its own. -/
structure Backend where
  source : AgcBlit.Target
  depth : Option AgcBlit.Target
  extent : GxRenderExtent
  first : ℕ
  sourceBound : source.data ≠ none ∧ source.width = extent.targetWidth ∧
    source.height = extent.targetHeight
  depthBound : ∀ d ∈ depth, d.data ≠ none ∧ d.width = extent.targetWidth ∧
    d.height = extent.targetHeight
  numbered : source.id < first ∧ ∀ d ∈ depth, d.id < first

/-- The constructor, for images that have numbers. -/
def Backend.make (source : AgcBlit.Target) (depth : Option AgcBlit.Target) (extent : GxRenderExtent)
    (first : ℕ) (numbered : source.id < first ∧ ∀ d ∈ depth, d.id < first) :
    Except String Backend :=
  if hsource : source.data ≠ none ∧ source.width = extent.targetWidth ∧
      source.height = extent.targetHeight then
    if hdepth : ∀ d ∈ depth, d.data ≠ none ∧ d.width = extent.targetWidth ∧
        d.height = extent.targetHeight then
      .ok ⟨source, depth, extent, first, hsource, hdepth, numbered⟩
    else .error "Invalid display-copy depth binding"
  else .error "Invalid display-copy EFB binding"

inductive Failure
  /-- There is no plan. -/
  | plan (what : String)
  | logicError (what : String)
  /-- The draws could not be finished. -/
  | draws (what : String)
  /-- An image could not be made. -/
  | target (what : String)
  | blit (failure : AgcBlit.Failure)

/-- The receiver with its blitter, how many images there were, and how many references to each are
outside of the pool, of `latest_` and of the blitter. -/
structure World where
  blitter : AgcBlit.World
  pool : List GpuColorTarget
  latest : Option GpuColorTarget
  made : ℕ
  owners : ℕ → ℕ
  disableFilter : Bool

abbrev Result (α : Type) := Attempt Failure World α

def noDepth : String := "Display-copy clear requires an EFB depth target"
def notRetired : String := "Display-copy presenter has not retired previous buffers"

namespace World

variable (w : World)

/-- `use_count` of an image in the pool. -/
def useCount (c : GpuColorTarget) : ℕ :=
  w.pool.countP (·.number == c.number) + (if w.latest.any (·.number == c.number) then 1 else 0) +
    w.owners c.number + w.blitter.references (.image c.number)

def unused (c : GpuColorTarget) : Bool := w.useCount c == 1

/-- A call of the blitter. -/
def blit {α : Type} (call : AgcBlit.World → AgcBlit.Result α) : Result α :=
  (call w.blitter).zoom .blit fun b => { w with blitter := b }

end World

section Execute

variable (A : Arithmetic) (R : SingleRounding) (env : AgcBlit.Environment) (B : Backend)

/-- Waits for the blits where the pool is full and each image is used. -/
def finishIfBusy (w : World) : Result Unit :=
  if 3 ≤ w.pool.length ∧ ¬ w.pool.any w.unused then w.blit (AgcBlit.finish env) else (.ok (), w)

/-- The image for a copy. -/
def chooseTarget (kernel : Kernel) (width height : ℕ) (w : World) : Result GpuColorTarget :=
  match w.pool.find? w.unused with
  | some candidate =>
    if candidate.layout.width ≠ width ∨ candidate.layout.height ≠ height then
      match GpuColorTarget.make A kernel w.made width height with
      | .error what => (.error (.target what), w)
      | .ok created =>
        let replaced := KeyedList.replaceFirst w.unused created w.pool
        (.ok created, { w with made := w.made + 1, pool := replaced.elim w.pool Prod.snd })
    else (.ok candidate, w)
  | none =>
    if 3 ≤ w.pool.length then (.error (.logicError notRetired), w)
    else
      match GpuColorTarget.make A kernel w.made width height with
      | .error what => (.error (.target what), w)
      | .ok created => (.ok created, { w with made := w.made + 1, pool := w.pool ++ [created] })

/-- An image of the pool as the blitter sees it. -/
def asTarget (c : GpuColorTarget) : AgcBlit.Target :=
  ⟨c.number, some c.physical, c.layout.width, c.layout.height⟩

/-- The options of a copy, as they are checked. -/
def checkedOptions (o : TextureCopy.GxCopyOptions) : AgcBlit.GxCopyOptions :=
  ⟨o.format, o.filter, decide (0 < o.rowStride ∧ o.rowStride ≤ 16384)⟩

/-- Whether the rectangle that is sampled is inside the image. -/
def samples (source target : AgcBlit.Target) (p : Plan) : Bool :=
  (sampledBlitVertices A source.width source.height target.width target.height p.source
    ⟨0, 0, p.scaledWidth, p.scaledHeight⟩).toBool

/-- The blit of `copy_sampled`. -/
def copyBlit (target : AgcBlit.Target) (p : Plan) : AgcBlit.Blit :=
  ⟨some B.source.image, some target, samples A B.source target p,
    ⟨0, 0, p.scaledWidth, p.scaledHeight⟩, some (checkedOptions p.options), 15, none, true, none⟩

/-- The rectangle of a clear. -/
def clearedRect (p : Plan) : BlitRect := p.clear.rect

def clearAfter (p : Plan) (w : World) : Result Unit :=
  if p.clear.depth then
    (w.blit fun b => AgcBlit.fillDepthTested env b (some B.source) B.depth (clearedRect p)
      p.clear.color (decide (0 ≤ p.clear.depthValue ∧ p.clear.depthValue ≤ 1)) p.clear.mask).andThen
      fun _ w => (.ok (), w)
  else if p.clear.mask ≠ 0 then
    (w.blit fun b => AgcBlit.clearColor env b (some B.source) (clearedRect p) p.clear.color
      p.clear.mask).andThen fun _ w => (.ok (), w)
  else (.ok (), w)

/-- The part of `execute` behind its checks. -/
def copyAndClear (kernel : Kernel) (p : Plan) (w : World) : Result GpuColorTarget :=
  (finishIfBusy env w).andThen fun _ w =>
  (chooseTarget A kernel p.scaledWidth p.scaledHeight w).andThen fun target w =>
  (w.blit fun b => AgcBlit.execute env b (copyBlit A B (asTarget target) p)).andThen fun _ w =>
  (clearAfter env B p w).andThen fun _ w =>
  (.ok target, { w with latest := some target })

/-- `GxDisplayCopyBackend::execute`; `finished` is the exception of the draws, if there is one. -/
def execute (finished : Option String) (kernel : Kernel) (s : DisplayRegisters) (clear : Bool)
    (w : World) : Result GpuColorTarget :=
  match planGxDisplayCopy A R s B.extent clear w.disableFilter with
  | .error what => (.error (.plan what), w)
  | .ok p =>
    if p.clear.depth ∧ B.depth.all (·.data = none) then (.error (.logicError noDepth), w)
    else
      match finished with
      | some what => (.error (.draws what), w)
      | none => copyAndClear A env B kernel p w

/-! ### Runs -/

/-- A call of the backend, of what takes its images, or of what else uses the blitter. -/
inductive Step
  | execute (finished : Option String) (kernel : Kernel) (s : DisplayRegisters) (clear : Bool)
  | beginFrame
  | setDisableFilter (value : Bool)
  /-- A presenter gets the latest image. -/
  | takeLatest
  | copy (number : ℕ)
  | drop (number : ℕ)
  | blit (call : AgcBlit.Call)

/-- The calls that others can make before the blitter is destroyed: they read images of the pool
only with a reference, which does not let them write. -/
def Backend.permits (w : World) : AgcBlit.Call → Bool
  | .destroy => false
  | call =>
    call.images.all (fun t => t.all fun t => t.id < B.first || w.owners t.id != 0) &&
      call.written.all fun t => t.all fun t => t.id < B.first

def World.give (w : World) (number : ℕ) : World :=
  { w with owners := Function.update w.owners number (w.owners number + 1) }

def step (w : World) : Step → World
  | .execute finished kernel s clear => (execute A R env B finished kernel s clear w).2
  | .beginFrame => { w with latest := none }
  | .setDisableFilter value => { w with disableFilter := value }
  | .takeLatest => w.latest.elim w fun c => w.give c.number
  | .copy number => if w.owners number = 0 then w else w.give number
  | .drop number => { w with owners := Function.update w.owners number (w.owners number - 1) }
  | .blit call =>
    if B.permits w call then { w with blitter := AgcBlit.step env w.blitter call } else w

/-- A backend that was just made, with a blitter. -/
def start : World where
  blitter := .start .GxCopy
  pool := []
  latest := none
  made := B.first
  owners _ := 0
  disableFilter := false

def run (steps : List Step) : World := steps.foldl (step A R env B) (start B)

end Execute

/-! ### What the blitter accepts -/

section Accepted

variable {A : Arithmetic} {R : SingleRounding} {env : AgcBlit.Environment} {B : Backend}
variable {s : DisplayRegisters} {clear disableFilter : Bool} {p : Plan} {b : AgcBlit.World}

/-- The check of a mesh, which is made in words, is that of the blitter. -/
theorem validate_eq_validRect (A : Arithmetic) (width height : ℕ) (r : BlitRect) :
    validate A width height r =
      if AgcBlit.validRect width height r then .ok () else .error "Blit rectangle outside image" := by
  by_cases hinside : r.x < width ∧ width ≤ 16384 ∧ r.y < height ∧ height ≤ 16384
  · rw [validate, A.u32_sub (by omega) (by omega), A.u32_sub (by omega) (by omega)]
    by_cases hvalid : AgcBlit.validRect width height r = true
    · have hnot := of_decide_eq_true hvalid
      rw [if_pos hvalid, if_neg hnot]
    · have hnot : ¬ _ := fun h => hvalid (decide_eq_true h)
      rw [if_neg hvalid, if_pos (not_not.mp hnot)]
  · have hinvalid : AgcBlit.validRect width height r = false := by
      rw [AgcBlit.validRect, decide_eq_false_iff_not]
      omega
    rw [validate, hinvalid, if_pos (by omega)]
    rfl

theorem validRect_eq {width height : ℕ} {r : BlitRect} (hwidth : width ≤ 16384)
    (hheight : height ≤ 16384) (hnonempty : 0 < r.width ∧ 0 < r.height)
    (hinside : r.x + r.width ≤ width ∧ r.y + r.height ≤ height) :
    AgcBlit.validRect width height r = true := by
  rw [AgcBlit.validRect, decide_eq_true_iff]
  omega

theorem refuseIf_eq_ok {q : Prop} [Decidable q] {failure : AgcBlit.Failure} (h : ¬ q) :
    AgcBlit.refuseIf q failure = .ok () := if_neg h

/-- The checks of a blitter that has not failed, one by one. -/
theorem checkBlit_eq_ok {blit : AgcBlit.Blit} {target : AgcBlit.Target} (hfailed : b.failed = false)
    (hserial : b.serial ≠ 2 ^ 64 - 1) (hsource : AgcBlit.checkSource blit = .ok ())
    (htarget : blit.target = some target) (hlive : target.data ≠ none)
    (hrect : AgcBlit.validRect target.width target.height blit.rect = true)
    (hsampled : blit.sampled = true) (hdepth : AgcBlit.checkDepth blit target = .ok ())
    (hoptions : AgcBlit.checkOptions b.abi blit = .ok ()) : AgcBlit.checkBlit b blit = .ok () := by
  rw [AgcBlit.checkBlit, refuseIf_eq_ok (by rw [hfailed]; exact Bool.false_ne_true), hsource, htarget]
  show AgcBlit.checkTarget b blit target = .ok ()
  rw [AgcBlit.checkTarget, refuseIf_eq_ok hlive, refuseIf_eq_ok (not_not.mpr hrect),
    refuseIf_eq_ok (not_not.mpr hsampled), hdepth, hoptions, refuseIf_eq_ok hserial]
  rfl

/-- A blit of a fill image to the frame is accepted. -/
theorem fillBlit_accepted (hfailed : b.failed = false) (hserial : b.serial ≠ 2 ^ 64 - 1)
    {blit : AgcBlit.Blit} {depth : Option AgcBlit.Target}
    (hfills : AgcBlit.Fills (some B.source) depth blit) (hoptions : blit.options = none)
    (hsampled : blit.sampled = true) (hdata : ∀ source ∈ blit.source, source.data ≠ B.source.data)
    (hrect : AgcBlit.validRect B.source.width B.source.height blit.rect = true)
    (hdepth : ∀ d ∈ depth, B.depth = some d) (htest : blit.depthTest = true)
    (hmask : blit.writeMask ≤ 15) : AgcBlit.checkBlit b blit = .ok () := by
  obtain ⟨hsource, hwidth, hheight⟩ := B.sourceBound
  obtain ⟨image, data, himage⟩ := hfills.source
  refine checkBlit_eq_ok hfailed hserial ?_ hfills.target hsource hrect hsampled ?_ ?_
  · rw [AgcBlit.checkSource, hfills.depthSource, himage, hfills.target]
    have hne := hdata _ himage
    simpa using hne
  · rw [AgcBlit.checkDepth, hfills.depth]
    cases depth with
    | none => rfl
    | some d =>
      obtain ⟨hlive, hw, hh⟩ := B.depthBound d (hdepth d rfl)
      refine if_neg ?_
      simp [hlive, hw, hh, hwidth, hheight, htest, hmask]
  · rw [AgcBlit.checkOptions, hoptions, hfills.depthSource]
    simp [AgcBlit.GxCopyOptions.default]
    decide

/-- The copy of a plan is accepted, for a target of its size somewhere else. -/
theorem copyBlit_accepted (hfailed : b.failed = false) (hserial : b.serial ≠ 2 ^ 64 - 1)
    (habi : b.abi = .GxCopy) (hp : Acceptable B.extent A p) {target : AgcBlit.Target}
    (hlive : target.data ≠ none) (hapart : target.data ≠ B.source.data)
    (hwidth : target.width = p.scaledWidth) (hheight : target.height = p.scaledHeight) :
    AgcBlit.checkBlit b (copyBlit A B target p) = .ok () := by
  obtain ⟨hsource, hsourceWidth, hsourceHeight⟩ := B.sourceBound
  obtain ⟨mesh, hmesh⟩ := hp.mesh
  have htarget := hp.target
  refine checkBlit_eq_ok hfailed hserial ?_ rfl hlive ?_ ?_ rfl ?_
  · simp [AgcBlit.checkSource, copyBlit, AgcBlit.Target.image, hsource, hapart.symm]
  · refine validRect_eq (by omega) (by omega) ⟨htarget.1.1, htarget.2.1⟩ ⟨?_, ?_⟩
    · show 0 + p.scaledWidth ≤ target.width
      omega
    · show 0 + p.scaledHeight ≤ target.height
      omega
  · show samples A B.source target p = true
    rw [samples, hsourceWidth, hsourceHeight, hwidth, hheight, hmesh]
    rfl
  · obtain ⟨hf₁, hf₂, hf₃⟩ := hp.filter
    have hformat : mkwCopyColorFormat 6 = true := by decide
    have hstride := hp.rowStride
    simp [AgcBlit.checkOptions, copyBlit, checkedOptions, habi, hp.format, hformat, hstride, hf₁, hf₂,
      hf₃]

/-- Everything that a plan asks the blitter for is accepted by one that has not failed: the copy and
both kinds of clears. What is copied is what is cleared. -/
theorem planned_copies_accepted
    (hplan : planGxDisplayCopy A R s B.extent clear disableFilter = .ok p)
    (hfailed : b.failed = false) (hserial : b.serial ≠ 2 ^ 64 - 1) (habi : b.abi = .GxCopy) :
    (∃ r, Sound B.extent clear p r) ∧
    (∀ target : AgcBlit.Target, target.data ≠ none → target.data ≠ B.source.data →
      target.width = p.scaledWidth → target.height = p.scaledHeight →
      AgcBlit.checkBlit b (copyBlit A B target p) = .ok ()) ∧
    (clear → ∀ image data, some data ≠ B.source.data →
      AgcBlit.checkBlit b (AgcBlit.fillBlit image data B.source (clearedRect p) p.clear.mask) =
        .ok () ∧
      ∀ d, B.depth = some d → AgcBlit.checkBlit b
        { AgcBlit.fillBlit image data B.source (clearedRect p) p.clear.mask with
          depth := some d
          depthTest := decide (0 ≤ p.clear.depthValue ∧ p.clear.depthValue ≤ 1) } = .ok ()) := by
  have hp := plan_acceptable hplan
  obtain ⟨r, hr⟩ := plan_sound hplan
  obtain ⟨⟨hwidth, hheight⟩, -⟩ := planGxDisplayCopy_eq_ok hplan
  obtain ⟨-, hsourceWidth, hsourceHeight⟩ := B.sourceBound
  refine ⟨⟨r, hr⟩, fun target hlive hapart hw hh =>
    copyBlit_accepted hfailed hserial habi hp hlive hapart hw hh, fun hclear image data hdata => ?_⟩
  have hrect : AgcBlit.validRect B.source.width B.source.height (clearedRect p) = true := by
    rw [clearedRect, hr.cleared hclear]
    exact validRect_eq (by omega) (by omega) hr.nonempty (by rw [hsourceWidth, hsourceHeight]; exact
      hr.inside)
  have hfill : ∀ source ∈ (some ⟨.fill image, some data, 1, 1⟩ : Option AgcBlit.Image),
      source.data ≠ B.source.data := by
    rintro _ ⟨⟩
    exact hdata
  refine ⟨?_, fun d hd => ?_⟩
  · have hfills : AgcBlit.Fills (some B.source) none
        (AgcBlit.fillBlit image data B.source (clearedRect p) p.clear.mask) :=
      ⟨rfl, rfl, rfl, image, data, rfl⟩
    refine fillBlit_accepted hfailed hserial hfills rfl rfl hfill hrect ?_ rfl hp.mask
    rintro _ ⟨⟩
  · have hfills : AgcBlit.Fills (some B.source) (some d)
        { AgcBlit.fillBlit image data B.source (clearedRect p) p.clear.mask with
          depth := some d
          depthTest := decide (0 ≤ p.clear.depthValue ∧ p.clear.depthValue ≤ 1) } :=
      ⟨rfl, rfl, rfl, image, data, rfl⟩
    refine fillBlit_accepted hfailed hserial hfills rfl rfl hfill hrect ?_
      (decide_eq_true hp.depthValue) hp.mask
    rintro _ ⟨⟩
    exact hd

/-- A frame of half the size that is shown and cleared. -/
def shown : DisplayRegisters := ⟨halved, ⟨1, 1, 3, 2⟩, 0, 0⟩

def halfFrame : Backend where
  source := ⟨0, some 1, 2, 2⟩
  depth := some ⟨1, some 2, 2, 2⟩
  extent := ⟨4, 4, 2, 2⟩
  first := 2
  sourceBound := by decide
  depthBound := by
    rintro _ ⟨⟩
    decide
  numbered := by
    refine ⟨by decide, ?_⟩
    rintro _ ⟨⟩
    decide

theorem planned_copies_accepted_shown : ∃ p,
    planGxDisplayCopy .modular .exact shown halfFrame.extent true false = .ok p ∧
    (∃ r, Sound halfFrame.extent true p r) ∧
    (∀ target : AgcBlit.Target, target.data ≠ none → target.data ≠ halfFrame.source.data →
      target.width = p.scaledWidth → target.height = p.scaledHeight →
      AgcBlit.checkBlit (.start .GxCopy) (copyBlit .modular halfFrame target p) = .ok ()) ∧
    ∀ image, AgcBlit.checkBlit (.start .GxCopy)
        (AgcBlit.fillBlit image 3 halfFrame.source (clearedRect p) p.clear.mask) = .ok () ∧
      AgcBlit.checkBlit (.start .GxCopy)
        { AgcBlit.fillBlit image 3 halfFrame.source (clearedRect p) p.clear.mask with
          depth := some ⟨1, some 2, 2, 2⟩
          depthTest := decide (0 ≤ p.clear.depthValue ∧ p.clear.depthValue ≤ 1) } = .ok () := by
  have hplan : (planGxDisplayCopy .modular .exact shown halfFrame.extent true false).toBool = true := by
    decide +kernel
  cases hp : planGxDisplayCopy .modular .exact shown halfFrame.extent true false with
  | error what =>
    rw [hp] at hplan
    cases hplan
  | ok p =>
    have h := planned_copies_accepted (b := .start .GxCopy) hp rfl (by decide) rfl
    refine ⟨p, rfl, h.1, h.2.1, fun image => ?_⟩
    have hclears := h.2.2 rfl image 3 (by decide)
    exact ⟨hclears.1, hclears.2 _ rfl⟩

end Accepted

end Gpu.DisplayCopy
