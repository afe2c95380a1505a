import MkwiiPs5.Gpu.AgcBlit

/-!
# The video presenter

`video_presenter.cpp` and `present_rect.cpp`: two scan-out buffers, one of which is drawn while the
other is on the screen. The display, the blitter and the wait service answer as they like; the log
keeps what they are asked and what they show.
-/

namespace Gpu

namespace VideoPresenter

/-! ### What a presenter is asked and what it has -/

inductive Failure
  | logicError (what : String)
  | invalidArgument (what : String)
  | overflowError (what : String)
  | runtimeError (what : String)
  /-- An exception of the blitter. -/
  | blit
  /-- An exception of `gpu_wait_slice`. -/
  | waitSlice
  /-- An exception of `gpu_wait_until`. -/
  | waitUntil
deriving DecidableEq

/-- The floating-point part of the fitting: whether an aspect is finite and positive, and the
rounded products. An infinite product is any number past the sizes. -/
structure AspectArithmetic (α : Type*) where
  one : α
  usable : α → Bool
  /-- `std::round(double(w) * double(1.f / aspect))` -/
  heightFor : ℕ → α → ℤ
  /-- `std::round(double(h) * double(aspect))` -/
  widthFor : ℕ → α → ℤ

/-- `GpuColorTarget`, told from others by the address of its data. -/
structure Image where
  data : Option ℕ
  width : ℕ
  height : ℕ

structure FlipStatus where
  count : ℕ
  time : ℕ
  arg : ℤ
  graphics : ℤ
  pending : ℤ
  current : ℤ

structure PresentedFrame where
  serial : ℕ
  count : ℕ
  time : ℕ
  buffer : ℤ
  viewport : BlitRect

structure Impl where
  width : ℕ
  height : ℕ
  handle : ℤ
  current : ℤ
  buffers : ℤ → Option ℕ
  previousRect : ℤ → BlitRect
  serial : ℕ
  count : ℕ
  failed : Bool
  outstanding : Bool
  outstandingSlot : ℤ
  outstandingBefore : ℕ
  outstandingRect : BlitRect

abbrev Pixels := ℕ → ℕ → ℕ

inductive Event
  /-- The display reports its status. -/
  | status (status : FlipStatus)
  | clear (slot : ℤ) (rect : BlitRect) (bgra : ℕ)
  | copy (slot : ℤ) (source : ℕ) (sourceRect rect : BlitRect) (linear : Bool)
  | finish
  /-- A buffer with these pixels is handed to the display. -/
  | flip (slot : ℤ) (arg : ℕ) (rect : BlitRect) (pixels : Pixels)
  /-- A flip was seen on the screen. -/
  | retired (slot : ℤ)
  | closed (rc : ℤ)
  | threw (failure : Failure)

/-- The answers to the calls that leave the presenter, by when they are made. -/
structure Environment where
  /-- None where `sceVideoOutGetFlipStatus` fails. -/
  status : ℕ → Option FlipStatus
  waits : ℕ → Bool
  blits : ℕ → Bool
  /-- What a copy draws. -/
  image : ℕ → Pixels
  submitFlip : ℕ → ℤ
  close : ℕ → ℤ

/-- A presenter, the pixels of its buffers, the number of calls made so far, and what happened. -/
structure World where
  presenter : Impl
  pixels : ℤ → Pixels
  clock : ℕ
  log : List Event

abbrev Result (α : Type) := Attempt Failure World α

namespace World

def tick (w : World) : World := { w with clock := w.clock + 1 }

def note (w : World) (e : Event) : World := { w with log := e :: w.log }

def update (w : World) (f : Impl → Impl) : World := { w with presenter := f w.presenter }

def draw (w : World) (slot : ℤ) (pixels : Pixels) : World :=
  { w with pixels := Function.update w.pixels slot pixels }

def throw {α : Type} (w : World) (failure : Failure) : Result α :=
  (.error failure, w.note (.threw failure))

/-- Sets the latch. -/
def fail (w : World) : World := w.update fun p => { p with failed := true }

end World

/-! ### The functions -/

variable {α : Type*} (A : AspectArithmetic α) (env : Environment)

def extent (value : ℤ) (maximum : ℕ) : ℕ := (max 1 (min value maximum)).toNat

def fit_present_rect (width height : ℕ) (aspect : α) : Except Failure BlitRect :=
  if width = 0 ∨ height = 0 ∨ width > 16384 ∨ height > 16384 ∨ ¬ A.usable aspect then
    .error (.invalidArgument "Invalid presentation size/aspect")
  else
    let h := extent (A.heightFor width aspect) height
    let w := if h = height then extent (A.widthFor h aspect) width else width
    .ok ⟨(width - w) / 2, (height - h) / 2, w, h⟩

/-- The answers while a presenter is set up. -/
structure Setup where
  buffers : ℤ → ℕ
  handle : ℤ
  setFlipRate : ℤ
  registerBuffers : ℤ

/-- `Impl::initialize`, after the buffers are allocated. -/
def initializeImpl (width height : ℕ) (setup : Setup) : Except Failure Impl :=
  match fit_present_rect A width height A.one with
  | .error failure => .error failure
  | .ok _ =>
    if setup.handle < 0 then .error (.runtimeError "VideoOutOpen failed")
    else if setup.setFlipRate < 0 then .error (.runtimeError "VideoOut flip rate failed")
    else if setup.registerBuffers < 0 then
      .error (.runtimeError "VideoOut buffer registration failed")
    else
      .ok {
        width := width
        height := height
        handle := setup.handle
        current := -1
        buffers := fun slot => some (setup.buffers slot)
        previousRect := fun _ => ⟨0, 0, 0, 0⟩
        serial := 0
        count := 0
        failed := false
        outstanding := false
        outstandingSlot := -1
        outstandingBefore := 0
        outstandingRect := ⟨0, 0, 0, 0⟩ }

def getFlipStatus (w : World) : Option FlipStatus × World :=
  match env.status w.clock with
  | none => (none, w.tick)
  | some status => (some status, w.tick.note (.status status))

/-- The status of a display that shows the submitted flip. -/
def Impl.shows (p : Impl) (status : FlipStatus) : Bool :=
  p.outstandingBefore < status.count ∧ status.arg = p.serial ∧ status.pending = 0 ∧
    status.graphics = 0 ∧ status.current = p.outstandingSlot

def Impl.retired (p : Impl) (status : FlipStatus) : Impl :=
  { p with current := p.outstandingSlot, count := status.count, outstanding := false }

/-- The attempts that `retire` has left. -/
def retireAttempts : ℕ → World → Result PresentedFrame
  | 0, w => w.fail.throw (.runtimeError "VideoOut flip timeout; scan-out owners retained")
  | attempts + 1, w =>
    match getFlipStatus env w with
    | (none, w) => w.fail.throw (.runtimeError "VideoOut retirement status failed")
    | (some status, w) =>
      if w.presenter.shows status then
        let p := w.presenter
        (.ok ⟨p.serial, status.count, status.time, p.outstandingSlot, p.outstandingRect⟩,
          (w.update (·.retired status)).note (.retired p.outstandingSlot))
      else if env.waits w.clock then retireAttempts attempts w.tick
      else w.tick.throw .waitSlice

def retire (w : World) : Result PresentedFrame :=
  if ¬ w.presenter.outstanding then
    w.throw (.logicError "No submitted VideoOut flip to retire")
  else retireAttempts env 5000 w

/-- The retirement at the start of a submission. -/
def retireBefore (w : World) : Result Unit :=
  if w.presenter.outstanding then (retire env w).andThen fun _ w => (.ok (), w) else (.ok (), w)

/-- The checks of a request, which touch nothing. -/
def checkRequest (p : Impl) (source : Option Image) (aspect : α) :
    Except Failure (ℕ × Image × BlitRect) :=
  match source with
  | none => .error (.invalidArgument "Missing presentation image")
  | some image =>
    match image.data with
    | none => .error (.invalidArgument "Missing presentation image")
    | some data =>
      match fit_present_rect A p.width p.height aspect with
      | .error failure => .error failure
      | .ok rect =>
        if p.buffers 0 = some data ∨ p.buffers 1 = some data then
          .error (.invalidArgument "Scan-out cannot be its own presentation source")
        else if p.serial = 2 ^ 63 - 1 then
          .error (.overflowError "VideoOut frame serial exhausted")
        else .ok (data, image, rect)

/-- The display is not as this presenter left it. -/
def Impl.changed (p : Impl) (before : FlipStatus) : Bool :=
  before.pending ≠ 0 ∨ before.graphics ≠ 0 ∨ (p.serial ≠ 0 ∧
    (before.current ≠ p.current ∨ before.arg ≠ p.serial ∨ before.count < p.count))

def observe (w : World) : Result FlipStatus :=
  match getFlipStatus env w with
  | (none, w) => w.fail.throw (.runtimeError "VideoOut status failed")
  | (some before, w) =>
    if w.presenter.changed before then
      w.fail.throw (.logicError "VideoOut changed outside its presenter")
    else (.ok before, w)

def Impl.slot (p : Impl) : ℤ := if p.current = 0 then 1 else 0

def Impl.full (p : Impl) (rect : BlitRect) : Bool :=
  rect.x = 0 ∧ rect.y = 0 ∧ rect.width = p.width ∧ rect.height = p.height

def opaqueBlack : ℕ := 0xff000000

/-- `blitter.clear_color`: where it returns, the rectangle has the colour. -/
def clearColor (w : World) (slot : ℤ) (rect : BlitRect) (bgra : ℕ) : Result Unit :=
  let drawn := (w.tick.note (.clear slot rect bgra)).draw slot fun x y =>
    if rect.Contains x y then bgra else w.pixels slot x y
  if env.blits w.clock then (.ok (), drawn) else drawn.fail.throw .blit

/-- `blitter.copy`: it draws in its rectangle only. -/
def copyImage (w : World) (slot : ℤ) (source : ℕ) (sourceRect rect : BlitRect) (linear : Bool) :
    Result Unit :=
  let drawn := (w.tick.note (.copy slot source sourceRect rect linear)).draw slot fun x y =>
    if rect.Contains x y then env.image w.clock x y else w.pixels slot x y
  if env.blits w.clock then (.ok (), drawn) else drawn.fail.throw .blit

/-- `blitter.finish`. -/
def finishBlits (w : World) : Result Unit :=
  let waited := w.tick.note .finish
  if env.blits w.clock then (.ok (), waited) else waited.fail.throw .blit

/-- The part of `submit` that draws the frame. -/
def drawFrame (w : World) (slot : ℤ) (source : ℕ) (image : Image) (rect : BlitRect)
    (linear : Bool) : Result Unit :=
  let p := w.presenter
  let cleared : Result Unit :=
    if ¬ p.full rect ∧ p.previousRect slot ≠ rect then
      clearColor env w slot ⟨0, 0, p.width, p.height⟩ opaqueBlack
    else (.ok (), w)
  cleared.andThen fun _ w =>
    (copyImage env w slot source ⟨0, 0, image.width, image.height⟩ rect linear).andThen fun _ w =>
      (finishBlits env w).andThen fun _ w =>
        (.ok (), w.update fun p => { p with previousRect := Function.update p.previousRect slot rect })

/-- `gpu_wait_until`, where there is a deadline. -/
def waitDeadline (w : World) (deadline : ℕ) : Result Unit :=
  if deadline = 0 then (.ok (), w)
  else if env.waits w.clock then (.ok (), w.tick)
  else w.tick.throw .waitUntil

/-- The part of `submit` that flips, after its latch is set. -/
def submitFlip (w : World) (slot : ℤ) (before : FlipStatus) (rect : BlitRect) (deadline : ℕ) :
    Result PresentedFrame :=
  let w := w.update fun p => { p with serial := p.serial + 1, failed := true }
  (waitDeadline env w deadline).andThen fun _ w =>
    let p := w.presenter
    let flipped := w.tick.note (.flip slot p.serial rect (w.pixels slot))
    if env.submitFlip w.clock < 0 then
      flipped.throw (.runtimeError "VideoOut flip submission failed; scan-out owners retained")
    else
      (.ok ⟨p.serial, p.count, before.time, slot, rect⟩, flipped.update fun p =>
        { p with
          outstanding := true
          outstandingSlot := slot
          outstandingBefore := before.count
          outstandingRect := rect
          failed := false })

/-- The part of `submit` after the earlier flip is retired. -/
def submitRetired (w : World) (source : Option Image) (aspect : α) (linear : Bool)
    (deadline : ℕ) : Result PresentedFrame :=
  match checkRequest A w.presenter source aspect with
  | .error failure => w.throw failure
  | .ok (data, image, rect) =>
    (observe env w).andThen fun before w =>
      let slot := w.presenter.slot
      (drawFrame env w slot data image rect linear).andThen fun _ w =>
        submitFlip env w slot before rect deadline

def submit (w : World) (source : Option Image) (aspect : α) (linear : Bool) (deadline : ℕ) :
    Result PresentedFrame :=
  if w.presenter.handle < 0 ∨ w.presenter.failed then
    w.throw (.logicError "VideoOut is closed or its previous presentation is unresolved")
  else (retireBefore env w).andThen fun _ w => submitRetired A env w source aspect linear deadline

def present (w : World) (source : Option Image) (aspect : α) (linear : Bool) (deadline : ℕ) :
    Result PresentedFrame :=
  (submit A env w source aspect linear deadline).andThen fun _ w => retire env w

def retirePending (w : World) : Result Bool :=
  if ¬ w.presenter.outstanding then (.ok false, w)
  else (retire env w).andThen fun _ w => (.ok true, w)

def close (w : World) : ℤ × World :=
  if w.presenter.handle < 0 then (0, w)
  else
    let rc := env.close w.clock
    let w := w.tick.note (.closed rc)
    if rc < 0 then (rc, w)
    else (0, w.update fun p => { p with handle := -1, current := -1, buffers := fun _ => none })

inductive Call (α : Type*)
  | submit (source : Option Image) (aspect : α) (linear : Bool) (deadline : ℕ)
  | present (source : Option Image) (aspect : α) (linear : Bool) (deadline : ℕ)
  | retirePending
  | close

def step (w : World) : Call α → World
  | .submit source aspect linear deadline => (submit A env w source aspect linear deadline).2
  | .present source aspect linear deadline => (present A env w source aspect linear deadline).2
  | .retirePending => (retirePending env w).2
  | .close => (close env w).2

def run (w : World) (calls : List (Call α)) : World := calls.foldl (step A env) w

/-- A presenter that has just been set up. -/
def World.start (presenter : Impl) (pixels : ℤ → Pixels) : World := ⟨presenter, pixels, 0, []⟩

end VideoPresenter

end Gpu
