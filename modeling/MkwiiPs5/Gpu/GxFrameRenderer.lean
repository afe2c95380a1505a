import MkwiiPs5.Gpu.AgcGxDraw
import MkwiiPs5.Gpu.GxVideoState

/-!
# The frame renderer

`gx_frame_renderer.cpp`: a frame installs the receivers of its draws and copies, and gives back
those that were there before. Any step on the way may throw; the log keeps what is installed and
given back.
-/

namespace Gpu.GxFrameRenderer

open AgcBlit (Target)
open GxVideo (GxVideoSettings GxVideoPlan VideoArithmetic RenderSizeLimits planGxVideo)
open Gx (GxRenderExtent)

inductive Failure
  | logicError (what : String)
  | invalidArgument (what : String)
  | blit (failure : AgcBlit.Failure)
  | draw (failure : AgcGxDraw.Failure)
  | present (failure : VideoPresenter.Failure)
  /-- An exception of the commands in the FIFO of the guest, or of the FIFO. -/
  | fifo
  /-- An exception of the construction of the targets, the renderer and the copy backends. -/
  | construction
  /-- An exception of the screen capture or of the timing report. -/
  | report
deriving DecidableEq

/-! ### Receivers -/

/-- A draw sink: the renderer it belongs to, and whether its functions are there. -/
structure GxDrawSink where
  context : ℕ
  resolve : Bool
  submit : Bool

/-- The receivers of the draws, the texture copies and the display copies of the guest. -/
structure Receivers where
  draw : GxDrawSink
  texture : Option ℕ
  display : Option ℕ

/-- A sink that may be installed. -/
def GxDrawSink.Complete (sink : GxDrawSink) : Prop := sink.resolve = sink.submit

instance (sink : GxDrawSink) : Decidable sink.Complete :=
  inferInstanceAs (Decidable (sink.resolve = sink.submit))

/-! ### The state -/

/-- The targets of the EFB with the renderer and the copy backends of their size. -/
structure Core where
  id : ℕ
  color : Target
  depth : Target
  draws : AgcGxDraw.World
  latest : Option VideoPresenter.Image
  disableFilter : Bool

def Core.receivers (core : Core) : Receivers := ⟨⟨core.id, true, true⟩, some core.id, some core.id⟩

/-- What the graphics processor works for: the blitter, the presenter and the core, with the cores
that were given up and the number of cores made so far. -/
structure Engine where
  blit : AgcBlit.World
  presenter : VideoPresenter.World
  core : Option Core
  released : List Core
  cores : ℕ
  clock : ℕ

inductive Event
  /-- The receivers of the core take the place of these. -/
  | installed (old : Receivers)
  /-- These receivers are active again. -/
  | restored (old : Receivers)

inductive Fate
  | alive
  /-- The destructor could not close: everything is kept for the rest of the process. -/
  | retained
  | destroyed
  /-- An exception left the destructor. -/
  | terminated
deriving DecidableEq

structure World (α : Type*) where
  video : GxVideoSettings α
  committed : Option GxRenderExtent
  view : Gx.ViewState
  active : Receivers
  engine : Engine
  plan : GxVideoPlan α
  previousExtent : GxRenderExtent
  presented : Option VideoPresenter.PresentedFrame
  inFrame : Bool
  failed : Bool
  closed : Bool
  disableFilter : Bool
  old : Receivers
  fate : Fate
  log : List Event

abbrev Result (α β : Type) := Attempt Failure (World α) β

/-- What the guest makes the renderer do: draws, blits and display copies. -/
structure GuestWork where
  draws : List { call : AgcGxDraw.Call // call ≠ .destroy }
  blits : List { call : AgcBlit.Call // call ≠ .destroy }
  latest : Option VideoPresenter.Image
  throws : Bool

/-- The answers of the graphics processor, the system and the guest, by when they are asked. The
draws of every core have their own. -/
structure Environment where
  blit : AgcBlit.Environment
  draw : ℕ → AgcGxDraw.Environment
  shaders : AgcGxDraw.Shaders
  present : VideoPresenter.Environment
  /-- The blits of a presentation. -/
  presentBlits : ℕ → List { call : AgcBlit.Call // call ≠ .destroy }
  /-- The addresses of the colour and the depth target of a core, unless its construction throws. -/
  targets : ℕ → Option (ℕ × ℕ)
  /-- The clear colour of the register state, where it is finite. -/
  clearColor : ℕ → Option ℕ
  /-- What the FIFO holds when it is drained. -/
  fifo : ℕ → GuestWork
  clearBuffer : ℕ → Bool
  deadline : ℕ → ℕ
  screenshot : ℕ → Bool
  captures : ℕ → Bool
  reports : ℕ → Bool

/-! ### The engine -/

namespace Engine

variable (env : Environment) (g : Engine)

def tick : Engine := { g with clock := g.clock + 1 }

/-- The draws and copies of the guest go to the core that there is, whether or not its receivers are
active. -/
def serve (work : GuestWork) : Engine :=
  { g with
    blit := AgcBlit.run env.blit g.blit (work.blits.map (·.1))
    core := g.core.map fun core =>
      { core with
        draws := AgcGxDraw.run (env.draw core.id) env.shaders core.draws (work.draws.map (·.1))
        latest := work.latest.orElse fun _ => core.latest } }

/-- `aurora::gx::fifo::drain`. -/
def drain : Attempt Failure Engine Unit :=
  let work := env.fifo g.clock
  (if work.throws then .error .fifo else .ok (), (g.serve env work).tick)

/-- `core->renderer.finish()`, if there is a core. -/
def finishCore : Attempt Failure Engine Unit :=
  match g.core with
  | none => (.ok (), g)
  | some core => (AgcGxDraw.finish (env.draw core.id) core.draws).zoom .draw fun draws =>
      { g with core := some { core with draws := draws } }

/-- `blit.finish()`. -/
def finishBlits : Attempt Failure Engine Unit :=
  (AgcBlit.finish env.blit g.blit).zoom .blit fun blit => { g with blit := blit }

/-- The constructor of the core. -/
def newCore (extent : GxRenderExtent) : Attempt Failure Engine Core :=
  match env.targets g.clock with
  | none => (.error .construction, g.tick)
  | some (color, depth) =>
    (.ok {
      id := g.cores
      color := ⟨2 * g.cores, some color, extent.targetWidth, extent.targetHeight⟩
      depth := ⟨2 * g.cores + 1, some depth, extent.targetWidth, extent.targetHeight⟩
      draws := .start
      latest := none
      disableFilter := false }, { g.tick with cores := g.cores + 1 })

/-- The core is given up, and another takes its place. -/
def setCore (core : Option Core) : Engine :=
  { g with core := core, released := g.core.toList ++ g.released }

def rebuild (extent : GxRenderExtent) : Attempt Failure Engine Unit :=
  (g.finishCore env).andThen fun _ g =>
  (g.newCore env extent).andThen fun core g => (.ok (), g.setCore (some core))

/-- The targets are cleared; the depth that they are cleared to is finite and below one. -/
def clearTargets (extent : GxRenderExtent) : Attempt Failure Engine Unit :=
  match env.clearColor g.clock with
  | none => (.error (.invalidArgument "Nonfinite frame clear color"), g.tick)
  | some bgra =>
    (AgcBlit.fillDepthTested env.blit g.blit (g.core.map (·.color)) (g.core.map (·.depth))
      ⟨0, 0, extent.targetWidth, extent.targetHeight⟩ bgra true 15).zoom .blit
      (fun blit => { g.tick with blit := blit }) |>.andThen fun _ g => (.ok (), g)

/-- The display-copy backend starts a frame. -/
def beginDisplay (disableFilter : Bool) : Engine :=
  { g with core := g.core.map fun core => { core with latest := none, disableFilter := disableFilter } }

/-- The image that is presented: the last display copy of the frame, or the EFB. -/
def source : Option VideoPresenter.Image :=
  g.core.map fun core => core.latest.getD ⟨core.color.data, core.color.width, core.color.height⟩

/-- `presenter.submit`, with the blits that it makes. -/
def present {α : Type} (F : VideoArithmetic α) (aspect : α) :
    Attempt Failure Engine VideoPresenter.PresentedFrame :=
  (VideoPresenter.submit F.toAspectArithmetic env.present g.presenter g.source aspect true
    (env.deadline g.clock)).zoom .present fun presenter =>
      { g.tick with
        presenter := presenter
        blit := AgcBlit.run env.blit g.blit ((env.presentBlits g.clock).map (·.1)) }

/-- The screen capture, where one is asked for and due. -/
def capture : Attempt Failure Engine Unit :=
  if env.screenshot g.clock then
    ((VideoPresenter.retirePending env.present g.presenter).zoom .present fun presenter =>
      { g.tick with presenter := presenter }).andThen fun _ g =>
    (if env.captures g.clock then .ok () else .error .report, g.tick)
  else (.ok (), g.tick)

/-- The timing report. -/
def report : Attempt Failure Engine Unit :=
  (if env.reports g.clock then .ok () else .error .report, g.tick)

/-- `presenter.close()`. -/
def closePresenter : ℤ × Engine :=
  let (rc, presenter) := VideoPresenter.close env.present g.presenter
  (rc, { g with presenter := presenter })

/-- `blit.pending()`. -/
def blitPending : Bool × Engine :=
  let (unresolved, blit) := AgcBlit.unresolved env.blit g.blit
  (unresolved, { g with blit := blit })

end Engine

/-! ### The renderer -/

namespace World

variable {α : Type} (w : World α)

/-- A step of the engine. -/
def onEngine {β : Type} (f : Engine → Attempt Failure Engine β) : Result α β :=
  (f w.engine).zoom id fun engine => { w with engine := engine }

/-- Sets the latch. -/
def fail : World α := { w with failed := true }

def note (e : Event) : World α := { w with log := e :: w.log }

/-- `exchange_gx_draw_sink`. -/
def exchangeGxDrawSink (sink : GxDrawSink) : Result α GxDrawSink :=
  if ¬ sink.Complete then (.error (.invalidArgument "Incomplete GX draw receiver"), w)
  else (.ok w.active.draw, { w with active := { w.active with draw := sink } })

/-- `exchange_gx_texture_copy_backend`. -/
def exchangeGxTextureCopyBackend (backend : Option ℕ) : Option ℕ × World α :=
  (w.active.texture, { w with active := { w.active with texture := backend } })

/-- `exchange_gx_display_copy_backend`. -/
def exchangeGxDisplayCopyBackend (backend : Option ℕ) : Option ℕ × World α :=
  (w.active.display, { w with active := { w.active with display := backend } })

/-- The receivers of the core are installed, and the frame is on. -/
def install (receivers : Receivers) : Result α Unit :=
  (w.exchangeGxDrawSink receivers.draw).andThen fun oldDraw w =>
    let w := { w with old := { w.old with draw := oldDraw } }
    let (oldTexture, w) := w.exchangeGxTextureCopyBackend receivers.texture
    let w := { w with old := { w.old with texture := oldTexture } }
    let (oldDisplay, w) := w.exchangeGxDisplayCopyBackend receivers.display
    let w := { w with old := { w.old with display := oldDisplay } }
    (.ok (), { w with inFrame := true }.note (.installed w.old))

def restore : Result α Unit :=
  if w.inFrame then
    (w.exchangeGxDrawSink w.old.draw).andThen fun _ w =>
      let (_, w) := w.exchangeGxTextureCopyBackend w.old.texture
      let (_, w) := w.exchangeGxDisplayCopyBackend w.old.display
      (.ok (), { w with inFrame := false }.note (.restored w.active))
  else (.ok (), w)

/-- `configure_gx_render_extent`. -/
def configureGxRenderExtent (extent : GxRenderExtent) : Result α Unit :=
  if ¬ extent.valid then (.error (.invalidArgument "Invalid GX render-target extent"), w)
  else (.ok (), { w with view := Gx.ViewState.applyMapped { w.view with extent := extent } })

end World

variable {α : Type} (F : VideoArithmetic α) (L : RenderSizeLimits α) (env : Environment)

def sameExtent (a b : GxRenderExtent) : Prop :=
  a.logicalWidth = b.logicalWidth ∧ a.logicalHeight = b.logicalHeight ∧
    a.targetWidth = b.targetWidth ∧ a.targetHeight = b.targetHeight

instance (a b : GxRenderExtent) : Decidable (sameExtent a b) :=
  inferInstanceAs (Decidable (_ ∧ _ ∧ _ ∧ _))

/-- The core fits the extent of a frame, or is replaced. -/
def refit (w : World α) (extent : GxRenderExtent) : Result α Unit :=
  if w.engine.core.isSome ∧ sameExtent extent w.plan.extent then (.ok (), w)
  else w.onEngine (·.rebuild env extent)

/-- What the rest of the runtime is told about a frame. -/
def World.commit (w : World α) (next : GxVideoPlan α) : World α :=
  { w with
    plan := next
    committed := some next.extent
    view := { w.view with nativePolicy := next.policy = GxVideo.AURORA_VIEWPORT_NATIVE } }

/-- The part of `begin` that is tried. -/
def beginWith (w : World α) (next : GxVideoPlan α) : Result α Bool :=
  (refit env w next.extent).andThen fun _ w =>
  ((w.commit next).configureGxRenderExtent next.extent).andThen fun _ w =>
  (w.onEngine (·.clearTargets env next.extent)).andThen fun _ w =>
  let w := { w with engine := w.engine.beginDisplay w.disableFilter }
  match w.engine.core with
  | none => (.error .construction, w)
  | some core => (w.install core.receivers).andThen fun _ w => (.ok true, w)

/-- What `begin` is refused for. -/
def World.NoBegin (w : World α) : Prop := w.closed ∨ w.failed ∨ w.inFrame

instance (w : World α) : Decidable w.NoBegin := inferInstanceAs (Decidable (_ ∨ _ ∨ _))

def beginRefused : Failure := .logicError "Invalid Aurora begin_frame lifecycle"

/-- `begin`. The configuration is read before anything is tried. -/
def beginFrame (w : World α) : Result α Bool :=
  if w.NoBegin then (.error beginRefused, w)
  else
    match planGxVideo F L w.video with
    | .error what => (.error (.invalidArgument what), w)
    | .ok next => (beginWith env w next).handle fun failure w => (.error failure, w.fail)

/-- The presentation of a frame, which ends with the receivers of before. -/
def presentFrame (w : World α) : Result α Unit :=
  let aspect :=
    if F.lt (F.ofInt 0) w.plan.presentAspect then w.plan.presentAspect
    else
      match w.engine.source with
      | none => F.ofInt 0
      | some source => F.div (F.ofInt source.width) (F.ofInt source.height)
  (w.onEngine fun g => g.present env F aspect).andThen fun frame w =>
    { w with presented := some frame }.restore

/-- The part of `end` that is tried. -/
def endWith (w : World α) : Result α Unit :=
  (w.onEngine (·.drain env)).andThen fun _ w =>
  (w.onEngine (·.finishCore env)).andThen fun _ w =>
  (presentFrame F env w).andThen fun _ w =>
  (w.onEngine (·.capture env)).andThen fun _ w => w.onEngine (·.report env)

def World.NoEnd (w : World α) : Prop := w.closed ∨ w.failed ∨ w.inFrame = false

instance (w : World α) : Decidable w.NoEnd := inferInstanceAs (Decidable (_ ∨ _ ∨ _))

def endRefused : Failure := .logicError "Invalid Aurora end_frame lifecycle"

/-- `end`. -/
def endFrame (w : World α) : Result α Unit :=
  if w.NoEnd then (.error endRefused, w)
  else (endWith F env w).handle fun failure w =>
    w.fail.restore.andThen fun _ w => (.error failure, w)

/-- The part of `close` that ends a frame. -/
def closeFrame (w : World α) : Result α Unit :=
  if w.inFrame then
    let cleared := env.clearBuffer w.engine.clock
    let w := { w with engine := w.engine.tick }
    if cleared then w.restore else (.error .fifo, w)
  else (.ok (), w)

/-- The core is given up, and the rest of the runtime is told. -/
def World.shut (w : World α) : Result α ℤ :=
  ({ w with engine := w.engine.setCore none }.configureGxRenderExtent w.previousExtent).andThen
    fun _ w => (.ok 0, { w with committed := none, closed := true })

/-- `if(!failed)blit.finish()`. -/
def settleBlits (w : World α) : Result α Unit :=
  if w.failed then (.ok (), w) else w.onEngine (·.finishBlits env)

/-- The part of `close` after the presenter is closed. -/
def closeEngine (w : World α) : Result α ℤ :=
  match settleBlits env w with
  | (.error _, w) => (.ok (-1), w.fail)
  | (.ok _, w) =>
    if w.failed then (.ok (-1), w)
    else
      let (unresolved, engine) := w.engine.blitPending env
      let w := { w with engine := engine }
      if unresolved then (.ok (-1), w)
      else
        match w.onEngine (·.finishCore env) with
        | (.error _, w) => (.ok (-1), w.fail)
        | (.ok _, w) => w.shut

def close (w : World α) : Result α ℤ :=
  if w.closed then (.ok 0, w)
  else (closeFrame env w).andThen fun _ w =>
    let (rc, engine) := w.engine.closePresenter env
    let w := { w with engine := engine }
    if rc < 0 then (.ok rc, w) else closeEngine env w

/-- The destructor. -/
def destroy (w : World α) : World α :=
  match close env w with
  | (.error _, w) => { w with fate := .terminated }
  | (.ok rc, w) =>
    if rc < 0 then { w with fate := .retained }
    else { w with
      fate := .destroyed
      engine := { w.engine with blit := AgcBlit.destroy env.blit w.engine.blit } }

/-- `wait_idle`. -/
def waitIdle (w : World α) : Result α Unit :=
  if w.failed then (.error (.logicError "Frame GPU completion unresolved"), w)
  else (w.onEngine (·.finishBlits env)).andThen fun _ w => w.onEngine (·.finishCore env)

/-- `set_disable_copy_filter`. -/
def setDisableCopyFilter (w : World α) (value : Bool) : World α :=
  { w with
    disableFilter := value
    engine := { w.engine with
      core := w.engine.core.map fun core => { core with disableFilter := value } } }

/-- `AuroraSetViewportPolicy`. -/
def setViewportPolicy (w : World α) (policy : ℕ) : Result α Unit :=
  if policy > GxVideo.AURORA_VIEWPORT_NATIVE then
    (.error (.invalidArgument "Invalid GX viewport policy"), w)
  else (w.onEngine (·.drain env)).andThen fun _ w =>
    (.ok (), { w with
      video := GxVideo.auroraSetViewportPolicy w.video policy
      view := Gx.ViewState.applyMapped
        { w.view with nativePolicy := policy = GxVideo.AURORA_VIEWPORT_NATIVE } })

/-! ### Calls -/

inductive Call (α : Type)
  | beginFrame
  | endFrame
  | close
  | destroy
  | waitIdle
  | setDisableCopyFilter (value : Bool)
  /-- The guest draws and copies. -/
  | guest (work : GuestWork)
  /-- Somebody else installs a receiver. -/
  | exchangeDraw (sink : GxDrawSink)
  | exchangeTexture (backend : Option ℕ)
  | exchangeDisplay (backend : Option ℕ)
  | viConfigure (mode : Option GxVideo.GXRenderModeObj)
  | viSetFrameBufferScale (scale : α)
  | viLockAspectRatio (width height : ℤ)
  | setViewportPolicy (policy : ℕ)

def step (w : World α) (call : Call α) : World α :=
  if w.fate = .alive then
    match call with
    | .beginFrame => (beginFrame F L env w).2
    | .endFrame => (endFrame F env w).2
    | .close => (close env w).2
    | .destroy => destroy env w
    | .waitIdle => (waitIdle env w).2
    | .setDisableCopyFilter value => setDisableCopyFilter w value
    | .guest work => { w with engine := w.engine.serve env work }
    | .exchangeDraw sink => (w.exchangeGxDrawSink sink).2
    | .exchangeTexture backend => (w.exchangeGxTextureCopyBackend backend).2
    | .exchangeDisplay backend => (w.exchangeGxDisplayCopyBackend backend).2
    | .viConfigure mode => { w with video := (GxVideo.viConfigure F L w.video mode).2 }
    | .viSetFrameBufferScale scale =>
      { w with video := (GxVideo.viSetFrameBufferScale F L w.video scale).2 }
    | .viLockAspectRatio width height =>
      { w with video := GxVideo.viLockAspectRatio w.video width height }
    | .setViewportPolicy policy => (setViewportPolicy env w policy).2
  else w

def run (w : World α) (calls : List (Call α)) : World α := calls.foldl (step F L env) w

/-- What a renderer finds when it is made: settings with a plan, receivers of others, an extent that
was configured, and a presenter that was just set up. -/
structure Bootstrap where
  video : GxVideoSettings α
  planned : video.Planned F L
  active : Receivers
  complete : active.draw.Complete
  view : Gx.ViewState
  extent_valid : view.extent.valid = true
  width : ℕ
  height : ℕ
  setup : VideoPresenter.Setup
  presenter : VideoPresenter.Impl
  presenter_made : VideoPresenter.initializeImpl F.toAspectArithmetic width height setup =
    .ok presenter
  pixels : ℤ → VideoPresenter.Pixels

variable {F L}

/-- A renderer that was just made. -/
def World.start (b : Bootstrap F L) : World α where
  video := b.video
  committed := none
  view := b.view
  active := b.active
  engine := {
    blit := .start .GxCopy
    presenter := .start b.presenter b.pixels
    core := none
    released := []
    cores := 0
    clock := 0 }
  plan := ⟨⟨640, 480, 640, 480⟩, F.one, F.ofInt 0, GxVideo.AURORA_VIEWPORT_FIT⟩
  previousExtent := b.view.extent
  presented := none
  inFrame := false
  failed := false
  closed := false
  disableFilter := false
  old := ⟨⟨0, false, false⟩, none, none⟩
  fate := .alive
  log := []

end Gpu.GxFrameRenderer
