import MkwiiPs5.Gpu.AgcBlitRuns
import MkwiiPs5.Gpu.AgcGxDrawRuns
import MkwiiPs5.Gpu.GxFrameRenderer
import MkwiiPs5.Gpu.VideoPresenterRuns

/-!
# Frames from begin to end

What the runs of a frame renderer have in common, whatever throws on the way: the receivers of
before come back once, a failure is final, and nothing is given up that is still worked on.
-/

namespace Gpu.GxFrameRenderer

open GxVideo (GxVideoSettings GxVideoPlan VideoArithmetic RenderSizeLimits planGxVideo)

variable {env : Environment}

/-! ### The engine -/

/-- What a core is apart from its draws: its number and its targets. -/
def Core.targets (core : Core) : ℕ × AgcBlit.Target × AgcBlit.Target :=
  (core.id, core.color, core.depth)

theorem targets_map (core : Option Core) {f : Core → Core} (hf : ∀ c, (f c).targets = c.targets) :
    (core.map f).map Core.targets = core.map Core.targets := by
  rw [Option.map_map]
  congr 1
  funext c
  exact hf c

namespace Engine

variable {g g' : Engine}

/-- Where VideoOut is open, both scan-out buffers are there. -/
def ScansOut (g : Engine) : Prop :=
  g.presenter.presenter.handle < 0 ∨ ∀ slot, (g.presenter.presenter.buffers slot).isSome = true

/-- Nothing that was given up is worked on. -/
structure Inv (g : Engine) : Prop where
  blit : AgcBlit.Inv g.blit
  draws : ∀ core, g.core = some core → AgcGxDraw.Inv core.draws
  released : ∀ core ∈ g.released, AgcGxDraw.pending core.draws.log = []
  scanOut : g.ScansOut

/-- No draw of the core is worked on. -/
def Idle (g : Engine) : Prop := ∀ core, g.core = some core → AgcGxDraw.pending core.draws.log = []

/-- VideoOut and the scan-out buffers are as they were, or VideoOut is closed. -/
def Shows (g g' : Engine) : Prop :=
  g.presenter.presenter.Steady g'.presenter.presenter ∨ g'.presenter.presenter.handle < 0

theorem shows_of_eq (h : g'.presenter = g.presenter) : Shows g g' := by
  rw [Shows, h]
  exact Or.inl (.refl _)

theorem Shows.trans {g₁ g₂ g₃ : Engine} (h : Shows g₁ g₂) (h' : Shows g₂ g₃) : Shows g₁ g₃ := by
  rcases h' with hsteady' | hclosed'
  · rcases h with hsteady | hclosed
    · exact Or.inl (hsteady.trans hsteady')
    · exact Or.inr (hsteady'.handle.trans_lt hclosed)
  · exact Or.inr hclosed'

theorem ScansOut.shows (h : g.ScansOut) (hshows : Shows g g') : g'.ScansOut := by
  rcases hshows with hsteady | hclosed
  · rw [ScansOut, hsteady.handle, hsteady.buffers]
    exact h
  · exact Or.inl hclosed

/-- The core, with its targets, is the same, and no other was given up; the scan-out buffers are kept
until VideoOut is closed. -/
structure Keeps (g g' : Engine) : Prop where
  core : g'.core.map Core.targets = g.core.map Core.targets
  released : g'.released = g.released
  shows : Shows g g'

theorem Keeps.refl (g : Engine) : Keeps g g := ⟨rfl, rfl, shows_of_eq rfl⟩

theorem Keeps.trans {g₁ g₂ g₃ : Engine} (h : Keeps g₁ g₂) (h' : Keeps g₂ g₃) : Keeps g₁ g₃ :=
  ⟨h'.core.trans h.core, h'.released.trans h.released, h.shows.trans h'.shows⟩

theorem Keeps.isSome (h : Keeps g g') : g'.core.isSome = g.core.isSome := by
  have hcore := congrArg Option.isSome h.core
  rwa [Option.isSome_map, Option.isSome_map] at hcore

theorem Inv.tick (h : Inv g) : Inv g.tick := ⟨h.blit, h.draws, h.released, h.scanOut⟩

/-- The blitter made some calls. -/
theorem Inv.setBlit (h : Inv g) {blit : AgcBlit.World} (hblit : AgcBlit.Inv blit) :
    Inv { g with blit := blit } := ⟨hblit, h.draws, h.released, h.scanOut⟩

/-- The core is given up when its draws are complete. -/
theorem Inv.setCore (h : Inv g) (hidle : g.Idle) {core : Option Core}
    (hcore : ∀ c, core = some c → AgcGxDraw.Inv c.draws) : Inv (g.setCore core) where
  blit := h.blit
  draws := hcore
  released c hc := by
    rcases List.mem_append.mp hc with hc | hc
    · exact hidle c (Option.mem_toList.mp hc)
    · exact h.released c hc
  scanOut := h.scanOut

theorem serve_inv (env : Environment) (h : Inv g) (work : GuestWork) : Inv (g.serve env work) where
  blit := h.blit.run _
  draws := by
    intro core hcore
    obtain ⟨core₀, hcore₀, rfl⟩ := Option.map_eq_some_iff.mp hcore
    exact AgcGxDraw.run_inv _ _ (h.draws core₀ hcore₀) _
  released := h.released
  scanOut := h.scanOut

theorem serve_keeps (env : Environment) (g : Engine) (work : GuestWork) :
    Keeps g (g.serve env work) :=
  ⟨targets_map g.core fun _ => rfl, rfl, shows_of_eq rfl⟩

theorem drain_post (h : Inv g) : (g.drain env).Post
      (fun _ g' => Inv g' ∧ Keeps g g' ∧ g'.presenter = g.presenter)
      fun g' => Inv g' ∧ Keeps g g' ∧ g'.presenter = g.presenter := by
  rw [drain]
  generalize env.fifo g.clock = work
  have hinv := (serve_inv env h work).tick
  have hkeeps : Keeps g (g.serve env work).tick := ⟨(serve_keeps env g work).core, rfl, shows_of_eq rfl⟩
  split
  · exact ⟨hinv, hkeeps, rfl⟩
  · exact ⟨hinv, hkeeps, rfl⟩

theorem finishCore_post (h : Inv g) : (g.finishCore env).Post
      (fun _ g' => Inv g' ∧ Keeps g g' ∧ g'.Idle ∧ g'.blit = g.blit ∧ g'.presenter = g.presenter)
      fun g' => Inv g' ∧ Keeps g g' ∧ g'.presenter = g.presenter := by
  rw [finishCore]
  cases hcore : g.core with
  | none => exact ⟨h, .refl g, fun core hsome => absurd (hcore.symm.trans hsome) nofun, rfl, rfl⟩
  | some core =>
    have hkeeps (draws : AgcGxDraw.World) :
        Keeps g { g with core := some { core with draws := draws } } := by
      refine ⟨?_, rfl, shows_of_eq rfl⟩
      rw [hcore]
      rfl
    refine (AgcGxDraw.finish_post (h.draws core hcore)).zoom ?_ ?_
    · rintro _ draws ⟨hdraws, hpending⟩
      refine ⟨⟨h.blit, ?_, h.released, h.scanOut⟩, hkeeps draws, ?_, rfl, rfl⟩
      · rintro _ ⟨⟩
        exact hdraws
      · rintro _ ⟨⟩
        exact hpending
    · intro draws hdraws
      refine ⟨⟨h.blit, ?_, h.released, h.scanOut⟩, hkeeps draws, rfl⟩
      rintro _ ⟨⟩
      exact hdraws

theorem finishBlits_post (h : Inv g) : (g.finishBlits env).Post
      (fun _ g' => Inv g' ∧ Keeps g g' ∧ g'.presenter = g.presenter)
      fun g' => Inv g' ∧ Keeps g g' ∧ g'.presenter = g.presenter := by
  refine (AgcBlit.finish_post h.blit).zoom ?_ ?_
  · rintro _ blit ⟨hblit, _⟩
    exact ⟨h.setBlit hblit, ⟨rfl, rfl, shows_of_eq rfl⟩, rfl⟩
  · intro blit hblit
    exact ⟨h.setBlit hblit, ⟨rfl, rfl, shows_of_eq rfl⟩, rfl⟩

theorem blitPending_spec (env : Environment) (h : Inv g) :
    Inv (g.blitPending env).2 ∧ Keeps g (g.blitPending env).2 ∧
      (g.blitPending env).2.presenter = g.presenter ∧
      ((g.blitPending env).1 = false → AgcBlit.pending (g.blitPending env).2.blit.log = []) := by
  obtain ⟨hblit, hdone⟩ := AgcBlit.unresolved_spec env.blit h.blit
  exact ⟨h.setBlit hblit, ⟨rfl, rfl, shows_of_eq rfl⟩, rfl, hdone⟩

theorem newCore_post (h : Inv g) (hidle : g.Idle) (extent : Gx.GxRenderExtent) :
    (g.newCore env extent).Post
      (fun core g' => Inv g' ∧ g'.Idle ∧ g'.presenter = g.presenter ∧ AgcGxDraw.Inv core.draws)
      fun g' => Inv g' ∧ g'.presenter = g.presenter := by
  rw [newCore]
  split
  · exact ⟨h.tick, rfl⟩
  · exact ⟨⟨h.blit, h.draws, h.released, h.scanOut⟩, hidle, rfl, AgcGxDraw.start_inv⟩

theorem rebuild_post (h : Inv g) (extent : Gx.GxRenderExtent) : (g.rebuild env extent).Post
      (fun _ g' => Inv g' ∧ g'.presenter = g.presenter ∧ g'.core.isSome = true)
      fun g' => Inv g' ∧ g'.presenter = g.presenter := by
  refine ((finishCore_post h).imp (fun _ _ hpost => hpost) fun _ hpost =>
    ⟨hpost.1, hpost.2.2⟩).andThen fun _ g₁ hfinished => ?_
  obtain ⟨h₁, _, hidle, _, hpresenter⟩ := hfinished
  refine ((newCore_post h₁ hidle extent).imp (fun _ _ hpost => hpost) fun _ hpost =>
    ⟨hpost.1, hpost.2.trans hpresenter⟩).andThen fun core g₂ hmade => ?_
  obtain ⟨h₂, hidle', hpresenter', hcore⟩ := hmade
  refine ⟨h₂.setCore hidle' ?_, hpresenter'.trans hpresenter, rfl⟩
  rintro _ ⟨⟩
  exact hcore

theorem clearTargets_post (h : Inv g) (extent : Gx.GxRenderExtent) :
    (g.clearTargets env extent).Post
      (fun _ g' => Inv g' ∧ Keeps g g' ∧ g'.presenter = g.presenter)
      fun g' => Inv g' ∧ g'.presenter = g.presenter := by
  rw [clearTargets]
  split
  · exact ⟨h.tick, rfl⟩
  · refine Attempt.Post.andThen ((AgcBlit.fillDepthTested_post h.blit _ _ _ _ _ _).zoom
      (fun _ blit hblit => ?_) fun blit hblit => ?_) fun _ g' hpost => hpost
    · exact ⟨h.tick.setBlit hblit, ⟨rfl, rfl, shows_of_eq rfl⟩, rfl⟩
    · exact ⟨h.tick.setBlit hblit, rfl⟩

theorem beginDisplay_spec (h : Inv g) (disableFilter : Bool) :
    Inv (g.beginDisplay disableFilter) ∧ Keeps g (g.beginDisplay disableFilter) := by
  refine ⟨⟨h.blit, ?_, h.released, h.scanOut⟩, targets_map g.core fun _ => rfl, rfl,
    shows_of_eq rfl⟩
  intro core hcore
  obtain ⟨core₀, hcore₀, rfl⟩ := Option.map_eq_some_iff.mp hcore
  exact h.draws core₀ hcore₀

/-- The presenter made a call that keeps the buffers. -/
theorem Inv.setPresenter (h : Inv g) {presenter : VideoPresenter.World} {blit : AgcBlit.World}
    (hsteady : g.presenter.presenter.Steady presenter.presenter) (hblit : AgcBlit.Inv blit) :
    Inv { g.tick with presenter := presenter, blit := blit } ∧
      Keeps g { g.tick with presenter := presenter, blit := blit } :=
  ⟨⟨hblit, h.draws, h.released, h.scanOut.shows (Or.inl hsteady)⟩, rfl, rfl, Or.inl hsteady⟩

/-- A presentation that returns leaves the presenter without a latch. -/
theorem present_post {α : Type} (F : VideoArithmetic α) (h : Inv g) (aspect : α) :
    (g.present env F aspect).Post
      (fun _ g' => Inv g' ∧ Keeps g g' ∧ g'.presenter.presenter.failed = false)
      fun g' => Inv g' ∧ Keeps g g' := by
  refine ((VideoPresenter.submit_unfailed g.presenter g.source aspect true _).and
    (VideoPresenter.submit_steadies g.presenter g.source aspect true _)).zoom (fun _ _ hpost => ?_) fun _ hpost => ?_
  · obtain ⟨hinv, hkeeps⟩ := h.setPresenter hpost.2 (h.blit.run _)
    exact ⟨hinv, hkeeps, hpost.1⟩
  · exact h.setPresenter hpost.2 (h.blit.run _)

theorem capture_post (h : Inv g) : (g.capture env).Post
      (fun _ g' => Inv g' ∧ Keeps g g' ∧
        g'.presenter.presenter.failed = g.presenter.presenter.failed)
      fun g' => Inv g' ∧ Keeps g g' := by
  rw [capture]
  split
  · have hretired : ((VideoPresenter.retirePending env.present g.presenter).zoom Failure.present
        fun presenter => { g.tick with presenter := presenter }).Post
        (fun _ g' => Inv g' ∧ Keeps g g' ∧
          g'.presenter.presenter.failed = g.presenter.presenter.failed)
        fun g' => Inv g' ∧ Keeps g g' := by
      refine ((VideoPresenter.retirePending_failed g.presenter).and
        (VideoPresenter.retirePending_steadies g.presenter)).zoom (fun _ _ hpost => ?_)
        fun _ hpost => ?_
      · obtain ⟨hinv, hkeeps⟩ := h.setPresenter hpost.2 h.blit
        exact ⟨hinv, hkeeps, hpost.1⟩
      · exact h.setPresenter hpost.2 h.blit
    refine hretired.andThen fun _ g' hpost => ?_
    obtain ⟨hinv, hkeeps, hfailed⟩ := hpost
    split
    · exact ⟨hinv.tick, ⟨hkeeps.core, hkeeps.released, hkeeps.shows⟩, hfailed⟩
    · exact ⟨hinv.tick, ⟨hkeeps.core, hkeeps.released, hkeeps.shows⟩⟩
  · exact ⟨h.tick, ⟨rfl, rfl, shows_of_eq rfl⟩, rfl⟩

theorem report_post (h : Inv g) : (g.report env).Post
      (fun _ g' => Inv g' ∧ Keeps g g' ∧ g'.presenter = g.presenter)
      fun g' => Inv g' ∧ Keeps g g' := by
  rw [report]
  split
  · exact ⟨h.tick, ⟨rfl, rfl, shows_of_eq rfl⟩, rfl⟩
  · exact ⟨h.tick, ⟨rfl, rfl, shows_of_eq rfl⟩⟩

theorem closePresenter_spec (env : Environment) (h : Inv g) :
    Inv (g.closePresenter env).2 ∧ Keeps g (g.closePresenter env).2 ∧
      (g.closePresenter env).2.presenter.presenter.failed = g.presenter.presenter.failed ∧
      ((g.closePresenter env).1 < 0 ∨
        (g.closePresenter env).2.presenter.presenter.handle < 0) :=
  have hshows : Shows g (g.closePresenter env).2 := VideoPresenter.close_steady env.present g.presenter
  ⟨⟨h.blit, h.draws, h.released, h.scanOut.shows hshows⟩, ⟨rfl, rfl, hshows⟩,
    VideoPresenter.close_spec env.present g.presenter⟩

end Engine

/-! ### The receivers -/

/-- The receivers that a frame that is on has put aside. -/
def openFrame : List Event → Option Receivers
  | [] => none
  | .installed old :: _ => some old
  | .restored _ :: _ => none

/-- Receivers are put aside where none are, and come back as they were put aside. -/
def Event.Safe : Event → List Event → Prop
  | .installed _, past => openFrame past = none
  | .restored old, past => openFrame past = some old

variable {α : Type} {F : VideoArithmetic α} {L : RenderSizeLimits α} {w w' : World α}

theorem World.onEngine_post {β : Type} {f : Engine → Attempt Failure Engine β}
    {Q : β → Engine → Prop} {E : Engine → Prop} (h : (f w.engine).Post Q E) :
    (w.onEngine f).Post (fun b w' => ∃ g, Q b g ∧ w' = { w with engine := g })
      fun w' => ∃ g, E g ∧ w' = { w with engine := g } :=
  h.zoom (fun _ g hQ => ⟨g, hQ, rfl⟩) fun g hE => ⟨g, hE, rfl⟩

theorem World.install_eq (w : World α) {receivers : Receivers} (h : receivers.draw.Complete) :
    w.install receivers = (.ok (), { w with
      active := receivers
      old := w.active
      inFrame := true
      log := .installed w.active :: w.log }) := by
  rw [World.install, World.exchangeGxDrawSink, if_neg (not_not.mpr h)]
  rfl

theorem World.restore_eq (w : World α) (h : w.old.draw.Complete) (hframe : w.inFrame = true) :
    w.restore = (.ok (), { w with
      active := w.old
      inFrame := false
      log := .restored w.old :: w.log }) := by
  rw [World.restore, if_pos hframe, World.exchangeGxDrawSink, if_neg (not_not.mpr h)]
  rfl

theorem World.restore_of_not_inFrame (w : World α) (hframe : w.inFrame = false) :
    w.restore = (.ok (), w) := by
  rw [World.restore, hframe]
  rfl

/-! ### The invariant -/

structure Inv (F : VideoArithmetic α) (L : RenderSizeLimits α) (w : World α) : Prop where
  engine : w.engine.Inv
  planned : w.video.Planned F L
  active : w.active.draw.Complete
  old : w.old.draw.Complete
  extent : w.previousExtent.valid = true
  core : w.inFrame = true → w.engine.core.isSome = true
  presenter : w.engine.presenter.presenter.failed = true → w.failed = true
  safe : History.Ok Event.Safe w.log
  frame : openFrame w.log = if w.inFrame then some w.old else none
  closed : w.closed = true → w.inFrame = false

/-- What the inner steps of a call do not change. -/
structure Calm (w w' : World α) : Prop where
  video : w'.video = w.video
  active : w'.active = w.active
  old : w'.old = w.old
  previousExtent : w'.previousExtent = w.previousExtent
  inFrame : w'.inFrame = w.inFrame
  failed : w'.failed = w.failed
  closed : w'.closed = w.closed
  log : w'.log = w.log

theorem Calm.refl (w : World α) : Calm w w := ⟨rfl, rfl, rfl, rfl, rfl, rfl, rfl, rfl⟩

theorem Calm.trans {w₁ w₂ w₃ : World α} (h : Calm w₁ w₂) (h' : Calm w₂ w₃) : Calm w₁ w₃ where
  video := h'.video.trans h.video
  active := h'.active.trans h.active
  old := h'.old.trans h.old
  previousExtent := h'.previousExtent.trans h.previousExtent
  inFrame := h'.inFrame.trans h.inFrame
  failed := h'.failed.trans h.failed
  closed := h'.closed.trans h.closed
  log := h'.log.trans h.log

theorem calm_engine (w : World α) (g : Engine) : Calm w { w with engine := g } :=
  ⟨rfl, rfl, rfl, rfl, rfl, rfl, rfl, rfl⟩

/-- The invariant is about the engine and about what the inner steps do not change. -/
theorem Inv.calm (h : Inv F L w) (hcalm : Calm w w') (hengine : w'.engine.Inv)
    (hcore : w.inFrame = true → w'.engine.core.isSome = true)
    (hpresenter : w'.engine.presenter.presenter.failed = true → w'.failed = true) :
    Inv F L w' where
  engine := hengine
  planned := hcalm.video ▸ h.planned
  active := hcalm.active ▸ h.active
  old := hcalm.old ▸ h.old
  extent := hcalm.previousExtent ▸ h.extent
  core hframe := hcore (hcalm.inFrame ▸ hframe)
  presenter := hpresenter
  safe := hcalm.log ▸ h.safe
  frame := by rw [hcalm.log, hcalm.inFrame, hcalm.old, h.frame]
  closed hclosed := hcalm.inFrame.trans (h.closed (hcalm.closed ▸ hclosed))

theorem Inv.fail (h : Inv F L w) : Inv F L w.fail :=
  ⟨h.engine, h.planned, h.active, h.old, h.extent, h.core, fun _ => rfl, h.safe, h.frame, h.closed⟩

/-- A step of the engine that keeps the core and does not break the presenter. -/
theorem Inv.onEngine (h : Inv F L w) {g : Engine} (hg : g.Inv) (hkeeps : w.engine.Keeps g)
    (hpresenter : g.presenter.presenter.failed = w.engine.presenter.presenter.failed) :
    Inv F L { w with engine := g } := by
  refine h.calm (calm_engine w g) hg ?_ ?_
  · intro hframe
    exact hkeeps.isSome.trans (h.core hframe)
  · intro hfailed
    exact h.presenter (hpresenter ▸ hfailed)

/-- The receivers of the core are installed. -/
theorem Inv.install (h : Inv F L w) (hframe : w.inFrame = false) (hclosed : w.closed = false)
    {receivers : Receivers} (hreceivers : receivers.draw.Complete)
    (hcore : w.engine.core.isSome = true) : Inv F L { w with
      active := receivers
      old := w.active
      inFrame := true
      log := .installed w.active :: w.log } where
  engine := h.engine
  planned := h.planned
  active := hreceivers
  old := h.active
  extent := h.extent
  core _ := hcore
  presenter := h.presenter
  safe := by
    refine ⟨?_, h.safe⟩
    have hopen := h.frame
    rw [hframe] at hopen
    exact hopen
  frame := rfl
  closed hclosed' := absurd (hclosed.symm.trans hclosed') nofun

/-- The receivers of before are installed again. -/
theorem Inv.restore (h : Inv F L w) (hframe : w.inFrame = true) : Inv F L { w with
      active := w.old
      inFrame := false
      log := .restored w.old :: w.log } where
  engine := h.engine
  planned := h.planned
  active := h.old
  old := h.old
  extent := h.extent
  core := nofun
  presenter := h.presenter
  safe := by
    refine ⟨?_, h.safe⟩
    have hopen := h.frame
    rw [hframe] at hopen
    exact hopen
  frame := rfl
  closed _ := rfl

/-! ### Begin -/

/-- What a frame that begins does: the receivers that were active are put aside. -/
structure Begins (w w' : World α) : Prop where
  inFrame : w'.inFrame = true
  old : w'.old = w.active
  log : w'.log = .installed w.active :: w.log

theorem configureGxRenderExtent_post (w : World α) (extent : Gx.GxRenderExtent) :
    (w.configureGxRenderExtent extent).Post (fun _ w' => Calm w w' ∧ w'.engine = w.engine)
      fun w' => w' = w := by
  rw [World.configureGxRenderExtent]
  split
  · rfl
  · exact ⟨⟨rfl, rfl, rfl, rfl, rfl, rfl, rfl, rfl⟩, rfl⟩

theorem refit_post (h : Inv F L w) (hframe : w.inFrame = false) (extent : Gx.GxRenderExtent) :
    (refit env w extent).Post
      (fun _ w' => Inv F L w' ∧ Calm w w' ∧ w'.engine.core.isSome = true)
      fun w' => Inv F L w' ∧ Calm w w' := by
  rw [refit]
  split
  · next hfits => exact ⟨h, .refl w, hfits.1⟩
  · have hpresenter {g : Engine} (hg : g.presenter = w.engine.presenter) :
        g.presenter.presenter.failed = true → w.failed = true := fun hfailed =>
      h.presenter (hg ▸ hfailed)
    have hout {P : Prop} : w.inFrame = true → P := fun hon => absurd (hframe.symm.trans hon) nofun
    refine (World.onEngine_post (Engine.rebuild_post h.engine extent)).imp ?_ ?_
    · rintro _ _ ⟨g, ⟨hg, hsame, hcore⟩, rfl⟩
      exact ⟨h.calm (calm_engine w g) hg hout (hpresenter hsame), calm_engine w g, hcore⟩
    · rintro _ ⟨g, ⟨hg, hsame⟩, rfl⟩
      exact ⟨h.calm (calm_engine w g) hg hout (hpresenter hsame), calm_engine w g⟩

/-- A step of the engine, in a call that keeps the core and the presenter. -/
theorem run_post {β : Type} (h : Inv F L w) {f : Engine → Attempt Failure Engine β}
    (hf : (f w.engine).Post
      (fun _ g => g.Inv ∧ w.engine.Keeps g ∧ g.presenter = w.engine.presenter)
      fun g => g.Inv ∧ w.engine.Keeps g ∧ g.presenter = w.engine.presenter) :
    (w.onEngine f).Post (fun _ w' => Inv F L w' ∧ Calm w w' ∧ w.engine.Keeps w'.engine)
      fun w' => Inv F L w' ∧ Calm w w' ∧ w.engine.Keeps w'.engine := by
  refine (World.onEngine_post hf).imp ?_ ?_
  · rintro _ _ ⟨g, ⟨hg, hkeeps, hsame⟩, rfl⟩
    exact ⟨h.onEngine hg hkeeps (by rw [hsame]), calm_engine w g, hkeeps⟩
  · rintro _ ⟨g, ⟨hg, hkeeps, hsame⟩, rfl⟩
    exact ⟨h.onEngine hg hkeeps (by rw [hsame]), calm_engine w g, hkeeps⟩

theorem beginWith_post (h : Inv F L w) (hframe : w.inFrame = false) (hclosed : w.closed = false)
    (next : GxVideoPlan α) : (beginWith env w next).Post
      (fun _ w' => Inv F L w' ∧ Begins w w' ∧ w'.closed = w.closed ∧ w'.failed = w.failed)
      fun w' => Inv F L w' ∧ Calm w w' := by
  rw [beginWith]
  refine (refit_post h hframe next.extent).andThen fun _ w₁ hfit => ?_
  obtain ⟨h₁, hcalm₁, hcore₁⟩ := hfit
  have hcommit : Calm w₁ (w₁.commit next) := ⟨rfl, rfl, rfl, rfl, rfl, rfl, rfl, rfl⟩
  have hcommitted := h₁.calm hcommit h₁.engine h₁.core h₁.presenter
  refine ((configureGxRenderExtent_post (w₁.commit next) next.extent).imp (fun _ _ hpost => hpost)
    ?_).andThen fun _ w₂ hconfigured => ?_
  · rintro _ rfl
    exact ⟨hcommitted, hcalm₁.trans hcommit⟩
  obtain ⟨hcalm, hengine⟩ := hconfigured
  have hcalm₂ := (hcalm₁.trans hcommit).trans hcalm
  have hframe₂ := hcalm₂.inFrame.trans hframe
  have hcore₂ : w₂.engine.core.isSome = true := hengine ▸ hcore₁
  have h₂ : Inv F L w₂ := by
    refine hcommitted.calm hcalm (hengine ▸ h₁.engine) (fun _ => hcore₂) fun hfailed => ?_
    exact hcalm.failed.trans (hcommitted.presenter (hengine ▸ hfailed))
  refine (World.onEngine_post (Engine.clearTargets_post h₂.engine next.extent)).imp
    (fun _ _ hpost => hpost) ?_ |>.andThen fun _ w₃ hcleared => ?_
  · rintro _ ⟨g, ⟨hg, hsame⟩, rfl⟩
    refine ⟨h₂.calm (calm_engine w₂ g) hg ?_ ?_, hcalm₂.trans (calm_engine w₂ g)⟩
    · exact fun hon => absurd (hframe₂.symm.trans hon) nofun
    · exact fun hfailed => h₂.presenter (hsame ▸ hfailed)
  obtain ⟨g, ⟨hg, hkeeps, hsame⟩, rfl⟩ := hcleared
  obtain ⟨hdisplay, hkept⟩ := Engine.beginDisplay_spec hg w₂.disableFilter
  have h₃ := h₂.onEngine hdisplay (hkeeps.trans hkept) (congrArg (·.presenter.failed) hsame)
  have hcore₃ : (g.beginDisplay w₂.disableFilter).core.isSome = true :=
    (hkeeps.trans hkept).isSome.trans hcore₂
  dsimp only
  split
  · next hnone => exact absurd (hcore₃.symm.trans (congrArg Option.isSome hnone)) nofun
  · next core _ =>
    rw [World.install_eq _ (rfl : core.receivers.draw.Complete)]
    refine ⟨h₃.install hframe₂ (hcalm₂.closed.trans hclosed) rfl hcore₃, ⟨rfl, ?_, ?_⟩, ?_, ?_⟩
    · exact hcalm₂.active
    · show .installed w₂.active :: w₂.log = _
      rw [hcalm₂.active, hcalm₂.log]
    · exact hcalm₂.closed
    · exact hcalm₂.failed

/-- What a call to begin a frame does where it throws: the receivers are as they were. -/
structure Falters (w w' : World α) : Prop where
  failed : w'.failed = true
  inFrame : w'.inFrame = false
  active : w'.active = w.active
  log : w'.log = w.log

theorem beginFrame_post (h : Inv F L w) (hno : ¬ w.NoBegin) : (beginFrame F L env w).Post
      (fun _ w' => Inv F L w' ∧ Begins w w' ∧ w'.closed = w.closed)
      fun w' => Inv F L w' ∧ Falters w w' ∧ w'.closed = w.closed := by
  rw [beginFrame, if_neg hno]
  obtain ⟨hclosed, hrest⟩ := not_or.mp hno
  have hframe := Bool.not_eq_true _ ▸ (not_or.mp hrest).2
  -- there is always a plan, so nothing throws before the part that is tried
  obtain ⟨next, hnext⟩ := h.planned
  rw [hnext]
  refine ((beginWith_post h hframe (Bool.not_eq_true _ ▸ hclosed) next).imp ?_
    fun _ hpost => hpost).handle ?_
  · exact fun _ _ hpost => ⟨hpost.1, hpost.2.1, hpost.2.2.1⟩
  · rintro failure w₁ ⟨h₁, hcalm⟩
    exact ⟨h₁.fail, ⟨rfl, hcalm.inFrame.trans hframe, hcalm.active, hcalm.log⟩, hcalm.closed⟩

/-! ### End -/

/-- A frame is over: the receivers of before are active again. -/
structure Ends (w w' : World α) : Prop where
  inFrame : w'.inFrame = false
  active : w'.active = w.old
  log : w'.log = .restored w.old :: w.log

theorem Ends.calm {w₁ w₂ w₃ : World α} (h : Ends w₁ w₂) (hcalm : Calm w₂ w₃) : Ends w₁ w₃ where
  inFrame := hcalm.inFrame.trans h.inFrame
  active := hcalm.active.trans h.active
  log := hcalm.log.trans h.log

theorem Calm.ends {w₁ w₂ w₃ : World α} (hcalm : Calm w₁ w₂) (h : Ends w₂ w₃) : Ends w₁ w₃ where
  inFrame := h.inFrame
  active := h.active.trans hcalm.old
  log := by rw [h.log, hcalm.old, hcalm.log]

theorem restore_post (h : Inv F L w) (hframe : w.inFrame = true) : w.restore.Post
      (fun _ w' => Inv F L w' ∧ Ends w w' ∧ w'.failed = w.failed ∧ w'.closed = w.closed ∧
        w'.engine = w.engine)
      fun _ => False := by
  rw [w.restore_eq h.old hframe]
  exact ⟨h.restore hframe, ⟨rfl, rfl, rfl⟩, rfl, rfl, rfl⟩

/-- What is left where a call that ends a frame throws: the frame is on, or over. -/
structure Thrown (F : VideoArithmetic α) (L : RenderSizeLimits α) (w w' : World α) : Prop where
  inv : Inv F L w'.fail
  closed : w'.closed = w.closed
  frame : Calm w w' ∨ Ends w w'

/-- A step of the engine that throws before the frame is over. -/
theorem Inv.thrown {w₁ : World α} (h : Inv F L w₁) (hcalm : Calm w w₁) {g : Engine} (hg : g.Inv)
    (hkeeps : w₁.engine.Keeps g) : Thrown F L w { w₁ with engine := g } where
  inv := by
    refine h.fail.calm ?_ hg (fun hframe => hkeeps.isSome.trans (h.core hframe)) fun _ => rfl
    exact ⟨rfl, rfl, rfl, rfl, rfl, rfl, rfl, rfl⟩
  closed := hcalm.closed
  frame := Or.inl (hcalm.trans (calm_engine w₁ g))

/-- A step of the engine that throws after the frame is over. -/
theorem Inv.thrown_after {w₁ : World α} (h : Inv F L w₁) (hends : Ends w w₁)
    (hclosed : w₁.closed = w.closed) {g : Engine} (hg : g.Inv) (hkeeps : w₁.engine.Keeps g) :
    Thrown F L w { w₁ with engine := g } where
  inv := (h.thrown (.refl w₁) hg hkeeps).inv
  closed := hclosed
  frame := Or.inr (hends.calm (calm_engine w₁ g))

theorem presentFrame_post {w₁ : World α} (h : Inv F L w₁) (hcalm : Calm w w₁)
    (hframe : w.inFrame = true) : (presentFrame F env w₁).Post
      (fun _ w' => Inv F L w' ∧ Ends w w' ∧ w'.closed = w.closed) (Thrown F L w) := by
  rw [presentFrame]
  refine (World.onEngine_post (Engine.present_post F h.engine _)).imp (fun _ _ hpost => hpost) ?_
    |>.andThen fun frame w₂ hpresented => ?_
  · rintro _ ⟨g, ⟨hg, hkeeps⟩, rfl⟩
    exact h.thrown hcalm hg hkeeps
  obtain ⟨g, ⟨hg, hkeeps, hfailed⟩, rfl⟩ := hpresented
  have hcalm' : Calm w₁ { w₁ with engine := g, presented := some frame } :=
    ⟨rfl, rfl, rfl, rfl, rfl, rfl, rfl, rfl⟩
  have h₂ : Inv F L { w₁ with engine := g, presented := some frame } := by
    refine h.calm hcalm' hg (fun hon => hkeeps.isSome.trans (h.core hon)) fun hbroken => ?_
    exact absurd (hfailed.symm.trans hbroken) nofun
  refine (restore_post h₂ (hcalm.inFrame.trans hframe)).imp ?_ fun _ hfalse => hfalse.elim
  rintro _ w₃ ⟨h₃, hends, _, hclosed, _⟩
  exact ⟨h₃, (hcalm.trans hcalm').ends hends, hclosed.trans hcalm.closed⟩

theorem endWith_post (h : Inv F L w) (hframe : w.inFrame = true) : (endWith F env w).Post
      (fun _ w' => Inv F L w' ∧ Ends w w' ∧ w'.closed = w.closed) (Thrown F L w) := by
  rw [endWith]
  refine (World.onEngine_post (Engine.drain_post h.engine)).imp (fun _ _ hpost => hpost) ?_
    |>.andThen fun _ w₁ hdrained => ?_
  · rintro _ ⟨g, ⟨hg, hkeeps, _⟩, rfl⟩
    exact h.thrown (.refl w) hg hkeeps
  obtain ⟨g₁, ⟨hg₁, hkeeps₁, hsame₁⟩, rfl⟩ := hdrained
  have h₁ := h.onEngine hg₁ hkeeps₁ (by rw [hsame₁])
  have hcalm₁ := calm_engine w g₁
  refine (World.onEngine_post (Engine.finishCore_post h₁.engine)).imp (fun _ _ hpost => hpost) ?_
    |>.andThen fun _ w₂ hfinished => ?_
  · rintro _ ⟨g, ⟨hg, hkeeps, _⟩, rfl⟩
    exact h₁.thrown hcalm₁ hg hkeeps
  obtain ⟨g₂, ⟨hg₂, hkeeps₂, _, _, hsame₂⟩, rfl⟩ := hfinished
  have h₂ := h₁.onEngine hg₂ hkeeps₂ (by rw [hsame₂])
  refine (presentFrame_post h₂ (calm_engine w g₂) hframe).andThen fun _ w₃ hpresented => ?_
  obtain ⟨h₃, hends, hclosed⟩ := hpresented
  refine (World.onEngine_post (Engine.capture_post h₃.engine)).imp (fun _ _ hpost => hpost) ?_
    |>.andThen fun _ w₄ hcaptured => ?_
  · rintro _ ⟨g, ⟨hg, hkeeps⟩, rfl⟩
    exact h₃.thrown_after hends hclosed hg hkeeps
  obtain ⟨g₄, ⟨hg₄, hkeeps₄, hsame₄⟩, rfl⟩ := hcaptured
  have h₄ := h₃.onEngine hg₄ hkeeps₄ hsame₄
  have hends₄ := hends.calm (calm_engine w₃ g₄)
  refine (World.onEngine_post (Engine.report_post h₄.engine)).imp ?_ ?_
  · rintro _ _ ⟨g, ⟨hg, hkeeps, hsame⟩, rfl⟩
    exact ⟨h₄.onEngine hg hkeeps (by rw [hsame]), hends₄.calm ⟨rfl, rfl, rfl, rfl, rfl, rfl, rfl, rfl⟩,
      hclosed⟩
  · rintro _ ⟨g, ⟨hg, hkeeps⟩, rfl⟩
    exact h₄.thrown_after hends₄ hclosed hg hkeeps

theorem endFrame_post (h : Inv F L w) (hno : ¬ w.NoEnd) : (endFrame F env w).Post
      (fun _ w' => Inv F L w' ∧ Ends w w' ∧ w'.closed = w.closed)
      fun w' => Inv F L w' ∧ Ends w w' ∧ w'.failed = true ∧ w'.closed = w.closed := by
  rw [endFrame, if_neg hno]
  have hframe : w.inFrame = true := Bool.not_eq_false _ ▸ (not_or.mp (not_or.mp hno).2).2
  refine (endWith_post h hframe).handle fun failure w₁ hthrown => ?_
  obtain ⟨hinv, hclosed, hcalm | hends⟩ := hthrown
  · -- the frame is still on
    refine (restore_post hinv (hcalm.inFrame.trans hframe)).imp (fun _ _ hpost => hpost)
      (fun _ hfalse => hfalse.elim) |>.andThen fun _ w₂ hrestored => ?_
    obtain ⟨h₂, hends, hfailed, hclosed', _⟩ := hrestored
    exact ⟨h₂, ⟨hends.inFrame, hends.active.trans hcalm.old, by
      rw [hends.log]
      show .restored w₁.old :: w₁.log = _
      rw [hcalm.old, hcalm.log]⟩, hfailed, hclosed'.trans hclosed⟩
  · -- it was over before the failure
    have hoff : w₁.fail.inFrame = false := hends.inFrame
    rw [World.restore_of_not_inFrame _ hoff]
    exact ⟨hinv, ⟨hends.inFrame, hends.active, hends.log⟩, rfl, hclosed⟩

/-! ### Close -/

/-- Nothing that a renderer began is still worked on. -/
structure Resolved (w : World α) : Prop where
  failed : w.failed = false
  blits : AgcBlit.pending w.engine.blit.log = []
  core : w.engine.core = none
  draws : ∀ core ∈ w.engine.released, AgcGxDraw.pending core.draws.log = []
  display : w.engine.presenter.presenter.handle < 0
  presentation : w.engine.presenter.presenter.failed = false

/-- What a call of `close` does that returns, of a renderer that was not closed. -/
structure Closes (w : World α) (rc : ℤ) (w' : World α) : Prop where
  ended : w.inFrame = true → Ends w w'
  quiet : w.inFrame = false → w'.inFrame = false ∧ w'.active = w.active ∧ w'.log = w.log
  latched : w.failed = true → w'.failed = true
  done : rc = 0 → w'.closed = true ∧ Resolved w'
  kept : rc ≠ 0 → rc < 0 ∧ w'.closed = false ∧ w.engine.Keeps w'.engine

/-- Only the FIFO of the guest makes `close` throw; the frame is on then. -/
structure Unclosed (w w' : World α) : Prop where
  inFrame : w.inFrame = true
  calm : Calm w w'
  engine : w'.engine = w.engine.tick

theorem closeFrame_post (h : Inv F L w) : (closeFrame env w).Post
      (fun _ w' => Inv F L w' ∧ (w.inFrame = true → Ends w w') ∧
        (w.inFrame = false → Calm w w') ∧ w'.failed = w.failed ∧ w'.closed = w.closed ∧
        w'.inFrame = false ∧ w.engine.Keeps w'.engine)
      fun w' => Inv F L w' ∧ Unclosed w w' := by
  rw [closeFrame]
  split
  · next hframe =>
    dsimp only
    have hkeeps : w.engine.Keeps w.engine.tick := ⟨rfl, rfl, Engine.shows_of_eq rfl⟩
    have hticked := h.onEngine h.engine.tick hkeeps rfl
    have hcalm := calm_engine w w.engine.tick
    split
    · refine (restore_post hticked hframe).imp ?_ fun _ hfalse => hfalse.elim
      rintro _ w' ⟨h', hends, hfailed, hclosed, hengine⟩
      refine ⟨h', fun _ => hcalm.ends hends, ?_, hfailed, hclosed, hends.inFrame, ?_⟩
      · exact fun hoff => absurd (hframe.symm.trans hoff) nofun
      · exact hengine ▸ hkeeps
    · exact ⟨hticked, hframe, hcalm, rfl⟩
  · next hframe =>
    have hoff := Bool.not_eq_true _ ▸ hframe
    exact ⟨h, fun hon => absurd hon hframe, fun _ => .refl w, rfl, rfl, hoff, .refl _⟩

/-- What the part of `close` does that closes the presenter and the engine. -/
structure Settles (w : World α) (rc : ℤ) (w' : World α) : Prop where
  inFrame : w'.inFrame = w.inFrame
  active : w'.active = w.active
  log : w'.log = w.log
  latched : w.failed = true → w'.failed = true
  done : rc = 0 → w'.closed = true ∧ Resolved w'
  kept : rc ≠ 0 → rc < 0 ∧ w'.closed = false ∧ w.engine.Keeps w'.engine

/-- It reports a failure, and keeps everything. -/
theorem settles_minusOne (hclosed : w.closed = false) (hcalm : Calm w w')
    (hkeeps : w.engine.Keeps w'.engine) {rc : ℤ} (hrc : rc < 0) : Settles w rc w' where
  inFrame := hcalm.inFrame
  active := hcalm.active
  log := hcalm.log
  latched hfailed := hcalm.failed.trans hfailed
  done hzero := absurd hzero hrc.ne
  kept _ := ⟨hrc, hcalm.closed.trans hclosed, hkeeps⟩

/-- It reports a failure that is latched. -/
theorem settles_fail (hclosed : w.closed = false) (hcalm : Calm w w')
    (hkeeps : w.engine.Keeps w'.engine) : Settles w (-1) w'.fail where
  inFrame := hcalm.inFrame
  active := hcalm.active
  log := hcalm.log
  latched _ := rfl
  done := nofun
  kept _ := ⟨by decide, hcalm.closed.trans hclosed, hkeeps⟩

theorem settleBlits_post (h : Inv F L w) : (settleBlits env w).Post
      (fun _ w' => Inv F L w' ∧ Calm w w' ∧ w.engine.Keeps w'.engine ∧
        w'.engine.presenter = w.engine.presenter)
      fun w' => Inv F L w' ∧ Calm w w' ∧ w.engine.Keeps w'.engine := by
  rw [settleBlits]
  split
  · exact ⟨h, .refl w, .refl _, rfl⟩
  · refine (World.onEngine_post (Engine.finishBlits_post h.engine)).imp ?_ ?_
    · rintro _ _ ⟨g, ⟨hg, hkeeps, hsame⟩, rfl⟩
      exact ⟨h.onEngine hg hkeeps (by rw [hsame]), calm_engine w g, hkeeps, hsame⟩
    · rintro _ ⟨g, ⟨hg, hkeeps, hsame⟩, rfl⟩
      exact ⟨h.onEngine hg hkeeps (by rw [hsame]), calm_engine w g, hkeeps⟩

/-- The core is given up, once nothing is worked on any more. -/
theorem shut_post {w₀ : World α} (h : Inv F L w) (hcalm : Calm w₀ w) (hidle : w.engine.Idle)
    (hfailed : w.failed = false) (hblits : AgcBlit.pending w.engine.blit.log = [])
    (hhandle : w.engine.presenter.presenter.handle < 0) (hoff : w.inFrame = false) :
    w.shut.Post (fun rc w' => Inv F L w' ∧ Settles w₀ rc w') fun _ => False := by
  have hgiven : (w.engine.setCore none).Inv := h.engine.setCore hidle nofun
  have hinv : Inv F L { w with engine := w.engine.setCore none } :=
    h.calm (calm_engine w _) hgiven (fun hon => absurd (hoff.symm.trans hon) nofun) h.presenter
  have hvalid : ¬ ¬ w.previousExtent.valid := not_not.mpr h.extent
  rw [World.shut, World.configureGxRenderExtent, if_neg hvalid]
  refine ⟨⟨hgiven, h.planned, h.active, h.old, h.extent, ?_, h.presenter, h.safe, h.frame, ?_⟩, ?_⟩
  · exact fun hon => absurd (hoff.symm.trans hon) nofun
  · exact fun _ => hoff
  · refine ⟨hcalm.inFrame, hcalm.active, hcalm.log, ?_, ?_, nofun⟩
    · exact fun hbroken => hcalm.failed.trans hbroken
    · intro _
      refine ⟨rfl, hfailed, hblits, rfl, hgiven.released, hhandle, ?_⟩
      refine Bool.not_eq_true _ ▸ fun hbroken => ?_
      exact absurd (hfailed.symm.trans (h.presenter hbroken)) nofun

theorem closeEngine_post (h : Inv F L w) (hclosed : w.closed = false) (hoff : w.inFrame = false)
    (hhandle : w.engine.presenter.presenter.handle < 0) : (closeEngine env w).Post
      (fun rc w' => Inv F L w' ∧ Settles w rc w') fun _ => False := by
  rw [closeEngine]
  have hsettled : (settleBlits env w).Post _ _ := settleBlits_post h
  generalize settleBlits env w = r at hsettled
  obtain ⟨_ | _, w₁⟩ := r
  · obtain ⟨h₁, hcalm₁, hkeeps₁⟩ := hsettled
    exact ⟨h₁.fail, settles_fail hclosed hcalm₁ hkeeps₁⟩
  obtain ⟨h₁, hcalm₁, hkeeps₁, hsame₁⟩ := hsettled
  dsimp only
  split
  · exact ⟨h₁, settles_minusOne hclosed hcalm₁ hkeeps₁ (by decide)⟩
  next hfailed =>
  obtain ⟨hg₂, hkeeps₂, hsame₂, hblits⟩ := Engine.blitPending_spec env h₁.engine
  generalize w₁.engine.blitPending env = pending at hg₂ hkeeps₂ hsame₂ hblits
  obtain ⟨unresolved, g₂⟩ := pending
  dsimp only at hg₂ hkeeps₂ hsame₂ hblits ⊢
  have h₂ := h₁.onEngine hg₂ hkeeps₂ (by rw [hsame₂])
  have hcalm₂ := hcalm₁.trans (calm_engine w₁ g₂)
  have hkeeps := hkeeps₁.trans hkeeps₂
  split
  · exact ⟨h₂, settles_minusOne hclosed hcalm₂ hkeeps (by decide)⟩
  next hresolved =>
  have hcore : (Engine.finishCore env g₂).Post _ _ := Engine.finishCore_post h₂.engine
  have hfinished := World.onEngine_post (w := { w₁ with engine := g₂ }) hcore
  generalize World.onEngine { w₁ with engine := g₂ } (·.finishCore env) = r at hfinished
  obtain ⟨_ | _, w₃⟩ := r
  · obtain ⟨g₃, ⟨hg₃, hkeeps₃, hsame₃⟩, rfl⟩ := hfinished
    have h₃ := h₂.onEngine hg₃ hkeeps₃ (by rw [hsame₃])
    exact ⟨h₃.fail, settles_fail hclosed (hcalm₂.trans (calm_engine _ g₃)) (hkeeps.trans hkeeps₃)⟩
  · obtain ⟨g₃, ⟨hg₃, hkeeps₃, hidle, hblit₃, hsame₃⟩, rfl⟩ := hfinished
    have h₃ := h₂.onEngine hg₃ hkeeps₃ (by rw [hsame₃])
    refine shut_post h₃ (hcalm₂.trans (calm_engine _ g₃)) hidle (Bool.not_eq_true _ ▸ hfailed) ?_ ?_
      (hcalm₁.inFrame.trans hoff)
    · show AgcBlit.pending g₃.blit.log = []
      rw [hblit₃]
      exact hblits (Bool.not_eq_true _ ▸ hresolved)
    · show g₃.presenter.presenter.handle < 0
      rw [hsame₃, hsame₂, hsame₁]
      exact hhandle

theorem close_post (h : Inv F L w) (hclosed : w.closed = false) : (close env w).Post
      (fun rc w' => Inv F L w' ∧ Closes w rc w') fun w' => Inv F L w' ∧ Unclosed w w' := by
  rw [close, hclosed, if_neg Bool.false_ne_true]
  refine (closeFrame_post h).andThen fun _ w₁ hframed => ?_
  obtain ⟨h₁, hends, hcalm, hfailed₁, hclosed₁, hoff, hkeeps₁⟩ := hframed
  obtain ⟨hg₂, hkeeps₂, hpresenter, hdisplay⟩ := Engine.closePresenter_spec env h₁.engine
  generalize w₁.engine.closePresenter env = closed at hg₂ hkeeps₂ hpresenter hdisplay
  obtain ⟨rc, g₂⟩ := closed
  dsimp only at hg₂ hkeeps₂ hpresenter hdisplay ⊢
  have h₂ := h₁.onEngine hg₂ hkeeps₂ hpresenter
  have hclosed₂ := hclosed₁.trans hclosed
  -- what the frame had to do is done: the rest leaves the receivers alone
  have hwhole {rc : ℤ} {w' : World α} (hsettles : Settles { w₁ with engine := g₂ } rc w') :
      Closes w rc w' := by
    refine ⟨?_, ?_, ?_, hsettles.done, ?_⟩
    · intro hon
      have hended := hends hon
      exact ⟨hsettles.inFrame.trans hoff, hsettles.active.trans hended.active,
        hsettles.log.trans hended.log⟩
    · intro hquiet
      have hsame := hcalm hquiet
      exact ⟨hsettles.inFrame.trans hoff, hsettles.active.trans hsame.active,
        hsettles.log.trans hsame.log⟩
    · exact fun hbroken => hsettles.latched (hfailed₁.trans hbroken)
    · intro hrc
      obtain ⟨hneg, hopen, hkept⟩ := hsettles.kept hrc
      exact ⟨hneg, hopen, (hkeeps₁.trans hkeeps₂).trans hkept⟩
  split
  · next hneg =>
    have hkept : Settles { w₁ with engine := g₂ } rc { w₁ with engine := g₂ } := by
      refine settles_minusOne ?_ (.refl _) (.refl _) hneg
      exact hclosed₂
    exact ⟨h₂, hwhole hkept⟩
  · next hneg =>
    refine (closeEngine_post h₂ hclosed₂ hoff (hdisplay.resolve_left hneg)).imp ?_
      fun _ hfalse => hfalse.elim
    exact fun _ _ hpost => ⟨hpost.1, hwhole hpost.2⟩

theorem close_of_closed (env : Environment) (hclosed : w.closed = true) :
    close env w = (.ok 0, w) := by
  rw [close, if_pos hclosed]

/-! ### Calls and runs -/

/-- A failure and a close are final. -/
structure Later (w w' : World α) : Prop where
  failed : w.failed = true → w'.failed = true
  closed : w.closed = true → w'.closed = true

theorem Later.refl (w : World α) : Later w w := ⟨id, id⟩

theorem Later.trans {w₁ w₂ w₃ : World α} (h : Later w₁ w₂) (h' : Later w₂ w₃) : Later w₁ w₃ :=
  ⟨fun hfailed => h'.failed (h.failed hfailed), fun hclosed => h'.closed (h.closed hclosed)⟩

theorem Calm.later (h : Calm w w') : Later w w' :=
  ⟨fun hfailed => h.failed.trans hfailed, fun hclosed => h.closed.trans hclosed⟩

theorem beginFrame_spec (env : Environment) (h : Inv F L w) :
    Inv F L (beginFrame F L env w).2 ∧ Later w (beginFrame F L env w).2 := by
  by_cases hno : w.NoBegin
  · rw [beginFrame, if_pos hno]
    exact ⟨h, .refl w⟩
  · obtain ⟨hopen, hrest⟩ := not_or.mp hno
    have hlater {w' : World α} : Later w w' :=
      ⟨fun hfailed => absurd hfailed (not_or.mp hrest).1, fun hclosed => absurd hclosed hopen⟩
    have hpost : (beginFrame F L env w).Post (fun _ w' => Inv F L w' ∧ Later w w')
        fun w' => Inv F L w' ∧ Later w w' :=
      (beginFrame_post h hno).imp (fun _ _ hpost => ⟨hpost.1, hlater⟩) fun _ hpost => ⟨hpost.1, hlater⟩
    exact hpost.left fun _ _ hdone => hdone

theorem endFrame_spec (env : Environment) (h : Inv F L w) :
    Inv F L (endFrame F env w).2 ∧ Later w (endFrame F env w).2 := by
  by_cases hno : w.NoEnd
  · rw [endFrame, if_pos hno]
    exact ⟨h, .refl w⟩
  · obtain ⟨hopen, hrest⟩ := not_or.mp hno
    have hlater {w' : World α} : Later w w' :=
      ⟨fun hfailed => absurd hfailed (not_or.mp hrest).1, fun hclosed => absurd hclosed hopen⟩
    have hpost : (endFrame F env w).Post (fun _ w' => Inv F L w' ∧ Later w w')
        fun w' => Inv F L w' ∧ Later w w' :=
      (endFrame_post h hno).imp (fun _ _ hpost => ⟨hpost.1, hlater⟩) fun _ hpost => ⟨hpost.1, hlater⟩
    exact hpost.left fun _ _ hdone => hdone

theorem close_spec (env : Environment) (h : Inv F L w) :
    (close env w).Post (fun _ w' => Inv F L w' ∧ Later w w') fun w' => Inv F L w' ∧ Later w w' := by
  cases hclosed : w.closed with
  | true =>
    rw [close_of_closed env hclosed]
    exact ⟨h, .refl w⟩
  | false =>
    have hnever {P : Prop} (hyes : w.closed = true) : P := absurd (hclosed.symm.trans hyes) nofun
    refine (close_post h hclosed).imp ?_ ?_
    · exact fun _ _ hpost => ⟨hpost.1, hpost.2.latched, hnever⟩
    · exact fun _ hpost => ⟨hpost.1, hpost.2.calm.later⟩

theorem destroy_spec (env : Environment) (h : Inv F L w) :
    Inv F L (destroy env w) ∧ Later w (destroy env w) := by
  rw [destroy]
  have hclose : (close env w).Post _ _ := close_spec env h
  generalize close env w = r at hclose
  obtain ⟨_ | rc, w₁⟩ := r
  · obtain ⟨h₁, hfailed, hclosed⟩ := hclose
    exact ⟨h₁.calm ⟨rfl, rfl, rfl, rfl, rfl, rfl, rfl, rfl⟩ h₁.engine h₁.core h₁.presenter, hfailed,
      hclosed⟩
  · obtain ⟨h₁, hfailed, hclosed⟩ := hclose
    dsimp only
    split
    · exact ⟨h₁.calm ⟨rfl, rfl, rfl, rfl, rfl, rfl, rfl, rfl⟩ h₁.engine h₁.core h₁.presenter,
        hfailed, hclosed⟩
    · have hblit : AgcBlit.Inv (AgcBlit.destroy env.blit w₁.engine.blit) := h₁.engine.blit.destroy
      exact ⟨h₁.calm ⟨rfl, rfl, rfl, rfl, rfl, rfl, rfl, rfl⟩ (h₁.engine.setBlit hblit) h₁.core
        h₁.presenter, hfailed, hclosed⟩

theorem waitIdle_spec (env : Environment) (h : Inv F L w) :
    Inv F L (waitIdle env w).2 ∧ Later w (waitIdle env w).2 := by
  rw [waitIdle]
  split
  · exact ⟨h, .refl w⟩
  · refine Attempt.Post.left (Q := fun _ w' => Inv F L w' ∧ Later w w') ?_ fun _ _ hpost => hpost
    refine (run_post h (Engine.finishBlits_post h.engine)).imp (fun _ _ hpost => hpost)
      (fun _ hpost => ⟨hpost.1, hpost.2.1.later⟩) |>.andThen fun _ w₁ hsettled => ?_
    obtain ⟨h₁, hcalm₁, _⟩ := hsettled
    refine (run_post h₁ ((Engine.finishCore_post h₁.engine).imp ?_ fun _ hpost => hpost)).imp ?_ ?_
    · exact fun _ _ hpost => ⟨hpost.1, hpost.2.1, hpost.2.2.2.2⟩
    · exact fun _ _ hpost => ⟨hpost.1, hcalm₁.later.trans hpost.2.1.later⟩
    · exact fun _ hpost => ⟨hpost.1, hcalm₁.later.trans hpost.2.1.later⟩

/-- Other settings that have a plan. -/
theorem Inv.setVideo (h : Inv F L w) {video : GxVideoSettings α} (hplanned : video.Planned F L)
    (view : Gx.ViewState) : Inv F L { w with video := video, view := view } :=
  ⟨h.engine, hplanned, h.active, h.old, h.extent, h.core, h.presenter, h.safe, h.frame, h.closed⟩

theorem Inv.setActive (h : Inv F L w) {active : Receivers} (hactive : active.draw.Complete) :
    Inv F L { w with active := active } :=
  ⟨h.engine, h.planned, hactive, h.old, h.extent, h.core, h.presenter, h.safe, h.frame, h.closed⟩

theorem setViewportPolicy_spec (env : Environment) (h : Inv F L w) (policy : ℕ) :
    Inv F L (setViewportPolicy env w policy).2 ∧ Later w (setViewportPolicy env w policy).2 := by
  rw [setViewportPolicy]
  split
  · exact ⟨h, .refl w⟩
  next hpolicy =>
  refine Attempt.Post.left (Q := fun _ w' => Inv F L w' ∧ Later w w') ?_ fun _ _ hpost => hpost
  refine (run_post h ?_).imp (fun _ _ hpost => hpost) (fun _ hpost => ⟨hpost.1, hpost.2.1.later⟩)
    |>.andThen fun _ w₁ hdrained => ?_
  · exact Engine.drain_post h.engine
  · obtain ⟨h₁, hcalm₁, _⟩ := hdrained
    have hplanned := GxVideo.planned_auroraSetViewportPolicy h₁.planned (not_lt.mp hpolicy)
    exact ⟨h₁.setVideo hplanned _, hcalm₁.failed.trans, hcalm₁.closed.trans⟩

theorem step_spec (env : Environment) (h : Inv F L w) (call : Call α) :
    Inv F L (step F L env w call) ∧ Later w (step F L env w call) := by
  unfold step
  split
  · cases call with
    | beginFrame => exact beginFrame_spec env h
    | endFrame => exact endFrame_spec env h
    | close => exact (close_spec env h).left fun _ _ hpost => hpost
    | destroy => exact destroy_spec env h
    | waitIdle => exact waitIdle_spec env h
    | setDisableCopyFilter value =>
      have hkeeps : w.engine.Keeps { w.engine with
          core := w.engine.core.map fun core => { core with disableFilter := value } } :=
        ⟨targets_map w.engine.core fun _ => rfl, rfl, Engine.shows_of_eq rfl⟩
      refine ⟨h.calm ⟨rfl, rfl, rfl, rfl, rfl, rfl, rfl, rfl⟩ ?_ ?_ h.presenter, id, id⟩
      · refine ⟨h.engine.blit, ?_, h.engine.released, h.engine.scanOut⟩
        intro core hcore
        obtain ⟨core₀, hcore₀, rfl⟩ := Option.map_eq_some_iff.mp hcore
        exact h.engine.draws core₀ hcore₀
      · exact fun hon => hkeeps.isSome.trans (h.core hon)
    | guest work =>
      have hkeeps := Engine.serve_keeps env w.engine work
      exact ⟨h.onEngine (Engine.serve_inv env h.engine work) hkeeps rfl, id, id⟩
    | exchangeDraw sink =>
      dsimp only [World.exchangeGxDrawSink]
      split
      · exact ⟨h, .refl w⟩
      · next hcomplete => exact ⟨h.setActive (not_not.mp hcomplete), id, id⟩
    | exchangeTexture backend => exact ⟨h.setActive h.active, id, id⟩
    | exchangeDisplay backend => exact ⟨h.setActive h.active, id, id⟩
    | viConfigure mode => exact ⟨h.setVideo (GxVideo.planned_store h.planned _) w.view, id, id⟩
    | viSetFrameBufferScale scale =>
      exact ⟨h.setVideo (GxVideo.planned_viSetFrameBufferScale h.planned scale) w.view, id, id⟩
    | viLockAspectRatio width height =>
      exact ⟨h.setVideo (GxVideo.planned_viLockAspectRatio h.planned width height) w.view, id, id⟩
    | setViewportPolicy policy => exact setViewportPolicy_spec env h policy
  · exact ⟨h, .refl w⟩

theorem run_spec (env : Environment) (h : Inv F L w) (calls : List (Call α)) :
    Inv F L (run F L env w calls) ∧ Later w (run F L env w calls) := by
  induction calls generalizing w with
  | nil => exact ⟨h, .refl w⟩
  | cons call calls ih =>
    obtain ⟨hstep, hlater⟩ := step_spec env h call
    obtain ⟨hrun, hlater'⟩ := ih hstep
    exact ⟨hrun, hlater.trans hlater'⟩

theorem inv_start (b : Bootstrap F L) : Inv F L (.start b) where
  engine := by
    have hfresh := VideoPresenter.fresh_of_initializeImpl b.presenter_made
    exact ⟨AgcBlit.inv_start _, nofun, nofun, Or.inr hfresh.buffers⟩
  planned := b.planned
  active := b.complete
  old := rfl
  extent := b.extent_valid
  core := nofun
  presenter hfailed := by
    have hfresh := VideoPresenter.fresh_of_initializeImpl b.presenter_made
    exact absurd (hfresh.failed.symm.trans hfailed) nofun
  safe := History.ok_nil
  frame := rfl
  closed := nofun

/-- What holds of a renderer, whatever it was asked before and whatever it is asked next. -/
structure Lifecycle (F : VideoArithmetic α) (L : RenderSizeLimits α) (env : Environment)
    (w : World α) : Prop where
  /-- Receivers that are put aside come back, and come back once. -/
  history : ∀ after e before, w.log = after ++ e :: before → e.Safe before
  frame : openFrame w.log = if w.inFrame then some w.old else none
  beginRefused : w.NoBegin → beginFrame F L env w = (.error beginRefused, w)
  endRefused : w.NoEnd → endFrame F env w = (.error endRefused, w)
  begins : ¬ w.NoBegin → (beginFrame F L env w).Post (fun _ w' => Begins w w') (Falters w)
  ends : ¬ w.NoEnd → (endFrame F env w).Post (fun _ w' => Ends w w')
    fun w' => Ends w w' ∧ w'.failed = true
  closes : w.closed = false → (close env w).Post (Closes w) (Unclosed w)
  /-- The owners of a blit or a draw that is still worked on are kept. -/
  blits : ∀ s ∈ AgcBlit.pending w.engine.blit.log, AgcBlit.Holds w.engine.blit s
  draws : ∀ core, w.engine.core = some core →
    ∀ s ∈ AgcGxDraw.pending core.draws.log, AgcGxDraw.Holds core.draws s
  released : ∀ core ∈ w.engine.released, AgcGxDraw.pending core.draws.log = []
  /-- The display has both scan-out buffers for as long as it is open. -/
  scanOut : w.engine.ScansOut

theorem Inv.lifecycle (h : Inv F L w) (env : Environment) : Lifecycle F L env w where
  history := History.ok_iff.mp h.safe
  frame := h.frame
  beginRefused hno := by rw [beginFrame, if_pos hno]
  endRefused hno := by rw [endFrame, if_pos hno]
  begins hno := (beginFrame_post h hno).imp (fun _ _ hpost => hpost.2.1) fun _ hpost => hpost.2.1
  ends hno := (endFrame_post h hno).imp (fun _ _ hpost => hpost.2.1)
    fun _ hpost => ⟨hpost.2.1, hpost.2.2.1⟩
  closes hclosed := (close_post h hclosed).imp (fun _ _ hpost => hpost.2) fun _ hpost => hpost.2
  blits := h.engine.blit.held
  draws core hcore := (h.engine.draws core hcore).held
  released := h.engine.released
  scanOut := h.engine.scanOut

/-- Whatever throws in begin, end and close: the receivers from before a frame come back once, a
call that is refused changes nothing, after a failed frame every begin and end is refused, a closed
renderer stays closed, and a close succeeds only when nothing is worked on any more. One that does
not keeps the core with its draws and targets, and the scan-out buffers as long as VideoOut is
open. -/
theorem frame_lifecycle (b : Bootstrap F L) (env : Environment) (calls later : List (Call α)) :
    Lifecycle F L env (run F L env (.start b) calls) ∧
    ((run F L env (.start b) calls).failed = true →
      beginFrame F L env (run F L env (.start b) (calls ++ later)) =
          (.error beginRefused, run F L env (.start b) (calls ++ later)) ∧
        endFrame F env (run F L env (.start b) (calls ++ later)) =
          (.error endRefused, run F L env (.start b) (calls ++ later))) ∧
    ((run F L env (.start b) calls).closed = true →
      close env (run F L env (.start b) (calls ++ later)) =
        (.ok 0, run F L env (.start b) (calls ++ later))) := by
  have hsplit : run F L env (.start b) (calls ++ later) =
      run F L env (run F L env (.start b) calls) later := List.foldl_append
  obtain ⟨hinv, _⟩ := run_spec env (inv_start b) calls
  obtain ⟨hinv', hlater⟩ := run_spec env hinv later
  rw [← hsplit] at hinv' hlater
  have hcycle := hinv'.lifecycle env
  refine ⟨hinv.lifecycle env, fun hfailed => ⟨?_, ?_⟩, fun hclosed => ?_⟩
  · exact hcycle.beginRefused (Or.inr (Or.inl (hlater.failed hfailed)))
  · exact hcycle.endRefused (Or.inr (Or.inl (hlater.failed hfailed)))
  · exact close_of_closed env (hlater.closed hclosed)

/-! ### A renderer -/

/-- Rational numbers in the place of floating-point ones. -/
def rationals : VideoArithmetic ℚ where
  one := 1
  usable a := 0 < a
  heightFor w a := (w / a + 1 / 2).floor
  widthFor h a := (h * a + 1 / 2).floor
  ofInt n := n
  finite _ := true
  lt a b := a < b
  mul a b := a * b
  div a b := a / b
  max a b := if a < b then b else a
  min a b := if b < a then b else a
  lround a := (a + 1 / 2).floor.toNat
  activeW pal := if pal then 702 else 711
  activeH pal := if pal then 576 else 486
  zero_ok := by decide

def wholeSizes : RenderSizeLimits ℚ where
  scaleFramebufferToAspect width height _ _ := (width, height)
  fitFramebufferToBudget width height _ := (width, height)

/-- A system that does what it is asked, with a guest that draws nothing. -/
def willing : Environment where
  blit := {
    lands := fun _ => List.range 16
    waits := fun _ => true
    allocates := fun _ => none
    fills := fun _ => true
    fillData := fun _ => 65536
    encodes := fun _ => true
    submits := fun _ => 0 }
  draw _ := {
    advances := fun _ => 1
    waits := fun _ => true
    maps := fun _ => .ok 65536
    contents := fun _ _ => 0
    words := fun _ => []
    submits := fun _ => 0 }
  shaders := {
    linkage := List.Vector.replicate 34 ⟨0, 0⟩
    uc := List.Vector.replicate 8 ⟨0, 0⟩
    cx := []
    sh := []
    colorBase := List.Vector.replicate 16 0
    depthBase := List.Vector.replicate 16 0
    blendBase := 0
    cullBase := 0
    sh_le := by decide
    cx_le := by decide }
  present := {
    status := fun _ => some ⟨0, 0, 0, 0, 0, 0⟩
    waits := fun _ => true
    blits := fun _ => true
    image := fun _ _ _ => 0
    submitFlip := fun _ => 0
    close := fun _ => 0 }
  presentBlits _ := []
  targets _ := some (131072, 262144)
  clearColor _ := some 0
  fifo _ := ⟨[], [], none, false⟩
  clearBuffer _ := true
  deadline _ := 0
  screenshot _ := false
  captures _ := true
  reports _ := true

/-- The presenter of a television, as it is set up. -/
def television : VideoPresenter.Impl where
  width := 1920
  height := 1080
  handle := 1
  current := -1
  buffers slot := some (if slot = 0 then 2097152 else 4194304)
  previousRect _ := ⟨0, 0, 0, 0⟩
  serial := 0
  count := 0
  failed := false
  outstanding := false
  outstandingSlot := -1
  outstandingBefore := 0
  outstandingRect := ⟨0, 0, 0, 0⟩

def bootstrap : Bootstrap rationals wholeSizes where
  video := .default rationals
  planned := GxVideo.planned_default
  active := ⟨⟨7, true, true⟩, some 8, none⟩
  complete := rfl
  view := .reset ⟨640, 480, 640, 480⟩ false
  extent_valid := rfl
  width := 1920
  height := 1080
  setup := ⟨fun slot => if slot = 0 then 2097152 else 4194304, 1, 0, 0⟩
  presenter := television
  presenter_made := rfl
  pixels _ _ _ := 0

/-- A system whose display takes no flip. -/
def refusing : Environment :=
  { willing with present := { willing.present with submitFlip := fun _ => -1 } }

/-- After a frame whose flip the display refused. -/
def refused : World ℚ :=
  run rationals wholeSizes refusing (.start bootstrap) [.beginFrame, .endFrame]

/-- The presentation of the frame is unresolved and `close` says so, but VideoOut could be closed:
both scan-out buffers are given up. -/
theorem scan_out_given_up :
    refused.engine.presenter.presenter.failed = true ∧
    refused.engine.presenter.presenter.buffers 0 = some 2097152 ∧
    refused.engine.presenter.presenter.buffers 1 = some 4194304 ∧
    (close refusing refused).1 = .ok (-1) ∧
    (close refusing refused).2.engine.presenter.presenter.buffers 0 = none ∧
    (close refusing refused).2.engine.presenter.presenter.buffers 1 = none := by
  decide +kernel

theorem frame_lifecycle_bootstrap :
    Lifecycle rationals wholeSizes willing
      (run rationals wholeSizes willing (.start bootstrap) [.beginFrame, .endFrame, .close]) :=
  (frame_lifecycle bootstrap willing [.beginFrame, .endFrame, .close] []).1

end Gpu.GxFrameRenderer
