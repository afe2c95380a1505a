import MkwiiPs5.Gpu.AgcBlitRuns

/-!
# The references of the blitter

What a call adds to the history of a blitter and to the shared pointers of its arenas: at most one
blit, with its own images.
-/

namespace Gpu.AgcBlit

def Arena.owners (a : Arena) : List (Option Owner) :=
  [a.source, a.target, a.depthTarget, a.depthSource]

/-- The shared pointers that the arenas have to what an owner names. -/
def World.references (w : World) (o : Owner) : ℕ :=
  ((List.range InFlight).flatMap fun a => (w.arenas a).owners).count (some o)

def Submission.owners (s : Submission) : List (Option Owner) :=
  [s.source, s.target, s.depthTarget, s.depthSource]

/-- An arena without a blit references nothing. -/
def Tidy (w : World) : Prop := ∀ a o, (w.arenas a).submitted = false → some o ∉ (w.arenas a).owners

variable {env : Environment} {w w' w₁ : World} {blit : Blit}

theorem references_eq_zero {o : Owner} :
    w.references o = 0 ↔ ∀ a < InFlight, some o ∉ (w.arenas a).owners := by
  rw [World.references, List.count_eq_zero, List.mem_flatMap]
  constructor
  · intro h a ha ho
    exact h ⟨a, List.mem_range.mpr ha, ho⟩
  · rintro h ⟨a, ha, ho⟩
    exact h a (List.mem_range.mp ha) ho

/-- Nothing that the arenas do not reference is used by a blit that is not complete. -/
theorem Inv.unused (h : Inv w) {o : Owner} (hzero : w.references o = 0) :
    ∀ s ∈ pending w.log, some o ∉ s.owners := by
  intro s hs hmem
  have hheld := h.held s hs
  refine references_eq_zero.mp hzero s.arena hheld.range ?_
  rwa [Arena.owners, hheld.source, hheld.target, hheld.depthTarget, hheld.depthSource]

/-! ### Calls that submit nothing -/

/-- What a call does that submits nothing: it takes no references. -/
structure Quiet (w w' : World) : Prop where
  log : ∃ new, w'.log = new ++ w.log ∧ ∀ s, Event.submit s ∉ new
  owners : ∀ a o, some o ∈ (w'.arenas a).owners → some o ∈ (w.arenas a).owners
  tidy : Tidy w → Tidy w'

namespace Quiet

theorem refl (w : World) : Quiet w w :=
  ⟨⟨[], rfl, fun _ => List.not_mem_nil⟩, fun _ _ h => h, fun h => h⟩

theorem trans (h : Quiet w w₁) (h' : Quiet w₁ w') : Quiet w w' := by
  obtain ⟨new, hlog, hnew⟩ := h.log
  obtain ⟨new', hlog', hnew'⟩ := h'.log
  refine ⟨⟨new' ++ new, ?_, fun s hs => ?_⟩, fun a o ho => h.owners a o (h'.owners a o ho),
    fun ht => h'.tidy (h.tidy ht)⟩
  · rw [hlog', hlog, List.append_assoc]
  · rcases List.mem_append.mp hs with hs | hs
    · exact hnew' s hs
    · exact hnew s hs

/-- The arenas stay, and an event is noted that is no submission. -/
theorem of_arenas (harenas : w'.arenas = w.arenas) {e : Event} (hlog : w'.log = e :: w.log)
    (he : ∀ s, e ≠ .submit s) : Quiet w w' := by
  refine ⟨⟨[e], hlog, fun s hs => he s (List.mem_singleton.mp hs).symm⟩, fun a o ho => ?_,
    fun ht a o hfree => ?_⟩
  · rwa [harenas] at ho
  · rw [harenas] at hfree ⊢
    exact ht a o hfree

theorem tick (w : World) : Quiet w w.tick :=
  ⟨⟨[], rfl, fun _ => List.not_mem_nil⟩, fun _ _ h => h, fun h => h⟩

theorem fail (w : World) : Quiet w w.fail :=
  ⟨⟨[], rfl, fun _ => List.not_mem_nil⟩, fun _ _ h => h, fun h => h⟩

theorem note (w : World) {e : Event} (he : ∀ s, e ≠ .submit s) : Quiet w (w.note e) :=
  of_arenas rfl rfl he

theorem throw (h : Quiet w w₁) {β : Type} {failure : Failure} {Q : β → World → Prop} :
    (w₁.throw failure : Result β).Post Q (Quiet w) :=
  Attempt.post_error (h.trans (note w₁ fun _ => Event.noConfusion))

theorem land (w : World) (serial : ℕ) : Quiet w (w.land serial) := by
  rw [World.land]
  split
  · exact of_arenas rfl rfl fun _ => Event.noConfusion
  · exact refl w

theorem pass (env : Environment) (w : World) : Quiet w (pass env w) := by
  rw [AgcBlit.pass]
  generalize env.lands w.clock = serials
  refine trans ?_ (tick _)
  induction serials generalizing w with
  | nil => exact refl w
  | cons serial serials ih => exact (land w serial).trans (ih (w.land serial))

/-- An arena gives up references, and an event is noted that is no submission. -/
theorem of_update {a : ℕ} {arena : Arena} (harenas : w'.arenas = Function.update w.arenas a arena)
    {e : Event} (hlog : w'.log = e :: w.log) (he : ∀ s, e ≠ .submit s)
    (hless : ∀ o, some o ∈ arena.owners → some o ∈ (w.arenas a).owners ∧
      (arena.submitted = false → (w.arenas a).submitted = false)) : Quiet w w' := by
  refine ⟨⟨[e], hlog, fun s hs => he s (List.mem_singleton.mp hs).symm⟩, fun b o ho => ?_,
    fun ht b o hfree ho => ?_⟩
  · rw [harenas] at ho
    rcases eq_or_ne b a with rfl | hne
    · rw [Function.update_self] at ho
      exact (hless o ho).1
    · rwa [Function.update_of_ne hne] at ho
  · rw [harenas] at hfree ho
    rcases eq_or_ne b a with rfl | hne
    · rw [Function.update_self] at hfree ho
      exact ht b o ((hless o ho).2 hfree) (hless o ho).1
    · rw [Function.update_of_ne hne] at hfree ho
      exact ht b o hfree ho

theorem release (w : World) (a : ℕ) : Quiet w (w.release a) :=
  of_update rfl rfl (fun _ => Event.noConfusion) fun o ho => by
    simp [Arena.released, Arena.owners] at ho

theorem retireArena (env : Environment) (w : World) (a : ℕ) : Quiet w (retireArena env w a) := by
  rw [AgcBlit.retireArena]
  split
  · dsimp only
    split
    · exact (pass env w).trans (release _ a)
    · exact pass env w
  · exact refl w

theorem retire (env : Environment) (w : World) : Quiet w (retire env w) := by
  rw [AgcBlit.retire]
  generalize List.range InFlight = arenas
  induction arenas generalizing w with
  | nil => exact refl w
  | cons a arenas ih => exact (retireArena env w a).trans (ih _)

theorem waitAttempts (a attempts : ℕ) (h : Quiet w w₁) :
    (waitAttempts env a attempts w₁).Post (fun _ => Quiet w) (Quiet w) := by
  induction attempts generalizing w₁ with
  | zero => exact (h.trans (fail w₁)).throw
  | succ attempts ih =>
    rw [AgcBlit.waitAttempts]
    have hpass := h.trans (pass env w₁)
    split
    · exact Attempt.post_ok (hpass.trans (release _ a))
    · split
      · exact ih (hpass.trans (tick _))
      · exact (hpass.trans (tick _)).throw

theorem wait (a : ℕ) (h : Quiet w w₁) : (wait env w₁ a).Post (fun _ => Quiet w) (Quiet w) :=
  waitAttempts a 5000 h

theorem finishLoop (n : ℕ) (h : Quiet w w₁) :
    (finishLoop env n w₁).Post (fun _ => Quiet w) (Quiet w) := by
  have hdone := h.trans (note w₁ (e := .finished) fun _ => Event.noConfusion)
  induction n generalizing w₁ with
  | zero => exact Attempt.post_ok hdone
  | succ n ih =>
    rw [AgcBlit.finishLoop]
    split
    · exact Attempt.post_ok hdone
    · next a _ =>
      refine (wait a h).andThen fun _ w₂ hw₂ => ?_
      exact ih hw₂ (hw₂.trans (note w₂ fun _ => Event.noConfusion))

theorem finish (env : Environment) (w : World) :
    (finish env w).Post (fun _ => Quiet w) (Quiet w) := by
  rw [AgcBlit.finish]
  split
  · exact (refl w).throw
  · exact finishLoop _ (refl w)

theorem mapArena (w : World) (a : ℕ) :
    Quiet w ({ w.tick.setArena a { w.arenas a with memory := true } with
      label := Function.update w.label a 0 }.note (.rewrite a)) :=
  of_update rfl rfl (fun _ => Event.noConfusion) fun _ ho => ⟨ho, fun hfree => hfree⟩

theorem allocate (a : ℕ) (h : Quiet w w₁) :
    (allocate env w₁ a).Post (fun _ => Quiet w) (Quiet w) := by
  rw [AgcBlit.allocate]
  split
  · exact (h.trans (tick w₁)).throw
  · exact Attempt.post_ok (h.trans (mapArena w₁ a))

theorem claim (env : Environment) (w : World) :
    (claim env w).Post (fun _ => Quiet w) (Quiet w) := by
  unfold AgcBlit.claim
  have hretire := retire env w
  generalize AgcBlit.retire env w = w₁ at hretire
  dsimp only
  cases w₁.freeArena with
  | some a => exact Attempt.post_ok hretire
  | none =>
    cases w₁.unmappedArena with
    | some a => exact allocate a hretire
    | none => exact (wait _ hretire).andThen fun _ w₂ hw₂ => Attempt.post_ok hw₂

theorem pending_subset (h : Quiet w w') : ∀ s ∈ pending w'.log, s ∈ pending w.log := by
  obtain ⟨new, hlog, hnew⟩ := h.log
  rw [hlog]
  clear hlog h
  induction new with
  | nil => exact fun s hs => hs
  | cons e new ih =>
    have hrest := ih fun s hs => hnew s (List.mem_cons_of_mem e hs)
    intro s hs
    cases e with
    | submit t => exact absurd List.mem_cons_self (hnew t)
    | landed serial => exact hrest s (List.mem_filter.mp hs).1
    | rewrite _ | release _ | fill _ _ | finished | destroyed | threw _ => exact hrest s hs

end Quiet

/-! ### Calls that submit a blit -/

/-- The images that a blit takes, and those that it writes. -/
def Blit.owners (blit : Blit) : List (Option Owner) :=
  [blit.source.map (·.owner), blit.target.map fun t => .image t.id,
    blit.depth.map fun t => .image t.id, blit.depthSource.map fun t => .image t.id]

def Blit.written (blit : Blit) : List (Option Owner) :=
  [blit.target.map fun t => .image t.id, blit.depth.map fun t => .image t.id]

def Submission.written (s : Submission) : List (Option Owner) := [s.target, s.depthTarget]

/-- A call submits one blit. -/
def Submits (blit : Blit) (w w' : World) : Prop :=
  ∃ a w₁, Quiet w w₁ ∧ Quiet (w₁.submit a blit) w'

namespace Submits

theorem submit_owners (a : ℕ) : ((w.submit a blit).arenas a).owners = blit.owners := by
  rw [World.submit]
  dsimp only
  rw [Function.update_self]
  rfl

/-- The arenas reference what they did, and what the blit takes. -/
theorem owners (h : Submits blit w w') {a : ℕ} {o : Owner} (ho : some o ∈ (w'.arenas a).owners) :
    some o ∈ blit.owners ∨ some o ∈ (w.arenas a).owners := by
  obtain ⟨b, w₁, hbefore, hafter⟩ := h
  have ho := hafter.owners a o ho
  rcases eq_or_ne a b with rfl | hne
  · exact Or.inl (submit_owners a ▸ ho)
  · refine Or.inr (hbefore.owners a o ?_)
    rw [World.submit] at ho
    dsimp only at ho
    rwa [Function.update_of_ne hne] at ho

theorem tidy (h : Submits blit w w') (ht : Tidy w) : Tidy w' := by
  obtain ⟨b, w₁, hbefore, hafter⟩ := h
  refine hafter.tidy fun a o hfree => ?_
  rw [World.submit] at hfree ⊢
  dsimp only at hfree ⊢
  rcases eq_or_ne a b with rfl | hne
  · rw [Function.update_self] at hfree
    cases hfree
  · rw [Function.update_of_ne hne] at hfree ⊢
    exact hbefore.tidy ht a o hfree

/-- The history gets one submission; the blits that are not complete then are old ones. -/
theorem log (h : Submits blit w w') : ∃ s after past, w'.log = after ++ .submit s :: past ∧
    s.owners = blit.owners ∧ s.written = blit.written ∧ (∀ t, Event.submit t ∉ after) ∧
    (∃ new, past = new ++ w.log ∧ ∀ t, Event.submit t ∉ new) ∧
    ∀ t ∈ pending past, t ∈ pending w.log := by
  obtain ⟨b, w₁, hbefore, hafter⟩ := h
  obtain ⟨after, hlog, hquiet⟩ := hafter.log
  exact ⟨w₁.submission b blit, after, w₁.log, hlog, rfl, rfl, hquiet, hbefore.log,
    hbefore.pending_subset⟩

end Submits

theorem executeIn_submits (a : ℕ) (h : Quiet w w₁) : (executeIn env w₁ a blit).Post
    (fun _ => Submits blit w) fun w' => Quiet w w' ∨ Submits blit w w' := by
  rw [executeIn]
  have hrewrite := h.trans (Quiet.note w₁ (e := .rewrite a) fun _ => Event.noConfusion)
  dsimp only
  split
  · exact Quiet.throw (hrewrite.trans (.tick _)) |>.imp (fun _ _ hq => hq) fun _ hq => Or.inl hq
  split
  · refine Attempt.post_error (Or.inr ⟨a, _, hrewrite, ?_⟩)
    exact ((Quiet.tick _).trans (.fail _)).trans (.note _ fun _ => Event.noConfusion)
  · exact Attempt.post_ok ⟨a, _, hrewrite, (Quiet.tick _).trans (.retire env _)⟩

theorem execute_submits (h : Quiet w w₁) : (execute env w₁ blit).Post (fun _ => Submits blit w)
    fun w' => Quiet w w' ∨ Submits blit w w' := by
  rw [execute]
  cases checkBlit w₁ blit with
  | error failure =>
    exact h.throw.imp (fun _ _ hq => hq) fun _ hq => Or.inl hq
  | ok _ =>
    refine ((Quiet.claim env w₁).imp (fun _ _ hq => hq) fun _ hq => Or.inl (h.trans hq)).andThen ?_
    exact fun a w₂ hclaim => executeIn_submits a (h.trans hclaim)

theorem fillConstant_quiet (env : Environment) (w : World) (bgra : ℕ) :
    (fillConstant env w bgra).Post (fun _ => Quiet w) (Quiet w) := by
  rw [fillConstant]
  dsimp only
  split
  · exact Attempt.post_ok (.note w fun _ => Event.noConfusion)
  split
  · exact Attempt.post_ok (.of_arenas rfl rfl fun _ => Event.noConfusion)
  · exact Quiet.throw (.tick w)

/-- A call submits a blit of a kind where it returns, and at most one where it throws. -/
def Draws (kind : Blit → Prop) (w : World) {α : Type} (r : Result α) : Prop :=
  r.Post (fun _ w' => ∃ blit, kind blit ∧ Submits blit w w')
    fun w' => Quiet w w' ∨ ∃ blit, kind blit ∧ Submits blit w w'

/-- A blit of a fill image. -/
structure Fills (target depth : Option Target) (blit : Blit) : Prop where
  target : blit.target = target
  depth : blit.depth = depth
  depthSource : blit.depthSource = none
  source : ∃ image data, blit.source = some ⟨.fill image, some data, 1, 1⟩

variable {target depth : Option Target} {rect : BlitRect} {bgra writeMask : ℕ}

theorem draws_throw (kind : Blit → Prop) (failure : Failure) :
    Draws kind w (w.throw failure : Result ℕ) :=
  Attempt.post_error (Or.inl (.note w fun _ => Event.noConfusion))

theorem fillExecute_draws {kind : Blit → Prop} {blit : ℕ → Blit} (h : ∀ image, kind (blit image)) :
    Draws kind w ((fillConstant env w bgra).andThen fun image w => execute env w (blit image)) := by
  refine ((fillConstant_quiet env w bgra).imp (fun _ _ hq => hq) fun _ hq => Or.inl hq).andThen ?_
  exact fun image w₁ hquiet => (execute_submits hquiet).imp (fun _ _ hs => ⟨_, h image, hs⟩)
    fun _ hs => hs.imp_right fun hs => ⟨_, h image, hs⟩

theorem clearColor_draws :
    Draws (Fills target none) w (clearColor env w target rect bgra writeMask) := by
  unfold clearColor
  split
  · exact draws_throw _ _
  split
  · exact draws_throw _ _
  split
  · exact draws_throw _ _
  split
  · exact draws_throw _ _
  · exact fillExecute_draws fun image => ⟨rfl, rfl, rfl, image, _, rfl⟩

theorem fillDepthTested_draws {depthTest : Bool} : Draws (Fills target depth) w
    (fillDepthTested env w target depth rect bgra depthTest writeMask) := by
  unfold fillDepthTested
  split
  · exact draws_throw _ _
  split
  · split
    · exact draws_throw _ _
    split
    · exact draws_throw _ _
    · exact fillExecute_draws fun image => ⟨rfl, rfl, rfl, image, _, rfl⟩
  · exact draws_throw _ _

/-- The images that a call names, and those that it writes. -/
def Call.images : Call → List (Option Target)
  | .copy source target _ _ _ => [source, target]
  | .copyDepth source target _ _ _ => [source, target]
  | .clearColor target _ _ _ => [target]
  | .fillDepthTested target depth _ _ _ _ => [target, depth]
  | .finish => []
  | .destroy => []

def Call.written : Call → List (Option Target)
  | .copy _ target _ _ _ => [target]
  | .copyDepth _ target _ _ _ => [target]
  | .clearColor target _ _ _ => [target]
  | .fillDepthTested target depth _ _ _ _ => [target, depth]
  | .finish => []
  | .destroy => []

/-- What a blit takes and writes is what the call names and writes. -/
structure Call.Makes (call : Call) (blit : Blit) : Prop where
  owners : ∀ id, some (.image id) ∈ blit.owners → ∃ t, some t ∈ call.images ∧ t.id = id
  written : ∀ id, some (.image id) ∈ blit.written → ∃ t, some t ∈ call.written ∧ t.id = id

theorem Fills.makes {call : Call} (h : Fills target depth blit)
    (himages : ∀ t, some t = target ∨ some t = depth → some t ∈ call.images ∧ some t ∈ call.written) :
    call.Makes blit := by
  obtain ⟨image, data, hsource⟩ := h.source
  constructor
  · intro id hid
    simp only [Blit.owners, hsource, h.target, h.depth, h.depthSource, Option.map_some,
      Option.map_none, List.mem_cons, List.not_mem_nil, or_false, reduceCtorEq, Option.some.injEq,
      false_or, eq_comm (a := some (Owner.image id)), Option.map_eq_some_iff,
      Owner.image.injEq] at hid
    rcases hid with ⟨t, ht, hid⟩ | ⟨t, ht, hid⟩
    · exact ⟨t, (himages t (Or.inl ht.symm)).1, hid⟩
    · exact ⟨t, (himages t (Or.inr ht.symm)).1, hid⟩
  · intro id hid
    simp only [Blit.written, h.target, h.depth, List.mem_cons, List.not_mem_nil, or_false,
      eq_comm (a := some (Owner.image id)), Option.map_eq_some_iff, Owner.image.injEq] at hid
    rcases hid with ⟨t, ht, hid⟩ | ⟨t, ht, hid⟩
    · exact ⟨t, (himages t (Or.inl ht.symm)).2, hid⟩
    · exact ⟨t, (himages t (Or.inr ht.symm)).2, hid⟩

/-- A call before the destructor submits a blit between its own images, or none. -/
theorem step_draws {call : Call} (hcall : call ≠ .destroy) :
    Quiet w (step env w call) ∨ ∃ blit, call.Makes blit ∧ Submits blit w (step env w call) := by
  have hleft : ∀ {α : Type} {kind : Blit → Prop} {r : Result α}, Draws kind w r →
      (∀ blit, kind blit → call.Makes blit) →
      Quiet w r.2 ∨ ∃ blit, call.Makes blit ∧ Submits blit w r.2 := by
    intro α kind r h himp
    rcases h.left fun _ _ hs => Or.inr hs with hquiet | ⟨blit, hkind, hs⟩
    · exact Or.inl hquiet
    · exact Or.inr ⟨blit, himp blit hkind, hs⟩
  have hexecute : ∀ blit, Draws (· = blit) w (execute env w blit) := fun blit =>
    (execute_submits (.refl w)).imp (fun _ _ hs => ⟨blit, rfl, hs⟩)
      fun _ hs => hs.imp_right fun hs => ⟨blit, rfl, hs⟩
  unfold step
  split
  · cases call with
    | copy source target sampled rect options =>
      refine hleft (hexecute _) ?_
      rintro _ rfl
      constructor
      · intro id hid
        simpa [Blit.owners, Call.images, Target.image, eq_comm, or_and_right, exists_or] using hid
      · intro id hid
        simpa [Blit.written, Call.written, eq_comm] using hid
    | copyDepth source target sampled rect options =>
      refine hleft (hexecute _) ?_
      rintro _ rfl
      constructor
      · intro id hid
        simpa [Blit.owners, Call.images, or_and_right, exists_or, eq_comm, or_comm] using hid
      · intro id hid
        simpa [Blit.written, Call.written, eq_comm] using hid
    | clearColor target rect bgra writeMask =>
      exact hleft clearColor_draws fun blit hfills => hfills.makes fun t ht => by
        simpa [Call.images, Call.written] using ht
    | fillDepthTested target depth rect bgra depthTest writeMask =>
      exact hleft fillDepthTested_draws fun blit hfills => hfills.makes fun t ht => by
        simpa [Call.images, Call.written] using ht
    | finish => exact Or.inl ((Quiet.finish env w).left fun _ _ hq => hq)
    | destroy => exact absurd rfl hcall
  · exact Or.inl (.refl w)

/-- Where `finish` returns, no arena has a blit. -/
theorem finish_idle (h : Inv w) :
    (finish env w).Post (fun _ w' => ∀ a < InFlight, (w'.arenas a).submitted = false)
      fun _ => True := by
  have hloop : ∀ (n : ℕ) {w : World}, Inv w → w.submittedArenas.card ≤ n →
      (finishLoop env n w).Post (fun _ w' => ∀ a < InFlight, (w'.arenas a).submitted = false)
        fun _ => True := by
    intro n
    induction n with
    | zero =>
      intro w _ hcard a ha
      have hempty := Finset.card_eq_zero.mp (Nat.le_zero.mp hcard)
      refine Bool.not_eq_true _ ▸ fun hsubmitted => ?_
      exact Finset.eq_empty_iff_forall_notMem.mp hempty a
        (Finset.mem_filter.mpr ⟨Finset.mem_range.mpr ha, hsubmitted⟩)
    | succ n ih =>
      intro w hw hcard
      rw [finishLoop]
      cases holdest : w.oldest fun a => (w.arenas a).submitted with
      | none => exact Attempt.post_ok (oldest_eq_none holdest)
      | some a =>
        obtain ⟨ha, hsubmitted⟩ := oldest_eq_some holdest
        refine ((wait_post a hw).imp (fun _ _ hwaited => hwaited) fun _ _ => trivial).andThen ?_
        intro _ w' hwaited
        have hless := hwaited.card ha hsubmitted
        exact ih hwaited.inv (by omega)
  rw [finish]
  split
  · exact Attempt.post_error trivial
  · exact hloop _ h le_rfl

end Gpu.AgcBlit
