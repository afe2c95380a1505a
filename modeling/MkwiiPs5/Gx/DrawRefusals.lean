import MkwiiPs5.Gx.DrawMerging

/-!
# Receivers that refuse

A receiver may throw at a submission, and the exception ends `process`. A run with such a receiver is
followed beside the run of one that accepts everything: up to the submission that is refused, the
two leave the same states.
-/

namespace Gx

variable {sink : DrawSink} {s t u : FifoState} {b : Backend} {data : List UInt8}
variable {bigEndian : Bool} {pos : ℕ}

/-- The receiver, where it only looks on. -/
def DrawSink.passive (sink : DrawSink) : DrawSink := { sink with submit := fun _ _ => .ok () }

/-- The backend with a receiver that only looks on. -/
def Backend.passive (b : Backend) (sink : DrawSink) : Backend :=
  { b with active := some sink.passive }

theorem DrawSink.Resolves.passive {memory : ℕ → AttrArray → ℕ → UInt8} (h : sink.Resolves memory) :
    sink.passive.Receives memory where
  resolves := h.resolves
  accepts _ _ := rfl

/-- The exception is that of the receiver, at the last submission. -/
def DrawSink.Refuses (sink : DrawSink) (e : Fault) (s : FifoState) : Prop :=
  ∃ what before last, e = .thrown what ∧ s.submitted = before ++ [last] ∧
    sink.submit before last = .error what

/-- The same is done from `s` as where every submission is accepted, unless the last one is
refused. -/
structure DrawSink.Follows {α : Type} (sink : DrawSink) (s : FifoState)
    (accepted r : Attempt Fault FifoState α) : Prop where
  state : r.2 = accepted.2
  grows : s.submitted <+: r.2.submitted
  result : r.1 = accepted.1 ∨ ∃ e, r.1 = .error e ∧ sink.Refuses e r.2

theorem follows_same {α : Type} {r : Attempt Fault FifoState α}
    (h : r.2.submitted = s.submitted) : sink.Follows s r r :=
  ⟨rfl, h ▸ List.prefix_rfl, Or.inl rfl⟩

/-! ### A draw -/

/-- Arrays are resolved in the same way. -/
theorem resolveGxArray_passive (sink : DrawSink) :
    resolveGxArray (some sink.passive) = resolveGxArray (some sink) := rfl

theorem submitPacket_follows (packet : Except Fault Geometry) (s : FifoState) :
    sink.Follows s (submitPacket (some sink.passive) packet s) (submitPacket (some sink) packet s) := by
  cases packet with
  | error e => exact follows_same rfl
  | ok packet =>
    rw [submitPacket, submitPacket]
    split
    · exact follows_same rfl
    · refine ⟨rfl, List.prefix_append _ _, ?_⟩
      rw [submitGxGeometry]
      dsimp only
      cases hsubmit : sink.submit s.submitted ⟨packet, s.registers.decoded⟩ with
      | ok accepted => exact Or.inl rfl
      | error what => exact Or.inr ⟨_, rfl, what, s.submitted, _, rfl, rfl, hsubmit⟩

theorem submitDraw_follows (layout : VertexLayout) (primitive : Primitive) (count : ℕ)
    (records : List UInt8) (s : FifoState) :
    sink.Follows s (submitDraw (some sink.passive) layout primitive count records s)
      (submitDraw (some sink) layout primitive count records s) := by
  rw [submitDraw, submitDraw, resolveGxArray_passive]
  split_ifs
  · exact follows_same rfl
  · exact follows_same rfl
  · exact submitPacket_follows _ s

theorem submitGroup_follows (pending : PendingDraws) (s : FifoState) :
    sink.Follows s (submitGroup (some sink.passive) pending s)
      (submitGroup (some sink) pending s) := by
  rw [submitGroup, submitGroup, resolveGxArray_passive]
  split
  · exact follows_same rfl
  · exact submitDraw_follows _ _ _ _ s
  · split
    · exact follows_same rfl
    · exact submitPacket_follows _ s

theorem submitPending_follows (s : FifoState) :
    sink.Follows s (submitPending (some sink.passive) s) (submitPending (some sink) s) := by
  have hgroup : sink.Follows s (submitGroup (some sink.passive) s.pending s)
      (submitGroup (some sink) s.pending s) := submitGroup_follows s.pending s
  obtain ⟨hstate, hgrows, hresult⟩ := hgroup
  refine ⟨congrArg FifoState.clearPending hstate, hgrows, hresult.imp_right ?_⟩
  rintro ⟨e, he, what, before, last, hwhat, hlast, hrefused⟩
  exact ⟨e, he, what, before, last, hwhat, hlast, hrefused⟩

/-- What comes after the submission submits nothing more. -/
theorem DrawSink.Follows.andThen {α β : Type} {accepted r : Attempt Fault FifoState α} {b : β}
    (h : sink.Follows s accepted r) :
    sink.Follows s (accepted.andThen fun _ t => (.ok b, t)) (r.andThen fun _ t => (.ok b, t)) := by
  obtain ⟨hstate, hgrows, hresult⟩ := h
  obtain ⟨result, t⟩ := r
  obtain ⟨result', t'⟩ := accepted
  obtain rfl : t = t' := hstate
  rcases hresult with hsame | ⟨e, he, hrefuses⟩
  · obtain rfl : result = result' := hsame
    cases result with
    | error e => exact ⟨rfl, hgrows, Or.inl rfl⟩
    | ok a => exact ⟨rfl, hgrows, Or.inl rfl⟩
  · obtain rfl : result = .error e := he
    cases result' with
    | error e' => exact ⟨rfl, hgrows, Or.inr ⟨e, rfl, hrefuses⟩⟩
    | ok a => exact ⟨rfl, hgrows, Or.inr ⟨e, rfl, hrefuses⟩⟩

theorem singleDraw_follows (next : ℕ) (draw : DrawHeader) (records : List UInt8) (s : FifoState) :
    sink.Follows s (singleDraw (some sink.passive) next draw records s)
      (singleDraw (some sink) next draw records s) :=
  (submitDraw_follows draw.layout draw.primitive draw.count records s).andThen

theorem handleDraw_follows (next : ℕ) (draw : DrawHeader) (records : List UInt8) (s : FifoState) :
    sink.Follows s (handleDraw (some sink.passive) data bigEndian next draw records s)
      (handleDraw (some sink) data bigEndian next draw records s) := by
  rw [handleDraw, handleDraw]
  split
  · rw [gatherDraw, gatherDraw]
    dsimp only
    split
    · exact follows_same rfl
    · exact follows_same rfl
    · obtain ⟨hstate, hgrows, hresult⟩ := (submitPending_follows
        { s with pending := s.pending.push draw records }).andThen (b := some next)
      exact ⟨hstate, hgrows, hresult⟩
  · exact singleDraw_follows next draw records s

/-! ### Runs -/

/-- Only draws reach the receiver. -/
theorem command_follows {accepting handler : DrawHandler}
    (h : ∀ next draw records s, sink.Follows s (accepting next draw records s)
      (handler next draw records s)) (pos : ℕ) (s : FifoState) :
    sink.Follows s (command b accepting data bigEndian pos s)
      (command b handler data bigEndian pos s) := by
  rw [command, command]
  split
  · exact follows_same rfl
  · dsimp only
    split_ifs
    · refine follows_same ?_
      unfold FifoState.afterRegisters
      split <;> rfl
    · refine follows_same ?_
      unfold FifoState.afterAurora
      split <;> rfl
    · unfold readDraw
      split
      · exact follows_same rfl
      · split
        · exact follows_same rfl
        · dsimp only
          split
          · exact follows_same rfl
          · split
            · exact follows_same rfl
            · exact h _ _ _ s
    · exact follows_same rfl

/-- A run either accepts every submission or ends at the one that is refused. -/
theorem process_follows (hactive : b.active = some sink) {fuel : ℕ}
    (hs : Settled data bigEndian pos s)
    (hu : processFrom (b.passive sink) (handleDraw (some sink.passive) data bigEndian) data bigEndian
      fuel pos s = some (.ok (), u)) :
    s.submitted <+: u.submitted ∧
    (processFrom b (handleDraw b.active data bigEndian) data bigEndian fuel pos s =
        some (.ok (), u) ∨
      ∃ e t, processFrom b (handleDraw b.active data bigEndian) data bigEndian fuel pos s =
          some (.error e, t) ∧ t.pending.Idle ∧ sink.Refuses e t ∧
        t.submitted <+: u.submitted) := by
  induction fuel generalizing pos s with
  | zero => cases hu
  | succ fuel ih =>
    rw [processFrom] at hu ⊢
    by_cases hpos : pos < data.length
    · rw [if_pos hpos] at hu ⊢
      -- the command gives the same state as where nothing is refused, with its own answer
      have hfollows : sink.Follows s (command (b.passive sink)
          (handleDraw (some sink.passive) data bigEndian) data bigEndian pos s)
          (command b (handleDraw b.active data bigEndian) data bigEndian pos s) := by
        rw [hactive]
        exact command_follows (b := b) handleDraw_follows pos s
      have hturn := command_turn (b := b) hpos hs
      generalize command (b.passive sink) (handleDraw (some sink.passive) data bigEndian) data
        bigEndian pos s = accepted at hu hfollows
      generalize command b (handleDraw b.active data bigEndian) data bigEndian pos s = r
        at hturn hfollows ⊢
      obtain ⟨result, t⟩ := r
      obtain ⟨result', t'⟩ := accepted
      obtain ⟨hstate, hgrows, hresult⟩ := hfollows
      obtain rfl : t = t' := hstate
      dsimp only at hgrows hresult
      rcases result' with e | _ | next
      · cases hu
      · cases hu
        refine ⟨hgrows, hresult.imp ?_ ?_⟩
        · rintro rfl
          rfl
        · rintro ⟨e, rfl, hrefuses⟩
          exact ⟨e, _, rfl, hturn.idle fun next => (by cases ·), hrefuses, List.prefix_rfl⟩
      · -- the command is accepted and the run goes on, or it is refused and the run ends with it
        rcases hresult with rfl | ⟨e, rfl, hrefuses⟩
        · obtain ⟨hlater, hcases⟩ := ih (hturn.next next rfl).2.2 hu
          exact ⟨hgrows.trans hlater, hcases⟩
        · have hidle : t.pending.Idle := hturn.idle fun next => (by cases ·)
          obtain ⟨hlater, -⟩ := ih (Or.inl hidle) hu
          exact ⟨hgrows.trans hlater, Or.inr ⟨e, t, rfl, hidle, hrefuses, hlater⟩⟩
    · rw [if_neg hpos] at hu ⊢
      cases hu
      exact ⟨List.prefix_rfl, Or.inl rfl⟩

theorem received_prefix {l l' : List Submission} (h : l <+: l') : received l <+: received l' := by
  obtain ⟨more, rfl⟩ := h
  exact ⟨received more, (received_append l more).symm⟩

/-- If the geometry of every draw by itself can be made, joined draws go to any receiver as they would
by themselves, up to the first submission that it refuses: its exception ends the run, and what it was
given draws an initial part of what the draws by themselves draw. -/
theorem merged_draws_refused {memory : ℕ → AttrArray → ℕ → UInt8} (h : sink.Resolves memory)
    (hactive : b.active = some sink) (hs : s.pending.Idle) {fuel : ℕ}
    (hu : processFrom (b.passive sink) (singleDraw (some sink.passive)) data bigEndian fuel 0 s =
      some (.ok (), u)) :
    (∃ t, process b data bigEndian fuel s = some (.ok (), t) ∧ t.pending.Idle ∧
      t.registers = u.registers ∧ t.calls = u.calls ∧
      received t.submitted = received u.submitted) ∨
    ∃ e t, process b data bigEndian fuel s = some (.error e, t) ∧ t.pending.Idle ∧
      sink.Refuses e t ∧ received t.submitted <+: received u.submitted := by
  have hstart : Merging (some sink.passive) data bigEndian 0 s s := merging_idle rfl rfl hs hs rfl
  obtain ⟨t, ht, hm, hidle⟩ :=
    merging_run (b := b.passive sink) h.passive rfl hstart hu
  have hreceived := hm.received_idle hidle
  obtain ⟨-, haccepted | ⟨e, t', ht', hidle', hrefuses, hinitial⟩⟩ :=
    process_follows hactive (Or.inl hs) ht
  · exact Or.inl ⟨t, haccepted, hidle, hm.registers, hm.calls, hreceived.symm⟩
  · exact Or.inr ⟨e, t', ht', hidle', hrefuses, hreceived ▸ received_prefix hinitial⟩

/-- A receiver that draws triangles only. -/
def triangleSink : DrawSink :=
  { countingSink with
    submit := fun _ sub =>
      if sub.geometry.primitive.triangleClass then .ok ()
      else .error "GX line/point expansion is not implemented by the triangle shader" }

/-- The line at the end is refused. -/
theorem merged_draws_refused_line : ∃ e t u,
    process ⟨someCodes, fun _ => 0, some triangleSink⟩ mixedDraws true 9 indexedState =
        some (.error e, t) ∧
      processFrom ⟨someCodes, fun _ => 0, some triangleSink.passive⟩
        (singleDraw (some triangleSink.passive)) mixedDraws true 9 0 indexedState =
        some (.ok (), u) ∧
      t.submitted.length = 3 ∧ triangleSink.Refuses e t ∧
      received t.submitted <+: received u.submitted := by
  have hrun : process ⟨someCodes, fun _ => 0, some triangleSink⟩ mixedDraws true 9 indexedState =
      some (.error _, _) := rfl
  rcases @merged_draws_refused triangleSink indexedState _
    ⟨someCodes, fun _ => 0, some triangleSink⟩ mixedDraws true _ ⟨countingSink_receives.resolves⟩ rfl
    ⟨rfl, rfl, rfl⟩ 9 rfl with
    ⟨t, ht, -⟩ | ⟨e, t, ht, -, hrefuses, hinitial⟩
  · cases hrun.symm.trans ht
  · obtain ⟨he, rfl⟩ := Prod.mk.inj (Option.some.inj (ht.symm.trans hrun))
    exact ⟨e, _, _, ht, rfl, rfl, hrefuses, hinitial⟩

end Gx
