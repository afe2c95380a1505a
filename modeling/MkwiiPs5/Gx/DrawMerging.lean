import MkwiiPs5.Gx.DispatchSafety
import MkwiiPs5.Gx.MergedSnapshots

/-!
# Merged draws draw the same

`handle_draw` gathers consecutive draws of triangles into one submission. What the receiver draws is
what it would draw if every draw were submitted by itself.
-/

namespace Gx

open Bytes (slice number)
open IndexLoops (Mergeable vertexTotal vertexTotal_cons)

/-! ### What is drawn -/

/-- A triangle with its corners, or a draw of lines or points; with the registers in force. -/
inductive Drawn
  | triangle (corners : List (Except Fault DecodedVertex)) (registers : Decoded)
  | whole (submission : Submission)

def Submission.drawn (s : Submission) : List Drawn :=
  if s.geometry.primitive.triangleClass then
    (triples (s.geometry.indices.map (decodeGxVertex s.geometry))).map (.triangle · s.registers)
  else [.whole s]

/-- All that a receiver draws. -/
def received (submitted : List Submission) : List Drawn := submitted.flatMap Submission.drawn

theorem received_append (l l' : List Submission) :
    received (l ++ l') = received l ++ received l' := List.flatMap_append

/-- A receiver that has the arrays in a memory: it resolves every interval inside of the declared
size, with the bytes that are there. -/
structure DrawSink.Resolves (sink : DrawSink) (memory : ℕ → AttrArray → ℕ → UInt8) : Prop where
  resolves : ∀ attr array offset length, array.data ≠ 0 → offset + length ≤ array.size.toNat →
    ∃ rest, sink.resolve attr array offset length =
      .ok (Overlay.load (memory attr array) offset length ++ rest)

/-- One that accepts every submission, too. -/
structure DrawSink.Receives (sink : DrawSink) (memory : ℕ → AttrArray → ℕ → UInt8) : Prop
    extends sink.Resolves memory where
  accepts : ∀ before submission, sink.submit before submission = .ok ()

variable {sink : DrawSink} {memory : ℕ → AttrArray → ℕ → UInt8}

theorem DrawSink.Resolves.serves (h : sink.Resolves memory) (v : VertexState) :
    Serves (resolveGxArray (some sink)) v fun attr => memory attr (v.arrays attr) := by
  intro attr offset length hdata hlength
  obtain ⟨rest, hrest⟩ := h.resolves attr (v.arrays attr) offset length hdata hlength
  have hload : (Overlay.load (memory attr (v.arrays attr)) offset length).length = length := by
    rw [Overlay.load, List.length_map, List.length_range]
  have hinside : ((v.arrays attr).data != 0 && offset ≤ (v.arrays attr).size.toNat &&
      length ≤ (v.arrays attr).size.toNat - offset) = true := by
    rw [Bool.and_eq_true, Bool.and_eq_true, bne_iff_ne, decide_eq_true_eq, decide_eq_true_eq]
    exact ⟨⟨hdata, by omega⟩, by omega⟩
  rw [resolveGxArray, require_ok hinside, hrest]
  dsimp only [bind, Except.bind, Except.mapError]
  rw [require_ok (decide_eq_true (by rw [List.length_append]; omega))]
  dsimp only
  rw [List.take_append_of_le_length (by omega), List.take_of_length_le (by omega)]
  rfl

/-! ### Submissions -/

variable {s : FifoState}

/-- What a geometry that is not refused adds to what is drawn. -/
theorem submitPacket_received (h : sink.Receives memory) (g : Geometry) (s : FifoState) :
    ∃ more, submitPacket (some sink) (.ok g) s =
        (.ok (), { s with submitted := s.submitted ++ more }) ∧
      (g.indices = [] ∧ more = [] ∨
        g.indices ≠ [] ∧ more = [⟨g, s.registers.decoded⟩]) := by
  rw [submitPacket]
  by_cases hempty : g.indices = []
  · rw [hempty, List.isEmpty_nil, if_pos rfl]
    exact ⟨[], by rw [List.append_nil], Or.inl ⟨rfl, rfl⟩⟩
  · rw [List.isEmpty_eq_false_iff.2 hempty, if_neg Bool.false_ne_true, submitGxGeometry]
    rw [h.accepts]
    exact ⟨_, rfl, Or.inr ⟨hempty, rfl⟩⟩

theorem submitPacket_triangles (h : sink.Receives memory) {g : Geometry}
    (hg : g.primitive.triangleClass = true) (s : FifoState) :
    ∃ more, submitPacket (some sink) (.ok g) s =
        (.ok (), { s with submitted := s.submitted ++ more }) ∧
      received more = (triples (g.indices.map (decodeGxVertex g))).map
        (.triangle · s.registers.decoded) := by
  obtain ⟨more, hsubmit, ⟨hempty, rfl⟩ | ⟨-, rfl⟩⟩ := submitPacket_received h g s
  · refine ⟨[], hsubmit, ?_⟩
    rw [hempty]
    rfl
  · refine ⟨_, hsubmit, ?_⟩
    rw [received, List.flatMap_singleton, Submission.drawn, if_pos hg]

/-! ### A draw by itself -/

/-- The triangles that a draw makes by itself. -/
def drawnAlone (active : Option DrawSink) (layout : VertexLayout) (d : Decoded) (part : DrawPart) :
    Except Fault (List Drawn) :=
  if part.segment.count = 0 ∨ d.genMode.cullMode = GX_CULL_ALL then pure []
  else do
    let g ← snapshot layout d part.segment.primitive part.segment.count part.records
      (resolveGxArray active)
    pure ((triples (g.indices.map (decodeGxVertex g))).map (.triangle · d))

/-- The same, where it fails nothing. -/
def alone (active : Option DrawSink) (layout : VertexLayout) (d : Decoded) (part : DrawPart) :
    List Drawn :=
  match drawnAlone active layout d part with
  | .ok l => l
  | .error _ => []

/-- A draw of triangles succeeds where they can be made, and they are what is drawn. -/
theorem submitDraw_cases (layout : VertexLayout) {part : DrawPart} (h : sink.Receives memory)
    (htriangles : part.segment.primitive.triangleClass = true) (s : FifoState) :
    (∃ more, drawnAlone (some sink) layout s.registers.decoded part = .ok (received more) ∧
      submitDraw (some sink) layout part.segment.primitive part.segment.count part.records s =
        (.ok (), { s with submitted := s.submitted ++ more })) ∨
    ∃ e, drawnAlone (some sink) layout s.registers.decoded part = .error e ∧
      submitDraw (some sink) layout part.segment.primitive part.segment.count part.records s =
        (.error e, s) := by
  have hnothing : s = { s with submitted := s.submitted ++ [] } := by rw [List.append_nil]
  rw [submitDraw, drawnAlone]
  by_cases hcount : part.segment.count = 0
  · rw [if_pos hcount, if_pos (Or.inl hcount)]
    exact Or.inl ⟨[], rfl, congrArg _ hnothing⟩
  · rw [if_neg hcount]
    by_cases hcull : s.registers.decoded.genMode.cullMode = GX_CULL_ALL
    · have hskip : s.registers.decoded.genMode.cullMode = GX_CULL_ALL ∧
          part.segment.primitive ≠ .lines ∧ part.segment.primitive ≠ .lineStrip ∧
          part.segment.primitive ≠ .points := by
        refine ⟨hcull, ?_, ?_, ?_⟩ <;> intro hprimitive <;> rw [hprimitive] at htriangles <;>
          cases htriangles
      rw [if_pos hskip, if_pos (Or.inr hcull)]
      exact Or.inl ⟨[], rfl, congrArg _ hnothing⟩
    · rw [if_neg (not_or.2 ⟨hcount, hcull⟩), if_neg fun hskip => hcull hskip.1]
      cases hsnapshot : snapshot layout s.registers.decoded part.segment.primitive
          part.segment.count part.records (resolveGxArray (some sink)) with
      | error e => exact Or.inr ⟨e, rfl, rfl⟩
      | ok g =>
        have hprimitive : g.primitive = part.segment.primitive := by
          obtain ⟨out, -, hg⟩ := Loop.bind_eq_ok.1 hsnapshot
          obtain rfl := Except.ok.inj hg
          rfl
        obtain ⟨more, hsubmit, hmore⟩ :=
          submitPacket_triangles h (by rw [hprimitive]; exact htriangles) s
        exact Or.inl ⟨more, by rw [hmore]; rfl, hsubmit⟩

/-! ### A group -/

/-- The group that is pending is made of these parts, each of which could be drawn by itself. -/
structure Gathered (active : Option DrawSink) (d : Decoded) (p : PendingDraws)
    (parts : List DrawPart) : Prop where
  segments : p.segments = parts.map DrawPart.segment
  records : p.records = parts.flatMap DrawPart.records
  fits : ∀ part ∈ parts, part.Fits p.layout
  alone : ∀ part ∈ parts, drawnAlone active p.layout d part = .ok (alone active p.layout d part)

/-- The snapshot of a part that has vertices. -/
theorem Gathered.single {active : Option DrawSink} {p : PendingDraws} {parts : List DrawPart}
    {d : Decoded} (h : Gathered active d p parts) (hcull : d.genMode.cullMode ≠ GX_CULL_ALL)
    {part : DrawPart} (hpart : part ∈ parts) (hcount : 0 < part.segment.count) :
    ∃ g, snapshot p.layout d part.segment.primitive part.segment.count part.records
        (resolveGxArray active) = .ok g ∧
      Gx.alone active p.layout d part =
        (triples (g.indices.map (decodeGxVertex g))).map (.triangle · d) := by
  have halone := h.alone part hpart
  rw [drawnAlone, if_neg (not_or.2 ⟨Nat.ne_of_gt hcount, hcull⟩)] at halone
  obtain ⟨g, hg, hl⟩ := Loop.bind_eq_ok.1 halone
  exact ⟨g, hg, (Except.ok.inj hl).symm⟩

theorem alone_cullAll {active : Option DrawSink} {layout : VertexLayout} {d : Decoded}
    (hcull : d.genMode.cullMode = GX_CULL_ALL) (part : DrawPart) : alone active layout d part = [] := by
  rw [alone, drawnAlone, if_pos (Or.inr hcull)]
  rfl

theorem alone_empty {active : Option DrawSink} {layout : VertexLayout} {d : Decoded}
    {part : DrawPart} (hcount : part.segment.count = 0) : alone active layout d part = [] := by
  rw [alone, drawnAlone, if_pos (Or.inl hcount)]
  rfl

/-- The triangles of the merged geometry are those of the parts. -/
theorem snapshotSegments_received {parts : List DrawPart} {p : PendingDraws} {d : Decoded}
    (h : sink.Receives memory) (hbuild : VertexLayout.build d.vertex p.format = .ok p.layout)
    (hgathered : Gathered (some sink) d p parts) (hcull : d.genMode.cullMode ≠ GX_CULL_ALL)
    (htotal : vertexTotal (parts.map DrawPart.segment) ≤ UINT32_MAX) :
    ∃ g, snapshotSegments p.layout d (parts.map DrawPart.segment)
        (parts.flatMap DrawPart.records) (resolveGxArray (some sink)) = .ok g ∧
      g.primitive.triangleClass = true ∧
      (triples (g.indices.map (decodeGxVertex g))).map (.triangle · d) =
        parts.flatMap (alone (some sink) p.layout d) := by
  have hlayout := build_laidOut hbuild
  have hserves := h.serves d.vertex
  have hparts := hgathered.fits
  -- every part that has vertices has a snapshot by itself, since it was drawn by itself
  have hexists : ∀ part, ∃ g, part ∈ parts → 0 < part.segment.count →
      snapshot p.layout d part.segment.primitive part.segment.count part.records
          (resolveGxArray (some sink)) = .ok g ∧
        alone (some sink) p.layout d part =
          (triples (g.indices.map (decodeGxVertex g))).map (.triangle · d) := by
    intro part
    by_cases hpart : part ∈ parts ∧ 0 < part.segment.count
    · obtain ⟨g, hg⟩ := hgathered.single hcull hpart.1 hpart.2
      exact ⟨g, fun _ _ => hg⟩
    · exact ⟨⟨p.layout, [], fun _ => ⟨0, []⟩, [], .triangles, 0, 0⟩,
        fun hmem hcount => absurd ⟨hmem, hcount⟩ hpart⟩
  choose single hsingle using hexists
  have hof : ∀ part ∈ parts, 0 < part.segment.count →
      SnapshotOf p.layout d (resolveGxArray (some sink)) part.segment.count part.records
          (single part) ∧
        (single part).indices = buildIndices part.segment.primitive part.segment.count ∧
        ∃ out, snapshotRecords p.layout d part.segment.count part.records
          (resolveGxArray (some sink)) = .ok out := by
    intro part hpart hcount
    obtain ⟨hsnapshot, -, hindices, hrecords⟩ :=
      snapshot_of hlayout (hparts part hpart).mergeable.2 (hsingle part hpart hcount).1
    exact ⟨hsnapshot, hindices, hrecords⟩
  obtain ⟨g, hg, hsnapshot, htriangles, hindices⟩ :=
    snapshotSegments_of hlayout (by
      intro segment hsegment
      obtain ⟨part, hpart, rfl⟩ := List.mem_map.1 hsegment
      exact (hparts part hpart).mergeable) htotal
      (snapshotRecords_merged hlayout hserves hparts htotal fun part hpart hcount =>
        (hof part hpart hcount).2.2)
  refine ⟨g, hg, htriangles, ?_⟩
  rw [hindices, corners_merged hlayout hserves hparts hsnapshot fun part hpart hcount =>
    (hof part hpart hcount).1, triples_flatMap, List.map_flatMap]
  · refine List.flatMap_congr fun part hpart => ?_
    rcases Nat.eq_zero_or_pos part.segment.count with hzero | hcount
    · -- a part without vertices draws nothing
      rw [alone_empty hzero, IndexLoops.indices_eq_corners (hparts part hpart).mergeable, hzero]
      cases part.segment.primitive <;> rfl
    · rw [(hsingle part hpart hcount).2, (hof part hpart hcount).2.1]
      rfl
  · intro part hpart
    rw [List.length_map, IndexLoops.indices_eq_corners (hparts part hpart).mergeable]
    exact length_corners_mod _ _

/-- A group draws what its parts draw. -/
theorem submitGroup_received {parts : List DrawPart} {p : PendingDraws} (h : sink.Receives memory)
    (hbuild : VertexLayout.build s.registers.decoded.vertex p.format = .ok p.layout)
    (hgathered : Gathered (some sink) s.registers.decoded p parts)
    (htotal : vertexTotal p.segments ≤ UINT32_MAX) :
    ∃ more, submitGroup (some sink) p s =
        (.ok (), { s with submitted := s.submitted ++ more }) ∧
      received more = parts.flatMap (alone (some sink) p.layout s.registers.decoded) := by
  have hnothing : s = { s with submitted := s.submitted ++ [] } := by rw [List.append_nil]
  match parts, hgathered with
  | [], hgathered =>
    rw [submitGroup, hgathered.segments]
    exact ⟨[], congrArg _ hnothing, rfl⟩
  | [part], hgathered =>
    rw [submitGroup, hgathered.segments, hgathered.records, List.flatMap_singleton]
    have htriangles := (hgathered.fits part List.mem_cons_self).mergeable.1
    have halone := hgathered.alone part List.mem_cons_self
    rcases submitDraw_cases p.layout h htriangles s with
      ⟨more, hmore, hsubmit⟩ | ⟨e, he, -⟩
    · refine ⟨more, hsubmit, ?_⟩
      rw [List.flatMap_singleton]
      exact Except.ok.inj (hmore.symm.trans halone)
    · cases he.symm.trans halone
  | first :: second :: rest, hgathered =>
    generalize hparts : first :: second :: rest = parts at hgathered ⊢
    have hsegments := hgathered.segments
    rw [← hparts, List.map_cons, List.map_cons] at hsegments
    rw [submitGroup, hsegments]
    dsimp only
    rw [← List.map_cons, ← List.map_cons, hparts]
    by_cases hcull : s.registers.decoded.genMode.cullMode = GX_CULL_ALL
    · rw [if_pos hcull]
      refine ⟨[], congrArg _ hnothing, ?_⟩
      rw [List.flatMap_eq_nil_iff.2 fun part _ => alone_cullAll hcull part]
      rfl
    · rw [if_neg hcull]
      rw [hgathered.segments] at htotal
      obtain ⟨g, hg, hmore⟩ := snapshotSegments_received h hbuild hgathered hcull htotal
      rw [hgathered.records, hg]
      obtain ⟨more, hsubmit, hreceived⟩ := submitPacket_triangles h hmore.1 s
      exact ⟨more, hsubmit, hreceived.trans hmore.2⟩

/-! ### One more draw -/

variable {data : List UInt8} {bigEndian : Bool} {pos command : ℕ} {t : FifoState}

/-- A draw as a part of a group. -/
def DrawHeader.part (draw : DrawHeader) (records : List UInt8) : DrawPart :=
  ⟨⟨draw.primitive, draw.count⟩, records⟩

theorem Gathered.idle {active : Option DrawSink} {d : Decoded} {p : PendingDraws}
    {parts : List DrawPart} (h : Gathered active d p parts) (hidle : p.Idle) : parts = [] :=
  List.map_eq_nil_iff.1 (h.segments.symm.trans hidle.2.1)

/-- Where draws are pending, the next one has their layout. -/
theorem Gathered.layout {active : Option DrawSink} {d : Decoded} {parts : List DrawPart}
    {draw : DrawHeader} (h : Gathered active d t.pending parts) (hcontinues : t.Continues draw)
    (records : List UInt8) {part : DrawPart} (hpart : part ∈ parts) :
    (t.pending.push draw records).layout = t.pending.layout := by
  rw [(hcontinues.push records).2]
  rcases hcontinues with hidle | ⟨-, -, hlayout, -⟩
  · rw [h.idle hidle] at hpart
    cases hpart
  · exact hlayout.symm

theorem Gathered.push {active : Option DrawSink} {d : Decoded} {parts : List DrawPart}
    {draw : DrawHeader} {records : List UInt8} (h : Gathered active d t.pending parts)
    (hcontinues : t.Continues draw) (hfits : (draw.part records).Fits draw.layout)
    (halone : drawnAlone active draw.layout d (draw.part records) =
      .ok (Gx.alone active draw.layout d (draw.part records))) :
    Gathered active d (t.pending.push draw records) (parts ++ [draw.part records]) := by
  have hlayout := (hcontinues.push records).2
  refine ⟨?_, ?_, fun part hpart => ?_, fun part hpart => ?_⟩
  · rw [PendingDraws.push, h.segments, List.map_append]
    rfl
  · rw [PendingDraws.push, h.records, List.flatMap_append, List.flatMap_singleton]
    rfl
  · rcases List.mem_append.1 hpart with hold | hnew
    · rw [h.layout hcontinues records hold]
      exact h.fits part hold
    · rw [List.mem_singleton.1 hnew, hlayout]
      exact hfits
  · rcases List.mem_append.1 hpart with hold | hnew
    · rw [h.layout hcontinues records hold]
      exact h.alone part hold
    · rw [List.mem_singleton.1 hnew, hlayout]
      exact halone

theorem alone_push {active : Option DrawSink} {d : Decoded} {parts : List DrawPart}
    {draw : DrawHeader} (records : List UInt8) (h : Gathered active d t.pending parts)
    (hcontinues : t.Continues draw) :
    (parts ++ [draw.part records]).flatMap
        (alone active (t.pending.push draw records).layout d) =
      parts.flatMap (alone active t.pending.layout d) ++
        alone active draw.layout d (draw.part records) := by
  rw [List.flatMap_append, List.flatMap_singleton, (hcontinues.push records).2]
  congr 1
  refine List.flatMap_congr fun part hpart => ?_
  rw [← (hcontinues.push records).2, h.layout hcontinues records hpart]

/-! ### The two ways of drawing -/

/-- The state when every draw is submitted by itself, and the state of `process`: what is drawn
differs by the draws that are pending. -/
structure Merging (active : Option DrawSink) (data : List UInt8) (bigEndian : Bool) (pos : ℕ)
    (s t : FifoState) : Prop where
  registers : t.registers = s.registers
  calls : t.calls = s.calls
  separate : s.pending.Idle
  settled : Settled data bigEndian pos t
  vertices : t.pending.vertices = vertexTotal t.pending.segments
  bounded : vertexTotal t.pending.segments ≤ 0xffff * 64
  gathered : ∃ parts, Gathered active t.registers.decoded t.pending parts ∧
    received s.submitted = received t.submitted ++
      parts.flatMap (alone active t.pending.layout t.registers.decoded)

theorem Merging.received_idle {active : Option DrawSink}
    (h : Merging active data bigEndian pos s t) (hidle : t.pending.Idle) :
    received s.submitted = received t.submitted := by
  obtain ⟨parts, hgathered, hreceived⟩ := h.gathered
  rw [hreceived, hgathered.idle hidle, List.flatMap_nil, List.append_nil]

theorem merging_idle {active : Option DrawSink} (hregisters : t.registers = s.registers)
    (hcalls : t.calls = s.calls) (hseparate : s.pending.Idle) (hidle : t.pending.Idle)
    (hreceived : received s.submitted = received t.submitted) :
    Merging active data bigEndian pos s t := by
  refine ⟨hregisters, hcalls, hseparate, Or.inl hidle, ?_, ?_, [], ⟨hidle.2.1, hidle.1,
    fun part hpart => ?_, fun part hpart => ?_⟩, ?_⟩
  · rw [hidle.2.1, hidle.2.2]
    rfl
  · rw [hidle.2.1]
    exact Nat.zero_le _
  · cases hpart
  · cases hpart
  · rw [List.flatMap_nil, List.append_nil]
    exact hreceived

/-- The counter of vertices does not wrap. -/
theorem Merging.push_vertices {active : Option DrawSink} {draw : DrawHeader}
    (h : Merging active data bigEndian pos s t) (hcount : draw.count < 2 ^ 16)
    (records : List UInt8) :
    (t.pending.push draw records).vertices =
        vertexTotal (t.pending.push draw records).segments ∧
      vertexTotal (t.pending.push draw records).segments ≤ UINT32_MAX := by
  have hbounded := h.bounded
  have htotal : vertexTotal (t.pending.push draw records).segments =
      vertexTotal t.pending.segments + draw.count := by
    rw [PendingDraws.push, vertexTotal_append]
    rfl
  rw [htotal, PendingDraws.push, h.vertices, UINT32_MAX]
  exact ⟨Nat.mod_eq_of_lt (by omega), by omega⟩

/-- A draw that is gathered, and submitted by itself. -/
theorem merging_gather (h : sink.Receives memory) {next : ℕ} {draw : DrawHeader}
    {records : List UInt8} {o : Option ℕ} {s' : FifoState}
    (hm : Merging (some sink) data bigEndian pos s t)
    (hread : draw.Read t.registers.decoded.vertex command data (pos + 1) bigEndian)
    (hlength : records.length = draw.count * draw.layout.stride)
    (hcontinues : t.Continues draw) (htriangles : draw.primitive.triangleClass = true)
    (hsingle : singleDraw (some sink) next draw records s = (.ok o, s')) :
    o = some next ∧ ∃ t', gatherDraw (some sink) data next bigEndian draw records t =
      (.ok (some next), t') ∧ Merging (some sink) data bigEndian next s' t' := by
  obtain ⟨parts, hgathered, hreceived⟩ := hm.gathered
  obtain ⟨hvertices, htotal⟩ := hm.push_vertices hread.count_lt records
  obtain ⟨hformat, hlayout⟩ := hcontinues.push records
  have hturn : DrawTurn data bigEndian next t _ :=
    gatherDraw_turn (some sink) hread hcontinues records
  rw [singleDraw] at hsingle
  have hpart : (draw.part records).segment.primitive.triangleClass = true := htriangles
  rcases submitDraw_cases draw.layout h hpart s with
    ⟨more, halone, hsubmit⟩ | ⟨e, -, hsubmit⟩
  -- a draw that fails by itself is excluded: the run with single draws succeeds
  swap
  · rw [DrawHeader.part] at hsubmit
    rw [hsubmit] at hsingle
    cases hsingle
  rw [← hm.registers] at halone
  have hsubmit' := hsubmit
  rw [DrawHeader.part] at hsubmit'
  rw [hsubmit'] at hsingle
  obtain ⟨ho, rfl⟩ := Prod.mk.inj hsingle
  refine ⟨(Except.ok.inj ho).symm, ?_⟩
  have hdrawn : alone (some sink) draw.layout t.registers.decoded (draw.part records) =
      received more := by rw [alone, halone]
  have hpush := hgathered.push hcontinues ⟨⟨htriangles, hread.count_lt⟩, hlength⟩
    (halone.trans (by rw [hdrawn]))
  have hall := alone_push records hgathered hcontinues
  obtain ⟨wait, hwait, hjoins⟩ :=
    waits_total data next bigEndian draw (t.pending.push draw records)
  rw [gatherDraw] at hturn ⊢
  dsimp only at hturn ⊢
  rw [hwait] at hturn ⊢
  cases wait with
  -- the next draw joins this one, so that nothing is submitted yet
  | true =>
    obtain ⟨hroom, -⟩ := hjoins rfl
    rcases hturn.outcome with ⟨-, e, he⟩ | ⟨-, hsettled⟩
    · cases he
    · refine ⟨_, rfl, hm.registers, hm.calls, hm.separate, hsettled, hvertices,
        by rw [← hvertices]; exact hroom, _, hpush, ?_⟩
      rw [received_append, hreceived, hall, hdrawn, List.append_assoc]
  | false =>
    -- the group ends here, and is submitted under the layout that all of its draws share
    have hbuild : VertexLayout.build t.registers.decoded.vertex
        (t.pending.push draw records).format = .ok (t.pending.push draw records).layout := by
      rw [hformat, hlayout, hread.layout]
    obtain ⟨group, hgroup, hdraws⟩ := submitGroup_received
      (s := { t with pending := t.pending.push draw records }) h hbuild hpush htotal
    dsimp only [submitPending]
    rw [hgroup]
    refine ⟨_, rfl, merging_idle hm.registers hm.calls hm.separate (PendingDraws.clear_idle _) ?_⟩
    rw [received_append, hreceived]
    dsimp only [FifoState.clearPending]
    rw [received_append, hdraws, hall, hdrawn, List.append_assoc]

/-- Where the registers are the same, a draw by itself submits the same. -/
theorem submitDraw_same (h : sink.Receives memory) (hregisters : t.registers = s.registers)
    (layout : VertexLayout) (primitive : Primitive) (count : ℕ) (records : List UInt8) :
    ∃ result more, submitDraw (some sink) layout primitive count records s =
        (result, { s with submitted := s.submitted ++ more }) ∧
      submitDraw (some sink) layout primitive count records t =
        (result, { t with submitted := t.submitted ++ more }) := by
  have hs : s = { s with submitted := s.submitted ++ [] } := by rw [List.append_nil]
  have ht : t = { t with submitted := t.submitted ++ [] } := by rw [List.append_nil]
  rw [hregisters] at ht
  rw [submitDraw, submitDraw, hregisters]
  split_ifs
  · exact ⟨_, [], congrArg _ hs, congrArg _ ht⟩
  · exact ⟨_, [], congrArg _ hs, congrArg _ ht⟩
  · cases snapshot layout s.registers.decoded primitive count records
      (resolveGxArray (some sink)) with
    | error e => exact ⟨_, [], congrArg _ hs, congrArg _ ht⟩
    | ok g =>
      obtain ⟨more, hmore, hcases⟩ := submitPacket_received h g s
      obtain ⟨more', hmore', hcases'⟩ := submitPacket_received h g t
      have hsame : more' = more := by
        rw [hregisters] at hcases'
        rcases hcases with ⟨hempty, rfl⟩ | ⟨hsome, rfl⟩
        · exact (hcases'.resolve_right fun hsome => hsome.1 hempty).2
        · exact (hcases'.resolve_left fun hempty => hsome hempty.1).2
      rw [hsame, hregisters] at hmore'
      exact ⟨_, more, hmore, hmore'⟩

/-- A draw of lines or points, which both submit by itself. -/
theorem merging_single (h : sink.Receives memory) {next : ℕ} {draw : DrawHeader}
    {records : List UInt8} {o : Option ℕ} {s' : FifoState}
    (hm : Merging (some sink) data bigEndian pos s t) (hidle : t.pending.Idle)
    (hsingle : singleDraw (some sink) next draw records s = (.ok o, s')) :
    o = some next ∧ ∃ t', singleDraw (some sink) next draw records t = (.ok (some next), t') ∧
      Merging (some sink) data bigEndian next s' t' := by
  obtain ⟨result, more, hs, ht⟩ :=
    submitDraw_same h hm.registers draw.layout draw.primitive draw.count records
  rw [singleDraw, hs] at hsingle
  rw [singleDraw, ht]
  cases result with
  | error e => cases hsingle
  | ok done =>
    obtain ⟨ho, rfl⟩ := Prod.mk.inj hsingle
    refine ⟨(Except.ok.inj ho).symm, _, rfl, merging_idle hm.registers hm.calls hm.separate hidle ?_⟩
    rw [received_append, received_append, hm.received_idle hidle]

/-! ### Commands -/

variable {b : Backend}

/-- Every command leaves the two states as they should be; where one ends the processing, nothing is
pending. -/
structure Follows (active : Option DrawSink) (data : List UInt8) (bigEndian : Bool) (o : Option ℕ)
    (s t : FifoState) : Prop where
  next : ∀ next, o = some next → Merging active data bigEndian next s t
  stop : o = none → Merging active data bigEndian data.length s t ∧ t.pending.Idle

theorem follows_next {active : Option DrawSink} {next : ℕ}
    (h : Merging active data bigEndian next s t) : Follows active data bigEndian (some next) s t where
  next next' hnext := by
    obtain rfl := Option.some.inj hnext
    exact h
  stop hnone := by cases hnone

theorem Merging.stop {active : Option DrawSink} (h : Merging active data bigEndian pos s t)
    (hidle : t.pending.Idle) : Follows active data bigEndian none s t where
  next next hnext := by cases hnext
  stop _ := ⟨merging_idle h.registers h.calls h.separate hidle (h.received_idle hidle), hidle⟩

/-- A draw that is complete goes to both handlers. -/
theorem merging_readDraw (h : sink.Receives memory) {o : Option ℕ} {s' : FifoState}
    (hm : Merging (some sink) data bigEndian pos s t)
    (hcontinues : ∀ draw records, completeDraw t.registers.decoded.vertex command data (pos + 1)
      bigEndian = .ok (some (draw, records)) →
        t.Continues draw ∧ (¬ t.pending.Idle → draw.primitive.triangleClass = true))
    (hidle : completeDraw t.registers.decoded.vertex command data (pos + 1) bigEndian = .ok none →
      t.pending.Idle)
    (hs : readDraw (singleDraw (some sink)) command data (pos + 1) bigEndian s = (.ok o, s')) :
    ∃ t', readDraw (handleDraw (some sink) data bigEndian) command data (pos + 1) bigEndian t =
      (.ok o, t') ∧ Follows (some sink) data bigEndian o s' t' := by
  have hfits : s.Fits := fun hsome => absurd hm.separate.2.1 hsome
  rw [readDraw_eq _ hfits, ← hm.registers] at hs
  rw [readDraw_eq _ hm.settled.fits]
  match hcomplete : completeDraw t.registers.decoded.vertex command data (pos + 1) bigEndian with
  | .error e =>
    rw [hcomplete] at hs
    cases hs
  | .ok none =>
    rw [hcomplete] at hs
    cases hs
    exact ⟨t, rfl, hm.stop (hidle hcomplete)⟩
  | .ok (some (draw, records)) =>
    rw [hcomplete] at hs
    dsimp only at hs ⊢
    obtain ⟨hread, hrecords, rfl⟩ := completeDraw_read hcomplete
    obtain ⟨hcontinue, htriangles⟩ := hcontinues draw _ hcomplete
    rw [handleDraw]
    by_cases hclass : draw.primitive.triangleClass = true
    · rw [if_pos hclass]
      obtain ⟨rfl, t', ht', hnext⟩ := merging_gather h hm hread
        (Bytes.length_slice (by omega)) hcontinue hclass hs
      exact ⟨t', ht', follows_next hnext⟩
    · rw [if_neg hclass]
      have hnothing : t.pending.Idle := by
        by_contra hpending
        exact hclass (htriangles hpending)
      obtain ⟨rfl, t', ht', hnext⟩ := merging_single h hm hnothing hs
      exact ⟨t', ht', follows_next hnext⟩

theorem merging_command (h : sink.Receives memory) (hactive : b.active = some sink) {o : Option ℕ}
    {s' : FifoState} (hm : Merging (some sink) data bigEndian pos s t) (hpos : pos < data.length)
    (hs : Gx.command b (singleDraw (some sink)) data bigEndian pos s = (.ok o, s')) :
    ∃ t', Gx.command b (handleDraw b.active data bigEndian) data bigEndian pos t = (.ok o, t') ∧
      Follows (some sink) data bigEndian o s' t' := by
  rw [hactive]
  rcases hm.settled with hidle | hwaiting
  · -- nothing is pending: both runs read the same command from the same registers
    cases hregister : isRegisterCmd (commandAt data pos &&& CP_OPCODE_MASK) with
    | true =>
      rw [command_register hpos hregister] at hs ⊢
      rw [hm.registers]
      match hresult : registerCommand data (pos + 1) bigEndian s.registers b.host
        (commandAt data pos &&& CP_OPCODE_MASK) with
      | .error e =>
        rw [hresult] at hs
        cases hs
      | .ok none =>
        rw [hresult] at hs
        cases hs
        exact ⟨t, rfl, hm.stop hidle⟩
      | .ok (some (next, registers)) =>
        rw [hresult] at hs
        cases hs
        exact ⟨_, rfl, follows_next (merging_idle rfl hm.calls hm.separate hidle
          (hm.received_idle hidle))⟩
    | false =>
      by_cases hload : commandAt data pos &&& CP_OPCODE_MASK = b.codes.load
      · rw [command_aurora hpos hregister hload] at hs ⊢
        rw [hm.registers]
        match hresult : handleAurora data (pos + 1) bigEndian s.registers b.codes with
        | .error e =>
          rw [hresult] at hs
          cases hs
        | .ok none =>
          rw [hresult] at hs
          cases hs
          exact ⟨t, rfl, hm.stop hidle⟩
        | .ok (some result) =>
          rw [hresult] at hs
          cases hs
          refine ⟨_, rfl, follows_next (merging_idle rfl ?_ hm.separate hidle
            (hm.received_idle hidle))⟩
          dsimp only
          rw [hm.calls]
      · cases hdraw : isDrawCmd (commandAt data pos) with
        | true =>
          rw [command_draw hpos hdraw] at hs ⊢
          exact merging_readDraw h hm (fun draw records _ => ⟨Or.inl hidle, fun hnot =>
            absurd hidle hnot⟩) (fun _ => hidle) hs
        | false =>
          rw [command_unknown hpos hregister hload hdraw] at hs ⊢
          cases hs
          exact ⟨t, rfl, follows_next (merging_idle hm.registers hm.calls hm.separate hidle
            (hm.received_idle hidle))⟩
  · -- draws are pending, so that the next command is padding or a draw that joins them
    obtain ⟨_, ⟨hzero, hnext⟩ | ⟨hdraw, draw, records, hcomplete, htriangles, hcontinues⟩⟩ :=
      hwaiting.next
    · rw [command_padding hpos hzero] at hs ⊢
      cases hs
      exact ⟨t, rfl, follows_next { hm with settled := Or.inr hnext }⟩
    · rw [← commandAt_eq hpos] at hdraw hcomplete
      rw [command_draw hpos hdraw] at hs ⊢
      refine merging_readDraw h hm (fun draw' records' hcomplete' => ?_) (fun hnone => ?_) hs
      · cases hcomplete.symm.trans hcomplete'
        exact ⟨hcontinues, fun _ => htriangles⟩
      · cases hcomplete.symm.trans hnone

/-- What `process` draws is what it would draw with every draw by itself. -/
theorem merging_run (h : sink.Receives memory) (hactive : b.active = some sink) {fuel : ℕ}
    {s' : FifoState} (hm : Merging (some sink) data bigEndian pos s t)
    (hs : processFrom b (singleDraw (some sink)) data bigEndian fuel pos s = some (.ok (), s')) :
    ∃ t', processFrom b (handleDraw b.active data bigEndian) data bigEndian fuel pos t =
        some (.ok (), t') ∧
      Merging (some sink) data bigEndian data.length s' t' ∧ t'.pending.Idle := by
  induction fuel generalizing pos s t with
  | zero => cases hs
  | succ fuel ih =>
    rw [processFrom] at hs ⊢
    by_cases hpos : pos < data.length
    · rw [if_pos hpos] at hs ⊢
      rcases hcommand : Gx.command b (singleDraw (some sink)) data bigEndian pos s with ⟨e | o, u⟩
      · rw [hcommand] at hs
        cases hs
      · rw [hcommand] at hs
        obtain ⟨t', ht', hfollows⟩ := merging_command h hactive hm hpos hcommand
        rw [ht']
        cases o with
        | none =>
          cases hs
          exact ⟨t', rfl, hfollows.stop rfl⟩
        | some next => exact ih (hfollows.next next rfl) hs
    · rw [if_neg hpos] at hs ⊢
      cases hs
      have hidle : t.pending.Idle := hm.settled.resolve_right fun hwaiting => by
        obtain ⟨hlt, -⟩ := hwaiting.next
        exact hpos hlt
      exact ⟨t, rfl, merging_idle hm.registers hm.calls hm.separate hidle
        (hm.received_idle hidle), hidle⟩

/-- If every draw can be submitted by itself, `process` succeeds too, and what the receiver draws is
the same. Nothing is pending when `process` returns; on the way, draws are pending only before
padding and before a draw that joins them. -/
theorem merged_draws_same (h : sink.Receives memory) (hactive : b.active = some sink)
    (data : List UInt8) (bigEndian : Bool) (hs : s.pending.Idle) :
    (∀ fuel u,
      processFrom b (singleDraw (some sink)) data bigEndian fuel 0 s = some (.ok (), u) →
      ∃ t, process b data bigEndian fuel s = some (.ok (), t) ∧ t.registers = u.registers ∧
        t.calls = u.calls ∧ received t.submitted = received u.submitted) ∧
    (∃ r, process b data bigEndian (data.length + 1) s = some r ∧ r.2.pending.Idle) ∧
    ∀ pos t, Turns b data bigEndian s pos t → ¬ t.pending.Idle →
      pos < data.length ∧ (commandAt data pos = 0 ∨
        isDrawCmd (commandAt data pos) = true ∧ ∃ draw records,
          completeDraw t.registers.decoded.vertex (commandAt data pos) data (pos + 1) bigEndian =
            .ok (some (draw, records)) ∧
          t.pending.joined draw.primitive draw.format = true) := by
  refine ⟨fun fuel u hu => ?_, ?_, fun pos t hturns hpending => ?_⟩
  · have hstart : Merging (some sink) data bigEndian 0 s s := merging_idle rfl rfl hs hs rfl
    obtain ⟨t, ht, hm, hidle⟩ := merging_run h hactive hstart hu
    exact ⟨t, ht, hm.registers, hm.calls, (hm.received_idle hidle).symm⟩
  · obtain ⟨r, hr, last, t, hturns, hends⟩ :=
      processFrom_ends hs (show data.length < 0 + (data.length + 1) by omega)
        (Turns.start (b := b) (s := s))
    obtain ⟨-, hsettled, -⟩ := hturns.settled hs
    exact ⟨r, hr, (hends.outcome hsettled).2.2⟩
  · obtain ⟨-, hsettled, -⟩ := hturns.settled hs
    obtain ⟨hpos, ⟨hzero, -⟩ | ⟨hdraw, draw, records, hcomplete, htriangles, hcontinues⟩⟩ :=
      (hsettled.resolve_left hpending).next
    · refine ⟨hpos, Or.inl ?_⟩
      rw [commandAt_eq hpos, hzero]
      rfl
    · rw [commandAt_eq hpos]
      refine ⟨hpos, Or.inr ⟨hdraw, draw, records, hcomplete, ?_⟩⟩
      obtain ⟨hsome, hformat, -⟩ := hcontinues.resolve_left hpending
      rw [PendingDraws.joined, List.isEmpty_eq_false_iff.2 hsome, htriangles, hformat]
      exact beq_self_eq_true draw.format

/-- A receiver of anything, with arrays of zeros. -/
def zeroSink : DrawSink where
  resolve _ _ _ length := .ok (List.replicate length 0)
  submit _ _ := .ok ()

theorem zeroSink_receives : zeroSink.Receives fun _ _ _ => 0 where
  accepts _ _ := rfl
  resolves attr array offset length _ _ := by
    refine ⟨[], congrArg Except.ok ?_⟩
    rw [List.append_nil, Overlay.load, List.map_const', List.length_range]

/-- Positions of two bytes in the records, and two triangles. -/
def twoTriangles : List UInt8 :=
  [0x08, 0x50, 0x00, 0x00, 0x02, 0x00, 0x90, 0x00, 0x03, 1, 2, 3, 4, 5, 6, 0x00,
    0x90, 0x00, 0x03, 7, 8, 9, 10, 11, 12]

/-- A receiver of anything, with arrays that count their bytes. -/
def countingSink : DrawSink where
  resolve _ _ offset length := .ok ((List.range length).map fun i => .ofNat (offset + i))
  submit _ _ := .ok ()

theorem countingSink_receives : countingSink.Receives fun _ _ i => .ofNat i where
  accepts _ _ := rfl
  resolves attr array offset length _ _ := by
    refine ⟨[], congrArg Except.ok ?_⟩
    rw [List.append_nil, Overlay.load]

/-- An array of positions, of two bytes each. -/
def indexedState : FifoState :=
  let s := FifoState.reset ⟨640, 528, 640, 528⟩ false
  { s with registers := { s.registers with decoded := { s.registers.decoded with
      vertex := { s.registers.decoded.vertex with arrays := fun _ => ⟨4096, 64, 2, true⟩ } } } }

/-- Indexed positions: a quad, padding, a strip and a fan, a register, a triangle, and a line. -/
def mixedDraws : List UInt8 :=
  [0x08, 0x50, 0x00, 0x00, 0x04, 0x00, 0x80, 0x00, 0x04, 1, 2, 3, 4, 0x00,
    0x98, 0x00, 0x04, 9, 8, 7, 6, 0xa0, 0x00, 0x03, 10, 11, 12, 0x61, 0x41, 0x00, 0x00, 0x01,
    0x90, 0x00, 0x03, 1, 2, 3, 0xa8, 0x00, 0x02, 4, 5]

/-- The quad, the strip and the fan are one submission. -/
theorem merged_draws_same_mixed : ∃ t u,
    process ⟨someCodes, fun _ => 0, some countingSink⟩ mixedDraws true 9 indexedState =
        some (.ok (), t) ∧
      processFrom ⟨someCodes, fun _ => 0, some countingSink⟩ (singleDraw (some countingSink))
        mixedDraws true 9 0 indexedState = some (.ok (), u) ∧
      t.submitted.length = 3 ∧ u.submitted.length = 5 ∧
      received t.submitted = received u.submitted := by
  have hsame := merged_draws_same (b := ⟨someCodes, fun _ => 0, some countingSink⟩)
    countingSink_receives rfl mixedDraws true (s := indexedState) ⟨rfl, rfl, rfl⟩
  obtain ⟨t, ht, -, -, hreceived⟩ := hsame.1 9 _ rfl
  have hrun : process ⟨someCodes, fun _ => 0, some countingSink⟩ mixedDraws true 9 indexedState =
      some _ := rfl
  obtain ⟨-, rfl⟩ := Prod.mk.inj (Option.some.inj (ht.symm.trans hrun))
  exact ⟨_, _, hrun, rfl, rfl, rfl, hreceived⟩

end Gx
