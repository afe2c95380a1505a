import MkwiiPs5.Gx.CommandBounds
import MkwiiPs5.Gx.GeometryDecoding

/-!
# Groups of draws

Draws are pending only while the next command, after padding, is a complete draw of triangles in their
format. So their layout stays that of the registers, and nothing that is incomplete joins them.
-/

namespace Gx

open Bytes (slice number)

variable {data : List UInt8} {pos format stride command : ℕ} {bigEndian : Bool} {s : FifoState}

/-! ### Opcodes -/

theorem and_opcode (h : command < 256) : command &&& CP_OPCODE_MASK = command / 8 * 8 := by
  have hall : ∀ command < 256, command &&& CP_OPCODE_MASK = command / 8 * 8 := by decide +kernel
  exact hall command h

theorem isDrawCmd_iff : isDrawCmd command = true ↔ 0x80 ≤ command ∧ command ≤ 0xbf := by
  rw [isDrawCmd, Bool.and_eq_true, decide_eq_true_eq, decide_eq_true_eq]
  rfl

/-- Every draw has a primitive; those up to 0xa7 are made of triangles. -/
theorem primitiveFromCommand_draw (h : isDrawCmd command = true) :
    ∃ primitive, primitiveFromCommand command = .ok primitive ∧
      (command < 0xa8 → primitive.triangleClass = true) := by
  rw [isDrawCmd_iff] at h
  have hopcode : command &&& 0xf8 = command / 8 * 8 := and_opcode (by omega)
  rw [primitiveFromCommand, hopcode]
  obtain hop | hop | hop | hop | hop | hop | hop | hop : command / 8 = 16 ∨ command / 8 = 17 ∨
    command / 8 = 18 ∨ command / 8 = 19 ∨ command / 8 = 20 ∨ command / 8 = 21 ∨
    command / 8 = 22 ∨ command / 8 = 23 := by omega
  all_goals
    rw [hop]
    refine ⟨_, rfl, fun hlt => ?_⟩
    first
    | rfl
    | omega

theorem not_isRegisterCmd (h : isDrawCmd command = true) :
    isRegisterCmd (command &&& CP_OPCODE_MASK) = false := by
  rw [isDrawCmd_iff] at h
  have hopcode : command &&& CP_OPCODE_MASK = command / 8 * 8 := and_opcode (by omega)
  have hall : ∀ n < 24, 16 ≤ n → isRegisterCmd (n * 8) = false := by decide
  rw [hopcode]
  exact hall _ (by omega) (by omega)

theorem ne_aurora (codes : AuroraCodes) (h : isDrawCmd command = true) :
    command &&& CP_OPCODE_MASK ≠ codes.load := by
  have hload := codes.load_lt
  rw [isDrawCmd_iff] at h
  rw [and_opcode (by omega)]
  omega

/-! ### The next draw -/

theorem readU8_ok (h : pos < data.length) : readU8 data pos = .ok data[pos].toNat := by
  rw [readU8, readUint_ok h, slice, List.drop_eq_getElem_cons h, List.take_succ_cons, List.take_zero,
    Bytes.number_singleton]

theorem skipPadding_zero (h : pos < data.length) (hzero : data[pos] = 0) :
    skipPadding data pos = skipPadding data (pos + 1) := by
  rw [skipPadding, skipPadding, List.drop_eq_getElem_cons h, List.takeWhile_cons, hzero]
  simp only [beq_self_eq_true, if_true, List.length_cons]
  omega

theorem skipPadding_ne (h : pos < data.length) (hne : data[pos] ≠ 0) :
    skipPadding data pos = pos := by
  rw [skipPadding, List.drop_eq_getElem_cons h, List.takeWhile_cons, if_neg (by simpa using hne)]
  rfl

/-- At the operands of a complete draw of triangles. -/
structure CompleteDraw (data : List UInt8) (pos : ℕ) (bigEndian : Bool) (format stride command : ℕ) :
    Prop where
  draw : isDrawCmd command = true
  triangles : command < 0xa8
  format : command &&& 7 = format
  header : pos + 2 ≤ data.length
  records : pos + 2 + number (!bigEndian) (slice data pos 2) * stride ≤ data.length

theorem nextDrawJoins_total (data : List UInt8) (pos : ℕ) (bigEndian : Bool) (format stride : ℕ) :
    ∃ joins, nextDrawJoins data pos bigEndian format stride = .ok joins := by
  rw [nextDrawJoins]
  dsimp only
  split
  · exact ⟨_, rfl⟩
  · next hroom =>
    rw [readU8, readUint_ok (by omega), readU16, readUint_ok (by omega)]
    change ∃ joins, @ite _ _ _ _ _ = _
    split
    · exact ⟨_, rfl⟩
    · exact ⟨_, rfl⟩

/-- The draw that joins is the next command, or comes after padding. -/
theorem nextDrawJoins_cases (h : nextDrawJoins data pos bigEndian format stride = .ok true) :
    ∃ hpos : pos < data.length,
      data[pos] = 0 ∧ nextDrawJoins data (pos + 1) bigEndian format stride = .ok true ∨
      CompleteDraw data (pos + 1) bigEndian format stride data[pos].toNat := by
  have hpos : pos < data.length := by
    by_contra hend
    rw [nextDrawJoins] at h
    dsimp only at h
    rw [if_pos (Or.inl (by rw [skipPadding]; omega))] at h
    cases h
  refine ⟨hpos, ?_⟩
  by_cases hzero : data[pos] = 0
  · refine Or.inl ⟨hzero, ?_⟩
    rw [nextDrawJoins, skipPadding_zero hpos hzero] at h
    exact h
  · refine Or.inr ?_
    rw [nextDrawJoins, skipPadding_ne hpos hzero, readU8_ok hpos] at h
    dsimp only at h
    split at h
    · cases h
    · next hroom =>
      rw [readU16, readUint_ok (by omega)] at h
      change (if _ then _ else _) = _ at h
      split at h
      · cases h
      · next hcommand =>
        have hjoins := of_decide_eq_true (Except.ok.inj h)
        have hopcode : data[pos].toNat &&& 0xf8 = data[pos].toNat / 8 * 8 :=
          and_opcode data[pos].toNat_lt
        rw [hopcode] at hcommand
        simp only [not_or, not_lt, not_not] at hcommand
        have hlt := data[pos].toNat_lt
        exact ⟨isDrawCmd_iff.2 (by omega), by omega, hcommand.2.2, by omega, by omega⟩

/-! ### Headers -/

theorem attributeFormat_inside (attr : ℕ) (f : VtxAttrFmt) (dst : AttributeLayout) :
    Loop.Post (attributeFormat attr f dst) (fun _ => True) (· ≠ Fault.outOfBounds) := by
  rw [attributeFormat]
  split
  · exact (require_post _ _).bind fun _ _ => trivial
  split
  · exact (require_post _ _).bind fun _ _ => trivial
  refine (require_post _ _).bind fun _ _ => ?_
  dsimp only
  split
  · exact (require_post _ _).bind fun _ _ => trivial
  split
  · exact (require_post _ _).bind fun _ _ => trivial
  · exact (require_post _ _).bind fun _ _ => trivial

theorem build_inside (v : VertexState) (format : ℕ) :
    Loop.Post (VertexLayout.build v format) (fun _ => True) (· ≠ Fault.outOfBounds) := by
  refine (require_post _ _).bind fun _ _ => Loop.foldlM_post (fun _ => True) trivial
    fun attr _ layout _ => Loop.Post.bind (Q := fun _ => True) ?_ fun _ _ => trivial
  rw [attributeLayout]
  dsimp only
  split
  · trivial
  · refine (require_post _ _).bind fun _ _ => (attributeFormat_inside _ _ _).bind fun _ _ => ?_
    split
    · trivial
    · trivial

/-- What a draw is by itself: its layout is that of the registers. -/
def drawHeader (v : VertexState) (command : ℕ) (data : List UInt8) (pos : ℕ) (bigEndian : Bool) :
    Except Fault DrawHeader := do
  let primitive ← primitiveFromCommand command
  let count ← readU16 data pos bigEndian
  let layout ← VertexLayout.build v (command &&& 7)
  pure ⟨primitive, command &&& 7, count, layout⟩

/-- The draws that are pending, if any, have the layout of the registers. -/
def FifoState.Fits (s : FifoState) : Prop :=
  s.pending.segments ≠ [] →
    VertexLayout.build s.registers.decoded.vertex s.pending.format = .ok s.pending.layout

theorem readDrawHeader_eq (h : s.Fits) : readDrawHeader command data pos bigEndian s =
    drawHeader s.registers.decoded.vertex command data pos bigEndian := by
  refine Loop.bind_congr fun primitive _ => Loop.bind_congr fun count _ => ?_
  split
  · next hjoined =>
    rw [PendingDraws.joined, Bool.and_eq_true, Bool.and_eq_true, beq_iff_eq] at hjoined
    have hsome : s.pending.segments ≠ [] := by
      rintro hnil
      rw [hnil] at hjoined
      exact Bool.noConfusion hjoined.1.1
    rw [← hjoined.2, h hsome]
    rfl
  · rfl

/-- A draw as its command says, with the layout of the registers. -/
structure DrawHeader.Read (v : VertexState) (command : ℕ) (data : List UInt8) (pos : ℕ)
    (bigEndian : Bool) (draw : DrawHeader) : Prop where
  primitive : primitiveFromCommand command = .ok draw.primitive
  format : draw.format = command &&& 7
  count : draw.count = number (!bigEndian) (slice data pos 2)
  count_lt : draw.count < 2 ^ 16
  layout : VertexLayout.build v draw.format = .ok draw.layout

theorem drawHeader_read {v : VertexState} {draw : DrawHeader} (hpos : pos + 2 ≤ data.length)
    (h : drawHeader v command data pos bigEndian = .ok draw) :
    draw.Read v command data pos bigEndian := by
  obtain ⟨primitive, hprimitive, h⟩ := Loop.bind_eq_ok.1 h
  obtain ⟨count, hcount, h⟩ := Loop.bind_eq_ok.1 h
  rw [readU16, readUint_ok hpos] at hcount
  obtain rfl := Except.ok.inj hcount
  obtain ⟨layout, hlayout, h⟩ := Loop.bind_eq_ok.1 h
  obtain rfl := Except.ok.inj h
  refine ⟨hprimitive, rfl, rfl, ?_, hlayout⟩
  have hlt := Bytes.number_lt (!bigEndian) (slice data pos 2)
  rwa [Bytes.length_slice hpos] at hlt

theorem drawHeader_inside {v : VertexState} (hdraw : isDrawCmd command = true)
    (hpos : pos + 2 ≤ data.length) :
    Loop.Post (drawHeader v command data pos bigEndian) (fun _ => True)
      (· ≠ Fault.outOfBounds) := by
  obtain ⟨primitive, hprimitive, -⟩ := primitiveFromCommand_draw hdraw
  rw [drawHeader, hprimitive, readU16, readUint_ok hpos]
  exact (build_inside _ _).bind fun _ _ => trivial

/-! ### Submissions -/

/-- What was submitted is all that changes. -/
structure Submits (s : FifoState) (r : Attempt Fault FifoState Unit) : Prop where
  inside : r.1 ≠ .error .outOfBounds
  frame : ∃ more, r.2 = { s with submitted := s.submitted ++ more }

theorem Submits.none (s : FifoState) : Submits s (.ok (), s) :=
  ⟨(by cases ·), [], by rw [List.append_nil]⟩

theorem resolveGxArray_inside (active : Option DrawSink) (attr : ℕ) (array : AttrArray)
    (offset bytes : ℕ) :
    resolveGxArray active attr array offset bytes ≠ .error .outOfBounds := by
  refine Loop.Post.ne_error (Q := fun _ => True) ?_
  cases active with
  | none => exact (by cases ·)
  | some sink =>
    refine (require_post _ _).bind fun _ _ => Loop.Post.bind (Q := fun _ => True) ?_ fun _ _ =>
      (require_post _ _).bind fun _ _ => trivial
    cases sink.resolve attr array offset bytes with
    | ok range => trivial
    | error why => exact (by cases ·)

theorem submitGxGeometry_submits (active : Option DrawSink) (packet : Geometry) (s : FifoState) :
    Submits s (submitGxGeometry active packet s) := by
  cases active with
  | none => exact ⟨(by cases ·), [], by rw [submitGxGeometry, List.append_nil]⟩
  | some sink =>
    refine ⟨fun h => ?_, _, rfl⟩
    rw [submitGxGeometry] at h
    cases hsubmit : sink.submit s.submitted ⟨packet, s.registers.decoded⟩ with
    | ok accepted =>
      rw [hsubmit] at h
      cases h
    | error why =>
      rw [hsubmit] at h
      cases h

theorem submitPacket_submits (active : Option DrawSink) {packet : Except Fault Geometry}
    (h : packet ≠ .error .outOfBounds) (s : FifoState) :
    Submits s (submitPacket active packet s) := by
  cases packet with
  | error fault =>
    refine ⟨fun hfault => h ?_, [], by rw [submitPacket, List.append_nil]⟩
    exact congrArg Except.error (Except.error.inj hfault)
  | ok packet =>
    rw [submitPacket]
    split
    · exact .none s
    · exact submitGxGeometry_submits active packet s

theorem submitDraw_submits (active : Option DrawSink) {layout : VertexLayout} {count : ℕ}
    (hlayout : VertexLayout.build s.registers.decoded.vertex format = .ok layout)
    (hcount : count < 2 ^ 16) (primitive : Primitive) (records : List UInt8) :
    Submits s (submitDraw active layout primitive count records s) := by
  rw [submitDraw]
  split_ifs
  · exact .none s
  · exact .none s
  · exact submitPacket_submits active (snapshot_inside (build_laidOut hlayout) hcount
      fun _ _ _ _ => resolveGxArray_inside _ _ _ _ _) s

theorem submitGroup_submits (active : Option DrawSink) {pending : PendingDraws}
    (hlayout : pending.segments ≠ [] →
      VertexLayout.build s.registers.decoded.vertex pending.format = .ok pending.layout)
    (hcount : ∀ segment ∈ pending.segments, segment.count < 2 ^ 16) :
    Submits s (submitGroup active pending s) := by
  rw [submitGroup]
  split
  · exact .none s
  · next segment hone =>
    rw [hone] at hlayout hcount
    exact submitDraw_submits active (hlayout (List.cons_ne_nil _ _))
      (hcount segment List.mem_cons_self) _ _
  · next hnone _ =>
    split
    · exact .none s
    · exact submitPacket_submits active (snapshotSegments_inside (build_laidOut (hlayout hnone))
        fun _ _ _ _ => resolveGxArray_inside _ _ _ _ _) s

/-! ### Complete draws -/

/-- A draw and its records; `none` when a part of it is missing. -/
def completeDraw (v : VertexState) (command : ℕ) (data : List UInt8) (pos : ℕ) (bigEndian : Bool) :
    Except Fault (Option (DrawHeader × List UInt8)) :=
  if data.length < pos + 2 then pure none
  else do
    let draw ← drawHeader v command data pos bigEndian
    if data.length < pos + 2 + draw.count * draw.layout.stride then pure none
    else pure (some (draw, slice data (pos + 2) (draw.count * draw.layout.stride)))

/-- The handler gets the draws that are complete. -/
theorem readDraw_eq (handler : DrawHandler) (h : s.Fits) :
    readDraw handler command data pos bigEndian s =
      match completeDraw s.registers.decoded.vertex command data pos bigEndian with
      | .error e => (.error e, s)
      | .ok none => (.ok none, s)
      | .ok (some (draw, records)) =>
        handler (pos + 2 + draw.count * draw.layout.stride) draw records s := by
  rw [readDraw, completeDraw, readDrawHeader_eq h]
  by_cases hpos : data.length < pos + 2
  · rw [if_pos (by omega), if_pos hpos]
    rfl
  · rw [if_neg (by omega), if_neg hpos]
    cases drawHeader s.registers.decoded.vertex command data pos bigEndian with
    | error e => rfl
    | ok draw =>
      dsimp only [bind, Except.bind]
      by_cases hrecords : data.length < pos + 2 + draw.count * draw.layout.stride
      · rw [if_pos (by omega), if_pos hrecords]
        rfl
      · rw [if_neg (by omega), if_neg hrecords, readBytes, if_pos (by omega)]
        rfl

theorem completeDraw_read {v : VertexState} {draw : DrawHeader} {records : List UInt8}
    (h : completeDraw v command data pos bigEndian = .ok (some (draw, records))) :
    draw.Read v command data pos bigEndian ∧
      pos + 2 + draw.count * draw.layout.stride ≤ data.length ∧
      records = slice data (pos + 2) (draw.count * draw.layout.stride) := by
  rw [completeDraw] at h
  split at h
  · cases h
  · next hpos =>
    obtain ⟨draw', hdraw, h⟩ := Loop.bind_eq_ok.1 h
    split at h
    · cases h
    · next hrecords =>
      obtain ⟨rfl, rfl⟩ := Prod.mk.inj (Option.some.inj (Except.ok.inj h))
      exact ⟨drawHeader_read (Nat.le_of_not_lt hpos) hdraw, Nat.le_of_not_lt hrecords, rfl⟩

theorem completeDraw_inside (v : VertexState) (data : List UInt8) (pos : ℕ) (bigEndian : Bool)
    (hdraw : isDrawCmd command = true) :
    completeDraw v command data pos bigEndian ≠ .error .outOfBounds := by
  refine Loop.Post.ne_error (Q := fun _ => True) ?_
  rw [completeDraw]
  split
  · trivial
  · next hpos =>
    refine (drawHeader_inside hdraw (Nat.le_of_not_lt hpos)).bind fun draw _ => ?_
    split
    · trivial
    · trivial

/-- A draw that was seen to be complete is one, if it has the layout that was looked for. -/
theorem CompleteDraw.complete {v : VertexState} {layout : VertexLayout}
    (h : CompleteDraw data pos bigEndian format layout.stride command)
    (hlayout : VertexLayout.build v format = .ok layout) :
    ∃ draw records,
      completeDraw v command data pos bigEndian = .ok (some (draw, records)) ∧
        draw.primitive.triangleClass = true ∧ draw.format = format ∧ draw.layout = layout := by
  obtain ⟨primitive, hprimitive, htriangles⟩ := primitiveFromCommand_draw h.draw
  have hheader : drawHeader v command data pos bigEndian = .ok ⟨primitive, command &&& 7,
      number (!bigEndian) (slice data pos 2), layout⟩ := by
    rw [drawHeader, hprimitive, readU16, readUint_ok h.header, h.format, hlayout]
    rfl
  rw [completeDraw, hheader, if_neg (Nat.not_lt.2 h.header)]
  change ∃ draw records, @ite _ _ _ _ _ = _ ∧ _
  rw [if_neg (Nat.not_lt.2 h.records)]
  exact ⟨_, _, rfl, htriangles h.triangles, h.format, rfl⟩

/-! ### Waiting for a draw -/

/-- Nothing is pending. -/
def PendingDraws.Idle (p : PendingDraws) : Prop :=
  p.records = [] ∧ p.segments = [] ∧ p.vertices = 0

theorem PendingDraws.clear_idle (p : PendingDraws) : p.clear.Idle := ⟨rfl, rfl, rfl⟩

/-- The draws that are pending wait for the one that comes next, or after padding. -/
structure Waiting (data : List UInt8) (bigEndian : Bool) (pos : ℕ) (s : FifoState) : Prop where
  segments : s.pending.segments ≠ []
  layout : VertexLayout.build s.registers.decoded.vertex s.pending.format = .ok s.pending.layout
  counts : ∀ segment ∈ s.pending.segments, segment.count < 2 ^ 16
  joins : nextDrawJoins data pos bigEndian s.pending.format s.pending.layout.stride = .ok true

/-- Before a command. -/
def Settled (data : List UInt8) (bigEndian : Bool) (pos : ℕ) (s : FifoState) : Prop :=
  s.pending.Idle ∨ Waiting data bigEndian pos s

theorem Settled.fits (h : Settled data bigEndian pos s) : s.Fits := by
  rcases h with hidle | hwaiting
  · exact fun hsome => absurd hidle.2.1 hsome
  · exact fun _ => hwaiting.layout

/-- A draw that may join: nothing is pending, or it continues what is. -/
def FifoState.Continues (s : FifoState) (draw : DrawHeader) : Prop :=
  s.pending.Idle ∨ s.pending.segments ≠ [] ∧ s.pending.format = draw.format ∧
    s.pending.layout = draw.layout ∧ (∀ segment ∈ s.pending.segments, segment.count < 2 ^ 16)

theorem FifoState.Continues.push {draw : DrawHeader} (h : s.Continues draw) (records : List UInt8) :
    (s.pending.push draw records).format = draw.format ∧
      (s.pending.push draw records).layout = draw.layout := by
  rw [PendingDraws.push]
  dsimp only
  rcases h with hidle | ⟨hsome, hformat, hlayout, -⟩
  · rw [hidle.2.1]
    exact ⟨rfl, rfl⟩
  · rw [List.isEmpty_eq_false_iff.2 hsome]
    exact ⟨hformat, hlayout⟩

theorem FifoState.Continues.counts {draw : DrawHeader} (h : s.Continues draw)
    (hcount : draw.count < 2 ^ 16) (records : List UInt8) :
    ∀ segment ∈ (s.pending.push draw records).segments, segment.count < 2 ^ 16 := by
  intro segment hsegment
  rcases List.mem_append.1 hsegment with hold | hnew
  · rcases h with hidle | ⟨-, -, -, hcounts⟩
    · rw [hidle.2.1] at hold
      cases hold
    · exact hcounts segment hold
  · rw [List.mem_singleton.1 hnew]
    exact hcount

theorem waits_total (data : List UInt8) (pos : ℕ) (bigEndian : Bool) (draw : DrawHeader)
    (p : PendingDraws) : ∃ wait, waits data pos bigEndian draw p = .ok wait ∧
      (wait = true → p.vertices ≤ 0xffff * 64 ∧
        nextDrawJoins data pos bigEndian draw.format draw.layout.stride = .ok true) := by
  obtain ⟨joins, hjoins⟩ :=
    nextDrawJoins_total data pos bigEndian draw.format draw.layout.stride
  rw [waits]
  split
  · next hroom => exact ⟨joins, hjoins, fun htrue => ⟨hroom.2, by rw [hjoins, htrue]⟩⟩
  · exact ⟨false, rfl, (by cases ·)⟩

/-! ### The turn of a draw -/

/-- A turn that ends at `next`, or throws with nothing pending; it leaves the registers alone. -/
structure DrawTurn (data : List UInt8) (bigEndian : Bool) (next : ℕ) (s : FifoState)
    (r : Attempt Fault FifoState (Option ℕ)) : Prop where
  inside : r.1 ≠ .error .outOfBounds
  frame : ∃ pending more,
    r.2 = { s with pending := pending, submitted := s.submitted ++ more }
  outcome : r.2.pending.Idle ∧ (∃ e, r.1 = .error e) ∨
    r.1 = .ok (some next) ∧ Settled data bigEndian next r.2

theorem singleDraw_turn (active : Option DrawSink) {next : ℕ} {draw : DrawHeader}
    (hread : draw.Read s.registers.decoded.vertex command data pos bigEndian)
    (hidle : s.pending.Idle) (records : List UInt8) :
    DrawTurn data bigEndian next s (singleDraw active next draw records s) := by
  obtain ⟨hinside, more, hframe⟩ :=
    submitDraw_submits active hread.layout hread.count_lt draw.primitive records
  rw [singleDraw]
  generalize submitDraw active draw.layout draw.primitive draw.count records s = r
    at hinside hframe
  obtain ⟨result, t⟩ := r
  obtain rfl := hframe
  cases result with
  | error e =>
    refine ⟨fun h => hinside ?_, ⟨s.pending, more, rfl⟩, Or.inl ⟨hidle, e, rfl⟩⟩
    exact congrArg Except.error (Except.error.inj h)
  | ok done =>
    exact ⟨(by cases ·), ⟨s.pending, more, rfl⟩, Or.inr ⟨rfl, Or.inl hidle⟩⟩

theorem gatherDraw_turn (active : Option DrawSink) {next : ℕ} {draw : DrawHeader}
    (hread : draw.Read s.registers.decoded.vertex command data pos bigEndian)
    (hcontinues : s.Continues draw) (records : List UInt8) :
    DrawTurn data bigEndian next s (gatherDraw active data next bigEndian draw records s) := by
  obtain ⟨hformat, hlayout⟩ := hcontinues.push records
  have hcounts := hcontinues.counts hread.count_lt records
  obtain ⟨wait, hwait, hjoins⟩ :=
    waits_total data next bigEndian draw (s.pending.push draw records)
  have hbuild : VertexLayout.build s.registers.decoded.vertex
      (s.pending.push draw records).format = .ok (s.pending.push draw records).layout := by
    rw [hformat, hlayout, hread.layout]
  rw [gatherDraw]
  dsimp only
  rw [hwait]
  cases wait with
  | true =>
    refine ⟨(by cases ·), ⟨s.pending.push draw records, [], by rw [List.append_nil]⟩,
      Or.inr ⟨rfl, Or.inr ⟨?_, hbuild, hcounts, ?_⟩⟩⟩
    · exact List.append_ne_nil_of_right_ne_nil _ (List.cons_ne_nil _ _)
    · rw [hformat, hlayout]
      exact (hjoins rfl).2
  | false =>
    obtain ⟨hinside, more, hframe⟩ := submitGroup_submits active
      (s := { s with pending := s.pending.push draw records }) (fun _ => hbuild) hcounts
    dsimp only [submitPending]
    generalize submitGroup active (s.pending.push draw records)
      { s with pending := s.pending.push draw records } = r at hinside hframe
    obtain ⟨result, t⟩ := r
    obtain rfl := hframe
    cases result with
    | error e =>
      refine ⟨fun h => hinside ?_, ⟨_, more, rfl⟩, Or.inl ⟨PendingDraws.clear_idle _, e, rfl⟩⟩
      exact congrArg Except.error (Except.error.inj h)
    | ok done =>
      exact ⟨(by cases ·), ⟨_, more, rfl⟩, Or.inr ⟨rfl, Or.inl (PendingDraws.clear_idle _)⟩⟩

theorem handleDraw_turn (active : Option DrawSink) (next : ℕ) {draw : DrawHeader}
    (hread : draw.Read s.registers.decoded.vertex command data pos bigEndian)
    (hcontinues : s.Continues draw)
    (htriangles : s.pending.segments ≠ [] → draw.primitive.triangleClass = true)
    (records : List UInt8) :
    DrawTurn data bigEndian next s (handleDraw active data bigEndian next draw records s) := by
  rw [handleDraw]
  split
  · exact gatherDraw_turn active hread hcontinues records
  · next hsingle =>
    refine singleDraw_turn active hread (hcontinues.resolve_right fun h => ?_) records
    exact hsingle (htriangles h.1)

/-- After padding, the draws that are pending still wait; a draw is one that continues them. -/
theorem Waiting.next (h : Waiting data bigEndian pos s) :
    ∃ hpos : pos < data.length,
      data[pos] = 0 ∧ Waiting data bigEndian (pos + 1) s ∨
      isDrawCmd data[pos].toNat = true ∧ ∃ draw records,
        completeDraw s.registers.decoded.vertex data[pos].toNat data (pos + 1) bigEndian =
            .ok (some (draw, records)) ∧
          draw.primitive.triangleClass = true ∧ s.Continues draw := by
  obtain ⟨hpos, hcases⟩ := nextDrawJoins_cases h.joins
  refine ⟨hpos, hcases.imp (fun hzero => ⟨hzero.1, { h with joins := hzero.2 }⟩)
    fun hdraw => ⟨hdraw.draw, ?_⟩⟩
  obtain ⟨draw, records, hcomplete, htriangles, hformat, hlayout⟩ := hdraw.complete h.layout
  exact ⟨draw, records, hcomplete, htriangles,
    Or.inr ⟨h.segments, hformat.symm, hlayout.symm, h.counts⟩⟩

end Gx
