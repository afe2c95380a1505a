import MkwiiPs5.Gx.DrawGroups

/-!
# The dispatcher is safe

Whatever the bytes are: the position stays in the data and grows with every command, the arrays of the
registers keep what is beyond them, and a command of which a part is missing has no effect.
-/

namespace Gx

open Bytes (slice number)

variable {b : Backend} {data : List UInt8} {pos : ℕ} {bigEndian : Bool} {s : FifoState}

/-- The byte of the command at a position. -/
def commandAt (data : List UInt8) (pos : ℕ) : ℕ := (data.getD pos 0).toNat

theorem commandAt_eq (hpos : pos < data.length) : commandAt data pos = data[pos].toNat := by
  rw [commandAt, List.getD_eq_getElem data 0 hpos]

/-! ### Kinds of commands -/

variable {handler : DrawHandler}

theorem command_register (hpos : pos < data.length)
    (h : isRegisterCmd (commandAt data pos &&& CP_OPCODE_MASK) = true) :
    command b handler data bigEndian pos s =
      s.afterRegisters (registerCommand data (pos + 1) bigEndian s.registers b.host
        (commandAt data pos &&& CP_OPCODE_MASK)) := by
  rw [command, readU8_ok hpos, ← commandAt_eq hpos]
  dsimp only
  rw [if_pos h]

theorem command_aurora (hpos : pos < data.length)
    (h : isRegisterCmd (commandAt data pos &&& CP_OPCODE_MASK) = false)
    (hload : commandAt data pos &&& CP_OPCODE_MASK = b.codes.load) :
    command b handler data bigEndian pos s =
      s.afterAurora (handleAurora data (pos + 1) bigEndian s.registers b.codes) := by
  rw [command, readU8_ok hpos, ← commandAt_eq hpos]
  dsimp only
  rw [if_neg (ne_true_of_eq_false h), if_pos hload]

theorem command_draw (hpos : pos < data.length) (h : isDrawCmd (commandAt data pos) = true) :
    command b handler data bigEndian pos s =
      readDraw handler (commandAt data pos) data (pos + 1) bigEndian s := by
  rw [command, readU8_ok hpos, ← commandAt_eq hpos]
  dsimp only
  rw [if_neg (ne_true_of_eq_false (not_isRegisterCmd h)), if_neg (ne_aurora b.codes h), if_pos h]

theorem forM_ok {α : Type} {f : α → Except Fault Unit} {l : List α} (h : ∀ a ∈ l, f a = .ok ()) :
    l.forM f = .ok () := by
  induction l with
  | nil => rfl
  | cons a l ih =>
    change (f a >>= fun _ => l.forM f) = .ok ()
    rw [h a List.mem_cons_self]
    exact ih fun a ha => h a (List.mem_cons_of_mem _ ha)

/-- The dump stays in the data, wherever it begins. -/
theorem hexDump_ok (data : List UInt8) (pos : ℕ) : hexDump data pos = .ok () := by
  rw [hexDump]
  refine forM_ok fun i hi => ?_
  obtain ⟨hle, hlt⟩ := List.mem_range'_1.1 hi
  have hin : i < data.length := by
    split_ifs at hle hlt <;> omega
  rw [readU8_ok hin]
  rfl

theorem command_unknown (hpos : pos < data.length)
    (h : isRegisterCmd (commandAt data pos &&& CP_OPCODE_MASK) = false)
    (hload : commandAt data pos &&& CP_OPCODE_MASK ≠ b.codes.load)
    (hdraw : isDrawCmd (commandAt data pos) = false) :
    command b handler data bigEndian pos s = (.ok (some (pos + 1)), s) := by
  rw [command, readU8_ok hpos, ← commandAt_eq hpos]
  dsimp only
  rw [if_neg (ne_true_of_eq_false h), if_neg hload, if_neg (ne_true_of_eq_false hdraw), hexDump_ok]
  rfl

theorem command_padding (hpos : pos < data.length) (hzero : data[pos] = 0) :
    command b handler data bigEndian pos s = (.ok (some (pos + 1)), s) := by
  have hcommand : commandAt data pos = 0 := by rw [commandAt_eq hpos, hzero]; rfl
  rw [command_register hpos (by rw [hcommand]; rfl), hcommand]
  rfl

/-! ### One turn -/

/-- What a turn of the loop may do. -/
structure CommandTurn (data : List UInt8) (bigEndian : Bool) (pos : ℕ) (s : FifoState)
    (r : Attempt Fault FifoState (Option ℕ)) : Prop where
  beyond : r.2.registers.beyond = s.registers.beyond
  /-- Only draws throw. -/
  thrown : ∀ e, r.1 = .error e → e ≠ .outOfBounds ∧ isDrawCmd (commandAt data pos) = true
  next : ∀ next, r.1 = .ok (some next) →
    pos < next ∧ next ≤ data.length ∧ Settled data bigEndian next r.2
  idle : (∀ next, r.1 ≠ .ok (some next)) → r.2.pending.Idle

theorem commandTurn_stop (hidle : s.pending.Idle) :
    CommandTurn data bigEndian pos s (.ok none, s) where
  beyond := rfl
  thrown e he := by cases he
  next next he := by cases he
  idle _ := hidle

theorem commandTurn_thrown {e : Fault} (he : e ≠ .outOfBounds)
    (hdraw : isDrawCmd (commandAt data pos) = true) (hidle : s.pending.Idle) :
    CommandTurn data bigEndian pos s (.error e, s) where
  beyond := rfl
  thrown e' he' := by
    obtain rfl := Except.error.inj he'
    exact ⟨he, hdraw⟩
  next next he := by cases he
  idle _ := hidle

theorem commandTurn_next {next : ℕ} {t : FifoState} (hbeyond : t.registers.beyond = s.registers.beyond)
    (hstart : pos < next) (hstop : next ≤ data.length) (hsettled : Settled data bigEndian next t) :
    CommandTurn data bigEndian pos s (.ok (some next), t) where
  beyond := hbeyond
  thrown e he := by cases he
  next next' he := by
    obtain rfl := Option.some.inj (Except.ok.inj he)
    exact ⟨hstart, hstop, hsettled⟩
  idle hno := absurd rfl (hno next)

theorem afterRegisters_turn {r : Except Fault (Option (ℕ × GXRegisterState))}
    (hidle : s.pending.Idle) (h : Safe (fun r => Within data (pos + 1) s.registers r.1 r.2) r) :
    CommandTurn data bigEndian pos s (s.afterRegisters r) := by
  match r, h with
  | .ok none, _ => exact commandTurn_stop hidle
  | .ok (some (next, registers)), h =>
    obtain ⟨hstart, hstop, hbeyond⟩ := h (next, registers) rfl
    exact commandTurn_next hbeyond hstart hstop (Or.inl hidle)

theorem afterAurora_turn {r : Except Fault (Option AuroraResult)} (hidle : s.pending.Idle)
    (h : Safe (fun r => Within data (pos + 1) s.registers r.next r.registers) r) :
    CommandTurn data bigEndian pos s (s.afterAurora r) := by
  match r, h with
  | .ok none, _ => exact commandTurn_stop hidle
  | .ok (some result), h =>
    obtain ⟨hstart, hstop, hbeyond⟩ := h result rfl
    exact commandTurn_next hbeyond hstart hstop (Or.inl hidle)

theorem DrawTurn.command {next : ℕ} {r : Attempt Fault FifoState (Option ℕ)}
    (h : DrawTurn data bigEndian next s r) (hdraw : isDrawCmd (commandAt data pos) = true)
    (hstart : pos < next) (hstop : next ≤ data.length) : CommandTurn data bigEndian pos s r := by
  obtain ⟨hinside, ⟨pending, more, hframe⟩, houtcome⟩ := h
  refine ⟨by rw [hframe], fun e he => ⟨?_, hdraw⟩, fun next' hnext => ?_, fun hno => ?_⟩
  · rintro rfl
    exact hinside he
  · rcases houtcome with ⟨-, e, he⟩ | ⟨hok, hsettled⟩
    · cases he.symm.trans hnext
    · obtain rfl := Option.some.inj (Except.ok.inj (hok.symm.trans hnext))
      exact ⟨hstart, hstop, hsettled⟩
  · rcases houtcome with ⟨hidle, -⟩ | ⟨hok, -⟩
    · exact hidle
    · exact absurd hok (hno next)

theorem command_turn (hpos : pos < data.length) (hs : Settled data bigEndian pos s) :
    CommandTurn data bigEndian pos s
      (command b (handleDraw b.active data bigEndian) data bigEndian pos s) := by
  have hfits := hs.fits
  rcases hs with hidle | hwaiting
  · cases hregister : isRegisterCmd (commandAt data pos &&& CP_OPCODE_MASK) with
    | true =>
      rw [command_register hpos hregister]
      exact afterRegisters_turn hidle (registerCommand_safe b.host _ hpos)
    | false =>
      by_cases hload : commandAt data pos &&& CP_OPCODE_MASK = b.codes.load
      · rw [command_aurora hpos hregister hload]
        exact afterAurora_turn hidle (handleAurora_safe b.codes hpos)
      · cases hdraw : isDrawCmd (commandAt data pos) with
        | false =>
          rw [command_unknown hpos hregister hload hdraw]
          exact commandTurn_next rfl (Nat.lt_succ_self pos) hpos (Or.inl hidle)
        | true =>
          rw [command_draw hpos hdraw, readDraw_eq _ hfits]
          have hinside := completeDraw_inside s.registers.decoded.vertex data (pos + 1) bigEndian
            hdraw
          match hcomplete : completeDraw s.registers.decoded.vertex (commandAt data pos) data
            (pos + 1) bigEndian with
          | .error e =>
            rw [hcomplete] at hinside
            exact commandTurn_thrown (fun he => hinside (congrArg Except.error he)) hdraw hidle
          | .ok none => exact commandTurn_stop hidle
          | .ok (some (draw, records)) =>
            obtain ⟨hread, hrecords, -⟩ := completeDraw_read hcomplete
            have hturn := handleDraw_turn b.active
              (pos + 1 + 2 + draw.count * draw.layout.stride) hread (Or.inl hidle)
              (fun hsome => absurd hidle.2.1 hsome) records
            exact hturn.command hdraw (by omega) hrecords
  · obtain ⟨_, ⟨hzero, hnext⟩ | ⟨hdraw, draw, records, hcomplete, htriangles, hcontinues⟩⟩ :=
      hwaiting.next
    · rw [command_padding hpos hzero]
      exact commandTurn_next rfl (Nat.lt_succ_self pos) hpos (Or.inr hnext)
    · rw [← commandAt_eq hpos] at hdraw hcomplete
      rw [command_draw hpos hdraw, readDraw_eq _ hfits, hcomplete]
      obtain ⟨hread, hrecords, -⟩ := completeDraw_read hcomplete
      have hturn := handleDraw_turn b.active
        (pos + 1 + 2 + draw.count * draw.layout.stride) hread hcontinues
        (fun _ => htriangles) records
      exact hturn.command hdraw (by omega) hrecords

/-! ### Operands -/

/-- Bytes of a vertex record in the format of a draw, none if it has no layout. -/
def drawStride (v : VertexState) (command : ℕ) : ℕ :=
  match VertexLayout.build v (command &&& 7) with
  | .ok layout => layout.stride
  | .error _ => 0

/-- Bytes of the operands of the command at `pos`; lengths and counts are read from the data, and
mean nothing where these end before. -/
def operandBytes (codes : AuroraCodes) (v : VertexState) (data : List UInt8) (pos : ℕ)
    (bigEndian : Bool) : ℕ :=
  let field := fun offset n => number (!bigEndian) (slice data (pos + 1 + offset) n)
  let opcode := commandAt data pos &&& CP_OPCODE_MASK
  if isRegisterCmd opcode then registerBytes opcode (field 0 4)
  else if opcode = codes.load then 2 + auroraBytes codes (field 0 2) (field 2 2)
  else if isDrawCmd (commandAt data pos) then
    2 + field 0 2 * drawStride v (commandAt data pos)
  else 0

/-- A command of which a part is missing. -/
def Truncated (codes : AuroraCodes) (v : VertexState) (data : List UInt8) (pos : ℕ)
    (bigEndian : Bool) : Prop :=
  data.length < pos + 1 + operandBytes codes v data pos bigEndian

theorem completeDraw_missing {v : VertexState} {cmd : ℕ} (hdraw : isDrawCmd cmd = true)
    (h : data.length < pos + (2 + number (!bigEndian) (slice data pos 2) * drawStride v cmd)) :
    completeDraw v cmd data pos bigEndian = .ok none := by
  obtain ⟨primitive, hprimitive, -⟩ := primitiveFromCommand_draw hdraw
  rw [completeDraw]
  split
  · rfl
  · next hpos =>
    rw [drawStride] at h
    rw [drawHeader, hprimitive, readU16, readUint_ok (by omega)]
    cases hlayout : VertexLayout.build v (cmd &&& 7) with
    | error e =>
      rw [hlayout] at h
      dsimp only at h
      omega
    | ok layout =>
      rw [hlayout] at h
      change @ite _ _ _ _ _ = _
      rw [if_pos (by rw [Nat.add_assoc]; exact h)]
      rfl

/-- What is truncated has no effect; at most it ends the data. -/
theorem command_truncated (handler : DrawHandler) (hpos : pos < data.length) (hs : Settled data bigEndian pos s)
    (h : Truncated b.codes s.registers.decoded.vertex data pos bigEndian) :
    command b handler data bigEndian pos s = (.ok none, s) ∨
      command b handler data bigEndian pos s = (.ok (some data.length), s) := by
  rw [Truncated, operandBytes] at h
  dsimp only at h
  cases hregister : isRegisterCmd (commandAt data pos &&& CP_OPCODE_MASK) with
  | true =>
    rw [if_pos hregister] at h
    rw [command_register hpos hregister]
    rcases registerCommand_missing hpos h with hmissing | hmissing
    · exact Or.inl (by rw [hmissing]; rfl)
    · exact Or.inr (by rw [hmissing]; rfl)
  | false =>
    rw [if_neg (ne_true_of_eq_false hregister)] at h
    by_cases hload : commandAt data pos &&& CP_OPCODE_MASK = b.codes.load
    · rw [if_pos hload] at h
      rw [command_aurora hpos hregister hload, handleAurora_missing hpos h]
      exact Or.inl rfl
    · rw [if_neg hload] at h
      cases hdraw : isDrawCmd (commandAt data pos) with
      | false =>
        rw [if_neg (ne_true_of_eq_false hdraw)] at h
        omega
      | true =>
        rw [if_pos hdraw] at h
        rw [command_draw hpos hdraw, readDraw_eq _ hs.fits, completeDraw_missing hdraw h]
        exact Or.inl rfl

/-! ### Runs -/

/-- The positions and states that the loop of `process` comes to. -/
inductive Turns (b : Backend) (data : List UInt8) (bigEndian : Bool) (s : FifoState) :
    ℕ → FifoState → Prop
  | start : Turns b data bigEndian s 0 s
  | turn {pos next : ℕ} {t u : FifoState} : Turns b data bigEndian s pos t → pos < data.length →
      command b (handleDraw b.active data bigEndian) data bigEndian pos t = (.ok (some next), u) →
      Turns b data bigEndian s next u

theorem Turns.settled {t : FifoState} (h : Turns b data bigEndian s pos t) (hs : s.pending.Idle) :
    pos ≤ data.length ∧ Settled data bigEndian pos t ∧ t.registers.beyond = s.registers.beyond := by
  induction h with
  | start => exact ⟨Nat.zero_le _, Or.inl hs, rfl⟩
  | turn _ hpos hcommand ih =>
    obtain ⟨-, hsettled, hbeyond⟩ := ih
    have hturn := command_turn (b := b) hpos hsettled
    rw [hcommand] at hturn
    obtain ⟨-, hstop, hnext⟩ := hturn.next _ rfl
    exact ⟨hstop, hnext, hturn.beyond.trans hbeyond⟩

/-- How the loop ends: at the end of the data, or by its last turn. -/
def Ends (b : Backend) (data : List UInt8) (bigEndian : Bool) (pos : ℕ) (s : FifoState)
    (r : Attempt Fault FifoState Unit) : Prop :=
  pos = data.length ∧ r = (.ok (), s) ∨
    pos < data.length ∧ ∃ t,
      command b (handleDraw b.active data bigEndian) data bigEndian pos s = (.ok none, t) ∧
        r = (.ok (), t) ∨
      ∃ e, command b (handleDraw b.active data bigEndian) data bigEndian pos s = (.error e, t) ∧
        r = (.error e, t)

theorem Ends.outcome {r : Attempt Fault FifoState Unit} (h : Ends b data bigEndian pos s r)
    (hs : Settled data bigEndian pos s) : r.1 ≠ .error .outOfBounds ∧
      r.2.registers.beyond = s.registers.beyond ∧ r.2.pending.Idle := by
  rcases h with ⟨rfl, rfl⟩ | ⟨hpos, t, ⟨hcommand, rfl⟩ | ⟨e, hcommand, rfl⟩⟩
  · refine ⟨(by cases ·), rfl, hs.resolve_right fun hwaiting => ?_⟩
    obtain ⟨hlt, -⟩ := hwaiting.next
    exact Nat.lt_irrefl _ hlt
  · have hturn := command_turn (b := b) hpos hs
    rw [hcommand] at hturn
    exact ⟨(by cases ·), hturn.beyond, hturn.idle fun next => (by cases ·)⟩
  · have hturn := command_turn (b := b) hpos hs
    rw [hcommand] at hturn
    refine ⟨fun he => ?_, hturn.beyond, hturn.idle fun next => (by cases ·)⟩
    exact (hturn.thrown e rfl).1 (Except.error.inj he)

/-- The loop ends: every turn takes at least one byte. -/
theorem processFrom_ends (hs : s.pending.Idle) {fuel : ℕ} {t : FifoState}
    (hfuel : data.length < pos + fuel) (h : Turns b data bigEndian s pos t) :
    ∃ r, processFrom b (handleDraw b.active data bigEndian) data bigEndian fuel pos t = some r ∧
      ∃ last u, Turns b data bigEndian s last u ∧ Ends b data bigEndian last u r := by
  induction fuel generalizing pos t with
  | zero =>
    have := (h.settled hs).1
    omega
  | succ fuel ih =>
    obtain ⟨hle, hsettled, -⟩ := h.settled hs
    rw [processFrom]
    by_cases hpos : pos < data.length
    · rw [if_pos hpos]
      match hcommand : command b (handleDraw b.active data bigEndian) data bigEndian pos t with
      | (.error e, u) =>
        exact ⟨_, rfl, pos, t, h, Or.inr ⟨hpos, u, Or.inr ⟨e, hcommand, rfl⟩⟩⟩
      | (.ok none, u) => exact ⟨_, rfl, pos, t, h, Or.inr ⟨hpos, u, Or.inl ⟨hcommand, rfl⟩⟩⟩
      | (.ok (some next), u) =>
        have hturn := command_turn (b := b) hpos hsettled
        rw [hcommand] at hturn
        have hstart := (hturn.next next rfl).1
        exact ih (by omega) (h.turn hpos hcommand)
    · rw [if_neg hpos]
      exact ⟨_, rfl, pos, t, h, Or.inl ⟨by omega, rfl⟩⟩

theorem processFrom_truncated (hpos : pos < data.length) (hs : Settled data bigEndian pos s)
    (h : Truncated b.codes s.registers.decoded.vertex data pos bigEndian) {fuel : ℕ}
    (hfuel : 2 ≤ fuel) : processFrom b handler data bigEndian fuel pos s = some (.ok (), s) := by
  obtain ⟨fuel, rfl⟩ := Nat.exists_eq_add_of_le' hfuel
  rw [processFrom, if_pos hpos]
  rcases command_truncated handler hpos hs h with hcommand | hcommand
  · rw [hcommand]
  · rw [hcommand]
    dsimp only
    rw [processFrom, if_neg (Nat.lt_irrefl _)]

/-- Nothing outside of the array that an indexed load names is read from the host. -/
theorem command_congr {host : ℕ → UInt8}
    (h : ∀ i < (sourceArray (commandAt data pos &&& CP_OPCODE_MASK) s.registers).size.toNat,
      host ((sourceArray (commandAt data pos &&& CP_OPCODE_MASK) s.registers).data + i) =
        b.host ((sourceArray (commandAt data pos &&& CP_OPCODE_MASK) s.registers).data + i))
    (hpos : pos < data.length) :
    command { b with host := host } handler data bigEndian pos s =
      command b handler data bigEndian pos s := by
  rw [command, command, readU8_ok hpos, ← commandAt_eq hpos]
  dsimp only
  rw [registerCommand, registerCommand, loadIndx_congr h]

/-! ### All together -/

/-- Whatever the data, the registers and the receiver are, `process` ends, and no command of it reads
or writes outside of what it may; what is truncated has no effect. -/
theorem dispatcher_safe (b : Backend) (data : List UInt8) (bigEndian : Bool) {s : FifoState}
    (hs : s.pending.Idle) :
    (∃ r, process b data bigEndian (data.length + 1) s = some r ∧
      r.1 ≠ .error .outOfBounds ∧ r.2.registers.beyond = s.registers.beyond ∧ r.2.pending.Idle ∧
      ∃ last t, Turns b data bigEndian s last t ∧ Ends b data bigEndian last t r) ∧
    ∀ pos t, Turns b data bigEndian s pos t →
      pos ≤ data.length ∧ t.registers.beyond = s.registers.beyond ∧
      (pos < data.length → ∀ result u,
        command b (handleDraw b.active data bigEndian) data bigEndian pos t = (result, u) →
        u.registers.beyond = s.registers.beyond ∧
        (∀ e, result = .error e → e ≠ .outOfBounds ∧ isDrawCmd (commandAt data pos) = true) ∧
        (∀ next, result = .ok (some next) → pos < next ∧ next ≤ data.length) ∧
        (∀ host : ℕ → UInt8,
          let array := sourceArray (commandAt data pos &&& CP_OPCODE_MASK) t.registers
          (∀ i < array.size.toNat, host (array.data + i) = b.host (array.data + i)) →
            command { b with host := host } (handleDraw b.active data bigEndian) data bigEndian
              pos t = (result, u)) ∧
        (Truncated b.codes t.registers.decoded.vertex data pos bigEndian → ∀ fuel, 2 ≤ fuel →
          processFrom b (handleDraw b.active data bigEndian) data bigEndian fuel pos t =
            some (.ok (), t))) := by
  refine ⟨?_, fun pos t hturns => ?_⟩
  · have hstart : Turns b data bigEndian s 0 s := .start
    obtain ⟨r, hr, last, t, hturns, hends⟩ :=
      processFrom_ends hs (by omega : data.length < 0 + (data.length + 1)) hstart
    obtain ⟨-, hsettled, hbeyond⟩ := hturns.settled hs
    obtain ⟨hinside, hregisters, hidle⟩ := hends.outcome hsettled
    exact ⟨r, hr, hinside, hregisters.trans hbeyond, hidle, last, t, hturns, hends⟩
  · obtain ⟨hle, hsettled, hbeyond⟩ := hturns.settled hs
    refine ⟨hle, hbeyond, fun hpos result u hcommand => ?_⟩
    have hturn := command_turn (b := b) hpos hsettled
    rw [hcommand] at hturn
    refine ⟨hturn.beyond.trans hbeyond, hturn.thrown, fun next hnext => ?_, fun host hhost => ?_,
      fun htruncated fuel hfuel => processFrom_truncated hpos hsettled htruncated hfuel⟩
    · obtain ⟨hstart, hstop, -⟩ := hturn.next next hnext
      exact ⟨hstart, hstop⟩
    · rw [command_congr hhost hpos, hcommand]

/-- Numbers for the Aurora commands. -/
def someCodes : AuroraCodes where
  load := 0x68
  load_lt := by decide
  viewportRender := 1
  scissorRender := 2
  arrayBase := 0x10
  texObj := 3
  tlut := 4
  destroyTexObj := 5
  destroyTlut := 6
  destroyCopyTex := 7
  invalidateTexAll := 8
  debugGroupPush := 9
  debugGroupPop := 10
  debugMarkerInsert := 11

/-- The state after a reset. -/
def FifoState.reset (extent : GxRenderExtent) (nativePolicy : Bool) : FifoState where
  registers := .reset extent nativePolicy
  pending := ⟨[], [], ⟨fun _ => .none, 0⟩, 0, 0⟩
  calls := []
  submitted := []

theorem dispatcher_safe_truncated :
    let s := FifoState.reset ⟨640, 528, 640, 528⟩ false
    processFrom ⟨someCodes, fun _ => 0, none⟩ (handleDraw none [0x61, 0x40, 0x00] true)
      [0x61, 0x40, 0x00] true 2 0 s = some (.ok (), s) := by
  have hsafe := dispatcher_safe ⟨someCodes, fun _ => 0, none⟩ [0x61, 0x40, 0x00] true
    (s := FifoState.reset ⟨640, 528, 640, 528⟩ false) ⟨rfl, rfl, rfl⟩
  have hcommand := (hsafe.2 0 _ .start).2.2 (by decide) _ _ rfl
  exact hcommand.2.2.2.2 (by unfold Truncated; decide) 2 (Nat.le_refl 2)

end Gx
