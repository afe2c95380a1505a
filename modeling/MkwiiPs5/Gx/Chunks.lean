import MkwiiPs5.Gx.DrawMerging
import MkwiiPs5.Gx.Relocation

/-!
# Streams in chunks

The commands of the frontend are processed whenever their buffer is drained. Wherever a stream is cut
between commands, the registers, the calls of the backend and what the receiver draws are the same,
although draws are not joined across a cut.
-/

namespace Gx

open Bytes (slice Same)

variable {b : Backend} {data data' : List UInt8} {bigEndian : Bool} {pos pos' stop : ℕ}
variable {s t u : FifoState}

/-! ### Commands one after the other -/

/-- The commands from one position to another are whole; draws are submitted by themselves. -/
inductive Commands (b : Backend) (data : List UInt8) (bigEndian : Bool) (stop : ℕ) :
    ℕ → FifoState → FifoState → Prop
  | done {s : FifoState} : stop ≤ data.length → Commands b data bigEndian stop stop s s
  | command {pos next : ℕ} {s t u : FifoState} : pos < data.length → WholeAt data pos bigEndian →
      command b (singleDraw b.active) data bigEndian pos s = (.ok (some next), t) →
      Commands b data bigEndian stop next t u → Commands b data bigEndian stop pos s u

theorem Commands.le (h : Commands b data bigEndian stop pos s u) :
    pos ≤ stop ∧ stop ≤ data.length := by
  induction h with
  | done hle => exact ⟨le_rfl, hle⟩
  | command hpos hwhole hcommand _ ih =>
    obtain ⟨hlt, -, -⟩ := command_relocates hpos hwhole hcommand
    exact ⟨hlt.le.trans ih.1, ih.2⟩

theorem Commands.append {middle : ℕ} (h : Commands b data bigEndian middle pos s t)
    (h' : Commands b data bigEndian stop middle t u) : Commands b data bigEndian stop pos s u := by
  induction h with
  | done _ => exact h'
  | command hpos hwhole hcommand _ ih => exact .command hpos hwhole hcommand (ih h')

/-- What was whole is whole at another place. -/
theorem wholeAt_moved {n : ℕ} (hsame : Same data pos data' pos' n) (hn : 0 < n) (hburst : commandAt data pos &&& CP_OPCODE_MASK = CP_CMD_LOAD_XF_REG →
      pos + 1 + 4 + 4 * (Bytes.number (!bigEndian) (slice data (pos + 1) 4) / 2 ^ 16 % 2 ^ 16 + 1) ≤
        pos + n) : WholeAt data' pos' bigEndian := by
  have hbyte := hsame.same 0 hn
  rw [Nat.add_zero, Nat.add_zero] at hbyte
  intro hxf
  have hcommand : commandAt data' pos' = commandAt data pos := by
    rw [commandAt, commandAt, List.getD, List.getD, hbyte]
  rw [hcommand] at hxf
  have hburst := hburst hxf
  have hright := hsame.right
  have hheader := (hsame.part (k := 1) (m := 4) (by omega)).slice_eq
  rw [xfWhole, ← hheader]
  omega

/-- A burst that is whole ends before the next command. -/
theorem burst_le {next : ℕ} (hpos : pos < data.length) (hwhole : WholeAt data pos bigEndian)
    (h : command b (singleDraw b.active) data bigEndian pos s = (.ok (some next), t))
    (hxf : commandAt data pos &&& CP_OPCODE_MASK = CP_CMD_LOAD_XF_REG) :
    pos + 1 + 4 + 4 * (Bytes.number (!bigEndian) (slice data (pos + 1) 4) / 2 ^ 16 % 2 ^ 16 + 1) ≤
      next := by
  have hregister : isRegisterCmd (commandAt data pos &&& CP_OPCODE_MASK) = true := by
    rw [hxf]
    rfl
  rw [command_register hpos hregister] at h
  obtain ⟨registers, hresult, -⟩ := afterRegisters_eq_ok h
  have hload : registerCommand data (pos + 1) bigEndian s.registers b.host
      (commandAt data pos &&& CP_OPCODE_MASK) = loadXfReg data (pos + 1) bigEndian s.registers := by
    rw [hxf]
    rfl
  rw [hload, loadXfReg_eq (hwhole hxf)] at hresult
  obtain ⟨hnext, -⟩ := Prod.mk.inj (Option.some.inj (Except.ok.inj hresult))
  omega

/-- The same bytes at another place are the same commands. -/
theorem Commands.moved (h : Commands b data bigEndian stop pos s u)
    (hsame : Same data pos data' pos' (stop - pos)) :
    Commands b data' bigEndian (pos' + (stop - pos)) pos' s u := by
  induction h generalizing pos' with
  | done _ =>
    have hright := hsame.right
    rw [Nat.sub_self, Nat.add_zero] at hright ⊢
    exact .done hright
  | @command pos next s t u hpos hwhole hcommand hrest ih =>
    obtain ⟨hlt, -, hmoves⟩ := command_relocates hpos hwhole hcommand
    obtain ⟨hle, -⟩ := hrest.le
    have hright := hsame.right
    have hfirst : Same data pos data' pos' (next - pos) := hsame.part (k := 0) (by omega)
    have hafter : Same data (pos + (next - pos)) data' (pos' + (next - pos)) (stop - next) :=
      hsame.part (by omega)
    rw [Nat.add_sub_cancel' hlt.le] at hafter
    have hmoved := ih hafter
    have hstop : pos' + (next - pos) + (stop - next) = pos' + (stop - pos) := by omega
    rw [hstop] at hmoved
    refine .command (by omega) (wholeAt_moved hfirst (by omega) fun hxf => ?_) (hmoves _ _ hfirst)
      hmoved
    have := burst_le hpos hwhole hcommand hxf
    omega

/-- The loop of `process` comes to the end of commands that are whole. -/
theorem Commands.processFrom (h : Commands b data bigEndian data.length pos s u) {fuel : ℕ}
    (hfuel : data.length - pos < fuel) :
    Gx.processFrom b (singleDraw b.active) data bigEndian fuel pos s = some (.ok (), u) := by
  induction h generalizing fuel with
  | done _ =>
    obtain ⟨fuel, rfl⟩ := Nat.exists_eq_add_of_lt hfuel
    rw [Gx.processFrom, if_neg (by omega)]
  | command hpos hwhole hcommand _ ih =>
    obtain ⟨fuel, rfl⟩ := Nat.exists_eq_add_of_lt hfuel
    obtain ⟨hlt, hle, -⟩ := command_relocates hpos hwhole hcommand
    rw [Gx.processFrom, if_pos hpos, hcommand]
    exact ih (by omega)

/-! ### Chunks -/

/-- Each chunk is made of commands that are whole. -/
inductive Chunks (b : Backend) (bigEndian : Bool) : List (List UInt8) → FifoState → FifoState → Prop
  | nil {s : FifoState} : Chunks b bigEndian [] s s
  | cons {data : List UInt8} {chunks : List (List UInt8)} {s t u : FifoState} :
      Commands b data bigEndian data.length 0 s t → Chunks b bigEndian chunks t u →
      Chunks b bigEndian (data :: chunks) s u

/-- The commands of the chunks are those of the stream. -/
theorem Chunks.flatten {chunks : List (List UInt8)} (h : Chunks b bigEndian chunks s u)
    (before : List UInt8) :
    Commands b (before ++ chunks.flatten) bigEndian (before ++ chunks.flatten).length before.length
      s u := by
  induction h generalizing before with
  | nil =>
    rw [List.flatten_nil, List.append_nil]
    exact .done le_rfl
  | @cons data chunks s t u hdata _ ih =>
    have hrest := ih (before ++ data)
    have hlength : (before ++ data).length = before.length + (data.length - 0) := List.length_append
    rw [List.append_assoc, hlength] at hrest
    rw [List.flatten_cons]
    have hsame : Same data 0 (before ++ (data ++ chunks.flatten)) before.length (data.length - 0) := by
      refine ⟨by omega, ?_, fun i hi => ?_⟩
      · rw [List.length_append, List.length_append]
        omega
      · rw [List.getElem?_append_right (Nat.le_add_right _ _), Nat.add_sub_cancel_left, Nat.zero_add,
          List.getElem?_append_left (by omega)]
    exact (hdata.moved hsame).append hrest

/-- The chunks are processed one after the other, with as many turns as there are bytes. -/
def processAll (b : Backend) (bigEndian : Bool) :
    List (List UInt8) → FifoState → Option (Attempt Fault FifoState Unit)
  | [], s => some (.ok (), s)
  | data :: chunks, s =>
    match process b data bigEndian (data.length + 1) s with
    | some (.ok (), t) => processAll b bigEndian chunks t
    | r => r

variable {sink : DrawSink} {memory : ℕ → AttrArray → ℕ → UInt8}

/-- Draws may be joined in each chunk, but only there. -/
theorem Chunks.processAll (h : sink.Receives memory) (hactive : b.active = some sink)
    {chunks : List (List UInt8)} (hchunks : Chunks b bigEndian chunks s u) {s' : FifoState}
    (hm : Merging (some sink) [] bigEndian 0 s s') (hidle : s'.pending.Idle) :
    ∃ t', Gx.processAll b bigEndian chunks s' = some (.ok (), t') ∧
      Merging (some sink) [] bigEndian 0 u t' ∧ t'.pending.Idle := by
  induction hchunks generalizing s' with
  | nil => exact ⟨s', rfl, hm, hidle⟩
  | @cons data chunks s t u hdata _ ih =>
    have hstart : Merging (some sink) data bigEndian 0 s s' :=
      merging_idle hm.registers hm.calls hm.separate hidle (hm.received_idle hidle)
    have hsingle := hdata.processFrom (Nat.lt_succ_self _)
    rw [hactive, Nat.sub_zero] at hsingle
    obtain ⟨t', ht', hmerged, hidle'⟩ := merging_run h hactive hstart hsingle
    rw [Gx.processAll, process, ht']
    exact ih (merging_idle hmerged.registers hmerged.calls hmerged.separate hidle'
      (hmerged.received_idle hidle')) hidle'

/-- If the draws can be submitted by themselves, it does not matter where a stream is cut between its
commands: the chunks one after the other leave the registers and the calls that the stream leaves, and
the receiver draws the same. -/
theorem chunks_process_same (h : sink.Receives memory) (hactive : b.active = some sink)
    (hs : s.pending.Idle) {chunks : List (List UInt8)} (hchunks : Chunks b bigEndian chunks s u) :
    ∃ t t', process b chunks.flatten bigEndian (chunks.flatten.length + 1) s = some (.ok (), t) ∧
      processAll b bigEndian chunks s = some (.ok (), t') ∧ t.registers = t'.registers ∧
      t.calls = t'.calls ∧ received t.submitted = received t'.submitted ∧ t.pending.Idle ∧
      t'.pending.Idle := by
  have hstart : ∀ data, Merging (some sink) data bigEndian 0 s s := fun data =>
    merging_idle rfl rfl hs hs rfl
  have hwhole := (hchunks.flatten []).processFrom (Nat.lt_succ_self _)
  rw [hactive] at hwhole
  obtain ⟨t, ht, hm, hidle⟩ := merging_run h hactive (hstart _) hwhole
  obtain ⟨t', ht', hm', hidle'⟩ := hchunks.processAll h hactive (hstart []) hs
  refine ⟨t, t', ht, ht', hm.registers.trans hm'.registers.symm, hm.calls.trans hm'.calls.symm, ?_,
    hidle, hidle'⟩
  exact (hm.received_idle hidle).symm.trans (hm'.received_idle hidle')

/-- The two triangles, cut between them. -/
def cutTriangles : List (List UInt8) :=
  [[0x08, 0x50, 0x00, 0x00, 0x02, 0x00, 0x90, 0x00, 0x03, 1, 2, 3, 4, 5, 6], [0x00],
    [0x90, 0x00, 0x03, 7, 8, 9, 10, 11, 12]]

theorem chunks_process_same_triangles : ∃ t t',
    process ⟨someCodes, fun _ => 0, some zeroSink⟩ twoTriangles true 26
        (.reset ⟨640, 528, 640, 528⟩ false) = some (.ok (), t) ∧
      processAll ⟨someCodes, fun _ => 0, some zeroSink⟩ true cutTriangles
        (.reset ⟨640, 528, 640, 528⟩ false) = some (.ok (), t') ∧
      received t.submitted = received t'.submitted := by
  have hchunks : ∃ u, Chunks ⟨someCodes, fun _ => 0, some zeroSink⟩ true cutTriangles
      (.reset ⟨640, 528, 640, 528⟩ false) u :=
    ⟨_, .cons (.command (by decide) (fun h => absurd h (by decide)) rfl
        (.command (by decide) (fun h => absurd h (by decide)) rfl (.done le_rfl)))
      (.cons (.command (by decide) (fun h => absurd h (by decide)) rfl (.done le_rfl))
        (.cons (.command (by decide) (fun h => absurd h (by decide)) rfl (.done le_rfl)) .nil))⟩
  obtain ⟨u, hu⟩ := hchunks
  obtain ⟨t, t', ht, ht', -, -, hreceived, -⟩ :=
    chunks_process_same zeroSink_receives rfl ⟨rfl, rfl, rfl⟩ hu
  exact ⟨t, t', ht, ht', hreceived⟩

end Gx
