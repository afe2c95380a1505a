import MkwiiPs5.Gx.DispatchSafety

/-!
# Commands somewhere else

A command that is whole is made of the bytes up to the next one: the same bytes at another place of
other data are the same command.
-/

namespace Gx

open Bytes (slice number Same)

variable {data data' : List UInt8} {pos pos' n : ℕ} {bigEndian : Bool} {s : GXRegisterState}

/-! ### Reading the same bytes -/

theorem read_kept (h : Same data pos data' pos' n) {k m : ℕ} (hkm : k + m ≤ n) :
    readUint data (pos + k) m bigEndian = .ok (number (!bigEndian) (slice data (pos + k) m)) :=
  readUint_ok (h.part hkm).left bigEndian

theorem read_kept_first (h : Same data pos data' pos' n) {m : ℕ} (hm : m ≤ n) :
    readUint data pos m bigEndian = .ok (number (!bigEndian) (slice data pos m)) :=
  read_kept h (k := 0) (by omega)

theorem read_moved (h : Same data pos data' pos' n) {k m : ℕ} (hkm : k + m ≤ n) :
    readUint data' (pos' + k) m bigEndian = .ok (number (!bigEndian) (slice data (pos + k) m)) := by
  rw [readUint_ok (h.part hkm).right, (h.part hkm).slice_eq]

theorem read_moved_first (h : Same data pos data' pos' n) {m : ℕ} (hm : m ≤ n) :
    readUint data' pos' m bigEndian = .ok (number (!bigEndian) (slice data pos m)) :=
  read_moved h (k := 0) (by omega)

theorem hasBytes_kept (h : Same data pos data' pos' n) : hasBytes pos data.length n = true :=
  (hasBytes_iff (by have := h.left; omega)).2 h.left

theorem hasBytes_moved (h : Same data pos data' pos' n) : hasBytes pos' data'.length n = true :=
  (hasBytes_iff (by have := h.right; omega)).2 h.right

/-! ### Commands of a size -/

/-- What a command makes of the same bytes at `pos'`, where it makes something of those at `pos`. -/
def Moved {α : Type} (size : ℕ) (move : α → ℕ → α) (pos' : ℕ) (r r' : Except Fault (Option α)) :
    Prop :=
  r' = r.map (Option.map fun a => move a (pos' + size))

/-- The next position of a command on registers, put somewhere else. -/
def moveRegisters (r : ℕ × GXRegisterState) (next : ℕ) : ℕ × GXRegisterState := (next, r.2)

theorem loadBpReg_moved (h : Same data pos data' pos' 4) :
    Moved 4 moveRegisters pos' (loadBpReg data pos bigEndian s)
      (loadBpReg data' pos' bigEndian s) := by
  rw [Moved, loadBpReg, loadBpReg, if_pos (hasBytes_kept h), if_pos (hasBytes_moved h), readU32,
    readU32, read_kept_first h le_rfl, read_moved_first h le_rfl]
  rfl

theorem loadCpReg_moved (h : Same data pos data' pos' 5) :
    Moved 5 moveRegisters pos' (loadCpReg data pos bigEndian s)
      (loadCpReg data' pos' bigEndian s) := by
  rw [Moved, loadCpReg, loadCpReg, if_pos (hasBytes_kept h), if_pos (hasBytes_moved h)]
  simp (disch := omega) only [readU8, readU32, read_kept_first h, read_moved_first h, read_kept h,
    read_moved h]
  rfl

theorem callDl_moved (h : Same data pos data' pos' 8) :
    Moved 8 moveRegisters pos' (callDl data pos s) (callDl data' pos' s) := by
  rw [Moved, callDl, callDl, if_pos (hasBytes_kept h), if_pos (hasBytes_moved h)]
  rfl

theorem loadIndx_moved (host : ℕ → UInt8) (opcode : ℕ) (h : Same data pos data' pos' 4) :
    Moved 4 moveRegisters pos' (loadIndx host opcode data pos bigEndian s)
      (loadIndx host opcode data' pos' bigEndian s) := by
  rw [Moved, loadIndx, loadIndx, if_pos (hasBytes_kept h), if_pos (hasBytes_moved h), readU32,
    readU32, read_kept_first h le_rfl, read_moved_first h le_rfl]
  dsimp only [bind, Except.bind]
  split
  · rfl
  · split <;> rfl

/-- The next position of a command of the frontend, put somewhere else. -/
def moveAurora (r : AuroraResult) (next : ℕ) : AuroraResult := { r with next := next }

theorem loadViewportRender_moved (h : Same data pos data' pos' 24) :
    Moved 24 moveAurora pos' (loadViewportRender data pos bigEndian s)
      (loadViewportRender data' pos' bigEndian s) := by
  rw [Moved, loadViewportRender, loadViewportRender, if_pos (hasBytes_kept h),
    if_pos (hasBytes_moved h)]
  simp (disch := omega) only [readF32, readU32, read_kept_first h, read_moved_first h, read_kept h,
    read_moved h]
  rfl

theorem loadScissorRender_moved (h : Same data pos data' pos' 16) :
    Moved 16 moveAurora pos' (loadScissorRender data pos bigEndian s)
      (loadScissorRender data' pos' bigEndian s) := by
  rw [Moved, loadScissorRender, loadScissorRender, if_pos (hasBytes_kept h),
    if_pos (hasBytes_moved h)]
  simp (disch := omega) only [readU32, read_kept_first h, read_moved_first h, read_kept h,
    read_moved h]
  rfl

theorem loadArrayBase_moved (attrIdx : ℕ) (h : Same data pos data' pos' 13) :
    Moved 13 moveAurora pos' (loadArrayBase data pos bigEndian s attrIdx)
      (loadArrayBase data' pos' bigEndian s attrIdx) := by
  rw [Moved, loadArrayBase, loadArrayBase, if_pos (hasBytes_kept h), if_pos (hasBytes_moved h)]
  simp (disch := omega) only [readU64, readU32, readU8, read_kept_first h, read_moved_first h,
    read_kept h, read_moved h]
  rfl

theorem loadTexObj_moved (h : Same data pos data' pos' 34) :
    Moved 34 moveAurora pos' (loadTexObj data pos bigEndian s)
      (loadTexObj data' pos' bigEndian s) := by
  rw [Moved, loadTexObj, loadTexObj, if_pos (hasBytes_kept h), if_pos (hasBytes_moved h)]
  simp (disch := omega) only [readU64, readU32, readU8, read_kept_first h, read_moved_first h,
    read_kept h, read_moved h]
  dsimp only [bind, Except.bind]
  split <;> rfl

theorem loadTlut_moved (h : Same data pos data' pos' 23) :
    Moved 23 moveAurora pos' (loadTlut data pos bigEndian s) (loadTlut data' pos' bigEndian s) := by
  rw [Moved, loadTlut, loadTlut, if_pos (hasBytes_kept h), if_pos (hasBytes_moved h)]
  simp (disch := omega) only [readU64, readU32, readU16, readU8, read_kept_first h,
    read_moved_first h, read_kept h, read_moved h]
  dsimp only [bind, Except.bind]
  split <;> rfl

theorem destroyObject_moved (evict : ℕ → Decoded → Decoded) (h : Same data pos data' pos' 4) :
    Moved 4 moveAurora pos' (destroyObject data pos bigEndian s evict)
      (destroyObject data' pos' bigEndian s evict) := by
  rw [Moved, destroyObject, destroyObject, if_pos (hasBytes_kept h), if_pos (hasBytes_moved h),
    readU32, readU32, read_kept_first h le_rfl, read_moved_first h le_rfl]
  rfl

theorem destroyCopyTex_moved (h : Same data pos data' pos' 8) :
    Moved 8 moveAurora pos' (destroyCopyTex data pos bigEndian s)
      (destroyCopyTex data' pos' bigEndian s) := by
  rw [Moved, destroyCopyTex, destroyCopyTex, if_pos (hasBytes_kept h), if_pos (hasBytes_moved h),
    readU64, readU64, read_kept_first h le_rfl, read_moved_first h le_rfl]
  rfl

/-! ### Commands that end before the next one -/

/-- A command, at the position behind its number: one that makes something ends inside of the data,
and makes the same of the same bytes at another place. -/
def Relocates {α : Type} (next : α → ℕ) (move : α → ℕ → α)
    (f : List UInt8 → ℕ → Except Fault (Option α)) : Prop :=
  ∀ data pos a, pos ≤ data.length → f data pos = .ok (some a) → pos ≤ next a ∧
    next a ≤ data.length ∧ ∀ data' pos', Same data pos data' pos' (next a - pos) →
      f data' pos' = .ok (some (move a (pos' + (next a - pos))))

section Relocates

variable {α : Type} {next : α → ℕ} {move : α → ℕ → α}
variable {f g : List UInt8 → ℕ → Except Fault (Option α)}

/-- A command of a size, from what it makes somewhere else. -/
theorem Relocates.of_size (size : ℕ)
    (hsize : ∀ data pos a, pos ≤ data.length → f data pos = .ok (some a) →
      pos + size ≤ data.length ∧ next a = pos + size)
    (hmoved : ∀ data pos data' pos', Same data pos data' pos' size →
      Moved size move pos' (f data pos) (f data' pos')) : Relocates next move f := by
  intro data pos a hpos ha
  obtain ⟨hle, hnext⟩ := hsize data pos a hpos ha
  have hdiff : next a - pos = size := by omega
  refine ⟨by omega, by omega, fun data' pos' hsame => ?_⟩
  rw [hdiff] at hsame ⊢
  have hresult := hmoved data pos data' pos' hsame
  rw [Moved, ha] at hresult
  exact hresult

theorem relocates_none : Relocates next move fun _ _ => pure none := by
  intro data pos a _ ha
  cases ha

theorem Relocates.ite {c : Prop} [Decidable c] (hf : c → Relocates next move f)
    (hg : ¬ c → Relocates next move g) :
    Relocates next move fun data pos => if c then f data pos else g data pos := by
  by_cases hc : c
  · simpa only [if_pos hc] using hf hc
  · simpa only [if_neg hc] using hg hc

/-- What follows the test for bytes. -/
theorem of_hasBytes {size : ℕ} {r : Except Fault (Option α)} {a : α}
    (h : (if hasBytes pos data.length size then r else pure none) = .ok (some a)) :
    pos + size ≤ data.length ∧ r = .ok (some a) := by
  split at h
  next hbytes =>
    rw [hasBytes, Bool.and_eq_true, decide_eq_true_eq, decide_eq_true_eq] at hbytes
    exact ⟨by omega, h⟩
  · cases h

/-- What follows a read. -/
theorem of_read {β : Type} {r : Except Fault β} {k : β → Except Fault (Option α)} {a : α}
    (h : (r >>= k) = .ok (some a)) : ∃ value, k value = .ok (some a) := by
  obtain ⟨value, -, h⟩ := Loop.bind_eq_ok.1 h
  exact ⟨value, h⟩

/-- A number, and what it says. -/
theorem Relocates.after (size : ℕ) {k : ℕ → List UInt8 → ℕ → Except Fault (Option α)}
    (hk : ∀ value, Relocates next move (k value)) :
    Relocates next move fun data pos =>
      if hasBytes pos data.length size then do
        let value ← readUint data pos size bigEndian
        k value data (pos + size)
      else pure none := by
  intro data pos a hpos ha
  obtain ⟨hle, ha⟩ := of_hasBytes ha
  rw [readUint_ok hle] at ha
  obtain ⟨hstart, hstop, hmoves⟩ := hk _ data (pos + size) a hle ha
  refine ⟨by omega, hstop, fun data' pos' hsame => ?_⟩
  have hfirst : Same data pos data' pos' size := hsame.part (k := 0) (by omega)
  have hrest : Same data (pos + size) data' (pos' + size) (next a - (pos + size)) :=
    hsame.part (by omega)
  dsimp only
  rw [if_pos (hasBytes_moved hfirst), read_moved_first hfirst le_rfl]
  have hposition : pos' + (next a - pos) = pos' + size + (next a - (pos + size)) := by omega
  rw [hposition]
  exact hmoves data' (pos' + size) hrest

end Relocates

/-! ### Commands on registers -/

theorem loadBpReg_relocates : Relocates Prod.fst moveRegisters fun data pos =>
    loadBpReg data pos bigEndian s := by
  refine .of_size 4 (fun data pos a _ h => ?_) fun _ _ _ _ => loadBpReg_moved
  obtain ⟨hle, h⟩ := of_hasBytes h
  obtain ⟨value, h⟩ := of_read h
  obtain rfl := Option.some.inj (Except.ok.inj h)
  exact ⟨hle, rfl⟩

theorem loadCpReg_relocates : Relocates Prod.fst moveRegisters fun data pos =>
    loadCpReg data pos bigEndian s := by
  refine .of_size 5 (fun data pos a _ h => ?_) fun _ _ _ _ => loadCpReg_moved
  obtain ⟨hle, h⟩ := of_hasBytes h
  obtain ⟨addr, h⟩ := of_read h
  obtain ⟨value, h⟩ := of_read h
  obtain rfl := Option.some.inj (Except.ok.inj h)
  exact ⟨hle, rfl⟩

theorem callDl_relocates : Relocates Prod.fst moveRegisters fun data pos => callDl data pos s := by
  refine .of_size 8 (fun data pos a _ h => ?_) fun _ _ _ _ => callDl_moved
  obtain ⟨hle, h⟩ := of_hasBytes h
  obtain rfl := Option.some.inj (Except.ok.inj h)
  exact ⟨hle, rfl⟩

theorem loadIndx_relocates (host : ℕ → UInt8) (opcode : ℕ) :
    Relocates Prod.fst moveRegisters fun data pos => loadIndx host opcode data pos bigEndian s := by
  refine .of_size 4 (fun data pos a _ h => ?_) fun _ _ _ _ => loadIndx_moved host opcode
  obtain ⟨hle, h⟩ := of_hasBytes h
  obtain ⟨value, h⟩ := of_read h
  refine ⟨hle, ?_⟩
  dsimp only at h
  split at h
  · obtain rfl := Option.some.inj (Except.ok.inj h)
    rfl
  · split at h
    all_goals
      obtain rfl := Option.some.inj (Except.ok.inj h)
      rfl

/-- A burst of which no part is missing. -/
def xfWhole (data : List UInt8) (pos : ℕ) (bigEndian : Bool) : Prop :=
  pos + 4 + 4 * (number (!bigEndian) (slice data pos 4) / 2 ^ 16 % 2 ^ 16 + 1) ≤ data.length

theorem loadXfReg_eq (hwhole : xfWhole data pos bigEndian) :
    loadXfReg data pos bigEndian s = .ok (some
      (pos + 4 + (number (!bigEndian) (slice data pos 4) / 2 ^ 16 % 2 ^ 16 + 1) * 4,
        s.writeXf true (number (!bigEndian) (slice data pos 4) % 2 ^ 16)
          ((List.range (number (!bigEndian) (slice data pos 4) / 2 ^ 16 % 2 ^ 16 + 1)).map fun i =>
            number (!bigEndian) (slice data (pos + 4 + 4 * i) 4)))) := by
  rw [xfWhole] at hwhole
  rw [loadXfReg, handleXf, readXf_eq s.decoded.vertex.arrays, Load.burst, if_pos hwhole]
  show Except.ok (some (pos + 4 + (List.map _ _).length * 4, _)) = _
  rw [List.length_map, List.length_range]

/-- The end of a burst, and that the same bytes somewhere else are the same burst. -/
theorem loadXfReg_relocates {next : ℕ} {t : GXRegisterState} (hwhole : xfWhole data pos bigEndian)
    (h : loadXfReg data pos bigEndian s = .ok (some (next, t))) :
    pos ≤ next ∧ next ≤ data.length ∧ ∀ data' pos', Same data pos data' pos' (next - pos) →
      loadXfReg data' pos' bigEndian s = .ok (some (pos' + (next - pos), t)) := by
  rw [loadXfReg_eq hwhole] at h
  obtain ⟨hnext, rfl⟩ := Prod.mk.inj (Option.some.inj (Except.ok.inj h))
  have hend := hwhole
  rw [xfWhole] at hend
  refine ⟨by omega, by omega, fun data' pos' hsame => ?_⟩
  have hheader : slice data' pos' 4 = slice data pos 4 :=
    ((hsame.part (k := 0) (m := 4) (by omega)).slice_eq).symm
  have hright := hsame.right
  have hwhole' : xfWhole data' pos' bigEndian := by
    rw [xfWhole, hheader]
    omega
  rw [loadXfReg_eq hwhole', hheader]
  refine congrArg (fun r => Except.ok (some r)) (Prod.ext (by dsimp only; omega) ?_)
  refine congrArg (fun words => s.writeXf true _ words) (List.map_congr_left fun i hi => ?_)
  rw [List.mem_range] at hi
  have hword := (hsame.part (k := 4 + 4 * i) (m := 4) (by omega)).slice_eq
  rw [← Nat.add_assoc, ← Nat.add_assoc] at hword
  rw [hword]

theorem registerCommand_relocates (host : ℕ → UInt8) {opcode : ℕ}
    (hxf : opcode ≠ CP_CMD_LOAD_XF_REG) : Relocates Prod.fst moveRegisters fun data pos =>
      registerCommand data pos bigEndian s host opcode := by
  unfold registerCommand
  refine .ite (fun _ => loadBpReg_relocates) fun _ => ?_
  refine .ite (fun _ => loadCpReg_relocates) fun _ => ?_
  refine .ite (fun h => absurd h hxf) fun _ => ?_
  refine .ite (fun _ => loadIndx_relocates host opcode) fun _ => ?_
  refine .ite (fun _ => callDl_relocates) fun _ => ?_
  refine .of_size 0 (fun data pos a hpos h => ?_) fun _ _ _ _ _ => rfl
  obtain rfl := Option.some.inj (Except.ok.inj h)
  exact ⟨hpos, rfl⟩

/-! ### Commands of the frontend -/

theorem readString_relocates : Relocates Prod.snd (fun a next => (a.1, next)) fun data pos =>
    readString data pos bigEndian := by
  refine .after 2 (k := fun length data pos =>
    if hasBytes pos data.length length then do
      let str ← readBytes data pos length
      pure (some (str, pos + length))
    else pure none)
    fun length => .of_size length (fun data pos a _ h => ?_) fun data pos data' pos' h => ?_
  · obtain ⟨hle, h⟩ := of_hasBytes h
    obtain ⟨label, h⟩ := of_read h
    obtain rfl := Option.some.inj (Except.ok.inj h)
    exact ⟨hle, rfl⟩
  · rw [Moved, if_pos (hasBytes_kept h), if_pos (hasBytes_moved h), readBytes, readBytes,
      if_pos h.left, if_pos h.right, h.slice_eq]
    rfl

theorem labelled_relocates (call : List UInt8 → BackendCall) :
    Relocates AuroraResult.next moveAurora fun data pos => labelled data pos bigEndian s call := by
  intro data pos a hpos h
  unfold labelled at h
  obtain ⟨read, hread, h⟩ := Loop.bind_eq_ok.1 h
  cases read with
  | none => cases h
  | some read =>
    obtain rfl := Option.some.inj (Except.ok.inj h)
    obtain ⟨hstart, hstop, hmoves⟩ := readString_relocates data pos read hpos hread
    refine ⟨hstart, hstop, fun data' pos' hsame => ?_⟩
    have hmoved : readString data' pos' bigEndian = .ok (some (read.1, pos' + (read.2 - pos))) :=
      hmoves data' pos' hsame
    unfold labelled
    dsimp only
    rw [hmoved]
    rfl

/-- A command without arguments. -/
theorem call_relocates (call : BackendCall) : Relocates AuroraResult.next moveAurora fun _ pos =>
    pure (some ⟨pos, s, [call]⟩) := by
  refine .of_size 0 (fun data pos a hpos h => ?_) fun _ _ _ _ _ => rfl
  obtain rfl := Option.some.inj (Except.ok.inj h)
  exact ⟨hpos, rfl⟩

theorem auroraCommand_relocates (codes : AuroraCodes) (subCmd : ℕ) :
    Relocates AuroraResult.next moveAurora fun data pos =>
      auroraCommand data pos bigEndian s codes subCmd := by
  unfold auroraCommand
  refine .ite (fun _ => .of_size 24 (fun data pos a _ h => ?_) fun _ _ _ _ => loadViewportRender_moved)
    fun _ => ?_
  · obtain ⟨hle, h⟩ := of_hasBytes h
    -- every number read lies in the bytes that the size was checked for, and so moves with them
    iterate 6 obtain ⟨_, h⟩ := of_read h
    obtain rfl := Option.some.inj (Except.ok.inj h)
    exact ⟨hle, rfl⟩
  refine .ite (fun _ => .of_size 16 (fun data pos a _ h => ?_) fun _ _ _ _ => loadScissorRender_moved)
    fun _ => ?_
  · obtain ⟨hle, h⟩ := of_hasBytes h
    iterate 4 obtain ⟨_, h⟩ := of_read h
    obtain rfl := Option.some.inj (Except.ok.inj h)
    exact ⟨hle, rfl⟩
  refine .ite (fun _ => .of_size 13 (fun data pos a _ h => ?_) fun _ _ _ _ => loadArrayBase_moved _)
    fun _ => ?_
  · obtain ⟨hle, h⟩ := of_hasBytes h
    iterate 3 obtain ⟨_, h⟩ := of_read h
    obtain rfl := Option.some.inj (Except.ok.inj h)
    exact ⟨hle, rfl⟩
  refine .ite (fun _ => .of_size 34 (fun data pos a _ h => ?_) fun _ _ _ _ => loadTexObj_moved)
    fun _ => ?_
  · obtain ⟨hle, h⟩ := of_hasBytes h
    obtain ⟨_, h⟩ := of_read h
    -- a slot that does not exist is refused before anything else is read
    split at h
    · cases h
    iterate 8 obtain ⟨_, h⟩ := of_read h
    obtain rfl := Option.some.inj (Except.ok.inj h)
    exact ⟨hle, rfl⟩
  refine .ite (fun _ => .of_size 23 (fun data pos a _ h => ?_) fun _ _ _ _ => loadTlut_moved)
    fun _ => ?_
  · obtain ⟨hle, h⟩ := of_hasBytes h
    obtain ⟨_, h⟩ := of_read h
    split at h
    · cases h
    iterate 5 obtain ⟨_, h⟩ := of_read h
    obtain rfl := Option.some.inj (Except.ok.inj h)
    exact ⟨hle, rfl⟩
  have hdestroy : ∀ evict, Relocates AuroraResult.next moveAurora fun data pos =>
      destroyObject data pos bigEndian s evict := by
    refine fun evict => .of_size 4 (fun data pos a _ h => ?_) fun _ _ _ _ => destroyObject_moved evict
    obtain ⟨hle, h⟩ := of_hasBytes h
    obtain ⟨_, h⟩ := of_read h
    obtain rfl := Option.some.inj (Except.ok.inj h)
    exact ⟨hle, rfl⟩
  refine .ite (fun _ => hdestroy _) fun _ => .ite (fun _ => hdestroy _) fun _ => ?_
  refine .ite (fun _ => .of_size 8 (fun data pos a _ h => ?_) fun _ _ _ _ => destroyCopyTex_moved)
    fun _ => ?_
  · obtain ⟨hle, h⟩ := of_hasBytes h
    obtain ⟨_, h⟩ := of_read h
    obtain rfl := Option.some.inj (Except.ok.inj h)
    exact ⟨hle, rfl⟩
  refine .ite (fun _ => call_relocates _) fun _ => .ite (fun _ => labelled_relocates _) fun _ => ?_
  refine .ite (fun _ => call_relocates _) fun _ => .ite (fun _ => labelled_relocates _) fun _ => ?_
  exact relocates_none

theorem handleAurora_relocates (codes : AuroraCodes) :
    Relocates AuroraResult.next moveAurora fun data pos => handleAurora data pos bigEndian s codes :=
  .after 2 fun subCmd => auroraCommand_relocates codes subCmd

/-! ### Commands -/

variable {b : Backend} {next : ℕ} {s t : FifoState}

/-- The header of a draw is made of its first two bytes. -/
theorem readDrawHeader_moved (command : ℕ) (h : Same data pos data' pos' 2) :
    readDrawHeader command data' pos' bigEndian s = readDrawHeader command data pos bigEndian s := by
  rw [readDrawHeader, readDrawHeader, readU16, readU16, read_kept_first h le_rfl,
    read_moved_first h le_rfl]

/-- A draw that is submitted by itself. -/
theorem singleDraw_eq_ok {active : Option DrawSink} {position : ℕ} {draw : DrawHeader}
    {records : List UInt8} (h : singleDraw active position draw records s = (.ok (some next), t)) :
    next = position ∧
      ∀ position', singleDraw active position' draw records s = (.ok (some position'), t) := by
  rw [singleDraw] at h
  rcases hsubmit : submitDraw active draw.layout draw.primitive draw.count records s with
    ⟨e | ⟨⟩, u⟩
  · rw [hsubmit] at h
    cases h
  · rw [hsubmit] at h
    obtain ⟨hnext, rfl⟩ := Prod.mk.inj h
    refine ⟨(Option.some.inj (Except.ok.inj hnext)).symm, fun position' => ?_⟩
    rw [singleDraw, hsubmit]
    rfl

theorem readDraw_relocates {active : Option DrawSink} {cmd : ℕ}
    (h : readDraw (singleDraw active) cmd data pos bigEndian s = (.ok (some next), t)) :
    pos ≤ next ∧ next ≤ data.length ∧ ∀ data' pos', Same data pos data' pos' (next - pos) →
      readDraw (singleDraw active) cmd data' pos' bigEndian s =
        (.ok (some (pos' + (next - pos))), t) := by
  rw [readDraw] at h
  split at h
  · cases h
  next hcount =>
  cases hheader : readDrawHeader cmd data pos bigEndian s with
  | error e =>
    rw [hheader] at h
    cases h
  | ok draw =>
    rw [hheader] at h
    dsimp only at h
    split at h
    · cases h
    next hrecords =>
    rw [readBytes, if_pos (by omega)] at h
    obtain ⟨rfl, hsingle⟩ := singleDraw_eq_ok h
    refine ⟨by omega, by omega, fun data' pos' hsame => ?_⟩
    have hright := hsame.right
    have hfirst : Same data pos data' pos' 2 := hsame.part (k := 0) (by omega)
    have hbody := (hsame.part (k := 2) (m := draw.count * draw.layout.stride) (by omega)).slice_eq
    rw [readDraw, if_neg (by omega), readDrawHeader_moved cmd hfirst, hheader]
    dsimp only
    rw [if_neg (by omega), readBytes, if_pos (by omega), ← hbody]
    dsimp only
    rw [hsingle]
    refine congrArg (fun n => (Except.ok (some n), t)) ?_
    omega

/-- The command at a position, which is whole if it loads registers of the transform unit. -/
def WholeAt (data : List UInt8) (pos : ℕ) (bigEndian : Bool) : Prop :=
  commandAt data pos &&& CP_OPCODE_MASK = CP_CMD_LOAD_XF_REG → xfWhole data (pos + 1) bigEndian

theorem afterRegisters_eq_ok {r : Except Fault (Option (ℕ × GXRegisterState))}
    (h : s.afterRegisters r = (.ok (some next), t)) : ∃ registers,
      r = .ok (some (next, registers)) ∧ t = { s with registers := registers } := by
  rcases r with e | _ | ⟨position, registers⟩
  · cases h
  · cases h
  · obtain ⟨hnext, rfl⟩ := Prod.mk.inj h
    obtain rfl := Option.some.inj (Except.ok.inj hnext)
    exact ⟨registers, rfl, rfl⟩

theorem afterAurora_eq_ok {r : Except Fault (Option AuroraResult)}
    (h : s.afterAurora r = (.ok (some next), t)) : ∃ a, r = .ok (some a) ∧ a.next = next ∧
      t = { s with registers := a.registers, calls := s.calls ++ a.calls } := by
  rcases r with e | _ | a
  · cases h
  · cases h
  · obtain ⟨hnext, rfl⟩ := Prod.mk.inj h
    exact ⟨a, rfl, Option.some.inj (Except.ok.inj hnext), rfl⟩

/-- A turn of the loop makes the same of the same bytes at another place. -/
theorem command_relocates {active : Option DrawSink} (hpos : pos < data.length)
    (hwhole : WholeAt data pos bigEndian)
    (h : command b (singleDraw active) data bigEndian pos s = (.ok (some next), t)) :
    pos < next ∧ next ≤ data.length ∧ ∀ data' pos', Same data pos data' pos' (next - pos) →
      command b (singleDraw active) data' bigEndian pos' s = (.ok (some (pos' + (next - pos))), t) := by
  have hcommand : ∀ {data' : List UInt8} {pos' n : ℕ}, Same data pos data' pos' n → 0 < n →
      pos' < data'.length ∧ commandAt data' pos' = commandAt data pos := by
    intro data' pos' n hsame hn
    have hright := hsame.right
    have hbyte := hsame.same 0 hn
    rw [Nat.add_zero, Nat.add_zero] at hbyte
    exact ⟨by omega, by rw [commandAt, commandAt, List.getD, List.getD, hbyte]⟩
  -- what the command makes of the bytes behind its number, and where the next one is
  have hbehind : ∀ {position : ℕ}, pos + 1 ≤ next → next = position →
      ∀ {data' : List UInt8} {pos' : ℕ}, Same data pos data' pos' (next - pos) →
        Same data (pos + 1) data' (pos' + 1) (position - (pos + 1)) ∧
        pos' + 1 + (position - (pos + 1)) = pos' + (next - pos) := by
    intro position hle heq data' pos' hsame
    exact ⟨hsame.part (by omega), by omega⟩
  by_cases hregister : isRegisterCmd (commandAt data pos &&& CP_OPCODE_MASK) = true
  · rw [command_register hpos hregister] at h
    obtain ⟨registers, hresult, rfl⟩ := afterRegisters_eq_ok h
    have hmoves : pos + 1 ≤ next ∧ next ≤ data.length ∧ ∀ data' pos',
        Same data (pos + 1) data' pos' (next - (pos + 1)) →
          registerCommand data' pos' bigEndian s.registers b.host
            (commandAt data pos &&& CP_OPCODE_MASK) =
              .ok (some (pos' + (next - (pos + 1)), registers)) := by
      by_cases hxf : commandAt data pos &&& CP_OPCODE_MASK = CP_CMD_LOAD_XF_REG
      · have hload : ∀ data' pos', registerCommand data' pos' bigEndian s.registers b.host
            (commandAt data pos &&& CP_OPCODE_MASK) = loadXfReg data' pos' bigEndian s.registers := by
          intro data' pos'
          rw [hxf]
          rfl
        rw [hload] at hresult
        simp only [hload]
        exact loadXfReg_relocates (hwhole hxf) hresult
      · exact registerCommand_relocates b.host hxf data (pos + 1) _ hpos hresult
    obtain ⟨hstart, hstop, hmoves⟩ := hmoves
    refine ⟨hstart, hstop, fun data' pos' hsame => ?_⟩
    obtain ⟨hpos', hsameCommand⟩ := hcommand hsame (by omega)
    obtain ⟨hrest, hposition⟩ := hbehind hstart rfl hsame
    rw [command_register hpos' (by rwa [hsameCommand]), hsameCommand, hmoves _ _ hrest,
      FifoState.afterRegisters, hposition]
  rw [Bool.not_eq_true] at hregister
  by_cases hload : commandAt data pos &&& CP_OPCODE_MASK = b.codes.load
  · rw [command_aurora hpos hregister hload] at h
    obtain ⟨a, hresult, rfl, rfl⟩ := afterAurora_eq_ok h
    obtain ⟨hstart, hstop, hmoves⟩ :=
      handleAurora_relocates b.codes data (pos + 1) a hpos hresult
    refine ⟨hstart, hstop, fun data' pos' hsame => ?_⟩
    obtain ⟨hpos', hsameCommand⟩ := hcommand hsame (by omega)
    obtain ⟨hrest, hposition⟩ := hbehind hstart rfl hsame
    have hmoved : handleAurora data' (pos' + 1) bigEndian s.registers b.codes =
        .ok (some (moveAurora a (pos' + 1 + (a.next - (pos + 1))))) := hmoves _ _ hrest
    rw [command_aurora hpos' (by rwa [hsameCommand]) (by rwa [hsameCommand]), hmoved,
      FifoState.afterAurora, hposition]
    rfl
  by_cases hdraw : isDrawCmd (commandAt data pos) = true
  · rw [command_draw hpos hdraw] at h
    obtain ⟨hstart, hstop, hmoves⟩ := readDraw_relocates h
    refine ⟨hstart, hstop, fun data' pos' hsame => ?_⟩
    obtain ⟨hpos', hsameCommand⟩ := hcommand hsame (by omega)
    obtain ⟨hrest, hposition⟩ := hbehind hstart rfl hsame
    rw [command_draw hpos' (by rwa [hsameCommand]), hsameCommand, hmoves _ _ hrest, hposition]
  · rw [Bool.not_eq_true] at hdraw
    rw [command_unknown hpos hregister hload hdraw] at h
    obtain ⟨hnext, rfl⟩ := Prod.mk.inj h
    obtain rfl := Option.some.inj (Except.ok.inj hnext)
    refine ⟨Nat.lt_succ_self pos, hpos, fun data' pos' hsame => ?_⟩
    obtain ⟨hpos', hsameCommand⟩ := hcommand hsame (by omega)
    rw [command_unknown hpos' (by rwa [hsameCommand]) (by rwa [hsameCommand])
      (by rwa [hsameCommand])]
    refine congrArg (fun n => (Except.ok (some n), s)) ?_
    omega

end Gx
