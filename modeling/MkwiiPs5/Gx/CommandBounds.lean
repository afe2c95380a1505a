import MkwiiPs5.Gx.RegisterBounds

/-!
# Commands stay in the data

What a command on registers or of the Aurora frontend reads is in the data, and the position after it
is there as well. A command of which a part is missing does nothing.
-/

namespace Gx

open Bytes (slice number)
open Overlay (beyond_write write)

variable {data : List UInt8} {pos : ℕ} {bigEndian : Bool} {s : GXRegisterState}

/-- The command ends in the data, and nothing outside of the arrays changes. -/
structure Within (data : List UInt8) (pos : ℕ) (s : GXRegisterState) (next : ℕ)
    (t : GXRegisterState) : Prop where
  start : pos ≤ next
  stop : next ≤ data.length
  beyond : t.beyond = s.beyond

/-- Every result is of this kind, and there is no fault. -/
def Safe {α : Type} (Q : α → Prop) (r : Except Fault (Option α)) : Prop :=
  Loop.Post r (fun result => ∀ a ∈ result, Q a) fun _ => False

theorem safe_none {α : Type} {Q : α → Prop} : Safe Q (pure none) := by
  intro a ha
  cases ha

theorem safe_some {α : Type} {Q : α → Prop} {a : α} (h : Q a) : Safe Q (pure (some a)) := by
  intro b hb
  cases hb
  exact h

/-- The read of a number that is there, and what follows. -/
theorem safe_readUint {α : Type} {Q : α → Prop} {n : ℕ} {f : ℕ → Except Fault (Option α)}
    (h : pos + n ≤ data.length) (hf : ∀ value < 256 ^ n, Safe Q (f value)) :
    Safe Q (readUint data pos n bigEndian >>= f) := by
  rw [readUint_ok h]
  refine hf _ ?_
  have hlt := Bytes.number_lt (!bigEndian) (slice data pos n)
  rwa [Bytes.length_slice h] at hlt

theorem safe_ite {α : Type} {Q : α → Prop} {c : Prop} [Decidable c]
    {r r' : Except Fault (Option α)} (hr : c → Safe Q r) (hr' : Safe Q r') :
    Safe Q (if c then r else r') := by
  split
  · next hc => exact hr hc
  · exact hr'

/-- What follows the test for bytes. -/
theorem safe_hasBytes {α : Type} {Q : α → Prop} {needed : ℕ} {r : Except Fault (Option α)}
    (hpos : pos ≤ data.length) (h : pos + needed ≤ data.length → Safe Q r) :
    Safe Q (if hasBytes pos data.length needed then r else pure none) := by
  split
  · next hbytes => exact h ((hasBytes_iff hpos).1 hbytes)
  · exact safe_none

theorem hasBytes_missing {α : Type} {needed : ℕ} {r : Except Fault (Option α)}
    (hpos : pos ≤ data.length) (h : data.length < pos + needed) :
    (if hasBytes pos data.length needed then r else pure none) = .ok none := by
  rw [if_neg]
  · rfl
  · rw [hasBytes_iff hpos]
    omega

/-! ### Commands on registers -/

theorem loadBpReg_safe (hpos : pos ≤ data.length) :
    Safe (fun r => Within data pos s r.1 r.2) (loadBpReg data pos bigEndian s) :=
  safe_hasBytes hpos fun h => safe_readUint h fun value _ =>
    safe_some ⟨Nat.le_add_right pos 4, h, handleBp_beyond true value s⟩

theorem loadCpReg_safe (hpos : pos ≤ data.length) :
    Safe (fun r => Within data pos s r.1 r.2) (loadCpReg data pos bigEndian s) :=
  safe_hasBytes hpos fun h => safe_readUint (by omega) fun addr _ =>
    safe_readUint (by omega) fun value _ =>
      safe_some ⟨Nat.le_add_right pos 5, h, handleCp_beyond true addr value s⟩

theorem callDl_safe (hpos : pos ≤ data.length) :
    Safe (fun r => Within data pos s r.1 r.2) (callDl data pos s) :=
  safe_hasBytes hpos fun h => safe_some ⟨Nat.le_add_right pos 8, h, rfl⟩

theorem burst_within {arrays : ℕ → AttrArray} {burst : ℕ × List ℕ}
    (h : (Load.immediate data pos bigEndian).burst arrays = some burst) :
    pos + 4 + burst.2.length * 4 ≤ data.length := by
  rw [Load.burst] at h
  split at h
  · obtain rfl := Option.some.inj h
    rw [List.length_map, List.length_range]
    omega
  · cases h

theorem handleXf_within (bigEndian : Bool) (s : GXRegisterState) (hpos : pos ≤ data.length) :
    ∃ r, handleXf true data pos bigEndian s = .ok r ∧ Within data pos s r.1 r.2 := by
  rw [handleXf, readXf_eq s.decoded.vertex.arrays]
  cases hburst : (Load.immediate data pos bigEndian).burst s.decoded.vertex.arrays with
  | none => exact ⟨_, rfl, hpos, Nat.le_refl _, rfl⟩
  | some burst =>
    refine ⟨_, rfl, ?_, burst_within hburst, GXRegisterState.writeXf_beyond true _ _ s⟩
    exact Nat.le_add_right_of_le (Nat.le_add_right pos 4)

/-- A burst of which a part is missing ends the data. -/
theorem handleXf_missing (h : data.length <
    pos + 4 + 4 * (number (!bigEndian) (slice data pos 4) / 2 ^ 16 % 2 ^ 16 + 1)) :
    handleXf true data pos bigEndian s = .ok (data.length, s) := by
  rw [handleXf, readXf_eq s.decoded.vertex.arrays, Load.burst, if_neg (by omega)]
  rfl

theorem loadXfReg_safe (hpos : pos ≤ data.length) :
    Safe (fun r => Within data pos s r.1 r.2) (loadXfReg data pos bigEndian s) := by
  obtain ⟨r, hr, hwithin⟩ := handleXf_within bigEndian s hpos
  rw [loadXfReg, hr]
  exact safe_some hwithin

theorem loadIndx_safe (host : ℕ → UInt8) (opcode : ℕ) (hpos : pos ≤ data.length) :
    Safe (fun r => Within data pos s r.1 r.2) (loadIndx host opcode data pos bigEndian s) := by
  refine safe_hasBytes hpos fun h => safe_readUint h fun value _ => ?_
  dsimp only
  split
  · exact safe_some ⟨Nat.le_add_right pos 4, h, rfl⟩
  · split
    · next matrices hcopy =>
      refine safe_some ⟨Nat.le_add_right pos 4, h, ?_⟩
      dsimp only
      rw [GXRegisterState.beyond, Decoded.beyond]
      dsimp only
      rw [copyXfData_beyond hcopy]
      rfl
    · exact safe_some ⟨Nat.le_add_right pos 4, h, rfl⟩

/-- The array that an indexed load reads. -/
def sourceArray (opcode : ℕ) (s : GXRegisterState) : AttrArray :=
  s.decoded.vertex.arrays (GX_POS_MTX_ARRAY + (opcode - CP_CMD_LOAD_INDX_A) / 0x08)

/-- The words of an array of the host. -/
theorem hostWords_congr {host host' : ℕ → UInt8} {base size offset count : ℕ}
    (h : ∀ i < size, host' (base + i) = host (base + i)) (hin : offset + count * 4 ≤ size) :
    hostWords host' (base + offset) count bigEndian =
      hostWords host (base + offset) count bigEndian := by
  refine List.map_congr_left fun i hi => congrArg _ (Overlay.load_congr fun p hlo hhi => ?_)
  rw [List.mem_range] at hi
  rw [show p = base + (p - base) by omega]
  exact h _ (by omega)

/-- Only memory of the array that was declared is read. -/
theorem loadIndx_congr {host host' : ℕ → UInt8} {opcode : ℕ}
    (h : ∀ i < (sourceArray opcode s).size.toNat,
      host' ((sourceArray opcode s).data + i) = host ((sourceArray opcode s).data + i)) :
    loadIndx host' opcode data pos bigEndian s = loadIndx host opcode data pos bigEndian s := by
  simp only [sourceArray] at h
  rw [loadIndx, loadIndx]
  split
  · refine Loop.bind_congr fun value _ => ?_
    dsimp only
    split
    · rfl
    · next hsource =>
      rw [hostWords_congr h (Nat.le_of_not_gt fun hlarge => hsource (Or.inr (Or.inr hlarge)))]
  · rfl

/-! ### Commands of the Aurora frontend -/

theorem safe_readF32 {α : Type} {Q : α → Prop} {f : Float32 → Except Fault (Option α)}
    (h : pos + 4 ≤ data.length) (hf : ∀ value, Safe Q (f value)) :
    Safe Q (readF32 data pos bigEndian >>= f) := by
  rw [readF32, readU32, readUint_ok h]
  exact hf _

theorem loadViewportRender_safe (hpos : pos ≤ data.length) :
    Safe (fun r => Within data pos s r.next r.registers)
      (loadViewportRender data pos bigEndian s) :=
  safe_hasBytes hpos fun h => safe_readF32 (by omega) fun _ => safe_readF32 (by omega) fun _ =>
    safe_readF32 (by omega) fun _ => safe_readF32 (by omega) fun _ =>
    safe_readF32 (by omega) fun _ => safe_readF32 (by omega) fun _ =>
    safe_some ⟨Nat.le_add_right pos 24, h, rfl⟩

theorem loadScissorRender_safe (hpos : pos ≤ data.length) :
    Safe (fun r => Within data pos s r.next r.registers)
      (loadScissorRender data pos bigEndian s) :=
  safe_hasBytes hpos fun h => safe_readUint (by omega) fun _ _ =>
    safe_readUint (by omega) fun _ _ => safe_readUint (by omega) fun _ _ =>
    safe_readUint (by omega) fun _ _ => safe_some ⟨Nat.le_add_right pos 16, h, rfl⟩

theorem VertexState.arrays_beyond {attr : ℕ} (h : attr < MaxVtxAttr) (array : AttrArray)
    (v : VertexState) :
    VertexState.beyond { v with arrays := write v.arrays attr [array] } = v.beyond := by
  rw [beyond]
  dsimp only
  rw [beyond_write h]
  rfl

theorem loadArrayBase_safe {attr : ℕ} (hattr : attr < MaxVtxAttr) (hpos : pos ≤ data.length) :
    Safe (fun r => Within data pos s r.next r.registers)
      (loadArrayBase data pos bigEndian s attr) := by
  refine safe_hasBytes hpos fun h => safe_readUint (by omega) fun address _ =>
    safe_readUint (by omega) fun size _ => safe_readUint (by omega) fun le _ =>
    safe_some ⟨Nat.le_add_right pos 13, h, ?_⟩
  rw [AuroraResult.fields, GXRegisterState.beyond, Decoded.beyond]
  dsimp only
  rw [VertexState.arrays_beyond hattr]
  rfl

theorem loadTexObj_safe (hpos : pos ≤ data.length) :
    Safe (fun r => Within data pos s r.next r.registers) (loadTexObj data pos bigEndian s) := by
  refine safe_hasBytes hpos fun h => safe_readUint (by omega) fun map _ => ?_
  split
  · exact safe_none
  · next hmap =>
    refine safe_readUint (by omega) fun _ _ => safe_readUint (by omega) fun _ _ =>
      safe_readUint (by omega) fun _ _ => safe_readUint (by omega) fun _ _ =>
      safe_readUint (by omega) fun _ _ => safe_readUint (by omega) fun _ _ =>
      safe_readUint (by omega) fun _ _ => safe_readUint (by omega) fun _ _ =>
      safe_some ⟨Nat.le_add_right pos 34, h, ?_⟩
    rw [AuroraResult.fields, GXRegisterState.beyond, Decoded.beyond]
    dsimp only
    rw [beyond_write (Nat.lt_of_not_le hmap)]
    rfl

theorem loadTlut_safe (hpos : pos ≤ data.length) :
    Safe (fun r => Within data pos s r.next r.registers) (loadTlut data pos bigEndian s) := by
  refine safe_hasBytes hpos fun h => safe_readUint (by omega) fun idx _ => ?_
  split
  · exact safe_none
  · next hidx =>
    refine safe_readUint (by omega) fun _ _ => safe_readUint (by omega) fun _ _ =>
      safe_readUint (by omega) fun _ _ => safe_readUint (by omega) fun _ _ =>
      safe_readUint (by omega) fun _ _ => safe_some ⟨Nat.le_add_right pos 23, h, ?_⟩
    rw [AuroraResult.fields, GXRegisterState.beyond, Decoded.beyond]
    dsimp only
    rw [beyond_write (Nat.lt_of_not_le hidx)]
    rfl

theorem evictTextureObject_beyond (id : ℕ) (d : Decoded) :
    (evictTextureObject id d).beyond = d.beyond := by
  rw [evictTextureObject, Decoded.beyond]
  dsimp only
  rw [beyond_write (by rw [List.length_map, List.length_range, Nat.zero_add])]
  rfl

theorem evictTlutObject_beyond (id : ℕ) (d : Decoded) :
    (evictTlutObject id d).beyond = d.beyond := by
  rw [evictTlutObject, Decoded.beyond]
  dsimp only
  rw [beyond_write (by rw [List.length_map, List.length_range, Nat.zero_add])]
  rfl

theorem destroyObject_safe {evict : ℕ → Decoded → Decoded}
    (hevict : ∀ id d, (evict id d).beyond = d.beyond) (hpos : pos ≤ data.length) :
    Safe (fun r => Within data pos s r.next r.registers)
      (destroyObject data pos bigEndian s evict) := by
  refine safe_hasBytes hpos fun h => safe_readUint h fun id _ =>
    safe_some ⟨Nat.le_add_right pos 4, h, ?_⟩
  rw [AuroraResult.fields, GXRegisterState.beyond]
  dsimp only
  rw [hevict]
  rfl

theorem destroyCopyTex_safe (hpos : pos ≤ data.length) :
    Safe (fun r => Within data pos s r.next r.registers) (destroyCopyTex data pos bigEndian s) :=
  safe_hasBytes hpos fun h => safe_readUint h fun _ _ =>
    safe_some ⟨Nat.le_add_right pos 8, h, rfl⟩

theorem labelled_safe (call : List UInt8 → BackendCall) (hpos : pos ≤ data.length) :
    Safe (fun r => Within data pos s r.next r.registers) (labelled data pos bigEndian s call) := by
  rw [labelled, readString]
  split
  · next hbytes =>
    rw [hasBytes_iff hpos] at hbytes
    rw [readU16, readUint_ok hbytes]
    generalize number (!bigEndian) (slice data pos 2) = length
    show Safe _ ((if hasBytes (pos + 2) data.length length then _ else _) >>= _)
    split
    · next hlabel =>
      rw [hasBytes_iff hbytes] at hlabel
      rw [readBytes, if_pos hlabel]
      exact safe_some ⟨by dsimp only; omega, hlabel, rfl⟩
    · exact safe_none
  · exact safe_none

theorem arrayBase_lt {base subCmd : ℕ} (h : subCmd ≤ base ||| 0x0f) :
    subCmd - base + GX_VA_POS < MaxVtxAttr := by
  have hhigh : (base ||| 0x0f) / 2 ^ 4 = base / 2 ^ 4 := by
    rw [Nat.or_div_two_pow]
    exact Nat.or_zero _
  rw [GX_VA_POS, MaxVtxAttr]
  omega

theorem auroraCommand_safe (codes : AuroraCodes) (subCmd : ℕ) (hpos : pos ≤ data.length) :
    Safe (fun r => Within data pos s r.next r.registers)
      (auroraCommand data pos bigEndian s codes subCmd) := by
  have hcall : ∀ call, Safe (fun r : AuroraResult => Within data pos s r.next r.registers)
      (pure (some ⟨pos, s, [call]⟩)) := fun call => safe_some ⟨Nat.le_refl pos, hpos, rfl⟩
  refine safe_ite (fun _ => loadViewportRender_safe hpos) ?_
  refine safe_ite (fun _ => loadScissorRender_safe hpos) ?_
  refine safe_ite (fun harray => loadArrayBase_safe (arrayBase_lt harray.2) hpos) ?_
  refine safe_ite (fun _ => loadTexObj_safe hpos) ?_
  refine safe_ite (fun _ => loadTlut_safe hpos) ?_
  refine safe_ite (fun _ => destroyObject_safe evictTextureObject_beyond hpos) ?_
  refine safe_ite (fun _ => destroyObject_safe evictTlutObject_beyond hpos) ?_
  refine safe_ite (fun _ => destroyCopyTex_safe hpos) ?_
  refine safe_ite (fun _ => hcall _) ?_
  refine safe_ite (fun _ => labelled_safe _ hpos) ?_
  refine safe_ite (fun _ => hcall _) ?_
  exact safe_ite (fun _ => labelled_safe _ hpos) safe_none

theorem Within.after {next : ℕ} {t : GXRegisterState} (h : Within data (pos + 2) s next t) :
    Within data pos s next t :=
  { h with start := Nat.le_of_add_right_le h.start }

theorem handleAurora_safe (codes : AuroraCodes) (hpos : pos ≤ data.length) :
    Safe (fun r => Within data pos s r.next r.registers)
      (handleAurora data pos bigEndian s codes) :=
  safe_hasBytes hpos fun h => safe_readUint h fun subCmd _ =>
    (auroraCommand_safe codes subCmd h).mono fun _ hresult r hr => (hresult r hr).after

theorem registerCommand_safe (host : ℕ → UInt8) (opcode : ℕ) (hpos : pos ≤ data.length) :
    Safe (fun r => Within data pos s r.1 r.2)
      (registerCommand data pos bigEndian s host opcode) := by
  rw [registerCommand]
  split_ifs
  · exact loadBpReg_safe hpos
  · exact loadCpReg_safe hpos
  · exact loadXfReg_safe hpos
  · exact loadIndx_safe host opcode hpos
  · exact callDl_safe hpos
  · exact safe_some ⟨Nat.le_refl pos, hpos, rfl⟩

/-! ### Commands of which a part is missing -/

/-- Bytes of the operands of a command on registers, which may start with a header. -/
def registerBytes (opcode header : ℕ) : ℕ :=
  if opcode = CP_CMD_LOAD_BP_REG then 4
  else if opcode = CP_CMD_LOAD_CP_REG then 5
  else if opcode = CP_CMD_LOAD_XF_REG then 4 + 4 * (header / 2 ^ 16 % 2 ^ 16 + 1)
  else if isLoadIndx opcode then 4
  else if opcode = CP_CMD_CALL_DL then 8
  else 0

/-- Bytes of the operands of a command of the Aurora frontend, which may be a label. -/
def auroraBytes (codes : AuroraCodes) (subCmd label : ℕ) : ℕ :=
  if subCmd = codes.viewportRender then 24
  else if subCmd = codes.scissorRender then 16
  else if codes.arrayBase ≤ subCmd ∧ subCmd ≤ codes.arrayBase ||| 0x0f then 13
  else if subCmd = codes.texObj then 34
  else if subCmd = codes.tlut then 23
  else if subCmd = codes.destroyTexObj then 4
  else if subCmd = codes.destroyTlut then 4
  else if subCmd = codes.destroyCopyTex then 8
  else if subCmd = codes.invalidateTexAll then 0
  else if subCmd = codes.debugGroupPush then 2 + label
  else if subCmd = codes.debugGroupPop then 0
  else if subCmd = codes.debugMarkerInsert then 2 + label
  else 0

theorem registerCommand_missing {host : ℕ → UInt8} {opcode : ℕ} (hpos : pos ≤ data.length)
    (h : data.length < pos + registerBytes opcode (number (!bigEndian) (slice data pos 4))) :
    registerCommand data pos bigEndian s host opcode = .ok none ∨
      registerCommand data pos bigEndian s host opcode = .ok (some (data.length, s)) := by
  rw [registerBytes] at h
  rw [registerCommand]
  split_ifs at h ⊢
  · exact Or.inl (hasBytes_missing hpos h)
  · exact Or.inl (hasBytes_missing hpos h)
  · refine Or.inr ?_
    rw [loadXfReg, handleXf_missing (by omega)]
    rfl
  · exact Or.inl (hasBytes_missing hpos h)
  · exact Or.inl (hasBytes_missing hpos h)
  · omega

theorem labelled_missing {call : List UInt8 → BackendCall} (hpos : pos ≤ data.length)
    (h : data.length < pos + (2 + number (!bigEndian) (slice data pos 2))) :
    labelled data pos bigEndian s call = .ok none := by
  rw [labelled, readString]
  split
  · next hbytes =>
    rw [hasBytes_iff hpos] at hbytes
    rw [readU16, readUint_ok hbytes]
    show (if hasBytes (pos + 2) data.length (number (!bigEndian) (slice data pos 2)) then _
      else _) >>= _ = _
    rw [hasBytes_missing hbytes (by omega)]
    rfl
  · rfl

/-- Both branches of a test need what is missing. -/
theorem ite_missing {α : Type} {c : Prop} [Decidable c] {n m : ℕ} {r r' : Except Fault (Option α)}
    (h : data.length < pos + if c then n else m) (hr : data.length < pos + n → r = .ok none)
    (hr' : data.length < pos + m → r' = .ok none) : (if c then r else r') = .ok none := by
  split at h
  · next hc => rw [if_pos hc, hr h]
  · next hc => rw [if_neg hc, hr' h]

theorem auroraCommand_missing {codes : AuroraCodes} {subCmd : ℕ} (hpos : pos ≤ data.length)
    (h : data.length <
      pos + auroraBytes codes subCmd (number (!bigEndian) (slice data pos 2))) :
    auroraCommand data pos bigEndian s codes subCmd = .ok none := by
  have hnone : ∀ {r : Except Fault (Option AuroraResult)}, data.length < pos + 0 → r = .ok none :=
    fun hlt => absurd hpos (Nat.not_le_of_lt hlt)
  refine ite_missing h (hasBytes_missing hpos) fun h => ?_
  refine ite_missing h (hasBytes_missing hpos) fun h => ?_
  refine ite_missing h (hasBytes_missing hpos) fun h => ?_
  refine ite_missing h (hasBytes_missing hpos) fun h => ?_
  refine ite_missing h (hasBytes_missing hpos) fun h => ?_
  refine ite_missing h (hasBytes_missing hpos) fun h => ?_
  refine ite_missing h (hasBytes_missing hpos) fun h => ?_
  refine ite_missing h (hasBytes_missing hpos) fun h => ?_
  refine ite_missing h hnone fun h => ?_
  refine ite_missing h (labelled_missing hpos) fun h => ?_
  refine ite_missing h hnone fun h => ?_
  exact ite_missing h (labelled_missing hpos) hnone

theorem handleAurora_missing {codes : AuroraCodes} (hpos : pos ≤ data.length)
    (h : data.length < pos + (2 + auroraBytes codes (number (!bigEndian) (slice data pos 2))
      (number (!bigEndian) (slice data (pos + 2) 2)))) :
    handleAurora data pos bigEndian s codes = .ok none := by
  rw [handleAurora]
  split
  · next hbytes =>
    rw [hasBytes_iff hpos] at hbytes
    rw [readU16, readUint_ok hbytes]
    exact auroraCommand_missing hbytes (by omega)
  · rfl

end Gx
