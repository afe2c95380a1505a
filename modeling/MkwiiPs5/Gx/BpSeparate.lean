import Mathlib.Tactic.IntervalCases
import MkwiiPs5.Gx.BpDecoder

/-!
# BP registers are separate

What a BP register decodes to stays until the register is written again, whatever the other BP
registers are written with. The exceptions are genMode (0x00), which shares the counts with XF
registers, and the TLUT load (0x65), which reads the address of another register.
-/

namespace Gx

open Overlay (write write_write write_comm write_singleton)
open RegisterFile

theorem bpGet_lt (reg size shift : ℕ) : bpGet reg size shift < 2 ^ size := by
  rw [bpGet, Nat.one_shiftLeft, Nat.and_two_pow_sub_one_eq_mod]
  exact Nat.mod_lt _ (Nat.two_pow_pos _)

/-! ### A few registers with fields of their own -/

theorem CopyState.bp_separate (r : ℕ) : Separate (fun _ => CopyState.bp) r := by
  apply Separate.of_pairwise [0x49, 0x4A, 0x4D, 0x4E, 0x4F, 0x50, 0x51, 0x52]
  · intro r hr w c
    simp only [List.mem_cons, List.not_mem_nil, or_false, not_or] at hr
    simp only [bp, hr, if_false]
  · simp [bp]
    -- a scale of zero keeps the old factor, both times
    intro w c h h'
    exact absurd h' h
  · simp [bp]

theorem PixelState.bp_separate (r : ℕ) : Separate (fun _ => PixelState.bp) r := by
  apply Separate.of_pairwise [0x40, 0x41, 0x44, 0x58, 0x68, 0xF3, 0xF4, 0xF5]
  · intro r hr w p
    simp only [List.mem_cons, List.not_mem_nil, or_false, not_or] at hr
    simp only [bp, hr, if_false]
  · simp [bp]
  · simp [bp]

theorem FogState.bp_separate (r : ℕ) : Separate (fun _ => FogState.bp) r := by
  apply Separate.of_pairwise [0xEE, 0xEF, 0xF0, 0xF1, 0xF2]
  · intro r hr w f
    simp only [List.mem_cons, List.not_mem_nil, or_false, not_or] at hr
    simp only [bp, hr, if_false]
  · simp [bp]
  · simp [bp]

theorem IndStages.bp_separate (r : ℕ) : Separate (fun _ => IndStages.bp) r := by
  apply Separate.of_pairwise [0x25, 0x26, 0x27]
  · intro r hr w s
    simp only [List.mem_cons, List.not_mem_nil, or_false, not_or] at hr
    simp only [bp, hr, if_false]
  · simp [bp, write_write]
  · simp [bp]
    intro w w' s
    apply write_comm
    rw [Interval.Meets]
    simp

theorem bpIndTexMask_separate (r : ℕ) : Separate (fun _ => bpIndTexMask) r := by
  apply Separate.of_pairwise [0x0F]
  · intro r hr w mask
    rw [bpIndTexMask, if_neg (by simpa using hr)]
  · simp [bpIndTexMask]
  · simp

theorem LinePoint.bp_separate (r : ℕ) : Separate (fun _ => LinePoint.bp) r := by
  apply Separate.of_pairwise [0x22]
  · intro r hr w l
    rw [bp, if_neg (by simpa using hr)]
  · simp [bp]
  · simp

/-! ### Blocks of arrays -/

theorem bpFogRange_separate (r : ℕ) : Separate (fun _ => bpFogRange) r := by
  show Separate (fun _ => block (fun r => 0xE8 ≤ r ∧ r ≤ 0xED) (fun r => r - 0xE8)
    fun _ value => [value &&& 0x00ffffff]) r
  apply Separate.block fun _ => 1
  · exact fun _ _ _ => rfl
  · omega

theorem bpBoundingBox_separate (r : ℕ) : Separate (fun _ => bpBoundingBox) r := by
  show Separate (fun _ => block (fun r => r = 0x55 ∨ r = 0x56) (fun r => r &&& 2)
    fun _ value => [value &&& 0x3ff, (value >>> 10) &&& 0x3ff]) r
  apply Separate.block fun _ => 2
  · exact fun _ _ _ => rfl
  · rintro r r' (rfl | rfl) (rfl | rfl) hne <;> first | exact absurd rfl hne | decide

theorem bpTexCoordScaleS_separate (r : ℕ) : Separate (fun _ => bpTexCoordScaleS) r := by
  show Separate (fun _ => block (fun r => (0x30 ≤ r ∧ r ≤ 0x3F) ∧ r &&& 1 = 0)
    (fun r => (r - 0x30) / 2) fun _ value => [(⟨bpGet value 16 0, bpFlag value 16,
      bpFlag value 17, bpFlag value 18, bpFlag value 19⟩ : TexCoordScaleS)]) r
  apply Separate.block fun _ => 1
  · exact fun _ _ _ => rfl
  · simp only [Nat.and_one_is_mod]
    omega

theorem bpTexCoordScaleT_separate (r : ℕ) : Separate (fun _ => bpTexCoordScaleT) r := by
  show Separate (fun _ => block (fun r => (0x30 ≤ r ∧ r ≤ 0x3F) ∧ r &&& 1 ≠ 0)
    (fun r => (r - 0x30) / 2) fun _ value => [(⟨bpGet value 16 0, bpFlag value 16,
      bpFlag value 17⟩ : TexCoordScaleT)]) r
  apply Separate.block fun _ => 1
  · exact fun _ _ _ => rfl
  · simp only [Nat.and_one_is_mod]
    omega

theorem TexCoordScales.bp_separate (r : ℕ) : Separate (fun _ => TexCoordScales.bp) r := by
  apply ((bpTexCoordScaleS_separate r).prod (bpTexCoordScaleT_separate r)).of_injective
    fun t => (t.s, t.t)
  · rintro ⟨⟩ ⟨⟩ h
    cases h
    rfl
  · exact fun _ _ _ _ => rfl

theorem CopyFilter.bp_separate (r : ℕ) : Separate (fun _ => CopyFilter.bp) r := by
  apply Separate.of_comm
  · intro w f
    simp only [bp]
    split_ifs
    · simp only [refreshCopyFilterFlags, write_write]
    · simp only [refreshCopyFilterFlags, write_write]
    · simp only [refreshCopyFilterFlags, write_write]
    · rfl
  · intro r' w w' f hne
    have hsamples : 1 ≤ r ∧ r ≤ 4 → 1 ≤ r' ∧ r' ≤ 4 → ∀ (a : ℕ → ℕ) (d e : List ℕ),
        d.length = 6 → e.length = 6 → write (write a ((r' - 1) * 6) d) ((r - 1) * 6) e =
          write (write a ((r - 1) * 6) e) ((r' - 1) * 6) d := by
      intro hs hs' a d e hd he
      apply write_comm
      rw [Interval.Meets]
      omega
    have htaps : ∀ (a : ℕ → ℕ) (d e : List ℕ), d.length = 4 →
        write (write a 0 d) 4 e = write (write a 4 e) 0 d := by
      intro a d e hd
      apply write_comm
      rw [Interval.Meets]
      omega
    -- the flags are computed anew by the later of two writes
    simp only [bp]
    by_cases hs : 1 ≤ r ∧ r ≤ 4
    · by_cases hs' : 1 ≤ r' ∧ r' ≤ 4
      · simp only [hs, hs', and_self, if_true, refreshCopyFilterFlags]
        rw [hsamples hs hs']
        · simp
        · simp
      · simp only [hs, hs', and_self, if_true, if_false, refreshCopyFilterFlags]
        split_ifs <;> rfl
    · by_cases hs' : 1 ≤ r' ∧ r' ≤ 4
      · simp only [hs, hs', and_self, if_true, if_false, refreshCopyFilterFlags]
        split_ifs <;> rfl
      · simp only [hs, hs', if_false, refreshCopyFilterFlags]
        split_ifs
        all_goals first | omega | rfl | (rw [htaps]; rfl)

/-! ### TEV stages -/

/-- A register of the TEV stages writes the stages that are in the array. -/
def stageBlock {α : Type*} (P : ℕ → Prop) [DecidablePred P] (stage : ℕ → ℕ) (data : ℕ → List α)
    (r value : ℕ) (a : ℕ → α) : ℕ → α :=
  if P r then writeStages a (stage r) (data value) else a

theorem stageBlock_separate {α : Type*} {P : ℕ → Prop} [DecidablePred P] {stage : ℕ → ℕ}
    {data : ℕ → List α} (n : ℕ) (hlen : ∀ w, (data w).length = n)
    (hapart : ∀ r r', P r → P r' → r ≠ r' →
      stage r + n ≤ stage r' ∨ stage r' + n ≤ stage r) (r : ℕ) :
    Separate (fun _ => stageBlock P stage data) r := by
  show Separate (fun _ => block P stage fun r w => (data w).take (MaxTevStages - stage r)) r
  apply Separate.block fun r => min (MaxTevStages - stage r) n
  · intro r w _
    rw [List.length_take, hlen]
  · intro r r' hr hr' hne
    have h := hapart r r' hr hr' hne
    omega

theorem bpTevColor_separate (r : ℕ) : Separate (fun _ => bpTevColor) r := by
  show Separate (fun _ => stageBlock (fun r => 0xC0 ≤ r ∧ r ≤ 0xDE ∧ r &&& 1 = 0)
    (fun r => (r - 0xC0) / 2) fun value => [decodeTevColor value]) r
  apply stageBlock_separate 1 fun _ => rfl
  simp only [Nat.and_one_is_mod]
  omega

theorem bpTevAlpha_separate (r : ℕ) : Separate (fun _ => bpTevAlpha) r := by
  show Separate (fun _ => stageBlock (fun r => 0xC1 ≤ r ∧ r ≤ 0xDF ∧ r &&& 1 = 1)
    (fun r => (r - 0xC1) / 2) fun value => [decodeTevAlpha value]) r
  apply stageBlock_separate 1 fun _ => rfl
  simp only [Nat.and_one_is_mod]
  omega

theorem bpTevIndirect_separate (r : ℕ) : Separate (fun _ => bpTevIndirect) r := by
  show Separate (fun _ => stageBlock (fun r => 0x10 ≤ r ∧ r ≤ 0x1F) (fun r => r - 0x10)
    fun value => [decodeTevIndirect value]) r
  apply stageBlock_separate 1 fun _ => rfl
  omega

theorem bpTevOrder_separate (r : ℕ) : Separate (fun _ => bpTevOrder) r := by
  show Separate (fun _ => stageBlock (fun r => 0x28 ≤ r ∧ r ≤ 0x2F) (fun r => (r - 0x28) * 2)
    fun value => [decodeTevOrder value 0, decodeTevOrder value 12]) r
  apply stageBlock_separate 2 fun _ => rfl
  omega

theorem bpTevKSel_separate (r : ℕ) : Separate (fun _ => bpTevKSel) r := by
  show Separate (fun _ => stageBlock (fun r => 0xF6 ≤ r ∧ r ≤ 0xFD) (fun r => (r - 0xF6) * 2)
    fun value => [(bpGet value 5 4, bpGet value 5 9), (bpGet value 5 14, bpGet value 5 19)]) r
  apply stageBlock_separate 2 fun _ => rfl
  omega

theorem bpTevSwap_separate (half r : ℕ) : Separate (fun _ => bpTevSwap half) r := by
  show Separate (fun _ => block (fun r => (0xF6 ≤ r ∧ r ≤ 0xFD) ∧ (r - 0xF6) &&& 1 = half)
    (fun r => (r - 0xF6) / 2) fun _ value => [(bpGet value 2 0, bpGet value 2 2)]) r
  apply Separate.block fun _ => 1
  · exact fun _ _ _ => rfl
  · simp only [Nat.and_one_is_mod]
    omega

theorem TevStages.bp_separate (r : ℕ) : Separate (fun _ => TevStages.bp) r := by
  apply ((bpTevColor_separate r).prod <| (bpTevAlpha_separate r).prod <|
    (bpTevIndirect_separate r).prod <| (bpTevOrder_separate r).prod <|
    (bpTevKSel_separate r).prod <| (bpTevSwap_separate 0 r).prod <|
    bpTevSwap_separate 1 r).of_injective
      fun t => (t.color, t.alpha, t.indirect, t.order, t.kSel, t.swapRedGreen, t.swapBlueAlpha)
  · rintro ⟨⟩ ⟨⟩ h
    cases h
    rfl
  · exact fun _ _ _ _ => rfl

/-! ### Registers that share an element -/

/-- What a column leaves of `adjScaleRaw`. -/
def adjScaleKeep (column : ℕ) : ℕ := if column = 2 then 0xEF else 0xff ^^^ (3 <<< (column * 2))

/-- A column sets bits that are its own. -/
theorem adjScale_eq {column : ℕ} (h : column < 3) (value : ℕ) :
    ∃ bits, (∀ raw, adjScale column value raw = (raw &&& adjScaleKeep column) ||| bits) ∧
      bits &&& adjScaleKeep column = 0 ∧
      ∀ other < 3, other ≠ column → bits &&& adjScaleKeep other = bits := by
  have hs : bpGet value 2 22 < 4 := bpGet_lt value 2 22
  generalize hb : bpGet value 2 22 = b at hs
  interval_cases column <;> simp only [adjScale, hb] <;> interval_cases b <;>
    exact ⟨_, fun _ => rfl, by decide, by decide⟩

theorem adjScale_again {column : ℕ} (h : column < 3) (value raw : ℕ) :
    adjScale column value (adjScale column value raw) = adjScale column value raw := by
  obtain ⟨bits, heq, hown, -⟩ := adjScale_eq h value
  rw [heq, heq, Nat.and_or_distrib_right, hown, Nat.or_zero, Nat.and_assoc, Nat.and_self]

theorem adjScale_comm {c c' : ℕ} (h : c < 3) (h' : c' < 3) (hne : c ≠ c') (v v' raw : ℕ) :
    adjScale c v (adjScale c' v' raw) = adjScale c' v' (adjScale c v raw) := by
  obtain ⟨bits, heq, -, hkeep⟩ := adjScale_eq h v
  obtain ⟨bits', heq', -, hkeep'⟩ := adjScale_eq h' v'
  rw [heq, heq', heq, heq', Nat.and_or_distrib_right, Nat.and_or_distrib_right,
    hkeep c' h' hne.symm, hkeep' c h hne, Nat.and_assoc, Nat.and_assoc,
    Nat.and_comm (adjScaleKeep c), Nat.or_assoc, Nat.or_assoc, Nat.or_comm bits]

theorem IndTexMtxInfo.column_again {c : ℕ} (h : c < 3) (value : ℕ) (info : IndTexMtxInfo) :
    (info.column c value).column c value = info.column c value := by
  simp only [column, adjScale_again h, write_write rfl]

theorem IndTexMtxInfo.column_comm {c c' : ℕ} (h : c < 3) (h' : c' < 3) (hne : c ≠ c')
    (v v' : ℕ) (info : IndTexMtxInfo) :
    (info.column c' v').column c v = (info.column c v).column c' v' := by
  simp only [column, adjScale_comm h h' hne, write_singleton, Function.update_comm hne.symm]

theorem bpIndTexMtxs_separate (r : ℕ) : Separate (fun _ => bpIndTexMtxs) r := by
  apply Separate.of_update (P := fun r _ => 0x06 ≤ r ∧ r ≤ 0x0E)
    (g := fun r value info => info.column ((r - 0x06) % 3) value)
  · intro r w a
    simp only [bpIndTexMtxs, write_singleton]
    rfl
  · intro r w info _
    exact IndTexMtxInfo.column_again (by omega) w info
  · intro r r' w w' info hne hr hr' hidx
    exact IndTexMtxInfo.column_comm (by omega) (by omega) (by omega) w w' info

theorem writeHalf_again (isRA : Bool) (low high : Float32) (color : ℕ → Float32) :
    writeHalf isRA low high (writeHalf isRA low high color) = writeHalf isRA low high color := by
  funext i
  cases isRA
  · simp only [writeHalf, write_singleton, Function.update_apply, Bool.false_eq_true, if_false]
    split_ifs <;> rfl
  · simp only [writeHalf, write_singleton, Function.update_apply, if_true]
    split_ifs <;> rfl

theorem writeHalf_comm (low high low' high' : Float32) (color : ℕ → Float32) :
    writeHalf true low high (writeHalf false low' high' color) =
      writeHalf false low' high' (writeHalf true low high color) := by
  funext i
  simp only [writeHalf, write_singleton, Function.update_apply, if_true, Bool.false_eq_true,
    if_false]
  split_ifs <;> first | rfl | omega

/-- Two colour registers of one colour are its halves. -/
theorem writeHalf_comm_of_ne {r r' : ℕ} (hr : 0xE0 ≤ r ∧ r ≤ 0xE7) (hr' : 0xE0 ≤ r' ∧ r' ≤ 0xE7)
    (hne : r ≠ r') (hidx : (r - 0xE0) / 2 = (r' - 0xE0) / 2) (low high low' high' : Float32)
    (color : ℕ → Float32) :
    writeHalf (r &&& 1 == 0) low high (writeHalf (r' &&& 1 == 0) low' high' color) =
      writeHalf (r' &&& 1 == 0) low' high' (writeHalf (r &&& 1 == 0) low high color) := by
  simp only [Nat.and_one_is_mod]
  obtain h | h : r % 2 = 0 ∧ r' % 2 = 1 ∨ r % 2 = 1 ∧ r' % 2 = 0 := by omega
  · rw [h.1, h.2]
    exact writeHalf_comm _ _ _ _ color
  · rw [h.1, h.2]
    exact (writeHalf_comm _ _ _ _ color).symm

theorem bpKColors_separate (r : ℕ) : Separate (fun _ => bpKColors) r := by
  apply Separate.of_update (P := fun r value => (0xE0 ≤ r ∧ r ≤ 0xE7) ∧ bpFlag value 23 = true)
    (g := fun r value => writeHalf (r &&& 1 == 0) (unorm8 (bpGet value 8 0))
      (unorm8 (bpGet value 8 12)))
  · intro r w a
    simp only [bpKColors, write_singleton]
    rfl
  · exact fun r w color _ => writeHalf_again _ _ _ color
  · exact fun r r' w w' color hne hr hr' hidx =>
      writeHalf_comm_of_ne hr.1 hr'.1 hne hidx _ _ _ _ color

theorem bpColorRegs_separate (r : ℕ) : Separate (fun _ => bpColorRegs) r := by
  apply Separate.of_update (P := fun r value => (0xE0 ≤ r ∧ r ≤ 0xE7) ∧ bpFlag value 23 = false)
    (g := fun r value => writeHalf (r &&& 1 == 0) (Float32.ofInt (bpSigned11 value 0) / 255.0)
      (Float32.ofInt (bpSigned11 value 12) / 255.0))
  · intro r w a
    simp only [bpColorRegs, write_singleton]
    rfl
  · exact fun r w color _ => writeHalf_again _ _ _ color
  · exact fun r r' w w' color hne hr hr' hidx =>
      writeHalf_comm_of_ne hr.1 hr'.1 hne hidx _ _ _ _ color

theorem TevColors.bp_separate (r : ℕ) : Separate (fun _ => TevColors.bp) r := by
  apply ((bpColorRegs_separate r).prod (bpKColors_separate r)).of_injective
    fun c => (c.colorRegs, c.kcolors)
  · rintro ⟨⟩ ⟨⟩ h
    cases h
    rfl
  · exact fun _ _ _ _ => rfl

theorem TexObj.bp_again (kind : TexBpRegKind) (value : ℕ) (slot : TexObj) :
    (slot.bp kind value).bp kind value = slot.bp kind value := by
  cases kind <;> simp only [bp]
  split <;> simp_all

theorem TexObj.bp_comm {kind kind' : TexBpRegKind} (h : kind ≠ kind') (v v' : ℕ)
    (slot : TexObj) : (slot.bp kind' v').bp kind v = (slot.bp kind v).bp kind' v' := by
  cases kind <;> cases kind' <;> first
    | exact absurd rfl h
    | rfl
    | by_cases hv : slot.image0 = v <;> simp [bp, hv] <;> done
    | by_cases hv : slot.image0 = v' <;> simp [bp, hv]

def TexBpRegKind.number : TexBpRegKind → ℕ
  | .mode0 => 0
  | .mode1 => 1
  | .image0 => 2
  | .image1 => 3
  | .image2 => 4
  | .image3 => 5
  | .tlut => 6

theorem eq_of_decodeTexBpReg {r map : ℕ} {kind : TexBpRegKind}
    (h : decodeTexBpReg r = some (map, kind)) :
    r = 0x80 + map / 4 * 0x20 + kind.number * 4 + map % 4 := by
  rw [decodeTexBpReg] at h
  split at h
  · split at h <;> simp only [Option.some.injEq, Prod.mk.injEq, reduceCtorEq] at h
    all_goals
      obtain ⟨rfl, rfl⟩ := h
      simp only [TexBpRegKind.number]
      omega
  · simp at h

theorem bpTextures_separate (r : ℕ) : Separate (fun _ => bpTextures) r := by
  apply Separate.of_comm
  · intro w a
    rcases hr : decodeTexBpReg r with _ | ⟨map, kind⟩
    · simp only [bpTextures, hr]
    · simp only [bpTextures, hr, write_singleton, Function.update_self, TexObj.bp_again,
        Function.update_idem]
  · intro r' w w' a hne
    simp only [bpTextures]
    rcases hr : decodeTexBpReg r with _ | ⟨map, kind⟩
    · rfl
    rcases hr' : decodeTexBpReg r' with _ | ⟨map', kind'⟩
    · rfl
    simp only [write_singleton]
    by_cases hmap : map = map'
    · subst hmap
      have hkind : kind ≠ kind' := by
        rintro rfl
        exact hne ((eq_of_decodeTexBpReg hr).trans (eq_of_decodeTexBpReg hr').symm)
      simp only [Function.update_self, Function.update_idem, TexObj.bp_comm hkind]
    · simp only [Function.update_of_ne hmap, Function.update_of_ne (Ne.symm hmap),
        Function.update_comm hmap]

/-! ### Registers that read the words of others -/

theorem ViewState.setScissorOffset_eq_self {s : ViewState} {value : ℕ} :
    s.setScissorOffset value = s ↔
      (s.scissorOffsetX = (((value &&& 0x3ff) <<< 1 : ℕ) : ℤ) - 0x156 ∧
        s.scissorOffsetY = (((value &&& 0xffc00) >>> 9 : ℕ) : ℤ) - 0x156) ∧ s.applyMapped = s := by
  rw [setScissorOffset]
  constructor
  · intro h
    have hx : s.scissorOffsetX = (((value &&& 0x3ff) <<< 1 : ℕ) : ℤ) - 0x156 := by
      rw [← h]
      simp [setLogicalScissor]
    have hy : s.scissorOffsetY = (((value &&& 0xffc00) >>> 9 : ℕ) : ℤ) - 0x156 := by
      rw [← h]
      simp [setLogicalScissor]
    rw [← hx, ← hy] at h
    exact ⟨⟨hx, hy⟩, h⟩
  · rintro ⟨⟨hx, hy⟩, h⟩
    rw [← hx, ← hy]
    exact h

/-- Where a register changes the view, the view it leaves is applied. -/
theorem ViewState.bp_separate (r : ℕ) : Separate ViewState.bp r where
  again := by
    intro words s
    simp only [Holds, bp]
    split_ifs
    · rw [setLogicalScissor_eq_self]
      exact ⟨applyMapped_logicalScissor _, applyMapped_again _⟩
    · rw [setScissorOffset_eq_self]
      exact ⟨⟨applyMapped_scissorOffsetX _, applyMapped_scissorOffsetY _⟩, applyMapped_again _⟩
    · rfl
  other := by
    intro words r' w s hne h
    simp only [Holds, bp, Function.update_of_ne hne] at h ⊢
    by_cases hr : r = 0x20 ∨ r = 0x21
    · rw [if_pos hr, setLogicalScissor_eq_self]
      rw [if_pos hr, setLogicalScissor_eq_self] at h
      split_ifs with h1 h2
      · exact ⟨applyMapped_logicalScissor _, applyMapped_again _⟩
      · subst h2
        refine ⟨?_, applyMapped_again _⟩
        rw [Function.update_of_ne (by decide), Function.update_of_ne (by decide), ← h.1]
        exact applyMapped_logicalScissor _
      · rw [Function.update_of_ne (by omega), Function.update_of_ne (by omega)]
        exact h
    · simp only [hr, if_false] at h ⊢
      by_cases hr9 : r = 0x59
      · rw [if_pos hr9, setScissorOffset_eq_self]
        rw [if_pos hr9, setScissorOffset_eq_self] at h
        split_ifs with h1 h2
        · refine ⟨⟨?_, ?_⟩, applyMapped_again _⟩
          · rw [← h.1.1]
            exact applyMapped_scissorOffsetX _
          · rw [← h.1.2]
            exact applyMapped_scissorOffsetY _
        · omega
        · exact h
      · simp only [hr9, if_false]

theorem PixelFormat.bp_separate (r : ℕ) : Separate PixelFormat.bp r where
  again := by
    intro words p
    simp only [Holds, bp]
    split_ifs <;> rfl
  other := by
    intro words r' w p hne h
    -- either of the two registers decodes the format from the words of both
    by_cases hr2 : r = 0x42
    · subst hr2
      simp only [Holds, bp, if_true, PixelFormat.ext_iff, Function.update_of_ne hne] at h ⊢
      by_cases hr' : r' = 0x43
      · subst hr'
        simpa using h.1
      · simpa [Ne.symm hne, hr', Function.update_of_ne (Ne.symm hr')] using h
    · by_cases hr3 : r = 0x43
      · subst hr3
        simp only [Holds, bp, hr2, if_true, if_false, PixelFormat.ext_iff,
          Function.update_of_ne hne] at h ⊢
        by_cases hr' : r' = 0x42
        · subst hr'
          simpa using h.2.2
        · simpa [Ne.symm hne, hr', Function.update_of_ne (Ne.symm hr')] using h
      · simp only [Holds, bp, hr2, hr3, if_false]

/-! ### All parts -/

/-- The parts of the state that BP registers write, genMode and the TLUTs apart. -/
abbrev BpParts := ViewState × CopyFilter × (ℕ → IndTexMtxInfo) × ℕ × IndStages × TevStages ×
  LinePoint × TexCoordScales × PixelFormat × PixelState × CopyState × (ℕ → ℕ) × (ℕ → TexObj) ×
  TevColors × FogState × (ℕ → ℕ)

def Decoded.bpParts (d : Decoded) : BpParts :=
  (d.view, d.copyFilter, d.indTexMtxs, d.indTexMask, d.indStages, d.tevStages, d.linePoint,
    d.texCoordScales, d.pixelFormat, d.pixel, d.copy, d.boundingBox, d.loadedTextures,
    d.tevColors, d.fog, d.fogRange)

def bpPartsDecoder : Decoder ℕ BpParts :=
  fun words r w (view, copyFilter, indTexMtxs, indTexMask, indStages, tevStages, linePoint,
      texCoordScales, pixelFormat, pixel, copy, boundingBox, loadedTextures, tevColors, fog,
      fogRange) =>
    (view.bp words r w, copyFilter.bp r w, bpIndTexMtxs r w indTexMtxs,
      bpIndTexMask r w indTexMask, indStages.bp r w, tevStages.bp r w, linePoint.bp r w,
      texCoordScales.bp r w, pixelFormat.bp words r w, pixel.bp r w, copy.bp r w,
      bpBoundingBox r w boundingBox, bpTextures r w loadedTextures, tevColors.bp r w, fog.bp r w,
      bpFogRange r w fogRange)

theorem bpPartsDecoder_separate (r : ℕ) : Separate bpPartsDecoder r :=
  (ViewState.bp_separate r).prod <| (CopyFilter.bp_separate r).prod <|
    (bpIndTexMtxs_separate r).prod <| (bpIndTexMask_separate r).prod <|
    (IndStages.bp_separate r).prod <| (TevStages.bp_separate r).prod <|
    (LinePoint.bp_separate r).prod <| (TexCoordScales.bp_separate r).prod <|
    (PixelFormat.bp_separate r).prod <| (PixelState.bp_separate r).prod <|
    (CopyState.bp_separate r).prod <| (bpBoundingBox_separate r).prod <|
    (bpTextures_separate r).prod <| (TevColors.bp_separate r).prod <|
    (FogState.bp_separate r).prod (bpFogRange_separate r)

/-- Other registers than genMode and the TLUT load change these parts only. -/
theorem decodeBp_eq_self {r : ℕ} (h0 : r ≠ 0x00) (h65 : r ≠ 0x65) {words : ℕ → ℕ} {w : ℕ}
    {d : Decoded} (h : bpPartsDecoder words r w d.bpParts = d.bpParts) :
    decodeBp words r w d = d := by
  have hgen : ∀ g, GenMode.bp r w g = g := fun g => if_neg h0
  have htlut : ∀ tluts, bpTluts words r w tluts = tluts := fun tluts => if_neg h65
  simp only [bpPartsDecoder, Decoded.bpParts, Prod.mk.injEq] at h
  simp only [decodeBp, hgen, htlut, h]

theorem holds_decodeBp_iff {r : ℕ} (h0 : r ≠ 0x00) (h65 : r ≠ 0x65) {words : ℕ → ℕ}
    {d : Decoded} : Holds decodeBp words r d ↔ Holds bpPartsDecoder words r d.bpParts :=
  Holds.iff_part Decoded.bpParts rfl (decodeBp_eq_self h0 h65)

/-- Every BP register but genMode and the TLUT load is separate. -/
theorem decodeBp_separate {r : ℕ} (h0 : r ≠ 0x00) (h65 : r ≠ 0x65) : Separate decodeBp r :=
  (bpPartsDecoder_separate r).of_part Decoded.bpParts (fun _ _ _ _ => rfl)
    fun _ _ _ => decodeBp_eq_self h0 h65

/-- The mask register decodes to nothing. -/
theorem decodeBp_mask (cache : ℕ → ℕ) (value : ℕ) (d : Decoded) :
    decodeBp cache 0xFE value d = d :=
  rfl

theorem decodeBp_genMode (cache : ℕ → ℕ) (value : ℕ) (d : Decoded) :
    decodeBp cache 0x00 value d = { d with genMode := decodeGenMode value } :=
  rfl

theorem decodeBp_tlut (cache : ℕ → ℕ) (value : ℕ) (d : Decoded) :
    decodeBp cache 0x65 value d =
      { d with loadedTluts := bpTluts cache 0x65 value d.loadedTluts } :=
  rfl

/-- A new viewport leaves the scissor as it is, and is applied. -/
theorem ViewState.holds_bp_setLogicalViewport {words : ℕ → ℕ} {r : ℕ} {s : ViewState}
    (h : Holds ViewState.bp words r s) (value : Viewport) :
    Holds ViewState.bp words r (s.setLogicalViewport value) := by
  have hscissor : (s.setLogicalViewport value).logicalScissor = s.logicalScissor := by
    rw [setLogicalViewport, applyMapped_logicalScissor]
    split <;> rfl
  have hx : (s.setLogicalViewport value).scissorOffsetX = s.scissorOffsetX := by
    rw [setLogicalViewport, applyMapped_scissorOffsetX]
    split <;> rfl
  have hy : (s.setLogicalViewport value).scissorOffsetY = s.scissorOffsetY := by
    rw [setLogicalViewport, applyMapped_scissorOffsetY]
    split <;> rfl
  simp only [Holds, bp] at h ⊢
  split_ifs at h ⊢
  · rw [setLogicalScissor_eq_self] at h ⊢
    exact ⟨hscissor.trans h.1, applyMapped_again _⟩
  · rw [setScissorOffset_eq_self] at h ⊢
    exact ⟨⟨hx.trans h.1.1, hy.trans h.1.2⟩, applyMapped_again _⟩
  · rfl

end Gx
