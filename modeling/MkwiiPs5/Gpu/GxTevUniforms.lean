import MkwiiPs5.BitField
import MkwiiPs5.Gpu.GxDirectMaterial
import MkwiiPs5.Gx.RegisterRuns
import MkwiiPs5.Gx.TevAgreement

/-!
# Texture coordinates and uniforms of a TEV program

The coordinates that the fragment shader reads are those that the vertex shader generates, and what it
loads is in the block and filled.
-/

namespace Gpu.GxDirectMaterial

open Gx (Decoded Fault UINT32_MAX u32 require_eq_ok)
open Gx.Tev (Program Stage TextureDependency buildStage buildTevProgram effectiveTexcoord
  needsFixedTexcoordState programUsedTexcoords textureDependency validate)
open Loop (bind_eq_ok)

/-! ### The coordinates that are used -/

/-- A stage reads a coordinate for itself, or for its indirect stage. -/
def StageUses (d : Decoded) (i n : ℕ) : Prop :=
  let dep := textureDependency d i
  let stage := (d.tevStages.indirect i).stage
  (dep.texCoordId = some n ∧ (dep.needsFixed || (dep.canSampleTexture && dep.combinerUsesTexture))) ∨
    (stage < d.genMode.numIndStages ∧ effectiveTexcoord d (d.indStages.texCoordId stage) = some n)

theorem effectiveTexcoord_lt {d : Decoded} {id n : ℕ} (h : effectiveTexcoord d id = some n) :
    n < d.genMode.numTexGens := by
  unfold effectiveTexcoord at h
  split_ifs at h with hnone hin
  · exact Option.some.inj h ▸ hin.1
  · exact Option.some.inj h ▸ Nat.pos_of_ne_zero hnone

theorem textureDependency_of_lt {d : Decoded} {i : ℕ} (hi : i < d.genMode.numTevStages) :
    (textureDependency d i).texCoordId = effectiveTexcoord d (d.tevStages.order i).texCoordId ∧
      (textureDependency d i).needsFixed = needsFixedTexcoordState d i := by
  rw [textureDependency, if_pos hi]
  exact ⟨rfl, rfl⟩

theorem StageUses.lt {d : Decoded} {i n : ℕ} (hi : i < d.genMode.numTevStages)
    (h : StageUses d i n) : n < d.genMode.numTexGens := by
  rcases h with ⟨hdep, -⟩ | ⟨-, hind⟩
  · rw [(textureDependency_of_lt hi).1] at hdep
    exact effectiveTexcoord_lt hdep
  · exact effectiveTexcoord_lt hind

/-- The mask holds what a stage reads, and nothing else. -/
theorem programUsedTexcoords_spec {d : Decoded} {used : ℕ} (h : programUsedTexcoords d = .ok used)
    (n : ℕ) : used.testBit n ↔ ∃ i < d.genMode.numTevStages, StageUses d i n := by
  obtain ⟨_, -, h⟩ := bind_eq_ok.1 h
  obtain rfl := Except.ok.inj h
  refine (BitField.testBit_foldl (q := fun i => StageUses d i n) (fun used i => ?_) _ 0).trans ?_
  · generalize hdep : textureDependency d i = dep
    generalize hstage : (d.tevStages.indirect i).stage = stage
    generalize hind : effectiveTexcoord d (d.indStages.texCoordId stage) = ind
    simp only [StageUses, hdep, hstage, hind]
    cases dep.texCoordId <;> cases ind <;> split_ifs with hreads hindirect <;>
      simp only [BitField.testBit_or_one_shiftLeft, Option.some.injEq, reduceCtorEq, and_true, and_false,
        true_and, false_and, or_false, false_or, or_assoc, *]
  · simp [List.mem_range]

/-- The mask holds coordinates that are generated only. -/
theorem programUsedTexcoords_inside {d : Decoded} {used : ℕ} (hgens : d.genMode.numTexGens ≤ 8)
    (h : programUsedTexcoords d = .ok used) :
    (∀ n, used.testBit n → n < d.genMode.numTexGens) ∧ texgenUseInside d used = true := by
  have hbits : ∀ n, used.testBit n → n < d.genMode.numTexGens := by
    intro n hn
    obtain ⟨i, hi, huses⟩ := (programUsedTexcoords_spec h n).1 hn
    exact huses.lt hi
  have hused : used < 2 ^ d.genMode.numTexGens := by
    refine Nat.lt_pow_two_of_testBit used fun n hn => ?_
    by_contra hset
    have := hbits n (by simpa using hset)
    omega
  have hbyte : used < 2 ^ 8 := hused.trans_le (Nat.pow_le_pow_right (by decide) hgens)
  refine ⟨hbits, ?_⟩
  rw [texgenUseInside, Nat.shiftRight_eq_div_pow, Nat.div_eq_of_lt hused]
  simp only [Bool.and_eq_true, decide_eq_true_eq, beq_self_eq_true, and_true]
  exact ⟨hgens, by omega⟩

/-! ### The stages of a program -/

/-- The bias selectors are values of their enumeration, which fits the low byte of the flags. -/
def BiasFits (d : Decoded) : Prop := ∀ i, (d.tevStages.indirect i).biasSel < 2 ^ 8

section Registers

open Gx

theorem BiasFits.decodeBp {d : Decoded} (h : BiasFits d) (cache : ℕ → ℕ) (r value : ℕ) :
    BiasFits (decodeBp cache r value d) := by
  intro i
  change (bpTevIndirect r value d.tevStages.indirect i).biasSel < 2 ^ 8
  rw [bpTevIndirect]
  split_ifs
  · rw [writeStages, Overlay.write]
    split_ifs
    · rw [List.getD_eq_getElem?_getD]
      cases hword : (List.take (MaxTevStages - (r - 0x10)) [decodeTevIndirect value])[
          i - (r - 0x10)]? with
      | none => exact h i
      | some word =>
        have hmem := List.mem_of_mem_take (List.mem_of_getElem? hword)
        rw [List.mem_singleton.1 hmem]
        exact (bpGet_lt value 3 4).trans (by decide)
    · exact h i
  · exact h i

theorem writeXf_tevStages (skip : Bool) (addr : ℕ) (words : List ℕ) (s : GXRegisterState) :
    (s.writeXf skip addr words).decoded.tevStages = s.decoded.tevStages := by
  have hloop : ∀ (regs : List (ℕ × ℕ)) (s : GXRegisterState),
      (regs.foldl (GXRegisterState.writeXfReg skip) s).decoded.tevStages = s.decoded.tevStages := by
    intro regs
    induction regs with
    | nil => exact fun s => rfl
    | cons w regs ih =>
      intro s
      rw [List.foldl_cons, ih, GXRegisterState.writeXfReg, GXRegisterState.storeXfReg]
      split_ifs <;> rfl
  unfold GXRegisterState.writeXf
  split
  · rfl
  · split_ifs
    · rw [GXRegisterState.writeXfRegs]
      split_ifs <;> exact hloop _ s
    · rfl

/-- The registers that are decoded have bias selectors that fit. -/
theorem biasFits_run (skip : Bool) (extent : GxRenderExtent) (nativePolicy : Bool)
    (writes : List RegisterWrite) {s : GXRegisterState}
    (h : registerRun skip (.reset extent nativePolicy) writes = .ok s) : BiasFits s.decoded := by
  refine Loop.foldlM_invariant (fun s : GXRegisterState => BiasFits s.decoded) h
    (fun _ => Nat.two_pow_pos 8) fun w _ s s' hs hstep => ?_
  cases w with
  | bp word =>
    obtain rfl := Except.ok.inj hstep
    rw [handleBp]
    split
    · exact hs
    · dsimp only
      split
      · exact hs
      · rw [GXRegisterState.storeBp_decoded]
        exact hs.decodeBp _ _ _
  | cp addr value =>
    obtain rfl := Except.ok.inj hstep
    rw [handleCp]
    split
    · exact hs
    · rw [GXRegisterState.writeCp_decoded]
      exact hs
  | xf data pos bigEndian =>
    rw [registerWrite, handleXf] at hstep
    cases hread : readXf data pos bigEndian with
    | error e =>
      rw [hread] at hstep
      cases hstep
    | ok burst =>
      rw [hread] at hstep
      cases burst with
      | none =>
        obtain rfl := Except.ok.inj hstep
        exact hs
      | some burst =>
        obtain rfl := Except.ok.inj hstep
        intro i
        rw [writeXf_tevStages]
        exact hs i

end Registers

/-- What a stage is packed from, of its texture and its indirect stage. -/
structure StageDependency (d : Decoded) (i : ℕ) (s : Stage) : Prop where
  texMap : s.texMap = (textureDependency d i).texMapId.getD UINT32_MAX
  texCoord : s.texCoord = (textureDependency d i).texCoordId.getD UINT32_MAX
  sampleEnabled : s.sampleEnabled =
    ((textureDependency d i).canSampleTexture && (textureDependency d i).combinerUsesTexture)
  indirectStage : s.indirectStage =
    if (d.tevStages.indirect i).stage < d.genMode.numIndStages then (d.tevStages.indirect i).stage
    else UINT32_MAX
  indirectMatrix : s.indirectMatrix = (d.tevStages.indirect i).mtxId
  indirectWrap : s.indirectWrap =
    u32 ((d.tevStages.indirect i).wrapS ||| (d.tevStages.indirect i).wrapT <<< 8)
  indirectFlags : s.indirectFlags =
    (d.tevStages.indirect i).biasSel ||| (d.tevStages.indirect i).useOrigLOD.toNat <<< 8 |||
      (d.tevStages.indirect i).addPrev.toNat <<< 9 |||
      if i + 1 < d.genMode.numTevStages ∧ (d.tevStages.indirect (i + 1)).addPrev then 1024 else 0

theorem buildStage_dependency {R : SingleRounding} {d : Decoded} {konst : ℕ → Gx.Tev.Value ℚ}
    {i : ℕ} {s : Stage} (h : buildStage R d konst i = .ok s) : StageDependency d i s := by
  obtain ⟨_, -, h⟩ := bind_eq_ok.1 h
  obtain ⟨colorOp, -, h⟩ := bind_eq_ok.1 h
  obtain ⟨alphaOp, -, h⟩ := bind_eq_ok.1 h
  obtain ⟨_, -, h⟩ := bind_eq_ok.1 h
  obtain ⟨textureSwap, -, h⟩ := bind_eq_ok.1 h
  obtain ⟨rasterSwap, -, h⟩ := bind_eq_ok.1 h
  obtain ⟨_, -, h⟩ := bind_eq_ok.1 h
  obtain ⟨_, -, h⟩ := bind_eq_ok.1 h
  obtain ⟨value, -, h⟩ := bind_eq_ok.1 h
  obtain rfl := Except.ok.inj h
  exact ⟨rfl, rfl, rfl, rfl, rfl, rfl, rfl⟩

/-- What a program that is built has, of the dependencies of its stages. -/
theorem buildTevProgram_dependencies {R : SingleRounding} {number : Float32 → Option ℚ}
    {d : Decoded} {program : Program} (h : buildTevProgram R number d = .ok program) :
    (program.stageCount = d.genMode.numTevStages ∧ d.genMode.numTevStages ≤ 16 ∧
      d.genMode.numTexGens ≤ 8 ∧ d.genMode.numIndStages ≤ 4) ∧
    ∀ i < program.stageCount, StageDependency d i (program.stages i) := by
  obtain ⟨_, hcounts, h⟩ := bind_eq_ok.1 h
  obtain ⟨_, -, h⟩ := bind_eq_ok.1 h
  obtain ⟨prev, -, h⟩ := bind_eq_ok.1 h
  obtain ⟨reg0, -, h⟩ := bind_eq_ok.1 h
  obtain ⟨reg1, -, h⟩ := bind_eq_ok.1 h
  obtain ⟨reg2, -, h⟩ := bind_eq_ok.1 h
  obtain ⟨konst, -, h⟩ := bind_eq_ok.1 h
  obtain ⟨stages, hstages, h⟩ := bind_eq_ok.1 h
  obtain rfl := Except.ok.inj h
  rw [validate, require_eq_ok] at hcounts
  simp only [Bool.and_eq_true, decide_eq_true_eq, and_assoc] at hcounts
  exact ⟨⟨rfl, hcounts.2⟩, fun i hi => buildStage_dependency
    ((Loop.foldlM_fill List.nodup_range hstages).1 i (List.mem_range.mpr hi))⟩

theorem and_two_pow_ne_zero {x n : ℕ} : (x &&& 2 ^ n != 0) = x.testBit n := by
  rw [Nat.and_two_pow]
  cases x.testBit n <;> simp

section Stages

variable {d : Decoded} {i : ℕ} {s : Stage}

/-- The flags of a stage say what its coordinate depends on. -/
theorem StageDependency.flags (h : StageDependency d i s) (hb : BiasFits d) :
    (s.indirectFlags &&& 512 != 0) = (d.tevStages.indirect i).addPrev ∧
    (s.indirectFlags &&& 1024 != 0) = decide (i + 1 < d.genMode.numTevStages ∧
      (d.tevStages.indirect (i + 1)).addPrev = true) := by
  have hbias : ∀ n, 8 ≤ n → (d.tevStages.indirect i).biasSel.testBit n = false := fun n hn =>
    Nat.testBit_lt_two_pow ((hb i).trans_le (Nat.pow_le_pow_right (by decide) hn))
  rw [show 512 = 2 ^ 9 from rfl, show 1024 = 2 ^ 10 from rfl, and_two_pow_ne_zero,
    and_two_pow_ne_zero, h.indirectFlags]
  simp only [Nat.testBit_or, Nat.testBit_shiftLeft, hbias 9 (by decide), hbias 10 (by decide)]
  constructor
  · cases (d.tevStages.indirect i).useOrigLOD <;> cases (d.tevStages.indirect i).addPrev <;>
      split_ifs <;> rfl
  · cases (d.tevStages.indirect i).useOrigLOD <;> cases (d.tevStages.indirect i).addPrev <;>
      split_ifs with hfeeds <;> simp only [hfeeds] <;> rfl

/-- The shader keeps a persistent coordinate where the mask counts on it. -/
theorem StageDependency.needsFixed (h : StageDependency d i s) (hb : BiasFits d)
    (hi : i < d.genMode.numTevStages) (hstate : coordState s = true) :
    needsFixedTexcoordState d i = true := by
  obtain ⟨hprev, hfeeds⟩ := h.flags hb
  have hwrap : ∀ x, x = s.indirectWrap → x ≠ 0 →
      (d.tevStages.indirect i).wrapS ≠ 0 ∨ (d.tevStages.indirect i).wrapT ≠ 0 := by
    intro x hx hne
    by_contra hnone
    rw [not_or, not_not, not_not] at hnone
    rw [hx, h.indirectWrap, hnone.1, hnone.2] at hne
    exact hne rfl
  rw [coordState, hprev, hfeeds, h.indirectMatrix] at hstate
  rw [needsFixedTexcoordState]
  simp only [Bool.or_eq_true, bne_iff_ne, ne_eq, decide_eq_true_eq] at hstate ⊢
  refine ⟨hi, ?_⟩
  rcases hstate with (((hmatrix | hlow) | hhigh) | hadd) | hnext
  · exact Or.inl (Or.inl hmatrix)
  · have := hwrap _ rfl (fun hzero => hlow (by rw [hzero]; rfl))
    tauto
  · have := hwrap _ rfl (fun hzero => hhigh (by rw [hzero]; rfl))
    tauto
  · tauto
  · exact Or.inr hnext

end Stages

/-! ### What is bound -/

/-- The entry of an indirect stage. -/
def indirectEntry (d : Decoded) (stage : ℕ) : IndirectStage :=
  ⟨d.indStages.texMapId stage, indirectCoordinate d (d.indStages.texCoordId stage),
    (d.indStages.scale stage).1, (d.indStages.scale stage).2⟩

/-- What is bound for a stage that is accepted. -/
structure StageBound (d : Decoded) (s : Stage) (b : Bindings) : Prop where
  indirect : s.indirectStage ≠ UINT32_MAX →
    b.indirectStages s.indirectStage = indirectEntry d s.indirectStage ∧
      d.indStages.texMapId s.indirectStage < 8 ∧
      b.mask.testBit (d.indStages.texMapId s.indirectStage) ∧
      (s.indirectMatrix ≠ 0 → b.usesMatrices = true)
  matrix : s.indirectMatrix ≤ 11 ∧ s.indirectMatrix ≠ 4 ∧ s.indirectMatrix ≠ 8
  sample : s.sampleEnabled = true →
    s.texMap < 8 ∧ s.texCoord < d.genMode.numTexGens ∧ b.mask.testBit s.texMap

/-- Bindings that hold what others do. -/
structure Extends (d : Decoded) (b b' : Bindings) : Prop where
  mask : ∀ n, b.mask.testBit n → b'.mask.testBit n
  indirectStages : ∀ n, b'.indirectStages n = b.indirectStages n ∨
    b'.indirectStages n = indirectEntry d n
  usesMatrices : b.usesMatrices = true → b'.usesMatrices = true

section Bindings

variable {d : Decoded} {b b' b'' : Bindings} {s : Stage}

theorem Extends.refl (d : Decoded) (b : Bindings) : Extends d b b :=
  ⟨fun _ h => h, fun _ => Or.inl rfl, fun h => h⟩

theorem Extends.trans (h : Extends d b b') (h' : Extends d b' b'') : Extends d b b'' := by
  refine ⟨fun n hn => h'.mask n (h.mask n hn), fun n => ?_, fun hb =>
    h'.usesMatrices (h.usesMatrices hb)⟩
  rcases h'.indirectStages n with heq | heq
  · rw [heq]
    exact h.indirectStages n
  · exact Or.inr heq

/-- What is bound stays bound. -/
theorem StageBound.mono (h : StageBound d s b) (hext : Extends d b b') : StageBound d s b' := by
  refine ⟨fun hind => ?_, h.matrix, fun hs => ?_⟩
  · obtain ⟨hentry, hmap, hbit, huses⟩ := h.indirect hind
    refine ⟨?_, hmap, hext.mask _ hbit, fun hm => hext.usesMatrices (huses hm)⟩
    rcases hext.indirectStages s.indirectStage with heq | heq
    · exact heq.trans hentry
    · exact heq
  · obtain ⟨hmap, hcoord, hbit⟩ := h.sample hs
    exact ⟨hmap, hcoord, hext.mask _ hbit⟩

theorem bindIndirect_spec (h : bindIndirect d s b = .ok b') :
    Extends d b b' ∧ (s.indirectStage ≠ UINT32_MAX →
      b'.indirectStages s.indirectStage = indirectEntry d s.indirectStage ∧
      d.indStages.texMapId s.indirectStage < 8 ∧
      b'.mask.testBit (d.indStages.texMapId s.indirectStage) ∧
      (s.indirectMatrix ≠ 0 → b'.usesMatrices = true)) := by
  unfold bindIndirect at h
  split at h
  · obtain ⟨_, hvalid, h⟩ := bind_eq_ok.1 h
    obtain rfl := Except.ok.inj h
    rw [require_eq_ok] at hvalid
    simp only [Bool.not_eq_true', Bool.or_eq_false_iff, decide_eq_false_iff_not, not_le] at hvalid
    refine ⟨⟨fun n hn => (BitField.testBit_or_one_shiftLeft _ _ _).2 (Or.inl hn), fun n => ?_,
      fun hb => by simp [hb]⟩, fun _ => ⟨Function.update_self .., hvalid.1.1,
        (BitField.testBit_or_one_shiftLeft _ _ _).2 (Or.inr rfl), fun hm => by simp [hm]⟩⟩
    by_cases hn : n = s.indirectStage
    · subst hn
      exact Or.inr (Function.update_self ..)
    · exact Or.inl (Function.update_of_ne hn ..)
  · next hnone =>
    obtain rfl := Except.ok.inj h
    exact ⟨.refl d b, fun hsome => absurd hsome hnone⟩

theorem bindSample_spec (h : bindSample d s b = .ok b') :
    Extends d b b' ∧ (s.sampleEnabled = true →
      s.texMap < 8 ∧ s.texCoord < d.genMode.numTexGens ∧ b'.mask.testBit s.texMap) := by
  unfold bindSample at h
  split at h
  · obtain ⟨_, hvalid, h⟩ := bind_eq_ok.1 h
    obtain rfl := Except.ok.inj h
    rw [require_eq_ok] at hvalid
    simp only [Bool.not_eq_true', Bool.or_eq_false_iff, decide_eq_false_iff_not, not_le] at hvalid
    exact ⟨⟨fun n hn => (BitField.testBit_or_one_shiftLeft _ _ _).2 (Or.inl hn),
      fun n => Or.inl rfl, fun hb => hb⟩, fun _ => ⟨hvalid.1, hvalid.2,
        (BitField.testBit_or_one_shiftLeft _ _ _).2 (Or.inr rfl)⟩⟩
  · next hoff =>
    obtain rfl := Except.ok.inj h
    exact ⟨.refl d b, fun hon => absurd hon hoff⟩

/-- A turn binds its stage, and keeps what is bound. -/
theorem bindStage_spec (h : bindStage d b s = .ok b') : Extends d b b' ∧ StageBound d s b' := by
  obtain ⟨b₁, hind, h⟩ := bind_eq_ok.1 h
  obtain ⟨_, hmatrix, h⟩ := bind_eq_ok.1 h
  obtain ⟨hext₁, hind⟩ := bindIndirect_spec hind
  obtain ⟨hext₂, hsample⟩ := bindSample_spec h
  rw [require_eq_ok] at hmatrix
  simp only [Bool.not_eq_true', Bool.or_eq_false_iff, decide_eq_false_iff_not, not_lt,
    beq_eq_false_iff_ne, and_assoc] at hmatrix
  have hbound : StageBound d { s with sampleEnabled := false } b₁ :=
    ⟨hind, ⟨hmatrix.1, hmatrix.2.1, hmatrix.2.2.1⟩, fun hs => by cases hs⟩
  have hkept := hbound.mono hext₂
  exact ⟨hext₁.trans hext₂, hkept.indirect, hkept.matrix, hsample⟩

end Bindings

section Matrices

variable {R : SingleRounding} {number : Float32 → Option ℚ} {d : Decoded}
variable {rows : ℕ → Option (ℤ × ℤ × ℤ × ℤ)}

/-- Where a stage uses matrices, all of them are filled. -/
theorem snapshotMatrices_filled (h : snapshotMatrices R number d true = .ok rows) {row : ℕ}
    (hrow : row < 6) : (rows row).isSome = true := by
  obtain ⟨hall, -⟩ := Loop.foldlM_collect
    (fun m (rows : ℕ → Option (ℤ × ℤ × ℤ × ℤ)) =>
      (rows (2 * m)).isSome = true ∧ (rows (2 * m + 1)).isSome = true)
    h (fun m _ rows rows' hstep => by
      obtain ⟨pair, -, hstep⟩ := bind_eq_ok.1 hstep
      obtain rfl := Except.ok.inj hstep
      refine ⟨by simp, fun k hk => ?_⟩
      simp only [Function.update_apply]
      constructor <;> split_ifs <;> simp [hk])
  have hm := hall (row / 2) (by
    change row / 2 ∈ [0, 1, 2]
    simp only [List.mem_cons, List.not_mem_nil, or_false]
    omega)
  rcases Nat.even_or_odd' row with ⟨m, rfl | rfl⟩
  · rw [show 2 * m / 2 = m by omega] at hm
    exact hm.1
  · rw [show (2 * m + 1) / 2 = m by omega] at hm
    exact hm.2

end Matrices

/-- What a material that is built holds. -/
theorem build_bound {R : SingleRounding} {number : Float32 → Option ℚ} {β : Type}
    {program : Program} {d : Decoded} {resolve : ℕ → Except Fault β} {u : Uniforms β}
    (h : build R number program d resolve = .ok u) :
    ∃ b : Bindings, u.program = program ∧ u.mask = b.mask ∧ u.indirectStages = b.indirectStages ∧
      (∀ i < program.stageCount, StageBound d (program.stages i) b) ∧
      (∀ n < d.genMode.numTexGens, (u.coordinateScales n).isSome = true) ∧
      (b.usesMatrices = true → ∀ row < 6, (u.indirectMatrices row).isSome = true) ∧
      ∀ n < 8, b.mask.testBit n → ∃ binding, resolve n = .ok binding ∧
        u.textures n = some binding := by
  obtain ⟨b, hb, h⟩ := bind_eq_ok.1 h
  obtain ⟨matrices, hmatrices, h⟩ := bind_eq_ok.1 h
  obtain ⟨textures, htextures, h⟩ := bind_eq_ok.1 h
  obtain rfl := Except.ok.inj h
  have hstages := (Loop.foldlM_collect (StageBound d) hb fun s _ b b' hstep =>
    ⟨(bindStage_spec hstep).2, fun s' hs' => hs'.mono (bindStage_spec hstep).1⟩).1
  refine ⟨b, rfl, rfl, rfl, fun i hi => ?_, fun n hn => ?_, fun huses row hrow => ?_,
    fun n hn hbit => ?_⟩
  · exact hstages _ (List.mem_map_of_mem (List.mem_range.mpr hi))
  · simp [hn]
  · rw [huses] at hmatrices
    exact snapshotMatrices_filled hmatrices hrow
  · have hfilled := (Loop.foldlM_update List.nodup_range htextures).1 n (List.mem_range.mpr hn) hbit
    cases hresolve : resolve n with
    | error e =>
      rw [hresolve] at hfilled
      cases hfilled
    | ok binding =>
      rw [hresolve] at hfilled
      exact ⟨binding, rfl, (Except.ok.inj hfilled).symm⟩

/-! ### What is read -/

/-- An access that is inside of the block, filled, and generated. -/
def Served {β : Type} (d : Decoded) (used : ℕ) (resolve : ℕ → Except Fault β) (u : Uniforms β) :
    Access → Prop
  | .uniform offset bytes => offset + bytes ≤ uniformBytes
  | .texcoord coordinate => coordinate < 8 → used.testBit coordinate
  | .sample n => n < 8 ∧ ∃ binding, resolve n = .ok binding ∧ u.textures n = some binding
  | .scale coordinate => coordinate < 8 → (u.coordinateScales coordinate).isSome = true
  | .indirect stage => u.indirectStages stage = indirectEntry d stage
  | .matrix row => row < 6 ∧ (u.indirectMatrices row).isSome = true

section Served

variable {β : Type} {d : Decoded} {used : ℕ} {resolve : ℕ → Except Fault β} {u : Uniforms β}

theorem u32_of_lt {x : ℕ} (h : x < 2 ^ 32) : u32 x = x := Nat.mod_eq_of_lt h

theorem sub32_of_le {x y : ℕ} (hy : y ≤ x) (hx : x < 2 ^ 32) : sub32 x y = x - y := by
  rw [sub32, show x + (2 ^ 32 - y) = x - y + 2 ^ 32 by omega, u32, Nat.add_mod_right,
    Nat.mod_eq_of_lt (by omega)]

theorem bindingAccesses_served {n : ℕ} (h : n < 8)
    (hfilled : ∃ binding, resolve n = .ok binding ∧ u.textures n = some binding) :
    ∀ a ∈ bindingAccesses n, Served d used resolve u a := by
  have hresource : u32 (1360 + n * 64) = 1360 + n * 64 := u32_of_lt (by omega)
  intro a ha
  simp only [bindingAccesses, hresource, List.mem_cons, List.not_mem_nil, or_false] at ha
  rcases ha with rfl | rfl | rfl | rfl
  · simp only [Served, uniformBytes]
    omega
  · rw [u32_of_lt (by omega)]
    simp only [Served, uniformBytes]
    omega
  · rw [u32_of_lt (by omega)]
    simp only [Served, uniformBytes]
    omega
  · exact ⟨h, hfilled⟩

/-- Coordinate 8 stands for a constant, and has no scale; its load is still inside of the block. -/
theorem scaleAccesses_served {coordinate : ℕ} (h : coordinate ≤ 8)
    (hfilled : coordinate < 8 → (u.coordinateScales coordinate).isSome = true) :
    ∀ a ∈ scaleAccesses coordinate, Served d used resolve u a := by
  intro a ha
  simp only [scaleAccesses, List.mem_cons, List.not_mem_nil, or_false] at ha
  rcases ha with rfl | rfl
  · rw [u32_of_lt (by omega)]
    simp only [Served, uniformBytes]
    omega
  · exact hfilled

theorem rowAccesses_served {row : ℕ} (h : row < 6)
    (hfilled : ∀ row < 6, (u.indirectMatrices row).isSome = true) :
    ∀ a ∈ rowAccesses (u32 (2064 + row * 16)), Served d used resolve u a := by
  intro a ha
  rw [u32_of_lt (by omega)] at ha
  simp only [rowAccesses, List.mem_cons, List.not_mem_nil, or_false] at ha
  rcases ha with rfl | rfl
  · simp only [Served, uniformBytes]
    omega
  · rw [show (2064 + row * 16 - 2064) / 16 = row by omega]
    exact ⟨h, hfilled row h⟩

theorem matrixAccesses_served {s : Stage}
    (hmatrix : s.indirectMatrix ≤ 11 ∧ s.indirectMatrix ≠ 4 ∧ s.indirectMatrix ≠ 8)
    (hfilled : s.indirectStage < 4 → s.indirectMatrix ≠ 0 →
      ∀ row < 6, (u.indirectMatrices row).isSome = true) :
    ∀ a ∈ matrixAccesses s, Served d used resolve u a := by
  intro a ha
  obtain ⟨hle, hne₄, hne₈⟩ := hmatrix
  unfold matrixAccesses at ha
  split at ha
  · next huse =>
    have hfilled := hfilled huse.1 huse.2
    have hpos := Nat.pos_of_ne_zero huse.2
    generalize s.indirectMatrix = m at hle hne₄ hne₈ hpos ha
    dsimp only at ha
    split at ha
    · -- both rows of a static matrix
      rw [sub32_of_le hpos (by omega),
        show 2064 + (m - 1) * 32 = 2064 + 2 * (m - 1) * 16 by omega,
        show 2064 + 2 * (m - 1) * 16 + 16 = 2064 + (2 * (m - 1) + 1) * 16 by omega] at ha
      rcases List.mem_append.1 ha with ha | ha
      · exact rowAccesses_served (by omega) hfilled a ha
      · exact rowAccesses_served (by omega) hfilled a ha
    · -- the second row only, of the matrix that a dynamic one takes its shift from
      have hindex : (if m ≤ 7 then sub32 m 5 else sub32 m 9) < 3 := by
        split
        · rw [sub32_of_le (by omega) (by omega)]
          omega
        · rw [sub32_of_le (by omega) (by omega)]
          omega
      generalize (if m ≤ 7 then sub32 m 5 else sub32 m 9) = mi at hindex ha
      rw [show 2064 + mi * 32 + 16 = 2064 + (2 * mi + 1) * 16 by omega] at ha
      exact rowAccesses_served (by omega) hfilled a ha
  · cases ha

/-- What the block holds of what is bound. -/
structure Holds (d : Decoded) (b : Bindings) (resolve : ℕ → Except Fault β) (u : Uniforms β) :
    Prop where
  indirectStages : u.indirectStages = b.indirectStages
  scales : ∀ n < d.genMode.numTexGens, (u.coordinateScales n).isSome = true
  matrices : b.usesMatrices = true → ∀ row < 6, (u.indirectMatrices row).isSome = true
  textures : ∀ n < 8, b.mask.testBit n →
    ∃ binding, resolve n = .ok binding ∧ u.textures n = some binding

variable {b : Bindings} {i : ℕ} {s : Stage}

/-- A packed indirect stage is the one of the registers. -/
theorem StageDependency.indirectStage_of_lt (h : StageDependency d i s)
    (hstage : s.indirectStage < 4) : s.indirectStage = (d.tevStages.indirect i).stage ∧
      (d.tevStages.indirect i).stage < d.genMode.numIndStages := by
  rw [h.indirectStage] at hstage ⊢
  split_ifs at hstage ⊢ with hlt
  · exact ⟨rfl, hlt⟩
  · exact absurd hstage (by decide)

/-- The coordinate of an indirect lookup is the one that the mask counts on. -/
theorem indirectCoordinate_spec (hgens : d.genMode.numTexGens ≤ 8) (id : ℕ) :
    indirectCoordinate d id ≤ 8 ∧ (indirectCoordinate d id < 8 →
      effectiveTexcoord d id = some (indirectCoordinate d id) ∧
      indirectCoordinate d id < d.genMode.numTexGens) := by
  unfold indirectCoordinate effectiveTexcoord
  rcases Nat.eq_zero_or_pos d.genMode.numTexGens with hzero | hpos
  · simp [hzero]
  · by_cases hlt : id < d.genMode.numTexGens
    · have height : id < Gx.MaxTexCoord := hlt.trans_le hgens
      simp only [hpos.ne', hlt, height, if_true, if_false, and_self, implies_true,
        and_true]
      omega
    · simp [hpos.ne', hlt, hpos]

theorem indirectAccesses_served (hdep : StageDependency d i s) (hbound : StageBound d s b)
    (hheld : Holds d b resolve u) (hgens : d.genMode.numTexGens ≤ 8)
    (hused : ∀ n, StageUses d i n → used.testBit n) :
    ∀ a ∈ indirectAccesses u.indirectStages s, Served d used resolve u a := by
  intro a ha
  unfold indirectAccesses at ha
  split at ha
  · next hstage =>
    obtain ⟨heq, hlt⟩ := hdep.indirectStage_of_lt hstage
    obtain ⟨hentry, hmap, hbit, -⟩ := hbound.indirect (by rw [UINT32_MAX]; omega)
    obtain ⟨hle, hgenerated⟩ := indirectCoordinate_spec hgens
      (d.indStages.texCoordId s.indirectStage)
    rw [hheld.indirectStages, hentry] at ha
    simp only [indirectEntry, List.mem_append, List.mem_cons, List.not_mem_nil, or_false] at ha
    rcases ha with ((rfl | rfl | rfl) | ha) | ha
    · rw [u32_of_lt (by omega)]
      simp only [Served, uniformBytes]
      omega
    · change u.indirectStages s.indirectStage = _
      rw [hheld.indirectStages, hentry]
    · intro hcoordinate
      refine hused _ (Or.inr ⟨hlt, ?_⟩)
      rw [← heq]
      exact (hgenerated hcoordinate).1
    · exact scaleAccesses_served hle (fun hc => hheld.scales _ (hgenerated hc).2) a ha
    · exact bindingAccesses_served hmap (hheld.textures _ hmap hbit) a ha
  · cases ha

/-- Every access of a stage is served. -/
theorem stageAccesses_served (hdep : StageDependency d i s) (hbound : StageBound d s b)
    (hheld : Holds d b resolve u) (hb : BiasFits d) (hi : i < d.genMode.numTevStages)
    (hcount : d.genMode.numTevStages ≤ 16) (hgens : d.genMode.numTexGens ≤ 8)
    (hused : ∀ n, StageUses d i n → used.testBit n) :
    ∀ a ∈ stageAccesses u.indirectStages i s, Served d used resolve u a := by
  intro a ha
  simp only [stageAccesses, List.mem_append] at ha
  rcases ha with (((ha | ha) | ha) | ha) | ha
  · -- the words of the stage
    obtain ⟨k, hk, rfl⟩ := List.mem_map.1 ha
    rw [List.mem_range] at hk
    rw [u32_of_lt (by omega)]
    simp only [Served, uniformBytes]
    omega
  · exact indirectAccesses_served hdep hbound hheld hgens hused a ha
  · -- the coordinate of the stage, for a sample or for the persistent coordinate
    split at ha
    · next hreads =>
      rw [Bool.and_eq_true, Bool.or_eq_true, decide_eq_true_eq] at hreads
      obtain ⟨hreads, hlt⟩ := hreads
      obtain ⟨hcoord, hfixed⟩ := textureDependency_of_lt hi
      have hsome : (textureDependency d i).texCoordId = some s.texCoord := by
        rw [hdep.texCoord] at hlt ⊢
        cases hid : (textureDependency d i).texCoordId with
        | none =>
          rw [hid] at hlt
          exact absurd hlt (by decide)
        | some n => rfl
      have huses : StageUses d i s.texCoord := by
        refine Or.inl ⟨hsome, ?_⟩
        rw [hfixed, Bool.or_eq_true]
        rcases hreads with hsample | hstate
        · exact Or.inr (hdep.sampleEnabled ▸ hsample)
        · exact Or.inl (hdep.needsFixed hb hi hstate)
      rcases List.mem_cons.1 ha with rfl | ha
      · exact fun _ => hused _ huses
      · exact scaleAccesses_served (by omega) (fun _ => hheld.scales _ (huses.lt hi)) a ha
    · cases ha
  · -- the matrix of the stage
    split at ha
    · exact matrixAccesses_served hbound.matrix (fun hstage hm =>
        hheld.matrices ((hbound.indirect (by rw [UINT32_MAX]; omega)).2.2.2 hm)) a ha
    · cases ha
  · -- what the stage samples
    split at ha
    · next hsample =>
      obtain ⟨hmap, -, hbit⟩ := hbound.sample hsample
      exact bindingAccesses_served hmap (hheld.textures _ hmap hbit) a ha
    · cases ha

end Served

/-! ### Programs and shaders -/

section Agreement

variable {R : SingleRounding} {number : Float32 → Option ℚ} {β : Type} {d : Decoded}
variable {program : Program} {resolve : ℕ → Except Fault β} {u : Uniforms β}

/-- What the fragment shader reads of the block of a program is served. -/
theorem accesses_served (hb : BiasFits d) (hprogram : buildTevProgram R number d = .ok program)
    (hbuild : build R number program d resolve = .ok u) {used : ℕ}
    (hused : programUsedTexcoords d = .ok used) : ∀ a ∈ accesses u, Served d used resolve u a := by
  obtain ⟨⟨hcount, hstages, hgens, -⟩, hdep⟩ := buildTevProgram_dependencies hprogram
  obtain ⟨b, rfl, -, hindirect, hbound, hscales, hmatrices, htextures⟩ := build_bound hbuild
  have hheld : Holds d b resolve u := ⟨hindirect, hscales, hmatrices, htextures⟩
  intro a ha
  obtain ⟨i, hi, ha⟩ := List.mem_flatMap.1 ha
  have hi : i < u.program.stageCount := (List.mem_range.1 hi).trans_le (min_le_left _ _)
  have hlt : i < d.genMode.numTevStages := hcount ▸ hi
  exact stageAccesses_served (hdep i hi) (hbound i hi) hheld hb hlt hstages hgens
    (fun n huses => (programUsedTexcoords_spec hused n).2 ⟨i, hlt, huses⟩) a ha

/-- The check of the coordinates does not fail on a mask that is inside. -/
theorem snapshotGxTexgen_inside {used : ℕ} (h : texgenUseInside d used = true) :
    snapshotGxTexgen d used ≠ .error (.thrown "GX texgen use outside active coordinate count") := by
  have hrequire : ∀ {value : Bool} {why : String},
      why ≠ "GX texgen use outside active coordinate count" →
      Loop.Post (Gx.require value why) (fun _ => True)
        (· ≠ Fault.thrown "GX texgen use outside active coordinate count") := by
    intro value why hwhy
    cases value with
    | true => trivial
    | false => exact fun heq => hwhy (Fault.thrown.inj heq)
  refine Loop.Post.ne_error (Q := fun _ => True) ?_
  rw [snapshotGxTexgen, h]
  refine Loop.Post.bind (Q := fun _ => True) trivial fun _ _ => ?_
  refine Loop.Post.bind (Loop.foldlM_post (fun _ => True) trivial fun i _ generators _ => ?_)
    fun _ _ => trivial
  split
  · refine Loop.Post.bind (Q := fun _ => True) ?_ fun _ _ => trivial
    refine (hrequire (by decide)).bind fun _ _ => (hrequire (by decide)).bind fun _ _ => ?_
    exact (hrequire (by decide)).bind fun _ _ => (hrequire (by decide)).bind fun _ _ => trivial
  · trivial

/-- The TEV program and its shaders agree: the fragment shader reads coordinates that the vertex
shader generates, and loads what is inside of the block and filled. -/
theorem tev_reads_served (hb : BiasFits d) (hprogram : buildTevProgram R number d = .ok program)
    (hbuild : build R number program d resolve = .ok u) :
    ∃ used, programUsedTexcoords d = .ok used ∧
      (∀ n, Access.texcoord n ∈ accesses u → n < 8 → used.testBit n = true) ∧
      (∀ t, snapshotGxTexgen d used = .ok t →
        ∀ n, Access.texcoord n ∈ accesses u → n < 8 → t.generates n = true) ∧
      (∀ n, used.testBit n = true → n < d.genMode.numTexGens) ∧
      snapshotGxTexgen d used ≠
        .error (.thrown "GX texgen use outside active coordinate count") ∧
      (∀ offset bytes, Access.uniform offset bytes ∈ accesses u →
        offset + bytes ≤ uniformBytes) ∧
      (∀ n, Access.sample n ∈ accesses u →
        n < 8 ∧ ∃ binding, resolve n = .ok binding ∧ u.textures n = some binding) ∧
      (∀ n, Access.scale n ∈ accesses u → n < 8 → (u.coordinateScales n).isSome = true) ∧
      (∀ n, Access.indirect n ∈ accesses u → u.indirectStages n = indirectEntry d n) ∧
      ∀ n, Access.matrix n ∈ accesses u → n < 6 ∧ (u.indirectMatrices n).isSome = true := by
  obtain ⟨⟨-, hstages, hgens, hindirect⟩, -⟩ := buildTevProgram_dependencies hprogram
  obtain ⟨used, hused⟩ : ∃ used, programUsedTexcoords d = .ok used := by
    refine Loop.exists_bind (require_eq_ok (u := ()) |>.2 ?_) ⟨_, rfl⟩
    simp only [Bool.and_eq_true, decide_eq_true_eq]
    exact ⟨⟨hstages, hgens⟩, hindirect⟩
  obtain ⟨hbits, hinside⟩ := programUsedTexcoords_inside hgens hused
  have hserved := accesses_served hb hprogram hbuild hused
  have hcoords : ∀ n, Access.texcoord n ∈ accesses u → n < 8 → used.testBit n = true :=
    fun n hn => hserved _ hn
  refine ⟨used, hused, hcoords, fun t ht n hn hlt => ?_, hbits, snapshotGxTexgen_inside hinside,
    fun _ _ h => hserved _ h, fun _ h => hserved _ h, fun _ h => hserved _ h,
    fun _ h => hserved _ h, fun _ h => hserved _ h⟩
  obtain ⟨_, -, ht⟩ := bind_eq_ok.1 ht
  obtain ⟨generators, -, ht⟩ := bind_eq_ok.1 ht
  obtain rfl := Except.ok.inj ht
  rw [TexgenState.generates, hcoords n hn hlt, Bool.and_true, decide_eq_true_eq]
  exact hlt

end Agreement

/-- One stage that samples a map, with a lookup of an indirect stage and a matrix. -/
def sampledStage : Decoded :=
  let d := Decoded.reset ⟨640, 528, 640, 528⟩ false
  { d with
    genMode := { d.genMode with numTevStages := 1, numTexGens := 1, numIndStages := 1 }
    tevStages :=
      { d.tevStages with
        color := fun _ => (⟨15, 15, 15, Gx.Tev.GX_CC_TEXC⟩, ⟨0, 0, 0, 0, true⟩)
        indirect := fun _ => ⟨0, 0, 0, 0, 1, 0, 0, false, false⟩
        order := fun _ => ⟨0, 0, Gx.GX_COLOR_NULL⟩ } }

theorem sampledStage_built : ∃ program,
    buildTevProgram .exact (fun _ => some 0) sampledStage = .ok program ∧
      ∃ u, build .exact (fun _ => some 0) program sampledStage (fun n => .ok n) = .ok u ∧
        Access.texcoord 0 ∈ accesses u ∧ Access.sample 0 ∈ accesses u ∧
        Access.matrix 1 ∈ accesses u := by
  have hbuilt : (do
      let program ← buildTevProgram .exact (fun _ => some 0) sampledStage
      let u : Uniforms ℕ ← build .exact (fun _ => some 0) program sampledStage (fun n => .ok n)
      pure (decide (Access.texcoord 0 ∈ accesses u ∧ Access.sample 0 ∈ accesses u ∧
        Access.matrix 1 ∈ accesses u))).toOption = some true := by
    decide +kernel
  cases hprogram : buildTevProgram .exact (fun _ => some 0) sampledStage with
  | error fault =>
    rw [hprogram] at hbuilt
    cases hbuilt
  | ok program =>
    rw [hprogram] at hbuilt
    dsimp only [bind, Except.bind] at hbuilt
    cases hu : build .exact (fun _ => some 0) program sampledStage (fun n => .ok n) with
    | error fault =>
      rw [hu] at hbuilt
      cases hbuilt
    | ok u =>
      rw [hu] at hbuilt
      exact ⟨program, rfl, u, hu, of_decide_eq_true (Option.some.inj hbuilt)⟩

theorem tev_reads_served_sampled : ∃ u : Uniforms ℕ, ∃ used,
    programUsedTexcoords sampledStage = .ok used ∧ used.testBit 0 = true ∧
      u.textures 0 = some 0 ∧ (u.indirectMatrices 1).isSome = true := by
  obtain ⟨program, hprogram, u, hbuild, hcoord, hsample, hmatrix⟩ := sampledStage_built
  obtain ⟨used, hused, hbits, -, -, -, -, htextures, -, -, hmatrices⟩ :=
    tev_reads_served (fun _ => Nat.two_pow_pos 8) hprogram hbuild
  obtain ⟨-, binding, hbinding, hfilled⟩ := htextures 0 hsample
  obtain rfl := Except.ok.inj hbinding
  exact ⟨u, used, hused, hbits 0 hcoord (by decide), hfilled, (hmatrices 1 hmatrix).2⟩

end Gpu.GxDirectMaterial
