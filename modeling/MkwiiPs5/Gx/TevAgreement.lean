import MkwiiPs5.Gx.TevReference

/-!
# Packed programs and their reference

On inputs that are integers, every stage of a packed program leaves what the reference leaves, and the
registers stay in their range.
-/

namespace Gx.Tev

open BitField (field)
open Loop (bind_eq_ok)

/-! ### Inputs -/

theorem lane_float (v : Value ℤ) (n : ℕ) : lane v.float n = ((lane v n : ℤ) : ℚ) := by
  rw [lane, lane]
  split_ifs <;> rfl

theorem swapped_float (v : Value ℤ) (swap : Value ℕ) :
    swapped v.float swap = (swapped v swap).float := by
  simp only [swapped, lane_float]
  rfl

theorem Value.Within.lane {lo hi : ℤ} {v : Value ℤ} (h : v.Within lo hi) (n : ℕ) :
    lo ≤ lane v n ∧ lane v n ≤ hi := by
  rw [Tev.lane]
  split_ifs
  · exact h.r
  · exact h.g
  · exact h.b
  · exact h.a

theorem Value.Within.swapped {lo hi : ℤ} {v : Value ℤ} (h : v.Within lo hi) (swap : Value ℕ) :
    (swapped v swap).Within lo hi :=
  ⟨h.lane _, h.lane _, h.lane _, h.lane _⟩

theorem Value.Within.mono {lo hi lo' hi' : ℤ} {v : Value ℤ} (h : v.Within lo hi) (hlo : lo' ≤ lo)
    (hhi : hi ≤ hi') : v.Within lo' hi' := by
  obtain ⟨hr, hg, hb, ha⟩ := h
  constructor <;> omega

theorem within_splat {lo hi x : ℤ} (h : lo ≤ x ∧ x ≤ hi) : (splat x).Within lo hi := ⟨h, h, h, h⟩

section Inputs

variable {regs : Registers ℤ} {tex ras konst : Value ℤ} {arg : ℕ}

/-- All arguments but half are integers. -/
theorem colorArg_float (harg : arg < 2 ^ 4) (hhalf : arg ≠ GX_CC_HALF) :
    colorArg regs.float arg tex.float ras.float konst.float =
      (colorInput regs tex ras konst arg).float := by
  rw [GX_CC_HALF] at hhalf
  interval_cases arg
  case «12» =>
    change splat (255 : ℚ) = (splat (255 : ℤ)).float
    simp [splat, Value.float, Value.map]
  case «13» => exact absurd rfl hhalf
  case «15» =>
    change splat (0 : ℚ) = (splat (0 : ℤ)).float
    simp [splat, Value.float, Value.map]
  all_goals rfl

theorem alphaArg_float (harg : arg < 2 ^ 3) :
    alphaArg regs.float arg tex.float ras.float konst.float =
      ((alphaInput regs tex ras konst arg : ℤ) : ℚ) := by
  interval_cases arg
  case «7» => exact Int.cast_zero.symm
  all_goals rfl

theorem colorInput_within (hregs : regs.Within (-1024) 1023) (htex : tex.Within 0 255)
    (hras : ras.Within 0 255) (hkonst : konst.Within 0 255) (arg : ℕ) :
    (colorInput regs tex ras konst arg).Within (-1024) 1023 := by
  obtain ⟨h₀, h₁, h₂, h₃⟩ := hregs
  have htex' : tex.Within (-1024) 1023 := htex.mono (by decide) (by decide)
  have hras' : ras.Within (-1024) 1023 := hras.mono (by decide) (by decide)
  have hkonst' : konst.Within (-1024) 1023 := hkonst.mono (by decide) (by decide)
  unfold colorInput
  split
  · exact h₀
  · exact within_splat h₀.a
  · exact h₁
  · exact within_splat h₁.a
  · exact h₂
  · exact within_splat h₂.a
  · exact h₃
  · exact within_splat h₃.a
  · exact htex'
  · exact within_splat htex'.a
  · exact hras'
  · exact within_splat hras'.a
  · exact within_splat (by decide)
  · exact hkonst'
  · exact within_splat (by decide)

theorem alphaInput_within (hregs : regs.Within (-1024) 1023) (htex : tex.Within 0 255)
    (hras : ras.Within 0 255) (hkonst : konst.Within 0 255) (arg : ℕ) :
    -1024 ≤ alphaInput regs tex ras konst arg ∧ alphaInput regs tex ras konst arg ≤ 1023 := by
  obtain ⟨h₀, h₁, h₂, h₃⟩ := hregs
  unfold alphaInput
  split
  · exact h₀.a
  · exact h₁.a
  · exact h₂.a
  · exact h₃.a
  · have := htex.a
    omega
  · have := hras.a
    omega
  · have := hkonst.a
    omega
  · decide

end Inputs

/-! ### Writes -/

theorem Registers.Within.modify {lo hi : ℤ} {regs : Registers ℤ} (h : regs.Within lo hi) (dst : ℕ)
    {f : Value ℤ → Value ℤ} (hf : ∀ old, old.Within lo hi → (f old).Within lo hi) :
    (regs.modify dst f).Within lo hi := by
  unfold Registers.modify
  split
  · exact { h with prev := hf _ h.prev }
  · exact { h with reg0 := hf _ h.reg0 }
  · exact { h with reg1 := hf _ h.reg1 }
  · exact { h with reg2 := hf _ h.reg2 }

/-- The packed writes are a write of the color and then one of the alpha. -/
theorem write_float (regs : Registers ℤ) {rgbDst alphaDst : ℕ} (hrgb : rgbDst < 4)
    (halpha : alphaDst < 4) (rgb : Value ℤ) (alpha : ℤ) :
    write regs.float rgbDst alphaDst ⟨rgb.r, rgb.g, rgb.b, alpha⟩ =
      ((regs.modify rgbDst fun old => old.setColor rgb).modify alphaDst fun old =>
        old.setAlpha alpha).float := by
  interval_cases rgbDst <;> interval_cases alphaDst <;> rfl

/-! ### Stages -/

theorem StageFields.color_args {s : Stage} {sel : Selectors} (h : StageFields s sel) :
    (s.colorArgs >>> 0) &&& 15 = sel.color.1.a ∧ (s.colorArgs >>> 4) &&& 15 = sel.color.1.b ∧
      (s.colorArgs >>> 8) &&& 15 = sel.color.1.c ∧ (s.colorArgs >>> 12) &&& 15 = sel.color.1.d := by
  simp only [and_fifteen, ← h.colorPass]
  exact ⟨rfl, rfl, rfl, rfl⟩

theorem StageFields.alpha_args {s : Stage} {sel : Selectors} (h : StageFields s sel) :
    (s.alphaArgs >>> 0) &&& 7 = sel.alpha.1.a ∧ (s.alphaArgs >>> 3) &&& 7 = sel.alpha.1.b ∧
      (s.alphaArgs >>> 6) &&& 7 = sel.alpha.1.c ∧ (s.alphaArgs >>> 9) &&& 7 = sel.alpha.1.d := by
  simp only [and_seven, ← h.alphaPass]
  exact ⟨rfl, rfl, rfl, rfl⟩

theorem OpFields.outReg_lt {word : ℕ} {v : TevOp} (h : OpFields word v) : v.outReg < 4 := by
  rw [← h.outReg, and_three]
  omega

theorem unpackPass_fits (word size : ℕ) : PassFits size (unpackPass word size) :=
  ⟨BitField.field_lt _ _ _, BitField.field_lt _ _ _, BitField.field_lt _ _ _,
    BitField.field_lt _ _ _⟩

section Stages

variable (R : SingleRounding) (A A' : Arithmetic) {s : Stage} {sel : Selectors}
  {regs : Registers ℤ} {konst tex ras : Value ℤ}

theorem combine_within (op : TevOp) (ca cb : Value ℤ) (a b c d : ℤ) :
    -1024 ≤ combine A op ca cb a b c d ∧ combine A op ca cb a b c d ≤ 1023 :=
  clamp_bounds _ _

/-- A stage keeps the registers in their range. -/
theorem referenceStage_within (hregs : regs.Within (-1024) 1023) :
    (referenceStage A sel konst tex ras regs).Within (-1024) 1023 := by
  rw [referenceStage]
  refine (hregs.modify _ fun old hold => ?_).modify _ fun old hold => ?_
  · exact ⟨combine_within A _ _ _ _ _ _ _, combine_within A _ _ _ _ _ _ _,
      combine_within A _ _ _ _ _ _ _, hold.a⟩
  · exact { hold with a := combine_within A _ _ _ _ _ _ _ }

/-- A packed stage leaves the floats of what the reference leaves. -/
theorem stage_float (hs : StageFields s sel) (hhalf : GX_CC_HALF ∉ TevPass.args sel.color.1)
    (hconst : s.konst = konst.float) (hkonst : konst.Within 0 255) (htex : tex.Within 0 255)
    (hras : ras.Within 0 255) (hregs : regs.Within (-1024) 1023) :
    (stage R A regs.float s tex.float ras.float).1 =
      (referenceStage A' sel konst tex ras regs).float := by
  obtain ⟨hca, hcb, hcc, hcd⟩ := hs.color_args
  obtain ⟨haa, hab, hac, had⟩ := hs.alpha_args
  have hcolorFits := unpackPass_fits s.colorArgs 4
  have halphaFits := unpackPass_fits s.alphaArgs 3
  rw [hs.colorPass] at hcolorFits
  rw [hs.alphaPass] at halphaFits
  simp only [TevPass.args, List.mem_cons, List.not_mem_nil, or_false, not_or] at hhalf
  obtain ⟨hna, hnb, hnc, hnd⟩ := hhalf
  have htex' := htex.swapped sel.textureSwap
  have hras' := hras.swapped sel.rasterSwap
  have hcolor := colorInput_within hregs htex' hras' hkonst
  have halpha := alphaInput_within hregs htex' hras' hkonst
  have hwrap : ∀ arg, wrap R ((alphaInput regs (swapped tex sel.textureSwap)
      (swapped ras sel.rasterSwap) konst arg : ℤ) : ℚ) =
      ((byte (alphaInput regs (swapped tex sel.textureSwap) (swapped ras sel.rasterSwap) konst
        arg) : ℤ) : ℚ) := fun arg =>
    wrap_intCast R (abs_le.mpr ⟨by have := halpha arg; omega, by have := halpha arg; omega⟩)
  simp only [stage, hconst, hs.textureSwap.swizzle_eq, hs.rasterSwap.swizzle_eq, swapped_float,
    hca, hcb, hcc, hcd, haa, hab, hac, had, colorArg_float hcolorFits.a (Ne.symm hna),
    colorArg_float hcolorFits.b (Ne.symm hnb), colorArg_float hcolorFits.c (Ne.symm hnc),
    colorArg_float hcolorFits.d (Ne.symm hnd), alphaArg_float halphaFits.a,
    alphaArg_float halphaFits.b, alphaArg_float halphaFits.c, alphaArg_float halphaFits.d,
    wrap4_float R (hcolor _), hwrap, hs.colorOp.op, hs.alphaOp.op, hs.colorOp.outReg,
    hs.alphaOp.outReg]
  -- both operations compare the inputs of the color
  have heval : ∀ {word : ℕ} {v : TevOp} (ca cb : Value ℤ) (a b c d : ℤ), OpFields word v →
      -1024 ≤ d ∧ d ≤ 1023 →
      eval R A ((byte a : ℤ) : ℚ) ((byte b : ℤ) : ℚ) ((byte c : ℤ) : ℚ) (d : ℚ) word
        (compare R A ca.bytes.float cb.bytes.float v.op) =
      ((combine A' v ca cb a b c d : ℤ) : ℚ) := fun ca cb a b c d hv hd =>
    eval_eq R A hv hd (fun _ _ => compare_bytes R A ca cb _) A'
  rw [referenceStage]
  refine Eq.trans (congrArg (write _ _ _) (Value.ext ?_ ?_ ?_ ?_))
    (write_float regs hs.colorOp.outReg_lt hs.alphaOp.outReg_lt _ _)
  · exact heval _ _ _ _ _ _ hs.colorOp (hcolor _).r
  · exact heval _ _ _ _ _ _ hs.colorOp (hcolor _).g
  · exact heval _ _ _ _ _ _ hs.colorOp (hcolor _).b
  · exact heval _ _ _ _ _ _ hs.alphaOp (halpha _)

end Stages

/-! ### Constants and initial registers -/

/-- The integers below the components. -/
def Value.floor (v : Value ℚ) : Value ℤ := v.map Int.floor
def Registers.floor (v : Registers ℚ) : Registers ℤ := v.map Int.floor

theorem Value.floor_float (v : Value ℤ) : v.float.floor = v := by
  simp [Value.floor, Value.float, Value.map]

theorem Registers.floor_float (v : Registers ℤ) : v.float.floor = v :=
  Registers.ext v.prev.floor_float v.reg0.floor_float v.reg1.floor_float v.reg2.floor_float

/-- Floats between 0 and 255. -/
structure ByteRange (v : Value ℚ) : Prop where
  r : 0 ≤ v.r ∧ v.r ≤ 255
  g : 0 ≤ v.g ∧ v.g ≤ 255
  b : 0 ≤ v.b ∧ v.b ≤ 255
  a : 0 ≤ v.a ∧ v.a ≤ 255

theorem ByteRange.within {v : Value ℤ} (h : ByteRange v.float) : v.Within 0 255 := by
  obtain ⟨hr, hg, hb, ha⟩ := h
  have hcast : ∀ x : ℤ, 0 ≤ (x : ℚ) ∧ (x : ℚ) ≤ 255 → 0 ≤ x ∧ x ≤ 255 := fun x hx => by
    exact_mod_cast hx
  exact ⟨hcast _ hr, hcast _ hg, hcast _ hb, hcast _ ha⟩

theorem Value.Within.byteRange {v : Value ℤ} (h : v.Within 0 255) : ByteRange v.float := by
  obtain ⟨hr, hg, hb, ha⟩ := h
  have hcast : ∀ x : ℤ, 0 ≤ x ∧ x ≤ 255 → 0 ≤ (x : ℚ) ∧ (x : ℚ) ≤ 255 := fun x hx => by
    exact_mod_cast hx
  exact ⟨hcast _ hr, hcast _ hg, hcast _ hb, hcast _ ha⟩

theorem byteRange_splat {x : ℚ} (h : 0 ≤ x ∧ x ≤ 255) : ByteRange (splat x) := ⟨h, h, h, h⟩

theorem ByteRange.lane {v : Value ℚ} (h : ByteRange v) (n : ℕ) :
    0 ≤ lane v n ∧ lane v n ≤ 255 := by
  rw [Tev.lane]
  split_ifs
  · exact h.r
  · exact h.g
  · exact h.b
  · exact h.a

/-- The registers before stage `n`, with textures and raster colors that are integers. -/
def Program.run (program : Program) (R : SingleRounding) (A : Arithmetic) (tex ras : ℕ → Value ℤ)
    (n : ℕ) : Registers ℚ :=
  Tev.run R A program.stages (fun i => (tex i).float) (fun i => (ras i).float) program.initial n

/-- The registers of the reference, with the selectors unpacked. -/
def Program.reference (program : Program) (A : Arithmetic) (tex ras : ℕ → Value ℤ) (n : ℕ) :
    Registers ℤ :=
  referenceRun A (fun i => unpack (program.stages i)) (fun i => (program.stages i).konst.floor) tex
    ras program.initial.floor n

section Build

variable {R : SingleRounding} {number : Float32 → Option ℚ} {d : Decoded} {program : Program}

/-- A color register is the integer that it was written with. -/
theorem byteComponent_spec {lo hi : ℤ} {v : Float32} {x : ℚ} (hlo : |lo| ≤ 2 ^ 20)
    (hhi : |hi| ≤ 2 ^ 20) (h : byteComponent R number lo hi v = .ok x) :
    ∃ n : ℤ, x = n ∧ lo ≤ n ∧ n ≤ hi := by
  rw [byteComponent] at h
  split at h
  · cases h
  · next q hq =>
    obtain ⟨_, hvalid, h⟩ := bind_eq_ok.1 h
    obtain rfl := Except.ok.inj h
    rw [validate, require_eq_ok, Bool.and_eq_true, decide_eq_true_eq, decide_eq_true_eq] at hvalid
    rw [abs_le] at hlo hhi
    -- the tolerance is less than a quarter
    have htolerance : R.round (1 / 1000) ≤ 1 / 4 := by
      have hquarter := R.round_dyadic 1 2 (by decide) (by decide)
      norm_num at hquarter
      calc R.round (1 / 1000) ≤ R.round (1 / 4) := R.monotone (by norm_num)
        _ = 1 / 4 := hquarter
    have hlow : (lo : ℚ) - 1 / 4 ≤ R.round (lo - R.round (1 / 1000)) := by
      have hdyadic := R.round_dyadic (lo * 4 - 1) 2 (abs_le.mpr ⟨by omega, by omega⟩) (by decide)
      have hvalue : ((lo * 4 - 1 : ℤ) : ℚ) / 2 ^ 2 = lo - 1 / 4 := by
        push_cast
        ring
      rw [hvalue] at hdyadic
      rw [← hdyadic]
      exact R.monotone (by linarith)
    have hhigh : R.round (hi + R.round (1 / 1000)) ≤ (hi : ℚ) + 1 / 4 := by
      have hdyadic := R.round_dyadic (hi * 4 + 1) 2 (abs_le.mpr ⟨by omega, by omega⟩) (by decide)
      have hvalue : ((hi * 4 + 1 : ℤ) : ℚ) / 2 ^ 2 = hi + 1 / 4 := by
        push_cast
        ring
      rw [hvalue] at hdyadic
      rw [← hdyadic]
      exact R.monotone (by linarith)
    exact ⟨_, rfl, le_roundEven (by linarith), roundEven_le (by linarith)⟩

theorem byteColor_spec {lo hi : ℤ} {v : ℕ → Float32} {x : Value ℚ} (hlo : |lo| ≤ 2 ^ 20)
    (hhi : |hi| ≤ 2 ^ 20) (h : byteColor R number v lo hi = .ok x) :
    ∃ n : Value ℤ, x = n.float ∧ n.Within lo hi := by
  obtain ⟨r, hr, h⟩ := bind_eq_ok.1 h
  obtain ⟨g, hg, h⟩ := bind_eq_ok.1 h
  obtain ⟨b, hb, h⟩ := bind_eq_ok.1 h
  obtain ⟨a, ha, h⟩ := bind_eq_ok.1 h
  obtain rfl := Except.ok.inj h
  obtain ⟨r, rfl, hinR⟩ := byteComponent_spec hlo hhi hr
  obtain ⟨g, rfl, hinG⟩ := byteComponent_spec hlo hhi hg
  obtain ⟨b, rfl, hinB⟩ := byteComponent_spec hlo hhi hb
  obtain ⟨a, rfl, hinA⟩ := byteComponent_spec hlo hhi ha
  exact ⟨⟨r, g, b, a⟩, rfl, hinR, hinG, hinB, hinA⟩

theorem konstColor_range {sel : ℕ} {colors : ℕ → Value ℚ} {alpha : Bool} {x : Value ℚ}
    (hcolors : ∀ i < 4, ByteRange (colors i)) (h : konstColor R sel colors alpha = .ok x) :
    ByteRange x := by
  rw [konstColor] at h
  split at h
  · next hsel =>
    obtain rfl := Except.ok.inj h
    have heighth : R.round (255 / 8) = 255 / 8 := by
      have hdyadic := R.round_dyadic 255 3 (by decide) (by decide)
      norm_num at hdyadic
      exact hdyadic
    have hexact : R.round (((8 - sel : ℕ) : ℚ) * (255 / 8)) = ((8 - sel : ℕ) : ℚ) * (255 / 8) := by
      have hdyadic := R.round_dyadic ((8 - sel : ℕ) * 255) 3 (abs_le.mpr ⟨by omega, by omega⟩)
        (by decide)
      have hvalue : (((8 - sel : ℕ) * 255 : ℤ) : ℚ) / 2 ^ 3 = ((8 - sel : ℕ) : ℚ) * (255 / 8) := by
        push_cast
        ring
      rwa [hvalue] at hdyadic
    rw [heighth, hexact]
    have hle : ((8 - sel : ℕ) : ℚ) ≤ 8 := by exact_mod_cast Nat.sub_le 8 sel
    exact byteRange_splat ⟨by positivity, by linarith⟩
  · obtain ⟨_, hvalid, h⟩ := bind_eq_ok.1 h
    split at h
    · next hsel =>
      obtain rfl := Except.ok.inj h
      exact hcolors _ (by omega)
    · obtain rfl := Except.ok.inj h
      exact byteRange_splat ((hcolors _ (by rw [and_three]; omega)).lane _)

theorem stageKonst_range {konst : ℕ → Value ℚ} {i : ℕ} {x : Value ℚ}
    (hkonst : ∀ i < 4, ByteRange (konst i)) (h : stageKonst R d konst i = .ok x) : ByteRange x := by
  obtain ⟨color, hcolor, h⟩ := bind_eq_ok.1 h
  have hrange : ByteRange color := by
    rw [stageColorKonst] at hcolor
    split at hcolor
    · exact konstColor_range hkonst hcolor
    · obtain rfl := Except.ok.inj hcolor
      exact byteRange_splat (by norm_num)
  split at h
  · obtain ⟨alpha, halpha, h⟩ := bind_eq_ok.1 h
    obtain rfl := Except.ok.inj h
    exact { hrange with a := (konstColor_range hkonst halpha).a }
  · obtain rfl := Except.ok.inj h
    exact hrange

/-- What a program that is built has. -/
theorem build_spec (h : buildTevProgram R number d = .ok program) :
    program.stageCount = d.genMode.numTevStages ∧
    (∃ initial : Registers ℤ, program.initial = initial.float ∧ initial.Within (-1024) 1023) ∧
    ∀ i < program.stageCount,
      StageFields (program.stages i) (selectors d i) ∧ ByteRange (program.stages i).konst := by
  obtain ⟨_, -, h⟩ := bind_eq_ok.1 h
  obtain ⟨_, -, h⟩ := bind_eq_ok.1 h
  obtain ⟨prev, hprev, h⟩ := bind_eq_ok.1 h
  obtain ⟨reg0, hreg0, h⟩ := bind_eq_ok.1 h
  obtain ⟨reg1, hreg1, h⟩ := bind_eq_ok.1 h
  obtain ⟨reg2, hreg2, h⟩ := bind_eq_ok.1 h
  obtain ⟨konst, hkonst, h⟩ := bind_eq_ok.1 h
  obtain ⟨stages, hstages, h⟩ := bind_eq_ok.1 h
  obtain rfl := Except.ok.inj h
  obtain ⟨prev, rfl, hinPrev⟩ := byteColor_spec (by decide) (by decide) hprev
  obtain ⟨reg0, rfl, hinReg0⟩ := byteColor_spec (by decide) (by decide) hreg0
  obtain ⟨reg1, rfl, hinReg1⟩ := byteColor_spec (by decide) (by decide) hreg1
  obtain ⟨reg2, rfl, hinReg2⟩ := byteColor_spec (by decide) (by decide) hreg2
  have hcolors : ∀ i < 4, ByteRange (konst i) := by
    intro i hi
    obtain ⟨n, hn, hwithin⟩ := byteColor_spec (by decide) (by decide)
      ((Loop.foldlM_fill List.nodup_range hkonst).1 i (List.mem_range.mpr hi))
    rw [hn]
    exact hwithin.byteRange
  refine ⟨rfl, ⟨⟨prev, reg0, reg1, reg2⟩, rfl, hinPrev, hinReg0, hinReg1, hinReg2⟩, fun i hi => ?_⟩
  obtain ⟨hfields, hstage⟩ := buildStage_fields
    ((Loop.foldlM_fill List.nodup_range hstages).1 i (List.mem_range.mpr hi))
  exact ⟨hfields, stageKonst_range hcolors hstage⟩

/-- On integers, a packed program does what the integer reference does with the selectors of the
register state, in every arithmetic of 32-bit words; the registers stay in their range. -/
theorem packed_tev_integer (h : buildTevProgram R number d = .ok program)
    (hhalf : ∀ i < program.stageCount, GX_CC_HALF ∉ TevPass.args (d.tevStages.color i).1)
    (hkonst : ∀ i < program.stageCount, ∃ n : Value ℤ, (program.stages i).konst = n.float)
    {tex ras : ℕ → Value ℤ} (htex : ∀ i < program.stageCount, (tex i).Within 0 255)
    (hras : ∀ i < program.stageCount, (ras i).Within 0 255) (A A' : Arithmetic) :
    (∀ i < program.stageCount, unpack (program.stages i) = selectors d i) ∧
    ∀ n ≤ program.stageCount,
      program.run R A tex ras n = (program.reference A' tex ras n).float ∧
      (program.reference A' tex ras n).Within (-1024) 1023 := by
  obtain ⟨-, ⟨initial, hinitial, hwithin⟩, hstages⟩ := build_spec h
  refine ⟨fun i hi => (hstages i hi).1.unpack_eq, fun n hn => ?_⟩
  rw [Program.run, Program.reference, hinitial, Registers.floor_float]
  induction n with
  | zero => exact ⟨rfl, hwithin⟩
  | succ n ih =>
    obtain ⟨hrun, hregs⟩ := ih (by omega)
    obtain ⟨hfields, hrange⟩ := hstages n hn
    obtain ⟨konst, hconst⟩ := hkonst n hn
    rw [hconst] at hrange
    have hfloor : (program.stages n).konst.floor = konst := by rw [hconst, Value.floor_float]
    refine ⟨?_, referenceStage_within A' hregs⟩
    rw [Tev.run, hrun, referenceRun, hfields.unpack_eq, hfloor]
    exact stage_float R A A' hfields (hhalf n hn) hconst hrange.within (htex n hn) (hras n hn) hregs

end Build

/-! ### Three stages -/

/-- A texture of one channel times the raster color, a comparison of that with the raster color
channel by channel, and half of white less a mix of the two. -/
def blended : TevStages :=
  { TevStages.reset with
    color := fun i =>
      [(⟨15, GX_CC_TEXC, 10, 15⟩, ⟨0, 0, 0, 0, true⟩),
        (⟨0, 10, GX_CC_KONST, 15⟩, ⟨14, 0, 0, 1, true⟩),
        (⟨2, 0, 1, GX_CC_KONST⟩, ⟨1, GX_TB_ADDHALF, GX_CS_DIVIDE_2, 0, false⟩)].getD i
        (⟨15, 15, 15, 15⟩, ⟨0, 0, 0, 0, true⟩)
    alpha := fun i =>
      [⟨⟨7, GX_CA_TEXA, 5, 7⟩, ⟨0, 0, 0, 0, true⟩, 0, 1⟩,
        ⟨⟨0, 5, GX_CA_KONST, 7⟩, ⟨9, GX_TB_SUBHALF, 0, 2, true⟩, 0, 0⟩,
        ⟨⟨2, 0, 5, 7⟩, ⟨0, GX_TB_SUBHALF, 1, 3, false⟩, 2, 0⟩].getD i
        ⟨⟨7, 7, 7, 7⟩, ⟨0, 0, 0, 0, true⟩, 0, 0⟩
    order := fun _ => ⟨0, 0, 4⟩
    kSel := fun _ => (12, 28) }

/-- A program of these stages, with white in every register. -/
def threeStages : Decoded :=
  let d := Decoded.reset ⟨640, 528, 640, 528⟩ false
  { d with
    genMode := { d.genMode with numTevStages := 3, numTexGens := 1 }
    tevStages := blended
    tevColors := ⟨fun _ _ => 1.0, fun _ _ => 1.0⟩ }

def texel : Value ℤ := ⟨200, 30, 77, 128⟩

def rasters (i : ℕ) : Value ℤ :=
  [⟨255, 128, 64, 100⟩, ⟨199, 200, 50, 51⟩].getD i ⟨10, 20, 30, 40⟩

theorem texel_within : texel.Within 0 255 := ⟨by decide, by decide, by decide, by decide⟩

theorem rasters_within {i : ℕ} (hi : i < 3) : (rasters i).Within 0 255 := by
  interval_cases i <;> exact ⟨by decide, by decide, by decide, by decide⟩

/-- The first stage uses no constant. -/
def konsts (i : ℕ) : Value ℤ := splat (if i = 0 then 0 else 255)

theorem float_splat (n : ℤ) : (splat n).float = splat (n : ℚ) := rfl

/-- What the three stages leave, from white registers. -/
def blendedRegisters : Registers ℤ :=
  ⟨⟨69, 182, 187, 50⟩, ⟨255, 0, 0, 255⟩, ⟨255, 255, 255, 0⟩, ⟨255, 255, 255, -240⟩⟩

theorem threeStages_built : ∃ program,
    buildTevProgram .exact (fun _ => some 1) threeStages = .ok program ∧ program.stageCount = 3 ∧
      (∀ i < 3, (program.stages i).konst = (konsts i).float) ∧
      program.reference .modular (fun _ => texel) rasters 3 = blendedRegisters := by
  have hbuilt : (buildTevProgram .exact (fun _ => some 1) threeStages).toOption.map
      (fun program => (program.stageCount, (program.stages 0).konst, (program.stages 1).konst,
        (program.stages 2).konst, program.reference .modular (fun _ => texel) rasters 3)) =
      some (3, splat 0, splat 255, splat 255, blendedRegisters) := by
    decide +kernel
  cases hprogram : buildTevProgram .exact (fun _ => some 1) threeStages with
  | error fault =>
    rw [hprogram] at hbuilt
    cases hbuilt
  | ok program =>
    rw [hprogram] at hbuilt
    simp only [Except.toOption, Option.map_some, Option.some.injEq, Prod.mk.injEq] at hbuilt
    obtain ⟨hcount, hfirst, hsecond, hthird, hreference⟩ := hbuilt
    refine ⟨program, rfl, hcount, fun i hi => ?_, hreference⟩
    interval_cases i
    · exact hfirst.trans (float_splat 0).symm
    · exact hsecond.trans (float_splat 255).symm
    · exact hthird.trans (float_splat 255).symm

theorem packed_tev_integer_blended : ∃ program,
    buildTevProgram .exact (fun _ => some 1) threeStages = .ok program ∧
      program.run .exact .modular (fun _ => texel) rasters 3 = blendedRegisters.float := by
  obtain ⟨program, hbuild, hcount, hkonst, hreference⟩ := threeStages_built
  have hselected : ∀ i < 3, GX_CC_HALF ∉ TevPass.args (threeStages.tevStages.color i).1 := by
    decide
  have hrun := ((packed_tev_integer hbuild (fun i hi => hselected i (hcount ▸ hi))
    (fun i hi => ⟨konsts i, hkonst i (hcount ▸ hi)⟩) (fun _ _ => texel_within)
    (fun i hi => rasters_within (hcount ▸ hi)) .modular .modular).2 3 hcount.ge).1
  exact ⟨program, hbuild, hrun.trans (congrArg Registers.float hreference)⟩

end Gx.Tev
