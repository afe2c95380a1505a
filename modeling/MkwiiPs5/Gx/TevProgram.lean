import MkwiiPs5.Gx.Geometry
import MkwiiPs5.Gx.TevStage

/-!
# TEV programs

`gx_tev_program.cpp` packs the TEV state of the registers into a program, and names the texture
coordinates that the program reads.
-/

namespace Gx.Tev

def GX_CC_TEXC : ℕ := 8
def GX_CC_TEXA : ℕ := 9
def GX_CC_HALF : ℕ := 13
def GX_CC_KONST : ℕ := 14
def GX_CA_TEXA : ℕ := 4
def GX_CA_KONST : ℕ := 6

def GX_TB_ADDHALF : ℕ := 1
def GX_TB_SUBHALF : ℕ := 2
def GX_CS_DIVIDE_2 : ℕ := 3
def GX_TEVREG2 : ℕ := 3

def GX_ALWAYS : ℕ := 7
def GX_AOP_XNOR : ℕ := 3

/-! ### Texture coordinates -/

/-- `tev_effective_texcoord`; `none` stands for -1. -/
def effectiveTexcoord (d : Decoded) (texCoordId : ℕ) : Option ℕ :=
  if d.genMode.numTexGens = 0 then none
  else if texCoordId < d.genMode.numTexGens ∧ texCoordId < MaxTexCoord then some texCoordId
  else some 0

/-- `tev_stage_needs_fixed_texcoord_state`. -/
def needsFixedTexcoordState (d : Decoded) (i : ℕ) : Bool :=
  let s := d.tevStages.indirect i
  let hasCoordOperation := s.mtxId ≠ 0 ∨ s.wrapS ≠ 0 ∨ s.wrapT ≠ 0 ∨ s.addPrev
  let feedsNextAddPrev := i + 1 < d.genMode.numTevStages ∧ (d.tevStages.indirect (i + 1)).addPrev
  decide (i < d.genMode.numTevStages ∧ (hasCoordOperation ∨ feedsNextAddPrev))

def TevPass.args (p : TevPass) : List ℕ := [p.a, p.b, p.c, p.d]

/-- `tev_stage_combiner_uses_texture`. -/
def combinerUsesTexture (d : Decoded) (i : ℕ) : Bool :=
  (TevPass.args (d.tevStages.color i).1).any (fun arg => arg == GX_CC_TEXC || arg == GX_CC_TEXA) ||
    (TevPass.args (d.tevStages.alpha i).pass).any (· == GX_CA_TEXA)

/-- `TevStageTextureDependency`. -/
structure TextureDependency where
  texCoordId : Option ℕ
  texMapId : Option ℕ
  needsFixed : Bool
  combinerUsesTexture : Bool
  canSampleTexture : Bool

/-- `tev_stage_texture_dependency`. -/
def textureDependency (d : Decoded) (i : ℕ) : TextureDependency :=
  if i < d.genMode.numTevStages then
    let s := d.tevStages.order i
    let texCoordId := effectiveTexcoord d s.texCoordId
    let texMapId :=
      if s.texMapId ≠ GX_TEXMAP_NULL ∧ s.texMapId < MaxTextures then some s.texMapId else none
    { texCoordId := texCoordId
      texMapId := texMapId
      needsFixed := needsFixedTexcoordState d i
      combinerUsesTexture := combinerUsesTexture d i
      canSampleTexture := texCoordId.isSome && texMapId.isSome }
  else ⟨none, none, false, false, false⟩

/-- `tev_program_used_texcoords`. -/
def programUsedTexcoords (d : Decoded) : Except Fault ℕ := do
  require (d.genMode.numTevStages ≤ 16 && d.genMode.numTexGens ≤ 8 && d.genMode.numIndStages ≤ 4)
    "Invalid GX TEV state"
  pure <| (List.range d.genMode.numTevStages).foldl (fun used i =>
    let dep := textureDependency d i
    let used :=
      match dep.texCoordId with
      | some coord =>
        if dep.needsFixed || (dep.canSampleTexture && dep.combinerUsesTexture) then
          used ||| 1 <<< coord
        else used
      | none => used
    let stage := (d.tevStages.indirect i).stage
    if stage < d.genMode.numIndStages then
      match effectiveTexcoord d (d.indStages.texCoordId stage) with
      | some coord => used ||| 1 <<< coord
      | none => used
    else used) 0

/-! ### Packing -/

/-- `MkwTevProgram`. -/
structure Program where
  stageCount : ℕ
  alphaFlags : ℕ
  disabledTextureValue : ℕ
  numTexgens : ℕ
  initial : Registers ℚ
  stages : ℕ → Stage

def Stage.zero : Stage :=
  ⟨0, 0, 0, 0, 0, 0, 0, 0, 0, false, 0, 0, 0, 0, 0, 0, splat 0⟩

/-- `require`. -/
def validate (v : Bool) : Except Fault Unit := require v "Invalid GX TEV state"

/-- The bias as it is packed: half a byte less, none, half a byte more. -/
def shiftedBias (v : TevOp) : ℕ :=
  -- comparisons ignore the encoding of the bias
  let bias := if 8 ≤ v.op then 0 else v.bias
  if bias = GX_TB_ADDHALF then 2 else if bias = GX_TB_SUBHALF then 0 else 1

/-- `operation`. -/
def operation (v : TevOp) : Except Fault ℕ := do
  validate ((v.op ≤ 1 || (8 ≤ v.op && v.op ≤ 15)) && v.scale ≤ GX_CS_DIVIDE_2 &&
    v.outReg ≤ GX_TEVREG2)
  validate ((if 8 ≤ v.op then 0 else v.bias) ≤ GX_TB_SUBHALF)
  pure (v.op ||| v.scale <<< 4 ||| v.clamp.toNat <<< 6 ||| shiftedBias v <<< 8 ||| v.outReg <<< 10)

/-- `swizzle`, of an entry of the swap table. -/
def packSwizzle (red green blue alpha : ℕ) : Except Fault ℕ := do
  validate (red ≤ 3 && green ≤ 3 && blue ≤ 3 && alpha ≤ 3)
  pure (red ||| green <<< 2 ||| blue <<< 4 ||| alpha <<< 6)

section Floats

variable (R : SingleRounding) (number : Float32 → Option ℚ)

/-- A component of `byte_color`. -/
def byteComponent (lo hi : ℤ) (v : Float32) : Except Fault ℚ :=
  match number v with
  | none => .error (.thrown "Invalid GX TEV state")
  | some v => do
    let value := R.round (v * 255)
    validate (R.round (lo - R.round (1 / 1000)) ≤ value &&
      value ≤ R.round (hi + R.round (1 / 1000)))
    pure (roundEven value)

/-- `byte_color`. -/
def byteColor (v : ℕ → Float32) (lo hi : ℤ) : Except Fault (Value ℚ) := do
  let r ← byteComponent R number lo hi (v 0)
  let g ← byteComponent R number lo hi (v 1)
  let b ← byteComponent R number lo hi (v 2)
  let a ← byteComponent R number lo hi (v 3)
  pure ⟨r, g, b, a⟩

/-- `konst_color`. -/
def konstColor (sel : ℕ) (colors : ℕ → Value ℚ) (alpha : Bool) : Except Fault (Value ℚ) :=
  if sel < 8 then pure (splat (R.round ((8 - sel : ℕ) * R.round (255 / 8))))
  else do
    validate (12 ≤ sel && sel ≤ 31 && (!alpha || 16 ≤ sel))
    if sel < 16 then pure (colors (sel - 12))
    else pure (splat (lane (colors ((sel - 16) &&& 3)) ((sel - 16) >>> 2)))

/-- The constant color of a stage; selectors that are not used are not checked. -/
def stageColorKonst (d : Decoded) (konst : ℕ → Value ℚ) (i : ℕ) : Except Fault (Value ℚ) :=
  if GX_CC_KONST ∈ TevPass.args (d.tevStages.color i).1 then
    konstColor R (d.tevStages.kSel i).1 konst false
  else pure (splat 0)

/-- The constant of a stage, with an alpha of its own. -/
def stageKonst (d : Decoded) (konst : ℕ → Value ℚ) (i : ℕ) : Except Fault (Value ℚ) := do
  let color ← stageColorKonst R d konst i
  if GX_CA_KONST ∈ TevPass.args (d.tevStages.alpha i).pass then do
    let alpha ← konstColor R (d.tevStages.kSel i).2 konst true
    pure { color with a := alpha.a }
  else pure color

/-- One turn of the loop over the stages. -/
def buildStage (d : Decoded) (konst : ℕ → Value ℚ) (i : ℕ) : Except Fault Stage := do
  let color := d.tevStages.color i
  let alpha := d.tevStages.alpha i
  let s := d.tevStages.indirect i
  let swapTable (sel : ℕ) :=
    let rg := d.tevStages.swapRedGreen sel
    let ba := d.tevStages.swapBlueAlpha sel
    packSwizzle rg.1 rg.2 ba.1 ba.2
  validate (color.1.a ≤ 15 && alpha.pass.a ≤ 7 && color.1.b ≤ 15 && alpha.pass.b ≤ 7 &&
    color.1.c ≤ 15 && alpha.pass.c ≤ 7 && color.1.d ≤ 15 && alpha.pass.d ≤ 7)
  let colorOp ← operation color.2
  let alphaOp ← operation alpha.op
  validate (alpha.swapTex < 4 && alpha.swapRas < 4)
  let textureSwap ← swapTable alpha.swapTex
  let rasterSwap ← swapTable alpha.swapRas
  let dep := textureDependency d i
  let channel := (d.tevStages.order i).channelId
  validate (channel ≤ 8 || channel == GX_COLOR_NULL)
  validate (s.format ≤ 3 && s.alphaSel ≤ 3)
  let feedsNext := i + 1 < d.genMode.numTevStages ∧ (d.tevStages.indirect (i + 1)).addPrev
  let konst ← stageKonst R d konst i
  pure
    { colorArgs := color.1.a ||| color.1.b <<< 4 ||| color.1.c <<< 8 ||| color.1.d <<< 12
      alphaArgs := alpha.pass.a ||| alpha.pass.b <<< 3 ||| alpha.pass.c <<< 6 |||
        alpha.pass.d <<< 9
      colorOp := colorOp
      alphaOp := alphaOp
      textureSwap := textureSwap
      rasterSwap := rasterSwap
      texMap := dep.texMapId.getD UINT32_MAX
      texCoord := dep.texCoordId.getD UINT32_MAX
      channel := channel
      sampleEnabled := dep.canSampleTexture && dep.combinerUsesTexture
      indirectStage := if s.stage < d.genMode.numIndStages then s.stage else UINT32_MAX
      indirectFormat := s.format
      indirectAlpha := s.alphaSel
      indirectMatrix := s.mtxId
      indirectWrap := u32 (s.wrapS ||| s.wrapT <<< 8)
      indirectFlags := s.biasSel ||| s.useOrigLOD.toNat <<< 8 ||| s.addPrev.toNat <<< 9 |||
        if feedsNext then 1024 else 0
      konst := konst }

/-- `build_tev_program`. -/
def buildTevProgram (d : Decoded) : Except Fault Program := do
  let mode := d.genMode
  validate (1 ≤ mode.numTevStages && mode.numTevStages ≤ 16 && mode.numTexGens ≤ 8 &&
    mode.numIndStages ≤ 4)
  let ac := d.pixel.alphaCompare
  validate (ac.comp0 ≤ GX_ALWAYS && ac.comp1 ≤ GX_ALWAYS && ac.op ≤ GX_AOP_XNOR &&
    ac.ref0 ≤ 255 && ac.ref1 ≤ 255)
  let prev ← byteColor R number (d.tevColors.colorRegs 0) (-1024) 1023
  let reg0 ← byteColor R number (d.tevColors.colorRegs 1) (-1024) 1023
  let reg1 ← byteColor R number (d.tevColors.colorRegs 2) (-1024) 1023
  let reg2 ← byteColor R number (d.tevColors.colorRegs 3) (-1024) 1023
  let konst ← (List.range 4).foldlM (fun konst i => do
    pure (Function.update konst i (← byteColor R number (d.tevColors.kcolors i) 0 255)))
    fun _ => splat 0
  let stages ← (List.range mode.numTevStages).foldlM (fun stages i => do
    pure (Function.update stages i (← buildStage R d konst i))) fun _ => .zero
  pure
    { stageCount := mode.numTevStages
      alphaFlags := ac.comp0 ||| ac.comp1 <<< 3 ||| ac.op <<< 6 ||| ac.ref0 <<< 8 ||| ac.ref1 <<< 16
      disabledTextureValue := if mode.numTexGens ≠ 0 then 255 else 0
      numTexgens := mode.numTexGens
      initial := ⟨prev, reg0, reg1, reg2⟩
      stages := stages }

end Floats

end Gx.Tev
