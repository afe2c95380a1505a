import MkwiiPs5.Gx.TevProgram
import MkwiiPs5.Gx.XfDecoder

/-!
# Direct materials

`gx_direct_material.cpp` puts a TEV program and what it samples into one block of uniforms, and
`tev_direct_probe.c` reads that block and the generated texture coordinates, stage by stage.
-/

namespace Gpu.GxDirectMaterial

open Gx (Decoded Fault require u32 UINT32_MAX)
open Gx.Tev (Program Stage)

def GX_MAX_TEXGENSRC : ℕ := 21
def GX_TG_TEXCOORD0 : ℕ := 12
def GX_TG_TEXCOORD6 : ℕ := 18
def GX_IDENTITY : ℕ := 60
def GX_PTIDENTITY : ℕ := 125

/-! ### Texture coordinate generators -/

/-- `MkwTexgen`. -/
structure Generator where
  type : ℕ
  source : ℕ
  flags : ℕ
  matrix : ℕ
  postMatrix : ℕ

/-- `MkwTexgenState`. -/
structure TexgenState where
  count : ℕ
  usedMask : ℕ
  generators : ℕ → Generator

/-- A generator that is used. -/
def snapshotGenerator (d : Decoded) (i : ℕ) : Except Fault Generator := do
  let c := d.texCoordGens.gen i
  let post := d.texCoordGens.post i
  let mtx := d.matrixIndices.tcgMtx i
  require (c.type == Gx.GX_TG_MTX3x4 || c.type == Gx.GX_TG_MTX2x4 || c.type == Gx.GX_TG_SRTG)
    "GX emboss texgen requires an additional shader path"
  require (c.src ≤ GX_MAX_TEXGENSRC && !(GX_TG_TEXCOORD0 ≤ c.src && c.src ≤ GX_TG_TEXCOORD6))
    "GX recursive texgen source requires an additional shader path"
  let shared := c.type ≠ Gx.GX_TG_SRTG ∧ mtx ≠ GX_IDENTITY ∧
    d.vertex.vtxDesc (Gx.GX_VA_TEX0MTXIDX + i) = Gx.GX_NONE
  require (!(decide shared && 60 ≤ mtx)) "GX texture matrix outside shared bank"
  let dual := d.dualTex &&& 1 ≠ 0
  require (!(decide dual && post.postMtx != GX_PTIDENTITY &&
      (decide (post.postMtx < 64) || 124 ≤ post.postMtx))) "GX post texture matrix outside bank"
  pure
    { type := c.type
      source := if c.src = GX_MAX_TEXGENSRC then Gx.GX_TG_TEX0 + i else c.src
      flags := c.inputFormAB11.toNat ||| if dual then post.normalize.toNat <<< 1 else 0
      matrix := if shared then mtx / 3 else UINT32_MAX
      postMatrix := if dual ∧ post.postMtx ≠ GX_PTIDENTITY then (post.postMtx - 64) / 3
        else UINT32_MAX }

/-- The check of `snapshot_gx_texgen` on the coordinates that are used. -/
def texgenUseInside (d : Decoded) (used : ℕ) : Bool :=
  d.genMode.numTexGens ≤ 8 && used ≤ 255 && used >>> d.genMode.numTexGens == 0

/-- `snapshot_gx_texgen`. -/
def snapshotGxTexgen (d : Decoded) (used : ℕ) : Except Fault TexgenState := do
  require (texgenUseInside d used) "GX texgen use outside active coordinate count"
  let generators ← (List.range 8).foldlM (fun generators i =>
    if used.testBit i then do
      pure (Function.update generators i (← snapshotGenerator d i))
    else pure generators) fun _ => ⟨0, 0, 0, UINT32_MAX, UINT32_MAX⟩
  pure ⟨d.genMode.numTexGens, used, generators⟩

/-- Whether the vertex shader generates a coordinate; it exports a constant for the others. -/
def TexgenState.generates (t : TexgenState) (coordinate : ℕ) : Bool :=
  coordinate < 8 && t.usedMask.testBit coordinate

/-! ### The uniform block -/

/-- Where an indirect stage samples. -/
structure IndirectStage where
  texMap : ℕ
  coordinate : ℕ
  scaleS : ℕ
  scaleT : ℕ

/-- What is bound for the stages: the maps that are sampled, and the indirect stages. -/
structure Bindings where
  mask : ℕ
  indirectStages : ℕ → IndirectStage
  usesMatrices : Bool

/-- `GxDirectUniforms`; a texture or a matrix that is not filled is `none`. -/
structure Uniforms (β : Type) where
  program : Program
  textures : ℕ → Option β
  coordinateScales : ℕ → Option (ℕ × ℕ × Bool × Bool)
  indirectStages : ℕ → IndirectStage
  indirectMatrices : ℕ → Option (ℤ × ℤ × ℤ × ℤ)
  mask : ℕ

section Build

variable (R : SingleRounding) (number : Float32 → Option ℚ)

/-- The coordinate of an indirect stage: without generators a constant, past them the first. -/
def indirectCoordinate (d : Decoded) (texCoordId : ℕ) : ℕ :=
  if d.genMode.numTexGens = 0 then 8
  else if texCoordId < d.genMode.numTexGens then texCoordId
  else 0

def bindIndirect (d : Decoded) (stage : Stage) (b : Bindings) : Except Fault Bindings :=
  if stage.indirectStage ≠ UINT32_MAX then do
    let texMapId := d.indStages.texMapId stage.indirectStage
    let scale := d.indStages.scale stage.indirectStage
    let scaleS := scale.1
    let scaleT := scale.2
    require (!(8 ≤ texMapId || decide (scaleS > 8) || decide (scaleT > 8)))
      s!"Invalid GX indirect stage binding (map {texMapId}, scale {scaleS}/{scaleT})"
    pure
      { mask := b.mask ||| 1 <<< texMapId
        indirectStages := Function.update b.indirectStages stage.indirectStage
          ⟨texMapId, indirectCoordinate d (d.indStages.texCoordId stage.indirectStage), scaleS,
            scaleT⟩
        usesMatrices := b.usesMatrices || stage.indirectMatrix != 0 }
  else pure b

def bindSample (d : Decoded) (stage : Stage) (b : Bindings) : Except Fault Bindings :=
  if stage.sampleEnabled then do
    require (!(8 ≤ stage.texMap || d.genMode.numTexGens ≤ stage.texCoord))
      "Invalid direct TEV texture dependency"
    pure { b with mask := b.mask ||| 1 <<< stage.texMap }
  else pure b

/-- One turn of the loop over the stages. -/
def bindStage (d : Decoded) (b : Bindings) (stage : Stage) : Except Fault Bindings := do
  let b ← bindIndirect d stage b
  require (!(decide (stage.indirectMatrix > 11) || stage.indirectMatrix == 4 ||
      stage.indirectMatrix == 8 || decide (stage.indirectWrap &&& 255 > 6) ||
      decide (stage.indirectWrap >>> 8 > 6))) "Invalid GX indirect matrix/wrap selection"
  bindSample d stage b

/-- `std::lround`: halves go away from zero. -/
def lround (x : ℚ) : ℤ := if 0 ≤ x then ⌊x + 1 / 2⌋ else -⌊-x + 1 / 2⌋

def mantissa (v : Float32) : Except Fault ℤ :=
  match number v with
  | none => .error (.thrown "Nonfinite GX indirect matrix")
  | some v => .ok (lround (R.round (v * 1024)))

/-- The two rows of an indirect matrix. -/
def snapshotMatrix (d : Decoded) (m : ℕ) : Except Fault ((ℤ × ℤ × ℤ × ℤ) × (ℤ × ℤ × ℤ × ℤ)) := do
  let info := d.indTexMtxs m
  let m0x ← mantissa R number (info.mtx 0).1
  let m0y ← mantissa R number (info.mtx 0).2
  let m1x ← mantissa R number (info.mtx 1).1
  let m1y ← mantissa R number (info.mtx 1).2
  let m2x ← mantissa R number (info.mtx 2).1
  let m2y ← mantissa R number (info.mtx 2).2
  pure ((m0x, m0y, m1x, m1y), (m2x, m2y, -info.scaleExp, 0))

def snapshotMatrices (d : Decoded) (uses : Bool) :
    Except Fault (ℕ → Option (ℤ × ℤ × ℤ × ℤ)) :=
  (if uses then [0, 1, 2] else []).foldlM (fun rows m => do
    let pair ← snapshotMatrix R number d m
    pure (Function.update (Function.update rows (2 * m) (some pair.1)) (2 * m + 1) (some pair.2)))
    fun _ => none

/-- `GxDirectMaterial::build`; `resolve` finds and uploads the texture of a map. -/
def build {β : Type} (program : Program) (d : Decoded) (resolve : ℕ → Except Fault β) :
    Except Fault (Uniforms β) := do
  let bindings ← ((List.range program.stageCount).map program.stages).foldlM (bindStage d)
    ⟨0, fun _ => ⟨0, 0, 0, 0⟩, false⟩
  let matrices ← snapshotMatrices R number d bindings.usesMatrices
  let textures ← (List.range 8).foldlM (fun textures n =>
    if bindings.mask.testBit n then do
      pure (Function.update textures n (← some <$> resolve n))
    else pure textures) fun _ => none
  pure
    { program := program
      textures := textures
      coordinateScales := fun n =>
        if n < d.genMode.numTexGens then
          some ((d.texCoordScales.s n).scale + 1, (d.texCoordScales.t n).scale + 1,
            (d.texCoordScales.s n).bias, (d.texCoordScales.t n).bias)
        else none
      indirectStages := bindings.indirectStages
      indirectMatrices := matrices
      mask := bindings.mask }

end Build

/-! ### What the fragment shader reads -/

/-- The subtraction of `unsigned`. -/
def sub32 (x y : ℕ) : ℕ := u32 (x + (2 ^ 32 - y))

/-- The size of the block. -/
def uniformBytes : ℕ := 2288

/-- A load of uniforms, an interpolated texture coordinate, or a sample of a binding. -/
inductive Access
  | uniform (offset bytes : ℕ)
  | texcoord (coordinate : ℕ)
  | sample (binding : ℕ)
  | scale (coordinate : ℕ)
  | indirect (stage : ℕ)
  | matrix (row : ℕ)
  deriving DecidableEq

/-- The loads of a binding: texture, sampler and parameters. -/
def bindingAccesses (binding : ℕ) : List Access :=
  let resource := u32 (1360 + binding * 64)
  [.uniform resource 32, .uniform (u32 (resource + 32)) 16, .uniform (u32 (resource + 48)) 16,
    .sample binding]

/-- The load of a coordinate scale. -/
def scaleAccesses (coordinate : ℕ) : List Access :=
  [.uniform (u32 (1872 + coordinate * 16)) 16, .scale coordinate]

/-- The load of a row of the indirect matrices. -/
def rowAccesses (offset : ℕ) : List Access :=
  [.uniform offset 16, .matrix ((offset - 2064) / 16)]

/-- Whether a stage changes the persistent coordinate. -/
def coordState (s : Stage) : Bool :=
  s.indirectMatrix != 0 || s.indirectWrap &&& 255 != 0 || (s.indirectWrap >>> 8) &&& 255 != 0 ||
    s.indirectFlags &&& 512 != 0 || s.indirectFlags &&& 1024 != 0

/-- The lookup of an indirect stage. -/
def indirectAccesses (stages : ℕ → IndirectStage) (s : Stage) : List Access :=
  if s.indirectStage < 4 then
    let ind := stages s.indirectStage
    [.uniform (u32 (2000 + s.indirectStage * 16)) 16, .indirect s.indirectStage,
      .texcoord ind.coordinate] ++ scaleAccesses ind.coordinate ++ bindingAccesses ind.texMap
  else []

/-- The rows of the matrix of a stage: a static one, or the shift of a dynamic one. -/
def matrixAccesses (s : Stage) : List Access :=
  if s.indirectStage < 4 ∧ s.indirectMatrix ≠ 0 then
    let m := s.indirectMatrix
    if m ≤ 3 then
      rowAccesses (u32 (2064 + sub32 m 1 * 32)) ++ rowAccesses (u32 (2064 + sub32 m 1 * 32 + 16))
    else
      let mi := if m ≤ 7 then sub32 m 5 else sub32 m 9
      rowAccesses (u32 (2064 + mi * 32 + 16))
  else []

/-- One turn of the loop of `tev_probe` over the stages. -/
def stageAccesses (stages : ℕ → IndirectStage) (n : ℕ) (s : Stage) : List Access :=
  (List.range 5).map (fun k => .uniform (u32 (80 + n * 80 + k * 16)) 16) ++
    indirectAccesses stages s ++
    (if (s.sampleEnabled || coordState s) && s.texCoord < 8 then
      .texcoord s.texCoord :: scaleAccesses s.texCoord
    else []) ++
    (if coordState s then matrixAccesses s else []) ++
    if s.sampleEnabled then bindingAccesses s.texMap else []

/-- What `tev_probe` reads of the stages. -/
def accesses {β : Type} (u : Uniforms β) : List Access :=
  (List.range (min u.program.stageCount 16)).flatMap fun n =>
    stageAccesses u.indirectStages n (u.program.stages n)

end Gpu.GxDirectMaterial
