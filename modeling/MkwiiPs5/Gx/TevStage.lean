import MkwiiPs5.Arithmetic
import MkwiiPs5.Rounding

/-!
# The TEV evaluator

`tev_stage.h` and `tev_integer.h`: how the shaders evaluate one stage of a TEV program. A float is
the number it stands for, and every operation on floats rounds its exact result.
-/

namespace Gx.Tev

/-- `MkwTevValue`. -/
@[ext]
structure Value (α : Type*) where
  r : α
  g : α
  b : α
  a : α
  deriving DecidableEq

/-- `MkwTevRegisters`. -/
@[ext]
structure Registers (α : Type*) where
  prev : Value α
  reg0 : Value α
  reg1 : Value α
  reg2 : Value α
  deriving DecidableEq

/-- `MkwTevStage`. -/
structure Stage where
  colorArgs : ℕ
  alphaArgs : ℕ
  colorOp : ℕ
  alphaOp : ℕ
  textureSwap : ℕ
  rasterSwap : ℕ
  texMap : ℕ
  texCoord : ℕ
  channel : ℕ
  sampleEnabled : Bool
  indirectStage : ℕ
  indirectFormat : ℕ
  indirectAlpha : ℕ
  indirectMatrix : ℕ
  indirectWrap : ℕ
  indirectFlags : ℕ
  konst : Value ℚ

section Selection

variable {α : Type*}

/-- `mkw_tev_splat`. -/
def splat (f : α) : Value α := ⟨f, f, f, f⟩

/-- `mkw_tev_lane`. -/
def lane (v : Value α) (lane : ℕ) : α :=
  if lane = 0 then v.r else if lane = 1 then v.g else if lane = 2 then v.b else v.a

/-- `mkw_tev_swizzle`. -/
def swizzle (v : Value α) (sw : ℕ) : Value α :=
  ⟨lane v (sw &&& 3), lane v ((sw >>> 2) &&& 3), lane v ((sw >>> 4) &&& 3),
    lane v ((sw >>> 6) &&& 3)⟩

/-- `mkw_tev_register`. -/
def register (v : Registers α) (reg : ℕ) : Value α :=
  if reg = 0 then v.prev else if reg = 1 then v.reg0 else if reg = 2 then v.reg1 else v.reg2

/-- `mkw_tev_merge`. -/
def merge (old value : Value α) (rgb alpha : Bool) : Value α where
  r := if rgb then value.r else old.r
  g := if rgb then value.g else old.g
  b := if rgb then value.b else old.b
  a := if alpha then value.a else old.a

/-- `mkw_tev_write`. -/
def write (regs : Registers α) (rgbDst alphaDst : ℕ) (value : Value α) : Registers α where
  prev := merge regs.prev value (rgbDst == 0) (alphaDst == 0)
  reg0 := merge regs.reg0 value (rgbDst == 1) (alphaDst == 1)
  reg1 := merge regs.reg1 value (rgbDst == 2) (alphaDst == 2)
  reg2 := merge regs.reg2 value (rgbDst == 3) (alphaDst == 3)

end Selection

/-- `mkw_tev_color_arg`. -/
def colorArg (regs : Registers ℚ) (arg : ℕ) (tex ras konst : Value ℚ) : Value ℚ :=
  if arg < 8 then
    let v := register regs (arg >>> 1)
    if arg &&& 1 ≠ 0 then splat v.a else v
  else
    match arg with
    | 8 => tex
    | 9 => splat tex.a
    | 10 => ras
    | 11 => splat ras.a
    | 12 => splat 255
    | 13 => splat (255 / 2)
    | 14 => konst
    | _ => splat 0

/-- `mkw_tev_alpha_arg`. -/
def alphaArg (regs : Registers ℚ) (arg : ℕ) (tex ras konst : Value ℚ) : ℚ :=
  if arg < 4 then (register regs arg).a
  else if arg = 4 then tex.a
  else if arg = 5 then ras.a
  else if arg = 6 then konst.a
  else 0

/-! ### Integers -/

section Integers

variable (A : Arithmetic)

/-- `mkw_tev_regular`. -/
def regular (a b c d : ℤ) (op : ℕ) (bias : ℤ) (scale : ℕ) : ℤ :=
  let factor : ℤ := if scale = 1 then 2 else if scale = 2 then 4 else 1
  let interpolation := A.i32 (A.i32 (A.i32 (a * 256) +
    A.i32 (A.i32 (b - a) * A.i32 (c + c >>> (7 : ℕ)))) * factor)
  let interpolation :=
    if scale ≠ 3 then A.i32 (interpolation + if op = 1 then 127 else 128) else interpolation
  let lerp := interpolation >>> (8 : ℕ)
  let result := A.i32 (A.i32 (A.i32 (d + bias) * factor) + if op = 1 then A.i32 (-lerp) else lerp)
  if scale = 3 then result >>> (1 : ℕ) else result

/-- `x & 255` in two's complement. -/
def byte (x : ℤ) : ℕ := (x % 256).toNat

/-- The range of a register with or without clamping. -/
def clamp (clamps : Bool) (result : ℤ) : ℤ :=
  let lo := if clamps then 0 else -1024
  let hi := if clamps then 255 else 1023
  if result < lo then lo else if result > hi then hi else result

/-- Whether the comparison of a component passes. -/
def componentPass (a b colorA colorB op : ℕ) : Bool :=
  let mask := if op < 10 then 255 else if op < 12 then 65535 else 16777215
  let lhs := if op < 14 then colorA &&& mask else a
  let rhs := if op < 14 then colorB &&& mask else b
  if op &&& 1 ≠ 0 then lhs == rhs else decide (lhs > rhs)

/-- `mkw_tev_component`. -/
def component (a b c d : ℤ) (colorA colorB op : ℕ) (bias : ℤ) (scale : ℕ) (clamps : Bool) : ℤ :=
  let a := byte a
  let b := byte b
  let c := byte c
  let result :=
    if op < 2 then regular A a b c d op bias scale
    else A.i32 (d + if componentPass a b colorA colorB op then (c : ℤ) else 0)
  clamp clamps result

end Integers

/-! ### Floats -/

section Floats

variable (R : SingleRounding) (A : Arithmetic)

/-- `mkw_tev_wrap`. -/
def wrap (v : ℚ) : ℚ := R.round (v - R.round (⌊R.round (v * (1 / 256))⌋ * 256))

/-- `mkw_tev_wrap4`. -/
def wrap4 (v : Value ℚ) : Value ℚ := ⟨wrap R v.r, wrap R v.g, wrap R v.b, wrap R v.a⟩

/-- `mkw_tev_round`. -/
def round (v : ℚ) : ℤ := A.i32 (roundEven v)

/-- The color of a comparison in one number. -/
def packed (v : Value ℚ) (op : ℕ) : ℚ :=
  let lhs := v.r
  let lhs := if op ≥ 10 then R.round (lhs + R.round (v.g * 256)) else lhs
  if op ≥ 12 then R.round (lhs + R.round (v.b * 65536)) else lhs

/-- `mkw_tev_compare`. -/
def compare (a b : Value ℚ) (op : ℕ) : Bool :=
  let x := round A (packed R a op)
  let y := round A (packed R b op)
  if op &&& 1 ≠ 0 then x == y else decide (x > y)

/-- `mkw_tev_eval`. -/
def eval (a b c d : ℚ) (flags : ℕ) (packedCompare : Bool) : ℚ :=
  let op := flags &&& 15
  let result :=
    if op < 2 then
      let bias := A.i32 (A.i32 (((flags >>> 8) &&& 3 : ℕ) * 128) - 128)
      R.round (regular A (round A a) (round A b) (round A c) (round A d) op bias
        ((flags >>> 4) &&& 3))
    else
      let pass :=
        if op ≥ 14 then
          if op &&& 1 ≠ 0 then round A a == round A b else decide (round A a > round A b)
        else packedCompare
      R.round (d + if pass then c else 0)
  let lo := if flags &&& 64 ≠ 0 then 0 else -1024
  let hi := if flags &&& 64 ≠ 0 then 255 else 1023
  if result < lo then lo else if result > hi then hi else result

/-- `mkw_tev_stage`: the registers after the stage, and its result. -/
def stage (regs : Registers ℚ) (stage : Stage) (texture raster : Value ℚ) :
    Registers ℚ × Value ℚ :=
  let texture := swizzle texture stage.textureSwap
  let raster := swizzle raster stage.rasterSwap
  let color (shift : ℕ) := colorArg regs ((stage.colorArgs >>> shift) &&& 15) texture raster
    stage.konst
  let alpha (shift : ℕ) := alphaArg regs ((stage.alphaArgs >>> shift) &&& 7) texture raster
    stage.konst
  let ca := wrap4 R (color 0)
  let cb := wrap4 R (color 4)
  let cc := wrap4 R (color 8)
  let cd := color 12
  let aa := wrap R (alpha 0)
  let ab := wrap R (alpha 3)
  let ac := wrap R (alpha 6)
  let ad := alpha 9
  let colorCompare := compare R A ca cb (stage.colorOp &&& 15)
  let alphaCompare := compare R A ca cb (stage.alphaOp &&& 15)
  let result : Value ℚ :=
    ⟨eval R A ca.r cb.r cc.r cd.r stage.colorOp colorCompare,
      eval R A ca.g cb.g cc.g cd.g stage.colorOp colorCompare,
      eval R A ca.b cb.b cc.b cd.b stage.colorOp colorCompare,
      eval R A aa ab ac ad stage.alphaOp alphaCompare⟩
  (write regs ((stage.colorOp >>> 10) &&& 3) ((stage.alphaOp >>> 10) &&& 3) result, result)

/-- The registers before stage `n` of a program, with what is sampled for every stage. -/
def run (stages : ℕ → Stage) (texture raster : ℕ → Value ℚ) (initial : Registers ℚ) :
    ℕ → Registers ℚ
  | 0 => initial
  | n + 1 =>
    (stage R A (run stages texture raster initial n) (stages n) (texture n) (raster n)).1

end Floats

end Gx.Tev
