import MkwiiPs5.Gx.TevInteger

/-!
# The integer reference of TEV programs

The reference reads the selectors one by one, applies the integer component to them, and writes the
color and then the alpha of the result. A packed program leaves what the reference leaves.
-/

namespace Gx.Tev

open BitField (field field_or field_shiftLeft field_shiftLeft_above field_shiftLeft_below
  field_eq_zero)
open Loop (bind_eq_ok)

/-! ### The reference -/

/-- `GXTevColorArg`. -/
def colorInput (regs : Registers ℤ) (tex ras konst : Value ℤ) : ℕ → Value ℤ
  | 0 => regs.prev
  | 1 => splat regs.prev.a
  | 2 => regs.reg0
  | 3 => splat regs.reg0.a
  | 4 => regs.reg1
  | 5 => splat regs.reg1.a
  | 6 => regs.reg2
  | 7 => splat regs.reg2.a
  | 8 => tex
  | 9 => splat tex.a
  | 10 => ras
  | 11 => splat ras.a
  | 12 => splat 255
  | 14 => konst
  | _ => splat 0

/-- `GXTevAlphaArg`. -/
def alphaInput (regs : Registers ℤ) (tex ras konst : Value ℤ) : ℕ → ℤ
  | 0 => regs.prev.a
  | 1 => regs.reg0.a
  | 2 => regs.reg1.a
  | 3 => regs.reg2.a
  | 4 => tex.a
  | 5 => ras.a
  | 6 => konst.a
  | _ => 0

/-- The selectors of a stage, one by one. -/
structure Selectors where
  color : TevPass × TevOp
  alpha : TevPass × TevOp
  textureSwap : Value ℕ
  rasterSwap : Value ℕ

/-- The channels in the order of a swap table. -/
def swapped {α : Type*} (v : Value α) (swap : Value ℕ) : Value α :=
  ⟨lane v swap.r, lane v swap.g, lane v swap.b, lane v swap.a⟩

def Value.setColor {α : Type*} (old value : Value α) : Value α := { value with a := old.a }
def Value.setAlpha {α : Type*} (old : Value α) (alpha : α) : Value α := { old with a := alpha }

/-- A change of the register that a stage writes. -/
def Registers.modify {α : Type*} (regs : Registers α) (dst : ℕ) (f : Value α → Value α) :
    Registers α :=
  match dst with
  | 0 => { regs with prev := f regs.prev }
  | 1 => { regs with reg0 := f regs.reg0 }
  | 2 => { regs with reg1 := f regs.reg1 }
  | _ => { regs with reg2 := f regs.reg2 }

section Reference

variable (A : Arithmetic)

/-- The component of an operation; comparisons of colors compare the inputs `ca` and `cb`. -/
def combine (op : TevOp) (ca cb : Value ℤ) (a b c d : ℤ) : ℤ :=
  component A a b c d (packBytes ca) (packBytes cb) op.op (biasValue op) op.scale op.clamp

/-- One stage of the reference. -/
def referenceStage (s : Selectors) (konst tex ras : Value ℤ) (regs : Registers ℤ) : Registers ℤ :=
  let tex := swapped tex s.textureSwap
  let ras := swapped ras s.rasterSwap
  let color := colorInput regs tex ras konst
  let alpha := alphaInput regs tex ras konst
  let a := color s.color.1.a
  let b := color s.color.1.b
  let c := color s.color.1.c
  let d := color s.color.1.d
  let rgb : Value ℤ :=
    ⟨combine A s.color.2 a b a.r b.r c.r d.r, combine A s.color.2 a b a.g b.g c.g d.g,
      combine A s.color.2 a b a.b b.b c.b d.b, 0⟩
  let result := combine A s.alpha.2 a b (alpha s.alpha.1.a) (alpha s.alpha.1.b)
    (alpha s.alpha.1.c) (alpha s.alpha.1.d)
  (regs.modify s.color.2.outReg fun old => old.setColor rgb).modify s.alpha.2.outReg fun old =>
    old.setAlpha result

/-- The registers of the reference before stage `n`. -/
def referenceRun (selectors : ℕ → Selectors) (konst tex ras : ℕ → Value ℤ)
    (initial : Registers ℤ) : ℕ → Registers ℤ
  | 0 => initial
  | n + 1 => referenceStage A (selectors n) (konst n) (tex n) (ras n)
      (referenceRun selectors konst tex ras initial n)

end Reference

/-! ### Selectors -/

/-- The selectors of a stage of the register state. -/
def selectors (d : Decoded) (i : ℕ) : Selectors :=
  let table (sel : ℕ) : Value ℕ :=
    ⟨(d.tevStages.swapRedGreen sel).1, (d.tevStages.swapRedGreen sel).2,
      (d.tevStages.swapBlueAlpha sel).1, (d.tevStages.swapBlueAlpha sel).2⟩
  { color := ((d.tevStages.color i).1, normalOp (d.tevStages.color i).2)
    alpha := ((d.tevStages.alpha i).pass, normalOp (d.tevStages.alpha i).op)
    textureSwap := table (d.tevStages.alpha i).swapTex
    rasterSwap := table (d.tevStages.alpha i).swapRas }

def unpackPass (word size : ℕ) : TevPass :=
  ⟨field word size 0, field word size size, field word size (2 * size), field word size (3 * size)⟩

def unpackOp (word : ℕ) : TevOp where
  op := field word 4 0
  bias := if field word 2 8 = 2 then GX_TB_ADDHALF else if field word 2 8 = 0 then GX_TB_SUBHALF
    else GX_TB_ZERO
  scale := field word 2 4
  outReg := field word 2 10
  clamp := word &&& 64 != 0

def unpackSwap (word : ℕ) : Value ℕ :=
  ⟨field word 2 0, field word 2 2, field word 2 4, field word 2 6⟩

/-- The selectors of a packed stage. -/
def unpack (s : Stage) : Selectors where
  color := (unpackPass s.colorArgs 4, unpackOp s.colorOp)
  alpha := (unpackPass s.alphaArgs 3, unpackOp s.alphaOp)
  textureSwap := unpackSwap s.textureSwap
  rasterSwap := unpackSwap s.rasterSwap

/-- The arguments of a pass fit in `size` bits. -/
structure PassFits (size : ℕ) (p : TevPass) : Prop where
  a : p.a < 2 ^ size
  b : p.b < 2 ^ size
  c : p.c < 2 ^ size
  d : p.d < 2 ^ size

/-- What packing a pass into a word promises. -/
theorem unpackPass_pack {size : ℕ} {p : TevPass} (h : PassFits size p) :
    unpackPass (p.a ||| p.b <<< size ||| p.c <<< (2 * size) ||| p.d <<< (3 * size)) size = p := by
  have hfirst : ∀ i, field p.a size (i * size) = if i = 0 then p.a else 0 := by
    intro i
    split
    · next hi => rw [hi, Nat.zero_mul, field, Nat.shiftRight_zero, Nat.mod_eq_of_lt h.a]
    · next hi =>
      have hle : 2 ^ size ≤ 2 ^ (i * size) :=
        Nat.pow_le_pow_right (by decide) (Nat.le_mul_of_pos_left size (Nat.pos_of_ne_zero hi))
      exact field_eq_zero (h.a.trans_le hle)
  -- the other arguments, each in its place
  have hother : ∀ {x : ℕ} (j i : ℕ), x < 2 ^ size →
      field (x <<< (j * size)) size (i * size) = if i = j then x else 0 := by
    intro x j i hx
    rcases Nat.lt_trichotomy i j with hlt | rfl | hlt
    · rw [if_neg hlt.ne]
      apply field_shiftLeft_above
      rw [← Nat.succ_mul]
      exact Nat.mul_le_mul_right size hlt
    · rw [if_pos rfl, field_shiftLeft hx]
    · rw [if_neg hlt.ne']
      apply field_shiftLeft_below hx
      rw [← Nat.succ_mul]
      exact Nat.mul_le_mul_right size hlt
  have hfields : ∀ i, field (p.a ||| p.b <<< size ||| p.c <<< (2 * size) ||| p.d <<< (3 * size))
      size (i * size) = (if i = 0 then p.a else 0) ||| (if i = 1 then p.b else 0) |||
        (if i = 2 then p.c else 0) ||| if i = 3 then p.d else 0 := by
    intro i
    have hb := hother 1 i h.b
    rw [Nat.one_mul] at hb
    rw [field_or, field_or, field_or, hfirst, hb, hother 2 i h.c, hother 3 i h.d]
  have ha := hfields 0
  have hb := hfields 1
  have hc := hfields 2
  have hd := hfields 3
  simp only [Nat.zero_mul, Nat.one_mul, if_true, reduceIte, Nat.or_zero, Nat.zero_or,
    OfNat.ofNat_ne_zero, OfNat.zero_ne_ofNat, OfNat.ofNat_ne_one, OfNat.one_ne_ofNat,
    one_ne_zero, zero_ne_one, Nat.reduceEqDiff] at ha hb hc hd
  rw [unpackPass, ha, hb, hc, hd]

/-- An operation is unpacked as it was. -/
theorem unpackOp_eq {word : ℕ} {v : TevOp} (h : OpFields word v) : unpackOp word = v := by
  obtain ⟨hop, hscale, hclamp, hbias, hout, -, hle, hplain⟩ := h
  rw [and_fifteen] at hop
  rw [and_three] at hscale hbias hout
  have hbias' : (if field word 2 8 = 2 then GX_TB_ADDHALF else if field word 2 8 = 0 then
      GX_TB_SUBHALF else GX_TB_ZERO) = v.bias := by
    have hfield : field word 2 8 = shiftedBias v := hbias
    have hbias : (if 8 ≤ v.op then 0 else v.bias) = v.bias := by
      split
      · next hop => exact (hplain hop).symm
      · rfl
    rw [hfield, shiftedBias, hbias, GX_TB_ADDHALF, GX_TB_SUBHALF, GX_TB_ZERO]
    obtain h | h | h : v.bias = 0 ∨ v.bias = 1 ∨ v.bias = 2 := by omega
    all_goals rw [h]; rfl
  have hclamp' : (word &&& 64 != 0) = v.clamp := by
    rw [Bool.eq_iff_iff, bne_iff_ne, hclamp]
  rw [unpackOp, hbias', hclamp']
  change (⟨word >>> 0 % 16, v.bias, word >>> 4 % 4, word >>> 10 % 4, v.clamp⟩ : TevOp) = v
  rw [hscale, hout, Nat.shiftRight_zero, hop]

/-- What packing a swap table entry promises. -/
structure SwapFields (word : ℕ) (swap : Value ℕ) : Prop where
  r : word &&& 3 = swap.r
  g : (word >>> 2) &&& 3 = swap.g
  b : (word >>> 4) &&& 3 = swap.b
  a : (word >>> 6) &&& 3 = swap.a

theorem packSwizzle_fields {red green blue alpha word : ℕ}
    (h : packSwizzle red green blue alpha = .ok word) :
    SwapFields word ⟨red, green, blue, alpha⟩ := by
  obtain ⟨_, hvalid, h⟩ := bind_eq_ok.1 h
  obtain rfl := Except.ok.inj h
  rw [validate, require_eq_ok] at hvalid
  simp only [Bool.and_eq_true, decide_eq_true_eq, and_assoc] at hvalid
  obtain ⟨hr, hg, hb, ha⟩ := hvalid
  have hgreen := or_shiftLeft (show red < 2 ^ 2 by omega) green
  have hblue := or_shiftLeft (show red + green * 2 ^ 2 < 2 ^ 4 by omega) blue
  rw [hgreen, hblue, or_shiftLeft (by omega)]
  constructor <;> rw [and_three] <;> simp only [Nat.shiftRight_eq_div_pow] <;> omega

theorem SwapFields.swizzle_eq {α : Type*} {word : ℕ} {swap : Value ℕ} (h : SwapFields word swap)
    (v : Value α) : swizzle v word = swapped v swap := by
  rw [swizzle, swapped, h.r, h.g, h.b, h.a]

theorem SwapFields.unpack_eq {word : ℕ} {swap : Value ℕ} (h : SwapFields word swap) :
    unpackSwap word = swap := by
  obtain ⟨hr, hg, hb, ha⟩ := h
  rw [and_three] at hr hg hb ha
  exact Value.ext hr hg hb ha

/-- A packed stage with its selectors. -/
structure StageFields (s : Stage) (sel : Selectors) : Prop where
  colorPass : unpackPass s.colorArgs 4 = sel.color.1
  alphaPass : unpackPass s.alphaArgs 3 = sel.alpha.1
  colorOp : OpFields s.colorOp sel.color.2
  alphaOp : OpFields s.alphaOp sel.alpha.2
  textureSwap : SwapFields s.textureSwap sel.textureSwap
  rasterSwap : SwapFields s.rasterSwap sel.rasterSwap

theorem StageFields.unpack_eq {s : Stage} {sel : Selectors} (h : StageFields s sel) :
    unpack s = sel := by
  rw [unpack, h.colorPass, h.alphaPass, unpackOp_eq h.colorOp, unpackOp_eq h.alphaOp,
    h.textureSwap.unpack_eq, h.rasterSwap.unpack_eq]

/-- A stage of a program that is built has the selectors of the register state. -/
theorem buildStage_fields {R : SingleRounding} {d : Decoded} {konst : ℕ → Value ℚ} {i : ℕ}
    {s : Stage} (h : buildStage R d konst i = .ok s) :
    StageFields s (selectors d i) ∧ stageKonst R d konst i = .ok s.konst := by
  obtain ⟨_, hargs, h⟩ := bind_eq_ok.1 h
  obtain ⟨colorOp, hcolorOp, h⟩ := bind_eq_ok.1 h
  obtain ⟨alphaOp, halphaOp, h⟩ := bind_eq_ok.1 h
  obtain ⟨_, -, h⟩ := bind_eq_ok.1 h
  obtain ⟨textureSwap, htexture, h⟩ := bind_eq_ok.1 h
  obtain ⟨rasterSwap, hraster, h⟩ := bind_eq_ok.1 h
  obtain ⟨_, -, h⟩ := bind_eq_ok.1 h
  obtain ⟨_, -, h⟩ := bind_eq_ok.1 h
  obtain ⟨value, hvalue, h⟩ := bind_eq_ok.1 h
  obtain rfl := Except.ok.inj h
  rw [validate, require_eq_ok] at hargs
  simp only [Bool.and_eq_true, decide_eq_true_eq, and_assoc] at hargs
  obtain ⟨hca, haa, hcb, hab, hcc, hac, hcd, had⟩ := hargs
  refine ⟨⟨?_, ?_, operation_fields hcolorOp, operation_fields halphaOp,
    packSwizzle_fields htexture, packSwizzle_fields hraster⟩, hvalue⟩
  · exact unpackPass_pack ⟨by omega, by omega, by omega, by omega⟩
  · exact unpackPass_pack ⟨by omega, by omega, by omega, by omega⟩

end Gx.Tev
