import Mathlib.Data.Nat.Notation

/-!
# Rectangles and formats of copies

What the blitter, the plans of copies and the store of copies share: the rectangles of `agc_blit.h`
and the formats of `gx_copy_color.h`.
-/

namespace Gpu

structure BlitRect where
  x : ℕ
  y : ℕ
  width : ℕ
  height : ℕ
deriving DecidableEq

def BlitRect.Contains (r : BlitRect) (x y : ℕ) : Prop :=
  r.x ≤ x ∧ x < r.x + r.width ∧ r.y ≤ y ∧ y < r.y + r.height

instance (r : BlitRect) (x y : ℕ) : Decidable (r.Contains x y) :=
  inferInstanceAs (Decidable (_ ∧ _ ∧ _ ∧ _))

def mkwCopyColorFormat (format : ℕ) : Bool :=
  format ≤ 6 || format == 0x20 || format == 0x22 || format == 0x23 ||
    (format ≥ 0x27 && format ≤ 0x2c)

def mkwCopyDepthFormat (format : ℕ) : Bool := format == 0x13 || format == 0x16

end Gpu
