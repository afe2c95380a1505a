import Mathlib.Algebra.Order.Ring.Nat
import MkwiiPs5.Bytes

/-!
# Numbers written into bytes

The bytes of a number, the digits of the number that a run of bytes is, and what a buffer still
holds after parts of it have been written.
-/

namespace Bytes

/-- The lowest `n` bytes of a number, the lowest first. -/
def toLittle : ℕ → ℕ → List UInt8
  | 0, _ => []
  | n + 1, x => UInt8.ofNat x :: toLittle n (x / 256)

@[simp]
theorem length_toLittle (n x : ℕ) : (toLittle n x).length = n := by
  induction n generalizing x with
  | zero => rfl
  | succ n ih => rw [toLittle, List.length_cons, ih]

theorem ofLittle_toLittle (n x : ℕ) : ofLittle (toLittle n x) = x % 256 ^ n := by
  induction n generalizing x with
  | zero => rw [toLittle, ofLittle, Nat.pow_zero, Nat.mod_one]
  | succ n ih =>
    have hbyte : (UInt8.ofNat x).toNat = x % 256 := UInt8.toNat_ofNat'
    rw [toLittle, ofLittle, ih, hbyte, Nat.pow_succ', Nat.mod_mul]

/-! ### Digits -/

theorem ofLittle_drop (bytes : List UInt8) (n : ℕ) :
    ofLittle (bytes.drop n) = ofLittle bytes / 256 ^ n := by
  induction n generalizing bytes with
  | zero => rw [List.drop_zero, Nat.pow_zero, Nat.div_one]
  | succ n ih =>
    cases bytes with
    | nil => simp [ofLittle]
    | cons b bytes =>
      have hb := b.toNat_lt
      rw [List.drop_succ_cons, ih, ofLittle, Nat.pow_succ', ← Nat.div_div_eq_div_mul]
      congr 1
      omega

theorem ofLittle_take (bytes : List UInt8) (n : ℕ) :
    ofLittle (bytes.take n) = ofLittle bytes % 256 ^ n := by
  induction n generalizing bytes with
  | zero => rw [List.take_zero, ofLittle, Nat.pow_zero, Nat.mod_one]
  | succ n ih =>
    cases bytes with
    | nil => simp [ofLittle]
    | cons b bytes =>
      have hb := b.toNat_lt
      have hlow : (b.toNat + 256 * ofLittle bytes) % 256 = b.toNat := by omega
      have hhigh : (b.toNat + 256 * ofLittle bytes) / 256 = ofLittle bytes := by omega
      rw [List.take_succ_cons, ofLittle, ofLittle, ih, Nat.pow_succ', Nat.mod_mul, hlow, hhigh]

/-- A slice is some digits of the number. -/
theorem ofLittle_slice (bytes : List UInt8) (pos n : ℕ) :
    ofLittle (slice bytes pos n) = ofLittle bytes / 256 ^ pos % 256 ^ n := by
  rw [slice, ofLittle_take, ofLittle_drop]

/-! ### What a buffer holds -/

section Holds

variable {α : Type*} {data data' data'' bytes rest : List α} {pos lo hi lo' hi' : ℕ}

/-- `bytes` are in `data` from `pos` on. -/
def Holds (data : List α) (pos : ℕ) (bytes : List α) : Prop :=
  pos + bytes.length ≤ data.length ∧ slice data pos bytes.length = bytes

theorem Holds.getElem? (h : Holds data pos bytes) {i : ℕ} (hi : i < bytes.length) :
    data[pos + i]? = bytes[i]? := by
  rw [← getElem?_slice hi, h.2]

theorem holds_of_getElem? (hle : pos + bytes.length ≤ data.length)
    (h : ∀ i < bytes.length, data[pos + i]? = bytes[i]?) : Holds data pos bytes := by
  refine ⟨hle, List.ext_getElem? fun i => ?_⟩
  by_cases hi : i < bytes.length
  · rw [getElem?_slice hi, h i hi]
  · rw [List.getElem?_eq_none, List.getElem?_eq_none (Nat.le_of_not_lt hi)]
    rw [length_slice hle]
    exact Nat.le_of_not_lt hi

/-- A part of the bytes that are held. -/
theorem Holds.slice_eq (h : Holds data pos bytes) {k n : ℕ} (hkn : k + n ≤ bytes.length) :
    slice data (pos + k) n = slice bytes k n := by
  rw [← slice_slice hkn, h.2]

theorem holds_append (data bytes rest : List α) :
    Holds (data ++ bytes ++ rest) data.length bytes := by
  refine holds_of_getElem? (by simp only [List.length_append]; omega) fun i hi => ?_
  rw [List.append_assoc, List.getElem?_append_right (by omega), Nat.add_sub_cancel_left,
    List.getElem?_append_left hi]

/-- All that was in the buffer outside of an interval still is. -/
def Kept (data data' : List α) (lo hi : ℕ) : Prop :=
  data.length ≤ data'.length ∧ ∀ i < data.length, i < lo ∨ hi ≤ i → data'[i]? = data[i]?

theorem Kept.mono (h : Kept data data' lo hi) (hlo : lo' ≤ lo) (hhi : hi ≤ hi') :
    Kept data data' lo' hi' :=
  ⟨h.1, fun i hi hnot => h.2 i hi (by omega)⟩

theorem Kept.trans (h : Kept data data' lo hi) (h' : Kept data' data'' lo hi) :
    Kept data data'' lo hi :=
  ⟨h.1.trans h'.1, fun i hi hnot => (h'.2 i (hi.trans_le h.1) hnot).trans (h.2 i hi hnot)⟩

theorem kept_append (data rest : List α) (lo hi : ℕ) : Kept data (data ++ rest) lo hi :=
  ⟨by rw [List.length_append]; omega, fun _ hi _ => List.getElem?_append_left hi⟩

theorem kept_overwrite (h : pos + bytes.length ≤ data.length) :
    Kept data (overwrite data pos bytes) pos (pos + bytes.length) :=
  ⟨(length_overwrite h).ge, fun _ _ hnot => getElem?_overwrite_of_not h hnot⟩

theorem holds_overwrite (h : pos + bytes.length ≤ data.length) :
    Holds (overwrite data pos bytes) pos bytes :=
  ⟨(length_overwrite h).symm ▸ h, slice_overwrite h⟩

theorem Holds.kept (h : Holds data pos bytes) (hkept : Kept data data' lo hi)
    (hapart : pos + bytes.length ≤ lo ∨ hi ≤ pos) : Holds data' pos bytes := by
  refine holds_of_getElem? (h.1.trans hkept.1) fun i hi => ?_
  have hlt := h.1
  rw [hkept.2 (pos + i) (by omega) (by omega), h.getElem? hi]

end Holds

/-! ### Words -/

/-- The four bytes from `pos` on are those of a number, the lowest first. -/
def Word (data : List UInt8) (pos x : ℕ) : Prop := Holds data pos (toLittle 4 x)

theorem Word.kept {data data' : List UInt8} {pos x lo hi : ℕ} (h : Word data pos x)
    (hkept : Kept data data' lo hi) (hapart : pos + 4 ≤ lo ∨ hi ≤ pos) : Word data' pos x :=
  Holds.kept h hkept (by rwa [length_toLittle])

end Bytes
