import Mathlib.Algebra.Order.Ring.Nat
import Mathlib.Data.Nat.Notation
import Mathlib.Tactic.Ring

/-!
# Numbers in bytes

Slices of a byte string, and the number that some bytes stand for in either order.
-/

namespace Bytes

/-- There are numbers below four. -/
instance neZero_four : NeZero 4 := ⟨by decide⟩

/-- The `n` bytes from `pos` on. -/
def slice {α : Type*} (data : List α) (pos n : ℕ) : List α := (data.drop pos).take n

theorem length_slice {α : Type*} {data : List α} {pos n : ℕ} (h : pos + n ≤ data.length) :
    (slice data pos n).length = n := by
  rw [slice, List.length_take, List.length_drop]
  omega

theorem getElem?_slice {α : Type*} {data : List α} {pos n i : ℕ} (hi : i < n) :
    (slice data pos n)[i]? = data[pos + i]? := by
  rw [slice, List.getElem?_take_of_lt hi, List.getElem?_drop]

/-- A slice of a slice. -/
theorem slice_slice {α : Type*} {data : List α} {a n b m : ℕ} (h : b + m ≤ n) :
    slice (slice data a n) b m = slice data (a + b) m := by
  rw [slice, slice, slice, List.drop_take, List.take_take, List.drop_drop]
  congr 1
  omega

theorem slice_add {α : Type*} (data : List α) (pos m n : ℕ) :
    slice data pos (m + n) = slice data pos m ++ slice data (pos + m) n := by
  rw [slice, slice, slice, List.take_add, List.drop_drop]

theorem slice_append_left {α : Type*} {data rest : List α} {pos n : ℕ}
    (h : pos + n ≤ data.length) : slice (data ++ rest) pos n = slice data pos n := by
  rw [slice, slice, List.drop_append_of_le_length (by omega), List.take_append_of_le_length]
  rw [List.length_drop]
  omega

theorem slice_append_right {α : Type*} {data rest : List α} {pos n : ℕ} :
    slice (data ++ rest) (data.length + pos) n = slice rest pos n := by
  rw [slice, slice, List.drop_length_add_append]

/-- The same `n` elements at two places. -/
structure Same {α : Type*} (data : List α) (pos : ℕ) (data' : List α) (pos' n : ℕ) : Prop where
  left : pos + n ≤ data.length
  right : pos' + n ≤ data'.length
  same : ∀ i < n, data[pos + i]? = data'[pos' + i]?

theorem Same.part {α : Type*} {data data' : List α} {pos pos' n k m : ℕ}
    (h : Same data pos data' pos' n) (hkm : k + m ≤ n) :
    Same data (pos + k) data' (pos' + k) m := by
  obtain ⟨hleft, hright, hsame⟩ := h
  refine ⟨by omega, by omega, fun i hi => ?_⟩
  rw [Nat.add_assoc, Nat.add_assoc, hsame (k + i) (by omega)]

theorem Same.slice_eq {α : Type*} {data data' : List α} {pos pos' n : ℕ}
    (h : Same data pos data' pos' n) : slice data pos n = slice data' pos' n := by
  refine List.ext_getElem? fun i => ?_
  by_cases hi : i < n
  · rw [getElem?_slice hi, getElem?_slice hi, h.same i hi]
  · rw [List.getElem?_eq_none, List.getElem?_eq_none]
    · rw [length_slice h.right]
      omega
    · rw [length_slice h.left]
      omega

/-- The number of some bytes, the lowest first. -/
def ofLittle : List UInt8 → ℕ
  | [] => 0
  | b :: bytes => b.toNat + 256 * ofLittle bytes

theorem ofLittle_append_singleton (bytes : List UInt8) (b : UInt8) :
    ofLittle (bytes ++ [b]) = ofLittle bytes + 256 ^ bytes.length * b.toNat := by
  induction bytes with
  | nil => simp [ofLittle]
  | cons c bytes ih =>
    rw [List.cons_append, ofLittle, ofLittle, ih, List.length_cons, Nat.pow_succ]
    ring

/-- The number of some bytes in little or big endian order. -/
def number (little : Bool) (bytes : List UInt8) : ℕ :=
  ofLittle (if little then bytes else bytes.reverse)

theorem ofLittle_lt (bytes : List UInt8) : ofLittle bytes < 256 ^ bytes.length := by
  induction bytes with
  | nil => exact Nat.one_pos
  | cons b bytes ih =>
    have hb := b.toNat_lt
    rw [ofLittle, List.length_cons, Nat.pow_succ]
    omega

theorem number_lt (little : Bool) (bytes : List UInt8) :
    number little bytes < 256 ^ bytes.length := by
  rw [number]
  cases little
  · exact bytes.length_reverse ▸ ofLittle_lt bytes.reverse
  · exact ofLittle_lt bytes

@[simp]
theorem number_singleton (little : Bool) (b : UInt8) : number little [b] = b.toNat := by
  cases little <;> rfl

/-! ### Writing -/

/-- `bytes` are copied over the ones from `pos` on. -/
def overwrite {α : Type*} (data : List α) (pos : ℕ) (bytes : List α) : List α :=
  data.take pos ++ bytes ++ data.drop (pos + bytes.length)

section Overwrite

variable {α : Type*} {data bytes : List α} {pos i : ℕ}

@[simp]
theorem length_overwrite (h : pos + bytes.length ≤ data.length) :
    (overwrite data pos bytes).length = data.length := by
  rw [overwrite, List.length_append, List.length_append, List.length_take, List.length_drop]
  omega

/-- A byte that is written. -/
theorem getElem?_overwrite_of_lt (h : pos + bytes.length ≤ data.length) (hi : i < bytes.length) :
    (overwrite data pos bytes)[pos + i]? = bytes[i]? := by
  have htake : (data.take pos).length = pos := by
    rw [List.length_take]
    omega
  rw [overwrite, List.getElem?_append_left (by rw [List.length_append]; omega),
    List.getElem?_append_right (by omega), htake, Nat.add_sub_cancel_left]

/-- A byte that is not. -/
theorem getElem?_overwrite_of_not (h : pos + bytes.length ≤ data.length)
    (hi : i < pos ∨ pos + bytes.length ≤ i) : (overwrite data pos bytes)[i]? = data[i]? := by
  have htake : (data.take pos).length = pos := by
    rw [List.length_take]
    omega
  rcases hi with hi | hi
  · rw [overwrite, List.append_assoc, List.getElem?_append_left (by omega),
      List.getElem?_take_of_lt hi]
  · rw [overwrite, List.getElem?_append_right (by rw [List.length_append]; omega),
      List.length_append, htake, List.getElem?_drop]
    congr 1
    omega

theorem overwrite_front (front rest bytes : List α) :
    overwrite (front ++ rest) front.length bytes = front ++ bytes ++ rest.drop bytes.length := by
  rw [overwrite, List.take_left, List.drop_length_add_append]

/-- One run of bytes after another. -/
theorem overwrite_overwrite {more : List α} (h : pos + bytes.length ≤ data.length) :
    overwrite (overwrite data pos bytes) (pos + bytes.length) more =
      overwrite data pos (bytes ++ more) := by
  have hfront : pos + bytes.length = (data.take pos ++ bytes).length := by
    rw [List.length_append, List.length_take]
    omega
  calc overwrite (overwrite data pos bytes) (pos + bytes.length) more
      = data.take pos ++ bytes ++ more ++ (data.drop (pos + bytes.length)).drop more.length := by
        have hput := overwrite_front (data.take pos ++ bytes) (data.drop (pos + bytes.length)) more
        rwa [← hfront] at hput
    _ = overwrite data pos (bytes ++ more) := by
        rw [overwrite, List.drop_drop, List.length_append, List.append_assoc (data.take pos),
          Nat.add_assoc]

/-- Slices of the same bytes. -/
theorem slice_congr {data' : List α} {n : ℕ} (h : ∀ i < n, data'[pos + i]? = data[pos + i]?) :
    slice data' pos n = slice data pos n := by
  refine List.ext_getElem? fun i => ?_
  by_cases hi : i < n
  · rw [getElem?_slice hi, getElem?_slice hi, h i hi]
  · have hnone : ∀ data : List α, (slice data pos n)[i]? = none := fun data => by
      rw [slice, List.getElem?_eq_none]
      rw [List.length_take]
      omega
    rw [hnone, hnone]

/-- What is written can be read. -/
theorem slice_overwrite (h : pos + bytes.length ≤ data.length) :
    slice (overwrite data pos bytes) pos bytes.length = bytes := by
  refine List.ext_getElem? fun i => ?_
  by_cases hi : i < bytes.length
  · rw [getElem?_slice hi, getElem?_overwrite_of_lt h hi]
  · rw [List.getElem?_eq_none, List.getElem?_eq_none (by omega)]
    rw [slice, List.length_take]
    omega

end Overwrite

end Bytes
