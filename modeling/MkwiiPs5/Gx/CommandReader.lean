import MkwiiPs5.Bytes
import MkwiiPs5.Loop

/-!
# Reading commands

`command_reader.hpp`. Every read is checked against the bytes that are there, so that a read
past their end shows as a fault of its own kind.
-/

namespace Gx

open Bytes (slice number)

/-- A read outside the memory it is made in, or an exception of the code. -/
inductive Fault
  | outOfBounds
  | thrown (what : String)
  deriving DecidableEq

/-- The `n` bytes from `pos` on as a number. -/
def readUint (data : List UInt8) (pos n : ℕ) (bigEndian : Bool) : Except Fault ℕ :=
  if pos + n ≤ data.length then .ok (number (!bigEndian) (slice data pos n))
  else .error .outOfBounds

def readU8 (data : List UInt8) (pos : ℕ) : Except Fault ℕ := readUint data pos 1 false

/-- `read_u16`. -/
def readU16 (data : List UInt8) (pos : ℕ) (bigEndian : Bool) : Except Fault ℕ :=
  readUint data pos 2 bigEndian

/-- `read_u32`. -/
def readU32 (data : List UInt8) (pos : ℕ) (bigEndian : Bool) : Except Fault ℕ :=
  readUint data pos 4 bigEndian

/-- `read_u64`. -/
def readU64 (data : List UInt8) (pos : ℕ) (bigEndian : Bool) : Except Fault ℕ :=
  readUint data pos 8 bigEndian

/-- `count` words in a row. -/
def readWords (data : List UInt8) (pos count : ℕ) (bigEndian : Bool) : Except Fault (List ℕ) :=
  (List.range count).mapM fun i => readU32 data (pos + 4 * i) bigEndian

/-- `has_bytes`. -/
def hasBytes (pos size needed : ℕ) : Bool := pos ≤ size && needed ≤ size - pos

theorem hasBytes_iff {pos size needed : ℕ} (h : pos ≤ size) :
    hasBytes pos size needed = true ↔ pos + needed ≤ size := by
  simp only [hasBytes, Bool.and_eq_true, decide_eq_true_eq]
  omega

theorem readUint_ok {data : List UInt8} {pos n : ℕ} (h : pos + n ≤ data.length)
    (bigEndian : Bool) :
    readUint data pos n bigEndian = .ok (number (!bigEndian) (slice data pos n)) :=
  if_pos h

theorem readUint_lt {data : List UInt8} {pos n x : ℕ} {bigEndian : Bool}
    (h : readUint data pos n bigEndian = .ok x) : pos + n ≤ data.length ∧ x < 256 ^ n := by
  rw [readUint] at h
  split at h
  · rename_i hle
    rw [← Except.ok.inj h]
    refine ⟨hle, ?_⟩
    have := Bytes.number_lt (!bigEndian) (slice data pos n)
    rwa [Bytes.length_slice hle] at this
  · cases h

/-- The words of a burst that is there. -/
theorem readWords_ok {data : List UInt8} {pos count : ℕ} (h : pos + 4 * count ≤ data.length)
    (bigEndian : Bool) : readWords data pos count bigEndian =
      .ok ((List.range count).map fun i => number (!bigEndian) (slice data (pos + 4 * i) 4)) := by
  apply Loop.mapM_ok
  intro i hi
  apply readUint_ok
  have := List.mem_range.1 hi
  omega

end Gx
