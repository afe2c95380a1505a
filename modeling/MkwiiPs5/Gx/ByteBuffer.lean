import Mathlib.Algebra.Order.Ring.Nat
import MkwiiPs5.Loop
import MkwiiPs5.Words

/-!
# The byte buffer

`byte_buffer.hpp`: a growing buffer that owns its block, or fills one that is mapped elsewhere. A cell
that nothing was written to has no value.
-/

namespace Gx

open Bytes (overwrite)
open Loop (bind_eq_ok)

/-- A byte of a block, if it was written. -/
abbrev Cell := Option UInt8

/-- How a call fails. -/
inductive Stop
  | aborted
  | outOfBounds
  deriving DecidableEq

/-- `ByteBuffer`; `data` is the block that `m_data` points to, and `moved` counts the bytes that
`realloc` has had to carry over. -/
structure ByteBuffer where
  data : Option (List Cell)
  length : ℕ
  capacity : ℕ
  owned : Bool
  moved : ℕ

namespace ByteBuffer

/-- Arithmetic of `size_t`. -/
def sizeT (n : ℕ) : ℕ := n % 2 ^ 64

def empty : ByteBuffer := ⟨none, 0, 0, true, 0⟩

/-- A buffer in a block that is not its own. -/
def mapped (block : List Cell) : ByteBuffer := ⟨some block, 0, block.length, false, 0⟩

/-- `memcpy` and `memset` into the block, or through a null pointer. -/
def store (b : ByteBuffer) (pos : ℕ) (cells : List Cell) : Except Stop ByteBuffer :=
  match b.data with
  | none => if cells = [] then .ok b else .error .outOfBounds
  | some block =>
    if pos + cells.length ≤ block.length then
      .ok { b with data := some (overwrite block pos cells) }
    else .error .outOfBounds

def clear (b : ByteBuffer) : ByteBuffer := { b with length := 0 }

/-- `calloc` and `malloc`; nobody looks at whether they return a block. -/
def allocate (b : ByteBuffer) (size : ℕ) (zeroed granted : Bool) : ByteBuffer :=
  { b with
    data := if granted then some (List.replicate size (if zeroed then some 0 else none)) else none
    capacity := size
    owned := true }

/-- `realloc`, if the block is too small; the block of somebody else cannot grow. -/
def grow (b : ByteBuffer) (block : List Cell) (size : ℕ) (granted : Bool) : Except Stop ByteBuffer :=
  if size > b.capacity then
    if b.owned then
      let doubled := sizeT (b.capacity * 2)
      let capacity := if size < doubled then doubled else size
      .ok { b with
        data :=
          if granted then
            some (block.take capacity ++ List.replicate (capacity - block.length) none)
          else none
        capacity := capacity
        moved := if granted then b.moved + block.length else b.moved }
    else .error .aborted
  else .ok b

/-- `resize`; `granted` says whether the allocator has the block, if one is asked for. -/
def resize (b : ByteBuffer) (size : ℕ) (zeroed granted : Bool) : Except Stop ByteBuffer :=
  if size = 0 then .ok b.clear
  else
    match b.data with
    | none => .ok (b.allocate size zeroed granted)
    | some block => do
      let grown ← b.grow block size granted
      if zeroed ∧ size > b.length then
        grown.store b.length (List.replicate (size - b.length) (some 0))
      else pure grown

def append (b : ByteBuffer) (bytes : List UInt8) (granted : Bool) : Except Stop ByteBuffer := do
  let b ← b.resize (sizeT (b.length + bytes.length)) false granted
  let b ← b.store b.length (bytes.map some)
  pure { b with length := sizeT (b.length + bytes.length) }

def appendZeroes (b : ByteBuffer) (size : ℕ) (granted : Bool) : Except Stop ByteBuffer := do
  let b ← b.resize (sizeT (b.length + size)) true granted
  pure { b with length := sizeT (b.length + size) }

def appendUninitialized (b : ByteBuffer) (size : ℕ) (granted : Bool) : Except Stop ByteBuffer := do
  let b ← b.resize (sizeT (b.length + size)) false granted
  pure { b with length := sizeT (b.length + size) }

def reserveExtra (b : ByteBuffer) (size : ℕ) (granted : Bool) : Except Stop ByteBuffer :=
  b.resize (sizeT (b.length + size)) true granted

def release (b : ByteBuffer) : ByteBuffer := ⟨none, 0, 0, true, b.moved⟩

/-- The first `n` cells of the block. -/
def held (b : ByteBuffer) (n : ℕ) : List Cell := (b.data.getD []).take n

/-- What the buffer holds. -/
def content (b : ByteBuffer) : List Cell := b.held b.length

/-! ### Operations -/

inductive Op
  | append (bytes : List UInt8)
  | appendZeroes (size : ℕ)
  | appendUninitialized (size : ℕ)
  | reserveExtra (size : ℕ)
  | clear
  | release

/-- An operation, and whether the allocator has a block for it. -/
structure Call where
  op : Op
  granted : Bool

def Call.apply (b : ByteBuffer) (c : Call) : Except Stop ByteBuffer :=
  match c.op with
  | .append bytes => b.append bytes c.granted
  | .appendZeroes size => b.appendZeroes size c.granted
  | .appendUninitialized size => b.appendUninitialized size c.granted
  | .reserveExtra size => b.reserveExtra size c.granted
  | .clear => .ok b.clear
  | .release => .ok b.release

def run (calls : List Call) (b : ByteBuffer) : Except Stop ByteBuffer := calls.foldlM Call.apply b

/-- The bytes that an operation asks for. -/
def Op.asked : Op → ℕ
  | .append bytes => bytes.length
  | .appendZeroes size => size
  | .appendUninitialized size => size
  | .reserveExtra size => size
  | .clear => 0
  | .release => 0

/-- The size that is asked for can be counted, and the allocator has a block where one is needed. -/
structure Call.Served (b : ByteBuffer) (c : Call) : Prop where
  counted : b.length + c.op.asked < 2 ^ 64
  granted : b.capacity < b.length + c.op.asked → b.owned = true → c.granted = true

/-- Every call of a run is served, where the run comes to it. -/
def Served : List Call → ByteBuffer → Prop
  | [], _ => True
  | c :: calls, b => c.Served b ∧ ∀ b', c.apply b = .ok b' → Served calls b'

/-! ### Well-formed buffers -/

/-- The block has the bytes of the capacity, and the content is in it. -/
structure Valid (b : ByteBuffer) : Prop where
  length_le : b.length ≤ b.capacity
  block : (b.data.getD []).length = b.capacity
  /-- A buffer without a block can be given one of its own. -/
  owned : b.data = none → b.owned = true

variable {b b' : ByteBuffer} {size : ℕ} {zeroed granted : Bool}

section Overwrite

variable {α : Type*} {data bytes : List α} {pos n : ℕ}

end Overwrite

/-! ### One operation -/

/-- The bytes that some calls ask for. -/
def asked (calls : List Call) : ℕ := (calls.map fun c => c.op.asked).sum

theorem run_cons (c : Call) (calls : List Call) (b : ByteBuffer) :
    run (c :: calls) b = c.apply b >>= run calls := List.foldlM_cons

theorem run_append (before after : List Call) (b : ByteBuffer) :
    run (before ++ after) b = run before b >>= run after := by
  simp [run, List.foldlM_append]
  rfl

/-- The calls of a part of a run are served. -/
theorem Served.of_append {before after : List Call} (h : Served (before ++ after) b) :
    Served before b ∧ ∀ b', run before b = .ok b' → Served after b' := by
  induction before generalizing b with
  | nil => exact ⟨trivial, fun b' hb' => Except.ok.inj hb' ▸ h⟩
  | cons c before ih =>
    obtain ⟨hc, hrest⟩ := h
    refine ⟨⟨hc, fun r hr => (ih (hrest r hr)).1⟩, fun b' hb' => ?_⟩
    obtain ⟨r, hr, hb'⟩ := bind_eq_ok.1 ((run_cons _ _ b).symm.trans hb')
    exact (ih (hrest r hr)).2 b' hb'

end ByteBuffer

end Gx
