import Mathlib.Data.Set.Card
import MkwiiPs5.History
import MkwiiPs5.LinkedList
import MkwiiPs5.Memory.NativeMemory

/-!
# Arena handles

`guest_memory_ps5.cpp` over its own records: arenas, backings and aliases that name each other by
address, with a linked list of aliases for each arena. The native calls answer as they like.
-/

namespace MkwPs5Memory.Handles

open LinkedList (Chain Link)

/-! ### The records -/

/-- Where a record is kept: an address that is not null. -/
abbrev Handle := Fin (2 ^ 64 - 1)

structure Arena where
  base : ℕ
  size : ℕ
  aliases : Option Handle

structure Backing where
  physical : ℤ
  size : ℕ
  host : ℕ
  aliases : ℕ

structure Alias where
  address : ℕ
  size : ℕ
  arena : Option Handle
  backing : Option Handle
  next : Option Handle

def Arena.none : Arena := ⟨0, 0, .none⟩
def Backing.none : Backing := ⟨-1, 0, 0, 0⟩
def Alias.none : Alias := ⟨0, 0, .none, .none, .none⟩

structure Records where
  arenas : Handle → Arena
  backings : Handle → Backing
  aliases : Handle → Alias

def Records.initial : Records := ⟨fun _ => .none, fun _ => .none, fun _ => .none⟩

/-- The pointers of the lists. -/
def Records.next (s : Records) (a : Handle) : Option Handle := (s.aliases a).next

/-! ### Native calls -/

/-- What a record keeps of the process's memory. -/
inductive Resource
  | reservation (arena : Handle)
  | allocation (backing : Handle)
  | host (backing : Handle)
  | view (handle : Handle)
deriving DecidableEq

inductive Call
  | reserve (address size : ℕ)
  | directMemorySize
  | allocate (limit size : ℕ)
  | map (size : ℕ) (physical : ℤ)
  | mapFixed (address size : ℕ) (physical : ℤ)
  | replace (address size : ℕ)
  | unmap (address size : ℕ)
  | release (physical : ℤ) (size : ℕ)
deriving DecidableEq

/-- What a call returns, and what is left where it writes an address or an offset. -/
structure Answer where
  rc : ℤ
  size : ℕ
  address : ℕ
  physical : ℤ
deriving DecidableEq

/-- A call, and the resource that it is about. -/
structure Event where
  resource : Option Resource
  call : Call
  answer : Answer
deriving DecidableEq

/-- The records, and the native calls so far. -/
structure World extends Records where
  log : List Event

namespace World

variable (w : World)

def setArena (A : Handle) (arena : Arena) : World :=
  { w with arenas := Function.update w.arenas A arena }

def setBacking (B : Handle) (backing : Backing) : World :=
  { w with backings := Function.update w.backings B backing }

def setAlias (a : Handle) (handle : Alias) : World :=
  { w with aliases := Function.update w.aliases a handle }

/-- `*link = value`, for a place in the list of an arena. -/
def setLink (A : Handle) (value : Option Handle) : Link Handle → World
  | .head => w.setArena A { w.arenas A with aliases := value }
  | .after a => w.setAlias a { w.aliases a with next := value }

/-- The last lines of `MapAlias`: an alias is put in front of the list and counted. -/
def push (a A B : Handle) (handle : Alias) : World :=
  let w := w.setAlias a handle
  let w := w.setArena A { w.arenas A with aliases := some a }
  w.setBacking B { w.backings B with aliases := ((w.backings B).aliases + 1) % 2 ^ 64 }

/-- The last lines of `UnmapAlias`: an alias is counted off and emptied. -/
def drop (a B : Handle) : World :=
  let w := w.setBacking B
    { w.backings B with aliases := ((w.backings B).aliases + (2 ^ 64 - 1)) % 2 ^ 64 }
  w.setAlias a .none

end World

/-! ### The functions -/

variable (env : ℕ → Answer) (w : World)

/-- A native call, with the answer that its number gives it. -/
def World.call (r : Option Resource) (c : Call) : Answer × World :=
  (env w.log.length, { w with log := ⟨r, c, env w.log.length⟩ :: w.log })

def reserve (A : Handle) : ℤ × World :=
  if (w.arenas A).base ≠ 0 then (Busy, w)
  else
    let (a, w) := w.call env (some (.reservation A)) (.reserve GuestBase GuestSpaceSize)
    if a.rc ≠ 0 then (a.rc, w)
    else if a.address ≠ GuestBase then
      (Invalid, (w.call env none (.unmap a.address GuestSpaceSize)).2)
    else (0, w.setArena A { w.arenas A with base := a.address, size := GuestSpaceSize })

/-- `if (backing.host)` with its body. -/
def unmapHost (B : Handle) : ℤ × World :=
  if (w.backings B).host = 0 then (0, w)
  else
    let (a, w) := w.call env (some (.host B)) (.unmap (w.backings B).host (w.backings B).size)
    if a.rc ≠ 0 then (a.rc, w) else (0, w.setBacking B { w.backings B with host := 0 })

/-- `if (backing.physical >= 0)` with its body. -/
def releasePhysical (B : Handle) : ℤ × World :=
  if (w.backings B).physical < 0 then (0, w)
  else
    let (a, w) := w.call env (some (.allocation B))
      (.release (w.backings B).physical (w.backings B).size)
    if a.rc ≠ 0 then (a.rc, w)
    else (0, w.setBacking B { w.backings B with physical := -1, size := 0 })

def closeBacking (B : Handle) : ℤ × World :=
  if (w.backings B).aliases ≠ 0 then (Busy, w)
  else
    let (rc, w) := unmapHost env w B
    if rc ≠ 0 then (rc, w) else releasePhysical env w B

def openBacking (B : Handle) (bytes : ℕ) : ℤ × World :=
  if 0 ≤ (w.backings B).physical ∨ (w.backings B).host ≠ 0 then (Busy, w)
  else if bytes = 0 ∨ bytes > 2 ^ 64 - PageSize then (Invalid, w)
  else
    let rounded := roundUp bytes PageSize
    let (pool, w) := w.call env none .directMemorySize
    if rounded > pool.size ∨ pool.size > 2 ^ 63 - 1 then (Invalid, w)
    else
      let (a, w) := w.call env (some (.allocation B)) (.allocate pool.size rounded)
      if a.rc ≠ 0 then (a.rc, w)
      else
        let w := w.setBacking B { w.backings B with physical := a.physical, size := rounded }
        let (m, w) := w.call env (some (.host B)) (.map rounded a.physical)
        -- the call writes to the record, also when it fails
        let w := w.setBacking B { w.backings B with host := m.address }
        if m.rc ≠ 0 then (m.rc, (closeBacking env w B).2) else (0, w)

/-- More turns than there are records. -/
def fuel : ℕ := 2 ^ 64

/-- The test of an alias in the loop of `MapAlias`. -/
def meetsOther (start finish : ℕ) (other : Alias) : Bool :=
  start < (other.address + other.size) % 2 ^ 64 ∧ other.address < finish

def mapAlias (a A : Handle) (guestOffset : ℕ) (B : Handle) (backingOffset bytes : ℕ) :
    Option (ℤ × World) :=
  if (w.aliases a).address ≠ 0 then some (Busy, w)
  else if (w.arenas A).base = 0 ∨ (w.backings B).host = 0 ∨ bytes = 0 ∨
      guestOffset % PageSize ≠ 0 ∨ backingOffset % PageSize ≠ 0 ∨ bytes % PageSize ≠ 0 ∨
      guestOffset > (w.arenas A).size ∨ bytes > (w.arenas A).size - guestOffset ∨
      backingOffset > (w.backings B).size ∨ bytes > (w.backings B).size - backingOffset then
    some (Invalid, w)
  else
    let start := ((w.arenas A).base + guestOffset) % 2 ^ 64
    let finish := (start + bytes) % 2 ^ 64
    match LinkedList.any w.next (fun other => meetsOther start finish (w.aliases other)) fuel
        (w.arenas A).aliases with
    | none => none
    | some true => some (Busy, w)
    | some false =>
      let (m, w) := w.call env (some (.view a))
        (.mapFixed start bytes ((w.backings B).physical + backingOffset))
      if m.rc ≠ 0 then some (m.rc, w)
      else if m.address ≠ start then
        some (Invalid, (w.call env none (.unmap m.address bytes)).2)
      else some (0, w.push a A B ⟨m.address, bytes, some A, some B, (w.arenas A).aliases⟩)

def unmapAlias (a : Handle) : Option (ℤ × World) :=
  if (w.aliases a).address = 0 then some (0, w)
  else
    let (m, w) := w.call env (some (.view a)) (.replace (w.aliases a).address (w.aliases a).size)
    if m.rc ≠ 0 then some (m.rc, w)
    else
      match (w.aliases a).arena, (w.aliases a).backing with
      | some A, some B =>
        (LinkedList.seek (w.arenas A).aliases w.next a fuel .head).map fun link =>
          let w := match link.get (w.arenas A).aliases w.next with
            | none => w
            | some _ => w.setLink A (w.aliases a).next link
          (0, w.drop a B)
      -- a null pointer would be followed
      | _, _ => none

def closeArena (A : Handle) : ℤ × World :=
  if (w.arenas A).aliases ≠ none then (Busy, w)
  else if (w.arenas A).base = 0 then (0, w)
  else
    let (a, w) := w.call env (some (.reservation A))
      (.unmap (w.arenas A).base (w.arenas A).size)
    if a.rc ≠ 0 then (a.rc, w) else (0, w.setArena A { w.arenas A with base := 0, size := 0 })

/-! ### Runs -/

inductive Op
  | reserve (arena : Handle)
  | openBacking (backing : Handle) (bytes : ℕ)
  | mapAlias (handle arena : Handle) (guestOffset : ℕ) (backing : Handle)
      (backingOffset bytes : ℕ)
  | unmapAlias (handle : Handle)
  | closeBacking (backing : Handle)
  | closeArena (arena : Handle)

/-- What a call returns and leaves: nothing where it does not come to its end. -/
def step : Op → Option (ℤ × World)
  | .reserve A => some (reserve env w A)
  | .openBacking B bytes => some (openBacking env w B bytes)
  | .mapAlias a A guestOffset B backingOffset bytes =>
    mapAlias env w a A guestOffset B backingOffset bytes
  | .unmapAlias a => unmapAlias env w a
  | .closeBacking B => some (closeBacking env w B)
  | .closeArena A => some (closeArena env w A)

def run : World → List Op → Option World
  | w, [] => some w
  | w, op :: ops =>
    match step env w op with
    | none => none
    | some (_, w) => run w ops

end MkwPs5Memory.Handles
