import Mathlib.Data.List.Basic
import MkwiiPs5.Memory.NativeMemory

/-!
# The flat guest memory

`guest_flat_memory_ps5.cpp`: the regions of the guest are sections of backing memory, each mapped at
its guest address, where regions of one bank share a section.
-/

namespace GuestFlat

open MkwPs5Memory (Alias Arena Kernel Native roundUp)

abbrev NativeBacking := MkwPs5Memory.Backing

def Granularity : ℕ := 65536
def kGuestSpaceSize : ℕ := 0x100000000

inductive Backing
  | Owned
  | Mem1
  | Mem2
  | unknown (value : ℕ)
deriving DecidableEq

structure RegionRequest where
  base : ℕ
  size : ℕ
  backing : Backing
deriving DecidableEq

structure Section where
  kind : Backing
  ownedBase : ℕ
  bytes : ℕ
  memory : NativeBacking

structure Mapping where
  handle : Alias
  sectionIndex : ℕ
  offset : ℕ

structure State where
  arena : Arena
  regions : List RegionRequest
  sections : ℕ → Section
  mappings : ℕ → Mapping
  sectionCount : ℕ
  active : Bool

/-- The kernel, and a state that is being built or taken down. -/
structure Machine where
  kernel : Kernel
  state : State

inductive Failure
  | runtimeError (what : String)
  | native (stage : String) (rc : ℤ)

inductive Outcome
  | returned
  | thrown (failure : Failure)
  | terminated

def rounded (bytes : ℕ) : ℕ := roundUp bytes Granularity

def offset (region : RegionRequest) : ℕ :=
  match region.backing with
  | .Mem1 => region.base &&& 0x01ffffff
  | .Mem2 => region.base &&& 0x0fffffff
  | _ => 0

/-! ### Validation -/

def validateRegion (before : List RegionRequest) (r : RegionRequest) : Except String Unit :=
  if r.size = 0 then .ok ()
  else if r.backing ≠ .Owned ∧ r.backing ≠ .Mem1 ∧ r.backing ≠ .Mem2 then
    .error "PS5 guest memory: unknown backing kind"
  else if r.base % Granularity ≠ 0 ∨ r.size > kGuestSpaceSize - r.base then
    .error "PS5 guest memory: unaligned or overflowing region"
  else if r.base + rounded r.size > kGuestSpaceSize then
    .error "PS5 guest memory: rounded region exceeds guest space"
  else if before.any fun other => other.size ≠ 0 ∧ r.base < other.base + rounded other.size ∧
      other.base < r.base + rounded r.size then
    .error "PS5 guest memory: regions overlap after rounding"
  else .ok ()

/-- The loop over the regions after those in `before`. -/
def validateFrom (before : List RegionRequest) : List RegionRequest → Except String Unit
  | [] => .ok ()
  | r :: rest => do
    validateRegion before r
    validateFrom (before ++ [r]) rest

def validate (regions : List RegionRequest) : Except String Unit := validateFrom [] regions

/-! ### Sections and mappings -/

/-- The section that a region uses, or the number of sections if there is none yet. -/
def findSection (st : State) (region : RegionRequest) : ℕ :=
  ((List.range st.sectionCount).find? fun index =>
    (st.sections index).kind = region.backing ∧
      (region.backing ≠ .Owned ∨ (st.sections index).ownedBase = region.base)).getD st.sectionCount

/-- The section of a region, a new one if there is none yet. -/
def foundSection (st : State) (region : RegionRequest) : Section :=
  if findSection st region = st.sectionCount then ⟨region.backing, region.base, 0, .none⟩
  else st.sections (findSection st region)

def planRegion (st : State) (region : RegionRequest × ℕ) : State :=
  if region.1.size = 0 then st
  else
    let index := findSection st region.1
    let found := foundSection st region.1
    let last := offset region.1 + rounded region.1.size
    { st with
      sectionCount := if index = st.sectionCount then st.sectionCount + 1 else st.sectionCount
      sections := Function.update st.sections index
        { found with bytes := if last > found.bytes then last else found.bytes }
      mappings := Function.update st.mappings region.2
        { st.mappings region.2 with sectionIndex := index, offset := offset region.1 } }

def State.empty (regions : List RegionRequest) : State where
  arena := .none
  regions := regions
  sections _ := ⟨.Owned, 0, 0, .none⟩
  mappings i := ⟨.none i, 0, 0⟩
  sectionCount := 0
  active := false

def plan (regions : List RegionRequest) : State :=
  regions.zipIdx.foldl planRegion (.empty regions)

/-! ### Taking down -/

variable (N : Native)

/-- Replaces the native memory of a section. -/
def State.setMemory (st : State) (index : ℕ) (memory : NativeBacking) : State :=
  { st with
    sections := Function.update st.sections index { st.sections index with memory := memory } }

/-- Replaces the alias of a mapping. -/
def State.setHandle (st : State) (i : ℕ) (handle : Alias) : State :=
  { st with mappings := Function.update st.mappings i { st.mappings i with handle := handle } }

def unmapRegion (s : Bool × Machine) (i : ℕ) : Bool × Machine :=
  let st := s.2.state
  let mapping := st.mappings i
  let (rc, kernel, handle, arena, memory) := MkwPs5Memory.unmapAlias N s.2.kernel mapping.handle
    st.arena (st.sections mapping.sectionIndex).memory
  (s.1 || rc != 0,
    ⟨kernel, { (st.setHandle i handle).setMemory mapping.sectionIndex memory with arena := arena }⟩)

def closeSection (s : Bool × Machine) (index : ℕ) : Bool × Machine :=
  let st := s.2.state
  let (rc, kernel, memory) := MkwPs5Memory.closeBacking N s.2.kernel (st.sections index).memory
  (s.1 || rc != 0, ⟨kernel, st.setMemory index memory⟩)

/-- The destructor of the state: whether a release failed, and the kernel after it. -/
def destroy (m : Machine) : Bool × Kernel :=
  let s := (List.range m.state.regions.length).reverse.foldl (unmapRegion N) (false, m)
  let s := (List.range m.state.sectionCount).reverse.foldl (closeSection N) s
  let (rc, kernel, _) := MkwPs5Memory.closeArena N s.2.kernel s.2.state.arena
  (s.1 || rc != 0, kernel)

/-! ### Building up -/

/-- A loop whose body may fail with a return code. -/
def run {α : Type} (f : Machine → α → ℤ × Machine) : List α → Machine → ℤ × Machine
  | [], m => (0, m)
  | a :: l, m =>
    let (rc, m) := f m a
    if rc ≠ 0 then (rc, m) else run f l m

/-- Clears the memory of a backing. -/
def clear (k : Kernel) (memory : NativeBacking) : Kernel :=
  match memory.physical with
  | none => k
  | some physical => { k with ram := Overlay.fill k.ram physical memory.size fun _ => 0 }

def openSection (m : Machine) (index : ℕ) : ℤ × Machine :=
  let found := m.state.sections index
  let (rc, kernel, memory) :=
    MkwPs5Memory.openBacking N m.kernel found.memory (rounded found.bytes)
  (rc, ⟨if rc = 0 then clear kernel memory else kernel, m.state.setMemory index memory⟩)

def mapRegion (m : Machine) (region : RegionRequest × ℕ) : ℤ × Machine :=
  if region.1.size = 0 then (0, m)
  else
    let st := m.state
    let mapping := st.mappings region.2
    let (rc, kernel, handle, arena, memory) := MkwPs5Memory.mapAlias N m.kernel mapping.handle
      st.arena region.1.base (st.sections mapping.sectionIndex).memory mapping.offset
      (rounded region.1.size)
    (rc, ⟨kernel, { (st.setHandle region.2 handle).setMemory mapping.sectionIndex memory with
      arena := arena }⟩)

/-- Leaves by an exception, which destroys the candidate. -/
def abandon (m : Machine) (failure : Failure) : Outcome × Kernel × Option State :=
  let (failed, kernel) := destroy N m
  (if failed then .terminated else .thrown failure, kernel, none)

/-- The part of `Initialize` after the plan. -/
def build (k : Kernel) (candidate : State) : Outcome × Kernel × Option State :=
  let (rc, kernel, arena) := MkwPs5Memory.reserve N k candidate.arena
  let m : Machine := ⟨kernel, { candidate with arena := arena }⟩
  if rc ≠ 0 then abandon N m (.native "reservation" rc)
  else
    let (rc, m) := run (openSection N) (List.range candidate.sectionCount) m
    if rc ≠ 0 then abandon N m (.native "backing allocation" rc)
    else
      let (rc, m) := run (mapRegion N) candidate.regions.zipIdx m
      if rc ≠ 0 then abandon N m (.native "guest alias" rc)
      else (.returned, m.kernel, some { m.state with active := true })

/-- `Initialize`, where `current` is the state of an earlier call. -/
def initializeRegions (k : Kernel) (current : Option State) (regions : List RegionRequest) :
    Outcome × Kernel × Option State :=
  match current with
  | some st =>
    if st.regions ≠ regions then
      (.thrown (.runtimeError
        "PS5 guest memory: changing the layout requires restarting the process"), k, some st)
    else
      (.returned, (List.range st.sectionCount).foldl
        (fun k index => clear k (st.sections index).memory) k, some st)
  | none =>
    match validate regions with
    | .error what => (.thrown (.runtimeError what), k, none)
    | .ok () => build N k (plan regions)

def isActive (current : Option State) : Bool := current.any (·.active)

/-- The first region with an address. -/
def findRegion (regions : List RegionRequest) (address : ℕ) : Option ℕ :=
  regions.findIdx? fun region => region.base ≤ address ∧ address - region.base < region.size

def State.base (st : State) (i : ℕ) : ℕ := ((st.regions[i]?).map (·.base)).getD 0

def hostPointer (current : Option State) (address : ℕ) : Option ℕ :=
  match current with
  | none => none
  | some st =>
    if st.active then
      (findRegion st.regions address).map fun i =>
        (st.sections (st.mappings i).sectionIndex).memory.host.getD 0 + (st.mappings i).offset +
          (address - st.base i)
    else none

end GuestFlat
