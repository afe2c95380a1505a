import MkwiiPs5.Overlay

/-!
# Native memory

`guest_memory_ps5.cpp`: the reservation of the guest's address space, the backings of direct memory
and their aliases in the reservation. The kernel may fail at any call; it keeps what it handed out.
-/

namespace MkwPs5Memory

open Overlay (fill)

def PageSize : ℕ := 16384
def GuestSpaceSize : ℕ := 0x100000000
def GuestBase : ℕ := 0x2000000000
def Invalid : ℤ := -1
def Busy : ℤ := -2

/-! ### The kernel -/

/-- What an address of the process is used for. -/
inductive Use
  | free
  | reserved
  | mapped (physical : ℕ)
deriving DecidableEq

/-- The address space, the bytes of direct memory that are in use, their contents, and how many
calls there were and how many of those that acquire something failed. -/
structure Kernel where
  vm : ℕ → Use
  allocated : ℕ → Bool
  ram : ℕ → UInt8
  calls : ℕ
  failures : ℕ

/-- A return code with the address or offset that the call hands out. -/
structure Answer where
  rc : ℤ
  value : ℕ

/-- The answers of the kernel. What it hands out is not in use, except that a fixed mapping may
replace what is at its address. -/
structure Native where
  poolSize : Kernel → ℕ
  reserve : Kernel → (address size : ℕ) → Answer
  allocate : Kernel → (size : ℕ) → Answer
  map : Kernel → (size physical : ℕ) → Answer
  mapFixed : Kernel → (address size physical : ℕ) → Answer
  unmap : Kernel → (address size : ℕ) → ℤ
  release : Kernel → (physical size : ℕ) → ℤ
  replace : Kernel → (address size : ℕ) → ℤ
  reserve_free : ∀ k address size, (reserve k address size).rc = 0 →
    ∀ i < size, k.vm ((reserve k address size).value + i) = .free
  allocate_free : ∀ k size, (allocate k size).rc = 0 →
    ∀ i < size, k.allocated ((allocate k size).value + i) = false
  map_free : ∀ k size physical, (map k size physical).rc = 0 →
    ∀ i < size, k.vm ((map k size physical).value + i) = .free
  mapFixed_free : ∀ k address size physical, (mapFixed k address size physical).rc = 0 →
    (mapFixed k address size physical).value ≠ address →
    ∀ i < size, k.vm ((mapFixed k address size physical).value + i) = .free

/-- The calls that release something succeed. -/
structure Native.Releases (N : Native) : Prop where
  unmap : ∀ k address size, N.unmap k address size = 0
  release : ∀ k physical size, N.release k physical size = 0
  replace : ∀ k address size, N.replace k address size = 0

namespace Kernel

variable (N : Native) (k : Kernel)

/-- After a call that acquires nothing. -/
def fail : Kernel := { k with calls := k.calls + 1, failures := k.failures + 1 }

/-- After a call that changes what a range of addresses is used for. -/
def use (address size : ℕ) (f : ℕ → Use) : Kernel :=
  { k with vm := fill k.vm address size f, calls := k.calls + 1 }

/-- After a call that changes whether a range of direct memory is in use. -/
def take (physical size : ℕ) (used : Bool) : Kernel :=
  { k with allocated := fill k.allocated physical size fun _ => used, calls := k.calls + 1 }

/-- `sceKernelReserveVirtualRange`, where nothing may be replaced. -/
def reserve (address size : ℕ) : Answer × Kernel :=
  let a := N.reserve k address size
  (a, if a.rc = 0 then k.use a.value size fun _ => .reserved else k.fail)

/-- `sceKernelAllocateDirectMemory`. -/
def allocate (size : ℕ) : Answer × Kernel :=
  let a := N.allocate k size
  (a, if a.rc = 0 then k.take a.value size true else k.fail)

/-- `sceKernelMapDirectMemory` at an address that the kernel chooses. -/
def map (size physical : ℕ) : Answer × Kernel :=
  let a := N.map k size physical
  (a, if a.rc = 0 then k.use a.value size fun i => .mapped (physical + i) else k.fail)

/-- `sceKernelMapDirectMemory` at a fixed address. -/
def mapFixed (address size physical : ℕ) : Answer × Kernel :=
  let a := N.mapFixed k address size physical
  (a, if a.rc = 0 then k.use a.value size fun i => .mapped (physical + i) else k.fail)

/-- `sceKernelMunmap`. -/
def unmap (address size : ℕ) : ℤ × Kernel :=
  let rc := N.unmap k address size
  (rc, if rc = 0 then k.use address size fun _ => .free else { k with calls := k.calls + 1 })

/-- `sceKernelReleaseDirectMemory`. -/
def release (physical size : ℕ) : ℤ × Kernel :=
  let rc := N.release k physical size
  (rc, if rc = 0 then k.take physical size false else { k with calls := k.calls + 1 })

/-- `sceKernelReserveVirtualRange` at a fixed address, in place of what is there. -/
def replace (address size : ℕ) : ℤ × Kernel :=
  let rc := N.replace k address size
  (rc, if rc = 0 then k.use address size fun _ => .reserved else { k with calls := k.calls + 1 })

variable {k : Kernel}

theorem use_of_mem {address size p : ℕ} {f : ℕ → Use} (h : address ≤ p ∧ p < address + size) :
    (k.use address size f).vm p = f (p - address) := Overlay.fill_of_mem h

theorem use_of_not_mem {address size p : ℕ} {f : ℕ → Use}
    (h : ¬ (address ≤ p ∧ p < address + size)) : (k.use address size f).vm p = k.vm p :=
  Overlay.fill_of_not_mem h

theorem take_of_mem {physical size p : ℕ} {used : Bool}
    (h : physical ≤ p ∧ p < physical + size) : (k.take physical size used).allocated p = used :=
  Overlay.fill_of_mem (f := fun _ => used) h

theorem take_of_not_mem {physical size p : ℕ} {used : Bool}
    (h : ¬ (physical ≤ p ∧ p < physical + size)) :
    (k.take physical size used).allocated p = k.allocated p :=
  Overlay.fill_of_not_mem (f := fun _ => used) h

end Kernel

/-! ### Arena, backings and aliases -/

/-- An alias, told from others by the record it is kept in. -/
structure Alias where
  id : ℕ
  address : Option ℕ
  size : ℕ
deriving DecidableEq

structure Arena where
  base : Option ℕ
  size : ℕ
  aliases : List Alias

structure Backing where
  physical : Option ℕ
  size : ℕ
  host : Option ℕ
  aliases : ℕ

def Arena.none : Arena := ⟨.none, 0, []⟩
def Backing.none : Backing := ⟨.none, 0, .none, 0⟩
def Alias.none (id : ℕ) : Alias := ⟨id, .none, 0⟩

/-- The next multiple of a power of two. -/
def roundUp (bytes granularity : ℕ) : ℕ := (bytes + granularity - 1) / granularity * granularity

variable (N : Native)

def reserve (k : Kernel) (arena : Arena) : ℤ × Kernel × Arena :=
  if arena.base.isSome then (Busy, k, arena)
  else
    let (a, k) := k.reserve N GuestBase GuestSpaceSize
    if a.rc ≠ 0 then (a.rc, k, arena)
    else if a.value ≠ GuestBase then (Invalid, (k.unmap N a.value GuestSpaceSize).2, arena)
    else (0, k, { arena with base := some a.value, size := GuestSpaceSize })

def closeBacking (k : Kernel) (backing : Backing) : ℤ × Kernel × Backing :=
  if backing.aliases ≠ 0 then (Busy, k, backing)
  else
    let (rc, k, backing) : ℤ × Kernel × Backing := match backing.host with
      | none => (0, k, backing)
      | some host =>
        let (rc, k) := k.unmap N host backing.size
        (rc, k, if rc = 0 then { backing with host := none } else backing)
    if rc ≠ 0 then (rc, k, backing)
    else match backing.physical with
      | none => (0, k, backing)
      | some physical =>
        let (rc, k) := k.release N physical backing.size
        (rc, k, if rc = 0 then { backing with physical := none, size := 0 } else backing)

def openBacking (k : Kernel) (backing : Backing) (bytes : ℕ) : ℤ × Kernel × Backing :=
  if backing.physical.isSome ∨ backing.host.isSome then (Busy, k, backing)
  else if bytes = 0 ∨ bytes > 2 ^ 64 - PageSize then (Invalid, k, backing)
  else
    let rounded := roundUp bytes PageSize
    let poolSize := N.poolSize k
    if rounded > poolSize ∨ poolSize > 2 ^ 63 - 1 then (Invalid, k, backing)
    else
      let (a, k) := k.allocate N rounded
      if a.rc ≠ 0 then (a.rc, k, backing)
      else
        let backing := { backing with physical := some a.value, size := rounded }
        let (m, k) := k.map N rounded a.value
        if m.rc ≠ 0 then (m.rc, (closeBacking N k backing).2)
        else (0, k, { backing with host := some m.value })

/-- Two ranges share an address. -/
def overlap (start size otherStart otherSize : ℕ) : Bool :=
  start < otherStart + otherSize ∧ otherStart < start + size

def mapAlias (k : Kernel) (handle : Alias) (arena : Arena) (guestOffset : ℕ) (backing : Backing)
    (backingOffset bytes : ℕ) : ℤ × Kernel × Alias × Arena × Backing :=
  if handle.address.isSome then (Busy, k, handle, arena, backing)
  else if arena.base = none ∨ backing.host = none ∨ bytes = 0 ∨ guestOffset % PageSize ≠ 0 ∨
      backingOffset % PageSize ≠ 0 ∨ bytes % PageSize ≠ 0 ∨ guestOffset > arena.size ∨
      bytes > arena.size - guestOffset ∨ backingOffset > backing.size ∨
      bytes > backing.size - backingOffset then
    (Invalid, k, handle, arena, backing)
  else
    let start := arena.base.getD 0 + guestOffset
    if arena.aliases.any fun other => overlap start bytes (other.address.getD 0) other.size then
      (Busy, k, handle, arena, backing)
    else
      let (a, k) := k.mapFixed N start bytes (backing.physical.getD 0 + backingOffset)
      if a.rc ≠ 0 then (a.rc, k, handle, arena, backing)
      else if a.value ≠ start then (Invalid, (k.unmap N a.value bytes).2, handle, arena, backing)
      else
        let handle := { handle with address := some a.value, size := bytes }
        (0, k, handle, { arena with aliases := handle :: arena.aliases },
          { backing with aliases := backing.aliases + 1 })

def unmapAlias (k : Kernel) (handle : Alias) (arena : Arena) (backing : Backing) :
    ℤ × Kernel × Alias × Arena × Backing :=
  match handle.address with
  | none => (0, k, handle, arena, backing)
  | some address =>
    let (rc, k) := k.replace N address handle.size
    if rc ≠ 0 then (rc, k, handle, arena, backing)
    else (0, k, .none handle.id, { arena with aliases := arena.aliases.eraseP (·.id == handle.id) },
      { backing with aliases := backing.aliases - 1 })

def closeArena (k : Kernel) (arena : Arena) : ℤ × Kernel × Arena :=
  if arena.aliases ≠ [] then (Busy, k, arena)
  else match arena.base with
    | none => (0, k, arena)
    | some base =>
      let (rc, k) := k.unmap N base arena.size
      (rc, k, if rc = 0 then { arena with base := none, size := 0 } else arena)

/-! ### What the functions do -/

variable {N}

/-- The address space and the direct memory are used as before. -/
structure SameUse (k k' : Kernel) : Prop where
  vm : k'.vm = k.vm
  allocated : k'.allocated = k.allocated

theorem SameUse.refl (k : Kernel) : SameUse k k := ⟨rfl, rfl⟩

theorem le_roundUp {bytes granularity : ℕ} (h : 0 < granularity) :
    bytes ≤ roundUp bytes granularity := by
  have hdiv := Nat.div_add_mod (bytes + granularity - 1) granularity
  have hmod := Nat.mod_lt (bytes + granularity - 1) h
  rw [Nat.mul_comm] at hdiv
  rw [roundUp]
  omega

theorem unmap_eq (hN : N.Releases) (k : Kernel) (address size : ℕ) :
    k.unmap N address size = (0, k.use address size fun _ => .free) := by
  rw [Kernel.unmap, hN.unmap, if_pos rfl]

theorem release_eq (hN : N.Releases) (k : Kernel) (physical size : ℕ) :
    k.release N physical size = (0, k.take physical size false) := by
  rw [Kernel.release, hN.release, if_pos rfl]

theorem replace_eq (hN : N.Releases) (k : Kernel) (address size : ℕ) :
    k.replace N address size = (0, k.use address size fun _ => .reserved) := by
  rw [Kernel.replace, hN.replace, if_pos rfl]

theorem reserve_cases (N : Native) (k : Kernel) (address size : ℕ) :
    (∃ a, a.rc ≠ 0 ∧ k.reserve N address size = (a, k.fail)) ∨
    ∃ value, (∀ i < size, k.vm (value + i) = .free) ∧
      k.reserve N address size = (⟨0, value⟩, k.use value size fun _ => .reserved) := by
  have hfree := N.reserve_free k address size
  rw [Kernel.reserve]
  generalize N.reserve k address size = a at hfree ⊢
  obtain ⟨rc, value⟩ := a
  by_cases hrc : rc = 0
  · subst hrc
    exact Or.inr ⟨value, hfree rfl, by rw [if_pos rfl]⟩
  · exact Or.inl ⟨_, hrc, by rw [if_neg hrc]⟩

theorem allocate_cases (N : Native) (k : Kernel) (size : ℕ) :
    (∃ a, a.rc ≠ 0 ∧ k.allocate N size = (a, k.fail)) ∨
    ∃ physical, (∀ i < size, k.allocated (physical + i) = false) ∧
      k.allocate N size = (⟨0, physical⟩, k.take physical size true) := by
  have hfree := N.allocate_free k size
  rw [Kernel.allocate]
  generalize N.allocate k size = a at hfree ⊢
  obtain ⟨rc, value⟩ := a
  by_cases hrc : rc = 0
  · subst hrc
    exact Or.inr ⟨value, hfree rfl, by rw [if_pos rfl]⟩
  · exact Or.inl ⟨_, hrc, by rw [if_neg hrc]⟩

theorem map_cases (N : Native) (k : Kernel) (size physical : ℕ) :
    (∃ a, a.rc ≠ 0 ∧ k.map N size physical = (a, k.fail)) ∨
    ∃ host, (∀ i < size, k.vm (host + i) = .free) ∧
      k.map N size physical = (⟨0, host⟩, k.use host size fun i => .mapped (physical + i)) := by
  have hfree := N.map_free k size physical
  rw [Kernel.map]
  generalize N.map k size physical = a at hfree ⊢
  obtain ⟨rc, value⟩ := a
  by_cases hrc : rc = 0
  · subst hrc
    exact Or.inr ⟨value, hfree rfl, by rw [if_pos rfl]⟩
  · exact Or.inl ⟨_, hrc, by rw [if_neg hrc]⟩

theorem mapFixed_cases (N : Native) (k : Kernel) (address size physical : ℕ) :
    (∃ a, a.rc ≠ 0 ∧ k.mapFixed N address size physical = (a, k.fail)) ∨
    ∃ value, (value ≠ address → ∀ i < size, k.vm (value + i) = .free) ∧
      k.mapFixed N address size physical =
        (⟨0, value⟩, k.use value size fun i => .mapped (physical + i)) := by
  have hfree := N.mapFixed_free k address size physical
  rw [Kernel.mapFixed]
  generalize N.mapFixed k address size physical = a at hfree ⊢
  obtain ⟨rc, value⟩ := a
  by_cases hrc : rc = 0
  · subst hrc
    exact Or.inr ⟨value, hfree rfl, by rw [if_pos rfl]⟩
  · exact Or.inl ⟨_, hrc, by rw [if_neg hrc]⟩

theorem use_restore {k : Kernel} {address size : ℕ} (h : ∀ i < size, k.vm (address + i) = .free)
    (f : ℕ → Use) : SameUse k ((k.use address size f).use address size fun _ => .free) :=
  ⟨Overlay.fill_restore h, rfl⟩

theorem reserve_spec (hN : N.Releases) (k : Kernel) :
    (∃ rc k', reserve N k .none = (rc, k', .none) ∧ rc ≠ 0 ∧ SameUse k k') ∨
    reserve N k .none = (0, k.use GuestBase GuestSpaceSize fun _ => .reserved,
        ⟨some GuestBase, GuestSpaceSize, []⟩) ∧
      ∀ i < GuestSpaceSize, k.vm (GuestBase + i) = .free := by
  have hnone : Arena.none.base.isSome = false := rfl
  rcases reserve_cases N k GuestBase GuestSpaceSize with ⟨a, hrc, h⟩ | ⟨value, hfree, h⟩
  · left
    refine ⟨a.rc, k.fail, ?_, hrc, rfl, rfl⟩
    simp only [reserve, hnone, Bool.false_eq_true, if_false, h, if_pos hrc]
  · by_cases hplace : value = GuestBase
    · right
      subst hplace
      refine ⟨?_, hfree⟩
      simp only [reserve, hnone, Bool.false_eq_true, if_false, h, ne_eq, not_true_eq_false]
      rfl
    · left
      refine ⟨Invalid, _, ?_, by decide, use_restore hfree fun _ => .reserved⟩
      simp only [reserve, hnone, Bool.false_eq_true, if_false, h, ne_eq, not_true_eq_false,
        not_false_eq_true, hplace, unmap_eq hN, if_true]

/-- A backing that is open, for the memory at an offset and its mapping. -/
def Backing.at (physical size host : ℕ) : Backing := ⟨some physical, size, some host, 0⟩

theorem closeBacking_none (N : Native) (k : Kernel) : closeBacking N k .none = (0, k, .none) := rfl

theorem closeBacking_spec (hN : N.Releases) (k : Kernel) (physical size host : ℕ) :
    closeBacking N k (.at physical size host) =
      (0, (k.use host size fun _ => .free).take physical size false, .none) := by
  simp only [closeBacking, Backing.at, unmap_eq hN, release_eq hN, ne_eq, not_true_eq_false,
    if_false, if_true]
  rfl

theorem openBacking_spec (hN : N.Releases) (k : Kernel) (bytes : ℕ) :
    (∃ rc k', openBacking N k .none bytes = (rc, k', .none) ∧ rc ≠ 0 ∧ SameUse k k') ∨
    ∃ physical host, openBacking N k .none bytes =
        (0, (k.take physical (roundUp bytes PageSize) true).use host (roundUp bytes PageSize)
          fun i => .mapped (physical + i), .at physical (roundUp bytes PageSize) host) ∧
      (∀ i < roundUp bytes PageSize, k.allocated (physical + i) = false) ∧
      (∀ i < roundUp bytes PageSize, k.vm (host + i) = .free) ∧ 0 < bytes := by
  have hopen : ¬ (Backing.none.physical.isSome = true ∨ Backing.none.host.isSome = true) := by
    decide
  by_cases hbytes : bytes = 0 ∨ bytes > 2 ^ 64 - PageSize
  · left
    refine ⟨Invalid, k, ?_, by decide, SameUse.refl k⟩
    simp only [openBacking, if_neg hopen, if_pos hbytes]
  by_cases hpool : roundUp bytes PageSize > N.poolSize k ∨ N.poolSize k > 2 ^ 63 - 1
  · left
    refine ⟨Invalid, k, ?_, by decide, SameUse.refl k⟩
    simp only [openBacking, if_neg hopen, if_neg hbytes, if_pos hpool]
  -- past the checks the opening is an allocation and a mapping, which a failure undoes
  have hacquire : openBacking N k .none bytes =
      (let (a, k) := k.allocate N (roundUp bytes PageSize)
      if a.rc ≠ 0 then (a.rc, k, Backing.none)
      else
        let (m, k) := k.map N (roundUp bytes PageSize) a.value
        if m.rc ≠ 0 then
          (m.rc, (closeBacking N k ⟨some a.value, roundUp bytes PageSize, none, 0⟩).2)
        else (0, k, .at a.value (roundUp bytes PageSize) m.value)) := by
    simp only [openBacking, if_neg hopen, if_neg hbytes, if_neg hpool]
    rfl
  rcases allocate_cases N k (roundUp bytes PageSize) with ⟨a, hrc, h⟩ | ⟨physical, hunused, h⟩
  · left
    refine ⟨a.rc, k.fail, ?_, hrc, rfl, rfl⟩
    rw [hacquire]
    simp only [h, if_pos hrc]
  -- a mapping that fails gives the allocation back, so the use is as before
  rcases map_cases N (k.take physical (roundUp bytes PageSize) true) (roundUp bytes PageSize)
    physical with ⟨m, hrc, h'⟩ | ⟨host, hfree, h'⟩
  · left
    refine ⟨m.rc, (k.take physical (roundUp bytes PageSize) true).fail.take physical
      (roundUp bytes PageSize) false, ?_, hrc, rfl,
      Overlay.fill_restore (f := fun _ => true) hunused⟩
    rw [hacquire]
    simp only [h, h', ne_eq, not_true_eq_false, if_false, if_pos hrc, closeBacking, release_eq hN]
    rfl
  · right
    refine ⟨physical, host, ?_, hunused, hfree, by omega⟩
    rw [hacquire]
    simp only [h, h', ne_eq, not_true_eq_false, if_false]

/-- What must hold of an alias that can be mapped. -/
structure Mappable (arena : Arena) (guestOffset : ℕ) (backing : Backing)
    (backingOffset bytes : ℕ) : Prop where
  inArena : guestOffset + bytes ≤ arena.size
  inBacking : backingOffset + bytes ≤ backing.size
  apart : ∀ other ∈ arena.aliases, ¬ Interval.Meets (arena.base.getD 0 + guestOffset) bytes
    (other.address.getD 0) other.size

theorem mapAlias_spec (hN : N.Releases) (k : Kernel) (id : ℕ) (arena : Arena) (guestOffset : ℕ)
    (backing : Backing) (backingOffset bytes : ℕ) :
    (∃ rc k', mapAlias N k (.none id) arena guestOffset backing backingOffset bytes =
        (rc, k', .none id, arena, backing) ∧ rc ≠ 0 ∧ SameUse k k') ∨
    Mappable arena guestOffset backing backingOffset bytes ∧
      mapAlias N k (.none id) arena guestOffset backing backingOffset bytes =
        (0, k.use (arena.base.getD 0 + guestOffset) bytes
          (fun i => .mapped (backing.physical.getD 0 + backingOffset + i)),
        ⟨id, some (arena.base.getD 0 + guestOffset), bytes⟩,
        { arena with
          aliases := ⟨id, some (arena.base.getD 0 + guestOffset), bytes⟩ :: arena.aliases },
        { backing with aliases := backing.aliases + 1 }) := by
  have hnone : (Alias.none id).address.isSome = false := rfl
  by_cases hinvalid : arena.base = none ∨ backing.host = none ∨ bytes = 0 ∨
      guestOffset % PageSize ≠ 0 ∨ backingOffset % PageSize ≠ 0 ∨ bytes % PageSize ≠ 0 ∨
      guestOffset > arena.size ∨ bytes > arena.size - guestOffset ∨
      backingOffset > backing.size ∨ bytes > backing.size - backingOffset
  · left
    refine ⟨Invalid, k, ?_, by decide, SameUse.refl k⟩
    simp only [mapAlias, hnone, Bool.false_eq_true, if_false, if_pos hinvalid]
  -- the checks are passed; what remains is the search for another alias in the range
  cases hoverlap : arena.aliases.any fun other =>
    overlap (arena.base.getD 0 + guestOffset) bytes (other.address.getD 0) other.size with
  | true =>
    left
    refine ⟨Busy, k, ?_, by decide, SameUse.refl k⟩
    simp only [mapAlias, hnone, Bool.false_eq_true, if_false, if_neg hinvalid, hoverlap, if_true]
  | false =>
    have hmappable : Mappable arena guestOffset backing backingOffset bytes := by
      refine ⟨by omega, by omega, ?_⟩
      intro other hother hmeets
      have hno := List.any_eq_false.mp hoverlap other hother
      exact hno (decide_eq_true hmeets)
    rcases mapFixed_cases N k (arena.base.getD 0 + guestOffset) bytes
      (backing.physical.getD 0 + backingOffset) with ⟨a, hrc, h⟩ | ⟨value, hfree, h⟩
    · left
      refine ⟨a.rc, k.fail, ?_, hrc, rfl, rfl⟩
      simp only [mapAlias, hnone, Bool.false_eq_true, if_false, if_neg hinvalid, hoverlap, h,
        if_pos hrc]
    · by_cases hplace : value = arena.base.getD 0 + guestOffset
      · right
        subst hplace
        refine ⟨hmappable, ?_⟩
        simp only [mapAlias, hnone, Bool.false_eq_true, if_false, if_neg hinvalid, hoverlap, h,
          ne_eq, not_true_eq_false]
        rfl
      · -- the kernel mapped elsewhere: it is unmapped there, so the use is as before
        left
        refine ⟨Invalid, _, ?_, by decide, use_restore (hfree hplace)
          fun i => .mapped (backing.physical.getD 0 + backingOffset + i)⟩
        simp only [mapAlias, hnone, Bool.false_eq_true, if_false, if_neg hinvalid, hoverlap, h,
          ne_eq, not_true_eq_false, not_false_eq_true, hplace, unmap_eq hN, if_true]

theorem unmapAlias_none (N : Native) (k : Kernel) (id : ℕ) (arena : Arena) (backing : Backing) :
    unmapAlias N k (.none id) arena backing = (0, k, .none id, arena, backing) := rfl

theorem unmapAlias_spec (hN : N.Releases) (k : Kernel) (id address size : ℕ) (arena : Arena)
    (backing : Backing) : unmapAlias N k ⟨id, some address, size⟩ arena backing =
      (0, k.use address size fun _ => .reserved, .none id,
        { arena with aliases := arena.aliases.eraseP (·.id == id) },
        { backing with aliases := backing.aliases - 1 }) := by
  simp only [unmapAlias, replace_eq hN, ne_eq, not_true_eq_false, if_false]

theorem closeArena_none (N : Native) (k : Kernel) (size : ℕ) :
    closeArena N k ⟨none, size, []⟩ = (0, k, ⟨none, size, []⟩) := rfl

theorem closeArena_spec (hN : N.Releases) (k : Kernel) (base size : ℕ) :
    closeArena N k ⟨some base, size, []⟩ = (0, k.use base size fun _ => .free, .none) := by
  simp only [closeArena, unmap_eq hN, ne_eq, not_true_eq_false, if_false, if_true]
  rfl

end MkwPs5Memory
