import MkwiiPs5.Gpu.CopyStoreInvariant

/-!
# Guest accesses to RAM

Scalar loads and stores, the 32-byte zeroing of `dcbz`, and bulk writes through a raw
pointer. Each tries its fast path first and asks the registry where that refuses.
-/

namespace Gpu

open Memory

variable {π : Type*} {rt : Runtime} {be : Backend π}

/-- `[addr, addr + n)` lies in one RAM bank, seen through one window. -/
def InRam (addr n : ℕ) : Prop :=
  ∃ window ∈ ramWindows, ∃ bankEnd, addr = physicalOf addr ||| window ∧
    ramBankEnd (physicalOf addr) = some bankEnd ∧ physicalOf addr + n ≤ bankEnd

theorem InRam.end_le {addr n : ℕ} (h : InRam addr n) : physicalOf addr + n ≤ 0x18000000 := by
  obtain ⟨-, -, bankEnd, -, hbank, hle⟩ := h
  exact hle.trans (ramBankEnd_le hbank).2

theorem InRam.mono {addr n k : ℕ} (h : InRam addr n) (hk : k ≤ n) : InRam addr k := by
  obtain ⟨window, hw, bankEnd, haddr, hbank, hle⟩ := h
  exact ⟨window, hw, bankEnd, haddr, hbank, by omega⟩

theorem physicalOf_eq_mod (addr : ℕ) : physicalOf addr = addr % 0x40000000 :=
  Nat.and_two_pow_sub_one_eq_mod addr 30

theorem physicalOf_window {physical window : ℕ} (hp : physical < 0x40000000)
    (hw : window ∈ ramWindows) : physicalOf (physical ||| window) = physical := by
  rw [physicalOf_eq_mod, lor_window hp hw]
  simp only [ramWindows, List.mem_cons, List.not_mem_nil, or_false] at hw
  omega

/-- Moving an access up inside its bank. -/
theorem InRam.add {addr n k : ℕ} (h : InRam addr n) (hk : k < n) :
    InRam (addr + k) (n - k) ∧ physicalOf (addr + k) = physicalOf addr + k := by
  have hend := h.end_le
  obtain ⟨window, hw, bankEnd, haddr, hbank, hle⟩ := h
  have hlor : physicalOf addr ||| window = physicalOf addr + window :=
    lor_window (by omega) hw
  have hnext : addr + k = (physicalOf addr + k) ||| window := by
    rw [lor_window (by omega) hw]
    omega
  have hphysical : physicalOf (addr + k) = physicalOf addr + k := by
    rw [hnext, physicalOf_window (by omega) hw]
  refine ⟨⟨window, hw, bankEnd, by rw [hphysical, hnext], ?_, by omega⟩, hphysical⟩
  rw [hphysical]
  exact ramBankEnd_of_le hbank (by omega) (by omega)

/-! ### The accesses -/

/-- The cold path of guest loads, outside this repository: on RAM it resolves the registry for
the accessed bytes and loads them. -/
structure ColdLoads (rt : Runtime) (be : Backend π) where
  readSlow : Faults → ℕ → ℕ → Machine π → Machine π × Option (List UInt8)
  readSlow_ram : ∀ faults addr n m, InRam addr n → readSlow faults addr n m =
    match resolveDeferredReads rt be faults addr n m with
    | (m, true) => (m, some (Overlay.load m.ram (physicalOf addr) n))
    | (m, false) => (m, none)

/-- A guest load of `n` bytes, in memory order; `none` where it throws. A host pointer stands
for the RAM behind it. -/
def readScalar (cold : ColdLoads rt be) (faults : Faults) (addr n : ℕ) (m : Machine π) :
    Machine π × Option (List UInt8) :=
  match tryGetReadableScalarHost m.registry.tables addr with
  | some _ => (m, some (Overlay.load m.ram (physicalOf addr) n))
  | none => cold.readSlow faults addr n m

def storeBytes (addr : ℕ) (data : List UInt8) (m : Machine π) : Machine π :=
  { m with ram := Overlay.write m.ram (physicalOf addr) data }

/-- A guest store: `TryWriteGuestScalar`, else `WriteScalar`. -/
def writeScalar (rt : Runtime) (be : Backend π) (faults : Faults) (addr : ℕ)
    (data : List UInt8) (m : Machine π) : Machine π × Bool :=
  match tryGetWritableScalarHost rt m.registry.tables addr data.length with
  | some _ => (storeBytes addr data m, true)
  | none =>
    match resolveDeferredReads rt be faults addr data.length m with
    | (m, false) => (m, false)
    | (m, true) => (storeBytes addr data m, true)

/-- `for (i = 0; i < words; ++i) Memory::Write32(addr + i * 4, 0)`. -/
def writeZeros (rt : Runtime) (be : Backend π) (faults : Faults) :
    ℕ → ℕ → Machine π → Machine π × Bool
  | _, 0, m => (m, true)
  | addr, words + 1, m =>
    match writeScalar rt be faults addr (List.replicate 4 0) m with
    | (m, false) => (m, false)
    | (m, true) => writeZeros rt be faults (addr + 4) words m

/-- `memset_zero_32`. -/
def memsetZero32 (rt : Runtime) (be : Backend π) (faults : Faults) (addr : ℕ) (m : Machine π) :
    Machine π × Bool :=
  match resolveDeferredReads rt be faults addr 32 m with
  | (m, false) => (m, false)
  | (m, true) =>
    if rt.executableWriteGuardMayHit addr 32 then writeZeros rt be faults addr 8 m
    else (storeBytes addr (List.replicate 32 0) m, true)

/-- A bulk store: `prepare_write`, then the bytes through a raw host pointer. -/
def prepareAndWrite (rt : Runtime) (be : Backend π) (faults : Faults) (addr : ℕ)
    (data : List UInt8) (m : Machine π) : Machine π × Bool :=
  match prepareWrite rt be faults addr data.length m with
  | (m, false) => (m, false)
  | (m, true) => (storeBytes addr data m, true)

/-! ### The fast paths refuse pending copies -/

/-- No pending copy meets the physical range. -/
def Machine.Clear (m : Machine π) (physical n : ℕ) : Prop :=
  ∀ read ∈ m.registry.reads,
    ¬ Interval.Meets physical n (physicalOf read.user.address) read.user.bytes

theorem Machine.Clear.mono {m : Machine π} {physical n physical' n' : ℕ}
    (h : m.Clear physical n) (hlo : physical ≤ physical')
    (hhi : physical' + n' ≤ physical + n) : m.Clear physical' n' :=
  fun read hread hmeets => h read hread (hmeets.mono ⟨hlo, hhi⟩ ⟨le_rfl, le_rfl⟩)

/-- The guest ranges of all pending copies are apart. -/
theorem StoreInv.pendingRanges_apart {m : Machine π} (h : StoreInv m) :
    (pendingRanges m.registry.reads).Pairwise fun range range' =>
      ¬ Interval.Meets range.start range.length range'.start range'.length := by
  rw [pendingRanges, List.pairwise_flatMap]
  constructor
  · intro read hread
    obtain ⟨hl, he, hranges⟩ := h.registry.aliased read hread
    rw [hranges, aliasRanges, List.pairwise_map]
    have hnodup : ramWindows.attach.Nodup := List.nodup_attach.mpr (by decide)
    refine hnodup.imp fun {window window'} hne hmeets => ?_
    obtain ⟨window, hw⟩ := window
    obtain ⟨window', hw'⟩ := window'
    simp only [aliasRange] at hmeets
    rw [lor_window (by omega) hw, lor_window (by omega) hw'] at hmeets
    obtain ⟨h₁, h₂⟩ := hmeets
    refine hne (Subtype.ext ?_)
    simp only [ramWindows, List.mem_cons, List.not_mem_nil, or_false] at hw hw'
    simp only
    omega
  · have hnodup : m.registry.reads.Nodup := List.Nodup.of_map _ h.registry.distinct
    refine hnodup.imp_of_mem fun {read read'} hr hr' hne => ?_
    intro range hrange range' hrange' hmeets
    obtain ⟨hl, he, hranges⟩ := h.registry.aliased read hr
    rw [hranges] at hrange
    obtain ⟨window, hw, hstart, hlength⟩ := mem_aliasRanges.mp hrange
    rw [hstart, hlength] at hmeets
    refine (h.registry.aliased read' hr').alias_apart hl he ?_ range' hrange' window hw
      hmeets.symm
    exact h.reads_apart hr hr' hne

/-- Ranges that are apart cannot overflow the counter of a 4 KiB page. -/
theorem StoreInv.subPageMarks_lt {m : Machine π} (h : StoreInv m) (subPage : ℕ) :
    subPageMarks m.registry.reads subPage < 65536 := by
  rw [subPageMarks, List.countP_eq_length_filter]
  have hmeets : ∀ range ∈ (pendingRanges m.registry.reads).filter
      (fun range => range.Marks kDeferredSubPageSize subPage),
      Interval.Meets range.start range.length (subPage * kDeferredSubPageSize)
        (kDeferredSubPageSize + 7) := by
    intro range hrange
    obtain ⟨h₁, h₂⟩ := of_decide_eq_true (List.mem_filter.mp hrange).2
    have := range.length_pos
    exact ⟨by omega, by omega⟩
  refine lt_of_le_of_lt (Interval.length_le_of_apart DeferredRange.start DeferredRange.length
    (by decide) (h.pendingRanges_apart.filter _) (fun range _ => range.length_pos) hmeets) ?_
  decide

/-- Where an access meets a pending copy, one of the ranges of the copy meets it. -/
theorem StoreInv.range_of_meets {m : Machine π} (h : StoreInv m) {addr n : ℕ}
    (hram : InRam addr n) {read : CopyRead π} (hread : read ∈ m.registry.reads)
    (hmeets : Interval.Meets (physicalOf addr) n (physicalOf read.user.address)
      read.user.bytes) :
    ∃ range ∈ pendingRanges m.registry.reads,
      Interval.Meets addr n range.start range.length := by
  have hend := hram.end_le
  obtain ⟨window, hw, bankEnd, haddr, -, -⟩ := hram
  obtain ⟨hl, he, hranges⟩ := h.registry.aliased read hread
  refine ⟨aliasRange _ _ window hl he hw, mem_pendingRanges.mpr ⟨read, hread, ?_⟩, ?_⟩
  · rw [hranges]
    exact mem_aliasRanges.mpr ⟨window, hw, rfl, rfl⟩
  · obtain ⟨h₁, h₂⟩ := hmeets
    rw [haddr]
    simp only [aliasRange]
    rw [lor_window (by omega) hw, lor_window (by omega) hw]
    exact ⟨by omega, by omega⟩

theorem StoreInv.clear_of_readable {m : Machine π} (h : StoreInv m) {addr n host : ℕ}
    (hram : InRam addr n) (hn : n ≤ 8)
    (hfast : tryGetReadableScalarHost m.registry.tables addr = some host) :
    m.Clear (physicalOf addr) n := by
  intro read hread hmeets
  obtain ⟨range, hrange, hoverlap⟩ := h.range_of_meets hram hread hmeets
  have := tryGetReadableScalarHost_pending h.registry.guarded h.subPageMarks_lt hrange hn hoverlap
  rw [this] at hfast
  cases hfast

theorem StoreInv.clear_of_writable {m : Machine π} (h : StoreInv m) {addr n host : ℕ}
    (hram : InRam addr n) (hn : n ≤ 8)
    (hfast : tryGetWritableScalarHost rt m.registry.tables addr n = some host) :
    m.Clear (physicalOf addr) n := by
  intro read hread hmeets
  obtain ⟨range, hrange, hoverlap⟩ := h.range_of_meets hram hread hmeets
  have := tryGetWritableScalarHost_pending rt h.registry.guarded h.subPageMarks_lt hrange hn
    hoverlap
  rw [this] at hfast
  cases hfast

/-- An access in RAM that the registry lets through meets no pending copy. -/
theorem StoreInv.clear_of_resolved {m m' : Machine π} (h : StoreInv m) {faults : Faults}
    {addr n : ℕ} (hram : InRam addr n) (hn : 0 < n)
    (hresolve : resolveDeferredReads rt be faults addr n m = (m', true)) :
    m'.Clear (physicalOf addr) n := by
  have hend := hram.end_le
  obtain ⟨window, hw, bankEnd, haddr, -, -⟩ := hram
  rw [haddr] at hresolve
  exact resolveDeferredReads_done h.registry hw hn hend hresolve

end Gpu
