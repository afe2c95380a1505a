import Mathlib.Algebra.Order.Ring.Nat
import Mathlib.Data.List.Nodup
import Mathlib.Data.Nat.Bitwise
import MkwiiPs5.Interval

/-!
# The deferred-read registry

The registry of pending reads in `memory.cpp`, as the PS5 patches leave it: the
list of registrations, the two levels of guard tables derived from it, and the
operations that change both. A registration's 64-bit token is a natural number
taken from a counter, so it also stands for the identity of the shared object.
-/

namespace Memory

/-- Number of addresses of the guest's 32-bit space, `uint64_t{1} << 32`. -/
def kAddressSpace : ℕ := 0x100000000

def kPageShift : ℕ := 20
def kPageSize : ℕ := 0x100000
def kDeferredSubPageShift : ℕ := 12
def kDeferredSubPageSize : ℕ := 0x1000

def kMem1Size : ℕ := 0x01800000
def kMem2PhysicalBase : ℕ := 0x10000000
def kMem2PhysicalEnd : ℕ := 0x18000000

theorem shiftRight_kPageShift (a : ℕ) : a >>> kPageShift = a / kPageSize :=
  Nat.shiftRight_eq_div_pow a 20

theorem shiftLeft_kPageShift (p : ℕ) : p <<< kPageShift = p * kPageSize :=
  Nat.shiftLeft_eq p 20

theorem shiftRight_kDeferredSubPageShift (a : ℕ) :
    a >>> kDeferredSubPageShift = a / kDeferredSubPageSize :=
  Nat.shiftRight_eq_div_pow a 12

/-- The guard tables of the fast paths: page biases and coarse flags by 1 MiB
page, and the 16-bit counters by 4 KiB page. -/
structure GuardTables where
  fullPageBias : ℕ → ℕ
  fullReadablePageBias : ℕ → ℕ
  fullWritablePageBias : ℕ → ℕ
  deferredReadCoveredPages : ℕ → ℕ
  deferredReadCoveredSubPages : ℕ → ℕ

/-- What this repository takes from the rest of the runtime: the interval test of the
registry, the mapping of guest addresses to host memory, and the policies for writes. -/
structure Runtime where
  rangesOverlap : ℕ → ℕ → ℕ → ℕ → Bool
  contains : ℕ → ℕ → Bool
  getPointer : ℕ → ℕ → ℕ
  tryGetWritablePointerFast : GuardTables → ℕ → ℕ → Option ℕ
  flatWriteNeedsPolicy : ℕ → Bool
  executableWriteGuardMayHit : ℕ → ℕ → Bool
  rangesOverlap_iff : ∀ {a n b m : ℕ}, 0 < n → 0 < m → a + n ≤ kAddressSpace →
    b + m ≤ kAddressSpace → (rangesOverlap a n b m = true ↔ Interval.Meets a n b m)

/-- A runtime that maps the RAM windows to one array and has no other memory. -/
def Runtime.ramOnly : Runtime where
  rangesOverlap a n b m := decide (Interval.Meets a n b m)
  contains addr length := decide ((addr &&& 0x3fffffff) + length ≤ kMem2PhysicalEnd)
  getPointer addr _ := (addr &&& 0x3fffffff) + 1
  tryGetWritablePointerFast _ _ _ := none
  flatWriteNeedsPolicy _ := false
  executableWriteGuardMayHit _ _ := false
  rangesOverlap_iff _ _ _ _ := decide_eq_true_iff

/-- A non-empty guest range that does not wrap the address space. -/
structure DeferredRange where
  start : ℕ
  length : ℕ
  length_pos : 0 < length
  end_le : start + length ≤ kAddressSpace
deriving DecidableEq

/-- First byte at which a scalar of at most eight bytes can start and reach the range. -/
def DeferredRange.first (range : DeferredRange) : ℕ :=
  if range.start ≥ 7 then range.start - 7 else 0

theorem DeferredRange.first_eq (range : DeferredRange) : range.first = range.start - 7 := by
  unfold first
  split <;> omega

/-- One registration. `κ` stands for the callbacks and `ω` for their contexts. -/
structure DeferredRead (κ ω : Type*) where
  token : ℕ
  ranges : List DeferredRange
  callback : κ
  user : ω
  owner : Option ω
  executing : Bool

structure Registry (κ ω : Type*) where
  reads : List (DeferredRead κ ω)
  nextToken : ℕ
  tables : GuardTables

variable {κ ω : Type*}

/-- Some range of the registration overlaps `[addr, addr + length)`. -/
def DeferredRead.overlaps (rt : Runtime) (addr length : ℕ) (read : DeferredRead κ ω) : Bool :=
  read.ranges.any fun range => rt.rangesOverlap addr length range.start range.length

/-! ### Guard tables -/

/-- The test of `RefreshDeferredReadPage`: some range, widened by the seven bytes
a scalar load may start before it, overlaps the coarse page. -/
def pageCovered (rt : Runtime) (reads : List (DeferredRead κ ω)) (page : ℕ) : Bool :=
  reads.any fun read => read.ranges.any fun range =>
    rt.rangesOverlap (page <<< kPageShift) kPageSize range.first
      (range.length + (range.start - range.first))

def refreshDeferredReadPage (rt : Runtime) (reads : List (DeferredRead κ ω)) (page : ℕ)
    (t : GuardTables) : GuardTables :=
  let covered := pageCovered rt reads page
  { t with
    fullReadablePageBias := Function.update t.fullReadablePageBias page
      (if !covered then t.fullPageBias page else 0)
    deferredReadCoveredPages := Function.update t.deferredReadCoveredPages page
      (if covered then 1 else 0) }

/-- The coarse pages of one range, from the page of its first marked byte. -/
def refreshRangePages (rt : Runtime) (reads : List (DeferredRead κ ω)) (range : DeferredRange)
    (t : GuardTables) : GuardTables :=
  Interval.forPages (range.first >>> kPageShift)
    ((range.start + range.length - 1) >>> kPageShift) (refreshDeferredReadPage rt reads) t

def refreshDeferredReadPages (rt : Runtime) (reads : List (DeferredRead κ ω))
    (read : DeferredRead κ ω) (t : GuardTables) : GuardTables :=
  read.ranges.foldl (fun t range => refreshRangePages rt reads range t) t

/-- `static_cast<uint16_t>(counter + delta)`. -/
def adjustCounter (delta : ℤ) (counter : ℕ) : ℕ := (((counter : ℤ) + delta) % 65536).toNat

def adjustSubPage (delta : ℤ) (subPage : ℕ) (t : GuardTables) : GuardTables :=
  { t with
    deferredReadCoveredSubPages := Function.update t.deferredReadCoveredSubPages subPage
      (adjustCounter delta (t.deferredReadCoveredSubPages subPage)) }

def adjustRangeSubPages (delta : ℤ) (range : DeferredRange) (t : GuardTables) : GuardTables :=
  Interval.forPages (range.first >>> kDeferredSubPageShift)
    ((range.start + range.length - 1) >>> kDeferredSubPageShift) (adjustSubPage delta) t

def adjustDeferredReadSubPages (read : DeferredRead κ ω) (delta : ℤ) (t : GuardTables) :
    GuardTables :=
  read.ranges.foldl (fun t range => adjustRangeSubPages delta range t) t

/-! ### Registration -/

/-- The next token of the counter, skipping zero. The counter has 64 bits and starts at 1; it is a
natural number here, so it is the one of the source for the first `2 ^ 64 - 2` registrations. -/
def takeToken (nextToken : ℕ) : ℕ × ℕ :=
  if nextToken = 0 then (1, 2) else (nextToken, nextToken + 1)

/-- `NextDeferredReadToken()++`, and again where the token is zero. -/
def takeTokenWrapped (nextToken : ℕ) : ℕ × ℕ :=
  let next := (nextToken + 1) % 2 ^ 64
  if nextToken = 0 then (next, (next + 1) % 2 ^ 64) else (nextToken, next)

theorem takeToken_eq_wrapped {nextToken : ℕ} (h : nextToken + 1 < 2 ^ 64) :
    takeToken nextToken = takeTokenWrapped nextToken := by
  rw [takeToken, takeTokenWrapped, Nat.mod_eq_of_lt h]
  split
  · next hzero =>
    subst hzero
    rfl
  · rfl

def insertDeferredRead (rt : Runtime) (read : DeferredRead κ ω) (s : Registry κ ω) :
    ℕ × Registry κ ω :=
  let read := { read with token := (takeToken s.nextToken).1 }
  let reads := s.reads ++ [read]
  let tables := refreshDeferredReadPages rt reads read
    (adjustDeferredReadSubPages read 1 s.tables)
  (read.token, { reads := reads, nextToken := (takeToken s.nextToken).2, tables := tables })

/-- A range that is not refused lies in the address space. -/
theorem accepted_pos {addr length : ℕ} (h : ¬ (length = 0 ∨ length > kAddressSpace - addr)) :
    0 < length := by
  omega

theorem accepted_le {addr length : ℕ} (h : ¬ (length = 0 ∨ length > kAddressSpace - addr)) :
    addr + length ≤ kAddressSpace := by
  omega

/-- A refused registration returns token zero and changes nothing. -/
def registerDeferredRead (rt : Runtime) (addr length : ℕ) (callback : Option κ) (user : ω)
    (s : Registry κ ω) : ℕ × Registry κ ω :=
  match callback with
  | none => (0, s)
  | some callback =>
    if h : length = 0 ∨ length > kAddressSpace - addr then (0, s)
    else
      insertDeferredRead rt
        { token := 0, ranges := [⟨addr, length, accepted_pos h, accepted_le h⟩],
          callback := callback, user := user, owner := none, executing := false } s

/-- The base addresses of the three windows through which guest code sees RAM. -/
def ramWindows : List ℕ := [0, 0x80000000, 0xc0000000]

/-- End of the RAM bank that holds a physical address, if one does. -/
def ramBankEnd (physical : ℕ) : Option ℕ :=
  if physical < kMem1Size then some kMem1Size
  else if kMem2PhysicalBase ≤ physical ∧ physical < kMem2PhysicalEnd then some kMem2PhysicalEnd
  else none

theorem ramBankEnd_le {physical bankEnd : ℕ} (h : ramBankEnd physical = some bankEnd) :
    physical < bankEnd ∧ bankEnd ≤ 0x18000000 := by
  unfold ramBankEnd kMem1Size kMem2PhysicalBase kMem2PhysicalEnd at h
  split at h
  · cases h
    omega
  · split at h
    · cases h
      omega
    · cases h

/-- A bank is the bank of all its addresses. -/
theorem ramBankEnd_of_le {physical address bankEnd : ℕ} (h : ramBankEnd physical = some bankEnd)
    (hle : physical ≤ address) (hlt : address < bankEnd) : ramBankEnd address = some bankEnd := by
  unfold ramBankEnd kMem1Size kMem2PhysicalBase kMem2PhysicalEnd at h ⊢
  by_cases hmem1 : physical < 0x01800000
  · rw [if_pos hmem1] at h
    cases h
    rw [if_pos hlt]
  · rw [if_neg hmem1] at h
    split at h
    · cases h
      rw [if_neg (by omega), if_pos (by omega)]
    · cases h

theorem lor_window {physical window : ℕ} (hp : physical < 0x40000000)
    (hw : window ∈ ramWindows) : physical ||| window = physical + window := by
  have hmul : ∃ k, window = 2 ^ 30 * k := by
    simp only [ramWindows, List.mem_cons, List.not_mem_nil, or_false] at hw
    rcases hw with rfl | rfl | rfl
    · exact ⟨0, rfl⟩
    · exact ⟨2, rfl⟩
    · exact ⟨3, rfl⟩
  obtain ⟨k, rfl⟩ := hmul
  rw [Nat.or_comm, ← Nat.two_pow_add_eq_or_of_lt (by simpa using hp), Nat.add_comm]

theorem window_le {window : ℕ} (hw : window ∈ ramWindows) : window ≤ 0xc0000000 := by
  simp only [ramWindows, List.mem_cons, List.not_mem_nil, or_false] at hw
  omega

/-- The alias in one window of a range of physical RAM. -/
def aliasRange (physical length window : ℕ) (hl : 0 < length)
    (he : physical + length ≤ 0x18000000) (hw : window ∈ ramWindows) : DeferredRange where
  start := physical ||| window
  length := length
  length_pos := hl
  end_le := by
    have := window_le hw
    rw [lor_window (by omega) hw]
    unfold kAddressSpace
    omega

/-- The ranges of a RAM registration, one in each window. -/
def aliasRanges (physical length : ℕ) (hl : 0 < length)
    (he : physical + length ≤ 0x18000000) : List DeferredRange :=
  ramWindows.attach.map fun window => aliasRange physical length window.1 hl he window.2

theorem mem_aliasRanges {physical length : ℕ} {hl : 0 < length}
    {he : physical + length ≤ 0x18000000} {range : DeferredRange} :
    range ∈ aliasRanges physical length hl he ↔
      ∃ window ∈ ramWindows, range.start = physical ||| window ∧ range.length = length := by
  simp only [aliasRanges, List.mem_map, List.mem_attach, true_and, Subtype.exists]
  constructor
  · rintro ⟨window, hw, rfl⟩
    exact ⟨window, hw, rfl, rfl⟩
  · rintro ⟨window, hw, hstart, hlength⟩
    exact ⟨window, hw, by cases range; simp_all [aliasRange]⟩

/-- The alias check: every window maps the range, and to the host pointer of the
window before it. Returns the pointer. -/
def coherentAlias (rt : Runtime) (physical length : ℕ) : List ℕ → ℕ → Option ℕ
  | [], host => some host
  | window :: rest, host =>
    if !rt.contains (physical ||| window) length then none
    else
      let pointer := rt.getPointer (physical ||| window) length
      if host ≠ 0 ∧ pointer ≠ host then none
      else coherentAlias rt physical length rest pointer

def registerDeferredRamRead (rt : Runtime) (addr length : ℕ) (callback : Option κ)
    (user : Option ω) (s : Registry κ ω) : ℕ × Registry κ ω :=
  match callback, user with
  | some callback, some user =>
    if hl : length = 0 then (0, s)
    else if addr &&& 0xc0000000 ∉ ramWindows then (0, s)
    else
      let physical := addr &&& 0x3fffffff
      match hb : ramBankEnd physical with
      | none => (0, s)
      | some bankEnd =>
        if he : length > bankEnd - physical then (0, s)
        else if (coherentAlias rt physical length ramWindows 0).isNone then (0, s)
        else
          insertDeferredRead rt
            { token := 0
              ranges := aliasRanges physical length (by omega)
                (by have := ramBankEnd_le hb; omega)
              callback := callback, user := user, owner := some user, executing := false } s
  | _, _ => (0, s)

theorem takeToken_spec (nextToken : ℕ) : nextToken ≤ (takeToken nextToken).1 ∧
    0 < (takeToken nextToken).1 ∧ (takeToken nextToken).2 = (takeToken nextToken).1 + 1 := by
  simp only [takeToken]
  split <;> refine ⟨?_, ?_, ?_⟩ <;> simp <;> omega

/-- An insertion appends the entry under a token that the counter has not given before. -/
theorem insertDeferredRead_spec (rt : Runtime) (read : DeferredRead κ ω) (s : Registry κ ω) :
    ∃ token, s.nextToken ≤ token ∧ 0 < token ∧ (insertDeferredRead rt read s).1 = token ∧
      (insertDeferredRead rt read s).2.reads = s.reads ++ [{ read with token := token }] ∧
      (insertDeferredRead rt read s).2.nextToken = token + 1 := by
  obtain ⟨hle, hpos, hnext⟩ := takeToken_spec s.nextToken
  exact ⟨_, hle, hpos, rfl, rfl, hnext⟩

/-- A registration is refused without effect, or inserts one idle entry. -/
theorem registerDeferredRead_cases (rt : Runtime) (addr length : ℕ) (callback : Option κ)
    (user : ω) (s : Registry κ ω) :
    registerDeferredRead rt addr length callback user s = (0, s) ∨
      ∃ read : DeferredRead κ ω, read.executing = false ∧
        registerDeferredRead rt addr length callback user s = insertDeferredRead rt read s := by
  simp only [registerDeferredRead]
  cases callback with
  | none => exact Or.inl rfl
  | some callback =>
    simp only
    split
    · exact Or.inl rfl
    · exact Or.inr ⟨_, rfl, rfl⟩

/-- A registration in RAM is refused without effect, or inserts one idle entry with
the aliases of the range and with its owner. -/
theorem registerDeferredRamRead_cases (rt : Runtime) (addr length : ℕ) (callback : Option κ)
    (user : Option ω) (s : Registry κ ω) :
    registerDeferredRamRead rt addr length callback user s = (0, s) ∨
      ∃ (cb : κ) (owner : ω) (hl : 0 < length)
        (he : (addr &&& 0x3fffffff) + length ≤ 0x18000000),
        addr &&& 0xc0000000 ∈ ramWindows ∧ (ramBankEnd (addr &&& 0x3fffffff)).isSome ∧
        callback = some cb ∧ user = some owner ∧
        registerDeferredRamRead rt addr length callback user s = insertDeferredRead rt
          { token := 0, ranges := aliasRanges (addr &&& 0x3fffffff) length hl he,
            callback := cb, user := owner, owner := some owner, executing := false } s := by
  simp only [registerDeferredRamRead]
  split
  · split
    · exact Or.inl rfl
    · next hl =>
      split
      · exact Or.inl rfl
      · next hwindow =>
        split
        · exact Or.inl rfl
        · next bankEnd hb =>
          split
          · exact Or.inl rfl
          · next he =>
            split
            · exact Or.inl rfl
            · have hend := ramBankEnd_le hb
              exact Or.inr ⟨_, _, by omega, by omega, not_not.mp hwindow, by simp [hb], rfl, rfl, rfl⟩
  · exact Or.inl rfl

/-- Whether a range is one of coherent Wii RAM, as `RegisterDeferredRamRead` requires. -/
def acceptsRamRead (rt : Runtime) (addr length : ℕ) : Bool :=
  length ≠ 0 && addr &&& 0xc0000000 ∈ ramWindows &&
    (ramBankEnd (addr &&& 0x3fffffff)).any (fun bankEnd =>
      length ≤ bankEnd - (addr &&& 0x3fffffff)) &&
    (coherentAlias rt (addr &&& 0x3fffffff) length ramWindows 0).isSome

/-- A registration in RAM is refused on account of its range only. -/
theorem registerDeferredRamRead_refused (rt : Runtime) (addr length : ℕ) (callback : κ) (user : ω)
    (s : Registry κ ω) :
    (registerDeferredRamRead rt addr length (some callback) (some user) s).1 = 0 ↔
      acceptsRamRead rt addr length = false := by
  simp only [registerDeferredRamRead, acceptsRamRead]
  split
  · next hl => simp [hl]
  · next hl =>
    split
    · next hw => simp [hw]
    · next hw =>
      split
      · next hb => simp [hb]
      · next bankEnd hb =>
        split
        · next he => simp [hb, Nat.not_le.mpr he]
        · next he =>
          split
          · next hc => simp_all
          · next hc =>
            refine iff_of_false (takeToken_spec s.nextToken).2.1.ne' ?_
            have hc' : (coherentAlias rt (addr &&& 0x3fffffff) length ramWindows 0).isSome :=
              Option.isSome_iff_ne_none.mpr fun h => hc (by rw [h]; rfl)
            simp [hl, not_not.mp hw, hb, Nat.not_lt.mp he, hc']

/-! ### Retiring registrations -/

/-- Leaves `reads` in the registry and takes back the marks of `read`. -/
def retire (rt : Runtime) (read : DeferredRead κ ω) (reads : List (DeferredRead κ ω))
    (s : Registry κ ω) : Registry κ ω :=
  { s with
    reads := reads
    tables := refreshDeferredReadPages rt reads read
      (adjustDeferredReadSubPages read (-1) s.tables) }

def cancelDeferredRead (rt : Runtime) (token : ℕ) (s : Registry κ ω) : Bool × Registry κ ω :=
  match s.reads.find? (·.token == token) with
  | none => (false, s)
  | some read =>
    if read.executing then (false, s)
    else (true, retire rt read (s.reads.eraseP (·.token == token)) s)

/-- A refused cancellation changes nothing. -/
theorem cancelDeferredRead_false {rt : Runtime} {token : ℕ} {s s' : Registry κ ω}
    (h : cancelDeferredRead rt token s = (false, s')) : s' = s := by
  rw [cancelDeferredRead] at h
  split at h
  · cases h
    rfl
  · split at h
    · cases h
      rfl
    · cases h

/-- `none` is the `logic_error` thrown while a callback executes. -/
def clearDeferredReads (rt : Runtime) (s : Registry κ ω) : Option (Registry κ ω) :=
  if s.reads.any (·.executing) then none
  else
    some { s with
      reads := []
      tables := s.reads.foldl (fun t read =>
        refreshDeferredReadPages rt ([] : List (DeferredRead κ ω)) read
          (adjustDeferredReadSubPages read (-1) t)) s.tables }

/-! ### The critical sections of `ResolveDeferredReads` -/

/-- The registration the search loop stops at. -/
def findDeferredRead (rt : Runtime) (addr length : ℕ) (s : Registry κ ω) :
    Option (DeferredRead κ ω) :=
  s.reads.find? (·.overlaps rt addr length)

def DeferredRead.mark (token : ℕ) (executing : Bool) (read : DeferredRead κ ω) :
    DeferredRead κ ω :=
  if read.token = token then { read with executing := executing } else read

def setExecuting (token : ℕ) (executing : Bool) (s : Registry κ ω) : Registry κ ω :=
  { s with reads := s.reads.map (DeferredRead.mark token executing) }

/-- The section after a successful callback: `erase(remove(reads, match))`. -/
def finishDeferredRead (rt : Runtime) (read : DeferredRead κ ω) (s : Registry κ ω) :
    Registry κ ω :=
  retire rt read (s.reads.filter (·.token != read.token)) s

end Memory
