import MkwiiPs5.Memory.Protocol

/-!
# The memory fast paths

The three tests that hand out a host pointer without asking the registry, on PS5,
and the theorem that none of them hands one out for a range with a pending read.
-/

namespace Memory

variable {κ ω : Type*}

/-- `DeferredScalarPending`. -/
def deferredScalarPending (t : GuardTables) (addr length : ℕ) : Bool :=
  if length = 0 ∨ length > 8 ∨ addr > kAddressSpace - 1 - (length - 1) then true
  else if t.deferredReadCoveredPages (addr >>> kPageShift) = 0 ∧
      t.deferredReadCoveredPages ((addr + (length - 1)) >>> kPageShift) = 0 then false
  else t.deferredReadCoveredSubPages (addr >>> kDeferredSubPageShift) != 0

/-- `TryGetReadableScalarHost`; `none` is the null pointer. -/
def tryGetReadableScalarHost (t : GuardTables) (address : ℕ) : Option ℕ :=
  let page := address >>> kPageShift
  let encodedBias := t.fullReadablePageBias page
  if encodedBias = 0 then
    if t.deferredReadCoveredPages page = 0 ∨
        t.deferredReadCoveredSubPages (address >>> kDeferredSubPageShift) ≠ 0 then none
    else
      let encodedBias := t.fullPageBias page
      if encodedBias = 0 then none else some (encodedBias - 1 + address)
  else some (encodedBias - 1 + address)

/-- `TryGetWritableScalarHost`. -/
def tryGetWritableScalarHost (rt : Runtime) (t : GuardTables) (address size : ℕ) : Option ℕ :=
  if deferredScalarPending t address size then none
  else if address > kAddressSpace - 1 - (size - 1) then none
  else
    let coarsePage := address >>> kPageShift
    let endAddress := address + (size - 1)
    if endAddress >>> kPageShift ≠ coarsePage then none
    else
      let encodedBias := t.fullWritablePageBias coarsePage
      if encodedBias ≠ 0 then some (encodedBias - 1 + address)
      else rt.tryGetWritablePointerFast t address size

/-- The first guest address of a resolved range, `base + static_cast<uint32_t>(minOffset)`. -/
def guestStart (base : ℕ) (minOffset : ℤ) : ℕ := ((base + minOffset) % kAddressSpace).toNat

/-- The loop of `ResolveRangeHost` over the 4 KiB pages of the range. -/
def someSubPageMarked (t : GuardTables) (start length : ℕ) : Bool :=
  let first := start >>> kDeferredSubPageShift
  let last := (start + (length - 1)) >>> kDeferredSubPageShift
  (List.range' first (last + 1 - first)).any (t.deferredReadCoveredSubPages · != 0)

/-- `ResolveRangeHost`. -/
def resolveRangeHost (rt : Runtime) (t : GuardTables) (base : ℕ) (minOffset : ℤ) (length : ℕ)
    (needsRead needsWrite : Bool) : Option ℕ :=
  let start := guestStart base minOffset
  if length = 0 ∨ length > kPageSize ∨ start > kAddressSpace - 1 - (length - 1) then none
  else
    let page := start >>> kPageShift
    if (start + (length - 1)) >>> kPageShift ≠ page then none
    else if t.deferredReadCoveredPages page ≠ 0 ∧ someSubPageMarked t start length then none
    else
      let readable :=
        if t.deferredReadCoveredPages page ≠ 0 then t.fullPageBias page
        else t.fullReadablePageBias page
      let writable := t.fullWritablePageBias page
      if needsWrite then
        if writable = 0 ∨ rt.flatWriteNeedsPolicy start then none
        else if needsRead ∧ readable ≠ writable then none
        else some (writable - 1 + start)
      else if readable = 0 then none
      else some (readable - 1 + start)

/-! ### A marked page refuses the fast path -/

/-- A range marks the page of every address in `[start - 7, end)`. -/
theorem DeferredRange.marks_of_mem {size x : ℕ} {range : DeferredRange} (hs : 0 < size)
    (hlo : range.start - 7 ≤ x) (hhi : x < range.start + range.length) :
    range.Marks size (x / size) := by
  refine Interval.meets_page_of_mem hs ⟨hlo, ?_⟩
  omega

theorem PageGuarded.flag {reads : List (DeferredRead κ ω)} {t : GuardTables} {page : ℕ}
    (h : PageGuarded reads t page) (hmarked : PageMarked reads page) :
    t.deferredReadCoveredPages page = 1 := by
  rw [h.1, if_pos hmarked]

section Pending

variable {reads : List (DeferredRead κ ω)} {t : GuardTables} {range : DeferredRange}

/-- The tables at an address of `[start - 7, end)` of a pending range. -/
theorem Guarded.marked (hg : Guarded reads t)
    (hbound : ∀ subPage, subPageMarks reads subPage < 65536)
    (hrange : range ∈ pendingRanges reads) {x : ℕ} (hlo : range.start - 7 ≤ x)
    (hhi : x < range.start + range.length) :
    t.deferredReadCoveredPages (x >>> kPageShift) = 1 ∧
      t.fullReadablePageBias (x >>> kPageShift) = 0 ∧
      t.deferredReadCoveredSubPages (x >>> kDeferredSubPageShift) ≠ 0 := by
  rw [shiftRight_kPageShift, shiftRight_kDeferredSubPageShift]
  have hpage : range.Marks kPageSize (x / kPageSize) :=
    DeferredRange.marks_of_mem (by decide) hlo hhi
  have hsub : range.Marks kDeferredSubPageSize (x / kDeferredSubPageSize) :=
    DeferredRange.marks_of_mem (by decide) hlo hhi
  have hguarded := hg.pages _ hpage.page_mul_lt
  have hmarked : PageMarked reads (x / kPageSize) := ⟨range, hrange, hpage⟩
  refine ⟨hguarded.flag hmarked, hguarded.2 hmarked, ?_⟩
  have hpos : 0 < subPageMarks reads (x / kDeferredSubPageSize) :=
    List.countP_pos_iff.mpr ⟨range, hrange, by simpa using hsub⟩
  rw [hg.counters, Nat.mod_eq_of_lt (hbound _)]
  omega

theorem tryGetReadableScalarHost_pending (hg : Guarded reads t)
    (hbound : ∀ subPage, subPageMarks reads subPage < 65536)
    (hrange : range ∈ pendingRanges reads) {address width : ℕ} (hwidth : width ≤ 8)
    (hmeets : Interval.Meets address width range.start range.length) :
    tryGetReadableScalarHost t address = none := by
  obtain ⟨h₁, h₂⟩ := hmeets
  obtain ⟨hflag, hbias, hcounter⟩ := hg.marked hbound hrange (x := address) (by omega) h₁
  simp [tryGetReadableScalarHost, hbias, hcounter]

theorem tryGetWritableScalarHost_pending (rt : Runtime) (hg : Guarded reads t)
    (hbound : ∀ subPage, subPageMarks reads subPage < 65536)
    (hrange : range ∈ pendingRanges reads) {address width : ℕ} (hwidth : width ≤ 8)
    (hmeets : Interval.Meets address width range.start range.length) :
    tryGetWritableScalarHost rt t address width = none := by
  obtain ⟨h₁, h₂⟩ := hmeets
  obtain ⟨hflag, hbias, hcounter⟩ := hg.marked hbound hrange (x := address) (by omega) h₁
  have hpending : deferredScalarPending t address width = true := by
    simp [deferredScalarPending, hflag, hcounter]
  rw [tryGetWritableScalarHost, if_pos hpending]

theorem resolveRangeHost_pending (rt : Runtime) (hg : Guarded reads t)
    (hbound : ∀ subPage, subPageMarks reads subPage < 65536)
    (hrange : range ∈ pendingRanges reads) {base : ℕ} {minOffset : ℤ} {length : ℕ}
    (hmeets : Interval.Meets (guestStart base minOffset) length range.start range.length)
    (needsRead needsWrite : Bool) :
    resolveRangeHost rt t base minOffset length needsRead needsWrite = none := by
  have hl := range.length_pos
  simp only [resolveRangeHost]
  split
  · rfl
  · next hvalid =>
    split
    · rfl
    · next hpage =>
      -- a common byte of the two ranges marks its own 4 KiB page and the one coarse page
      obtain ⟨x, hx, hxr⟩ := (Interval.meets_iff_exists (by omega) hl).mp hmeets
      obtain ⟨hflag, -, hcounter⟩ := hg.marked hbound hrange (x := x) (by omega) hxr.2
      rw [not_not, shiftRight_kPageShift, shiftRight_kPageShift] at hpage
      have hcoarse : x >>> kPageShift = guestStart base minOffset >>> kPageShift := by
        rw [shiftRight_kPageShift, shiftRight_kPageShift]
        have h₁ : guestStart base minOffset / kPageSize ≤ x / kPageSize :=
          Nat.div_le_div_right hx.1
        have h₂ : x / kPageSize ≤ (guestStart base minOffset + (length - 1)) / kPageSize :=
          Nat.div_le_div_right (by omega)
        omega
      have hloop : someSubPageMarked t (guestStart base minOffset) length = true := by
        simp only [someSubPageMarked, List.any_eq_true, bne_iff_ne]
        refine ⟨x >>> kDeferredSubPageShift, ?_, hcounter⟩
        simp only [List.mem_range'_1, shiftRight_kDeferredSubPageShift]
        have h₁ : guestStart base minOffset / kDeferredSubPageSize ≤ x / kDeferredSubPageSize :=
          Nat.div_le_div_right hx.1
        have h₂ : x / kDeferredSubPageSize ≤
            (guestStart base minOffset + (length - 1)) / kDeferredSubPageSize :=
          Nat.div_le_div_right (by omega)
        omega
      rw [if_pos]
      rw [← hcoarse, hflag]
      exact ⟨one_ne_zero, hloop⟩

end Pending

/-- In every run, no fast path hands out a host pointer for an access that overlaps a
range of a pending registration, the counter of every 4 KiB page is the number of
pending ranges that mark it, and the flag of every 1 MiB page is set exactly when some
pending range marks it. -/
theorem fast_path_never_bypasses {rt : Runtime} {s : System κ ω} (h : s.Reachable rt)
    (hbound : ∀ subPage, subPageMarks s.registry.reads subPage < 65536) :
    (∀ range ∈ pendingRanges s.registry.reads, ∀ address width, 0 < width → width ≤ 8 →
      address + width ≤ kAddressSpace →
      Interval.Meets address width range.start range.length →
      tryGetReadableScalarHost s.registry.tables address = none ∧
        tryGetWritableScalarHost rt s.registry.tables address width = none) ∧
    (∀ range ∈ pendingRanges s.registry.reads, ∀ base minOffset length needsRead needsWrite,
      Interval.Meets (guestStart base minOffset) length range.start range.length →
      resolveRangeHost rt s.registry.tables base minOffset length needsRead needsWrite = none) ∧
    (∀ subPage, s.registry.tables.deferredReadCoveredSubPages subPage =
      (pendingRanges s.registry.reads).countP (fun range =>
        Interval.Meets (subPage * kDeferredSubPageSize) kDeferredSubPageSize (range.start - 7)
          (range.start + range.length - (range.start - 7)))) ∧
    (∀ page, page * kPageSize < kAddressSpace →
      (s.registry.tables.deferredReadCoveredPages page ≠ 0 ↔
        ∃ range ∈ pendingRanges s.registry.reads,
          Interval.Meets (page * kPageSize) kPageSize (range.start - 7)
            (range.start + range.length - (range.start - 7)))) := by
  have hg := (System.reachable_inv h).guarded
  refine ⟨?_, ?_, ?_, ?_⟩
  · intro range hrange address width _ hwidth _ hmeets
    exact ⟨tryGetReadableScalarHost_pending hg hbound hrange hwidth hmeets,
      tryGetWritableScalarHost_pending rt hg hbound hrange hwidth hmeets⟩
  · intro range hrange base minOffset length needsRead needsWrite hmeets
    exact resolveRangeHost_pending rt hg hbound hrange hmeets needsRead needsWrite
  · intro subPage
    exact (hg.counters subPage).trans (Nat.mod_eq_of_lt (hbound subPage))
  · intro page hpage
    rw [(hg.pages page hpage).1, ne_eq, ite_eq_right_iff, Classical.not_imp]
    exact and_iff_left one_ne_zero

theorem fast_path_never_bypasses_oneRunning : ∃ s,
    System.empty.run .ramOnly System.oneRunning = some s ∧
      tryGetReadableScalarHost s.registry.tables 0x80007ffc = none ∧
        tryGetWritableScalarHost .ramOnly s.registry.tables 0x80007ffc 8 = none := by
  refine ⟨_, rfl, ?_⟩
  have hrun : System.empty.run .ramOnly System.oneRunning = some _ := rfl
  refine (fast_path_never_bypasses (System.Reachable.run (.initial System.empty_initial) hrun)
    (fun subPage => ?_)).1 ⟨0x80008000, 16, by decide, by decide⟩ ?_ _ _ ?_ ?_ ?_ ?_
  · exact lt_of_le_of_lt List.countP_le_length (by decide)
  · exact mem_pendingRanges.mpr ⟨_, List.mem_singleton.mpr rfl,
      mem_aliasRanges.mpr ⟨0x80000000, by decide, rfl, rfl⟩⟩
  all_goals decide

end Memory
