import MkwiiPs5.KeyedList
import MkwiiPs5.Memory.DeferredReads

/-!
# The guard tables count the pending ranges

Every operation of the registry keeps the two levels of guard tables equal to
what the list of registrations says: the counter of a 4 KiB page is the number of
pending ranges that mark it, and the flag of a 1 MiB page is set exactly when
some pending range marks it.
-/

namespace Memory

variable {κ ω : Type*}

/-- `[start - 7, end)` meets the page. -/
def DeferredRange.Marks (size page : ℕ) (range : DeferredRange) : Prop :=
  Interval.Meets (page * size) size (range.start - 7)
    (range.start + range.length - (range.start - 7))

instance (size page : ℕ) : DecidablePred (DeferredRange.Marks size page) := fun _ =>
  inferInstanceAs (Decidable (Interval.Meets _ _ _ _))

theorem DeferredRange.marks_iff {size page : ℕ} (hs : 0 < size) (range : DeferredRange) :
    range.Marks size page ↔
      range.first / size ≤ page ∧ page ≤ (range.start + range.length - 1) / size := by
  have hl := range.length_pos
  rw [Marks, Interval.meets_page_iff hs (by omega), first_eq,
    show range.start - 7 + (range.start + range.length - (range.start - 7)) - 1 =
      range.start + range.length - 1 by omega]

theorem DeferredRange.Marks.page_mul_lt {size page : ℕ} {range : DeferredRange}
    (h : range.Marks size page) : page * size < kAddressSpace := by
  have hl := range.length_pos
  have he := range.end_le
  have := h.1
  omega

/-- The ranges of the pending registrations. -/
def pendingRanges (reads : List (DeferredRead κ ω)) : List DeferredRange :=
  reads.flatMap (·.ranges)

theorem mem_pendingRanges {reads : List (DeferredRead κ ω)} {range : DeferredRange} :
    range ∈ pendingRanges reads ↔ ∃ read ∈ reads, range ∈ read.ranges := List.mem_flatMap

/-- The number of pending ranges that mark a 4 KiB page. -/
def subPageMarks (reads : List (DeferredRead κ ω)) (subPage : ℕ) : ℕ :=
  (pendingRanges reads).countP (fun range => range.Marks kDeferredSubPageSize subPage)

/-- Some pending range marks the 1 MiB page. -/
def PageMarked (reads : List (DeferredRead κ ω)) (page : ℕ) : Prop :=
  ∃ range ∈ pendingRanges reads, range.Marks kPageSize page

instance (reads : List (DeferredRead κ ω)) (page : ℕ) : Decidable (PageMarked reads page) :=
  inferInstanceAs (Decidable (∃ _ ∈ _, _))

theorem subPageMarks_perm {reads reads' : List (DeferredRead κ ω)} (h : reads.Perm reads')
    (subPage : ℕ) : subPageMarks reads subPage = subPageMarks reads' subPage :=
  (h.flatMap_right _).countP_eq _

theorem subPageMarks_cons (read : DeferredRead κ ω) (reads : List (DeferredRead κ ω))
    (subPage : ℕ) :
    subPageMarks (read :: reads) subPage = subPageMarks [read] subPage +
      subPageMarks reads subPage := by
  simp [subPageMarks, pendingRanges]

theorem pageMarked_perm {reads reads' : List (DeferredRead κ ω)} (h : reads.Perm reads')
    (page : ℕ) : PageMarked reads page ↔ PageMarked reads' page := by
  simp only [PageMarked, mem_pendingRanges, h.mem_iff]

theorem pageMarked_cons (read : DeferredRead κ ω) (reads : List (DeferredRead κ ω))
    (page : ℕ) : PageMarked (read :: reads) page ↔ PageMarked [read] page ∨
      PageMarked reads page := by
  simp only [PageMarked, mem_pendingRanges, List.mem_cons, List.not_mem_nil, or_false]
  constructor
  · rintro ⟨range, ⟨read', rfl | hmem, hrange⟩, hmarks⟩
    · exact Or.inl ⟨range, ⟨_, rfl, hrange⟩, hmarks⟩
    · exact Or.inr ⟨range, ⟨read', hmem, hrange⟩, hmarks⟩
  · rintro (⟨range, ⟨read', rfl, hrange⟩, hmarks⟩ | ⟨range, ⟨read', hmem, hrange⟩, hmarks⟩)
    · exact ⟨range, ⟨_, Or.inl rfl, hrange⟩, hmarks⟩
    · exact ⟨range, ⟨read', Or.inr hmem, hrange⟩, hmarks⟩

theorem not_pageMarked_nil (page : ℕ) : ¬ PageMarked ([] : List (DeferredRead κ ω)) page := by
  simp [PageMarked, pendingRanges]

/-- On pages of the address space the search of `RefreshDeferredReadPage` decides
whether the page is marked. -/
theorem pageCovered_iff (rt : Runtime) (reads : List (DeferredRead κ ω)) {page : ℕ}
    (hpage : page * kPageSize < kAddressSpace) :
    pageCovered rt reads page = true ↔ PageMarked reads page := by
  have hspace : page * kPageSize + kPageSize ≤ kAddressSpace := by
    unfold kPageSize kAddressSpace at *
    omega
  have hrange : ∀ range : DeferredRange,
      rt.rangesOverlap (page <<< kPageShift) kPageSize range.first
        (range.length + (range.start - range.first)) = true ↔ range.Marks kPageSize page := by
    intro range
    have hl := range.length_pos
    have he := range.end_le
    rw [shiftLeft_kPageShift, range.first_eq,
      rt.rangesOverlap_iff (by decide) (by omega) hspace (by omega), DeferredRange.Marks,
      show range.length + (range.start - (range.start - 7)) =
        range.start + range.length - (range.start - 7) by omega]
  simp only [pageCovered, List.any_eq_true, hrange, PageMarked, mem_pendingRanges]
  constructor
  · rintro ⟨read, hread, range, hmem, hmarks⟩
    exact ⟨range, ⟨read, hread, hmem⟩, hmarks⟩
  · rintro ⟨range, ⟨read, hread, hmem⟩, hmarks⟩
    exact ⟨read, hread, range, hmem, hmarks⟩

/-! ### Counters -/

theorem adjustCounter_eq (delta : ℤ) {x : ℤ} {counter : ℕ} (h : (counter : ℤ) = x % 65536) :
    (adjustCounter delta counter : ℤ) = (x + delta) % 65536 := by
  unfold adjustCounter
  omega

theorem adjustRangeSubPages_counter (delta : ℤ) (range : DeferredRange) (t : GuardTables)
    (subPage : ℕ) :
    (adjustRangeSubPages delta range t).deferredReadCoveredSubPages subPage =
      if range.Marks kDeferredSubPageSize subPage then
        adjustCounter delta (t.deferredReadCoveredSubPages subPage)
      else t.deferredReadCoveredSubPages subPage := by
  rw [adjustRangeSubPages, Interval.forPages_map GuardTables.deferredReadCoveredSubPages
    (g := fun subPage counters => Function.update counters subPage
      (adjustCounter delta (counters subPage))) _ _ (fun _ _ => rfl),
    Interval.forPages_update (fun _ => adjustCounter delta),
    shiftRight_kDeferredSubPageShift, shiftRight_kDeferredSubPageShift]
  exact if_congr (range.marks_iff (by decide)).symm rfl rfl

/-- One adjustment moves the counter of a page by the number of ranges of the
registration that mark it, modulo the width of the counter. -/
theorem adjustDeferredReadSubPages_counter (read : DeferredRead κ ω) (delta : ℤ) {x : ℤ}
    {t : GuardTables} {subPage : ℕ}
    (h : (t.deferredReadCoveredSubPages subPage : ℤ) = x % 65536) :
    ((adjustDeferredReadSubPages read delta t).deferredReadCoveredSubPages subPage : ℤ) =
      (x + delta * subPageMarks [read] subPage) % 65536 := by
  simp only [subPageMarks, pendingRanges, List.flatMap_cons, List.flatMap_nil, List.append_nil]
  unfold adjustDeferredReadSubPages
  generalize read.ranges = ranges
  induction ranges generalizing t x with
  | nil => simpa using h
  | cons range ranges ih =>
    rw [List.foldl_cons, List.countP_cons]
    by_cases hmarks : range.Marks kDeferredSubPageSize subPage
    · have hone := adjustCounter_eq delta h
      rw [← if_pos hmarks (t := adjustCounter _ _), ← adjustRangeSubPages_counter] at hone
      rw [ih hone]
      simp only [hmarks, decide_true, if_true]
      push_cast
      ring_nf
    · rw [← if_neg hmarks (e := t.deferredReadCoveredSubPages subPage),
        ← adjustRangeSubPages_counter] at h
      rw [ih h]
      simp [hmarks]

/-! ### Coarse pages -/

/-- The flag of a page says whether some pending range marks it, and a set flag
takes the page from the readable fast path. -/
def PageGuarded (reads : List (DeferredRead κ ω)) (t : GuardTables) (page : ℕ) : Prop :=
  t.deferredReadCoveredPages page = (if PageMarked reads page then 1 else 0) ∧
    (PageMarked reads page → t.fullReadablePageBias page = 0)

theorem pageGuarded_congr {reads reads' : List (DeferredRead κ ω)} {t : GuardTables}
    {page : ℕ} (h : PageMarked reads page ↔ PageMarked reads' page) :
    PageGuarded reads t page ↔ PageGuarded reads' t page := by
  simp only [PageGuarded, h]

theorem refreshDeferredReadPage_keep (rt : Runtime) {reads : List (DeferredRead κ ω)}
    {page' page : ℕ} (hne : page ≠ page') (t : GuardTables) :
    PageGuarded reads (refreshDeferredReadPage rt reads page' t) page ↔
      PageGuarded reads t page := by
  simp only [PageGuarded, refreshDeferredReadPage, Function.update_of_ne hne]

theorem refreshDeferredReadPage_guarded (rt : Runtime) (reads : List (DeferredRead κ ω))
    {page : ℕ} (hpage : page * kPageSize < kAddressSpace) (t : GuardTables) :
    PageGuarded reads (refreshDeferredReadPage rt reads page t) page := by
  simp only [PageGuarded, refreshDeferredReadPage, Function.update_self]
  have hiff := pageCovered_iff rt reads hpage
  by_cases h : PageMarked reads page
  · simp [hiff.mpr h, h]
  · simp [h, mt hiff.mp h]

theorem refreshRangePages_guarded (rt : Runtime) {reads : List (DeferredRead κ ω)}
    {range : DeferredRange} {page : ℕ} (hpage : page * kPageSize < kAddressSpace)
    {t : GuardTables} (h : range.Marks kPageSize page ∨ PageGuarded reads t page) :
    PageGuarded reads (refreshRangePages rt reads range t) page := by
  have hself := refreshDeferredReadPage_guarded rt reads hpage
  have hkeep : ∀ (page' : ℕ) (t : GuardTables), PageGuarded reads t page →
      PageGuarded reads (refreshDeferredReadPage rt reads page' t) page := by
    intro page' t ht
    by_cases hp : page = page'
    · subst hp
      exact hself t
    · exact (refreshDeferredReadPage_keep rt hp t).mpr ht
  rw [refreshRangePages]
  rcases h with hmarks | hguarded
  · have hbounds := (range.marks_iff (by decide)).mp hmarks
    rw [← shiftRight_kPageShift, ← shiftRight_kPageShift] at hbounds
    exact Interval.forPages_establishes (P := fun t => PageGuarded reads t page) hkeep hself
      hbounds.1 hbounds.2 t
  · exact Interval.forPages_induction (P := fun t => PageGuarded reads t page) hguarded hkeep

/-- After a refresh for `read` a page agrees with the registry, if `read` marks it
or if it agreed before. -/
theorem refreshDeferredReadPages_guarded (rt : Runtime) {reads : List (DeferredRead κ ω)}
    {read : DeferredRead κ ω} {page : ℕ} (hpage : page * kPageSize < kAddressSpace)
    {t : GuardTables} (h : PageMarked [read] page ∨ PageGuarded reads t page) :
    PageGuarded reads (refreshDeferredReadPages rt reads read t) page := by
  simp only [PageMarked, pendingRanges, List.flatMap_cons, List.flatMap_nil,
    List.append_nil] at h
  rw [refreshDeferredReadPages]
  generalize read.ranges = ranges at h ⊢
  induction ranges generalizing t with
  | nil => simpa using h
  | cons range ranges ih =>
    refine ih ?_
    rcases h with ⟨range', hmem, hmarks⟩ | hguarded
    · rcases List.mem_cons.mp hmem with rfl | hmem
      · exact Or.inr (refreshRangePages_guarded rt hpage (Or.inl hmarks))
      · exact Or.inl ⟨range', hmem, hmarks⟩
    · exact Or.inr (refreshRangePages_guarded rt hpage (Or.inr hguarded))

/-! ### Frames -/

section Frame

variable {α : Type*} {π : GuardTables → α}

/-- Adjusting counters leaves every component alone that does not see them. -/
theorem adjustDeferredReadSubPages_frame
    (hπ : ∀ t counters, π { t with deferredReadCoveredSubPages := counters } = π t)
    (read : DeferredRead κ ω) (delta : ℤ) (t : GuardTables) :
    π (adjustDeferredReadSubPages read delta t) = π t := by
  rw [adjustDeferredReadSubPages]
  generalize read.ranges = ranges
  induction ranges generalizing t with
  | nil => rfl
  | cons range ranges ih =>
    rw [List.foldl_cons, ih]
    exact Interval.forPages_induction (P := fun t' => π t' = π t) rfl
      (fun subPage t' ht' => (hπ t' _).trans ht')

/-- Refreshing pages leaves every component alone that sees neither the flags nor
the readable biases. -/
theorem refreshDeferredReadPages_frame
    (hπ : ∀ t biases flags, π { t with fullReadablePageBias := biases, deferredReadCoveredPages := flags } = π t)
    (rt : Runtime) (reads : List (DeferredRead κ ω)) (read : DeferredRead κ ω)
    (t : GuardTables) : π (refreshDeferredReadPages rt reads read t) = π t := by
  rw [refreshDeferredReadPages]
  generalize read.ranges = ranges
  induction ranges generalizing t with
  | nil => rfl
  | cons range ranges ih =>
    rw [List.foldl_cons, ih]
    exact Interval.forPages_induction (P := fun t' => π t' = π t) rfl
      (fun page t' ht' => (hπ t' _ _).trans ht')

end Frame

theorem pageGuarded_adjust (reads : List (DeferredRead κ ω)) (read : DeferredRead κ ω)
    (delta : ℤ) (t : GuardTables) (page : ℕ) :
    PageGuarded reads (adjustDeferredReadSubPages read delta t) page ↔
      PageGuarded reads t page := by
  rw [PageGuarded, PageGuarded,
    adjustDeferredReadSubPages_frame (π := GuardTables.deferredReadCoveredPages) (fun _ _ => rfl),
    adjustDeferredReadSubPages_frame (π := GuardTables.fullReadablePageBias) (fun _ _ => rfl)]

/-! ### The invariant -/

/-- The guard tables agree with a list of registrations. -/
structure Guarded (reads : List (DeferredRead κ ω)) (t : GuardTables) : Prop where
  counters : ∀ subPage,
    t.deferredReadCoveredSubPages subPage = subPageMarks reads subPage % 65536
  pages : ∀ page, page * kPageSize < kAddressSpace → PageGuarded reads t page

theorem guarded_nil {t : GuardTables} (hcounters : ∀ q, t.deferredReadCoveredSubPages q = 0)
    (hflags : ∀ p, t.deferredReadCoveredPages p = 0) :
    Guarded ([] : List (DeferredRead κ ω)) t where
  counters := fun q => by simp [hcounters, subPageMarks, pendingRanges]
  pages := fun p _ => ⟨by rw [hflags, if_neg (not_pageMarked_nil p)],
    fun h => absurd h (not_pageMarked_nil p)⟩

/-- The tables depend on the ranges of the registrations only. -/
theorem Guarded.congr {reads reads' : List (DeferredRead κ ω)} {t : GuardTables}
    (hg : Guarded reads t) (h : pendingRanges reads' = pendingRanges reads) :
    Guarded reads' t where
  counters := fun q => by rw [hg.counters, subPageMarks, subPageMarks, h]
  pages := fun p hp => (pageGuarded_congr (by rw [PageMarked, PageMarked, h])).mp (hg.pages p hp)

/-- Entering a registration: its counters are raised, its pages refreshed. -/
theorem Guarded.enter (rt : Runtime) {reads reads' : List (DeferredRead κ ω)}
    {read : DeferredRead κ ω} {t : GuardTables} (hg : Guarded reads t)
    (h : reads'.Perm (read :: reads)) :
    Guarded reads' (refreshDeferredReadPages rt reads' read
      (adjustDeferredReadSubPages read 1 t)) where
  counters := by
    intro q
    have hcount : (t.deferredReadCoveredSubPages q : ℤ) = (subPageMarks reads q : ℤ) % 65536 := by
      rw [hg.counters]
      omega
    have := adjustDeferredReadSubPages_counter read 1 hcount
    rw [refreshDeferredReadPages_frame (π := GuardTables.deferredReadCoveredSubPages)
      (fun _ _ _ => rfl), subPageMarks_perm h, subPageMarks_cons]
    omega
  pages := by
    intro p hp
    refine refreshDeferredReadPages_guarded rt hp ?_
    by_cases hmarked : PageMarked [read] p
    · exact Or.inl hmarked
    · right
      rw [pageGuarded_adjust]
      have hiff : PageMarked reads' p ↔ PageMarked reads p := by
        rw [pageMarked_perm h, pageMarked_cons]
        exact or_iff_right hmarked
      exact (pageGuarded_congr hiff).mpr (hg.pages p hp)

/-- Retiring a registration: its counters are lowered, its pages refreshed. -/
theorem Guarded.leave (rt : Runtime) {reads reads' : List (DeferredRead κ ω)}
    {read : DeferredRead κ ω} {t : GuardTables} (hg : Guarded reads t)
    (h : reads.Perm (read :: reads')) :
    Guarded reads' (refreshDeferredReadPages rt reads' read
      (adjustDeferredReadSubPages read (-1) t)) where
  counters := by
    intro q
    have hcount : (t.deferredReadCoveredSubPages q : ℤ) = (subPageMarks reads q : ℤ) % 65536 := by
      rw [hg.counters]
      omega
    have := adjustDeferredReadSubPages_counter read (-1) hcount
    rw [subPageMarks_perm h, subPageMarks_cons] at this
    rw [refreshDeferredReadPages_frame (π := GuardTables.deferredReadCoveredSubPages)
      (fun _ _ _ => rfl)]
    omega
  pages := by
    intro p hp
    refine refreshDeferredReadPages_guarded rt hp ?_
    by_cases hmarked : PageMarked [read] p
    · exact Or.inl hmarked
    · right
      rw [pageGuarded_adjust]
      have hiff : PageMarked reads p ↔ PageMarked reads' p := by
        rw [pageMarked_perm h, pageMarked_cons]
        exact or_iff_right hmarked
      exact (pageGuarded_congr hiff).mp (hg.pages p hp)

/-- The loop of `ClearDeferredReads`, which refreshes against the emptied registry
while the marks of `removed` are still being taken back. -/
theorem guarded_clear_loop (rt : Runtime) (removed : List (DeferredRead κ ω)) {t : GuardTables}
    (hcounters : ∀ q, t.deferredReadCoveredSubPages q = subPageMarks removed q % 65536)
    (hpages : ∀ p, p * kPageSize < kAddressSpace →
      PageMarked removed p ∨ PageGuarded ([] : List (DeferredRead κ ω)) t p) :
    Guarded ([] : List (DeferredRead κ ω)) (removed.foldl (fun t read =>
      refreshDeferredReadPages rt ([] : List (DeferredRead κ ω)) read
        (adjustDeferredReadSubPages read (-1) t)) t) := by
  induction removed generalizing t with
  | nil => exact ⟨hcounters, fun p hp => (hpages p hp).resolve_left (not_pageMarked_nil p)⟩
  | cons read rest ih =>
    refine ih ?_ ?_
    · intro q
      have hcount : (t.deferredReadCoveredSubPages q : ℤ) =
          (subPageMarks (read :: rest) q : ℤ) % 65536 := by
        rw [hcounters]
        omega
      have := adjustDeferredReadSubPages_counter read (-1) hcount
      rw [subPageMarks_cons] at this
      rw [refreshDeferredReadPages_frame (π := GuardTables.deferredReadCoveredSubPages)
        (fun _ _ _ => rfl)]
      omega
    · intro p hp
      rcases hpages p hp with hmarked | hguarded
      · rcases (pageMarked_cons read rest p).mp hmarked with hread | hrest
        · exact Or.inr (refreshDeferredReadPages_guarded rt hp (Or.inl hread))
        · exact Or.inl hrest
      · refine Or.inr (refreshDeferredReadPages_guarded rt hp (Or.inr ?_))
        exact (pageGuarded_adjust _ read (-1) t p).mpr hguarded

/-! ### The operations of the registry -/

/-- The guard tables of a registry agree with its list. -/
def Registry.Guarded (s : Registry κ ω) : Prop := Memory.Guarded s.reads s.tables

variable {rt : Runtime} {s : Registry κ ω}

theorem insertDeferredRead_guarded (rt : Runtime) (h : s.Guarded) (read : DeferredRead κ ω) :
    (insertDeferredRead rt read s).2.Guarded :=
  Memory.Guarded.enter rt h (List.perm_append_singleton _ _)

theorem retire_guarded (h : s.Guarded) {read : DeferredRead κ ω}
    {reads : List (DeferredRead κ ω)} (hperm : s.reads.Perm (read :: reads)) :
    (retire rt read reads s).Guarded := Memory.Guarded.leave rt h hperm

theorem cancelDeferredRead_guarded (rt : Runtime) (h : s.Guarded) (token : ℕ) :
    (cancelDeferredRead rt token s).2.Guarded := by
  rw [cancelDeferredRead]
  split
  · exact h
  · next read hfind =>
    split
    · exact h
    · exact retire_guarded h (KeyedList.perm_eraseP_of_find? hfind)

theorem clearDeferredReads_guarded (h : s.Guarded) {s' : Registry κ ω}
    (hclear : clearDeferredReads rt s = some s') : s'.Guarded := by
  rw [clearDeferredReads] at hclear
  split at hclear
  · cases hclear
  · cases hclear
    refine guarded_clear_loop rt s.reads h.counters (fun p hp => ?_)
    by_cases hmarked : PageMarked s.reads p
    · exact Or.inl hmarked
    · have := h.pages p hp
      refine Or.inr ((pageGuarded_congr ?_).mp this)
      exact iff_of_false hmarked (not_pageMarked_nil p)

theorem setExecuting_guarded (h : s.Guarded) (token : ℕ) (executing : Bool) :
    (setExecuting token executing s).Guarded := by
  refine Memory.Guarded.congr h ?_
  simp only [setExecuting, pendingRanges, List.flatMap_map]
  congr 1
  funext read
  simp only [DeferredRead.mark]
  split <;> rfl

theorem finishDeferredRead_guarded (h : s.Guarded) {read : DeferredRead κ ω}
    (hdistinct : (s.reads.map (·.token)).Nodup) (hread : read ∈ s.reads) :
    (finishDeferredRead rt read s).Guarded :=
  retire_guarded h (KeyedList.perm_filter hdistinct hread)

end Memory
