import Mathlib.Data.List.Pairwise
import Mathlib.Logic.Relation
import MkwiiPs5.Gpu.CopyStore

/-!
# The bookkeeping of the copy store

The invariant that ties the range map of `GxCopyStore` to the memory registry and to
the copy texture cache, kept by every operation of the store, by guest accesses that
write copies to RAM, and by evictions.
-/

namespace Gpu

open Memory

variable {π : Type*} {rt : Runtime} {be : Backend π}

/-! ### Registrations of copies -/

abbrev CopyRead (π : Type*) := DeferredRead Unit (PendingColorCopy π)

/-- The registration has the aliases of the range of its copy. -/
def Aliased (read : CopyRead π) : Prop :=
  ∃ (hl : 0 < read.user.bytes) (he : physicalOf read.user.address + read.user.bytes ≤ 0x18000000),
    read.ranges = aliasRanges (physicalOf read.user.address) read.user.bytes hl he

/-- A range of one RAM window meets an aliased registration exactly when it meets its
physical range: the windows are apart. -/
theorem overlaps_aliased (rt : Runtime) {read : CopyRead π} (h : Aliased read)
    {physical window n : ℕ} (hw : window ∈ ramWindows) (hn : 0 < n)
    (he : physical + n ≤ 0x18000000) :
    read.overlaps rt (physical ||| window) n = true ↔
      Interval.Meets physical n (physicalOf read.user.address) read.user.bytes := by
  obtain ⟨hl, hend, hranges⟩ := h
  have hphysical : physical ||| window = physical + window := lor_window (by omega) hw
  have hspace : (physical ||| window) + n ≤ kAddressSpace := by
    have := window_le hw
    rw [hphysical, kAddressSpace]
    omega
  simp only [DeferredRead.overlaps, hranges, List.any_eq_true]
  constructor
  · rintro ⟨range, hrange, hoverlap⟩
    rw [rt.rangesOverlap_iff hn range.length_pos hspace range.end_le] at hoverlap
    obtain ⟨window', hw', hstart, hlength⟩ := mem_aliasRanges.mp hrange
    rw [hstart, hlength, hphysical, lor_window (by omega) hw'] at hoverlap
    obtain ⟨h₁, h₂⟩ := hoverlap
    have hsame : window = window' := by
      simp only [ramWindows, List.mem_cons, List.not_mem_nil, or_false] at hw hw'
      omega
    subst hsame
    exact ⟨by omega, by omega⟩
  · rintro ⟨h₁, h₂⟩
    let range := aliasRange _ _ window hl hend hw
    refine ⟨range, mem_aliasRanges.mpr ⟨window, hw, rfl, rfl⟩, ?_⟩
    rw [rt.rangesOverlap_iff hn range.length_pos hspace range.end_le, hphysical]
    have hstart : range.start = physicalOf read.user.address + window := lor_window (by omega) hw
    have hlength : range.length = read.user.bytes := rfl
    exact ⟨by omega, by omega⟩

/-- What the store relies on in the registry between its operations. -/
structure RegistryOk (registry : Registry Unit (PendingColorCopy π)) : Prop where
  guarded : registry.Guarded
  distinct : (registry.reads.map (·.token)).Nodup
  fresh : ∀ read ∈ registry.reads, read.token < registry.nextToken
  idle : ∀ read ∈ registry.reads, read.executing = false
  aliased : ∀ read ∈ registry.reads, Aliased read

theorem RegistryOk.eq_of_token_eq {registry : Registry Unit (PendingColorCopy π)}
    (h : RegistryOk registry) {read read' : CopyRead π} (hr : read ∈ registry.reads)
    (hr' : read' ∈ registry.reads) (ht : read.token = read'.token) : read = read' :=
  List.inj_on_of_nodup_map h.distinct hr hr' ht

/-- Some registrations leave. -/
theorem RegistryOk.filter {registry registry' : Registry Unit (PendingColorCopy π)}
    (h : RegistryOk registry) {keep : CopyRead π → Bool} (hg : registry'.Guarded)
    (hreads : registry'.reads = registry.reads.filter keep)
    (hnext : registry'.nextToken = registry.nextToken) : RegistryOk registry' where
  guarded := hg
  distinct := by
    rw [hreads]
    exact h.distinct.sublist (List.filter_sublist.map _)
  fresh := by
    intro read hread
    rw [hreads] at hread
    rw [hnext]
    exact h.fresh read (List.mem_of_mem_filter hread)
  idle := by
    intro read hread
    rw [hreads] at hread
    exact h.idle read (List.mem_of_mem_filter hread)
  aliased := by
    intro read hread
    rw [hreads] at hread
    exact h.aliased read (List.mem_of_mem_filter hread)

theorem finishDeferredRead_ok {registry : Registry Unit (PendingColorCopy π)}
    (h : RegistryOk registry) {read : CopyRead π} (hread : read ∈ registry.reads) :
    RegistryOk (finishDeferredRead rt read registry) :=
  h.filter (finishDeferredRead_guarded h.guarded h.distinct hread) rfl rfl

/-- Between operations a cancellation removes the registration of the token, if any. -/
theorem cancelDeferredRead_reads (rt : Runtime) {registry : Registry Unit (PendingColorCopy π)}
    (h : RegistryOk registry) (token : ℕ) :
    (cancelDeferredRead rt token registry).2.reads =
        registry.reads.filter (·.token != token) ∧
      (cancelDeferredRead rt token registry).2.nextToken = registry.nextToken := by
  rw [cancelDeferredRead]
  split
  · next hfind =>
    refine ⟨(List.filter_eq_self.mpr fun read hread => ?_).symm, rfl⟩
    simpa using List.find?_eq_none.mp hfind read hread
  · next read hfind =>
    rw [h.idle read (List.mem_of_find?_eq_some hfind)]
    exact ⟨KeyedList.eraseP_eq_filter h.distinct token, rfl⟩

theorem cancelDeferredRead_ok (rt : Runtime) {registry : Registry Unit (PendingColorCopy π)}
    (h : RegistryOk registry) (token : ℕ) :
    RegistryOk (cancelDeferredRead rt token registry).2 := by
  obtain ⟨hreads, hnext⟩ := cancelDeferredRead_reads rt h token
  exact h.filter (cancelDeferredRead_guarded rt h.guarded token) hreads hnext

/-! ### Materialisation -/

/-- One pending copy is written to RAM and leaves the registry. -/
def Materialises (rt : Runtime) (be : Backend π) (m m' : Machine π) : Prop :=
  ∃ read ∈ m.registry.reads, ∃ bytes, encodeNativeColorCopy be read.user.copy = some bytes ∧
    bytes.length = read.user.bytes ∧
    m' = { m with
      registry := finishDeferredRead rt read m.registry
      ram := Overlay.write m.ram (physicalOf read.user.address) bytes
      materialised := read.token :: m.materialised }

/-- Several pending copies are, one after another. -/
abbrev MaterialisesMany (rt : Runtime) (be : Backend π) : Machine π → Machine π → Prop :=
  Relation.ReflTransGen (Materialises rt be)

theorem materialize_eq_some {pending : PendingColorCopy π} {ram ram' : ℕ → UInt8} :
    materialize be pending ram = some ram' ↔
      ∃ bytes, encodeNativeColorCopy be pending.copy = some bytes ∧
        bytes.length = pending.bytes ∧
        ram' = Overlay.write ram (physicalOf pending.address) bytes := by
  rw [materialize]
  cases encodeNativeColorCopy be pending.copy with
  | none => simp
  | some bytes =>
    by_cases hlength : bytes.length = pending.bytes
    · simp [hlength, eq_comm]
    · simp [hlength]

theorem Materialises.ok {m m' : Machine π} (h : Materialises rt be m m')
    (hm : RegistryOk m.registry) : RegistryOk m'.registry := by
  obtain ⟨read, hread, bytes, -, -, rfl⟩ := h
  exact finishDeferredRead_ok hm hread

theorem MaterialisesMany.ok {m m' : Machine π} (h : MaterialisesMany rt be m m')
    (hm : RegistryOk m.registry) : RegistryOk m'.registry := by
  induction h with
  | refl => exact hm
  | tail _ hstep ih => exact hstep.ok ih

/-- Marking an idle registration and taking the mark back changes nothing. -/
theorem setExecuting_cancel {registry : Registry Unit (PendingColorCopy π)}
    (h : RegistryOk registry) (token : ℕ) :
    setExecuting token false (setExecuting token true registry) = registry := by
  have hmark : ∀ read ∈ registry.reads, (read.mark token true).mark token false = read := by
    intro read hread
    by_cases htoken : read.token = token
    · have hidle := h.idle read hread
      simp only [DeferredRead.mark, if_pos htoken]
      rw [← hidle]
    · rw [DeferredRead.mark, if_neg (by rwa [System.mark_token]), DeferredRead.mark, if_neg htoken]
  have hmap : registry.reads.map (fun read => (read.mark token true).mark token false) =
      registry.reads := (List.map_congr_left hmark).trans (List.map_id _)
  simp only [setExecuting, List.map_map, Function.comp_def, hmap]

/-- The mark of a registration makes no difference once it leaves. -/
theorem finishDeferredRead_marked (registry : Registry Unit (PendingColorCopy π))
    (read : CopyRead π) :
    finishDeferredRead rt { read with executing := true }
      (setExecuting read.token true registry) = finishDeferredRead rt read registry := by
  have hfilter : (registry.reads.map (DeferredRead.mark read.token true)).filter
      (·.token != read.token) = registry.reads.filter (·.token != read.token) := by
    rw [List.filter_map]
    simp only [Function.comp_def, System.mark_token]
    refine (List.map_congr_left fun other hother => ?_).trans (List.map_id _)
    exact System.mark_of_ne (bne_iff_ne.mp (List.mem_filter.mp hother).2)
  simp only [finishDeferredRead, retire, setExecuting, hfilter]
  rfl

/-- The rounds of a resolution write pending copies to RAM, and nothing else; a resolution
that comes back leaves no pending copy in its range. -/
theorem resolveLoop_spec {faults : Faults} {addr length fuel : ℕ} {m m' : Machine π} {ok : Bool}
    (hm : RegistryOk m.registry)
    (h : resolveLoop rt be faults addr length fuel m = (m', ok)) :
    MaterialisesMany rt be m m' ∧
      (ok = true → ∀ read ∈ m'.registry.reads, read.overlaps rt addr length = false) := by
  induction fuel generalizing m with
  | zero =>
    cases h
    exact ⟨.refl, fun h => nomatch h⟩
  | succ fuel ih =>
    simp only [resolveLoop] at h
    split at h
    · next hfind =>
      cases h
      refine ⟨.refl, fun _ read hread => ?_⟩
      simpa using List.find?_eq_none.mp hfind read hread
    · next found hfind =>
      have hmem : found ∈ m.registry.reads := List.mem_of_find?_eq_some hfind
      rw [hm.idle found hmem, if_neg Bool.false_ne_true] at h
      split at h
      · cases h
        rw [setExecuting_cancel hm]
        exact ⟨.refl, fun h => nomatch h⟩
      · next ram hram =>
        rw [finishDeferredRead_marked] at h
        have hstep : Materialises rt be m { m with
            registry := finishDeferredRead rt found m.registry
            ram := ram
            materialised := found.token :: m.materialised } := by
          split at hram
          · cases hram
          · obtain ⟨bytes, hbytes, hlength, rfl⟩ := materialize_eq_some.mp hram
            exact ⟨found, hmem, bytes, hbytes, hlength, rfl⟩
        obtain ⟨hmany, hdone⟩ := ih (hstep.ok hm) h
        exact ⟨.head hstep hmany, hdone⟩

theorem resolveDeferredReads_spec {faults : Faults} {addr length : ℕ} {m m' : Machine π}
    {ok : Bool} (hm : RegistryOk m.registry)
    (h : resolveDeferredReads rt be faults addr length m = (m', ok)) :
    MaterialisesMany rt be m m' ∧ (ok = true → 0 < length →
      ∀ read ∈ m'.registry.reads, read.overlaps rt addr length = false) := by
  rw [resolveDeferredReads] at h
  split at h
  · cases h
    exact ⟨.refl, fun _ hpos => by omega⟩
  · split at h
    · cases h
      exact ⟨.refl, fun h => nomatch h⟩
    · obtain ⟨hmany, hdone⟩ := resolveLoop_spec hm h
      exact ⟨hmany, fun hok _ => hdone hok⟩

/-- After a resolution of a range in one RAM window no pending copy meets it. -/
theorem resolveDeferredReads_done {faults : Faults} {physical window n : ℕ} {m m' : Machine π}
    (hm : RegistryOk m.registry) (hw : window ∈ ramWindows) (hn : 0 < n)
    (he : physical + n ≤ 0x18000000)
    (h : resolveDeferredReads rt be faults (physical ||| window) n m = (m', true)) :
    ∀ read ∈ m'.registry.reads,
      ¬ Interval.Meets physical n (physicalOf read.user.address) read.user.bytes := by
  obtain ⟨hmany, hdone⟩ := resolveDeferredReads_spec hm h
  intro read hread hmeets
  have hoverlap := (overlaps_aliased rt ((hmany.ok hm).aliased read hread) hw hn he).mpr
    hmeets
  rw [hdone rfl hn read hread] at hoverlap
  cases hoverlap

/-! ### The invariant of the store -/

/-- The node of the range map that records a registration. -/
def Tracks (node : ℕ × Entry) (read : CopyRead π) : Prop :=
  node.2.token = read.token ∧ node.1 = physicalOf read.user.address ∧
    node.2.bytes = read.user.bytes

/-- The ranges of two nodes do not meet. -/
def Apart (node node' : ℕ × Entry) : Prop :=
  ¬ Interval.Meets node.1 node.2.bytes node'.1 node'.2.bytes

instance : Std.Symm Apart where
  symm _ _ h hm := h hm.symm

/-- The invariant of the store in every state between its operations. -/
structure StoreInv (m : Machine π) : Prop where
  registry : RegistryOk m.registry
  valid : ∀ node ∈ m.ranges, 0 < node.2.bytes ∧ node.1 + node.2.bytes ≤ 0x18000000 ∧
    node.2.token < m.registry.nextToken
  apart : m.ranges.Pairwise Apart
  tokens : (m.ranges.map (·.2.token)).Nodup
  tracked : ∀ read ∈ m.registry.reads, ∃ node ∈ m.ranges, Tracks node read
  pending : ∀ node ∈ m.ranges, node.2.token ∉ m.materialised →
    ∃ read ∈ m.registry.reads, Tracks node read
  ended : ∀ read ∈ m.registry.reads, read.token ∉ m.materialised
  viewed : ∀ destination, (m.copies destination).isSome →
    ∃ node ∈ m.ranges, node.2.destination = destination
  past : ∀ token ∈ m.materialised, token < m.registry.nextToken

theorem StoreInv.node_of_token {m : Machine π} (h : StoreInv m) {node node' : ℕ × Entry}
    (hn : node ∈ m.ranges) (hn' : node' ∈ m.ranges) (ht : node.2.token = node'.2.token) :
    node = node' := List.inj_on_of_nodup_map h.tokens hn hn' ht

/-- Two registrations of pending copies do not meet in physical RAM. -/
theorem StoreInv.reads_apart {m : Machine π} (h : StoreInv m) {read read' : CopyRead π}
    (hr : read ∈ m.registry.reads) (hr' : read' ∈ m.registry.reads) (hne : read ≠ read') :
    ¬ Interval.Meets (physicalOf read.user.address) read.user.bytes
      (physicalOf read'.user.address) read'.user.bytes := by
  obtain ⟨node, hnode, htoken, hstart, hbytes⟩ := h.tracked read hr
  obtain ⟨node', hnode', htoken', hstart', hbytes'⟩ := h.tracked read' hr'
  have hnn : node ≠ node' := by
    rintro rfl
    exact hne (h.registry.eq_of_token_eq hr hr' (htoken.symm.trans htoken'))
  have := h.apart.forall hnode hnode' hnn
  rwa [Apart, hstart, hbytes, hstart', hbytes'] at this

theorem StoreInv.materialises {m m' : Machine π} (h : StoreInv m)
    (hstep : Materialises rt be m m') : StoreInv m' := by
  have hok := hstep.ok h.registry
  obtain ⟨read, hread, bytes, -, -, rfl⟩ := hstep
  refine ⟨hok, h.valid, h.apart, h.tokens, ?_, ?_, ?_, h.viewed, ?_⟩
  · intro other hother
    exact h.tracked other (List.mem_of_mem_filter hother)
  · intro node hnode hpending
    rw [List.mem_cons, not_or] at hpending
    obtain ⟨other, hother, htracks⟩ := h.pending node hnode hpending.2
    refine ⟨other, List.mem_filter.mpr ⟨hother, ?_⟩, htracks⟩
    rw [bne_iff_ne, ← htracks.1]
    exact hpending.1
  · intro other hother
    obtain ⟨hother, hne⟩ := List.mem_filter.mp hother
    rw [List.mem_cons, not_or]
    exact ⟨bne_iff_ne.mp hne, h.ended other hother⟩
  · intro token htoken
    rcases List.mem_cons.mp htoken with rfl | htoken
    · exact h.registry.fresh read hread
    · exact h.past token htoken

theorem StoreInv.materialisesMany {m m' : Machine π} (h : StoreInv m)
    (hmany : MaterialisesMany rt be m m') : StoreInv m' := by
  induction hmany with
  | refl => exact h
  | tail _ hstep ih => exact ih.materialises hstep

/-- Materialisation leaves the range map and the views alone, and only shrinks the list of
registrations. -/
theorem MaterialisesMany.frame {m m' : Machine π} (h : MaterialisesMany rt be m m') :
    m'.ranges = m.ranges ∧ m'.copies = m.copies ∧
      m'.registry.nextToken = m.registry.nextToken ∧
      m'.registry.reads.Sublist m.registry.reads := by
  induction h with
  | refl => exact ⟨rfl, rfl, rfl, List.Sublist.refl _⟩
  | tail _ hstep ih =>
    obtain ⟨hranges, hcopies, hnext, hsub⟩ := ih
    obtain ⟨read, -, bytes, -, -, rfl⟩ := hstep
    exact ⟨hranges, hcopies, hnext, List.filter_sublist.trans hsub⟩

/-- The bookkeeping does not look at RAM. -/
theorem StoreInv.stored {m : Machine π} (h : StoreInv m) (ram : ℕ → UInt8) :
    StoreInv { m with ram := ram } :=
  ⟨h.registry, h.valid, h.apart, h.tokens, h.tracked, h.pending, h.ended, h.viewed, h.past⟩

/-- Evictions from the cache only remove views. -/
theorem StoreInv.evicted {m : Machine π} (h : StoreInv m)
    {copies : ℕ → Option (GxColorCopy π)}
    (hsub : ∀ destination, (copies destination).isSome → (m.copies destination).isSome) :
    StoreInv { m with copies := copies } :=
  ⟨h.registry, h.valid, h.apart, h.tokens, h.tracked, h.pending, h.ended,
    fun destination hview => h.viewed destination (hsub destination hview), h.past⟩

/-! ### The loops that retire ranges -/

theorem overlaps_iff {a an b bn : ℕ} : overlaps a an b bn = true ↔ Interval.Meets a an b bn := by
  simp [overlaps, Interval.Meets]

/-- The incoming range meets the range of the node. -/
def RamRange.Hits (incoming : RamRange) (node : ℕ × Entry) : Prop :=
  Interval.Meets node.1 node.2.bytes incoming.physical incoming.bytes

instance (incoming : RamRange) : DecidablePred incoming.Hits := fun _ =>
  inferInstanceAs (Decidable (Interval.Meets _ _ _ _))

/-- The nodes whose ranges the incoming range meets. -/
def RamRange.hits (incoming : RamRange) (nodes : List (ℕ × Entry)) : List (ℕ × Entry) :=
  nodes.filter fun node => incoming.Hits node

theorem mem_hits {incoming : RamRange} {nodes : List (ℕ × Entry)} {node : ℕ × Entry} :
    node ∈ incoming.hits nodes ↔ node ∈ nodes ∧ incoming.Hits node := by
  simp [RamRange.hits]

theorem foldl_cancel (rt : Runtime) (nodes : List (ℕ × Entry))
    {registry : Registry Unit (PendingColorCopy π)}
    (h : RegistryOk registry) :
    RegistryOk (nodes.foldl (fun r node => (cancelDeferredRead rt node.2.token r).2) registry) ∧
    (nodes.foldl (fun r node => (cancelDeferredRead rt node.2.token r).2) registry).nextToken =
      registry.nextToken ∧
    (nodes.foldl (fun r node => (cancelDeferredRead rt node.2.token r).2) registry).reads =
      registry.reads.filter (fun read => read.token ∉ nodes.map (·.2.token)) := by
  induction nodes generalizing registry with
  | nil => simp [h]
  | cons node rest ih =>
    obtain ⟨hreads, hnext⟩ := cancelDeferredRead_reads rt h node.2.token
    obtain ⟨h₁, h₂, h₃⟩ := ih (cancelDeferredRead_ok rt h node.2.token)
    refine ⟨h₁, h₂.trans hnext, h₃.trans ?_⟩
    rw [hreads, List.filter_filter]
    refine List.filter_congr fun read _ => ?_
    rw [Bool.eq_iff_iff]
    simp [and_comm]

theorem foldl_erase (nodes ranges : List (ℕ × Entry)) :
    nodes.foldl (fun ranges node => ranges.filter (·.1 != node.1)) ranges =
      ranges.filter (fun node => node.1 ∉ nodes.map (·.1)) := by
  induction nodes generalizing ranges with
  | nil => simp
  | cons node rest ih =>
    rw [List.foldl_cons, ih, List.filter_filter]
    refine List.filter_congr fun node' _ => ?_
    rw [Bool.eq_iff_iff]
    simp [and_comm]

/-- Erasing what the incoming range meets leaves the nodes that it does not meet. -/
theorem filter_hits {m : Machine π} (h : StoreInv m) (incoming : RamRange) :
    m.ranges.filter (fun node => node.1 ∉ (incoming.hits m.ranges).map (·.1)) =
      m.ranges.filter (fun node => ¬ incoming.Hits node) := by
  refine List.filter_congr fun node hnode => ?_
  rw [decide_eq_decide, not_iff_not]
  constructor
  · intro hmem
    obtain ⟨node', hnode', hkey⟩ := List.mem_map.mp hmem
    obtain ⟨hnode', hhit⟩ := mem_hits.mp hnode'
    -- nodes with one key start at one byte, so they are one node
    by_cases heq : node' = node
    · rwa [heq] at hhit
    · have hpos := (h.valid node hnode).1
      have hpos' := (h.valid node' hnode').1
      refine absurd ?_ (h.apart.forall hnode' hnode heq)
      exact ⟨by omega, by omega⟩
  · intro hhit
    exact List.mem_map_of_mem (mem_hits.mpr ⟨hnode, hhit⟩)

/-- The registry, the views and the ranges after the loop of `publish`. -/
theorem foldl_retireOverlapped (incoming : RamRange) (nodes : List (ℕ × Entry))
    (m : Machine π) :
    nodes.foldl (retireOverlapped rt incoming) m = { m with
      registry := (incoming.hits nodes).foldl
        (fun r node => (cancelDeferredRead rt node.2.token r).2) m.registry
      copies := (incoming.hits nodes).foldl (fun copies node =>
        if node.2.destination ≠ incoming.host then evict node.2.destination copies
        else copies) m.copies
      ranges := (incoming.hits nodes).foldl
        (fun ranges node => ranges.filter (·.1 != node.1)) m.ranges } := by
  induction nodes generalizing m with
  | nil => rfl
  | cons node rest ih =>
    rw [List.foldl_cons, ih]
    by_cases hhit : incoming.Hits node
    · rw [retireOverlapped, if_neg (by simpa using overlaps_iff.mpr hhit), RamRange.hits,
        RamRange.hits, List.filter_cons_of_pos (by simpa using hhit)]
      rfl
    · rw [retireOverlapped, if_pos (by simpa using fun h => hhit (overlaps_iff.mp h)),
        RamRange.hits, RamRange.hits, List.filter_cons_of_neg (by simpa using hhit)]

theorem foldl_retirePrepared (range : RamRange) (nodes : List (ℕ × Entry)) (m : Machine π) :
    nodes.foldl (retirePrepared range) m = { m with
      copies := (range.hits nodes).foldl (fun copies node => evict node.2.destination copies)
        m.copies
      ranges := (range.hits nodes).foldl
        (fun ranges node => ranges.filter (·.1 != node.1)) m.ranges } := by
  induction nodes generalizing m with
  | nil => rfl
  | cons node rest ih =>
    rw [List.foldl_cons, ih]
    by_cases hhit : range.Hits node
    · rw [retirePrepared, if_neg (by simpa using overlaps_iff.mpr hhit), RamRange.hits,
        RamRange.hits, List.filter_cons_of_pos (by simpa using hhit)]
      rfl
    · rw [retirePrepared, if_pos (by simpa using fun h => hhit (overlaps_iff.mp h)),
        RamRange.hits, RamRange.hits, List.filter_cons_of_neg (by simpa using hhit)]

/-- The views that are left were there before, and none is at an evicted destination. -/
theorem foldl_evict (nodes : List (ℕ × Entry)) (keep : ℕ → Prop) [DecidablePred keep]
    (copies : ℕ → Option (GxColorCopy π)) {destination : ℕ}
    (h : ((nodes.foldl (fun copies node =>
      if ¬ keep node.2.destination then evict node.2.destination copies else copies) copies)
        destination).isSome) :
    (copies destination).isSome ∧
      ∀ node ∈ nodes, node.2.destination = destination → keep destination := by
  induction nodes generalizing copies with
  | nil => exact ⟨h, by simp⟩
  | cons node rest ih =>
    obtain ⟨hsome, hrest⟩ := ih _ h
    by_cases hkeep : keep node.2.destination
    · simp only [hkeep, not_true_eq_false, if_false] at hsome
      refine ⟨hsome, fun node' hnode' heq => ?_⟩
      rcases List.mem_cons.mp hnode' with rfl | hnode'
      · exact heq ▸ hkeep
      · exact hrest node' hnode' heq
    · simp only [hkeep, not_false_eq_true, if_true, evict] at hsome
      by_cases heq : destination = node.2.destination
      · subst heq
        rw [Function.update_self] at hsome
        cases hsome
      · rw [Function.update_of_ne heq] at hsome
        refine ⟨hsome, fun node' hnode' heq' => ?_⟩
        rcases List.mem_cons.mp hnode' with rfl | hnode'
        · exact absurd heq'.symm heq
        · exact hrest node' hnode' heq'

theorem insertNode_perm {start : ℕ} {entry : Entry} {ranges : List (ℕ × Entry)}
    (h : ∀ node ∈ ranges, node.1 ≠ start) :
    (insertNode start entry ranges).Perm ((start, entry) :: ranges) := by
  induction ranges with
  | nil => exact .refl _
  | cons node rest ih =>
    rw [insertNode]
    split
    · exact .refl _
    · rw [if_neg fun heq => h node List.mem_cons_self heq.symm]
      have := ih fun node' hnode' => h node' (List.mem_cons_of_mem _ hnode')
      exact (this.cons node).trans (.swap _ _ _)

/-! ### Publication -/

theorem checkedRam_valid {address bytes : ℕ} {range : RamRange}
    (h : checkedRam rt be address bytes = some range) :
    range.bytes = bytes ∧ range.physical = be.canonicalizeGxMainRamAddress address ∧
      0 < range.bytes ∧ range.physical + range.bytes ≤ 0x18000000 := by
  simp only [checkedRam] at h
  split at h
  · cases h
  · next limit hlimit =>
    have hle := ramBankEnd_le hlimit
    split at h
    · cases h
    · obtain ⟨host, -, rfl⟩ := Option.map_eq_some_iff.mp h
      exact ⟨rfl, rfl, by simp only; omega, by simp only; omega⟩

/-- The first loop of `publish` writes copies to RAM; when it comes back, a pending copy that
meets the incoming range lies in a node that the range covers. -/
theorem resolvePartial_spec {faults : Faults} {incoming : RamRange} {nodes : List (ℕ × Entry)}
    {m m' : Machine π} {ok : Bool} (hm : StoreInv m)
    (hvalid : ∀ node ∈ nodes, 0 < node.2.bytes ∧ node.1 + node.2.bytes ≤ 0x18000000)
    (h : resolvePartial rt be faults incoming nodes m = (m', ok)) :
    MaterialisesMany rt be m m' ∧ (ok = true → ∀ node ∈ nodes, incoming.Hits node →
      incoming.covers node.1 node.2.bytes = false → ∀ read ∈ m'.registry.reads,
        ¬ Interval.Meets node.1 node.2.bytes (physicalOf read.user.address) read.user.bytes) := by
  induction nodes generalizing m with
  | nil =>
    cases h
    exact ⟨.refl, fun _ => by simp⟩
  | cons node rest ih =>
    obtain ⟨start, entry⟩ := node
    obtain ⟨hnode, hrest⟩ := List.forall_mem_cons.mp hvalid
    simp only [resolvePartial] at h
    split at h
    · next hskip =>
      obtain ⟨hmany, hdone⟩ := ih hm hrest h
      refine ⟨hmany, fun hok node hnode => ?_⟩
      rcases List.mem_cons.mp hnode with rfl | hnode
      · intro hhit hcover
        have := overlaps_iff.mpr hhit
        simp only at this hcover
        simp [this, hcover] at hskip
      · exact hdone hok node hnode
    · split at h
      · next m₁ hresolve =>
        cases h
        obtain ⟨hmany, -⟩ := resolveDeferredReads_spec hm.registry hresolve
        exact ⟨hmany, fun h => nomatch h⟩
      · next m₁ hresolve =>
        obtain ⟨hmany₁, -⟩ := resolveDeferredReads_spec hm.registry hresolve
        obtain ⟨hmany, hdone⟩ := ih (hm.materialisesMany hmany₁) hrest h
        refine ⟨hmany₁.trans hmany, fun hok node hmem hhit hcover read hread => ?_⟩
        rcases List.mem_cons.mp hmem with rfl | hmem
        · have hzero : start ||| 0 = start := Nat.or_zero start
          rw [← hzero] at hresolve
          exact resolveDeferredReads_done hm.registry (by decide) hnode.1 hnode.2 hresolve read
            (hmany.frame.2.2.2.subset hread)
        · exact hdone hok node hmem hhit hcover read hread

/-- What the registration of a copy adds. -/
theorem deferNativeColorCopy_spec {faults : Faults} {address token : ℕ} {copy : GxColorCopy π}
    {m m' : Machine π}
    (h : deferNativeColorCopy rt be faults address copy m = some (token, m')) :
    ∃ (bytes : ℕ) (read : CopyRead π), nativeColorCopyBytes be copy = some bytes ∧
      address &&& 0xc0000000 ∈ ramWindows ∧ (ramBankEnd (physicalOf address)).isSome ∧
      read.user = ⟨address, bytes, copy⟩ ∧ read.executing = false ∧ Aliased read ∧
      token = (insertDeferredRead rt read m.registry).1 ∧
      m' = { m with registry := (insertDeferredRead rt read m.registry).2 } := by
  simp only [deferNativeColorCopy] at h
  split at h
  · cases h
  · next bytes hbytes =>
    split at h
    · cases h
    · split at h
      · cases h
      · next htoken =>
        obtain heq | ⟨cb, owner, hl, he, hwindow, hbank, -, howner, heq⟩ :=
          registerDeferredRamRead_cases rt address bytes (some ())
            (some (⟨address, bytes, copy⟩ : PendingColorCopy π)) m.registry
        · rw [heq] at htoken
          exact absurd rfl htoken
        · rw [heq] at h
          cases h
          cases howner
          refine ⟨bytes, _, hbytes, hwindow, hbank, ?_, ?_, ?_, rfl, rfl⟩
          · rfl
          · rfl
          · exact ⟨hl, he, rfl⟩

/-- Registering one more idle copy, under a token not used before. -/
theorem insertDeferredRead_ok (rt : Runtime) {registry : Registry Unit (PendingColorCopy π)}
    (h : RegistryOk registry) {read : CopyRead π} (hidle : read.executing = false)
    (haliased : Aliased read) : RegistryOk (insertDeferredRead rt read registry).2 := by
  obtain ⟨token, hle, hpos, -, hreads, hnext⟩ := insertDeferredRead_spec rt read registry
  refine ⟨insertDeferredRead_guarded rt h.guarded read, ?_, ?_, ?_, ?_⟩
  · rw [hreads, List.map_append]
    refine h.distinct.append (List.nodup_singleton _) ?_
    intro t ht ht'
    obtain rfl : t = token := List.mem_singleton.mp ht'
    obtain ⟨old, hold, rfl⟩ := List.mem_map.mp ht
    have := h.fresh old hold
    omega
  all_goals
    intro old hold
    rw [hreads, List.mem_append, List.mem_singleton] at hold
    rcases hold with hold | rfl
  · rw [hnext]
    have := h.fresh old hold
    omega
  · rw [hnext]
    simp
  · exact h.idle old hold
  · exact hidle
  · exact h.aliased old hold
  · exact haliased

theorem publishHandle_spec {faults : Faults} {destination : ℕ} {copy : GxColorCopy π}
    {copies copies' : ℕ → Option (GxColorCopy π)}
    (h : publishHandle faults destination copy copies = some copies') :
    copies' = Function.update copies destination (some copy) := by
  rw [publishHandle] at h
  cases htarget : copy.target with
  | none =>
    rw [htarget] at h
    cases h
  | some target =>
    rw [htarget] at h
    simp only [Option.ite_none_left_eq_some, Option.some.injEq] at h
    exact h.2.2.2.2.symm

/-- The ways in which `publish` ends. -/
theorem publish_cases {faults : Faults} {address : ℕ} {copy : Option (GxColorCopy π)}
    {m m' : Machine π} {ok : Bool} (h : publish rt be faults address copy m = (m', ok)) :
    (m' = m ∧ ok = false) ∨
    ∃ c bytes incoming m₁ done, copy = some c ∧ nativeColorCopyBytes be c = some bytes ∧
      checkedRam rt be address bytes = some incoming ∧
      resolvePartial rt be faults incoming m.ranges m = (m₁, done) ∧
      ((m' = m₁ ∧ ok = false) ∨
        (done = true ∧ physicalOf address = incoming.physical ∧ ∃ read : CopyRead π,
          read.user = ⟨address, bytes, c⟩ ∧ read.executing = false ∧ Aliased read ∧
          ((m' = { m₁ with
                registry := (cancelDeferredRead rt (insertDeferredRead rt read m₁.registry).1
                  (insertDeferredRead rt read m₁.registry).2).2 } ∧ ok = false) ∨
            (m' = commit rt incoming (insertDeferredRead rt read m₁.registry).1 { m₁ with
                registry := (insertDeferredRead rt read m₁.registry).2
                copies := Function.update m₁.copies incoming.host (some c) } ∧
              ok = true)))) := by
  cases copy with
  | none =>
    cases h
    exact Or.inl ⟨rfl, rfl⟩
  | some c =>
    simp only [publish] at h
    split at h
    · cases h
      exact Or.inl ⟨rfl, rfl⟩
    · next incoming hincoming =>
      obtain ⟨bytes, hbytes, hram⟩ := Option.bind_eq_some_iff.mp hincoming
      split at h
      · cases h
        exact Or.inl ⟨rfl, rfl⟩
      · split at h
        · next m₁ hpart =>
          cases h
          -- an older copy that the new one covers in part could not be written out
          exact Or.inr ⟨c, bytes, incoming, m', _, rfl, hbytes, hram, hpart,
            Or.inl ⟨rfl, rfl⟩⟩
        · next m₁ hpart =>
          refine Or.inr ⟨c, bytes, incoming, m₁, _, rfl, hbytes, hram, hpart, ?_⟩
          split at h
          · cases h
            exact Or.inl ⟨rfl, rfl⟩
          · next token m₂ hdefer =>
            obtain ⟨bytes', read, hbytes', hwindow, hbank, huser, hidle, haliased, rfl, rfl⟩ :=
              deferNativeColorCopy_spec hdefer
            obtain rfl : bytes = bytes' := by
              rw [hbytes] at hbytes'
              exact Option.some.inj hbytes'
            have hphysical : physicalOf address = incoming.physical := by
              rw [(checkedRam_valid hram).2.1, be.canonicalize_ram address hwindow hbank]
            refine Or.inr ⟨rfl, hphysical, read, huser, hidle, haliased, ?_⟩
            split at h
            · cases h
              -- the view is not kept: the read that was registered is withdrawn again
              exact Or.inl ⟨rfl, rfl⟩
            · next copies hcopies =>
              cases h
              rw [publishHandle_spec hcopies]
              exact Or.inr ⟨rfl, rfl⟩

/-- Taking a registration back leaves the registrations there were. -/
theorem withdraw_spec (rt : Runtime) {registry : Registry Unit (PendingColorCopy π)}
    (h : RegistryOk registry) {read : CopyRead π} (hidle : read.executing = false) (haliased : Aliased read) :
    RegistryOk (cancelDeferredRead rt (insertDeferredRead rt read registry).1
        (insertDeferredRead rt read registry).2).2 ∧
      (cancelDeferredRead rt (insertDeferredRead rt read registry).1
        (insertDeferredRead rt read registry).2).2.reads = registry.reads ∧
      registry.nextToken ≤ (cancelDeferredRead rt (insertDeferredRead rt read registry).1
        (insertDeferredRead rt read registry).2).2.nextToken := by
  have hok := insertDeferredRead_ok rt h hidle haliased
  obtain ⟨token, hle, -, htoken, hreads, hnext⟩ := insertDeferredRead_spec rt read registry
  rw [htoken]
  obtain ⟨hcancel, hnext'⟩ := cancelDeferredRead_reads rt hok token
  refine ⟨cancelDeferredRead_ok rt hok token, ?_, by omega⟩
  rw [hcancel, hreads, List.filter_append, List.filter_cons_of_neg (by simp), List.filter_nil,
    List.append_nil, List.filter_eq_self]
  intro old hold
  have := h.fresh old hold
  rw [bne_iff_ne]
  omega

/-- The state that `commit` leaves. -/
theorem commit_spec (rt : Runtime) {m : Machine π} (hm : StoreInv m) {incoming : RamRange}
    (hpos : 0 < incoming.bytes) {read : CopyRead π}
    (hidle : read.executing = false) (haliased : Aliased read)
    (copies : ℕ → Option (GxColorCopy π)) :
    ∃ token, m.registry.nextToken ≤ token ∧ (insertDeferredRead rt read m.registry).1 = token ∧
      ∃ m', m' = commit rt incoming token { m with
          registry := (insertDeferredRead rt read m.registry).2
          copies := copies } ∧
        RegistryOk m'.registry ∧ m'.registry.nextToken = token + 1 ∧
        m'.registry.reads = m.registry.reads.filter
          (fun old => old.token ∉ (incoming.hits m.ranges).map (·.2.token)) ++
            [{ read with token := token }] ∧
        m'.ranges.Perm ((incoming.physical, ⟨incoming.bytes, token, incoming.host⟩) ::
          m.ranges.filter (fun node => ¬ incoming.Hits node)) ∧
        (∀ destination, (m'.copies destination).isSome → (copies destination).isSome ∧
          ∀ node ∈ incoming.hits m.ranges, node.2.destination = destination →
            destination = incoming.host) ∧
        m'.ram = m.ram ∧ m'.materialised = m.materialised := by
  have hok := insertDeferredRead_ok rt hm.registry hidle haliased
  obtain ⟨token, hle, -, htoken, hreads, hnext⟩ := insertDeferredRead_spec rt read m.registry
  refine ⟨token, hle, htoken, _, rfl, ?_⟩
  simp only [commit, foldl_retireOverlapped]
  obtain ⟨hok', hnext', hreads'⟩ := foldl_cancel rt (incoming.hits m.ranges) hok
  refine ⟨hok', hnext'.trans hnext, ?_, ?_, ?_, trivial, trivial⟩
  · rw [hreads', hreads, List.filter_append]
    congr 1
    refine List.filter_cons_of_pos ?_
    -- the new token is beyond all those of the range map
    rw [decide_eq_true_iff]
    intro hmem
    obtain ⟨node, hnode, heq⟩ := List.mem_map.mp hmem
    have := (hm.valid node (mem_hits.mp hnode).1).2.2
    simp only at heq
    omega
  · rw [foldl_erase, filter_hits hm]
    refine insertNode_perm ?_
    intro node hnode heq
    obtain ⟨hnode, hmiss⟩ := List.mem_filter.mp hnode
    have := (hm.valid node hnode).1
    exact of_decide_eq_true hmiss ⟨by omega, by omega⟩
  · intro destination hview
    exact foldl_evict (incoming.hits m.ranges) (· = incoming.host) copies hview

theorem StoreInv.withdraw {m : Machine π} (h : StoreInv m)
    {registry : Registry Unit (PendingColorCopy π)} (hok : RegistryOk registry)
    (hreads : registry.reads = m.registry.reads)
    (hnext : m.registry.nextToken ≤ registry.nextToken) :
    StoreInv { m with registry := registry } where
  registry := hok
  valid := fun node hnode => by
    obtain ⟨h₁, h₂, h₃⟩ := h.valid node hnode
    exact ⟨h₁, h₂, lt_of_lt_of_le h₃ hnext⟩
  apart := h.apart
  tokens := h.tokens
  tracked := by
    rw [hreads]
    exact h.tracked
  pending := by
    rw [hreads]
    exact h.pending
  ended := by
    rw [hreads]
    exact h.ended
  viewed := h.viewed
  past := fun token htoken => lt_of_lt_of_le (h.past token htoken) hnext

/-- The bookkeeping after a publication: the new range joins those it does not meet. -/
theorem StoreInv.commit {m : Machine π} (h : StoreInv m) {incoming : RamRange} {address : ℕ}
    {copy : GxColorCopy π} {read : CopyRead π} (hpos : 0 < incoming.bytes)
    (hend : incoming.physical + incoming.bytes ≤ 0x18000000)
    (hphysical : physicalOf address = incoming.physical)
    (huser : read.user = ⟨address, incoming.bytes, copy⟩) (hidle : read.executing = false)
    (haliased : Aliased read) :
    StoreInv (commit rt incoming (insertDeferredRead rt read m.registry).1 { m with
      registry := (insertDeferredRead rt read m.registry).2
      copies := Function.update m.copies incoming.host (some copy) }) := by
  obtain ⟨token, hle, htoken, m', hm', hok, hnext, hreads, hranges, hcopies, hram, hmat⟩ :=
    commit_spec rt h hpos hidle haliased
      (Function.update m.copies incoming.host (some copy))
  rw [htoken, ← hm']
  -- the token of the copy is younger than that of every range
  have hold : ∀ node ∈ m.ranges, node.2.token < token := fun node hnode =>
    lt_of_lt_of_le (h.valid node hnode).2.2 hle
  have hmem : ∀ node, node ∈ m'.ranges ↔
      node = (incoming.physical, ⟨incoming.bytes, token, incoming.host⟩) ∨
        node ∈ m.ranges ∧ ¬ incoming.Hits node := by
    intro node
    rw [hranges.mem_iff, List.mem_cons, List.mem_filter, decide_eq_true_iff]
  have hnew : Tracks (incoming.physical, ⟨incoming.bytes, token, incoming.host⟩)
      { read with token := token } := ⟨rfl, by simp [huser, hphysical], by simp [huser]⟩
  refine ⟨hok, ?_, ?_, ?_, ?_, ?_, ?_, ?_, ?_⟩
  · intro node hnode
    rw [hnext]
    rcases (hmem node).mp hnode with rfl | ⟨hnode, -⟩
    · exact ⟨hpos, hend, Nat.lt_succ_self token⟩
    · obtain ⟨h₁, h₂, -⟩ := h.valid node hnode
      have := hold node hnode
      exact ⟨h₁, h₂, by omega⟩
  · rw [hranges.pairwise_iff (fun hab => Std.Symm.symm _ _ hab), List.pairwise_cons]
    refine ⟨?_, h.apart.filter _⟩
    intro node hnode hmeets
    obtain ⟨-, hmiss⟩ := List.mem_filter.mp hnode
    exact of_decide_eq_true hmiss hmeets.symm
  · rw [(hranges.map _).nodup_iff, List.map_cons, List.nodup_cons]
    refine ⟨?_, h.tokens.sublist (List.filter_sublist.map _)⟩
    intro hmem
    obtain ⟨node, hnode, heq⟩ := List.mem_map.mp hmem
    have := hold node (List.mem_of_mem_filter hnode)
    simp only at heq
    omega
  · intro old hmemOld
    rw [hreads, List.mem_append, List.mem_singleton] at hmemOld
    rcases hmemOld with hmemOld | rfl
    · obtain ⟨hmemOld, hkept⟩ := List.mem_filter.mp hmemOld
      obtain ⟨node, hnode, htracks⟩ := h.tracked old hmemOld
      -- a read that is still registered is that of a range that was not hit
      refine ⟨node, (hmem node).mpr (Or.inr ⟨hnode, fun hhit => ?_⟩), htracks⟩
      refine of_decide_eq_true hkept ?_
      rw [← htracks.1]
      exact List.mem_map_of_mem (f := fun node => node.2.token) (mem_hits.mpr ⟨hnode, hhit⟩)
    · exact ⟨_, (hmem _).mpr (Or.inl rfl), hnew⟩
  · intro node hnode hpending
    rw [hmat] at hpending
    rcases (hmem node).mp hnode with rfl | ⟨hnode, hmiss⟩
    · exact ⟨_, by rw [hreads]; exact List.mem_append_right _ List.mem_cons_self, hnew⟩
    · obtain ⟨old, hmemOld, htracks⟩ := h.pending node hnode hpending
      refine ⟨old, ?_, htracks⟩
      rw [hreads, List.mem_append, List.mem_filter, decide_eq_true_iff]
      refine Or.inl ⟨hmemOld, fun hkilled => ?_⟩
      obtain ⟨node', hnode', heq⟩ := List.mem_map.mp hkilled
      obtain ⟨hnode', hhit⟩ := mem_hits.mp hnode'
      -- tokens are distinct, so that the range of a read that was cancelled is gone too
      obtain rfl := h.node_of_token hnode hnode' (htracks.1.trans heq.symm)
      exact hmiss hhit
  · intro old hmemOld
    rw [hmat]
    rw [hreads, List.mem_append, List.mem_singleton] at hmemOld
    rcases hmemOld with hmemOld | rfl
    · exact h.ended old (List.mem_of_mem_filter hmemOld)
    · intro hpast
      have := h.past token hpast
      omega
  · intro destination hview
    obtain ⟨hview, hevicted⟩ := hcopies destination hview
    by_cases hhost : destination = incoming.host
    · exact ⟨_, (hmem _).mpr (Or.inl rfl), hhost.symm⟩
    · rw [Function.update_of_ne hhost] at hview
      obtain ⟨node, hnode, hdest⟩ := h.viewed destination hview
      refine ⟨node, (hmem node).mpr (Or.inr ⟨hnode, fun hhit => ?_⟩), hdest⟩
      -- views were evicted with their ranges
      exact hhost (hevicted node (mem_hits.mpr ⟨hnode, hhit⟩) hdest)
  · intro t ht
    rw [hmat] at ht
    have := h.past t ht
    omega

theorem StoreInv.publish {faults : Faults} {address : ℕ} {copy : Option (GxColorCopy π)}
    {m m' : Machine π} {ok : Bool} (h : StoreInv m)
    (hpublish : publish rt be faults address copy m = (m', ok)) : StoreInv m' := by
  obtain ⟨rfl, -⟩ | ⟨c, bytes, incoming, m₁, done, -, hbytes, hram, hpart, hend⟩ :=
    publish_cases hpublish
  · exact h
  · have hnodes : ∀ node ∈ m.ranges, 0 < node.2.bytes ∧ node.1 + node.2.bytes ≤ 0x18000000 :=
      fun node hnode => ⟨(h.valid node hnode).1, (h.valid node hnode).2.1⟩
    have h₁ := h.materialisesMany (resolvePartial_spec h hnodes hpart).1
    obtain ⟨rfl, -⟩ | ⟨-, hphysical, read, huser, hidle, haliased, hlast⟩ := hend
    · exact h₁
    · obtain ⟨rfl, -⟩ | ⟨rfl, -⟩ := hlast
      · obtain ⟨hok, hreads, hnext⟩ := withdraw_spec rt h₁.registry hidle haliased
        exact h₁.withdraw hok hreads hnext
      · obtain ⟨hb, -, hpos, hle⟩ := checkedRam_valid hram
        rw [← hb] at huser
        exact h₁.commit hpos hle hphysical huser hidle haliased

/-- The bookkeeping after the ranges in front of a raw write are dropped, once no pending copy
meets it. -/
theorem StoreInv.retirePrepared {m : Machine π} (h : StoreInv m) {range : RamRange}
    (hclear : ∀ read ∈ m.registry.reads, ¬ Interval.Meets range.physical range.bytes
      (physicalOf read.user.address) read.user.bytes) :
    StoreInv (m.ranges.foldl (retirePrepared range) m) ∧
      (m.ranges.foldl (Gpu.retirePrepared range) m).ranges =
        m.ranges.filter (fun node => ¬ range.Hits node) ∧
      (m.ranges.foldl (Gpu.retirePrepared range) m).registry = m.registry ∧
      (m.ranges.foldl (Gpu.retirePrepared range) m).ram = m.ram ∧
      ∀ destination, ((m.ranges.foldl (Gpu.retirePrepared range) m).copies destination).isSome →
        (m.copies destination).isSome ∧
          ∀ node ∈ m.ranges, range.Hits node → node.2.destination ≠ destination := by
  have hviews : ∀ destination, ((m.ranges.foldl (Gpu.retirePrepared range) m).copies
      destination).isSome → (m.copies destination).isSome ∧
        ∀ node ∈ m.ranges, range.Hits node → node.2.destination ≠ destination := by
    intro destination hview
    rw [foldl_retirePrepared] at hview
    obtain ⟨hsome, hevicted⟩ := foldl_evict (range.hits m.ranges) (fun _ => False) m.copies
      (by simpa only [not_false_eq_true, if_true] using hview)
    exact ⟨hsome, fun node hnode hhit => hevicted node (mem_hits.mpr ⟨hnode, hhit⟩)⟩
  have hranges : (m.ranges.foldl (Gpu.retirePrepared range) m).ranges =
      m.ranges.filter (fun node => ¬ range.Hits node) := by
    rw [foldl_retirePrepared, foldl_erase, filter_hits h]
  refine ⟨?_, hranges, by rw [foldl_retirePrepared], by rw [foldl_retirePrepared], hviews⟩
  have hmem : ∀ node, node ∈ (m.ranges.foldl (Gpu.retirePrepared range) m).ranges ↔
      node ∈ m.ranges ∧ ¬ range.Hits node := by
    intro node
    rw [hranges, List.mem_filter, decide_eq_true_iff]
  refine ⟨?_, ?_, ?_, ?_, ?_, ?_, ?_, ?_, ?_⟩
  · rw [foldl_retirePrepared]
    exact h.registry
  · intro node hnode
    rw [foldl_retirePrepared]
    exact h.valid node ((hmem node).mp hnode).1
  · rw [hranges]
    exact h.apart.filter _
  · rw [hranges]
    exact h.tokens.sublist (List.filter_sublist.map _)
  · intro read hread
    rw [foldl_retirePrepared] at hread
    obtain ⟨node, hnode, htracks⟩ := h.tracked read hread
    -- a range that is hit has no pending read
    refine ⟨node, (hmem node).mpr ⟨hnode, fun hhit => ?_⟩, htracks⟩
    rw [RamRange.Hits, htracks.2.1, htracks.2.2] at hhit
    exact hclear read hread hhit.symm
  · intro node hnode hpending
    rw [foldl_retirePrepared] at hpending ⊢
    exact h.pending node ((hmem node).mp hnode).1 hpending
  · intro read hread
    rw [foldl_retirePrepared] at hread ⊢
    exact h.ended read hread
  · intro destination hview
    obtain ⟨hview, hevicted⟩ := hviews destination hview
    obtain ⟨node, hnode, hdest⟩ := h.viewed destination hview
    exact ⟨node, (hmem node).mpr ⟨hnode, fun hhit => hevicted node hnode hhit hdest⟩, hdest⟩
  · intro token htoken
    rw [foldl_retirePrepared] at htoken ⊢
    exact h.past token htoken

/-- The ways in which `prepare_write` ends. -/
theorem prepareWrite_cases {faults : Faults} {address bytes : ℕ} {m m' : Machine π} {ok : Bool}
    (h : prepareWrite rt be faults address bytes m = (m', ok)) :
    (m' = m ∧ (ok = true → bytes = 0)) ∨
    ∃ range m₁ done, checkedRam rt be address bytes = some range ∧
      resolveDeferredReads rt be faults range.physical range.bytes m = (m₁, done) ∧
      ((done = false ∧ m' = m₁ ∧ ok = false) ∨
        (done = true ∧ m' = m₁.ranges.foldl (retirePrepared range) m₁ ∧ ok = true)) := by
  rw [prepareWrite] at h
  split at h
  · next hzero =>
    cases h
    exact Or.inl ⟨rfl, fun _ => hzero⟩
  · split at h
    · cases h
      exact Or.inl ⟨rfl, fun h => nomatch h⟩
    · next range hram =>
      split at h
      · next m₁ hresolve =>
        cases h
        exact Or.inr ⟨range, m', _, hram, hresolve, Or.inl ⟨rfl, rfl, rfl⟩⟩
      · next m₁ hresolve =>
        cases h
        exact Or.inr ⟨range, m₁, _, hram, hresolve, Or.inr ⟨rfl, rfl, rfl⟩⟩

/-- A resolution of the physical range that `checked_ram` returns. -/
theorem resolve_checkedRam {faults : Faults} {address bytes : ℕ} {range : RamRange}
    {m m₁ : Machine π} (hm : RegistryOk m.registry)
    (hram : checkedRam rt be address bytes = some range)
    (hresolve : resolveDeferredReads rt be faults range.physical range.bytes m = (m₁, true)) :
    ∀ read ∈ m₁.registry.reads, ¬ Interval.Meets range.physical range.bytes
      (physicalOf read.user.address) read.user.bytes := by
  obtain ⟨-, -, hpos, hle⟩ := checkedRam_valid hram
  have hzero : range.physical ||| 0 = range.physical := Nat.or_zero _
  rw [← hzero] at hresolve
  exact resolveDeferredReads_done hm (by decide) hpos hle hresolve

theorem StoreInv.prepareWrite {faults : Faults} {address bytes : ℕ} {m m' : Machine π}
    {ok : Bool} (h : StoreInv m)
    (hprepare : prepareWrite rt be faults address bytes m = (m', ok)) : StoreInv m' := by
  obtain ⟨rfl, -⟩ | ⟨range, m₁, done, hram, hresolve, hend⟩ := prepareWrite_cases hprepare
  · exact h
  · have h₁ := h.materialisesMany (resolveDeferredReads_spec h.registry hresolve).1
    obtain ⟨-, rfl, -⟩ | ⟨rfl, rfl, -⟩ := hend
    · exact h₁
    · exact (h₁.retirePrepared (resolve_checkedRam h.registry hram hresolve)).1

/-! ### Runs of the store -/

/-- What happens to the store: its two operations, guest accesses that reach the registry,
changes of RAM, and evictions from the copy texture cache. -/
inductive StoreAction (π : Type*)
  | publish (faults : Faults) (address : ℕ) (copy : Option (GxColorCopy π))
  | prepareWrite (faults : Faults) (address bytes : ℕ)
  | access (faults : Faults) (addr length : ℕ)
  | store (ram : ℕ → UInt8)
  | evict (destination : ℕ)
  | clear

def Machine.step (rt : Runtime) (be : Backend π) (m : Machine π) :
    StoreAction π → Machine π × Bool
  | .publish faults address copy => publish rt be faults address copy m
  | .prepareWrite faults address bytes => prepareWrite rt be faults address bytes m
  | .access faults addr length => resolveDeferredReads rt be faults addr length m
  | .store ram => ({ m with ram := ram }, true)
  | .evict destination => ({ m with copies := evict destination m.copies }, true)
  | .clear => ({ m with copies := fun _ => none }, true)

/-- An empty store over an empty registry. -/
structure Machine.Initial (m : Machine π) : Prop where
  reads : m.registry.reads = []
  counters : ∀ subPage, m.registry.tables.deferredReadCoveredSubPages subPage = 0
  flags : ∀ page, m.registry.tables.deferredReadCoveredPages page = 0
  copies : ∀ destination, m.copies destination = none
  ranges : m.ranges = []
  materialised : m.materialised = []

inductive Machine.Reachable (rt : Runtime) (be : Backend π) : Machine π → Prop
  | initial {m : Machine π} (h : m.Initial) : Reachable rt be m
  | step {m : Machine π} (action : StoreAction π) (h : Reachable rt be m) :
      Reachable rt be (m.step rt be action).1

theorem StoreInv.initial {m : Machine π} (h : m.Initial) : StoreInv m where
  registry :=
    { guarded := by
        rw [Registry.Guarded, h.reads]
        exact guarded_nil h.counters h.flags
      distinct := by simp [h.reads]
      fresh := by simp [h.reads]
      idle := by simp [h.reads]
      aliased := by simp [h.reads] }
  valid := by simp [h.ranges]
  apart := by simp [h.ranges]
  tokens := by simp [h.ranges]
  tracked := by simp [h.reads]
  pending := by simp [h.ranges]
  ended := by simp [h.reads]
  viewed := by simp [h.copies]
  past := by simp [h.materialised]

theorem StoreInv.step {m : Machine π} (h : StoreInv m) (action : StoreAction π) :
    StoreInv (m.step rt be action).1 := by
  cases action with
  | publish faults address copy => exact h.publish rfl
  | prepareWrite faults address bytes => exact h.prepareWrite rfl
  | access faults addr length =>
    exact h.materialisesMany (resolveDeferredReads_spec h.registry rfl).1
  | store ram => exact h.stored ram
  | evict destination =>
    refine h.evicted fun destination' hview => ?_
    by_cases heq : destination' = destination
    · subst heq
      rw [Gpu.evict, Function.update_self] at hview
      cases hview
    · rwa [Gpu.evict, Function.update_of_ne heq] at hview
  | clear => exact h.evicted fun destination hview => nomatch hview

theorem Machine.Reachable.inv {m : Machine π} (h : m.Reachable rt be) : StoreInv m := by
  induction h with
  | initial h => exact .initial h
  | step action _ ih => exact ih.step action

/-- The start addresses and lengths of the three aliases of a physical range. -/
def aliasesOf (physical bytes : ℕ) : List (ℕ × ℕ) :=
  ramWindows.map fun window => (physical ||| window, bytes)

theorem Aliased.ranges_eq {read : CopyRead π} (h : Aliased read) :
    read.ranges.map (fun range => (range.start, range.length)) =
      aliasesOf (physicalOf read.user.address) read.user.bytes := by
  obtain ⟨hl, he, hranges⟩ := h
  rw [hranges]
  rfl

/-- No alias of a physical range meets an alias of a registration that is apart from it. -/
theorem Aliased.alias_apart {read : CopyRead π} (h : Aliased read) {physical n : ℕ}
    (hn : 0 < n) (he : physical + n ≤ 0x18000000)
    (hapart : ¬ Interval.Meets physical n (physicalOf read.user.address) read.user.bytes) :
    ∀ range ∈ read.ranges, ∀ window ∈ ramWindows,
      ¬ Interval.Meets range.start range.length (physical ||| window) n := by
  obtain ⟨hl, hend, hranges⟩ := h
  intro range hrange window hw hmeets
  rw [hranges] at hrange
  obtain ⟨window', hw', hstart, hlength⟩ := mem_aliasRanges.mp hrange
  rw [hstart, hlength, lor_window (by omega) hw, lor_window (by omega) hw'] at hmeets
  obtain ⟨h₁, h₂⟩ := hmeets
  have hsame : window = window' := by
    simp only [ramWindows, List.mem_cons, List.not_mem_nil, or_false] at hw hw'
    omega
  subst hsame
  exact hapart ⟨by omega, by omega⟩

/-- The one registration of a range that is still pending. -/
theorem StoreInv.unique_pending {m : Machine π} (h : StoreInv m) {node : ℕ × Entry}
    (hnode : node ∈ m.ranges) (hpending : node.2.token ∉ m.materialised) :
    ∃ read ∈ m.registry.reads, read.token = node.2.token ∧
      read.ranges.map (fun range => (range.start, range.length)) =
        aliasesOf node.1 node.2.bytes ∧
      ∀ other ∈ m.registry.reads, other.token = node.2.token ∨
        Interval.Meets node.1 node.2.bytes (physicalOf other.user.address) other.user.bytes →
        other = read := by
  obtain ⟨read, hread, htoken, hstart, hbytes⟩ := h.pending node hnode hpending
  refine ⟨read, hread, htoken.symm, ?_, ?_⟩
  · rw [(h.registry.aliased read hread).ranges_eq, hstart, hbytes]
  · rintro other hother (htoken' | hmeets)
    · exact h.registry.eq_of_token_eq hother hread (htoken'.trans htoken)
    · by_contra hne
      rw [hstart, hbytes] at hmeets
      exact h.reads_apart hread hother (Ne.symm hne) hmeets

/-- After a publication the new range is the only one that meets the bytes of the copy. -/
theorem StoreInv.publish_range {m m' : Machine π} {faults : Faults} {address : ℕ}
    {copy : Option (GxColorCopy π)} (h : StoreInv m)
    (hpublish : Gpu.publish rt be faults address copy m = (m', true)) :
    ∃ c bytes, copy = some c ∧ nativeColorCopyBytes be c = some bytes ∧
      ∃ node ∈ m'.ranges, node.1 = physicalOf address ∧ node.2.bytes = bytes ∧
        m.registry.nextToken ≤ node.2.token ∧
        ∀ node' ∈ m'.ranges,
          Interval.Meets node'.1 node'.2.bytes (physicalOf address) bytes → node' = node := by
  obtain ⟨-, hok⟩ | ⟨c, bytes, incoming, m₁, done, hcopy, hbytes, hram, hpart, hend⟩ :=
    publish_cases hpublish
  · cases hok
  · have hnodes : ∀ node ∈ m.ranges, 0 < node.2.bytes ∧ node.1 + node.2.bytes ≤ 0x18000000 :=
      fun node hnode => ⟨(h.valid node hnode).1, (h.valid node hnode).2.1⟩
    have hmany := (resolvePartial_spec h hnodes hpart).1
    have h₁ := h.materialisesMany hmany
    obtain ⟨-, hok⟩ | ⟨-, hphysical, read, huser, hidle, haliased, hlast⟩ := hend
    · cases hok
    · obtain ⟨-, hok⟩ | ⟨rfl, -⟩ := hlast
      · cases hok
      · obtain ⟨rfl, -, hpos, -⟩ := checkedRam_valid hram
        obtain ⟨token, hle, htoken, m', hm', -, -, -, hranges, -, -, -⟩ :=
          commit_spec rt h₁ hpos hidle haliased
            (Function.update m₁.copies incoming.host (some c))
        rw [htoken, ← hm']
        refine ⟨c, _, hcopy, hbytes, _, hranges.mem_iff.mpr List.mem_cons_self, hphysical.symm,
          rfl, hmany.frame.2.2.1 ▸ hle, ?_⟩
        intro node' hnode' hmeets
        rcases List.mem_cons.mp (hranges.mem_iff.mp hnode') with rfl | hnode'
        · rfl
        · obtain ⟨-, hmiss⟩ := List.mem_filter.mp hnode'
          rw [hphysical] at hmeets
          exact absurd hmeets (of_decide_eq_true hmiss)

/-- After `prepare_write` nothing of the store meets the bytes about to be written. -/
theorem StoreInv.prepareWrite_clears {m m' : Machine π} {faults : Faults} {address bytes : ℕ}
    (h : StoreInv m) (hpos : 0 < bytes)
    (hprepare : Gpu.prepareWrite rt be faults address bytes m = (m', true)) :
    (∀ node ∈ m'.ranges, ¬ Interval.Meets node.1 node.2.bytes
        (be.canonicalizeGxMainRamAddress address) bytes) ∧
    (∀ range ∈ pendingRanges m'.registry.reads, ∀ window ∈ ramWindows,
      ¬ Interval.Meets range.start range.length
        (be.canonicalizeGxMainRamAddress address ||| window) bytes) ∧
    ∀ node ∈ m.ranges, Interval.Meets node.1 node.2.bytes
      (be.canonicalizeGxMainRamAddress address) bytes →
      m'.copies node.2.destination = none := by
  obtain ⟨-, hzero⟩ | ⟨range, m₁, done, hram, hresolve, hend⟩ := prepareWrite_cases hprepare
  · exact absurd (hzero rfl) (by omega)
  · obtain ⟨-, -, hok⟩ | ⟨rfl, rfl, -⟩ := hend
    · cases hok
    · have hmany := (resolveDeferredReads_spec h.registry hresolve).1
      have h₁ := h.materialisesMany hmany
      have hclear := resolve_checkedRam h.registry hram hresolve
      obtain ⟨hinv, hranges, hregistry, -, hviews⟩ := h₁.retirePrepared hclear
      obtain ⟨rfl, hphysical, -, hle⟩ := checkedRam_valid hram
      rw [← hphysical]
      refine ⟨?_, ?_, ?_⟩
      · intro node hnode
        rw [hranges] at hnode
        exact of_decide_eq_true (List.mem_filter.mp hnode).2
      · intro pending hpending
        rw [hregistry] at hpending
        obtain ⟨read, hread, hmem⟩ := mem_pendingRanges.mp hpending
        exact (h₁.registry.aliased read hread).alias_apart hpos hle (hclear read hread) pending hmem
      · intro node hnode hmeets
        rw [← hmany.frame.1] at hnode
        by_contra hview
        exact (hviews _ (Option.isSome_iff_ne_none.mpr hview)).2 node hnode hmeets rfl

/-- In every state of every run: the tracked ranges are apart; a tracked range not yet written
to RAM has exactly one registration, with its three aliases, and every registration and
every cached view belongs to a tracked range; a publication leaves its own range alone on
its bytes, and `prepare_write` leaves nothing on the bytes it prepares. -/
theorem copy_store_bookkeeping {m : Machine π} (hm : m.Reachable rt be) :
    m.ranges.Pairwise Apart ∧
    (∀ node ∈ m.ranges, node.2.token ∉ m.materialised →
      ∃ read ∈ m.registry.reads, read.token = node.2.token ∧
        read.ranges.map (fun range => (range.start, range.length)) =
          aliasesOf node.1 node.2.bytes ∧
        ∀ other ∈ m.registry.reads, other.token = node.2.token ∨
          Interval.Meets node.1 node.2.bytes (physicalOf other.user.address) other.user.bytes →
          other = read) ∧
    (∀ read ∈ m.registry.reads, ∃ node ∈ m.ranges, Tracks node read ∧
      node.2.token ∉ m.materialised) ∧
    (∀ destination, (m.copies destination).isSome →
      ∃ node ∈ m.ranges, node.2.destination = destination) ∧
    (∀ faults address copy m', publish rt be faults address copy m = (m', true) →
      ∃ c bytes, copy = some c ∧ nativeColorCopyBytes be c = some bytes ∧
        ∃ node ∈ m'.ranges, node.1 = physicalOf address ∧ node.2.bytes = bytes ∧
          m.registry.nextToken ≤ node.2.token ∧
          ∀ node' ∈ m'.ranges,
            Interval.Meets node'.1 node'.2.bytes (physicalOf address) bytes → node' = node) ∧
    (∀ faults address bytes m', 0 < bytes →
      prepareWrite rt be faults address bytes m = (m', true) →
      (∀ node ∈ m'.ranges, ¬ Interval.Meets node.1 node.2.bytes
          (be.canonicalizeGxMainRamAddress address) bytes) ∧
      (∀ range ∈ pendingRanges m'.registry.reads, ∀ window ∈ ramWindows,
        ¬ Interval.Meets range.start range.length
          (be.canonicalizeGxMainRamAddress address ||| window) bytes) ∧
      (∀ destination, (m'.copies destination).isSome →
        ∃ node ∈ m'.ranges, node.2.destination = destination) ∧
      ∀ node ∈ m.ranges, Interval.Meets node.1 node.2.bytes
        (be.canonicalizeGxMainRamAddress address) bytes →
        m'.copies node.2.destination = none) := by
  have h := hm.inv
  refine ⟨h.apart, fun node hnode hpending => h.unique_pending hnode hpending, ?_, h.viewed,
    fun faults address copy m' hpublish => h.publish_range hpublish, ?_⟩
  · intro read hread
    obtain ⟨node, hnode, htracks⟩ := h.tracked read hread
    exact ⟨node, hnode, htracks, htracks.1 ▸ h.ended read hread⟩
  · intro faults address bytes m' hpos hprepare
    obtain ⟨hranges, hreads, hviews⟩ := h.prepareWrite_clears hpos hprepare
    exact ⟨hranges, hreads, (h.prepareWrite hprepare).viewed, hviews⟩

theorem Machine.empty_initial : Machine.empty.Initial :=
  ⟨rfl, fun _ => rfl, fun _ => rfl, fun _ => rfl, rfl, rfl⟩

/-- The store after one publication. -/
def published : Machine UInt8 :=
  (Machine.empty.step .ramOnly .flat
    (.publish .none 0x80300000 (some (.flat 0x11)))).1

theorem published_reachable : published.Reachable .ramOnly .flat :=
  .step _ (.initial Machine.empty_initial)

theorem copy_store_bookkeeping_published : ∃ read ∈ published.registry.reads, read.token = 1 ∧
    read.ranges.map (fun range => (range.start, range.length)) =
      [(0x300000, 16), (0x80300000, 16), (0xc0300000, 16)] := by
  have hnode : (⟨0x300000, ⟨16, 1, 0x300001⟩⟩ : ℕ × Entry) ∈ published.ranges :=
    List.mem_singleton.mpr rfl
  obtain ⟨read, hread, htoken, hranges, -⟩ :=
    (copy_store_bookkeeping published_reachable).2.1 _ hnode List.not_mem_nil
  exact ⟨read, hread, htoken, hranges⟩

end Gpu
