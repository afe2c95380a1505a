import MkwiiPs5.Gx.GeometryBounds

/-!
# Snapshots are sufficient

A snapshot captures, of every array that the records index, the bytes from the smallest to the largest
element they refer to; the reference decoder reads nothing else.
-/

namespace Gx

open Bytes (slice number)
open Loop (bind_eq_ok)

/-! ### Scanning the indices -/

/-- The loop over records with one index is the loop over groups with one group. -/
theorem scan_one (records : List UInt8) (count stride offset width : ℕ) :
    (List.range count).foldlM (fun range v => scanIndex records width range (v * stride + offset))
        (UINT32_MAX, 0) =
      scanGroups records count stride offset width 1 := by
  rw [scanGroups]
  congr 1
  funext range v
  rw [List.range_one, List.foldlM_cons, Nat.zero_mul, Nat.add_zero]
  cases scanIndex records width range (v * stride + offset) <;> rfl

/-- The three loops find the same. -/
theorem scanIndices_eq {records : List UInt8} {count stride : ℕ} {d : AttributeLayout} :
    scanIndices records count stride d =
      scanGroups records count stride d.offset (indexWidth d.mode) d.indexCount := by
  rw [scanIndices]
  split
  · next h => rw [h.1, h.2, scan16, scan_one]
  · split
    · next h => rw [h.1, h.2, scan8, scan_one]
    · rfl

/-- The index at a position is read, and in the range. -/
def InRange (records : List UInt8) (width position : ℕ) (range : ℕ × ℕ) : Prop :=
  position + width ≤ records.length ∧
    range.1 ≤ number false (slice records position width) ∧
    number false (slice records position width) ≤ range.2

theorem scanIndex_spec {records : List UInt8} {width position : ℕ} {range range' : ℕ × ℕ}
    (h : scanIndex records width range position = .ok range') :
    InRange records width position range' ∧ range'.1 ≤ range.1 ∧ range.2 ≤ range'.2 ∧
      (range.2 < 256 ^ width → range'.2 < 256 ^ width) := by
  obtain ⟨index, hindex, hrange⟩ := bind_eq_ok.1 h
  obtain rfl := Except.ok.inj hrange
  obtain ⟨hle, hlt⟩ := readUint_lt hindex
  have hvalue : index = number false (slice records position width) := by
    rw [readUint_ok hle] at hindex
    exact (Except.ok.inj hindex).symm
  refine ⟨⟨hle, ?_, ?_⟩, min_le_left _ _, le_max_left _ _, fun hbound => max_lt hbound hlt⟩
  · rw [← hvalue]
    exact min_le_right _ _
  · rw [← hvalue]
    exact le_max_right _ _

theorem InRange.mono {records : List UInt8} {width position : ℕ} {range range' : ℕ × ℕ}
    (h : InRange records width position range) (hlo : range'.1 ≤ range.1)
    (hhi : range.2 ≤ range'.2) : InRange records width position range' :=
  ⟨h.1, hlo.trans h.2.1, h.2.2.trans hhi⟩

/-- The range holds the indices of all groups of all records. -/
theorem scanGroups_spec {records : List UInt8} {count stride offset width groups : ℕ}
    {range : ℕ × ℕ} (h : scanGroups records count stride offset width groups = .ok range) :
    (∀ v < count, ∀ group < groups,
      InRange records width (v * stride + offset + group * width) range) ∧
      range.2 < 256 ^ width := by
  refine Loop.foldlM_range_invariant (fun n range => (∀ v < n, ∀ group < groups,
    InRange records width (v * stride + offset + group * width) range) ∧ range.2 < 256 ^ width) h
    ⟨fun _ h => absurd h (Nat.not_lt_zero _), Nat.pos_of_ne_zero (by simp)⟩
    fun n _ range range' hrange hturn => ?_
  have hgroups := Loop.foldlM_range_invariant (fun k range' =>
    (∀ group < k, InRange records width (n * stride + offset + group * width) range') ∧
      range'.1 ≤ range.1 ∧ range.2 ≤ range'.2 ∧ range'.2 < 256 ^ width) hturn
    ⟨fun _ h => absurd h (Nat.not_lt_zero _), le_rfl, le_rfl, hrange.2⟩
    fun k _ r r' hr hscan => ?_
  · obtain ⟨hnew, hlo, hhi, hbound⟩ := hgroups
    refine ⟨fun v hv group hgroup => ?_, hbound⟩
    by_cases heq : v = n
    · subst heq
      exact hnew group hgroup
    · exact (hrange.1 v (by omega) group hgroup).mono hlo hhi
  · obtain ⟨hpast, hlo, hhi, hbound⟩ := hr
    obtain ⟨hin, hlo', hhi', hbound'⟩ := scanIndex_spec hscan
    refine ⟨fun group hgroup => ?_, hlo'.trans hlo, hhi.trans hhi', hbound' hbound⟩
    by_cases heq : group = k
    · subst heq
      exact hin
    · exact (hpast group (by omega)).mono hlo' hhi'

/-! ### What is captured of an array -/

/-- Where a record holds the index of a group. -/
def AttributeLayout.indexOffset (d : AttributeLayout) (group : ℕ) : ℕ :=
  d.offset + if d.indexCount = 3 then group * indexWidth d.mode else 0

/-- The index of a group of a vertex. -/
def groupIndex (layout : VertexLayout) (records : List UInt8) (attr vertex group : ℕ) : ℕ :=
  let d := layout.attributes attr
  number false (slice records (vertex * layout.stride + d.indexOffset group) (indexWidth d.mode))

/-- The part of an array that a snapshot has: what the resolver gave of an interval inside of the
array, with the elements of all vertices. -/
structure Captured (layout : VertexLayout) (v : VertexState) (count : ℕ) (records : List UInt8)
    (resolve : Resolver) (attr : ℕ) (snapshot : ArraySnapshot) (resolved : List UInt8) : Prop where
  asked : resolve attr (v.arrays attr) snapshot.sourceOffset snapshot.bytes.length = .ok resolved
  declared : snapshot.sourceOffset + snapshot.bytes.length ≤ (v.arrays attr).size.toNat
  bytes : ∀ i < snapshot.bytes.length, snapshot.bytes[i]? = resolved[i]?
  exact : ∃ lo hi, scanIndices records count layout.stride (layout.attributes attr) = .ok (lo, hi) ∧
    snapshot.sourceOffset = lo * (layout.attributes attr).arrayStride ∧
    snapshot.sourceOffset + snapshot.bytes.length =
      hi * (layout.attributes attr).arrayStride + (layout.attributes attr).elementBytes
  elements : ∀ vertex < count, ∀ group < groupCount attr (layout.attributes attr),
    snapshot.sourceOffset ≤
      groupIndex layout records attr vertex group * (layout.attributes attr).arrayStride ∧
    groupIndex layout records attr vertex group * (layout.attributes attr).arrayStride +
        (layout.attributes attr).elementBytes ≤
      snapshot.sourceOffset + snapshot.bytes.length

/-- The loops read inside of the records. -/
theorem scanIndices_ok {records : List UInt8} {count stride : ℕ} {d : AttributeLayout}
    (hrecords : records.length = count * stride)
    (hwithin : d.offset + d.indexCount * indexWidth d.mode ≤ stride) :
    ∃ range, scanIndices records count stride d = .ok range := by
  rw [scanIndices_eq]
  have hloop := Loop.foldlM_range_total (fun _ _ => True) (n := count) (s := (UINT32_MAX, 0))
    (f := fun range v => (List.range d.indexCount).foldlM (fun range group =>
      scanIndex records (indexWidth d.mode) range
        (v * stride + d.offset + group * indexWidth d.mode)) range)
    trivial fun v hv range _ => ?_
  · obtain ⟨range, hrange, -⟩ := hloop
    exact ⟨range, hrange⟩
  refine Loop.foldlM_range_total (fun _ _ => True) trivial fun group hgroup range _ => ?_
  have hrecord := Nat.mul_le_mul_right stride hv
  have hindex := Nat.mul_le_mul_right (indexWidth d.mode) hgroup
  rw [Nat.succ_mul] at hrecord hindex
  refine ⟨_, bind_eq_ok.2 ⟨_, readUint_ok (by omega) _, rfl⟩, trivial⟩

theorem mode_ne_none {d : AttributeLayout} (h : d.indexed = true) : d.mode ≠ GX_NONE := by
  intro hnone
  rw [AttributeLayout.indexed, hnone] at h
  cases h

theorem indexWidth_le (mode : ℕ) : 1 ≤ indexWidth mode ∧ indexWidth mode ≤ 2 := by
  rw [indexWidth]
  split <;> omega

/-- The groups that are decoded have been scanned. -/
theorem AttributeFits.scanned {attr : ℕ} {d : AttributeLayout} (h : AttributeFits attr d)
    {group : ℕ} (hgroup : group < groupCount attr d) :
    ∃ k < d.indexCount, d.indexOffset group = d.offset + k * indexWidth d.mode := by
  rw [AttributeLayout.indexOffset]
  split
  · next hthree =>
    refine ⟨group, ?_, rfl⟩
    rw [groupCount] at hgroup
    split at hgroup <;> omega
  · refine ⟨0, by have := h.sizes; omega, ?_⟩
    rw [Nat.zero_mul]

theorem sub64_eq {x y : ℕ} (hle : y ≤ x) (hlt : x < 2 ^ 64) : sub64 x y = x - y := by
  rw [sub64, Nat.mod_eq_of_lt (by omega : y < 2 ^ 64)]
  omega

/-- No interval of an array wraps: an index has sixteen bits, and a stride eight. -/
theorem interval_eq {lo hi stride element : ℕ} (hlo : lo ≤ hi) (hhi : hi < 65536)
    (hstride : stride < 256) (helement : element ≤ 36) :
    u64 (lo * stride) = lo * stride ∧ u64 (hi * stride + element) = hi * stride + element ∧
      u32 (lo * stride) = lo * stride ∧
      sub64 (hi * stride + element) (lo * stride) = hi * stride + element - lo * stride ∧
      u32 (hi * stride + element - lo * stride) = hi * stride + element - lo * stride ∧
      lo * stride ≤ hi * stride := by
  have hmono : lo * stride ≤ hi * stride := Nat.mul_le_mul_right stride hlo
  have hbound : hi * stride ≤ 65535 * 255 := Nat.mul_le_mul (by omega) (by omega)
  exact ⟨Nat.mod_eq_of_lt (by omega), Nat.mod_eq_of_lt (by omega), Nat.mod_eq_of_lt (by omega),
    sub64_eq (by omega) (by omega), Nat.mod_eq_of_lt (by omega), hmono⟩

/-- The interval that is asked of an array is exact. -/
theorem AttributeFits.interval {attr : ℕ} {d : AttributeLayout} (h : AttributeFits attr d)
    {records : List UInt8} {count stride : ℕ} {range : ℕ × ℕ} (hcount : 0 < count)
    (hscan : scanIndices records count stride d = .ok range) :
    u64 (range.1 * d.arrayStride) = range.1 * d.arrayStride ∧
      u64 (range.2 * d.arrayStride + d.elementBytes) = range.2 * d.arrayStride + d.elementBytes ∧
      u32 (range.1 * d.arrayStride) = range.1 * d.arrayStride ∧
      sub64 (range.2 * d.arrayStride + d.elementBytes) (range.1 * d.arrayStride) =
        range.2 * d.arrayStride + d.elementBytes - range.1 * d.arrayStride ∧
      u32 (range.2 * d.arrayStride + d.elementBytes - range.1 * d.arrayStride) =
        range.2 * d.arrayStride + d.elementBytes - range.1 * d.arrayStride ∧
      range.1 * d.arrayStride ≤ range.2 * d.arrayStride := by
  obtain ⟨hranges, hbound⟩ := scanGroups_spec (scanIndices_eq.symm.trans hscan)
  obtain ⟨-, hmin, hmax⟩ := hranges 0 hcount 0 h.sizes.2.2.1
  have hwidth : 256 ^ indexWidth d.mode ≤ 256 ^ 2 :=
    Nat.pow_le_pow_right (Nat.zero_lt_succ 255) (indexWidth_le d.mode).2
  exact interval_eq (hmin.trans hmax) (hbound.trans_le hwidth) h.arrayStride h.elementBytes_le

theorem snapshotArray_spec {layout : VertexLayout} {v : VertexState} {count : ℕ}
    {records : List UInt8} {resolve : Resolver} {attr : ℕ} {snapshot : ArraySnapshot}
    (h : snapshotArray layout v count records resolve attr = .ok snapshot)
    (hfits : AttributeFits attr (layout.attributes attr)) (hcount : 0 < count) :
    ∃ resolved, Captured layout v count records resolve attr snapshot resolved := by
  obtain ⟨_, -, h⟩ := bind_eq_ok.1 h
  obtain ⟨_, -, h⟩ := bind_eq_ok.1 h
  obtain ⟨⟨lo, hi⟩, hscan, h⟩ := bind_eq_ok.1 h
  obtain ⟨_, hlast, h⟩ := bind_eq_ok.1 h
  obtain ⟨resolved, hresolved, h⟩ := bind_eq_ok.1 h
  obtain ⟨_, hlength, h⟩ := bind_eq_ok.1 h
  obtain rfl := Except.ok.inj h
  obtain ⟨hranges, -⟩ := scanGroups_spec (scanIndices_eq.symm.trans hscan)
  obtain ⟨hfirst, hend, hfirst32, hsub, hsub32, hmono⟩ := hfits.interval hcount hscan
  dsimp only at hfirst hend hfirst32 hsub hsub32 hmono
  simp only [hfirst, hend, hsub, hfirst32, hsub32, require_eq_ok, decide_eq_true_eq]
    at hresolved hlast hlength ⊢
  -- the resolver may return more than was asked for; the rest is cut off
  have htake : (resolved.take (hi * (layout.attributes attr).arrayStride +
      (layout.attributes attr).elementBytes - lo * (layout.attributes attr).arrayStride)).length =
      hi * (layout.attributes attr).arrayStride + (layout.attributes attr).elementBytes -
        lo * (layout.attributes attr).arrayStride := by
    rw [List.length_take]
    omega
  refine ⟨resolved, ?_, ?_, fun i hi => ?_, ⟨lo, hi, hscan, rfl, ?_⟩,
    fun vertex hvertex group hgroup => ?_⟩
  · simp only [htake]
    exact hresolved
  · simp only [htake]
    omega
  · simp only [htake] at hi ⊢
    exact List.getElem?_take_of_lt hi
  · simp only [htake]
    omega
  · simp only [htake]
    obtain ⟨k, hk, hoffset⟩ := hfits.scanned hgroup
    obtain ⟨-, hmin, hmax⟩ := hranges vertex hvertex k hk
    have hindex : groupIndex layout records attr vertex group =
        number false (slice records (vertex * layout.stride + (layout.attributes attr).offset +
          k * indexWidth (layout.attributes attr).mode)
          (indexWidth (layout.attributes attr).mode)) := by
      rw [groupIndex]
      simp only [hoffset, Nat.add_assoc]
    -- the smallest and the largest index enclose that of the vertex
    rw [← hindex] at hmin hmax
    have hlow := Nat.mul_le_mul_right (layout.attributes attr).arrayStride hmin
    have hhigh := Nat.mul_le_mul_right (layout.attributes attr).arrayStride hmax
    simp only at hlow hhigh
    omega

/-! ### Snapshots -/

/-- A geometry with all that its vertices refer to. -/
structure Sufficient (layout : VertexLayout) (v : VertexState) (resolve : Resolver) (g : Geometry) :
    Prop where
  layout_eq : g.layout = layout
  count_le : g.count ≤ UINT32_MAX
  records : g.records.length = g.count * layout.stride
  arrays : 0 < g.count → ∀ attr, GX_VA_POS ≤ attr → attr < GxGeometryAttributeCount →
    (layout.attributes attr).indexed = true →
      ∃ resolved, Captured layout v g.count g.records resolve attr (g.arrays attr) resolved

/-- The size of the records does not wrap. -/
theorem LaidOut.records_exact {v : VertexState} {format : ℕ} {layout : VertexLayout} {count : ℕ}
    (hlayout : LaidOut v format GxGeometryAttributeCount layout) (hcount : count ≤ UINT32_MAX) :
    u64 (count * layout.stride) = count * layout.stride := by
  have hstride := hlayout.stride_le
  rw [UINT32_MAX] at hcount
  rw [GxGeometryAttributeCount] at hstride
  have := Nat.mul_le_mul hcount hstride
  exact Nat.mod_eq_of_lt (by omega)

theorem snapshotRecords_spec {d : Decoded} {format : ℕ} {layout : VertexLayout} {count : ℕ}
    {records : List UInt8} {resolve : Resolver} {g : Geometry}
    (hlayout : LaidOut d.vertex format GxGeometryAttributeCount layout)
    (hcount : count ≤ UINT32_MAX)
    (h : snapshotRecords layout d count records resolve = .ok g) :
    Sufficient layout d.vertex resolve g ∧ g.count = count ∧ g.records = records ∧
      g.currentPnMtx = d.matrixIndices.currentPnMtx := by
  obtain ⟨_, hlength, h⟩ := bind_eq_ok.1 h
  obtain ⟨_, -, h⟩ := bind_eq_ok.1 h
  obtain ⟨arrays, harrays, h⟩ := bind_eq_ok.1 h
  obtain rfl := Except.ok.inj h
  rw [require_eq_ok, beq_iff_eq, hlayout.records_exact hcount] at hlength
  refine ⟨⟨rfl, hcount, hlength, fun hpos attr hlow hhigh hindexed => ?_⟩, rfl, rfl, rfl⟩
  rw [if_neg (Nat.ne_of_gt hpos)] at harrays
  have hfill := Loop.foldlM_update (p := fun attr => (layout.attributes attr).indexed)
    List.nodup_range' harrays
  have hmem : attr ∈ List.range' GX_VA_POS (GxGeometryAttributeCount - GX_VA_POS) := by
    rw [List.mem_range'_1]
    simp only [GX_VA_POS, GxGeometryAttributeCount] at *
    omega
  exact snapshotArray_spec (hfill.1 attr hmem hindexed)
    (hlayout.within hhigh (mode_ne_none hindexed)).1 hpos

/-! ### The decoder -/

theorem load_eq {bytes : List UInt8} {pos width : ℕ} (h : pos + width ≤ bytes.length)
    (little : Bool) : load bytes pos width little = .ok (number little (slice bytes pos width)) := by
  refine bind_eq_ok.2 ⟨(), ?_, ?_⟩
  · rw [require_eq_ok, Bool.and_eq_true, decide_eq_true_eq, decide_eq_true_eq]
    omega
  · rw [readUint_ok h, Bool.not_not]

variable {v : VertexState} {format : ℕ} {layout : VertexLayout} {resolve : Resolver} {g : Geometry}

/-- Bytes that hold a group. -/
def heldIn (g : Geometry) (attr : ℕ) : List UInt8 :=
  if (g.layout.attributes attr).indexed then (g.arrays attr).bytes else g.records

/-- Where a group starts in the bytes that hold it, without wrapping. -/
def groupAddress (g : Geometry) (attr vertex group : ℕ) : ℕ :=
  let d := g.layout.attributes attr
  if d.indexed then
    groupIndex g.layout g.records attr vertex group * d.arrayStride - (g.arrays attr).sourceOffset +
      groupOffset d group
  else vertex * g.layout.stride + d.offset + groupOffset d group

/-- Where an attribute of a vertex lies in the records. -/
theorem Sufficient.record_le (hg : Sufficient layout v resolve g)
    (hlayout : LaidOut v format GxGeometryAttributeCount layout) {vertex attr : ℕ}
    (hvertex : vertex < g.count) (hattr : attr < GxGeometryAttributeCount)
    (hmode : (layout.attributes attr).mode ≠ GX_NONE) :
    vertex * layout.stride + (layout.attributes attr).offset +
        (layout.attributes attr).recordBytes ≤ g.records.length ∧
      g.records.length < 2 ^ 42 := by
  obtain ⟨-, -, hwithin⟩ := hlayout.within hattr hmode
  have hstride := hlayout.stride_le
  have hcount := hg.count_le
  rw [GxGeometryAttributeCount] at hstride
  rw [UINT32_MAX] at hcount
  have htotal := Nat.mul_le_mul hcount hstride
  have hnext : vertex * layout.stride + layout.stride ≤ g.count * layout.stride := by
    rw [← Nat.succ_mul]
    exact Nat.mul_le_mul_right _ hvertex
  rw [hg.records]
  omega

/-- The index of a group is in the record. -/
theorem Sufficient.index_le (hg : Sufficient layout v resolve g)
    (hlayout : LaidOut v format GxGeometryAttributeCount layout) {vertex attr group : ℕ}
    (hvertex : vertex < g.count) (hattr : attr < GxGeometryAttributeCount)
    (hindexed : (layout.attributes attr).indexed = true)
    (hgroup : group < groupCount attr (layout.attributes attr)) :
    vertex * layout.stride + (layout.attributes attr).indexOffset group +
      indexWidth (layout.attributes attr).mode ≤ g.records.length := by
  have hmode := mode_ne_none hindexed
  obtain ⟨hrecord, -⟩ := hg.record_le hlayout hvertex hattr hmode
  obtain ⟨k, hk, hoffset⟩ := (hlayout.within hattr hmode).1.scanned hgroup
  have hnext := Nat.mul_le_mul_right (indexWidth (layout.attributes attr).mode) hk
  have hbytes : (layout.attributes attr).recordBytes =
      (layout.attributes attr).indexCount * indexWidth (layout.attributes attr).mode := by
    rw [AttributeLayout.recordBytes, if_neg hmode, if_neg, Nat.mul_comm]
    intro hdirect
    rw [AttributeLayout.indexed, hdirect] at hindexed
    cases hindexed
  rw [hoffset]
  rw [Nat.succ_mul] at hnext
  omega

/-- The source of a group, and that its bytes are there. -/
theorem Sufficient.groupSource_eq (hg : Sufficient layout v resolve g)
    (hlayout : LaidOut v format GxGeometryAttributeCount layout) {vertex attr group : ℕ}
    (hvertex : vertex < g.count) (hlow : GX_VA_POS ≤ attr)
    (hattr : attr < GxGeometryAttributeCount)
    (hmode : (layout.attributes attr).mode ≠ GX_NONE)
    (hgroup : group < groupCount attr (layout.attributes attr)) :
    groupSource g attr (layout.attributes attr)
        (u64 (vertex * layout.stride + (layout.attributes attr).offset)) group =
      .ok (heldIn g attr, groupAddress g attr vertex group,
        (layout.attributes attr).indexed && (layout.attributes attr).arrayLittleEndian) ∧
    groupAddress g attr vertex group + groupBytes attr (layout.attributes attr) ≤
      (heldIn g attr).length ∧ (heldIn g attr).length < 2 ^ 42 := by
  obtain ⟨hfits, -, -⟩ := hlayout.within hattr hmode
  obtain ⟨hrecord, hbound⟩ := hg.record_le hlayout hvertex hattr hmode
  have hgroupLe := hfits.group_le hlow hgroup
  have hpos : u64 (vertex * layout.stride + (layout.attributes attr).offset) =
      vertex * layout.stride + (layout.attributes attr).offset := Nat.mod_eq_of_lt (by omega)
  rw [hpos, groupSource, heldIn, groupAddress, hg.layout_eq]
  rw [heldBytes] at hgroupLe
  cases hindexed : (layout.attributes attr).indexed with
  -- a direct attribute is in the record itself
  | false =>
    rw [hindexed] at hgroupLe
    simp only [Bool.false_eq_true, if_false, Bool.false_and] at hgroupLe ⊢
    have hoffset : groupOffset (layout.attributes attr) group =
        group * 3 * (layout.attributes attr).componentBytes := by
      rw [groupOffset, hindexed, if_neg fun hand => Bool.false_ne_true hand.1]
    rw [hoffset] at hgroupLe ⊢
    refine ⟨?_, by omega, hbound⟩
    rw [u64, Nat.mod_eq_of_lt (by omega)]
    rfl
  | true =>
    -- an indexed one is at its index in the array, less the offset of what was captured
    rw [hindexed] at hgroupLe
    simp only [if_true, Bool.true_and] at hgroupLe ⊢
    obtain ⟨resolved, hcaptured⟩ :=
      hg.arrays (Nat.zero_lt_of_lt hvertex) attr hlow hattr hindexed
    obtain ⟨hfirst, hlast⟩ := hcaptured.elements vertex hvertex group hgroup
    have hdeclared := hcaptured.declared
    have hsize := (v.arrays attr).size.toNat_lt
    have hindex := hg.index_le hlayout hvertex hattr hindexed hgroup
    have hread : load g.records (vertex * layout.stride + (layout.attributes attr).offset +
        if (layout.attributes attr).indexCount = 3 then
          group * indexWidth (layout.attributes attr).mode else 0)
          (indexWidth (layout.attributes attr).mode) false =
        .ok (groupIndex layout g.records attr vertex group) := by
      rw [Nat.add_assoc]
      exact load_eq hindex false
    have hoffset : groupOffset (layout.attributes attr) group =
        if (layout.attributes attr).indexCount = 3 then 0
        else group * 3 * (layout.attributes attr).componentBytes := by
      rw [groupOffset, hindexed]
      simp only [true_and]
    rw [hread]
    refine ⟨?_, by omega, by omega⟩
    rw [← hoffset]
    have hproduct : u64 (groupIndex layout g.records attr vertex group *
        (layout.attributes attr).arrayStride) =
        groupIndex layout g.records attr vertex group * (layout.attributes attr).arrayStride :=
      Nat.mod_eq_of_lt (by omega)
    have haddress : u64 (groupIndex layout g.records attr vertex group *
          (layout.attributes attr).arrayStride - (g.arrays attr).sourceOffset +
          groupOffset (layout.attributes attr) group) =
        groupIndex layout g.records attr vertex group * (layout.attributes attr).arrayStride -
          (g.arrays attr).sourceOffset + groupOffset (layout.attributes attr) group :=
      Nat.mod_eq_of_lt (by omega)
    change Except.ok _ = _
    rw [hproduct, sub64_eq hfirst (by omega), haddress]

end Gx
