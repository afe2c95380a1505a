import MkwiiPs5.Gx.GeometrySnapshots

/-!
# Snapshots can be decoded

The reference decoder finds all that it reads in a snapshot, and a snapshot depends on nothing outside
of the declared arrays.
-/

namespace Gx

open Bytes (slice number)
open Loop (bind_eq_ok exists_bind)

/-! ### Numbers and colours -/

theorem component_ok {bytes : List UInt8} {pos : ℕ} {d : AttributeLayout}
    (h : pos + d.componentBytes ≤ bytes.length) (little : Bool) :
    ∃ value, component bytes pos d little = .ok value := by
  refine exists_bind (load_eq h little) ?_
  split <;> exact ⟨_, rfl⟩

/-- Bytes that the three or four loads of a colour read. -/
theorem colorBytes_eq {type : ℕ} (h : type = GX_RGB8 ∨ type = GX_RGBX8 ∨ type = GX_RGBA8) :
    3 ≤ colorBytes type ∧ (type = GX_RGBA8 → colorBytes type = 4) := by
  rcases h with rfl | rfl | rfl <;> decide

theorem colorValue_ok {bytes : List UInt8} {pos : ℕ} {d : AttributeLayout}
    (hbytes : d.componentBytes = colorBytes d.type) (h : pos + d.componentBytes ≤ bytes.length)
    (little : Bool) : ∃ color, colorValue bytes pos d little = .ok color := by
  rw [colorValue]
  split
  · next hthree =>
    obtain ⟨hle, hfour⟩ := colorBytes_eq hthree
    refine exists_bind (load_eq (by omega) true) (exists_bind (load_eq (by omega) true)
      (exists_bind (load_eq (by omega) true) ?_))
    split
    · next halpha =>
      have := hfour halpha
      exact exists_bind (load_eq (by omega) true) ⟨_, rfl⟩
    · exact ⟨_, rfl⟩
  · refine exists_bind (load_eq h little) ?_
    split
    · exact ⟨_, rfl⟩
    · split <;> exact ⟨_, rfl⟩

/-! ### Vertices -/

variable {v : VertexState} {format : ℕ} {layout : VertexLayout} {resolve : Resolver} {g : Geometry}

/-- A component of a group is where the decoder looks for it. -/
theorem Sufficient.component_le (hg : Sufficient layout v resolve g)
    (hlayout : LaidOut v format GxGeometryAttributeCount layout) {vertex attr group c : ℕ}
    (hvertex : vertex < g.count) (hlow : GX_VA_POS ≤ attr)
    (hattr : attr < GxGeometryAttributeCount)
    (hmode : (layout.attributes attr).mode ≠ GX_NONE)
    (hgroup : group < groupCount attr (layout.attributes attr))
    (hcolor : isColor attr = false) (hc : c < groupComponents attr (layout.attributes attr)) :
    u64 (groupAddress g attr vertex group + c * (layout.attributes attr).componentBytes) =
      groupAddress g attr vertex group + c * (layout.attributes attr).componentBytes ∧
    groupAddress g attr vertex group + c * (layout.attributes attr).componentBytes +
      (layout.attributes attr).componentBytes ≤ (heldIn g attr).length := by
  obtain ⟨-, hwithin, hbound⟩ := hg.groupSource_eq hlayout hvertex hlow hattr hmode hgroup
  rw [groupBytes, hcolor, if_neg Bool.false_ne_true] at hwithin
  have hnext := Nat.mul_le_mul_right (layout.attributes attr).componentBytes hc
  rw [Nat.succ_mul] at hnext
  exact ⟨Nat.mod_eq_of_lt (by omega), by omega⟩

theorem Sufficient.decodeGroup_ok (hg : Sufficient layout v resolve g)
    (hlayout : LaidOut v format GxGeometryAttributeCount layout) {vertex attr group : ℕ}
    (hvertex : vertex < g.count) (hlow : GX_VA_POS ≤ attr)
    (hattr : attr < GxGeometryAttributeCount)
    (hmode : (layout.attributes attr).mode ≠ GX_NONE)
    (hgroup : group < groupCount attr (layout.attributes attr)) (out : DecodedVertex) :
    ∃ out', decodeGroup g attr (layout.attributes attr)
      (u64 (vertex * layout.stride + (layout.attributes attr).offset)) out group = .ok out' := by
  obtain ⟨hsource, hwithin, -⟩ := hg.groupSource_eq hlayout hvertex hlow hattr hmode hgroup
  have hfits := (hlayout.within hattr hmode).1
  rw [decodeGroup, hsource]
  simp only [bind, Except.bind]
  cases hcolor : isColor attr with
  | true =>
    rw [groupBytes, hcolor, if_pos rfl] at hwithin
    obtain ⟨color, hok⟩ := colorValue_ok (hfits.color hcolor).2.2.1 hwithin
      ((layout.attributes attr).indexed && (layout.attributes attr).arrayLittleEndian)
    rw [if_pos rfl, hok]
    exact ⟨_, rfl⟩
  | false =>
    rw [if_neg Bool.false_ne_true]
    obtain ⟨out', hout, -⟩ := Loop.foldlM_range_total (fun _ _ => True) (s := out)
      (f := fun out c => do
        let value ← component (heldIn g attr)
          (u64 (groupAddress g attr vertex group + c * (layout.attributes attr).componentBytes))
          (layout.attributes attr)
          ((layout.attributes attr).indexed && (layout.attributes attr).arrayLittleEndian)
        pure (out.setComponent attr group c value)) trivial fun c hc out _ => by
        obtain ⟨haddress, hle⟩ :=
          hg.component_le hlayout hvertex hlow hattr hmode hgroup hcolor hc
        obtain ⟨value, hvalue⟩ := component_ok hle
          ((layout.attributes attr).indexed && (layout.attributes attr).arrayLittleEndian)
        refine ⟨_, bind_eq_ok.2 ⟨value, ?_, rfl⟩, trivial⟩
        rw [haddress]
        exact hvalue
    exact ⟨out', hout⟩

theorem Sufficient.decodeAttribute_ok (hg : Sufficient layout v resolve g)
    (hlayout : LaidOut v format GxGeometryAttributeCount layout) {vertex attr : ℕ}
    (hvertex : vertex < g.count) (hattr : attr < GxGeometryAttributeCount) (out : DecodedVertex) :
    ∃ out', decodeAttribute g vertex out attr = .ok out' := by
  rw [decodeAttribute, hg.layout_eq]
  by_cases hmode : (layout.attributes attr).mode = GX_NONE
  · exact ⟨out, if_pos hmode⟩
  dsimp only
  rw [if_neg hmode]
  by_cases hlow : attr < GX_VA_POS
  · -- a matrix index is one byte of the record
    obtain ⟨hrecord, hbound⟩ := hg.record_le hlayout hvertex hattr hmode
    obtain ⟨hdirect, hcomponents, hbytes, -, -⟩ := (hlayout.within hattr hmode).1.matrix hlow
    rw [AttributeLayout.recordBytes, if_neg hmode, if_pos hdirect, hcomponents, hbytes] at hrecord
    rw [if_pos hlow, u64, Nat.mod_eq_of_lt (by omega)]
    refine exists_bind (load_eq hrecord false) ?_
    split <;> exact ⟨_, rfl⟩
  · rw [if_neg hlow]
    obtain ⟨out', hout, -⟩ := Loop.foldlM_range_total (fun _ _ => True) (s := out)
      (f := decodeGroup g attr (layout.attributes attr)
        (u64 (vertex * layout.stride + (layout.attributes attr).offset))) trivial
      fun group hgroup out _ => by
        obtain ⟨out', hout⟩ :=
          hg.decodeGroup_ok hlayout hvertex (Nat.le_of_not_lt hlow) hattr hmode hgroup out
        exact ⟨out', hout, trivial⟩
    refine exists_bind hout ?_
    split <;> exact ⟨_, rfl⟩

theorem Sufficient.decodeGxVertex_ok (hg : Sufficient layout v resolve g)
    (hlayout : LaidOut v format GxGeometryAttributeCount layout) {vertex : ℕ}
    (hvertex : vertex < g.count) : ∃ out, decodeGxVertex g vertex = .ok out := by
  obtain ⟨out, hout, -⟩ := Loop.foldlM_range_total (fun _ _ => True)
    (s := DecodedVertex.initial g.currentPnMtx) (f := decodeAttribute g vertex) trivial
    fun attr hattr out _ => by
      obtain ⟨out', hout⟩ := hg.decodeAttribute_ok hlayout hvertex hattr out
      exact ⟨out', hout, trivial⟩
  exact ⟨out, bind_eq_ok.2 ⟨(), require_eq_ok.2 (decide_eq_true hvertex), hout⟩⟩

/-! ### What is asked of the resolver -/

/-- Resolvers that agree on all intervals inside of the declared arrays. -/
def AgreeInside (v : VertexState) (resolve resolve' : Resolver) : Prop :=
  ∀ attr offset length, offset + length ≤ (v.arrays attr).size.toNat →
    resolve attr (v.arrays attr) offset length = resolve' attr (v.arrays attr) offset length

theorem snapshotArray_congr {resolve' : Resolver} {count attr : ℕ} {records : List UInt8}
    (hagree : AgreeInside v resolve resolve') (hfits : AttributeFits attr (layout.attributes attr))
    (hcount : 0 < count) :
    snapshotArray layout v count records resolve attr =
      snapshotArray layout v count records resolve' attr := by
  refine Loop.bind_congr fun _ _ => Loop.bind_congr fun _ _ => Loop.bind_congr fun range hscan =>
    Loop.bind_congr fun _ hlast => ?_
  obtain ⟨hfirst, hend, hfirst32, hsub, hsub32, hmono⟩ := hfits.interval hcount hscan
  rw [require_eq_ok, decide_eq_true_eq, hend] at hlast
  have hresolved : resolve attr (v.arrays attr)
      (u32 (u64 (range.1 * (layout.attributes attr).arrayStride)))
      (u32 (sub64 (u64 (range.2 * (layout.attributes attr).arrayStride +
        (layout.attributes attr).elementBytes))
        (u64 (range.1 * (layout.attributes attr).arrayStride)))) =
      resolve' attr (v.arrays attr)
      (u32 (u64 (range.1 * (layout.attributes attr).arrayStride)))
      (u32 (sub64 (u64 (range.2 * (layout.attributes attr).arrayStride +
        (layout.attributes attr).elementBytes))
        (u64 (range.1 * (layout.attributes attr).arrayStride)))) := by
    apply hagree
    rw [hfirst, hend, hsub, hfirst32, hsub32]
    omega
  rw [hresolved]

theorem snapshotRecords_congr {d : Decoded} {resolve' : Resolver} {count : ℕ}
    {records : List UInt8} (hlayout : LaidOut d.vertex format GxGeometryAttributeCount layout)
    (hagree : AgreeInside d.vertex resolve resolve') :
    snapshotRecords layout d count records resolve =
      snapshotRecords layout d count records resolve' := by
  refine Loop.bind_congr fun _ _ => Loop.bind_congr fun _ _ => ?_
  dsimp only
  congr 1
  refine Loop.foldlM_congr (fun attr hattr arrays => ?_) _
  split at hattr
  · cases hattr
  · next hcount =>
    rw [List.mem_range'_1] at hattr
    split
    · next hindexed =>
      have hmode := mode_ne_none hindexed
      have hbound : attr < GxGeometryAttributeCount := by
        simp only [GX_VA_POS, GxGeometryAttributeCount] at *
        omega
      rw [snapshotArray_congr hagree (hlayout.within hbound hmode).1 (Nat.pos_of_ne_zero hcount)]
    · rfl

/-! ### No snapshot reads outside of the records -/

theorem require_post (value : Bool) (why : String) :
    Loop.Post (require value why) (fun _ => value = true) (· ≠ Fault.outOfBounds) := by
  cases value with
  | true => rfl
  | false => exact nofun

theorem segmentIndices_post (base : ℕ) (segments : List DrawSegment) :
    Loop.Post (segmentIndices base segments) (fun _ => True) (· ≠ Fault.outOfBounds) := by
  induction segments generalizing base with
  | nil => trivial
  | cons segment segments ih =>
    refine Loop.Post.bind (Q := fun _ => True) ?_ fun _ _ => (ih _).bind fun _ _ => trivial
    rw [writeTriangleIndices]
    split
    · trivial
    · exact nofun

theorem snapshotArray_inside {count attr : ℕ} {records : List UInt8}
    (hresolve : ∀ attr a offset length, resolve attr a offset length ≠ .error .outOfBounds)
    (hrecords : records.length = count * layout.stride) :
    Loop.Post (snapshotArray layout v count records resolve attr) (fun _ => True)
      (· ≠ Fault.outOfBounds) := by
  refine (require_post _ _).bind fun _ _ => (require_post _ _).bind fun _ hwithin => ?_
  obtain ⟨⟨lo, hi⟩, hscan⟩ := scanIndices_ok hrecords (of_decide_eq_true hwithin)
  rw [hscan]
  refine (require_post _ _).bind fun _ _ => Loop.Post.bind (Q := fun _ => True) ?_ fun _ _ =>
    (require_post _ _).bind fun _ _ => trivial
  cases hresolved : resolve attr (v.arrays attr)
      (u32 (u64 (lo * (layout.attributes attr).arrayStride)))
      (u32 (sub64 (u64 (hi * (layout.attributes attr).arrayStride +
        (layout.attributes attr).elementBytes))
        (u64 (lo * (layout.attributes attr).arrayStride)))) with
  | ok bytes => trivial
  | error fault =>
    rintro rfl
    exact hresolve _ _ _ _ hresolved

theorem snapshotRecords_inside {d : Decoded} {count : ℕ} {records : List UInt8}
    (hlayout : LaidOut d.vertex format GxGeometryAttributeCount layout) (hcount : count ≤ UINT32_MAX)
    (hresolve : ∀ attr a offset length, resolve attr a offset length ≠ .error .outOfBounds) :
    Loop.Post (snapshotRecords layout d count records resolve) (fun _ => True)
      (· ≠ Fault.outOfBounds) := by
  refine (require_post _ _).bind fun _ hlength => (require_post _ _).bind fun _ _ => ?_
  rw [beq_iff_eq, hlayout.records_exact hcount] at hlength
  refine Loop.Post.bind (Q := fun _ => True) ?_ fun _ _ => trivial
  refine Loop.foldlM_post (fun _ => True) trivial fun attr _ arrays _ => ?_
  split
  · exact (snapshotArray_inside hresolve hlength).bind fun _ _ => trivial
  · trivial

/-! ### All together -/

/-- A geometry with the bytes of all that the decoder reads, at exact addresses. -/
structure Decodes (v : VertexState) (resolve : Resolver) (g : Geometry) : Prop where
  stride : g.layout.stride = g.layout.bytesBefore GxGeometryAttributeCount
  records : g.records.length = g.count * g.layout.stride
  /-- The attributes of a vertex lie in the records. -/
  record : ∀ vertex < g.count, ∀ attr < GxGeometryAttributeCount,
    (g.layout.attributes attr).mode ≠ GX_NONE →
      u64 (vertex * g.layout.stride + (g.layout.attributes attr).offset) =
        vertex * g.layout.stride + (g.layout.attributes attr).offset ∧
      vertex * g.layout.stride + (g.layout.attributes attr).offset +
        (g.layout.attributes attr).recordBytes ≤ g.records.length
  /-- So does the index of a group. -/
  index : ∀ vertex < g.count, ∀ attr < GxGeometryAttributeCount, GX_VA_POS ≤ attr →
    (g.layout.attributes attr).indexed = true →
      ∀ group < groupCount attr (g.layout.attributes attr),
        vertex * g.layout.stride + (g.layout.attributes attr).indexOffset group +
          indexWidth (g.layout.attributes attr).mode ≤ g.records.length
  /-- An indexed array is captured from an interval that is inside of it. -/
  captured : 0 < g.count → ∀ attr < GxGeometryAttributeCount, GX_VA_POS ≤ attr →
    (g.layout.attributes attr).indexed = true →
      ∃ resolved, Captured g.layout v g.count g.records resolve attr (g.arrays attr) resolved
  /-- Every component of every group is in the bytes that the decoder reads. -/
  group : ∀ vertex < g.count, ∀ attr < GxGeometryAttributeCount, GX_VA_POS ≤ attr →
    (g.layout.attributes attr).mode ≠ GX_NONE →
      ∀ group < groupCount attr (g.layout.attributes attr),
        groupSource g attr (g.layout.attributes attr)
            (vertex * g.layout.stride + (g.layout.attributes attr).offset) group =
          .ok (heldIn g attr, groupAddress g attr vertex group,
            (g.layout.attributes attr).indexed && (g.layout.attributes attr).arrayLittleEndian) ∧
        groupAddress g attr vertex group + groupBytes attr (g.layout.attributes attr) ≤
          (heldIn g attr).length ∧
        ∀ k < groupBytes attr (g.layout.attributes attr),
          u64 (groupAddress g attr vertex group + k) = groupAddress g attr vertex group + k
  /-- The bytes of an indexed group are those of the array at the index. -/
  bytes : ∀ vertex < g.count, ∀ attr < GxGeometryAttributeCount, GX_VA_POS ≤ attr →
    (g.layout.attributes attr).indexed = true →
      ∀ group < groupCount attr (g.layout.attributes attr), ∀ array : ℕ → UInt8,
        (∀ resolved, resolve attr (v.arrays attr) (g.arrays attr).sourceOffset
            (g.arrays attr).bytes.length = .ok resolved →
          ∀ i < resolved.length, resolved[i]? = some (array ((g.arrays attr).sourceOffset + i))) →
        ∀ k < groupBytes attr (g.layout.attributes attr),
          (g.arrays attr).bytes[groupAddress g attr vertex group + k]? =
            some (array (groupIndex g.layout g.records attr vertex group *
                (g.layout.attributes attr).arrayStride +
              groupOffset (g.layout.attributes attr) group + k))
  decodes : ∀ vertex < g.count, ∃ out, decodeGxVertex g vertex = .ok out

theorem Sufficient.decodes (hg : Sufficient layout v resolve g)
    (hlayout : LaidOut v format GxGeometryAttributeCount layout) : Decodes v resolve g := by
  obtain rfl := hg.layout_eq
  refine ⟨hlayout.stride, hg.records, fun vertex hvertex attr hattr hmode => ?_,
    fun vertex hvertex attr hattr _ hindexed group hgroup =>
      hg.index_le hlayout hvertex hattr hindexed hgroup,
    fun hcount attr hattr hlow hindexed => hg.arrays hcount attr hlow hattr hindexed,
    fun vertex hvertex attr hattr hlow hmode group hgroup => ?_,
    fun vertex hvertex attr hattr hlow hindexed group hgroup array harray k hk => ?_,
    fun vertex hvertex => hg.decodeGxVertex_ok hlayout hvertex⟩
  · obtain ⟨hrecord, hbound⟩ := hg.record_le hlayout hvertex hattr hmode
    exact ⟨Nat.mod_eq_of_lt (by omega), hrecord⟩
  · obtain ⟨hrecord, hbound⟩ := hg.record_le hlayout hvertex hattr hmode
    obtain ⟨hsource, hwithin, hlength⟩ :=
      hg.groupSource_eq hlayout hvertex hlow hattr hmode hgroup
    rw [u64, Nat.mod_eq_of_lt (by omega)] at hsource
    exact ⟨hsource, hwithin, fun k hk => Nat.mod_eq_of_lt (by omega)⟩
  · obtain ⟨-, hwithin, -⟩ :=
      hg.groupSource_eq hlayout hvertex hlow hattr (mode_ne_none hindexed) hgroup
    obtain ⟨resolved, hcaptured⟩ :=
      hg.arrays (Nat.zero_lt_of_lt hvertex) attr hlow hattr hindexed
    obtain ⟨hfirst, -⟩ := hcaptured.elements vertex hvertex group hgroup
    rw [heldIn, if_pos hindexed] at hwithin
    have haddress : (g.arrays attr).sourceOffset + (groupAddress g attr vertex group + k) =
        groupIndex g.layout g.records attr vertex group * (g.layout.attributes attr).arrayStride +
          groupOffset (g.layout.attributes attr) group + k := by
      rw [groupAddress]
      simp only [hindexed, if_true]
      omega
    have hk' : groupAddress g attr vertex group + k < (g.arrays attr).bytes.length := by omega
    have hresolved : groupAddress g attr vertex group + k < resolved.length := by
      by_contra hnot
      have hsame := hcaptured.bytes _ hk'
      rw [List.getElem?_eq_none (Nat.le_of_not_lt hnot), List.getElem?_eq_getElem hk'] at hsame
      cases hsame
    rw [hcaptured.bytes _ hk', harray resolved hcaptured.asked _ hresolved, haddress]

theorem snapshot_decodes {d : Decoded} {primitive : Primitive} {count : ℕ} {records : List UInt8}
    (hlayout : LaidOut d.vertex format GxGeometryAttributeCount layout) (hcount : count < 2 ^ 16)
    (h : snapshot layout d primitive count records resolve = .ok g) :
    g.records = records ∧ g.count = count ∧ Decodes d.vertex resolve g := by
  obtain ⟨out, hout, h⟩ := bind_eq_ok.1 h
  obtain rfl := Except.ok.inj h
  obtain ⟨hsufficient, hsame, hrecords, -⟩ :=
    snapshotRecords_spec hlayout (by rw [UINT32_MAX]; omega) hout
  refine ⟨hrecords, hsame, ?_⟩
  exact Sufficient.decodes ⟨hsufficient.layout_eq, hsufficient.count_le, hsufficient.records,
    hsufficient.arrays⟩ hlayout

theorem snapshotSegments_decodes {d : Decoded} {segments : List DrawSegment} {records : List UInt8}
    (hlayout : LaidOut d.vertex format GxGeometryAttributeCount layout)
    (h : snapshotSegments layout d segments records resolve = .ok g) :
    g.records = records ∧ g.count = (segments.map DrawSegment.count).sum ∧
      Decodes d.vertex resolve g := by
  obtain ⟨_, -, h⟩ := bind_eq_ok.1 h
  obtain ⟨_, htotal, h⟩ := bind_eq_ok.1 h
  obtain ⟨out, hout, h⟩ := bind_eq_ok.1 h
  obtain ⟨indices, -, h⟩ := bind_eq_ok.1 h
  obtain rfl := Except.ok.inj h
  rw [require_eq_ok, decide_eq_true_eq] at htotal
  have hexact : u32 (segments.map DrawSegment.count).sum =
      (segments.map DrawSegment.count).sum := by
    rw [UINT32_MAX] at htotal
    exact Nat.mod_eq_of_lt (by omega)
  rw [hexact] at hout
  obtain ⟨hsufficient, hsame, hrecords, -⟩ := snapshotRecords_spec hlayout htotal hout
  refine ⟨hrecords, hsame, ?_⟩
  exact Sufficient.decodes ⟨hsufficient.layout_eq, hsufficient.count_le, hsufficient.records,
    hsufficient.arrays⟩ hlayout

theorem snapshot_inside {d : Decoded} {primitive : Primitive} {count : ℕ} {records : List UInt8}
    (hlayout : LaidOut d.vertex format GxGeometryAttributeCount layout) (hcount : count < 2 ^ 16)
    (hresolve : ∀ attr a offset length, resolve attr a offset length ≠ .error .outOfBounds) :
    snapshot layout d primitive count records resolve ≠ .error .outOfBounds := by
  have hcount' : count ≤ UINT32_MAX := by
    rw [UINT32_MAX]
    omega
  refine ((snapshotRecords_inside hlayout hcount' hresolve).bind
    (R := fun _ => True) fun _ _ => ?_).ne_error
  trivial

theorem snapshotSegments_inside {d : Decoded} {segments : List DrawSegment} {records : List UInt8}
    (hlayout : LaidOut d.vertex format GxGeometryAttributeCount layout)
    (hresolve : ∀ attr a offset length, resolve attr a offset length ≠ .error .outOfBounds) :
    snapshotSegments layout d segments records resolve ≠ .error .outOfBounds := by
  refine ((require_post _ _).bind (R := fun _ => True) fun _ _ =>
    (require_post _ _).bind fun _ htotal => ?_).ne_error
  have hcount' : u32 (segments.map DrawSegment.count).sum ≤ UINT32_MAX := by
    have := Nat.mod_lt (segments.map DrawSegment.count).sum (Nat.two_pow_pos 32)
    rw [UINT32_MAX, u32]
    omega
  exact (snapshotRecords_inside hlayout hcount' hresolve).bind fun _ _ =>
    (segmentIndices_post _ _).bind fun _ _ => trivial

/-- A snapshot has all that the decoder reads, it asks for nothing outside of the declared arrays,
and no computation of it wraps. -/
theorem snapshots_sufficient {d : Decoded} (hbuild : VertexLayout.build d.vertex format = .ok layout)
    (records : List UInt8) (resolve : Resolver) :
    (∀ primitive count g, count < 2 ^ 16 →
      snapshot layout d primitive count records resolve = .ok g →
        g.records = records ∧ g.count = count ∧ Decodes d.vertex resolve g) ∧
    (∀ segments g, snapshotSegments layout d segments records resolve = .ok g →
      g.records = records ∧ g.count = (segments.map DrawSegment.count).sum ∧
        Decodes d.vertex resolve g) ∧
    (∀ resolve', AgreeInside d.vertex resolve resolve' →
      (∀ primitive count, snapshot layout d primitive count records resolve =
        snapshot layout d primitive count records resolve') ∧
      ∀ segments, snapshotSegments layout d segments records resolve =
        snapshotSegments layout d segments records resolve') ∧
    ((∀ attr a offset length, resolve attr a offset length ≠ .error .outOfBounds) →
      (∀ primitive count, count < 2 ^ 16 →
        snapshot layout d primitive count records resolve ≠ .error .outOfBounds) ∧
      ∀ segments, snapshotSegments layout d segments records resolve ≠ .error .outOfBounds) := by
  have hlayout := build_laidOut hbuild
  refine ⟨fun primitive count g hcount h => snapshot_decodes hlayout hcount h,
    fun segments g h => snapshotSegments_decodes hlayout h, fun resolve' hagree => ⟨?_, ?_⟩,
    fun hresolve => ⟨fun primitive count hcount => snapshot_inside hlayout hcount hresolve,
      fun segments => snapshotSegments_inside hlayout hresolve⟩⟩
  · intro primitive count
    rw [snapshot, snapshot, snapshotRecords_congr hlayout hagree]
  · intro segments
    simp only [snapshotSegments, snapshotRecords_congr hlayout hagree]

/-- Positions of three signed bytes, with indices of one byte. -/
def indexedPositions : Decoded :=
  let d := Decoded.reset ⟨640, 528, 640, 528⟩ false
  { d with vertex :=
    { d.vertex with
      vtxDesc := fun attr => if attr = GX_VA_POS then GX_INDEX8 else GX_NONE
      vtxFmts := fun _ _ => ⟨GX_POS_XYZ, GX_S8, 0⟩
      arrays := fun _ => ⟨1, 6, 3, false⟩ } }

/-- The bytes of two positions. -/
def sixBytes : Resolver := fun _ _ offset length =>
  .ok ((([1, 2, 3, 4, 5, 6] : List UInt8).drop offset).take length)

theorem snapshots_sufficient_indexed : ∃ layout g,
    VertexLayout.build indexedPositions.vertex 0 = .ok layout ∧
      snapshot layout indexedPositions .triangles 3 [1, 0, 1] sixBytes = .ok g ∧
      Decodes indexedPositions.vertex sixBytes g :=
  ⟨_, _, rfl, rfl, ((@snapshots_sufficient 0 _ indexedPositions rfl [1, 0, 1] sixBytes).1
    .triangles 3 _ (by omega) rfl).2.2⟩

end Gx
