import MkwiiPs5.Gx.GeometryIndices
import MkwiiPs5.Gx.VertexAgreement

/-!
# Merged snapshots

Where the snapshots of some draws succeed, so does the snapshot of all of them together, and its
triangles have the vertices of theirs.
-/

namespace Gx

open Bytes (Same slice number)
open IndexLoops (Mergeable concatenated vertexTotal vertexTotal_cons)
open Loop (bind_eq_ok)

/-! ### Parts of a draw -/

/-- A segment with its records. -/
structure DrawPart where
  segment : DrawSegment
  records : List UInt8

/-- A part of triangles with one record for each vertex. -/
structure DrawPart.Fits (layout : VertexLayout) (part : DrawPart) : Prop where
  mergeable : Mergeable part.segment
  length : part.records.length = part.segment.count * layout.stride

variable {layout : VertexLayout} {parts : List DrawPart}

theorem length_partRecords (h : ∀ part ∈ parts, part.Fits layout) :
    (parts.flatMap DrawPart.records).length =
      vertexTotal (parts.map DrawPart.segment) * layout.stride := by
  induction parts with
  | nil => exact (Nat.zero_mul _).symm
  | cons part parts ih =>
    rw [List.flatMap_cons, List.length_append, List.map_cons, vertexTotal_cons, Nat.add_mul,
      (h part List.mem_cons_self).length, ih fun p hp => h p (List.mem_cons_of_mem part hp)]

theorem vertexTotal_append (segments segments' : List DrawSegment) :
    vertexTotal (segments ++ segments') = vertexTotal segments + vertexTotal segments' := by
  rw [vertexTotal, List.map_append, List.sum_append, vertexTotal, vertexTotal]

/-- A vertex of the whole is one of a part. -/
theorem exists_part {vertex : ℕ} (h : vertex < vertexTotal (parts.map DrawPart.segment)) :
    ∃ before part after, parts = before ++ part :: after ∧ ∃ v < part.segment.count,
      vertex = vertexTotal (before.map DrawPart.segment) + v := by
  induction parts generalizing vertex with
  | nil => cases h
  | cons part parts ih =>
    rw [List.map_cons, vertexTotal_cons] at h
    by_cases hhere : vertex < part.segment.count
    · exact ⟨[], part, parts, rfl, vertex, hhere, (Nat.zero_add vertex).symm⟩
    · obtain ⟨before, other, after, rfl, v, hv, hvertex⟩ :=
        ih (by omega : vertex - part.segment.count < _)
      refine ⟨part :: before, other, after, rfl, v, hv, ?_⟩
      rw [List.map_cons, vertexTotal_cons]
      omega

/-- The record of a vertex is the same in its part and in the whole. -/
theorem same_record {before after : List DrawPart} {part : DrawPart} {v offset n : ℕ}
    (h : ∀ p ∈ before ++ part :: after, p.Fits layout) (hv : v < part.segment.count)
    (hn : offset + n ≤ layout.stride) :
    Same part.records (v * layout.stride + offset)
      ((before ++ part :: after).flatMap DrawPart.records)
      ((vertexTotal (before.map DrawPart.segment) + v) * layout.stride + offset) n := by
  have hbefore := length_partRecords fun p hp => h p (List.mem_append_left _ hp)
  have hpart := (h part (List.mem_append_right _ List.mem_cons_self)).length
  have hnext := Nat.mul_le_mul_right layout.stride hv
  rw [Nat.succ_mul] at hnext
  rw [Nat.add_mul, ← hbefore, List.flatMap_append, List.flatMap_cons, Nat.add_assoc]
  refine ⟨by omega, ?_, fun i hi => ?_⟩
  · rw [List.length_append, List.length_append]
    omega
  · rw [Nat.add_assoc (before.flatMap _).length, List.getElem?_append_right (by omega),
      Nat.add_sub_cancel_left, List.getElem?_append_left (by omega)]

/-! ### The indices of the whole -/

variable {v : VertexState} {format : ℕ} {resolve : Resolver}

/-- The largest index is that of a group of a vertex. -/
theorem scanGroups_attained {records : List UInt8} {count stride offset width groups : ℕ}
    {range : ℕ × ℕ} (hcount : 0 < count) (hgroups : 0 < groups)
    (h : scanGroups records count stride offset width groups = .ok range) :
    ∃ v < count, ∃ group < groups,
      range.2 = number false (slice records (v * stride + offset + group * width) width) := by
  have hrange := (scanGroups_spec h).1 0 hcount 0 hgroups
  have hattained := Loop.foldlM_range_invariant (fun n range => range.2 = 0 ∨
    ∃ v < n, ∃ group < groups,
      range.2 = number false (slice records (v * stride + offset + group * width) width)) h
    (Or.inl rfl) fun n hn range range' hrange hturn => ?_
  · rcases hattained with hzero | hattained
    · refine ⟨0, hcount, 0, hgroups, ?_⟩
      have := hrange.2.2
      omega
    · exact hattained
  · refine Loop.foldlM_range_invariant (fun _ range => range.2 = 0 ∨
      ∃ v < n + 1, ∃ group < groups,
        range.2 = number false (slice records (v * stride + offset + group * width) width)) hturn
      ?_ fun k hk r r' hr hscan => ?_
    · refine hrange.imp id ?_
      rintro ⟨v, hv, group, hgroup, heq⟩
      exact ⟨v, by omega, group, hgroup, heq⟩
    · obtain ⟨index, hindex, hr'⟩ := bind_eq_ok.1 hscan
      obtain rfl := Except.ok.inj hr'
      obtain ⟨hle, -⟩ := readUint_lt hindex
      rw [readUint_ok hle] at hindex
      obtain rfl := Except.ok.inj hindex
      -- the new maximum is the old one, or the index just read
      rcases max_choice r.2 (number (!true) (slice records (n * stride + offset + k * width) width))
        with hold | hnew
      · dsimp only
        rw [hold]
        exact hr
      · exact Or.inr ⟨n, Nat.lt_succ_self n, k, hk, hnew⟩

/-! ### The snapshot of the whole -/

/-- What is asked inside of an array is in a memory of it. -/
def Serves (resolve : Resolver) (v : VertexState) (memory : ℕ → ℕ → UInt8) : Prop :=
  ∀ attr offset length, (v.arrays attr).data ≠ 0 →
    offset + length ≤ (v.arrays attr).size.toNat →
      resolve attr (v.arrays attr) offset length = .ok (Overlay.load (memory attr) offset length)

/-- The last byte that the records refer to is in the array. -/
structure ArrayFits (layout : VertexLayout) (v : VertexState) (records : List UInt8) (count attr : ℕ) :
    Prop where
  data : (v.arrays attr).data ≠ 0
  within : (layout.attributes attr).offset + (layout.attributes attr).indexCount *
    indexWidth (layout.attributes attr).mode ≤ layout.stride
  last : ∃ range, scanIndices records count layout.stride (layout.attributes attr) = .ok range ∧
    range.2 * (layout.attributes attr).arrayStride + (layout.attributes attr).elementBytes ≤
      (v.arrays attr).size.toNat

theorem arrayFits_of_ok {records : List UInt8} {count attr : ℕ} {snapshot : ArraySnapshot}
    (hfits : AttributeFits attr (layout.attributes attr)) (hcount : 0 < count)
    (h : snapshotArray layout v count records resolve attr = .ok snapshot) :
    ArrayFits layout v records count attr := by
  obtain ⟨_, hdata, h⟩ := bind_eq_ok.1 h
  obtain ⟨_, hwithin, h⟩ := bind_eq_ok.1 h
  obtain ⟨range, hscan, h⟩ := bind_eq_ok.1 h
  obtain ⟨_, hlast, -⟩ := bind_eq_ok.1 h
  obtain ⟨-, hend, -⟩ := hfits.interval hcount hscan
  simp only [require_eq_ok, decide_eq_true_eq, bne_iff_ne] at hdata hwithin hlast
  rw [hend] at hlast
  exact ⟨hdata, hwithin, range, hscan, hlast⟩

theorem require_ok {value : Bool} (h : value = true) (why : String) : require value why = .ok () :=
  require_eq_ok.2 h

theorem ArrayFits.ok {memory : ℕ → ℕ → UInt8} {records : List UInt8} {count attr : ℕ}
    (h : ArrayFits layout v records count attr) (hserves : Serves resolve v memory)
    (hfits : AttributeFits attr (layout.attributes attr)) (hcount : 0 < count) :
    ∃ snapshot, snapshotArray layout v count records resolve attr = .ok snapshot := by
  obtain ⟨hdata, hwithin, range, hscan, hlast⟩ := h
  obtain ⟨hfirst, hend, hfirst32, hsub, hsub32, hmono⟩ := hfits.interval hcount hscan
  refine Loop.exists_bind (require_ok (bne_iff_ne.2 hdata) _) (Loop.exists_bind
    (require_ok (decide_eq_true hwithin) _) (Loop.exists_bind hscan (Loop.exists_bind
    (require_ok (decide_eq_true ?_) _) (Loop.exists_bind (hserves attr _ _ hdata ?_)
    (Loop.exists_bind (require_ok (decide_eq_true ?_) _) ⟨_, rfl⟩)))))
  · rw [hend]
    exact hlast
  · rw [hfirst, hend, hsub, hfirst32, hsub32]
    omega
  · rw [hfirst, hend, hsub, hsub32, Overlay.load, List.length_map, List.length_range]

/-- The array of an attribute holds what the whole refers to, as it does for every part. -/
theorem arrayFits_merged {attr : ℕ} (hfits : AttributeFits attr (layout.attributes attr))
    (hparts : ∀ part ∈ parts, part.Fits layout)
    (htotal : 0 < vertexTotal (parts.map DrawPart.segment))
    (h : ∀ part ∈ parts, 0 < part.segment.count →
      ArrayFits layout v part.records part.segment.count attr) :
    ArrayFits layout v (parts.flatMap DrawPart.records)
      (vertexTotal (parts.map DrawPart.segment)) attr := by
  obtain ⟨_, _, _, hmem, _, hsome, -⟩ := exists_part htotal
  have hany := h _ (by rw [hmem]; exact List.mem_append_right _ List.mem_cons_self)
    (Nat.zero_lt_of_lt hsome)
  obtain ⟨range, hscan⟩ := scanIndices_ok (length_partRecords hparts) hany.within
  refine ⟨hany.data, hany.within, range, hscan, ?_⟩
  obtain ⟨vertex, hvertex, k, hk, hattained⟩ := scanGroups_attained htotal hfits.sizes.2.2.1
    (scanIndices_eq.symm.trans hscan)
  obtain ⟨before, part, after, rfl, u, hu, rfl⟩ := exists_part hvertex
  have hpart := h part (List.mem_append_right _ List.mem_cons_self) (Nat.zero_lt_of_lt hu)
  obtain ⟨range', hscan', hlast⟩ := hpart.last
  have hk' := Nat.mul_le_mul_right (indexWidth (layout.attributes attr).mode) hk
  rw [Nat.succ_mul] at hk'
  have hwithin := hpart.within
  have hsame := same_record hparts hu (by omega :
    ((layout.attributes attr).offset + k * indexWidth (layout.attributes attr).mode) +
      indexWidth (layout.attributes attr).mode ≤ layout.stride)
  have hindex := ((scanGroups_spec (scanIndices_eq.symm.trans hscan')).1 u hu k hk).2.2
  rw [Nat.add_assoc, hsame.slice_eq, ← Nat.add_assoc, ← hattained] at hindex
  exact (Nat.add_le_add_right (Nat.mul_le_mul_right _ hindex) _).trans hlast

variable {d : Decoded} {g : Geometry}

theorem mem_attributes {attr : ℕ} (hlow : GX_VA_POS ≤ attr)
    (hattr : attr < GxGeometryAttributeCount) :
    attr ∈ List.range' GX_VA_POS (GxGeometryAttributeCount - GX_VA_POS) := by
  rw [List.mem_range'_1]
  simp only [GX_VA_POS, GxGeometryAttributeCount] at *
  omega

/-- What the snapshot of some vertices says about their arrays. -/
theorem snapshotRecords_fits {count : ℕ} {records : List UInt8}
    (hlayout : LaidOut d.vertex format GxGeometryAttributeCount layout) (hcount : 0 < count)
    (h : snapshotRecords layout d count records resolve = .ok g) :
    d.vertex.vtxDesc GX_VA_POS ≠ GX_NONE ∧
      ∀ attr, GX_VA_POS ≤ attr → attr < GxGeometryAttributeCount →
        (layout.attributes attr).indexed = true →
          ArrayFits layout d.vertex records count attr := by
  obtain ⟨_, -, h⟩ := bind_eq_ok.1 h
  obtain ⟨_, hposition, h⟩ := bind_eq_ok.1 h
  obtain ⟨arrays, harrays, -⟩ := bind_eq_ok.1 h
  rw [require_eq_ok, Bool.or_eq_true, beq_iff_eq, bne_iff_ne] at hposition
  rw [if_neg (Nat.ne_of_gt hcount)] at harrays
  refine ⟨hposition.resolve_left (Nat.ne_of_gt hcount), fun attr hlow hattr hindexed => ?_⟩
  have hfill := Loop.foldlM_update (p := fun attr => (layout.attributes attr).indexed)
    List.nodup_range' harrays
  exact arrayFits_of_ok (hlayout.within hattr (mode_ne_none hindexed)).1 hcount
    (hfill.1 attr (mem_attributes hlow hattr) hindexed)

theorem snapshotRecords_ok {memory : ℕ → ℕ → UInt8} {count : ℕ} {records : List UInt8}
    (hlayout : LaidOut d.vertex format GxGeometryAttributeCount layout)
    (hcount : count ≤ UINT32_MAX) (hrecords : records.length = count * layout.stride)
    (hserves : Serves resolve d.vertex memory)
    (h : 0 < count → d.vertex.vtxDesc GX_VA_POS ≠ GX_NONE ∧
      ∀ attr, GX_VA_POS ≤ attr → attr < GxGeometryAttributeCount →
        (layout.attributes attr).indexed = true →
          ArrayFits layout d.vertex records count attr) :
    ∃ g, snapshotRecords layout d count records resolve = .ok g := by
  have hposition : (count == 0 || d.vertex.vtxDesc GX_VA_POS != GX_NONE) = true := by
    rw [Bool.or_eq_true, beq_iff_eq, bne_iff_ne]
    rcases Nat.eq_zero_or_pos count with hzero | hpos
    · exact Or.inl hzero
    · exact Or.inr (h hpos).1
  have hlength : (records.length == u64 (count * layout.stride)) = true := by
    rw [beq_iff_eq, hlayout.records_exact hcount, hrecords]
  refine Loop.exists_bind (require_ok hlength _) (Loop.exists_bind (require_ok hposition _) ?_)
  dsimp only
  split
  · exact ⟨_, rfl⟩
  · next hsome =>
    obtain ⟨-, harrays⟩ := h (Nat.pos_of_ne_zero hsome)
    -- each turn of the loop succeeds, so that the loop does
    have hloop : Loop.Post ((List.range' GX_VA_POS (GxGeometryAttributeCount - GX_VA_POS)).foldlM
        (fun arrays attr =>
          if (layout.attributes attr).indexed then do
            let snapshot ← snapshotArray layout d.vertex count records resolve attr
            pure (Function.update arrays attr snapshot)
          else pure arrays) (fun _ => ⟨0, []⟩ : ℕ → ArraySnapshot)) (fun _ => True)
        fun _ : Fault => False := by
      refine Loop.foldlM_post (fun _ => True) trivial fun attr hattr arrays _ => ?_
      split
      · next hindexed =>
        rw [List.mem_range'_1] at hattr
        have hbound : attr < GxGeometryAttributeCount := by
          simp only [GX_VA_POS, GxGeometryAttributeCount] at *
          omega
        obtain ⟨snapshot, hsnapshot⟩ := (harrays attr hattr.1 hbound hindexed).ok hserves
          (hlayout.within hbound (mode_ne_none hindexed)).1 (Nat.pos_of_ne_zero hsome)
        rw [hsnapshot]
        trivial
      · trivial
    generalize (List.range' GX_VA_POS (GxGeometryAttributeCount - GX_VA_POS)).foldlM
      (fun arrays attr =>
        if (layout.attributes attr).indexed then do
          let snapshot ← snapshotArray layout d.vertex count records resolve attr
          pure (Function.update arrays attr snapshot)
        else pure arrays) (fun _ => ⟨0, []⟩ : ℕ → ArraySnapshot) = arrays at hloop
    cases arrays with
    | error e => exact hloop.elim
    | ok arrays => exact ⟨_, rfl⟩

/-- The whole can be made of parts that can. -/
theorem snapshotRecords_merged {memory : ℕ → ℕ → UInt8}
    (hlayout : LaidOut d.vertex format GxGeometryAttributeCount layout)
    (hserves : Serves resolve d.vertex memory) (hparts : ∀ part ∈ parts, part.Fits layout)
    (htotal : vertexTotal (parts.map DrawPart.segment) ≤ UINT32_MAX)
    (h : ∀ part ∈ parts, 0 < part.segment.count →
      ∃ g, snapshotRecords layout d part.segment.count part.records resolve = .ok g) :
    ∃ g, snapshotRecords layout d (vertexTotal (parts.map DrawPart.segment))
      (parts.flatMap DrawPart.records) resolve = .ok g := by
  refine snapshotRecords_ok hlayout htotal (length_partRecords hparts) hserves fun hsome =>
    ⟨?_, fun attr hlow hattr hindexed => ?_⟩
  · obtain ⟨before, part, after, rfl, u, hu, -⟩ := exists_part hsome
    obtain ⟨g, hg⟩ :=
      h part (List.mem_append_right _ List.mem_cons_self) (Nat.zero_lt_of_lt hu)
    exact (snapshotRecords_fits hlayout (Nat.zero_lt_of_lt hu) hg).1
  · refine arrayFits_merged (hlayout.within hattr (mode_ne_none hindexed)).1 hparts hsome
      fun part hpart hcount => ?_
    obtain ⟨g, hg⟩ := h part hpart hcount
    exact (snapshotRecords_fits hlayout hcount hg).2 attr hlow hattr hindexed

/-! ### Vertices of a part and of the whole -/

/-- A geometry that was made of some records. -/
structure SnapshotOf (layout : VertexLayout) (d : Decoded) (resolve : Resolver) (count : ℕ)
    (records : List UInt8) (g : Geometry) : Prop where
  layout_eq : g.layout = layout
  records_eq : g.records = records
  count_eq : g.count = count
  matrix_eq : g.currentPnMtx = d.matrixIndices.currentPnMtx
  decodes : Decodes d.vertex resolve g
  fits : 0 < count → ∀ attr, GX_VA_POS ≤ attr → attr < GxGeometryAttributeCount →
    (layout.attributes attr).indexed = true → ArrayFits layout d.vertex records count attr

theorem snapshot_of {primitive : Primitive} {count : ℕ} {records : List UInt8}
    (hlayout : LaidOut d.vertex format GxGeometryAttributeCount layout) (hcount : count < 2 ^ 16)
    (h : snapshot layout d primitive count records resolve = .ok g) :
    SnapshotOf layout d resolve count records g ∧ g.primitive = primitive ∧
      g.indices = buildIndices primitive count ∧
      ∃ out, snapshotRecords layout d count records resolve = .ok out := by
  obtain ⟨-, -, hdecodes⟩ := snapshot_decodes hlayout hcount h
  obtain ⟨out, hout, h⟩ := bind_eq_ok.1 h
  obtain rfl := Except.ok.inj h
  obtain ⟨hsufficient, hsame, hrecords, hmatrix⟩ :=
    snapshotRecords_spec hlayout (by rw [UINT32_MAX]; omega) hout
  exact ⟨⟨hsufficient.layout_eq, hrecords, hsame, hmatrix, hdecodes,
    fun hpos => (snapshotRecords_fits hlayout hpos hout).2⟩, rfl, rfl, out, hout⟩

theorem snapshotSegments_of {segments : List DrawSegment} {records : List UInt8}
    (hlayout : LaidOut d.vertex format GxGeometryAttributeCount layout)
    (hsegments : ∀ segment ∈ segments, Mergeable segment)
    (htotal : vertexTotal segments ≤ UINT32_MAX)
    (h : ∃ out, snapshotRecords layout d (vertexTotal segments) records resolve = .ok out) :
    ∃ g, snapshotSegments layout d segments records resolve = .ok g ∧
      SnapshotOf layout d resolve (vertexTotal segments) records g ∧
      g.primitive.triangleClass = true ∧
      g.indices = concatenated IndexLoops.DrawSegment.indices 0 segments := by
  obtain ⟨out, hout⟩ := h
  have htriangles : (segments.all fun segment => segment.primitive.triangleClass) = true :=
    List.all_eq_true.2 fun segment hsegment => (hsegments segment hsegment).1
  have hexact : u32 (vertexTotal segments) = vertexTotal segments := by
    rw [UINT32_MAX] at htotal
    exact Nat.mod_eq_of_lt (by omega)
  have hindices : segmentIndices 0 segments = .ok (concatenated IndexLoops.DrawSegment.indices 0
      segments) := IndexLoops.segmentIndices_eq hsegments (by rwa [Nat.zero_add])
  have hok : snapshotSegments layout d segments records resolve =
      .ok { out with indices := concatenated IndexLoops.DrawSegment.indices 0 segments } := by
    refine bind_eq_ok.2 ⟨(), require_ok htriangles _, bind_eq_ok.2
      ⟨(), require_ok (decide_eq_true htotal) _, bind_eq_ok.2 ⟨out, ?_, ?_⟩⟩⟩
    · rw [← vertexTotal, hexact]
      exact hout
    · rw [hindices]
      rfl
  obtain ⟨hsufficient, hsame, hrecords, hmatrix⟩ := snapshotRecords_spec hlayout htotal hout
  obtain ⟨-, -, hdecodes⟩ := snapshotSegments_decodes hlayout hok
  refine ⟨_, hok, ⟨hsufficient.layout_eq, hrecords, hsame, hmatrix, hdecodes,
    fun hpos => (snapshotRecords_fits hlayout hpos hout).2⟩, ?_, rfl⟩
  -- a snapshot of records alone is one of triangles
  obtain ⟨_, -, hout⟩ := bind_eq_ok.1 hout
  obtain ⟨_, -, hout⟩ := bind_eq_ok.1 hout
  obtain ⟨arrays, -, hout⟩ := bind_eq_ok.1 hout
  obtain rfl := Except.ok.inj hout
  rfl

/-- The bytes of an indexed group are in the memory of its array. -/
theorem SnapshotOf.bytes {memory : ℕ → ℕ → UInt8} {count vertex attr group k : ℕ}
    {records : List UInt8} (hg : SnapshotOf layout d resolve count records g)
    (hserves : Serves resolve d.vertex memory) (hvertex : vertex < count) (hlow : GX_VA_POS ≤ attr)
    (hattr : attr < GxGeometryAttributeCount)
    (hindexed : (layout.attributes attr).indexed = true)
    (hgroup : group < groupCount attr (layout.attributes attr))
    (hk : k < groupBytes attr (layout.attributes attr)) :
    (g.arrays attr).bytes[groupAddress g attr vertex group + k]? =
      some (memory attr (groupIndex layout records attr vertex group *
        (layout.attributes attr).arrayStride + groupOffset (layout.attributes attr) group + k)) := by
  obtain ⟨rfl, rfl, rfl, -, hdecodes, hfits⟩ := hg
  have hpos := Nat.zero_lt_of_lt hvertex
  obtain ⟨resolved, hcaptured⟩ := hdecodes.captured hpos attr hattr hlow hindexed
  refine hdecodes.bytes vertex hvertex attr hattr hlow hindexed group hgroup (memory attr)
    (fun resolved' hresolved i hi => ?_) k hk
  rw [hserves attr _ _ (hfits hpos attr hlow hattr hindexed).data hcaptured.declared] at hresolved
  obtain rfl := Except.ok.inj hresolved
  rw [Overlay.load, List.length_map, List.length_range] at hi
  rw [Overlay.load, List.getElem?_map, List.getElem?_range hi]
  rfl

/-- A vertex of a part is the vertex of the whole at the same record. -/
theorem decodeGxVertex_part {memory : ℕ → ℕ → UInt8} {before after : List DrawPart}
    {part : DrawPart} {h : Geometry} {u : ℕ}
    (hlayout : LaidOut d.vertex format GxGeometryAttributeCount layout)
    (hserves : Serves resolve d.vertex memory)
    (hparts : ∀ p ∈ before ++ part :: after, p.Fits layout)
    (hg : SnapshotOf layout d resolve
      (vertexTotal ((before ++ part :: after).map DrawPart.segment))
      ((before ++ part :: after).flatMap DrawPart.records) g)
    (hh : SnapshotOf layout d resolve part.segment.count part.records h)
    (hu : u < part.segment.count) :
    decodeGxVertex g (vertexTotal (before.map DrawPart.segment) + u) = decodeGxVertex h u := by
  have hvertex : vertexTotal (before.map DrawPart.segment) + u <
      vertexTotal ((before ++ part :: after).map DrawPart.segment) := by
    rw [List.map_append, List.map_cons, vertexTotal_append, vertexTotal_cons]
    omega
  symm
  refine decodeGxVertex_agree hh.decodes hg.decodes (hg.layout_eq.trans hh.layout_eq.symm)
    (hg.matrix_eq.trans hh.matrix_eq.symm) (fun attr hattr hmode => ?_)
    (by rw [hh.count_eq]; exact hu) (by rw [hg.count_eq]; exact hvertex)
    fun attr hattr hmode => ?_
  · rw [hh.layout_eq] at hmode ⊢
    exact (hlayout.within hattr hmode).1
  · rw [hh.layout_eq] at hmode
    obtain ⟨hfits, -, hwithin⟩ := hlayout.within hattr hmode
    refine ⟨fun hmatrix => ?_, fun hlow group hgroup => ?_⟩
    · obtain ⟨hdirect, hcomponents, hbytes, -⟩ := hfits.matrix hmatrix
      rw [AttributeLayout.recordBytes, if_neg hmode, if_pos hdirect, hcomponents, hbytes] at hwithin
      rw [hh.layout_eq, hh.records_eq, hg.records_eq]
      exact same_record hparts hu hwithin
    · rw [hh.layout_eq] at hgroup ⊢
      have hleft := (hh.decodes.group u (by rw [hh.count_eq]; exact hu) attr hattr hlow
        (by rw [hh.layout_eq]; exact hmode) group (by rw [hh.layout_eq]; exact hgroup)).2.1
      have hright := (hg.decodes.group _ (by rw [hg.count_eq]; exact hvertex) attr hattr hlow
        (by rw [hg.layout_eq]; exact hmode) group (by rw [hg.layout_eq]; exact hgroup)).2.1
      rw [hh.layout_eq] at hleft
      rw [hg.layout_eq] at hright
      refine ⟨hleft, hright, fun k hk => ?_⟩
      cases hindexed : (layout.attributes attr).indexed with
      | true =>
        -- both read the memory of the array, at the same index
        obtain ⟨j, hj, hoffset⟩ := hfits.scanned hgroup
        have hnext := Nat.mul_le_mul_right (indexWidth (layout.attributes attr).mode) hj
        rw [Nat.succ_mul] at hnext
        have hin := ((hh.fits (Nat.zero_lt_of_lt hu) attr hlow hattr hindexed).within)
        have hindex : groupIndex layout part.records attr u group =
            groupIndex layout ((before ++ part :: after).flatMap DrawPart.records) attr
              (vertexTotal (before.map DrawPart.segment) + u) group := by
          rw [groupIndex, groupIndex, (same_record hparts hu (by omega : (layout.attributes attr).indexOffset group +
            indexWidth (layout.attributes attr).mode ≤ layout.stride)).slice_eq]
        rw [heldIn, heldIn, hh.layout_eq, hg.layout_eq, hindexed, if_pos rfl, if_pos rfl,
          hh.bytes hserves hu hlow hattr hindexed hgroup hk,
          hg.bytes hserves hvertex hlow hattr hindexed hgroup hk, hindex]
      | false =>
        have hgroupLe := hfits.group_le hlow hgroup
        rw [heldBytes, hindexed, if_neg Bool.false_ne_true] at hgroupLe
        have hsame := same_record hparts hu (by omega :
          (layout.attributes attr).offset + (groupOffset (layout.attributes attr) group +
            groupBytes attr (layout.attributes attr)) ≤ layout.stride)
        have haddress : ∀ g' : Geometry, g'.layout = layout → ∀ vertex,
            groupAddress g' attr vertex group = vertex * layout.stride +
              (layout.attributes attr).offset + groupOffset (layout.attributes attr) group := by
          intro g' hlayout' vertex
          rw [groupAddress, hlayout', hindexed, if_neg Bool.false_ne_true]
        rw [heldIn, heldIn, hh.layout_eq, hg.layout_eq, hindexed, if_neg Bool.false_ne_true,
          if_neg Bool.false_ne_true, haddress h hh.layout_eq, haddress g hg.layout_eq, hh.records_eq,
          hg.records_eq]
        have hbyte := hsame.same (groupOffset (layout.attributes attr) group + k) (by omega)
        rwa [← Nat.add_assoc, ← Nat.add_assoc] at hbyte

/-- The corners of the whole are those of the parts, in order. -/
theorem corners_merged {memory : ℕ → ℕ → UInt8} {single : DrawPart → Geometry}
    (hlayout : LaidOut d.vertex format GxGeometryAttributeCount layout)
    (hserves : Serves resolve d.vertex memory) (hparts : ∀ part ∈ parts, part.Fits layout)
    (hg : SnapshotOf layout d resolve (vertexTotal (parts.map DrawPart.segment))
      (parts.flatMap DrawPart.records) g)
    (hsingle : ∀ part ∈ parts, 0 < part.segment.count →
      SnapshotOf layout d resolve part.segment.count part.records (single part)) :
    (concatenated IndexLoops.DrawSegment.indices 0 (parts.map DrawPart.segment)).map
        (decodeGxVertex g) =
      parts.flatMap fun part =>
        (IndexLoops.DrawSegment.indices part.segment).map (decodeGxVertex (single part)) := by
  have hfrom : ∀ rest before, parts = before ++ rest →
      (concatenated IndexLoops.DrawSegment.indices (vertexTotal (before.map DrawPart.segment))
          (rest.map DrawPart.segment)).map (decodeGxVertex g) =
        rest.flatMap fun part =>
          (IndexLoops.DrawSegment.indices part.segment).map (decodeGxVertex (single part)) := by
    intro rest
    induction rest with
    | nil => exact fun before _ => rfl
    | cons part rest ih =>
      rintro before rfl
      have hmem : part ∈ before ++ part :: rest := List.mem_append_right _ List.mem_cons_self
      have hnext := ih (before ++ [part]) (by rw [List.append_assoc]; rfl)
      rw [List.map_append, List.map_singleton, vertexTotal_append, vertexTotal_cons] at hnext
      rw [List.map_cons, concatenated, List.map_append, List.map_map, List.flatMap_cons]
      congr 1
      refine List.map_congr_left fun u hu => ?_
      rw [IndexLoops.indices_eq_corners (hparts part hmem).mergeable] at hu
      have hlt := IndexLoops.corner_lt hu
      exact decodeGxVertex_part hlayout hserves hparts hg
        (hsingle part hmem (Nat.zero_lt_of_lt hlt)) hlt
  exact hfrom parts [] rfl

/-! ### Triangles -/

/-- The elements in threes; what is left over goes. -/
def triples {α : Type*} : List α → List (List α)
  | a :: b :: c :: rest => [a, b, c] :: triples rest
  | _ => []

theorem triples_append {α : Type*} (l l' : List α) (h : l.length % 3 = 0) :
    triples (l ++ l') = triples l ++ triples l' := by
  match l, h with
  | [], _ => rfl
  | [_], h => simp at h
  | [_, _], h => simp at h
  | a :: b :: c :: rest, h =>
    rw [List.cons_append, List.cons_append, List.cons_append, triples, triples,
      triples_append rest l' (by simp only [List.length_cons] at h; omega), List.cons_append]

theorem length_flatMap_mod {α β : Type*} {l : List α} {f : α → List β}
    (h : ∀ a ∈ l, (f a).length % 3 = 0) : (l.flatMap f).length % 3 = 0 := by
  induction l with
  | nil => rfl
  | cons a l ih =>
    have hhead := h a List.mem_cons_self
    have htail := ih fun b hb => h b (List.mem_cons_of_mem a hb)
    rw [List.flatMap_cons, List.length_append]
    omega

theorem length_corners_mod (primitive : Primitive) (count : ℕ) :
    (primitive.corners count).length % 3 = 0 := by
  cases primitive with
  | quads => exact length_flatMap_mod fun i _ => by simp
  | triangles => exact length_flatMap_mod fun i _ => by simp
  | triangleStrip => exact length_flatMap_mod fun v _ => by split <;> simp
  | triangleFan => exact length_flatMap_mod fun v _ => by simp
  | lines => rfl
  | lineStrip => rfl
  | points => rfl

/-- Triangles do not reach across parts. -/
theorem triples_flatMap {α : Type*} {f : DrawPart → List α}
    (h : ∀ part ∈ parts, (f part).length % 3 = 0) :
    triples (parts.flatMap f) = parts.flatMap fun part => triples (f part) := by
  induction parts with
  | nil => rfl
  | cons part parts ih =>
    rw [List.flatMap_cons, triples_append _ _ (h part List.mem_cons_self),
      ih fun p hp => h p (List.mem_cons_of_mem part hp), List.flatMap_cons]

end Gx
