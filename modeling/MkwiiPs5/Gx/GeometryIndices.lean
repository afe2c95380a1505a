import MkwiiPs5.Gx.Geometry

/-!
# The loops that make indices

The index loops of `gx_geometry.cpp` as they run on `uint32_t`: the writer of merged draws stores
through a pointer into a vector that was sized by a formula of its own. They come to the lists of
`Gx.Primitive.corners`.
-/

namespace Gx.IndexLoops

open Loop (forLoop forLoop_total Visits)
open Bytes (overwrite)

/-- The vector that `write_triangle_indices` stores into, and its pointer. -/
structure IndexWriter where
  entries : List ℕ
  cursor : ℕ

/-- `out[i] = value`, without the bounds check that the code lacks: a store outside is a fault. -/
def IndexWriter.store (w : IndexWriter) (i value : ℕ) : Except Fault IndexWriter :=
  if w.cursor + i < w.entries.length then
    .ok { w with entries := w.entries.set (w.cursor + i) value }
  else .error .outOfBounds

/-- `tri` of the writer. -/
def IndexWriter.tri (base : ℕ) (w : IndexWriter) (a b c : ℕ) : Except Fault IndexWriter := do
  let w ← w.store 0 (u32 (base + a))
  let w ← w.store 1 (u32 (base + b))
  let w ← w.store 2 (u32 (base + c))
  pure { w with cursor := w.cursor + 3 }

/-- `write_triangle_indices`; `none` stands for a loop of more turns than `fuel`. -/
def writeTriangleIndices (fuel : ℕ) (w : IndexWriter) (primitive : Primitive) (count base : ℕ) :
    Option (Except Fault IndexWriter) :=
  match primitive with
  | .quads =>
    forLoop (fun v => u32 (v + 3) < count) (fun v => u32 (v + 4)) (fun w v => do
      let w ← w.tri base v (u32 (v + 1)) (u32 (v + 2))
      w.tri base (u32 (v + 2)) (u32 (v + 3)) v) fuel 0 w
  | .triangles =>
    forLoop (fun v => u32 (v + 2) < count) (fun v => u32 (v + 3)) (fun w v =>
      w.tri base v (u32 (v + 1)) (u32 (v + 2))) fuel 0 w
  | .triangleStrip =>
    forLoop (fun v => v < count) (fun v => u32 (v + 1)) (fun w v =>
      if v &&& 1 ≠ 0 then w.tri base (v - 1) (v - 2) v else w.tri base (v - 2) (v - 1) v) fuel 2 w
  | .triangleFan =>
    forLoop (fun v => v < count) (fun v => u32 (v + 1)) (fun w v => w.tri base 0 (v - 1) v) fuel 2 w
  | _ => some (.error (.thrown "Only triangle GX primitives can share a draw"))

/-- `build_indices`, which appends to a vector. -/
def buildIndices (fuel : ℕ) (primitive : Primitive) (count : ℕ) : Option (Except Fault (List ℕ)) :=
  match primitive with
  | .quads =>
    forLoop (fun v => u32 (v + 3) < count) (fun v => u32 (v + 4)) (fun out v =>
      pure (out ++ [v, u32 (v + 1), u32 (v + 2)] ++ [u32 (v + 2), u32 (v + 3), v])) fuel 0 []
  | .triangles =>
    forLoop (fun v => u32 (v + 2) < count) (fun v => u32 (v + 3)) (fun out v =>
      pure (out ++ [v, u32 (v + 1), u32 (v + 2)])) fuel 0 []
  | .triangleStrip =>
    forLoop (fun v => v < count) (fun v => u32 (v + 1)) (fun out v =>
      pure (if v &&& 1 ≠ 0 then out ++ [v - 1, v - 2, v] else out ++ [v - 2, v - 1, v])) fuel 2 []
  | .triangleFan =>
    forLoop (fun v => v < count) (fun v => u32 (v + 1)) (fun out v =>
      pure (out ++ [0, v - 1, v])) fuel 2 []
  | .lines =>
    forLoop (fun v => u32 (v + 1) < count) (fun v => u32 (v + 2)) (fun out v =>
      pure (out ++ [v, u32 (v + 1)])) fuel 0 []
  | .lineStrip =>
    forLoop (fun v => v < count) (fun v => u32 (v + 1)) (fun out v =>
      pure (out ++ [v - 1, v])) fuel 1 []
  | .points =>
    forLoop (fun v => v < count) (fun v => u32 (v + 1)) (fun out v => pure (out ++ [v])) fuel 0 []

/-- The entries that one segment adds to `indexCount`. -/
def segmentIndexCount (n : ℕ) : Primitive → Except Fault ℕ
  | .quads => pure (u32 (n / 4 * 6))
  | .triangles => pure (u32 (n / 3 * 3))
  | .triangleStrip | .triangleFan => pure (if n > 2 then u64 ((n - 2) * 3) else 0)
  | _ => .error (.thrown "Only triangle GX primitives can share a draw")

/-- The first loop of `snapshot_segments`: `total` and `indexCount`. -/
def countSegments (segments : List DrawSegment) : Except Fault (ℕ × ℕ) :=
  segments.foldlM (fun counts segment => do
    let n ← segmentIndexCount segment.count segment.primitive
    pure (u64 (counts.1 + segment.count), u64 (counts.2 + n))) (0, 0)

/-- The last loop of `snapshot_segments`. -/
def writeSegments (fuel : ℕ) : List DrawSegment → IndexWriter → ℕ →
    Option (Except Fault IndexWriter)
  | [], w, _ => some (.ok w)
  | segment :: segments, w, base =>
    match writeTriangleIndices fuel w segment.primitive segment.count base with
    | none => none
    | some (.error e) => some (.error e)
    | some (.ok w) => writeSegments fuel segments w (u32 (base + segment.count))

/-- `GxGeometry::snapshot_segments` with its loops. -/
def snapshotSegments (fuel : ℕ) (layout : VertexLayout) (d : Decoded) (segments : List DrawSegment)
    (records : List UInt8) (resolve : Resolver) : Option (Except Fault Geometry) :=
  match countSegments segments with
  | .error e => some (.error e)
  | .ok (total, indexCount) =>
    if total > UINT32_MAX then some (.error (.thrown "Merged GX draw exceeds 32-bit vertex indices"))
    else
      match snapshotRecords layout d (u32 total) records resolve with
      | .error e => some (.error e)
      | .ok out =>
        (writeSegments fuel segments ⟨List.replicate indexCount 0, 0⟩ 0).map fun written =>
          written.map fun w => { out with indices := w.entries }

/-! ### One turn -/

/-- The writer after a run of stores. -/
def IndexWriter.put (w : IndexWriter) (indices : List ℕ) : IndexWriter :=
  ⟨overwrite w.entries w.cursor indices, w.cursor + indices.length⟩

theorem IndexWriter.put_nil (w : IndexWriter) : w.put [] = w := by
  rw [put, overwrite, List.append_nil, List.length_nil, Nat.add_zero, List.take_append_drop]

theorem IndexWriter.put_put {w : IndexWriter} {l l' : List ℕ}
    (h : w.cursor + l.length ≤ w.entries.length) : (w.put l).put l' = w.put (l ++ l') := by
  simp only [put, Bytes.overwrite_overwrite h, List.length_append, Nat.add_assoc]

theorem IndexWriter.length_put {w : IndexWriter} {l : List ℕ}
    (h : w.cursor + l.length ≤ w.entries.length) :
    (w.put l).entries.length = w.entries.length := Bytes.length_overwrite h

/-- Three stores in a row are one run. -/
theorem set_three {α : Type*} {entries : List α} {pos : ℕ} (h : pos + 3 ≤ entries.length)
    (x y z : α) :
    ((entries.set pos x).set (pos + 1) y).set (pos + 2) z = overwrite entries pos [x, y, z] := by
  have hlength : ([x, y, z] : List α).length = 3 := rfl
  refine List.ext_getElem? fun i => ?_
  by_cases hi : i < pos ∨ pos + 3 ≤ i
  · rw [Bytes.getElem?_overwrite_of_not h hi, List.getElem?_set_ne (by omega),
      List.getElem?_set_ne (by omega), List.getElem?_set_ne (by omega)]
  · obtain ⟨j, rfl⟩ : ∃ j, i = pos + j := ⟨i - pos, by omega⟩
    rw [Bytes.getElem?_overwrite_of_lt h (by rw [hlength]; omega)]
    obtain rfl | rfl | rfl : j = 0 ∨ j = 1 ∨ j = 2 := by omega
    · rw [Nat.add_zero pos, List.getElem?_set_ne (by omega), List.getElem?_set_ne (by omega),
        List.getElem?_set_self (by omega)]
      rfl
    · rw [List.getElem?_set_ne (by omega), List.getElem?_set_self (by rw [List.length_set]; omega)]
      rfl
    · rw [List.getElem?_set_self (by rw [List.length_set, List.length_set]; omega)]
      rfl

/-- Where there is room, a triangle is stored and the pointer moves past it. -/
theorem IndexWriter.tri_eq {w : IndexWriter} (h : w.cursor + 3 ≤ w.entries.length)
    (base a b c : ℕ) :
    w.tri base a b c = .ok (w.put [u32 (base + a), u32 (base + b), u32 (base + c)]) := by
  have h1 : w.cursor + 1 < (w.entries.set (w.cursor + 0) (u32 (base + a))).length := by
    rw [List.length_set]
    omega
  have h2 : w.cursor + 2 < ((w.entries.set (w.cursor + 0) (u32 (base + a))).set (w.cursor + 1)
      (u32 (base + b))).length := by
    rw [List.length_set, List.length_set]
    omega
  refine Loop.bind_eq_ok.mpr ⟨_, if_pos (by omega), Loop.bind_eq_ok.mpr ⟨_, if_pos h1,
    Loop.bind_eq_ok.mpr ⟨_, if_pos h2, ?_⟩⟩⟩
  simp only [Nat.add_zero, set_three h, put]
  rfl

/-! ### Whole loops -/

variable {more : ℕ → Bool} {next visit : ℕ → ℕ} {face : ℕ → List ℕ} {n : ℕ}

theorem flatMap_range_succ (face : ℕ → List ℕ) (n : ℕ) :
    (List.range (n + 1)).flatMap face = (List.range n).flatMap face ++ face n := by
  rw [List.range_succ, List.flatMap_append, List.flatMap_singleton]

/-- Each turn stores a face under `g`, and there is room for all of them. -/
theorem forLoop_put {turn : IndexWriter → ℕ → Except Fault IndexWriter} {w : IndexWriter}
    {g : ℕ → ℕ} (hvisits : Visits more next visit n)
    (hroom : w.cursor + ((List.range n).flatMap face).length ≤ w.entries.length)
    (hturn : ∀ i < n, ∀ w : IndexWriter, w.cursor + (face i).length ≤ w.entries.length →
      turn w (visit i) = .ok (w.put ((face i).map g))) :
    ∀ fuel, n < fuel → forLoop more next turn fuel (visit 0) w =
      some (.ok (w.put (((List.range n).flatMap face).map g))) := by
  have hpart : ∀ i ≤ n,
      w.cursor + (((List.range i).flatMap face).map g).length ≤ w.entries.length := by
    intro i hi
    have hle : ((List.range i).flatMap face).length ≤ ((List.range n).flatMap face).length := by
      obtain ⟨k, rfl⟩ := Nat.exists_eq_add_of_le hi
      rw [List.range_add, List.flatMap_append, List.length_append]
      omega
    rw [List.length_map]
    omega
  have hstep : ∀ i < n, ∀ t, t = w.put (((List.range i).flatMap face).map g) →
      ∃ t', turn t (visit i) = .ok t' ∧
        t' = w.put (((List.range (i + 1)).flatMap face).map g) := by
    rintro i hi _ rfl
    refine ⟨_, hturn i hi _ ?_, ?_⟩
    · have hroom' := hpart (i + 1) hi
      simp only [flatMap_range_succ, List.map_append, List.length_append, List.length_map] at hroom'
      rw [IndexWriter.length_put (hpart i hi.le)]
      simp only [IndexWriter.put, List.length_map]
      omega
    · rw [IndexWriter.put_put (hpart i hi.le), flatMap_range_succ, List.map_append]
  obtain ⟨t, rfl, ht⟩ := forLoop_total hvisits
    (fun i t => t = w.put (((List.range i).flatMap face).map g)) w.put_nil.symm hstep
  exact ht

/-- Each turn appends a face. -/
theorem forLoop_append {turn : List ℕ → ℕ → Except Fault (List ℕ)}
    (hvisits : Visits more next visit n)
    (hturn : ∀ i < n, ∀ out, turn out (visit i) = .ok (out ++ face i)) :
    ∀ fuel, n < fuel → forLoop more next turn fuel (visit 0) [] =
      some (.ok ((List.range n).flatMap face)) := by
  have hstep : ∀ i < n, ∀ out, out = (List.range i).flatMap face →
      ∃ out', turn out (visit i) = .ok out' ∧ out' = (List.range (i + 1)).flatMap face := by
    rintro i hi _ rfl
    exact ⟨_, hturn i hi _, (flatMap_range_succ face i).symm⟩
  obtain ⟨t, rfl, ht⟩ := forLoop_total hvisits
    (fun i out => out = (List.range i).flatMap face) rfl hstep
  exact ht

/-! ### The values of the loops -/

theorem u32_of_lt {x : ℕ} (h : x < 2 ^ 32) : u32 x = x := Nat.mod_eq_of_lt h

/-- Loops over groups of `k` vertices stop before an incomplete group. -/
theorem visits_groups (k : ℕ) {count : ℕ} (hk : 0 < k) (hcount : count + k ≤ 2 ^ 32) :
    Visits (fun v => u32 (v + (k - 1)) < count) (fun v => u32 (v + k)) (fun i => k * i)
      (count / k) := by
  have hdiv := Nat.div_add_mod count k
  have hmod := Nat.mod_lt count hk
  have hgroup : ∀ i < count / k, k * i + k ≤ k * (count / k) := by
    intro i hi
    rw [← Nat.mul_succ]
    exact Nat.mul_le_mul_left k hi
  refine ⟨fun i hi => ?_, fun i hi => ?_, ?_⟩
  · have := hgroup i hi
    rw [decide_eq_true_eq, u32_of_lt (by omega)]
    omega
  · have := hgroup i hi
    rw [u32_of_lt (by omega), Nat.mul_succ]
  · rw [decide_eq_false_iff_not, u32_of_lt (by omega)]
    omega

/-- Loops over single vertices. -/
theorem visits_from {count : ℕ} (first : ℕ) (hcount : count < 2 ^ 32) :
    Visits (fun v => v < count) (fun v => u32 (v + 1)) (fun i => first + i) (count - first) := by
  refine ⟨fun i hi => ?_, fun i hi => ?_, ?_⟩
  · rw [decide_eq_true_eq]
    omega
  · rw [u32_of_lt (by omega), Nat.add_assoc]
  · rw [decide_eq_false_iff_not]
    omega

theorem flatMap_range' (f : ℕ → List ℕ) (first n : ℕ) :
    (List.range' first n).flatMap f = (List.range n).flatMap fun i => f (first + i) := by
  rw [List.range'_eq_map_range, List.flatMap_map]

theorem and_one_ne_zero (v : ℕ) : v &&& 1 ≠ 0 ↔ v % 2 = 1 := by
  rw [Nat.and_one_is_mod]
  omega

/-! ### The three loops -/

/-- The builder makes the indices of the primitive. -/
theorem buildIndices_eq {count fuel : ℕ} (hcount : count < 2 ^ 16) (hfuel : 2 ^ 16 ≤ fuel)
    (primitive : Primitive) :
    buildIndices fuel primitive count = some (.ok (Gx.buildIndices primitive count)) := by
  have hbound : count < 2 ^ 32 := by omega
  cases primitive with
  | quads =>
    refine forLoop_append (visits_groups 4 (by omega) (by omega)) (fun i hi out => ?_)
      fuel (by omega)
    rw [u32_of_lt (by omega), u32_of_lt (by omega), u32_of_lt (by omega), List.append_assoc]
    rfl
  | triangles =>
    refine forLoop_append (visits_groups 3 (by omega) (by omega)) (fun i hi out => ?_)
      fuel (by omega)
    rw [u32_of_lt (by omega), u32_of_lt (by omega)]
    rfl
  | triangleStrip =>
    rw [Gx.buildIndices, Primitive.corners, flatMap_range']
    · refine forLoop_append (visits_from _ hbound) (fun i hi out => ?_)
        fuel (by omega)
      simp only [and_one_ne_zero]
      split <;> rfl
    all_goals nofun
  | triangleFan =>
    rw [Gx.buildIndices, Primitive.corners, flatMap_range']
    · exact forLoop_append (visits_from _ hbound) (fun i hi out => rfl) fuel (by omega)
    all_goals nofun
  | lines =>
    refine forLoop_append (visits_groups 2 (by omega) (by omega)) (fun i hi out => ?_)
      fuel (by omega)
    rw [u32_of_lt (by omega)]
    rfl
  | lineStrip =>
    rw [Gx.buildIndices, flatMap_range']
    exact forLoop_append (visits_from _ hbound) (fun i hi out => rfl) fuel (by omega)
  | points =>
    have hpoints := @forLoop_append _ _ _ (fun i => [i]) _ _ (visits_from 0 hbound)
      (fun i hi out => by rw [Nat.zero_add]) fuel (by omega)
    rw [Nat.sub_zero, List.flatMap_singleton'] at hpoints
    exact hpoints

/-- Where there is room, the writer stores the corners of the primitive from `base` on. -/
theorem writeTriangleIndices_eq {primitive : Primitive} {count fuel : ℕ} {w : IndexWriter}
    (htriangles : primitive.triangleClass = true) (hcount : count < 2 ^ 16)
    (hfuel : 2 ^ 16 ≤ fuel)
    (hroom : w.cursor + (primitive.corners count).length ≤ w.entries.length) (base : ℕ) :
    writeTriangleIndices fuel w primitive count base =
      some (.ok (w.put ((primitive.corners count).map fun v => u32 (base + v)))) := by
  have hbound : count < 2 ^ 32 := by omega
  cases primitive with
  | quads =>
    -- two triangles for each quad
    refine forLoop_put (visits_groups 4 (by omega) (by omega)) hroom (fun i hi w hw => ?_)
      fuel (by omega)
    change w.cursor + 6 ≤ w.entries.length at hw
    rw [u32_of_lt (by omega), u32_of_lt (by omega), u32_of_lt (by omega)]
    refine Loop.bind_eq_ok.mpr ⟨_, IndexWriter.tri_eq (by omega) base _ _ _, ?_⟩
    have hfirst : w.cursor + [u32 (base + 4 * i), u32 (base + (4 * i + 1)),
        u32 (base + (4 * i + 2))].length ≤ w.entries.length := by
      change w.cursor + 3 ≤ w.entries.length
      omega
    rw [IndexWriter.tri_eq ?_, IndexWriter.put_put hfirst]
    · rfl
    · rw [IndexWriter.length_put hfirst]
      exact hw
  | triangles =>
    refine forLoop_put (visits_groups 3 (by omega) (by omega)) hroom (fun i hi w hw => ?_)
      fuel (by omega)
    rw [u32_of_lt (by omega), u32_of_lt (by omega)]
    exact IndexWriter.tri_eq hw base _ _ _
  | triangleStrip =>
    rw [Primitive.corners, flatMap_range'] at hroom ⊢
    -- one triangle for each vertex from the third on, turned where the vertex is odd
    refine forLoop_put (visits_from _ hbound) hroom (fun i hi w hw => ?_) fuel (by omega)
    simp only [and_one_ne_zero]
    split at hw
    · next hodd =>
      rw [if_pos hodd, if_pos hodd]
      exact IndexWriter.tri_eq hw base _ _ _
    · next heven =>
      rw [if_neg heven, if_neg heven]
      exact IndexWriter.tri_eq hw base _ _ _
  | triangleFan =>
    rw [Primitive.corners, flatMap_range'] at hroom ⊢
    exact forLoop_put (visits_from _ hbound) hroom
      (fun i hi w hw => IndexWriter.tri_eq hw base _ _ _) fuel (by omega)
  | lines => cases htriangles
  | lineStrip => cases htriangles
  | points => cases htriangles

/-! ### Segments -/

theorem buildIndices_triangles {primitive : Primitive} (h : primitive.triangleClass = true)
    (count : ℕ) : Gx.buildIndices primitive count = primitive.corners count := by
  cases primitive <;> first | rfl | cases h

/-- The corners of a primitive are vertices of it. -/
theorem corner_lt {primitive : Primitive} {count v : ℕ} (h : v ∈ primitive.corners count) :
    v < count := by
  cases primitive with
  | quads =>
    simp only [Primitive.corners, List.mem_flatMap, List.mem_range, List.mem_cons,
      List.not_mem_nil, or_false] at h
    omega
  | triangles =>
    simp only [Primitive.corners, List.mem_flatMap, List.mem_range, List.mem_cons,
      List.not_mem_nil, or_false] at h
    omega
  | triangleStrip =>
    simp only [Primitive.corners, List.mem_flatMap, List.mem_range'_1] at h
    obtain ⟨u, hu, hv⟩ := h
    split at hv <;> simp only [List.mem_cons, List.not_mem_nil, or_false] at hv <;> omega
  | triangleFan =>
    simp only [Primitive.corners, List.mem_flatMap, List.mem_range'_1, List.mem_cons,
      List.not_mem_nil, or_false] at h
    omega
  | lines => cases h
  | lineStrip => cases h
  | points => cases h

theorem length_flatMap_const {l : List ℕ} {f : ℕ → List ℕ} {k : ℕ} (h : ∀ v, (f v).length = k) :
    (l.flatMap f).length = l.length * k := by
  induction l with
  | nil => rw [List.flatMap_nil, List.length_nil, Nat.zero_mul]
  | cons v l ih => rw [List.flatMap_cons, List.length_append, h, ih, List.length_cons, Nat.succ_mul,
      Nat.add_comm]

/-- The triangles that a strip or a fan has. -/
theorem stripIndexCount_eq {count : ℕ} (h : count < 2 ^ 16) :
    (if count > 2 then u64 ((count - 2) * 3) else 0) = (count - 2) * 3 := by
  split
  · exact Nat.mod_eq_of_lt (by omega)
  · omega

/-- The formulas of `snapshot_segments` count what the primitives draw. -/
theorem segmentIndexCount_eq {primitive : Primitive} {count : ℕ}
    (htriangles : primitive.triangleClass = true) (hcount : count < 2 ^ 16) :
    segmentIndexCount count primitive = .ok (primitive.corners count).length := by
  cases primitive with
  | quads =>
    rw [Primitive.corners, length_flatMap_const (k := 6) fun _ => rfl, List.length_range,
      segmentIndexCount, u32_of_lt (by omega)]
    rfl
  | triangles =>
    rw [Primitive.corners, length_flatMap_const (k := 3) fun _ => rfl, List.length_range,
      segmentIndexCount, u32_of_lt (by omega)]
    rfl
  | triangleStrip =>
    rw [Primitive.corners, length_flatMap_const (k := 3) fun v => by split <;> rfl,
      List.length_range', segmentIndexCount, stripIndexCount_eq hcount]
    rfl
  | triangleFan =>
    rw [Primitive.corners, length_flatMap_const (k := 3) fun _ => rfl, List.length_range',
      segmentIndexCount, stripIndexCount_eq hcount]
    rfl
  | lines => cases htriangles
  | lineStrip => cases htriangles
  | points => cases htriangles

/-- A triangle has three corners, and a vertex at most three of them of its own. -/
theorem length_corners_le (primitive : Primitive) (count : ℕ) :
    (primitive.corners count).length ≤ 3 * count := by
  cases primitive with
  | quads =>
    rw [Primitive.corners, length_flatMap_const (k := 6) fun _ => rfl, List.length_range]
    omega
  | triangles =>
    rw [Primitive.corners, length_flatMap_const (k := 3) fun _ => rfl, List.length_range]
    omega
  | triangleStrip =>
    rw [Primitive.corners, length_flatMap_const (k := 3) fun v => by split <;> rfl,
      List.length_range']
    omega
  | triangleFan =>
    rw [Primitive.corners, length_flatMap_const (k := 3) fun _ => rfl, List.length_range']
    omega
  | lines => exact Nat.zero_le _
  | lineStrip => exact Nat.zero_le _
  | points => exact Nat.zero_le _

/-- The vertices of the segments. -/
def vertexTotal (segments : List DrawSegment) : ℕ := (segments.map DrawSegment.count).sum

/-- What each segment builds, shifted by the vertices of the segments before it. -/
def concatenated (built : DrawSegment → List ℕ) : ℕ → List DrawSegment → List ℕ
  | _, [] => []
  | base, segment :: segments =>
    (built segment).map (base + ·) ++ concatenated built (base + segment.count) segments

/-- What `build_indices` makes of a segment. -/
def DrawSegment.indices (segment : DrawSegment) : List ℕ :=
  Gx.buildIndices segment.primitive segment.count

theorem vertexTotal_cons (segment : DrawSegment) (segments : List DrawSegment) :
    vertexTotal (segment :: segments) = segment.count + vertexTotal segments := by
  rw [vertexTotal, List.map_cons, List.sum_cons, vertexTotal]

variable {segments : List DrawSegment} {fuel : ℕ}

/-- A segment of a merged draw. -/
def Mergeable (segment : DrawSegment) : Prop :=
  segment.primitive.triangleClass = true ∧ segment.count < 2 ^ 16

theorem indices_eq_corners {segment : DrawSegment} (h : Mergeable segment) :
    DrawSegment.indices segment = segment.primitive.corners segment.count :=
  buildIndices_triangles h.1 segment.count

theorem concatenated_lt (h : ∀ segment ∈ segments, Mergeable segment) {base i : ℕ}
    (hi : i ∈ concatenated DrawSegment.indices base segments) :
    base ≤ i ∧ i < base + vertexTotal segments := by
  induction segments generalizing base with
  | nil => cases hi
  | cons segment segments ih =>
    rw [concatenated, List.mem_append, List.mem_map] at hi
    rw [vertexTotal_cons]
    rcases hi with ⟨v, hv, rfl⟩ | hi
    · rw [indices_eq_corners (h segment List.mem_cons_self)] at hv
      have := corner_lt hv
      omega
    · have := ih (fun s hs => h s (List.mem_cons_of_mem segment hs)) hi
      omega

/-- The first loop counts the vertices and the indices. -/
theorem countSegments_eq (h : ∀ segment ∈ segments, Mergeable segment)
    (htotal : vertexTotal segments < 2 ^ 62) :
    countSegments segments =
      .ok (vertexTotal segments, (concatenated DrawSegment.indices 0 segments).length) := by
  have hfrom : ∀ (segments : List DrawSegment) (base total count : ℕ),
      (∀ segment ∈ segments, Mergeable segment) → total + vertexTotal segments < 2 ^ 62 →
      count + 3 * vertexTotal segments < 2 ^ 64 →
      segments.foldlM (fun counts segment => do
        let n ← segmentIndexCount segment.count segment.primitive
        pure (u64 (counts.1 + segment.count), u64 (counts.2 + n))) (total, count) =
      (.ok (total + vertexTotal segments,
        count + (concatenated DrawSegment.indices base segments).length) :
          Except Fault (ℕ × ℕ)) := by
    intro segments
    induction segments with
    | nil => intro base total count _ _ _; rfl
    | cons segment segments ih =>
      intro base total count h htotal hcount
      have hsegment := h segment List.mem_cons_self
      have hlength := length_corners_le segment.primitive segment.count
      rw [vertexTotal_cons] at htotal hcount
      rw [List.foldlM_cons, segmentIndexCount_eq hsegment.1 hsegment.2]
      change List.foldlM _ (u64 (total + segment.count), u64 (count + _)) segments = _
      rw [u64, u64, Nat.mod_eq_of_lt (by omega), Nat.mod_eq_of_lt (by omega),
        ih (base + segment.count) _ _ (fun s hs => h s (List.mem_cons_of_mem segment hs))
          (by omega) (by omega), vertexTotal_cons, concatenated, List.length_append,
        List.length_map, indices_eq_corners hsegment, Nat.add_assoc, Nat.add_assoc]
  have hcount := hfrom segments 0 0 0 h (by omega) (by omega)
  rwa [Nat.zero_add, Nat.zero_add] at hcount

/-- The sums do not wrap, as they stay below the number of vertices. -/
theorem shift_corners {primitive : Primitive} {count base : ℕ} (h : base + count ≤ UINT32_MAX) :
    (primitive.corners count).map (fun v => u32 (base + v)) =
      (primitive.corners count).map (base + ·) := by
  refine List.map_congr_left fun v hv => u32_of_lt ?_
  have hlt := corner_lt hv
  rw [UINT32_MAX] at h
  omega

/-- The last loop stores the indices of all segments, one run after the other. -/
theorem writeSegments_eq {w : IndexWriter} {base : ℕ}
    (h : ∀ segment ∈ segments, Mergeable segment) (hfuel : 2 ^ 16 ≤ fuel)
    (htotal : base + vertexTotal segments ≤ UINT32_MAX)
    (hroom : w.cursor + (concatenated DrawSegment.indices base segments).length ≤
      w.entries.length) :
    writeSegments fuel segments w base =
      some (.ok (w.put (concatenated DrawSegment.indices base segments))) := by
  induction segments generalizing w base with
  | nil => rw [writeSegments, concatenated, IndexWriter.put_nil]
  | cons segment segments ih =>
    have hsegment := h segment List.mem_cons_self
    have hrest := fun s hs => h s (List.mem_cons_of_mem segment hs)
    rw [vertexTotal_cons, UINT32_MAX] at htotal
    rw [concatenated, List.length_append, List.length_map, indices_eq_corners hsegment] at hroom
    have hput : w.cursor + ((segment.primitive.corners segment.count).map (base + ·)).length ≤
        w.entries.length := by
      rw [List.length_map]
      omega
    rw [writeSegments, writeTriangleIndices_eq hsegment.1 hsegment.2 hfuel (by omega),
      shift_corners (by rw [UINT32_MAX]; omega), u32_of_lt (by omega)]
    change writeSegments fuel segments _ _ = _
    rw [ih hrest (by rw [UINT32_MAX]; omega), IndexWriter.put_put hput, concatenated,
      indices_eq_corners hsegment]
    rw [IndexWriter.length_put hput]
    simp only [IndexWriter.put, List.length_map]
    omega

/-- A vector that was sized by the count is filled. -/
theorem put_sized (l : List ℕ) :
    (⟨List.replicate l.length 0, 0⟩ : IndexWriter).put l = ⟨l, l.length⟩ := by
  rw [IndexWriter.put, overwrite, List.take_zero, List.nil_append, Nat.zero_add,
    List.drop_of_length_le (List.length_replicate.le), List.append_nil]

/-! ### Merged draws -/

/-- A segment of another class is refused before anything is counted on. -/
theorem countSegments_refused
    (h : ∃ segment ∈ segments, segment.primitive.triangleClass = false) :
    countSegments segments =
      .error (.thrown "Only triangle GX primitives can share a draw") := by
  rw [countSegments]
  generalize ((0, 0) : ℕ × ℕ) = counts
  induction segments generalizing counts with
  | nil =>
    obtain ⟨_, hmem, _⟩ := h
    cases hmem
  | cons segment segments ih =>
    rw [List.foldlM_cons]
    obtain ⟨primitive, count⟩ := segment
    have hrest (htriangles : primitive.triangleClass = true) :
        ∃ segment ∈ segments, segment.primitive.triangleClass = false := by
      obtain ⟨other, hmem, hother⟩ := h
      rcases List.mem_cons.mp hmem with rfl | hmem
      · exact absurd (htriangles.symm.trans hother) Bool.noConfusion
      · exact ⟨other, hmem, hother⟩
    cases primitive with
    | quads => exact ih (hrest rfl) _
    | triangles => exact ih (hrest rfl) _
    | triangleStrip => exact ih (hrest rfl) _
    | triangleFan => exact ih (hrest rfl) _
    | lines => rfl
    | lineStrip => rfl
    | points => rfl

theorem segmentIndices_eq {base : ℕ} (h : ∀ segment ∈ segments, Mergeable segment)
    (htotal : base + vertexTotal segments ≤ UINT32_MAX) :
    segmentIndices base segments = .ok (concatenated DrawSegment.indices base segments) := by
  induction segments generalizing base with
  | nil => rfl
  | cons segment segments ih =>
    have hsegment := h segment List.mem_cons_self
    rw [vertexTotal_cons, UINT32_MAX] at htotal
    rw [segmentIndices, Gx.writeTriangleIndices, if_pos hsegment.1,
      shift_corners (by rw [UINT32_MAX]; omega), u32_of_lt (by omega),
      ih (fun s hs => h s (List.mem_cons_of_mem segment hs)) (by rw [UINT32_MAX]; omega),
      concatenated, indices_eq_corners hsegment]
    rfl

/-- The loops make the snapshot that `Gx.snapshotSegments` states. -/
theorem snapshotSegments_eq {layout : VertexLayout} {d : Decoded} {records : List UInt8}
    {resolve : Resolver} (hcount : ∀ segment ∈ segments, segment.count < 2 ^ 16)
    (htotal : vertexTotal segments < 2 ^ 62) (hfuel : 2 ^ 16 ≤ fuel) :
    snapshotSegments fuel layout d segments records resolve =
      some (Gx.snapshotSegments layout d segments records resolve) := by
  by_cases hall : ∃ segment ∈ segments, segment.primitive.triangleClass = false
  · rw [snapshotSegments, countSegments_refused hall, Gx.snapshotSegments]
    obtain ⟨segment, hmem, hother⟩ := hall
    have hnot : (segments.all fun segment => segment.primitive.triangleClass) = false :=
      List.all_eq_false.mpr ⟨segment, hmem, by rw [hother]; exact Bool.false_ne_true⟩
    rw [hnot]
    rfl
  · have hmergeable : ∀ segment ∈ segments, Mergeable segment := fun segment hmem =>
      ⟨by simpa using fun hother => hall ⟨segment, hmem, hother⟩, hcount segment hmem⟩
    have htriangles : (segments.all fun segment => segment.primitive.triangleClass) = true :=
      List.all_eq_true.mpr fun segment hmem => (hmergeable segment hmem).1
    rw [snapshotSegments, countSegments_eq hmergeable htotal, Gx.snapshotSegments, htriangles]
    by_cases hle : vertexTotal segments ≤ UINT32_MAX
    · have hwrite := writeSegments_eq (w := ⟨List.replicate _ 0, 0⟩) hmergeable hfuel
        (by rwa [Nat.zero_add]) (by rw [List.length_replicate, Nat.zero_add])
      have hindices : segmentIndices 0 segments = .ok (concatenated DrawSegment.indices 0 segments) :=
        segmentIndices_eq hmergeable (by rwa [Nat.zero_add])
      have hfits : decide ((segments.map DrawSegment.count).sum ≤ UINT32_MAX) = true :=
        decide_eq_true hle
      simp only [if_neg (Nat.not_lt.mpr hle), hwrite, put_sized, hfits]
      change _ = some (snapshotRecords layout d (u32 (vertexTotal segments)) records resolve >>=
        fun out => segmentIndices 0 segments >>= fun indices => pure { out with indices := indices })
      cases snapshotRecords layout d (u32 (vertexTotal segments)) records resolve with
      | error e => rfl
      | ok out =>
        rw [hindices]
        rfl
    · have hfits : decide ((segments.map DrawSegment.count).sum ≤ UINT32_MAX) = false :=
        decide_eq_false hle
      simp only [if_pos (Nat.lt_of_not_le hle), hfits]
      rfl

/-- The count that sizes the vector is the number of entries stored; the entries are vertices of the
draw, those that each segment builds on its own, shifted by the vertices before it; and a merged
snapshot has them as its indices. -/
theorem merged_indices (h : ∀ segment ∈ segments, Mergeable segment)
    (htotal : vertexTotal segments ≤ UINT32_MAX) :
    ∃ indexCount indices, countSegments segments = .ok (vertexTotal segments, indexCount) ∧
      (∀ fuel, 2 ^ 16 ≤ fuel →
        writeSegments fuel segments ⟨List.replicate indexCount 0, 0⟩ 0 =
          some (.ok ⟨indices, indexCount⟩)) ∧
      indices.length = indexCount ∧ (∀ i ∈ indices, i < vertexTotal segments) ∧
      (∃ built : DrawSegment → List ℕ,
        (∀ segment ∈ segments, ∀ fuel, 2 ^ 16 ≤ fuel →
          buildIndices fuel segment.primitive segment.count = some (.ok (built segment))) ∧
        indices = concatenated built 0 segments) ∧
      ∀ fuel layout d records resolve g, 2 ^ 16 ≤ fuel →
        snapshotSegments fuel layout d segments records resolve = some (.ok g) →
          g.indices = indices := by
  have hbound : vertexTotal segments < 2 ^ 62 := by
    rw [UINT32_MAX] at htotal
    omega
  have hcount := countSegments_eq h hbound
  have hwrite : ∀ fuel, 2 ^ 16 ≤ fuel → writeSegments fuel segments
      ⟨List.replicate (concatenated DrawSegment.indices 0 segments).length 0, 0⟩ 0 =
        some (.ok ⟨concatenated DrawSegment.indices 0 segments,
          (concatenated DrawSegment.indices 0 segments).length⟩) := by
    intro fuel hfuel
    rw [writeSegments_eq h hfuel (by rwa [Nat.zero_add])
      (by rw [List.length_replicate, Nat.zero_add]), put_sized]
  refine ⟨_, _, hcount, hwrite, rfl, fun i hi => ?_, ⟨DrawSegment.indices, ?_, rfl⟩, ?_⟩
  · have hlt := (concatenated_lt h hi).2
    rwa [Nat.zero_add] at hlt
  · intro segment hsegment fuel hfuel
    exact buildIndices_eq (h segment hsegment).2 hfuel segment.primitive
  · intro fuel layout d records resolve g hfuel hsnapshot
    simp only [snapshotSegments, hcount, hwrite fuel hfuel] at hsnapshot
    rw [if_neg (Nat.not_lt.mpr htotal)] at hsnapshot
    split at hsnapshot
    · cases hsnapshot
    · cases hsnapshot
      rfl

theorem merged_indices_strip : ∃ (indexCount : ℕ) (indices : List ℕ),
    countSegments [⟨.quads, 5⟩, ⟨.triangleStrip, 4⟩, ⟨.triangleFan, 2⟩] = .ok (11, indexCount) ∧
      indices.length = indexCount ∧ ∀ i ∈ indices, i < 11 := by
  have hsegments : ∀ segment ∈ ([⟨.quads, 5⟩, ⟨.triangleStrip, 4⟩, ⟨.triangleFan, 2⟩] :
      List DrawSegment), Mergeable segment := by
    intro segment hmem
    simp only [List.mem_cons, List.not_mem_nil, or_false] at hmem
    rcases hmem with rfl | rfl | rfl <;> exact ⟨rfl, by decide⟩
  obtain ⟨indexCount, indices, hcount, -, hlength, hlt, -⟩ :=
    merged_indices hsegments (by decide)
  exact ⟨indexCount, indices, hcount, hlength, hlt⟩

example : (writeSegments 9 [⟨.quads, 5⟩, ⟨.triangleStrip, 4⟩] ⟨List.replicate 12 0, 0⟩ 0).map
    (Except.map IndexWriter.entries) =
      some (.ok [0, 1, 2, 2, 3, 0, 5, 6, 7, 7, 6, 8]) := by
  rfl

end Gx.IndexLoops
