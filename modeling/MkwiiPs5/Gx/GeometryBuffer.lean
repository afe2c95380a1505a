import MkwiiPs5.Gx.GeometryDecoding
import MkwiiPs5.Words

/-!
# Geometry as bytes

`serialize_gx_geometry` writes a snapshot into the one buffer that the vertex shader reads: a header,
a record for each attribute, the vertices, and the captured arrays.
-/

namespace Gx

open Bytes (overwrite toLittle slice number Holds Kept Word)
open Loop (bind_eq_ok)

def MKW_GX_VERTEX_MAGIC : ℕ := 0x31565847
def MKW_GX_VERTEX_HEADER_BYTES : ℕ := 32
def MKW_GX_VERTEX_ATTRIBUTE_BYTES : ℕ := 32
def MKW_GX_VERTEX_ATTRIBUTE_COUNT : ℕ := 21

/-- Bytes before the vertices. -/
def metadataBytes : ℕ :=
  MKW_GX_VERTEX_HEADER_BYTES + MKW_GX_VERTEX_ATTRIBUTE_COUNT * MKW_GX_VERTEX_ATTRIBUTE_BYTES

/-- `write`. -/
def writeWord (out : List UInt8) (pos value : ℕ) : List UInt8 :=
  overwrite out pos (toLittle 4 value)

/-- `append`: where the bytes are, and the buffer with them, filled up to a multiple of four. -/
def appendBytes (out bytes : List UInt8) : Except Fault (ℕ × List UInt8) :=
  if sub64 (sub64 UINT32_MAX out.length) 7 < bytes.length then
    .error (.thrown "GX GPU geometry buffer exceeds 32-bit byte offsets")
  else
    let padding := (out.length + bytes.length + 3) / 4 * 4 - (out.length + bytes.length)
    .ok (u32 out.length, out ++ bytes ++ List.replicate padding 0)

/-- Mode, type and counts of an attribute in one word. -/
def attributeFlags (d : AttributeLayout) : ℕ :=
  d.mode ||| d.type <<< 2 ||| d.components <<< 5 ||| d.indexCount <<< 9 ||| d.fraction <<< 11 |||
    d.arrayLittleEndian.toNat <<< 16

/-- Where the record of an attribute is. -/
def attributeAt (a : ℕ) : ℕ := MKW_GX_VERTEX_HEADER_BYTES + a * MKW_GX_VERTEX_ATTRIBUTE_BYTES

/-- The words of an attribute that do not depend on where its array goes. -/
def writeRecord (g : Geometry) (out : List UInt8) (a : ℕ) : List UInt8 :=
  let d := g.layout.attributes a
  let pos := attributeAt a
  let out := writeWord out pos (attributeFlags d)
  let out := writeWord out (pos + 4) d.offset
  let out := writeWord out (pos + 8) d.arrayStride
  writeWord out (pos + 12) (g.arrays a).sourceOffset

/-- One turn of the loop over attributes. -/
def writeAttribute (g : Geometry) (out : List UInt8) (a : ℕ) : Except Fault (List UInt8) :=
  let bytes := (g.arrays a).bytes
  let pos := attributeAt a
  let out := writeRecord g out a
  if bytes = [] then pure out
  else do
    let (start, out) ← appendBytes out bytes
    pure (writeWord (writeWord out (pos + 16) start) (pos + 20) (u32 bytes.length))

/-- The words of the header before the vertices are there. -/
def writeHeader (g : Geometry) (out : List UInt8) : List UInt8 :=
  let out := writeWord out 0 MKW_GX_VERTEX_MAGIC
  let out := writeWord out 4 g.layout.stride
  let out := writeWord out 12 g.count
  writeWord out 16 g.currentPnMtx

/-- `serialize_gx_geometry`. -/
def serializeGxGeometry (g : Geometry) : Except Fault (List UInt8) := do
  let out := writeHeader g (List.replicate metadataBytes 0)
  let (start, out) ← appendBytes out g.records
  let out := writeWord out 8 start
  let out ← (List.range MKW_GX_VERTEX_ATTRIBUTE_COUNT).foldlM (writeAttribute g) out
  pure (out ++ List.replicate 4 0)

/-! ### One step -/

theorem writeWord_spec (out : List UInt8) (pos value : ℕ) (h : pos + 4 ≤ out.length) :
    Word (writeWord out pos value) pos value ∧ Kept out (writeWord out pos value) pos (pos + 4) ∧
      (writeWord out pos value).length = out.length := by
  have hlength : pos + (toLittle 4 value).length ≤ out.length := by rwa [Bytes.length_toLittle]
  refine ⟨Bytes.holds_overwrite hlength, ?_, Bytes.length_overwrite hlength⟩
  have hkept := Bytes.kept_overwrite hlength
  rwa [Bytes.length_toLittle] at hkept

/-- A buffer that can still take its last four bytes. -/
structure Fits (out : List UInt8) : Prop where
  aligned : out.length % 4 = 0
  metadata : metadataBytes ≤ out.length
  bound : out.length + 8 ≤ 2 ^ 32

theorem appendBytes_spec {out bytes out' : List UInt8} {start : ℕ} (hout : Fits out)
    (h : appendBytes out bytes = .ok (start, out')) :
    start = out.length ∧ Fits out' ∧ Holds out' start bytes ∧
      ∀ lo hi, Kept out out' lo hi := by
  obtain ⟨haligned, hmetadata, hbound⟩ := hout
  rw [appendBytes] at h
  split at h
  · cases h
  next hnot =>
  obtain ⟨rfl, rfl⟩ := Prod.mk.inj (Except.ok.inj h)
  have hmax : sub64 (sub64 UINT32_MAX out.length) 7 = 2 ^ 32 - 8 - out.length := by
    rw [UINT32_MAX, sub64_eq (x := 4294967295) (by omega) (by omega), sub64_eq (by omega) (by omega)]
    omega
  rw [hmax] at hnot
  have hstart : u32 out.length = out.length := Nat.mod_eq_of_lt (by omega)
  rw [hstart]
  refine ⟨rfl, ⟨?_, ?_, ?_⟩, Bytes.holds_append _ _ _, fun lo hi => ?_⟩
  · simp only [List.length_append, List.length_replicate]
    omega
  · simp only [List.length_append]
    omega
  · simp only [List.length_append, List.length_replicate]
    omega
  · rw [List.append_assoc]
    exact Bytes.kept_append _ _ _ _

/-! ### The whole buffer -/

/-- The record of an attribute is in the buffer, and the array that it refers to. -/
structure AttributeWritten (g : Geometry) (data : List UInt8) (a : ℕ) : Prop where
  flags : Word data (attributeAt a) (attributeFlags (g.layout.attributes a))
  offset : Word data (attributeAt a + 4) (g.layout.attributes a).offset
  arrayStride : Word data (attributeAt a + 8) (g.layout.attributes a).arrayStride
  sourceOffset : Word data (attributeAt a + 12) (g.arrays a).sourceOffset
  array : (g.arrays a).bytes ≠ [] → ∃ start, metadataBytes ≤ start ∧
    Word data (attributeAt a + 16) start ∧ Holds data start (g.arrays a).bytes

/-- What the shader relies on, with the records of the first `n` attributes. -/
structure GeometryWritten (g : Geometry) (data : List UInt8) (n : ℕ) : Prop where
  aligned : data.length % 4 = 0
  metadata : metadataBytes ≤ data.length
  bound : data.length < 2 ^ 32
  stride : Word data 4 g.layout.stride
  start : Word data 8 metadataBytes
  matrix : Word data 16 g.currentPnMtx
  records : Holds data metadataBytes g.records
  written : ∀ a < n, AttributeWritten g data a

variable {g : Geometry} {data out out' : List UInt8} {a n lo hi : ℕ}

theorem AttributeWritten.kept (h : AttributeWritten g data a) (hkept : Kept data out lo hi)
    (hapart : attributeAt a + 32 ≤ lo ∨ hi ≤ attributeAt a) (hhi : hi ≤ metadataBytes) :
    AttributeWritten g out a := by
  refine ⟨h.flags.kept hkept (by omega), h.offset.kept hkept (by omega),
    h.arrayStride.kept hkept (by omega), h.sourceOffset.kept hkept (by omega), fun hbytes => ?_⟩
  obtain ⟨start, hstart, hword, hholds⟩ := h.array hbytes
  exact ⟨start, hstart, hword.kept hkept (by omega), hholds.kept hkept (by omega)⟩

theorem GeometryWritten.kept (h : GeometryWritten g data n) (hkept : Kept data out lo hi)
    (hlo : attributeAt n ≤ lo) (hhi : hi ≤ metadataBytes) (haligned : out.length % 4 = 0)
    (hbound : out.length < 2 ^ 32) : GeometryWritten g out n := by
  have hfirst : 32 ≤ attributeAt n := Nat.le_add_right _ _
  refine ⟨haligned, h.metadata.trans hkept.1, hbound, h.stride.kept hkept (by omega),
    h.start.kept hkept (by omega), h.matrix.kept hkept (by omega), Holds.kept h.records hkept (Or.inr hhi),
    fun a ha => (h.written a ha).kept hkept ?_ hhi⟩
  simp only [attributeAt, MKW_GX_VERTEX_HEADER_BYTES, MKW_GX_VERTEX_ATTRIBUTE_BYTES] at *
  omega

theorem attributeAt_le (ha : a < MKW_GX_VERTEX_ATTRIBUTE_COUNT) :
    attributeAt a + 32 ≤ metadataBytes := by
  simp only [attributeAt, metadataBytes, MKW_GX_VERTEX_HEADER_BYTES, MKW_GX_VERTEX_ATTRIBUTE_BYTES,
    MKW_GX_VERTEX_ATTRIBUTE_COUNT] at *
  omega

theorem Fits.of_length (h : Fits out) (hlength : out'.length = out.length) : Fits out' :=
  ⟨hlength ▸ h.aligned, hlength ▸ h.metadata, hlength ▸ h.bound⟩

theorem writeRecord_spec (g : Geometry) (out : List UInt8) (a : ℕ)
    (h : attributeAt a + 32 ≤ out.length) :
    Word (writeRecord g out a) (attributeAt a) (attributeFlags (g.layout.attributes a)) ∧
    Word (writeRecord g out a) (attributeAt a + 4) (g.layout.attributes a).offset ∧
    Word (writeRecord g out a) (attributeAt a + 8) (g.layout.attributes a).arrayStride ∧
    Word (writeRecord g out a) (attributeAt a + 12) (g.arrays a).sourceOffset ∧
    Kept out (writeRecord g out a) (attributeAt a) (attributeAt a + 32) ∧
    (writeRecord g out a).length = out.length := by
  let d := g.layout.attributes a
  let out1 := writeWord out (attributeAt a) (attributeFlags d)
  let out2 := writeWord out1 (attributeAt a + 4) d.offset
  let out3 := writeWord out2 (attributeAt a + 8) d.arrayStride
  obtain ⟨hflags, hkept1, (hlength1 : out1.length = out.length)⟩ :=
    writeWord_spec out (attributeAt a) (attributeFlags d) (by omega)
  obtain ⟨hoffset, hkept2, (hlength2 : out2.length = out1.length)⟩ :=
    writeWord_spec out1 (attributeAt a + 4) d.offset (by omega)
  obtain ⟨hstride, hkept3, (hlength3 : out3.length = out2.length)⟩ :=
    writeWord_spec out2 (attributeAt a + 8) d.arrayStride (by omega)
  obtain ⟨hsource, hkept4, hlength4⟩ := writeWord_spec out3 (attributeAt a + 12)
    (g.arrays a).sourceOffset (by omega)
  refine ⟨((hflags.kept hkept2 (by omega)).kept hkept3 (by omega)).kept hkept4 (by omega),
    (hoffset.kept hkept3 (by omega)).kept hkept4 (by omega), hstride.kept hkept4 (by omega), hsource,
    (((hkept1.mono (by omega) (by omega)).trans (hkept2.mono (by omega) (by omega))).trans
      (hkept3.mono (by omega) (by omega))).trans (hkept4.mono (by omega) (by omega)), ?_⟩
  exact hlength4.trans (hlength3.trans (hlength2.trans hlength1))

theorem writeHeader_spec (g : Geometry) (out : List UInt8) (h : 20 ≤ out.length) :
    Word (writeHeader g out) 4 g.layout.stride ∧ Word (writeHeader g out) 16 g.currentPnMtx ∧
      (writeHeader g out).length = out.length := by
  let out1 := writeWord out 0 MKW_GX_VERTEX_MAGIC
  let out2 := writeWord out1 4 g.layout.stride
  let out3 := writeWord out2 12 g.count
  obtain ⟨-, -, (hlength1 : out1.length = out.length)⟩ :=
    writeWord_spec out 0 MKW_GX_VERTEX_MAGIC (by omega)
  obtain ⟨hstride, -, (hlength2 : out2.length = out1.length)⟩ :=
    writeWord_spec out1 4 g.layout.stride (by omega)
  obtain ⟨-, hkept3, (hlength3 : out3.length = out2.length)⟩ :=
    writeWord_spec out2 12 g.count (by omega)
  obtain ⟨hmatrix, hkept4, hlength4⟩ :=
    writeWord_spec out3 16 g.currentPnMtx (by omega)
  exact ⟨(hstride.kept hkept3 (by omega)).kept hkept4 (by omega), hmatrix,
    hlength4.trans (hlength3.trans (hlength2.trans hlength1))⟩

/-- A turn writes the record of its attribute, and leaves all else. -/
theorem writeAttribute_spec (hout : Fits out) (ha : a < MKW_GX_VERTEX_ATTRIBUTE_COUNT)
    (h : writeAttribute g out a = .ok out') :
    Fits out' ∧ AttributeWritten g out' a ∧ Kept out out' (attributeAt a) (attributeAt a + 32) := by
  have hpos := attributeAt_le ha
  have hle := hout.metadata
  obtain ⟨hflags, hoffset, hstride, hsource, hkept, hlength⟩ :=
    writeRecord_spec g out a (by omega)
  have hfits := hout.of_length hlength
  rw [writeAttribute] at h
  dsimp only at h
  split at h
  · next hempty =>
    obtain rfl := Except.ok.inj h
    exact ⟨hfits, ⟨hflags, hoffset, hstride, hsource, fun hne => absurd hempty hne⟩, hkept⟩
  -- the array goes behind all that is there, and its place into the record
  obtain ⟨⟨start, out5⟩, happend, h⟩ := bind_eq_ok.1 h
  obtain rfl := Except.ok.inj h
  obtain ⟨hstart, hfits5, hholds, hkept5⟩ := appendBytes_spec hfits happend
  have hle5 := hfits5.metadata
  let out6 := writeWord out5 (attributeAt a + 16) start
  let out7 := writeWord out6 (attributeAt a + 20) (u32 (g.arrays a).bytes.length)
  obtain ⟨hplace, hkept6, (hlength6 : out6.length = out5.length)⟩ :=
    writeWord_spec out5 (attributeAt a + 16) start (by omega)
  obtain ⟨-, hkept7, (hlength7 : out7.length = out6.length)⟩ :=
    writeWord_spec out6 (attributeAt a + 20) (u32 (g.arrays a).bytes.length)
      (by omega)
  have hlast : Kept (writeRecord g out a) out7 (attributeAt a + 16) (attributeAt a + 24) :=
    ((hkept5 _ _).trans (hkept6.mono (by omega) (by omega))).trans
      (hkept7.mono (by omega) (by omega))
  exact ⟨hfits5.of_length (hlength7.trans hlength6),
    ⟨hflags.kept hlast (by omega), hoffset.kept hlast (by omega),
      hstride.kept hlast (by omega), hsource.kept hlast (by omega), fun _ => ⟨start, by omega,
        hplace.kept hkept7 (by omega), (hholds.kept hkept6 (by omega)).kept hkept7 (by omega)⟩⟩,
    hkept.trans (hlast.mono (by omega) (by omega))⟩

/-- The header, and the buffer that it is in. -/
theorem header_fits (g : Geometry) :
    (writeHeader g (List.replicate metadataBytes 0)).length = metadataBytes ∧
      Fits (writeHeader g (List.replicate metadataBytes 0)) := by
  have hlength0 : (List.replicate metadataBytes (0 : UInt8)).length = metadataBytes :=
    List.length_replicate
  obtain ⟨-, -, hlength⟩ :=
    writeHeader_spec g (List.replicate metadataBytes 0) (by rw [hlength0]; decide)
  rw [hlength0] at hlength
  exact ⟨hlength, by rw [hlength]; rfl, hlength.ge, by rw [hlength]; decide⟩

theorem serializeGxGeometry_spec (h : serializeGxGeometry g = .ok data) :
    GeometryWritten g data MKW_GX_VERTEX_ATTRIBUTE_COUNT := by
  have hmetadata : metadataBytes = 704 := rfl
  obtain ⟨hlength, hfits⟩ := header_fits g
  obtain ⟨hstride, hmatrix, -⟩ := writeHeader_spec g (List.replicate metadataBytes 0)
    (by rw [List.length_replicate]; decide)
  obtain ⟨⟨start, out5⟩, happend, h⟩ := bind_eq_ok.1 h
  obtain ⟨hstart, hfits5, hrecords, hkept5⟩ := appendBytes_spec hfits happend
  have hle5 := hfits5.metadata
  rw [hlength] at hstart
  subst hstart
  let out6 := writeWord out5 8 metadataBytes
  obtain ⟨hplace, hkept6, (hlength6 : out6.length = out5.length)⟩ :=
    writeWord_spec out5 8 metadataBytes (by omega)
  have hfits6 : Fits out6 := hfits5.of_length hlength6
  have hstart : GeometryWritten g out6 0 := by
    have hbound := hfits6.bound
    exact ⟨hfits6.aligned, hfits6.metadata, by omega,
      (hstride.kept (hkept5 0 0) (by omega)).kept hkept6 (by omega), hplace,
      (hmatrix.kept (hkept5 0 0) (by omega)).kept hkept6 (by omega),
      hrecords.kept hkept6 (by omega), fun a ha => absurd ha (Nat.not_lt_zero a)⟩
  obtain ⟨out7, hloop, h⟩ := bind_eq_ok.1 h
  obtain rfl := Except.ok.inj h
  obtain ⟨hfits7, hwritten⟩ := Loop.foldlM_range_invariant
    (fun n out => Fits out ∧ GeometryWritten g out n) hloop ⟨hfits6, hstart⟩
    fun n hn out out' hout hturn => by
      obtain ⟨hfits', hattribute, hkept⟩ := writeAttribute_spec hout.1 hn hturn
      have hbound := hfits'.bound
      have hold := hout.2.kept hkept le_rfl (attributeAt_le hn) hfits'.aligned (by omega)
      refine ⟨hfits', { hold with written := fun a ha => ?_ }⟩
      by_cases heq : a = n
      · exact heq ▸ hattribute
      · exact hold.written a (by omega)
  have hbound := hfits7.bound
  have haligned := hfits7.aligned
  refine hwritten.kept (Bytes.kept_append out7 _ metadataBytes metadataBytes) (by decide) le_rfl ?_ ?_
  all_goals
    rw [List.length_append, List.length_replicate]
    omega

/-! ### The size of the buffer -/

/-- Bytes up to a multiple of four. -/
def padded (n : ℕ) : ℕ := (n + 3) / 4 * 4

/-- `total`, with the first `n` arrays. -/
def geometryBytes (g : Geometry) (n : ℕ) : ℕ :=
  metadataBytes + padded g.records.length + ∑ a ∈ Finset.range n, padded (g.arrays a).bytes.length

theorem geometryBytes_succ (g : Geometry) (n : ℕ) :
    geometryBytes g (n + 1) = geometryBytes g n + padded (g.arrays n).bytes.length := by
  rw [geometryBytes, geometryBytes, Finset.sum_range_succ, ← Nat.add_assoc]

theorem geometryBytes_mono (g : Geometry) {m n : ℕ} (h : m ≤ n) :
    geometryBytes g m ≤ geometryBytes g n :=
  Nat.add_le_add_left (Finset.sum_le_sum_of_subset (Finset.range_mono h)) _

/-- Bytes are appended exactly where there is room for them. -/
theorem appendBytes_ok_iff (bytes : List UInt8) (hout : Fits out) :
    (∃ r, appendBytes out bytes = .ok r) ↔ out.length + padded bytes.length + 8 ≤ 2 ^ 32 := by
  obtain ⟨haligned, hmetadata, hbound⟩ := hout
  have hmax : sub64 (sub64 UINT32_MAX out.length) 7 = 2 ^ 32 - 8 - out.length := by
    rw [UINT32_MAX, sub64_eq (x := 4294967295) (by omega) (by omega), sub64_eq (by omega) (by omega)]
    omega
  rw [appendBytes, hmax, padded]
  split
  · constructor
    · rintro ⟨r, h⟩
      cases h
    · intro h
      omega
  · exact ⟨fun _ => by omega, fun _ => ⟨_, rfl⟩⟩

theorem appendBytes_length {bytes : List UInt8} {r : ℕ × List UInt8} (hout : Fits out)
    (h : appendBytes out bytes = .ok r) : r.2.length = out.length + padded bytes.length := by
  obtain ⟨haligned, -, -⟩ := hout
  rw [appendBytes] at h
  split at h
  · cases h
  · obtain rfl := Except.ok.inj h
    simp only [List.length_append, List.length_replicate, padded]
    omega

/-- A turn succeeds exactly where there is room for the array. -/
theorem writeAttribute_ok_iff (hout : Fits out) (ha : a < MKW_GX_VERTEX_ATTRIBUTE_COUNT) :
    ((∃ r, writeAttribute g out a = .ok r) ↔
      out.length + padded (g.arrays a).bytes.length + 8 ≤ 2 ^ 32) ∧
    ∀ r, writeAttribute g out a = .ok r →
      r.length = out.length + padded (g.arrays a).bytes.length := by
  have hpos := attributeAt_le ha
  have hle := hout.metadata
  obtain ⟨-, -, -, -, -, hlength⟩ := writeRecord_spec g out a (by omega)
  have hfits := hout.of_length hlength
  have hbound := hout.bound
  rw [writeAttribute]
  dsimp only
  by_cases hempty : (g.arrays a).bytes = []
  · simp only [hempty, if_true]
    have hzero : padded ([] : List UInt8).length = 0 := rfl
    refine ⟨⟨fun _ => by omega, fun _ => ⟨_, rfl⟩⟩, fun r hr => ?_⟩
    rw [← Except.ok.inj hr, hlength, hzero, Nat.add_zero]
  simp only [if_neg hempty]
  have happend := appendBytes_ok_iff ((g.arrays a).bytes) hfits
  rw [hlength] at happend
  refine ⟨⟨fun ⟨r, hr⟩ => ?_, fun hroom => ?_⟩, fun r hr => ?_⟩
  · obtain ⟨out5, happended, -⟩ := bind_eq_ok.1 hr
    exact happend.1 ⟨out5, happended⟩
  · obtain ⟨out5, happended⟩ := happend.2 hroom
    exact Loop.exists_bind happended ⟨_, rfl⟩
  · obtain ⟨out5, happended, hlast⟩ := bind_eq_ok.1 hr
    obtain rfl := Except.ok.inj hlast
    have hlength5 := appendBytes_length hfits happended
    rw [hlength] at hlength5
    have hword := fun value => writeWord_spec out5.2 (attributeAt a + 16) value
      (by omega)
    rw [(writeWord_spec _ _ _ (by rw [(hword _).2.2]; omega)).2.2, (hword _).2.2, hlength5]

/-- A geometry is serialized exactly where its buffer and four more bytes have 32-bit addresses. -/
theorem serializeGxGeometry_ok_iff (g : Geometry) :
    (∃ data, serializeGxGeometry g = .ok data) ↔
      geometryBytes g MKW_GX_VERTEX_ATTRIBUTE_COUNT + 8 ≤ 2 ^ 32 := by
  obtain ⟨hlength, hfits⟩ := header_fits g
  have happend := appendBytes_ok_iff g.records hfits
  rw [hlength] at happend
  have hword : ∀ r, appendBytes (writeHeader g (List.replicate metadataBytes 0)) g.records = .ok r →
      Fits (writeWord r.2 8 r.1) ∧
        (writeWord r.2 8 r.1).length = geometryBytes g 0 := fun r hr => by
    obtain ⟨-, hfits', -⟩ := appendBytes_spec hfits hr
    have hlength' := (writeWord_spec r.2 8 r.1 (by
      have := hfits'.metadata
      have : metadataBytes = 704 := rfl
      omega)).2.2
    refine ⟨hfits'.of_length hlength', ?_⟩
    rw [hlength', appendBytes_length hfits hr, hlength]
    rfl
  constructor
  · rintro ⟨data, h⟩
    obtain ⟨r, hr, h⟩ := bind_eq_ok.1 h
    obtain ⟨hfits', hlength'⟩ := hword r hr
    obtain ⟨out, hloop, -⟩ := bind_eq_ok.1 h
    obtain ⟨hend, htotal⟩ := Loop.foldlM_range_invariant
      (fun n out => Fits out ∧ out.length = geometryBytes g n) hloop ⟨hfits', hlength'⟩
      fun n hn out out' hout hturn => by
        refine ⟨(writeAttribute_spec hout.1 hn hturn).1, ?_⟩
        rw [(writeAttribute_ok_iff hout.1 hn).2 _ hturn, hout.2, geometryBytes_succ]
    exact htotal ▸ hend.bound
  · intro hroom
    have hfirst := geometryBytes_mono g (Nat.zero_le MKW_GX_VERTEX_ATTRIBUTE_COUNT)
    have hzero : geometryBytes g 0 = metadataBytes + padded g.records.length := rfl
    obtain ⟨r, hr⟩ := happend.2 (by omega)
    obtain ⟨hfits', hlength'⟩ := hword r hr
    obtain ⟨out, hout, -⟩ := Loop.foldlM_range_total
      (fun n out => Fits out ∧ out.length = geometryBytes g n) (f := writeAttribute g)
      (n := MKW_GX_VERTEX_ATTRIBUTE_COUNT) ⟨hfits', hlength'⟩
      fun n hn out hout => by
        have hnext := geometryBytes_mono g (Nat.succ_le_of_lt hn)
        rw [Nat.succ_eq_add_one, geometryBytes_succ] at hnext
        obtain ⟨hiff, hsize⟩ := writeAttribute_ok_iff (g := g) hout.1 hn
        obtain ⟨out', hturn⟩ := hiff.2 (by rw [hout.2]; omega)
        refine ⟨out', hturn, (writeAttribute_spec hout.1 hn hturn).1, ?_⟩
        rw [hsize out' hturn, hout.2, geometryBytes_succ]
    exact Loop.exists_bind hr (Loop.exists_bind hout ⟨_, rfl⟩)

end Gx
