import Mathlib.Tactic.FieldSimp
import Mathlib.Tactic.Linarith
import MkwiiPs5.Gx.VertexFetch

/-!
# The vertex shader and the reference decoder

Both read the same values out of a geometry: the shader from the words of the serialized buffer, the
decoder from the bytes of the snapshot.
-/

namespace Gx

open Bytes (slice number Holds Word)
open Loop (bind_eq_ok)

/-! ### Numbers -/

theorem fractionScale_eq {frac : ℕ} (h : frac ≤ 31) : fractionScale frac = 1 / (2 ^ frac : ℕ) := by
  have hpow : (2 : ℚ) ^ 127 = 2 ^ (127 - frac) * 2 ^ frac := by
    rw [← pow_add, Nat.sub_add_cancel (by omega)]
  rw [fractionScale, Nat.cast_pow, Nat.cast_pow, Nat.cast_pow, Nat.cast_ofNat, hpow]
  field_simp

theorem fetchWidth_eq {type : ℕ} : fetchWidth type = numberBytes type := by
  have hone : type < 2 ↔ type ≤ GX_S8 := Nat.lt_succ_iff
  have htwo : type < 4 ↔ type ≤ GX_S16 := Nat.lt_succ_iff
  simp only [fetchWidth, numberBytes, hone, htwo]

/-- A buffer of words with some bytes in it. -/
structure Stored (data : List UInt8) (start : ℕ) (bytes : List UInt8) : Prop where
  aligned : data.length % 4 = 0
  bound : data.length < 2 ^ 32
  holds : Holds data start bytes

variable {data bytes : List UInt8} {start pos width : ℕ}

theorem Stored.fetchUint (h : Stored data start bytes) (hwidth : 1 ≤ width) (hfour : width ≤ 4)
    (hle : pos + width ≤ bytes.length) (little : Bool) :
    fetchUint data (start + pos) width little = .ok (number little (slice bytes pos width)) := by
  have hin := h.holds.1
  rw [fetchUint_eq h.aligned h.bound hwidth hfour (by omega), h.holds.slice_eq hle]

/-- The shader reads the number that the decoder reads. -/
theorem Stored.fetchNumber (h : Stored data start bytes) {d : AttributeLayout} {little : Bool}
    {value : Scalar} (hfraction : d.fraction ≤ 31)
    (hbytes : d.componentBytes = numberBytes d.type)
    (hle : pos + d.componentBytes ≤ bytes.length)
    (hvalue : component bytes pos d little = .ok value) :
    fetchNumber data (start + pos) d.type d.fraction little = .ok value := by
  obtain ⟨hone, hfour⟩ := numberBytes_le d.type
  rw [component, load_eq hle] at hvalue
  rw [Gx.fetchNumber, fetchWidth_eq, ← hbytes, h.fetchUint (by omega) (by omega) hle]
  dsimp only [bind, Except.bind] at hvalue ⊢
  rw [GX_F32] at hvalue
  split at hvalue
  · next hfloat =>
    rw [if_pos hfloat]
    exact hvalue
  · next hfloat =>
    rw [if_neg hfloat, fractionScale_eq hfraction, mul_one_div]
    exact hvalue

/-! ### Colours -/

/-- The same number, or floats that are equal or next to each other. -/
def SameChannel (gpu cpu : Scalar) : Prop :=
  gpu = cpu ∨
    ∃ x y, gpu = .exact x ∧ cpu = .exact y ∧ |nearestFloat x - nearestFloat y| ≤ ulp y

structure SameColor (f : F4) (channels : List Scalar) : Prop where
  four : channels.length = 4
  red : SameChannel f.x (channels.getD 0 (.exact 0))
  green : SameChannel f.y (channels.getD 1 (.exact 0))
  blue : SameChannel f.z (channels.getD 2 (.exact 0))
  alpha : SameChannel f.w (channels.getD 3 (.exact 0))

/-- Rounding the inverse before the product moves a colour by one float at most. -/
theorem near_field : ∀ bits ∈ [4, 5, 6], ∀ c < 2 ^ bits,
    |nearestFloat ((c : ℕ) * inverse (2 ^ bits - 1)) -
        nearestFloat ((c : ℕ) / ((2 ^ bits - 1 : ℕ) : ℚ))| ≤
      ulp ((c : ℕ) / ((2 ^ bits - 1 : ℕ) : ℚ)) := by
  decide +kernel

theorem near_byte : ∀ c < 256, |nearestFloat ((c : ℕ) * unormScale) -
    nearestFloat ((c : ℕ) / ((2 ^ 8 - 1 : ℕ) : ℚ))| ≤ ulp ((c : ℕ) / ((2 ^ 8 - 1 : ℕ) : ℚ)) := by
  decide +kernel

theorem sameChannel_field {bits : ℕ} (hbits : bits ∈ [4, 5, 6]) (v shift : ℕ) :
    SameChannel (fetchField v shift bits) (colorField v shift bits) := by
  refine Or.inr ⟨_, _, rfl, rfl, near_field bits hbits _ ?_⟩
  rw [and_ones]
  exact Nat.mod_lt _ (Nat.two_pow_pos bits)

theorem sameChannel_byte {v : ℕ} (h : v < 256) : SameChannel (fetchByte v) (colorField v 0 8) := by
  refine Or.inr ⟨_, _, rfl, rfl, ?_⟩
  rw [and_ones, Nat.shiftRight_zero, Nat.mod_eq_of_lt (h.trans_eq (by norm_num))]
  exact near_byte v h

theorem u32_of_le {x n : ℕ} (h : x ≤ n) (hn : n < 2 ^ 32) : u32 x = x := Nat.mod_eq_of_lt (by omega)

/-- The shader reads the bytes of the channels where the decoder reads them. -/
theorem Stored.fetchChannel (h : Stored data start bytes) (pos k : ℕ)
    (hle : pos + k < bytes.length) :
    load bytes (pos + k) 1 true = .ok (number true (slice bytes (pos + k) 1)) ∧
      Gx.fetchUint data (u32 (start + pos + k)) 1 true =
        .ok (number true (slice bytes (pos + k) 1)) ∧
      number true (slice bytes (pos + k) 1) < 256 := by
  have hin := h.holds.1
  refine ⟨load_eq (by omega) true, ?_, ?_⟩
  · rw [u32_of_le (n := data.length) (by omega) h.bound, Nat.add_assoc,
      h.fetchUint le_rfl (by omega) (by omega)]
  · have hlt := Bytes.number_lt true (slice bytes (pos + k) 1)
    rwa [Bytes.length_slice (by omega)] at hlt

/-- And the number that packs them. -/
theorem Stored.fetchPacked (h : Stored data start bytes) {d : AttributeLayout}
    (hnot : ¬ (d.type = 1 ∨ d.type = 2 ∨ d.type = 5)) (htype : d.type ≤ GX_RGBA8)
    (hbytes : d.componentBytes = colorBytes d.type)
    (hle : pos + d.componentBytes ≤ bytes.length) (little : Bool) :
    Gx.fetchUint data (start + pos) (if d.type = 4 then 3 else 2) little =
      .ok (number little (slice bytes pos d.componentBytes)) := by
  have hsize : (if d.type = 4 then 3 else 2) = d.componentBytes := by
    rw [hbytes]
    rw [GX_RGBA8] at htype
    have htypes : d.type = 0 ∨ d.type = 3 ∨ d.type = 4 := by omega
    rcases htypes with heq | heq | heq <;> rw [heq] <;> rfl
  rw [hsize]
  refine h.fetchUint ?_ ?_ hle little
  all_goals
    rw [← hsize]
    split <;> omega

/-- The shader reads the colour that the decoder reads. -/
theorem Stored.fetchColor (h : Stored data start bytes) {d : AttributeLayout} {little : Bool}
    {channels : List Scalar} (htype : d.type ≤ GX_RGBA8) (hbytes : d.componentBytes = colorBytes d.type)
    (hle : pos + d.componentBytes ≤ bytes.length)
    (hvalue : colorValue bytes pos d little = .ok channels) :
    ∃ f, fetchColor data (start + pos) d.type little = .ok f ∧ SameColor f channels := by
  have hin := h.holds.1
  rw [colorValue] at hvalue
  split at hvalue
  · next hthree =>
    -- one byte for each channel: both sides divide it alike
    obtain ⟨hthree', hfour⟩ := colorBytes_eq hthree
    obtain ⟨hload0, hfetch0, hlt0⟩ := h.fetchChannel pos 0 (by omega)
    obtain ⟨hload1, hfetch1, hlt1⟩ := h.fetchChannel pos 1 (by omega)
    obtain ⟨hload2, hfetch2, hlt2⟩ := h.fetchChannel pos 2 (by omega)
    have hstart : u32 (start + pos + 0) = start + pos :=
      u32_of_le (n := data.length) (by omega) h.bound
    rw [hstart] at hfetch0
    rw [Nat.add_zero] at hload0 hfetch0 hlt0
    rw [hload0, hload1, hload2] at hvalue
    rw [Gx.fetchColor, if_pos (show d.type = 1 ∨ d.type = 2 ∨ d.type = 5 from hthree), hfetch0,
      hfetch1, hfetch2]
    dsimp only [bind, Except.bind] at hvalue ⊢
    rw [GX_RGBA8] at hvalue
    split at hvalue
    · next halpha =>
      have hsize := hfour halpha
      obtain ⟨hload3, hfetch3, hlt3⟩ := h.fetchChannel pos 3 (by omega)
      rw [hload3] at hvalue
      obtain rfl := Except.ok.inj hvalue
      rw [if_pos halpha, hfetch3]
      exact ⟨_, rfl, rfl, sameChannel_byte hlt0, sameChannel_byte hlt1, sameChannel_byte hlt2,
        sameChannel_byte hlt3⟩
    · next halpha =>
      obtain rfl := Except.ok.inj hvalue
      rw [if_neg halpha]
      exact ⟨_, rfl, rfl, sameChannel_byte hlt0, sameChannel_byte hlt1, sameChannel_byte hlt2,
        Or.inl rfl⟩
  · next hnot =>
    -- packed channels: the shader multiplies by a rounded inverse
    rw [load_eq hle] at hvalue
    rw [Gx.fetchColor, if_neg (show ¬ (d.type = 1 ∨ d.type = 2 ∨ d.type = 5) from hnot),
      h.fetchPacked hnot htype hbytes hle]
    dsimp only [bind, Except.bind] at hvalue ⊢
    rw [GX_RGB565, GX_RGBA4] at hvalue
    split at hvalue
    · next h565 =>
      obtain rfl := Except.ok.inj hvalue
      rw [if_pos h565]
      exact ⟨_, rfl, rfl, sameChannel_field (by decide) _ _, sameChannel_field (by decide) _ _,
        sameChannel_field (by decide) _ _, Or.inl rfl⟩
    · next h565 =>
      rw [if_neg h565]
      split at hvalue
      · next h4 =>
        obtain rfl := Except.ok.inj hvalue
        rw [if_pos h4]
        exact ⟨_, rfl, rfl, sameChannel_field (by decide) _ _, sameChannel_field (by decide) _ _,
          sameChannel_field (by decide) _ _, sameChannel_field (by decide) _ _⟩
      · next h4 =>
        obtain rfl := Except.ok.inj hvalue
        rw [if_neg h4]
        exact ⟨_, rfl, rfl, sameChannel_field (by decide) _ _, sameChannel_field (by decide) _ _,
          sameChannel_field (by decide) _ _, sameChannel_field (by decide) _ _⟩

/-! ### The record of an attribute -/

variable {v : VertexState} {resolve : Resolver} {g : Geometry} {out : DecodedVertex}
variable {attr vertex group : ℕ}

/-- The fields of the flags fit their bits. -/
structure FlagsFit (d : AttributeLayout) : Prop where
  mode : d.mode < 4
  type : d.type < 8
  components : d.components < 16
  indexCount : d.indexCount < 4
  fraction : d.fraction < 32

theorem AttributeFits.flagsFit {d : AttributeLayout} (h : AttributeFits attr d)
    (hlow : GX_VA_POS ≤ attr) : FlagsFit d := by
  obtain ⟨-, hcomponents, -, hindex⟩ := h.sizes
  have hmode := h.mode
  simp only [GX_DIRECT, GX_INDEX8, GX_INDEX16] at hmode
  have hformat : d.type < 8 ∧ d.fraction < 32 := by
    cases hcolor : isColor attr with
    | true =>
      obtain ⟨htype, -, -, -, hfraction⟩ := h.color hcolor
      rw [GX_RGBA8] at htype
      omega
    | false =>
      obtain ⟨htype, hfraction, -⟩ := h.numeric hlow hcolor
      rw [GX_F32] at htype
      omega
  exact ⟨by omega, hformat.1, by omega, by omega, hformat.2⟩

theorem or_shiftLeft_eq {x i : ℕ} (h : x < 2 ^ i) (y : ℕ) : x ||| y <<< i = x + 2 ^ i * y := by
  rw [Nat.or_comm, or_eq_add h, Nat.mul_comm, Nat.add_comm]

theorem attributeFlags_eq {d : AttributeLayout} (h : FlagsFit d) :
    attributeFlags d = d.mode + 2 ^ 2 * d.type + 2 ^ 5 * d.components + 2 ^ 9 * d.indexCount +
      2 ^ 11 * d.fraction + 2 ^ 16 * d.arrayLittleEndian.toNat := by
  obtain ⟨hmode, htype, hcomponents, hindex, hfraction⟩ := h
  rw [attributeFlags, or_shiftLeft_eq (i := 2) (by omega), or_shiftLeft_eq (i := 5) (by omega),
    or_shiftLeft_eq (i := 9) (by omega), or_shiftLeft_eq (i := 11) (by omega),
    or_shiftLeft_eq (i := 16) (by omega)]

/-- The mode is at the low end, whatever the other fields are. -/
theorem attributeFlags_mode {d : AttributeLayout} (h : d.mode < 4) :
    u32 (attributeFlags d) &&& 3 = d.mode := by
  have hshift : ∀ y i, 2 ≤ i → y <<< i % 2 ^ 2 = 0 := fun y i hi => by
    rw [Nat.shiftLeft_eq]
    exact Nat.mod_eq_zero_of_dvd ((Nat.pow_dvd_pow 2 hi).mul_left y)
  rw [show 3 = 2 ^ 2 - 1 by rfl, and_ones, u32, Nat.mod_mod_of_dvd _ (by decide), attributeFlags,
    Nat.or_mod_two_pow, Nat.or_mod_two_pow, Nat.or_mod_two_pow, Nat.or_mod_two_pow,
    Nat.or_mod_two_pow, hshift _ 2 (by omega), hshift _ 5 (by omega), hshift _ 9 (by omega),
    hshift _ 11 (by omega), hshift _ 16 (by omega), Nat.mod_eq_of_lt (by omega)]
  simp

/-- The shader takes the flags apart again. -/
structure FlagsOf (d : AttributeLayout) (x : ℕ) : Prop where
  mode : x &&& 3 = d.mode
  type : x >>> 2 &&& 7 = d.type
  components : x >>> 5 &&& 15 = d.components
  indexCount : x >>> 9 &&& 3 = d.indexCount
  fraction : x >>> 11 &&& 31 = d.fraction
  little : (x >>> 16 &&& 1 == 1) = d.arrayLittleEndian

theorem FlagsFit.flagsOf {d : AttributeLayout} (h : FlagsFit d) :
    FlagsOf d (u32 (attributeFlags d)) := by
  have hsum := attributeFlags_eq h
  have hle := Bool.toNat_le d.arrayLittleEndian
  obtain ⟨hmode, htype, hcomponents, hindex, hfraction⟩ := h
  have hword : u32 (attributeFlags d) = attributeFlags d := Nat.mod_eq_of_lt (by omega)
  rw [hword]
  have hfield : ∀ i n, attributeFlags d >>> i &&& (2 ^ n - 1) = attributeFlags d / 2 ^ i % 2 ^ n :=
    fun i n => by rw [and_ones, Nat.shiftRight_eq_div_pow]
  refine ⟨?_, (hfield 2 3).trans (by omega), (hfield 5 4).trans (by omega),
    (hfield 9 2).trans (by omega), (hfield 11 5).trans (by omega), ?_⟩
  · exact (and_ones (attributeFlags d) 2).trans (by omega)
  · have hbit : attributeFlags d >>> 16 &&& 1 = d.arrayLittleEndian.toNat :=
      (hfield 16 1).trans (by omega)
    rw [hbit]
    cases d.arrayLittleEndian <;> rfl

/-! ### Where a group is -/

theorem loadWord_word {x : ℕ} (h : Word data pos x) : loadWord data pos = .ok (u32 x) := by
  have hlength := h.1
  have hslice := h.2
  rw [Bytes.length_toLittle] at hlength hslice
  rw [loadWord, readUint_ok hlength, hslice, Bool.not_false, number, if_pos rfl,
    Bytes.ofLittle_toLittle]
  rfl

theorem loadMeta_ok (data : List UInt8) (pos : ℕ) (h : pos + 16 ≤ data.length) : ∃ a, loadMeta data pos = .ok a ∧
    loadWord data pos = .ok a.x ∧ loadWord data (pos + 4) = .ok a.y ∧
    loadWord data (pos + 8) = .ok a.z ∧ loadWord data (pos + 12) = .ok a.w := by
  have hload := fun k (hk : k ≤ 12) => (loadWord_eq (by omega) : loadWord data (pos + k) = _)
  have h0 := hload 0 (by omega)
  rw [Nat.add_zero] at h0
  refine ⟨_, bind_eq_ok.2 ⟨_, h0, bind_eq_ok.2 ⟨_, hload 4 (by omega), bind_eq_ok.2
    ⟨_, hload 8 (by omega), bind_eq_ok.2 ⟨_, hload 12 (by omega), rfl⟩⟩⟩⟩, h0, hload 4 (by omega),
    hload 8 (by omega), hload 12 (by omega)⟩

/-- The header of a written geometry, as far as the shader uses it. -/
structure HeaderOf (g : Geometry) (header : U4) : Prop where
  stride : header.y = u32 g.layout.stride
  start : header.z = metadataBytes

theorem GeometryWritten.header (h : GeometryWritten g data MKW_GX_VERTEX_ATTRIBUTE_COUNT) :
    ∃ header, loadMeta data 0 = .ok header ∧ HeaderOf g header := by
  have hle := h.metadata
  have hmetadata : metadataBytes = 704 := rfl
  obtain ⟨header, hload, -, hy, hz, -⟩ := loadMeta_ok data 0 (by omega)
  refine ⟨header, hload, ?_, ?_⟩
  · exact Except.ok.inj (hy.symm.trans (loadWord_word h.stride))
  · exact Except.ok.inj (hz.symm.trans (loadWord_word h.start))

/-- What the shader reads of an attribute that is written. -/
def writtenRecord (g : Geometry) (attr : ℕ) : U4 :=
  ⟨u32 (attributeFlags (g.layout.attributes attr)), u32 (g.layout.attributes attr).offset,
    u32 (g.layout.attributes attr).arrayStride, u32 (g.arrays attr).sourceOffset⟩

theorem writtenRecord_none (h : (g.layout.attributes attr).mode = GX_NONE) :
    (writtenRecord g attr).x &&& 3 = 0 := by
  rw [writtenRecord, attributeFlags_mode (by rw [h]; decide), h]
  rfl

theorem writtenRecord_flags (h : AttributeFits attr (g.layout.attributes attr))
    (hlow : GX_VA_POS ≤ attr) : FlagsOf (g.layout.attributes attr) (writtenRecord g attr).x :=
  (h.flagsFit hlow).flagsOf

theorem GeometryWritten.record (h : GeometryWritten g data MKW_GX_VERTEX_ATTRIBUTE_COUNT)
    (hattr : attr < MKW_GX_VERTEX_ATTRIBUTE_COUNT) :
    loadMeta data (attributeAt attr) = .ok (writtenRecord g attr) := by
  obtain ⟨hflags, hoffset, hstride, hsource, -⟩ := h.written attr hattr
  rw [loadMeta, loadWord_word hflags, loadWord_word hoffset, loadWord_word hstride,
    loadWord_word hsource]
  rfl

theorem GeometryWritten.storedRecords (h : GeometryWritten g data MKW_GX_VERTEX_ATTRIBUTE_COUNT) :
    Stored data metadataBytes g.records :=
  ⟨h.aligned, h.bound, h.records⟩

theorem sub32_eq {x y : ℕ} (hle : y ≤ x) (hy : y < 2 ^ 32) (hlt : x - y < 2 ^ 32) :
    sub32 x y = x - y := by
  rw [sub32, u32, Nat.mod_eq_of_lt hy]
  omega

theorem groupBytes_pos {d : AttributeLayout} (h : AttributeFits attr d) (hlow : GX_VA_POS ≤ attr) :
    1 ≤ groupBytes attr d := by
  rw [groupBytes]
  split
  · next hcolor =>
    obtain ⟨htype, -, hbytes, -⟩ := h.color hcolor
    have := colorBytes_le htype
    omega
  · next hcolor =>
    have hnumeric : Numeric attr := ⟨hlow, Bool.eq_false_iff.2 hcolor⟩
    have hwidth := (numberBytes_le d.type).1
    rw [← (h.numeric hlow hnumeric.2).2.2] at hwidth
    exact Nat.mul_pos (h.one_le_components hnumeric) hwidth

/-- The bytes before a group in its element, as the shader counts them. -/
theorem groupOffset_eq {d : AttributeLayout} (h : AttributeFits attr d) (hlow : GX_VA_POS ≤ attr)
    (hgroup : group < groupCount attr d) : group * 3 * fetchWidth d.type = group * 3 * d.componentBytes := by
  cases hcolor : isColor attr with
  | true =>
    have hnrm : attr ≠ GX_VA_NRM := by
      rintro rfl
      cases hcolor
    have hcount := (groupCount_eq attr d).resolve_right fun hthree => hnrm hthree.1
    have hzero : group = 0 := by omega
    rw [hzero]
    simp
  | false => rw [fetchWidth_eq, (h.numeric hlow hcolor).2.2]

/-- The sizes and positions of an attribute are words. -/
structure WordsFit (g : Geometry) (vertex attr : ℕ) : Prop where
  stride : u32 g.layout.stride = g.layout.stride
  offset : u32 (g.layout.attributes attr).offset = (g.layout.attributes attr).offset
  place : u32 (metadataBytes + vertex * g.layout.stride + (g.layout.attributes attr).offset) =
    metadataBytes + (vertex * g.layout.stride + (g.layout.attributes attr).offset)

theorem Decodes.wordsFit (hg : Decodes v resolve g) (hrecords : Stored data metadataBytes g.records)
    (hvertex : vertex < g.count) (hattr : attr < GxGeometryAttributeCount)
    (hmode : (g.layout.attributes attr).mode ≠ GX_NONE) : WordsFit g vertex attr := by
  have hin := hrecords.holds.1
  have hbound := hrecords.bound
  obtain ⟨-, hrecord⟩ := hg.record vertex hvertex attr hattr hmode
  have hone : g.layout.stride ≤ g.records.length := by
    rw [hg.records]
    exact Nat.le_mul_of_pos_left _ (Nat.zero_lt_of_lt hvertex)
  refine ⟨Nat.mod_eq_of_lt (by omega), Nat.mod_eq_of_lt (by omega), ?_⟩
  rw [Nat.add_assoc]
  exact Nat.mod_eq_of_lt (by omega)

theorem arrayStride_word {d : AttributeLayout} (h : AttributeFits attr d) :
    u32 d.arrayStride = d.arrayStride :=
  Nat.mod_eq_of_lt (h.arrayStride.trans (by decide))

/-- A group in the record of its vertex. -/
theorem fetchPlace_direct (hg : Decodes v resolve g)
    (hwritten : GeometryWritten g data MKW_GX_VERTEX_ATTRIBUTE_COUNT) {header : U4}
    (hheader : HeaderOf g header) (hvertex : vertex < g.count)
    (hattr : attr < GxGeometryAttributeCount) (hlow : GX_VA_POS ≤ attr)
    (hdirect : (g.layout.attributes attr).mode = GX_DIRECT)
    (hfits : AttributeFits attr (g.layout.attributes attr))
    (hgroup : group < groupCount attr (g.layout.attributes attr)) :
    ∃ start, Stored data start (heldIn g attr) ∧
      fetchPlace data header (writtenRecord g attr) vertex attr group =
        .ok (start + groupAddress g attr vertex group, (g.layout.attributes attr).little) := by
  have hmode : (g.layout.attributes attr).mode ≠ GX_NONE := fun hnone => by
    cases hdirect.symm.trans hnone
  have hno : (g.layout.attributes attr).indexed = false := by
    rw [AttributeLayout.indexed, hdirect]
    rfl
  have hflags := (hfits.flagsFit hlow).flagsOf
  have hrecords := hwritten.storedRecords
  have hin := hrecords.holds.1
  have hbound := hrecords.bound
  have hwords := hg.wordsFit hrecords hvertex hattr hmode
  have hpositive := groupBytes_pos hfits hlow
  obtain ⟨-, hheld, -⟩ := hg.group vertex hvertex attr hattr hlow hmode group hgroup
  have hheldIn : heldIn g attr = g.records := by rw [heldIn, if_neg (ne_true_of_eq_false hno)]
  have haddress : groupAddress g attr vertex group =
      vertex * g.layout.stride + (g.layout.attributes attr).offset +
        group * 3 * (g.layout.attributes attr).componentBytes := by
    rw [groupAddress, groupOffset]
    simp [hno]
  rw [hheldIn, haddress] at hheld
  refine ⟨metadataBytes, hheldIn ▸ hrecords, ?_⟩
  rw [fetchPlace, writtenRecord]
  dsimp only
  rw [hflags.mode, hflags.type, hheader.stride, hheader.start, hwords.stride, hwords.offset,
    hwords.place, groupOffset_eq hfits hlow hgroup, hdirect, GX_DIRECT, if_pos rfl, haddress,
    AttributeLayout.little, hno, Bool.false_and, u32, Nat.mod_eq_of_lt (by omega),
    Nat.add_assoc metadataBytes]
  rfl

/-- Where the shader reads the index of a group. -/
theorem indexPlace_eq (hg : Decodes v resolve g) (hrecords : Stored data metadataBytes g.records)
    (hvertex : vertex < g.count) (hattr : attr < GxGeometryAttributeCount)
    (hlow : GX_VA_POS ≤ attr) (hindexed : (g.layout.attributes attr).indexed = true)
    (hgroup : group < groupCount attr (g.layout.attributes attr)) :
    (if (g.layout.attributes attr).indexCount = 3 then
        u32 (metadataBytes + (vertex * g.layout.stride + (g.layout.attributes attr).offset) +
          group * indexWidth (g.layout.attributes attr).mode)
      else metadataBytes + (vertex * g.layout.stride + (g.layout.attributes attr).offset)) =
      metadataBytes +
        (vertex * g.layout.stride + (g.layout.attributes attr).indexOffset group) := by
  have hin := hrecords.holds.1
  have hbound := hrecords.bound
  have hindexLe := hg.index vertex hvertex attr hattr hlow hindexed group hgroup
  rw [AttributeLayout.indexOffset] at hindexLe ⊢
  split
  · next heq =>
    rw [if_pos heq] at hindexLe
    have := (indexWidth_le (g.layout.attributes attr).mode).1
    rw [u32, Nat.mod_eq_of_lt (by omega)]
    omega
  · rfl

/-- An array that holds a group is in the buffer where its record says. -/
theorem GeometryWritten.storedArray (h : GeometryWritten g data MKW_GX_VERTEX_ATTRIBUTE_COUNT)
    (hattr : attr < MKW_GX_VERTEX_ATTRIBUTE_COUNT)
    (hindexed : (g.layout.attributes attr).indexed = true) (hsome : (g.arrays attr).bytes ≠ []) :
    ∃ start b, Stored data start (heldIn g attr) ∧ loadMeta data (attributeAt attr + 16) = .ok b ∧
      b.x = start := by
  obtain ⟨start, -, hword, hholds⟩ := (h.written attr hattr).array hsome
  have hmetadata := h.metadata
  have hbound := h.bound
  obtain ⟨b, hb, hbx, -⟩ := loadMeta_ok data (attributeAt attr + 16) (by
    have := attributeAt_le hattr
    have : metadataBytes = 704 := rfl
    omega)
  refine ⟨start, b, ?_, hb, ?_⟩
  · rw [heldIn, if_pos hindexed]
    exact ⟨h.aligned, h.bound, hholds⟩
  · rw [Except.ok.inj (hbx.symm.trans (loadWord_word hword))]
    have := hholds.1
    exact Nat.mod_eq_of_lt (by omega)

/-- A group in an array: its index is in the record. -/
theorem fetchPlace_indexed (hg : Decodes v resolve g)
    (hwritten : GeometryWritten g data MKW_GX_VERTEX_ATTRIBUTE_COUNT) {header : U4}
    (hheader : HeaderOf g header) (hvertex : vertex < g.count)
    (hattr : attr < GxGeometryAttributeCount) (hlow : GX_VA_POS ≤ attr)
    (hindexed : (g.layout.attributes attr).indexed = true)
    (hfits : AttributeFits attr (g.layout.attributes attr))
    (hgroup : group < groupCount attr (g.layout.attributes attr)) :
    ∃ start, Stored data start (heldIn g attr) ∧
      fetchPlace data header (writtenRecord g attr) vertex attr group =
        .ok (start + groupAddress g attr vertex group, (g.layout.attributes attr).little) := by
  have hmodes := indexed_iff.1 hindexed
  simp only [GX_INDEX8, GX_INDEX16] at hmodes
  have hmode : (g.layout.attributes attr).mode ≠ GX_NONE := fun hnone => by
    rw [GX_NONE] at hnone
    omega
  have hflags := (hfits.flagsFit hlow).flagsOf
  have hrecords := hwritten.storedRecords
  have hbound := hrecords.bound
  have hwords := hg.wordsFit hrecords hvertex hattr hmode
  have hpositive := groupBytes_pos hfits hlow
  obtain ⟨-, hheld, -⟩ := hg.group vertex hvertex attr hattr hlow hmode group hgroup
  obtain ⟨hwidthOne, hwidthTwo⟩ := indexWidth_le (g.layout.attributes attr).mode
  have hwidth : (if (g.layout.attributes attr).mode = 3 then 2 else 1) =
      indexWidth (g.layout.attributes attr).mode := rfl
  have hthree : (attr = 10 ∧ (g.layout.attributes attr).indexCount = 3) ↔
      (g.layout.attributes attr).indexCount = 3 := by
    refine and_iff_right_of_imp fun hthree => ?_
    by_contra hnrm
    rw [hfits.indexCount_eq hlow hnrm] at hthree
    omega
  have hindexLe := hg.index vertex hvertex attr hattr hlow hindexed group hgroup
  -- the index is the number that the decoder reads from the record
  have hfetch := hrecords.fetchUint hwidthOne (by omega) hindexLe false
  obtain ⟨resolved, hcaptured⟩ :=
    hg.captured (Nat.zero_lt_of_lt hvertex) attr hattr hlow hindexed
  obtain ⟨hfirst, hlast⟩ := hcaptured.elements vertex hvertex group hgroup
  have hsome : (g.arrays attr).bytes ≠ [] := fun hnil => by
    rw [heldIn, if_pos hindexed, hnil, List.length_nil] at hheld
    omega
  obtain ⟨start, b, hstored, hb, rfl⟩ := hwritten.storedArray hattr hindexed hsome
  have hend := hstored.holds.1
  rw [heldIn, if_pos hindexed] at hend hheld
  have haddress : groupAddress g attr vertex group =
      groupIndex g.layout g.records attr vertex group * (g.layout.attributes attr).arrayStride -
        (g.arrays attr).sourceOffset +
      if (g.layout.attributes attr).indexCount = 3 then 0
      else group * 3 * (g.layout.attributes attr).componentBytes := by
    rw [groupAddress, groupOffset]
    simp only [hindexed, if_true, true_and]
  -- the offset of the captured bytes is inside the array, so that its word is the offset itself
  have hsource : u32 (g.arrays attr).sourceOffset = (g.arrays attr).sourceOffset :=
    Nat.mod_eq_of_lt (by
      have hdeclared := hcaptured.declared
      have hsize := (v.arrays attr).size.toNat_lt
      omega)
  have hsourceLt : (g.arrays attr).sourceOffset < 2 ^ 32 := hsource ▸ Nat.mod_lt _ (by decide)
  refine ⟨b.x, hstored, ?_⟩
  rw [fetchPlace, writtenRecord]
  dsimp only
  rw [hflags.mode, hflags.type, hflags.indexCount, hflags.little, hheader.stride, hheader.start,
    hwords.stride, hwords.offset, arrayStride_word hfits, hwords.place,
    groupOffset_eq hfits hlow hgroup, if_neg (by omega), hwidth]
  simp only [hthree]
  rw [indexPlace_eq hg hrecords hvertex hattr hlow hindexed hgroup, hfetch, hb]
  dsimp only [bind, Except.bind]
  change Except.ok (u32 (sub32 (b.x + groupIndex g.layout g.records attr vertex group * _) _ + _), _) = _
  rw [hsource, sub32_eq (by omega) hsourceLt (by omega), AttributeLayout.little, hindexed,
    Bool.true_and, haddress, u32, Nat.mod_eq_of_lt (by omega)]
  congr 2
  -- the shader subtracts the offset last, and the decoder before it adds the group
  omega

/-- The shader finds a group where the decoder finds it. -/
theorem fetchPlace_eq (hg : Decodes v resolve g)
    (hwritten : GeometryWritten g data MKW_GX_VERTEX_ATTRIBUTE_COUNT) {header : U4}
    (hheader : HeaderOf g header) (hvertex : vertex < g.count)
    (hattr : attr < GxGeometryAttributeCount) (hlow : GX_VA_POS ≤ attr)
    (hfits : AttributeFits attr (g.layout.attributes attr))
    (hgroup : group < groupCount attr (g.layout.attributes attr)) :
    ∃ start, Stored data start (heldIn g attr) ∧
      fetchPlace data header (writtenRecord g attr) vertex attr group =
        .ok (start + groupAddress g attr vertex group, (g.layout.attributes attr).little) := by
  rcases hfits.mode with hdirect | hindexed
  · exact fetchPlace_direct hg hwritten hheader hvertex hattr hlow hdirect hfits hgroup
  · exact fetchPlace_indexed hg hwritten hheader hvertex hattr hlow (indexed_iff.2 hindexed) hfits
      hgroup

/-! ### Attributes -/

/-- The numbers of an attribute as the four that a shader computes with. -/
def DecodedVertex.fetched (out : DecodedVertex) (attr group : ℕ) : F4 where
  x := out.number attr group 0
  y := out.number attr group 1
  z := if attr < GX_VA_TEX0 then out.number attr group 2 else .exact 0
  w := .exact 0

theorem Stored.fetchNumbers {numbers : ℕ → Scalar} (h : Stored data start (heldIn g attr))
    (hnumbers : DecodedNumbers g vertex attr group numbers) (hnumeric : Numeric attr)
    (hfits : AttributeFits attr (g.layout.attributes attr))
    (hle : groupAddress g attr vertex group + groupBytes attr (g.layout.attributes attr) ≤
      (heldIn g attr).length) :
    fetchNumbers data (start + groupAddress g attr vertex group) (g.layout.attributes attr).type
        (g.layout.attributes attr).fraction (g.layout.attributes attr).components
        (g.layout.attributes attr).little =
      .ok ⟨numbers 0, numbers 1, numbers 2, .exact 0⟩ := by
  obtain ⟨-, hfraction, hbytes⟩ := hfits.numeric hnumeric.1 hnumeric.2
  have hin := h.holds.1
  have hbound := h.bound
  rw [groupBytes, if_neg (ne_true_of_eq_false hnumeric.2)] at hle
  -- the components of a group lie one after the other
  have hpart : ∀ c < groupComponents attr (g.layout.attributes attr),
      c * (g.layout.attributes attr).componentBytes + (g.layout.attributes attr).componentBytes ≤
        groupComponents attr (g.layout.attributes attr) *
          (g.layout.attributes attr).componentBytes := fun c hc => by
    rw [← Nat.succ_mul]
    exact Nat.mul_le_mul_right _ hc
  have hnumber : ∀ c < groupComponents attr (g.layout.attributes attr),
      Gx.fetchNumber data (start + (groupAddress g attr vertex group +
          c * (g.layout.attributes attr).componentBytes)) (g.layout.attributes attr).type
        (g.layout.attributes attr).fraction (g.layout.attributes attr).little = .ok (numbers c) :=
    fun c hc => by
      have := hpart c hc
      exact h.fetchNumber hfraction hbytes (by omega) (hnumbers.component c hc)
  have hcomponents : ∀ c, 1 ≤ c → c ≤ 2 → (c < (g.layout.attributes attr).components ↔
      c < groupComponents attr (g.layout.attributes attr)) := fun c _ _ => by
    rw [groupComponents]
    split
    · next hnrm =>
      have := hfits.normal hnrm
      omega
    · rfl
  have hcomponent : ∀ c, 1 ≤ c → c ≤ 2 →
      fetchComponent data (start + groupAddress g attr vertex group) (g.layout.attributes attr).type
        (g.layout.attributes attr).fraction (g.layout.attributes attr).components
        (g.layout.attributes attr).little c = .ok (numbers c) := fun c hone htwo => by
    -- a component that is missing is zero on both sides
    rw [fetchComponent, fetchWidth_eq, ← hbytes]
    by_cases hc : c < groupComponents attr (g.layout.attributes attr)
    · have := hpart c hc
      rw [if_pos ((hcomponents c hone htwo).2 hc), u32, Nat.mod_eq_of_lt (by omega), Nat.add_assoc]
      exact hnumber c hc
    · rw [if_neg fun hlt => hc ((hcomponents c hone htwo).1 hlt), hnumbers.rest c (Nat.le_of_not_lt hc)]
      rfl
  have hfirst := hnumber 0 (hfits.one_le_components hnumeric)
  rw [Nat.zero_mul, Nat.add_zero] at hfirst
  rw [Gx.fetchNumbers, hfirst, hcomponent 1 le_rfl (by omega), hcomponent 2 (by omega) le_rfl]
  rfl

theorem fetchGroup_eq (attr : ℕ) (d : AttributeLayout) (group : ℕ) :
    (if attr ≠ 10 ∨ d.components ≠ 9 then 0 else group) = sourceGroup attr d group := by
  have hcount : groupCount attr d = 3 ↔ ¬ (attr ≠ 10 ∨ d.components ≠ 9) := by
    rw [groupCount, GX_VA_NRM]
    split <;> omega
  rw [sourceGroup]
  by_cases h : attr ≠ 10 ∨ d.components ≠ 9
  · rw [if_pos h, if_neg fun heq => hcount.1 heq h]
  · rw [if_neg h, if_pos (hcount.2 h)]

theorem sourceGroup_lt (attr : ℕ) (d : AttributeLayout) (hgroup : group < 3) :
    sourceGroup attr d group < groupCount attr d := by
  rw [sourceGroup]
  have := groupCount_eq attr d
  split <;> omega

/-- Without the attribute, both take the same values. -/
theorem fetchDefault_eq (hnumeric : Numeric attr) (currentPnMtx group : ℕ) :
    fetchDefault attr = (DecodedVertex.initial currentPnMtx).fetched attr group := by
  rw [fetchDefault, if_neg (ne_true_of_eq_false hnumeric.2), DecodedVertex.fetched]
  have hzero := initial_blank currentPnMtx attr group
  rw [hzero 1 le_rfl, hzero 2 (by omega), ite_self]
  rcases numeric_iff.1 hnumeric with rfl | rfl | htex
  · rfl
  · simp only [DecodedVertex.number, DecodedVertex.initial, ite_self]
    rfl
  · have hpos : attr ≠ GX_VA_POS := by
      simp only [GX_VA_TEX0, GX_VA_POS] at *
      omega
    have hnrm : attr ≠ GX_VA_NRM := by
      simp only [GX_VA_TEX0, GX_VA_NRM] at *
      omega
    rw [if_neg (show attr ≠ 10 from hnrm), DecodedVertex.number, if_neg hpos, if_neg hnrm]
    rfl

/-- The shader has of every group what the decoder has. -/
theorem attributeGroup_number (hg : Decodes v resolve g)
    (hfits : ∀ attr < GxGeometryAttributeCount, (g.layout.attributes attr).mode ≠ GX_NONE →
      AttributeFits attr (g.layout.attributes attr))
    (hwritten : GeometryWritten g data MKW_GX_VERTEX_ATTRIBUTE_COUNT) {header : U4}
    (hheader : HeaderOf g header) (hvertex : vertex < g.count)
    (hout : decodeGxVertex g vertex = .ok out) (hattr : attr < GxGeometryAttributeCount)
    (hnumeric : Numeric attr) (hgroup : group < 3) :
    attributeGroup data header vertex attr group = .ok (out.fetched attr group) := by
  have hnocolor := ne_true_of_eq_false hnumeric.2
  obtain ⟨habsent, hdecoded⟩ := decodeGxVertex_spec hg hfits hout attr hattr
  rw [attributeGroup, hwritten.record hattr]
  dsimp only [bind, Except.bind]
  by_cases hmode : (g.layout.attributes attr).mode = GX_NONE
  · rw [if_pos (writtenRecord_none hmode), fetchDefault_eq hnumeric g.currentPnMtx group, DecodedVertex.fetched,
      DecodedVertex.fetched, (habsent hmode).number hnumeric group]
    rfl
  · have hfit := hfits attr hattr hmode
    have hflags := writtenRecord_flags hfit hnumeric.1
    have hlt := sourceGroup_lt attr (g.layout.attributes attr) hgroup
    obtain ⟨start, hstored, hplace⟩ :=
      fetchPlace_eq hg hwritten hheader hvertex hattr hnumeric.1 hfit hlt
    have hnumbers := (hdecoded hmode).number hnumeric group hgroup
    obtain ⟨-, hle, -⟩ := hg.group vertex hvertex attr hattr hnumeric.1 hmode _ hlt
    rw [hflags.mode, hflags.components, hflags.type, hflags.fraction, fetchGroup_eq,
      if_neg (show (g.layout.attributes attr).mode ≠ 0 from hmode), hplace]
    dsimp only
    rw [if_neg hnocolor, hstored.fetchNumbers hnumbers hnumeric hfit hle, DecodedVertex.fetched]
    split
    · rfl
    · next htex =>
      have hnrm : attr ≠ GX_VA_NRM := fun heq => htex (by rw [heq]; decide)
      have htwo := (hfit.texCoord (Nat.le_of_not_lt htex)).1
      rw [hnumbers.rest 2]
      rw [groupComponents, if_neg hnrm]
      omega

/-- A colour is fetched where its group is. -/
theorem attributeGroup_place (hg : Decodes v resolve g)
    (hwritten : GeometryWritten g data MKW_GX_VERTEX_ATTRIBUTE_COUNT) {header : U4}
    (hheader : HeaderOf g header) (hvertex : vertex < g.count)
    (hattr : attr < GxGeometryAttributeCount) (hcolor : isColor attr = true)
    (hmode : (g.layout.attributes attr).mode ≠ GX_NONE)
    (hfit : AttributeFits attr (g.layout.attributes attr)) (group : ℕ) :
    ∃ start, Stored data start (heldIn g attr) ∧
      groupAddress g attr vertex 0 + (g.layout.attributes attr).componentBytes ≤
        (heldIn g attr).length ∧
      attributeGroup data header vertex attr group =
        fetchColor data (start + groupAddress g attr vertex 0) (g.layout.attributes attr).type
          (g.layout.attributes attr).little := by
  have hlow : GX_VA_POS ≤ attr := by
    have := isColor_iff.1 hcolor
    simp only [GX_VA_POS, GX_VA_CLR0, GX_VA_CLR1] at *
    omega
  have hnrm : attr ≠ GX_VA_NRM := by
    rintro rfl
    cases hcolor
  have hflags := writtenRecord_flags hfit hlow
  have hzero : (if attr ≠ 10 ∨ (g.layout.attributes attr).components ≠ 9 then 0 else group) = 0 :=
    if_pos (Or.inl hnrm)
  have hlt : 0 < groupCount attr (g.layout.attributes attr) := by
    have := groupCount_eq attr (g.layout.attributes attr)
    omega
  obtain ⟨start, hstored, hplace⟩ :=
    fetchPlace_eq hg hwritten hheader hvertex hattr hlow hfit hlt
  obtain ⟨-, hle, -⟩ := hg.group vertex hvertex attr hattr hlow hmode 0 hlt
  rw [groupBytes, if_pos hcolor] at hle
  refine ⟨start, hstored, hle, ?_⟩
  rw [attributeGroup, hwritten.record hattr]
  dsimp only [bind, Except.bind]
  rw [hflags.mode, hflags.components, hflags.type, hzero,
    if_neg (show (g.layout.attributes attr).mode ≠ 0 from hmode), hplace]
  dsimp only
  rw [if_pos hcolor]

theorem attributeGroup_color (hg : Decodes v resolve g)
    (hfits : ∀ attr < GxGeometryAttributeCount, (g.layout.attributes attr).mode ≠ GX_NONE →
      AttributeFits attr (g.layout.attributes attr))
    (hwritten : GeometryWritten g data MKW_GX_VERTEX_ATTRIBUTE_COUNT) {header : U4}
    (hheader : HeaderOf g header) (hvertex : vertex < g.count)
    (hout : decodeGxVertex g vertex = .ok out) (hattr : attr < GxGeometryAttributeCount)
    (hcolor : isColor attr = true) (group : ℕ) :
    ∃ f, attributeGroup data header vertex attr group = .ok f ∧ SameColor f (out.color attr) := by
  obtain ⟨habsent, hdecoded⟩ := decodeGxVertex_spec hg hfits hout attr hattr
  by_cases hmode : (g.layout.attributes attr).mode = GX_NONE
  · rw [attributeGroup, hwritten.record hattr]
    dsimp only [bind, Except.bind]
    rw [if_pos (writtenRecord_none hmode), fetchDefault, if_pos hcolor, (habsent hmode).color hcolor]
    exact ⟨_, rfl, rfl, Or.inl rfl, Or.inl rfl, Or.inl rfl, Or.inl rfl⟩
  · have hfit := hfits attr hattr hmode
    obtain ⟨start, hstored, hle, hplace⟩ :=
      attributeGroup_place hg hwritten hheader hvertex hattr hcolor hmode hfit group
    obtain ⟨htype, -, hbytes, -⟩ := hfit.color hcolor
    rw [hplace]
    exact hstored.fetchColor htype hbytes hle ((hdecoded hmode).color hcolor)

/-! ### Matrix indices -/

/-- The byte of a matrix index is read where the decoder reads it. -/
theorem Decodes.fetchByte (hg : Decodes v resolve g)
    (hwritten : GeometryWritten g data MKW_GX_VERTEX_ATTRIBUTE_COUNT) {header : U4}
    (hheader : HeaderOf g header) (hvertex : vertex < g.count) (hlow : attr < GX_VA_POS)
    (hmode : (g.layout.attributes attr).mode ≠ GX_NONE)
    (hfit : AttributeFits attr (g.layout.attributes attr)) {value : ℕ}
    (hvalue : load g.records (vertex * g.layout.stride + (g.layout.attributes attr).offset) 1 false =
      .ok value) :
    value < 256 ∧ u32 (header.z + vertex * header.y + (writtenRecord g attr).y) + 1 < 2 ^ 32 ∧
      fetchUint data (u32 (header.z + vertex * header.y + (writtenRecord g attr).y)) 1 false =
        .ok value := by
  have hattr : attr < GxGeometryAttributeCount := hlow.trans (by decide)
  obtain ⟨hdirect, hcomponents, hbytes, -⟩ := hfit.matrix hlow
  have hrecords := hwritten.storedRecords
  have hin := hrecords.holds.1
  have hbound := hrecords.bound
  have hwords := hg.wordsFit hrecords hvertex hattr hmode
  obtain ⟨-, hrecord⟩ := hg.record vertex hvertex attr hattr hmode
  rw [AttributeLayout.recordBytes, if_neg hmode, if_pos hdirect, hcomponents, hbytes] at hrecord
  have hplace : u32 (header.z + vertex * header.y + (writtenRecord g attr).y) =
      metadataBytes + (vertex * g.layout.stride + (g.layout.attributes attr).offset) := by
    rw [hheader.start, hheader.stride, hwords.stride, writtenRecord, hwords.offset, hwords.place]
  rw [load_eq hrecord] at hvalue
  have hlt := Bytes.number_lt false (slice g.records
    (vertex * g.layout.stride + (g.layout.attributes attr).offset) 1)
  rw [Bytes.length_slice hrecord, Except.ok.inj hvalue] at hlt
  rw [hplace, hrecords.fetchUint le_rfl (by omega) hrecord, Except.ok.inj hvalue]
  exact ⟨hlt, by omega, rfl⟩

/-- The mode of a matrix index is direct. -/
theorem writtenRecord_matrix (hlow : attr < GX_VA_POS)
    (hfit : AttributeFits attr (g.layout.attributes attr)) :
    FlagsOf (g.layout.attributes attr) (writtenRecord g attr).x := by
  obtain ⟨hdirect, hcomponents, -, hindex, htype, hfraction⟩ := hfit.matrix hlow
  refine FlagsFit.flagsOf ⟨?_, ?_, ?_, ?_, ?_⟩
  · rw [hdirect]
    decide
  · rw [htype]
    decide
  · rw [hcomponents]
    decide
  · rw [hindex]
    decide
  · rw [hfraction]
    decide

/-- The byte of a matrix index, divided by the rows of a matrix. -/
theorem fetchMatrix_eq (hg : Decodes v resolve g)
    (hfits : ∀ attr < GxGeometryAttributeCount, (g.layout.attributes attr).mode ≠ GX_NONE →
      AttributeFits attr (g.layout.attributes attr))
    (hwritten : GeometryWritten g data MKW_GX_VERTEX_ATTRIBUTE_COUNT) {header : U4}
    (hheader : HeaderOf g header) (hvertex : vertex < g.count) (hlow : attr < GX_VA_POS)
    (otherwise : ℕ) :
    ((g.layout.attributes attr).mode = GX_NONE →
      fetchMatrix data header vertex attr otherwise = .ok otherwise) ∧
    ((g.layout.attributes attr).mode ≠ GX_NONE → ∀ value,
      load g.records (vertex * g.layout.stride + (g.layout.attributes attr).offset) 1 false =
        .ok value → value < 256 ∧
      fetchMatrix data header vertex attr otherwise = .ok (value / 3)) := by
  have hattr : attr < GxGeometryAttributeCount := hlow.trans (by decide)
  rw [fetchMatrix, hwritten.record hattr]
  dsimp only [bind, Except.bind]
  refine ⟨fun hmode => ?_, fun hmode value hvalue => ?_⟩
  · rw [if_pos (writtenRecord_none hmode)]
    rfl
  · have hfit := hfits attr hattr hmode
    obtain ⟨hlt, -, hbyte⟩ := hg.fetchByte hwritten hheader hvertex hlow hmode hfit hvalue
    rw [(writtenRecord_matrix hlow hfit).mode,
      if_neg (show (g.layout.attributes attr).mode ≠ 0 from hmode), hbyte]
    exact ⟨hlt, rfl⟩

/-- As an attribute, a matrix index is its byte. -/
theorem attributeGroup_matrix (hg : Decodes v resolve g)
    (hwritten : GeometryWritten g data MKW_GX_VERTEX_ATTRIBUTE_COUNT) {header : U4}
    (hheader : HeaderOf g header) (hvertex : vertex < g.count) (hlow : attr < GX_VA_POS)
    (hmode : (g.layout.attributes attr).mode ≠ GX_NONE)
    (hfit : AttributeFits attr (g.layout.attributes attr)) {value : ℕ}
    (hvalue : load g.records (vertex * g.layout.stride + (g.layout.attributes attr).offset) 1 false =
      .ok value) (group : ℕ) :
    value < 256 ∧ attributeGroup data header vertex attr group =
      .ok ⟨.exact value, .exact 0, .exact 0, .exact 0⟩ := by
  have hattr : attr < GxGeometryAttributeCount := hlow.trans (by decide)
  obtain ⟨hdirect, hcomponents, -, hindex, htype, hfraction⟩ := hfit.matrix hlow
  have hflags := writtenRecord_matrix hlow hfit
  obtain ⟨hlt, hplace, hbyte⟩ := hg.fetchByte hwritten hheader hvertex hlow hmode hfit hvalue
  have hcolor : ¬ isColor attr = true := by
    rw [isColor_iff]
    simp only [GX_VA_POS, GX_VA_CLR0, GX_VA_CLR1] at *
    omega
  have hnrm : attr ≠ 10 := by
    rw [GX_VA_POS] at hlow
    omega
  have hnumber : fetchNumber data
      (u32 (header.z + vertex * header.y + (writtenRecord g attr).y)) 0 0 false =
        .ok (.exact value) := by
    have hsigned : signedNumber 0 value = value := by
      rw [signedNumber, if_neg (by decide), if_neg (by decide), s32, u32,
        Nat.mod_eq_of_lt (by omega), if_pos (by omega)]
    rw [fetchNumber, fetchWidth, if_pos (by decide), hbyte]
    dsimp only [bind, Except.bind]
    rw [if_neg (by decide), hsigned, fractionScale_eq (Nat.zero_le 31)]
    norm_num
    rfl
  refine ⟨hlt, ?_⟩
  rw [attributeGroup, hwritten.record hattr]
  dsimp only [bind, Except.bind]
  rw [hflags.mode, hflags.type, hflags.components, hflags.fraction,
    if_neg (show (g.layout.attributes attr).mode ≠ 0 from hmode), fetchPlace]
  dsimp only
  rw [hflags.mode, hdirect, GX_DIRECT, if_pos rfl, if_pos (Or.inl hnrm), Nat.zero_mul,
    Nat.add_zero, u32_of_le le_rfl (by omega)]
  dsimp only [pure, Except.pure]
  rw [if_neg hcolor, htype, hfraction, hcomponents, GX_U8, fetchNumbers, hnumber]
  rfl

/-! ### All together -/

/-- What the shader has of the attributes of a vertex is what the decoder gives: numbers are the same,
and channels of colours are floats next to each other. A matrix index is the byte that the decoder
reads, which divides the one for positions. -/
structure AttributesAgree (g : Geometry) (data : List UInt8) (header : U4) (vertex : ℕ)
    (out : DecodedVertex) : Prop where
  number : ∀ attr < GxGeometryAttributeCount, Numeric attr → ∀ group < 3,
    attributeGroup data header vertex attr group = .ok (out.fetched attr group)
  color : ∀ attr < GxGeometryAttributeCount, isColor attr = true → ∀ group,
    ∃ f, attributeGroup data header vertex attr group = .ok f ∧ SameColor f (out.color attr)
  matrix : ∀ attr < GX_VA_POS, (g.layout.attributes attr).mode ≠ GX_NONE → ∃ byte < 256,
    (∀ group, attributeGroup data header vertex attr group =
      .ok ⟨.exact (byte : ℕ), .exact 0, .exact 0, .exact 0⟩) ∧
    (attr = GX_VA_PNMTXIDX → out.positionMatrix = byte / 3) ∧
    ∀ i, attr = GX_VA_TEX0MTXIDX + i → out.textureMatrices i = byte

/-- The matrices that the shader takes for a vertex are those of the decoder. -/
structure MatricesAgree (data : List UInt8) (header : U4) (vertex : ℕ) (out : DecodedVertex) :
    Prop where
  position : vertexMatrix data header vertex = .ok (min out.positionMatrix 19)
  texture : ∀ i < 8, ∀ type configured, textureMatrix data header vertex i type configured =
    .ok (if type = 10 ∨ out.textureMatrices i = UINT32_MAX then configured
      else out.textureMatrices i / 3)

theorem Decodes.attributesAgree (hg : Decodes v resolve g)
    (hfits : ∀ attr < GxGeometryAttributeCount, (g.layout.attributes attr).mode ≠ GX_NONE →
      AttributeFits attr (g.layout.attributes attr))
    (hwritten : GeometryWritten g data MKW_GX_VERTEX_ATTRIBUTE_COUNT) {header : U4}
    (hheader : HeaderOf g header) (hvertex : vertex < g.count)
    (hout : decodeGxVertex g vertex = .ok out) : AttributesAgree g data header vertex out where
  number _ hattr hnumeric _ hgroup :=
    attributeGroup_number hg hfits hwritten hheader hvertex hout hattr hnumeric hgroup
  color _ hattr hcolor group :=
    attributeGroup_color hg hfits hwritten hheader hvertex hout hattr hcolor group
  matrix attr hlow hmode := by
    have hattr : attr < GxGeometryAttributeCount := hlow.trans (by decide)
    obtain ⟨value, hvalue, hposition, htexture⟩ :=
      ((decodeGxVertex_spec hg hfits hout attr hattr).2 hmode).matrix hlow
    have hgroups := attributeGroup_matrix hg hwritten hheader hvertex hlow hmode
      (hfits attr hattr hmode) hvalue
    exact ⟨value, (hgroups 0).1, fun group => (hgroups group).2, hposition, htexture⟩

theorem Decodes.matricesAgree (hg : Decodes v resolve g)
    (hfits : ∀ attr < GxGeometryAttributeCount, (g.layout.attributes attr).mode ≠ GX_NONE →
      AttributeFits attr (g.layout.attributes attr))
    (hmatrix : g.currentPnMtx < 2 ^ 32)
    (hwritten : GeometryWritten g data MKW_GX_VERTEX_ATTRIBUTE_COUNT) {header : U4}
    (hheader : HeaderOf g header) (hvertex : vertex < g.count)
    (hout : decodeGxVertex g vertex = .ok out) : MatricesAgree data header vertex out := by
  refine ⟨?_, fun i hi type configured => ?_⟩
  · -- the position matrix is that of the vertex, or the current one of the header
    obtain ⟨current, hload, hcurrent, -⟩ := loadMeta_ok data 16 (by
      have := hwritten.metadata
      have : metadataBytes = 704 := rfl
      omega)
    have hx : current.x = g.currentPnMtx := by
      have := Except.ok.inj (hcurrent.symm.trans (loadWord_word hwritten.matrix))
      rw [this]
      exact Nat.mod_eq_of_lt hmatrix
    obtain ⟨hnone, hsome⟩ := fetchMatrix_eq hg hfits hwritten hheader hvertex
      (show GX_VA_PNMTXIDX < GX_VA_POS by decide) g.currentPnMtx
    obtain ⟨habsent, hdecoded⟩ := decodeGxVertex_spec hg hfits hout GX_VA_PNMTXIDX (by decide)
    have hfetch : fetchMatrix data header vertex 0 g.currentPnMtx = .ok out.positionMatrix := by
      by_cases hmode : (g.layout.attributes GX_VA_PNMTXIDX).mode = GX_NONE
      · rw [(habsent hmode).positionMatrix rfl]
        exact hnone hmode
      · obtain ⟨value, hvalue, hposition, -⟩ := (hdecoded hmode).matrix (by decide)
        rw [hposition rfl]
        exact (hsome hmode value hvalue).2
    rw [vertexMatrix, hload]
    dsimp only [bind, Except.bind]
    rw [hx, hfetch]
    refine congrArg Except.ok ?_
    split <;> omega
  · -- a coordinate made from a colour keeps the matrix that is configured
    rw [textureMatrix]
    by_cases htype : type = 10
    · rw [if_neg (not_not.2 htype), if_pos (Or.inl htype)]
      rfl
    rw [if_pos htype]
    simp only [htype, false_or]
    have hlow : GX_VA_TEX0MTXIDX + i < GX_VA_POS := by
      simp only [GX_VA_TEX0MTXIDX, GX_VA_POS]
      omega
    have hattr : GX_VA_TEX0MTXIDX + i < GxGeometryAttributeCount := hlow.trans (by decide)
    obtain ⟨hnone, hsome⟩ := fetchMatrix_eq hg hfits hwritten hheader hvertex hlow configured
    obtain ⟨habsent, hdecoded⟩ := decodeGxVertex_spec hg hfits hout (GX_VA_TEX0MTXIDX + i) hattr
    by_cases hmode : (g.layout.attributes (GX_VA_TEX0MTXIDX + i)).mode = GX_NONE
    · rw [(habsent hmode).textureMatrix i rfl, if_pos rfl]
      exact hnone hmode
    · obtain ⟨value, hvalue, -, htexture⟩ := (hdecoded hmode).matrix hlow
      obtain ⟨hlt, hfetch⟩ := hsome hmode value hvalue
      rw [htexture i rfl, if_neg (by rw [UINT32_MAX]; omega)]
      exact hfetch

theorem snapshotRecords_layout {d : Decoded} {layout : VertexLayout} {count : ℕ}
    {records : List UInt8} (h : snapshotRecords layout d count records resolve = .ok g) :
    g.layout = layout ∧ g.currentPnMtx = d.matrixIndices.currentPnMtx := by
  obtain ⟨_, -, h⟩ := bind_eq_ok.1 h
  obtain ⟨_, -, h⟩ := bind_eq_ok.1 h
  obtain ⟨arrays, -, h⟩ := bind_eq_ok.1 h
  obtain rfl := Except.ok.inj h
  exact ⟨rfl, rfl⟩

/-- What the renderer makes of a draw: a snapshot of one primitive, or of some. -/
def Snapshots (layout : VertexLayout) (d : Decoded) (records : List UInt8) (resolve : Resolver)
    (g : Geometry) : Prop :=
  (∃ primitive count, count < 2 ^ 16 ∧ snapshot layout d primitive count records resolve = .ok g) ∨
    ∃ segments, snapshotSegments layout d segments records resolve = .ok g

theorem Snapshots.decodes {d : Decoded} {format : ℕ} {layout : VertexLayout} {records : List UInt8}
    (hbuild : VertexLayout.build d.vertex format = .ok layout)
    (h : Snapshots layout d records resolve g) :
    Decodes d.vertex resolve g ∧ g.layout = layout ∧
      g.currentPnMtx = d.matrixIndices.currentPnMtx := by
  have hlayout := build_laidOut hbuild
  rcases h with ⟨primitive, count, hcount, h⟩ | ⟨segments, h⟩
  · refine ⟨(snapshot_decodes hlayout hcount h).2.2, ?_⟩
    obtain ⟨out, hout, h⟩ := bind_eq_ok.1 h
    obtain rfl := Except.ok.inj h
    have hsame := snapshotRecords_layout hout
    exact hsame
  · refine ⟨(snapshotSegments_decodes hlayout h).2.2, ?_⟩
    obtain ⟨_, -, h⟩ := bind_eq_ok.1 h
    obtain ⟨_, -, h⟩ := bind_eq_ok.1 h
    obtain ⟨out, hout, h⟩ := bind_eq_ok.1 h
    obtain ⟨indices, -, h⟩ := bind_eq_ok.1 h
    obtain rfl := Except.ok.inj h
    have hsame := snapshotRecords_layout hout
    exact hsame

theorem Snapshots.agree {d : Decoded} {format : ℕ} {layout : VertexLayout}
    {records : List UInt8} (hbuild : VertexLayout.build d.vertex format = .ok layout)
    (hsnapshot : Snapshots layout d records resolve g) (hdata : serializeGxGeometry g = .ok data) :
    ∃ header, loadMeta data 0 = .ok header ∧ ∀ vertex < g.count, ∃ out,
      decodeGxVertex g vertex = .ok out ∧ AttributesAgree g data header vertex out ∧
        (d.matrixIndices.currentPnMtx < 2 ^ 32 → MatricesAgree data header vertex out) := by
  obtain ⟨hdecodes, rfl, hcurrent⟩ := hsnapshot.decodes hbuild
  have hwritten := serializeGxGeometry_spec hdata
  have hfits : ∀ attr < GxGeometryAttributeCount, (g.layout.attributes attr).mode ≠ GX_NONE →
      AttributeFits attr (g.layout.attributes attr) :=
    fun attr hattr hmode => ((build_laidOut hbuild).within hattr hmode).1
  obtain ⟨header, hload, hheader⟩ := hwritten.header
  refine ⟨header, hload, fun vertex hvertex => ?_⟩
  obtain ⟨out, hout⟩ := hdecodes.decodes vertex hvertex
  exact ⟨out, hout, hdecodes.attributesAgree hfits hwritten hheader hvertex hout,
    fun hmatrix => hdecodes.matricesAgree hfits (hcurrent ▸ hmatrix) hwritten hheader hvertex hout⟩

/-- The vertex shader computes with the values of the reference decoder, up to the rounding of
colours, and loads nothing outside of the buffer: on every snapshot that is serialized, for every
vertex and every attribute. -/
theorem vertex_fetch_agrees {d : Decoded} {format : ℕ} {layout : VertexLayout}
    (hbuild : VertexLayout.build d.vertex format = .ok layout) {records : List UInt8}
    (hsnapshot : Snapshots layout d records resolve g) (hdata : serializeGxGeometry g = .ok data) :
    ∃ header, loadMeta data 0 = .ok header ∧ ∀ vertex < g.count, ∃ out,
      decodeGxVertex g vertex = .ok out ∧ AttributesAgree g data header vertex out := by
  obtain ⟨header, hload, hagree⟩ := hsnapshot.agree hbuild hdata
  refine ⟨header, hload, fun vertex hvertex => ?_⟩
  obtain ⟨out, hout, hattributes, -⟩ := hagree vertex hvertex
  exact ⟨out, hout, hattributes⟩

/-- A snapshot is serialized exactly where its buffer has offsets of 32 bits, and then the shader
takes the matrices of the decoder. -/
theorem vertex_matrices_agree {d : Decoded} {format : ℕ} {layout : VertexLayout}
    (hbuild : VertexLayout.build d.vertex format = .ok layout) {records : List UInt8}
    (hsnapshot : Snapshots layout d records resolve g)
    (hmatrix : d.matrixIndices.currentPnMtx < 2 ^ 32) :
    ((∃ data, serializeGxGeometry g = .ok data) ↔
      geometryBytes g MKW_GX_VERTEX_ATTRIBUTE_COUNT + 8 ≤ 2 ^ 32) ∧
    ∀ data, serializeGxGeometry g = .ok data → ∃ header, loadMeta data 0 = .ok header ∧
      ∀ vertex < g.count, ∃ out,
        decodeGxVertex g vertex = .ok out ∧ MatricesAgree data header vertex out := by
  refine ⟨serializeGxGeometry_ok_iff g, fun data hdata => ?_⟩
  obtain ⟨header, hload, hagree⟩ := hsnapshot.agree hbuild hdata
  refine ⟨header, hload, fun vertex hvertex => ?_⟩
  obtain ⟨out, hout, -, hmatrices⟩ := hagree vertex hvertex
  exact ⟨out, hout, hmatrices hmatrix⟩

/-! ### A line -/

/-- Matrix indices, positions and normals with indices, packed colours and texture coordinates. -/
def mixedAttributes : Decoded :=
  let d := Decoded.reset ⟨640, 528, 640, 528⟩ false
  { d with vertex :=
    { d.vertex with
      vtxDesc := fun attr =>
        if attr = GX_VA_POS then GX_INDEX8
        else if attr = GX_VA_NRM then GX_INDEX16
        else if attr = GX_VA_PNMTXIDX ∨ attr = GX_VA_CLR0 ∨ attr = GX_VA_TEX0 then GX_DIRECT
        else GX_NONE
      vtxFmts := fun _ attr =>
        if attr = GX_VA_POS then ⟨GX_POS_XYZ, GX_S16, 4⟩
        else if attr = GX_VA_NRM then ⟨GX_NRM_NBT3, GX_S8, 6⟩
        else if attr = GX_VA_CLR0 then ⟨0, GX_RGBA4, 0⟩
        else ⟨GX_TEX_ST, GX_F32, 0⟩
      arrays := fun attr => ⟨1, 64, if attr = GX_VA_POS then 6 else 3, attr = GX_VA_POS⟩ } }

/-- The bytes of an array count. -/
def countedBytes : Resolver := fun _ _ offset length =>
  .ok ((List.range length).map fun i => .ofNat (offset + i))

/-- The records of two vertices; all channels of the first colour are 3. -/
def mixedRecords : List UInt8 :=
  [30, 5, 0, 1, 0, 2, 0, 4, 0x33, 0x33, 0x3f, 0x80, 0, 0, 0xbf, 0, 0, 0,
    33, 2, 0, 9, 0, 8, 0, 7, 0xf0, 0x5a, 0x40, 0, 0, 0, 0, 0, 0, 0]

theorem mixedSnapshot : ∃ layout g, VertexLayout.build mixedAttributes.vertex 0 = .ok layout ∧
    snapshot layout mixedAttributes .lines 2 mixedRecords countedBytes = .ok g ∧ g.count = 2 ∧
    geometryBytes g MKW_GX_VERTEX_ATTRIBUTE_COUNT + 8 ≤ 2 ^ 32 :=
  ⟨_, _, rfl, rfl, rfl, by decide +kernel⟩

/-- The first colour of the line. -/
theorem mixedColor : ∃ layout g out, VertexLayout.build mixedAttributes.vertex 0 = .ok layout ∧
    snapshot layout mixedAttributes .lines 2 mixedRecords countedBytes = .ok g ∧ 0 < g.count ∧
    geometryBytes g MKW_GX_VERTEX_ATTRIBUTE_COUNT + 8 ≤ 2 ^ 32 ∧ g.layout = layout ∧
    (layout.attributes GX_VA_CLR0).mode = GX_DIRECT ∧
    (layout.attributes GX_VA_CLR0).type = GX_RGBA4 ∧
    (layout.attributes GX_VA_CLR0).componentBytes = 2 ∧
    (layout.attributes GX_VA_CLR0).little = false ∧ heldIn g GX_VA_CLR0 = mixedRecords ∧
    groupAddress g GX_VA_CLR0 0 0 = 8 ∧ decodeGxVertex g 0 = .ok out ∧
    (out.color GX_VA_CLR0).getD 0 (.exact 0) = .exact (3 / 15) :=
  ⟨_, _, _, rfl, rfl, by decide, by decide +kernel, rfl, rfl, rfl, rfl, rfl, rfl, rfl, rfl, by
    decide +kernel⟩

/-- Three fifteenths: the shader multiplies by a fifteenth that is rounded, and has another number,
and another float, than the decoder. -/
theorem packed_color_differs : ∃ layout g data header f out,
    VertexLayout.build mixedAttributes.vertex 0 = .ok layout ∧
      snapshot layout mixedAttributes .lines 2 mixedRecords countedBytes = .ok g ∧
      serializeGxGeometry g = .ok data ∧ loadMeta data 0 = .ok header ∧
      attributeGroup data header 0 GX_VA_CLR0 0 = .ok f ∧ decodeGxVertex g 0 = .ok out ∧
      f.x = .exact (3 * inverse 15) ∧
      (out.color GX_VA_CLR0).getD 0 (.exact 0) = .exact (3 / 15) ∧
      3 * inverse 15 ≠ 3 / 15 ∧ nearestFloat (3 * inverse 15) ≠ nearestFloat (3 / 15) := by
  obtain ⟨layout, g, out, hbuild, hsnapshot, hcount, hfit, rfl, hmode, htype, hbytes, hlittle, hheld,
    haddress, hout, hchannel⟩ := mixedColor
  obtain ⟨data, hdata⟩ := (serializeGxGeometry_ok_iff g).2 hfit
  have hsnapshots : Snapshots g.layout mixedAttributes mixedRecords countedBytes g :=
    Or.inl ⟨.lines, 2, by decide, hsnapshot⟩
  obtain ⟨hdecodes, -⟩ := hsnapshots.decodes hbuild
  have hwritten := serializeGxGeometry_spec hdata
  obtain ⟨header, hload, hheader⟩ := hwritten.header
  have hmode' : (g.layout.attributes GX_VA_CLR0).mode ≠ GX_NONE := by
    rw [hmode]
    decide
  obtain ⟨start, hstored, hle, hplace⟩ := attributeGroup_place hdecodes hwritten hheader hcount
    (show GX_VA_CLR0 < GxGeometryAttributeCount by decide) rfl hmode'
    ((build_laidOut hbuild).within (by decide) hmode').1 0
  rw [hheld, hbytes, haddress] at hle
  rw [hheld] at hstored
  have hpacked : fetchUint data (start + 8) 2 false = .ok 0x3333 :=
    hstored.fetchUint (by decide) (by decide) hle false
  refine ⟨g.layout, g, data, header, ⟨fetchField 0x3333 12 4, fetchField 0x3333 8 4,
    fetchField 0x3333 4 4, fetchField 0x3333 0 4⟩, out, hbuild, hsnapshot, hdata, hload, ?_, hout,
    by decide +kernel, hchannel, by decide +kernel, by decide +kernel⟩
  rw [hplace, haddress, htype, hlittle, fetchColor, if_neg (by decide), if_neg (by decide), hpacked]
  rfl

/-- The second vertex of a line, with all kinds of attributes. -/
theorem vertex_fetch_agrees_line : ∃ layout g,
    VertexLayout.build mixedAttributes.vertex 0 = .ok layout ∧
      snapshot layout mixedAttributes .lines 2 mixedRecords countedBytes = .ok g ∧
      ∃ data header out, serializeGxGeometry g = .ok data ∧ loadMeta data 0 = .ok header ∧
        decodeGxVertex g 1 = .ok out ∧ AttributesAgree g data header 1 out := by
  obtain ⟨layout, g, hbuild, hsnapshot, hcount, hfit⟩ := mixedSnapshot
  obtain ⟨data, hdata⟩ := (serializeGxGeometry_ok_iff g).2 hfit
  obtain ⟨header, hload, hagree⟩ := vertex_fetch_agrees hbuild
    (Or.inl ⟨.lines, 2, by decide, hsnapshot⟩) hdata
  obtain ⟨out, hout, hattributes⟩ := hagree 1 (by omega)
  exact ⟨layout, g, hbuild, hsnapshot, data, header, out, hdata, hload, hout, hattributes⟩

theorem vertex_matrices_agree_line : ∃ layout g,
    VertexLayout.build mixedAttributes.vertex 0 = .ok layout ∧
      snapshot layout mixedAttributes .lines 2 mixedRecords countedBytes = .ok g ∧
      ∃ data header out, serializeGxGeometry g = .ok data ∧ loadMeta data 0 = .ok header ∧
        decodeGxVertex g 1 = .ok out ∧ MatricesAgree data header 1 out := by
  obtain ⟨layout, g, hbuild, hsnapshot, hcount, hfit⟩ := mixedSnapshot
  obtain ⟨hfits, hagree⟩ := vertex_matrices_agree hbuild
    (Or.inl ⟨.lines, 2, by decide, hsnapshot⟩) (by decide)
  obtain ⟨data, hdata⟩ := hfits.2 hfit
  obtain ⟨header, hload, hvertices⟩ := hagree data hdata
  obtain ⟨out, hout, hmatrices⟩ := hvertices 1 (by omega)
  exact ⟨layout, g, hbuild, hsnapshot, data, header, out, hdata, hload, hout, hmatrices⟩

end Gx
