import MkwiiPs5.Gx.DecodedValues
import MkwiiPs5.Gx.GeometryBuffer
import MkwiiPs5.Rounding

/-!
# The vertex shader

`gx_vertex_raw.c`: how the shader fetches the attributes of a vertex from the words of a serialized
geometry. A load outside of the buffer is a fault.
-/

namespace Gx

open Bytes (slice number ofLittle Holds Word)
open Loop (bind_eq_ok)

/-- Four words, and four numbers. -/
structure U4 where
  x : ℕ
  y : ℕ
  z : ℕ
  w : ℕ

structure F4 where
  x : Scalar
  y : Scalar
  z : Scalar
  w : Scalar
  deriving DecidableEq

/-- `load_word`. -/
def loadWord (data : List UInt8) (pos : ℕ) : Except Fault ℕ := readUint data pos 4 false

/-- `load_meta`. -/
def loadMeta (data : List UInt8) (pos : ℕ) : Except Fault U4 := do
  let x ← loadWord data pos
  let y ← loadWord data (pos + 4)
  let z ← loadWord data (pos + 8)
  let w ← loadWord data (pos + 12)
  pure ⟨x, y, z, w⟩

/-- Subtraction of `unsigned`. -/
def sub32 (x y : ℕ) : ℕ := u32 (x + (2 ^ 32 - y % 2 ^ 32))

/-- `__builtin_bswap32`. -/
def bswap32 (x : ℕ) : ℕ :=
  (x &&& 255) <<< 24 ||| (x >>> 8 &&& 255) <<< 16 ||| (x >>> 16 &&& 255) <<< 8 ||| x >>> 24

/-- The bytes that a load has at its low end, in their order. -/
def orderBytes (value width : ℕ) (little : Bool) : ℕ :=
  if width = 1 then value &&& 255
  else if width = 2 then
    let value := value &&& 65535
    if little then value else (value &&& 255) <<< 8 ||| value >>> 8
  else if width = 3 then
    let value := value &&& 0xffffff
    if little then value else (value &&& 255) <<< 16 ||| (value &&& 0xff00) ||| value >>> 16
  else if little then value else bswap32 value

/-- A word from `shift` on, with the next one behind it where the number reaches into that. -/
def joinWords (data : List UInt8) (aligned shift width : ℕ) : Except Fault ℕ := do
  let word ← loadWord data aligned
  if 32 < shift + width * 8 then do
    let next ← loadWord data (u32 (aligned + 4))
    pure (word >>> shift ||| u32 (next <<< (32 - shift)))
  else pure (word >>> shift)

/-- `read_uint`. -/
def fetchUint (data : List UInt8) (pos width : ℕ) (little : Bool) : Except Fault ℕ := do
  let value ← joinWords data (pos - pos % 4) (pos % 4 * 8) width
  pure (orderBytes value width little)

/-- Bytes of a number of each type, as the shader has them. -/
def fetchWidth (type : ℕ) : ℕ := if type < 2 then 1 else if type < 4 then 2 else 4

/-- The float with the exponent bits `127 - frac`. -/
def fractionScale (frac : ℕ) : ℚ := (2 ^ (127 - frac) : ℕ) / (2 ^ 127 : ℕ)

/-- `number`. -/
def fetchNumber (data : List UInt8) (pos type frac : ℕ) (little : Bool) : Except Fault Scalar := do
  let value ← fetchUint data pos (fetchWidth type) little
  if type = 4 then pure (.bits value)
  else pure (.exact (signedNumber type value * fractionScale frac))

/-- `0x1.010102p-8f`. -/
def unormScale : ℚ := 0x1010102 / 2 ^ 32

def fetchByte (byte : ℕ) : Scalar := .exact (byte * unormScale)

/-- `1.f/15.f`, `1.f/31.f` and `1.f/63.f`. -/
def inverse (maximum : ℕ) : ℚ := nearestFloat (1 / maximum)

/-- The `bits` bits of a colour from `shift` on, times the float that inverts their maximum. -/
def fetchField (v shift bits : ℕ) : Scalar :=
  .exact (((v >>> shift) &&& (2 ^ bits - 1) : ℕ) * inverse (2 ^ bits - 1))

/-- The colour part of `attribute_group`. -/
def fetchColor (data : List UInt8) (pos type : ℕ) (little : Bool) : Except Fault F4 :=
  if type = 1 ∨ type = 2 ∨ type = 5 then do
    let r ← fetchUint data pos 1 true
    let g ← fetchUint data (u32 (pos + 1)) 1 true
    let b ← fetchUint data (u32 (pos + 2)) 1 true
    if type = 5 then do
      let a ← fetchUint data (u32 (pos + 3)) 1 true
      pure ⟨fetchByte r, fetchByte g, fetchByte b, fetchByte a⟩
    else pure ⟨fetchByte r, fetchByte g, fetchByte b, .exact 1⟩
  else do
    let v ← fetchUint data pos (if type = 4 then 3 else 2) little
    if type = 0 then pure ⟨fetchField v 11 5, fetchField v 5 6, fetchField v 0 5, .exact 1⟩
    else if type = 3 then
      pure ⟨fetchField v 12 4, fetchField v 8 4, fetchField v 4 4, fetchField v 0 4⟩
    else pure ⟨fetchField v 18 6, fetchField v 12 6, fetchField v 6 6, fetchField v 0 6⟩

/-- A number of a group that has `count`. -/
def fetchComponent (data : List UInt8) (pos type frac count : ℕ) (little : Bool) (c : ℕ) :
    Except Fault Scalar :=
  if c < count then fetchNumber data (u32 (pos + c * fetchWidth type)) type frac little
  else pure (.exact 0)

/-- The number part of `attribute_group`. -/
def fetchNumbers (data : List UInt8) (pos type frac count : ℕ) (little : Bool) :
    Except Fault F4 := do
  let x ← fetchNumber data pos type frac little
  let y ← fetchComponent data pos type frac count little 1
  let z ← fetchComponent data pos type frac count little 2
  pure ⟨x, y, z, .exact 0⟩

/-- What the shader takes for an attribute that is not there. -/
def fetchDefault (attr : ℕ) : F4 :=
  if isColor attr then ⟨.exact 1, .exact 1, .exact 1, .exact 1⟩
  else if attr = 10 then ⟨.exact 1, .exact 0, .exact 0, .exact 0⟩
  else ⟨.exact 0, .exact 0, .exact 0, .exact 0⟩

/-- Where a group is, and whether its bytes have the lowest first. -/
def fetchPlace (data : List UInt8) (header a : U4) (vertex attr group : ℕ) :
    Except Fault (ℕ × Bool) :=
  let groupOffset := group * 3 * fetchWidth (a.x >>> 2 &&& 7)
  let pos := u32 (header.z + vertex * header.y + a.y)
  if a.x &&& 3 = 1 then pure (u32 (pos + groupOffset), false)
  else do
    let indexWidth := if a.x &&& 3 = 3 then 2 else 1
    let three := attr = 10 ∧ a.x >>> 9 &&& 3 = 3
    let index ← fetchUint data (if three then u32 (pos + group * indexWidth) else pos) indexWidth false
    let b ← loadMeta data (attributeAt attr + 16)
    let pos := sub32 (b.x + index * a.z) a.w
    pure (u32 (pos + if three then 0 else groupOffset), a.x >>> 16 &&& 1 == 1)

/-- `attribute_group`. -/
def attributeGroup (data : List UInt8) (header : U4) (vertex attr group : ℕ) :
    Except Fault F4 := do
  let a ← loadMeta data (attributeAt attr)
  let type := a.x >>> 2 &&& 7
  let count := a.x >>> 5 &&& 15
  if a.x &&& 3 = 0 then pure (fetchDefault attr)
  else do
    let group := if attr ≠ 10 ∨ count ≠ 9 then 0 else group
    let (pos, little) ← fetchPlace data header a vertex attr group
    if isColor attr then fetchColor data pos type little
    else fetchNumbers data pos type (a.x >>> 11 &&& 31) count little

/-- The matrix index of a vertex, where the attribute is there. -/
def fetchMatrix (data : List UInt8) (header : U4) (vertex attr otherwise : ℕ) : Except Fault ℕ := do
  let a ← loadMeta data (attributeAt attr)
  if a.x &&& 3 = 0 then pure otherwise
  else do
    let value ← fetchUint data (u32 (header.z + vertex * header.y + a.y)) 1 false
    pure (value / 3)

/-- The position matrix that `gx_vertex` takes. -/
def vertexMatrix (data : List UInt8) (header : U4) (vertex : ℕ) : Except Fault ℕ := do
  let current ← loadMeta data 16
  let matrix ← fetchMatrix data header vertex 0 current.x
  pure (if matrix < 20 then matrix else 19)

/-- The texture matrix that `generate_texcoord` takes: that of the vertex in place of the configured
one, unless the coordinate is made from a colour. -/
def textureMatrix (data : List UInt8) (header : U4) (vertex coordinate type configured : ℕ) :
    Except Fault ℕ :=
  if type ≠ 10 then fetchMatrix data header vertex (1 + coordinate) configured
  else pure configured

/-! ### Unaligned numbers -/

theorem and_ones (x n : ℕ) : x &&& (2 ^ n - 1) = x % 2 ^ n := Nat.and_two_pow_sub_one_eq_mod x n

/-- Bits above a number are added. -/
theorem or_eq_add {y i : ℕ} (h : y < 2 ^ i) (x : ℕ) : x <<< i ||| y = x * 2 ^ i + y := by
  rw [← Nat.shiftLeft_add_eq_or_of_lt h, Nat.shiftLeft_eq]

/-- The second byte stays where it is. -/
theorem and_secondByte (x : ℕ) : x &&& 0xff00 = (x >>> 8 % 256) <<< 8 := by
  have hmask : 0xff00 = (2 ^ 8 - 1) <<< 8 := by decide
  rw [hmask, show 256 = 2 ^ 8 by rfl]
  refine Nat.eq_of_testBit_eq fun i => ?_
  simp only [Nat.testBit_and, Nat.testBit_shiftLeft, Nat.testBit_two_pow_sub_one,
    Nat.testBit_mod_two_pow, Nat.testBit_shiftRight]
  by_cases hi : 8 ≤ i
  · rw [Nat.add_sub_cancel' hi, decide_eq_true hi, Bool.true_and, Bool.true_and, Bool.and_comm]
  · rw [decide_eq_false hi, Bool.false_and, Bool.false_and, Bool.and_false]

theorem and_255 (x : ℕ) : x &&& 255 = x % 256 := and_ones x 8

theorem orderBytes_two {a b : UInt8} {value : ℕ} (hsum : value % 65536 = a.toNat + 256 * b.toNat)
    (little : Bool) : orderBytes value 2 little = number little [a, b] := by
  have ha := a.toNat_lt
  have hb := b.toNat_lt
  have hmask : value &&& 65535 = a.toNat + 256 * b.toNat := (and_ones value 16).trans hsum
  cases little with
  | true => simp [orderBytes, hmask, number, ofLittle]
  | false =>
    have hlow : (a.toNat + 256 * b.toNat) % 256 = a.toNat := by omega
    have hhigh : (a.toNat + 256 * b.toNat) >>> 8 = b.toNat := by
      rw [Nat.shiftRight_eq_div_pow]
      omega
    calc orderBytes value 2 false
        = (value &&& 65535 &&& 255) <<< 8 ||| (value &&& 65535) >>> 8 := rfl
      _ = a.toNat * 2 ^ 8 + b.toNat := by rw [hmask, and_255, hlow, hhigh, or_eq_add hb]
      _ = number false [a, b] := by
        simp only [number, ofLittle, List.reverse_cons, List.reverse_nil, List.nil_append,
          List.cons_append, Bool.false_eq_true, if_false]
        omega

theorem orderBytes_three {a b c : UInt8} {value : ℕ}
    (hsum : value % 16777216 = a.toNat + 256 * (b.toNat + 256 * c.toNat)) (little : Bool) :
    orderBytes value 3 little = number little [a, b, c] := by
  have ha := a.toNat_lt
  have hb := b.toNat_lt
  have hc := c.toNat_lt
  have hmask : value &&& 0xffffff = a.toNat + 256 * (b.toNat + 256 * c.toNat) :=
    (and_ones value 24).trans hsum
  cases little with
  | true => simp [orderBytes, hmask, number, ofLittle]
  | false =>
    have hlow : (a.toNat + 256 * (b.toNat + 256 * c.toNat)) % 256 = a.toNat := by omega
    have hmiddle : (a.toNat + 256 * (b.toNat + 256 * c.toNat)) >>> 8 % 256 = b.toNat := by
      rw [Nat.shiftRight_eq_div_pow]
      omega
    have hhigh : (a.toNat + 256 * (b.toNat + 256 * c.toNat)) >>> 16 = c.toNat := by
      rw [Nat.shiftRight_eq_div_pow]
      omega
    calc orderBytes value 3 false
        = (value &&& 0xffffff &&& 255) <<< 16 ||| (value &&& 0xffffff &&& 0xff00) |||
            (value &&& 0xffffff) >>> 16 := rfl
      _ = a.toNat * 2 ^ 16 + (b.toNat * 2 ^ 8 + c.toNat) := by
        rw [hmask, and_255, hlow, and_secondByte, hmiddle, hhigh, Nat.or_assoc, or_eq_add hc,
          or_eq_add (by omega)]
      _ = number false [a, b, c] := by
        simp only [number, ofLittle, List.reverse_cons, List.reverse_nil, List.nil_append,
          List.cons_append, Bool.false_eq_true, if_false]
        omega

theorem orderBytes_four {a b c d : UInt8} {value : ℕ}
    (hsum : value = a.toNat + 256 * (b.toNat + 256 * (c.toNat + 256 * d.toNat))) (little : Bool) :
    orderBytes value 4 little = number little [a, b, c, d] := by
  have ha := a.toNat_lt
  have hb := b.toNat_lt
  have hc := c.toNat_lt
  have hd := d.toNat_lt
  cases little with
  | true =>
    calc orderBytes value 4 true = value := rfl
      _ = number true [a, b, c, d] := by simp [hsum, number, ofLittle]
  | false =>
    have hfirst : value % 256 = a.toNat := by omega
    have hsecond : value >>> 8 % 256 = b.toNat := by
      rw [Nat.shiftRight_eq_div_pow]
      omega
    have hthird : value >>> 16 % 256 = c.toNat := by
      rw [Nat.shiftRight_eq_div_pow]
      omega
    have hfourth : value >>> 24 = d.toNat := by
      rw [Nat.shiftRight_eq_div_pow]
      omega
    calc orderBytes value 4 false
        = (value &&& 255) <<< 24 ||| (value >>> 8 &&& 255) <<< 16 |||
            (value >>> 16 &&& 255) <<< 8 ||| value >>> 24 := rfl
      _ = a.toNat * 2 ^ 24 + (b.toNat * 2 ^ 16 + (c.toNat * 2 ^ 8 + d.toNat)) := by
        rw [and_255, and_255, and_255, hfirst, hsecond, hthird, hfourth, Nat.or_assoc, Nat.or_assoc,
          or_eq_add hd, or_eq_add (y := c.toNat * 2 ^ 8 + d.toNat) (by omega) b.toNat,
          or_eq_add (by omega)]
      _ = number false [a, b, c, d] := by
        simp only [number, ofLittle, List.reverse_cons, List.reverse_nil, List.nil_append,
          List.cons_append, Bool.false_eq_true, if_false]
        omega

/-- Swapping the bytes of a number reads them in the other order. -/
theorem orderBytes_eq {bytes : List UInt8} {value : ℕ} (hsome : bytes ≠ [])
    (hfew : bytes.length ≤ 4) (hvalue : value % 256 ^ bytes.length = ofLittle bytes)
    (hword : value < 2 ^ 32) (little : Bool) :
    orderBytes value bytes.length little = number little bytes := by
  match bytes with
  | [] => exact absurd rfl hsome
  | [a] =>
    have hsum : value % 256 = a.toNat := by simpa [ofLittle] using hvalue
    calc orderBytes value 1 little = value % 256 := and_255 value
      _ = number little [a] := by rw [hsum, Bytes.number_singleton]
  | [a, b] => exact orderBytes_two (by simpa [ofLittle] using hvalue) little
  | [a, b, c] => exact orderBytes_three (by simpa [ofLittle] using hvalue) little
  | [a, b, c, d] =>
    have hmod : value % 4294967296 =
        a.toNat + 256 * (b.toNat + 256 * (c.toNat + 256 * d.toNat)) := by
      simpa [ofLittle] using hvalue
    exact orderBytes_four (by omega) little

/-- Two words in a row, from a byte of the first one on. -/
theorem joined_eq (n : ℕ) {k : ℕ} (hsome : 1 ≤ k) (hk : k < 4) :
    (n % 2 ^ 32) >>> (k * 8) ||| u32 ((n / 2 ^ 32 % 2 ^ 32) <<< (32 - k * 8)) =
      n / 256 ^ k % 2 ^ 32 := by
  have hks : k = 1 ∨ k = 2 ∨ k = 3 := by omega
  rw [Nat.or_comm, u32, Nat.shiftRight_eq_div_pow, Nat.shiftLeft_eq]
  -- what the shift keeps of the next word is above all of the first one
  rcases hks with rfl | rfl | rfl
  · have hhigh : n / 2 ^ 32 % 2 ^ 32 * 2 ^ (32 - 1 * 8) % 2 ^ 32 = (n / 2 ^ 32 % 2 ^ 8) <<< 24 := by
      rw [Nat.shiftLeft_eq]
      omega
    rw [hhigh, or_eq_add (by omega)]
    omega
  · have hhigh : n / 2 ^ 32 % 2 ^ 32 * 2 ^ (32 - 2 * 8) % 2 ^ 32 = (n / 2 ^ 32 % 2 ^ 16) <<< 16 := by
      rw [Nat.shiftLeft_eq]
      omega
    rw [hhigh, or_eq_add (by omega)]
    omega
  · have hhigh : n / 2 ^ 32 % 2 ^ 32 * 2 ^ (32 - 3 * 8) % 2 ^ 32 = (n / 2 ^ 32 % 2 ^ 24) <<< 8 := by
      rw [Nat.shiftLeft_eq]
      omega
    rw [hhigh, or_eq_add (by omega)]
    omega

/-- A number that ends with the first word. -/
theorem alone_eq (n : ℕ) {k width : ℕ} (h : k + width ≤ 4) :
    (n % 2 ^ 32) >>> (k * 8) % 256 ^ width = n / 256 ^ k % 256 ^ width := by
  have hword : (2 : ℕ) ^ 32 = 256 ^ k * (256 ^ width * 256 ^ (4 - k - width)) := by
    rw [← Nat.pow_add, ← Nat.pow_add, show k + (width + (4 - k - width)) = 4 by omega]
    norm_num
  have hshift : (2 : ℕ) ^ (k * 8) = 256 ^ k := by
    rw [Nat.mul_comm, Nat.pow_mul]
  rw [Nat.shiftRight_eq_div_pow, hshift, hword, Nat.mod_mul_right_div_self, Nat.mod_mul_right_mod]

theorem loadWord_eq {data : List UInt8} {pos : ℕ} (h : pos + 4 ≤ data.length) :
    loadWord data pos = .ok (ofLittle data / 256 ^ pos % 2 ^ 32) := by
  rw [loadWord, readUint_ok h, Bool.not_false, number, if_pos rfl, Bytes.ofLittle_slice]
  norm_num

variable {data : List UInt8} {pos width : ℕ}

/-- The shader reads a number wherever it is, in either order of its bytes; the words that it loads
are in the buffer. -/
theorem fetchUint_eq (haligned : data.length % 4 = 0) (hbound : data.length < 2 ^ 32)
    (hwidth : 1 ≤ width) (hfour : width ≤ 4) (h : pos + width ≤ data.length) (little : Bool) :
    fetchUint data pos width little = .ok (number little (slice data pos width)) := by
  have hlength := Bytes.length_slice h
  have hvalue : ofLittle (slice data pos width) =
      ofLittle data / 256 ^ (pos - pos % 4) / 256 ^ (pos % 4) % 256 ^ width := by
    rw [Bytes.ofLittle_slice, Nat.div_div_eq_div_mul, ← Nat.pow_add, Nat.sub_add_cancel (Nat.mod_le _ _)]
  have hsome : slice data pos width ≠ [] := fun hnil => by
    rw [hnil, List.length_nil] at hlength
    omega
  have hjoin : ∃ value, joinWords data (pos - pos % 4) (pos % 4 * 8) width = .ok value ∧
      value % 256 ^ width = ofLittle (slice data pos width) ∧ value < 2 ^ 32 := by
    rw [joinWords, loadWord_eq (by omega), hvalue]
    dsimp only [bind, Except.bind]
    by_cases hnext : 32 < pos % 4 * 8 + width * 8
    · -- the number ends in the next word
      have hsplit : (256 : ℕ) ^ (pos - pos % 4 + 4) = 256 ^ (pos - pos % 4) * 2 ^ 32 := Nat.pow_add ..
      rw [if_pos hnext, u32, Nat.mod_eq_of_lt (by omega), loadWord_eq (by omega), hsplit,
        ← Nat.div_div_eq_div_mul]
      dsimp only [pure, Except.pure]
      rw [joined_eq _ (by omega) (Nat.mod_lt _ (by decide))]
      refine ⟨_, rfl, ?_, Nat.mod_lt _ (by decide)⟩
      rw [show (2 : ℕ) ^ 32 = 256 ^ 4 by rfl]
      exact Nat.mod_mod_of_dvd _ (Nat.pow_dvd_pow 256 hfour)
    · rw [if_neg hnext]
      refine ⟨_, rfl, alone_eq _ (by omega), ?_⟩
      rw [Nat.shiftRight_eq_div_pow]
      exact (Nat.div_le_self _ _).trans_lt (Nat.mod_lt _ (by decide))
  obtain ⟨value, hjoined, hmod, hword⟩ := hjoin
  rw [fetchUint, hjoined]
  have horder := orderBytes_eq hsome (by omega) (by rw [hlength]; exact hmod) hword little
  rw [hlength] at horder
  exact congrArg Except.ok horder

end Gx
