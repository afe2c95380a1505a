import MkwiiPs5.Bytes
import MkwiiPs5.Gpu.TextureLayout
import MkwiiPs5.Loop

/-!
# Shader containers

`shader_binary.cpp`: finds the header and the code of a shader in an ELF file. Spans are given by
their offsets in the file. Reading an element that a span does not have, or taking a part that it
does not have, is a failure of its own.
-/

namespace Gpu.ShaderBinary

open Loop (Post)

inductive Failure
  | invalidArgument (text : String)
  | outside
deriving DecidableEq

/-- The bytes of a file. -/
structure Input where
  bytes : List UInt8
  size_lt : bytes.length < 2 ^ 64

structure ShaderBinaryParts where
  header : Span
  code : Span

def shaderHeader : List UInt8 := ".shader_header".toUTF8.data.toList
def shaderText : List UInt8 := ".shader_text".toUTF8.data.toList

variable (A : Arithmetic) (input : Input)

/-- `bytes.size()`. -/
def Input.size : ℕ := input.bytes.length

def bad {α : Type} : Except Failure α := .error (.invalidArgument "Invalid AGC shader container")

def require (condition : Bool) : Except Failure Unit := if condition then pure () else bad

/-- An element of a span. -/
def element (p : Span) (i : ℕ) : Except Failure UInt8 :=
  if i < p.size then
    match input.bytes[p.data + i]? with
    | some b => pure b
    | none => .error .outside
  else .error .outside

/-- All elements of a span. -/
def load (p : Span) : Except Failure (List UInt8) :=
  if p.data + p.size ≤ input.size then pure (Bytes.slice input.bytes p.data p.size)
  else .error .outside

def subspan (p : Span) (off count : ℕ) : Except Failure Span :=
  if off ≤ p.size ∧ count ≤ p.size - off then pure ⟨p.data + off, count⟩ else .error .outside

def range (off size : ℕ) : Except Failure Span :=
  if off > input.size ∨ size > A.u64 (input.size - off) then bad
  else subspan ⟨0, input.size⟩ off size

def read (off count : ℕ) : Except Failure ℕ := do
  let p ← range A input off count
  (List.range count).foldlM (fun value i => do
    let b ← element input p i
    pure (value ||| A.u64 (b.toNat <<< (8 * i)))) 0

/-- The section table: where it is, and which section holds the names. -/
structure Table where
  table : ℕ
  stride : ℕ
  count : ℕ
  namesIndex : ℕ

variable (t : Table)

def position (index : ℕ) : ℕ := A.u64 (t.table + A.u64 (index * t.stride))

/-- `section`. -/
def contents (index : ℕ) : Except Failure Span := do
  let pos := position A t index
  let off ← read A input (A.u64 (pos + 24)) 8
  let size ← read A input (A.u64 (pos + 32)) 8
  range A input off size

/-- The loop that looks for the end of a name. -/
def length (rest : Span) : ℕ → ℕ → Except Failure ℕ
  | 0, len => pure len
  | fuel + 1, len => do
    let b ← element input rest len
    if b ≠ 0 then length rest fuel (len + 1) else pure len

def name (names : Span) (nameOffset : ℕ) : Except Failure (List UInt8) := do
  require (nameOffset < names.size)
  let rest ← subspan names nameOffset (names.size - nameOffset)
  let len ← length input rest rest.size 0
  require (len ≠ rest.size)
  let text ← subspan rest 0 len
  load input text

def assign (dest : Span) (index : ℕ) : Except Failure Span := do
  require (dest.size = 0)
  let kind ← read A input (A.u64 (position A t index + 4)) 4
  require (kind = 1)
  let dest ← contents A input t index
  require (dest.size ≠ 0)
  pure dest

/-- One turn of the loop over the sections. -/
def visit (names : Span) (result : ShaderBinaryParts) (index : ℕ) :
    Except Failure ShaderBinaryParts := do
  let nameOffset ← read A input (position A t index) 4
  let text ← name input names nameOffset
  if text = shaderHeader then
    let header ← assign A input t result.header index
    pure { result with header := header }
  else if text = shaderText then
    let code ← assign A input t result.code index
    pure { result with code := code }
  else pure result

/-- The file header. -/
def readTable : Except Failure Table := do
  require (64 ≤ input.size)
  let magic ← read A input 0 4
  require (magic = 0x464c457f)
  let class64 ← element input ⟨0, input.size⟩ 4
  require (class64 = 2)
  let little ← element input ⟨0, input.size⟩ 5
  require (little = 1)
  let version ← element input ⟨0, input.size⟩ 6
  require (version = 1)
  let table ← read A input 40 8
  let stride ← read A input 58 2
  let count ← read A input 60 2
  let namesIndex ← read A input 62 2
  require (table ≠ 0)
  require (stride ≥ 64)
  require (count ≠ 0)
  require (namesIndex < count)
  let _ ← range A input table (A.u64 (stride * count))
  pure ⟨table, stride, count, namesIndex⟩

/-- What is checked of the parts that were found. -/
def check (result : ShaderBinaryParts) : Except Failure ShaderBinaryParts := do
  require (96 ≤ result.header.size)
  require (result.code.size ≠ 0)
  let b0 ← element input result.header 0
  let b1 ← element input result.header 1
  let b2 ← element input result.header 2
  let b3 ← element input result.header 3
  require (b0 = '1'.toNat.toUInt8 ∧ b1 = '2'.toNat.toUInt8 ∧ b2 = '3'.toNat.toUInt8 ∧
    b3 = '4'.toNat.toUInt8)
  require (¬ (result.header.data < result.code.data + result.code.size ∧
    result.code.data < result.header.data + result.header.size))
  pure result

def parseShaderBinary : Except Failure ShaderBinaryParts := do
  let t ← readTable A input
  let kind ← read A input (A.u64 (position A t t.namesIndex + 4)) 4
  require (kind = 3)
  let names ← contents A input t t.namesIndex
  let result ← (List.range t.count).foldlM (visit A input t names) ⟨⟨0, 0⟩, ⟨0, 0⟩⟩
  check input result

/-! ### The format -/

/-- A little-endian number of the file. -/
def word (off count : ℕ) : ℕ := Bytes.ofLittle (Bytes.slice input.bytes off count)

/-- The section table that the file header announces. -/
def tableOf : Table := ⟨word input 40 8, word input 58 2, word input 60 2, word input 62 2⟩

def entry (index : ℕ) : ℕ := t.table + index * t.stride

/-- Where the contents of a section are. -/
def sectionOf (index : ℕ) : Span := ⟨word input (entry t index + 24) 8, word input (entry t index + 32) 8⟩

/-- A string of the file that ends with a zero. -/
def Terminated (off : ℕ) (text : List UInt8) : Prop :=
  0 ∉ text ∧ Bytes.slice input.bytes off (text.length + 1) = text ++ [0]

/-- The name of a section ends inside the table of names. -/
def Named (index : ℕ) (text : List UInt8) : Prop :=
  word input (entry t index) 4 + text.length < (sectionOf input t t.namesIndex).size ∧
    Terminated input ((sectionOf input t t.namesIndex).data + word input (entry t index) 4) text

/-- The section is the only one of that name, and holds program bits. -/
structure Only (text : List UInt8) (index : ℕ) : Prop where
  lt : index < t.count
  only : ∀ i < t.count, Named input t i text ↔ i = index
  progbits : word input (entry t index + 4) 4 = 1

/-- A container, and its parts. -/
structure Container (parts : ShaderBinaryParts) : Prop where
  header : ∃ index, Only input (tableOf input) shaderHeader index ∧
    parts.header = sectionOf input (tableOf input) index
  code : ∃ index, Only input (tableOf input) shaderText index ∧
    parts.code = sectionOf input (tableOf input) index
  header_le : parts.header.data + parts.header.size ≤ input.size
  code_le : parts.code.data + parts.code.size ≤ input.size
  large : 96 ≤ parts.header.size
  pos : 0 < parts.code.size
  magic : Bytes.slice input.bytes parts.header.data 4 = "1234".toUTF8.data.toList
  apart : parts.code.data + parts.code.size ≤ parts.header.data ∨
    parts.header.data + parts.header.size ≤ parts.code.data

/-! ### Reading -/

variable {A : Arithmetic} {input : Input} {t : Table}

/-- The only failure is the one that `bad` throws. -/
abbrev Checked {α : Type} (r : Except Failure α) (Q : α → Prop) : Prop :=
  Post r Q (· = .invalidArgument "Invalid AGC shader container")

theorem checked_require (condition : Bool) :
    Checked (require condition) fun _ => condition = true := by
  cases condition with
  | true => rfl
  | false => rfl

theorem checked_subspan {p : Span} {off count : ℕ} (h : off + count ≤ p.size) :
    Checked (subspan p off count) fun s => s = ⟨p.data + off, count⟩ := by
  rw [subspan, if_pos (by omega)]
  rfl

theorem checked_element {p : Span} (hp : p.data + p.size ≤ input.size) {i : ℕ} (hi : i < p.size) :
    Checked (element input p i) fun b => input.bytes[p.data + i]? = some b := by
  have hlt : p.data + i < input.bytes.length := by
    rw [Input.size] at hp
    omega
  rw [element, if_pos hi, List.getElem?_eq_getElem hlt]
  rfl

theorem checked_load {p : Span} (hp : p.data + p.size ≤ input.size) :
    Checked (load input p) fun bytes => bytes = Bytes.slice input.bytes p.data p.size := by
  rw [load, if_pos hp]
  rfl

/-- A range that passes the check is inside the file. -/
theorem checked_range (A : Arithmetic) (input : Input) (off size : ℕ) :
    Checked (range A input off size) fun s => s = ⟨off, size⟩ ∧ off + size ≤ input.size := by
  rw [range]
  split
  next hbad => rfl
  next hgood =>
    obtain ⟨hoff, hsize⟩ := not_or.mp hgood
    have hfits := input.size_lt
    have hsub : A.u64 ((input.size : ℤ) - off) = input.size - off := by
      apply A.u64_eq
      · omega
      · rw [Input.size]
        omega
    rw [hsub] at hsize
    have hin : off + size ≤ input.size := by omega
    refine (checked_subspan (p := ⟨0, input.size⟩) hin).mono fun s hs => ⟨?_, hin⟩
    rw [hs, Nat.zero_add]

theorem word_succ {off i : ℕ} {b : UInt8} (hb : input.bytes[off + i]? = some b) :
    word input off (i + 1) = word input off i + 256 ^ i * b.toNat ∧ word input off i < 256 ^ i := by
  have hslice : Bytes.slice input.bytes off (i + 1) = Bytes.slice input.bytes off i ++ [b] := by
    rw [Bytes.slice, List.take_add_one, List.getElem?_drop, hb]
    rfl
  have hlength : (Bytes.slice input.bytes off i).length = i := by
    have hlt := (List.getElem?_eq_some_iff.mp hb).1
    exact Bytes.length_slice (by omega)
  have hlt := Bytes.ofLittle_lt (Bytes.slice input.bytes off i)
  rw [hlength] at hlt
  refine ⟨?_, hlt⟩
  rw [word, hslice, Bytes.ofLittle_append_singleton, hlength, word]

/-- Putting a byte above those that were read. -/
theorem or_byte (A : Arithmetic) {value i : ℕ} (hvalue : value < 256 ^ i) (hi : i < 8) (b : UInt8) :
    value ||| A.u64 (b.toNat <<< (8 * i) : ℕ) = value + 256 ^ i * b.toNat := by
  have hpow : 256 ^ i = 2 ^ (8 * i) := by
    rw [Nat.pow_mul]
  have hle : 2 ^ (8 * i) ≤ 2 ^ 56 := Nat.pow_le_pow_right (by decide) (by omega)
  have hb := b.toNat_lt
  have hmul : b.toNat * 2 ^ (8 * i) ≤ 255 * 2 ^ 56 := Nat.mul_le_mul (by omega) hle
  rw [hpow] at hvalue
  rw [A.u64_eq rfl (by rw [Nat.shiftLeft_eq]; omega), Nat.or_comm,
    ← Nat.shiftLeft_add_eq_or_of_lt hvalue, Nat.shiftLeft_eq, hpow, Nat.mul_comm, Nat.add_comm]

theorem checked_read (A : Arithmetic) (input : Input) (off : ℕ) {count : ℕ} (hcount : count ≤ 8) :
    Checked (read A input off count) fun v =>
      v = word input off count ∧ off + count ≤ input.size := by
  rw [read]
  refine (checked_range A input off count).bind ?_
  rintro p ⟨rfl, hin⟩
  -- after `i` turns the number of the first `i` bytes is there
  refine (Loop.foldlM_range_post (fun i v => v = word input off i) ?_ ?_).mono fun v hv => ⟨hv, hin⟩
  · rw [word, Bytes.slice, List.take_zero]
    rfl
  · rintro i hi v rfl
    refine (checked_element (p := ⟨off, count⟩) hin hi).bind fun b hb => ?_
    obtain ⟨hnext, hlt⟩ := word_succ hb
    show _ ||| _ = _
    rw [hnext, or_byte A hlt (by omega)]

/-! ### Sections -/

/-- The section table is inside the file. -/
structure Fits (input : Input) (t : Table) : Prop where
  stride : 64 ≤ t.stride
  le : t.table + t.stride * t.count ≤ input.size

theorem Fits.entry_le (h : Fits input t) {index : ℕ} (hindex : index < t.count) :
    entry t index + 64 ≤ input.size := by
  have hmul : t.stride * (index + 1) ≤ t.stride * t.count := Nat.mul_le_mul_left _ hindex
  have hstride := h.stride
  have hle := h.le
  rw [entry, Nat.mul_comm index]
  rw [Nat.mul_succ] at hmul
  omega

theorem Fits.position_eq (h : Fits input t) {index : ℕ} (hindex : index < t.count) :
    position A t index = entry t index := by
  have hle := h.entry_le hindex
  have hfits := input.size_lt
  rw [← Input.size] at hfits
  rw [entry] at hle ⊢
  rw [position, A.u64_mul (by omega), A.u64_add (by omega)]

theorem Fits.add_eq (h : Fits input t) {index : ℕ} (hindex : index < t.count) {n : ℕ}
    (hn : n < 64) : A.u64 ((entry t index : ℕ) + (n : ℕ)) = entry t index + n := by
  have hle := h.entry_le hindex
  have hfits := input.size_lt
  rw [← Input.size] at hfits
  exact A.u64_add (by omega)

theorem Fits.checked_contents (h : Fits input t) {index : ℕ} (hindex : index < t.count) :
    Checked (contents A input t index) fun s =>
      s = sectionOf input t index ∧ s.data + s.size ≤ input.size := by
  rw [contents, h.position_eq hindex]
  refine (checked_read A input _ (by decide)).bind ?_
  rintro off ⟨rfl, _⟩
  refine (checked_read A input _ (by decide)).bind ?_
  rintro size ⟨rfl, _⟩
  have hoff := h.add_eq (A := A) hindex (n := 24) (by decide)
  have hsize := h.add_eq (A := A) hindex (n := 32) (by decide)
  refine (checked_range A input _ _).mono ?_
  rintro s ⟨rfl, hin⟩
  refine ⟨?_, hin⟩
  rw [sectionOf]
  congr 2

/-! ### Names -/

/-- There is only one string at a place. -/
theorem Terminated.unique {off : ℕ} {text text' : List UInt8} (h : Terminated input off text)
    (h' : Terminated input off text') : text = text' := by
  have htake : ∀ {text : List UInt8}, Terminated input off text →
      (input.bytes.drop off).takeWhile (· != 0) = text := by
    rintro text ⟨hzero, hslice⟩
    have hall : ∀ b ∈ text, (b != 0) = true := by
      intro b hb
      rw [bne_iff_ne]
      rintro rfl
      exact hzero hb
    rw [← List.take_append_drop (text.length + 1) (input.bytes.drop off)]
    rw [Bytes.slice] at hslice
    rw [hslice, List.append_assoc, List.takeWhile_append_of_pos hall, List.singleton_append,
      List.takeWhile_cons_of_neg (by decide), List.append_nil]
  rw [← htake h, htake h']

theorem checked_length {rest : Span} (hrest : rest.data + rest.size ≤ input.size) (fuel len : ℕ)
    (hfuel : fuel + len = rest.size) (hbefore : 0 ∉ Bytes.slice input.bytes rest.data len) :
    Checked (length input rest fuel len) fun n =>
      n ≤ rest.size ∧ 0 ∉ Bytes.slice input.bytes rest.data n ∧
        (n ≠ rest.size → input.bytes[rest.data + n]? = some 0) := by
  induction fuel generalizing len with
  | zero => exact ⟨by omega, hbefore, fun hne => absurd (by omega) hne⟩
  | succ fuel ih =>
    rw [length]
    refine (checked_element hrest (i := len) (by omega)).bind fun b hb => ?_
    split
    next hne =>
      refine ih (len + 1) (by omega) ?_
      rw [Bytes.slice, List.take_add_one, List.getElem?_drop, hb, List.mem_append, not_or]
      exact ⟨hbefore, fun hmem => hne (List.mem_singleton.mp hmem).symm⟩
    next heq =>
      obtain rfl := not_not.mp heq
      exact ⟨by omega, hbefore, fun _ => hb⟩

theorem checked_name {names : Span} (hnames : names.data + names.size ≤ input.size)
    (nameOffset : ℕ) :
    Checked (name input names nameOffset) fun text =>
      nameOffset + text.length < names.size ∧ Terminated input (names.data + nameOffset) text := by
  rw [name]
  refine (checked_require _).bind fun _ hlt => ?_
  have hlt : nameOffset < names.size := of_decide_eq_true hlt
  refine (checked_subspan (by omega)).bind ?_
  rintro rest rfl
  have hin : names.data + nameOffset + (names.size - nameOffset) ≤ input.size := by omega
  refine (checked_length hin _ 0 (Nat.add_zero _) List.not_mem_nil).bind ?_
  rintro len ⟨hlen, hzero, hend⟩
  refine (checked_require _).bind fun _ hne => ?_
  have hne := of_decide_eq_true hne
  dsimp only at hlen hzero hend hne
  refine (checked_subspan (p := ⟨names.data + nameOffset, _⟩) (by dsimp only; omega)).bind ?_
  rintro text rfl
  refine (checked_load (by dsimp only; omega)).mono ?_
  rintro bytes rfl
  dsimp only
  have hlength : (Bytes.slice input.bytes (names.data + nameOffset) len).length = len :=
    Bytes.length_slice (by rw [← Input.size]; omega)
  rw [Nat.add_zero, Terminated, hlength]
  refine ⟨by omega, hzero, ?_⟩
  rw [Bytes.slice, List.take_add_one, List.getElem?_drop, hend hne]
  rfl

/-! ### The loop over the sections -/

/-- What is known of a name after the sections before `i`: it did not occur, or once. -/
def Found (input : Input) (t : Table) (i : ℕ) (text : List UInt8) (dest : Span) : Prop :=
  (dest = ⟨0, 0⟩ ∧ ∀ j < i, ¬ Named input t j text) ∨
    ∃ index < i, (∀ j < i, Named input t j text ↔ j = index) ∧
      word input (entry t index + 4) 4 = 1 ∧ dest = sectionOf input t index ∧ dest.size ≠ 0 ∧
      dest.data + dest.size ≤ input.size

variable {i : ℕ} {text : List UInt8} {dest : Span}

theorem Found.skip (h : Found input t i text dest) (hnot : ¬ Named input t i text) :
    Found input t (i + 1) text dest := by
  rcases h with ⟨hdest, hnone⟩ | ⟨index, hindex, honly, hrest⟩
  · refine Or.inl ⟨hdest, fun j hj => ?_⟩
    rcases Nat.lt_succ_iff_lt_or_eq.mp hj with hj | rfl
    · exact hnone j hj
    · exact hnot
  · refine Or.inr ⟨index, Nat.lt_succ_of_lt hindex, fun j hj => ?_, hrest⟩
    rcases Nat.lt_succ_iff_lt_or_eq.mp hj with hj | rfl
    · exact honly j hj
    · exact ⟨fun hnamed => absurd hnamed hnot, fun heq => absurd heq (by omega)⟩

theorem Found.take (h : Found input t i text dest) (hnamed : Named input t i text)
    (hfree : dest.size = 0) (hkind : word input (entry t i + 4) 4 = 1) {s : Span}
    (hs : s = sectionOf input t i ∧ s.data + s.size ≤ input.size) (hsize : s.size ≠ 0) :
    Found input t (i + 1) text s := by
  rcases h with ⟨_, hnone⟩ | ⟨index, hindex, honly, _, hdest, hne, _⟩
  · refine Or.inr ⟨i, Nat.lt_succ_self i, fun j hj => ?_, hkind, hs.1, hsize, hs.2⟩
    rcases Nat.lt_succ_iff_lt_or_eq.mp hj with hj | rfl
    · exact ⟨fun hj' => absurd hj' (hnone j hj), fun heq => absurd heq (by omega)⟩
    · exact ⟨fun _ => rfl, fun _ => hnamed⟩
  · exact absurd hfree hne

theorem Fits.checked_assign (h : Fits input t) (hi : i < t.count)
    (hfound : Found input t i text dest) (hnamed : Named input t i text) :
    Checked (assign A input t dest i) (Found input t (i + 1) text) := by
  rw [assign]
  refine (checked_require _).bind fun _ hfree => ?_
  have hfree := of_decide_eq_true hfree
  rw [h.position_eq hi]
  have hadd := h.add_eq (A := A) hi (n := 4) (by decide)
  refine (checked_read A input _ (by decide)).bind ?_
  rintro kind ⟨hkind, _⟩
  refine (checked_require _).bind fun _ hprogbits => ?_
  have hprogbits := of_decide_eq_true hprogbits
  refine (h.checked_contents hi).bind fun s hs => ?_
  refine (checked_require _).bind fun _ hsize => ?_
  have hword : word input (entry t i + 4) 4 = 1 := by
    rw [← hadd, ← hprogbits, hkind]
    rfl
  exact hfound.take hnamed hfree hword hs (of_decide_eq_true hsize)

/-- What is known of both parts. -/
def Both (input : Input) (t : Table) (i : ℕ) (result : ShaderBinaryParts) : Prop :=
  Found input t i shaderHeader result.header ∧ Found input t i shaderText result.code

theorem Fits.checked_visit (h : Fits input t) {names : Span}
    (hnames : names = sectionOf input t t.namesIndex ∧ names.data + names.size ≤ input.size)
    (hi : i < t.count) {result : ShaderBinaryParts} (hresult : Both input t i result) :
    Checked (visit A input t names result i) (Both input t (i + 1)) := by
  obtain ⟨rfl, hin⟩ := hnames
  rw [visit, h.position_eq hi]
  refine (checked_read A input _ (by decide)).bind ?_
  rintro nameOffset ⟨rfl, _⟩
  refine (checked_name hin _).bind fun text htext => ?_
  have hnamed : ∀ text', Named input t i text' ↔ text = text' := by
    intro text'
    exact ⟨fun h' => htext.2.unique h'.2, fun heq => heq ▸ htext⟩
  have hne : shaderHeader ≠ shaderText := by decide
  split
  next heq =>
    refine (h.checked_assign hi hresult.1 ((hnamed _).mpr heq)).bind fun s hs => ?_
    exact ⟨hs, hresult.2.skip fun h' => hne (heq ▸ (hnamed _).mp h')⟩
  next hheader =>
    split
    next heq =>
      refine (h.checked_assign hi hresult.2 ((hnamed _).mpr heq)).bind fun s hs => ?_
      exact ⟨hresult.1.skip fun h' => hheader ((hnamed _).mp h'), hs⟩
    next htext' =>
      exact ⟨hresult.1.skip fun h' => hheader ((hnamed _).mp h'),
        hresult.2.skip fun h' => htext' ((hnamed _).mp h')⟩

/-! ### The parser -/

theorem checked_readTable : Checked (readTable A input) fun t =>
    t = tableOf input ∧ Fits input t ∧ t.namesIndex < t.count := by
  rw [readTable]
  refine (checked_require _).bind fun _ hsize => ?_
  have hsize : 64 ≤ input.size := of_decide_eq_true hsize
  have helement : ∀ i < 64, Checked (element input ⟨0, input.size⟩ i) fun _ => True := fun i hi =>
    (checked_element (Nat.zero_add input.size).le (by dsimp only; omega)).mono fun _ _ => trivial
  refine (checked_read A input _ (by decide)).bind fun _ _ => ?_
  refine (checked_require _).bind fun _ _ => ?_
  refine (helement 4 (by decide)).bind fun _ _ => ?_
  refine (checked_require _).bind fun _ _ => ?_
  refine (helement 5 (by decide)).bind fun _ _ => ?_
  refine (checked_require _).bind fun _ _ => ?_
  refine (helement 6 (by decide)).bind fun _ _ => ?_
  refine (checked_require _).bind fun _ _ => ?_
  refine (checked_read A input _ (by decide)).bind ?_
  rintro table ⟨rfl, _⟩
  refine (checked_read A input _ (by decide)).bind ?_
  rintro stride ⟨rfl, _⟩
  refine (checked_read A input _ (by decide)).bind ?_
  rintro count ⟨rfl, _⟩
  refine (checked_read A input _ (by decide)).bind ?_
  rintro namesIndex ⟨rfl, _⟩
  refine (checked_require _).bind fun _ _ => ?_
  refine (checked_require _).bind fun _ hstride => ?_
  refine (checked_require _).bind fun _ _ => ?_
  refine (checked_require _).bind fun _ hnamesIndex => ?_
  refine (checked_range A input _ _).bind ?_
  rintro _ ⟨_, hrange⟩
  refine ⟨rfl, ⟨of_decide_eq_true hstride, ?_⟩, of_decide_eq_true hnamesIndex⟩
  -- both factors have 16 bits
  have hbound : ∀ off, word input off 2 < 2 ^ 16 := by
    intro off
    refine (Bytes.ofLittle_lt _).trans_le ?_
    have hle : (Bytes.slice input.bytes off 2).length ≤ 2 := List.length_take_le _ _
    exact (Nat.pow_le_pow_right (by decide) hle).trans (by decide)
  have hmul := Nat.mul_lt_mul'' (hbound 58) (hbound 60)
  rwa [A.u64_mul (by omega)] at hrange

theorem checked_check {result : ShaderBinaryParts} (hresult : Both input t t.count result)
    (ht : t = tableOf input) : Checked (check input result) (Container input) := by
  rw [check]
  refine (checked_require _).bind fun _ hlarge => ?_
  have hlarge : 96 ≤ result.header.size := of_decide_eq_true hlarge
  refine (checked_require _).bind fun _ hpos => ?_
  have hpos : result.code.size ≠ 0 := of_decide_eq_true hpos
  have hfound : ∀ {text : List UInt8} {dest : Span}, Found input t t.count text dest →
      dest.size ≠ 0 → (∃ index, Only input (tableOf input) text index ∧
        dest = sectionOf input (tableOf input) index) ∧ dest.data + dest.size ≤ input.size := by
    rintro text dest (⟨rfl, _⟩ | ⟨index, hlt, honly, hkind, hdest, _, hin⟩) hne
    · exact absurd rfl hne
    · exact ht ▸ ⟨⟨index, ⟨hlt, honly, hkind⟩, hdest⟩, hin⟩
  obtain ⟨hheader, hheaderIn⟩ := hfound hresult.1 (by omega)
  obtain ⟨hcode, hcodeIn⟩ := hfound hresult.2 hpos
  refine (checked_element hheaderIn (by omega)).bind fun b0 h0 => ?_
  refine (checked_element hheaderIn (by omega)).bind fun b1 h1 => ?_
  refine (checked_element hheaderIn (by omega)).bind fun b2 h2 => ?_
  refine (checked_element hheaderIn (by omega)).bind fun b3 h3 => ?_
  refine (checked_require _).bind fun _ hmagic => ?_
  obtain ⟨rfl, rfl, rfl, rfl⟩ := of_decide_eq_true hmagic
  refine (checked_require _).bind fun _ hapart => ?_
  have hapart := of_decide_eq_true hapart
  refine ⟨hheader, hcode, hheaderIn, hcodeIn, hlarge, by omega, ?_, by omega⟩
  have hslice : ∀ {n : ℕ} {b : UInt8}, input.bytes[result.header.data + n]? = some b →
      Bytes.slice input.bytes result.header.data (n + 1) =
        Bytes.slice input.bytes result.header.data n ++ [b] := by
    intro n b hb
    rw [Bytes.slice, List.take_add_one, List.getElem?_drop, hb]
    rfl
  rw [hslice h3, hslice h2, hslice h1, hslice h0]
  rfl

theorem checked_parse (A : Arithmetic) (input : Input) :
    Checked (parseShaderBinary A input) (Container input) := by
  rw [parseShaderBinary]
  refine checked_readTable.bind fun t ht => ?_
  obtain ⟨htable, hfits, hnamesIndex⟩ := ht
  refine (checked_read A input _ (by decide)).bind fun _ _ => ?_
  refine (checked_require _).bind fun _ _ => ?_
  refine (hfits.checked_contents hnamesIndex).bind fun names hnames => ?_
  refine (Loop.foldlM_range_post (Both input t) ?_ ?_).bind fun result hresult => ?_
  · exact ⟨Or.inl ⟨rfl, fun j hj => absurd hj (Nat.not_lt_zero j)⟩,
      Or.inl ⟨rfl, fun j hj => absurd hj (Nat.not_lt_zero j)⟩⟩
  · intro i hi result hresult
    exact hfits.checked_visit hnames hi hresult
  · exact checked_check hresult htable

/-- The parser fails in one way only, and what it returns are the parts of a container, whatever the
operations on words make of results that do not fit. -/
theorem parse_exact (A : Arithmetic) (input : Input) :
    match parseShaderBinary A input with
    | .ok parts => Container input parts
    | .error failure => failure = .invalidArgument "Invalid AGC shader container" := by
  have h := checked_parse A input
  cases hparse : parseShaderBinary A input with
  | error failure =>
    rw [hparse] at h
    exact h
  | ok parts =>
    rw [hparse] at h
    exact h

/-- A file with a table of four sections at 64, names at 320, a header at 384 and code at 480. -/
example :
    let sectionEntry (name kind low high size : UInt8) : List UInt8 :=
      [name, 0, 0, 0, kind, 0, 0, 0] ++ .replicate 16 0 ++ [low, high] ++ .replicate 6 0 ++
        [size] ++ .replicate 31 0
    let bytes : List UInt8 :=
      [0x7f, 0x45, 0x4c, 0x46, 2, 1, 1] ++ .replicate 33 0 ++ [64] ++ .replicate 17 0 ++
        [64, 0, 4, 0, 1, 0] ++ .replicate 64 0 ++ sectionEntry 1 3 0x40 1 40 ++
        sectionEntry 11 1 0x80 1 96 ++ sectionEntry 26 1 0xe0 1 32 ++
        "\x00.shstrtab\x00.shader_header\x00.shader_text\x00\x00".toUTF8.data.toList ++
        .replicate 24 0 ++ "1234".toUTF8.data.toList ++ .replicate 92 0 ++ [0xa5] ++ .replicate 31 0
    ∃ h, (parseShaderBinary .modular ⟨bytes, h⟩).toOption.map
      (fun parts => (parts.header.data, parts.header.size, parts.code.data, parts.code.size)) =
        some (384, 96, 480, 32) :=
  ⟨by decide +kernel, by decide +kernel⟩

end Gpu.ShaderBinary
