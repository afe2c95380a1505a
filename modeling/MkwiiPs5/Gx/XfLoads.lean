import MkwiiPs5.Gx.XfDecoder

/-!
# Loads of XF memory

Matrices and lights as the words of a flat memory: immediate loads of `handle_xf` and indexed loads
of `process` write the words of an accepted load, and nothing else.
-/

namespace Gx

open Bytes (slice number)
open Overlay (write write_of_mem write_of_not_mem write_singleton)

def CP_CMD_LOAD_INDX_A : ℕ := 0x20

/-! ### Indexed loads -/

/-- `count` words of the host memory from an address on. -/
def hostWords (host : ℕ → UInt8) (address count : ℕ) (bigEndian : Bool) : List ℕ :=
  (List.range count).map fun i => number (!bigEndian) (Overlay.load host (address + 4 * i) 4)

/-- The case `CP_CMD_LOAD_INDX_*` of `process`, with the new position; `none` when the data end too
early. -/
def loadIndx (host : ℕ → UInt8) (opcode : ℕ) (data : List UInt8) (pos : ℕ) (bigEndian : Bool)
    (s : GXRegisterState) : Except Fault (Option (ℕ × GXRegisterState)) :=
  if hasBytes pos data.length 4 then do
    let value ← readU32 data pos bigEndian
    let pos := pos + 4
    let arrayType := GX_POS_MTX_ARRAY + (opcode - CP_CMD_LOAD_INDX_A) / 0x08
    let srcArrayIdx := value >>> 16
    let len := ((value >>> 12) &&& 0x0f) + 1
    let dstAddr := value &&& 0x0fff
    let array := s.decoded.vertex.arrays arrayType
    let byteOffset := srcArrayIdx * array.stride.toNat
    let byteCount := len * 4
    if array.data = 0 ∨ array.stride = 0 ∨ byteOffset + byteCount > array.size.toNat then
      pure (some (pos, s))
    else
      let words := hostWords host (array.data + byteOffset) len bigEndian
      match copyXfData dstAddr words s.decoded.matrices with
      | some matrices =>
        pure (some (pos, { s with decoded := { s.decoded with matrices := matrices } }))
      | none => pure (some (pos, s))
  else pure none

/-! ### Loads of both kinds -/

/-- A load: the command at a position of the data, and for an indexed one the memory of the host. -/
inductive Load
  | immediate (data : List UInt8) (pos : ℕ) (bigEndian : Bool)
  | indexed (host : ℕ → UInt8) (opcode : ℕ) (data : List UInt8) (pos : ℕ) (bigEndian : Bool)

def GXRegisterState.load (s : GXRegisterState) : Load → Except Fault GXRegisterState
  | .immediate data pos bigEndian => do
    let r ← handleXf true data pos bigEndian s
    pure r.2
  | .indexed host opcode data pos bigEndian => do
    match ← loadIndx host opcode data pos bigEndian s with
    | some r => pure r.2
    | none => pure s

def GXRegisterState.loadAll (s : GXRegisterState) (loads : List Load) :
    Except Fault GXRegisterState := loads.foldlM GXRegisterState.load s

/-! ### The flat memory -/

/-- An element, where the word that was last loaded there, if any, is at `addr`. -/
def element {α : Type*} (unpack : ℕ → α) (flat : ℕ → Option ℕ) (addr : ℕ) (old : α) : α :=
  match flat addr with
  | some word => unpack word
  | none => old

/-- Three numbers from `addr` on. -/
def triple (old : ℕ → Float32) (flat : ℕ → Option ℕ) (addr j : ℕ) : Float32 :=
  if j < 3 then element floatOfBits flat (addr + j) (old j) else old j

/-- A light at the words from `base` on; the first three are not used. -/
def Light.view (light : Light) (flat : ℕ → Option ℕ) (base : ℕ) : Light where
  color := element unpackColor flat (base + 3) light.color
  cosAtt := triple light.cosAtt flat (base + 4)
  distAtt := triple light.distAtt flat (base + 7)
  pos := triple light.pos flat (base + 10)
  dir := triple light.dir flat (base + 13)

/-- Matrices of `count`, each of 12 words, from `base` on. -/
def bank (count base : ℕ) (old : ℕ → ℕ → Float32) (flat : ℕ → Option ℕ) (i k : ℕ) : Float32 :=
  if i < count ∧ k < 12 then element floatOfBits flat (base + 12 * i + k) (old i k) else old i k

/-- Normal matrices have three words a row, and rows at a distance of four. -/
def nrmBank (old : ℕ → ℕ → Float32) (flat : ℕ → Option ℕ) (i k : ℕ) : Float32 :=
  if i < MaxPnMtx ∧ k < 12 ∧ k % 4 < 3 then
    element floatOfBits flat (0x400 + 9 * i + 3 * (k / 4) + k % 4) (old i k)
  else old i k

/-- Matrices and lights as they were, but for the words that the flat memory has. -/
def MatrixMemory.view (m : MatrixMemory) (flat : ℕ → Option ℕ) : MatrixMemory where
  pos := bank MaxPnMtx 0 m.pos flat
  nrm := nrmBank m.nrm flat
  texMtxs := bank MaxTexMtx 0x78 m.texMtxs flat
  ptTexMtxs := bank MaxPTTexMtx 0x500 m.ptTexMtxs flat
  lights i := if i < MaxLights then (m.lights i).view flat (0x600 + 16 * i) else m.lights i

/-- The loads that are accepted: one whole matrix, or two rows of a texture matrix, or a part of one
light. -/
def accepted (addr len : ℕ) : Bool :=
  (addr < 0x78 && addr % 12 == 0 && len == 12) ||
  (0x78 ≤ addr && addr < 0xF0 && (addr - 0x78) % 12 == 0 && (len == 8 || len == 12)) ||
  (0x400 ≤ addr && addr < 0x45A && (addr - 0x400) % 9 == 0 && len == 9) ||
  (0x500 ≤ addr && addr < 0x5F0 && (addr - 0x500) % 12 == 0 && len == 12) ||
  (0x600 ≤ addr && addr < 0x680 && (addr - 0x600) % 16 + len ≤ 16)

/-- The address and the words of a load that finds its words. -/
def Load.burst (arrays : ℕ → AttrArray) : Load → Option (ℕ × List ℕ)
  | .immediate data pos bigEndian =>
    let header := number (!bigEndian) (slice data pos 4)
    let count := header / 2 ^ 16 % 2 ^ 16 + 1
    if pos + 4 + 4 * count ≤ data.length then
      some (header % 2 ^ 16, (List.range count).map fun i =>
        number (!bigEndian) (slice data (pos + 4 + 4 * i) 4))
    else none
  | .indexed host opcode data pos bigEndian =>
    let value := number (!bigEndian) (slice data pos 4)
    let array := arrays (GX_POS_MTX_ARRAY + (opcode - CP_CMD_LOAD_INDX_A) / 8)
    let offset := value / 2 ^ 16 * array.stride.toNat
    let count := value / 2 ^ 12 % 2 ^ 4 + 1
    if pos + 4 ≤ data.length ∧ array.data ≠ 0 ∧ array.stride ≠ 0 ∧
        offset + 4 * count ≤ array.size.toNat then
      some (value % 2 ^ 12, hostWords host (array.data + offset) count bigEndian)
    else none

/-- What a load makes of the flat memory. -/
def Load.apply (arrays : ℕ → AttrArray) (flat : ℕ → Option ℕ) (load : Load) : ℕ → Option ℕ :=
  match load.burst arrays with
  | some (addr, words) =>
    if accepted addr words.length then write flat addr (words.map some) else flat
  | none => flat

/-! ### The elements after a load -/

variable {α : Type*} {unpack : ℕ → α} {flat : ℕ → Option ℕ} {addr a : ℕ} {words : List ℕ}

theorem element_write_of_not_mem (old : α) (h : ¬ (addr ≤ a ∧ a < addr + words.length)) :
    element unpack (write flat addr (words.map some)) a old = element unpack flat a old := by
  rw [element, write_of_not_mem (by rwa [List.length_map]), element]

theorem element_write_of_mem (old : α) (hlo : addr ≤ a) (hhi : a - addr < words.length) :
    element unpack (write flat addr (words.map some)) a old = unpack words[a - addr] := by
  rw [element, write_of_mem hlo (by rwa [List.length_map]), List.getElem_map]

theorem bank_write_of_apart {count base : ℕ} {old : ℕ → ℕ → Float32}
    (h : addr + words.length ≤ base ∨ base + 12 * count ≤ addr) :
    bank count base old (write flat addr (words.map some)) = bank count base old flat := by
  funext i k
  rw [bank, bank]
  split
  · exact element_write_of_not_mem _ (by omega)
  · rfl

theorem nrmBank_write_of_apart {old : ℕ → ℕ → Float32}
    (h : addr + words.length ≤ 0x400 ∨ 0x45A ≤ addr) :
    nrmBank old (write flat addr (words.map some)) = nrmBank old flat := by
  have hmax : MaxPnMtx = 10 := rfl
  funext i k
  rw [nrmBank, nrmBank]
  split
  · exact element_write_of_not_mem _ (by omega)
  · rfl

theorem triple_write_of_apart {old : ℕ → Float32} (h : addr + words.length ≤ a ∨ a + 3 ≤ addr) :
    triple old (write flat addr (words.map some)) a = triple old flat a := by
  funext j
  rw [triple, triple]
  split
  · exact element_write_of_not_mem _ (by omega)
  · rfl

theorem Light.view_write_of_apart {light : Light} {base : ℕ}
    (h : addr + words.length ≤ base ∨ base + 16 ≤ addr) :
    light.view (write flat addr (words.map some)) base = light.view flat base := by
  rw [Light.view, Light.view, element_write_of_not_mem _ (by omega), triple_write_of_apart (by omega),
    triple_write_of_apart (by omega), triple_write_of_apart (by omega),
    triple_write_of_apart (by omega)]

/-- A whole matrix, or its first rows. -/
theorem bank_write {count base i : ℕ} {old : ℕ → ℕ → Float32} (hi : i < count)
    (hlength : words.length ≤ 12) :
    write (bank count base old flat) i [write (bank count base old flat i) 0 (words.map floatOfBits)] =
      bank count base old (write flat (base + 12 * i) (words.map some)) := by
  rw [write_singleton]
  funext i' k
  rcases eq_or_ne i' i with rfl | hne
  · rw [Function.update_self]
    by_cases hk : k < words.length
    · rw [write_of_mem (Nat.zero_le k) (by rw [List.length_map]; omega), List.getElem_map, bank,
        if_pos ⟨hi, by omega⟩, element_write_of_mem _ (by omega) (by omega)]
      congr 2
      omega
    · rw [write_of_not_mem (by rw [List.length_map]; omega), bank, bank]
      split
      · exact (element_write_of_not_mem _ (by omega)).symm
      · rfl
  · rw [Function.update_of_ne hne, bank, bank]
    split
    · exact (element_write_of_not_mem _ (by omega)).symm
    · rfl

/-- A whole normal matrix, row by row. -/
theorem nrmBank_write {i : ℕ} {old : ℕ → ℕ → Float32} (hi : i < MaxPnMtx)
    (hlength : words.length = 9) :
    write (nrmBank old flat) i [write (write (write (nrmBank old flat i) 0
      ((words.map floatOfBits).take 3)) 4 (((words.map floatOfBits).drop 3).take 3)) 8
      ((words.map floatOfBits).drop 6)] =
      nrmBank old (write flat (0x400 + 9 * i) (words.map some)) := by
  have hmax : MaxPnMtx = 10 := rfl
  rw [write_singleton]
  funext i' k
  rcases eq_or_ne i' i with rfl | hne
  · rw [Function.update_self]
    obtain ⟨a0, a1, a2, a3, a4, a5, a6, a7, a8, rfl⟩ : ∃ a0 a1 a2 a3 a4 a5 a6 a7 a8,
        words = [a0, a1, a2, a3, a4, a5, a6, a7, a8] := by
      match words, hlength with
      | [a0, a1, a2, a3, a4, a5, a6, a7, a8], _ => exact ⟨a0, a1, a2, a3, a4, a5, a6, a7, a8, rfl⟩
    by_cases hk : k < 12
    · have hoffset (n : ℕ) : 1024 + (9 * i' + n) - (1024 + 9 * i') = n := by omega
      interval_cases k <;> simp [nrmBank, write, element, hi, Nat.add_assoc, hoffset]
    · rw [write_of_not_mem (by simp; omega), write_of_not_mem (by simp; omega),
        write_of_not_mem (by simp; omega), nrmBank, nrmBank, if_neg (by omega), if_neg (by omega)]
  · rw [Function.update_of_ne hne, nrmBank, nrmBank]
    split
    · exact (element_write_of_not_mem _ (by omega)).symm
    · rfl

theorem triple_update {old : ℕ → Float32} {word : ℕ} (start base field : ℕ) :
    triple old (Function.update flat (base + field) (some word)) (base + start) =
      if start ≤ field ∧ field ≤ start + 2 then
        write (triple old flat (base + start)) (field - start) [floatOfBits word]
      else triple old flat (base + start) := by
  rw [write_singleton]
  funext j
  rw [triple, element]
  split_ifs with hj hfield hfield
  · rcases eq_or_ne j (field - start) with rfl | hne
    · rw [Function.update_self, show base + start + (field - start) = base + field by omega,
        Function.update_self]
    · rw [Function.update_of_ne hne, Function.update_of_ne (by omega), triple, if_pos hj, element]
  · rw [Function.update_of_ne (by omega), triple, if_pos hj, element]
  · rw [Function.update_of_ne (by omega), triple, if_neg hj]
  · rw [triple, if_neg hj]

theorem Light.setField_view {light : Light} {base field : ℕ} (word : ℕ) :
    (light.view flat base).setField field word =
      light.view (Function.update flat (base + field) (some word)) base := by
  have hcolor : element unpackColor (Function.update flat (base + field) (some word)) (base + 3)
      light.color = if field = 3 then unpackColor word
        else element unpackColor flat (base + 3) light.color := by
    rw [element]
    split_ifs with h
    · rw [h, Function.update_self]
    · rw [Function.update_of_ne (by omega), element]
  rw [Light.setField, Light.view, Light.view, hcolor, triple_update, triple_update, triple_update,
    triple_update]
  dsimp only
  split_ifs <;> first | rfl | omega

/-- The loop over the words of a light. -/
theorem Light.foldl_setField {light : Light} {base start : ℕ} :
    (words.zipIdx start).foldl (fun light w => light.setField w.2 w.1) (light.view flat base) =
      light.view (write flat (base + start) (words.map some)) base := by
  induction words generalizing start flat with
  | nil => rw [List.map_nil, Overlay.write_nil]; rfl
  | cons word words ih =>
    rw [List.zipIdx_cons, List.foldl_cons, Light.setField_view, ih, List.map_cons,
      Overlay.write_cons, Nat.add_assoc]

/-! ### Loads of the memory -/

variable {m : MatrixMemory}

theorem accepted_iff {len : ℕ} : accepted addr len = true ↔
    addr < 0x78 ∧ addr % 12 = 0 ∧ len = 12 ∨
    0x78 ≤ addr ∧ addr < 0xF0 ∧ (addr - 0x78) % 12 = 0 ∧ (len = 8 ∨ len = 12) ∨
    0x400 ≤ addr ∧ addr < 0x45A ∧ (addr - 0x400) % 9 = 0 ∧ len = 9 ∨
    0x500 ≤ addr ∧ addr < 0x5F0 ∧ (addr - 0x500) % 12 = 0 ∧ len = 12 ∨
    0x600 ≤ addr ∧ addr < 0x680 ∧ (addr - 0x600) % 16 + len ≤ 16 := by
  simp only [accepted, Bool.or_eq_true, Bool.and_eq_true, decide_eq_true_eq, beq_iff_eq, or_assoc,
    and_assoc]

theorem lights_write_of_apart (m : MatrixMemory)
    (h : addr + words.length ≤ 0x600 ∨ 0x680 ≤ addr) :
    (m.view (write flat addr (words.map some))).lights = (m.view flat).lights := by
  have hmax : MaxLights = 8 := rfl
  funext i
  rw [MatrixMemory.view, MatrixMemory.view]
  dsimp only
  split
  · exact Light.view_write_of_apart (by omega)
  · rfl

/-- What the banks are after a load that reaches some of them only. -/
theorem view_write_of_apart (m : MatrixMemory) :
    m.view (write flat addr (words.map some)) =
      { pos := if 0x78 ≤ addr then (m.view flat).pos
          else bank MaxPnMtx 0 m.pos (write flat addr (words.map some))
        nrm := if addr + words.length ≤ 0x400 ∨ 0x45A ≤ addr then (m.view flat).nrm
          else nrmBank m.nrm (write flat addr (words.map some))
        texMtxs := if addr + words.length ≤ 0x78 ∨ 0xF0 ≤ addr then (m.view flat).texMtxs
          else bank MaxTexMtx 0x78 m.texMtxs (write flat addr (words.map some))
        ptTexMtxs := if addr + words.length ≤ 0x500 ∨ 0x5F0 ≤ addr then (m.view flat).ptTexMtxs
          else bank MaxPTTexMtx 0x500 m.ptTexMtxs (write flat addr (words.map some))
        lights := (m.view (write flat addr (words.map some))).lights } := by
  have hpn : MaxPnMtx = 10 := rfl
  have htex : MaxTexMtx = 10 := rfl
  have hpt : MaxPTTexMtx = 20 := rfl
  rw [MatrixMemory.mk.injEq]
  refine ⟨?_, ?_, ?_, ?_, rfl⟩
  · split
    · exact bank_write_of_apart (by omega)
    · rfl
  · split
    · next h => exact nrmBank_write_of_apart h
    · rfl
  · split
    · exact bank_write_of_apart (by omega)
    · rfl
  · split
    · exact bank_write_of_apart (by omega)
    · rfl

theorem copyXfData_pos (h : addr < 0x78) :
    (copyXfData addr words (m.view flat)).getD (m.view flat) =
      m.view (if accepted addr words.length then write flat addr (words.map some) else flat) := by
  have hpn : MaxPnMtx = 10 := rfl
  rw [copyXfData]
  dsimp only
  rw [if_pos h]
  split
  next hwhole =>
    have hwrite : _ = bank MaxPnMtx 0 m.pos (write flat (0 + 12 * (addr / 12)) (words.map some)) :=
      bank_write hwhole.1 (by omega)
    rw [show 0 + 12 * (addr / 12) = addr by omega] at hwrite
    rw [if_pos (accepted_iff.mpr (by omega)), view_write_of_apart, if_neg (by omega),
      if_pos (by omega), if_pos (by omega), if_pos (by omega), lights_write_of_apart m (by omega)]
    exact congrArg (MatrixMemory.mk · _ _ _ _) hwrite
  next hpart => rw [if_neg (by rw [accepted_iff]; omega), Option.getD_some]

theorem copyXfData_texMtxs (hlo : 0x78 ≤ addr) (hhi : addr < 0xF0) :
    (copyXfData addr words (m.view flat)).getD (m.view flat) =
      m.view (if accepted addr words.length then write flat addr (words.map some) else flat) := by
  have htex : MaxTexMtx = 10 := rfl
  rw [copyXfData]
  dsimp only
  rw [if_neg (by omega), if_pos hhi]
  split
  next hwhole =>
    have hwrite : _ = bank MaxTexMtx 0x78 m.texMtxs
        (write flat (0x78 + 12 * ((addr - 0x78) / 12)) (words.map some)) :=
      bank_write hwhole.1 (by omega)
    rw [show 0x78 + 12 * ((addr - 0x78) / 12) = addr by omega] at hwrite
    rw [if_pos (accepted_iff.mpr (by omega)), view_write_of_apart, if_pos hlo, if_pos (by omega),
      if_neg (by omega), if_pos (by omega), lights_write_of_apart m (by omega)]
    exact congrArg (MatrixMemory.mk _ _ · _ _) hwrite
  next hpart => rw [if_neg (by rw [accepted_iff]; omega), Option.getD_some]

theorem copyXfData_nrm (h : 0x400 ≤ addr ∧ addr < 0x45A) :
    (copyXfData addr words (m.view flat)).getD (m.view flat) =
      m.view (if accepted addr words.length then write flat addr (words.map some) else flat) := by
  have hpn : MaxPnMtx = 10 := rfl
  rw [copyXfData]
  dsimp only
  rw [if_neg (by omega), if_neg (by omega), if_pos h]
  split
  next hwhole =>
    have hwrite : _ = nrmBank m.nrm (write flat (0x400 + 9 * ((addr - 0x400) / 9)) (words.map some)) :=
      nrmBank_write hwhole.1 hwhole.2.2
    rw [show 0x400 + 9 * ((addr - 0x400) / 9) = addr by omega] at hwrite
    rw [if_pos (accepted_iff.mpr (by omega)), view_write_of_apart, if_pos (by omega),
      if_neg (by omega), if_pos (by omega), if_pos (by omega), lights_write_of_apart m (by omega)]
    exact congrArg (MatrixMemory.mk _ · _ _ _) hwrite
  next hpart => rw [if_neg (by rw [accepted_iff]; omega), Option.getD_some]

theorem copyXfData_ptTexMtxs (h : 0x500 ≤ addr ∧ addr < 0x5F0) :
    (copyXfData addr words (m.view flat)).getD (m.view flat) =
      m.view (if accepted addr words.length then write flat addr (words.map some) else flat) := by
  have hpt : MaxPTTexMtx = 20 := rfl
  rw [copyXfData]
  dsimp only
  rw [if_neg (by omega), if_neg (by omega), if_neg (by omega), if_pos h]
  split
  next hwhole =>
    have hwrite : _ = bank MaxPTTexMtx 0x500 m.ptTexMtxs
        (write flat (0x500 + 12 * ((addr - 0x500) / 12)) (words.map some)) :=
      bank_write hwhole.1 (by omega)
    rw [show 0x500 + 12 * ((addr - 0x500) / 12) = addr by omega] at hwrite
    rw [if_pos (accepted_iff.mpr (by omega)), view_write_of_apart, if_pos (by omega),
      if_pos (by omega), if_pos (by omega), if_neg (by omega), lights_write_of_apart m (by omega)]
    exact congrArg (MatrixMemory.mk _ _ _ · _) hwrite
  next hpart => rw [if_neg (by rw [accepted_iff]; omega), Option.getD_some]

theorem copyXfData_lights (h : 0x600 ≤ addr ∧ addr < 0x680) :
    (copyXfData addr words (m.view flat)).getD (m.view flat) =
      m.view (if accepted addr words.length then write flat addr (words.map some) else flat) := by
  have hmax : MaxLights = 8 := rfl
  rw [copyXfData]
  dsimp only
  rw [if_neg (by omega), if_neg (by omega), if_neg (by omega), if_neg (by omega), if_pos h]
  split
  next hpart =>
    have hlight : 0x600 + 16 * ((addr - 0x600) / 0x10) + (addr - 0x600) % 0x10 = addr := by omega
    rw [if_pos (accepted_iff.mpr (by omega)), view_write_of_apart, if_pos (by omega),
      if_pos (by omega), if_pos (by omega), if_pos (by omega)]
    refine congrArg (MatrixMemory.mk _ _ _ _) ?_
    rw [MatrixMemory.view, MatrixMemory.view]
    dsimp only
    rw [if_pos hpart.1, Light.foldl_setField, hlight, write_singleton]
    funext i
    rcases eq_or_ne i ((addr - 0x600) / 0x10) with rfl | hne
    · rw [Function.update_self, if_pos hpart.1]
    · rw [Function.update_of_ne hne]
      split
      · exact (Light.view_write_of_apart (by omega)).symm
      · rfl
  next hpart => rw [if_neg (by rw [accepted_iff]; omega), Option.getD_some]

/-- A copy writes the words of an accepted load, and nothing otherwise. -/
theorem copyXfData_view (addr : ℕ) (words : List ℕ) (m : MatrixMemory) (flat : ℕ → Option ℕ) :
    (copyXfData addr words (m.view flat)).getD (m.view flat) =
      m.view (if accepted addr words.length then write flat addr (words.map some) else flat) := by
  by_cases hpos : addr < 0x78
  · exact copyXfData_pos hpos
  by_cases htex : addr < 0xF0
  · exact copyXfData_texMtxs (Nat.le_of_not_lt hpos) htex
  by_cases hnrm : 0x400 ≤ addr ∧ addr < 0x45A
  · exact copyXfData_nrm hnrm
  by_cases hpt : 0x500 ≤ addr ∧ addr < 0x5F0
  · exact copyXfData_ptTexMtxs hpt
  by_cases hlights : 0x600 ≤ addr ∧ addr < 0x680
  · exact copyXfData_lights hlights
  rw [copyXfData, if_neg hpos, if_neg htex, if_neg hnrm, if_neg hpt, if_neg hlights,
    if_neg (by rw [accepted_iff]; omega)]
  rfl

/-! ### Loads of the registers -/

/-- The matrices and the arrays, which XF registers do not change. -/
def Decoded.loaded (d : Decoded) := (d.matrices, d.vertex)

variable {s : GXRegisterState}

theorem GXRegisterState.writeXfReg_loaded (skip : Bool) (w : ℕ × ℕ) :
    (s.writeXfReg skip w).decoded.loaded = s.decoded.loaded := by
  obtain ⟨valid, cache, hstore⟩ := GXRegisterState.storeXfReg_eq w.2 w.1 s
  rw [writeXfReg, hstore]
  split <;> rfl

theorem GXRegisterState.writeXfRegs_loaded (skip : Bool) (xfAddr : ℕ) (words : List ℕ) :
    (s.writeXfRegs skip xfAddr words).decoded.loaded = s.decoded.loaded := by
  have hloop : ∀ (regs : List (ℕ × ℕ)) (s : GXRegisterState),
      (regs.foldl (writeXfReg skip) s).decoded.loaded = s.decoded.loaded := by
    intro regs
    induction regs with
    | nil => exact fun _ => rfl
    | cons w regs ih => exact fun s => (ih _).trans (writeXfReg_loaded skip w)
  refine Eq.trans ?_ (hloop (words.zipIdx xfAddr) s)
  rw [writeXfRegs]
  split <;> split <;> rfl

theorem GXRegisterState.writeXf_loaded (skip : Bool) (addr : ℕ) (words : List ℕ) :
    (s.writeXf skip addr words).decoded.loaded =
      ((copyXfData addr words s.decoded.matrices).getD s.decoded.matrices, s.decoded.vertex) := by
  rw [writeXf]
  cases copyXfData addr words s.decoded.matrices with
  | some matrices => rfl
  | none =>
    dsimp only
    split
    · exact writeXfRegs_loaded skip _ _
    · rfl

theorem and_mask (x n : ℕ) : x &&& (2 ^ n - 1) = x % 2 ^ n := Nat.and_two_pow_sub_one_eq_mod x n

/-- What `handle_xf` reads is the load that the bytes announce. -/
theorem readXf_eq (arrays : ℕ → AttrArray) (data : List UInt8) (pos : ℕ) (bigEndian : Bool) :
    readXf data pos bigEndian = .ok (((Load.immediate data pos bigEndian).burst arrays).map
      fun b => ⟨b.1, b.2, pos + 4 + b.2.length * 4⟩) := by
  rw [readXf, Load.burst]
  dsimp only
  split
  next hshort => rw [if_neg (by omega)]; rfl
  next hlong =>
    rw [readU32, readUint_ok (by omega)]
    generalize number (!bigEndian) (slice data pos 4) = header
    have hcount : header >>> 16 &&& 0xFFFF = header / 2 ^ 16 % 2 ^ 16 := by
      rw [Nat.shiftRight_eq_div_pow]
      exact and_mask _ 16
    have haddr : header &&& 0xFFFF = header % 2 ^ 16 := and_mask _ 16
    show (if data.length - (pos + 4) < ((header >>> 16 &&& 0xFFFF) + 1) * 4 then _ else _) = _
    rw [hcount, haddr]
    split
    next hfew => rw [if_neg (by omega)]; rfl
    next hwords =>
      rw [if_pos (by omega), readWords_ok (by omega)]
      show Except.ok _ = Except.ok (some (XfBurst.mk _ _ _))
      rw [List.length_map, List.length_range]

/-- What an indexed load leaves. -/
theorem loadIndx_eq (host : ℕ → UInt8) (opcode : ℕ) (data : List UInt8) (pos : ℕ)
    (bigEndian : Bool) : ∃ r, loadIndx host opcode data pos bigEndian s = .ok r ∧
      ((r.map Prod.snd).getD s).decoded.loaded =
        match (Load.indexed host opcode data pos bigEndian).burst s.decoded.vertex.arrays with
        | some (addr, words) =>
          ((copyXfData addr words s.decoded.matrices).getD s.decoded.matrices, s.decoded.vertex)
        | none => s.decoded.loaded := by
  have hiff : hasBytes pos data.length 4 = true ↔ pos + 4 ≤ data.length := by
    simp only [hasBytes, Bool.and_eq_true, decide_eq_true_eq]
    omega
  rw [loadIndx, Load.burst]
  dsimp only
  split
  next hbytes =>
    have hin := hiff.mp hbytes
    rw [readU32, readUint_ok hin]
    generalize number (!bigEndian) (slice data pos 4) = value
    -- the fields of the operand, once as shifts and masks and once as digits
    have hcount : value >>> 12 &&& 0x0f = value / 2 ^ 12 % 2 ^ 4 := by
      rw [Nat.shiftRight_eq_div_pow]
      exact and_mask _ 4
    have haddr : value &&& 0x0fff = value % 2 ^ 12 := and_mask _ 12
    have hidx : value >>> 16 = value / 2 ^ 16 := Nat.shiftRight_eq_div_pow _ _
    rw [← hcount, ← haddr, ← hidx]
    generalize s.decoded.vertex.arrays (GX_POS_MTX_ARRAY + (opcode - CP_CMD_LOAD_INDX_A) / 8) = array
    show ∃ r, (if array.data = 0 ∨ array.stride = 0 ∨ array.size.toNat <
      value >>> 16 * array.stride.toNat + ((value >>> 12 &&& 0x0f) + 1) * 4 then _ else _) = _ ∧ _
    split
    next hinvalid =>
      -- the three reasons why the source refuses the load
      have hnone : ¬ (pos + 4 ≤ data.length ∧ array.data ≠ 0 ∧ array.stride ≠ 0 ∧
          value >>> 16 * array.stride.toNat + 4 * ((value >>> 12 &&& 0x0f) + 1) ≤
            array.size.toNat) := by
        rintro ⟨_, hdata, hstride, hfits⟩
        rcases hinvalid with hdata' | hstride' | hfits'
        · exact hdata hdata'
        · exact hstride hstride'
        · omega
      rw [if_neg hnone]
      exact ⟨_, rfl, rfl⟩
    next hvalid =>
      obtain ⟨hdata, hvalid⟩ := not_or.mp hvalid
      obtain ⟨hstride, hfits⟩ := not_or.mp hvalid
      rw [if_pos ⟨hin, hdata, hstride, by omega⟩]
      dsimp only
      cases copyXfData (value &&& 0x0fff) _ s.decoded.matrices with
      | some matrices => exact ⟨_, rfl, rfl⟩
      | none => exact ⟨_, rfl, rfl⟩
  next hbytes =>
    rw [if_neg fun h => hbytes (hiff.mpr h.1)]
    exact ⟨none, rfl, rfl⟩

/-- What a load of either kind leaves. -/
theorem GXRegisterState.load_eq (load : Load) : ∃ s', s.load load = .ok s' ∧
    s'.decoded.loaded = match load.burst s.decoded.vertex.arrays with
      | some (addr, words) =>
        ((copyXfData addr words s.decoded.matrices).getD s.decoded.matrices, s.decoded.vertex)
      | none => s.decoded.loaded := by
  cases load with
  | immediate data pos bigEndian =>
    rw [GXRegisterState.load, handleXf, readXf_eq s.decoded.vertex.arrays]
    cases (Load.immediate data pos bigEndian).burst s.decoded.vertex.arrays with
    | none => exact ⟨s, rfl, rfl⟩
    | some burst => exact ⟨_, rfl, writeXf_loaded true _ _⟩
  | indexed host opcode data pos bigEndian =>
    obtain ⟨r, hload, hleft⟩ := loadIndx_eq (s := s) host opcode data pos bigEndian
    rw [GXRegisterState.load, hload]
    refine ⟨(r.map Prod.snd).getD s, ?_, hleft⟩
    cases r <;> rfl

theorem MatrixMemory.view_none (m : MatrixMemory) : m.view (fun _ => none) = m := by
  have hbank (count base : ℕ) (old : ℕ → ℕ → Float32) : bank count base old (fun _ => none) = old := by
    funext i k
    rw [bank]
    split <;> rfl
  have htriple (old : ℕ → Float32) (addr : ℕ) : triple old (fun _ => none) addr = old := by
    funext j
    rw [triple]
    split <;> rfl
  have hnrm : nrmBank m.nrm (fun _ => none) = m.nrm := by
    funext i k
    rw [nrmBank]
    split <;> rfl
  have hlight (light : Light) (base : ℕ) : light.view (fun _ => none) base = light := by
    rw [Light.view, htriple, htriple, htriple, htriple]
    rfl
  rw [view, hbank, hbank, hbank, hnrm]
  congr 1
  funext i
  split
  · exact hlight _ _
  · rfl

/-- Any loads, of both kinds, at any addresses and of any lengths: afterwards the matrices and lights
are what they were, but for the words of a flat memory to which the accepted loads were applied. -/
theorem xf_loads (s : GXRegisterState) (loads : List Load) :
    ∃ s', s.loadAll loads = .ok s' ∧ s'.decoded.vertex = s.decoded.vertex ∧
      s'.decoded.matrices = s.decoded.matrices.view
        (loads.foldl (Load.apply s.decoded.vertex.arrays) fun _ => none) := by
  suffices h : ∀ (flat : ℕ → Option ℕ) (t : GXRegisterState),
      t.decoded.loaded = (s.decoded.matrices.view flat, s.decoded.vertex) →
      ∃ s', t.loadAll loads = .ok s' ∧ s'.decoded.loaded =
        (s.decoded.matrices.view (loads.foldl (Load.apply s.decoded.vertex.arrays) flat),
          s.decoded.vertex) by
    obtain ⟨s', hrun, hloaded⟩ := h (fun _ => none) s (by rw [MatrixMemory.view_none]; rfl)
    exact ⟨s', hrun, congrArg Prod.snd hloaded, congrArg Prod.fst hloaded⟩
  induction loads with
  | nil => exact fun flat t ht => ⟨t, rfl, ht⟩
  | cons load loads ih =>
    intro flat t ht
    obtain ⟨t', hload, hloaded⟩ := t.load_eq load
    have hmatrices : t.decoded.matrices = s.decoded.matrices.view flat := congrArg Prod.fst ht
    have hvertex : t.decoded.vertex = s.decoded.vertex := congrArg Prod.snd ht
    have ht' : t'.decoded.loaded = (s.decoded.matrices.view
        (load.apply s.decoded.vertex.arrays flat), s.decoded.vertex) := by
      rw [hloaded, Load.apply, hvertex, hmatrices]
      cases load.burst s.decoded.vertex.arrays with
      | none => exact ht
      | some burst => exact congrArg (·, s.decoded.vertex) (copyXfData_view _ _ _ _)
    obtain ⟨s', hrun, hleft⟩ := ih (load.apply s.decoded.vertex.arrays flat) t' ht'
    refine ⟨s', ?_, hleft⟩
    rw [GXRegisterState.loadAll, List.foldlM_cons, hload]
    exact hrun

end Gx
