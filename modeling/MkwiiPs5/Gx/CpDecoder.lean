import MkwiiPs5.Gx.BpSeparate

/-!
# CP registers

`handle_cp`: vertex descriptors, vertex formats, matrix indices and array strides.
-/

namespace Gx

open Overlay (write write_write write_comm write_singleton)
open RegisterFile

/-- `normal_frac_bits`. -/
def normalFracBits (type : ℕ) : ℕ :=
  if type = GX_U8 then 7
  else if type = GX_S8 then 6
  else if type = GX_U16 then 15
  else if type = GX_S16 then 14
  else 0

/-- Descriptors of VCD low (0x50), from the matrix indices to the second colour. -/
def vcdLow (value : ℕ) : List ℕ :=
  (List.range 9).map (bpGet value 1) ++
    [bpGet value 2 9, bpGet value 2 11, bpGet value 2 13, bpGet value 2 15]

/-- Descriptors of VCD high (0x60), the texture coordinates. -/
def vcdHigh (value : ℕ) : List ℕ := (List.range 8).map fun i => bpGet value 2 (2 * i)

def vtxAttrFmt (value shift : ℕ) : VtxAttrFmt :=
  ⟨bpGet value 1 shift, bpGet value 3 (shift + 1), bpGet value 5 (shift + 4)⟩

/-- VAT A (0x70-0x77): position, normal, colours and the first texture coordinate. -/
def vatA (value : ℕ) (attrs : ℕ → VtxAttrFmt) : ℕ → VtxAttrFmt :=
  let nrm : VtxAttrFmt :=
    { cnt := if bpGet value 1 31 ≠ 0 then GX_NRM_NBT3
        else if bpGet value 1 9 ≠ 0 then GX_NRM_NBT else GX_NRM_XYZ
      type := bpGet value 3 10
      frac := normalFracBits (bpGet value 3 10) }
  write attrs GX_VA_POS [vtxAttrFmt value 0, nrm, ⟨bpGet value 1 13, bpGet value 3 14, 0⟩,
    ⟨bpGet value 1 17, bpGet value 3 18, 0⟩, vtxAttrFmt value 21]

/-- VAT B (0x80-0x87): texture coordinates 1 to 3, and 4 but for its fraction. -/
def vatB (value : ℕ) (attrs : ℕ → VtxAttrFmt) : ℕ → VtxAttrFmt :=
  write attrs (GX_VA_TEX0 + 1) [vtxAttrFmt value 0, vtxAttrFmt value 9, vtxAttrFmt value 18,
    { attrs (GX_VA_TEX0 + 4) with cnt := bpGet value 1 27, type := bpGet value 3 28 }]

/-- VAT C (0x90-0x97): the fraction of texture coordinate 4, and 5 to 7. -/
def vatC (value : ℕ) (attrs : ℕ → VtxAttrFmt) : ℕ → VtxAttrFmt :=
  write attrs (GX_VA_TEX0 + 4) [{ attrs (GX_VA_TEX0 + 4) with frac := bpGet value 5 0 },
    vtxAttrFmt value 5, vtxAttrFmt value 14, vtxAttrFmt value 23]

def cpVat (r value : ℕ) (attrs : ℕ → VtxAttrFmt) : ℕ → VtxAttrFmt :=
  if r ≤ 0x77 then vatA value attrs
  else if r ≤ 0x87 then vatB value attrs
  else vatC value attrs

def IsVat (r : ℕ) : Prop := 0x70 ≤ r ∧ r ≤ 0x77 ∨ 0x80 ≤ r ∧ r ≤ 0x87 ∨ 0x90 ≤ r ∧ r ≤ 0x97

instance : DecidablePred IsVat := fun _ => inferInstanceAs (Decidable (_ ∨ _ ∨ _))

def cpVtxDesc (r value : ℕ) (desc : ℕ → ℕ) : ℕ → ℕ :=
  if r = 0x50 ∨ r = 0x60 then
    write desc (if r = 0x50 then GX_VA_PNMTXIDX else GX_VA_TEX0)
      (if r = 0x50 then vcdLow value else vcdHigh value)
  else desc

def cpVtxFmts (r value : ℕ) (fmts : ℕ → ℕ → VtxAttrFmt) : ℕ → ℕ → VtxAttrFmt :=
  if IsVat r then write fmts (r % 0x10) [cpVat r value (fmts (r % 0x10))] else fmts

/-- Array strides (0xB0-0xBF). -/
def cpStride (r value : ℕ) (arrays : ℕ → AttrArray) : ℕ → AttrArray :=
  if 0xB0 ≤ r ∧ r ≤ 0xBF then
    let attrIdx := r - 0xB0 + GX_VA_POS
    if attrIdx < MaxVtxAttr then
      write arrays attrIdx [{ arrays attrIdx with stride := .ofNat value }]
    else arrays
  else arrays

def VertexState.cp (r value : ℕ) (v : VertexState) : VertexState where
  vtxDesc := cpVtxDesc r value v.vtxDesc
  sourceVtxDesc := cpVtxDesc r value v.sourceVtxDesc
  vtxFmts := cpVtxFmts r value v.vtxFmts
  arrays := cpStride r value v.arrays

/-- Four matrix indices of six bits. -/
def texMtxIndices (value shift : ℕ) : List ℕ :=
  (List.range 4).map fun i => bpGet value 6 (shift + i * 6)

/-- Matrix index A and B (0x30, 0x40). -/
def MatrixIndices.cp (r value : ℕ) (m : MatrixIndices) : MatrixIndices :=
  if r = 0x30 then ⟨bpGet value 6 0 / 3, write m.tcgMtx 0 (texMtxIndices value 6)⟩
  else if r = 0x40 then { m with tcgMtx := write m.tcgMtx 4 (texMtxIndices value 0) }
  else m

/-- The switch of `handle_cp`. -/
def decodeCp (r value : ℕ) (d : Decoded) : Decoded :=
  { d with
    vertex := d.vertex.cp r value
    matrixIndices := d.matrixIndices.cp r value }

/-- `cacheable_cp_register`. -/
def cacheableCpRegister (addr : ℕ) : Bool :=
  addr == 0x30 || addr == 0x40 || addr == 0x50 || addr == 0x60 || (0x70 ≤ addr && addr ≤ 0x97)

/-- `cp_register_write_unchanged`, when it stores the value. -/
def GXRegisterState.storeCpReg (addr value : ℕ) (s : GXRegisterState) : GXRegisterState :=
  if cacheableCpRegister addr then
    { s with
      cpRegisterCacheValid := Function.update s.cpRegisterCacheValid addr true
      cpRegisterCache := Function.update s.cpRegisterCache addr value }
  else s

theorem GXRegisterState.storeCpReg_eq (addr value : ℕ) (s : GXRegisterState) : ∃ valid cache,
    s.storeCpReg addr value =
      { s with cpRegisterCacheValid := valid, cpRegisterCache := cache } := by
  rw [storeCpReg]
  split <;> exact ⟨_, _, rfl⟩

def GXRegisterState.cpUnchanged (addr value : ℕ) (s : GXRegisterState) : Bool :=
  cacheableCpRegister addr && s.cpRegisterCacheValid addr && s.cpRegisterCache addr == value

/-- What `handle_cp` does with a register whose value is new. -/
def GXRegisterState.writeCp (addr value : ℕ) (s : GXRegisterState) : GXRegisterState :=
  let s := s.storeCpReg addr value
  let s := { s with decoded := decodeCp addr value s.decoded }
  if addr = 0x30 then s.invalidateXfReg 0x18
  else if addr = 0x40 then s.invalidateXfReg 0x19
  else s

@[simp]
theorem GXRegisterState.writeCp_decoded (addr value : ℕ) (s : GXRegisterState) :
    (s.writeCp addr value).decoded = decodeCp addr value s.decoded := by
  obtain ⟨valid, cache, h⟩ := s.storeCpReg_eq addr value
  rw [writeCp, h]
  split_ifs <;> rfl

@[simp]
theorem GXRegisterState.writeCp_bpRegCache (addr value : ℕ) (s : GXRegisterState) :
    (s.writeCp addr value).bpRegCache = s.bpRegCache := by
  obtain ⟨valid, cache, h⟩ := s.storeCpReg_eq addr value
  rw [writeCp, h]
  split_ifs <;> rfl

/-- `handle_cp`. Without `skip` the register is decoded although its value is unchanged. -/
def handleCp (skip : Bool) (addr value : ℕ) (s : GXRegisterState) : GXRegisterState :=
  if skip && s.cpUnchanged addr value then s else s.writeCp addr value

/-! ### CP registers are separate -/

theorem cpVtxDesc_separate (r : ℕ) : Separate (fun _ => cpVtxDesc) r := by
  show Separate (fun _ => block (fun r => r = 0x50 ∨ r = 0x60)
    (fun r => if r = 0x50 then GX_VA_PNMTXIDX else GX_VA_TEX0)
    fun r value => if r = 0x50 then vcdLow value else vcdHigh value) r
  apply Separate.block fun r => if r = 0x50 then 13 else 8
  · rintro r w (rfl | rfl) <;> rfl
  · rintro r r' (rfl | rfl) (rfl | rfl) hne <;> first | exact absurd rfl hne | decide

theorem cpVat_again (r value : ℕ) (attrs : ℕ → VtxAttrFmt) :
    cpVat r value (cpVat r value attrs) = cpVat r value attrs := by
  simp only [cpVat]
  split_ifs
  · exact write_write rfl
  · exact write_write rfl
  · exact write_write rfl

/-- The vertex formats hold positions to texture coordinates. -/
theorem cpVat_outside {i : ℕ} (h : ¬ (9 ≤ i ∧ i < 21)) (r value : ℕ) (attrs : ℕ → VtxAttrFmt) :
    cpVat r value attrs i = attrs i := by
  simp only [cpVat, vatA, vatB, vatC, GX_VA_POS, GX_VA_TEX0]
  split_ifs <;> apply Overlay.write_of_not_mem <;> simp only [List.length_cons, List.length_nil] <;>
    omega

/-- The three registers of one format have fields of their own. -/
theorem cpVat_comm {r r' : ℕ} (hr : IsVat r) (hr' : IsVat r') (hne : r ≠ r')
    (hidx : r % 0x10 = r' % 0x10) (v v' : ℕ) (attrs : ℕ → VtxAttrFmt) :
    cpVat r v (cpVat r' v' attrs) = cpVat r' v' (cpVat r v attrs) := by
  rw [IsVat] at hr hr'
  funext i
  by_cases hi : 9 ≤ i ∧ i < 21
  · obtain ⟨hlo, hhi⟩ := hi
    simp only [cpVat]
    split_ifs
    all_goals first | omega | (interval_cases i <;> rfl)
  · simp only [cpVat_outside hi]

theorem cpVtxFmts_separate (r : ℕ) : Separate (fun _ => cpVtxFmts) r := by
  apply Separate.of_update (P := fun r _ => IsVat r) (g := cpVat)
  · intro r w fmts
    simp only [cpVtxFmts, write_singleton]
    rfl
  · exact fun r w attrs _ => cpVat_again r w attrs
  · exact fun r r' w w' attrs hne hr hr' hidx => cpVat_comm hr hr' hne hidx w w' attrs

theorem cpStride_separate (r : ℕ) : Separate (fun _ => cpStride) r := by
  apply Separate.of_update (P := fun r _ => 0xB0 ≤ r ∧ r ≤ 0xBF)
    (g := fun _ value array => { array with stride := .ofNat value })
  · intro r w arrays
    simp only [cpStride, write_singleton]
    split_ifs with hr hidx
    · rfl
    · rw [GX_VA_POS, MaxVtxAttr] at hidx
      omega
    · rfl
  · exact fun _ _ _ _ => rfl
  · omega

theorem VertexState.cp_separate (r : ℕ) : Separate (fun _ => VertexState.cp) r := by
  apply ((cpVtxDesc_separate r).prod <| (cpVtxDesc_separate r).prod <|
    (cpVtxFmts_separate r).prod <| cpStride_separate r).of_injective
      fun v => (v.vtxDesc, v.sourceVtxDesc, v.vtxFmts, v.arrays)
  · rintro ⟨⟩ ⟨⟩ h
    cases h
    rfl
  · exact fun _ _ _ _ => rfl

theorem decodeCp_mtxIdx (value : ℕ) (d : Decoded) :
    decodeCp 0x30 value d = { d with matrixIndices := d.matrixIndices.cp 0x30 value } ∧
      decodeCp 0x40 value d = { d with matrixIndices := d.matrixIndices.cp 0x40 value } :=
  ⟨rfl, rfl⟩

/-- Other registers than the matrix indices change the vertex state only. -/
theorem decodeCp_eq_self {r : ℕ} (h30 : r ≠ 0x30) (h40 : r ≠ 0x40) {w : ℕ} {d : Decoded}
    (h : d.vertex.cp r w = d.vertex) : decodeCp r w d = d := by
  have hmtx : d.matrixIndices.cp r w = d.matrixIndices := by
    rw [MatrixIndices.cp, if_neg h30, if_neg h40]
  simp only [decodeCp, hmtx, h]

theorem holds_decodeCp_iff {r : ℕ} (h30 : r ≠ 0x30) (h40 : r ≠ 0x40) {words : ℕ → ℕ}
    {d : Decoded} : Holds (fun _ => decodeCp) words r d ↔
      Holds (fun _ => VertexState.cp) words r d.vertex :=
  Holds.iff_part Decoded.vertex rfl (decodeCp_eq_self h30 h40)

/-- Every CP register but the matrix indices is separate. -/
theorem decodeCp_separate {r : ℕ} (h30 : r ≠ 0x30) (h40 : r ≠ 0x40) :
    Separate (fun _ => decodeCp) r :=
  (VertexState.cp_separate r).of_part Decoded.vertex (fun _ _ _ _ => rfl)
    fun _ _ _ => decodeCp_eq_self h30 h40

end Gx
