import MkwiiPs5.Gx.Dispatch

/-!
# Writes of registers stay in their arrays

An array is a function on all indices, so that a write outside of it would show. None of the decoders
makes one.
-/

namespace Gx

open Overlay (beyond beyondRows beyondRows_write beyond_update beyond_write write)

/-! ### What is outside -/

def CopyFilter.beyond (f : CopyFilter) := (Overlay.beyond 24 f.samplePattern, Overlay.beyond 7 f.vFilter)

def IndStages.beyond (s : IndStages) :=
  (Overlay.beyond MaxIndStages s.scale, Overlay.beyond MaxIndStages s.texMapId,
    Overlay.beyond MaxIndStages s.texCoordId)

def TevStages.beyond (t : TevStages) :=
  (Overlay.beyond MaxTevStages t.color, Overlay.beyond MaxTevStages t.alpha,
    Overlay.beyond MaxTevStages t.indirect, Overlay.beyond MaxTevStages t.order,
    Overlay.beyond MaxTevStages t.kSel, Overlay.beyond MaxTevSwap t.swapRedGreen,
    Overlay.beyond MaxTevSwap t.swapBlueAlpha)

def TexCoordScales.beyond (t : TexCoordScales) :=
  (Overlay.beyond MaxTexCoord t.s, Overlay.beyond MaxTexCoord t.t)

def TevColors.beyond (c : TevColors) :=
  (beyondRows MaxTevRegs 4 c.colorRegs, beyondRows MaxKColors 4 c.kcolors)

def VertexState.beyond (v : VertexState) :=
  (Overlay.beyond MaxVtxAttr v.vtxDesc, Overlay.beyond MaxVtxAttr v.sourceVtxDesc,
    beyondRows MaxVtxFmt MaxVtxAttr v.vtxFmts, Overlay.beyond MaxVtxAttr v.arrays)

def MatrixIndices.beyond (m : MatrixIndices) := Overlay.beyond MaxTexCoord m.tcgMtx

def TexCoordGens.beyond (t : TexCoordGens) :=
  (Overlay.beyond MaxTexCoord t.gen, Overlay.beyond MaxTexCoord t.post)

def ColorChannels.beyond (c : ColorChannels) :=
  (Overlay.beyond MaxColorChannels c.config, Overlay.beyond MaxColorChannels c.matColor,
    Overlay.beyond MaxColorChannels c.ambColor, Overlay.beyond MaxColorChannels c.lightMask)

def Transform.beyond (t : Transform) := (Overlay.beyond 6 t.xfViewport, Overlay.beyond 6 t.xfProjection)

def Light.beyond (l : Light) :=
  (Overlay.beyond 3 l.pos, Overlay.beyond 3 l.dir, Overlay.beyond 3 l.cosAtt,
    Overlay.beyond 3 l.distAtt)

def MatrixMemory.beyond (m : MatrixMemory) :=
  (beyondRows MaxPnMtx 12 m.pos, beyondRows MaxPnMtx 12 m.nrm, beyondRows MaxTexMtx 12 m.texMtxs,
    beyondRows MaxPTTexMtx 12 m.ptTexMtxs, Overlay.beyond MaxLights m.lights,
    fun i => (m.lights i).beyond)

def Decoded.beyond (d : Decoded) :=
  (d.copyFilter.beyond, Overlay.beyond MaxIndTexMtxs d.indTexMtxs,
    (fun i => Overlay.beyond 3 (d.indTexMtxs i).mtx), d.indStages.beyond, d.tevStages.beyond,
    d.transform.beyond, d.texCoordScales.beyond, Overlay.beyond 4 d.boundingBox,
    Overlay.beyond MaxTluts d.loadedTluts, Overlay.beyond MaxTextures d.loadedTextures,
    d.tevColors.beyond, Overlay.beyond 6 d.fogRange, d.vertex.beyond, d.matrixIndices.beyond,
    d.texCoordGens.beyond, d.colorChannels.beyond, d.matrices.beyond)

def GXRegisterState.beyond (s : GXRegisterState) :=
  (s.decoded.beyond, Overlay.beyond 0x100 s.bpRegCache, Overlay.beyond 0x60 s.xfRegCache,
    Overlay.beyond 0x60 s.xfRegCacheValid, Overlay.beyond 0x100 s.cpRegisterCache,
    Overlay.beyond 0x100 s.cpRegisterCacheValid)

/-! ### BP registers -/

theorem CopyFilter.bp_beyond (r value : ℕ) (f : CopyFilter) : (f.bp r value).beyond = f.beyond := by
  rw [bp]
  split_ifs
  · rw [refreshCopyFilterFlags, beyond]
    dsimp only
    rw [beyond_write (by simp; omega)]
    rfl
  · rw [refreshCopyFilterFlags, beyond]
    dsimp only
    rw [beyond_write (by simp)]
    rfl
  · rw [refreshCopyFilterFlags, beyond]
    dsimp only
    rw [beyond_write (by simp)]
    rfl
  · rfl

theorem bpIndTexMtxs_beyond (r value : ℕ) (mtxs : ℕ → IndTexMtxInfo) :
    Overlay.beyond MaxIndTexMtxs (bpIndTexMtxs r value mtxs) = Overlay.beyond MaxIndTexMtxs mtxs ∧
      (fun i => Overlay.beyond 3 (bpIndTexMtxs r value mtxs i).mtx) =
        fun i => Overlay.beyond 3 (mtxs i).mtx := by
  rw [bpIndTexMtxs]
  split_ifs with hr
  · refine ⟨beyond_write (by simp [MaxIndTexMtxs]; omega), funext fun i => ?_⟩
    rw [Overlay.write_singleton]
    rcases eq_or_ne i ((r - 0x06) / 3) with rfl | hne
    · rw [Function.update_self]
      exact beyond_write (by simp; omega)
    · rw [Function.update_of_ne hne]
  · exact ⟨rfl, rfl⟩

theorem IndStages.bp_beyond (r value : ℕ) (s : IndStages) : (s.bp r value).beyond = s.beyond := by
  rw [bp]
  split_ifs
  · rw [beyond, beyond_write (by simp [MaxIndStages])]
    rfl
  · rw [beyond, beyond_write (by simp [MaxIndStages])]
    rfl
  · rw [beyond, beyond_write (by simp), beyond_write (by simp)]
    rfl
  · rfl

theorem beyond_writeStages {α : Type*} (a : ℕ → α) (stage : ℕ) (data : List α) :
    Overlay.beyond MaxTevStages (writeStages a stage data) = Overlay.beyond MaxTevStages a := by
  rw [writeStages]
  rcases Nat.lt_or_ge stage MaxTevStages with hlt | hge
  · refine beyond_write ?_
    rw [List.length_take]
    omega
  · rw [Nat.sub_eq_zero_of_le hge, List.take_zero, Overlay.write_nil]

theorem TevStages.bp_beyond (r value : ℕ) (t : TevStages) : (t.bp r value).beyond = t.beyond := by
  have hswap : ∀ half (a : ℕ → ℕ × ℕ),
      Overlay.beyond MaxTevSwap (bpTevSwap half r value a) = Overlay.beyond MaxTevSwap a := by
    intro half a
    rw [bpTevSwap]
    split_ifs
    · exact beyond_write (by simp [MaxTevSwap]; omega)
    · rfl
  rw [bp, beyond, beyond, hswap, hswap, bpTevColor, bpTevAlpha, bpTevIndirect, bpTevOrder, bpTevKSel]
  split_ifs <;> simp only [beyond_writeStages]

theorem TexCoordScales.bp_beyond (r value : ℕ) (t : TexCoordScales) :
    (t.bp r value).beyond = t.beyond := by
  rw [bp, beyond, beyond, bpTexCoordScaleS, bpTexCoordScaleT]
  split_ifs
  · omega
  · rw [beyond_write (by simp [MaxTexCoord]; omega)]
  · rw [beyond_write (by simp [MaxTexCoord]; omega)]
  · rfl

theorem beyond_writeHalf (isRA : Bool) (low high : Float32) (color : ℕ → Float32) :
    Overlay.beyond 4 (writeHalf isRA low high color) = Overlay.beyond 4 color := by
  rw [writeHalf]
  split_ifs
  · rw [beyond_write (by simp), beyond_write (by simp)]
  · rw [beyond_write (by simp), beyond_write (by simp)]

theorem TevColors.bp_beyond (r value : ℕ) (c : TevColors) : (c.bp r value).beyond = c.beyond := by
  have hcolors : beyondRows MaxTevRegs 4 (bpColorRegs r value c.colorRegs) =
      beyondRows MaxTevRegs 4 c.colorRegs := by
    rw [bpColorRegs]
    split_ifs
    · exact beyondRows_write (by rw [MaxTevRegs]; omega) (beyond_writeHalf _ _ _ _)
    · rfl
  have hkonst : beyondRows MaxKColors 4 (bpKColors r value c.kcolors) =
      beyondRows MaxKColors 4 c.kcolors := by
    rw [bpKColors]
    split_ifs
    · exact beyondRows_write (by rw [MaxKColors]; omega) (beyond_writeHalf _ _ _ _)
    · rfl
  rw [bp, beyond, hcolors, hkonst]
  rfl

theorem bpBoundingBox_beyond (r value : ℕ) (box : ℕ → ℕ) :
    Overlay.beyond 4 (bpBoundingBox r value box) = Overlay.beyond 4 box := by
  rw [bpBoundingBox]
  split_ifs with hr
  · refine beyond_write ?_
    rcases hr with rfl | rfl <;> simp
  · rfl

theorem bpTluts_beyond (cache : ℕ → ℕ) (r value : ℕ) (tluts : ℕ → TlutObj) :
    Overlay.beyond MaxTluts (bpTluts cache r value tluts) = Overlay.beyond MaxTluts tluts := by
  rw [bpTluts]
  split
  · dsimp only
    split
    · next hidx => exact beyond_write hidx
    · rfl
  · rfl

theorem bpTextures_beyond (r value : ℕ) (textures : ℕ → TexObj) :
    Overlay.beyond MaxTextures (bpTextures r value textures) = Overlay.beyond MaxTextures textures := by
  have hmap : ∀ map kind, decodeTexBpReg r = some (map, kind) → map < MaxTextures := by
    intro map kind h
    rw [decodeTexBpReg] at h
    split_ifs at h with hr
    have hbound : (r - 0x80) / 0x20 * 4 + r % 4 < MaxTextures := by
      rw [MaxTextures]
      omega
    dsimp only at h
    split at h <;> cases h <;> exact hbound
  rw [bpTextures]
  cases h : decodeTexBpReg r with
  | none => rfl
  | some slot => exact beyond_write (hmap slot.1 slot.2 h)

theorem bpFogRange_beyond (r value : ℕ) (range : ℕ → ℕ) :
    Overlay.beyond 6 (bpFogRange r value range) = Overlay.beyond 6 range := by
  rw [bpFogRange]
  split_ifs
  · exact beyond_write (by simp; omega)
  · rfl

theorem decodeBp_beyond (cache : ℕ → ℕ) (r value : ℕ) (d : Decoded) :
    (decodeBp cache r value d).beyond = d.beyond := by
  rw [decodeBp, Decoded.beyond, CopyFilter.bp_beyond, (bpIndTexMtxs_beyond r value _).1,
    (bpIndTexMtxs_beyond r value _).2, IndStages.bp_beyond, TevStages.bp_beyond,
    TexCoordScales.bp_beyond, bpBoundingBox_beyond, bpTluts_beyond, bpTextures_beyond,
    TevColors.bp_beyond, bpFogRange_beyond]
  rfl

theorem GXRegisterState.invalidateXfReg_beyond {reg : ℕ} (h : reg < 0x60) (s : GXRegisterState) :
    (s.invalidateXfReg reg).beyond = s.beyond := by
  rw [invalidateXfReg, beyond]
  dsimp only
  rw [beyond_update h]
  rfl

theorem GXRegisterState.storeBp_beyond {r : ℕ} (hr : r < 0x100) (value : ℕ) (s : GXRegisterState) :
    (s.storeBp r value).beyond = s.beyond := by
  have hstore : ∀ d : Decoded, d.beyond = s.decoded.beyond →
      GXRegisterState.beyond { s with
        bpRegCache := Function.update s.bpRegCache r value
        decoded := d } = s.beyond := by
    intro d hd
    rw [beyond]
    dsimp only
    rw [hd, beyond_update hr]
    rfl
  rw [storeBp]
  split_ifs
  · rw [invalidateXfReg_beyond (by decide), invalidateXfReg_beyond (by decide)]
    exact hstore _ (decodeBp_beyond _ _ _ _)
  · exact hstore _ (decodeBp_beyond _ _ _ _)

theorem handleBp_beyond (skip : Bool) (word : ℕ) (s : GXRegisterState) :
    (handleBp skip word s).beyond = s.beyond := by
  have hmask : ∀ value, GXRegisterState.beyond
      { s with bpRegCache := Function.update s.bpRegCache 0xFE value } = s.beyond := by
    intro value
    rw [GXRegisterState.beyond]
    dsimp only
    rw [beyond_update (by decide)]
    rfl
  have hregister : (mergeBp s.bpRegCache word).1 < 0x100 := by
    rw [mergeBp]
    exact Nat.lt_of_le_of_lt Nat.and_le_right (by decide)
  rw [handleBp]
  split_ifs
  · exact hmask _
  · dsimp only
    split_ifs
    · exact hmask _
    · rw [GXRegisterState.storeBp_beyond hregister]
      exact hmask _

/-! ### CP registers -/

theorem cpVtxDesc_beyond (r value : ℕ) (desc : ℕ → ℕ) :
    Overlay.beyond MaxVtxAttr (cpVtxDesc r value desc) = Overlay.beyond MaxVtxAttr desc := by
  rw [cpVtxDesc]
  split_ifs
  · exact beyond_write (by simp [vcdLow, GX_VA_PNMTXIDX, MaxVtxAttr])
  · exact beyond_write (by simp [vcdHigh, GX_VA_TEX0, MaxVtxAttr])
  · rfl

theorem cpVat_beyond (r value : ℕ) (attrs : ℕ → VtxAttrFmt) :
    Overlay.beyond MaxVtxAttr (cpVat r value attrs) = Overlay.beyond MaxVtxAttr attrs := by
  rw [cpVat]
  split_ifs
  · exact beyond_write (by simp [GX_VA_POS, MaxVtxAttr])
  · exact beyond_write (by simp [GX_VA_TEX0, MaxVtxAttr])
  · exact beyond_write (by simp [GX_VA_TEX0, MaxVtxAttr])

theorem VertexState.cp_beyond (r value : ℕ) (v : VertexState) : (v.cp r value).beyond = v.beyond := by
  have hformats : beyondRows MaxVtxFmt MaxVtxAttr (cpVtxFmts r value v.vtxFmts) =
      beyondRows MaxVtxFmt MaxVtxAttr v.vtxFmts := by
    rw [cpVtxFmts]
    split_ifs with hr
    · refine beyondRows_write ?_ (cpVat_beyond _ _ _)
      rw [MaxVtxFmt]
      rcases hr with hr | hr | hr <;> omega
    · rfl
  have harrays : Overlay.beyond MaxVtxAttr (cpStride r value v.arrays) =
      Overlay.beyond MaxVtxAttr v.arrays := by
    rw [cpStride]
    split
    · dsimp only
      split
      · next hattr => exact beyond_write hattr
      · rfl
    · rfl
  rw [cp, beyond, cpVtxDesc_beyond, cpVtxDesc_beyond, hformats, harrays]
  rfl

theorem beyond_texMtxIndices {a : ℕ → ℕ} {start : ℕ} (h : start ≤ 4) (value shift : ℕ) :
    Overlay.beyond MaxTexCoord (write a start (texMtxIndices value shift)) =
      Overlay.beyond MaxTexCoord a := by
  refine beyond_write ?_
  rw [texMtxIndices, List.length_map, List.length_range, MaxTexCoord]
  omega

theorem MatrixIndices.cp_beyond (r value : ℕ) (m : MatrixIndices) :
    (m.cp r value).beyond = m.beyond := by
  rw [cp]
  split_ifs
  · exact beyond_texMtxIndices (Nat.zero_le 4) _ _
  · exact beyond_texMtxIndices (Nat.le_refl 4) _ _
  · rfl

theorem handleCp_beyond (skip : Bool) (addr value : ℕ) (s : GXRegisterState) :
    (handleCp skip addr value s).beyond = s.beyond := by
  have hdecoded : (decodeCp addr value s.decoded).beyond = s.decoded.beyond := by
    rw [decodeCp, Decoded.beyond, VertexState.cp_beyond, MatrixIndices.cp_beyond]
    rfl
  have hstore : (s.storeCpReg addr value).beyond = s.beyond := by
    rw [GXRegisterState.storeCpReg]
    split_ifs with hcacheable
    · have haddr : addr < 0x100 := by
        simp only [cacheableCpRegister, Bool.or_eq_true, Bool.and_eq_true, beq_iff_eq,
          decide_eq_true_eq] at hcacheable
        omega
      rw [GXRegisterState.beyond]
      dsimp only
      rw [beyond_update haddr, beyond_update haddr]
      rfl
    · rfl
  have hwritten : GXRegisterState.beyond { s.storeCpReg addr value with
      decoded := decodeCp addr value (s.storeCpReg addr value).decoded } = s.beyond := by
    obtain ⟨valid, cache, hsame⟩ := s.storeCpReg_eq addr value
    have hcached := hstore
    rw [hsame] at hcached ⊢
    rw [GXRegisterState.beyond] at hcached ⊢
    dsimp only at hcached ⊢
    rw [hdecoded]
    exact hcached
  rw [handleCp]
  split_ifs
  · rfl
  · rw [GXRegisterState.writeCp]
    split_ifs
    · rw [GXRegisterState.invalidateXfReg_beyond (by decide)]
      exact hwritten
    · rw [GXRegisterState.invalidateXfReg_beyond (by decide)]
      exact hwritten
    · exact hwritten

/-! ### XF memory and registers -/

theorem Light.setField_beyond (field word : ℕ) (light : Light) :
    (light.setField field word).beyond = light.beyond := by
  have hvalue : ∀ {a : ℕ → Float32} {start : ℕ} (value : Float32), start ≤ 2 →
      Overlay.beyond 3 (write a start [value]) = Overlay.beyond 3 a := fun value h =>
    beyond_write (by rw [List.length_singleton]; omega)
  rw [setField]
  split_ifs
  · rfl
  · simp only [beyond, hvalue _ (by omega : field - 4 ≤ 2)]
  · simp only [beyond, hvalue _ (by omega : field - 7 ≤ 2)]
  · simp only [beyond, hvalue _ (by omega : field - 10 ≤ 2)]
  · simp only [beyond, hvalue _ (by omega : field - 13 ≤ 2)]
  · rfl

theorem Light.foldl_setField_beyond (words : List (ℕ × ℕ)) (light : Light) :
    (words.foldl (fun light w => light.setField w.2 w.1) light).beyond = light.beyond := by
  induction words generalizing light with
  | nil => rfl
  | cons w words ih => rw [List.foldl_cons, ih, setField_beyond]

theorem copyXfData_beyond {addr : ℕ} {words : List ℕ} {m m' : MatrixMemory}
    (h : copyXfData addr words m = some m') : m'.beyond = m.beyond := by
  -- a load was checked to end inside its row, so that nothing is written beyond it
  have hmatrix : ∀ {table : ℕ → ℕ → Float32} {i n : ℕ}, i < n → words.length ≤ 12 →
      beyondRows n 12 (write table i [write (table i) 0 (words.map floatOfBits)]) =
        beyondRows n 12 table := by
    intro table i n hi hlength
    exact beyondRows_write hi (beyond_write (by rw [List.length_map]; omega))
  rw [copyXfData] at h
  dsimp only at h
  split at h
  · split at h
    · next hin =>
      obtain rfl := Option.some.inj h
      simp only [MatrixMemory.beyond, hmatrix hin.1 (by omega)]
    · exact Option.some.inj h ▸ rfl
  split at h
  · split at h
    · next hin =>
      obtain rfl := Option.some.inj h
      simp only [MatrixMemory.beyond, hmatrix hin.1 (by omega)]
    · exact Option.some.inj h ▸ rfl
  split at h
  · split at h
    · next hin =>
      obtain rfl := Option.some.inj h
      have hrow : Overlay.beyond 12 (write (write (write (m.nrm ((addr - 0x400) / 9)) 0
          ((words.map floatOfBits).take 3)) 4 (((words.map floatOfBits).drop 3).take 3)) 8
          ((words.map floatOfBits).drop 6)) = Overlay.beyond 12 (m.nrm ((addr - 0x400) / 9)) := by
        have hlength : (words.map floatOfBits).length ≤ 9 := by rw [List.length_map]; omega
        rw [beyond_write (by rw [List.length_drop]; omega),
          beyond_write (by rw [List.length_take, List.length_drop]; omega),
          beyond_write (by rw [List.length_take]; omega)]
      simp only [MatrixMemory.beyond, beyondRows_write hin.1 hrow]
    · exact Option.some.inj h ▸ rfl
  split at h
  · split at h
    · next hin =>
      obtain rfl := Option.some.inj h
      simp only [MatrixMemory.beyond, hmatrix hin.1 (by omega)]
    · exact Option.some.inj h ▸ rfl
  split at h
  · split at h
    · next hin =>
      obtain rfl := Option.some.inj h
      have hlights : ∀ {light : Light}, light.beyond = (m.lights ((addr - 0x600) / 0x10)).beyond →
          (fun i => (write m.lights ((addr - 0x600) / 0x10) [light] i).beyond) =
            fun i => (m.lights i).beyond := by
        intro light hlight
        funext i
        rw [Overlay.write_singleton]
        rcases eq_or_ne i ((addr - 0x600) / 0x10) with rfl | hne
        · rw [Function.update_self, hlight]
        · rw [Function.update_of_ne hne]
      simp only [MatrixMemory.beyond, hlights (Light.foldl_setField_beyond _ _)]
      rw [beyond_write (by rw [List.length_singleton]; exact hin.1)]
    · exact Option.some.inj h ▸ rfl
  cases h

theorem ColorChannels.xf_beyond (reg val : ℕ) (c : ColorChannels) :
    (c.xf reg val).beyond = c.beyond := by
  have hcolor : ∀ {base : ℕ} (a : ℕ → List Float32),
      Overlay.beyond MaxColorChannels (xfColor base reg val a) =
        Overlay.beyond MaxColorChannels a := by
    intro base a
    rw [xfColor]
    split_ifs
    · rw [beyond_write (by simp [MaxColorChannels]; omega),
        beyond_write (by simp [MaxColorChannels]; omega)]
    · rfl
  have hconfig : Overlay.beyond MaxColorChannels (xfChannel reg val c.config) =
      Overlay.beyond MaxColorChannels c.config := by
    rw [xfChannel]
    split_ifs
    · exact beyond_write (by simp [MaxColorChannels]; omega)
    · rfl
  have hmask : Overlay.beyond MaxColorChannels (xfLightMask reg val c.lightMask) =
      Overlay.beyond MaxColorChannels c.lightMask := by
    rw [xfLightMask]
    split_ifs
    · exact beyond_write (by simp [MaxColorChannels]; omega)
    · rfl
  rw [xf, beyond, hcolor, hcolor, hconfig, hmask]
  rfl

theorem MatrixIndices.xf_beyond (reg val : ℕ) (m : MatrixIndices) :
    (m.xf reg val).beyond = m.beyond := by
  rw [xf]
  split_ifs
  · exact beyond_texMtxIndices (Nat.zero_le 4) _ _
  · exact beyond_texMtxIndices (Nat.le_refl 4) _ _
  · rfl

theorem Transform.xf_beyond (reg val : ℕ) (t : Transform) : (t.xf reg val).beyond = t.beyond := by
  have hviewport : Overlay.beyond 6 (xfViewportReg reg val t.xfViewport) =
      Overlay.beyond 6 t.xfViewport := by
    rw [xfViewportReg]
    split_ifs
    · exact beyond_write (by simp; omega)
    · rfl
  have hprojection : Overlay.beyond 6 (xfProjectionReg reg val t.xfProjection) =
      Overlay.beyond 6 t.xfProjection := by
    rw [xfProjectionReg]
    split_ifs
    · exact beyond_write (by simp; omega)
    · rfl
  rw [xf, beyond, hviewport, hprojection]
  rfl

theorem TexCoordGens.xf_beyond (reg val : ℕ) (t : TexCoordGens) :
    (t.xf reg val).beyond = t.beyond := by
  have hgen : Overlay.beyond MaxTexCoord (xfTexGen reg val t.gen) =
      Overlay.beyond MaxTexCoord t.gen := by
    rw [xfTexGen]
    split_ifs with hreg
    · exact beyond_write hreg.2.2
    · rfl
  have hpost : Overlay.beyond MaxTexCoord (xfPostTransform reg val t.post) =
      Overlay.beyond MaxTexCoord t.post := by
    rw [xfPostTransform]
    split_ifs with hreg
    · exact beyond_write hreg.2.2
    · rfl
  rw [xf, beyond, hgen, hpost]
  rfl

theorem decodeXf_beyond (reg val : ℕ) (d : Decoded) : (decodeXf reg val d).beyond = d.beyond := by
  rw [decodeXf, Decoded.beyond, ColorChannels.xf_beyond, MatrixIndices.xf_beyond,
    Transform.xf_beyond, TexCoordGens.xf_beyond]
  rfl

theorem GXRegisterState.writeXfReg_beyond (skip : Bool) (w : ℕ × ℕ) (s : GXRegisterState) :
    (s.writeXfReg skip w).beyond = s.beyond := by
  have hstore : (s.storeXfReg w.2 w.1).beyond = s.beyond := by
    rw [storeXfReg]
    split_ifs with hreg
    · rw [beyond]
      dsimp only
      rw [beyond_update hreg, beyond_update hreg]
      rfl
    · rfl
  rw [writeXfReg]
  split_ifs
  · exact hstore
  · refine Eq.trans ?_ hstore
    rw [beyond]
    dsimp only
    rw [decodeXf_beyond]
    rfl

theorem GXRegisterState.writeXf_beyond (skip : Bool) (addr : ℕ) (words : List ℕ)
    (s : GXRegisterState) : (s.writeXf skip addr words).beyond = s.beyond := by
  have hloop : ∀ (regs : List (ℕ × ℕ)) (s : GXRegisterState),
      (regs.foldl (writeXfReg skip) s).beyond = s.beyond := by
    intro regs
    induction regs with
    | nil => exact fun s => rfl
    | cons w regs ih => exact fun s => (ih _).trans (writeXfReg_beyond skip w s)
  rw [writeXf]
  cases hcopy : copyXfData addr words s.decoded.matrices with
  | some matrices =>
    rw [beyond, Decoded.beyond]
    dsimp only
    rw [copyXfData_beyond hcopy]
    rfl
  | none =>
    dsimp only
    split_ifs
    · rw [writeXfRegs]
      split_ifs <;> exact hloop _ s
    · rfl

end Gx
