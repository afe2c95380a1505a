import MkwiiPs5.Gx.XfDecoder

/-!
# Redundant register writes

A write whose value the register cache holds already is not decoded. That is sound for a
register whose fields no other register writes: the state holds what the cached word decodes to.
-/

namespace Gx

open RegisterFile

/-! ### What the caches vouch for -/

/-- Every cached word is decoded in the state, as far as its register alone writes the fields. -/
structure Held (s : GXRegisterState) : Prop where
  bp : ∀ r, r ≠ 0x00 → r ≠ 0x65 → r ≠ 0xFE → s.bpRegCache r ≠ 0 →
    Holds decodeBp s.bpRegCache r s.decoded
  genMode : s.decoded.genMode.numTevStages ≠ 0 → ∃ texGens chans, s.decoded.genMode =
    { decodeGenMode (s.bpRegCache 0x00) with numTexGens := texGens, numChans := chans }
  tluts : s.bpRegCache 0x65 ≠ 0 → bpGet (s.bpRegCache 0x65) 10 0 < MaxTluts →
    (s.decoded.loadedTluts (bpGet (s.bpRegCache 0x65) 10 0)).numEntries =
      bpGet (s.bpRegCache 0x65) 10 10 + 1
  cp : ∀ r, r ≠ 0x30 → r ≠ 0x40 → s.cpRegisterCacheValid r = true → cacheableCpRegister r = true →
    Holds (fun _ => decodeCp) s.cpRegisterCache r s.decoded
  xf : ∀ r, xfSkipped r = true → r < 0x60 → s.xfRegCacheValid r = true →
    Holds (fun _ => decodeXf) s.xfRegCache r s.decoded

/-- A change of fields that no cached register decodes to. -/
theorem Held.of_parts {s : GXRegisterState} (h : Held s) {d : Decoded}
    (hbp : d.bpParts = s.decoded.bpParts) (htluts : d.loadedTluts = s.decoded.loadedTluts)
    (hcp : d.vertex = s.decoded.vertex) (hxf : d.xfParts = s.decoded.xfParts) :
    Held { s with decoded := d } where
  bp := by
    intro r h0 h65 hFE hr
    rw [holds_decodeBp_iff h0 h65, hbp, ← holds_decodeBp_iff h0 h65]
    exact h.bp r h0 h65 hFE hr
  genMode := by
    have hgen : d.genMode = s.decoded.genMode := congrArg Prod.fst hxf
    show d.genMode.numTevStages ≠ 0 → _
    rw [hgen]
    exact h.genMode
  tluts := by
    show _ → _ → (d.loadedTluts _).numEntries = _
    rw [htluts]
    exact h.tluts
  cp := by
    intro r h30 h40 hvalid hcache
    rw [holds_decodeCp_iff h30 h40, hcp, ← holds_decodeCp_iff h30 h40]
    exact h.cp r h30 h40 hvalid hcache
  xf := by
    intro r hskip hr hvalid
    rw [holds_decodeXf_iff hskip, hxf, ← holds_decodeXf_iff hskip]
    exact h.xf r hskip hr hvalid

theorem Held.mask {s : GXRegisterState} (h : Held s) (value : ℕ) :
    Held { s with bpRegCache := Function.update s.bpRegCache 0xFE value } where
  bp := by
    intro r h0 h65 hFE hr
    simp only [Function.update_of_ne hFE] at hr
    have := (decodeBp_separate h0 h65).other s.bpRegCache 0xFE value s.decoded hFE
      (h.bp r h0 h65 hFE hr)
    rwa [decodeBp_mask] at this
  genMode := h.genMode
  tluts := h.tluts
  cp := h.cp
  xf := h.xf

/-! ### BP -/

theorem Held.storeBp {s : GXRegisterState} (h : Held s) {r : ℕ} (hr : r ≠ 0xFE) (value : ℕ) :
    Held (s.storeBp r value) := by
  have hbp : ∀ q, q ≠ 0x00 → q ≠ 0x65 → q ≠ 0xFE → Function.update s.bpRegCache r value q ≠ 0 →
      Holds decodeBp (Function.update s.bpRegCache r value) q
        (decodeBp (Function.update s.bpRegCache r value) r value s.decoded) := by
    intro q h0 h65 hFE hq
    apply (decodeBp_separate h0 h65).write
    intro hqr
    rw [Function.update_of_ne hqr] at hq
    exact h.bp q h0 h65 hFE hq
  have hgen : (decodeBp (Function.update s.bpRegCache r value) r value
      s.decoded).genMode.numTevStages ≠ 0 → ∃ texGens chans,
        (decodeBp (Function.update s.bpRegCache r value) r value s.decoded).genMode =
          { decodeGenMode (Function.update s.bpRegCache r value 0x00) with
            numTexGens := texGens, numChans := chans } := by
    by_cases h0 : r = 0x00
    · subst h0
      rw [Function.update_self]
      exact fun _ => ⟨_, _, rfl⟩
    · rw [Function.update_of_ne (Ne.symm h0)]
      show (GenMode.bp r value s.decoded.genMode).numTevStages ≠ 0 → ∃ texGens chans,
        GenMode.bp r value s.decoded.genMode = _
      rw [GenMode.bp, if_neg h0]
      exact h.genMode
  have htluts : Function.update s.bpRegCache r value 0x65 ≠ 0 →
      bpGet (Function.update s.bpRegCache r value 0x65) 10 0 < MaxTluts →
        ((decodeBp (Function.update s.bpRegCache r value) r value s.decoded).loadedTluts
          (bpGet (Function.update s.bpRegCache r value 0x65) 10 0)).numEntries =
            bpGet (Function.update s.bpRegCache r value 0x65) 10 10 + 1 := by
    by_cases h65 : r = 0x65
    · subst h65
      rw [Function.update_self, decodeBp_tlut]
      intro _ hidx
      simp only [bpTluts, hidx, if_true, Overlay.write_singleton, Function.update_self]
    · rw [Function.update_of_ne (Ne.symm h65)]
      show _ → _ → (bpTluts _ r value s.decoded.loadedTluts _).numEntries = _
      rw [bpTluts, if_neg h65]
      exact h.tluts
  have hcp : ∀ q, q ≠ 0x30 → q ≠ 0x40 → s.cpRegisterCacheValid q = true →
      cacheableCpRegister q = true → Holds (fun _ => decodeCp) s.cpRegisterCache q
        (decodeBp (Function.update s.bpRegCache r value) r value s.decoded) := by
    intro q h30 h40 hvalid hcache
    have hheld := h.cp q h30 h40 hvalid hcache
    rw [holds_decodeCp_iff h30 h40] at hheld ⊢
    exact hheld
  rw [GXRegisterState.storeBp]
  split
  · rename_i h0
    subst h0
    refine ⟨hbp, hgen, htluts, hcp, ?_⟩
    intro q hskip hq hvalid
    -- the counts are no longer vouched for
    have h9 : q ≠ 0x09 := by
      rintro rfl
      simp [GXRegisterState.invalidateXfReg] at hvalid
    have h3F : q ≠ 0x3F := by
      rintro rfl
      simp [GXRegisterState.invalidateXfReg] at hvalid
    have hold : s.xfRegCacheValid q = true := by
      simpa [GXRegisterState.invalidateXfReg, Function.update_of_ne h9,
        Function.update_of_ne h3F] using hvalid
    have hheld := h.xf q hskip hq hold
    rw [holds_decodeXf_iff hskip] at hheld ⊢
    have hgen : ∀ g, GenMode.xf q (s.xfRegCache q) g = g := by
      intro g
      rw [GenMode.xf, if_neg h9, if_neg h3F]
    have hrest := (Prod.ext_iff.1 hheld).2
    exact Prod.ext (hgen _) hrest
  · rename_i h0
    refine ⟨hbp, hgen, htluts, hcp, ?_⟩
    intro q hskip hq hvalid
    have hheld := h.xf q hskip hq hvalid
    rw [holds_decodeXf_iff hskip] at hheld ⊢
    have hgen : s.decoded.genMode.bp r value = s.decoded.genMode := if_neg h0
    show Holds xfPartsDecoder _ q (s.decoded.genMode.bp r value, s.decoded.xfParts.2)
    rw [hgen]
    exact hheld

/-! ### CP -/

/-- A write to one matrix index register, of either bank, leaves the other. -/
theorem Held.xf_of_matrixIndices {s : GXRegisterState} (h : Held s) {bank value q : ℕ}
    (hskip : xfSkipped q = true) (hq : q < 0x60) (hvalid : s.xfRegCacheValid q = true)
    (hne : q ≠ bank) {d : Decoded}
    (hd : d.xfParts = (s.decoded.genMode, s.decoded.matrixIndices.xf bank value,
      s.decoded.xfParts.2.2)) : Holds (fun _ => decodeXf) s.xfRegCache q d := by
  have hheld := h.xf q hskip hq hvalid
  rw [holds_decodeXf_iff hskip] at hheld ⊢
  rw [hd]
  obtain ⟨hgen, hrest⟩ := Prod.ext_iff.1 hheld
  obtain ⟨hmtx, hrest⟩ := Prod.ext_iff.1 hrest
  have hmtx' := (MatrixIndices.xf_separate q).write_other hne value hmtx
  exact Prod.ext hgen (Prod.ext hmtx' hrest)

theorem Held.writeCp {s : GXRegisterState} (h : Held s) (addr value : ℕ) :
    Held (s.writeCp addr value) := by
  -- a CP register that is cached keeps what it decodes to, or is the one that is written
  have hcp : ∀ q, q ≠ 0x30 → q ≠ 0x40 → (s.storeCpReg addr value).cpRegisterCacheValid q = true →
      cacheableCpRegister q = true → Holds (fun _ => decodeCp)
        (s.storeCpReg addr value).cpRegisterCache q (decodeCp addr value s.decoded) := by
    intro q h30 h40 hvalid hcache
    simp only [GXRegisterState.storeCpReg] at hvalid ⊢
    split at hvalid
    · rename_i haddr
      rw [if_pos haddr]
      apply (decodeCp_separate h30 h40).write
      intro hne
      simp only [Function.update_of_ne hne] at hvalid
      exact h.cp q h30 h40 hvalid hcache
    · rename_i haddr
      rw [if_neg haddr]
      have hne : q ≠ addr := fun heq => haddr (heq ▸ hcache)
      exact (decodeCp_separate h30 h40).write_other hne value (h.cp q h30 h40 hvalid hcache)
  have hbp : ∀ q, q ≠ 0x00 → q ≠ 0x65 → q ≠ 0xFE → s.bpRegCache q ≠ 0 →
      Holds decodeBp s.bpRegCache q (decodeCp addr value s.decoded) := by
    intro q h0 h65 hFE hq
    have hheld := h.bp q h0 h65 hFE hq
    rw [holds_decodeBp_iff h0 h65] at hheld ⊢
    exact hheld
  -- the matrix indices that XF registers share are written anew, and their cache is dropped
  have hxf : ∀ bank, (decodeCp addr value s.decoded).matrixIndices =
      s.decoded.matrixIndices.xf bank value → ∀ q, xfSkipped q = true → q < 0x60 →
        Function.update s.xfRegCacheValid bank false q = true →
          Holds (fun _ => decodeXf) s.xfRegCache q (decodeCp addr value s.decoded) := by
    intro bank hbank q hskip hq hvalid
    have hne : q ≠ bank := by
      rintro rfl
      simp at hvalid
    rw [Function.update_of_ne hne] at hvalid
    apply h.xf_of_matrixIndices hskip hq hvalid hne
    rw [← hbank]
    rfl
  obtain ⟨valid, cache, hstore⟩ := s.storeCpReg_eq addr value
  rw [hstore] at hcp
  rw [GXRegisterState.writeCp, hstore]
  split
  · rename_i h30
    subst h30
    exact ⟨hbp, h.genMode, h.tluts, hcp, hxf 0x18 rfl⟩
  · rename_i h30
    split
    · rename_i h40
      subst h40
      exact ⟨hbp, h.genMode, h.tluts, hcp, hxf 0x19 rfl⟩
    · rename_i h40
      -- other registers leave the matrix indices alone
      refine ⟨hbp, h.genMode, h.tluts, hcp, ?_⟩
      intro q hskip hq hvalid
      have hmtx : (decodeCp addr value s.decoded).matrixIndices = s.decoded.matrixIndices := by
        show s.decoded.matrixIndices.cp addr value = _
        rw [MatrixIndices.cp, if_neg h30, if_neg h40]
      have hheld := h.xf q hskip hq hvalid
      rw [holds_decodeXf_iff hskip] at hheld ⊢
      show Holds xfPartsDecoder _ q (s.decoded.genMode,
        (decodeCp addr value s.decoded).matrixIndices, s.decoded.xfParts.2.2)
      rw [hmtx]
      exact hheld

/-! ### XF -/

theorem Held.writeXfReg {s : GXRegisterState} (h : Held s) (w : ℕ × ℕ) :
    Held (s.writeXfReg true w) := by
  obtain ⟨val, reg⟩ := w
  rw [GXRegisterState.writeXfReg]
  split
  · -- the write is skipped: the cache holds the value already
    rename_i hskip
    simp only [Bool.true_and, Bool.and_eq_true] at hskip
    rw [GXRegisterState.storeXfReg_of_matches hskip.1]
    exact h
  have hxf : ∀ q, xfSkipped q = true → q < 0x60 →
      (s.storeXfReg reg val).xfRegCacheValid q = true → Holds (fun _ => decodeXf)
        (s.storeXfReg reg val).xfRegCache q (decodeXf reg val s.decoded) := by
    intro q hskip hq hvalid
    simp only [GXRegisterState.storeXfReg] at hvalid ⊢
    split at hvalid
    · rename_i hreg
      rw [if_pos hreg]
      apply (decodeXf_separate hskip).write
      intro hne
      simp only [Function.update_of_ne hne] at hvalid
      exact h.xf q hskip hq hvalid
    · rename_i hreg
      rw [if_neg hreg]
      exact (decodeXf_separate hskip).write_other (by omega) val (h.xf q hskip hq hvalid)
  have hbp : ∀ q, q ≠ 0x00 → q ≠ 0x65 → q ≠ 0xFE → s.bpRegCache q ≠ 0 →
      Holds decodeBp s.bpRegCache q (decodeXf reg val s.decoded) := by
    intro q h0 h65 hFE hq
    have hheld := h.bp q h0 h65 hFE hq
    rw [holds_decodeBp_iff h0 h65] at hheld ⊢
    exact hheld
  have hcp : ∀ q, q ≠ 0x30 → q ≠ 0x40 → s.cpRegisterCacheValid q = true →
      cacheableCpRegister q = true → Holds (fun _ => decodeCp) s.cpRegisterCache q
        (decodeXf reg val s.decoded) := by
    intro q h30 h40 hvalid hcache
    have hheld := h.cp q h30 h40 hvalid hcache
    rw [holds_decodeCp_iff h30 h40] at hheld ⊢
    exact hheld
  -- XF registers write the counts of genMode, and its other fields stay those of the word
  have hgen : (s.decoded.genMode.xf reg val).numTevStages ≠ 0 → ∃ texGens chans,
      s.decoded.genMode.xf reg val = { decodeGenMode (s.bpRegCache 0x00) with
        numTexGens := texGens, numChans := chans } := by
    obtain ⟨texGens, chans, heq⟩ := GenMode.xf_eq reg val s.decoded.genMode
    rw [heq]
    intro hstages
    obtain ⟨_, _, hown⟩ := h.genMode hstages
    rw [hown]
    exact ⟨_, _, rfl⟩
  obtain ⟨valid, cache, hstore⟩ := s.storeXfReg_eq reg val
  rw [hstore] at hxf ⊢
  exact ⟨hbp, hgen, h.tluts, hcp, hxf⟩

/-- The viewport is mapped anew; the scissor registers keep what they decode to. -/
theorem Held.applyXfViewport {s : GXRegisterState} (h : Held s) :
    Held { s with decoded := applyXfViewport s.decoded } where
  bp := by
    intro r h0 h65 hFE hr
    have hheld := h.bp r h0 h65 hFE hr
    rw [holds_decodeBp_iff h0 h65] at hheld ⊢
    obtain ⟨hview, hrest⟩ := Prod.ext_iff.1 hheld
    exact Prod.ext (ViewState.holds_bp_setLogicalViewport hview _) hrest
  genMode := h.genMode
  tluts := h.tluts
  cp := by
    intro r h30 h40 hvalid hcache
    have hheld := h.cp r h30 h40 hvalid hcache
    rw [holds_decodeCp_iff h30 h40] at hheld ⊢
    exact hheld
  xf := by
    intro r hskip hr hvalid
    have hheld := h.xf r hskip hr hvalid
    rw [holds_decodeXf_iff hskip] at hheld ⊢
    exact hheld

theorem Held.writeXfRegs {s : GXRegisterState} (h : Held s) (xfAddr : ℕ) (words : List ℕ) :
    Held (s.writeXfRegs true xfAddr words) := by
  have hloop : Held ((words.zipIdx xfAddr).foldl (GXRegisterState.writeXfReg true) s) := by
    generalize words.zipIdx xfAddr = regs
    induction regs generalizing s with
    | nil => exact h
    | cons w regs ih => exact ih (h.writeXfReg w)
  rw [GXRegisterState.writeXfRegs]
  generalize (words.zipIdx xfAddr).foldl (GXRegisterState.writeXfReg true) s = t at hloop
  have hview : Held (if (words.zipIdx xfAddr).any fun w => 0x1A ≤ w.2 && w.2 ≤ 0x1F then
      { t with decoded := Gx.applyXfViewport t.decoded } else t) := by
    split
    · exact hloop.applyXfViewport
    · exact hloop
  split
  · exact hview.of_parts rfl rfl rfl rfl
  · exact hview

theorem Held.writeXf {s : GXRegisterState} (h : Held s) (addr : ℕ) (words : List ℕ) :
    Held (s.writeXf true addr words) := by
  rw [GXRegisterState.writeXf]
  split
  · exact h.of_parts rfl rfl rfl rfl
  · split
    · exact h.writeXfRegs _ words
    · exact h

end Gx
