import MkwiiPs5.Gx.RedundantWrites

/-!
# Runs of register writes

The decoder with and without its shortcut for unchanged values, on the same writes. The two agree
as long as a skipped write finds the fields that its register shares as its value says.
-/

namespace Gx

open RegisterFile

inductive RegisterWrite
  | bp (word : ℕ)
  | cp (addr value : ℕ)
  | xf (data : List UInt8) (pos : ℕ) (bigEndian : Bool)

/-- One register write; without `skip` it is decoded whatever the caches hold. -/
def registerWrite (skip : Bool) (s : GXRegisterState) : RegisterWrite → Except Fault GXRegisterState
  | .bp word => pure (handleBp skip word s)
  | .cp addr value => pure (handleCp skip addr value s)
  | .xf data pos bigEndian => (·.2) <$> handleXf skip data pos bigEndian s

def registerRun (skip : Bool) (s : GXRegisterState) (writes : List RegisterWrite) :
    Except Fault GXRegisterState :=
  writes.foldlM (registerWrite skip) s

/-- The fields after a run. -/
def decodedAfter (skip : Bool) (s : GXRegisterState) (writes : List RegisterWrite) :
    Except Fault Decoded :=
  GXRegisterState.decoded <$> registerRun skip s writes

/-- If the value is the one in the cache, the fields that the register shares with another one
are as the value says. GenMode must have been decoded at all: its cache is zero from the start. -/
def Vouched (s : GXRegisterState) : RegisterWrite → Prop
  | .bp word =>
    let (regId, value) := mergeBp s.bpRegCache word
    s.bpRegCache regId = value →
      (regId = 0x00 → s.decoded.genMode.numTevStages ≠ 0 ∧
        s.decoded.genMode.numTexGens = bpGet value 4 0 ∧
        s.decoded.genMode.numChans = bpGet value 3 4) ∧
      (regId = 0x65 → bpGet value 10 0 < MaxTluts →
        (s.decoded.loadedTluts (bpGet value 10 0)).loadTlut0 = s.bpRegCache 0x64)
  | .cp addr value =>
    s.cpUnchanged addr value = true →
      (addr = 0x30 → s.decoded.matrixIndices.currentPnMtx = bpGet value 6 0 / 3 ∧
        ∀ i < 4, s.decoded.matrixIndices.tcgMtx i = bpGet value 6 (6 + i * 6)) ∧
      (addr = 0x40 → ∀ i < 4, s.decoded.matrixIndices.tcgMtx (4 + i) = bpGet value 6 (i * 6))
  | .xf .. => True

/-- Every write of a run is vouched for when it is made. -/
def AllVouched (s : GXRegisterState) : List RegisterWrite → Prop
  | [] => True
  | w :: writes =>
    Vouched s w ∧ ∀ s', registerWrite true s w = .ok s' → AllVouched s' writes

/-- The states of the two decoders: the words that decoders read, and the fields. -/
structure Agree (s t : GXRegisterState) : Prop where
  decoded : s.decoded = t.decoded
  bpRegCache : s.bpRegCache = t.bpRegCache

/-! ### BP -/

theorem decodeGenMode_eq_iff {s : GXRegisterState} (h : Held s) :
    decodeGenMode (s.bpRegCache 0x00) = s.decoded.genMode ↔
      s.decoded.genMode.numTevStages ≠ 0 ∧
      s.decoded.genMode.numTexGens = bpGet (s.bpRegCache 0x00) 4 0 ∧
      s.decoded.genMode.numChans = bpGet (s.bpRegCache 0x00) 3 4 := by
  constructor
  · intro heq
    rw [← heq]
    exact ⟨Nat.succ_ne_zero _, rfl, rfl⟩
  · rintro ⟨hstages, htexGens, hchans⟩
    obtain ⟨texGens, chans, hown⟩ := h.genMode hstages
    rw [hown] at htexGens hchans ⊢
    simp only at htexGens hchans
    rw [htexGens, hchans]
    rfl

theorem bpTluts_eq_iff {s : GXRegisterState} (h : Held s) (h65 : s.bpRegCache 0x65 ≠ 0) :
    bpTluts s.bpRegCache 0x65 (s.bpRegCache 0x65) s.decoded.loadedTluts = s.decoded.loadedTluts ↔
      (bpGet (s.bpRegCache 0x65) 10 0 < MaxTluts →
        (s.decoded.loadedTluts (bpGet (s.bpRegCache 0x65) 10 0)).loadTlut0 =
          s.bpRegCache 0x64) := by
  by_cases hidx : bpGet (s.bpRegCache 0x65) 10 0 < MaxTluts
  · simp only [bpTluts, hidx, if_true, Overlay.write_singleton, Function.update_eq_self_iff,
      forall_const]
    have hentries := h.tluts h65 hidx
    generalize s.decoded.loadedTluts (bpGet (s.bpRegCache 0x65) 10 0) = tlut at hentries ⊢
    rw [← hentries]
    constructor
    · intro heq
      rw [← heq]
    · intro heq
      rw [← heq]
  · simp only [bpTluts, hidx, if_true, if_false, false_implies]

/-- A BP word that is decoded again: what the caches do not vouch for has to be checked. -/
theorem decodeBp_again_iff {s : GXRegisterState} (h : Held s) {r : ℕ} (hFE : r ≠ 0xFE)
    (hr : r ≠ 0x00 → s.bpRegCache r ≠ 0) :
    decodeBp s.bpRegCache r (s.bpRegCache r) s.decoded = s.decoded ↔
      (r = 0x00 → s.decoded.genMode.numTevStages ≠ 0 ∧
        s.decoded.genMode.numTexGens = bpGet (s.bpRegCache r) 4 0 ∧
        s.decoded.genMode.numChans = bpGet (s.bpRegCache r) 3 4) ∧
      (r = 0x65 → bpGet (s.bpRegCache r) 10 0 < MaxTluts →
        (s.decoded.loadedTluts (bpGet (s.bpRegCache r) 10 0)).loadTlut0 =
          s.bpRegCache 0x64) := by
  by_cases h0 : r = 0x00
  · subst h0
    rw [decodeBp_genMode]
    simp only [forall_const, Nat.reduceEqDiff, false_implies, and_true]
    rw [← decodeGenMode_eq_iff h]
    exact ⟨congrArg Decoded.genMode, fun heq => by rw [heq]⟩
  · by_cases h65 : r = 0x65
    · subst h65
      rw [decodeBp_tlut]
      simp only [h0, forall_const, false_implies, true_and]
      rw [← bpTluts_eq_iff h (hr h0)]
      exact ⟨congrArg Decoded.loadedTluts, fun heq => by rw [heq]⟩
    · simp only [h0, h65, false_implies, and_self, iff_true]
      exact h.bp r h0 h65 hFE (hr h0)

theorem Held.handleBp {s : GXRegisterState} (h : Held s) (word : ℕ) :
    Held (handleBp true word s) := by
  rw [Gx.handleBp]
  split
  · exact h.mask _
  · rename_i hFE
    dsimp only
    split
    · exact h.mask _
    · exact (h.mask _).storeBp hFE _

/-- The cached word of a register has the register in it. -/
theorem mergeBp_ne_zero (cache : ℕ → ℕ) (word : ℕ) (h : (mergeBp cache word).1 ≠ 0) :
    (mergeBp cache word).2 ≠ 0 := by
  intro hzero
  simp only [mergeBp, Nat.or_eq_zero_iff, Nat.shiftLeft_eq_zero_iff] at hzero
  exact h hzero.1

/-- One BP write: the caches of words agree, and the fields do if the write is vouched for. -/
theorem handleBp_agree {s t : GXRegisterState} (h : Held s) (ha : Agree s t) (word : ℕ) :
    (handleBp true word s).bpRegCache = (handleBp false word t).bpRegCache ∧
      ((handleBp true word s).decoded = (handleBp false word t).decoded ↔
        Vouched s (.bp word)) := by
  have hmask := h.mask 0x00ffffff
  simp only [Gx.handleBp, Vouched, ← ha.bpRegCache]
  have hne := mergeBp_ne_zero s.bpRegCache word
  have hfst : (mergeBp s.bpRegCache word).1 = (word >>> 24) &&& 0xff := rfl
  generalize mergeBp s.bpRegCache word = merged at hne hfst ⊢
  obtain ⟨r, value⟩ := merged
  simp only at hne hfst
  rw [← hfst]
  by_cases hFE : r = 0xFE
  · simp only [hFE, if_true, ha.decoded, Nat.reduceEqDiff, false_implies, and_self, implies_true]
  · have h64 : Function.update s.bpRegCache 0xFE 0x00ffffff 0x64 = s.bpRegCache 0x64 := rfl
    have hr : Function.update s.bpRegCache 0xFE 0x00ffffff r = s.bpRegCache r :=
      Function.update_of_ne hFE _ _
    by_cases hval : s.bpRegCache r = value
    · subst hval
      have hagain := decodeBp_again_iff hmask hFE (by simpa only [hr] using hne)
      simp only [hr, h64] at hagain
      simp only [hFE, if_false, hr, beq_self_eq_true, Bool.and_self, if_true, Bool.false_and,
        Bool.false_eq_true, GXRegisterState.storeBp_bpRegCache, GXRegisterState.storeBp_decoded,
        ← ha.decoded, forall_const]
      rw [show Function.update (Function.update s.bpRegCache 0xFE 0x00ffffff) r (s.bpRegCache r) =
        Function.update s.bpRegCache 0xFE 0x00ffffff from hr ▸ Function.update_eq_self _ _]
      exact ⟨rfl, eq_comm.trans hagain⟩
    · simp only [hFE, if_false, hr, hval, beq_iff_eq, Bool.and_eq_true, and_false,
        Bool.false_eq_true, GXRegisterState.storeBp_bpRegCache, GXRegisterState.storeBp_decoded,
        ha.decoded, false_implies, and_self]

/-! ### CP -/

theorem Held.handleCp {s : GXRegisterState} (h : Held s) (addr value : ℕ) :
    Held (handleCp true addr value s) := by
  rw [Gx.handleCp]
  split
  · exact h
  · exact h.writeCp addr value

/-- The matrix indices of a word that is decoded again. -/
theorem matrixIndices_cp_eq_iff (value : ℕ) (m : MatrixIndices) :
    (m.cp 0x30 value = m ↔ m.currentPnMtx = bpGet value 6 0 / 3 ∧
      ∀ i < 4, m.tcgMtx i = bpGet value 6 (6 + i * 6)) ∧
    (m.cp 0x40 value = m ↔ ∀ i < 4, m.tcgMtx (4 + i) = bpGet value 6 (i * 6)) := by
  obtain ⟨pnMtx, tcgMtx⟩ := m
  simp only [MatrixIndices.cp, if_true, Nat.reduceEqDiff, if_false, MatrixIndices.mk.injEq,
    true_and, Overlay.write_eq_self_iff]
  simp only [texMtxIndices, List.length_map, List.length_range, List.getElem_map,
    List.getElem_range, Nat.zero_add, and_true]
  exact and_congr_left' eq_comm

theorem decodeCp_again_iff {s : GXRegisterState} (h : Held s) {addr : ℕ}
    (hcache : cacheableCpRegister addr = true) (hvalid : s.cpRegisterCacheValid addr = true) :
    decodeCp addr (s.cpRegisterCache addr) s.decoded = s.decoded ↔
      (addr = 0x30 → s.decoded.matrixIndices.currentPnMtx = bpGet (s.cpRegisterCache addr) 6 0 / 3 ∧
        ∀ i < 4, s.decoded.matrixIndices.tcgMtx i =
          bpGet (s.cpRegisterCache addr) 6 (6 + i * 6)) ∧
      (addr = 0x40 → ∀ i < 4, s.decoded.matrixIndices.tcgMtx (4 + i) =
        bpGet (s.cpRegisterCache addr) 6 (i * 6)) := by
  obtain ⟨h30iff, h40iff⟩ := matrixIndices_cp_eq_iff (s.cpRegisterCache addr)
    s.decoded.matrixIndices
  by_cases h30 : addr = 0x30
  · subst h30
    simp only [forall_const, Nat.reduceEqDiff, false_implies, and_true]
    rw [← h30iff, (decodeCp_mtxIdx _ _).1]
    exact ⟨congrArg Decoded.matrixIndices, fun heq => by rw [heq]⟩
  · by_cases h40 : addr = 0x40
    · subst h40
      simp only [forall_const, Nat.reduceEqDiff, false_implies, true_and]
      rw [← h40iff, (decodeCp_mtxIdx _ _).2]
      exact ⟨congrArg Decoded.matrixIndices, fun heq => by rw [heq]⟩
    · simp only [h30, h40, false_implies, and_self, iff_true]
      exact h.cp addr h30 h40 hvalid hcache

/-- One CP write: the fields agree if the write is vouched for. -/
theorem handleCp_agree {s t : GXRegisterState} (h : Held s) (ha : Agree s t) (addr value : ℕ) :
    (handleCp true addr value s).bpRegCache = (handleCp false addr value t).bpRegCache ∧
      ((handleCp true addr value s).decoded = (handleCp false addr value t).decoded ↔
        Vouched s (.cp addr value)) := by
  simp only [Gx.handleCp, Vouched, Bool.true_and, Bool.false_and, Bool.false_eq_true, if_false,
    GXRegisterState.writeCp_decoded, GXRegisterState.writeCp_bpRegCache, ← ha.decoded,
    ← ha.bpRegCache]
  by_cases hsame : s.cpUnchanged addr value = true
  · simp only [hsame, if_true, forall_const, true_and]
    simp only [GXRegisterState.cpUnchanged, Bool.and_eq_true, beq_iff_eq] at hsame
    obtain ⟨⟨hcache, hvalid⟩, rfl⟩ := hsame
    exact eq_comm.trans (decodeCp_again_iff h hcache hvalid)
  · simp only [hsame, Bool.false_eq_true, if_false, false_implies,
      GXRegisterState.writeCp_decoded, GXRegisterState.writeCp_bpRegCache, and_self]

/-! ### XF -/

theorem writeXfReg_agree {s t : GXRegisterState} (h : Held s) (ha : Agree s t) (w : ℕ × ℕ) :
    Agree (s.writeXfReg true w) (t.writeXfReg false w) := by
  obtain ⟨val, reg⟩ := w
  obtain ⟨valid, cache, hstore⟩ := s.storeXfReg_eq reg val
  obtain ⟨valid', cache', hstore'⟩ := t.storeXfReg_eq reg val
  simp only [GXRegisterState.writeXfReg, hstore, hstore', Bool.true_and, Bool.false_and,
    Bool.false_eq_true, if_false]
  split
  · rename_i hskip
    simp only [Bool.and_eq_true, GXRegisterState.xfRegMatches, decide_eq_true_eq,
      beq_iff_eq] at hskip
    obtain ⟨⟨⟨hreg, hvalid⟩, rfl⟩, hskip⟩ := hskip
    refine ⟨?_, ha.bpRegCache⟩
    rw [← ha.decoded]
    exact (h.xf reg hskip hreg hvalid).symm
  · exact ⟨congrArg (decodeXf reg val) ha.decoded, ha.bpRegCache⟩

theorem writeXfRegs_agree {s t : GXRegisterState} (h : Held s) (ha : Agree s t) (xfAddr : ℕ)
    (words : List ℕ) : Agree (s.writeXfRegs true xfAddr words) (t.writeXfRegs false xfAddr words) := by
  have hloop : Agree ((words.zipIdx xfAddr).foldl (GXRegisterState.writeXfReg true) s)
      ((words.zipIdx xfAddr).foldl (GXRegisterState.writeXfReg false) t) := by
    generalize words.zipIdx xfAddr = regs
    induction regs generalizing s t with
    | nil => exact ha
    | cons w regs ih => exact ih (h.writeXfReg w) (writeXfReg_agree h ha w)
  simp only [GXRegisterState.writeXfRegs]
  constructor
  · split_ifs <;> simp only [hloop.decoded]
  · split_ifs <;> exact hloop.bpRegCache

theorem writeXf_agree {s t : GXRegisterState} (h : Held s) (ha : Agree s t) (addr : ℕ)
    (words : List ℕ) : Agree (s.writeXf true addr words) (t.writeXf false addr words) := by
  simp only [GXRegisterState.writeXf, ← ha.decoded]
  split
  · exact ⟨rfl, ha.bpRegCache⟩
  · split
    · exact writeXfRegs_agree h ha _ words
    · exact ha

/-! ### Runs -/

/-- The decoders read the same; they make the same of it if the write is vouched for. -/
theorem registerWrite_agree {s t : GXRegisterState} (h : Held s) (ha : Agree s t)
    (w : RegisterWrite) :
    (∃ e, registerWrite true s w = .error e ∧ registerWrite false t w = .error e ∧ Vouched s w) ∨
    ∃ s' t', registerWrite true s w = .ok s' ∧ registerWrite false t w = .ok t' ∧ Held s' ∧
      s'.bpRegCache = t'.bpRegCache ∧ (s'.decoded = t'.decoded ↔ Vouched s w) := by
  cases w with
  | bp word => exact .inr ⟨_, _, rfl, rfl, h.handleBp word, handleBp_agree h ha word⟩
  | cp addr value =>
    exact .inr ⟨_, _, rfl, rfl, h.handleCp addr value, handleCp_agree h ha addr value⟩
  | xf data pos bigEndian =>
    simp only [registerWrite, handleXf]
    rcases readXf data pos bigEndian with e | burst
    · exact .inl ⟨e, rfl, rfl, trivial⟩
    right
    cases burst with
    | none => exact ⟨s, t, rfl, rfl, h, ha.bpRegCache, iff_of_true ha.decoded trivial⟩
    | some burst =>
      have hagree := writeXf_agree h ha burst.addr burst.words
      exact ⟨_, _, rfl, rfl, h.writeXf burst.addr burst.words, hagree.bpRegCache,
        iff_of_true hagree.decoded trivial⟩

theorem decodedAfter_cons {skip : Bool} {s s' : GXRegisterState} {w : RegisterWrite}
    (h : registerWrite skip s w = .ok s') (writes : List RegisterWrite) :
    decodedAfter skip s (w :: writes) = decodedAfter skip s' writes := by
  simp only [decodedAfter, registerRun, List.foldlM_cons, h]
  rfl

/-- Two decoders that start alike agree all along a run if every write is vouched for. -/
theorem decodedAfter_agree_iff {s t : GXRegisterState} (h : Held s) (ha : Agree s t)
    (writes : List RegisterWrite) :
    (∀ pre, pre <+: writes → decodedAfter true s pre = decodedAfter false t pre) ↔
      AllVouched s writes := by
  induction writes generalizing s t with
  | nil =>
    refine iff_of_true ?_ trivial
    intro pre hpre
    rw [List.prefix_nil.1 hpre]
    exact congrArg Except.ok ha.decoded
  | cons w writes ih =>
    have hnil : decodedAfter true s [] = decodedAfter false t [] := congrArg Except.ok ha.decoded
    rcases registerWrite_agree h ha w with ⟨e, hs, ht, hv⟩ | ⟨s', t', hs, ht, hheld, hcache, hiff⟩
    · refine iff_of_true ?_ ⟨hv, fun s' hs' => absurd (hs.symm.trans hs') (by simp)⟩
      intro pre hpre
      rcases pre with _ | ⟨w', pre⟩
      · exact hnil
      · obtain ⟨rfl, -⟩ := List.cons_prefix_cons.1 hpre
        simp only [decodedAfter, registerRun, List.foldlM_cons, hs, ht]
        rfl
    · rw [AllVouched, ← hiff]
      constructor
      · intro hall
        have hone := hall [w] (by simp)
        rw [decodedAfter_cons hs, decodedAfter_cons ht] at hone
        have hdecoded : s'.decoded = t'.decoded := Except.ok.inj hone
        refine ⟨hdecoded, ?_⟩
        intro s'' hs''
        obtain rfl := Except.ok.inj (hs.symm.trans hs'')
        rw [← ih hheld ⟨hdecoded, hcache⟩]
        intro pre hpre
        have := hall (w :: pre) (List.cons_prefix_cons.2 ⟨rfl, hpre⟩)
        rwa [decodedAfter_cons hs, decodedAfter_cons ht] at this
      · rintro ⟨hdecoded, hrest⟩ pre hpre
        rcases pre with _ | ⟨w', pre⟩
        · exact hnil
        · obtain ⟨rfl, htail⟩ := List.cons_prefix_cons.1 hpre
          rw [decodedAfter_cons hs, decodedAfter_cons ht]
          exact (ih hheld ⟨hdecoded, hcache⟩).2 (hrest s' hs) pre htail

theorem held_reset (extent : GxRenderExtent) (nativePolicy : Bool) :
    Held (.reset extent nativePolicy) where
  bp := by
    intro r _ _ hFE hr
    simp [GXRegisterState.reset, Function.update_of_ne hFE] at hr
  genMode := fun h => absurd rfl h
  tluts := fun h => absurd rfl h
  cp := fun r _ _ hvalid => absurd hvalid Bool.false_ne_true
  xf := fun r _ _ hvalid => absurd hvalid Bool.false_ne_true

/-- All along a run from the reset state, skipping the decoding of unchanged values leaves the
fields that decoding them would leave, if and only if every write is vouched for. -/
theorem redundant_writes_iff (extent : GxRenderExtent) (nativePolicy : Bool)
    (writes : List RegisterWrite) :
    (∀ pre, pre <+: writes → decodedAfter true (.reset extent nativePolicy) pre =
      decodedAfter false (.reset extent nativePolicy) pre) ↔
        AllVouched (.reset extent nativePolicy) writes :=
  decodedAfter_agree_iff (held_reset extent nativePolicy) ⟨rfl, rfl⟩ writes

/-- The word zero is in the cache of genMode from the start, and is not decoded. -/
theorem zero_genMode_skipped : ¬ ∀ writes,
    decodedAfter true (.reset ⟨640, 480, 1280, 960⟩ false) writes =
      decodedAfter false (.reset ⟨640, 480, 1280, 960⟩ false) writes := by
  intro h
  have hstages := congrArg (Except.map fun d => d.genMode.numTevStages) (h [.bp 0])
  have hskip : Except.map (fun d => d.genMode.numTevStages)
      (decodedAfter true (.reset ⟨640, 480, 1280, 960⟩ false) [.bp 0]) = .ok 0 := rfl
  have hdecode : Except.map (fun d => d.genMode.numTevStages)
      (decodedAfter false (.reset ⟨640, 480, 1280, 960⟩ false) [.bp 0]) = .ok 1 := rfl
  rw [hskip, hdecode] at hstages
  exact absurd (Except.ok.inj hstages) (by decide)

end Gx
