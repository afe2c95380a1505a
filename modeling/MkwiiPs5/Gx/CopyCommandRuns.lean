import MkwiiPs5.Gx.CopyCommands

/-!
# Runs of copy commands

A command assigns fields, and its words decode to the same fields once they are drained: either
they are decoded after the assignment, or the cache drops them because it holds them already.
-/

namespace Gx

open BitField
open RegisterFile (Separate)

/-! ### BP words, for a part of the fields -/

section Parts

variable {σ τ : Type*}

/-- The cache does not drop the word. -/
def letThrough (cache : ℕ → ℕ) (word : ℕ) : Bool :=
  (word >>> 24) &&& 0xff != 0xFE && cache (mergeBp cache word).1 != (mergeBp cache word).2

def cacheAfter (cache : ℕ → ℕ) (word : ℕ) : ℕ → ℕ :=
  if (word >>> 24) &&& 0xff = 0xFE then Function.update cache 0xFE (word &&& 0x00ffffff)
  else Function.update (Function.update cache 0xFE 0x00ffffff) (mergeBp cache word).1
    (mergeBp cache word).2

def cacheRun : (ℕ → ℕ) → List RegisterWrite → ℕ → ℕ
  | cache, [] => cache
  | cache, .bp word :: writes => cacheRun (cacheAfter cache word) writes
  | cache, _ :: writes => cacheRun cache writes

def decodeWord (dec : ℕ → ℕ → σ → σ) (cache : ℕ → ℕ) (word : ℕ) (s : σ) : σ :=
  if letThrough cache word then dec (mergeBp cache word).1 (mergeBp cache word).2 s else s

/-- What a run makes of a part that only BP words change, each by `dec`. -/
def bpRun (dec : ℕ → ℕ → σ → σ) : (ℕ → ℕ) → List RegisterWrite → σ → σ
  | _, [], s => s
  | cache, .bp word :: writes, s =>
    bpRun dec (cacheAfter cache word) writes (decodeWord dec cache word s)
  | cache, _ :: writes, s => bpRun dec cache writes s

theorem cacheRun_append (cache : ℕ → ℕ) (writes rest : List RegisterWrite) :
    cacheRun cache (writes ++ rest) = cacheRun (cacheRun cache writes) rest := by
  induction writes generalizing cache with
  | nil => rfl
  | cons w writes ih => cases w <;> exact ih _

theorem bpRun_append (dec : ℕ → ℕ → σ → σ) (cache : ℕ → ℕ) (writes rest : List RegisterWrite)
    (s : σ) : bpRun dec cache (writes ++ rest) s =
      bpRun dec (cacheRun cache writes) rest (bpRun dec cache writes s) := by
  induction writes generalizing cache s with
  | nil => rfl
  | cons w writes ih => cases w <;> exact ih _ _

/-- Parts that are related stay so if the registers keep them so. -/
theorem bpRun_rel {R : σ → τ → Prop} {dec : ℕ → ℕ → σ → σ} {dec' : ℕ → ℕ → τ → τ}
    (h : ∀ r v s t, R s t → R (dec r v s) (dec' r v t)) (cache : ℕ → ℕ)
    (writes : List RegisterWrite) {s : σ} {t : τ} (hst : R s t) :
    R (bpRun dec cache writes s) (bpRun dec' cache writes t) := by
  induction writes generalizing cache s t with
  | nil => exact hst
  | cons w writes ih =>
    cases w with
    | bp word =>
      apply ih
      rw [decodeWord, decodeWord]
      split
      · exact h _ _ _ _ hst
      · exact hst
    | cp addr value => exact ih cache hst
    | xf data pos bigEndian => exact ih cache hst

theorem bpRun_invariant {P : σ → Prop} {dec : ℕ → ℕ → σ → σ} (h : ∀ r v s, P s → P (dec r v s))
    (cache : ℕ → ℕ) (writes : List RegisterWrite) {s : σ} (hs : P s) :
    P (bpRun dec cache writes s) :=
  @bpRun_rel σ σ (fun s _ => P s) dec dec (fun r v s _ => h r v s) cache writes s s hs

/-- If the cache has the word, the part is as the word says. -/
def Vouches (dec : ℕ → ℕ → σ → σ) (r v : ℕ) (cache : ℕ → ℕ) (s : σ) : Prop :=
  cache r = v → dec r v s = s

/-- The cache vouches for a part all along a run, if it does from the start. -/
theorem Vouches.run {dec : ℕ → ℕ → σ → σ} {r v : ℕ} (hsep : Separate (fun _ => dec) r)
    (hr : r ≠ 0xFE) {cache : ℕ → ℕ} {s : σ} (h : Vouches dec r v cache s)
    (writes : List RegisterWrite) :
    Vouches dec r v (cacheRun cache writes) (bpRun dec cache writes s) := by
  induction writes generalizing cache s with
  | nil => exact h
  | cons w writes ih =>
    cases w with
    | cp addr value => exact ih h
    | xf data pos bigEndian => exact ih h
    | bp word =>
      apply ih
      intro hv
      rw [decodeWord]
      by_cases hFE : (word >>> 24) &&& 0xff = 0xFE
      · rw [cacheAfter, if_pos hFE, Function.update_of_ne hr] at hv
        rw [letThrough, hFE]
        exact h hv
      rw [cacheAfter, if_neg hFE] at hv
      by_cases hreg : r = (mergeBp cache word).1
      · rw [← hreg, Function.update_self] at hv
        rw [hv, ← hreg]
        split
        · exact hsep.again (fun _ => v) s
        · -- the word is dropped: it was in the cache before
          rename_i hdropped
          have hne : ((word >>> 24) &&& 0xff != 0xFE) = true := by simpa using hFE
          rw [letThrough, hne, Bool.true_and, bne_iff_ne, not_not, ← hreg, hv] at hdropped
          exact h hdropped
      · rw [Function.update_of_ne hreg, Function.update_of_ne hr] at hv
        split
        · have hkept : RegisterFile.Holds (fun _ => dec) (fun _ => v) r s := h hv
          exact hsep.write_other hreg _ hkept
        · exact h hv

end Parts

/-! ### Words under an open mask -/

theorem bpGet_eq_field (reg size shift : ℕ) : bpGet reg size shift = field reg size shift := by
  rw [bpGet, Nat.one_shiftLeft, Nat.and_two_pow_sub_one_eq_mod]
  rfl

/-- The register of a word. -/
def regOf (word : ℕ) : ℕ := field word 8 24

/-- A word as the cache keeps it. -/
def cached (word : ℕ) : ℕ := regOf word <<< 24 ||| field word 24 0

theorem regOf_eq (word : ℕ) : (word >>> 24) &&& 0xff = regOf word :=
  Nat.and_two_pow_sub_one_eq_mod _ 8

theorem mergeBp_fst (cache : ℕ → ℕ) (word : ℕ) : (mergeBp cache word).1 = regOf word :=
  regOf_eq word

/-- Under an open mask nothing of the old word stays. -/
theorem mergeBp_open {cache : ℕ → ℕ} (h : cache 0xFE = 0x00ffffff) (word : ℕ) :
    (mergeBp cache word).2 = cached word := by
  have hold (x : ℕ) : x &&& (UINT32_MAX ^^^ 0x00ffffff) &&& 0x00ffffff = 0 := by
    rw [Nat.and_assoc]
    exact Nat.and_zero x
  have hnew : word &&& 0x00ffffff &&& 0x00ffffff = field word 24 0 := by
    rw [Nat.and_assoc]
    exact Nat.and_two_pow_sub_one_eq_mod word 24
  simp only [mergeBp, h, regOf_eq, Nat.and_or_distrib_right, hold, hnew, Nat.zero_or]
  rfl

theorem bpGet_cached {size shift : ℕ} (h : shift + size ≤ 24) (word : ℕ) :
    bpGet (cached word) size shift = field word size shift := by
  rw [bpGet_eq_field, cached, field_or, field_shiftLeft_above h, field_field h, Nat.zero_or]

/-- The words of a command go to registers of their own, and not to the mask. -/
def Distinct (words : List ℕ) : Prop := (words.map regOf).Nodup ∧ 0xFE ∉ words.map regOf

theorem cacheRun_words {words : List ℕ} (hdistinct : Distinct words) {cache : ℕ → ℕ}
    (hmask : cache 0xFE = 0x00ffffff) :
    (∀ word ∈ words, cacheRun cache (words.map .bp) (regOf word) = cached word) ∧
      ∀ r ∉ words.map regOf, r ≠ 0xFE → cacheRun cache (words.map .bp) r = cache r := by
  induction words generalizing cache with
  | nil => exact ⟨nofun, fun _ _ _ => rfl⟩
  | cons word words ih =>
    obtain ⟨hnodup, hFE⟩ := hdistinct
    rw [List.map_cons, List.nodup_cons] at hnodup
    rw [List.map_cons, List.mem_cons, not_or] at hFE
    have hafter : cacheAfter cache word =
        Function.update (Function.update cache 0xFE 0x00ffffff) (regOf word) (cached word) := by
      rw [cacheAfter, regOf_eq, if_neg (Ne.symm hFE.1), mergeBp_fst, mergeBp_open hmask]
    have hopen : cacheAfter cache word 0xFE = 0x00ffffff := by
      rw [hafter, Function.update_of_ne hFE.1, Function.update_self]
    obtain ⟨hwords, hothers⟩ := ih ⟨hnodup.2, hFE.2⟩ hopen
    refine ⟨List.forall_mem_cons.mpr ⟨?_, hwords⟩, ?_⟩
    · show cacheRun (cacheAfter cache word) (words.map .bp) (regOf word) = _
      rw [hothers _ hnodup.1 (Ne.symm hFE.1), hafter, Function.update_self]
    · intro r hr hrFE
      rw [List.map_cons, List.mem_cons, not_or] at hr
      show cacheRun (cacheAfter cache word) (words.map .bp) r = _
      rw [hothers r hr.2 hrFE, hafter, Function.update_of_ne hr.1, Function.update_of_ne hrFE]

/-- After a run that ends with the words of a command, a part that the cache vouched for from the
start is as the words say. -/
theorem settled {σ : Type*} {dec : ℕ → ℕ → σ → σ} (hsep : ∀ r, Separate (fun _ => dec) r)
    {cache : ℕ → ℕ} {writes : List RegisterWrite} {words : List ℕ} (hdistinct : Distinct words)
    (hmask : cacheRun cache writes 0xFE = 0x00ffffff) {s : σ}
    (h : ∀ word ∈ words, Vouches dec (regOf word) (cached word) cache s) :
    ∀ word ∈ words, dec (regOf word) (cached word) (bpRun dec cache (writes ++ words.map .bp) s) =
      bpRun dec cache (writes ++ words.map .bp) s := by
  intro word hword
  have hFE : regOf word ≠ 0xFE := by
    rintro heq
    exact hdistinct.2 (heq ▸ List.mem_map_of_mem hword)
  apply (h word hword).run (hsep _) hFE
  rw [cacheRun_append]
  exact (cacheRun_words hdistinct hmask).1 word hword

/-! ### The copy state in the registers -/

section Registers

variable {s t : GXRegisterState} (copy : CopyState) (filter : CopyFilter)

def GXRegisterState.withCopies (s : GXRegisterState) : GXRegisterState :=
  { s with decoded := { s.decoded with copy := copy, copyFilter := filter } }

theorem handleBp_bpRegCache (word : ℕ) :
    (handleBp true word s).bpRegCache = cacheAfter s.bpRegCache word := by
  rw [handleBp, cacheAfter]
  split
  · rfl
  rename_i hFE
  have hreg : (mergeBp s.bpRegCache word).1 ≠ 0xFE := hFE
  dsimp only
  rw [Bool.true_and, Function.update_of_ne hreg]
  split
  · rename_i hsame
    rw [beq_iff_eq] at hsame
    have hkept : Function.update s.bpRegCache 0xFE 0x00ffffff (mergeBp s.bpRegCache word).1 =
        (mergeBp s.bpRegCache word).2 := by
      rw [Function.update_of_ne hreg, hsame]
    exact (Function.update_eq_self_iff.mpr hkept.symm).symm
  · exact GXRegisterState.storeBp_bpRegCache _ _ _

theorem handleBp_decoded (word : ℕ) :
    (handleBp true word s).decoded = if letThrough s.bpRegCache word then
      decodeBp (cacheAfter s.bpRegCache word) (mergeBp s.bpRegCache word).1
        (mergeBp s.bpRegCache word).2 s.decoded else s.decoded := by
  rw [handleBp, cacheAfter, letThrough]
  split
  · rename_i hFE
    rw [hFE]
    rfl
  rename_i hFE
  have hreg : (mergeBp s.bpRegCache word).1 ≠ 0xFE := hFE
  have hne : ((word >>> 24) &&& 0xff != 0xFE) = true := by simpa using hFE
  dsimp only
  rw [Bool.true_and, Function.update_of_ne hreg, hne, Bool.true_and, bne]
  cases s.bpRegCache (mergeBp s.bpRegCache word).1 == (mergeBp s.bpRegCache word).2
  · exact GXRegisterState.storeBp_decoded _ _ _
  · rfl

theorem handleBp_withCopies (word : ℕ) :
    handleBp true word (s.withCopies copy filter) = (handleBp true word s).withCopies
      (decodeWord CopyState.bp s.bpRegCache word copy)
      (decodeWord CopyFilter.bp s.bpRegCache word filter) := by
  rw [handleBp, handleBp, decodeWord, decodeWord, letThrough]
  split
  · rename_i hFE
    rw [hFE]
    rfl
  rename_i hFE
  have hreg : (mergeBp s.bpRegCache word).1 ≠ 0xFE := hFE
  have hne : ((word >>> 24) &&& 0xff != 0xFE) = true := by simpa using hFE
  show (if true && Function.update s.bpRegCache 0xFE 0x00ffffff (mergeBp s.bpRegCache word).1 ==
    (mergeBp s.bpRegCache word).2 then _ else _) = GXRegisterState.withCopies _ _ (if true &&
      Function.update s.bpRegCache 0xFE 0x00ffffff (mergeBp s.bpRegCache word).1 ==
        (mergeBp s.bpRegCache word).2 then _ else _)
  rw [Bool.true_and, Function.update_of_ne hreg, hne, Bool.true_and, bne]
  cases s.bpRegCache (mergeBp s.bpRegCache word).1 == (mergeBp s.bpRegCache word).2
  · show GXRegisterState.storeBp _ _ _ = GXRegisterState.withCopies _ _ (GXRegisterState.storeBp _ _ _)
    rw [GXRegisterState.storeBp, GXRegisterState.storeBp]
    split <;> rfl
  · rfl

theorem handleCp_withCopies (addr value : ℕ) :
    handleCp true addr value (s.withCopies copy filter) =
      (handleCp true addr value s).withCopies copy filter ∧
    (handleCp true addr value s).bpRegCache = s.bpRegCache := by
  have hstore : (s.withCopies copy filter).storeCpReg addr value =
      (s.storeCpReg addr value).withCopies copy filter := by
    rw [GXRegisterState.storeCpReg, GXRegisterState.storeCpReg]
    split <;> rfl
  rw [handleCp, handleCp]
  constructor
  · show (if true && s.cpUnchanged addr value then _ else _) = _
    split
    · rfl
    · rw [GXRegisterState.writeCp, GXRegisterState.writeCp, hstore]
      split_ifs <;> rfl
  · split
    · rfl
    · exact GXRegisterState.writeCp_bpRegCache _ _ _

theorem writeXfReg_withCopies (w : ℕ × ℕ) :
    (s.withCopies copy filter).writeXfReg true w = (s.writeXfReg true w).withCopies copy filter ∧
      (s.writeXfReg true w).bpRegCache = s.bpRegCache := by
  obtain ⟨val, reg⟩ := w
  simp only [GXRegisterState.writeXfReg, GXRegisterState.storeXfReg]
  constructor
  · show (if true && s.xfRegMatches reg val && xfSkipped reg then _ else _) = _
    split_ifs <;> rfl
  · split_ifs <;> rfl

theorem writeXfRegs_withCopies (xfAddr : ℕ) (words : List ℕ) :
    (s.withCopies copy filter).writeXfRegs true xfAddr words =
      (s.writeXfRegs true xfAddr words).withCopies copy filter ∧
    (s.writeXfRegs true xfAddr words).bpRegCache = s.bpRegCache := by
  have hloop : ((words.zipIdx xfAddr).foldl (GXRegisterState.writeXfReg true)
        (s.withCopies copy filter)) = ((words.zipIdx xfAddr).foldl
          (GXRegisterState.writeXfReg true) s).withCopies copy filter ∧
      ((words.zipIdx xfAddr).foldl (GXRegisterState.writeXfReg true) s).bpRegCache =
        s.bpRegCache := by
    generalize words.zipIdx xfAddr = regs
    induction regs generalizing s with
    | nil => exact ⟨rfl, rfl⟩
    | cons w regs ih =>
      obtain ⟨hstep, hcache⟩ := writeXfReg_withCopies (s := s) copy filter w
      rw [List.foldl_cons, List.foldl_cons, hstep]
      exact ⟨ih.1, ih.2.trans hcache⟩
  rw [GXRegisterState.writeXfRegs, GXRegisterState.writeXfRegs, hloop.1]
  constructor
  · split_ifs <;> rfl
  · split_ifs <;> exact hloop.2

theorem writeXf_withCopies (addr : ℕ) (words : List ℕ) :
    (s.withCopies copy filter).writeXf true addr words =
      (s.writeXf true addr words).withCopies copy filter ∧
    (s.writeXf true addr words).bpRegCache = s.bpRegCache := by
  rw [GXRegisterState.writeXf, GXRegisterState.writeXf]
  have hmatrices : (s.withCopies copy filter).decoded.matrices = s.decoded.matrices := rfl
  rw [hmatrices]
  cases copyXfData addr words s.decoded.matrices with
  | some matrices => exact ⟨rfl, rfl⟩
  | none =>
    dsimp only
    split
    · exact writeXfRegs_withCopies copy filter _ words
    · exact ⟨rfl, rfl⟩

theorem registerWrite_withCopies (w : RegisterWrite) :
    registerWrite true (s.withCopies copy filter) w =
      (GXRegisterState.withCopies (bpRun CopyState.bp s.bpRegCache [w] copy)
        (bpRun CopyFilter.bp s.bpRegCache [w] filter)) <$> registerWrite true s w ∧
    ∀ t, registerWrite true s w = .ok t → t.bpRegCache = cacheRun s.bpRegCache [w] := by
  cases w with
  | bp word =>
    rw [registerWrite, registerWrite, handleBp_withCopies, map_pure]
    refine ⟨rfl, ?_⟩
    intro t ht
    rw [← Except.ok.inj ht]
    exact handleBp_bpRegCache word
  | cp addr value =>
    obtain ⟨hsame, hcache⟩ := handleCp_withCopies (s := s) copy filter addr value
    rw [registerWrite, registerWrite, hsame, map_pure]
    refine ⟨rfl, ?_⟩
    intro t ht
    rw [← Except.ok.inj ht]
    exact hcache
  | xf data pos bigEndian =>
    rw [registerWrite, registerWrite, handleXf, handleXf]
    rcases readXf data pos bigEndian with e | (_ | burst)
    · refine ⟨rfl, ?_⟩
      intro t ht
      cases ht
    · refine ⟨rfl, ?_⟩
      intro t ht
      rw [← Except.ok.inj ht]
      rfl
    · obtain ⟨hsame, hcache⟩ := writeXf_withCopies (s := s) copy filter burst.addr burst.words
      refine ⟨congrArg Except.ok hsame, ?_⟩
      intro t ht
      rw [← Except.ok.inj ht]
      exact hcache

/-- A run changes the copy state by its BP words alone, and reads it for nothing else. -/
theorem registerRun_withCopies (writes : List RegisterWrite) :
    registerRun true (s.withCopies copy filter) writes =
      (GXRegisterState.withCopies (bpRun CopyState.bp s.bpRegCache writes copy)
        (bpRun CopyFilter.bp s.bpRegCache writes filter)) <$> registerRun true s writes ∧
    ∀ t, registerRun true s writes = .ok t → t.bpRegCache = cacheRun s.bpRegCache writes := by
  induction writes generalizing s copy filter with
  | nil =>
    refine ⟨rfl, ?_⟩
    intro t ht
    rw [← Except.ok.inj ht]
    rfl
  | cons w writes ih =>
    obtain ⟨hstep, hcache⟩ := registerWrite_withCopies (s := s) copy filter w
    rw [registerRun, registerRun, List.foldlM_cons, List.foldlM_cons, hstep]
    generalize registerWrite true s w = r at hcache ⊢
    rcases r with e | t
    · refine ⟨rfl, ?_⟩
      intro t ht
      cases ht
    · have hafter := hcache t rfl
      obtain ⟨hrest, hrestCache⟩ := ih (s := t) (bpRun CopyState.bp s.bpRegCache [w] copy)
        (bpRun CopyFilter.bp s.bpRegCache [w] filter)
      rw [hafter, ← bpRun_append, ← bpRun_append] at hrest
      rw [hafter, ← cacheRun_append] at hrestCache
      exact ⟨hrest, hrestCache⟩

/-- The registers that the copy commands write. -/
def copyRegs : List ℕ :=
  [0x01, 0x02, 0x03, 0x04, 0x49, 0x4A, 0x4D, 0x4F, 0x50, 0x51, 0x53, 0x54]

theorem decodeBp_copies {r : ℕ} (h : r ∈ copyRegs) (cache : ℕ → ℕ) (value : ℕ) (d : Decoded) :
    decodeBp cache r value d =
      { d with copy := d.copy.bp r value, copyFilter := d.copyFilter.bp r value } := by
  simp only [copyRegs, List.mem_cons, List.not_mem_nil, or_false] at h
  rcases h with rfl | rfl | rfl | rfl | rfl | rfl | rfl | rfl | rfl | rfl | rfl | rfl <;> rfl

theorem registerRun_words {words : List ℕ} (h : ∀ word ∈ words, regOf word ∈ copyRegs) :
    ∃ t, registerRun true s (words.map .bp) = .ok t ∧
      t.decoded = { s.decoded with
        copy := bpRun CopyState.bp s.bpRegCache (words.map .bp) s.decoded.copy
        copyFilter := bpRun CopyFilter.bp s.bpRegCache (words.map .bp) s.decoded.copyFilter } := by
  induction words generalizing s with
  | nil => exact ⟨s, rfl, rfl⟩
  | cons word words ih =>
    obtain ⟨hword, hwords⟩ := List.forall_mem_cons.mp h
    obtain ⟨t, hrun, hdecoded⟩ := ih (s := handleBp true word s) hwords
    refine ⟨t, hrun, hdecoded.trans ?_⟩
    have hone : (handleBp true word s).decoded = { s.decoded with
        copy := decodeWord CopyState.bp s.bpRegCache word s.decoded.copy
        copyFilter := decodeWord CopyFilter.bp s.bpRegCache word s.decoded.copyFilter } := by
      rw [handleBp_decoded, decodeWord, decodeWord]
      split
      · exact decodeBp_copies (mergeBp_fst s.bpRegCache word ▸ hword) _ _ _
      · rfl
    rw [hone, handleBp_bpRegCache]
    rfl

end Registers

/-! ### Draining a command -/

/-- The commands in the FIFO and then the words of one command, which assigned copy state. -/
theorem drain_words {f g : Frontend} (hg : f.drain = .ok g) {words : List ℕ}
    (h : ∀ word ∈ words, regOf word ∈ copyRegs) (copy : CopyState) (filter : CopyFilter)
    (height : ℕ) : ∃ state,
    Frontend.drain ⟨f.state.withCopies copy filter, height, f.fifo ++ words.map .bp⟩ =
      .ok ⟨state, height, []⟩ ∧
    state.decoded = { g.state.decoded with
      copy := bpRun CopyState.bp f.state.bpRegCache (f.fifo ++ words.map .bp) copy
      copyFilter := bpRun CopyFilter.bp f.state.bpRegCache (f.fifo ++ words.map .bp) filter } ∧
    g.state.decoded.copy = bpRun CopyState.bp f.state.bpRegCache f.fifo f.state.decoded.copy ∧
    g.state.decoded.copyFilter =
      bpRun CopyFilter.bp f.state.bpRegCache f.fifo f.state.decoded.copyFilter ∧
    g.state.bpRegCache = cacheRun f.state.bpRegCache f.fifo := by
  rw [Frontend.drain] at hg
  rcases hrun : registerRun true f.state f.fifo with e | s
  · rw [hrun] at hg
    cases hg
  rw [hrun] at hg
  obtain rfl : ⟨s, f.dispCopyDstHeight, []⟩ = g := Except.ok.inj hg
  obtain ⟨hsame, hcache⟩ := registerRun_withCopies (s := f.state) copy filter f.fifo
  have hself := (registerRun_withCopies (s := f.state) f.state.decoded.copy
    f.state.decoded.copyFilter f.fifo).1
  rw [hrun] at hsame
  have hafter := hcache s hrun
  -- the assigned state goes through the same commands as the old one
  rw [show f.state.withCopies f.state.decoded.copy f.state.decoded.copyFilter = f.state from rfl,
    hrun] at hself
  have hcopy := congrArg (fun t => t.decoded.copy) (Except.ok.inj hself)
  have hfilter := congrArg (fun t => t.decoded.copyFilter) (Except.ok.inj hself)
  obtain ⟨t, hwords, hdecoded⟩ := registerRun_words h (s := s.withCopies
    (bpRun CopyState.bp f.state.bpRegCache f.fifo copy)
    (bpRun CopyFilter.bp f.state.bpRegCache f.fifo filter))
  refine ⟨t, ?_, ?_, hcopy, hfilter, hafter⟩
  · rw [Frontend.drain, registerRun, List.foldlM_append, ← registerRun, hsame]
    show (registerRun true _ (words.map .bp) >>= _) = _
    rw [hwords]
    rfl
  · rw [hdecoded, bpRun_append, bpRun_append, ← hafter]
    rfl

/-- What the words of a command keep. -/
theorem bpRun_words {σ : Type*} {P : σ → Prop} {dec : ℕ → ℕ → σ → σ} {words : List ℕ}
    (h : ∀ word ∈ words, ∀ v s, P s → P (dec (regOf word) v s)) (cache : ℕ → ℕ) {s : σ} (hs : P s) :
    P (bpRun dec cache (words.map .bp) s) := by
  induction words generalizing cache s with
  | nil => exact hs
  | cons word words ih =>
    obtain ⟨hword, hwords⟩ := List.forall_mem_cons.mp h
    apply ih hwords
    rw [decodeWord, mergeBp_fst]
    split
    · exact hword _ _ hs
    · exact hs

/-! ### Commands that assign the copy state -/

/-- The words decode to the fields that `into` assigns, and to no others. -/
structure Assigns (words : List ℕ) (into : CopyState → CopyState) : Prop where
  distinct : Distinct words
  regs : ∀ word ∈ words, regOf word ∈ copyRegs
  unfiltered : ∀ word ∈ words, ∀ v filter, CopyFilter.bp (regOf word) v filter = filter
  decodes : ∀ word ∈ words, ∀ c, (into c).bp (regOf word) (cached word) = into c
  fixed : ∀ c, (∀ word ∈ words, c.bp (regOf word) (cached word) = c) → into c = c
  keeps : ∀ r v c, into (c.bp r v) = into ((into c).bp r v)
  own : ∀ word ∈ words, ∀ v c, into (c.bp (regOf word) v) = into c

theorem Assigns.run {words : List ℕ} {into : CopyState → CopyState} (h : Assigns words into)
    {cache : ℕ → ℕ} {writes : List RegisterWrite} (hmask : cacheRun cache writes 0xFE = 0x00ffffff)
    {c c' : CopyState} (hinto : into c = into c')
    (hvouch : ∀ word ∈ words, Vouches CopyState.bp (regOf word) (cached word) cache c) :
    bpRun CopyState.bp cache (writes ++ words.map .bp) c =
      into (bpRun CopyState.bp cache writes c') := by
  have hfixed := h.fixed _ (settled CopyState.bp_separate h.distinct hmask hvouch)
  have hkeeps : ∀ r v c c', into c = into c' → into (c.bp r v) = into (c'.bp r v) := by
    intro r v c c' hinto
    rw [h.keeps, hinto, ← h.keeps]
  rw [← hfixed, bpRun_append]
  calc into (bpRun CopyState.bp (cacheRun cache writes) (words.map .bp)
        (bpRun CopyState.bp cache writes c))
      = into (bpRun CopyState.bp cache writes c) :=
        bpRun_words (P := fun x => into x = _) (fun word hword v x hx => (h.own word hword v x).trans hx)
          _ rfl
    _ = into (bpRun CopyState.bp cache writes c') := bpRun_rel hkeeps cache writes hinto

/-- A register changes one field, or none. -/
theorem CopyState.bp_cases (r v : ℕ) :
    (∃ x, ∀ c : CopyState, c.bp r v = { c with dispSrcXY := x }) ∨
    (∃ x, ∀ c : CopyState, c.bp r v = { c with dispSrcSize := x }) ∨
    (∃ x, ∀ c : CopyState, c.bp r v = { c with dispDstWidth := x }) ∨
    (∃ x : Float32 → Float32, ∀ c : CopyState,
      c.bp r v = { c with dispYScale := x c.dispYScale }) ∨
    (∃ x, ∀ c : CopyState, c.bp r v = { c with clearRedAlpha := x }) ∨
    (∃ x, ∀ c : CopyState, c.bp r v = { c with clearBlueGreen := x }) ∨
    (∃ x, ∀ c : CopyState, c.bp r v = { c with clearDepth := x }) ∨
    (∃ x, ∀ c : CopyState, c.bp r v = { c with control := x }) ∨
    ∀ c : CopyState, c.bp r v = c := by
  rcases eq_or_ne r 0x49 with rfl | h49
  · exact .inl ⟨_, fun _ => rfl⟩
  rcases eq_or_ne r 0x4A with rfl | h4A
  · exact .inr (.inl ⟨_, fun _ => rfl⟩)
  rcases eq_or_ne r 0x4D with rfl | h4D
  · exact .inr (.inr (.inl ⟨_, fun _ => rfl⟩))
  rcases eq_or_ne r 0x4E with rfl | h4E
  · exact .inr (.inr (.inr (.inl ⟨fun old => if bpGet v 9 0 ≠ 0 then
      256.0 / Float32.ofNat (bpGet v 9 0) else old, fun _ => rfl⟩)))
  rcases eq_or_ne r 0x4F with rfl | h4F
  · exact .inr (.inr (.inr (.inr (.inl ⟨_, fun _ => rfl⟩))))
  rcases eq_or_ne r 0x50 with rfl | h50
  · exact .inr (.inr (.inr (.inr (.inr (.inl ⟨_, fun _ => rfl⟩)))))
  rcases eq_or_ne r 0x51 with rfl | h51
  · exact .inr (.inr (.inr (.inr (.inr (.inr (.inl ⟨_, fun _ => rfl⟩))))))
  rcases eq_or_ne r 0x52 with rfl | h52
  · exact .inr (.inr (.inr (.inr (.inr (.inr (.inr (.inl ⟨_, fun _ => rfl⟩)))))))
  refine .inr (.inr (.inr (.inr (.inr (.inr (.inr (.inr fun c => ?_)))))))
  rw [bp, if_neg h49, if_neg h4A, if_neg h4D, if_neg h4E, if_neg h4F, if_neg h50, if_neg h51,
    if_neg h52]

theorem and_lowBits {x n : ℕ} (h : x < 2 ^ n) : x &&& (2 ^ n - 1) = x := by
  rw [Nat.and_two_pow_sub_one_eq_mod, Nat.mod_eq_of_lt h]

theorem decrement_eq {x : ℕ} (h : 1 ≤ x) (hlt : x ≤ 1024) : decrement x = x - 1 := by
  rw [decrement, show UINT32_MAX = 4294967295 from rfl]
  omega

/-- A register with two fields of ten bits. -/
theorem twoFields (reg high low : ℕ) (hreg : reg < 256) (hhigh : high < 1024) (hlow : low < 1024) :
    regOf (reg <<< 24 ||| high <<< 10 ||| low <<< 0) = reg ∧
      field (reg <<< 24 ||| high <<< 10 ||| low <<< 0) 10 0 = low ∧
      field (reg <<< 24 ||| high <<< 10 ||| low <<< 0) 10 10 = high := by
  refine ⟨?_, ?_, ?_⟩
  · rw [regOf, field_or, field_or, field_shiftLeft hreg,
      field_shiftLeft_below (n := 10) hhigh (by decide),
      field_shiftLeft_below (n := 10) hlow (by decide), Nat.or_zero, Nat.or_zero]
  · rw [field_or, field_or, field_shiftLeft_above (by decide), field_shiftLeft_above (by decide),
      field_shiftLeft hlow, Nat.zero_or, Nat.zero_or]
  · rw [field_or, field_or, field_shiftLeft_above (by decide), field_shiftLeft hhigh,
      field_shiftLeft_below (n := 10) hlow (by decide), Nat.or_zero, Nat.zero_or]

theorem dispCopySrc_words {left top wd ht : ℕ} (hleft : left < 1024) (htop : top < 1024)
    (hwd : 1 ≤ wd ∧ wd ≤ 1024) (hht : 1 ≤ ht ∧ ht ≤ 1024) :
    dispCopySrcWords left top wd ht = [0x49 <<< 24 ||| top <<< 10 ||| left <<< 0,
      0x4A <<< 24 ||| (ht - 1) <<< 10 ||| (wd - 1) <<< 0] := by
  have hleft' : left &&& 0x3ff = left := and_lowBits (n := 10) hleft
  have htop' : top &&& 0x3ff = top := and_lowBits (n := 10) htop
  have hwd' : wd - 1 &&& 0x3ff = wd - 1 := and_lowBits (n := 10) (by omega)
  have hht' : (ht - 1) * 0x400 &&& (2 ^ 10 - 1) <<< 10 = (ht - 1) * 2 ^ 10 / 2 ^ 10 * 2 ^ 10 :=
    Arithmetic.and_highBits (by omega)
  rw [Nat.mul_div_cancel _ (by decide), ← Nat.shiftLeft_eq] at hht'
  rw [dispCopySrcWords, decrement_eq hwd.1 hwd.2, decrement_eq hht.1 hht.2, hleft', htop', hwd',
    show 0x000ffc00 = (2 ^ 10 - 1) <<< 10 from rfl, hht']
  rfl

theorem dispCopySrc_assigns {left top wd ht : ℕ} (hleft : left < 1024) (htop : top < 1024)
    (hwd : 1 ≤ wd ∧ wd ≤ 1024) (hht : 1 ≤ ht ∧ ht ≤ 1024) :
    Assigns (dispCopySrcWords left top wd ht)
      fun c => { c with dispSrcXY := (left, top), dispSrcSize := (wd, ht) } := by
  rw [dispCopySrc_words hleft htop hwd hht]
  obtain ⟨hreg, hlow, hhigh⟩ := twoFields 0x49 top left (by decide) htop hleft
  obtain ⟨hreg', hlow', hhigh'⟩ := twoFields 0x4A (ht - 1) (wd - 1)
    (by decide) (by omega) (by omega)
  generalize 0x49 <<< 24 ||| top <<< 10 ||| left <<< 0 = origin at hreg hlow hhigh ⊢
  generalize 0x4A <<< 24 ||| (ht - 1) <<< 10 ||| (wd - 1) <<< 0 = size at hreg' hlow' hhigh' ⊢
  have hxy (c : CopyState) : c.bp 0x49 (cached origin) = { c with dispSrcXY := (left, top) } := by
    show { c with dispSrcXY := (bpGet _ 10 0, bpGet _ 10 10) } = _
    rw [bpGet_cached (by decide), bpGet_cached (by decide), hlow, hhigh]
  have hwh (c : CopyState) : c.bp 0x4A (cached size) = { c with dispSrcSize := (wd, ht) } := by
    show { c with dispSrcSize := (bpGet _ 10 0 + 1, bpGet _ 10 10 + 1) } = _
    rw [bpGet_cached (by decide), bpGet_cached (by decide), hlow', hhigh',
      Nat.sub_add_cancel hwd.1, Nat.sub_add_cancel hht.1]
  have hregs : [origin, size].map regOf = [0x49, 0x4A] := by
    rw [List.map_cons, List.map_cons, List.map_nil, hreg, hreg']
  constructor
  · rw [Distinct, hregs]
    decide
  · simp only [List.forall_mem_cons, hreg, hreg']
    exact ⟨by decide, by decide, nofun⟩
  · simp only [List.forall_mem_cons, hreg, hreg']
    exact ⟨fun _ _ => rfl, fun _ _ => rfl, nofun⟩
  · simp only [List.forall_mem_cons, hreg, hreg']
    exact ⟨fun _ => hxy _, fun _ => hwh _, nofun⟩
  · intro c h
    simp only [List.forall_mem_cons, hreg, hreg', hxy, hwh] at h
    conv_rhs => rw [← h.1, ← h.2.1]
  · intro r v c
    obtain ⟨x, h⟩ | ⟨x, h⟩ | ⟨x, h⟩ | ⟨x, h⟩ | ⟨x, h⟩ | ⟨x, h⟩ | ⟨x, h⟩ | ⟨x, h⟩ | h :=
      CopyState.bp_cases r v
    all_goals rw [h, h]
  · simp only [List.forall_mem_cons, hreg, hreg']
    exact ⟨fun _ _ => rfl, fun _ _ => rfl, nofun⟩

theorem dispCopyDst_assigns {wd : ℕ} (hdvd : 16 ∣ wd) (hwd : wd < 16384) :
    Assigns (dispCopyDstWords wd) fun c => { c with dispDstWidth := wd } := by
  obtain ⟨blocks, rfl⟩ := hdvd
  have hmask : 16 * blocks &&& 0x7fff = 16 * blocks := and_lowBits (n := 15) (by omega)
  have hshift : (16 * blocks) <<< 1 >>> 5 = blocks := by
    rw [Nat.shiftLeft_eq, Nat.shiftRight_eq_div_pow]
    omega
  have hblocks : blocks &&& 0x3ff = blocks := and_lowBits (n := 10) (by omega)
  have hwords : dispCopyDstWords (16 * blocks) = [0x4D <<< 24 ||| 0 <<< 10 ||| blocks <<< 0] := by
    rw [dispCopyDstWords, hmask, hshift, hblocks]
    rfl
  rw [hwords]
  obtain ⟨hreg, hlow, -⟩ := twoFields 0x4D 0 blocks (by decide)
    (by decide) (by omega)
  generalize 0x4D <<< 24 ||| 0 <<< 10 ||| blocks <<< 0 = width at hreg hlow ⊢
  have hbp (c : CopyState) : c.bp 0x4D (cached width) = { c with dispDstWidth := 16 * blocks } := by
    show { c with dispDstWidth := bpGet _ 10 0 <<< 4 } = _
    rw [bpGet_cached (by decide), hlow, Nat.shiftLeft_eq, Nat.mul_comm]
  constructor
  · rw [Distinct, List.map_singleton, hreg]
    decide
  · simp only [List.forall_mem_singleton, hreg]
    decide
  · simp only [List.forall_mem_singleton, hreg]
    exact fun _ _ => rfl
  · simp only [List.forall_mem_singleton, hreg]
    exact fun _ => hbp _
  · intro c h
    simp only [List.forall_mem_cons, hreg, hbp] at h
    exact h.1
  · intro r v c
    obtain ⟨x, h⟩ | ⟨x, h⟩ | ⟨x, h⟩ | ⟨x, h⟩ | ⟨x, h⟩ | ⟨x, h⟩ | ⟨x, h⟩ | ⟨x, h⟩ | h :=
      CopyState.bp_cases r v
    all_goals rw [h, h]
  · simp only [List.forall_mem_singleton, hreg]
    exact fun _ _ => rfl

/-- A register with two bytes. -/
theorem SetsField.twoBytes {set : SetRegField} (hset : SetsField set) (reg : ℕ) (low high : UInt8)
    (hreg : reg < 256) :
    regOf (set (set (set 0 8 0 low.toNat) 8 8 high.toNat) 8 24 reg) = reg ∧
      field (set (set (set 0 8 0 low.toNat) 8 8 high.toNat) 8 24 reg) 8 0 = low.toNat ∧
      field (set (set (set 0 8 0 low.toNat) 8 8 high.toNat) 8 24 reg) 8 8 = high.toNat := by
  have hlow := low.toNat_lt
  have hhigh := high.toNat_lt
  refine ⟨hset.same _ _ _ _ (by decide) hreg, ?_, ?_⟩
  · rw [hset.apart _ _ _ _ _ _ (by decide) hreg (by decide) (by decide),
      hset.apart _ _ _ _ _ _ (by decide) hhigh (by decide) (by decide),
      hset.same _ _ _ _ (by decide) hlow]
  · rw [hset.apart _ _ _ _ _ _ (by decide) hreg (by decide) (by decide),
      hset.same _ _ _ _ (by decide) hhigh]

theorem copyClear_assigns {set : SetRegField} (hset : SetsField set) (color : GXColor) {depth : ℕ}
    (hdepth : depth < 2 ^ 24) : Assigns (copyClearWords set color depth) fun c =>
      { c with
        clearRedAlpha := (unorm8 color.r.toNat, unorm8 color.a.toNat)
        clearBlueGreen := (unorm8 color.b.toNat, unorm8 color.g.toNat)
        clearDepth := depth } := by
  obtain ⟨hreg, hr, ha⟩ := hset.twoBytes 0x4F color.r color.a (by decide)
  obtain ⟨hreg', hb, hg⟩ := hset.twoBytes 0x50 color.b color.g (by decide)
  have hreg'' : regOf (set (set 0 24 0 depth) 8 24 0x51) = 0x51 :=
    hset.same _ _ _ _ (by decide) (by decide)
  have hz : field (set (set 0 24 0 depth) 8 24 0x51) 24 0 = depth := by
    rw [hset.apart _ _ _ _ _ _ (by decide) (by decide) (by decide) (by decide),
      hset.same _ _ _ _ (by decide) hdepth]
  rw [copyClearWords]
  -- from here on only the register and the fields of each word matter
  generalize set (set (set 0 8 0 color.r.toNat) 8 8 color.a.toNat) 8 24 0x4F = reg0 at hreg hr ha ⊢
  generalize set (set (set 0 8 0 color.b.toNat) 8 8 color.g.toNat) 8 24 0x50 = reg1 at hreg' hb hg ⊢
  generalize set (set 0 24 0 depth) 8 24 0x51 = reg2 at hreg'' hz ⊢
  have hra (c : CopyState) : c.bp 0x4F (cached reg0) =
      { c with clearRedAlpha := (unorm8 color.r.toNat, unorm8 color.a.toNat) } := by
    show { c with clearRedAlpha := (unorm8 (bpGet _ 8 0), unorm8 (bpGet _ 8 8)) } = _
    rw [bpGet_cached (by decide), bpGet_cached (by decide), hr, ha]
  have hbg (c : CopyState) : c.bp 0x50 (cached reg1) =
      { c with clearBlueGreen := (unorm8 color.b.toNat, unorm8 color.g.toNat) } := by
    show { c with clearBlueGreen := (unorm8 (bpGet _ 8 0), unorm8 (bpGet _ 8 8)) } = _
    rw [bpGet_cached (by decide), bpGet_cached (by decide), hb, hg]
  have hd (c : CopyState) : c.bp 0x51 (cached reg2) = { c with clearDepth := depth } := by
    show { c with clearDepth := bpGet _ 24 0 } = _
    rw [bpGet_cached (by decide), hz]
  have hregs : [reg0, reg1, reg2].map regOf = [0x4F, 0x50, 0x51] := by
    rw [List.map_cons, List.map_cons, List.map_cons, List.map_nil, hreg, hreg', hreg'']
  constructor
  · rw [Distinct, hregs]
    decide
  · simp only [List.forall_mem_cons, hreg, hreg', hreg'']
    exact ⟨by decide, by decide, by decide, nofun⟩
  · simp only [List.forall_mem_cons, hreg, hreg', hreg'']
    exact ⟨fun _ _ => rfl, fun _ _ => rfl, fun _ _ => rfl, nofun⟩
  · simp only [List.forall_mem_cons, hreg, hreg', hreg'']
    exact ⟨fun _ => hra _, fun _ => hbg _, fun _ => hd _, nofun⟩
  · intro c h
    simp only [List.forall_mem_cons, hreg, hreg', hreg'', hra, hbg, hd] at h
    conv_rhs => rw [← h.1, ← h.2.1, ← h.2.2.1]
  · intro r v c
    obtain ⟨x, h⟩ | ⟨x, h⟩ | ⟨x, h⟩ | ⟨x, h⟩ | ⟨x, h⟩ | ⟨x, h⟩ | ⟨x, h⟩ | ⟨x, h⟩ | h :=
      -- the cases of the decoder set a field to a value of the word alone
      CopyState.bp_cases r v
    all_goals rw [h, h]
  · simp only [List.forall_mem_cons, hreg, hreg', hreg'']
    exact ⟨fun _ _ => rfl, fun _ _ => rfl, fun _ _ => rfl, nofun⟩

/-- A command whose fields are in the words, or assigned before, drained behind other commands. -/
theorem Assigns.drain {words : List ℕ} {into : CopyState → CopyState} (h : Assigns words into)
    {f g : Frontend} (hg : f.drain = .ok g) (hmask : g.state.bpRegCache 0xFE = 0x00ffffff)
    {copy : CopyState} (hinto : into copy = into f.state.decoded.copy)
    (hvouch : ∀ word ∈ words, Vouches CopyState.bp (regOf word) (cached word) f.state.bpRegCache copy)
    (height : ℕ) : ∃ state,
    Frontend.drain ⟨f.state.withCopies copy f.state.decoded.copyFilter, height,
      f.fifo ++ words.map .bp⟩ = .ok ⟨state, height, []⟩ ∧
    state.decoded = { g.state.decoded with copy := into g.state.decoded.copy } := by
  obtain ⟨state, hdrain, hdecoded, hcopy, hfilter, hcache⟩ :=
    drain_words hg h.regs copy f.state.decoded.copyFilter height
  refine ⟨state, hdrain, hdecoded.trans ?_⟩
  rw [hcache] at hmask
  have hkept : bpRun CopyFilter.bp f.state.bpRegCache (f.fifo ++ words.map .bp)
      f.state.decoded.copyFilter = g.state.decoded.copyFilter := by
    rw [bpRun_append, ← hfilter]
    exact bpRun_words (P := fun x => x = g.state.decoded.copyFilter)
      (fun word hword v x hx => (h.unfiltered word hword v x).trans hx) _ rfl
  rw [h.run hmask hinto hvouch, ← hcopy, hkept]

/-- A command that assigns what its words say. -/
theorem Assigns.drain_assigned {words : List ℕ} {into : CopyState → CopyState}
    (h : Assigns words into) {f g : Frontend} (hg : f.drain = .ok g)
    (hmask : g.state.bpRegCache 0xFE = 0x00ffffff) (height : ℕ) : ∃ state,
    Frontend.drain ⟨f.state.withCopies (into f.state.decoded.copy) f.state.decoded.copyFilter,
      height, f.fifo ++ words.map .bp⟩ = .ok ⟨state, height, []⟩ ∧
    state.decoded = { g.state.decoded with copy := into g.state.decoded.copy } :=
  h.drain hg hmask (h.fixed _ fun word hword => h.decodes word hword _)
    (fun word hword _ => h.decodes word hword _) height

/-! ### The copy filter -/

/-- The registers of the copy filter. -/
def copyFilterReg (r : ℕ) : Bool := (0x01 ≤ r && r ≤ 0x04) || r == 0x53 || r == 0x54

/-- Whether a word for the copy filter is decoded, of those in the FIFO. -/
def copyFilterDecoded (cache : ℕ → ℕ) (writes : List RegisterWrite) : Bool :=
  bpRun (fun r _ found => found || copyFilterReg r) cache writes false

/-- The flags say whether a position or a tap is not the default one. -/
def CopyFilter.FlagsAgree (f : CopyFilter) : Prop :=
  (f.aa = true ↔ ∃ i < 24, f.samplePattern i ≠ 6) ∧
    (f.vf = true ↔ ∃ i < 7, f.vFilter i ≠ [0, 0, 21, 22, 21, 0, 0].getD i 0)

theorem flagsAgree_iff (f : CopyFilter) : f.FlagsAgree ↔ refreshCopyFilterFlags f = f := by
  obtain ⟨pattern, taps, aa, vf⟩ := f
  have hany (n : ℕ) (x y : ℕ → ℕ) (flag : Bool) :
      (flag = true ↔ ∃ i < n, x i ≠ y i) ↔ ((List.range n).any fun i => x i != y i) = flag := by
    have hexists : ((List.range n).any fun i => x i != y i) = true ↔ ∃ i < n, x i ≠ y i := by
      simp only [List.any_eq_true, List.mem_range, bne_iff_ne]
    rw [← hexists, ← Bool.eq_iff_iff, eq_comm]
  simp only [CopyFilter.FlagsAgree, refreshCopyFilterFlags, CopyFilter.mk.injEq, true_and]
  exact and_congr (hany 24 pattern (fun _ => 6) aa) (hany 7 taps _ vf)

/-- The flags are computed from the rest. -/
theorem refreshCopyFilterFlags_bp (r v : ℕ) (f : CopyFilter) :
    refreshCopyFilterFlags (f.bp r v) = (refreshCopyFilterFlags f).bp r v := by
  simp only [CopyFilter.bp]
  split_ifs <;> rfl

theorem CopyFilter.bp_of_not_reg {r : ℕ} (h : copyFilterReg r = false) (v : ℕ) (f : CopyFilter) :
    f.bp r v = f := by
  simp only [copyFilterReg, Bool.or_eq_false_iff, Bool.and_eq_false_iff, decide_eq_false_iff_not,
    beq_eq_false_iff_ne] at h
  rw [bp, if_neg (by omega), if_neg h.1.2, if_neg h.2]

theorem CopyFilter.bp_refreshed {r : ℕ} (h : copyFilterReg r = true) (v : ℕ) (f : CopyFilter) :
    refreshCopyFilterFlags (f.bp r v) = f.bp r v := by
  simp only [copyFilterReg, Bool.or_eq_true, Bool.and_eq_true, decide_eq_true_eq, beq_iff_eq] at h
  rw [bp]
  split_ifs
  · rfl
  · rfl
  · rfl
  · omega

/-- A run leaves the filter as it is, or with flags that agree. -/
theorem copyFilterDecoded_run (cache : ℕ → ℕ) (writes : List RegisterWrite) (f : CopyFilter) :
    (copyFilterDecoded cache writes = true → refreshCopyFilterFlags
      (bpRun CopyFilter.bp cache writes f) = bpRun CopyFilter.bp cache writes f) ∧
    (copyFilterDecoded cache writes = false → bpRun CopyFilter.bp cache writes f = f) := by
  refine bpRun_rel (R := fun f' found => (found = true → refreshCopyFilterFlags f' = f') ∧
    (found = false → f' = f)) ?_ cache writes ⟨nofun, fun _ => rfl⟩
  intro r v f' found h
  cases hr : copyFilterReg r with
  | false =>
    rw [Bool.or_false, CopyFilter.bp_of_not_reg hr]
    exact h
  | true =>
    rw [Bool.or_true]
    exact ⟨fun _ => CopyFilter.bp_refreshed hr v f', nofun⟩

/-- Positions and taps in the range of the hardware. -/
def CopyFilter.InRange (f : CopyFilter) : Prop :=
  (∀ i < 24, f.samplePattern i < 16) ∧ ∀ i < 7, f.vFilter i < 64

theorem packCopyFilterSamples_eq (reg first : ℕ) (pattern : ℕ → ℕ) (hreg : reg < 256)
    (h : ∀ i < 6, pattern (first + i) < 16) :
    regOf (packCopyFilterSamples reg pattern first) = reg ∧
      ∀ i < 6, field (packCopyFilterSamples reg pattern first) 4 (i * 4) = pattern (first + i) := by
  have hsample (i : ℕ) (hi : i < 6) : pattern (first + i) &&& 0x0f < 2 ^ 4 := by
    have hsame : pattern (first + i) &&& 0x0f = pattern (first + i) := and_lowBits (n := 4) (h i hi)
    rw [hsame]
    exact h i hi
  have hpack : packCopyFilterSamples reg pattern first =
      pack (fun i => pattern (first + i) &&& 0x0f) 4 6 (reg <<< 24) := rfl
  rw [hpack]
  constructor
  · rw [regOf, field_pack_above hsample (by decide), field_shiftLeft hreg]
  · intro i hi
    rw [field_pack hsample hi (field_shiftLeft_above (by omega))]
    exact and_lowBits (n := 4) (h i hi)

/-- A register of up to four taps of six bits. -/
theorem packTaps (reg n : ℕ) (x : ℕ → ℕ) (hreg : reg < 256) (hn : n ≤ 4) (h : ∀ i < n, x i < 64) :
    regOf (pack x 6 n (reg <<< 24)) = reg ∧
      ∀ i < n, field (pack x 6 n (reg <<< 24)) 6 (i * 6) = x i := by
  constructor
  · rw [regOf, field_pack_above h (by omega), field_shiftLeft hreg]
  · intro i hi
    exact field_pack h hi (field_shiftLeft_above (by omega))

theorem packCopyFilter_eq {taps : ℕ → ℕ} (h : ∀ i < 7, taps i < 64) :
    packCopyFilter0 taps = pack taps 6 4 (0x53 <<< 24) ∧
      packCopyFilter1 taps = pack (fun i => taps (4 + i)) 6 3 (0x54 <<< 24) := by
  have htap (i : ℕ) (hi : i < 7) : taps i &&& 0x3f = taps i := and_lowBits (n := 6) (h i hi)
  constructor
  · rw [packCopyFilter0, htap 0 (by decide), htap 1 (by decide), htap 2 (by decide),
      htap 3 (by decide)]
    rfl
  · rw [packCopyFilter1, htap 4 (by decide), htap 5 (by decide), htap 6 (by decide)]
    rfl

/-- A part of the positions or of the taps. -/
theorem write_eq_self_of_field {a : ℕ → ℕ} {first size n word : ℕ} {x : ℕ → ℕ}
    (hfit : n * size ≤ 24) (hfield : ∀ i < n, field word size (i * size) = x i) :
    Overlay.write a first ((List.range n).map fun i => bpGet (cached word) size (i * size)) = a ↔
      ∀ i < n, a (first + i) = x i := by
  rw [Overlay.write_eq_self_iff]
  simp only [List.length_map, List.length_range, List.getElem_map, List.getElem_range]
  refine forall₂_congr fun i hi => ?_
  have hbound : i * size + size ≤ n * size := by
    rw [← Nat.succ_mul]
    exact Nat.mul_le_mul_right size hi
  rw [bpGet_cached (by omega), hfield i hi]

theorem refresh_pattern_iff (f : CopyFilter) (pattern : ℕ → ℕ) :
    refreshCopyFilterFlags { f with samplePattern := pattern } = f ↔
      pattern = f.samplePattern ∧ refreshCopyFilterFlags f = f := by
  constructor
  · intro h
    obtain rfl : pattern = f.samplePattern := congrArg CopyFilter.samplePattern h
    exact ⟨rfl, h⟩
  · rintro ⟨rfl, h⟩
    exact h

theorem refresh_taps_iff (f : CopyFilter) (taps : ℕ → ℕ) :
    refreshCopyFilterFlags { f with vFilter := taps } = f ↔
      taps = f.vFilter ∧ refreshCopyFilterFlags f = f := by
  constructor
  · intro h
    obtain rfl : taps = f.vFilter := congrArg CopyFilter.vFilter h
    exact ⟨rfl, h⟩
  · rintro ⟨rfl, h⟩
    exact h

theorem samples_fixed {f old : CopyFilter} {k : ℕ} (hk : k < 4)
    (hold : ∀ i < 24, old.samplePattern i < 16) :
    regOf (packCopyFilterSamples (k + 1) old.samplePattern (k * 6)) = k + 1 ∧
      (f.bp (k + 1) (cached (packCopyFilterSamples (k + 1) old.samplePattern (k * 6))) = f ↔
        (∀ i < 6, f.samplePattern (k * 6 + i) = old.samplePattern (k * 6 + i)) ∧
          refreshCopyFilterFlags f = f) := by
  obtain ⟨hreg, hfields⟩ := packCopyFilterSamples_eq (k + 1) (k * 6)
    old.samplePattern (by omega) fun i hi => hold _ (by omega)
  refine ⟨hreg, ?_⟩
  generalize packCopyFilterSamples (k + 1) old.samplePattern (k * 6) = word at hfields ⊢
  rw [CopyFilter.bp, if_pos (by omega), refresh_pattern_iff, Nat.add_sub_cancel]
  exact and_congr_left' (write_eq_self_of_field (by decide) hfields)

theorem taps_fixed {f old : CopyFilter} (hold : ∀ i < 7, old.vFilter i < 64) :
    (regOf (packCopyFilter0 old.vFilter) = 0x53 ∧ regOf (packCopyFilter1 old.vFilter) = 0x54) ∧
      (f.bp 0x53 (cached (packCopyFilter0 old.vFilter)) = f ↔
        (∀ i < 4, f.vFilter (0 + i) = old.vFilter i) ∧ refreshCopyFilterFlags f = f) ∧
      (f.bp 0x54 (cached (packCopyFilter1 old.vFilter)) = f ↔
        (∀ i < 3, f.vFilter (4 + i) = old.vFilter (4 + i)) ∧ refreshCopyFilterFlags f = f) := by
  obtain ⟨hpack0, hpack1⟩ := packCopyFilter_eq hold
  obtain ⟨hreg0, hfields0⟩ := packTaps 0x53 4 old.vFilter (by decide)
    (by decide) fun i hi => hold i (by omega)
  obtain ⟨hreg1, hfields1⟩ := packTaps 0x54 3 (fun i => old.vFilter (4 + i))
    (by decide) (by decide) fun i hi => hold _ (by omega)
  rw [hpack0, hpack1]
  refine ⟨⟨hreg0, hreg1⟩, ?_, ?_⟩
  · generalize pack old.vFilter 6 4 (0x53 <<< 24) = word at hfields0 ⊢
    show refreshCopyFilterFlags
      { f with
        vFilter := Overlay.write f.vFilter 0
          ((List.range 4).map fun i => bpGet (cached word) 6 (i * 6)) } = f ↔ _
    rw [refresh_taps_iff]
    exact and_congr_left' (write_eq_self_of_field (by decide) hfields0)
  · generalize pack (fun i => old.vFilter (4 + i)) 6 3 (0x54 <<< 24) = word at hfields1 ⊢
    show refreshCopyFilterFlags
      { f with
        vFilter := Overlay.write f.vFilter 4
          ((List.range 3).map fun i => bpGet (cached word) 6 (i * 6)) } = f ↔ _
    rw [refresh_taps_iff]
    exact and_congr_left' (write_eq_self_of_field (by decide) hfields1)

theorem copyFilterWords_regs {old : CopyFilter} (h : old.InRange) :
    (copyFilterWords old).map regOf = [1, 2, 3, 4, 0x53, 0x54] := by
  have hsample (k : ℕ) (hk : k < 4) := (samples_fixed (f := old) hk h.1).1
  obtain ⟨⟨h0, h1⟩, -⟩ := taps_fixed (f := old) h.2
  rw [copyFilterWords]
  simp only [List.map_cons, List.map_nil, hsample 0 (by decide), hsample 1 (by decide),
    hsample 2 (by decide), hsample 3 (by decide), h0, h1]

/-- The filter is as all words of a command say. -/
theorem copyFilterWords_fixed {f old : CopyFilter} (h : old.InRange) :
    (∀ word ∈ copyFilterWords old, f.bp (regOf word) (cached word) = f) ↔
      ((∀ i < 24, f.samplePattern i = old.samplePattern i) ∧
        ∀ i < 7, f.vFilter i = old.vFilter i) ∧ refreshCopyFilterFlags f = f := by
  have hsample (k : ℕ) (hk : k < 4) := samples_fixed (f := f) hk h.1
  obtain ⟨⟨hreg0, hreg1⟩, htaps0, htaps1⟩ := taps_fixed (f := f) h.2
  have hwords : copyFilterWords old = (List.range 4).map (fun k =>
      packCopyFilterSamples (k + 1) old.samplePattern (k * 6)) ++
        [packCopyFilter0 old.vFilter, packCopyFilter1 old.vFilter] := rfl
  rw [hwords]
  simp only [List.forall_mem_append, List.forall_mem_map, List.mem_range, List.forall_mem_cons,
    hreg0, hreg1, htaps0, htaps1]
  constructor
  · rintro ⟨hsamples, ⟨hlow, hflags⟩, ⟨hhigh, -⟩, -⟩
    refine ⟨⟨fun i hi => ?_, fun i hi => ?_⟩, hflags⟩
    · have hpart := hsamples (i / 6) (by omega)
      rw [(hsample (i / 6) (by omega)).1, (hsample (i / 6) (by omega)).2] at hpart
      have hi' := hpart.1 (i % 6) (Nat.mod_lt _ (by decide))
      rwa [Nat.div_add_mod' i 6] at hi'
    · by_cases hi4 : i < 4
      · have hi' := hlow i hi4
        rwa [Nat.zero_add] at hi'
      · have hi' := hhigh (i - 4) (by omega)
        rwa [Nat.add_sub_cancel' (by omega)] at hi'
  · rintro ⟨⟨hsamples, htaps⟩, hflags⟩
    refine ⟨fun k hk => ?_, ⟨fun i hi => ?_, hflags⟩, ⟨fun i hi => htaps _ (by omega), hflags⟩,
      nofun⟩
    · rw [(hsample k hk).1, (hsample k hk).2]
      exact ⟨fun i hi => hsamples _ (by omega), hflags⟩
    · rw [Nat.zero_add]
      exact htaps i (by omega)

/-- Positions and taps beyond the arrays are never written. -/
theorem CopyFilter.bp_outside (r v : ℕ) (f : CopyFilter) :
    (∀ i, 24 ≤ i → (f.bp r v).samplePattern i = f.samplePattern i) ∧
      ∀ i, 7 ≤ i → (f.bp r v).vFilter i = f.vFilter i := by
  simp only [bp]
  split_ifs with hsamples
  · refine ⟨fun i hi => Overlay.write_of_not_mem ?_, fun _ _ => rfl⟩
    simp only [List.length_map, List.length_range]
    omega
  · refine ⟨fun _ _ => rfl, fun i hi => ?_⟩
    show Overlay.write f.vFilter 0 _ i = f.vFilter i
    apply Overlay.write_of_not_mem
    simp only [List.length_cons, List.length_nil]
    omega
  · refine ⟨fun _ _ => rfl, fun i hi => ?_⟩
    show Overlay.write f.vFilter 4 _ i = f.vFilter i
    apply Overlay.write_of_not_mem
    simp only [List.length_cons, List.length_nil]
    omega
  · exact ⟨fun _ _ => rfl, fun _ _ => rfl⟩

/-- After a run that ends with the words for a filter, the positions and the taps are the stored
ones; the flags are if they agree with these, or if no word was decoded. -/
theorem copyFilter_run (cache : ℕ → ℕ) (writes : List RegisterWrite)
    (hmask : cacheRun cache writes 0xFE = 0x00ffffff) {f : CopyFilter} (hf : f.InRange) :
    bpRun CopyFilter.bp cache (writes ++ (copyFilterWords f).map .bp) f = f ↔
      f.FlagsAgree ∨ copyFilterDecoded cache (writes ++ (copyFilterWords f).map .bp) = false := by
  have hregs := copyFilterWords_regs hf
  have hdistinct : Distinct (copyFilterWords f) := by
    rw [Distinct, hregs]
    decide
  -- with flags that agree, the filter is as the words say from the start
  have hwords := settled CopyFilter.bp_separate hdistinct hmask (s := refreshCopyFilterFlags f)
    fun word hword _ => (copyFilterWords_fixed (f := refreshCopyFilterFlags f) hf).mpr
      ⟨⟨fun _ _ => rfl, fun _ _ => rfl⟩, rfl⟩ word hword
  obtain ⟨⟨hsamples, htaps⟩, -⟩ := (copyFilterWords_fixed hf).mp hwords
  have hrel : refreshCopyFilterFlags
      (bpRun CopyFilter.bp cache (writes ++ (copyFilterWords f).map .bp) f) =
        bpRun CopyFilter.bp cache (writes ++ (copyFilterWords f).map .bp)
          (refreshCopyFilterFlags f) :=
    bpRun_rel (R := fun x y => refreshCopyFilterFlags x = y)
      (fun r v x y hxy => hxy ▸ refreshCopyFilterFlags_bp r v x) cache _ rfl
  have houtside : (∀ i, 24 ≤ i → (bpRun CopyFilter.bp cache
        (writes ++ (copyFilterWords f).map .bp) f).samplePattern i = f.samplePattern i) ∧
      ∀ i, 7 ≤ i → (bpRun CopyFilter.bp cache
        (writes ++ (copyFilterWords f).map .bp) f).vFilter i = f.vFilter i := by
    refine bpRun_invariant (P := fun x : CopyFilter =>
      (∀ i, 24 ≤ i → x.samplePattern i = f.samplePattern i) ∧
        ∀ i, 7 ≤ i → x.vFilter i = f.vFilter i) ?_ cache _ ⟨fun _ _ => rfl, fun _ _ => rfl⟩
    intro r v x hx
    obtain ⟨hpattern, htaps⟩ := x.bp_outside r v
    exact ⟨fun i hi => (hpattern i hi).trans (hx.1 i hi), fun i hi => (htaps i hi).trans (hx.2 i hi)⟩
  rw [← hrel] at hsamples htaps
  obtain ⟨hdecoded, hdropped⟩ :=
    copyFilterDecoded_run cache (writes ++ (copyFilterWords f).map .bp) f
  generalize bpRun CopyFilter.bp cache (writes ++ (copyFilterWords f).map .bp) f = after at *
  have hpattern : after.samplePattern = f.samplePattern := by
    funext i
    rcases Nat.lt_or_ge i 24 with hi | hi
    · exact hsamples i hi
    · exact houtside.1 i hi
  have hvFilter : after.vFilter = f.vFilter := by
    funext i
    rcases Nat.lt_or_ge i 7 with hi | hi
    · exact htaps i hi
    · exact houtside.2 i hi
  have hsame : refreshCopyFilterFlags after = refreshCopyFilterFlags f := by
    rw [refreshCopyFilterFlags, refreshCopyFilterFlags, hpattern, hvFilter]
  cases hfound : copyFilterDecoded cache (writes ++ (copyFilterWords f).map .bp) with
  | false => exact iff_of_true (hdropped hfound) (.inr rfl)
  | true => rw [← hdecoded hfound, hsame, flagsAgree_iff, or_iff_left (by decide)]

/-! ### Runs -/

/-- The clear values, which no command assigns. -/
def CopyState.clear (c : CopyState) : (Float32 × Float32) × (Float32 × Float32) × ℕ :=
  (c.clearRedAlpha, c.clearBlueGreen, c.clearDepth)

def clearRegs : List ℕ := [0x4F, 0x50, 0x51]

/-- The FIFO before any command. -/
def Frontend.start (extent : GxRenderExtent) (nativePolicy : Bool) : Frontend :=
  ⟨.reset extent nativePolicy, 0, []⟩

/-- Commands are called, the FIFO takes register writes of other producers, and it is drained. What
else changes the state leaves the clear values and their cached words. -/
inductive Frontend.Reaches (set : SetRegField) (f₀ : Frontend) : Frontend → Prop
  | start : Reaches set f₀ f₀
  | call {f : Frontend} (c : CopyCall) : Reaches set f₀ f → Reaches set f₀ (c.apply set f)
  | write {f : Frontend} (writes : List RegisterWrite) :
    Reaches set f₀ f → Reaches set f₀ { f with fifo := f.fifo ++ writes }
  | drain {f g : Frontend} : Reaches set f₀ f → f.drain = .ok g → Reaches set f₀ g
  | other {f : Frontend} (state : GXRegisterState) (height : ℕ) : Reaches set f₀ f →
    state.decoded.copy.clear = f.state.decoded.copy.clear →
    (∀ r ∈ clearRegs, state.bpRegCache r = f.state.bpRegCache r) →
    Reaches set f₀ { f with state := state, dispCopyDstHeight := height }

/-- The cache vouches for the clear values. -/
def ClearHeld (s : GXRegisterState) : Prop :=
  ∀ r ∈ clearRegs, ∀ v ≠ 0, Vouches CopyState.bp r v s.bpRegCache s.decoded.copy

/-- Whether a word of a clear register is in the state is seen from the clear values. -/
theorem CopyState.bp_of_clear {r : ℕ} (hr : r ∈ clearRegs) {v : ℕ} {c c' : CopyState}
    (h : c'.clear = c.clear) (hc : c.bp r v = c) : c'.bp r v = c' := by
  obtain ⟨hra, hbg, hd⟩ : c'.clearRedAlpha = c.clearRedAlpha ∧
      c'.clearBlueGreen = c.clearBlueGreen ∧ c'.clearDepth = c.clearDepth := by
    simpa only [CopyState.clear, Prod.mk.injEq] using h
  simp only [clearRegs, List.mem_cons, List.not_mem_nil, or_false] at hr
  rcases hr with rfl | rfl | rfl
  · have hown := (congrArg CopyState.clearRedAlpha hc).trans hra.symm
    show { c' with clearRedAlpha := (c.bp 0x4F v).clearRedAlpha } = c'
    rw [hown]
  · have hown := (congrArg CopyState.clearBlueGreen hc).trans hbg.symm
    show { c' with clearBlueGreen := (c.bp 0x50 v).clearBlueGreen } = c'
    rw [hown]
  · have hown := (congrArg CopyState.clearDepth hc).trans hd.symm
    show { c' with clearDepth := (c.bp 0x51 v).clearDepth } = c'
    rw [hown]

theorem ClearHeld.of_clear {s t : GXRegisterState} (h : ClearHeld s)
    (hclear : t.decoded.copy.clear = s.decoded.copy.clear)
    (hcache : ∀ r ∈ clearRegs, t.bpRegCache r = s.bpRegCache r) : ClearHeld t := by
  intro r hr v hv hsame
  rw [hcache r hr] at hsame
  exact CopyState.bp_of_clear hr hclear (h r hr v hv hsame)

theorem ClearHeld.call {set : SetRegField} {f : Frontend} (h : ClearHeld f.state) (c : CopyCall) :
    ClearHeld (c.apply set f).state := by
  cases c <;> exact h.of_clear rfl fun _ _ => rfl

theorem ClearHeld.drain {f g : Frontend} (h : ClearHeld f.state) (hg : f.drain = .ok g) :
    ClearHeld g.state := by
  have hnone : ∀ word ∈ ([] : List ℕ), regOf word ∈ copyRegs := nofun
  obtain ⟨-, -, -, hcopy, -, hcache⟩ := drain_words hg hnone f.state.decoded.copy
    f.state.decoded.copyFilter 0
  intro r hr v hv
  have hFE : r ≠ 0xFE := by
    rintro rfl
    exact absurd hr (by decide)
  rw [hcopy, hcache]
  exact (h r hr v hv).run (CopyState.bp_separate r) hFE f.fifo

theorem Frontend.Reaches.clearHeld {set : SetRegField} {extent : GxRenderExtent}
    {nativePolicy : Bool} {f : Frontend} (h : Reaches set (Frontend.start extent nativePolicy) f) :
    ClearHeld f.state := by
  induction h with
  | start =>
    intro r hr v hv hsame
    have hFE : r ≠ 0xFE := by
      rintro rfl
      exact absurd hr (by decide)
    have hzero : (GXRegisterState.reset extent nativePolicy).bpRegCache r = 0 := by
      show Function.update (fun _ => 0) 0xFE 0x00ffffff r = 0
      rw [Function.update_of_ne hFE]
    exact absurd (hsame.symm.trans hzero) hv
  | call c _ ih => exact ih.call c
  | write _ _ ih => exact ih
  | drain _ hg ih => exact ih.drain hg
  | other _ _ _ hclear hcache ih => exact ih.of_clear hclear hcache

/-! ### Commands and their words -/

theorem cached_ne_zero {word : ℕ} (h : regOf word ≠ 0) : cached word ≠ 0 := by
  rw [cached]
  intro hzero
  exact h (Nat.shiftLeft_eq_zero_iff.mp (Nat.or_eq_zero_iff.mp hzero).1)

theorem copyClear_regs {set : SetRegField} (hset : SetsField set) (color : GXColor) (depth : ℕ) :
    ∀ word ∈ copyClearWords set color depth, regOf word ∈ clearRegs := by
  have hreg (reg value : ℕ) (h : value < 256) : regOf (set reg 8 24 value) = value :=
    hset.same _ _ _ _ (by decide) h
  simp [copyClearWords, hreg, clearRegs]

theorem storedCopyFilter_inRange {old : CopyFilter} {aa vf : Bool}
    {samplePattern vfilter : Option (ℕ → ℕ)}
    (h : (CopyCall.copyFilter aa samplePattern vf vfilter).InRange old) :
    (storedCopyFilter aa samplePattern vf vfilter old).InRange := by
  have hwritten {n bound : ℕ} {a : ℕ → ℕ} {values : List ℕ} (hlength : values.length = n)
      (hvalues : ∀ i (hi : i < values.length), values[i] < bound) :
      ∀ i < n, Overlay.write a 0 values i < bound := by
    intro i hi
    rw [Overlay.write_of_mem (Nat.zero_le i) (by omega)]
    exact hvalues _ _
  obtain ⟨hsamples, htaps⟩ := h
  constructor
  · cases aa with
    | false => exact hwritten rfl (by decide)
    | true =>
      cases samplePattern with
      | none => exact hsamples
      | some p => exact hwritten (by simp) (by simpa using hsamples)
  · cases vf with
    | false => exact hwritten rfl (by decide)
    | true =>
      cases vfilter with
      | none => exact htaps
      | some v => exact hwritten (by simp) (by simpa using htaps)

theorem copyFilterWords_copy {old : CopyFilter} (h : old.InRange) :
    ∀ word ∈ copyFilterWords old, regOf word ∈ copyRegs ∧
      ∀ v (c : CopyState), c.bp (regOf word) v = c := by
  have hregs := copyFilterWords_regs h
  intro word hword
  have hreg : regOf word ∈ [1, 2, 3, 4, 0x53, 0x54] := hregs ▸ List.mem_map_of_mem hword
  simp only [List.mem_cons, List.not_mem_nil, or_false] at hreg
  rcases hreg with hreg | hreg | hreg | hreg | hreg | hreg <;> rw [hreg] <;>
    exact ⟨by decide, fun _ _ => rfl⟩

/-- The flags of a call agree with what it stores, or no word for the filter is decoded. -/
def CopyCall.FlagsKept (f : Frontend) : CopyCall → Prop
  | copyFilter aa samplePattern vf vfilter =>
    (storedCopyFilter aa samplePattern vf vfilter f.state.decoded.copyFilter).FlagsAgree ∨
      copyFilterDecoded f.state.bpRegCache
        (GXSetCopyFilter aa samplePattern vf vfilter f).fifo = false
  | _ => True

/-- Draining the words of a copy command leaves the fields as its arguments say, and all others as
they are without it, if and only if the flags of the filter are kept. -/
theorem copy_commands_decode {set : SetRegField} (hset : SetsField set) {extent : GxRenderExtent}
    {nativePolicy : Bool} {f g : Frontend}
    (hf : Frontend.Reaches set (.start extent nativePolicy) f) (hg : f.drain = .ok g)
    (hmask : g.state.bpRegCache 0xFE = 0x00ffffff) {c : CopyCall}
    (hc : c.InRange f.state.decoded.copyFilter) :
    (∃ f', (c.apply set f).drain = .ok f' ∧
      f'.state.decoded = c.leaves f.state.decoded.copyFilter g.state.decoded ∧
      f'.dispCopyDstHeight = c.height f.dispCopyDstHeight) ↔ c.FlagsKept f := by
  cases c with
  | dispCopySrc left top wd ht =>
    obtain ⟨hleft, htop, hwd, hht⟩ := hc
    obtain ⟨state, hdrain, hdecoded⟩ := (dispCopySrc_assigns hleft htop hwd hht).drain_assigned hg
      hmask f.dispCopyDstHeight
    exact iff_of_true ⟨_, hdrain, hdecoded, rfl⟩ trivial
  | dispCopyDst wd ht =>
    obtain ⟨state, hdrain, hdecoded⟩ := (dispCopyDst_assigns hc.1 hc.2).drain_assigned hg hmask ht
    exact iff_of_true ⟨_, hdrain, hdecoded, rfl⟩ trivial
  | copyClear color depth =>
    have hheld : ClearHeld f.state := hf.clearHeld
    -- the clear registers hold what was assigned last, so that a word that is dropped says nothing
    have hvouch : ∀ word ∈ copyClearWords set color depth,
        Vouches CopyState.bp (regOf word) (cached word) f.state.bpRegCache f.state.decoded.copy := by
      intro word hword
      have hreg := copyClear_regs hset color depth word hword
      exact hheld _ hreg _ (cached_ne_zero fun hzero => by simp [hzero, clearRegs] at hreg)
    obtain ⟨state, hdrain, hdecoded⟩ := (copyClear_assigns hset color hc).drain hg hmask rfl hvouch
      f.dispCopyDstHeight
    exact iff_of_true ⟨_, hdrain, hdecoded, rfl⟩ trivial
  | copyFilter aa samplePattern vf vfilter =>
    have hstored := storedCopyFilter_inRange hc
    have hwords := copyFilterWords_copy hstored
    have hflags := copyFilter_run f.state.bpRegCache f.fifo
      (f := storedCopyFilter aa samplePattern vf vfilter f.state.decoded.copyFilter)
    obtain ⟨state, hdrain, hdecoded, hcopy, -, hcache⟩ := drain_words hg
      (fun word hword => (hwords word hword).1) f.state.decoded.copy
      (storedCopyFilter aa samplePattern vf vfilter f.state.decoded.copyFilter) f.dispCopyDstHeight
    rw [hcache] at hmask
    have hkept : bpRun CopyState.bp f.state.bpRegCache (f.fifo ++ (copyFilterWords
        -- the words of the filter decode nothing of the copy state
        (storedCopyFilter aa samplePattern vf vfilter f.state.decoded.copyFilter)).map .bp)
          f.state.decoded.copy = g.state.decoded.copy := by
      rw [bpRun_append, ← hcopy]
      exact bpRun_words (P := fun x => x = g.state.decoded.copy)
        (fun word hword v x hx => ((hwords word hword).2 v x).trans hx) _ rfl
    rw [hkept] at hdecoded
    refine Iff.trans ?_ (hflags hmask hstored)
    constructor
    · rintro ⟨f', hdrain', hdecoded', -⟩
      -- the run has one outcome, so that the filter it leaves is that of the words
      obtain rfl := Except.ok.inj (hdrain.symm.trans hdrain')
      exact congrArg Decoded.copyFilter (hdecoded.symm.trans hdecoded')
    · intro hsame
      rw [hsame] at hdecoded
      exact ⟨_, hdrain, hdecoded, rfl⟩

/-- The bits of the field are replaced in the register. -/
def insertField (reg size shift value : ℕ) : ℕ :=
  (reg &&& (UINT32_MAX ^^^ (2 ^ size - 1) <<< shift)) ||| (value % 2 ^ size) <<< shift

theorem testBit_field (word size shift i : ℕ) :
    (field word size shift).testBit i = (decide (i < size) && word.testBit (shift + i)) := by
  rw [field, Nat.testBit_mod_two_pow, Nat.testBit_shiftRight]

theorem insertField_sets : SetsField insertField where
  same := by
    intro reg size shift value hfit hvalue
    apply Nat.eq_of_testBit_eq
    intro i
    rw [insertField, field_or, field_shiftLeft (Nat.mod_lt _ (Nat.two_pow_pos size)),
      Nat.mod_eq_of_lt hvalue, Nat.testBit_or, testBit_field, Nat.testBit_and, Nat.testBit_xor,
      show UINT32_MAX = 2 ^ 32 - 1 from rfl, Nat.testBit_two_pow_sub_one, Nat.testBit_shiftLeft,
      Nat.testBit_two_pow_sub_one, Nat.add_sub_cancel_left]
    by_cases hi : i < size
    · simp [hi, show shift + i < 32 by omega]
    · simp [hi]
  apart := by
    intro reg size shift value n s hfit hvalue hbound hapart
    apply Nat.eq_of_testBit_eq
    intro i
    rw [insertField, testBit_field, testBit_field, Nat.testBit_or, Nat.testBit_and, Nat.testBit_xor,
      show UINT32_MAX = 2 ^ 32 - 1 from rfl, Nat.testBit_two_pow_sub_one, Nat.testBit_shiftLeft,
      Nat.testBit_two_pow_sub_one, Nat.testBit_shiftLeft, Nat.testBit_mod_two_pow]
    by_cases hi : i < n
    · rcases hapart with hbelow | habove
      · simp [hi, show s + i < 32 by omega, show ¬ shift ≤ s + i by omega]
      · simp [hi, show s + i < 32 by omega, show ¬ s + i - shift < size by omega]
    · simp [hi]

theorem copy_commands_decode_source :
    (∃ f', ((CopyCall.dispCopySrc 7 13 640 480).apply insertField
      (.start ⟨640, 480, 1280, 960⟩ false)).drain = .ok f' ∧
      f'.state.decoded = (CopyCall.dispCopySrc 7 13 640 480).leaves
        (Frontend.start ⟨640, 480, 1280, 960⟩ false).state.decoded.copyFilter
        (Frontend.start ⟨640, 480, 1280, 960⟩ false).state.decoded ∧
      f'.dispCopyDstHeight = 0) ↔
    (CopyCall.dispCopySrc 7 13 640 480).FlagsKept (.start ⟨640, 480, 1280, 960⟩ false) :=
  copy_commands_decode insertField_sets .start rfl rfl ⟨by decide, by decide, by decide, by decide⟩

/-- Anti-aliasing with the default positions: the decoder clears the flag. -/
theorem aa_flag_lost : ¬ ∀ (c : CopyCall) (f g : Frontend),
    Frontend.Reaches insertField (.start ⟨640, 480, 1280, 960⟩ false) f → f.drain = .ok g →
      g.state.bpRegCache 0xFE = 0x00ffffff → c.InRange f.state.decoded.copyFilter →
        ∃ f', (c.apply insertField f).drain = .ok f' ∧
          f'.state.decoded = c.leaves f.state.decoded.copyFilter g.state.decoded ∧
          f'.dispCopyDstHeight = c.height f.dispCopyDstHeight := by
  intro h
  have hrange : (CopyCall.copyFilter true (some fun _ => 6) false none).InRange
      (Frontend.start ⟨640, 480, 1280, 960⟩ false).state.decoded.copyFilter :=
    ⟨fun _ _ => show 6 < 16 by decide, fun _ _ => show 0 < 64 by decide⟩
  obtain ⟨f', hdrain, hdecoded, -⟩ := h _ _ _ .start rfl rfl hrange
  have hlost : Except.map (fun f => f.state.decoded.copyFilter.aa)
      ((CopyCall.copyFilter true (some fun _ => 6) false none).apply insertField
        (.start ⟨640, 480, 1280, 960⟩ false)).drain = .ok false := rfl
  rw [hdrain] at hlost
  have haa : f'.state.decoded.copyFilter.aa = true :=
    congrArg (fun d => d.copyFilter.aa) hdecoded
  exact absurd (haa.symm.trans (Except.ok.inj hlost)) (by decide)

end Gx
