import MkwiiPs5.Gx.CopyCommandRuns

/-!
# The write mask

A word to the mask register says which bits the next word to another register replaces. What
`handle_bp` keeps in its cache is what registers of 24 bits with such a mask would hold.
-/

namespace Gx

/-- Registers of 24 bits, with the mask that is in force. -/
@[ext]
structure BpRegisters where
  mask : BitVec 24
  values : ℕ → BitVec 24

/-- A write to a register: the mask that is in force, and the bits of the word. -/
structure MaskedWrite where
  mask : BitVec 24
  data : BitVec 24

/-- A write replaces the bits of its mask. -/
def MaskedWrite.apply (value : BitVec 24) (write : MaskedWrite) : BitVec 24 :=
  (value &&& ~~~write.mask) ||| (write.data &&& write.mask)

theorem MaskedWrite.getLsbD_apply (value : BitVec 24) (write : MaskedWrite) (k : ℕ) :
    (write.apply value).getLsbD k =
      if write.mask.getLsbD k then write.data.getLsbD k else value.getLsbD k := by
  rw [apply, BitVec.getLsbD_or, BitVec.getLsbD_and, BitVec.getLsbD_and, BitVec.getLsbD_not]
  by_cases hk : k < 24
  · cases write.mask.getLsbD k <;> simp [hk]
  · rw [BitVec.getLsbD_of_ge value k (Nat.not_lt.mp hk),
      BitVec.getLsbD_of_ge write.data k (Nat.not_lt.mp hk)]
    simp

def dataOf (word : ℕ) : BitVec 24 := .ofNat 24 word

/-- The mask that lets every bit through. -/
def openMask : BitVec 24 := BitVec.allOnes 24

/-- The writes of some words to a register, each with its mask. A word to the mask register sets
the mask for the next word to any other register. -/
def writesTo (r : ℕ) : BitVec 24 → List ℕ → List MaskedWrite
  | _, [] => []
  | mask, word :: words =>
    if regOf word = 0xFE then writesTo r (dataOf word) words
    else if regOf word = r then ⟨mask, dataOf word⟩ :: writesTo r openMask words
    else writesTo r openMask words

/-- The mask that is in force after some words. -/
def maskAfter : BitVec 24 → List ℕ → BitVec 24
  | mask, [] => mask
  | _, word :: words => maskAfter (if regOf word = 0xFE then dataOf word else openMask) words

namespace BpRegisters

def write (b : BpRegisters) (word : ℕ) : BpRegisters :=
  if regOf word = 0xFE then { b with mask := dataOf word }
  else
    { mask := openMask
      values := Function.update b.values (regOf word)
        (MaskedWrite.apply (b.values (regOf word)) ⟨b.mask, dataOf word⟩) }

def run (b : BpRegisters) (words : List ℕ) : BpRegisters := words.foldl write b

theorem write_mask (b : BpRegisters) (word : ℕ) :
    (b.write word).mask = if regOf word = 0xFE then dataOf word else openMask := by
  rw [write]
  split <;> rfl

/-- A word changes its own register only. -/
theorem write_values_of_ne (b : BpRegisters) {word r : ℕ} (h : r ≠ regOf word) :
    (b.write word).values r = b.values r := by
  rw [write]
  split
  · rfl
  · exact Function.update_of_ne h ..

/-- Each register holds the fold of its writes. -/
theorem run_values (b : BpRegisters) (words : List ℕ) (r : ℕ) :
    (b.run words).values r = (writesTo r b.mask words).foldl MaskedWrite.apply (b.values r) := by
  induction words generalizing b with
  | nil => rfl
  | cons word words ih =>
    show ((b.write word).run words).values r = _
    rw [ih, write_mask, writesTo]
    by_cases hFE : regOf word = 0xFE
    · rw [if_pos hFE, if_pos hFE, write, if_pos hFE]
    · rw [if_neg hFE, if_neg hFE]
      by_cases hr : regOf word = r
      · subst hr
        rw [if_pos rfl, List.foldl_cons, write, if_neg hFE]
        dsimp only
        rw [Function.update_self]
      · rw [if_neg hr, write_values_of_ne b (Ne.symm hr)]

theorem run_mask (b : BpRegisters) (words : List ℕ) :
    (b.run words).mask = maskAfter b.mask words := by
  induction words generalizing b with
  | nil => rfl
  | cons word words ih =>
    show ((b.write word).run words).mask = _
    rw [ih, write_mask, maskAfter]

end BpRegisters

/-! ### The cache -/

/-- The 24 bits that the cache holds for a register. -/
def stored (cache : ℕ → ℕ) (r : ℕ) : BitVec 24 := .ofNat 24 (cache r)

/-- A cache that holds what the registers hold, and the mask in the mask register. -/
structure Represents (cache : ℕ → ℕ) (b : BpRegisters) : Prop where
  mask : stored cache 0xFE = b.mask
  values : ∀ r, r ≠ 0xFE → stored cache r = b.values r

theorem testBit_UINT32_MAX {k : ℕ} (h : k < 24) : UINT32_MAX.testBit k = true := by
  rw [show UINT32_MAX = 2 ^ 32 - 1 from rfl, Nat.testBit_two_pow_sub_one]
  exact decide_eq_true (h.trans (by decide))

theorem testBit_24 {k : ℕ} (h : k < 24) : (0x00ffffff).testBit k = true := by
  rw [show 0x00ffffff = 2 ^ 24 - 1 from rfl, Nat.testBit_two_pow_sub_one]
  exact decide_eq_true h

/-- The number of the register, above the 24 bits, does not count. -/
theorem stored_mergeBp (cache : ℕ → ℕ) (word : ℕ) :
    BitVec.ofNat 24 (mergeBp cache word).2 =
      MaskedWrite.apply (stored cache (regOf word)) ⟨stored cache 0xFE, dataOf word⟩ := by
  apply BitVec.eq_of_getLsbD_eq
  intro k hk
  have hreg : ¬ 24 ≤ k := Nat.not_le.mpr hk
  rw [MaskedWrite.getLsbD_apply]
  simp only [mergeBp, regOf_eq, stored, dataOf, BitVec.getLsbD_ofNat, hk, decide_true,
    Bool.true_and, Nat.testBit_or, Nat.testBit_and, Nat.testBit_xor, Nat.testBit_shiftLeft,
    testBit_UINT32_MAX hk, testBit_24 hk, hreg, decide_false, Bool.false_and, Bool.false_or,
    Bool.and_true]
  cases (cache 0xFE).testBit k <;> simp

theorem stored_update_of_ne (cache : ℕ → ℕ) {r r' : ℕ} (h : r ≠ r') (value : ℕ) :
    stored (Function.update cache r' value) r = stored cache r := by
  rw [stored, Function.update_of_ne h, stored]

theorem stored_update (cache : ℕ → ℕ) (r value : ℕ) :
    stored (Function.update cache r value) r = .ofNat 24 value := by
  rw [stored, Function.update_self]

/-- A word does to the cache what it does to the registers. -/
theorem Represents.write {cache : ℕ → ℕ} {b : BpRegisters} (h : Represents cache b) (word : ℕ) :
    Represents (cacheAfter cache word) (b.write word) := by
  rw [cacheAfter, regOf_eq, BpRegisters.write]
  by_cases hFE : regOf word = 0xFE
  · rw [if_pos hFE, if_pos hFE]
    refine ⟨?_, fun r hr => ?_⟩
    · rw [stored_update]
      apply BitVec.eq_of_getLsbD_eq
      intro k hk
      simp only [dataOf, BitVec.getLsbD_ofNat, Nat.testBit_and, testBit_24 hk, Bool.and_true]
    · rw [stored_update_of_ne _ hr]
      exact h.values r hr
  · rw [if_neg hFE, if_neg hFE, mergeBp_fst]
    refine ⟨?_, fun r hr => ?_⟩
    · rw [stored_update_of_ne _ (Ne.symm hFE), stored_update]
      rfl
    · by_cases hword : r = regOf word
      · subst hword
        rw [stored_update, stored_mergeBp, h.mask, h.values _ hFE]
        exact (Function.update_self (f := b.values) ..).symm
      · rw [stored_update_of_ne _ hword, stored_update_of_ne _ hr, h.values r hr]
        exact (Function.update_of_ne hword ..).symm

/-- The words that are given to `handle_bp` one after another. -/
def bpWords (s : GXRegisterState) (words : List ℕ) : GXRegisterState :=
  words.foldl (fun s word => handleBp true word s) s

theorem Represents.bpWords {s : GXRegisterState} {b : BpRegisters}
    (h : Represents s.bpRegCache b) (words : List ℕ) :
    Represents (bpWords s words).bpRegCache (b.run words) := by
  induction words generalizing s b with
  | nil => exact h
  | cons word words ih =>
    apply ih
    rw [handleBp_bpRegCache]
    exact h.write word

/-- All registers are zero, and the mask is open. -/
def BpRegisters.reset : BpRegisters := ⟨openMask, fun _ => 0⟩

theorem represents_reset (extent : GxRenderExtent) (nativePolicy : Bool) :
    Represents (GXRegisterState.reset extent nativePolicy).bpRegCache .reset where
  mask := rfl
  values _ hr := stored_update_of_ne (fun _ => 0) hr _

/-- A word leaves the other registers alone. -/
theorem cacheAfter_of_ne (cache : ℕ → ℕ) {word r : ℕ} (h : r ≠ regOf word) (hFE : r ≠ 0xFE) :
    cacheAfter cache word r = cache r := by
  rw [cacheAfter]
  split
  · exact Function.update_of_ne hFE ..
  · rw [mergeBp_fst, Function.update_of_ne h, Function.update_of_ne hFE]

/-- Whatever words are given to `handle_bp`, each register holds the fold of its writes, each with
the mask that is in force, and a word changes no other register. -/
theorem one_shot_mask (extent : GxRenderExtent) (nativePolicy : Bool) (words : List ℕ) :
    let s := bpWords (.reset extent nativePolicy) words
    (∀ r, r ≠ 0xFE →
      stored s.bpRegCache r = (writesTo r openMask words).foldl MaskedWrite.apply 0) ∧
    stored s.bpRegCache 0xFE = maskAfter openMask words ∧
    ∀ word r, r ≠ regOf word → r ≠ 0xFE → (handleBp true word s).bpRegCache r = s.bpRegCache r := by
  have hrun := (represents_reset extent nativePolicy).bpWords words
  refine ⟨fun r hr => ?_, ?_, fun word r hr hFE => ?_⟩
  · rw [hrun.values r hr, BpRegisters.run_values]
    rfl
  · rw [hrun.mask, BpRegisters.run_mask]
    rfl
  · rw [handleBp_bpRegCache]
    exact cacheAfter_of_ne _ hr hFE

end Gx
