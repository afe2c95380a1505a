import Mathlib.Data.Fintype.Card
import Mathlib.Data.ZMod.Defs
import Mathlib.Logic.Function.Basic

/-!
# Tables with linear probing

A table of a fixed number of slots that are never emptied. A key is looked for from its own place on,
round the table, up to the first slot that is empty.
-/

namespace OpenAddressing

variable {n : ℕ} [NeZero n] {κ : Type*} [DecidableEq κ]

section Defs

variable (keys : Fin n → κ) (empty : κ) (hash : κ → Fin n)

/-- The first slot, from one on, that holds the key or nothing. -/
def probe (key : κ) : ℕ → Fin n → Option (Fin n)
  | 0, _ => none
  | fuel + 1, i => if keys i = key ∨ keys i = empty then some i else probe key fuel (i + 1)

/-- The slot of a key, unless the table is full of others. -/
def find (key : κ) : Option (Fin n) := probe keys empty key n (hash key)

/-- Each key stands where it is found: the slots from its place up to it hold others. -/
def Probed : Prop :=
  ∀ i, keys i ≠ empty → ∃ d < n, i = hash (keys i) + Fin.ofNat n d ∧
    ∀ e < d, keys (hash (keys i) + Fin.ofNat n e) ≠ keys i ∧
      keys (hash (keys i) + Fin.ofNat n e) ≠ empty

end Defs

variable {keys : Fin n → κ} {empty key : κ} {hash : κ → Fin n} {i j : Fin n}

theorem add_ofNat_succ (i : Fin n) (e : ℕ) :
    i + 1 + Fin.ofNat n e = i + Fin.ofNat n (e + 1) := by
  apply Fin.ext
  simp only [Fin.val_add, Fin.val_ofNat, Fin.val_one']
  rw [Nat.add_mod_mod, Nat.add_mod_mod, Nat.mod_add_mod, Nat.add_mod_mod]
  congr 1
  omega

theorem add_ofNat_zero (i : Fin n) : i + Fin.ofNat n 0 = i := by
  apply Fin.ext
  rw [Fin.val_add, Fin.val_ofNat, Nat.zero_mod, Nat.add_zero, Nat.mod_eq_of_lt i.isLt]

/-- A search ends at the first slot that holds the key or nothing. -/
theorem probe_of_path {d fuel : ℕ} (hd : d < fuel)
    (hstop : keys (i + Fin.ofNat n d) = key ∨ keys (i + Fin.ofNat n d) = empty)
    (hpath : ∀ e < d, keys (i + Fin.ofNat n e) ≠ key ∧ keys (i + Fin.ofNat n e) ≠ empty) :
    probe keys empty key fuel i = some (i + Fin.ofNat n d) := by
  obtain ⟨fuel, rfl⟩ := Nat.exists_eq_succ_of_ne_zero (Nat.ne_zero_of_lt hd)
  induction d generalizing i fuel with
  | zero =>
    rw [add_ofNat_zero] at hstop ⊢
    rw [probe, if_pos hstop]
  | succ d ih =>
    have hgo := hpath 0 (Nat.succ_pos d)
    rw [add_ofNat_zero] at hgo
    obtain ⟨fuel, rfl⟩ := Nat.exists_eq_succ_of_ne_zero
      (Nat.ne_zero_of_lt (Nat.lt_of_succ_lt_succ hd))
    rw [probe, if_neg (not_or.mpr hgo), ← add_ofNat_succ]
    rw [← add_ofNat_succ] at hstop
    refine ih hstop (fun e he => ?_) fuel (Nat.lt_of_succ_lt_succ hd)
    rw [add_ofNat_succ]
    exact hpath (e + 1) (Nat.succ_lt_succ he)

/-- A search that comes to no such slot fails. -/
theorem probe_eq_none {fuel : ℕ}
    (hpath : ∀ e < fuel, keys (i + Fin.ofNat n e) ≠ key ∧ keys (i + Fin.ofNat n e) ≠ empty) :
    probe keys empty key fuel i = none := by
  induction fuel generalizing i with
  | zero => rfl
  | succ fuel ih =>
    have hgo := hpath 0 (Nat.succ_pos fuel)
    rw [add_ofNat_zero] at hgo
    rw [probe, if_neg (not_or.mpr hgo)]
    refine ih fun e he => ?_
    rw [add_ofNat_succ]
    exact hpath (e + 1) (Nat.succ_lt_succ he)

theorem find_cases (keys : Fin n → κ) (empty : κ) (hash : κ → Fin n) (key : κ) :
    (∃ d < n, find keys empty hash key = some (hash key + Fin.ofNat n d) ∧
      (keys (hash key + Fin.ofNat n d) = key ∨ keys (hash key + Fin.ofNat n d) = empty) ∧
      ∀ e < d, keys (hash key + Fin.ofNat n e) ≠ key ∧
        keys (hash key + Fin.ofNat n e) ≠ empty) ∨
    find keys empty hash key = none ∧ ∀ i, keys i ≠ key ∧ keys i ≠ empty := by
  by_cases hstop : ∃ d < n, keys (hash key + Fin.ofNat n d) = key ∨
      keys (hash key + Fin.ofNat n d) = empty
  · obtain ⟨hd, hfirst⟩ := Nat.find_spec hstop
    have hpath : ∀ e < Nat.find hstop, keys (hash key + Fin.ofNat n e) ≠ key ∧
        keys (hash key + Fin.ofNat n e) ≠ empty := fun e he =>
      not_or.mp fun h => Nat.find_min hstop he ⟨he.trans hd, h⟩
    exact Or.inl ⟨_, hd, probe_of_path hd hfirst hpath, hfirst, hpath⟩
  · have hpath : ∀ e < n, keys (hash key + Fin.ofNat n e) ≠ key ∧
        keys (hash key + Fin.ofNat n e) ≠ empty := fun e he =>
      not_or.mp fun h => hstop ⟨e, he, h⟩
    refine Or.inr ⟨probe_eq_none hpath, fun i => ?_⟩
    -- every slot is passed on the way round
    have hround : hash key + Fin.ofNat n (i - hash key).val = i := by
      rw [Fin.ofNat_val_eq_self, add_sub_cancel]
    rw [← hround]
    exact hpath _ (i - hash key).isLt

/-- A key that stands in a table is found there. -/
theorem Probed.find_eq (h : Probed keys empty hash) (hi : keys i = key) (hkey : key ≠ empty) :
    find keys empty hash key = some i := by
  subst hi
  obtain ⟨d, hd, hplace, hpath⟩ := h i hkey
  have hprobe : probe keys empty (keys i) n (hash (keys i)) =
      some (hash (keys i) + Fin.ofNat n d) :=
    probe_of_path hd (Or.inl (congrArg keys hplace.symm)) hpath
  rw [find, hprobe, ← hplace]

/-- No key stands in two slots. -/
theorem Probed.injective (h : Probed keys empty hash) (hi : keys i ≠ empty)
    (heq : keys i = keys j) : i = j :=
  Option.some.inj ((h.find_eq rfl hi).symm.trans (h.find_eq heq.symm hi))

/-- A key is put where it is looked for. -/
theorem Probed.insert (h : Probed keys empty hash) (hfind : find keys empty hash key = some j) :
    Probed (Function.update keys j key) empty hash := by
  rcases find_cases keys empty hash key with ⟨d, hd, hfound, hstop, hpath⟩ | ⟨hnone, _⟩
  · obtain rfl := Option.some.inj (hfound.symm.trans hfind)
    rcases hstop with hstop | hstop
    · rwa [Function.update_eq_self_iff.mpr hstop.symm]
    -- no slot that a search has passed is the empty one
    have hkeep : ∀ i, keys i ≠ empty →
        Function.update keys (hash key + Fin.ofNat n d) key i = keys i := by
      rintro i hi
      refine Function.update_of_ne ?_ key keys
      rintro rfl
      exact hi hstop
    intro i hi
    by_cases heq : i = hash key + Fin.ofNat n d
    · subst heq
      rw [Function.update_self]
      refine ⟨d, hd, rfl, fun e he => ?_⟩
      rw [hkeep _ (hpath e he).2]
      exact hpath e he
    · rw [Function.update_of_ne heq] at hi ⊢
      obtain ⟨d', hd', hplace, hpath'⟩ := h i hi
      refine ⟨d', hd', hplace, fun e he => ?_⟩
      rw [hkeep _ (hpath' e he).2]
      exact hpath' e he
  · exact nomatch hnone.symm.trans hfind

/-- There is a slot for each key of a set that is not larger than the table. -/
theorem Probed.exists_find (h : Probed keys empty hash) {K : Finset κ} (hK : K.card ≤ n)
    (hkeys : ∀ i, keys i ≠ empty → keys i ∈ K) (hkey : key ∈ K) :
    ∃ j, find keys empty hash key = some j := by
  rcases find_cases keys empty hash key with ⟨d, _, hfound, _⟩ | ⟨_, hfull⟩
  · exact ⟨_, hfound⟩
  · exfalso
    have hinj : Set.InjOn keys (Finset.univ : Finset (Fin n)) :=
      fun i _ j _ heq => h.injective (hfull i).2 heq
    have hmaps : ∀ i ∈ (Finset.univ : Finset (Fin n)), keys i ∈ K.erase key :=
      fun i _ => Finset.mem_erase.mpr ⟨(hfull i).1, hkeys i (hfull i).2⟩
    have hle := Finset.card_le_card_of_injOn keys hmaps hinj
    have hpos := Finset.card_pos.mpr ⟨key, hkey⟩
    rw [Finset.card_erase_of_mem hkey, Finset.card_univ, Fintype.card_fin] at hle
    omega

end OpenAddressing
