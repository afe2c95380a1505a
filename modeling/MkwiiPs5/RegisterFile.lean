import Mathlib.Data.List.Pairwise
import Mathlib.Logic.Function.Basic
import MkwiiPs5.Overlay

/-!
# Register files

Words written to numbered registers are decoded into a state. A decoder may also read the words
last written to other registers. Where no register disturbs what another one has decoded to,
writing a word that a register holds already changes nothing.
-/

namespace RegisterFile

variable {ω σ : Type*}

/-- `d words r w s` is the state after word `w` went to register `r`; `words` holds the last
word of each register, `w` included. -/
abbrev Decoder (ω σ : Type*) := (ℕ → ω) → ℕ → ω → σ → σ

/-- The state holds what the word of the register decodes to. -/
def Holds (d : Decoder ω σ) (words : ℕ → ω) (r : ℕ) (s : σ) : Prop := d words r (words r) s = s

/-- The register holds its word once it is written, until it is written again. -/
structure Separate (d : Decoder ω σ) (r : ℕ) : Prop where
  again : ∀ words s, Holds d words r (d words r (words r) s)
  other : ∀ words r' w s, r ≠ r' → Holds d words r s →
    Holds d (Function.update words r' w) r (d (Function.update words r' w) r' w s)

/-- A decoder that reads one word only, and whose registers commute. -/
theorem Separate.of_comm {f : ℕ → ω → σ → σ} {r : ℕ}
    (again : ∀ w s, f r w (f r w s) = f r w s)
    (comm : ∀ r' w w' s, r ≠ r' → f r w (f r' w' s) = f r' w' (f r w s)) :
    Separate (fun _ => f) r where
  again := fun words s => again (words r) s
  other := by
    intro words r' w s hne h
    simp only [Holds] at h ⊢
    rw [Function.update_of_ne hne, comm r' _ _ _ hne, h]

/-- A decoder with a few registers, any two of which commute. -/
theorem Separate.of_pairwise {f : ℕ → ω → σ → σ} (regs : List ℕ)
    (inert : ∀ r ∉ regs, ∀ w s, f r w s = s)
    (again : ∀ r ∈ regs, ∀ w s, f r w (f r w s) = f r w s)
    (comm : regs.Pairwise fun r r' => ∀ w w' s, f r w (f r' w' s) = f r' w' (f r w s))
    (r : ℕ) : Separate (fun _ => f) r := by
  apply Separate.of_comm
  · intro w s
    by_cases hr : r ∈ regs
    · exact again r hr w s
    · rw [inert r hr]
  · intro r' w w' s hne
    by_cases hr : r ∈ regs
    · by_cases hr' : r' ∈ regs
      · have hsymm : Std.Symm fun r r' => ∀ w w' s, f r w (f r' w' s) = f r' w' (f r w s) :=
          ⟨fun _ _ h w w' s => (h w' w s).symm⟩
        exact comm.forall hr hr' hne w w' s
      · rw [inert r' hr', inert r' hr']
    · rw [inert r hr, inert r hr]

/-- The registers in `P` write a block of an array each. -/
def block {α : Type*} (P : ℕ → Prop) [DecidablePred P] (b : ℕ → ℕ) (data : ℕ → ω → List α)
    (r : ℕ) (w : ω) (a : ℕ → α) : ℕ → α :=
  if P r then Overlay.write a (b r) (data r w) else a

/-- Registers with apart blocks. -/
theorem Separate.block {α : Type*} {P : ℕ → Prop} [DecidablePred P] {b : ℕ → ℕ}
    {data : ℕ → ω → List α} (n : ℕ → ℕ) (hlen : ∀ r w, P r → (data r w).length = n r)
    (hapart : ∀ r r', P r → P r' → r ≠ r' → b r + n r ≤ b r' ∨ b r' + n r' ≤ b r) (r : ℕ) :
    Separate (fun _ => block P b data) r := by
  apply Separate.of_comm
  · intro w a
    simp only [RegisterFile.block]
    split
    · exact Overlay.write_write rfl
    · rfl
  · intro r' w w' a hne
    simp only [RegisterFile.block]
    by_cases hr : P r <;> by_cases hr' : P r' <;> simp only [hr, hr', if_true, if_false]
    apply Overlay.write_comm
    have h := hapart r r' hr hr' hne
    rw [Interval.Meets, hlen r w hr, hlen r' w' hr']
    omega

/-- A decoder that changes one element of an array. Registers that share an element commute. -/
theorem Separate.of_update {α : Type*} {f : ℕ → ω → (ℕ → α) → ℕ → α} {P : ℕ → ω → Prop}
    [∀ r, DecidablePred (P r)] {idx : ℕ → ℕ} {g : ℕ → ω → α → α}
    (hf : ∀ r w a, f r w a = if P r w then Function.update a (idx r) (g r w (a (idx r))) else a)
    (again : ∀ r w x, P r w → g r w (g r w x) = g r w x)
    (comm : ∀ r r' w w' x, r ≠ r' → P r w → P r' w' → idx r = idx r' →
      g r w (g r' w' x) = g r' w' (g r w x)) (r : ℕ) : Separate (fun _ => f) r := by
  apply Separate.of_comm
  · intro w a
    simp only [hf]
    split
    · rename_i hr
      rw [Function.update_self, again r w _ hr, Function.update_idem]
    · rfl
  · intro r' w w' a hne
    simp only [hf]
    by_cases hr : P r w <;> by_cases hr' : P r' w' <;> simp only [hr, hr', if_true, if_false]
    by_cases hidx : idx r = idx r'
    · rw [hidx, Function.update_self, Function.update_self, Function.update_idem,
        Function.update_idem, comm r r' w w' _ hne hr hr' hidx]
    · rw [Function.update_of_ne hidx, Function.update_of_ne (Ne.symm hidx),
        Function.update_comm hidx]

/-- Two parts of a state, each with its decoder. -/
theorem Separate.prod {τ : Type*} {d : Decoder ω σ} {e : Decoder ω τ} {r : ℕ}
    (hd : Separate d r) (he : Separate e r) :
    Separate (fun words r w (s : σ × τ) => (d words r w s.1, e words r w s.2)) r where
  again := fun words s => Prod.ext (hd.again words s.1) (he.again words s.2)
  other := fun words r' w s hne h => Prod.ext
    (hd.other words r' w s.1 hne (Prod.ext_iff.1 h).1)
    (he.other words r' w s.2 hne (Prod.ext_iff.1 h).2)

/-- What a register holds, by the part of the state that it changes. -/
theorem Holds.iff_part {τ : Type*} {d : Decoder ω σ} {e : Decoder ω τ} {words : ℕ → ω} {r : ℕ}
    {s : σ} (part : σ → τ) (hpart : part (d words r (words r) s) = e words r (words r) (part s))
    (hsame : e words r (words r) (part s) = part s → d words r (words r) s = s) :
    Holds d words r s ↔ Holds e words r (part s) :=
  ⟨fun h => by rw [Holds, ← hpart, h], hsame⟩

/-- A decoder that works on a part of the state; the register changes nothing else. -/
theorem Separate.of_part {τ : Type*} {d : Decoder ω σ} {e : Decoder ω τ} {r : ℕ} (part : σ → τ)
    (hpart : ∀ words r w s, part (d words r w s) = e words r w (part s))
    (hsame : ∀ words w s, e words r w (part s) = part s → d words r w s = s)
    (he : Separate e r) : Separate d r where
  again := by
    intro words s
    rw [Holds.iff_part part (hpart _ _ _ _) (hsame _ _ _), hpart]
    exact he.again words (part s)
  other := by
    intro words r' w s hne h
    rw [Holds.iff_part part (hpart _ _ _ _) (hsame _ _ _)] at h ⊢
    rw [hpart]
    exact he.other words r' w (part s) hne h

theorem Separate.of_injective {τ : Type*} {d : Decoder ω σ} {e : Decoder ω τ} (part : σ → τ)
    (hinj : Function.Injective part)
    (hpart : ∀ words r w s, part (d words r w s) = e words r w (part s)) {r : ℕ}
    (he : Separate e r) : Separate d r :=
  he.of_part part hpart fun words w s h => hinj ((hpart words r w s).trans h)

/-- After a write the register holds its word, and others hold theirs as before. -/
theorem Separate.write {d : Decoder ω σ} {words : ℕ → ω} {q r : ℕ} {w : ω} {s : σ}
    (hq : Separate d q) (h : q ≠ r → Holds d words q s) :
    Holds d (Function.update words r w) q (d (Function.update words r w) r w s) := by
  by_cases hqr : q = r
  · subst hqr
    have := hq.again (Function.update words q w) s
    rwa [Function.update_self] at this
  · exact hq.other words r w s hqr (h hqr)

/-- A write that is not kept, to a decoder that reads one word only. -/
theorem Separate.write_other {f : ℕ → ω → σ → σ} {words : ℕ → ω} {q r : ℕ} {s : σ}
    (hq : Separate (fun _ => f) q) (hne : q ≠ r) (w : ω) (h : Holds (fun _ => f) words q s) :
    Holds (fun _ => f) words q (f r w s) := by
  have := hq.other words r w s hne h
  rwa [Holds, Function.update_of_ne hne] at this

end RegisterFile
