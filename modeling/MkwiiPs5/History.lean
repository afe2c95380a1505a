import Mathlib.Data.List.Basic

/-!
# Histories

A history lists events, the newest first. It is good if each event is good after those before it.
-/

namespace History

variable {ε : Type*} {good good' : ε → List ε → Prop}

/-- Each event is good after those before it. -/
def Ok (good : ε → List ε → Prop) : List ε → Prop
  | [] => True
  | e :: past => good e past ∧ Ok good past

@[simp] theorem ok_nil : Ok good [] := trivial

@[simp] theorem ok_cons {e : ε} {past : List ε} :
    Ok good (e :: past) ↔ good e past ∧ Ok good past := Iff.rfl

theorem Ok.of_append {new old : List ε} (h : Ok good (new ++ old)) : Ok good old := by
  induction new with
  | nil => exact h
  | cons e new ih => exact ih h.2

/-- Good histories, by the places at which an event stands. -/
theorem ok_iff {log : List ε} :
    Ok good log ↔ ∀ after e before, log = after ++ e :: before → good e before := by
  constructor
  · rintro h after e before rfl
    exact h.of_append.1
  · intro h
    induction log with
    | nil => exact ok_nil
    | cons e past ih =>
      refine ⟨h [] e past rfl, ih ?_⟩
      rintro after e' before rfl
      exact h (e :: after) e' before rfl

/-- Something of a kind happened: now or before. -/
theorem exists_mem_cons {α : Type*} {c : α → ε} {p : α → Prop} {e : ε} {past : List ε} :
    (∃ a, c a ∈ e :: past ∧ p a) ↔ (∃ a, e = c a ∧ p a) ∨ ∃ a, c a ∈ past ∧ p a := by
  constructor
  · rintro ⟨a, hmem, ha⟩
    rcases List.mem_cons.mp hmem with heq | hmem
    · exact Or.inl ⟨a, heq.symm, ha⟩
    · exact Or.inr ⟨a, hmem, ha⟩
  · rintro (⟨a, rfl, ha⟩ | ⟨a, hmem, ha⟩)
    · exact ⟨a, List.mem_cons_self, ha⟩
    · exact ⟨a, List.mem_cons_of_mem _ hmem, ha⟩

end History
