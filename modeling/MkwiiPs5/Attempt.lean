import Mathlib.Data.Nat.Notation

/-!
# Attempts

A computation that returns a value or throws, and leaves a state in both cases: what holds of it
where it returns and where it throws, and the rule for one computation after another.
-/

/-- A value or an exception, with the state that is left. -/
abbrev Attempt (ε σ α : Type*) := Except ε α × σ

namespace Attempt

universe u v w

variable {ε ε' : Type u} {σ τ : Type v} {α β : Type w}

/-- Goes on with the value, unless there is an exception. -/
def andThen (r : Attempt ε σ α) (f : α → σ → Attempt ε σ β) : Attempt ε σ β :=
  match r with
  | (.ok a, s) => f a s
  | (.error e, s) => (.error e, s)

/-- Goes on with a handler where there is an exception. -/
def handle (r : Attempt ε σ α) (handler : ε → σ → Attempt ε σ α) : Attempt ε σ α :=
  match r with
  | (.ok a, s) => (.ok a, s)
  | (.error e, s) => handler e s

/-- A computation on a part of the state, which is put back in both cases. -/
def zoom (r : Attempt ε τ α) (error : ε → ε') (put : τ → σ) : Attempt ε' σ α :=
  (r.1.mapError error, put r.2)

/-- What holds where the computation returns, and where it throws. -/
def Post (r : Attempt ε σ α) (Q : α → σ → Prop) (E : σ → Prop) : Prop :=
  match r with
  | (.ok a, s) => Q a s
  | (.error _, s) => E s

variable {r : Attempt ε σ α} {f : α → σ → Attempt ε σ β} {Q Q' : α → σ → Prop}
variable {R : β → σ → Prop} {E E' : σ → Prop}

theorem post_ok {a : α} {s : σ} (h : Q a s) : Post ((.ok a, s) : Attempt ε σ α) Q E := h

theorem post_error {e : ε} {s : σ} (h : E s) : Post ((.error e, s) : Attempt ε σ α) Q E := h

theorem Post.mono (h : r.Post Q E) (himp : ∀ a s, Q a s → Q' a s) : r.Post Q' E := by
  obtain ⟨result, s⟩ := r
  cases result with
  | error e => exact h
  | ok a => exact himp a s h

theorem Post.imp (h : r.Post Q E) (hQ : ∀ a s, Q a s → Q' a s) (hE : ∀ s, E s → E' s) :
    r.Post Q' E' := by
  obtain ⟨result, s⟩ := r
  cases result with
  | error e => exact hE s h
  | ok a => exact hQ a s h

theorem Post.andThen (h : r.Post Q E) (hf : ∀ a s, Q a s → (f a s).Post R E) :
    (r.andThen f).Post R E := by
  obtain ⟨result, s⟩ := r
  cases result with
  | error e => exact h
  | ok a => exact hf a s h

theorem Post.handle {handler : ε → σ → Attempt ε σ α} (h : r.Post Q E)
    (hhandler : ∀ e s, E s → (handler e s).Post Q E') : (r.handle handler).Post Q E' := by
  obtain ⟨result, s⟩ := r
  cases result with
  | error e => exact hhandler e s h
  | ok a => exact h

theorem Post.zoom {r : Attempt ε τ α} {P : α → τ → Prop} {F : τ → Prop} {error : ε → ε'}
    {put : τ → σ} (h : r.Post P F) (hok : ∀ a t, P a t → Q a (put t))
    (herror : ∀ t, F t → E (put t)) : (r.zoom error put).Post Q E := by
  obtain ⟨result, t⟩ := r
  cases result with
  | error e => exact herror t h
  | ok a => exact hok a t h

theorem Post.and (h : r.Post Q E) (h' : r.Post Q' E') :
    r.Post (fun a s => Q a s ∧ Q' a s) fun s => E s ∧ E' s := by
  obtain ⟨result, s⟩ := r
  cases result with
  | error e => exact ⟨h, h'⟩
  | ok a => exact ⟨h, h'⟩

/-- An exception is one of the first computation, or of the second after the first returned. -/
theorem andThen_fst_eq_error {e : ε} : (r.andThen f).1 = .error e ↔
    r.1 = .error e ∨ ∃ a s, r = (.ok a, s) ∧ (f a s).1 = .error e := by
  obtain ⟨result, s⟩ := r
  cases result with
  | error e' => simp [Attempt.andThen]
  | ok a =>
    constructor
    · exact fun h => Or.inr ⟨a, s, rfl, h⟩
    · rintro (h | ⟨b, t, heq, h⟩)
      · cases h
      · obtain ⟨hvalue, rfl⟩ := Prod.mk.inj heq
        obtain rfl := Except.ok.inj hvalue
        exact h

theorem post_true (r : Attempt ε σ α) : r.Post (fun _ _ => True) fun _ => True := by
  obtain ⟨result, s⟩ := r
  cases result <;> trivial

/-- What holds in both cases holds of the state that is left. -/
theorem Post.left (h : r.Post Q E) (hQ : ∀ a s, Q a s → E s) : E r.2 := by
  obtain ⟨result, s⟩ := r
  cases result with
  | error e => exact h
  | ok a => exact hQ a s h

end Attempt
