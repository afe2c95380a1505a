import Mathlib.Data.List.Basic
import Mathlib.Data.Nat.Notation

/-!
# Loops that may fail

Rules for loops in `Except`: what a loop that succeeds leaves, and when a loop succeeds.
-/

namespace Loop

universe u v

variable {ε : Type v} {α β σ : Type u}

theorem bind_eq_ok {x : Except ε α} {f : α → Except ε β} {b : β} :
    x >>= f = .ok b ↔ ∃ a, x = .ok a ∧ f a = .ok b := by
  cases x with
  | error e => exact ⟨nofun, nofun⟩
  | ok a => exact ⟨fun h => ⟨a, rfl, h⟩, fun ⟨_, h, hf⟩ => Except.ok.inj h ▸ hf⟩

/-- A computation succeeds where both parts do. -/
theorem exists_bind {x : Except ε α} {f : α → Except ε β} {a : α} (hx : x = .ok a)
    (hf : ∃ b, f a = .ok b) : ∃ b, x >>= f = .ok b :=
  hf.imp fun _ hb => bind_eq_ok.2 ⟨a, hx, hb⟩

/-- A loop over numbers that succeeds: `P i` holds before turn `i`. -/
theorem foldlM_range_invariant {f : σ → ℕ → Except ε σ} (P : ℕ → σ → Prop) {n : ℕ} {s t : σ}
    (hloop : (List.range n).foldlM f s = .ok t) (h0 : P 0 s)
    (hstep : ∀ i < n, ∀ s s', P i s → f s i = .ok s' → P (i + 1) s') : P n t := by
  induction n generalizing t with
  | zero =>
    obtain rfl := Except.ok.inj hloop
    exact h0
  | succ n ih =>
    rw [List.range_succ, List.foldlM_append, bind_eq_ok] at hloop
    obtain ⟨u, hu, hlast⟩ := hloop
    rw [List.foldlM_cons, bind_eq_ok] at hlast
    obtain ⟨t', ht', hnil⟩ := hlast
    obtain rfl := Except.ok.inj hnil
    exact hstep n (by omega) u t' (ih hu fun i hi => hstep i (by omega)) ht'

/-- A loop over numbers whose turns succeed. -/
theorem foldlM_range_total {f : σ → ℕ → Except ε σ} (P : ℕ → σ → Prop) {n : ℕ} {s : σ} (h0 : P 0 s)
    (hstep : ∀ i < n, ∀ s, P i s → ∃ s', f s i = .ok s' ∧ P (i + 1) s') :
    ∃ t, (List.range n).foldlM f s = .ok t ∧ P n t := by
  induction n with
  | zero => exact ⟨s, rfl, h0⟩
  | succ n ih =>
    obtain ⟨u, hu, hP⟩ := ih fun i hi => hstep i (by omega)
    obtain ⟨t, ht, hPt⟩ := hstep n (by omega) u hP
    refine ⟨t, ?_, hPt⟩
    rw [List.range_succ, List.foldlM_append, bind_eq_ok]
    exact ⟨u, hu, by rw [List.foldlM_cons, ht]; rfl⟩

/-- A loop over a list that succeeds, with what holds after every turn. -/
theorem foldlM_invariant {f : σ → α → Except ε σ} (P : σ → Prop) {l : List α} {s t : σ}
    (hloop : l.foldlM f s = .ok t) (h0 : P s)
    (hstep : ∀ a ∈ l, ∀ s s', P s → f s a = .ok s' → P s') : P t := by
  induction l generalizing s with
  | nil =>
    obtain rfl := Except.ok.inj hloop
    exact h0
  | cons a l ih =>
    rw [List.foldlM_cons, bind_eq_ok] at hloop
    obtain ⟨u, hu, hrest⟩ := hloop
    exact ih hrest (hstep a List.mem_cons_self s u h0 hu)
      fun b hb => hstep b (List.mem_cons_of_mem a hb)

/-- A loop whose every turn settles its element, and keeps what is settled. -/
theorem foldlM_collect {f : σ → α → Except ε σ} (Q : α → σ → Prop) {l : List α} {s t : σ}
    (hloop : l.foldlM f s = .ok t)
    (hstep : ∀ a ∈ l, ∀ s s', f s a = .ok s' → Q a s' ∧ ∀ b, Q b s → Q b s') :
    (∀ a ∈ l, Q a t) ∧ ∀ b, Q b s → Q b t := by
  induction l generalizing s with
  | nil =>
    obtain rfl := Except.ok.inj hloop
    exact ⟨fun _ ha => (nomatch ha), fun _ h => h⟩
  | cons a l ih =>
    rw [List.foldlM_cons, bind_eq_ok] at hloop
    obtain ⟨u, hu, hrest⟩ := hloop
    obtain ⟨hnew, hkeep⟩ := hstep a List.mem_cons_self s u hu
    obtain ⟨hall, hkept⟩ := ih hrest fun b hb => hstep b (List.mem_cons_of_mem a hb)
    refine ⟨fun b hb => ?_, fun b hb => hkept b (hkeep b hb)⟩
    rcases List.mem_cons.1 hb with rfl | hb
    · exact hkept b hnew
    · exact hall b hb

/-- A loop that fills a table at the keys that pass `p`. -/
theorem foldlM_update {κ : Type u} [DecidableEq κ] {p : κ → Bool} {f : κ → Except ε β} {l : List κ}
    {m t : κ → β} (hl : l.Nodup)
    (hloop : l.foldlM (fun m a => if p a then do pure (Function.update m a (← f a)) else pure m) m =
      .ok t) :
    (∀ a ∈ l, p a = true → f a = .ok (t a)) ∧ ∀ a ∉ l, t a = m a := by
  induction l generalizing m with
  | nil =>
    obtain rfl := Except.ok.inj hloop
    exact ⟨fun _ ha => (nomatch ha), fun _ _ => rfl⟩
  | cons a l ih =>
    rw [List.foldlM_cons, bind_eq_ok] at hloop
    obtain ⟨u, hu, hrest⟩ := hloop
    obtain ⟨hnew, hl⟩ := List.nodup_cons.1 hl
    obtain ⟨hkeys, hothers⟩ := ih hl hrest
    have hstep : (p a = true → f a = .ok (u a)) ∧ ∀ b ≠ a, u b = m b := by
      split at hu
      · obtain ⟨x, hx, hux⟩ := bind_eq_ok.1 hu
        obtain rfl := Except.ok.inj hux
        exact ⟨fun _ => by rw [hx, Function.update_self],
          fun b hb => Function.update_of_ne hb _ _⟩
      · next hp =>
        obtain rfl := Except.ok.inj hu
        exact ⟨fun hp' => absurd hp' hp, fun _ _ => rfl⟩
    refine ⟨fun b hb hp => ?_, fun b hb => ?_⟩
    · rcases List.mem_cons.1 hb with rfl | hb
      · rw [hothers b hnew]
        exact hstep.1 hp
      · exact hkeys b hb hp
    · rw [List.mem_cons, not_or] at hb
      rw [hothers b hb.2, hstep.2 b hb.1]

/-- A loop that fills a table at all keys. -/
theorem foldlM_fill {κ : Type u} [DecidableEq κ] {f : κ → Except ε β} {l : List κ} {m t : κ → β}
    (hl : l.Nodup)
    (hloop : l.foldlM (fun m a => do pure (Function.update m a (← f a))) m = .ok t) :
    (∀ a ∈ l, f a = .ok (t a)) ∧ ∀ a ∉ l, t a = m a := by
  obtain ⟨hkeys, hothers⟩ := foldlM_update (p := fun _ => true) hl hloop
  exact ⟨fun a ha => hkeys a ha rfl, hothers⟩

/-- A map whose steps succeed. -/
theorem mapM_ok {f : α → Except ε β} {g : α → β} (l : List α) (h : ∀ a ∈ l, f a = .ok (g a)) :
    l.mapM f = .ok (l.map g) := by
  induction l with
  | nil => rfl
  | cons a l ih =>
    rw [List.mapM_cons, h a List.mem_cons_self, ih fun b hb => h b (List.mem_cons_of_mem a hb)]
    rfl

/-! ### Results and failures -/

/-- What holds of the result, and of a failure. -/
def Post (r : Except ε α) (Q : α → Prop) (E : ε → Prop) : Prop :=
  match r with
  | .ok a => Q a
  | .error e => E e

variable {Q Q' : α → Prop} {R : β → Prop} {E : ε → Prop}

theorem Post.mono {r : Except ε α} (h : Post r Q E) (himp : ∀ a, Q a → Q' a) : Post r Q' E := by
  cases r with
  | error e => exact h
  | ok a => exact himp a h

theorem Post.bind {x : Except ε α} {f : α → Except ε β} (h : Post x Q E)
    (hf : ∀ a, Q a → Post (f a) R E) : Post (x >>= f) R E := by
  cases x with
  | error e => exact h
  | ok a => exact hf a h

theorem Post.ne_error {r : Except ε α} {e : ε} (h : Post r Q (· ≠ e)) : r ≠ .error e := by
  rintro rfl
  exact h rfl

theorem foldlM_range_post {f : σ → ℕ → Except ε σ} (P : ℕ → σ → Prop) {n : ℕ} {s : σ} (h0 : P 0 s)
    (hstep : ∀ i < n, ∀ s, P i s → Post (f s i) (P (i + 1)) E) :
    Post ((List.range n).foldlM f s) (P n) E := by
  induction n with
  | zero => exact h0
  | succ n ih =>
    rw [List.range_succ, List.foldlM_append]
    refine (ih fun i hi => hstep i (Nat.lt_succ_of_lt hi)).bind fun s hs => ?_
    rw [List.foldlM_cons]
    exact (hstep n (Nat.lt_succ_self n) s hs).bind fun s' hs' => hs'

theorem foldlM_post {f : σ → α → Except ε σ} (P : σ → Prop) {l : List α} {s : σ} (h0 : P s)
    (hstep : ∀ a ∈ l, ∀ s, P s → Post (f s a) P E) : Post (l.foldlM f s) P E := by
  induction l generalizing s with
  | nil => exact h0
  | cons a l ih =>
    rw [List.foldlM_cons]
    exact (hstep a List.mem_cons_self s h0).bind fun s' hs' =>
      ih hs' fun b hb => hstep b (List.mem_cons_of_mem a hb)

/-- Computations that agree where the first part succeeds. -/
theorem bind_congr {x : Except ε α} {f g : α → Except ε β} (h : ∀ a, x = .ok a → f a = g a) :
    x >>= f = x >>= g := by
  cases x with
  | error e => rfl
  | ok a => exact h a rfl

theorem foldlM_congr {f g : σ → α → Except ε σ} {l : List α} (h : ∀ a ∈ l, ∀ s, f s a = g s a)
    (s : σ) : l.foldlM f s = l.foldlM g s := by
  induction l generalizing s with
  | nil => rfl
  | cons a l ih =>
    rw [List.foldlM_cons, List.foldlM_cons, h a List.mem_cons_self s]
    exact bind_congr fun s' _ => ih (fun b hb => h b (List.mem_cons_of_mem a hb)) s'

/-! ### Counted loops -/

/-- `for (v = first; more(v); v = next(v)) turn(v)`; `none` stands for more turns than `fuel`. -/
def forLoop (more : ℕ → Bool) (next : ℕ → ℕ) (turn : σ → ℕ → Except ε σ) :
    ℕ → ℕ → σ → Option (Except ε σ)
  | 0, _, _ => none
  | fuel + 1, v, s =>
    if more v then
      match turn s v with
      | .error e => some (.error e)
      | .ok s => forLoop more next turn fuel (next v) s
    else some (.ok s)

/-- The values that a loop visits. -/
structure Visits (more : ℕ → Bool) (next visit : ℕ → ℕ) (n : ℕ) : Prop where
  continues : ∀ i < n, more (visit i) = true
  advances : ∀ i < n, next (visit i) = visit (i + 1)
  stops : more (visit n) = false

/-- A loop whose turns succeed: `P i` holds before turn `i`. -/
theorem forLoop_total {more : ℕ → Bool} {next visit : ℕ → ℕ} {turn : σ → ℕ → Except ε σ} {n : ℕ}
    (hvisits : Visits more next visit n) (P : ℕ → σ → Prop) {s : σ} (h0 : P 0 s)
    (hturn : ∀ i < n, ∀ s, P i s → ∃ s', turn s (visit i) = .ok s' ∧ P (i + 1) s') :
    ∃ t, P n t ∧ ∀ fuel, n < fuel → forLoop more next turn fuel (visit 0) s = some (.ok t) := by
  -- from turn `j` on, by induction on the turns that are left
  have hrest : ∀ k j s, j + k = n → P j s → ∃ t, P n t ∧
      ∀ fuel, k < fuel → forLoop more next turn fuel (visit j) s = some (.ok t) := by
    intro k
    induction k with
    | zero =>
      intro j s hj hP
      obtain rfl : j = n := hj
      refine ⟨s, hP, fun fuel hfuel => ?_⟩
      obtain ⟨fuel, rfl⟩ := Nat.exists_eq_add_one_of_ne_zero (Nat.ne_zero_of_lt hfuel)
      rw [forLoop, hvisits.stops, if_neg Bool.false_ne_true]
    | succ k ih =>
      intro j s hj hP
      obtain ⟨s', hs', hP'⟩ := hturn j (by omega) s hP
      obtain ⟨t, hPt, ht⟩ := ih (j + 1) s' (by omega) hP'
      refine ⟨t, hPt, fun fuel hfuel => ?_⟩
      obtain ⟨fuel, rfl⟩ := Nat.exists_eq_add_one_of_ne_zero (Nat.ne_zero_of_lt hfuel)
      rw [forLoop, hvisits.continues j (by omega), if_pos rfl, hs', hvisits.advances j (by omega)]
      exact ht fuel (by omega)
  exact hrest n 0 s (Nat.zero_add n) h0

end Loop
