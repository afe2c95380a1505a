import Mathlib.Logic.Function.Basic
import Mathlib.Data.List.Perm.Subperm
import Mathlib.Data.List.Nodup
import Mathlib.Tactic.Ring

/-!
# Half-open intervals and pages

Intervals `[a, a + n)` of natural numbers, the pages of a fixed size that they
meet, and loops over consecutive page numbers that update a table pointwise.
-/

namespace Interval

/-! ### Values in a range -/

section Clamp

variable {α : Type*} [LinearOrder α] {v w lo hi : α}

/-- `std::clamp`. -/
def clamp (v lo hi : α) : α := if v < lo then lo else if hi < v then hi else v

theorem clamp_eq (h : lo ≤ hi) : clamp v lo hi = max lo (min v hi) := by
  rw [clamp]
  split_ifs with hlo hhi
  · rw [min_eq_left (hlo.le.trans h), max_eq_left hlo.le]
  · rw [min_eq_right hhi.le, max_eq_right h]
  · rw [min_eq_left (not_lt.mp hhi), max_eq_right (not_lt.mp hlo)]

theorem le_clamp (h : lo ≤ hi) : lo ≤ clamp v lo hi := by
  rw [clamp_eq h]
  exact le_max_left _ _

theorem clamp_le (h : lo ≤ hi) : clamp v lo hi ≤ hi := by
  rw [clamp_eq h]
  exact max_le h (min_le_right _ _)

theorem clamp_eq_self (hlo : lo ≤ v) (hhi : v ≤ hi) : clamp v lo hi = v := by
  rw [clamp, if_neg (not_lt.mpr hlo), if_neg (not_lt.mpr hhi)]

end Clamp

/-! ### Intervals -/

/-- `[a, a + n)` and `[b, b + m)` have a point in common, for non-empty intervals. -/
def Meets (a n b m : ℕ) : Prop := a < b + m ∧ b < a + n

instance (a n b m : ℕ) : Decidable (Meets a n b m) := inferInstanceAs (Decidable (_ ∧ _))

theorem Meets.symm {a n b m : ℕ} (h : Meets a n b m) : Meets b m a n := ⟨h.2, h.1⟩

theorem meets_iff_exists {a n b m : ℕ} (hn : 0 < n) (hm : 0 < m) :
    Meets a n b m ↔ ∃ x, (a ≤ x ∧ x < a + n) ∧ b ≤ x ∧ x < b + m := by
  constructor
  · rintro ⟨h₁, h₂⟩
    exact ⟨max a b, ⟨by omega, by omega⟩, by omega, by omega⟩
  · rintro ⟨x, ⟨h₁, h₂⟩, h₃, h₄⟩
    exact ⟨by omega, by omega⟩

theorem Meets.of_mem {a n b m x : ℕ} (ha : a ≤ x ∧ x < a + n) (hb : b ≤ x ∧ x < b + m) :
    Meets a n b m := ⟨by omega, by omega⟩

/-- Widening either interval keeps them meeting. -/
theorem Meets.mono {a n a' n' b m b' m' : ℕ} (h : Meets a n b m)
    (ha : a' ≤ a ∧ a + n ≤ a' + n') (hb : b' ≤ b ∧ b + m ≤ b' + m') : Meets a' n' b' m' := by
  obtain ⟨h₁, h₂⟩ := h
  exact ⟨by omega, by omega⟩

/-- `[p * size, (p + 1) * size)` meets `[a, a + n)` exactly when `p` lies between
the pages of its first and of its last point. -/
theorem meets_page_iff {size p a n : ℕ} (hs : 0 < size) (hn : 0 < n) :
    Meets (p * size) size a n ↔ a / size ≤ p ∧ p ≤ (a + n - 1) / size := by
  unfold Meets
  rw [Nat.le_div_iff_mul_le hs, ← Nat.lt_add_one_iff, Nat.div_lt_iff_lt_mul hs, Nat.succ_mul]
  omega

/-- The page that holds a point of an interval meets the interval. -/
theorem meets_page_of_mem {size x a n : ℕ} (hs : 0 < size) (h : a ≤ x ∧ x < a + n) :
    Meets (x / size * size) size a n := by
  have hlo : x / size * size ≤ x := Nat.div_mul_le_self x size
  have hhi : x < x / size * size + size := Nat.lt_div_mul_add hs
  exact ⟨by omega, by omega⟩

/-- Non-empty intervals that do not meet each other, but all meet `[a, a + n)`, number at
most `n`. -/
theorem length_le_of_apart {β : Type*} (start size : β → ℕ) {items : List β} {a n : ℕ}
    (hn : 0 < n)
    (hapart : items.Pairwise fun x y => ¬ Meets (start x) (size x) (start y) (size y))
    (hpos : ∀ x ∈ items, 0 < size x) (hmeets : ∀ x ∈ items, Meets (start x) (size x) a n) :
    items.length ≤ n := by
  -- each interval has a first point in `[a, a + n)`, and no two share it
  have hnodup : (items.map fun x => max (start x) a).Nodup := by
    rw [List.Nodup, List.pairwise_map]
    refine hapart.imp_of_mem fun {x y} hx hy hxy heq => hxy ?_
    obtain ⟨h₁, h₂⟩ := hmeets x hx
    obtain ⟨h₃, h₄⟩ := hmeets y hy
    have hx' := hpos x hx
    have hy' := hpos y hy
    exact ⟨by omega, by omega⟩
  have hsub : (items.map fun x => max (start x) a) ⊆ List.range' a n := by
    intro p hp
    obtain ⟨x, hx, rfl⟩ := List.mem_map.mp hp
    obtain ⟨h₁, h₂⟩ := hmeets x hx
    rw [List.mem_range'_1]
    omega
  simpa using (hnodup.subperm hsub).length_le

section Loop

variable {σ α : Type*}

/-- `for (page = first; page <= last; ++page) body(page)`. -/
def forPages (first last : ℕ) (body : ℕ → σ → σ) (s : σ) : σ :=
  (List.range' first (last + 1 - first)).foldl (fun s page => body page s) s

/-- A loop preserves what each turn of its body preserves. -/
theorem forPages_induction {P : σ → Prop} {first last : ℕ} {body : ℕ → σ → σ} {s : σ}
    (h : P s) (hbody : ∀ page s, P s → P (body page s)) : P (forPages first last body s) := by
  unfold forPages
  induction List.range' first (last + 1 - first) generalizing s with
  | nil => exact h
  | cons page rest ih => exact ih (hbody page s h)

/-- A loop that reaches `page` establishes what its turn there establishes and no
other turn destroys. -/
theorem forPages_establishes {P : σ → Prop} {first last page : ℕ} {body : ℕ → σ → σ}
    (hkeep : ∀ page' s, P s → P (body page' s)) (hpage : ∀ s, P (body page s))
    (hfirst : first ≤ page) (hlast : page ≤ last) (s : σ) :
    P (forPages first last body s) := by
  have hmem : page ∈ List.range' first (last + 1 - first) := by
    rw [List.mem_range'_1]
    omega
  obtain ⟨before, after, hsplit⟩ := List.append_of_mem hmem
  have hrest : ∀ (pages : List ℕ) (s : σ), P s →
      P (pages.foldl (fun s page => body page s) s) := by
    intro pages
    induction pages with
    | nil => exact fun _ h => h
    | cons page' rest ih => exact fun s h => ih _ (hkeep page' s h)
  rw [forPages, hsplit, List.foldl_append, List.foldl_cons]
  exact hrest after _ (hpage _)

private theorem foldl_update_apply (g : ℕ → α → α) (pages : List ℕ) (hp : pages.Nodup)
    (f : ℕ → α) (q : ℕ) :
    pages.foldl (fun f page => Function.update f page (g page (f page))) f q =
      if q ∈ pages then g q (f q) else f q := by
  induction pages generalizing f with
  | nil => simp
  | cons page rest ih =>
    obtain ⟨hnot, hrest⟩ := List.nodup_cons.mp hp
    rw [List.foldl_cons, ih hrest]
    by_cases hq : q = page
    · subst hq
      simp [hnot]
    · simp [hq]

/-- A loop that replaces the entry of each page by a function of that entry. -/
theorem forPages_update (g : ℕ → α → α) (first last : ℕ) (f : ℕ → α) (q : ℕ) :
    forPages first last (fun page f => Function.update f page (g page (f page))) f q =
      if first ≤ q ∧ q ≤ last then g q (f q) else f q := by
  rw [forPages, foldl_update_apply g _ List.nodup_range']
  refine if_congr ?_ rfl rfl
  rw [List.mem_range'_1]
  omega

/-- A loop whose body acts on one component of the state acts on it as a loop. -/
theorem forPages_map {τ : Type*} (π : σ → τ) (first last : ℕ) {body : ℕ → σ → σ}
    {g : ℕ → τ → τ} (h : ∀ page s, π (body page s) = g page (π s)) (s : σ) :
    π (forPages first last body s) = forPages first last g (π s) := by
  unfold forPages
  induction List.range' first (last + 1 - first) generalizing s with
  | nil => rfl
  | cons page rest ih => rw [List.foldl_cons, List.foldl_cons, ih, h]

end Loop

/-- Intervals that lie apart below a bound. -/
theorem sum_le_of_apart {α : Type*} {start size : α → ℕ} {l : List α} {bound : ℕ}
    (hapart : l.Pairwise fun a b => start a + size a ≤ start b ∨ start b + size b ≤ start a)
    (hbound : ∀ a ∈ l, start a + size a ≤ bound) : (l.map size).sum ≤ bound := by
  let points := l.flatMap fun a => List.range' (start a) (size a)
  have hnodup : points.Nodup := by
    rw [List.nodup_flatMap]
    refine ⟨fun a _ => List.nodup_range', hapart.imp ?_⟩
    intro a b hab x hxa hxb
    rw [List.mem_range'_1] at hxa hxb
    omega
  have hsub : points ⊆ List.range bound := by
    intro x hx
    obtain ⟨a, ha, hxa⟩ := List.mem_flatMap.mp hx
    have hle := hbound a ha
    rw [List.mem_range'_1] at hxa
    exact List.mem_range.mpr (by omega)
  have hlength := (List.subperm_of_subset hnodup hsub).length_le
  simpa [points, List.length_flatMap] using hlength

end Interval
