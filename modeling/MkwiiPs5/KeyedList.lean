import Mathlib.Data.List.Nodup
import Mathlib.Data.List.Perm.Basic

/-!
# Lists of records with distinct keys

Removing the record of a key from a list whose keys are pairwise distinct, searching such a list,
and replacing a record.
-/

namespace KeyedList

variable {α β : Type*}

/-- The first element that satisfies `p` is the one `eraseP` removes. -/
theorem perm_eraseP_of_find? {p : α → Bool} {l : List α} {a : α} (h : l.find? p = some a) :
    l.Perm (a :: l.eraseP p) := by
  obtain ⟨ha, before, after, rfl, hbefore⟩ := List.find?_eq_some_iff_append.mp h
  have hnot : ∀ b ∈ before, ¬ p b = true := by
    intro b hb
    simpa using hbefore b hb
  rw [List.eraseP_append_right _ hnot, List.eraseP_cons_of_pos ha]
  exact List.perm_middle

theorem length_eraseP_lt {p : α → Bool} {l : List α} {a : α} (ha : a ∈ l) (hp : p a = true) :
    (l.eraseP p).length < l.length := by
  rw [List.length_eraseP_of_mem ha hp]
  exact Nat.sub_lt (List.length_pos_of_mem ha) Nat.one_pos

/-- A filter that keeps the first match keeps it the first match. -/
theorem find?_filter_of_find? {p q : α → Bool} {l : List α} {a : α} (h : l.find? p = some a)
    (hq : q a = true) : (l.filter q).find? p = some a := by
  obtain ⟨ha, before, after, rfl, hbefore⟩ := List.find?_eq_some_iff_append.mp h
  rw [List.find?_eq_some_iff_append]
  refine ⟨ha, before.filter q, after.filter q, ?_, ?_⟩
  · rw [List.filter_append, List.filter_cons_of_pos hq]
  · intro b hb
    exact hbefore b (List.mem_of_mem_filter hb)

/-! ### Replacing -/

/-- Puts an element in the place of the first one that satisfies `p`, which is returned too. -/
def replaceFirst (p : α → Bool) (new : α) : List α → Option (α × List α)
  | [] => none
  | a :: l => if p a then some (a, new :: l) else (replaceFirst p new l).map fun r => (r.1, a :: r.2)

theorem map_fst_replaceFirst (p : α → Bool) (new : α) (l : List α) :
    (replaceFirst p new l).map Prod.fst = l.find? p := by
  induction l with
  | nil => rfl
  | cons a l ih =>
    rw [replaceFirst, List.find?_cons]
    cases p a with
    | true => rfl
    | false => rw [← ih, if_neg Bool.false_ne_true, Option.map_map]; rfl

theorem replaceFirst_eq_some {p : α → Bool} {new a : α} {l l' : List α}
    (h : replaceFirst p new l = some (a, l')) :
    ∃ before after, l = before ++ a :: after ∧ l' = before ++ new :: after := by
  induction l generalizing l' with
  | nil => exact absurd h nofun
  | cons b l ih =>
    rw [replaceFirst] at h
    split at h
    · obtain ⟨rfl, rfl⟩ := Prod.mk.inj (Option.some.inj h)
      exact ⟨[], l, rfl, rfl⟩
    · obtain ⟨⟨a', l''⟩, hrest, heq⟩ := Option.map_eq_some_iff.mp h
      obtain ⟨rfl, rfl⟩ := Prod.mk.inj heq
      obtain ⟨before, after, rfl, rfl⟩ := ih hrest
      exact ⟨b :: before, after, rfl, rfl⟩

/-! ### Keys -/

variable [BEq β] [LawfulBEq β] {key : α → β} {l : List α}

theorem find?_key (h : (l.map key).Nodup) {a : α} (ha : a ∈ l) :
    l.find? (key · == key a) = some a := by
  obtain ⟨b, hb⟩ : ∃ b, l.find? (key · == key a) = some b := by
    rw [← Option.isSome_iff_exists, List.find?_isSome]
    exact ⟨a, ha, beq_self_eq_true _⟩
  have hkey : key b = key a := by simpa using List.find?_some hb
  rw [hb, List.inj_on_of_nodup_map h (List.mem_of_find?_eq_some hb) ha hkey]

theorem eraseP_eq_filter (h : (l.map key).Nodup) (k : β) :
    l.eraseP (key · == k) = l.filter (key · != k) := by
  induction l with
  | nil => rfl
  | cons a l ih =>
    obtain ⟨hnot, hrest⟩ := List.nodup_cons.mp h
    by_cases ha : key a = k
    · have hall : ∀ b ∈ l, (key b != k) = true := by
        intro b hb
        have : key b ≠ key a := fun heq => hnot (heq ▸ List.mem_map_of_mem hb)
        simpa [ha] using this
      rw [List.eraseP_cons_of_pos (by simpa using ha), List.filter_cons_of_neg (by simpa using ha),
        List.filter_eq_self.mpr hall]
    · rw [List.eraseP_cons_of_neg (by simpa using ha), ih hrest,
        List.filter_cons_of_pos (by simpa using ha)]

theorem perm_filter (h : (l.map key).Nodup) {a : α} (ha : a ∈ l) :
    l.Perm (a :: l.filter (key · != key a)) := by
  rw [← eraseP_eq_filter h]
  exact perm_eraseP_of_find? (find?_key h ha)

theorem filter_of_split {before after : List α} {a : α}
    (h : ((before ++ a :: after).map key).Nodup) :
    (before ++ a :: after).filter (key · != key a) = before ++ after := by
  have hmiddle : (before ++ a :: after).Perm (a :: (before ++ after)) := List.perm_middle
  have hperm := hmiddle.map key
  have hnot : key a ∉ (before ++ after).map key := (List.nodup_cons.mp (hperm.nodup_iff.mp h)).1
  have hall : ∀ b ∈ before ++ after, (key b != key a) = true := by
    intro b hb
    rw [bne_iff_ne]
    intro heq
    exact hnot (heq ▸ List.mem_map_of_mem hb)
  rw [List.filter_append, List.filter_cons_of_neg (by simp), ← List.filter_append,
    List.filter_eq_self.mpr hall]

end KeyedList
