import Mathlib.Data.List.GetD
import MkwiiPs5.Interval

/-!
# Memories overlaid with pending writes

A memory is a function on addresses; a patch is a block of data to be written at an
address. The view of a memory under a list of patches is what it would hold once
they were all written, in order.
-/

namespace Overlay

variable {α : Type*}

/-- Writes `data` at `start`. -/
def write (mem : ℕ → α) (start : ℕ) (data : List α) : ℕ → α := fun p =>
  if start ≤ p then data.getD (p - start) (mem p) else mem p

theorem write_of_not_mem {mem : ℕ → α} {start p : ℕ} {data : List α}
    (h : ¬ (start ≤ p ∧ p < start + data.length)) : write mem start data p = mem p := by
  rw [write]
  split
  · rw [List.getD_eq_default _ _ (by omega)]
  · rfl

theorem write_of_mem {mem : ℕ → α} {start p : ℕ} {data : List α} (hlo : start ≤ p)
    (hhi : p - start < data.length) : write mem start data p = data[p - start] := by
  rw [write, if_pos hlo, List.getD_eq_getElem]

@[simp]
theorem write_nil (mem : ℕ → α) (start : ℕ) : write mem start [] = mem := by
  funext p
  exact write_of_not_mem (by simp)

/-- What a write leaves depends on the old memory outside the block only. -/
theorem write_congr {mem mem' : ℕ → α} {start : ℕ} {data : List α}
    (h : ∀ p, ¬ (start ≤ p ∧ p < start + data.length) → mem p = mem' p) :
    write mem start data = write mem' start data := by
  funext p
  by_cases hp : start ≤ p ∧ p < start + data.length
  · rw [write_of_mem hp.1 (by omega), write_of_mem hp.1 (by omega)]
  · rw [write_of_not_mem hp, write_of_not_mem hp, h p hp]

/-- A write over a block of the same size leaves nothing of the block. -/
theorem write_write {mem : ℕ → α} {start : ℕ} {d e : List α} (h : d.length = e.length) :
    write (write mem start d) start e = write mem start e :=
  write_congr fun _ hp => write_of_not_mem (h ▸ hp)

/-- Gives the points of `[start, start + size)` new values, by their offsets. -/
def fill (mem : ℕ → α) (start size : ℕ) (f : ℕ → α) : ℕ → α := fun p =>
  if start ≤ p ∧ p < start + size then f (p - start) else mem p

theorem fill_of_mem {mem : ℕ → α} {start size p : ℕ} {f : ℕ → α}
    (h : start ≤ p ∧ p < start + size) : fill mem start size f p = f (p - start) := if_pos h

theorem fill_of_not_mem {mem : ℕ → α} {start size p : ℕ} {f : ℕ → α}
    (h : ¬ (start ≤ p ∧ p < start + size)) : fill mem start size f p = mem p := if_neg h

/-- A range that held one value everywhere holds it again. -/
theorem fill_restore {mem : ℕ → α} {start size : ℕ} {f : ℕ → α} {a : α}
    (h : ∀ i < size, mem (start + i) = a) :
    fill (fill mem start size f) start size (fun _ => a) = mem := by
  funext p
  by_cases hp : start ≤ p ∧ p < start + size
  · have hold := h (p - start) (by omega)
    rw [Nat.add_sub_cancel' hp.1] at hold
    rw [fill_of_mem hp, hold]
  · rw [fill_of_not_mem hp, fill_of_not_mem hp]

theorem write_singleton (mem : ℕ → α) (start : ℕ) (x : α) :
    write mem start [x] = Function.update mem start x := by
  funext p
  by_cases hp : p = start
  · subst hp
    rw [Function.update_self, write_of_mem le_rfl (by simp)]
    simp
  · rw [Function.update_of_ne hp, write_of_not_mem]
    rw [List.length_singleton]
    omega

theorem write_cons (mem : ℕ → α) (start : ℕ) (x : α) (data : List α) :
    write mem start (x :: data) = write (Function.update mem start x) (start + 1) data := by
  funext p
  rcases lt_trichotomy p start with hlt | rfl | hgt
  · rw [write_of_not_mem (by omega), write_of_not_mem (by omega), Function.update_of_ne hlt.ne]
  · rw [write_of_mem le_rfl (by simp), write_of_not_mem (by omega), Function.update_self]
    simp
  · rw [write, write, if_pos hgt.le, if_pos (Nat.succ_le_of_lt hgt), Function.update_of_ne hgt.ne',
      show p - start = (p - (start + 1)) + 1 by omega, List.getD_cons_succ]

/-- A write of what is there changes nothing. -/
theorem write_eq_self_iff {mem : ℕ → α} {start : ℕ} {data : List α} :
    write mem start data = mem ↔ ∀ i (h : i < data.length), mem (start + i) = data[i] := by
  constructor
  · intro h i hi
    rw [← h, write_of_mem (by omega) (by omega)]
    simp
  · intro h
    funext p
    by_cases hp : start ≤ p ∧ p < start + data.length
    · rw [write_of_mem hp.1 (by omega), ← h (p - start) (by omega)]
      congr 1
      omega
    · exact write_of_not_mem hp

/-- Writes to blocks that do not meet commute. -/
theorem write_comm {mem : ℕ → α} {a b : ℕ} {d e : List α}
    (h : ¬ Interval.Meets a d.length b e.length) :
    write (write mem a d) b e = write (write mem b e) a d := by
  funext p
  by_cases ha : a ≤ p ∧ p < a + d.length
  · have hb : ¬ (b ≤ p ∧ p < b + e.length) := fun hb => h (Interval.Meets.of_mem ha hb)
    rw [write_of_not_mem hb, write_of_mem ha.1 (by omega), write_of_mem ha.1 (by omega)]
  · rw [write_of_not_mem ha]
    by_cases hb : b ≤ p ∧ p < b + e.length
    · rw [write_of_mem hb.1 (by omega), write_of_mem hb.1 (by omega)]
    · rw [write_of_not_mem hb, write_of_not_mem hb, write_of_not_mem ha]

/-- The cells from `n` on. -/
def beyond (n : ℕ) (mem : ℕ → α) : ℕ → α := fun i => mem (n + i)

/-- A write below `n` leaves the cells from `n` on alone. -/
theorem beyond_write {mem : ℕ → α} {start n : ℕ} {data : List α} (h : start + data.length ≤ n) :
    beyond n (write mem start data) = beyond n mem := by
  funext i
  exact write_of_not_mem (by omega)

theorem beyond_update {mem : ℕ → α} {p n : ℕ} (h : p < n) (x : α) :
    beyond n (Function.update mem p x) = beyond n mem := by
  rw [← write_singleton]
  exact beyond_write h

/-- The cells of a table outside of its `n` rows and `m` columns. -/
def beyondRows (n m : ℕ) (table : ℕ → ℕ → α) : (ℕ → ℕ → α) × (ℕ → ℕ → α) :=
  (beyond n table, fun i => beyond m (table i))

theorem beyondRows_write {table : ℕ → ℕ → α} {i n m : ℕ} {row : ℕ → α} (hi : i < n)
    (hrow : beyond m row = beyond m (table i)) :
    beyondRows n m (write table i [row]) = beyondRows n m table := by
  rw [beyondRows, beyondRows, beyond_write hi]
  congr 1
  funext k
  rw [write_singleton]
  rcases eq_or_ne k i with rfl | hne
  · rw [Function.update_self, hrow]
  · rw [Function.update_of_ne hne]

/-- The `n` cells from `start`. -/
def load (mem : ℕ → α) (start n : ℕ) : List α := (List.range n).map fun i => mem (start + i)

theorem load_congr {mem mem' : ℕ → α} {start n : ℕ}
    (h : ∀ p, start ≤ p → p < start + n → mem p = mem' p) :
    load mem start n = load mem' start n := by
  refine List.map_congr_left fun i hi => h _ (by omega) ?_
  have := List.mem_range.mp hi
  omega

/-- Two loads, one behind the other. -/
theorem load_add (mem : ℕ → α) (start n m : ℕ) :
    load mem start (n + m) = load mem start n ++ load mem (start + n) m := by
  rw [load, List.range_add, List.map_append, List.map_map, load, load]
  congr 1
  refine List.map_congr_left fun i _ => ?_
  rw [Function.comp_apply, Nat.add_assoc]

theorem load_write (mem : ℕ → α) (start : ℕ) (data : List α) :
    load (write mem start data) start data.length = data := by
  refine List.ext_getElem (by simp [load]) fun i _ hi => ?_
  simp only [load, List.getElem_map, List.getElem_range]
  rw [write_of_mem (by omega) (by omega)]
  simp

theorem load_write_of_not_meets {mem : ℕ → α} {start n a : ℕ} {data : List α}
    (h : ¬ Interval.Meets a data.length start n) :
    load (write mem a data) start n = load mem start n :=
  load_congr fun _ hlo hhi => write_of_not_mem fun hp => h (.of_mem hp ⟨hlo, hhi⟩)

/-- Consecutive writes of constant blocks are one write of the whole block. -/
theorem write_replicate_succ (mem : ℕ → α) (start n k : ℕ) (x : α) :
    write (write mem start (List.replicate n x)) (start + n) (List.replicate k x) =
      write mem start (List.replicate (n + k) x) := by
  funext p
  by_cases hk : start + n ≤ p ∧ p < start + n + (List.replicate k x).length
  · rw [write_of_mem hk.1 (by omega)]
    rw [List.length_replicate] at hk
    rw [write_of_mem (by omega) (by rw [List.length_replicate]; omega)]
    simp
  · rw [write_of_not_mem hk]
    rw [List.length_replicate] at hk
    by_cases hn : start ≤ p ∧ p < start + n
    · rw [write_of_mem hn.1 (by rw [List.length_replicate]; omega),
        write_of_mem hn.1 (by rw [List.length_replicate]; omega)]
      simp
    · rw [write_of_not_mem (by rw [List.length_replicate]; omega),
        write_of_not_mem (by rw [List.length_replicate]; omega)]

/-- A pending write. -/
structure Patch (α : Type*) where
  start : ℕ
  data : List α

/-- The patch and the block have an address in common. -/
def Patch.Meets (patch : Patch α) (start n : ℕ) : Prop :=
  Interval.Meets patch.start patch.data.length start n

/-- What the memory holds once the patches are written. -/
def view (mem : ℕ → α) (patches : List (Patch α)) : ℕ → α :=
  patches.foldl (fun mem patch => write mem patch.start patch.data) mem

theorem view_append (mem : ℕ → α) (patches rest : List (Patch α)) :
    view mem (patches ++ rest) = view (view mem patches) rest := List.foldl_append

/-- A pending write behind all others is written last. -/
theorem view_concat (mem : ℕ → α) (patches : List (Patch α)) (patch : Patch α) :
    view mem (patches ++ [patch]) = write (view mem patches) patch.start patch.data := by
  rw [view_append]
  rfl

/-- A block that no patch meets can be written before them or after them. -/
theorem view_write {patches : List (Patch α)} {start : ℕ} {data : List α}
    (h : ∀ patch ∈ patches, ¬ patch.Meets start data.length) (mem : ℕ → α) :
    view (write mem start data) patches = write (view mem patches) start data := by
  induction patches generalizing mem with
  | nil => rfl
  | cons patch rest ih =>
    have hpatch : ¬ Interval.Meets start data.length patch.start patch.data.length :=
      fun hm => h patch List.mem_cons_self hm.symm
    change view (write (write mem start data) patch.start patch.data) rest = _
    rw [write_comm hpatch, ih fun patch hp => h patch (List.mem_cons_of_mem _ hp)]
    rfl

/-- Addresses that no patch meets show the memory itself. -/
theorem view_of_not_meets {patches : List (Patch α)} {start n : ℕ}
    (h : ∀ patch ∈ patches, ¬ patch.Meets start n) (mem : ℕ → α) {p : ℕ} (hlo : start ≤ p)
    (hhi : p < start + n) : view mem patches p = mem p := by
  induction patches generalizing mem with
  | nil => rfl
  | cons patch rest ih =>
    refine (ih (fun patch hp => h patch (List.mem_cons_of_mem _ hp)) _).trans ?_
    refine write_of_not_mem fun hp => h patch List.mem_cons_self ?_
    exact Interval.Meets.of_mem hp ⟨hlo, hhi⟩

/-- Writing out one patch of several that do not meet leaves the view. -/
theorem view_materialise {before : List (Patch α)} {patch : Patch α}
    (h : ∀ other ∈ before, ¬ other.Meets patch.start patch.data.length)
    (after : List (Patch α)) (mem : ℕ → α) :
    view (write mem patch.start patch.data) (before ++ after) =
      view mem (before ++ patch :: after) := by
  rw [view_append, view_append, view_write h]
  rfl

/-- Views that agree outside a block agree there under the same patches. -/
theorem view_congr_outside {start n : ℕ} (patches : List (Patch α)) {mem mem' : ℕ → α}
    (h : ∀ p, ¬ (start ≤ p ∧ p < start + n) → mem p = mem' p) (p : ℕ)
    (hp : ¬ (start ≤ p ∧ p < start + n)) : view mem patches p = view mem' patches p := by
  induction patches generalizing mem mem' with
  | nil => exact h p hp
  | cons patch rest ih =>
    refine ih fun q hq => ?_
    change write mem _ _ q = write mem' _ _ q
    by_cases hmem : patch.start ≤ q ∧ q < patch.start + patch.data.length
    · rw [write_of_mem hmem.1 (by omega), write_of_mem hmem.1 (by omega)]
    · rw [write_of_not_mem hmem, write_of_not_mem hmem, h q hq]

section Filter

variable {β : Type*} {patch : β → Patch α} {keep : β → Bool}

/-- Dropping patches inside a block leaves the view outside of it. -/
theorem view_filter_outside {start n : ℕ} (items : List β)
    (h : ∀ item ∈ items, keep item = false →
      start ≤ (patch item).start ∧ (patch item).start + (patch item).data.length ≤ start + n)
    (mem : ℕ → α) (p : ℕ) (hp : ¬ (start ≤ p ∧ p < start + n)) :
    view mem ((items.filter keep).map patch) p = view mem (items.map patch) p := by
  induction items generalizing mem with
  | nil => rfl
  | cons item rest ih =>
    have hrest := fun item hi => h item (List.mem_cons_of_mem _ hi)
    cases hkeep : keep item with
    | true =>
      rw [List.filter_cons_of_pos hkeep]
      exact ih hrest _
    | false =>
      obtain ⟨hlo, hhi⟩ := h item List.mem_cons_self hkeep
      rw [List.filter_cons_of_neg (by simp [hkeep]), ih hrest]
      refine view_congr_outside (rest.map patch) (fun q hq => ?_) p hp
      exact (write_of_not_mem (by omega)).symm

/-- A patch written last hides the patches it covers. -/
theorem view_filter_covered {items : List β} {last : Patch α}
    (h : ∀ item ∈ items, keep item = false → last.start ≤ (patch item).start ∧
      (patch item).start + (patch item).data.length ≤ last.start + last.data.length)
    (mem : ℕ → α) :
    view mem ((items.filter keep).map patch ++ [last]) =
      write (view mem (items.map patch)) last.start last.data := by
  rw [view_concat]
  exact write_congr fun p hp => view_filter_outside items h mem p hp

end Filter

end Overlay
