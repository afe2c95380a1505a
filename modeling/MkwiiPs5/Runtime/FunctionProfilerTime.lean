import Mathlib.Algebra.BigOperators.Group.Finset.Piecewise
import Mathlib.Algebra.Order.BigOperators.Group.Finset
import Mathlib.Data.Fintype.Option
import MkwiiPs5.Runtime.FunctionProfiler

/-!
# The times of the function profiler

The self times, the time outside of all functions and the time of the hooks add up to the time that
has passed, less the time between fibers.
-/

namespace FunctionProfiler

variable {s s' : ThreadState} {start gaps now : ℕ}

/-- The self times of all functions, the root time and the hook time. -/
def ThreadState.total (s : ThreadState) : ℕ := ∑ e, (s.stats e).self + s.root + s.hook

/-- What is counted is what has passed at a time, less what was left out. -/
def Counted (start gaps now : ℕ) (s : ThreadState) : Prop := start + gaps + s.total = now

/-! ### Steps that measure no time -/

structure SameTimes (s s' : ThreadState) : Prop where
  self : ∀ e, (s'.stats e).self = (s.stats e).self
  root : s'.root = s.root
  hook : s'.hook = s.hook

theorem SameTimes.refl (s : ThreadState) : SameTimes s s := ⟨fun _ => rfl, rfl, rfl⟩

theorem SameTimes.trans {s'' : ThreadState} (h : SameTimes s s') (h' : SameTimes s' s'') :
    SameTimes s s'' :=
  ⟨fun e => (h'.self e).trans (h.self e), h'.root.trans h.root, h'.hook.trans h.hook⟩

theorem SameTimes.total (h : SameTimes s s') : s'.total = s.total := by
  rw [ThreadState.total, ThreadState.total, h.root, h.hook,
    Finset.sum_congr rfl fun e _ => h.self e]

theorem SameTimes.counted (h : SameTimes s s') (hs : Counted start gaps now s) :
    Counted start gaps now s' := by
  rw [Counted, h.total]
  exact hs

theorem sameTimes_setStat {e : Entry} {stat : Stat} (h : stat.self = (s.stats e).self) :
    SameTimes s (s.setStat e stat) := by
  refine ⟨fun e' => ?_, rfl, rfl⟩
  show (Function.update s.stats e stat e').self = _
  by_cases he : e' = e
  · subst he
    rw [Function.update_self, h]
  · rw [Function.update_of_ne he]

theorem sameTimes_find (s : ThreadState) (key : ℕ) : SameTimes s (find s key).2 := by
  unfold find
  split
  · exact sameTimes_setStat rfl
  · exact .refl s

theorem sameTimes_countCall (s : ThreadState) (e : Entry) : SameTimes s (countCall s e) := by
  have hcalls : SameTimes s (s.setStat e { s.stats e with calls := add64 (s.stats e).calls 1 }) :=
    sameTimes_setStat rfl
  unfold countCall
  dsimp only
  split
  · exact hcalls.trans (sameTimes_setStat rfl)
  · exact hcalls

theorem sameTimes_openFrame (s : ThreadState) (e : Entry) (t0 : ℕ) :
    SameTimes s (openFrame s e t0) := by
  unfold openFrame
  dsimp only
  split
  · have hstat : SameTimes s (s.setStat e
        { s.stats e with active := inc32 (s.stats e).active }) := sameTimes_setStat rfl
    exact ⟨hstat.self, hstat.root, hstat.hook⟩
  · exact ⟨fun _ => rfl, rfl, rfl⟩

theorem sameTimes_finalize (s : ThreadState) (now : ℕ) : SameTimes s (finalize s now) := by
  unfold finalize
  dsimp only
  split
  · exact .refl s
  next f frames _ =>
    have hstat : ∀ stat : Stat, stat.self = (s.stats f.stat).self →
        SameTimes s (s.setStat f.stat stat) := fun stat h => sameTimes_setStat h
    exact ⟨(hstat _ (by rfl)).self, rfl, rfl⟩

theorem sameTimes_unwind (now n : ℕ) (s : ThreadState) : SameTimes s (unwind now n s) := by
  induction n generalizing s with
  | zero => exact .refl s
  | succ n ih =>
    have hfinalize := sameTimes_finalize s now
    have hunwound : SameTimes s { finalize s now with
        unwound := add64 (finalize s now).unwound 1 } :=
      ⟨hfinalize.self, hfinalize.root, hfinalize.hook⟩
    exact hunwound.trans (ih _)

theorem sameTimes_closeFrame (s : ThreadState) (key t0 : ℕ) :
    SameTimes s (closeFrame s key t0) := by
  unfold closeFrame
  dsimp only
  split
  · exact ⟨fun _ => rfl, rfl, rfl⟩
  split
  · exact sameTimes_finalize s t0
  split
  · exact sameTimes_unwind t0 _ s
  · exact ⟨fun _ => rfl, rfl, rfl⟩

/-! ### Steps that measure time -/

theorem add64_of_lt {a b : ℕ} (h : a + b < 2 ^ 64) : add64 a b = a + b := Nat.mod_eq_of_lt h

theorem sub64_of_le {a b : ℕ} (h : b ≤ a) (ha : a < 2 ^ 64) : sub64 a b = a - b := by
  unfold sub64
  omega

/-- A time that is counted passes a counter on its way to the total. -/
theorem self_le_total (s : ThreadState) (e : Entry) : (s.stats e).self ≤ s.total := by
  have hsum := Finset.single_le_sum (f := fun e => (s.stats e).self) (fun _ _ => Nat.zero_le _)
    (Finset.mem_univ e)
  rw [ThreadState.total]
  omega

theorem sum_setStat (s : ThreadState) (e : Entry) (delta : ℕ) :
    ∑ e', ((s.setStat e { s.stats e with self := (s.stats e).self + delta }).stats e').self =
      ∑ e', (s.stats e').self + delta := by
  have hself : ∀ e', ((s.setStat e { s.stats e with
      self := (s.stats e).self + delta }).stats e').self =
      Function.update (fun e' => (s.stats e').self) e ((s.stats e).self + delta) e' := by
    intro e'
    show (Function.update s.stats e _ e').self = _
    by_cases he : e' = e
    · subst he
      rw [Function.update_self, Function.update_self]
    · rw [Function.update_of_ne he, Function.update_of_ne he]
  rw [Finset.sum_congr rfl fun e' _ => hself e', Finset.sum_update_of_mem (Finset.mem_univ e),
    Finset.sdiff_singleton_eq_erase,
    ← Finset.add_sum_erase Finset.univ (fun e' => (s.stats e').self) (Finset.mem_univ e)]
  omega

theorem charge_counted (h : Counted start gaps s.last s) (hnow : s.last ≤ now)
    (hlt : now < 2 ^ 64) : Counted start gaps now (charge s now) := by
  have hdelta := sub64_of_le hnow hlt
  unfold charge
  dsimp only
  rw [hdelta]
  rw [Counted] at h ⊢
  split
  next f _ _ =>
    have hle := self_le_total s f.stat
    have hsum := sum_setStat s f.stat (now - s.last)
    rw [add64_of_lt (by omega), ThreadState.total, hsum]
    rw [ThreadState.total] at h
    show start + gaps + (_ + s.root + s.hook) = now
    omega
  · rw [ThreadState.total] at h
    rw [add64_of_lt (by omega), ThreadState.total]
    dsimp only
    omega

theorem finishHook_counted {t0 t1 : ℕ} (h : Counted start gaps t0 s) (ht : t0 ≤ t1)
    (hlt : t1 < 2 ^ 64) : Counted start gaps t1 (finishHook s t0 t1) := by
  rw [Counted, ThreadState.total] at h ⊢
  unfold finishHook
  dsimp only
  rw [sub64_of_le ht hlt, add64_of_lt (a := s.hook) (by omega)]
  show start + gaps + (∑ e, (s.stats e).self + s.root + (s.hook + (t1 - t0))) = t1
  omega

theorem push_counted {key t0 : ℕ} (h : Counted start gaps s.last s) (ht : s.last ≤ t0)
    (hlt : t0 < 2 ^ 64) : Counted start gaps t0 (push s key t0) := by
  have hcharge := charge_counted h ht hlt
  have hfind := sameTimes_find (charge s t0) key
  have hcount := sameTimes_countCall (find (charge s t0) key).2 (find (charge s t0) key).1
  exact ((hfind.trans hcount).trans (sameTimes_openFrame _ _ _)).counted hcharge

theorem pop_counted {key t0 : ℕ} (h : Counted start gaps s.last s) (ht : s.last ≤ t0)
    (hlt : t0 < 2 ^ 64) : Counted start gaps t0 (pop s key t0) :=
  (sameTimes_closeFrame (charge s t0) key t0).counted (charge_counted h ht hlt)

/-! ### Runs -/

/-- One hook counts the time up to its end. -/
theorem step_counted (h : Counted start gaps s.last s) {hook : Hook}
    (hordered : hook.Ordered s.last) :
    Counted start (gaps + hook.gap) hook.finish (step (some s) hook) ∧
      (step (some s) hook).last = hook.finish := by
  cases hook with
  | enter key t0 made t1 =>
    obtain ⟨h0, h1, h2, hlt⟩ := hordered
    exact ⟨finishHook_counted (push_counted h h0 (by omega)) (h1.trans h2) hlt, rfl⟩
  | exit key t0 made t1 =>
    obtain ⟨h0, h1, h2, hlt⟩ := hordered
    exact ⟨finishHook_counted (pop_counted h h0 (by omega)) (h1.trans h2) hlt, rfl⟩
  | switch kept left entered made =>
    obtain ⟨h0, h1, h2, hlt⟩ := hordered
    have hleave := charge_counted h h0 (by omega)
    rw [Counted] at hleave
    cases kept with
    | none =>
      refine ⟨?_, rfl⟩
      show start + (gaps + (entered - left)) + (charge s left).total = entered
      omega
    | some j =>
      refine ⟨?_, rfl⟩
      show start + (gaps + (entered - left)) + (charge s left).total = entered
      omega

theorem run_counted (trace : List Hook) (h : Counted start gaps s.last s)
    (hordered : Ordered s.last trace) :
    ∃ s', run (some s) trace = some s' ∧
      Counted start (gaps + (trace.map Hook.gap).sum) s'.last s' ∧
      s'.last = (trace.getLast?.map Hook.finish).getD s.last := by
  induction trace generalizing s gaps with
  | nil => exact ⟨s, rfl, h, rfl⟩
  | cons hook trace ih =>
    obtain ⟨hfirst, hrest⟩ := hordered
    obtain ⟨hcounted, hlast⟩ := step_counted h hfirst
    rw [← hlast] at hcounted hrest
    obtain ⟨s', hrun, hs', hend⟩ := ih hcounted hrest
    refine ⟨s', hrun, ?_, ?_⟩
    · rw [List.map_cons, List.sum_cons, ← Nat.add_assoc]
      exact hs'
    · rw [hend, hlast, List.getLast?_cons]
      cases trace.getLast? <;> rfl

end FunctionProfiler
