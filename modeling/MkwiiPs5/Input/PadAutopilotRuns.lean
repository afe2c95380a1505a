import Mathlib.Data.List.Basic
import Mathlib.Tactic.Linarith
import MkwiiPs5.Input.PadAutopilot

/-!
# Runs of the autopilot

Every text is parsed to presses in the order of their starts, or rejected. The cursor that plays
them neither skips a press nor loses one.
-/

namespace Input

namespace Autopilot

variable {R : Rounding} {presses presses' : List AutopilotPress}

/-! ### Numbers -/

/-- A number is at most a thousand days. -/
theorem number_le {text : List Char} {x : ℚ} (h : number R text = some x) : x ≤ 86400000 := by
  rw [number] at h
  split_ifs at h
  rw [Option.bind_eq_bind, Option.bind_eq_some_iff] at h
  obtain ⟨s, _, h⟩ := h
  split_ifs at h
  dsimp only at h
  split_ifs at h with hle
  have hmax : R.round (kMaxSeconds * 1000) = (86400000 : ℤ) := by
    rw [← R.round_int 86400000 (by decide)]
    norm_num [kMaxSeconds]
  obtain rfl := Option.some.inj h
  rw [hmax] at hle
  exact_mod_cast hle

theorem holdOf_le {word : Option (List Char)} {x : ℚ} (h : holdOf R word = some x) :
    x ≤ 86400000 := by
  cases word with
  | none =>
    have hdefault : R.round (kDefaultHoldMicros / 1000) = (120 : ℤ) := by
      rw [← R.round_int 120 (by decide)]
      norm_num [kDefaultHoldMicros]
    obtain rfl := Option.some.inj h
    rw [hdefault]
    norm_num
  | some word => exact number_le h

/-- A press of a time and a length that were read does not wrap. -/
theorem pressAt_le {t hold : ℚ} (ht : t ≤ 86400000) (hhold : hold ≤ 86400000) (bits : ℕ) :
    (pressAt R t hold bits).startMicros ≤ (pressAt R t hold bits).endMicros := by
  have hstart : micros R t ≤ 86400000000000 := by
    apply Rounding.llround_le
    exact_mod_cast R.round_le (n := 86400000000000) (by decide) (by push_cast; linarith)
  have hlength : Rounding.llround (R.round (hold * 1000)) ≤ 86400000000 := by
    apply Rounding.llround_le
    exact_mod_cast R.round_le (n := 86400000000) (by decide) (by push_cast; linarith)
  show micros R t ≤ (micros R t + Rounding.llround (R.round (hold * 1000))) % 2 ^ 64
  rw [Nat.mod_eq_of_lt (by omega)]
  exact Nat.le_add_right _ _

/-! ### Scripts -/

/-- Presses that were accepted so far. -/
structure Accepted (presses : List AutopilotPress) : Prop where
  length_le : presses.length ≤ kMaxPresses
  ordered : ∀ p ∈ presses, p.startMicros ≤ p.endMicros

theorem Accepted.append (h : Accepted presses) {p : AutopilotPress}
    (hroom : presses.length < kMaxPresses) (hp : p.startMicros ≤ p.endMicros) :
    Accepted (presses ++ [p]) := by
  refine ⟨?_, fun q hq => ?_⟩
  · rw [List.length_append]
    exact hroom
  · rcases List.mem_append.mp hq with hq | hq
    · exact h.ordered q hq
    · rw [List.mem_singleton.mp hq]
      exact hp

theorem repeatPress_accepted {stop period hold t : ℚ} {bits room : ℕ} (h : Accepted presses)
    (hroom : presses.length + room = kMaxPresses) (hstop : stop ≤ 86400000)
    (hhold : hold ≤ 86400000)
    (hresult : repeatPress R stop period hold bits room t presses = .ok presses') :
    Accepted presses' := by
  induction room generalizing t presses with
  | zero =>
    rw [repeatPress] at hresult
    split_ifs at hresult
    obtain rfl := Except.ok.inj hresult
    exact h
  | succ room ih =>
    rw [repeatPress] at hresult
    split_ifs at hresult with ht
    · have hone := h.append (by omega) (pressAt_le (R := R) (ht.le.trans hstop) hhold bits)
      refine ih hone ?_ hresult
      rw [List.length_append, List.length_singleton]
      omega
    · obtain rfl := Except.ok.inj hresult
      exact h

theorem repeatLine_accepted {words : List (List Char)} (h : Accepted presses)
    (hresult : repeatLine R words presses = .ok presses') : Accepted presses' := by
  rw [repeatLine] at hresult
  split_ifs at hresult
  split at hresult
  · next start stop period bits hold _ hstop _ _ hhold =>
    split_ifs at hresult
    exact repeatPress_accepted h (Nat.add_sub_cancel' h.length_le) (number_le hstop)
      (holdOf_le hhold) hresult
  · cases hresult

theorem pressLine_accepted {words : List (List Char)} (h : Accepted presses)
    (hresult : pressLine R words presses = .ok presses') : Accepted presses' := by
  rw [pressLine] at hresult
  split at hresult
  · cases hresult
  · split at hresult
    · next start bits hold hstart _ hhold =>
      split_ifs at hresult with _ _ hroom
      obtain rfl := Except.ok.inj hresult
      exact h.append (Nat.not_le.mp hroom) (pressAt_le (number_le hstart) (holdOf_le hhold) bits)
    · cases hresult

theorem parseLine_accepted {line : List Char} (h : Accepted presses)
    (hresult : parseLine R line presses = .ok presses') : Accepted presses' := by
  rw [parseLine] at hresult
  split at hresult
  · obtain rfl := Except.ok.inj hresult
    exact h
  · split_ifs at hresult
    · exact repeatLine_accepted h hresult
    · exact pressLine_accepted h hresult

theorem parseLines_accepted {lines : List (List Char)} {lineNo : ℕ} (h : Accepted presses)
    (hresult : parseLines R lineNo lines presses = .ok presses') : Accepted presses' := by
  induction lines generalizing lineNo presses with
  | nil =>
    obtain rfl := Except.ok.inj hresult
    exact h
  | cons line rest ih =>
    rw [parseLines] at hresult
    split at hresult
    · cases hresult
    · next hline => exact ih (parseLine_accepted h hline) hresult

/-- An error names its line. -/
theorem parseLines_error {lines : List (List Char)} {lineNo : ℕ} {error : String}
    (hresult : parseLines R lineNo lines presses = .error error) :
    ∃ n why, error = "line " ++ toString (n : ℕ) ++ ": " ++ why := by
  induction lines generalizing lineNo presses with
  | nil => cases hresult
  | cons line rest ih =>
    rw [parseLines] at hresult
    split at hresult
    · next why _ =>
      obtain rfl := Except.error.inj hresult
      exact ⟨lineNo, why, rfl⟩
    · exact ih hresult

/-- Presses in the order of their starts, or an error and no presses. -/
theorem parseScript_spec (R : Rounding) (S : PressSort) (text : List Char) :
    ((parseScript R S text).error ≠ "" ∧ (parseScript R S text).presses = []) ∨
      ((parseScript R S text).error = "" ∧ Accepted (parseScript R S text).presses) := by
  rw [parseScript]
  split
  · next error herror =>
    obtain ⟨n, why, rfl⟩ := parseLines_error herror
    refine Or.inl ⟨fun hempty => ?_, rfl⟩
    have hlength := congrArg String.length hempty
    simp only [String.length_append, String.length_empty] at hlength
    have hline : "line ".length = 5 := by decide
    omega
  · next presses hpresses =>
    have haccepted := parseLines_accepted ⟨Nat.zero_le _, fun _ hp => absurd hp List.not_mem_nil⟩ hpresses
    refine Or.inr ⟨rfl, ?_, fun p hp => ?_⟩
    · rw [(S.perm presses).length_eq]
      exact haccepted.length_le
    · exact haccepted.ordered p ((S.perm presses).mem_iff.mp hp)

theorem parseScript_sorted (R : Rounding) (S : PressSort) (text : List Char) :
    (parseScript R S text).presses.Pairwise fun p q => p.startMicros ≤ q.startMicros := by
  rw [parseScript]
  split
  · exact .nil
  · exact S.sorted _

end Autopilot

namespace PadAutopilot

/-! ### The cursor -/

/-- The press is held at a time since the first call. -/
def Active (elapsed : ℕ) (p : AutopilotPress) : Prop :=
  p.startMicros ≤ elapsed ∧ elapsed < p.endMicros

instance (elapsed : ℕ) (p : AutopilotPress) : Decidable (Active elapsed p) :=
  inferInstanceAs (Decidable (_ ∧ _))

/-- The buttons of some presses, together. -/
def union (presses : List AutopilotPress) (held : ℕ) : ℕ :=
  presses.foldl (fun held p => held ||| p.buttons) held

/-- The buttons of all presses that are held at a time. -/
def heldAt (presses : List AutopilotPress) (elapsed : ℕ) : ℕ :=
  union (presses.filter fun p => Active elapsed p) 0

/-- In the order of the starts, the presses after one that begins later begin later. -/
theorem scan_eq {presses : List AutopilotPress} (elapsed : ℕ)
    (hsorted : presses.Pairwise fun p q => p.startMicros ≤ q.startMicros) (held : ℕ) :
    scan elapsed presses held = union (presses.filter fun p => Active elapsed p) held := by
  induction presses generalizing held with
  | nil => rfl
  | cons p rest ih =>
    obtain ⟨hlater, hrest⟩ := List.pairwise_cons.mp hsorted
    rw [scan]
    by_cases hbegun : elapsed < p.startMicros
    · have hnone : (p :: rest).filter (fun p => Active elapsed p) = [] := by
        apply List.filter_eq_nil_iff.mpr
        intro q hq
        have hstart : p.startMicros ≤ q.startMicros := by
          rcases List.mem_cons.mp hq with rfl | hq
          · exact le_rfl
          · exact hlater q hq
        rw [decide_eq_true_iff, Active]
        omega
      rw [if_pos hbegun, hnone]
      rfl
    · rw [if_neg hbegun, ih hrest]
      by_cases hover : elapsed < p.endMicros
      · rw [if_pos hover, List.filter_cons_of_pos]
        · rfl
        · exact decide_eq_true ⟨Nat.not_lt.mp hbegun, hover⟩
      · rw [if_neg hover, List.filter_cons_of_neg]
        rw [decide_eq_true_iff, Active]
        omega

/-- The cursor stands behind presses that are over. -/
def Over (presses : List AutopilotPress) (cursor elapsed : ℕ) : Prop :=
  ∀ p ∈ presses.take cursor, p.endMicros ≤ elapsed

theorem Over.mono {presses : List AutopilotPress} {cursor elapsed elapsed' : ℕ}
    (h : Over presses cursor elapsed) (hle : elapsed ≤ elapsed') : Over presses cursor elapsed' :=
  fun p hp => (h p hp).trans hle

theorem skip_over {presses : List AutopilotPress} {elapsed : ℕ} (rest : List AutopilotPress)
    {cursor : ℕ} (hrest : rest = presses.drop cursor) (h : Over presses cursor elapsed) :
    Over presses (skip elapsed rest cursor) elapsed := by
  induction rest generalizing cursor with
  | nil => exact h
  | cons p rest ih =>
    rw [skip]
    split
    · next hp =>
      have hcursor : cursor < presses.length := by
        by_contra hge
        rw [List.drop_eq_nil_of_le (Nat.not_lt.mp hge)] at hrest
        cases hrest
      rw [List.drop_eq_getElem_cons hcursor] at hrest
      obtain ⟨hfirst, hdrop⟩ := List.cons.inj hrest
      refine ih hdrop fun q hq => ?_
      rw [List.take_succ_eq_append_getElem hcursor, List.mem_append, List.mem_singleton] at hq
      rcases hq with hq | rfl
      · exact h q hq
      · exact hfirst ▸ hp
    · exact h

/-- Presses that are over do not count. -/
theorem scan_drop {presses : List AutopilotPress} {cursor elapsed : ℕ}
    (hsorted : presses.Pairwise fun p q => p.startMicros ≤ q.startMicros)
    (h : Over presses cursor elapsed) :
    scan elapsed (presses.drop cursor) 0 = heldAt presses elapsed := by
  have hover : (presses.take cursor).filter (fun p => Active elapsed p) = [] := by
    apply List.filter_eq_nil_iff.mpr
    intro p hp
    have hend := h p hp
    rw [decide_eq_true_iff, Active]
    omega
  have hsplit : presses.filter (fun p => Active elapsed p) =
      (presses.drop cursor).filter fun p => Active elapsed p := by
    calc presses.filter (fun p => Active elapsed p)
        = (presses.take cursor ++ presses.drop cursor).filter fun p => Active elapsed p := by
          rw [List.take_append_drop]
      _ = (presses.drop cursor).filter fun p => Active elapsed p := by
          rw [List.filter_append, hover, List.nil_append]
  rw [scan_eq elapsed (hsorted.sublist (List.drop_sublist cursor presses)), heldAt, hsplit]

/-! ### Calls -/

variable {pilot : PadAutopilot}

/-- The clock runs, and what the cursor has passed is over. -/
structure Running (pilot : PadAutopilot) (now : ℕ) : Prop where
  started : pilot.started = true
  origin_le : pilot.origin ≤ now
  passed : Over pilot.presses pilot.cursor (now - pilot.origin)

theorem apply_spec (hne : pilot.presses ≠ [])
    (hsorted : pilot.presses.Pairwise fun p q => p.startMicros ≤ q.startMicros) {last now : ℕ}
    (h : Running pilot last) (hle : last ≤ now) (sample : PadSample) :
    (pilot.apply sample now).1 = heldAt pilot.presses (now - pilot.origin) ∧
      Running (pilot.apply sample now).2.2 now ∧
      (pilot.apply sample now).2.2.presses = pilot.presses ∧
      (pilot.apply sample now).2.2.origin = pilot.origin := by
  have hstart : pilot.start now = pilot := if_pos h.started
  have horigin := h.origin_le.trans hle
  have hover := skip_over (pilot.presses.drop pilot.cursor) rfl
    (h.passed.mono (Nat.sub_le_sub_right hle pilot.origin))
  rw [apply, if_neg hne, hstart]
  dsimp only
  rw [if_pos horigin]
  exact ⟨scan_drop hsorted hover, ⟨h.started, horigin, hover⟩, rfl, rfl⟩

theorem applyAll_running (hne : pilot.presses ≠ [])
    (hsorted : pilot.presses.Pairwise fun p q => p.startMicros ≤ q.startMicros) {last : ℕ}
    (h : Running pilot last) {calls : List (PadSample × ℕ)} (hlast : ∀ c ∈ calls, last ≤ c.2)
    (hcalls : calls.Pairwise fun c c' => c.2 ≤ c'.2) :
    applyAll pilot calls = calls.map fun c => heldAt pilot.presses (c.2 - pilot.origin) := by
  induction calls generalizing pilot last with
  | nil => rfl
  | cons c calls ih =>
    obtain ⟨hlater, hrest⟩ := List.pairwise_cons.mp hcalls
    obtain ⟨hheld, hrunning, hpresses, horigin⟩ :=
      apply_spec hne hsorted h (hlast c List.mem_cons_self) c.1
    rw [List.map_cons, applyAll]
    dsimp only
    rw [ih (hpresses ▸ hne) (hpresses ▸ hsorted) hrunning hlater hrest, hheld, hpresses, horigin]

/-- The first call starts the clock. -/
theorem applyAll_load {script : AutopilotScript} (herror : script.error = "")
    (hsorted : script.presses.Pairwise fun p q => p.startMicros ≤ q.startMicros) (sample : PadSample)
    (first : ℕ) {calls : List (PadSample × ℕ)}
    (hcalls : ((sample, first) :: calls).Pairwise fun c c' => c.2 ≤ c'.2) :
    applyAll (load script) ((sample, first) :: calls) =
      ((sample, first) :: calls).map fun c => heldAt script.presses (c.2 - first) := by
  have hpresses : (load script).presses = script.presses := by
    rw [load, herror]
    rfl
  by_cases hempty : script.presses = []
  · -- an empty script leaves the pilot off
    have hoff : ∀ calls, applyAll (load script) calls = calls.map fun _ => 0 := by
      intro calls
      induction calls with
      | nil => rfl
      | cons c calls ih =>
        rw [applyAll, apply, hpresses, if_pos hempty]
        dsimp only
        rw [ih, List.map_cons]
    rw [hoff, hempty]
    rfl
  · have hrunning : Running ((load script).start first) first :=
      ⟨rfl, le_rfl, fun _ hp => absurd hp (List.take_zero ▸ List.not_mem_nil)⟩
    have hpresses' : ((load script).start first).presses = script.presses := hpresses
    have hstarted : applyAll (load script) ((sample, first) :: calls) =
        applyAll ((load script).start first) ((sample, first) :: calls) := by
      have happly : (load script).apply sample first =
          ((load script).start first).apply sample first := by
        rw [apply, apply, if_neg (hpresses.symm ▸ hempty), if_neg (hpresses'.symm ▸ hempty)]
        rfl
      rw [applyAll, applyAll, happly]
    obtain ⟨hlater, _⟩ := List.pairwise_cons.mp hcalls
    rw [hstarted, applyAll_running (hpresses'.symm ▸ hempty) (hpresses'.symm ▸ hsorted) hrunning
      (fun c hc => ?_) hcalls, hpresses']
    · rfl
    · rcases List.mem_cons.mp hc with rfl | hc
      · exact le_rfl
      · exact hlater c hc

/-- What a script is parsed to, and what is played of it. -/
structure Plays (script : AutopilotScript) : Prop where
  parsed : (script.error ≠ "" ∧ script.presses = []) ∨ (script.error = "" ∧
    script.presses.length ≤ Autopilot.kMaxPresses ∧
    script.presses.Pairwise (fun p q => p.startMicros ≤ q.startMicros) ∧
    ∀ p ∈ script.presses, p.startMicros ≤ p.endMicros)
  /-- Each call reports the buttons of the presses that are held then. -/
  cursor : script.error = "" → ∀ sample first calls,
    ((sample, first) :: calls).Pairwise (fun c c' => c.2 ≤ c'.2) →
    applyAll (load script) ((sample, first) :: calls) =
      ((sample, first) :: calls).map fun c => heldAt script.presses (c.2 - first)
  buttonsAt : script.error = "" → ∀ elapsed,
    (load script).buttonsAt elapsed = heldAt script.presses elapsed

theorem cursor_plays (R : Rounding) (S : Autopilot.PressSort) (text : List Char) :
    Plays (Autopilot.parseScript R S text) := by
  have hspec := Autopilot.parseScript_spec R S text
  have hsorted := Autopilot.parseScript_sorted R S text
  generalize Autopilot.parseScript R S text = script at hspec hsorted
  refine ⟨hspec.imp id fun h => ⟨h.1, h.2.length_le, hsorted, h.2.ordered⟩, ?_, ?_⟩
  · intro herror sample first calls hcalls
    exact applyAll_load herror hsorted sample first hcalls
  · intro herror elapsed
    rw [buttonsAt, load, herror]
    exact scan_eq elapsed hsorted 0

end PadAutopilot

end Input
