import MkwiiPs5.Memory.ArenaHandles

/-!
# Runs over arena handles

In every run the lists hold exactly the mapped aliases, these lie apart inside their reservation,
the counters count them, and nothing that a record keeps is released twice.
-/

namespace MkwPs5Memory.Handles

open LinkedList (Chain Link)

/-! ### What the native calls leave -/

/-- What is kept of a resource after a call about it: where it is and how large. -/
def Call.leaves (c : Call) (a : Answer) (before : Option (ℤ × ℕ)) : Option (ℤ × ℕ) :=
  match c with
  | .directMemorySize => before
  | .reserve address size | .mapFixed address size _ =>
    if a.rc = 0 ∧ a.address = address then some (address, size) else before
  | .allocate _ size => if a.rc = 0 ∧ 0 ≤ a.physical then some (a.physical, size) else before
  | .map size _ => if a.address ≠ 0 then some (a.address, size) else before
  | .replace _ _ | .unmap _ _ | .release _ _ => if a.rc = 0 then none else before

/-- What is kept of a resource after the calls of a history. -/
def held : List Event → Resource → Option (ℤ × ℕ)
  | [], _ => none
  | e :: past, r =>
    if e.resource = some r then e.call.leaves e.answer (held past r) else held past r

/-- What a call releases. -/
def Call.releases : Call → Option (ℤ × ℕ)
  | .replace address size | .unmap address size => some (address, size)
  | .release physical size => some (physical, size)
  | _ => none

/-- A call releases nothing of a resource but what is kept of it. -/
def Good (e : Event) (past : List Event) : Prop :=
  ∀ r, e.resource = some r → ∀ x, e.call.releases = some x → held past r = some x

def Arena.kept (arena : Arena) : Option (ℤ × ℕ) :=
  if arena.base = 0 then .none else some (arena.base, arena.size)

def Backing.keptPhysical (backing : Backing) : Option (ℤ × ℕ) :=
  if backing.physical < 0 then .none else some (backing.physical, backing.size)

def Backing.keptHost (backing : Backing) : Option (ℤ × ℕ) :=
  if backing.host = 0 then .none else some (backing.host, backing.size)

def Alias.kept (handle : Alias) : Option (ℤ × ℕ) :=
  if handle.address = 0 then .none else some (handle.address, handle.size)

/-- What the records keep. -/
def Records.recorded (s : Records) : Resource → Option (ℤ × ℕ)
  | .reservation A => (s.arenas A).kept
  | .allocation B => (s.backings B).keptPhysical
  | .host B => (s.backings B).keptHost
  | .view a => (s.aliases a).kept

/-- The calls release what is kept only, and the records keep what the calls left. -/
structure Logged (s : Records) (log : List Event) : Prop where
  good : History.Ok Good log
  held : ∀ r, held log r = s.recorded r

/-! ### The lists and the counters -/

/-- A part of the reservation that belongs to an arena. -/
structure Inside (arena : Arena) (handle : Alias) : Prop where
  reserved : arena.base ≠ 0
  lower : arena.base ≤ handle.address
  upper : handle.address + handle.size ≤ arena.base + arena.size
  size : 0 < handle.size

/-- The list of each arena starts at the arena, ends, and holds the aliases that name the arena. -/
structure Lists (s : Records) (lists : Handle → List Handle) : Prop where
  chain : ∀ A, Chain s.next (s.arenas A).aliases (lists A)
  mem : ∀ A a, a ∈ lists A ↔ (s.aliases a).arena = some A

/-- The aliases that name an arena lie apart inside it, the others are empty. -/
structure Placed (s : Records) : Prop where
  unmapped : ∀ a, (s.aliases a).arena = none → s.aliases a = .none
  inside : ∀ a A, (s.aliases a).arena = some A → Inside (s.arenas A) (s.aliases a)
  backing : ∀ a A, (s.aliases a).arena = some A → ∃ B, (s.aliases a).backing = some B
  apart : ∀ a b A, a ≠ b → (s.aliases a).arena = some A → (s.aliases b).arena = some A →
    ¬ Interval.Meets (s.aliases a).address (s.aliases a).size (s.aliases b).address
      (s.aliases b).size
  arena : ∀ A, (s.arenas A).base ≠ 0 →
    (s.arenas A).base = GuestBase ∧ (s.arenas A).size = GuestSpaceSize

/-- A backing counts the aliases that name it. -/
def Counted (s : Records) : Prop :=
  ∀ B, (s.backings B).aliases = {a | (s.aliases a).backing = some B}.ncard

/-- What holds of the records in every run. -/
structure Linked (s : Records) (lists : Handle → List Handle) : Prop where
  lists : Lists s lists
  placed : Placed s
  counted : Counted s

variable {env : ℕ → Answer} {w w' : World} {lists : Handle → List Handle}

theorem Linked.initial : Linked .initial fun _ => [] where
  lists := ⟨fun _ => rfl, fun _ _ => ⟨nofun, nofun⟩⟩
  placed := ⟨fun _ _ => rfl, fun _ _ => nofun, fun _ _ => nofun, fun _ _ _ _ => nofun,
    fun _ h => absurd rfl h⟩
  counted B := by
    have hempty : {a : Handle | (Records.initial.aliases a).backing = some B} = ∅ := by
      ext a
      exact ⟨nofun, nofun⟩
    rw [hempty, Set.ncard_empty]
    rfl

theorem Logged.initial : Logged .initial [] where
  good := History.ok_nil
  held r := by cases r <;> rfl

/-! ### Records that change -/

section Changes

variable {arena : Arena} {backing : Backing} {handle : Alias} {A B a : Handle} {r : Resource}

theorem recorded_setArena_self : (w.setArena A arena).recorded (.reservation A) = arena.kept := by
  simp only [Records.recorded, World.setArena, Function.update_self]

theorem recorded_setArena (h : r ≠ .reservation A) :
    (w.setArena A arena).recorded r = w.recorded r := by
  cases r with
  | reservation A' =>
    have hne : A' ≠ A := fun heq => h (heq ▸ rfl)
    simp only [Records.recorded, World.setArena, Function.update_of_ne hne]
  | allocation | host | view => rfl

theorem recorded_allocation_self :
    (w.setBacking B backing).recorded (.allocation B) = backing.keptPhysical := by
  simp only [Records.recorded, World.setBacking, Function.update_self]

theorem recorded_host_self :
    (w.setBacking B backing).recorded (.host B) = backing.keptHost := by
  simp only [Records.recorded, World.setBacking, Function.update_self]

theorem recorded_setBacking (halloc : r = .allocation B →
    backing.keptPhysical = (w.backings B).keptPhysical)
    (hhost : r = .host B → backing.keptHost = (w.backings B).keptHost) :
    (w.setBacking B backing).recorded r = w.recorded r := by
  cases r with
  | allocation B' =>
    by_cases hB : B' = B
    · subst hB
      rw [recorded_allocation_self, halloc rfl]
      rfl
    · simp only [Records.recorded, World.setBacking, Function.update_of_ne hB]
  | host B' =>
    by_cases hB : B' = B
    · subst hB
      rw [recorded_host_self, hhost rfl]
      rfl
    · simp only [Records.recorded, World.setBacking, Function.update_of_ne hB]
  | reservation | view => rfl

theorem Linked.setBacking (B : Handle) (backing : Backing) (h : Linked w.toRecords lists)
    (hcount : backing.aliases = (w.backings B).aliases) :
    Linked (w.setBacking B backing).toRecords lists where
  lists := ⟨h.lists.chain, h.lists.mem⟩
  placed := { h.placed with }
  counted B' := by
    show (Function.update w.backings B backing B').aliases = _
    by_cases hB : B' = B
    · subst hB
      rw [Function.update_self, hcount]
      exact h.counted B'
    · rw [Function.update_of_ne hB]
      exact h.counted B'

/-- An arena without aliases gets other bounds. -/
theorem Linked.setArena (arena : Arena) (h : Linked w.toRecords lists)
    (hlist : (w.arenas A).aliases = none)
    (haliases : arena.aliases = none)
    (hbounds : arena.base ≠ 0 → arena.base = GuestBase ∧ arena.size = GuestSpaceSize) :
    Linked (w.setArena A arena).toRecords lists := by
  have hempty : lists A = [] := (h.lists.chain A).unique (m := []) hlist
  have hother : ∀ a A', (w.aliases a).arena = some A' → A' ≠ A := by
    rintro a A' ha rfl
    have hmem := (h.lists.mem A' a).mpr ha
    rw [hempty] at hmem
    exact absurd hmem List.not_mem_nil
  refine ⟨⟨fun A' => ?_, h.lists.mem⟩,
    { h.placed with inside := fun a A' ha => ?_, arena := fun A' => ?_ }, h.counted⟩
  · show Chain _ (Function.update w.arenas A arena A').aliases _
    by_cases hA : A' = A
    · subst hA
      rw [Function.update_self, haliases, hempty]
      exact rfl
    · rw [Function.update_of_ne hA]
      exact h.lists.chain A'
  · show Inside (Function.update w.arenas A arena A') _
    rw [Function.update_of_ne (hother a A' ha)]
    exact h.placed.inside a A' ha
  · show (Function.update w.arenas A arena A').base ≠ 0 → _
    by_cases hA : A' = A
    · subst hA
      simp only [World.setArena, Function.update_self]
      exact hbounds
    · simp only [World.setArena, Function.update_of_ne hA]
      exact h.placed.arena A'

/-! ### A new alias -/

theorem Lists.not_mem (h : Lists w.toRecords lists) (ha : (w.aliases a).arena = none)
    (A : Handle) : a ∉ lists A := fun hmem => nomatch ha.symm.trans ((h.mem A a).mp hmem)

theorem push_aliases_self (w : World) (a A B : Handle) (handle : Alias) :
    (w.push a A B handle).aliases a = handle := Function.update_self ..

theorem push_aliases_of_ne {b : Handle} (hb : b ≠ a) :
    (w.push a A B handle).aliases b = w.aliases b := Function.update_of_ne hb ..

theorem push_next (w : World) (a A B : Handle) (handle : Alias) :
    (w.push a A B handle).next = Function.update w.next a handle.next := by
  funext b
  show ((w.push a A B handle).aliases b).next = _
  by_cases hb : b = a
  · subst hb
    rw [push_aliases_self, Function.update_self]
  · rw [push_aliases_of_ne hb, Function.update_of_ne hb]
    rfl

theorem push_arenas (w : World) (a A B : Handle) (handle : Alias) (A' : Handle) :
    (w.push a A B handle).arenas A' =
      { w.arenas A' with aliases := if A' = A then some a else (w.arenas A').aliases } := by
  show Function.update w.arenas A { w.arenas A with aliases := some a } A' = _
  by_cases hA : A' = A
  · subst hA
    rw [Function.update_self, if_pos rfl]
  · rw [Function.update_of_ne hA, if_neg hA]

theorem Inside.congr {arena' : Arena} (h : Inside arena handle) (hbase : arena'.base = arena.base)
    (hsize : arena'.size = arena.size) : Inside arena' handle :=
  ⟨hbase ▸ h.reserved, hbase ▸ h.lower, by rw [hbase, hsize]; exact h.upper, h.size⟩

theorem Lists.push (h : Lists w.toRecords lists) (ha : (w.aliases a).arena = none)
    (harena : handle.arena = some A) (hnext : handle.next = (w.arenas A).aliases) :
    Lists (w.push a A B handle).toRecords (Function.update lists A (a :: lists A)) := by
  refine ⟨fun A' => ?_, fun A' b => ?_⟩
  · rw [push_next, push_arenas]
    by_cases hA : A' = A
    · subst hA
      rw [Function.update_self, if_pos rfl, hnext]
      exact (h.chain A').push (h.not_mem ha A')
    · rw [Function.update_of_ne hA, if_neg hA]
      exact (h.chain A').congr fun b hb =>
        Function.update_of_ne (ne_of_mem_of_not_mem hb (h.not_mem ha A')) ..
  · have hlist : b ∈ Function.update lists A (a :: lists A) A' ↔
        b ∈ lists A' ∨ (b = a ∧ A' = A) := by
      by_cases hA : A' = A
      · subst hA
        rw [Function.update_self, List.mem_cons, and_iff_left rfl, or_comm]
      · rw [Function.update_of_ne hA, or_iff_left fun hb => hA hb.2]
    rw [hlist]
    by_cases hb : b = a
    · subst hb
      rw [push_aliases_self, harena, or_iff_right (h.not_mem ha A'), and_iff_right rfl,
        Option.some.injEq, eq_comm]
    · rw [push_aliases_of_ne hb, or_iff_left fun heq => hb heq.1]
      exact h.mem A' b

theorem Placed.push (h : Placed w.toRecords) (harena : handle.arena = some A)
    (hbacking : handle.backing = some B) (hinside : Inside (w.arenas A) handle)
    (hapart : ∀ b, (w.aliases b).arena = some A → ¬ Interval.Meets handle.address handle.size
      (w.aliases b).address (w.aliases b).size) :
    Placed (w.push a A B handle).toRecords := by
  refine ⟨fun b hb => ?_, fun b A' hb => ?_, fun b A' hb => ?_, fun b c A' hbc hb hc => ?_,
    fun A' hA => ?_⟩
  · by_cases heq : b = a
    · subst heq
      rw [push_aliases_self, harena] at hb
      exact nomatch hb
    · rw [push_aliases_of_ne heq] at hb ⊢
      exact h.unmapped b hb
  · rw [push_arenas]
    by_cases heq : b = a
    · subst heq
      rw [push_aliases_self, harena] at hb
      obtain rfl := Option.some.inj hb
      rw [push_aliases_self]
      exact hinside.congr rfl rfl
    · rw [push_aliases_of_ne heq] at hb ⊢
      exact (h.inside b A' hb).congr rfl rfl
  · by_cases heq : b = a
    · subst heq
      exact ⟨B, by rw [push_aliases_self, hbacking]⟩
    · rw [push_aliases_of_ne heq] at hb ⊢
      exact h.backing b A' hb
  · -- the new alias is apart from the arena's others, and each of these from it
    by_cases hba : b = a
    · subst hba
      rw [push_aliases_self, harena] at hb
      rw [push_aliases_of_ne (Ne.symm hbc)] at hc ⊢
      obtain rfl := Option.some.inj hb
      rw [push_aliases_self]
      exact hapart c hc
    by_cases hca : c = a
    · subst hca
      rw [push_aliases_self, harena] at hc
      rw [push_aliases_of_ne hbc] at hb ⊢
      obtain rfl := Option.some.inj hc
      rw [push_aliases_self]
      exact fun hmeets => hapart b hb hmeets.symm
    · rw [push_aliases_of_ne hba] at hb ⊢
      rw [push_aliases_of_ne hca] at hc ⊢
      exact h.apart b c A' hbc hb hc
  · rw [push_arenas] at hA ⊢
    exact h.arena A' hA

theorem ncard_handles_le (s : Set Handle) : s.ncard ≤ 2 ^ 64 - 1 := by
  have hle := Set.ncard_le_ncard (Set.subset_univ s)
  rwa [Set.ncard_univ, Nat.card_eq_fintype_card, Fintype.card_fin] at hle

/-- The counter does not wrap around: there are fewer records than it has values. -/
theorem Counted.push (h : Counted w.toRecords) (ha : (w.aliases a).backing = none)
    (hbacking : handle.backing = some B) : Counted (w.push a A B handle).toRecords := by
  intro B'
  show (Function.update w.backings B _ B').aliases = _
  by_cases hB : B' = B
  · subst hB
    have hset : {b | ((w.push a A B' handle).aliases b).backing = some B'} =
        insert a {b | (w.aliases b).backing = some B'} := by
      ext b
      by_cases heq : b = a
      · subst heq
        simp only [push_aliases_self, hbacking, Set.mem_ofPred_eq, Set.mem_insert_iff, true_or]
      · simp only [push_aliases_of_ne heq, Set.mem_ofPred_eq, Set.mem_insert_iff, heq, false_or]
    have hnot : a ∉ {b | (w.aliases b).backing = some B'} := by
      simp only [Set.mem_ofPred_eq, ha, reduceCtorEq, not_false_eq_true]
    have hle := ncard_handles_le (insert a {b | (w.aliases b).backing = some B'})
    rw [hset, Function.update_self]
    rw [Set.ncard_insert_of_notMem hnot] at hle ⊢
    show ((w.backings B').aliases + 1) % 2 ^ 64 = _
    rw [h B']
    exact Nat.mod_eq_of_lt (by omega)
  · have hset : {b | ((w.push a A B handle).aliases b).backing = some B'} =
        {b | (w.aliases b).backing = some B'} := by
      ext b
      by_cases heq : b = a
      · subst heq
        simp only [Set.mem_ofPred_eq, push_aliases_self, hbacking, ha, Option.some.injEq,
          Ne.symm hB, reduceCtorEq]
      · simp only [Set.mem_ofPred_eq, push_aliases_of_ne heq]
    rw [hset, Function.update_of_ne hB]
    exact h B'

/-- Where only one alias and the lists and counters change, all else is kept. -/
theorem recorded_congr {s s' : Records} (hr : r ≠ .view a)
    (harenas : ∀ A, (s'.arenas A).kept = (s.arenas A).kept)
    (hphysical : ∀ B, (s'.backings B).keptPhysical = (s.backings B).keptPhysical)
    (hhost : ∀ B, (s'.backings B).keptHost = (s.backings B).keptHost)
    (haliases : ∀ b ≠ a, (s'.aliases b).kept = (s.aliases b).kept) :
    s'.recorded r = s.recorded r := by
  cases r with
  | reservation A => exact harenas A
  | allocation B => exact hphysical B
  | host B => exact hhost B
  | view b => exact haliases b fun heq => hr (heq ▸ rfl)

/-- A counter is kept beside what it counts. -/
theorem kept_count (backings : Handle → Backing) (B : Handle) (n : ℕ) (B' : Handle) :
    (Function.update backings B { backings B with aliases := n } B').keptPhysical =
        (backings B').keptPhysical ∧
      (Function.update backings B { backings B with aliases := n } B').keptHost =
        (backings B').keptHost := by
  by_cases hB : B' = B
  · subst hB
    rw [Function.update_self]
    exact ⟨rfl, rfl⟩
  · rw [Function.update_of_ne hB]
    exact ⟨rfl, rfl⟩

theorem recorded_push (hr : r ≠ .view a) :
    (w.push a A B handle).recorded r = w.recorded r := by
  refine recorded_congr hr (fun A' => ?_) (fun B' => (kept_count _ B _ B').1)
    (fun B' => (kept_count _ B _ B').2) fun b hb => ?_
  · rw [push_arenas]
    rfl
  · rw [push_aliases_of_ne hb]

/-! ### An alias that goes -/

/-- The records after an alias is taken out of a list, at the place where it is named. -/
def World.pull (w : World) (a A B : Handle) (link : Link Handle) : World :=
  (w.setLink A (w.next a) link).drop a B

theorem setLink_aliases (w : World) (A : Handle) (value : Option Handle) (link : Link Handle)
    (b : Handle) : (w.setLink A value link).aliases b =
      { w.aliases b with next := link.setNext w.next value b } := by
  cases link with
  | head => rfl
  | after c =>
    show Function.update w.aliases c { w.aliases c with next := value } b =
      { w.aliases b with next := Function.update w.next c value b }
    by_cases hb : b = c
    · subst hb
      rw [Function.update_self, Function.update_self]
    · rw [Function.update_of_ne hb, Function.update_of_ne hb]
      rfl

theorem pull_aliases_self (w : World) (a A B : Handle) (link : Link Handle) :
    (w.pull a A B link).aliases a = .none := Function.update_self ..

theorem pull_aliases_of_ne {b : Handle} {link : Link Handle} (hb : b ≠ a) :
    (w.pull a A B link).aliases b =
      { w.aliases b with next := link.setNext w.next (w.next a) b } :=
  (Function.update_of_ne hb ..).trans (setLink_aliases ..)

theorem pull_arenas (w : World) (a A B : Handle) (link : Link Handle) (A' : Handle) :
    (w.pull a A B link).arenas A' =
      { w.arenas A' with
        aliases := if A' = A then link.setHead (w.arenas A).aliases (w.next a)
          else (w.arenas A').aliases } := by
  cases link with
  | head =>
    show Function.update w.arenas A { w.arenas A with aliases := w.next a } A' = _
    by_cases hA : A' = A
    · subst hA
      rw [Function.update_self, if_pos rfl]
      rfl
    · rw [Function.update_of_ne hA, if_neg hA]
  | after c =>
    show w.arenas A' = _
    by_cases hA : A' = A
    · subst hA
      rw [if_pos rfl]
      rfl
    · rw [if_neg hA]

theorem Lists.pull {before after : List Handle} (h : Lists w.toRecords lists)
    (hlist : lists A = before ++ a :: after) :
    Lists (w.pull a A B (Link.head.behind before)).toRecords
      (Function.update lists A (before ++ after)) := by
  have hchain := h.chain A
  rw [hlist] at hchain
  have hnodup := hchain.nodup
  have ha : (w.aliases a).arena = some A :=
    (h.mem A a).mp (hlist ▸ List.mem_append_right before List.mem_cons_self)
  have hnot : a ∉ before ++ after := by
    intro hmem
    obtain ⟨_, hrest, hapart⟩ := List.nodup_append.mp hnodup
    rcases List.mem_append.mp hmem with hmem | hmem
    · exact hapart a hmem a List.mem_cons_self rfl
    · exact (List.nodup_cons.mp hrest).1 hmem
  have hnext : ∀ b ≠ a, (w.pull a A B (Link.head.behind before)).next b =
      (Link.head.behind before).setNext w.next (w.next a) b := by
    intro b hb
    show ((w.pull a A B (Link.head.behind before)).aliases b).next = _
    rw [pull_aliases_of_ne hb]
  refine ⟨fun A' => ?_, fun A' b => ?_⟩
  · rw [pull_arenas]
    by_cases hA : A' = A
    · subst hA
      rw [Function.update_self, if_pos rfl]
      exact hchain.unlink.congr fun b hb => hnext b (ne_of_mem_of_not_mem hb hnot)
    · rw [Function.update_of_ne hA, if_neg hA]
      refine (h.chain A').congr fun b hb => ?_
      -- the nodes of another list name another arena
      have hother : b ∉ lists A := fun hmem =>
        hA (Option.some.inj (((h.mem A' b).mp hb).symm.trans ((h.mem A b).mp hmem)))
      rw [hlist, List.mem_append, List.mem_cons, not_or, not_or] at hother
      rw [hnext b hother.2.1, Link.setNext_of_not_mem hother.1]
  · have hiff : b ∈ Function.update lists A (before ++ after) A' ↔ b ∈ lists A' ∧ b ≠ a := by
      by_cases hA : A' = A
      · subst hA
        rw [Function.update_self, hlist]
        constructor
        · intro hmem
          exact ⟨List.mem_append.mpr ((List.mem_append.mp hmem).imp_right (List.mem_cons_of_mem a)),
            ne_of_mem_of_not_mem hmem hnot⟩
        · rintro ⟨hmem, hne⟩
          exact List.mem_append.mpr ((List.mem_append.mp hmem).imp_right
            (List.mem_of_ne_of_mem hne))
      · rw [Function.update_of_ne hA]
        refine (and_iff_left_of_imp fun hmem => ?_).symm
        rintro rfl
        exact hA (Option.some.inj (((h.mem A' b).mp hmem).symm.trans ha))
    rw [hiff]
    by_cases hb : b = a
    · subst hb
      rw [pull_aliases_self]
      exact iff_of_false (fun hmem => hmem.2 rfl) nofun
    · rw [pull_aliases_of_ne hb, and_iff_left hb]
      exact h.mem A' b

theorem Placed.pull {link : Link Handle} (h : Placed w.toRecords)
    (hlink : ∀ b, (w.aliases b).arena = none → link.setNext w.next (w.next a) b = w.next b) :
    Placed (w.pull a A B link).toRecords := by
  have hmapped : ∀ {b A'}, ((w.pull a A B link).aliases b).arena = some A' → b ≠ a := by
    rintro b A' hb rfl
    rw [pull_aliases_self] at hb
    exact nomatch hb
  refine ⟨fun b hb => ?_, fun b A' hb => ?_, fun b A' hb => ?_, fun b c A' hbc hb hc => ?_,
    fun A' hA => ?_⟩
  · by_cases heq : b = a
    · subst heq
      exact pull_aliases_self ..
    · rw [pull_aliases_of_ne heq] at hb ⊢
      rw [hlink b hb]
      exact h.unmapped b hb
  · have hne := hmapped hb
    rw [pull_aliases_of_ne hne] at hb
    have hold := h.inside b A' hb
    rw [pull_aliases_of_ne hne, pull_arenas]
    exact ⟨hold.reserved, hold.lower, hold.upper, hold.size⟩
  · have hne := hmapped hb
    rw [pull_aliases_of_ne hne] at hb ⊢
    exact h.backing b A' hb
  · have hneb := hmapped hb
    have hnec := hmapped hc
    rw [pull_aliases_of_ne hneb] at hb ⊢
    rw [pull_aliases_of_ne hnec] at hc ⊢
    exact h.apart b c A' hbc hb hc
  · rw [pull_arenas] at hA ⊢
    exact h.arena A' hA

theorem pull_backings (w : World) (a A B : Handle) (link : Link Handle) :
    (w.pull a A B link).backings = Function.update w.backings B { w.backings B with
      aliases := ((w.backings B).aliases + (2 ^ 64 - 1)) % 2 ^ 64 } := by
  cases link <;> rfl

theorem pull_log (w : World) (a A B : Handle) (link : Link Handle) :
    (w.pull a A B link).log = w.log := by
  cases link <;> rfl

theorem recorded_pull {link : Link Handle} (hr : r ≠ .view a) :
    (w.pull a A B link).recorded r = w.recorded r := by
  refine recorded_congr hr (fun A' => ?_) (fun B' => ?_) (fun B' => ?_) fun b hb => ?_
  · rw [pull_arenas]
    rfl
  · rw [pull_backings]
    exact (kept_count _ B _ B').1
  · rw [pull_backings]
    exact (kept_count _ B _ B').2
  · rw [pull_aliases_of_ne hb]
    rfl

theorem Counted.pull {link : Link Handle} (h : Counted w.toRecords)
    (ha : (w.aliases a).backing = some B) : Counted (w.pull a A B link).toRecords := by
  intro B'
  rw [pull_backings]
  by_cases hB : B' = B
  · subst hB
    have hset : {b | ((w.pull a A B' link).aliases b).backing = some B'} =
        {b | (w.aliases b).backing = some B'} \ {a} := by
      ext b
      by_cases heq : b = a
      · subst heq
        simp only [pull_aliases_self, Alias.none, Set.mem_ofPred_eq, Set.mem_sdiff,
          Set.mem_singleton_iff, not_true_eq_false, and_false, reduceCtorEq]
      · simp only [pull_aliases_of_ne heq, Set.mem_ofPred_eq, Set.mem_sdiff,
          Set.mem_singleton_iff, heq, not_false_eq_true, and_true]
    have hmem : a ∈ {b | (w.aliases b).backing = some B'} := ha
    have hpos := (Set.ncard_pos).mpr ⟨a, hmem⟩
    have hle := ncard_handles_le {b | (w.aliases b).backing = some B'}
    rw [Function.update_self, hset, Set.ncard_sdiff_singleton_of_mem hmem]
    show ((w.backings B').aliases + (2 ^ 64 - 1)) % 2 ^ 64 = _
    rw [h B']
    omega
  · have hset : {b | ((w.pull a A B link).aliases b).backing = some B'} =
        {b | (w.aliases b).backing = some B'} := by
      ext b
      by_cases heq : b = a
      · subst heq
        simp only [Set.mem_ofPred_eq, pull_aliases_self, Alias.none, ha, Option.some.injEq,
          Ne.symm hB, reduceCtorEq]
      · simp only [Set.mem_ofPred_eq, pull_aliases_of_ne heq]
    rw [hset, Function.update_of_ne hB]
    exact h B'

end Changes

/-! ### Native calls and the history -/

/-- A call after which the records keep what it left. -/
theorem Logged.cons {s s' : Records} {log : List Event} {r : Resource} {c : Call} {a : Answer}
    (h : Logged s log) (hgood : ∀ x, c.releases = some x → s.recorded r = some x)
    (hself : s'.recorded r = c.leaves a (s.recorded r))
    (hother : ∀ r' ≠ r, s'.recorded r' = s.recorded r') :
    Logged s' (⟨some r, c, a⟩ :: log) where
  good := by
    refine ⟨fun r' hr' x hx => ?_, h.good⟩
    obtain rfl := Option.some.inj hr'
    rw [h.held]
    exact hgood x hx
  held r' := by
    by_cases hr : r' = r
    · subst hr
      rw [Handles.held, if_pos rfl, h.held, hself]
    · rw [Handles.held, if_neg fun heq => hr (Option.some.inj heq).symm, h.held, hother r' hr]

/-- A call that changes nothing that the records keep. -/
theorem Logged.cons_same {s : Records} {log : List Event} {r : Resource} {c : Call} {a : Answer}
    (h : Logged s log) (hgood : ∀ x, c.releases = some x → s.recorded r = some x)
    (hself : c.leaves a (s.recorded r) = s.recorded r) : Logged s (⟨some r, c, a⟩ :: log) :=
  h.cons hgood hself.symm fun _ _ => rfl

/-- A call about nothing that is kept. -/
theorem Logged.cons_none {s : Records} {log : List Event} (h : Logged s log) (c : Call)
    (a : Answer) : Logged s (⟨none, c, a⟩ :: log) where
  good := by
    refine ⟨fun r hr => ?_, h.good⟩
    exact nomatch hr
  held r := by
    rw [Handles.held, if_neg fun hr => (nomatch hr), h.held]

/-! ### What the functions do -/

/-- What holds in every run. -/
structure Inv (w : World) : Prop where
  linked : ∃ lists, Linked w.toRecords lists
  logged : Logged w.toRecords w.log

theorem Inv.initial : Inv ⟨.initial, []⟩ := ⟨⟨_, .initial⟩, .initial⟩

theorem reserve_spec (h : Inv w) (A : Handle) : Inv (reserve env w A).2 ∧
    ((reserve env w A).1 ≠ 0 → (reserve env w A).2.toRecords = w.toRecords) := by
  obtain ⟨⟨lists, hlinked⟩, hlogged⟩ := h
  unfold reserve
  split
  · exact ⟨⟨⟨lists, hlinked⟩, hlogged⟩, fun _ => rfl⟩
  next hbase =>
  rw [not_not] at hbase
  dsimp only [World.call]
  generalize env w.log.length = a
  have hkept : w.recorded (.reservation A) = none := if_pos hbase
  split
  next hrc =>
    refine ⟨⟨⟨lists, hlinked⟩, hlogged.cons_same (fun x hx => ?_) ?_⟩, fun _ => rfl⟩
    · exact nomatch hx
    · exact if_neg fun hok => hrc hok.1
  next hrc =>
  rw [not_not] at hrc
  split
  next haddress =>
    refine ⟨⟨⟨lists, hlinked⟩, (hlogged.cons_same (fun x hx => ?_) ?_).cons_none ..⟩,
      fun _ => rfl⟩
    · exact nomatch hx
    · exact if_neg fun hok => haddress hok.2
  next haddress =>
  rw [not_not] at haddress
  -- an arena that is not reserved has no aliases
  have hlist : (w.arenas A).aliases = none := by
    have hchain := hlinked.lists.chain A
    have hmem := hlinked.lists.mem A
    cases hlist : lists A with
    | nil =>
      rw [hlist] at hchain
      exact hchain
    | cons b rest =>
      rw [hlist] at hmem
      exact absurd hbase (hlinked.placed.inside b A ((hmem b).mp List.mem_cons_self)).reserved
  have hlinked := hlinked.setArena (A := A)
    { w.arenas A with base := a.address, size := GuestSpaceSize } hlist hlist
    fun _ => ⟨haddress, rfl⟩
  refine ⟨⟨⟨lists, hlinked⟩, hlogged.cons (fun x hx => (nomatch hx)) ?_
    fun r hr => recorded_setArena hr⟩, fun hrc => absurd rfl hrc⟩
  refine recorded_setArena_self.trans ?_
  rw [Call.leaves, if_pos ⟨hrc, haddress⟩, Arena.kept, haddress,
    if_neg (show GuestBase ≠ 0 by decide)]

/-- The native calls that remain until a backing is closed. -/
def Backing.pending (b : Backing) : List Call :=
  (if b.host = 0 then [] else [.unmap b.host b.size]) ++
    if b.physical < 0 then [] else [.release b.physical b.size]

/-- The remaining calls are made in order, up to the first that fails; what succeeded is done. -/
structure Closes (w w' : World) (B : Handle) (rc : ℤ) : Prop where
  calls : ∃ finished : List Event, (∀ e ∈ finished, e.answer.rc = 0) ∧
    (w.backings B).pending = finished.map Event.call ++ (w'.backings B).pending ∧
    (rc = 0 ∧ (w'.backings B).pending = [] ∧ w'.log = finished.reverse ++ w.log ∨
      rc ≠ 0 ∧ ∃ e, e.answer.rc = rc ∧ (w'.backings B).pending.head? = some e.call ∧
        w'.log = e :: (finished.reverse ++ w.log))
  arenas : w'.arenas = w.arenas
  handles : w'.aliases = w.aliases
  others : ∀ B' ≠ B, w'.backings B' = w.backings B'
  count : (w'.backings B).aliases = (w.backings B).aliases

theorem unmapHost_cases (env : ℕ → Answer) (w : World) (B : Handle) :
    (w.backings B).host = 0 ∧ unmapHost env w B = (0, w) ∨
    (w.backings B).host ≠ 0 ∧ ∃ a : Answer,
      let e : Event := ⟨some (.host B), .unmap (w.backings B).host (w.backings B).size, a⟩
      a.rc ≠ 0 ∧ unmapHost env w B = (a.rc, { w with log := e :: w.log }) ∨
      a.rc = 0 ∧ unmapHost env w B =
        (0, { w.setBacking B { w.backings B with host := 0 } with log := e :: w.log }) := by
  unfold unmapHost
  by_cases hhost : (w.backings B).host = 0
  · exact Or.inl ⟨hhost, by rw [if_pos hhost]⟩
  refine Or.inr ⟨hhost, env w.log.length, ?_⟩
  rw [if_neg hhost]
  dsimp only [World.call]
  by_cases hrc : (env w.log.length).rc ≠ 0
  · exact Or.inl ⟨hrc, by rw [if_pos hrc]⟩
  · exact Or.inr ⟨not_not.mp hrc, by rw [if_neg hrc]; rfl⟩

theorem releasePhysical_cases (env : ℕ → Answer) (w : World) (B : Handle) :
    (w.backings B).physical < 0 ∧ releasePhysical env w B = (0, w) ∨
    0 ≤ (w.backings B).physical ∧ ∃ a : Answer,
      let e : Event :=
        ⟨some (.allocation B), .release (w.backings B).physical (w.backings B).size, a⟩
      a.rc ≠ 0 ∧ releasePhysical env w B = (a.rc, { w with log := e :: w.log }) ∨
      a.rc = 0 ∧ releasePhysical env w B =
        (0, { w.setBacking B { w.backings B with physical := -1, size := 0 } with
          log := e :: w.log }) := by
  unfold releasePhysical
  by_cases hphysical : (w.backings B).physical < 0
  · exact Or.inl ⟨hphysical, by rw [if_pos hphysical]⟩
  refine Or.inr ⟨not_lt.mp hphysical, env w.log.length, ?_⟩
  rw [if_neg hphysical]
  dsimp only [World.call]
  by_cases hrc : (env w.log.length).rc ≠ 0
  · exact Or.inl ⟨hrc, by rw [if_pos hrc]⟩
  · exact Or.inr ⟨not_not.mp hrc, by rw [if_neg hrc]; rfl⟩

theorem unmapHost_inv (env : ℕ → Answer) (h : Inv w) (B : Handle) : Inv (unmapHost env w B).2 := by
  rcases unmapHost_cases env w B with ⟨_, heq⟩ | ⟨hhost, a, ⟨hrc, heq⟩ | ⟨hrc, heq⟩⟩
  · rw [heq]
    exact h
  · rw [heq]
    refine ⟨h.linked, h.logged.cons_same (fun x hx => ?_) (if_neg hrc)⟩
    rw [← hx]
    exact if_neg hhost
  · rw [heq]
    obtain ⟨lists, hlinked⟩ := h.linked
    refine ⟨⟨lists, hlinked.setBacking _ _ rfl⟩, h.logged.cons (fun x hx => ?_) ?_ fun r hr => ?_⟩
    · rw [← hx]
      exact if_neg hhost
    · exact recorded_host_self.trans (if_pos hrc).symm
    · exact recorded_setBacking (fun _ => rfl) fun heq => absurd heq hr

theorem releasePhysical_inv (h : Inv w) {B : Handle} (hhost : (w.backings B).host = 0) :
    Inv (releasePhysical env w B).2 := by
  rcases releasePhysical_cases env w B with
    ⟨_, heq⟩ | ⟨hphysical, a, ⟨hrc, heq⟩ | ⟨hrc, heq⟩⟩
  · rw [heq]
    exact h
  · rw [heq]
    refine ⟨h.linked, h.logged.cons_same (fun x hx => ?_) (if_neg hrc)⟩
    rw [← hx]
    exact if_neg (not_lt.mpr hphysical)
  · rw [heq]
    obtain ⟨lists, hlinked⟩ := h.linked
    refine ⟨⟨lists, hlinked.setBacking _ _ rfl⟩, h.logged.cons (fun x hx => ?_) ?_ fun r hr => ?_⟩
    · rw [← hx]
      exact if_neg (not_lt.mpr hphysical)
    · exact recorded_allocation_self.trans (if_pos hrc).symm
    · refine recorded_setBacking (fun heq => absurd heq hr) fun _ => ?_
      rw [Backing.keptHost, Backing.keptHost, if_pos hhost, if_pos hhost]

theorem closeBacking_refused {B : Handle} (hcount : (w.backings B).aliases ≠ 0) :
    closeBacking env w B = (Busy, w) := if_pos hcount

theorem closeBacking_eq {B : Handle} (hcount : (w.backings B).aliases = 0) :
    closeBacking env w B =
      if (unmapHost env w B).1 ≠ 0 then unmapHost env w B
      else releasePhysical env (unmapHost env w B).2 B := if_neg (not_not.mpr hcount)

theorem closeBacking_inv (h : Inv w) (B : Handle) : Inv (closeBacking env w B).2 := by
  by_cases hcount : (w.backings B).aliases = 0
  · have hafter := unmapHost_inv env h B
    rw [closeBacking_eq hcount]
    split
    · exact hafter
    next hrc =>
    refine releasePhysical_inv hafter ?_
    rcases unmapHost_cases env w B with ⟨hhost, heq⟩ | ⟨_, a, ⟨hfail, heq⟩ | ⟨_, heq⟩⟩
    · rw [heq]
      exact hhost
    · rw [heq] at hrc
      exact absurd hfail hrc
    · rw [heq]
      show (Function.update w.backings B _ B).host = 0
      rw [Function.update_self]
  · rw [closeBacking_refused hcount]
    exact h

theorem releasePhysical_closes {B : Handle} (hhost : (w.backings B).host = 0) :
    Closes w (releasePhysical env w B).2 B (releasePhysical env w B).1 := by
  rcases releasePhysical_cases env w B with
    ⟨hphysical, heq⟩ | ⟨hphysical, a, ⟨hrc, heq⟩ | ⟨hrc, heq⟩⟩
  · rw [heq]
    refine ⟨⟨[], nofun, rfl, Or.inl ⟨rfl, ?_, rfl⟩⟩, rfl, rfl, fun _ _ => rfl, rfl⟩
    rw [Backing.pending, if_pos hhost, if_pos hphysical]
    rfl
  · rw [heq]
    refine ⟨⟨[], nofun, rfl, Or.inr ⟨hrc, _, rfl, ?_, rfl⟩⟩, rfl, rfl, fun _ _ => rfl, rfl⟩
    rw [Backing.pending, if_pos hhost, if_neg (not_lt.mpr hphysical)]
    rfl
  · rw [heq]
    have hself : (w.setBacking B { w.backings B with physical := -1, size := 0 }).backings B =
        { w.backings B with physical := -1, size := 0 } := Function.update_self ..
    have hpending : ({ w.backings B with physical := -1, size := 0 } : Backing).pending = [] := by
      rw [Backing.pending, if_pos hhost]
      rfl
    refine ⟨⟨[_], List.forall_mem_singleton.mpr hrc, ?_, Or.inl ⟨rfl, ?_, rfl⟩⟩, rfl, rfl,
      fun B' hB => Function.update_of_ne hB .., ?_⟩
    · show _ = _ ++ ((w.setBacking B _).backings B).pending
      rw [hself, hpending, Backing.pending, if_pos hhost, if_neg (not_lt.mpr hphysical)]
      rfl
    · show ((w.setBacking B _).backings B).pending = []
      rw [hself, hpending]
    · show ((w.setBacking B _).backings B).aliases = _
      rw [hself]

/-- What is made after the first call goes on where that stopped. -/
theorem Closes.after {w₁ w₂ : World} {B : Handle} {rc : ℤ} {e : Event} (h : Closes w₁ w₂ B rc)
    (he : e.answer.rc = 0)
    (hpending : (w.backings B).pending = e.call :: (w₁.backings B).pending)
    (hlog : w₁.log = e :: w.log) (harenas : w₁.arenas = w.arenas)
    (hhandles : w₁.aliases = w.aliases) (hothers : ∀ B' ≠ B, w₁.backings B' = w.backings B')
    (hcount : (w₁.backings B).aliases = (w.backings B).aliases) : Closes w w₂ B rc := by
  obtain ⟨⟨finished, hfinished, hcalls, hend⟩, harenas', hhandles', hothers', hcount'⟩ := h
  refine ⟨⟨e :: finished, List.forall_mem_cons.mpr ⟨he, hfinished⟩, ?_, ?_⟩,
    harenas'.trans harenas, hhandles'.trans hhandles,
    fun B' hB => (hothers' B' hB).trans (hothers B' hB), hcount'.trans hcount⟩
  · rw [hpending, hcalls]
    rfl
  · have hrest : (e :: finished).reverse ++ w.log = finished.reverse ++ w₁.log := by
      rw [hlog, List.reverse_cons, List.append_assoc, List.singleton_append]
    rw [hrest]
    exact hend

theorem closeBacking_closes {B : Handle} (hcount : (w.backings B).aliases = 0) :
    Closes w (closeBacking env w B).2 B (closeBacking env w B).1 := by
  rw [closeBacking_eq hcount]
  rcases unmapHost_cases env w B with ⟨hhost, heq⟩ | ⟨hhost, a, ⟨hrc, heq⟩ | ⟨hrc, heq⟩⟩
  · rw [heq, if_neg (fun h => h rfl)]
    exact releasePhysical_closes hhost
  · rw [heq, if_pos hrc]
    refine ⟨⟨[], nofun, rfl, Or.inr ⟨hrc, _, rfl, ?_, rfl⟩⟩, rfl, rfl, fun _ _ => rfl, rfl⟩
    rw [Backing.pending, if_neg hhost]
    rfl
  · rw [heq, if_neg (fun h => h rfl)]
    have hself : (w.setBacking B { w.backings B with host := 0 }).backings B =
        { w.backings B with host := 0 } := Function.update_self ..
    refine Closes.after (w := w) (releasePhysical_closes (congrArg Backing.host hself)) hrc ?_ rfl
      rfl rfl (fun B' hB => Function.update_of_ne hB ..) ?_
    swap
    · show ((w.setBacking B _).backings B).aliases = _
      rw [hself]
    show _ = _ :: ((w.setBacking B _).backings B).pending
    rw [hself, Backing.pending, if_neg hhost]
    rfl

/-- A backing that keeps nothing gets the memory that was allocated, if its offset is one. -/
theorem Logged.allocate {log : List Event} {B : Handle} {a : Answer} (limit size : ℕ)
    (h : Logged w.toRecords log) (hphysical : (w.backings B).physical < 0)
    (hhost : (w.backings B).host = 0) (hrc : a.rc = 0) :
    Logged (w.setBacking B { w.backings B with physical := a.physical, size := size }).toRecords
      (⟨some (.allocation B), .allocate limit size, a⟩ :: log) := by
  refine h.cons (fun x hx => (nomatch hx)) ?_ fun r hr => ?_
  · have hbefore : w.recorded (.allocation B) = none := if_pos hphysical
    refine recorded_allocation_self.trans ?_
    rw [Call.leaves, hbefore, Backing.keptPhysical]
    by_cases hneg : a.physical < 0
    · rw [if_pos hneg, if_neg fun hok => absurd hneg (not_lt.mpr hok.2)]
    · rw [if_neg hneg, if_pos ⟨hrc, not_lt.mp hneg⟩]
  · refine recorded_setBacking (fun heq => absurd heq hr) fun _ => ?_
    rw [Backing.keptHost, Backing.keptHost, if_pos hhost, if_pos hhost]

/-- A backing without a mapping gets the address that was written, whatever the call returned. -/
theorem Logged.map {log : List Event} {B : Handle} {size : ℕ} (a : Answer) (physical : ℤ)
    (h : Logged w.toRecords log) (hhost : (w.backings B).host = 0)
    (hsize : (w.backings B).size = size) :
    Logged (w.setBacking B { w.backings B with host := a.address }).toRecords
      (⟨some (.host B), .map size physical, a⟩ :: log) := by
  refine h.cons (fun x hx => (nomatch hx)) ?_ fun r hr =>
    recorded_setBacking (fun _ => rfl) fun heq => absurd heq hr
  have hbefore : w.recorded (.host B) = none := if_pos hhost
  refine recorded_host_self.trans ?_
  rw [Call.leaves, hbefore, Backing.keptHost]
  by_cases hnull : a.address = 0
  · rw [if_pos hnull, if_neg (not_not.mpr hnull)]
  · rw [if_neg hnull, if_pos hnull, hsize]

theorem openBacking_inv (h : Inv w) (B : Handle) (bytes : ℕ) :
    Inv (openBacking env w B bytes).2 := by
  unfold openBacking
  split
  · exact h
  next hclosed =>
  obtain ⟨hphysical, hhost⟩ := not_or.mp hclosed
  rw [not_le] at hphysical
  rw [not_not] at hhost
  split
  · exact h
  dsimp only [World.call]
  generalize env w.log.length = pool
  have hlogged := h.logged.cons_none .directMemorySize pool
  split
  · exact ⟨h.linked, hlogged⟩
  generalize env _ = a
  split
  next hrc =>
    refine ⟨h.linked, hlogged.cons_same (fun x hx => (nomatch hx)) ?_⟩
    exact if_neg fun hok => hrc hok.1
  next hrc =>
  obtain ⟨lists, hlinked⟩ := h.linked
  have hallocated := hlogged.allocate pool.size (roundUp bytes PageSize)
    hphysical hhost (not_not.mp hrc)
  have hself : (w.setBacking B { w.backings B with
      physical := a.physical, size := roundUp bytes PageSize }).backings B = { w.backings B with
      physical := a.physical, size := roundUp bytes PageSize } := Function.update_self ..
  generalize env _ = m
  have hmapped := hallocated.map m a.physical
    ((congrArg Backing.host hself).trans hhost) (congrArg Backing.size hself)
  have hopen := (hlinked.setBacking B { w.backings B with
    physical := a.physical, size := roundUp bytes PageSize } rfl).setBacking B
    { (w.setBacking B { w.backings B with
      physical := a.physical, size := roundUp bytes PageSize }).backings B with
      host := m.address } rfl
  split
  · refine closeBacking_inv ?_ B
    exact ⟨⟨lists, hopen⟩, hmapped⟩
  · exact ⟨⟨lists, hopen⟩, hmapped⟩

theorem closeArena_refused {A : Handle} (hlist : (w.arenas A).aliases ≠ none) :
    closeArena env w A = (Busy, w) := if_pos hlist

theorem closeArena_spec (env : ℕ → Answer) (h : Inv w) (A : Handle) : Inv (closeArena env w A).2 ∧
    ((closeArena env w A).1 ≠ 0 → (closeArena env w A).2.toRecords = w.toRecords) := by
  unfold closeArena
  split
  · exact ⟨h, fun _ => rfl⟩
  next hlist =>
  rw [not_not] at hlist
  split
  · exact ⟨h, fun _ => rfl⟩
  next hbase =>
  dsimp only [World.call]
  generalize env _ = a
  have hkept : ∀ x, (Call.unmap (w.arenas A).base (w.arenas A).size).releases = some x →
      w.recorded (.reservation A) = some x := by
    intro x hx
    rw [← hx]
    exact if_neg hbase
  split
  next hrc => exact ⟨⟨h.linked, h.logged.cons_same hkept (if_neg hrc)⟩, fun _ => rfl⟩
  next hrc =>
  obtain ⟨lists, hlinked⟩ := h.linked
  refine ⟨⟨⟨lists, hlinked.setArena _ hlist hlist fun hne => absurd rfl hne⟩,
    h.logged.cons hkept ?_ fun r hr => recorded_setArena hr⟩, fun hrc => absurd rfl hrc⟩
  exact recorded_setArena_self.trans (if_pos (not_not.mp hrc)).symm

/-- Aliases of the reservation do not come near the end of the addresses: the sums are exact. -/
theorem Placed.bounds (h : Placed w.toRecords) {a A : Handle}
    (ha : (w.aliases a).arena = some A) :
    (w.aliases a).address + (w.aliases a).size ≤ GuestBase + GuestSpaceSize := by
  have hinside := h.inside a A ha
  obtain ⟨hbase, hsize⟩ := h.arena A hinside.reserved
  have hupper := hinside.upper
  rwa [hbase, hsize] at hupper

theorem Lists.length_le (h : Lists w.toRecords lists) (A : Handle) :
    (lists A).length ≤ 2 ^ 64 - 1 := by
  have hle := (h.chain A).nodup.length_le_card
  rwa [Fintype.card_fin] at hle

/-- An alias without an arena has no address, and one with an arena has. -/
theorem Placed.address_eq_zero (h : Placed w.toRecords) (a : Handle) :
    (w.aliases a).address = 0 ↔ (w.aliases a).arena = none := by
  constructor
  · intro hzero
    cases harena : (w.aliases a).arena with
    | none => rfl
    | some A =>
      have hinside := h.inside a A harena
      have hpos := Nat.pos_of_ne_zero hinside.reserved
      have hlower := hinside.lower
      omega
  · intro harena
    rw [h.unmapped a harena]
    rfl

/-- What the loop of `MapAlias` decides. -/
theorem any_meets (h : Linked w.toRecords lists) {A : Handle} {start bytes : ℕ}
    (hbound : start + bytes < 2 ^ 64) :
    ∃ found, LinkedList.any w.next
        (fun other => meetsOther start ((start + bytes) % 2 ^ 64) (w.aliases other)) fuel
        (w.arenas A).aliases = some found ∧
      (found = false → ∀ b, (w.aliases b).arena = some A →
        ¬ Interval.Meets start bytes (w.aliases b).address (w.aliases b).size) := by
  have hlength := h.lists.length_le A
  refine ⟨_, LinkedList.any_eq (h.lists.chain A) _ (by rw [fuel]; omega), ?_⟩
  intro hfound b hb hmeets
  have hno := List.any_eq_false.mp hfound b ((h.lists.mem A b).mpr hb)
  refine hno (decide_eq_true ?_)
  have hbounds := h.placed.bounds hb
  rw [Nat.mod_eq_of_lt hbound, Nat.mod_eq_of_lt]
  · exact hmeets
  · exact hbounds.trans_lt (by decide)

theorem call_eq (env : ℕ → Answer) (w : World) (r : Option Resource) (c : Call) :
    ∃ m, w.call env r c = (m, { w with log := ⟨r, c, m⟩ :: w.log }) := ⟨_, rfl⟩

/-- A call comes to its end, keeps what holds in every run, and leaves the records if it fails. -/
def Keeps (w : World) (r : Option (ℤ × World)) : Prop :=
  ∃ rc w', r = some (rc, w') ∧ Inv w' ∧ (rc ≠ 0 → w'.toRecords = w.toRecords)

theorem mapAlias_spec (h : Inv w) (a A : Handle) (guestOffset : ℕ) (B : Handle)
    (backingOffset bytes : ℕ) :
    Keeps w (mapAlias env w a A guestOffset B backingOffset bytes) := by
  obtain ⟨⟨lists, hlinked⟩, hlogged⟩ := h
  unfold mapAlias
  split
  · exact ⟨Busy, w, rfl, ⟨⟨lists, hlinked⟩, hlogged⟩, fun _ => rfl⟩
  next hfree =>
  rw [not_not] at hfree
  split
  · exact ⟨Invalid, w, rfl, ⟨⟨lists, hlinked⟩, hlogged⟩, fun _ => rfl⟩
  next hvalid =>
  simp only [not_or] at hvalid
  obtain ⟨hbase, -, hbytes, -, -, -, hoffset, hfits, -, -⟩ := hvalid
  have harena := hlinked.placed.arena A hbase
  -- the start does not wrap around, as the arena lies at its fixed place
  have hstart : ((w.arenas A).base + guestOffset) % 2 ^ 64 = (w.arenas A).base + guestOffset := by
    refine Nat.mod_eq_of_lt ?_
    rw [harena.1]
    rw [harena.2] at hoffset
    exact lt_of_le_of_lt (Nat.add_le_add_left (not_lt.mp hoffset) _) (by decide)
  have hend : (w.arenas A).base + guestOffset + bytes < 2 ^ 64 := by
    rw [harena.1]
    rw [harena.2] at hoffset hfits
    rw [GuestBase]
    rw [GuestSpaceSize] at hoffset hfits
    omega
  dsimp only
  rw [hstart]
  obtain ⟨found, hany, hapart⟩ := any_meets hlinked (A := A) hend
  rw [hany]
  cases found with
  | true => exact ⟨Busy, w, rfl, ⟨⟨lists, hlinked⟩, hlogged⟩, fun _ => rfl⟩
  -- from here on the range is free: the kernel is asked, and asked to undo what it misplaced
  | false =>
  obtain ⟨m, hcall⟩ := call_eq env w (some (.view a))
    (.mapFixed ((w.arenas A).base + guestOffset) bytes ((w.backings B).physical + backingOffset))
  simp only [hcall]
  have hunmapped := (hlinked.placed.address_eq_zero a).mp hfree
  split
  next hrc =>
    refine ⟨m.rc, _, rfl, ⟨⟨lists, hlinked⟩, hlogged.cons_same (fun x hx => ?_) ?_⟩, fun _ => rfl⟩
    · exact nomatch hx
    · exact if_neg fun hok => hrc hok.1
  next hrc =>
  rw [not_not] at hrc
  split
  next haddress =>
    refine ⟨Invalid, _, rfl,
      ⟨⟨lists, hlinked⟩, (hlogged.cons_same (fun x hx => ?_) ?_).cons_none ..⟩, fun _ => rfl⟩
    · exact nomatch hx
    · exact if_neg fun hok => haddress hok.2
  next haddress =>
  rw [not_not] at haddress
  have hinside : Inside (w.arenas A)
      ⟨m.address, bytes, some A, some B, (w.arenas A).aliases⟩ := by
    refine ⟨hbase, ?_, ?_, Nat.pos_of_ne_zero hbytes⟩
    · show _ ≤ m.address
      omega
    · show m.address + bytes ≤ _
      omega
  refine ⟨0, _, rfl, ⟨⟨Function.update lists A (a :: lists A),
    hlinked.lists.push hunmapped rfl rfl, hlinked.placed.push rfl rfl hinside ?_,
    hlinked.counted.push ?_ rfl⟩, hlogged.cons ?_ ?_ fun r hr => recorded_push hr⟩,
    fun h => absurd rfl h⟩
  · -- the search found no alias that meets the new one
    intro b hb
    rw [haddress]
    exact hapart rfl b hb
  · rw [hlinked.placed.unmapped a hunmapped]
    rfl
  · intro x hx
    exact nomatch hx
  · refine (congrArg Alias.kept (push_aliases_self ..)).trans ?_
    have hne : (w.arenas A).base + guestOffset ≠ 0 := by omega
    rw [Call.leaves, if_pos ⟨hrc, haddress⟩, Alias.kept, haddress, if_neg hne]

theorem unmapAlias_spec (h : Inv w) (a : Handle) : Keeps w (unmapAlias env w a) := by
  obtain ⟨⟨lists, hlinked⟩, hlogged⟩ := h
  unfold unmapAlias
  split
  · exact ⟨0, w, rfl, ⟨⟨lists, hlinked⟩, hlogged⟩, fun _ => rfl⟩
  next hmapped =>
  obtain ⟨m, hcall⟩ := call_eq env w (some (.view a))
    (.replace (w.aliases a).address (w.aliases a).size)
  simp only [hcall]
  have hkept : ∀ x, (Call.replace (w.aliases a).address (w.aliases a).size).releases = some x →
      w.recorded (.view a) = some x := by
    intro x hx
    rw [← hx]
    exact if_neg hmapped
  split
  next hrc =>
    exact ⟨m.rc, _, rfl, ⟨⟨lists, hlinked⟩, hlogged.cons_same hkept (if_neg hrc)⟩, fun _ => rfl⟩
  next hrc =>
  -- a mapped alias names its arena and its backing, and is in the list of the arena
  obtain ⟨A, harena⟩ := Option.ne_none_iff_exists'.mp
    fun hnone => hmapped ((hlinked.placed.address_eq_zero a).mpr hnone)
  obtain ⟨B, hbacking⟩ := hlinked.placed.backing a A harena
  obtain ⟨before, after, hlist⟩ := List.append_of_mem ((hlinked.lists.mem A a).mpr harena)
  have hchain := hlinked.lists.chain A
  have hlength := hlinked.lists.length_le A
  rw [hlist] at hchain hlength
  rw [List.length_append, List.length_cons] at hlength
  have hnot : a ∉ before := fun hmem =>
    (List.nodup_append.mp hchain.nodup).2.2 a hmem a List.mem_cons_self rfl
  have hseek := LinkedList.seek_eq .head hchain hnot
    (show before.length < fuel by rw [fuel]; omega)
  have hget := Link.get_behind .head hchain
  simp only [harena, hbacking, hseek, Option.map_some, hget]
  let w₁ : World := { w with
    log := ⟨some (.view a), .replace (w.aliases a).address (w.aliases a).size, m⟩ :: w.log }
  have hlinked₁ : Linked w₁.toRecords lists := hlinked
  show Keeps w (some (0, w₁.pull a A B (Link.head.behind before)))
  refine ⟨0, _, rfl, ⟨⟨_, hlinked₁.lists.pull hlist, hlinked₁.placed.pull fun b hb => ?_,
    hlinked₁.counted.pull hbacking⟩, ?_⟩, fun h => absurd rfl h⟩
  · refine Link.setNext_of_not_mem fun hmem => hlinked₁.lists.not_mem hb A ?_
    rw [hlist]
    exact List.mem_append_left _ hmem
  · rw [pull_log]
    refine hlogged.cons hkept ?_ fun r hr => recorded_pull (w := w₁) hr
    exact (congrArg Alias.kept (pull_aliases_self ..)).trans (if_pos (not_not.mp hrc)).symm

/-! ### Releases -/

/-- A call released what was kept of a resource. -/
def Event.Released (e : Event) (r : Resource) : Prop :=
  e.resource = some r ∧ e.answer.rc = 0 ∧ ∃ x, e.call.releases = some x

/-- A call left something to be kept of a resource. -/
def Event.Acquired (e : Event) (r : Resource) : Prop :=
  e.resource = some r ∧ ∃ x, e.call.leaves e.answer none = some x

/-- What was released was acquired again before it is released again. -/
def ReleasedOnce (log : List Event) : Prop :=
  ∀ r newest middle oldest e₁ e₂, log = newest ++ e₂ :: (middle ++ e₁ :: oldest) →
    e₁.Released r → e₂.Released r → ∃ e ∈ middle, e.Acquired r

theorem held_eq_none {r : Resource} {middle past : List Event} (hpast : held past r = none)
    (hmiddle : ∀ e ∈ middle, ¬ e.Acquired r) : held (middle ++ past) r = none := by
  induction middle with
  | nil => exact hpast
  | cons e middle ih =>
    have ih := ih fun e he => hmiddle e (List.mem_cons_of_mem _ he)
    rw [List.cons_append, held]
    split
    next hr =>
      rw [ih]
      by_contra hsome
      exact hmiddle e List.mem_cons_self ⟨hr, Option.ne_none_iff_exists'.mp hsome⟩
    · exact ih

theorem leaves_of_releases {c : Call} {a : Answer} {x : ℤ × ℕ} {before : Option (ℤ × ℕ)}
    (hc : c.releases = some x) (hrc : a.rc = 0) : c.leaves a before = none := by
  cases c with
  | replace | unmap | release => exact if_pos hrc
  | reserve | directMemorySize | allocate | map | mapFixed => exact nomatch hc

theorem Logged.releasedOnce {s : Records} {log : List Event} (h : Logged s log) :
    ReleasedOnce log := by
  rintro r newest middle oldest e₁ e₂ rfl ⟨hr₁, hrc₁, x₁, hx₁⟩ ⟨hr₂, -, x₂, hx₂⟩
  by_contra hmiddle
  have hkept := History.ok_iff.mp h.good newest e₂ _ rfl r hr₂ x₂ hx₂
  have hreleased : Handles.held (e₁ :: oldest) r = none := by
    rw [Handles.held, if_pos hr₁, leaves_of_releases hx₁ hrc₁]
  rw [held_eq_none hreleased fun e he hacquired => hmiddle ⟨e, he, hacquired⟩] at hkept
  exact nomatch hkept

/-! ### Runs -/

/-- What a call returns and changes, beside what holds in every run. -/
def Behaves (w w' : World) (rc : ℤ) : Op → Prop
  | .reserve _ | .mapAlias .. | .unmapAlias _ => rc ≠ 0 → w'.toRecords = w.toRecords
  | .openBacking .. => True
  | .closeBacking B =>
    ((w.backings B).aliases ≠ 0 → rc = Busy ∧ w' = w) ∧
      ((w.backings B).aliases = 0 → Closes w w' B rc)
  | .closeArena A =>
    ((w.arenas A).aliases ≠ none → rc = Busy ∧ w' = w) ∧ (rc ≠ 0 → w'.toRecords = w.toRecords)

theorem step_spec (env : ℕ → Answer) (h : Inv w) (op : Op) :
    ∃ rc w', step env w op = some (rc, w') ∧ Inv w' ∧ Behaves w w' rc op := by
  cases op with
  | reserve A => exact ⟨_, _, rfl, reserve_spec h A⟩
  | openBacking B bytes => exact ⟨_, _, rfl, openBacking_inv h B bytes, trivial⟩
  | mapAlias a A guestOffset B backingOffset bytes =>
    exact mapAlias_spec h a A guestOffset B backingOffset bytes
  | unmapAlias a => exact unmapAlias_spec h a
  | closeBacking B =>
    refine ⟨(closeBacking env w B).1, (closeBacking env w B).2, rfl, closeBacking_inv h B,
      fun hcount => ?_, closeBacking_closes⟩
    rw [closeBacking_refused hcount]
    exact ⟨rfl, rfl⟩
  | closeArena A =>
    obtain ⟨hinv, hfail⟩ := closeArena_spec env h A
    refine ⟨(closeArena env w A).1, (closeArena env w A).2, rfl, hinv, fun hlist => ?_, hfail⟩
    rw [closeArena_refused hlist]
    exact ⟨rfl, rfl⟩

theorem run_spec (env : ℕ → Answer) (h : Inv w) (ops : List Op) : ∃ w', run env w ops = some w' ∧ Inv w' := by
  induction ops generalizing w with
  | nil => exact ⟨w, rfl, h⟩
  | cons op ops ih =>
    obtain ⟨rc, w', hstep, hinv, -⟩ := step_spec env h op
    obtain ⟨w'', hrun, hinv'⟩ := ih hinv
    exact ⟨w'', by rw [run, hstep]; exact hrun, hinv'⟩

/-- Every run of calls comes to its end, whatever the native calls answer. Then the aliases of each
list lie apart in their reservation, the counters count them and what is kept is released once; and
each further call behaves. -/
theorem arena_bookkeeping (env : ℕ → Answer) (ops : List Op) :
    ∃ w, run env ⟨.initial, []⟩ ops = some w ∧
      (∃ lists, Linked w.toRecords lists) ∧ Logged w.toRecords w.log ∧ ReleasedOnce w.log ∧
      ∀ op, ∃ rc w', step env w op = some (rc, w') ∧ Behaves w w' rc op := by
  obtain ⟨w, hrun, hinv⟩ := run_spec env Inv.initial ops
  refine ⟨w, hrun, hinv.linked, hinv.logged, hinv.logged.releasedOnce, fun op => ?_⟩
  obtain ⟨rc, w', hstep, -, hbehaves⟩ := step_spec env hinv op
  exact ⟨rc, w', hstep, hbehaves⟩

end MkwPs5Memory.Handles
