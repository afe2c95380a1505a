import MkwiiPs5.KeyedList
import MkwiiPs5.Memory.GuestFlat

/-!
# Taking down the flat guest memory

What a state holds of the address space and of the direct memory, and that its destructor gives all
of it back.
-/

namespace GuestFlat

open MkwPs5Memory (Alias Arena Kernel Native SameUse Use)

/-! ### What a state holds -/

/-- A point is in the arena. -/
def State.InArena (st : State) (p : ℕ) : Prop :=
  ∃ base, st.arena.base = some base ∧ base ≤ p ∧ p < base + st.arena.size

/-- A point is in the host mapping of a backing. -/
def Hosts (memory : NativeBacking) (p : ℕ) : Prop :=
  ∃ host, memory.host = some host ∧ host ≤ p ∧ p < host + memory.size

/-- A byte of direct memory belongs to a backing. -/
def Stores (memory : NativeBacking) (p : ℕ) : Prop :=
  ∃ physical, memory.physical = some physical ∧ physical ≤ p ∧ p < physical + memory.size

/-- A backing is closed or open. -/
inductive Whole : NativeBacking → Prop
  | closed (aliases : ℕ) : Whole { MkwPs5Memory.Backing.none with aliases := aliases }
  | open (physical size host aliases : ℕ) :
      Whole { MkwPs5Memory.Backing.at physical size host with aliases := aliases }

/-- The list of the arena has the aliases of the mappings, and the backings count theirs. -/
structure Linked (st : State) : Prop where
  handle : ∀ i, (st.mappings i).handle = .none i ∨
    i < st.regions.length ∧ (st.mappings i).handle ∈ st.arena.aliases ∧
      ∃ address size, (st.mappings i).handle = ⟨i, some address, size⟩ ∧
        ∀ p, address ≤ p → p < address + size → st.InArena p
  listed : ∀ a ∈ st.arena.aliases, (st.mappings a.id).handle = a ∧ a.address ≠ none
  nodup : (st.arena.aliases.map Alias.id).Nodup
  count : ∀ s, (st.sections s).memory.aliases =
    st.arena.aliases.countP fun a => (st.mappings a.id).sectionIndex = s

/-- The kernel is as it was before, apart from what the state holds, which was not in use. -/
structure Owns (before : Kernel) (m : Machine) : Prop where
  whole : ∀ s, Whole (m.state.sections s).memory
  unused : ∀ s, m.state.sectionCount ≤ s → (m.state.sections s).memory.host = none ∧
    (m.state.sections s).memory.physical = none
  linked : Linked m.state
  vm : ∀ p, ¬ m.state.InArena p → (∀ s, ¬ Hosts (m.state.sections s).memory p) →
    m.kernel.vm p = before.vm p
  arena : ∀ p, m.state.InArena p → before.vm p = .free
  host : ∀ s p, Hosts (m.state.sections s).memory p → before.vm p = .free
  allocated : ∀ p, (∀ s, ¬ Stores (m.state.sections s).memory p) →
    m.kernel.allocated p = before.allocated p
  physical : ∀ s p, Stores (m.state.sections s).memory p → before.allocated p = false

/-! ### Aliases -/

variable {N : Native} {before : Kernel} {m : Machine}

theorem unmapRegion_none {failed : Bool} {i : ℕ} (h : (m.state.mappings i).handle = .none i) :
    unmapRegion N (failed, m) i = (failed, m) := by
  obtain ⟨kernel, st⟩ := m
  dsimp only at h
  simp only [unmapRegion, h, MkwPs5Memory.unmapAlias_none, bne_self_eq_false, Bool.or_false]
  have hhandle : st.setHandle i (.none i) = st := by
    rw [State.setHandle, ← h, Function.update_eq_self]
  have hmemory : ∀ s, st.setMemory s (st.sections s).memory = st := by
    intro s
    rw [State.setMemory, Function.update_eq_self]
  rw [hhandle, hmemory]

theorem Whole.aliases {memory : NativeBacking} (h : Whole memory) (n : ℕ) :
    Whole { memory with aliases := n } := by
  cases h with
  | closed => exact .closed n
  | «open» physical size host => exact .open physical size host n

/-- A change of the aliases only. -/
structure SameHoldings (m m' : Machine) : Prop where
  sectionCount : m'.state.sectionCount = m.state.sectionCount
  base : m'.state.arena.base = m.state.arena.base
  size : m'.state.arena.size = m.state.arena.size
  memory : ∀ s, ∃ n, (m'.state.sections s).memory =
    { (m.state.sections s).memory with aliases := n }
  vm : ∀ p, ¬ m.state.InArena p → m'.kernel.vm p = m.kernel.vm p
  allocated : m'.kernel.allocated = m.kernel.allocated

variable {m' : Machine}

theorem SameHoldings.inArena (h : SameHoldings m m') (p : ℕ) :
    m'.state.InArena p ↔ m.state.InArena p := by
  rw [State.InArena, State.InArena, h.base, h.size]

theorem SameHoldings.hosts (h : SameHoldings m m') (s p : ℕ) :
    Hosts (m'.state.sections s).memory p ↔ Hosts (m.state.sections s).memory p := by
  obtain ⟨n, hn⟩ := h.memory s
  rw [hn]
  rfl

theorem SameHoldings.stores (h : SameHoldings m m') (s p : ℕ) :
    Stores (m'.state.sections s).memory p ↔ Stores (m.state.sections s).memory p := by
  obtain ⟨n, hn⟩ := h.memory s
  rw [hn]
  rfl

theorem Owns.same (h : Owns before m) (hsame : SameHoldings m m') (hlinked : Linked m'.state) :
    Owns before m' where
  whole s := by
    obtain ⟨n, hn⟩ := hsame.memory s
    rw [hn]
    exact (h.whole s).aliases n
  unused s hs := by
    obtain ⟨n, hn⟩ := hsame.memory s
    rw [hn]
    exact h.unused s (hsame.sectionCount ▸ hs)
  linked := hlinked
  vm p hp hhosts := by
    rw [hsame.inArena] at hp
    rw [hsame.vm p hp]
    exact h.vm p hp fun s => (hsame.hosts s p).not.mp (hhosts s)
  arena p hp := h.arena p ((hsame.inArena p).mp hp)
  host s p hp := h.host s p ((hsame.hosts s p).mp hp)
  allocated p hp := by
    rw [hsame.allocated]
    exact h.allocated p fun s => (hsame.stores s p).not.mp (hp s)
  physical s p hp := h.physical s p ((hsame.stores s p).mp hp)

/-- The state without the alias of a mapping. -/
def State.unlink (st : State) (i : ℕ) : State :=
  let index := (st.mappings i).sectionIndex
  { (st.setHandle i (.none i)).setMemory index
      { (st.sections index).memory with aliases := (st.sections index).memory.aliases - 1 } with
    arena := { st.arena with aliases := st.arena.aliases.eraseP (·.id == i) } }

theorem unlink_handle (st : State) (i j : ℕ) : ((st.unlink i).mappings j).handle =
    if j = i then .none i else (st.mappings j).handle := by
  by_cases hj : j = i
  · subst hj
    simp only [State.unlink, State.setMemory, State.setHandle, Function.update_self, if_true]
  · simp only [State.unlink, State.setMemory, State.setHandle, Function.update_of_ne hj, if_neg hj]

theorem unlink_sectionIndex (st : State) (i j : ℕ) :
    ((st.unlink i).mappings j).sectionIndex = (st.mappings j).sectionIndex := by
  by_cases hj : j = i
  · subst hj
    simp only [State.unlink, State.setMemory, State.setHandle, Function.update_self]
  · simp only [State.unlink, State.setMemory, State.setHandle, Function.update_of_ne hj]

theorem unlink_memory (st : State) (i s : ℕ) : ((st.unlink i).sections s).memory =
    if s = (st.mappings i).sectionIndex then
      { (st.sections s).memory with aliases := (st.sections s).memory.aliases - 1 }
    else (st.sections s).memory := by
  by_cases hs : s = (st.mappings i).sectionIndex
  · subst hs
    simp only [State.unlink, State.setMemory, State.setHandle, Function.update_self, if_true]
  · simp only [State.unlink, State.setMemory, State.setHandle, Function.update_of_ne hs, if_neg hs]

theorem Linked.unlink {st : State} (h : Linked st) {i : ℕ}
    (hlive : (st.mappings i).handle ∈ st.arena.aliases) (hid : (st.mappings i).handle.id = i) :
    Linked (st.unlink i) := by
  have herase : (st.unlink i).arena.aliases = st.arena.aliases.filter (·.id != i) :=
    KeyedList.eraseP_eq_filter h.nodup i
  have hperm := KeyedList.perm_filter h.nodup hlive
  rw [hid, ← herase] at hperm
  constructor
  · intro j
    rw [unlink_handle]
    by_cases hj : j = i
    · rw [if_pos hj, hj]
      exact Or.inl rfl
    · rw [if_neg hj]
      refine (h.handle j).imp_right ?_
      rintro ⟨hlt, hmem, address, size, hhandle, hin⟩
      refine ⟨hlt, ?_, address, size, hhandle, hin⟩
      rw [herase]
      exact List.mem_filter.mpr ⟨hmem, by simpa [hhandle] using hj⟩
  · intro a ha
    rw [herase] at ha
    obtain ⟨ha, hne⟩ := List.mem_filter.mp ha
    rw [unlink_handle, if_neg (by simpa using hne)]
    exact h.listed a ha
  · rw [herase]
    exact h.nodup.sublist (List.filter_sublist.map _)
  · intro s
    have hcount := h.count s
    have hsplit := hperm.countP_eq fun a => decide ((st.mappings a.id).sectionIndex = s)
    rw [List.countP_cons, hid] at hsplit
    simp only [unlink_sectionIndex]
    rw [unlink_memory]
    by_cases hs : s = (st.mappings i).sectionIndex
    · rw [if_pos hs]
      rw [decide_eq_true hs.symm, if_pos rfl] at hsplit
      dsimp only
      omega
    · rw [if_neg hs]
      rw [decide_eq_false (Ne.symm hs), if_neg Bool.false_ne_true] at hsplit
      omega

theorem unmapRegion_live (hN : N.Releases) {failed : Bool} {i address size : ℕ}
    (h : (m.state.mappings i).handle = ⟨i, some address, size⟩) :
    unmapRegion N (failed, m) i =
      (failed, ⟨m.kernel.use address size fun _ => .reserved, m.state.unlink i⟩) := by
  simp only [unmapRegion, h, MkwPs5Memory.unmapAlias_spec hN, bne_self_eq_false, Bool.or_false]
  rfl

/-- What taking down an alias leaves. -/
structure Unmapped (before : Kernel) (m : Machine) (i : ℕ) (m' : Machine) : Prop where
  owns : Owns before m'
  handle : (m'.state.mappings i).handle = .none i
  others : ∀ j, (m.state.mappings j).handle = .none j → (m'.state.mappings j).handle = .none j
  sectionCount : m'.state.sectionCount = m.state.sectionCount

theorem Owns.unmapRegion (hN : N.Releases) (h : Owns before m) (failed : Bool) (i : ℕ) :
    ∃ m', unmapRegion N (failed, m) i = (failed, m') ∧ Unmapped before m i m' := by
  rcases h.linked.handle i with hnone | ⟨hlt, hlive, address, size, hhandle, hin⟩
  · exact ⟨m, unmapRegion_none hnone, h, hnone, fun _ hj => hj, rfl⟩
  · refine ⟨_, unmapRegion_live hN hhandle, ?_, ?_, ?_, rfl⟩
    · apply h.same
      · constructor
        · rfl
        · rfl
        · rfl
        · intro s
          rw [unlink_memory]
          split
          · exact ⟨_, rfl⟩
          · exact ⟨_, rfl⟩
        · intro p hp
          exact Kernel.use_of_not_mem fun hrange => hp (hin p hrange.1 hrange.2)
        · rfl
      · exact h.linked.unlink hlive (by rw [hhandle])
    · rw [unlink_handle, if_pos rfl]
    · intro j hj
      rw [unlink_handle]
      split
      · next hji => rw [hji]
      · exact hj

theorem Owns.unmapRegions (hN : N.Releases) (n : ℕ) (h : Owns before m)
    (hrest : ∀ j, n ≤ j → (m.state.mappings j).handle = .none j) :
    ∃ m', (List.range n).reverse.foldl (GuestFlat.unmapRegion N) (false, m) = (false, m') ∧
      Owns before m' ∧ (∀ j, (m'.state.mappings j).handle = .none j) ∧
      m'.state.sectionCount = m.state.sectionCount := by
  induction n generalizing m with
  | zero => exact ⟨m, rfl, h, fun j => hrest j (Nat.zero_le j), rfl⟩
  | succ n ih =>
    obtain ⟨m₁, hunmap, h₁⟩ := h.unmapRegion hN false n
    obtain ⟨m', hloop, hm', hnone, hcount⟩ := ih h₁.owns fun j hj => by
      rcases Nat.eq_or_lt_of_le hj with rfl | hlt
      · exact h₁.handle
      · exact h₁.others j (hrest j hlt)
    refine ⟨m', ?_, hm', hnone, hcount.trans h₁.sectionCount⟩
    rw [List.range_succ, List.reverse_append, List.reverse_singleton, List.singleton_append,
      List.foldl_cons, hunmap, hloop]

/-! ### Backings -/

theorem Linked.no_aliases {st : State} (h : Linked st)
    (hnone : ∀ j, (st.mappings j).handle = .none j) : st.arena.aliases = [] := by
  rw [List.eq_nil_iff_forall_not_mem]
  intro a ha
  obtain ⟨hhandle, haddress⟩ := h.listed a ha
  rw [hnone] at hhandle
  rw [← hhandle] at haddress
  exact haddress rfl

/-- No aliases are left. -/
def Unaliased (m : Machine) : Prop := ∀ j, (m.state.mappings j).handle = .none j

theorem setMemory_memory (st : State) (index s : ℕ) (memory : NativeBacking) :
    ((st.setMemory index memory).sections s).memory =
      if s = index then memory else (st.sections s).memory := by
  by_cases hs : s = index
  · subst hs
    simp only [State.setMemory, Function.update_self, if_true]
  · simp only [State.setMemory, Function.update_of_ne hs, if_neg hs]

/-- A section is closed. -/
def Closed (m : Machine) (s : ℕ) : Prop := (m.state.sections s).memory = .none

theorem setMemory_self {st : State} {index : ℕ} {memory : NativeBacking}
    (h : (st.sections index).memory = memory) : st.setMemory index memory = st := by
  rw [State.setMemory, ← h, Function.update_eq_self]

theorem not_hosts_none (p : ℕ) : ¬ Hosts .none p := by
  rintro ⟨host, hhost, _⟩
  exact absurd hhost nofun

theorem not_stores_none (p : ℕ) : ¬ Stores .none p := by
  rintro ⟨physical, hphysical, _⟩
  exact absurd hphysical nofun

/-- The machine after a section is closed. -/
def closed (m : Machine) (index physical size host : ℕ) : Machine :=
  ⟨(m.kernel.use host size fun _ => .free).take physical size false, m.state.setMemory index .none⟩

theorem Owns.closed (h : Owns before m) (hempty : m.state.arena.aliases = [])
    {index physical size host : ℕ}
    (hmemory : (m.state.sections index).memory = .at physical size host) :
    Owns before (closed m index physical size host) := by
  have hsections : ∀ s, ((GuestFlat.closed m index physical size host).state.sections s).memory =
      if s = index then .none else (m.state.sections s).memory :=
    fun s => setMemory_memory m.state index s .none
  constructor
  · intro s
    rw [hsections]
    split
    · exact .closed 0
    · exact h.whole s
  · intro s hs
    rw [hsections]
    split
    · exact ⟨rfl, rfl⟩
    · exact h.unused s hs
  · -- no alias is left, so every section's count is zero before and after
    refine ⟨h.linked.handle, h.linked.listed, h.linked.nodup, ?_⟩
    intro s
    have hcount := h.linked.count s
    rw [hempty, List.countP_nil] at hcount
    have haliases : (GuestFlat.closed m index physical size host).state.arena.aliases = [] := hempty
    rw [hsections, haliases, List.countP_nil]
    split
    · rfl
    · exact hcount
  · intro p hp hhosts
    -- the closed section's pages are free again, as they were before the build
    by_cases hrange : host ≤ p ∧ p < host + size
    · rw [h.host index p (hmemory ▸ ⟨host, rfl, hrange⟩)]
      exact Kernel.use_of_mem (k := m.kernel) (f := fun _ => .free) hrange
    · rw [← h.vm p hp]
      · exact Kernel.use_of_not_mem (k := m.kernel) (f := fun _ => .free) hrange
      · intro s hs
        have hno := hhosts s
        rw [hsections] at hno
        split at hno
        · next heq =>
          rw [heq, hmemory] at hs
          obtain ⟨_, hsome, hin⟩ := hs
          obtain rfl := Option.some.inj hsome
          exact hrange hin
        · exact hno hs
  · exact h.arena
  · intro s p hp
    rw [hsections] at hp
    split at hp
    · exact absurd hp (not_hosts_none p)
    · exact h.host s p hp
  · intro p hstores
    -- and so is its physical memory
    by_cases hrange : physical ≤ p ∧ p < physical + size
    · rw [h.physical index p (hmemory ▸ ⟨physical, rfl, hrange⟩)]
      exact Kernel.take_of_mem hrange
    · rw [← h.allocated p]
      · exact Kernel.take_of_not_mem hrange
      · intro s hs
        have hno := hstores s
        rw [hsections] at hno
        split at hno
        · next heq =>
          rw [heq, hmemory] at hs
          obtain ⟨_, hsome, hin⟩ := hs
          obtain rfl := Option.some.inj hsome
          exact hrange hin
        · exact hno hs
  · intro s p hp
    rw [hsections] at hp
    split at hp
    · exact absurd hp (not_stores_none p)
    · exact h.physical s p hp

theorem Owns.closeSection (hN : N.Releases) (h : Owns before m) (halias : Unaliased m)
    (failed : Bool) (index : ℕ) :
    ∃ m', closeSection N (failed, m) index = (failed, m') ∧ Owns before m' ∧ Unaliased m' ∧
      Closed m' index ∧ (∀ s, Closed m s → Closed m' s) ∧
      m'.state.sectionCount = m.state.sectionCount := by
  have hempty := h.linked.no_aliases halias
  have hcount : (m.state.sections index).memory.aliases = 0 := by
    rw [h.linked.count, hempty]
    rfl
  have hwhole := h.whole index
  generalize hmemory : (m.state.sections index).memory = memory at hcount hwhole
  cases hwhole with
  | closed aliases =>
    obtain rfl : aliases = 0 := hcount
    have hmemory' : (m.state.sections index).memory = .none := hmemory
    refine ⟨m, ?_, h, halias, hmemory', fun _ hs => hs, rfl⟩
    simp only [GuestFlat.closeSection, hmemory', MkwPs5Memory.closeBacking_none,
      bne_self_eq_false, Bool.or_false, setMemory_self hmemory']
  | «open» physical size host aliases =>
    obtain rfl : aliases = 0 := hcount
    have hmemory' : (m.state.sections index).memory = .at physical size host := hmemory
    refine ⟨GuestFlat.closed m index physical size host, ?_, h.closed hempty hmemory', halias, ?_,
      ?_, rfl⟩
    · simp only [GuestFlat.closeSection, hmemory', MkwPs5Memory.closeBacking_spec hN,
        bne_self_eq_false, Bool.or_false]
      rfl
    · rw [Closed, GuestFlat.closed, setMemory_memory, if_pos rfl]
    · intro s hs
      rw [Closed, GuestFlat.closed, setMemory_memory]
      split
      · rfl
      · exact hs

theorem Owns.closeSections (hN : N.Releases) (n : ℕ) (h : Owns before m) (halias : Unaliased m)
    (hrest : ∀ s, n ≤ s → s < m.state.sectionCount → Closed m s) :
    ∃ m', (List.range n).reverse.foldl (GuestFlat.closeSection N) (false, m) = (false, m') ∧
      Owns before m' ∧ Unaliased m' ∧ (∀ s < m'.state.sectionCount, Closed m' s) := by
  induction n generalizing m with
  | zero => exact ⟨m, rfl, h, halias, fun s hs => hrest s (Nat.zero_le s) hs⟩
  | succ n ih =>
    obtain ⟨m₁, hclose, h₁, halias₁, hclosed, hkept, hcount⟩ := h.closeSection hN halias false n
    obtain ⟨m', hloop, hm', halias', hall⟩ := ih h₁ halias₁ fun s hs hlt => by
      rcases Nat.eq_or_lt_of_le hs with rfl | hlt'
      · exact hclosed
      · exact hkept s (hrest s hlt' (hcount ▸ hlt))
    refine ⟨m', ?_, hm', halias', hall⟩
    rw [List.range_succ, List.reverse_append, List.reverse_singleton, List.singleton_append,
      List.foldl_cons, hclose, hloop]

/-! ### The destructor -/

/-- The destructor gives back all that the state holds. -/
theorem Owns.destroy (hN : N.Releases) (h : Owns before m) :
    ∃ kernel, destroy N m = (false, kernel) ∧ SameUse before kernel := by
  -- past the regions no mapping has a handle, so the loop down from there undoes them all
  have hlast : ∀ j, m.state.regions.length ≤ j → (m.state.mappings j).handle = .none j := by
    intro j hj
    exact (h.linked.handle j).resolve_right fun hlive => by omega
  obtain ⟨m₁, hunmap, h₁, halias₁, hcount₁⟩ := h.unmapRegions hN _ hlast
  obtain ⟨m₂, hclose, h₂, halias₂, hclosed⟩ := h₁.closeSections hN m.state.sectionCount halias₁
    fun s hs hlt => by omega
  have hempty := h₂.linked.no_aliases halias₂
  have hall : ∀ s, (m₂.state.sections s).memory.host = none ∧
      (m₂.state.sections s).memory.physical = none := by
    intro s
    by_cases hs : s < m₂.state.sectionCount
    · rw [hclosed s hs]
      exact ⟨rfl, rfl⟩
    · exact h₂.unused s (by omega)
  -- with the sections closed no page is hosted or stored any more
  have hhosts : ∀ p s, ¬ Hosts (m₂.state.sections s).memory p := by
    rintro p s ⟨host, hhost, _⟩
    exact absurd ((hall s).1.symm.trans hhost) nofun
  have hstores : ∀ p s, ¬ Stores (m₂.state.sections s).memory p := by
    rintro p s ⟨physical, hphysical, _⟩
    exact absurd ((hall s).2.symm.trans hphysical) nofun
  have hallocated : m₂.kernel.allocated = before.allocated := funext fun p =>
    h₂.allocated p (hstores p)
  have hdestroy : ∀ kernel arena, MkwPs5Memory.closeArena N m₂.kernel m₂.state.arena =
      (0, kernel, arena) → GuestFlat.destroy N m = (false, kernel) := by
    intro kernel arena hend
    simp only [GuestFlat.destroy, hunmap, hclose, hend, bne_self_eq_false, Bool.or_false]
  have hvm := h₂.vm
  have harena := h₂.arena
  simp only [State.InArena] at hvm harena
  generalize m₂.state.arena = arena at hempty hdestroy hvm harena
  obtain ⟨base, size, aliases⟩ := arena
  obtain rfl : aliases = [] := hempty
  -- the arena was never opened, or its pages are given back last
  cases base with
  | none =>
    refine ⟨_, hdestroy _ _ (MkwPs5Memory.closeArena_none N _ size), ?_, hallocated⟩
    funext p
    apply hvm p _ (hhosts p)
    rintro ⟨base, hbase, _⟩
    exact absurd hbase nofun
  | some base =>
    refine ⟨_, hdestroy _ _ (MkwPs5Memory.closeArena_spec hN _ base size), ?_, hallocated⟩
    funext p
    by_cases hrange : base ≤ p ∧ p < base + size
    · rw [harena p ⟨base, rfl, hrange⟩]
      exact Kernel.use_of_mem hrange
    · rw [← hvm p _ (hhosts p)]
      · exact Kernel.use_of_not_mem hrange
      · rintro ⟨base', hbase', hin⟩
        obtain rfl := Option.some.inj hbase'
        exact hrange hin

theorem Owns.abandon (hN : N.Releases) (h : Owns before m) (failure : Failure) :
    ∃ kernel, abandon N m failure = (.thrown failure, kernel, none) ∧ SameUse before kernel := by
  obtain ⟨kernel, hdestroy, hsame⟩ := h.destroy hN
  refine ⟨kernel, ?_, hsame⟩
  simp only [GuestFlat.abandon, hdestroy, Bool.false_eq_true, if_false]

end GuestFlat
