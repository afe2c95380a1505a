import MkwiiPs5.Memory.GuestFlatMapping

/-!
# The loops of the initialisation

What one turn adds to the memory when its calls succeed; when one fails, the state holds what it
held, and its destructor gives it back.
-/

namespace GuestFlat

open MkwPs5Memory (Alias Arena Kernel Native SameUse Use roundUp)

variable {N : Native} {before : Kernel} {m m' : Machine} {st : State}

/-- The memory with the first sections of a plan open. -/
structure Backed (st : State) (n : ℕ) (m : Machine) : Prop where
  sections : ∀ s, ∃ memory, m.state.sections s = { st.sections s with memory := memory }
  sectionCount : m.state.sectionCount = st.sectionCount
  layout : m.state.regions = st.regions
  base : m.state.arena.base = some MkwPs5Memory.GuestBase
  size : m.state.arena.size = MkwPs5Memory.GuestSpaceSize
  opened : ∀ s < n, ∃ physical size host aliases, (m.state.sections s).memory =
    { MkwPs5Memory.Backing.at physical size host with aliases := aliases } ∧
      (st.sections s).bytes ≤ size
  reserved : ∀ p, m.state.InArena p → m.kernel.vm p ≠ .free
  mapped : ∀ s < n, ∀ host, (m.state.sections s).memory.host = some host →
    ∀ physical, (m.state.sections s).memory.physical = some physical →
      ∀ i < (m.state.sections s).memory.size, m.kernel.vm (host + i) = .mapped (physical + i)
  taken : ∀ s < n, ∀ p, Stores (m.state.sections s).memory p → m.kernel.allocated p = true
  cleared : ∀ s < n, ∀ p, Stores (m.state.sections s).memory p → m.kernel.ram p = 0
  outside : ∀ s < n, ∀ p, Hosts (m.state.sections s).memory p → ¬ m.state.InArena p
  hostApart : ∀ s < n, ∀ t < n, ∀ p, Hosts (m.state.sections s).memory p →
    Hosts (m.state.sections t).memory p → s = t
  storeApart : ∀ s < n, ∀ t < n, ∀ p, Stores (m.state.sections s).memory p →
    Stores (m.state.sections t).memory p → s = t

/-- The memory in the loop that opens the sections. -/
structure Opened (before : Kernel) (st : State) (n : ℕ) (m : Machine) : Prop
    extends Backed st n m where
  owns : Owns before m
  mappings : m.state.mappings = st.mappings
  aliases : m.state.arena.aliases = []
  unopened : ∀ s, n ≤ s → (m.state.sections s).memory = .none
  failures : m.kernel.failures = before.failures

theorem Owns.sameUse (h : Owns before m) {kernel : Kernel} (hsame : SameUse m.kernel kernel) :
    Owns before ⟨kernel, m.state⟩ :=
  h.same ⟨rfl, rfl, rfl, fun _ => ⟨_, rfl⟩, fun _ _ => by rw [hsame.vm], hsame.allocated⟩ h.linked

/-- A host mapping is used for something. -/
theorem Backed.hosts_ne_free {n s p : ℕ} (h : Backed st n m) (hs : s < n)
    (hp : Hosts (m.state.sections s).memory p) : m.kernel.vm p ≠ .free := by
  obtain ⟨host, hhost, hlo, hhi⟩ := hp
  obtain ⟨physical, size, host', aliases, hmemory, _⟩ := h.opened s hs
  have hmapped := h.mapped s hs host hhost physical (by rw [hmemory]; rfl) (p - host) (by omega)
  rw [Nat.add_sub_cancel' hlo] at hmapped
  rw [hmapped]
  exact nofun

theorem hosts_at {physical size host p : ℕ} :
    Hosts (.at physical size host) p ↔ host ≤ p ∧ p < host + size := by
  constructor
  · rintro ⟨_, hhost, hin⟩
    obtain rfl := Option.some.inj hhost
    exact hin
  · exact fun hin => ⟨host, rfl, hin⟩

theorem stores_at {physical size host p : ℕ} :
    Stores (.at physical size host) p ↔ physical ≤ p ∧ p < physical + size := by
  constructor
  · rintro ⟨_, hphysical, hin⟩
    obtain rfl := Option.some.inj hphysical
    exact hin
  · exact fun hin => ⟨physical, rfl, hin⟩

/-- The machine after a section is opened. -/
def opened (m : Machine) (index physical size host : ℕ) : Machine :=
  ⟨clear ((m.kernel.take physical size true).use host size fun i => .mapped (physical + i))
    (.at physical size host), m.state.setMemory index (.at physical size host)⟩

section Opened

variable {n physical size host : ℕ}

theorem opened_memory (m : Machine) (n physical size host s : ℕ) :
    ((opened m n physical size host).state.sections s).memory =
      if s = n then .at physical size host else (m.state.sections s).memory :=
  setMemory_memory m.state n s _

theorem opened_vm (m : Machine) (n physical size host p : ℕ) :
    (opened m n physical size host).kernel.vm p =
      if host ≤ p ∧ p < host + size then .mapped (physical + (p - host)) else m.kernel.vm p := rfl

theorem opened_allocated (m : Machine) (n physical size host p : ℕ) :
    (opened m n physical size host).kernel.allocated p =
      if physical ≤ p ∧ p < physical + size then true else m.kernel.allocated p := rfl

theorem opened_ram (m : Machine) (n physical size host p : ℕ) :
    (opened m n physical size host).kernel.ram p =
      if physical ≤ p ∧ p < physical + size then 0 else m.kernel.ram p := rfl

/-- The new backing shares nothing with what is held. -/
structure Unused (m : Machine) (n physical size host : ℕ) : Prop where
  vm : ∀ p, host ≤ p → p < host + size → m.kernel.vm p = .free
  allocated : ∀ p, physical ≤ p → p < physical + size → m.kernel.allocated p = false

theorem Opened.not_hosts (h : Opened before st n m) (hfree : Unused m n physical size host) {s p : ℕ}
    (hp : host ≤ p ∧ p < host + size) : ¬ Hosts (m.state.sections s).memory p := by
  intro hhosts
  by_cases hs : s < n
  · exact h.hosts_ne_free hs hhosts (hfree.vm p hp.1 hp.2)
  · rw [h.unopened s (by omega)] at hhosts
    exact not_hosts_none p hhosts

theorem Opened.not_stores (h : Opened before st n m) (hfree : Unused m n physical size host)
    {s p : ℕ} (hp : physical ≤ p ∧ p < physical + size) :
    ¬ Stores (m.state.sections s).memory p := by
  intro hstores
  by_cases hs : s < n
  · have htaken := h.taken s hs p hstores
    rw [hfree.allocated p hp.1 hp.2] at htaken
    exact absurd htaken nofun
  · rw [h.unopened s (by omega)] at hstores
    exact not_stores_none p hstores

theorem Opened.owns_opened (h : Opened before st n m) (hn : n < st.sectionCount)
    (hfree : Unused m n physical size host) : Owns before (opened m n physical size host) := by
  constructor
  · intro s
    rw [opened_memory]
    split
    · exact .open physical size host 0
    · exact h.owns.whole s
  · intro s hs
    have hcount : m.state.sectionCount ≤ s := hs
    rw [h.sectionCount] at hcount
    rw [opened_memory, if_neg (by omega)]
    exact h.owns.unused s hs
  · refine ⟨h.owns.linked.handle, h.owns.linked.listed, h.owns.linked.nodup, ?_⟩
    intro s
    have hcount := h.owns.linked.count s
    have haliases : (opened m n physical size host).state.arena.aliases = [] := h.aliases
    rw [h.aliases, List.countP_nil] at hcount
    rw [opened_memory, haliases, List.countP_nil]
    split
    · rfl
    · exact hcount
  · -- outside the new section's pages the machine before is compared as it was
    intro p hp hhosts
    have hnew := hhosts n
    rw [opened_memory, if_pos rfl, hosts_at] at hnew
    rw [opened_vm, if_neg hnew]
    refine h.owns.vm p hp fun s hs => ?_
    have hno := hhosts s
    rw [opened_memory] at hno
    split at hno
    · next heq =>
      rw [heq, h.unopened n le_rfl] at hs
      exact not_hosts_none p hs
    · exact hno hs
  · exact h.owns.arena
  · intro s p hp
    rw [opened_memory] at hp
    split at hp
    · -- where the new section is, the kernel was free before, so nothing else of it was there
      rw [hosts_at] at hp
      rw [← h.owns.vm p _ fun s => h.not_hosts hfree hp]
      · exact hfree.vm p hp.1 hp.2
      · exact fun hin => h.reserved p hin (hfree.vm p hp.1 hp.2)
    · exact h.owns.host s p hp
  · intro p hstores
    have hnew := hstores n
    rw [opened_memory, if_pos rfl, stores_at] at hnew
    rw [opened_allocated, if_neg hnew]
    refine h.owns.allocated p fun s hs => ?_
    have hno := hstores s
    rw [opened_memory] at hno
    split at hno
    · next heq =>
      rw [heq, h.unopened n le_rfl] at hs
      exact not_stores_none p hs
    · exact hno hs
  · intro s p hp
    rw [opened_memory] at hp
    split at hp
    · rw [stores_at] at hp
      rw [← h.owns.allocated p fun s => h.not_stores hfree hp]
      exact hfree.allocated p hp.1 hp.2
    · exact h.owns.physical s p hp

theorem Opened.backed_opened (h : Opened before st n m) (hfree : Unused m n physical size host)
    (hsize : (st.sections n).bytes ≤ size) : Backed st (n + 1) (opened m n physical size host) := by
  have hold : ∀ s < n + 1, s ≠ n → s < n := fun s hs hne => by omega
  constructor
  · intro s
    obtain ⟨memory, hs⟩ := h.sections s
    by_cases hsn : s = n
    · subst hsn
      refine ⟨.at physical size host, ?_⟩
      simp only [opened, State.setMemory, Function.update_self, hs]
    · refine ⟨memory, ?_⟩
      simp only [opened, State.setMemory, Function.update_of_ne hsn, hs]
  · exact h.sectionCount
  · exact h.layout
  · exact h.base
  · exact h.size
  · intro s hs
    rw [opened_memory]
    split
    · next heq => exact ⟨physical, size, host, 0, rfl, heq ▸ hsize⟩
    · next hne => exact h.opened s (hold s hs hne)
  · intro p hp
    rw [opened_vm]
    split
    · intro hfree'
      cases hfree'
    · exact h.reserved p hp
  · -- the new section maps page by page; an older one lies elsewhere, as the host pages were free
    intro s hs host' hhost physical' hphysical i hi
    rw [opened_memory] at hhost hphysical hi
    rw [opened_vm]
    split at hhost
    · next heq =>
      rw [if_pos heq] at hphysical hi
      obtain rfl := Option.some.inj hhost
      obtain rfl := Option.some.inj hphysical
      have hin : host ≤ host + i ∧ host + i < host + size := ⟨by omega, Nat.add_lt_add_left hi _⟩
      rw [if_pos hin, Nat.add_sub_cancel_left]
    · next hne =>
      rw [if_neg hne] at hphysical hi
      have hmapped := h.mapped s (hold s hs hne) host' hhost physical' hphysical i hi
      have hout : ¬ (host ≤ host' + i ∧ host' + i < host + size) := by
        intro hin
        rw [hfree.vm _ hin.1 hin.2] at hmapped
        cases hmapped
      rw [if_neg hout]
      exact hmapped
  · intro s hs p hp
    rw [opened_memory] at hp
    rw [opened_allocated]
    split
    · rfl
    · next hout =>
      split at hp
      · exact absurd (stores_at.mp hp) hout
      · next hne => exact h.taken s (hold s hs hne) p hp
  · intro s hs p hp
    rw [opened_memory] at hp
    rw [opened_ram]
    split
    · rfl
    · next hout =>
      split at hp
      · exact absurd (stores_at.mp hp) hout
      · next hne => exact h.cleared s (hold s hs hne) p hp
  · intro s hs p hp harena
    rw [opened_memory] at hp
    split at hp
    · rw [hosts_at] at hp
      exact h.reserved p harena (hfree.vm p hp.1 hp.2)
    · next hne => exact h.outside s (hold s hs hne) p hp harena
  · -- two sections meet nowhere: the new one took pages that no section hosted
    intro s hs t ht p hp hp'
    rw [opened_memory] at hp hp'
    split at hp
    · next hsn =>
      split at hp'
      · next htn => rw [hsn, htn]
      · exact absurd hp' (h.not_hosts hfree (hosts_at.mp hp))
    · next hsn =>
      split at hp'
      · exact absurd hp (h.not_hosts hfree (hosts_at.mp hp'))
      · next htn => exact h.hostApart s (hold s hs hsn) t (hold t ht htn) p hp hp'
  · intro s hs t ht p hp hp'
    rw [opened_memory] at hp hp'
    split at hp
    · next hsn =>
      split at hp'
      · next htn => rw [hsn, htn]
      · exact absurd hp' (h.not_stores hfree (stores_at.mp hp))
    · next hsn =>
      split at hp'
      · exact absurd hp (h.not_stores hfree (stores_at.mp hp'))
      · next htn => exact h.storeApart s (hold s hs hsn) t (hold t ht htn) p hp hp'

/-- One turn of the loop that opens the sections. -/
theorem Opened.step (hN : N.Releases) (h : Opened before st n m) (hn : n < st.sectionCount) :
    ∃ rc m', openSection N m n = (rc, m') ∧
      (rc ≠ 0 → Owns before m') ∧ (rc = 0 → Opened before st (n + 1) m') := by
  have hnone := h.unopened n le_rfl
  obtain ⟨memory, hsection⟩ := h.sections n
  have hbytes : (m.state.sections n).bytes = (st.sections n).bytes := by rw [hsection]
  rcases MkwPs5Memory.openBacking_spec hN m.kernel (rounded (st.sections n).bytes) with
    ⟨rc, kernel, hopen, hrc, hsame⟩ | ⟨physical, host, hopen, hunused, hfree, _⟩
  · refine ⟨rc, ⟨kernel, m.state⟩, ?_, fun _ => h.owns.sameUse hsame, fun hzero => absurd hzero hrc⟩
    simp only [openSection, hnone, hbytes, hopen, if_neg hrc, setMemory_self hnone]
  · let size := roundUp (rounded (st.sections n).bytes) MkwPs5Memory.PageSize
    have hsize : (st.sections n).bytes ≤ size := calc
      (st.sections n).bytes ≤ rounded (st.sections n).bytes :=
        MkwPs5Memory.le_roundUp (by decide)
      _ ≤ size := MkwPs5Memory.le_roundUp (by decide)
    have hnew : Unused m n physical size host := by
      constructor
      · intro p hlo hhi
        have hp := hfree (p - host) (by omega)
        rwa [Nat.add_sub_cancel' hlo] at hp
      · intro p hlo hhi
        have hp := hunused (p - physical) (by omega)
        rwa [Nat.add_sub_cancel' hlo] at hp
    refine ⟨0, opened m n physical size host, ?_, fun hzero => absurd rfl hzero, fun _ => ?_⟩
    · simp only [openSection, hnone, hbytes, hopen, if_true]
      rfl
    · refine ⟨h.backed_opened hnew hsize, h.owns_opened hn hnew, h.mappings, h.aliases, ?_,
        h.failures⟩
      intro s hs
      rw [opened_memory, if_neg (by omega)]
      exact h.unopened s (by omega)

theorem Opened.loop (hN : N.Releases) (k : ℕ) (h : Opened before st n m)
    (hk : n + k = st.sectionCount) :
    ∃ rc m', run (openSection N) (List.range' n k) m = (rc, m') ∧
      (rc ≠ 0 → Owns before m') ∧ (rc = 0 → Opened before st st.sectionCount m') := by
  induction k generalizing n m with
  | zero => exact ⟨0, m, rfl, fun hzero => absurd rfl hzero, fun _ => hk ▸ h⟩
  | succ k ih =>
    obtain ⟨rc, m₁, hstep, hfail, hok⟩ := h.step hN (by omega)
    rw [List.range'_succ, run, hstep]
    by_cases hrc : rc = 0
    · simp only [hrc, ne_eq, not_true_eq_false, if_false]
      exact ih (hok hrc) (by omega)
    · simp only [ne_eq, hrc, not_false_eq_true, if_true]
      exact ⟨rc, m₁, rfl, hfail, fun hzero => absurd hzero hrc⟩

end Opened

/-! ### Aliases -/

/-- The state with an alias of a mapping. -/
def State.link (st : State) (i start size : ℕ) : State :=
  let index := (st.mappings i).sectionIndex
  { (st.setHandle i ⟨i, some start, size⟩).setMemory index
      { (st.sections index).memory with aliases := (st.sections index).memory.aliases + 1 } with
    arena := { st.arena with aliases := ⟨i, some start, size⟩ :: st.arena.aliases } }

theorem link_handle (st : State) (i start size j : ℕ) :
    ((st.link i start size).mappings j).handle =
      if j = i then ⟨i, some start, size⟩ else (st.mappings j).handle := by
  by_cases hj : j = i
  · subst hj
    simp only [State.link, State.setMemory, State.setHandle, Function.update_self, if_true]
  · simp only [State.link, State.setMemory, State.setHandle, Function.update_of_ne hj, if_neg hj]

theorem link_plan (st : State) (i start size j : ℕ) :
    ((st.link i start size).mappings j).sectionIndex = (st.mappings j).sectionIndex ∧
      ((st.link i start size).mappings j).offset = (st.mappings j).offset := by
  by_cases hj : j = i
  · subst hj
    simp only [State.link, State.setMemory, State.setHandle, Function.update_self]
    exact ⟨trivial, trivial⟩
  · simp only [State.link, State.setMemory, State.setHandle, Function.update_of_ne hj]
    exact ⟨trivial, trivial⟩

theorem link_sections (st : State) (i start size s : ℕ) : ∃ n,
    (st.link i start size).sections s =
      { st.sections s with memory := { (st.sections s).memory with aliases := n } } ∧
    n = (st.sections s).memory.aliases + if s = (st.mappings i).sectionIndex then 1 else 0 := by
  by_cases hs : s = (st.mappings i).sectionIndex
  · subst hs
    simp only [State.link, State.setMemory, State.setHandle, Function.update_self, if_true]
    exact ⟨_, rfl, rfl⟩
  · simp only [State.link, State.setMemory, State.setHandle, Function.update_of_ne hs, if_neg hs]
    exact ⟨_, rfl, rfl⟩

theorem Linked.link {st : State} (h : Linked st) {i start size : ℕ} (hi : i < st.regions.length)
    (hnone : (st.mappings i).handle = .none i)
    (hin : ∀ p, start ≤ p → p < start + size → st.InArena p) : Linked (st.link i start size) := by
  have hfresh : ∀ a ∈ st.arena.aliases, a.id ≠ i := by
    intro a ha hid
    obtain ⟨hhandle, haddress⟩ := h.listed a ha
    rw [hid, hnone] at hhandle
    rw [← hhandle] at haddress
    exact haddress rfl
  constructor
  · intro j
    rw [link_handle]
    by_cases hj : j = i
    · rw [if_pos hj, hj]
      exact Or.inr ⟨hi, List.mem_cons_self, start, size, rfl, hin⟩
    · rw [if_neg hj]
      refine (h.handle j).imp_right ?_
      rintro ⟨hlt, hmem, hrest⟩
      exact ⟨hlt, List.mem_cons_of_mem _ hmem, hrest⟩
  · intro a ha
    rw [link_handle]
    rcases List.mem_cons.mp ha with rfl | ha
    · exact ⟨if_pos rfl, nofun⟩
    · rw [if_neg (hfresh a ha)]
      exact h.listed a ha
  · refine List.nodup_cons.mpr ⟨?_, h.nodup⟩
    intro hmem
    obtain ⟨a, ha, hid⟩ := List.mem_map.mp hmem
    exact hfresh a ha hid
  · intro s
    obtain ⟨n, hsection, hn⟩ := link_sections st i start size s
    have hcount := h.count s
    rw [hsection]
    simp only [link_plan]
    rw [State.link, List.countP_cons]
    dsimp only
    rw [hn, hcount]
    by_cases hs : s = (st.mappings i).sectionIndex
    · rw [if_pos hs, decide_eq_true hs.symm, if_pos rfl]
    · rw [if_neg hs, decide_eq_false (Ne.symm hs), if_neg Bool.false_ne_true]

/-- The memory in the loop that maps the regions. -/
structure Aliased (before : Kernel) (st : State) (n : ℕ) (m : Machine) : Prop
    extends Backed st st.sectionCount m where
  owns : Owns before m
  failures : m.kernel.failures = before.failures
  plan : ∀ i, (m.state.mappings i).sectionIndex = (st.mappings i).sectionIndex ∧
    (m.state.mappings i).offset = (st.mappings i).offset
  unmapped : ∀ i, n ≤ i → (m.state.mappings i).handle = .none i
  view : ∀ i < n, ∀ r, st.regions[i]? = some r → r.size ≠ 0 →
    ⟨i, some (MkwPs5Memory.GuestBase + r.base), rounded r.size⟩ ∈ m.state.arena.aliases ∧
    ∀ o < rounded r.size, m.kernel.vm (MkwPs5Memory.GuestBase + r.base + o) =
      .mapped ((m.state.sections (st.mappings i).sectionIndex).memory.physical.getD 0 +
        (st.mappings i).offset + o)

theorem Opened.aliased (h : Opened before st st.sectionCount m)
    (hnone : ∀ i, (st.mappings i).handle = .none i) : Aliased before st 0 m where
  toBacked := h.toBacked
  owns := h.owns
  failures := h.failures
  plan i := by
    rw [h.mappings]
    exact ⟨rfl, rfl⟩
  unmapped i _ := by
    rw [h.mappings]
    exact hnone i
  view := nofun

section Aliased

variable {n : ℕ} {r : RegionRequest}

theorem Aliased.skip (h : Aliased before st n m) (hr : st.regions[n]? = some r)
    (hsize : r.size = 0) : Aliased before st (n + 1) m :=
  { h with
    unmapped := fun i hi => h.unmapped i (by omega)
    view := by
      intro i hi r' hr' hsize'
      rcases Nat.lt_succ_iff_lt_or_eq.mp hi with hlt | rfl
      · exact h.view i hlt r' hr' hsize'
      · obtain rfl := Option.some.inj (hr.symm.trans hr')
        exact absurd hsize hsize' }

theorem Backed.same {n : ℕ} (h : Backed st n m) (hsame : SameHoldings m m')
    (hsections : ∀ s, ∃ memory, m'.state.sections s = { st.sections s with memory := memory })
    (hlayout : m'.state.regions = m.state.regions) (hram : m'.kernel.ram = m.kernel.ram)
    (hreserved : ∀ p, m.state.InArena p → m'.kernel.vm p ≠ .free) : Backed st n m' where
  sections := hsections
  sectionCount := hsame.sectionCount.trans h.sectionCount
  layout := hlayout.trans h.layout
  base := hsame.base.trans h.base
  size := hsame.size.trans h.size
  opened s hs := by
    obtain ⟨physical, size, host, aliases, hmemory, hle⟩ := h.opened s hs
    obtain ⟨k, hk⟩ := hsame.memory s
    exact ⟨physical, size, host, k, by rw [hk, hmemory], hle⟩
  reserved p hp := hreserved p ((hsame.inArena p).mp hp)
  mapped s hs host hhost physical hphysical i hi := by
    obtain ⟨k, hk⟩ := hsame.memory s
    rw [hk] at hhost hphysical hi
    have hin : Hosts (m.state.sections s).memory (host + i) :=
      ⟨host, hhost, by omega, Nat.add_lt_add_left hi _⟩
    rw [hsame.vm _ (h.outside s hs _ hin)]
    exact h.mapped s hs host hhost physical hphysical i hi
  taken s hs p hp := by
    rw [hsame.allocated]
    exact h.taken s hs p ((hsame.stores s p).mp hp)
  cleared s hs p hp := by
    rw [hram]
    exact h.cleared s hs p ((hsame.stores s p).mp hp)
  outside s hs p hp := by
    rw [hsame.inArena]
    exact h.outside s hs p ((hsame.hosts s p).mp hp)
  hostApart s hs t ht p hp hp' :=
    h.hostApart s hs t ht p ((hsame.hosts s p).mp hp) ((hsame.hosts t p).mp hp')
  storeApart s hs t ht p hp hp' :=
    h.storeApart s hs t ht p ((hsame.stores s p).mp hp) ((hsame.stores t p).mp hp')

/-- The machine after a region is mapped. -/
def linked (m : Machine) (i start size physical : ℕ) : Machine :=
  ⟨m.kernel.use start size fun o => .mapped (physical + o), m.state.link i start size⟩

theorem sameHoldings_linked {i start size physical : ℕ}
    (hin : ∀ p, start ≤ p → p < start + size → m.state.InArena p) :
    SameHoldings m (linked m i start size physical) where
  sectionCount := rfl
  base := rfl
  size := rfl
  memory s := by
    obtain ⟨n, hsection, _⟩ := link_sections m.state i start size s
    exact ⟨n, congrArg Section.memory hsection⟩
  vm p hp := Kernel.use_of_not_mem (k := m.kernel) (f := fun o => .mapped (physical + o))
    fun hrange => hp (hin p hrange.1 hrange.2)
  allocated := rfl

theorem Aliased.link (h : Aliased before st n m) (hr : st.regions[n]? = some r)
    {start physical : ℕ} (hstart : start = MkwPs5Memory.GuestBase + r.base)
    (hphysical : physical =
      (m.state.sections (st.mappings n).sectionIndex).memory.physical.getD 0 +
        (st.mappings n).offset)
    (hfits : r.base + rounded r.size ≤ m.state.arena.size)
    (hapart : ∀ a ∈ m.state.arena.aliases,
      ¬ Interval.Meets start (rounded r.size) (a.address.getD 0) a.size) :
    Aliased before st (n + 1) (linked m n start (rounded r.size) physical) := by
  have hlt : n < m.state.regions.length := by
    rw [h.layout]
    exact (List.getElem?_eq_some_iff.mp hr).1
  have hin : ∀ p, start ≤ p → p < start + rounded r.size → m.state.InArena p := by
    intro p hlo hhi
    exact ⟨_, h.base, by omega, by omega⟩
  have hsame : SameHoldings m (linked m n start (rounded r.size) physical) :=
    sameHoldings_linked hin
  have hnone := h.unmapped n le_rfl
  refine ⟨h.toBacked.same hsame ?_ rfl rfl ?_, h.owns.same hsame (h.owns.linked.link hlt hnone hin),
    h.failures, ?_, ?_, ?_⟩
  · -- a section counts one alias more at most and keeps its pages
    intro s
    obtain ⟨memory, hs⟩ := h.sections s
    obtain ⟨k, hsection, _⟩ := link_sections m.state n start (rounded r.size) s
    exact ⟨{ memory with aliases := k }, hsection.trans (by rw [hs])⟩
  · -- the region's own pages are mapped now; the others are reserved as before
    intro p hp
    by_cases hrange : start ≤ p ∧ p < start + rounded r.size
    · have hvm := Kernel.use_of_mem (k := m.kernel) (f := fun o => .mapped (physical + o)) hrange
      exact fun hfree => absurd (hvm.symm.trans hfree) nofun
    · have hvm := Kernel.use_of_not_mem (k := m.kernel) (f := fun o => .mapped (physical + o)) hrange
      exact fun hfree => h.reserved p hp (hvm.symm.trans hfree)
  · intro i
    obtain ⟨hindex, hoffset⟩ := link_plan m.state n start (rounded r.size) i
    exact ⟨hindex.trans (h.plan i).1, hoffset.trans (h.plan i).2⟩
  · intro i hi
    exact (link_handle m.state n start (rounded r.size) i).trans
      ((if_neg (by omega)).trans (h.unmapped i (by omega)))
  · intro i hi r' hr' hsize'
    have hmemory : ((linked m n start (rounded r.size) physical).state.sections
        (st.mappings i).sectionIndex).memory.physical =
        (m.state.sections (st.mappings i).sectionIndex).memory.physical := by
      obtain ⟨k, hk⟩ := hsame.memory (st.mappings i).sectionIndex
      rw [hk]
    rw [hmemory]
    -- an older view is apart from the new pages; the new one maps its section page by page
    rcases Nat.lt_succ_iff_lt_or_eq.mp hi with hlt' | rfl
    · obtain ⟨hmem, hview⟩ := h.view i hlt' r' hr' hsize'
      refine ⟨List.mem_cons_of_mem _ hmem, ?_⟩
      intro o ho
      rw [← hview o ho]
      apply Kernel.use_of_not_mem (k := m.kernel) (f := fun o => .mapped (physical + o))
      intro hrange
      exact hapart _ hmem (Interval.Meets.of_mem hrange
        ⟨Nat.le_add_right _ _, Nat.add_lt_add_left ho _⟩)
    · obtain rfl := Option.some.inj (hr.symm.trans hr')
      refine ⟨?_, ?_⟩
      · rw [← hstart]
        exact List.mem_cons_self
      · intro o ho
        have hrange : start ≤ start + o ∧ start + o < start + rounded r.size := ⟨by omega, by omega⟩
        have hvm := Kernel.use_of_mem (k := m.kernel) (f := fun o => .mapped (physical + o)) hrange
        rw [Nat.add_sub_cancel_left] at hvm
        rw [← hstart, ← hphysical]
        exact hvm

/-- One turn of the loop that maps the regions. -/
theorem Aliased.step (hN : N.Releases) (h : Aliased before st n m) (hr : st.regions[n]? = some r) :
    ∃ rc m', mapRegion N m (r, n) = (rc, m') ∧
      (rc ≠ 0 → Owns before m') ∧ (rc = 0 → Aliased before st (n + 1) m') := by
  by_cases hsize : r.size = 0
  · exact ⟨0, m, by rw [mapRegion, if_pos hsize], fun hzero => absurd rfl hzero,
      fun _ => h.skip hr hsize⟩
  · have hnone := h.unmapped n le_rfl
    obtain ⟨hindex, hoffset⟩ := h.plan n
    rcases MkwPs5Memory.mapAlias_spec hN m.kernel n m.state.arena r.base
      (m.state.sections (st.mappings n).sectionIndex).memory (st.mappings n).offset
      (rounded r.size) with ⟨rc, kernel, hmap, hrc, hsame⟩ | ⟨hmappable, hmap⟩
    · refine ⟨rc, ⟨kernel, m.state⟩, ?_, fun _ => h.owns.sameUse hsame,
        fun hzero => absurd hzero hrc⟩
      have hhandle : m.state.setHandle n (.none n) = m.state := by
        rw [State.setHandle, ← hnone, Function.update_eq_self]
      simp only [mapRegion, if_neg hsize, hnone, hindex, hoffset, hmap, hhandle, setMemory_self]
    · have hbase : m.state.arena.base.getD 0 = MkwPs5Memory.GuestBase := by
        rw [h.base]
        rfl
      rw [hbase] at hmap
      refine ⟨0, _, ?_, fun hzero => absurd rfl hzero, fun _ => h.link hr rfl rfl
        hmappable.inArena (hbase ▸ hmappable.apart)⟩
      simp only [mapRegion, if_neg hsize, hnone, hindex, hoffset, hmap]
      simp only [linked, State.link, hindex]

theorem Aliased.loop (hN : N.Releases) {rest : List RegionRequest} (h : Aliased before st n m)
    (hrest : st.regions.drop n = rest) :
    ∃ rc m', run (mapRegion N) (rest.zipIdx n) m = (rc, m') ∧
      (rc ≠ 0 → Owns before m') ∧ (rc = 0 → Aliased before st st.regions.length m') := by
  induction rest generalizing n m with
  | nil =>
    have hlength : st.regions.length ≤ n := List.drop_eq_nil_iff.mp hrest
    refine ⟨0, m, rfl, fun hzero => absurd rfl hzero, fun _ => ?_⟩
    refine { h with
      unmapped := fun i hi => ?_
      view := fun i hi => h.view i (by omega) }
    exact (h.owns.linked.handle i).resolve_right fun hlive => by
      have hlt := hlive.1
      rw [h.layout] at hlt
      omega
  | cons r rest ih =>
    obtain ⟨hr, hnext⟩ := head_of_drop hrest
    obtain ⟨rc, m₁, hstep, hfail, hok⟩ := h.step hN hr
    rw [List.zipIdx_cons, run, hstep]
    by_cases hrc : rc = 0
    · simp only [hrc, ne_eq, not_true_eq_false, if_false]
      exact ih (hok hrc) hnext
    · simp only [ne_eq, hrc, not_false_eq_true, if_true]
      exact ⟨rc, m₁, rfl, hfail, fun hzero => absurd hzero hrc⟩

end Aliased

end GuestFlat
