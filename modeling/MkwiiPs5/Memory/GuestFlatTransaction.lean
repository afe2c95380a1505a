import MkwiiPs5.Memory.GuestFlatBuild

/-!
# Initialisation as a transaction

An initialisation that fails leaves the process as it was; one that succeeds leaves a memory whose
pointers coincide just where the guest's addresses name the same byte.
-/

namespace GuestFlat

open MkwPs5Memory (Alias Arena Kernel Native SameUse Use)

variable {N : Native} {k : Kernel} {regions : List RegionRequest}

/-! ### Outcomes -/

/-- An initialisation either leaves the process as it was or a memory for its plan. -/
inductive Built (k : Kernel) (st : State) : Outcome × Kernel × Option State → Prop
  | thrown (failure : Failure) (kernel : Kernel) (h : SameUse k kernel) :
      Built k st (.thrown failure, kernel, none)
  | returned (m : Machine) (h : Aliased k st st.regions.length m) :
      Built k st (.returned, m.kernel, some { m.state with active := true })

theorem built_of_owns (hN : N.Releases) {m : Machine} (h : Owns k m) (st : State)
    (failure : Failure) : Built k st (abandon N m failure) := by
  obtain ⟨kernel, habandon, hsame⟩ := h.abandon hN failure
  rw [habandon]
  exact .thrown failure kernel hsame

theorem Planned.not_hosts {n : ℕ} {st : State} (h : Planned regions n st) (s p : ℕ) :
    ¬ Hosts (st.sections s).memory p := by
  rw [h.memory]
  exact not_hosts_none p

theorem Planned.not_stores {n : ℕ} {st : State} (h : Planned regions n st) (s p : ℕ) :
    ¬ Stores (st.sections s).memory p := by
  rw [h.memory]
  exact not_stores_none p

/-- A plan with an empty arena holds the arena only. -/
theorem Planned.owns {n : ℕ} {st : State} (h : Planned regions n st) {m : Machine} {arena : Arena}
    (hstate : m.state = { st with arena := arena }) (haliases : arena.aliases = [])
    (hvm : ∀ p, ¬ m.state.InArena p → m.kernel.vm p = k.vm p)
    (hfree : ∀ p, m.state.InArena p → k.vm p = .free)
    (hallocated : m.kernel.allocated = k.allocated) : Owns k m := by
  obtain ⟨kernel, state⟩ := m
  obtain rfl : state = { st with arena := arena } := hstate
  constructor
  · intro s
    dsimp only
    rw [h.memory]
    exact .closed 0
  · intro s _
    dsimp only
    rw [h.memory]
    exact ⟨rfl, rfl⟩
  · constructor
    · exact fun i => Or.inl (h.handle i)
    · dsimp only
      rw [haliases]
      exact nofun
    · dsimp only
      rw [haliases]
      exact List.nodup_nil
    · intro s
      dsimp only
      rw [haliases, h.memory]
      rfl
  · exact fun p hp _ => hvm p hp
  · exact hfree
  · exact fun s p hp => absurd hp (h.not_hosts s p)
  · exact fun p _ => congrFun hallocated p
  · exact fun s p hp => absurd hp (h.not_stores s p)

theorem Planned.opened {n : ℕ} {st : State} (h : Planned regions n st)
    (hfree : ∀ i < MkwPs5Memory.GuestSpaceSize, k.vm (MkwPs5Memory.GuestBase + i) = .free) :
    Opened k st 0
      ⟨k.use MkwPs5Memory.GuestBase MkwPs5Memory.GuestSpaceSize fun _ => .reserved,
        { st with arena := ⟨some MkwPs5Memory.GuestBase, MkwPs5Memory.GuestSpaceSize, []⟩ }⟩ := by
  have hin : ∀ p, ({ st with arena := ⟨some MkwPs5Memory.GuestBase, MkwPs5Memory.GuestSpaceSize,
      []⟩ } : State).InArena p ↔
      MkwPs5Memory.GuestBase ≤ p ∧ p < MkwPs5Memory.GuestBase + MkwPs5Memory.GuestSpaceSize := by
    intro p
    constructor
    · rintro ⟨base, hbase, hrange⟩
      obtain rfl := Option.some.inj hbase
      exact hrange
    · exact fun hrange => ⟨_, rfl, hrange⟩
  refine ⟨⟨fun s => ⟨(st.sections s).memory, rfl⟩, rfl, rfl, rfl, rfl, nofun, ?_, nofun, nofun,
    nofun, nofun, nofun, nofun⟩, h.owns rfl rfl ?_ ?_ rfl, rfl, rfl, fun s _ => h.memory s, rfl⟩
  · intro p hp
    dsimp only
    rw [Kernel.use_of_mem ((hin p).mp hp)]
    exact nofun
  · intro p hp
    exact Kernel.use_of_not_mem ((hin p).not.mp hp)
  · intro p hp
    obtain ⟨hlo, hhi⟩ := (hin p).mp hp
    have hvm := hfree (p - MkwPs5Memory.GuestBase) (by omega)
    rwa [Nat.add_sub_cancel' hlo] at hvm

theorem Planned.built {n : ℕ} {st : State} (hN : N.Releases) (h : Planned regions n st) :
    Built k st (build N k st) := by
  have harena := h.arena
  rcases MkwPs5Memory.reserve_spec hN k with ⟨rc, kernel, hreserve, hrc, hsame⟩ | ⟨hreserve, hfree⟩
  · simp only [build, harena, hreserve, ne_eq, hrc, not_false_eq_true, if_true]
    apply built_of_owns hN
    refine h.owns rfl rfl (fun p _ => by rw [hsame.vm]) ?_ hsame.allocated
    rintro p ⟨base, hbase, _⟩
    exact absurd hbase nofun
  · simp only [build, harena, hreserve, ne_eq, not_true_eq_false, if_false]
    obtain ⟨rc, m₁, hopen, hfail, hok⟩ := (h.opened hfree).loop hN st.sectionCount (Nat.zero_add _)
    rw [← List.range_eq_range'] at hopen
    simp only [hopen]
    by_cases hrc : rc = 0
    · obtain ⟨rc', m₂, hmap, hfail', hok'⟩ := ((hok hrc).aliased h.handle).loop hN rfl
      rw [List.drop_zero] at hmap
      simp only [hrc, not_true_eq_false, if_false, hmap]
      by_cases hrc' : rc' = 0
      · simp only [hrc', not_true_eq_false, if_false]
        exact .returned m₂ (hok' hrc')
      · simp only [hrc', not_false_eq_true, if_true]
        exact built_of_owns hN (hfail' hrc') st _
    · simp only [hrc, not_false_eq_true, if_true]
      exact built_of_owns hN (hfail hrc) st _

/-! ### Pointers -/

/-- The section of an address of the guest, and the offset in it. -/
def denotes (regions : List RegionRequest) (address : ℕ) : Option ((Backing × ℕ) × ℕ) :=
  (findRegion regions address).bind fun i =>
    (regions[i]?).map fun r => (r.ident, offset r + (address - r.base))

theorem findRegion_eq_some {a i : ℕ} (h : findRegion regions a = some i) :
    ∃ r, regions[i]? = some r ∧ r.base ≤ a ∧ a - r.base < r.size := by
  obtain ⟨hi, hin, _⟩ := List.findIdx?_eq_some_iff_getElem.mp h
  exact ⟨regions[i], List.getElem?_eq_getElem hi, of_decide_eq_true hin⟩

/-- An address with the region and the section it is in. -/
structure Located (st : State) (m : Machine) (a p : ℕ) (i : ℕ) (r : RegionRequest) (s x : ℕ)
    (physical size host : ℕ) : Prop where
  found : findRegion st.regions a = some i
  region : st.regions[i]? = some r
  above : r.base ≤ a
  below : a - r.base < r.size
  sectionIndex : (st.mappings i).sectionIndex = s
  offset_eq : (st.mappings i).offset = offset r
  lt : s < st.sectionCount
  ident : (st.sections s).ident = r.ident
  memory : ∃ aliases, (m.state.sections s).memory =
    { MkwPs5Memory.Backing.at physical size host with aliases := aliases }
  at_eq : x = offset r + (a - r.base)
  within : x < size
  pointer : p = host + x

theorem Aliased.located {st : State} {m : Machine} (hplan : Planned regions regions.length st)
    (h : Aliased k st st.regions.length m) {a p : ℕ}
    (hp : hostPointer (some { m.state with active := true }) a = some p) :
    ∃ i r s x physical size host, Located st m a p i r s x physical size host := by
  have hlayout : m.state.regions = st.regions := h.layout
  simp only [hostPointer, if_true, hlayout, Option.map_eq_some_iff] at hp
  obtain ⟨i, hfound, hpointer⟩ := hp
  obtain ⟨r, hr, habove, hbelow⟩ := findRegion_eq_some hfound
  have hregion : regions[i]? = some r := hplan.layout ▸ hr
  obtain ⟨hlt, hident, hoffset, hbytes⟩ := hplan.mapping i
    (List.getElem?_eq_some_iff.mp hregion).1 r hregion (by omega)
  obtain ⟨physical, size, host, aliases, hmemory, hsize⟩ := h.opened _ hlt
  have hround : r.size ≤ rounded r.size := MkwPs5Memory.le_roundUp (by decide)
  refine ⟨i, r, _, _, physical, size, host, hfound, hr, habove, hbelow, rfl, hoffset, hlt, hident,
    ⟨aliases, hmemory⟩, rfl, by omega, ?_⟩
  simp only [State.base, hr, Option.map_some, Option.getD_some, h.plan i, hoffset, hmemory]
    at hpointer
  rw [← hpointer, ← Nat.add_assoc]
  rfl

section Located

variable {st : State} {m : Machine} {n a b p q i j s t x y : ℕ} {r r' : RegionRequest}
variable {physical size host physical' size' host' : ℕ}

theorem Located.denotes (hl : Located st m a p i r s x physical size host) :
    denotes st.regions a = some (r.ident, x) := by
  rw [GuestFlat.denotes, hl.found, Option.bind_some, hl.region, Option.map_some, hl.at_eq]

theorem Located.hosts (hl : Located st m a p i r s x physical size host) :
    Hosts (m.state.sections s).memory p := by
  obtain ⟨aliases, hmemory⟩ := hl.memory
  rw [hmemory, hl.pointer]
  exact ⟨host, rfl, Nat.le_add_right _ _, Nat.add_lt_add_left hl.within _⟩

theorem Located.stores (hl : Located st m a p i r s x physical size host) :
    Stores (m.state.sections s).memory (physical + x) := by
  obtain ⟨aliases, hmemory⟩ := hl.memory
  rw [hmemory]
  exact ⟨physical, rfl, Nat.le_add_right _ _, Nat.add_lt_add_left hl.within _⟩

/-- The pointer and the address of the guest are two views of one byte. -/
theorem Aliased.views (h : Aliased k st st.regions.length m)
    (hl : Located st m a p i r s x physical size host) :
    m.kernel.vm p = .mapped (physical + x) ∧
      m.kernel.vm (MkwPs5Memory.GuestBase + a) = .mapped (physical + x) := by
  obtain ⟨aliases, hmemory⟩ := hl.memory
  constructor
  · have hmapped := h.mapped s hl.lt host (by rw [hmemory]; rfl) physical (by rw [hmemory]; rfl) x
      (by rw [hmemory]; exact hl.within)
    rw [hl.pointer, hmapped]
  · have hround : r.size ≤ rounded r.size := MkwPs5Memory.le_roundUp (by decide)
    have hi : i < st.regions.length := (List.getElem?_eq_some_iff.mp hl.region).1
    have hbelow := hl.below
    have hview := (h.view i hi r hl.region (by omega)).2 (a - r.base) (by omega)
    rw [hl.sectionIndex, hl.offset_eq, hmemory] at hview
    rw [Nat.add_assoc, Nat.add_sub_cancel' hl.above, Nat.add_assoc, ← hl.at_eq] at hview
    exact hview

/-- One section has one place for its bytes. -/
theorem Located.same_host (hl : Located st m a p i r s x physical size host)
    (hl' : Located st m b q j r' s y physical' size' host') :
    host = host' ∧ physical = physical' := by
  obtain ⟨aliases, hmemory⟩ := hl.memory
  obtain ⟨aliases', hmemory'⟩ := hl'.memory
  have heq := hmemory.symm.trans hmemory'
  exact ⟨Option.some.inj (congrArg MkwPs5Memory.Backing.host heq),
    Option.some.inj (congrArg MkwPs5Memory.Backing.physical heq)⟩

theorem Aliased.pointer_eq_iff (hplan : Planned regions regions.length st)
    (h : Aliased k st n m) (hl : Located st m a p i r s x physical size host)
    (hl' : Located st m b q j r' t y physical' size' host') :
    p = q ↔ denotes regions a = denotes regions b := by
  rw [← hplan.layout, hl.denotes, hl'.denotes, Option.some_inj, Prod.mk.injEq]
  constructor
  · rintro rfl
    obtain rfl := h.hostApart s hl.lt t hl'.lt p hl.hosts hl'.hosts
    obtain ⟨rfl, _⟩ := hl.same_host hl'
    exact ⟨hl.ident.symm.trans hl'.ident, Nat.add_left_cancel (hl.pointer.symm.trans hl'.pointer)⟩
  · rintro ⟨hident, rfl⟩
    obtain rfl := hplan.distinct s hl.lt t hl'.lt ((hl.ident.trans hident).trans hl'.ident.symm)
    obtain ⟨rfl, _⟩ := hl.same_host hl'
    rw [hl.pointer, hl'.pointer]

/-- Two owned regions have different sections. -/
theorem Located.section_ne (hapart : st.regions.Pairwise Apart)
    (hl : Located st m a p i r s x physical size host)
    (hl' : Located st m b q j r' t y physical' size' host') (hij : i ≠ j)
    (howned : r.backing = .Owned) (howned' : r'.backing = .Owned) : s ≠ t := by
  rintro rfl
  have hident := hl.ident.symm.trans hl'.ident
  rw [RegionRequest.ident, RegionRequest.ident, howned, howned', GuestFlat.ident,
    GuestFlat.ident, if_pos rfl, if_pos rfl, Prod.mk.injEq] at hident
  have hr := hl.below
  have hr' := hl'.below
  have hround : r.size ≤ rounded r.size := MkwPs5Memory.le_roundUp (by decide)
  have hround' : r'.size ≤ rounded r'.size := MkwPs5Memory.le_roundUp (by decide)
  obtain ⟨hi, rfl⟩ := List.getElem?_eq_some_iff.mp hl.region
  obtain ⟨hj, rfl⟩ := List.getElem?_eq_some_iff.mp hl'.region
  rcases Nat.lt_or_gt_of_ne hij with hlt | hlt
  · have hranges := List.pairwise_iff_getElem.mp hapart i j hi hj hlt (by omega) (by omega)
    omega
  · have hranges := List.pairwise_iff_getElem.mp hapart j i hj hi hlt (by omega) (by omega)
    omega

end Located

/-- A memory whose pointers are those of its regions. -/
structure Faithful (regions : List RegionRequest) (kernel : Kernel) (current : Option State) :
    Prop where
  accepts : ∀ a, (hostPointer current a).isSome ↔ (findRegion regions a).isSome
  eq_iff : ∀ a b p q, hostPointer current a = some p → hostPointer current b = some q →
    (p = q ↔ denotes regions a = denotes regions b)
  inside : ∀ a p, hostPointer current a = some p → ∃ st s x byte, current = some st ∧
    s < st.sectionCount ∧ denotes regions a = some ((st.sections s).ident, x) ∧
    Hosts (st.sections s).memory p ∧ Stores (st.sections s).memory byte ∧
    kernel.vm p = .mapped byte ∧ kernel.vm (MkwPs5Memory.GuestBase + a) = .mapped byte ∧
    kernel.ram byte = 0
  owned : ∀ i j r r', regions[i]? = some r → regions[j]? = some r' → i ≠ j →
    r.backing = .Owned → r'.backing = .Owned → ∀ a b p q,
    findRegion regions a = some i → findRegion regions b = some j →
    hostPointer current a = some p → hostPointer current b = some q →
    p ≠ q ∧ kernel.vm p ≠ kernel.vm q

theorem Aliased.faithful {st : State} {m : Machine} (hapart : regions.Pairwise Apart)
    (hplan : Planned regions regions.length st) (h : Aliased k st st.regions.length m) :
    Faithful regions m.kernel (some { m.state with active := true }) := by
  constructor
  · intro a
    have hlayout : m.state.regions = regions := h.layout.trans hplan.layout
    simp only [hostPointer, if_true, hlayout, Option.isSome_map]
  · intro a b p q hp hq
    obtain ⟨i, r, s, x, physical, size, host, hl⟩ := h.located hplan hp
    obtain ⟨j, r', t, y, physical', size', host', hl'⟩ := h.located hplan hq
    exact h.pointer_eq_iff hplan hl hl'
  · intro a p hp
    obtain ⟨i, r, s, x, physical, size, host, hl⟩ := h.located hplan hp
    obtain ⟨hhost, hguest⟩ := h.views hl
    obtain ⟨memory, hsection⟩ := h.sections s
    refine ⟨_, s, x, physical + x, rfl, h.sectionCount ▸ hl.lt, ?_, hl.hosts, hl.stores, hhost,
      hguest, h.cleared s hl.lt _ hl.stores⟩
    have hident : (m.state.sections s).ident = r.ident := by
      rw [hsection, ← hl.ident]
      rfl
    rw [← hplan.layout, hl.denotes, ← hident]
  · intro i j r r' hr hr' hij howned howned' a b p q ha hb hp hq
    obtain ⟨i', r₁, s, x, physical, size, host, hl⟩ := h.located hplan hp
    obtain ⟨j', r₂, t, y, physical', size', host', hl'⟩ := h.located hplan hq
    rw [← hplan.layout] at ha hb hr hr' hapart
    obtain rfl := Option.some.inj (ha.symm.trans hl.found)
    obtain rfl := Option.some.inj (hb.symm.trans hl'.found)
    obtain rfl := Option.some.inj (hr.symm.trans hl.region)
    obtain rfl := Option.some.inj (hr'.symm.trans hl'.region)
    have hne := hl.section_ne hapart hl' hij howned howned'
    constructor
    · rintro rfl
      exact hne (h.hostApart s hl.lt t hl'.lt p hl.hosts hl'.hosts)
    · intro hvm
      rw [(h.views hl).1, (h.views hl').1] at hvm
      obtain hbyte := Use.mapped.inj hvm
      exact hne (h.storeApart s hl.lt t hl'.lt _ hl.stores (hbyte ▸ hl'.stores))

/-! ### Initialize -/

/-- What an initialisation may leave: all as before, or a memory for its regions. -/
structure Transactional (k : Kernel) (regions : List RegionRequest)
    (result : Outcome × Kernel × Option State) : Prop where
  terminated : result.1 ≠ .terminated
  thrown : ∀ failure k' current, result = (.thrown failure, k', current) →
    isActive current = false ∧ SameUse k k'
  returned : ∀ k' current, result = (.returned, k', current) → validate regions = .ok () ∧
    k'.failures = k.failures ∧ isActive current = true ∧ Faithful regions k' current

theorem transactional_thrown {failure : Failure} {kernel : Kernel} (h : SameUse k kernel) :
    Transactional k regions (.thrown failure, kernel, none) where
  terminated := nofun
  thrown := by
    rintro _ _ _ ⟨⟩
    exact ⟨rfl, h⟩
  returned := nofun

/-- An initialisation that fails, at whatever point, gives back all that it acquired; one that
succeeds had no failure, and its pointers are those of its regions. -/
theorem initialize_transactional (hN : N.Releases) (k : Kernel) (regions : List RegionRequest) :
    Transactional k regions (initializeRegions N k none regions) := by
  cases hvalidate : validate regions with
  | error what =>
    simp only [initializeRegions, hvalidate]
    exact transactional_thrown (.refl k)
  | ok =>
    simp only [initializeRegions, hvalidate]
    have hplan := planned_plan regions
    have hbuilt := hplan.built (k := k) hN
    generalize build N k (plan regions) = result at hbuilt
    cases hbuilt with
    | thrown failure kernel hsame => exact transactional_thrown hsame
    | returned m haliased =>
      refine ⟨nofun, nofun, ?_⟩
      rintro _ _ ⟨⟩
      exact ⟨hvalidate, haliased.failures, rfl,
        haliased.faithful (validateFrom_eq_ok hvalidate).2.2 hplan⟩

/-- The address if the range there may be had. -/
def firstAnswer (free : ℕ → Prop) [DecidablePred free] (size value : ℕ) : MkwPs5Memory.Answer :=
  if ∀ i < size, free (value + i) then ⟨0, value⟩ else ⟨MkwPs5Memory.Invalid, 0⟩

theorem firstAnswer_free {free : ℕ → Prop} [DecidablePred free] {size value : ℕ}
    (h : (firstAnswer free size value).rc = 0) :
    ∀ i < size, free ((firstAnswer free size value).value + i) := by
  by_cases hfree : ∀ i < size, free (value + i)
  · rw [firstAnswer, if_pos hfree]
    exact hfree
  · rw [firstAnswer, if_neg hfree] at h
    exact absurd h (by decide)

theorem firstAnswer_of_free {free : ℕ → Prop} [DecidablePred free] {size value : ℕ}
    (h : ∀ i < size, free (value + i)) : firstAnswer free size value = ⟨0, value⟩ := by
  rw [firstAnswer, if_pos h]

/-- A kernel that hands out another place at every call, when it is free. -/
def plainNative : Native where
  poolSize _ := 0x200000000
  reserve k address size := firstAnswer (fun p => k.vm p = .free) size address
  allocate k size := firstAnswer (fun p => k.allocated p = false) size (0x10000000 * k.calls)
  map k size _ := firstAnswer (fun p => k.vm p = .free) size (0x10000000 * (16 + k.calls))
  mapFixed _ address _ _ := ⟨0, address⟩
  unmap _ _ _ := 0
  release _ _ _ := 0
  replace _ _ _ := 0
  reserve_free _ _ _ h := firstAnswer_free h
  allocate_free _ _ h := firstAnswer_free h
  map_free _ _ _ h := firstAnswer_free h
  mapFixed_free _ _ _ _ _ hne := absurd rfl hne

theorem plainNative_releases : plainNative.Releases :=
  ⟨fun _ _ _ => rfl, fun _ _ _ => rfl, fun _ _ _ => rfl⟩

theorem plainNative_reserve {k : Kernel} {address size : ℕ}
    (h : ∀ i < size, k.vm (address + i) = .free) : plainNative.reserve k address size = ⟨0, address⟩ :=
  @firstAnswer_of_free (fun p => k.vm p = .free) _ _ _ h

theorem plainNative_allocate {k : Kernel} {size : ℕ}
    (h : ∀ i < size, k.allocated (0x10000000 * k.calls + i) = false) :
    plainNative.allocate k size = ⟨0, 0x10000000 * k.calls⟩ :=
  @firstAnswer_of_free (fun p => k.allocated p = false) _ _ _ h

theorem plainNative_map {k : Kernel} {size physical : ℕ}
    (h : ∀ i < size, k.vm (0x10000000 * (16 + k.calls) + i) = .free) :
    plainNative.map k size physical = ⟨0, 0x10000000 * (16 + k.calls)⟩ :=
  @firstAnswer_of_free (fun p => k.vm p = .free) _ _ _ h

theorem reserve_plain {k : Kernel} {arena : Arena} (hbase : arena.base = none)
    (h : ∀ i < MkwPs5Memory.GuestSpaceSize, k.vm (MkwPs5Memory.GuestBase + i) = .free) :
    MkwPs5Memory.reserve plainNative k arena =
      (0, k.use MkwPs5Memory.GuestBase MkwPs5Memory.GuestSpaceSize fun _ => .reserved,
        { arena with base := some MkwPs5Memory.GuestBase, size := MkwPs5Memory.GuestSpaceSize }) := by
  rw [MkwPs5Memory.reserve, hbase, Kernel.reserve, plainNative_reserve h]
  rfl

/-- The kernel after a section is opened. -/
def withSection (k : Kernel) (size : ℕ) : Kernel :=
  let taken := k.take (0x10000000 * k.calls) size true
  let used := taken.use (0x10000000 * (17 + k.calls)) size fun i =>
    .mapped (0x10000000 * k.calls + i)
  { used with ram := Overlay.fill used.ram (0x10000000 * k.calls) size fun _ => 0 }

theorem openSection_plain {m : Machine} {index size : ℕ}
    (hmemory : (m.state.sections index).memory = .none)
    (hsize : rounded (m.state.sections index).bytes = size) (hpos : 0 < size)
    (hpage : MkwPs5Memory.roundUp size MkwPs5Memory.PageSize = size) (hpool : size ≤ 0x200000000)
    (hdirect : ∀ i < size, m.kernel.allocated (0x10000000 * m.kernel.calls + i) = false)
    (hvm : ∀ i < size, m.kernel.vm (0x10000000 * (17 + m.kernel.calls) + i) = .free) :
    openSection plainNative m index =
      (0, ⟨withSection m.kernel size, m.state.setMemory index
        ⟨some (0x10000000 * m.kernel.calls), size, some (0x10000000 * (17 + m.kernel.calls)), 0⟩⟩) := by
  have hmap : plainNative.map (m.kernel.take (0x10000000 * m.kernel.calls) size true) size
      (0x10000000 * m.kernel.calls) = ⟨0, 0x10000000 * (17 + m.kernel.calls)⟩ := by
    have hplace : 17 + m.kernel.calls = 16 + (m.kernel.calls + 1) := by omega
    rw [hplace] at hvm ⊢
    exact plainNative_map hvm
  have hopen : MkwPs5Memory.openBacking plainNative m.kernel .none size =
      (0, (m.kernel.take (0x10000000 * m.kernel.calls) size true).use
        (0x10000000 * (17 + m.kernel.calls)) size
        (fun i => .mapped (0x10000000 * m.kernel.calls + i)),
        ⟨some (0x10000000 * m.kernel.calls), size, some (0x10000000 * (17 + m.kernel.calls)), 0⟩) := by
    rw [MkwPs5Memory.openBacking, if_neg (by decide), if_neg (by
      rw [MkwPs5Memory.PageSize]
      omega)]
    dsimp only
    rw [hpage, if_neg (by
      change ¬ (size > 0x200000000 ∨ 0x200000000 > 2 ^ 63 - 1)
      omega), Kernel.allocate, plainNative_allocate hdirect]
    dsimp only
    rw [if_pos rfl, if_neg (by decide), Kernel.map, hmap]
    dsimp only
    rw [if_pos rfl, if_neg (by decide)]
    rfl
  rw [openSection, hmemory, hsize, hopen]
  rfl

/-- A process that has nothing yet. -/
def idle : Kernel := ⟨fun _ => .free, fun _ => false, fun _ => 0, 0, 0⟩

/-- Two windows of one bank, and a region of its own. -/
def bankWindows : List RegionRequest :=
  [⟨0x80000000, 0x1800000, .Mem1⟩, ⟨0xc0000000, 0x1800000, .Mem1⟩, ⟨0xe0000000, 0x4000, .Owned⟩]

theorem run_cons_zero {α : Type} {f : Machine → α → ℤ × Machine} {a : α} {l : List α} {m m' : Machine}
    (h : f m a = (0, m')) : run f (a :: l) m = run f l m' := by
  rw [run, h]
  rfl

theorem build_plain {k : Kernel} {candidate : State} {m m' : Machine}
    (hbase : candidate.arena.base = none)
    (hfree : ∀ i < MkwPs5Memory.GuestSpaceSize, k.vm (MkwPs5Memory.GuestBase + i) = .free)
    (hopen : run (openSection plainNative) (List.range candidate.sectionCount)
      ⟨k.use MkwPs5Memory.GuestBase MkwPs5Memory.GuestSpaceSize fun _ => .reserved,
        { candidate with arena := { candidate.arena with
            base := some MkwPs5Memory.GuestBase, size := MkwPs5Memory.GuestSpaceSize } }⟩ = (0, m))
    (hmap : run (mapRegion plainNative) candidate.regions.zipIdx m = (0, m')) :
    build plainNative k candidate =
      (.returned, m'.kernel, some { m'.state with active := true }) := by
  rw [build, reserve_plain hbase hfree]
  dsimp only
  rw [hopen]
  dsimp only
  rw [hmap]
  rfl

/-- The arena is reserved, and no section is open yet. -/
def reservedArena : Machine where
  kernel := idle.use MkwPs5Memory.GuestBase MkwPs5Memory.GuestSpaceSize fun _ => .reserved
  state := { plan bankWindows with
    arena := ⟨some MkwPs5Memory.GuestBase, MkwPs5Memory.GuestSpaceSize, []⟩ }

/-- The section of the bank is open. -/
def openedBank : Machine where
  kernel := withSection reservedArena.kernel 0x1800000
  state := reservedArena.state.setMemory 0 ⟨some 0x10000000, 0x1800000, some 0x120000000, 0⟩

/-- Both sections are. -/
def openedSections : Machine where
  kernel := withSection openedBank.kernel 0x10000
  state := openedBank.state.setMemory 1 ⟨some 0x30000000, 0x10000, some 0x140000000, 0⟩

theorem openSections_plain :
    run (openSection plainNative) [0, 1] reservedArena = (0, openedSections) := by
  have hbelow : ∀ p < MkwPs5Memory.GuestBase, reservedArena.kernel.vm p = .free := fun p hp =>
    Kernel.use_of_not_mem (f := fun _ => .reserved) fun hin => absurd hin.1 (Nat.not_le.mpr hp)
  have hbank : openSection plainNative reservedArena 0 = (0, openedBank) := by
    refine openSection_plain rfl rfl (by decide) rfl (by decide) (fun _ _ => rfl) fun i hi => ?_
    change reservedArena.kernel.vm (0x120000000 + i) = .free
    exact hbelow _ (by rw [MkwPs5Memory.GuestBase]; omega)
  have howned : openSection plainNative openedBank 1 = (0, openedSections) := by
    refine openSection_plain rfl rfl (by decide) rfl (by decide) (fun i hi => ?_) fun i hi => ?_
    · change (reservedArena.kernel.take 0x10000000 0x1800000 true).allocated (0x30000000 + i) = false
      rw [Kernel.take_of_not_mem (by omega)]
      rfl
    · have hother := @Kernel.use_of_not_mem (reservedArena.kernel.take 0x10000000 0x1800000 true)
        0x120000000 0x1800000 (0x140000000 + i) (fun j => .mapped (0x10000000 + j)) (by omega)
      change openedBank.kernel.vm (0x140000000 + i) = .free
      exact hother.trans (hbelow _ (by rw [MkwPs5Memory.GuestBase]; omega))
  rw [run_cons_zero hbank, run_cons_zero howned, run]

theorem mapRegions_plain : (run (mapRegion plainNative) bankWindows.zipIdx openedSections).1 = 0 := by
  decide +kernel

/-- With this kernel nothing fails: the arena, the two sections and the three mappings. -/
theorem initializeRegions_plain : ∃ k' current,
    initializeRegions plainNative idle none bankWindows = (.returned, k', current) := by
  have hvalid : validate bankWindows = .ok () := rfl
  have hmap : run (mapRegion plainNative) (plan bankWindows).regions.zipIdx openedSections =
      (0, (run (mapRegion plainNative) bankWindows.zipIdx openedSections).2) :=
    Prod.ext mapRegions_plain rfl
  rw [initializeRegions, hvalid]
  exact ⟨_, _, build_plain rfl (fun _ _ => rfl) openSections_plain hmap⟩

theorem initialize_transactional_windows :
    ∃ k' current, initializeRegions plainNative idle none bankWindows = (.returned, k', current) ∧
      isActive current = true ∧ Faithful bankWindows k' current := by
  obtain ⟨k', current, hrun⟩ := initializeRegions_plain
  have hreturned := (initialize_transactional plainNative_releases idle bankWindows).returned _ _ hrun
  exact ⟨k', current, hrun, hreturned.2.2.1, hreturned.2.2.2⟩

/-- The two windows name the same bytes. -/
example : denotes bankWindows 0x80000010 = denotes bankWindows 0xc0000010 := by decide

theorem clear_sameUse (k : Kernel) (memory : NativeBacking) : SameUse k (clear k memory) := by
  rw [clear]
  split
  · exact .refl k
  · exact ⟨rfl, rfl⟩

/-- A later call keeps the memory, and at most clears it. -/
theorem initializeRegions_again (k : Kernel) (st : State) (regions : List RegionRequest) :
    ∃ k' outcome, initializeRegions N k (some st) regions = (outcome, k', some st) ∧
      SameUse k k' := by
  rw [initializeRegions]
  split
  · exact ⟨k, _, rfl, .refl k⟩
  · refine ⟨_, .returned, rfl, ?_⟩
    generalize List.range st.sectionCount = indices
    induction indices generalizing k with
    | nil => exact .refl k
    | cons index indices ih =>
      have hclear := clear_sameUse k (st.sections index).memory
      have hrest := ih (clear k (st.sections index).memory)
      exact ⟨hrest.vm.trans hclear.vm, hrest.allocated.trans hclear.allocated⟩

end GuestFlat
