import MkwiiPs5.Loop
import MkwiiPs5.Memory.GuestFlatUndo

/-!
# Building up the flat guest memory

Which sections a plan has, what each turn of the loops adds to the memory, and from these what an
initialisation leaves when it succeeds and when it does not.
-/

namespace GuestFlat

open MkwPs5Memory (Alias Arena Kernel Native SameUse Use roundUp)

/-! ### Validation -/

/-- A region whose rounded range is in the guest's address space. -/
structure Valid (r : RegionRequest) : Prop where
  aligned : r.base % Granularity = 0
  fits : r.base + rounded r.size ≤ kGuestSpaceSize

/-- Two regions have no address in common after rounding. -/
def Apart (r r' : RegionRequest) : Prop :=
  r.size ≠ 0 → r'.size ≠ 0 → r'.base + rounded r'.size ≤ r.base ∨ r.base + rounded r.size ≤ r'.base

theorem validateRegion_eq_ok {before : List RegionRequest} {r : RegionRequest}
    (h : validateRegion before r = .ok ()) :
    (r.size ≠ 0 → Valid r) ∧ ∀ other ∈ before, Apart other r := by
  rw [validateRegion] at h
  split_ifs at h with hzero hkind hbase hend hoverlap
  · exact ⟨fun hsize => absurd hzero hsize, fun _ _ _ hsize => absurd hzero hsize⟩
  · refine ⟨fun _ => ⟨by omega, by omega⟩, ?_⟩
    intro other hother hsize _
    have hno := List.any_eq_false.mp (Bool.not_eq_true _ ▸ hoverlap) other hother
    rw [decide_eq_true_eq] at hno
    omega

theorem validateFrom_eq_ok {before rest : List RegionRequest}
    (h : validateFrom before rest = .ok ()) :
    (∀ r ∈ rest, r.size ≠ 0 → Valid r) ∧ (∀ r ∈ rest, ∀ other ∈ before, Apart other r) ∧
      rest.Pairwise Apart := by
  induction rest generalizing before with
  | nil => exact ⟨nofun, nofun, List.Pairwise.nil⟩
  | cons r rest ih =>
    rw [validateFrom, Loop.bind_eq_ok] at h
    obtain ⟨_, hregion, hrest⟩ := h
    obtain ⟨hvalid, hbefore⟩ := validateRegion_eq_ok hregion
    obtain ⟨hvalids, hbefores, hpairs⟩ := ih hrest
    refine ⟨?_, ?_, List.pairwise_cons.mpr ⟨?_, hpairs⟩⟩
    · intro r' hr'
      rcases List.mem_cons.mp hr' with rfl | hr'
      · exact hvalid
      · exact hvalids r' hr'
    · intro r' hr' other hother
      rcases List.mem_cons.mp hr' with rfl | hr'
      · exact hbefore other hother
      · exact hbefores r' hr' other (List.mem_append_left _ hother)
    · intro r' hr'
      exact hbefores r' hr' r (List.mem_append_right _ List.mem_cons_self)

/-! ### The plan -/

/-- What a section is of: a bank, or an owned region by its base. -/
def ident (kind : Backing) (base : ℕ) : Backing × ℕ := (kind, if kind = .Owned then base else 0)

def Section.ident (s : Section) : Backing × ℕ := GuestFlat.ident s.kind s.ownedBase

def RegionRequest.ident (r : RegionRequest) : Backing × ℕ := GuestFlat.ident r.backing r.base

theorem ident_bytes (s : Section) (n : ℕ) : ({ s with bytes := n } : Section).ident = s.ident := rfl

theorem ident_eq_iff (s : Section) (r : RegionRequest) : s.ident = r.ident ↔
    s.kind = r.backing ∧ (r.backing ≠ .Owned ∨ s.ownedBase = r.base) := by
  rw [Section.ident, RegionRequest.ident, ident, ident, Prod.mk.injEq]
  constructor
  · rintro ⟨hkind, hbase⟩
    rw [hkind] at hbase
    refine ⟨hkind, ?_⟩
    by_cases howned : r.backing = .Owned
    · rw [if_pos howned, if_pos howned] at hbase
      exact Or.inr hbase
    · exact Or.inl howned
  · rintro ⟨hkind, hbase⟩
    refine ⟨hkind, ?_⟩
    rw [hkind]
    split
    · next howned => exact hbase.resolve_left (not_not.mpr howned)
    · rfl

theorem findSection_spec (st : State) (r : RegionRequest) :
    (findSection st r < st.sectionCount ∧ (st.sections (findSection st r)).ident = r.ident) ∨
    findSection st r = st.sectionCount ∧ ∀ s < st.sectionCount, (st.sections s).ident ≠ r.ident := by
  rw [findSection]
  cases hfind : (List.range st.sectionCount).find? fun index =>
      (st.sections index).kind = r.backing ∧
        (r.backing ≠ .Owned ∨ (st.sections index).ownedBase = r.base) with
  | none =>
    right
    refine ⟨rfl, ?_⟩
    intro s hs heq
    have hno := List.find?_eq_none.mp hfind s (List.mem_range.mpr hs)
    exact hno (decide_eq_true ((ident_eq_iff _ _).mp heq))
  | some index =>
    left
    have hmatch := List.find?_some hfind
    refine ⟨List.mem_range.mp (List.mem_of_find?_eq_some hfind), ?_⟩
    exact (ident_eq_iff _ _).mpr (by simpa using hmatch)

/-- A plan for the first `n` regions. -/
structure Planned (regions : List RegionRequest) (n : ℕ) (st : State) : Prop where
  layout : st.regions = regions
  arena : st.arena = .none
  memory : ∀ s, (st.sections s).memory = .none
  handle : ∀ i, (st.mappings i).handle = .none i
  distinct : ∀ s < st.sectionCount, ∀ t < st.sectionCount,
    (st.sections s).ident = (st.sections t).ident → s = t
  mapping : ∀ i < n, ∀ r, regions[i]? = some r → r.size ≠ 0 →
    (st.mappings i).sectionIndex < st.sectionCount ∧
      (st.sections (st.mappings i).sectionIndex).ident = r.ident ∧
      (st.mappings i).offset = offset r ∧
      offset r + rounded r.size ≤ (st.sections (st.mappings i).sectionIndex).bytes

theorem planned_empty (regions : List RegionRequest) : Planned regions 0 (.empty regions) :=
  ⟨rfl, rfl, fun _ => rfl, fun _ => rfl, nofun, nofun⟩

theorem Planned.skip {regions : List RegionRequest} {n : ℕ} {st : State} {r : RegionRequest}
    (h : Planned regions n st) (hr : regions[n]? = some r) (hsize : r.size = 0) :
    Planned regions (n + 1) st :=
  { h with
    mapping := by
      intro i hi r' hr' hsize'
      rcases Nat.lt_succ_iff_lt_or_eq.mp hi with hlt | rfl
      · exact h.mapping i hlt r' hr' hsize'
      · obtain rfl := Option.some.inj (hr.symm.trans hr')
        exact absurd hsize hsize' }

theorem foundSection_ident (st : State) (r : RegionRequest) :
    (foundSection st r).ident = r.ident := by
  rw [foundSection]
  split
  · rfl
  · next hne =>
    rcases findSection_spec st r with ⟨_, hident⟩ | ⟨heq, _⟩
    · exact hident
    · exact absurd heq hne

/-- The section of a region, with room for the region. -/
def grownSection (st : State) (r : RegionRequest) : Section :=
  let last := offset r + rounded r.size
  { foundSection st r with
    bytes := if last > (foundSection st r).bytes then last else (foundSection st r).bytes }

/-- How many sections there are with that of a region. -/
def grownCount (st : State) (r : RegionRequest) : ℕ :=
  if findSection st r = st.sectionCount then st.sectionCount + 1 else st.sectionCount

theorem planRegion_eq (st : State) {r : RegionRequest} (n : ℕ) (hsize : r.size ≠ 0) :
    planRegion st (r, n) =
      { st with
        sectionCount := grownCount st r
        sections := Function.update st.sections (findSection st r) (grownSection st r)
        mappings := Function.update st.mappings n
          { st.mappings n with sectionIndex := findSection st r, offset := offset r } } := by
  rw [planRegion, if_neg hsize]
  rfl

theorem le_grownSection (st : State) (r : RegionRequest) :
    offset r + rounded r.size ≤ (grownSection st r).bytes ∧
      (foundSection st r).bytes ≤ (grownSection st r).bytes := by
  dsimp only [grownSection]
  constructor <;> split <;> omega

theorem findSection_lt (st : State) (r : RegionRequest) : findSection st r < grownCount st r := by
  rw [grownCount]
  rcases findSection_spec st r with ⟨hlt, _⟩ | ⟨heq, _⟩
  · rw [if_neg (Nat.ne_of_lt hlt)]
    exact hlt
  · rw [if_pos heq]
    omega

theorem le_grownCount (st : State) (r : RegionRequest) : st.sectionCount ≤ grownCount st r := by
  rw [grownCount]
  split <;> omega

/-- The sections, after that of a region has grown. -/
theorem update_grown (st : State) (r : RegionRequest) (s : ℕ) :
    Function.update st.sections (findSection st r) (grownSection st r) s =
      if s = findSection st r then grownSection st r else st.sections s :=
  Function.update_apply _ _ _ _

theorem ident_update_grown (st : State) (r : RegionRequest) (s : ℕ) :
    (Function.update st.sections (findSection st r) (grownSection st r) s).ident =
      if s = findSection st r then r.ident else (st.sections s).ident := by
  rw [update_grown]
  split
  · exact (ident_bytes _ _).trans (foundSection_ident st r)
  · rfl

/-- Only one section is that of a region. -/
theorem Planned.ident_ne {regions : List RegionRequest} {n : ℕ} {st : State} {r : RegionRequest}
    (h : Planned regions n st) {s : ℕ} (hs : s < grownCount st r) (hne : s ≠ findSection st r) :
    s < st.sectionCount ∧ (st.sections s).ident ≠ r.ident := by
  rw [grownCount] at hs
  rcases findSection_spec st r with ⟨hlt, hident⟩ | ⟨heq, hnone⟩
  · rw [if_neg (Nat.ne_of_lt hlt)] at hs
    exact ⟨hs, fun heq => hne (h.distinct s hs _ hlt (heq.trans hident.symm))⟩
  · rw [if_pos heq] at hs
    have hlt : s < st.sectionCount := by omega
    exact ⟨hlt, hnone s hlt⟩

/-- A region that is placed already keeps its place when another section grows, or its own. -/
theorem Planned.keeps {regions : List RegionRequest} {n : ℕ} {st : State} {r r' : RegionRequest}
    (h : Planned regions n st) {i : ℕ} (hi : i < n) (hr' : regions[i]? = some r')
    (hsize' : r'.size ≠ 0) :
    let index := (st.mappings i).sectionIndex
    let grown := Function.update st.sections (findSection st r) (grownSection st r) index
    index < grownCount st r ∧ grown.ident = r'.ident ∧ (st.mappings i).offset = offset r' ∧
      offset r' + rounded r'.size ≤ grown.bytes := by
  obtain ⟨hlt, hident, hoffset, hbytes⟩ := h.mapping i hi r' hr' hsize'
  refine ⟨hlt.trans_le (le_grownCount st r), ?_, hoffset, ?_⟩
  · rw [ident_update_grown]
    split
    · next heq =>
      rw [← hident, heq]
      rcases findSection_spec st r with ⟨_, hfound⟩ | ⟨hnew, _⟩
      · exact hfound.symm
      · exact absurd (heq.trans hnew) (Nat.ne_of_lt hlt)
    · exact hident
  · rw [update_grown]
    split
    · next heq =>
      have hfound : foundSection st r = st.sections (findSection st r) :=
        if_neg (Nat.ne_of_lt (heq ▸ hlt))
      rw [heq, ← hfound] at hbytes
      exact hbytes.trans (le_grownSection st r).2
    · exact hbytes

theorem Planned.add {regions : List RegionRequest} {n : ℕ} {st : State} {r : RegionRequest}
    (h : Planned regions n st) (hr : regions[n]? = some r) (hsize : r.size ≠ 0) :
    Planned regions (n + 1) (planRegion st (r, n)) := by
  rw [planRegion_eq st n hsize]
  constructor
  · exact h.layout
  · exact h.arena
  · intro s
    dsimp only
    rw [update_grown]
    split
    · dsimp only [grownSection, foundSection]
      split
      · rfl
      · exact h.memory _
    · exact h.memory s
  · intro i
    dsimp only
    rw [Function.update_apply]
    split
    · next hi => exact hi ▸ h.handle n
    · exact h.handle i
  · intro s hs t ht heq
    dsimp only at hs ht heq
    rw [ident_update_grown, ident_update_grown] at heq
    split at heq
    · next hsi =>
      split at heq
      · next hti => rw [hsi, hti]
      · next hti => exact absurd heq.symm (h.ident_ne ht hti).2
    · next hsi =>
      split at heq
      · exact absurd heq (h.ident_ne hs hsi).2
      · next hti => exact h.distinct s (h.ident_ne hs hsi).1 t (h.ident_ne ht hti).1 heq
  · intro i hi r' hr' hsize'
    dsimp only
    rw [Function.update_apply]
    rcases Nat.lt_succ_iff_lt_or_eq.mp hi with hlt | rfl
    · rw [if_neg (Nat.ne_of_lt hlt)]
      exact h.keeps hlt hr' hsize'
    · obtain rfl := Option.some.inj (hr.symm.trans hr')
      rw [if_pos rfl, ident_update_grown, if_pos rfl, update_grown, if_pos rfl]
      exact ⟨findSection_lt st r, rfl, rfl, (le_grownSection st r).1⟩

theorem head_of_drop {α : Type} {l rest : List α} {n : ℕ} {a : α} (h : l.drop n = a :: rest) :
    l[n]? = some a ∧ l.drop (n + 1) = rest := by
  constructor
  · have hhead := @List.getElem?_drop _ l n 0
    rw [h] at hhead
    exact hhead.symm
  · rw [← List.tail_drop, h, List.tail_cons]

theorem Planned.loop {regions rest : List RegionRequest} {n : ℕ} {st : State}
    (h : Planned regions n st) (hrest : regions.drop n = rest) :
    Planned regions regions.length ((rest.zipIdx n).foldl planRegion st) := by
  induction rest generalizing n st with
  | nil =>
    have hlength : regions.length ≤ n := List.drop_eq_nil_iff.mp hrest
    exact { h with mapping := fun i hi => h.mapping i (by omega) }
  | cons r rest ih =>
    obtain ⟨hr, hnext⟩ := head_of_drop hrest
    rw [List.zipIdx_cons, List.foldl_cons]
    apply ih _ hnext
    by_cases hsize : r.size = 0
    · rw [planRegion, if_pos hsize]
      exact h.skip hr hsize
    · exact h.add hr hsize

theorem planned_plan (regions : List RegionRequest) :
    Planned regions regions.length (plan regions) :=
  (planned_empty regions).loop rfl

end GuestFlat
