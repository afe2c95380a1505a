import MkwiiPs5.Gpu.GxTextureCache
import MkwiiPs5.Loop

/-!
# The budget of the texture cache

What the cache keeps in any run: its usage is that of its entries and within the budget, and the
stamps tell which entries were used since the clock last wrapped, and in which order.
-/

namespace Gpu.GxTextureCache

/-! ### Usage -/

/-- The storage of two entries lies apart in the direct memory. -/
def Entry.Apart (e e' : Entry) : Prop :=
  e.texture.gpu.physical + e.bytes ≤ e'.texture.gpu.physical ∨
    e'.texture.gpu.physical + e'.bytes ≤ e.texture.gpu.physical

def bytes (entries : List Entry) : ℕ := (entries.map Entry.bytes).sum

/-- The entries have different keys and share no storage, and the usage is recorded. -/
structure Accounted (c : GxTextureCache) : Prop where
  keys : (c.entries.map Entry.key).Nodup
  apart : c.entries.Pairwise Entry.Apart
  placed : ∀ e ∈ c.entries, e.texture.gpu.physical + e.bytes ≤ 2 ^ 63
  used : c.used = bytes c.entries

variable {A : Arithmetic} {c c' : GxTextureCache} {e : Entry} {evicted : List Entry}

theorem Accounted.used_le (h : c.Accounted) : c.used ≤ 2 ^ 63 := by
  rw [h.used]
  exact Interval.sum_le_of_apart h.apart h.placed

/-- Only the entries and the usage count. -/
theorem Accounted.congr (h : c.Accounted) (hentries : c'.entries = c.entries)
    (hused : c'.used = c.used) : c'.Accounted where
  keys := by rw [hentries]; exact h.keys
  apart := by rw [hentries]; exact h.apart
  placed := by rw [hentries]; exact h.placed
  used := by rw [hentries, hused]; exact h.used

theorem Accounted.perm_erase (A : Arithmetic) (h : c.Accounted) (he : e ∈ c.entries) :
    c.entries.Perm (e :: (c.erase A e).entries) :=
  KeyedList.perm_eraseP_of_find? (KeyedList.find?_key h.keys he)

theorem Accounted.used_eq (A : Arithmetic) (h : c.Accounted) (he : e ∈ c.entries) :
    c.used = e.bytes + bytes (c.erase A e).entries := by
  have hsum := ((h.perm_erase A he).map Entry.bytes).sum_eq
  rw [List.map_cons, List.sum_cons] at hsum
  rw [h.used]
  exact hsum

theorem Accounted.erase (h : c.Accounted) (he : e ∈ c.entries) : (c.erase A e).Accounted where
  keys := h.keys.sublist (List.eraseP_sublist.map _)
  apart := h.apart.sublist List.eraseP_sublist
  placed e' he' := h.placed e' (List.mem_of_mem_eraseP he')
  used := by
    have hle := h.used_le
    have heq := h.used_eq A he
    exact A.u64_eq (by rw [heq]; push_cast; ring) (by omega)

/-! ### The eviction loop -/

/-- What the eviction loop does: it erases entries, each with the least stamp of those present. -/
structure Evicts (c : GxTextureCache) (evicted : List Entry) (c' : GxTextureCache) : Prop where
  perm : c.entries.Perm (evicted ++ c'.entries)
  frame : c' = { c with entries := c'.entries, used := c'.used }
  accounted : c'.Accounted
  within : c'.used ≤ c.budget
  ordered : evicted.Pairwise (·.stamp ≤ ·.stamp)
  oldest : ∀ e ∈ evicted, ∀ e' ∈ c'.entries, e.stamp ≤ e'.stamp
  kept : ∀ e ∈ c.entries, e.bytes ≤ c.budget → (∀ e' ∈ c.entries, e'.key ≠ e.key →
    e'.stamp < e.stamp) → e ∈ c'.entries

theorem Evicts.refl (h : c.Accounted) (hwithin : c.used ≤ c.budget) : c.Evicts [] c where
  perm := List.Perm.refl _
  frame := rfl
  accounted := h
  within := hwithin
  ordered := List.Pairwise.nil
  oldest := nofun
  kept _ he _ _ := he

/-- The entry with the least stamp is not the newest, unless it is alone. -/
theorem Accounted.newest_ne_oldest (A : Arithmetic) (h : c.Accounted) (hover : c.used > c.budget)
    (hmin : e ∈ c.entries.argmin Entry.stamp) {new : Entry} (hnew : new ∈ c.entries)
    (hfits : new.bytes ≤ c.budget)
    (hnewest : ∀ e' ∈ c.entries, e'.key ≠ new.key → e'.stamp < new.stamp) : new.key ≠ e.key := by
  intro hkey
  have he : e ∈ c.entries := List.argmin_mem hmin
  obtain rfl : new = e := List.inj_on_of_nodup_map h.keys hnew he hkey
  have hrest : (c.erase A new).entries = [] := by
    rw [List.eq_nil_iff_forall_not_mem]
    intro e' he'
    have hnodup := (h.perm_erase A he).map Entry.key |>.nodup_iff.mp h.keys
    have hne : e'.key ≠ new.key := fun heq =>
      (List.nodup_cons.mp hnodup).1 (heq ▸ List.mem_map_of_mem he')
    have hmem : e' ∈ c.entries := List.mem_of_mem_eraseP he'
    have hlt := hnewest e' hmem hne
    have hle : new.stamp ≤ e'.stamp := List.le_of_mem_argmin hmem hmin
    omega
  have hused := h.used_eq A he
  rw [hrest] at hused
  simp only [bytes, List.map_nil, List.sum_nil] at hused
  omega

theorem Evicts.cons (h : c.Accounted) (hover : c.used > c.budget)
    (hmin : e ∈ c.entries.argmin Entry.stamp) (hrest : (c.erase A e).Evicts evicted c') :
    c.Evicts (e :: evicted) c' := by
  have he : e ∈ c.entries := List.argmin_mem hmin
  have hperm := h.perm_erase A he
  have hleast : ∀ e' ∈ evicted ++ c'.entries, e.stamp ≤ e'.stamp := by
    intro e' he'
    exact List.le_of_mem_argmin (List.mem_of_mem_eraseP (hrest.perm.mem_iff.mpr he')) hmin
  constructor
  · exact hperm.trans (hrest.perm.cons e)
  · exact hrest.frame
  · exact hrest.accounted
  · exact hrest.within
  · rw [List.pairwise_cons]
    exact ⟨fun e' he' => hleast e' (List.mem_append_left _ he'), hrest.ordered⟩
  · rintro e₁ he₁ e' he'
    rcases List.mem_cons.mp he₁ with rfl | he₁
    · exact hleast e' (List.mem_append_right _ he')
    · exact hrest.oldest e₁ he₁ e' he'
  · intro new hnew hfits hnewest
    have hne := h.newest_ne_oldest A hover hmin hnew hfits hnewest
    refine hrest.kept new ?_ hfits fun e' he' => hnewest e' (List.mem_of_mem_eraseP he')
    rcases List.mem_cons.mp (hperm.mem_iff.mp hnew) with rfl | hmem
    · exact absurd rfl hne
    · exact hmem

/-- The eviction loop ends, and it never looks for the least stamp of no entries. -/
theorem Accounted.evict (h : c.Accounted) : ∃ evicted c', c.evict A = .ok (evicted, c') ∧
    c.Evicts evicted c' := by
  induction c using evict.induct A with
  | case1 c hover hnone =>
    have hnil : c.entries = [] := List.argmin_eq_none.mp hnone
    have hused := h.used
    simp only [hnil, bytes, List.map_nil, List.sum_nil] at hused
    omega
  | case2 c hover oldest hmin _ ih =>
    obtain ⟨evicted, c', hevict, hspec⟩ := ih (h.erase (List.argmin_mem hmin))
    refine ⟨oldest :: evicted, c', ?_, hspec.cons h hover hmin⟩
    rw [GxTextureCache.evict, if_pos hover]
    split
    · next hnone => exact absurd (hmin.symm.trans hnone) nofun
    · next oldest' hmin' =>
      obtain rfl : oldest = oldest' := Option.some.inj (hmin.symm.trans hmin')
      rw [hevict]
      rfl
  | case3 c hwithin =>
    refine ⟨[], c, ?_, Evicts.refl h (by omega)⟩
    rw [GxTextureCache.evict, if_neg hwithin]

/-! ### Recency -/

/-- The calls that used an entry, numbered from one: how many they are, the last of each key, how
often the clock wrapped, and the first one since it last did. -/
structure Recency where
  uses : ℕ
  lastUse : Key → ℕ
  wraps : ℕ
  since : ℕ

def Recency.start : Recency := ⟨0, fun _ => 0, 0, 1⟩

/-- After a call that used an entry, or none. -/
def Recency.next (r : Recency) (used : Option Key) (wrapped : Bool) : Recency :=
  match used with
  | none => r
  | some k =>
    { uses := r.uses + 1
      lastUse := Function.update r.lastUse k (r.uses + 1)
      wraps := if wrapped then r.wraps + 1 else r.wraps
      since := if wrapped then r.uses + 1 else r.since }

/-- What the clock can tell of the order in which two keys were last used. -/
structure Recency.Before (r : Recency) (k k' : Key) : Prop where
  exact : r.wraps = 0 → r.lastUse k ≤ r.lastUse k'
  since : r.since ≤ r.lastUse k → r.since ≤ r.lastUse k' ∧ r.lastUse k ≤ r.lastUse k'

/-- The stamps count the uses since the clock last wrapped. -/
structure Stamped (c : GxTextureCache) (r : Recency) : Prop where
  clock : c.clock + r.since = r.uses + 1
  clock_lt : c.clock < 2 ^ 64
  unwrapped : r.wraps = 0 → r.since = 1
  lastUse_le : ∀ e ∈ c.entries, r.lastUse e.key ≤ r.uses
  stamp : ∀ e ∈ c.entries, e.stamp = r.lastUse e.key + 1 - r.since

variable {r : Recency} {k : Key}

theorem Stamped.before (h : c.Stamped r) {e' : Entry} (he : e ∈ c.entries) (he' : e' ∈ c.entries)
    (hle : e.stamp ≤ e'.stamp) : r.Before e.key e'.key where
  exact hwraps := by
    have hsince := h.unwrapped hwraps
    rw [h.stamp e he, h.stamp e' he', hsince] at hle
    omega
  since hsince := by
    rw [h.stamp e he, h.stamp e' he'] at hle
    omega

theorem Stamped.congr (h : c.Stamped r) (hentries : ∀ e ∈ c'.entries, e ∈ c.entries)
    (hclock : c'.clock = c.clock) : c'.Stamped r where
  clock := by rw [hclock]; exact h.clock
  clock_lt := by rw [hclock]; exact h.clock_lt
  unwrapped := h.unwrapped
  lastUse_le e he := h.lastUse_le e (hentries e he)
  stamp e he := h.stamp e (hentries e he)

/-- The recency after a use of a key that took a stamp. -/
def Recency.use (r : Recency) (c : GxTextureCache) (k : Key) : Recency :=
  r.next (some k) (decide (c.nextStamp.clock < c.clock))

/-- What a new stamp leaves: the entries other than the one it is for, and all older. -/
structure Fresh (c : GxTextureCache) (r : Recency) (k : Key) : Prop where
  clock : c.clock + r.since = r.uses + 1
  clock_lt : c.clock < 2 ^ 64
  unwrapped : r.wraps = 0 → r.since = 1
  lastUse : r.lastUse k = r.uses
  lastUse_le : ∀ e ∈ c.entries, r.lastUse e.key ≤ r.uses
  stamp : ∀ e ∈ c.entries, e.key ≠ k → e.stamp = r.lastUse e.key + 1 - r.since
  older : ∀ e ∈ c.entries, e.key ≠ k → e.stamp < c.clock

theorem Stamped.nextStamp (h : c.Stamped r) (k : Key) : c.nextStamp.Fresh (r.use c k) k := by
  have hclock := h.clock
  have hlt := h.clock_lt
  have hlast : ∀ k', Function.update r.lastUse k (r.uses + 1) k' ≤ r.uses + 1 ∨
      Function.update r.lastUse k (r.uses + 1) k' = r.lastUse k' := by
    intro k'
    by_cases hk : k' = k
    · subst hk
      exact Or.inl (by rw [Function.update_self])
    · exact Or.inr (Function.update_of_ne hk _ _)
  -- the clock wraps: every entry gets stamp 0, and only uses from now on are told apart
  by_cases hwrap : c.clock + 1 = 2 ^ 64
  · have hnext : c.nextStamp = { c with entries := c.entries.map ({ · with stamp := 0 }), clock := 1 } := by
      rw [GxTextureCache.nextStamp, hwrap]
      rfl
    have huse : r.use c k = ⟨r.uses + 1, Function.update r.lastUse k (r.uses + 1), r.wraps + 1,
        r.uses + 1⟩ := by
      have hlt' : c.nextStamp.clock < c.clock := by
        rw [hnext]
        dsimp only
        omega
      rw [Recency.use, Recency.next, decide_eq_true hlt']
      rfl
    rw [huse, hnext]
    constructor
    · dsimp only
      omega
    · exact Nat.one_lt_two_pow (by decide)
    · exact nofun
    · exact Function.update_self _ _ _
    · intro e he
      obtain ⟨e₀, he₀, rfl⟩ := List.mem_map.mp he
      have hle := h.lastUse_le e₀ he₀
      dsimp only
      rcases hlast e₀.key with hk | hk <;> omega
    · intro e he hne
      obtain ⟨e₀, he₀, rfl⟩ := List.mem_map.mp he
      have hle := h.lastUse_le e₀ he₀
      dsimp only at hne ⊢
      rw [Function.update_of_ne hne]
      omega
    · intro e he _
      obtain ⟨e₀, _, rfl⟩ := List.mem_map.mp he
      exact Nat.one_pos
  · -- otherwise the new stamp is above all others
    have hnext : c.nextStamp = { c with clock := c.clock + 1 } := by
      rw [GxTextureCache.nextStamp, Nat.mod_eq_of_lt (by omega)]
      rfl
    have huse : r.use c k = ⟨r.uses + 1, Function.update r.lastUse k (r.uses + 1), r.wraps,
        r.since⟩ := by
      have hge : ¬ c.nextStamp.clock < c.clock := by
        rw [hnext]
        dsimp only
        omega
      rw [Recency.use, Recency.next, decide_eq_false hge]
      rfl
    rw [huse, hnext]
    constructor
    · dsimp only
      omega
    · dsimp only
      omega
    · exact h.unwrapped
    · exact Function.update_self _ _ _
    · intro e he
      have hle := h.lastUse_le e he
      dsimp only
      rcases hlast e.key with hk | hk <;> omega
    · intro e he hne
      dsimp only
      rw [Function.update_of_ne hne]
      exact h.stamp e he
    · intro e he _
      have hle := h.lastUse_le e he
      have hstamp := h.stamp e he
      dsimp only
      omega

/-- The key of a new stamp gets it. -/
theorem Fresh.stamped (h : c.Fresh r k) (hclock : c'.clock = c.clock)
    (hentries : ∀ e ∈ c'.entries, e.key = k ∧ e.stamp = c.clock ∨ e.key ≠ k ∧ e ∈ c.entries) :
    c'.Stamped r where
  clock := by rw [hclock]; exact h.clock
  clock_lt := by rw [hclock]; exact h.clock_lt
  unwrapped := h.unwrapped
  lastUse_le e he := by
    rcases hentries e he with ⟨hk, _⟩ | ⟨_, hmem⟩
    · rw [hk, h.lastUse]
    · exact h.lastUse_le e hmem
  stamp e he := by
    rcases hentries e he with ⟨hk, hstamp⟩ | ⟨hk, hmem⟩
    · have hclock := h.clock
      rw [hk, hstamp, h.lastUse]
      omega
    · exact h.stamp e hmem hk

/-! ### Hits and insertions -/

/-- Stamps do not count for the usage. -/
theorem Accounted.restamp (h : c.Accounted) {f : Entry → ℕ}
    (hentries : c'.entries = c.entries.map fun e => { e with stamp := f e })
    (hused : c'.used = c.used) : c'.Accounted where
  keys := by
    rw [hentries, List.map_map]
    exact h.keys
  apart := by
    rw [hentries, List.pairwise_map]
    exact h.apart
  placed e he := by
    rw [hentries] at he
    obtain ⟨e₀, he₀, rfl⟩ := List.mem_map.mp he
    exact h.placed e₀ he₀
  used := by
    rw [hentries, hused, bytes, List.map_map]
    exact h.used

theorem nextStamp_entries (c : GxTextureCache) :
    ∃ f : Entry → ℕ, c.nextStamp.entries = c.entries.map fun e => { e with stamp := f e } := by
  rw [nextStamp]
  split
  · exact ⟨fun _ => 0, rfl⟩
  · exact ⟨Entry.stamp, (List.map_id _).symm⟩

theorem nextStamp_frame (c : GxTextureCache) :
    c.nextStamp.used = c.used ∧ c.nextStamp.budget = c.budget ∧ c.nextStamp.memo = c.memo := by
  rw [nextStamp]
  split <;> exact ⟨rfl, rfl, rfl⟩

theorem Accounted.nextStamp (h : c.Accounted) : c.nextStamp.Accounted := by
  obtain ⟨f, hf⟩ := nextStamp_entries c
  exact h.restamp hf (nextStamp_frame c).1

theorem nextStamp_keys (c : GxTextureCache) :
    c.nextStamp.entries.map Entry.key = c.entries.map Entry.key := by
  obtain ⟨f, hf⟩ := nextStamp_entries c
  rw [hf, List.map_map]
  rfl

theorem Accounted.hit (h : c.Accounted) (k : Key) : (c.hit k).Accounted := by
  apply h.nextStamp.restamp (f := fun e => if e.key = k then c.nextStamp.clock else e.stamp)
  · apply List.map_congr_left
    intro e _
    split <;> rfl
  · rfl

theorem Stamped.hit (h : c.Stamped r) (k : Key) : (c.hit k).Stamped (r.use c k) := by
  refine @Fresh.stamped _ (c.hit k) _ _ (h.nextStamp k) rfl ?_
  intro e he
  obtain ⟨e₀, he₀, rfl⟩ := List.mem_map.mp he
  by_cases hk : e₀.key = k
  · rw [if_pos hk]
    exact Or.inl ⟨hk, rfl⟩
  · rw [if_neg hk]
    exact Or.inr ⟨hk, he₀⟩

/-- What the kernel maps lies in the direct memory and outside what is in use. -/
def Lawful (kernel : Kernel) (entries : List Entry) : Prop :=
  ∀ n p, kernel.map n = .ok p → p + n ≤ kernel.pool ∧
    ∀ e ∈ entries, p + n ≤ e.texture.gpu.physical ∨ e.texture.gpu.physical + e.bytes ≤ p

theorem hit_keys (c : GxTextureCache) (k : Key) :
    (c.hit k).entries.map Entry.key = c.entries.map Entry.key := by
  rw [← nextStamp_keys c, hit, List.map_map]
  apply List.map_congr_left
  intro e _
  dsimp only [Function.comp_apply]
  split <;> rfl

/-- What a call that keeps a new texture does. -/
structure Inserts (c : GxTextureCache) (r : Recency) (k : Key) (texture : GxTexture)
    (result : Resolved) (c' : GxTextureCache) : Prop where
  returned : result.texture = texture
  used : result.used = some k
  accounted : c'.Accounted
  within : c'.used ≤ c'.budget
  budget : c'.budget = c.budget
  memo : c'.memo = c.memo
  stamped : c'.Stamped (r.use c k)
  wraps : decide (c'.clock < c.clock) = decide (c.nextStamp.clock < c.clock)
  kept : ∃ e ∈ c'.entries, e.key = k
  new_kept : ∀ e ∈ result.evicted, e.key ≠ k
  sources : ∀ e ∈ c'.entries, e.key = k ∧ e.texture = texture ∨
    ∃ e₀ ∈ c.entries, e₀.key = e.key ∧ e₀.texture = e.texture
  present : ∀ e ∈ c.entries, ∃ e' ∈ result.evicted ++ c'.entries, e'.key = e.key
  ordered : result.evicted.Pairwise fun e e' => (r.use c k).Before e.key e'.key
  oldest : ∀ e ∈ result.evicted, ∀ e' ∈ c'.entries, (r.use c k).Before e.key e'.key

theorem Entry.Apart.symm {e e' : Entry} (h : e.Apart e') : e'.Apart e := Or.symm h

/-- The entries with a new one, in the order of the map. -/
def withNew (A : Arithmetic) (c : GxTextureCache) (order : List Entry → List Entry) (k : Key)
    (texture : GxTexture) : GxTextureCache :=
  { c with
    entries := order (⟨k, texture, c.clock⟩ :: c.entries)
    used := A.u64 (c.used + texture.gpu.layout.bytes) }

theorem Accounted.withNew (h : c.Accounted) {texture : GxTexture}
    (hnew : ∀ e ∈ c.entries, e.key ≠ k)
    (hapart : ∀ e ∈ c.entries, (⟨k, texture, c.clock⟩ : Entry).Apart e)
    (hplaced : texture.gpu.physical + texture.gpu.layout.bytes ≤ 2 ^ 63)
    {order : List Entry → List Entry} (horder : ∀ l, (order l).Perm l) :
    (c.withNew A order k texture).Accounted := by
  have hperm : (c.withNew A order k texture).entries.Perm (⟨k, texture, c.clock⟩ :: c.entries) :=
    horder _
  have hpairs : (c.withNew A order k texture).entries.Pairwise Entry.Apart := by
    rw [hperm.pairwise_iff fun he => he.symm, List.pairwise_cons]
    exact ⟨hapart, h.apart⟩
  have hin : ∀ e ∈ (c.withNew A order k texture).entries,
      e.texture.gpu.physical + e.bytes ≤ 2 ^ 63 := by
    intro e he
    rcases List.mem_cons.mp (hperm.mem_iff.mp he) with rfl | he
    · exact hplaced
    · exact h.placed e he
  have hsum : bytes (c.withNew A order k texture).entries =
      c.used + texture.gpu.layout.bytes := by
    have heq := (hperm.map Entry.bytes).sum_eq
    rw [List.map_cons, List.sum_cons] at heq
    rw [h.used, Nat.add_comm]
    exact heq
  have hle := Interval.sum_le_of_apart hpairs hin
  rw [← bytes, hsum] at hle
  constructor
  · rw [(hperm.map Entry.key).nodup_iff, List.map_cons, List.nodup_cons]
    refine ⟨?_, h.keys⟩
    rintro hmem
    obtain ⟨e, he, hk⟩ := List.mem_map.mp hmem
    exact hnew e he hk
  · exact hpairs
  · exact hin
  · rw [hsum]
    exact A.u64_add (by omega)

theorem insert_spec (h : c.Accounted) (hstamped : c.Stamped r) {texture : GxTexture}
    (hnew : ∀ e ∈ c.entries, e.key ≠ k)
    (hapart : ∀ e ∈ c.entries,
      texture.gpu.physical + texture.gpu.layout.bytes ≤ e.texture.gpu.physical ∨
        e.texture.gpu.physical + e.bytes ≤ texture.gpu.physical)
    (hplaced : texture.gpu.physical + texture.gpu.layout.bytes ≤ 2 ^ 63)
    (hfits : texture.gpu.layout.bytes ≤ c.budget) {order : List Entry → List Entry}
    (horder : ∀ l, (order l).Perm l) :
    ∃ result c', c.insert A order k texture = (.ok result, c') ∧
      c.Inserts r k texture result c' := by
  have hfresh := hstamped.nextStamp k
  obtain ⟨f, hf⟩ := nextStamp_entries c
  obtain ⟨_, hbudget, hmemo⟩ := nextStamp_frame c
  have hold : ∀ e ∈ c.nextStamp.entries, ∃ e₀ ∈ c.entries, e = { e₀ with stamp := f e₀ } := by
    intro e he
    rw [hf] at he
    obtain ⟨e₀, he₀, rfl⟩ := List.mem_map.mp he
    exact ⟨e₀, he₀, rfl⟩
  have hnewNext : ∀ e ∈ c.nextStamp.entries, e.key ≠ k := by
    intro e he
    obtain ⟨e₀, he₀, rfl⟩ := hold e he
    exact hnew e₀ he₀
  let new : Entry := ⟨k, texture, c.nextStamp.clock⟩
  let c₁ := c.nextStamp.withNew A order k texture
  have hperm : c₁.entries.Perm (new :: c.nextStamp.entries) := horder _
  have haccounted : c₁.Accounted := by
    apply h.nextStamp.withNew hnewNext _ hplaced horder
    intro e he
    obtain ⟨e₀, he₀, rfl⟩ := hold e he
    exact hapart e₀ he₀
  have hstamped₁ : c₁.Stamped (r.use c k) := by
    refine @Fresh.stamped _ c₁ _ _ hfresh rfl ?_
    intro e he
    rcases List.mem_cons.mp (hperm.mem_iff.mp he) with rfl | he
    · exact Or.inl ⟨rfl, rfl⟩
    · exact Or.inr ⟨hnewNext e he, he⟩
  obtain ⟨evicted, c', hevict, hspec⟩ := haccounted.evict (A := A)
  have hmem : ∀ e ∈ evicted ++ c'.entries, e ∈ c₁.entries := fun e he => hspec.perm.mem_iff.mpr he
  -- the newest entry is the last to go, and it fits by itself
  have hkept : new ∈ c'.entries := by
    apply hspec.kept new (hperm.mem_iff.mpr List.mem_cons_self) (hbudget ▸ hfits)
    intro e he hne
    rcases List.mem_cons.mp (hperm.mem_iff.mp he) with rfl | he
    · exact absurd rfl hne
    · exact hfresh.older e he hne
  have hclock : c'.clock = c.nextStamp.clock := by rw [hspec.frame]; rfl
  have hbudget' : c'.budget = c.budget := by rw [hspec.frame]; exact hbudget
  refine ⟨⟨texture, some k, evicted⟩, c', ?_, ?_⟩
  · have hany : c.nextStamp.entries.any (·.key == k) = false := by
      rw [List.any_eq_false]
      intro e he
      simpa using hnewNext e he
    have hevict' : GxTextureCache.evict A { c.nextStamp with
        entries := order (⟨k, texture, c.nextStamp.clock⟩ :: c.nextStamp.entries)
        used := A.u64 (c.nextStamp.used + texture.gpu.layout.bytes) } = .ok (evicted, c') := hevict
    simp only [insert, hany, hevict', Bool.false_eq_true, if_false]
  · constructor
    · rfl
    · rfl
    · exact hspec.accounted
    · rw [hbudget', ← hbudget]
      exact hspec.within
    · exact hbudget'
    · rw [hspec.frame]
      exact hmemo
    · exact hstamped₁.congr (fun e he => hmem e (List.mem_append_right _ he)) hclock
    · rw [hclock]
    · exact ⟨new, hkept, rfl⟩
    · -- keys are distinct, so that an evicted entry is not the new one
      intro e he hk
      have hnodup := (hspec.perm.map Entry.key).nodup_iff.mp haccounted.keys
      rw [List.map_append] at hnodup
      exact (List.nodup_append.mp hnodup).2.2 _ (List.mem_map_of_mem he) _
        (List.mem_map_of_mem hkept) hk
    · intro e he
      rcases List.mem_cons.mp (hperm.mem_iff.mp (hmem e (List.mem_append_right _ he))) with
        rfl | he
      · exact Or.inl ⟨rfl, rfl⟩
      · obtain ⟨e₀, he₀, rfl⟩ := hold e he
        exact Or.inr ⟨e₀, he₀, rfl, rfl⟩
    · intro e he
      have hnext : { e with stamp := f e } ∈ c.nextStamp.entries := by
        rw [hf]
        exact List.mem_map_of_mem he
      exact ⟨_, hspec.perm.mem_iff.mp (hperm.mem_iff.mpr (List.mem_cons_of_mem _ hnext)), rfl⟩
    · apply hspec.ordered.imp_of_mem
      intro e e' he he' hle
      exact hstamped₁.before (hmem e (List.mem_append_left _ he))
        (hmem e' (List.mem_append_left _ he')) hle
    · intro e he e' he'
      exact hstamped₁.before (hmem e (List.mem_append_left _ he))
        (hmem e' (List.mem_append_right _ he')) (hspec.oldest e he e' he')

/-! ### Calls -/

variable {U : Upstream} {g : Guest} {host : Host} {call : Call} {source : Source}
  {texture : GxTexture}

theorem makeTexture_eq_ok {t : Gx.TexObj}
    (hmake : makeTexture A U g host t source = .ok texture) :
    ∃ layout rgba, TextureLayout.make A t.width t.height (t.mipCount A) = .ok layout ∧
      convert A U g t layout source = .ok (rgba, texture.hasArbitraryMips) ∧
      GpuTexture.make A host.kernel layout.width layout.height layout.count rgba =
        .ok texture.gpu := by
  rw [makeTexture, Loop.bind_eq_ok] at hmake
  obtain ⟨layout, hlayout, hmake⟩ := hmake
  rw [Loop.bind_eq_ok] at hmake
  obtain ⟨⟨rgba, arbitrary⟩, hconvert, hmake⟩ := hmake
  dsimp only at hmake
  rw [Loop.bind_eq_ok] at hmake
  obtain ⟨gpu, hgpu, hmake⟩ := hmake
  obtain rfl := Except.ok.inj hmake
  exact ⟨layout, rgba, hlayout, hconvert, hgpu⟩

/-- The digests of a call change the memo and the statistics only. -/
structure SameEntries (c c' : GxTextureCache) : Prop where
  entries : c'.entries = c.entries
  used : c'.used = c.used
  clock : c'.clock = c.clock
  budget : c'.budget = c.budget

theorem sourceDigest_same (U : Upstream) (g : Guest) (c : GxTextureCache) (bytes : Span)
    (memoize : Bool) : c.SameEntries (sourceDigest U g c bytes memoize).2 := by
  simp only [sourceDigest]
  split_ifs <;> exact ⟨rfl, rfl, rfl, rfl⟩

theorem SameEntries.trans {c₁ c₂ c₃ : GxTextureCache} (h : c₁.SameEntries c₂)
    (h' : c₂.SameEntries c₃) : c₁.SameEntries c₃ where
  entries := h'.entries.trans h.entries
  used := h'.used.trans h.used
  clock := h'.clock.trans h.clock
  budget := h'.budget.trans h.budget

theorem key_same (A : Arithmetic) (U : Upstream) (g : Guest) (c : GxTextureCache) (t : Gx.TexObj)
    (source : Source) : c.SameEntries (key A U g c t source).2 := by
  rw [key]
  cases source.palette with
  | none => exact sourceDigest_same ..
  | some palette => exact (sourceDigest_same ..).trans (sourceDigest_same ..)

/-- What a call of `resolve` comes to. -/
inductive Resolves (A : Arithmetic) (U : Upstream) (g : Guest) (host : Host) (c : GxTextureCache)
    (call : Call) : Except Failure Resolved × GxTextureCache → Prop
  | refused (what : String) (hcheck : checkSource A U call = .error what) :
      Resolves A U g host c call (.error (.thrown what), c)
  | hit (source : Source) (k : Key) (c₁ : GxTextureCache) (e : Entry)
      (hcheck : checkSource A U call = .ok source)
      (hkey : key A U g c call.texture source = (k, c₁)) (he : e ∈ c.entries) (hk : e.key = k) :
      Resolves A U g host c call (.ok ⟨e.texture, some k, []⟩, c₁.hit k)
  | failed (source : Source) (k : Key) (c₁ : GxTextureCache) (what : String)
      (hcheck : checkSource A U call = .ok source)
      (hkey : key A U g c call.texture source = (k, c₁))
      (hmake : makeTexture A U g host call.texture source = .error what) :
      Resolves A U g host c call (.error (.thrown what), c₁)
  | transient (source : Source) (k : Key) (c₁ : GxTextureCache) (texture : GxTexture)
      (hcheck : checkSource A U call = .ok source)
      (hkey : key A U g c call.texture source = (k, c₁))
      (hmake : makeTexture A U g host call.texture source = .ok texture) :
      Resolves A U g host c call (.ok ⟨texture, none, []⟩,
        { c₁ with uploads := (c₁.uploads + 1) % 2 ^ 64 })
  | kept (source : Source) (k : Key) (c₁ : GxTextureCache) (texture : GxTexture)
      (hcheck : checkSource A U call = .ok source)
      (hkey : key A U g c call.texture source = (k, c₁))
      (hmake : makeTexture A U g host call.texture source = .ok texture)
      (hnew : ∀ e ∈ c.entries, e.key ≠ k) (hfits : texture.gpu.layout.bytes ≤ c.budget) :
      Resolves A U g host c call
        (insert A { c₁ with uploads := (c₁.uploads + 1) % 2 ^ 64 } host.order k texture)

theorem resolves (A : Arithmetic) (U : Upstream) (g : Guest) (host : Host) (c : GxTextureCache)
    (call : Call) : Resolves A U g host c call (resolve A U g host c call) := by
  rw [resolve]
  cases hcheck : checkSource A U call with
  | error what => exact .refused what hcheck
  | ok source =>
    obtain ⟨k, c₁, hkey⟩ : ∃ k c₁, key A U g c call.texture source = (k, c₁) := ⟨_, _, rfl⟩
    have hsame := key_same A U g c call.texture source
    rw [hkey] at hsame
    simp only [hkey]
    cases hfind : (if cacheable call.texture source then c₁.entries.find? (·.key == k)
      else none) with
    | some e =>
      have hfind' : c₁.entries.find? (·.key == k) = some e := by
        split_ifs at hfind
        exact hfind
      rw [hsame.entries] at hfind'
      exact .hit source k c₁ e hcheck hkey (List.mem_of_find?_eq_some hfind')
        (by simpa using List.find?_some hfind')
    | none =>
      simp only [upload]
      cases hmake : makeTexture A U g host call.texture source with
      | error what => exact .failed source k c₁ what hcheck hkey hmake
      | ok texture =>
        dsimp only
        split_ifs with hkeep
        · rw [if_pos hkeep.1, hsame.entries, List.find?_eq_none] at hfind
          exact .kept source k c₁ texture hcheck hkey hmake
            (fun e he => by simpa using hfind e he) (hsame.budget ▸ hkeep.2)
        · exact .transient source k c₁ texture hcheck hkey hmake

end Gpu.GxTextureCache
