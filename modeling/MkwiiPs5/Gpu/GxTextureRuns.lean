import MkwiiPs5.Gpu.GxTextureBudget

/-!
# Runs of the texture cache

Calls of `resolve` and `clear` in any order, with writes of the guest between them.
-/

namespace Gpu.GxTextureCache

/-- The cache and the guest, with what a reader of the run knows of its past: the states the guest
was in, the contents that were hashed and the uses of the entries. -/
structure System where
  cache : GxTextureCache
  guest : Guest
  past : List Guest
  contents : List (List UInt8)
  recency : Recency

def System.start (budget : ℕ) (guest : Guest) : System where
  cache := GxTextureCache.start budget
  guest := guest
  past := []
  contents := []
  recency := .start

variable (A : Arithmetic) (U : Upstream)

/-- The contents that a call hashes. -/
def callContents (g : Guest) (call : Call) : List (List UInt8) :=
  match checkSource A U call with
  | .error _ => []
  | .ok source => contents g source.texels :: source.palette.toList.map (contents g ·.2)

/-- The key that a call used. -/
def usedKey : Except Failure Resolved → Option Key
  | .error _ => none
  | .ok result => result.used

/-- The recency after a call that went from a state of the cache to another. -/
def Recency.after (r : Recency) (c : GxTextureCache)
    (outcome : Except Failure Resolved × GxTextureCache) : Recency :=
  r.next (usedKey outcome.1) (decide (outcome.2.clock < c.clock))

def System.resolve (s : System) (host : Host) (call : Call) : System :=
  let outcome := GxTextureCache.resolve A U s.guest host s.cache call
  { s with
    cache := outcome.2
    contents := callContents A U s.guest call ++ s.contents
    recency := s.recency.after s.cache outcome }

/-- A turn; `W` says which writes the guest may do. -/
inductive Step (W : List Guest → Guest → Guest → Prop) : System → System → Prop
  | write (s : System) (next : Guest) (h : W s.past s.guest next) :
      Step W s { s with guest := next, past := s.guest :: s.past }
  | clear (s : System) : Step W s { s with cache := s.cache.clear }
  | resolve (s : System) (host : Host) (call : Call)
      (h : Lawful host.kernel s.cache.entries) : Step W s (s.resolve A U host call)

inductive Run (W : List Guest → Guest → Guest → Prop) (budget : ℕ) : System → Prop
  | start (guest : Guest) : Run W budget (.start budget guest)
  | step {s s' : System} (hrun : Run W budget s) (hstep : Step A U W s s') : Run W budget s'

/-! ### Usage and recency along a run -/

/-- What a call must leave. A call that used an entry keeps it, the entries that are gone are those
it evicted, and each of these was used before the ones then present. A call that throws leaves the
entries. -/
def Orderly (c : GxTextureCache) (r : Recency) :
    Except Failure Resolved × GxTextureCache → Prop
  | (.error .undefined, _) => False
  | (.error (.thrown _), c') => c'.entries = c.entries ∧ c'.used = c.used
  | (.ok result, c') =>
    (∀ k, result.used = some k → (∃ e ∈ c'.entries, e.key = k) ∧ ∀ e ∈ result.evicted, e.key ≠ k) ∧
    (∀ e ∈ c.entries, ∃ e' ∈ result.evicted ++ c'.entries, e'.key = e.key) ∧
    result.evicted.Pairwise (fun e e' => (r.after c (.ok result, c')).Before e.key e'.key) ∧
    ∀ e ∈ result.evicted, ∀ e' ∈ c'.entries, (r.after c (.ok result, c')).Before e.key e'.key

structure Valid (budget : ℕ) (c : GxTextureCache) (r : Recency) : Prop where
  accounted : c.Accounted
  within : c.used ≤ budget
  budget : c.budget = budget
  stamped : c.Stamped r

variable {A U} {budget : ℕ} {c c' : GxTextureCache} {r : Recency} {g : Guest} {host : Host}
  {call : Call}

theorem Valid.same (h : Valid budget c r) (hsame : c.SameEntries c') : Valid budget c' r where
  accounted := h.accounted.congr hsame.entries hsame.used
  within := hsame.used ▸ h.within
  budget := hsame.budget.trans h.budget
  stamped := h.stamped.congr (fun _ he => hsame.entries ▸ he) hsame.clock

theorem valid_start (budget : ℕ) : Valid budget (start budget) .start where
  accounted := ⟨List.nodup_nil, List.Pairwise.nil, nofun, rfl⟩
  within := Nat.zero_le _
  budget := rfl
  stamped := ⟨rfl, Nat.two_pow_pos 64, fun _ => rfl, nofun, nofun⟩

theorem Valid.clear (h : Valid budget c r) : Valid budget c.clear r where
  accounted := ⟨List.nodup_nil, List.Pairwise.nil, nofun, rfl⟩
  within := Nat.zero_le _
  budget := h.budget
  stamped := h.stamped.congr nofun rfl

theorem Valid.hit (h : Valid budget c r) (k : Key) : Valid budget (c.hit k) (r.use c k) where
  accounted := h.accounted.hit k
  within := by
    have hused : (c.hit k).used = c.used := (nextStamp_frame c).1
    exact hused ▸ h.within
  budget := (nextStamp_frame c).2.1.trans h.budget
  stamped := h.stamped.hit k

/-- A call that keeps a new texture. -/
theorem kept_spec (h : Valid budget c r) (hlawful : Lawful host.kernel c.entries)
    {source : Source} {c₁ : GxTextureCache} (hsame : c.SameEntries c₁) {texture : GxTexture}
    (hmake : makeTexture A U g host call.texture source = .ok texture) {k : Key}
    (hnew : ∀ e ∈ c.entries, e.key ≠ k) (hfits : texture.gpu.layout.bytes ≤ c.budget) :
    ∃ result c', insert A { c₁ with uploads := (c₁.uploads + 1) % 2 ^ 64 } host.order k texture =
        (.ok result, c') ∧
      Inserts { c₁ with uploads := (c₁.uploads + 1) % 2 ^ 64 } r k texture result c' := by
  have hsame' : c.SameEntries { c₁ with uploads := (c₁.uploads + 1) % 2 ^ 64 } :=
    ⟨hsame.entries, hsame.used, hsame.clock, hsame.budget⟩
  obtain ⟨layout, rgba, _, _, hgpu⟩ := makeTexture_eq_ok hmake
  obtain ⟨_, _, hpool, hmap, _⟩ := GpuTexture.make_eq_ok hgpu
  obtain ⟨hle, hapart⟩ := hlawful _ _ hmap
  have h₁ := h.same hsame'
  exact insert_spec h₁.accounted h₁.stamped (hsame'.entries ▸ hnew) (hsame'.entries ▸ hapart)
    (by omega) (hsame'.budget ▸ hfits) host.order_perm

/-- One call. -/
theorem Valid.resolve (h : Valid budget c r) (hlawful : Lawful host.kernel c.entries)
    {outcome : Except Failure Resolved × GxTextureCache}
    (hresolves : Resolves A U g host c call outcome) :
    Valid budget outcome.2 (r.after c outcome) ∧ Orderly c r outcome := by
  cases hresolves with
  | refused what => exact ⟨h, rfl, rfl⟩
  -- what was looked up before the failure changes the memo of digests only
  | failed source k c₁ what _ hkey _ =>
    have hsame := key_same A U g c call.texture source
    rw [hkey] at hsame
    exact ⟨h.same hsame, hsame.entries, hsame.used⟩
  | hit source k c₁ e _ hkey he hk =>
    have hsame := key_same A U g c call.texture source
    rw [hkey] at hsame
    have hafter : r.after c (.ok ⟨e.texture, some k, []⟩, c₁.hit k) = r.use c₁ k := by
      rw [Recency.after, Recency.use, hsame.clock]
      rfl
    have hkeys : (c₁.hit k).entries.map Entry.key = c.entries.map Entry.key := by
      rw [hit_keys, hsame.entries]
    have hpresent : ∀ e ∈ c.entries, ∃ e' ∈ (c₁.hit k).entries, e'.key = e.key := by
      intro e he
      exact List.mem_map.mp (hkeys ▸ List.mem_map_of_mem he)
    -- a hit evicts nothing, so that the order of evictions says nothing
    refine ⟨hafter ▸ (h.same hsame).hit k, ?_, hpresent, List.Pairwise.nil, fun _ h => by cases h⟩
    intro k' hk'
    obtain rfl := Option.some.inj hk'
    exact ⟨hk ▸ hpresent e he, fun _ h => by cases h⟩
  | transient source k c₁ texture _ hkey _ =>
    have hsame := key_same A U g c call.texture source
    rw [hkey] at hsame
    have hsame' : c.SameEntries { c₁ with uploads := (c₁.uploads + 1) % 2 ^ 64 } :=
      ⟨hsame.entries, hsame.used, hsame.clock, hsame.budget⟩
    refine ⟨h.same hsame', fun _ hused => (by cases hused), ?_, List.Pairwise.nil,
      fun _ hevicted => (by cases hevicted)⟩
    -- a texture that is not kept leaves the entries as they were
    intro e he
    exact ⟨e, hsame'.entries ▸ he, rfl⟩
  | kept source k c₁ texture _ hkey hmake hnew hfits =>
    have hsame := key_same A U g c call.texture source
    rw [hkey] at hsame
    obtain ⟨result, c', hinsert, hspec⟩ := kept_spec h hlawful hsame hmake hnew hfits
    have hbudget : c'.budget = budget := hspec.budget.trans (hsame.budget.trans h.budget)
    have hafter : r.after c (.ok result, c') =
        r.use { c₁ with uploads := (c₁.uploads + 1) % 2 ^ 64 } k := by
      rw [Recency.after, Recency.use, usedKey, hspec.used, ← hsame.clock, hspec.wraps]
    rw [hinsert]
    refine ⟨⟨hspec.accounted, hbudget ▸ hspec.within, hbudget, hafter ▸ hspec.stamped⟩, ?_, ?_,
      ?_, ?_⟩
    · intro k' hk'
      obtain rfl : k = k' := Option.some.inj (hspec.used.symm.trans hk')
      exact ⟨hspec.kept, hspec.new_kept⟩
    · exact hsame.entries ▸ hspec.present
    · exact hafter ▸ hspec.ordered
    · exact hafter ▸ hspec.oldest

/-- A call whose arguments are valid returns when its upload succeeds. -/
theorem Valid.resolve_ok (h : Valid budget c r) (hlawful : Lawful host.kernel c.entries)
    {source : Source} {texture : GxTexture} (hcheck : checkSource A U call = .ok source)
    (hmake : makeTexture A U g host call.texture source = .ok texture) :
    ∃ result c', GxTextureCache.resolve A U g host c call = (.ok result, c') := by
  have hresolves := resolves A U g host c call
  generalize GxTextureCache.resolve A U g host c call = outcome at hresolves
  cases hresolves with
  | refused what hcheck' => exact absurd (hcheck.symm.trans hcheck') nofun
  | failed source' k c₁ what hcheck' hkey hmake' =>
    obtain rfl := Except.ok.inj (hcheck.symm.trans hcheck')
    exact absurd (hmake.symm.trans hmake') nofun
  | hit source' k c₁ e hcheck' hkey he hk => exact ⟨_, _, rfl⟩
  | transient source' k c₁ texture' hcheck' hkey hmake' => exact ⟨_, _, rfl⟩
  | kept source' k c₁ texture' hcheck' hkey hmake' hnew hfits =>
    have hsame := key_same A U g c call.texture source'
    rw [hkey] at hsame
    obtain ⟨result, c', hinsert, _⟩ := kept_spec h hlawful hsame hmake' hnew hfits
    exact ⟨result, c', hinsert⟩

theorem Run.valid {W : List Guest → Guest → Guest → Prop} {s : System}
    (h : Run A U W budget s) : Valid budget s.cache s.recency := by
  induction h with
  | start guest => exact valid_start budget
  | step _ hstep ih =>
    cases hstep with
    | write next _ => exact ih
    | clear => exact ih.clear
    | resolve host call hlawful => exact (ih.resolve hlawful (resolves ..)).1

/-- In every state of a run the usage is that of the entries and within the budget; a call of
`resolve` ends, and it keeps the order of the evictions and, when it throws, the entries. -/
theorem texture_cache_budget {W : List Guest → Guest → Guest → Prop} {s : System}
    (h : Run A U W budget s) :
    (s.cache.used = bytes s.cache.entries ∧ s.cache.used ≤ budget) ∧
    ∀ host call, Lawful host.kernel s.cache.entries →
      Orderly s.cache s.recency (resolve A U s.guest host s.cache call) :=
  ⟨⟨h.valid.accounted.used, h.valid.within⟩,
    fun _ _ hlawful => (h.valid.resolve hlawful (resolves ..)).2⟩

/-- An emulator whose textures are all in the format of the host. -/
def plainUpstream : Upstream where
  formats := ⟨0, 1, 2, 3, 4, 5, 6, 14, 8, 9, 10, 17, 19, 22, 32, 38, 0, 1, 2⟩
  untracked := 0
  hash b := b.foldl (fun h x => h * 257 + x.toNat + 1) 0
  texBufferSize w h _ _ _ := w * h * 4
  convertTexture _ _ _ _ _ := .error "not converted"
  convertTexturePalette _ _ _ _ _ _ _ _ := .error "not converted"
  hasArbitraryMipsDefault := false

/-- A texture of one texel. -/
def plainCall : Call where
  texture := ⟨0, 0, 0, 0, 4096, 1, 1, 38, 0, 0, 0, 0⟩
  bytes := ⟨4096, 4⟩
  palette := none
  paletteBytes := ⟨0, 0⟩
  numEntries_lt := nofun

def plainHost : Host where
  kernel := ⟨2 ^ 32, fun n => if n ≤ 2 ^ 32 then .ok 0 else .error "GPU texture allocation failed"⟩
  order l := l
  order_perm := List.Perm.refl

theorem plainHost_lawful : Lawful plainHost.kernel [] := by
  intro n p hmap
  dsimp only [plainHost] at hmap
  split_ifs at hmap with hle
  obtain rfl := Except.ok.inj hmap
  exact ⟨(Nat.zero_add n).symm ▸ hle, nofun⟩

/-- A memory full of a byte, tracked with that byte as its generation. -/
def plainGuest (x : UInt8) : Guest := ⟨fun _ => x, some fun _ _ => x.toNat⟩

/-- After a call in a new cache. -/
def plainSystem (budget : ℕ) : System :=
  (System.start budget (plainGuest 1)).resolve .modular plainUpstream plainHost plainCall

theorem plainSystem_run (W : List Guest → Guest → Guest → Prop) (budget : ℕ) :
    Run .modular plainUpstream W budget (plainSystem budget) :=
  .step (.start _) (.resolve _ plainHost plainCall plainHost_lawful)

theorem texture_cache_budget_plain :
    ((plainSystem 65536).cache.used = bytes (plainSystem 65536).cache.entries ∧
      (plainSystem 65536).cache.used ≤ 65536) ∧
    ∀ host call, Lawful host.kernel (plainSystem 65536).cache.entries →
      Orderly (plainSystem 65536).cache (plainSystem 65536).recency
        (resolve .modular plainUpstream (plainSystem 65536).guest host (plainSystem 65536).cache
          call) :=
  texture_cache_budget (plainSystem_run (fun _ _ _ => True) 65536)

end Gpu.GxTextureCache
