import Mathlib.Algebra.BigOperators.Group.List.Lemmas
import MkwiiPs5.Gpu.GxTextureCache

/-!
# The pool of copy targets

`GxTextureCopyBackend::pooled_target`: copy destinations that nothing references any more are used
again. The callers keep their references and drop them as they like.
-/

namespace Gpu.GxTextureCopyBackend

/-- `GpuColorTarget`, told from others by its number. -/
structure GpuColorTarget where
  number : ℕ
  layout : TextureLayout
  physical : ℕ
  allocated : ℕ

/-- The alignment of a target, and `~(alignment - 1)`. -/
def alignment : ℕ := 2 * 1024 * 1024
def alignmentMask : ℕ := 0xffffffffffe00000

def kPoolBytes : ℕ := 256 * 2 ^ 20

variable (A : Arithmetic)

/-- The constructor. -/
def GpuColorTarget.make (kernel : Kernel) (number w h : ℕ) : Except String GpuColorTarget := do
  let layout ← TextureLayout.make A w h 1
  let allocated := A.u64 (A.u64 (layout.bytes + alignment) - 1) &&& alignmentMask
  if kernel.pool > 2 ^ 63 - 1 ∨ allocated > kernel.pool then
    .error "Insufficient direct memory for color target"
  else
    let physical ← kernel.map allocated
    pure ⟨number, layout, physical, allocated⟩

/-- The backend, how many targets were made, and how many owners outside the pool each has. -/
structure World where
  pool : List GpuColorTarget
  poolBytes : ℕ
  made : ℕ
  owners : ℕ → ℕ

namespace World

variable (w : World)

/-- `use_count` of a target that the pool holds. -/
def useCount (target : GpuColorTarget) : ℕ :=
  w.pool.countP (·.number == target.number) + w.owners target.number

/-- Nothing but the pool holds the target. -/
def unused (target : GpuColorTarget) : Bool := w.useCount target == 1

/-- The caller gets a reference. -/
def give (target : GpuColorTarget) : World :=
  { w with owners := Function.update w.owners target.number (w.owners target.number + 1) }

/-- A target that is used again as it is. -/
def reusable (width height : ℕ) : Option GpuColorTarget :=
  w.pool.find? fun c => w.unused c && (c.layout.width == width && c.layout.height == height)

/-- Puts a target that was made into the pool, if it gets a place there. -/
def keep (created : GpuColorTarget) : World :=
  let w := { w with made := w.made + 1 }
  if A.u64 (w.poolBytes + created.allocated) > kPoolBytes then
    match KeyedList.replaceFirst w.unused created w.pool with
    | some (candidate, pool) =>
      { w with
        poolBytes := A.u64 (A.u64 (w.poolBytes - candidate.allocated) + created.allocated)
        pool := pool }
    | none => w
  else
    { w with
      pool := w.pool ++ [created]
      poolBytes := A.u64 (w.poolBytes + created.allocated) }

/-- `pooled_target`. -/
def pooledTarget (kernel : Kernel) (width height : ℕ) : Except String GpuColorTarget × World :=
  match w.reusable width height with
  | some candidate => (.ok candidate, w.give candidate)
  | none =>
    match GpuColorTarget.make A kernel w.made width height with
    | .error text => (.error text, w)
    | .ok created => (.ok created, (w.keep A created).give created)

end World

/-- A call of `pooled_target`, and what callers do with the references that they have. -/
inductive Step
  | request (kernel : Kernel) (width height : ℕ)
  | copy (number : ℕ)
  | drop (number : ℕ)

/-- Without a reference there is nothing to copy or to drop. -/
def step (w : World) : Step → World
  | .request kernel width height => (w.pooledTarget A kernel width height).2
  | .copy number =>
    if w.owners number = 0 then w
    else { w with owners := Function.update w.owners number (w.owners number + 1) }
  | .drop number => { w with owners := Function.update w.owners number (w.owners number - 1) }

def start : World := ⟨[], 0, 0, fun _ => 0⟩

def run (steps : List Step) : World := steps.foldl (step A) start

/-- A target that takes the place of an unused one does not overfill the pool. -/
def HasRoom (w : World) : Step → Prop
  | .request kernel width height =>
    w.reusable width height = none →
      ∀ created, GpuColorTarget.make A kernel w.made width height = .ok created →
        kPoolBytes < w.poolBytes + created.allocated →
          ∀ candidate, w.pool.find? w.unused = some candidate →
            w.poolBytes + created.allocated ≤ kPoolBytes + candidate.allocated
  | .copy _ => True
  | .drop _ => True

/-! ### The accounts -/

variable {A}

/-- Between 2 MiB and 1 GiB, so that no sum of at most 128 sizes wraps. -/
structure Sized (target : GpuColorTarget) : Prop where
  alignment_le : alignment ≤ target.allocated
  le : target.allocated ≤ 2 ^ 30

/-- One level is never in the tail block. -/
theorem layout_bytes {w h : ℕ} {L : TextureLayout} (hmake : TextureLayout.make A w h 1 = .ok L) :
    L.width = w ∧ L.height = h ∧ 0 < L.bytes ∧ L.bytes ≤ 2 ^ 30 := by
  obtain ⟨_, hwidth, hheight, hcount, first, hshape⟩ := TextureLayout.make_shape hmake
  have hfirst : first = 1 := by
    have hle := hshape.first_le
    by_contra hne
    have hfits := (hshape.fits (by omega)).1
    omega
  have hbytes := hshape.bytes
  rw [hfirst, hcount, TextureLayout.tailBytes, if_neg (lt_irrefl 1), Finset.sum_range_one,
    Nat.zero_add] at hbytes
  have hle := TextureLayout.levelBytes_le (m := 0) hshape.width_le hshape.height_le
  have hpos (n : ℕ) : 0 < TextureLayout.pad (TextureLayout.ceil n 0) := by
    have : 1 ≤ TextureLayout.ceil n 0 := le_max_left 1 _
    rw [TextureLayout.pad]
    omega
  refine ⟨hwidth, hheight, ?_, hbytes ▸ hle⟩
  rw [hbytes, TextureLayout.levelBytes]
  exact Nat.mul_pos (Nat.mul_pos (hpos w) (hpos h)) (by decide)

theorem make_eq_ok {kernel : Kernel} {number w h : ℕ} {created : GpuColorTarget}
    (hmake : GpuColorTarget.make A kernel number w h = .ok created) :
    created.number = number ∧ created.layout.width = w ∧ created.layout.height = h ∧
      Sized created := by
  rw [GpuColorTarget.make, Loop.bind_eq_ok] at hmake
  obtain ⟨layout, hlayout, hmake⟩ := hmake
  dsimp only at hmake
  split at hmake
  · exact absurd hmake nofun
  rw [Loop.bind_eq_ok] at hmake
  obtain ⟨physical, _, hmake⟩ := hmake
  obtain rfl := Except.ok.inj hmake
  obtain ⟨hwidth, hheight, hpos, hle⟩ := layout_bytes hlayout
  have hmask : alignmentMask = (2 ^ 43 - 1) <<< 21 := rfl
  have halignment : alignment = 2 ^ 21 := rfl
  have hsum : A.u64 ((layout.bytes + alignment : ℕ) - 1) = layout.bytes + (2 ^ 21 - 1) :=
    A.u64_eq (by omega) (by omega)
  have hround : A.u64 (A.u64 (layout.bytes + alignment) - 1) &&& alignmentMask =
      (layout.bytes + (2 ^ 21 - 1)) / 2 ^ 21 * 2 ^ 21 := by
    rw [A.u64_add (by omega), hsum, hmask, Arithmetic.and_highBits (by omega)]
  refine ⟨rfl, hwidth, hheight, ?_, ?_⟩
  · dsimp only
    rw [hround]
    omega
  · dsimp only
    rw [hround]
    omega

/-- The byte counter is the sum of the sizes, and each target in the pool stands there once. -/
structure Inv (w : World) : Prop where
  nodup : (w.pool.map (·.number)).Nodup
  made : ∀ c ∈ w.pool, c.number < w.made
  fresh : ∀ number, w.made ≤ number → w.owners number = 0
  sized : ∀ c ∈ w.pool, Sized c
  bytes : w.poolBytes = (w.pool.map (·.allocated)).sum
  few : w.pool.length ≤ 128

theorem inv_start : Inv start where
  nodup := List.nodup_nil
  made _ h := absurd h List.not_mem_nil
  fresh _ _ := rfl
  sized _ h := absurd h List.not_mem_nil
  bytes := rfl
  few := by decide

namespace World

variable {w w' : World} {created candidate : GpuColorTarget}

/-- What becomes of a target that was made. -/
inductive Kept (w : World) (created : GpuColorTarget) : World → Prop
  | added (hroom : w.poolBytes + created.allocated ≤ kPoolBytes) :
    Kept w created { w with
      made := w.made + 1
      pool := w.pool ++ [created]
      poolBytes := w.poolBytes + created.allocated }
  | replaced {before after : List GpuColorTarget} {candidate : GpuColorTarget}
    (hfull : kPoolBytes < w.poolBytes + created.allocated)
    (hpool : w.pool = before ++ candidate :: after)
    (hfind : w.pool.find? w.unused = some candidate) :
    Kept w created { w with
      made := w.made + 1
      pool := before ++ created :: after
      poolBytes := w.poolBytes - candidate.allocated + created.allocated }
  | unpooled (hfind : w.pool.find? w.unused = none) : Kept w created { w with made := w.made + 1 }

theorem sum_split (before after : List GpuColorTarget) (c : GpuColorTarget) :
    ((before ++ c :: after).map (·.allocated)).sum =
      c.allocated + ((before ++ after).map (·.allocated)).sum :=
  (List.perm_middle.map _).sum_eq

/-- No sum wraps. -/
theorem poolBytes_le (h : Inv w) : w.poolBytes ≤ 2 ^ 37 := by
  have hsum := List.sum_le_card_nsmul (w.pool.map (·.allocated)) (2 ^ 30) fun n hn => by
    obtain ⟨c, hc, rfl⟩ := List.mem_map.mp hn
    exact (h.sized c hc).le
  have hfew := Nat.mul_le_mul_right (2 ^ 30) h.few
  rw [List.length_map, Nat.nsmul_eq_mul] at hsum
  rw [h.bytes]
  omega

theorem length_mul_le (h : Inv w) : w.pool.length * alignment ≤ w.poolBytes := by
  have hsum := List.card_nsmul_le_sum (w.pool.map (·.allocated)) alignment fun n hn => by
    obtain ⟨c, hc, rfl⟩ := List.mem_map.mp hn
    exact (h.sized c hc).alignment_le
  rw [List.length_map, Nat.nsmul_eq_mul] at hsum
  rwa [h.bytes]

theorem allocated_le (h : Inv w) {c : GpuColorTarget} (hc : c ∈ w.pool) :
    c.allocated ≤ w.poolBytes := by
  rw [h.bytes]
  exact List.single_le_sum (fun _ _ => Nat.zero_le _) _ (List.mem_map_of_mem hc)

theorem keep_kept (h : Inv w) (hsize : Sized created) : Kept w created (w.keep A created) := by
  have hbound := poolBytes_le h
  have hle := hsize.le
  rw [keep]
  dsimp only
  rw [A.u64_add (by omega)]
  split
  next hfull =>
    have hfind := KeyedList.map_fst_replaceFirst w.unused created w.pool
    split
    next candidate pool hreplace =>
      rw [show World.unused { w with made := w.made + 1 } = w.unused from rfl] at hreplace
      obtain ⟨before, after, hpool, rfl⟩ := KeyedList.replaceFirst_eq_some hreplace
      rw [hreplace] at hfind
      have hmem : candidate ∈ w.pool := hpool ▸ List.mem_append_right before List.mem_cons_self
      have hcandidate := allocated_le h hmem
      have hsub : A.u64 ((w.poolBytes : ℤ) - candidate.allocated) =
          w.poolBytes - candidate.allocated := A.u64_eq (by omega) (by omega)
      rw [hsub, A.u64_add (by omega)]
      exact Kept.replaced hfull hpool hfind.symm
    next hreplace =>
      rw [show World.unused { w with made := w.made + 1 } = w.unused from rfl] at hreplace
      rw [hreplace] at hfind
      exact Kept.unpooled hfind.symm
  next hroom => exact Kept.added (not_lt.mp hroom)

/-- The targets that a pool holds after one was made. -/
theorem Kept.mem (h : Kept w created w') {c : GpuColorTarget} (hc : c ∈ w'.pool) :
    c ∈ w.pool ∨ c = created := by
  cases h with
  | added hroom =>
    rcases List.mem_append.mp hc with hc | hc
    · exact Or.inl hc
    · exact Or.inr (List.mem_singleton.mp hc)
  | replaced hfull hpool hfind =>
    rw [hpool, List.mem_append, List.mem_cons]
    rcases List.mem_append.mp hc with hc | hc
    · exact Or.inl (Or.inl hc)
    rcases List.mem_cons.mp hc with rfl | hc
    · exact Or.inr rfl
    · exact Or.inl (Or.inr (Or.inr hc))
  | unpooled hfind => exact Or.inl hc

theorem Kept.made_owners (h : Kept w created w') :
    w'.made = w.made + 1 ∧ w'.owners = w.owners := by
  cases h with
  | added hroom => exact ⟨rfl, rfl⟩
  | replaced hfull hpool hfind => exact ⟨rfl, rfl⟩
  | unpooled hfind => exact ⟨rfl, rfl⟩

theorem Kept.inv (h : Kept w created w') (hw : Inv w) (hnumber : created.number = w.made)
    (hsize : Sized created) : Inv w' := by
  -- numbers are given out in order, so that the new target is not in the pool
  have hnew : created.number ∉ w.pool.map (·.number) := by
    intro hmem
    obtain ⟨c, hc, heq⟩ := List.mem_map.mp hmem
    have := hw.made c hc
    omega
  have hmade := h.made_owners
  have hnumbers : ∀ c ∈ w'.pool, c.number < w'.made := by
    intro c hc
    rw [hmade.1]
    rcases h.mem hc with hc | rfl
    · exact (hw.made c hc).trans (Nat.lt_succ_self _)
    · omega
  have hfresh : ∀ number, w'.made ≤ number → w'.owners number = 0 := by
    intro number hle
    rw [hmade.2]
    exact hw.fresh number (by omega)
  have hsized : ∀ c ∈ w'.pool, Sized c := by
    intro c hc
    rcases h.mem hc with hc | rfl
    · exact hw.sized c hc
    · exact hsize
  cases h with
  | added hroom =>
    refine ⟨?_, hnumbers, hfresh, hsized, ?_, ?_⟩
    · rw [List.map_append, List.nodup_append_comm]
      exact List.nodup_cons.mpr ⟨hnew, hw.nodup⟩
    · rw [List.map_append, List.sum_append, hw.bytes]
      rfl
    · -- all of them fit into 256 MiB
      have hlength := length_mul_le hw
      have halign := hsize.alignment_le
      have hk : kPoolBytes = 128 * alignment := rfl
      have hpos : 0 < alignment := by decide
      rw [List.length_append, List.length_singleton]
      refine Nat.le_of_mul_le_mul_right ?_ hpos
      rw [Nat.succ_mul]
      omega
  | @replaced before after candidate hfull hpool hfind =>
    -- the pool keeps its length: the new target takes the place of one that nothing holds
    have hnodup := hw.nodup
    have hbytes := hw.bytes
    have hfew := hw.few
    rw [hpool] at hnodup hbytes hfew hnew
    rw [(List.perm_middle.map _).nodup_iff, List.map_cons, List.nodup_cons] at hnodup
    rw [(List.perm_middle.map _).mem_iff, List.map_cons, List.mem_cons, not_or] at hnew
    refine ⟨?_, hnumbers, hfresh, hsized, ?_, ?_⟩
    · dsimp only
      rw [(List.perm_middle.map _).nodup_iff, List.map_cons, List.nodup_cons]
      exact ⟨hnew.2, hnodup.2⟩
    · dsimp only
      rw [sum_split] at hbytes ⊢
      omega
    · simpa using hfew
  | unpooled hfind => exact ⟨hw.nodup, hnumbers, hfresh, hsized, hw.bytes, hw.few⟩

theorem Kept.poolBytes_le_iff (h : Kept w created w') (hw : Inv w) (hle : w.poolBytes ≤ kPoolBytes) :
    w'.poolBytes ≤ kPoolBytes ↔
      (kPoolBytes < w.poolBytes + created.allocated →
        ∀ candidate, w.pool.find? w.unused = some candidate →
          w.poolBytes + created.allocated ≤ kPoolBytes + candidate.allocated) := by
  cases h with
  | added hroom => exact ⟨fun _ hfull => absurd hroom (not_le.mpr hfull), fun _ => hroom⟩
  | @replaced before after candidate hfull hpool hfind =>
    have hmem : candidate ∈ w.pool := hpool ▸ List.mem_append_right before List.mem_cons_self
    have hcandidate := allocated_le hw hmem
    dsimp only
    constructor
    · intro hnew _ candidate' hfind'
      obtain rfl := Option.some.inj (hfind.symm.trans hfind')
      omega
    · intro hroom
      have := hroom hfull candidate hfind
      omega
  | unpooled hfind =>
    exact ⟨fun _ _ candidate hfind' => absurd (hfind.symm.trans hfind') nofun, fun _ => hle⟩

/-- A target that is unused has no owner but the pool. -/
theorem owners_eq_zero {target : GpuColorTarget} (hmem : target ∈ w.pool)
    (hunused : w.unused target = true) : w.owners target.number = 0 := by
  have hcount : 0 < w.pool.countP (·.number == target.number) :=
    List.countP_pos_iff.mpr ⟨target, hmem, beq_self_eq_true _⟩
  have huse : w.useCount target = 1 := by simpa [unused] using hunused
  rw [useCount] at huse
  omega

theorem reusable_eq_some {width height : ℕ} {target : GpuColorTarget}
    (h : w.reusable width height = some target) :
    target ∈ w.pool ∧ w.owners target.number = 0 ∧ target.layout.width = width ∧
      target.layout.height = height := by
  have hmem := List.mem_of_find?_eq_some h
  have htarget := List.find?_some h
  simp only [Bool.and_eq_true, beq_iff_eq] at htarget
  exact ⟨hmem, owners_eq_zero hmem htarget.1, htarget.2⟩

theorem give_inv (hw : Inv w) {target : GpuColorTarget} (hmade : target.number < w.made) :
    Inv (w.give target) := by
  refine ⟨hw.nodup, hw.made, ?_, hw.sized, hw.bytes, hw.few⟩
  intro number hle
  have hne : number ≠ target.number := by
    rintro rfl
    exact absurd hmade (not_lt.mpr hle)
  rw [give]
  dsimp only
  rw [Function.update_of_ne hne]
  exact hw.fresh number hle

theorem pooledTarget_inv (hw : Inv w) (kernel : Kernel) (width height : ℕ) :
    Inv (w.pooledTarget A kernel width height).2 := by
  rw [pooledTarget]
  split
  next candidate hreuse => exact give_inv hw (hw.made _ (reusable_eq_some hreuse).1)
  next hreuse =>
    split
    next text hmake => exact hw
    next created hmake =>
      obtain ⟨hnumber, _, _, hsize⟩ := make_eq_ok hmake
      have hkept : Kept w created (w.keep A created) := keep_kept hw hsize
      refine give_inv (hkept.inv hw hnumber hsize) ?_
      have hmade := hkept.made_owners.1
      omega

theorem useCount_le (hw : Inv w) (target : GpuColorTarget) :
    w.useCount target ≤ w.owners target.number + 1 := by
  have hcount := List.nodup_iff_count_le_one.mp hw.nodup target.number
  rw [List.count, List.countP_map] at hcount
  rw [useCount]
  exact (Nat.add_le_add_right hcount _).trans_eq (Nat.add_comm 1 _)

/-- The target that is handed out. -/
theorem pooledTarget_eq_ok (hw : Inv w) {kernel : Kernel} {width height : ℕ}
    {target : GpuColorTarget} (h : w.pooledTarget A kernel width height = (.ok target, w')) :
    target.layout.width = width ∧ target.layout.height = height ∧
      w'.owners target.number = 1 := by
  rw [pooledTarget] at h
  split at h
  next candidate hreuse =>
    obtain ⟨htarget, rfl⟩ := Prod.mk.inj h
    obtain rfl := Except.ok.inj htarget
    obtain ⟨_, howners, hwidth, hheight⟩ := reusable_eq_some hreuse
    refine ⟨hwidth, hheight, ?_⟩
    rw [give]
    dsimp only
    rw [Function.update_self, howners]
  next hreuse =>
    split at h
    · exact absurd (Prod.mk.inj h).1 nofun
    next created hmake =>
      obtain ⟨htarget, rfl⟩ := Prod.mk.inj h
      obtain rfl := Except.ok.inj htarget
      obtain ⟨hnumber, hwidth, hheight, hsize⟩ := make_eq_ok hmake
      have hkept : Kept w created (w.keep A created) := keep_kept hw hsize
      have howners := hkept.made_owners.2
      refine ⟨hwidth, hheight, ?_⟩
      rw [give]
      dsimp only
      rw [Function.update_self, howners, hw.fresh _ hnumber.ge]

end World

variable {w : World}

theorem step_inv (hw : Inv w) (s : Step) : Inv (step A w s) := by
  cases s with
  | request kernel width height => exact World.pooledTarget_inv hw kernel width height
  | copy number =>
    rw [step]
    split
    · exact hw
    next howned =>
      refine ⟨hw.nodup, hw.made, ?_, hw.sized, hw.bytes, hw.few⟩
      intro other hle
      have hne : other ≠ number := by
        rintro rfl
        exact howned (hw.fresh other hle)
      dsimp only
      rw [Function.update_of_ne hne]
      exact hw.fresh other hle
  | drop number =>
    refine ⟨hw.nodup, hw.made, ?_, hw.sized, hw.bytes, hw.few⟩
    intro other hle
    rw [step]
    dsimp only
    rcases eq_or_ne other number with rfl | hne
    · rw [Function.update_self, hw.fresh other hle]
    · rw [Function.update_of_ne hne]
      exact hw.fresh other hle

theorem step_poolBytes_le_iff (hw : Inv w) (hle : w.poolBytes ≤ kPoolBytes) (s : Step) :
    (step A w s).poolBytes ≤ kPoolBytes ↔ HasRoom A w s := by
  cases s with
  | request kernel width height =>
    rw [step, World.pooledTarget, HasRoom]
    split
    next candidate hreuse => exact ⟨fun _ h => absurd (hreuse.symm.trans h) nofun, fun _ => hle⟩
    next hreuse =>
      split
      next text hmake => exact ⟨fun _ _ _ h => absurd (hmake.symm.trans h) nofun, fun _ => hle⟩
      next created hmake =>
        obtain ⟨_, _, _, hsize⟩ := make_eq_ok hmake
        have hkept : World.Kept w created (w.keep A created) := World.keep_kept hw hsize
        refine (hkept.poolBytes_le_iff hw hle).trans ⟨?_, fun h => h hreuse created hmake⟩
        intro hroom _ created' hmake'
        obtain rfl := Except.ok.inj (hmake.symm.trans hmake')
        exact hroom
  | copy number =>
    have hsame : (step A w (.copy number)).poolBytes = w.poolBytes := by
      rw [step]
      split <;> rfl
    exact ⟨fun _ => trivial, fun _ => hsame ▸ hle⟩
  | drop number => exact ⟨fun _ => trivial, fun _ => hle⟩

theorem run_append (before after : List Step) :
    run A (before ++ after) = after.foldl (step A) (run A before) := List.foldl_append

theorem run_inv (steps : List Step) : Inv (run A steps) := by
  induction steps using List.reverseRecOn with
  | nil => exact inv_start
  | append_singleton steps s ih =>
    rw [run_append]
    exact step_inv ih s

/-- The bound on the pool holds all along a run if and only if each call leaves it room. -/
theorem run_poolBytes_le_iff (steps : List Step) :
    (∀ earlier, earlier <+: steps → (run A earlier).poolBytes ≤ kPoolBytes) ↔
      ∀ earlier s, earlier ++ [s] <+: steps → HasRoom A (run A earlier) s := by
  have hstep (earlier : List Step) (s : Step) :
      run A (earlier ++ [s]) = step A (run A earlier) s := run_append earlier [s]
  constructor
  · intro hle earlier s hprefix
    have hearlier := hle earlier ((List.prefix_append earlier [s]).trans hprefix)
    rw [← step_poolBytes_le_iff (run_inv earlier) hearlier, ← hstep]
    exact hle _ hprefix
  · intro hroom earlier hprefix
    induction earlier using List.reverseRecOn with
    | nil => exact Nat.zero_le _
    | append_singleton earlier s ih =>
      have hearlier := ih ((List.prefix_append earlier [s]).trans hprefix)
      rw [hstep, step_poolBytes_le_iff (run_inv earlier) hearlier]
      exact hroom earlier s hprefix

/-- The pool after any calls: its counter is the sum of the sizes, targets are handed out with the
requested dimensions and no owners but the pool and the caller, and the sum stays within 256 MiB if
and only if no call puts a target in the place of one that is too small. -/
theorem pool_accounting (steps : List Step) :
    (run A steps).poolBytes = ((run A steps).pool.map (·.allocated)).sum ∧
      (∀ kernel width height target w',
        (run A steps).pooledTarget A kernel width height = (.ok target, w') →
          target.layout.width = width ∧ target.layout.height = height ∧
            w'.owners target.number = 1 ∧ w'.useCount target ≤ 2) ∧
      ((∀ earlier, earlier <+: steps → (run A earlier).poolBytes ≤ kPoolBytes) ↔
        ∀ earlier s, earlier ++ [s] <+: steps → HasRoom A (run A earlier) s) := by
  refine ⟨(run_inv steps).bytes, ?_, run_poolBytes_le_iff steps⟩
  intro kernel width height target w' hcall
  obtain ⟨hwidth, hheight, howners⟩ := World.pooledTarget_eq_ok (run_inv steps) hcall
  have hinv : Inv ((run A steps).pooledTarget A kernel width height).2 :=
    World.pooledTarget_inv (run_inv steps) kernel width height
  rw [hcall] at hinv
  have huse : w'.useCount target ≤ w'.owners target.number + 1 := World.useCount_le hinv target
  exact ⟨hwidth, hheight, howners, by omega⟩

/-- A target of 512 MiB takes the place of an unused one of 256 MiB. -/
theorem pool_overfilled :
    ¬ ∀ steps, (run .modular steps).poolBytes ≤ kPoolBytes := by
  intro h
  have hkernel : ∃ kernel : Kernel, (run .modular [.request kernel 8192 8192, .drop 0,
      .request kernel 8192 16384]).poolBytes = 2 * kPoolBytes :=
    ⟨⟨2 ^ 33, fun _ => .ok 0⟩, by decide +kernel⟩
  obtain ⟨kernel, hbytes⟩ := hkernel
  have hle := h [.request kernel 8192 8192, .drop 0, .request kernel 8192 16384]
  rw [hbytes] at hle
  exact absurd hle (by decide)

end Gpu.GxTextureCopyBackend
