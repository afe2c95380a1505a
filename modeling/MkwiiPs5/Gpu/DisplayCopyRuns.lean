import MkwiiPs5.Gpu.DisplayCopy

/-!
# Runs of display copies

What a presenter, the last presentable frame or an unfinished blit uses is in the pool of three images
and is not written.
-/

namespace Gpu.DisplayCopy

open Gx Rounding TextureCopy GxTextureCopyBackend
open AgcBlit (Quiet Submits Tidy Event pending)

variable {A : Arithmetic} {R : SingleRounding} {env : AgcBlit.Environment} {B : Backend}
variable {w w' w₁ : World}

/-- An image of the pool is written only where no unfinished blit uses it. -/
def Exclusive (first : ℕ) : Event → List Event → Prop
  | .submit s, past => ∀ id, first ≤ id → some (.image id) ∈ s.written →
    ∀ t ∈ pending past, some (.image id) ∉ t.owners
  | _, _ => True

/-- The pool has an image of some number. -/
def InPool (w : World) (id : ℕ) : Prop := ∃ c ∈ w.pool, c.number = id

structure Inv (B : Backend) (w : World) : Prop where
  blitter : AgcBlit.Inv w.blitter
  tidy : Tidy w.blitter
  exclusive : History.Ok (Exclusive B.first) w.blitter.log
  nodup : (w.pool.map (·.number)).Nodup
  numbers : ∀ c ∈ w.pool, B.first ≤ c.number ∧ c.number < w.made
  few : w.pool.length ≤ 3
  made : B.first ≤ w.made
  latest : ∀ c, w.latest = some c → c ∈ w.pool
  owned : ∀ id, B.first ≤ id → w.owners id ≠ 0 → InPool w id
  referenced : ∀ a < AgcBlit.InFlight, ∀ id, B.first ≤ id →
    some (.image id) ∈ (w.blitter.arenas a).owners → InPool w id

theorem inv_start (B : Backend) : Inv B (start B) where
  blitter := AgcBlit.inv_start .GxCopy
  tidy a o _ ho := by
    rcases eq_or_ne a 0 with rfl | hne
    · simp [start, AgcBlit.World.start, AgcBlit.Arena.owners, AgcBlit.Arena.none] at ho
    · simp [start, AgcBlit.World.start, AgcBlit.Arena.owners, AgcBlit.Arena.none, hne] at ho
  exclusive := History.ok_nil
  nodup := List.nodup_nil
  numbers _ hc := absurd hc List.not_mem_nil
  few := Nat.zero_le 3
  made := le_rfl
  latest _ hc := by cases hc
  owned _ _ howned := absurd rfl howned
  referenced a _ id _ ho := by
    rcases eq_or_ne a 0 with rfl | hne
    · simp [start, AgcBlit.World.start, AgcBlit.Arena.owners, AgcBlit.Arena.none] at ho
    · simp [start, AgcBlit.World.start, AgcBlit.Arena.owners, AgcBlit.Arena.none, hne] at ho

/-! ### What the blitter does -/

/-- Events that are no submissions go together with every history. -/
theorem exclusive_append {first : ℕ} {new log : List Event} (hnew : ∀ s, Event.submit s ∉ new)
    (h : History.Ok (Exclusive first) log) : History.Ok (Exclusive first) (new ++ log) := by
  induction new with
  | nil => exact h
  | cons e new ih =>
    refine ⟨?_, ih fun s hs => hnew s (List.mem_cons_of_mem e hs)⟩
    cases e with
    | submit s => exact absurd List.mem_cons_self (hnew s)
    | landed _ | rewrite _ | release _ | fill _ _ | finished | destroyed | threw _ => trivial

/-- The blitter does something that submits nothing. -/
theorem Inv.quiet (h : Inv B w) {b : AgcBlit.World} (hb : AgcBlit.Inv b) (hq : Quiet w.blitter b) :
    Inv B { w with blitter := b } := by
  refine ⟨hb, hq.tidy h.tidy, ?_, h.nodup, h.numbers, h.few, h.made, h.latest, h.owned,
    fun a ha id hid ho => h.referenced a ha id hid (hq.owners a _ ho)⟩
  obtain ⟨new, hlog, hnew⟩ := hq.log
  show History.Ok (Exclusive B.first) b.log
  rw [hlog]
  exact exclusive_append hnew h.exclusive

/-- The blitter submits a blit that uses images of the pool, and writes those that nothing uses. -/
theorem Inv.submits (h : Inv B w) {b : AgcBlit.World} (hb : AgcBlit.Inv b) {blit : AgcBlit.Blit}
    (hs : Submits blit w.blitter b)
    (howners : ∀ id, B.first ≤ id → some (.image id) ∈ blit.owners → InPool w id)
    (hwritten : ∀ id, B.first ≤ id → some (.image id) ∈ blit.written →
      w.blitter.references (.image id) = 0) : Inv B { w with blitter := b } := by
  refine ⟨hb, hs.tidy h.tidy, ?_, h.nodup, h.numbers, h.few, h.made, h.latest, h.owned, ?_⟩
  · obtain ⟨s, after, past, hlog, -, hwrites, hafter, ⟨new, hpast, hnew⟩, hpending⟩ := hs.log
    show History.Ok (Exclusive B.first) b.log
    rw [hlog]
    refine exclusive_append hafter ⟨?_, hpast ▸ exclusive_append hnew h.exclusive⟩
    intro id hid hmem t ht
    exact h.blitter.unused (hwritten id hid (hwrites ▸ hmem)) t (hpending t ht)
  · intro a ha id hid ho
    rcases hs.owners ho with hblit | hold
    · exact howners id hid hblit
    · exact h.referenced a ha id hid hold

/-! ### What a call leaves -/

/-- What no part of a call changes, and which images it writes: those that nothing holds. -/
structure Kept (B : Backend) (w w' : World) : Prop where
  inv : Inv B w'
  latest : w'.latest = w.latest
  owners : w'.owners = w.owners
  writes : ∃ new, w'.blitter.log = new ++ w.blitter.log ∧ ∀ s, Event.submit s ∈ new → ∀ id,
    B.first ≤ id → some (.image id) ∈ s.written →
      w.owners id = 0 ∧ ∀ c, w.latest = some c → c.number ≠ id

theorem Kept.refl (h : Inv B w) : Kept B w w :=
  ⟨h, rfl, rfl, [], rfl, fun _ hs => absurd hs List.not_mem_nil⟩

theorem Kept.trans (h : Kept B w w₁) (h' : Kept B w₁ w') : Kept B w w' := by
  obtain ⟨new, hlog, hnew⟩ := h.writes
  obtain ⟨new', hlog', hnew'⟩ := h'.writes
  refine ⟨h'.inv, h'.latest.trans h.latest, h'.owners.trans h.owners, new' ++ new, ?_, ?_⟩
  · rw [hlog', hlog, List.append_assoc]
  · intro s hs id hid hmem
    rcases List.mem_append.mp hs with hs | hs
    · have hfree := hnew' s hs id hid hmem
      rwa [h.owners, h.latest] at hfree
    · exact hnew s hs id hid hmem

theorem Kept.quiet (h : Inv B w) {b : AgcBlit.World} (hb : AgcBlit.Inv b)
    (hq : Quiet w.blitter b) : Kept B w { w with blitter := b } := by
  obtain ⟨new, hlog, hnew⟩ := hq.log
  exact ⟨h.quiet hb hq, rfl, rfl, new, hlog, fun s hs => absurd hs (hnew s)⟩

theorem Kept.submits (h : Inv B w) {b : AgcBlit.World} (hb : AgcBlit.Inv b) {blit : AgcBlit.Blit}
    (hs : Submits blit w.blitter b)
    (howners : ∀ id, B.first ≤ id → some (.image id) ∈ blit.owners → InPool w id)
    (hwritten : ∀ id, B.first ≤ id → some (.image id) ∈ blit.written →
      w.blitter.references (.image id) = 0 ∧ w.owners id = 0 ∧
        ∀ c, w.latest = some c → c.number ≠ id) : Kept B w { w with blitter := b } := by
  refine ⟨h.submits hb hs howners fun id hid hmem => (hwritten id hid hmem).1, rfl, rfl, ?_⟩
  obtain ⟨s, after, past, hlog, -, hwrites, hafter, ⟨new, hpast, hnew⟩, -⟩ := hs.log
  refine ⟨after ++ .submit s :: new, ?_, ?_⟩
  · show b.log = _
    rw [hlog, hpast, List.append_assoc, List.cons_append]
  · intro t ht id hid hmem
    rcases List.mem_append.mp ht with ht | ht
    · exact absurd ht (hafter t)
    rcases List.mem_cons.mp ht with heq | ht
    · obtain rfl := Event.submit.inj heq
      exact (hwritten id hid (hwrites ▸ hmem)).2
    · exact absurd ht (hnew t)

/-! ### The parts of a copy -/

/-- An image of the pool that nothing else holds. -/
structure Free (w : World) (c : GpuColorTarget) : Prop where
  mem : c ∈ w.pool
  owners : w.owners c.number = 0
  latest : ∀ d, w.latest = some d → d.number ≠ c.number
  references : w.blitter.references (.image c.number) = 0

/-- An image of the pool is unused if the pool has its only reference. -/
theorem unused_iff (h : Inv B w) {c : GpuColorTarget} (hc : c ∈ w.pool) :
    w.unused c = true ↔ Free w c := by
  have hcount : w.pool.countP (·.number == c.number) = 1 := by
    have hmap : (w.pool.map (·.number)).count c.number = 1 :=
      List.count_eq_one_of_mem h.nodup (List.mem_map_of_mem hc)
    rwa [List.count, List.countP_map] at hmap
  rw [World.unused, World.useCount, hcount, beq_iff_eq]
  constructor
  · intro hone
    refine ⟨hc, by omega, fun d hd heq => ?_, by omega⟩
    rw [hd, Option.any_some, heq, beq_self_eq_true, if_pos rfl] at hone
    omega
  · rintro ⟨-, howners, hlatest, hreferences⟩
    rw [howners, hreferences, if_neg]
    cases hlast : w.latest with
    | none => exact Bool.false_ne_true
    | some d => simpa using hlatest d hlast

theorem finishIfBusy_post (h : Inv B w) :
    (finishIfBusy env w).Post (fun _ => Kept B w) (Kept B w) := by
  rw [finishIfBusy]
  split
  · have hinv : (AgcBlit.finish env w.blitter).Post (fun _ b => AgcBlit.Inv b) AgcBlit.Inv :=
      (AgcBlit.finish_post h.blitter).imp (fun _ _ hp => hp.1) fun _ hp => hp
    exact (hinv.and (Quiet.finish env w.blitter)).zoom (fun _ _ hp => .quiet h hp.1 hp.2)
      fun _ hp => .quiet h hp.1 hp.2
  · exact Attempt.post_ok (.refl h)

/-- Images that are free may leave the pool. -/
theorem Inv.repool (h : Inv B w) {pool : List GpuColorTarget} {made : ℕ}
    (hnodup : (pool.map (·.number)).Nodup)
    (hnumbers : ∀ c ∈ pool, B.first ≤ c.number ∧ c.number < made) (hfew : pool.length ≤ 3)
    (hmade : w.made ≤ made) (hkeeps : ∀ c ∈ w.pool, ¬ Free w c → c ∈ pool) :
    Inv B { w with pool := pool, made := made } := by
  refine ⟨h.blitter, h.tidy, h.exclusive, hnodup, hnumbers, hfew, h.made.trans hmade, ?_, ?_, ?_⟩
  · intro c hc
    exact hkeeps c (h.latest c hc) fun hfree => hfree.latest c hc rfl
  · intro id hid howned
    obtain ⟨c, hc, rfl⟩ := h.owned id hid howned
    exact ⟨c, hkeeps c hc fun hfree => howned hfree.owners, rfl⟩
  · intro a ha id hid ho
    obtain ⟨c, hc, rfl⟩ := h.referenced a ha id hid ho
    refine ⟨c, hkeeps c hc fun hfree => ?_, rfl⟩
    exact AgcBlit.references_eq_zero.mp hfree.references a ha ho

/-- Nothing has an image that is made next. -/
theorem Inv.free_made (h : Inv B w) {created : GpuColorTarget} (hnumber : created.number = w.made)
    {pool : List GpuColorTarget} {made : ℕ} (hmem : created ∈ pool) :
    Free { w with pool := pool, made := made } created := by
  have hfresh : ¬ InPool w created.number := by
    rintro ⟨c, hc, heq⟩
    have := (h.numbers c hc).2
    omega
  have hfirst : B.first ≤ created.number := hnumber ▸ h.made
  refine ⟨hmem, ?_, ?_, ?_⟩
  · by_contra howned
    exact hfresh (h.owned _ hfirst howned)
  · exact fun d hd heq => hfresh ⟨d, h.latest d hd, heq⟩
  · exact AgcBlit.references_eq_zero.mpr fun a ha ho => hfresh (h.referenced a ha _ hfirst ho)

/-- What was chosen is in the pool, has the size that is wanted, and nothing else holds it. -/
structure Chosen (B : Backend) (w : World) (width height : ℕ) (target : GpuColorTarget)
    (w' : World) : Prop where
  kept : Kept B w w'
  free : Free w' target
  width : target.layout.width = width
  height : target.layout.height = height
  blitter : w'.blitter = w.blitter

theorem chooseTarget_post (h : Inv B w) (kernel : Kernel) (width height : ℕ) :
    (chooseTarget A kernel width height w).Post (Chosen B w width height) (Kept B w) := by
  have hsame : Kept B w w := .refl h
  rw [chooseTarget]
  cases hfind : w.pool.find? w.unused with
  | some candidate =>
    have hmem := List.mem_of_find?_eq_some hfind
    have hfree := (unused_iff h hmem).mp (List.find?_some hfind)
    dsimp only
    split
    · cases hmake : GpuColorTarget.make A kernel w.made width height with
      | error what => exact Attempt.post_error hsame
      | ok created =>
        obtain ⟨hnumber, hwidth, hheight, -⟩ := make_eq_ok hmake
        -- The image that leaves the pool is free.
        have hreplace := KeyedList.map_fst_replaceFirst w.unused created w.pool
        rw [hfind, Option.map_eq_some_iff] at hreplace
        obtain ⟨⟨old, pool⟩, hreplace, rfl⟩ := hreplace
        obtain ⟨before, after, hpool, rfl⟩ := KeyedList.replaceFirst_eq_some hreplace
        have hnodup := h.nodup
        have hnumbers := h.numbers
        have hfew := h.few
        rw [hpool] at hnodup hnumbers hfew
        have hinv : Inv B { w with pool := before ++ created :: after, made := w.made + 1 } := by
          refine h.repool ?_ ?_ (by simpa using hfew) (Nat.le_succ _) ?_
          · rw [(List.perm_middle.map _).nodup_iff, List.map_cons, List.nodup_cons] at hnodup ⊢
            refine ⟨fun hin => ?_, hnodup.2⟩
            obtain ⟨c, hc, heq⟩ := List.mem_map.mp hin
            have hlt := (hnumbers c (by simp only [List.mem_append, List.mem_cons] at hc ⊢; tauto)).2
            omega
          · intro c hc
            rcases List.mem_append.mp hc with hc | hc
            · exact (hnumbers c (List.mem_append_left _ hc)).imp_right Nat.lt_succ_of_lt
            rcases List.mem_cons.mp hc with rfl | hc
            · exact ⟨hnumber ▸ h.made, hnumber ▸ Nat.lt_succ_self _⟩
            · exact (hnumbers c (List.mem_append_right _ (List.mem_cons_of_mem _ hc))).imp_right
                Nat.lt_succ_of_lt
          · intro c hc hheld
            rw [hpool] at hc
            rcases List.mem_append.mp hc with hc | hc
            · exact List.mem_append_left _ hc
            rcases List.mem_cons.mp hc with rfl | hc
            · exact absurd hfree hheld
            · exact List.mem_append_right _ (List.mem_cons_of_mem _ hc)
        dsimp only
        rw [hreplace, Option.elim_some]
        exact ⟨⟨hinv, rfl, rfl, [], rfl, fun _ hs => absurd hs List.not_mem_nil⟩,
          h.free_made hnumber (List.mem_append_right _ List.mem_cons_self), hwidth, hheight, rfl⟩
    next hfits =>
      rw [not_or, not_not, not_not] at hfits
      exact ⟨hsame, hfree, hfits.1, hfits.2, rfl⟩
  | none =>
    dsimp only
    split
    · exact Attempt.post_error hsame
    next hroom =>
      cases hmake : GpuColorTarget.make A kernel w.made width height with
      | error what => exact Attempt.post_error hsame
      | ok created =>
        obtain ⟨hnumber, hwidth, hheight, -⟩ := make_eq_ok hmake
        have hinv : Inv B { w with pool := w.pool ++ [created], made := w.made + 1 } := by
          refine h.repool ?_ ?_ (by simp; omega) (Nat.le_succ _) fun c hc _ =>
            List.mem_append_left _ hc
          · rw [List.map_append, List.nodup_append_comm, List.map_singleton, List.singleton_append,
              List.nodup_cons]
            refine ⟨fun hin => ?_, h.nodup⟩
            obtain ⟨c, hc, heq⟩ := List.mem_map.mp hin
            have := (h.numbers c hc).2
            omega
          · intro c hc
            rcases List.mem_append.mp hc with hc | hc
            · exact (h.numbers c hc).imp_right Nat.lt_succ_of_lt
            · obtain rfl := List.mem_singleton.mp hc
              exact ⟨hnumber ▸ h.made, hnumber ▸ Nat.lt_succ_self _⟩
        exact ⟨⟨hinv, rfl, rfl, [], rfl, fun _ hs => absurd hs List.not_mem_nil⟩,
          h.free_made hnumber (List.mem_append_right _ (List.mem_singleton_self _)), hwidth, hheight,
          rfl⟩

/-- What is written after the copy is not in the pool. -/
def Outside (B : Backend) (new : List Event) : Prop :=
  ∀ s, Event.submit s ∈ new → ∀ id, some (.image id) ∈ s.written → id < B.first

/-- The last blit that writes an image of the pool copies the frame to the target. -/
structure Copied (B : Backend) (target : GpuColorTarget) (w w' : World) : Prop where
  log : ∃ s after past, w'.blitter.log = after ++ .submit s :: (past ++ w.blitter.log) ∧
    s.source = some (.image B.source.id) ∧ s.target = some (.image target.number) ∧
    Outside B after

theorem copy_post (h : Inv B w) {target : GpuColorTarget} (hfree : Free w target) (p : Plan) :
    (w.blit fun b => AgcBlit.execute env b (copyBlit A B (asTarget target) p)).Post
      (fun _ w' => Kept B w w' ∧ Copied B target w w' ∧ w'.pool = w.pool) (Kept B w) := by
  have hnumber := (h.numbers target hfree.mem).1
  have hfirst := B.numbered.1
  have howners : ∀ id, B.first ≤ id →
      some (.image id) ∈ (copyBlit A B (asTarget target) p).owners → id = target.number := by
    intro id hid hmem
    simp only [copyBlit, AgcBlit.Blit.owners, AgcBlit.Target.image, Option.map_some, Option.map_none,
      List.mem_cons, List.not_mem_nil, or_false, Option.some.injEq, AgcBlit.Owner.image.injEq,
      reduceCtorEq] at hmem
    rcases hmem with rfl | rfl
    · omega
    · rfl
  have hwritten : ∀ id, B.first ≤ id →
      some (.image id) ∈ (copyBlit A B (asTarget target) p).written → id = target.number := by
    intro id hid hmem
    refine howners id hid ?_
    simp only [AgcBlit.Blit.written, AgcBlit.Blit.owners, List.mem_cons] at hmem ⊢
    tauto
  have hkept : ∀ {b : AgcBlit.World}, AgcBlit.Inv b →
      Submits (copyBlit A B (asTarget target) p) w.blitter b → Kept B w { w with blitter := b } := by
    intro b hb hs
    refine .submits h hb hs (fun id hid hmem => ?_) fun id hid hmem => ?_
    · exact ⟨target, hfree.mem, (howners id hid hmem).symm⟩
    · obtain rfl := hwritten id hid hmem
      exact ⟨hfree.references, hfree.owners, hfree.latest⟩
  have hfill : AgcBlit.FillMade w.blitter (copyBlit A B (asTarget target) p) :=
    @AgcBlit.fillMade_image w.blitter _ (some B.source) rfl
  have hinv : (AgcBlit.execute env w.blitter (copyBlit A B (asTarget target) p)).Post
      (fun _ b => AgcBlit.Inv b) AgcBlit.Inv := AgcBlit.execute_post h.blitter hfill
  refine (hinv.and (AgcBlit.execute_submits (.refl w.blitter))).zoom
    (fun _ b hb => ⟨hkept hb.1 hb.2, ?_, rfl⟩) fun b hb => ?_
  · obtain ⟨s, after, past, hlog, hsubmitted, -, hafter, ⟨new, hpast, hnew⟩, -⟩ := hb.2.log
    obtain ⟨hsource, hrest⟩ := List.cons.inj hsubmitted
    refine ⟨s, after, new, hpast ▸ hlog, hsource, (List.cons.inj hrest).1, fun t ht => ?_⟩
    exact absurd ht (hafter t)
  · rcases hb.2 with hquiet | hs
    · exact .quiet h hb.1 hquiet
    · exact hkept hb.1 hs

/-- What a clear leaves: only the targets of the frame are written. -/
structure Clears (B : Backend) (w w' : World) : Prop where
  kept : Kept B w w'
  pool : w'.pool = w.pool
  log : ∃ new, w'.blitter.log = new ++ w.blitter.log ∧ Outside B new

theorem Clears.draws (h : Inv B w) {b : AgcBlit.World} (hb : AgcBlit.Inv b)
    {depth : Option AgcBlit.Target} (hdepth : ∀ d ∈ depth, d.id < B.first)
    (hdraws : Quiet w.blitter b ∨ ∃ blit, AgcBlit.Fills (some B.source) depth blit ∧
      Submits blit w.blitter b) : Clears B w { w with blitter := b } := by
  rcases hdraws with hquiet | ⟨blit, hfills, hs⟩
  · obtain ⟨new, hlog, hnew⟩ := hquiet.log
    exact ⟨.quiet h hb hquiet, rfl, new, hlog, fun s hs => absurd hs (hnew s)⟩
  have hwritten : ∀ id, some (.image id) ∈ blit.written → id < B.first := by
    intro id hmem
    simp only [AgcBlit.Blit.written, hfills.target, hfills.depth, Option.map_some, List.mem_cons,
      List.not_mem_nil, or_false, Option.some.injEq, AgcBlit.Owner.image.injEq,
      eq_comm (a := some (AgcBlit.Owner.image id)), Option.map_eq_some_iff] at hmem
    rcases hmem with rfl | ⟨d, hd, rfl⟩
    · exact B.numbered.1
    · exact hdepth d hd
  have howners : ∀ id, some (.image id) ∈ blit.owners → id < B.first := by
    intro id hmem
    obtain ⟨image, data, hsource⟩ := hfills.source
    refine hwritten id ?_
    simpa [AgcBlit.Blit.owners, AgcBlit.Blit.written, hsource, hfills.depthSource] using hmem
  refine ⟨.submits h hb hs (fun id hid hmem => ?_) fun id hid hmem => ?_, rfl, ?_⟩
  · exact absurd (howners id hmem) (not_lt.mpr hid)
  · exact absurd (hwritten id hmem) (not_lt.mpr hid)
  · obtain ⟨s, after, past, hlog, -, hwrites, hafter, ⟨new, hpast, hnew⟩, -⟩ := hs.log
    refine ⟨after ++ .submit s :: new, ?_, fun t ht id hmem => ?_⟩
    · show b.log = _
      rw [hlog, hpast, List.append_assoc, List.cons_append]
    rcases List.mem_append.mp ht with ht | ht
    · exact absurd ht (hafter t)
    rcases List.mem_cons.mp ht with heq | ht
    · obtain rfl := Event.submit.inj heq
      exact hwritten id (hwrites ▸ hmem)
    · exact absurd ht (hnew t)

theorem clearAfter_post (h : Inv B w) (p : Plan) :
    (clearAfter env B p w).Post (fun _ => Clears B w) (Kept B w) := by
  unfold clearAfter
  split
  · have hinv : (AgcBlit.fillDepthTested env w.blitter (some B.source) B.depth (clearedRect p)
        p.clear.color (decide (0 ≤ p.clear.depthValue ∧ p.clear.depthValue ≤ 1)) p.clear.mask).Post
        (fun _ b => AgcBlit.Inv b) AgcBlit.Inv := AgcBlit.fillDepthTested_post h.blitter ..
    have hdraws := hinv.and AgcBlit.fillDepthTested_draws
    refine Attempt.Post.andThen (hdraws.zoom (Q := fun _ => Clears B w) (fun _ b hb => ?_)
      fun b hb => ?_) fun _ w' hw' => Attempt.post_ok hw'
    · exact .draws h hb.1 B.numbered.2 (Or.inr hb.2)
    · exact (Clears.draws h hb.1 B.numbered.2 hb.2).kept
  split
  · have hinv : (AgcBlit.clearColor env w.blitter (some B.source) (clearedRect p) p.clear.color
        p.clear.mask).Post (fun _ b => AgcBlit.Inv b) AgcBlit.Inv :=
      AgcBlit.clearColor_post h.blitter ..
    have hdraws := hinv.and AgcBlit.clearColor_draws
    refine Attempt.Post.andThen (hdraws.zoom (Q := fun _ => Clears B w) (fun _ b hb => ?_)
      fun b hb => ?_) fun _ w' hw' => Attempt.post_ok hw'
    · exact .draws h hb.1 (by simp) (Or.inr hb.2)
    · exact (Clears.draws h hb.1 (by simp) hb.2).kept
  · exact Attempt.post_ok ⟨.refl h, rfl, [], rfl, fun s hs => absurd hs List.not_mem_nil⟩

/-- What a copy leaves where it returns: the target has the size of the plan and is the latest image,
and no image of the pool was written after it. -/
structure Committed (B : Backend) (w : World) (p : Plan) (target : GpuColorTarget) (w' : World) :
    Prop where
  kept : ∃ w₁, Kept B w w₁ ∧ target ∈ w₁.pool ∧ w' = { w₁ with latest := some target }
  copied : Copied B target w w'
  width : target.layout.width = p.scaledWidth
  height : target.layout.height = p.scaledHeight

theorem copyAndClear_post (h : Inv B w) (kernel : Kernel) (p : Plan) :
    (copyAndClear A env B kernel p w).Post (Committed B w p) (Kept B w) := by
  refine (finishIfBusy_post h).andThen fun _ w₁ hbusy => ?_
  have hchoose := (chooseTarget_post (A := A) hbusy.inv kernel p.scaledWidth p.scaledHeight).imp
    (fun _ _ hc => hc) fun _ hk => hbusy.trans hk
  refine hchoose.andThen fun target w₂ hchosen => ?_
  have hkept₂ := hbusy.trans hchosen.kept
  refine ((copy_post hchosen.kept.inv hchosen.free p).imp (fun _ _ hc => hc)
    fun _ hk => hkept₂.trans hk).andThen fun _ w₃ hcopied => ?_
  obtain ⟨hkept, ⟨s, after, past, hlog, hsource, htarget, hafter⟩, hpool⟩ := hcopied
  have hkept₃ := hkept₂.trans hkept
  refine ((clearAfter_post hkept.inv p).imp (fun _ _ hc => hc)
    fun _ hk => hkept₃.trans hk).andThen fun _ w₄ hclears => ?_
  refine Attempt.post_ok ⟨⟨w₄, hkept₃.trans hclears.kept, ?_, rfl⟩, ?_, hchosen.width,
    hchosen.height⟩
  · rw [hclears.pool, hpool]
    exact hchosen.free.mem
  · obtain ⟨new, hcleared, hnew⟩ := hclears.log
    obtain ⟨old, hbefore, -⟩ := hkept₂.writes
    refine ⟨s, new ++ after, past ++ old, ?_, hsource, htarget, fun t ht => ?_⟩
    · show w₄.blitter.log = _
      rw [hcleared, hlog, hbefore]
      simp only [List.append_assoc]
    · rcases List.mem_append.mp ht with ht | ht
      · exact hnew t ht
      · exact hafter t ht

theorem execute_post (h : Inv B w) (finished : Option String) (kernel : Kernel)
    (s : DisplayRegisters) (clear : Bool) :
    (execute A R env B finished kernel s clear w).Post
      (fun target w' => ∃ p, planGxDisplayCopy A R s B.extent clear w.disableFilter = .ok p ∧
        Committed B w p target w') (Kept B w) := by
  have hsame : Kept B w w := .refl h
  rw [execute]
  cases planGxDisplayCopy A R s B.extent clear w.disableFilter with
  | error what => exact Attempt.post_error hsame
  | ok p =>
    dsimp only
    split
    · exact Attempt.post_error hsame
    · cases finished with
      | some what => exact Attempt.post_error hsame
      | none => exact (copyAndClear_post h kernel p).mono fun _ _ hc => ⟨p, rfl, hc⟩

/-! ### Steps and runs -/

/-- What a step leaves, and that it writes no image of the pool that something holds. -/
structure Stepped (B : Backend) (w w' : World) : Prop where
  inv : Inv B w'
  writes : ∃ new, w'.blitter.log = new ++ w.blitter.log ∧ ∀ s, Event.submit s ∈ new → ∀ id,
    B.first ≤ id → some (.image id) ∈ s.written →
      w.owners id = 0 ∧ ∀ c, w.latest = some c → c.number ≠ id

theorem Inv.give (h : Inv B w) {id : ℕ} (hheld : B.first ≤ id → InPool w id) :
    Inv B (w.give id) := by
  refine ⟨h.blitter, h.tidy, h.exclusive, h.nodup, h.numbers, h.few, h.made, h.latest, ?_,
    h.referenced⟩
  intro n hn howned
  rcases eq_or_ne n id with rfl | hne
  · exact hheld hn
  · refine h.owned n hn ?_
    rw [World.give] at howned
    dsimp only at howned
    rwa [Function.update_of_ne hne] at howned

theorem Stepped.committed {p : Plan} {target : GpuColorTarget} (h : Committed B w p target w') :
    Stepped B w w' := by
  obtain ⟨w₁, hkept, hmem, rfl⟩ := h.kept
  have hinv := hkept.inv
  refine ⟨⟨hinv.blitter, hinv.tidy, hinv.exclusive, hinv.nodup, hinv.numbers, hinv.few, hinv.made,
    ?_, hinv.owned, hinv.referenced⟩, hkept.writes⟩
  intro c hc
  obtain rfl := Option.some.inj hc
  exact hmem

/-- A call that is permitted reads what is held, and writes nothing of the pool. -/
theorem permits_iff {call : AgcBlit.Call} : B.permits w call = true ↔ call ≠ .destroy ∧
    (∀ t, some t ∈ call.images → t.id < B.first ∨ w.owners t.id ≠ 0) ∧
    ∀ t, some t ∈ call.written → t.id < B.first := by
  have hall : ∀ {l : List (Option AgcBlit.Target)} {p : AgcBlit.Target → Bool},
      (l.all fun t => t.all p) = true ↔ ∀ t, some t ∈ l → p t = true := by
    intro l p
    rw [List.all_eq_true]
    constructor
    · intro h t ht
      exact h (some t) ht
    · rintro h (_ | t) ht
      · rfl
      · exact h t ht
  by_cases hcall : call = .destroy
  · subst hcall
    simp [Backend.permits]
  · have hpermits : B.permits w call =
        (call.images.all (fun t => t.all fun t => t.id < B.first || w.owners t.id != 0) &&
          call.written.all fun t => t.all fun t => t.id < B.first) := by
      cases call with
      | destroy => exact absurd rfl hcall
      | copy | copyDepth | clearColor | fillDepthTested | finish => rfl
    rw [hpermits, Bool.and_eq_true, hall, hall]
    simp [hcall]

theorem Stepped.permitted (h : Inv B w) {call : AgcBlit.Call} (hpermits : B.permits w call = true) :
    Stepped B w { w with blitter := AgcBlit.step env w.blitter call } := by
  obtain ⟨hcall, himages, hwritten⟩ := permits_iff.mp hpermits
  have hb : AgcBlit.Inv (AgcBlit.step env w.blitter call) := h.blitter.step call
  have hkept : Kept B w { w with blitter := AgcBlit.step env w.blitter call } := by
    have hdraws : Quiet w.blitter (AgcBlit.step env w.blitter call) ∨ _ :=
      AgcBlit.step_draws hcall
    rcases hdraws with hquiet | ⟨blit, hmakes, hs⟩
    · exact .quiet h hb hquiet
    refine .submits h hb hs (fun id hid hmem => ?_) fun id hid hmem => ?_
    · obtain ⟨t, ht, rfl⟩ := hmakes.owners id hmem
      exact h.owned t.id hid ((himages t ht).resolve_left (not_lt.mpr hid))
    · obtain ⟨t, ht, rfl⟩ := hmakes.written id hmem
      exact absurd (hwritten t ht) (not_lt.mpr hid)
  exact ⟨hkept.inv, hkept.writes⟩

theorem step_stepped (h : Inv B w) (st : Step) : Stepped B w (step A R env B w st) := by
  have hquiet : ∀ {w' : World}, Inv B w' → w'.blitter.log = w.blitter.log → Stepped B w w' :=
    fun hinv hlog => ⟨hinv, [], hlog, fun _ hs => absurd hs List.not_mem_nil⟩
  cases st with
  | execute finished kernel s clear =>
    have hpost : (execute A R env B finished kernel s clear w).Post (fun _ => Stepped B w)
        (Stepped B w) := (execute_post h finished kernel s clear).imp
      (fun _ _ hc => hc.elim fun _ hc => .committed hc.2) fun _ hk => ⟨hk.inv, hk.writes⟩
    exact hpost.left fun _ _ hs => hs
  | beginFrame =>
    refine hquiet ⟨h.blitter, h.tidy, h.exclusive, h.nodup, h.numbers, h.few, h.made, ?_, h.owned,
      h.referenced⟩ rfl
    intro c hc
    cases hc
  | setDisableFilter value => exact hquiet { h with } rfl
  | takeLatest =>
    rw [step]
    cases hlatest : w.latest with
    | none => exact hquiet h rfl
    | some c => exact hquiet (h.give fun _ => ⟨c, h.latest c hlatest, rfl⟩) rfl
  | copy id =>
    rw [step]
    split
    · exact hquiet h rfl
    next howned => exact hquiet (h.give fun hid => h.owned id hid howned) rfl
  | drop id =>
    refine hquiet ⟨h.blitter, h.tidy, h.exclusive, h.nodup, h.numbers, h.few, h.made, h.latest, ?_,
      h.referenced⟩ rfl
    intro n hn howned
    refine h.owned n hn fun hzero => howned ?_
    rw [step]
    dsimp only
    rcases eq_or_ne n id with rfl | hne
    · rw [Function.update_self, hzero]
    · rw [Function.update_of_ne hne, hzero]
  | blit call =>
    rw [step]
    split
    next hpermits => exact .permitted h hpermits
    next => exact hquiet h rfl

theorem inv_run (steps : List Step) : Inv B (run A R env B steps) := by
  rw [run]
  suffices h : ∀ w, Inv B w → Inv B (steps.foldl (step A R env B) w) from h _ (inv_start B)
  induction steps with
  | nil => exact fun w h => h
  | cons st steps ih => exact fun w h => ih _ (step_stepped h st).inv

/-- In every run there are at most three images, and they include every image that is the latest, that
a presenter holds, or that an unfinished blit uses. No blit writes an image that an unfinished one
uses, and no step writes one that is held or the latest. -/
theorem display_images_protected (A : Arithmetic) (R : SingleRounding) (env : AgcBlit.Environment)
    (B : Backend) (steps : List Step) :
    let w := run A R env B steps
    w.pool.length ≤ 3 ∧
    (∀ id, B.first ≤ id →
      (w.owners id ≠ 0 ∨ (∃ c, w.latest = some c ∧ c.number = id) ∨
        ∃ s ∈ pending w.blitter.log, some (.image id) ∈ s.owners) → InPool w id) ∧
    (∀ after e before, w.blitter.log = after ++ e :: before → Exclusive B.first e before) ∧
    ∀ st, ∃ new, (step A R env B w st).blitter.log = new ++ w.blitter.log ∧
      ∀ s, Event.submit s ∈ new → ∀ id, B.first ≤ id → some (.image id) ∈ s.written →
        w.owners id = 0 ∧ ∀ c, w.latest = some c → c.number ≠ id := by
  intro w
  have h : Inv B w := inv_run steps
  refine ⟨h.few, ?_, History.ok_iff.mp h.exclusive, fun st => (step_stepped h st).writes⟩
  rintro id hid (howned | ⟨c, hc, rfl⟩ | ⟨s, hs, hmem⟩)
  · exact h.owned id hid howned
  · exact ⟨c, h.latest c hc, rfl⟩
  · have hheld := h.blitter.held s hs
    refine h.referenced s.arena hheld.range id hid ?_
    rwa [AgcBlit.Arena.owners, hheld.source, hheld.target, hheld.depthTarget, hheld.depthSource]

/-! ### When a copy is refused -/

/-- Something outside of the blitter holds an image of the pool. -/
def Held (w : World) (c : GpuColorTarget) : Prop :=
  w.owners c.number ≠ 0 ∨ ∃ d, w.latest = some d ∧ d.number = c.number

theorem not_free_of_held {c : GpuColorTarget} (h : Held w c) : ¬ Free w c := by
  intro hfree
  rcases h with howned | ⟨d, hd, heq⟩
  · exact howned hfree.owners
  · exact hfree.latest d hd heq

theorem find_eq_none_iff (h : Inv B w) : w.pool.find? w.unused = none ↔ ∀ c ∈ w.pool, ¬ Free w c := by
  rw [List.find?_eq_none]
  exact forall₂_congr fun c hc => not_congr (unused_iff h hc)

theorem any_unused_iff (h : Inv B w) : w.pool.any w.unused = true ↔ ∃ c ∈ w.pool, Free w c := by
  rw [List.any_eq_true]
  exact exists_congr fun c => and_congr_right fun hc => unused_iff h hc

/-- When the blits are complete, an image is free unless something outside of the blitter holds it. -/
theorem held_of_finished (h : Inv B w) {b : AgcBlit.World}
    (hfinish : AgcBlit.finish env w.blitter = (.ok (), b)) {c : GpuColorTarget} (hc : c ∈ w.pool)
    (hbusy : ¬ Free { w with blitter := b } c) : Held w c := by
  have hidle : (AgcBlit.finish env w.blitter).Post _ _ := AgcBlit.finish_idle h.blitter
  have hquiet := Quiet.finish env w.blitter
  rw [hfinish] at hidle hquiet
  have hzero : b.references (.image c.number) = 0 := AgcBlit.references_eq_zero.mpr fun a ha =>
    hquiet.tidy h.tidy a _ (hidle a ha)
  by_contra hfree
  rw [Held, not_or, not_not, not_exists] at hfree
  exact hbusy ⟨hc, hfree.1, fun d hd heq => hfree.2 d ⟨hd, heq⟩, hzero⟩

theorem chooseTarget_refused (kernel : Kernel) (width height : ℕ) :
    (chooseTarget A kernel width height w).1 = .error (.logicError notRetired) ↔
      w.pool.find? w.unused = none ∧ 3 ≤ w.pool.length := by
  rw [chooseTarget]
  cases w.pool.find? w.unused with
  | some candidate =>
    dsimp only
    split
    · cases GpuColorTarget.make A kernel w.made width height <;> simp
    · simp
  | none =>
    dsimp only
    split
    next hfull => simp [hfull]
    next hroom => cases GpuColorTarget.make A kernel w.made width height <;> simp [hroom]

/-- A call of the blitter throws an exception of the blitter. -/
theorem blit_not_refused {α : Type} (call : AgcBlit.World → AgcBlit.Result α) {what : String} :
    (w.blit call).1 ≠ .error (.logicError what) := by
  rw [World.blit, Attempt.zoom]
  cases (call w.blitter).1 <;> simp [Except.mapError]

theorem clearAfter_not_refused (p : Plan) {what : String} :
    (clearAfter env B p w).1 ≠ .error (.logicError what) := by
  unfold clearAfter
  split
  · rw [Ne, Attempt.andThen_fst_eq_error]
    rintro (h | ⟨_, _, _, h⟩)
    · exact blit_not_refused _ h
    · cases h
  split
  · rw [Ne, Attempt.andThen_fst_eq_error]
    rintro (h | ⟨_, _, _, h⟩)
    · exact blit_not_refused _ h
    · cases h
  · exact fun h => by cases h

theorem copyAndClear_refused (h : Inv B w) (kernel : Kernel) (p : Plan) :
    (copyAndClear A env B kernel p w).1 = .error (.logicError notRetired) ↔
      w.pool.length = 3 ∧ (∀ c ∈ w.pool, Held w c) ∧
        ∃ b, AgcBlit.finish env w.blitter = (.ok (), b) := by
  have hlater : ∀ (target : GpuColorTarget) (w₂ : World), ((w₂.blit fun b =>
      AgcBlit.execute env b (copyBlit A B (asTarget target) p)).andThen fun _ w =>
        (clearAfter env B p w).andThen fun _ w =>
          (.ok target, { w with latest := some target })).1 ≠
            Except.error (Failure.logicError notRetired) := by
    intro target w₂
    rw [Ne, Attempt.andThen_fst_eq_error]
    rintro (herror | ⟨_, w₃, -, herror⟩)
    · exact blit_not_refused _ herror
    rcases Attempt.andThen_fst_eq_error.mp herror with herror | ⟨_, _, -, herror⟩
    · exact clearAfter_not_refused p herror
    · cases herror
  rw [copyAndClear, Attempt.andThen_fst_eq_error]
  constructor
  · rintro (herror | ⟨_, w₁, hbusy, herror⟩)
    · rw [finishIfBusy] at herror
      split at herror
      · exact absurd herror (blit_not_refused _)
      · cases herror
    rcases Attempt.andThen_fst_eq_error.mp herror with herror | ⟨target, w₂, -, herror⟩
    · obtain ⟨hnone, hfull⟩ := (chooseTarget_refused kernel _ _).mp herror
      rw [finishIfBusy] at hbusy
      split at hbusy
      next hcondition =>
        -- The blitter finished, and no image is free even so.
        rw [World.blit, Attempt.zoom] at hbusy
        rcases hfinish : AgcBlit.finish env w.blitter with ⟨_ | ⟨⟩, b⟩
        · rw [hfinish] at hbusy
          cases hbusy
        · rw [hfinish] at hbusy
          obtain rfl := (Prod.mk.inj hbusy).2
          have hfinished := Quiet.finish env w.blitter
          have hinv : (AgcBlit.finish env w.blitter).Post _ _ := AgcBlit.finish_post h.blitter
          rw [hfinish] at hfinished hinv
          have hfree := (find_eq_none_iff (h.quiet hinv.1 hfinished)).mp hnone
          refine ⟨le_antisymm h.few hfull, fun c hc => ?_, b, rfl⟩
          exact held_of_finished h hfinish hc (hfree c hc)
      next hcondition =>
        obtain rfl := (Prod.mk.inj hbusy).2
        refine absurd ⟨hfull, fun hany => ?_⟩ hcondition
        obtain ⟨c, hc, hfree⟩ := (any_unused_iff h).mp hany
        exact (find_eq_none_iff h).mp hnone c hc hfree
    · exact absurd herror (hlater target w₂)
  · rintro ⟨hfull, hheld, b, hfinish⟩
    have hcondition : 3 ≤ w.pool.length ∧ ¬ w.pool.any w.unused = true := by
      refine ⟨hfull.ge, fun hany => ?_⟩
      obtain ⟨c, hc, hfree⟩ := (any_unused_iff h).mp hany
      exact not_free_of_held (hheld c hc) hfree
    refine Or.inr ⟨(), { w with blitter := b }, ?_, ?_⟩
    · rw [finishIfBusy, if_pos hcondition, World.blit, hfinish]
      rfl
    refine Attempt.andThen_fst_eq_error.mpr (Or.inl ?_)
    have hfinished := Quiet.finish env w.blitter
    have hinv : (AgcBlit.finish env w.blitter).Post _ _ := AgcBlit.finish_post h.blitter
    rw [hfinish] at hfinished hinv
    refine (chooseTarget_refused kernel _ _).mpr ⟨?_, hfull.ge⟩
    refine (find_eq_none_iff (h.quiet hinv.1 hfinished)).mpr fun c hc => ?_
    exact not_free_of_held (w := { w with blitter := b }) (hheld c hc)

/-- In every run, a copy that throws leaves the latest image and the references as they are; one that
returns makes its target the latest, with the size of the plan, and no image of the pool is written
after the copy. A copy is refused for buffers that are not retired exactly where it comes to the pool
and all three images are the latest or held when the blits are complete. -/
theorem display_copy_commits (A : Arithmetic) (R : SingleRounding) (env : AgcBlit.Environment)
    (B : Backend) (steps : List Step) (finished : Option String) (kernel : Kernel)
    (s : DisplayRegisters) (clear : Bool) :
    let w := run A R env B steps
    (execute A R env B finished kernel s clear w).Post
      (fun target w' => w'.latest = some target ∧ w'.owners = w.owners ∧ Copied B target w w' ∧
        ∃ p, planGxDisplayCopy A R s B.extent clear w.disableFilter = .ok p ∧
          target.layout.width = p.scaledWidth ∧ target.layout.height = p.scaledHeight)
      (fun w' => w'.latest = w.latest ∧ w'.owners = w.owners) ∧
    ((execute A R env B finished kernel s clear w).1 = .error (.logicError notRetired) ↔
      (finished = none ∧ ∃ p, planGxDisplayCopy A R s B.extent clear w.disableFilter = .ok p ∧
        (p.clear.depth → ∃ d, B.depth = some d)) ∧
      w.pool.length = 3 ∧ (∀ c ∈ w.pool, Held w c) ∧
        ∃ b, AgcBlit.finish env w.blitter = (.ok (), b)) := by
  intro w
  have h : Inv B w := inv_run steps
  constructor
  · refine (execute_post h finished kernel s clear).imp ?_ fun w' hk => ⟨hk.latest, hk.owners⟩
    rintro target w' ⟨p, hp, ⟨w₁, hkept, -, rfl⟩, hcopied, hwidth, hheight⟩
    exact ⟨rfl, hkept.owners, hcopied, p, hp, hwidth, hheight⟩
  · have hdepth : B.depth.all (·.data = none) = true ↔ ¬ ∃ d, B.depth = some d := by
      cases hd : B.depth with
      | none => simp
      | some d => simpa using (B.depthBound d hd).1
    rw [execute]
    cases hplan : planGxDisplayCopy A R s B.extent clear w.disableFilter with
    | error what => simp
    | ok p =>
      dsimp only
      split
      next hnone =>
        rw [hdepth] at hnone
        constructor
        · -- the refusals before the pool is looked at have other texts
          intro hrefused
          have hne : noDepth ≠ notRetired := by decide
          exact absurd (Failure.logicError.inj (Except.error.inj hrefused)) hne
        · rintro ⟨⟨-, q, hq, hsome⟩, -⟩
          obtain rfl := Except.ok.inj hq
          exact absurd (hsome hnone.1) hnone.2
      next hsome =>
        rw [hdepth, not_and, not_not] at hsome
        cases finished with
        | some what => simp
        | none =>
          dsimp only
          -- all checks pass, so that only the pool can refuse
          rw [copyAndClear_refused h kernel p]
          exact ⟨fun hbusy => ⟨⟨rfl, p, rfl, hsome⟩, hbusy⟩, fun hbusy => hbusy.2⟩

end Gpu.DisplayCopy
