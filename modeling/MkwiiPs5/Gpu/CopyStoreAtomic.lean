import MkwiiPs5.Gpu.LazyCopy

/-!
# Publications that throw

A publication that throws leaves the store and the cache as they were, and the view of RAM
too: what it wrote to RAM before it failed was pending there already.
-/

namespace Gpu

open Memory

variable {π : Type*} {rt : Runtime} {be : Backend π}

/-! ### Reachable stores -/

theorem CopyInv.step {m : Machine π} (h : CopyInv be m) (action : StoreAction π) :
    CopyInv be (m.step rt be action).1 := by
  cases action with
  | publish faults address copy => exact (h.publish rfl).1
  | prepareWrite faults address bytes => exact (h.prepareWrite rfl).1
  | access faults addr length => exact (h.resolve rfl).1
  | store ram => exact ⟨h.store.step (.store ram), h.sized⟩
  | evict destination => exact ⟨h.store.step (.evict destination), h.sized⟩
  | clear => exact ⟨h.store.step .clear, h.sized⟩

theorem Machine.Reachable.copyInv {m : Machine π} (h : m.Reachable rt be) : CopyInv be m := by
  induction h with
  | initial h => exact (CopyInv.initial h).1
  | step action _ ih => exact ih.step action

/-! ### What a failed publication leaves -/

/-- The copy has been written to RAM completely, and its bytes are still there. -/
def Machine.Holds (be : Backend π) (m : Machine π) (read : CopyRead π) : Prop :=
  read.token ∈ m.materialised ∧ ∃ data, encodeNativeColorCopy be read.user.copy = some data ∧
    data.length = read.user.bytes ∧
    Overlay.load m.ram (physicalOf read.user.address) data.length = data

/-- A copy that materialisations take from the registry is in RAM. -/
theorem MaterialisesMany.holds {m m' : Machine π} (h : StoreInv m)
    (hmany : MaterialisesMany rt be m m') {read : CopyRead π}
    (hread : read ∈ m.registry.reads) : read ∈ m'.registry.reads ∨ m'.Holds be read := by
  induction hmany with
  | refl => exact Or.inl hread
  | @tail m₁ m₂ hmany hstep ih =>
    have h₁ := h.materialisesMany hmany
    obtain ⟨old, hold, bytes, hbytes, hlength, rfl⟩ := hstep
    rcases ih with hpending | ⟨htoken, data, hdata, hsize, hload⟩
    · by_cases heq : read = old
      · subst heq
        exact Or.inr ⟨List.mem_cons_self, bytes, hbytes, hlength, Overlay.load_write _ _ _⟩
      · refine Or.inl (List.mem_filter.mpr ⟨hpending, bne_iff_ne.mpr fun htoken => ?_⟩)
        exact heq (h₁.registry.eq_of_token_eq hpending hold htoken)
    · refine Or.inr ⟨List.mem_cons_of_mem _ htoken, data, hdata, hsize, ?_⟩
      -- what is written now was registered beside the copy, so it is apart from it
      have hne : old ≠ read := by
        rintro rfl
        exact h₁.ended old hold htoken
      have hapart := h.reads_apart ((MaterialisesMany.frame hmany).2.2.2.subset hold) hread hne
      rw [← hlength, ← hsize] at hapart
      rw [Overlay.load_write_of_not_meets hapart]
      exact hload

/-- A publication that throws has materialised some copies, and registered nothing. -/
theorem StoreInv.publish_failed {faults : Faults} {address : ℕ} {copy : Option (GxColorCopy π)}
    {m m' : Machine π} (h : StoreInv m)
    (hpublish : Gpu.publish rt be faults address copy m = (m', false)) :
    ∃ m₁, MaterialisesMany rt be m m₁ ∧ m'.ranges = m₁.ranges ∧ m'.copies = m₁.copies ∧
      m'.registry.reads = m₁.registry.reads ∧ m'.ram = m₁.ram ∧
      m'.materialised = m₁.materialised := by
  obtain ⟨rfl, -⟩ | ⟨c, bytes, incoming, m₁, done, -, -, -, hpart, hend⟩ :=
    publish_cases hpublish
  · exact ⟨m', .refl, rfl, rfl, rfl, rfl, rfl⟩
  · have hnodes : ∀ node ∈ m.ranges, 0 < node.2.bytes ∧ node.1 + node.2.bytes ≤ 0x18000000 :=
      fun node hnode => ⟨(h.valid node hnode).1, (h.valid node hnode).2.1⟩
    have hmany := (resolvePartial_spec h hnodes hpart).1
    refine ⟨m₁, hmany, ?_⟩
    obtain ⟨rfl, -⟩ | ⟨-, -, read, -, hidle, haliased, hlast⟩ := hend
    · exact ⟨rfl, rfl, rfl, rfl, rfl⟩
    · obtain ⟨rfl, -⟩ | ⟨-, hok⟩ := hlast
      · have hreads := (withdraw_spec rt (h.materialisesMany hmany).registry hidle
          haliased).2.1
        exact ⟨rfl, rfl, hreads, rfl, rfl⟩
      · cases hok

/-- Guest programs see the view only: from two machines with one view, the operations that come
back in both runs return the same. -/
theorem CopyInv.guestRun_congr (hbe : be.Total) (cold : ColdLoads rt be)
    {ops : List (Faults × GuestOp π)} {m m' : Machine π} (h : CopyInv be m) (h' : CopyInv be m')
    (hview : m'.view be = m.view be) (hops : ∀ op ∈ ops, op.2.Valid)
    (hsame : (m'.guestRun rt be cold ops).map (·.isSome) =
      (m.guestRun rt be cold ops).map (·.isSome)) :
    m'.guestRun rt be cold ops = m.guestRun rt be cold ops := by
  rw [h'.guestRun hbe cold hops, hsame, hview, ← h.guestRun hbe cold hops]

/-- A publication that throws, from any reachable state, leaves the range map and the cached
views, leaves no registration of its own, and takes away those only of copies that it has
written to RAM completely. Later guest reads return what they would have returned without
it: at once, under any injected failures; and over any guest program, where the same
operations throw, as they do if the conversions in it succeed. -/
theorem publish_atomic {m m' : Machine π} (hm : m.Reachable rt be) {faults : Faults}
    {address : ℕ} {copy : Option (GxColorCopy π)}
    (hpublish : publish rt be faults address copy m = (m', false)) :
    m'.ranges = m.ranges ∧ m'.copies = m.copies ∧
    (∀ read ∈ m'.registry.reads, read ∈ m.registry.reads) ∧
    (∀ read ∈ m.registry.reads, read ∈ m'.registry.reads ∨ m'.Holds be read) ∧
    (∀ (cold : ColdLoads rt be) faults faults' addr n bytes bytes', n ∈ [1, 2, 4, 8] →
      InRam addr n → (readScalar cold faults' addr n m').2 = some bytes' →
      (readScalar cold faults addr n m).2 = some bytes → bytes' = bytes) ∧
    (be.Total → ∀ (cold : ColdLoads rt be) (ops : List (Faults × GuestOp π)),
      (∀ op ∈ ops, op.2.Valid) →
      (∀ op ∈ ops, op.1.Converts) ∨ (m'.guestRun rt be cold ops).map (·.isSome) =
        (m.guestRun rt be cold ops).map (·.isSome) →
      m'.guestRun rt be cold ops = m.guestRun rt be cold ops) := by
  have h := hm.copyInv
  obtain ⟨m₁, hmany, hranges, hcopies, hreads, hram, hmaterialised⟩ :=
    h.store.publish_failed hpublish
  obtain ⟨h', hfail, -⟩ := h.publish hpublish
  have hview := hfail rfl
  obtain ⟨hranges₁, hcopies₁, -, hsub⟩ := hmany.frame
  refine ⟨hranges.trans hranges₁, hcopies.trans hcopies₁, ?_, ?_, ?_, ?_⟩
  · intro read hread
    exact hsub.subset (hreads ▸ hread)
  · intro read hread
    rw [hreads, Machine.Holds, hram, hmaterialised]
    exact hmany.holds h.store hread
  · intro cold faults faults' addr n bytes bytes' hwidth haddr hread' hread
    obtain ⟨hpos, hn⟩ := width_le hwidth
    obtain ⟨-, -, hbytes'⟩ := h'.readScalar cold faults' haddr hpos hn rfl
    obtain ⟨-, -, hbytes⟩ := h.readScalar cold faults haddr hpos hn rfl
    rw [hbytes' bytes' hread', hbytes bytes hread, hview]
  · intro hbe cold ops hops hend
    apply h.guestRun_congr hbe cold h' hview hops
    rcases hend with hconverts | hsame
    · have hall : ∀ op ∈ ops, op.1.Converts ∧ op.2.Valid :=
        fun op hop => ⟨hconverts op hop, hops op hop⟩
      rw [h'.guestRun_isSome hbe cold hall, h.guestRun_isSome hbe cold hall]
    · exact hsame

/-- A store with a copy that the next publication overwrites in part. -/
def overwritten : Machine UInt8 × Bool :=
  publish .ramOnly .flat { Faults.none with insert := true } 0x80300008 (some (.flat 0x22))
    published

theorem publish_atomic_overwritten : overwritten.1.ranges = published.ranges :=
  (publish_atomic published_reachable (show overwritten = (overwritten.1, false) from rfl)).1

end Gpu
