import MkwiiPs5.Gpu.GuestAccess

/-!
# Lazy copies are eager copies

The view of a machine is RAM with every pending copy written out. Publications and guest
writes act on the view as they would on a memory that copies were written to at once, and
guest reads return what the view holds.
-/

namespace Gpu

open Memory

variable {π : Type*} {rt : Runtime} {be : Backend π}

/-! ### The view of a machine -/

/-- What a pending copy is going to write. -/
def patchOf (be : Backend π) (read : CopyRead π) : Overlay.Patch UInt8 where
  start := physicalOf read.user.address
  data := (encodeNativeColorCopy be read.user.copy).getD []

/-- RAM with every pending copy written out. -/
def Machine.view (be : Backend π) (m : Machine π) : ℕ → UInt8 :=
  Overlay.view m.ram (m.registry.reads.map (patchOf be))

/-- An encoding has the size that the registration announced. -/
theorem encode_length_eq {copy : GxColorCopy π} {bytes : ℕ} {data : List UInt8}
    (hbytes : nativeColorCopyBytes be copy = some bytes)
    (hdata : encodeNativeColorCopy be copy = some data) : data.length = bytes := by
  rw [nativeColorCopyBytes] at hbytes
  rw [encodeNativeColorCopy] at hdata
  split at hbytes
  · next target native htarget hnative =>
    rw [hnative, htarget] at hdata
    simp only [Option.ite_none_left_eq_some] at hbytes hdata
    rw [be.encode_length hdata.2.2]
    exact Option.some.inj hbytes.2.2
  · cases hbytes

/-- The bookkeeping invariant, and the sizes of the registered copies. -/
structure CopyInv (be : Backend π) (m : Machine π) : Prop where
  store : StoreInv m
  sized : ∀ read ∈ m.registry.reads,
    nativeColorCopyBytes be read.user.copy = some read.user.bytes

theorem CopyInv.patch_length_le {m : Machine π} (h : CopyInv be m) {read : CopyRead π}
    (hread : read ∈ m.registry.reads) : (patchOf be read).data.length ≤ read.user.bytes := by
  rw [patchOf]
  cases hdata : encodeNativeColorCopy be read.user.copy with
  | none => exact Nat.zero_le _
  | some data => exact (encode_length_eq (h.sized read hread) hdata).le

/-- A range clear of pending copies is clear of their patches. -/
theorem CopyInv.patch_apart {m : Machine π} (h : CopyInv be m) {physical n : ℕ}
    (hclear : m.Clear physical n) :
    ∀ patch ∈ m.registry.reads.map (patchOf be), ¬ patch.Meets physical n := by
  intro patch hpatch hmeets
  obtain ⟨read, hread, rfl⟩ := List.mem_map.mp hpatch
  have hle := h.patch_length_le hread
  refine hclear read hread (hmeets.mono ⟨le_rfl, ?_⟩ ⟨le_rfl, le_rfl⟩).symm
  exact Nat.add_le_add_left hle _

/-- Where no copy is pending RAM holds the view. -/
theorem CopyInv.load_eq {m : Machine π} (h : CopyInv be m) {physical n : ℕ}
    (hclear : m.Clear physical n) :
    Overlay.load m.ram physical n = Overlay.load (m.view be) physical n := by
  refine Overlay.load_congr fun p hlo hhi => ?_
  exact (Overlay.view_of_not_meets (h.patch_apart hclear) m.ram hlo hhi).symm

theorem CopyInv.storeBytes {m : Machine π} (h : CopyInv be m) {addr : ℕ} {data : List UInt8}
    (hclear : m.Clear (physicalOf addr) data.length) :
    CopyInv be (storeBytes addr data m) ∧
      (Gpu.storeBytes addr data m).view be =
        Overlay.write (m.view be) (physicalOf addr) data := by
  refine ⟨⟨h.store.stored _, h.sized⟩, ?_⟩
  exact Overlay.view_write (h.patch_apart hclear) m.ram

/-! ### Materialisation leaves the view -/

theorem CopyInv.materialises {m m' : Machine π} (h : CopyInv be m)
    (hstep : Materialises rt be m m') : CopyInv be m' ∧ m'.view be = m.view be := by
  have hstore := h.store.materialises hstep
  obtain ⟨read, hread, bytes, hbytes, -, rfl⟩ := hstep
  refine ⟨⟨hstore, fun other hother => h.sized other (List.mem_of_mem_filter hother)⟩, ?_⟩
  obtain ⟨before, after, hsplit⟩ := List.append_of_mem hread
  have hdistinct := h.store.registry.distinct
  rw [hsplit] at hdistinct
  have hfilter : m.registry.reads.filter (·.token != read.token) = before ++ after := by
    rw [hsplit]
    exact KeyedList.filter_of_split hdistinct
  have hpatch : patchOf be read = ⟨physicalOf read.user.address, bytes⟩ := by
    rw [patchOf, hbytes, Option.getD_some]
  -- the patches in front of the one written do not meet it
  have happart : ∀ other ∈ before.map (patchOf be),
      ¬ other.Meets (patchOf be read).start (patchOf be read).data.length := by
    intro other hother hmeets
    obtain ⟨old, hold, rfl⟩ := List.mem_map.mp hother
    have hmem : old ∈ m.registry.reads := hsplit ▸ List.mem_append_left _ hold
    have hne : old ≠ read := by
      rintro rfl
      rw [List.map_append, List.map_cons] at hdistinct
      exact (List.disjoint_of_nodup_append hdistinct) (List.mem_map_of_mem hold)
        List.mem_cons_self
    have h₁ := h.patch_length_le hmem
    have h₂ := h.patch_length_le hread
    refine h.store.reads_apart hmem hread hne (hmeets.mono ⟨le_rfl, ?_⟩ ⟨le_rfl, ?_⟩)
    · exact Nat.add_le_add_left h₁ _
    · exact Nat.add_le_add_left h₂ _
  have hview := Overlay.view_materialise happart (after.map (patchOf be)) m.ram
  rw [hpatch] at hview
  simp only [Machine.view, finishDeferredRead, retire, hfilter, List.map_append]
  rw [hview, hsplit, List.map_append, List.map_cons, hpatch]

theorem CopyInv.materialisesMany {m m' : Machine π} (h : CopyInv be m)
    (hmany : MaterialisesMany rt be m m') : CopyInv be m' ∧ m'.view be = m.view be := by
  induction hmany with
  | refl => exact ⟨h, rfl⟩
  | tail _ hstep ih =>
    obtain ⟨hinv, hview⟩ := ih.1.materialises hstep
    exact ⟨hinv, hview.trans ih.2⟩

/-! ### The operations of the store on the view -/

/-- A copy that is dropped unwritten is covered by the incoming one. -/
theorem covered_of_hit {faults : Faults} {incoming : RamRange} {m m₁ : Machine π}
    (h : StoreInv m) (hpart : resolvePartial rt be faults incoming m.ranges m = (m₁, true))
    {read : CopyRead π} (hread : read ∈ m₁.registry.reads)
    (hhit : read.token ∈ (incoming.hits m₁.ranges).map (·.2.token)) :
    incoming.physical ≤ physicalOf read.user.address ∧
      physicalOf read.user.address + read.user.bytes ≤ incoming.physical + incoming.bytes := by
  have hnodes : ∀ node ∈ m.ranges, 0 < node.2.bytes ∧ node.1 + node.2.bytes ≤ 0x18000000 :=
    fun node hnode => ⟨(h.valid node hnode).1, (h.valid node hnode).2.1⟩
  obtain ⟨hmany, hdone⟩ := resolvePartial_spec h hnodes hpart
  have h₁ := h.materialisesMany hmany
  obtain ⟨node, hnode, htoken⟩ := List.mem_map.mp hhit
  obtain ⟨hnode, hhit⟩ := mem_hits.mp hnode
  obtain ⟨node', hnode', htoken', hstart, hbytes⟩ := h₁.tracked read hread
  obtain rfl := h₁.node_of_token hnode hnode' (htoken.trans htoken'.symm)
  have hpos := (h₁.valid node hnode).1
  cases hcover : incoming.covers node.1 node.2.bytes with
  | true =>
    simp only [RamRange.covers, Bool.and_eq_true, decide_eq_true_eq] at hcover
    rw [← hstart, ← hbytes]
    exact hcover
  | false =>
    -- a range that is not covered was resolved, so its copy is no longer pending
    refine absurd ?_ (hdone rfl node (hmany.frame.1 ▸ hnode) hhit hcover read hread)
    rw [← hstart, ← hbytes]
    exact ⟨by omega, by omega⟩

/-- A publication that throws leaves the view; one that comes back writes its bytes to it. -/
theorem CopyInv.publish {faults : Faults} {address : ℕ} {copy : Option (GxColorCopy π)}
    {m m' : Machine π} {ok : Bool} (h : CopyInv be m)
    (hpublish : publish rt be faults address copy m = (m', ok)) :
    CopyInv be m' ∧ (ok = false → m'.view be = m.view be) ∧
      ∀ data, ok = true → copy.bind (encodeNativeColorCopy be) = some data →
        m'.view be = Overlay.write (m.view be) (physicalOf address) data := by
  have hstore := h.store.publish hpublish
  obtain ⟨rfl, rfl⟩ | ⟨c, bytes, incoming, m₁, done, hcopy, hbytes, hram, hpart, hend⟩ :=
    publish_cases hpublish
  · exact ⟨h, fun _ => rfl, fun _ h => nomatch h⟩
  · have hnodes : ∀ node ∈ m.ranges, 0 < node.2.bytes ∧ node.1 + node.2.bytes ≤ 0x18000000 :=
      fun node hnode => ⟨(h.store.valid node hnode).1, (h.store.valid node hnode).2.1⟩
    obtain ⟨h₁, hview₁⟩ := h.materialisesMany (resolvePartial_spec h.store hnodes hpart).1
    obtain ⟨rfl, rfl⟩ | ⟨rfl, hphysical, read, huser, hidle, haliased, hlast⟩ := hend
    · -- what was written out before the failure was pending, so that the view holds it already
      exact ⟨h₁, fun _ => hview₁, fun _ h => nomatch h⟩
    · obtain ⟨rfl, rfl⟩ | ⟨rfl, rfl⟩ := hlast
      · obtain ⟨-, hreads, -⟩ := withdraw_spec rt h₁.store.registry hidle haliased
        refine ⟨⟨hstore, ?_⟩, fun _ => ?_, fun _ h => nomatch h⟩
        · intro old hold
          exact h₁.sized old (hreads ▸ hold)
        · rw [← hview₁]
          -- the read that was registered is withdrawn: the pending copies are those from before
          simp only [Machine.view, hreads]
      · obtain ⟨hb, -, hpos, -⟩ := checkedRam_valid hram
        obtain ⟨token, -, htoken, m', hm', -, -, hreads, -, -, hram', -⟩ :=
          commit_spec rt h₁.store hpos hidle haliased
            (Function.update m₁.copies incoming.host (some c))
        rw [htoken, ← hm'] at hstore ⊢
        refine ⟨⟨hstore, ?_⟩, (fun h => nomatch h), ?_⟩
        · intro old hold
          rw [hreads, List.mem_append, List.mem_singleton] at hold
          rcases hold with hold | rfl
          · exact h₁.sized old (List.mem_of_mem_filter hold)
          · simp only [huser, hbytes]
        · intro data _ hdata
          rw [hcopy, Option.bind_some] at hdata
          have hlength := encode_length_eq hbytes hdata
          have hpatch : patchOf be { read with token := token } =
              ⟨incoming.physical, data⟩ := by
            simp only [patchOf, huser, hphysical, hdata, Option.getD_some]
          rw [Machine.view, hreads, hram', List.map_append, List.map_singleton, hpatch,
            Overlay.view_filter_covered, hphysical, ← hview₁]
          · rfl
          · -- what a patch that is dropped would have written, the new copy covers
            intro old hold hdropped
            have hhit := not_not.mp (of_decide_eq_false hdropped)
            obtain ⟨hlo, hhi⟩ := covered_of_hit h.store hpart hold hhit
            have := h₁.patch_length_le hold
            simp only [patchOf] at this ⊢
            exact ⟨hlo, by omega⟩

theorem CopyInv.resolve {faults : Faults} {addr length : ℕ} {m m' : Machine π} {ok : Bool}
    (h : CopyInv be m) (hresolve : resolveDeferredReads rt be faults addr length m = (m', ok)) :
    CopyInv be m' ∧ m'.view be = m.view be :=
  h.materialisesMany (resolveDeferredReads_spec h.store.registry hresolve).1

/-- `prepare_write` leaves the view, and no pending copy in its range. -/
theorem CopyInv.prepareWrite {faults : Faults} {address bytes : ℕ} {m m' : Machine π}
    {ok : Bool} (h : CopyInv be m)
    (hprepare : prepareWrite rt be faults address bytes m = (m', ok)) :
    CopyInv be m' ∧ m'.view be = m.view be ∧
      (ok = true → 0 < bytes → m'.Clear (be.canonicalizeGxMainRamAddress address) bytes) := by
  have hstore := h.store.prepareWrite hprepare
  obtain ⟨rfl, hzero⟩ | ⟨range, m₁, done, hram, hresolve, hend⟩ := prepareWrite_cases hprepare
  · exact ⟨h, rfl, fun hok hpos => by have := hzero hok; omega⟩
  · obtain ⟨h₁, hview₁⟩ := h.resolve hresolve
    obtain ⟨-, rfl, rfl⟩ | ⟨rfl, rfl, -⟩ := hend
    · exact ⟨h₁, hview₁, fun h => nomatch h⟩
    · have hclear := resolve_checkedRam h.store.registry hram hresolve
      obtain ⟨hbytes, hphysical, -, -⟩ := checkedRam_valid hram
      obtain ⟨-, -, hregistry, hram', -⟩ := h₁.store.retirePrepared hclear
      refine ⟨⟨hstore, ?_⟩, ?_, fun _ _ => ?_⟩
      · rw [hregistry]
        exact h₁.sized
      · rw [← hview₁, Machine.view, Machine.view, hregistry, hram']
      · rw [Machine.Clear, hregistry, ← hbytes, ← hphysical]
        exact hclear

/-! ### Guest accesses on the view -/

/-- Whatever a guest load in RAM returns is what the view holds. -/
theorem CopyInv.readScalar (cold : ColdLoads rt be) (faults : Faults) {addr n : ℕ}
    {m m' : Machine π} {result : Option (List UInt8)} (h : CopyInv be m) (hram : InRam addr n)
    (hpos : 0 < n) (hn : n ≤ 8) (hread : readScalar cold faults addr n m = (m', result)) :
    CopyInv be m' ∧ m'.view be = m.view be ∧
      ∀ bytes, result = some bytes →
        bytes = Overlay.load (m.view be) (physicalOf addr) n := by
  rw [Gpu.readScalar] at hread
  split at hread
  · next host hfast =>
    cases hread
    refine ⟨h, rfl, fun bytes hbytes => ?_⟩
    rw [← Option.some.inj hbytes]
    exact h.load_eq (h.store.clear_of_readable hram hn hfast)
  · rw [cold.readSlow_ram faults addr n m hram] at hread
    split at hread
    · next m₁ hresolve =>
      cases hread
      obtain ⟨h₁, hview⟩ := h.resolve hresolve
      refine ⟨h₁, hview, fun bytes hbytes => ?_⟩
      rw [← Option.some.inj hbytes, ← hview]
      exact h₁.load_eq (h.store.clear_of_resolved hram hpos hresolve)
    · next m₁ hresolve =>
      cases hread
      obtain ⟨h₁, hview⟩ := h.resolve hresolve
      exact ⟨h₁, hview, fun bytes hbytes => nomatch hbytes⟩

theorem InRam.addr_le {addr n : ℕ} (h : InRam addr n) : addr + n ≤ kAddressSpace := by
  have hend := h.end_le
  obtain ⟨window, hw, bankEnd, haddr, -, -⟩ := h
  have := window_le hw
  rw [haddr, lor_window (by omega) hw, kAddressSpace]
  omega

/-- Resolving a range that meets no pending copy does nothing. -/
theorem CopyInv.resolve_of_clear {faults : Faults} {addr n : ℕ} {m : Machine π}
    (h : CopyInv be m) (hram : InRam addr n) (hclear : m.Clear (physicalOf addr) n) :
    resolveDeferredReads rt be faults addr n m = (m, true) := by
  have hend := hram.end_le
  have hle := hram.addr_le
  rw [resolveDeferredReads]
  split
  · rfl
  · next hzero =>
    rw [if_neg (by omega), resolveLoop]
    have hfind : findDeferredRead rt addr n m.registry = none := by
      refine List.find?_eq_none.mpr fun read hread hoverlap => hclear read hread ?_
      obtain ⟨window, hw, -, haddr, -, -⟩ := hram
      rw [haddr] at hoverlap
      have haliased := h.store.registry.aliased read hread
      exact (overlaps_aliased rt haliased hw (by omega) hend).mp hoverlap
    rw [hfind]

/-- A guest store that meets no pending copy writes its bytes. -/
theorem CopyInv.writeScalar_of_clear {faults : Faults} {addr : ℕ} {data : List UInt8}
    {m : Machine π} (h : CopyInv be m) (hram : InRam addr data.length)
    (hclear : m.Clear (physicalOf addr) data.length) :
    writeScalar rt be faults addr data m = (Gpu.storeBytes addr data m, true) := by
  rw [writeScalar]
  split
  · rfl
  · rw [h.resolve_of_clear hram hclear]

theorem CopyInv.writeScalar {faults : Faults} {addr : ℕ} {data : List UInt8} {m m' : Machine π}
    {ok : Bool} (h : CopyInv be m) (hram : InRam addr data.length) (hpos : 0 < data.length)
    (hn : data.length ≤ 8) (hwrite : writeScalar rt be faults addr data m = (m', ok)) :
    CopyInv be m' ∧ m'.view be =
      if ok then Overlay.write (m.view be) (physicalOf addr) data else m.view be := by
  rw [Gpu.writeScalar] at hwrite
  split at hwrite
  · next host hfast =>
    cases hwrite
    exact h.storeBytes (h.store.clear_of_writable hram hn hfast)
  · split at hwrite
    · next m₁ hresolve =>
      cases hwrite
      exact h.resolve hresolve
    · next m₁ hresolve =>
      cases hwrite
      obtain ⟨h₁, hview⟩ := h.resolve hresolve
      rw [if_pos rfl, ← hview]
      exact h₁.storeBytes (h.store.clear_of_resolved hram hpos hresolve)

/-- On bytes that meet no pending copy the scalar stores of `memset_zero_32` write one block of
zeros. -/
theorem CopyInv.writeZeros_of_clear {faults : Faults} (words : ℕ) {addr : ℕ} {m : Machine π}
    (h : CopyInv be m) (hram : InRam addr (4 * words))
    (hclear : m.Clear (physicalOf addr) (4 * words)) :
    writeZeros rt be faults addr words m =
      (Gpu.storeBytes addr (List.replicate (4 * words) 0) m, true) := by
  induction words generalizing addr m with
  | zero => rw [writeZeros, Gpu.storeBytes, Nat.mul_zero, List.replicate_zero, Overlay.write_nil]
  | succ words ih =>
    have hfour : (List.replicate 4 (0 : UInt8)).length = 4 := rfl
    have hclear₄ : m.Clear (physicalOf addr) (List.replicate 4 (0 : UInt8)).length :=
      hclear.mono le_rfl (by rw [hfour]; omega)
    rw [writeZeros, h.writeScalar_of_clear (hram.mono (by rw [hfour]; omega)) hclear₄]
    obtain ⟨h₁, -⟩ := h.storeBytes hclear₄
    rcases Nat.eq_zero_or_pos words with rfl | hwords
    · rfl
    · obtain ⟨hnext, hphysical⟩ := hram.add (show 4 < 4 * (words + 1) by omega)
      have hclear₁ : (Gpu.storeBytes addr (List.replicate 4 0) m).Clear (physicalOf (addr + 4))
          (4 * words) := by
        rw [hphysical]
        exact hclear.mono (by omega) (by omega)
      show writeZeros rt be faults (addr + 4) words (Gpu.storeBytes addr _ m) = _
      rw [ih h₁ (hnext.mono (show 4 * words ≤ _ by omega)) hclear₁]
      simp only [Gpu.storeBytes, hphysical, Overlay.write_replicate_succ]
      rw [show 4 + 4 * words = 4 * (words + 1) by omega]

theorem CopyInv.memsetZero32 {faults : Faults} {addr : ℕ} {m m' : Machine π} {ok : Bool}
    (h : CopyInv be m) (hram : InRam addr 32)
    (hzero : memsetZero32 rt be faults addr m = (m', ok)) :
    CopyInv be m' ∧ m'.view be =
      if ok then Overlay.write (m.view be) (physicalOf addr) (List.replicate 32 0)
      else m.view be := by
  rw [Gpu.memsetZero32] at hzero
  split at hzero
  · next m₁ hresolve =>
    cases hzero
    exact h.resolve hresolve
  · next m₁ hresolve =>
    obtain ⟨h₁, hview⟩ := h.resolve hresolve
    have hclear := h.store.clear_of_resolved hram (by decide) hresolve
    have hdone : (m', ok) = (Gpu.storeBytes addr (List.replicate 32 0) m₁, true) := by
      rw [← hzero]
      split
      · exact h₁.writeZeros_of_clear 8 hram hclear
      · rfl
    cases hdone
    rw [if_pos rfl, ← hview]
    exact h₁.storeBytes hclear

theorem InRam.window {addr n : ℕ} (h : InRam addr n) : addr &&& 0xc0000000 ∈ ramWindows := by
  have hend := h.end_le
  obtain ⟨window, hw, bankEnd, haddr, -, -⟩ := h
  have hphysical : physicalOf addr &&& 0xc0000000 = 0 := by
    rw [physicalOf, Nat.and_assoc]
    exact Nat.and_zero addr
  have hwindow : window &&& 0xc0000000 = window := by
    simp only [ramWindows, List.mem_cons, List.not_mem_nil, or_false] at hw
    rcases hw with rfl | rfl | rfl <;> rfl
  rw [haddr, Nat.and_or_distrib_right, hphysical, hwindow, Nat.zero_or]
  exact hw

theorem CopyInv.prepareAndWrite {faults : Faults} {addr : ℕ} {data : List UInt8}
    {m m' : Machine π} {ok : Bool} (h : CopyInv be m) (hram : InRam addr data.length)
    (hwrite : prepareAndWrite rt be faults addr data m = (m', ok)) :
    CopyInv be m' ∧ m'.view be =
      if ok then Overlay.write (m.view be) (physicalOf addr) data else m.view be := by
  have hcanonical : be.canonicalizeGxMainRamAddress addr = physicalOf addr := by
    refine be.canonicalize_ram addr hram.window ?_
    obtain ⟨-, -, bankEnd, -, hbank, -⟩ := hram
    rw [hbank]
    rfl
  rw [Gpu.prepareAndWrite] at hwrite
  split at hwrite
  · next m₁ hprepare =>
    cases hwrite
    obtain ⟨h₁, hview₁, -⟩ := h.prepareWrite hprepare
    exact ⟨h₁, hview₁⟩
  · next m₁ hprepare =>
    cases hwrite
    obtain ⟨h₁, hview₁, hclear⟩ := h.prepareWrite hprepare
    rw [if_pos rfl, ← hview₁]
    rcases Nat.eq_zero_or_pos data.length with hzero | hpos
    · obtain rfl := List.length_eq_zero_iff.mp hzero
      have hsame : Gpu.storeBytes addr [] m₁ = m₁ := by rw [Gpu.storeBytes, Overlay.write_nil]
      rw [hsame, Overlay.write_nil]
      exact ⟨h₁, rfl⟩
    · refine h₁.storeBytes ?_
      rw [← hcanonical]
      exact hclear rfl hpos

/-! ### Runs -/

/-- An operation of a guest program on RAM. -/
inductive GuestOp (π : Type*)
  | publish (address : ℕ) (copy : Option (GxColorCopy π))
  | read (addr n : ℕ)
  | write (addr : ℕ) (data : List UInt8)
  | memsetZero32 (addr : ℕ)
  | prepareAndWrite (addr : ℕ) (data : List UInt8)

/-- Scalars have 1, 2, 4 or 8 bytes, and accesses lie in one RAM bank. -/
def GuestOp.Valid : GuestOp π → Prop
  | .publish _ _ => True
  | .read addr n => n ∈ [1, 2, 4, 8] ∧ InRam addr n
  | .write addr data => data.length ∈ [1, 2, 4, 8] ∧ InRam addr data.length
  | .memsetZero32 addr => InRam addr 32
  | .prepareAndWrite addr data => InRam addr data.length

/-- The bytes that an operation returns, or `none` where it throws. -/
def Machine.guestStep (rt : Runtime) (be : Backend π) (cold : ColdLoads rt be) (faults : Faults)
    (m : Machine π) : GuestOp π → Machine π × Option (List UInt8)
  | .publish address copy =>
    let (m, ok) := publish rt be faults address copy m
    (m, if ok then some [] else none)
  | .read addr n => readScalar cold faults addr n m
  | .write addr data =>
    let (m, ok) := writeScalar rt be faults addr data m
    (m, if ok then some [] else none)
  | .memsetZero32 addr =>
    let (m, ok) := memsetZero32 rt be faults addr m
    (m, if ok then some [] else none)
  | .prepareAndWrite addr data =>
    let (m, ok) := prepareAndWrite rt be faults addr data m
    (m, if ok then some [] else none)

/-- Each operation of a run comes with the failures injected into it. -/
def Machine.guestRun (rt : Runtime) (be : Backend π) (cold : ColdLoads rt be) :
    Machine π → List (Faults × GuestOp π) → List (Option (List UInt8))
  | _, [] => []
  | m, (faults, op) :: ops =>
    (m.guestStep rt be cold faults op).2 ::
      guestRun rt be cold (m.guestStep rt be cold faults op).1 ops

/-- The reference memory: a publication writes its encoded bytes at once, and an operation
that throws does nothing. -/
def eagerStep (be : Backend π) (ram : ℕ → UInt8) (ok : Bool) (op : GuestOp π) :
    (ℕ → UInt8) × Option (List UInt8) :=
  if ok then
    match op with
    | .publish address copy =>
      (Overlay.write ram (physicalOf address)
        ((copy.bind (encodeNativeColorCopy be)).getD []), some [])
    | .read addr n => (ram, some (Overlay.load ram (physicalOf addr) n))
    | .write addr data => (Overlay.write ram (physicalOf addr) data, some [])
    | .memsetZero32 addr =>
      (Overlay.write ram (physicalOf addr) (List.replicate 32 0), some [])
    | .prepareAndWrite addr data => (Overlay.write ram (physicalOf addr) data, some [])
  else (ram, none)

/-- Each operation of a run of the reference memory comes with whether it throws. -/
def eagerRun (be : Backend π) : (ℕ → UInt8) → List (Bool × GuestOp π) →
    List (Option (List UInt8))
  | _, [] => []
  | ram, (ok, op) :: ops =>
    (eagerStep be ram ok op).2 :: eagerRun be (eagerStep be ram ok op).1 ops

/-- Every copy that can be published can be encoded. -/
def Backend.Total (be : Backend π) : Prop :=
  ∀ copy bytes, nativeColorCopyBytes be copy = some bytes →
    (encodeNativeColorCopy be copy).isSome

theorem width_le {n : ℕ} (h : n ∈ [1, 2, 4, 8]) : 0 < n ∧ n ≤ 8 := by
  simp only [List.mem_cons, List.not_mem_nil, or_false] at h
  omega

/-- One operation acts on the view as on the reference memory. -/
theorem CopyInv.guestStep (hbe : be.Total) (cold : ColdLoads rt be) (faults : Faults)
    {m : Machine π} (h : CopyInv be m) {op : GuestOp π} (hop : op.Valid) :
    CopyInv be (m.guestStep rt be cold faults op).1 ∧
      ((m.guestStep rt be cold faults op).1.view be, (m.guestStep rt be cold faults op).2) =
        eagerStep be (m.view be) (m.guestStep rt be cold faults op).2.isSome op := by
  cases op with
  | publish address copy =>
    obtain ⟨m', ok, hpublish⟩ : ∃ m' ok, Gpu.publish rt be faults address copy m = (m', ok) :=
      ⟨_, _, rfl⟩
    simp only [Machine.guestStep, hpublish]
    obtain ⟨h', hfail, hdone⟩ := h.publish hpublish
    refine ⟨h', ?_⟩
    cases ok with
    | false => exact Prod.ext (hfail rfl) rfl
    | true =>
      obtain ⟨c, bytes, rfl, hbytes, -⟩ := h.store.publish_range hpublish
      obtain ⟨data, hdata⟩ := Option.isSome_iff_exists.mp (hbe c bytes hbytes)
      have hview := hdone data rfl (by rw [Option.bind_some, hdata])
      simp only [eagerStep, if_true, Option.isSome_some, Option.bind_some, hdata,
        Option.getD_some]
      exact Prod.ext hview rfl
  | read addr n =>
    obtain ⟨hwidth, hram⟩ := hop
    obtain ⟨hpos, hn⟩ := width_le hwidth
    obtain ⟨m', result, hread⟩ : ∃ m' result, Gpu.readScalar cold faults addr n m =
      (m', result) := ⟨_, _, rfl⟩
    obtain ⟨h', hview, hbytes⟩ := h.readScalar cold faults hram hpos hn hread
    simp only [Machine.guestStep, hread]
    refine ⟨h', ?_⟩
    cases result with
    | none => exact Prod.ext hview rfl
    | some bytes => exact Prod.ext hview (congrArg some (hbytes bytes rfl))
  | write addr data =>
    obtain ⟨hwidth, hram⟩ := hop
    obtain ⟨hpos, hn⟩ := width_le hwidth
    obtain ⟨m', ok, hwrite⟩ : ∃ m' ok, Gpu.writeScalar rt be faults addr data m = (m', ok) :=
      ⟨_, _, rfl⟩
    obtain ⟨h', hview⟩ := h.writeScalar hram hpos hn hwrite
    simp only [Machine.guestStep, hwrite]
    refine ⟨h', ?_⟩
    cases ok <;> exact Prod.ext hview rfl
  | memsetZero32 addr =>
    obtain ⟨m', ok, hzero⟩ : ∃ m' ok, Gpu.memsetZero32 rt be faults addr m = (m', ok) :=
      ⟨_, _, rfl⟩
    obtain ⟨h', hview⟩ := h.memsetZero32 hop hzero
    simp only [Machine.guestStep, hzero]
    refine ⟨h', ?_⟩
    cases ok <;> exact Prod.ext hview rfl
  | prepareAndWrite addr data =>
    obtain ⟨m', ok, hwrite⟩ : ∃ m' ok, Gpu.prepareAndWrite rt be faults addr data m = (m', ok) :=
      ⟨_, _, rfl⟩
    obtain ⟨h', hview⟩ := h.prepareAndWrite hop hwrite
    simp only [Machine.guestStep, hwrite]
    refine ⟨h', ?_⟩
    cases ok <;> exact Prod.ext hview rfl

/-- A run returns what the reference memory returns from the view on, where the same
operations throw. -/
theorem CopyInv.guestRun (hbe : be.Total) (cold : ColdLoads rt be)
    {ops : List (Faults × GuestOp π)} {m : Machine π} (h : CopyInv be m)
    (hops : ∀ op ∈ ops, op.2.Valid) :
    m.guestRun rt be cold ops = eagerRun be (m.view be)
      (((m.guestRun rt be cold ops).map (·.isSome)).zip (ops.map (·.2))) := by
  induction ops generalizing m with
  | nil => rfl
  | cons op ops ih =>
    obtain ⟨faults, op⟩ := op
    obtain ⟨hop, hrest⟩ := List.forall_mem_cons.mp hops
    obtain ⟨h', hstep⟩ := h.guestStep hbe cold faults hop
    obtain ⟨hview, hresult⟩ := Prod.ext_iff.mp hstep
    simp only at hview hresult
    rw [Machine.guestRun, List.map_cons, List.map_cons, List.zip_cons_cons, eagerRun, ← hview,
      ← hresult, ← ih h' hrest]

/-! ### When an operation throws -/

/-- The conversions of pending copies succeed. -/
def Faults.Converts (faults : Faults) : Prop := ∀ token, faults.conversion token = false

/-- Without injected failures each round of a resolution writes one copy to RAM, so as many
rounds as there are copies are enough. -/
theorem CopyInv.resolveLoop_succeeds (hbe : be.Total) {faults : Faults} {addr length fuel : ℕ}
    {m : Machine π} (h : CopyInv be m) (hfaults : faults.Converts)
    (hfuel : m.registry.reads.length < fuel) :
    (resolveLoop rt be faults addr length fuel m).2 = true := by
  induction fuel generalizing m with
  | zero => omega
  | succ fuel ih =>
    simp only [resolveLoop]
    split
    · rfl
    · next found hfind =>
      have hmem : found ∈ m.registry.reads := List.mem_of_find?_eq_some hfind
      have hsized := h.sized found hmem
      obtain ⟨data, hdata⟩ := Option.isSome_iff_exists.mp (hbe _ _ hsized)
      have hlength := encode_length_eq hsized hdata
      have hram : materialize be found.user m.ram =
          some (Overlay.write m.ram (physicalOf found.user.address) data) :=
        materialize_eq_some.mpr ⟨data, hdata, hlength, rfl⟩
      rw [h.store.registry.idle found hmem, if_neg Bool.false_ne_true, hfaults found.token,
        if_neg Bool.false_ne_true, hram]
      simp only
      rw [finishDeferredRead_marked]
      have hstep : Materialises rt be m _ := ⟨found, hmem, data, hdata, hlength, rfl⟩
      refine ih (h.materialises hstep).1 ?_
      have hlt : (m.registry.reads.filter (·.token != found.token)).length <
          m.registry.reads.length := by
        rw [List.length_filter_lt_length_iff_exists]
        exact ⟨found, hmem, by simp⟩
      simp only [finishDeferredRead, retire]
      omega

theorem CopyInv.resolve_succeeds (rt : Runtime) (hbe : be.Total) {faults : Faults}
    {addr length : ℕ} {m : Machine π} (h : CopyInv be m) (hfaults : faults.Converts)
    (hle : addr + length ≤ kAddressSpace) :
    ∃ m', resolveDeferredReads rt be faults addr length m = (m', true) := by
  refine ⟨(resolveDeferredReads rt be faults addr length m).1, Prod.ext rfl ?_⟩
  rw [resolveDeferredReads]
  split
  · rfl
  · rw [if_neg (by omega)]
    exact h.resolveLoop_succeeds hbe hfaults (Nat.lt_succ_self _)

/-- Whether a publication is accepted, on account of its arguments. -/
def accepts (rt : Runtime) (be : Backend π) (faults : Faults) (address : ℕ)
    (copy : Option (GxColorCopy π)) : Bool :=
  match copy with
  | none => false
  | some copy =>
    match (nativeColorCopyBytes be copy).bind (checkedRam rt be address) with
    | none => false
    | some incoming =>
      copy.target.any (·.descriptor) && !faults.prepare && !faults.register &&
        acceptsRamRead rt address incoming.bytes &&
        (publishHandle faults incoming.host copy fun _ => none).isSome

/-- The cache accepts a copy whatever it holds. -/
theorem publishHandle_isSome (faults : Faults) (destination : ℕ) (copy : GxColorCopy π)
    (copies copies' : ℕ → Option (GxColorCopy π)) :
    (publishHandle faults destination copy copies).isSome =
      (publishHandle faults destination copy copies').isSome := by
  simp only [publishHandle]
  split
  · rfl
  · split_ifs <;> rfl

theorem CopyInv.resolvePartial_succeeds (rt : Runtime) (hbe : be.Total) {faults : Faults}
    (incoming : RamRange) {nodes : List (ℕ × Entry)} {m : Machine π} (h : CopyInv be m)
    (hfaults : faults.Converts)
    (hnodes : ∀ node ∈ nodes, node.1 + node.2.bytes ≤ 0x18000000) :
    ∃ m', resolvePartial rt be faults incoming nodes m = (m', true) := by
  induction nodes generalizing m with
  | nil => exact ⟨m, rfl⟩
  | cons node rest ih =>
    obtain ⟨start, entry⟩ := node
    obtain ⟨hnode, hrest⟩ := List.forall_mem_cons.mp hnodes
    rw [resolvePartial]
    split
    · exact ih h hrest
    · have hle : start + entry.bytes ≤ kAddressSpace := hnode.trans (by decide)
      obtain ⟨m₁, hresolve⟩ := h.resolve_succeeds rt hbe hfaults hle
      rw [hresolve]
      exact ih (h.resolve hresolve).1 hrest

/-- Without failing conversions a publication comes back exactly if it is accepted. -/
theorem CopyInv.publish_ok (rt : Runtime) (hbe : be.Total) {faults : Faults} (address : ℕ)
    (copy : Option (GxColorCopy π)) {m : Machine π} (h : CopyInv be m)
    (hfaults : faults.Converts) :
    (Gpu.publish rt be faults address copy m).2 = accepts rt be faults address copy := by
  cases copy with
  | none => rfl
  | some c =>
    cases hincoming : (nativeColorCopyBytes be c).bind (checkedRam rt be address) with
    | none => simp only [Gpu.publish, accepts, hincoming]
    | some incoming =>
      obtain ⟨bytes, hbytes, hram⟩ := Option.bind_eq_some_iff.mp hincoming
      obtain ⟨rfl, -⟩ := checkedRam_valid hram
      have hnodes : ∀ node ∈ m.ranges, node.1 + node.2.bytes ≤ 0x18000000 :=
        fun node hnode => (h.store.valid node hnode).2.1
      obtain ⟨m₁, hpart⟩ := h.resolvePartial_succeeds rt hbe incoming hfaults hnodes
      have hrefused := registerDeferredRamRead_refused rt address incoming.bytes ()
        (⟨address, incoming.bytes, c⟩ : PendingColorCopy π) m₁.registry
      have hhandle := publishHandle_isSome faults incoming.host c m₁.copies fun _ => none
      simp only [Gpu.publish, accepts, hincoming, hpart]
      simp only [deferNativeColorCopy, hbytes]
      cases c.target.any (·.descriptor) with
      | false => simp
      | true =>
        cases faults.prepare with
        | true => simp
        | false =>
          cases faults.register with
          | true => simp
          | false =>
            cases haccept : acceptsRamRead rt address incoming.bytes with
            | false => simp [hrefused.mpr haccept]
            | true =>
              have htoken := mt hrefused.mp (by rw [haccept]; exact Bool.noConfusion)
              rw [← hhandle]
              simp only [htoken, if_false, Bool.not_true, Bool.not_false, Bool.or_self,
                Bool.and_self, Bool.true_and, Bool.false_eq_true]
              cases publishHandle faults incoming.host c m₁.copies with
              | none => rfl
              | some copies => rfl

/-- Whether a bulk write is prepared, on account of its range. -/
def acceptsWrite (rt : Runtime) (be : Backend π) (address bytes : ℕ) : Bool :=
  bytes = 0 || (checkedRam rt be address bytes).isSome

theorem CopyInv.prepareWrite_ok (rt : Runtime) (hbe : be.Total) {faults : Faults}
    (address bytes : ℕ) {m : Machine π} (h : CopyInv be m) (hfaults : faults.Converts) :
    (Gpu.prepareWrite rt be faults address bytes m).2 = acceptsWrite rt be address bytes := by
  by_cases hzero : bytes = 0
  · simp [Gpu.prepareWrite, acceptsWrite, hzero]
  · cases hram : checkedRam rt be address bytes with
    | none => simp [Gpu.prepareWrite, acceptsWrite, hzero, hram]
    | some range =>
      obtain ⟨-, -, -, hle⟩ := checkedRam_valid hram
      obtain ⟨m₁, hresolve⟩ := h.resolve_succeeds rt hbe hfaults
        (show range.physical + range.bytes ≤ kAddressSpace from hle.trans (by decide))
      simp [Gpu.prepareWrite, acceptsWrite, hzero, hram, hresolve]

/-- Whether an operation is accepted, on account of its arguments. -/
def GuestOp.accepted (rt : Runtime) (be : Backend π) (faults : Faults) : GuestOp π → Bool
  | .publish address copy => accepts rt be faults address copy
  | .prepareAndWrite addr data => acceptsWrite rt be addr data.length
  | _ => true

theorem CopyInv.guestStep_isSome (hbe : be.Total) (cold : ColdLoads rt be) {faults : Faults}
    {m : Machine π} (h : CopyInv be m) (hfaults : faults.Converts) {op : GuestOp π}
    (hop : op.Valid) :
    (m.guestStep rt be cold faults op).2.isSome = op.accepted rt be faults := by
  cases op with
  | publish address copy =>
    have hok := h.publish_ok rt hbe address copy hfaults
    simp only [Machine.guestStep, GuestOp.accepted, ← hok]
    cases (Gpu.publish rt be faults address copy m).2 <;> rfl
  | read addr n =>
    obtain ⟨m₁, hresolve⟩ := h.resolve_succeeds rt hbe hfaults hop.2.addr_le
    simp only [Machine.guestStep, GuestOp.accepted, Gpu.readScalar]
    split
    · rfl
    · rw [cold.readSlow_ram _ _ _ _ hop.2, hresolve]
      rfl
  | write addr data =>
    obtain ⟨m₁, hresolve⟩ := h.resolve_succeeds rt hbe hfaults hop.2.addr_le
    simp only [Machine.guestStep, GuestOp.accepted, Gpu.writeScalar, hresolve]
    split <;> rfl
  | memsetZero32 addr =>
    obtain ⟨m₁, hresolve⟩ := h.resolve_succeeds rt hbe hfaults (InRam.addr_le hop)
    obtain ⟨h₁, -⟩ := h.resolve hresolve
    have hclear := h.store.clear_of_resolved hop (by decide) hresolve
    simp only [Machine.guestStep, GuestOp.accepted, Gpu.memsetZero32, hresolve,
      h₁.writeZeros_of_clear 8 hop hclear]
    split <;> rfl
  | prepareAndWrite addr data =>
    have hok := h.prepareWrite_ok rt hbe addr data.length hfaults
    obtain ⟨m₁, ok, hprepare⟩ : ∃ m₁ ok,
      Gpu.prepareWrite rt be faults addr data.length m = (m₁, ok) := ⟨_, _, rfl⟩
    rw [hprepare] at hok
    simp only [Machine.guestStep, GuestOp.accepted, Gpu.prepareAndWrite, hprepare, ← hok]
    cases ok <;> rfl

theorem CopyInv.guestRun_isSome (hbe : be.Total) (cold : ColdLoads rt be)
    {ops : List (Faults × GuestOp π)} {m : Machine π} (h : CopyInv be m)
    (hops : ∀ op ∈ ops, op.1.Converts ∧ op.2.Valid) :
    (m.guestRun rt be cold ops).map (·.isSome) =
      ops.map fun op => op.2.accepted rt be op.1 := by
  induction ops generalizing m with
  | nil => rfl
  | cons op ops ih =>
    obtain ⟨faults, op⟩ := op
    obtain ⟨⟨hfaults, hop⟩, hrest⟩ := List.forall_mem_cons.mp hops
    obtain ⟨h', -⟩ := h.guestStep hbe cold faults hop
    rw [Machine.guestRun, List.map_cons, List.map_cons, ih h' hrest,
      h.guestStep_isSome hbe cold hfaults hop]

theorem CopyInv.initial {m : Machine π} (h : m.Initial) : CopyInv be m ∧ m.view be = m.ram := by
  refine ⟨⟨.initial h, by simp [h.reads]⟩, ?_⟩
  rw [Machine.view, h.reads]
  rfl

/-- Over any run of publications, scalar reads and writes, zeroings and prepared bulk writes
from an empty store, in any RAM window and with conversions that succeed, every operation
returns what it returns on a memory to which each publication writes its bytes at once. -/
theorem lazy_copies_are_eager (hbe : be.Total) (cold : ColdLoads rt be) {m : Machine π}
    (hm : m.Initial) {ops : List (Faults × GuestOp π)}
    (hops : ∀ op ∈ ops, op.1.Converts ∧ op.2.Valid) :
    m.guestRun rt be cold ops =
      eagerRun be m.ram (ops.map fun op => (op.2.accepted rt be op.1, op.2)) := by
  obtain ⟨h, hview⟩ : CopyInv be m ∧ m.view be = m.ram := CopyInv.initial hm
  rw [h.guestRun hbe cold fun op hop => (hops op hop).2, h.guestRun_isSome hbe cold hops, hview,
    List.zip_map']

theorem Backend.flat_total : Backend.flat.Total := by
  intro copy bytes hbytes
  rw [nativeColorCopyBytes] at hbytes
  rw [encodeNativeColorCopy]
  split at hbytes
  · simp only [Option.ite_none_left_eq_some] at hbytes
    obtain ⟨hnot, hsize, -⟩ := hbytes
    simp only [if_neg hnot, if_neg fun h => hsize (.inl h)]
    rfl
  · cases hbytes

/-- A cold path that resolves the registry for every address. -/
def ColdLoads.resolving (rt : Runtime) (be : Backend π) : ColdLoads rt be where
  readSlow faults addr n m :=
    match resolveDeferredReads rt be faults addr n m with
    | (m, true) => (m, some (Overlay.load m.ram (physicalOf addr) n))
    | (m, false) => (m, none)
  readSlow_ram _ _ _ _ _ := rfl

/-- A copy that is partly overwritten by a guest store before a guest load through another
window. -/
def storeOverCopy : List (Faults × GuestOp UInt8) :=
  [(.none, .publish 0x80300000 (some (.flat 0x11))), (.none, .write 0x80300004 [1, 2, 3, 4]),
    (.none, .read 0xc0300000 8)]

theorem lazy_copies_are_eager_storeOverCopy :
    Machine.empty.guestRun .ramOnly .flat (.resolving _ _) storeOverCopy =
      [some [], some [], some [0x11, 0x11, 0x11, 0x11, 1, 2, 3, 4]] := by
  have hops : ∀ op ∈ storeOverCopy, op.1.Converts ∧ op.2.Valid := by
    simp only [storeOverCopy, List.forall_mem_cons, List.not_mem_nil, false_implies,
      implies_true, and_true]
    refine ⟨⟨fun _ => rfl, trivial⟩, ⟨fun _ => rfl, by decide, ?_⟩, ⟨fun _ => rfl, by decide, ?_⟩⟩
    · exact ⟨0x80000000, by decide, _, rfl, rfl, by decide⟩
    · exact ⟨0xc0000000, by decide, _, rfl, rfl, by decide⟩
  rw [lazy_copies_are_eager Backend.flat_total _ Machine.empty_initial hops]
  rfl

end Gpu
