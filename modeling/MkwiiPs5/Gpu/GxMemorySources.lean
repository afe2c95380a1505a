import MkwiiPs5.Attempt
import MkwiiPs5.Gpu.GuestAccess
import MkwiiPs5.Gpu.GxTextureRuns
import MkwiiPs5.Gx.Geometry
import MkwiiPs5.Memory.Resolution

/-!
# The sources of the renderer

`gx_memory_sources.cpp`: the bytes of Wii RAM or of a registered host allocation behind a pointer,
and `gx_host_memory_ps5.cpp`, which registers the allocations.
-/

namespace Gpu

open Memory

/-- `UINTPTR_MAX`. -/
def UINTPTR_MAX : ℕ := 2 ^ 64 - 1

/-! ### Host allocations -/

/-- The storage of a vector. -/
structure HostStorage where
  data : ℕ
  size : ℕ
  end_le : data + size ≤ UINTPTR_MAX + 1
deriving DecidableEq

/-- The storage of an empty vector. -/
def HostStorage.empty : HostStorage := ⟨0, 0, Nat.zero_le _⟩

/-- The owner's bytes, where they hold the whole interval. -/
def HostStorage.find (bytes : HostStorage) (pointer size : ℕ) : Option Span :=
  if pointer < bytes.data then none
  else if pointer - bytes.data < bytes.size ∧ size ≤ bytes.size - (pointer - bytes.data) then
    some ⟨bytes.data + (pointer - bytes.data), size⟩
  else none

theorem HostStorage.find_eq_some {pointer size : ℕ} {bytes : HostStorage} {span : Span}
    (h : bytes.find pointer size = some span) :
    span = ⟨pointer, size⟩ ∧ bytes.data ≤ pointer ∧ pointer + size ≤ bytes.data + bytes.size := by
  rw [HostStorage.find] at h
  split at h
  · cases h
  · split at h
    · cases h
      exact ⟨by rw [Nat.add_sub_cancel' (by omega)], by omega, by omega⟩
    · cases h

/-- The `GxHostBytes` objects by address, and the set that they register in. -/
structure HostBuffers where
  objects : ℕ → Option HostStorage
  owners : List ℕ

namespace HostBuffers

inductive Action
  | construct (owner : ℕ)
  /-- Any change of the vector, which may move its storage. -/
  | assign (owner : ℕ) (storage : HostStorage)
  | destroy (owner : ℕ)

/-- `none` where the program cannot take the action. -/
def step (b : HostBuffers) : Action → Option HostBuffers
  | .construct owner =>
    if (b.objects owner).isSome then none
    else
      some
        { objects := Function.update b.objects owner (some .empty)
          owners := b.owners.orderedInsert (· ≤ ·) owner }
  | .assign owner storage =>
    if (b.objects owner).isNone then none
    else some { b with objects := Function.update b.objects owner (some storage) }
  | .destroy owner =>
    if (b.objects owner).isNone then none
    else
      some
        { objects := Function.update b.objects owner none
          owners := b.owners.erase owner }

inductive Reachable : HostBuffers → Prop
  | initial : Reachable ⟨fun _ => none, []⟩
  | step {b b' : HostBuffers} (action : Action) (h : Reachable b) (hstep : b.step action = some b') :
      Reachable b'

/-- `find_gx_host_bytes`; the dereference of an owner in the set is its object. -/
def findGxHostBytes (b : HostBuffers) (pointer size : ℕ) : Option Span :=
  if pointer = 0 ∨ size = 0 then none
  else b.owners.findSome? fun owner => (b.objects owner).bind (·.find pointer size)

/-- The registered owners are the live objects. -/
structure Inv (b : HostBuffers) : Prop where
  live : ∀ owner, owner ∈ b.owners ↔ (b.objects owner).isSome
  distinct : b.owners.Nodup

theorem Inv.step {b b' : HostBuffers} {action : Action} (h : b.Inv)
    (hstep : b.step action = some b') : b'.Inv := by
  cases action with
  | construct owner =>
    simp only [HostBuffers.step] at hstep
    split at hstep
    · cases hstep
    · next hnew =>
      cases hstep
      have hnot : owner ∉ b.owners := fun hmem => hnew ((h.live owner).mp hmem)
      refine ⟨fun o => ?_, ?_⟩
      · rw [List.mem_orderedInsert]
        by_cases ho : o = owner
        · subst ho
          simp
        · simp [ho, h.live]
      · exact (List.perm_orderedInsert _ owner b.owners).nodup_iff.mpr
          (List.nodup_cons.mpr ⟨hnot, h.distinct⟩)
  | assign owner storage =>
    simp only [HostBuffers.step] at hstep
    split at hstep
    · cases hstep
    · next hlive =>
      cases hstep
      refine ⟨fun o => ?_, h.distinct⟩
      by_cases ho : o = owner
      · subst ho
        simpa [h.live, Option.isSome_iff_ne_none] using hlive
      · simp [ho, h.live]
  | destroy owner =>
    simp only [HostBuffers.step] at hstep
    split at hstep
    · cases hstep
    · cases hstep
      refine ⟨fun o => ?_, h.distinct.erase owner⟩
      by_cases ho : o = owner
      · subst ho
        simpa using h.distinct.not_mem_erase
      · simp [ho, h.live, List.mem_erase_of_ne ho]

theorem Reachable.inv {b : HostBuffers} (h : b.Reachable) : b.Inv := by
  induction h with
  | initial => exact ⟨by simp, List.nodup_nil⟩
  | step action _ hstep ih => exact ih.step hstep

/-- A live buffer holds the span. -/
def Holds (b : HostBuffers) (span : Span) : Prop :=
  ∃ owner storage, owner ∈ b.owners ∧ b.objects owner = some storage ∧
    storage.data ≤ span.data ∧ span.data + span.size ≤ storage.data + storage.size

/-- What is found is what was asked for, in a live buffer. -/
theorem findGxHostBytes_eq_some {b : HostBuffers} {pointer size : ℕ} {span : Span}
    (h : b.findGxHostBytes pointer size = some span) :
    span = ⟨pointer, size⟩ ∧ b.Holds span := by
  rw [findGxHostBytes] at h
  split at h
  · cases h
  · obtain ⟨owner, howner, hfind⟩ := List.exists_of_findSome?_eq_some h
    obtain ⟨storage, hstorage, hspan⟩ := Option.bind_eq_some_iff.mp hfind
    obtain ⟨rfl, hstart, hend⟩ := HostStorage.find_eq_some hspan
    exact ⟨rfl, owner, storage, howner, hstorage, hstart, hend⟩

/-- An interval inside a live buffer is found. -/
theorem findGxHostBytes_isSome {b : HostBuffers} {pointer size : ℕ} (hpointer : pointer ≠ 0)
    (hsize : size ≠ 0) (h : b.Holds ⟨pointer, size⟩) :
    (b.findGxHostBytes pointer size).isSome := by
  obtain ⟨owner, storage, howner, hstorage, hstart, hend⟩ := h
  change storage.data ≤ pointer at hstart
  change pointer + size ≤ _ at hend
  rw [findGxHostBytes, if_neg (by tauto), List.findSome?_isSome_iff]
  refine ⟨owner, howner, ?_⟩
  rw [hstorage, Option.bind_some, HostStorage.find, if_neg (by omega), if_pos (by omega)]
  rfl

end HostBuffers

/-! ### The windows of Wii RAM -/

def kMem2Size : ℕ := 0x08000000

structure Bank where
  address : ℕ
  size : ℕ

/-- The windows in the order in which `read` tries them. -/
def banks : List Bank :=
  [⟨0, kMem1Size⟩, ⟨0x80000000, kMem1Size⟩, ⟨0xc0000000, kMem1Size⟩,
    ⟨kMem2PhysicalBase, kMem2Size⟩, ⟨0x90000000, kMem2Size⟩, ⟨0xd0000000, kMem2Size⟩]

/-- What `read` takes from the rest of the runtime: a window that is mapped is mapped in one piece, and
`HostRangeToGuest` takes exactly the host intervals inside of a window to their guest address. -/
structure SourceRuntime extends Runtime where
  hostRangeToGuest : (host size guest pointer bytes : ℕ) → Option ℕ
  hostRangeToGuest_eq_some : ∀ {host size guest pointer bytes result}, 0 < bytes →
    (hostRangeToGuest host size guest pointer bytes = some result ↔
      host ≤ pointer ∧ pointer + bytes ≤ host + size ∧ result = guest + (pointer - host))
  getPointer_add : ∀ {address size offset bytes}, contains address size = true →
    offset + bytes ≤ size → getPointer (address + offset) bytes = getPointer address size + offset

/-- The window is live and holds the span, which starts at a guest address. -/
structure Bank.Holds (rt : SourceRuntime) (bank : Bank) (span : Span) (guest : ℕ) : Prop where
  live : rt.contains bank.address bank.size = true
  start : rt.getPointer bank.address bank.size ≤ span.data
  stop : span.data + span.size ≤ rt.getPointer bank.address bank.size + bank.size
  guest : guest = bank.address + (span.data - rt.getPointer bank.address bank.size)

/-- The loop over the windows of `read`, up to the address that it resolves. -/
def guestAddress (rt : SourceRuntime) (pointer bytes : ℕ) : Option ℕ :=
  banks.findSome? fun bank =>
    if bytes > bank.size ∨ !rt.contains bank.address bank.size then none
    else
      rt.hostRangeToGuest (rt.getPointer bank.address bank.size) bank.size bank.address pointer bytes

theorem bank_guest_eq_some {rt : SourceRuntime} {pointer bytes guest : ℕ} (hbytes : 0 < bytes)
    (bank : Bank) :
    (if bytes > bank.size ∨ !rt.contains bank.address bank.size then none
      else rt.hostRangeToGuest (rt.getPointer bank.address bank.size) bank.size bank.address
        pointer bytes) = some guest ↔ bank.Holds rt ⟨pointer, bytes⟩ guest := by
  constructor
  · intro h
    split at h
    · cases h
    · next hmapped =>
      obtain ⟨hstart, hstop, hguest⟩ := (rt.hostRangeToGuest_eq_some hbytes).mp h
      refine ⟨?_, hstart, hstop, hguest⟩
      simpa using (not_or.mp hmapped).2
  · rintro ⟨hlive, hstart, hstop, hguest⟩
    change rt.getPointer bank.address bank.size ≤ pointer at hstart
    change pointer + bytes ≤ _ at hstop
    have hsize : ¬ bytes > bank.size := by omega
    rw [if_neg (by simp [hlive, hsize])]
    exact (rt.hostRangeToGuest_eq_some hbytes).mpr ⟨hstart, hstop, hguest⟩

theorem guestAddress_eq_some {rt : SourceRuntime} {pointer bytes guest : ℕ} (hbytes : 0 < bytes)
    (h : guestAddress rt pointer bytes = some guest) :
    ∃ bank ∈ banks, bank.Holds rt ⟨pointer, bytes⟩ guest := by
  obtain ⟨bank, hbank, hguest⟩ := List.exists_of_findSome?_eq_some h
  exact ⟨bank, hbank, (bank_guest_eq_some hbytes bank).mp hguest⟩

theorem guestAddress_eq_none {rt : SourceRuntime} {pointer bytes : ℕ} (hbytes : 0 < bytes)
    (h : guestAddress rt pointer bytes = none) :
    ∀ bank ∈ banks, ∀ guest, ¬ bank.Holds rt ⟨pointer, bytes⟩ guest := by
  intro bank hbank guest hholds
  have hsome := (bank_guest_eq_some hbytes bank).mpr hholds
  rw [List.findSome?_eq_none_iff.mp h bank hbank] at hsome
  cases hsome

/-- A window shows a whole bank. -/
theorem ramBankEnd_of_bank {bank : Bank} (hbank : bank ∈ banks) :
    ∃ window ∈ ramWindows, window ≤ bank.address ∧ ∀ physical,
      bank.address - window ≤ physical → physical < bank.address - window + bank.size →
        ramBankEnd physical = some (bank.address - window + bank.size) := by
  simp only [banks, List.mem_cons, List.not_mem_nil, or_false] at hbank
  have hmem1 : ∀ physical, physical < kMem1Size → ramBankEnd physical = some kMem1Size :=
    fun physical h => if_pos h
  have hmem2 : ∀ physical, kMem2PhysicalBase ≤ physical → physical < kMem2PhysicalEnd →
      ramBankEnd physical = some kMem2PhysicalEnd := by
    intro physical hle hlt
    rw [kMem2PhysicalBase] at hle
    rw [ramBankEnd, if_neg (by rw [kMem1Size]; omega), if_pos ⟨hle, hlt⟩]
  rcases hbank with rfl | rfl | rfl | rfl | rfl | rfl
  · exact ⟨0, by decide, by decide, fun p _ h => hmem1 p h⟩
  · exact ⟨0x80000000, by decide, by decide, fun p _ h => hmem1 p h⟩
  · exact ⟨0xc0000000, by decide, by decide, fun p _ h => hmem1 p h⟩
  · exact ⟨0, by decide, by decide, fun p => hmem2 p⟩
  · exact ⟨0x80000000, by decide, by decide, fun p => hmem2 p⟩
  · exact ⟨0xc0000000, by decide, by decide, fun p => hmem2 p⟩

/-- A span in a window lies in one bank of RAM. -/
theorem Bank.Holds.inRam {rt : SourceRuntime} {bank : Bank} {span : Span} {guest : ℕ}
    (hbank : bank ∈ banks) (h : bank.Holds rt span guest) (hsize : 0 < span.size) :
    InRam guest span.size := by
  obtain ⟨-, hstart, hstop, hguest⟩ := h
  obtain ⟨window, hwindow, hle, hend⟩ := ramBankEnd_of_bank hbank
  have hbankEnd := hend (guest - window) (by omega) (by omega)
  have hbound := ramBankEnd_le hbankEnd
  have hsplit : guest - window ||| window = guest := by
    rw [lor_window (by omega) hwindow]
    omega
  have hphysical : physicalOf guest = guest - window := by
    conv_lhs => rw [← hsplit]
    exact physicalOf_window (by omega) hwindow
  exact ⟨window, hwindow, _, by rw [hphysical, hsplit], by rw [hphysical, hbankEnd], by omega⟩

/-! ### The sources -/

inductive SourceError
  | thrown (what : String)
  /-- What `ResolveDeferredReads` throws. -/
  | unresolved
deriving DecidableEq

/-- `GxSourceBytes`. -/
structure GxSourceBytes where
  texture : Span
  palette : Span

variable {κ ω μ : Type*} {rt : SourceRuntime}

namespace GxMemorySources

/-- A call of the invocation `call`; `none` stands for more rounds of `ResolveDeferredReads` than
`fuel`. -/
def read (callbacks : Callbacks rt.toRuntime κ ω μ) (hosts : HostBuffers) (call fuel : ℕ)
    (pointer bytes : ℕ) (s : System κ ω) (m : μ) :
    Option (Attempt SourceError (System κ ω × μ) Span) :=
  if pointer = 0 ∨ bytes = 0 then some (.error (.thrown "Empty GX source interval"), s, m)
  else
    match guestAddress rt pointer bytes with
    | some guest =>
      match s.resolveDeferredReads callbacks call fuel guest bytes m with
      | none => none
      | some (.answer _, s, m) => some (.ok ⟨rt.getPointer guest bytes, bytes⟩, s, m)
      | some (_, s, m) => some (.error .unresolved, s, m)
    | none =>
      match hosts.findGxHostBytes pointer bytes with
      | some host => some (.ok host, s, m)
      | none =>
        some (.error
          (.thrown "GX source is outside live Wii RAM and registered host allocations"), s, m)

def array (callbacks : Callbacks rt.toRuntime κ ω μ) (hosts : HostBuffers) (call fuel : ℕ)
    (attr : ℕ) (a : Gx.AttrArray) (offset bytes : UInt32) (s : System κ ω) (m : μ) :
    Option (Attempt SourceError (System κ ω × μ) Span) :=
  if attr ≥ Gx.GxGeometryAttributeCount ∨ a.data = 0 ∨ offset > a.size ∨ bytes > a.size - offset then
    some (.error (.thrown "Invalid GX vertex source interval"), s, m)
  else if offset.toNat > UINTPTR_MAX - a.data then
    some (.error (.thrown "GX vertex address overflow"), s, m)
  else
    read callbacks hosts call fuel ((a.data + offset.toNat) % (UINTPTR_MAX + 1)) bytes.toNat s m

variable (A : Arithmetic) (U : Upstream)

/-- The palette is refused. -/
def invalidPalette : Option Gx.TlutObj → Bool
  | none => true
  | some p =>
    p.data == 0 || p.numEntries == 0 ||
      (p.format != U.formats.paletteIA8 && p.format != U.formats.paletteRGB565 &&
        p.format != U.formats.paletteRGB5A3)

def texture (callbacks : Callbacks rt.toRuntime κ ω μ) (hosts : HostBuffers) (call fuel : ℕ)
    (t : Gx.TexObj) (p : Option Gx.TlutObj) (s : System κ ω) (m : μ) :
    Option (Attempt SourceError (System κ ω × μ) GxSourceBytes) :=
  let indexed := GxTextureCache.indexed U t.format
  match GxTextureCache.sourceByteSize A U t with
  | .error what => some (.error (.thrown what), s, m)
  | .ok bytes =>
    if indexed && invalidPalette U p then
      some (.error (.thrown "Invalid GX palette source"), s, m)
    else
      match read callbacks hosts call fuel t.data bytes s m with
      | none => none
      | some (.error e, s, m) => some (.error e, s, m)
      | some (.ok pixels, s, m) =>
        match if indexed then p else none with
        | none => some (.ok ⟨pixels, ⟨0, 0⟩⟩, s, m)
        | some p =>
          match read callbacks hosts call fuel p.data (p.numEntries * 2) s m with
          | none => none
          | some (.error e, s, m) => some (.error e, s, m)
          | some (.ok palette, s, m) => some (.ok ⟨pixels, palette⟩, s, m)

/-! ### What a source guarantees -/

/-- No registration overlaps the bytes through any window of RAM. -/
def NotPending (s : System κ ω) (guest n : ℕ) : Prop :=
  ∀ window ∈ ramWindows, ∀ range ∈ pendingRanges s.registry.reads,
    ¬ Interval.Meets (physicalOf guest ||| window) n range.start range.length

/-- The bytes are those of one live bank, with no pending copy, or those of a live allocation outside
of RAM. -/
def Exposed (rt : SourceRuntime) (hosts : HostBuffers) (s : System κ ω) (span : Span) : Prop :=
  (∃ bank ∈ banks, ∃ guest, bank.Holds rt span guest ∧ InRam guest span.size ∧
    NotPending s guest span.size) ∨
  hosts.Holds span ∧ ∀ bank ∈ banks, ∀ guest, ¬ bank.Holds rt span guest

/-- A source was asked for between two states: a run of the registry that registers nothing, in which
all copies of the invocation materialised if it came back. -/
structure Asked (rt : SourceRuntime) (call : ℕ) (s s' : System κ ω) (ok : Bool) : Prop where
  settled : s.Settled s'
  ended : s'.calls call = none
  run : ∃ actions, s.run rt.toRuntime actions = some s' ∧
    (ok → ∀ outcome, .finish call outcome ∈ actions → outcome = .succeeded)

variable (hosts : HostBuffers) {s s' s'' : System κ ω} {call : ℕ}

theorem Exposed.settled {hosts : HostBuffers} {span : Span} (h : Exposed rt hosts s span) (hsettled : s.Settled s') :
    Exposed rt hosts s' span := by
  refine h.imp_left ?_
  rintro ⟨bank, hbank, guest, hholds, hram, hclear⟩
  refine ⟨bank, hbank, guest, hholds, hram, fun window hwindow range hrange => ?_⟩
  exact hclear window hwindow range (hsettled.pending hrange)

/-- Nothing is asked of the registry. -/
theorem Asked.refl (hcall : s.calls call = none) (ok : Bool) : Asked rt call s s ok :=
  ⟨.refl s, hcall, [], rfl, fun _ _ h => nomatch h⟩

theorem Asked.trans {ok : Bool} (h : Asked rt call s s' true) (h' : Asked rt call s' s'' ok) :
    Asked rt call s s'' ok := by
  obtain ⟨actions, hrun, houtcomes⟩ := h.run
  obtain ⟨rest, hrest, houtcomes'⟩ := h'.run
  refine ⟨h.settled.trans h'.settled, h'.ended, _, System.run_append hrun hrest, ?_⟩
  intro hok outcome hmem
  rcases List.mem_append.mp hmem with hmem | hmem
  · exact houtcomes rfl outcome hmem
  · exact houtcomes' hok outcome hmem

theorem Asked.reachable {ok : Bool} (h : Asked rt call s s' ok)
    (hs : s.Reachable rt.toRuntime) : s'.Reachable rt.toRuntime := by
  obtain ⟨actions, hrun, -⟩ := h.run
  exact hs.run hrun

/-- Enough rounds end the call: it throws, or returns a value that satisfies `Q` in the state that is
left. -/
def Ends {α : Type*} (rt : SourceRuntime) (call : ℕ) (s : System κ ω)
    (f : ℕ → Option (Attempt SourceError (System κ ω × μ) α)) (Q : α → System κ ω → Prop) : Prop :=
  ∃ r s' m', (∀ fuel, s.registry.reads.length < fuel → f fuel = some (r, s', m')) ∧
    Asked rt call s s' r.isOk ∧ ∀ a, r = .ok a → Q a s'

variable {α : Type*} {f : ℕ → Option (Attempt SourceError (System κ ω × μ) α)}
variable {Q : α → System κ ω → Prop}

/-- A call that throws before it asks the registry. -/
theorem Ends.error {e : SourceError} {m : μ} (hcall : s.calls call = none)
    (hf : ∀ fuel, f fuel = some (.error e, s, m)) : Ends rt call s f Q :=
  ⟨.error e, s, m, fun fuel _ => hf fuel, .refl hcall _, fun _ h => nomatch h⟩

theorem Ends.ok {a : α} {m : μ} (hcall : s.calls call = none)
    (hf : ∀ fuel, f fuel = some (.ok a, s, m)) (hQ : Q a s) : Ends rt call s f Q := by
  refine ⟨.ok a, s, m, fun fuel _ => hf fuel, .refl hcall _, fun a' h => ?_⟩
  cases h
  exact hQ

theorem Ends.mono {R : α → System κ ω → Prop} (h : Ends rt call s f Q)
    (himp : ∀ a s', s.Settled s' → Q a s' → R a s') : Ends rt call s f R := by
  obtain ⟨r, s', m', hf, hasked, hQ⟩ := h
  exact ⟨r, s', m', hf, hasked, fun a ha => himp a s' hasked.settled (hQ a ha)⟩

theorem read_spec (callbacks : Callbacks rt.toRuntime κ ω μ) (hs : s.Reachable rt.toRuntime)
    (haliased : s.Aliased) (hcall : s.calls call = none) (pointer bytes : ℕ) (m : μ) :
    Ends rt call s (fun fuel => read callbacks hosts call fuel pointer bytes s m)
      fun span s' => span = ⟨pointer, bytes⟩ ∧ Exposed rt hosts s' span := by
  by_cases hempty : pointer = 0 ∨ bytes = 0
  · exact .error hcall fun fuel => by rw [read, if_pos hempty]
  obtain ⟨-, hbytes⟩ := not_or.mp hempty
  have hpos : 0 < bytes := Nat.pos_of_ne_zero hbytes
  cases hguest : guestAddress rt pointer bytes with
  | none =>
    -- outside of live RAM the registry is not asked
    have hread : ∀ fuel, read callbacks hosts call fuel pointer bytes s m =
        match hosts.findGxHostBytes pointer bytes with
        | some host => some (.ok host, s, m)
        | none =>
          some (.error
            (.thrown "GX source is outside live Wii RAM and registered host allocations"), s, m) := by
      intro fuel
      rw [read, if_neg hempty, hguest]
    cases hhost : hosts.findGxHostBytes pointer bytes with
    | none => exact .error hcall fun fuel => by rw [hread, hhost]
    | some host =>
      obtain ⟨rfl, hholds⟩ := HostBuffers.findGxHostBytes_eq_some hhost
      refine .ok hcall (fun fuel => by rw [hread, hhost]) ⟨rfl, .inr ⟨hholds, ?_⟩⟩
      exact guestAddress_eq_none hpos hguest
  | some guest =>
    obtain ⟨bank, hbank, hholds⟩ := guestAddress_eq_some hpos hguest
    have hram := hholds.inRam hbank hpos
    have hphysical : physicalOf guest + bytes ≤ 0x18000000 := hram.end_le
    obtain ⟨window, hwindow, bankEnd, haddr, -, -⟩ := hram
    -- the guest's interval does not leave its window, so that every alias of it is below the end
    have hend : guest + bytes ≤ kAddressSpace := by
      have hle := window_le hwindow
      rw [haddr, lor_window (by omega) hwindow, kAddressSpace]
      omega
    have hpointer : rt.getPointer guest bytes = pointer := by
      obtain ⟨hlive, hstart, hstop, haddress⟩ := hholds
      change rt.getPointer bank.address bank.size ≤ pointer at hstart
      change pointer + bytes ≤ _ at hstop
      change guest = bank.address + (pointer - _) at haddress
      rw [haddress, rt.getPointer_add hlive (by omega)]
      exact Nat.add_sub_cancel' hstart
    obtain ⟨reply, s', m', hresolved, hloop⟩ :=
      System.resolveDeferredReads_spec callbacks hs hcall hpos hend m
    obtain ⟨actions, hrun, houtcomes⟩ := hresolved.run
    -- the registry answers that all copies on the way were written, or that one failed
    rcases hresolved.replied with rfl | rfl
    · refine ⟨.ok ⟨pointer, bytes⟩, s', m', fun fuel hfuel => ?_,
        ⟨hresolved.settled, hresolved.ended, actions, hrun, fun _ => houtcomes rfl⟩,
        fun span hspan => ?_⟩
      · simp only [read, if_neg hempty, hguest, hloop fuel hfuel, hpointer]
      · cases hspan
        have hclear := hresolved.clear rfl
        rw [haddr] at hclear
        refine ⟨rfl, .inl ⟨bank, hbank, guest, hholds, hholds.inRam hbank hpos, ?_⟩⟩
        exact (hresolved.settled.aliased haliased).clear hwindow hphysical hclear
    · refine ⟨.error .unresolved, s', m', fun fuel hfuel => ?_,
        ⟨hresolved.settled, hresolved.ended, actions, hrun, fun h => (by cases h)⟩,
        fun _ h => (by cases h)⟩
      simp only [read, if_neg hempty, hguest, hloop fuel hfuel]

theorem array_spec (callbacks : Callbacks rt.toRuntime κ ω μ) (hs : s.Reachable rt.toRuntime)
    (haliased : s.Aliased) (hcall : s.calls call = none) (attr : ℕ) (a : Gx.AttrArray)
    (ha : a.data ≤ UINTPTR_MAX) (offset bytes : UInt32) (m : μ) :
    Ends rt call s (fun fuel => array callbacks hosts call fuel attr a offset bytes s m)
      fun span s' => a.data + offset.toNat ≤ UINTPTR_MAX ∧
        offset.toNat + bytes.toNat ≤ a.size.toNat ∧
        span = ⟨a.data + offset.toNat, bytes.toNat⟩ ∧ Exposed rt hosts s' span := by
  by_cases hvalid : attr ≥ Gx.GxGeometryAttributeCount ∨ a.data = 0 ∨ offset > a.size ∨
      bytes > a.size - offset
  · exact .error hcall fun fuel => by rw [array, if_pos hvalid]
  by_cases hoverflow : offset.toNat > UINTPTR_MAX - a.data
  · exact .error hcall fun fuel => by rw [array, if_neg hvalid, if_pos hoverflow]
  obtain ⟨-, -, hoffset, hbytes⟩ : _ ∧ _ ∧ _ ∧ _ := by
    simpa only [not_or, gt_iff_lt, UInt32.not_lt, UInt32.le_iff_toNat_le] using hvalid
  rw [UInt32.toNat_sub_of_le _ _ (UInt32.le_iff_toNat_le.mpr hoffset)] at hbytes
  -- the sum does not wrap, as it was checked against the room above the pointer
  have hwrap : (a.data + offset.toNat) % (UINTPTR_MAX + 1) = a.data + offset.toNat :=
    Nat.mod_eq_of_lt (by omega)
  have harray : (fun fuel => array callbacks hosts call fuel attr a offset bytes s m) =
      fun fuel => read callbacks hosts call fuel (a.data + offset.toNat) bytes.toNat s m := by
    funext fuel
    rw [array, if_neg hvalid, if_neg hoverflow, hwrap]
  rw [harray]
  refine (read_spec hosts callbacks hs haliased hcall _ _ m).mono ?_
  rintro span s' - ⟨rfl, hexposed⟩
  exact ⟨by omega, by omega, rfl, hexposed⟩

/-- What `texture` returns: the texels, and the palette of an indexed texture. -/
def TextureSources (rt : SourceRuntime) (t : Gx.TexObj) (p : Option Gx.TlutObj) (sources : GxSourceBytes)
    (s : System κ ω) : Prop :=
  ∃ bytes, GxTextureCache.sourceByteSize A U t = .ok bytes ∧
    sources.texture = ⟨t.data, bytes⟩ ∧ Exposed rt hosts s sources.texture ∧
    if GxTextureCache.indexed U t.format then
      ∃ palette, p = some palette ∧ sources.palette = ⟨palette.data, palette.numEntries * 2⟩ ∧
        Exposed rt hosts s sources.palette
    else sources.palette = ⟨0, 0⟩

theorem texture_spec (callbacks : Callbacks rt.toRuntime κ ω μ) (hs : s.Reachable rt.toRuntime)
    (haliased : s.Aliased) (hcall : s.calls call = none) (t : Gx.TexObj) (p : Option Gx.TlutObj)
    (m : μ) :
    Ends rt call s (fun fuel => texture A U callbacks hosts call fuel t p s m)
      (TextureSources A U hosts rt t p) := by
  cases hsize : GxTextureCache.sourceByteSize A U t with
  | error what =>
    exact .error (e := .thrown what) (m := m) hcall fun fuel => by simp only [texture, hsize]
  | ok bytes =>
  by_cases hinvalid : (GxTextureCache.indexed U t.format && invalidPalette U p) = true
  · exact .error (e := .thrown "Invalid GX palette source") (m := m) hcall fun fuel => by
      simp only [texture, hsize, hinvalid, if_true]
  obtain ⟨r, s₁, m₁, hread, hasked, hpixels⟩ :=
    read_spec hosts callbacks hs haliased hcall t.data bytes m
  cases r with
  | error e =>
    refine ⟨.error e, s₁, m₁, fun fuel hfuel => ?_, hasked, fun _ h => nomatch h⟩
    simp only [texture, hsize, if_neg hinvalid, hread fuel hfuel]
  | ok pixels =>
  obtain ⟨rfl, hexposed⟩ := hpixels pixels rfl
  cases hindexed : GxTextureCache.indexed U t.format with
  | false =>
    rw [hindexed] at hinvalid
    refine ⟨.ok ⟨⟨t.data, bytes⟩, ⟨0, 0⟩⟩, s₁, m₁, fun fuel hfuel => ?_, hasked, fun sources h => ?_⟩
    · simp only [texture, hsize, if_neg hinvalid, hread fuel hfuel, hindexed, Bool.false_eq_true,
        if_false]
    · cases h
      refine ⟨bytes, hsize, rfl, hexposed, ?_⟩
      rw [hindexed]
      exact rfl
  | true =>
  rw [hindexed] at hinvalid
  cases p with
  | none => simp [invalidPalette] at hinvalid
  | some palette =>
  obtain ⟨r, s₂, m₂, hread₂, hasked₂, hpalette⟩ :=
    read_spec hosts callbacks (hasked.reachable hs) (hasked.settled.aliased haliased) hasked.ended
      palette.data (palette.numEntries * 2) m₁
  have htexture : ∀ fuel, s.registry.reads.length < fuel →
      texture A U callbacks hosts call fuel t (some palette) s m =
        match r with
        | .error e => some (.error e, s₂, m₂)
        -- the second read starts with fewer pending reads, so that the same fuel is enough
        | .ok span => some (.ok ⟨⟨t.data, bytes⟩, span⟩, s₂, m₂) := by
    intro fuel hfuel
    have hless := hasked.settled.length_le
    simp only [texture, hsize, if_neg hinvalid, hread fuel hfuel, hindexed, if_true,
      hread₂ fuel (by omega)]
    cases r <;> rfl
  cases r with
  | error e => exact ⟨.error e, s₂, m₂, htexture, hasked.trans hasked₂, fun _ h => nomatch h⟩
  | ok span =>
    refine ⟨.ok ⟨⟨t.data, bytes⟩, span⟩, s₂, m₂, htexture, hasked.trans hasked₂, fun sources h => ?_⟩
    cases h
    obtain ⟨rfl, hexposed₂⟩ := hpalette span rfl
    refine ⟨bytes, hsize, rfl, hexposed.settled hasked₂.settled, ?_⟩
    rw [hindexed]
    exact ⟨palette, rfl, rfl, hexposed₂⟩

/-- In every state of the registry that registrations in RAM lead to, `read`, `array` and `texture`
come to an end. Where they return, the bytes are those asked for, of one live window or one live
allocation; bytes of RAM have no pending copy through any window; and all copies on the way
materialised. -/
theorem sources_safe (callbacks : Callbacks rt.toRuntime κ ω μ) (hosts : HostBuffers)
    (hs : s.RamReachable rt.toRuntime) (hcall : s.calls call = none) (m : μ) :
    (∀ pointer bytes, Ends rt call s (fun fuel => read callbacks hosts call fuel pointer bytes s m)
      fun span s' => span = ⟨pointer, bytes⟩ ∧ Exposed rt hosts s' span) ∧
    (∀ attr a offset bytes, a.data ≤ UINTPTR_MAX →
      Ends rt call s (fun fuel => array callbacks hosts call fuel attr a offset bytes s m)
        fun span s' => a.data + offset.toNat ≤ UINTPTR_MAX ∧
          offset.toNat + bytes.toNat ≤ a.size.toNat ∧
          span = ⟨a.data + offset.toNat, bytes.toNat⟩ ∧ Exposed rt hosts s' span) ∧
    ∀ t p, Ends rt call s (fun fuel => texture A U callbacks hosts call fuel t p s m)
      (TextureSources A U hosts rt t p) :=
  ⟨fun pointer bytes => read_spec hosts callbacks hs.reachable hs.aliased hcall pointer bytes m,
    fun attr a offset bytes ha =>
      array_spec hosts callbacks hs.reachable hs.aliased hcall attr a ha offset bytes m,
    fun t p => texture_spec A U hosts callbacks hs.reachable hs.aliased hcall t p m⟩

/-! ### The callbacks of copies -/

variable {π : Type*} {be : Backend π} {addr length : ℕ}

/-- The callback of a copy writes RAM or throws, and leaves the registry alone. -/
def copyCallbacks (rt : Runtime) (be : Backend π) :
    Callbacks rt Unit (PendingColorCopy π) (ℕ → UInt8) where
  run _ _ pending s ram :=
    match materialize be pending ram with
    | none => ((s, ram), .threw)
    | some ram => ((s, ram), .succeeded)
  settles _ _ pending s ram := by
    refine ⟨[], ?_, fun _ h => nomatch h⟩
    cases materialize be pending ram <;> rfl

/-- All conversions succeed. -/
def noFaults : Faults := ⟨fun _ => false, false, false, false⟩

/-- The copy store resolves as its callbacks do under the protocol. -/
theorem resolveLoop_copies {rt : Runtime} {s : System Unit (PendingColorCopy π)} {m : Machine π}
    (hregistry : s.registry = m.registry)
    (hcall : s.calls call = some ⟨addr, length, none⟩) (fuel : ℕ)
    (hfuel : m.registry.reads.length < fuel) :
    ∃ reply s', s.resolveLoop (copyCallbacks rt be) call fuel m.ram =
        some (reply, s', (resolveLoop rt be noFaults addr length fuel m).1.ram) ∧
      s'.registry = (resolveLoop rt be noFaults addr length fuel m).1.registry ∧
      (reply = .answer true ↔ (resolveLoop rt be noFaults addr length fuel m).2 = true) := by
  induction fuel generalizing s m with
  | zero => omega
  | succ fuel ih =>
  simp only [System.resolveLoop, System.step, hcall, resolveLoop, hregistry]
  cases hfind : findDeferredRead rt addr length m.registry with
  | none => exact ⟨_, _, rfl, hregistry, by simp⟩
  | some found =>
  cases hexec : found.executing with
  | true =>
    simp only [hexec, if_true]
    exact ⟨_, _, rfl, hregistry, by simp⟩
  | false =>
  simp only [hexec, Bool.false_eq_true, if_false, System.setCall_self, Option.bind_some,
    copyCallbacks, noFaults]
  cases hram : materialize be found.user m.ram with
  | none =>
    simp only [System.setCall_self]
    exact ⟨_, _, rfl, rfl, by simp⟩
  | some ram =>
    simp only [System.setCall_self]
    have hless : (finishDeferredRead rt { found with executing := true }
        (setExecuting found.token true m.registry)).reads.length < m.registry.reads.length := by
      rw [finishDeferredRead_marked]
      exact System.length_finishDeferredRead_lt (List.mem_of_find?_eq_some hfind)
    exact ih (m := { m with
      registry := finishDeferredRead rt { found with executing := true }
        (setExecuting found.token true m.registry)
      ram := ram
      materialised := found.token :: m.materialised }) rfl System.setCall_self
        (hless.trans_le (Nat.le_of_lt_succ hfuel))

/-- The windows of RAM in one piece, at the host address one. -/
def ramOnly : SourceRuntime where
  toRuntime := .ramOnly
  hostRangeToGuest host size guest pointer bytes :=
    if host ≤ pointer ∧ pointer + bytes ≤ host + size then some (guest + (pointer - host)) else none
  hostRangeToGuest_eq_some := by
    intro host size guest pointer bytes result _
    split
    · next h => simp [h, eq_comm]
    · next h => exact iff_of_false nofun fun hall => h ⟨hall.1, hall.2.1⟩
  getPointer_add := by
    intro address size offset bytes hcontains hle
    have hmod : ∀ a : ℕ, a &&& 0x3fffffff = a % 2 ^ 30 := fun a => Nat.and_two_pow_sub_one_eq_mod a 30
    simp only [Runtime.ramOnly, hmod, decide_eq_true_eq, kMem2PhysicalEnd] at hcontains ⊢
    omega

/-- Callbacks that do nothing but succeed. -/
def succeeding (rt : Runtime) (κ ω : Type*) : Callbacks rt κ ω Unit where
  run _ _ _ s m := ((s, m), .succeeded)
  settles _ _ _ _ _ := ⟨[], rfl, fun _ h => nomatch h⟩

/-- Bytes of a copy that was registered through another window. -/
theorem sources_safe_pending : ∃ s : System Unit ℕ,
    System.empty.run .ramOnly [.registerRamRead 0x80008000 16 (some ()) (some 7)] = some s ∧
      Ends ramOnly 0 s
        (fun fuel => read (succeeding ramOnly.toRuntime Unit ℕ) ⟨fun _ => none, []⟩ 0 fuel 0x8001 4
          s ())
        fun span s' => span = ⟨0x8001, 4⟩ ∧ Exposed ramOnly ⟨fun _ => none, []⟩ s' span := by
  refine ⟨_, rfl, ?_⟩
  have hempty : System.empty.RamReachable ramOnly.toRuntime := .initial System.empty_initial
  have hs : System.RamReachable ramOnly.toRuntime (System.empty.register
      (registerDeferredRamRead .ramOnly 0x80008000 16 (some ()) (some 7) System.empty.registry).2) :=
    hempty.step (.registerRamRead 0x80008000 16 (some ()) (some 7)) nofun rfl
  exact (sources_safe .modular GxTextureCache.plainUpstream (succeeding ramOnly.toRuntime Unit ℕ) _ hs rfl ()).1
    0x8001 4

end GxMemorySources

end Gpu
