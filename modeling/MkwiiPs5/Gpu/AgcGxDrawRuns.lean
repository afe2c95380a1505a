import MkwiiPs5.Gpu.AgcGxDraw
import MkwiiPs5.History
import MkwiiPs5.Loop

/-!
# The protocol of the batches

What the histories of batched draws have in common, however the completion label grows: the storage
of a batch that is not complete is not written, its owners are not released, and what a draw reads
is what its packet said.
-/

namespace Gpu.AgcGxDraw

open AgcBlit (Target)

/-! ### Histories -/

/-- A failure after which everything is refused. -/
def Failure.latched : Failure → Bool
  | .timeout => true
  | .submission => true
  | _ => false

def Broken (past : List Event) : Prop := ∃ failure, Event.threw failure ∈ past ∧ failure.latched = true

/-- No batch that is not complete is in the slot. -/
def Vacant (slot : ℕ) (past : List Event) : Prop := ∀ s ∈ pending past, s.slot ≠ slot

/-- The upload storage in use has the given bytes at an address. -/
def Batch.At (b : Batch) (address : ℕ) (bytes : List UInt8) : Prop :=
  ∃ buf, b.upload = some buf ∧ buf.address ≤ address ∧
    address + bytes.length ≤ buf.address + b.uploadUsed ∧
    Overlay.load buf.bytes address bytes.length = bytes

/-- What the commands of a draw refer to is what its packet said. -/
structure Batch.Shows (b : Batch) (r : Recorded) : Prop where
  geometry : b.At r.commands.geometry.address r.packet.geometry
  geometrySize : r.commands.geometry.size = r.packet.geometry.length
  vertex : b.At r.commands.vertex.address r.packet.vertexBlock
  vertexSize : r.commands.vertex.size = VertexBytes
  material : b.At r.commands.material.address r.packet.material.uniforms.1
  materialSize : r.commands.material.size = UniformBytes
  indices : b.At r.commands.indices r.packet.indexBytes
  indexCount : r.commands.indexCount = r.packet.indices.length
  registers : r.commands.registers + r.commands.registerCount ≤ b.registerUsed
  context : Overlay.load b.registers r.commands.registers r.commands.registerCount = r.context

structure Batch.Retains (b : Batch) (r : Recorded) : Prop where
  material : r.packet.material ∈ b.materials
  color : ∃ t ∈ b.colors, t.id = r.color.id
  depth : ∃ t ∈ b.depths, t.id = r.depth.id

/-- The storage suffices for what is in use. -/
structure Batch.Fits (b : Batch) : Prop where
  upload : b.uploadUsed ≤ b.capacity
  registers : b.registerUsed ≤ RegisterCapacity
  words : b.room ≤ WordCapacity

/-- A batch that may be submitted: its fence is the serial of the last draw, and its commands are
those of its draws. -/
structure Submission.Sound (s : Submission) (past : List Event) : Prop where
  last : lastRecord past = some (s.slot, s.serial)
  fence : s.batch.serial = s.serial
  logged : ∀ r ∈ s.batch.recorded, Event.record s.slot r.serial ∈ past
  commands : s.batch.commands = s.batch.recorded.map (·.commands)
  shown : ∀ r ∈ s.batch.recorded, s.batch.Shows r
  retained : ∀ r ∈ s.batch.recorded, s.batch.Retains r
  fits : s.batch.Fits

/-- What may be done. -/
def Event.Safe : Event → List Event → Prop
  | .write slot _ start size room, past => Vacant slot past ∧ ¬ Broken past ∧ start + size ≤ room
  | .replace slot, past => Vacant slot past ∧ ¬ Broken past
  | .release slot, past => Vacant slot past ∧ ¬ Broken past
  | .record _ serial, past => ∀ slot' serial', Event.record slot' serial' ∈ past → serial' < serial
  | .submit s, past => Vacant s.slot past ∧ ¬ Broken past ∧ s.Sound past
  | .finished, past => pending past = []
  | .destroyed, past => pending past = [] ∧ ¬ Broken past
  | .reach label, past => reached past ≤ label
  | .threw _, _ => True

/-- Events that submit, complete and record nothing. -/
def Event.Quiet : Event → Prop
  | .record _ _ => False
  | .submit _ => False
  | .reach _ => False
  | _ => True

theorem broken_cons {e : Event} {past : List Event} :
    Broken (e :: past) ↔ (∃ failure, e = .threw failure ∧ failure.latched = true) ∨ Broken past :=
  History.exists_mem_cons

section Quiet

variable {e : Event} (h : e.Quiet) (past : List Event)

include h

theorem Event.Quiet.submissions : submissions (e :: past) = submissions past := by
  cases e <;> first | rfl | exact h.elim

theorem Event.Quiet.reached : reached (e :: past) = reached past := by
  cases e <;> first | rfl | exact h.elim

theorem Event.Quiet.lastRecord : lastRecord (e :: past) = lastRecord past := by
  cases e <;> first | rfl | exact h.elim

theorem Event.Quiet.pending : pending (e :: past) = pending past := by
  rw [AgcGxDraw.pending, h.submissions, h.reached, AgcGxDraw.pending]

theorem Event.Quiet.record_mem {slot serial : ℕ} :
    Event.record slot serial ∈ e :: past ↔ Event.record slot serial ∈ past := by
  rw [List.mem_cons, or_iff_right_iff_imp]
  rintro rfl
  exact h.elim

end Quiet

/-! ### Batches -/

theorem le_aligned (n : ℕ) : n ≤ aligned n := by
  rw [aligned]
  omega

/-- A batch that is recorded. -/
structure Recording (b : Batch) : Prop where
  created : b.created = true
  submitted : b.submitted = false
  upload : b.upload.isSome = true
  shown : ∀ r ∈ b.recorded, b.Shows r
  retained : ∀ r ∈ b.recorded, b.Retains r
  draws : b.recorded.length = b.draws
  ready : b.overflow = false → 8 ≤ b.room → b.commands = b.recorded.map (·.commands)
  vertex : ∀ offset ∈ b.vertexOffset, offset + VertexBytes ≤ b.uploadUsed
  material : ∀ offset ∈ b.materialOffset, offset + UniformBytes ≤ b.uploadUsed

/-- What is placed in a batch stays where it is. -/
structure Batch.Keeps (b b' : Batch) : Prop where
  at_ : ∀ address bytes, b.At address bytes → b'.At address bytes
  address : b'.address = b.address
  registerUsed : b.registerUsed ≤ b'.registerUsed
  registers : ∀ start count, start + count ≤ b.registerUsed →
    Overlay.load b'.registers start count = Overlay.load b.registers start count

theorem Batch.Keeps.refl (b : Batch) : b.Keeps b := ⟨fun _ _ h => h, rfl, le_rfl, fun _ _ _ => rfl⟩

theorem Batch.Keeps.trans {b₁ b₂ b₃ : Batch} (h : b₁.Keeps b₂) (h' : b₂.Keeps b₃) : b₁.Keeps b₃ where
  at_ address bytes hat := h'.at_ address bytes (h.at_ address bytes hat)
  address := h'.address.trans h.address
  registerUsed := h.registerUsed.trans h'.registerUsed
  registers start count hle :=
    (h'.registers start count (hle.trans h.registerUsed)).trans (h.registers start count hle)

theorem Batch.Shows.keeps {b b' : Batch} {r : Recorded} (h : b.Shows r) (hkeeps : b.Keeps b') :
    b'.Shows r where
  geometry := hkeeps.at_ _ _ h.geometry
  geometrySize := h.geometrySize
  vertex := hkeeps.at_ _ _ h.vertex
  vertexSize := h.vertexSize
  material := hkeeps.at_ _ _ h.material
  materialSize := h.materialSize
  indices := hkeeps.at_ _ _ h.indices
  indexCount := h.indexCount
  registers := h.registers.trans hkeeps.registerUsed
  context := (hkeeps.registers _ _ h.registers).trans h.context

/-- A batch of which nothing but the words for commands changes. -/
theorem Batch.Keeps.of_eq {b b' : Batch} (hupload : b'.upload = b.upload)
    (hused : b'.uploadUsed = b.uploadUsed) (hregisters : b'.registers = b.registers)
    (hcount : b'.registerUsed = b.registerUsed) : b.Keeps b' where
  at_ address bytes hat := by
    obtain ⟨buf, hbuf, hlo, hhi, hload⟩ := hat
    exact ⟨buf, hupload.trans hbuf, hlo, hused ▸ hhi, hload⟩
  address := by rw [Batch.address, hupload, Batch.address]
  registerUsed := hcount.ge
  registers start count _ := by rw [hregisters]

theorem Batch.keeps_placed (b : Batch) (bytes : List UInt8) : b.Keeps (b.placed bytes) where
  at_ address data hat := by
    obtain ⟨buf, hbuf, hlo, hhi, hload⟩ := hat
    refine ⟨buf.write b.uploadUsed bytes, by rw [Batch.placed, hbuf]; rfl, hlo, ?_, ?_⟩
    · exact hhi.trans (Nat.add_le_add_left (Nat.le_add_right _ _) _)
    · refine (Overlay.load_write_of_not_meets fun hmeets => ?_).trans hload
      exact absurd hmeets.1 (Nat.not_lt.mpr hhi)
  address := by
    rw [Batch.placed, Batch.address, Batch.address]
    cases b.upload <;> rfl
  registerUsed := le_rfl
  registers _ _ _ := rfl

theorem Batch.at_placed {b : Batch} (hupload : b.upload.isSome = true) (bytes : List UInt8) :
    (b.placed bytes).At (b.address + b.uploadUsed) bytes := by
  obtain ⟨buf, hbuf⟩ := Option.isSome_iff_exists.mp hupload
  have haddress : b.address = buf.address := by rw [Batch.address, hbuf, Option.elim_some]
  have hle := le_aligned bytes.length
  refine ⟨buf.write b.uploadUsed bytes, by rw [Batch.placed, hbuf]; rfl, ?_, ?_, ?_⟩
  · rw [haddress]
    exact Nat.le_add_right _ _
  · change _ ≤ buf.address + (b.uploadUsed + aligned bytes.length)
    omega
  · rw [haddress]
    exact Overlay.load_write _ _ _

theorem Recording.placed {b : Batch} (h : Recording b) (bytes : List UInt8) :
    Recording (b.placed bytes) where
  created := h.created
  submitted := h.submitted
  upload := by
    rw [Batch.placed, Option.isSome_map]
    exact h.upload
  shown r hr := (h.shown r hr).keeps (b.keeps_placed bytes)
  retained r hr := ⟨(h.retained r hr).material, (h.retained r hr).color, (h.retained r hr).depth⟩
  draws := h.draws
  ready := h.ready
  vertex offset ho := (h.vertex offset ho).trans (Nat.le_add_right _ _)
  material offset ho := (h.material offset ho).trans (Nat.le_add_right _ _)

/-! ### The invariant -/

variable {env : Environment} {shaders : Shaders} {w w' : World} {slot : ℕ}

/-- A batch that is open, in a slot, after some events. -/
structure Open (past : List Event) (slot : ℕ) (b : Batch) : Prop where
  recording : Recording b
  range : slot < InFlightSlots
  last : 0 < b.draws → lastRecord past = some (slot, b.serial)
  logged : ∀ r ∈ b.recorded, Event.record slot r.serial ∈ past

theorem Open.cons {past : List Event} {e : Event} {b : Batch} (h : Open past slot b)
    (hquiet : e.Quiet) : Open (e :: past) slot b where
  recording := h.recording
  range := h.range
  last hdraws := (hquiet.lastRecord past).trans (h.last hdraws)
  logged r hr := List.mem_cons_of_mem _ (h.logged r hr)

/-- A batch that is not complete is as it was when it was submitted. -/
structure Holds (w : World) (s : Submission) : Prop where
  range : s.slot < InFlightSlots
  batch : w.batches s.slot = s.batch
  created : s.batch.created = true
  submitted : s.batch.submitted = true
  serial : s.batch.serial = s.serial

theorem Holds.congr {s : Submission} (h : Holds w s)
    (hbatch : w'.batches s.slot = w.batches s.slot) : Holds w' s :=
  ⟨h.range, hbatch.trans h.batch, h.created, h.submitted, h.serial⟩

structure Inv (w : World) : Prop where
  safe : History.Ok Event.Safe w.log
  label : w.label = reached w.log
  held : ∀ s ∈ pending w.log, Holds w s
  opened : ∀ slot, w.opened = some slot → Open w.log slot (w.batches slot)
  fits : ∀ slot, (w.batches slot).Fits
  recorded : ∀ slot serial, Event.record slot serial ∈ w.log → serial ≤ w.serial
  last : ∀ slot serial, lastRecord w.log = some (slot, serial) → serial = w.serial
  submitted : ∀ s ∈ submissions w.log, s.serial ≤ w.submittedSerial
  submittedSerial : w.submittedSerial ≤ w.serial
  unbroken : w.failed = false → ¬ Broken w.log

/-- An event that submits, completes and records nothing. -/
theorem Inv.note {e : Event} (h : Inv w) (hquiet : e.Quiet) (hsafe : e.Safe w.log)
    (hthrew : ∀ failure, e = .threw failure → failure.latched = true → w.failed = true) :
    Inv (w.note e) where
  safe := ⟨hsafe, h.safe⟩
  label := h.label.trans (hquiet.reached w.log).symm
  held s hs := (h.held s (hquiet.pending w.log ▸ hs)).congr rfl
  opened slot hslot := (h.opened slot hslot).cons hquiet
  fits := h.fits
  recorded slot serial hmem := h.recorded slot serial ((hquiet.record_mem w.log).mp hmem)
  last slot serial hlast := h.last slot serial ((hquiet.lastRecord w.log).symm.trans hlast)
  submitted s hs := h.submitted s (hquiet.submissions w.log ▸ hs)
  submittedSerial := h.submittedSerial
  unbroken hfailed hbroken := by
    rcases broken_cons.mp hbroken with ⟨failure, rfl, hlatched⟩ | hbroken
    · exact absurd (hfailed.symm.trans (hthrew failure rfl hlatched)) nofun
    · exact h.unbroken hfailed hbroken

@[simp]
theorem batch_setBatch (w : World) (slot : ℕ) (b : Batch) : (w.setBatch slot b).batches slot = b :=
  Function.update_self ..

@[simp]
theorem batches_note (w : World) (e : Event) : (w.note e).batches = w.batches := rfl

@[simp]
theorem batches_tick (w : World) : w.tick.batches = w.batches := rfl

theorem Inv.tick (h : Inv w) : Inv w.tick :=
  ⟨h.safe, h.label, fun s hs => (h.held s hs).congr rfl, h.opened, h.fits, h.recorded, h.last,
    h.submitted, h.submittedSerial, h.unbroken⟩

theorem Inv.fail (h : Inv w) : Inv w.fail :=
  ⟨h.safe, h.label, fun s hs => (h.held s hs).congr rfl, h.opened, h.fits, h.recorded, h.last,
    h.submitted, h.submittedSerial, nofun⟩

theorem Inv.close (h : Inv w) : Inv { w with opened := none } :=
  ⟨h.safe, h.label, fun s hs => (h.held s hs).congr rfl, nofun, h.fits, h.recorded, h.last,
    h.submitted, h.submittedSerial, h.unbroken⟩

theorem Inv.throw (h : Inv w) {β : Type} {failure : Failure} {Q : β → World → Prop}
    (hlatched : failure.latched = true → w.failed = true) :
    (w.throw failure : Result β).Post Q Inv := by
  refine Attempt.post_error (h.note trivial trivial ?_)
  rintro _ ⟨⟩ hlatch
  exact hlatched hlatch

/-- A batch changes that is not on its way through the graphics processor. -/
theorem Inv.setBatch (h : Inv w) (hvacant : Vacant slot w.log) {b : Batch} (hfits : b.Fits)
    (hopen : w.opened = some slot → Open w.log slot b) : Inv (w.setBatch slot b) where
  safe := h.safe
  label := h.label
  held s hs := (h.held s hs).congr (Function.update_of_ne (hvacant s hs) _ _)
  opened slot' hslot := by
    rw [World.setBatch]
    dsimp only
    by_cases heq : slot' = slot
    · subst heq
      rw [Function.update_self]
      exact hopen hslot
    · rw [Function.update_of_ne heq]
      exact h.opened slot' hslot
  fits slot' := by
    rw [World.setBatch]
    dsimp only
    by_cases heq : slot' = slot
    · subst heq
      rw [Function.update_self]
      exact hfits
    · rw [Function.update_of_ne heq]
      exact h.fits slot'
  recorded := h.recorded
  last := h.last
  submitted := h.submitted
  submittedSerial := h.submittedSerial
  unbroken := h.unbroken

theorem Inv.vacant_of_not_submitted (h : Inv w) (hfree : (w.batches slot).submitted = false) :
    Vacant slot w.log := by
  rintro s hs rfl
  have hheld := h.held s hs
  rw [hheld.batch, hheld.submitted] at hfree
  exact absurd hfree nofun

theorem Inv.vacant_of_not_created (h : Inv w) (hfree : (w.batches slot).created = false) :
    Vacant slot w.log := by
  rintro s hs rfl
  have hheld := h.held s hs
  rw [hheld.batch, hheld.created] at hfree
  exact absurd hfree nofun

/-- A batch whose serial the label has reached is not in use any more. -/
theorem Inv.vacant_of_reached (h : Inv w) (hreached : (w.batches slot).serial ≤ w.label) :
    Vacant slot w.log := by
  rintro s hs rfl
  have hheld := h.held s hs
  have hlt := of_decide_eq_true (List.mem_filter.mp hs).2
  rw [hheld.batch, hheld.serial, h.label] at hreached
  exact absurd hlt (Nat.not_lt.mpr hreached)

theorem Inv.vacant_of_opened (h : Inv w) (hopened : w.opened = some slot) : Vacant slot w.log :=
  h.vacant_of_not_submitted (h.opened slot hopened).recording.submitted

/-- Where the label has reached the last serial submitted, every batch is complete. -/
theorem Inv.pending_eq_nil (h : Inv w) (hreached : w.submittedSerial ≤ w.label) :
    pending w.log = [] := by
  refine List.eq_nil_iff_forall_not_mem.mpr fun s hs => ?_
  obtain ⟨hmem, hlt⟩ := List.mem_filter.mp hs
  have hle := (h.submitted s hmem).trans hreached
  rw [h.label] at hle
  exact absurd (of_decide_eq_true hlt) (Nat.not_lt.mpr hle)

/-! ### The label -/

/-- What neither the label nor the release of owners changes. -/
structure Calm (w w' : World) : Prop where
  opened : w'.opened = w.opened
  failed : w'.failed = w.failed
  submittedSerial : w'.submittedSerial = w.submittedSerial
  label : w.label ≤ w'.label
  created : ∀ slot, (w'.batches slot).created = (w.batches slot).created
  serial : ∀ slot, (w'.batches slot).serial = (w.batches slot).serial

theorem Calm.refl (w : World) : Calm w w := ⟨rfl, rfl, rfl, le_rfl, fun _ => rfl, fun _ => rfl⟩

theorem Calm.trans {w₁ w₂ w₃ : World} (h : Calm w₁ w₂) (h' : Calm w₂ w₃) : Calm w₁ w₃ where
  opened := h'.opened.trans h.opened
  failed := h'.failed.trans h.failed
  submittedSerial := h'.submittedSerial.trans h.submittedSerial
  label := h.label.trans h'.label
  created slot := (h'.created slot).trans (h.created slot)
  serial slot := (h'.serial slot).trans (h.serial slot)

theorem Calm.tick (h : Calm w w') : Calm w w'.tick :=
  ⟨h.opened, h.failed, h.submittedSerial, h.label, h.created, h.serial⟩

theorem calm_completed (env : Environment) (w : World) : Calm w (completed env w) :=
  ⟨rfl, rfl, rfl, Nat.le_add_right _ _, fun _ => rfl, fun _ => rfl⟩

theorem Inv.completed (h : Inv w) (env : Environment) : Inv (completed env w) := by
  have hle : reached w.log ≤ w.label + env.advances w.clock := by
    rw [← h.label]
    exact Nat.le_add_right _ _
  constructor
  · exact ⟨hle, h.safe⟩
  · rfl
  · intro s hs
    -- what is still pending was pending before
    obtain ⟨hmem, hlt⟩ := List.mem_filter.mp hs
    refine (h.held s (List.mem_filter.mpr ⟨hmem, decide_eq_true ?_⟩)).congr rfl
    exact hle.trans_lt (of_decide_eq_true hlt)
  · intro slot hslot
    have hopen := h.opened slot hslot
    exact ⟨hopen.recording, hopen.range, hopen.last,
      fun r hr => List.mem_cons_of_mem _ (hopen.logged r hr)⟩
  · exact h.fits
  · intro slot serial hmem
    rcases List.mem_cons.mp hmem with heq | hmem
    · exact absurd heq nofun
    · exact h.recorded slot serial hmem
  · exact h.last
  · exact h.submitted
  · exact h.submittedSerial
  · intro hfailed hbroken
    rcases broken_cons.mp hbroken with ⟨failure, hthrew, _⟩ | hbroken
    · exact absurd hthrew nofun
    · exact h.unbroken hfailed hbroken

/-! ### Releasing -/

theorem Inv.release (h : Inv w) (hfailed : w.failed = false) (hvacant : Vacant slot w.log)
    (hclosed : w.opened ≠ some slot) {b : Batch} (hfits : b.Fits) :
    Inv ((w.setBatch slot b).note (.release slot)) :=
  (h.setBatch hvacant hfits fun hopened => absurd hopened hclosed).note trivial
    ⟨hvacant, h.unbroken hfailed⟩ nofun

/-- A change of one batch that leaves its serial. -/
theorem Calm.setBatch (w : World) (e : Event) {b : Batch}
    (hcreated : b.created = (w.batches slot).created)
    (hserial : b.serial = (w.batches slot).serial) : Calm w ((w.setBatch slot b).note e) where
  opened := rfl
  failed := rfl
  submittedSerial := rfl
  label := le_rfl
  created slot' := by
    by_cases heq : slot' = slot
    · subst heq
      exact (congrArg Batch.created (Function.update_self ..)).trans hcreated
    · exact congrArg Batch.created (Function.update_of_ne heq _ _)
  serial slot' := by
    by_cases heq : slot' = slot
    · subst heq
      exact (congrArg Batch.serial (Function.update_self ..)).trans hserial
    · exact congrArg Batch.serial (Function.update_of_ne heq _ _)

theorem retireSlot_spec (h : Inv w) (hfailed : w.failed = false) {label : ℕ}
    (hlabel : label ≤ w.label) (slot : ℕ) :
    Inv (w.retireSlot label slot) ∧ Calm w (w.retireSlot label slot) := by
  rw [World.retireSlot]
  dsimp only
  split
  · next hdone =>
    have hvacant := h.vacant_of_reached (hdone.2.trans hlabel)
    refine ⟨h.release hfailed hvacant ?_ ?_, Calm.setBatch w _ rfl rfl⟩
    · intro hopened
      have hsubmitted := (h.opened slot hopened).recording.submitted
      exact absurd (hsubmitted.symm.trans hdone.1) nofun
    · exact ⟨(h.fits slot).upload, (h.fits slot).registers, (h.fits slot).words⟩
  · exact ⟨h, .refl w⟩

theorem retire_spec (env : Environment) (h : Inv w) (hfailed : w.failed = false) :
    Inv (retire env w) ∧ Calm w (retire env w) := by
  rw [retire]
  have hinv := h.completed env
  have hcalm := calm_completed env w
  generalize completed env w = w₁ at hinv hcalm
  have hloop : ∀ (slots : List ℕ) (w₂ : World), Inv w₂ → Calm w₁ w₂ →
      Inv (slots.foldl (World.retireSlot w₁.label) w₂) ∧
        Calm w₁ (slots.foldl (World.retireSlot w₁.label) w₂) := by
    intro slots
    induction slots with
    | nil => exact fun w₂ hinv₂ hcalm₂ => ⟨hinv₂, hcalm₂⟩
    | cons slot slots ih =>
      intro w₂ hinv₂ hcalm₂
      have hfailed₂ := (hcalm.trans hcalm₂).failed.trans hfailed
      obtain ⟨hinv₃, hcalm₃⟩ := retireSlot_spec hinv₂ hfailed₂ hcalm₂.label slot
      exact ih _ hinv₃ (hcalm₂.trans hcalm₃)
  obtain ⟨hleft, hcalm'⟩ := hloop (List.range InFlightSlots) w₁ hinv (.refl w₁)
  exact ⟨hleft, hcalm.trans hcalm'⟩

/-! ### Waiting -/

/-- What a wait for a serial leaves where it returns. -/
structure Waited (w : World) (target : ℕ) (w' : World) : Prop where
  inv : Inv w'
  calm : Calm w w'
  reached : target ≤ w'.label

theorem waitPolls_post (target : ℕ) (slices : List Bool) (h : Inv w) (hfailed : w.failed = false) :
    (waitPolls env target slices w).Post (fun _ w' => Waited w target w') Inv := by
  induction slices generalizing w with
  | nil => exact h.fail.throw fun _ => rfl
  | cons slice slices ih =>
    rw [waitPolls]
    have hinv := h.completed env
    have hcalm := calm_completed env w
    have hfailed₁ := hcalm.failed.trans hfailed
    generalize completed env w = w₁ at hinv hcalm hfailed₁
    split
    · next hreached =>
      obtain ⟨hretired, hcalm'⟩ := retire_spec env hinv hfailed₁
      exact ⟨hretired, hcalm.trans hcalm', hreached.trans hcalm'.label⟩
    · split
      · split
        · exact (ih hinv.tick hfailed₁).mono fun _ w' hwaited =>
            ⟨hwaited.inv, hcalm.tick.trans hwaited.calm, hwaited.reached⟩
        · exact hinv.tick.throw nofun
      · exact (ih hinv hfailed₁).mono fun _ w' hwaited =>
          ⟨hwaited.inv, hcalm.trans hwaited.calm, hwaited.reached⟩

theorem waitUntil_post (env : Environment) (target : ℕ) (h : Inv w) (hfailed : w.failed = false) :
    (waitUntil env target w).Post (fun _ w' => Waited w target w') Inv :=
  waitPolls_post target polls h hfailed

/-! ### Submitting -/

theorem Submission.Sound.of_open {past : List Event} {slot : ℕ} {b b' : Batch}
    (h : Open past slot b) (hdraws : b.draws ≠ 0) (hoverflow : b.overflow = false)
    (hroom : 8 ≤ b.room) (hfits : b'.Fits)
    (heq : b' = { b with room := b.room - 8, submitted := true }) :
    Submission.Sound ⟨slot, b'.serial, b'⟩ past := by
  subst heq
  have hkeeps : b.Keeps { b with room := b.room - 8, submitted := true } := .of_eq rfl rfl rfl rfl
  constructor
  · exact h.last (Nat.pos_of_ne_zero hdraws)
  · rfl
  · exact h.logged
  · exact h.recording.ready hoverflow hroom
  · exact fun r hr => (h.recording.shown r hr).keeps hkeeps
  · intro r hr
    have hretains := h.recording.retained r hr
    exact ⟨hretains.material, hretains.color, hretains.depth⟩
  · exact hfits

/-- A batch that is ready is handed over. -/
theorem Inv.submit (h : Inv w) (hfailed : w.failed = false) (hclosed : w.opened = none)
    (hopen : Open w.log slot (w.batches slot)) (hdraws : (w.batches slot).draws ≠ 0)
    (hoverflow : (w.batches slot).overflow = false) (hroom : 8 ≤ (w.batches slot).room) :
    Inv (w.submit slot) := by
  have hvacant := h.vacant_of_not_submitted hopen.recording.submitted
  have hwords := (h.fits slot).words
  have hwritten : Inv (w.note (.write slot .commands (WordCapacity - (w.batches slot).room) 8
      WordCapacity)) := by
    refine h.note trivial ⟨hvacant, h.unbroken hfailed, ?_⟩ nofun
    omega
  have hlast := h.last slot _ (hopen.last (Nat.pos_of_ne_zero hdraws))
  rw [World.submit]
  dsimp only [World.note, World.setBatch]
  set b' : Batch := { w.batches slot with room := (w.batches slot).room - 8, submitted := true }
  have hfits : b'.Fits :=
    ⟨(h.fits slot).upload, (h.fits slot).registers, (Nat.sub_le _ _).trans hwords⟩
  have hset := hwritten.setBatch hvacant hfits fun hopened => absurd (hclosed.symm.trans hopened) nofun
  have hsound := Submission.Sound.of_open (hopen.cons (e := .write slot .commands
    (WordCapacity - (w.batches slot).room) 8 WordCapacity) trivial) hdraws hoverflow hroom hfits rfl
  constructor
  · exact ⟨⟨hvacant, hwritten.unbroken hfailed, hsound⟩, hset.safe⟩
  · exact hset.label
  · intro s hs
    obtain ⟨hmem, hlt⟩ := List.mem_filter.mp hs
    rcases List.mem_cons.mp hmem with rfl | hmem
    · exact ⟨hopen.range, Function.update_self .., hopen.recording.created, rfl, rfl⟩
    · exact (hset.held s (List.mem_filter.mpr ⟨hmem, hlt⟩)).congr rfl
  · exact fun slot' hslot => absurd (hclosed.symm.trans hslot) nofun
  · exact hset.fits
  · intro slot' serial hmem
    rcases List.mem_cons.mp hmem with heq | hmem
    · exact absurd heq nofun
    · exact hset.recorded slot' serial hmem
  · exact hset.last
  · intro s hs
    rcases List.mem_cons.mp hs with rfl | hs
    · exact le_rfl
    · exact (hset.submitted s hs).trans (h.submittedSerial.trans hlast.ge)
  · exact hlast.le
  · intro hfailed hbroken
    rcases broken_cons.mp hbroken with ⟨failure, hthrew, _⟩ | hbroken
    · exact absurd hthrew nofun
    · exact hset.unbroken hfailed hbroken

/-- What a submission leaves where it returns: no batch is open. -/
structure Closed (w : World) : Prop where
  inv : Inv w
  opened : w.opened = none
  failed : w.failed = false

theorem submitOpen_post (h : Inv w) (hfailed : w.failed = false) :
    (submitOpen env w).Post (fun _ w' => Closed w') Inv := by
  unfold submitOpen
  split
  · next hopened => exact Attempt.post_ok ⟨h, hopened, hfailed⟩
  · next slot hslot =>
    have hopen := h.opened slot hslot
    have hclosed := h.close
    dsimp only
    split
    · exact Attempt.post_ok ⟨hclosed, rfl, hfailed⟩
    · next hdraws =>
      split
      · exact hclosed.throw nofun
      · next hready =>
        obtain ⟨hoverflow, hroom⟩ := not_or.mp hready
        have hsubmitted := hclosed.submit hfailed rfl hopen hdraws
          (Bool.not_eq_true _ ▸ hoverflow) (Nat.not_lt.mp hroom)
        split
        · exact hsubmitted.tick.fail.throw fun _ => rfl
        · obtain ⟨hinv, hcalm⟩ := retire_spec env hsubmitted.tick hfailed
          exact Attempt.post_ok ⟨hinv, hcalm.opened, hcalm.failed.trans hfailed⟩

theorem submit_post (h : Inv w) : (submit env w).Post (fun _ w' => Inv w') Inv := by
  rw [AgcGxDraw.submit]
  split
  · next hfailed => exact h.throw fun _ => hfailed
  · next hfailed =>
    exact (submitOpen_post h (Bool.not_eq_true _ ▸ hfailed)).mono fun _ w' hclosed => hclosed.inv

/-- Where `finish` returns, every batch is complete. -/
theorem finish_post (h : Inv w) :
    (finish env w).Post (fun _ w' => Inv w' ∧ pending w'.log = []) Inv := by
  rw [finish]
  split
  · next hfailed => exact h.throw fun _ => hfailed
  · next hfailed =>
    refine (submitOpen_post h (Bool.not_eq_true _ ▸ hfailed)).andThen fun _ w₁ hclosed => ?_
    have hinv := hclosed.inv.completed env
    have hfailed₁ := (calm_completed env w₁).failed.trans hclosed.failed
    generalize completed env w₁ = w₂ at hinv hfailed₁
    dsimp only
    have hwaited : (if w₂.label < w₂.submittedSerial then waitUntil env w₂.submittedSerial w₂
        else (.ok (), retire env w₂)).Post (fun _ w' => Waited w₂ w₂.submittedSerial w') Inv := by
      split
      · exact waitUntil_post env w₂.submittedSerial hinv hfailed₁
      · next hdone =>
        obtain ⟨hretired, hcalm⟩ := retire_spec env hinv hfailed₁
        exact Attempt.post_ok ⟨hretired, hcalm, (Nat.not_lt.mp hdone).trans hcalm.label⟩
    refine hwaited.andThen fun _ w₃ hw₃ => ?_
    have hnil := hw₃.inv.pending_eq_nil (hw₃.calm.submittedSerial ▸ hw₃.reached)
    exact Attempt.post_ok ⟨hw₃.inv.note trivial hnil nofun, hnil⟩

/-! ### Starting a batch -/

theorem newBuffer_post (bytes : ℕ) (h : Inv w) :
    (newBuffer env bytes w).Post (fun buf w' => w' = w.tick ∧ bytes ≤ buf.size) Inv := by
  unfold newBuffer
  split
  · exact h.tick.throw nofun
  · split
    · exact h.tick.throw nofun
    · refine Attempt.post_ok ⟨rfl, ?_⟩
      dsimp only
      omega

/-- A batch in a slot that is free, between two batches. -/
structure Free (w : World) (slot : ℕ) : Prop where
  closed : Closed w
  created : (w.batches slot).created = true

theorem createBatch_post (h : Closed w) :
    (createBatch env slot w).Post (fun _ w' => Free w' slot) Inv := by
  rw [createBatch]
  split
  · next hcreated => exact Attempt.post_ok ⟨h, hcreated⟩
  · next hcreated =>
    have hvacant := h.inv.vacant_of_not_created (Bool.not_eq_true _ ▸ hcreated)
    refine (newBuffer_post CommandBytes h.inv).andThen fun buf w₁ hw₁ => ?_
    obtain ⟨rfl, _⟩ := hw₁
    have hinv := h.inv.tick.setBatch (b := { Batch.none with created := true }) hvacant
      ⟨le_rfl, Nat.zero_le _, Nat.zero_le _⟩
      fun hopened => absurd (h.opened.symm.trans hopened) nofun
    refine Attempt.post_ok ⟨⟨hinv, h.opened, h.failed⟩, ?_⟩
    rw [batch_setBatch]

theorem Free.calm (h : Free w slot) (hinv : Inv w') (hcalm : Calm w w') : Free w' slot :=
  ⟨⟨hinv, hcalm.opened.trans h.closed.opened, hcalm.failed.trans h.closed.failed⟩,
    (hcalm.created slot).trans h.created⟩

theorem Free.retire (h : Free w slot) (env : Environment) : Free (retire env w) slot :=
  h.calm (retire_spec env h.closed.inv h.closed.failed).1
    (retire_spec env h.closed.inv h.closed.failed).2

theorem waitFor_post (h : Free w slot) :
    (waitFor env slot w).Post (fun _ w' => Free w' slot ∧ Vacant slot w'.log) Inv := by
  rw [waitFor]
  split
  · refine (waitUntil_post env (w.batches slot).serial h.closed.inv h.closed.failed).mono fun _ w' hwaited => ?_
    refine ⟨h.calm hwaited.inv hwaited.calm, hwaited.inv.vacant_of_reached ?_⟩
    rw [hwaited.calm.serial]
    exact hwaited.reached
  · next hfree =>
    exact ⟨h, h.closed.inv.vacant_of_not_submitted (Bool.not_eq_true _ ▸ hfree)⟩

theorem Free.setBatch (h : Free w slot) (hvacant : Vacant slot w.log) {b : Batch} (hfits : b.Fits)
    (hcreated : b.created = true) {e : Event} (hquiet : e.Quiet) (hsafe : e.Safe w.log)
    (hthrew : ∀ failure, e ≠ .threw failure) :
    Free ((w.setBatch slot b).note e) slot ∧ Vacant slot ((w.setBatch slot b).note e).log := by
  have hinv := h.closed.inv.setBatch hvacant hfits fun hopened =>
    absurd (h.closed.opened.symm.trans hopened) nofun
  refine ⟨⟨⟨hinv.note hquiet hsafe fun failure heq => absurd heq (hthrew failure),
    h.closed.opened, h.closed.failed⟩, ?_⟩, ?_⟩
  · rwa [batches_note, batch_setBatch]
  · exact fun s hs => hvacant s (hquiet.pending w.log ▸ hs)

theorem le_grow {needed times capacity : ℕ} (h : needed ≤ capacity * 2 ^ times) :
    needed ≤ grow needed times capacity := by
  induction times generalizing capacity with
  | zero => exact h.trans_eq (Nat.mul_one capacity)
  | succ times ih =>
    rw [grow]
    split
    · refine ih ?_
      rwa [Nat.mul_assoc, ← Nat.pow_succ']
    · next hle => exact Nat.not_lt.mp hle

/-- A free batch whose upload storage suffices. -/
structure Roomy (w : World) (slot needed : ℕ) : Prop where
  free : Free w slot
  vacant : Vacant slot w.log
  upload : (w.batches slot).upload.isSome = true
  capacity : needed ≤ (w.batches slot).capacity

theorem growUpload_post {needed : ℕ} (h : Free w slot) (hvacant : Vacant slot w.log)
    (hneeded : needed ≤ uint32Max) :
    (growUpload env slot needed w).Post (fun _ w' => Roomy w' slot needed) Inv := by
  rw [growUpload]
  split
  · next hsmall =>
    refine (newBuffer_post _ h.closed.inv).andThen fun buf w₁ hw₁ => ?_
    obtain ⟨rfl, hsize⟩ := hw₁
    have hgrown : needed ≤ buf.size := by
      refine (le_grow ?_).trans hsize
      rw [uint32Max] at hneeded
      omega
    have hfits : Batch.Fits { w.batches slot with upload := some buf } := by
      have hold := h.closed.inv.fits slot
      refine ⟨?_, hold.registers, hold.words⟩
      have hused := hold.upload
      rcases hsmall with hnone | hless
      · rw [Batch.capacity, Option.isNone_iff_eq_none.mp hnone, Option.elim_none] at hused
        exact hused.trans (Nat.zero_le _)
      · exact (hused.trans hless.le).trans hgrown
    have hticked : Free w.tick slot :=
      ⟨⟨h.closed.inv.tick, h.closed.opened, h.closed.failed⟩, h.created⟩
    obtain ⟨hfree, hvacant'⟩ := hticked.setBatch (e := .replace slot) hvacant hfits h.created
      trivial ⟨hvacant, h.closed.inv.unbroken h.closed.failed⟩ nofun
    refine Attempt.post_ok ⟨hfree, hvacant', ?_, ?_⟩
    · rw [batches_note, batch_setBatch, Option.isSome_some]
    · rw [batches_note, batch_setBatch]
      exact hgrown
  · next hlarge =>
    obtain ⟨hsome, hle⟩ := not_or.mp hlarge
    refine Attempt.post_ok ⟨h, hvacant, ?_, Nat.not_lt.mp hle⟩
    rwa [Option.isNone_iff_eq_none, ← ne_eq, Option.ne_none_iff_isSome] at hsome

theorem Inv.openSlot (h : Inv w) (hopen : Open w.log slot (w.batches slot)) (cursor : ℕ) :
    Inv { w with opened := some slot, cursor := cursor } where
  safe := h.safe
  label := h.label
  held s hs := (h.held s hs).congr rfl
  opened := by
    rintro _ ⟨⟩
    exact hopen
  fits := h.fits
  recorded := h.recorded
  last := h.last
  submitted := h.submitted
  submittedSerial := h.submittedSerial
  unbroken := h.unbroken

/-- A batch is open. -/
structure Drawing (w : World) (slot : ℕ) : Prop where
  inv : Inv w
  opened : w.opened = some slot
  failed : w.failed = false

theorem Drawing.open (h : Drawing w slot) : Open w.log slot (w.batches slot) :=
  h.inv.opened slot h.opened

theorem Drawing.vacant (h : Drawing w slot) : Vacant slot w.log := h.inv.vacant_of_opened h.opened

/-- The open batch changes, and stays one that is recorded. -/
theorem Drawing.setBatch (h : Drawing w slot) {b : Batch} (hrecording : Recording b)
    (hdraws : b.draws = (w.batches slot).draws) (hserial : b.serial = (w.batches slot).serial)
    (hrecorded : b.recorded = (w.batches slot).recorded) (hfits : b.Fits) :
    Drawing (w.setBatch slot b) slot where
  inv := h.inv.setBatch h.vacant hfits fun _ =>
    ⟨hrecording, h.open.range, hdraws ▸ hserial ▸ h.open.last, hrecorded ▸ h.open.logged⟩
  opened := h.opened
  failed := h.failed

/-- Something is written to the open batch. -/
theorem Drawing.write (h : Drawing w slot) (storage : Storage) {start size room : ℕ}
    (hle : start + size ≤ room) : Drawing (w.note (.write slot storage start size room)) slot where
  inv := h.inv.note trivial ⟨h.vacant, h.inv.unbroken h.failed, hle⟩ nofun
  opened := h.opened
  failed := h.failed

/-- An open batch that has room for a draw, of which some upload storage is still to be used. -/
structure Stage (w : World) (slot needed : ℕ) : Prop where
  inv : Inv w
  opened : w.opened = some slot
  failed : w.failed = false
  room : (w.batches slot).uploadUsed + needed ≤ (w.batches slot).capacity
  registers : (w.batches slot).registerUsed + MaxRegistersPerDraw ≤ RegisterCapacity

/-- The registers that all draws share leave room for those of a draw. -/
theorem sharedRegisters_le : MaxShaderRegisters + 3 + MaxRegistersPerDraw ≤ RegisterCapacity := by
  decide

theorem Roomy.reset {needed : ℕ} (h : Roomy w slot needed) (hslot : slot < InFlightSlots)
    (shaders : Shaders) : Stage (w.reset shaders slot) slot needed := by
  have hunbroken := h.free.closed.inv.unbroken h.free.closed.failed
  have hsh : 0 + shaders.sh.length ≤ RegisterCapacity := by
    have hle := shaders.sh_le
    rw [MaxShaderRegisters] at hle
    rw [RegisterCapacity, CommandBytes, RegisterBase, WordBytes]
    omega
  have hfirst := h.free.closed.inv.note
    (e := .write slot .registers 0 shaders.sh.length RegisterCapacity) trivial
    ⟨h.vacant, hunbroken, hsh⟩ nofun
  have hsecond := hfirst.note (e := .write slot .registers MaxShaderRegisters 3 RegisterCapacity)
    trivial ⟨h.vacant, hfirst.unbroken h.free.closed.failed, by decide⟩ nofun
  have hset := hsecond.setBatch (b := (w.batches slot).restarted shaders) h.vacant
    ⟨Nat.zero_le _, (Nat.le_add_right _ _).trans sharedRegisters_le, le_rfl⟩
    fun hopened => absurd (h.free.closed.opened.symm.trans hopened) nofun
  -- the batch has no draws yet, so there is nothing that it has to show
  have hrecording : Recording ((w.batches slot).restarted shaders) :=
    ⟨h.free.created, rfl, h.upload, fun _ hr => absurd hr List.not_mem_nil,
      fun _ hr => absurd hr List.not_mem_nil, rfl, fun _ _ => rfl,
      fun _ ho => absurd ho (Option.not_mem_none _), fun _ ho => absurd ho (Option.not_mem_none _)⟩
  refine ⟨hset.openSlot ?_ _, rfl, h.free.closed.failed, ?_, ?_⟩
  · rw [batch_setBatch]
    exact ⟨hrecording, hslot, fun hdraws => absurd hdraws (Nat.lt_irrefl 0),
      fun _ hr => absurd hr List.not_mem_nil⟩
  · change ((World.setBatch _ slot _).batches slot).uploadUsed + needed ≤
      ((World.setBatch _ slot _).batches slot).capacity
    rw [batch_setBatch]
    exact (Nat.zero_add needed).le.trans h.capacity
  · change ((World.setBatch _ slot _).batches slot).registerUsed + _ ≤ _
    rw [batch_setBatch]
    exact sharedRegisters_le

theorem beginBatch_post {needed : ℕ} (h : Closed w) (hneeded : needed ≤ uint32Max) :
    (beginBatch env shaders needed w).Post (fun slot w' => Stage w' slot needed) Inv := by
  have hslot : w.cursor % InFlightSlots < InFlightSlots := Nat.mod_lt _ (by decide)
  rw [beginBatch]
  generalize w.cursor % InFlightSlots = slot at hslot
  refine (createBatch_post h).andThen fun _ w₁ hw₁ => ?_
  refine (waitFor_post (hw₁.retire env)).andThen fun _ w₂ hw₂ => ?_
  obtain ⟨hfree, hvacant⟩ := hw₂
  have hfits := hfree.closed.inv.fits slot
  obtain ⟨hreleased, hvacant'⟩ := hfree.setBatch (b := (w₂.batches slot).release)
    (e := .release slot) hvacant ⟨hfits.upload, hfits.registers, hfits.words⟩ hfree.created trivial
    ⟨hvacant, hfree.closed.inv.unbroken hfree.closed.failed⟩ nofun
  refine (growUpload_post hreleased hvacant' hneeded).andThen fun _ w₃ hw₃ => ?_
  exact Attempt.post_ok (hw₃.reset hslot shaders)

/-! ### Room for a draw -/

theorem makeRoom_post {needed : ℕ} (h : Inv w) (hfailed : w.failed = false) :
    (makeRoom env needed w).Post
      (fun _ w' => Closed w' ∨ ∃ slot, Stage w' slot needed) Inv := by
  rw [makeRoom]
  split
  · exact (submitOpen_post h hfailed).mono fun _ w' hclosed => Or.inl hclosed
  · next hroom =>
    refine Attempt.post_ok ?_
    cases hopened : w.opened with
    | none => exact Or.inl ⟨h, hopened, hfailed⟩
    | some slot =>
      right
      rw [hopened, Option.any_some, Batch.full, Bool.not_eq_true, decide_eq_false_iff_not] at hroom
      simp only [not_or, not_lt, ge_iff_le, not_le] at hroom
      obtain ⟨_, _, hupload, hregisters, _⟩ := hroom
      have hused := (h.fits slot).upload
      exact ⟨slot, h, hopened, hfailed, by omega, hregisters⟩

theorem openBatch_post {needed : ℕ} (h : Inv w) (hfailed : w.failed = false)
    (hneeded : needed ≤ uint32Max) :
    (openBatch env shaders needed w).Post (fun slot w' => Stage w' slot needed) Inv := by
  rw [openBatch]
  refine (makeRoom_post h hfailed).andThen fun _ w₁ hw₁ => ?_
  rcases hw₁ with hclosed | ⟨slot, hstage⟩
  · rw [hclosed.opened]
    exact beginBatch_post hclosed hneeded
  · rw [hstage.opened]
    exact Attempt.post_ok hstage

/-! ### Placing -/

theorem Stage.drawing {needed : ℕ} (h : Stage w slot needed) : Drawing w slot :=
  ⟨h.inv, h.opened, h.failed⟩

theorem Stage.open {needed : ℕ} (h : Stage w slot needed) : Open w.log slot (w.batches slot) :=
  h.drawing.open

theorem Stage.setBatch {needed rest : ℕ} (h : Stage w slot needed) {b : Batch}
    (hrecording : Recording b) (hdraws : b.draws = (w.batches slot).draws)
    (hserial : b.serial = (w.batches slot).serial)
    (hrecorded : b.recorded = (w.batches slot).recorded) (hfits : b.Fits)
    (hroom : b.uploadUsed + rest ≤ b.capacity)
    (hregisters : b.registerUsed + MaxRegistersPerDraw ≤ RegisterCapacity) :
    Stage (w.setBatch slot b) slot rest := by
  obtain ⟨hinv, hopened, hfailed⟩ := h.drawing.setBatch hrecording hdraws hserial hrecorded hfits
  refine ⟨hinv, hopened, hfailed, ?_, ?_⟩
  · rw [batch_setBatch]
    exact hroom
  · rw [batch_setBatch]
    exact hregisters

theorem Stage.write {needed : ℕ} (h : Stage w slot needed) (storage : Storage)
    {start size room : ℕ} (hle : start + size ≤ room) :
    Stage (w.note (.write slot storage start size room)) slot needed := by
  obtain ⟨hinv, hopened, hfailed⟩ := h.drawing.write storage hle
  exact ⟨hinv, hopened, hfailed, h.room, h.registers⟩

theorem Batch.capacity_placed (b : Batch) (bytes : List UInt8) :
    (b.placed bytes).capacity = b.capacity := by
  rw [Batch.placed, Batch.capacity, Batch.capacity]
  cases b.upload <;> rfl

theorem Stage.place {rest : ℕ} {bytes : List UInt8} (h : Stage w slot (aligned bytes.length + rest)) :
    Stage (w.place slot bytes) slot rest := by
  have hroom := h.room
  have hle := le_aligned bytes.length
  have hfits := h.inv.fits slot
  have hcapacity := (w.batches slot).capacity_placed bytes
  have hused : ((w.batches slot).placed bytes).uploadUsed =
      (w.batches slot).uploadUsed + aligned bytes.length := rfl
  rw [World.place]
  refine Stage.write (h.setBatch (h.open.recording.placed bytes) rfl rfl rfl ?_ ?_ h.registers)
    .upload ?_
  · exact ⟨by omega, hfits.registers, hfits.words⟩
  · omega
  · omega

theorem batch_place (w : World) (slot : ℕ) (bytes : List UInt8) :
    (w.place slot bytes).batches slot = (w.batches slot).placed bytes := batch_setBatch ..

/-- What is left of a stage when less room is needed. -/
theorem Stage.mono {needed rest : ℕ} (h : Stage w slot needed) (hle : rest ≤ needed) :
    Stage w slot rest :=
  ⟨h.inv, h.opened, h.failed, (Nat.add_le_add_left hle _).trans h.room, h.registers⟩

theorem at_of_same {b : Batch} {offset : ℕ} {bytes : List UInt8}
    (hsame : b.upload.any (fun buf =>
      Overlay.load buf.bytes (buf.address + offset) bytes.length = bytes) = true)
    (hle : offset + bytes.length ≤ b.uploadUsed) : b.At (b.address + offset) bytes := by
  obtain ⟨buf, hbuf, hload⟩ := (Option.any_eq_true _ _).mp hsame
  have haddress : b.address = buf.address := by rw [Batch.address, hbuf, Option.elim_some]
  rw [haddress]
  exact ⟨buf, hbuf, Nat.le_add_right _ _, by omega, of_decide_eq_true hload⟩

theorem Packet.length_vertexBlock (packet : Packet) : packet.vertexBlock.length = VertexBytes := by
  rw [Packet.vertexBlock, List.length_append, List.length_append, packet.transforms.2,
    packet.lighting.2, packet.texgen.2]
  rfl

/-- The three parts of a vertex block are equal if the block is. -/
theorem at_of_sharesVertex {packet : Packet} {offset : ℕ}
    (hshares : w.sharesVertex slot packet offset = true)
    (hle : offset + VertexBytes ≤ (w.batches slot).uploadUsed) :
    (w.batches slot).At ((w.batches slot).address + offset) packet.vertexBlock := by
  obtain ⟨htransforms, hlighting, htexgen⟩ := of_decide_eq_true hshares
  refine at_of_same ?_ (packet.length_vertexBlock.symm ▸ hle)
  rw [World.same] at htransforms hlighting htexgen
  cases hupload : (w.batches slot).upload with
  | none =>
    rw [hupload] at htransforms
    exact absurd htransforms nofun
  | some buf =>
    rw [hupload, Option.any_some, decide_eq_true_iff] at htransforms hlighting htexgen
    have hsecond : Overlay.load buf.bytes (buf.address + offset + packet.transforms.1.length)
        packet.lighting.1.length = packet.lighting.1 := by
      rw [packet.transforms.2, Nat.add_assoc]
      exact hlighting
    have hthird : Overlay.load buf.bytes (buf.address + offset +
        (packet.transforms.1.length + packet.lighting.1.length)) packet.texgen.1.length =
        packet.texgen.1 := by
      rw [packet.transforms.2, packet.lighting.2, Nat.add_assoc]
      exact htexgen
    rw [Option.any_some, decide_eq_true_iff, Packet.vertexBlock, List.length_append,
      List.length_append, Overlay.load_add, Overlay.load_add, htransforms, hsecond, hthird]

/-- The open batch with the offset of its last vertex block or of its last material block. -/
theorem Stage.setOffset {rest : ℕ} (h : Stage w slot rest) (vertexOffset materialOffset : Option ℕ)
    (hvertex : ∀ offset ∈ vertexOffset, offset + VertexBytes ≤ (w.batches slot).uploadUsed)
    (hmaterial : ∀ offset ∈ materialOffset,
      offset + UniformBytes ≤ (w.batches slot).uploadUsed) :
    Stage (w.setBatch slot { w.batches slot with
      vertexOffset := vertexOffset, materialOffset := materialOffset }) slot rest := by
  have hold := h.open.recording
  have hfits := h.inv.fits slot
  refine h.setBatch ?_ rfl rfl rfl ⟨hfits.upload, hfits.registers, hfits.words⟩ h.room h.registers
  constructor
  · exact hold.created
  · exact hold.submitted
  · exact hold.upload
  · exact fun r hr => (hold.shown r hr).keeps (.of_eq rfl rfl rfl rfl)
  · intro r hr
    have hretains := hold.retained r hr
    exact ⟨hretains.material, hretains.color, hretains.depth⟩
  · exact hold.draws
  · exact hold.ready
  · exact hvertex
  · exact hmaterial

/-- What the placing of a block leaves. -/
structure Placed (w w' : World) (slot rest : ℕ) : Prop where
  stage : Stage w' slot rest
  keeps : (w.batches slot).Keeps (w'.batches slot)

theorem placed_place {rest : ℕ} {bytes : List UInt8}
    (h : Stage w slot (aligned bytes.length + rest)) :
    Placed w (w.place slot bytes) slot rest ∧
      ((w.place slot bytes).batches slot).At
        ((w.batches slot).address + (w.batches slot).uploadUsed) bytes := by
  refine ⟨⟨h.place, ?_⟩, ?_⟩
  · rw [batch_place]
    exact Batch.keeps_placed _ bytes
  · rw [batch_place]
    exact Batch.at_placed h.open.recording.upload bytes

theorem placeVertex_spec {rest : ℕ} (packet : Packet)
    (h : Stage w slot (aligned VertexBytes + rest)) :
    Placed w (w.placeVertex slot packet) slot rest ∧
      ((w.placeVertex slot packet).batches slot).At ((w.batches slot).address +
        ((w.placeVertex slot packet).batches slot).vertexOffset.getD 0) packet.vertexBlock := by
  rw [World.placeVertex]
  split
  · next hshares =>
    -- the block that is there already is the one of the packet
    obtain ⟨offset, hoffset, hshares⟩ := (Option.any_eq_true _ _).mp hshares
    refine ⟨⟨h.mono (Nat.le_add_left _ _), .refl _⟩, ?_⟩
    rw [hoffset]
    exact at_of_sharesVertex hshares (h.open.recording.vertex offset hoffset)
  · rw [← packet.length_vertexBlock] at h
    obtain ⟨hplaced, hat⟩ := placed_place h
    have hused : ((w.place slot packet.vertexBlock).batches slot).uploadUsed =
        (w.batches slot).uploadUsed + aligned packet.vertexBlock.length := by
      rw [batch_place, Batch.placed]
    have hstage := hplaced.stage.setOffset (some (w.batches slot).uploadUsed) _
      (by
        rintro _ ⟨⟩
        rw [hused, packet.length_vertexBlock]
        exact Nat.add_le_add_left (le_aligned _) _)
      hplaced.stage.open.recording.material
    have hkeeps : ((w.place slot packet.vertexBlock).batches slot).Keeps
        { (w.place slot packet.vertexBlock).batches slot with
          vertexOffset := some (w.batches slot).uploadUsed } := .of_eq rfl rfl rfl rfl
    refine ⟨⟨hstage, ?_⟩, ?_⟩
    · rw [batch_setBatch]
      exact hplaced.keeps.trans hkeeps
    · rw [batch_setBatch]
      exact hkeeps.at_ _ _ hat

theorem placeMaterial_spec {rest : ℕ} (packet : Packet)
    (h : Stage w slot (aligned UniformBytes + rest)) :
    Placed w (w.placeMaterial slot packet) slot rest ∧
      ((w.placeMaterial slot packet).batches slot).At ((w.batches slot).address +
        ((w.placeMaterial slot packet).batches slot).materialOffset.getD 0)
        packet.material.uniforms.1 ∧
      ((w.placeMaterial slot packet).batches slot).vertexOffset = (w.batches slot).vertexOffset := by
  have hlength : packet.material.uniforms.1.length = UniformBytes := packet.material.uniforms.2
  rw [World.placeMaterial]
  dsimp only
  split
  · next hsame =>
    obtain ⟨offset, hoffset, hsame⟩ := (Option.any_eq_true _ _).mp hsame
    refine ⟨⟨h.mono (Nat.le_add_left _ _), .refl _⟩, ?_, rfl⟩
    rw [hoffset]
    exact at_of_same hsame (hlength.symm ▸ h.open.recording.material offset hoffset)
  · rw [← hlength] at h
    obtain ⟨hplaced, hat⟩ := placed_place h
    have hused : ((w.place slot packet.material.uniforms.1).batches slot).uploadUsed =
        (w.batches slot).uploadUsed + aligned packet.material.uniforms.1.length := by
      rw [batch_place, Batch.placed]
    have hstage := hplaced.stage.setOffset _ (some (w.batches slot).uploadUsed)
      hplaced.stage.open.recording.vertex
      (by
        rintro _ ⟨⟩
        rw [hused, hlength]
        exact Nat.add_le_add_left (le_aligned _) _)
    have hkeeps : ((w.place slot packet.material.uniforms.1).batches slot).Keeps
        { (w.place slot packet.material.uniforms.1).batches slot with
          materialOffset := some (w.batches slot).uploadUsed } := .of_eq rfl rfl rfl rfl
    refine ⟨⟨hstage, ?_⟩, ?_, ?_⟩
    · rw [batch_setBatch]
      exact hplaced.keeps.trans hkeeps
    · rw [batch_setBatch]
      exact hkeeps.at_ _ _ hat
    · rw [batch_setBatch, batch_place, Batch.placed]

/-! ### Registers -/

theorem length_snapshotGxViewport {m : Gx.Viewport × Gx.ClipRect} {registers : List Register}
    (h : snapshotGxViewport m = .ok registers) : registers.length = 14 := by
  rw [snapshotGxViewport] at h
  split at h
  · exact absurd h nofun
  · split at h
    · exact absurd h nofun
    · obtain rfl := Except.ok.inj h
      rw [List.length_append, List.length_map]
      rfl

theorem length_targetRegisters (offsets : List.Vector ℕ 16) (values : List.Vector UInt32 16) :
    (targetRegisters offsets values).length = 16 := by
  rw [targetRegisters, List.length_zipWith, offsets.2, values.2, Nat.min_self]

theorem length_rasterRegisters (shaders : Shaders) (packet : Packet) :
    (rasterRegisters shaders packet).length = 9 := by
  rw [rasterRegisters, List.length_append, List.length_append, List.length_mapIdx,
    packet.blendConstant.2]
  rfl

/-- The check of the constructor bounds the registers of every draw. -/
theorem length_contextRegisters (shaders : Shaders) (c z : Target) (packet : Packet)
    {viewport : List Register} (hviewport : viewport.length = 14) :
    (contextRegisters shaders c z packet viewport).1.length ≤ MaxRegistersPerDraw := by
  have hcx := shaders.cx_le
  have hlinkage := shaders.linkage.2
  have hraster := length_rasterRegisters shaders packet
  rw [contextRegisters]
  dsimp only
  split
  · rw [List.length_append]
    omega
  · next values _ =>
    have hcolor := length_targetRegisters ColorTargetOffsets values
    split
    · rw [List.length_append, List.length_append]
      omega
    · next values' _ =>
      have hdepth := length_targetRegisters DepthTargetOffsets values'
      simp only [List.length_append]
      omega

theorem keeps_writeRegisters (w : World) (slot : ℕ) (registers : List Register) :
    (w.batches slot).Keeps ((w.writeRegisters slot registers).batches slot) := by
  rw [World.writeRegisters, batches_note, batch_setBatch]
  refine ⟨fun _ _ hat => hat, rfl, le_rfl, fun start count hle => ?_⟩
  exact Overlay.load_write_of_not_meets fun hmeets => absurd hmeets.1 (Nat.not_lt.mpr hle)

theorem Recording.keeps {b b' : Batch} (h : Recording b) (hkeeps : b.Keeps b')
    (heq : b' = { b with registers := b'.registers, registerUsed := b'.registerUsed }) :
    Recording b' := by
  have hshown : ∀ r ∈ b.recorded, b'.Shows r := fun r hr => (h.shown r hr).keeps hkeeps
  rw [heq] at hshown ⊢
  refine ⟨h.created, h.submitted, h.upload, hshown, ?_, h.draws, h.ready, h.vertex, h.material⟩
  intro r hr
  have hretains := h.retained r hr
  exact ⟨hretains.material, hretains.color, hretains.depth⟩

theorem Stage.writeRegisters {rest : ℕ} {registers : List Register} (h : Stage w slot rest)
    (hlength : registers.length ≤ MaxRegistersPerDraw) :
    Stage (w.writeRegisters slot registers) slot rest := by
  have hkeeps := keeps_writeRegisters w slot registers
  rw [World.writeRegisters, batches_note, batch_setBatch] at hkeeps
  have hfits := h.inv.fits slot
  rw [World.writeRegisters]
  refine (h.setBatch (h.open.recording.keeps hkeeps rfl) rfl rfl rfl
    ⟨hfits.upload, hfits.registers, hfits.words⟩ h.room h.registers).write .registers ?_
  exact (Nat.add_le_add_left hlength _).trans h.registers

/-- The registers of a draw are in use, and are what was written. -/
structure Used (w w' : World) (slot : ℕ) (context : List Register) : Prop where
  drawing : Drawing w' slot
  keeps : (w.batches slot).Keeps (w'.batches slot)
  vertexOffset : (w'.batches slot).vertexOffset = (w.batches slot).vertexOffset
  materialOffset : (w'.batches slot).materialOffset = (w.batches slot).materialOffset
  range : (w.batches slot).registerUsed + context.length ≤ (w'.batches slot).registerUsed
  context : Overlay.load (w'.batches slot).registers (w.batches slot).registerUsed context.length =
    context

theorem useRegisters_spec {rest : ℕ} {context : List Register} (h : Stage w slot rest)
    (hlength : context.length ≤ MaxRegistersPerDraw) :
    Used w ((w.writeRegisters slot context).useRegisters slot context.length) slot context := by
  have hstage := h.writeRegisters hlength
  have hkeeps := keeps_writeRegisters w slot context
  have hbatch : (w.writeRegisters slot context).batches slot = { w.batches slot with
      registers := Overlay.write (w.batches slot).registers (w.batches slot).registerUsed context } :=
    batch_setBatch ..
  have hregisters := h.registers
  have hfits := h.inv.fits slot
  rw [hbatch] at hkeeps
  have hkeeps' : (w.batches slot).Keeps { w.batches slot with
      registers := Overlay.write (w.batches slot).registers (w.batches slot).registerUsed context
      registerUsed := (w.batches slot).registerUsed + context.length } :=
    ⟨fun _ _ hat => hat, rfl, Nat.le_add_right _ _, hkeeps.registers⟩
  rw [World.useRegisters, hbatch]
  constructor
  · refine hstage.drawing.setBatch (h.open.recording.keeps hkeeps' rfl) ?_ ?_ ?_ ?_
    · rw [hbatch]
    · rw [hbatch]
    · rw [hbatch]
    · refine ⟨hfits.upload, ?_, hfits.words⟩
      exact (Nat.add_le_add_left hlength _).trans hregisters
  · rw [batch_setBatch]
    exact hkeeps'
  · rw [batch_setBatch]
  · rw [batch_setBatch]
  · rw [batch_setBatch]
  · rw [batch_setBatch]
    exact Overlay.load_write _ _ _

/-! ### Commands -/

theorem bufferDescriptor_ok {address size : ℕ} {d : Descriptor}
    (h : bufferDescriptor address size = .ok d) : d.address = address ∧ d.size = size := by
  rw [bufferDescriptor] at h
  split at h
  · exact absurd h nofun
  · next hsize =>
    split at h
    · exact absurd h nofun
    · obtain rfl := Except.ok.inj h
      rw [uint32Max] at hsize
      rw [Descriptor.address]
      dsimp only
      constructor <;> omega

/-- What the commands of a draw leave: some of the words are used. -/
structure Emitted (w w' : World) (slot : ℕ) : Prop where
  drawing : Drawing w' slot
  serial : w'.serial = w.serial
  batch : w'.batches slot = { w.batches slot with
    room := (w'.batches slot).room, overflow := (w'.batches slot).overflow }
  overflow : (w'.batches slot).overflow = false → (w.batches slot).overflow = false
  room : (w'.batches slot).room ≤ (w.batches slot).room

theorem Recording.ofRoom {b : Batch} (h : Recording b) {room : ℕ} {overflow : Bool}
    (hroom : room ≤ b.room) (hoverflow : overflow = false → b.overflow = false) :
    Recording { b with room := room, overflow := overflow } where
  created := h.created
  submitted := h.submitted
  upload := h.upload
  shown r hr := (h.shown r hr).keeps (.of_eq rfl rfl rfl rfl)
  retained r hr := ⟨(h.retained r hr).material, (h.retained r hr).color, (h.retained r hr).depth⟩
  draws := h.draws
  ready hno hle := h.ready (hoverflow hno) (hle.trans hroom)
  vertex := h.vertex
  material := h.material

theorem emit_spec (h : Drawing w slot) (size : ℕ) : Emitted w (w.emit slot size) slot := by
  have hfits := h.inv.fits slot
  have hwords := hfits.words
  rw [World.emit]
  split
  · next hsize =>
    have hset := h.setBatch (b := { w.batches slot with room := (w.batches slot).room - size })
      (h.open.recording.ofRoom (Nat.sub_le _ _) id) rfl rfl rfl
      ⟨hfits.upload, hfits.registers, (Nat.sub_le _ _).trans hwords⟩
    refine ⟨hset.write .commands (by omega), rfl, ?_, ?_, ?_⟩
    · rw [batches_note, batch_setBatch]
    · rw [batches_note, batch_setBatch]
      exact id
    · rw [batches_note, batch_setBatch]
      exact Nat.sub_le _ _
  · have hset := h.setBatch (b := { w.batches slot with overflow := true })
      (h.open.recording.ofRoom le_rfl nofun) rfl rfl rfl
      ⟨hfits.upload, hfits.registers, hwords⟩
    refine ⟨hset, rfl, ?_, ?_, ?_⟩
    · rw [batch_setBatch]
    · rw [batch_setBatch]
      exact nofun
    · rw [batch_setBatch]

theorem Emitted.trans {w₁ w₂ w₃ : World} (h : Emitted w₁ w₂ slot) (h' : Emitted w₂ w₃ slot) :
    Emitted w₁ w₃ slot where
  drawing := h'.drawing
  serial := h'.serial.trans h.serial
  batch := by
    rw [h'.batch, h.batch]
  overflow hno := h.overflow (h'.overflow hno)
  room := h'.room.trans h.room

theorem emit_foldl_spec (h : Drawing w slot) (sizes : List ℕ) :
    Emitted w (sizes.foldl (fun w size => w.emit slot size) w) slot := by
  induction sizes generalizing w with
  | nil => exact ⟨h, rfl, rfl, id, le_rfl⟩
  | cons size sizes ih =>
    have hfirst := emit_spec h size
    exact hfirst.trans (ih hfirst.drawing)

/-! ### Draws -/

/-- A check whose failures are not final. -/
def Refuses {α : Type} (check : Except Failure α) : Prop :=
  ∀ failure, check = .error failure → failure.latched = false

theorem refuses_ok {α : Type} (a : α) : Refuses (.ok a) := nofun

theorem refuses_error {α : Type} {failure : Failure} (h : failure.latched = false) :
    Refuses (.error failure : Except Failure α) := by
  rintro _ ⟨⟩
  exact h

theorem Refuses.bind {α β : Type} {x : Except Failure α} {f : α → Except Failure β}
    (hx : Refuses x) (hf : ∀ a, Refuses (f a)) : Refuses (x >>= f) := by
  cases x with
  | error failure =>
    rintro _ ⟨⟩
    exact hx failure rfl
  | ok a => exact hf a

theorem refuses_ite {α : Type} {p : Prop} [Decidable p] {x y : Except Failure α} (hx : Refuses x)
    (hy : Refuses y) : Refuses (if p then x else y) := by
  split
  · exact hx
  · exact hy

theorem Refuses.throw {α β : Type} {check : Except Failure α} (hcheck : Refuses check)
    {failure : Failure} (heq : check = .error failure) (h : Inv w) {Q : β → World → Prop} :
    (w.throw failure : Result β).Post Q Inv :=
  h.throw fun hlatched => absurd ((hcheck failure heq).symm.trans hlatched) nofun

theorem bufferDescriptor_refuses (address size : ℕ) : Refuses (bufferDescriptor address size) :=
  refuses_ite (refuses_error rfl) (refuses_ite (refuses_error rfl) (refuses_ok _))

theorem descriptors_refuses (address geometryOffset vertexOffset materialOffset : ℕ)
    (packet : Packet) :
    Refuses (descriptors address geometryOffset vertexOffset materialOffset packet) :=
  (bufferDescriptor_refuses _ _).bind fun _ => (bufferDescriptor_refuses _ _).bind fun _ =>
    (bufferDescriptor_refuses _ _).bind fun _ => refuses_ok _

/-- The open batch gets a draw. -/
theorem Inv.record (h : Drawing w slot) {b : Batch} (hrecording : Recording b) (hfits : b.Fits)
    (hserial : b.serial = w.serial + 1)
    (hlogged : ∀ r ∈ b.recorded, r.serial = w.serial + 1 ∨ Event.record slot r.serial ∈ w.log) :
    Inv { (w.setBatch slot b).note (.record slot (w.serial + 1)) with serial := w.serial + 1 } := by
  have hvacant := h.vacant
  have hlast : lastRecord (.record slot (w.serial + 1) :: w.log) = some (slot, b.serial) := by
    rw [hserial]
    rfl
  have hopen : Open (.record slot (w.serial + 1) :: w.log) slot b := by
    refine ⟨hrecording, h.open.range, fun _ => hlast, fun r hr => ?_⟩
    rcases hlogged r hr with heq | hmem
    · rw [heq]
      exact List.mem_cons_self
    · exact List.mem_cons_of_mem _ hmem
  constructor
  · exact ⟨fun slot' serial' hmem => Nat.lt_succ_of_le (h.inv.recorded slot' serial' hmem), h.inv.safe⟩
  · exact h.inv.label
  · exact fun s hs => (h.inv.held s hs).congr (Function.update_of_ne (hvacant s hs) _ _)
  · intro slot' hslot
    obtain rfl := Option.some.inj (h.opened.symm.trans hslot)
    rw [show World.batches _ slot = b from Function.update_self ..]
    exact hopen
  · intro slot'
    by_cases heq : slot' = slot
    · subst heq
      rw [show World.batches _ slot' = b from Function.update_self ..]
      exact hfits
    · rw [show World.batches _ slot' = w.batches slot' from Function.update_of_ne heq _ _]
      exact h.inv.fits slot'
  · intro slot' serial hmem
    rcases List.mem_cons.mp hmem with heq | hmem
    · obtain ⟨-, rfl⟩ := Event.record.inj heq
      exact le_rfl
    · exact Nat.le_succ_of_le (h.inv.recorded slot' serial hmem)
  · intro slot' serial heq
    obtain ⟨-, rfl⟩ := Prod.mk.inj (Option.some.inj (hlast.symm.trans heq))
    exact hserial
  · exact h.inv.submitted
  · exact Nat.le_succ_of_le h.inv.submittedSerial
  · intro hfailed hbroken
    rcases broken_cons.mp hbroken with ⟨failure, hthrew, _⟩ | hbroken
    · exact absurd hthrew nofun
    · exact h.inv.unbroken hfailed hbroken

theorem subset_keepTarget (kept : List Target) (t : Target) : kept ⊆ keepTarget kept t := by
  rw [keepTarget]
  split
  · exact List.Subset.refl kept
  · exact List.subset_append_left kept [t]

theorem mem_keepTarget (kept : List Target) (t : Target) : ∃ t' ∈ keepTarget kept t, t'.id = t.id := by
  rw [keepTarget]
  split
  · next hsame =>
    obtain ⟨last, hlast, hid⟩ := (Option.any_eq_true _ _).mp hsame
    exact ⟨last, List.mem_of_getLast? hlast, of_decide_eq_true hid⟩
  · exact ⟨t, List.mem_append_right _ (List.mem_singleton.mpr rfl), rfl⟩

/-- The batch with one more draw. -/
theorem Recording.record {b : Batch} (h : Recording b) (hoverflow : b.overflow = false)
    (hroom : 8 ≤ b.room) {r : Recorded} (hshows : b.Shows r) :
    Recording { b with
      commands := b.commands ++ [r.commands]
      materials := b.materials ++ [r.packet.material]
      colors := keepTarget b.colors r.color
      depths := keepTarget b.depths r.depth
      draws := b.draws + 1
      serial := r.serial
      recorded := b.recorded ++ [r] } where
  created := h.created
  submitted := h.submitted
  upload := h.upload
  shown r' hr' := by
    refine Batch.Shows.keeps (b := b) ?_ (.of_eq rfl rfl rfl rfl)
    rcases List.mem_append.mp hr' with hr' | hr'
    · exact h.shown r' hr'
    · exact List.mem_singleton.mp hr' ▸ hshows
  retained r' hr' := by
    rcases List.mem_append.mp hr' with hr' | hr'
    · obtain ⟨hmaterial, ⟨c, hc, hcid⟩, z, hz, hzid⟩ := h.retained r' hr'
      exact ⟨List.mem_append_left _ hmaterial, ⟨c, subset_keepTarget _ _ hc, hcid⟩, z,
        subset_keepTarget _ _ hz, hzid⟩
    · obtain rfl := List.mem_singleton.mp hr'
      exact ⟨List.mem_append_right _ (List.mem_singleton.mpr rfl), mem_keepTarget _ _,
        mem_keepTarget _ _⟩
  draws := by
    rw [List.length_append, h.draws, List.length_singleton]
  ready _ _ := by
    rw [List.map_append, h.ready hoverflow hroom, List.map_singleton]
  vertex := h.vertex
  material := h.material

theorem setBatch_setBatch (w : World) (slot : ℕ) (b b' : Batch) :
    (w.setBatch slot b).setBatch slot b' = w.setBatch slot b' := by
  rw [World.setBatch, World.setBatch, World.setBatch, Function.update_idem]

theorem Drawing.record (h : Drawing w slot) (hoverflow : (w.batches slot).overflow = false)
    (hroom : 8 ≤ (w.batches slot).room) {c z : Target} {packet : Packet} {context : List Register}
    {drawn : Drawn}
    (hshows : (w.batches slot).Shows ⟨w.serial + 1, packet, c, z, context, drawn⟩) :
    Inv ((w.setBatch slot { w.batches slot with
      commands := (w.batches slot).commands ++ [drawn] }).record slot c z packet context drawn) := by
  have hfits := h.inv.fits slot
  rw [World.record, batch_setBatch, setBatch_setBatch]
  refine Inv.record h (h.open.recording.record hoverflow hroom hshows)
    ⟨hfits.upload, hfits.registers, hfits.words⟩ rfl fun r hr => ?_
  rcases List.mem_append.mp hr with hr | hr
  · exact Or.inr (h.open.logged r hr)
  · exact Or.inl (List.mem_singleton.mp hr ▸ rfl)

/-- Commands that did not all fit: the batch is never ready again. -/
theorem Drawing.spoil (h : Drawing w slot)
    (hfull : (w.batches slot).overflow = true ∨ (w.batches slot).room < 8) (commands : List Drawn) :
    Inv (w.setBatch slot { w.batches slot with commands := commands }) := by
  have hold := h.open.recording
  have hfits := h.inv.fits slot
  refine (h.setBatch (b := { w.batches slot with commands := commands }) ?_ rfl rfl rfl
    ⟨hfits.upload, hfits.registers, hfits.words⟩).inv
  refine ⟨hold.created, hold.submitted, hold.upload, ?_, ?_, hold.draws, ?_, hold.vertex,
    hold.material⟩
  · exact fun r hr => (hold.shown r hr).keeps (.of_eq rfl rfl rfl rfl)
  · intro r hr
    have hretains := hold.retained r hr
    exact ⟨hretains.material, hretains.color, hretains.depth⟩
  · intro hoverflow hroom
    rcases hfull with hno | hless
    · exact absurd (hoverflow.symm.trans hno) nofun
    · exact absurd hroom (Nat.not_le.mpr hless)

/-- What a draw refers to when its commands are written. -/
structure Laid (b : Batch) (packet : Packet) (context : List Register)
    (geometryOffset indexOffset registers : ℕ) : Prop where
  geometry : b.At (b.address + geometryOffset) packet.geometry
  indices : b.At (b.address + indexOffset) packet.indexBytes
  vertex : b.At (b.address + b.vertexOffset.getD 0) packet.vertexBlock
  material : b.At (b.address + b.materialOffset.getD 0) packet.material.uniforms.1
  range : registers + context.length ≤ b.registerUsed
  context : Overlay.load b.registers registers context.length = context

theorem descriptors_ok {address geometryOffset vertexOffset materialOffset : ℕ} {packet : Packet}
    {geometry vertex material : Descriptor}
    (h : descriptors address geometryOffset vertexOffset materialOffset packet =
      .ok (geometry, vertex, material)) :
    (geometry.address = address + geometryOffset ∧ geometry.size = packet.geometry.length) ∧
      (vertex.address = address + vertexOffset ∧ vertex.size = VertexBytes) ∧
      material.address = address + materialOffset ∧ material.size = UniformBytes := by
  obtain ⟨geometry', hgeometry, h⟩ := Loop.bind_eq_ok.mp h
  obtain ⟨vertex', hvertex, h⟩ := Loop.bind_eq_ok.mp h
  obtain ⟨material', hmaterial, h⟩ := Loop.bind_eq_ok.mp h
  obtain ⟨rfl, rfl, rfl⟩ : geometry' = geometry ∧ vertex' = vertex ∧ material' = material := by
    simpa only [Prod.mk.injEq] using Except.ok.inj h
  exact ⟨bufferDescriptor_ok hgeometry, bufferDescriptor_ok hvertex, bufferDescriptor_ok hmaterial⟩

theorem emitDraw_post (h : Drawing w slot) {packet : Packet} {context : List Register}
    {geometryOffset indexOffset registers : ℕ} (c z : Target)
    (hlaid : Laid (w.batches slot) packet context geometryOffset indexOffset registers) :
    (emitDraw env w slot geometryOffset indexOffset registers context.length c z packet
      context).Post (fun _ w' => Inv w') Inv := by
  unfold emitDraw
  dsimp only
  split
  · next failure hfailure => exact (descriptors_refuses _ _ _ _ _).throw hfailure h.inv
  · next geometry vertex material hdescriptors =>
    obtain ⟨hgeometry, hvertex, hmaterial⟩ := descriptors_ok hdescriptors
    have hemitted := emit_foldl_spec (w := w.tick) ⟨h.inv.tick, h.opened, h.failed⟩
      (env.words w.clock)
    rw [World.emitAll]
    generalize (env.words w.clock).foldl (fun w size => w.emit slot size) w.tick = w₁ at hemitted
    have hkeeps : (w.batches slot).Keeps (w₁.batches slot) := by
      rw [hemitted.batch]
      exact .of_eq rfl rfl rfl rfl
    rw [batch_setBatch]
    split
    · next hfull => exact (hemitted.drawing.spoil hfull _).throw nofun
    · next hready =>
      obtain ⟨hoverflow, hroom⟩ := not_or.mp hready
      refine Attempt.post_ok (hemitted.drawing.record (Bool.not_eq_true _ ▸ hoverflow)
        (Nat.not_lt.mp hroom) ?_)
      refine Batch.Shows.keeps ?_ hkeeps
      constructor
      · exact hgeometry.1 ▸ hlaid.geometry
      · exact hgeometry.2
      · exact hvertex.1 ▸ hlaid.vertex
      · exact hvertex.2
      · exact hmaterial.1 ▸ hlaid.material
      · exact hmaterial.2
      · exact hlaid.indices
      · rfl
      · exact hlaid.range
      · exact hlaid.context

theorem encodeTarget_refuses {defaults : List.Vector UInt32 16} (c : Target) :
    Refuses (colorValues defaults c) ∧ Refuses (depthValues defaults c) := by
  rw [colorValues, depthValues]
  split
  · exact ⟨refuses_error rfl, refuses_error rfl⟩
  · exact ⟨refuses_ite (refuses_error rfl) (refuses_ok _),
      refuses_ite (refuses_error rfl) (refuses_ok _)⟩

theorem contextRegisters_refuses {c z : Target} {packet : Packet} {viewport : List Register}
    {failure : Failure} (h : (contextRegisters shaders c z packet viewport).2 = some failure) :
    failure.latched = false := by
  rw [contextRegisters] at h
  dsimp only at h
  split at h
  · next failure' hcolor =>
    obtain rfl := Option.some.inj h
    exact (encodeTarget_refuses c).1 _ hcolor
  · split at h
    · next failure' hdepth =>
      obtain rfl := Option.some.inj h
      exact (encodeTarget_refuses z).2 _ hdepth
    · exact absurd h nofun

theorem Packet.length_indexBytes (packet : Packet) :
    packet.indexBytes.length = packet.indices.length * 4 := by
  rw [Packet.indexBytes]
  induction packet.indices with
  | nil => rfl
  | cons i indices ih =>
    rw [List.flatMap_cons, List.length_append, ih, List.length_cons]
    simp only [List.length_cons, List.length_nil]
    omega

theorem drawIn_post {packet : Packet} (h : Stage w slot packet.worstUpload) (c z : Target)
    {viewport : List Register} (hviewport : viewport.length = 14) :
    (drawIn env shaders w slot c z packet viewport).Post (fun _ w' => Inv w') Inv := by
  have hneeded : packet.worstUpload = aligned packet.geometry.length +
      (aligned packet.indexBytes.length + (aligned VertexBytes + (aligned UniformBytes + 0))) := by
    rw [Packet.worstUpload, packet.length_indexBytes]
    omega
  rw [hneeded] at h
  rw [drawIn]
  dsimp only
  obtain ⟨hgeometry, hgeometryAt⟩ := placed_place h
  set w₁ := w.place slot packet.geometry
  obtain ⟨hindices, hindicesAt⟩ := placed_place hgeometry.stage
  set w₂ := w₁.place slot packet.indexBytes
  obtain ⟨hvertex, hvertexAt⟩ := placeVertex_spec packet hindices.stage
  set w₃ := w₂.placeVertex slot packet
  obtain ⟨hmaterial, hmaterialAt, hvertexOffset⟩ := placeMaterial_spec packet hvertex.stage
  set w₄ := w₃.placeMaterial slot packet
  have hlength := length_contextRegisters shaders c z packet hviewport
  set context := (contextRegisters shaders c z packet viewport).1 with hcontext
  cases hfailure : (contextRegisters shaders c z packet viewport).2 with
  | some failure =>
    have hrefused := contextRegisters_refuses hfailure
    exact (hmaterial.stage.writeRegisters hlength).inv.throw fun hlatched =>
      absurd (hrefused.symm.trans hlatched) nofun
  | none =>
    dsimp only
    rw [if_neg (Nat.not_lt.mpr hlength)]
    have hused := useRegisters_spec hmaterial.stage hlength
    refine emitDraw_post hused.drawing c z ?_
    -- each block stays where it was placed while the rest of the draw is
    have hkeeps₃ := hmaterial.keeps.trans hused.keeps
    have hkeeps₂ := hvertex.keeps.trans hkeeps₃
    have hkeeps₁ := hindices.keeps.trans hkeeps₂
    have haddress := hkeeps₁.address.trans hgeometry.keeps.address
    constructor
    · rw [haddress]
      exact hkeeps₁.at_ _ _ hgeometryAt
    · rw [hkeeps₁.address]
      exact hkeeps₂.at_ _ _ hindicesAt
    · rw [hkeeps₂.address, hused.vertexOffset, hvertexOffset]
      exact hkeeps₃.at_ _ _ hvertexAt
    · rw [hkeeps₃.address, hused.materialOffset]
      exact hused.keeps.at_ _ _ hmaterialAt
    · exact hused.range
    · exact hused.context

theorem checkTargets_refuses (color depth : Option Target) : Refuses (checkTargets color depth) := by
  unfold checkTargets
  split
  · exact refuses_ite (refuses_error rfl) (refuses_ok _)
  · exact refuses_error rfl

theorem snapshotGxViewport_refuses (m : Gx.Viewport × Gx.ClipRect) :
    Refuses (snapshotGxViewport m) :=
  refuses_ite (refuses_error rfl) (refuses_ite (refuses_error rfl) (refuses_ok _))

theorem refuseIf_refuses {p : Prop} [Decidable p] {failure : Failure}
    (h : failure.latched = false) : Refuses (refuseIf p failure) :=
  refuses_ite (refuses_error h) (refuses_ok _)

theorem checkPacket_refuses (serial : ℕ) (packet : Packet) (c : Target) :
    Refuses (checkPacket serial packet c) :=
  (refuseIf_refuses rfl).bind fun _ => (refuseIf_refuses rfl).bind fun _ =>
    (refuseIf_refuses rfl).bind fun _ => (refuseIf_refuses rfl).bind fun _ =>
      snapshotGxViewport_refuses packet.viewport

theorem checkPacket_ok {serial : ℕ} {packet : Packet} {c : Target} {viewport : List Register}
    (h : checkPacket serial packet c = .ok viewport) :
    snapshotGxViewport packet.viewport = .ok viewport := by
  obtain ⟨_, _, h⟩ := Loop.bind_eq_ok.mp h
  obtain ⟨_, _, h⟩ := Loop.bind_eq_ok.mp h
  obtain ⟨_, _, h⟩ := Loop.bind_eq_ok.mp h
  obtain ⟨_, _, h⟩ := Loop.bind_eq_ok.mp h
  exact h

theorem draw_post (h : Inv w) (packet : Packet) (color depth : Option Target) :
    (draw env shaders w packet color depth).Post (fun _ w' => Inv w') Inv := by
  unfold draw
  split
  · next hfailed => exact h.throw fun _ => hfailed
  · next hfailed =>
    split
    · next failure hfailure => exact (checkTargets_refuses color depth).throw hfailure h
    · next c z _ =>
      split
      · next failure hfailure => exact (checkPacket_refuses _ _ _).throw hfailure h
      · next viewport hviewport =>
        split
        · exact Attempt.post_ok h
        · split
          · exact h.throw nofun
          · next hneeded =>
            refine (openBatch_post h (Bool.not_eq_true _ ▸ hfailed)
              (Nat.not_lt.mp hneeded)).andThen fun slot w' hstage => ?_
            exact drawIn_post hstage c z (length_snapshotGxViewport (checkPacket_ok hviewport))

/-- The last draw of a batch, and of the log, is one of the given packet to the given targets. -/
structure Last (w : World) (serial : ℕ) (packet : Packet) (c z : Target) (slot : ℕ) : Prop where
  recorded : ∃ context commands,
    (w.batches slot).recorded.getLast? = some ⟨serial, packet, c, z, context, commands⟩
  record : lastRecord w.log = some (slot, serial)
  serial : w.serial = serial

theorem record_last (w : World) (slot : ℕ) (c z : Target) (packet : Packet) (context : List Register)
    (drawn : Drawn) :
    Last (w.record slot c z packet context drawn)
      (w.record slot c z packet context drawn).serial packet c z slot where
  recorded := by
    refine ⟨context, drawn, ?_⟩
    rw [World.record]
    dsimp only
    rw [batches_note, batch_setBatch]
    exact List.getLast?_concat
  record := rfl
  serial := rfl

/-- A draw that returns has recorded its own packet, with its targets and the serial that it returns,
and nothing after that; one with nothing to draw leaves everything as it was. -/
theorem draw_last (env : Environment) (shaders : Shaders) (w : World) (packet : Packet)
    (color depth : Option Target) :
    (draw env shaders w packet color depth).Post
      (fun serial w' => packet.culled = true ∧ serial = w.serial ∧ w' = w ∨
        ∃ slot c z, color = some c ∧ depth = some z ∧ Last w' serial packet c z slot)
      fun _ => True := by
  unfold draw
  split
  · trivial
  · split
    · trivial
    · next c z htargets =>
      have hgiven : color = some c ∧ depth = some z := by
        unfold checkTargets at htargets
        split at htargets
        · split at htargets
          · cases htargets
          · cases htargets
            exact ⟨rfl, rfl⟩
        · cases htargets
      split
      · trivial
      · next viewport _ =>
        split
        · next hculled => exact Or.inl ⟨hculled, rfl, rfl⟩
        · split
          · trivial
          · refine (Attempt.post_true _).andThen fun slot w' _ => ?_
            rw [drawIn]
            dsimp only
            split
            · trivial
            · split
              · trivial
              · unfold emitDraw
                dsimp only
                split
                · trivial
                · split
                  · trivial
                  · exact Or.inr ⟨slot, c, z, hgiven.1, hgiven.2, record_last _ slot c z packet _ _⟩

/-! ### Runs -/

theorem Inv.dead (h : Inv w) : Inv { w with alive := false } :=
  ⟨h.safe, h.label, fun s hs => (h.held s hs).congr rfl, h.opened, h.fits, h.recorded, h.last,
    h.submitted, h.submittedSerial, h.unbroken⟩

theorem destroy_inv (env : Environment) (h : Inv w) : Inv (destroy env w) := by
  rw [destroy, unresolved]
  cases hfailed : w.failed with
  | true => exact h.dead
  | false =>
    have hinv := h.completed env
    have hfailed' := (calm_completed env w).failed.trans hfailed
    simp only [Bool.false_eq_true, if_false]
    generalize completed env w = w₁ at hinv hfailed'
    split
    · exact hinv.dead
    · next hdone =>
      have hreached := Nat.not_lt.mp fun hlt => hdone (decide_eq_true hlt)
      exact hinv.dead.note trivial ⟨hinv.pending_eq_nil hreached, hinv.unbroken hfailed'⟩ nofun

theorem step_inv (env : Environment) (shaders : Shaders) (h : Inv w) (call : Call) :
    Inv (step env shaders w call) := by
  unfold step
  split
  · cases call with
    | draw packet color depth => exact (draw_post h packet color depth).left fun _ _ hinv => hinv
    | submit => exact (submit_post h).left fun _ _ hinv => hinv
    | finish => exact (finish_post h).left fun _ _ hinv => hinv.1
    | destroy => exact destroy_inv env h
  · exact h

theorem run_inv (env : Environment) (shaders : Shaders) (h : Inv w) (calls : List Call) :
    Inv (run env shaders w calls) := by
  rw [run]
  induction calls generalizing w with
  | nil => exact h
  | cons call calls ih => exact ih (step_inv env shaders h call)

theorem start_inv : Inv .start where
  safe := trivial
  label := rfl
  held _ hs := absurd hs List.not_mem_nil
  opened := nofun
  fits _ := ⟨le_rfl, Nat.zero_le _, Nat.zero_le _⟩
  recorded _ _ hmem := absurd hmem List.not_mem_nil
  last := nofun
  submitted _ hs := absurd hs List.not_mem_nil
  submittedSerial := le_rfl
  unbroken _ hbroken := by
    obtain ⟨failure, hmem, _⟩ := hbroken
    exact absurd hmem List.not_mem_nil

/-- What holds whenever a call has returned: everything that happened was safe, the batches that
are not complete are as they were when they were submitted, and no storage is used beyond its
size. -/
structure Protocol (w : World) : Prop where
  safe : ∀ after e before, w.log = after ++ e :: before → e.Safe before
  held : ∀ s ∈ pending w.log, w.batches s.slot = s.batch
  fits : ∀ slot, (w.batches slot).Fits

/-- Whenever the label grows, nothing that the graphics processor may still read is written or
released, and what it reads is what was drawn. -/
theorem batch_protocol (env : Environment) (shaders : Shaders) (calls : List Call) :
    Protocol (run env shaders .start calls) := by
  have hinv := run_inv env shaders start_inv calls
  exact ⟨History.ok_iff.mp hinv.safe, fun s hs => (hinv.held s hs).batch, hinv.fits⟩

end Gpu.AgcGxDraw
