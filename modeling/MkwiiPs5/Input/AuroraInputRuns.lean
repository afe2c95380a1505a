import MkwiiPs5.Input.AuroraInput
import MkwiiPs5.Input.NativePadRuns

/-!
# Ownership of the input

What holds after any calls of any input objects: who owns the input, which virtual devices are
attached, and which handles their callbacks reach.
-/

namespace Input.AuroraInput

/-! ### Histories -/

/-- What may happen: a device is attached where there is none, and a callback of a device commands
the handle that its slot had when the device was attached. -/
def Event.Safe : Event → List Event → Prop
  | .attached device, past => device.id ≠ 0 ∧ AuroraInput.attached past device.id = none ∧
      ∀ id other, AuroraInput.attached past id = some other →
        ¬ (other.object = device.object ∧ other.slot = device.slot)
  | .detached id, past => ∃ device, AuroraInput.attached past id = some device
  | .commanded id object slot current low high, past => ∃ device,
      AuroraInput.attached past id = some device ∧ device.object = object ∧ device.slot = slot ∧
      current.user = device.user ∧ current.handle = device.handle ∧ current.signedIn = true ∧
      (low ≠ 0 ∨ high ≠ 0 →
        current.sample.connected = true ∧ current.sample.intercepted = false)
  | _, _ => True

/-- Whether an event leaves the devices and the subsystems alone. -/
structure Event.Quiet (e : Event) : Prop where
  attached : ∀ past, AuroraInput.attached (e :: past) = AuroraInput.attached past
  holds : ∀ object past, AuroraInput.holds object (e :: past) = AuroraInput.holds object past

/-! ### The invariant -/

variable {w w' : World} {o : ℕ} {i : Fin 4}

/-- What is known of a device that is attached: it is the one of its slot, and its target is what
the slot had then. -/
structure Fits (w : World) (id : ℕ) (device : Device) : Prop where
  number : device.id = id
  pos : 0 < id
  lt : id < w.nextId
  pad : (w.pad device.object device.slot).id = id
  user : ((w.objects device.object).targets device.slot).user = device.user
  handle : ((w.objects device.object).targets device.slot).handle = device.handle

structure Inv (w : World) : Prop where
  safe : History.Ok Event.Safe w.log
  natives : ∀ o, NativePads.Inv (w.objects o).native
  next : 0 < w.nextId
  devices : ∀ id device, attached w.log id = some device → Fits w id device
  pads : ∀ o i, (w.pad o i).id ≠ 0 →
    ∃ device, attached w.log (w.pad o i).id = some device ∧ device.object = o ∧ device.slot = i
  targets : ∀ o i, (w.pad o i).rumble = true →
    ((w.objects o).targets i).owner = some o ∧ ((w.objects o).targets i).slot = i
  idle : ∀ o, (w.objects o).initialized = false → ∀ i, (w.pad o i).id = 0

@[simp]
theorem objects_update (w : World) (o : ℕ) (f : Object → Object) :
    (w.update o f).objects o = f (w.objects o) := Function.update_self ..

theorem objects_update_of_ne (w : World) {o o' : ℕ} (h : o' ≠ o) (f : Object → Object) :
    (w.update o f).objects o' = w.objects o' := Function.update_of_ne h ..

/-- What holds of every object where it holds of the others and of the new one. -/
theorem forall_update {P : ℕ → Object → Prop} {f : Object → Object}
    (h : ∀ o', o' ≠ o → P o' (w.objects o')) (ho : P o (f (w.objects o))) :
    ∀ o', P o' ((w.update o f).objects o') :=
  Function.forall_update_iff w.objects P |>.mpr ⟨ho, h⟩

/-- What the invariant looks at in an object, its native side apart. -/
structure Alike (x x' : Object) : Prop where
  initialized : x'.initialized = x.initialized
  targets : x'.targets = x.targets
  ids : ∀ i, (x'.pads i).id = (x.pads i).id
  rumbles : ∀ i, (x'.pads i).rumble = (x.pads i).rumble

theorem Alike.refl (x : Object) : Alike x x := ⟨rfl, rfl, fun _ => rfl, fun _ => rfl⟩

/-- The invariant does not see changes of the rest. -/
theorem Inv.alike (h : Inv w) (hsafe : History.Ok Event.Safe w'.log)
    (hnatives : ∀ o, NativePads.Inv (w'.objects o).native) (hnext : w'.nextId = w.nextId)
    (hattached : attached w'.log = attached w.log)
    (halike : ∀ o, Alike (w.objects o) (w'.objects o)) : Inv w' := by
  have hid : ∀ o i, (w'.pad o i).id = (w.pad o i).id := fun o i => (halike o).ids i
  constructor
  · exact hsafe
  · exact hnatives
  · exact hnext ▸ h.next
  · intro id device hdevice
    rw [hattached] at hdevice
    obtain ⟨hnumber, hpos, hlt, hpad, huser, hhandle⟩ := h.devices id device hdevice
    refine ⟨hnumber, hpos, hnext ▸ hlt, (hid _ _).trans hpad, ?_, ?_⟩
    · rw [(halike _).targets, huser]
    · rw [(halike _).targets, hhandle]
  · intro o i hne
    rw [hid] at hne ⊢
    rw [hattached]
    exact h.pads o i hne
  · intro o i hrumble
    rw [(halike o).targets]
    exact h.targets o i (((halike o).rumbles i).symm.trans hrumble)
  · intro o hidle i
    rw [hid]
    exact h.idle o ((halike o).initialized.symm.trans hidle) i

/-! ### What is left alone -/

/-- What an object keeps while something is done about the pads of some slots. -/
structure SameObject (P : Fin 4 → Prop) (x x' : Object) : Prop where
  initialized : x'.initialized = x.initialized
  native : NativePads.Steady x.native x'.native
  slots : NativePads.SameButMotors x.native x'.native
  targets : x'.targets = x.targets
  pads : ∀ i, ¬ P i → x'.pads i = x.pads i

theorem SameObject.refl (P : Fin 4 → Prop) (x : Object) : SameObject P x x :=
  ⟨rfl, .refl _, fun _ => rfl, rfl, fun _ _ => rfl⟩

theorem SameObject.trans {P : Fin 4 → Prop} {x₁ x₂ x₃ : Object} (h : SameObject P x₁ x₂)
    (h' : SameObject P x₂ x₃) : SameObject P x₁ x₃ := by
  refine ⟨h'.initialized.trans h.initialized, h.native.trans h'.native, fun j => ?_,
    h'.targets.trans h.targets, fun j hj => (h'.pads j hj).trans (h.pads j hj)⟩
  rw [h'.slots j, h.slots j]

theorem SameObject.alike {x x' : Object} (h : SameObject (fun _ => False) x x') : Alike x x' :=
  ⟨h.initialized, h.targets,
    fun j => congrArg VirtualPad.id (h.pads j not_false),
    fun j => congrArg VirtualPad.rumble (h.pads j not_false)⟩

/-- What is left of the world when something was done about some pads. -/
structure Leaves (P : ℕ → Fin 4 → Prop) (w w' : World) : Prop where
  inv : Inv w'
  active : w'.active = w.active
  held : ∀ o, holds o w'.log = holds o w.log
  objects : ∀ o, SameObject (P o) (w.objects o) (w'.objects o)

variable {P Q : ℕ → Fin 4 → Prop}

theorem Leaves.refl (h : Inv w) : Leaves P w w := ⟨h, rfl, fun _ => rfl, fun _ => .refl _ _⟩

theorem Leaves.trans {w₁ w₂ w₃ : World} (h : Leaves P w₁ w₂) (h' : Leaves P w₂ w₃) :
    Leaves P w₁ w₃ :=
  ⟨h'.inv, h'.active.trans h.active, fun o => (h'.held o).trans (h.held o),
    fun o => (h.objects o).trans (h'.objects o)⟩

theorem Leaves.mono (h : Leaves P w w') (himp : ∀ o i, P o i → Q o i) : Leaves Q w w' :=
  ⟨h.inv, h.active, h.held, fun o => ⟨(h.objects o).initialized, (h.objects o).native,
    (h.objects o).slots, (h.objects o).targets,
    fun i hi => (h.objects o).pads i fun hp => hi (himp o i hp)⟩⟩

theorem Leaves.pad (h : Leaves P w w') (hnot : ¬ P o i) : w'.pad o i = w.pad o i :=
  (h.objects o).pads i hnot

/-- An event that says nothing about devices is noted. -/
theorem Leaves.note (h : Inv w) {e : Event} (hquiet : e.Quiet) (hsafe : e.Safe w.log) :
    Leaves P w (w.note e) :=
  ⟨h.alike ⟨hsafe, h.safe⟩ h.natives rfl (hquiet.attached w.log) fun _ => .refl _, rfl,
    fun o => hquiet.holds o w.log, fun _ => .refl _ _⟩

theorem Leaves.tick (h : Inv w) : Leaves P w w.tick :=
  ⟨h.alike h.safe h.natives rfl rfl fun _ => .refl _, rfl, fun _ => rfl, fun _ => .refl _ _⟩

/-- An object changes, but not in what the invariant looks at. -/
theorem Leaves.update (h : Inv w) (o : ℕ) {f : Object → Object}
    (hnative : NativePads.Inv (f (w.objects o)).native)
    (hsame : SameObject (fun _ => False) (w.objects o) (f (w.objects o))) :
    Leaves P w (w.update o f) := by
  have hall : ∀ o', SameObject (fun _ => False) (w.objects o') ((w.update o f).objects o') :=
    forall_update (P := fun o' => SameObject (fun _ => False) (w.objects o'))
      (fun _ _ => .refl _ _) hsame
  have hinv : Inv (w.update o f) := by
    refine h.alike h.safe ?_ rfl rfl fun o' => (hall o').alike
    exact forall_update (P := fun _ x => NativePads.Inv x.native) (fun o' _ => h.natives o') hnative
  have hleaves : Leaves (fun _ _ => False) w (w.update o f) := ⟨hinv, rfl, fun _ => rfl, hall⟩
  exact hleaves.mono fun _ _ hfalse => hfalse.elim

/-! ### Rumble -/

/-- A part of a command that is not zero comes from a command that is not. -/
theorem low_ne_zero {low : UInt16} (h : (low >>> 8).toUInt8 ≠ 0) : low ≠ 0 := by
  rintro rfl
  exact h rfl

theorem rumble_leaves (env : Environment) (h : Inv w) {id : ℕ} {device : Device}
    (hdevice : attached w.log id = some device) (hobject : device.object = o)
    (hslot : device.slot = i) (hrumble : (w.pad o i).rumble = true) (low high : UInt16) :
    Leaves P w (rumble env id o i low high w).2 := by
  obtain ⟨howner, htarget⟩ := h.targets o i hrumble
  rw [rumble]
  dsimp only
  rw [howner]
  dsimp only
  split
  · exact .refl h
  · next hallowed =>
    rw [htarget] at hallowed ⊢
    obtain ⟨huser, hhandle, hsigned, hconnected, hintercepted⟩ := by
      simpa only [Refused, not_or] using hallowed
    obtain ⟨hinv, hsteady, hslots⟩ := NativePads.vibrate_spec (env.native o) (h.natives o) i
      (low >>> 8).toUInt8 (high >>> 8).toUInt8
    have hleaves : Leaves P w (w.setNative o (NativePads.vibrate (env.native o)
        (w.objects o).native i (low >>> 8).toUInt8 (high >>> 8).toUInt8).2) :=
      .update h o hinv ⟨rfl, hsteady, hslots, rfl, fun _ _ => rfl⟩
    refine hleaves.trans (.note hleaves.inv ⟨fun _ => rfl, fun _ _ => rfl⟩ ?_)
    have hfits := h.devices id device hdevice
    subst hobject hslot
    refine ⟨device, hdevice, rfl, rfl, ?_, ?_, Bool.not_eq_false _ ▸ hsigned, fun hmoves => ?_⟩
    · exact (not_not.mp huser).trans hfits.user
    · exact (not_not.mp hhandle).trans hfits.handle
    · have hfull : low ≠ 0 ∨ high ≠ 0 := hmoves.imp low_ne_zero low_ne_zero
      exact ⟨by simpa [hfull] using hconnected, by simpa [hfull] using hintercepted⟩

theorem deliver_leaves (env : Environment) (h : Inv w) (c : Callback) :
    Leaves P w (deliver env w c) := by
  rw [deliver]
  split
  · exact .refl h
  · next device hdevice =>
    rw [virtualRumble]
    split
    · split
      · next hrumble => exact rumble_leaves env h hdevice rfl rfl hrumble c.low c.high
      · exact .refl h
    · exact .refl h

theorem serve_leaves (env : Environment) (h : Inv w) : Leaves P w (serve env w) := by
  have hcallbacks : ∀ cs : List Callback, Leaves P w (cs.foldl (deliver env) w) := by
    intro cs
    induction cs generalizing w with
    | nil => exact .refl h
    | cons c cs ih =>
      have hfirst := deliver_leaves (P := P) env h c
      exact hfirst.trans (ih hfirst.inv)
  have hserved := hcallbacks (env.callbacks w.clock)
  exact hserved.trans (.tick hserved.inv)

/-! ### Virtual devices -/

/-- The pad of one slot of one object. -/
def Only (o : ℕ) (i : Fin 4) (o' : ℕ) (i' : Fin 4) : Prop := o' = o ∧ i' = i

@[simp]
theorem pad_setPad (w : World) (o : ℕ) (i : Fin 4) (pad : VirtualPad) :
    (w.setPad o i pad).pad o i = pad := by
  simp [World.pad, World.setPad]

theorem setPad_same (w : World) (o : ℕ) (i : Fin 4) (pad : VirtualPad) :
    ∀ o', SameObject (Only o i o') (w.objects o') ((w.setPad o i pad).objects o') :=
  forall_update (P := fun o' => SameObject (Only o i o') (w.objects o')) (fun _ _ => .refl _ _)
    ⟨rfl, .refl _, fun _ => rfl, rfl, fun _ hne => Function.update_of_ne (fun heq => hne ⟨rfl, heq⟩) ..⟩

theorem pad_setPad_of_ne (w : World) {o o' : ℕ} {i i' : Fin 4} (h : ¬ Only o i o' i')
    (pad : VirtualPad) : (w.setPad o i pad).pad o' i' = w.pad o' i' :=
  (setPad_same w o i pad o').pads i' h

theorem natives_setPad (h : ∀ o, NativePads.Inv (w.objects o).native) (o : ℕ) (i : Fin 4)
    (pad : VirtualPad) : ∀ o', NativePads.Inv ((w.setPad o i pad).objects o').native :=
  forall_update (P := fun _ x => NativePads.Inv x.native) (fun o' _ => h o') (h o)

/-- The handle of a gamepad is not what the invariant looks at. -/
theorem setGamepad_leaves (h : Inv w) (o : ℕ) (i : Fin 4) (gamepad : Bool) :
    Leaves (Only o i) w (w.setPad o i { w.pad o i with gamepad := gamepad }) := by
  refine ⟨?_, rfl, fun _ => rfl, setPad_same w o i _⟩
  refine h.alike h.safe (natives_setPad h.natives o i _) rfl rfl ?_
  refine forall_update (P := fun o' => Alike (w.objects o')) (fun _ _ => .refl _) ?_
  have hpads : ∀ j, (Function.update (w.objects o).pads i
      { w.pad o i with gamepad := gamepad } j).id = ((w.objects o).pads j).id ∧
      (Function.update (w.objects o).pads i
        { w.pad o i with gamepad := gamepad } j).rumble = ((w.objects o).pads j).rumble := by
    intro j
    by_cases hj : j = i
    · subst hj
      rw [Function.update_self]
      exact ⟨rfl, rfl⟩
    · rw [Function.update_of_ne hj]
      exact ⟨rfl, rfl⟩
  exact ⟨rfl, rfl, fun j => (hpads j).1, fun j => (hpads j).2⟩

theorem closeGamepad_leaves (env : Environment) (h : Inv w) (o : ℕ) (i : Fin 4) :
    Leaves (Only o i) w (closeGamepad env o i w) := by
  rw [closeGamepad]
  split
  · have hserved := serve_leaves (P := Only o i) env h
    exact hserved.trans (setGamepad_leaves hserved.inv o i false)
  · exact .refl h

theorem stopDevice_leaves (env : Environment) (h : Inv w) (o : ℕ) (i : Fin 4) :
    Leaves P w (stopDevice env o i w) := by
  rw [stopDevice]
  split
  · next hthere =>
    obtain ⟨device, hdevice, hobject, hslot⟩ := h.pads o i hthere.1
    exact rumble_leaves env h hdevice hobject hslot hthere.2 0 0
  · exact .refl h

/-- A device that is attached goes. -/
theorem Leaves.detached (h : Inv w) (hid : (w.pad o i).id ≠ 0) :
    Leaves (Only o i) w
      ((w.note (.detached (w.pad o i).id)).setPad o i { w.pad o i with id := 0 }) := by
  obtain ⟨device, hdevice, hobject, hslot⟩ := h.pads o i hid
  have hother : ∀ o' i', ¬ Only o i o' i' →
      ((w.note (.detached (w.pad o i).id)).setPad o i { w.pad o i with id := 0 }).pad o' i' =
        w.pad o' i' := fun o' i' hne => pad_setPad_of_ne _ hne _
  have hsame := setPad_same (w.note (.detached (w.pad o i).id)) o i { w.pad o i with id := 0 }
  refine ⟨?_, rfl, fun _ => rfl, hsame⟩
  constructor
  · exact ⟨⟨device, hdevice⟩, h.safe⟩
  · exact natives_setPad h.natives o i _
  · exact h.next
  · intro id other hattached
    have hne : id ≠ (w.pad o i).id := by
      rintro rfl
      exact absurd (hattached.symm.trans (Function.update_self ..)) (Option.some_ne_none _)
    have hfits := h.devices id other ((Function.update_of_ne hne ..).symm.trans hattached)
    have helse : ¬ Only o i other.object other.slot := by
      rintro ⟨hobject', hslot'⟩
      have hpad := hfits.pad
      rw [hobject', hslot'] at hpad
      exact hne hpad.symm
    refine ⟨hfits.number, hfits.pos, hfits.lt, ?_, ?_, ?_⟩
    · rw [hother _ _ helse, hfits.pad]
    · rw [(hsame _).targets]
      exact hfits.user
    · rw [(hsame _).targets]
      exact hfits.handle
  · intro o' i' hne
    by_cases honly : Only o i o' i'
    · obtain ⟨rfl, rfl⟩ := honly
      rw [pad_setPad] at hne
      exact absurd rfl hne
    · rw [hother o' i' honly] at hne ⊢
      obtain ⟨other, hattached, hobject', hslot'⟩ := h.pads o' i' hne
      -- two slots do not have one device
      have hnumber : (w.pad o' i').id ≠ (w.pad o i).id := by
        intro heq
        rw [heq, hdevice] at hattached
        obtain rfl := Option.some.inj hattached
        exact honly ⟨hobject'.symm.trans hobject, hslot'.symm.trans hslot⟩
      exact ⟨other, (Function.update_of_ne hnumber ..).trans hattached, hobject', hslot'⟩
  · intro o' i' hrumble
    rw [(hsame o').targets]
    by_cases honly : Only o i o' i'
    · obtain ⟨rfl, rfl⟩ := honly
      rw [pad_setPad] at hrumble
      exact h.targets o' i' hrumble
    · rw [hother o' i' honly] at hrumble
      exact h.targets o' i' hrumble
  · intro o' hidle i'
    by_cases honly : Only o i o' i'
    · obtain ⟨rfl, rfl⟩ := honly
      rw [pad_setPad]
    · rw [hother o' i' honly]
      exact h.idle o' ((hsame o').initialized.symm.trans hidle) i'

theorem detach_leaves (env : Environment) (h : Inv w) (hid : (w.pad o i).id ≠ 0) :
    Leaves (Only o i) w (detach env o i w).2 ∧ ((detach env o i w).2.pad o i).id = 0 := by
  have hserved := serve_leaves (P := fun _ _ => False) env h
  rw [detach]
  dsimp only
  refine ⟨(hserved.mono fun _ _ hfalse => hfalse.elim).trans (.detached hserved.inv ?_), ?_⟩
  · rw [hserved.pad not_false]
    exact hid
  · rw [pad_setPad]

/-- After a device is closed there is none in its slot. -/
theorem closePad_leaves (env : Environment) (h : Inv w) (o : ℕ) (i : Fin 4) :
    Leaves (Only o i) w (closePad env o i w).2 ∧ ((closePad env o i w).2.pad o i).id = 0 := by
  have hstopped := stopDevice_leaves (P := Only o i) env h o i
  have hclosed := hstopped.trans (closeGamepad_leaves env hstopped.inv o i)
  rw [closePad]
  split
  · next hid =>
    obtain ⟨hdetached, hzero⟩ := detach_leaves env hclosed.inv hid
    exact ⟨hclosed.trans hdetached, hzero⟩
  · next hid => exact ⟨hclosed, not_not.mp hid⟩

/-- The target of a slot is the user and the handle that the slot has. -/
def Aimed (w : World) (o : ℕ) (i : Fin 4) : Prop :=
  ((w.objects o).targets i).user = ((w.objects o).native.slots i).user ∧
    ((w.objects o).targets i).handle = ((w.objects o).native.slots i).handle

theorem Leaves.aimed (h : Leaves P w w') (haimed : Aimed w o i) : Aimed w' o i := by
  rw [Aimed, (h.objects o).targets, (h.objects o).slots i]
  exact haimed

theorem Leaves.initialized (h : Leaves P w w') (o : ℕ) :
    (w'.objects o).initialized = (w.objects o).initialized := (h.objects o).initialized

/-- A slot without a device gets one. -/
theorem Leaves.attached (h : Inv w) (hfree : (w.pad o i).id = 0)
    (hinit : (w.objects o).initialized = true) (haimed : Aimed w o i) {id : ℕ}
    (hid : w.nextId ≤ id) : Leaves (Only o i) w (w.attach o i id) := by
  have hpos : 0 < id := h.next.trans_le hid
  -- the number is past every one handed out, so no device carries it yet
  have hnew : AuroraInput.attached w.log id = none := by
    by_contra hsome
    obtain ⟨device, hdevice⟩ := Option.ne_none_iff_exists'.mp hsome
    exact absurd (h.devices id device hdevice).lt (not_lt.mpr hid)
  -- and no device sits at this slot, whose own number is zero
  have hnone : ∀ other device, AuroraInput.attached w.log other = some device →
      ¬ Only o i device.object device.slot := by
    rintro other device hdevice ⟨hobject, hslot⟩
    have hfits := h.devices other device hdevice
    have hpad := hfits.pad
    rw [hobject, hslot, hfree] at hpad
    exact absurd hpad hfits.pos.ne
  have hother : ∀ o' i', ¬ Only o i o' i' → (w.attach o i id).pad o' i' = w.pad o' i' :=
    fun o' i' hne => pad_setPad_of_ne _ hne _
  have hself : (w.attach o i id).pad o i = { w.pad o i with id := id } := pad_setPad ..
  have hsame : ∀ o', SameObject (Only o i o') (w.objects o') ((w.attach o i id).objects o') :=
    setPad_same _ o i _
  have hlog : AuroraInput.attached (w.attach o i id).log =
      Function.update (AuroraInput.attached w.log) id (some ⟨id, o, i,
        ((w.objects o).native.slots i).user, ((w.objects o).native.slots i).handle,
        (w.pad o i).rumble⟩) := rfl
  refine ⟨?_, rfl, fun _ => rfl, hsame⟩
  constructor
  · exact ⟨⟨hpos.ne', hnew, fun other device hdevice => hnone other device hdevice⟩, h.safe⟩
  · exact natives_setPad h.natives o i _
  · exact Nat.succ_pos id
  · intro number device hdevice
    rw [hlog] at hdevice
    -- the new device is at the slot it was attached to; any other is where it was
    by_cases heq : number = id
    · subst heq
      rw [Function.update_self] at hdevice
      obtain rfl := Option.some.inj hdevice
      refine ⟨rfl, hpos, Nat.lt_succ_self _, ?_, ?_, ?_⟩
      · exact congrArg VirtualPad.id hself
      · rw [(hsame _).targets]
        exact haimed.1
      · rw [(hsame _).targets]
        exact haimed.2
    · rw [Function.update_of_ne heq] at hdevice
      have hfits := h.devices number device hdevice
      refine ⟨hfits.number, hfits.pos, hfits.lt.trans_le (hid.trans (Nat.le_succ id)), ?_, ?_, ?_⟩
      · rw [hother _ _ (hnone number device hdevice)]
        exact hfits.pad
      · rw [(hsame _).targets]
        exact hfits.user
      · rw [(hsame _).targets]
        exact hfits.handle
  · intro o' i' hne
    by_cases honly : Only o i o' i'
    · obtain ⟨rfl, rfl⟩ := honly
      rw [hself]
      exact ⟨_, Function.update_self .., rfl, rfl⟩
    · rw [hother o' i' honly] at hne ⊢
      obtain ⟨device, hdevice, hplace⟩ := h.pads o' i' hne
      have hnumber : (w.pad o' i').id ≠ id := by
        rintro rfl
        exact absurd (hdevice.symm.trans hnew) (Option.some_ne_none _)
      exact ⟨device, (Function.update_of_ne hnumber ..).trans hdevice, hplace⟩
  · intro o' i' hrumble
    rw [(hsame o').targets]
    by_cases honly : Only o i o' i'
    · obtain ⟨rfl, rfl⟩ := honly
      rw [hself] at hrumble
      exact h.targets o' i' hrumble
    · rw [hother o' i' honly] at hrumble
      exact h.targets o' i' hrumble
  · intro o' hidle i'
    have hidle' := (hsame o').initialized.symm.trans hidle
    by_cases honly : Only o i o' i'
    · obtain ⟨rfl, rfl⟩ := honly
      exact absurd (hinit.symm.trans hidle') nofun
    · rw [hother o' i' honly]
      exact h.idle o' hidle' i'

theorem attachPad_leaves (env : Environment) (h : Inv w)
    (hinit : (w.objects o).initialized = true) (haimed : Aimed w o i) :
    Leaves (Only o i) w (attachPad env o i w).2 := by
  rw [attachPad]
  split
  · exact .refl h
  · next hfree =>
    have hserved := serve_leaves (P := fun _ _ => False) env h
    have hfirst := hserved.mono (Q := Only o i) fun _ _ hfalse => hfalse.elim
    dsimp only
    split
    · exact hfirst
    · have hattached := hfirst.trans (.attached hfirst.inv
        (by rw [hserved.pad not_false]; exact not_not.mp hfree)
        ((hfirst.initialized o).trans hinit) (hfirst.aimed haimed)
        (Nat.le_add_right (serve env w).nextId (env.skips w.clock)))
      have hid : (((serve env w).attach o i
          ((serve env w).nextId + env.skips w.clock)).pad o i).id ≠ 0 := by
        rw [World.attach, pad_setPad]
        exact (hfirst.inv.next.trans_le (Nat.le_add_right _ _)).ne'
      generalize (serve env w).attach o i _ = w₁ at hattached hid
      have hopened := serve_leaves (P := fun _ _ => False) env hattached.inv
      have hsecond := hattached.trans (hopened.mono (Q := Only o i) fun _ _ hfalse => hfalse.elim)
      split
      · refine hsecond.trans (detach_leaves env hsecond.inv ?_).1
        rw [hopened.pad not_false]
        exact hid
      · have hgamepad := hsecond.trans (setGamepad_leaves hsecond.inv o i true)
        have hthird := hgamepad.trans (serve_leaves env hgamepad.inv)
        split
        · exact hthird.trans (closePad_leaves env hthird.inv o i).1
        · exact hthird

theorem feedAxes_leaves (env : Environment) (h : Inv w) (id : ℕ) (sample : PadSample)
    (axes : List (Fin 6)) : Leaves P w (feedAxes env id sample axes w).2 := by
  induction axes generalizing w with
  | nil => exact .refl h
  | cons axis rest ih =>
    have hserved := serve_leaves (P := P) env h
    have hfed := hserved.trans (.note (e := .axis id axis (axisValue sample axis)) hserved.inv
      ⟨fun _ => rfl, fun _ _ => rfl⟩ trivial)
    rw [feedAxes]
    split
    · exact hfed.trans (ih hfed.inv)
    · exact hfed

theorem feedButtons_leaves (env : Environment) (h : Inv w) (id : ℕ) (sample : PadSample)
    (buttons : List (ℕ × ℕ)) : Leaves P w (feedButtons env id sample buttons w).2 := by
  induction buttons generalizing w with
  | nil => exact .refl h
  | cons button rest ih =>
    obtain ⟨mask, k⟩ := button
    have hserved := serve_leaves (P := P) env h
    have hfed := hserved.trans (.note (e := .button id k
      (¬ sample.intercepted ∧ sample.buttons &&& mask ≠ 0)) hserved.inv
      ⟨fun _ => rfl, fun _ _ => rfl⟩ trivial)
    rw [feedButtons]
    split
    · exact hfed.trans (ih hfed.inv)
    · exact hfed

theorem feed_leaves (env : Environment) (h : Inv w) (o : ℕ) (i : Fin 4) (sample : PadSample) :
    Leaves P w (feed env o i sample w).2 := by
  have haxes := feedAxes_leaves (P := P) env h (w.pad o i).id sample (List.finRange 6)
  rw [feed]
  dsimp only
  split
  · exact haxes
  · have hbuttons := haxes.trans (feedButtons_leaves (P := P) env haxes.inv (w.pad o i).id sample
      buttonMasks.zipIdx)
    split
    · exact hbuttons
    · exact hbuttons.trans (serve_leaves env hbuttons.inv)

theorem updatePad_leaves (env : Environment) (h : Inv w)
    (hinit : (w.objects o).initialized = true) (haimed : Aimed w o i) (sample : PadSample) :
    Leaves (Only o i) w (updatePad env o i sample w).2 := by
  rw [updatePad]
  split
  · exact (closePad_leaves env h o i).1
  · have hattached := attachPad_leaves env h hinit haimed
    dsimp only
    split
    · exact hattached
    · exact hattached.trans (feed_leaves env hattached.inv o i sample)

/-! ### Polling -/

/-- What a poll leaves: who owns the input, and who holds the subsystems. -/
structure Stays (w w' : World) : Prop where
  inv : Inv w'
  active : w'.active = w.active
  held : ∀ o, holds o w'.log = holds o w.log
  initialized : ∀ o, (w'.objects o).initialized = (w.objects o).initialized
  native : ∀ o, (w'.objects o).native.initialized = (w.objects o).native.initialized

theorem Stays.refl (h : Inv w) : Stays w w := ⟨h, rfl, fun _ => rfl, fun _ => rfl, fun _ => rfl⟩

theorem Stays.trans {w₁ w₂ w₃ : World} (h : Stays w₁ w₂) (h' : Stays w₂ w₃) : Stays w₁ w₃ :=
  ⟨h'.inv, h'.active.trans h.active, fun o => (h'.held o).trans (h.held o),
    fun o => (h'.initialized o).trans (h.initialized o), fun o => (h'.native o).trans (h.native o)⟩

theorem Leaves.stays (h : Leaves P w w') : Stays w w' :=
  ⟨h.inv, h.active, h.held, h.initialized, fun o => (h.objects o).native.initialized⟩

/-- A slot without a device gets a new target. -/
theorem Stays.retargeted (h : Inv w) (hfree : (w.pad o i).id = 0) (user handle : ℤ) :
    Stays w (w.update o fun x => x.retarget o i user handle) := by
  generalize hw' : (w.update o fun x => x.retarget o i user handle) = w'
  have hsame : ∀ o', (w'.objects o').initialized = (w.objects o').initialized ∧
      (w'.objects o').native = (w.objects o').native := by
    subst hw'
    exact forall_update (P := fun o' x => x.initialized = (w.objects o').initialized ∧
      x.native = (w.objects o').native) (fun _ _ => ⟨rfl, rfl⟩) ⟨rfl, rfl⟩
  have hother : ∀ o' i', ¬ Only o i o' i' → w'.pad o' i' = w.pad o' i' ∧
      (w'.objects o').targets i' = (w.objects o').targets i' := by
    subst hw'
    refine forall_update (P := fun o' x => ∀ i', ¬ Only o i o' i' → x.pads i' = w.pad o' i' ∧
      x.targets i' = (w.objects o').targets i') (fun _ _ _ _ => ⟨rfl, rfl⟩) fun i' hne => ?_
    have hi : i' ≠ i := fun heq => hne ⟨rfl, heq⟩
    exact ⟨Function.update_of_ne hi .., Function.update_of_ne hi ..⟩
  have hself : w'.pad o i = { w.pad o i with rumble := true } ∧
      (w'.objects o).targets i = ⟨some o, i, user, handle⟩ := by
    subst hw'
    rw [World.pad, objects_update]
    exact ⟨Function.update_self .., Function.update_self ..⟩
  have hid : ∀ o' i', (w'.pad o' i').id = (w.pad o' i').id := by
    intro o' i'
    by_cases honly : Only o i o' i'
    · obtain ⟨rfl, rfl⟩ := honly
      rw [hself.1]
    · rw [(hother o' i' honly).1]
  have hlog : w'.log = w.log := hw' ▸ rfl
  have hactive : w'.active = w.active := hw' ▸ rfl
  have hnext : w'.nextId = w.nextId := hw' ▸ rfl
  refine ⟨?_, hactive, fun o' => by rw [hlog], fun o' => (hsame o').1,
    fun o' => congrArg NativePads.World.initialized (hsame o').2⟩
  constructor
  · exact hlog ▸ h.safe
  · exact fun o' => (hsame o').2 ▸ h.natives o'
  · exact hnext ▸ h.next
  · intro id device hdevice
    rw [hlog] at hdevice
    have hfits := h.devices id device hdevice
    -- the slot has no device whose target could change
    have helse : ¬ Only o i device.object device.slot := by
      rintro ⟨hobject, hslot⟩
      have hpad := hfits.pad
      rw [hobject, hslot, hfree] at hpad
      exact absurd hpad hfits.pos.ne
    refine ⟨hfits.number, hfits.pos, hnext ▸ hfits.lt, (hid _ _).trans hfits.pad, ?_, ?_⟩
    · rw [(hother _ _ helse).2]
      exact hfits.user
    · rw [(hother _ _ helse).2]
      exact hfits.handle
  · intro o' i' hne
    rw [hid] at hne ⊢
    rw [hlog]
    exact h.pads o' i' hne
  · intro o' i' hrumble
    by_cases honly : Only o i o' i'
    · obtain ⟨rfl, rfl⟩ := honly
      rw [hself.2]
      exact ⟨rfl, rfl⟩
    · rw [(hother o' i' honly).2]
      exact h.targets o' i' ((hother o' i' honly).1 ▸ hrumble)
  · intro o' hidle i'
    rw [hid]
    exact h.idle o' ((hsame o').1.symm.trans hidle) i'

/-- After a slot is looked at, its target is what it has. -/
theorem retarget_post (env : Environment) (h : Inv w) (o : ℕ) (i : Fin 4) :
    (retarget env o i w).Post (fun _ w' => Stays w w' ∧ Aimed w' o i) (Stays w) := by
  rw [retarget]
  dsimp only
  split
  · obtain ⟨hclosed, hfree⟩ := closePad_leaves env h o i
    split
    · exact Attempt.post_error hclosed.stays
    · refine Attempt.post_ok ⟨hclosed.stays.trans (.retargeted hclosed.inv hfree _ _), ?_⟩
      rw [Aimed, objects_update]
      have htarget := Function.update_self i
        (⟨some o, i, (((closePad env o i w).2.objects o).native.slots i).user,
          (((closePad env o i w).2.objects o).native.slots i).handle⟩ : RumbleTarget)
        ((closePad env o i w).2.objects o).targets
      exact ⟨congrArg RumbleTarget.user htarget, congrArg RumbleTarget.handle htarget⟩
  · next hsame =>
    obtain ⟨huser, hhandle⟩ := not_or.mp hsame
    exact Attempt.post_ok ⟨.refl h, not_not.mp huser, not_not.mp hhandle⟩

theorem noteRead_leaves (h : Inv w) (o : ℕ) (i : Fin 4) : Leaves P w (noteRead o i w) := by
  refine .update h o ?_ ?_
  · dsimp only
    split
    · exact h.natives o
    · exact h.natives o
  · dsimp only
    split
    · exact ⟨rfl, .refl _, fun _ => rfl, rfl, fun _ _ => rfl⟩
    · exact .refl _ _

theorem pollSlot_post (env : Environment) (h : Inv w) (hinit : (w.objects o).initialized = true)
    (i : Fin 4) : (pollSlot env o i w).Post (fun _ w' => Stays w w') (Stays w) := by
  rw [pollSlot]
  refine (retarget_post env h o i).andThen fun _ w₁ hretargeted => ?_
  obtain ⟨hstays, haimed⟩ := hretargeted
  have hupdated := updatePad_leaves env hstays.inv ((hstays.initialized o).trans hinit) haimed
    ((w₁.objects o).sample i (env.held w₁.clock))
  have hboth := hstays.trans hupdated.stays
  dsimp only
  split
  · exact Attempt.post_error hboth
  · exact Attempt.post_ok (hboth.trans (noteRead_leaves (P := Only o i) hboth.inv o i).stays)

theorem pollSlots_post (env : Environment) (h : Inv w) (hinit : (w.objects o).initialized = true)
    (slots : List (Fin 4)) : (pollSlots env o slots w).Post (fun _ w' => Stays w w') (Stays w) := by
  induction slots generalizing w with
  | nil => exact Attempt.post_ok (.refl h)
  | cons i rest ih =>
    refine (pollSlot_post env h hinit i).andThen fun _ w₁ hfirst => ?_
    exact (ih hfirst.inv ((hfirst.initialized o).trans hinit)).imp
      (fun _ _ hrest => hfirst.trans hrest) fun _ hrest => hfirst.trans hrest

theorem push_leaves (h : Inv w) (o : ℕ) (events : List AuroraEvent) :
    Leaves P w (w.push o events) :=
  .update h o (h.natives o) ⟨rfl, .refl _, fun _ => rfl, rfl, fun _ _ => rfl⟩

theorem translate_leaves (env : Environment) (h : Inv w) (o : ℕ) (event : SdlEvent) :
    Leaves P w (translate env o w event) := by
  have hserved := serve_leaves (P := P) env h
  cases event with
  | gamepadAdded which =>
    rw [translate]
    split
    · exact hserved
    · exact hserved.trans (push_leaves hserved.inv o _)
  | gamepadRemapped which =>
    rw [translate]
    split
    · exact hserved.trans (push_leaves hserved.inv o _)
    · exact hserved
  | gamepadRemoved which => exact hserved.trans (push_leaves hserved.inv o _)
  | quit => exact push_leaves h o _
  | other type => exact .refl h

theorem pollEvents_leaves (env : Environment) (h : Inv w) (o : ℕ) (events : List SdlEvent) :
    Leaves P w (pollEvents env o events w) := by
  induction events generalizing w with
  | nil =>
    have hserved := serve_leaves (P := P) env h
    exact hserved.trans (push_leaves hserved.inv o _)
  | cons event rest ih =>
    have hserved := serve_leaves (P := P) env h
    have htranslated := hserved.trans (translate_leaves env hserved.inv o event)
    have hpushed := htranslated.trans (push_leaves htranslated.inv o [.sdl event])
    exact hpushed.trans (ih hpushed.inv)

/-- The native side of an object changes. -/
theorem Inv.native (h : Inv w) (o : ℕ) {f : Object → Object}
    (hnative : NativePads.Inv (f (w.objects o)).native)
    (halike : Alike (w.objects o) (f (w.objects o))) : Inv (w.update o f) := by
  refine h.alike h.safe ?_ rfl rfl ?_
  · exact forall_update (P := fun _ x => NativePads.Inv x.native) (fun o' _ => h.natives o') hnative
  · exact forall_update (P := fun o' => Alike (w.objects o')) (fun _ _ => .refl _) halike

theorem Stays.native_update (h : Inv w) (o : ℕ) {f : Object → Object}
    (hnative : NativePads.Inv (f (w.objects o)).native)
    (halike : Alike (w.objects o) (f (w.objects o)))
    (hused : (f (w.objects o)).native.initialized = (w.objects o).native.initialized) :
    Stays w (w.update o f) := by
  refine ⟨h.native o hnative halike, rfl, fun _ => rfl, ?_, ?_⟩
  · exact forall_update (P := fun o' x => x.initialized = (w.objects o').initialized)
      (fun _ _ => rfl) halike.initialized
  · exact forall_update (P := fun o' x => x.native.initialized = (w.objects o').native.initialized)
      (fun _ _ => rfl) hused

theorem readNative_stays (env : Environment) (h : Inv w) (o : ℕ) :
    Stays w (w.setNative o (NativePads.read (env.native o) (w.objects o).native)) := by
  obtain ⟨hread, hsteady, _⟩ := NativePads.read_spec (env.native o) (h.natives o)
  exact .native_update h o hread ⟨rfl, rfl, fun _ => rfl, fun _ => rfl⟩ hsteady.initialized

theorem pollNative_stays (env : Environment) (h : Inv w) (o : ℕ) :
    Stays w (pollNative env o w) := by
  obtain ⟨hinv, hsteady, _⟩ := NativePads.refresh_spec (env.native o) (h.natives o)
  have hrefreshed : Stays w (w.update o fun x =>
      { x with
        events := []
        nativeError := (NativePads.refresh (env.native o) (w.objects o).native).1
        native := (NativePads.refresh (env.native o) (w.objects o).native).2 }) :=
    .native_update h o hinv ⟨rfl, rfl, fun _ => rfl, fun _ => rfl⟩ hsteady.initialized
  have hserved := hrefreshed.trans
    (serve_leaves (P := fun _ _ => False) env hrefreshed.inv).stays
  have hboth := hserved.trans (readNative_stays env hserved.inv o)
  exact hboth.trans (serve_leaves (P := fun _ _ => False) env hboth.inv).stays

/-- A poll does not change who owns the input, also where it throws. -/
theorem poll_stays (env : Environment) (h : Inv w) (o : ℕ) : Stays w (poll env o w).2 := by
  rw [poll]
  split
  · exact .refl h
  · next hready =>
    have hnative := pollNative_stays env h o
    have hinit := (hnative.initialized o).trans (not_not.mp hready)
    refine Attempt.Post.left (Q := fun _ => Stays w) (E := Stays w) ?_ fun _ _ hstays => hstays
    refine (pollSlots_post env hnative.inv hinit (List.finRange 4)).imp
      (fun _ _ hslots => hnative.trans hslots) (fun _ hslots => hnative.trans hslots) |>.andThen
        fun _ w₁ hslots => ?_
    exact Attempt.post_ok (hslots.trans
      (pollEvents_leaves (P := Only o 0) env hslots.inv o (env.polls w₁.clock)).stays)

/-! ### Beginning and end -/

/-- An object holds the subsystems of SDL while it is initialized. -/
def Balanced (w : World) : Prop :=
  ∀ o, holds o w.log = if (w.objects o).initialized then 1 else 0

theorem Stays.balanced (h : Stays w w') (hbalanced : Balanced w) : Balanced w' := by
  intro o
  rw [h.held, h.initialized]
  exact hbalanced o

/-- The subsystems are noted, which the invariant does not see. -/
theorem Inv.noted (h : Inv w) {e : Event} (hattached : attached (e :: w.log) = attached w.log)
    (hsafe : e.Safe w.log) : Inv (w.note e) :=
  h.alike ⟨hsafe, h.safe⟩ h.natives rfl hattached fun _ => .refl _

/-- Who is initialized, or has native pads in use, owns the input. -/
def Owned (w : World) : Prop :=
  ∀ o, (w.objects o).initialized = true ∨ (w.objects o).native.initialized = true →
    w.active = some o

theorem Stays.owned (h : Stays w w') (howned : Owned w) : Owned w' := by
  intro o howns
  rw [h.initialized, h.native] at howns
  exact h.active.trans (howned o howns)

/-- What holds between calls. -/
structure Good (w : World) : Prop where
  inv : Inv w
  balanced : Balanced w
  owned : Owned w

theorem Stays.good (h : Stays w w') (hgood : Good w) : Good w' :=
  ⟨h.inv, h.balanced hgood.balanced, h.owned hgood.owned⟩

/-- An object may begin: nobody is initialized, and no other object has native pads in use. -/
structure Starting (w : World) (o : ℕ) (held : ℤ) : Prop where
  inv : Inv w
  idle : ∀ o', (w.objects o').initialized = false
  others : ∀ o', o' ≠ o → (w.objects o').native.initialized = false
  held : ∀ o', holds o' w.log = if o' = o then held else 0

theorem Good.starting (h : Good w) (hinit : (w.objects o).initialized = false)
    (hactive : ∀ o', w.active = some o' → o' = o) : Starting w o 0 := by
  have hothers : ∀ o', o' ≠ o → (w.objects o').initialized = false ∧
      (w.objects o').native.initialized = false := by
    intro o' hne
    have hnot := not_or.mp fun howns => hne (hactive o' (h.owned o' howns))
    exact ⟨Bool.not_eq_true _ ▸ hnot.1, Bool.not_eq_true _ ▸ hnot.2⟩
  have hidle : ∀ o', (w.objects o').initialized = false := by
    intro o'
    by_cases ho : o' = o
    · exact ho ▸ hinit
    · exact (hothers o' ho).1
  refine ⟨h.inv, hidle, fun o' hne => (hothers o' hne).2, fun o' => ?_⟩
  rw [h.balanced o', hidle o', ite_self]
  rfl

theorem Starting.leaves {n : ℤ} (h : Starting w o n) (hleaves : Leaves P w w') :
    Starting w' o n :=
  ⟨hleaves.inv, fun o' => (hleaves.initialized o').trans (h.idle o'),
    fun o' hne => (hleaves.objects o').native.initialized.trans (h.others o' hne),
    fun o' => (hleaves.held o').trans (h.held o')⟩

theorem Starting.native {n : ℤ} (h : Starting w o n) {f : Object → Object}
    (hnative : NativePads.Inv (f (w.objects o)).native)
    (halike : Alike (w.objects o) (f (w.objects o))) : Starting (w.update o f) o n := by
  refine ⟨h.inv.native o hnative halike, ?_, fun o' hne => ?_, h.held⟩
  · exact forall_update (P := fun _ x => x.initialized = false) (fun o' _ => h.idle o')
      (halike.initialized.trans (h.idle o))
  · rw [objects_update_of_ne _ hne]
    exact h.others o' hne

theorem Starting.inited (h : Starting w o 0) : Starting (w.note (.inited o)) o 1 := by
  refine ⟨h.inv.noted rfl trivial, h.idle, h.others, fun o' => ?_⟩
  rw [World.note, holds, h.held o']
  by_cases ho : o = o'
  · rw [if_pos ho, if_pos ho.symm, if_pos ho.symm, zero_add]
  · rw [if_neg ho, if_neg (Ne.symm ho), if_neg (Ne.symm ho)]

theorem Starting.quit (h : Starting w o 1) : Starting (w.note (.quit o)) o 0 := by
  refine ⟨h.inv.noted rfl trivial, h.idle, h.others, fun o' => ?_⟩
  rw [World.note, holds, h.held o']
  by_cases ho : o = o'
  · rw [if_pos ho, if_pos ho.symm, if_pos ho.symm, sub_self]
  · rw [if_neg ho, if_neg (Ne.symm ho), if_neg (Ne.symm ho)]

/-- An object that did not begin owns the input only with native pads. -/
theorem Starting.good (h : Starting w o 0)
    (hactive : (w.objects o).native.initialized = true → w.active = some o) : Good w := by
  refine ⟨h.inv, fun o' => ?_, fun o' howns => ?_⟩
  · rw [h.held o', h.idle o', ite_self]
    rfl
  · have hnative := howns.resolve_left (Bool.eq_false_iff.mp (h.idle o'))
    by_cases ho : o' = o
    · subst ho
      exact hactive hnative
    · exact absurd hnative (Bool.eq_false_iff.mp (h.others o' ho))

/-- An object becomes initialized, or is no longer and has no devices. -/
theorem Inv.turned (h : Inv w) {f : Object → Object}
    (hnative : (f (w.objects o)).native = (w.objects o).native)
    (htargets : (f (w.objects o)).targets = (w.objects o).targets)
    (hpads : (f (w.objects o)).pads = (w.objects o).pads)
    (hempty : (f (w.objects o)).initialized = false → ∀ i, (w.pad o i).id = 0) :
    Inv (w.update o f) := by
  have hsame : ∀ o', ((w.update o f).objects o').targets = (w.objects o').targets ∧
      ((w.update o f).objects o').pads = (w.objects o').pads :=
    forall_update (P := fun o' x => x.targets = (w.objects o').targets ∧
      x.pads = (w.objects o').pads) (fun _ _ => ⟨rfl, rfl⟩) ⟨htargets, hpads⟩
  have hpad : ∀ o' i', (w.update o f).pad o' i' = w.pad o' i' :=
    fun o' i' => congrFun (hsame o').2 i'
  constructor
  · exact h.safe
  · exact forall_update (P := fun _ x => NativePads.Inv x.native) (fun o' _ => h.natives o')
      (hnative ▸ h.natives o)
  · exact h.next
  · intro id device hdevice
    obtain ⟨hnumber, hpos, hlt, hid, huser, hhandle⟩ := h.devices id device hdevice
    refine ⟨hnumber, hpos, hlt, ?_, ?_, ?_⟩
    · rw [hpad, hid]
    · rw [(hsame _).1, huser]
    · rw [(hsame _).1, hhandle]
  · intro o' i' hne
    rw [hpad] at hne ⊢
    exact h.pads o' i' hne
  · intro o' i' hrumble
    rw [(hsame o').1]
    exact h.targets o' i' (hpad o' i' ▸ hrumble)
  · intro o' hidle i'
    rw [hpad]
    by_cases ho : o' = o
    · subst ho
      rw [objects_update] at hidle
      exact hempty hidle i'
    · rw [objects_update_of_ne _ ho] at hidle
      exact h.idle o' hidle i'

/-- An object that begins owns the input. -/
theorem Starting.begun (h : Starting w o 1) (script : Option Bool) :
    Good ({ w with active := some o }.update o fun x =>
      { x with initialized := true, autopilot := script.getD x.autopilot }) := by
  have hinv : Inv { w with active := some o } :=
    h.inv.alike h.inv.safe h.inv.natives rfl rfl fun _ => .refl _
  refine ⟨hinv.turned rfl rfl rfl nofun, fun o' => ?_, fun o' howns => ?_⟩
  · refine (h.held o').trans ?_
    by_cases ho : o' = o
    · subst ho
      rw [objects_update, if_pos rfl]
      rfl
    · rw [objects_update_of_ne _ ho, if_neg ho, h.idle o']
      rfl
  · by_cases ho : o' = o
    · exact ho ▸ rfl
    · rw [objects_update_of_ne _ ho] at howns
      exact howns.elim (fun hon => absurd hon (Bool.eq_false_iff.mp (h.idle o')))
        fun hon => absurd hon (Bool.eq_false_iff.mp (h.others o' ho))

theorem initializeNative_good (env : Environment) (h : Starting w o 1) :
    Good (initializeNative env o w).2 := by
  have hnative := (NativePads.initializePads_inv (env.native o) (h.inv.natives o)).1
  have hstarted : Starting (w.update o fun x => { x with
      native := (NativePads.initializePads (env.native o) (w.objects o).native).2
      nativeError := (NativePads.initializePads (env.native o) (w.objects o).native).1 }) o 1 :=
    h.native hnative ⟨rfl, rfl, fun _ => rfl, fun _ => rfl⟩
  have hserved := hstarted.leaves (serve_leaves (P := fun _ _ => False) env hstarted.inv)
  rw [initializeNative]
  dsimp only
  generalize serve env _ = w₁ at hserved
  split
  · have hquit : Starting (quitSubSystem env o w₁) o 0 :=
      (hserved.leaves (serve_leaves (P := fun _ _ => False) env hserved.inv)).quit
    split
    · have howner : Starting { quitSubSystem env o w₁ with active := some o } o 0 :=
        ⟨hquit.inv.alike hquit.inv.safe hquit.inv.natives rfl rfl fun _ => .refl _,
          hquit.idle, hquit.others, hquit.held⟩
      exact howner.good fun _ => rfl
    · next hidle => exact hquit.good fun hused => absurd hused hidle
  · exact hserved.begun (env.script w₁.clock)

theorem initializeInput_good (env : Environment) (h : Good w) (o : ℕ) (backgroundEvents : Bool) :
    Good (initializeInput env o backgroundEvents w).2 := by
  rw [initializeInput]
  split
  · exact h
  · next hinit =>
    split
    · exact h
    · next howner =>
      split
      · exact h
      · next hnative =>
        have hactive : ∀ o', w.active = some o' → o' = o := by
          intro o' hsome
          rw [hsome] at howner
          simpa using howner
        have hstarting := h.starting (Bool.not_eq_true _ ▸ hinit) hactive
        have hhinted : Starting { w with background := some backgroundEvents } o 0 :=
          ⟨h.inv.alike h.inv.safe h.inv.natives rfl rfl fun _ => .refl _, hstarting.idle,
            hstarting.others, hstarting.held⟩
        have hserves := serve_leaves (P := fun _ _ => False) env hhinted.inv
        have hserved := hhinted.leaves hserves
        rw [initSubSystem]
        dsimp only
        cases env.inits w.clock with
        | false =>
          refine hserved.good fun hused => ?_
          rw [(hserves.objects o).native.initialized] at hused
          exact absurd hused hnative
        | true => exact initializeNative_good env hserved.inited

/-- After the devices of an object are closed it has none. -/
theorem closePads_leaves (env : Environment) (h : Inv w) (o : ℕ) (slots : List (Fin 4))
    (failure : ℤ) : Leaves (fun o' _ => o' = o) w (closePads env o slots failure w).2 ∧
      ∀ i, (w.pad o i).id = 0 ∨ i ∈ slots →
        ((closePads env o slots failure w).2.pad o i).id = 0 := by
  induction slots generalizing w failure with
  | nil => exact ⟨.refl h, fun i hi => hi.resolve_right List.not_mem_nil⟩
  | cons first rest ih =>
    obtain ⟨hclosed, hzero⟩ := closePad_leaves env h o first
    -- PAD lets go of the device, which leaves all devices alone
    have hremoved : Leaves (fun _ _ => False) (closePad env o first w).2
        (if (w.pad o first).id ≠ 0 then serve env (closePad env o first w).2
          else (closePad env o first w).2) := by
      split
      · exact serve_leaves env hclosed.inv
      · exact .refl hclosed.inv
    have hpads : ∀ i, (w.pad o i).id = 0 ∨ i = first →
        ((if (w.pad o first).id ≠ 0 then serve env (closePad env o first w).2
          else (closePad env o first w).2).pad o i).id = 0 := by
      intro i hi
      rw [hremoved.pad not_false]
      by_cases hfirst : i = first
      · exact hfirst ▸ hzero
      · rw [hclosed.pad fun honly => hfirst honly.2]
        exact hi.resolve_right hfirst
    have hboth := (hclosed.mono fun _ _ honly => honly.1).trans
      (hremoved.mono (Q := fun o' _ => o' = o) fun _ _ hfalse => hfalse.elim)
    rw [closePads]
    dsimp only
    obtain ⟨hrest, hempty⟩ := ih hboth.inv (if (closePad env o first w).1 then failure else -1)
    refine ⟨hboth.trans hrest, fun i hi => hempty i ?_⟩
    rcases hi with hi | hi
    · exact Or.inl (hpads i (Or.inl hi))
    · exact (List.mem_cons.mp hi).imp (fun hfirst => hpads i (Or.inr hfirst)) id

/-- An object without devices gives up the subsystems. -/
theorem Good.ended (h : Good w) (hinit : (w.objects o).initialized = true)
    (hempty : ∀ i, (w.pad o i).id = 0) :
    Good ((w.note (.quit o)).update o fun x => { x with initialized := false, events := [] }) := by
  have hinv : Inv (w.note (.quit o)) := h.inv.noted rfl trivial
  refine ⟨hinv.turned rfl rfl rfl fun _ => hempty, fun o' => ?_, fun o' howns => ?_⟩
  · change holds o' (.quit o :: w.log) = _
    rw [holds, h.balanced o']
    by_cases ho : o' = o
    · subst ho
      rw [objects_update, if_pos rfl, hinit]
      rfl
    · rw [objects_update_of_ne _ ho, if_neg (Ne.symm ho)]
      rfl
  · by_cases ho : o' = o
    · subst ho
      rw [objects_update] at howns
      exact h.owned o' (Or.inl hinit)
    · rw [objects_update_of_ne _ ho] at howns
      exact h.owned o' howns

theorem shutDown_good (env : Environment) (h : Good w) (o : ℕ) :
    Good (shutDown env o w).2 ∧ ((shutDown env o w).2.objects o).initialized = false := by
  rw [shutDown]
  split
  · next hinit =>
    obtain ⟨hclosed, hempty⟩ := closePads_leaves env h.inv o (List.finRange 4) 0
    have hserves := serve_leaves (P := fun _ _ => False) env hclosed.inv
    have hgood := hserves.stays.good (hclosed.stays.good h)
    dsimp only
    refine ⟨hgood.ended ?_ fun i => ?_, by rw [objects_update]⟩
    · rw [hserves.initialized, hclosed.initialized, hinit]
    · rw [hserves.pad not_false]
      exact hempty i (Or.inr (List.mem_finRange i))
  · next hinit => exact ⟨h, Bool.not_eq_true _ ▸ hinit⟩

/-- The native pads of an object that is not initialized are closed. -/
theorem close_good (env : Environment) (h : Good w) (o : ℕ) :
    Good (close env o w).2 ∧ ((close env o w).2.objects o).initialized = false := by
  obtain ⟨hshut, hinit⟩ := shutDown_good env h o
  rw [close]
  dsimp only
  generalize (shutDown env o w).2 = w₁ at hshut hinit
  have hnative := NativePads.close_inv (env.native o) (hshut.inv.natives o)
  have hused := NativePads.close_initialized (env.native o) (hshut.inv.natives o)
  generalize NativePads.close (env.native o) (w₁.objects o).native = result at hnative hused
  obtain ⟨rc, native⟩ := result
  have hclosed : Inv (w₁.update o fun x => { x with native := native, nativeError := rc }) :=
    hshut.inv.native o hnative ⟨rfl, rfl, fun _ => rfl, fun _ => rfl⟩
  have hserves := serve_leaves (P := fun _ _ => False) env hclosed
  have hinits : ∀ o', ((serve env (w₁.update o fun x =>
      { x with native := native, nativeError := rc })).objects o').initialized =
        (w₁.objects o').initialized := by
    intro o'
    rw [hserves.initialized]
    exact forall_update (P := fun o' x => x.initialized = (w₁.objects o').initialized)
      (fun _ _ => rfl) rfl o'
  -- a native pad that stays open belongs to the active object, and then the close failed
  have howns : ∀ o', ((serve env (w₁.update o fun x =>
      { x with native := native, nativeError := rc })).objects o').initialized = true ∨
        ((serve env (w₁.update o fun x =>
      { x with native := native, nativeError := rc })).objects o').native.initialized = true →
        w₁.active = some o' ∧ (o' = o → rc < 0) := by
    intro o'
    rw [hinits, (hserves.objects o').native.initialized]
    by_cases ho : o' = o
    · subst ho
      rw [objects_update, hinit]
      intro hon
      obtain ⟨hbefore, hrc⟩ := hused (hon.resolve_left nofun)
      exact ⟨hshut.owned o' (Or.inr hbefore), fun _ => hrc⟩
    · rw [objects_update_of_ne _ ho]
      exact fun hon => ⟨hshut.owned o' hon, fun heq => absurd heq ho⟩
  have hactive := hserves.active
  have hheld := hserves.held
  have hinv := hserves.inv
  generalize serve env _ = w₂ at hinits howns hactive hheld hinv
  have hbalanced : Balanced w₂ := by
    intro o'
    rw [hheld, hinits]
    exact hshut.balanced o'
  split
  · -- the active object lets go only when its close succeeded, so nobody is left
    next hgone =>
    have hnobody : ∀ o', ¬ ((w₂.objects o').initialized = true ∨
        (w₂.objects o').native.initialized = true) := by
      intro o' hon
      obtain ⟨howner, hrc⟩ := howns o' hon
      have ho : o' = o := Option.some.inj (howner.symm.trans (hactive.symm.trans hgone.2))
      exact absurd (hrc ho) (not_lt.mpr hgone.1)
    refine ⟨⟨hinv.alike hinv.safe hinv.natives rfl rfl fun _ => .refl _, hbalanced,
      fun o' hon => absurd hon (hnobody o')⟩, (hinits o).trans hinit⟩
  · exact ⟨⟨hinv, hbalanced, fun o' hon => hactive.trans (howns o' hon).1⟩, (hinits o).trans hinit⟩

/-! ### Runs -/

theorem step_good (env : Environment) (h : Good w) (call : Call) : Good (step env w call) := by
  cases call with
  | initializeInput o backgroundEvents => exact initializeInput_good env h o backgroundEvents
  | poll o => exact (poll_stays env h.inv o).good h
  | close o => exact (close_good env h o).1
  | callback c => exact (deliver_leaves (P := fun _ _ => False) env h.inv c).stays.good h

theorem start_good : Good .start where
  inv := ⟨trivial, fun _ => NativePads.start_inv, Nat.one_pos, nofun, fun _ _ hne => absurd rfl hne,
    nofun, fun _ _ _ => rfl⟩
  balanced _ := rfl
  owned _ howns := howns.elim nofun nofun

theorem run_good (env : Environment) (h : Good w) (calls : List Call) :
    Good (run env w calls) := by
  rw [run]
  induction calls generalizing w with
  | nil => exact h
  | cons call calls ih => exact ih (step_good env h call)

/-- Two devices of one slot are one. -/
theorem Inv.devices_unique (h : Inv w) {id id' : ℕ} {device device' : Device}
    (hdevice : attached w.log id = some device) (hdevice' : attached w.log id' = some device')
    (hobject : device'.object = device.object) (hslot : device'.slot = device.slot) : id' = id := by
  have hpad := (h.devices id' device' hdevice').pad
  rw [hobject, hslot, (h.devices id device hdevice).pad] at hpad
  exact hpad.symm

/-- An object that is not initialized has no devices. -/
theorem Inv.devices_idle (h : Inv w) (hinit : (w.objects o).initialized = false) {id : ℕ}
    {device : Device} (hdevice : attached w.log id = some device) : device.object ≠ o := by
  rintro rfl
  have hfits := h.devices id device hdevice
  exact hfits.pos.ne' (hfits.pad.symm.trans (h.idle _ hinit _))

/-- Who has handles owns the input. -/
theorem Good.owner_of_handle (h : Good w) (hhandle : 0 ≤ ((w.objects o).native.slots i).handle) :
    w.active = some o := by
  refine h.owned o (Or.inr ?_)
  by_contra hidle
  exact absurd ((h.inv.natives o).idle (Bool.not_eq_true _ ▸ hidle) i) (not_lt.mpr hhandle)

/-- What holds after any calls. -/
structure Protocol (env : Environment) (w : World) : Prop where
  /-- One object is initialized at a time, and only it has handles then. -/
  single : ∀ o o', (w.objects o).initialized = true → (w.objects o').initialized = true → o = o'
  exclusive : ∀ o o' i, (w.objects o).initialized = true →
    0 ≤ ((w.objects o').native.slots i).handle → o' = o
  /-- While an object has handles, no other can begin. -/
  refused : ∀ o o' i backgroundEvents, o' ≠ o → 0 ≤ ((w.objects o').native.slots i).handle →
    initializeInput env o backgroundEvents w = (.error .owner, w)
  subsystems : ∀ o, holds o w.log = if (w.objects o).initialized then 1 else 0
  devices : ∀ id id' device device', attached w.log id = some device →
    attached w.log id' = some device' → device'.object = device.object →
      device'.slot = device.slot → id' = id
  idle : ∀ o id device, (w.objects o).initialized = false → attached w.log id = some device →
    device.object ≠ o
  /-- Closing an object leaves it without devices, also where it fails. -/
  closes : ∀ o, ((close env o w).2.objects o).initialized = false ∧
    ∀ id device, attached (close env o w).2.log id = some device → device.object ≠ o
  safe : ∀ after e before, w.log = after ++ e :: before → e.Safe before

theorem input_ownership (env : Environment) (calls : List Call) :
    Protocol env (run env .start calls) := by
  have hgood := run_good env start_good calls
  generalize run env .start calls = w at hgood
  constructor
  · intro o o' ho ho'
    exact Option.some.inj ((hgood.owned o (Or.inl ho)).symm.trans (hgood.owned o' (Or.inl ho')))
  · intro o o' i ho hhandle
    exact Option.some.inj
      ((hgood.owner_of_handle hhandle).symm.trans (hgood.owned o (Or.inl ho)))
  · intro o o' i backgroundEvents hne hhandle
    have howner := hgood.owner_of_handle hhandle
    have hinit : ¬ (w.objects o).initialized = true := fun ho =>
      hne (Option.some.inj (howner.symm.trans (hgood.owned o (Or.inl ho))))
    rw [initializeInput, if_neg hinit, howner, if_pos]
    exact decide_eq_true hne
  · exact hgood.balanced
  · intro id id' device device' hdevice hdevice' hobject hslot
    exact hgood.inv.devices_unique hdevice hdevice' hobject hslot
  · exact fun o id device hidle hdevice => hgood.inv.devices_idle hidle hdevice
  · intro o
    obtain ⟨hclosed, hidle⟩ := close_good env hgood o
    exact ⟨hidle, fun id device hdevice => hclosed.inv.devices_idle hidle hdevice⟩
  · exact History.ok_iff.mp hgood.inv.safe

end Input.AuroraInput
