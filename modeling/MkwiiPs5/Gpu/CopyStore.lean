import MkwiiPs5.Gpu.BlitRect
import MkwiiPs5.Memory.FastPath
import MkwiiPs5.Overlay

/-!
# The store of EFB copies

`GxCopyStore` publishes GPU copies into Wii RAM lazily: it registers a deferred read
that encodes the copy into RAM when the guest first touches it. The model joins the
store's range map, the copy texture cache, the memory registry and RAM by physical
address. Operations that can throw return whether they came back.
-/

namespace Gpu

open Memory

/-- A GPU image. `π` stands for its pixels. -/
structure ColorTarget (π : Type*) where
  data : Bool
  descriptor : Bool
  width : ℕ
  height : ℕ
  image : π

/-- `GxColorCopy`, immutable once published. -/
structure GxColorCopy (π : Type*) where
  width : ℕ
  height : ℕ
  target : Option (ColorTarget π)
  format : ℕ
  nativeReadback : Option (ColorTarget π)

/-- The context of a deferred copy. -/
structure PendingColorCopy (π : Type*) where
  address : ℕ
  bytes : ℕ
  copy : GxColorCopy π

/-- The physical address behind a guest address. -/
def physicalOf (address : ℕ) : ℕ := address &&& 0x3fffffff

/-- What the store takes from outside this repository: the canonical form of a GX RAM
address, and the encoder of Wii texture data. -/
structure Backend (π : Type*) where
  canonicalizeGxMainRamAddress : ℕ → ℕ
  encodedSize : ℕ → ℕ → ℕ → ℕ
  encode : ℕ → ℕ → ℕ → π → Option (List UInt8)
  canonicalize_ram : ∀ address, address &&& 0xc0000000 ∈ ramWindows →
    (ramBankEnd (physicalOf address)).isSome →
    canonicalizeGxMainRamAddress address = physicalOf address
  encode_length : ∀ {format width height image bytes},
    encode format width height image = some bytes →
    bytes.length = encodedSize format width height

variable {π : Type*}

/-! ### Encoding a copy -/

def copyFormat (format : ℕ) : Bool := mkwCopyColorFormat format || mkwCopyDepthFormat format

/-- `native_color_copy_bytes`; `none` where it throws. -/
def nativeColorCopyBytes (be : Backend π) (copy : GxColorCopy π) : Option ℕ :=
  match copy.target, copy.nativeReadback.or copy.target with
  | some target, some native =>
    if !target.data || !copyFormat copy.format || !native.data || copy.width != native.width ||
        copy.height != native.height then none
    else
      let bytes := be.encodedSize copy.format copy.width copy.height
      if bytes = 0 ∨ bytes > 0xffffffff then none else some bytes
  | _, _ => none

/-- `encode_native_color_copy`. -/
def encodeNativeColorCopy (be : Backend π) (copy : GxColorCopy π) : Option (List UInt8) :=
  match copy.target, copy.nativeReadback.or copy.target with
  | some target, some native =>
    if !target.data || !copyFormat copy.format || !native.data || copy.width != native.width ||
        copy.height != native.height then none
    else if be.encodedSize copy.format copy.width copy.height = 0 then none
    else be.encode copy.format copy.width copy.height native.image
  | _, _ => none

/-- `PendingColorCopy::materialize`: encodes completely, then writes to RAM. -/
def materialize (be : Backend π) (pending : PendingColorCopy π) (ram : ℕ → UInt8) :
    Option (ℕ → UInt8) :=
  match encodeNativeColorCopy be pending.copy with
  | none => none
  | some bytes =>
    if bytes.length ≠ pending.bytes then none
    else some (Overlay.write ram (physicalOf pending.address) bytes)

/-! ### The machine -/

/-- `GxCopyStore::Entry`; `destination` is a host pointer. -/
structure Entry where
  bytes : ℕ
  token : ℕ
  destination : ℕ

/-- Registry, RAM, the views of the copy texture cache by destination, the range map of
the store in key order, and the tokens of the copies written to RAM so far. -/
structure Machine (π : Type*) where
  registry : Registry Unit (PendingColorCopy π)
  ram : ℕ → UInt8
  copies : ℕ → Option (GxColorCopy π)
  ranges : List (ℕ × Entry)
  materialised : List ℕ

/-- Failures the environment injects into one operation: conversions of pending copies by
token, and allocations of a publication. -/
structure Faults where
  conversion : ℕ → Bool
  prepare : Bool
  register : Bool
  insert : Bool

/-- The rounds of `ResolveDeferredReads`, bounded by the number of registrations. -/
def resolveLoop (rt : Runtime) (be : Backend π) (faults : Faults) (addr length : ℕ) :
    ℕ → Machine π → Machine π × Bool
  | 0, m => (m, false)
  | fuel + 1, m =>
    match findDeferredRead rt addr length m.registry with
    | none => (m, true)
    | some found =>
      if found.executing then (m, false)
      else
        let entered := setExecuting found.token true m.registry
        match (if faults.conversion found.token then none
          else materialize be found.user m.ram) with
        | none => ({ m with registry := setExecuting found.token false entered }, false)
        | some ram =>
          resolveLoop rt be faults addr length fuel { m with
            registry := finishDeferredRead rt { found with executing := true } entered
            ram := ram
            materialised := found.token :: m.materialised }

def resolveDeferredReads (rt : Runtime) (be : Backend π) (faults : Faults) (addr length : ℕ)
    (m : Machine π) : Machine π × Bool :=
  if length = 0 then (m, true)
  else if length > kAddressSpace - addr then (m, false)
  else resolveLoop rt be faults addr length (m.registry.reads.length + 1) m

/-! ### Publication -/

structure RamRange where
  physical : ℕ
  bytes : ℕ
  host : ℕ

/-- `checked_ram`; `none` where it throws. -/
def checkedRam (rt : Runtime) (be : Backend π) (address bytes : ℕ) : Option RamRange :=
  let physical := be.canonicalizeGxMainRamAddress address
  match ramBankEnd physical with
  | none => none
  | some limit =>
    if bytes = 0 ∨ bytes > limit - physical then none
    else (coherentAlias rt physical bytes ramWindows 0).map fun host => ⟨physical, bytes, host⟩

def overlaps (a an b bn : ℕ) : Bool := a < b + bn && b < a + an

/-- The incoming copy overwrites the whole range. -/
def RamRange.covers (incoming : RamRange) (start bytes : ℕ) : Bool :=
  incoming.physical ≤ start && incoming.physical + incoming.bytes ≥ start + bytes

/-- The first loop of `publish`: partly overwritten copies are written to RAM. -/
def resolvePartial (rt : Runtime) (be : Backend π) (faults : Faults) (incoming : RamRange) :
    List (ℕ × Entry) → Machine π → Machine π × Bool
  | [], m => (m, true)
  | (start, entry) :: rest, m =>
    if !overlaps start entry.bytes incoming.physical incoming.bytes ||
        incoming.covers start entry.bytes then resolvePartial rt be faults incoming rest m
    else
      match resolveDeferredReads rt be faults start entry.bytes m with
      | (m, false) => (m, false)
      | (m, true) => resolvePartial rt be faults incoming rest m

/-- `defer_native_color_copy`; no token where it throws. -/
def deferNativeColorCopy (rt : Runtime) (be : Backend π) (faults : Faults) (address : ℕ)
    (copy : GxColorCopy π) (m : Machine π) : Option (ℕ × Machine π) :=
  match nativeColorCopyBytes be copy with
  | none => none
  | some bytes =>
    if faults.register then none
    else
      let result := registerDeferredRamRead rt address bytes (some ())
        (some ⟨address, bytes, copy⟩) m.registry
      if result.1 = 0 then none else some (result.1, { m with registry := result.2 })

/-- `GxCopyTextureCache::publish_handle`; `none` where it throws. -/
def publishHandle (faults : Faults) (destination : ℕ) (copy : GxColorCopy π)
    (copies : ℕ → Option (GxColorCopy π)) : Option (ℕ → Option (GxColorCopy π)) :=
  match copy.target with
  | none => none
  | some target =>
    if destination = 0 ∨ copy.width = 0 ∨ copy.height = 0 ∨ copy.width > 16384 ∨
        copy.height > 16384 ∨ target.data = false then none
    else if !copyFormat copy.format then none
    else if !target.descriptor then none
    else if faults.insert then none
    else some (Function.update copies destination (some copy))

/-- `GxCopyTextureCache::evict`. -/
def evict (destination : ℕ) (copies : ℕ → Option (GxColorCopy π)) :
    ℕ → Option (GxColorCopy π) := Function.update copies destination none

/-- One turn of the last loop of `publish`: an overwritten copy is cancelled, its view is
dropped unless the new one replaced it, and its range is erased. -/
def retireOverlapped (rt : Runtime) (incoming : RamRange) (m : Machine π) (node : ℕ × Entry) :
    Machine π :=
  if !overlaps node.1 node.2.bytes incoming.physical incoming.bytes then m
  else
    { m with
      registry := (cancelDeferredRead rt node.2.token m.registry).2
      copies := if node.2.destination ≠ incoming.host then evict node.2.destination m.copies
        else m.copies
      ranges := m.ranges.filter (·.1 != node.1) }

/-- `std::map::insert`: in key order, and without effect if the key is there. -/
def insertNode (start : ℕ) (entry : Entry) : List (ℕ × Entry) → List (ℕ × Entry)
  | [] => [(start, entry)]
  | node :: rest =>
    if start < node.1 then (start, entry) :: node :: rest
    else if start = node.1 then node :: rest
    else node :: insertNode start entry rest

/-- The last part of `publish`, which cannot throw. -/
def commit (rt : Runtime) (incoming : RamRange) (token : ℕ) (m : Machine π) : Machine π :=
  let entry := { bytes := incoming.bytes, token := token, destination := incoming.host }
  let m := m.ranges.foldl (retireOverlapped rt incoming) m
  { m with ranges := insertNode incoming.physical entry m.ranges }

/-- `GxCopyStore::publish`. -/
def publish (rt : Runtime) (be : Backend π) (faults : Faults) (address : ℕ)
    (copy : Option (GxColorCopy π)) (m : Machine π) : Machine π × Bool :=
  match copy with
  | none => (m, false)
  | some copy =>
    match (nativeColorCopyBytes be copy).bind (checkedRam rt be address) with
    | none => (m, false)
    | some incoming =>
      if !copy.target.any (·.descriptor) || faults.prepare then (m, false)
      else
        match resolvePartial rt be faults incoming m.ranges m with
        | (m, false) => (m, false)
        | (m, true) =>
          match deferNativeColorCopy rt be faults address copy m with
          | none => (m, false)
          | some (token, m) =>
            match publishHandle faults incoming.host copy m.copies with
            | none =>
              ({ m with registry := (cancelDeferredRead rt token m.registry).2 }, false)
            | some copies => (commit rt incoming token { m with copies := copies }, true)

/-- One turn of the loop of `prepare_write`. -/
def retirePrepared (range : RamRange) (m : Machine π) (node : ℕ × Entry) : Machine π :=
  if !overlaps node.1 node.2.bytes range.physical range.bytes then m
  else
    { m with
      copies := evict node.2.destination m.copies
      ranges := m.ranges.filter (·.1 != node.1) }

/-- `GxCopyStore::prepare_write`. -/
def prepareWrite (rt : Runtime) (be : Backend π) (faults : Faults) (address bytes : ℕ)
    (m : Machine π) : Machine π × Bool :=
  if bytes = 0 then (m, true)
  else
    match checkedRam rt be address bytes with
    | none => (m, false)
    | some range =>
      match resolveDeferredReads rt be faults range.physical range.bytes m with
      | (m, false) => (m, false)
      | (m, true) => (m.ranges.foldl (retirePrepared range) m, true)

/-! ### A concrete store -/

/-- A backend whose images have one colour and whose encoding repeats it for each pixel. -/
def Backend.flat : Backend UInt8 where
  canonicalizeGxMainRamAddress := physicalOf
  encodedSize _ width height := width * height
  encode _ width height colour := some (List.replicate (width * height) colour)
  canonicalize_ram _ _ _ := rfl
  encode_length h := by
    cases h
    exact List.length_replicate

/-- A copy of four by four pixels. -/
def GxColorCopy.flat (colour : UInt8) : GxColorCopy UInt8 where
  width := 4
  height := 4
  target := some ⟨true, true, 4, 4, colour⟩
  format := 0x23
  nativeReadback := none

def Faults.none : Faults where
  conversion _ := false
  prepare := false
  register := false
  insert := false

/-- Clear RAM, an empty registry and an empty store. -/
def Machine.empty : Machine UInt8 where
  registry :=
    { reads := []
      nextToken := 1
      tables := System.empty.registry.tables }
  ram _ := 0
  copies _ := Option.none
  ranges := []
  materialised := []

end Gpu
