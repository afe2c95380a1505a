import MkwiiPs5.Gx.VertexDecoder
import MkwiiPs5.Gx.XfLoads

/-!
# Commands of the Aurora frontend

`handle_aurora` and `read_string` of `register_dispatch.cpp`. The numbers of the commands are those of
a header that is not part of the repository.
-/

namespace Gx

open Bytes (slice)
open Overlay (write)

/-- `GX_LOAD_AURORA` and its sub-commands; the range from 0x80 on belongs to the draws. -/
structure AuroraCodes where
  load : ℕ
  load_lt : load < 0x80
  viewportRender : ℕ
  scissorRender : ℕ
  arrayBase : ℕ
  texObj : ℕ
  tlut : ℕ
  destroyTexObj : ℕ
  destroyTlut : ℕ
  destroyCopyTex : ℕ
  invalidateTexAll : ℕ
  debugGroupPush : ℕ
  debugGroupPop : ℕ
  debugMarkerInsert : ℕ

/-- Calls that leave the registers alone. -/
inductive BackendCall
  | evictCopyTexture (destination : ℕ)
  | invalidateStaticTextureCache
  | pushDebugGroup (label : List UInt8)
  | popDebugGroup
  | insertDebugMarker (label : List UInt8)
  deriving DecidableEq

/-- The registers after a command, the calls it made, and the position of the next one. -/
structure AuroraResult where
  next : ℕ
  registers : GXRegisterState
  calls : List BackendCall

/-- A command that changes the fields of the registers only. -/
def AuroraResult.fields (next : ℕ) (s : GXRegisterState) (d : Decoded) : AuroraResult :=
  ⟨next, { s with decoded := d }, []⟩

section Commands

variable (data : List UInt8) (pos : ℕ) (bigEndian : Bool) (s : GXRegisterState)

/-- `read_f32`. -/
def readF32 : Except Fault Float32 := do
  pure (floatOfBits (← readU32 data pos bigEndian))

/-- The bytes of a memory from a position on. -/
def readBytes (count : ℕ) : Except Fault (List UInt8) :=
  if pos + count ≤ data.length then .ok (slice data pos count) else .error .outOfBounds

/-- `read_string`, with the position after it. -/
def readString : Except Fault (Option (List UInt8 × ℕ)) :=
  if hasBytes pos data.length 2 then do
    let length ← readU16 data pos bigEndian
    if hasBytes (pos + 2) data.length length then do
      let str ← readBytes data (pos + 2) length
      pure (some (str, pos + 2 + length))
    else pure none
  else pure none

/-- `GX_LOAD_AURORA_VIEWPORT_RENDER`. -/
def loadViewportRender : Except Fault (Option AuroraResult) :=
  if hasBytes pos data.length 24 then do
    let left ← readF32 data pos bigEndian
    let top ← readF32 data (pos + 4) bigEndian
    let width ← readF32 data (pos + 8) bigEndian
    let height ← readF32 data (pos + 12) bigEndian
    let nearZ ← readF32 data (pos + 16) bigEndian
    let farZ ← readF32 data (pos + 20) bigEndian
    let view := s.decoded.view.setRenderViewport ⟨left, top, width, height, nearZ, farZ⟩
    pure (some (.fields (pos + 24) s { s.decoded with view := view }))
  else pure none

/-- `GX_LOAD_AURORA_SCISSOR_RENDER`. -/
def loadScissorRender : Except Fault (Option AuroraResult) :=
  if hasBytes pos data.length 16 then do
    let left ← readU32 data pos bigEndian
    let top ← readU32 data (pos + 4) bigEndian
    let width ← readU32 data (pos + 8) bigEndian
    let height ← readU32 data (pos + 12) bigEndian
    let view := s.decoded.view.setRenderScissor ⟨s32 left, s32 top, s32 width, s32 height⟩
    pure (some (.fields (pos + 16) s { s.decoded with view := view }))
  else pure none

/-- `GX_LOAD_AURORA_ARRAYBASE`, of one attribute. -/
def loadArrayBase (attrIdx : ℕ) : Except Fault (Option AuroraResult) :=
  if hasBytes pos data.length 13 then do
    let arrayAddr ← readU64 data pos bigEndian
    let arraySize ← readU32 data (pos + 8) bigEndian
    let le ← readU8 data (pos + 12)
    let vertex := s.decoded.vertex
    let array := { vertex.arrays attrIdx with
      data := arrayAddr
      size := .ofNat arraySize
      le := le == 1 }
    pure (some (.fields (pos + 13) s { s.decoded with
      vertex := { vertex with arrays := write vertex.arrays attrIdx [array] } }))
  else pure none

/-- `set_no_cache` with `false`. -/
def clearNoCache (flags : ℕ) : ℕ := flags &&& 0x7f

/-- `GX_LOAD_AURORA_TEXOBJ`; also a map that does not exist stops the processing. -/
def loadTexObj : Except Fault (Option AuroraResult) :=
  if hasBytes pos data.length 34 then do
    let texMapId ← readU8 data pos
    if MaxTextures ≤ texMapId then pure none
    else do
      let slot := s.decoded.loadedTextures texMapId
      let address ← readU64 data (pos + 1) bigEndian
      let width ← readU32 data (pos + 9) bigEndian
      let height ← readU32 data (pos + 13) bigEndian
      let format ← readU32 data (pos + 17) bigEndian
      let tlut ← readU32 data (pos + 21) bigEndian
      let mips ← readU8 data (pos + 25)
      let texObjId ← readU32 data (pos + 26) bigEndian
      let texDataVersion ← readU32 data (pos + 30) bigEndian
      let next := { slot with
        data := address
        mWidth := width
        mHeight := height
        mFormat := format
        tlut := tlut
        flags := clearNoCache (if mips ≠ 0 then slot.flags ||| 1 else slot.flags &&& 0xfe)
        texObjId := texObjId
        texDataVersion := texDataVersion }
      pure (some (.fields (pos + 34) s { s.decoded with
        loadedTextures := write s.decoded.loadedTextures texMapId [next] }))
  else pure none

/-- `GX_LOAD_AURORA_TLUT`; also a slot that does not exist stops the processing. -/
def loadTlut : Except Fault (Option AuroraResult) :=
  if hasBytes pos data.length 23 then do
    let idx ← readU8 data pos
    if MaxTluts ≤ idx then pure none
    else do
      let slot := s.decoded.loadedTluts idx
      let address ← readU64 data (pos + 1) bigEndian
      let format ← readU32 data (pos + 9) bigEndian
      let numEntries ← readU16 data (pos + 13) bigEndian
      let tlutObjId ← readU32 data (pos + 15) bigEndian
      let tlutDataVersion ← readU32 data (pos + 19) bigEndian
      let next := { slot with
        data := address
        format := format
        numEntries := numEntries
        tlutObjId := tlutObjId
        tlutDataVersion := tlutDataVersion
        flags := clearNoCache slot.flags }
      pure (some (.fields (pos + 23) s { s.decoded with
        loadedTluts := write s.decoded.loadedTluts idx [next] }))
  else pure none

/-- `evict_texture_object`. -/
def evictTextureObject (id : ℕ) (d : Decoded) : Decoded :=
  { d with loadedTextures := write d.loadedTextures 0 ((List.range MaxTextures).map fun i =>
      let obj := d.loadedTextures i
      if obj.texObjId = id then { obj with flags := obj.flags ||| 0x80 } else obj) }

/-- `evict_tlut_object`. -/
def evictTlutObject (id : ℕ) (d : Decoded) : Decoded :=
  { d with loadedTluts := write d.loadedTluts 0 ((List.range MaxTluts).map fun i =>
      let obj := d.loadedTluts i
      if obj.tlutObjId = id then { obj with flags := obj.flags ||| 0x80 } else obj) }

/-- `GX_LOAD_AURORA_DESTROY_TEXOBJ` and `GX_LOAD_AURORA_DESTROY_TLUT`. -/
def destroyObject (evict : ℕ → Decoded → Decoded) : Except Fault (Option AuroraResult) :=
  if hasBytes pos data.length 4 then do
    let id ← readU32 data pos bigEndian
    pure (some (.fields (pos + 4) s (evict id s.decoded)))
  else pure none

/-- `GX_LOAD_AURORA_DESTROY_COPY_TEX`. -/
def destroyCopyTex : Except Fault (Option AuroraResult) :=
  if hasBytes pos data.length 8 then do
    let destination ← readU64 data pos bigEndian
    pure (some ⟨pos + 8, s, [.evictCopyTexture destination]⟩)
  else pure none

/-- A command with a label. -/
def labelled (call : List UInt8 → BackendCall) : Except Fault (Option AuroraResult) := do
  match ← readString data pos bigEndian with
  | some (label, next) => pure (some ⟨next, s, [call label]⟩)
  | none => pure none

/-- The commands of `handle_aurora`, at the position after their number. -/
def auroraCommand (codes : AuroraCodes) (subCmd : ℕ) : Except Fault (Option AuroraResult) :=
  if subCmd = codes.viewportRender then loadViewportRender data pos bigEndian s
  else if subCmd = codes.scissorRender then loadScissorRender data pos bigEndian s
  else if codes.arrayBase ≤ subCmd ∧ subCmd ≤ codes.arrayBase ||| 0x0f then
    loadArrayBase data pos bigEndian s (subCmd - codes.arrayBase + GX_VA_POS)
  else if subCmd = codes.texObj then loadTexObj data pos bigEndian s
  else if subCmd = codes.tlut then loadTlut data pos bigEndian s
  else if subCmd = codes.destroyTexObj then destroyObject data pos bigEndian s evictTextureObject
  else if subCmd = codes.destroyTlut then destroyObject data pos bigEndian s evictTlutObject
  else if subCmd = codes.destroyCopyTex then destroyCopyTex data pos bigEndian s
  else if subCmd = codes.invalidateTexAll then
    pure (some ⟨pos, s, [.invalidateStaticTextureCache]⟩)
  else if subCmd = codes.debugGroupPush then labelled data pos bigEndian s .pushDebugGroup
  else if subCmd = codes.debugGroupPop then pure (some ⟨pos, s, [.popDebugGroup]⟩)
  else if subCmd = codes.debugMarkerInsert then labelled data pos bigEndian s .insertDebugMarker
  else pure none

/-- `handle_aurora`; `none` is for `false`. -/
def handleAurora (codes : AuroraCodes) : Except Fault (Option AuroraResult) :=
  if hasBytes pos data.length 2 then do
    let subCmd ← readU16 data pos bigEndian
    auroraCommand data (pos + 2) bigEndian s codes subCmd
  else pure none

end Commands

end Gx
