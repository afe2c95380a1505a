import Mathlib.Data.List.MinMax
import MkwiiPs5.Gpu.TextureUpload
import MkwiiPs5.Gx.BpDecoder
import MkwiiPs5.KeyedList

/-!
# The texture cache

`gx_texture_cache.cpp`: textures decoded from guest memory and uploaded, kept under a key of their
contents. The decoder, the hash and the write tracker of the emulator are parameters. A call says in
which order the hash map is run through and what the kernel answers.
-/

namespace Gx.TexObj

variable (A : Arithmetic) (t : TexObj)

/-- A dimension less one in ten bits of `image0`, unless the object has one of its own. -/
def dimension (own shift : ℕ) : ℕ :=
  if own ≠ 0 then own else (bpGet t.image0 10 shift + 1) &&& 0x3FF

def width : ℕ := t.dimension t.mWidth 0

def height : ℕ := t.dimension t.mHeight 10

def format : ℕ := if t.mFormat ≠ InvalidTextureFormat then t.mFormat else bpGet t.image0 4 20

def hasMips : Bool := t.flags &&& 1 != 0

/-- `max_lod` is in sixteenths. -/
def mipCount : ℕ :=
  if t.hasMips then
    min (max (bpGet t.mode1 8 8 / 16 + 1) 1)
      (Gpu.TextureLayout.maxMips A 32 (max t.width t.height))
  else 1

def noCache : Bool := t.flags &&& 0x80 != 0

end Gx.TexObj

def Gx.TlutObj.noCache (p : Gx.TlutObj) : Bool := p.flags &&& 0x80 != 0

namespace Gpu

open Overlay (write load)
open Gx (TexObj TlutObj)

/-! ### Textures in GPU memory -/

/-- `GpuTexture`: its storage at an offset of the physical memory, and the bytes there. -/
structure GpuTexture where
  layout : TextureLayout
  physical : ℕ
  data : ℕ → UInt8

/-- The kernel during an upload: the size of the direct memory, and the offset at which it
allocates and maps some bytes. -/
structure Kernel where
  pool : ℕ
  map : ℕ → Except String ℕ

/-- The constructor. Where the pixels and the storage are in memory does not matter, as long as they
are apart. -/
def GpuTexture.make (A : Arithmetic) (kernel : Kernel) (w h levels : ℕ) (pixels : List UInt8) :
    Except String GpuTexture := do
  let layout ← TextureLayout.make A w h levels
  if pixels.length ≠ layout.linearBytes then .error "RGBA texture mip bytes do not match dimensions"
  else if layout.bytes > kernel.pool ∨ kernel.pool > 2 ^ 63 - 1 then
    .error "Insufficient GPU direct memory"
  else
    let physical ← kernel.map layout.bytes
    let mem ← layout.tile A (write (fun _ => 0) 0 pixels) ⟨pixels.length, layout.bytes⟩
      ⟨0, pixels.length⟩
    pure ⟨layout, physical, fun i => mem (pixels.length + i)⟩

theorem GpuTexture.make_eq_ok {A : Arithmetic} {kernel : Kernel} {w h levels : ℕ} {pixels : List UInt8}
    {gpu : GpuTexture} (hmake : GpuTexture.make A kernel w h levels pixels = .ok gpu) :
    TextureLayout.make A w h levels = .ok gpu.layout ∧ pixels.length = gpu.layout.linearBytes ∧
      kernel.pool ≤ 2 ^ 63 - 1 ∧ kernel.map gpu.layout.bytes = .ok gpu.physical ∧
      ∃ mem, gpu.layout.tile A (write (fun _ => 0) 0 pixels)
        ⟨pixels.length, gpu.layout.bytes⟩ ⟨0, pixels.length⟩ = .ok mem ∧
        ∀ i, gpu.data i = mem (pixels.length + i) := by
  rw [GpuTexture.make, Loop.bind_eq_ok] at hmake
  obtain ⟨layout, hlayout, hmake⟩ := hmake
  split_ifs at hmake with hlength hpool
  rw [Loop.bind_eq_ok] at hmake
  obtain ⟨physical, hmap, hmake⟩ := hmake
  rw [Loop.bind_eq_ok] at hmake
  obtain ⟨mem, htile, hmake⟩ := hmake
  obtain rfl := Except.ok.inj hmake
  exact ⟨hlayout, not_not.mp hlength, by omega, hmap, mem, htile, fun _ => rfl⟩

/-- `GxTexture`. -/
structure GxTexture where
  gpu : GpuTexture
  hasArbitraryMips : Bool

/-! ### The emulator -/

inductive TextureDataFormat
  | Undefined | RGBA8Unorm | R16Sint
deriving DecidableEq

structure ConvertedTexture where
  format : TextureDataFormat
  width : ℕ
  height : ℕ
  mips : ℕ
  data : List UInt8
  hasArbitraryMips : Bool

/-- `GX_TF_*` and `GX_TL_*`. -/
structure Formats where
  I4 : ℕ
  I8 : ℕ
  IA4 : ℕ
  IA8 : ℕ
  RGB565 : ℕ
  RGB5A3 : ℕ
  RGBA8 : ℕ
  CMPR : ℕ
  C4 : ℕ
  C8 : ℕ
  C14X2 : ℕ
  Z8 : ℕ
  Z16 : ℕ
  Z24X8 : ℕ
  R8_PC : ℕ
  RGBA8_PC : ℕ
  paletteIA8 : ℕ
  paletteRGB565 : ℕ
  paletteRGB5A3 : ℕ

/-- What the cache uses of the emulator. -/
structure Upstream where
  formats : Formats
  /-- `AURORA_GUEST_WRITE_UNTRACKED`. -/
  untracked : ℕ
  /-- `xxh3_hash_s`. -/
  hash : List UInt8 → ℕ
  /-- `GXGetTexBufferSize`. -/
  texBufferSize : (width height format : ℕ) → (mipmap : Bool) → (maxLod : ℕ) → ℕ
  convertTexture : (format width height mips : ℕ) → List UInt8 → Except String ConvertedTexture
  convertTexturePalette : (format width height mips : ℕ) → List UInt8 →
    (paletteFormat entries : ℕ) → List UInt8 → Except String ConvertedTexture
  /-- Whether a `ConvertedTexture` that nothing was converted into has arbitrary mips. -/
  hasArbitraryMipsDefault : Bool

/-- Guest memory at a call, with the write tracker if one is installed. -/
structure Guest where
  mem : ℕ → UInt8
  generationHook : Option (ℕ → ℕ → ℕ)

namespace GxTextureCache

/-! ### The state -/

structure Key where
  values : List ℕ
deriving DecidableEq

structure Entry where
  key : Key
  texture : GxTexture
  stamp : ℕ

structure DigestMemo where
  size : ℕ
  digest : ℕ
  generation : ℕ

end GxTextureCache

/-- The entries are in the order in which the map runs through them. -/
structure GxTextureCache where
  entries : List GxTextureCache.Entry
  budget : ℕ
  used : ℕ
  clock : ℕ
  uploads : ℕ
  hits : ℕ
  memo : List (ℕ × GxTextureCache.DigestMemo)
  digests : ℕ
  digestSkips : ℕ

namespace GxTextureCache

def start (budget : ℕ) : GxTextureCache where
  entries := []
  budget := budget
  used := 0
  clock := 0
  uploads := 0
  hits := 0
  memo := []
  digests := 0
  digestSkips := 0

/-- What `resolve` throws, or a step that the language leaves undefined. -/
inductive Failure
  | thrown (what : String)
  | undefined
deriving DecidableEq

/-- The arguments of `resolve`; the number of palette entries is a `u16`. -/
structure Call where
  texture : TexObj
  bytes : Span
  palette : Option TlutObj
  paletteBytes : Span
  numEntries_lt : ∀ p, palette = some p → p.numEntries < 2 ^ 16

variable (A : Arithmetic) (U : Upstream)

/-! ### Digests -/

/-- `guest_write_generation`. -/
def guestWriteGeneration (g : Guest) (data size : ℕ) : ℕ :=
  match g.generationHook with
  | none => U.untracked
  | some hook => if data = 0 ∨ size = 0 then U.untracked else hook data size

/-- `guest_write_generation_matches`. -/
def guestWriteGenerationMatches (stored current : ℕ) : Bool :=
  current ≠ U.untracked ∧ stored = current

def kDigestMemoSoftLimit : ℕ := 4096

/-- The bytes of a span. -/
def contents (g : Guest) (bytes : Span) : List UInt8 := load g.mem bytes.data bytes.size

/-- Replaces the memo of an address. -/
def setMemo (memo : List (ℕ × DigestMemo)) (data : ℕ) (m : DigestMemo) : List (ℕ × DigestMemo) :=
  (data, m) :: memo.filter (·.1 != data)

def findMemo (memo : List (ℕ × DigestMemo)) (data : ℕ) : Option DigestMemo :=
  (memo.find? (·.1 == data)).map (·.2)

/-- A full memo is dropped before an address is added. -/
def trimMemo (memo : List (ℕ × DigestMemo)) (data : ℕ) : List (ℕ × DigestMemo) :=
  if memo.length ≥ kDigestMemoSoftLimit ∧ (findMemo memo data).isNone then [] else memo

def sourceDigest (g : Guest) (c : GxTextureCache) (bytes : Span) (memoize : Bool) :
    ℕ × GxTextureCache :=
  let generation := if memoize then guestWriteGeneration U g bytes.data bytes.size else U.untracked
  if generation = U.untracked ∨ bytes.size = 0 then
    (U.hash (contents g bytes), { c with digests := (c.digests + 1) % 2 ^ 64 })
  else
    let memo := trimMemo c.memo bytes.data
    let m := (findMemo memo bytes.data).getD ⟨0, 0, 0⟩
    if m.size = bytes.size ∧ guestWriteGenerationMatches U m.generation generation then
      (m.digest, { c with
        memo := setMemo memo bytes.data m
        digestSkips := (c.digestSkips + 1) % 2 ^ 64 })
    else
      let m' : DigestMemo := ⟨bytes.size, U.hash (contents g bytes), generation⟩
      (m'.digest, { c with
        memo := setMemo memo bytes.data m'
        digests := (c.digests + 1) % 2 ^ 64 })

/-! ### Checks of the arguments -/

def indexed (format : ℕ) : Bool :=
  format == U.formats.C4 || format == U.formats.C8 || format == U.formats.C14X2

def validateFormat (format : ℕ) : Except String Unit :=
  let f := U.formats
  if format ∈ [f.I4, f.I8, f.IA4, f.IA8, f.RGB565, f.RGB5A3, f.RGBA8, f.CMPR, f.C4, f.C8, f.C14X2,
    f.Z8, f.Z16, f.Z24X8, f.R8_PC, f.RGBA8_PC] then .ok ()
  else .error "Unsupported static GX texture format"

def sourceByteSize (t : TexObj) : Except String ℕ := do
  validateFormat U t.format
  let layout ← TextureLayout.make A t.width t.height (t.mipCount A)
  pure (U.texBufferSize (layout.width % 2 ^ 16) (layout.height % 2 ^ 16) t.format (layout.count > 1)
    ((layout.count - 1) % 2 ^ 8))

/-- The spans that `resolve` reads, once its arguments are checked. -/
structure Source where
  texels : Span
  palette : Option (TlutObj × Span)

def checkPalette (call : Call) : Except String (TlutObj × Span) :=
  match call.palette with
  | none => .error "Missing/invalid GX texture palette"
  | some palette =>
    if palette.data = 0 ∨ palette.numEntries = 0 ∨
        palette.format ≠ U.formats.paletteIA8 ∧ palette.format ≠ U.formats.paletteRGB565 ∧
          palette.format ≠ U.formats.paletteRGB5A3 then
      .error "Missing/invalid GX texture palette"
    else
      let count := palette.numEntries * 2
      if call.paletteBytes.size < count then .error "Truncated GX texture palette"
      else .ok (palette, ⟨call.paletteBytes.data, count⟩)

def checkSource (call : Call) : Except String Source := do
  let size ← sourceByteSize A U call.texture
  if call.texture.data = 0 ∨ call.bytes.size < size then
    .error "Missing/truncated GX texture bytes"
  else if indexed U call.texture.format then
    let palette ← checkPalette U call
    pure ⟨⟨call.bytes.data, size⟩, some palette⟩
  else pure ⟨⟨call.bytes.data, size⟩, none⟩

/-! ### Keys and conversion -/

/-- Two words in one. -/
def pair (a b : ℕ) : ℕ := a <<< 32 ||| b

def key (g : Guest) (c : GxTextureCache) (t : TexObj) (source : Source) : Key × GxTextureCache :=
  let size := pair t.width t.height
  let format := pair t.format (t.mipCount A)
  let (texels, c₁) := sourceDigest U g c source.texels (!t.noCache)
  match source.palette with
  | none => (⟨[size, format, texels, 0, 0]⟩, c₁)
  | some (palette, bytes) =>
    let (colors, c₂) := sourceDigest U g c₁ bytes (!palette.noCache)
    (⟨[size, format, texels, pair palette.format palette.numEntries, colors]⟩, c₂)

def cacheable (t : TexObj) (source : Source) : Bool :=
  !t.noCache && source.palette.all (!·.1.noCache)

/-- The pixels of all levels, and whether the mips are made by hand. -/
def convert (g : Guest) (t : TexObj) (layout : TextureLayout) (source : Source) :
    Except String (List UInt8 × Bool) := do
  let texels := contents g source.texels
  if t.format = U.formats.RGBA8_PC then
    if texels.length ≠ layout.linearBytes then .error "Wrong converted GX texture size"
    else pure (texels, U.hasArbitraryMipsDefault)
  else
    let decoded ← match source.palette with
      | none => U.convertTexture t.format t.width t.height (t.mipCount A) texels
      | some (palette, bytes) =>
        U.convertTexturePalette t.format t.width t.height (t.mipCount A) texels palette.format
          palette.numEntries (contents g bytes)
    if decoded.format ≠ .RGBA8Unorm ∨ decoded.width ≠ layout.width ∨
        decoded.height ≠ layout.height ∨ decoded.mips ≠ layout.count then
      .error "Aurora texture conversion did not produce the requested mip chain"
    else if decoded.data.length ≠ layout.linearBytes then .error "Wrong converted GX texture size"
    else pure (decoded.data, decoded.hasArbitraryMips)

/-! ### Stamps, hits and evictions -/

def nextStamp (c : GxTextureCache) : GxTextureCache :=
  let clock := (c.clock + 1) % 2 ^ 64
  if clock = 0 then
    { c with entries := c.entries.map ({ · with stamp := 0 }), clock := 1 }
  else { c with clock := clock }

def Entry.bytes (e : Entry) : ℕ := e.texture.gpu.layout.bytes

/-- The branch of `resolve` for a key that is there. -/
def hit (c : GxTextureCache) (k : Key) : GxTextureCache :=
  let c := c.nextStamp
  { c with
    entries := c.entries.map fun e => if e.key = k then { e with stamp := c.clock } else e
    hits := (c.hits + 1) % 2 ^ 64 }

/-- The body of the eviction loop. -/
def erase (c : GxTextureCache) (oldest : Entry) : GxTextureCache :=
  { c with
    entries := c.entries.eraseP (·.key == oldest.key)
    used := A.u64 ((c.used : ℤ) - oldest.bytes) }

/-- The eviction loop, with the entries that it erases in order. The least stamp is looked for among
no entries only if the recorded usage is wrong. -/
def evict (c : GxTextureCache) : Except Failure (List Entry × GxTextureCache) :=
  if c.used > c.budget then
    match h : c.entries.argmin Entry.stamp with
    | none => .error .undefined
    | some oldest => do
      have := KeyedList.length_eraseP_lt (p := (·.key == oldest.key)) (List.argmin_mem h)
        (beq_self_eq_true oldest.key)
      let (evicted, c') ← evict (c.erase A oldest)
      pure (oldest :: evicted, c')
  else .ok ([], c)
termination_by c.entries.length

/-- What `resolve` returns, with the key it used in the cache and the entries it evicted. -/
structure Resolved where
  texture : GxTexture
  used : Option Key
  evicted : List Entry

/-- The branch of `resolve` that keeps a new texture; `order` is the map's after the insertion. -/
def insert (c : GxTextureCache) (order : List Entry → List Entry) (k : Key) (texture : GxTexture) :
    Except Failure Resolved × GxTextureCache :=
  let c := c.nextStamp
  if c.entries.any (·.key == k) then (.error (.thrown "Concurrent GX texture cache access"), c)
  else
    let c := { c with
      entries := order (⟨k, texture, c.clock⟩ :: c.entries)
      used := A.u64 (c.used + texture.gpu.layout.bytes) }
    match evict A c with
    | .error e => (.error e, c)
    | .ok (evicted, c') => (.ok ⟨texture, some k, evicted⟩, c')

/-- What a call meets outside the cache and the guest: the kernel, and the order of the map. -/
structure Host where
  kernel : Kernel
  order : List Entry → List Entry
  order_perm : ∀ l, (order l).Perm l

def makeTexture (g : Guest) (host : Host) (t : TexObj) (source : Source) :
    Except String GxTexture := do
  let layout ← TextureLayout.make A t.width t.height (t.mipCount A)
  let (rgba, arbitrary) ← convert A U g t layout source
  let gpu ← GpuTexture.make A host.kernel layout.width layout.height layout.count rgba
  pure ⟨gpu, arbitrary⟩

/-- The part of `resolve` for a key that is not there. -/
def upload (g : Guest) (host : Host) (c : GxTextureCache) (t : TexObj) (source : Source) (k : Key) :
    Except Failure Resolved × GxTextureCache :=
  match makeTexture A U g host t source with
  | .error what => (.error (.thrown what), c)
  | .ok texture =>
    let c := { c with uploads := (c.uploads + 1) % 2 ^ 64 }
    if cacheable t source ∧ texture.gpu.layout.bytes ≤ c.budget then
      insert A c host.order k texture
    else (.ok ⟨texture, none, []⟩, c)

def resolve (g : Guest) (host : Host) (c : GxTextureCache) (call : Call) :
    Except Failure Resolved × GxTextureCache :=
  match checkSource A U call with
  | .error what => (.error (.thrown what), c)
  | .ok source =>
    let (k, c) := key A U g c call.texture source
    match if cacheable call.texture source then c.entries.find? (·.key == k) else none with
    | some e => (.ok ⟨e.texture, some k, []⟩, c.hit k)
    | none => upload A U g host c call.texture source k

def clear (c : GxTextureCache) : GxTextureCache :=
  { c with entries := [], memo := [], used := 0 }

end GxTextureCache

end Gpu
