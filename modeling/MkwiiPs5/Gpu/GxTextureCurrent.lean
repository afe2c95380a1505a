import MkwiiPs5.Gpu.GxTextureRuns

/-!
# The texture cache is current

Digests come from the memo only while their bytes are what they were, so a key names the contents
at the call; an entry keeps a texture made from the contents that its key names.
-/

namespace Gpu.GxTextureCache

open Overlay (write load)

/-! ### Contents and keys -/

structure PaletteContent where
  format : ℕ
  numEntries : ℕ
  colors : List UInt8

/-- What a texture is made from. -/
structure Content where
  width : ℕ
  height : ℕ
  format : ℕ
  mips : ℕ
  texels : List UInt8
  palette : Option PaletteContent

def content (A : Arithmetic) (g : Guest) (t : Gx.TexObj) (source : Source) : Content where
  width := t.width
  height := t.height
  format := t.format
  mips := t.mipCount A
  texels := contents g source.texels
  palette := source.palette.map fun p => ⟨p.1.format, p.1.numEntries, contents g p.2⟩

namespace Content

/-- The contents whose hashes the key of a texture holds. -/
def hashed (d : Content) : List (List UInt8) := d.texels :: d.palette.toList.map (·.colors)

def key (U : Upstream) (d : Content) : Key :=
  ⟨[pair d.width d.height, pair d.format d.mips, U.hash d.texels] ++
    match d.palette with
    | none => [0, 0]
    | some p => [pair p.format p.numEntries, U.hash p.colors]⟩

/-- The numbers in the low halves of the key fit there. -/
structure Small (d : Content) : Prop where
  height : d.height < 2 ^ 32
  mips : d.mips < 2 ^ 32
  palette : ∀ p, d.palette = some p → 0 < p.numEntries ∧ p.numEntries < 2 ^ 32

end Content

theorem pair_injective {a b a' b' : ℕ} (hb : b < 2 ^ 32) (hb' : b' < 2 ^ 32)
    (h : pair a b = pair a' b') : a = a' ∧ b = b' := by
  rw [pair, pair, ← Nat.shiftLeft_add_eq_or_of_lt hb, ← Nat.shiftLeft_add_eq_or_of_lt hb',
    Nat.shiftLeft_eq, Nat.shiftLeft_eq] at h
  omega

theorem pair_pos {a b : ℕ} (hb : 0 < b) : pair a b ≠ 0 := by
  rw [pair]
  intro h
  have := (Nat.or_eq_zero_iff.mp h).2
  omega

/-- The key names the contents, as far as the hash tells them apart. -/
theorem Content.key_injective {U : Upstream} {d d' : Content} (h : d.Small) (h' : d'.Small)
    (hhash : ∀ b ∈ d.hashed, ∀ b' ∈ d'.hashed, U.hash b = U.hash b' → b = b')
    (hkey : d.key U = d'.key U) : d = d' := by
  obtain ⟨width, height, format, mips, texels, palette⟩ := d
  obtain ⟨width', height', format', mips', texels', palette'⟩ := d'
  simp only [Content.key, Key.mk.injEq, List.cons_append, List.nil_append, List.cons.injEq] at hkey
  obtain ⟨hsize, hformat, htexels, hpalette⟩ := hkey
  obtain ⟨rfl, rfl⟩ := pair_injective h.height h'.height hsize
  obtain ⟨rfl, rfl⟩ := pair_injective h.mips h'.mips hformat
  obtain rfl := hhash _ List.mem_cons_self _ List.mem_cons_self htexels
  cases palette with
  | none =>
    cases palette' with
    | none => rfl
    | some p' =>
      simp only [List.cons.injEq] at hpalette
      exact absurd hpalette.1.symm (pair_pos (h'.palette p' rfl).1)
  | some p =>
    cases palette' with
    | none =>
      simp only [List.cons.injEq] at hpalette
      exact absurd hpalette.1 (pair_pos (h.palette p rfl).1)
    | some p' =>
      obtain ⟨f, n, colors⟩ := p
      obtain ⟨f', n', colors'⟩ := p'
      simp only [List.cons.injEq, and_true] at hpalette
      obtain ⟨rfl, rfl⟩ := pair_injective (h.palette _ rfl).2 (h'.palette _ rfl).2 hpalette.1
      obtain rfl := hhash _ (List.mem_cons_of_mem _ List.mem_cons_self) _
        (List.mem_cons_of_mem _ List.mem_cons_self) hpalette.2
      rfl

/-! ### Digests -/

variable {A : Arithmetic} {U : Upstream} {g : Guest} {past : List Guest} {c : GxTextureCache}

/-- A range that reports the generation it had at an earlier time has the bytes of that time. -/
def Steady (U : Upstream) (g : Guest) (past : List Guest) : Prop :=
  ∀ g' ∈ past, ∀ data size, guestWriteGeneration U g data size ≠ U.untracked →
    guestWriteGeneration U g' data size = guestWriteGeneration U g data size →
    load g'.mem data size = load g.mem data size

/-- A memo is the digest of what its range held when it had the generation of the memo. -/
def MemoSound (U : Upstream) (states : List Guest) (data : ℕ) (m : DigestMemo) : Prop :=
  m.size = 0 ∨ ∃ g ∈ states, guestWriteGeneration U g data m.size = m.generation ∧
    m.digest = U.hash (load g.mem data m.size)

theorem findMemo_sound {memo : List (ℕ × DigestMemo)} {states : List Guest}
    (h : ∀ p ∈ memo, MemoSound U states p.1 p.2) (data : ℕ) :
    MemoSound U states data ((findMemo memo data).getD ⟨0, 0, 0⟩) := by
  rw [findMemo]
  cases hfind : memo.find? (·.1 == data) with
  | none => exact Or.inl rfl
  | some p =>
    obtain rfl : p.1 = data := by simpa using List.find?_some hfind
    exact h p (List.mem_of_find?_eq_some hfind)

theorem setMemo_sound {memo : List (ℕ × DigestMemo)} {states : List Guest}
    (h : ∀ p ∈ memo, MemoSound U states p.1 p.2) {data : ℕ} {m : DigestMemo}
    (hm : MemoSound U states data m) :
    ∀ p ∈ setMemo memo data m, MemoSound U states p.1 p.2 := by
  intro p hp
  rcases List.mem_cons.mp hp with rfl | hp
  · exact hm
  · exact h p (List.mem_of_mem_filter hp)

theorem trimMemo_sound {memo : List (ℕ × DigestMemo)} {states : List Guest}
    (h : ∀ p ∈ memo, MemoSound U states p.1 p.2) (data : ℕ) :
    ∀ p ∈ trimMemo memo data, MemoSound U states p.1 p.2 := by
  rw [trimMemo]
  split
  · exact nofun
  · exact h

/-- A digest is that of the bytes at the call. -/
theorem sourceDigest_current (hsteady : Steady U g past)
    (hmemo : ∀ p ∈ c.memo, MemoSound U (g :: past) p.1 p.2) (bytes : Span) (memoize : Bool) :
    (sourceDigest U g c bytes memoize).1 = U.hash (contents g bytes) ∧
      ∀ p ∈ (sourceDigest U g c bytes memoize).2.memo, MemoSound U (g :: past) p.1 p.2 := by
  by_cases hdirect : (if memoize then guestWriteGeneration U g bytes.data bytes.size
      else U.untracked) = U.untracked ∨ bytes.size = 0
  · simp only [sourceDigest, if_pos hdirect]
    exact ⟨trivial, hmemo⟩
  · obtain ⟨htracked, hsize⟩ := not_or.mp hdirect
    obtain rfl : memoize = true := by
      by_contra hno
      exact htracked (if_neg hno)
    rw [if_pos rfl] at htracked hdirect
    have hkept := trimMemo_sound hmemo bytes.data
    have hsound := findMemo_sound hkept bytes.data
    simp only [sourceDigest, if_true, if_neg hdirect]
    split_ifs with hmatch
    · refine ⟨?_, setMemo_sound hkept hsound⟩
      obtain ⟨hsame, hgeneration⟩ := hmatch
      rw [guestWriteGenerationMatches, decide_eq_true_eq] at hgeneration
      rcases hsound with hzero | ⟨g', hg', hold, hdigest⟩
      · exact absurd (hsame.symm.trans hzero) hsize
      · rw [hsame] at hold hdigest
        rw [hdigest, contents]
        rcases List.mem_cons.mp hg' with rfl | hg'
        · rfl
        · rw [hsteady g' hg' bytes.data bytes.size htracked (hold.trans hgeneration.2)]
    · exact ⟨rfl, setMemo_sound hkept (Or.inr ⟨g, List.mem_cons_self, rfl, rfl⟩)⟩

theorem key_current {t : Gx.TexObj} {source : Source} (hsteady : Steady U g past)
    (hmemo : ∀ p ∈ c.memo, MemoSound U (g :: past) p.1 p.2) :
    (key A U g c t source).1 = (content A g t source).key U ∧
      ∀ p ∈ (key A U g c t source).2.memo, MemoSound U (g :: past) p.1 p.2 := by
  obtain ⟨htexels, hmemo₁⟩ := sourceDigest_current hsteady hmemo source.texels (!t.noCache)
  cases hpalette : source.palette with
  | none =>
    simp only [key, content, Content.key, hpalette, htexels, Option.map_none]
    exact ⟨rfl, hmemo₁⟩
  | some p =>
    obtain ⟨hcolors, hmemo₂⟩ := sourceDigest_current hsteady hmemo₁ p.2 (!p.1.noCache)
    simp only [key, content, Content.key, hpalette, htexels, hcolors, Option.map_some]
    exact ⟨rfl, hmemo₂⟩

/-! ### Textures -/

namespace Content

/-- The pixels that the converter makes of the contents. -/
def convert (U : Upstream) (d : Content) (layout : TextureLayout) :
    Except String (List UInt8 × Bool) := do
  if d.format = U.formats.RGBA8_PC then
    if d.texels.length ≠ layout.linearBytes then .error "Wrong converted GX texture size"
    else pure (d.texels, U.hasArbitraryMipsDefault)
  else
    let decoded ← match d.palette with
      | none => U.convertTexture d.format d.width d.height d.mips d.texels
      | some p =>
        U.convertTexturePalette d.format d.width d.height d.mips d.texels p.format p.numEntries
          p.colors
    if decoded.format ≠ .RGBA8Unorm ∨ decoded.width ≠ layout.width ∨
        decoded.height ≠ layout.height ∨ decoded.mips ≠ layout.count then
      .error "Aurora texture conversion did not produce the requested mip chain"
    else if decoded.data.length ≠ layout.linearBytes then .error "Wrong converted GX texture size"
    else pure (decoded.data, decoded.hasArbitraryMips)

end Content

theorem convert_eq (A : Arithmetic) (U : Upstream) (g : Guest) (t : Gx.TexObj)
    (layout : TextureLayout) (source : Source) :
    GxTextureCache.convert A U g t layout source = (content A g t source).convert U layout := by
  cases hpalette : source.palette with
  | none => simp only [GxTextureCache.convert, Content.convert, content, hpalette, Option.map_none]
  | some p => simp only [GxTextureCache.convert, Content.convert, content, hpalette, Option.map_some]

/-- A texture shows some pixels: each texel is where the layout puts it. -/
structure Shows (A : Arithmetic) (gpu : GpuTexture) (rgba : List UInt8) : Prop where
  length : rgba.length = gpu.layout.linearBytes
  texel : ∀ level x y o, gpu.layout.pixelOffset A x y level = .ok o → ∀ i < 4,
    rgba[gpu.layout.sourceOffset level x y + i]? = some (gpu.data (o + i))

theorem make_shows {kernel : Kernel} {w h levels : ℕ} {pixels : List UInt8} {gpu : GpuTexture}
    (hmake : GpuTexture.make A kernel w h levels pixels = .ok gpu) : Shows A gpu pixels := by
  obtain ⟨hlayout, hlength, _, _, mem, htile, hdata⟩ := GpuTexture.make_eq_ok hmake
  obtain ⟨_, _, _, _, first, hshape⟩ := TextureLayout.make_shape hlayout
  obtain ⟨hstorage, hpixels, hapart⟩ := TextureLayout.tile_eq_ok htile
  obtain ⟨mem', htile', htiled⟩ := hshape.tile_ok A hstorage hpixels hapart
    (write (fun _ => 0) 0 pixels)
  obtain rfl := Except.ok.inj (htile.symm.trans htile')
  refine ⟨hlength, ?_⟩
  intro level x y o ho i hi
  have hin := TextureLayout.pixelOffset_inRange ho
  rw [hshape.pixelOffset_eq A hin] at ho
  obtain rfl := Except.ok.inj ho
  have hsource := hshape.sourceOffset_le hin
  have htexel := htiled.texel level x y hin trivial i hi
  rw [hdata, ← Nat.add_assoc, htexel, Nat.zero_add,
    Overlay.write_of_mem (Nat.zero_le _) (by omega)]
  exact List.getElem?_eq_getElem _

/-- A texture made from some contents. -/
def Made (A : Arithmetic) (U : Upstream) (d : Content) (texture : GxTexture) : Prop :=
  ∃ rgba, TextureLayout.make A d.width d.height d.mips = .ok texture.gpu.layout ∧
    d.convert U texture.gpu.layout = .ok (rgba, texture.hasArbitraryMips) ∧
    Shows A texture.gpu rgba

variable {host : Host} {call : Call} {source : Source} {texture : GxTexture}

theorem makeTexture_made {t : Gx.TexObj}
    (hmake : makeTexture A U g host t source = .ok texture) :
    Made A U (content A g t source) texture := by
  obtain ⟨layout, rgba, hlayout, hconvert, hgpu⟩ := makeTexture_eq_ok hmake
  obtain ⟨hagain, _⟩ := GpuTexture.make_eq_ok hgpu
  obtain ⟨hmake, hwidth, hheight, hcount, _⟩ := TextureLayout.make_shape hlayout
  rw [hwidth, hheight, hcount, hlayout] at hagain
  obtain rfl := Except.ok.inj hagain
  rw [convert_eq] at hconvert
  exact ⟨rgba, hlayout, hconvert, make_shows hgpu⟩

/-- The checks of a call leave numbers that fit in the key. -/
theorem checkSource_small (g : Guest) (hcheck : checkSource A U call = .ok source) :
    (content A g call.texture source).Small := by
  rw [checkSource, Loop.bind_eq_ok] at hcheck
  obtain ⟨size, hsize, hcheck⟩ := hcheck
  rw [sourceByteSize, Loop.bind_eq_ok] at hsize
  obtain ⟨_, _, hsize⟩ := hsize
  rw [Loop.bind_eq_ok] at hsize
  obtain ⟨layout, hlayout, _⟩ := hsize
  obtain ⟨_, _, _, hcount, first, hshape⟩ := TextureLayout.make_shape hlayout
  have hheight := hshape.height_le
  have hmips := hshape.count_le
  refine ⟨?_, ?_, ?_⟩
  · dsimp only [content]
    omega
  · dsimp only [content]
    omega
  · intro p hp
    obtain ⟨q, hq, rfl⟩ := Option.map_eq_some_iff.mp hp
    split_ifs at hcheck with hmissing hindexed
    · rw [Loop.bind_eq_ok] at hcheck
      obtain ⟨checked, hpalette, hok⟩ := hcheck
      obtain rfl := Except.ok.inj hok
      obtain rfl : checked = q := Option.some.inj hq
      rw [checkPalette] at hpalette
      cases hgiven : call.palette with
      | none => simp only [hgiven, reduceCtorEq] at hpalette
      | some palette =>
        have hentries := call.numEntries_lt palette hgiven
        simp only [hgiven] at hpalette
        split_ifs at hpalette with hinvalid htruncated
        obtain rfl := Except.ok.inj hpalette
        dsimp only
        omega
    · obtain rfl := Except.ok.inj hcheck
      exact absurd hq nofun

theorem callContents_eq (hcheck : checkSource A U call = .ok source) :
    callContents A U g call = (content A g call.texture source).hashed := by
  rw [callContents, hcheck]
  cases hpalette : source.palette with
  | none => simp only [content, Content.hashed, hpalette, Option.map_none, Option.toList_none,
      List.map_nil]
  | some p => simp only [content, Content.hashed, hpalette, Option.map_some, Option.toList_some,
      List.map_cons, List.map_nil]

/-! ### Runs -/

/-- A write of the guest, in terms of a range: the range is not tracked, or nothing of it is written
and it keeps its generation, or it gets a generation that it never had. -/
def TrackedWrite (U : Upstream) (past : List Guest) (now next : Guest) : Prop :=
  ∀ data size, guestWriteGeneration U next data size = U.untracked ∨
    guestWriteGeneration U next data size = guestWriteGeneration U now data size ∧
      load next.mem data size = load now.mem data size ∨
    ∀ g ∈ now :: past,
      guestWriteGeneration U g data size ≠ guestWriteGeneration U next data size

theorem Steady.write (h : Steady U g past) {next : Guest} (hwrite : TrackedWrite U past g next) :
    Steady U next (g :: past) := by
  intro g' hg' data size htracked hsame
  rcases hwrite data size with huntracked | ⟨hkept, hbytes⟩ | hfresh
  · exact absurd huntracked htracked
  · rw [hbytes]
    rcases List.mem_cons.mp hg' with rfl | hg'
    · rfl
    · exact h g' hg' data size (hkept ▸ htracked) (hsame.trans hkept)
  · exact absurd hsame (hfresh g' hg')

/-- An entry keeps a texture made from contents that were hashed for its key. -/
def EntrySound (A : Arithmetic) (U : Upstream) (hashed : List (List UInt8)) (e : Entry) : Prop :=
  ∃ d : Content, e.key = d.key U ∧ d.Small ∧ d.hashed ⊆ hashed ∧ Made A U d e.texture

structure Current (A : Arithmetic) (U : Upstream) (s : System) : Prop where
  steady : Steady U s.guest s.past
  memo : ∀ p ∈ s.cache.memo, MemoSound U (s.guest :: s.past) p.1 p.2
  entries : ∀ e ∈ s.cache.entries, EntrySound A U s.contents e

theorem EntrySound.mono {hashed hashed' : List (List UInt8)} {e e' : Entry}
    (h : EntrySound A U hashed e) (hsub : hashed ⊆ hashed') (hkey : e.key = e'.key)
    (htexture : e.texture = e'.texture) : EntrySound A U hashed' e' := by
  obtain ⟨d, hd, hsmall, hhashed, hmade⟩ := h
  exact ⟨d, hkey ▸ hd, hsmall, fun _ hb => hsub (hhashed hb), htexture ▸ hmade⟩

theorem hit_sources (c : GxTextureCache) (k : Key) :
    ∀ e ∈ (c.hit k).entries, ∃ e₀ ∈ c.entries, e₀.key = e.key ∧ e₀.texture = e.texture := by
  intro e he
  obtain ⟨f, hf⟩ := nextStamp_entries c
  obtain ⟨e₁, he₁, rfl⟩ := List.mem_map.mp he
  rw [hf] at he₁
  obtain ⟨e₀, he₀, rfl⟩ := List.mem_map.mp he₁
  refine ⟨e₀, he₀, ?_, ?_⟩ <;> split <;> rfl

/-- One call. -/
theorem Current.outcome {s : System} {budget : ℕ} (h : Current A U s)
    (hvalid : Valid budget s.cache s.recency) (hlawful : Lawful host.kernel s.cache.entries)
    {outcome : Except Failure Resolved × GxTextureCache}
    (hresolves : Resolves A U s.guest host s.cache call outcome) :
    (∀ p ∈ outcome.2.memo, MemoSound U (s.guest :: s.past) p.1 p.2) ∧
      ∀ e ∈ outcome.2.entries, EntrySound A U (callContents A U s.guest call ++ s.contents) e := by
  have hold : ∀ e, (∃ e₀ ∈ s.cache.entries, e₀.key = e.key ∧ e₀.texture = e.texture) →
      EntrySound A U (callContents A U s.guest call ++ s.contents) e := by
    rintro e ⟨e₀, he₀, hkey, htexture⟩
    exact (h.entries e₀ he₀).mono (List.subset_append_right _ _) hkey htexture
  have hdigests : ∀ source k c₁, key A U s.guest s.cache call.texture source = (k, c₁) →
      k = (content A s.guest call.texture source).key U ∧
        (∀ p ∈ c₁.memo, MemoSound U (s.guest :: s.past) p.1 p.2) ∧ s.cache.SameEntries c₁ := by
    intro source k c₁ hkey
    obtain ⟨hk, hmemo⟩ := key_current (A := A) (t := call.texture) h.steady h.memo
    have hsame := key_same A U s.guest s.cache call.texture source
    rw [hkey] at hk hmemo hsame
    exact ⟨hk, hmemo, hsame⟩
  cases hresolves with
  | refused what hcheck => exact ⟨h.memo, fun e he => hold e ⟨e, he, rfl, rfl⟩⟩
  | failed source k c₁ what hcheck hkey _ =>
    obtain ⟨_, hmemo, hsame⟩ := hdigests source k c₁ hkey
    exact ⟨hmemo, fun e he => hold e ⟨e, hsame.entries ▸ he, rfl, rfl⟩⟩
  | hit source k c₁ e hcheck hkey he hk =>
    obtain ⟨_, hmemo, hsame⟩ := hdigests source k c₁ hkey
    refine ⟨fun p hp => hmemo p ((nextStamp_frame c₁).2.2 ▸ hp), ?_⟩
    intro e' he'
    obtain ⟨e₀, he₀, hsource⟩ := hit_sources c₁ k e' he'
    exact hold e' ⟨e₀, hsame.entries ▸ he₀, hsource⟩
  | transient source k c₁ texture hcheck hkey hmake =>
    obtain ⟨_, hmemo, hsame⟩ := hdigests source k c₁ hkey
    exact ⟨hmemo, fun e he => hold e ⟨e, hsame.entries ▸ he, rfl, rfl⟩⟩
  | kept source k c₁ texture hcheck hkey hmake hnew hfits =>
    obtain ⟨hk, hmemo, hsame⟩ := hdigests source k c₁ hkey
    obtain ⟨result, c', hinsert, hspec⟩ := kept_spec hvalid hlawful hsame hmake hnew hfits
    rw [hinsert]
    refine ⟨fun p hp => hmemo p (hspec.memo ▸ hp), ?_⟩
    intro e he
    rcases hspec.sources e he with ⟨hek, htexture⟩ | ⟨e₀, he₀, hsource⟩
    · refine ⟨content A s.guest call.texture source, hek.trans hk, checkSource_small _ hcheck, ?_,
        htexture ▸ makeTexture_made hmake⟩
      rw [callContents_eq hcheck]
      exact List.subset_append_left _ _
    · exact hold e ⟨e₀, hsame.entries ▸ he₀, hsource⟩

theorem Run.current {budget : ℕ} {s : System} (h : Run A U (TrackedWrite U) budget s) :
    Current A U s := by
  induction h with
  | start guest => exact ⟨nofun, nofun, nofun⟩
  | @step s s' hrun hstep ih =>
    cases hstep with
    | write next hwrite =>
      refine ⟨ih.steady.write hwrite, ?_, ih.entries⟩
      intro p hp
      refine (ih.memo p hp).imp_right ?_
      rintro ⟨g, hg, hsound⟩
      exact ⟨g, List.mem_cons_of_mem _ hg, hsound⟩
    | clear => exact ⟨ih.steady, nofun, nofun⟩
    | resolve host call hlawful =>
      obtain ⟨hmemo, hentries⟩ := ih.outcome hrun.valid hlawful (resolves ..)
      exact ⟨ih.steady, hmemo, hentries⟩

theorem insert_returns {order : List Entry → List Entry} {k : Key} {result : Resolved}
    {c' : GxTextureCache} (h : c.insert A order k texture = (.ok result, c')) :
    result.texture = texture := by
  simp only [insert] at h
  split_ifs at h
  · cases (Prod.mk.inj h).1
  split at h
  · cases (Prod.mk.inj h).1
  · obtain ⟨hresult, _⟩ := Prod.mk.inj h
    obtain rfl := Except.ok.inj hresult
    rfl

/-- In every state of a run whose guest writes are tracked, the texture that a call returns shows
the pixels which the converter makes of the texels, and of the palette, that are in memory then. -/
theorem resolve_current {budget : ℕ} {s : System} (h : Run A U (TrackedWrite U) budget s)
    {result : Resolved} {c' : GxTextureCache}
    (hresolve : resolve A U s.guest host s.cache call = (.ok result, c'))
    (hhash : Set.InjOn U.hash {b | b ∈ callContents A U s.guest call ++ s.contents}) :
    ∃ source rgba, checkSource A U call = .ok source ∧
      TextureLayout.make A call.texture.width call.texture.height (call.texture.mipCount A) =
        .ok result.texture.gpu.layout ∧
      convert A U s.guest call.texture result.texture.gpu.layout source =
        .ok (rgba, result.texture.hasArbitraryMips) ∧
      Shows A result.texture.gpu rgba := by
  have hcurrent := h.current
  suffices hmade : ∃ source, checkSource A U call = .ok source ∧
      Made A U (content A s.guest call.texture source) result.texture by
    obtain ⟨source, hcheck, rgba, hlayout, hconvert, hshows⟩ := hmade
    exact ⟨source, rgba, hcheck, hlayout, (convert_eq ..).trans hconvert, hshows⟩
  have hresolves := resolves A U s.guest host s.cache call
  rw [hresolve] at hresolves
  generalize houtcome : ((Except.ok result, c') : Except Failure Resolved × GxTextureCache) = o
    at hresolves
  cases hresolves with
  | refused what hcheck => exact absurd (Prod.mk.inj houtcome).1 nofun
  | failed source k c₁ what hcheck hkey _ => exact absurd (Prod.mk.inj houtcome).1 nofun
  | hit source k c₁ e hcheck hkey he hk =>
    obtain rfl := Except.ok.inj (Prod.mk.inj houtcome).1
    refine ⟨source, hcheck, ?_⟩
    obtain ⟨d, hd, hsmall, hhashed, hmade⟩ := hcurrent.entries e he
    obtain ⟨hk', _⟩ := key_current (A := A) (t := call.texture) hcurrent.steady hcurrent.memo
    rw [hkey] at hk'
    have hsame : d = content A s.guest call.texture source := by
      apply Content.key_injective hsmall (checkSource_small _ hcheck) _
        (hd.symm.trans (hk.trans hk'))
      intro b hb b' hb' heq
      refine hhash (List.mem_append_right _ (hhashed hb)) (List.mem_append_left _ ?_) heq
      rw [callContents_eq hcheck]
      exact hb'
    exact hsame ▸ hmade
  | transient source k c₁ texture hcheck hkey hmake =>
    obtain rfl := Except.ok.inj (Prod.mk.inj houtcome).1
    exact ⟨source, hcheck, makeTexture_made hmake⟩
  | kept source k c₁ texture hcheck hkey hmake hnew hfits =>
    obtain rfl := insert_returns houtcome.symm
    exact ⟨source, hcheck, makeTexture_made hmake⟩

theorem plainGuest_tracked : TrackedWrite plainUpstream [] (plainGuest 1) (plainGuest 2) := by
  intro data size
  by_cases hnone : data = 0 ∨ size = 0
  · left
    simp only [guestWriteGeneration, plainGuest, if_pos hnone]
  · right
    right
    intro g hg
    obtain rfl := List.mem_singleton.mp hg
    simp only [guestWriteGeneration, plainGuest, if_neg hnone]
    decide

/-- The texel after a write, though its address has a memo. -/
theorem resolve_current_plain : ∃ result c' source rgba,
    resolve .modular plainUpstream (plainGuest 2) plainHost (plainSystem 0).cache plainCall =
      (.ok result, c') ∧
    checkSource .modular plainUpstream plainCall = .ok source ∧
    convert .modular plainUpstream (plainGuest 2) plainCall.texture result.texture.gpu.layout source =
      .ok (rgba, result.texture.hasArbitraryMips) ∧
    Shows .modular result.texture.gpu rgba := by
  obtain ⟨result, c', hresolve⟩ : ∃ result c', resolve .modular plainUpstream (plainGuest 2)
      plainHost (plainSystem 0).cache plainCall = (.ok result, c') := ⟨_, _, rfl⟩
  have hrun : Run .modular plainUpstream (TrackedWrite plainUpstream) 0
      { plainSystem 0 with guest := plainGuest 2, past := [plainGuest 1] } :=
    .step (plainSystem_run _ 0) (.write _ (plainGuest 2) plainGuest_tracked)
  have hhash : Set.InjOn plainUpstream.hash {b | b ∈ callContents .modular plainUpstream
      (plainGuest 2) plainCall ++ (plainSystem 0).contents} := by
    have hcontents : callContents .modular plainUpstream (plainGuest 2) plainCall ++
        (plainSystem 0).contents = [[2, 2, 2, 2], [1, 1, 1, 1]] := rfl
    have hdistinct : ∀ b ∈ [[2, 2, 2, 2], [1, 1, 1, 1]], ∀ b' ∈ [[2, 2, 2, 2], [1, 1, 1, 1]],
        plainUpstream.hash b = plainUpstream.hash b' → b = b' := by decide
    rw [hcontents]
    exact fun b hb b' hb' => hdistinct b hb b' hb'
  obtain ⟨source, rgba, hcheck, _, hconvert, hshows⟩ := resolve_current hrun hresolve hhash
  exact ⟨result, c', source, rgba, hresolve, hcheck, hconvert, hshows⟩

end Gpu.GxTextureCache
