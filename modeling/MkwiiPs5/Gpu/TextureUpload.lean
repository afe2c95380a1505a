import MkwiiPs5.Gpu.TextureTiling

/-!
# What an upload leaves

The loops of `tile`, texel by texel: every texel done so far is in its place, the rest of the
texture is zero, and nothing outside it changes.
-/

namespace Gpu.TextureLayout

open Overlay (write load)

variable {L : TextureLayout} {width height first : ℕ}

/-- Bytes of the levels before one, in the pixels. -/
def sourceStart (L : TextureLayout) (level : ℕ) : ℕ :=
  ∑ k ∈ Finset.range level, (L.mips k).width * (L.mips k).height * 4

/-- Where a texel is in the pixels. -/
def sourceOffset (L : TextureLayout) (level x y : ℕ) : ℕ :=
  L.sourceStart level + (y * (L.mips level).width + x) * 4

theorem sourceStart_le {level : ℕ} (h : level ≤ L.count) :
    L.sourceStart level ≤ L.sourceStart L.count :=
  Finset.sum_le_sum_of_subset (Finset.range_subset_range.mpr h)

theorem Shape.linearBytes_eq (h : L.Shape width height first) :
    L.linearBytes = L.sourceStart L.count := by
  rw [h.linearBytes, sourceStart]
  apply Finset.sum_congr rfl
  intro k hk
  rw [h.width_eq (Finset.mem_range.mp hk), h.height_eq (Finset.mem_range.mp hk)]

theorem Shape.linearBytes_le (h : L.Shape width height first) : L.linearBytes ≤ 2 ^ 34 := by
  have hsum := sum_le (n := L.count) fun k _ => texels_le (m := k) h.width_le h.height_le
  have hcount : L.count * 2 ^ 30 ≤ 15 * 2 ^ 30 := Nat.mul_le_mul_right _ h.count_le
  rw [h.linearBytes]
  omega

theorem Shape.sourceOffset_le (h : L.Shape width height first) {level x y : ℕ}
    (hin : L.InRange level x y) : L.sourceOffset level x y + 4 ≤ L.linearBytes := by
  obtain ⟨hlevel, hx, hy⟩ := hin
  have hrow : y * (L.mips level).width + x + 1 ≤
      (L.mips level).width * (L.mips level).height := calc
    y * (L.mips level).width + x + 1 ≤ (y + 1) * (L.mips level).width := by
      rw [Nat.succ_mul]
      omega
    _ ≤ (L.mips level).height * (L.mips level).width := Nat.mul_le_mul_right _ hy
    _ = (L.mips level).width * (L.mips level).height := Nat.mul_comm _ _
  have hnext : L.sourceStart (level + 1) ≤ L.linearBytes := by
    rw [h.linearBytes_eq]
    exact sourceStart_le hlevel
  rw [sourceStart, Finset.sum_range_succ, ← sourceStart] at hnext
  rw [sourceOffset]
  omega

/-- The memory after an upload that has done some of the texels. -/
structure Tiled (L : TextureLayout) (mem : ℕ → UInt8) (storage pixels : Span)
    (done : ℕ → ℕ → ℕ → Prop) (mem' : ℕ → UInt8) : Prop where
  texel : ∀ level x y, L.InRange level x y → done level x y → ∀ i < 4,
    mem' (storage.data + place (L.mips level) x y + i) =
      mem (pixels.data + L.sourceOffset level x y + i)
  padding : ∀ j < L.bytes, (∀ level x y, L.InRange level x y → done level x y →
    ¬ (place (L.mips level) x y ≤ j ∧ j < place (L.mips level) x y + 4)) →
    mem' (storage.data + j) = 0
  outside : ∀ p, ¬ (storage.data ≤ p ∧ p < storage.data + L.bytes) → mem' p = mem p

section Tiled

variable {mem mem' : ℕ → UInt8} {storage pixels : Span} {done done' : ℕ → ℕ → ℕ → Prop}

theorem Tiled.congr (h : L.Tiled mem storage pixels done mem')
    (hiff : ∀ level x y, L.InRange level x y → (done' level x y ↔ done level x y)) :
    L.Tiled mem storage pixels done' mem' where
  texel level x y hin hdone := h.texel level x y hin ((hiff level x y hin).mp hdone)
  padding j hj hnot := h.padding j hj fun level x y hin hdone =>
    hnot level x y hin ((hiff level x y hin).mpr hdone)
  outside := h.outside

theorem tiled_start (L : TextureLayout) (mem : ℕ → UInt8) (storage pixels : Span) :
    L.Tiled mem storage pixels (fun _ _ _ => False)
      (write mem storage.data (List.replicate L.bytes 0)) where
  texel _ _ _ _ h := h.elim
  padding j hj _ := by
    rw [Overlay.write_of_mem (by omega) (by rw [List.length_replicate]; omega)]
    exact List.getElem_replicate _
  outside p hp := by
    apply Overlay.write_of_not_mem
    rwa [List.length_replicate]

/-- The pixels lie outside the texture. -/
theorem apart_of_not_overlapping (h : L.overlapping storage pixels = false) :
    storage.data + L.bytes ≤ pixels.data ∨ pixels.data + L.linearBytes ≤ storage.data := by
  rw [overlapping] at h
  split_ifs at h with hle
  · have := of_decide_eq_false h
    omega
  · have := of_decide_eq_false h
    omega

/-- One texel more. -/
theorem Shape.tile_step (hshape : L.Shape width height first)
    (hapart : L.overlapping storage pixels = false)
    (h : L.Tiled mem storage pixels done mem') {level x y : ℕ} (hin : L.InRange level x y) :
    L.Tiled mem storage pixels
      (fun level' x' y' => done level' x' y' ∨ level' = level ∧ x' = x ∧ y' = y)
      (write mem' (storage.data + place (L.mips level) x y)
        (load mem' (pixels.data + L.sourceOffset level x y) 4)) := by
  have hplace := hshape.place_lt hin
  have hfour := hshape.four_dvd_place hin
  have hbytes := hshape.four_dvd_bytes
  have hsource := hshape.sourceOffset_le hin
  have hlength : (load mem' (pixels.data + L.sourceOffset level x y) 4).length = 4 := by
    simp [load]
  have hwritten : ∀ i < 4, write mem' (storage.data + place (L.mips level) x y)
      (load mem' (pixels.data + L.sourceOffset level x y) 4)
      (storage.data + place (L.mips level) x y + i) =
      mem (pixels.data + L.sourceOffset level x y + i) := by
    intro i hi
    rw [Overlay.write_of_mem (by omega) (by omega)]
    simp only [load, List.getElem_map, List.getElem_range, Nat.add_sub_cancel_left]
    apply h.outside
    rcases apart_of_not_overlapping hapart with hp | hp <;> omega
  constructor
  · intro level' x' y' hin' hdone i hi
    by_cases hsame : level' = level ∧ x' = x ∧ y' = y
    · obtain ⟨rfl, rfl, rfl⟩ := hsame
      exact hwritten i hi
    · have hfour' := hshape.four_dvd_place hin'
      have hne : place (L.mips level') x' y' ≠ place (L.mips level) x y := fun heq =>
        hsame (hshape.place_injective hin' hin heq)
      rw [Overlay.write_of_not_mem (by omega)]
      exact h.texel level' x' y' hin' (hdone.resolve_right hsame) i hi
  · intro j hj hnot
    have hhere := hnot level x y hin (Or.inr ⟨rfl, rfl, rfl⟩)
    rw [Overlay.write_of_not_mem (by omega)]
    exact h.padding j hj fun level' x' y' hin' hdone => hnot level' x' y' hin' (Or.inl hdone)
  · intro p hp
    rw [Overlay.write_of_not_mem (by omega)]
    exact h.outside p hp

/-- The loops are past a texel when they are at `(level, y, x)`. -/
def Past (level y x level' x' y' : ℕ) : Prop :=
  level' < level ∨ level' = level ∧ (y' < y ∨ y' = y ∧ x' < x)

/-- The memory and the position in the pixels, when the loops are at `(level, y, x)`. -/
def At (L : TextureLayout) (mem : ℕ → UInt8) (storage pixels : Span) (level y x : ℕ)
    (s : (ℕ → UInt8) × ℕ) : Prop :=
  L.Tiled mem storage pixels (Past level y x) s.1 ∧ s.2 = L.sourceOffset level x y

theorem Shape.tileTexel_ok (A : Arithmetic) (hshape : L.Shape width height first)
    (hapart : L.overlapping storage pixels = false) {level y x : ℕ} (hin : L.InRange level x y)
    {s : (ℕ → UInt8) × ℕ} (h : L.At mem storage pixels level y x s) :
    ∃ s', L.tileTexel A storage pixels level y s x = .ok s' ∧
      L.At mem storage pixels level y (x + 1) s' := by
  obtain ⟨htiled, hsource⟩ := h
  have hnext : A.u64 (s.2 + 4) = s.2 + 4 := by
    have hle := hshape.sourceOffset_le hin
    have hsmall := hshape.linearBytes_le
    exact A.u64_eq (by push_cast; rfl) (by omega)
  refine ⟨(write s.1 (storage.data + place (L.mips level) x y)
    (load s.1 (pixels.data + s.2) 4), s.2 + 4), ?_, ?_, ?_⟩
  · rw [tileTexel, hshape.pixelOffset_eq A hin, ← hnext]
    rfl
  · dsimp only
    rw [hsource]
    apply (hshape.tile_step hapart htiled hin).congr
    intro level' x' y' _
    simp only [Past]
    omega
  · dsimp only
    rw [hsource, sourceOffset, sourceOffset]
    omega

theorem Shape.tileRow_ok (A : Arithmetic) (hshape : L.Shape width height first)
    (hapart : L.overlapping storage pixels = false) {level y : ℕ} (hlevel : level < L.count)
    (hy : y < (L.mips level).height) {s : (ℕ → UInt8) × ℕ}
    (h : L.At mem storage pixels level y 0 s) :
    ∃ s', L.tileRow A storage pixels level s y = .ok s' ∧
      L.At mem storage pixels level (y + 1) 0 s' := by
  obtain ⟨s', hok, htiled, hsource⟩ := Loop.foldlM_range_total
    (f := L.tileTexel A storage pixels level y) (n := (L.mips level).width)
    (L.At mem storage pixels level y) h
    fun x hx s hs => hshape.tileTexel_ok A hapart ⟨hlevel, hx, hy⟩ hs
  refine ⟨s', hok, htiled.congr ?_, ?_⟩
  · rintro level' x' y' ⟨_, hx', _⟩
    simp only [Past]
    constructor
    · rintro (hlt | ⟨rfl, hlt | ⟨_, hlt⟩⟩)
      · exact Or.inl hlt
      · exact Or.inr ⟨rfl, by omega⟩
      · omega
    · rintro (hlt | ⟨rfl, hlt⟩)
      · exact Or.inl hlt
      · exact Or.inr ⟨rfl, by omega⟩
  · rw [hsource, sourceOffset, sourceOffset, Nat.succ_mul, Nat.add_zero]

theorem Shape.tileLevel_ok (A : Arithmetic) (hshape : L.Shape width height first)
    (hapart : L.overlapping storage pixels = false) {level : ℕ} (hlevel : level < L.count)
    {s : (ℕ → UInt8) × ℕ} (h : L.At mem storage pixels level 0 0 s) :
    ∃ s', L.tileLevel A storage pixels s level = .ok s' ∧
      L.At mem storage pixels (level + 1) 0 0 s' := by
  obtain ⟨s', hok, htiled, hsource⟩ := Loop.foldlM_range_total
    (f := L.tileRow A storage pixels level) (n := (L.mips level).height)
    (fun y => L.At mem storage pixels level y 0) h
    fun y hy s hs => hshape.tileRow_ok A hapart hlevel hy hs
  refine ⟨s', hok, htiled.congr ?_, ?_⟩
  · rintro level' x' y' ⟨_, _, hy'⟩
    simp only [Past]
    constructor
    · rintro (hlt | ⟨_, hlt | ⟨_, hlt⟩⟩)
      · rcases Nat.lt_succ_iff_lt_or_eq.mp hlt with hlt | rfl
        · exact Or.inl hlt
        · exact Or.inr ⟨rfl, Or.inl hy'⟩
      · omega
      · omega
    · rintro (hlt | ⟨rfl, _⟩)
      · exact Or.inl (by omega)
      · exact Or.inl (by omega)
  · rw [hsource, sourceOffset, sourceOffset, sourceStart, sourceStart, Finset.sum_range_succ,
      Nat.mul_comm (L.mips level).height]
    omega

/-- An upload whose spans fit succeeds. -/
theorem Shape.tile_ok (A : Arithmetic) (hshape : L.Shape width height first)
    (hstorage : L.bytes ≤ storage.size) (hpixels : pixels.size = L.linearBytes)
    (hapart : L.overlapping storage pixels = false) (mem : ℕ → UInt8) :
    ∃ mem', L.tile A mem storage pixels = .ok mem' ∧
      L.Tiled mem storage pixels (fun _ _ _ => True) mem' := by
  obtain ⟨s', hok, htiled, _⟩ := Loop.foldlM_range_total
    (f := L.tileLevel A storage pixels) (n := L.count)
    (s := (write mem storage.data (List.replicate L.bytes 0), 0))
    (fun level => L.At mem storage pixels level 0 0)
    ⟨(tiled_start L mem storage pixels).congr fun level' x' y' _ => by simp [Past],
      by simp [sourceOffset, sourceStart]⟩
    fun level hlevel s hs => hshape.tileLevel_ok A hapart hlevel hs
  refine ⟨s'.1, ?_, htiled.congr ?_⟩
  · rw [tile, if_neg (by omega), hapart, if_neg Bool.false_ne_true, hok]
    rfl
  · rintro level' x' y' ⟨hlevel', _⟩
    exact ⟨fun _ => Or.inl hlevel', fun _ => trivial⟩

/-- The upload fixes the whole memory. -/
theorem Tiled.unique {mem₁ mem₂ : ℕ → UInt8}
    (h₁ : L.Tiled mem storage pixels (fun _ _ _ => True) mem₁)
    (h₂ : L.Tiled mem storage pixels (fun _ _ _ => True) mem₂) : mem₁ = mem₂ := by
  funext p
  by_cases hp : storage.data ≤ p ∧ p < storage.data + L.bytes
  · obtain ⟨j, rfl⟩ := Nat.exists_eq_add_of_le hp.1
    by_cases hcovered : ∃ level x y, L.InRange level x y ∧
        (place (L.mips level) x y ≤ j ∧ j < place (L.mips level) x y + 4)
    · obtain ⟨level, x, y, hin, hlo, hhi⟩ := hcovered
      obtain ⟨i, rfl⟩ := Nat.exists_eq_add_of_le hlo
      rw [← Nat.add_assoc, h₁.texel level x y hin trivial i (by omega),
        h₂.texel level x y hin trivial i (by omega)]
    · have hnot : ∀ level x y, L.InRange level x y → True →
          ¬ (place (L.mips level) x y ≤ j ∧ j < place (L.mips level) x y + 4) :=
        fun level x y hin _ hj => hcovered ⟨level, x, y, hin, hj⟩
      rw [h₁.padding j (by omega) hnot, h₂.padding j (by omega) hnot]
  · rw [h₁.outside p hp, h₂.outside p hp]

theorem tile_eq_ok {A : Arithmetic} (h : L.tile A mem storage pixels = .ok mem') :
    L.bytes ≤ storage.size ∧ pixels.size = L.linearBytes ∧
      L.overlapping storage pixels = false := by
  rw [tile] at h
  split_ifs at h with hsize hoverlap
  exact ⟨by omega, by omega, by simpa using hoverlap⟩

end Tiled

/-- Whatever the constructor admits, the texels of all levels lie apart in the texture and an upload
puts every one in its place; the rest of the texture is zero. As every arithmetic gives the same
layout, offsets and uploads, nothing wraps. -/
theorem layout_tiles {A : Arithmetic} {width height mipCount : ℕ} {L : TextureLayout}
    (h : make A width height mipCount = .ok L) :
    (L.count = mipCount ∧ ∀ level < mipCount, (L.mips level).width = max 1 (width >>> level) ∧
      (L.mips level).height = max 1 (height >>> level)) ∧
    (∀ level x y, L.InRange level x y →
      ∃ o, L.pixelOffset A x y level = .ok o ∧ 4 ∣ o ∧ o ≤ L.bytes - 4 ∧ 4 ≤ L.bytes) ∧
    (∀ level x y level' x' y' o, L.pixelOffset A x y level = .ok o →
      L.pixelOffset A x' y' level' = .ok o → level = level' ∧ x = x' ∧ y = y') ∧
    (∀ mem storage pixels, L.bytes ≤ storage.size → pixels.size = L.linearBytes →
      L.overlapping storage pixels = false → ∃ mem', L.tile A mem storage pixels = .ok mem') ∧
    (∀ mem storage pixels mem', L.tile A mem storage pixels = .ok mem' →
      (∀ level x y o, L.pixelOffset A x y level = .ok o → ∀ i < 4,
        mem' (storage.data + o + i) = mem (pixels.data + L.sourceOffset level x y + i)) ∧
      ∀ j < L.bytes, (∀ level x y o, L.pixelOffset A x y level = .ok o → ¬ (o ≤ j ∧ j < o + 4)) →
        mem' (storage.data + j) = 0) ∧
    ∀ B, make B width height mipCount = .ok L ∧
      (∀ level x y, L.InRange level x y → L.pixelOffset B x y level = L.pixelOffset A x y level) ∧
      ∀ mem storage pixels, L.bytes ≤ storage.size → pixels.size = L.linearBytes →
        L.overlapping storage pixels = false →
        L.tile B mem storage pixels = L.tile A mem storage pixels := by
  obtain ⟨hmake, rfl, rfl, rfl, first, hshape⟩ := make_shape h
  -- every offset is the place of its texel, whatever the arithmetic
  have hoffset : ∀ level x y o, L.pixelOffset A x y level = .ok o →
      L.InRange level x y ∧ o = place (L.mips level) x y := by
    intro level x y o ho
    have hin := pixelOffset_inRange ho
    rw [hshape.pixelOffset_eq A hin] at ho
    exact ⟨hin, (Except.ok.inj ho).symm⟩
  refine ⟨⟨rfl, fun level hlevel => ⟨hshape.width_eq hlevel, hshape.height_eq hlevel⟩⟩,
    ?_, ?_, ?_, ?_, ?_⟩
  · intro level x y hin
    have hlt := hshape.place_lt hin
    have hfour := hshape.four_dvd_place hin
    have hbytes := hshape.four_dvd_bytes
    exact ⟨_, hshape.pixelOffset_eq A hin, hfour, by omega, by omega⟩
  · intro level x y level' x' y' o ho ho'
    obtain ⟨hin, rfl⟩ := hoffset level x y o ho
    obtain ⟨hin', heq⟩ := hoffset level' x' y' _ ho'
    exact hshape.place_injective hin hin' heq
  · intro mem storage pixels hstorage hpixels hapart
    obtain ⟨mem', hok, _⟩ := hshape.tile_ok A hstorage hpixels hapart mem
    exact ⟨mem', hok⟩
  · intro mem storage pixels mem' hok
    obtain ⟨hstorage, hpixels, hapart⟩ := tile_eq_ok hok
    obtain ⟨mem'', hok', htiled⟩ := hshape.tile_ok A hstorage hpixels hapart mem
    obtain rfl := Except.ok.inj (hok.symm.trans hok')
    constructor
    · intro level x y o ho i hi
      obtain ⟨hin, rfl⟩ := hoffset level x y o ho
      exact htiled.texel level x y hin trivial i hi
    · intro j hj hnot
      exact htiled.padding j hj fun level x y hin _ =>
        hnot level x y _ (hshape.pixelOffset_eq A hin)
  · intro B
    refine ⟨hmake B, ?_, ?_⟩
    · intro level x y hin
      rw [hshape.pixelOffset_eq A hin, hshape.pixelOffset_eq B hin]
    · -- both uploads leave every byte of the texture determined, and the rest alone
      intro mem storage pixels hstorage hpixels hapart
      obtain ⟨memA, hA, htiledA⟩ := hshape.tile_ok A hstorage hpixels hapart mem
      obtain ⟨memB, hB, htiledB⟩ := hshape.tile_ok B hstorage hpixels hapart mem
      rw [hA, hB, htiledA.unique htiledB]

theorem layout_tiles_two : ∃ L, make .modular 2 2 2 = .ok L ∧ L.bytes = 65536 ∧
    (∃ o, L.pixelOffset .modular 1 1 0 = .ok o ∧ 4 ∣ o ∧ o ≤ L.bytes - 4 ∧ 4 ≤ L.bytes) ∧
    ∃ mem', L.tile .modular (fun _ => 7) ⟨0, 65536⟩ ⟨65536, 20⟩ = .ok mem' := by
  obtain ⟨L, hL⟩ : ∃ L, make .modular 2 2 2 = .ok L := ⟨_, rfl⟩
  have hmake : make .modular 2 2 2 = .ok L := hL
  have htiles := layout_tiles hmake
  have hsizes : L.bytes = 65536 ∧ L.linearBytes = 20 ∧ L.InRange 0 1 1 := by
    obtain rfl := Except.ok.inj hL
    exact ⟨rfl, rfl, by decide, by decide, by decide⟩
  exact ⟨L, hL, hsizes.1, htiles.2.1 0 1 1 hsizes.2.2,
    htiles.2.2.2.1 _ ⟨0, 65536⟩ ⟨65536, 20⟩ hsizes.1.le hsizes.2.1.symm
      (by rw [overlapping, hsizes.1]; rfl)⟩

end Gpu.TextureLayout
