import Mathlib.Algebra.Group.Action.Defs
import Mathlib.Algebra.Order.BigOperators.Group.Finset
import MkwiiPs5.Gx.VertexDecoder

/-!
# The layouts that are built

What `GxVertexLayout::build` promises: the formats that an attribute can have, and that the attributes
lie one after the other in the record.
-/

namespace Gx

open Loop (bind_eq_ok)

/-! ### Formats -/

/-- The formats of an enabled attribute. -/
structure AttributeFits (attr : ℕ) (d : AttributeLayout) : Prop where
  mode : d.mode = GX_DIRECT ∨ d.mode = GX_INDEX8 ∨ d.mode = GX_INDEX16
  matrix : attr < GX_VA_POS → d.mode = GX_DIRECT ∧ d.components = 1 ∧ d.componentBytes = 1 ∧
    d.indexCount = 1 ∧ d.type = GX_U8 ∧ d.fraction = 0
  color : isColor attr = true → d.type ≤ GX_RGBA8 ∧ d.components = 1 ∧
    d.componentBytes = colorBytes d.type ∧ d.indexCount = 1 ∧ d.fraction = 0
  numeric : GX_VA_POS ≤ attr → isColor attr = false → d.type ≤ GX_F32 ∧ d.fraction ≤ 31 ∧
    d.componentBytes = numberBytes d.type
  position : attr = GX_VA_POS → (d.components = 2 ∨ d.components = 3) ∧ d.indexCount = 1
  normal : attr = GX_VA_NRM → d.components = 3 ∧ d.indexCount = 1 ∨
    d.components = 9 ∧ (d.indexCount = 1 ∨ d.indexCount = 3)
  texCoord : GX_VA_TEX0 ≤ attr → (d.components = 1 ∨ d.components = 2) ∧ d.indexCount = 1
  arrayStride : d.arrayStride < 256

theorem isColor_iff {attr : ℕ} : isColor attr = true ↔ attr = GX_VA_CLR0 ∨ attr = GX_VA_CLR1 := by
  rw [isColor, Bool.or_eq_true, beq_iff_eq, beq_iff_eq]

/-- What `attributeFormat` makes of the attribute; it leaves mode, offset and array alone. -/
theorem attributeFormat_fits {attr : ℕ} {f : VtxAttrFmt} {dst d : AttributeLayout}
    (h : attributeFormat attr f dst = .ok d) (htype : dst.type = f.type)
    (hfrac : dst.fraction = f.frac) (hcount : dst.indexCount = 1)
    (hmode : dst.mode = GX_DIRECT ∨ dst.mode = GX_INDEX8 ∨ dst.mode = GX_INDEX16)
    (hstride : dst.arrayStride < 256) :
    AttributeFits attr d ∧ d.mode = dst.mode ∧ d.offset = dst.offset ∧
      d.arrayStride = dst.arrayStride := by
  have hcolors := @isColor_iff attr
  simp only [GX_VA_CLR0, GX_VA_CLR1] at hcolors
  rw [attributeFormat] at h
  split at h
  · next hmatrix =>
    rw [GX_VA_POS] at hmatrix
    -- matrix indices are direct bytes
    obtain ⟨_, hdirect, hd⟩ := bind_eq_ok.1 h
    obtain rfl := Except.ok.inj hd
    rw [require_eq_ok, beq_iff_eq] at hdirect
    refine ⟨⟨hmode, fun _ => ⟨hdirect, rfl, rfl, hcount, rfl, rfl⟩, fun hcolor => ?_, fun hle _ => ?_,
      fun heq => ?_, fun heq => ?_, fun hle => ?_, hstride⟩, rfl, rfl, rfl⟩
    · have := hcolors.1 hcolor
      omega
    all_goals simp only [GX_VA_POS, GX_VA_NRM, GX_VA_TEX0] at *; omega
  · next hvertex =>
    rw [GX_VA_POS] at hvertex
    split at h
    · next hcolor =>
      -- colours have one of six formats, whatever the count
      obtain ⟨_, htypes, hd⟩ := bind_eq_ok.1 h
      obtain rfl := Except.ok.inj hd
      rw [require_eq_ok, decide_eq_true_eq, ← htype] at htypes
      have hattr := hcolors.1 hcolor
      refine ⟨⟨hmode, fun hlt => ?_, fun _ => ⟨htypes, rfl, by rw [htype], hcount, rfl⟩,
        fun _ hno => ?_, fun heq => ?_, fun heq => ?_, fun hle => ?_, hstride⟩, rfl, rfl, rfl⟩
      · rw [GX_VA_POS] at hlt
        omega
      · exact absurd (hcolor.symm.trans hno) Bool.noConfusion
      all_goals simp only [GX_VA_POS, GX_VA_NRM, GX_VA_TEX0] at *; omega
    · next hcolor =>
      obtain ⟨_, hnumber, hd⟩ := bind_eq_ok.1 h
      rw [require_eq_ok, Bool.and_eq_true, decide_eq_true_eq, decide_eq_true_eq, ← htype,
        ← hfrac] at hnumber
      have hno : isColor attr = false := by simpa using hcolor
      have hmatrix : ¬ attr < GX_VA_POS := by rwa [GX_VA_POS]
      split at hd
      · next hpos =>
        -- positions have two or three components
        obtain ⟨_, -, hd⟩ := bind_eq_ok.1 hd
        obtain rfl := Except.ok.inj hd
        refine ⟨⟨hmode, fun hlt => absurd hlt hmatrix, fun hcolor' => absurd hcolor' hcolor,
          fun _ _ => ⟨hnumber.1, hnumber.2, by rw [← htype]⟩, fun _ => ⟨?_, hcount⟩, fun heq => ?_,
          fun hle => ?_, hstride⟩, rfl, rfl, rfl⟩
        · dsimp only
          split
          · exact Or.inl rfl
          · exact Or.inr rfl
        all_goals simp only [GX_VA_POS, GX_VA_NRM, GX_VA_TEX0] at *; omega
      · next hpos =>
        split at hd
        · next hnormal =>
          -- normals come with their own count, once or three times
          obtain ⟨_, hcnt, hd⟩ := bind_eq_ok.1 hd
          obtain rfl := Except.ok.inj hd
          refine ⟨⟨hmode, fun hlt => absurd hlt hmatrix, fun hcolor' => absurd hcolor' hcolor,
            fun _ _ => ⟨hnumber.1, hnumber.2, by rw [← htype]⟩, fun heq => absurd heq hpos,
            fun _ => ?_, fun hle => ?_, hstride⟩, rfl, rfl, rfl⟩
          · dsimp only
            split
            · next hxyz => exact Or.inl ⟨rfl, by rw [if_neg (by rw [hxyz]; decide)]⟩
            · refine Or.inr ⟨rfl, ?_⟩
              split
              · exact Or.inr rfl
              · exact Or.inl rfl
          · simp only [GX_VA_NRM, GX_VA_TEX0] at *
            omega
        · next hnormal =>
          -- texture coordinates are left, with one or two components
          obtain ⟨_, -, hd⟩ := bind_eq_ok.1 hd
          obtain rfl := Except.ok.inj hd
          refine ⟨⟨hmode, fun hlt => absurd hlt hmatrix, fun hcolor' => absurd hcolor' hcolor,
            fun _ _ => ⟨hnumber.1, hnumber.2, by rw [← htype]⟩, fun heq => absurd heq hpos,
            fun heq => absurd heq hnormal, fun _ => ⟨?_, hcount⟩, hstride⟩, rfl, rfl, rfl⟩
          dsimp only
          split
          · exact Or.inl rfl
          · exact Or.inr rfl

theorem colorBytes_le {type : ℕ} (h : type ≤ GX_RGBA8) : 2 ≤ colorBytes type ∧ colorBytes type ≤ 4 := by
  rw [GX_RGBA8] at h
  obtain rfl | rfl | rfl | rfl | rfl | rfl :
    type = 0 ∨ type = 1 ∨ type = 2 ∨ type = 3 ∨ type = 4 ∨ type = 5 := by omega
  all_goals decide

theorem numberBytes_le (type : ℕ) : 1 ≤ numberBytes type ∧ numberBytes type ≤ 4 := by
  rw [numberBytes]
  split
  · omega
  · split <;> omega

/-- The sizes of an attribute. -/
theorem AttributeFits.sizes {attr : ℕ} {d : AttributeLayout} (h : AttributeFits attr d) :
    d.componentBytes ≤ 4 ∧ d.components ≤ 9 ∧ 1 ≤ d.indexCount ∧ d.indexCount ≤ 3 := by
  obtain ⟨-, hmatrix, hcolor, hnumeric, hposition, hnormal, htexCoord, -⟩ := h
  have hcolors := @isColor_iff attr
  simp only [GX_VA_POS, GX_VA_NRM, GX_VA_TEX0, GX_VA_CLR0, GX_VA_CLR1] at *
  by_cases hlt : attr < 9
  · have := hmatrix hlt
    omega
  cases hc : isColor attr with
  | true =>
    obtain ⟨htype, hcomponents, hbytes, hcount, -⟩ := hcolor hc
    have := (colorBytes_le htype).2
    omega
  | false =>
    have hbytes := (hnumeric (by omega) hc).2.2
    have := (numberBytes_le d.type).2
    rw [hc] at hcolors
    have hnot : attr ≠ 11 ∧ attr ≠ 12 := by
      constructor <;> intro heq <;> exact absurd (hcolors.2 (by omega)) Bool.noConfusion
    by_cases hpos : attr = 9
    · have := hposition hpos
      omega
    by_cases hnrm : attr = 10
    · have := hnormal hnrm
      omega
    have := htexCoord (by omega)
    omega

theorem AttributeFits.recordBytes_le {attr : ℕ} {d : AttributeLayout} (h : AttributeFits attr d) :
    d.recordBytes ≤ 36 := by
  obtain ⟨hbytes, hcomponents, -, hcount⟩ := h.sizes
  have hwidth : indexWidth d.mode ≤ 2 := by
    rw [indexWidth]
    split <;> omega
  rw [AttributeLayout.recordBytes]
  split
  · omega
  · split
    · exact (Nat.mul_le_mul hbytes hcomponents).trans (by omega)
    · exact (Nat.mul_le_mul hwidth hcount).trans (by omega)

/-- An attribute is laid out as its mode says. -/
theorem attributeLayout_spec {v : VertexState} {format attr offset : ℕ} {d : AttributeLayout}
    (h : attributeLayout v format attr offset = .ok d) :
    d.mode = v.vtxDesc attr ∧ (d.mode = GX_NONE → d = .none) ∧
      (d.mode ≠ GX_NONE → AttributeFits attr d ∧ d.offset = offset) ∧
      (d.indexed = true → d.arrayStride = (v.arrays attr).stride.toNat ∧
        d.arrayLittleEndian = (v.arrays attr).le) := by
  rw [attributeLayout] at h
  split at h
  · next hnone =>
    obtain rfl := Except.ok.inj h
    exact ⟨hnone.symm, fun _ => rfl, fun hne => absurd rfl hne, nofun⟩
  · next hmode =>
    obtain ⟨_, hmodes, h⟩ := bind_eq_ok.1 h
    obtain ⟨dst, hdst, h⟩ := bind_eq_ok.1 h
    simp only [require_eq_ok, Bool.or_eq_true, beq_iff_eq, or_assoc] at hmodes
    obtain ⟨hfits, hsame, hoffset, hstride⟩ :=
      attributeFormat_fits hdst rfl rfl rfl hmodes (Nat.zero_lt_succ 255)
    split at h
    · next hdirect =>
      obtain rfl := Except.ok.inj h
      refine ⟨hsame, fun hnone => absurd (hsame.symm.trans hnone) hmode,
        fun _ => ⟨hfits, hoffset⟩, fun hindexed => ?_⟩
      rw [AttributeLayout.indexed, hsame, hdirect] at hindexed
      cases hindexed
    · obtain rfl := Except.ok.inj h
      refine ⟨hsame, fun hnone => absurd (hsame.symm.trans hnone) hmode,
        fun _ => ⟨{ hfits with arrayStride := (v.arrays attr).stride.toNat_lt }, hoffset⟩,
        fun _ => ⟨rfl, rfl⟩⟩

/-! ### Groups -/

/-- Where a group starts in the element that holds it. -/
def groupOffset (d : AttributeLayout) (group : ℕ) : ℕ :=
  if d.indexed ∧ d.indexCount = 3 then 0 else group * 3 * d.componentBytes

/-- Bytes that the decoder reads of a group. -/
def groupBytes (attr : ℕ) (d : AttributeLayout) : ℕ :=
  if isColor attr then d.componentBytes else groupComponents attr d * d.componentBytes

/-- Bytes of the element that holds a group: a part of the record, or of an array. -/
def heldBytes (d : AttributeLayout) : ℕ := if d.indexed then d.elementBytes else d.recordBytes

theorem indexed_iff {d : AttributeLayout} :
    d.indexed = true ↔ d.mode = GX_INDEX8 ∨ d.mode = GX_INDEX16 := by
  rw [AttributeLayout.indexed, Bool.or_eq_true, beq_iff_eq, beq_iff_eq]

theorem AttributeFits.elementBytes_eq {attr : ℕ} {d : AttributeLayout} (h : AttributeFits attr d) :
    d.elementBytes = d.componentBytes * (if d.indexCount = 3 then 3 else d.components) := by
  obtain ⟨hbytes, hcomponents, -, -⟩ := h.sizes
  have hle : d.componentBytes * (if d.indexCount = 3 then 3 else d.components) ≤ 4 * 9 :=
    Nat.mul_le_mul hbytes (by split <;> omega)
  rw [AttributeLayout.elementBytes, u32, Nat.mod_eq_of_lt (by omega)]

theorem AttributeFits.elementBytes_le {attr : ℕ} {d : AttributeLayout} (h : AttributeFits attr d) :
    d.elementBytes ≤ 36 := by
  obtain ⟨hbytes, hcomponents, -, -⟩ := h.sizes
  rw [h.elementBytes_eq]
  exact (Nat.mul_le_mul hbytes (by split <;> omega : _ ≤ 9)).trans (by omega)

/-- Only normals have more than one index. -/
theorem AttributeFits.indexCount_eq {attr : ℕ} {d : AttributeLayout} (h : AttributeFits attr d)
    (hattr : GX_VA_POS ≤ attr) (hnormal : attr ≠ GX_VA_NRM) : d.indexCount = 1 := by
  cases hcolor : isColor attr with
  | true => exact (h.color hcolor).2.2.2.1
  | false =>
    by_cases hposition : attr = GX_VA_POS
    · exact (h.position hposition).2
    · refine (h.texCoord ?_).2
      have hclr0 : attr ≠ GX_VA_CLR0 := fun heq =>
        Bool.noConfusion (hcolor.symm.trans (isColor_iff.2 (Or.inl heq)))
      have hclr1 : attr ≠ GX_VA_CLR1 := fun heq =>
        Bool.noConfusion (hcolor.symm.trans (isColor_iff.2 (Or.inr heq)))
      simp only [GX_VA_POS, GX_VA_NRM, GX_VA_CLR0, GX_VA_CLR1, GX_VA_TEX0] at *
      omega

/-- The components of all groups up to this one are components of the element. -/
theorem AttributeFits.group_components {attr : ℕ} {d : AttributeLayout} (h : AttributeFits attr d)
    (hattr : GX_VA_POS ≤ attr) {group : ℕ} (hgroup : group < groupCount attr d) :
    (if d.indexed ∧ d.indexCount = 3 then 0 else group * 3) +
        (if isColor attr then 1 else groupComponents attr d) ≤
      if d.indexed ∧ d.indexCount = 3 then 3 else d.components := by
  rw [groupCount] at hgroup
  rw [groupComponents]
  by_cases hnrm : attr = GX_VA_NRM
  · have hcolor : isColor attr = false := by rw [hnrm]; rfl
    rw [hcolor, if_neg Bool.false_ne_true, if_pos hnrm]
    rcases h.normal hnrm with ⟨hcomponents, hcount⟩ | ⟨hcomponents, -⟩
    · have hone : ¬ (d.indexed = true ∧ d.indexCount = 3) := fun hand =>
        absurd (hcount.symm.trans hand.2) (by decide)
      rw [if_neg (by omega)] at hgroup
      rw [if_neg hone, if_neg hone]
      omega
    · rw [if_pos ⟨hnrm, hcomponents⟩] at hgroup
      split <;> omega
  · rw [if_neg fun hand => hnrm hand.1] at hgroup
    obtain rfl : group = 0 := by omega
    have hone : ¬ (d.indexed = true ∧ d.indexCount = 3) := fun hand =>
      absurd ((h.indexCount_eq hattr hnrm).symm.trans hand.2) (by decide)
    rw [if_neg hnrm, if_neg hone, if_neg hone]
    split
    · next hcolor =>
      have := (h.color hcolor).2.1
      omega
    · omega

/-- All groups of an attribute lie in what holds them. -/
theorem AttributeFits.group_le {attr : ℕ} {d : AttributeLayout} (h : AttributeFits attr d)
    (hattr : GX_VA_POS ≤ attr) {group : ℕ} (hgroup : group < groupCount attr d) :
    groupOffset d group + groupBytes attr d ≤ heldBytes d := by
  have hbytes := Nat.mul_le_mul_right d.componentBytes (h.group_components hattr hgroup)
  rw [Nat.add_mul] at hbytes
  have hoffset : (if d.indexed ∧ d.indexCount = 3 then 0 else group * 3) * d.componentBytes =
      groupOffset d group := by
    rw [groupOffset]
    split
    · exact Nat.zero_mul _
    · rfl
  have hread : (if isColor attr then 1 else groupComponents attr d) * d.componentBytes =
      groupBytes attr d := by
    rw [groupBytes]
    split
    · exact Nat.one_mul _
    · rfl
  rw [hoffset, hread] at hbytes
  refine hbytes.trans_eq ?_
  rw [heldBytes, Nat.mul_comm]
  by_cases hindexed : d.indexed = true
  · rw [if_pos hindexed, h.elementBytes_eq]
    simp only [hindexed, true_and]
  · have hdirect : d.mode = GX_DIRECT := h.mode.resolve_right fun hmode =>
      hindexed (indexed_iff.2 hmode)
    rw [if_neg hindexed, if_neg fun hand => hindexed hand.1, AttributeLayout.recordBytes, hdirect]
    rfl

/-! ### The record -/

/-- Bytes of the attributes before `n`. -/
def VertexLayout.bytesBefore (layout : VertexLayout) (n : ℕ) : ℕ :=
  ∑ attr ∈ Finset.range n, (layout.attributes attr).recordBytes

/-- The attributes below `n` are laid out, one after the other. -/
structure LaidOut (v : VertexState) (format n : ℕ) (layout : VertexLayout) : Prop where
  laid : ∀ attr < n,
    attributeLayout v format attr (layout.bytesBefore attr) = .ok (layout.attributes attr)
  stride : layout.stride = layout.bytesBefore n

theorem LaidOut.recordBytes_le {v : VertexState} {format n : ℕ} {layout : VertexLayout}
    (h : LaidOut v format n layout) {attr : ℕ} (hattr : attr < n) :
    (layout.attributes attr).recordBytes ≤ 36 := by
  obtain ⟨-, hnone, hfits, -⟩ := attributeLayout_spec (h.laid attr hattr)
  by_cases hmode : (layout.attributes attr).mode = GX_NONE
  · rw [AttributeLayout.recordBytes, if_pos hmode]
    exact Nat.zero_le 36
  · exact (hfits hmode).1.recordBytes_le

theorem LaidOut.stride_le {v : VertexState} {format n : ℕ} {layout : VertexLayout}
    (h : LaidOut v format n layout) : layout.stride ≤ n * 36 := by
  rw [h.stride, VertexLayout.bytesBefore]
  refine (Finset.sum_le_card_nsmul _ _ 36 fun attr hattr => ?_).trans ?_
  · exact h.recordBytes_le (Finset.mem_range.1 hattr)
  · rw [Finset.card_range, smul_eq_mul]

theorem build_laidOut {v : VertexState} {format : ℕ} {layout : VertexLayout}
    (h : VertexLayout.build v format = .ok layout) :
    LaidOut v format GxGeometryAttributeCount layout := by
  obtain ⟨_, -, h⟩ := bind_eq_ok.1 h
  refine Loop.foldlM_range_invariant (LaidOut v format) h ⟨fun _ h => absurd h (Nat.not_lt_zero _), rfl⟩
    fun n hn out out' hout hturn => ?_
  obtain ⟨dst, hdst, hout'⟩ := bind_eq_ok.1 hturn
  obtain rfl := Except.ok.inj hout'
  let next : VertexLayout :=
    ⟨Function.update out.attributes n dst, u32 (out.stride + dst.recordBytes)⟩
  change LaidOut v format (n + 1) next
  have hold : ∀ attr < n, next.attributes attr = out.attributes attr := fun attr hattr =>
    Function.update_of_ne hattr.ne _ _
  have hnew : next.attributes n = dst := Function.update_self ..
  have hbefore : ∀ m ≤ n, next.bytesBefore m = out.bytesBefore m := by
    intro m hm
    refine Finset.sum_congr rfl fun attr hattr => ?_
    rw [hold attr (by have := Finset.mem_range.1 hattr; omega)]
  have hlaid : ∀ attr < n + 1,
      attributeLayout v format attr (next.bytesBefore attr) = .ok (next.attributes attr) := by
    intro attr hattr
    rw [hbefore attr (by omega)]
    by_cases heq : attr = n
    · rw [heq, hnew, ← hout.stride]
      exact hdst
    · rw [hold attr (by omega)]
      exact hout.laid attr (by omega)
  refine ⟨hlaid, ?_⟩
  have hsum : next.bytesBefore (n + 1) = out.stride + dst.recordBytes := by
    rw [VertexLayout.bytesBefore, Finset.sum_range_succ, hnew, hout.stride, ← hbefore n le_rfl]
    rfl
  -- the record is far too short for the sum to wrap
  have hstride := hout.stride_le
  have hdst36 : dst.recordBytes ≤ 36 := by
    have hone : LaidOut v format (n + 1) ⟨next.attributes, next.bytesBefore (n + 1)⟩ := ⟨hlaid, rfl⟩
    have hle := hone.recordBytes_le n.lt_succ_self
    rwa [show (⟨next.attributes, next.bytesBefore (n + 1)⟩ : VertexLayout).attributes n = dst from
      hnew] at hle
  rw [GxGeometryAttributeCount] at hn
  rw [hsum]
  exact Nat.mod_eq_of_lt (by omega)

/-- Where an enabled attribute lies in the record. -/
theorem LaidOut.within {v : VertexState} {format n : ℕ} {layout : VertexLayout}
    (h : LaidOut v format n layout) {attr : ℕ} (hattr : attr < n)
    (hmode : (layout.attributes attr).mode ≠ GX_NONE) :
    AttributeFits attr (layout.attributes attr) ∧
      (layout.attributes attr).offset = layout.bytesBefore attr ∧
      (layout.attributes attr).offset + (layout.attributes attr).recordBytes ≤ layout.stride := by
  obtain ⟨hfits, hoffset⟩ := (attributeLayout_spec (h.laid attr hattr)).2.2.1 hmode
  refine ⟨hfits, hoffset, ?_⟩
  rw [h.stride, hoffset, VertexLayout.bytesBefore, ← Finset.sum_range_succ]
  exact Finset.sum_le_sum_of_subset (Finset.range_mono hattr)

end Gx
