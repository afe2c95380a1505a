import MkwiiPs5.Gx.GeometryDecoding

/-!
# The values of a decoded vertex

Every attribute is decoded on its own: its turn of the loop sets its numbers, and no other turn
touches them.
-/

namespace Gx

open Bytes (slice number)
open Loop (bind_eq_ok)

/-- The numbers of a group of an attribute that is no colour. -/
def DecodedVertex.number (out : DecodedVertex) (attr group : ℕ) : ℕ → Scalar :=
  if attr = GX_VA_POS then out.position
  else if attr = GX_VA_NRM then
    if group = 0 then out.normal else if group = 1 then out.binormal else out.tangent
  else out.uv (attr - GX_VA_TEX0)

/-- The channels of a colour. -/
def DecodedVertex.color (out : DecodedVertex) (attr : ℕ) : List Scalar :=
  out.colors (attr - GX_VA_CLR0)

/-- An attribute with numbers. -/
def Numeric (attr : ℕ) : Prop := GX_VA_POS ≤ attr ∧ isColor attr = false

theorem numeric_iff {attr : ℕ} :
    Numeric attr ↔ attr = GX_VA_POS ∨ attr = GX_VA_NRM ∨ GX_VA_TEX0 ≤ attr := by
  have hcolors := @isColor_iff attr
  rw [Numeric, ← Bool.not_eq_true, hcolors]
  simp only [GX_VA_POS, GX_VA_NRM, GX_VA_CLR0, GX_VA_CLR1, GX_VA_TEX0]
  omega

theorem Numeric.of_ne {attr : ℕ} (h : Numeric attr) (hpos : attr ≠ GX_VA_POS)
    (hnrm : attr ≠ GX_VA_NRM) : GX_VA_TEX0 ≤ attr :=
  ((numeric_iff.1 h).resolve_left hpos).resolve_left hnrm

/-- Attributes with values: all but the matrix indices. -/
theorem numeric_or_color {attr : ℕ} (h : GX_VA_POS ≤ attr) : Numeric attr ∨ isColor attr = true := by
  cases hcolor : isColor attr with
  | true => exact Or.inr rfl
  | false => exact Or.inl ⟨h, hcolor⟩

/-! ### What a turn leaves -/

/-- Nothing but the attribute has changed. -/
structure Apart (attr : ℕ) (out out' : DecodedVertex) : Prop where
  number : ∀ attr', Numeric attr' → attr' ≠ attr → out'.number attr' = out.number attr'
  color : ∀ attr', isColor attr' = true → attr' ≠ attr → out'.color attr' = out.color attr'
  positionMatrix : attr ≠ GX_VA_PNMTXIDX → out'.positionMatrix = out.positionMatrix
  textureMatrix : ∀ i, attr ≠ GX_VA_TEX0MTXIDX + i →
    out'.textureMatrices i = out.textureMatrices i

variable {attr : ℕ} {out out' out'' : DecodedVertex}

theorem Apart.refl (attr : ℕ) (out : DecodedVertex) : Apart attr out out :=
  ⟨fun _ _ _ => rfl, fun _ _ _ => rfl, fun _ => rfl, fun _ _ => rfl⟩

theorem Apart.trans (h : Apart attr out out') (h' : Apart attr out' out'') : Apart attr out out'' :=
  ⟨fun a ha hne => (h'.number a ha hne).trans (h.number a ha hne),
    fun a ha hne => (h'.color a ha hne).trans (h.color a ha hne),
    fun hne => (h'.positionMatrix hne).trans (h.positionMatrix hne),
    fun i hne => (h'.textureMatrix i hne).trans (h.textureMatrix i hne)⟩

theorem apart_setComponent (h : Numeric attr) (group c : ℕ) (value : Scalar) (out : DecodedVertex) :
    Apart attr out (out.setComponent attr group c value) := by
  rw [DecodedVertex.setComponent]
  split
  · next hpos =>
    refine ⟨fun a _ hne => funext fun group' => ?_, fun _ _ _ => rfl, fun _ => rfl, fun _ _ => rfl⟩
    simp only [DecodedVertex.number, if_neg (hpos ▸ hne)]
  · next hpos =>
    split
    · next hnrm =>
      have hothers : ∀ a ≠ GX_VA_NRM, ∀ normal binormal tangent group',
          DecodedVertex.number { out with normal, binormal, tangent } a group' =
            out.number a group' := fun a hne normal binormal tangent group' => by
        simp only [DecodedVertex.number, if_neg hne]
      split
      · exact ⟨fun a _ hne => funext fun _ => hothers a (hnrm ▸ hne) _ _ _ _, fun _ _ _ => rfl,
          fun _ => rfl, fun _ _ => rfl⟩
      · split
        · exact ⟨fun a _ hne => funext fun _ => hothers a (hnrm ▸ hne) _ _ _ _, fun _ _ _ => rfl,
            fun _ => rfl, fun _ _ => rfl⟩
        · exact ⟨fun a _ hne => funext fun _ => hothers a (hnrm ▸ hne) _ _ _ _, fun _ _ _ => rfl,
            fun _ => rfl, fun _ _ => rfl⟩
    · next hnrm =>
      have hcoord := h.of_ne hpos hnrm
      refine ⟨fun a ha hne => funext fun group' => ?_, fun _ _ _ => rfl, fun _ => rfl, fun _ _ => rfl⟩
      simp only [DecodedVertex.number]
      split
      · rfl
      · next hpos' =>
        split
        · rfl
        · next hnrm' =>
          have hcoord' := ha.of_ne hpos' hnrm'
          exact Function.update_of_ne (by omega) _ _

theorem number_setComponent (attr group c : ℕ) (value : Scalar) (out : DecodedVertex) :
    (out.setComponent attr group c value).number attr group =
      Function.update (out.number attr group) c value := by
  rw [DecodedVertex.setComponent]
  split
  · next hpos => simp only [DecodedVertex.number, if_pos hpos]
  · next hpos =>
    split
    · next hnrm =>
      split
      · next hzero => simp only [DecodedVertex.number, if_neg hpos, if_pos hnrm, if_pos hzero]
      · next hzero =>
        split
        · next hone =>
          simp only [DecodedVertex.number, if_neg hpos, if_pos hnrm, if_neg hzero, if_pos hone]
        · next hone =>
          simp only [DecodedVertex.number, if_neg hpos, if_pos hnrm, if_neg hzero, if_neg hone]
    · next hnrm =>
      simp only [DecodedVertex.number, if_neg hpos, if_neg hnrm, Function.update_self]

/-- The three groups of a normal are apart. -/
theorem number_setComponent_of_ne {group group' : ℕ} (hgroup : group < 3) (hgroup' : group' < 3)
    (hne : group' ≠ group) (c : ℕ) (value : Scalar) (out : DecodedVertex) :
    (out.setComponent GX_VA_NRM group c value).number GX_VA_NRM group' =
      out.number GX_VA_NRM group' := by
  have hgroups : group = 0 ∨ group = 1 ∨ group = 2 := by omega
  have hgroups' : group' = 0 ∨ group' = 1 ∨ group' = 2 := by omega
  rcases hgroups with rfl | rfl | rfl <;> rcases hgroups' with rfl | rfl | rfl <;>
    first | rfl | exact absurd rfl hne

/-! ### Groups -/

variable {v : VertexState} {resolve : Resolver} {g : Geometry} {vertex group : ℕ}

/-- Whether the bytes of an attribute have the lowest first. -/
def AttributeLayout.little (d : AttributeLayout) : Bool := d.indexed && d.arrayLittleEndian

/-- The numbers of a group are those of its components, and zero beyond them. -/
structure DecodedNumbers (g : Geometry) (vertex attr group : ℕ) (numbers : ℕ → Scalar) : Prop where
  component : ∀ c < groupComponents attr (g.layout.attributes attr),
    component (heldIn g attr)
        (groupAddress g attr vertex group + c * (g.layout.attributes attr).componentBytes)
        (g.layout.attributes attr) (g.layout.attributes attr).little = .ok (numbers c)
  rest : ∀ c, groupComponents attr (g.layout.attributes attr) ≤ c → numbers c = .exact 0

/-- Beyond the first number there is nothing yet. -/
def Blank (numbers : ℕ → Scalar) : Prop := ∀ c, 1 ≤ c → numbers c = .exact 0

theorem AttributeFits.one_le_components {d : AttributeLayout} (h : AttributeFits attr d)
    (hnumeric : Numeric attr) : 1 ≤ groupComponents attr d := by
  rw [groupComponents]
  split
  · omega
  · next hnrm =>
    by_cases hpos : attr = GX_VA_POS
    · have := (h.position hpos).1
      omega
    · have := (h.texCoord (hnumeric.of_ne hpos hnrm)).1
      omega

/-- The turn of a group sets its numbers. -/
theorem decodeGroup_numbers (hg : Decodes v resolve g) (hvertex : vertex < g.count)
    (hattr : attr < GxGeometryAttributeCount) (hnumeric : Numeric attr)
    (hmode : (g.layout.attributes attr).mode ≠ GX_NONE)
    (hfits : AttributeFits attr (g.layout.attributes attr))
    (hgroup : group < groupCount attr (g.layout.attributes attr)) (hblank : Blank (out.number attr group))
    (h : decodeGroup g attr (g.layout.attributes attr)
      (vertex * g.layout.stride + (g.layout.attributes attr).offset) out group = .ok out') :
    DecodedNumbers g vertex attr group (out'.number attr group) ∧ Apart attr out out' ∧
      ∀ group' < 3, attr = GX_VA_NRM → group < 3 → group' ≠ group →
        out'.number attr group' = out.number attr group' := by
  obtain ⟨hsource, -, hexact⟩ := hg.group vertex hvertex attr hattr hnumeric.1 hmode group hgroup
  rw [decodeGroup, hsource] at h
  dsimp only [bind, Except.bind] at h
  rw [if_neg (ne_true_of_eq_false hnumeric.2)] at h
  rw [groupBytes, if_neg (ne_true_of_eq_false hnumeric.2)] at hexact
  -- after `n` turns the first `n` components are set and the rest is as before
  obtain ⟨hset, hrest, hapart, hothers⟩ := Loop.foldlM_range_invariant (fun n out' =>
    (∀ c < n, component (heldIn g attr)
      (groupAddress g attr vertex group + c * (g.layout.attributes attr).componentBytes)
      (g.layout.attributes attr) (g.layout.attributes attr).little =
        .ok (out'.number attr group c)) ∧
    (∀ c, n ≤ c → out'.number attr group c = out.number attr group c) ∧ Apart attr out out' ∧
    ∀ group' < 3, attr = GX_VA_NRM → group < 3 → group' ≠ group →
      out'.number attr group' = out.number attr group') h
    ⟨fun c hc => absurd hc (Nat.not_lt_zero c), fun _ _ => rfl, Apart.refl attr out,
      fun _ _ _ _ _ => rfl⟩ fun n hn s s' hs hturn => by
    obtain ⟨hset, hrest, hapart, hothers⟩ := hs
    obtain ⟨value, hvalue, hs'⟩ := bind_eq_ok.1 hturn
    obtain rfl := Except.ok.inj hs'
    have hwidth : 1 ≤ (g.layout.attributes attr).componentBytes := by
      rw [(hfits.numeric hnumeric.1 hnumeric.2).2.2]
      exact (numberBytes_le _).1
    have hnext := Nat.mul_le_mul_right (g.layout.attributes attr).componentBytes hn
    rw [Nat.succ_mul] at hnext
    rw [hexact _ (by omega)] at hvalue
    refine ⟨fun c hc => ?_, fun c hc => ?_, hapart.trans (apart_setComponent hnumeric _ _ _ _),
      fun group' hgroup' hnrm hthree hne => ?_⟩
    · rw [number_setComponent]
      -- the turn sets the component `n` and no other
      by_cases heq : c = n
      · rw [heq, Function.update_self]
        exact hvalue
      · rw [Function.update_of_ne heq]
        exact hset c (by omega)
    · rw [number_setComponent, Function.update_of_ne (by omega)]
      exact hrest c (by omega)
    · subst hnrm
      rw [number_setComponent_of_ne hthree hgroup' hne]
      exact hothers group' hgroup' rfl hthree hne
  refine ⟨⟨hset, fun c hc => ?_⟩, hapart, hothers⟩
  have hone := hfits.one_le_components hnumeric
  rw [hrest c hc, hblank c (by omega)]

/-- The turn of a colour sets its channels. -/
theorem decodeGroup_color (hg : Decodes v resolve g) (hvertex : vertex < g.count)
    (hattr : attr < GxGeometryAttributeCount) (hlow : GX_VA_POS ≤ attr)
    (hcolor : isColor attr = true) (hmode : (g.layout.attributes attr).mode ≠ GX_NONE)
    (hgroup : group < groupCount attr (g.layout.attributes attr))
    (h : decodeGroup g attr (g.layout.attributes attr)
      (vertex * g.layout.stride + (g.layout.attributes attr).offset) out group = .ok out') :
    colorValue (heldIn g attr) (groupAddress g attr vertex group) (g.layout.attributes attr)
        (g.layout.attributes attr).little = .ok (out'.color attr) ∧ Apart attr out out' := by
  obtain ⟨hsource, -, -⟩ := hg.group vertex hvertex attr hattr hlow hmode group hgroup
  rw [decodeGroup, hsource] at h
  dsimp only [bind, Except.bind] at h
  rw [if_pos hcolor] at h
  obtain ⟨color, hvalue, hout⟩ := bind_eq_ok.1 h
  obtain rfl := Except.ok.inj hout
  refine ⟨?_, fun _ _ _ => rfl, fun a ha hne => ?_, fun _ => rfl, fun _ _ => rfl⟩
  · rw [DecodedVertex.color]
    dsimp only
    rw [Function.update_self]
    exact hvalue
  · have h0 := isColor_iff.1 ha
    have h1 := isColor_iff.1 hcolor
    simp only [GX_VA_CLR0, GX_VA_CLR1] at h0 h1
    exact Function.update_of_ne (by rw [GX_VA_CLR0]; omega) _ _

/-! ### Attributes -/

/-- The group that the numbers of a group are of: an attribute without groups has one. -/
def sourceGroup (attr : ℕ) (d : AttributeLayout) (group : ℕ) : ℕ :=
  if groupCount attr d = 3 then group else 0

theorem number_of_ne (hnrm : attr ≠ GX_VA_NRM) (out : DecodedVertex) (group : ℕ) :
    out.number attr group = out.number attr 0 := by
  simp only [DecodedVertex.number, if_neg hnrm]

theorem groupCount_eq (attr : ℕ) (d : AttributeLayout) :
    groupCount attr d = 1 ∨ attr = GX_VA_NRM ∧ groupCount attr d = 3 := by
  rw [groupCount]
  split
  · next h => exact Or.inr ⟨h.1, rfl⟩
  · exact Or.inl rfl

/-- The turns of all groups. -/
theorem decodeGroups_numbers (hg : Decodes v resolve g) (hvertex : vertex < g.count)
    (hattr : attr < GxGeometryAttributeCount) (hnumeric : Numeric attr)
    (hmode : (g.layout.attributes attr).mode ≠ GX_NONE)
    (hfits : AttributeFits attr (g.layout.attributes attr))
    (hblank : ∀ group < 3, Blank (out.number attr group))
    (h : (List.range (groupCount attr (g.layout.attributes attr))).foldlM
      (decodeGroup g attr (g.layout.attributes attr)
        (vertex * g.layout.stride + (g.layout.attributes attr).offset)) out = .ok out') :
    (∀ group < groupCount attr (g.layout.attributes attr),
      DecodedNumbers g vertex attr group (out'.number attr group)) ∧ Apart attr out out' := by
  have hcount : groupCount attr (g.layout.attributes attr) ≤ 3 := by
    have := groupCount_eq attr (g.layout.attributes attr)
    omega
  obtain ⟨hset, -, hapart⟩ := Loop.foldlM_range_invariant (fun n out' =>
    (∀ group < n, DecodedNumbers g vertex attr group (out'.number attr group)) ∧
    (∀ group, n ≤ group → group < groupCount attr (g.layout.attributes attr) →
      out'.number attr group = out.number attr group) ∧ Apart attr out out') h
    ⟨fun group hgroup => absurd hgroup (Nat.not_lt_zero group), fun _ _ _ => rfl,
      Apart.refl attr out⟩ fun n hn s s' hs hturn => by
    obtain ⟨hset, hrest, hapart⟩ := hs
    obtain ⟨hnumbers, hturned, hothers⟩ := decodeGroup_numbers hg hvertex hattr hnumeric hmode
      hfits hn ((hrest n le_rfl hn).symm ▸ hblank n (by omega)) hturn
    have hkept : ∀ group, group < groupCount attr (g.layout.attributes attr) → group ≠ n →
        s'.number attr group = s.number attr group := fun group hgroup hne => by
      have hnrm := ((groupCount_eq attr (g.layout.attributes attr)).resolve_left (by omega)).1
      exact hothers group (by omega) hnrm (by omega) hne
    refine ⟨fun group hgroup => ?_, fun group hle hgroup => ?_, hapart.trans hturned⟩
    · by_cases heq : group = n
      · exact heq ▸ hnumbers
      · rw [hkept group (by omega) heq]
        exact hset group (by omega)
    · rw [hkept group hgroup (by omega)]
      exact hrest group (by omega) hgroup
  exact ⟨hset, hapart⟩

/-- The value of an attribute in a decoded vertex. -/
structure AttributeDecoded (g : Geometry) (vertex attr : ℕ) (out : DecodedVertex) : Prop where
  number : Numeric attr → ∀ group < 3, DecodedNumbers g vertex attr
    (sourceGroup attr (g.layout.attributes attr) group) (out.number attr group)
  color : isColor attr = true → colorValue (heldIn g attr) (groupAddress g attr vertex 0)
    (g.layout.attributes attr) (g.layout.attributes attr).little = .ok (out.color attr)
  matrix : attr < GX_VA_POS → ∃ value, load g.records
      (vertex * g.layout.stride + (g.layout.attributes attr).offset) 1 false = .ok value ∧
    (attr = GX_VA_PNMTXIDX → out.positionMatrix = value / 3) ∧
    ∀ i, attr = GX_VA_TEX0MTXIDX + i → out.textureMatrices i = value

theorem AttributeDecoded.apart {attr' : ℕ} (h : AttributeDecoded g vertex attr out)
    (hapart : Apart attr' out out') (hne : attr ≠ attr') : AttributeDecoded g vertex attr out' := by
  refine ⟨fun hnumeric group hgroup => ?_, fun hcolor => ?_, fun hlow => ?_⟩
  · rw [hapart.number attr hnumeric hne]
    exact h.number hnumeric group hgroup
  · rw [hapart.color attr hcolor hne]
    exact h.color hcolor
  · obtain ⟨value, hload, hposition, htexture⟩ := h.matrix hlow
    refine ⟨value, hload, fun heq => ?_, fun i heq => ?_⟩
    · rw [hapart.positionMatrix (heq ▸ hne.symm)]
      exact hposition heq
    · rw [hapart.textureMatrix i (heq ▸ hne.symm)]
      exact htexture i heq

/-- The turn of a matrix index. -/
theorem decodeAttribute_matrix (hg : Decodes v resolve g) (hvertex : vertex < g.count)
    (hattr : attr < GxGeometryAttributeCount) (hlow : attr < GX_VA_POS)
    (hmode : (g.layout.attributes attr).mode ≠ GX_NONE)
    (h : decodeAttribute g vertex out attr = .ok out') :
    AttributeDecoded g vertex attr out' ∧ Apart attr out out' := by
  rw [decodeAttribute] at h
  dsimp only at h
  rw [if_neg hmode, (hg.record vertex hvertex attr hattr hmode).1, if_pos hlow] at h
  obtain ⟨value, hload, h⟩ := bind_eq_ok.1 h
  have hno : ¬ Numeric attr := fun hnumeric => absurd hlow (Nat.not_lt.2 hnumeric.1)
  have hnocolor : isColor attr ≠ true := fun hcolor => by
    have := isColor_iff.1 hcolor
    simp only [GX_VA_POS, GX_VA_CLR0, GX_VA_CLR1] at *
    omega
  split at h
  · next hposition =>
    obtain rfl := Except.ok.inj h
    refine ⟨⟨fun hnumeric => absurd hnumeric hno, fun hcolor => absurd hcolor hnocolor,
      fun _ => ⟨value, hload, fun _ => rfl, fun i heq => ?_⟩⟩, fun _ _ _ => rfl, fun _ _ _ => rfl,
      fun hne => absurd hposition hne, fun _ _ => rfl⟩
    simp only [GX_VA_PNMTXIDX, GX_VA_TEX0MTXIDX] at *
    omega
  · next hposition =>
    obtain rfl := Except.ok.inj h
    refine ⟨⟨fun hnumeric => absurd hnumeric hno, fun hcolor => absurd hcolor hnocolor,
      fun _ => ⟨value, hload, fun heq => absurd heq hposition, fun i heq => ?_⟩⟩,
      fun _ _ _ => rfl, fun _ _ _ => rfl, fun _ => rfl, fun i hne => ?_⟩
    · rw [heq]
      dsimp only
      rw [Nat.add_sub_cancel_left, Function.update_self]
    · refine Function.update_of_ne ?_ _ _
      simp only [GX_VA_PNMTXIDX, GX_VA_TEX0MTXIDX] at *
      omega

/-- The turn of an attribute of numbers. -/
theorem decodeAttribute_numbers (hg : Decodes v resolve g) (hvertex : vertex < g.count)
    (hattr : attr < GxGeometryAttributeCount) (hnumeric : Numeric attr)
    (hmode : (g.layout.attributes attr).mode ≠ GX_NONE)
    (hfits : AttributeFits attr (g.layout.attributes attr))
    (hblank : ∀ group < 3, Blank (out.number attr group))
    (h : decodeAttribute g vertex out attr = .ok out') :
    AttributeDecoded g vertex attr out' ∧ Apart attr out out' := by
  have hnomatrix : ¬ attr < GX_VA_POS := Nat.not_lt.2 hnumeric.1
  have hnocolor := ne_true_of_eq_false hnumeric.2
  rw [decodeAttribute] at h
  dsimp only at h
  rw [if_neg hmode, (hg.record vertex hvertex attr hattr hmode).1, if_neg hnomatrix] at h
  obtain ⟨out1, hgroups, h⟩ := bind_eq_ok.1 h
  obtain ⟨hset, hapart⟩ := decodeGroups_numbers hg hvertex hattr hnumeric hmode hfits hblank hgroups
  have hfirst := hset 0 (by have := groupCount_eq attr (g.layout.attributes attr); omega)
  split at h
  · next hone =>
    -- binormal and tangent are the normal
    obtain rfl := Except.ok.inj h
    obtain ⟨rfl, hcount⟩ := hone
    refine ⟨⟨fun _ group _ => ?_, fun hcolor => absurd hcolor hnocolor,
      fun hmatrix => absurd hmatrix hnomatrix⟩, hapart.trans ⟨fun a _ hne => funext fun group => ?_,
      fun _ _ _ => rfl, fun _ => rfl, fun _ _ => rfl⟩⟩
    · rw [sourceGroup, if_neg (by omega)]
      have hsame : ∀ group, DecodedVertex.number
          { out1 with binormal := out1.normal, tangent := out1.normal } GX_VA_NRM group =
            out1.number GX_VA_NRM 0 := fun group => by
        have hpos : GX_VA_NRM ≠ GX_VA_POS := by decide
        simp only [DecodedVertex.number, if_neg hpos, if_true, ite_self]
      rw [hsame group]
      exact hfirst
    · simp only [DecodedVertex.number, if_neg hne]
  · next hthree =>
    obtain rfl := Except.ok.inj h
    refine ⟨⟨fun _ group hgroup => ?_, fun hcolor => absurd hcolor hnocolor,
      fun hmatrix => absurd hmatrix hnomatrix⟩, hapart⟩
    rcases groupCount_eq attr (g.layout.attributes attr) with hcount | ⟨-, hcount⟩
    · rw [sourceGroup, if_neg (by omega), number_of_ne fun hnrm => hthree ⟨hnrm, hcount⟩]
      exact hfirst
    · rw [sourceGroup, if_pos hcount]
      exact hset group (by omega)

/-- The turn of a colour. -/
theorem decodeAttribute_color (hg : Decodes v resolve g) (hvertex : vertex < g.count)
    (hattr : attr < GxGeometryAttributeCount) (hhigh : GX_VA_POS ≤ attr)
    (hcolor : isColor attr = true) (hmode : (g.layout.attributes attr).mode ≠ GX_NONE)
    (h : decodeAttribute g vertex out attr = .ok out') :
    AttributeDecoded g vertex attr out' ∧ Apart attr out out' := by
  have hnonumber : ¬ Numeric attr := fun hnumeric =>
    absurd hcolor (ne_true_of_eq_false hnumeric.2)
  have hnrm : attr ≠ GX_VA_NRM := by
    rintro rfl
    cases hcolor
  have hcount : groupCount attr (g.layout.attributes attr) = 1 :=
    (groupCount_eq attr _).resolve_right fun hthree => hnrm hthree.1
  rw [decodeAttribute] at h
  dsimp only at h
  rw [if_neg hmode, (hg.record vertex hvertex attr hattr hmode).1, if_neg (Nat.not_lt.2 hhigh)] at h
  obtain ⟨out1, hgroups, h⟩ := bind_eq_ok.1 h
  rw [hcount, List.range_one, List.foldlM_cons] at hgroups
  obtain ⟨out2, hgroup, hlast⟩ := bind_eq_ok.1 hgroups
  obtain rfl := Except.ok.inj hlast
  rw [if_neg fun hand => hnrm hand.1] at h
  obtain rfl := Except.ok.inj h
  obtain ⟨hvalue, hapart⟩ := decodeGroup_color hg hvertex hattr hhigh hcolor hmode (by omega) hgroup
  exact ⟨⟨fun hnumeric => absurd hnumeric hnonumber, fun _ => hvalue,
    fun hmatrix => absurd hmatrix (Nat.not_lt.2 hhigh)⟩, hapart⟩

/-- The turn of an attribute. -/
theorem decodeAttribute_spec (hg : Decodes v resolve g) (hvertex : vertex < g.count)
    (hattr : attr < GxGeometryAttributeCount)
    (hfits : (g.layout.attributes attr).mode ≠ GX_NONE →
      AttributeFits attr (g.layout.attributes attr))
    (hblank : Numeric attr → ∀ group < 3, Blank (out.number attr group))
    (h : decodeAttribute g vertex out attr = .ok out') :
    ((g.layout.attributes attr).mode = GX_NONE → out' = out) ∧
      ((g.layout.attributes attr).mode ≠ GX_NONE → AttributeDecoded g vertex attr out') ∧
      Apart attr out out' := by
  by_cases hmode : (g.layout.attributes attr).mode = GX_NONE
  · rw [decodeAttribute] at h
    dsimp only at h
    rw [if_pos hmode] at h
    obtain rfl := Except.ok.inj h
    exact ⟨fun _ => rfl, fun hnot => absurd hmode hnot, Apart.refl attr out⟩
  have hturn : AttributeDecoded g vertex attr out' ∧ Apart attr out out' := by
    by_cases hlow : attr < GX_VA_POS
    · exact decodeAttribute_matrix hg hvertex hattr hlow hmode h
    · rcases numeric_or_color (Nat.le_of_not_lt hlow) with hnumeric | hcolor
      · exact decodeAttribute_numbers hg hvertex hattr hnumeric hmode (hfits hmode)
          (hblank hnumeric) h
      · exact decodeAttribute_color hg hvertex hattr (Nat.le_of_not_lt hlow) hcolor hmode h
  exact ⟨fun hnone => absurd hnone hmode, fun _ => hturn.1, hturn.2⟩

/-! ### Vertices -/

/-- What a vertex has of an attribute that is not there. -/
structure AttributeAbsent (g : Geometry) (attr : ℕ) (out : DecodedVertex) : Prop where
  number : Numeric attr → ∀ group,
    out.number attr group = (DecodedVertex.initial g.currentPnMtx).number attr group
  color : isColor attr = true → out.color attr = (DecodedVertex.initial g.currentPnMtx).color attr
  positionMatrix : attr = GX_VA_PNMTXIDX → out.positionMatrix = g.currentPnMtx
  textureMatrix : ∀ i, attr = GX_VA_TEX0MTXIDX + i → out.textureMatrices i = UINT32_MAX

theorem AttributeAbsent.apart {attr' : ℕ} (h : AttributeAbsent g attr out)
    (hapart : Apart attr' out out') (hne : attr ≠ attr') : AttributeAbsent g attr out' := by
  refine ⟨fun hnumeric group => ?_, fun hcolor => ?_, fun heq => ?_, fun i heq => ?_⟩
  · rw [hapart.number attr hnumeric hne]
    exact h.number hnumeric group
  · rw [hapart.color attr hcolor hne]
    exact h.color hcolor
  · rw [hapart.positionMatrix (heq ▸ hne.symm)]
    exact h.positionMatrix heq
  · rw [hapart.textureMatrix i (heq ▸ hne.symm)]
    exact h.textureMatrix i heq

theorem initial_blank (currentPnMtx attr group : ℕ) :
    Blank ((DecodedVertex.initial currentPnMtx).number attr group) := by
  intro c hc
  have hnormal : c ≠ 0 := by omega
  simp only [DecodedVertex.number, DecodedVertex.initial, ite_self]
  split
  · rfl
  · split
    · exact congrArg Scalar.exact (if_neg hnormal)
    · rfl

/-- A decoded vertex has the value of every attribute that the layout enables, and nothing of the
others. -/
theorem decodeGxVertex_spec (hg : Decodes v resolve g)
    (hfits : ∀ attr < GxGeometryAttributeCount, (g.layout.attributes attr).mode ≠ GX_NONE →
      AttributeFits attr (g.layout.attributes attr))
    (h : decodeGxVertex g vertex = .ok out) :
    ∀ attr < GxGeometryAttributeCount,
      ((g.layout.attributes attr).mode = GX_NONE → AttributeAbsent g attr out) ∧
      ((g.layout.attributes attr).mode ≠ GX_NONE → AttributeDecoded g vertex attr out) := by
  obtain ⟨_, hvertex, h⟩ := bind_eq_ok.1 h
  rw [require_eq_ok, decide_eq_true_eq] at hvertex
  have hinvariant := Loop.foldlM_range_invariant (fun n out =>
    (∀ attr < GxGeometryAttributeCount, n ≤ attr ∨ (g.layout.attributes attr).mode = GX_NONE →
      AttributeAbsent g attr out) ∧
    ∀ attr < n, (g.layout.attributes attr).mode ≠ GX_NONE → AttributeDecoded g vertex attr out) h
    ⟨fun attr _ _ => ⟨fun _ _ => rfl, fun _ => rfl, fun _ => rfl, fun _ _ => rfl⟩,
      fun attr hattr => absurd hattr (Nat.not_lt_zero attr)⟩ fun n hn s s' hs hturn => by
    obtain ⟨habsent, hdecoded⟩ := hs
    obtain ⟨hnone, hsome, hapart⟩ := decodeAttribute_spec hg hvertex hn (hfits n hn)
      (fun hnumeric group _ => by
        rw [(habsent n hn (Or.inl le_rfl)).number hnumeric]
        exact initial_blank _ _ _) hturn
    refine ⟨fun attr hattr hor => ?_, fun attr hattr hmode => ?_⟩
    · by_cases heq : attr = n
      · have hmode := hor.resolve_left (by omega)
        rw [hnone (heq ▸ hmode)]
        exact habsent attr hattr (Or.inr hmode)
      · exact (habsent attr hattr (hor.imp_left (by omega))).apart hapart heq
    · by_cases heq : attr = n
      · exact heq ▸ hsome (heq ▸ hmode)
      · exact (hdecoded attr (by omega) hmode).apart hapart heq
  exact fun attr hattr => ⟨fun hmode => hinvariant.1 attr hattr (Or.inr hmode),
    fun hmode => hinvariant.2 attr hattr hmode⟩

end Gx
