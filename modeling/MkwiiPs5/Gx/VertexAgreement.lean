import MkwiiPs5.Gx.GeometryDecoding

/-!
# Vertices of the same bytes

Two vertices decode alike where their layouts and the bytes that the decoder reads of them are the
same, wherever these lie.
-/

namespace Gx

open Bytes (Same slice number)

variable {bytes bytes' : List UInt8} {pos pos' width : ℕ}

theorem load_agree (h : Same bytes pos bytes' pos' width) (little : Bool) :
    load bytes pos width little = load bytes' pos' width little := by
  rw [load_eq h.left, load_eq h.right, h.slice_eq]

theorem component_agree {d : AttributeLayout} (h : Same bytes pos bytes' pos' d.componentBytes)
    (little : Bool) : component bytes pos d little = component bytes' pos' d little := by
  rw [component, component, load_agree h]

theorem colorValue_agree {d : AttributeLayout} (hbytes : d.componentBytes = colorBytes d.type)
    (h : Same bytes pos bytes' pos' d.componentBytes) (little : Bool) :
    colorValue bytes pos d little = colorValue bytes' pos' d little := by
  rw [colorValue, colorValue]
  split
  · next hthree =>
    obtain ⟨hle, hfour⟩ := colorBytes_eq hthree
    have hfirst : Same bytes pos bytes' pos' 1 := h.part (by omega : 0 + 1 ≤ d.componentBytes)
    rw [load_agree hfirst, load_agree (h.part (by omega : 1 + 1 ≤ d.componentBytes)),
      load_agree (h.part (by omega : 2 + 1 ≤ d.componentBytes))]
    split
    · next halpha =>
      have := hfour halpha
      rw [load_agree (h.part (by omega : 3 + 1 ≤ d.componentBytes))]
    · rfl
  · rw [load_agree h]

/-! ### Groups and attributes -/

variable {v : VertexState} {format : ℕ} {resolve resolve' : Resolver} {g g' : Geometry}
variable {vertex vertex' attr : ℕ}

/-- What the decoder reads of an attribute is the same at two vertices. -/
structure AttributeAgrees (g : Geometry) (vertex : ℕ) (g' : Geometry) (vertex' attr : ℕ) : Prop where
  matrix : attr < GX_VA_POS →
    Same g.records (vertex * g.layout.stride + (g.layout.attributes attr).offset)
      g'.records (vertex' * g.layout.stride + (g.layout.attributes attr).offset) 1
  group : GX_VA_POS ≤ attr → ∀ group < groupCount attr (g.layout.attributes attr),
    Same (heldIn g attr) (groupAddress g attr vertex group)
      (heldIn g' attr) (groupAddress g' attr vertex' group)
      (groupBytes attr (g.layout.attributes attr))

theorem decodeGroup_agree (hg : Decodes v resolve g) (hg' : Decodes v resolve' g')
    (hlayout : g'.layout = g.layout) (hvertex : vertex < g.count) (hvertex' : vertex' < g'.count)
    (hattr : attr < GxGeometryAttributeCount) (hlow : GX_VA_POS ≤ attr)
    (hmode : (g.layout.attributes attr).mode ≠ GX_NONE)
    (hfits : AttributeFits attr (g.layout.attributes attr)) {group : ℕ}
    (hgroup : group < groupCount attr (g.layout.attributes attr))
    (hagree : AttributeAgrees g vertex g' vertex' attr) (out : DecodedVertex) :
    decodeGroup g attr (g.layout.attributes attr)
        (vertex * g.layout.stride + (g.layout.attributes attr).offset) out group =
      decodeGroup g' attr (g.layout.attributes attr)
        (vertex' * g.layout.stride + (g.layout.attributes attr).offset) out group := by
  obtain ⟨hsource, -, hexact⟩ := hg.group vertex hvertex attr hattr hlow hmode group hgroup
  obtain ⟨hsource', -, hexact'⟩ := hg'.group vertex' hvertex' attr hattr hlow
    (by rw [hlayout]; exact hmode) group (by rw [hlayout]; exact hgroup)
  rw [hlayout] at hsource' hexact'
  have hsame := hagree.group hlow group hgroup
  rw [decodeGroup, decodeGroup, hsource, hsource']
  dsimp only [bind, Except.bind]
  cases hcolor : isColor attr with
  | true =>
    rw [groupBytes, hcolor, if_pos rfl] at hsame
    rw [if_pos rfl, if_pos rfl, colorValue_agree (hfits.color hcolor).2.2.1 hsame]
  | false =>
    rw [if_neg Bool.false_ne_true, if_neg Bool.false_ne_true]
    refine Loop.foldlM_congr (fun c hc out => ?_) out
    rw [List.mem_range] at hc
    have hnext := Nat.mul_le_mul_right (g.layout.attributes attr).componentBytes hc
    rw [Nat.succ_mul] at hnext
    have hwidth : 1 ≤ (g.layout.attributes attr).componentBytes := by
      rw [(hfits.numeric hlow hcolor).2.2]
      exact (numberBytes_le _).1
    rw [groupBytes, hcolor, if_neg Bool.false_ne_true] at hsame hexact hexact'
    rw [hexact _ (by omega), hexact' _ (by omega), component_agree (hsame.part hnext)]

theorem decodeAttribute_agree (hg : Decodes v resolve g) (hg' : Decodes v resolve' g')
    (hlayout : g'.layout = g.layout) (hvertex : vertex < g.count) (hvertex' : vertex' < g'.count)
    (hattr : attr < GxGeometryAttributeCount)
    (hfits : (g.layout.attributes attr).mode ≠ GX_NONE →
      AttributeFits attr (g.layout.attributes attr))
    (hagree : (g.layout.attributes attr).mode ≠ GX_NONE →
      AttributeAgrees g vertex g' vertex' attr) (out : DecodedVertex) :
    decodeAttribute g vertex out attr = decodeAttribute g' vertex' out attr := by
  rw [decodeAttribute, decodeAttribute, hlayout]
  dsimp only
  by_cases hmode : (g.layout.attributes attr).mode = GX_NONE
  · rw [if_pos hmode, if_pos hmode]
  · rw [if_neg hmode, if_neg hmode]
    have hpos := (hg.record vertex hvertex attr hattr hmode).1
    have hpos' := (hg'.record vertex' hvertex' attr hattr (by rw [hlayout]; exact hmode)).1
    rw [hlayout] at hpos'
    rw [hpos, hpos']
    split
    · next hmatrix => rw [load_agree ((hagree hmode).matrix hmatrix)]
    · next hlow =>
      have hgroups : ∀ group ∈ List.range (groupCount attr (g.layout.attributes attr)), ∀ out,
          decodeGroup g attr (g.layout.attributes attr)
            (vertex * g.layout.stride + (g.layout.attributes attr).offset) out group =
          decodeGroup g' attr (g.layout.attributes attr)
            (vertex' * g.layout.stride + (g.layout.attributes attr).offset) out group :=
        fun group hgroup out => decodeGroup_agree hg hg' hlayout hvertex hvertex' hattr
          (Nat.le_of_not_lt hlow) hmode (hfits hmode) (List.mem_range.1 hgroup) (hagree hmode) out
      rw [Loop.foldlM_congr hgroups]

/-- Vertices of the same bytes are the same. -/
theorem decodeGxVertex_agree (hg : Decodes v resolve g) (hg' : Decodes v resolve' g')
    (hlayout : g'.layout = g.layout) (hmatrix : g'.currentPnMtx = g.currentPnMtx)
    (hfits : ∀ attr < GxGeometryAttributeCount, (g.layout.attributes attr).mode ≠ GX_NONE →
      AttributeFits attr (g.layout.attributes attr))
    (hvertex : vertex < g.count) (hvertex' : vertex' < g'.count)
    (hagree : ∀ attr < GxGeometryAttributeCount, (g.layout.attributes attr).mode ≠ GX_NONE →
      AttributeAgrees g vertex g' vertex' attr) :
    decodeGxVertex g vertex = decodeGxVertex g' vertex' := by
  rw [decodeGxVertex, decodeGxVertex, hmatrix, decide_eq_true hvertex, decide_eq_true hvertex']
  refine Loop.bind_congr fun _ _ => Loop.foldlM_congr (fun attr hattr out => ?_) _
  rw [List.mem_range] at hattr
  exact decodeAttribute_agree hg hg' hlayout hvertex hvertex' hattr (hfits attr hattr)
    (hagree attr hattr) out

end Gx
