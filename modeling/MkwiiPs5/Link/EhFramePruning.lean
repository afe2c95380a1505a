import MkwiiPs5.Link.EhFrame

/-!
# Pruning exception frames

What the walk has done to a section when it comes to a record, and what is left of the section when it
ends.
-/

namespace EhFrame

open Bytes

variable {obj : ElfObject} {dropped : Finset (ℕ × ℕ)} {relocs : List Relocation}
  {data data' : List UInt8} {ignored : Finset ℕ} {pos stop n i : ℕ}

/-! ### The order of records -/

theorem Next.lt (h : Next data pos stop) : pos < stop := by
  obtain ⟨_, rfl, _⟩ := h
  omega

theorem next_rightUnique (data : List UInt8) : Relator.RightUnique (Next data) := by
  rintro pos stop stop' ⟨_, rfl, _⟩ ⟨_, rfl, _⟩
  rfl

/-- A position behind another one is behind the record that starts there. -/
theorem Starts.next_le (h : Starts data pos) (h' : Starts data stop) (hlt : pos < stop) :
    RecordAt data pos (lengthAt data pos) ∧ pos + 4 + lengthAt data pos ≤ stop := by
  have hmono : ∀ p q, Relation.ReflTransGen (Next data) p q → p ≤ q := by
    intro p q hpq
    induction hpq with
    | refl => exact le_rfl
    | tail _ hnext ih => exact ih.trans hnext.lt.le
  rcases Relation.ReflTransGen.total_of_right_unique (next_rightUnique data) h h' with hto | hback
  · rcases hto.cases_head with rfl | ⟨mid, ⟨hfour, rfl, hinside⟩, hrest⟩
    · exact absurd hlt (lt_irrefl _)
    · exact ⟨⟨h, rfl, hfour, hinside⟩, hmono _ _ hrest⟩
  · exact absurd (hmono _ _ hback) (not_le.mpr hlt)

/-- Two records do not overlap. -/
theorem RecordAt.disjoint {pos' n' : ℕ} (h : RecordAt data pos n) (h' : RecordAt data pos' n')
    (hi : pos ≤ i ∧ i < pos + 4 + n) (hi' : pos' ≤ i ∧ i < pos' + 4 + n') : pos = pos' := by
  obtain ⟨hstart, rfl, _, _⟩ := h
  obtain ⟨hstart', rfl, _, _⟩ := h'
  rcases lt_trichotomy pos pos' with hlt | heq | hgt
  · have hnext := (hstart.next_le hstart' hlt).2
    omega
  · exact heq
  · have hnext := (hstart'.next_le hstart hgt).2
    omega

/-! ### A record that is replaced -/

/-- The bytes behind the length of a record that was replaced. -/
def body (n : ℕ) : List UInt8 := List.replicate 4 0 ++ cie ++ List.replicate (n - 13) 0

theorem length_body (hn : 13 ≤ n) : (body n).length = n := by
  have hcie : cie.length = 9 := rfl
  rw [body, List.length_append, List.length_append, List.length_replicate,
    List.length_replicate, hcie]
  omega

theorem neutralize_eq (hn : 13 ≤ n) (hinside : pos + 4 + n ≤ data.length) :
    neutralize data pos n = overwrite data (pos + 4) (body n) := by
  have hcie : cie.length = 9 := rfl
  have hclear : pos + 4 + (List.replicate n (0 : UInt8)).length ≤ data.length := by
    rwa [List.length_replicate]
  have hcopy : pos + 8 + cie.length ≤
      (overwrite data (pos + 4) (List.replicate n 0)).length := by
    rw [length_overwrite hclear]
    omega
  have hbody : pos + 4 + (body n).length ≤ data.length := by rwa [length_body hn]
  refine List.ext_getElem? fun i => ?_
  rw [neutralize]
  by_cases hout : i < pos + 4 ∨ pos + 4 + n ≤ i
  · rw [getElem?_overwrite_of_not hcopy (by omega), getElem?_overwrite_of_not hclear (by
      rwa [List.length_replicate]), getElem?_overwrite_of_not hbody (by rwa [length_body hn])]
  obtain ⟨j, rfl⟩ : ∃ j, i = pos + 4 + j := ⟨i - (pos + 4), by omega⟩
  have hj : j < n := by omega
  rw [getElem?_overwrite_of_lt hbody (by rwa [length_body hn]), body]
  by_cases hmiddle : 4 ≤ j ∧ j < 13
  · obtain ⟨k, rfl⟩ : ∃ k, j = 4 + k := ⟨j - 4, by omega⟩
    rw [show pos + 4 + (4 + k) = pos + 8 + k by omega,
      getElem?_overwrite_of_lt hcopy (by omega),
      List.getElem?_append_left (by rw [List.length_append, List.length_replicate, hcie]; omega),
      List.getElem?_append_right (by rw [List.length_replicate]; omega), List.length_replicate,
      Nat.add_sub_cancel_left]
  · rw [getElem?_overwrite_of_not hcopy (by omega),
      getElem?_overwrite_of_lt hclear (by rwa [List.length_replicate]),
      List.getElem?_replicate_of_lt hj]
    rcases not_and_or.mp hmiddle with hlow | hhigh
    · rw [List.append_assoc, List.getElem?_append_left (by rw [List.length_replicate]; omega),
        List.getElem?_replicate_of_lt (by omega)]
    · have hfront : (List.replicate 4 (0 : UInt8) ++ cie).length = 13 := rfl
      rw [List.getElem?_append_right (by omega), hfront,
        List.getElem?_replicate_of_lt (by omega)]

/-- The record that stands in the place of another one is a CIE. -/
theorem isPaddedCie_body {bytes : List UInt8} (hbytes : bytes.length = 4) (hn : 13 ≤ n)
    (hlength : ofLittle bytes = n) : IsPaddedCie (bytes ++ body n) := by
  have hslice : slice (bytes ++ body n) 0 4 = bytes := by
    rw [slice_append_left (by omega), slice, List.drop_zero, List.take_of_length_le hbytes.le]
  have hid : slice (bytes ++ body n) 4 4 = List.replicate 4 0 := by
    rw [← hbytes, ← Nat.add_zero bytes.length, slice_append_right, hbytes]
    rfl
  have hdrop : (bytes ++ body n).drop 8 = cie ++ List.replicate (n - 13) 0 := by
    rw [List.drop_append, hbytes, List.drop_eq_nil_of_le (by omega)]
    rfl
  refine ⟨⟨1, -8, 16, 0x1B, List.replicate (n - 13) 0⟩, ?_, fun b hb =>
    List.eq_of_mem_replicate hb⟩
  have hguard : ofLittle (slice (bytes ++ body n) 0 4) + 4 = (bytes ++ body n).length ∧
      ofLittle (slice (bytes ++ body n) 4 4) = 0 := by
    rw [hslice, hid, hlength, List.length_append, hbytes, length_body hn]
    exact ⟨Nat.add_comm _ _, rfl⟩
  rw [readCie, hdrop]
  simp only [guard, hguard]
  rfl

/-! ### The walk -/

theorem mem_ignore (relocs : List Relocation) (ignored : Finset ℕ) :
    i ∈ ignore relocs pos stop ignored ↔
      i ∈ ignored ∨ (∃ r ∈ relocs, r.offset = i) ∧ pos ≤ i ∧ i < stop := by
  unfold ignore
  induction relocs generalizing ignored with
  | nil =>
    refine ⟨Or.inl, ?_⟩
    rintro (hi | ⟨⟨r, hr, _⟩, _⟩)
    · exact hi
    · exact nomatch hr
  | cons r relocs ih =>
    rw [List.foldl_cons, ih]
    by_cases hin : pos ≤ r.offset ∧ r.offset < stop
    · rw [if_pos hin, Finset.mem_insert]
      constructor
      · rintro ((rfl | hi) | ⟨⟨r', hr', heq⟩, hi⟩)
        · exact Or.inr ⟨⟨r, List.mem_cons_self, rfl⟩, hin⟩
        · exact Or.inl hi
        · exact Or.inr ⟨⟨r', List.mem_cons_of_mem _ hr', heq⟩, hi⟩
      · rintro (hi | ⟨⟨r', hr', heq⟩, hi⟩)
        · exact Or.inl (Or.inr hi)
        · rcases List.mem_cons.mp hr' with rfl | hr'
          · exact Or.inl (Or.inl heq.symm)
          · exact Or.inr ⟨⟨r', hr', heq⟩, hi⟩
    · rw [if_neg hin]
      refine or_congr_right ?_
      constructor
      · rintro ⟨⟨r', hr', heq⟩, hi⟩
        exact ⟨⟨r', List.mem_cons_of_mem _ hr', heq⟩, hi⟩
      · rintro ⟨⟨r', hr', rfl⟩, hi⟩
        rcases List.mem_cons.mp hr' with rfl | hr'
        · exact absurd hi hin
        · exact ⟨⟨r', hr', rfl⟩, hi⟩

/-- A record that is discarded, before a position. -/
structure Gone (obj : ElfObject) (dropped : Finset (ℕ × ℕ)) (relocs : List Relocation)
    (data : List UInt8) (before pos n : ℕ) : Prop where
  record : RecordAt data pos n
  discarded : Discarded obj dropped relocs data pos
  before : pos < before

/-- What the walk has done when it comes to a position. -/
structure Progress (obj : ElfObject) (dropped : Finset (ℕ × ℕ)) (relocs : List Relocation)
    (data : List UInt8) (pos : ℕ) (data' : List UInt8) (ignored : Finset ℕ) : Prop where
  start : Starts data pos
  length : data'.length = data.length
  outside : ∀ i, (∀ p n, Gone obj dropped relocs data pos p n → ¬ (p ≤ i ∧ i < p + 4 + n)) →
    data'[i]? = data[i]?
  replaced : ∀ p n, Gone obj dropped relocs data pos p n →
    13 ≤ n ∧ slice data' p (4 + n) = slice data p 4 ++ body n
  ignored : ∀ i, i ∈ ignored ↔ (∃ r ∈ relocs, r.offset = i) ∧
    ∃ p n, Gone obj dropped relocs data pos p n ∧ p ≤ i ∧ i < p + 4 + n

theorem Progress.first (data : List UInt8) : Progress obj dropped relocs data 0 data ∅ where
  start := .refl
  length := rfl
  outside _ _ := rfl
  replaced _ _ hgone := absurd hgone.before (Nat.not_lt_zero _)
  ignored i := by
    refine ⟨fun hi => absurd hi (Finset.notMem_empty i), ?_⟩
    rintro ⟨_, p, n, hgone, _⟩
    exact absurd hgone.before (Nat.not_lt_zero _)

/-- The walk has not changed what is in front of it. -/
theorem Progress.ahead (h : Progress obj dropped relocs data pos data' ignored) (hi : pos ≤ i) :
    data'[i]? = data[i]? := by
  refine h.outside i fun p n hgone hin => ?_
  obtain ⟨⟨hstart, rfl, _, _⟩, _, hbefore⟩ := hgone
  have hnext := (hstart.next_le h.start hbefore).2
  omega

theorem Progress.lengthAt_eq (h : Progress obj dropped relocs data pos data' ignored) :
    lengthAt data' pos = lengthAt data pos := by
  rw [lengthAt, slice_congr fun i _ => h.ahead (Nat.le_add_right pos i), ← lengthAt]

theorem Progress.discards_iff (h : Progress obj dropped relocs data pos data' ignored) :
    discards obj dropped relocs data' pos = true ↔ Discarded obj dropped relocs data pos := by
  have hid : idAt data' pos = idAt data pos := by
    rw [idAt, slice_congr fun i _ => h.ahead (by omega), ← idAt]
  rw [discards, hid, Bool.and_eq_true, bne_iff_ne, List.any_eq_true]
  refine and_congr_right fun _ => exists_congr fun r => and_congr_right fun _ => ?_
  rw [Bool.and_eq_true, beq_iff_eq]
  refine and_congr_right fun _ => ?_
  rw [targetsDropped]
  cases obj.symbols[r.symbolIndex]? with
  | none => exact ⟨nofun, fun ⟨_, hsymbol, _⟩ => (nomatch hsymbol)⟩
  | some symbol =>
    rw [decide_eq_true_iff]
    exact ⟨fun hmem => ⟨symbol, rfl, hmem⟩, fun ⟨_, hsymbol, hmem⟩ =>
      Option.some.inj hsymbol ▸ hmem⟩

/-- The records before the end of a record are those before it, and it. -/
theorem gone_next (h : Starts data pos) (hnext : Next data pos stop) {p m : ℕ} :
    Gone obj dropped relocs data stop p m ↔ Gone obj dropped relocs data pos p m ∨
      p = pos ∧ m = lengthAt data pos ∧ Discarded obj dropped relocs data pos := by
  obtain ⟨hfour, rfl, hinside⟩ := hnext
  constructor
  · rintro ⟨hrecord, hdiscarded, hbefore⟩
    rcases lt_trichotomy p pos with hlt | rfl | hgt
    · exact Or.inl ⟨hrecord, hdiscarded, hlt⟩
    · exact Or.inr ⟨rfl, hrecord.length.symm, hdiscarded⟩
    · have hle := (h.next_le hrecord.start hgt).2
      omega
  · rintro (⟨hrecord, hdiscarded, hlt⟩ | ⟨rfl, rfl, hdiscarded⟩)
    · exact ⟨hrecord, hdiscarded, by omega⟩
    · exact ⟨⟨h, rfl, hfour, hinside⟩, hdiscarded, by omega⟩

/-- A record that stays. -/
theorem Progress.skip (h : Progress obj dropped relocs data pos data' ignored)
    (hnext : Next data pos stop) (hkept : ¬ Discarded obj dropped relocs data pos) :
    Progress obj dropped relocs data stop data' ignored := by
  have hgone : ∀ p m, Gone obj dropped relocs data stop p m ↔
      Gone obj dropped relocs data pos p m := by
    intro p m
    rw [gone_next h.start hnext]
    exact or_iff_left fun hnew => hkept hnew.2.2
  refine ⟨h.start.tail hnext, h.length, ?_, ?_, ?_⟩
  · simp only [hgone]
    exact h.outside
  · simp only [hgone]
    exact h.replaced
  · simp only [hgone]
    exact h.ignored

/-- A record that goes. -/
theorem Progress.discard (h : Progress obj dropped relocs data pos data' ignored)
    (hnext : Next data pos stop) (hdiscarded : Discarded obj dropped relocs data pos)
    (hlong : 13 ≤ lengthAt data pos) :
    Progress obj dropped relocs data stop (neutralize data' pos (lengthAt data pos))
      (ignore relocs pos stop ignored) := by
  have hgone (p m : ℕ) : Gone obj dropped relocs data stop p m ↔
      Gone obj dropped relocs data pos p m ∨
        p = pos ∧ m = lengthAt data pos ∧ Discarded obj dropped relocs data pos :=
    gone_next h.start hnext
  have hstop := hnext.2.1
  have hinside : pos + 4 + lengthAt data pos ≤ data'.length := by
    rw [h.length, ← hstop]
    exact hnext.2.2
  have hbody : pos + 4 + (body (lengthAt data pos)).length ≤ data'.length := by
    rwa [length_body hlong]
  rw [neutralize_eq hlong hinside]
  -- what is written is behind the records before
  have hkeep : ∀ i, i < pos + 4 ∨ stop ≤ i →
      (overwrite data' (pos + 4) (body (lengthAt data pos)))[i]? = data'[i]? := fun i hi =>
    getElem?_overwrite_of_not hbody (by
      rw [length_body hlong]
      omega)
  refine ⟨h.start.tail hnext, ?_, fun i hi => ?_, fun p m hp => ?_, fun i => ?_⟩
  · rw [length_overwrite hbody, h.length]
  · have hout := hi pos _ ((hgone _ _).mpr (Or.inr ⟨rfl, rfl, hdiscarded⟩))
    rw [hkeep i (by omega)]
    exact h.outside i fun p m hp => hi p m ((hgone p m).mpr (Or.inl hp))
  · rcases (hgone p m).mp hp with hold | ⟨rfl, rfl, _⟩
    · have hbefore := (hold.record.start.next_le h.start hold.before).2
      rw [hold.record.length] at hbefore
      rw [slice_congr fun i hi => hkeep _ (by omega)]
      exact h.replaced p m hold
    · have hwritten := slice_overwrite hbody
      rw [length_body hlong] at hwritten
      rw [slice_add, hwritten, slice_congr fun i hi => hkeep (p + i) (by omega),
        slice_congr fun i _ => h.ahead (Nat.le_add_right p i)]
      exact ⟨hlong, rfl⟩
  · rw [mem_ignore, h.ignored, ← and_or_left]
    refine and_congr_right fun _ => ?_
    constructor
    · rintro (⟨p, m, hp, hin⟩ | hin)
      · exact ⟨p, m, (hgone p m).mpr (Or.inl hp), hin⟩
      · exact ⟨pos, _, (hgone _ _).mpr (Or.inr ⟨rfl, rfl, hdiscarded⟩), hstop ▸ hin⟩
    · rintro ⟨p, m, hp, hin⟩
      rcases (hgone p m).mp hp with hold | ⟨rfl, rfl, _⟩
      · exact Or.inl ⟨p, m, hold, hin⟩
      · exact Or.inr (hstop ▸ hin)

/-! ### The end of the walk -/

/-- No record starts where the walk ends. -/
theorem Progress.gone_iff (h : Progress obj dropped relocs data pos data' ignored)
    (hend : ∀ stop, ¬ Next data pos stop) {p m : ℕ} :
    Gone obj dropped relocs data pos p m ↔
      RecordAt data p m ∧ Discarded obj dropped relocs data p := by
  refine ⟨fun hgone => ⟨hgone.record, hgone.discarded⟩, fun ⟨hrecord, hdiscarded⟩ =>
    ⟨hrecord, hdiscarded, ?_⟩⟩
  have hnext : ∀ q, RecordAt data q (lengthAt data q) → Next data q (q + 4 + lengthAt data q) :=
    fun q hq => ⟨hq.four_le, rfl, hq.inside⟩
  rcases lt_trichotomy p pos with hlt | rfl | hgt
  · exact hlt
  · exact absurd (hnext p (hrecord.length.symm ▸ hrecord)) (hend _)
  · exact absurd (hnext pos (h.start.next_le hrecord.start hgt).1) (hend _)

theorem Progress.pruned (h : Progress obj dropped relocs data pos data' ignored)
    (hend : ∀ stop, ¬ Next data pos stop) : Pruned obj dropped relocs data data' ignored := by
  have hgone := fun p m => h.gone_iff hend (p := p) (m := m)
  have hinside : ∀ i, Inside obj dropped relocs data i ↔
      ∃ p n, Gone obj dropped relocs data pos p n ∧ p ≤ i ∧ i < p + 4 + n := by
    intro i
    simp only [hgone, and_assoc]
    rfl
  have houtside : ∀ i, ¬ Inside obj dropped relocs data i → data'[i]? = data[i]? := by
    intro i hi
    rw [hinside] at hi
    exact h.outside i fun p n hp hin => hi ⟨p, n, hp, hin⟩
  -- the length of a record is never in the part that is replaced
  have hlength : ∀ p, Starts data p → lengthAt data' p = lengthAt data p := by
    intro p hp
    rw [lengthAt, lengthAt]
    congr 1
    by_cases hrecord : ∃ n, Gone obj dropped relocs data pos p n
    · obtain ⟨n, hn⟩ := hrecord
      have hslice := (h.replaced p n hn).2
      have hfour : (slice data p 4).length = 4 :=
        length_slice (by have hend := hn.record.inside; omega)
      have hprefix : slice (slice data' p (4 + n)) 0 4 = slice data' p 4 :=
        slice_slice (by omega)
      rw [← hprefix, hslice, slice_append_left hfour.ge, slice, List.drop_zero,
        List.take_of_length_le hfour.le]
    · refine slice_congr fun i hi => houtside _ fun hin => ?_
      obtain ⟨q, n, hq, hi₁, hi₂⟩ := (hinside _).mp hin
      obtain ⟨hstart, hn, hfour, _⟩ := hq.record
      subst hn
      rcases lt_trichotomy p q with hlt | rfl | hgt
      · have hnext := hp.next_le hstart hlt
        have hbehind := hnext.1.four_le
        omega
      · exact hrecord ⟨_, hq⟩
      · have hnext := (hstart.next_le hp hgt).2
        omega
  have hnext : ∀ p q, Starts data p → (Next data' p q ↔ Next data p q) := by
    intro p q hp
    rw [Next, Next, hlength p hp, h.length]
  have hstarts : ∀ p, Starts data' p ↔ Starts data p := by
    refine fun p => ⟨fun hp => ?_, fun hp => ?_⟩
    · induction hp with
      | refl => exact .refl
      | tail _ hstep ih => exact ih.tail ((hnext _ _ ih).mp hstep)
    · induction hp with
      | refl => exact .refl
      | tail hp hstep ih => exact ih.tail ((hnext _ _ hp).mpr hstep)
  refine ⟨h.length, fun p n => ?_, fun p n hp hkept => ?_, houtside, fun p n hp hdiscarded => ?_,
    fun i => ?_⟩
  · constructor
    · rintro ⟨hstart, hn, hfour, hlast⟩
      have hold := (hstarts p).mp hstart
      exact ⟨hold, hlength p hold ▸ hn, hfour, h.length ▸ hlast⟩
    · rintro ⟨hstart, hn, hfour, hlast⟩
      exact ⟨(hstarts p).mpr hstart, (hlength p hstart).trans hn, hfour, h.length ▸ hlast⟩
  · refine slice_congr fun i hi => houtside _ ?_
    rintro ⟨q, m, hq, hdiscarded, hin⟩
    obtain rfl := hp.disjoint hq ⟨by omega, by omega⟩ hin
    exact hkept hdiscarded
  · obtain ⟨hlong, hslice⟩ := h.replaced p n ((hgone p n).mpr ⟨hp, hdiscarded⟩)
    rw [hslice]
    refine isPaddedCie_body (length_slice ?_) hlong hp.length
    have hlast := hp.inside
    omega
  · rw [h.ignored, hinside]

/-- What comes of a section. -/
def Outcome (obj : ElfObject) (dropped : Finset (ℕ × ℕ)) (relocs : List Relocation)
    (data : List UInt8) : Except Failure (List UInt8 × Finset ℕ) → Prop
  | .ok (data', ignored) => Pruned obj dropped relocs data data' ignored
  | .error _ => ∃ pos, Refused obj dropped relocs data pos

theorem Progress.outcome {fuel : ℕ} (h : Progress obj dropped relocs data pos data' ignored)
    (hfuel : data.length - pos < fuel) :
    ∃ r, (∀ more, prune obj dropped relocs (fuel + more) pos data' ignored = some r) ∧
      Outcome obj dropped relocs data r := by
  induction fuel generalizing pos data' ignored with
  | zero => omega
  | succ fuel ih =>
    have hsucc : ∀ more, fuel + 1 + more = fuel + more + 1 := fun more => by omega
    simp only [hsucc, prune, h.lengthAt_eq, h.length]
    split
    next hshort =>
      refine ⟨_, fun _ => rfl, h.pruned fun stop hnext => ?_⟩
      obtain ⟨_, rfl, hlast⟩ := hnext
      omega
    next hshort =>
    split
    next hzero =>
      refine ⟨_, fun _ => rfl, h.pruned fun stop hnext => ?_⟩
      have hfour := hnext.1
      omega
    next hzero =>
    split
    next hbad => exact ⟨_, fun _ => rfl, pos, h.start, by omega, hzero, by omega⟩
    next hbad =>
    have hnext : Next data pos (pos + 4 + lengthAt data pos) := ⟨by omega, rfl, by omega⟩
    split
    next hdiscards =>
      have hdiscarded := h.discards_iff.mp hdiscards
      split
      next hsmall =>
        exact ⟨_, fun _ => rfl, pos, h.start, by omega, hzero, Or.inr (Or.inr ⟨hsmall, hdiscarded⟩)⟩
      next hlong => exact ih (h.discard hnext hdiscarded (by omega)) (by omega)
    next hdiscards =>
      exact ih (h.skip hnext fun hdiscarded => hdiscards (h.discards_iff.mpr hdiscarded)) (by omega)

/-- A section without a discarded record is left as it is. -/
theorem Pruned.refl (h : ∀ pos, ¬ Discarded obj dropped relocs data pos) :
    Pruned obj dropped relocs data data ∅ := by
  refine ⟨rfl, fun _ _ => Iff.rfl, fun _ _ _ _ => rfl, fun _ _ => rfl,
    fun pos _ _ hpos => absurd hpos (h pos), fun i => ?_⟩
  refine ⟨fun hi => absurd hi (Finset.notMem_empty i), ?_⟩
  rintro ⟨_, pos, _, _, hpos, _⟩
  exact absurd hpos (h pos)

/-- The walk over a section ends. It refuses a record of the section, or the section keeps its length
and its records, the discarded ones are CIEs that do nothing, and the relocations that are ignored are
those inside of them. -/
theorem prune_discarded (obj : ElfObject) (sectionIndex : ℕ) (dropped : Finset (ℕ × ℕ))
    (data : List UInt8) (hdata : obj.sections[sectionIndex]? = some data) :
    ∃ r, (∀ fuel, data.length < fuel →
        pruneDiscarded fuel obj sectionIndex dropped = some r) ∧
      Outcome obj dropped ((obj.relocations sectionIndex).getD []) data r := by
  simp only [pruneDiscarded, hdata]
  cases hrelocs : obj.relocations sectionIndex with
  | none =>
    exact ⟨_, fun _ _ => rfl, .refl fun _ hdiscarded => nomatch hdiscarded.2.choose_spec.1⟩
  | some relocs =>
    have hfirst : Progress obj dropped relocs data 0 data ∅ := .first data
    obtain ⟨r, hr, houtcome⟩ := hfirst.outcome (Nat.lt_succ_self _)
    refine ⟨r, fun fuel hfuel => ?_, houtcome⟩
    obtain ⟨more, rfl⟩ := Nat.exists_eq_add_of_le hfuel
    exact hr more

theorem prune_discarded_fde :
    let fde : List UInt8 := [13, 0, 0, 0, 4, 0, 0, 0] ++ List.replicate 9 0xFF
    let obj : ElfObject := ⟨0, "a.o", [fde], [⟨7⟩], fun _ => some [⟨8, 0⟩]⟩
    ∃ r, (∀ fuel, fde.length < fuel → pruneDiscarded fuel obj 0 {(0, 7)} = some r) ∧
      Outcome obj {(0, 7)} [⟨8, 0⟩] fde r :=
  prune_discarded ⟨0, "a.o", [[13, 0, 0, 0, 4, 0, 0, 0] ++ List.replicate 9 0xFF], [⟨7⟩],
    fun _ => some [⟨8, 0⟩]⟩ 0 {(0, 7)} _ rfl

example :
    let fde : List UInt8 := [13, 0, 0, 0, 4, 0, 0, 0] ++ List.replicate 9 0xFF
    let obj : ElfObject := ⟨0, "a.o", [fde], [⟨7⟩], fun _ => some [⟨8, 0⟩]⟩
    pruneDiscarded 3 obj 0 {(0, 7)} =
      some (.ok ([13, 0, 0, 0, 0, 0, 0, 0] ++ cie, {8})) := by
  rfl

end EhFrame
