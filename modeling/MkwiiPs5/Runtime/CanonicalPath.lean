import Mathlib.Data.List.TakeWhile
import Mathlib.Tactic.Common
import MkwiiPs5.Runtime.Filesystem

/-!
# What a canonical path is

A path that is accepted leads through directories that list each other, and is canonical already
when it is given again.
-/

namespace Runtime.Filesystem

variable {fs : FileSystem} {r cursor component next post : Path} {t : EntryType}
variable {cs : List Path} {c : Path}

/-! ### Components -/

/-- Nothing, or a slash and more. -/
def Ends (post : Path) : Prop := post = [] ∨ ∃ rest, post = '/' :: rest

theorem nextComponent_slash (rest : Path) :
    nextComponent ('/' :: rest) = nextComponent rest := by
  rw [nextComponent, nextComponent, List.dropWhile_cons_of_pos rfl]

theorem ends_dropWhile (path : Path) : Ends (path.dropWhile (· ≠ '/')) := by
  cases h : path.dropWhile (· ≠ '/') with
  | nil => exact Or.inl rfl
  | cons x rest =>
    have hhead := List.head?_dropWhile_not (· ≠ '/') path
    rw [h] at hhead
    have hx : x = '/' := by simpa using hhead
    exact Or.inr ⟨rest, by rw [hx]⟩

/-- A component is what stands between slashes. -/
theorem nextComponent_spec (h : nextComponent cursor = some (component, next)) :
    ∃ slashes, cursor = slashes ++ (component ++ next) ∧ (∀ x ∈ slashes, x = '/') ∧
      component ≠ [] ∧ '/' ∉ component ∧ Ends next := by
  rw [nextComponent] at h
  split at h
  · cases h
  · next x rest heq =>
    obtain ⟨rfl, rfl⟩ := Prod.mk.inj (Option.some.inj h)
    have hx : x ≠ '/' := by
      have hhead := List.head?_dropWhile_not (· = '/') cursor
      rw [heq] at hhead
      simpa using hhead
    refine ⟨cursor.takeWhile (· = '/'), ?_, ?_, List.cons_ne_nil _ _, ?_, ends_dropWhile rest⟩
    · rw [List.cons_append, List.takeWhile_append_dropWhile, ← heq,
        List.takeWhile_append_dropWhile]
    · intro y hy
      simpa using List.mem_takeWhile_imp hy
    · rw [List.mem_cons, not_or]
      refine ⟨Ne.symm hx, fun hslash => ?_⟩
      simpa using List.mem_takeWhile_imp hslash

theorem nextComponent_append (hne : c ≠ []) (hc : '/' ∉ c) (hpost : Ends post) :
    nextComponent (c ++ post) = some (c, post) := by
  obtain ⟨x, rest, rfl⟩ := List.exists_cons_of_ne_nil hne
  rw [List.mem_cons, not_or] at hc
  have hrest : ∀ y ∈ rest, (decide (y ≠ '/')) = true := by
    intro y hy
    rw [decide_eq_true_iff]
    rintro rfl
    exact hc.2 hy
  have hx : decide (x = '/') = false := decide_eq_false (Ne.symm hc.1)
  have htake : (rest ++ post).takeWhile (· ≠ '/') = rest := by
    rw [List.takeWhile_append_of_pos hrest]
    rcases hpost with rfl | ⟨post, rfl⟩
    · exact List.append_nil rest
    · rw [List.takeWhile_cons_of_neg (by decide), List.append_nil]
  have hdrop : (rest ++ post).dropWhile (· ≠ '/') = post := by
    rw [List.dropWhile_append_of_pos hrest]
    rcases hpost with rfl | ⟨post, rfl⟩
    · rfl
    · exact List.dropWhile_cons_of_neg (by decide)
  rw [nextComponent, List.cons_append, List.dropWhile_cons_of_neg (by simpa using hx)]
  dsimp only
  rw [htake, hdrop]

/-! ### The walk -/

/-- What a component does to the result. -/
def visit (fs : FileSystem) (result component : Path) : Except Errno (Path × EntryType) :=
  if component = ".".toList then .ok (result, .directory)
  else if component = "..".toList then .ok (parentOf result, .directory)
  else
    match entryType fs result component with
    | .error error => .error error
    | .ok type =>
      if type = .link ∨ type = .unknown then .error .EOPNOTSUPP
      else .ok (extend result component, type)

theorem walk_nil : walk fs r t [] = .ok r := by
  rw [walk, if_pos rfl]

theorem walk_of_ne (hcursor : cursor ≠ []) (ht : t ≠ .directory) :
    walk fs r t cursor = .error .ENOTDIR := by
  rw [walk, if_neg hcursor, if_pos ht]

theorem walk_none (h : nextComponent cursor = none) : walk fs r .directory cursor = .ok r := by
  rw [walk]
  split
  · rfl
  · rw [if_neg (not_not.mpr rfl)]
    split
    · rfl
    · next hsome => cases h.symm.trans hsome

theorem walk_next (h : nextComponent cursor = some (component, next)) :
    walk fs r .directory cursor =
      (visit fs r component).bind fun s => walk fs s.1 s.2 next := by
  have hcursor : cursor ≠ [] := by
    rintro rfl
    cases h
  rw [walk, if_neg hcursor, if_neg (not_not.mpr rfl), visit]
  split
  · next hnone => cases h.symm.trans hnone
  · next component' next' hsome =>
    obtain ⟨rfl, rfl⟩ := Prod.mk.inj (Option.some.inj (h.symm.trans hsome))
    dsimp only
    split
    · rfl
    · split
      · rfl
      · cases entryType fs r component with
        | error error => rfl
        | ok type =>
          dsimp only
          split <;> rfl

theorem walk_slash (rest : Path) :
    walk fs r .directory ('/' :: rest) = walk fs r .directory rest := by
  cases h : nextComponent rest with
  | none => rw [walk_none h, walk_none ((nextComponent_slash rest).trans h)]
  | some found =>
    obtain ⟨component, next⟩ := found
    rw [walk_next h, walk_next ((nextComponent_slash rest).trans h)]

/-! ### Canonical paths -/

def Proper (c : Path) : Prop := c ≠ [] ∧ '/' ∉ c ∧ c ≠ ".".toList ∧ c ≠ "..".toList

/-- The components with a slash before each. -/
def joined (cs : List Path) : Path := cs.flatMap fun c => '/' :: c

def render (cs : List Path) : Path := if cs = [] then ['/'] else joined cs

/-- Components that were looked up one after another, each in a directory, and the type of the
last one. -/
inductive Walked (fs : FileSystem) : List Path → EntryType → Prop
  | root : Walked fs [] .directory
  | child (cs : List Path) (c : Path) (t : EntryType) : Walked fs cs .directory → Proper c →
      entryType fs (render cs) c = .ok t → t ≠ .link → t ≠ .unknown → Walked fs (cs ++ [c]) t

theorem joined_concat (cs : List Path) (c : Path) : joined (cs ++ [c]) = joined cs ++ '/' :: c := by
  rw [joined, List.flatMap_append, List.flatMap_singleton]
  rfl

theorem render_concat (cs : List Path) (c : Path) : render (cs ++ [c]) = joined cs ++ '/' :: c := by
  rw [render, if_neg (by simp), joined_concat]

theorem joined_ne_nil (h : cs ≠ []) : joined cs ≠ [] := by
  obtain ⟨c, rest, rfl⟩ := List.exists_cons_of_ne_nil h
  exact List.cons_ne_nil _ _

/-- The root is the only path of one character. -/
theorem extend_render (hproper : ∀ c ∈ cs, Proper c) (c : Path) :
    extend (render cs) c = render (cs ++ [c]) := by
  rw [render_concat, extend]
  cases cs with
  | nil => rfl
  | cons first rest =>
    have hfirst := List.length_pos_of_ne_nil (hproper first List.mem_cons_self).1
    have hlength : (render (first :: rest)).length ≠ 1 := by
      rw [render, if_neg (List.cons_ne_nil _ _), joined, List.flatMap_cons, List.length_append,
        List.length_cons]
      omega
    rw [if_pos hlength, render, if_neg (List.cons_ne_nil _ _)]

theorem parentOf_render (hc : '/' ∉ c) : parentOf (render (cs ++ [c])) = render cs := by
  have hslash : lastSlash (joined cs ++ '/' :: c) = (joined cs).length := by
    have hreverse : (joined cs ++ '/' :: c).reverse = c.reverse ++ '/' :: (joined cs).reverse := by
      rw [List.reverse_append, List.reverse_cons, List.append_assoc]
      rfl
    rw [lastSlash, hreverse, List.idxOf_append_of_notMem (by simpa using hc), List.idxOf_cons_self,
      List.length_append, List.length_cons, List.length_reverse]
    omega
  rw [render_concat, parentOf, hslash]
  by_cases hcs : cs = []
  · subst hcs
    rfl
  · have hlength : (joined cs).length ≠ 0 := fun h => joined_ne_nil hcs (List.length_eq_zero_iff.mp h)
    rw [if_neg hlength, List.take_left, render, if_neg hcs]

theorem Walked.proper (h : Walked fs cs t) : ∀ c ∈ cs, Proper c := by
  induction h with
  | root => exact nofun
  | child cs c t _ hc _ _ _ ih =>
    intro c hmem
    rcases List.mem_append.mp hmem with hmem | hmem
    · exact ih c hmem
    · rw [List.mem_singleton.mp hmem]
      exact hc

/-- The parent of components that lead to a directory does so too. -/
theorem Walked.parent (h : Walked fs (cs ++ [c]) t) : Walked fs cs .directory ∧ Proper c := by
  generalize hcs : cs ++ [c] = cs' at h
  cases h with
  | root => exact absurd hcs (by simp)
  | child _ _ _ hparent hc _ _ _ =>
    obtain ⟨rfl, hlast⟩ := List.append_inj' hcs rfl
    obtain rfl := List.singleton_injective hlast
    exact ⟨hparent, hc⟩

/-- What one component makes of canonical components: again such, and not longer by more than the
component and its slash. -/
theorem visit_walked (h : Walked fs cs .directory) (hne : component ≠ [])
    (hslash : '/' ∉ component) {s : Path × EntryType}
    (hvisit : visit fs (render cs) component = .ok s) :
    ∃ cs', Walked fs cs' s.2 ∧ s.1 = render cs' ∧
      (joined cs').length ≤ (joined cs).length + component.length + 1 := by
  rw [visit] at hvisit
  split at hvisit
  · obtain rfl := Except.ok.inj hvisit
    exact ⟨cs, h, rfl, by omega⟩
  · next hdot =>
    split at hvisit
    · obtain rfl := Except.ok.inj hvisit
      rcases List.eq_nil_or_concat' cs with rfl | ⟨parent, c, rfl⟩
      · exact ⟨[], h, rfl, Nat.zero_le _⟩
      · obtain ⟨hparent, hc⟩ := h.parent
        refine ⟨parent, hparent, parentOf_render hc.2.1, ?_⟩
        rw [joined_concat, List.length_append]
        omega
    · next hdots =>
      split at hvisit
      · cases hvisit
      · next type htype =>
        split_ifs at hvisit with hlink
        obtain rfl := Except.ok.inj hvisit
        obtain ⟨hlink, hunknown⟩ := not_or.mp hlink
        refine ⟨cs ++ [component], .child cs component type h ⟨hne, hslash, hdot, hdots⟩ htype hlink hunknown,
          extend_render h.proper component, ?_⟩
        rw [joined_concat, List.length_append, List.length_cons]
        omega

/-- A walk from canonical components ends in canonical components. -/
theorem walk_walked (h : Walked fs cs t) (hends : Ends cursor)
    (hresult : walk fs (render cs) t cursor = .ok r) :
    ∃ cs' t', Walked fs cs' t' ∧ r = render cs' ∧
      (joined cs').length ≤ (joined cs).length + cursor.length := by
  induction hn : cursor.length using Nat.strong_induction_on generalizing cs t cursor with
  | _ n ih =>
    by_cases hcursor : cursor = []
    · subst hcursor
      rw [walk_nil] at hresult
      obtain rfl := Except.ok.inj hresult
      exact ⟨cs, t, h, rfl, Nat.le_add_right _ _⟩
    · by_cases ht : t = .directory
      · subst ht
        cases hnext : nextComponent cursor with
        | none =>
          rw [walk_none hnext] at hresult
          obtain rfl := Except.ok.inj hresult
          exact ⟨cs, _, h, rfl, Nat.le_add_right _ _⟩
        | some found =>
          obtain ⟨component, next⟩ := found
          obtain ⟨slashes, hsplit, _, hne, hslash, hends'⟩ := nextComponent_spec hnext
          -- a slash stands before the component
          have hlength : component.length + next.length + 1 ≤ cursor.length := by
            obtain ⟨rest, rfl⟩ := hends.resolve_left hcursor
            cases slashes with
            | nil =>
              obtain ⟨x, component, rfl⟩ := List.exists_cons_of_ne_nil hne
              obtain ⟨rfl, _⟩ := List.cons.inj hsplit
              exact absurd List.mem_cons_self hslash
            | cons x slashes =>
              rw [hsplit, List.cons_append, List.length_cons, List.length_append,
                List.length_append]
              omega
          rw [walk_next hnext] at hresult
          cases hvisit : visit fs (render cs) component with
          | error error =>
            rw [hvisit] at hresult
            cases hresult
          | ok s =>
            rw [hvisit] at hresult
            obtain ⟨cs₁, hwalked, hs, hle⟩ := visit_walked h hne hslash hvisit
            have hrest : walk fs (render cs₁) s.2 next = .ok r := hs ▸ hresult
            obtain ⟨cs', t', hwalked', hr, hle'⟩ := ih next.length (by omega) hwalked hends' hrest rfl
            exact ⟨cs', t', hwalked', hr, by omega⟩
      · rw [walk_of_ne hcursor ht] at hresult
        cases hresult

/-- A path that was found is found again, one component after another. -/
theorem Walked.walk_joined (h : Walked fs cs t) (hpost : Ends post) :
    walk fs ['/'] .directory (joined cs ++ post) = walk fs (render cs) t post := by
  induction h generalizing post with
  | root => rfl
  | child cs c t hparent hc htype hlink hunknown ih =>
    have hvisit : visit fs (render cs) c = .ok (render (cs ++ [c]), t) := by
      rw [visit, if_neg hc.2.2.1, if_neg hc.2.2.2, htype]
      dsimp only
      rw [if_neg (not_or.mpr ⟨hlink, hunknown⟩), extend_render hparent.proper]
    rw [joined_concat, List.append_assoc, List.cons_append, ih (Or.inr ⟨_, rfl⟩), walk_slash,
      walk_next (nextComponent_append hc.1 hc.2.1 hpost), hvisit]
    rfl

theorem Walked.walk_render (h : Walked fs cs t) :
    walk fs ['/'] .directory (render cs) = .ok (render cs) := by
  by_cases hcs : cs = []
  · subst hcs
    show walk fs ['/'] .directory ['/'] = .ok ['/']
    rw [walk_slash, walk_nil]
  · have hjoined := h.walk_joined (Or.inl rfl)
    rw [List.append_nil, walk_nil] at hjoined
    rw [render, if_neg hcs, hjoined, render, if_neg hcs]

/-! ### Prefixes -/

/-- A walk goes through what a prefix with its slash leads to. -/
theorem walk_through (fs : FileSystem) (r : Path) (t : EntryType) (path rest : Path) :
    walk fs r t (path ++ '/' :: rest) =
      (walk fs r t (path ++ ['/'])).bind fun r => walk fs r .directory rest := by
  induction hn : path.length using Nat.strong_induction_on generalizing r t path with
  | _ n ih =>
    by_cases ht : t = .directory
    · subst ht
      cases path with
      | nil =>
        rw [List.nil_append, List.nil_append, walk_slash, walk_slash, walk_nil]
        rfl
      | cons x path =>
        have hlength : path.length < n := hn ▸ Nat.lt_succ_self _
        by_cases hx : x = '/'
        · subst hx
          rw [List.cons_append, List.cons_append, walk_slash, walk_slash]
          exact ih path.length hlength r _ path rfl
        · -- the component ends in the prefix, at its slash at the latest
          have hsplit := List.takeWhile_append_dropWhile (p := (· ≠ '/')) (l := path)
          have hends := ends_dropWhile path
          have hslash : '/' ∉ x :: path.takeWhile (· ≠ '/') := by
            rw [List.mem_cons, not_or]
            refine ⟨Ne.symm hx, fun hmem => ?_⟩
            simpa using List.mem_takeWhile_imp hmem
          generalize path.takeWhile (· ≠ '/') = component at hsplit hslash
          generalize path.dropWhile (· ≠ '/') = next at hsplit hends
          subst hsplit
          have hfound (post : Path) : nextComponent (x :: (component ++ next) ++ '/' :: post) =
              some (x :: component, next ++ '/' :: post) := by
            have hends' : Ends (next ++ '/' :: post) := by
              rcases hends with rfl | ⟨rest, rfl⟩
              · exact Or.inr ⟨post, rfl⟩
              · exact Or.inr ⟨_, rfl⟩
            have happend := nextComponent_append (List.cons_ne_nil x component) hslash hends'
            rwa [← List.append_assoc] at happend
          rw [walk_next (hfound rest), walk_next (hfound [])]
          cases visit fs r (x :: component) with
          | error error => rfl
          | ok s =>
            refine ih next.length (lt_of_le_of_lt ?_ hlength) s.1 s.2 next rfl
            rw [List.length_append]
            exact Nat.le_add_left _ _
    · have hne (post : Path) : path ++ '/' :: post ≠ [] := by simp
      rw [walk_of_ne (hne rest) ht, walk_of_ne (hne []) ht]
      rfl

/-! ### What is refused -/

/-- A path through a link is refused, whatever follows it. -/
theorem walk_link {path dir : Path} (hc : Proper c) (hpost : Ends post)
    (hdir : walk fs ['/'] .directory (path ++ ['/']) = .ok dir)
    (hlink : entryType fs dir c = .ok .link) :
    walk fs ['/'] .directory (path ++ '/' :: (c ++ post)) = .error .EOPNOTSUPP := by
  have hvisit : visit fs dir c = .error .EOPNOTSUPP := by
    rw [visit, if_neg hc.2.2.1, if_neg hc.2.2.2, hlink]
    rfl
  rw [walk_through, hdir]
  show walk fs dir .directory (c ++ post) = _
  rw [walk_next (nextComponent_append hc.1 hc.2.1 hpost), hvisit]
  rfl

/-- Nothing is below what is not a directory. -/
theorem walk_below {path dir rest : Path} (hc : Proper c)
    (hdir : walk fs ['/'] .directory (path ++ ['/']) = .ok dir)
    (htype : entryType fs dir c = .ok t) (ht : t ≠ .directory) :
    walk fs ['/'] .directory (path ++ '/' :: (c ++ '/' :: rest)) ≠ .ok r := by
  rw [walk_through, hdir]
  show walk fs dir .directory (c ++ '/' :: rest) ≠ .ok r
  rw [walk_next (nextComponent_append hc.1 hc.2.1 (Or.inr ⟨rest, rfl⟩)), visit,
    if_neg hc.2.2.1, if_neg hc.2.2.2, htype]
  dsimp only
  split
  · exact nofun
  · show walk fs (extend dir c) t ('/' :: rest) ≠ .ok r
    rw [walk_of_ne (List.cons_ne_nil _ _) ht]
    exact nofun

/-! ### `realpath` -/

theorem checkedAbsolute_ok {path : Option Path} (h : checkedAbsolute fs path = .ok r) :
    ∃ rest, path = some ('/' :: rest) ∧ ('/' :: rest).length < fs.pathMax ∧
      walk fs ['/'] .directory ('/' :: rest) = .ok r := by
  rw [checkedAbsolute.eq_def] at h
  split at h
  · cases h
  · cases h
  · next x rest =>
    split_ifs at h with hx hlength
    obtain rfl := not_not.mp hx
    exact ⟨rest, rfl, Nat.not_le.mp hlength, h⟩

theorem checkedAbsolute_slash {rest : Path} (hlength : ('/' :: rest).length < fs.pathMax) :
    checkedAbsolute fs (some ('/' :: rest)) = walk fs ['/'] .directory ('/' :: rest) := by
  rw [checkedAbsolute.eq_def]
  dsimp only
  rw [if_neg (not_not.mpr rfl), if_neg (Nat.not_le.mpr hlength)]

theorem checkedAbsolute_render (h : Walked fs cs t) (hlength : (render cs).length < fs.pathMax) :
    checkedAbsolute fs (some (render cs)) = .ok (render cs) := by
  have hhead : ∃ rest, render cs = '/' :: rest := by
    rw [render]
    cases cs with
    | nil => exact ⟨[], rfl⟩
    | cons c rest => exact ⟨_, rfl⟩
  have hwalk := h.walk_render
  obtain ⟨rest, hrest⟩ := hhead
  rw [hrest] at hwalk hlength ⊢
  rw [checkedAbsolute_slash hlength, hwalk]

/-- What `realpath` gave back passed all checks. -/
theorem realpath_ok {allocations : Allocations} {path : Option Path}
    {buffer : Option (ℕ → Char)} (h : (realpath fs allocations path buffer).returned = .ok r) :
    checkedAbsolute fs path = .ok r ∧ fs.stat r = none ∧
      (realpath fs allocations path buffer).buffer =
        buffer.map fun bytes => Overlay.write bytes 0 (r ++ ['\x00']) := by
  rw [realpath] at h ⊢
  cases hexception : allocations.exception with
  | some error =>
    rw [hexception] at h
    cases h
  | none =>
    rw [hexception] at h
    dsimp only at h ⊢
    cases hchecked : checkedAbsolute fs path with
    | error error =>
      rw [hchecked] at h
      cases h
    | ok absolute =>
      rw [hchecked] at h
      dsimp only at h ⊢
      cases hstat : fs.stat absolute with
      | some error =>
        rw [hstat] at h
        cases h
      | none =>
        rw [hstat] at h
        dsimp only at h ⊢
        cases buffer with
        | none =>
          dsimp only at h ⊢
          split_ifs at h with hmalloc
          obtain rfl := Except.ok.inj h
          exact ⟨rfl, hstat, by rw [if_pos hmalloc]; rfl⟩
        | some bytes =>
          obtain rfl := Except.ok.inj h
          exact ⟨rfl, hstat, rfl⟩

/-- A call that fails leaves the buffer of its caller alone. -/
theorem realpath_error {allocations : Allocations} {path : Option Path}
    {buffer : Option (ℕ → Char)} {error : Errno}
    (h : (realpath fs allocations path buffer).returned = .error error) :
    (realpath fs allocations path buffer).buffer = buffer := by
  rw [realpath] at h ⊢
  cases hexception : allocations.exception with
  | some error => rfl
  | none =>
    rw [hexception] at h
    dsimp only at h ⊢
    cases hchecked : checkedAbsolute fs path with
    | error error => rfl
    | ok absolute =>
      rw [hchecked] at h
      dsimp only at h ⊢
      cases hstat : fs.stat absolute with
      | some error => rfl
      | none =>
        rw [hstat] at h
        cases buffer with
        | none =>
          dsimp only
          split <;> rfl
        | some bytes => cases h

/-- Where memory can be allocated, a path that passes all checks is returned. -/
theorem realpath_of_checked {allocations : Allocations} {path : Option Path}
    {buffer : Option (ℕ → Char)} (hexception : allocations.exception = none)
    (hmalloc : buffer = none → allocations.malloc = true)
    (hchecked : checkedAbsolute fs path = .ok r) (hstat : fs.stat r = none) :
    (realpath fs allocations path buffer).returned = .ok r := by
  rw [realpath, hexception]
  dsimp only
  rw [hchecked]
  dsimp only
  rw [hstat]
  cases buffer with
  | none =>
    dsimp only
    rw [if_pos (hmalloc rfl)]
  | some bytes => rfl

/-- Components of a canonical path, each listed by the directory that those before it make. -/
structure Verified (fs : FileSystem) (cs : List Path) : Prop where
  proper : ∀ c ∈ cs, Proper c
  listed : ∀ k (h : k < cs.length), ∃ t, entryType fs (render (cs.take k)) cs[k] = .ok t ∧
    t ≠ .link ∧ t ≠ .unknown ∧ (k + 1 < cs.length → t = .directory)

theorem Walked.listed (h : Walked fs cs t) (k : ℕ) (hk : k < cs.length) :
    ∃ t', entryType fs (render (cs.take k)) cs[k] = .ok t' ∧ t' ≠ .link ∧ t' ≠ .unknown ∧
      (k + 1 < cs.length → t' = .directory) ∧ (k + 1 = cs.length → t' = t) := by
  induction h generalizing k with
  | root => exact absurd hk (Nat.not_lt_zero k)
  | child cs c t hparent hc htype hlink hunknown ih =>
    rw [List.length_append, List.length_singleton] at hk ⊢
    by_cases hlast : k = cs.length
    · subst hlast
      rw [List.take_left, List.getElem_concat_length rfl]
      exact ⟨t, htype, hlink, hunknown, fun h => absurd h (lt_irrefl _), fun _ => rfl⟩
    · have hbefore : k < cs.length := by omega
      obtain ⟨t', htype', hlink', hunknown', hdir, hend⟩ := ih k hbefore
      rw [List.take_append_of_le_length hbefore.le, List.getElem_append_left hbefore]
      refine ⟨t', htype', hlink', hunknown', fun _ => ?_, fun heq => by omega⟩
      by_cases hnext : k + 1 < cs.length
      · exact hdir hnext
      · exact hend (by omega)

theorem Walked.verified (h : Walked fs cs t) : Verified fs cs := by
  refine ⟨h.proper, fun k hk => ?_⟩
  obtain ⟨t', htype, hlink, hunknown, hdir, _⟩ := h.listed k hk
  exact ⟨t', htype, hlink, hunknown, hdir⟩

theorem render_length (cs : List Path) : (render cs).length = max 1 (joined cs).length := by
  rw [render]
  by_cases hcs : cs = []
  · subst hcs
    rfl
  · have hlength := List.length_pos_of_ne_nil (joined_ne_nil hcs)
    rw [if_neg hcs, max_eq_right hlength]

/-- What `realpath` does with any path: what it gives back is canonical, no longer than the path,
and given back again; paths that are relative, go through a link or go on below something that is
not a directory fail; and a call that fails writes nothing. -/
structure Canonicalises (fs : FileSystem) : Prop where
  canonical : ∀ allocations path buffer absolute,
    (realpath fs allocations (some path) buffer).returned = .ok absolute →
    ∃ cs, absolute = render cs ∧ Verified fs cs ∧ absolute.length ≤ path.length ∧
      absolute.length < fs.pathMax
  written : ∀ allocations path bytes absolute,
    (realpath fs allocations path (some bytes)).returned = .ok absolute →
    (realpath fs allocations path (some bytes)).buffer =
      some (Overlay.write bytes 0 (absolute ++ ['\x00']))
  again : ∀ allocations path buffer absolute allocations' buffer',
    (realpath fs allocations path buffer).returned = .ok absolute →
    allocations'.exception = none → (buffer' = none → allocations'.malloc = true) →
    (realpath fs allocations' (some absolute) buffer').returned = .ok absolute
  relative : ∀ allocations path buffer absolute, path.head? ≠ some '/' →
    (realpath fs allocations (some path) buffer).returned ≠ .ok absolute
  /-- A part of a path that ends with a slash leads to the directory that the rest is under. -/
  link : ∀ allocations path dir name post buffer absolute, Proper name → Ends post →
    checkedAbsolute fs (some (path ++ ['/'])) = .ok dir → entryType fs dir name = .ok .link →
    (realpath fs allocations (some (path ++ '/' :: (name ++ post))) buffer).returned ≠ .ok absolute
  below : ∀ allocations path dir name rest type buffer absolute, Proper name →
    checkedAbsolute fs (some (path ++ ['/'])) = .ok dir → entryType fs dir name = .ok type →
    type ≠ .directory →
    (realpath fs allocations (some (path ++ '/' :: (name ++ '/' :: rest))) buffer).returned ≠
      .ok absolute
  /-- There is no other way on: what leads to a path that is accepted is accepted itself. -/
  through : ∀ path rest absolute, checkedAbsolute fs (some (path ++ '/' :: rest)) = .ok absolute →
    ∃ dir, checkedAbsolute fs (some (path ++ ['/'])) = .ok dir
  unwritten : ∀ allocations path buffer error,
    (realpath fs allocations path buffer).returned = .error error →
    (realpath fs allocations path buffer).buffer = buffer

/-- A path that is accepted starts at the root and ends in canonical components. -/
theorem checkedAbsolute_walked {path : Path} (h : checkedAbsolute fs (some path) = .ok r) :
    ∃ cs t, Walked fs cs t ∧ r = render cs ∧ r.length ≤ path.length ∧ path.length < fs.pathMax := by
  obtain ⟨rest, hpath, hlength, hwalk⟩ := checkedAbsolute_ok h
  obtain rfl := Option.some.inj hpath
  obtain ⟨cs, t, hwalked, hr, hle⟩ := walk_walked .root (Or.inr ⟨rest, rfl⟩) hwalk
  refine ⟨cs, t, hwalked, hr, ?_, hlength⟩
  have hjoined : (joined []).length = 0 := rfl
  rw [hr, render_length, List.length_cons] at *
  omega

/-- Whether a walk from the root is accepted. -/
theorem walk_of_checked {path : Path} (h : checkedAbsolute fs (some path) = .ok r) :
    walk fs ['/'] .directory path = .ok r := by
  obtain ⟨rest, hpath, _, hwalk⟩ := checkedAbsolute_ok h
  obtain rfl := Option.some.inj hpath
  exact hwalk

/-- What leads to a path that is accepted is accepted. -/
theorem checkedAbsolute_prefix {path rest : Path}
    (h : checkedAbsolute fs (some (path ++ '/' :: rest)) = .ok r) :
    ∃ dir, checkedAbsolute fs (some (path ++ ['/'])) = .ok dir := by
  obtain ⟨tail, hpath, hlength, hwalk⟩ := checkedAbsolute_ok h
  have hpath' : path ++ '/' :: rest = '/' :: tail := Option.some.inj hpath
  rw [← hpath', walk_through] at hwalk
  obtain ⟨tail', htail⟩ : ∃ tail', path ++ ['/'] = '/' :: tail' := by
    cases path with
    | nil => exact ⟨[], rfl⟩
    | cons x path =>
      obtain ⟨rfl, _⟩ := List.cons.inj hpath'
      exact ⟨path ++ ['/'], rfl⟩
  have hshorter : ('/' :: tail').length ≤ ('/' :: tail).length := by
    rw [← htail, ← hpath', List.length_append, List.length_append]
    exact Nat.add_le_add_left (Nat.succ_le_succ (Nat.zero_le _)) _
  rw [htail, checkedAbsolute_slash (hshorter.trans_lt hlength), ← htail]
  cases hdir : walk fs ['/'] .directory (path ++ ['/']) with
  | error error =>
    rw [hdir] at hwalk
    cases hwalk
  | ok dir => exact ⟨dir, rfl⟩

theorem canonical_paths (fs : FileSystem) : Canonicalises fs := by
  constructor
  · intro allocations path buffer absolute h
    obtain ⟨hchecked, _, _⟩ := realpath_ok h
    obtain ⟨cs, t, hwalked, hr, hle, hlt⟩ := checkedAbsolute_walked hchecked
    exact ⟨cs, hr, hwalked.verified, hle, hle.trans_lt hlt⟩
  · intro allocations path bytes absolute h
    exact (realpath_ok h).2.2
  · intro allocations path buffer absolute allocations' buffer' h hexception hmalloc
    obtain ⟨hchecked, hstat, _⟩ := realpath_ok h
    obtain ⟨rest, rfl, _, _⟩ := checkedAbsolute_ok hchecked
    obtain ⟨cs, t, hwalked, rfl, hle, hlt⟩ := checkedAbsolute_walked hchecked
    exact realpath_of_checked hexception hmalloc
      (checkedAbsolute_render hwalked (hle.trans_lt hlt)) hstat
  · intro allocations path buffer absolute hhead h
    obtain ⟨rest, hpath, _, _⟩ := checkedAbsolute_ok (realpath_ok h).1
    rw [Option.some.inj hpath] at hhead
    exact hhead rfl
  · intro allocations path dir name post buffer absolute hname hpost hdir hlink h
    have hwalk := walk_of_checked (realpath_ok h).1
    rw [walk_link hname hpost (walk_of_checked hdir) hlink] at hwalk
    cases hwalk
  · intro allocations path dir name rest type buffer absolute hname hdir htype hne h
    exact walk_below hname (walk_of_checked hdir) htype hne (walk_of_checked (realpath_ok h).1)
  · exact fun path rest absolute h => checkedAbsolute_prefix h
  · exact fun allocations path buffer error h => realpath_error h

end Runtime.Filesystem
