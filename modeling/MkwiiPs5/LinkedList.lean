import Mathlib.Data.List.Basic
import Mathlib.Data.Nat.Notation
import Mathlib.Logic.Function.Basic

/-!
# Singly linked lists

Nodes that name the next one, and loops that go from node to node. A loop that has run out of fuel
answers nothing; on a list that ends it has an answer.
-/

namespace LinkedList

variable {κ : Type*} {next next' : κ → Option κ} {p : Option κ} {l : List κ}

/-- The nodes from a pointer on, up to the one that names none. -/
def Chain (next : κ → Option κ) : Option κ → List κ → Prop
  | p, [] => p = none
  | p, a :: l => p = some a ∧ Chain next (next a) l

theorem Chain.congr (h : Chain next p l) (hsame : ∀ a ∈ l, next' a = next a) : Chain next' p l := by
  induction l generalizing p with
  | nil => exact h
  | cons a l ih =>
    refine ⟨h.1, ?_⟩
    rw [hsame a List.mem_cons_self]
    exact ih h.2 fun b hb => hsame b (List.mem_cons_of_mem a hb)

/-- A pointer starts one list only. -/
theorem Chain.unique {m : List κ} (h : Chain next p l) (h' : Chain next p m) : l = m := by
  induction l generalizing p m with
  | nil =>
    cases m with
    | nil => rfl
    | cons b m => exact nomatch h.symm.trans h'.1
  | cons a l ih =>
    cases m with
    | nil => exact nomatch h.1.symm.trans h'
    | cons b m =>
      obtain rfl := Option.some.inj (h.1.symm.trans h'.1)
      rw [ih h.2 h'.2]

theorem Chain.of_append {before after : List κ} {a : κ}
    (h : Chain next p (before ++ a :: after)) : Chain next (some a) (a :: after) := by
  induction before generalizing p with
  | nil => exact ⟨rfl, h.2⟩
  | cons b before ih => exact ih h.2

/-- A list that ends comes to no node twice: it would go round for ever. -/
theorem Chain.nodup (h : Chain next p l) : l.Nodup := by
  induction l generalizing p with
  | nil => exact List.nodup_nil
  | cons a l ih =>
    refine List.nodup_cons.mpr ⟨fun hmem => ?_, ih h.2⟩
    obtain ⟨before, after, rfl⟩ := List.append_of_mem hmem
    have hround : a :: (before ++ a :: after) = a :: after :=
      Chain.unique (p := some a) ⟨rfl, h.2⟩ h.2.of_append
    have hlength := congrArg List.length hround
    simp only [List.length_cons, List.length_append] at hlength
    omega

/-- `for (node = p; node; node = node->next) if (test(node)) return true;` -/
def any (next : κ → Option κ) (test : κ → Bool) : ℕ → Option κ → Option Bool
  | 0, _ => none
  | _ + 1, none => some false
  | fuel + 1, some a => if test a then some true else any next test fuel (next a)

theorem any_eq (h : Chain next p l) (test : κ → Bool) {fuel : ℕ} (hfuel : l.length < fuel) :
    any next test fuel p = some (l.any test) := by
  induction l generalizing p fuel with
  | nil =>
    obtain ⟨fuel, rfl⟩ := Nat.exists_eq_succ_of_ne_zero (Nat.ne_zero_of_lt hfuel)
    obtain rfl : p = none := h
    rfl
  | cons a l ih =>
    obtain ⟨fuel, rfl⟩ := Nat.exists_eq_succ_of_ne_zero (Nat.ne_zero_of_lt hfuel)
    obtain ⟨rfl, hrest⟩ := h
    rw [any, ih hrest (Nat.lt_of_succ_lt_succ hfuel), List.any_cons]
    cases test a <;> rfl

/-- Where a node is named: as the head of a list, or by the node before it. -/
inductive Link (κ : Type*)
  | head
  | after (a : κ)

/-- The node that is named there. -/
def Link.get (head : Option κ) (next : κ → Option κ) : Link κ → Option κ
  | .head => head
  | .after a => next a

/-- Where the node that follows some nodes is named. -/
def Link.behind : Link κ → List κ → Link κ
  | link, [] => link
  | _, b :: before => Link.behind (.after b) before

theorem Link.behind_concat (link : Link κ) (before : List κ) (b : κ) :
    link.behind (before ++ [b]) = .after b := by
  induction before generalizing link with
  | nil => rfl
  | cons c before ih => exact ih (.after c)

theorem Link.get_behind {head : Option κ} (link : Link κ) {a : κ} {before after : List κ}
    (h : Chain next (link.get head next) (before ++ a :: after)) :
    (link.behind before).get head next = some a := by
  induction before generalizing link with
  | nil => exact h.1
  | cons b before ih => exact ih (.after b) h.2

section Unlink

variable [DecidableEq κ] {a b : κ} {before after : List κ} {head : Option κ}

/-- A node in front of a list. -/
theorem Chain.push (h : Chain next p l) (ha : a ∉ l) :
    Chain (Function.update next a p) (some a) (a :: l) := by
  refine ⟨rfl, ?_⟩
  rw [Function.update_self]
  exact h.congr fun b hb => Function.update_of_ne (ne_of_mem_of_not_mem hb ha) p next

/-- `while (*link && *link != a) link = &(*link)->next;` -/
def seek (head : Option κ) (next : κ → Option κ) (a : κ) : ℕ → Link κ → Option (Link κ)
  | 0, _ => none
  | fuel + 1, link =>
    match link.get head next with
    | none => some link
    | some b => if b = a then some link else seek head next a fuel (.after b)

theorem seek_eq (link : Link κ) (h : Chain next (link.get head next) (before ++ a :: after))
    (ha : a ∉ before) {fuel : ℕ} (hfuel : before.length < fuel) :
    seek head next a fuel link = some (link.behind before) := by
  induction before generalizing link fuel with
  | nil =>
    obtain ⟨fuel, rfl⟩ := Nat.exists_eq_succ_of_ne_zero (Nat.ne_zero_of_lt hfuel)
    simp only [seek, h.1, if_true, Link.behind]
  | cons b before ih =>
    obtain ⟨fuel, rfl⟩ := Nat.exists_eq_succ_of_ne_zero (Nat.ne_zero_of_lt hfuel)
    have hne : b ≠ a := fun heq => ha (heq ▸ List.mem_cons_self)
    simp only [seek, h.1, if_neg hne, Link.behind]
    exact ih (.after b) h.2 (fun hmem => ha (List.mem_cons_of_mem b hmem))
      (Nat.lt_of_succ_lt_succ hfuel)

/-- The head of a list after a place was set, and the pointers of its nodes. -/
def Link.setHead (head value : Option κ) : Link κ → Option κ
  | .head => value
  | .after _ => head

def Link.setNext (next : κ → Option κ) (value : Option κ) : Link κ → κ → Option κ
  | .head => next
  | .after a => Function.update next a value

theorem Link.setNext_of_not_mem {value : Option κ} (hb : b ∉ before) :
    (Link.head.behind before).setNext next value b = next b := by
  rcases List.eq_nil_or_concat' before with rfl | ⟨init, c, rfl⟩
  · rfl
  · rw [Link.behind_concat]
    have hne : b ≠ c := fun heq =>
      hb (List.mem_append_right init (List.mem_singleton.mpr heq))
    exact Function.update_of_ne hne value next

/-- A node names another list instead of the one behind it. -/
theorem Chain.set_next (h : Chain next p (before ++ b :: after)) {q : Option κ}
    (hq : Chain next q l) (hb : b ∉ before ++ l) :
    Chain (Function.update next b q) p (before ++ b :: l) := by
  induction before generalizing p with
  | nil =>
    refine ⟨h.1, ?_⟩
    rw [Function.update_self]
    exact hq.congr fun c hc => Function.update_of_ne (ne_of_mem_of_not_mem hc hb) q next
  | cons c before ih =>
    obtain ⟨hne, hb⟩ := not_or.mp (fun hc => hb (List.mem_cons.mpr hc))
    refine ⟨h.1, ?_⟩
    rw [Function.update_of_ne (Ne.symm hne)]
    exact ih h.2 hb

/-- Where a node is named, the node behind it is named instead. -/
theorem Chain.unlink (h : Chain next head (before ++ a :: after)) :
    Chain ((Link.head.behind before).setNext next (next a))
      ((Link.head.behind before).setHead head (next a)) (before ++ after) := by
  rcases List.eq_nil_or_concat' before with rfl | ⟨init, b, rfl⟩
  · exact h.2
  · rw [Link.behind_concat]
    rw [List.append_assoc, List.singleton_append] at h ⊢
    refine h.set_next h.of_append.2.2 fun hmem => ?_
    -- the list comes to `b` once
    obtain ⟨_, hrest, hapart⟩ := List.nodup_append.mp h.nodup
    rcases List.mem_append.mp hmem with hmem | hmem
    · exact hapart b hmem b List.mem_cons_self rfl
    · exact (List.nodup_cons.mp hrest).1 (List.mem_cons_of_mem a hmem)

end Unlink

end LinkedList
