import Mathlib.Logic.Function.Basic
import MkwiiPs5.History

/-!
# Publication of the NAND settings

The PS5 branch of `Ensure` in the nand-publication patch, run by any number of processes on one NAND
root. A directory claims the publication; between two hunks of the patch the upstream code writes a
temporary file of its own. Every call to the file system may fail.
-/

namespace NandSettings

/-! ### The file system -/

inductive Name (Pid : Type)
  | settings
  | claim
  | temporary (p : Pid)
deriving DecidableEq

inductive Entry (Contents : Type)
  | directory
  | file (contents : Contents)
deriving DecidableEq

variable {Pid Contents Local Answer : Type} [DecidableEq Pid]

abbrev Fs (Pid Contents : Type) := Name Pid → Option (Entry Contents)

/-- How `create_directory` ends. -/
inductive Created
  | created
  | fileExists
  | failed

namespace Fs

variable (fs : Fs Pid Contents) (ok : Bool)

def createDirectory (name : Name Pid) : Created × Fs Pid Contents :=
  if ¬ ok then (.failed, fs)
  else if (fs name).isSome then (.fileExists, fs)
  else (.created, Function.update fs name (some .directory))

/-- `symlink_status`: whether the name is there. -/
def symlinkStatus (name : Name Pid) : Option Bool := if ok then some (fs name).isSome else none

/-- `rename`, in place of what is there. -/
def rename (old new : Name Pid) : Bool × Fs Pid Contents :=
  if ok ∧ (fs old).isSome then
    (true, Function.update (Function.update fs new (fs old)) old none)
  else (false, fs)

/-- `remove`: whether something was removed. -/
def remove (name : Name Pid) : Bool × Fs Pid Contents :=
  if ok ∧ (fs name).isSome then (true, Function.update fs name none) else (false, fs)

theorem createDirectory_cases (name : Name Pid) :
    fs.createDirectory ok name = (.failed, fs) ∨ fs.createDirectory ok name = (.fileExists, fs) ∨
      fs name = none ∧ fs.createDirectory ok name =
        (.created, Function.update fs name (some .directory)) := by
  unfold createDirectory
  cases hentry : fs name <;> cases ok <;> simp

omit [DecidableEq Pid] in
theorem symlinkStatus_cases (name : Name Pid) :
    fs.symlinkStatus ok name = none ∨ fs.symlinkStatus ok name = some (fs name).isSome := by
  cases ok
  · exact Or.inl rfl
  · exact Or.inr rfl

theorem rename_cases (old new : Name Pid) :
    fs.rename ok old new = (false, fs) ∨ fs.rename ok old new =
      (true, Function.update (Function.update fs new (fs old)) old none) := by
  unfold rename
  split
  · exact Or.inr rfl
  · exact Or.inl rfl

theorem remove_cases (name : Name Pid) :
    fs.remove ok name = (false, fs) ∨
      fs.remove ok name = (true, Function.update fs name none) := by
  unfold remove
  split
  · exact Or.inr rfl
  · exact Or.inl rfl

end Fs

/-! ### The upstream code -/

/-- Where the code between the hunks goes on. -/
inductive Next (Local : Type)
  | goOn (l : Local)
  | leave
  | publish (l : Local) (written : Bool)

/-- The code between the hunks and after them. It may read all files, and writes its own temporary
file only: each step gives the entry that the file has then. -/
structure Upstream (Pid Contents Local Answer : Type) where
  start : Pid → (found : Bool) → Local
  between : Pid → Local → Fs Pid Contents → Answer → Next Local × Option (Entry Contents)
  resume : Pid → Local → (published : Bool) → Local
  after : Pid → Local → Fs Pid Contents → Answer → Option Local × Option (Entry Contents)

/-! ### The processes -/

/-- Where a process is in `Ensure`. -/
inductive Place (Local : Type)
  | idle
  | creatingDirectories
  | claiming (attempt : ℕ)
  | inspecting
  | between (l : Local)
  | publishing (l : Local) (written : Bool)
  | moving (l : Local)
  | after (l : Local)
  | releasing (owned : Bool)

inductive Event (Pid Contents : Type)
  | claimed (p : Pid)
  | published (p : Pid) (contents : Option (Entry Contents))
  | removed (p : Pid)

structure State (Pid Contents Local : Type) where
  fs : Fs Pid Contents
  place : Pid → Place Local
  log : List (Event Pid Contents)

def State.goTo (s : State Pid Contents Local) (p : Pid) (place : Place Local) :
    State Pid Contents Local :=
  { s with place := Function.update s.place p place }

/-- What happens next: a process makes a step, with the answers to its calls, or it is stopped. -/
inductive Choice (Pid Answer : Type)
  | run (p : Pid) (ok : Bool) (x : Answer)
  | stop (p : Pid)

def maxAttempts : ℕ := 100

variable (U : Upstream Pid Contents Local Answer) (s : State Pid Contents Local)

/-- One step of a process, with at most one call to the file system. -/
def runStep (p : Pid) (ok : Bool) (x : Answer) : State Pid Contents Local :=
  match s.place p with
  | .idle => s.goTo p .creatingDirectories
  -- an error returns before the lock exists
  | .creatingDirectories => s.goTo p (if ok then .claiming 0 else .idle)
  | .claiming attempt =>
    if attempt < maxAttempts then
      match s.fs.createDirectory ok .claim with
      | (.created, fs) =>
        { s with fs := fs, log := .claimed p :: s.log }.goTo p .inspecting
      | (.fileExists, _) => s.goTo p (.claiming (attempt + 1))
      | (.failed, _) => s.goTo p (.releasing false)
    else s.goTo p (.releasing false)
  | .inspecting =>
    match s.fs.symlinkStatus ok .settings with
    | none => s.goTo p (.releasing true)
    | some found => s.goTo p (.between (U.start p found))
  | .between l =>
    let (next, entry) := U.between p l s.fs x
    let s := { s with fs := Function.update s.fs (.temporary p) entry }
    match next with
    | .goOn l => s.goTo p (.between l)
    | .leave => s.goTo p (.releasing true)
    | .publish l written => s.goTo p (.publishing l written)
  | .publishing l written =>
    if written then
      match s.fs.symlinkStatus ok .settings with
      | some false => s.goTo p (.moving l)
      | _ => s.goTo p (.after (U.resume p l false))
    else s.goTo p (.after (U.resume p l false))
  | .moving l =>
    match s.fs.rename ok (.temporary p) .settings with
    | (true, fs) =>
      { s with fs := fs, log := .published p (fs .settings) :: s.log }.goTo p
        (.after (U.resume p l true))
    | (false, _) => s.goTo p (.after (U.resume p l false))
  | .after l =>
    let (next, entry) := U.after p l s.fs x
    let s := { s with fs := Function.update s.fs (.temporary p) entry }
    match next with
    | some l => s.goTo p (.after l)
    | none => s.goTo p (.releasing true)
  | .releasing owned =>
    if owned then
      match s.fs.remove ok .claim with
      | (true, fs) => { s with fs := fs, log := .removed p :: s.log }.goTo p .idle
      | (false, _) => s.goTo p .idle
    else s.goTo p .idle

def step : Choice Pid Answer → State Pid Contents Local
  | .run p ok x => runStep U s p ok x
  -- a claim of a process that is stopped stays
  | .stop p => s.goTo p .idle

def run (choices : List (Choice Pid Answer)) : State Pid Contents Local := choices.foldl (step U) s

/-- What a process at its place has written when it goes on to publish is a complete file. -/
def Upstream.Writes (U : Upstream Pid Contents Local Answer) (complete : Pid → Contents → Prop)
    (s : State Pid Contents Local) : Prop :=
  ∀ p l x l', s.place p = .between l → (U.between p l s.fs x).1 = .publish l' true →
    ∃ c, (U.between p l s.fs x).2 = some (.file c) ∧ complete p c

/-- It is so in every state that a run leads to. -/
def Upstream.WritesComplete (U : Upstream Pid Contents Local Answer)
    (complete : Pid → Contents → Prop) (s : State Pid Contents Local) : Prop :=
  ∀ choices, U.Writes complete (run U s choices)

variable {U s} in
theorem Upstream.WritesComplete.run {complete : Pid → Contents → Prop}
    (hU : U.WritesComplete complete s) (choices : List (Choice Pid Answer)) :
    U.WritesComplete complete (run U s choices) := by
  intro rest
  rw [NandSettings.run, NandSettings.run, ← List.foldl_append]
  exact hU (choices ++ rest)

/-- No process is in `Ensure`; the files are what they are. -/
def State.initial (fs : Fs Pid Contents) : State Pid Contents Local := ⟨fs, fun _ => .idle, []⟩

/-! ### Claims -/

/-- A process has acquired the claim and not removed it yet. -/
def Place.Owns : Place Local → Prop
  | .idle | .creatingDirectories | .claiming _ => False
  | .inspecting | .between _ | .publishing _ _ | .moving _ | .after _ => True
  | .releasing owned => owned = true

/-- Who has the claim after a history. -/
def owner : List (Event Pid Contents) → Option Pid
  | [] => none
  | .claimed p :: _ => some p
  | .published _ _ :: past => owner past
  | .removed _ :: _ => none

/-- Whether the claim is there after a history. -/
def present (initially : Bool) : List (Event Pid Contents) → Bool
  | [] => initially
  | .claimed _ :: _ => true
  | .published _ _ :: past => present initially past
  | .removed _ :: _ => false

/-- A process acquires what nobody has, and publishes and removes while it has the claim. -/
def Good (e : Event Pid Contents) (past : List (Event Pid Contents)) : Prop :=
  match e with
  | .claimed _ => owner past = none
  | .published p _ | .removed p => owner past = some p

/-- The settings are what they were at first, or one process's complete file where there were none. -/
def Published (complete : Pid → Contents → Prop) (fs₀ fs : Fs Pid Contents) : Prop :=
  fs .settings = fs₀ .settings ∨
    fs₀ .settings = none ∧ ∃ p c, fs .settings = some (.file c) ∧ complete p c

/-! ### What holds in every run -/

section Safety

variable {U} {complete : Pid → Contents → Prop} {fs fs₀ fs' : Fs Pid Contents}
  {log log' : List (Event Pid Contents)} {s} {p q : Pid} {place : Place Local} {there : Bool}

/-- The temporary file of a process is complete. -/
def Ready (complete : Pid → Contents → Prop) (fs : Fs Pid Contents) (p : Pid) : Prop :=
  ∃ c, fs (.temporary p) = some (.file c) ∧ complete p c

/-- What a process can rely on at its place. -/
def Fits (complete : Pid → Contents → Prop) (fs : Fs Pid Contents)
    (log : List (Event Pid Contents)) (p : Pid) : Place Local → Prop
  | .idle | .creatingDirectories | .claiming _ => True
  | .inspecting | .between _ | .after _ => owner log = some p
  | .publishing _ written => owner log = some p ∧ (written = true → Ready complete fs p)
  | .moving _ => owner log = some p ∧ Ready complete fs p ∧ fs .settings = none
  | .releasing owned => owned = true → owner log = some p

structure Inv (complete : Pid → Contents → Prop) (fs₀ : Fs Pid Contents) (there : Bool)
    (s : State Pid Contents Local) : Prop where
  fits : ∀ p, Fits complete s.fs s.log p (s.place p)
  claim : (s.fs .claim).isSome = present there s.log
  good : History.Ok Good s.log
  published : Published complete fs₀ s.fs

omit [DecidableEq Pid] in
theorem present_of_owner (h : owner log = some p) : present there log = true := by
  induction log with
  | nil => exact nomatch h
  | cons e past ih =>
    cases e with
    | claimed => rfl
    | published => exact ih h
    | removed => exact nomatch h

omit [DecidableEq Pid] in
theorem Fits.owns (h : Fits complete fs log p place) (howns : place.Owns) :
    owner log = some p := by
  cases place with
  | idle | creatingDirectories | claiming => exact howns.elim
  | inspecting | between | after => exact h
  | publishing | moving => exact h.1
  | releasing => exact h howns

omit [DecidableEq Pid] in
/-- What others do leaves a process what it relies on. -/
theorem Fits.congr (h : Fits complete fs log q place)
    (howner : owner log = some q → owner log' = some q)
    (htemporary : fs' (.temporary q) = fs (.temporary q))
    (hsettings : owner log = some q → fs' .settings = fs .settings) :
    Fits complete fs' log' q place := by
  have hready : Ready complete fs q → Ready complete fs' q := by
    rintro ⟨c, hfile, hc⟩
    exact ⟨c, htemporary.trans hfile, hc⟩
  cases place with
  | idle | creatingDirectories | claiming => trivial
  | inspecting | between | after => exact howner h
  | publishing => exact ⟨howner h.1, fun hwritten => hready (h.2 hwritten)⟩
  | moving => exact ⟨howner h.1, hready h.2.1, (hsettings h.1).trans h.2.2⟩
  | releasing => exact fun howned => howner (h howned)

theorem update_name (other name : Name Pid) {entry : Option (Entry Contents)}
    (h : other ≠ name) : Function.update fs name entry other = fs other :=
  Function.update_of_ne h entry fs

/-- A process goes to a place that fits, and the others rely on what they relied on. -/
theorem fits_goTo (h : Fits complete s.fs s.log p place)
    (hothers : ∀ q ≠ p, Fits complete s.fs s.log q (s.place q)) (q : Pid) :
    Fits complete (s.goTo p place).fs (s.goTo p place).log q ((s.goTo p place).place q) := by
  show Fits complete s.fs s.log q (Function.update s.place p place q)
  by_cases hq : q = p
  · subst hq
    rw [Function.update_self]
    exact h
  · rw [Function.update_of_ne hq]
    exact hothers q hq

/-- A process goes to another place without a change to the files. -/
theorem Inv.goTo (h : Inv complete fs₀ there s) (hplace : Fits complete s.fs s.log p place) :
    Inv complete fs₀ there (s.goTo p place) :=
  ⟨fits_goTo hplace fun q _ => h.fits q, h.claim, h.good, h.published⟩

omit [DecidableEq Pid] in
theorem Inv.initial (fs : Fs Pid Contents) :
    Inv complete fs (fs .claim).isSome (State.initial fs : State Pid Contents Local) :=
  ⟨fun _ => trivial, rfl, History.ok_nil, Or.inl rfl⟩

/-- The upstream code writes its own temporary file. -/
theorem Inv.writeOwn (h : Inv complete fs₀ there s) (entry : Option (Entry Contents))
    (place : Place Local) (hplace : Fits complete (Function.update s.fs (.temporary p) entry) s.log p place) :
    Inv complete fs₀ there
      ({ s with fs := Function.update s.fs (.temporary p) entry }.goTo p place) := by
  have hother : ∀ q ≠ p, Function.update s.fs (.temporary p) entry (.temporary q) =
      s.fs (.temporary q) :=
    fun q hq => update_name _ _ fun heq => hq (Name.temporary.inj heq)
  have hclaim : Function.update s.fs (.temporary p) entry .claim = s.fs .claim :=
    update_name .claim (.temporary p) nofun
  have hsettings : Function.update s.fs (.temporary p) entry .settings = s.fs .settings :=
    update_name .settings (.temporary p) nofun
  refine ⟨fits_goTo hplace fun q hq => (h.fits q).congr id (hother q hq) fun _ => hsettings,
    (congrArg Option.isSome hclaim).trans h.claim, h.good, ?_⟩
  · show Published complete fs₀ (Function.update s.fs (.temporary p) entry)
    rw [Published, hsettings]
    exact h.published

theorem Inv.claimed (h : Inv complete fs₀ there s) (hfree : s.fs .claim = none) :
    Inv complete fs₀ there
      ({ s with
        fs := Function.update s.fs .claim (some .directory)
        log := .claimed p :: s.log }.goTo p .inspecting) := by
  have hother : ∀ name ≠ .claim, Function.update s.fs .claim (some .directory) name = s.fs name :=
    fun name hname => update_name name .claim hname
  -- nobody has a claim that is not there
  have hnone : owner s.log = none := by
    cases howner : owner s.log with
    | none => rfl
    | some q =>
      have hclaim := h.claim
      rw [hfree, present_of_owner howner] at hclaim
      exact absurd hclaim Bool.false_ne_true
  refine ⟨fits_goTo rfl fun q _ => (h.fits q).congr (fun hq => ?_) ?_ fun _ => ?_, ?_,
    ⟨hnone, h.good⟩, ?_⟩
  · exact nomatch hnone.symm.trans hq
  · exact hother (.temporary q) nofun
  · exact hother .settings nofun
  · show (Function.update s.fs .claim (some .directory) .claim).isSome = true
    rw [Function.update_self]
    rfl
  · show Published complete fs₀ (Function.update s.fs .claim (some .directory))
    rw [Published, hother .settings nofun]
    exact h.published

theorem Inv.removed (h : Inv complete fs₀ there s) (hplace : s.place p = .releasing true) :
    Inv complete fs₀ there
      ({ s with
        fs := Function.update s.fs .claim none
        log := .removed p :: s.log }.goTo p .idle) := by
  have hother : ∀ name ≠ .claim, Function.update s.fs .claim none name = s.fs name :=
    fun name hname => update_name name .claim hname
  have howner : owner s.log = some p := by
    have hfits := h.fits p
    rw [hplace] at hfits
    exact hfits rfl
  refine ⟨fits_goTo trivial fun q hq => (h.fits q).congr (fun hq' => ?_) ?_ fun _ => ?_, ?_,
    ⟨howner, h.good⟩, ?_⟩
  · exact absurd (Option.some.inj (hq'.symm.trans howner)) hq
  · exact hother (.temporary q) nofun
  · exact hother .settings nofun
  · show (Function.update s.fs .claim none .claim).isSome = false
    rw [Function.update_self]
    rfl
  · show Published complete fs₀ (Function.update s.fs .claim none)
    rw [Published, hother .settings nofun]
    exact h.published

theorem Inv.renamed {l l' : Local} (h : Inv complete fs₀ there s) (hplace : s.place p = .moving l) :
    let fs := Function.update (Function.update s.fs .settings (s.fs (.temporary p)))
      (.temporary p) none
    Inv complete fs₀ there
      ({ s with fs := fs, log := .published p (fs .settings) :: s.log }.goTo p (.after l')) := by
  intro fs
  obtain ⟨howner, ⟨c, hfile, hc⟩, habsent⟩ : owner s.log = some p ∧ Ready complete s.fs p ∧
      s.fs .settings = none := by
    have hfits := h.fits p
    rw [hplace] at hfits
    exact hfits
  have hsettings : fs .settings = some (.file c) := by
    rw [← hfile]
    exact (update_name .settings (.temporary p) nofun).trans (Function.update_self ..)
  have hclaim : fs .claim = s.fs .claim :=
    (update_name .claim (.temporary p) nofun).trans (update_name .claim .settings nofun)
  have hother : ∀ q ≠ p, fs (.temporary q) = s.fs (.temporary q) := fun q hq =>
    (update_name _ _ fun heq => hq (Name.temporary.inj heq)).trans
      (update_name _ .settings nofun)
  refine ⟨fits_goTo howner fun q hq => (h.fits q).congr id (hother q hq) fun hq' => ?_,
    (congrArg Option.isSome hclaim).trans h.claim, ⟨howner, h.good⟩,
    Or.inr ⟨?_, p, c, hsettings, hc⟩⟩
  · -- only the owner of the claim publishes
    exact absurd (Option.some.inj (hq'.symm.trans howner)) hq
  · rcases h.published with hsame | ⟨hnone, _⟩
    · rw [← hsame, habsent]
    · exact hnone

/-- A step of a process keeps what holds in every run. -/
theorem Inv.runStep (h : Inv complete fs₀ there s) (hU : U.Writes complete s) (p : Pid) (ok : Bool)
    (x : Answer) : Inv complete fs₀ there (runStep U s p ok x) := by
  have hfits := h.fits p
  cases hplace : s.place p with
  | idle =>
    simp only [NandSettings.runStep, hplace]
    exact h.goTo trivial
  | creatingDirectories =>
    simp only [NandSettings.runStep, hplace]
    cases ok
    · exact h.goTo trivial
    · exact h.goTo trivial
  -- a claim is made where no claim was, or the attempt fails
  | claiming attempt =>
    by_cases hattempt : attempt < maxAttempts
    · rcases Fs.createDirectory_cases s.fs ok .claim with heq | heq | ⟨hnone, heq⟩
      · simp only [NandSettings.runStep, hplace, if_pos hattempt, heq]
        exact h.goTo fun howned => (nomatch howned)
      · simp only [NandSettings.runStep, hplace, if_pos hattempt, heq]
        exact h.goTo trivial
      · simp only [NandSettings.runStep, hplace, if_pos hattempt, heq]
        exact h.claimed hnone
    · simp only [NandSettings.runStep, hplace, if_neg hattempt]
      exact h.goTo fun howned => (nomatch howned)
  | inspecting =>
    rw [hplace] at hfits
    rcases Fs.symlinkStatus_cases s.fs ok .settings with heq | heq
    · simp only [NandSettings.runStep, hplace, heq]
      exact h.goTo fun _ => hfits
    · simp only [NandSettings.runStep, hplace, heq]
      exact h.goTo hfits
  -- the callback writes its own temporary file only
  | between l =>
    rw [hplace] at hfits
    have hwrites := hU p l x
    rcases hresult : U.between p l s.fs x with ⟨next, entry⟩
    rw [hplace, hresult] at hwrites
    simp only [NandSettings.runStep, hplace, hresult]
    cases next with
    | goOn l' => exact h.writeOwn entry (.between l') hfits
    | leave => exact h.writeOwn entry (.releasing true) fun _ => hfits
    | publish l' written =>
      refine h.writeOwn entry (.publishing l' written) ⟨hfits, fun hwritten => ?_⟩
      subst hwritten
      obtain ⟨c, hentry, hc⟩ := hwrites l' rfl rfl
      exact ⟨c, (Function.update_self ..).trans hentry, hc⟩
  -- only a file that was written whole is offered, and only where no settings are
  | publishing l written =>
    rw [hplace] at hfits
    cases written with
    | false =>
      simp only [NandSettings.runStep, hplace]
      exact h.goTo hfits.1
    | true =>
      rcases Fs.symlinkStatus_cases s.fs ok .settings with heq | heq
      · simp only [NandSettings.runStep, hplace, heq]
        exact h.goTo hfits.1
      · cases hsettings : s.fs .settings with
        | none =>
          simp only [NandSettings.runStep, hplace, heq, hsettings]
          exact h.goTo ⟨hfits.1, hfits.2 rfl, hsettings⟩
        | some entry =>
          simp only [NandSettings.runStep, hplace, heq, hsettings]
          exact h.goTo hfits.1
  | moving l =>
    rw [hplace] at hfits
    rcases Fs.rename_cases s.fs ok (.temporary p) .settings with heq | heq
    · simp only [NandSettings.runStep, hplace, heq]
      exact h.goTo hfits.1
    · simp only [NandSettings.runStep, hplace, heq]
      exact h.renamed hplace
  -- what follows the move writes under the process's own temporary name only
  | after l =>
    rw [hplace] at hfits
    rcases hresult : U.after p l s.fs x with ⟨next, entry⟩
    simp only [NandSettings.runStep, hplace, hresult]
    cases next with
    | none => exact h.writeOwn entry (.releasing true) fun _ => hfits
    | some l' => exact h.writeOwn entry (.after l') hfits
  | releasing owned =>
    cases owned with
    | false =>
      simp only [NandSettings.runStep, hplace]
      exact h.goTo trivial
    | true =>
      rcases Fs.remove_cases s.fs ok .claim with heq | heq
      · simp only [NandSettings.runStep, hplace, heq]
        exact h.goTo trivial
      · simp only [NandSettings.runStep, hplace, heq]
        exact h.removed hplace

theorem Inv.run (h : Inv complete fs₀ there s) (hU : U.WritesComplete complete s)
    (choices : List (Choice Pid Answer)) : Inv complete fs₀ there (run U s choices) := by
  induction choices generalizing s with
  | nil => exact h
  | cons choice choices ih =>
    refine ih (s := step U s choice) ?_ (hU.run [choice])
    cases choice with
    | run p ok x => exact h.runStep (hU []) p ok x
    | stop p => exact h.goTo trivial

/-- A step leaves settings that are there. -/
theorem Inv.settings_step (h : Inv complete fs₀ there s) (hU : U.WritesComplete complete s)
    (choice : Choice Pid Answer) (hsettings : s.fs .settings ≠ none) :
    (step U s choice).fs .settings = s.fs .settings := by
  have hhere : Inv complete s.fs there s := ⟨h.fits, h.claim, h.good, Or.inl rfl⟩
  rcases (hhere.run hU [choice]).published with hsame | ⟨hnone, _⟩
  · exact hsame
  · exact absurd hnone hsettings

end Safety

/-- Any number of processes run `Ensure` on one root, their steps in any order and with any failures.
At most one has the claim; the claim is acquired when nobody has it and removed by who has it;
settings that are there stay, and settings that appear are one process's complete file. -/
theorem publication_safe (U : Upstream Pid Contents Local Answer)
    (complete : Pid → Contents → Prop) (fs₀ : Fs Pid Contents)
    (hU : U.WritesComplete complete (.initial fs₀)) (choices : List (Choice Pid Answer)) :
    let s := run U (.initial fs₀) choices
    (∀ p q, (s.place p).Owns → (s.place q).Owns → p = q) ∧
      (s.fs .claim).isSome = present (fs₀ .claim).isSome s.log ∧ History.Ok Good s.log ∧
      (∀ choice, s.fs .settings ≠ none →
        (step U s choice).fs .settings = s.fs .settings) ∧
      Published complete fs₀ s.fs := by
  intro s
  have hinv : Inv complete fs₀ (fs₀ .claim).isSome s := (Inv.initial fs₀).run hU choices
  refine ⟨fun p q hp hq => ?_, hinv.claim, hinv.good, fun choice hsettings => ?_, hinv.published⟩
  · have hownp := (hinv.fits p).owns hp
    have hownq := (hinv.fits q).owns hq
    exact Option.some.inj (hownp.symm.trans hownq)
  · exact hinv.settings_step (hU.run choices) choice hsettings

/-- Upstream code that writes a file where no settings were found. -/
def writeSeven : Upstream Bool ℕ Bool Unit where
  start _ found := found
  between p found fs _ :=
    if found then (.leave, fs (.temporary p)) else (.publish false true, some (.file 7))
  resume _ _ published := published
  after _ _ _ _ := (none, none)

/-- Two processes: one waits for the other's claim and finds its settings. -/
theorem publication_safe_two :
    let s := run writeSeven (.initial fun _ => none)
      ([true, true, true, false, false, false, true, true, true, true, true, true, false, false].map
        fun p => .run p true ())
    s.fs .settings = some (.file 7) ∧ Published (fun _ c => c = 7) (fun _ => none) s.fs := by
  refine ⟨by decide,
    (publication_safe writeSeven _ _ (fun choices p l x l' _ h => ?_) _).2.2.2.2⟩
  cases l with
  | true => exact nomatch h
  | false => exact ⟨7, rfl, rfl⟩

end NandSettings
