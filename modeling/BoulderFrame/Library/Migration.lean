import BoulderFrame.Library.Outcome
import Mathlib

/-!
# Serialized migrations

A migrator applies the files of a list in their order, each in a transaction of its own. Under a
lock that is held to the end of the transaction, it looks up whether the version of the file has
been recorded; if not, it executes the statements of the file and records the version. Several runs
of the migrator go on at once, each may be killed anywhere, and others write in between; what has
not been committed is rolled back. Over all interleavings, the content is what the files give one
after another, with the writes of others between them.

## Main definitions

* `Migrator`: the files, how their statements are executed, and what others may write
* `Phase`, `World`, `Step`: a run of the migrator, some runs over one database, and their steps
* `Trace`: a sequence of steps, with its events
* `History`: the files and the writes one after another
* `Sound`: the files can be applied one after another, whatever is written in between

## Main results

* `Trace.history`: the content is that of the files and writes one after another
* `Trace.inv`: the recorded versions are those of the first files; no statement fails
* `Trace.keeps_view`: only the writes of others change what the files keep
* `exists_advance`, `Advance.remaining_lt`: the runs end if they are not killed
* `Trace.exists_stuck`: every trace can be continued to its end
-/

/-- A file of statements, with its version. -/
structure MigrationFile (V S : Type) where
  version : V
  statements : List S
  deriving DecidableEq

/-- The files of a migrator over contents `C`. A transaction works on a `W`: it is started on the
committed content, and committed to it. Others write meanwhile, as far as the transaction does not
keep them waiting, and the transaction sees what they write. -/
structure Migrator (V S C W E : Type) where
  files : List (MigrationFile V S)
  start : C → W
  execute : S → W → Except E W
  commit : W → C
  write : C → C → Prop
  compatible : W → C → C → Prop
  rebase : C → W → W

namespace Migrator

variable {ι V S C W E X : Type}

/-- How far a run of the migrator has come. -/
inductive Phase (S W : Type)
  | idle
  /-- before the transaction of the file -/
  | next (i : ℕ)
  /-- before the lock -/
  | waiting (i : ℕ)
  /-- before the lookup of the version -/
  | locked (i : ℕ)
  /-- the version has been found -/
  | found (i : ℕ)
  /-- before the statements that remain -/
  | executing (i : ℕ) (statements : List S) (work : W)
  /-- before the commit -/
  | recorded (i : ℕ) (work : W)
  | finished
  | killed
  | failed

namespace Phase

/-- What the transaction works on, while it executes a file. -/
def work : Phase S W → Option W
  | .executing _ _ work => some work
  | .recorded _ work => some work
  | _ => none

/-- The transaction sees the content that others have written. -/
def rebase (f : W → W) : Phase S W → Phase S W
  | .executing i statements work => .executing i statements (f work)
  | .recorded i work => .recorded i (f work)
  | p => p

/-- The run holds the lock. -/
def holds : Phase S W → Bool
  | .locked _ | .found _ | .executing _ _ _ | .recorded _ _ => true
  | _ => false

@[simp] theorem holds_rebase (f : W → W) (p : Phase S W) : (p.rebase f).holds = p.holds := by
  cases p <;> rfl

/-- The run has ended. -/
def ended : Phase S W → Bool
  | .finished | .killed | .failed => true
  | _ => false

end Phase

/-- A database and the runs over it; `tracked` says that there is a table of versions. -/
structure World (ι V S C W : Type) where
  content : C
  tracked : Bool
  applied : List V
  lock : Option ι
  runs : ι → Phase S W

/-- What happens in a step. -/
inductive Event (ι V C : Type)
  | advance (a : ι)
  | apply (a : ι) (version : V) (before after : C)
  | kill (a : ι)
  | write (before after : C)

/-- The version that a step records. -/
def Event.version : Event ι V C → Option V
  | .apply _ version _ _ => some version
  | _ => none

variable (M : Migrator V S C W E)

/-- The statements are executed one after another. -/
def executeAll : List S → W → Except E W
  | [], work => .ok work
  | statement :: statements, work => M.execute statement work >>= executeAll statements

theorem executeAll_append (statements statements' : List S) (work : W) :
    M.executeAll (statements ++ statements') work =
      M.executeAll statements work >>= M.executeAll statements' := by
  induction statements generalizing work with
  | nil => rfl
  | cons statement statements ih =>
    rw [List.cons_append, executeAll, executeAll]
    cases M.execute statement work with
    | error e => rfl
    | ok work => exact ih work

section Steps

variable [DecidableEq ι]

/-- A run comes to another phase. -/
def World.set (w : World ι V S C W) (a : ι) (p : Phase S W) : World ι V S C W :=
  { w with runs := Function.update w.runs a p }

/-- A run comes to another phase, and the lock is free. -/
def World.release (w : World ι V S C W) (a : ι) (p : Phase S W) : World ι V S C W :=
  { w.set a p with lock := none }

/-- **A step**: of a run, its end, or a write of others. -/
inductive Step (w : World ι V S C W) : Event ι V C → World ι V S C W → Prop
  | create {a : ι} (h : w.runs a = .idle) :
      Step w (.advance a) { w.set a (.next 0) with tracked := true }
  | begin {a : ι} {i : ℕ} (h : w.runs a = .next i) (hi : i < M.files.length) :
      Step w (.advance a) (w.set a (.waiting i))
  | finish {a : ι} (h : w.runs a = .next M.files.length) : Step w (.advance a) (w.set a .finished)
  | lock {a : ι} {i : ℕ} (h : w.runs a = .waiting i) (hfree : w.lock = none) :
      Step w (.advance a) { w.set a (.locked i) with lock := some a }
  | found {a : ι} {i : ℕ} {f : MigrationFile V S} (h : w.runs a = .locked i)
      (hf : M.files[i]? = some f) (htracked : w.tracked = true) (hversion : f.version ∈ w.applied) :
      Step w (.advance a) (w.set a (.found i))
  | missing {a : ι} {i : ℕ} {f : MigrationFile V S} (h : w.runs a = .locked i)
      (hf : M.files[i]? = some f) (htracked : w.tracked = true) (hversion : f.version ∉ w.applied) :
      Step w (.advance a) (w.set a (.executing i f.statements (M.start w.content)))
  | untracked {a : ι} {i : ℕ} (h : w.runs a = .locked i) (htracked : w.tracked = false) :
      Step w (.advance a) (w.release a .failed)
  | skip {a : ι} {i : ℕ} (h : w.runs a = .found i) :
      Step w (.advance a) (w.release a (.next (i + 1)))
  | execute {a : ι} {i : ℕ} {statement : S} {statements : List S} {work work' : W}
      (h : w.runs a = .executing i (statement :: statements) work)
      (hwork : M.execute statement work = .ok work') :
      Step w (.advance a) (w.set a (.executing i statements work'))
  | refuse {a : ι} {i : ℕ} {statement : S} {statements : List S} {work : W} {e : E}
      (h : w.runs a = .executing i (statement :: statements) work)
      (hwork : M.execute statement work = .error e) :
      Step w (.advance a) (w.release a .failed)
  | record {a : ι} {i : ℕ} {f : MigrationFile V S} {work : W} (h : w.runs a = .executing i [] work)
      (hf : M.files[i]? = some f) (hversion : f.version ∉ w.applied) :
      Step w (.advance a) (w.set a (.recorded i work))
  | duplicate {a : ι} {i : ℕ} {f : MigrationFile V S} {work : W}
      (h : w.runs a = .executing i [] work) (hf : M.files[i]? = some f)
      (hversion : f.version ∈ w.applied) :
      Step w (.advance a) (w.release a .failed)
  | commit {a : ι} {i : ℕ} {f : MigrationFile V S} {work : W} (h : w.runs a = .recorded i work)
      (hf : M.files[i]? = some f) :
      Step w (.apply a f.version w.content (M.commit work))
        { w.release a (.next (i + 1)) with
          content := M.commit work
          applied := w.applied ++ [f.version] }
  | kill {a : ι} (h : (w.runs a).ended = false) :
      Step w (.kill a) { w.set a .killed with lock := if w.lock = some a then none else w.lock }
  | write {c : C} (h : M.write w.content c)
      (hcompatible : ∀ a work, (w.runs a).work = some work → M.compatible work w.content c) :
      Step w (.write w.content c)
        { w with content := c, runs := fun a => (w.runs a).rebase (M.rebase c) }

/-- A run goes on. -/
def Advance (w w' : World ι V S C W) : Prop :=
  ∃ a, M.Step w (.advance a) w' ∨ ∃ version c c', M.Step w (.apply a version c c') w'

/-- Some steps, with their events. -/
inductive Trace (w₀ : World ι V S C W) : List (Event ι V C) → World ι V S C W → Prop
  | refl : Trace w₀ [] w₀
  | step {log : List (Event ι V C)} {w w' : World ι V S C W} {e : Event ι V C}
      (h : Trace w₀ log w) (hstep : M.Step w e w') : Trace w₀ (log ++ [e]) w'

end Steps

/-- The content after files and writes, one after another. -/
inductive History (c₀ : C) : List (Event ι V C) → C → Prop
  | refl : History c₀ [] c₀
  | advance {log : List (Event ι V C)} {c : C} (h : History c₀ log c) (a : ι) :
      History c₀ (log ++ [.advance a]) c
  | kill {log : List (Event ι V C)} {c : C} (h : History c₀ log c) (a : ι) :
      History c₀ (log ++ [.kill a]) c
  | write {log : List (Event ι V C)} {c c' : C} (h : History c₀ log c) (hwrite : M.write c c') :
      History c₀ (log ++ [.write c c']) c'
  | apply {log : List (Event ι V C)} {c : C} (h : History c₀ log c) (a : ι)
      {f : MigrationFile V S} {work : W} (hf : f ∈ M.files)
      (hwork : M.executeAll f.statements (M.start c) = .ok work) :
      History c₀ (log ++ [.apply a f.version c (M.commit work)]) (M.commit work)

/-- **Sound files**: from a content that is legal for some number of applied files, the next file
can be applied, whatever is written in between, and keeps the view. -/
structure Sound (legal : ℕ → C → Prop) (view : C → X) : Prop where
  versions : (M.files.map MigrationFile.version).Nodup
  execute : ∀ i f c, M.files[i]? = some f → legal i c → ∃ work,
    M.executeAll f.statements (M.start c) = .ok work ∧ legal (i + 1) (M.commit work) ∧
      view (M.commit work) = view c
  write : ∀ i c c', legal i c → M.write c c' → legal i c'
  rebase : ∀ statements c c' work, M.executeAll statements (M.start c) = .ok work →
    M.write c c' → M.compatible work c c' →
      M.executeAll statements (M.start c') = .ok (M.rebase c' work)

/-! ## The invariant -/

section Invariant

/-- The phase of a run fits the number of applied files. -/
def Fits (k : ℕ) (w : World ι V S C W) (a : ι) : Phase S W → Prop
  | .idle => True
  | .next i => i ≤ k ∧ w.tracked = true
  | .waiting i => i ≤ k ∧ w.tracked = true ∧ i < M.files.length
  | .locked i => i ≤ k ∧ w.tracked = true ∧ i < M.files.length ∧ w.lock = some a
  | .found i => i < k ∧ w.tracked = true ∧ w.lock = some a
  | .executing i statements work => i = k ∧ w.tracked = true ∧ w.lock = some a ∧
      ∃ f executed, M.files[i]? = some f ∧ f.statements = executed ++ statements ∧
        M.executeAll executed (M.start w.content) = .ok work
  | .recorded i work => i = k ∧ w.tracked = true ∧ w.lock = some a ∧
      ∃ f, M.files[i]? = some f ∧ M.executeAll f.statements (M.start w.content) = .ok work
  | .finished => k = M.files.length
  | .killed => True
  | .failed => False

variable (legal : ℕ → C → Prop)

/-- **The invariant**: the first files have been applied, and no others. -/
structure Inv (k : ℕ) (w : World ι V S C W) : Prop where
  le : k ≤ M.files.length
  applied : w.applied = (M.files.take k).map MigrationFile.version
  legal : legal k w.content
  fits : ∀ a, M.Fits k w a (w.runs a)
  held : ∀ a, w.lock = some a → (w.runs a).holds = true

variable {M legal} {k k' : ℕ} {w w' : World ι V S C W} {a b : ι}

theorem Fits.lock_eq {p : Phase S W} (h : M.Fits k w a p) (hp : p.holds = true) :
    w.lock = some a := by
  cases p with
  | locked => exact h.2.2.2
  | found => exact h.2.2
  | executing => exact h.2.2.1
  | recorded => exact h.2.2.1
  | _ => cases hp

/-- A run stays where it fits while others go on. -/
theorem Fits.frame {p : Phase S W} (h : M.Fits k w a p) (hk : k ≤ k') (hle : k' ≤ M.files.length)
    (htracked : w.tracked = true → w'.tracked = true)
    (hheld : p.holds = true → k' = k ∧ w'.lock = w.lock ∧ w'.content = w.content) :
    M.Fits k' w' a p := by
  cases p with
  | idle => trivial
  | next i => exact ⟨h.1.trans hk, htracked h.2⟩
  | waiting i => exact ⟨h.1.trans hk, htracked h.2.1, h.2.2⟩
  | locked i =>
    obtain ⟨rfl, hlock, -⟩ := hheld rfl
    exact ⟨h.1, htracked h.2.1, h.2.2.1, hlock ▸ h.2.2.2⟩
  | found i =>
    obtain ⟨rfl, hlock, -⟩ := hheld rfl
    exact ⟨h.1, htracked h.2.1, hlock ▸ h.2.2⟩
  | executing i statements work =>
    obtain ⟨rfl, hlock, hcontent⟩ := hheld rfl
    exact ⟨h.1, htracked h.2.1, hlock ▸ h.2.2.1, hcontent ▸ h.2.2.2⟩
  | recorded i work =>
    obtain ⟨rfl, hlock, hcontent⟩ := hheld rfl
    exact ⟨h.1, htracked h.2.1, hlock ▸ h.2.2.1, hcontent ▸ h.2.2.2⟩
  | finished =>
    have hlast : k = M.files.length := h
    exact le_antisymm hle (hlast ▸ hk)
  | killed => trivial
  | failed => exact h

/-- A run that others let go on sees what they write. -/
theorem Fits.write {view : C → X} (hsound : M.Sound legal view) {p : Phase S W}
    (h : M.Fits k w a p) {c : C} (hwrite : M.write w.content c)
    (hcompatible : ∀ work, p.work = some work → M.compatible work w.content c)
    {runs : ι → Phase S W} :
    M.Fits k { w with content := c, runs := runs } a (p.rebase (M.rebase c)) := by
  cases p with
  | executing i statements work =>
    obtain ⟨hik, htracked, hlock, f, executed, hf, hstatements, hexecuted⟩ := h
    exact ⟨hik, htracked, hlock, f, executed, hf, hstatements,
      hsound.rebase _ _ _ _ hexecuted hwrite (hcompatible work rfl)⟩
  | recorded i work =>
    obtain ⟨hik, htracked, hlock, f, hf, hexecuted⟩ := h
    exact ⟨hik, htracked, hlock, f, hf,
      hsound.rebase _ _ _ _ hexecuted hwrite (hcompatible work rfl)⟩
  | _ => exact h

theorem version_mem_take (hversions : (M.files.map MigrationFile.version).Nodup) {i : ℕ}
    {f : MigrationFile V S} (hf : M.files[i]? = some f) :
    f.version ∈ (M.files.take k).map MigrationFile.version ↔ i < k := by
  obtain ⟨hi, rfl⟩ := List.getElem?_eq_some_iff.mp hf
  rw [List.map_take, List.mem_take_iff_getElem]
  constructor
  · rintro ⟨j, hj, heq⟩
    have hjk := lt_min_iff.mp hj
    have hlt : i < (M.files.map MigrationFile.version).length := by
      rw [List.length_map]
      exact hi
    have hsame : (M.files.map MigrationFile.version)[j] =
        (M.files.map MigrationFile.version)[i] := heq.trans (List.getElem_map ..).symm
    exact hversions.getElem_inj_iff.mp hsame ▸ hjk.1
  · intro hik
    refine ⟨i, lt_min hik ?_, List.getElem_map ..⟩
    rw [List.length_map]
    exact hi

/-- Only one run holds the lock. -/
theorem Inv.not_holds (h : M.Inv legal k w) (hlock : w.lock = some a) (hb : b ≠ a) :
    (w.runs b).holds = false := by
  rw [Bool.eq_false_iff]
  intro hholds
  have hlock' := (h.fits b).lock_eq hholds
  exact hb (Option.some.inj (hlock'.symm.trans hlock))

variable [DecidableEq ι]

/-- One run comes to another phase, and the others stay where they fit. -/
theorem Inv.moved (h : M.Inv legal k w) {p : Phase S W}
    (hruns : w'.runs = Function.update w.runs a p) (hk : k ≤ k') (hle : k' ≤ M.files.length)
    (happlied : w'.applied = (M.files.take k').map MigrationFile.version)
    (hlegal : legal k' w'.content) (htracked : w.tracked = true → w'.tracked = true)
    (hp : M.Fits k' w' a p) (hholds : w'.lock = some a → p.holds = true)
    (hothers : ∀ b, b ≠ a → (w.runs b).holds = true →
      k' = k ∧ w'.lock = w.lock ∧ w'.content = w.content)
    (hlocks : ∀ b, b ≠ a → w'.lock = some b → w.lock = some b) : M.Inv legal k' w' where
  le := hle
  applied := happlied
  legal := hlegal
  fits b := by
    by_cases hb : b = a
    · subst hb
      rw [hruns, Function.update_self]
      exact hp
    · rw [hruns, Function.update_of_ne hb]
      exact (h.fits b).frame hk hle htracked (hothers b hb)
  held b hlock := by
    by_cases hb : b = a
    · subst hb
      rw [hruns, Function.update_self]
      exact hholds hlock
    · rw [hruns, Function.update_of_ne hb]
      exact h.held b (hlocks b hb hlock)

/-- A run goes on, and nothing else changes. -/
theorem Inv.set (h : M.Inv legal k w) {p : Phase S W} (hp : M.Fits k w a p)
    (hholds : w.lock = some a → p.holds = true) : M.Inv legal k (w.set a p) :=
  h.moved rfl le_rfl h.le h.applied h.legal id
    (hp.frame le_rfl h.le id fun _ => ⟨rfl, rfl, rfl⟩) hholds
    (fun _ _ _ => ⟨rfl, rfl, rfl⟩) fun _ _ => id

/-- A run that does not hold the lock goes on, and nothing else changes. -/
theorem Inv.set_of_free (h : M.Inv legal k w) {p : Phase S W} (hp : M.Fits k w a p)
    (hfree : (w.runs a).holds = false) : M.Inv legal k (w.set a p) := by
  refine h.set hp fun hlock => ?_
  rw [h.held a hlock] at hfree
  cases hfree

/-- The run that holds the lock gives it back, and nothing else changes for the others. -/
theorem Inv.release (h : M.Inv legal k w) (hlock : w.lock = some a) {p : Phase S W} {c : C}
    {applied : List V} (hk : k ≤ k') (hle : k' ≤ M.files.length)
    (happlied : applied = (M.files.take k').map MigrationFile.version) (hc : legal k' c)
    (hp : M.Fits k' { w.release a p with content := c, applied := applied } a p) :
    M.Inv legal k' { w.release a p with content := c, applied := applied } := by
  refine h.moved rfl hk hle happlied hc id hp nofun (fun b hb hholds => ?_) nofun
  rw [h.not_holds hlock hb] at hholds
  cases hholds

/-- **One step** keeps the invariant; a commit applies the next file. -/
theorem Step.inv {view : C → X} (hsound : M.Sound legal view) (h : M.Inv legal k w)
    {e : Event ι V C} (hstep : M.Step w e w') : ∃ k', M.Inv legal k' w' := by
  cases hstep with
  | @create a hrun =>
    refine ⟨k, h.moved rfl le_rfl h.le h.applied h.legal (fun _ => rfl) ⟨Nat.zero_le k, rfl⟩
      (fun hlock => ?_) (fun _ _ _ => ⟨rfl, rfl, rfl⟩) fun _ _ => id⟩
    have hholds := h.held a hlock
    rw [hrun] at hholds
    cases hholds
  | @begin a i hrun hi =>
    have hfits := hrun ▸ h.fits a
    exact ⟨k, h.set_of_free ⟨hfits.1, hfits.2, hi⟩ (by rw [hrun]; rfl)⟩
  | @finish a hrun =>
    have hfits := hrun ▸ h.fits a
    exact ⟨k, h.set_of_free (le_antisymm h.le hfits.1) (by rw [hrun]; rfl)⟩
  | @lock a i hrun hfree =>
    have hfits := hrun ▸ h.fits a
    refine ⟨k, h.moved rfl le_rfl h.le h.applied h.legal id
      ⟨hfits.1, hfits.2.1, hfits.2.2, rfl⟩ (fun _ => rfl) (fun b _ hholds => ?_)
      fun b hb hlock => ?_⟩
    · have hlock := (h.fits b).lock_eq hholds
      rw [hfree] at hlock
      cases hlock
    · exact absurd (Option.some.inj hlock).symm hb
  | @found a i f hrun hf htracked hversion =>
    have hfits := hrun ▸ h.fits a
    have hi : i < k := (version_mem_take hsound.versions hf).mp (h.applied ▸ hversion)
    exact ⟨k, h.set ⟨hi, hfits.2.1, hfits.2.2.2⟩ fun _ => rfl⟩
  | @missing a i f hrun hf htracked hversion =>
    have hfits := hrun ▸ h.fits a
    have hi : ¬ i < k := fun hi =>
      hversion (h.applied ▸ (version_mem_take hsound.versions hf).mpr hi)
    have hik : i = k := le_antisymm hfits.1 (not_lt.mp hi)
    exact ⟨k, h.set ⟨hik, hfits.2.1, hfits.2.2.2, f, [], hf, rfl, rfl⟩ fun _ => rfl⟩
  | @untracked a i hrun htracked =>
    have hfits := hrun ▸ h.fits a
    rw [hfits.2.1] at htracked
    cases htracked
  | @skip a i hrun =>
    have hfits := hrun ▸ h.fits a
    exact ⟨k, h.release hfits.2.2 le_rfl h.le h.applied h.legal ⟨hfits.1, hfits.2.1⟩⟩
  | @execute a i statement statements work work' hrun hwork =>
    obtain ⟨hik, htracked, hlock, f, executed, hf, hstatements, hexecuted⟩ := hrun ▸ h.fits a
    refine ⟨k, h.set ⟨hik, htracked, hlock, f, executed ++ [statement], hf, ?_, ?_⟩ fun _ => rfl⟩
    · rw [hstatements, List.append_assoc]
      rfl
    · rw [executeAll_append, hexecuted, Except.ok_bind, executeAll, hwork]
      rfl
  | @refuse a i statement statements work e hrun hwork =>
    obtain ⟨rfl, -, -, f, executed, hf, hstatements, hexecuted⟩ := hrun ▸ h.fits a
    obtain ⟨work', hwork', -⟩ := hsound.execute _ f w.content hf h.legal
    rw [hstatements, executeAll_append, hexecuted, Except.ok_bind, executeAll, hwork] at hwork'
    cases hwork'
  | @record a i f work hrun hf hversion =>
    obtain ⟨hik, htracked, hlock, f', executed, hf', hstatements, hexecuted⟩ := hrun ▸ h.fits a
    rw [List.append_nil] at hstatements
    exact ⟨k, h.set ⟨hik, htracked, hlock, f', hf', hstatements ▸ hexecuted⟩ fun _ => rfl⟩
  | @duplicate a i f work hrun hf hversion =>
    obtain ⟨rfl, -⟩ := hrun ▸ h.fits a
    rw [h.applied, version_mem_take hsound.versions hf] at hversion
    exact absurd hversion (lt_irrefl _)
  | @commit a i f work hrun hf =>
    obtain ⟨rfl, htracked, hlock, f', hf', hwork⟩ := hrun ▸ h.fits a
    obtain rfl := Option.some.inj (hf.symm.trans hf')
    obtain ⟨work', hwork', hlegal, -⟩ := hsound.execute _ f w.content hf h.legal
    obtain rfl := Except.ok.inj (hwork.symm.trans hwork')
    have hi : i < M.files.length := (List.getElem?_eq_some_iff.mp hf).1
    refine ⟨i + 1, h.release hlock (Nat.le_succ i) hi ?_ hlegal ⟨le_rfl, htracked⟩⟩
    rw [List.take_add_one, hf, List.map_append, h.applied]
    rfl
  | @kill a halive =>
    refine ⟨k, h.moved rfl le_rfl h.le h.applied h.legal id trivial (fun hlock => ?_)
      (fun b hb hholds => ⟨rfl, if_neg fun hlock => ?_, rfl⟩) fun b hb hlock => ?_⟩
    · dsimp only at hlock
      split_ifs at hlock with ha
      exact absurd hlock ha
    · rw [h.not_holds hlock hb] at hholds
      cases hholds
    · dsimp only at hlock
      split_ifs at hlock
      exact hlock
  | @write c hwrite hcompatible =>
    refine ⟨k, h.le, h.applied, hsound.write k _ _ h.legal hwrite, fun b => ?_, fun b hlock => ?_⟩
    · exact (h.fits b).write hsound hwrite (hcompatible b)
    · rw [Phase.holds_rebase]
      exact h.held b hlock

end Invariant

/-! ## Runs -/

section Runs

variable [DecidableEq ι] {M : Migrator V S C W E} {legal : ℕ → C → Prop} {view : C → X} {k : ℕ}
  {w₀ w w' : World ι V S C W} {log : List (Event ι V C)}

/-- **A run of steps** keeps the invariant. -/
theorem Trace.inv (hsound : M.Sound legal view) (hinv : M.Inv legal k w₀)
    (h : M.Trace w₀ log w) : ∃ k', M.Inv legal k' w := by
  induction h with
  | refl => exact ⟨k, hinv⟩
  | step h hstep ih =>
    obtain ⟨k', hinv'⟩ := ih
    exact hstep.inv hsound hinv'

theorem Step.applied {e : Event ι V C} (h : M.Step w e w') :
    w'.applied = w.applied ++ e.version.toList := by
  cases h with
  | commit => rfl
  | _ => exact (List.append_nil _).symm

/-- The versions that have been recorded are those of the files that were applied. -/
theorem Trace.applied (h : M.Trace w₀ log w) :
    w.applied = w₀.applied ++ log.filterMap Event.version := by
  induction h with
  | refl => exact (List.append_nil _).symm
  | @step log w w' e h hstep ih =>
    rw [hstep.applied, ih, List.filterMap_append, List.append_assoc]
    cases e <;> rfl

/-- **The content** is that of the files and the writes, one after another. -/
theorem Trace.history (hsound : M.Sound legal view) (hinv : M.Inv legal k w₀)
    (h : M.Trace w₀ log w) : M.History w₀.content log w.content := by
  induction h with
  | refl => exact .refl
  | @step log w w' e h hstep ih =>
    cases hstep with
    | @commit a i f work hrun hf =>
      obtain ⟨k', hinv'⟩ := h.inv hsound hinv
      obtain ⟨-, -, -, f', hf', hwork⟩ := hrun ▸ hinv'.fits a
      obtain rfl := Option.some.inj (hf.symm.trans hf')
      exact ih.apply a (List.mem_of_getElem? hf) hwork
    | kill => exact ih.kill _
    | write hwrite => exact ih.write hwrite
    | _ => exact ih.advance _

/-- No step but a write changes the view. -/
theorem Step.keeps_view (hsound : M.Sound legal view) (hinv : M.Inv legal k w) {e : Event ι V C}
    (h : M.Step w e w') :
    view w'.content = view w.content ∨ e = .write w.content w'.content := by
  cases h with
  | @commit a i f work hrun hf =>
    obtain ⟨rfl, -, -, f', hf', hwork⟩ := hrun ▸ hinv.fits a
    obtain rfl := Option.some.inj (hf.symm.trans hf')
    obtain ⟨work', hwork', -, hview⟩ := hsound.execute _ f w.content hf hinv.legal
    obtain rfl := Except.ok.inj (hwork.symm.trans hwork')
    exact .inl hview
  | write => exact .inr rfl
  | _ => exact .inl rfl

/-- **What the writes keep** of the view is kept. -/
theorem Trace.keeps_view (hsound : M.Sound legal view) (hinv : M.Inv legal k w₀)
    (h : M.Trace w₀ log w) {P : X → Prop} (hP : P (view w₀.content))
    (hwrites : ∀ c c', .write c c' ∈ log → P (view c) → P (view c')) : P (view w.content) := by
  induction h with
  | refl => exact hP
  | @step log w w' e h hstep ih =>
    have hkept := ih fun c c' hmem => hwrites c c' (List.mem_append_left _ hmem)
    obtain ⟨k', hinv'⟩ := h.inv hsound hinv
    obtain hview | rfl := hstep.keeps_view hsound hinv'
    · rw [hview]
      exact hkept
    · exact hwrites _ _ (List.mem_append_right _ (List.mem_singleton_self _)) hkept

end Runs

/-! ## Progress -/

section Progress

/-- An upper bound for the steps of a run from the transaction of a file on. -/
def stepsFrom (i : ℕ) : ℕ := ((M.files.drop i).map fun f => f.statements.length + 6).sum

/-- The number of statements of a file. -/
def statementCount (i : ℕ) : ℕ := (M.files[i]?.map fun f => f.statements.length).getD 0

/-- An upper bound for the remaining steps of a run. -/
def rank : Phase S W → ℕ
  | .idle => M.stepsFrom 0 + 2
  | .next i => M.stepsFrom i + 1
  | .waiting i => M.stepsFrom (i + 1) + M.statementCount i + 5
  | .locked i => M.stepsFrom (i + 1) + M.statementCount i + 4
  | .found i => M.stepsFrom (i + 1) + 2
  | .executing i statements _ => M.stepsFrom (i + 1) + statements.length + 3
  | .recorded i _ => M.stepsFrom (i + 1) + 2
  | .finished | .killed | .failed => 0

variable {M}

theorem stepsFrom_of_lt {i : ℕ} (hi : i < M.files.length) :
    M.stepsFrom i = M.statementCount i + 6 + M.stepsFrom (i + 1) := by
  rw [stepsFrom, List.drop_eq_getElem_cons hi, List.map_cons, List.sum_cons, statementCount,
    List.getElem?_eq_getElem hi]
  rfl

theorem statementCount_eq {i : ℕ} {f : MigrationFile V S} (hf : M.files[i]? = some f) :
    M.statementCount i = f.statements.length := by
  rw [statementCount, hf]
  rfl

variable [DecidableEq ι]

section Finite

variable [Fintype ι]

/-- An upper bound for the remaining steps. -/
def remaining (M : Migrator V S C W E) (w : World ι V S C W) : ℕ := ∑ a, M.rank (w.runs a)

theorem remaining_lt {w w' : World ι V S C W} {a : ι} {p : Phase S W}
    (hruns : w'.runs = Function.update w.runs a p) (h : M.rank p < M.rank (w.runs a)) :
    M.remaining w' < M.remaining w := by
  refine Finset.sum_lt_sum (fun b _ => ?_) ⟨a, Finset.mem_univ a, ?_⟩
  · by_cases hb : b = a
    · subst hb
      rw [hruns, Function.update_self]
      exact h.le
    · rw [hruns, Function.update_of_ne hb]
  · rw [hruns, Function.update_self]
    exact h

/-- **A run that goes on** has fewer steps before it. -/
theorem Advance.remaining_lt {w w' : World ι V S C W} (h : M.Advance w w') :
    M.remaining w' < M.remaining w := by
  obtain ⟨a, h | ⟨version, c, c', h⟩⟩ := h
  · cases h with
    | create hrun =>
      refine Migrator.remaining_lt rfl ?_
      rw [hrun, rank, rank]
      omega
    | begin hrun hi =>
      refine Migrator.remaining_lt rfl ?_
      rw [hrun, rank, rank, stepsFrom_of_lt hi]
      omega
    | finish hrun =>
      refine Migrator.remaining_lt rfl ?_
      rw [hrun, rank, rank]
      omega
    | lock hrun hfree =>
      refine Migrator.remaining_lt rfl ?_
      rw [hrun, rank, rank]
      omega
    | found hrun hf =>
      refine Migrator.remaining_lt rfl ?_
      rw [hrun, rank, rank]
      omega
    | missing hrun hf =>
      refine Migrator.remaining_lt rfl ?_
      rw [hrun, rank, rank, statementCount_eq hf]
      omega
    | untracked hrun =>
      refine Migrator.remaining_lt rfl ?_
      rw [hrun, rank, rank]
      omega
    | skip hrun =>
      refine Migrator.remaining_lt rfl ?_
      rw [hrun, rank, rank]
      omega
    | execute hrun =>
      refine Migrator.remaining_lt rfl ?_
      rw [hrun, rank, rank, List.length_cons]
      omega
    | refuse hrun =>
      refine Migrator.remaining_lt rfl ?_
      rw [hrun, rank, rank]
      omega
    | record hrun =>
      refine Migrator.remaining_lt rfl ?_
      rw [hrun, rank, rank, List.length_nil]
      omega
    | duplicate hrun =>
      refine Migrator.remaining_lt rfl ?_
      rw [hrun, rank, rank]
      omega
  · cases h with
    | commit hrun hf =>
      refine Migrator.remaining_lt rfl ?_
      rw [hrun, rank, rank]
      omega

/-- The runs cannot go on forever. -/
theorem acc_advance (w : World ι V S C W) : Acc (fun w' w => M.Advance w w') w :=
  Subrelation.accessible (fun h => Advance.remaining_lt h) (InvImage.accessible M.remaining
    (Nat.lt_wfRel.wf.apply _))

end Finite

/-- The run that holds the lock can go on. -/
theorem advance_of_holds {legal : ℕ → C → Prop} {k : ℕ} {w : World ι V S C W} {a : ι}
    (h : M.Inv legal k w) (hholds : (w.runs a).holds = true) : ∃ w', M.Advance w w' := by
  have hfits := h.fits a
  cases hrun : w.runs a with
  | locked i =>
    rw [hrun] at hfits
    have hi := hfits.2.2.1
    have hf := List.getElem?_eq_getElem hi
    by_cases hversion : M.files[i].version ∈ w.applied
    · exact ⟨_, a, .inl (.found hrun hf hfits.2.1 hversion)⟩
    · exact ⟨_, a, .inl (.missing hrun hf hfits.2.1 hversion)⟩
  | found i => exact ⟨_, a, .inl (.skip hrun)⟩
  | executing i statements work =>
    cases statements with
    | nil =>
      rw [hrun] at hfits
      obtain ⟨-, -, -, f, -, hf, -⟩ := hfits
      by_cases hversion : f.version ∈ w.applied
      · exact ⟨_, a, .inl (.duplicate hrun hf hversion)⟩
      · exact ⟨_, a, .inl (.record hrun hf hversion)⟩
    | cons statement statements =>
      cases hwork : M.execute statement work with
      | error e => exact ⟨_, a, .inl (.refuse hrun hwork)⟩
      | ok work' => exact ⟨_, a, .inl (.execute hrun hwork)⟩
  | recorded i work =>
    rw [hrun] at hfits
    obtain ⟨-, -, -, f, hf, -⟩ := hfits
    exact ⟨_, a, .inr ⟨_, _, _, .commit hrun hf⟩⟩
  | _ =>
    rw [hrun] at hholds
    cases hholds

/-- **No run waits forever**: while one has not ended, one can go on. -/
theorem exists_advance {legal : ℕ → C → Prop} {k : ℕ} {w : World ι V S C W} {a : ι}
    (h : M.Inv legal k w) (halive : (w.runs a).ended = false) : ∃ w', M.Advance w w' := by
  have hfits := h.fits a
  cases hrun : w.runs a with
  | idle => exact ⟨_, a, .inl (.create hrun)⟩
  | next i =>
    rw [hrun] at hfits
    obtain hi | rfl := lt_or_eq_of_le (hfits.1.trans h.le)
    · exact ⟨_, a, .inl (.begin hrun hi)⟩
    · exact ⟨_, a, .inl (.finish hrun)⟩
  | waiting i =>
    cases hlock : w.lock with
    | none => exact ⟨_, a, .inl (.lock hrun hlock)⟩
    | some b => exact advance_of_holds h (h.held b hlock)
  | finished =>
    rw [hrun] at halive
    cases halive
  | killed =>
    rw [hrun] at halive
    cases halive
  | failed => exact (hrun ▸ hfits).elim
  | _ => exact advance_of_holds h (by rw [hrun]; rfl)

theorem killed_iff_of_update {w w' : World ι V S C W} {b : ι} {p q : Phase S W}
    (hruns : w'.runs = Function.update w.runs b p) (hrun : w.runs b = q) (hp : p ≠ .killed)
    (hq : q ≠ .killed) (a : ι) : w'.runs a = .killed ↔ w.runs a = .killed := by
  rw [hruns]
  by_cases ha : a = b
  · subst ha
    rw [Function.update_self, hrun]
    exact iff_of_false hp hq
  · rw [Function.update_of_ne ha]

/-- A run that goes on kills none. -/
theorem Advance.killed_iff {w w' : World ι V S C W} (h : M.Advance w w') (a : ι) :
    w'.runs a = .killed ↔ w.runs a = .killed := by
  obtain ⟨b, h | ⟨version, c, c', h⟩⟩ := h
  · cases h with
    | create hrun | begin hrun | finish hrun | lock hrun | found hrun | missing hrun
    | untracked hrun | skip hrun | execute hrun | refuse hrun | record hrun | duplicate hrun =>
      exact killed_iff_of_update rfl hrun (by simp) (by simp) a
  · cases h with
    | commit hrun => exact killed_iff_of_update rfl hrun (by simp) (by simp) a

/-- **Every trace can be continued** without a kill or a write, until no run can go on. -/
theorem Trace.exists_stuck [Fintype ι] {w₀ w : World ι V S C W} {log : List (Event ι V C)}
    (h : M.Trace w₀ log w) : ∃ log' w', M.Trace w₀ (log ++ log') w' ∧
      (∀ c c', .write c c' ∉ log') ∧ (∀ a, w'.runs a = .killed ↔ w.runs a = .killed) ∧
      ∀ w'', ¬ M.Advance w' w'' := by
  induction acc_advance (M := M) w generalizing log with
  | intro w _ ih =>
    by_cases hstuck : ∃ w', M.Advance w w'
    · obtain ⟨w', hadvance⟩ := hstuck
      obtain ⟨e, he, hstep⟩ : ∃ e, (∀ c c', e ≠ .write c c') ∧ M.Step w e w' := by
        obtain ⟨a, hstep | ⟨version, c, c', hstep⟩⟩ := hadvance
        · exact ⟨.advance a, fun _ _ => by simp, hstep⟩
        · exact ⟨.apply a version c c', fun _ _ => by simp, hstep⟩
      obtain ⟨log', w'', htrace, hwrites, hkilled, hends⟩ := ih w' hadvance (h.step hstep)
      rw [List.append_assoc] at htrace
      refine ⟨[e] ++ log', w'', htrace, fun c c' hmem => ?_,
        fun a => (hkilled a).trans (hadvance.killed_iff a), hends⟩
      obtain hmem | hmem := List.mem_append.mp hmem
      · exact he c c' (List.mem_singleton.mp hmem).symm
      · exact hwrites c c' hmem
    · exact ⟨[], w, by rwa [List.append_nil], fun _ _ => List.not_mem_nil, fun _ => .rfl,
        not_exists.mp hstuck⟩

theorem inv_of_advances {legal : ℕ → C → Prop} {view : C → X} {k : ℕ} {w w' : World ι V S C W}
    (hsound : M.Sound legal view) (hinv : M.Inv legal k w)
    (h : Relation.ReflTransGen M.Advance w w') : ∃ k', M.Inv legal k' w' := by
  induction h with
  | refl => exact ⟨k, hinv⟩
  | tail _ hstep ih =>
    obtain ⟨k', hinv'⟩ := ih
    obtain ⟨a, hstep | ⟨version, c, c', hstep⟩⟩ := hstep
    · exact hstep.inv hsound hinv'
    · exact hstep.inv hsound hinv'

/-- **The runs end well**: those that have gone on as long as they can have been killed, or are
finished. -/
theorem ended_of_stuck {legal : ℕ → C → Prop} {k : ℕ} {w : World ι V S C W}
    (hinv : M.Inv legal k w) (hstuck : ∀ w', ¬ M.Advance w w') (a : ι) :
    w.runs a = .killed ∨ w.runs a = .finished := by
  have hended : (w.runs a).ended = true := by
    rw [← Bool.not_eq_false]
    intro halive
    obtain ⟨w', h⟩ := exists_advance hinv halive
    exact hstuck w' h
  have hfits := hinv.fits a
  cases hrun : w.runs a with
  | killed => exact .inl rfl
  | finished => exact .inr rfl
  | failed => exact (hrun ▸ hfits).elim
  | _ =>
    rw [hrun] at hended
    cases hended

omit [DecidableEq ι] in
/-- A finished run has found every file applied, or has applied it. -/
theorem Inv.applied_of_finished {legal : ℕ → C → Prop} {k : ℕ} {w : World ι V S C W} {a : ι}
    (h : M.Inv legal k w) (hrun : w.runs a = .finished) :
    w.applied = M.files.map MigrationFile.version := by
  have hfits := h.fits a
  rw [hrun] at hfits
  have hk : k = M.files.length := hfits
  rw [h.applied, hk, List.take_length]

end Progress

end Migrator
