import BoulderFrame.Library.ThreadPool
import BoulderFrame.Worker.World

/-!
# The attempts at the jobs

Any number of attempts process tasks in one world, with any interleaving, stopping at any point. An
attempt knows something of its job only as long as it holds the lease: what it has read or written
then is still so, and what it has handled is recorded.

## Main definitions

* `attempts`, `discipline`: the pool of the attempts, and its rely-guarantee discipline
* `Holding`: what an attempt knows of its job while it holds the lease
* `Entered`, `Worked`, `Passed`: a stage that is entered, whose handler has returned, and which has
  been recorded as handled

## Main results

* `wp_process`: processing keeps the invariant, and settles the job if the delivery may be
  acknowledged
* `World.reachable_inv`: the invariant holds in every reachable world
-/

namespace BoulderFrame

open Routine

/-- The attempts, each with a token of its own and the rendered file of a size. -/
def attempts (files : String → ℤ) :
    Pool String Effect Effect.Answer (Except Raised ProcessResult × Unit) World where
  start t _ p := ∃ config task, p = process config pipelineHandlers t task ()
  sem t e w := World.Step files t w e
  env := World.Env

def discipline : Pool.Discipline String World where
  inv := World.Inv
  rely := World.Relies
  rely_refl _ _ := .rfl
  rely_trans _ _ _ _ := .trans
  fresh _ _ := True
  fresh_rely _ _ _ _ _ := trivial

/-- The setting of one attempt. -/
abbrev attemptSetting (files : String → ℤ) (t : String) : Setting Effect Effect.Answer World :=
  discipline.setting (attempts files) t

/-! ## What an attempt knows -/

/-- While the attempt holds the job, its row and the world are so. -/
def Holding (j : Uuid) (t : String) (P : JobRow → World → Prop) (w : World) : Prop :=
  ∀ row, w.db.jobs j = some row → row.HeldBy t w.now → P row w

/-- What stays so while the attempt holds the job. -/
def Stable (j : Uuid) (P : JobRow → World → Prop) : Prop :=
  ∀ row expires w w', P row w → w.handled ⊆ w'.handled →
    w'.db.artifacts j .output = w.db.artifacts j .output →
    World.OutputKept (outputStorageKey row.projectId j) w w' →
    P { row with leaseExpiresAt := expires } w'

/-- The job is in the stage. -/
def Entered (state : JobState) (row : JobRow) (_ : World) : Prop := row.state = state

/-- The handler of the stage has returned: an upload has linked the stored output. -/
def Worked (j : Uuid) (state : JobState) (row : JobRow) (w : World) : Prop :=
  row.state = state ∧ (state = .uploading → ∃ a, Linked w.db j row a ∧ w.Stored a)

/-- The stage is recorded as handled; a queued job has none. -/
def Passed (j : Uuid) (t : String) (state : JobState) (row : JobRow) (w : World) : Prop :=
  Worked j state row w ∧ (state ≠ .queued → (j, t, state) ∈ w.handled)

/-- The output key of the job holds the attempt's rendered file, if the project is the given one. -/
def Put (j projectId : Uuid) (size : ℤ) (row : JobRow) (w : World) : Prop :=
  row.projectId = projectId → outputStorageKey projectId j ∉ w.strays →
    w.objects (outputStorageKey projectId j) = some size

section Knowledge

variable {j projectId : Uuid} {t : String} {state : JobState} {size : ℤ} {w w' : World}
  {P P' : JobRow → World → Prop}

theorem Holding.mono (h : Holding j t P w) (hP : ∀ row, P row w → P' row w) : Holding j t P' w :=
  fun row hrow hheld => hP row (h row hrow hheld)

theorem Holding.relies (h : Holding j t P w) (hP : Stable j P) (hr : World.Relies t w w') :
    Holding j t P w' := by
  intro row' hrow' hheld'
  obtain ⟨row, hrow, hheld, ⟨expires, rfl⟩, hartifact, hkept⟩ := hr.held j row' hrow' hheld'
  exact hP row expires w w' (h row hrow hheld) hr.handled hartifact hkept

theorem holding_true (j : Uuid) : Holding j t (fun _ _ => True) w := fun _ _ _ => trivial

theorem stable_true : Stable j fun _ _ => True := fun _ _ _ _ _ _ _ _ => trivial

theorem Stable.and (h : Stable j P) (h' : Stable j P') :
    Stable j fun row w => P row w ∧ P' row w :=
  fun row expires w w' hp hhandled hartifact hkept =>
    ⟨h row expires w w' hp.1 hhandled hartifact hkept,
      h' row expires w w' hp.2 hhandled hartifact hkept⟩

theorem stable_entered : Stable j (Entered state) := fun _ _ _ _ h _ _ _ => h

theorem stable_worked : Stable j (Worked j state) := by
  rintro row expires w w' ⟨hstate, hlinked⟩ - hartifact hkept
  refine ⟨hstate, fun huploading => ?_⟩
  obtain ⟨a, ha, hstored⟩ := hlinked huploading
  exact ⟨a, ha.later (hkept.asset a ha.mem ha.kind ha.uploaded ha.key.2) hartifact ⟨rfl, rfl⟩,
    hstored.later (ha.key.2 ▸ hkept)⟩

theorem stable_passed : Stable j (Passed j t state) := by
  rintro row expires w w' ⟨hworked, hhandled⟩ hsubset hartifact hkept
  exact ⟨stable_worked row expires w w' hworked hsubset hartifact hkept,
    fun hstate => hsubset (hhandled hstate)⟩

theorem stable_put : Stable j (Put j projectId size) := by
  rintro row expires w w' hput - - hkept hproject hstray
  obtain rfl : row.projectId = projectId := hproject
  obtain ⟨hstray', hobject⟩ := hkept.object hstray
  exact hobject.trans (hput rfl hstray')

end Knowledge

/-! ## Effects -/

section Effects

variable {files : String → ℤ} {t : String} {w : World} {ℓ : Type} {l : ℓ} {e : Effect}

/-- **An effect** of the attempt is correct if it keeps the invariant. -/
theorem wp_step {α : Type} {h : e.Answer = Except Raised α} {Q : Except Raised α → ℓ → World → Prop}
    (htoken : ∀ t' ≠ t, e.token ≠ some t')
    (hinv : ∀ w₁ a w₂, World.Relies t w w₁ → w₁.Inv → World.Step files t w₁ e a w₂ → w₂.Inv)
    (hQ : ∀ w₁ a w₂, World.Relies t w w₁ → w₁.Inv → World.Step files t w₁ e a w₂ →
      Q (cast h a) l w₂) :
    (call e h : WorkerRoutine ℓ α).wp (attemptSetting files t) Q l w := by
  rw [wp_call]
  rintro w₁ ⟨hrely, hinv₁⟩ a w₂ hstep
  exact ⟨⟨hinv w₁ a w₂ hrely hinv₁ hstep, fun t' ht' => World.Step.relies hstep ht'.symm
    (htoken t' ht')⟩, hQ w₁ a w₂ hrely hinv₁ hstep⟩

/-- **A quiet effect** keeps what the attempt relies on. -/
theorem wp_quiet {Q : Except Raised e.Answer → ℓ → World → Prop} (he : e.isQuiet)
    (hQ : ∀ w₁ a w₂, World.Relies t w w₁ → World.Step files t w₁ e a w₂ →
      World.Relies t w₁ w₂ → Q (.ok a) l w₂) :
    (perform e : WorkerRoutine ℓ e.Answer).wp (attemptSetting files t) Q l w := by
  rw [wp_perform]
  rintro w₁ ⟨hrely, hinv₁⟩ a w₂ hstep
  have hupdate : ∀ record, e ≠ .update record := by
    rintro record rfl
    cases he
  exact ⟨⟨World.Step.inv hstep hinv₁ hupdate, fun t' _ => World.Step.quiet hstep he t'⟩,
    hQ w₁ a w₂ hrely hstep (World.Step.quiet hstep he t)⟩

theorem wp_quiet_call {α : Type} {h : e.Answer = Except Raised α}
    {Q : Except Raised α → ℓ → World → Prop} (he : e.isQuiet)
    (hQ : ∀ w₁ a w₂, World.Relies t w w₁ → World.Step files t w₁ e a w₂ →
      World.Relies t w₁ w₂ → Q (cast h a) l w₂) :
    (call e h : WorkerRoutine ℓ α).wp (attemptSetting files t) Q l w := by
  rw [wp_call]
  rintro w₁ ⟨hrely, hinv₁⟩ a w₂ hstep
  have hupdate : ∀ record, e ≠ .update record := by
    rintro record rfl
    cases he
  exact ⟨⟨World.Step.inv hstep hinv₁ hupdate, fun t' _ => World.Step.quiet hstep he t'⟩,
    hQ w₁ a w₂ hrely hstep (World.Step.quiet hstep he t)⟩

end Effects

/-! ## Updates -/

/-- A failure that ends the delivery of its job. -/
def Raised.isTerminal : Raised → Bool
  | .worker error => !error.transient
  | _ => false

theorem Raised.isTerminal_of_not_worker {e : Raised} (h : e.isWorker = false) :
    e.isTerminal = false := by
  cases e with
  | worker => cases h
  | leaseLost => rfl
  | valueError => rfl
  | other => rfl

/-- The record of the attempt's own job. -/
structure Mine (j : Uuid) (t : String) (record : JobRecord) : Prop where
  id : record.id = j
  owner : record.leaseOwner = some t
  progress : record.progress ≤ record.state.stageProgress

/-- How a part of an attempt ends: with its own record, and either what it has reached, or a
failure. -/
def Reaches (j : Uuid) (t : String) (ok : Attempt → World → Prop) (failure : Raised → Prop)
    (r : Except Raised Unit) (l : Attempt) (w : World) : Prop :=
  Mine j t l.record ∧ match r with
    | .ok _ => ok l w
    | .error e => failure e

/-- A state that may follow leaves only stages behind that the stored one had, or that one. -/
theorem before_of_admits {state next stage : JobState} (hadmits : updateAdmits state next)
    (hbefore : stage.Before next) : stage.Before state ∨ stage = state ∧ state ≠ .queued := by
  revert hadmits hbefore
  cases state <;> cases next <;> cases stage <;> decide

section Attempt

variable {files : String → ℤ} {j : Uuid} {t : String} {state next : JobState} {w : World}
  {l : Attempt} {config : WorkerConfig}

/-- **An update** that advances the job is stored if it returns, and raises no terminal failure. -/
theorem wp_advance {ℓ : Type} {l : ℓ} {record : JobRecord}
    {Q : Except Raised Unit → ℓ → World → Prop}
    (hadvances : ∀ w₁, World.Relies t w w₁ → w₁.Inv → w₁.Advances t record)
    (hQ : ∀ a w₂, (a = .ok () → ∃ row, w₂.db.jobs record.id = some row ∧ row.state = record.state) →
      (∀ e, a = .error e → e.isTerminal = false) → Q a l w₂) :
    (call (.update record) rfl : WorkerRoutine ℓ Unit).wp (attemptSetting files t) Q l w := by
  rw [wp_call]
  rintro w₁ ⟨hrely, hinv₁⟩ a w₂ hstep
  have hadv := hadvances w₁ hrely hinv₁
  have hothers : ∀ t' ≠ t, World.Relies t' w₁ w₂ := fun t' ht' => World.Step.relies hstep ht'.symm
    fun htoken => ht' (Option.some.inj (htoken.symm.trans hadv.owner))
  refine ⟨⟨?_, hothers⟩, hQ a w₂ ?_ ?_⟩
  · exact World.Step.update_inv hstep hinv₁ hadv
  · rintro rfl
    obtain ⟨row, hrow, hstate⟩ := World.Step.update_ok hstep
    exact ⟨row, hrow, hstate⟩
  · rintro e rfl
    exact Raised.isTerminal_of_not_worker (World.Step.update_error hstep)

/-- A stored failure, or the completion of an upload, is an update that advances the job. -/
theorem advances_failed {record : JobRecord} (h : Mine j t record) (error : WorkerError)
    (report : Option Report) : w.Advances t { record with
      state := .failed, stage := .failed, error := some error, report := report } where
  owner := h.owner
  progress := h.progress.trans (stageProgress_le _).2
  handled _ _ _ _ _ hstage := absurd hstage.2 (Nat.not_lt_zero _)
  completed _ _ _ := nofun

theorem advances_of_passed {record : JobRecord} (h : Holding j t (Passed j t state) w)
    (hid : record.id = j) (howner : record.leaseOwner = some t)
    (hprogress : record.progress ≤ record.state.stageProgress)
    (hcompleted : record.state = .completed → state = .uploading) : w.Advances t record where
  owner := howner
  progress := hprogress
  handled row hrow hheld hadmits stage hstage := by
    obtain ⟨⟨rfl, -⟩, hhandled⟩ := h row (hid ▸ hrow) hheld
    obtain hbefore | ⟨rfl, hstarted⟩ := before_of_admits hadmits hstage
    · exact .inl hbefore
    · exact .inr (hid ▸ hhandled hstarted)
  completed row hrow hheld hc := by
    obtain ⟨⟨-, hlinked⟩, hhandled⟩ := h row (hid ▸ hrow) hheld
    obtain rfl := hcompleted hc
    exact ⟨hid ▸ hhandled nofun, hid ▸ hlinked rfl⟩

theorem Mine.of_record {record record' : JobRecord} (h : Mine j t record) (hid : record'.id = record.id)
    (howner : record'.leaseOwner = record.leaseOwner)
    (hprogress : record'.progress ≤ record'.state.stageProgress) : Mine j t record' :=
  ⟨hid.trans h.id, howner.trans h.owner, hprogress⟩

/-- **The next stage** of a stage that has been passed is entered. -/
theorem wp_enter (h : Mine j t l.record) (hpassed : Holding j t (Passed j t state) w)
    (hnext : next.isTerminal = false) :
    (moveTo next next.stageProgress).wp (attemptSetting files t)
      (Reaches j t (fun l w => l.record.state = next ∧ Holding j t (Entered next) w)
        fun e => e.isTerminal = false) l w := by
  simp only [moveTo, wp_bind, wp_get, wp_ofExcept]
  cases htransition : transition l.record next next.stageProgress with
  | error e =>
    exact ⟨h, Raised.isTerminal_of_not_worker (isWorker_of_transition htransition)⟩
  | ok record =>
    obtain ⟨-, -, -, rfl⟩ := transition_eq_ok.mp htransition
    have hmine : Mine j t { l.record with
        state := next, stage := next, progress := next.stageProgress } :=
      h.of_record rfl rfl le_rfl
    simp only [wp_bind, wp_modify]
    refine wp_advance (fun w₁ hrely _ => ?_) fun a w₂ hok herror => ⟨hmine, ?_⟩
    · refine advances_of_passed (hpassed.relies stable_passed hrely) h.id h.owner le_rfl fun hc => ?_
      obtain rfl : next = .completed := hc
      cases hnext
    · cases a with
      | ok _ =>
        refine ⟨rfl, fun row hrow _ => ?_⟩
        obtain ⟨row', hrow', hstate⟩ := hok rfl
        obtain rfl := Option.some.inj (hrow.symm.trans (h.id ▸ hrow'))
        exact hstate
      | error e => exact herror e rfl

/-! ## The upload -/

/-- The head of an object keeps what the attempt knows. -/
theorem wp_headStored {P : JobRow → World → Prop} {key : String} (h : Holding j t P w)
    (hP : Stable j P) : (headStored key).wp (attemptSetting files t)
      (fun r _ w => ∀ stored, r = .ok stored → Holding j t P w) () w := by
  unfold headStored
  rw [wp_bind, wp_handle]
  refine wp_quiet_call rfl fun w₁ a w₂ hr _ hr' => ?_
  cases a with
  | error e => exact nofun
  | ok head => exact fun _ _ => (h.relies hP hr).relies hP hr'

/-- **An upload** of the output puts the rendered file. -/
theorem wp_uploadStored {projectId : Uuid} {contentType : String}
    (h : Holding j t (Entered .uploading) w) :
    (uploadStored (outputStorageKey projectId j) contentType).wp (attemptSetting files t)
      (fun r _ w => ∀ stored, r = .ok stored → Holding j t
        (fun row w => Entered .uploading row w ∧ Put j projectId (files t) row w) w) () w := by
  unfold uploadStored
  rw [wp_bind, wp_handle]
  refine wp_step (fun _ _ => nofun) (fun w₁ a w₂ _ hinv hstep => hstep.inv hinv fun _ => nofun)
    fun w₁ a w₂ hr hinv hstep => ?_
  have h₁ := h.relies stable_entered hr
  cases hstep with
  | put =>
    cases a with
    | error e => exact nofun
    | ok _ =>
      refine wp_headStored (fun row hrow hheld => ⟨h₁ row hrow hheld, fun _ _ => ?_⟩)
        (stable_entered.and stable_put)
      exact Function.update_self ..
  | unput => exact nofun
  | answered h => exact h.elim
  | lost h => exact h.elim
  | interrupted h => exact h.elim
  | external h => cases h

/-- The size of the rendered file is that of the attempt. -/
theorem fileSize_eq {size : ℤ} {w' : World}
    (h : World.Step files t w .outputFileSize (.ok size) w') : size = files t := by
  cases h with
  | fileSize => rfl
  | answered h => exact h.elim
  | lost h => exact h.elim
  | interrupted h => exact h.elim
  | external h => cases h

/-- **A finalized output** that holds the put object is linked and stored. -/
theorem worked_of_finalizeOutput {record : JobRecord} {output : OutputAsset} {assetId : Uuid}
    {source : SourceAsset} {w' : World} (hid : record.id = j) (howner : record.leaseOwner = some t)
    (hsource : record.sourceAsset = some source) (hsize : output.sizeBytes = files t)
    (h : Holding j t (Put j source.projectId (files t)) w)
    (hstep : World.Step files t w (.finalizeOutput record output) (.ok assetId) w') :
    Holding j t (Worked j .uploading) w' := by
  subst hid
  cases hstep with
  | answered hcall =>
    obtain ⟨newId, hcall⟩ := hcall
    obtain ⟨token, source', row, a, htoken, hsource', hheld, hproject, hstate, hrow, hrow', hlinked,
      hasset⟩ := finalizeOutput_linked hcall
    obtain rfl := Option.some.inj (howner.symm.trans htoken)
    obtain rfl := Option.some.inj (hsource.symm.trans hsource')
    intro row' hr' _
    obtain rfl := Option.some.inj (hrow'.symm.trans hr')
    refine ⟨hstate, fun _ => ⟨a, hlinked, fun hstray => ?_⟩⟩
    have hkey : a.storageKey = outputStorageKey source.projectId record.id := by
      rw [hlinked.key.2]
      exact congrArg (outputStorageKey · record.id) hproject
    rw [hkey] at hstray ⊢
    exact (h row hrow hheld hproject hstray).trans (congrArg some (hsize.symm.trans hasset.symm))
  | lost h =>
    obtain ⟨_, h⟩ := h
    cases h
  | interrupted _ h =>
    obtain ⟨_, h⟩ := h
    cases h
  | external h => cases h

theorem sizeBytes_of_postInit {sizeBytes width height durationMs : ℤ} {contentType : String}
    {frameRate : ℚ} {output : OutputAsset}
    (h : OutputAsset.postInit sizeBytes contentType width height frameRate durationMs = .ok output) :
    output.sizeBytes = sizeBytes := by
  unfold OutputAsset.postInit at h
  split_ifs at h
  exact Except.ok.inj h ▸ rfl

/-- **The upload** links the stored output. -/
theorem wp_uploading {record : JobRecord} (hid : record.id = j) (howner : record.leaseOwner = some t)
    (h : Holding j t (Entered .uploading) w) : (uploading record).wp (attemptSetting files t)
      (fun r _ w => ∀ report, r = .ok report → Holding j t (Worked j .uploading) w) () w := by
  unfold uploading
  rw [wp_bind]
  refine wp_quiet_call rfl fun w₁ a w₂ hr₁ _ hr₂ => ?_
  replace h := (h.relies stable_entered hr₁).relies stable_entered hr₂
  obtain e | inputs := a
  · rintro _ ⟨⟩
  simp only [cast_eq, wp_bind]
  refine wp_quiet_call rfl fun w₃ a w₄ hr₃ _ hr₄ => ?_
  replace h := (h.relies stable_entered hr₃).relies stable_entered hr₄
  obtain e | output := a
  · rintro _ ⟨⟩
  simp only [cast_eq, wp_bind, wp_ofExcept]
  cases hsource : sourceOf record with
  | error e => rintro _ ⟨⟩
  | ok source =>
    have hsource' : record.sourceAsset = some source := by
      unfold sourceOf at hsource
      split at hsource
      · cases hsource
      · rename_i hs
        exact hs.trans (congrArg some (Except.ok.inj hsource))
    simp only [hid, wp_bind]
    refine wp_mono ?_ (wp_uploadStored h)
    rintro r _ w₅ hstored
    obtain e | stored := r
    · rintro _ ⟨⟩
    replace h := (hstored stored rfl).mono fun _ h => h.2
    simp only [wp_bind]
    refine wp_quiet_call rfl fun w₆ a w₇ hr₅ hstep hr₆ => ?_
    replace h := (h.relies stable_put hr₅).relies stable_put hr₆
    obtain e | size := a
    · rintro _ ⟨⟩
    obtain rfl := fileSize_eq hstep
    simp only [cast_eq]
    split_ifs with hverified
    · rintro _ ⟨⟩
    push Not at hverified
    simp only [wp_bind, wp_ofExcept]
    cases hasset : OutputAsset.postInit stored.sizeBytes (stored.contentType.getD "") output.width
        output.height output.frameRate output.durationMs with
    | error e => rintro _ ⟨⟩
    | ok asset =>
      have hsize := (sizeBytes_of_postInit hasset).trans hverified.2.1
      simp only [wp_bind]
      refine wp_step (fun t' ht' htoken => ht' (Option.some.inj (htoken.symm.trans howner)))
        (fun w₁ a w₂ _ hinv hstep => hstep.inv hinv fun _ => by rintro ⟨⟩) fun w₈ a w₉ hr₇ hinv hstep => ?_
      replace h := h.relies stable_put hr₇
      obtain e | assetId := a
      · rintro _ ⟨⟩
      replace h := worked_of_finalizeOutput hid howner hsource' hsize h hstep
      simp only [cast_eq, wp_bind]
      refine wp_quiet_call rfl fun w₁₀ a w₁₁ hr₈ _ hr₉ => ?_
      replace h := (h.relies stable_worked hr₈).relies stable_worked hr₉
      obtain e | report := a
      · rintro _ ⟨⟩
      exact fun _ _ => h

/-! ## The stages -/

theorem wp_handler {record : JobRecord} (hid : record.id = j) (howner : record.leaseOwner = some t)
    (h : Holding j t (Entered state) w) : (pipelineHandlers state record).wp (attemptSetting files t)
      (fun r _ w => ∀ report, r = .ok report → Holding j t (Worked j state) w) () w := by
  by_cases hstate : state = .uploading
  · subst hstate
    exact wp_uploading hid howner h
  have hhandler : pipelineHandlers state record = call (.runHandler state record) rfl := by
    cases state <;> first | rfl | exact absurd rfl hstate
  rw [hhandler]
  refine wp_quiet_call rfl fun w₁ a w₂ hr _ hr' report _ => ?_
  exact ((h.relies stable_entered hr).relies stable_entered hr').mono fun row hrow =>
    ⟨hrow, fun huploading => absurd huploading hstate⟩

theorem wp_ensureLease_holding {P : JobRow → World → Prop} (h : Holding j t P w) (hP : Stable j P) :
    ensureLease.wp (attemptSetting files t) (fun _ l' w => l' = l ∧ Holding j t P w) l w := by
  simp only [ensureLease, wp_bind]
  refine wp_quiet rfl fun w₁ a w₂ hr _ hr' => ?_
  have h₂ := (h.relies hP hr).relies hP hr'
  simp only
  split_ifs
  · exact ⟨rfl, h₂⟩
  · exact ⟨rfl, h₂⟩

theorem wp_publishDebug_holding {P : JobRow → World → Prop} (h : Holding j t P w)
    (hP : Stable j P) : (publishDebug config).wp (attemptSetting files t)
      (fun r l' w => r = .ok () ∧ l' = l ∧ Holding j t P w) l w := by
  simp only [publishDebug, wp_bind, wp_get]
  split_ifs
  · exact wp_quiet rfl fun w₁ a w₂ hr _ hr' => ⟨rfl, rfl, (h.relies hP hr).relies hP hr'⟩
  · exact ⟨rfl, rfl, h⟩

/-- **A handler that returns** has done the work of its stage. -/
theorem wp_runHandled_pipeline (h : Mine j t l.record) (hstate : l.record.state = state)
    (hentered : Holding j t (Entered state) w) :
    (runHandled config pipelineHandlers state).wp (attemptSetting files t)
      (Reaches j t (fun l w => l.record.state = state ∧ Holding j t (Worked j state) w)
        fun _ => True) l w := by
  simp only [runHandled, wp_bind, wp_get, wp_handle, wp_scope]
  refine wp_mono ?_ (wp_handler h.id h.owner hentered)
  rintro (e | report) _ w₁ hworked
  · simp only [wp_bind]
    refine wp_mono ?_ (wp_publishDebug_holding (holding_true j) stable_true)
    rintro _ _ w₂ ⟨rfl, rfl, -⟩
    exact ⟨h, trivial⟩
  · simp only [wp_bind, wp_modify]
    refine wp_mono ?_ (wp_ensureLease_holding (hworked report rfl) stable_worked)
    rintro (e | _) l₂ w₂ ⟨rfl, hworked₂⟩
    · simp only [wp_bind]
      refine wp_mono ?_ (wp_publishDebug_holding hworked₂ stable_worked)
      rintro _ _ w₃ ⟨rfl, rfl, -⟩
      exact ⟨h, trivial⟩
    · exact ⟨h, hstate, hworked₂⟩

/-- **The log entry** of a stage records that it is handled. -/
theorem passed_of_respond {w' : World}
    (h : Holding j t (Worked j state) w)
    (hstep : World.Step files t w (.stageResponse j t state) () w') :
    Holding j t (Passed j t state) w' := by
  cases hstep with
  | stageResponse =>
    unfold World.respond
    split_ifs with hheld
    · exact fun row hrow hrowheld => ⟨h row hrow hrowheld, fun _ => List.mem_cons_self⟩
    · intro row hrow hrowheld
      refine absurd ?_ hheld
      rw [hrow]
      exact decide_eq_true hrowheld
  | answered h => exact h.elim
  | lost h => exact h.elim
  | interrupted h => exact h.elim
  | external h => cases h

/-- An entered stage is handled, and passed. -/
theorem wp_handleStage {id : Uuid} (hid : id = j) (h : Mine j t l.record)
    (hstate : l.record.state = state) (hentered : Holding j t (Entered state) w) :
    (do runHandled config pipelineHandlers state
        perform (Effect.stageResponse id t state) : WorkerRoutine Attempt Unit).wp
      (attemptSetting files t)
      (Reaches j t (fun l w => l.record.state = state ∧ Holding j t (Passed j t state) w)
        fun _ => True) l w := by
  subst hid
  rw [wp_bind]
  refine wp_mono ?_ (wp_runHandled_pipeline h hstate hentered)
  rintro (e | _) l₁ w₁ ⟨hmine, hreached⟩
  · exact ⟨hmine, trivial⟩
  · obtain ⟨hstate₁, hworked⟩ := hreached
    refine wp_quiet rfl fun w₂ a w₃ hr hstep hr' => ⟨hmine, hstate₁, ?_⟩
    exact passed_of_respond (hworked.relies stable_worked hr) hstep

/-- **One stage** is passed. -/
theorem wp_runStage_pipeline {stage : JobState} (h : Mine j t l.record)
    (hstate : l.record.state = state) (hentered : Holding j t (Entered state) w)
    (hnext : state ≠ stage → Holding j t (Passed j t state) w ∧ stage.isTerminal = false) :
    (runStage config pipelineHandlers t stage stage.stageProgress).wp (attemptSetting files t)
      (Reaches j t (fun l w => l.record.state = stage ∧ Holding j t (Passed j t stage) w)
        fun _ => True) l w := by
  rw [runStage, wp_bind]
  by_cases hsame : state = stage
  · subst hsame
    refine wp_mono ?_ (wp_ensureLease_holding hentered stable_entered)
    rintro (e | _) l₁ w₁ ⟨rfl, hentered₁⟩
    · exact ⟨h, trivial⟩
    · simp only [wp_bind, wp_get, hstate, ne_eq, not_true_eq_false, if_false, wp_pure]
      exact wp_bind.mp (wp_handleStage h.id h hstate hentered₁)
  · obtain ⟨hpassed, hunfinished⟩ := hnext hsame
    refine wp_mono ?_ (wp_ensureLease_holding hpassed stable_passed)
    rintro (e | _) l₁ w₁ ⟨rfl, hpassed₁⟩
    · exact ⟨h, trivial⟩
    · simp only [wp_bind, wp_get, hstate, ne_eq, hsame, not_false_eq_true, if_true]
      refine wp_mono ?_ (wp_enter h hpassed₁ hunfinished)
      rintro (e | _) l₂ w₂ ⟨hmine, hreached⟩
      · exact ⟨hmine, trivial⟩
      · exact wp_handleStage h.id hmine hreached.1 hreached.2

/-- **The stages** from a state on are passed: the first may be that of the state itself, any other
one follows a stage that is passed. -/
theorem wp_runStages_pipeline {rest : List (JobState × ℤ)} (h : Mine j t l.record)
    (hstate : l.record.state = state) (hrest : Continues state rest)
    (hready : Holding j t (Passed j t state) w ∨
      Holding j t (Entered state) w ∧ ∃ progress rest', rest = (state, progress) :: rest') :
    (runStages config pipelineHandlers t rest).wp (attemptSetting files t)
      (Reaches j t (fun l w => l.record.state = .uploading ∧ Holding j t (Passed j t .uploading) w)
        fun _ => True) l w := by
  induction rest generalizing state l w with
  | nil =>
    obtain rfl : state = .uploading := hrest
    obtain hpassed | ⟨-, _, _, hnil⟩ := hready
    · exact ⟨h, hstate, hpassed⟩
    · cases hnil
  | cons stage rest ih =>
    obtain ⟨stage, progress⟩ := stage
    obtain ⟨-, hunfinished, -, rfl, -, hrest⟩ := hrest
    have hentered : Holding j t (Entered state) w := by
      obtain hpassed | ⟨hentered, -⟩ := hready
      · exact hpassed.mono fun _ h => h.1.1
      · exact hentered
    simp only [runStages, wp_bind]
    refine wp_mono ?_ (wp_runStage_pipeline h hstate hentered fun hne => ⟨?_, hunfinished⟩)
    · rintro (e | _) l₁ w₁ ⟨hmine, hreached⟩
      · exact ⟨hmine, trivial⟩
      · exact ih hmine hreached.1 hrest (.inl hreached.2)
    · obtain hpassed | ⟨-, _, _, hcons⟩ := hready
      · exact hpassed
      · exact absurd (Prod.mk.inj (List.cons.inj hcons).1).1.symm hne

/-- The job is finished. -/
def Finished (j : Uuid) (w : World) : Prop :=
  ∃ row, w.db.jobs j = some row ∧ row.state.isTerminal

/-- **An attempt that returns** has finished the job. -/
theorem wp_runAttempt_pipeline (h : Mine j t l.record) (hstate : l.record.state = state)
    (hentered : Holding j t (Entered state) w) :
    (runAttempt config pipelineHandlers t).wp (attemptSetting files t)
      (Reaches j t (fun _ w => Finished j w) fun _ => True) l w := by
  rw [runAttempt, wp_bind]
  refine wp_quiet_call rfl fun w₁ a w₂ hr _ hr' => ?_
  have hentered₂ := (hentered.relies stable_entered hr).relies stable_entered hr'
  obtain e | _ := a
  · exact ⟨h, trivial⟩
  simp only [cast_eq, wp_bind, wp_get, wp_ofExcept, hstate]
  cases hfrom : stagesFrom state with
  | error e => exact ⟨h, trivial⟩
  | ok rest =>
    obtain ⟨hrest, hhead⟩ := continues_of_stagesFrom hfrom
    have hready : Holding j t (Passed j t state) w₂ ∨ Holding j t (Entered state) w₂ ∧
        ∃ progress rest', rest = (state, progress) :: rest' := by
      obtain rfl | hhead := hhead
      · exact .inl (hentered₂.mono fun _ hrow => ⟨⟨hrow, by rintro ⟨⟩⟩, fun hne => absurd rfl hne⟩)
      · exact .inr ⟨hentered₂, hhead⟩
    simp only [wp_bind]
    refine wp_mono ?_ (wp_runStages_pipeline h hstate hrest hready)
    rintro (e | _) l₃ w₃ ⟨hmine, hreached⟩
    · exact ⟨hmine, trivial⟩
    obtain ⟨hstate₃, hpassed⟩ := hreached
    simp only [wp_bind]
    refine wp_mono ?_ (wp_publishDebug_holding hpassed stable_passed)
    rintro _ l₄ w₄ ⟨rfl, rfl, hpassed₄⟩
    simp only [wp_bind, wp_get, wp_ofExcept]
    cases htransition : transition l₄.record .completed 100 with
    | error e => exact ⟨hmine, trivial⟩
    | ok record =>
      obtain ⟨-, -, -, rfl⟩ := transition_eq_ok.mp htransition
      simp only [wp_bind, wp_modify]
      refine wp_advance (fun w₅ hrely _ => ?_) fun a w₆ hok _ => ?_
      · exact advances_of_passed (hpassed₄.relies stable_passed hrely) hmine.id hmine.owner le_rfl
          fun _ => rfl
      · refine ⟨hmine.of_record rfl rfl le_rfl, ?_⟩
        obtain e | _ := a
        · trivial
        · obtain ⟨row, hrow, hcompleted⟩ := hok rfl
          exact ⟨row, hmine.id ▸ hrow, by rw [hcompleted]; rfl⟩

/-! ## The end of an attempt -/

/-- How an attempt concludes: it returns with its job finished, or raises no terminal failure. -/
def Concludes {α : Type} (j : Uuid) (r : Except Raised α) (w : World) : Prop :=
  match r with
  | .ok _ => Finished j w
  | .error e => e.isTerminal = false

theorem wp_failWith_concludes (h : Mine j t l.record) (error : WorkerError) :
    (failWith error).wp (attemptSetting files t) (fun r _ w => Concludes j r w) l w := by
  simp only [failWith, wp_bind, wp_get, wp_ofExcept]
  cases hfail : fail l.record error with
  | error e => exact Raised.isTerminal_of_not_worker (isWorker_of_fail hfail)
  | ok record =>
    obtain ⟨-, rfl⟩ := fail_eq_ok.mp hfail
    refine wp_advance (fun w₁ _ _ => advances_failed h error _) fun a w₂ hok herror => ?_
    obtain e | _ := a
    · exact herror e rfl
    · obtain ⟨row, hrow, hfailed⟩ := hok rfl
      exact ⟨row, h.id ▸ hrow, by rw [hfailed]; rfl⟩

theorem wp_release_concludes {ℓ : Type} {l : ℓ} {Q : Except Raised Bool → ℓ → World → Prop}
    (hok : ∀ released w, Q (.ok released) l w)
    (herror : ∀ e w, e.isTerminal = false → Q (.error e) l w) :
    (call (.release j t) rfl : WorkerRoutine ℓ Bool).wp (attemptSetting files t) Q l w := by
  refine wp_step (fun t' ht' htoken => ht' (Option.some.inj htoken.symm))
    (fun _ _ _ _ hinv hstep => hstep.inv hinv fun _ => nofun) fun w₁ a w₂ _ _ hstep => ?_
  obtain e | released := a
  · exact herror e w₂ (Raised.isTerminal_of_not_worker hstep.release_error)
  · exact hok released w₂

/-- **A failure** of the attempt is stored, or raised to be retried. -/
theorem wp_recover (h : Mine j t l.record) (e : Raised) :
    (recover t j e).wp (attemptSetting files t) (fun r _ w => Concludes j r w) l w := by
  have hinternal : ∀ error : WorkerError, (handle (failWith error) fun e => do
        let _ ← call (.release j t) rfl
        raise e).wp (attemptSetting files t) (fun r _ w => Concludes j r w) l w := by
    intro error
    rw [wp_handle]
    refine wp_mono ?_ (wp_failWith_concludes h error)
    rintro (e | _) l₁ w₁ hconcludes
    · simp only [wp_bind]
      exact wp_release_concludes (fun _ _ => hconcludes) fun e' _ he' => he'
    · exact hconcludes
  cases e with
  | worker error =>
    by_cases htransient : error.transient
    · simp only [recover, htransient, if_true, wp_bind, wp_handle]
      have hraised : (Raised.worker error).isTerminal = false := by
        simp only [Raised.isTerminal, htransient, Bool.not_true]
      exact wp_release_concludes (fun _ _ => hraised) fun _ _ _ => hraised
    · simp only [recover, htransient, Bool.false_eq_true, if_false]
      exact wp_failWith_concludes h error
  | leaseLost => exact hinternal _
  | valueError => exact hinternal _
  | other => exact hinternal _

/-- **A claimed job** is finished, or left to be retried. -/
theorem wp_processClaimed_concludes (h : Mine j t l.record) (hstate : l.record.state = state)
    (hentered : Holding j t (Entered state) w) :
    (processClaimed config pipelineHandlers t j).wp (attemptSetting files t)
      (fun r _ w => Concludes j r w) l w := by
  unfold processClaimed
  rw [wp_bind, wp_get]
  simp only
  split
  · have hvalidating : (if l.record.state = .queued then moveTo .validating 10 else pure ()).wp
        (attemptSetting files t) (Reaches j t (fun _ _ => True) fun e => e.isTerminal = false) l w := by
      split_ifs with hqueued
      · obtain rfl : state = .queued := hstate.symm.trans hqueued
        have hpassed : Holding j t (Passed j t .queued) w :=
          hentered.mono fun _ hrow => ⟨⟨hrow, nofun⟩, fun hne => absurd rfl hne⟩
        refine wp_mono ?_ (wp_enter h hpassed rfl)
        rintro (e | _) l₁ w₁ ⟨hmine, hreached⟩
        · exact ⟨hmine, hreached⟩
        · exact ⟨hmine, trivial⟩
      · exact ⟨h, trivial⟩
    rw [wp_bind]
    refine wp_mono ?_ hvalidating
    rintro (e | _) l₁ w₁ ⟨hmine, hreached⟩
    · exact hreached
    · simp only [wp_bind]
      refine wp_mono ?_ (wp_failWith_concludes hmine _)
      rintro (e | _) l₂ w₂ hconcludes
      · exact hconcludes
      · exact hconcludes
  · rw [wp_bind, wp_handle]
    refine wp_mono ?_ (wp_runAttempt_pipeline h hstate hentered)
    rintro (e | _) l₁ w₁ ⟨hmine, hreached⟩
    · refine wp_mono ?_ (wp_recover hmine e)
      rintro (e | _) l₂ w₂ hconcludes
      · exact hconcludes
      · exact hconcludes
    · exact hreached

/-- The delivery of the job may be acknowledged. -/
def Settled (j : Uuid) (w : World) : Prop := w.db.jobs j = none ∨ Finished j w

/-- What the answer of `process` means for the delivery. -/
def Decided (j : Uuid) (r : Except Raised ProcessResult) (w : World) : Prop :=
  match r with
  | .ok (.action .ack) | .ok (.flag true) => Settled j w
  | .ok (.action .retry) | .ok (.flag false) => True
  | .error e => e.isTerminal = false

theorem decided_of_concludes {r : Except Raised ProcessResult} (h : Concludes j r w) :
    Decided j r w := by
  match r with
  | .ok (.action .ack) | .ok (.flag true) => exact .inr h
  | .ok (.action .retry) | .ok (.flag false) => trivial
  | .error e => exact h

/-- **Processing** keeps the invariant, and settles the job if its answer acknowledges the
delivery. -/
theorem wp_process_decides {task : JobTask} :
    (process config pipelineHandlers t task).wp (attemptSetting files t)
      (fun r _ w => Decided task.jobId r w) () w := by
  unfold process
  rw [wp_bind]
  refine wp_step (fun t' ht' htoken => ht' (Option.some.inj htoken.symm))
    (fun _ _ _ _ hinv hstep => hstep.inv hinv fun _ => nofun) fun w₁ a w₂ _ hinv hstep => ?_
  obtain e | claimed := a
  · exact Raised.isTerminal_of_not_worker hstep.claim_error
  cases claimed with
  | none =>
    simp only [cast_eq, wp_bind]
    refine wp_quiet_call rfl fun w₃ a w₄ _ hstep₄ _ => ?_
    obtain e | state := a
    · exact Raised.isTerminal_of_not_worker (World.Step.currentState_error hstep₄)
    have hmap := World.Step.currentState_ok hstep₄
    cases state with
    | none => exact .inl (Option.map_eq_none_iff.mp hmap)
    | some state =>
      obtain ⟨row, hrow, rfl⟩ := Option.map_eq_some_iff.mp hmap
      simp only [cast_eq]
      by_cases hterminal : row.state.isTerminal
      · simp only [hterminal, if_true]
        exact .inr ⟨row, hrow, hterminal⟩
      · simp only [hterminal, Bool.false_eq_true, if_false]
        trivial
  | some record =>
    obtain ⟨hid, howner, hprogress, row, hrow, hstate⟩ := hstep.claim_ok hinv
    have hentered : Holding task.jobId t (Entered record.state) w₂ := by
      intro row' hrow' _
      obtain rfl := Option.some.inj (hrow.symm.trans hrow')
      exact hstate
    simp only [cast_eq, wp_scope]
    refine wp_mono ?_ (wp_processClaimed_concludes ⟨hid, howner, hprogress⟩ rfl hentered)
    exact fun _ _ _ => decided_of_concludes

end Attempt

/-! ## Reachable worlds -/

namespace World

/-- The world before any attempt: every job has just been created. -/
def Initial (w : World) : Prop := ∀ j row, w.db.jobs j = some row → row.Created

variable {files : String → ℤ} {w : World} {c : Pool.Config String Effect Effect.Answer
  (Except Raised ProcessResult × Unit) World}

/-- **The invariant** holds in every world that the attempts reach. -/
theorem reachable_inv (hw : w.Initial) (hc : (attempts files).Reachable w c) : c.shared.Inv := by
  have henv : ∀ s s', discipline.inv s → (attempts files).env s s' →
      discipline.inv s' ∧ ∀ t, discipline.rely t s s' :=
    fun _ _ hinv henv => ⟨Env.inv hinv henv, Env.relies henv⟩
  refine (discipline.sound henv ?_ (fun j row hrow => jobInv_of_created (hw j row hrow))
    (fun _ => trivial) hc).1
  rintro t s _ - - ⟨config, task, rfl⟩
  exact Prog.wp_mono (fun _ _ _ => trivial) wp_process_decides

/-- **What a job has behind it.** However many attempts process the jobs, and whenever they stop,
lose their lease or fail: the handler of every stage that a job is past has returned in an attempt
that could still write; and a completed job was completed by an attempt whose upload had returned,
with its uploaded output linked. -/
theorem stages_handled (hw : w.Initial) (hc : (attempts files).Reachable w c) {j : Uuid}
    {row : JobRow} (hrow : c.shared.db.jobs j = some row) :
    (∀ stage, JobState.Before stage row.state → ∃ t, (j, t, stage) ∈ c.shared.handled) ∧
      (row.state = .completed → ∃ t a, c.shared.completedBy j = some t ∧
        (j, t, .uploading) ∈ c.shared.handled ∧ Linked c.shared.db j row a) := by
  have h := reachable_inv hw hc j row hrow
  refine ⟨h.handled, fun hcompleted => ?_⟩
  obtain ⟨t, a, ht, huploading, ha, -⟩ := h.completed hcompleted
  exact ⟨t, a, ht, huploading, ha⟩

/-! ## The created job -/

/-- The world of the created job. -/
def sample : World where
  db := sampleDatabase
  now := 0
  objects _ := none
  strays := ∅
  handled := []
  completedBy _ := none

def sampleMedia : MediaMetadata where
  width := 1920
  height := 1080
  durationMs := 2000
  frameRate := 30
  videoCodec := "h264"
  audioCodec := none
  rotation := 0
  hasAudio := false
  videoDuration := some 2
  audioStreamIndex := none

/-- The id of the output asset of the created job. -/
def sampleOutput : Uuid := ⟨"e2b5d5a4-52c1-4c0e-9a43-7f5d3c1b8e90", by decide⟩

/-- The created job after one attempt that nothing disturbs. -/
def sampleDone : World :=
  ((process sampleConfig pipelineHandlers "attempt" sampleTask ()).advance
    (serve (fun _ => 4096) sampleOutput sampleMedia "attempt") 100 sample).2

theorem sample_initial : sample.Initial := by
  intro j row hrow
  obtain ⟨-, hrow⟩ := Option.ite_none_right_eq_some.mp hrow
  obtain rfl := Option.some.inj hrow
  exact ⟨rfl, rfl, rfl, rfl⟩

/-- The attempt starts, and performs its effects undisturbed. -/
theorem sampleDone_reachable : ∃ c, (attempts fun _ => 4096).Reachable sample c ∧
    c.shared = sampleDone := by
  have hstart : (attempts fun _ => 4096).start "attempt" sample
      (process sampleConfig pipelineHandlers "attempt" sampleTask ()) :=
    ⟨sampleConfig, sampleTask, rfl⟩
  exact ⟨_, Pool.Reachable.init.launch rfl hstart
    (serve_step (fun _ => 4096) sampleOutput sampleMedia "attempt") 100, rfl⟩

/-- The completed job has been through every stage, and its output is linked. -/
theorem stages_handled_completed : ∃ row, sampleDone.db.jobs sampleJob = some row ∧
    row.state = .completed ∧
    (∀ stage, JobState.Before stage row.state → ∃ t, (sampleJob, t, stage) ∈ sampleDone.handled) ∧
      (row.state = .completed → ∃ t a, sampleDone.completedBy sampleJob = some t ∧
        (sampleJob, t, .uploading) ∈ sampleDone.handled ∧
          Linked sampleDone.db sampleJob row a) := by
  obtain ⟨c, hc, hshared⟩ := sampleDone_reachable
  have hcompleted : (sampleDone.db.jobs sampleJob).map (·.state) = some .completed := by
    decide +kernel
  obtain ⟨row, hrow, hstate⟩ := Option.map_eq_some_iff.mp hcompleted
  have h := stages_handled sample_initial hc (hshared ▸ hrow)
  rw [hshared] at h
  exact ⟨row, hrow, hstate, h⟩

end World

end BoulderFrame
