import BoulderFrame.Worker.Semantics

/-!
# How processing ends

While an attempt's lease stays live, the end of `process` is decided by the first thing that
raises: the scratch directory, or the handler of a stage. A failure is stored on the job, a
transient one releases it for a retry. The exception is a job that is still queued: the stored
state admits no failure, so a scratch directory that cannot be made is not recorded.

## Main definitions

* `Behaviour`: what the handlers of an attempt and its scratch directory do
* `Undisturbed`, `outcomeSetting`: an environment that leaves the attempt its lease
* `Behaviour.cause`, `Ended`: what raises first, and how processing has to end by it
* `Ends`: processing runs to its end, and every run ends so

## Main results

* `wp_runStages`: the stages run up to the first one that raises
* `process_ends_iff`: when processing ends as its cause demands
-/

namespace BoulderFrame

open Routine

/-- What the handler of each stage does, and the name of the exception that the scratch directory
raises, if it does. -/
structure Behaviour where
  handler : JobStage → Except Raised Report
  scratch : Option String

variable (j : Uuid) (t : String)

/-- The rest of the system leaves the job's row alone, and a live lease of the attempt stays live;
the attempt's own work may renew it and link its output. -/
structure Undisturbed (s s₁ : Clocked) : Prop where
  now : s.now ≤ s₁.now
  assets : AssetTable.Grows s.db.assets s₁.db.assets
  held : ∀ row, s.db.jobs j = some row → row.HeldBy t s.now → ∃ expires output,
    s₁.db.jobs j = some { row with leaseExpiresAt := expires, outputAssetId := output } ∧
      JobRow.HeldBy { row with leaseExpiresAt := expires, outputAssetId := output } t s₁.now
  free : ∀ row, s.db.jobs j = some row → ¬ row.HeldBy t s.now → s₁.db.jobs j = some row

theorem Undisturbed.rfl {s : Clocked} : Undisturbed j t s s :=
  ⟨le_rfl, .rfl, fun row hrow hheld => ⟨row.leaseExpiresAt, row.outputAssetId, hrow, hheld⟩,
    fun _ hrow _ => hrow⟩

/-- The effects of an attempt whose lease stays live: calls on the repository succeed exactly as
their guards allow, the heartbeat never fails, and the rest behaves as given. -/
def outcomeSem (b : Behaviour) : (e : Effect) → Clocked → e.Answer → Clocked → Prop
  | .makeScratch, s, a, s' =>
    a = (match b.scratch with | none => .ok () | some name => .error (.other name)) ∧ s' = s
  | .heartbeatFailed, s, a, s' => a = false ∧ s' = s
  | .runHandler stage _, s, a, s' => a = b.handler stage ∧ Undisturbed j t s s'
  | .publishReview _, s, _, s' => Undisturbed j t s s'
  | .claim jobId attemptId leaseSeconds, s, a, s' =>
    Effect.Calls s (.claim jobId attemptId leaseSeconds) a s'.db ∧ s'.now = s.now
  | .currentState jobId, s, a, s' => Effect.Calls s (.currentState jobId) a s'.db ∧ s'.now = s.now
  | .update record, s, a, s' => Effect.Calls s (.update record) a s'.db ∧ s'.now = s.now
  | .release jobId attemptId, s, a, s' =>
    Effect.Calls s (.release jobId attemptId) a s'.db ∧ s'.now = s.now
  | .finalizeOutput record output, s, a, s' =>
    Effect.Calls s (.finalizeOutput record output) a s'.db ∧ s'.now = s.now
  | _, s, _, s' => s' = s

def outcomeSetting (b : Behaviour) : Setting Effect Effect.Answer Clocked where
  rely := Undisturbed j t
  sem := outcomeSem j t b
  guar _ _ := True

/-! ## How processing has to end -/

/-- The first stage whose handler raises, with what it raises. -/
def Behaviour.firstFailure (b : Behaviour) : List (JobState × ℤ) → Option (JobState × Raised)
  | [] => none
  | (stage, _) :: rest =>
    match b.handler stage with
    | .error e => some (stage, e)
    | .ok _ => b.firstFailure rest

/-- What raises in the attempt itself: the scratch directory, or the first stage that fails. -/
def Behaviour.failure (b : Behaviour) (state : JobState) : Option (JobState × Raised) :=
  match b.scratch with
  | some name => some (state, .other name)
  | none => match stagesFrom state with
    | .ok rest => b.firstFailure rest
    | .error e => some (state, e)

def modelMismatch : WorkerError := .terminal .modelUnavailable
  "This job requires a different model version than this worker provides." none

/-- What ends the attempt at a job, with the stage it ends in; `none` if every stage is done. -/
def Behaviour.cause (b : Behaviour) (config : WorkerConfig) (row : JobRow) :
    Option (JobState × Raised) :=
  if row.configuration.modelVersion ≠ config.modelVersion then
    some (.validating, .worker modelMismatch)
  else b.failure row.state

/-- The code that a failure is stored with. -/
def Raised.code : Raised → ErrorCode
  | .worker error => error.code
  | _ => .internal

/-- A failure that is retried. -/
def Raised.isTransient : Raised → Bool
  | .worker error => error.transient
  | _ => false

/-- The exception: the scratch directory of a queued job cannot be made. -/
def Behaviour.Unrecorded (b : Behaviour) (config : WorkerConfig) (row : JobRow) : Prop :=
  row.state = .queued ∧ b.scratch.isSome ∧ row.configuration.modelVersion = config.modelVersion

instance (b : Behaviour) (config : WorkerConfig) (row : JobRow) :
    Decidable (b.Unrecorded config row) := inferInstanceAs (Decidable (_ ∧ _))

/-- How processing has to end by its cause: with the job completed, failed, or released in the
stage that failed. -/
def Ended (cause : Option (JobState × Raised)) (r : Except Raised ProcessResult) (s : Clocked) :
    Prop :=
  ∃ row, s.db.jobs j = some row ∧
    match cause with
    | none => r = .ok (.flag true) ∧ row.state = .completed
    | some (stage, e) =>
      if e.isTransient then
        r = .error e ∧ row.state = stage ∧ row.leaseOwner = none ∧ row.leaseExpiresAt = none
      else r = .ok (.flag true) ∧ row.state = .failed ∧ row.errorCode = some e.code

/-! ## The attempt at work -/

/-- The attempt holds the job in the given state, and its record says so. -/
structure Working (state : JobState) (record : JobRecord) (s : Clocked) : Prop where
  id : record.id = j
  owner : record.leaseOwner = some t
  state_eq : record.state = state
  progress : 0 ≤ record.progress ∧ record.progress ≤ state.stageProgress
  row : ∃ row, s.db.jobs j = some row ∧ row.HeldBy t s.now ∧ row.state = state ∧
    row.progress = record.progress

variable {j t} {b : Behaviour} {config : WorkerConfig} {state : JobState} {l : Attempt}
  {s s₁ : Clocked}

theorem Working.undisturbed {record : JobRecord} (h : Working j t state record s)
    (hs : Undisturbed j t s s₁) : Working j t state record s₁ := by
  obtain ⟨row, hrow, hheld, hstate, hprogress⟩ := h.row
  obtain ⟨expires, output, hrow₁, hheld₁⟩ := hs.held row hrow hheld
  exact ⟨h.id, h.owner, h.state_eq, h.progress, ⟨_, hrow₁, hheld₁, hstate, hprogress⟩⟩

/-- **An update that the state admits** is written, and the lease is kept unless the job ends. -/
theorem wp_update {ℓ : Type} {l : ℓ} {record record' : JobRecord}
    {Q : Except Raised Unit → ℓ → Clocked → Prop} (h : Working j t state record s)
    (hid : record'.id = j) (howner : record'.leaseOwner = some t)
    (hadmits : updateAdmits state record'.state) (hstage : record'.stage = record'.state)
    (hprogress : record.progress ≤ record'.progress ∧ record'.progress ≤ 100)
    (hcompleted : record'.state = .completed → record'.progress = 100)
    (hQ : ∀ s₂ row', s₂.db.jobs j = some row' → row'.state = record'.state →
      row'.progress = record'.progress → row'.errorCode = record'.error.map (·.code) →
      (record'.state.isTerminal = false → row'.HeldBy t s₂.now) → Q (.ok ()) l s₂) :
    (call (.update record') rfl : WorkerRoutine ℓ Unit).wp (outcomeSetting j t b) Q l s := by
  rw [wp_call]
  rintro s₁ hrely a s₂ ⟨hcall, hnow⟩
  obtain ⟨row, hrow, hheld, hstate, hrowprogress⟩ := (h.undisturbed hrely).row
  obtain ⟨row', hupdate, hstate', hprogress', hcode, hheld'⟩ := update_of_held
    (hid ▸ hrow) howner hheld (hstate ▸ hadmits) hstage (hrowprogress ▸ hprogress.1)
    ⟨h.progress.1.trans hprogress.1, hprogress.2⟩ hcompleted
  obtain ⟨rfl, hdb⟩ := Prod.mk.inj (hcall.symm.trans hupdate)
  refine ⟨trivial, hQ s₂ row' ?_ hstate' hprogress' hcode fun hterminal => ?_⟩
  · rw [hdb, hid, Database.setJob_jobs_self]
  · rw [hnow]
    exact hheld' hterminal

/-- **The next state** is stored and held. -/
theorem wp_moveTo {next : JobState} (h : Working j t state l.record s)
    (hadmits : updateAdmits state next) (hallowed : next ∈ allowedTransitions state)
    (hunfinished : next.isTerminal = false) (hle : state.stageProgress ≤ next.stageProgress) :
    (moveTo next next.stageProgress).wp (outcomeSetting j t b)
      (fun r l s => r = .ok () ∧ Working j t next l.record s) l s := by
  have hprogress := h.progress.2.trans hle
  have hne : next ≠ .completed := by
    rintro rfl
    cases hunfinished
  have htransition : transition l.record next next.stageProgress =
      .ok { l.record with state := next, stage := next, progress := next.stageProgress } :=
    transition_eq_ok.mpr ⟨h.state_eq ▸ hallowed, ⟨hprogress, stageProgress_le next⟩,
      fun hc => absurd hc hne, rfl⟩
  simp only [moveTo, wp_bind, wp_get, wp_ofExcept, htransition, wp_modify]
  refine wp_update h h.id h.owner hadmits rfl ⟨hprogress, (stageProgress_le next).2⟩
    (fun hc => absurd hc hne) fun s₂ row' hrow' hstate hrowprogress _ hheld => ⟨rfl, ?_⟩
  exact ⟨h.id, h.owner, rfl, ⟨(stageProgress_le next).1, le_rfl⟩,
    ⟨row', hrow', hheld hunfinished, hstate, hrowprogress⟩⟩

theorem fail_ok {record : JobRecord} (h : Working j t state record s)
    (hunfinished : state.isTerminal = false) (error : WorkerError) :
    fail record error = .ok { record with state := .failed, stage := .failed, error := some error } :=
  fail_eq_ok.mpr ⟨h.state_eq ▸ hunfinished, rfl⟩

theorem progress_le_hundred {record : JobRecord} (h : Working j t state record s) :
    record.progress ≤ 100 := h.progress.2.trans (stageProgress_le state).2

/-- **A failure** of a started job is stored. -/
theorem wp_failWith (h : Working j t state l.record s) (hunfinished : state.isTerminal = false)
    (hstarted : state ≠ .queued) (error : WorkerError) :
    (failWith error).wp (outcomeSetting j t b)
      (fun r _ s => r = .ok () ∧ ∃ row, s.db.jobs j = some row ∧ row.state = .failed ∧
        row.errorCode = some error.code) l s := by
  have hle := progress_le_hundred h
  simp only [failWith, wp_bind, wp_get, wp_ofExcept, fail_ok h hunfinished]
  exact wp_update h h.id h.owner (updateAdmits_failed state hunfinished hstarted) rfl
    ⟨le_rfl, hle⟩ (by rintro ⟨⟩)
    fun s₂ row' hrow' hstate _ hcode _ => ⟨rfl, row', hrow', hstate, hcode⟩

/-- **A failure of a queued job** is refused: nothing has been stored that may fail. -/
theorem wp_failWith_queued (h : Working j t .queued l.record s) (error : WorkerError) :
    (failWith error).wp (outcomeSetting j t b)
      (fun r l' s => r = .error jobStateChanged ∧ Working j t .queued l.record s ∧ l' = l) l s := by
  simp only [failWith, wp_bind, wp_get, wp_ofExcept, fail_ok h rfl]
  rw [wp_call]
  rintro s₁ hrely a s₂ ⟨hcall, hnow⟩
  obtain ⟨row, hrow, hheld, hstate, hprogress⟩ := (h.undisturbed hrely).row
  have hadmits : ¬ updateAdmits row.state .failed := by
    rw [hstate]
    decide
  obtain ⟨rfl, hdb⟩ := Prod.mk.inj (hcall.symm.trans
    (update_refused (h.id ▸ hrow) h.owner hadmits))
  refine ⟨trivial, rfl, ⟨h.id, h.owner, h.state_eq, h.progress, row, ?_, ?_, hstate, hprogress⟩, rfl⟩
  · rw [hdb]
    exact hrow
  · rw [hnow]
    exact hheld

/-- A release leaves the unfinished job where it is, without its lease. -/
theorem wp_release {ℓ : Type} {l : ℓ} {record : JobRecord} {Q : Except Raised Bool → ℓ → Clocked → Prop}
    (h : Working j t state record s) (hunfinished : state.isTerminal = false)
    (hQ : ∀ s₂ row, s₂.db.jobs j = some row → row.state = state → row.leaseOwner = none →
      row.leaseExpiresAt = none → Q (.ok true) l s₂) :
    (call (.release j t) rfl : WorkerRoutine ℓ Bool).wp (outcomeSetting j t b) Q l s := by
  rw [wp_call]
  rintro s₁ hrely a s₂ ⟨hcall, hnow⟩
  obtain ⟨row, hrow, hheld, rfl, hprogress⟩ := (h.undisturbed hrely).row
  have hcheck : progressCheck row := by
    rw [progressCheck, hprogress]
    exact ⟨h.progress.1, progress_le_hundred h⟩
  obtain ⟨rfl, hdb⟩ := Prod.mk.inj
    (hcall.symm.trans (release_of_owner hrow hheld.1 hunfinished hcheck))
  exact ⟨trivial, hQ s₂ { row with leaseOwner := none, leaseExpiresAt := none }
    (by rw [hdb, Database.setJob_jobs_self]) rfl rfl rfl⟩

/-- The review leaves the attempt at work. -/
theorem wp_publishDebug (h : Working j t state l.record s) :
    (publishDebug config).wp (outcomeSetting j t b)
      (fun r l' s => r = .ok () ∧ l' = l ∧ Working j t state l.record s) l s := by
  simp only [publishDebug, wp_bind, wp_get]
  split_ifs
  · rw [wp_perform]
    rintro s₁ hrely a s₂ hs
    exact ⟨trivial, rfl, rfl, (h.undisturbed hrely).undisturbed hs⟩
  · exact ⟨rfl, rfl, h⟩

theorem wp_ensureLease (h : Working j t state l.record s) :
    ensureLease.wp (outcomeSetting j t b)
      (fun r l' s => r = .ok () ∧ l' = l ∧ Working j t state l.record s) l s := by
  simp only [ensureLease, wp_bind]
  rw [wp_perform]
  rintro s₁ hrely a s₂ ⟨rfl, rfl⟩
  exact ⟨trivial, rfl, rfl, h.undisturbed hrely⟩

/-- **A handled stage** raises what its handler raises. -/
theorem wp_runHandled (h : Working j t state l.record s) :
    (runHandled config plainHandlers state).wp (outcomeSetting j t b)
      (fun r l' s => (match b.handler state with
        | .ok _ => r = .ok ()
        | .error e => r = .error e) ∧ Working j t state l'.record s) l s := by
  simp only [runHandled, plainHandlers, wp_bind, wp_get, wp_handle, wp_scope]
  rw [wp_call]
  rintro s₁ hrely a s₂ ⟨rfl, hs⟩
  have h₂ := (h.undisturbed hrely).undisturbed hs
  refine ⟨trivial, ?_⟩
  cases b.handler state with
  | ok report =>
    simp only [cast_eq, wp_bind, wp_modify]
    refine wp_mono ?_ (wp_ensureLease h₂)
    rintro r l' s' ⟨rfl, rfl, h'⟩
    exact ⟨trivial, h'⟩
  | error e =>
    simp only [cast_eq, wp_bind]
    refine wp_mono ?_ (wp_publishDebug h₂)
    rintro r l' s' ⟨rfl, rfl, h'⟩
    exact ⟨rfl, h'⟩

/-- What the first failure of some stages makes of an attempt. -/
def StageEnds (j : Uuid) (t : String) (failure : Option (JobState × Raised)) (last : JobState)
    (r : Except Raised Unit) (l : Attempt) (s : Clocked) : Prop :=
  match failure with
  | none => r = .ok () ∧ Working j t last l.record s
  | some (stage, e) => r = .error e ∧ Working j t stage l.record s

/-- **One stage** is entered, if it is not the current one, and handled. -/
theorem wp_runStage {stage : JobState} (h : Working j t state l.record s)
    (hnext : state = stage ∨ updateAdmits state stage ∧ stage ∈ allowedTransitions state)
    (hunfinished : stage.isTerminal = false) (hle : state.stageProgress ≤ stage.stageProgress) :
    (runStage config plainHandlers t stage stage.stageProgress).wp (outcomeSetting j t b)
      (StageEnds j t (match b.handler stage with
        | .ok _ => none
        | .error e => some (stage, e)) stage) l s := by
  rw [runStage, wp_bind]
  refine wp_mono ?_ (wp_ensureLease h)
  rintro _ l₁ s₁ ⟨rfl, rfl, h₁⟩
  simp only [wp_bind, wp_get]
  have henter : (if l₁.record.state ≠ stage then moveTo stage stage.stageProgress else pure ()).wp
      (outcomeSetting j t b) (fun r l s => r = .ok () ∧ Working j t stage l.record s) l₁ s₁ := by
    by_cases hsame : state = stage
    · rw [if_neg (not_not.mpr (h₁.state_eq.trans hsame))]
      exact ⟨rfl, hsame ▸ h₁⟩
    · obtain ⟨hadmits, hallowed⟩ := hnext.resolve_left hsame
      rw [if_pos fun heq => hsame (h₁.state_eq.symm.trans heq)]
      exact wp_moveTo h₁ hadmits hallowed hunfinished hle
  refine wp_mono ?_ henter
  rintro _ l₂ s₂ ⟨rfl, h₂⟩
  simp only [wp_bind]
  refine wp_mono ?_ (wp_runHandled h₂)
  rintro r l₃ s₃ ⟨hr, h₃⟩
  cases hb : b.handler stage with
  | ok report =>
    obtain rfl : r = .ok () := by simpa only [hb] using hr
    simp only
    rw [wp_perform]
    rintro s₄ hrely a s₅ rfl
    exact ⟨trivial, rfl, h₃.undisturbed hrely⟩
  | error e =>
    obtain rfl : r = .error e := by simpa only [hb] using hr
    exact ⟨rfl, h₃⟩

/-- **The stages** run up to the first one that raises. -/
theorem wp_runStages {rest : List (JobState × ℤ)} (h : Working j t state l.record s)
    (hrest : Continues state rest) :
    (runStages config plainHandlers t rest).wp (outcomeSetting j t b)
      (StageEnds j t (b.firstFailure rest) .uploading) l s := by
  induction rest generalizing state l s with
  | nil =>
    obtain rfl : state = .uploading := hrest
    exact ⟨rfl, h⟩
  | cons stage rest ih =>
    obtain ⟨stage, progress⟩ := stage
    obtain ⟨hnext, hunfinished, -, rfl, hle, hrest⟩ := hrest
    simp only [runStages, wp_bind]
    refine wp_mono ?_ (wp_runStage h hnext hunfinished hle)
    intro r l₁ s₁ hr
    simp only [Behaviour.firstFailure]
    cases hb : b.handler stage with
    | ok report =>
      simp only [hb] at hr
      obtain ⟨rfl, h₁⟩ := hr
      exact ih h₁ hrest
    | error e =>
      simp only [hb] at hr
      obtain ⟨rfl, h₁⟩ := hr
      exact ⟨rfl, h₁⟩

/-- **The attempt** completes the job unless something raises. -/
theorem wp_runAttempt (h : Working j t state l.record s) (hunfinished : state.isTerminal = false) :
    (runAttempt config plainHandlers t).wp (outcomeSetting j t b)
      (fun r l s => match b.failure state with
        | none => r = .ok () ∧ ∃ row, s.db.jobs j = some row ∧ row.state = .completed
        | some (stage, e) => r = .error e ∧ Working j t stage l.record s) l s := by
  obtain ⟨rest, hfrom, hrest⟩ := stagesFrom_continues hunfinished
  simp only [runAttempt, wp_bind, Behaviour.failure, hfrom]
  rw [wp_call]
  rintro s₁ hrely a s₂ ⟨rfl, rfl⟩
  have h₂ := h.undisturbed hrely
  refine ⟨trivial, ?_⟩
  cases b.scratch with
  | some name => exact ⟨rfl, h₂⟩
  | none =>
    simp only [cast_eq, wp_bind, wp_get, wp_ofExcept, h₂.state_eq, hfrom]
    refine wp_mono ?_ (wp_runStages h₂ hrest)
    intro r l₃ s₃ hr
    cases hfail : b.firstFailure rest with
    | some failure =>
      rw [hfail] at hr
      obtain ⟨rfl, h₃⟩ := hr
      exact ⟨rfl, h₃⟩
    | none =>
      rw [hfail] at hr
      obtain ⟨rfl, h₃⟩ := hr
      simp only [wp_bind]
      refine wp_mono ?_ (wp_publishDebug h₃)
      rintro _ l₄ s₄ ⟨rfl, rfl, h₄⟩
      have hprogress := h₄.progress.2.trans (stageProgress_le .uploading).2
      have htransition : transition l₄.record .completed 100 =
          .ok { l₄.record with state := .completed, stage := .completed, progress := 100 } :=
        transition_eq_ok.mpr ⟨by rw [h₄.state_eq]; decide, ⟨hprogress, by decide, by decide⟩,
          fun _ => rfl, rfl⟩
      simp only [wp_bind, wp_get, wp_ofExcept, htransition, wp_modify]
      exact wp_update h₄ h₄.id h₄.owner (updateAdmits_completed) rfl ⟨hprogress, le_rfl⟩ (fun _ => rfl)
        fun s₅ row' hrow' hstate _ _ _ => ⟨rfl, row', hrow', hstate⟩

/-- A transient failure releases the job in its stage. -/
theorem wp_recover_transient {e : Raised} (h : Working j t state l.record s)
    (hunfinished : state.isTerminal = false) (htransient : e.isTransient = true) :
    (recover t j e).wp (outcomeSetting j t b) (fun r _ s => r = .error e ∧
      ∃ row, s.db.jobs j = some row ∧ row.state = state ∧ row.leaseOwner = none ∧
        row.leaseExpiresAt = none) l s := by
  cases e with
  | worker error =>
    have herror : error.transient = true := htransient
    simp only [recover, herror, if_true, wp_bind, wp_handle]
    exact wp_release h hunfinished fun s₂ row hrow hstate howner hexpires =>
      ⟨rfl, row, hrow, hstate, howner, hexpires⟩
  | leaseLost => cases htransient
  | valueError => cases htransient
  | other => cases htransient

/-- **Any other failure** of a started job is stored on it. -/
theorem wp_recover_failed {e : Raised} (h : Working j t state l.record s)
    (hunfinished : state.isTerminal = false) (hstarted : state ≠ .queued)
    (htransient : e.isTransient = false) :
    (recover t j e).wp (outcomeSetting j t b) (fun r _ s => r = .ok () ∧
      ∃ row, s.db.jobs j = some row ∧ row.state = .failed ∧ row.errorCode = some e.code) l s := by
  have hinternal : ∀ error : WorkerError, error.code = .internal →
      (handle (failWith error) fun e => do
        let _ ← call (.release j t) rfl
        raise e).wp (outcomeSetting j t b) (fun r _ s => r = .ok () ∧
          ∃ row, s.db.jobs j = some row ∧ row.state = .failed ∧
            row.errorCode = some .internal) l s := by
    intro error hcode
    rw [wp_handle]
    refine wp_mono ?_ (wp_failWith h hunfinished hstarted error)
    rintro _ l' s' ⟨rfl, row, hrow, hstate, hrowcode⟩
    exact ⟨rfl, row, hrow, hstate, hcode ▸ hrowcode⟩
  cases e with
  | worker error =>
    have herror : error.transient = false := htransient
    simp only [recover, herror, Bool.false_eq_true, if_false]
    exact wp_failWith h hunfinished hstarted error
  | leaseLost => exact hinternal _ rfl
  | valueError => exact hinternal _ rfl
  | other => exact hinternal _ rfl

/-- **A scratch directory that fails a queued job** is not recorded: the update is refused, and
the job is released to be queued again. -/
theorem wp_recover_queued {name : String} (h : Working j t .queued l.record s) :
    (recover t j (.other name)).wp (outcomeSetting j t b) (fun r _ s => r = .error jobStateChanged ∧
      ∃ row, s.db.jobs j = some row ∧ row.state = .queued) l s := by
  simp only [recover, wp_handle]
  refine wp_mono ?_ (wp_failWith_queued h _)
  rintro _ l' s' ⟨rfl, h', rfl⟩
  simp only [wp_bind]
  exact wp_release h' rfl fun s₂ row hrow hstate _ _ => ⟨rfl, row, hrow, hstate⟩

/-- A stage that fails has been started. -/
theorem firstFailure_started {rest : List (JobState × ℤ)} {stage : JobState} {e : Raised}
    (hrest : Continues state rest) (h : b.firstFailure rest = some (stage, e)) :
    stage.isTerminal = false ∧ stage ≠ .queued := by
  induction rest generalizing state with
  | nil => cases h
  | cons first rest ih =>
    obtain ⟨-, hunfinished, hstarted, -, -, hrest⟩ := hrest
    simp only [Behaviour.firstFailure] at h
    split at h
    · obtain ⟨rfl, -⟩ := Prod.mk.inj (Option.some.inj h)
      exact ⟨hunfinished, hstarted⟩
    · exact ih hrest h

/-- **The attempt and its recovery** end the job as the attempt's failure demands, unless a queued
job has no scratch directory. -/
theorem wp_recovered (h : Working j t state l.record s) (hunfinished : state.isTerminal = false) :
    (do handle (runAttempt config plainHandlers t) (recover t j)
        pure (ProcessResult.flag true) : WorkerRoutine Attempt ProcessResult).wp
      (outcomeSetting j t b) (fun r _ s =>
        if state = .queued ∧ b.scratch.isSome then
          r = .error jobStateChanged ∧ ∃ row, s.db.jobs j = some row ∧ row.state = .queued
        else Ended j (b.failure state) r s) l s := by
  obtain ⟨rest, hfrom, hrest⟩ := stagesFrom_continues hunfinished
  rw [wp_bind, wp_handle]
  refine wp_mono ?_ (wp_runAttempt h hunfinished)
  intro r l₁ s₁ hr
  cases hscratch : b.scratch with
  | some name =>
    simp only [Behaviour.failure, hscratch] at hr ⊢
    obtain ⟨rfl, h₁⟩ := hr
    by_cases hqueued : state = .queued
    · subst hqueued
      simp only [Option.isSome_some, and_self, if_true]
      refine wp_mono ?_ (wp_recover_queued h₁)
      rintro _ l₂ s₂ ⟨rfl, hrow⟩
      exact ⟨rfl, hrow⟩
    · simp only [hqueued, false_and, if_false]
      refine wp_mono ?_ (wp_recover_failed h₁ hunfinished hqueued rfl)
      rintro _ l₂ s₂ ⟨rfl, row, hrow, hstate, hcode⟩
      exact ⟨row, hrow, rfl, hstate, hcode⟩
  | none =>
    simp only [Behaviour.failure, hscratch, hfrom, Option.isSome_none, Bool.false_eq_true, and_false,
      if_false] at hr ⊢
    cases hfail : b.firstFailure rest with
    | none =>
      simp only [hfail] at hr
      obtain ⟨rfl, row, hrow, hstate⟩ := hr
      exact ⟨row, hrow, rfl, hstate⟩
    | some failure =>
      obtain ⟨stage, e⟩ := failure
      simp only [hfail] at hr
      obtain ⟨rfl, h₁⟩ := hr
      obtain ⟨hstage, hstarted⟩ := firstFailure_started hrest hfail
      by_cases htransient : e.isTransient
      · refine wp_mono ?_ (wp_recover_transient h₁ hstage htransient)
        rintro _ l₂ s₂ ⟨rfl, row, hrow, hstate, howner, hexpires⟩
        refine ⟨row, hrow, ?_⟩
        simp only [htransient, if_true]
        exact ⟨trivial, hstate, howner, hexpires⟩
      · refine wp_mono ?_ (wp_recover_failed h₁ hstage hstarted (by simpa using htransient))
        rintro _ l₂ s₂ ⟨rfl, row, hrow, hstate, hcode⟩
        refine ⟨row, hrow, ?_⟩
        simp only [htransient]
        exact ⟨trivial, hstate, hcode⟩

/-- **A claimed job** of the worker's model runs its attempt, any other one fails. -/
theorem wp_processClaimed {row : JobRow} (h : Working j t row.state l.record s)
    (hconfiguration : l.record.configuration = some row.configuration)
    (hunfinished : row.state.isTerminal = false) :
    (processClaimed config plainHandlers t j).wp (outcomeSetting j t b)
      (fun r _ s => if b.Unrecorded config row then
          r = .error jobStateChanged ∧ ∃ row, s.db.jobs j = some row ∧ row.state = .queued
        else Ended j (b.cause config row) r s) l s := by
  unfold processClaimed
  rw [wp_bind, wp_get]
  simp only [hconfiguration, Option.any_some]
  by_cases hmodel : row.configuration.modelVersion = config.modelVersion
  · simp only [hmodel, ne_eq, not_true_eq_false, decide_false, Bool.false_eq_true, if_false,
      Behaviour.Unrecorded, and_true, Behaviour.cause]
    exact wp_recovered h hunfinished
  · have hrecorded : ¬ b.Unrecorded config row := fun hu => hmodel hu.2.2
    simp only [hmodel, if_neg hrecorded, ne_eq, not_false_eq_true, decide_true, if_true, wp_bind]
    have henter : (if l.record.state = .queued then moveTo .validating 10 else pure ()).wp
        (outcomeSetting j t b) (fun r l s => r = .ok () ∧ ∃ state, state.isTerminal = false ∧
          state ≠ .queued ∧ Working j t state l.record s) l s := by
      split_ifs with hqueued
      · have hstate : row.state = .queued := h.state_eq.symm.trans hqueued
        refine wp_mono ?_ (wp_moveTo (hstate ▸ h) (by decide) (by decide) rfl (by decide))
        rintro _ l₁ s₁ ⟨rfl, h₁⟩
        exact ⟨rfl, .validating, rfl, by decide, h₁⟩
      · exact ⟨rfl, row.state, hunfinished, fun hc => hqueued (h.state_eq.trans hc), h⟩
    refine wp_mono ?_ henter
    rintro _ l₁ s₁ ⟨rfl, state, hstate, hstarted, h₁⟩
    simp only [wp_bind]
    refine wp_mono ?_ (wp_failWith h₁ hstate hstarted _)
    rintro _ l₂ s₂ ⟨rfl, row', hrow', hfailed, hcode⟩
    refine ⟨row', hrow', ?_⟩
    rw [Behaviour.cause, if_pos hmodel]
    exact ⟨rfl, hfailed, hcode⟩

/-- **Processing** a job that is free ends as its cause demands, unless a queued job has no scratch
directory. -/
theorem wp_process {task : JobTask} {row : JobRow} (htask : task.jobId = j)
    (hrow : s.db.jobs j = some row) (hunfinished : row.state.isTerminal = false)
    (hprogress : row.OnSchedule) (hfree : ¬ row.leaseLive s.now)
    (hsource : s.db.HasAsset row.sourceAssetId) :
    (process config plainHandlers t task).wp (outcomeSetting j t b)
      (fun r _ s => if b.Unrecorded config row then
          r = .error jobStateChanged ∧ ∃ row, s.db.jobs j = some row ∧ row.state = .queued
        else Ended j (b.cause config row) r s) () s := by
  subst htask
  unfold process
  rw [wp_bind, wp_call]
  rintro s₁ hrely a s₂ ⟨hcall, hnow⟩
  have hrow₁ : s₁.db.jobs task.jobId = some row := hrely.free row hrow fun hheld => hfree hheld.2
  have hfree₁ : row.leaseLive s₁.now = false :=
    Bool.eq_false_iff.mpr fun hlive => hfree (JobRow.leaseLive_earlier hlive hrely.now)
  obtain ⟨row', source, hclaim, hheld, hstate, hrowprogress, hconfiguration⟩ := claim_of_free hrow₁
    hunfinished hfree₁ (hsource.grows hrely.assets) config.leaseSeconds_pos
  obtain ⟨rfl, hdb⟩ := Prod.mk.inj (hcall.symm.trans hclaim)
  refine ⟨trivial, ?_⟩
  simp only [cast_eq, wp_scope]
  have h : Working task.jobId t row.state (recordFromRow task.jobId row' source) s₂ := by
    refine ⟨rfl, hheld.1, hstate, ?_, row', ?_, hnow ▸ hheld, hstate, rfl⟩
    · show 0 ≤ row'.progress ∧ row'.progress ≤ row.state.stageProgress
      rw [hrowprogress]
      exact hprogress
    · rw [hdb, Database.setJob_jobs_self]
  exact wp_processClaimed h (congrArg some hconfiguration) hunfinished

/-! ## Runs -/

/-- Processing a task from a state runs to its end, and every run ends as the cause demands. -/
def Ends (b : Behaviour) (config : WorkerConfig) (t : String) (task : JobTask)
    (cause : Option (JobState × Raised)) (s : Clocked) : Prop :=
  (∃ r s', Prog.Run (outcomeSetting task.jobId t b) (process config plainHandlers t task ()) s r s') ∧
    ∀ r s', Prog.Run (outcomeSetting task.jobId t b) (process config plainHandlers t task ()) s r s' →
      Ended task.jobId cause r.1 s'

/-- Every effect has an answer. -/
theorem outcomeSem_total (e : Effect) (s : Clocked) : ∃ a s', outcomeSem j t b e s a s' := by
  cases e with
  | claim | update | release => exact ⟨_, ⟨_, s.now⟩, (Prod.eta _).symm, rfl⟩
  | currentState => exact ⟨_, ⟨s.db, s.now⟩, rfl, rfl⟩
  | finalizeOutput => exact ⟨_, ⟨_, s.now⟩, ⟨sampleJob, (Prod.eta _).symm⟩, rfl⟩
  | makeScratch | heartbeatFailed => exact ⟨_, s, rfl, rfl⟩
  | runHandler => exact ⟨_, s, rfl, .rfl j t⟩
  | publishReview => exact ⟨(), s, .rfl j t⟩
  | stageResponse => exact ⟨(), s, rfl⟩
  | loadInputs | render | uploadFile | headObject | outputFileSize | loadAnalysisReport =>
    exact ⟨.error (.other ""), s, rfl⟩

theorem exists_outcome_run (b : Behaviour) (config : WorkerConfig) (t : String) (task : JobTask)
    (s : Clocked) : ∃ r s', Prog.Run (outcomeSetting task.jobId t b)
      (process config plainHandlers t task ()) s r s' := by
  have hrely : ∀ s, (outcomeSetting task.jobId t b).rely s s := fun _ => .rfl _ _
  exact Prog.exists_run hrely outcomeSem_total _ s

/-- A refused update is none of the ends that processing may have. -/
theorem not_ended_jobStateChanged (cause : Option (JobState × Raised)) :
    ¬ Ended j cause (.error jobStateChanged) s := by
  rintro ⟨row, -, hended⟩
  match cause with
  | none => cases hended.1
  | some (stage, e) =>
    simp only at hended
    split_ifs at hended with htransient
    · obtain rfl := Except.error.inj hended.1
      cases htransient
    · cases hended.1

/-- **When processing ends as its cause demands**: from every unfinished job that is free, unless
it is queued, its model is the worker's, and its scratch directory cannot be made. -/
theorem process_ends_iff (config : WorkerConfig) (b : Behaviour) (t : String) (task : JobTask)
    (s : Clocked) (row : JobRow) (hrow : s.db.jobs task.jobId = some row)
    (hunfinished : row.state.isTerminal = false) (hprogress : row.OnSchedule)
    (hfree : ¬ row.leaseLive s.now) (hsource : s.db.HasAsset row.sourceAssetId) :
    Ends b config t task (b.cause config row) s ↔ ¬ b.Unrecorded config row := by
  have hwp : (process config plainHandlers t task).wp (outcomeSetting task.jobId t b) _ () s :=
    wp_process rfl hrow hunfinished hprogress hfree hsource
  obtain ⟨r, s', hrun⟩ := exists_outcome_run b config t task s
  constructor
  · rintro ⟨-, hends⟩ hu
    have hend := Prog.wp_run hwp hrun
    simp only [hu, if_true] at hend
    exact not_ended_jobStateChanged _ (hend.1 ▸ hends r s' hrun)
  · intro hu
    refine ⟨⟨r, s', hrun⟩, fun r s' hrun => ?_⟩
    have hend := Prog.wp_run hwp hrun
    simpa only [hu, if_false] using hend

/-! ## The created job -/

/-- Handlers that return, and a scratch directory that can be made or not. -/
def sampleBehaviour (scratch : Option String) : Behaviour := ⟨fun _ => .ok [], scratch⟩

/-- The created job is completed. -/
theorem process_ends_iff_completed : Ends (sampleBehaviour none) sampleConfig "attempt" sampleTask
    none ⟨sampleDatabase, 0⟩ :=
  (process_ends_iff sampleConfig (sampleBehaviour none) "attempt" sampleTask ⟨sampleDatabase, 0⟩
    sampleRow rfl rfl (by decide) (by decide) ⟨sampleSource, List.mem_singleton_self _, rfl⟩).mpr
    (by decide)

/-- **A disk without space** leaves the created job queued, and processing ends in none of the ways
that it may. -/
theorem process_unrecorded : ∃ r s', Prog.Run (outcomeSetting sampleJob "attempt"
      (sampleBehaviour (some "OSError")))
      (process sampleConfig plainHandlers "attempt" sampleTask ()) ⟨sampleDatabase, 0⟩ r s' ∧
    (∃ row, s'.db.jobs sampleJob = some row ∧ row.state = .queued) ∧
      ∀ cause, ¬ Ended sampleJob cause r.1 s' := by
  obtain ⟨r, s', hrun⟩ := exists_outcome_run (sampleBehaviour (some "OSError")) sampleConfig
    "attempt" sampleTask ⟨sampleDatabase, 0⟩
  have hwp : (process sampleConfig plainHandlers "attempt" sampleTask).wp
      (outcomeSetting sampleJob "attempt" (sampleBehaviour (some "OSError"))) _ ()
      ⟨sampleDatabase, 0⟩ :=
    wp_process rfl (show sampleDatabase.jobs sampleJob = some sampleRow from rfl) rfl (by decide)
      (by decide)
      ⟨sampleSource, List.mem_singleton_self _, rfl⟩
  have hend := Prog.wp_run hwp hrun
  have hu : (sampleBehaviour (some "OSError")).Unrecorded sampleConfig sampleRow := by decide
  simp only [hu, if_true] at hend
  exact ⟨r, s', hrun, hend.2, fun cause => hend.1 ▸ not_ended_jobStateChanged cause⟩

end BoulderFrame
