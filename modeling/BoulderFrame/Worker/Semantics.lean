import BoulderFrame.Repository.Operations
import BoulderFrame.Worker.Process

/-!
# The repository behind the worker's effects

## Main definitions

* `Clocked`: the database and its clock
* `Effect.Calls`: the effects that are calls on the repository, with what they answer and write
* `JobState.stageProgress`: the progress that the worker stores with a state

## Main results

* `update_of_held`, `update_refused`: when the update of an owner writes, and when it is refused
* `stagesFrom_continues`: the stages from a stored state on follow each other
-/

namespace BoulderFrame

open PostgresJobRepository

/-- The database, and the reading of its clock. -/
structure Clocked where
  db : Database
  now : Time

/-- What a call on the repository answers, and the database after it. -/
def Effect.Calls (c : Clocked) : (e : Effect) → e.Answer → Database → Prop
  | .claim jobId attemptId leaseSeconds, a, db =>
    PostgresJobRepository.claim jobId attemptId leaseSeconds c.now c.db = (a, db)
  | .currentState jobId, a, db => PostgresJobRepository.currentState jobId c.now c.db = (a, db)
  | .update record, a, db => PostgresJobRepository.update record c.now c.db = (a, db)
  | .release jobId attemptId, a, db =>
    PostgresJobRepository.release jobId attemptId c.now c.db = (a, db)
  | .finalizeOutput record output, a, db =>
    ∃ newId, PostgresJobRepository.finalizeOutput record output newId c.now c.db = (a, db)
  | _, _, _ => False

/-- The progress that goes with a state. -/
def JobState.stageProgress : JobState → ℤ
  | .queued => 0
  | .validating => 10
  | .analyzing => 45
  | .rendering => 75
  | .uploading => 90
  | .completed | .failed | .cancelled => 100

theorem stageProgress_le (state : JobState) : 0 ≤ state.stageProgress ∧ state.stageProgress ≤ 100 := by
  cases state <;> decide

/-- A job's progress is not ahead of its state. -/
def JobRow.OnSchedule (row : JobRow) : Prop :=
  0 ≤ row.progress ∧ row.progress ≤ row.state.stageProgress

instance (row : JobRow) : Decidable row.OnSchedule := inferInstanceAs (Decidable (_ ∧ _))

/-- Every started stage may fail. -/
theorem updateAdmits_failed (state : JobState) (h : state.isTerminal = false)
    (hstarted : state ≠ .queued) : updateAdmits state .failed := by
  revert h hstarted
  cases state <;> decide

/-- The upload may complete. -/
theorem updateAdmits_completed : updateAdmits .uploading .completed := by decide

/-! ## Calls by the owner -/

section Updates

variable {record : JobRecord} {row : JobRow} {token : String} {now : Time} {db : Database}

/-- **A claim of a free job** is granted. -/
theorem claim_of_free {jobId : Uuid} {leaseSeconds : ℤ} (hrow : db.jobs jobId = some row)
    (hunfinished : row.state.isTerminal = false) (hfree : row.leaseLive now = false)
    (hsource : db.HasAsset row.sourceAssetId) (hlease : 0 < leaseSeconds) :
    ∃ row' source, PostgresJobRepository.claim jobId token leaseSeconds now db =
        (.ok (some (recordFromRow jobId row' source)), db.setJob jobId row') ∧
      row'.HeldBy token now ∧ row'.state = row.state ∧ row'.progress = row.progress ∧
      row'.configuration = row.configuration := by
  obtain ⟨source, hmem, hid⟩ := hsource
  have hfind : db.assets.find row.sourceAssetId = some source :=
    KeyedTable.find_eq_some.mpr ⟨hmem, hid⟩
  have hlive : now < now + seconds leaseSeconds :=
    lt_add_of_pos_right now (mul_pos hlease (by decide))
  obtain ⟨row', hclaim, hfields⟩ : ∃ row', claimSql token leaseSeconds now row = some row' ∧
      row'.HeldBy token now ∧ row'.state = row.state ∧ row'.progress = row.progress ∧
      row'.configuration = row.configuration :=
    ⟨_, if_pos ⟨hunfinished, hfree⟩, ⟨rfl, decide_eq_true hlive⟩, rfl, rfl, rfl⟩
  exact ⟨row', source, by simp only [PostgresJobRepository.claim, hrow, hfind, hclaim], hfields⟩

/-- **An update that its guard admits** is written. -/
theorem update_of_held (hrow : db.jobs record.id = some row)
    (howner : record.leaseOwner = some token) (hheld : row.HeldBy token now)
    (hadmits : updateAdmits row.state record.state) (hstage : record.stage = record.state)
    (hprogress : row.progress ≤ record.progress) (hcheck : 0 ≤ record.progress ∧ record.progress ≤ 100)
    (hcompleted : record.state = .completed → record.progress = 100) :
    ∃ row', PostgresJobRepository.update record now db = (.ok (), db.setJob record.id row') ∧
      row'.state = record.state ∧ row'.progress = record.progress ∧
      row'.errorCode = record.error.map (·.code) ∧
      (record.state.isTerminal = false → row'.HeldBy token now) := by
  have hcancelled : row.state ≠ .cancelled := by
    intro hc
    rw [hc] at hadmits
    simp [updateAdmits] at hadmits
  obtain ⟨row', hrow'⟩ : ∃ row', updateSql record token now row = some row' :=
    ⟨_, if_pos ⟨hheld, hcancelled, hprogress, not_or_of_imp hcompleted, hstage, hadmits⟩⟩
  have hfields : row'.state = record.state ∧ row'.progress = record.progress ∧
      row'.errorCode = record.error.map (·.code) ∧
      (record.state.isTerminal = false → row'.HeldBy token now) := by
    obtain rfl := Option.some.inj (Option.ite_none_right_eq_some.mp hrow').2
    refine ⟨rfl, rfl, rfl, fun hterminal => ?_⟩
    simpa only [JobRow.HeldBy, JobRow.leaseLive, hterminal, Bool.false_eq_true, if_false]
      using hheld
  have hset : executeOn record.id (updateSql record token) now db =
      (.ok true, db.setJob record.id row') := by
    have hbind : (db.jobs record.id).bind (updateSql record token now) = some row' := by
      rw [hrow, Option.bind_some, hrow']
    simp only [executeOn, hbind]
    exact if_pos (by rw [progressCheck, hfields.2.1]; exact hcheck)
  exact ⟨row', by simp only [PostgresJobRepository.update, howner, hset], hfields⟩

/-- **An update that the stored state does not admit** is refused. -/
theorem update_refused (hrow : db.jobs record.id = some row)
    (howner : record.leaseOwner = some token) (hadmits : ¬ updateAdmits row.state record.state) :
    PostgresJobRepository.update record now db = (.error jobStateChanged, db) := by
  have hnone : (db.jobs record.id).bind (updateSql record token now) = none := by
    rw [hrow, Option.bind_some]
    exact if_neg fun h => hadmits h.2.2.2.2.2
  have hset : executeOn record.id (updateSql record token) now db = (.ok false, db) := by
    simp only [executeOn, hnone]
  simp only [PostgresJobRepository.update, howner, hset]

/-- **A release by the owner** of an unfinished job is written. -/
theorem release_of_owner {jobId : Uuid} (hrow : db.jobs jobId = some row)
    (howner : row.leaseOwner = some token) (hunfinished : row.state.isTerminal = false)
    (hcheck : progressCheck row) : PostgresJobRepository.release jobId token now db =
      (.ok true, db.setJob jobId { row with leaseOwner := none, leaseExpiresAt := none }) := by
  have hbind : (db.jobs jobId).bind (releaseSql token) =
      some { row with leaseOwner := none, leaseExpiresAt := none } := by
    rw [hrow, Option.bind_some]
    exact if_pos ⟨howner, hunfinished⟩
  simp only [PostgresJobRepository.release, executeOn, hbind]
  exact if_pos hcheck

end Updates

/-! ## The order of the stages -/

/-- The stages follow each other from a state on: the first is that state's own or the next one,
each with its progress, and the last is the upload. -/
def Continues : JobState → List (JobState × ℤ) → Prop
  | state, [] => state = .uploading
  | state, (stage, progress) :: rest =>
    (state = stage ∨ updateAdmits state stage ∧ stage ∈ allowedTransitions state) ∧
      stage.isTerminal = false ∧ stage ≠ .queued ∧ progress = stage.stageProgress ∧
      state.stageProgress ≤ progress ∧ Continues stage rest

/-- The stages that the worker runs from a stored state on follow each other. -/
theorem stagesFrom_continues {state : JobState} (h : state.isTerminal = false) :
    ∃ rest, stagesFrom state = .ok rest ∧ Continues state rest := by
  cases state with
  | queued => exact ⟨stages, rfl, by simp +decide [Continues, stages]⟩
  | validating => exact ⟨stages, rfl, by simp +decide [Continues, stages]⟩
  | analyzing =>
    exact ⟨[(.analyzing, 45), (.rendering, 75), (.uploading, 90)], rfl, by simp +decide [Continues]⟩
  | rendering => exact ⟨[(.rendering, 75), (.uploading, 90)], rfl, by simp +decide [Continues]⟩
  | uploading => exact ⟨[(.uploading, 90)], rfl, by simp +decide [Continues]⟩
  | completed => cases h
  | failed => cases h
  | cancelled => cases h

/-- The stages from a stored state on follow each other; they start with the stage of that state,
unless it is queued. -/
theorem continues_of_stagesFrom {state : JobState} {rest : List (JobState × ℤ)}
    (h : stagesFrom state = .ok rest) : Continues state rest ∧
      (state = .queued ∨ ∃ progress rest', rest = (state, progress) :: rest') := by
  have hunfinished : state.isTerminal = false := by
    cases state <;> first | rfl | cases h
  obtain ⟨rest', h', hcontinues⟩ := stagesFrom_continues hunfinished
  obtain rfl := Except.ok.inj (h.symm.trans h')
  refine ⟨hcontinues, ?_⟩
  cases state with
  | queued => exact .inl rfl
  | validating | analyzing | rendering | uploading => exact .inr ⟨_, _, (Except.ok.inj h).symm⟩
  | completed | failed | cancelled => cases hunfinished

end BoulderFrame
