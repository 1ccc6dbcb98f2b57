import BoulderFrame.Domain.Errors
import BoulderFrame.Domain.Uuid
import BoulderFrame.Library.Outcome
import Mathlib.Algebra.Order.Ring.Int

/-!
# Job states and retry-safe transitions

## Main definitions

* `JobState`, `JobRecord`: the states of a job, and the record that a worker holds of it
* `allowedTransitions`, `transition`, `fail`: the transitions of a record
* `JobState.Before`: the order in which a job passes through the stages with a handler

## Main results

* `transition_eq_ok`, `fail_eq_ok`: what the transitions change
-/

namespace BoulderFrame

/-- Microseconds of the database clock. -/
abbrev Time := ℤ

/-- An interval of whole seconds. -/
def seconds (n : ℤ) : Time := n * 1000000

inductive JobState
  | queued
  | validating
  | analyzing
  | rendering
  | uploading
  | completed
  | failed
  | cancelled
  deriving DecidableEq, Repr

def JobState.value : JobState → String
  | .queued => "queued"
  | .validating => "validating"
  | .analyzing => "analyzing"
  | .rendering => "rendering"
  | .uploading => "uploading"
  | .completed => "completed"
  | .failed => "failed"
  | .cancelled => "cancelled"

/-- The stages have the values of the states. -/
abbrev JobStage := JobState

/-- The position of a state on the way to completion, which a failed or cancelled job has left. -/
def JobState.position : JobState → ℕ
  | .queued | .failed | .cancelled => 0
  | .validating => 1
  | .analyzing => 2
  | .rendering => 3
  | .uploading => 4
  | .completed => 5

/-- The first state is a stage with a handler, which a job in the second state is past. -/
def JobState.Before (s t : JobState) : Prop := 0 < s.position ∧ s.position < t.position

instance : DecidableRel JobState.Before := fun s t =>
  inferInstanceAs (Decidable (0 < s.position ∧ s.position < t.position))

/-- The part of a job's configuration that the worker itself reads. -/
structure JobConfiguration where
  modelVersion : String
  deriving DecidableEq, Repr

/-- The part of a source asset that the repository and the upload read. -/
structure SourceAsset where
  id : Uuid
  projectId : Uuid
  deriving DecidableEq, Repr

/-- A report: its fields with their values as JSON texts. -/
abbrev Report := List (String × String)

/-- `TERMINAL_STATES` -/
def JobState.isTerminal : JobState → Bool
  | .completed | .failed | .cancelled => true
  | _ => false

/-- `_ALLOWED_TRANSITIONS` -/
def allowedTransitions : JobState → List JobState
  | .queued => [.validating, .cancelled]
  | .validating => [.analyzing, .failed]
  | .analyzing => [.rendering, .failed]
  | .rendering => [.uploading, .failed]
  | .uploading => [.completed, .failed]
  | .completed | .failed | .cancelled => []

structure JobRecord where
  id : Uuid
  state : JobState
  stage : JobStage
  progress : ℤ
  leaseOwner : Option String
  leaseExpiresAt : Option Time
  error : Option WorkerError
  configuration : Option JobConfiguration
  sourceAsset : Option SourceAsset
  startedAt : Option Time
  completedAt : Option Time
  report : Option Report
  deriving DecidableEq, Repr

def transition (record : JobRecord) (nextState : JobState) (progress : ℤ) :
    Except Raised JobRecord :=
  if nextState ∉ allowedTransitions record.state then
    .error (.valueError
      ("invalid job transition " ++ record.state.value ++ " -> " ++ nextState.value))
  else if progress < record.progress ∨ ¬ (0 ≤ progress ∧ progress ≤ 100) then
    .error (.valueError "job progress must be monotonic and between 0 and 100")
  else if nextState = .completed ∧ progress ≠ 100 then
    .error (.valueError "completed jobs must have 100 progress")
  else .ok { record with state := nextState, stage := nextState, progress := progress }

def fail (record : JobRecord) (error : WorkerError) : Except Raised JobRecord :=
  if record.state.isTerminal then .error (.valueError "cannot fail a terminal job")
  else .ok { record with state := .failed, stage := .failed, error := some error }

theorem transition_eq_ok {record record' : JobRecord} {nextState : JobState} {progress : ℤ} :
    transition record nextState progress = .ok record' ↔
      nextState ∈ allowedTransitions record.state ∧
        (record.progress ≤ progress ∧ 0 ≤ progress ∧ progress ≤ 100) ∧
        (nextState = .completed → progress = 100) ∧
        record' = { record with state := nextState, stage := nextState, progress := progress } := by
  unfold transition
  constructor
  · intro h
    obtain ⟨h1, h⟩ := Except.ok_of_guard h
    obtain ⟨h2, h⟩ := Except.ok_of_guard h
    obtain ⟨h3, h⟩ := Except.ok_of_guard h
    exact ⟨not_not.mp h1, by omega, fun h => not_not.mp fun h' => h3 ⟨h, h'⟩,
      (Except.ok.inj h).symm⟩
  · rintro ⟨h1, h2, h3, rfl⟩
    rw [if_neg (not_not.mpr h1), if_neg (by omega), if_neg fun h => h.2 (h3 h.1)]

theorem isWorker_of_transition {record : JobRecord} {nextState : JobState} {progress : ℤ} {e : Raised}
    (h : transition record nextState progress = .error e) : e.isWorker = false := by
  unfold transition at h
  split_ifs at h <;> exact Except.error.inj h ▸ rfl

theorem isWorker_of_fail {record : JobRecord} {error : WorkerError} {e : Raised}
    (h : fail record error = .error e) : e.isWorker = false := by
  unfold fail at h
  split_ifs at h
  exact Except.error.inj h ▸ rfl

theorem fail_eq_ok {record record' : JobRecord} {error : WorkerError} :
    fail record error = .ok record' ↔ record.state.isTerminal = false ∧
      record' = { record with state := .failed, stage := .failed, error := some error } := by
  unfold fail
  split_ifs with h
  · exact iff_of_false (by simp) fun h' => by simp [h'.1] at h
  · rw [Except.ok.injEq]
    constructor
    · rintro rfl
      exact ⟨by simpa using h, rfl⟩
    · exact fun h => h.2.symm

end BoulderFrame
