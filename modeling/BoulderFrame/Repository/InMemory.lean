import BoulderFrame.Repository.Postgres

/-!
# The in-memory job repository

The repository that the tests of the worker run against, and the protocol that it shares with the
PostgreSQL repository. Where PostgreSQL writes selected columns of a row, it stores a whole record.

## Main definitions

* `InMemoryJobRepository`: the records by their ids, and the calls on them
* `JobRepository`: the protocol of the repositories
* `inMemoryRepository`, `postgresRepository`: the repositories with the protocol

## Main results

* `InMemoryJobRepository.claim_cases`, `renew_cases`, `release_cases`, `update_cases`: when a call
  is accepted, and what it stores then
-/

namespace BoulderFrame

/-- The records of the repository, each under its own id. -/
structure InMemoryJobRepository where
  records : Uuid → Option JobRecord
  id_eq : ∀ id record, records id = some record → record.id = id

/-- `lease_expires_at` is a time after now. -/
def JobRecord.leaseLive (record : JobRecord) (now : Time) : Bool :=
  record.leaseExpiresAt.any fun expires => decide (now < expires)

namespace InMemoryJobRepository

/-- A call on the records, at the time of the clock: its outcome, and the records after it. -/
abbrev Call (α : Type) := Time → InMemoryJobRepository → Except Raised α × InMemoryJobRepository

/-- A record is stored under its id. -/
def store (repository : InMemoryJobRepository) (record : JobRecord) : InMemoryJobRepository where
  records := Function.update repository.records record.id (some record)
  id_eq id stored h := by
    by_cases hid : id = record.id
    · subst hid
      rw [Function.update_self, Option.some.injEq] at h
      rw [h]
    · rw [Function.update_of_ne hid] at h
      exact repository.id_eq id stored h

@[simp] theorem store_records_self (repository : InMemoryJobRepository) (record : JobRecord) :
    (repository.store record).records record.id = some record := Function.update_self ..

theorem store_records_of_ne (repository : InMemoryJobRepository) {record : JobRecord} {id : Uuid}
    (h : id ≠ record.id) : (repository.store record).records id = repository.records id :=
  Function.update_of_ne h ..

def claim (jobId : Uuid) (workerId : String) (leaseSeconds : ℤ) : Call (Option JobRecord) :=
  fun now repository =>
    match repository.records jobId with
    | none => (.ok none, repository)
    | some record =>
      if record.state.isTerminal then (.ok none, repository)
      else if record.leaseLive now then (.ok none, repository)
      else
        let claimed := { record with
          leaseOwner := some workerId
          leaseExpiresAt := some (now + seconds leaseSeconds)
          startedAt := record.startedAt <|> some now }
        (.ok (some claimed), repository.store claimed)

/-- A record as an update stores it: a terminal record loses its lease. -/
def settle (record : JobRecord) (now : Time) : JobRecord :=
  if record.state.isTerminal then
    { record with leaseOwner := none, leaseExpiresAt := none, completedAt := some now }
  else record

def update (record : JobRecord) : Call Unit := fun now repository =>
  match repository.records record.id with
  | none => (.error (.valueError "job lease is not owned by this worker"), repository)
  | some current =>
    if current.state.isTerminal ∨ current.leaseOwner ≠ record.leaseOwner ∨
        current.leaseLive now = false then
      (.error (.valueError "job lease is not owned by this worker"), repository)
    else if record.progress < current.progress ∨
        ¬ (0 ≤ record.progress ∧ record.progress ≤ 100) then
      (.error (.valueError "job progress must be monotonic and between 0 and 100"), repository)
    else if record.state = .completed ∧ record.progress ≠ 100 then
      (.error (.valueError "completed jobs must have 100 progress"), repository)
    else if record.stage ≠ record.state then
      (.error (.valueError "job stage must match its state"), repository)
    else if record.state ≠ current.state ∧ record.state ∉ allowedTransitions current.state then
      (.error (.valueError
        ("invalid job transition " ++ current.state.value ++ " -> " ++ record.state.value)),
        repository)
    else (.ok (), repository.store (settle record now))

def renew (jobId : Uuid) (workerId : String) (leaseSeconds : ℤ) : Call Bool :=
  fun now repository =>
    match repository.records jobId with
    | none => (.ok false, repository)
    | some record =>
      if record.state.isTerminal ∨ record.leaseOwner ≠ some workerId ∨
          record.leaseLive now = false then (.ok false, repository)
      else (.ok true,
        repository.store { record with leaseExpiresAt := some (now + seconds leaseSeconds) })

def release (jobId : Uuid) (workerId : String) : Call Bool := fun _ repository =>
  match repository.records jobId with
  | none => (.ok false, repository)
  | some record =>
    if record.state.isTerminal ∨ record.leaseOwner ≠ some workerId then (.ok false, repository)
    else (.ok true, repository.store { record with leaseOwner := none, leaseExpiresAt := none })

def currentState (jobId : Uuid) : Call (Option JobState) := fun _ repository =>
  (.ok ((repository.records jobId).map (·.state)), repository)

end InMemoryJobRepository

/-! ## The protocol -/

/-- `JobRepository`: the calls on a state, at the time of the clock. -/
structure JobRepository (σ : Type) where
  claim : Uuid → String → ℤ → Time → σ → Except Raised (Option JobRecord) × σ
  update : JobRecord → Time → σ → Except Raised Unit × σ
  renew : Uuid → String → ℤ → Time → σ → Except Raised Bool × σ
  release : Uuid → String → Time → σ → Except Raised Bool × σ
  currentState : Uuid → Time → σ → Except Raised (Option JobState) × σ

def inMemoryRepository : JobRepository InMemoryJobRepository where
  claim := InMemoryJobRepository.claim
  update := InMemoryJobRepository.update
  renew := InMemoryJobRepository.renew
  release := InMemoryJobRepository.release
  currentState := InMemoryJobRepository.currentState

def postgresRepository : JobRepository Database where
  claim := PostgresJobRepository.claim
  update := PostgresJobRepository.update
  renew := PostgresJobRepository.renew
  release := PostgresJobRepository.release
  currentState := PostgresJobRepository.currentState

/-! ## The calls -/

namespace InMemoryJobRepository

variable {repository : InMemoryJobRepository} {current : JobRecord}

/-- The record may be claimed: it is unfinished, and nobody holds a live lease of it. -/
def Claimable (current : JobRecord) (now : Time) : Prop :=
  current.state.isTerminal = false ∧ current.leaseLive now = false

/-- The record may be changed with the given owner's lease. -/
def HeldBy (current : JobRecord) (owner : Option String) (now : Time) : Prop :=
  current.state.isTerminal = false ∧ current.leaseOwner = owner ∧ current.leaseLive now = true

/-- The stored record may be replaced with the given one. -/
structure Replaces (record current : JobRecord) : Prop where
  progress : current.progress ≤ record.progress ∧ 0 ≤ record.progress ∧ record.progress ≤ 100
  completed : record.state = .completed → record.progress = 100
  stage : record.stage = record.state
  state : record.state = current.state ∨ record.state ∈ allowedTransitions current.state

/-- **A claim** is accepted exactly when the record is claimable. -/
theorem claim_cases (jobId : Uuid) (workerId : String) (leaseSeconds : ℤ) (now : Time)
    (hcurrent : repository.records jobId = some current) :
    (Claimable current now ∧
      claim jobId workerId leaseSeconds now repository =
        (.ok (some { current with
            leaseOwner := some workerId
            leaseExpiresAt := some (now + seconds leaseSeconds)
            startedAt := current.startedAt <|> some now }),
          repository.store { current with
            leaseOwner := some workerId
            leaseExpiresAt := some (now + seconds leaseSeconds)
            startedAt := current.startedAt <|> some now })) ∨
    (¬ Claimable current now ∧
      claim jobId workerId leaseSeconds now repository = (.ok none, repository)) := by
  unfold claim
  simp only [hcurrent]
  by_cases hterminal : current.state.isTerminal
  · exact .inr ⟨fun h => by simp [h.1] at hterminal, if_pos hterminal⟩
  by_cases hlive : current.leaseLive now
  · exact .inr ⟨fun h => by simp [h.2] at hlive, by rw [if_neg hterminal, if_pos hlive]⟩
  · exact .inl ⟨⟨by simpa using hterminal, by simpa using hlive⟩,
      by rw [if_neg hterminal, if_neg hlive]⟩

theorem not_heldBy {owner : Option String} {now : Time}
    (h : current.state.isTerminal ∨ current.leaseOwner ≠ owner ∨ current.leaseLive now = false) :
    ¬ HeldBy current owner now := by
  rintro ⟨hterminal, howner, hlive⟩
  rw [hterminal, howner, hlive] at h
  simp at h

theorem heldBy_of_not {owner : Option String} {now : Time}
    (h : ¬ (current.state.isTerminal ∨ current.leaseOwner ≠ owner ∨
      current.leaseLive now = false)) : HeldBy current owner now := by
  rw [not_or, not_or, not_not, Bool.not_eq_false, Bool.not_eq_true] at h
  exact h

/-- **A renewal** is accepted exactly when the worker holds the lease. -/
theorem renew_cases (jobId : Uuid) (workerId : String) (leaseSeconds : ℤ) (now : Time)
    (hcurrent : repository.records jobId = some current) :
    (HeldBy current (some workerId) now ∧
      renew jobId workerId leaseSeconds now repository =
        (.ok true, repository.store
          { current with leaseExpiresAt := some (now + seconds leaseSeconds) })) ∨
    (¬ HeldBy current (some workerId) now ∧
      renew jobId workerId leaseSeconds now repository = (.ok false, repository)) := by
  unfold renew
  simp only [hcurrent]
  by_cases hheld : current.state.isTerminal ∨ current.leaseOwner ≠ some workerId ∨
      current.leaseLive now = false
  · exact .inr ⟨not_heldBy hheld, if_pos hheld⟩
  · exact .inl ⟨heldBy_of_not hheld, if_neg hheld⟩

/-- **A release** is accepted exactly when the worker owns the unfinished job. -/
theorem release_cases (jobId : Uuid) (workerId : String) (now : Time)
    (hcurrent : repository.records jobId = some current) :
    ((current.state.isTerminal = false ∧ current.leaseOwner = some workerId) ∧
      release jobId workerId now repository =
        (.ok true, repository.store { current with leaseOwner := none, leaseExpiresAt := none })) ∨
    (¬ (current.state.isTerminal = false ∧ current.leaseOwner = some workerId) ∧
      release jobId workerId now repository = (.ok false, repository)) := by
  unfold release
  simp only [hcurrent]
  by_cases howner : current.state.isTerminal ∨ current.leaseOwner ≠ some workerId
  · exact .inr ⟨fun h => by simp [h.1, h.2] at howner, if_pos howner⟩
  · refine .inl ⟨?_, if_neg howner⟩
    simpa [not_or] using howner

/-- **An update** is accepted exactly when its owner holds the lease and the record may replace the
stored one. -/
theorem update_cases {record : JobRecord} (now : Time)
    (hcurrent : repository.records record.id = some current) :
    ((HeldBy current record.leaseOwner now ∧ Replaces record current) ∧
      update record now repository = (.ok (), repository.store (settle record now))) ∨
    (¬ (HeldBy current record.leaseOwner now ∧ Replaces record current) ∧
      ∃ e, update record now repository = (.error e, repository)) := by
  unfold update
  simp only [hcurrent]
  split_ifs with hheld hprogress hcompleted hstage hstate
  · exact .inr ⟨fun h => not_heldBy hheld h.1, _, rfl⟩
  · exact .inr ⟨fun h => by have := h.2.progress; omega, _, rfl⟩
  · exact .inr ⟨fun h => hcompleted.2 (h.2.completed hcompleted.1), _, rfl⟩
  · exact .inr ⟨fun h => hstage h.2.stage, _, rfl⟩
  · exact .inr ⟨fun h => h.2.state.elim hstate.1 hstate.2, _, rfl⟩
  · refine .inl ⟨⟨heldBy_of_not hheld, ⟨by omega, ?_, not_not.mp hstage, ?_⟩⟩, rfl⟩
    · exact fun h => not_not.mp fun h' => hcompleted ⟨h, h'⟩
    · exact (em _).imp_right fun h => not_not.mp fun h' => hstate ⟨h, h'⟩

end InMemoryJobRepository

end BoulderFrame
