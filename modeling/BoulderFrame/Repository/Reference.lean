import BoulderFrame.Repository.InMemory
import BoulderFrame.Repository.Ownership

/-!
# The in-memory repository as the reference of the PostgreSQL repository

Two sessions make the same calls, one on each repository: an attempt keeps the record that its claim
returned, and updates with records that it derives from it. The repositories agree on a run exactly
when none of its updates meets one of two differences. The in-memory repository stores the lease
expiry of the record that the update brings, so that it takes a renewal back, and it cancels a
queued job, which the update statement does not.

## Main definitions

* `JobView`, `Agree`: what the repositories have in common
* `Derivation`, `derive`: the records that an attempt derives from its claim
* `RepositoryCall`, `Session`: the calls of the attempts, and what they have received
* `RunsAgree`: both repositories answer every call alike, and agree after it
* `RunsFaithful`: the runs without the two differences

## Main results

* `Related.step`: one call keeps the agreement exactly when it is faithful
* `runsAgree_iff_runsFaithful`: the agreement of whole runs
-/

namespace BoulderFrame

/-! ## Agreement -/

/-- What the repositories have in common of a job. -/
structure JobView where
  state : JobState
  stage : JobStage
  progress : ℤ
  leaseOwner : Option String
  leaseExpiresAt : Option Time
  deriving DecidableEq, Repr

def JobRecord.view (record : JobRecord) : JobView :=
  ⟨record.state, record.stage, record.progress, record.leaseOwner, record.leaseExpiresAt⟩

def JobRow.view (row : JobRow) : JobView :=
  ⟨row.state, row.stage, row.progress, row.leaseOwner, row.leaseExpiresAt⟩

/-- The repositories hold the same jobs, as far as the view shows. -/
def Agree (repository : InMemoryJobRepository) (db : Database) : Prop :=
  ∀ id, (repository.records id).map JobRecord.view = (db.jobs id).map JobRow.view

theorem view_eq_iff {record : JobRecord} {row : JobRow} : record.view = row.view ↔
    record.state = row.state ∧ record.stage = row.stage ∧ record.progress = row.progress ∧
      record.leaseOwner = row.leaseOwner ∧ record.leaseExpiresAt = row.leaseExpiresAt := by
  rw [JobRecord.view, JobRow.view, JobView.mk.injEq]

namespace Agree

variable {repository : InMemoryJobRepository} {db : Database}

/-- A job is in both repositories, or in none. -/
theorem cases (h : Agree repository db) (id : Uuid) :
    (repository.records id = none ∧ db.jobs id = none) ∨
    (∃ record row, repository.records id = some record ∧ db.jobs id = some row ∧
      record.id = id ∧ record.view = row.view) := by
  have hid := h id
  cases hrecord : repository.records id with
  | none =>
    rw [hrecord, Option.map_none] at hid
    exact .inl ⟨rfl, Option.map_eq_none_iff.mp hid.symm⟩
  | some record =>
    rw [hrecord, Option.map_some] at hid
    obtain ⟨row, hrow, hview⟩ := Option.map_eq_some_iff.mp hid.symm
    exact .inr ⟨record, row, rfl, hrow, repository.id_eq id record hrecord, hview.symm⟩

/-- Writing one job keeps the agreement exactly when the two sides write the same. -/
theorem store_iff (h : Agree repository db) {id : Uuid} {record : JobRecord} {row : JobRow}
    (hid : record.id = id) :
    Agree (repository.store record) (db.setJob id row) ↔ record.view = row.view := by
  subst hid
  constructor
  · intro hstored
    have hview := hstored record.id
    rw [repository.store_records_self, db.setJob_jobs_self] at hview
    exact Option.some.inj hview
  · intro hview id
    by_cases hid : id = record.id
    · subst hid
      rw [repository.store_records_self, db.setJob_jobs_self, Option.map_some, Option.map_some,
        hview]
    · rw [repository.store_records_of_ne hid, db.setJob_jobs_of_ne row hid]
      exact h id

end Agree

/-! ## Calls -/

/-- A way to derive a record. -/
inductive Derivation
  | transition (nextState : JobState) (progress : ℤ)
  | fail (error : WorkerError)

def Derivation.apply (record : JobRecord) : Derivation → Except Raised JobRecord
  | transition nextState progress => BoulderFrame.transition record nextState progress
  | fail error => BoulderFrame.fail record error

/-- The record that is derived by the steps, one after the other. -/
def derive (record : JobRecord) : List Derivation → Except Raised JobRecord
  | [] => .ok record
  | step :: steps => step.apply record >>= (derive · steps)

theorem derive_cons_of_ok {record next : JobRecord} {step : Derivation} (steps : List Derivation)
    (h : step.apply record = .ok next) : derive record (step :: steps) = derive next steps := by
  rw [derive, h, Except.ok_bind]

theorem derive_cons_of_error {record : JobRecord} {step : Derivation} {e : Raised}
    (steps : List Derivation) (h : step.apply record = .error e) :
    derive record (step :: steps) = .error e := by
  rw [derive, h, Except.error_bind]

variable {ι σ : Type}

/-- A call of an attempt. An update brings what is derived, in at least one step, from the record
that the attempt received from its claim. -/
inductive RepositoryCall (ι : Type)
  | claim (attempt : ι) (jobId : Uuid) (workerId : String) (leaseSeconds : ℤ)
  | renew (jobId : Uuid) (workerId : String) (leaseSeconds : ℤ)
  | release (jobId : Uuid) (workerId : String)
  | update (attempt : ι) (first : Derivation) (rest : List Derivation)

/-- A repository's state, and the records that the attempts received from their claims. -/
structure Session (ι σ : Type) where
  state : σ
  received : ι → Option JobRecord

/-- A session before its first call. -/
def Session.start (state : σ) : Session ι σ := ⟨state, fun _ => none⟩

/-- A call, at a time of the clock: whether the repository accepts it, and the session after it. An
update without a derived record is none, and changes nothing. -/
def RepositoryCall.run [DecidableEq ι] (repository : JobRepository σ) (now : Time)
    (session : Session ι σ) : RepositoryCall ι → Bool × Session ι σ
  | claim attempt jobId workerId leaseSeconds =>
    match repository.claim jobId workerId leaseSeconds now session.state with
    | (.ok (some record), state) =>
      (true, ⟨state, Function.update session.received attempt (some record)⟩)
    | (_, state) => (false, ⟨state, session.received⟩)
  | renew jobId workerId leaseSeconds =>
    match repository.renew jobId workerId leaseSeconds now session.state with
    | (.ok true, state) => (true, ⟨state, session.received⟩)
    | (_, state) => (false, ⟨state, session.received⟩)
  | release jobId workerId =>
    match repository.release jobId workerId now session.state with
    | (.ok true, state) => (true, ⟨state, session.received⟩)
    | (_, state) => (false, ⟨state, session.received⟩)
  | update attempt first rest =>
    match (session.received attempt).map (derive · (first :: rest)) with
    | some (.ok record) =>
      match repository.update record now session.state with
      | (.ok (), state) => (true, ⟨state, session.received⟩)
      | (.error _, state) => (false, ⟨state, session.received⟩)
    | _ => (false, session)

namespace RepositoryCall

variable [DecidableEq ι] {repository : JobRepository σ} {now : Time} {session : Session ι σ}
  {state : σ} {record : JobRecord} {attempt : ι} {jobId : Uuid} {workerId : String}
  {leaseSeconds : ℤ} {first : Derivation} {rest : List Derivation}

theorem run_claim_accepted
    (h : repository.claim jobId workerId leaseSeconds now session.state =
      (.ok (some record), state)) :
    (claim attempt jobId workerId leaseSeconds).run repository now session =
      (true, ⟨state, Function.update session.received attempt (some record)⟩) := by
  simp only [run, h]

theorem run_claim_refused
    (h : repository.claim jobId workerId leaseSeconds now session.state = (.ok none, state)) :
    (claim attempt jobId workerId leaseSeconds).run repository now session =
      (false, ⟨state, session.received⟩) := by
  simp only [run, h]

theorem run_renew {accepted : Bool}
    (h : repository.renew jobId workerId leaseSeconds now session.state =
      (.ok accepted, state)) :
    (renew jobId workerId leaseSeconds).run repository now session =
      (accepted, ⟨state, session.received⟩) := by
  cases accepted <;> simp only [run, h]

theorem run_release {accepted : Bool}
    (h : repository.release jobId workerId now session.state = (.ok accepted, state)) :
    (release jobId workerId).run repository now session =
      (accepted, ⟨state, session.received⟩) := by
  cases accepted <;> simp only [run, h]

theorem run_update {received : JobRecord} (hreceived : session.received attempt = some received)
    (hderive : derive received (first :: rest) = .ok record) :
    (update attempt first rest).run repository now session =
      match repository.update record now session.state with
      | (.ok (), state) => (true, ⟨state, session.received⟩)
      | (.error _, state) => (false, ⟨state, session.received⟩) := by
  simp only [run, hreceived, Option.map_some, hderive]

/-- Without a derived record there is no call. -/
theorem run_update_none
    (h : ∀ received ∈ session.received attempt, ∃ e, derive received (first :: rest) = .error e) :
    (update attempt first rest).run repository now session = (false, session) := by
  cases hreceived : session.received attempt with
  | none => simp only [run, hreceived, Option.map_none]
  | some received =>
    obtain ⟨e, he⟩ := h received hreceived
    simp only [run, hreceived, Option.map_some, he]

end RepositoryCall

/-- The record brings its own lease: it is admitted with the expiry that the row has, or ends the
lease. -/
def KeepsLease (record : JobRecord) (row : JobRow) : Prop :=
  updateAdmits row.state record.state →
    record.state.isTerminal = true ∨ record.leaseExpiresAt = row.leaseExpiresAt

instance (record : JobRecord) (row : JobRow) : Decidable (KeepsLease record row) :=
  inferInstanceAs (Decidable (_ → _))

/-- An update that the owner of the live lease makes, with no less progress, does not cancel a
queued job, and keeps the lease. -/
def FaithfulUpdate (record : JobRecord) (row : JobRow) (now : Time) : Prop :=
  row.leaseOwner = record.leaseOwner ∧ row.leaseLive now = true ∧ row.progress ≤ record.progress →
    ¬ (row.state = .queued ∧ record.state = .cancelled) ∧ KeepsLease record row

instance (record : JobRecord) (row : JobRow) (now : Time) :
    Decidable (FaithfulUpdate record row now) := inferInstanceAs (Decidable (_ → _))

/-- The call meets no difference of the repositories. -/
def RepositoryCall.Faithful (now : Time) (session : Session ι Database) : RepositoryCall ι → Prop
  | update attempt first rest => ∀ received ∈ session.received attempt,
      ∀ record ∈ (derive received (first :: rest)).toOption,
        ∀ row ∈ session.state.jobs record.id, FaithfulUpdate record row now
  | _ => True

instance (now : Time) (session : Session ι Database) (call : RepositoryCall ι) :
    Decidable (call.Faithful now session) :=
  match call with
  | .update attempt .. => inferInstanceAs (Decidable (∀ received ∈ session.received attempt, _))
  | .claim .. | .renew .. | .release .. => inferInstanceAs (Decidable True)

/-- The repositories accept or refuse the call alike, and hold the same jobs after it. -/
def RepositoryCall.Agrees [DecidableEq ι] (call : RepositoryCall ι) (now : Time)
    (s : Session ι InMemoryJobRepository) (t : Session ι Database) : Prop :=
  (call.run inMemoryRepository now s).1 = (call.run postgresRepository now t).1 ∧
    Agree (call.run inMemoryRepository now s).2.state (call.run postgresRepository now t).2.state

/-- **The repositories agree on a run**: on each of its calls. -/
def RunsAgree [DecidableEq ι] : List (Time × RepositoryCall ι) →
    Session ι InMemoryJobRepository → Session ι Database → Prop
  | [], _, _ => True
  | (now, call) :: calls, s, t =>
    call.Agrees now s t ∧
    RunsAgree calls (call.run inMemoryRepository now s).2 (call.run postgresRepository now t).2

/-- No call of a run meets a difference of the repositories. -/
def RunsFaithful [DecidableEq ι] : List (Time × RepositoryCall ι) → Session ι Database → Prop
  | [], _ => True
  | (now, call) :: calls, t =>
    call.Faithful now t ∧ RunsFaithful calls (call.run postgresRepository now t).2

/-! ## Derived records -/

/-- The records that the two repositories returned to one attempt, or what is derived from them. -/
structure SameRecord (record record' : JobRecord) : Prop where
  id : record.id = record'.id
  view : record.view = record'.view
  owner : record'.leaseOwner.isSome
  progress : 0 ≤ record'.progress ∧ record'.progress ≤ 100

/-- What holds of every derived record. -/
structure Derived (record : JobRecord) : Prop where
  state : record.state ≠ .queued
  stage : record.stage = record.state
  completed : record.state = .completed → record.progress = 100

theorem SameRecord.fields {record record' : JobRecord} (h : SameRecord record record') :
    record.state = record'.state ∧ record.stage = record'.stage ∧
      record.progress = record'.progress ∧ record.leaseOwner = record'.leaseOwner ∧
      record.leaseExpiresAt = record'.leaseExpiresAt := by
  have hview := h.view
  rwa [JobRecord.view, JobRecord.view, JobView.mk.injEq] at hview

theorem not_queued_of_allowed {s s' : JobState} (h : s' ∈ allowedTransitions s) : s' ≠ .queued := by
  rintro rfl
  cases s <;> simp [allowedTransitions] at h

/-- A step derives from the same records the same record, or none from both. -/
theorem SameRecord.apply {record record' : JobRecord} (h : SameRecord record record')
    (step : Derivation) :
    (∃ e e', step.apply record = .error e ∧ step.apply record' = .error e') ∨
    (∃ next next', step.apply record = .ok next ∧ step.apply record' = .ok next' ∧
      SameRecord next next' ∧ Derived next') := by
  obtain ⟨hstate, hstage, hprogress, howner, hexpires⟩ := h.fields
  cases step with
  | transition nextState progress =>
    cases hnext : transition record' nextState progress with
    | error e' =>
      cases hnext' : transition record nextState progress with
      | error e => exact .inl ⟨e, e', hnext', hnext⟩
      | ok next =>
        obtain ⟨hallowed, hrange, hcompleted, -⟩ := transition_eq_ok.mp hnext'
        cases hnext.symm.trans
          (transition_eq_ok.mpr ⟨hstate ▸ hallowed, hprogress ▸ hrange, hcompleted, rfl⟩)
    | ok next' =>
      obtain ⟨hallowed, hrange, hcompleted, rfl⟩ := transition_eq_ok.mp hnext
      refine .inr ⟨_, _, transition_eq_ok.mpr ⟨hstate ▸ hallowed, hprogress ▸ hrange, hcompleted,
        rfl⟩, hnext, ⟨h.id, ?_, h.owner, hrange.2⟩, not_queued_of_allowed hallowed, rfl, hcompleted⟩
      simp only [JobRecord.view, howner, hexpires]
  | fail error =>
    by_cases hterminal : record'.state.isTerminal
    · refine .inl ⟨_, _, if_pos (hstate ▸ hterminal), if_pos hterminal⟩
    · rw [Bool.not_eq_true] at hterminal
      refine .inr ⟨_, _, fail_eq_ok.mpr ⟨hstate ▸ hterminal, rfl⟩,
        fail_eq_ok.mpr ⟨hterminal, rfl⟩, ⟨h.id, ?_, h.owner, h.progress⟩, nofun, rfl, nofun⟩
      simp only [JobRecord.view, hprogress, howner, hexpires]

/-- **Steps** derive from the same records the same record, or none from both. -/
theorem SameRecord.derive {record record' : JobRecord} (h : SameRecord record record')
    (first : Derivation) (rest : List Derivation) :
    (∃ e e', derive record (first :: rest) = .error e ∧
      derive record' (first :: rest) = .error e') ∨
    (∃ next next', derive record (first :: rest) = .ok next ∧
      derive record' (first :: rest) = .ok next' ∧ SameRecord next next' ∧ Derived next') := by
  induction rest generalizing record record' first with
  | nil =>
    obtain ⟨e, e', h1, h2⟩ | ⟨next, next', h1, h2, hnext⟩ := h.apply first
    · exact .inl ⟨e, e', derive_cons_of_error [] h1, derive_cons_of_error [] h2⟩
    · exact .inr ⟨next, next', derive_cons_of_ok [] h1, derive_cons_of_ok [] h2, hnext⟩
  | cons second rest ih =>
    obtain ⟨e, e', h1, h2⟩ | ⟨next, next', h1, h2, hnext, -⟩ := h.apply first
    · exact .inl ⟨e, e', derive_cons_of_error _ h1, derive_cons_of_error _ h2⟩
    · rw [derive_cons_of_ok _ h1, derive_cons_of_ok _ h2]
      exact ih hnext second

/-! ## The statements on one job -/

section Statements

variable {db : Database} {row : JobRow} {jobId : Uuid}

/-- A statement whose rows meet their check changes the row, or nothing. -/
theorem executeOn_of_check {statement : Time → JobRow → Option JobRow} {now : Time}
    (hrow : db.jobs jobId = some row)
    (hcheck : ∀ row', statement now row = some row' → progressCheck row') :
    (∃ row', statement now row = some row' ∧
      PostgresJobRepository.executeOn jobId statement now db =
        (.ok true, db.setJob jobId row')) ∨
    (statement now row = none ∧
      PostgresJobRepository.executeOn jobId statement now db = (.ok false, db)) := by
  unfold PostgresJobRepository.executeOn
  rw [hrow, Option.bind_some]
  cases hrow' : statement now row with
  | none => exact .inr ⟨rfl, rfl⟩
  | some row' => exact .inl ⟨row', rfl, if_pos (hcheck row' hrow')⟩

/-- A claim of a job with its source takes the lease of the row, or nothing. -/
theorem claim_of_source (workerId : String) (leaseSeconds : ℤ) (now : Time) {source : Asset}
    (hrow : db.jobs jobId = some row)
    (hsource : db.assets.find row.sourceAssetId = some source) :
    (∃ row', claimSql workerId leaseSeconds now row = some row' ∧
      PostgresJobRepository.claim jobId workerId leaseSeconds now db =
        (.ok (some (recordFromRow jobId row' source)), db.setJob jobId row')) ∨
    (claimSql workerId leaseSeconds now row = none ∧
      PostgresJobRepository.claim jobId workerId leaseSeconds now db = (.ok none, db)) := by
  unfold PostgresJobRepository.claim
  cases hrow' : claimSql workerId leaseSeconds now row with
  | none => exact .inr ⟨rfl, by simp only [hrow, hsource, hrow']⟩
  | some row' => exact .inl ⟨row', rfl, by simp only [hrow, hsource, hrow']⟩

/-- An update of a record with a progress in range writes its row, or nothing. -/
theorem update_of_check {record : JobRecord} {owner : String} (now : Time)
    (hrow : db.jobs record.id = some row)
    (howner : record.leaseOwner = some owner)
    (hprogress : 0 ≤ record.progress ∧ record.progress ≤ 100) :
    (∃ row', updateSql record owner now row = some row' ∧
      PostgresJobRepository.update record now db = (.ok (), db.setJob record.id row')) ∨
    (updateSql record owner now row = none ∧
      ∃ e, PostgresJobRepository.update record now db = (.error e, db)) := by
  have hcheck : ∀ row', updateSql record owner now row = some row' → progressCheck row' := by
    intro row' hrow'
    obtain ⟨-, hrow'⟩ := Option.ite_none_right_eq_some.mp hrow'
    obtain rfl := Option.some.inj hrow'
    exact hprogress
  unfold PostgresJobRepository.update
  rw [howner]
  obtain ⟨row', hrow', hexec⟩ | ⟨hrow', hexec⟩ := executeOn_of_check hrow hcheck
  · exact .inl ⟨row', hrow', by simp only [hexec]⟩
  · exact .inr ⟨hrow', jobStateChanged, by simp only [hexec]⟩

end Statements

/-- The transitions that an update admits: all but the cancelling of a queued job. -/
theorem updateAdmits_iff {s s' : JobState} (hs : s.isTerminal = false) (hs' : s' ≠ .queued)
    (hcancel : ¬ (s = .queued ∧ s' = .cancelled)) :
    updateAdmits s s' ↔ s' = s ∨ s' ∈ allowedTransitions s := by
  revert hs hs' hcancel
  cases s <;> cases s' <;> decide

/-! ## One call -/

/-- The sessions hold the same jobs, and their attempts have received the same records. -/
structure Related (s : Session ι InMemoryJobRepository) (t : Session ι Database) : Prop where
  agree : Agree s.state t.state
  consistent : t.state.Consistent
  received : ∀ attempt, Option.Rel SameRecord (s.received attempt) (t.received attempt)

/-- A call is answered alike, and leaves related sessions. -/
def RepositoryCall.Alike [DecidableEq ι] (call : RepositoryCall ι) (now : Time)
    (s : Session ι InMemoryJobRepository) (t : Session ι Database) : Prop :=
  (call.run inMemoryRepository now s).1 = (call.run postgresRepository now t).1 ∧
    Related (call.run inMemoryRepository now s).2 (call.run postgresRepository now t).2

section Step

variable {s : Session ι InMemoryJobRepository} {t : Session ι Database} {now : Time}
  {record current : JobRecord} {row : JobRow}

theorem leaseLive_of_view (h : record.view = row.view) :
    record.leaseLive now = row.leaseLive now := by
  obtain ⟨-, -, -, -, hexpires⟩ := view_eq_iff.mp h
  rw [JobRecord.leaseLive, JobRow.leaseLive, hexpires]

/-- Writing the same to one job keeps the sessions related. -/
theorem Related.store (h : Related s t) {id : Uuid} (hid : record.id = id)
    (hview : record.view = row.view) (hconsistent : (t.state.setJob id row).Consistent) :
    Related ⟨s.state.store record, s.received⟩ ⟨t.state.setJob id row, t.received⟩ :=
  ⟨(h.agree.store_iff hid).mpr hview, hconsistent, h.received⟩

/-- **A statement on one job** and its counterpart in memory are accepted alike if they are on every
job of both repositories, and write the same. -/
theorem Related.execute (h : Related s t) {jobId : Uuid}
    {statement : Time → JobRow → Option JobRow} (result : Except Raised Bool × InMemoryJobRepository)
    (hnone : s.state.records jobId = none → result = (.ok false, s.state))
    (hsome : ∀ current (row : JobRow), s.state.records jobId = some current → current.view = row.view →
      (∃ record row', result = (.ok true, s.state.store record) ∧ statement now row = some row' ∧
        record.id = current.id ∧ record.view = row'.view ∧ row'.progress = row.progress) ∨
      (result = (.ok false, s.state) ∧ statement now row = none))
    (hconsistent : (PostgresJobRepository.executeOn jobId statement now t.state).2.Consistent) :
    ∃ accepted repository db, result = (.ok accepted, repository) ∧
      PostgresJobRepository.executeOn jobId statement now t.state = (.ok accepted, db) ∧
      Related ⟨repository, s.received⟩ ⟨db, t.received⟩ := by
  obtain ⟨hmissing, hmissing'⟩ | ⟨current, row, hcurrent, hrow, hid, hview⟩ := h.agree.cases jobId
  · refine ⟨false, s.state, t.state, hnone hmissing, ?_, h⟩
    simp only [PostgresJobRepository.executeOn, hmissing', Option.bind_none]
  obtain ⟨record, row', hmemory, hrow', hid', hview', hprogress⟩ | ⟨hmemory, hrow'⟩ :=
    hsome current row hcurrent hview
  · have hcheck : progressCheck row' := by
      rw [progressCheck, hprogress]
      exact h.consistent.progress jobId row hrow
    have hpostgres : PostgresJobRepository.executeOn jobId statement now t.state =
        (.ok true, t.state.setJob jobId row') := by
      simp only [PostgresJobRepository.executeOn, hrow, Option.bind_some, hrow', if_pos hcheck]
    rw [hpostgres] at hconsistent
    exact ⟨true, _, _, hmemory, hpostgres, h.store (hid'.trans hid) hview' hconsistent⟩
  · refine ⟨false, s.state, t.state, hmemory, ?_, h⟩
    simp only [PostgresJobRepository.executeOn, hrow, Option.bind_some, hrow']

/-- Without the owner's live lease, or with less progress, both repositories refuse an update. -/
theorem updates_refused (hview : current.view = row.view) {record' : JobRecord} {owner : String}
    (hsame : SameRecord record record') (howner : record'.leaseOwner = some owner)
    (hheld : ¬ (row.leaseOwner = record'.leaseOwner ∧ row.leaseLive now = true ∧
      row.progress ≤ record'.progress)) :
    ¬ (InMemoryJobRepository.HeldBy current record.leaseOwner now ∧
      InMemoryJobRepository.Replaces record current) ∧
    updateSql record' owner now row = none := by
  obtain ⟨-, -, hprogress, howner', -⟩ := view_eq_iff.mp hview
  obtain ⟨-, -, hprogress', howner'', -⟩ := hsame.fields
  constructor
  · rintro ⟨hheld', hreplaces⟩
    refine hheld ⟨?_, leaseLive_of_view hview ▸ hheld'.2.2, ?_⟩
    · rw [← howner', ← howner'']
      exact hheld'.2.1
    · rw [← hprogress, ← hprogress']
      exact hreplaces.progress.1
  · refine if_neg fun h => hheld ⟨howner ▸ h.1.1, h.1.2, h.2.2.1⟩

/-- With the owner's live lease and no less progress, both repositories admit the same updates,
other than the cancelling of a queued job. -/
theorem updates_admitted (hview : current.view = row.view) {record' : JobRecord} {owner : String}
    (hsame : SameRecord record record') (hderived : Derived record')
    (howner : record'.leaseOwner = some owner)
    (hheld : row.leaseOwner = record'.leaseOwner ∧ row.leaseLive now = true ∧
      row.progress ≤ record'.progress) :
    ((InMemoryJobRepository.HeldBy current record.leaseOwner now ∧
      InMemoryJobRepository.Replaces record current) ↔
      row.state.isTerminal = false ∧
        (record'.state = row.state ∨ record'.state ∈ allowedTransitions row.state)) ∧
    (updateAdmits row.state record'.state →
      ∃ row', updateSql record' owner now row = some row') := by
  obtain ⟨hstate, hstage, hprogress, howner', -⟩ := view_eq_iff.mp hview
  obtain ⟨hstate', hstage', hprogress', howner'', -⟩ := hsame.fields
  constructor
  · constructor
    · rintro ⟨hheld', hreplaces⟩
      exact ⟨hstate ▸ hheld'.1, by rw [← hstate, ← hstate']; exact hreplaces.state⟩
    · rintro ⟨hterminal, hallowed⟩
      refine ⟨⟨hstate ▸ hterminal, ?_, ?_⟩, ⟨?_, ?_, ?_, ?_⟩⟩
      · rw [howner', howner'', hheld.1]
      · rw [leaseLive_of_view hview, hheld.2.1]
      · rw [hprogress, hprogress']
        exact ⟨hheld.2.2, hsame.progress⟩
      · rw [hstate', hprogress']
        exact hderived.completed
      · rw [hstage', hstate', hderived.stage]
      · rw [hstate', hstate]
        exact hallowed
  · intro hadmits
    refine ⟨_, if_pos ⟨⟨howner ▸ hheld.1, hheld.2.1⟩, ?_, hheld.2.2, ?_, hderived.stage, hadmits⟩⟩
    · intro hcancelled
      rw [hcancelled] at hadmits
      simp [updateAdmits] at hadmits
    · exact Decidable.not_or_of_imp hderived.completed

/-- The updated job is the same in both repositories exactly when the record brings the row's lease
expiry, or is terminal. -/
theorem settle_view_iff {record' : JobRecord} {owner : String} {row' : JobRow}
    (hsame : SameRecord record record')
    (howner : row.leaseOwner = record'.leaseOwner)
    (hrow' : updateSql record' owner now row = some row') :
    (InMemoryJobRepository.settle record now).view = row'.view ↔
      record'.state.isTerminal = true ∨ record'.leaseExpiresAt = row.leaseExpiresAt := by
  obtain ⟨hstate, hstage, hprogress, howner', hexpires⟩ := hsame.fields
  obtain ⟨-, hrow'⟩ := Option.ite_none_right_eq_some.mp hrow'
  obtain rfl := Option.some.inj hrow'
  by_cases hterminal : record'.state.isTerminal
  · have hsettle := if_pos (hstate ▸ hterminal) ▸ InMemoryJobRepository.settle.eq_1 record now
    simp only [hsettle, view_eq_iff, hstate, hstage, hprogress, hterminal, reduceIte, true_or,
      and_self]
  · have hsettle := if_neg (hstate ▸ hterminal) ▸ InMemoryJobRepository.settle.eq_1 record now
    simp only [hsettle, view_eq_iff, hstate, hstage, hprogress, howner', howner, hexpires,
      hterminal, Bool.false_eq_true, reduceIte, true_and, false_or]

/-- **An update** of both repositories with the same record: what they answer, and whether they
agree afterwards. -/
theorem Related.updates (h : Related s t) {record' : JobRecord} (hsame : SameRecord record record')
    (hderived : Derived record') :
    (∃ repository db, InMemoryJobRepository.update record now s.state = (.ok (), repository) ∧
      PostgresJobRepository.update record' now t.state = (.ok (), db) ∧
      ((Related ⟨repository, s.received⟩ ⟨db, t.received⟩ ∧
        ∀ row ∈ t.state.jobs record'.id, FaithfulUpdate record' row now) ∨
      (¬ Agree repository db ∧
        ¬ ∀ row ∈ t.state.jobs record'.id, FaithfulUpdate record' row now))) ∨
    (∃ e e', InMemoryJobRepository.update record now s.state = (.error e, s.state) ∧
      PostgresJobRepository.update record' now t.state = (.error e', t.state) ∧
      ∀ row ∈ t.state.jobs record'.id, FaithfulUpdate record' row now) ∨
    (∃ repository e, InMemoryJobRepository.update record now s.state = (.ok (), repository) ∧
      PostgresJobRepository.update record' now t.state = (.error e, t.state) ∧
      ¬ ∀ row ∈ t.state.jobs record'.id, FaithfulUpdate record' row now) := by
  have hconsistent : (PostgresJobRepository.update record' now t.state).2.Consistent :=
    Operation.run_consistent (.update record') now h.consistent
  obtain ⟨owner, howner⟩ := Option.isSome_iff_exists.mp hsame.owner
  obtain ⟨hnone, hnone'⟩ | ⟨current, row, hcurrent, hrow, hid, hview⟩ :=
    h.agree.cases record'.id
  · refine .inr (.inl ⟨.valueError "job lease is not owned by this worker", jobStateChanged,
      ?_, ?_, ?_⟩)
    · rw [InMemoryJobRepository.update, hsame.id, hnone]
    · simp only [PostgresJobRepository.update, howner, PostgresJobRepository.executeOn, hnone',
        Option.bind_none]
    · rw [hnone']
      exact fun _ h => absurd h (Option.not_mem_none _)
  have hfaithful : (∀ row ∈ t.state.jobs record'.id, FaithfulUpdate record' row now) ↔
      FaithfulUpdate record' row now := by
    rw [hrow]
    exact ⟨fun h => h row rfl, fun h _ hrow => Option.some.inj hrow ▸ h⟩
  rw [hfaithful]
  have hcurrent' : s.state.records record.id = some current := by rw [hsame.id, hcurrent]
  have hmemory := InMemoryJobRepository.update_cases now hcurrent'
  have hpostgres := update_of_check now hrow howner hsame.progress
  by_cases hheld : row.leaseOwner = record'.leaseOwner ∧ row.leaseLive now = true ∧
      row.progress ≤ record'.progress
  swap
  -- both refuse
  · obtain ⟨hrefused, hrefused'⟩ := updates_refused hview hsame howner hheld
    obtain ⟨e, hmemory⟩ := (hmemory.resolve_left fun h => hrefused h.1).2
    obtain ⟨e', hpostgres⟩ := (hpostgres.resolve_left fun ⟨_, hrow', _⟩ => by
      rw [hrefused'] at hrow'
      cases hrow').2
    exact .inr (.inl ⟨e, e', hmemory, hpostgres, fun h => absurd h hheld⟩)
  obtain ⟨hadmitted, hwritten⟩ := updates_admitted hview hsame hderived howner hheld
  by_cases hcancel : row.state = .queued ∧ record'.state = .cancelled
  -- only the in-memory repository cancels a queued job
  · have haccepted := hadmitted.mpr (by rw [hcancel.1, hcancel.2]; decide)
    obtain ⟨e, hpostgres⟩ := (hpostgres.resolve_left fun ⟨_, hrow', _⟩ => by
      have hadmits := (Option.ite_none_right_eq_some.mp hrow').1.2.2.2.2.2
      rw [hcancel.1, hcancel.2] at hadmits
      exact absurd hadmits (by decide)).2
    exact .inr (.inr ⟨_, e, (hmemory.resolve_right fun h => h.1 haccepted).2, hpostgres,
      fun h => (h hheld).1 hcancel⟩)
  by_cases hadmits : updateAdmits row.state record'.state
  swap
  -- both refuse the transition
  · have hrefused : ¬ (InMemoryJobRepository.HeldBy current record.leaseOwner now ∧
        InMemoryJobRepository.Replaces record current) := fun haccepted => by
      obtain ⟨hterminal, hallowed⟩ := hadmitted.mp haccepted
      exact hadmits ((updateAdmits_iff hterminal hderived.state hcancel).mpr hallowed)
    obtain ⟨e, hmemory⟩ := (hmemory.resolve_left fun h => hrefused h.1).2
    obtain ⟨e', hpostgres⟩ := (hpostgres.resolve_left fun ⟨_, hrow', _⟩ =>
      hadmits (Option.ite_none_right_eq_some.mp hrow').1.2.2.2.2.2).2
    exact .inr (.inl ⟨e, e', hmemory, hpostgres, fun _ => ⟨hcancel, fun h => absurd h hadmits⟩⟩)
  -- both accept, and write the same if the record keeps the lease
  have hterminal := isTerminal_of_updateAdmits hadmits
  have haccepted := hadmitted.mpr
    ⟨hterminal, (updateAdmits_iff hterminal hderived.state hcancel).mp hadmits⟩
  obtain ⟨row', hrow', hpostgres⟩ := hpostgres.resolve_right fun h => by
    obtain ⟨row', hrow'⟩ := hwritten hadmits
    cases h.1.symm.trans hrow'
  have hview' := settle_view_iff hsame hheld.1 hrow'
  have hid' : (InMemoryJobRepository.settle record now).id = record'.id := by
    rw [← hsame.id, InMemoryJobRepository.settle]
    split_ifs <;> rfl
  refine .inl ⟨_, _, (hmemory.resolve_right fun h => h.1 haccepted).2, hpostgres, ?_⟩
  rw [hpostgres] at hconsistent
  by_cases hkeeps : record'.state.isTerminal = true ∨ record'.leaseExpiresAt = row.leaseExpiresAt
  · exact .inl ⟨h.store hid' (hview'.mpr hkeeps) hconsistent, fun _ => ⟨hcancel, fun _ => hkeeps⟩⟩
  · refine .inr ⟨fun hagree => hkeeps (hview'.mp ((h.agree.store_iff hid').mp hagree)), ?_⟩
    exact fun hfaithful => hkeeps ((hfaithful hheld).2 hadmits)

variable [DecidableEq ι]

/-- An attempt receives the same record from both repositories. -/
theorem Related.receive {repository : InMemoryJobRepository} {db : Database}
    {received received' : ι → Option JobRecord}
    (h : Related ⟨repository, received⟩ ⟨db, received'⟩) (attempt : ι)
    {record record' : JobRecord} (hsame : SameRecord record record') :
    Related ⟨repository, Function.update received attempt (some record)⟩
      ⟨db, Function.update received' attempt (some record')⟩ := by
  refine ⟨h.agree, h.consistent, fun other => ?_⟩
  dsimp only
  by_cases hother : other = attempt
  · subst hother
    rw [Function.update_self, Function.update_self]
    exact .some hsame
  · rw [Function.update_of_ne hother, Function.update_of_ne hother]
    exact h.received other

/-- Claims of the same job return the same records. -/
theorem sameRecord_of_claim {current : JobRecord} {row : JobRow} {jobId : Uuid}
    (hid : current.id = jobId) (hview : current.view = row.view) (hcheck : progressCheck row)
    (source : Asset) (workerId : String) (expires : Time) (startedAt startedAt' : Option Time) :
    SameRecord
      { current with
        leaseOwner := some workerId
        leaseExpiresAt := some expires
        startedAt := startedAt }
      (recordFromRow jobId { row with
        leaseOwner := some workerId
        leaseExpiresAt := some expires
        startedAt := startedAt' } source) := by
  obtain ⟨hstate, hstage, hprogress, -, -⟩ := view_eq_iff.mp hview
  refine ⟨hid, ?_, rfl, hcheck⟩
  simp only [JobRecord.view, recordFromRow, hstate, hstage, hprogress]

/-- **Claims** are accepted alike, and return the same records. -/
theorem Related.claim (h : Related s t) (attempt : ι) (jobId : Uuid) (workerId : String)
    (leaseSeconds : ℤ) :
    (RepositoryCall.claim attempt jobId workerId leaseSeconds).Alike now s t := by
  have hconsistent :
      (PostgresJobRepository.claim jobId workerId leaseSeconds now t.state).2.Consistent :=
    Operation.run_consistent (.claim jobId workerId leaseSeconds) now h.consistent
  unfold RepositoryCall.Alike
  obtain ⟨hnone, hnone'⟩ | ⟨current, row, hcurrent, hrow, hid, hview⟩ := h.agree.cases jobId
  · have hmemory : inMemoryRepository.claim jobId workerId leaseSeconds now s.state =
        (.ok none, s.state) := by
      simp only [inMemoryRepository, InMemoryJobRepository.claim, hnone]
    have hpostgres : postgresRepository.claim jobId workerId leaseSeconds now t.state =
        (.ok none, t.state) := by
      simp only [postgresRepository, PostgresJobRepository.claim, hnone']
    rw [RepositoryCall.run_claim_refused hmemory, RepositoryCall.run_claim_refused hpostgres]
    exact ⟨rfl, h⟩
  obtain ⟨source, hsource⟩ : ∃ source, t.state.assets.find row.sourceAssetId = some source := by
    obtain ⟨source, hmem, hkey⟩ := h.consistent.source jobId row hrow
    exact ⟨source, KeyedTable.find_eq_some.mpr ⟨hmem, hkey⟩⟩
  obtain ⟨hstate, -, -, -, -⟩ := view_eq_iff.mp hview
  have hclaimable : InMemoryJobRepository.Claimable current now ↔
      row.state.isTerminal = false ∧ row.leaseLive now = false := by
    rw [InMemoryJobRepository.Claimable, hstate, leaseLive_of_view hview]
  obtain ⟨hclaim, hmemory⟩ | ⟨hclaim, hmemory⟩ :=
    InMemoryJobRepository.claim_cases jobId workerId leaseSeconds now hcurrent
  · obtain ⟨row', hrow', hpostgres⟩ | ⟨hrow', -⟩ :=
      claim_of_source workerId leaseSeconds now hrow hsource
    · obtain rfl := Option.some.inj ((if_pos (hclaimable.mp hclaim)).symm.trans hrow')
      rw [RepositoryCall.run_claim_accepted hmemory, RepositoryCall.run_claim_accepted hpostgres]
      rw [hpostgres] at hconsistent
      have hsame := sameRecord_of_claim hid hview (h.consistent.progress jobId row hrow) source
        workerId (now + seconds leaseSeconds) (current.startedAt <|> some now)
        (row.startedAt <|> some now)
      refine ⟨rfl, Related.receive ?_ attempt hsame⟩
      exact h.store hid hsame.view hconsistent
    · cases (if_pos (hclaimable.mp hclaim)).symm.trans hrow'
  · obtain ⟨row', hrow', -⟩ | ⟨-, hpostgres⟩ :=
      claim_of_source workerId leaseSeconds now hrow hsource
    · exact absurd (hclaimable.mpr (Option.ite_none_right_eq_some.mp hrow').1) hclaim
    · rw [RepositoryCall.run_claim_refused hmemory, RepositoryCall.run_claim_refused hpostgres]
      exact ⟨rfl, h⟩

/-- **Renewals** are accepted alike. -/
theorem Related.renew (h : Related s t) (jobId : Uuid) (workerId : String) (leaseSeconds : ℤ) :
    (RepositoryCall.renew jobId workerId leaseSeconds : RepositoryCall ι).Alike now s t := by
  have hsome : ∀ current (row : JobRow), s.state.records jobId = some current →
      current.view = row.view →
      (∃ record row', InMemoryJobRepository.renew jobId workerId leaseSeconds now s.state =
          (.ok true, s.state.store record) ∧ renewSql workerId leaseSeconds now row = some row' ∧
        record.id = current.id ∧ record.view = row'.view ∧ row'.progress = row.progress) ∨
      (InMemoryJobRepository.renew jobId workerId leaseSeconds now s.state = (.ok false, s.state) ∧
        renewSql workerId leaseSeconds now row = none) := by
    intro current row hcurrent hview
    obtain ⟨hstate, hstage, hprogress, howner, -⟩ := view_eq_iff.mp hview
    have hheld : InMemoryJobRepository.HeldBy current (some workerId) now ↔
        row.HeldBy workerId now ∧ row.state.isTerminal = false := by
      rw [InMemoryJobRepository.HeldBy, hstate, howner, leaseLive_of_view hview, and_comm,
        JobRow.HeldBy]
    obtain ⟨hrenew, hmemory⟩ | ⟨hrenew, hmemory⟩ :=
      InMemoryJobRepository.renew_cases jobId workerId leaseSeconds now hcurrent
    · refine .inl ⟨_, _, hmemory, if_pos (hheld.mp hrenew), rfl, ?_, rfl⟩
      simp only [JobRecord.view, JobRow.view, hstate, hstage, hprogress, howner]
    · exact .inr ⟨hmemory, if_neg (mt hheld.mpr hrenew)⟩
  obtain ⟨accepted, repository, db, hmemory, hpostgres, hrelated⟩ := h.execute
    (InMemoryJobRepository.renew jobId workerId leaseSeconds now s.state)
    (fun hnone => by rw [InMemoryJobRepository.renew, hnone]) hsome
    (Operation.run_consistent (.renew jobId workerId leaseSeconds) now h.consistent)
  unfold RepositoryCall.Alike
  rw [RepositoryCall.run_renew hmemory, RepositoryCall.run_renew hpostgres]
  exact ⟨rfl, hrelated⟩

/-- **Releases** are accepted alike. -/
theorem Related.release (h : Related s t) (jobId : Uuid) (workerId : String) :
    (RepositoryCall.release jobId workerId : RepositoryCall ι).Alike now s t := by
  have hsome : ∀ current (row : JobRow), s.state.records jobId = some current →
      current.view = row.view →
      (∃ record row', InMemoryJobRepository.release jobId workerId now s.state =
          (.ok true, s.state.store record) ∧ releaseSql workerId row = some row' ∧
        record.id = current.id ∧ record.view = row'.view ∧ row'.progress = row.progress) ∨
      (InMemoryJobRepository.release jobId workerId now s.state = (.ok false, s.state) ∧
        releaseSql workerId row = none) := by
    intro current row hcurrent hview
    obtain ⟨hstate, hstage, hprogress, howner, -⟩ := view_eq_iff.mp hview
    have howns : (current.state.isTerminal = false ∧ current.leaseOwner = some workerId) ↔
        row.leaseOwner = some workerId ∧ row.state.isTerminal = false := by
      rw [hstate, howner, and_comm]
    obtain ⟨hrelease, hmemory⟩ | ⟨hrelease, hmemory⟩ :=
      InMemoryJobRepository.release_cases jobId workerId now hcurrent
    · refine .inl ⟨_, _, hmemory, if_pos (howns.mp hrelease), rfl, ?_, rfl⟩
      simp only [JobRecord.view, JobRow.view, hstate, hstage, hprogress]
    · exact .inr ⟨hmemory, if_neg (mt howns.mpr hrelease)⟩
  obtain ⟨accepted, repository, db, hmemory, hpostgres, hrelated⟩ := h.execute
    (InMemoryJobRepository.release jobId workerId now s.state)
    (fun hnone => by rw [InMemoryJobRepository.release, hnone]) hsome
    (Operation.run_consistent (.release jobId workerId) now h.consistent)
  unfold RepositoryCall.Alike
  rw [RepositoryCall.run_release hmemory, RepositoryCall.run_release hpostgres]
  exact ⟨rfl, hrelated⟩

/-- **Updates** are accepted alike and write the same exactly when they are faithful. -/
theorem Related.update (h : Related s t) (attempt : ι) (first : Derivation)
    (rest : List Derivation) :
    ((RepositoryCall.update attempt first rest).Alike now s t ∧
      (RepositoryCall.update attempt first rest).Faithful now t) ∨
    (¬ (RepositoryCall.update attempt first rest).Agrees now s t ∧
      ¬ (RepositoryCall.update attempt first rest).Faithful now t) := by
  -- without a derived record there is no call
  have hnone : (∀ received ∈ s.received attempt, ∃ e, derive received (first :: rest) = .error e) →
      (∀ received ∈ t.received attempt, ∃ e, derive received (first :: rest) = .error e) →
      (RepositoryCall.update attempt first rest).Alike now s t := by
    intro hs ht
    unfold RepositoryCall.Alike
    rw [RepositoryCall.run_update_none hs, RepositoryCall.run_update_none ht]
    exact ⟨rfl, h⟩
  have hreceived := h.received attempt
  cases hs : s.received attempt with
  | none =>
    cases ht : t.received attempt with
    | some received' =>
      rw [hs, ht] at hreceived
      cases hreceived
    | none =>
      refine .inl ⟨hnone ?_ ?_, ?_⟩
      · exact fun _ h => absurd (hs ▸ h) (Option.not_mem_none _)
      · exact fun _ h => absurd (ht ▸ h) (Option.not_mem_none _)
      · exact fun _ h => absurd (ht ▸ h) (Option.not_mem_none _)
  | some received =>
    cases ht : t.received attempt with
    | none =>
      rw [hs, ht] at hreceived
      cases hreceived
    | some received' =>
      rw [hs, ht, Option.rel_some_some] at hreceived
      obtain ⟨e, e', hderive, hderive'⟩ | ⟨record, record', hderive, hderive', hsame, hderived⟩ :=
        hreceived.derive first rest
      · refine .inl ⟨hnone ?_ ?_, ?_⟩
        · exact fun r hr => ⟨e, Option.some.inj (hs.symm.trans hr) ▸ hderive⟩
        · exact fun r hr => ⟨e', Option.some.inj (ht.symm.trans hr) ▸ hderive'⟩
        · intro r hr record hrecord
          rw [← Option.some.inj (ht.symm.trans hr), hderive'] at hrecord
          exact absurd hrecord (Option.not_mem_none _)
      have hfaithful : (RepositoryCall.update attempt first rest).Faithful now t ↔
          ∀ row ∈ t.state.jobs record'.id, FaithfulUpdate record' row now := by
        simp only [RepositoryCall.Faithful, ht, Option.mem_some_iff, forall_eq', hderive',
          Except.toOption]
      rw [hfaithful]
      unfold RepositoryCall.Alike RepositoryCall.Agrees
      rw [RepositoryCall.run_update hs hderive, RepositoryCall.run_update ht hderive']
      unfold inMemoryRepository postgresRepository
      dsimp only
      obtain ⟨repository, db, hmemory, hpostgres, hrest⟩ | ⟨e, e', hmemory, hpostgres, hrest⟩ |
        ⟨repository, e, hmemory, hpostgres, hrest⟩ := h.updates hsame hderived
      · rw [hmemory, hpostgres]
        exact hrest.imp (fun h => ⟨⟨rfl, h.1⟩, h.2⟩) fun h => ⟨fun h' => h.1 h'.2, h.2⟩
      · rw [hmemory, hpostgres]
        exact .inl ⟨⟨rfl, h⟩, hrest⟩
      · rw [hmemory, hpostgres]
        refine .inr ⟨?_, hrest⟩
        rintro ⟨⟨⟩, -⟩

/-- **One call** keeps the sessions related if it is faithful, and otherwise the repositories
disagree on it. -/
theorem Related.step (h : Related s t) (call : RepositoryCall ι) (now : Time) :
    (call.Alike now s t ∧ call.Faithful now t) ∨
    (¬ call.Agrees now s t ∧ ¬ call.Faithful now t) := by
  cases call with
  | claim attempt jobId workerId leaseSeconds =>
    exact .inl ⟨h.claim attempt jobId workerId leaseSeconds, trivial⟩
  | renew jobId workerId leaseSeconds => exact .inl ⟨h.renew jobId workerId leaseSeconds, trivial⟩
  | release jobId workerId => exact .inl ⟨h.release jobId workerId, trivial⟩
  | update attempt first rest => exact h.update attempt first rest

/-- **Runs** from related sessions agree exactly when they are faithful. -/
theorem Related.runs (h : Related s t) (calls : List (Time × RepositoryCall ι)) :
    RunsAgree calls s t ↔ RunsFaithful calls t := by
  induction calls generalizing s t with
  | nil => exact Iff.rfl
  | cons timed calls ih =>
    obtain ⟨now, call⟩ := timed
    unfold RunsAgree RunsFaithful
    obtain ⟨⟨hanswer, hrelated⟩, hfaithful⟩ | ⟨hdisagree, hfaithful⟩ := h.step call now
    · rw [ih hrelated]
      exact and_congr_left fun _ => iff_of_true ⟨hanswer, hrelated.agree⟩ hfaithful
    · exact iff_of_false (fun h => hdisagree h.1) fun h => hfaithful h.1

end Step

/-! ## Whole runs -/

/-- **Agreement of the repositories.** From the same jobs, and over any calls of any attempts at any
times, both repositories accept or refuse every call alike and hold the same jobs after it, exactly
when no update of the lease's owner cancels a queued job, and none brings an unfinished record with
another lease expiry than the row's. -/
theorem runsAgree_iff_runsFaithful [DecidableEq ι] {repository : InMemoryJobRepository}
    {db : Database} (hagree : Agree repository db) (hconsistent : db.Consistent)
    (calls : List (Time × RepositoryCall ι)) :
    RunsAgree calls (.start repository) (.start db) ↔ RunsFaithful calls (.start db) :=
  Related.runs ⟨hagree, hconsistent, fun _ => .none⟩ calls

/-! ## A renewed lease -/

/-- The record of the created job. -/
def sampleRecord : JobRecord := recordFromRow sampleJob sampleRow sampleSource

/-- The created job in memory. -/
def sampleRepository : InMemoryJobRepository where
  records id := if id = sampleJob then some sampleRecord else none
  id_eq id record h := by
    obtain ⟨rfl, hrecord⟩ := Option.ite_none_right_eq_some.mp h
    obtain rfl := Option.some.inj hrecord
    rfl

theorem sample_agree : Agree sampleRepository sampleDatabase := by
  intro id
  unfold sampleRepository sampleDatabase
  dsimp only
  by_cases hid : id = sampleJob
  · rw [if_pos hid, if_pos hid]
    rfl
  · rw [if_neg hid, if_neg hid]
    rfl

theorem sampleDatabase_consistent : sampleDatabase.Consistent := by
  have hjob : ∀ {id row}, sampleDatabase.jobs id = some row → row = sampleRow := fun h =>
    (Option.some.inj (Option.ite_none_right_eq_some.mp h).2).symm
  refine ⟨fun id row h => ?_, fun id row asset h ha => ?_, fun id row h => ?_, fun _ _ _ => nofun,
    by decide⟩
  · exact ⟨sampleSource, List.mem_cons_self, by rw [hjob h]; rfl⟩
  · rw [hjob h] at ha
    cases ha
  · rw [hjob h]
    decide

/-- A lease of 60 seconds is taken, and its owner goes on to validation. -/
def startedCalls : List (Time × RepositoryCall Unit) :=
  [(0, .claim () sampleJob "attempt" 60), (seconds 40, .update () (.transition .validating 10) [])]

theorem startedCalls_agree : RunsAgree startedCalls (.start sampleRepository)
    (.start sampleDatabase) :=
  (runsAgree_iff_runsFaithful sample_agree sampleDatabase_consistent startedCalls).mpr
    (by unfold startedCalls RunsFaithful RunsFaithful RunsFaithful; decide +kernel)

/-- A lease of 60 seconds is renewed after 30, before its owner goes on to validation. -/
def renewedCalls : List (Time × RepositoryCall Unit) :=
  [(0, .claim () sampleJob "attempt" 60), (seconds 30, .renew sampleJob "attempt" 60),
    (seconds 40, .update () (.transition .validating 10) [])]

/-- A claimed job is cancelled. -/
def cancelledCalls : List (Time × RepositoryCall Unit) :=
  [(0, .claim () sampleJob "attempt" 60), (seconds 40, .update () (.transition .cancelled 0) [])]

/-- **The repositories disagree** on a renewed lease and on a cancelled job, though they start from
the same created job and their clock only goes on. -/
theorem repositories_disagree : Agree sampleRepository sampleDatabase ∧
    sampleDatabase.Consistent ∧
    (renewedCalls.Pairwise (·.1 ≤ ·.1) ∧
      ¬ RunsAgree renewedCalls (.start sampleRepository) (.start sampleDatabase)) ∧
    (cancelledCalls.Pairwise (·.1 ≤ ·.1) ∧
      ¬ RunsAgree cancelledCalls (.start sampleRepository) (.start sampleDatabase)) := by
  refine ⟨sample_agree, sampleDatabase_consistent, ⟨by decide, ?_⟩, by decide, ?_⟩
  · rintro ⟨-, -, ⟨-, hagree⟩, -⟩
    exact absurd (hagree sampleJob) (by decide +kernel)
  · rintro ⟨-, ⟨hanswer, -⟩, -⟩
    exact absurd hanswer (by decide +kernel)

end BoulderFrame
