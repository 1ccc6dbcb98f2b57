import BoulderFrame.Repository.Operations
import Mathlib.Logic.Relation

/-!
# Single ownership of a job

Any number of attempts issue operations on one job in any order, each with its own lease token,
while the clock of the database advances and leases expire. The guards of the statements together
keep the row of the job on its path, and lock an attempt out once another one has claimed the row.

## Main definitions

* `JobState.Moves`: the moves of a job's state
* `JobRow.Sound`, `RowStep`: the invariant of the row, and what one operation may do to it
* `Tenure`, `Tenure.Step`, `Tenure.Run`: the database, the clock and the past owners of the row

## Main results

* `RowChange.rowStep`, `rowStep_of_claimSql`: every statement is such a step
* `Tenure.Invariant.of_run`: the owner of the row is the latest claimer, in every run
* `Tenure.single_ownership`: what holds of the row in every reachable state
-/

namespace BoulderFrame

/-- The next state on the way to completion. -/
def JobState.next : JobState → Option JobState
  | .queued => some .validating
  | .validating => some .analyzing
  | .analyzing => some .rendering
  | .rendering => some .uploading
  | .uploading => some .completed
  | .completed | .failed | .cancelled => none

/-- A state in which a stage of the job has started and not all are done. -/
def JobState.isStarted : JobState → Bool
  | .validating | .analyzing | .rendering | .uploading => true
  | _ => false

/-- A job stays in its state, moves on to the next one, or fails from a started stage. -/
def JobState.Moves (s s' : JobState) : Prop :=
  s' = s ∨ s.next = some s' ∨ (s.isStarted ∧ s' = .failed)

theorem moves_of_updateAdmits {s s' : JobState} (h : updateAdmits s s') : s.Moves s' := by
  unfold updateAdmits at h
  unfold JobState.Moves
  cases s <;> cases s' <;> simp_all [JobState.next, JobState.isStarted]

theorem isTerminal_of_updateAdmits {s s' : JobState} (h : updateAdmits s s') :
    s.isTerminal = false := by
  unfold updateAdmits at h
  obtain ⟨rfl, -⟩ | ⟨rfl, -⟩ | ⟨rfl, -⟩ | ⟨rfl, -⟩ | ⟨rfl, -⟩ := h <;> rfl

theorem ne_cancelled_of_updateAdmits {s s' : JobState} (h : updateAdmits s s') :
    s' ≠ .cancelled := by
  rintro rfl
  simp [updateAdmits] at h

/-! ## Steps of the row -/

/-- The invariant of a job's row. -/
structure JobRow.Sound (row : JobRow) : Prop where
  stage_eq : row.stage = row.state
  progress : row.state = .completed → row.progress = 100
  lease : row.state.isTerminal → row.leaseOwner = none ∧ row.leaseExpiresAt = none
  ne_cancelled : row.state ≠ .cancelled

/-- The row of a job that has just been created. -/
structure JobRow.Created (row : JobRow) : Prop where
  state : row.state = .queued
  stage : row.stage = .queued
  progress : row.progress = 0
  leaseOwner : row.leaseOwner = none

theorem JobRow.Created.sound {row : JobRow} (h : row.Created) : row.Sound where
  stage_eq := h.stage.trans h.state.symm
  progress hc := by
    rw [h.state] at hc
    cases hc
  lease hterminal := by
    rw [h.state] at hterminal
    cases hterminal
  ne_cancelled hc := by
    rw [h.state] at hc
    cases hc

/-- What one operation may do to a job's row. -/
structure RowStep (row row' : JobRow) : Prop where
  unfinished : row.state.isTerminal = false
  moves : row.state.Moves row'.state
  progress : row.progress ≤ row'.progress
  sound : row.Sound → row'.Sound

/-- A write that keeps the state of an unfinished row, with its stage and progress. -/
theorem RowStep.of_same_state {row row' : JobRow} (hunfinished : row.state.isTerminal = false)
    (hstate : row'.state = row.state) (hstage : row'.stage = row.stage)
    (hprogress : row'.progress = row.progress) : RowStep row row' where
  unfinished := hunfinished
  moves := .inl hstate
  progress := hprogress.ge
  sound h :=
    { stage_eq := by rw [hstage, hstate, h.stage_eq]
      progress := fun hc => by rw [hprogress, h.progress (hstate ▸ hc)]
      lease := fun hterminal => by
        rw [hstate, hunfinished] at hterminal
        cases hterminal
      ne_cancelled := hstate ▸ h.ne_cancelled }

theorem rowStep_of_claimSql {workerId : String} {leaseSeconds : ℤ} {now : Time} {row row' : JobRow}
    (h : claimSql workerId leaseSeconds now row = some row') : RowStep row row' := by
  obtain ⟨⟨hunfinished, -⟩, h⟩ := Option.ite_none_right_eq_some.mp h
  obtain rfl := Option.some.inj h
  exact .of_same_state hunfinished rfl rfl rfl

theorem leaseOwner_of_claimSql {workerId : String} {leaseSeconds : ℤ} {now : Time}
    {row row' : JobRow} (h : claimSql workerId leaseSeconds now row = some row') :
    row'.leaseOwner = some workerId := by
  obtain rfl := Option.some.inj (Option.ite_none_right_eq_some.mp h).2
  rfl

/-- **Every change by an owner** is a step of the row. -/
theorem RowChange.rowStep {token : String} {now : Time} {row row' : JobRow}
    (h : RowChange token now row row') : RowStep row row' := by
  cases h with
  | renew leaseSeconds h =>
    obtain ⟨⟨-, hunfinished⟩, h⟩ := Option.ite_none_right_eq_some.mp h
    obtain rfl := Option.some.inj h
    exact .of_same_state hunfinished rfl rfl rfl
  | release h =>
    obtain ⟨⟨-, hunfinished⟩, h⟩ := Option.ite_none_right_eq_some.mp h
    obtain rfl := Option.some.inj h
    exact .of_same_state hunfinished rfl rfl rfl
  | update record h =>
    obtain ⟨⟨-, -, hprogress, hcompleted, hstage, hadmits⟩, h⟩ :=
      Option.ite_none_right_eq_some.mp h
    obtain rfl := Option.some.inj h
    exact
      { unfinished := isTerminal_of_updateAdmits hadmits
        moves := moves_of_updateAdmits hadmits
        progress := hprogress
        sound := fun _ =>
          { stage_eq := hstage
            progress := fun hc => hcompleted.resolve_left (not_not.mpr hc)
            lease := fun hterminal => ⟨if_pos hterminal, if_pos hterminal⟩
            ne_cancelled := ne_cancelled_of_updateAdmits hadmits } }
  | link asset hstate hheld =>
    exact .of_same_state (by rw [hstate]; rfl) rfl rfl rfl

/-- A change by the owner keeps the owner, or gives the lease up. -/
theorem RowChange.leaseOwner {token : String} {now : Time} {row row' : JobRow}
    (h : RowChange token now row row') :
    row'.leaseOwner = row.leaseOwner ∨ row'.leaseOwner = none := by
  cases h with
  | renew leaseSeconds h =>
    obtain rfl := Option.some.inj (Option.ite_none_right_eq_some.mp h).2
    exact .inl rfl
  | release h =>
    obtain rfl := Option.some.inj (Option.ite_none_right_eq_some.mp h).2
    exact .inr rfl
  | update record h =>
    obtain rfl := Option.some.inj (Option.ite_none_right_eq_some.mp h).2
    by_cases hterminal : record.state.isTerminal = true
    · exact .inr (if_pos hterminal)
    · exact .inl (if_neg hterminal)
  | link asset hstate hheld => exact .inl rfl

/-! ## Runs -/

/-- The database and its clock, with the tokens that have owned the row of a job, the latest
first. -/
structure Tenure where
  db : Database
  now : Time
  owners : List String

namespace Tenure

/-- The owners so far, and the one that the row names now. -/
def noteOwner (owners : List String) (row : Option JobRow) : List String :=
  match row.bind (·.leaseOwner) with
  | some owner => if owner ∈ owners then owners else owner :: owners
  | none => owners

/-- The state after an operation at a time of the clock. -/
def after (j : Uuid) (s : Tenure) (op : Operation) (now : Time) : Tenure where
  db := op.run now s.db
  now := now
  owners := noteOwner s.owners ((op.run now s.db).jobs j)

/-- Every claim of the job is issued with a token that has not owned its row. -/
def Admits (j : Uuid) (s : Tenure) (op : Operation) : Prop :=
  ∀ workerId leaseSeconds, op = .claim j workerId leaseSeconds → workerId ∉ s.owners

/-- One operation of any attempt, or a change of the database elsewhere, no earlier than the
last. -/
inductive Step (j : Uuid) (s : Tenure) : Tenure → Prop
  | operation (op : Operation) (now : Time) (hnow : s.now ≤ now) (hop : Admits j s op) :
    Step j s (after j s op now)
  | elsewhere (db : Database) (now : Time) (hnow : s.now ≤ now) (hjob : db.jobs j = s.db.jobs j)
      (hartifacts : db.artifacts j = s.db.artifacts j) : Step j s { s with db := db, now := now }

/-- Any number of steps. -/
abbrev Run (j : Uuid) : Tenure → Tenure → Prop := Relation.ReflTransGen (Step j)

/-- The row of the job is sound, and its owner, if any, is the latest of the past owners. -/
structure Invariant (j : Uuid) (s : Tenure) (row : JobRow) : Prop where
  row_eq : s.db.jobs j = some row
  sound : row.Sound
  owner : ∀ owner, row.leaseOwner = some owner → s.owners.head? = some owner
  nodup : s.owners.Nodup

variable {j : Uuid} {s s' : Tenure} {row : JobRow}

theorem noteOwner_of_head {owners : List String} {owner : String} (h : row.leaseOwner = some owner)
    (hhead : owners.head? = some owner) : noteOwner owners (some row) = owners := by
  simp only [noteOwner, Option.bind_some, h]
  rw [if_pos (List.mem_of_mem_head? hhead)]

theorem noteOwner_of_none {owners : List String} (h : row.leaseOwner = none) :
    noteOwner owners (some row) = owners := by
  simp only [noteOwner, Option.bind_some, h]

theorem noteOwner_of_not_mem {owners : List String} {owner : String}
    (h : row.leaseOwner = some owner) (howner : owner ∉ owners) :
    noteOwner owners (some row) = owner :: owners := by
  simp only [noteOwner, Option.bind_some, h]
  rw [if_neg howner]

/-- The invariant is kept by a write of the row that keeps its owner or drops it. -/
theorem Invariant.keep {row' : JobRow} {db : Database} {now : Time} (h : Invariant j s row)
    (hrow' : db.jobs j = some row') (hsound : row'.Sound)
    (howner : row'.leaseOwner = row.leaseOwner ∨ row'.leaseOwner = none) :
    Invariant j ⟨db, now, noteOwner s.owners (some row')⟩ row' := by
  have hnote : noteOwner s.owners (some row') = s.owners := by
    cases hnone : row'.leaseOwner with
    | none => exact noteOwner_of_none hnone
    | some owner =>
      have hrow : row.leaseOwner = some owner := by
        rw [← howner.resolve_right (by rw [hnone]; nofun), hnone]
      exact noteOwner_of_head hnone (h.owner owner hrow)
  rw [hnote]
  refine ⟨hrow', hsound, fun owner ho => ?_, h.nodup⟩
  exact h.owner owner (by rw [← howner.resolve_right (by rw [ho]; nofun), ho])

/-- **One step** keeps the invariant; the row stays, or makes a step of its own. -/
theorem Invariant.step (h : Invariant j s row) (hstep : Step j s s') :
    ∃ row', Invariant j s' row' ∧ (row' = row ∨ RowStep row row') := by
  cases hstep with
  | elsewhere db now hnow hjob hartifacts =>
    exact ⟨row, ⟨hjob.trans h.row_eq, h.sound, h.owner, h.nodup⟩, .inl rfl⟩
  | operation op now hnow hop =>
    obtain hsame | ⟨workerId, leaseSeconds, row₁, row', rfl, hrow₁, hrow', hclaim⟩ |
      ⟨token, row₁, row', -, -, hrow₁, hrow', hchange⟩ := op.run_jobs now s.db j
    · refine ⟨row, ?_, .inl rfl⟩
      have hrow := hsame.trans h.row_eq
      simpa only [after, hrow] using h.keep hrow h.sound (.inl rfl)
    · obtain rfl := Option.some.inj (hrow₁.symm.trans h.row_eq)
      have hstep := rowStep_of_claimSql hclaim
      have hnew : workerId ∉ s.owners := hop workerId leaseSeconds rfl
      have howner : row'.leaseOwner = some workerId := leaseOwner_of_claimSql hclaim
      refine ⟨row', ?_, .inr hstep⟩
      simp only [after, hrow', noteOwner_of_not_mem howner hnew]
      exact ⟨hrow', hstep.sound h.sound, fun owner ho => howner.symm.trans ho,
        List.nodup_cons.mpr ⟨hnew, h.nodup⟩⟩
    · obtain rfl := Option.some.inj (hrow₁.symm.trans h.row_eq)
      have hstep := hchange.rowStep
      refine ⟨row', ?_, .inr hstep⟩
      simpa only [after, hrow'] using h.keep hrow' (hstep.sound h.sound) hchange.leaseOwner

/-- **In every run** the invariant is kept, progress never decreases, and a finished row stays. -/
theorem Invariant.of_run (h : Invariant j s row) (hrun : Run j s s') :
    ∃ row', Invariant j s' row' ∧ row.progress ≤ row'.progress ∧
      (row.state.isTerminal → row' = row) := by
  induction hrun with
  | refl => exact ⟨row, h, le_rfl, fun _ => rfl⟩
  | tail _ hstep ih =>
    obtain ⟨row₁, h₁, hprogress, hfinished⟩ := ih
    obtain ⟨row₂, h₂, rfl | hrow⟩ := h₁.step hstep
    · exact ⟨row₂, h₂, hprogress, hfinished⟩
    · refine ⟨row₂, h₂, hprogress.trans hrow.progress, fun hterminal => ?_⟩
      have hunfinished := hrow.unfinished
      rw [hfinished hterminal, hterminal] at hunfinished
      cases hunfinished

/-- **A superseded token** owns the row no more: an operation with it leaves the row and the
artifacts of the job, and changes nothing at all if it is about the job. -/
theorem Invariant.superseded (h : Invariant j s row) {token : String}
    (htoken : token ∈ s.owners.tail) {op : Operation} (hop : op.token = some token)
    (hadmits : Admits j s op) (now : Time) :
    (op.run now s.db).jobs j = s.db.jobs j ∧ (op.run now s.db).artifacts j = s.db.artifacts j ∧
      (op.job = j → op.run now s.db = s.db) := by
  have howner : row.leaseOwner ≠ some token := by
    intro ho
    have hhead := h.owner token ho
    have hnodup := h.nodup
    cases howners : s.owners with
    | nil =>
      rw [howners] at hhead
      cases hhead
    | cons owner owners =>
      rw [howners] at hhead htoken hnodup
      obtain rfl := Option.some.inj hhead
      exact (List.nodup_cons.mp hnodup).1 htoken
  have hself : op.job = j → op.run now s.db = s.db := by
    intro hj
    refine op.run_eq_self now s.db (fun jobId workerId leaseSeconds hclaim => ?_) fun row₁ hrow₁ => ?_
    · subst hclaim
      obtain rfl : jobId = j := hj
      obtain rfl := Option.some.inj hop
      exact hadmits workerId leaseSeconds rfl (List.mem_of_mem_tail htoken)
    · obtain rfl := Option.some.inj (hrow₁.symm.trans (hj ▸ h.row_eq))
      exact hop ▸ howner
  refine ⟨?_, ?_, hself⟩
  · obtain hsame | ⟨workerId, leaseSeconds, -, -, rfl, -⟩ | ⟨-, -, -, hj, -⟩ := op.run_jobs now s.db j
    · exact hsame
    · exact congrArg (·.jobs j) (hself rfl)
    · exact congrArg (·.jobs j) (hself hj)
  · obtain hsame | ⟨-, -, hj, -⟩ := op.run_artifacts now s.db j
    · exact hsame
    · exact congrArg (·.artifacts j) (hself hj)

/-- What holds of a job's row in a state of a run. -/
structure SingleOwnership (j : Uuid) (s : Tenure) (row : JobRow) : Prop where
  row_eq : s.db.jobs j = some row
  stage_eq : row.stage = row.state
  completed : row.state = .completed → row.progress = 100
  lease : row.state = .completed ∨ row.state = .failed →
    row.leaseOwner = none ∧ row.leaseExpiresAt = none
  /-- each step moves the state along its path, and never lowers the progress -/
  step : ∀ s', Step j s s' → ∃ row', s'.db.jobs j = some row' ∧ row.state.Moves row'.state ∧
    row.progress ≤ row'.progress
  /-- the row of a finished job never changes again -/
  finished : row.state = .completed ∨ row.state = .failed →
    ∀ s', Run j s s' → s'.db.jobs j = some row
  /-- an attempt whose token has been superseded changes neither the row with its output link nor
  the artifacts of the job, and nothing at all by an operation on the job -/
  superseded : ∀ token ∈ s.owners.tail, ∀ op : Operation, op.token = some token →
    Admits j s op → ∀ now, (op.run now s.db).jobs j = s.db.jobs j ∧
      (op.run now s.db).artifacts j = s.db.artifacts j ∧
      (op.job = j → op.run now s.db = s.db)

theorem Invariant.singleOwnership (h : Invariant j s row) : SingleOwnership j s row := by
  have hterminal : row.state = .completed ∨ row.state = .failed → row.state.isTerminal = true := by
    rintro (hc | hf)
    · rw [hc]
      rfl
    · rw [hf]
      rfl
  refine
    { row_eq := h.row_eq
      stage_eq := h.sound.stage_eq
      completed := h.sound.progress
      lease := fun hfinished => h.sound.lease (hterminal hfinished)
      step := fun s' hstep => ?_
      finished := fun hfinished s' hrun => ?_
      superseded := fun token htoken op hop hadmits now => h.superseded htoken hop hadmits now }
  · obtain ⟨row', h', rfl | hrow⟩ := h.step hstep
    · exact ⟨row', h'.row_eq, .inl rfl, le_rfl⟩
    · exact ⟨row', h'.row_eq, hrow.moves, hrow.progress⟩
  · obtain ⟨row', h', -, hstays⟩ := h.of_run hrun
    exact hstays (hterminal hfinished) ▸ h'.row_eq

/-- **Single ownership.** In every state that a created job can reach, whatever the attempts issue
and in whatever order, its row is on its path, a finished row is final, and a superseded attempt
is locked out. -/
theorem single_ownership {s₀ : Tenure} {row₀ : JobRow} (hrow₀ : s₀.db.jobs j = some row₀)
    (hcreated : row₀.Created) (howners : s₀.owners = []) (hrun : Run j s₀ s) :
    ∃ row, SingleOwnership j s row := by
  have h₀ : Invariant j s₀ row₀ :=
    { row_eq := hrow₀
      sound := hcreated.sound
      owner := fun owner ho => by
        rw [hcreated.leaseOwner] at ho
        cases ho
      nodup := howners ▸ List.nodup_nil }
  obtain ⟨row, h, -⟩ := h₀.of_run hrun
  exact ⟨row, h.singleOwnership⟩

/-- A created job, without past owners. -/
def created : Tenure := ⟨sampleDatabase, 0, []⟩

/-- A job that one attempt has claimed, and another one when the first lease has expired. -/
def takenOver : Tenure :=
  (created.after sampleJob (.claim sampleJob "first" 60) 0).after sampleJob
    (.claim sampleJob "second" 60) 60000000

theorem single_ownership_takenOver : takenOver.owners = ["second", "first"] ∧
    ∃ row, SingleOwnership sampleJob takenOver row := by
  have hfirst : Step sampleJob created (created.after sampleJob (.claim sampleJob "first" 60) 0) :=
    .operation _ 0 (by decide) fun _ _ h => by
      obtain ⟨-, rfl, -⟩ := Operation.claim.inj h
      decide
  have hsecond : Step sampleJob (created.after sampleJob (.claim sampleJob "first" 60) 0)
      takenOver :=
    .operation _ 60000000 (by decide) fun _ _ h => by
      obtain ⟨-, rfl, -⟩ := Operation.claim.inj h
      decide
  have hcreated : sampleRow.Created := ⟨rfl, rfl, rfl, rfl⟩
  exact ⟨by decide, single_ownership (by rfl) hcreated rfl (.tail (.single hfirst) hsecond)⟩

end Tenure

end BoulderFrame
