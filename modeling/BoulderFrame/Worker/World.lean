import BoulderFrame.Repository.Output
import BoulderFrame.Worker.Semantics

/-!
# The world of the attempts

Attempts share the database and the object storage with each other, with their heartbeats, and with
the backend that creates jobs and assets. A call may raise before or after its effect, and what is
outside the worker's control flow answers as it likes. Three records are kept beside them: the
stages whose handlers have returned in an attempt that could still write, the attempt that completed
each job, and the keys that were last put without the lease of their job.

## Main definitions

* `World`, `World.Step`, `World.Env`: the shared state, the effects of an attempt, and the steps of
  the rest
* `World.Inv`: the invariant of the jobs
* `World.Relies`: what an attempt relies on, as long as it holds a lease

## Main results

* `World.Step.inv`, `World.Step.relies`: the effects of an attempt keep the invariant, and what the
  other attempts rely on
* `World.Env.inv`, `World.Env.relies`: so does the rest of the system
-/

namespace BoulderFrame

open PostgresJobRepository

structure World extends Clocked where
  /-- the sizes of the stored objects, by their keys -/
  objects : String → Option ℤ
  /-- the keys that were last put by an attempt without the lease of the job with that output -/
  strays : Set String
  /-- the job, the attempt and the stage of each handler that has returned in time -/
  handled : List (Uuid × String × JobState)
  /-- the attempt whose update completed the job -/
  completedBy : Uuid → Option String

/-- What a call raises when its connection fails, before or after its effect. -/
def Effect.Interrupted : (e : Effect) → e.Answer → Prop
  | .claim .., a | .currentState _, a | .update _, a | .release .., a | .finalizeOutput .., a =>
    ∃ name, a = .error (.other name)
  | _, _ => False

/-- The token that an effect is performed with. -/
def Effect.token : Effect → Option String
  | .claim _ t _ | .release _ t => some t
  | .update record | .finalizeOutput record _ => record.leaseOwner
  | _ => none

/-- The effects whose answers the world does not determine. -/
def Effect.isExternal : Effect → Bool
  | .makeScratch | .heartbeatFailed | .runHandler .. | .loadInputs _ | .render _
  | .loadAnalysisReport => true
  | _ => false

/-- The effects without a token, other than a put. -/
def Effect.isQuiet : Effect → Bool
  | .claim .. | .update _ | .release .. | .finalizeOutput .. | .uploadFile .. => false
  | _ => true

/-- The backend adds assets, and finishes pending uploads. -/
structure AssetTable.Uploads (t t' : AssetTable) : Prop extends AssetTable.Grows t t' where
  uploaded : ∀ a ∈ t.rows, a.uploadState = .uploaded → a ∈ t'.rows

namespace World

variable (w : World)

/-- The database after a call, and who completed its job if the call did. -/
def after : (e : Effect) → e.Answer → Database → World
  | .update record, .ok (), db =>
    { w with
      db := db
      completedBy := if record.state = .completed then
        Function.update w.completedBy record.id record.leaseOwner else w.completedBy }
  | _, _, db => { w with db := db }

/-- A handler has returned: it is recorded if its attempt can still write. -/
def respond (j : Uuid) (t : String) (stage : JobStage) : World :=
  if (w.db.jobs j).any fun row => row.HeldBy t w.now then
    { w with handled := (j, t, stage) :: w.handled }
  else w

/-- The attempt holds the job whose output has the key. -/
def HoldsOutput (t key : String) : Prop :=
  ∃ j row, w.db.jobs j = some row ∧ row.HeldBy t w.now ∧ key = outputStorageKey row.projectId j

/-- An object is put by an attempt. -/
def put (t key : String) (size : ℤ) : World :=
  { w with
    objects := Function.update w.objects key (some size)
    strays := {k | if k = key then ¬ w.HoldsOutput t key else k ∈ w.strays} }

/-- The effects of an attempt, whose rendered file has the given size. -/
inductive Step (files : String → ℤ) (t : String) (w : World) :
    (e : Effect) → e.Answer → World → Prop
  | answered {e a db} (h : e.Calls w.toClocked a db) : Step files t w e a (w.after e a db)
  | lost {e a} (h : e.Interrupted a) : Step files t w e a w
  | interrupted {e a a' db} (h : e.Calls w.toClocked a db) (ha : e.Interrupted a') :
    Step files t w e a' (w.after e a db)
  | put {key contentType a} :
    Step files t w (.uploadFile key contentType) a (w.put t key (files t))
  | unput {key contentType e} : Step files t w (.uploadFile key contentType) (.error e) w
  | head {key size contentType} (h : w.objects key = some size) :
    Step files t w (.headObject key) (.ok (size, contentType)) w
  | unheaded {key e} : Step files t w (.headObject key) (.error e) w
  | fileSize : Step files t w .outputFileSize (.ok (files t)) w
  | unsized {e} : Step files t w .outputFileSize (.error e) w
  | stageResponse {j t' stage} :
    Step files t w (.stageResponse j t' stage) () (w.respond j t' stage)
  | unpublished {record} : Step files t w (.publishReview record) () w
  | published {record reviewId artifacts newId} : Step files t w (.publishReview record) ()
      { w with db := (Operation.finalizeReview record reviewId artifacts newId).run w.now w.db }
  | external {e a} (h : e.isExternal) : Step files t w e a w

/-- The clock, the heartbeats of the attempts, and the backend. -/
inductive Env (w : World) : World → Prop
  | clock {now} (h : w.now ≤ now) : Env w { w with now := now }
  | renew {j t leaseSeconds} :
    Env w { w with db := (Operation.renew j t leaseSeconds).run w.now w.db }
  | createJob {j row} (habsent : w.db.jobs j = none) (hrow : row.Created) :
    Env w { w with db := w.db.setJob j row }
  | assets {assets} (h : AssetTable.Uploads w.db.assets assets) :
    Env w { w with db := { w.db with assets := assets } }

/-! ## The invariant -/

/-- The stored object of an output has the recorded size, unless it was put without the lease. -/
def Stored (a : Asset) : Prop :=
  a.storageKey ∉ w.strays → w.objects a.storageKey = some a.sizeBytes

/-- The invariant of one job: its progress fits its state, the handler of every stage that it has
passed has returned in time, and if it is completed, then by an attempt that uploaded its output. -/
structure JobInv (j : Uuid) (row : JobRow) : Prop where
  schedule : row.OnSchedule
  lease : row.state.isTerminal → row.leaseOwner = none
  handled : ∀ stage, JobState.Before stage row.state → ∃ t, (j, t, stage) ∈ w.handled
  completed : row.state = .completed → ∃ t a, w.completedBy j = some t ∧
    (j, t, .uploading) ∈ w.handled ∧ Linked w.db j row a ∧ w.Stored a

def Inv : Prop := ∀ j row, w.db.jobs j = some row → w.JobInv j row

/-- The output under a key is kept: its asset, and its object unless the key becomes stray. -/
structure OutputKept (key : String) (w w' : World) : Prop where
  object : key ∉ w'.strays → key ∉ w.strays ∧ w'.objects key = w.objects key
  asset : ∀ a ∈ w.db.assets.rows, a.kind = .output → a.uploadState = .uploaded →
    a.storageKey = key → a ∈ w'.db.assets.rows

/-- What an attempt relies on: while it holds a lease, the row of the job stays as it is, up to
the expiry of the lease, and so does the output. -/
structure Relies (t : String) (w w' : World) : Prop where
  now : w.now ≤ w'.now
  assets : AssetTable.Grows w.db.assets w'.db.assets
  handled : w.handled ⊆ w'.handled
  held : ∀ j row', w'.db.jobs j = some row' → row'.HeldBy t w'.now →
    ∃ row, w.db.jobs j = some row ∧ row.HeldBy t w.now ∧
      (∃ expires, row' = { row with leaseExpiresAt := expires }) ∧
      w'.db.artifacts j .output = w.db.artifacts j .output ∧
      OutputKept (outputStorageKey row.projectId j) w w'

end World

/-! ## Rows after an operation -/

section Rows

variable {op : Operation} {now : Time} {db : Database} {i : Uuid} {row' : JobRow}

/-- **The row of a job** after an operation that is no update: the same with the same output, or
another one in the same unfinished state. -/
theorem Operation.run_row (hop : ∀ record, op ≠ .update record)
    (hrow' : (op.run now db).jobs i = some row') : ∃ row, db.jobs i = some row ∧
      (row' = row ∧ (op.run now db).artifacts i .output = db.artifacts i .output ∨
        row.state.isTerminal = false ∧ row'.state = row.state ∧ row'.progress = row.progress) := by
  have heffect := op.run_effect now db
  generalize op.run now db = db' at heffect hrow' ⊢
  cases heffect with
  | unchanged => exact ⟨row', hrow', .inl ⟨rfl, rfl⟩⟩
  | @claim jobId _ _ row row₁ _ hrow hclaim =>
    by_cases hi : i = jobId
    · subst hi
      obtain rfl := Option.some.inj ((db.setJob_jobs_self ..).symm.trans hrow')
      obtain ⟨⟨hunfinished, -⟩, h⟩ := Option.ite_none_right_eq_some.mp hclaim
      obtain rfl := Option.some.inj h
      exact ⟨row, hrow, .inr ⟨hunfinished, rfl, rfl⟩⟩
    · exact ⟨row', (db.setJob_jobs_of_ne _ hi).symm.trans hrow', .inl ⟨rfl, rfl⟩⟩
  | @row token row row₁ _ hrow hchange _ _ hkept =>
    by_cases hi : i = op.job
    · subst hi
      obtain rfl := Option.some.inj ((db.setJob_jobs_self ..).symm.trans hrow')
      exact ⟨row, hrow, .inr ⟨hchange.rowStep.unfinished, hkept hop⟩⟩
    · exact ⟨row', (db.setJob_jobs_of_ne _ hi).symm.trans hrow', .inl ⟨rfl, rfl⟩⟩
  | @output token row assets asset _ hrow hstate =>
    by_cases hi : i = op.job
    · subst hi
      obtain rfl := Option.some.inj ((db.setJob_jobs_self ..).symm.trans hrow')
      exact ⟨row, hrow, .inr ⟨by rw [hstate]; rfl, rfl, rfl⟩⟩
    · refine ⟨row', (db.setJob_jobs_of_ne _ hi).symm.trans hrow', .inl ⟨rfl, ?_⟩⟩
      exact congrFun (Function.update_of_ne hi ..) _
  | review => exact ⟨row', hrow', .inl ⟨rfl, linkReview_artifacts_output ..⟩⟩

/-- **A row with another owner** than the token of an operation is the same after it. -/
theorem Operation.run_row_of_owner {t : String} (ht : op.token ≠ some t)
    (hrow' : (op.run now db).jobs i = some row') (howner : row'.leaseOwner = some t) :
    db.jobs i = some row' ∧ (op.run now db).artifacts i .output = db.artifacts i .output := by
  have heffect := op.run_effect now db
  generalize op.run now db = db' at heffect hrow' ⊢
  cases heffect with
  | unchanged => exact ⟨hrow', rfl⟩
  | @claim jobId workerId _ row row₁ hop hrow hclaim =>
    by_cases hi : i = jobId
    · subst hi
      obtain rfl := Option.some.inj ((db.setJob_jobs_self ..).symm.trans hrow')
      rw [leaseOwner_of_claimSql hclaim] at howner
      exact absurd (hop ▸ howner) ht
    · exact ⟨(db.setJob_jobs_of_ne _ hi).symm.trans hrow', rfl⟩
  | @row token row row₁ htoken hrow hchange =>
    by_cases hi : i = op.job
    · subst hi
      obtain rfl := Option.some.inj ((db.setJob_jobs_self ..).symm.trans hrow')
      obtain h | h := hchange.leaseOwner
      · exact absurd (htoken.trans (hchange.owner.symm.trans (h.symm.trans howner))) ht
      · exact nomatch h.symm.trans howner
    · exact ⟨(db.setJob_jobs_of_ne _ hi).symm.trans hrow', rfl⟩
  | @output token row assets asset htoken hrow hstate hheld =>
    by_cases hi : i = op.job
    · subst hi
      obtain rfl := Option.some.inj ((db.setJob_jobs_self ..).symm.trans hrow')
      exact absurd (htoken.trans (hheld.1.symm.trans howner)) ht
    · exact ⟨(db.setJob_jobs_of_ne _ hi).symm.trans hrow', congrFun (Function.update_of_ne hi ..) _⟩
  | review => exact ⟨hrow', linkReview_artifacts_output ..⟩

end Rows

namespace World

variable {w w' w'' : World} {j : Uuid} {t key : String} {row row' : JobRow}

/-! ## Outputs are kept -/

theorem Stored.later {a : Asset} (h : w.Stored a) (hkept : OutputKept a.storageKey w w') :
    w'.Stored a := by
  intro hstray
  obtain ⟨hstray', hobject⟩ := hkept.object hstray
  exact hobject.trans (h hstray')

namespace OutputKept

theorem of_same (hobjects : w'.objects = w.objects) (hstrays : w'.strays = w.strays)
    (hassets : ∀ a ∈ w.db.assets.rows, a.uploadState = .uploaded → a ∈ w'.db.assets.rows) :
    OutputKept key w w' where
  object h := ⟨hstrays ▸ h, congrFun hobjects key⟩
  asset a ha _ hstate _ := hassets a ha hstate

theorem rfl : OutputKept key w w := of_same (Eq.refl _) (Eq.refl _) fun _ ha _ => ha

theorem trans (h : OutputKept key w w') (h' : OutputKept key w' w'') : OutputKept key w w'' where
  object hstray := by
    obtain ⟨hstray', hobject'⟩ := h'.object hstray
    obtain ⟨hstray, hobject⟩ := h.object hstray'
    exact ⟨hstray, hobject'.trans hobject⟩
  asset a ha hkind hstate hkey := h'.asset a (h.asset a ha hkind hstate hkey) hkind hstate hkey

/-- An operation keeps the output of a job that its token does not hold. -/
theorem run {op : Operation} (hrow : w.db.jobs j = some row)
    (hheld : ∀ token, op.token = some token → ¬ row.HeldBy token w.now) :
    OutputKept (outputStorageKey row.projectId j) w { w with db := op.run w.now w.db } where
  object h := ⟨h, Eq.refl _⟩
  asset a ha hkind _ hkey := by
    obtain h | ⟨token, row', htoken, hrow', hheld', hkey'⟩ := op.run_output_asset ha hkind
    · exact h
    · obtain ⟨-, rfl⟩ := outputStorageKey_injective (hkey.symm.trans hkey')
      obtain rfl := Option.some.inj (hrow'.symm.trans hrow)
      exact absurd hheld' (hheld token htoken)

/-- A put by an attempt that does not hold the job makes the key of its output stray. -/
theorem put {size : ℤ} (hrow : w.db.jobs j = some row) (hheld : ¬ row.HeldBy t w.now) :
    OutputKept (outputStorageKey row.projectId j) w (w.put t key size) where
  object h := by
    by_cases hkey : outputStorageKey row.projectId j = key
    · subst hkey
      simp only [World.put, Set.mem_ofPred_eq, if_true, not_not] at h
      obtain ⟨j', row', hrow', hheld', hkey⟩ := h
      obtain ⟨-, rfl⟩ := outputStorageKey_injective hkey
      obtain rfl := Option.some.inj (hrow'.symm.trans hrow)
      exact absurd hheld' hheld
    · simp only [World.put, Set.mem_ofPred_eq, if_neg hkey] at h
      exact ⟨h, Function.update_of_ne hkey ..⟩
  asset _ ha _ _ _ := ha

end OutputKept

/-! ## What the invariant survives -/

theorem JobInv.later (h : w.JobInv j row) (hhandled : w.handled ⊆ w'.handled)
    (hcompleted : row.state = .completed → w'.completedBy j = w.completedBy j ∧
      w'.db.artifacts j .output = w.db.artifacts j .output ∧
      OutputKept (outputStorageKey row.projectId j) w w') : w'.JobInv j row where
  schedule := h.schedule
  lease := h.lease
  handled stage hstage := by
    obtain ⟨t, ht⟩ := h.handled stage hstage
    exact ⟨t, hhandled ht⟩
  completed hc := by
    obtain ⟨hcompletedBy, hartifact, hkept⟩ := hcompleted hc
    obtain ⟨t, a, ht, huploading, ha, hstored⟩ := h.completed hc
    have hmem := hkept.asset a ha.mem ha.kind ha.uploaded ha.key.2
    exact ⟨t, a, hcompletedBy.trans ht, hhandled huploading, ha.later hmem hartifact ⟨rfl, rfl⟩,
      hstored.later (ha.key.2 ▸ hkept)⟩

theorem JobInv.of_state (h : w.JobInv j row) (hunfinished : row.state.isTerminal = false)
    (hstate : row'.state = row.state) (hprogress : row'.progress = row.progress)
    (hhandled : w.handled ⊆ w'.handled) : w'.JobInv j row' where
  schedule := by
    rw [JobRow.OnSchedule, hstate, hprogress]
    exact h.schedule
  lease hterminal := by
    rw [hstate, hunfinished] at hterminal
    cases hterminal
  handled stage hstage := by
    obtain ⟨t, ht⟩ := h.handled stage (hstate ▸ hstage)
    exact ⟨t, hhandled ht⟩
  completed hcompleted := by
    rw [← hstate, hcompleted] at hunfinished
    cases hunfinished

/-- A completed job is not held. -/
theorem JobInv.not_held (h : w.JobInv j row) (hcompleted : row.state = .completed)
    {now : Time} : ¬ row.HeldBy t now := by
  intro hheld
  have hnone := h.lease (by rw [hcompleted]; rfl)
  exact nomatch hnone.symm.trans hheld.1

/-- **An operation that is no update** keeps the invariant. -/
theorem Inv.run {op : Operation} (h : w.Inv) (hop : ∀ record, op ≠ .update record) :
    Inv { w with db := op.run w.now w.db } := by
  intro i row' hrow'
  obtain ⟨row, hrow, ⟨rfl, hartifact⟩ | ⟨hunfinished, hstate, hprogress⟩⟩ :=
    Operation.run_row hop hrow'
  · refine (h i row' hrow).later (List.Subset.refl _) fun hcompleted => ⟨rfl, hartifact, ?_⟩
    exact .run hrow fun token _ => (h i row' hrow).not_held hcompleted
  · exact (h i row hrow).of_state hunfinished hstate hprogress (List.Subset.refl _)

/-- A step that keeps the rows keeps the invariant, if it keeps the outputs of completed jobs. -/
theorem Inv.of_same (h : w.Inv) (hdb : w'.db.jobs = w.db.jobs)
    (hartifacts : w'.db.artifacts = w.db.artifacts) (hhandled : w.handled ⊆ w'.handled)
    (hcompletedBy : w'.completedBy = w.completedBy)
    (hkept : ∀ j row, w.db.jobs j = some row → row.state = .completed →
      OutputKept (outputStorageKey row.projectId j) w w') : w'.Inv := by
  intro j row hrow
  rw [hdb] at hrow
  exact (h j row hrow).later hhandled fun hc =>
    ⟨congrFun hcompletedBy j, by rw [hartifacts], hkept j row hrow hc⟩

theorem Inv.put (h : w.Inv) {size : ℤ} : (w.put t key size).Inv :=
  h.of_same rfl rfl (List.Subset.refl _) rfl fun j row hrow hcompleted =>
    .put hrow ((h j row hrow).not_held hcompleted)

theorem Inv.respond (h : w.Inv) (stage : JobStage) : (w.respond j t stage).Inv := by
  unfold World.respond
  split_ifs
  · exact h.of_same rfl rfl (List.subset_cons_self ..) rfl fun _ _ _ _ =>
      .of_same rfl rfl fun _ ha _ => ha
  · exact h

/-! ## What an attempt relies on -/

namespace Relies

theorem rfl : Relies t w w :=
  ⟨le_rfl, .rfl, List.Subset.refl _, fun _ row hrow hheld =>
    ⟨row, hrow, hheld, ⟨row.leaseExpiresAt, Eq.refl _⟩, Eq.refl _, .rfl⟩⟩

theorem trans (h : Relies t w w') (h' : Relies t w' w'') : Relies t w w'' where
  now := h.now.trans h'.now
  assets := h.assets.trans h'.assets
  handled _ hx := h'.handled (h.handled hx)
  held j row'' hrow'' hheld'' := by
    obtain ⟨row', hrow', hheld', ⟨expires, rfl⟩, hartifact', hkept'⟩ := h'.held j row'' hrow'' hheld''
    obtain ⟨row, hrow, hheld, ⟨expires', rfl⟩, hartifact, hkept⟩ := h.held j row' hrow' hheld'
    exact ⟨row, hrow, hheld, ⟨expires, Eq.refl _⟩, hartifact'.trans hartifact, hkept.trans hkept'⟩

/-- A step that keeps the rows that the attempt owns. -/
theorem of_same (hnow : w.now ≤ w'.now) (hassets : AssetTable.Grows w.db.assets w'.db.assets)
    (hhandled : w.handled ⊆ w'.handled)
    (hsame : ∀ j row, w'.db.jobs j = some row → row.leaseOwner = some t →
      w.db.jobs j = some row ∧ w'.db.artifacts j .output = w.db.artifacts j .output ∧
        OutputKept (outputStorageKey row.projectId j) w w') : Relies t w w' where
  now := hnow
  assets := hassets
  handled := hhandled
  held j row hrow hheld := by
    obtain ⟨hrow', hartifact, hkept⟩ := hsame j row hrow hheld.1
    exact ⟨row, hrow', hheld.earlier hnow, ⟨row.leaseExpiresAt, Eq.refl _⟩, hartifact, hkept⟩

/-- **An operation of another attempt** changes no row that this one holds. -/
theorem run {op : Operation} (ht : op.token ≠ some t) :
    Relies t w { w with db := op.run w.now w.db } := by
  refine of_same le_rfl (op.run_assets w.now w.db) (List.Subset.refl _) fun j row hrow howner => ?_
  obtain ⟨hrow', hartifact⟩ := Operation.run_row_of_owner ht hrow howner
  refine ⟨hrow', hartifact, .run hrow' fun token htoken hheld => ht ?_⟩
  rw [htoken, ← hheld.1, howner]

/-- An operation that keeps the output assets and the rows, up to the expiry of the lease that it
renews. -/
theorem of_kept {op : Operation}
    (hassets : ∀ a ∈ w.db.assets.rows, a.kind = .output → a ∈ (op.run w.now w.db).assets.rows)
    (hheld : ∀ j row', (op.run w.now w.db).jobs j = some row' → row'.HeldBy t w.now →
      ∃ row, w.db.jobs j = some row ∧ row.HeldBy t w.now ∧
        (∃ expires, row' = { row with leaseExpiresAt := expires }) ∧
        (op.run w.now w.db).artifacts j .output = w.db.artifacts j .output) :
    Relies t w { w with db := op.run w.now w.db } where
  now := le_rfl
  assets := op.run_assets w.now w.db
  handled := List.Subset.refl _
  held j row' hrow' hheld' := by
    obtain ⟨row, hrow, hheld, hexpires, hartifact⟩ := hheld j row' hrow' hheld'
    exact ⟨row, hrow, hheld, hexpires, hartifact,
      ⟨fun h => ⟨h, Eq.refl _⟩, fun a ha hkind _ _ => hassets a ha hkind⟩⟩

/-- A review changes neither rows nor outputs. -/
theorem review {record : JobRecord} {reviewId : Uuid} {artifacts : List ReviewArtifact}
    {newId : ReviewRole → Uuid} : Relies t w { w with
      db := (Operation.finalizeReview record reviewId artifacts newId).run w.now w.db } := by
  obtain ⟨-, hdb⟩ | ⟨_, _, _, _, _, -, -, -, -, hassets, hdb, -⟩ :=
    finalizeReview_cases (Prod.eta (finalizeReview record reviewId artifacts newId w.now w.db)).symm
  · simp only [Operation.run, hdb]
    exact rfl
  · refine of_kept (fun a ha hkind => ?_) fun j row hrow hheld => ?_
    · rw [Operation.run, hdb]
      exact mem_of_reviewAssets hassets ha hkind
    · rw [Operation.run, hdb] at hrow ⊢
      exact ⟨row, hrow, hheld, ⟨row.leaseExpiresAt, Eq.refl _⟩, linkReview_artifacts_output ..⟩

/-- A heartbeat changes the expiry of a held lease. -/
theorem renew {t' : String} {leaseSeconds : ℤ} :
    Relies t w { w with db := (Operation.renew j t' leaseSeconds).run w.now w.db } := by
  refine of_kept (fun a ha _ => (executeOn_assets ..).symm ▸ ha) fun i row' hrow' hheld' => ?_
  obtain ⟨-, hdb, -⟩ | ⟨-, hdb, -⟩ | ⟨row, row₁, hrow, hrow₁, -, hdb, -⟩ := executeOn_cases
    (Prod.eta (PostgresJobRepository.renew j t' leaseSeconds w.now w.db)).symm
  · rw [Operation.run, hdb] at hrow' ⊢
    exact ⟨row', hrow', hheld', ⟨row'.leaseExpiresAt, Eq.refl _⟩, Eq.refl _⟩
  · rw [Operation.run, hdb] at hrow' ⊢
    exact ⟨row', hrow', hheld', ⟨row'.leaseExpiresAt, Eq.refl _⟩, Eq.refl _⟩
  · rw [Operation.run, hdb] at hrow' ⊢
    by_cases hi : i = j
    · subst hi
      obtain rfl := Option.some.inj ((w.db.setJob_jobs_self ..).symm.trans hrow')
      obtain ⟨⟨hheld, -⟩, h⟩ := Option.ite_none_right_eq_some.mp hrow₁
      obtain rfl := Option.some.inj h
      obtain rfl := Option.some.inj (hheld'.1.symm.trans hheld.1)
      exact ⟨row, hrow, hheld, ⟨_, Eq.refl _⟩, Eq.refl _⟩
    · exact ⟨row', (w.db.setJob_jobs_of_ne _ hi).symm.trans hrow', hheld', ⟨_, Eq.refl _⟩, Eq.refl _⟩

/-- A created job has no owner. -/
theorem createJob (hrow : row.Created) : Relies t w { w with db := w.db.setJob j row } := by
  refine of_same le_rfl .rfl (List.Subset.refl _) fun i r hr howner => ?_
  by_cases hi : i = j
  · subst hi
    obtain rfl := Option.some.inj ((w.db.setJob_jobs_self ..).symm.trans hr)
    exact nomatch hrow.leaseOwner.symm.trans howner
  · exact ⟨(w.db.setJob_jobs_of_ne _ hi).symm.trans hr, Eq.refl _,
      .of_same (Eq.refl _) (Eq.refl _) fun _ ha _ => ha⟩

/-- **A put of another attempt** makes the key stray, if it is that of a held job. -/
theorem put {t' : String} {size : ℤ} (ht : t' ≠ t) : Relies t w (w.put t' key size) :=
  of_same le_rfl .rfl (List.Subset.refl _) fun _ _ hrow howner =>
    ⟨hrow, Eq.refl _, .put hrow fun hheld => ht (Option.some.inj (hheld.1.symm.trans howner))⟩

theorem respond (stage : JobStage) {t' : String} : Relies t w (w.respond j t' stage) := by
  unfold World.respond
  split_ifs
  · exact of_same le_rfl .rfl (List.subset_cons_self ..) fun _ _ hrow _ =>
      ⟨hrow, Eq.refl _, .of_same (Eq.refl _) (Eq.refl _) fun _ ha _ => ha⟩
  · exact rfl

end Relies

/-! ## The rest of the system -/

theorem jobInv_of_created (hrow : row.Created) : w.JobInv j row where
  schedule := by
    rw [JobRow.OnSchedule, hrow.state, hrow.progress]
    decide
  lease _ := hrow.leaseOwner
  handled stage hstage := by
    rw [hrow.state] at hstage
    exact absurd hstage.2 (Nat.not_lt_zero _)
  completed hcompleted := nomatch hrow.state.symm.trans hcompleted

theorem Env.inv (h : w.Inv) (henv : w.Env w') : w'.Inv := by
  cases henv with
  | clock hnow =>
    exact h.of_same rfl rfl (List.Subset.refl _) rfl fun _ _ _ _ => .of_same rfl rfl fun _ ha _ => ha
  | @renew j t leaseSeconds =>
    have hop : ∀ record, Operation.renew j t leaseSeconds ≠ .update record := fun _ => nofun
    exact h.run hop
  | @createJob j row habsent hrow =>
    intro i r hr
    by_cases hi : i = j
    · subst hi
      obtain rfl := Option.some.inj ((w.db.setJob_jobs_self ..).symm.trans hr)
      exact jobInv_of_created hrow
    · have hr' := (w.db.setJob_jobs_of_ne _ hi).symm.trans hr
      exact (h i r hr').later (List.Subset.refl _) fun _ =>
        ⟨rfl, rfl, .of_same rfl rfl fun _ ha _ => ha⟩
  | assets hassets =>
    exact h.of_same rfl rfl (List.Subset.refl _) rfl fun _ _ _ _ =>
      .of_same rfl rfl hassets.uploaded

theorem Env.relies (henv : w.Env w') (t : String) : Relies t w w' := by
  cases henv with
  | clock hnow =>
    exact .of_same hnow .rfl (List.Subset.refl _) fun _ _ hrow _ =>
      ⟨hrow, rfl, .of_same rfl rfl fun _ ha _ => ha⟩
  | renew => exact .renew
  | createJob habsent hrow => exact .createJob hrow
  | assets hassets =>
    exact .of_same le_rfl hassets.toGrows (List.Subset.refl _) fun _ _ hrow _ =>
      ⟨hrow, rfl, .of_same rfl rfl hassets.uploaded⟩

/-! ## The effects of an attempt -/

section Step

variable {files : String → ℤ} {e : Effect} {a : e.Answer} {db : Database}

/-- **A call** reads, or is an operation with its token. -/
theorem calls_run (h : e.Calls w.toClocked a db) : db = w.db ∨
    ∃ op : Operation, db = op.run w.now w.db ∧ op.token = e.token ∧
      ((∀ record, e ≠ .update record) → ∀ record, op ≠ .update record) := by
  cases e with
  | claim jobId attemptId leaseSeconds =>
    exact .inr ⟨.claim jobId attemptId leaseSeconds, congrArg Prod.snd h.symm, rfl,
      fun _ _ => nofun⟩
  | currentState => exact .inl (congrArg Prod.snd h).symm
  | update record =>
    exact .inr ⟨.update record, congrArg Prod.snd h.symm, rfl, fun he => absurd rfl (he record)⟩
  | release jobId attemptId =>
    exact .inr ⟨.release jobId attemptId, congrArg Prod.snd h.symm, rfl, fun _ _ => nofun⟩
  | finalizeOutput record output =>
    obtain ⟨newId, h⟩ := h
    exact .inr ⟨.finalizeOutput record output newId, congrArg Prod.snd h.symm, rfl,
      fun _ _ => nofun⟩
  | _ => exact h.elim

theorem after_eq (w : World) (e : Effect) (a : e.Answer) (db : Database) :
    ∃ completedBy, w.after e a db = { w with db := db, completedBy := completedBy } := by
  unfold after
  split
  · exact ⟨_, rfl⟩
  · exact ⟨w.completedBy, rfl⟩

theorem after_of_ne_update (he : ∀ record, e ≠ .update record) :
    w.after e a db = { w with db := db } := by
  unfold after
  split
  · exact absurd rfl (he _)
  · rfl

theorem Relies.after (h : e.Calls w.toClocked a db) (ht : e.token ≠ some t) :
    Relies t w (w.after e a db) := by
  have hrun : Relies t w { w with db := db } := by
    obtain rfl | ⟨op, rfl, htoken, -⟩ := calls_run h
    · exact .rfl
    · exact .run (htoken ▸ ht)
  obtain ⟨completedBy, heq⟩ := after_eq w e a db
  rw [heq]
  exact ⟨hrun.now, hrun.assets, hrun.handled, fun j row hrow hheld => by
    obtain ⟨row', hrow', hheld', hexpires, hartifact, hkept⟩ := hrun.held j row hrow hheld
    exact ⟨row', hrow', hheld', hexpires, hartifact, hkept.object, hkept.asset⟩⟩

/-- **An effect of another attempt** keeps what this one relies on. -/
theorem Step.relies {t' : String} (h : Step files t' w e a w') (ht : t' ≠ t)
    (htoken : e.token ≠ some t) : Relies t w w' := by
  cases h with
  | answered h => exact .after h htoken
  | lost => exact .rfl
  | interrupted h => exact .after h htoken
  | put => exact .put ht
  | stageResponse => exact .respond _
  | published => exact .review
  | _ => exact .rfl

/-- **An effect without a token**, other than a put, keeps what any attempt relies on. -/
theorem Step.quiet {t' : String} (h : Step files t' w e a w') (he : e.isQuiet) (t : String) :
    Relies t w w' := by
  have htoken : e.token ≠ some t := by
    cases e <;> simp_all [Effect.isQuiet, Effect.token]
  cases h with
  | answered h => exact .after h htoken
  | lost => exact .rfl
  | interrupted h => exact .after h htoken
  | put => cases he
  | stageResponse => exact .respond _
  | published => exact .review
  | _ => exact .rfl

/-- **An effect that is no update** keeps the invariant. -/
theorem Step.inv (h : Step files t w e a w') (hinv : w.Inv) (he : ∀ record, e ≠ .update record) :
    w'.Inv := by
  have hcall : ∀ {a' db}, e.Calls w.toClocked a' db → (w.after e a' db).Inv := by
    intro a' db hcall
    rw [after_of_ne_update he]
    obtain rfl | ⟨op, rfl, -, hop⟩ := calls_run hcall
    · exact hinv
    · exact hinv.run (hop he)
  cases h with
  | answered h => exact hcall h
  | lost => exact hinv
  | interrupted h => exact hcall h
  | put => exact hinv.put
  | stageResponse => exact hinv.respond _
  | published => exact hinv.run fun _ => nofun
  | _ => exact hinv

/-- An update that may be stored: its progress fits its state, and if the stored row is held and
admits it, then the stages that it leaves behind have been handled, and what it completes has its
output. -/
structure Advances (t : String) (record : JobRecord) (w : World) : Prop where
  owner : record.leaseOwner = some t
  progress : record.progress ≤ record.state.stageProgress
  handled : ∀ row, w.db.jobs record.id = some row → row.HeldBy t w.now →
    updateAdmits row.state record.state → ∀ stage, JobState.Before stage record.state →
      JobState.Before stage row.state ∨ (record.id, t, stage) ∈ w.handled
  completed : ∀ row, w.db.jobs record.id = some row → row.HeldBy t w.now →
    record.state = .completed → (record.id, t, .uploading) ∈ w.handled ∧
      ∃ a, Linked w.db record.id row a ∧ w.Stored a

/-- **An update that advances the job** keeps the invariant. -/
theorem Inv.update {record : JobRecord} {out : Except Raised Unit} (h : w.Inv)
    (hadvances : w.Advances t record)
    (hcall : PostgresJobRepository.update record w.now w.db = (out, db)) :
    (w.after (.update record) out db).Inv := by
  obtain ⟨⟨e, rfl, -⟩, rfl⟩ | ⟨owner, row, row', howner, hrow, hrow', hcheck, rfl, rfl⟩ :=
    update_cases hcall
  · exact h
  obtain rfl := Option.some.inj (hadvances.owner.symm.trans howner)
  obtain ⟨⟨hheld, -, -, -, -, hadmits⟩, heq⟩ := Option.ite_none_right_eq_some.mp hrow'
  intro i r hr
  by_cases hi : i = record.id
  · subst hi
    obtain rfl : row' = r := Option.some.inj ((w.db.setJob_jobs_self ..).symm.trans hr)
    obtain rfl := Option.some.inj heq
    refine ⟨⟨hcheck.1, hadvances.progress⟩, fun hterminal => if_pos hterminal,
      fun stage hstage => ?_, fun hcompleted => ?_⟩
    · obtain hbefore | hhandled := hadvances.handled row hrow hheld hadmits stage hstage
      · exact (h _ row hrow).handled stage hbefore
      · exact ⟨t, hhandled⟩
    · have hrecord : record.state = .completed := hcompleted
      obtain ⟨hhandled, a, hlinked, hstored⟩ := hadvances.completed row hrow hheld hrecord
      refine ⟨t, a, ?_, hhandled, hlinked.later hlinked.mem rfl ⟨rfl, rfl⟩, hstored⟩
      simp only [after, hrecord, if_true, Function.update_self, howner]
  · have hr' : w.db.jobs i = some r := (w.db.setJob_jobs_of_ne _ hi).symm.trans hr
    refine (h i r hr').later (List.Subset.refl _) fun _ => ⟨?_, rfl, .of_same rfl rfl fun _ ha _ => ha⟩
    simp only [after]
    split_ifs
    · exact Function.update_of_ne hi ..
    · rfl

/-- **An update by an attempt** keeps the invariant if it advances the job. -/
theorem Step.update_inv {record : JobRecord} {a : Except Raised Unit}
    (h : Step files t w (.update record) a w') (hinv : w.Inv) (hadvances : w.Advances t record) :
    w'.Inv := by
  cases h with
  | answered h => exact hinv.update hadvances h
  | lost => exact hinv
  | interrupted h => exact hinv.update hadvances h
  | external h => cases h

theorem Step.update_ok {record : JobRecord} (h : Step files t w (.update record) (.ok ()) w') :
    ∃ row, w'.db.jobs record.id = some row ∧ row.state = record.state := by
  cases h with
  | answered h =>
    obtain ⟨⟨_, he, -⟩, -⟩ | ⟨owner, row, row', -, -, hrow', -, rfl, -⟩ := update_cases h
    · cases he
    · obtain rfl := Option.some.inj (Option.ite_none_right_eq_some.mp hrow').2
      exact ⟨_, w.db.setJob_jobs_self .., rfl⟩
  | lost h =>
    obtain ⟨_, h⟩ := h
    cases h
  | interrupted _ h =>
    obtain ⟨_, h⟩ := h
    cases h
  | external h => cases h

theorem Step.update_error {record : JobRecord} {e : Raised}
    (h : Step files t w (.update record) (.error e) w') : e.isWorker = false := by
  cases h with
  | answered h =>
    obtain ⟨⟨_, he, hworker⟩, -⟩ | ⟨_, _, _, -, -, -, -, -, he⟩ := update_cases h
    · exact Except.error.inj he ▸ hworker
    · cases he
  | lost h =>
    obtain ⟨_, h⟩ := h
    exact Except.error.inj h ▸ rfl
  | interrupted _ h =>
    obtain ⟨_, h⟩ := h
    exact Except.error.inj h ▸ rfl
  | external h => cases h

/-- What a failed connection raises is no failure of the worker's own. -/
theorem isWorker_of_interrupted {α : Type} {raised : Raised}
    (h : ∃ name, (Except.error raised : Except Raised α) = .error (.other name)) :
    raised.isWorker = false := by
  obtain ⟨_, h⟩ := h
  exact Except.error.inj h ▸ rfl

theorem Step.release_error {raised : Raised}
    (h : Step files t w (.release j t) (.error raised) w') : raised.isWorker = false := by
  cases h with
  | answered h =>
    obtain ⟨he, -, -⟩ | ⟨he, -, -⟩ | ⟨_, _, -, -, -, -, he⟩ := executeOn_cases h
    · cases he
    · exact Except.error.inj he ▸ rfl
    · cases he
  | lost h => exact isWorker_of_interrupted h
  | interrupted _ h => exact isWorker_of_interrupted h
  | external h => cases h

/-- **A claim** that returns a record holds its row. -/
theorem Step.claim_ok {leaseSeconds : ℤ} {record : JobRecord}
    (h : Step files t w (.claim j t leaseSeconds) (.ok (some record)) w') (hinv : w.Inv) :
    record.id = j ∧ record.leaseOwner = some t ∧ record.progress ≤ record.state.stageProgress ∧
      ∃ row, w'.db.jobs j = some row ∧ row.state = record.state := by
  cases h with
  | answered h =>
    obtain ⟨he, -⟩ | ⟨row, row', source, hrow, -, hclaim, rfl, he⟩ := claim_cases h
    · cases Except.ok.inj he
    · obtain rfl := Option.some.inj (Except.ok.inj he)
      obtain rfl := Option.some.inj (Option.ite_none_right_eq_some.mp hclaim).2
      exact ⟨rfl, rfl, (hinv j row hrow).schedule.2, _, w.db.setJob_jobs_self .., rfl⟩
  | lost h =>
    obtain ⟨_, h⟩ := h
    cases h
  | interrupted _ h =>
    obtain ⟨_, h⟩ := h
    cases h
  | external h => cases h

theorem Step.claim_error {leaseSeconds : ℤ} {raised : Raised}
    (h : Step files t w (.claim j t leaseSeconds) (.error raised) w') : raised.isWorker = false := by
  cases h with
  | answered h =>
    obtain ⟨he, -⟩ | ⟨_, _, _, -, -, -, -, he⟩ := claim_cases h
    · cases he
    · cases he
  | lost h => exact isWorker_of_interrupted h
  | interrupted _ h => exact isWorker_of_interrupted h
  | external h => cases h

theorem Step.currentState_ok {state : Option JobState}
    (h : Step files t w (.currentState j) (.ok state) w') : (w'.db.jobs j).map (·.state) = state := by
  cases h with
  | answered h =>
    obtain ⟨he, rfl⟩ := Prod.mk.inj h
    exact Except.ok.inj he
  | lost h =>
    obtain ⟨_, h⟩ := h
    cases h
  | interrupted _ h =>
    obtain ⟨_, h⟩ := h
    cases h
  | external h => cases h

theorem Step.currentState_error {raised : Raised}
    (h : Step files t w (.currentState j) (.error raised) w') : raised.isWorker = false := by
  cases h with
  | answered h => cases (Prod.mk.inj h).1
  | lost h => exact isWorker_of_interrupted h
  | interrupted _ h => exact isWorker_of_interrupted h
  | external h => cases h

end Step

/-! ## Undisturbed answers -/

/-- A call that is answered. -/
def called (w : World) (e : Effect) (result : e.Answer × Database) : e.Answer × World :=
  (result.1, w.after e result.1 result.2)

/-- What every effect answers if nothing fails, with the id and the media of a new output. -/
def serve (files : String → ℤ) (newId : Uuid) (media : MediaMetadata) (t : String) :
    (e : Effect) → World → e.Answer × World
  | .claim jobId attemptId leaseSeconds, w =>
    w.called (.claim jobId attemptId leaseSeconds) (claim jobId attemptId leaseSeconds w.now w.db)
  | .currentState jobId, w => w.called (.currentState jobId) (currentState jobId w.now w.db)
  | .update record, w => w.called (.update record) (PostgresJobRepository.update record w.now w.db)
  | .release jobId attemptId, w =>
    w.called (.release jobId attemptId) (release jobId attemptId w.now w.db)
  | .finalizeOutput record output, w =>
    w.called (.finalizeOutput record output) (finalizeOutput record output newId w.now w.db)
  | .makeScratch, w => (.ok (), w)
  | .heartbeatFailed, w => (false, w)
  | .runHandler .., w => (.ok [], w)
  | .stageResponse j t' stage, w => ((), w.respond j t' stage)
  | .publishReview _, w => ((), w)
  | .loadInputs _, w => (.ok media, w)
  | .render _, w => (.ok media, w)
  | .uploadFile key _, w => (.ok (), w.put t key (files t))
  | .headObject key, w =>
    (match w.objects key with
      | some size => .ok (size, some "video/mp4")
      | none => .error (.other "NotFound"), w)
  | .outputFileSize, w => (.ok (files t), w)
  | .loadAnalysisReport, w => (.ok [], w)

/-- **An undisturbed answer** is one that the world may give. -/
theorem serve_step (files : String → ℤ) (newId : Uuid) (media : MediaMetadata) (t : String)
    (e : Effect) (w : World) :
    Step files t w e (serve files newId media t e w).1 (serve files newId media t e w).2 := by
  cases e with
  | claim | update | release => exact .answered (Prod.eta _).symm
  | currentState => exact .answered rfl
  | finalizeOutput => exact .answered ⟨newId, (Prod.eta _).symm⟩
  | makeScratch | heartbeatFailed | runHandler | loadInputs | render | loadAnalysisReport =>
    exact .external rfl
  | stageResponse => exact .stageResponse
  | publishReview => exact .unpublished
  | uploadFile => exact .put
  | outputFileSize => exact .fileSize
  | headObject key =>
    cases h : w.objects key with
    | none =>
      simp only [serve, h]
      exact .unheaded
    | some size =>
      simp only [serve, h]
      exact .head h

end World

end BoulderFrame
