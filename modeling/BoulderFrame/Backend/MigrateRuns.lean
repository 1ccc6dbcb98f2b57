import BoulderFrame.Backend.Migrations

/-!
# Runs of the migrator

However many runs of `migrate` go on over one database, and wherever they are killed, the files are
applied in the order of their names, each once and as a whole; every run that is not killed
finishes with all files applied, whatever legal rows are written in between; and no project, asset,
job or artifact is lost, but for the artifacts of the retired kinds. The files presuppose one thing
that the first schema does not check: the stages of the jobs must be the known ones.

## Main definitions

* `Start`: a database before the runs
* `Migrated`: what the runs have done

## Main results

* `migrate_runs`: what any interleaving of runs and writes has done
* `migrate_refuses_stage`: a job with another stage, and a run that fails
-/

namespace BoulderFrame

namespace Migrations

open Migrator (Event Phase)

variable {ι : Type}

/-- A database and the runs of `migrate` over it. -/
abbrev World (ι : Type) := Migrator.World ι String Statement Database Transaction

/-- The versions of the files, in the order of their names. -/
def versions : List String := migrationFiles.map MigrationFile.version

/-- Some of the first files have been applied, and no run has begun. -/
structure Start (k : ℕ) (w : World ι) : Prop where
  le : k ≤ versions.length
  applied : w.applied = versions.take k
  tracked : 0 < k → w.tracked = true
  legal : Legal k w.content
  free : w.lock = none
  idle : ∀ a, w.runs a = .idle

/-- **What the runs have done**, and what becomes of them. -/
structure Migrated [DecidableEq ι] (w₀ : World ι) (log : List (Event ι String Database))
    (w : World ι) : Prop where
  /-- the applied versions are a prefix of the files -/
  versions : ∃ k, w.applied = versions.take k
  /-- they are those that were there, and those that the runs have recorded -/
  recorded : w.applied = w₀.applied ++ log.filterMap Event.version
  once : w.applied.Nodup
  /-- the content is that of the files and the writes of others, one after another -/
  history : migrator.History w₀.content log w.content
  succeeds : ∀ a, w.runs a ≠ .failed
  finishes : ∀ a, w.runs a = .finished → w.applied = Migrations.versions
  /-- the runs do not go on forever, and do not wait forever -/
  ends : Acc (fun w' w => migrator.Advance w w') w
  ended : ∀ w', Relation.ReflTransGen migrator.Advance w w' → (∀ w'', ¬ migrator.Advance w' w'') →
    ∀ a, w'.runs a = .killed ∨ w'.runs a = .finished
  /-- the projects, assets, jobs and artifacts are changed by the writes of others alone -/
  kept : ∀ P : View → Prop, P (view w₀.content) →
    (∀ db db', .write db db' ∈ log → P (view db) → P (view db')) → P (view w.content)
  /-- after the third file, the artifacts have their new kinds; after the fourth, none is retired -/
  renamed : 3 ≤ w.applied.length → ∀ row ∈ (view w.content).artifacts, row ∈ artifacts w.content
  retired : 4 ≤ w.applied.length → (view w.content).artifacts = artifacts w.content
  /-- an artifact that the writes of others keep has its new kind, in the same job and asset -/
  converted : 3 ≤ w.applied.length → ∀ row ∈ artifacts w₀.content, row.kind ∉ retiredKinds →
    (∀ db db', .write db db' ∈ log → telemetryRow row ∈ (view db).artifacts →
      telemetryRow row ∈ (view db').artifacts) → telemetryRow row ∈ artifacts w.content

theorem Start.inv {k : ℕ} {w : World ι} (h : Start k w) : migrator.Inv Legal k w where
  le := by
    have hle := h.le
    rw [Migrations.versions, List.length_map] at hle
    exact hle
  applied := by
    rw [h.applied, Migrations.versions, List.map_take]
    rfl
  legal := h.legal
  fits a := by
    rw [h.idle a]
    trivial
  held a hlock := by
    rw [h.free] at hlock
    cases hlock

/-- The kinds of the artifacts of a legal content. -/
theorem Legal.kinds {k : ℕ} {db : Database} (h : Legal k db) (hk : 0 < k) :
    ∀ row ∈ artifacts db, row.kind ∈ kindsAt k := by
  obtain ⟨table, htable, hcheck⟩ := h.artifactsTable hk
  intro row hrow
  rw [artifacts, htable] at hrow
  exact h.consistent.artifactKinds table htable _ hcheck row hrow

/-- After the third file, no artifact has the old kind. -/
theorem Legal.telemetryRow_eq {k : ℕ} {db : Database} (h : Legal k db) (hk : 3 ≤ k)
    {row : ArtifactRow} (hrow : row ∈ artifacts db) : telemetryRow row = row := by
  have hkind := h.kinds (by omega) row hrow
  refine if_neg fun hdebug => ?_
  rw [hdebug, kindsAt, if_neg (by omega)] at hkind
  split_ifs at hkind
  · revert hkind
    decide
  · revert hkind
    decide

/-- After the third file, the artifacts of the view are artifacts. -/
theorem Legal.mem_artifacts {k : ℕ} {db : Database} (h : Legal k db) (hk : 3 ≤ k)
    {row : ArtifactRow} (hrow : row ∈ (view db).artifacts) : row ∈ artifacts db := by
  obtain ⟨old, hold, rfl⟩ := List.mem_map.mp hrow
  have hmem := (List.mem_filter.mp hold).1
  rw [h.telemetryRow_eq hk hmem]
  exact hmem

/-- After the fourth file, they are all artifacts. -/
theorem Legal.view_artifacts {k : ℕ} {db : Database} (h : Legal k db) (hk : 4 ≤ k) :
    (view db).artifacts = artifacts db := by
  have hkept : ∀ row ∈ artifacts db, row.kind ∉ retiredKinds := by
    intro row hrow
    have hkind := h.kinds (by omega) row hrow
    rw [kindsAt, if_neg (by omega), if_neg (by omega)] at hkind
    revert hkind
    generalize row.kind = kind
    revert kind
    decide
  rw [view, List.filter_eq_self.mpr fun row hrow => decide_eq_true (hkept row hrow)]
  refine (List.map_congr_left fun row hrow => ?_).trans (List.map_id _)
  exact h.telemetryRow_eq (by omega) hrow

variable [DecidableEq ι] [Fintype ι] {k : ℕ} {w₀ w : World ι}
  {log : List (Event ι String Database)}

/-- **Runs of the migrator**: whatever runs and writes go on together, and wherever runs are killed,
the first files have been applied, each once and as a whole; no run fails, and those that go on
finish with all files applied; and the rows are kept. -/
theorem migrate_runs (hstart : Start k w₀) (htrace : migrator.Trace w₀ log w) :
    Migrated w₀ log w := by
  have hinv₀ := hstart.inv
  obtain ⟨k', hinv⟩ := htrace.inv migrator_sound hinv₀
  have happlied : w.applied = versions.take k' := by
    rw [hinv.applied, versions, List.map_take]
    rfl
  have hlength : w.applied.length ≤ k' := by
    rw [happlied]
    exact List.length_take_le k' _
  have hkept : ∀ P : View → Prop, P (view w₀.content) →
      (∀ db db', .write db db' ∈ log → P (view db) → P (view db')) → P (view w.content) :=
    fun P hP hwrites => htrace.keeps_view migrator_sound hinv₀ hP hwrites
  have hrenamed : 3 ≤ w.applied.length → ∀ row ∈ (view w.content).artifacts,
      row ∈ artifacts w.content := fun h row => hinv.legal.mem_artifacts (h.trans hlength)
  refine ⟨⟨k', happlied⟩, htrace.applied, ?_, htrace.history migrator_sound hinv₀, ?_, ?_,
    Migrator.acc_advance w, ?_, hkept, hrenamed,
    fun h => hinv.legal.view_artifacts (h.trans hlength), ?_⟩
  · rw [happlied]
    exact migrator_sound.versions.sublist (List.take_sublist _ _)
  · intro a hfailed
    have hfits := hinv.fits a
    rw [hfailed] at hfits
    exact hfits
  · exact fun a hfinished => hinv.applied_of_finished hfinished
  · intro w' hadvances hstuck
    obtain ⟨k'', hinv'⟩ := Migrator.inv_of_advances migrator_sound hinv hadvances
    exact Migrator.ended_of_stuck hinv' hstuck
  · intro h row hrow hkind hwrites
    refine hrenamed h _ (hkept (fun v => telemetryRow row ∈ v.artifacts) ?_ hwrites)
    exact List.mem_map_of_mem (List.mem_filter.mpr ⟨hrow, decide_eq_true hkind⟩)

/-! ## Two runs -/

theorem files_zero : migrator.files[0]? = some ⟨"001_init.sql", init⟩ := by
  change migrationFiles[0]? = _
  rw [migrationFiles_eq]
  rfl

theorem files_one : migrator.files[1]? = some ⟨"002_worker_leases.sql", workerLeases⟩ := by
  change migrationFiles[1]? = _
  rw [migrationFiles_eq]
  rfl

theorem files_length : migrator.files.length = 5 := by
  change migrationFiles.length = _
  rw [migrationFiles_eq]
  rfl

theorem versions_take_one : versions.take 1 = ["001_init.sql"] := by
  rw [versions, migrationFiles_eq]
  rfl

def boulderProject : ProjectRow where
  id := ⟨"2c9e4a71-5d36-4b08-8e1f-7a3b0c5d9e64", by decide⟩
  name := "Boulder"
  ownerId := "development-owner"
  createdAt := 0

def boulderAsset (id : Uuid) (kind storageKey : String) : AssetRow where
  id := id
  projectId := boulderProject.id
  kind := kind
  storageKey := storageKey
  uploadState := "uploaded"
  filename := none
  contentType := none
  sizeBytes := 1
  width := none
  height := none
  frameRate := none
  durationMs := none
  createdAt := 0

def boulderSource : AssetRow :=
  boulderAsset ⟨"0d3a9f6e-52a4-4d0f-9c57-3f1f6c1d2e33", by decide⟩ "source" "source.mp4"

def boulderOutput : AssetRow :=
  boulderAsset ⟨"93c1f0de-6b7a-4f35-8f0b-2b9d1f4a7c15", by decide⟩ "output" "output.mp4"

def boulderDebug : AssetRow :=
  boulderAsset ⟨"5be84d2a-7c1f-4a69-b3d0-8e6f0a9c1d27", by decide⟩ "debug" "debug.jsonl.gz"

/-- A job that has been completed. -/
def boulderJob : JobRow where
  id := ⟨"b7d20f58-91ac-4e63-a5f0-4c8e6d1b3a97", by decide⟩
  projectId := boulderProject.id
  sourceAssetId := boulderSource.id
  state := "completed"
  stage := "completed"
  progress := 100
  configuration := .object []
  configurationHash := ""
  errorCode := none
  errorMessage := none
  outputAssetId := some boulderOutput.id
  createdAt := 0
  startedAt := none
  completedAt := none
  leaseOwner := none
  leaseExpiresAt := none
  report := none

def outputArtifact : ArtifactRow :=
  ⟨⟨"e41b7c90-2d5f-4c8e-9a36-1f7d0b3c5e82", by decide⟩, boulderJob.id, boulderOutput.id, "output", 0⟩

/-- The debug artifact of the job, as it was linked under the first schema. -/
def debugArtifact : ArtifactRow :=
  ⟨⟨"7f2c9d13-8a4e-4b60-8d5c-6e0b1a3f9d74", by decide⟩, boulderJob.id, boulderDebug.id, "debug", 0⟩

/-- The tables after the first file, with their rows. -/
def databaseOf (assets : List AssetRow) (job : JobRow) (artifacts : List ArtifactRow) : Database
  | .developmentOwners => some ["development-owner"]
  | .projects => some [boulderProject]
  | .assets => some assets
  | .processingJobs => some ⟨[job], [], none, []⟩
  | .jobArtifacts => some ⟨artifacts, some ["output", "debug"]⟩

theorem schemaOf_databaseOf (assets : List AssetRow) (job : JobRow) (artifacts : List ArtifactRow) :
    schemaOf (databaseOf assets job artifacts) = schemaAt 1 := by
  have htables : (fun t => (databaseOf assets job artifacts t).isSome) = (schemaAt 1).tables := by
    funext t
    cases t <;> rfl
  rw [schemaOf, htables]
  rfl

/-- The job with its output and its debug artifact. -/
def linkedDatabase : Database :=
  databaseOf [boulderSource, boulderOutput, boulderDebug] boulderJob [outputArtifact, debugArtifact]

theorem consistent_linkedDatabase : Consistent linkedDatabase := by
  have hprojects : projects linkedDatabase = [boulderProject] := rfl
  have hassets : assets linkedDatabase = [boulderSource, boulderOutput, boulderDebug] := rfl
  have hjobs : jobs linkedDatabase = [boulderJob] := rfl
  have hartifacts : artifacts linkedDatabase = [outputArtifact, debugArtifact] := rfl
  have howners : owners linkedDatabase = ["development-owner"] := rfl
  constructor
  case stages =>
    rintro _ ⟨⟩ allowed hallowed
    cases hallowed
  case leases =>
    rintro _ ⟨⟩ row hrow
    rw [List.mem_singleton.mp hrow]
    decide
  case artifactKinds =>
    rintro _ ⟨⟩ _ ⟨⟩
    decide
  case jobOutputs =>
    intro row hrow id hid
    rw [hjobs, List.mem_singleton] at hrow
    rw [hrow] at hid
    obtain rfl := Option.some.inj hid
    exact ⟨boulderOutput, by rw [hassets]; simp, rfl⟩
  all_goals
    simp only [hprojects, hassets, hjobs, hartifacts, howners]
    decide +kernel

/-- The first file has been applied to the database. -/
def linkedWorld : World (Fin 2) where
  content := linkedDatabase
  tracked := true
  applied := ["001_init.sql"]
  lock := none
  runs _ := .idle

theorem start_linkedWorld : Start 1 linkedWorld where
  le := by
    rw [versions, migrationFiles_eq]
    decide
  applied := versions_take_one.symm
  tracked _ := rfl
  legal := by
    have hjobs : jobs linkedWorld.content = [boulderJob] := rfl
    refine ⟨schemaOf_databaseOf _ _ _, consistent_linkedDatabase, ?_⟩
    rw [KnownStages, hjobs]
    decide
  free := rfl
  idle _ := rfl

/-- One run is killed within the second file, and the other one goes on to the end. -/
theorem exists_killed_run : ∃ log w, migrator.Trace linkedWorld log w ∧
    (∀ db db', .write db db' ∉ log) ∧ w.runs 0 = .killed ∧ w.runs 1 ≠ .killed ∧
    ∀ w', ¬ migrator.Advance w w' := by
  have hfirst : 0 < migrator.files.length := by
    rw [files_length]
    decide
  have hsecond : 1 < migrator.files.length := by
    rw [files_length]
    decide
  have hnew : "002_worker_leases.sql" ∉ ["001_init.sql"] := by decide
  have h : migrator.Trace linkedWorld [] linkedWorld := .refl
  have h := h.step (.create (a := 0) rfl)
  have h := h.step (.begin (a := 0) rfl hfirst)
  have h := h.step (.lock (a := 0) rfl rfl)
  have h := h.step (.found (a := 0) rfl files_zero rfl (List.mem_singleton_self _))
  have h := h.step (.skip (a := 0) rfl)
  have h := h.step (.begin (a := 0) rfl hsecond)
  have h := h.step (.lock (a := 0) rfl rfl)
  have h := h.step (.missing (a := 0) rfl files_one rfl hnew)
  have h := h.step (.execute (a := 0) rfl rfl)
  have h := h.step (.kill (a := 0) rfl)
  obtain ⟨log, w, htrace, hwrites, hkilled, hends⟩ := h.exists_stuck
  refine ⟨_, w, htrace, fun db db' hmem => ?_, (hkilled 0).mpr rfl, fun h => ?_, hends⟩
  · obtain hmem | hmem := List.mem_append.mp hmem
    · simp at hmem
    · exact hwrites db db' hmem
  · exact nomatch (hkilled 1).mp h

/-- The run that is not killed finishes; the job is as it was, and its debug artifact has its new
kind. -/
theorem migrate_runs_killed : ∃ log w, Migrated linkedWorld log w ∧ w.runs 0 = .killed ∧
    w.runs 1 = .finished ∧ w.applied = versions ∧ jobs w.content = [boulderJob] ∧
    artifacts w.content = [outputArtifact, { debugArtifact with kind := "debug_telemetry" }] := by
  obtain ⟨log, w, htrace, hwrites, hkilled, halive, hends⟩ := exists_killed_run
  have h := migrate_runs start_linkedWorld htrace
  have hfinished := (h.ended w .refl hends 1).resolve_left halive
  have happlied := h.finishes 1 hfinished
  have hview : view w.content = view linkedDatabase :=
    h.kept (· = view linkedDatabase) rfl fun db db' hwrite => absurd hwrite (hwrites db db')
  have hlength : 4 ≤ w.applied.length := by
    rw [happlied, versions, List.length_map]
    exact files_length.symm ▸ by decide
  refine ⟨log, w, h, hkilled, hfinished, happlied, congrArg View.jobs hview, ?_⟩
  rw [← h.retired hlength, hview]
  rfl

/-- A job whose stage is not a known one. -/
def strayJob : JobRow :=
  { boulderJob with state := "analyzing", stage := "detecting", progress := 40, outputAssetId := none }

/-- A database that is legal after the first file. -/
def strayDatabase : Database := databaseOf [boulderSource] strayJob []

theorem consistent_strayDatabase : Consistent strayDatabase := by
  have hprojects : projects strayDatabase = [boulderProject] := rfl
  have hassets : assets strayDatabase = [boulderSource] := rfl
  have hjobs : jobs strayDatabase = [strayJob] := rfl
  have hartifacts : artifacts strayDatabase = [] := rfl
  have howners : owners strayDatabase = ["development-owner"] := rfl
  constructor
  case stages =>
    rintro _ ⟨⟩ allowed hallowed
    cases hallowed
  case leases =>
    rintro _ ⟨⟩ row hrow
    rw [List.mem_singleton.mp hrow]
    decide
  case artifactKinds =>
    rintro _ ⟨⟩ allowed hallowed row hrow
    cases hrow
  case jobOutputs =>
    intro row hrow id hid
    rw [hjobs, List.mem_singleton] at hrow
    rw [hrow] at hid
    cases hid
  all_goals
    simp only [hprojects, hassets, hjobs, hartifacts, howners]
    decide +kernel

def strayWorld : World Unit where
  content := strayDatabase
  tracked := true
  applied := ["001_init.sql"]
  lock := none
  runs _ := .idle

/-- **A job with another stage** is legal after the first file, and makes a run fail. -/
theorem migrate_refuses_stage :
    schemaOf strayWorld.content = schemaAt 1 ∧ Consistent strayWorld.content ∧
    strayWorld.applied = versions.take 1 ∧ strayWorld.lock = none ∧ strayWorld.runs () = .idle ∧
    ∃ w, migrator.Trace strayWorld (List.replicate 10 (.advance ())) w ∧
      w.runs () = .failed := by
  refine ⟨schemaOf_databaseOf _ _ _, consistent_strayDatabase, versions_take_one.symm, rfl, rfl, ?_⟩
  have hfirst : 0 < migrator.files.length := by
    rw [files_length]
    decide
  have hsecond : 1 < migrator.files.length := by
    rw [files_length]
    decide
  have hnew : "002_worker_leases.sql" ∉ ["001_init.sql"] := by decide
  have hcheck : (JobsTable.mk [strayJob] ["lease_owner", "lease_expires_at"] none
      []).ensureStageCheck jobStages = .error .checkViolation := by
    have hall : [strayJob].all (jobStages.contains ·.stage) = false := by decide
    rw [JobsTable.ensureStageCheck, JobsTable.addStageCheck]
    simp only [Option.isSome_none, Bool.false_eq_true, if_false, hall]
  have h : migrator.Trace strayWorld [] strayWorld := .refl
  have h := h.step (.create (a := ()) rfl)
  have h := h.step (.begin (a := ()) rfl hfirst)
  have h := h.step (.lock (a := ()) rfl rfl)
  have h := h.step (.found (a := ()) rfl files_zero rfl (List.mem_singleton_self _))
  have h := h.step (.skip (a := ()) rfl)
  have h := h.step (.begin (a := ()) rfl hsecond)
  have h := h.step (.lock (a := ()) rfl rfl)
  have h := h.step (.missing (a := ()) rfl files_one rfl hnew)
  have h := h.step (.execute (a := ()) rfl rfl)
  refine ⟨_, h.step (.refuse (a := ()) (e := .checkViolation) rfl ?_), rfl⟩
  change ((JobsTable.mk [strayJob] ["lease_owner", "lease_expires_at"] none []).ensureStageCheck
    jobStages >>= fun content => Except.ok (some content)) >>= _ = _
  rw [hcheck]
  rfl

end Migrations

end BoulderFrame
