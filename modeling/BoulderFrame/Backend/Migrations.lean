import BoulderFrame.Backend.Schema

/-!
# The files one after another

Each file of the repository can be applied to every content that is legal under the schema of the
files before it, if the stages of the jobs are the known ones; the content is then legal under the
next schema. No file changes a project, an asset or a job, and none but the third and fourth
changes the artifacts: the third gives the debug artifacts their new kind, the fourth removes those
of the retired kinds.

## Main definitions

* `Consistent`: the keys and the checks of the tables hold
* `schemaOf`, `schemaAt`: the schema of a database, and the schema after some files
* `migrator`: the migrator over the files of the repository
* `View`: what the files keep

## Main results

* `Local`: a statement depends on nothing but the tables that it locks
* `migrator_sound`: the files can be applied, whatever is written in between
-/

namespace BoulderFrame

namespace Migrations

/-! ## Legal contents -/

def owners (db : Database) : List String := (db .developmentOwners).getD []

def projects (db : Database) : List ProjectRow := (db .projects).getD []

def assets (db : Database) : List AssetRow := (db .assets).getD []

def jobs (db : Database) : List JobRow := ((db .processingJobs).map JobsTable.rows).getD []

def artifacts (db : Database) : List ArtifactRow :=
  ((db .jobArtifacts).map ArtifactsTable.rows).getD []

/-- `length(trim(name))` -/
def trimmedLength (text : String) : ℕ :=
  ((text.toList.dropWhile (· = ' ')).reverse.dropWhile (· = ' ')).length

/-- An artifact's place in its job. -/
def ArtifactRow.role (row : ArtifactRow) : Uuid × String := (row.jobId, row.kind)

/-- **The keys and the checks** of the tables hold. -/
structure Consistent (db : Database) : Prop where
  owners : (owners db).Nodup
  projectIds : ((projects db).map ProjectRow.id).Nodup
  projectNames : ∀ row ∈ projects db, trimmedLength row.name ∈ Set.Icc 1 200
  projectOwners : ∀ row ∈ projects db, row.ownerId ∈ Migrations.owners db
  assetIds : ((assets db).map AssetRow.id).Nodup
  storageKeys : ((assets db).map AssetRow.storageKey).Nodup
  assetProjects : ∀ row ∈ assets db, ∃ project ∈ projects db, project.id = row.projectId
  assetKinds : ∀ row ∈ assets db, row.kind ∈ ["source", "output", "debug"]
  uploadStates : ∀ row ∈ assets db, row.uploadState ∈ ["pending", "uploaded", "invalid"]
  sizes : ∀ row ∈ assets db, 0 ≤ row.sizeBytes
  jobIds : ((jobs db).map JobRow.id).Nodup
  jobProjects : ∀ row ∈ jobs db, ∃ project ∈ projects db, project.id = row.projectId
  jobSources : ∀ row ∈ jobs db, ∃ asset ∈ assets db, asset.id = row.sourceAssetId
  jobOutputs : ∀ row ∈ jobs db, ∀ id, row.outputAssetId = some id →
    ∃ asset ∈ assets db, asset.id = id
  jobStates : ∀ row ∈ jobs db, row.state ∈ jobStages
  progress : ∀ row ∈ jobs db, row.progress ∈ Set.Icc 0 100
  configurations : ((jobs db).map fun row => (row.projectId, row.configurationHash)).Nodup
  stages : ∀ table, db .processingJobs = some table → ∀ allowed, table.stageCheck = some allowed →
    ∀ row ∈ table.rows, row.stage ∈ allowed
  leases : ∀ table, db .processingJobs = some table → ∀ row ∈ table.rows,
    (row.leaseOwner.isSome → "lease_owner" ∈ table.columns) ∧
    (row.leaseExpiresAt.isSome → "lease_expires_at" ∈ table.columns) ∧
    (row.report.isSome → "report" ∈ table.columns)
  artifactIds : ((artifacts db).map ArtifactRow.id).Nodup
  artifactJobs : ∀ row ∈ artifacts db, ∃ job ∈ jobs db, job.id = row.jobId
  artifactAssets : ∀ row ∈ artifacts db, ∃ asset ∈ assets db, asset.id = row.assetId
  artifactKinds : ∀ table, db .jobArtifacts = some table → ∀ allowed,
    table.kindCheck = some allowed → ∀ row ∈ table.rows, row.kind ∈ allowed
  artifactRoles : ((artifacts db).map ArtifactRow.role).Nodup

/-- The stages of the jobs are the known ones. -/
def KnownStages (db : Database) : Prop := ∀ row ∈ jobs db, row.stage ∈ jobStages

/-- The tables that exist, the columns, the check and the indexes of `processing_jobs`, and the
check of `job_artifacts`. -/
structure Schema where
  tables : Table → Bool
  jobs : Option (List String × Option (List String) × List String)
  artifacts : Option (Option (List String))

/-- The schema of a database. -/
def schemaOf (db : Database) : Schema where
  tables t := (db t).isSome
  jobs := (db .processingJobs).map fun table => (table.columns, table.stageCheck, table.indexes)
  artifacts := (db .jobArtifacts).map ArtifactsTable.kindCheck

/-- The kinds of artifacts that are allowed after some files. -/
def kindsAt (k : ℕ) : List String :=
  if k < 3 then ["output", "debug"]
  else if k = 3 then ["output", "debug_telemetry", "debug_manifest", "debug_measurement",
    "debug_pose", "debug_tracking", "debug_planning", "debug_render"]
  else ["output", "debug_telemetry", "debug_manifest", "debug_detection", "debug_framing",
    "debug_render"]

/-- The schema after some files. -/
def schemaAt (k : ℕ) : Schema where
  tables _ := decide (0 < k)
  jobs :=
    if k = 0 then none
    else if k = 1 then some ([], none, [])
    else if k < 5 then some (["lease_owner", "lease_expires_at"], some jobStages,
      ["processing_jobs_claim_eligibility_idx"])
    else some (["lease_owner", "lease_expires_at", "report"], some jobStages,
      ["processing_jobs_claim_eligibility_idx"])
  artifacts := if k = 0 then none else some (some (kindsAt k))

/-- **A legal content** under the schema after some files. -/
structure Legal (k : ℕ) (db : Database) : Prop where
  schema : schemaOf db = schemaAt k
  consistent : Consistent db
  stages : KnownStages db

/-- What others write: a legal content, of the same schema. -/
structure Writes (db db' : Database) : Prop where
  schema : schemaOf db' = schemaOf db
  consistent : Consistent db'
  stages : KnownStages db'

/-! ## The migrator -/

/-- The tables that a transaction has not locked are those that others have written. -/
def rebase (db : Database) (work : Transaction) : Transaction where
  db t := if t ∈ work.locked then work.db t else db t
  locked := work.locked

/-- The migrator over the files of the repository. -/
def migrator : Migrator String Statement Database Transaction SqlError where
  files := migrationFiles
  start db := ⟨db, []⟩
  execute := execute
  commit work := work.db
  write := Writes
  compatible work db db' := ∀ t ∈ work.locked, db' t = db t
  rebase := rebase

/-! ## Locked tables -/

/-- The tables that the transaction has not locked are as they are committed. -/
def Tracks (db : Database) (work : Transaction) : Prop := ∀ t, t ∉ work.locked → work.db t = db t

/-- **A part of a transaction** depends on nothing but the tables that it locks. -/
def Local (step : Transaction → Except SqlError Transaction) : Prop :=
  ∀ ⦃db db' : Database⦄ ⦃work work' : Transaction⦄, Tracks db work → step work = .ok work' →
    (∀ t ∈ work'.locked, db' t = db t) →
      Tracks db work' ∧ (∀ t ∈ work.locked, t ∈ work'.locked) ∧
        step (rebase db' work) = .ok (rebase db' work')

theorem Local.ok : Local .ok := by
  rintro db db' work _ htracks ⟨⟩ hsame
  exact ⟨htracks, fun _ => id, rfl⟩

theorem Local.bind {f g : Transaction → Except SqlError Transaction} (hf : Local f)
    (hg : Local g) : Local fun work => f work >>= g := by
  intro db db' work work' htracks h hsame
  obtain ⟨between, hbetween, h⟩ := Except.bind_eq_ok.mp h
  have hunchanged : ∀ t ∈ between.locked, db t = db t := fun _ _ => rfl
  obtain ⟨htracks', -, -⟩ := hf htracks hbetween hunchanged
  obtain ⟨hlast, hsubset, hg⟩ := hg htracks' h hsame
  obtain ⟨-, hsubset', hf⟩ := hf htracks hbetween fun t ht => hsame t (hsubset t ht)
  refine ⟨hlast, fun t ht => hsubset t (hsubset' t ht), ?_⟩
  dsimp only
  rw [hf, Except.ok_bind, hg]

theorem local_onTable (t : Table)
    (f : Option t.Content → Except SqlError (Option t.Content)) : Local (onTable t f) := by
  intro db db' work work' htracks h hsame
  obtain ⟨content, hcontent, h⟩ := Except.bind_eq_ok.mp h
  obtain rfl := Except.ok.inj h
  refine ⟨fun s hs => ?_, fun s => List.mem_cons_of_mem t, ?_⟩
  · obtain ⟨hne, hs⟩ := not_or.mp (List.mem_cons.not.mp hs)
    exact (Function.update_of_ne hne _ _).trans (htracks s hs)
  · have hread : (rebase db' work).db t = work.db t := by
      unfold rebase
      dsimp only
      split_ifs with ht
      · rfl
      · rw [hsame t List.mem_cons_self, htracks t ht]
    rw [onTable, hread, hcontent, Except.ok_bind]
    refine congrArg Except.ok (Transaction.mk.injEq .. ▸ ⟨funext fun s => ?_, rfl⟩)
    unfold rebase
    by_cases hs : s = t
    · subst hs
      dsimp only
      rw [Function.update_self, if_pos List.mem_cons_self, Function.update_self]
    · dsimp only
      rw [Function.update_of_ne hs, Function.update_of_ne hs]
      simp only [List.mem_cons, hs, false_or]

theorem local_references (references : List Table) : Local fun work =>
    references.foldlM (fun work t => onTable t (existing .ok) work) work := by
  induction references with
  | nil => exact Local.ok
  | cons t references ih =>
    simp only [List.foldlM_cons]
    exact Local.bind (local_onTable t _) ih

theorem local_execute (statement : Statement) : Local (execute statement) := by
  cases statement with
  | createExtension => exact Local.ok
  | createTable t => exact Local.bind (local_onTable t _) (local_references _)
  | _ => exact local_onTable _ _

theorem local_executeAll (statements : List Statement) :
    Local (migrator.executeAll statements) := by
  induction statements with
  | nil => exact Local.ok
  | cons statement statements ih => exact Local.bind (local_execute statement) ih

/-! ## What the files keep -/

/-- A row with its kind exchanged. -/
def exchangeKind (old new : String) (row : ArtifactRow) : ArtifactRow :=
  if row.kind = old then { row with kind := new } else row

/-- The artifact with its new kind. -/
def telemetryRow : ArtifactRow → ArtifactRow := exchangeKind "debug" "debug_telemetry"

/-- What the files keep: the projects, assets and jobs, and the artifacts with their new kinds, but
for those of the retired kinds. -/
structure View where
  projects : List ProjectRow
  assets : List AssetRow
  jobs : List JobRow
  artifacts : List ArtifactRow

def view (db : Database) : View where
  projects := projects db
  assets := assets db
  jobs := jobs db
  artifacts := ((artifacts db).filter (·.kind ∉ retiredKinds)).map telemetryRow

@[simp] theorem telemetryRow_id (row : ArtifactRow) : (telemetryRow row).id = row.id := by
  unfold telemetryRow exchangeKind
  split_ifs <;> rfl

@[simp] theorem telemetryRow_jobId (row : ArtifactRow) :
    (telemetryRow row).jobId = row.jobId := by
  unfold telemetryRow exchangeKind
  split_ifs <;> rfl

@[simp] theorem telemetryRow_assetId (row : ArtifactRow) :
    (telemetryRow row).assetId = row.assetId := by
  unfold telemetryRow exchangeKind
  split_ifs <;> rfl

theorem telemetryRow_kind (row : ArtifactRow) :
    (telemetryRow row).kind = if row.kind = "debug" then "debug_telemetry" else row.kind := by
  unfold telemetryRow exchangeKind
  split_ifs <;> rfl

@[simp] theorem telemetryRow_telemetryRow (row : ArtifactRow) :
    telemetryRow (telemetryRow row) = telemetryRow row := by
  have hkind : (telemetryRow row).kind ≠ "debug" := by
    rw [telemetryRow_kind]
    split_ifs with h
    · decide
    · exact h
  exact if_neg hkind

theorem telemetryRow_retired (row : ArtifactRow) :
    (telemetryRow row).kind ∈ retiredKinds ↔ row.kind ∈ retiredKinds := by
  rw [telemetryRow_kind]
  split_ifs with h
  · rw [h]
    decide
  · rfl

/-! ## Changes of one table -/

section Changes

variable {db : Database} {k : ℕ}

/-- A statement that changes a table that exists. -/
theorem executeAll_cons {statement : Statement} {statements : List Statement} {t : Table}
    {f : t.Content → Except SqlError t.Content}
    (hstatement : execute statement = onTable t (existing f)) {locked : List Table}
    {content : t.Content} (content' : t.Content) (hf : f content = .ok content') :
    migrator.executeAll (statement :: statements)
        ⟨Function.update db t (some content), locked⟩ =
      migrator.executeAll statements ⟨Function.update db t (some content'), t :: locked⟩ := by
  change (execute statement _ >>= _) = _
  rw [hstatement]
  unfold onTable
  dsimp only
  rw [Function.update_self, existing, hf]
  simp only [Except.ok_bind, Except.pure_eq_ok, Function.update_idem]

theorem execute_addColumns (names : List String) :
    execute (.addColumns names) = onTable .processingJobs
      (existing fun table => .ok { table with columns := addMissing names table.columns }) := rfl

theorem execute_addStageCheck (stages : List String) :
    execute (.addStageCheck stages) =
      onTable .processingJobs (existing fun table => table.ensureStageCheck stages) := rfl

theorem execute_createIndex (name : String) :
    execute (.createIndex name) = onTable .processingJobs
      (existing fun table => .ok { table with indexes := addMissing [name] table.indexes }) := rfl

theorem execute_dropKindCheck :
    execute .dropKindCheck = onTable .jobArtifacts
      (existing fun table => .ok { table with kindCheck := none }) := rfl

theorem execute_addKindCheck (kinds : List String) :
    execute (.addKindCheck kinds) =
      onTable .jobArtifacts (existing fun table => table.addKindCheck kinds) := rfl

theorem execute_updateKind (old new : String) :
    execute (.updateKind old new) =
      onTable .jobArtifacts (existing fun table => table.updateKind old new) := rfl

theorem execute_deleteKinds (kinds : List String) :
    execute (.deleteKinds kinds) = onTable .jobArtifacts (existing fun table =>
      .ok { table with rows := table.rows.filter (·.kind ∉ kinds) }) := rfl

/-- The rows of `processing_jobs` stay; columns are added, and checks that the rows pass. -/
theorem Consistent.jobsTable {table table' : JobsTable} (h : Consistent db)
    (htable : db .processingJobs = some table) (hrows : table'.rows = table.rows)
    (hcolumns : ∀ name ∈ table.columns, name ∈ table'.columns)
    (hstages : ∀ allowed, table'.stageCheck = some allowed →
      ∀ row ∈ table.rows, row.stage ∈ allowed) :
    Consistent (Function.update db .processingJobs (some table')) := by
  have hjobs : jobs (Function.update db .processingJobs (some table')) = jobs db := by
    rw [jobs, jobs, Function.update_self, htable, Option.map_some, Option.map_some, hrows]
  refine ⟨h.owners, h.projectIds, h.projectNames, h.projectOwners, h.assetIds, h.storageKeys,
    h.assetProjects, h.assetKinds, h.uploadStates, h.sizes, hjobs ▸ h.jobIds, hjobs ▸ h.jobProjects,
    hjobs ▸ h.jobSources, hjobs ▸ h.jobOutputs, hjobs ▸ h.jobStates, hjobs ▸ h.progress,
    hjobs ▸ h.configurations, ?_, ?_, h.artifactIds, hjobs ▸ h.artifactJobs, h.artifactAssets,
    h.artifactKinds, h.artifactRoles⟩
  · rintro _ hsome allowed hallowed row hrow
    rw [Function.update_self] at hsome
    obtain rfl := Option.some.inj hsome
    exact hstages allowed hallowed row (hrows ▸ hrow)
  · rintro _ hsome row hrow
    rw [Function.update_self] at hsome
    obtain rfl := Option.some.inj hsome
    obtain ⟨howner, hexpires, hreport⟩ := h.leases table htable row (hrows ▸ hrow)
    exact ⟨fun hsome => hcolumns _ (howner hsome), fun hsome => hcolumns _ (hexpires hsome),
      fun hsome => hcolumns _ (hreport hsome)⟩

/-- Artifacts are changed, each to one of the same job and asset. -/
theorem Consistent.artifactsTable {table table' : ArtifactsTable} (h : Consistent db)
    (htable : db .jobArtifacts = some table) (hids : (table'.rows.map ArtifactRow.id).Nodup)
    (hrows : ∀ row ∈ table'.rows, ∃ old ∈ table.rows, old.jobId = row.jobId ∧
      old.assetId = row.assetId)
    (hkinds : ∀ allowed, table'.kindCheck = some allowed → ∀ row ∈ table'.rows, row.kind ∈ allowed)
    (hroles : (table'.rows.map ArtifactRow.role).Nodup) :
    Consistent (Function.update db .jobArtifacts (some table')) := by
  have hold : artifacts db = table.rows := by
    rw [artifacts, htable]
    rfl
  have hnew : artifacts (Function.update db .jobArtifacts (some table')) = table'.rows := by
    rw [artifacts, Function.update_self]
    rfl
  refine ⟨h.owners, h.projectIds, h.projectNames, h.projectOwners, h.assetIds, h.storageKeys,
    h.assetProjects, h.assetKinds, h.uploadStates, h.sizes, h.jobIds, h.jobProjects, h.jobSources,
    h.jobOutputs, h.jobStates, h.progress, h.configurations, h.stages, h.leases, hnew ▸ hids, ?_,
    ?_, ?_, hnew ▸ hroles⟩
  · intro row hrow
    obtain ⟨old, hmem, hjob, -⟩ := hrows row (hnew ▸ hrow)
    exact hjob ▸ h.artifactJobs old (hold ▸ hmem)
  · intro row hrow
    obtain ⟨old, hmem, -, hasset⟩ := hrows row (hnew ▸ hrow)
    exact hasset ▸ h.artifactAssets old (hold ▸ hmem)
  · rintro _ hsome allowed hallowed row hrow
    rw [Function.update_self] at hsome
    obtain rfl := Option.some.inj hsome
    exact hkinds allowed hallowed row hrow

/-- The table of a legal content, as its schema has it. -/
theorem Legal.jobsTable (h : Legal k db) (hk : 0 < k) : ∃ table, db .processingJobs = some table ∧
    some (table.columns, table.stageCheck, table.indexes) = (schemaAt k).jobs := by
  have htables : (db .processingJobs).isSome = true := by
    have heq := congrArg (fun schema => schema.tables .processingJobs) h.schema
    exact heq.trans (decide_eq_true hk)
  obtain ⟨table, htable⟩ := Option.isSome_iff_exists.mp htables
  refine ⟨table, htable, ?_⟩
  rw [← h.schema, schemaOf, htable, Option.map_some]

theorem schemaAt_artifacts (hk : 0 < k) : (schemaAt k).artifacts = some (some (kindsAt k)) :=
  if_neg hk.ne'

theorem Legal.artifactsTable (h : Legal k db) (hk : 0 < k) :
    ∃ table, db .jobArtifacts = some table ∧ table.kindCheck = some (kindsAt k) := by
  have hartifacts : (db .jobArtifacts).map ArtifactsTable.kindCheck = some (some (kindsAt k)) :=
    (congrArg Schema.artifacts h.schema).trans (schemaAt_artifacts hk)
  obtain ⟨table, htable, hcheck⟩ := Option.map_eq_some_iff.mp hartifacts
  exact ⟨table, htable, hcheck⟩

/-- A change of a table leaves no table missing. -/
theorem Legal.tables_update (h : Legal k db) (hk : 0 < k) (t : Table) (content : t.Content) :
    (fun s => ((Function.update db t (some content)) s).isSome) = (schemaAt (k + 1)).tables := by
  funext s
  refine Eq.trans ?_ (decide_eq_true (Nat.succ_pos k)).symm
  by_cases hs : s = t
  · subst hs
    rw [Function.update_self]
    rfl
  · rw [Function.update_of_ne hs]
    exact (congrArg (fun schema => schema.tables s) h.schema).trans (decide_eq_true hk)

/-- The schema with another `processing_jobs`. -/
theorem schemaOf_jobsTable {table' : JobsTable} (h : Legal k db) (hk : 0 < k)
    (hjobs : some (table'.columns, table'.stageCheck, table'.indexes) = (schemaAt (k + 1)).jobs)
    (hartifacts : (schemaAt (k + 1)).artifacts = (schemaAt k).artifacts) :
    schemaOf (Function.update db .processingJobs (some table')) = schemaAt (k + 1) := by
  have hkept : (db .jobArtifacts).map ArtifactsTable.kindCheck = (schemaAt k).artifacts :=
    congrArg Schema.artifacts h.schema
  unfold schemaOf
  rw [h.tables_update hk, Function.update_self, Option.map_some, hjobs,
    Function.update_of_ne (by decide), hkept, ← hartifacts]

/-- The schema with another `job_artifacts`. -/
theorem schemaOf_artifactsTable {table' : ArtifactsTable} (h : Legal k db) (hk : 0 < k)
    (hkinds : table'.kindCheck = some (kindsAt (k + 1)))
    (hjobs : (schemaAt (k + 1)).jobs = (schemaAt k).jobs) :
    schemaOf (Function.update db .jobArtifacts (some table')) = schemaAt (k + 1) := by
  have hkept : (db .processingJobs).map (fun table =>
      (table.columns, table.stageCheck, table.indexes)) = (schemaAt k).jobs :=
    congrArg Schema.jobs h.schema
  unfold schemaOf
  rw [h.tables_update hk, Function.update_self, Option.map_some, hkinds,
    ← schemaAt_artifacts (Nat.succ_pos k), Function.update_of_ne (by decide), hkept, ← hjobs]

/-- `processing_jobs` is changed, but not its rows. -/
theorem Legal.changed_jobs {table : JobsTable} (h : Legal k db) (table' : JobsTable) (hk : 0 < k)
    (htable : db .processingJobs = some table) (hrows : table'.rows = table.rows)
    (hcolumns : ∀ name ∈ table.columns, name ∈ table'.columns)
    (hstages : ∀ allowed, table'.stageCheck = some allowed →
      ∀ row ∈ table.rows, row.stage ∈ allowed)
    (hjobs : some (table'.columns, table'.stageCheck, table'.indexes) = (schemaAt (k + 1)).jobs)
    (hartifacts : (schemaAt (k + 1)).artifacts = (schemaAt k).artifacts) :
    Legal (k + 1) (Function.update db .processingJobs (some table')) ∧
      view (Function.update db .processingJobs (some table')) = view db := by
  have hjobRows : jobs (Function.update db .processingJobs (some table')) = jobs db := by
    rw [jobs, jobs, Function.update_self, htable, Option.map_some, Option.map_some, hrows]
  refine ⟨⟨schemaOf_jobsTable h hk hjobs hartifacts,
    h.consistent.jobsTable htable hrows hcolumns hstages, ?_⟩, ?_⟩
  · intro row hrow
    exact h.stages row (hjobRows ▸ hrow)
  · rw [view, view, hjobRows]
    rfl

/-- The rows of `job_artifacts` are changed, and its check. -/
theorem Legal.changed_artifacts {table : ArtifactsTable} (h : Legal k db)
    (table' : ArtifactsTable) (hk : 0 < k)
    (htable : db .jobArtifacts = some table) (hids : (table'.rows.map ArtifactRow.id).Nodup)
    (hrows : ∀ row ∈ table'.rows, ∃ old ∈ table.rows, old.jobId = row.jobId ∧
      old.assetId = row.assetId)
    (hcheck : table'.kindCheck = some (kindsAt (k + 1)))
    (hkinds : ∀ row ∈ table'.rows, row.kind ∈ kindsAt (k + 1))
    (hroles : (table'.rows.map ArtifactRow.role).Nodup)
    (hjobs : (schemaAt (k + 1)).jobs = (schemaAt k).jobs)
    (hview : (table'.rows.filter (·.kind ∉ retiredKinds)).map telemetryRow =
      (table.rows.filter (·.kind ∉ retiredKinds)).map telemetryRow) :
    Legal (k + 1) (Function.update db .jobArtifacts (some table')) ∧
      view (Function.update db .jobArtifacts (some table')) = view db := by
  refine ⟨⟨schemaOf_artifactsTable h hk hcheck hjobs,
    h.consistent.artifactsTable htable hids hrows ?_ hroles, h.stages⟩, ?_⟩
  · intro allowed hallowed row hrow
    rw [hcheck] at hallowed
    exact Option.some.inj hallowed ▸ hkinds row hrow
  · have hold : artifacts db = table.rows := by
      rw [artifacts, htable]
      rfl
    have hnew : artifacts (Function.update db .jobArtifacts (some table')) = table'.rows := by
      rw [artifacts, Function.update_self]
      rfl
    rw [view, view, hold, hnew, hview]
    rfl

end Changes

/-! ## The files -/

/-- The statements can be applied to every legal content, and keep the view. -/
def Applies (k : ℕ) (statements : List Statement) : Prop :=
  ∀ db, Legal k db → ∃ work, migrator.executeAll statements ⟨db, []⟩ = .ok work ∧
    Legal (k + 1) work.db ∧ view work.db = view db

/-- The tables of the first file. -/
def createdDatabase : Database
  | .developmentOwners => some ["development-owner"]
  | t => some t.initial

/-- A content without rows. -/
theorem consistent_of_empty {db : Database} (howners : (owners db).Nodup)
    (hprojects : projects db = []) (hassets : assets db = []) (hjobs : jobs db = [])
    (hartifacts : artifacts db = []) : Consistent db := by
  have hjobRows : ∀ table, db .processingJobs = some table → table.rows = [] := by
    intro table htable
    rw [jobs, htable] at hjobs
    exact hjobs
  have hartifactRows : ∀ table, db .jobArtifacts = some table → table.rows = [] := by
    intro table htable
    rw [artifacts, htable] at hartifacts
    exact hartifacts
  constructor
  case owners => exact howners
  case stages =>
    intro table htable allowed _ row hrow
    rw [hjobRows table htable] at hrow
    cases hrow
  case leases =>
    intro table htable row hrow
    rw [hjobRows table htable] at hrow
    cases hrow
  case artifactKinds =>
    intro table htable allowed _ row hrow
    rw [hartifactRows table htable] at hrow
    cases hrow
  all_goals simp only [hprojects, hassets, hjobs, hartifacts, List.map_nil, List.nodup_nil,
    List.not_mem_nil, false_imp_iff, implies_true]

theorem legal_createdDatabase : Legal 1 createdDatabase where
  schema := by
    have htables : (fun t => (createdDatabase t).isSome) = (schemaAt 1).tables := by
      funext t
      cases t <;> rfl
    rw [schemaOf, htables]
    rfl
  stages := by
    have hjobs : jobs createdDatabase = [] := rfl
    rw [KnownStages, hjobs]
    exact List.forall_mem_nil _
  consistent := consistent_of_empty (List.nodup_singleton _) rfl rfl rfl rfl

/-- **The first file** creates the tables. -/
theorem applies_init : Applies 0 init := by
  intro db h
  have hempty : db = fun _ => none := by
    funext t
    have hmissing : (db t).isSome = false := congrArg (fun schema => schema.tables t) h.schema
    exact Option.isNone_iff_eq_none.mp (Option.isSome_eq_false_iff.mp hmissing)
  subst hempty
  have hcreated : ∃ work, migrator.executeAll init ⟨fun _ => none, []⟩ = .ok work ∧
      work.db = createdDatabase := by
    refine ⟨_, rfl, funext fun t => ?_⟩
    cases t <;> rfl
  obtain ⟨work, hwork, hdb⟩ := hcreated
  refine ⟨work, hwork, ?_, ?_⟩
  · rw [hdb]
    exact legal_createdDatabase
  · rw [hdb]
    rfl

/-- **The second file** adds the lease and the check of the stage. -/
theorem applies_workerLeases : Applies 1 workerLeases := by
  intro db h
  obtain ⟨table, htable, hschema⟩ := h.jobsTable one_pos
  obtain ⟨rows, columns, stageCheck, indexes⟩ := table
  have hparts : some (columns, stageCheck, indexes) = some ([], none, []) := hschema
  simp only [Option.some.injEq, Prod.mk.injEq] at hparts
  obtain ⟨rfl, rfl, rfl⟩ := hparts
  have hstages : ∀ row ∈ rows, row.stage ∈ jobStages := by
    have hstages := h.stages
    rw [KnownStages, jobs, htable] at hstages
    exact hstages
  have hall : rows.all (jobStages.contains ·.stage) = true :=
    List.all_eq_true.mpr fun row hrow => List.contains_iff_mem.mpr (hstages row hrow)
  have hensure : (JobsTable.mk rows ["lease_owner", "lease_expires_at"] none []).ensureStageCheck
      jobStages = .ok ⟨rows, ["lease_owner", "lease_expires_at"], some jobStages, []⟩ := by
    rw [JobsTable.ensureStageCheck, JobsTable.addStageCheck]
    simp only [Option.isSome_none, Bool.false_eq_true, if_false, hall, if_true]
  let table' : JobsTable := ⟨rows, ["lease_owner", "lease_expires_at"], some jobStages,
    ["processing_jobs_claim_eligibility_idx"]⟩
  have hexecuted : migrator.executeAll workerLeases ⟨db, []⟩ =
      .ok ⟨Function.update db .processingJobs (some table'),
        [.processingJobs, .processingJobs, .processingJobs]⟩ := by
    have hstatements : workerLeases = [.addColumns ["lease_owner", "lease_expires_at"],
        .addStageCheck jobStages, .createIndex "processing_jobs_claim_eligibility_idx"] := rfl
    rw [← Function.update_eq_self .processingJobs db, htable, hstatements,
      executeAll_cons (execute_addColumns _) ⟨rows, ["lease_owner", "lease_expires_at"], none, []⟩
        rfl,
      executeAll_cons (execute_addStageCheck _) _ hensure,
      executeAll_cons (execute_createIndex _) table' rfl, Function.update_idem]
    rfl
  refine ⟨_, hexecuted, h.changed_jobs table' one_pos htable rfl nofun ?_ rfl rfl⟩
  rintro _ ⟨⟩ row hrow
  exact hstages row hrow

/-- The rows are updated if no job has a row of the new kind, and none two of the old kind. -/
theorem updateRows_eq {old new : String} {rows updated : List ArtifactRow}
    (hroles : (rows.map ArtifactRow.role).Nodup) (hnew : ∀ row ∈ rows, row.kind ≠ new)
    (hupdated : ∀ row ∈ rows, row.kind = old → ∀ done ∈ updated, done.kind = new →
      done.jobId ≠ row.jobId) :
    updateRows none old new updated rows = .ok (updated ++ rows.map (exchangeKind old new)) := by
  induction rows generalizing updated with
  | nil => rw [updateRows, List.map_nil, List.append_nil]
  | cons row rows ih =>
    obtain ⟨hrow, hrows⟩ := List.forall_mem_cons.mp hnew
    obtain ⟨hdone, hrest⟩ := List.forall_mem_cons.mp hupdated
    obtain ⟨hrole, hroles⟩ := List.nodup_cons.mp (List.map_cons ▸ hroles)
    rw [updateRows, List.map_cons, exchangeKind]
    by_cases hkind : row.kind = old
    · have hfree : ((updated ++ rows).any fun other =>
          other.jobId = row.jobId ∧ other.kind = new) = false := by
        rw [List.any_eq_false]
        intro other hother hconflict
        obtain ⟨hjob, hother'⟩ := of_decide_eq_true hconflict
        obtain hother | hother := List.mem_append.mp hother
        · exact hdone hkind other hother hother' hjob
        · exact hrows other hother hother'
      -- the rows that remain have other jobs, or another kind
      have hdone' : ∀ next ∈ rows, next.kind = old →
          ∀ done ∈ updated ++ [{ row with kind := new }], done.kind = new →
            done.jobId ≠ next.jobId := by
        intro next hnext hold done hmem hdoneKind
        obtain hmem | hmem := List.mem_append.mp hmem
        · exact hrest next hnext hold done hmem hdoneKind
        · rw [List.mem_singleton.mp hmem]
          intro hjob
          refine hrole (List.mem_map.mpr ⟨next, hnext, ?_⟩)
          exact Prod.ext hjob.symm (hold.trans hkind.symm)
      rw [if_pos hkind, if_pos hkind, hfree]
      simp only [Option.any_none, Bool.false_eq_true, if_false]
      rw [ih hroles hrows hdone', List.append_assoc]
      rfl
    · have hdone' : ∀ next ∈ rows, next.kind = old → ∀ done ∈ updated ++ [row],
          done.kind = new → done.jobId ≠ next.jobId := by
        intro next hnext hold done hmem hdoneKind
        obtain hmem | hmem := List.mem_append.mp hmem
        · exact hrest next hnext hold done hmem hdoneKind
        · exact absurd hdoneKind (List.mem_singleton.mp hmem ▸ hrow)
      rw [if_neg hkind, if_neg hkind, ih hroles hrows hdone', List.append_assoc]
      rfl

/-- The keys of a table of artifacts that belongs to a consistent content. -/
theorem Consistent.artifactRows {db : Database} {table : ArtifactsTable} (h : Consistent db)
    (htable : db .jobArtifacts = some table) :
    (table.rows.map ArtifactRow.id).Nodup ∧ (table.rows.map ArtifactRow.role).Nodup := by
  have hrows : artifacts db = table.rows := by
    rw [artifacts, htable]
    rfl
  exact ⟨hrows ▸ h.artifactIds, hrows ▸ h.artifactRoles⟩

/-- **The third file** gives the debug artifacts their new kind. -/
theorem applies_phaseEvaluation : Applies 2 phaseEvaluation := by
  intro db h
  obtain ⟨⟨rows, kindCheck⟩, htable, rfl⟩ := h.artifactsTable two_pos
  obtain ⟨hids, hroles⟩ := h.consistent.artifactRows htable
  have hkinds : ∀ row ∈ rows, row.kind = "output" ∨ row.kind = "debug" := by
    intro row hrow
    have hkind := h.consistent.artifactKinds _ htable _ rfl row hrow
    simpa [kindsAt] using hkind
  have hnew : ∀ row ∈ rows, row.kind ≠ "debug_telemetry" := by
    intro row hrow
    obtain hkind | hkind := hkinds row hrow <;> rw [hkind] <;> decide
  have hupdate : (ArtifactsTable.mk rows none).updateKind "debug" "debug_telemetry" =
      .ok ⟨rows.map telemetryRow, none⟩ := by
    have hnone : ∀ row ∈ rows, row.kind = "debug" → ∀ done ∈ ([] : List ArtifactRow),
        done.kind = "debug_telemetry" → done.jobId ≠ row.jobId :=
      fun _ _ _ _ h => absurd h List.not_mem_nil
    rw [ArtifactsTable.updateKind, updateRows_eq hroles hnew hnone]
    rfl
  have hkinds' : ∀ row ∈ rows.map telemetryRow, row.kind ∈ kindsAt 3 := by
    intro row hrow
    obtain ⟨old, hold, rfl⟩ := List.mem_map.mp hrow
    rw [telemetryRow_kind]
    obtain hkind | hkind := hkinds old hold <;> rw [hkind] <;> decide
  have hall : (rows.map telemetryRow).all ((kindsAt 3).contains ·.kind) = true :=
    List.all_eq_true.mpr fun row hrow => List.contains_iff_mem.mpr (hkinds' row hrow)
  have hcheck : (ArtifactsTable.mk (rows.map telemetryRow) none).addKindCheck (kindsAt 3) =
      .ok ⟨rows.map telemetryRow, some (kindsAt 3)⟩ := by
    rw [ArtifactsTable.addKindCheck]
    simp only [Option.isSome_none, Bool.false_eq_true, if_false, hall, if_true]
  have hroles' : ((rows.map telemetryRow).map ArtifactRow.role).Nodup := by
    let exchange : Uuid × String → Uuid × String := fun role =>
      (role.1, if role.2 = "debug" then "debug_telemetry" else role.2)
    have hmap : (rows.map telemetryRow).map ArtifactRow.role =
        (rows.map ArtifactRow.role).map exchange := by
      rw [List.map_map, List.map_map]
      refine List.map_congr_left fun row _ => ?_
      exact Prod.ext (telemetryRow_jobId row) (telemetryRow_kind row)
    rw [hmap]
    refine hroles.map_on fun role hrole role' hrole' heq => ?_
    obtain ⟨row, hrow, rfl⟩ := List.mem_map.mp hrole
    obtain ⟨row', hrow', rfl⟩ := List.mem_map.mp hrole'
    obtain ⟨hjob, hkind⟩ := Prod.mk.inj heq
    refine Prod.ext hjob ?_
    change row.kind = row'.kind
    change (if row.kind = "debug" then "debug_telemetry" else row.kind) =
      if row'.kind = "debug" then "debug_telemetry" else row'.kind at hkind
    obtain h₁ | h₁ := hkinds row hrow <;> obtain h₂ | h₂ := hkinds row' hrow' <;>
      rw [h₁, h₂] at hkind ⊢ <;> exact absurd hkind (by decide)
  have hexecuted : migrator.executeAll phaseEvaluation ⟨db, []⟩ =
      .ok ⟨Function.update db .jobArtifacts (some ⟨rows.map telemetryRow, some (kindsAt 3)⟩),
        [.jobArtifacts, .jobArtifacts, .jobArtifacts]⟩ := by
    have hstatements : phaseEvaluation =
        [.dropKindCheck, .updateKind "debug" "debug_telemetry", .addKindCheck (kindsAt 3)] := rfl
    rw [← Function.update_eq_self .jobArtifacts db, htable, hstatements,
      executeAll_cons execute_dropKindCheck ⟨rows, none⟩ rfl,
      executeAll_cons (execute_updateKind _ _) _ hupdate,
      executeAll_cons (execute_addKindCheck _) _ hcheck, Function.update_idem]
    rfl
  refine ⟨_, hexecuted, h.changed_artifacts ⟨rows.map telemetryRow, some (kindsAt 3)⟩ two_pos htable
    ?_ ?_ rfl hkinds' hroles' rfl ?_⟩
  · rw [List.map_map]
    exact (List.map_congr_left fun row _ => telemetryRow_id row) ▸ hids
  · intro row hrow
    obtain ⟨old, hold, rfl⟩ := List.mem_map.mp hrow
    exact ⟨old, hold, (telemetryRow_jobId old).symm, (telemetryRow_assetId old).symm⟩
  · rw [List.filter_map, List.map_map]
    have hretired : ((fun row : ArtifactRow => decide (row.kind ∉ retiredKinds)) ∘ telemetryRow) =
        fun row => decide (row.kind ∉ retiredKinds) :=
      funext fun row => decide_eq_decide.mpr (not_congr (telemetryRow_retired row))
    rw [hretired]
    exact List.map_congr_left fun row _ => telemetryRow_telemetryRow row

/-- **The fourth file** removes the artifacts of the retired kinds. -/
theorem applies_detectorOnlyReviewRoles : Applies 3 detectorOnlyReviewRoles := by
  intro db h
  obtain ⟨⟨rows, kindCheck⟩, htable, rfl⟩ := h.artifactsTable three_pos
  obtain ⟨hids, hroles⟩ := h.consistent.artifactRows htable
  let kept : List ArtifactRow := rows.filter (·.kind ∉ retiredKinds)
  have hkept : ∀ row ∈ kept, row ∈ rows ∧ row.kind ∉ retiredKinds := by
    intro row hrow
    obtain ⟨hmem, hkind⟩ := List.mem_filter.mp hrow
    exact ⟨hmem, of_decide_eq_true hkind⟩
  have hallowed : ∀ kind ∈ kindsAt 3, kind ∉ retiredKinds → kind ∈ kindsAt 4 := by decide
  have hkinds : ∀ row ∈ kept, row.kind ∈ kindsAt 4 := by
    intro row hrow
    obtain ⟨hmem, hkind⟩ := hkept row hrow
    exact hallowed _ (h.consistent.artifactKinds _ htable _ rfl row hmem) hkind
  have hall : kept.all ((kindsAt 4).contains ·.kind) = true :=
    List.all_eq_true.mpr fun row hrow => List.contains_iff_mem.mpr (hkinds row hrow)
  have hcheck : (ArtifactsTable.mk kept none).addKindCheck (kindsAt 4) =
      .ok ⟨kept, some (kindsAt 4)⟩ := by
    rw [ArtifactsTable.addKindCheck]
    simp only [Option.isSome_none, Bool.false_eq_true, if_false, hall, if_true]
  have hexecuted : migrator.executeAll detectorOnlyReviewRoles ⟨db, []⟩ =
      .ok ⟨Function.update db .jobArtifacts (some ⟨kept, some (kindsAt 4)⟩),
        [.jobArtifacts, .jobArtifacts, .jobArtifacts]⟩ := by
    have hstatements : detectorOnlyReviewRoles =
        [.dropKindCheck, .deleteKinds retiredKinds, .addKindCheck (kindsAt 4)] := rfl
    rw [← Function.update_eq_self .jobArtifacts db, htable, hstatements,
      executeAll_cons execute_dropKindCheck ⟨rows, none⟩ rfl,
      executeAll_cons (execute_deleteKinds _) ⟨kept, none⟩ rfl,
      executeAll_cons (execute_addKindCheck _) _ hcheck, Function.update_idem]
    rfl
  refine ⟨_, hexecuted, h.changed_artifacts ⟨kept, some (kindsAt 4)⟩ three_pos htable
    (hids.sublist (List.filter_sublist.map _)) ?_ rfl hkinds
    (hroles.sublist (List.filter_sublist.map _)) rfl ?_⟩
  · exact fun row hrow => ⟨row, (hkept row hrow).1, rfl, rfl⟩
  · rw [List.filter_filter]
    simp only [Bool.and_self]

/-- **The fifth file** adds the report. -/
theorem applies_jobReport : Applies 4 jobReport := by
  intro db h
  obtain ⟨table, htable, hschema⟩ := h.jobsTable (Nat.succ_pos 3)
  obtain ⟨rows, columns, stageCheck, indexes⟩ := table
  have hparts : some (columns, stageCheck, indexes) = some (["lease_owner", "lease_expires_at"],
      some jobStages, ["processing_jobs_claim_eligibility_idx"]) := hschema
  simp only [Option.some.injEq, Prod.mk.injEq] at hparts
  obtain ⟨rfl, rfl, rfl⟩ := hparts
  let table' : JobsTable := ⟨rows, ["lease_owner", "lease_expires_at", "report"], some jobStages,
    ["processing_jobs_claim_eligibility_idx"]⟩
  have hexecuted : migrator.executeAll jobReport ⟨db, []⟩ =
      .ok ⟨Function.update db .processingJobs (some table'), [.processingJobs]⟩ := by
    rw [← Function.update_eq_self .processingJobs db, htable, jobReport,
      executeAll_cons (execute_addColumns _) table' rfl, Function.update_idem]
    rfl
  refine ⟨_, hexecuted, h.changed_jobs table' (Nat.succ_pos 3) htable rfl ?_ ?_ rfl rfl⟩
  · intro name hname
    exact List.mem_append_left ["report"] hname
  · exact fun allowed hallowed row hrow => h.consistent.stages _ htable allowed hallowed row hrow

/-- **The files of the repository** can be applied one after another, whatever is written in
between, and keep the view. -/
theorem migrator_sound : migrator.Sound Legal view where
  versions := by
    change (migrationFiles.map MigrationFile.version).Nodup
    rw [migrationFiles_eq]
    decide
  execute i f db hf h := by
    change migrationFiles[i]? = some f at hf
    rw [migrationFiles_eq] at hf
    match i with
    | 0 =>
      obtain rfl := Option.some.inj hf
      exact applies_init db h
    | 1 =>
      obtain rfl := Option.some.inj hf
      exact applies_workerLeases db h
    | 2 =>
      obtain rfl := Option.some.inj hf
      exact applies_phaseEvaluation db h
    | 3 =>
      obtain rfl := Option.some.inj hf
      exact applies_detectorOnlyReviewRoles db h
    | 4 =>
      obtain rfl := Option.some.inj hf
      exact applies_jobReport db h
    | i + 5 => cases hf
  write i db db' h hwrite :=
    ⟨hwrite.schema.trans h.schema, hwrite.consistent, hwrite.stages⟩
  rebase statements db db' work hwork _ hcompatible :=
    (local_executeAll statements (fun _ _ => rfl) hwork hcompatible).2.2

end Migrations

end BoulderFrame
