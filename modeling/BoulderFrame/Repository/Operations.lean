import BoulderFrame.Repository.Postgres

/-!
# Operations on the job database

An operation is one call that an attempt issues with its lease token. Whatever the record it is
given, it changes at most the row of its own job, and only if it is a claim or its token owns that
row; it never loses an asset, and it keeps the constraints of the tables.

## Main definitions

* `Operation`, `Operation.run`: the calls of the attempts, and the database after them
* `RowChange`: the ways in which an operation changes a row that its token owns
* `Operation.Effect`: what an operation does to the database
* `AssetTable.Grows`: assets are kept, and uploaded assets stay uploaded

## Main results

* `Operation.run_effect`: every operation has such an effect
* `Operation.run_jobs`: rows are changed by claims and by `RowChange` only
* `Operation.run_artifacts`: the artifacts of a job are only changed while its lease is held
* `Operation.run_assets`: every operation keeps the assets
* `Operation.run_eq_self`: an operation without ownership changes nothing
* `Operation.run_consistent`: every operation keeps the constraints
-/

namespace BoulderFrame

open PostgresJobRepository

inductive Operation
  | claim (jobId : Uuid) (workerId : String) (leaseSeconds : ℤ)
  | renew (jobId : Uuid) (workerId : String) (leaseSeconds : ℤ)
  | release (jobId : Uuid) (workerId : String)
  | update (record : JobRecord)
  | finalizeOutput (record : JobRecord) (output : OutputAsset) (newId : Uuid)
  | finalizeReview (record : JobRecord) (reviewId : Uuid) (artifacts : List ReviewArtifact)
      (newId : ReviewRole → Uuid)

namespace Operation

/-- The job that the operation is about. -/
def job : Operation → Uuid
  | claim jobId .. | renew jobId .. | release jobId .. => jobId
  | update record | finalizeOutput record .. | finalizeReview record .. => record.id

/-- The lease token that the operation is issued with. -/
def token : Operation → Option String
  | claim _ workerId _ | renew _ workerId _ | release _ workerId => some workerId
  | update record | finalizeOutput record .. | finalizeReview record .. => record.leaseOwner

/-- The database after the operation, at a time of its clock. -/
def run (now : Time) (db : Database) : Operation → Database
  | claim jobId workerId leaseSeconds =>
    (PostgresJobRepository.claim jobId workerId leaseSeconds now db).2
  | renew jobId workerId leaseSeconds =>
    (PostgresJobRepository.renew jobId workerId leaseSeconds now db).2
  | release jobId workerId => (PostgresJobRepository.release jobId workerId now db).2
  | update record => (PostgresJobRepository.update record now db).2
  | finalizeOutput record output newId =>
    (PostgresJobRepository.finalizeOutput record output newId now db).2
  | finalizeReview record reviewId artifacts newId =>
    (PostgresJobRepository.finalizeReview record reviewId artifacts newId now db).2

end Operation

/-! ## The calls -/

/-- The ways in which an operation with the given token changes a row that the token owns. -/
inductive RowChange (token : String) (now : Time) (row : JobRow) : JobRow → Prop
  | renew {row'} (leaseSeconds : ℤ) (h : renewSql token leaseSeconds now row = some row') :
    RowChange token now row row'
  | release {row'} (h : releaseSql token row = some row') : RowChange token now row row'
  | update {row'} (record : JobRecord) (h : updateSql record token now row = some row') :
    RowChange token now row row'
  | link (asset : Uuid) (hstate : row.state = .uploading) (hheld : row.HeldBy token now) :
    RowChange token now row { row with outputAssetId := some asset }

theorem RowChange.owner {token : String} {now : Time} {row row' : JobRow}
    (h : RowChange token now row row') : row.leaseOwner = some token := by
  cases h with
  | renew leaseSeconds h => exact (Option.ite_none_right_eq_some.mp h).1.1.1
  | release h => exact (Option.ite_none_right_eq_some.mp h).1.1
  | update record h => exact (Option.ite_none_right_eq_some.mp h).1.1.1
  | link asset hstate hheld => exact hheld.1

section Calls

variable {now : Time} {db db' : Database} {jobId : Uuid} {workerId : String}

/-- **A claim** that returns a record took the lease of the job's row, any other changed
nothing. -/
theorem claim_cases {leaseSeconds : ℤ} {out : Except Raised (Option JobRecord)}
    (h : claim jobId workerId leaseSeconds now db = (out, db')) :
    (out = .ok none ∧ db' = db) ∨
    (∃ row row' source, db.jobs jobId = some row ∧ db.assets.find row.sourceAssetId = some source ∧
      claimSql workerId leaseSeconds now row = some row' ∧ db' = db.setJob jobId row' ∧
      out = .ok (some (recordFromRow jobId row' source))) := by
  unfold claim at h
  split at h
  · obtain ⟨rfl, rfl⟩ := Prod.mk.inj h
    exact .inl ⟨rfl, rfl⟩
  · rename_i row hrow
    split at h
    · rename_i source row' hsource hrow'
      obtain ⟨rfl, rfl⟩ := Prod.mk.inj h
      exact .inr ⟨row, row', source, hrow, hsource, hrow', rfl, rfl⟩
    · obtain ⟨rfl, rfl⟩ := Prod.mk.inj h
      exact .inl ⟨rfl, rfl⟩

/-- **A statement on one row** that changes it returns so, and the row meets its check. -/
theorem executeOn_cases {statement : Time → JobRow → Option JobRow} {out : Except Raised Bool}
    (h : executeOn jobId statement now db = (out, db')) :
    (out = .ok false ∧ db' = db ∧ (db.jobs jobId).bind (statement now) = none) ∨
    (out = .error checkViolation ∧ db' = db ∧
      ∃ row', (db.jobs jobId).bind (statement now) = some row' ∧ ¬ progressCheck row') ∨
    (∃ row row', db.jobs jobId = some row ∧ statement now row = some row' ∧ progressCheck row' ∧
      db' = db.setJob jobId row' ∧ out = .ok true) := by
  unfold executeOn at h
  split at h
  · rename_i hnone
    obtain ⟨rfl, rfl⟩ := Prod.mk.inj h
    exact .inl ⟨rfl, rfl, hnone⟩
  · rename_i row' hsome
    split_ifs at h with hcheck
    · obtain ⟨row, hrow, hrow'⟩ := Option.bind_eq_some_iff.mp hsome
      obtain ⟨rfl, rfl⟩ := Prod.mk.inj h
      exact .inr (.inr ⟨row, row', hrow, hrow', hcheck, rfl, rfl⟩)
    · obtain ⟨rfl, rfl⟩ := Prod.mk.inj h
      exact .inr (.inl ⟨rfl, rfl, row', hsome, hcheck⟩)

/-- **An update** that returns wrote the row of its job, any other changed nothing. -/
theorem update_cases {record : JobRecord} {out : Except Raised Unit}
    (h : update record now db = (out, db')) :
    ((∃ e, out = .error e ∧ e.isWorker = false) ∧ db' = db) ∨
    (∃ owner row row', record.leaseOwner = some owner ∧ db.jobs record.id = some row ∧
      updateSql record owner now row = some row' ∧ progressCheck row' ∧
      db' = db.setJob record.id row' ∧ out = .ok ()) := by
  unfold update at h
  split at h
  · obtain ⟨rfl, rfl⟩ := Prod.mk.inj h
    exact .inl ⟨⟨_, rfl, rfl⟩, rfl⟩
  · rename_i owner howner
    cases hexec : executeOn record.id (updateSql record owner) now db with
    | mk executed db₁ =>
      rw [hexec] at h
      obtain ⟨rfl, rfl, -⟩ | ⟨rfl, rfl, -⟩ | ⟨row, row', hrow, hrow', hcheck, rfl, rfl⟩ :=
        executeOn_cases hexec
      · obtain ⟨rfl, rfl⟩ := Prod.mk.inj h
        exact .inl ⟨⟨_, rfl, rfl⟩, rfl⟩
      · obtain ⟨rfl, rfl⟩ := Prod.mk.inj h
        exact .inl ⟨⟨_, rfl, rfl⟩, rfl⟩
      · obtain ⟨rfl, rfl⟩ := Prod.mk.inj h
        exact .inr ⟨owner, row, row', howner, hrow, hrow', hcheck, rfl, rfl⟩

/-- The state that a linked output leaves. -/
def linkOutput (db : Database) (jobId : Uuid) (row : JobRow) (assets : AssetTable) (asset : Uuid) :
    Database :=
  { db.setJob jobId { row with outputAssetId := some asset } with
    assets := assets
    artifacts := Function.update db.artifacts jobId
      (Function.update (db.artifacts jobId) .output (some asset)) }

/-- **A finalized output** is linked by the owner of the uploading job, through an asset with the
output key; a call that raises changed nothing. -/
theorem finalizeOutput_cases {record : JobRecord} {output : OutputAsset} {newId : Uuid}
    {out : Except Raised Uuid} (h : finalizeOutput record output newId now db = (out, db')) :
    ((∃ e, out = .error e ∧ e.isWorker = false) ∧ db' = db) ∨
    (∃ owner source row assets asset, record.leaseOwner = some owner ∧
      record.sourceAsset = some source ∧ db.jobs record.id = some row ∧
      ownsUploading source.projectId owner now row ∧
      db.assets.upsert
        (output.row newId row.projectId (outputStorageKey source.projectId record.id))
        output.merge (Asset.overwritable row.projectId .output) = some (assets, some asset) ∧
      db' = linkOutput db record.id row assets asset.id ∧ out = .ok asset.id) := by
  unfold finalizeOutput at h
  split at h
  swap
  · obtain ⟨rfl, rfl⟩ := Prod.mk.inj h
    exact .inl ⟨⟨_, rfl, rfl⟩, rfl⟩
  rename_i owner source howner hsource
  split_ifs at h with hstate
  · obtain ⟨rfl, rfl⟩ := Prod.mk.inj h
    exact .inl ⟨⟨_, rfl, rfl⟩, rfl⟩
  unfold finalizeOutputSql at h
  cases hrow : db.jobs record.id with
  | none =>
    simp only [hrow] at h
    obtain ⟨rfl, rfl⟩ := Prod.mk.inj h
    exact .inl ⟨⟨_, rfl, rfl⟩, rfl⟩
  | some row =>
    simp only [hrow] at h
    by_cases howns : ownsUploading source.projectId owner now row
    swap
    · rw [if_pos howns] at h
      obtain ⟨rfl, rfl⟩ := Prod.mk.inj h
      exact .inl ⟨⟨_, rfl, rfl⟩, rfl⟩
    rw [if_neg (not_not.mpr howns)] at h
    by_cases hfits : output.Fits
    swap
    · rw [if_pos hfits] at h
      obtain ⟨rfl, rfl⟩ := Prod.mk.inj h
      exact .inl ⟨⟨_, rfl, rfl⟩, rfl⟩
    rw [if_neg (not_not.mpr hfits)] at h
    cases hupsert : db.assets.upsert
        (output.row newId row.projectId (outputStorageKey source.projectId record.id))
        output.merge (Asset.overwritable row.projectId .output) with
    | none =>
      simp only [hupsert] at h
      obtain ⟨rfl, rfl⟩ := Prod.mk.inj h
      exact .inl ⟨⟨_, rfl, rfl⟩, rfl⟩
    | some result =>
      obtain ⟨assets, asset⟩ := result
      cases asset with
      | none =>
        simp only [hupsert] at h
        obtain ⟨rfl, rfl⟩ := Prod.mk.inj h
        exact .inl ⟨⟨_, rfl, rfl⟩, rfl⟩
      | some asset =>
        simp only [hupsert] at h
        obtain ⟨rfl, rfl⟩ := Prod.mk.inj h
        exact .inr ⟨owner, source, row, assets, asset, howner, hsource, rfl, howns, hupsert, rfl,
          rfl⟩

theorem checkReview_eq_ok {projectId reviewId : Uuid} {artifacts : List ReviewArtifact} :
    ∀ {roles : List ReviewRole}, checkReview projectId jobId reviewId roles artifacts = .ok () ↔
      (artifacts.map (·.role)).Nodup ∧ (∀ artifact ∈ artifacts, artifact.role ∉ roles) ∧
      ∀ artifact ∈ artifacts, artifact.storageKey =
        reviewStorageKey projectId jobId reviewId artifact.role.reviewName := by
  induction artifacts with
  | nil => simp [checkReview]
  | cons artifact artifacts ih =>
    intro roles
    unfold checkReview
    by_cases hrole : artifact.role ∈ roles
    · simp [hrole]
    by_cases hkey : artifact.storageKey =
        reviewStorageKey projectId jobId reviewId artifact.role.reviewName
    · rw [if_neg hrole, if_neg (not_not.mpr hkey), ih, List.forall_mem_cons, List.forall_mem_cons]
      simp only [List.map_cons, List.nodup_cons, List.mem_map, List.mem_cons, not_or, not_exists,
        not_and]
      constructor
      · rintro ⟨hnodup, hroles, hkeys⟩
        exact ⟨⟨fun b hb => (hroles b hb).1, hnodup⟩, ⟨hrole, fun b hb => (hroles b hb).2⟩,
          hkey, hkeys⟩
      · rintro ⟨⟨hne, hnodup⟩, ⟨-, hroles⟩, -, hkeys⟩
        exact ⟨hnodup, fun b hb => ⟨hne b hb, hroles b hb⟩, hkeys⟩
    · rw [if_neg hrole, if_pos hkey]
      simp [hkey]

theorem isWorker_of_checkReview {projectId reviewId : Uuid} {artifacts : List ReviewArtifact}
    {e : Raised} : ∀ {roles : List ReviewRole},
      checkReview projectId jobId reviewId roles artifacts = .error e → e.isWorker = false := by
  induction artifacts with
  | nil => exact fun h => nomatch h
  | cons artifact artifacts ih =>
    intro roles h
    unfold checkReview at h
    split_ifs at h
    · obtain rfl := Except.error.inj h
      rfl
    · obtain rfl := Except.error.inj h
      rfl
    · exact ih h

/-- **The checks of a review** accept exactly the arguments of an unfinished claimed job whose
artifacts have telemetry and manifest, different roles, and canonical keys. -/
theorem reviewChecks_eq_ok {record : JobRecord} {reviewId : Uuid}
    {artifacts : List ReviewArtifact} {owner : String} {source : SourceAsset} :
    reviewChecks record reviewId artifacts = .ok (owner, source) ↔
      record.leaseOwner = some owner ∧ record.sourceAsset = some source ∧
      record.state.isTerminal = false ∧
      (.debugTelemetry ∈ artifacts.map (·.role) ∧ .debugManifest ∈ artifacts.map (·.role)) ∧
      (artifacts.map (·.role)).Nodup ∧
      ∀ artifact ∈ artifacts, artifact.storageKey =
        reviewStorageKey source.projectId record.id reviewId artifact.role.reviewName := by
  unfold reviewChecks
  constructor
  · intro h
    split at h
    swap
    · cases h
    rename_i owner' source' howner hsource
    obtain ⟨hstate, h⟩ := Except.ok_of_guard h
    obtain ⟨hroles, h⟩ := Except.ok_of_guard h
    obtain ⟨⟨⟩, hcheck, h⟩ := Except.bind_eq_ok.mp h
    obtain ⟨rfl, rfl⟩ := Prod.mk.inj (Except.ok.inj h)
    obtain ⟨hnodup, -, hkeys⟩ := checkReview_eq_ok.mp hcheck
    exact ⟨howner, hsource, by simpa using hstate, not_not.mp hroles, hnodup, hkeys⟩
  · rintro ⟨howner, hsource, hstate, hroles, hnodup, hkeys⟩
    have hcheck : checkReview source.projectId record.id reviewId [] artifacts = .ok () :=
      checkReview_eq_ok.mpr ⟨hnodup, fun _ _ => List.not_mem_nil, hkeys⟩
    simp only [howner, hsource, hstate, hcheck, if_neg (not_not.mpr hroles)]
    rfl

theorem isWorker_of_reviewChecks {record : JobRecord} {reviewId : Uuid}
    {artifacts : List ReviewArtifact} {e : Raised}
    (h : reviewChecks record reviewId artifacts = .error e) : e.isWorker = false := by
  unfold reviewChecks at h
  split at h
  swap
  · obtain rfl := Except.error.inj h
    rfl
  split_ifs at h
  · obtain rfl := Except.error.inj h
    rfl
  · rename_i source _ _ _ _
    cases hcheck : checkReview source.projectId record.id reviewId [] artifacts with
    | error e' =>
      rw [hcheck] at h
      obtain rfl := Except.error.inj h
      exact isWorker_of_checkReview hcheck
    | ok _ =>
      rw [hcheck] at h
      cases h
  · obtain rfl := Except.error.inj h
    rfl

/-- The state that the linked artifacts of a review leave. -/
def linkReview (db : Database) (jobId : Uuid) (roles : List ReviewRole) (assets : AssetTable)
    (linked : List (ReviewRole × Uuid)) : Database :=
  { db with
    assets := assets
    artifacts := Function.update db.artifacts jobId (reviewLinks roles linked (db.artifacts jobId)) }

@[simp] theorem linkReview_artifacts_self (db : Database) (jobId : Uuid) (roles : List ReviewRole)
    (assets : AssetTable) (linked : List (ReviewRole × Uuid)) :
    (linkReview db jobId roles assets linked).artifacts jobId =
      reviewLinks roles linked (db.artifacts jobId) := Function.update_self ..

theorem linkReview_artifacts_of_ne (db : Database) {jobId i : Uuid} (roles : List ReviewRole)
    (assets : AssetTable) (linked : List (ReviewRole × Uuid)) (h : i ≠ jobId) :
    (linkReview db jobId roles assets linked).artifacts i = db.artifacts i :=
  Function.update_of_ne h ..

/-- A review leaves the output. -/
theorem linkReview_artifacts_output (db : Database) (jobId i : Uuid) (roles : List ReviewRole)
    (assets : AssetTable) (linked : List (ReviewRole × Uuid)) :
    (linkReview db jobId roles assets linked).artifacts i .output = db.artifacts i .output := by
  by_cases hi : i = jobId
  · subst hi
    rw [linkReview_artifacts_self]
    rfl
  · rw [linkReview_artifacts_of_ne db roles assets linked hi]

/-- **A finalized review** is linked by the owner of the unfinished job, as far as its assets may
be written; whether it was linked completely is only reported. -/
theorem finalizeReview_cases {record : JobRecord} {reviewId : Uuid}
    {artifacts : List ReviewArtifact} {newId : ReviewRole → Uuid} {out : Except Raised Unit}
    (h : finalizeReview record reviewId artifacts newId now db = (out, db')) :
    ((∃ e, out = .error e ∧ e.isWorker = false) ∧ db' = db) ∨
    (∃ owner source row assets linked,
      reviewChecks record reviewId artifacts = .ok (owner, source) ∧
      db.jobs record.id = some row ∧ ownsUnfinished source.projectId owner now row ∧
      (∀ artifact ∈ artifacts, artifact.sizeBytes ≤ bigintMax) ∧
      reviewAssets row.projectId newId artifacts db.assets = some (assets, linked) ∧
      db' = linkReview db record.id (artifacts.map (·.role)) assets linked ∧
      out = if linked.length = artifacts.length then .ok () else .error jobStateChanged) := by
  unfold finalizeReview at h
  cases hchecks : reviewChecks record reviewId artifacts with
  | error e =>
    simp only [hchecks] at h
    obtain ⟨rfl, rfl⟩ := Prod.mk.inj h
    exact .inl ⟨⟨e, rfl, isWorker_of_reviewChecks hchecks⟩, rfl⟩
  | ok checked =>
    obtain ⟨owner, source⟩ := checked
    obtain ⟨-, -, -, ⟨htelemetry, -⟩, -⟩ := reviewChecks_eq_ok.mp hchecks
    have hlen : 0 ≠ artifacts.length := by
      rintro hzero
      rw [List.length_eq_zero_iff.mp hzero.symm] at htelemetry
      exact absurd htelemetry List.not_mem_nil
    simp only [hchecks, finalizeReviewSql] at h
    cases hrow : db.jobs record.id with
    | none =>
      simp only [hrow, if_neg hlen] at h
      obtain ⟨rfl, rfl⟩ := Prod.mk.inj h
      exact .inl ⟨⟨_, rfl, rfl⟩, rfl⟩
    | some row =>
      simp only [hrow] at h
      by_cases howns : ownsUnfinished source.projectId owner now row
      swap
      · simp only [if_pos howns, if_neg hlen] at h
        obtain ⟨rfl, rfl⟩ := Prod.mk.inj h
        exact .inl ⟨⟨_, rfl, rfl⟩, rfl⟩
      rw [if_neg (not_not.mpr howns)] at h
      by_cases hsizes : ∀ artifact ∈ artifacts, artifact.sizeBytes ≤ bigintMax
      swap
      · rw [if_pos hsizes] at h
        obtain ⟨rfl, rfl⟩ := Prod.mk.inj h
        exact .inl ⟨⟨_, rfl, rfl⟩, rfl⟩
      rw [if_neg (not_not.mpr hsizes)] at h
      cases hassets : reviewAssets row.projectId newId artifacts db.assets with
      | none =>
        simp only [hassets] at h
        obtain ⟨rfl, rfl⟩ := Prod.mk.inj h
        exact .inl ⟨⟨_, rfl, rfl⟩, rfl⟩
      | some result =>
        obtain ⟨assets, linked⟩ := result
        simp only [hassets] at h
        obtain ⟨rfl, rfl⟩ := Prod.mk.inj h
        exact .inr ⟨owner, source, row, assets, linked, rfl, rfl, howns, hsizes, hassets, rfl, rfl⟩

end Calls

/-! ## Assets are kept -/

/-- The same asset later: uploaded if it was, with what identifies it unchanged. -/
structure Asset.Kept (a a' : Asset) : Prop where
  id : a'.id = a.id
  projectId : a'.projectId = a.projectId
  kind : a'.kind = a.kind
  storageKey : a'.storageKey = a.storageKey
  uploaded : a.uploadState = .uploaded → a'.uploadState = .uploaded

theorem Asset.Kept.rfl {a : Asset} : a.Kept a :=
  ⟨Eq.refl _, Eq.refl _, Eq.refl _, Eq.refl _, fun h => h⟩

theorem Asset.Kept.trans {a b c : Asset} (h : a.Kept b) (h' : b.Kept c) : a.Kept c where
  id := h'.id.trans h.id
  projectId := h'.projectId.trans h.projectId
  kind := h'.kind.trans h.kind
  storageKey := h'.storageKey.trans h.storageKey
  uploaded := h'.uploaded ∘ h.uploaded

/-- Every asset is kept, and no size becomes negative. -/
structure AssetTable.Grows (t t' : AssetTable) : Prop where
  kept : ∀ a ∈ t.rows, ∃ a' ∈ t'.rows, a.Kept a'
  sizes : (∀ a ∈ t.rows, 0 ≤ a.sizeBytes) → ∀ a ∈ t'.rows, 0 ≤ a.sizeBytes

namespace AssetTable.Grows

variable {t t' t'' : AssetTable}

theorem rfl : AssetTable.Grows t t := ⟨fun a ha => ⟨a, ha, .rfl⟩, fun h => h⟩

theorem trans (h : AssetTable.Grows t t') (h' : AssetTable.Grows t' t'') :
    AssetTable.Grows t t'' := by
  refine ⟨fun a ha => ?_, h'.sizes ∘ h.sizes⟩
  obtain ⟨b, hb, hab⟩ := h.kept a ha
  obtain ⟨c, hc, hbc⟩ := h'.kept b hb
  exact ⟨c, hc, hab.trans hbc⟩

theorem of_upsert {new : Asset} {m : KeyedTable.Merge Asset.id Asset.storageKey}
    {allowed : Asset → Bool} {out : Option Asset} (hnew : 0 ≤ new.sizeBytes)
    (hm : ∀ a : Asset, a.Kept (m.apply a)) (hsize : ∀ a : Asset, 0 ≤ (m.apply a).sizeBytes)
    (h : t.upsert new m allowed = some (t', out)) : AssetTable.Grows t t' := by
  refine ⟨fun a ha => ?_, fun hrows =>
    KeyedTable.forall_mem_upsert h hrows hnew fun a _ => hsize a⟩
  obtain ha' | ⟨-, ha'⟩ := KeyedTable.mem_of_upsert h ha
  · exact ⟨a, ha', .rfl⟩
  · exact ⟨m.apply a, ha', hm a⟩

/-- The assets of a review grow, and the linked ones are among them. -/
theorem of_reviewAssets {projectId : Uuid} {newId : ReviewRole → Uuid}
    {artifacts : List ReviewArtifact} {linked : List (ReviewRole × Uuid)}
    (h : reviewAssets projectId newId artifacts t = some (t', linked)) :
    AssetTable.Grows t t' ∧ ∀ link ∈ linked, ∃ a ∈ t'.rows, a.id = link.2 := by
  induction artifacts generalizing t t' linked with
  | nil =>
    obtain ⟨rfl, rfl⟩ := Prod.mk.inj (Option.some.inj h)
    exact ⟨.rfl, fun _ => nofun⟩
  | cons artifact artifacts ih =>
    obtain ⟨⟨t₁, asset⟩, hupsert, h⟩ := Option.bind_eq_some_iff.mp h
    obtain ⟨⟨t₂, linked₂⟩, hrest, h⟩ := Option.bind_eq_some_iff.mp h
    have hgrows : AssetTable.Grows t t₁ := of_upsert artifact.sizeBytes_pos.le
      (fun _ => ⟨by rfl, by rfl, by rfl, by rfl, fun h => h⟩)
      (fun _ => artifact.sizeBytes_pos.le) hupsert
    obtain ⟨hgrows₂, hlinked₂⟩ := ih hrest
    cases asset with
    | none =>
      obtain ⟨rfl, rfl⟩ := Prod.mk.inj (Option.some.inj h)
      exact ⟨hgrows.trans hgrows₂, hlinked₂⟩
    | some asset =>
      obtain ⟨rfl, rfl⟩ := Prod.mk.inj (Option.some.inj h)
      refine ⟨hgrows.trans hgrows₂, List.forall_mem_cons.mpr ⟨?_, hlinked₂⟩⟩
      have hasset := KeyedTable.lookup_upsert_of_some hupsert
      obtain ⟨a, ha, hkept⟩ := hgrows₂.kept asset (KeyedTable.lookup_eq_some.mp hasset).1
      exact ⟨a, ha, hkept.id⟩

end AssetTable.Grows

/-! ## Operations -/

namespace Operation

/-- What an operation does to the database: it claims the row of its job, or it changes the row, or
links an output or a review, as the owner of the lease. -/
inductive Effect (op : Operation) (now : Time) (db : Database) : Database → Prop
  | unchanged : Effect op now db db
  | claim {jobId workerId leaseSeconds row row'} (hop : op = .claim jobId workerId leaseSeconds)
      (hrow : db.jobs jobId = some row) (hclaim : claimSql workerId leaseSeconds now row = some row') :
      Effect op now db (db.setJob jobId row')
  | row {token row row'} (htoken : op.token = some token) (hrow : db.jobs op.job = some row)
      (hchange : RowChange token now row row')
      (hcheck : progressCheck row → progressCheck row')
      (hrefs : row'.sourceAssetId = row.sourceAssetId ∧ row'.outputAssetId = row.outputAssetId)
      (hkept : (∀ record, op ≠ .update record) →
        row'.state = row.state ∧ row'.progress = row.progress) :
      Effect op now db (db.setJob op.job row')
  | output {token row assets} {asset : Asset} (htoken : op.token = some token)
      (hrow : db.jobs op.job = some row) (hstate : row.state = .uploading)
      (hheld : row.HeldBy token now) (hassets : AssetTable.Grows db.assets assets)
      (hasset : asset ∈ assets.rows) :
      Effect op now db (linkOutput db op.job row assets asset.id)
  | review {token row assets roles linked} (htoken : op.token = some token)
      (hrow : db.jobs op.job = some row) (hstate : row.state.isTerminal = false)
      (hheld : row.HeldBy token now) (hassets : AssetTable.Grows db.assets assets)
      (hlinked : ∀ link ∈ linked, ∃ a ∈ assets.rows, a.id = link.2) :
      Effect op now db (linkReview db op.job roles assets linked)

theorem Effect.of_eq {op : Operation} {now : Time} {db db₁ db₂ : Database} (h : db₂ = db₁)
    (heffect : op.Effect now db db₁) : op.Effect now db db₂ := h ▸ heffect

variable (op : Operation) (now : Time) (db : Database)

/-- **Every operation** does nothing, or has one of the effects of an owner. -/
theorem run_effect : op.Effect now db (op.run now db) := by
  cases op with
  | claim jobId workerId leaseSeconds =>
    obtain ⟨-, hdb⟩ | ⟨row, row', -, hrow, -, hrow', hdb, -⟩ :=
      claim_cases (Prod.eta (PostgresJobRepository.claim jobId workerId leaseSeconds now db)).symm
    · exact .of_eq hdb .unchanged
    · exact .of_eq hdb (.claim rfl hrow hrow')
  | renew jobId workerId leaseSeconds =>
    obtain ⟨-, hdb, -⟩ | ⟨-, hdb, -⟩ | ⟨row, row', hrow, hrow', hcheck, hdb, -⟩ :=
      executeOn_cases (Prod.eta (PostgresJobRepository.renew jobId workerId leaseSeconds now db)).symm
    · exact .of_eq hdb .unchanged
    · exact .of_eq hdb .unchanged
    · obtain ⟨-, h⟩ := Option.ite_none_right_eq_some.mp hrow'
      obtain rfl := Option.some.inj h
      exact .of_eq hdb <| .row rfl hrow (.renew leaseSeconds hrow') id ⟨rfl, rfl⟩
        fun _ => ⟨rfl, rfl⟩
  | release jobId workerId =>
    obtain ⟨-, hdb, -⟩ | ⟨-, hdb, -⟩ | ⟨row, row', hrow, hrow', hcheck, hdb, -⟩ :=
      executeOn_cases (Prod.eta (PostgresJobRepository.release jobId workerId now db)).symm
    · exact .of_eq hdb .unchanged
    · exact .of_eq hdb .unchanged
    · obtain ⟨-, h⟩ := Option.ite_none_right_eq_some.mp hrow'
      obtain rfl := Option.some.inj h
      exact .of_eq hdb <| .row rfl hrow (.release hrow') id ⟨rfl, rfl⟩
        fun _ => ⟨rfl, rfl⟩
  | update record =>
    obtain ⟨-, hdb⟩ | ⟨owner, row, row', howner, hrow, hrow', hcheck, hdb, -⟩ :=
      update_cases (Prod.eta (PostgresJobRepository.update record now db)).symm
    · exact .of_eq hdb .unchanged
    · obtain ⟨-, h⟩ := Option.ite_none_right_eq_some.mp hrow'
      obtain rfl := Option.some.inj h
      exact .of_eq hdb <| .row howner hrow (.update record hrow') (fun _ => hcheck) ⟨rfl, rfl⟩
        fun hop => absurd rfl (hop record)
  | finalizeOutput record output newId =>
    obtain ⟨-, hdb⟩ | ⟨owner, source, row, assets, asset, howner, -, hrow, howns, hupsert, hdb, -⟩ :=
      finalizeOutput_cases
        (Prod.eta (PostgresJobRepository.finalizeOutput record output newId now db)).symm
    · exact .of_eq hdb .unchanged
    · have hgrows : AssetTable.Grows db.assets assets := .of_upsert output.sizeBytes_pos.le
        (fun _ => ⟨rfl, rfl, rfl, rfl, id⟩) (fun _ => output.sizeBytes_pos.le) hupsert
      have hasset := KeyedTable.lookup_upsert_of_some hupsert
      exact .of_eq hdb <| .output howner hrow howns.2.1 howns.2.2 hgrows
        (KeyedTable.lookup_eq_some.mp hasset).1
  | finalizeReview record reviewId artifacts newId =>
    obtain ⟨-, hdb⟩ | ⟨owner, source, row, assets, linked, hchecks, hrow, howns, -, hassets, hdb, -⟩ :=
      finalizeReview_cases
        (Prod.eta (PostgresJobRepository.finalizeReview record reviewId artifacts newId now db)).symm
    · exact .of_eq hdb .unchanged
    · obtain ⟨howner, -⟩ := reviewChecks_eq_ok.mp hchecks
      obtain ⟨hgrows, hlinked⟩ := AssetTable.Grows.of_reviewAssets hassets
      exact .of_eq hdb <| .review howner hrow howns.2.1 howns.2.2 hgrows hlinked

/-- **The rows of the jobs** change by claims, and by the owner's changes of its own row. -/
theorem run_jobs (i : Uuid) : (op.run now db).jobs i = db.jobs i ∨
    (∃ workerId leaseSeconds row row', op = claim i workerId leaseSeconds ∧
      db.jobs i = some row ∧ (op.run now db).jobs i = some row' ∧
      claimSql workerId leaseSeconds now row = some row') ∨
    ∃ token row row', op.job = i ∧ op.token = some token ∧ db.jobs i = some row ∧
      (op.run now db).jobs i = some row' ∧ RowChange token now row row' := by
  have heffect := op.run_effect now db
  generalize op.run now db = db' at heffect ⊢
  cases heffect with
  | unchanged => exact .inl rfl
  | @claim jobId workerId leaseSeconds row row' hop hrow hclaim =>
    by_cases hi : i = jobId
    · subst hi
      exact .inr (.inl ⟨workerId, leaseSeconds, row, row', hop, hrow, db.setJob_jobs_self ..,
        hclaim⟩)
    · exact .inl (db.setJob_jobs_of_ne _ hi)
  | @row token row row' htoken hrow hchange =>
    by_cases hi : i = op.job
    · subst hi
      exact .inr (.inr ⟨token, row, row', rfl, htoken, hrow, db.setJob_jobs_self .., hchange⟩)
    · exact .inl (db.setJob_jobs_of_ne _ hi)
  | @output token row assets asset htoken hrow hstate hheld =>
    by_cases hi : i = op.job
    · subst hi
      exact .inr (.inr ⟨token, row, _, rfl, htoken, hrow, db.setJob_jobs_self ..,
        .link _ hstate hheld⟩)
    · exact .inl (db.setJob_jobs_of_ne _ hi)
  | review => exact .inl rfl

/-- **The artifacts of a job** change only by an operation whose token holds its lease. -/
theorem run_artifacts (i : Uuid) : (op.run now db).artifacts i = db.artifacts i ∨
    ∃ token row, op.job = i ∧ op.token = some token ∧ db.jobs i = some row ∧
      row.state.isTerminal = false ∧ row.HeldBy token now := by
  have heffect := op.run_effect now db
  generalize op.run now db = db' at heffect ⊢
  cases heffect with
  | unchanged => exact .inl rfl
  | claim => exact .inl rfl
  | row => exact .inl rfl
  | @output token row assets asset htoken hrow hstate hheld =>
    by_cases hi : i = op.job
    · subst hi
      exact .inr ⟨token, row, rfl, htoken, hrow, by rw [hstate]; rfl, hheld⟩
    · exact .inl (Function.update_of_ne hi ..)
  | @review token row assets roles linked htoken hrow hstate hheld =>
    by_cases hi : i = op.job
    · subst hi
      exact .inr ⟨token, row, rfl, htoken, hrow, hstate, hheld⟩
    · exact .inl (Function.update_of_ne hi ..)

/-- **The assets** are kept. -/
theorem run_assets : AssetTable.Grows db.assets (op.run now db).assets := by
  have heffect := op.run_effect now db
  generalize op.run now db = db' at heffect ⊢
  cases heffect with
  | unchanged => exact .rfl
  | claim => exact .rfl
  | row => exact .rfl
  | output _ _ _ _ hassets _ => exact hassets
  | review _ _ _ _ hassets _ => exact hassets

/-- **An operation without ownership** changes nothing: other than a claim, it needs a row that its
token owns. -/
theorem run_eq_self (hclaim : ∀ jobId workerId leaseSeconds, op ≠ claim jobId workerId leaseSeconds)
    (howner : ∀ row, db.jobs op.job = some row → row.leaseOwner ≠ op.token) :
    op.run now db = db := by
  have heffect := op.run_effect now db
  generalize op.run now db = db' at heffect ⊢
  cases heffect with
  | unchanged => rfl
  | claim hop => exact absurd hop (hclaim _ _ _)
  | row htoken hrow hchange => exact absurd (hchange.owner.trans htoken.symm) (howner _ hrow)
  | output htoken hrow _ hheld => exact absurd (hheld.1.trans htoken.symm) (howner _ hrow)
  | review htoken hrow _ hheld => exact absurd (hheld.1.trans htoken.symm) (howner _ hrow)

end Operation

/-! ## The constraints are kept -/

namespace Database

variable {db : Database} {id : Uuid} {row row' : JobRow}

theorem HasAsset.grows {db db' : Database} (h : db.HasAsset id)
    (hassets : AssetTable.Grows db.assets db'.assets) : db'.HasAsset id := by
  obtain ⟨a, ha, rfl⟩ := h
  obtain ⟨a', ha', hkept⟩ := hassets.kept a ha
  exact ⟨a', ha', hkept.id⟩

theorem Consistent.setJob (h : db.Consistent) (hrow : db.jobs id = some row)
    (hcheck : progressCheck row → progressCheck row')
    (hsource : row'.sourceAssetId = row.sourceAssetId)
    (houtput : ∀ asset, row'.outputAssetId = some asset →
      row.outputAssetId = some asset ∨ db.HasAsset asset) : (db.setJob id row').Consistent := by
  have hjob : ∀ i r, (db.setJob id row').jobs i = some r →
      (i = id ∧ r = row') ∨ db.jobs i = some r := by
    intro i r hr
    by_cases hi : i = id
    · subst hi
      exact .inl ⟨rfl, Option.some.inj (hr.symm.trans (db.setJob_jobs_self ..))⟩
    · exact .inr ((db.setJob_jobs_of_ne row' hi).symm.trans hr)
  refine ⟨fun i r hr => ?_, fun i r asset hr ha => ?_, fun i r hr => ?_, fun i kind asset ha => ?_,
    h.size⟩
  · obtain ⟨rfl, rfl⟩ | hr := hjob i r hr
    · exact hsource ▸ h.source _ _ hrow
    · exact h.source i r hr
  · obtain ⟨rfl, rfl⟩ | hr := hjob i r hr
    · exact (houtput asset ha).elim (h.output _ _ asset hrow) fun ha => ha
    · exact h.output i r asset hr ha
  · obtain ⟨rfl, rfl⟩ | hr := hjob i r hr
    · exact hcheck (h.progress _ _ hrow)
    · exact h.progress i r hr
  · refine ⟨?_, (h.artifact i kind asset ha).2⟩
    by_cases hi : i = id
    · rw [hi, db.setJob_jobs_self]
      rfl
    · rw [db.setJob_jobs_of_ne row' hi]
      exact (h.artifact i kind asset ha).1

/-- Links of a job to assets of a table that has grown. -/
theorem Consistent.link {assets : AssetTable} {links : ArtifactKind → Option Uuid}
    (h : db.Consistent) (hrow : db.jobs id = some row)
    (hassets : AssetTable.Grows db.assets assets)
    (hlinks : ∀ kind asset, links kind = some asset →
      db.artifacts id kind = some asset ∨ ∃ a ∈ assets.rows, a.id = asset) :
    Database.Consistent
      { db with assets := assets, artifacts := Function.update db.artifacts id links } := by
  refine ⟨fun i r hr => (h.source i r hr).grows hassets,
    fun i r asset hr ha => (h.output i r asset hr ha).grows hassets, h.progress,
    fun i kind asset ha => ?_, hassets.sizes h.size⟩
  by_cases hi : i = id
  · subst hi
    refine ⟨Option.isSome_iff_exists.mpr ⟨row, hrow⟩, ?_⟩
    simp only [Function.update_self] at ha
    obtain ha | ha := hlinks kind asset ha
    · exact (h.artifact i kind asset ha).2.grows hassets
    · exact ha
  · simp only [Function.update_of_ne hi] at ha
    exact ⟨(h.artifact i kind asset ha).1, (h.artifact i kind asset ha).2.grows hassets⟩

end Database

theorem reviewLinks_cases {roles : List ReviewRole} {linked : List (ReviewRole × Uuid)}
    {links : ArtifactKind → Option Uuid} {kind : ArtifactKind} {asset : Uuid}
    (h : reviewLinks roles linked links kind = some asset) :
    links kind = some asset ∨ ∃ link ∈ linked, link.2 = asset := by
  cases kind with
  | output => exact .inl h
  | review role =>
    simp only [reviewLinks] at h
    split at h
    · rename_i found hlookup
      obtain rfl := Option.some.inj h
      obtain ⟨l₁, l₂, hlinked, -⟩ := List.lookup_eq_some_iff.mp hlookup
      exact .inr ⟨(role, found), by rw [hlinked]; exact List.mem_append_right _ List.mem_cons_self,
        rfl⟩
    · exact .inl (Option.ite_none_right_eq_some.mp h).2

/-- **The constraints of the tables** hold after every operation. -/
theorem Operation.run_consistent (op : Operation) (now : Time) {db : Database}
    (h : db.Consistent) : (op.run now db).Consistent := by
  have heffect := op.run_effect now db
  generalize op.run now db = db' at heffect ⊢
  cases heffect with
  | unchanged => exact h
  | claim hop hrow hclaim =>
    obtain ⟨-, hrow'⟩ := Option.ite_none_right_eq_some.mp hclaim
    obtain rfl := Option.some.inj hrow'
    exact h.setJob hrow id rfl fun _ => .inl
  | row htoken hrow hchange hcheck hrefs =>
    exact h.setJob hrow hcheck hrefs.1 fun _ ha => .inl (hrefs.2 ▸ ha)
  | @output token row assets asset htoken hrow hstate hheld hassets hasset =>
    have hlinks : ∀ kind linked,
        Function.update (db.artifacts op.job) .output (some asset.id) kind = some linked →
        db.artifacts op.job kind = some linked ∨ ∃ a ∈ assets.rows, a.id = linked := by
      intro kind linked hl
      by_cases hkind : kind = .output
      · subst hkind
        exact .inr ⟨asset, hasset, Option.some.inj (by simpa using hl)⟩
      · rw [Function.update_of_ne hkind] at hl
        exact .inl hl
    exact (h.link hrow hassets hlinks).setJob hrow id rfl
      fun _ ha => .inr ⟨asset, hasset, Option.some.inj ha⟩
  | review htoken hrow hstate hheld hassets hlinked =>
    refine h.link hrow hassets fun kind asset hl => ?_
    obtain hl | ⟨link, hmem, rfl⟩ := reviewLinks_cases hl
    · exact .inl hl
    · exact .inr (hlinked link hmem)

end BoulderFrame
