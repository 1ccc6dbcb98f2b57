import BoulderFrame.Repository.Ownership

/-!
# The output of a job

The output key of a job is its own, and the asset under it is written only by the attempt that
holds the uploading job.

## Main definitions

* `Linked`: the row and the output artifact of a job name its uploaded output asset

## Main results

* `outputStorageKey_injective`: the key determines the job and its project
* `Operation.run_output_asset`: an output asset changes only by the holder of its job
* `finalizeOutput_linked`: a finalized output is linked
-/

namespace BoulderFrame

open PostgresJobRepository

/-- Two UUIDs between fixed texts are determined by the whole text. -/
theorem Uuid.append_injective {a b c : String} {id₁ id₂ id₁' id₂' : Uuid}
    (h : a ++ id₁.text ++ b ++ id₂.text ++ c = a ++ id₁'.text ++ b ++ id₂'.text ++ c) :
    id₁ = id₁' ∧ id₂ = id₂' := by
  have hchars := congrArg String.toList h
  simp only [String.toList_append, List.append_assoc] at hchars
  obtain ⟨h₁, hrest⟩ := List.append_inj (List.append_cancel_left hchars)
    (id₁.length_text.trans id₁'.length_text.symm)
  obtain ⟨h₂, -⟩ := List.append_inj (List.append_cancel_left hrest)
    (id₂.length_text.trans id₂'.length_text.symm)
  exact ⟨Uuid.ext_text (String.toList_inj.mp h₁), Uuid.ext_text (String.toList_inj.mp h₂)⟩

/-- **The key of an output** determines the project and the job. -/
theorem outputStorageKey_injective {projectId projectId' jobId jobId' : Uuid}
    (h : outputStorageKey projectId jobId = outputStorageKey projectId' jobId') :
    projectId = projectId' ∧ jobId = jobId' :=
  Uuid.append_injective h

/-- The output of a job: an uploaded output asset of its project with the job's output key, which
the row and its one output artifact name. -/
structure Linked (db : Database) (j : Uuid) (row : JobRow) (a : Asset) : Prop where
  mem : a ∈ db.assets.rows
  row_eq : row.outputAssetId = some a.id
  artifact : db.artifacts j .output = some a.id
  kind : a.kind = .output
  uploaded : a.uploadState = .uploaded
  key : a.projectId = row.projectId ∧ a.storageKey = outputStorageKey row.projectId j

/-- An output is kept while its asset, its link and the row's references are. -/
theorem Linked.later {db db' : Database} {j : Uuid} {row row' : JobRow} {a : Asset}
    (h : Linked db j row a) (hmem : a ∈ db'.assets.rows)
    (hartifact : db'.artifacts j .output = db.artifacts j .output)
    (hrow : row'.outputAssetId = row.outputAssetId ∧ row'.projectId = row.projectId) :
    Linked db' j row' a where
  mem := hmem
  row_eq := hrow.1.trans h.row_eq
  artifact := hartifact.trans h.artifact
  kind := h.kind
  uploaded := h.uploaded
  key := hrow.2 ▸ h.key

section Operations

variable {now : Time} {db db' : Database}

theorem executeOn_assets (jobId : Uuid) (statement : Time → JobRow → Option JobRow) (now : Time)
    (db : Database) : (executeOn jobId statement now db).2.assets = db.assets := by
  obtain ⟨-, hdb, -⟩ | ⟨-, hdb, -⟩ | ⟨_, _, -, -, -, hdb, -⟩ :=
    executeOn_cases (Prod.eta (executeOn jobId statement now db)).symm
  · rw [hdb]
  · rw [hdb]
  · rw [hdb, Database.setJob_assets]

/-- A review keeps the output assets. -/
theorem mem_of_reviewAssets {projectId : Uuid} {newId : ReviewRole → Uuid}
    {artifacts : List ReviewArtifact} {linked : List (ReviewRole × Uuid)} {t t' : AssetTable}
    (h : reviewAssets projectId newId artifacts t = some (t', linked)) {a : Asset}
    (ha : a ∈ t.rows) (hkind : a.kind = .output) : a ∈ t'.rows := by
  induction artifacts generalizing t t' linked with
  | nil =>
    obtain ⟨rfl, rfl⟩ := Prod.mk.inj (Option.some.inj h)
    exact ha
  | cons artifact artifacts ih =>
    obtain ⟨⟨t₁, asset⟩, hupsert, h⟩ := Option.bind_eq_some_iff.mp h
    obtain ⟨⟨t₂, linked₂⟩, hrest, h⟩ := Option.bind_eq_some_iff.mp h
    have ha₁ : a ∈ t₁.rows := by
      obtain ha₁ | ⟨hallowed, -⟩ := KeyedTable.mem_of_upsert hupsert ha
      · exact ha₁
      · simp [Asset.overwritable, hkind] at hallowed
    have ha₂ := ih hrest ha₁
    cases asset with
    | none =>
      obtain ⟨rfl, rfl⟩ := Prod.mk.inj (Option.some.inj h)
      exact ha₂
    | some asset =>
      obtain ⟨rfl, rfl⟩ := Prod.mk.inj (Option.some.inj h)
      exact ha₂

/-- **An output asset** changes only by the attempt that holds the uploading job with its key. -/
theorem Operation.run_output_asset (op : Operation) {a : Asset} (ha : a ∈ db.assets.rows)
    (hkind : a.kind = .output) : a ∈ (op.run now db).assets.rows ∨
      ∃ token row, op.token = some token ∧ db.jobs op.job = some row ∧ row.HeldBy token now ∧
        a.storageKey = outputStorageKey row.projectId op.job := by
  have hsame : (op.run now db).assets = db.assets → a ∈ (op.run now db).assets.rows :=
    fun h => h ▸ ha
  cases op with
  | claim jobId workerId leaseSeconds =>
    refine .inl (hsame ?_)
    obtain ⟨-, hdb⟩ | ⟨_, _, _, -, -, -, hdb, -⟩ :=
      claim_cases (Prod.eta (PostgresJobRepository.claim jobId workerId leaseSeconds now db)).symm
    · rw [Operation.run, hdb]
    · rw [Operation.run, hdb, Database.setJob_assets]
  | renew jobId workerId leaseSeconds => exact .inl (hsame (executeOn_assets ..))
  | release jobId workerId => exact .inl (hsame (executeOn_assets ..))
  | update record =>
    refine .inl (hsame ?_)
    obtain ⟨-, hdb⟩ | ⟨_, _, _, -, -, -, -, hdb, -⟩ :=
      update_cases (Prod.eta (PostgresJobRepository.update record now db)).symm
    · rw [Operation.run, hdb]
    · rw [Operation.run, hdb, Database.setJob_assets]
  | finalizeOutput record output newId =>
    obtain ⟨-, hdb⟩ | ⟨owner, source, row, assets, asset, howner, -, hrow, howns, hupsert, hdb, -⟩ :=
      finalizeOutput_cases
        (Prod.eta (PostgresJobRepository.finalizeOutput record output newId now db)).symm
    · exact .inl (hsame (congrArg Database.assets hdb))
    · rw [Operation.run, hdb]
      by_cases hkey : a.storageKey = outputStorageKey source.projectId record.id
      · exact .inr ⟨owner, row, howner, hrow, howns.2.2, howns.1 ▸ hkey⟩
      · have hlookup := (KeyedTable.lookup_upsert_of_ne hupsert hkey).trans
          (KeyedTable.lookup_eq_some.mpr ⟨ha, rfl⟩)
        exact .inl (KeyedTable.lookup_eq_some.mp hlookup).1
  | finalizeReview record reviewId artifacts newId =>
    obtain ⟨-, hdb⟩ | ⟨_, _, _, _, _, -, -, -, -, hassets, hdb, -⟩ := finalizeReview_cases
      (Prod.eta (PostgresJobRepository.finalizeReview record reviewId artifacts newId now db)).symm
    · exact .inl (hsame (congrArg Database.assets hdb))
    · rw [Operation.run, hdb]
      exact .inl (mem_of_reviewAssets hassets ha hkind)

/-- **A finalized output** is linked, with the size that it was finalized with. -/
theorem finalizeOutput_linked {record : JobRecord} {output : OutputAsset} {newId assetId : Uuid}
    (h : finalizeOutput record output newId now db = (.ok assetId, db')) :
    ∃ token source row a, record.leaseOwner = some token ∧ record.sourceAsset = some source ∧
      row.HeldBy token now ∧ row.projectId = source.projectId ∧ row.state = .uploading ∧
      db.jobs record.id = some row ∧
      db'.jobs record.id = some { row with outputAssetId := some a.id } ∧
      Linked db' record.id { row with outputAssetId := some a.id } a ∧
      a.sizeBytes = output.sizeBytes := by
  obtain ⟨⟨_, he, -⟩, -⟩ |
    ⟨owner, source, row, assets, asset, howner, hsource, hrow, howns, hupsert, rfl, -⟩ :=
    finalizeOutput_cases h
  · cases he
  have hmem := (KeyedTable.lookup_eq_some.mp (KeyedTable.lookup_upsert_of_some hupsert)).1
  have hasset : asset.projectId = row.projectId ∧ asset.kind = .output ∧
      asset.uploadState = .uploaded ∧ asset.sizeBytes = output.sizeBytes ∧
      asset.storageKey = outputStorageKey source.projectId record.id := by
    obtain ⟨old, hold, hallowed, -, hout⟩ | ⟨_, _, _, _, hout⟩ | ⟨-, -, hout⟩ :=
      KeyedTable.upsert_cases hupsert
    · obtain rfl := Option.some.inj hout
      obtain ⟨hproject, hkind, hstate⟩ := of_decide_eq_true hallowed
      exact ⟨hproject, hkind, hstate, rfl, (KeyedTable.lookup_eq_some.mp hold).2⟩
    · cases hout
    · obtain rfl := Option.some.inj hout
      exact ⟨rfl, rfl, rfl, rfl, rfl⟩
  obtain ⟨hproject, hkind, hstate, hsize, hkey⟩ := hasset
  refine ⟨owner, source, row, asset, howner, hsource, howns.2.2, howns.1, howns.2.1, hrow,
    Database.setJob_jobs_self .., ?_, hsize⟩
  exact
    { mem := hmem
      row_eq := rfl
      artifact := by simp [linkOutput]
      kind := hkind
      uploaded := hstate
      key := ⟨hproject, howns.1 ▸ hkey⟩ }

end Operations

end BoulderFrame
