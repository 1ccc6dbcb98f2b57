import BoulderFrame.Library.ThreadPool
import BoulderFrame.Repository.Review
import BoulderFrame.Worker.World

/-!
# Publishing a review

An attempt uploads the files of a review under keys with a new review id, and then links them. If
anything fails, it deletes what it has uploaded. That is safe as long as the failure is reported
before the links are committed: a call that raises after its commit leaves links to objects that
are then deleted.

## Main definitions

* `ProcessingPipeline.publishDebug`: the upload, the link, and the clean-up
* `ReviewWorld`, `ReviewWorld.Step`, `ReviewWorld.Env`: the database and the object storage, the
  effects of an attempt, and the steps of the rest
* `reviewAttempts`: the pool of the attempts, each with its own review id

## Main results

* `ProcessingPipeline.wp_publishDebug`: an attempt deletes no linked object, unless its link was
  committed by a call that raised
* `ReviewWorld.links_stored`: so the objects of all other links are stored
-/

namespace BoulderFrame

open Routine

/-- The calls that publish a review: on object storage, and on the repository. -/
inductive ReviewEffect
  | putObject (key : String) (sizeBytes : ℤ) (contentType : String)
  | headObject (key : String)
  | deleteObject (key : String)
  | finalizeReview (record : JobRecord) (reviewId : Uuid) (artifacts : List ReviewArtifact)

abbrev ReviewEffect.Answer : ReviewEffect → Type
  | .headObject _ => Except Raised (ℤ × Option String)
  | _ => Except Raised Unit

/-- The variable of an attempt is `uploaded`. -/
abbrev ReviewRoutine (α : Type) := Routine ReviewEffect ReviewEffect.Answer Raised (List String) α

/-- `PHASES` -/
def phases : List String := ["detection", "framing", "render"]

/-- The files of a review: the size of each by its name, and the phases with a ready one. -/
structure ReviewFiles where
  size : String → ℤ
  ready : String → Bool

namespace ProcessingPipeline

def reviewNotVerified : Raised :=
  .worker (.terminal .invalidOutput "Debug review upload could not be verified." none)

section Publish

variable (files : ReviewFiles) (projectId jobId reviewId : Uuid)

/-- `_upload_review_artifact`, with `S3Storage.upload` and `S3Storage.head` -/
def uploadReviewArtifact (role name contentType : String) : ReviewRoutine ReviewArtifact := do
  let storageKey := reviewStorageKey projectId jobId reviewId name
  -- the key is registered before the put, so that a failed head is cleaned up
  modify (· ++ [storageKey])
  handle (call (.putObject storageKey (files.size name) contentType) rfl) fun _ => raise storageError
  let (sizeBytes, stored) ← handle (call (.headObject storageKey) rfl) fun _ => raise storageError
  if sizeBytes ≠ files.size name ∨ stored.filter (· ≠ "") ≠ some contentType then
    raise reviewNotVerified
  else ofExcept (ReviewArtifact.postInit role storageKey sizeBytes contentType)

/-- The loop over the phases. -/
def uploadPhases : List String → ReviewRoutine (List ReviewArtifact)
  | [] => pure []
  | phase :: phases =>
    if files.ready phase then do
      let artifact ← uploadReviewArtifact files projectId jobId reviewId ("debug_" ++ phase)
        (phase ++ ".mp4") "video/mp4"
      let artifacts ← uploadPhases phases
      pure (artifact :: artifacts)
    else uploadPhases phases

/-- The artifacts of a review. -/
def uploadReview : ReviewRoutine (List ReviewArtifact) := do
  let telemetry ← uploadReviewArtifact files projectId jobId reviewId "debug_telemetry"
    "telemetry.jsonl.gz" "application/gzip"
  let manifest ← uploadReviewArtifact files projectId jobId reviewId "debug_manifest"
    "manifest.json" "application/json"
  let videos ← uploadPhases files projectId jobId reviewId phases
  pure (telemetry :: manifest :: videos)

end Publish

/-- The clean-up: what a deletion raises is passed over. -/
def deleteUploaded : List String → ReviewRoutine Unit
  | [] => pure ()
  | storageKey :: uploaded => do
    handle (call (.deleteObject storageKey) rfl) fun _ => pure ()
    deleteUploaded uploaded

/-- `ProcessingPipeline.publish_debug`, with the files that the capture has left, and the new
review id. -/
def publishDebug (debugCapture : Bool) (files : Except Raised ReviewFiles) (record : JobRecord)
    (reviewId : Uuid) : ReviewRoutine Unit :=
  if ¬ debugCapture then pure ()
  else do
    let source ← ofExcept (sourceOf record)
    let files ← ofExcept files
    handle (do
      let artifacts ← uploadReview files source.projectId record.id reviewId
      call (.finalizeReview record reviewId artifacts) rfl) fun e => do
      let uploaded ← get
      deleteUploaded uploaded
      raise e

end ProcessingPipeline

/-! ## The world of the reviews -/

/-- The database, and the objects with their sizes and content types. The keys that a clean-up has
deleted are kept beside them. -/
structure ReviewWorld extends Clocked where
  objects : String → Option (ℤ × Option String)
  deleted : List String

/-- The keys of a review. -/
def reviewKeys (reviewId : Uuid) : Set String :=
  {key | ∃ projectId jobId name, key = reviewStorageKey projectId jobId reviewId name}

theorem reviewKeys_disjoint {i j : Uuid} {key : String} (hi : key ∈ reviewKeys i)
    (hj : key ∈ reviewKeys j) : i = j := by
  obtain ⟨_, _, _, rfl⟩ := hi
  obtain ⟨_, _, _, h⟩ := hj
  exact (reviewStorageKey_inj h).2.2.1

namespace ReviewWorld

variable (w : ReviewWorld)

/-- The effects of the attempt with the given review. Every call may raise before or after its
effect, but a review that raises after its commit is one of the given ones. -/
inductive Step (late : Set Uuid) (i : Uuid) (w : ReviewWorld) :
    (e : ReviewEffect) → e.Answer → ReviewWorld → Prop
  | put {key sizeBytes contentType a} : Step late i w (.putObject key sizeBytes contentType) a
      { w with objects := Function.update w.objects key (some (sizeBytes, some contentType)) }
  | unput {key sizeBytes contentType e} :
    Step late i w (.putObject key sizeBytes contentType) (.error e) w
  | head {key stored} (h : w.objects key = some stored) :
    Step late i w (.headObject key) (.ok stored) w
  | unheaded {key e} : Step late i w (.headObject key) (.error e) w
  | delete {key a} : Step late i w (.deleteObject key) a
      { w with objects := Function.update w.objects key none, deleted := key :: w.deleted }
  | undeleted {key e} : Step late i w (.deleteObject key) (.error e) w
  | finalize {record reviewId artifacts newId a db}
      (h : PostgresJobRepository.finalizeReview record reviewId artifacts newId w.now w.db = (a, db)) :
    Step late i w (.finalizeReview record reviewId artifacts) a { w with db := db }
  | unfinalized {record reviewId artifacts name} :
    Step late i w (.finalizeReview record reviewId artifacts) (.error (.other name)) w
  | interrupted {record reviewId artifacts newId a db name} (hi : i ∈ late)
      (h : PostgresJobRepository.finalizeReview record reviewId artifacts newId w.now w.db = (a, db)) :
    Step late i w (.finalizeReview record reviewId artifacts) (.error (.other name))
      { w with db := db }

/-- The clock, the other calls of all attempts, with which leases expire and are taken over, and
the backend, whose new assets are not those of a review. -/
inductive Env (w : ReviewWorld) : ReviewWorld → Prop
  | clock {now} (h : w.now ≤ now) : Env w { w with now := now }
  | operation {op : Operation}
      (h : ∀ record reviewId artifacts newId, op ≠ .finalizeReview record reviewId artifacts newId) :
    Env w { w with db := op.run w.now w.db }
  | createJob {j row} (habsent : w.db.jobs j = none) : Env w { w with db := w.db.setJob j row }
  | assets {assets} (h : AssetTable.Grows w.db.assets assets)
      (hkeys : ∀ a ∈ assets.rows, (∃ old ∈ w.db.assets.rows, old.storageKey = a.storageKey) ∨
        ∀ i, a.storageKey ∉ reviewKeys i) :
    Env w { w with db := { w.db with assets := assets } }

/-- Nothing has a key of the review yet. -/
structure Unused (i : Uuid) : Prop where
  assets : ∀ a ∈ w.db.assets.rows, a.storageKey ∉ reviewKeys i
  deleted : ∀ key ∈ w.deleted, key ∉ reviewKeys i

/-- Every linked review asset is stored, and its object has not been deleted, unless its own
review has raised after its commit. -/
def LinksStored (late : Set Uuid) : Prop :=
  ∀ j role id, w.db.artifacts j (.review role) = some id → ∃ a ∈ w.db.assets.rows, a.id = id ∧
    ((∀ i ∈ late, a.storageKey ∉ reviewKeys i) →
      (w.objects a.storageKey).isSome ∧ a.storageKey ∉ w.deleted)

/-- What an attempt relies on: nobody else touches the keys of its review. -/
structure Relies (i : Uuid) (w w' : ReviewWorld) : Prop where
  objects : ∀ key ∈ reviewKeys i, w'.objects key = w.objects key
  deleted : ∀ key ∈ reviewKeys i, key ∈ w'.deleted → key ∈ w.deleted
  assets : ∀ a ∈ w'.db.assets.rows, a.storageKey ∈ reviewKeys i →
    ∃ old ∈ w.db.assets.rows, old.storageKey = a.storageKey

end ReviewWorld

/-- The attempts at publishing a review, each with its own new review id. -/
def reviewAttempts (late : Set Uuid) :
    Pool Uuid ReviewEffect ReviewEffect.Answer (Except Raised Unit × List String) ReviewWorld where
  start i w p := w.Unused i ∧ ∃ debugCapture files record,
    p = ProcessingPipeline.publishDebug debugCapture files record i []
  sem i e w := ReviewWorld.Step late i w e
  env := ReviewWorld.Env

/-! ## What is relied on -/

namespace ReviewWorld

variable {late : Set Uuid} {i k : Uuid} {w w' w'' : ReviewWorld}

theorem Relies.rfl : Relies i w w :=
  ⟨fun _ _ => Eq.refl _, fun _ _ h => h, fun a ha _ => ⟨a, ha, Eq.refl _⟩⟩

/-- A step that leaves the object storage. -/
theorem Relies.of_assets {db : Database} {now : Time}
    (h : ∀ a ∈ db.assets.rows, a.storageKey ∈ reviewKeys i →
      ∃ old ∈ w.db.assets.rows, old.storageKey = a.storageKey) :
    Relies i w { w with db := db, now := now } := ⟨fun _ _ => Eq.refl _, fun _ _ h => h, h⟩

theorem Relies.trans (h : Relies i w w') (h' : Relies i w' w'') : Relies i w w'' where
  objects key hkey := (h'.objects key hkey).trans (h.objects key hkey)
  deleted key hkey hdeleted := h.deleted key hkey (h'.deleted key hkey hdeleted)
  assets a ha hkey := by
    obtain ⟨a', ha', hkey'⟩ := h'.assets a ha hkey
    obtain ⟨a'', ha'', hkey''⟩ := h.assets a' ha' (hkey' ▸ hkey)
    exact ⟨a'', ha'', hkey''.trans hkey'⟩

theorem Unused.relies (h : w.Unused i) (hrely : Relies i w w') : w'.Unused i where
  assets a ha hkey := by
    obtain ⟨old, hold, hkey'⟩ := hrely.assets a ha hkey
    exact h.assets old hold (hkey' ▸ hkey)
  deleted key hdeleted hkey := h.deleted key (hrely.deleted key hkey hdeleted) hkey

/-- A change of the objects under a key of one review is none for the others. -/
theorem Relies.update {key : String} (hkey : key ∈ reviewKeys i) (hk : k ≠ i)
    (object : Option (ℤ × Option String)) (deleted : List String)
    (hdeleted : ∀ key' ∈ deleted, key' ∈ w.deleted ∨ key' = key) :
    Relies k w { w with objects := Function.update w.objects key object, deleted := deleted } where
  objects key' hkey' := by
    refine Function.update_of_ne ?_ ..
    rintro rfl
    exact hk (reviewKeys_disjoint hkey' hkey)
  deleted key' hkey' hmem := by
    obtain h | rfl := hdeleted key' hmem
    · exact h
    · exact absurd (reviewKeys_disjoint hkey' hkey) hk
  assets a ha _ := ⟨a, ha, Eq.refl _⟩

/-- Links and assets that are kept stay stored. -/
theorem LinksStored.of_kept (h : w.LinksStored late) {db : Database} {now : Time}
    (hlinks : ∀ j role, db.artifacts j (.review role) = w.db.artifacts j (.review role))
    (hassets : AssetTable.Grows w.db.assets db.assets) :
    LinksStored { w with db := db, now := now } late := by
  intro j role id hlink
  obtain ⟨a, ha, rfl, hstored⟩ := h j role id ((hlinks j role).symm.trans hlink)
  obtain ⟨a', ha', hkept⟩ := hassets.kept a ha
  refine ⟨a', ha', hkept.id, fun hlate => ?_⟩
  rw [hkept.storageKey] at hlate ⊢
  exact hstored hlate

/-! ## The rest of the system -/

/-- An operation that finalizes no review keeps the links of all reviews, and adds no asset with a
key of one. -/
theorem run_kept {op : Operation} {now : Time} {db : Database}
    (h : ∀ record reviewId artifacts newId, op ≠ .finalizeReview record reviewId artifacts newId) :
    (∀ j role, (op.run now db).artifacts j (.review role) = db.artifacts j (.review role)) ∧
      ∀ i, ∀ a ∈ (op.run now db).assets.rows, a.storageKey ∈ reviewKeys i →
        ∃ old ∈ db.assets.rows, old.storageKey = a.storageKey := by
  have hsame : ∀ {db' : Database}, db'.artifacts = db.artifacts → db'.assets = db.assets →
      (∀ j role, db'.artifacts j (.review role) = db.artifacts j (.review role)) ∧
      ∀ i, ∀ a ∈ db'.assets.rows, a.storageKey ∈ reviewKeys i →
        ∃ old ∈ db.assets.rows, old.storageKey = a.storageKey := by
    intro db' hartifacts hassets
    exact ⟨fun _ _ => by rw [hartifacts], fun _ a ha _ => ⟨a, hassets ▸ ha, Eq.refl _⟩⟩
  cases op with
  | claim jobId workerId leaseSeconds =>
    obtain ⟨-, hdb⟩ | ⟨_, _, _, -, -, -, hdb, -⟩ := claim_cases
      (Prod.eta (PostgresJobRepository.claim jobId workerId leaseSeconds now db)).symm
    all_goals rw [Operation.run, hdb]; exact hsame (Eq.refl _) (Eq.refl _)
  | renew jobId workerId leaseSeconds =>
    obtain ⟨-, hdb, -⟩ | ⟨-, hdb, -⟩ | ⟨_, _, -, -, -, hdb, -⟩ := executeOn_cases
      (Prod.eta (PostgresJobRepository.renew jobId workerId leaseSeconds now db)).symm
    all_goals rw [Operation.run, hdb]; exact hsame (Eq.refl _) (Eq.refl _)
  | release jobId workerId =>
    obtain ⟨-, hdb, -⟩ | ⟨-, hdb, -⟩ | ⟨_, _, -, -, -, hdb, -⟩ := executeOn_cases
      (Prod.eta (PostgresJobRepository.release jobId workerId now db)).symm
    all_goals rw [Operation.run, hdb]; exact hsame (Eq.refl _) (Eq.refl _)
  | update record =>
    obtain ⟨-, hdb⟩ | ⟨_, _, _, -, -, -, -, hdb, -⟩ := update_cases
      (Prod.eta (PostgresJobRepository.update record now db)).symm
    all_goals rw [Operation.run, hdb]; exact hsame (Eq.refl _) (Eq.refl _)
  | finalizeOutput record output newId =>
    obtain ⟨-, hdb⟩ | ⟨_, source, row, assets, asset, -, -, -, -, hupsert, hdb, -⟩ :=
      finalizeOutput_cases
        (Prod.eta (PostgresJobRepository.finalizeOutput record output newId now db)).symm
    · rw [Operation.run, hdb]
      exact hsame (Eq.refl _) (Eq.refl _)
    · rw [Operation.run, hdb]
      refine ⟨fun j role => ?_, ?_⟩
      · by_cases hj : j = record.id
        · subst hj
          have hself := congrFun (Function.update_self record.id (Function.update
            (db.artifacts record.id) .output (some asset.id)) db.artifacts) (.review role)
          exact hself.trans (Function.update_of_ne (by rintro ⟨⟩) ..)
        · exact congrFun (Function.update_of_ne hj ..) _
      · intro i
        refine KeyedTable.forall_mem_upsert hupsert (fun a ha _ => ⟨a, ha, Eq.refl _⟩) ?_ ?_
        · rintro ⟨_, _, _, hkey⟩
          exact absurd hkey outputStorageKey_ne_reviewStorageKey
        · exact fun _ ha hkey => ha hkey
  | finalizeReview => exact absurd (Eq.refl _) (h _ _ _ _)

/-- **The rest of the system** keeps the stored links, and what the attempts rely on. -/
theorem Env.linksStored (henv : w.Env w') (h : w.LinksStored late) : w'.LinksStored late := by
  cases henv with
  | clock => exact h
  | operation hop => exact h.of_kept (run_kept hop).1 (Operation.run_assets ..)
  | createJob => exact h
  | assets hassets => exact h.of_kept (fun _ _ => Eq.refl _) hassets

theorem Env.relies (henv : w.Env w') (i : Uuid) : Relies i w w' := by
  cases henv with
  | clock => exact .of_assets fun a ha _ => ⟨a, ha, Eq.refl _⟩
  | operation hop => exact .of_assets ((run_kept hop).2 i)
  | createJob => exact .of_assets fun a ha _ => ⟨a, ha, Eq.refl _⟩
  | assets _ hkeys =>
    exact .of_assets fun a ha hkey => (hkeys a ha).resolve_right fun hno => hno i hkey

/-! ## The link of a review -/

/-- The artifacts are stored under keys of the review. -/
def Uploaded (i : Uuid) (artifacts : List ReviewArtifact) (w : ReviewWorld) : Prop :=
  ∀ artifact ∈ artifacts, artifact.storageKey ∈ reviewKeys i ∧
    (w.objects artifact.storageKey).isSome

theorem Uploaded.relies {artifacts : List ReviewArtifact} (h : w.Uploaded i artifacts)
    (hrely : Relies i w w') : w'.Uploaded i artifacts := by
  intro artifact hmem
  obtain ⟨hkey, hobject⟩ := h artifact hmem
  exact ⟨hkey, hrely.objects _ hkey ▸ hobject⟩

/-- **The link of a new review** keeps the other links, adds assets with its own keys only, and
links stored objects; if the call raises itself, it has changed nothing. -/
theorem finalizeReview_unused {record : JobRecord} {reviewId : Uuid}
    {artifacts : List ReviewArtifact} {newId : ReviewRole → Uuid} {a : Except Raised Unit}
    {db : Database} (hunused : w.Unused i) (huploaded : w.Uploaded i artifacts)
    (h : PostgresJobRepository.finalizeReview record reviewId artifacts newId w.now w.db = (a, db)) :
    (w.LinksStored late → LinksStored { w with db := db } late) ∧
    (∀ k ≠ i, Relies k w { w with db := db }) ∧ ((∃ e, a = .error e) → db = w.db) := by
  obtain ⟨-, rfl⟩ | ⟨owner, source, row, assets, linked, hchecks, hrow, howns, -, hassets, rfl, rfl⟩ :=
    finalizeReview_cases h
  · exact ⟨id, fun _ _ => .rfl, fun _ => Eq.refl _⟩
  have hfree : ∀ artifact ∈ artifacts, ¬ artifact.Blocked row.projectId w.db.assets := by
    rintro artifact hmem ⟨old, hold, -⟩
    obtain ⟨hold, hkey⟩ := KeyedTable.lookup_eq_some.mp hold
    exact hunused.assets old hold (hkey ▸ (huploaded artifact hmem).1)
  obtain ⟨-, -, -, -, hroles, -⟩ := reviewChecks_eq_ok.mp hchecks
  have hspec := reviewAssets_spec hroles (nodup_keys hchecks) hassets
  have hreplaced : ReviewReplaced row.projectId record.id artifacts w.db _ := hspec.replaced hfree
  refine ⟨fun hstored j role id hlink => ?_, fun k hk => ⟨fun _ _ => Eq.refl _, fun _ _ h => h,
    fun a ha hkey => ⟨a, ?_, Eq.refl _⟩⟩, ?_⟩
  · by_cases hj : j = record.id
    · subst hj
      have hrole := (hreplaced.roles role).mp (hlink ▸ Eq.refl _)
      obtain ⟨artifact, hmem, rfl⟩ := List.mem_map.mp hrole
      obtain ⟨a, ha, ⟨-, -, -, hkey, -, -⟩, hlinked⟩ := hreplaced.linked artifact hmem
      refine ⟨a, ha, Option.some.inj (hlinked.symm.trans hlink), fun _ => ?_⟩
      obtain ⟨hreview, hobject⟩ := huploaded artifact hmem
      exact ⟨hkey ▸ hobject, fun hdeleted => hunused.deleted _ hdeleted (hkey ▸ hreview)⟩
    · have hsame := hreplaced.otherLinks j (.review role) (.inl hj)
      obtain ⟨a, ha, rfl, hstored⟩ := hstored j role id (hsame.symm.trans hlink)
      obtain ⟨a', ha', hkept⟩ := (AssetTable.Grows.of_reviewAssets hassets).1.kept a ha
      refine ⟨a', ha', hkept.id, fun hlate => ?_⟩
      rw [hkept.storageKey] at hlate ⊢
      exact hstored hlate
  · refine (hreplaced.otherAssets a fun hmem => ?_).mp ha
    obtain ⟨artifact, hmem, heq⟩ := List.mem_map.mp hmem
    exact hk (reviewKeys_disjoint hkey (heq ▸ (huploaded artifact hmem).1))
  · rintro ⟨e, he⟩
    rw [if_pos (hspec.length_eq.mpr hfree)] at he
    cases he

/-! ## Objects -/

theorem isSome_put {objects : String → Option (ℤ × Option String)} {key key' : String}
    {object : ℤ × Option String} (h : (objects key').isSome) :
    (Function.update objects key (some object) key').isSome := by
  by_cases hkey : key' = key
  · subst hkey
    rw [Function.update_self]
    rfl
  · rwa [Function.update_of_ne hkey]

/-- An object that is put is stored. -/
theorem LinksStored.put (h : w.LinksStored late) {key : String} {object : ℤ × Option String} :
    LinksStored { w with objects := Function.update w.objects key (some object) } late := by
  intro j role id hlink
  obtain ⟨a, ha, hid, hstored⟩ := h j role id hlink
  exact ⟨a, ha, hid, fun hlate => ⟨isSome_put (hstored hlate).1, (hstored hlate).2⟩⟩

theorem Uploaded.put {artifacts : List ReviewArtifact} (h : w.Uploaded i artifacts) {key : String}
    {object : ℤ × Option String} :
    Uploaded i artifacts { w with objects := Function.update w.objects key (some object) } := by
  intro artifact hmem
  obtain ⟨hreview, hobject⟩ := h artifact hmem
  exact ⟨hreview, isSome_put hobject⟩

/-- The objects of the review may be deleted: none is linked, or it has raised after its commit. -/
def Deletable (late : Set Uuid) (i : Uuid) (w : ReviewWorld) : Prop :=
  i ∈ late ∨ ∀ a ∈ w.db.assets.rows, a.storageKey ∉ reviewKeys i

theorem Deletable.relies (h : w.Deletable late i) (hrely : Relies i w w') :
    w'.Deletable late i := by
  obtain hlate | hassets := h
  · exact .inl hlate
  · refine .inr fun a ha hkey => ?_
    obtain ⟨old, hold, hkey'⟩ := hrely.assets a ha hkey
    exact hassets old hold (hkey' ▸ hkey)

/-- A deleted object of such a review is not linked. -/
theorem LinksStored.delete (h : w.LinksStored late) {key : String} (hkey : key ∈ reviewKeys i)
    (hdeletable : w.Deletable late i) : LinksStored { w with
      objects := Function.update w.objects key none, deleted := key :: w.deleted } late := by
  intro j role id hlink
  obtain ⟨a, ha, hid, hstored⟩ := h j role id hlink
  refine ⟨a, ha, hid, fun hlate => ?_⟩
  obtain ⟨hobject, hdeleted⟩ := hstored hlate
  have hne : a.storageKey ≠ key := by
    rintro rfl
    obtain hi | hassets := hdeletable
    · exact hlate i hi hkey
    · exact hassets a ha hkey
  exact ⟨(congrArg Option.isSome (Function.update_of_ne hne ..)).trans hobject,
    List.not_mem_cons_of_ne_of_not_mem hne hdeleted⟩

end ReviewWorld

/-! ## An attempt -/

/-- What the attempts rely on. -/
def reviewDiscipline (late : Set Uuid) : Pool.Discipline Uuid ReviewWorld where
  inv w := w.LinksStored late
  rely := ReviewWorld.Relies
  rely_refl _ _ := .rfl
  rely_trans _ _ _ _ := .trans
  fresh _ _ := True
  fresh_rely _ _ _ _ _ := trivial

/-- The setting of one attempt. -/
abbrev reviewSetting (late : Set Uuid) (i : Uuid) : Setting ReviewEffect ReviewEffect.Answer ReviewWorld :=
  (reviewDiscipline late).setting (reviewAttempts late) i

namespace ProcessingPipeline

variable {late : Set Uuid} {i projectId jobId : Uuid} {files : ReviewFiles} {w : ReviewWorld}
  {l : List String} {done : List ReviewArtifact}

/-- Nothing is linked yet, and the registered keys are those of the review. -/
structure Unlinked (i : Uuid) (l : List String) (w : ReviewWorld) : Prop where
  keys : ∀ key ∈ l, key ∈ reviewKeys i
  unused : w.Unused i

/-- How a part of the upload ends: with nothing linked, and if it returns, with stored artifacts. -/
def Uploads {α : Type} (i : Uuid) (artifacts : α → List ReviewArtifact) (r : Except Raised α)
    (l : List String) (w : ReviewWorld) : Prop :=
  Unlinked i l w ∧ ∀ a, r = .ok a → w.Uploaded i (artifacts a)

theorem storageKey_of_postInit {role storageKey contentType : String} {sizeBytes : ℤ}
    {artifact : ReviewArtifact}
    (h : ReviewArtifact.postInit role storageKey sizeBytes contentType = .ok artifact) :
    artifact.storageKey = storageKey := by
  unfold ReviewArtifact.postInit at h
  split at h
  · cases h
  split_ifs at h
  obtain rfl := Except.ok.inj h
  rfl

/-- **One artifact** is uploaded, or nothing is linked. -/
theorem wp_uploadReviewArtifact {role name contentType : String} (hl : Unlinked i l w)
    (hdone : w.Uploaded i done) :
    (uploadReviewArtifact files projectId jobId i role name contentType).wp (reviewSetting late i)
      (Uploads i (· :: done)) l w := by
  have hkey : reviewStorageKey projectId jobId i name ∈ reviewKeys i :=
    ⟨projectId, jobId, name, rfl⟩
  have hkeys : ∀ key ∈ l ++ [reviewStorageKey projectId jobId i name], key ∈ reviewKeys i := by
    intro key hmem
    obtain hmem | hmem := List.mem_append.mp hmem
    · exact hl.keys key hmem
    · exact List.mem_singleton.mp hmem ▸ hkey
  unfold uploadReviewArtifact
  simp only [wp_bind, wp_modify, wp_handle]
  generalize reviewStorageKey projectId jobId i name = storageKey at hkey hkeys
  -- the put
  refine wp_call.mpr ?_
  rintro w₁ ⟨hrely₁, hinv₁⟩ a w₂ hstep
  have hunused₁ := hl.unused.relies hrely₁
  have hdone₁ := hdone.relies hrely₁
  obtain ⟨hguar, hunused₂, hdone₂⟩ : (w₂.LinksStored late ∧ ∀ k ≠ i, ReviewWorld.Relies k w₁ w₂) ∧
      w₂.Unused i ∧ w₂.Uploaded i done := by
    cases hstep with
    | put => exact ⟨⟨hinv₁.put, fun k hk => .update hkey hk _ _ fun _ h => .inl h⟩,
        ⟨hunused₁.assets, hunused₁.deleted⟩, hdone₁.put⟩
    | unput => exact ⟨⟨hinv₁, fun _ _ => .rfl⟩, hunused₁, hdone₁⟩
  refine ⟨hguar, ?_⟩
  obtain e | _ := a
  · exact ⟨⟨hkeys, hunused₂⟩, by rintro _ ⟨⟩⟩
  -- the head
  simp only [cast_eq, wp_bind, wp_handle]
  refine wp_call.mpr ?_
  rintro w₃ ⟨hrely₃, hinv₃⟩ a w₄ hstep
  have hunused₃ := hunused₂.relies hrely₃
  have hdone₃ := hdone₂.relies hrely₃
  cases hstep with
  | unheaded =>
    exact ⟨⟨hinv₃, fun _ _ => .rfl⟩, ⟨hkeys, hunused₃⟩, by rintro _ ⟨⟩⟩
  | @head _ stored hstored =>
    refine ⟨⟨hinv₃, fun _ _ => .rfl⟩, ?_⟩
    obtain ⟨sizeBytes, stored⟩ := stored
    simp only [cast_eq]
    split_ifs
    · exact ⟨⟨hkeys, hunused₃⟩, by rintro _ ⟨⟩⟩
    · refine ⟨⟨hkeys, hunused₃⟩, fun artifact hartifact => ?_⟩
      refine List.forall_mem_cons.mpr ⟨?_, hdone₃⟩
      rw [storageKey_of_postInit hartifact, hstored]
      exact ⟨hkey, rfl⟩

theorem wp_uploadPhases (hl : Unlinked i l w) (hdone : w.Uploaded i done) (phases : List String) :
    (uploadPhases files projectId jobId i phases).wp (reviewSetting late i)
      (Uploads i (· ++ done)) l w := by
  induction phases generalizing l w done with
  | nil => exact ⟨hl, fun _ h => Except.ok.inj h ▸ hdone⟩
  | cons phase phases ih =>
    unfold uploadPhases
    split_ifs with hready
    · rw [wp_bind]
      refine wp_mono ?_ (wp_uploadReviewArtifact hl hdone)
      rintro (e | artifact) l₁ w₁ ⟨hl₁, hdone₁⟩
      · exact ⟨hl₁, fun _ => nofun⟩
      · simp only [wp_bind]
        refine wp_mono ?_ (ih hl₁ (hdone₁ artifact rfl))
        rintro (e | artifacts) l₂ w₂ ⟨hl₂, hdone₂⟩
        · exact ⟨hl₂, fun _ => nofun⟩
        · refine ⟨hl₂, fun _ h => ?_⟩
          obtain rfl := Except.ok.inj h
          intro other hother
          refine hdone₂ artifacts rfl other ?_
          simp only [List.cons_append, List.mem_cons, List.mem_append] at hother ⊢
          tauto
    · exact ih hl hdone

/-- **The upload** of a review stores its artifacts, or nothing is linked. -/
theorem wp_uploadReview (hl : Unlinked i l w) :
    (uploadReview files projectId jobId i).wp (reviewSetting late i) (Uploads i id) l w := by
  have hnone : w.Uploaded i [] := fun _ => nofun
  unfold uploadReview
  rw [wp_bind]
  refine wp_mono ?_ (wp_uploadReviewArtifact hl hnone)
  rintro (e | telemetry) l₁ w₁ ⟨hl₁, hdone₁⟩
  · exact ⟨hl₁, fun _ => nofun⟩
  simp only [wp_bind]
  refine wp_mono ?_ (wp_uploadReviewArtifact hl₁ (hdone₁ telemetry rfl))
  rintro (e | manifest) l₂ w₂ ⟨hl₂, hdone₂⟩
  · exact ⟨hl₂, fun _ => nofun⟩
  simp only [wp_bind]
  refine wp_mono ?_ (wp_uploadPhases hl₂ (hdone₂ manifest rfl) phases)
  rintro (e | videos) l₃ w₃ ⟨hl₃, hdone₃⟩
  · exact ⟨hl₃, fun _ => nofun⟩
  refine ⟨hl₃, fun _ h => ?_⟩
  obtain rfl := Except.ok.inj h
  intro artifact hartifact
  refine hdone₃ videos rfl artifact ?_
  simp only [id_eq, List.mem_cons, List.mem_append] at hartifact ⊢
  tauto

/-- **The clean-up** deletes objects of the review only. -/
theorem wp_deleteUploaded {uploaded : List String} {Q : Except Raised Unit → List String → ReviewWorld → Prop}
    (huploaded : ∀ key ∈ uploaded, key ∈ reviewKeys i) (hdeletable : w.Deletable late i)
    (hQ : ∀ l w, Q (.ok ()) l w) :
    (deleteUploaded uploaded).wp (reviewSetting late i) Q l w := by
  induction uploaded generalizing w with
  | nil => exact hQ l w
  | cons key uploaded ih =>
    obtain ⟨hkey, huploaded⟩ := List.forall_mem_cons.mp huploaded
    unfold deleteUploaded
    simp only [wp_bind, wp_handle]
    refine wp_call.mpr ?_
    rintro w₁ ⟨hrely, hinv⟩ a w₂ hstep
    have hdeletable₁ := hdeletable.relies hrely
    obtain ⟨hguar, hdeletable₂⟩ : (w₂.LinksStored late ∧ ∀ k ≠ i, ReviewWorld.Relies k w₁ w₂) ∧
        w₂.Deletable late i := by
      cases hstep with
      | delete =>
        refine ⟨⟨hinv.delete hkey hdeletable₁, fun k hk => .update hkey hk _ _ ?_⟩, hdeletable₁⟩
        exact fun _ h => (List.mem_cons.mp h).symm
      | undeleted => exact ⟨⟨hinv, fun _ _ => .rfl⟩, hdeletable₁⟩
    refine ⟨hguar, ?_⟩
    obtain e | _ := a
    · exact ih huploaded hdeletable₂
    · exact ih huploaded hdeletable₂

/-- **Publishing** a review deletes no linked object, unless its link was committed by a call that
raised. -/
theorem wp_publishDebug {debugCapture : Bool} {files : Except Raised ReviewFiles}
    {record : JobRecord} (hunused : w.Unused i) :
    (publishDebug debugCapture files record i).wp (reviewSetting late i) (fun _ _ _ => True) [] w := by
  unfold publishDebug
  split_ifs
  swap
  · exact trivial
  rw [wp_bind, wp_ofExcept]
  obtain e | source := sourceOf record
  · exact trivial
  simp only [wp_bind, wp_ofExcept]
  obtain e | files := files
  · exact trivial
  simp only [wp_handle, wp_bind]
  refine wp_mono ?_ (wp_uploadReview ⟨List.forall_mem_nil _, hunused⟩)
  rintro (e | artifacts) l₁ w₁ ⟨⟨hkeys, hunused₁⟩, huploaded⟩
  · simp only [wp_bind, wp_get]
    exact wp_deleteUploaded hkeys (.inr hunused₁.assets) fun _ _ => trivial
  -- the link
  refine wp_call.mpr ?_
  rintro w₂ ⟨hrely, hinv⟩ a w₃ hstep
  have hunused₂ := hunused₁.relies hrely
  have huploaded₂ := (huploaded artifacts rfl).relies hrely
  obtain ⟨hguar, hdeletable⟩ : (w₃.LinksStored late ∧ ∀ k ≠ i, ReviewWorld.Relies k w₂ w₃) ∧
      ((∃ e, a = .error e) → w₃.Deletable late i) := by
    cases hstep with
    | finalize h =>
      obtain ⟨hlinks, hothers, hsame⟩ := ReviewWorld.finalizeReview_unused hunused₂ huploaded₂ h
      exact ⟨⟨hlinks hinv, hothers⟩, fun he => .inr (hsame he ▸ hunused₂.assets)⟩
    | unfinalized => exact ⟨⟨hinv, fun _ _ => .rfl⟩, fun _ => .inr hunused₂.assets⟩
    | interrupted hi h =>
      obtain ⟨hlinks, hothers, -⟩ := ReviewWorld.finalizeReview_unused hunused₂ huploaded₂ h
      exact ⟨⟨hlinks hinv, hothers⟩, fun _ => .inl hi⟩
  refine ⟨hguar, ?_⟩
  obtain e | _ := a
  · simp only [cast_eq, wp_bind, wp_get]
    exact wp_deleteUploaded hkeys (hdeletable ⟨e, rfl⟩) fun _ _ => trivial
  · exact trivial

end ProcessingPipeline

/-! ## Reachable reviews -/

namespace ReviewWorld

variable {late : Set Uuid} {w : ReviewWorld}
  {c : Pool.Config Uuid ReviewEffect ReviewEffect.Answer (Except Raised Unit × List String) ReviewWorld}

/-- No review has been published. -/
def Initial (w : ReviewWorld) : Prop := ∀ j role, w.db.artifacts j (.review role) = none

/-- **The linked reviews.** However many attempts publish reviews, and whatever fails: every linked
review asset refers to an object that is stored and has not been deleted, unless its own review was
committed by a call that then raised. -/
theorem links_stored (hw : w.Initial) (hc : (reviewAttempts late).Reachable w c) {j : Uuid}
    {role : ReviewRole} {id : Uuid} (hlink : c.shared.db.artifacts j (.review role) = some id) :
    ∃ a ∈ c.shared.db.assets.rows, a.id = id ∧
      ((∀ i ∈ late, a.storageKey ∉ reviewKeys i) →
        (c.shared.objects a.storageKey).isSome ∧ a.storageKey ∉ c.shared.deleted) := by
  have henv : ∀ w w', (reviewDiscipline late).inv w → (reviewAttempts late).env w w' →
      (reviewDiscipline late).inv w' ∧ ∀ i, (reviewDiscipline late).rely i w w' :=
    fun _ _ hinv henv => ⟨Env.linksStored henv hinv, Env.relies henv⟩
  have hstart : ∀ i w p, (reviewDiscipline late).inv w → (reviewDiscipline late).fresh i w →
      (reviewAttempts late).start i w p →
      p.wp ((reviewDiscipline late).setting (reviewAttempts late) i) (fun _ _ => True) w := by
    rintro i w _ - - ⟨hunused, debugCapture, files, record, rfl⟩
    exact ProcessingPipeline.wp_publishDebug hunused
  have hinit : (reviewDiscipline late).inv w := fun j role id h => nomatch (hw j role).symm.trans h
  exact ((reviewDiscipline late).sound henv hstart hinit (fun _ => trivial) hc).1 j role id hlink

/-! ## Reviews of the created job -/

/-- The created job, held by an attempt. -/
def claimedRow : JobRow := { sampleRow with
  leaseOwner := some "attempt", leaseExpiresAt := some (seconds 60), startedAt := some 0 }

def claimedRecord : JobRecord := recordFromRow sampleJob claimedRow sampleSource

def claimed : ReviewWorld where
  db := sampleDatabase.setJob sampleJob claimedRow
  now := 0
  objects _ := none
  deleted := []

def sampleReview : Uuid := ⟨"d2a9f1c4-0b7e-4c11-9d55-3e8f6a7b1c20", by decide⟩

/-- The ids of the telemetry and of the manifest. -/
def sampleAssetId (role : ReviewRole) : Uuid :=
  if role = .debugTelemetry then ⟨"7b1e0c9d-2a34-4f6b-8c15-9e0d1f2a3b47", by decide⟩
  else ⟨"94c3d8e1-5f60-4a7b-b2c9-0d1e2f3a4b58", by decide⟩

/-- What every effect answers if nothing fails, except that a review may raise after its commit. -/
def serve (raises : Bool) : (e : ReviewEffect) → ReviewWorld → e.Answer × ReviewWorld
  | .putObject key sizeBytes contentType, w =>
    (.ok (), { w with
      objects := Function.update w.objects key (some (sizeBytes, some contentType)) })
  | .headObject key, w =>
    (match w.objects key with
      | some stored => .ok stored
      | none => .error (.other "NotFound"), w)
  | .deleteObject key, w =>
    (.ok (), { w with objects := Function.update w.objects key none, deleted := key :: w.deleted })
  | .finalizeReview record reviewId artifacts, w =>
    let result :=
      PostgresJobRepository.finalizeReview record reviewId artifacts sampleAssetId w.now w.db
    (if raises then .error (.other "OperationalError") else result.1, { w with db := result.2 })

theorem serve_step {raises : Bool} {i : Uuid} (h : raises → i ∈ late) (e : ReviewEffect)
    (w : ReviewWorld) : Step late i w e (serve raises e w).1 (serve raises e w).2 := by
  cases e with
  | putObject => exact .put
  | deleteObject => exact .delete
  | headObject key =>
    cases hobject : w.objects key with
    | none =>
      simp only [serve, hobject]
      exact .unheaded
    | some stored =>
      simp only [serve, hobject]
      exact .head hobject
  | finalizeReview =>
    cases raises with
    | false => exact .finalize (Prod.eta _).symm
    | true => exact .interrupted (h rfl) (Prod.eta _).symm

theorem not_mem_reviewKeys {key : String} (h : key.toList.take 9 ≠ "private/d".toList) {i : Uuid} :
    key ∉ reviewKeys i := by
  rintro ⟨projectId, jobId, name, hkey⟩
  have htext : key = "private/debug/" ++ projectId.text ++ "/" ++ jobId.text ++ "/" ++ i.text ++
    "/" ++ name := hkey
  have hlength : 9 ≤ "private/debug/".toList.length := by decide
  simp only [String.append_assoc] at htext
  refine h ?_
  rw [htext, String.toList_append, List.take_append_of_le_length hlength]
  decide

/-- The publication of a review of the created job, without videos. -/
def samplePublication :
    Prog ReviewEffect ReviewEffect.Answer (Except Raised Unit × List String) :=
  ProcessingPipeline.publishDebug true (.ok ⟨fun _ => 512, fun _ => false⟩) claimedRecord
    sampleReview []

theorem samplePublication_starts : (reviewAttempts late).start sampleReview claimed
    samplePublication := by
  refine ⟨⟨fun a ha => ?_, fun _ => nofun⟩, true, _, claimedRecord, rfl⟩
  obtain rfl := List.mem_singleton.mp ha
  exact not_mem_reviewKeys (by decide)

/-- The created job after its review has been published. -/
def published : ReviewWorld := (samplePublication.advance (serve false) 10 claimed).2

theorem published_reachable : ∃ c, (reviewAttempts ∅).Reachable claimed c ∧
    c.shared = published := by
  have hserve : ∀ e w, Step ∅ sampleReview w e (serve false e w).1 (serve false e w).2 :=
    serve_step nofun
  exact ⟨_, Pool.Reachable.init.launch rfl samplePublication_starts hserve 10, rfl⟩

/-- The published telemetry is linked, and stored. -/
theorem links_stored_published : ∃ id,
    published.db.artifacts sampleJob (.review .debugTelemetry) = some id ∧
    ∃ a ∈ published.db.assets.rows, a.id = id ∧
      ((∀ i ∈ (∅ : Set Uuid), a.storageKey ∉ reviewKeys i) →
        (published.objects a.storageKey).isSome ∧ a.storageKey ∉ published.deleted) := by
  obtain ⟨c, hc, hshared⟩ := published_reachable
  have hlink : published.db.artifacts sampleJob (.review .debugTelemetry) =
      some (sampleAssetId .debugTelemetry) := by decide +kernel
  have hinitial : claimed.Initial := fun _ _ => rfl
  have h := links_stored hinitial hc (hshared ▸ hlink)
  rw [hshared] at h
  exact ⟨_, hlink, h⟩

/-- The review of the created job is committed by a call that raises. -/
def cleanedUp : ReviewWorld := (samplePublication.advance (serve true) 10 claimed).2

theorem cleanedUp_reachable : ∃ c, (reviewAttempts Set.univ).Reachable claimed c ∧
    c.shared = cleanedUp := by
  have hserve : ∀ e w, Step Set.univ sampleReview w e (serve true e w).1 (serve true e w).2 :=
    serve_step fun _ => Set.mem_univ _
  exact ⟨_, Pool.Reachable.init.launch rfl samplePublication_starts hserve 10, rfl⟩

/-- **A clean-up after the commit** deletes the objects of the linked review. -/
theorem links_cleanedUp : ∃ c id, (reviewAttempts Set.univ).Reachable claimed c ∧
    c.shared.db.artifacts sampleJob (.review .debugTelemetry) = some id ∧
    ∀ a ∈ c.shared.db.assets.rows, a.id = id →
      c.shared.objects a.storageKey = none ∧ a.storageKey ∈ c.shared.deleted := by
  obtain ⟨c, hc, hshared⟩ := cleanedUp_reachable
  refine ⟨c, sampleAssetId .debugTelemetry, hc, ?_⟩
  rw [hshared]
  exact ⟨by decide +kernel, by decide +kernel⟩

end ReviewWorld

end BoulderFrame
