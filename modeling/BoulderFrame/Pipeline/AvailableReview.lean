import BoulderFrame.Pipeline.PublishDebug

/-!
# Reviews while everything is available

As long as the object storage and the database answer and the lease is live, an attempt that has its
files uploads them all and links them.

## Main definitions

* `ReviewWorld.LiveReview`: the attempt holds the lease, and its review id and its asset ids are new
* `ReviewWorld.available`: the calls on an available storage and database
* `ReviewWorld.LinkedReview`: a role of the job is linked to a stored file of the review

## Main results

* `ProcessingPipeline.wp_uploadReview_available`: all files are uploaded
* `ProcessingPipeline.wp_publishDebug_available`: and linked
-/

namespace BoulderFrame

open Routine PostgresJobRepository

/-! ## The world -/

namespace ReviewWorld

/-- The attempt holds the lease of its job, and the ids of its review and of its assets are new. -/
structure LiveReview (record : JobRecord) (owner : String) (source : SourceAsset)
    (newId : ReviewRole → Uuid) (i : Uuid) (w : ReviewWorld) : Prop where
  held : ∃ row, w.db.jobs record.id = some row ∧ ownsUnfinished source.projectId owner w.now row
  ids : FreshIds newId w.db.assets
  unused : w.Unused i

/-- The calls on an available storage and database. -/
def available (newId : ReviewRole → Uuid) :
    (e : ReviewEffect) → ReviewWorld → e.Answer × ReviewWorld
  | .putObject key sizeBytes contentType, w =>
    (.ok (), { w with
      objects := Function.update w.objects key (some (sizeBytes, some contentType)) })
  | .headObject key, w =>
    (match w.objects key with
      | some stored => .ok stored
      | none => .error (.other "NotFound"), w)
  | .deleteObject key, w =>
    (.ok (), { w with objects := Function.update w.objects key none, deleted := key :: w.deleted })
  | .finalizeReview record reviewId artifacts, w =>
    let result := finalizeReview record reviewId artifacts newId w.now w.db
    (result.1, { w with db := result.2 })

/-- Between the calls of the attempt the others act, and leave it its lease and its ids. -/
def availableSetting (live : ReviewWorld → Prop) (newId : ReviewRole → Uuid) (i : Uuid) :
    Setting ReviewEffect ReviewEffect.Answer ReviewWorld where
  rely w w₁ := Relies i w w₁ ∧ (live w → live w₁)
  sem e w a w' := available newId e w = (a, w')
  guar _ _ := True

/-- A role of the job is linked to a file of the review, which is stored. -/
def LinkedReview (w : ReviewWorld) (projectId jobId i : Uuid) (role : ReviewRole) (sizeBytes : ℤ) :
    Prop :=
  ∃ a ∈ w.db.assets.rows, w.db.artifacts jobId (.review role) = some a.id ∧
    a.storageKey = reviewStorageKey projectId jobId i role.reviewName ∧ a.sizeBytes = sizeBytes ∧
    w.objects a.storageKey = some (sizeBytes, some role.expectedType)

end ReviewWorld

namespace ProcessingPipeline

open ReviewWorld

variable {record : JobRecord} {owner : String} {source : SourceAsset} {newId : ReviewRole → Uuid}
  {i projectId jobId : Uuid} {files : ReviewFiles} {w : ReviewWorld} {l : List String}
  {done : List ReviewArtifact}

/-! ## The uploads -/

/-- The artifacts are those of different files of the review, which are stored. -/
structure Stored (projectId jobId i : Uuid) (files : ReviewFiles) (artifacts : List ReviewArtifact)
    (w : ReviewWorld) : Prop where
  roles : (artifacts.map (·.role)).Nodup
  stored : ∀ artifact ∈ artifacts,
    artifact.storageKey = reviewStorageKey projectId jobId i artifact.role.reviewName ∧
    artifact.sizeBytes = files.size artifact.role.reviewName ∧
    artifact.sizeBytes ≤ bigintMax ∧
    w.objects artifact.storageKey = some (artifact.sizeBytes, some artifact.role.expectedType)

theorem Stored.relies {w' : ReviewWorld} (h : Stored projectId jobId i files done w)
    (hrely : Relies i w w') : Stored projectId jobId i files done w' := by
  refine ⟨h.roles, fun artifact hmem => ?_⟩
  obtain ⟨hkey, hsize, hfits, hobject⟩ := h.stored artifact hmem
  refine ⟨hkey, hsize, hfits, ?_⟩
  rw [hrely.objects _ ⟨projectId, jobId, _, hkey⟩, hobject]

theorem Stored.perm {artifacts : List ReviewArtifact} (h : Stored projectId jobId i files done w)
    (hperm : done.Perm artifacts) : Stored projectId jobId i files artifacts w :=
  ⟨(hperm.map _).nodup_iff.mp h.roles,
    fun artifact hmem => h.stored artifact (hperm.mem_iff.mpr hmem)⟩

theorem ofValue_value (role : ReviewRole) : ReviewRole.ofValue role.value = some role := by
  cases role <;> rfl

/-- The files of the review have sizes that a column takes. -/
def Sized (files : ReviewFiles) (role : ReviewRole) : Prop :=
  0 < files.size role.reviewName ∧ files.size role.reviewName ≤ bigintMax

/-- **One file** is uploaded. -/
theorem wp_uploadReviewArtifact_available {role : ReviewRole}
    (hlive : LiveReview record owner source newId i w)
    (hdone : Stored projectId jobId i files done w) (hrole : role ∉ done.map (·.role))
    (hsize : Sized files role) :
    (uploadReviewArtifact files projectId jobId i role.value role.reviewName role.expectedType).wp
      (availableSetting (LiveReview record owner source newId i) newId i)
      (fun r _ w' => LiveReview record owner source newId i w' ∧
        ∃ artifact, r = .ok artifact ∧ artifact.role = role ∧
          Stored projectId jobId i files (artifact :: done) w') l w := by
  have hkey : reviewStorageKey projectId jobId i role.reviewName ∈ reviewKeys i :=
    ⟨projectId, jobId, _, rfl⟩
  have hne : ∀ artifact ∈ done, artifact.storageKey ≠
      reviewStorageKey projectId jobId i role.reviewName := by
    intro artifact hmem h
    rw [(hdone.stored artifact hmem).1] at h
    exact hrole (reviewName_injective (reviewStorageKey_injective h) ▸ List.mem_map_of_mem hmem)
  unfold uploadReviewArtifact
  simp only [wp_bind, wp_modify, wp_handle]
  generalize hstorageKey : reviewStorageKey projectId jobId i role.reviewName = storageKey at hkey hne
  -- the put
  refine wp_call.mpr ?_
  rintro w₁ ⟨hrely₁, hlive₁⟩ a w₂ hput
  obtain ⟨rfl, rfl⟩ := Prod.mk.inj hput
  refine ⟨trivial, ?_⟩
  simp only [cast_eq, wp_bind, wp_handle]
  -- the head
  refine wp_call.mpr ?_
  rintro w₃ ⟨hrely₃, hlive₃⟩ a w₄ hhead
  have hobject : w₃.objects storageKey =
      some (files.size role.reviewName, some role.expectedType) :=
    (hrely₃.objects storageKey hkey).trans (Function.update_self ..)
  have hfound : available newId (.headObject storageKey) w₃ =
      (.ok (files.size role.reviewName, some role.expectedType), w₃) := by
    simp only [available, hobject]
  obtain ⟨rfl, rfl⟩ := Prod.mk.inj (hfound.symm.trans hhead)
  refine ⟨trivial, ?_⟩
  have htype : role.expectedType ≠ "" := by cases role <;> decide
  have hpost : ReviewArtifact.postInit role.value storageKey (files.size role.reviewName)
      role.expectedType = .ok ⟨role, storageKey, files.size role.reviewName, role.expectedType,
        hsize.1, rfl⟩ := by
    simp [ReviewArtifact.postInit, ofValue_value, hsize.1]
  simp only [cast_eq, Option.filter_some, ne_eq, htype, not_false_eq_true, decide_true, if_true,
    not_true_eq_false, or_self, if_false, wp_ofExcept, hpost]
  obtain ⟨hheld, hids, hunused⟩ := hlive₁ hlive
  refine ⟨hlive₃ ⟨hheld, hids, ⟨hunused.assets, hunused.deleted⟩⟩, _, rfl, rfl,
    ⟨List.nodup_cons.mpr ⟨hrole, hdone.roles⟩, List.forall_mem_cons.mpr
      ⟨⟨hstorageKey.symm, rfl, hsize.2, hobject⟩, fun artifact hmem => ?_⟩⟩⟩
  obtain ⟨hkept, hbytes, hfits, hstored⟩ := (hdone.relies hrely₁).stored artifact hmem
  refine ⟨hkept, hbytes, hfits, ?_⟩
  rw [hrely₃.objects _ ⟨projectId, jobId, _, hkept⟩, ← hstored]
  exact Function.update_of_ne (hne artifact hmem) ..

/-- The role of a phase. -/
def phaseRole (phase : String) : ReviewRole :=
  (ReviewRole.ofValue ("debug_" ++ phase)).getD .debugRender

/-- **The videos** are uploaded, each ready one. -/
theorem wp_uploadPhases_available {phases : List String}
    (hphases : ∀ phase ∈ phases, (phaseRole phase).value = "debug_" ++ phase ∧
      (phaseRole phase).reviewName = phase ++ ".mp4" ∧ (phaseRole phase).expectedType = "video/mp4")
    (hlive : LiveReview record owner source newId i w)
    (hdone : Stored projectId jobId i files done w)
    (hroles : (phases.map phaseRole ++ done.map (·.role)).Nodup)
    (hsizes : ∀ phase ∈ phases, files.ready phase → Sized files (phaseRole phase)) :
    (uploadPhases files projectId jobId i phases).wp
      (availableSetting (LiveReview record owner source newId i) newId i)
      (fun r _ w' => LiveReview record owner source newId i w' ∧
        ∃ artifacts, r = .ok artifacts ∧
          Stored projectId jobId i files (artifacts ++ done) w') l w := by
  induction phases generalizing l w done with
  | nil => exact ⟨hlive, [], rfl, hdone⟩
  | cons phase phases ih =>
    obtain ⟨⟨hvalue, hname, htype⟩, hphases⟩ := List.forall_mem_cons.mp hphases
    obtain ⟨hsize, hsizes⟩ := List.forall_mem_cons.mp hsizes
    rw [List.map_cons, List.cons_append, List.nodup_cons, List.mem_append, not_or] at hroles
    obtain ⟨⟨hother, hrole⟩, hroles⟩ := hroles
    unfold uploadPhases
    split_ifs with hready
    · rw [wp_bind, ← hvalue, ← hname, ← htype]
      refine wp_mono ?_ (wp_uploadReviewArtifact_available hlive hdone hrole (hsize hready))
      rintro _ l₁ w₁ ⟨hlive₁, artifact, rfl, hartifact, hdone₁⟩
      have hroles₁ : (phases.map phaseRole ++ (artifact :: done).map (·.role)).Nodup := by
        rw [List.map_cons, List.nodup_middle, hartifact, List.nodup_cons, List.mem_append]
        exact ⟨not_or.mpr ⟨hother, hrole⟩, hroles⟩
      simp only [wp_bind]
      refine wp_mono ?_ (ih hphases hlive₁ hdone₁ hroles₁ hsizes)
      rintro _ l₂ w₂ ⟨hlive₂, artifacts, rfl, hall⟩
      exact ⟨hlive₂, _, rfl, hall.perm List.perm_middle⟩
    · exact ih hphases hlive hdone hroles hsizes

/-- The sizes of the files that are uploaded. -/
structure FilesSized (files : ReviewFiles) : Prop where
  telemetry : Sized files .debugTelemetry
  manifest : Sized files .debugManifest
  videos : ∀ phase ∈ phases, files.ready phase → Sized files (phaseRole phase)

/-- **The files of a review** are uploaded, the telemetry and the manifest among them. -/
theorem wp_uploadReview_available (hlive : LiveReview record owner source newId i w)
    (hsizes : FilesSized files) :
    (uploadReview files projectId jobId i).wp
      (availableSetting (LiveReview record owner source newId i) newId i)
      (fun r _ w' => LiveReview record owner source newId i w' ∧
        ∃ telemetry manifest videos, r = .ok (telemetry :: manifest :: videos) ∧
          telemetry.role = .debugTelemetry ∧ manifest.role = .debugManifest ∧
          Stored projectId jobId i files (telemetry :: manifest :: videos) w') l w := by
  have hnone : Stored projectId jobId i files [] w := ⟨List.nodup_nil, fun _ => nofun⟩
  unfold uploadReview
  rw [wp_bind]
  have htelemetry := wp_uploadReviewArtifact_available (l := l) hlive hnone List.not_mem_nil
    hsizes.telemetry
  refine wp_mono ?_ htelemetry
  rintro _ l₁ w₁ ⟨hlive₁, telemetry, rfl, htelemetry, hdone₁⟩
  simp only [wp_bind]
  have hmanifest := wp_uploadReviewArtifact_available (l := l₁) hlive₁ hdone₁
    (by simp [htelemetry]) hsizes.manifest
  refine wp_mono ?_ hmanifest
  rintro _ l₂ w₂ ⟨hlive₂, manifest, rfl, hmanifest, hdone₂⟩
  simp only [wp_bind]
  have hroles : (phases.map phaseRole ++ [manifest, telemetry].map (·.role)).Nodup := by
    rw [List.map_cons, List.map_cons, List.map_nil, htelemetry, hmanifest]
    decide
  refine wp_mono ?_ (wp_uploadPhases_available (by decide) hlive₂ hdone₂ hroles hsizes.videos)
  rintro _ l₃ w₃ ⟨hlive₃, videos, rfl, hall⟩
  refine ⟨hlive₃, telemetry, manifest, videos, rfl, htelemetry, hmanifest, hall.perm ?_⟩
  exact List.perm_append_comm.trans (List.Perm.swap ..)

/-! ## The link -/

/-- **The link** of stored artifacts, with the telemetry and the manifest among them. -/
theorem finalizeReview_available {artifacts : List ReviewArtifact}
    (howner : record.leaseOwner = some owner) (hsource : record.sourceAsset = some source)
    (hstate : record.state.isTerminal = false) (hlive : LiveReview record owner source newId i w)
    (hstored : Stored source.projectId record.id i files artifacts w)
    (hneeded : .debugTelemetry ∈ artifacts.map (·.role) ∧
      .debugManifest ∈ artifacts.map (·.role)) :
    ∃ w', available newId (.finalizeReview record i artifacts) w = (.ok (), w') ∧
      ∀ role ∈ artifacts.map (·.role),
        LinkedReview w' source.projectId record.id i role (files.size role.reviewName) := by
  obtain ⟨row, hrow, howns⟩ := hlive.held
  have hchecks : reviewChecks record i artifacts = .ok (owner, source) :=
    reviewChecks_eq_ok.mpr ⟨howner, hsource, hstate, hneeded, hstored.roles, fun artifact hmem =>
      (hstored.stored artifact hmem).1⟩
  obtain ⟨t', linked, hassets⟩ : ∃ t' linked,
      reviewAssets row.projectId newId artifacts w.db.assets = some (t', linked) :=
    reviewAssets_total hlive.ids.injective hstored.roles fun a ha artifact _ =>
      hlive.ids.new a ha artifact.role
  have hspec := reviewAssets_spec hstored.roles (nodup_keys hchecks) hassets
  -- The keys of a new review are nobody's.
  have hfree : ∀ artifact ∈ artifacts, ¬ artifact.Blocked row.projectId w.db.assets := by
    rintro artifact hmem ⟨old, hold, -⟩
    obtain ⟨hold, hkey⟩ := KeyedTable.lookup_eq_some.mp hold
    exact hlive.unused.assets old hold
      (hkey ▸ ⟨source.projectId, record.id, _, (hstored.stored artifact hmem).1⟩)
  have hresult := finalizeReview_of_owned hchecks hrow howns
    (fun artifact hmem => (hstored.stored artifact hmem).2.2.1) hassets
  rw [if_pos (hspec.length_eq.mpr hfree)] at hresult
  refine ⟨_, by rw [available, hresult], fun role hrole => ?_⟩
  obtain ⟨artifact, hmem, rfl⟩ := List.mem_map.mp hrole
  obtain ⟨a, ha, ⟨-, -, -, hkey, hbytes, -⟩, hlink⟩ :=
    (hspec.replaced hfree).linked artifact hmem
  obtain ⟨hartifact, hsize, -, hobject⟩ := hstored.stored artifact hmem
  refine ⟨a, ha, hlink, hkey.trans hartifact, hbytes.trans hsize, ?_⟩
  rw [hkey, ← hsize]
  exact hobject

/-- **The review** is published: the telemetry and the manifest are linked. -/
theorem wp_publishDebug_available (howner : record.leaseOwner = some owner)
    (hsource : record.sourceAsset = some source) (hstate : record.state.isTerminal = false)
    (hlive : LiveReview record owner source newId i w) (hsizes : FilesSized files) :
    (publishDebug true (.ok files) record i).wp
      (availableSetting (LiveReview record owner source newId i) newId i)
      (fun r _ w' => r = .ok () ∧
        LinkedReview w' source.projectId record.id i .debugTelemetry
          (files.size ReviewRole.debugTelemetry.reviewName) ∧
        LinkedReview w' source.projectId record.id i .debugManifest
          (files.size ReviewRole.debugManifest.reviewName)) l w := by
  unfold publishDebug
  rw [if_neg (by decide)]
  have hof : sourceOf record = .ok source := by
    rw [sourceOf, hsource]
  simp only [wp_bind, wp_ofExcept, hof, wp_handle]
  refine wp_mono ?_ (wp_uploadReview_available hlive hsizes)
  rintro _ l₁ w₁ ⟨hlive₁, telemetry, manifest, videos, rfl, htelemetry, hmanifest, hstored⟩
  refine wp_call.mpr ?_
  rintro w₂ ⟨hrely, hlive₂⟩ a w₃ hstep
  have hroles : ReviewRole.debugTelemetry ∈ (telemetry :: manifest :: videos).map (·.role) ∧
      ReviewRole.debugManifest ∈ (telemetry :: manifest :: videos).map (·.role) := by
    simp [htelemetry, hmanifest]
  obtain ⟨w', hlink, hlinked⟩ := finalizeReview_available howner hsource hstate (hlive₂ hlive₁)
    (hstored.relies hrely) hroles
  obtain ⟨rfl, rfl⟩ := Prod.mk.inj (hlink.symm.trans hstep)
  exact ⟨trivial, trivial, hlinked _ hroles.1, hlinked _ hroles.2⟩

end ProcessingPipeline

end BoulderFrame
