import BoulderFrame.Backend.Evaluation
import BoulderFrame.Backend.JobRequests

/-!
# The scope of an evaluation

An evaluation reads and signs nothing but the objects of one review of a finished job whose project
the owner owns, each under its canonical key and the name of its role. What it shows comes from an
accepted manifest.

## Main definitions

* `OneReview`: the linked artifacts are those of one review
* `StoreAccess.InReview`: an access to the object of a linked artifact, under its canonical key
* `Evaluation.Shows`: what holds of an available evaluation

## Main results

* `wp_evaluation`: the accesses and the answer of a request
* `evaluation_scoped`: the accesses of every run, and what is shown of artifacts of several reviews
-/

namespace BoulderFrame

open Prog (perform wp_call wp_bind wp_mono)
open Domain EvaluationEffect

/-- All linked artifacts have known and different roles, and are those of the review. -/
structure OneReview (job : StoredJob) (artifacts : List Domain.ReviewArtifact) (reviewId : Uuid) :
    Prop where
  roles : (artifacts.map (·.role)).Nodup
  keys : ∀ artifact ∈ artifacts, ∃ name contentType,
    reviewArtifactSpec artifact.role = some (name, contentType) ∧
    artifact.asset.storageKey = reviewStorageKey job.row.projectId job.id reviewId name

/-- The access is to the object of a linked artifact, under the canonical key of the review and the
file name of its role. -/
def StoreAccess.InReview (job : StoredJob) (artifacts : List Domain.ReviewArtifact)
    (reviewId : Uuid) (access : StoreAccess) : Prop :=
  ∃ artifact ∈ artifacts, ∃ name contentType,
    reviewArtifactSpec artifact.role = some (name, contentType) ∧
    access.key = artifact.asset.storageKey ∧
    access.key = reviewStorageKey job.row.projectId job.id reviewId name

section Checks

variable {artifacts : List Domain.ReviewArtifact} {byRole : List (String × ReviewAsset)}

/-! ## The checks of the artifacts -/

theorem addByRole_eq_some {found : List (String × ReviewAsset)} (hfound : (found.map Prod.fst).Nodup)
    (h : addByRole found artifacts = some byRole) :
    byRole = found ++ artifacts.map (fun a => (a.role, a.asset)) ∧
      (byRole.map Prod.fst).Nodup := by
  induction artifacts generalizing found with
  | nil =>
    obtain rfl := Option.some.inj h
    exact ⟨(List.append_nil _).symm, hfound⟩
  | cons artifact artifacts ih =>
    rw [addByRole, Option.ite_none_left_eq_some, Option.ite_none_left_eq_some] at h
    obtain ⟨-, hnew, h⟩ := h
    have hnodup : ((found ++ [(artifact.role, artifact.asset)]).map Prod.fst).Nodup := by
      rw [List.map_append, List.nodup_append]
      refine ⟨hfound, List.nodup_singleton _, fun a ha b hb => ?_⟩
      obtain rfl := List.mem_singleton.mp hb
      rintro rfl
      exact hnew ha
    obtain ⟨hbyRole, hall⟩ := ih hnodup h
    exact ⟨by rw [hbyRole, List.append_assoc]; rfl, hall⟩

/-- The artifacts by their roles, which are different. -/
theorem reviewArtifactsByRole_eq_some (h : reviewArtifactsByRole artifacts = some byRole) :
    byRole = artifacts.map (fun a => (a.role, a.asset)) ∧ (artifacts.map (·.role)).Nodup := by
  have hnone : (([] : List (String × ReviewAsset)).map Prod.fst).Nodup := List.nodup_nil
  obtain ⟨hbyRole, hnodup⟩ := addByRole_eq_some hnone h
  rw [List.nil_append] at hbyRole
  refine ⟨hbyRole, ?_⟩
  rw [hbyRole, List.map_map] at hnodup
  exact hnodup

theorem mem_of_lookup_byRole (h : byRole = artifacts.map fun a => (a.role, a.asset))
    {role : String} {asset : ReviewAsset} (hlookup : byRole.lookup role = some asset) :
    ⟨role, asset⟩ ∈ artifacts := by
  have hmem := List.mem_of_lookup hlookup
  rw [h] at hmem
  obtain ⟨artifact, hartifact, heq⟩ := List.mem_map.mp hmem
  obtain ⟨rfl, rfl⟩ := Prod.mk.inj heq
  exact hartifact

/-- **The manifest** of a review is under its canonical key, however the id is spelled that the
parser of UUIDs reads there. -/
theorem reviewIdForAsset_eq_some {parseUuid : String → Option Uuid} {asset : ReviewAsset}
    {projectId jobId reviewId : Uuid} {name : String}
    (h : reviewIdForAsset parseUuid asset projectId jobId name = some reviewId) :
    asset.storageKey = reviewStorageKey projectId jobId reviewId name := by
  unfold reviewIdForAsset at h
  dsimp only at h
  rw [Option.ite_none_left_eq_some] at h
  obtain ⟨-, h⟩ := h
  split at h
  · cases h
  · rw [Option.ite_none_right_eq_some] at h
    obtain ⟨hkey, h⟩ := h
    obtain rfl := Option.some.inj h
    exact beq_iff_eq.mp hkey

theorem validReviewAsset_key {asset : ReviewAsset} {projectId jobId reviewId : Uuid}
    {name contentType : String}
    (h : validReviewAsset asset projectId jobId reviewId name contentType = true) :
    asset.storageKey = reviewStorageKey projectId jobId reviewId name := by
  unfold validReviewAsset at h
  rw [Bool.and_eq_true] at h
  exact beq_iff_eq.mp h.2

/-- **A valid set** of artifacts is that of one review. -/
theorem oneReview_of_valid {job : StoredJob} {reviewId : Uuid}
    (hbyRole : reviewArtifactsByRole artifacts = some byRole)
    (h : validReviewArtifactSet byRole job.row.projectId job.id reviewId = true) :
    OneReview job artifacts reviewId := by
  obtain ⟨rfl, hroles⟩ := reviewArtifactsByRole_eq_some hbyRole
  refine ⟨hroles, fun artifact hartifact => ?_⟩
  have hvalid := List.all_eq_true.mp h _ (List.mem_map_of_mem hartifact)
  dsimp only at hvalid
  split at hvalid
  · cases hvalid
  · rename_i name contentType hspec
    exact ⟨name, contentType, hspec, validReviewAsset_key hvalid⟩

/-- The object of a linked artifact of the review is in the review. -/
theorem OneReview.inReview {job : StoredJob} {reviewId : Uuid} (h : OneReview job artifacts reviewId)
    {artifact : Domain.ReviewArtifact} (hartifact : artifact ∈ artifacts) {access : StoreAccess}
    (hkey : access.key = artifact.asset.storageKey) : access.InReview job artifacts reviewId := by
  obtain ⟨name, contentType, hspec, hcanonical⟩ := h.keys artifact hartifact
  exact ⟨artifact, hartifact, name, contentType, hspec, hkey, hkey.trans hcanonical⟩

end Checks

/-! ## What is shown -/

section Shows

variable {K : Type} [Field K] [LinearOrder K]

omit [Field K] [LinearOrder K] in
/-- A shown phase is one of the manifest; without its video it is unavailable. -/
structure Domain.EvaluationPhase.Shows (urls : Set String) (phase : ManifestPhase K)
    (shown : EvaluationPhase K) : Prop where
  id : shown.id = phase.id
  label : shown.label = reviewPhaseLabel phase.id
  detail : shown.detail = phase.detail
  summary : shown.summary = phase.summary
  warningIntervals : shown.warningIntervals = phase.warningIntervals
  status : shown.status = phase.status ∨ shown.status = "unavailable"
  unavailable : shown.status = "unavailable" → shown.videoUrl = ""
  videoUrl : shown.status ≠ "unavailable" → shown.videoUrl ∈ urls

/-- What holds of an available evaluation with a manifest. -/
structure Domain.Evaluation.Shows (urls : Set String) (job : StoredJob)
    (manifest : EvaluationManifest K) (body : Evaluation K) : Prop where
  available : body.available = true
  reviewId : body.reviewId = manifest.reviewId.text
  state : body.state = job.row.state.value
  pipelineVersion : body.pipelineVersion = manifest.pipelineVersion
  modelVersion : body.modelVersion = manifest.modelVersion
  timing : body.timing = some manifest.timing
  phases : List.Forall₂ (EvaluationPhase.Shows urls) manifest.phases body.phases

/-- An answer shows nothing of a review, or an accepted manifest of the storage; its links are
signed, and expire later. -/
structure Domain.Evaluation.Answers (handler : EvaluationHandler) (urls : Set String)
    (job : StoredJob) (w : EvaluationWorld K) (body : Evaluation K) : Prop where
  finished : job.row.state = .completed ∨ job.row.state = .failed
  telemetry : body.telemetryDownloadUrl ≠ "" → body.telemetryDownloadUrl ∈ urls
  expires : 0 ≤ body.expiresInSeconds
  shows : body.available = false ∨ ∃ key text manifest, w.objects key = some text ∧
    parseEvaluationManifest handler.parseUuid text.json = .ok manifest ∧
    body.Shows urls job manifest

/-! ## The walk through the handler -/

omit [Field K] [LinearOrder K] in
/-- The accesses and the response at the end of a request. -/
def Responds (P : StoreAccess → Prop) (R : EvaluationResponse K → Prop) (w : EvaluationWorld K) :
    Prop :=
  (∀ access ∈ w.accesses, P access) ∧ ∃ response, w.response = some response ∧ R response

variable {handler : EvaluationHandler} {job : StoredJob} {reviewId : Uuid} {urls : Set String}
  {artifacts : List Domain.ReviewArtifact} {byRole : List (String × ReviewAsset)}
  {P : StoreAccess → Prop} {R : EvaluationResponse K → Prop} {w : EvaluationWorld K}

omit [Field K] [LinearOrder K] in
theorem access_accesses {access : StoreAccess} (hP : ∀ a ∈ w.accesses, P a) (h : P access) :
    ∀ a ∈ (w.access access).accesses, P a := by
  intro a ha
  obtain ha | ha := List.mem_append.mp ha
  · exact hP a ha
  · exact List.mem_singleton.mp ha ▸ h

omit [Field K] [LinearOrder K] in
theorem wp_respond {response : EvaluationResponse K} (hP : ∀ a ∈ w.accesses, P a)
    (hR : R response) :
    (perform (respond response)).wp (evaluationSetting urls) (fun _ => Responds P R) w := by
  refine wp_call.mpr ?_
  rintro _ rfl a w₁ hstep
  cases hstep
  exact ⟨trivial, hP, response, rfl, hR⟩

omit [Field K] [LinearOrder K] in
/-- The key of a presigned phase is that of the artifact with its role. -/
theorem wp_presignPhases {phases : List (EvaluationPhase K)} (hP : ∀ a ∈ w.accesses, P a)
    (hkeys : ∀ phase ∈ phases, phase.status ≠ "unavailable" → P (.presign
      (((byRole.lookup (reviewArtifactRoleForPhase phase.id)).map (·.storageKey)).getD ""))) :
    (presignPhases handler byRole phases).wp (evaluationSetting urls) (fun result w' =>
      (∀ a ∈ w'.accesses, P a) ∧ ∀ signed, result = .ok signed → List.Forall₂ (fun phase shown =>
        ∃ url, shown = { phase with videoUrl := url } ∧
          if phase.status = "unavailable" then url = phase.videoUrl else url ∈ urls)
        phases signed) w := by
  induction phases generalizing w with
  | nil =>
    refine ⟨hP, fun signed h => ?_⟩
    obtain rfl := Except.ok.inj h
    exact .nil
  | cons phase phases ih =>
    have hrest := fun phase' hmem => hkeys phase' (List.mem_cons_of_mem _ hmem)
    unfold presignPhases
    split_ifs with hstatus
    · refine wp_bind.mpr (wp_mono ?_ (ih hP hrest))
      rintro (e | rest) w₁ ⟨hP₁, hsigned⟩
      · exact ⟨hP₁, fun _ => nofun⟩
      · refine ⟨hP₁, fun signed h => ?_⟩
        obtain rfl := Except.ok.inj h
        exact .cons ⟨phase.videoUrl, rfl, (if_pos hstatus).mpr rfl⟩ (hsigned rest rfl)
    · refine wp_call.mpr ?_
      rintro _ rfl a w₁ hstep
      have haccess := hkeys phase List.mem_cons_self hstatus
      cases hstep with
      | unsigned => exact ⟨trivial, access_accesses hP haccess, fun _ => nofun⟩
      | @presign _ _ url hurl =>
        refine ⟨trivial, ?_⟩
        change (Prog.bind (presignPhases handler byRole phases) _).wp _ _ _
        refine wp_bind.mpr (wp_mono ?_ (ih (access_accesses hP haccess) hrest))
        rintro (e | rest) w₂ ⟨hP₂, hsigned⟩
        · exact ⟨hP₂, fun _ => nofun⟩
        · refine ⟨hP₂, fun signed h => ?_⟩
          obtain rfl := Except.ok.inj h
          exact .cons ⟨url, rfl, (if_neg hstatus).mpr hurl⟩ (hsigned rest rfl)

omit [Field K] [LinearOrder K] in
/-- The end of the handler adds no more than a link to the telemetry. -/
theorem wp_respondEvaluation {telemetryReady : Bool} {body : Evaluation K}
    (hP : ∀ a ∈ w.accesses, P a)
    (hkey : ∀ asset, byRole.lookup "debug_telemetry" = some asset → P (.presign asset.storageKey))
    (herror : R noEvaluationUrl) (hbody : R (.evaluation body))
    (hlinked : ∀ url ∈ urls, R (.evaluation { body with telemetryDownloadUrl := url })) :
    (respondEvaluation handler job byRole reviewId telemetryReady body).wp (evaluationSetting urls)
      (fun _ => Responds P R) w := by
  unfold respondEvaluation
  dsimp only
  split
  · exact wp_respond hP hbody
  · rename_i asset hasset
    have haccess := hkey asset (Option.filter_eq_some_iff.mp hasset).1
    refine wp_call.mpr ?_
    rintro _ rfl a w₁ hstep
    cases hstep with
    | unsigned => exact ⟨trivial, wp_respond (access_accesses hP haccess) herror⟩
    | presign hurl => exact ⟨trivial, wp_respond (access_accesses hP haccess) (hlinked _ hurl)⟩

omit [Field K] [LinearOrder K] in
theorem projectPhase_status {projectId jobId : Uuid} {phase : ManifestPhase K}
    (hstatus : validPhaseStatus phase.status = true)
    (h : (projectPhase byRole projectId jobId reviewId phase).status ≠ "unavailable") :
    ∃ asset, byRole.lookup (reviewArtifactRoleForPhase phase.id) = some asset := by
  cases hlookup : byRole.lookup (reviewArtifactRoleForPhase phase.id) with
  | some asset => exact ⟨asset, rfl⟩
  | none =>
    unfold projectPhase at h
    rw [hlookup] at h
    dsimp only at h
    split_ifs at h with hready
    · exact absurd rfl h
    · simp only [validPhaseStatus, Bool.or_eq_true, beq_iff_eq] at hstatus
      tauto

omit [Field K] [LinearOrder K] in
theorem projectPhase_shows {projectId jobId : Uuid} {phase : ManifestPhase K} {url : String}
    (hurl : if (projectPhase byRole projectId jobId reviewId phase).status = "unavailable" then
      url = (projectPhase byRole projectId jobId reviewId phase).videoUrl else url ∈ urls) :
    EvaluationPhase.Shows urls phase
      { projectPhase byRole projectId jobId reviewId phase with videoUrl := url } where
  id := rfl
  label := rfl
  detail := rfl
  summary := rfl
  warningIntervals := rfl
  status := by
    unfold projectPhase
    dsimp only
    split_ifs
    · split
      · exact .inr rfl
      · split_ifs
        · exact .inl rfl
        · exact .inr rfl
    · exact .inl rfl
  unavailable h := (if_pos h).mp hurl
  videoUrl h := (if_neg h).mp hurl

/-- A response is an error, or shows nothing, or is one review's. -/
def Presents (handler : EvaluationHandler) (urls : Set String) (job : StoredJob)
    (artifacts : List Domain.ReviewArtifact) (w : EvaluationWorld K) (reviewId : Uuid)
    (response : EvaluationResponse K) : Prop :=
  ∀ body, response = .evaluation body → body = .unavailable ∨
    OneReview job artifacts reviewId ∧ body.Answers handler urls job w

theorem wp_presentManifest {w₀ : EvaluationWorld K} {manifest : EvaluationManifest K}
    (hfinished : job.row.state = .completed ∨ job.row.state = .failed)
    (hbyRole : reviewArtifactsByRole artifacts = some byRole)
    (hone : OneReview job artifacts manifest.reviewId) {key : String} {text : StoredText K}
    (hstored : w₀.objects key = some text)
    (hmanifest : parseEvaluationManifest handler.parseUuid text.json = .ok manifest)
    (hP : ∀ a ∈ w.accesses, a.InReview job artifacts manifest.reviewId) :
    (presentManifest handler job byRole manifest.reviewId manifest).wp (evaluationSetting urls)
      (fun _ => Responds (·.InReview job artifacts manifest.reviewId)
        (Presents handler urls job artifacts w₀ manifest.reviewId)) w := by
  obtain ⟨hbyRole, -⟩ := reviewArtifactsByRole_eq_some hbyRole
  have hvalid := parseEvaluationManifest_eq_ok hmanifest
  have hlinked : ∀ role asset, byRole.lookup role = some asset →
      (StoreAccess.presign asset.storageKey).InReview job artifacts manifest.reviewId :=
    fun role asset hlookup => hone.inReview (mem_of_lookup_byRole hbyRole hlookup) rfl
  have hexpires : 0 ≤ Int.tdiv handler.urlTtl second :=
    Int.tdiv_nonneg handler.urlTtl_pos.le (by decide)
  have herror : Presents handler urls job artifacts w₀ manifest.reviewId noEvaluationUrl :=
    fun _ => nofun
  unfold presentManifest
  dsimp only
  split_ifs
  · refine wp_bind.mpr (wp_mono ?_ (wp_presignPhases hP fun phase hphase hstatus => ?_))
    · rintro (e | signed) w₁ ⟨hP₁, hsigned⟩
      · exact wp_respond hP₁ herror
      have hphases : List.Forall₂ (EvaluationPhase.Shows urls) manifest.phases signed := by
        refine (List.forall₂_map_left_iff.mp (hsigned signed rfl)).imp fun phase shown hshown => ?_
        obtain ⟨url, rfl, hurl⟩ := hshown
        exact projectPhase_shows hurl
      refine wp_respondEvaluation hP₁ (fun asset hasset => hlinked _ asset hasset) herror ?_
        fun url hurl => ?_
      · rintro body ⟨⟩
        exact .inr ⟨hone, hfinished, fun h => absurd rfl h, hexpires,
          .inr ⟨key, text, manifest, hstored, hmanifest, rfl, rfl, rfl, rfl, rfl, rfl, hphases⟩⟩
      · rintro body ⟨⟩
        exact .inr ⟨hone, hfinished, fun _ => hurl, hexpires,
          .inr ⟨key, text, manifest, hstored, hmanifest, rfl, rfl, rfl, rfl, rfl, rfl, hphases⟩⟩
    · obtain ⟨phase, hmem, rfl⟩ := List.mem_map.mp hphase
      obtain ⟨asset, hasset⟩ := projectPhase_status (hvalid.phases phase hmem).status hstatus
      change (StoreAccess.presign (((byRole.lookup (reviewArtifactRoleForPhase phase.id)).map
        (·.storageKey)).getD "")).InReview job artifacts manifest.reviewId
      rw [hasset]
      exact hlinked _ asset hasset
  · refine wp_respondEvaluation hP (fun asset hasset => hlinked _ asset hasset) herror ?_
      fun url hurl => ?_
    · rintro body ⟨⟩
      exact .inr ⟨hone, hfinished, fun h => absurd rfl h, hexpires, .inl rfl⟩
    · rintro body ⟨⟩
      exact .inr ⟨hone, hfinished, fun _ => hurl, hexpires, .inl rfl⟩

theorem wp_evaluateArtifacts (hfinished : job.row.state = .completed ∨ job.row.state = .failed)
    (haccesses : w.accesses = []) :
    (evaluateArtifacts handler job artifacts).wp (evaluationSetting urls)
      (fun _ w' => ∃ reviewId, Responds (·.InReview job artifacts reviewId)
        (Presents handler urls job artifacts w reviewId) w') w := by
  have hnone : ∀ reviewId, ∀ a ∈ w.accesses, a.InReview job artifacts reviewId := by
    intro reviewId a ha
    rw [haccesses] at ha
    cases ha
  have hunavailable : ∀ reviewId, Presents handler urls job artifacts w reviewId
      (.evaluation .unavailable) := by
    rintro reviewId body ⟨⟩
    exact .inl rfl
  have hearly : (perform (respond (.evaluation (K := K) .unavailable))).wp (evaluationSetting urls)
      (fun _ w' => ∃ reviewId, Responds (·.InReview job artifacts reviewId)
        (Presents handler urls job artifacts w reviewId) w') w :=
    wp_mono (fun _ _ h => ⟨job.id, h⟩) (wp_respond (hnone job.id) (hunavailable job.id))
  unfold evaluateArtifacts
  dsimp only
  split
  · exact hearly
  rename_i byRole hbyRole
  split
  · exact hearly
  rename_i asset hasset
  split
  · exact hearly
  rename_i reviewId hreviewId
  split_ifs
  · exact hearly
  have hartifact := mem_of_lookup_byRole (reviewArtifactsByRole_eq_some hbyRole).1 hasset
  have hread : (StoreAccess.read asset.storageKey).InReview job artifacts reviewId :=
    ⟨_, hartifact, "manifest.json", "application/json", rfl, rfl,
      reviewIdForAsset_eq_some hreviewId⟩
  refine wp_call.mpr ?_
  rintro _ rfl a w₁ hstep
  refine ⟨trivial, wp_mono (fun _ _ h => ⟨reviewId, h⟩) ?_⟩
  have hP := access_accesses (hnone reviewId) hread
  cases hstep with
  | unread => exact wp_respond hP fun _ => nofun
  | @read _ _ text hstored _ =>
    change Prog.wp _ (ite _ _ _) _ _
    split_ifs
    · exact wp_respond hP (hunavailable reviewId)
    split
    · exact wp_respond hP (hunavailable reviewId)
    rename_i manifest hmanifest
    split_ifs with hchecks
    · exact wp_respond hP (hunavailable reviewId)
    simp only [not_or, ne_eq, not_not, Bool.not_eq_false] at hchecks
    obtain ⟨rfl, -, -, hset⟩ := hchecks
    exact wp_presentManifest hfinished hbyRole (oneReview_of_valid hbyRole hset) hstored hmanifest hP

/-- The accesses and the response of a request for the evaluation of a job. -/
structure Scoped (handler : EvaluationHandler) (request : Option Uuid) (urls : Set String)
    (w w' : EvaluationWorld K) : Prop where
  accesses : w'.accesses = [] ∨ ∃ id job reviewId, request = some id ∧ w.jobs id = some job ∧
    job.id = id ∧ w.projects job.row.projectId = some handler.owner ∧
    (job.row.state = .completed ∨ job.row.state = .failed) ∧
    ∀ access ∈ w'.accesses, access.InReview job (w.reviewArtifacts job.id) reviewId
  response : ∃ response, w'.response = some response ∧ ∀ body, response = .evaluation body →
    ∃ id job reviewId, request = some id ∧ w.jobs id = some job ∧
      Presents handler urls job (w.reviewArtifacts job.id) w reviewId response

/-- **The walk through the handler.** -/
theorem wp_evaluation {request : Option Uuid} (haccesses : w.accesses = []) :
    (evaluation handler request).wp (evaluationSetting urls)
      (fun _ w' => Scoped handler request urls w w') w := by
  have hother : ∀ response : Response,
      (perform (respond (.other (K := K) response))).wp (evaluationSetting urls)
        (fun _ w' => Scoped handler request urls w w') w := by
    intro response
    refine wp_call.mpr ?_
    rintro _ rfl a w₁ hstep
    cases hstep
    exact ⟨trivial, .inl haccesses, _, rfl, fun _ => nofun⟩
  unfold evaluation
  cases request with
  | none => exact hother _
  | some id =>
    refine wp_call.mpr ?_
    rintro _ rfl a w₁ hstep
    refine ⟨trivial, ?_⟩
    cases hstep with
    | noJob => exact hother _
    | @job _ job hjob hid =>
      refine wp_call.mpr ?_
      rintro _ rfl a w₂ hstep
      refine ⟨trivial, ?_⟩
      cases hstep with
      | noProject => exact hother _
      | project hproject =>
        change Prog.wp _ (ite _ _ _) _ _
        split_ifs with hstate
        · exact hother _
        have hfinished : job.row.state = .completed ∨ job.row.state = .failed := by tauto
        refine wp_call.mpr ?_
        rintro _ rfl a w₃ hstep
        refine ⟨trivial, ?_⟩
        cases hstep with
        | noArtifacts => exact hother _
        | artifacts =>
          refine wp_mono ?_ (wp_evaluateArtifacts hfinished haccesses)
          rintro _ w' ⟨reviewId, hscope, response, hresponse, hpresents⟩
          exact ⟨.inr ⟨id, job, reviewId, rfl, hjob, hid, hproject, hfinished, hscope⟩, response,
            hresponse, fun _ _ => ⟨id, job, reviewId, rfl, hjob, hpresents⟩⟩

theorem reviewArtifactSpec_of_unknown {role : String} (h : validReviewArtifactRole role = false) :
    reviewArtifactSpec role = none := by
  simp only [validReviewArtifactRole, Bool.or_eq_false_iff, beq_eq_false_iff_ne] at h
  obtain ⟨⟨⟨⟨h₁, h₂⟩, h₃⟩, h₄⟩, h₅⟩ := h
  rw [reviewArtifactSpec, if_neg h₁, if_neg h₂, if_neg h₃, if_neg h₄, if_neg h₅]

/-- **The scope of an evaluation.** Whatever the tables and the object storage hold, and whatever
fails: a request reads and signs only keys of linked artifacts of a completed or failed job, whose
project the configured owner owns; each of these keys is the canonical one of the project, the job,
one review, and the file name of the artifact's role. If a linked role is unknown or linked twice,
or if the artifacts have no common review, then an answer that is not an error is that nothing is
available. -/
theorem evaluation_scoped {request : Option Uuid} {w' : EvaluationWorld K}
    (haccesses : w.accesses = [])
    (hrun : Prog.Run (evaluationSetting urls) (evaluation handler request) w () w') :
    (w'.accesses = [] ∨ ∃ id job, ∃ reviewId : Uuid, request = some id ∧ w.jobs id = some job ∧
      job.id = id ∧ w.projects job.row.projectId = some handler.owner ∧
      (job.row.state = .completed ∨ job.row.state = .failed) ∧
      ∀ access ∈ w'.accesses, ∃ artifact ∈ w.reviewArtifacts job.id, ∃ name contentType,
        reviewArtifactSpec artifact.role = some (name, contentType) ∧
        access.key = artifact.asset.storageKey ∧
        access.key = "private/debug/" ++ job.row.projectId.text ++ "/" ++ job.id.text ++ "/" ++
          reviewId.text ++ "/" ++ name) ∧
    ∀ id job, request = some id → w.jobs id = some job →
      ((∃ artifact ∈ w.reviewArtifacts job.id, validReviewArtifactRole artifact.role = false) ∨
        ¬ ((w.reviewArtifacts job.id).map (·.role)).Nodup ∨
        ∀ reviewId, ∃ artifact ∈ w.reviewArtifacts job.id, ∀ name contentType,
          reviewArtifactSpec artifact.role = some (name, contentType) →
          artifact.asset.storageKey ≠ reviewStorageKey job.row.projectId job.id reviewId name) →
      ∀ body, w'.response = some (.evaluation body) → body = .unavailable := by
  obtain ⟨hscope, response, hresponse, hpresents⟩ := Prog.wp_run (wp_evaluation haccesses) hrun
  refine ⟨hscope, ?_⟩
  rintro id job rfl hjob hmixed body hbody
  obtain rfl : response = .evaluation body := Option.some.inj (hresponse.symm.trans hbody)
  obtain ⟨id', job', reviewId, hid, hjob', hshown⟩ := hpresents body rfl
  obtain rfl := Option.some.inj hid
  obtain rfl := Option.some.inj (hjob.symm.trans hjob')
  obtain h | ⟨⟨hroles, hkeys⟩, -⟩ := hshown body rfl
  · exact h
  obtain ⟨artifact, hmem, hunknown⟩ | hdup | hother := hmixed
  · obtain ⟨name, contentType, hspec, -⟩ := hkeys artifact hmem
    cases (reviewArtifactSpec_of_unknown hunknown).symm.trans hspec
  · exact absurd hroles hdup
  · obtain ⟨artifact, hmem, hne⟩ := hother reviewId
    obtain ⟨name, contentType, hspec, hkey⟩ := hkeys artifact hmem
    exact absurd hkey (hne name contentType hspec)

end Shows

/-! ## The evaluation of a completed job -/

section Sample

/-- What every effect answers if nothing fails; a link is the key at an address. -/
def serveEvaluation : (e : EvaluationEffect ℚ) → EvaluationWorld ℚ → e.Answer × EvaluationWorld ℚ
  | .getJob id, w =>
    (match w.jobs id with
      | some job => if job.id = id then .ok job else .error .notFound
      | none => .error .notFound, w)
  | .getProject id owner, w =>
    (if w.projects id = some owner then .ok () else .error .notFound, w)
  | .listReviewArtifacts jobId, w => (.ok (w.reviewArtifacts jobId), w)
  | .read key maxBytes, w =>
    (match w.objects key with
      | some text => if text.size ≤ maxBytes then .ok text else .error (.failed "too large")
      | none => .error .notFound, w.access (.read key))
  | .presignDownload key _, w =>
    (if byteLength key ≤ 1024 then .ok ("https://storage.test/" ++ key)
      else .error (.failed "key too long"), w.access (.presign key))
  | .respond response, w => ((), { w with response := some response })

/-- The addresses of the signed links. -/
def sampleUrls : Set String :=
  {url | ∃ key, byteLength key ≤ 1024 ∧ url = "https://storage.test/" ++ key}

theorem serveEvaluation_step (e : EvaluationEffect ℚ) (w : EvaluationWorld ℚ) :
    w.Step sampleUrls e (serveEvaluation e w).1 (serveEvaluation e w).2 := by
  cases e with
  | getJob id =>
    cases h : w.jobs id with
    | none =>
      simp only [serveEvaluation, h]
      exact .noJob
    | some job =>
      simp only [serveEvaluation, h]
      split_ifs with hid
      · exact .job h hid
      · exact .noJob
  | getProject id owner =>
    by_cases h : w.projects id = some owner
    · simp only [serveEvaluation, if_pos h]
      exact .project h
    · simp only [serveEvaluation, if_neg h]
      exact .noProject
  | listReviewArtifacts => exact .artifacts
  | read key maxBytes =>
    cases h : w.objects key with
    | none =>
      simp only [serveEvaluation, h]
      exact .unread
    | some text =>
      simp only [serveEvaluation, h]
      split_ifs with hsize
      · exact .read h hsize
      · exact .unread
  | presignDownload key =>
    simp only [serveEvaluation]
    split_ifs with hkey
    · exact .presign ⟨key, hkey, rfl⟩
    · exact .unsigned
  | respond => exact .respond

/-- The created job after its completion. -/
def completedJob : StoredJob where
  id := sampleJob
  row := { queuedRow sampleProject BackendWorld.sampleJobConfig with state := .completed }
  configuration := BackendWorld.sampleJobConfig
  configurationHash := ""

def sampleEvaluationHandler : EvaluationHandler where
  owner := "development-owner"
  urlTtl := 900 * second
  urlTtl_pos := by decide
  parseUuid := Uuid.ofCanonical
  parseMediaType := some

/-- A linked file of the sample review. -/
def linkedFile (role name contentType : String) : Domain.ReviewArtifact where
  role := role
  asset := ⟨.debug, reviewStorageKey sampleProject sampleJob sampleReview name, .uploaded,
    contentType, 512⟩

/-- A manifest with a video of the framing. -/
def sampleManifest : Value ℚ :=
  .dict
    [("schema_version", .int 1), ("review_id", .str sampleReview.text),
      ("pipeline_version", .str "w0.2.7"), ("model_version", .str "yolo26"),
      ("timing", .dict [("frame_rate", .int 30), ("duration_ms", .int 1000),
        ("frame_count", .int 30)]),
      ("phases", .list
        [.dict [("id", .str "detection"), ("status", .str "unavailable"),
            ("detail", .str "encode_failed")],
          .dict [("id", .str "framing"), ("status", .str "ready"),
            ("summary", .dict [("frames", .int 30)]),
            ("warning_intervals", .list [.dict [("start_ms", .int 0), ("end_ms", .int 100),
              ("label", .str "Source/aspect limited")]])],
          .dict [("id", .str "render"), ("status", .str "ready")]]),
      ("telemetry", .dict [("status", .str "ready")])]

/-- The job with its review. -/
def sampleEvaluation : EvaluationWorld ℚ where
  jobs id := if id = sampleJob then some completedJob else none
  projects id := if id = sampleProject then some "development-owner" else none
  reviewArtifacts id := if id = sampleJob then
    [linkedFile "debug_manifest" "manifest.json" "application/json",
      linkedFile "debug_telemetry" "telemetry.jsonl.gz" "application/gzip",
      linkedFile "debug_framing" "framing.mp4" "video/mp4"] else []
  objects key := if key = reviewStorageKey sampleProject sampleJob sampleReview "manifest.json" then
    some ⟨some sampleManifest, 512, "application/json"⟩ else none
  accesses := []
  response := none

/-- The job after a request for its evaluation. -/
def sampleEvaluated : EvaluationWorld ℚ :=
  (evaluation sampleEvaluationHandler (some sampleJob)).after serveEvaluation sampleEvaluation

theorem sampleEvaluated_run : Prog.Run (evaluationSetting sampleUrls)
    (evaluation sampleEvaluationHandler (some sampleJob)) sampleEvaluation () sampleEvaluated := by
  obtain ⟨⟨⟩, hrun⟩ : ∃ u, Prog.Run (evaluationSetting sampleUrls)
      (evaluation sampleEvaluationHandler (some sampleJob)) sampleEvaluation u sampleEvaluated :=
    ⟨_, Prog.run_execute (fun _ => rfl) serveEvaluation_step _ _⟩
  exact hrun

/-- The request reads the manifest, signs two links, and shows the review. -/
theorem sampleEvaluated_answer : (sampleEvaluated.accesses.length, sampleEvaluated.response.elim false
    (EvaluationResponse.rec (·.available) fun _ => false)) = (3, true) := by decide +kernel

theorem evaluation_scoped_sample : sampleEvaluated.accesses.length = 3 ∧
    ∃ reviewId : Uuid, ∀ access ∈ sampleEvaluated.accesses, ∃ name, access.key =
      "private/debug/" ++ sampleProject.text ++ "/" ++ sampleJob.text ++ "/" ++ reviewId.text ++
        "/" ++ name := by
  have hlength : sampleEvaluated.accesses.length = 3 := (Prod.mk.inj sampleEvaluated_answer).1
  refine ⟨hlength, ?_⟩
  obtain h | ⟨id, job, reviewId, hid, hjob, -, -, -, hkeys⟩ :=
    (evaluation_scoped rfl sampleEvaluated_run).1
  · rw [h] at hlength
    cases hlength
  · obtain rfl := Option.some.inj hid
    obtain rfl : completedJob = job := Option.some.inj hjob
    refine ⟨reviewId, fun access haccess => ?_⟩
    obtain ⟨-, -, name, -, -, -, hkey⟩ := hkeys access haccess
    exact ⟨name, hkey⟩

end Sample

end BoulderFrame
