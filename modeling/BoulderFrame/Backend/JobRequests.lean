import BoulderFrame.Backend.CreateJob

/-!
# Requests for one job

However many requests ask for the same job, and whatever fails: one row is inserted, one entry is
published, and a request that is answered with the job finds it published. A row that is past the
queue was published before, as only a worker that has read its entry changes it; and a transaction
is committed only if the job's key has not been written since it was found unset.

## Main definitions

* `BackendWorld.Inv`: the invariant that links the table, the stream with its keys, and the responses
* `BackendWorld.Relies`: what the requests rely on

## Main results

* `BackendWorld.wp_createJob`: a request keeps the invariant
* `BackendWorld.entries_not_malformed`: the workers accept every published entry
* `BackendWorld.job_created_once`: one row, one entry, and no answer without it
-/

namespace BoulderFrame

open Prog (perform)
open BackendEffect

/-- The request asks for a job with the given configuration. -/
def CreateJobRequest.Asks (handler : Handler) (request : CreateJobRequest) (projectId : Uuid)
    (config : JobConfig) : Prop :=
  request.projectId = some projectId ∧ ∃ source selection output,
    request.body = some (source, selection, output) ∧
    newJobConfig source selection output handler.pipelineVersion handler.modelVersion
      handler.detectionSampleFps = .ok config

namespace BackendWorld

variable {ι : Type} {w w' w'' : BackendWorld ι} {handler : Handler} {requests : ι → CreateJobRequest}

/-- The row with the given id has the given key. -/
def Stored (id : Uuid) (key : Uuid × String) (w : BackendWorld ι) : Prop :=
  ∃ job ∈ w.jobs.rows, job.id = id ∧ job.key = key

/-- A request that is answered with a job asks for it, and it has been published. -/
def Answered (handler : Handler) (request : CreateJobRequest) (job : StoredJob)
    (w : BackendWorld ι) : Prop :=
  w.Published job.id ∧ ∃ projectId config, request.Asks handler projectId config ∧
    w.Stored job.id (projectId, handler.hash config)

/-- **The invariant.** -/
structure Inv (handler : Handler) (requests : ι → CreateJobRequest) (w : BackendWorld ι) :
    Prop where
  hashes : ∀ job ∈ w.jobs.rows, job.configurationHash = handler.hash job.configuration
  started : ∀ job ∈ w.jobs.rows, job.row.state ≠ .queued → w.Published job.id
  written : ∀ entry ∈ w.entries, ∃ id traceId : Uuid, entry = publishedEntry id.text traceId
  counts : ∀ taskId,
    w.entries.countP (·.taskId = taskId) = (w.index.value (indexKey taskId)).toList.length
  answered : ∀ i job, w.responses i = some (.created job) → Answered handler (requests i) job w

/-- What the requests rely on: rows keep their keys, entries are kept, and a key of the stream is
changed by writes only. -/
structure Relies (w w' : BackendWorld ι) : Prop where
  rows : ∀ job ∈ w.jobs.rows, ∃ job' ∈ w'.jobs.rows, job'.id = job.id ∧ job'.key = job.key
  entries : w.entries <+: w'.entries
  index : WatchedStore.Later w.index w'.index

theorem Relies.rfl : Relies w w :=
  ⟨fun job hjob => ⟨job, hjob, Eq.refl _, Eq.refl _⟩, List.prefix_rfl, .rfl⟩

theorem Relies.trans (h : Relies w w') (h' : Relies w' w'') : Relies w w'' where
  rows job hjob := by
    obtain ⟨job', hjob', hid, hkey⟩ := h.rows job hjob
    obtain ⟨job'', hjob'', hid', hkey'⟩ := h'.rows job' hjob'
    exact ⟨job'', hjob'', hid'.trans hid, hkey'.trans hkey⟩
  entries := h.entries.trans h'.entries
  index := h.index.trans h'.index

theorem Published.later {id : Uuid} (h : w.Published id) (hrely : Relies w w') :
    w'.Published id := by
  obtain ⟨entry, hentry, htype, htask⟩ := h
  exact ⟨entry, hrely.entries.subset hentry, htype, htask⟩

theorem Stored.later {id : Uuid} {key : Uuid × String} (h : w.Stored id key)
    (hrely : Relies w w') : w'.Stored id key := by
  obtain ⟨job, hjob, rfl, rfl⟩ := h
  obtain ⟨job', hjob', hid, hkey⟩ := hrely.rows job hjob
  exact ⟨job', hjob', hid, hkey⟩

theorem Answered.later {request : CreateJobRequest} {job : StoredJob}
    (h : Answered handler request job w) (hrely : Relies w w') :
    Answered handler request job w' := by
  obtain ⟨hpublished, projectId, config, hasks, hstored⟩ := h
  exact ⟨hpublished.later hrely, projectId, config, hasks, hstored.later hrely⟩

/-! ## What keeps the invariant -/

/-- **Rows** that are new, or have kept their configuration, keep the invariant if those past the
queue have been published. -/
theorem Inv.jobs (h : w.Inv handler requests) {jobs : JobTable}
    (hrely : Relies w { w with jobs := jobs })
    (hhashes : ∀ job ∈ jobs.rows, job.configurationHash = handler.hash job.configuration)
    (hstarted : ∀ job ∈ jobs.rows, job.row.state ≠ .queued → w.Published job.id) :
    Inv handler requests { w with jobs := jobs } where
  hashes := hhashes
  started := hstarted
  written := h.written
  counts := h.counts
  answered i job hresponse := (h.answered i job hresponse).later hrely

theorem relies_upsert {job : StoredJob} :
    Relies w { w with jobs := (w.jobs.createOrGet job).2 } := by
  refine ⟨fun old hold => ?_, List.prefix_rfl, .rfl⟩
  unfold JobTable.createOrGet
  cases hupsert : w.jobs.upsert job StoredJob.keep fun _ => true with
  | none => exact ⟨old, hold, rfl, rfl⟩
  | some result =>
    obtain ⟨jobs', out⟩ := result
    have hmem : old ∈ jobs'.rows := by
      obtain hmem | ⟨-, hmem⟩ := KeyedTable.mem_of_upsert hupsert hold
      · exact hmem
      · exact hmem
    cases out with
    | none => exact ⟨old, hmem, rfl, rfl⟩
    | some stored => exact ⟨old, hmem, rfl, rfl⟩

/-- What holds of every row and of the new one holds of every row then. -/
theorem forall_mem_createOrGet {P : StoredJob → Prop} {jobs : JobTable} {job : StoredJob}
    (hrows : ∀ stored ∈ jobs.rows, P stored) (hjob : P job) :
    ∀ stored ∈ (jobs.createOrGet job).2.rows, P stored := by
  unfold JobTable.createOrGet
  cases hupsert : jobs.upsert job StoredJob.keep fun _ => true with
  | none => exact hrows
  | some result =>
    obtain ⟨jobs', out⟩ := result
    have hall := KeyedTable.forall_mem_upsert hupsert hrows hjob fun _ hstored => hstored
    cases out with
    | none => exact hall
    | some stored => exact hall

/-- **The insertion** of a queued job with the hash of its configuration. -/
theorem Inv.createOrGet (h : w.Inv handler requests) {job : StoredJob}
    (hhash : job.configurationHash = handler.hash job.configuration)
    (hqueued : job.row.state = .queued) :
    Inv handler requests { w with jobs := (w.jobs.createOrGet job).2 } := by
  have hrows := forall_mem_createOrGet
    (P := fun stored => stored.configurationHash = handler.hash stored.configuration ∧
      (stored.row.state ≠ .queued → w.Published stored.id))
    (fun stored hstored => ⟨h.hashes stored hstored, h.started stored hstored⟩)
    ⟨hhash, fun hne => absurd hqueued hne⟩
  exact h.jobs relies_upsert (fun stored hstored => (hrows stored hstored).1)
    fun stored hstored => (hrows stored hstored).2

/-- The job that is created or found has the key, and is queued or has been published. -/
theorem createOrGet_ok (h : w.Inv handler requests) {job stored : StoredJob} {existing : Bool}
    (hqueued : job.row.state = .queued)
    (hok : (w.jobs.createOrGet job).1 = .ok (stored, existing)) :
    Stored stored.id job.key { w with jobs := (w.jobs.createOrGet job).2 } ∧
      (stored.row.state ≠ .queued → w.Published stored.id) := by
  unfold JobTable.createOrGet at hok ⊢
  cases hupsert : w.jobs.upsert job StoredJob.keep fun _ => true with
  | none =>
    rw [hupsert] at hok
    cases hok
  | some result =>
    obtain ⟨jobs', out⟩ := result
    cases out with
    | none =>
      rw [hupsert] at hok
      cases hok
    | some stored' =>
      rw [hupsert] at hok
      obtain ⟨rfl, -⟩ := Prod.mk.inj (Except.ok.inj hok)
      have hlookup := KeyedTable.lookup_eq_some.mp (KeyedTable.lookup_upsert_of_some hupsert)
      refine ⟨⟨stored', hlookup.1, rfl, hlookup.2⟩, fun hne => ?_⟩
      obtain ⟨old, hold, -, -, hout⟩ | ⟨_, -, -, -, hout⟩ | ⟨-, -, hout⟩ :=
        KeyedTable.upsert_cases hupsert
      · obtain rfl := Option.some.inj hout
        exact h.started _ (KeyedTable.lookup_eq_some.mp hold).1 hne
      · cases hout
      · obtain rfl := Option.some.inj hout
        exact absurd hqueued hne

theorem indexKey_injective : Function.Injective indexKey := fun _ _ h =>
  (String.append_right_inj _).mp h

theorem relies_commit {key value : String} {entry : StreamEntry} :
    Relies w (w.commit key entry value) :=
  ⟨fun job hjob => ⟨job, hjob, rfl, rfl⟩, List.prefix_append .., WatchedStore.later_write ..⟩

/-- A committed entry is published. -/
theorem published_commit {id traceId : Uuid} {key value : String} :
    (w.commit key (publishedEntry id.text traceId) value).Published id :=
  ⟨_, List.mem_append_right _ (List.mem_singleton_self _), rfl, rfl⟩

/-- **A transaction** whose key is unset adds the first entry of its job. -/
theorem Inv.commit (h : w.Inv handler requests) {id traceId : Uuid}
    (hunset : w.index.value (indexKey id.text) = none) :
    (w.commit (indexKey id.text) (publishedEntry id.text traceId) id.text).Inv handler requests where
  hashes := h.hashes
  started job hjob hne := (h.started job hjob hne).later relies_commit
  written entry hentry := by
    obtain hentry | hentry := List.mem_append.mp hentry
    · exact h.written entry hentry
    · exact ⟨id, traceId, List.mem_singleton.mp hentry⟩
  counts taskId := by
    simp only [BackendWorld.commit, List.countP_append, h.counts taskId]
    by_cases htask : taskId = id.text
    · subst htask
      rw [hunset, WatchedStore.value_write_self]
      simp [publishedEntry]
    · have hne : id.text ≠ taskId := fun heq => htask heq.symm
      rw [WatchedStore.value_write_of_ne (indexKey_injective.ne htask)]
      simp [publishedEntry, hne]
  answered i job hresponse := (h.answered i job hresponse).later relies_commit

/-- A key that is set has its entry. -/
theorem Inv.published (h : w.Inv handler requests) {id : Uuid} {value : String}
    (hset : w.index.value (indexKey id.text) = some value) : w.Published id := by
  have hcount := h.counts id.text
  rw [hset] at hcount
  have hpos : 0 < w.entries.countP (·.taskId = id.text) := by
    rw [hcount]
    exact Nat.one_pos
  obtain ⟨entry, hentry, htask⟩ := List.countP_pos_iff.mp hpos
  obtain ⟨id', traceId, rfl⟩ := h.written entry hentry
  exact ⟨_, hentry, rfl, of_decide_eq_true htask⟩

/-- **The rest of the system** keeps the invariant, and what the requests rely on. -/
theorem Env.relies (henv : w.Env w') : Relies w w' := by
  cases henv with
  | tables => exact ⟨fun job hjob => ⟨job, hjob, rfl, rfl⟩, List.prefix_rfl, .rfl⟩
  | @worker job row hjob hpublished =>
    refine ⟨fun old hold => ?_, List.prefix_rfl, .rfl⟩
    refine ⟨_, List.mem_map_of_mem hold, ?_⟩
    split_ifs
    · exact ⟨rfl, rfl⟩
    · exact ⟨rfl, rfl⟩

theorem Env.inv (henv : w.Env w') (h : w.Inv handler requests) : w'.Inv handler requests := by
  have hrely := Env.relies henv
  cases henv with
  | tables => exact ⟨h.hashes, h.started, h.written, h.counts, fun i job hresponse =>
      (h.answered i job hresponse).later hrely⟩
  | @worker job row hjob hpublished =>
    refine h.jobs hrely (fun stored hstored => ?_) fun stored hstored hne => ?_
    · obtain ⟨old, hold, rfl⟩ := List.mem_map.mp hstored
      split_ifs
      · exact h.hashes old hold
      · exact h.hashes old hold
    · obtain ⟨old, hold, rfl⟩ := List.mem_map.mp hstored
      split_ifs at hne ⊢ with hkey
      · -- the worker's own row
        have hjob' := KeyedTable.lookup_eq_some.mpr ⟨hjob, rfl⟩
        have hold' := KeyedTable.lookup_eq_some.mpr ⟨hold, hkey⟩
        obtain rfl := Option.some.inj (hjob'.symm.trans hold')
        exact hpublished
      · exact h.started old hold hne

/-! ## Requests -/

variable [DecidableEq ι] {i : ι}

/-- **A response** keeps the invariant, if a job that it has may be answered. -/
theorem Inv.respond (h : w.Inv handler requests) {response : Response}
    (hresponse : ∀ job, response = .created job → Answered handler (requests i) job w) :
    Inv handler requests { w with responses := Function.update w.responses i (some response) } where
  hashes := h.hashes
  started := h.started
  written := h.written
  counts := h.counts
  answered k job hk := by
    by_cases hki : k = i
    · subst hki
      simp only [Function.update_self] at hk
      exact hresponse job (Option.some.inj hk)
    · simp only [Function.update_of_ne hki] at hk
      exact h.answered k job hk

/-- An effect only reads. -/
def isRead : BackendEffect → Bool
  | .getProject .. | .getAsset _ | .watch _ | .get _ => true
  | _ => false

theorem Step.eq_of_read {e : BackendEffect} {a : e.Answer} (hstep : Step i w e a w')
    (he : isRead e) : w' = w := by
  cases hstep <;> first | rfl | cases he

/-- **An effect of a request** keeps what the others rely on. -/
theorem Step.relies {e : BackendEffect} {a : e.Answer} (hstep : Step i w e a w') : Relies w w' := by
  cases hstep with
  | createOrGet | createdLate => exact relies_upsert
  | commit | committedLate => exact relies_commit
  | respond => exact ⟨fun job hjob => ⟨job, hjob, rfl, rfl⟩, List.prefix_rfl, .rfl⟩
  | _ => exact .rfl

/-- What the requests rely on. -/
def discipline (handler : Handler) (requests : ι → CreateJobRequest) :
    Pool.Discipline ι (BackendWorld ι) where
  inv := Inv handler requests
  rely _ := Relies
  rely_refl _ _ := .rfl
  rely_trans _ _ _ _ := .trans
  fresh _ _ := True
  fresh_rely _ _ _ _ _ := trivial

/-- The setting of one request. -/
abbrev setting (handler : Handler) (requests : ι → CreateJobRequest) (i : ι) :
    Setting BackendEffect BackendEffect.Answer (BackendWorld ι) :=
  (discipline handler requests).setting (createRequests handler requests) i

section Request

variable {α : Type} {Q : α → BackendWorld ι → Prop}

/-- **An effect** is correct if it keeps the invariant. -/
theorem wp_effect {e : BackendEffect} {k : e.Answer → BackendProg α}
    (hinv : ∀ w₁ a w₂, Relies w w₁ → w₁.Inv handler requests → Step i w₁ e a w₂ →
      w₂.Inv handler requests ∧ (k a).wp (setting handler requests i) Q w₂) :
    (perform e >>= k).wp (setting handler requests i) Q w := by
  rintro w₁ ⟨hrely, hinv₁⟩ a w₂ hstep
  obtain ⟨hinv₂, hk⟩ := hinv w₁ a w₂ hrely hinv₁ hstep
  exact ⟨⟨hinv₂, fun _ _ => Step.relies hstep⟩, hk⟩

/-- **A read** changes nothing. -/
theorem wp_read {e : BackendEffect} {k : e.Answer → BackendProg α} (he : isRead e)
    (hQ : ∀ w₁ a, Relies w w₁ → w₁.Inv handler requests → Step i w₁ e a w₁ →
      (k a).wp (setting handler requests i) Q w₁) :
    (perform e >>= k).wp (setting handler requests i) Q w := by
  refine wp_effect fun w₁ a w₂ hrely hinv hstep => ?_
  obtain rfl := hstep.eq_of_read he
  exact ⟨hinv, hQ _ a hrely hinv hstep⟩

/-- **A response** that may be given. -/
theorem wp_respond {response : Response}
    (hresponse : ∀ w₁ job, Relies w w₁ → response = .created job →
      Answered handler (requests i) job w₁) :
    (perform (respond response) : BackendProg Unit).wp (setting handler requests i)
      (fun _ _ => True) w := by
  rintro w₁ ⟨hrely, hinv⟩ a w₂ hstep
  refine ⟨⟨?_, fun _ _ => Step.relies hstep⟩, trivial⟩
  cases hstep with
  | respond => exact hinv.respond fun job hjob => hresponse w₁ job hrely hjob

/-- An error may be answered always. -/
theorem wp_respond_error {status : ℕ} {code message : String} :
    (perform (respond (.error status code message)) : BackendProg Unit).wp
      (setting handler requests i) (fun _ _ => True) w :=
  wp_respond fun _ _ _ => nofun

theorem wp_respond_notFound {e : Option BackendError} :
    (perform (respond (notFound e)) : BackendProg Unit).wp (setting handler requests i)
      (fun _ _ => True) w := by
  refine wp_respond fun _ _ _ h => ?_
  match e with
  | none | some .notFound | some (.failed _) => cases h

/-- **A publication** that returns without an error has published the job. -/
theorem wp_publish {id traceId : Uuid} :
    (publish id.text traceId).wp (setting handler requests i)
      (fun result w => result = .ok () → w.Published id) w := by
  unfold publish
  split_ifs
  · exact nofun
  refine wp_read rfl fun w₁ a _ _ hwatch => ?_
  cases hwatch with
  | notWatched => exact nofun
  | watch =>
    refine wp_read rfl fun w₂ a hrely hinv hget => ?_
    cases hget with
    | notGot => exact nofun
    | get =>
      cases hvalue : w₂.index.value (indexKey id.text) with
      | some value => exact fun _ => hinv.published hvalue
      | none =>
        have hunset := WatchedStore.unsetAt_of_read (hrely.index.writes (indexKey id.text)) hvalue
        -- the transaction
        rintro w₃ ⟨hrely', hinv'⟩ a w₄ hexec
        have hunset' := hunset.later hrely'.index
        refine ⟨⟨?_, fun _ _ => Step.relies hexec⟩, ?_⟩
        · cases hexec with
          | commit h => exact hinv'.commit (hunset'.2 h)
          | committedLate h => exact hinv'.commit (hunset'.2 h)
          | notCommitted => exact hinv'
        · cases hexec with
          | commit => exact fun _ => published_commit
          | committedLate => exact nofun
          | notCommitted => exact nofun

/-- **The end of a request** answers with its job only if the job has been published. -/
theorem wp_createAndPublish {traceId projectId : Uuid} {config : JobConfig} {job : StoredJob}
    (hasks : (requests i).Asks handler projectId config)
    (hhash : job.configurationHash = handler.hash job.configuration)
    (hqueued : job.row.state = .queued) (hkey : job.key = (projectId, handler.hash config)) :
    (createAndPublish traceId job).wp (setting handler requests i) (fun _ _ => True) w := by
  unfold createAndPublish
  refine wp_effect fun w₁ a w₂ _ hinv hstep => ?_
  cases hstep with
  | notCreated => exact ⟨hinv, wp_respond_error⟩
  | createdLate => exact ⟨hinv.createOrGet hhash hqueued, wp_respond_error⟩
  | createOrGet =>
    refine ⟨hinv.createOrGet hhash hqueued, ?_⟩
    cases hok : (w₁.jobs.createOrGet job).1 with
    | error e => exact wp_respond_error
    | ok result =>
      obtain ⟨stored, existing⟩ := result
      obtain ⟨hstored, hstarted⟩ := createOrGet_ok hinv hqueued hok
      rw [hkey] at hstored
      simp only
      have hanswer : ∀ w₃, Stored stored.id (projectId, handler.hash config) w₃ →
          w₃.Published stored.id → (perform (respond (.created stored)) : BackendProg Unit).wp
            (setting handler requests i) (fun _ _ => True) w₃ := by
        intro w₃ hstored₃ hpublished₃
        refine wp_respond fun w₄ job' hrely hjob' => ?_
        obtain rfl : stored = job' := Response.created.inj hjob'
        exact ⟨hpublished₃.later hrely, projectId, config, hasks, hstored₃.later hrely⟩
      split_ifs with hpublish
      · refine Prog.wp_bind.mpr (Prog.wp_mono ?_ (Prog.wp_related
          (T := setting handler requests i) (fun _ => .rfl) (fun _ _ _ => .trans)
          (fun _ _ h => h.1) (fun _ _ _ _ => Step.relies) wp_publish))
        rintro (e | _) w₃ ⟨hpublished, hrely⟩
        · exact wp_respond_error
        · exact hanswer w₃ (hstored.later hrely) (hpublished rfl)
      · rw [not_or] at hpublish
        exact hanswer _ hstored (hstarted hpublish.2)

/-- **A request** keeps the invariant, whatever fails. -/
theorem wp_createJob {newId : Uuid} :
    (createJob handler (requests i) newId).wp (setting handler requests i) (fun _ _ => True) w := by
  unfold createJob
  cases hproject : (requests i).projectId with
  | none => exact wp_respond_error
  | some projectId =>
    refine wp_read rfl fun w₁ a _ _ _ => ?_
    obtain e | _ := a
    · exact wp_respond_notFound
    cases hbody : (requests i).body with
    | none => exact wp_respond_error
    | some body =>
      obtain ⟨sourceAssetId, selection, output⟩ := body
      refine wp_read rfl fun w₂ a _ _ hasset => ?_
      cases hasset with
      | noAsset => exact wp_respond_notFound
      | @asset _ asset _ hid =>
        subst hid
        simp only
        split_ifs
        · exact wp_respond_notFound
        · exact wp_respond_error
        · cases hconfig : newJobConfig asset.id selection output handler.pipelineVersion
              handler.modelVersion handler.detectionSampleFps with
          | error message => exact wp_respond_error
          | ok config =>
            have hasks : (requests i).Asks handler projectId config :=
              ⟨hproject, asset.id, selection, output, hbody, hconfig⟩
            exact wp_createAndPublish hasks rfl rfl rfl

end Request

/-! ## Reachable worlds -/

variable {c : Pool.Config ι BackendEffect BackendEffect.Answer Unit (BackendWorld ι)}

/-- Nothing has been created, published or answered. -/
structure Initial (w : BackendWorld ι) : Prop where
  jobs : w.jobs.rows = []
  entries : w.entries = []
  index : ∀ key, w.index.value key = none
  responses : ∀ i, w.responses i = none

omit [DecidableEq ι] in
theorem Initial.inv (h : w.Initial) : w.Inv handler requests where
  hashes job hjob := by
    rw [h.jobs] at hjob
    cases hjob
  started job hjob := by
    rw [h.jobs] at hjob
    cases hjob
  written entry hentry := by
    rw [h.entries] at hentry
    cases hentry
  counts taskId := by
    rw [h.entries, h.index]
    rfl
  answered i job hresponse := nomatch (h.responses i).symm.trans hresponse

/-- The invariant holds in every reachable world. -/
theorem reachable_inv (hw : w.Initial) (hc : (createRequests handler requests).Reachable w c) :
    c.shared.Inv handler requests := by
  have henv : ∀ w w', (discipline handler requests).inv w → (createRequests handler requests).env w w' →
      (discipline handler requests).inv w' ∧ ∀ i, (discipline handler requests).rely i w w' :=
    fun _ _ hinv henv => ⟨Env.inv henv hinv, fun _ => Env.relies henv⟩
  have hstart : ∀ i w p, (discipline handler requests).inv w → (discipline handler requests).fresh i w →
      (createRequests handler requests).start i w p →
      p.wp ((discipline handler requests).setting (createRequests handler requests) i)
        (fun _ _ => True) w := by
    rintro i w _ - - ⟨newId, rfl⟩
    exact wp_createJob
  exact ((discipline handler requests).sound henv hstart hw.inv (fun _ => trivial) hc).1

/-- The worker's functions read what the backend writes: the payload is the JSON text of an object,
and `UUID` accepts the texts of ids. -/
structure Reads (decoding : Decoding) : Prop where
  loads : ∀ id traceId : Uuid, decoding.loads (publishedEntry id.text traceId).payload =
    .ok (.object [("job_id", .string id.text), ("trace_id", .string traceId.text)])
  uuid : ∀ id : Uuid, decoding.uuid id.text = some id

/-- A published entry is well-formed: it decodes to a task of its job. -/
theorem publishedEntry_task {decoding : Decoding} {id traceId : Uuid}
    (h : Reads decoding) :
    (publishedEntry id.text traceId).task decoding = .ok ⟨id, traceId.text⟩ := by
  have htrace : traceId.text ≠ "" := by
    intro h
    have hlength := traceId.length_text
    rw [h] at hlength
    cases hlength
  have hfields : JobTask.fromPayload decoding (.object [("job_id", .string id.text),
      ("trace_id", .string traceId.text)]) = .ok ⟨id, traceId.text⟩ := by
    simp [JobTask.fromPayload, List.lookup_cons, htrace, h.uuid]
  unfold StreamEntry.task
  rw [h.loads]
  simp only [publishedEntry, h.uuid, hfields, ne_eq, not_true_eq_false, if_false,
    bind, Except.bind]

/-- **No entry of the backend is malformed**, so the workers acknowledge it only if its job does not
exist or has ended. -/
theorem entries_not_malformed (hw : w.Initial) (hc : (createRequests handler requests).Reachable w c)
    {decoding : Decoding} (h : Reads decoding) :
    ∀ entry ∈ c.shared.entries, ¬ Malformed decoding entry := by
  intro entry hentry hmalformed
  obtain ⟨id, traceId, rfl⟩ := (reachable_inv hw hc).written entry hentry
  obtain htype | ⟨e, htask⟩ := hmalformed
  · exact htype rfl
  · cases htask.symm.trans (publishedEntry_task h)

/-- **A job is created once.** However many requests ask for it, and whatever fails: there is at
most one row with its project and configuration, the stream has at most one entry for it, and if a
request is answered with a job, then that row exists, and its entry is in the stream. -/
theorem job_created_once (hw : w.Initial) (hc : (createRequests handler requests).Reachable w c)
    (projectId : Uuid) (config : JobConfig)
    (hhash : ∀ other, handler.hash other = handler.hash config → other = config) :
    (∀ job ∈ c.shared.jobs.rows, ∀ job' ∈ c.shared.jobs.rows,
      job.row.projectId = projectId → job.configuration = config →
      job'.row.projectId = projectId → job'.configuration = config → job = job') ∧
    (∀ job ∈ c.shared.jobs.rows, job.row.projectId = projectId → job.configuration = config →
      c.shared.entries.countP (·.taskId = job.id.text) ≤ 1) ∧
    ∀ i, (requests i).Asks handler projectId config → ∀ answer,
      c.shared.responses i = some (.created answer) →
      ∃ job ∈ c.shared.jobs.rows, job.row.projectId = projectId ∧ job.configuration = config ∧
        job.id = answer.id ∧ ∃ entry ∈ c.shared.entries,
          entry.taskType = taskProcessJob ∧ entry.taskId = job.id.text := by
  have hinv := reachable_inv hw hc
  refine ⟨fun job hjob job' hjob' hp hconfig hp' hconfig' => ?_, fun job _ _ _ => ?_,
    fun i hasks answer hanswer => ?_⟩
  · have hkey : job.key = job'.key := by
      rw [StoredJob.key, StoredJob.key, hp, hp', hinv.hashes job hjob, hinv.hashes job' hjob', hconfig,
        hconfig']
    exact List.inj_on_of_nodup_map c.shared.jobs.uniqueKey hjob hjob' hkey
  · rw [hinv.counts]
    cases c.shared.index.value (indexKey job.id.text) with
    | none => exact Nat.zero_le _
    | some value => exact le_rfl
  · obtain ⟨hpublished, projectId', config', hasks', job, hjob, hid, hkey⟩ :=
      hinv.answered i answer hanswer
    obtain ⟨hproject, source, selection, output, hbody, hconfig⟩ := hasks
    obtain ⟨hproject', source', selection', output', hbody', hconfig'⟩ := hasks'
    obtain rfl := Option.some.inj (hproject.symm.trans hproject')
    obtain ⟨rfl, rfl, rfl⟩ : source = source' ∧ selection = selection' ∧ output = output' := by
      simpa using hbody.symm.trans hbody'
    obtain rfl := Except.ok.inj (hconfig.symm.trans hconfig')
    obtain ⟨hp, hh⟩ := Prod.mk.inj hkey
    rw [hinv.hashes job hjob] at hh
    exact ⟨job, hjob, hp, hhash _ hh, hid, hid ▸ hpublished⟩

/-! ## A request for the created job -/

/-- What every effect answers if nothing fails. -/
def serve (i : ι) : (e : BackendEffect) → BackendWorld ι → e.Answer × BackendWorld ι
  | .getProject id owner, w =>
    (if w.projects id = some owner then .ok () else .error .notFound, w)
  | .getAsset id, w =>
    (match w.assets id with
      | some asset => if asset.id = id then .ok asset else .error .notFound
      | none => .error .notFound, w)
  | .createOrGetJob job, w =>
    ((w.jobs.createOrGet job).1, { w with jobs := (w.jobs.createOrGet job).2 })
  | .watch key, w => (.ok (w.index.writes key), w)
  | .get key, w => (.ok (w.index.value key), w)
  | .exec key watched entry value, w =>
    if w.index.writes key = watched then (.ok (), w.commit key entry value)
    else (.error (.failed "redis: transaction failed"), w)
  | .respond response, w =>
    ((), { w with responses := Function.update w.responses i (some response) })

theorem serve_step (i : ι) (e : BackendEffect) (w : BackendWorld ι) :
    Step i w e (serve i e w).1 (serve i e w).2 := by
  cases e with
  | getProject id owner =>
    by_cases h : w.projects id = some owner
    · simp only [serve, if_pos h]
      exact .project h
    · simp only [serve, if_neg h]
      exact .noProject
  | getAsset id =>
    cases h : w.assets id with
    | none =>
      simp only [serve, h]
      exact .noAsset
    | some asset =>
      simp only [serve, h]
      split_ifs with hid
      · exact .asset h hid
      · exact .noAsset
  | createOrGetJob => exact .createOrGet
  | watch => exact .watch
  | get => exact .get
  | exec key watched entry value =>
    by_cases h : w.index.writes key = watched
    · simp only [serve, if_pos h]
      exact .commit h
    · simp only [serve, if_neg h]
      exact .notCommitted
  | respond => exact .respond

/-- The configuration of the created job. -/
def sampleJobConfig : JobConfig where
  sourceAssetId := sampleSource.id
  targetSelection := ⟨1000, 0.5, 0.5⟩
  output := ⟨"9:16", "balanced"⟩
  pipelineVersion := "w0.2.7"
  modelVersion := "yolo26"
  planner := ⟨"lookahead-v2", "deterministic-v3", "scipy-highs-ds", "full_shot",
    "sampled_detections", 0.00000001, 10, 0.05, 0.02, 0.01, 0.004, 0.5, 1.0, 0.25, 0.5, 0.05⟩

/-- The hash of that configuration is the digest of its JSON text. -/
def sampleHandler : Handler where
  owner := "development-owner"
  pipelineVersion := "w0.2.7"
  modelVersion := "yolo26"
  detectionSampleFps := 10
  hash config := if config = sampleJobConfig then
    "fbf0c255b806f6f3411f856eb7583a51348f71aba30d491892084c4186e79fdb" else ""

def sampleRequest : CreateJobRequest where
  projectId := some sampleProject
  body := some (sampleSource.id, ⟨1000, 0.5, 0.5⟩, ⟨"9:16", "balanced"⟩)
  traceId := sampleProject

/-- The project with its uploaded source. -/
def sample : BackendWorld ℕ where
  projects id := if id = sampleProject then some "development-owner" else none
  assets id := if id = sampleSource.id then some sampleSource else none
  jobs := ⟨[], List.nodup_nil, List.nodup_nil⟩
  entries := []
  index := ⟨fun _ => none, fun _ => 0⟩
  responses _ := none

/-- The id that the second request would insert. -/
def sampleSecondJob : Uuid := ⟨"5c9d8d2e-6b0f-4a3b-9f3c-1e2d3c4b5a69", by decide⟩

/-- The first request has inserted the job, and watches its key. -/
def sampleInserted : BackendProg Unit × BackendWorld ℕ :=
  (createJob sampleHandler sampleRequest sampleJob).advance (serve 0) 4 sample

/-- The second request for the job is answered before the first one goes on. -/
def sampleCreated : BackendWorld ℕ :=
  (sampleInserted.1.advance (serve 0) 10
    ((createJob sampleHandler sampleRequest sampleSecondJob).advance (serve 1) 10
      sampleInserted.2).2).2

theorem sampleCreated_reachable :
    ∃ c, (createRequests sampleHandler fun _ : ℕ => sampleRequest).Reachable sample c ∧
      c.shared = sampleCreated := by
  have hstart : ∀ newId i w, (createRequests sampleHandler fun _ : ℕ => sampleRequest).start i w
      (createJob sampleHandler sampleRequest newId) := fun newId _ _ => ⟨newId, rfl⟩
  exact Pool.Reachable.overtaken Nat.zero_ne_one (serve_step 0) (serve_step 1)
    (hstart sampleJob 0 sample) (hstart sampleSecondJob 1 sampleInserted.2) 4 10 10 .tables

/-- Both requests are answered with the job that the first one has inserted, which is in the table,
and in the stream once. -/
theorem job_created_once_sample :
    (∀ i ∈ [0, 1], sampleCreated.responses i = some (.created ⟨sampleJob,
      queuedRow sampleProject sampleJobConfig, sampleJobConfig,
      sampleHandler.hash sampleJobConfig⟩)) ∧
    (∀ job ∈ sampleCreated.jobs.rows, ∀ job' ∈ sampleCreated.jobs.rows,
      job.row.projectId = sampleProject → job.configuration = sampleJobConfig →
      job'.row.projectId = sampleProject → job'.configuration = sampleJobConfig → job = job') ∧
    (∀ job ∈ sampleCreated.jobs.rows, job.row.projectId = sampleProject →
      job.configuration = sampleJobConfig →
      sampleCreated.entries.countP (·.taskId = job.id.text) ≤ 1) ∧
    ∀ i, sampleRequest.Asks sampleHandler sampleProject sampleJobConfig → ∀ answer,
      sampleCreated.responses i = some (.created answer) →
      ∃ job ∈ sampleCreated.jobs.rows, job.row.projectId = sampleProject ∧
        job.configuration = sampleJobConfig ∧ job.id = answer.id ∧
        ∃ entry ∈ sampleCreated.entries,
          entry.taskType = taskProcessJob ∧ entry.taskId = job.id.text := by
  have hinitial : sample.Initial := ⟨rfl, rfl, fun _ => rfl, fun _ => rfl⟩
  have hhash : ∀ other, sampleHandler.hash other = sampleHandler.hash sampleJobConfig →
      other = sampleJobConfig := by
    intro other hother
    by_contra hne
    simp only [sampleHandler, if_neg hne, if_true] at hother
    exact absurd hother (by decide)
  obtain ⟨c, hc, hshared⟩ := sampleCreated_reachable
  refine ⟨by decide +kernel, ?_⟩
  rw [← hshared]
  exact job_created_once hinitial hc sampleProject sampleJobConfig hhash

end BackendWorld

end BoulderFrame
