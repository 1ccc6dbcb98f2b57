import BoulderFrame.Backend.EvaluationScope
import Mathlib.Algebra.Order.BigOperators.Group.List
import Mathlib.Algebra.Order.Floor.Ring

/-!
# The evaluation in the web client

The client checks every answer of the backend by rules of its own before it shows any of it. Every
evaluation that the backend sends passes them, and the client sees what was sent.

## Main definitions

* `Evaluation.toJson`: the JSON value of an answer
* `parseEvaluation`: the parser of the client
* `Evaluation.seen`: what the client is to see of an answer

## Main results

* `parseEvaluation_toJson`: an answer that shows an accepted manifest is seen as it was sent
* `evaluation_seen`: every answer of the handler is
-/

namespace BoulderFrame

open Domain

variable {K : Type}

/-! ## The answer as JSON -/

/-- A text, unless it is empty. -/
def nonEmpty (text : String) : Option String := if text = "" then none else some text

namespace Domain

def EvaluationTiming.toJson (timing : EvaluationTiming K) : Value K :=
  .dict [("frame_rate", .number timing.frameRate), ("duration_ms", .int timing.durationMs),
    ("frame_count", .int timing.frameCount)]

def WarningInterval.toJson (interval : WarningInterval) : Value K :=
  .dict (Value.omitEmpty
    [("start_ms", some (.int interval.startMs)), ("end_ms", interval.endMs.map .int),
      ("label", some (.str interval.label)), ("detail", (nonEmpty interval.detail).map .str)])

def EvaluationPhase.toJson (phase : EvaluationPhase K) : Value K :=
  .dict (Value.omitEmpty
    [("id", some (.str phase.id)), ("label", some (.str phase.label)),
      ("status", some (.str phase.status)), ("detail", (nonEmpty phase.detail).map .str),
      ("summary", if phase.summary = [] then none else some (.dict phase.summary)),
      ("warning_intervals", if phase.warningIntervals = [] then none
        else some (.list (phase.warningIntervals.map (·.toJson)))),
      ("video_url", (nonEmpty phase.videoUrl).map .str)])

def Evaluation.toJson (body : Evaluation K) : Value K :=
  .dict (Value.omitEmpty
    [("available", some (.bool body.available)), ("review_id", (nonEmpty body.reviewId).map .str),
      ("state", (nonEmpty body.state).map .str),
      ("pipeline_version", (nonEmpty body.pipelineVersion).map .str),
      ("model_version", (nonEmpty body.modelVersion).map .str),
      ("timing", body.timing.map (·.toJson)),
      ("phases", if body.phases = [] then none else some (.list (body.phases.map (·.toJson)))),
      ("telemetry_download_url", (nonEmpty body.telemetryDownloadUrl).map .str),
      ("expires_in_seconds", if body.expiresInSeconds = 0 then none
        else some (.int body.expiresInSeconds))])

end Domain

/-! ## The client -/

structure ClientInterval (K : Type) where
  startMs : K
  endMs : Option K
  label : String
  detail : Option String

structure ClientPhase (K : Type) where
  id : String
  label : String
  status : String
  summary : Option (List (String × Value K))
  detail : Option String
  videoUrl : Option String
  warningIntervals : Option (List (ClientInterval K))

structure ClientTiming (K : Type) where
  frameRate : K
  durationMs : K
  frameCount : K

/-- `Evaluation`, whose fields may be missing. -/
structure ClientEvaluation (K : Type) where
  available : Bool
  reviewId : Option String
  state : Option String
  pipelineVersion : Option String
  modelVersion : Option String
  timing : Option (ClientTiming K)
  phases : Option (List (ClientPhase K))
  telemetryDownloadUrl : Option String
  expiresInSeconds : Option K

structure ApiError where
  message : String
  status : ℕ
  code : String

def maxEvaluationDetailCharacters : ℕ := 500

def evaluationPhaseIds : List String := ["detection", "framing", "render"]

def evaluationPhaseLabels : List String := ["Detection", "Framing", "Render"]

def evaluationPhaseStatuses : List String := ["ready", "partial", "unavailable", "warning"]

/-- `length`, in code units of UTF-16. -/
def utf16Length (text : String) : ℕ :=
  (text.toList.map fun c => if c.toNat < 0x10000 then 1 else 2).sum

/-- `isBoundedText` -/
def boundedText (maximum : ℕ) : Value K → Option String
  | .str text => if text ≠ "" ∧ utf16Length text ≤ maximum then some text else none
  | _ => none

/-- `isVersionIdentifier`, with the pattern of the backend. -/
def clientVersion : Value K → Option String
  | .str text => if versionIdentifier text then some text else none
  | _ => none

/-- `isSafeURL`, with the protocol that `URL` finds in a text. -/
def safeUrl (protocol : String → Option String) (v : Value K) : Option String :=
  (boundedText (16 * 1024) v).filter fun text =>
    protocol text == some "https:" || protocol text == some "http:"

/-- A hexadecimal digit of either case. -/
def isAnyHexDigit (c : Char) : Bool := isHexDigit c.toLower

/-- The pattern of a review id. -/
def matchesReviewId (text : List Char) : Bool :=
  text.length == 36 && text.zipIdx.all fun (c, i) =>
    if i ∈ [8, 13, 18, 23] then c == '-'
    else if i = 14 then c ∈ ['1', '2', '3', '4', '5']
    else if i = 19 then c.toLower ∈ ['8', '9', 'a', 'b']
    else isAnyHexDigit c

/-- A field that may be missing, but is checked if it is there. -/
def optionalField {α : Type} (v : Option (Value K)) (check : Value K → Option α) :
    Option (Option α) :=
  match v with
  | none => some none
  | some v => (check v).map some

/-- A value of a summary. -/
def clientSummaryValue : Value K → Bool
  | .str text => decide (text ≠ "") && decide (utf16Length text ≤ maxEvaluationDetailCharacters)
  | .int _ => true
  | .float (.finite _) => true
  | .bool _ => true
  | .none => true
  | _ => false

/-- `isSummary` -/
def clientSummary : Value K → Option (List (String × Value K))
  | .dict fields =>
    if fields.length ≤ 32 ∧
        (fields.all fun f => summaryFieldName f.1 && clientSummaryValue f.2) then some fields
    else none
  | _ => none

section Client

variable [Field K] [LinearOrder K] [FloorRing K]

/-- A number that is an integer. -/
def integer (v : Value K) : Option K := v.toNumber.filter fun x => decide (x = ⌊x⌋)

/-- One element of `isWarningIntervals`. -/
def clientInterval (durationMs : K) (v : Value K) : Option (ClientInterval K) :=
  match v with
  | .dict _ => do
    let startMs ← (integer (v.get "start_ms")).filter fun x => decide (0 ≤ x ∧ x ≤ durationMs)
    let endMs ← optionalField (v.field "end_ms") fun v =>
      (integer v).filter fun x => decide (startMs ≤ x ∧ x ≤ durationMs)
    let label ← boundedText 120 (v.get "label")
    let detail ← optionalField (v.field "detail") (boundedText maxEvaluationDetailCharacters)
    some ⟨startMs, endMs, label, detail⟩
  | _ => none

/-- `isWarningIntervals` -/
def clientIntervals (durationMs : K) : Value K → Option (List (ClientInterval K))
  | .list intervals =>
    if 100 < intervals.length then none else intervals.mapM (clientInterval durationMs)
  | _ => none

/-- `isEvaluationTiming` -/
def clientTiming (v : Value K) : Option (ClientTiming K) :=
  match v with
  | .dict _ => do
    let frameRate ← (v.get "frame_rate").toNumber.filter fun x => decide (0 < x ∧ x ≤ 1000)
    let durationMs ← (integer (v.get "duration_ms")).filter fun x =>
      decide (0 < x ∧ x ≤ 604800000)
    let frameCount ← (integer (v.get "frame_count")).filter fun x =>
      decide (0 < x ∧ x ≤ 10000000)
    some ⟨frameRate, durationMs, frameCount⟩
  | _ => none

/-- One iteration of the loop over the phases. -/
def clientPhase (protocol : String → Option String) (durationMs : K) (id label : String)
    (v : Value K) : Option (ClientPhase K) :=
  match v, v.get "status" with
  | .dict _, .str status => do
    let summary ← optionalField (v.field "summary") clientSummary
    let intervals ← optionalField (v.field "warning_intervals") (clientIntervals durationMs)
    let videoUrl ← optionalField (v.field "video_url") (safeUrl protocol)
    let detail ← optionalField (v.field "detail") (boundedText maxEvaluationDetailCharacters)
    if (v.get "id").isText id = false ∨ (v.get "label").isText label = false ∨
        status ∉ evaluationPhaseStatuses ∨ (detail.isSome ∧ status ≠ "unavailable") ∨
        (status = "unavailable" ∧ videoUrl.isSome) ∨
        (status ≠ "unavailable" ∧ videoUrl.isNone) then none
    else some ⟨id, label, status, summary, detail, videoUrl, intervals⟩
  | _, _ => none

/-- The phases, which have the expected ids and labels in order. -/
def clientPhases (protocol : String → Option String) (durationMs : K) :
    Value K → Option (List (ClientPhase K))
  | .list phases =>
    if phases.length ≠ evaluationPhaseIds.length then none
    else ((evaluationPhaseIds.zip evaluationPhaseLabels).zip phases).mapM fun (expected, phase) =>
      clientPhase protocol durationMs expected.1 expected.2 phase
  | _ => none

/-- The fields of an available evaluation. -/
def clientReview (protocol : String → Option String) (v : Value K)
    (telemetryDownloadUrl : Option String) (expiresInSeconds : Option K) :
    Option (ClientEvaluation K) :=
  match v.get "review_id", v.get "state" with
  | .str reviewId, .str state => do
    let pipelineVersion ← clientVersion (v.get "pipeline_version")
    let modelVersion ← clientVersion (v.get "model_version")
    let timing ← clientTiming (v.get "timing")
    let phases ← clientPhases protocol timing.durationMs (v.get "phases")
    if matchesReviewId reviewId.toList = false ∨ state ∉ ["completed", "failed"] then none
    else some ⟨true, some reviewId, some state, some pipelineVersion, some modelVersion, some timing,
      some phases, telemetryDownloadUrl, expiresInSeconds⟩
  | _, _ => none

/-- The checked evaluation, if it is valid. -/
def checkedEvaluation (protocol : String → Option String) (v : Value K) :
    Option (ClientEvaluation K) :=
  match v.get "available" with
  | .bool available => do
    let telemetryDownloadUrl ←
      optionalField (v.field "telemetry_download_url") (safeUrl protocol)
    let expiresInSeconds ← optionalField (v.field "expires_in_seconds") fun v =>
      (integer v).filter fun x => decide (0 < x)
    if available = false then
      some ⟨false, none, none, none, none, none, none, telemetryDownloadUrl, expiresInSeconds⟩
    else clientReview protocol v telemetryDownloadUrl expiresInSeconds
  | _ => none

/-- `parseEvaluation` -/
def parseEvaluation (protocol : String → Option String) (v : Value K) :
    Except ApiError (ClientEvaluation K) :=
  match checkedEvaluation protocol v with
  | some evaluation => .ok evaluation
  | none => .error ⟨"The review response was invalid. Refresh the review or try again later.", 200,
      "invalid_evaluation_response"⟩

end Client

/-! ## What the client sees -/

section Seen

variable [IntCast K]

def Domain.WarningInterval.seen (interval : WarningInterval) : ClientInterval K :=
  ⟨interval.startMs, interval.endMs.map (↑), interval.label, nonEmpty interval.detail⟩

def Domain.EvaluationPhase.seen (phase : EvaluationPhase K) : ClientPhase K :=
  ⟨phase.id, phase.label, phase.status, if phase.summary = [] then none else some phase.summary,
    nonEmpty phase.detail, nonEmpty phase.videoUrl,
    if phase.warningIntervals = [] then none else some (phase.warningIntervals.map (·.seen))⟩

def Domain.EvaluationTiming.seen (timing : EvaluationTiming K) : ClientTiming K :=
  ⟨timing.frameRate, timing.durationMs, timing.frameCount⟩

/-- What the client is to see of an answer. -/
def Domain.Evaluation.seen (body : Evaluation K) : ClientEvaluation K :=
  let expires : Option K :=
    if body.expiresInSeconds = 0 then none else some body.expiresInSeconds
  if body.available then
    ⟨true, some body.reviewId, some body.state, some body.pipelineVersion, some body.modelVersion,
      body.timing.map (·.seen), some (body.phases.map (·.seen)), nonEmpty body.telemetryDownloadUrl,
      expires⟩
  else
    ⟨false, none, none, none, none, none, none, nonEmpty body.telemetryDownloadUrl, expires⟩

end Seen

/-! ## Texts and numbers -/

theorem utf16Length_le_byteLength (text : String) : utf16Length text ≤ byteLength text := by
  refine List.sum_le_sum fun c _ => ?_
  have hpos := c.utf8Size_pos
  split_ifs with hc
  · exact hpos
  · have hlarge : 0x10000 ≤ c.val.toNat := not_lt.mp hc
    unfold Char.utf8Size
    dsimp only
    split_ifs with h₁ h₂ h₃
    · exact absurd (UInt32.le_iff_toNat_le.mp h₁) (by simp; omega)
    · exact le_rfl
    · omega
    · omega

section Texts

variable {maximum : ℕ} {text : String} {α : Type}

theorem boundedText_str (hne : text ≠ "") (hlength : byteLength text ≤ maximum) :
    boundedText maximum (.str text : Value K) = some text :=
  if_pos ⟨hne, (utf16Length_le_byteLength text).trans hlength⟩

theorem optionalField_some (v : Value K) (check : Value K → Option α) :
    optionalField (some v) check = (check v).map some := rfl

/-- An optional text passes its check. -/
theorem optionalField_nonEmpty {check : Value K → Option String}
    (h : text ≠ "" → check (.str text) = some text) :
    optionalField ((nonEmpty text).map .str) check = some (nonEmpty text) := by
  unfold nonEmpty
  split_ifs with hempty
  · rfl
  · rw [Option.map_some, optionalField_some, h hempty]
    rfl

theorem nonEmpty_of_ne (h : text ≠ "") : nonEmpty text = some text := if_neg h

end Texts

section Seen

variable [Field K] [LinearOrder K] [IsStrictOrderedRing K] [FloorRing K]

theorem integer_int (n : ℤ) : integer (.int n : Value K) = some (n : K) := by
  have hfloor : decide ((n : K) = ⌊(n : K)⌋) = true := decide_eq_true (by rw [Int.floor_intCast])
  exact Option.filter_some_pos hfloor

/-- An integer passes a test of its number. -/
theorem filter_integer {n : ℤ} {test : K → Bool} (h : test n = true) :
    (integer (.int n : Value K)).filter test = some (n : K) := by
  rw [integer_int]
  exact Option.filter_some_pos h

/-! ## The parts of an answer -/

theorem clientInterval_toJson {interval : WarningInterval} {durationMs : ℤ}
    (h : interval.Valid durationMs) :
    clientInterval (durationMs : K) (interval.toJson : Value K) = some interval.seen := by
  have hfield : ∀ key, (interval.toJson : Value K).field key = (List.lookup key
      [("start_ms", some (.int interval.startMs)), ("end_ms", interval.endMs.map .int),
        ("label", some (.str interval.label)),
        ("detail", (nonEmpty interval.detail).map .str)]).join :=
    Value.lookup_omitEmpty (by decide : ["start_ms", "end_ms", "label", "detail"].Nodup)
  have hstart : (interval.toJson : Value K).get "start_ms" = .int interval.startMs := by
    rw [Value.get, hfield]
    rfl
  have hlabel : (interval.toJson : Value K).get "label" = .str interval.label := by
    rw [Value.get, hfield]
    rfl
  have hend : (interval.toJson : Value K).field "end_ms" = interval.endMs.map .int := hfield _
  have hdetail : (interval.toJson : Value K).field "detail" = (nonEmpty interval.detail).map .str :=
    hfield _
  have hstartBounds : decide ((0 : K) ≤ interval.startMs ∧ (interval.startMs : K) ≤ durationMs) =
      true :=
    decide_eq_true ⟨by exact_mod_cast h.start_nonneg, by exact_mod_cast h.start_le⟩
  have hends : optionalField (interval.endMs.map (.int : ℤ → Value K)) (fun v =>
      (integer v).filter fun x => decide ((interval.startMs : K) ≤ x ∧ x ≤ durationMs)) =
        some (interval.endMs.map (↑)) := by
    cases hsome : interval.endMs with
    | none => rfl
    | some endMs =>
      obtain ⟨hle, hduration⟩ := h.end_bounds endMs hsome
      have hbounds : decide ((interval.startMs : K) ≤ endMs ∧ (endMs : K) ≤ durationMs) = true :=
        decide_eq_true ⟨by exact_mod_cast hle, by exact_mod_cast hduration⟩
      rw [Option.map_some, optionalField_some, filter_integer hbounds]
      rfl
  have hdetailRead : optionalField ((nonEmpty interval.detail).map (.str : String → Value K))
      (boundedText maxEvaluationDetailCharacters) = some (nonEmpty interval.detail) :=
    optionalField_nonEmpty fun hne => boundedText_str hne (h.detail_length hne)
  change (do
    let startMs ← (integer ((interval.toJson : Value K).get "start_ms")).filter fun x =>
      decide (0 ≤ x ∧ x ≤ (durationMs : K))
    let endMs ← optionalField ((interval.toJson : Value K).field "end_ms") fun v =>
      (integer v).filter fun x => decide (startMs ≤ x ∧ x ≤ durationMs)
    let label ← boundedText 120 ((interval.toJson : Value K).get "label")
    let detail ← optionalField ((interval.toJson : Value K).field "detail")
      (boundedText maxEvaluationDetailCharacters)
    some (⟨startMs, endMs, label, detail⟩ : ClientInterval K)) = _
  rw [hstart, hend, hlabel, hdetail, filter_integer hstartBounds, Option.bind_eq_bind,
    Option.bind_some, hends, Option.bind_eq_bind, Option.bind_some,
    boundedText_str h.label_length.1 h.label_length.2, Option.bind_eq_bind, Option.bind_some,
    hdetailRead]
  rfl

theorem clientIntervals_toJson {intervals : List WarningInterval} {durationMs : ℤ}
    (hlength : intervals.length ≤ 100) (h : ∀ interval ∈ intervals, interval.Valid durationMs) :
    clientIntervals (durationMs : K) (.list (intervals.map (·.toJson))) =
      some (intervals.map (·.seen)) := by
  have hshort : ¬ 100 < (intervals.map (WarningInterval.toJson (K := K))).length := by
    rw [List.length_map]
    exact hlength.not_gt
  rw [clientIntervals, if_neg hshort, Option.mapM_eq_some, List.forall₂_map_left_iff,
    List.forall₂_map_right_iff]
  exact List.forall₂_same.mpr fun interval hmem => clientInterval_toJson (h interval hmem)

omit [Field K] [LinearOrder K] [IsStrictOrderedRing K] [FloorRing K] in
theorem clientSummary_dict {summary : List (String × Value K)} (h : validSummary summary = true) :
    clientSummary (.dict summary) = some summary := by
  simp only [validSummary, Bool.and_eq_true, decide_eq_true_eq, List.all_eq_true] at h
  refine if_pos ⟨h.1, List.all_eq_true.mpr fun f hf => ?_⟩
  obtain ⟨⟨hname, -⟩, hvalue⟩ := h.2 f hf
  rw [Bool.and_eq_true]
  refine ⟨hname, ?_⟩
  obtain ⟨key, v⟩ := f
  match v with
  | .str text =>
    obtain ⟨hne, hlength⟩ := safeManifestText_length hvalue
    rw [clientSummaryValue, Bool.and_eq_true]
    exact ⟨decide_eq_true hne,
      decide_eq_true ((utf16Length_le_byteLength text).trans hlength)⟩
  | .bool _ | .float (.finite _) | .none => rfl

/-- All signed links are addresses that the client opens. -/
def SafeUrls (protocol : String → Option String) (urls : Set String) : Prop :=
  ∀ url ∈ urls, url ≠ "" ∧ byteLength url ≤ 16 * 1024 ∧
    (protocol url = some "https:" ∨ protocol url = some "http:")

omit [Field K] [LinearOrder K] [IsStrictOrderedRing K] [FloorRing K] in
theorem safeUrl_str {protocol : String → Option String} {urls : Set String}
    (h : SafeUrls protocol urls) {url : String} (hurl : url ∈ urls) :
    safeUrl protocol (.str url : Value K) = some url := by
  obtain ⟨hne, hlength, hprotocol⟩ := h url hurl
  rw [safeUrl, boundedText_str hne hlength]
  refine Option.filter_some_pos ?_
  rw [Bool.or_eq_true, beq_iff_eq, beq_iff_eq]
  exact hprotocol

theorem clientPhase_toJson {protocol : String → Option String} {urls : Set String}
    (hurls : SafeUrls protocol urls) {durationMs : ℤ} {phase : ManifestPhase K}
    (hvalid : phase.Valid durationMs) {shown : EvaluationPhase K}
    (hshown : EvaluationPhase.Shows urls phase shown) :
    clientPhase protocol (durationMs : K) phase.id (reviewPhaseLabel phase.id) shown.toJson =
      some shown.seen := by
  have hfield : ∀ key, shown.toJson.field key = (List.lookup key
      [("id", some (.str shown.id)), ("label", some (.str shown.label)),
        ("status", some (.str shown.status)), ("detail", (nonEmpty shown.detail).map .str),
        ("summary", if shown.summary = [] then none else some (.dict shown.summary)),
        ("warning_intervals", if shown.warningIntervals = [] then none
          else some (.list (shown.warningIntervals.map (·.toJson)))),
        ("video_url", (nonEmpty shown.videoUrl).map .str)]).join :=
    Value.lookup_omitEmpty (by decide : ["id", "label", "status", "detail", "summary",
      "warning_intervals", "video_url"].Nodup)
  have hid : shown.toJson.get "id" = .str shown.id := by
    rw [Value.get, hfield]
    rfl
  have hlabel : shown.toJson.get "label" = .str shown.label := by
    rw [Value.get, hfield]
    rfl
  have hstatus : shown.toJson.get "status" = .str shown.status := by
    rw [Value.get, hfield]
    rfl
  have hsummary : optionalField (shown.toJson.field "summary") clientSummary =
      some (if shown.summary = [] then none else some shown.summary) := by
    rw [hfield]
    change optionalField (if shown.summary = [] then none else some (.dict shown.summary)) _ = _
    split_ifs
    · rfl
    · rw [optionalField_some, hshown.summary, clientSummary_dict hvalid.summary]
      rfl
  have hintervals : optionalField (shown.toJson.field "warning_intervals")
      (clientIntervals (durationMs : K)) = some (if shown.warningIntervals = [] then none
        else some (shown.warningIntervals.map (·.seen))) := by
    rw [hfield]
    change optionalField (if shown.warningIntervals = [] then none
      else some (.list (shown.warningIntervals.map (·.toJson)))) _ = _
    split_ifs
    · rfl
    · rw [optionalField_some, hshown.warningIntervals,
        clientIntervals_toJson hvalid.intervals_length hvalid.intervals]
      rfl
  have hvideo : optionalField (shown.toJson.field "video_url") (safeUrl protocol) =
      some (nonEmpty shown.videoUrl) := by
    rw [hfield]
    refine optionalField_nonEmpty fun hne => safeUrl_str hurls (hshown.videoUrl fun hstatus => ?_)
    exact hne (hshown.unavailable hstatus)
  have hdetail : optionalField (shown.toJson.field "detail")
      (boundedText maxEvaluationDetailCharacters) = some (nonEmpty shown.detail) := by
    rw [hfield]
    refine optionalField_nonEmpty fun hne => boundedText_str hne ?_
    rw [hshown.detail] at hne ⊢
    exact (hvalid.detail hne).2
  obtain ⟨fields, hfields⟩ : ∃ fields, shown.toJson = .dict fields := ⟨_, rfl⟩
  rw [hfields] at hid hlabel hstatus hsummary hintervals hvideo hdetail
  -- a text is sent only where the client expects one
  have hunavailable : (nonEmpty shown.detail).isSome → shown.status = "unavailable" := by
    intro hsome
    have hne : shown.detail ≠ "" := by
      intro hempty
      rw [nonEmpty, if_pos hempty] at hsome
      cases hsome
    rw [hshown.detail] at hne
    obtain h | h := hshown.status
    · exact h.trans (hvalid.detail hne).1
    · exact h
  have hknown : shown.status ∈ evaluationPhaseStatuses := by
    obtain h | h := hshown.status
    · have hphase := hvalid.status
      simp only [validPhaseStatus, Bool.or_eq_true, beq_iff_eq] at hphase
      rw [h, evaluationPhaseStatuses]
      simp only [List.mem_cons, List.not_mem_nil, or_false]
      tauto
    · rw [h]
      decide
  have hclosed : shown.status = "unavailable" → (nonEmpty shown.videoUrl).isSome = false := by
    intro h
    rw [hshown.unavailable h]
    rfl
  have hopen : shown.status ≠ "unavailable" → (nonEmpty shown.videoUrl).isNone = false := by
    intro h
    rw [nonEmpty_of_ne (hurls _ (hshown.videoUrl h)).1]
    rfl
  unfold clientPhase
  rw [hfields]
  simp only [hstatus, hsummary, hintervals, hvideo, hdetail, hid, hlabel, Option.bind_eq_bind,
    Option.bind_some, Value.isText, hshown.id, hshown.label, decide_true]
  rw [if_neg]
  · rw [EvaluationPhase.seen, hshown.id, hshown.label]
  · simp only [not_or, not_and, Bool.true_eq_false, not_false_eq_true, true_and, not_not,
      Bool.not_eq_true]
    exact ⟨hknown, hunavailable, hclosed, hopen⟩

theorem clientTiming_toJson {timing : EvaluationTiming K}
    (hrate : 0 < timing.frameRate ∧ timing.frameRate ≤ 1000)
    (hduration : 0 < timing.durationMs ∧ timing.durationMs ≤ maxManifestDurationMs)
    (hcount : 0 < timing.frameCount ∧ timing.frameCount ≤ maxManifestFrameCount) :
    clientTiming timing.toJson = some timing.seen := by
  have hrate' : ((Value.number timing.frameRate).toNumber.filter fun x =>
      decide (0 < x ∧ x ≤ 1000)) = some timing.frameRate :=
    Option.filter_some_pos (decide_eq_true hrate)
  have hduration' : decide ((0 : K) < timing.durationMs ∧ (timing.durationMs : K) ≤ 604800000) =
      true :=
    decide_eq_true ⟨by exact_mod_cast hduration.1, by exact_mod_cast hduration.2⟩
  have hcount' : decide ((0 : K) < timing.frameCount ∧ (timing.frameCount : K) ≤ 10000000) = true :=
    decide_eq_true ⟨by exact_mod_cast hcount.1, by exact_mod_cast hcount.2⟩
  change (do
    let frameRate ← (Value.number timing.frameRate).toNumber.filter fun x =>
      decide (0 < x ∧ x ≤ 1000)
    let durationMs ← (integer (.int timing.durationMs : Value K)).filter fun x =>
      decide (0 < x ∧ x ≤ 604800000)
    let frameCount ← (integer (.int timing.frameCount : Value K)).filter fun x =>
      decide (0 < x ∧ x ≤ 10000000)
    some (⟨frameRate, durationMs, frameCount⟩ : ClientTiming K)) = _
  rw [hrate', Option.bind_eq_bind, Option.bind_some, filter_integer hduration', Option.bind_some,
    filter_integer hcount']
  rfl

theorem clientPhases_toJson {protocol : String → Option String} {urls : Set String}
    (hurls : SafeUrls protocol urls) {durationMs : ℤ} {phases : List (ManifestPhase K)}
    (hids : phases.map (·.id) = reviewPhaseOrder)
    (hvalid : ∀ phase ∈ phases, phase.Valid durationMs) {shown : List (EvaluationPhase K)}
    (hshown : List.Forall₂ (EvaluationPhase.Shows urls) phases shown) :
    clientPhases protocol (durationMs : K) (.list (shown.map (·.toJson))) =
      some (shown.map (·.seen)) := by
  have hexpected : evaluationPhaseIds.zip evaluationPhaseLabels =
      phases.map fun phase => (phase.id, reviewPhaseLabel phase.id) := by
    have hmap : evaluationPhaseIds.zip evaluationPhaseLabels =
        reviewPhaseOrder.map fun id => (id, reviewPhaseLabel id) := by decide
    rw [hmap, ← hids, List.map_map]
    rfl
  have hread : ((phases.map fun phase => (phase.id, reviewPhaseLabel phase.id)).zip
      (shown.map (·.toJson))).mapM (fun entry =>
        clientPhase protocol (durationMs : K) entry.1.1 entry.1.2 entry.2) =
      some (shown.map (·.seen)) := by
    rw [Option.mapM_eq_some]
    clear hids hexpected
    induction hshown with
    | nil => exact .nil
    | cons hphase _ ih =>
      obtain ⟨hfirst, hrest⟩ := List.forall_mem_cons.mp hvalid
      exact .cons (clientPhase_toJson hurls hfirst hphase) (ih hrest)
  have hlength : (shown.map (·.toJson)).length = evaluationPhaseIds.length := by
    rw [List.length_map, ← hshown.length_eq, ← List.length_map (·.id), hids]
    rfl
  rw [clientPhases, if_neg (not_not.mpr hlength), hexpected]
  exact hread

omit [IsStrictOrderedRing K] [FloorRing K] [LinearOrder K] [Field K] in
theorem clientVersion_str {version : String} (h : versionIdentifier version = true) :
    clientVersion (.str version : Value K) = some version := if_pos h

/-- A version is not empty. -/
theorem ne_empty_of_version {version : String} (h : versionIdentifier version = true) :
    version ≠ "" := by
  rintro rfl
  exact absurd h (by decide)

end Seen

/-- The UUID is one of version 4. -/
def Uuid.IsVersion4 (id : Uuid) : Prop :=
  id.text.toList[14]? = some '4' ∧ ∃ c ∈ ['8', '9', 'a', 'b'], id.text.toList[19]? = some c

theorem toLower_of_isHexDigit {c : Char} (h : isHexDigit c = true) : c.toLower = c := by
  have hnot : ¬ (c.val ≥ 'A'.val ∧ c.val ≤ 'Z'.val) := by
    rintro ⟨hA, hZ⟩
    simp only [isHexDigit, Bool.or_eq_true, Bool.and_eq_true, decide_eq_true_eq] at h
    have hA : 65 ≤ c.val.toNat := hA
    have hZ : c.val.toNat ≤ 90 := hZ
    obtain ⟨-, h9⟩ | ⟨ha, -⟩ := h
    · have h9 : c.val.toNat ≤ 57 := h9
      omega
    · have ha : 97 ≤ c.val.toNat := ha
      omega
  unfold Char.toLower
  rw [dif_neg hnot]

/-- **A review id** of version 4 has the pattern of the client. -/
theorem matchesReviewId_text {id : Uuid} (h : id.IsVersion4) :
    matchesReviewId id.text.toList = true := by
  obtain ⟨hversion, d, hd, hvariant⟩ := h
  have hcanonical := id.canonical
  simp only [isCanonicalUuid, Bool.and_eq_true, List.all_eq_true] at hcanonical
  rw [matchesReviewId, Bool.and_eq_true, List.all_eq_true]
  refine ⟨hcanonical.1, fun entry hentry => ?_⟩
  obtain ⟨c, i⟩ := entry
  have hdigit := hcanonical.2 (c, i) hentry
  have hat := List.mem_zipIdx_iff_getElem?.mp hentry
  dsimp only at hdigit hat ⊢
  split_ifs at hdigit ⊢ with hgroup h14 h19
  · exact hdigit
  · subst h14
    obtain rfl := Option.some.inj (hversion.symm.trans hat)
    decide
  · subst h19
    obtain rfl := Option.some.inj (hvariant.symm.trans hat)
    rw [toLower_of_isHexDigit hdigit]
    exact decide_eq_true hd
  · rw [isAnyHexDigit, toLower_of_isHexDigit hdigit]
    exact hdigit

/-! ## The whole answer -/

section Whole

variable [Field K] [LinearOrder K]

omit [Field K] [LinearOrder K] in
theorem field_toJson (body : Evaluation K) (key : String) :
    body.toJson.field key = (List.lookup key
      [("available", some (.bool body.available)),
        ("review_id", (nonEmpty body.reviewId).map .str),
        ("state", (nonEmpty body.state).map .str),
        ("pipeline_version", (nonEmpty body.pipelineVersion).map .str),
        ("model_version", (nonEmpty body.modelVersion).map .str),
        ("timing", body.timing.map (·.toJson)),
        ("phases", if body.phases = [] then none else some (.list (body.phases.map (·.toJson)))),
        ("telemetry_download_url", (nonEmpty body.telemetryDownloadUrl).map .str),
        ("expires_in_seconds", if body.expiresInSeconds = 0 then none
          else some (.int body.expiresInSeconds))]).join :=
  have hkeys : ["available", "review_id", "state", "pipeline_version", "model_version", "timing",
    "phases", "telemetry_download_url", "expires_in_seconds"].Nodup := by decide
  Value.lookup_omitEmpty (by exact hkeys) key

variable {protocol : String → Option String} {urls : Set String} {body : Evaluation K}

omit [Field K] [LinearOrder K] in
theorem telemetry_toJson (hurls : SafeUrls protocol urls)
    (h : body.telemetryDownloadUrl ≠ "" → body.telemetryDownloadUrl ∈ urls) :
    optionalField (body.toJson.field "telemetry_download_url") (safeUrl protocol) =
      some (nonEmpty body.telemetryDownloadUrl) := by
  rw [field_toJson]
  exact optionalField_nonEmpty fun hne => safeUrl_str hurls (h hne)

variable [IsStrictOrderedRing K] [FloorRing K]

theorem expires_toJson (h : 0 ≤ body.expiresInSeconds) :
    optionalField (body.toJson.field "expires_in_seconds")
      (fun v => (integer v).filter fun x => decide (0 < x)) =
      some (if body.expiresInSeconds = 0 then none else some (body.expiresInSeconds : K)) := by
  rw [field_toJson]
  change optionalField (if body.expiresInSeconds = 0 then none
    else some (.int body.expiresInSeconds)) _ = _
  split_ifs with hzero
  · rfl
  · have hpos : decide (0 < (body.expiresInSeconds : K)) = true :=
      decide_eq_true (by exact_mod_cast lt_of_le_of_ne h (Ne.symm hzero))
    rw [optionalField_some, filter_integer hpos]
    rfl

/-- The client reads an available answer. -/
theorem clientReview_toJson (hurls : SafeUrls protocol urls) {job : StoredJob}
    (hfinished : job.row.state = .completed ∨ job.row.state = .failed)
    {manifest : EvaluationManifest K} (hvalid : manifest.Valid)
    (hversion : manifest.reviewId.IsVersion4) (hshows : body.Shows urls job manifest)
    (url : Option String) (expires : Option K) :
    clientReview protocol body.toJson url expires =
      some ⟨true, some body.reviewId, some body.state, some body.pipelineVersion,
        some body.modelVersion, body.timing.map (·.seen), some (body.phases.map (·.seen)), url,
        expires⟩ := by
  have hid : body.reviewId ≠ "" := by
    intro hempty
    have hlength := manifest.reviewId.length_text
    rw [← hshows.reviewId, hempty] at hlength
    cases hlength
  have hstate : body.state = "completed" ∨ body.state = "failed" := by
    rw [hshows.state]
    obtain h | h := hfinished
    · exact .inl (by rw [h]; rfl)
    · exact .inr (by rw [h]; rfl)
  have hstateNe : body.state ≠ "" := by
    intro hempty
    rw [hempty] at hstate
    revert hstate
    decide
  have hpipeline : versionIdentifier body.pipelineVersion = true :=
    hshows.pipelineVersion ▸ hvalid.pipelineVersion
  have hmodel : versionIdentifier body.modelVersion = true :=
    hshows.modelVersion ▸ hvalid.modelVersion
  have hphases : body.phases ≠ [] := by
    intro hempty
    have hlength := hshows.phases.length_eq
    have hids := congrArg List.length hvalid.ids
    rw [hempty] at hlength
    rw [List.length_map, hlength] at hids
    cases hids
  have hgetId : body.toJson.get "review_id" = .str body.reviewId := by
    rw [Value.get, field_toJson]
    change ((nonEmpty body.reviewId).map Value.str).getD .none = _
    rw [nonEmpty_of_ne hid]
    rfl
  have hgetState : body.toJson.get "state" = .str body.state := by
    rw [Value.get, field_toJson]
    change ((nonEmpty body.state).map Value.str).getD .none = _
    rw [nonEmpty_of_ne hstateNe]
    rfl
  have hgetPipeline : body.toJson.get "pipeline_version" = .str body.pipelineVersion := by
    rw [Value.get, field_toJson]
    change ((nonEmpty body.pipelineVersion).map Value.str).getD .none = _
    rw [nonEmpty_of_ne (ne_empty_of_version hpipeline)]
    rfl
  have hgetModel : body.toJson.get "model_version" = .str body.modelVersion := by
    rw [Value.get, field_toJson]
    change ((nonEmpty body.modelVersion).map Value.str).getD .none = _
    rw [nonEmpty_of_ne (ne_empty_of_version hmodel)]
    rfl
  have hgetTiming : body.toJson.get "timing" = manifest.timing.toJson := by
    rw [Value.get, field_toJson]
    change (body.timing.map EvaluationTiming.toJson).getD .none = _
    rw [hshows.timing]
    rfl
  have hgetPhases : body.toJson.get "phases" = .list (body.phases.map (·.toJson)) := by
    rw [Value.get, field_toJson]
    change (if body.phases = [] then none
      else some (Value.list (body.phases.map (·.toJson)))).getD .none = _
    rw [if_neg hphases]
    rfl
  have hmatches : matchesReviewId body.reviewId.toList = true := by
    rw [hshows.reviewId]
    exact matchesReviewId_text hversion
  have hknown : body.state ∈ ["completed", "failed"] := by
    rw [List.mem_pair]
    exact hstate
  have htimingRead := clientTiming_toJson hvalid.frameRate hvalid.durationMs hvalid.frameCount
  have hphasesRead := clientPhases_toJson hurls hvalid.ids hvalid.phases hshows.phases
  unfold clientReview
  rw [hgetId, hgetState, hgetPipeline, hgetModel, hgetTiming, hgetPhases]
  dsimp only
  rw [clientVersion_str hpipeline, Option.bind_eq_bind, Option.bind_some, clientVersion_str hmodel,
    Option.bind_eq_bind, Option.bind_some, htimingRead, Option.bind_eq_bind, Option.bind_some]
  change Option.bind (clientPhases protocol (manifest.timing.durationMs : K) _) _ = _
  rw [hphasesRead, Option.bind_some, if_neg, hshows.timing]
  · rfl
  · rw [hmatches]
    simp only [Bool.true_eq_false, false_or, not_not]
    exact hknown

/-- **An answer** that shows nothing, or an accepted manifest, is seen as it was sent. -/
theorem parseEvaluation_toJson (hurls : SafeUrls protocol urls) {handler : EvaluationHandler}
    {job : StoredJob} {w : EvaluationWorld K} (h : body.Answers handler urls job w)
    (hversion : ∀ key text manifest, w.objects key = some text →
      parseEvaluationManifest handler.parseUuid text.json = .ok manifest →
      manifest.reviewId.IsVersion4) :
    parseEvaluation protocol body.toJson = .ok body.seen := by
  have hgetAvailable : body.toJson.get "available" = .bool body.available := by
    rw [Value.get, field_toJson]
    rfl
  have hchecked : checkedEvaluation protocol body.toJson = some body.seen := by
    unfold checkedEvaluation
    rw [hgetAvailable]
    dsimp only
    rw [telemetry_toJson hurls h.telemetry, Option.bind_eq_bind, Option.bind_some,
      expires_toJson h.expires, Option.bind_eq_bind, Option.bind_some]
    obtain hnone | ⟨key, text, manifest, hstored, hmanifest, hshows⟩ := h.shows
    · rw [if_pos hnone, Evaluation.seen, hnone]
      rfl
    · rw [if_neg (by rw [hshows.available]; decide),
        clientReview_toJson hurls h.finished (parseEvaluationManifest_eq_ok hmanifest)
          (hversion key text manifest hstored hmanifest) hshows, Evaluation.seen, hshows.available]
      rfl
  rw [parseEvaluation, hchecked]

omit [IsStrictOrderedRing K] in
theorem parseEvaluation_unavailable :
    parseEvaluation protocol (Evaluation.unavailable : Evaluation K).toJson =
      .ok Evaluation.unavailable.seen := rfl

/-- **The evaluation in the client.** Whatever the tables and the object storage hold, and whatever
fails: if each accepted manifest of the storage names a review of version 4, and the signed links
are addresses that the client opens, then the client reads each evaluation that the handler sends,
and sees the availability, the phases with their states, summaries, details, intervals and links,
the timing, the versions and the link to the telemetry that were sent. -/
theorem evaluation_seen {handler : EvaluationHandler} {request : Option Uuid}
    {w w' : EvaluationWorld K} (hurls : SafeUrls protocol urls)
    (hversion : ∀ key text manifest, w.objects key = some text →
      parseEvaluationManifest handler.parseUuid text.json = .ok manifest →
      manifest.reviewId.IsVersion4) (haccesses : w.accesses = [])
    (hrun : Prog.Run (evaluationSetting urls) (evaluation handler request) w () w') :
    ∀ body, w'.response = some (.evaluation body) →
      parseEvaluation protocol body.toJson = .ok body.seen := by
  obtain ⟨-, response, hresponse, hpresents⟩ := Prog.wp_run (wp_evaluation haccesses) hrun
  intro body hbody
  obtain rfl : response = .evaluation body := Option.some.inj (hresponse.symm.trans hbody)
  obtain ⟨id, job, reviewId, -, -, hshown⟩ := hpresents body rfl
  obtain rfl | ⟨-, hanswers⟩ := hshown body rfl
  · exact parseEvaluation_unavailable
  · exact parseEvaluation_toJson hurls hanswers hversion

end Whole

/-! ## The sample evaluation in the client -/

/-- The protocol of a secure address. -/
def secureProtocol (url : String) : Option String :=
  if "https://".toList.isPrefixOf url.toList then some "https:" else none

theorem byteLength_append (a b : String) : byteLength (a ++ b) = byteLength a + byteLength b := by
  rw [byteLength, String.toList_append, List.map_append, List.sum_append]
  rfl

theorem safeUrls_sample : SafeUrls secureProtocol sampleUrls := by
  rintro _ ⟨key, hkey, rfl⟩
  have hlength : byteLength ("https://storage.test/" ++ key) = 21 + byteLength key :=
    byteLength_append _ _
  refine ⟨fun hempty => ?_, by omega, .inl (if_pos ?_)⟩
  · rw [hempty] at hlength
    have hzero : byteLength "" = 0 := rfl
    omega
  · rw [String.toList_append]
    rfl

theorem sampleReview_isVersion4 : sampleReview.IsVersion4 := ⟨by decide, '9', by decide, by decide⟩

theorem evaluation_seen_sample : ∃ body, sampleEvaluated.response = some (.evaluation body) ∧
    body.available = true ∧ parseEvaluation secureProtocol body.toJson = .ok body.seen := by
  have hparsed : (parseEvaluationManifest Uuid.ofCanonical (some sampleManifest)).toOption.map
      (·.reviewId) = some sampleReview := by decide +kernel
  have hshown : sampleEvaluated.response.elim false
      (EvaluationResponse.rec (·.available) fun _ => false) = true :=
    (Prod.mk.inj sampleEvaluated_answer).2
  have hversion : ∀ key text manifest, sampleEvaluation.objects key = some text →
      parseEvaluationManifest sampleEvaluationHandler.parseUuid text.json = .ok manifest →
      manifest.reviewId.IsVersion4 := by
    intro key text manifest hstored hmanifest
    obtain ⟨-, htext⟩ := Option.ite_none_right_eq_some.mp hstored
    obtain rfl := Option.some.inj htext
    have hmanifest : parseEvaluationManifest Uuid.ofCanonical (some sampleManifest) =
      .ok manifest := hmanifest
    rw [hmanifest] at hparsed
    have hreview : manifest.reviewId = sampleReview := Option.some.inj hparsed
    exact hreview ▸ sampleReview_isVersion4
  cases hresponse : sampleEvaluated.response with
  | none =>
    rw [hresponse] at hshown
    cases hshown
  | some response =>
    rw [hresponse] at hshown
    cases response with
    | evaluation body =>
      exact ⟨body, rfl, hshown,
        evaluation_seen safeUrls_sample hversion rfl sampleEvaluated_run body hresponse⟩
    | other => cases hshown

end BoulderFrame
