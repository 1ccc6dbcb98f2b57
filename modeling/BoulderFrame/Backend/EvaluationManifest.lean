import BoulderFrame.Backend.ManifestText
import BoulderFrame.Domain.Uuid
import BoulderFrame.Library.Outcome

/-!
# The manifest of an evaluation

The backend decodes a manifest strictly and checks each of its values before any of them reaches
the client.

## Main definitions

* `EvaluationManifest`: the manifest as the backend knows it
* `RawManifest.decode`: the decoder of the manifest, which refuses unknown fields
* `validSummary`, `validWarningIntervals`: the checks of its parts
* `parseEvaluationManifest`: the parser

## Main results

* `parseEvaluationManifest_eq_ok`: what holds of every accepted manifest
-/

namespace BoulderFrame

namespace Domain

variable {K : Type}

structure EvaluationTiming (K : Type) where
  frameRate : K
  durationMs : ℤ
  frameCount : ℤ

structure WarningInterval where
  startMs : ℤ
  endMs : Option ℤ
  label : String
  detail : String
  deriving DecidableEq

structure ManifestPhase (K : Type) where
  id : String
  status : String
  detail : String
  summary : List (String × Value K)
  warningIntervals : List WarningInterval

structure EvaluationManifest (K : Type) where
  reviewId : Uuid
  pipelineVersion : String
  modelVersion : String
  timing : EvaluationTiming K
  phases : List (ManifestPhase K)
  telemetryReady : Bool

def reviewPhaseOrder : List String := ["detection", "framing", "render"]

def maxManifestDurationMs : ℤ := 7 * 24 * 60 * 60 * 1000

def maxManifestFrameCount : ℤ := 10000000

/-! ## Decoding -/

structure RawTiming (K : Type) where
  frameRate : Option K
  durationMs : Option ℤ
  frameCount : Option ℤ

structure RawInterval where
  startMs : Option ℤ
  endMs : Option ℤ
  label : String
  detail : String

structure RawPhase (K : Type) where
  id : String
  status : String
  detail : Option String
  summary : List (String × Value K)
  warningIntervals : Slice RawInterval

structure RawManifest (K : Type) where
  schemaVersion : ℤ
  reviewId : String
  pipelineVersion : String
  modelVersion : String
  timing : Option (RawTiming K)
  phases : Slice (RawPhase K)
  telemetry : Option String

section Decode

variable [Field K] [LinearOrder K]

open Decoder (part pointer slice struct text int64 float64 object)

def RawTiming.decode : Decoder K (RawTiming K) :=
  struct
    [("frame_rate", part (·.frameRate) (fun a t => { t with frameRate := a }) (pointer 0 float64)),
      ("duration_ms", part (·.durationMs) (fun a t => { t with durationMs := a })
        (pointer 0 int64)),
      ("frame_count", part (·.frameCount) (fun a t => { t with frameCount := a })
        (pointer 0 int64))]

omit [Field K] [LinearOrder K] in
def RawInterval.decode : Decoder K RawInterval :=
  struct
    [("start_ms", part (·.startMs) (fun a i => { i with startMs := a }) (pointer 0 int64)),
      ("end_ms", part (·.endMs) (fun a i => { i with endMs := a }) (pointer 0 int64)),
      ("label", part (·.label) (fun a i => { i with label := a }) text),
      ("detail", part (·.detail) (fun a i => { i with detail := a }) text)]

def RawInterval.zero : RawInterval := ⟨none, none, "", ""⟩

def RawPhase.decode : Decoder K (RawPhase K) :=
  struct
    [("id", part (·.id) (fun a p => { p with id := a }) text),
      ("status", part (·.status) (fun a p => { p with status := a }) text),
      ("detail", part (·.detail) (fun a p => { p with detail := a }) (pointer "" text)),
      ("summary", part (·.summary) (fun a p => { p with summary := a }) object),
      ("warning_intervals", part (·.warningIntervals) (fun a p => { p with warningIntervals := a })
        (slice .zero RawInterval.decode))]

def RawPhase.zero : RawPhase K := ⟨"", "", none, [], .nil⟩

def RawManifest.decode : Decoder K (RawManifest K) :=
  struct
    [("schema_version", part (·.schemaVersion) (fun a m => { m with schemaVersion := a }) int64),
      ("review_id", part (·.reviewId) (fun a m => { m with reviewId := a }) text),
      ("pipeline_version", part (·.pipelineVersion) (fun a m => { m with pipelineVersion := a })
        text),
      ("model_version", part (·.modelVersion) (fun a m => { m with modelVersion := a }) text),
      ("timing", part (·.timing) (fun a m => { m with timing := a })
        (pointer ⟨none, none, none⟩ RawTiming.decode)),
      ("phases", part (·.phases) (fun a m => { m with phases := a }) (slice .zero RawPhase.decode)),
      ("telemetry", part (·.telemetry) (fun a m => { m with telemetry := a })
        (pointer "" (struct [("status", text)])))]

def RawManifest.zero : RawManifest K := ⟨0, "", "", "", none, .nil, none⟩

end Decode

/-! ## Checks -/

def validPhaseStatus (status : String) : Bool :=
  status == "ready" || status == "partial" || status == "unavailable" || status == "warning"

def validTelemetryStatus (status : String) : Bool := status == "ready" || status == "unavailable"

/-- A value of a summary. -/
def validSummaryValue : Value K → Bool
  | .str value => safeManifestText value 500
  | .bool _ => true
  | .float (.finite _) => true
  | .none => true
  | _ => false

def validSummary (summary : List (String × Value K)) : Bool :=
  decide (summary.length ≤ 32) && summary.all fun f =>
    summaryFieldName f.1 && !unsafeManifestField f.1 && validSummaryValue f.2

/-- The interval, if it is valid. -/
def validWarningInterval (durationMs : ℤ) (interval : RawInterval) : Option WarningInterval :=
  match interval.startMs with
  | none => none
  | some startMs =>
    if startMs < 0 ∨ durationMs < startMs ∨
        (interval.endMs.any fun endMs => decide (endMs < startMs) || decide (durationMs < endMs)) ∨
        safeManifestText interval.label 120 = false ∨
        (interval.detail ≠ "" ∧ safeManifestText interval.detail 500 = false) then none
    else some ⟨startMs, interval.endMs, interval.label, interval.detail⟩

def validWarningIntervals (raw : List RawInterval) (durationMs : ℤ) :
    Option (List WarningInterval) :=
  if 100 < raw.length then none else raw.mapM (validWarningInterval durationMs)

section Parse

variable [Field K] [LinearOrder K]

/-- The timing, if it is valid. -/
def validTiming (timing : RawTiming K) : Option (EvaluationTiming K) :=
  match timing with
  | ⟨some frameRate, some durationMs, some frameCount⟩ =>
    if frameRate ≤ 0 ∨ 1000 < frameRate ∨ durationMs ≤ 0 ∨ maxManifestDurationMs < durationMs ∨
        frameCount ≤ 0 ∨ maxManifestFrameCount < frameCount then none
    else some ⟨frameRate, durationMs, frameCount⟩
  | _ => none

omit [Field K] [LinearOrder K] in
/-- The loop over the phases, with their ids in order, and the ids that have been seen. -/
def parsePhases (durationMs : ℤ) :
    List (String × RawPhase K) → List String → Except String (List (ManifestPhase K))
  | [], _ => .ok []
  | (expected, phase) :: phases, seen =>
    match validWarningIntervals phase.warningIntervals.items durationMs with
    | none => .error "invalid evaluation phase"
    | some intervals =>
      if phase.id ≠ expected ∨ phase.id ∈ seen ∨ validPhaseStatus phase.status = false ∨
          (phase.detail.any fun detail =>
            phase.status != "unavailable" || !safeManifestText detail 500) ∨
          validSummary phase.summary = false then .error "invalid evaluation phase"
      else do
        let rest ← parsePhases durationMs phases (phase.id :: seen)
        .ok (⟨phase.id, phase.status, phase.detail.getD "", phase.summary, intervals⟩ :: rest)

/-- `ParseEvaluationManifest`, from the JSON value of the text, if it is exactly one, and with the
parser of UUIDs. -/
def parseEvaluationManifest (parseUuid : String → Option Uuid) (data : Option (Value K)) :
    Except String (EvaluationManifest K) :=
  match data.bind fun v => RawManifest.decode v .zero with
  | none => .error "invalid evaluation manifest"
  | some raw =>
    if raw.schemaVersion ≠ 1 then .error "unsupported evaluation manifest schema"
    else
      match parseUuid raw.reviewId with
      | none => .error "invalid evaluation review ID"
      | some reviewId =>
        match raw.timing.bind validTiming with
        | none => .error "invalid evaluation metadata"
        | some timing =>
          if versionIdentifier raw.pipelineVersion = false ∨
              versionIdentifier raw.modelVersion = false then .error "invalid evaluation metadata"
          else if raw.phases.items.length ≠ reviewPhaseOrder.length ∨
              (raw.telemetry.any fun status => !validTelemetryStatus status) then
            .error "invalid evaluation phases"
          else do
            let phases ← parsePhases timing.durationMs (reviewPhaseOrder.zip raw.phases.items) []
            .ok
              { reviewId := reviewId
                pipelineVersion := raw.pipelineVersion
                modelVersion := raw.modelVersion
                timing := timing
                phases := phases
                telemetryReady := raw.telemetry == some "ready" }

/-! ## Accepted manifests -/

/-- What holds of an accepted interval. -/
structure WarningInterval.Valid (durationMs : ℤ) (interval : WarningInterval) : Prop where
  start_nonneg : 0 ≤ interval.startMs
  start_le : interval.startMs ≤ durationMs
  end_bounds : ∀ endMs ∈ interval.endMs, interval.startMs ≤ endMs ∧ endMs ≤ durationMs
  label_length : interval.label ≠ "" ∧ byteLength interval.label ≤ 120
  detail_length : interval.detail ≠ "" → byteLength interval.detail ≤ 500

/-- What holds of an accepted phase. -/
structure ManifestPhase.Valid (durationMs : ℤ) (phase : ManifestPhase K) : Prop where
  status : validPhaseStatus phase.status = true
  detail : phase.detail ≠ "" → phase.status = "unavailable" ∧ byteLength phase.detail ≤ 500
  summary : validSummary phase.summary = true
  intervals_length : phase.warningIntervals.length ≤ 100
  intervals : ∀ interval ∈ phase.warningIntervals, interval.Valid durationMs

/-- What holds of an accepted manifest. -/
structure EvaluationManifest.Valid (manifest : EvaluationManifest K) : Prop where
  pipelineVersion : versionIdentifier manifest.pipelineVersion = true
  modelVersion : versionIdentifier manifest.modelVersion = true
  frameRate : 0 < manifest.timing.frameRate ∧ manifest.timing.frameRate ≤ 1000
  durationMs : 0 < manifest.timing.durationMs ∧
    manifest.timing.durationMs ≤ maxManifestDurationMs
  frameCount : 0 < manifest.timing.frameCount ∧
    manifest.timing.frameCount ≤ maxManifestFrameCount
  ids : manifest.phases.map (·.id) = reviewPhaseOrder
  phases : ∀ phase ∈ manifest.phases, phase.Valid manifest.timing.durationMs

theorem validWarningInterval_eq_some {durationMs : ℤ} {raw : RawInterval}
    {interval : WarningInterval} (h : validWarningInterval durationMs raw = some interval) :
    interval.Valid durationMs := by
  unfold validWarningInterval at h
  split at h
  · cases h
  · rename_i startMs hstart
    rw [Option.ite_none_left_eq_some] at h
    obtain ⟨hvalid, h⟩ := h
    obtain rfl := Option.some.inj h
    simp only [not_or, not_lt, not_and, Bool.not_eq_false, Bool.not_eq_true] at hvalid
    obtain ⟨hnonneg, hle, hends, hlabel, hdetail⟩ := hvalid
    refine ⟨hnonneg, hle, fun endMs hend => ?_, safeManifestText_length hlabel, fun hne =>
      (safeManifestText_length (hdetail hne)).2⟩
    have hend : raw.endMs = some endMs := hend
    rw [hend, Option.any_some, Bool.or_eq_false_iff] at hends
    exact ⟨not_lt.mp (of_decide_eq_false hends.1), not_lt.mp (of_decide_eq_false hends.2)⟩

theorem validWarningIntervals_eq_some {durationMs : ℤ} {raw : List RawInterval}
    {intervals : List WarningInterval} (h : validWarningIntervals raw durationMs = some intervals) :
    intervals.length ≤ 100 ∧ ∀ interval ∈ intervals, interval.Valid durationMs := by
  unfold validWarningIntervals at h
  rw [Option.ite_none_left_eq_some] at h
  obtain ⟨hlength, h⟩ := h
  have hforall := Option.mapM_eq_some.mp h
  refine ⟨hforall.length_eq ▸ not_lt.mp hlength, fun interval hmem => ?_⟩
  obtain ⟨raw, -, hraw⟩ := hforall.exists_left hmem
  exact validWarningInterval_eq_some hraw

omit [Field K] [LinearOrder K] in
theorem parsePhases_eq_ok {durationMs : ℤ} {raw : List (String × RawPhase K)} {seen : List String}
    {phases : List (ManifestPhase K)} (h : parsePhases durationMs raw seen = .ok phases) :
    phases.map (·.id) = raw.map Prod.fst ∧ ∀ phase ∈ phases, phase.Valid durationMs := by
  induction raw generalizing seen phases with
  | nil =>
    obtain rfl := Except.ok.inj h
    exact ⟨rfl, fun _ => nofun⟩
  | cons entry raw ih =>
    obtain ⟨expected, phase⟩ := entry
    rw [parsePhases] at h
    split at h
    · cases h
    · rename_i intervals hintervals
      obtain ⟨hvalid, h⟩ := Except.ok_of_guard h
      obtain ⟨rest, hrest, h⟩ := Except.bind_eq_ok.mp h
      obtain rfl := Except.ok.inj h
      simp only [not_or, ne_eq, not_not, Bool.not_eq_false, Bool.not_eq_true] at hvalid
      obtain ⟨hid, -, hstatus, hdetail, hsummary⟩ := hvalid
      obtain ⟨hids, hphases⟩ := ih hrest
      obtain ⟨hlength, hall⟩ := validWarningIntervals_eq_some hintervals
      refine ⟨by rw [List.map_cons, List.map_cons, hids, hid],
        List.forall_mem_cons.mpr ⟨⟨hstatus, fun hne => ?_, hsummary, hlength, hall⟩, hphases⟩⟩
      obtain ⟨detail, hsome⟩ : ∃ detail, phase.detail = some detail :=
        Option.ne_none_iff_exists'.mp fun hnone => hne (by rw [hnone]; rfl)
      rw [hsome, Option.any_some, Bool.or_eq_false_iff, bne_eq_false_iff_eq,
        Bool.not_eq_false'] at hdetail
      refine ⟨hdetail.1, ?_⟩
      change byteLength (phase.detail.getD "") ≤ 500
      rw [hsome]
      exact (safeManifestText_length hdetail.2).2

theorem validTiming_eq_some {raw : RawTiming K} {timing : EvaluationTiming K}
    (h : validTiming raw = some timing) :
    (0 < timing.frameRate ∧ timing.frameRate ≤ 1000) ∧
      (0 < timing.durationMs ∧ timing.durationMs ≤ maxManifestDurationMs) ∧
      0 < timing.frameCount ∧ timing.frameCount ≤ maxManifestFrameCount := by
  unfold validTiming at h
  split at h
  · rw [Option.ite_none_left_eq_some] at h
    obtain ⟨hvalid, h⟩ := h
    obtain rfl := Option.some.inj h
    simp only [not_or, not_le, not_lt] at hvalid
    obtain ⟨h₁, h₂, h₃, h₄, h₅, h₆⟩ := hvalid
    exact ⟨⟨h₁, h₂⟩, ⟨h₃, h₄⟩, h₅, h₆⟩
  · cases h

/-- **An accepted manifest** has valid versions and a valid timing, and its phases are in order and
valid. -/
theorem parseEvaluationManifest_eq_ok {parseUuid : String → Option Uuid} {data : Option (Value K)}
    {manifest : EvaluationManifest K} (h : parseEvaluationManifest parseUuid data = .ok manifest) :
    manifest.Valid := by
  unfold parseEvaluationManifest at h
  split at h
  · cases h
  rename_i raw _
  obtain ⟨-, h⟩ := Except.ok_of_guard h
  split at h
  · cases h
  split at h
  · cases h
  rename_i timing htiming
  obtain ⟨hversions, h⟩ := Except.ok_of_guard h
  obtain ⟨hphases, h⟩ := Except.ok_of_guard h
  obtain ⟨phases, hparsed, h⟩ := Except.bind_eq_ok.mp h
  obtain rfl := Except.ok.inj h
  simp only [not_or, Bool.not_eq_false] at hversions
  obtain ⟨rawTiming, -, hvalid⟩ := Option.bind_eq_some_iff.mp htiming
  obtain ⟨hframeRate, hdurationMs, hframeCount⟩ := validTiming_eq_some hvalid
  obtain ⟨hids, hall⟩ := parsePhases_eq_ok hparsed
  refine ⟨hversions.1, hversions.2, hframeRate, hdurationMs, hframeCount, ?_, hall⟩
  exact hids.trans (List.map_fst_zip (not_not.mp (not_or.mp hphases).1).ge)

end Parse

end Domain

end BoulderFrame
