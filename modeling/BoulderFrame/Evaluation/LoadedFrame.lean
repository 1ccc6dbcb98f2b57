import BoulderFrame.Debug.Kept
import BoulderFrame.Evaluation.DebugBundle
import BoulderFrame.Pipeline.AnalysisTrace

/-!
# Loading the record of a frame

The loader looks up some fields by their names and checks what it finds, so it reads the same frame
in every copy that keeps these fields. In the record of an analyzed frame it reads the analysis.

## Main definitions

* `loadedFields`: the names of the fields that the loader reads
* `DebugFrame.ofAnalysis`: what the evaluation is to know of an analyzed frame

## Main results

* `debugFrame_kept`: the loader reads the same frame in a copy
* `debugFrame_frameTraceRecord`: the record of a frame is read as its analysis
-/

namespace BoulderFrame

namespace Evaluation

/-! ## The loader reads copies alike -/

/-- The names of the fields that the loader reads in frames and in the metadata of the source. -/
def loadedFields : List String :=
  ["record_type", "schema_version", "frame_index", "timestamp_ms", "detection", "bounds", "x", "y",
    "width", "height", "selection", "selected", "selection_outcome", "framing", "input", "crop",
    "decision", "source_aspect_limited", "render", "mapping_independently_verified", "source_id",
    "sha256", "display_width", "display_height", "frame_rate", "variable_frame_rate"]

theorem loadedFields_safe : ∀ key ∈ loadedFields, unsafeField key = false := by decide +kernel

section Kept

variable {K : Type} {v w : Value K}

theorem isSome_field_kept (h : Kept loadedFields v w) {key : String} (hkey : key ∈ loadedFields) :
    (v.field key).isSome = (w.field key).isSome := by
  cases h with
  | dict hsome h => exact (hsome key hkey).symm
  | _ => rfl

theorem getD_kept (h : Kept loadedFields v w) {key : String} (hkey : key ∈ loadedFields)
    {d d' : Value K} (hd : Kept loadedFields d d') :
    Kept loadedFields ((v.field key).getD d) ((w.field key).getD d') := by
  have hsome := isSome_field_kept h hkey
  cases hv : v.field key with
  | none =>
    rw [hv, Option.isSome_none, eq_comm, Option.isSome_eq_false_iff, Option.isNone_iff_eq_none]
      at hsome
    rw [hsome]
    exact hd
  | some u =>
    rw [hv, Option.isSome_some, eq_comm, Option.isSome_iff_exists] at hsome
    obtain ⟨u', hw⟩ := hsome
    rw [hw]
    cases h with
    | dict hsome h => exact h key hkey u u' hv hw
    | _ => cases hv

theorem get_kept (h : Kept loadedFields v w) (key : String) (hkey : key ∈ loadedFields) :
    Kept loadedFields (v.get key) (w.get key) := getD_kept h hkey .none

theorem isText_kept (h : Kept loadedFields v w) (text : String) : v.isText text = w.isText text := by
  cases h <;> rfl

theorem equalsInt_kept [IntCast K] [DecidableEq K] (h : Kept loadedFields v w) (n : ℤ) :
    v.equalsInt n = w.equalsInt n := by
  cases h <;> rfl

theorem boolean_kept (h : Kept loadedFields v w) (name : String) :
    boolean v name = boolean w name := by
  cases h <;> rfl

theorem string_kept (h : Kept loadedFields v w) (name : String) :
    string v name = string w name := by
  cases h <;> rfl

theorem nonNegativeInt_kept (h : Kept loadedFields v w) (name : String) :
    nonNegativeInt v name = nonNegativeInt w name := by
  cases h <;> rfl

theorem optional_kept {α : Type} (h : Kept loadedFields v w) {read : Value K → Except Raised α}
    (hread : read v = read w) : optional v read = optional w read := by
  cases h with
  | none => rfl
  | _ => exact congrArg (some <$> ·) hread

theorem mapping_kept (h : Kept loadedFields v w) (name : String) :
    Except.Rel (Kept loadedFields) (mapping v name) (mapping w name) := by
  cases h with
  | dict hsome h => exact .ok (.dict hsome h)
  | _ => exact .error _

theorem optionalMapping_kept (h : Kept loadedFields v w) (name : String) :
    Except.Rel (Option.Rel (Kept loadedFields)) (optionalMapping v name)
      (optionalMapping w name) := by
  cases h with
  | none => exact .ok .none
  | dict hsome h => exact .ok (.some (.dict hsome h))
  | _ => exact .error _

theorem requiredMapping_kept (h : Kept loadedFields v w) {key : String}
    (hkey : key ∈ loadedFields) :
    Except.Rel (Kept loadedFields) (requiredMapping v key) (requiredMapping w key) := by
  have hsome := isSome_field_kept h hkey
  have hget := getD_kept h hkey .none
  unfold requiredMapping
  cases hv : v.field key with
  | none =>
    rw [hv, Option.isSome_none, eq_comm, Option.isSome_eq_false_iff, Option.isNone_iff_eq_none]
      at hsome
    rw [hsome]
    exact .error _
  | some u =>
    rw [hv, Option.isSome_some, eq_comm, Option.isSome_iff_exists] at hsome
    obtain ⟨u', hw⟩ := hsome
    rw [hv, hw] at hget
    rw [hw]
    exact mapping_kept hget key

theorem requireKeys_kept (h : Kept loadedFields v w) (name : String) {keys : List String}
    (hkeys : keys ⊆ loadedFields) : requireKeys v name keys = requireKeys w name keys := by
  have hmissing : (keys.filter fun key => (v.field key).isNone) =
      keys.filter fun key => (w.field key).isNone := by
    refine List.filter_congr fun key hkey => ?_
    rw [← Option.not_isSome, ← Option.not_isSome, isSome_field_kept h (hkeys hkey)]
  unfold requireKeys
  rw [hmissing]

variable [IntCast K] [LinearOrder K] [Zero K]

omit [LinearOrder K] [Zero K] in
theorem finite_kept (h : Kept loadedFields v w) (name : String) :
    finite v name = finite w name := by
  cases h <;> rfl

theorem positiveFloat_kept (h : Kept loadedFields v w) (name : String) :
    positiveFloat v name = positiveFloat w name := by
  unfold positiveFloat
  rw [finite_kept h]

theorem rect_kept (h : Kept loadedFields v w) (name : String) : rect v name = rect w name := by
  refine (mapping_kept h name).bind_eq fun data data' hdata => ?_
  rw [finite_kept (get_kept hdata _ (by decide)), finite_kept (get_kept hdata _ (by decide)),
    positiveFloat_kept (get_kept hdata _ (by decide)), positiveFloat_kept (get_kept hdata _ (by decide))]

theorem nestedRect_kept (h : Kept loadedFields v w) {key : String} (hkey : key ∈ loadedFields) :
    nestedRect v key = nestedRect w key := by
  refine (optionalMapping_kept (get_kept h _ hkey) key).bind_eq fun nested nested' hnested => ?_
  cases hnested with
  | none => rfl
  | some hnested =>
    have hbounds := get_kept hnested "bounds" (by decide)
    exact optional_kept hbounds (rect_kept hbounds _)

omit [Zero K] in
theorem schemaVersion_kept (h : Kept loadedFields v w) (name : String) :
    schemaVersion v name = schemaVersion w name := by
  unfold schemaVersion
  rw [equalsInt_kept (get_kept h _ (by decide))]

/-- **The loader** reads the same frame in a copy. -/
theorem debugFrame_kept (h : Kept loadedFields v w) : debugFrame v = debugFrame w := by
  refine (mapping_kept h _).bind_eq fun data data' hdata => ?_
  rw [isText_kept (get_kept hdata _ (by decide)), schemaVersion_kept hdata]
  split_ifs
  · refine bind_congr fun _ => ?_
    refine (requiredMapping_kept hdata (by decide)).bind_eq fun detection detection' hdetection => ?_
    refine (requiredMapping_kept hdata (by decide)).bind_eq fun framing framing' hframing => ?_
    refine (requiredMapping_kept hdata (by decide)).bind_eq fun render render' hrender => ?_
    have hcrop := get_kept hframing "crop" (by decide)
    have hrendered := get_kept hrender "crop" (by decide)
    have hrenderedTimestamp := get_kept hrender "timestamp_ms" (by decide)
    rw [requireKeys_kept hdetection _ (by decide), requireKeys_kept hframing _ (by decide),
      requireKeys_kept hrender _ (by decide), nestedRect_kept hdetection (by decide),
      nonNegativeInt_kept (get_kept hdata "frame_index" (by decide)),
      nonNegativeInt_kept (get_kept hdata "timestamp_ms" (by decide)),
      optional_kept hcrop (rect_kept hcrop _), optional_kept hrendered (rect_kept hrendered _),
      optional_kept hrenderedTimestamp (nonNegativeInt_kept hrenderedTimestamp _),
      boolean_kept (getD_kept hrender (by decide) (.bool false)),
      isText_kept (get_kept hdetection "selection_outcome" (by decide))]
    refine bind_congr fun _ => bind_congr fun _ => bind_congr fun _ => bind_congr fun _ => ?_
    refine (optionalMapping_kept (get_kept hdetection _ (by decide)) _).bind_eq
      fun selection selection' hselection => ?_
    refine (optionalMapping_kept (get_kept hframing _ (by decide)) _).bind_eq
      fun decision decision' hdecision => ?_
    cases hselection with
    | none =>
      cases hdecision with
      | none => rfl
      | some hdecision =>
        dsimp only
        rw [boolean_kept (getD_kept hdecision (by decide) (.bool false))]
    | some hselection =>
      dsimp only
      rw [boolean_kept (get_kept hselection _ (by decide))]
      cases hdecision with
      | none => rfl
      | some hdecision =>
        dsimp only
        rw [boolean_kept (getD_kept hdecision (by decide) (.bool false))]
  · rfl

end Kept

/-! ## The record of a frame -/

section Frame

open ProcessingPipeline

variable {K : Type}

theorem legible_frameTraceRecord (observation : RawFrameObservation K)
    (measurement : FrameMeasurement K) (crop : CropRect K)
    (plannerTrace : Option (PlannerTrace K)) :
    Legible (frameTraceRecord observation measurement crop plannerTrace) := by
  have hframing : Legible (.dict ([("input", serializeFrameMeasurement measurement),
      ("crop", serializeCropRect crop)] ++ plannerDecision plannerTrace)) := by
    cases plannerTrace with
    | none =>
      exact .fields (by decide : ["input", "crop"].Nodup)
        ⟨legible_serializeFrameMeasurement _, legible_serializeCropRect _⟩
    | some trace =>
      exact .fields (by decide : ["input", "crop", "decision"].Nodup)
        ⟨legible_serializeFrameMeasurement _, legible_serializeCropRect _,
          legible_serializePlannerTrace _⟩
  have hrender : Legible (K := K) (.dict [("crop", serializeCropRect crop),
      ("timestamp_ms", .int observation.timestampMs),
      ("mapping_independently_verified", .bool false), ("output_validated", .bool false)]) :=
    .fields (by decide : ["crop", "timestamp_ms", "mapping_independently_verified",
      "output_validated"].Nodup) ⟨legible_serializeCropRect _, .int _, .bool _, .bool _⟩
  exact .fields (by decide : ["record_type", "schema_version", "frame_index", "timestamp_ms",
    "detection", "framing", "render"].Nodup)
    ⟨.str (by decide), .int _, .int _, .int _, legible_serializeRawFrameObservation _, hframing,
      hrender⟩

/-- What the evaluation is to know of an analyzed frame. -/
def DebugFrame.ofAnalysis (observation : RawFrameObservation K) (crop : CropRect K)
    (trace : LookaheadPlannerFrameTrace K) : DebugFrame K where
  frameIndex := observation.frameIndex
  timestampMs := observation.timestampMs
  detection := observation.detection.map (·.bounds)
  selected := observation.association.map fun evidence => evidence.candidates.any (·.selected)
  crop := some ⟨crop.x, crop.y, crop.width, crop.height⟩
  renderedCrop := some ⟨crop.x, crop.y, crop.width, crop.height⟩
  renderedTimestampMs := some observation.timestampMs
  renderMappingIndependentlyVerified := false
  sourceAspectLimited := trace.sourceAspectLimited
  detectionSampled := decide (observation.selectionOutcome ≠ .detectionSkipped)

variable [Field K] [LinearOrder K]

theorem positiveFloat_number {x : K} (h : 0 < x) (name : String) :
    positiveFloat (.number x) name = .ok x := by
  unfold positiveFloat
  exact if_neg h.not_ge

theorem rect_serializeRect {r : Rect K} (hw : 0 < r.width) (hh : 0 < r.height) (name : String) :
    rect (serializeRect r) name = .ok r := by
  have hwidth := positiveFloat_number hw (name ++ ".width")
  have hheight := positiveFloat_number hh (name ++ ".height")
  change (do
    let width ← positiveFloat (.number r.width) (name ++ ".width")
    let height ← positiveFloat (.number r.height) (name ++ ".height")
    .ok ⟨r.x, r.y, width, height⟩ : Except Raised (Rect K)) = _
  rw [hwidth, hheight]
  rfl

omit [Field K] [LinearOrder K] in
/-- The fields of an observation that the loader reads. -/
theorem field_observation (observation : RawFrameObservation K) :
    let fields : Value K := .dict (serializeRawFrameObservation observation)
    fields.get "detection" = (observation.detection.elim .none fun detection =>
        .dict [("bounds", serializeRect detection.bounds),
          ("confidence", .number detection.confidence)]) ∧
      (fields.field "detection").isSome ∧
      fields.get "selection" = observation.association.elim .none serializeAssociationEvidence ∧
      fields.get "selection_outcome" = .str observation.selectionOutcome.value := by
  obtain ⟨frameIndex, timestampMs, detection, selectionOutcome, association⟩ := observation
  cases detection <;> cases association <;> exact ⟨rfl, rfl, rfl, rfl⟩

theorem nestedRect_observation {observation : RawFrameObservation K}
    (h : ∀ d ∈ observation.detection, 0 < d.bounds.width ∧ 0 < d.bounds.height) :
    nestedRect (.dict (serializeRawFrameObservation observation)) "detection" =
      .ok (observation.detection.map (·.bounds)) := by
  unfold nestedRect
  rw [(field_observation observation).1]
  cases hdetection : observation.detection with
  | none => rfl
  | some d =>
    obtain ⟨hw, hh⟩ := h d hdetection
    have hrect := rect_serializeRect hw hh ("detection" ++ ".bounds")
    change some <$> rect (serializeRect d.bounds) _ = _
    rw [hrect]
    rfl

/-- **The record of a frame** is read as its analysis. -/
theorem debugFrame_frameTraceRecord {observation : RawFrameObservation K}
    {measurement : FrameMeasurement K} {crop : CropRect K} {trace : LookaheadPlannerFrameTrace K}
    (hindex : 0 ≤ observation.frameIndex) (htimestamp : 0 ≤ observation.timestampMs)
    (hdetection : ∀ d ∈ observation.detection, 0 < d.bounds.width ∧ 0 < d.bounds.height)
    (hcrop : 0 < crop.width ∧ 0 < crop.height) :
    debugFrame (frameTraceRecord observation measurement crop (some (.inr trace))) =
      .ok (.ofAnalysis observation crop trace) := by
  obtain ⟨-, hkey, -, houtcome⟩ := field_observation observation
  have hrect : ∀ name, rect (serializeCropRect crop) name =
      .ok ⟨crop.x, crop.y, crop.width, crop.height⟩ := fun name =>
    rect_serializeRect (r := ⟨crop.x, crop.y, crop.width, crop.height⟩) hcrop.1 hcrop.2 name
  have hkeys : requireKeys (.dict (serializeRawFrameObservation observation)) "detection"
      ["detection"] = .ok () := by
    unfold requireKeys
    rw [List.filter_cons_of_neg (by rw [← Option.not_isSome, hkey]; decide), List.filter_nil]
    rfl
  have hnonneg : ∀ (n : ℤ) (name : String), 0 ≤ n →
      nonNegativeInt (.int n : Value K) name = .ok n := fun n name hn => if_neg hn.not_gt
  have hskipped : (Value.str observation.selectionOutcome.value : Value K).isText
      "detection_skipped" = decide (observation.selectionOutcome = .detectionSkipped) := by
    cases observation.selectionOutcome <;> rfl
  have hread : ∀ selected, (do
      requireKeys (.dict (serializeRawFrameObservation observation)) "detection" ["detection"]
      let detection ← nestedRect (.dict (serializeRawFrameObservation observation)) "detection"
      let frameIndex ← nonNegativeInt (.int observation.frameIndex : Value K) "frame_index"
      let timestampMs ← nonNegativeInt (.int observation.timestampMs : Value K) "timestamp_ms"
      let framingCrop ← some <$> rect (serializeCropRect crop) "framing.crop"
      let renderedCrop ← some <$> rect (serializeCropRect crop) "render.crop"
      let renderedTimestampMs ←
        some <$> nonNegativeInt (.int observation.timestampMs : Value K) "render.timestamp_ms"
      .ok
        { frameIndex := frameIndex
          timestampMs := timestampMs
          detection := detection
          selected := selected
          crop := framingCrop
          renderedCrop := renderedCrop
          renderedTimestampMs := renderedTimestampMs
          renderMappingIndependentlyVerified := false
          sourceAspectLimited := trace.sourceAspectLimited
          detectionSampled := !((Value.dict (serializeRawFrameObservation observation)).get
            "selection_outcome").isText "detection_skipped" } : Except Raised (DebugFrame K)) =
        .ok { DebugFrame.ofAnalysis observation crop trace with selected := selected } := by
    intro selected
    rw [hkeys, nestedRect_observation hdetection, houtcome, hskipped, hrect, hrect,
      hnonneg _ _ hindex, hnonneg _ _ htimestamp, hnonneg _ _ htimestamp, ← decide_not]
    rfl
  -- the selection of a record is there or not, and the rest is read the same way
  obtain ⟨frameIndex, timestampMs, detection, selectionOutcome, association⟩ := observation
  cases association with
  | none => exact hread none
  | some association => exact hread (some (association.candidates.any (·.selected)))

end Frame

end Evaluation

end BoulderFrame
