import BoulderFrame.Evaluation.PublishedBundle
import BoulderFrame.Library.Runs
import BoulderFrame.Pipeline.ReportMotion
import BoulderFrame.Pipeline.ReviewManifest

/-!
# The counts of a report

The report of a job counts the observations and the records of the planner. The manifest of a review
counts once more, from the lines of the analysis trace. Both count the same, also after the lines
have been marked, and the gaps of the report are the runs of frames without a target.

## Main definitions

* `Unavailable`: a frame without a target
* `FoundAt`: the loop over observations and measurements after the first of them
* `Tells`: a line still has what the summaries read of a record

## Main results

* `detectionStep_foundAt`: what one frame does
* `detectionLoop`: the counts and the gaps of all frames
* `reviewSummary_told`: the summaries of the lines are those of the records
* `report_story`: the report and the summaries agree
-/

namespace BoulderFrame

open Runs

namespace ProcessingPipeline

variable {K : Type}

/-! ## The counts and the gaps -/

section Gaps

variable (observations : List (RawFrameObservation K)) (measurements : List (FrameMeasurement K))
  (time : ℕ → ℤ)

/-- The camera has no target on a frame. -/
def Unavailable (i : ℕ) : Prop := ∃ m ∈ measurements[i]?, m.detectorBounds = none

instance : DecidablePred (Unavailable measurements) := fun i =>
  decidable_of_iff (measurements[i]?.any (·.detectorBounds.isNone) = true) <| by
    unfold Unavailable
    cases measurements[i]? with
    | none => simp
    | some m => simp

/-- The length of a gap. -/
def gapMs (run : ℕ × ℕ) : ℤ := time run.2 - time run.1

/-- The loop over observations and measurements, after the first of them. -/
structure FoundAt (i : ℕ) (st : DetectionState) : Prop where
  outcomes : ∀ outcome, st.outcomes outcome =
    (observations.take i).countP fun o => decide (o.selectionOutcome = outcome)
  detected : st.detected = (observations.take i).countP (·.detection.isSome)
  unavailable : st.unavailable = (measurements.take i).countP (·.detectorBounds.isNone)
  gapCount : st.gapCount = (runs (Unavailable measurements) i).length
  longestGapMs : st.longestGapMs = longest (gapMs time) (closedRuns (Unavailable measurements) i)
  gapStart : st.gapStart = (openRun (Unavailable measurements) i).map time

variable {observations measurements time}

theorem gapStep_counts (st : DetectionState) (t : ℤ) (available : Bool) :
    (gapStep st t available).outcomes = st.outcomes ∧
      (gapStep st t available).detected = st.detected := by
  unfold gapStep
  cases available <;> cases st.gapStart <;> exact ⟨rfl, rfl⟩

/-- A gap starts, goes on or ends. -/
theorem gapStep_foundAt {i : ℕ} {st : DetectionState} {m : FrameMeasurement K}
    (hm : measurements[i]? = some m)
    (hcount : st.gapCount = (runs (Unavailable measurements) i).length)
    (hlongest : st.longestGapMs =
      longest (gapMs time) (closedRuns (Unavailable measurements) i))
    (hstart : st.gapStart = (openRun (Unavailable measurements) i).map time) :
    let next := gapStep st (time i) m.detectorBounds.isSome
    next.unavailable = st.unavailable + (if m.detectorBounds.isNone then 1 else 0) ∧
      next.gapCount = (runs (Unavailable measurements) (i + 1)).length ∧
      next.longestGapMs = longest (gapMs time) (closedRuns (Unavailable measurements) (i + 1)) ∧
      next.gapStart = (openRun (Unavailable measurements) (i + 1)).map time := by
  have hiff : Unavailable measurements i ↔ m.detectorBounds = none := by
    unfold Unavailable
    rw [hm]
    simp
  dsimp only
  rw [runs, List.length_append] at hcount
  unfold gapStep
  cases hbounds : m.detectorBounds with
  | none =>
    have hp : Unavailable measurements i := hiff.mpr hbounds
    rw [runs, closedRuns, openRun, if_pos hp, if_pos hp]
    cases hopen : openRun (Unavailable measurements) i with
    | none =>
      rw [hopen] at hcount hstart
      rw [hstart]
      exact ⟨rfl, by simp [hcount], hlongest, rfl⟩
    | some start =>
      rw [hopen] at hcount hstart
      rw [hstart]
      exact ⟨rfl, by simp [hcount], hlongest, rfl⟩
  | some box =>
    have hp : ¬ Unavailable measurements i := fun h => by simp [hiff, hbounds] at h
    rw [runs, closedRuns, openRun, if_neg hp, if_neg hp]
    cases hopen : openRun (Unavailable measurements) i with
    | none =>
      rw [hopen] at hcount hstart
      rw [hstart]
      exact ⟨(add_zero _).symm, by simpa using hcount, by simpa using hlongest, hstart⟩
    | some start =>
      rw [hopen] at hcount hstart
      rw [hstart, longest_append, ← hlongest]
      exact ⟨(add_zero _).symm, by simpa using hcount, rfl, rfl⟩

/-- **One frame** after another. -/
theorem detectionStep_foundAt {i : ℕ} {st : DetectionState} {o : RawFrameObservation K}
    {m : FrameMeasurement K} (ho : observations[i]? = some o) (hm : measurements[i]? = some m)
    (htime : o.timestampMs = time i) (h : FoundAt observations measurements time i st) :
    FoundAt observations measurements time (i + 1) (detectionStep st o m) := by
  have hcountP : ∀ p : RawFrameObservation K → Bool, (observations.take (i + 1)).countP p =
      (observations.take i).countP p + if p o then 1 else 0 := fun p => by
    rw [List.take_add_one, ho, Option.toList_some, List.countP_append, List.countP_singleton]
  have hmissed : (measurements.take (i + 1)).countP (·.detectorBounds.isNone) =
      (measurements.take i).countP (·.detectorBounds.isNone) +
        if m.detectorBounds.isNone then 1 else 0 := by
    rw [List.take_add_one, hm, Option.toList_some, List.countP_append, List.countP_singleton]
  set counted : DetectionState :=
    { st with
      outcomes := Function.update st.outcomes o.selectionOutcome
        (st.outcomes o.selectionOutcome + 1)
      detected := st.detected + if o.detection.isSome then 1 else 0 } with hcounted
  obtain ⟨houtcomes, hdetected⟩ := gapStep_counts counted (time i) m.detectorBounds.isSome
  obtain ⟨hunavailable, hgaps⟩ := @gapStep_foundAt K measurements time i counted m hm h.gapCount
    h.longestGapMs h.gapStart
  have hstep : detectionStep st o m = gapStep counted (time i) m.detectorBounds.isSome := by
    rw [detectionStep, htime]
  rw [hstep]
  refine ⟨fun outcome => ?_, ?_, ?_, hgaps.1, hgaps.2.1, hgaps.2.2⟩
  · rw [houtcomes, hcountP, hcounted]
    dsimp only
    by_cases heq : o.selectionOutcome = outcome
    · rw [heq, Function.update_self, h.outcomes, decide_eq_true rfl, if_pos rfl]
      push_cast
      rfl
    · rw [Function.update_of_ne (Ne.symm heq), h.outcomes, decide_eq_false heq,
        if_neg Bool.false_ne_true, add_zero]
  · rw [hdetected, hcountP, hcounted]
    dsimp only
    rw [h.detected]
    push_cast
    rfl
  · rw [hunavailable, hmissed, hcounted]
    dsimp only
    rw [h.unavailable]
    push_cast
    rfl

/-- **The loop** counts all frames, and its gaps are the runs of frames without a target. -/
theorem detectionLoop (hlen : observations.length = measurements.length)
    {metadata : MediaMetadata} (hgrid : ∀ i : ℕ, metadata.timestampForFrame i = .ok (time i))
    (htimes : ∀ i o, observations[i]? = some o → o.timestampMs = time i) :
    ∃ st longestGapMs, foldStrict (fun st observation measurement =>
        .ok (detectionStep st observation measurement)) .initial observations measurements =
          .ok st ∧
      finalGapMs metadata observations.length st = .ok longestGapMs ∧
      (∀ outcome, st.outcomes outcome =
        observations.countP fun o => decide (o.selectionOutcome = outcome)) ∧
      st.detected = observations.countP (·.detection.isSome) ∧
      st.unavailable = measurements.countP (·.detectorBounds.isNone) ∧
      st.gapCount = (runs (Unavailable measurements) observations.length).length ∧
      longestGapMs = longest (gapMs time) (runs (Unavailable measurements) observations.length) := by
  have hinitial : FoundAt observations measurements time 0 .initial :=
    ⟨fun _ => rfl, rfl, rfl, rfl, rfl, rfl⟩
  obtain ⟨st, hst, hfound⟩ := foldStrict_induction (FoundAt observations measurements time) hinitial
    (fun i st o m ho hm h => ⟨_, rfl, detectionStep_foundAt ho hm (htimes i o ho) h⟩) hlen
  obtain ⟨houtcomes, hdetected, hunavailable, hgapCount, hlongest, hstart⟩ := hfound
  rw [List.take_length] at hdetected
  rw [hlen, List.take_length] at hunavailable
  simp only [List.take_length] at houtcomes
  refine ⟨st, longest (gapMs time) (runs (Unavailable measurements) observations.length), hst, ?_,
    houtcomes, hdetected, hunavailable, hgapCount, rfl⟩
  rw [finalGapMs, hstart, hlongest, runs, longest_append]
  cases openRun (Unavailable measurements) observations.length with
  | none => rfl
  | some start =>
    rw [Option.map_some, hgrid]
    rfl

end Gaps

/-! ## What the summaries read of a line -/

section Lines

variable [Zero K] [DecidableEq K]

/-- The line still has what the summaries read of the record. -/
structure Tells (record line : Value K) : Prop where
  wellFormed : line.WellFormed
  skipped : skippedRecord line = skippedRecord record
  detected : detectedRecord line = detectedRecord record
  isBool : ∀ key b, ((decisionOf line).get key).isBool b = ((decisionOf record).get key).isBool b
  truthy : ∀ key, ((decisionOf line).get key).truthy = ((decisionOf record).get key).truthy

variable {record line : Value K}

theorem Tells.refl (h : record.WellFormed) : Tells record record :=
  ⟨h, rfl, rfl, fun _ _ => rfl, fun _ => rfl⟩

omit [Zero K] [DecidableEq K] in
theorem decisionOf_sortKeys (h : line.WellFormed) :
    decisionOf line.sortKeys = (decisionOf line).sortKeys := by
  rw [decisionOf, Value.get_sortKeys h, Value.get_sortKeys (h.get _)]
  rfl

/-- Sorting keeps it. -/
theorem Tells.sortKeys (h : Tells record line) : Tells record line.sortKeys := by
  have hwf := h.wellFormed
  have hdecision : (decisionOf line).WellFormed := (hwf.get _).get _
  refine ⟨hwf.sortKeys, ?_, ?_, fun key b => ?_, fun key => ?_⟩
  · rw [← h.skipped, skippedRecord, Value.get_sortKeys hwf, Value.get_sortKeys (hwf.get _),
      Value.isText_sortKeys]
    rfl
  · rw [← h.detected, detectedRecord, Value.get_sortKeys hwf, Value.get_sortKeys (hwf.get _),
      Value.get_sortKeys ((hwf.get _).get _), detectedRecord]
    cases ((line.get "detection").get "detection").get "bounds" <;> rfl
  · rw [decisionOf_sortKeys hwf, Value.get_sortKeys hdecision, Value.isBool_sortKeys, h.isBool]
  · rw [decisionOf_sortKeys hwf, Value.get_sortKeys hdecision, Value.truthy_sortKeys, h.truthy]

omit [Zero K] [DecidableEq K] in
theorem get_markRecord {key : String} (hkey : key ≠ "render") :
    (markRecord line).get key = line.get key := by
  unfold markRecord
  split
  · split
    · rw [Value.get, Value.field_dict, Value.lookup_setField_of_ne hkey]
      rfl
    · rfl
  · rfl

omit [Zero K] [DecidableEq K] in
theorem wellFormed_markRecord (h : line.WellFormed) : (markRecord line).WellFormed := by
  unfold markRecord
  split
  · split
    · rename_i render hrender
      exact h.setField ((h.field hrender).setField (.bool true))
    · exact h
  · exact h

/-- **Marking** a record as validated keeps it. -/
theorem Tells.markRecord (h : Tells record line) : Tells record (markRecord line) := by
  obtain ⟨hwf, hskipped, hdetected, hisBool, htruthy⟩ := h
  have hdetection : (ProcessingPipeline.markRecord line).get "detection" = line.get "detection" :=
    get_markRecord (by decide)
  have hframing : (ProcessingPipeline.markRecord line).get "framing" = line.get "framing" :=
    get_markRecord (by decide)
  refine ⟨wellFormed_markRecord hwf, ?_, ?_, ?_, ?_⟩
  · rwa [skippedRecord, hdetection]
  · rwa [detectedRecord, hdetection]
  · rwa [decisionOf, hframing]
  · rwa [decisionOf, hframing]

/-! ## The lines of a trace -/

variable {records lines written : List (Value K)} {textSize : LinesSize K} {maxBytes : ℤ}

theorem countRecords_told (h : List.Forall₂ Tells records lines) {test : Value K → Bool}
    (htest : ∀ record line, Tells record line → test line = test record) :
    countRecords lines test = countRecords records test := by
  rw [countRecords, countRecords]
  induction h with
  | nil => rfl
  | cons htells _ ih =>
    rw [List.countP_cons, List.countP_cons, htest _ _ htells]
    push_cast
    rw [ih]

/-- **The summaries** of the lines are those of the records. -/
theorem reviewSummary_told (h : List.Forall₂ Tells records lines) (phase : String)
    (hphase : phase = "detection" ∨ phase = "framing") :
    reviewSummary lines phase = reviewSummary records phase := by
  have hlength : (lines.length : ℤ) = records.length := by rw [h.length_eq]
  have hskipped := countRecords_told h fun _ _ htells => htells.skipped
  have hdetected := countRecords_told h fun _ _ htells => htells.detected
  have hisBool := fun key b =>
    countRecords_told h fun _ _ (htells : Tells _ _) => htells.isBool key b
  have htruthy := fun key => countRecords_told h fun _ _ (htells : Tells _ _) => htells.truthy key
  obtain rfl | rfl := hphase
  · simp only [reviewSummary, if_true, hlength, hskipped, hdetected]
  · simp only [reviewSummary, if_true, if_neg (show ¬ "framing" = "detection" by decide), hlength,
      hisBool, htruthy]

theorem told_written (h : List.Forall₂ Tells records lines)
    (hwritten : writeLines textSize maxBytes [] lines = .ok written) :
    List.Forall₂ Tells records written := by
  rw [Evaluation.writeLines_eq_ok hwritten, List.nil_append, List.forall₂_map_right_iff]
  exact h.imp fun _ _ htells => htells.sortKeys

theorem told_markRenderValidated (h : List.Forall₂ Tells records lines) (n : ℕ) :
    List.Forall₂ Tells records ((markRenderValidated textSize · maxBytes)^[n] lines) := by
  induction n generalizing lines with
  | zero => exact h
  | succ n ih =>
    refine ih ?_
    change List.Forall₂ Tells records (markRenderValidated textSize lines maxBytes)
    unfold markRenderValidated
    split
    · rename_i written hwritten
      refine told_written (List.forall₂_map_right_iff.mpr ?_) hwritten
      exact h.imp fun _ _ htells => htells.markRecord
    · exact h

/-! ## The records of an analysis -/

omit [Zero K] [DecidableEq K] in
theorem skippedRecord_frameTraceRecord (observation : RawFrameObservation K)
    (measurement : FrameMeasurement K) (crop : CropRect K) (trace : Option (PlannerTrace K)) :
    skippedRecord (frameTraceRecord observation measurement crop trace) =
      decide (observation.selectionOutcome = .detectionSkipped) := by
  change Value.isText _ (.str observation.selectionOutcome.value) = _
  cases observation.selectionOutcome <;> rfl

omit [Zero K] [DecidableEq K] in
theorem detectedRecord_frameTraceRecord (observation : RawFrameObservation K)
    (measurement : FrameMeasurement K) (crop : CropRect K) (trace : Option (PlannerTrace K)) :
    detectedRecord (frameTraceRecord observation measurement crop trace) =
      observation.detection.isSome := by
  have hget : (frameTraceRecord observation measurement crop trace).get "detection" =
      .dict (serializeRawFrameObservation observation) := rfl
  rw [detectedRecord, hget, (Evaluation.field_observation observation).1]
  cases observation.detection <;> rfl

omit [Zero K] [DecidableEq K] in
theorem decisionOf_frameTraceRecord (observation : RawFrameObservation K)
    (measurement : FrameMeasurement K) (crop : CropRect K) (trace : PlannerTrace K) :
    decisionOf (frameTraceRecord observation measurement crop (some trace)) =
      serializePlannerTrace trace :=
  rfl

end Lines

section Story

variable {analysis : ShotAnalysis K}
  (hm : analysis.measurements.length = analysis.observations.length)
  (hc : analysis.plan.crops.length = analysis.observations.length)
  (ht : analysis.plan.trace.length = analysis.observations.length)

include hm hc ht in
/-- A count over the records, by what it says of the observations. -/
theorem countRecords_observations {test : Value K → Bool} {f : RawFrameObservation K → Bool}
    (htest : ∀ observation measurement crop trace,
      test (frameTraceRecord observation measurement crop trace) = f observation) :
    countRecords (Evaluation.analysisRecords analysis) test = analysis.observations.countP f := by
  have hobservations : (analysis.observations.zip (analysis.measurements.zip
      (analysis.plan.crops.zip analysis.plan.trace))).map Prod.fst = analysis.observations :=
    List.map_fst_zip (by simp [hm, hc, ht])
  rw [countRecords, Evaluation.analysisRecords_eq, List.countP_map]
  conv_rhs => rw [← hobservations, List.countP_map]
  refine congrArg Nat.cast (List.countP_congr fun q _ => ?_)
  rw [Function.comp_apply, htest]
  rfl

include hm hc ht in
/-- A count over the records, by what it says of the records of the planner. -/
theorem countRecords_decisions {key : String} {test : Value K → Bool}
    {f : LookaheadPlannerFrameTrace K → Bool}
    (htest : ∀ trace, test ((serializePlannerTrace (.inr trace)).get key) = f trace) :
    countRecords (Evaluation.analysisRecords analysis)
      (fun record => test ((decisionOf record).get key)) = analysis.plan.trace.countP f := by
  have htrace : (analysis.observations.zip (analysis.measurements.zip
      (analysis.plan.crops.zip analysis.plan.trace))).map (fun q => q.2.2.2) =
        analysis.plan.trace := by
    have hinner : (analysis.plan.crops.zip analysis.plan.trace).map Prod.snd =
        analysis.plan.trace := List.map_snd_zip (by rw [hc, ht])
    have hmiddle : (analysis.measurements.zip (analysis.plan.crops.zip analysis.plan.trace)).map
        Prod.snd = analysis.plan.crops.zip analysis.plan.trace :=
      List.map_snd_zip (by simp [hm, hc, ht])
    have houter : (analysis.observations.zip (analysis.measurements.zip
        (analysis.plan.crops.zip analysis.plan.trace))).map Prod.snd =
          analysis.measurements.zip (analysis.plan.crops.zip analysis.plan.trace) :=
      List.map_snd_zip (by simp [hm, hc, ht])
    conv_rhs => rw [← hinner, ← hmiddle, ← houter, List.map_map, List.map_map]
    rfl
  rw [countRecords, Evaluation.analysisRecords_eq, List.countP_map]
  conv_rhs => rw [← htrace, List.countP_map]
  refine congrArg Nat.cast (List.countP_congr fun q _ => ?_)
  rw [Function.comp_apply, decisionOf_frameTraceRecord, htest]
  rfl

theorem isBool_bool (b : Bool) : (Value.bool (K := K) b).isBool true = b := Bool.decide_eq_true

theorem isBool_serializeFlag (flag : Option Bool) :
    (serializeFlag (K := K) flag).isBool false = (flag == some false) := by
  cases flag with
  | none => rfl
  | some b => cases b <;> rfl

/-- The counts of the detections that the report and the summary share. -/
def sharedDetectionCounts : List String :=
  ["frames", "sampled_frames", "skipped_frames", "detected_frames", "missed_frames"]

/-- The counts of the framing that they share, under the names of both. -/
def sharedFramingCounts : List (String × String) :=
  [("sampled_detection_constraint_frames", "sampled_detection_constraint_frames"),
    ("sampled_detection_uncontained_frames", "sampled_detection_uncontained_frames"),
    ("held_target_outside_crop_frames", "held_target_outside_crop_frames"),
    ("pan_speed_limit_exceeded_frames", "pan_speed_limit_exceeded_frames"),
    ("pan_acceleration_limit_exceeded_frames", "pan_acceleration_limit_exceeded_frames"),
    ("containment_override_frames", "containment_override_frames"),
    ("source_aspect_limited_frames", "source_aspect_limited_frames"),
    ("unavailable_target_frames", "unavailable_detection_frames")]

/-- Two objects have one count, each under its own name. -/
def SharesCount (left right : Value K) (names : String × String) : Prop :=
  ∃ n : ℤ, left.get names.1 = .int n ∧ right.get names.2 = .int n

section Shared

variable [Zero K] [DecidableEq K] {report : AnalysisReport K} {lines : List (Value K)}

theorem sharesCount_detection (hframes : report.frames = lines.length)
    (hsampled : report.sampled = report.frames - report.skipped)
    (hskipped : report.skipped = countRecords lines skippedRecord)
    (hdetected : report.detected = countRecords lines detectedRecord)
    (hmissed : report.missed = report.sampled - report.detected) :
    ∀ name ∈ sharedDetectionCounts, SharesCount report.detectionValue
      (.dict (reviewSummary lines "detection")) (name, name) := by
  simp only [sharedDetectionCounts, List.forall_mem_cons, List.not_mem_nil, false_implies,
    implies_true, and_true]
  refine ⟨⟨_, rfl, ?_⟩, ⟨_, rfl, ?_⟩, ⟨_, rfl, ?_⟩, ⟨_, rfl, ?_⟩, ⟨_, rfl, ?_⟩⟩
  · exact congrArg Value.int hframes.symm
  · rw [hsampled, hframes, hskipped]
    rfl
  · rw [hskipped]
    rfl
  · rw [hdetected]
    rfl
  · rw [hmissed, hsampled, hframes, hskipped, hdetected]
    rfl

/-- What a count of the summary reads of the decisions. -/
def decisionCount (lines : List (Value K)) (key : String) (test : Value K → Bool) : ℤ :=
  countRecords lines fun record => test ((decisionOf record).get key)

theorem sharesCount_framing {counts : FramingCounts} (hcounts : report.counts = some counts)
    (hconstrained : counts.constrained =
      decisionCount lines "sampled_detection_constraint" (·.isBool true))
    (huncontained : counts.uncontained =
      decisionCount lines "sampled_detection_contained" (·.isBool false))
    (hheld : counts.heldOutside = decisionCount lines "held_target_contained" (·.isBool false))
    (hspeed : counts.speedExceeded =
      decisionCount lines "pan_speed_limit_exceeded" (·.isBool true))
    (hacceleration : counts.accelerationExceeded =
      decisionCount lines "pan_acceleration_limit_exceeded" (·.isBool true))
    (hoverride : counts.containmentOverride =
      decisionCount lines "containment_override" (·.truthy))
    (hlimited : counts.sourceAspectLimited =
      decisionCount lines "source_aspect_limited" (·.truthy))
    (hunavailable : report.unavailable = decisionCount lines "detection_missed" (·.truthy)) :
    ∀ names ∈ sharedFramingCounts, SharesCount report.framingValue
      (.dict (reviewSummary lines "framing")) names := by
  unfold AnalysisReport.framingValue
  rw [hcounts]
  simp only [sharedFramingCounts, List.forall_mem_cons, List.not_mem_nil, false_implies,
    implies_true, and_true]
  refine ⟨⟨_, rfl, ?_⟩, ⟨_, rfl, ?_⟩, ⟨_, rfl, ?_⟩, ⟨_, rfl, ?_⟩, ⟨_, rfl, ?_⟩, ⟨_, rfl, ?_⟩,
    ⟨_, rfl, ?_⟩, ⟨_, rfl, ?_⟩⟩
  · exact congrArg Value.int hconstrained.symm
  · exact congrArg Value.int huncontained.symm
  · exact congrArg Value.int hheld.symm
  · exact congrArg Value.int hspeed.symm
  · exact congrArg Value.int hacceleration.symm
  · exact congrArg Value.int hoverride.symm
  · exact congrArg Value.int hlimited.symm
  · exact congrArg Value.int hunavailable.symm

end Shared

end Story

section Main

variable [Field K] [LinearOrder K] [IsStrictOrderedRing K] [Elementary K] {Pixels : Type}
  {hypot : K → K → K} {linprog : Linprog K} {captureEvidence : Bool}
  {detect : Pixels → Except Raised (List (Detection K))} {shot : ShotInputs K}
  {stream : FrameStream Pixels} {analysis : ShotAnalysis K} {textSize : LinesSize K}
  {maxFrames maxBytes : ℤ} {trace : List (Value K)}

omit [IsStrictOrderedRing K] [Elementary K] in
/-- The written lines have what the summaries read of the records. -/
theorem told_writeAnalysisTrace
    (htrace : writeAnalysisTrace textSize analysis.observations analysis.measurements
      analysis.plan.crops (analysis.plan.trace.map fun trace => some (.inr trace)) maxFrames
      maxBytes = .ok trace) :
    List.Forall₂ Tells (Evaluation.analysisRecords analysis) trace := by
  obtain ⟨-, hlines⟩ := Except.ok_of_guard htrace
  obtain ⟨-, hlines⟩ := Except.ok_of_guard hlines
  refine told_written (List.forall₂_same.mpr fun record hrecord => ?_) hlines
  obtain ⟨⟨observation, measurement, crop, plannerTrace⟩, -, rfl⟩ := List.mem_map.mp hrecord
  exact .refl (Evaluation.legible_frameTraceRecord observation measurement crop
    plannerTrace).wellFormed

/-- **The report and the summaries of a review tell the same story.** They share their counts; the
samples and the skipped frames are all frames, the detections and the misses all samples; and the
gaps are the maximal runs of frames without a target, each as long as the time to the frame after
it, or to the end of the frame grid. -/
theorem report_story (hshot : shot.metadata.Valid)
    (h : analyzeShot hypot linprog captureEvidence detect shot stream = .ok analysis)
    (htrace : writeAnalysisTrace textSize analysis.observations analysis.measurements
      analysis.plan.crops (analysis.plan.trace.map fun trace => some (.inr trace)) maxFrames
      maxBytes = .ok trace) (marks : ℕ) :
    ∃ (report : AnalysisReport K) (time : ℕ → ℤ),
      analysisReport analysis.observations analysis.measurements analysis.plan.crops
        (some (analysis.plan.trace.map .inr)) shot.metadata = .ok report ∧
      (∀ name ∈ sharedDetectionCounts, SharesCount report.detectionValue
        (.dict (reviewSummary ((markRenderValidated textSize · maxBytes)^[marks] trace)
          "detection")) (name, name)) ∧
      (∀ names ∈ sharedFramingCounts, SharesCount report.framingValue
        (.dict (reviewSummary ((markRenderValidated textSize · maxBytes)^[marks] trace)
          "framing")) names) ∧
      report.sampled + report.skipped = shot.metadata.expectedFrameCount ∧
      report.detected + report.missed = report.sampled ∧
      (∀ i : ℕ, shot.metadata.timestampForFrame i = .ok (time i)) ∧
      report.gapCount = {run : ℕ × ℕ | IsRun (Unavailable analysis.measurements)
        analysis.observations.length run.1 run.2}.ncard ∧
      ((∀ i j, ¬ IsRun (Unavailable analysis.measurements) analysis.observations.length i j) →
        report.longestGapMs = 0) ∧
      ((∃ i j, IsRun (Unavailable analysis.measurements) analysis.observations.length i j) →
        IsGreatest {ms | ∃ i j, IsRun (Unavailable analysis.measurements)
          analysis.observations.length i j ∧ ms = time j - time i} report.longestGapMs) := by
  obtain ⟨-, detections, observations, -, hexpected, hne, hobserved, hplanned⟩ :=
    analyzeShot_planned hshot.frameRate_pos.le h
  obtain ⟨time, hmono, hgrid⟩ := hshot.exists_time
  obtain ⟨P, seed, hdims, hseedPlan, hseed, hcrops, hplanTrace, hdts, hpos⟩ :=
    planShot_trace hne hplanned
  obtain ⟨hsame, hmeasurements, -⟩ := planShot_eq_ok hne hplanned
  obtain ⟨pan, hpan, -⟩ := planShot_panLoop (S := ⟨_, _, 0, 0, 0, 0⟩) hne hplanned hdims hcrops hdts
    hpos rfl rfl
  have hm : analysis.measurements.length = observations.length := by
    rw [hmeasurements, plannerMeasurements_length]
  have htimes : ∀ i o, observations[i]? = some o → o.timestampMs = time i := fun i o ho =>
    Except.ok.inj ((hobserved i o ho).timestamp_eq.symm.trans (hgrid i))
  obtain ⟨found, longestGapMs, hfound, hgap, houtcomes, hdetected, hunavailable, hcount, hlongest⟩ :=
    detectionLoop hm.symm hgrid htimes
  have htold : List.Forall₂ Tells (Evaluation.analysisRecords analysis)
      ((markRenderValidated textSize · maxBytes)^[marks] trace) :=
    told_markRenderValidated (told_writeAnalysisTrace htrace) marks
  rw [reviewSummary_told htold "detection" (.inl rfl), reviewSummary_told htold "framing" (.inr rfl)]
  have hc : analysis.plan.crops.length = observations.length := hcrops.trans hm
  have ht : analysis.plan.trace.length = observations.length := by
    rw [hplanTrace, LookaheadCropPlanner.traces_length hcrops hseed, hm]
  rw [← hsame] at hm hc ht
  have hlines : (Evaluation.analysisRecords analysis).length = observations.length := by
    rw [Evaluation.analysisRecords_eq, List.length_map]
    simp [hm, hc, ht, hsame]
  -- what the summaries count, by observations and by the records of the planner
  have hskipped := countRecords_observations hm hc ht skippedRecord_frameTraceRecord
  have hfresh := countRecords_observations hm hc ht detectedRecord_frameTraceRecord
  have hbool : ∀ key b f,
      (∀ t, ((serializePlannerTrace (K := K) (.inr t)).get key).isBool b = f t) →
        decisionCount (Evaluation.analysisRecords analysis) key (·.isBool b) =
          analysis.plan.trace.countP f := fun _ _ _ hf => countRecords_decisions hm hc ht hf
  have htruthy : ∀ key f,
      (∀ t, ((serializePlannerTrace (K := K) (.inr t)).get key).truthy = f t) →
        decisionCount (Evaluation.analysisRecords analysis) key (·.truthy) =
          analysis.plan.trace.countP f := fun _ _ hf => countRecords_decisions hm hc ht hf
  rw [hsame] at hskipped hfresh hm
  have hmissed : analysis.plan.trace.countP (·.detectionMissed) =
      analysis.measurements.countP (·.detectorBounds.isNone) := by
    have hmap := (congrArg (List.map (·.detectionMissed)) hplanTrace).trans
      ((LookaheadCropPlanner.traces_missed hcrops hseed).trans (DeterministicCropPlanner.plan_missed hseedPlan))
    have := congrArg (List.countP id) hmap
    rwa [List.countP_map, List.countP_map] at this
  rw [hsame]
  refine ⟨.of observations.length found longestGapMs pan (some (analysis.plan.trace.map .inr)), time,
    ?_, ?_, ?_, ?_, ?_, hgrid, ?_, ?_⟩
  · rw [analysisReport, hfound, Except.ok_bind, hgap, Except.ok_bind, hpan, Except.ok_bind]
  · refine sharesCount_detection ?_ rfl ?_ ?_ rfl
    · exact congrArg Nat.cast hlines.symm
    · exact (houtcomes _).trans hskipped.symm
    · exact hdetected.trans hfresh.symm
  · have hcounted : ∀ test : LookaheadPlannerFrameTrace K → Bool,
        countLookahead (analysis.plan.trace.map .inr) test = analysis.plan.trace.countP test :=
      fun test => congrArg Nat.cast List.countP_map
    have helim : ∀ (left : PlannerFrameTrace K → Bool) (right : LookaheadPlannerFrameTrace K → Bool),
        (analysis.plan.trace.map Sum.inr).countP (fun t => t.elim left right) =
          analysis.plan.trace.countP right := fun left right => List.countP_map
    refine sharesCount_framing rfl ?_ ?_ ?_ ?_ ?_ ?_ ?_ ?_
    · exact (hcounted _).trans
        (hbool "sampled_detection_constraint" true (·.sampledDetectionConstraint) fun _ => isBool_bool _).symm
    · exact (hcounted _).trans (hbool _ _ _ fun t => isBool_serializeFlag _).symm
    · exact (hcounted _).trans (hbool _ _ _ fun t => isBool_serializeFlag _).symm
    · exact (hcounted _).trans
        (hbool "pan_speed_limit_exceeded" true (·.panSpeedLimitExceeded) fun _ => isBool_bool _).symm
    · exact (hcounted _).trans
        (hbool "pan_acceleration_limit_exceeded" true (·.panAccelerationLimitExceeded) fun _ => isBool_bool _).symm
    · exact (congrArg Nat.cast (helim _ _)).trans
        (htruthy _ (·.containmentOverride) fun _ => rfl).symm
    · exact (congrArg Nat.cast (helim _ _)).trans
        (htruthy _ (·.sourceAspectLimited) fun _ => rfl).symm
    · rw [htruthy _ (·.detectionMissed) fun _ => rfl, hmissed]
      exact hunavailable
  · exact (sub_add_cancel _ _).trans hexpected
  · exact add_sub_cancel _ _
  · rw [ncard_runs]
    exact hcount
  · obtain ⟨hnone, hsome⟩ := @isGreatest_longest (Unavailable analysis.measurements) _
      observations.length ℤ _ _ (gapMs time) fun i j hrun => sub_nonneg.mpr (hmono hrun.lt.le)
    rw [← hlongest] at hnone hsome
    exact ⟨hnone, hsome⟩

end Main

section FourFrames

open Evaluation

attribute [local instance] FourFrames.elementary

/-- The box of the first frame is held on the second one; then there is none to the end. -/
theorem fourFrames_report : (do
      let analyzed ← fourFramesTrace
      let report ← analysisReport analyzed.1.observations analyzed.1.measurements
        analyzed.1.plan.crops (some (analyzed.1.plan.trace.map .inr)) FourFrames.shot.metadata
      .ok [report.sampled, report.skipped, report.detected, report.missed, report.gapCount,
        report.longestGapMs] : Except Raised (List ℤ)) = .ok [2, 2, 1, 1, 1, 66] := by decide +kernel

theorem report_story_fourFrames : ∃ analysis trace report,
    fourFramesTrace = .ok (analysis, trace) ∧
    analysisReport analysis.observations analysis.measurements analysis.plan.crops
      (some (analysis.plan.trace.map .inr)) FourFrames.shot.metadata = .ok report ∧
    [report.sampled, report.skipped, report.detected, report.missed, report.gapCount,
      report.longestGapMs] = [2, 2, 1, 1, 1, 66] ∧
    (∀ name ∈ sharedDetectionCounts, SharesCount report.detectionValue
      (.dict (reviewSummary ((markRenderValidated lineCount · 100000)^[1] trace) "detection"))
      (name, name)) ∧
    (∀ names ∈ sharedFramingCounts, SharesCount report.framingValue
      (.dict (reviewSummary ((markRenderValidated lineCount · 100000)^[1] trace) "framing")) names) ∧
    ({run : ℕ × ℕ | IsRun (Unavailable analysis.measurements) analysis.observations.length run.1
      run.2}.ncard : ℤ) = 1 := by
  obtain ⟨⟨analysis, trace⟩, hanalyzed, h⟩ := Except.bind_eq_ok.mp fourFrames_report
  obtain ⟨report, hreport, hcounts⟩ := Except.bind_eq_ok.mp h
  have hcounts := Except.ok.inj hcounts
  obtain ⟨analysis', hanalysis, h⟩ := Except.bind_eq_ok.mp hanalyzed
  obtain ⟨trace', htrace, h⟩ := Except.bind_eq_ok.mp h
  obtain ⟨rfl, rfl⟩ := Prod.mk.inj (Except.ok.inj h)
  obtain ⟨report', -, hreport', hdetection, hframing, -, -, -, hgaps, -⟩ :=
    report_story FourFrames.shot_valid hanalysis htrace 1
  obtain rfl := Except.ok.inj (hreport'.symm.trans hreport)
  have hgap : report'.gapCount = 1 := by
    simp only [List.cons.injEq] at hcounts
    exact hcounts.2.2.2.2.1
  exact ⟨_, _, report', hanalyzed, hreport, hcounts, hdetection, hframing, hgaps.symm.trans hgap⟩

end FourFrames

end ProcessingPipeline

end BoulderFrame
