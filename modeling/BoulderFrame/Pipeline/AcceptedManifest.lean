import BoulderFrame.Pipeline.ClockChecks

/-!
# The backend accepts the manifest

The worker writes the manifest of a review, and the backend decodes and checks it. They share no
schema: that the backend finds in the manifest what the worker has put there rests on the field
names, on the texts of the worker, and on the frame clock, by which the warning intervals lie within
the duration of the video.

## Main definitions

* `MediaMetadata.Rounded`: the duration in milliseconds is that of the video
* `ManifestAgrees`: a parsed manifest has the content of the written one

## Main results

* `writeReviewManifest_accepted`: a written manifest is accepted, and agrees
-/

namespace BoulderFrame

open Domain

/-! ## The duration of a video -/

namespace MediaMetadata

/-- The duration in milliseconds is that of the video, rounded, if that is known. -/
def Rounded (m : MediaMetadata) : Prop :=
  ∀ duration ∈ m.videoDuration, duration ≠ 0 → m.durationMs = roundHalfEven (duration * 1000)

theorem rounded_probed (width height : ℤ) (rate duration : ℚ) (codec : String) (rotation : ℤ)
    (audio : Option ℤ) : (probed width height rate duration codec rotation audio).Rounded := by
  rintro _ ⟨⟩ -
  rfl

variable {m : MediaMetadata}

/-- One duration gives both the milliseconds and the number of frames. -/
theorem Rounded.exists_duration (h : m.Rounded) : ∃ duration : ℚ,
    m.expectedFrameCount = roundHalfEven (duration * m.frameRate) ∧
      m.durationMs = roundHalfEven (duration * 1000) := by
  have hfallback : m.durationMs = roundHalfEven ((m.durationMs : ℚ) / 1000 * 1000) := by
    rw [div_mul_cancel₀ _ (by norm_num), roundHalfEven_intCast]
  unfold expectedFrameCount
  cases hduration : m.videoDuration with
  | none => exact ⟨_, rfl, hfallback⟩
  | some duration =>
    by_cases hzero : duration = 0
    · exact ⟨_, by simp only [if_pos hzero], hfallback⟩
    · exact ⟨_, by simp only [if_neg hzero], h duration hduration hzero⟩

/-- The times of the expected frames lie within the duration. -/
theorem Rounded.frameTime_within (h : m.Rounded) (hr : 0 < m.frameRate) {index : ℕ}
    (hindex : (index : ℤ) < m.expectedFrameCount) :
    0 ≤ frameTime m.frameRate index ∧ frameTime m.frameRate index ≤ m.durationMs := by
  obtain ⟨duration, hcount, hmilliseconds⟩ := h.exists_duration
  rw [hcount] at hindex
  exact ⟨frameTime_nonneg hr index, hmilliseconds ▸ frameTime_le_duration hr hindex⟩

end MediaMetadata

namespace ProcessingPipeline

variable {K : Type} [Field K] [LinearOrder K]

/-! ## The times of the records -/

section Times

/-- The time of a record, if it is an integer. -/
def timestampOf (record : Value K) : Option ℤ :=
  match record.get "timestamp_ms" with
  | .int timestamp => some timestamp
  | _ => none

omit [Field K] [LinearOrder K] in
theorem timestampOf_eq_some {record : Value K} {t : ℤ} :
    timestampOf record = some t ↔ record.get "timestamp_ms" = .int t := by
  unfold timestampOf
  split
  · rename_i h
    rw [h, Option.some.injEq, Value.int.injEq]
  · rename_i h
    exact iff_of_false nofun (h t)

omit [Field K] [LinearOrder K] in
/-- The records with times are on the clock of their times. -/
theorem timed_filter (records : List (Value K)) :
    Timed (records.filter fun record => (timestampOf record).isSome)
      (records.filterMap timestampOf) := by
  induction records with
  | nil => rfl
  | cons record records ih =>
    cases htime : timestampOf record with
    | none =>
      rw [List.filter_cons_of_neg (by rw [htime]; decide), List.filterMap_cons_none htime]
      exact ih
    | some t =>
      rw [List.filter_cons_of_pos (by rw [htime]; rfl), List.filterMap_cons_some htime, Timed,
        List.map_cons, List.map_cons, timestampOf_eq_some.mp htime, ih]

/-- The loop passes over the records without times. -/
theorem collectIntervals_filter {records : List (Value K)} (phase : String)
    (htimes : ∀ record ∈ records, ∀ b, record.get "timestamp_ms" ≠ .bool b) :
    collectIntervals (records.filter fun record => (timestampOf record).isSome) phase =
      collectIntervals records phase := by
  have hfold : ∀ st, (records.filter fun record => (timestampOf record).isSome).foldl
      (stepIntervals phase) st = records.foldl (stepIntervals phase) st := by
    induction records with
    | nil => exact fun _ => rfl
    | cons record records ih =>
      obtain ⟨htime, htimes⟩ := List.forall_mem_cons.mp htimes
      intro st
      cases hrecord : timestampOf record with
      | some t => rw [List.filter_cons_of_pos (by rw [hrecord]; rfl), List.foldl_cons, List.foldl_cons,
          ih htimes]
      | none =>
        have hskip : stepIntervals phase st record = st := by
          unfold stepIntervals
          split
          · rename_i t h
            rw [timestampOf_eq_some.mpr h] at hrecord
            cases hrecord
          · rename_i b h
            exact absurd h (htime b)
          · rfl
        rw [List.filter_cons_of_neg (by rw [hrecord]; decide), List.foldl_cons, hskip, ih htimes]
  rw [collectIntervals, collectIntervals, hfold]

variable {metadata : MediaMetadata} {trace records : List (Value K)}

/-- An accepted record is on the time of its frame. -/
theorem checkedRecord_eq_ok {index : ℕ} {record checked : Value K}
    (h : checkedRecord metadata index record = .ok checked) : checked = record ∧
      (record.get "timestamp_ms").equalsInt (MediaMetadata.frameTime metadata.frameRate index) := by
  unfold checkedRecord at h
  split at h
  · obtain ⟨time, htime, h⟩ := Except.bind_eq_ok.mp h
    obtain ⟨hequals, h⟩ := Except.ok_of_guard h
    rw [MediaMetadata.timestampForFrame_natCast] at htime
    rw [not_not, ← Except.ok.inj htime] at hequals
    exact ⟨(Except.ok.inj h).symm, hequals.2.2⟩
  · cases h

/-- The accepted records of a trace are its lines, one for each expected frame and on its time. -/
theorem loadAnalysisRecords_eq_ok (h : loadAnalysisRecords metadata trace = .ok records) :
    records = trace ∧ (records.length : ℤ) = metadata.expectedFrameCount ∧
      ∀ index record, records[index]? = some record → ∀ t, timestampOf record = some t →
        t = MediaMetadata.frameTime metadata.frameRate index := by
  obtain ⟨checked, hchecked, h⟩ := Except.bind_eq_ok.mp h
  obtain ⟨hcount, h⟩ := Except.ok_of_guard h
  obtain rfl := Except.ok.inj h
  obtain ⟨hlength, hall⟩ := Except.mapM_zipIdx_eq_ok.mp hchecked
  have hself : checked = trace := by
    refine List.ext_getElem hlength fun index hindex hindex' => ?_
    obtain ⟨record, hrecord, hcheck⟩ := hall index _ (List.getElem?_eq_getElem hindex')
    rw [List.getElem?_eq_getElem hindex] at hrecord
    exact (Option.some.inj hrecord).trans (checkedRecord_eq_ok hcheck).1
  subst hself
  refine ⟨rfl, not_not.mp hcount, fun index record hrecord t ht => ?_⟩
  obtain ⟨_, -, hcheck⟩ := hall index record hrecord
  have htime := (checkedRecord_eq_ok hcheck).2
  rw [timestampOf_eq_some.mp ht] at htime
  exact of_decide_eq_true htime

/-- The times of the records increase, within the duration. -/
theorem times_of_loaded (hload : loadAnalysisRecords metadata trace = .ok records)
    (hrounded : metadata.Rounded) (hrate : 0 < metadata.frameRate ∧ metadata.frameRate ≤ 1000) :
    (records.filterMap timestampOf).Pairwise (· < ·) ∧
      ∀ t ∈ records.filterMap timestampOf, 0 ≤ t ∧ t ≤ metadata.durationMs := by
  obtain ⟨-, hcount, htime⟩ := loadAnalysisRecords_eq_ok hload
  constructor
  · rw [List.pairwise_filterMap, List.pairwise_iff_getElem]
    intro i j hi hj hij t ht t' ht'
    rw [htime i _ (List.getElem?_eq_getElem hi) t ht, htime j _ (List.getElem?_eq_getElem hj) t' ht']
    exact MediaMetadata.strictMono_frameTime hrate.1 hrate.2 hij
  · intro t hmem
    obtain ⟨record, hrecord, ht⟩ := List.mem_filterMap.mp hmem
    obtain ⟨index, hindex⟩ := List.getElem?_of_mem hrecord
    rw [htime index record hindex t ht]
    obtain ⟨hlt, -⟩ := List.getElem?_eq_some_iff.mp hindex
    exact hrounded.frameTime_within hrate.1 (by omega)

end Times

/-! ## The warning intervals -/

section Intervals

/-- The labels of the warnings, with their details. -/
def warningTexts : List (String × String) :=
  [("Detection unavailable", "No detector bounds were recorded."),
    ("Held detection unavailable", "Crop widened until a successful detection sample."),
    ("Source/aspect limited", "The largest valid crop cannot contain this detector box."),
    ("Pan speed limit exceeded",
      "Sampled detection containment requires motion above the pan speed limit."),
    ("Pan acceleration limit exceeded",
      "Sampled detection containment requires motion above the pan acceleration limit."),
    ("Held target outside crop",
      "A stale held target is guidance, not a fresh sampled containment constraint.")]

omit [LinearOrder K] in
theorem reviewWarnings_subset [DecidableEq K] (phase : String) (record : Value K) :
    reviewWarnings phase record ⊆ warningTexts := by
  have hwarning : ∀ (active : Bool) (label detail : String), (label, detail) ∈ warningTexts →
      (if active then [(label, detail)] else []) ⊆ warningTexts := by
    rintro (_ | _) label detail hmem
    · exact List.nil_subset _
    · exact List.cons_subset.mpr ⟨hmem, List.nil_subset _⟩
  unfold reviewWarnings
  dsimp only
  by_cases hdetection : phase = "detection"
  · rw [if_pos hdetection]
    exact hwarning _ _ _ (by decide)
  rw [if_neg hdetection]
  by_cases hframing : phase = "framing"
  · rw [if_pos hframing]
    simp only [List.append_subset]
    refine ⟨⟨⟨⟨?_, ?_⟩, ?_⟩, ?_⟩, ?_⟩ <;> exact hwarning _ _ _ (by decide)
  · rw [if_neg hframing]
    exact List.nil_subset _

/-- The backend shows the texts of the warnings. -/
theorem safe_warningTexts : ∀ texts ∈ warningTexts,
    safeManifestText texts.1 120 ∧ safeManifestText texts.2 500 := by
  decide +kernel

/-- An interval, as the backend decodes it. -/
def WarningSpan.toRaw (span : WarningSpan) : RawInterval :=
  ⟨some span.startMs, some span.endMs, span.label, span.detail⟩

/-- An interval, as the backend reports it. -/
def WarningSpan.toWarning (span : WarningSpan) : WarningInterval :=
  ⟨span.startMs, some span.endMs, span.label, span.detail⟩

/-- An interval of the frame clock with the texts of a warning. -/
structure WarningSpan.Within (durationMs : ℤ) (span : WarningSpan) : Prop where
  start_nonneg : 0 ≤ span.startMs
  start_le : span.startMs ≤ span.endMs
  end_le : span.endMs ≤ durationMs
  texts : (span.label, span.detail) ∈ warningTexts

theorem WarningSpan.Within.valid {durationMs : ℤ} {span : WarningSpan}
    (h : span.Within durationMs) :
    validWarningInterval durationMs span.toRaw = some span.toWarning := by
  obtain ⟨hlabel, hdetail⟩ := safe_warningTexts _ h.texts
  have hsome := (isSome_validWarningInterval h.start_nonneg h.start_le h.end_le).mpr
    ⟨hlabel, fun _ => hdetail⟩
  obtain ⟨interval, hinterval⟩ := Option.isSome_iff_exists.mp hsome
  rw [WarningSpan.toRaw, hinterval]
  unfold validWarningInterval at hinterval
  exact congrArg some (Option.some.inj (Option.ite_none_left_eq_some.mp hinterval).2).symm

variable {metadata : MediaMetadata} {trace records : List (Value K)}

/-- **The intervals** of the accepted records are on the frame clock. -/
theorem intervals_of_loaded (hload : loadAnalysisRecords metadata trace = .ok records)
    (hrounded : metadata.Rounded) (hrate : 0 < metadata.frameRate ∧ metadata.frameRate ≤ 1000)
    (htimes : ∀ record ∈ records, ∀ b, record.get "timestamp_ms" ≠ .bool b) (phase : String) :
    ∃ spans : List WarningSpan, spans.length ≤ 100 ∧
      reviewWarningIntervals records phase = .ok (spans.map (·.toInterval)) ∧
      ∀ span ∈ spans, span.Within metadata.durationMs := by
  obtain ⟨hincreasing, hwithin⟩ := times_of_loaded hload hrounded hrate
  have hclock := timed_filter records
  obtain ⟨spans, hencodes, hintervals⟩ :=
    reviewWarningIntervals_encodes phase _ _ hclock hincreasing
  rw [reviewWarningIntervals, collectIntervals_filter phase htimes] at hintervals
  refine ⟨spans.take 100, List.length_take_le _ _, by rw [List.map_take]; exact hintervals,
    fun span hspan => ?_⟩
  have hspan := List.mem_of_mem_take hspan
  obtain ⟨hstart, hordered, hend⟩ := hencodes.within hclock hincreasing hwithin hspan
  refine ⟨hstart, hordered, hend, ?_⟩
  -- the interval has the texts of the record that it starts with
  obtain ⟨runs, -, hmem, hfilter⟩ := hencodes.runs span.label
  have hself := hfilter ▸ List.mem_filter.mpr ⟨hspan, decide_eq_true rfl⟩
  obtain ⟨⟨i, j⟩, hrun, heq⟩ := List.mem_map.mp hself
  have hrun := (hmem i j).mp hrun
  have hlookup := lookup_warnings phase
    (records.filter fun record => (timestampOf record).isSome) span.label i
  rw [if_pos (hrun.holds i le_rfl hrun.lt)] at hlookup
  have hdetail : span.detail = _ := congrArg WarningSpan.detail heq.symm
  rw [hdetail]
  have hwarning := List.mem_of_lookup hlookup
  rw [warningsAt] at hwarning
  cases hrecord : (records.filter fun record => (timestampOf record).isSome)[i]? with
  | none =>
    rw [hrecord] at hwarning
    cases hwarning
  | some record =>
    rw [hrecord] at hwarning
    exact reviewWarnings_subset phase record hwarning

end Intervals

/-! ## The timing -/

section Timing

open Decoder

variable [IsStrictOrderedRing K]

/-- The numbers of a manifest are far below the limit of a float. -/
theorem lt_float64Limit {x : K} (h : |x| ≤ 10 ^ 10) : |x| < float64Limit := by
  have hlow : (10 : K) ^ 10 < 2 ^ 100 := by norm_num
  have hhigh : (2 : K) ^ 100 ≤ 2 ^ 970 := pow_le_pow_right₀ one_le_two (by omega)
  have hdouble : (2 : K) ^ 970 * 2 ≤ 2 ^ 1024 := by
    rw [← pow_succ]
    exact pow_le_pow_right₀ one_le_two (by omega)
  calc
    |x| ≤ 10 ^ 10 := h
    _ < 2 ^ 970 := hlow.trans_le hhigh
    _ ≤ 2 ^ 1024 - 2 ^ 970 := by rwa [le_sub_iff_add_le, ← mul_two]

/-- What `_manifest_timing` has checked. -/
structure TimingChecked (metadata : MediaMetadata) : Prop where
  frameRate : 0 < metadata.frameRate ∧ metadata.frameRate ≤ 1000
  durationMs : 0 < metadata.durationMs ∧ metadata.durationMs ≤ maxManifestDurationMs
  frameCount : 0 < metadata.expectedFrameCount ∧ metadata.expectedFrameCount ≤ maxManifestFrameCount

theorem manifestTiming_eq_ok {metadata : MediaMetadata} {timing : List (String × Value K)}
    (h : manifestTiming exactFloat (some metadata) = .ok timing) : TimingChecked metadata ∧
      timing = [("frame_rate", .number (metadata.frameRate : K)),
        ("duration_ms", .int metadata.durationMs),
        ("frame_count", .int metadata.expectedFrameCount)] := by
  simp only [manifestTiming, exactFloat] at h
  obtain ⟨hrate, h⟩ := Except.ok_of_guard h
  obtain ⟨hduration, h⟩ := Except.ok_of_guard h
  obtain ⟨hcount, h⟩ := Except.ok_of_guard h
  obtain ⟨hpos, hle⟩ := not_not.mp hrate
  exact ⟨⟨⟨by exact_mod_cast hpos, by exact_mod_cast hle⟩, not_not.mp hduration,
    not_not.mp hcount⟩, (Except.ok.inj h).symm⟩

/-- The timing of a video, as the backend reports it. -/
def timingOf (K : Type) [Field K] (metadata : MediaMetadata) : EvaluationTiming K :=
  ⟨metadata.frameRate, metadata.durationMs, metadata.expectedFrameCount⟩

theorem decode_timing {metadata : MediaMetadata} {timing : List (String × Value K)}
    (h : manifestTiming exactFloat (some metadata) = .ok timing) : ∃ raw,
      RawTiming.decode (Value.dict timing).sortKeys ⟨none, none, none⟩ = some raw ∧
      validTiming raw = some (timingOf K metadata) := by
  obtain ⟨⟨⟨hrate, hrate'⟩, ⟨hduration, hduration'⟩, hcount, hcount'⟩, rfl⟩ := manifestTiming_eq_ok h
  have hpos : 0 < (metadata.frameRate : K) := by exact_mod_cast hrate
  have hle : (metadata.frameRate : K) ≤ 1000 := by exact_mod_cast hrate'
  have hfloat : pointer 0 float64 (.number (metadata.frameRate : K)) none =
      some (some (metadata.frameRate : K)) := by
    have hlimit : |(metadata.frameRate : K)| < float64Limit := by
      refine lt_float64Limit ?_
      rw [abs_of_pos hpos]
      linarith
    change (if _ then _ else _ : Option K).map some = _
    rw [if_pos hlimit]
    rfl
  unfold maxManifestDurationMs at hduration'
  unfold maxManifestFrameCount at hcount'
  have hsorted : (Value.dict [("frame_rate", .number (metadata.frameRate : K)),
      ("duration_ms", .int metadata.durationMs),
      ("frame_count", .int metadata.expectedFrameCount)]).sortKeys =
        .dict [("duration_ms", .int metadata.durationMs),
          ("frame_count", .int metadata.expectedFrameCount),
          ("frame_rate", .number (metadata.frameRate : K))] := by
    simp [Value.sortKeys, Value.sortKeysFields, Value.sortFields, Value.number]
  refine ⟨⟨some metadata.frameRate, some metadata.durationMs, some metadata.expectedFrameCount⟩,
    ?_, ?_⟩
  · rw [hsorted, RawTiming.decode, struct_cons rfl (part_eq (pointer_int64 (by omega) _)),
      struct_cons rfl (part_eq (pointer_int64 (by omega) _)), struct_cons rfl (part_eq hfloat)]
    rfl
  · refine if_neg ?_
    simp only [not_or, not_le, not_lt]
    exact ⟨hpos, hle, hduration, hduration', hcount, hcount'⟩

end Timing

/-! ## The summaries -/

section Summary

open Decoder

/-- The counts of a phase, as the worker writes them. -/
def summaryOf (records : List (Value K)) (phase : String) : List (String × Value K) :=
  ("trace_frame_count", .int records.length) :: reviewSummary records phase

/-- The names of the counts. -/
def summaryNames : List String :=
  ["trace_frame_count", "frames", "sampled_frames", "skipped_frames", "detected_frames",
    "missed_frames", "sampled_detection_constraint_frames", "sampled_detection_uncontained_frames",
    "held_target_outside_crop_frames", "pan_speed_limit_exceeded_frames",
    "pan_acceleration_limit_exceeded_frames", "containment_override_frames",
    "unavailable_detection_frames", "source_aspect_limited_frames", "mapping_verified_frames"]

theorem safe_summaryNames : ∀ name ∈ summaryNames,
    summaryFieldName name ∧ unsafeManifestField name = false := by
  decide +kernel

omit [Field K] [LinearOrder K] in
theorem countRecords_le (records : List (Value K)) (test : Value K → Bool) :
    0 ≤ countRecords records test ∧ countRecords records test ≤ records.length :=
  ⟨Int.natCast_nonneg _, Int.ofNat_le.mpr List.countP_le_length⟩

/-- A count of a phase. -/
def IsCount (records : List (Value K)) (field : String × Value K) : Prop :=
  field.1 ∈ summaryNames ∧ ∃ n : ℤ, field.2 = .int n ∧ |n| ≤ records.length

omit [Field K] [LinearOrder K] in
theorem isCount_of_nonneg {records : List (Value K)} {name : String} {n : ℤ}
    (hname : name ∈ summaryNames) (h : 0 ≤ n ∧ n ≤ records.length) :
    IsCount records (name, .int n) :=
  ⟨hname, n, rfl, by rw [abs_of_nonneg h.1]; exact h.2⟩

/-- **The counts** of a phase are known fields, none of them beyond the number of records. -/
theorem isCount_summaryOf (records : List (Value K)) (phase : String) :
    ∀ field ∈ summaryOf records phase, IsCount records field := by
  have hframes : (0 : ℤ) ≤ records.length ∧ (records.length : ℤ) ≤ records.length :=
    ⟨Int.natCast_nonneg _, le_rfl⟩
  have hskipped := countRecords_le records skippedRecord
  have hdetected := countRecords_le records detectedRecord
  unfold summaryOf reviewSummary
  refine List.forall_mem_cons.mpr ⟨isCount_of_nonneg (by decide) hframes, ?_⟩
  split_ifs with hdetection hframing
  · simp only [List.forall_mem_cons]
    refine ⟨isCount_of_nonneg (by decide) hframes, isCount_of_nonneg (by decide) (by omega),
      isCount_of_nonneg (by decide) hskipped, isCount_of_nonneg (by decide) hdetected, ?_,
      List.forall_mem_nil _⟩
    -- frames that are skipped and detected are subtracted twice
    exact ⟨(by decide : "missed_frames" ∈ summaryNames), _, rfl, abs_le.mpr (by omega)⟩
  · simp only [List.forall_mem_cons]
    refine ⟨?_, ?_, ?_, ?_, ?_, isCount_of_nonneg (by decide) hframes, ?_, ?_, ?_, List.forall_mem_nil _⟩ <;>
      exact isCount_of_nonneg (by decide) (countRecords_le records _)
  · simp only [List.forall_mem_cons]
    exact ⟨isCount_of_nonneg (by decide) hframes,
      isCount_of_nonneg (by decide) (countRecords_le records _), List.forall_mem_nil _⟩

theorem nodup_summaryOf (records : List (Value K)) (phase : String) :
    ((summaryOf records phase).map Prod.fst).Nodup ∧ (summaryOf records phase).length ≤ 32 := by
  unfold summaryOf reviewSummary
  split_ifs
  · exact ⟨(by decide : ["trace_frame_count", "frames", "sampled_frames", "skipped_frames",
      "detected_frames", "missed_frames"].Nodup), by simp⟩
  · exact ⟨(by decide : ["trace_frame_count", "sampled_detection_constraint_frames",
      "sampled_detection_uncontained_frames", "held_target_outside_crop_frames",
      "pan_speed_limit_exceeded_frames", "pan_acceleration_limit_exceeded_frames", "frames",
      "containment_override_frames", "unavailable_detection_frames",
      "source_aspect_limited_frames"].Nodup), by simp⟩
  · exact ⟨(by decide : ["trace_frame_count", "frames", "mapping_verified_frames"].Nodup), by simp⟩

/-- The number that a count is decoded as. -/
def asNumber : Value K → Value K
  | .int n => .number n
  | v => v

/-- **A summary** is decoded with its counts, and valid. -/
theorem decode_summary [IsStrictOrderedRing K] {records : List (Value K)}
    (hlength : (records.length : ℤ) ≤ maxManifestFrameCount) (phase : String) : ∃ summary,
      object (Value.dict (summaryOf records phase)).sortKeys [] = some summary ∧
      validSummary summary = true ∧
      ∀ key, summary.lookup key = ((summaryOf records phase).lookup key).map asNumber := by
  obtain ⟨hkeys, hshort⟩ := nodup_summaryOf records phase
  have hcounts := isCount_summaryOf records phase
  have hsame : Value.sortKeysFields (summaryOf records phase) = summaryOf records phase := by
    rw [Value.sortKeysFields_eq]
    refine (List.map_congr_left fun f hf => ?_).trans (List.map_id' _)
    obtain ⟨-, n, hn, -⟩ := hcounts f hf
    rw [hn, Value.sortKeys, ← hn]
  have hperm := Value.sortFields_perm (summaryOf records phase)
  have hsorted : ((Value.sortFields (summaryOf records phase)).map Prod.fst).Nodup :=
    (hperm.map Prod.fst).nodup_iff.mpr hkeys
  refine ⟨(Value.sortFields (summaryOf records phase)).map fun f => (f.1, asNumber f.2), ?_, ?_,
    fun key => ?_⟩
  · rw [Value.sortKeys, hsame]
    refine object_dict ?_ hsorted
    rw [List.forall₂_map_right_iff, List.forall₂_same]
    intro f hf
    obtain ⟨-, n, hn, hle⟩ := hcounts f (hperm.subset hf)
    unfold maxManifestFrameCount at hlength
    have hlimit : |(n : K)| < float64Limit := by
      refine lt_float64Limit ?_
      exact_mod_cast (by omega : |n| ≤ 10 ^ 10)
    rw [hn, any, if_pos hlimit]
    exact ⟨rfl, rfl⟩
  · rw [validSummary, List.length_map, hperm.length_eq, decide_eq_true hshort, Bool.true_and,
      List.all_map, List.all_eq_true]
    intro f hf
    obtain ⟨hname, n, hn, -⟩ := hcounts f (hperm.subset hf)
    obtain ⟨hfield, hsafe⟩ := safe_summaryNames f.1 hname
    rw [Function.comp_apply, hn, hfield, hsafe]
    rfl
  · rw [List.lookup_map_snd, List.lookup_of_perm hsorted hperm]

end Summary

/-! ## The phases -/

section Phases

open Decoder

omit [Field K] [LinearOrder K] in
theorem decode_interval {durationMs : ℤ} (hduration : durationMs ≤ maxManifestDurationMs)
    {span : WarningSpan} (h : span.Within durationMs) :
    RawInterval.decode (span.toInterval.toValue : Value K).sortKeys .zero = some span.toRaw := by
  obtain ⟨hnonneg, hordered, hend, -⟩ := h
  unfold maxManifestDurationMs at hduration
  have hsorted : (span.toInterval.toValue : Value K).sortKeys =
      .dict [("detail", .str span.detail), ("end_ms", .int span.endMs),
        ("label", .str span.label), ("start_ms", .int span.startMs)] := by
    simp [ReviewInterval.toValue, WarningSpan.toInterval, Value.sortKeys, Value.sortKeysFields,
      Value.sortFields]
  rw [hsorted, RawInterval.decode, struct_cons rfl (part_eq rfl),
    struct_cons rfl (part_eq (pointer_int64 (by omega) _)), struct_cons rfl (part_eq rfl),
    struct_cons rfl (part_eq (pointer_int64 (by omega) _))]
  rfl

/-- The video of a phase, or nothing. -/
def visualOf (visualPhases : List (String × Value K)) (phase : String) : Value K :=
  (visualPhases.lookup phase).getD (.dict [])

/-- The phase has a video. -/
def readyVisual (visualPhases : List (String × Value K)) (phase : String) : Bool :=
  ((visualOf visualPhases phase).get "status").isText "ready"

/-- Why the phase has none. -/
def visualDetail (visualPhases : List (String × Value K)) (phase : String) : String :=
  reviewUnavailableDetail ((visualOf visualPhases phase).get "detail")

/-- The phase, as the backend decodes it. -/
structure RawAgrees (records : List (Value K)) (visualPhases : List (String × Value K))
    (phase : String) (spans : List WarningSpan) (raw : RawPhase K) : Prop where
  id : raw.id = phase
  status : raw.status = if readyVisual visualPhases phase then "ready" else "unavailable"
  detail : raw.detail =
    if readyVisual visualPhases phase then none else some (visualDetail visualPhases phase)
  valid : validSummary raw.summary = true
  summary : ∀ key, raw.summary.lookup key = ((summaryOf records phase).lookup key).map asNumber
  intervals : raw.warningIntervals.items = spans.map (·.toRaw)

variable {records : List (Value K)} {visualPhases : List (String × Value K)} {phase : String}

theorem manifestPhase_eq {spans : List WarningSpan}
    (hspans : reviewWarningIntervals records phase = .ok (spans.map (·.toInterval))) :
    manifestPhase records visualPhases phase = .ok (.dict
      ([("id", .str phase),
          ("status", .str (if readyVisual visualPhases phase then "ready" else "unavailable"))] ++
        (if readyVisual visualPhases phase then []
          else [("detail", .str (visualDetail visualPhases phase))]) ++
        [("summary", .dict (summaryOf records phase)),
          ("warning_intervals", .list (spans.map fun span => span.toInterval.toValue))])) := by
  rw [manifestPhase, hspans, Except.ok_bind, List.map_map]
  rfl

/-- **A phase** is decoded as it is written. -/
theorem decode_phase [IsStrictOrderedRing K] {v : Value K} {spans : List WarningSpan} {durationMs : ℤ}
    (h : manifestPhase records visualPhases phase = .ok v)
    (hspans : reviewWarningIntervals records phase = .ok (spans.map (·.toInterval)))
    (hwithin : ∀ span ∈ spans, span.Within durationMs)
    (hduration : durationMs ≤ maxManifestDurationMs)
    (hlength : (records.length : ℤ) ≤ maxManifestFrameCount) :
    ∃ raw, RawPhase.decode v.sortKeys .zero = some raw ∧
      RawAgrees records visualPhases phase spans raw := by
  obtain ⟨summary, hsummary, hvalid, hlookup⟩ := decode_summary hlength phase
  have hitems : List.Forall₂ (fun v raw => RawInterval.decode v RawInterval.zero = some raw)
      ((spans.map fun span => (span.toInterval.toValue : Value K)).map Value.sortKeys)
      (spans.map (·.toRaw)) := by
    rw [List.map_map, List.forall₂_map_left_iff, List.forall₂_map_right_iff, List.forall₂_same]
    exact fun span hspan => decode_interval hduration (hwithin span hspan)
  obtain ⟨intervals, hintervals, hread⟩ := slice_list hitems
  rw [manifestPhase_eq hspans] at h
  obtain rfl := Except.ok.inj h
  by_cases hready : readyVisual visualPhases phase = true
  · refine ⟨⟨phase, "ready", none, summary, intervals⟩, ?_,
      ⟨rfl, by rw [hready]; rfl, by rw [hready]; rfl, hvalid, hlookup, hread⟩⟩
    have hsorted : ∀ items summary : Value K, (Value.dict ([("id", .str phase),
        ("status", .str "ready")] ++ [] ++ [("summary", summary), ("warning_intervals", items)])).sortKeys =
          .dict [("id", .str phase), ("status", .str "ready"), ("summary", summary.sortKeys),
            ("warning_intervals", items.sortKeys)] := fun _ _ => by
      simp [Value.sortKeys, Value.sortKeysFields, Value.sortFields]
    rw [if_pos hready, if_pos hready, hsorted, RawPhase.decode, struct_cons rfl (part_eq rfl),
      struct_cons rfl (part_eq rfl), struct_cons rfl (part_eq hsummary),
      struct_cons rfl (part_eq (by rw [Value.sortKeys, Value.sortItems_eq]; exact hintervals))]
    rfl
  · refine ⟨⟨phase, "unavailable", some (visualDetail visualPhases phase), summary, intervals⟩, ?_,
      ⟨rfl, by rw [if_neg hready], by rw [if_neg hready], hvalid, hlookup, hread⟩⟩
    have hsorted : ∀ detail items summary : Value K, (Value.dict ([("id", .str phase),
        ("status", .str "unavailable")] ++ [("detail", detail)] ++
          [("summary", summary), ("warning_intervals", items)])).sortKeys =
            .dict [("detail", detail.sortKeys), ("id", .str phase), ("status", .str "unavailable"),
              ("summary", summary.sortKeys), ("warning_intervals", items.sortKeys)] := fun _ _ _ => by
      simp [Value.sortKeys, Value.sortKeysFields, Value.sortFields]
    rw [if_neg hready, if_neg hready, hsorted, RawPhase.decode, struct_cons rfl (part_eq rfl),
      struct_cons rfl (part_eq rfl), struct_cons rfl (part_eq rfl),
      struct_cons rfl (part_eq hsummary),
      struct_cons rfl (part_eq (by rw [Value.sortKeys, Value.sortItems_eq]; exact hintervals))]
    rfl

/-- The reasons that a review shows for a missing video. -/
def unavailableReasons : List String :=
  ["duration_limit", "timeout", "encode_failed", "unavailable"] ++ shownReasons

theorem safe_unavailableReasons : ∀ reason ∈ unavailableReasons,
    safeManifestText (reviewUnavailableDetail (.str reason : Value ℚ)) 500 := by
  decide +kernel

theorem reason_mem (failure : ReviewFailure) : failure.reason ∈ unavailableReasons := by
  cases failure with
  | timeout => decide
  | encoder => decide
  | other message =>
    rw [ReviewFailure.reason]
    split_ifs with hshown
    · exact List.mem_append_right _ hshown
    · decide

omit [Field K] [LinearOrder K] in
/-- A rendered phase has a video or a reason that the backend shows. -/
theorem safe_render (maxDurationMs : ℤ) (renderPhase : String → Except ReviewFailure Unit)
    (metadata : MediaMetadata) (trace : List (Value K)) : ∀ phase ∈ phases,
      readyVisual (ReviewRenderer.render maxDurationMs renderPhase metadata trace) phase = false →
      safeManifestText (visualDetail (ReviewRenderer.render maxDurationMs renderPhase metadata trace)
        phase) 500 := by
  intro phase hphase hready
  have hlookup : ∀ visual : String → Value K,
      visualOf (phases.map fun phase => (phase, visual phase)) phase = visual phase := by
    intro visual
    simp only [phases, List.mem_cons, List.not_mem_nil, or_false] at hphase
    rcases hphase with rfl | rfl | rfl <;> rfl
  have hsafe : ∀ reason ∈ unavailableReasons, safeManifestText
      (reviewUnavailableDetail ((unavailablePhase reason : Value K).get "detail")) 500 :=
    safe_unavailableReasons
  rw [readyVisual] at hready
  rw [visualDetail]
  unfold ReviewRenderer.render at hready ⊢
  split_ifs at hready ⊢ with hlimit
  · rw [hlookup]
    exact hsafe _ (by decide)
  · rw [hlookup] at hready ⊢
    cases hrender : renderPhase phase with
    | error failure => exact hsafe _ (reason_mem failure)
    | ok _ =>
      rw [hrender] at hready
      cases hready

end Phases

/-! ## The manifest -/

section Manifest

open Decoder

/-- A phase that the backend reports has the content of the written one. -/
structure PhaseAgrees (records : List (Value K)) (visualPhases : List (String × Value K))
    (phase : String) (parsed : ManifestPhase K) : Prop where
  id : parsed.id = phase
  status : parsed.status = if readyVisual visualPhases phase then "ready" else "unavailable"
  detail : parsed.detail =
    if readyVisual visualPhases phase then "" else visualDetail visualPhases phase
  summary : ∀ key, parsed.summary.lookup key = ((summaryOf records phase).lookup key).map asNumber
  intervals : ∃ spans : List WarningSpan,
    reviewWarningIntervals records phase = .ok (spans.map (·.toInterval)) ∧
      parsed.warningIntervals = spans.map (·.toWarning)

/-- A manifest that the backend reports has the content of the written one. -/
structure ManifestAgrees (reviewId : Uuid) (records : List (Value K))
    (visualPhases : List (String × Value K)) (pipelineVersion modelVersion : String)
    (metadata : MediaMetadata) (manifest : EvaluationManifest K) : Prop where
  reviewId : manifest.reviewId = reviewId
  pipelineVersion : manifest.pipelineVersion = pipelineVersion
  modelVersion : manifest.modelVersion = modelVersion
  timing : manifest.timing = timingOf K metadata
  phases : List.Forall₂ (PhaseAgrees records visualPhases) phases manifest.phases
  telemetryReady : manifest.telemetryReady = true

/-- A decoded phase passes the checks of the backend. -/
structure Passes (durationMs : ℤ) (records : List (Value K))
    (visualPhases : List (String × Value K)) (phase : String) (spans : List WarningSpan)
    (raw : RawPhase K) : Prop where
  agrees : RawAgrees records visualPhases phase spans raw
  written : reviewWarningIntervals records phase = .ok (spans.map (·.toInterval))
  length : spans.length ≤ 100
  within : ∀ span ∈ spans, span.Within durationMs
  safe : readyVisual visualPhases phase = false → safeManifestText (visualDetail visualPhases phase) 500

variable {durationMs : ℤ} {records : List (Value K)} {visualPhases : List (String × Value K)}

theorem Passes.intervals {phase : String} {spans : List WarningSpan} {raw : RawPhase K}
    (h : Passes durationMs records visualPhases phase spans raw) :
    validWarningIntervals raw.warningIntervals.items durationMs = some (spans.map (·.toWarning)) := by
  rw [h.agrees.intervals, validWarningIntervals, List.length_map, if_neg h.length.not_gt,
    Option.mapM_eq_some, List.forall₂_map_left_iff, List.forall₂_map_right_iff, List.forall₂_same]
  exact fun span hspan => (h.within span hspan).valid

/-- **The loop over the phases** accepts phases that pass. -/
theorem parsePhases_of_passes {names seen : List String} {raws : List (RawPhase K)}
    (hnames : (names ++ seen).Nodup)
    (h : List.Forall₂ (fun phase raw => ∃ spans,
      Passes durationMs records visualPhases phase spans raw) names raws) :
    ∃ parsed, parsePhases durationMs (names.zip raws) seen = .ok parsed ∧
      List.Forall₂ (PhaseAgrees records visualPhases) names parsed := by
  induction h generalizing seen with
  | nil => exact ⟨[], rfl, .nil⟩
  | @cons phase raw names raws hpasses _ ih =>
    obtain ⟨spans, hpasses⟩ := hpasses
    obtain ⟨hid, hstatus, hdetail, hvalid, hsummary, -⟩ := hpasses.agrees
    rw [List.cons_append, List.nodup_cons, List.mem_append, not_or] at hnames
    have hrest : (names ++ raw.id :: seen).Nodup := by
      rw [hid, List.nodup_middle, List.nodup_cons, List.mem_append, not_or]
      exact hnames
    obtain ⟨parsed, hparsed, hagrees⟩ := ih hrest
    have hstatusOk : validPhaseStatus raw.status = true := by
      rw [hstatus]
      split_ifs <;> rfl
    have hdetailOk : (raw.detail.any fun detail =>
        raw.status != "unavailable" || !safeManifestText detail 500) = false := by
      rw [hdetail, hstatus]
      cases hready : readyVisual visualPhases phase with
      | true => rfl
      | false =>
        simp only [Bool.false_eq_true, if_false, Option.any_some, hpasses.safe hready]
        rfl
    refine ⟨⟨raw.id, raw.status, raw.detail.getD "", raw.summary, spans.map (·.toWarning)⟩ :: parsed,
      ?_, .cons ⟨hid, hstatus, ?_, hsummary, spans, hpasses.written, rfl⟩ hagrees⟩
    · rw [List.zip_cons_cons, parsePhases, hpasses.intervals]
      dsimp only
      rw [if_neg, hparsed, Except.ok_bind]
      simp only [hid, hstatusOk, hdetailOk, hvalid, hnames.1.2, ne_eq, not_true_eq_false,
        Bool.true_eq_false, Bool.false_eq_true, or_self, not_false_eq_true]
    · rw [hdetail]
      split_ifs <;> rfl

variable [IsStrictOrderedRing K]

/-- A written phase is decoded, and passes. -/
theorem exists_passes {metadata : MediaMetadata} {trace : List (Value K)} {phase : String}
    {v : Value K} (hload : loadAnalysisRecords metadata trace = .ok records)
    (hrounded : metadata.Rounded) (hchecked : TimingChecked metadata)
    (htimes : ∀ record ∈ records, ∀ b, record.get "timestamp_ms" ≠ .bool b)
    (hsafe : readyVisual visualPhases phase = false →
      safeManifestText (visualDetail visualPhases phase) 500)
    (h : manifestPhase records visualPhases phase = .ok v) :
    ∃ raw, RawPhase.decode v.sortKeys .zero = some raw ∧
      ∃ spans, Passes metadata.durationMs records visualPhases phase spans raw := by
  obtain ⟨spans, hlength, hspans, hwithin⟩ :=
    intervals_of_loaded hload hrounded hchecked.frameRate htimes phase
  have hcount := (loadAnalysisRecords_eq_ok hload).2.1.trans_le hchecked.frameCount.2
  obtain ⟨raw, hraw, hagrees⟩ := decode_phase h hspans hwithin hchecked.durationMs.2 hcount
  exact ⟨raw, hraw, spans, hagrees, hspans, hlength, hwithin, hsafe⟩

omit [Field K] [LinearOrder K] [IsStrictOrderedRing K] in
theorem manifestVersion_eq_ok {value version : String} (h : manifestVersion value = .ok version) :
    value = version ∧ versionIdentifier value = true := by
  unfold manifestVersion at h
  dsimp only at h
  split_ifs at h with hvalid
  refine ⟨Except.ok.inj h, ?_⟩
  rw [versionIdentifier, Bool.and_eq_true, Bool.and_eq_true]
  exact ⟨⟨decide_eq_true hvalid.1, decide_eq_true hvalid.2.1⟩, hvalid.2.2⟩

/-- The phases of a manifest are decoded, and pass. -/
theorem exists_raws {metadata : MediaMetadata} {trace : List (Value K)}
    (hload : loadAnalysisRecords metadata trace = .ok records) (hrounded : metadata.Rounded)
    (hchecked : TimingChecked metadata)
    (htimes : ∀ record ∈ records, ∀ b, record.get "timestamp_ms" ≠ .bool b)
    {names : List String} {written : List (Value K)}
    (hsafe : ∀ phase ∈ names, readyVisual visualPhases phase = false →
      safeManifestText (visualDetail visualPhases phase) 500)
    (h : names.mapM (manifestPhase records visualPhases) = .ok written) : ∃ raws,
      List.Forall₂ (fun v raw => RawPhase.decode v .zero = some raw)
        (written.map Value.sortKeys) raws ∧
      List.Forall₂ (fun phase raw => ∃ spans,
        Passes metadata.durationMs records visualPhases phase spans raw) names raws := by
  have hwritten := Except.mapM_eq_ok.mp h
  clear h
  induction hwritten with
  | nil => exact ⟨[], .nil, .nil⟩
  | @cons phase v names written hphase _ ih =>
    obtain ⟨hsafe, hrest⟩ := List.forall_mem_cons.mp hsafe
    obtain ⟨raw, hraw, hpasses⟩ := exists_passes hload hrounded hchecked htimes hsafe hphase
    obtain ⟨raws, hraws, hall⟩ := ih hrest
    exact ⟨raw :: raws, .cons hraw hraws, .cons hpasses hall⟩

/-- **The root** of a manifest is decoded field by field. -/
theorem decode_manifest {metadata : MediaMetadata} {timing : List (String × Value K)}
    (htiming : manifestTiming exactFloat (some metadata) = .ok timing) {written : List (Value K)}
    {raws : List (RawPhase K)}
    (hraws : List.Forall₂ (fun v raw => RawPhase.decode v .zero = some raw)
      (written.map Value.sortKeys) raws)
    (reviewId pipelineVersion modelVersion : String) : ∃ raw : RawManifest K,
      RawManifest.decode (Value.dict
        [("schema_version", .int 1), ("review_id", .str reviewId),
          ("pipeline_version", .str pipelineVersion), ("model_version", .str modelVersion),
          ("timing", .dict timing), ("telemetry", .dict [("status", .str "ready")]),
          ("phases", .list written)]).sortKeys .zero = some raw ∧
      raw.schemaVersion = 1 ∧ raw.reviewId = reviewId ∧ raw.pipelineVersion = pipelineVersion ∧
      raw.modelVersion = modelVersion ∧ raw.timing.bind validTiming = some (timingOf K metadata) ∧
      raw.phases.items = raws ∧ raw.telemetry = some "ready" := by
  obtain ⟨rawTiming, hrawTiming, hvalid⟩ := decode_timing htiming
  obtain ⟨items, hitems, hread⟩ := slice_list hraws
  have hsorted : ∀ phases timing : Value K, (Value.dict
      [("schema_version", .int 1), ("review_id", .str reviewId),
        ("pipeline_version", .str pipelineVersion), ("model_version", .str modelVersion),
        ("timing", timing), ("telemetry", .dict [("status", .str "ready")]),
        ("phases", phases)]).sortKeys =
      .dict [("model_version", .str modelVersion), ("phases", phases.sortKeys),
        ("pipeline_version", .str pipelineVersion), ("review_id", .str reviewId),
        ("schema_version", .int 1), ("telemetry", .dict [("status", .str "ready")]),
        ("timing", timing.sortKeys)] := fun _ _ => by
    simp [Value.sortKeys, Value.sortKeysFields, Value.sortFields]
  refine ⟨⟨1, reviewId, pipelineVersion, modelVersion, some rawTiming, items, some "ready"⟩, ?_,
    rfl, rfl, rfl, rfl, hvalid, hread, rfl⟩
  rw [hsorted, RawManifest.decode, struct_cons rfl (part_eq rfl),
    struct_cons rfl (part_eq (by rw [Value.sortKeys, Value.sortItems_eq]; exact hitems)),
    struct_cons rfl (part_eq rfl), struct_cons rfl (part_eq rfl),
    struct_cons rfl (part_eq (int64_eq (by omega) _)), struct_cons rfl (part_eq rfl),
    struct_cons rfl (part_eq (pointer_eq (by simp [Value.sortKeys]) hrawTiming))]
  rfl

/-- **A written manifest** is accepted by the backend, which finds in it what the worker has put
there, if no record has a truth value for a time. -/
theorem writeReviewManifest_accepted {parseUuid : String → Option Uuid}
    (huuid : ∀ id : Uuid, parseUuid id.text = some id) {metadata : MediaMetadata}
    {trace records : List (Value K)} (hload : loadAnalysisRecords metadata trace = .ok records)
    (hrounded : metadata.Rounded)
    (htimes : ∀ record ∈ records, ∀ b, record.get "timestamp_ms" ≠ .bool b)
    {maxDurationMs : ℤ} {renderPhase : String → Except ReviewFailure Unit} {reviewId : Uuid}
    {pipelineVersion modelVersion : String} {v : Value K}
    (h : writeReviewManifest exactFloat reviewId records
      (ReviewRenderer.render maxDurationMs renderPhase metadata records) pipelineVersion modelVersion
      (some metadata) = .ok v) :
    ∃ manifest, parseEvaluationManifest parseUuid (some v) = .ok manifest ∧
      ManifestAgrees reviewId records
        (ReviewRenderer.render maxDurationMs renderPhase metadata records) pipelineVersion
        modelVersion metadata manifest := by
  obtain ⟨written, hwritten, h₁⟩ := Except.bind_eq_ok.mp h
  obtain ⟨_, hpipeline, h₂⟩ := Except.bind_eq_ok.mp h₁
  obtain ⟨_, hmodel, h₃⟩ := Except.bind_eq_ok.mp h₂
  obtain ⟨timing, htiming, h₄⟩ := Except.bind_eq_ok.mp h₃
  obtain ⟨rfl, hvalidPipeline⟩ := manifestVersion_eq_ok hpipeline
  obtain ⟨rfl, hvalidModel⟩ := manifestVersion_eq_ok hmodel
  obtain rfl := Except.ok.inj h₄
  clear h h₁ h₂ h₃ h₄
  obtain ⟨raws, hraws, hpasses⟩ := exists_raws hload hrounded (manifestTiming_eq_ok htiming).1
    htimes (safe_render maxDurationMs renderPhase metadata records) hwritten
  obtain ⟨raw, hdecode, hschema, hreviewId, hpipelineVersion, hmodelVersion, hvalid, hitems,
    htelemetry⟩ := decode_manifest htiming hraws reviewId.text pipelineVersion modelVersion
  have hnames : (phases ++ []).Nodup := by decide
  obtain ⟨parsed, hparsed, hagrees⟩ := parsePhases_of_passes hnames hpasses
  have hlength : raws.length = reviewPhaseOrder.length := hpasses.length_eq.symm
  refine ⟨⟨reviewId, pipelineVersion, modelVersion, timingOf K metadata, parsed, true⟩, ?_,
    ⟨rfl, rfl, rfl, rfl, hagrees, rfl⟩⟩
  rw [parseEvaluationManifest, Option.bind_some, hdecode]
  dsimp only
  rw [if_neg (not_not.mpr hschema), hreviewId, huuid]
  dsimp only
  rw [hvalid]
  dsimp only
  rw [hpipelineVersion, hmodelVersion, hvalidPipeline, hvalidModel, hitems, htelemetry, hlength,
    if_neg (by simp), if_neg (by simp [validTelemetryStatus])]
  change (parsePhases (timingOf K metadata).durationMs (phases.zip raws) []).bind _ = _
  rw [show (timingOf K metadata).durationMs = metadata.durationMs from rfl, hparsed]
  rfl

end Manifest

section Sample

/-- A video of two frames. -/
def twoFrameVideo : MediaMetadata := MediaMetadata.probed 640 360 2 1 "h264" 0 none

/-- The trace of an analysis that has detected nothing. -/
def emptyTrace : List (Value ℚ) :=
  [.dict [("record_type", .str "frame"), ("frame_index", .int 0), ("timestamp_ms", .int 0)],
    .dict [("record_type", .str "frame"), ("frame_index", .int 1), ("timestamp_ms", .int 500)]]

def emptyReview : Uuid := ⟨"7b1de0a4-93c5-4f5e-8a61-20d4c9be7715", by decide⟩

/-- The video of the last phase is not rendered in time. -/
def lateRender (phase : String) : Except ReviewFailure Unit :=
  if phase = "render" then .error .timeout else .ok ()

theorem writeReviewManifest_accepted_empty : ∃ v manifest,
    writeReviewManifest exactFloat emptyReview emptyTrace
      (ReviewRenderer.render 300000 lateRender twoFrameVideo emptyTrace) "w0.2.7" "unconfigured"
      (some twoFrameVideo) = .ok v ∧
    parseEvaluationManifest Uuid.ofCanonical (some v) = .ok manifest ∧
    ManifestAgrees emptyReview emptyTrace
      (ReviewRenderer.render 300000 lateRender twoFrameVideo emptyTrace) "w0.2.7" "unconfigured"
      twoFrameVideo manifest := by
  have hloaded : (loadAnalysisRecords twoFrameVideo emptyTrace).toOption.isSome := by
    decide +kernel
  have hwritten : (writeReviewManifest exactFloat emptyReview emptyTrace
      (ReviewRenderer.render 300000 lateRender twoFrameVideo emptyTrace) "w0.2.7" "unconfigured"
      (some twoFrameVideo)).toOption.isSome := by
    decide +kernel
  have htimes : ∀ record ∈ emptyTrace, ∀ b, record.get "timestamp_ms" ≠ .bool b := by
    intro record hrecord b hb
    rw [emptyTrace, List.mem_cons, List.mem_singleton] at hrecord
    rcases hrecord with rfl | rfl <;> cases hb
  obtain ⟨records, hload⟩ := Except.exists_eq_ok hloaded
  obtain ⟨v, hv⟩ := Except.exists_eq_ok hwritten
  obtain ⟨rfl, -⟩ := loadAnalysisRecords_eq_ok hload
  obtain ⟨manifest, hmanifest, hagrees⟩ := writeReviewManifest_accepted Uuid.ofCanonical_text hload
    (MediaMetadata.rounded_probed _ _ _ _ _ _ _) htimes hv
  exact ⟨v, manifest, hv, hmanifest, hagrees⟩

end Sample

end ProcessingPipeline

end BoulderFrame
