import BoulderFrame.Backend.EvaluationManifest
import BoulderFrame.Evaluation.CarriedTrace
import BoulderFrame.Framing.SeedMotion
import BoulderFrame.Media.FrameClock
import BoulderFrame.Pipeline.WarningIntervals

/-!
# Checks of the frame times

The times of the frames are checked three times: by the planner, by the evaluator of a published
trace, and, as bounds of the warning intervals, by the backend. On the frame clock of a video none
of these checks fails.

## Main definitions

* `TimestampError`: what the check of the planner raises
* `ClockChecks`: the times of the frames pass all checks

## Main results

* `plan_raises`: increasing times do not fail the check of the planner
* `frameClock_checks`: the frame clock of a video passes all checks
-/

namespace BoulderFrame

/-! ## The planner -/

/-- The planner refuses a timestamp. -/
def TimestampError (e : PlanError) : Prop :=
  e = .valueError "measurement timestamp_ms must be a non-negative integer" ∨
    e = .valueError "measurement timestamps must be strictly increasing"

instance : DecidablePred TimestampError := fun _ => inferInstanceAs (Decidable (_ ∨ _))

namespace DeterministicCropPlanner

open Except (RaisesOnly)

variable {K : Type} [Field K] [LinearOrder K] (P : DeterministicCropPlanner)

section Geometry

theorem clamp_raises (crop : CropRect K) : RaisesOnly (¬ TimestampError ·) (P.clamp crop) :=
  .ite (fun _ => .error (by decide)) fun _ => .ok _

theorem desiredCrop_raises (detection : Rect K) :
    RaisesOnly (¬ TimestampError ·) (P.desiredCrop detection) :=
  P.clamp_raises _

theorem divide_raises (a b : K) : RaisesOnly (¬ TimestampError ·) (divide a b) :=
  .ite (fun _ => .error (by decide)) fun _ => .ok _

theorem contain_raises (crop : CropRect K) (detection : Rect K) :
    RaisesOnly (¬ TimestampError ·) (P.contain crop detection) := by
  unfold contain
  refine .ite (fun _ => .ok _) fun _ => .ite (fun _ => ?_) fun _ => ?_
  · exact .bind (P.clamp_raises _) fun _ _ => .ok _
  · exact .bind (P.clamp_raises _) fun _ _ => .ok _

theorem corrected_raises (candidate : CropRect K) (detection : Option (Rect K)) :
    RaisesOnly (¬ TimestampError ·) (P.corrected candidate detection) := by
  refine .bind (P.clamp_raises _) fun crop _ => ?_
  cases detection with
  | none => exact .ok _
  | some detection => exact P.contain_raises crop detection

omit [LinearOrder K] in
/-- A later timestamp passes the check. -/
theorem elapsed_of_lt {previous : Option ℤ} {timestamp : ℤ} (hnonneg : 0 ≤ timestamp)
    (hlater : ∀ p ∈ previous, p < timestamp) :
    RaisesOnly (¬ TimestampError ·) (elapsed previous timestamp : Except PlanError K) := by
  unfold elapsed
  rw [if_neg hnonneg.not_gt]
  cases previous with
  | none => exact .ok _
  | some p => exact .ite (fun hle => absurd hle (hlater p rfl).not_ge) fun _ => .ok _

end Geometry

variable [Elementary K]

theorem checkedLog_raises (x : K) : RaisesOnly (¬ TimestampError ·) (checkedLog x) :=
  .ite (fun _ => .error (by decide)) fun _ => .ok _

theorem zoom_raises (scaleAdjusting : Bool) (previous desired : CropRect K) (velocity dt : K) :
    RaisesOnly (¬ TimestampError ·) (P.zoom scaleAdjusting previous desired velocity dt) := by
  unfold zoom
  refine .ite (fun _ => .bind (checkedLog_raises _) fun position _ => ?_) fun _ => .ok _
  refine .ite (fun _ => .bind ?_ fun _ _ => ?_) fun _ => .bind (.ok _) fun _ _ => ?_
  · rw [map_eq_pure_bind]
    exact .bind (checkedLog_raises _) fun _ _ => .ok _
  · exact .ite (fun _ => .ok _) fun _ => .ok _
  · exact .ite (fun _ => .ok _) fun _ => .ok _

theorem adjust_raises (previous desired : CropRect K) (scaleAdjusting centerAdjusting : Bool)
    (velocities : K × K × K) (dt : K) : RaisesOnly (¬ TimestampError ·)
      (P.adjust previous desired scaleAdjusting centerAdjusting velocities dt) :=
  .ite (fun _ => .ok _) fun _ => .bind (P.zoom_raises _ _ _ _ _) fun _ _ => .ok _

theorem candidate_raises (st : SeedState K) (detection : Option (Rect K)) (dt : K) :
    RaisesOnly (¬ TimestampError ·) (P.candidate st detection dt) := by
  unfold candidate
  cases detection with
  | none =>
    unfold missCandidate
    dsimp only
    split
    · exact .ok _
    · exact .bind (P.adjust_raises _ _ _ _ _ _) fun _ _ => .ok _
  | some detection =>
    refine .bind (P.desiredCrop_raises detection) fun desired _ => ?_
    split
    · exact .ok _
    · refine .bind (divide_raises _ _) fun _ _ => .bind (divide_raises _ _) fun _ _ =>
        .bind (divide_raises _ _) fun _ _ => ?_
      exact .bind (P.adjust_raises _ _ _ _ _ _) fun _ _ => .ok _

theorem planFrom_raises {st : SeedState K} {ms : List (FrameMeasurement K)}
    (hlater : ∀ p ∈ st.previousTimestamp, ∀ m ∈ ms, p < m.timestampMs)
    (hnonneg : ∀ m ∈ ms, 0 ≤ m.timestampMs)
    (hincreasing : ms.Pairwise fun m m' => m.timestampMs < m'.timestampMs) :
    RaisesOnly (¬ TimestampError ·) (P.planFrom st ms) := by
  induction ms generalizing st with
  | nil => exact .ok _
  | cons m ms ih =>
    have hmem : m ∈ m :: ms := List.mem_cons_self
    rw [List.pairwise_cons] at hincreasing
    refine .bind ?_ fun ⟨⟨crop, trace⟩, st'⟩ hframe => .bind ?_ fun _ _ => .ok _
    · refine .bind (elapsed_of_lt (hnonneg m hmem) fun p hp => hlater p hp m hmem) fun dt _ => ?_
      refine .bind (P.candidate_raises _ _ _) fun c _ => ?_
      exact .bind (P.corrected_raises _ _) fun _ _ => .ok _
    · obtain ⟨dt, c, -, -, -, -, rfl⟩ := iteration_eq_ok hframe
      refine ih ?_ (fun m' hm' => hnonneg m' (List.mem_cons_of_mem _ hm')) hincreasing.2
      rintro p ⟨⟩ m' hm'
      exact hincreasing.1 m' hm'

/-- **Increasing times** do not fail the check of the planner, whatever the boxes are. -/
theorem plan_raises {ms : List (FrameMeasurement K)} (hnonneg : ∀ m ∈ ms, 0 ≤ m.timestampMs)
    (hincreasing : ms.Pairwise fun m m' => m.timestampMs < m'.timestampMs) :
    RaisesOnly (¬ TimestampError ·) (P.plan ms) :=
  .bind (P.planFrom_raises (fun _ => nofun) hnonneg hincreasing) fun _ _ => .ok _

end DeterministicCropPlanner

/-! ## The warning intervals -/

namespace ProcessingPipeline

variable {K : Type} [Zero K] [DecidableEq K] {phase : String} {records : List (Value K)}
  {times : List ℤ} {spans : List WarningSpan}

/-- The intervals of a trace lie within the times of its records. -/
theorem Encodes.within (h : Encodes phase records times spans) (hclock : Timed records times)
    (hincreasing : times.Pairwise (· < ·)) {durationMs : ℤ}
    (hwithin : ∀ t ∈ times, 0 ≤ t ∧ t ≤ durationMs) {span : WarningSpan} (hspan : span ∈ spans) :
    0 ≤ span.startMs ∧ span.startMs ≤ span.endMs ∧ span.endMs ≤ durationMs := by
  obtain ⟨runs, -, hmem, hfilter⟩ := h.runs span.label
  have hself := hfilter ▸ List.mem_filter.mpr ⟨hspan, decide_eq_true rfl⟩
  obtain ⟨⟨i, j⟩, hrun, heq⟩ := List.mem_map.mp hself
  have hrun := (hmem i j).mp hrun
  have hlength := hclock.length_eq
  have htime : ∀ k < records.length, 0 ≤ timeAt times k ∧ timeAt times k ≤ durationMs := by
    intro k hk
    have hget := List.getElem?_eq_getElem (hlength ▸ hk)
    rw [timeAt_of_getElem? hget]
    exact hwithin _ (List.mem_of_getElem? hget)
  have hlt := hrun.lt
  have hle := hrun.le
  rw [← heq]
  refine ⟨(htime i (by omega)).1, ?_, (htime _ (by omega)).2⟩
  exact (hrun.mem_Icc (hclock.strictMonoOn hincreasing) le_rfl hlt).2

end ProcessingPipeline

open Domain in
/-- An interval within the duration is refused for its texts only. -/
theorem isSome_validWarningInterval {durationMs startMs endMs : ℤ} {label detail : String}
    (hstart : 0 ≤ startMs) (hle : startMs ≤ endMs) (hend : endMs ≤ durationMs) :
    (validWarningInterval durationMs ⟨some startMs, some endMs, label, detail⟩).isSome ↔
      safeManifestText label 120 ∧ (detail ≠ "" → safeManifestText detail 500) := by
  have hends : ((some endMs).any fun endMs =>
      decide (endMs < startMs) || decide (durationMs < endMs)) = false := by
    rw [Option.any_some, decide_eq_false hle.not_gt, decide_eq_false hend.not_gt]
    rfl
  simp only [validWarningInterval, hends, hstart.not_gt, (hle.trans hend).not_gt, false_or,
    Bool.false_eq_true]
  split_ifs with hunsafe
  · refine iff_of_false nofun fun ⟨hlabel, hdetail⟩ => ?_
    obtain h | ⟨hne, h⟩ := hunsafe
    · exact absurd (hlabel.symm.trans h) Bool.noConfusion
    · exact absurd ((hdetail hne).symm.trans h) Bool.noConfusion
  · rw [not_or, not_and, Bool.not_eq_false, Bool.not_eq_false] at hunsafe
    exact iff_of_true rfl hunsafe

/-! ## The frame clock -/

open Domain ProcessingPipeline in
/-- The frames have times that increase and lie within the duration, and with these no check of the
planner, the evaluator or the backend fails. -/
structure ClockChecks (K : Type) [Field K] [LinearOrder K] [Elementary K] (m : MediaMetadata)
    (time : ℕ → ℤ) : Prop where
  timestamp : ∀ index : ℕ, m.timestampForFrame index = .ok (time index)
  increasing : StrictMono time
  within : ∀ index : ℕ, (index : ℤ) < m.expectedFrameCount →
    0 ≤ time index ∧ time index ≤ m.durationMs
  planner : ∀ (P : DeterministicCropPlanner) (ms : List (FrameMeasurement K)),
    (∀ (index : ℕ) measurement, ms[index]? = some measurement →
      measurement.timestampMs = time index) →
    ∀ e, P.plan ms = .error e → ¬ TimestampError e
  evaluator : ∀ (name : String) (frames : List (Evaluation.DebugFrame K)),
    (∀ (index : ℕ) frame, frames[index]? = some frame →
      frame.frameIndex = index ∧ frame.timestampMs = time index) →
    Evaluation.strictlyIncreasingFrames name (-1) (-1) frames = .ok ()
  manifest : ∀ (phase : String) (records : List (Value K)),
    (records.length : ℤ) ≤ m.expectedFrameCount →
    Timed records ((List.range records.length).map time) →
    ∃ spans : List WarningSpan,
      reviewWarningIntervals records phase = .ok (spans.map (·.toInterval)) ∧
      ∀ span ∈ spans, 0 ≤ span.startMs ∧ span.startMs ≤ span.endMs ∧ span.endMs ≤ m.durationMs ∧
        ((validWarningInterval m.durationMs
            ⟨some span.startMs, some span.endMs, span.label, span.detail⟩).isSome ↔
          safeManifestText span.label 120 ∧ (span.detail ≠ "" → safeManifestText span.detail 500))

section Clock

variable {time : ℕ → ℤ}

theorem pairwise_of_strictMono {α : Type} {l : List α} {f : α → ℤ} (htime : StrictMono time)
    (h : ∀ (index : ℕ) a, l[index]? = some a → f a = time index) :
    l.Pairwise fun a b => f a < f b := by
  rw [List.pairwise_iff_getElem]
  intro i j hi hj hij
  rw [h i _ (List.getElem?_eq_getElem hi), h j _ (List.getElem?_eq_getElem hj)]
  exact htime hij

variable {width height rotation : ℤ} {rate duration : ℚ} {codec : String} {audio : Option ℤ}

open MediaMetadata ProcessingPipeline in
/-- **The frame clock** of a video of up to a thousand frames per second passes all checks. -/
theorem frameClock_checks {K : Type} [Field K] [LinearOrder K] [Elementary K] (hr : 0 < rate)
    (hle : rate ≤ 1000) (hd : 0 < duration) :
    ClockChecks K (probed width height rate duration codec rotation audio) (frameTime rate) where
  timestamp index := timestampForFrame_natCast _ index
  increasing := strictMono_frameTime hr hle
  within index hindex := by
    rw [probed_expectedFrameCount hd] at hindex
    exact ⟨frameTime_nonneg hr index, frameTime_le_duration hr hindex⟩
  planner P ms hms := by
    refine P.plan_raises (fun m hm => ?_) (pairwise_of_strictMono (strictMono_frameTime hr hle) hms)
    obtain ⟨index, hindex⟩ := List.getElem?_of_mem hm
    rw [hms index m hindex]
    exact frameTime_nonneg hr index
  evaluator name frames hframes := by
    have hindices := pairwise_of_strictMono Nat.strictMono_cast fun index frame h =>
      (hframes index frame h).1
    have htimes := pairwise_of_strictMono (strictMono_frameTime hr hle) fun index frame h =>
      (hframes index frame h).2
    have hfirst : ∀ frame ∈ frames, -1 < frame.frameIndex ∧ -1 < frame.timestampMs := by
      intro frame hframe
      obtain ⟨index, hindex⟩ := List.getElem?_of_mem hframe
      obtain ⟨hframeIndex, htimestamp⟩ := hframes index frame hindex
      have := frameTime_nonneg hr index
      omega
    refine Evaluation.strictlyIncreasingFrames_eq_ok (List.isChain_iff_pairwise.mpr ?_)
      (List.isChain_iff_pairwise.mpr ?_)
    · rw [List.pairwise_cons, List.forall_mem_map, List.pairwise_map]
      exact ⟨fun frame hframe => (hfirst frame hframe).1, hindices⟩
    · rw [List.pairwise_cons, List.forall_mem_map, List.pairwise_map]
      exact ⟨fun frame hframe => (hfirst frame hframe).2, htimes⟩
  manifest phase records hlength hclock := by
    have hincreasing : ((List.range records.length).map (frameTime rate)).Pairwise (· < ·) :=
      List.pairwise_map.mpr
        (List.pairwise_lt_range.imp fun hlt => strictMono_frameTime hr hle hlt)
    have hwithin : ∀ t ∈ (List.range records.length).map (frameTime rate),
        0 ≤ t ∧ t ≤ roundHalfEven (duration * 1000) := by
      rw [List.forall_mem_map]
      intro index hindex
      have hindex := List.mem_range.mp hindex
      rw [probed_expectedFrameCount hd] at hlength
      exact ⟨frameTime_nonneg hr index, frameTime_le_duration hr (by omega)⟩
    obtain ⟨spans, hencodes, hspans⟩ :=
      reviewWarningIntervals_encodes phase records _ hclock hincreasing
    refine ⟨spans.take 100, by rw [hspans, List.map_take], fun span hspan => ?_⟩
    obtain ⟨hstart, hordered, hend⟩ :=
      hencodes.within hclock hincreasing hwithin (List.mem_of_mem_take hspan)
    exact ⟨hstart, hordered, hend, isSome_validWarningInterval hstart hordered hend⟩

open MediaMetadata in
/-- One second at the rate of the American broadcasts. -/
theorem frameClock_checks_broadcast :
    ClockChecks ℝ (probed 1920 1080 (30000 / 1001) 1 "h264" 0 none) (frameTime (30000 / 1001)) :=
  frameClock_checks (by norm_num) (by norm_num) (by norm_num)

end Clock

end BoulderFrame
