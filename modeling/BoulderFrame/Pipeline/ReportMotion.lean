import BoulderFrame.Pipeline.AnalysisReport

/-!
# The motion that a report measures

The report derives the speeds and the accelerations of a plan from its crops once more, with a loop
that carries the last velocity. It starts from a velocity of zero and adds the final rest after the
loop, so its greatest values are those of the center path, and it reports an excess exactly when the
planner has flagged a frame.

## Main definitions

* `PanAt`: the loop after the first crops

## Main results

* `panStep_panAt`: what one crop does
* `panLoop`: the greatest speed and acceleration of all crops
* `report_kinematics`: the report and the trace of a plan agree
-/

namespace BoulderFrame

open LookaheadCropPlanner

section Excess

variable {K : Type} [Field K] [LinearOrder K] [IsStrictOrderedRing K] {b : K}
  {magnitude : ℕ → K} {n : ℕ}

theorem lt_excess_iff (hb : 0 ≤ b) : b < excess 0 magnitude n ↔ ∃ i < n, b < magnitude i := by
  rw [← not_le, excess_le_iff, and_iff_right hb, zero_add]
  simp only [not_forall, not_le, exists_prop]

omit [IsStrictOrderedRing K] in
variable (magnitude n) in
theorem excess_eq_zero_or :
    excess 0 magnitude n = 0 ∨ ∃ i < n, excess 0 magnitude n = magnitude i := by
  induction n with
  | zero => exact .inl rfl
  | succ n ih =>
    rw [excess, sub_zero]
    rcases le_total (excess 0 magnitude n) (magnitude n) with h | h
    · exact .inr ⟨n, Nat.lt_succ_self n, max_eq_right h⟩
    · rw [max_eq_left h]
      refine ih.imp_right ?_
      rintro ⟨i, hi, h⟩
      exact ⟨i, by omega, h⟩

/-- The greatest of some magnitudes is one of them. -/
theorem isGreatest_excess (hn : 0 < n) (hnonneg : ∀ i, 0 ≤ magnitude i) :
    IsGreatest {s | ∃ i < n, s = magnitude i} (excess 0 magnitude n) := by
  have hle : ∀ i < n, magnitude i ≤ excess 0 magnitude n := fun i hi => by
    have := le_add_excess 0 magnitude hi
    rwa [zero_add] at this
  constructor
  · obtain h | h := excess_eq_zero_or magnitude n
    · exact ⟨0, hn, le_antisymm (h.trans_le (hnonneg 0)) (hle 0 hn)⟩
    · exact h
  · rintro s ⟨i, hi, rfl⟩
    exact hle i hi

/-- Half a divisor is twice a quotient. -/
theorem abs_div_half {a b : K} (hb : 0 < b) : |a / (b / 2)| = 2 * |a| / b := by
  rw [abs_div, abs_of_pos (half_pos hb), div_div_eq_mul_div, mul_comm]

end Excess

namespace ProcessingPipeline

section Loop

variable {K : Type} [Field K] [LinearOrder K] [IsStrictOrderedRing K] [Elementary K]
  (P : LookaheadCropPlanner) (S : Shot K) (observations : List (RawFrameObservation K))
  (crops : List (CropRect K)) (dts : List K)

/-- The loop over the crops, after the first of them. -/
def PanAt : ℕ → PanState K → Prop
  | 0, st => st = .initial
  | i + 1, st =>
    st.previous = crops[i]? ∧ (∀ o ∈ observations[i]?, st.previousTimestamp = o.timestampMs) ∧
      st.previousVelocity = (if i = 0 then (0, 0) else P.pathVelocity S crops (i - 1)) ∧
      st.previousDt = (if i = 0 then 0 else vec dts (i - 1)) ∧
      st.maxSpeed = excess 0 (fun j => magnitude (P.pathVelocity S crops j)) i ∧
      st.maxAcceleration = excess 0 (fun j => magnitude (P.pathAcceleration S crops j)) i

variable {P S observations crops dts}

omit [Elementary K] in
/-- The acceleration at a frame before the last, from the velocity that is carried. -/
theorem magnitude_pathAcceleration {i : ℕ} (hi : i + 1 < S.frames) (hdt : S.dt = vec dts)
    {carried : K × K} {dt : K} (hdt0 : 0 < vec dts i + dt)
    (hcarried : carried = if i = 0 then (0, 0) else P.pathVelocity S crops (i - 1))
    (hdtCarried : dt = if i = 0 then 0 else vec dts (i - 1)) :
    magnitude (P.pathAcceleration S crops i) =
      max (2 * |(P.pathVelocity S crops i).1 - carried.1| / (vec dts i + dt))
        (2 * |(P.pathVelocity S crops i).2 - carried.2| / (vec dts i + dt)) := by
  rw [magnitude, ← abs_div_half hdt0, ← abs_div_half hdt0, pathAcceleration, Shot.acceleration,
    Shot.acceleration, Shot.velocityChange, Shot.velocityChange, Shot.span, if_pos hi, if_pos hi,
    if_pos hi, hdt]
  cases i with
  | zero =>
    rw [if_pos rfl] at hcarried hdtCarried
    rw [hcarried, hdtCarried]
    rfl
  | succ i =>
    rw [if_neg (Nat.succ_ne_zero i)] at hcarried hdtCarried
    rw [hcarried, hdtCarried]
    rfl

omit [LinearOrder K] [IsStrictOrderedRing K] [Elementary K] in
/-- The velocity between two crops, as the loop computes it. -/
theorem pathVelocity_eq (hdt : S.dt = vec dts) (hlen : dts.length + 1 = crops.length) {i : ℕ}
    {previous crop : CropRect K} (hprevious : crops[i]? = some previous)
    (hcrop : crops[i + 1]? = some crop) :
    P.pathVelocity S crops i =
      ((crop.center.x - previous.center.x) / P.source true / vec dts i,
        (crop.center.y - previous.center.y) / P.source false / vec dts i) := by
  have hi : i + 1 < crops.length := (List.getElem?_eq_some_iff.mp hcrop).1
  have hpair : (crops.zip crops.tail)[i]? = some (previous, crop) :=
    List.getElem?_zip_eq_some.mpr ⟨hprevious, List.getElem?_tail.trans hcrop⟩
  have hvelocity := velocities_getElem? (P := P) hdt hlen hi
  rw [velocities, List.getElem?_zipWith, hpair, getElem?_eq_vec (by omega)] at hvelocity
  exact (Option.some.inj hvelocity).symm

/-- **One crop** after another. -/
theorem panStep_panAt (hdt : S.dt = vec dts) (hframes : S.frames = crops.length)
    (hlen : dts.length + 1 = crops.length) (hpos : ∀ dt ∈ dts, 0 < dt)
    (htimes : ∀ i o o', observations[i]? = some o → observations[i + 1]? = some o' →
      ((o'.timestampMs - o.timestampMs : ℤ) : K) / 1000 = vec dts i)
    (hheight : ∀ crop ∈ crops, 0 < crop.height) {i : ℕ} {st : PanState K}
    {o : RawFrameObservation K} {crop : CropRect K} (ho : observations[i]? = some o)
    (hcrop : crops[i]? = some crop) (hst : PanAt P S observations crops dts i st) :
    ∃ next, panStep (P.source true, P.source false) st o crop = .ok next ∧
      PanAt P S observations crops dts (i + 1) next := by
  cases i with
  | zero =>
    obtain rfl := hst
    refine ⟨_, rfl, hcrop.symm, fun o' ho' => ?_, rfl, rfl, rfl, rfl⟩
    rw [Option.some.inj (ho.symm.trans ho')]
  | succ i =>
    have hi : i + 1 < crops.length := (List.getElem?_eq_some_iff.mp hcrop).1
    obtain ⟨hprevious, htimestamp, hvelocity, hpreviousDt, hspeed, hacceleration⟩ := hst
    obtain ⟨previous, hat⟩ : ∃ previous, crops[i]? = some previous :=
      ⟨_, List.getElem?_eq_getElem (by omega)⟩
    obtain ⟨o', ho'⟩ : ∃ o', observations[i]? = some o' :=
      ⟨_, List.getElem?_eq_getElem (by have := (List.getElem?_eq_some_iff.mp ho).1; omega)⟩
    have hdti : ((o.timestampMs - st.previousTimestamp : ℤ) : K) / 1000 = vec dts i := by
      rw [htimestamp o' ho']
      exact htimes i o' o ho' ho
    have hdtPos : ∀ j, j + 1 < crops.length → 0 < vec dts j := fun j hj =>
      hpos _ (List.mem_of_getElem? (getElem?_eq_vec (by omega)))
    have hsum : 0 < vec dts i + st.previousDt := by
      rw [hpreviousDt]
      split_ifs with h0
      · rw [add_zero]
        exact hdtPos i hi
      · exact add_pos (hdtPos i hi) (hdtPos (i - 1) (by omega))
    have hzero : ¬ (previous.height = 0 ∨ (P.source true : K) = 0 ∨ (P.source false : K) = 0 ∨
        vec dts i = 0 ∨ vec dts i + st.previousDt = 0) := by
      have hx : (0 : K) < P.source true := Int.cast_pos.mpr P.seedPlanner.sourceWidth_pos
      have hy : (0 : K) < P.source false := Int.cast_pos.mpr P.seedPlanner.sourceHeight_pos
      rintro (h | h | h | h | h)
      · exact (hheight previous (List.mem_of_getElem? hat)).ne' h
      · exact hx.ne' h
      · exact hy.ne' h
      · exact (hdtPos i hi).ne' h
      · exact hsum.ne' h
    have hpath := pathVelocity_eq (P := P) hdt hlen hat hcrop
    unfold panStep
    rw [hprevious, hat]
    dsimp only
    rw [hdti, if_neg hzero]
    refine ⟨_, rfl, hcrop.symm, fun o'' ho'' => ?_, ?_, ?_, ?_, ?_⟩
    · rw [Option.some.inj (ho.symm.trans ho'')]
    · exact hpath.symm
    · rfl
    · dsimp only
      rw [max_assoc, hspeed, excess, sub_zero, magnitude, hpath]
    · dsimp only
      rw [max_assoc, hacceleration, excess, sub_zero,
        magnitude_pathAcceleration (hframes ▸ hi) hdt hsum hvelocity hpreviousDt, hpath]

/-- **The loop** finds the greatest speed of all intervals, and with the last rest the greatest
acceleration of all frames. -/
theorem panLoop (hdt : S.dt = vec dts) (hframes : S.frames = crops.length)
    (hlen : dts.length + 1 = crops.length) (hpos : ∀ dt ∈ dts, 0 < dt)
    (htimes : ∀ i o o', observations[i]? = some o → observations[i + 1]? = some o' →
      ((o'.timestampMs - o.timestampMs : ℤ) : K) / 1000 = vec dts i)
    (hheight : ∀ crop ∈ crops, 0 < crop.height) (hcount : observations.length = crops.length) :
    ∃ st, foldStrict (panStep (P.source true, P.source false)) .initial observations crops = .ok st ∧
      st.maxSpeed = excess 0 (fun j => magnitude (P.pathVelocity S crops j)) (crops.length - 1) ∧
      finalAcceleration st = if crops.length = 1 then 0 else
        excess 0 (fun j => magnitude (P.pathAcceleration S crops j)) crops.length := by
  obtain ⟨st, hst, hat⟩ := foldStrict_induction (PanAt P S observations crops dts) rfl
    (fun i st o crop ho hcrop h =>
      panStep_panAt hdt hframes hlen hpos htimes hheight ho hcrop h) hcount
  rw [hcount] at hat
  obtain ⟨n, hn⟩ : ∃ n, crops.length = n + 1 := ⟨crops.length - 1, by omega⟩
  rw [hn] at hat
  obtain ⟨-, -, hvelocity, hpreviousDt, hspeed, hacceleration⟩ := hat
  refine ⟨st, hst, ?_, ?_⟩
  · rw [hspeed, hn, Nat.add_sub_cancel]
  · rw [finalAcceleration, hpreviousDt, hvelocity, hacceleration]
    cases n with
    | zero =>
      rw [if_pos rfl, if_pos rfl, if_pos hn]
      rfl
    | succ n =>
      have hdtn : 0 < vec dts n := hpos _ (List.mem_of_getElem? (getElem?_eq_vec (by omega)))
      have hrest : ∀ acceleration : ℕ → K, excess 0 acceleration (n + 2) =
          max (excess 0 acceleration (n + 1)) (acceleration (n + 1)) := fun acceleration => by
        rw [excess, sub_zero]
      rw [if_neg (Nat.succ_ne_zero n), if_neg (Nat.succ_ne_zero n), Nat.add_sub_cancel,
        if_neg hdtn.ne', if_neg (by omega), hn, hrest, magnitude_last hdt hlen hn hframes hpos,
        max_assoc, magnitude, mul_comm (max _ _) 2, mul_max_of_nonneg _ _ zero_le_two,
        max_div_div_right hdtn.le]

/-! ## The trace of the same plan -/

/-- The speeds of both axes that a trace records. -/
def recordedSpeeds (trace : List (LookaheadPlannerFrameTrace K)) : Set K :=
  {s | ∃ t ∈ trace, ∃ v, (t.panVelocityXSourcePerSecond = some v ∨
    t.panVelocityYSourcePerSecond = some v) ∧ s = |v|}

variable {seed : CropPlan K (PlannerFrameTrace K)} {ms : List (FrameMeasurement K)}

omit [IsStrictOrderedRing K] [Elementary K] in
theorem mem_recordedSpeeds (hdt : S.dt = vec dts) (hlen : dts.length + 1 = crops.length)
    (hcrops : crops.length = ms.length) (hseed : seed.crops.length = ms.length) {s : K} :
    s ∈ recordedSpeeds (P.traces crops seed ms dts) ↔ ∃ j, j + 1 < crops.length ∧
      (s = |(P.pathVelocity S crops j).1| ∨ s = |(P.pathVelocity S crops j).2|) := by
  constructor
  · rintro ⟨trace, hmem, v, hv, rfl⟩
    obtain ⟨index, seedCrop, crop, m, causal, hlt, rfl⟩ := traces_mem hcrops hseed hmem
    cases index with
    | zero => obtain hv | hv := hv <;> cases hv
    | succ j =>
      refine ⟨j, hlt, ?_⟩
      have hvelocity := velocities_getElem? (P := P) hdt hlen hlt
      refine hv.imp (fun hv => ?_) fun hv => ?_
      all_goals
        change ((P.velocities crops dts)[j]?).map _ = some v at hv
        rw [hvelocity] at hv
        rw [← Option.some.inj hv]
  · rintro ⟨j, hj, hs⟩
    obtain ⟨_, _, _, _, htrace⟩ := traces_getElem? (P := P) dts hcrops hseed hj
    have hvelocity := velocities_getElem? (P := P) hdt hlen hj
    refine ⟨_, List.mem_of_getElem? htrace, ?_⟩
    obtain hs | hs := hs
    · exact ⟨_, .inl (congrArg (Option.map Prod.fst) hvelocity), hs⟩
    · exact ⟨_, .inr (congrArg (Option.map Prod.snd) hvelocity), hs⟩

omit [Elementary K] in
/-- **The greatest recorded speed** is that of the center path. -/
theorem isGreatest_recordedSpeeds (hdt : S.dt = vec dts) (hlen : dts.length + 1 = crops.length)
    (hcrops : crops.length = ms.length) (hseed : seed.crops.length = ms.length)
    (hn : 2 ≤ crops.length) : IsGreatest (recordedSpeeds (P.traces crops seed ms dts))
      (excess 0 (fun j => magnitude (P.pathVelocity S crops j)) (crops.length - 1)) := by
  have hnonneg : ∀ j, 0 ≤ magnitude (P.pathVelocity S crops j) := fun j =>
    le_max_of_le_left (abs_nonneg _)
  obtain ⟨⟨j, hj, heq⟩, hupper⟩ := isGreatest_excess (show 0 < crops.length - 1 by omega) hnonneg
  constructor
  · refine (mem_recordedSpeeds hdt hlen hcrops hseed).mpr ⟨j, by omega, ?_⟩
    rw [heq]
    exact max_choice _ _
  · intro s hs
    obtain ⟨j, hj, hs⟩ := (mem_recordedSpeeds hdt hlen hcrops hseed).mp hs
    refine le_trans ?_ (hupper ⟨j, by omega, rfl⟩)
    obtain rfl | rfl := hs
    · exact le_max_left _ _
    · exact le_max_right _ _

end Loop

section Report

variable {K : Type} [Field K] [LinearOrder K] [IsStrictOrderedRing K] [Elementary K]
  {linprog : Linprog K} {inputs : ShotInputs K} {observations : List (RawFrameObservation K)}
  {analysis : ShotAnalysis K}

/-- A planned shot traces its own crops, of a source of the displayed size. -/
theorem planShot_trace (hne : observations ≠ [])
    (h : planShot linprog inputs observations = .ok analysis) :
    ∃ (P : LookaheadCropPlanner) (seed : CropPlan K (PlannerFrameTrace K)),
      (P.source true, P.source false) = inputs.metadata.displayDimensions ∧
      P.seedPlanner.plan analysis.measurements = .ok seed ∧
      seed.crops.length = analysis.measurements.length ∧
      analysis.plan.crops.length = analysis.measurements.length ∧
      analysis.plan.trace = P.traces analysis.plan.crops seed analysis.measurements
        (intervals analysis.measurements) ∧
      (intervals analysis.measurements).length + 1 = analysis.plan.crops.length ∧
      ∀ dt ∈ intervals analysis.measurements, 0 < dt := by
  unfold planShot at h
  dsimp only at h
  split at h
  · cases h
  · rename_i plan hplan
    obtain rfl := Except.ok.inj h
    obtain ⟨seedPlanner, hmake, hplan⟩ := Except.bind_eq_ok.mp hplan
    have hne' : plannerMeasurements observations ≠ [] := by
      rwa [← List.length_pos_iff, plannerMeasurements_length, List.length_pos_iff]
    obtain ⟨seed, hrest⟩ := plan_trace hne' hplan
    refine ⟨⟨seedPlanner⟩, seed, ?_, hrest⟩
    unfold DeterministicCropPlanner.make at hmake
    split_ifs at hmake
    obtain rfl := Except.ok.inj hmake
    rfl

omit [LinearOrder K] [IsStrictOrderedRing K] [Elementary K] in
/-- The intervals of the measurements are those of the observations. -/
theorem intervals_plannerMeasurements {i : ℕ} {o o' : RawFrameObservation K}
    (ho : observations[i]? = some o) (ho' : observations[i + 1]? = some o') :
    ((o'.timestampMs - o.timestampMs : ℤ) : K) / 1000 =
      vec (intervals (plannerMeasurements observations)) i := by
  have htime : ∀ {j : ℕ} {o : RawFrameObservation K}, observations[j]? = some o →
      ∃ m, (plannerMeasurements observations)[j]? = some m ∧ m.timestampMs = o.timestampMs := by
    intro j o ho
    have hj := congrArg (·[j]?) (measurementsFrom_timestamps none observations)
    rw [List.getElem?_map, List.getElem?_map, ho] at hj
    exact Option.map_eq_some_iff.mp hj
  obtain ⟨m, hm, ht⟩ := htime ho
  obtain ⟨m', hm', ht'⟩ := htime ho'
  refine (vec_of_getElem? ?_).symm
  rw [intervals, List.getElem?_zipWith, hm, List.getElem?_tail, hm', ← ht, ← ht']

omit [IsStrictOrderedRing K] in
/-- A report is made of the variables after both loops. -/
theorem analysisReport_of {measurements : List (FrameMeasurement K)} {crops : List (CropRect K)}
    (trace : Option (List (PlannerTrace K))) {metadata : MediaMetadata} {pan : PanState K}
    (hlen : observations.length = measurements.length)
    (hpan : foldStrict (panStep metadata.displayDimensions) .initial observations crops = .ok pan) :
    ∃ found longestGapMs, analysisReport observations measurements crops trace metadata =
      .ok (.of observations.length found longestGapMs pan trace) := by
  obtain ⟨found, hfound, -⟩ := foldStrict_induction (fun _ _ => True) trivial
    (fun _ st observation measurement _ _ _ => ⟨detectionStep st observation measurement, rfl,
      trivial⟩) hlen
  obtain ⟨longestGapMs, hgap⟩ : ∃ gap, finalGapMs metadata observations.length found = .ok gap := by
    unfold finalGapMs
    cases found.gapStart with
    | none => exact ⟨_, rfl⟩
    | some start =>
      rw [MediaMetadata.timestampForFrame, if_neg (Int.natCast_nonneg _).not_gt]
      exact ⟨_, rfl⟩
  refine ⟨found, longestGapMs, ?_⟩
  rw [analysisReport, hfound, Except.ok_bind, hgap, Except.ok_bind, hpan, Except.ok_bind]

omit [Field K] [LinearOrder K] [IsStrictOrderedRing K] [Elementary K] in
theorem countLookahead_pos_iff {trace : List (LookaheadPlannerFrameTrace K)}
    {test : LookaheadPlannerFrameTrace K → Bool} :
    0 < countLookahead (trace.map .inr) test ↔ ∃ t ∈ trace, test t = true := by
  rw [countLookahead, List.countP_map, Int.natCast_pos, List.countP_pos_iff]
  rfl

omit [IsStrictOrderedRing K] in
theorem planShot_of_plan {seedPlanner : DeterministicCropPlanner}
    {plan : CropPlan K (LookaheadPlannerFrameTrace K)}
    (hmake : DeterministicCropPlanner.make inputs.metadata.displayDimensions.1
      inputs.metadata.displayDimensions.2 inputs.outputSettings.aspectRatio
      inputs.outputSettings.profile = .ok seedPlanner)
    (hplan : LookaheadCropPlanner.plan ⟨seedPlanner⟩ linprog (plannerMeasurements observations) =
      .ok plan) : planShot linprog inputs observations =
        .ok ⟨observations, plannerMeasurements observations, plan⟩ := by
  unfold planShot
  dsimp only
  rw [hmake, Except.ok_bind, hplan]

omit [IsStrictOrderedRing K] in
/-- A shot without frames has an empty plan. -/
theorem planShot_nil (h : planShot linprog inputs [] = .ok analysis) :
    analysis = ⟨[], [], .ofFrames []⟩ := by
  unfold planShot at h
  dsimp only at h
  split at h
  · cases h
  · rename_i plan hplan
    obtain ⟨seedPlanner, -, hplan⟩ := Except.bind_eq_ok.mp hplan
    obtain rfl := Except.ok.inj h
    rw [show plannerMeasurements ([] : List (RawFrameObservation K)) = [] from rfl, plan_nil] at hplan
    obtain rfl := Except.ok.inj hplan
    rfl

omit [IsStrictOrderedRing K] [Elementary K] in
theorem flagBound_limits [IsStrictOrderedRing K] :
    (0 : K) < flagBound panMaxSpeed ∧ (0 : K) < flagBound panMaxAcceleration :=
  ⟨flagBound_pos (by norm_num [panMaxSpeed]), flagBound_pos (by norm_num [panMaxAcceleration])⟩

/-- The loop over the crops of a planned shot. -/
theorem planShot_panLoop (hne : observations ≠ [])
    (h : planShot linprog inputs observations = .ok analysis) {P : LookaheadCropPlanner}
    (hdims : (P.source true, P.source false) = inputs.metadata.displayDimensions)
    (hcrops : analysis.plan.crops.length = analysis.measurements.length)
    (hdts : (intervals analysis.measurements).length + 1 = analysis.plan.crops.length)
    (hpos : ∀ dt ∈ intervals analysis.measurements, 0 < dt) {S : Shot K}
    (hframes : S.frames = analysis.plan.crops.length)
    (hdt : S.dt = vec (intervals analysis.measurements)) :
    ∃ pan, foldStrict (panStep inputs.metadata.displayDimensions) .initial observations
        analysis.plan.crops = .ok pan ∧
      pan.maxSpeed = excess 0 (fun j => magnitude (P.pathVelocity S analysis.plan.crops j))
        (analysis.plan.crops.length - 1) ∧
      finalAcceleration pan = if analysis.plan.crops.length = 1 then 0 else
        excess 0 (fun j => magnitude (P.pathAcceleration S analysis.plan.crops j))
          analysis.plan.crops.length := by
  obtain ⟨-, hmeasurements, -, hsize⟩ := planShot_eq_ok hne h
  have hlength : analysis.measurements.length = observations.length := by
    rw [hmeasurements, plannerMeasurements_length]
  rw [← hdims]
  exact panLoop hdt hframes hdts hpos
    (fun i o o' ho ho' => hmeasurements ▸ intervals_plannerMeasurements ho ho')
    (fun crop hcrop => (hsize crop hcrop).2) (hcrops.trans hlength).symm

/-- **The report and the trace of a plan agree** on its motion: the greatest speed is the greatest
recorded one, zero for a single frame, and a limit is exceeded in the report exactly when it is on
some frame. -/
theorem report_kinematics (h : planShot linprog inputs observations = .ok analysis) :
    ∃ report counts, analysisReport analysis.observations analysis.measurements analysis.plan.crops
        (some (analysis.plan.trace.map .inr)) inputs.metadata = .ok report ∧
      report.counts = some counts ∧
      (2 ≤ observations.length →
        IsGreatest (recordedSpeeds analysis.plan.trace) report.maxSpeed) ∧
      (observations.length ≤ 1 → report.maxSpeed = 0) ∧
      (0 < report.speedExcess ↔ 0 < counts.speedExceeded) ∧
      (0 < report.accelerationExcess ↔ 0 < counts.accelerationExceeded) := by
  obtain ⟨hspeedBound, haccelerationBound⟩ := flagBound_limits (K := K)
  rcases eq_or_ne observations [] with rfl | hne
  · -- there is no frame
    obtain rfl := planShot_nil h
    have hrest : finalAcceleration (.initial : PanState K) = 0 := if_pos rfl
    refine ⟨_, _, rfl, rfl, fun hn => absurd hn (Nat.not_succ_le_zero 1), fun _ => rfl, ?_, ?_⟩
    · exact iff_of_false (fun hlt => hspeedBound.not_gt (limitExcess_pos_iff.mp hlt)) (lt_irrefl 0)
    · refine iff_of_false (fun hlt => haccelerationBound.not_gt ?_) (lt_irrefl 0)
      exact (limitExcess_pos_iff.mp hlt).trans_eq hrest
  obtain ⟨P, seed, hdims, -, hseed, hcrops, htrace, hdts, hpos⟩ := planShot_trace hne h
  obtain ⟨hsame, hmeasurements, -⟩ := planShot_eq_ok hne h
  have hlength : analysis.measurements.length = observations.length := by
    rw [hmeasurements, plannerMeasurements_length]
  have hcount : observations.length = analysis.plan.crops.length := (hcrops.trans hlength).symm
  let S : Shot K :=
    ⟨analysis.plan.crops.length, vec (intervals analysis.measurements), 0, 0, 0, 0⟩
  obtain ⟨pan, hpan, hspeed, hacceleration⟩ := planShot_panLoop (S := S) hne h hdims hcrops hdts
    hpos rfl rfl
  obtain ⟨found, longestGapMs, hreport⟩ := analysisReport_of
    (some (analysis.plan.trace.map .inr)) hlength.symm hpan
  rw [hsame]
  refine ⟨_, _, hreport, rfl, fun hn => ?_, fun hn => ?_, ?_, ?_⟩
  · rw [htrace]
    change IsGreatest _ pan.maxSpeed
    rw [hspeed]
    exact isGreatest_recordedSpeeds rfl hdts hcrops hseed (hcount ▸ hn)
  · change pan.maxSpeed = 0
    rw [hspeed, show analysis.plan.crops.length - 1 = 0 by omega]
    rfl
  · change 0 < limitExcess pan.maxSpeed _ ↔ 0 < countLookahead _ _
    rw [limitExcess_pos_iff, hspeed, lt_excess_iff hspeedBound.le, countLookahead_pos_iff, htrace,
      traces_speed_flag (S := S) rfl hdts hcrops hseed]
    refine exists_congr fun j => and_congr_left fun _ => ?_
    omega
  · change 0 < limitExcess (finalAcceleration pan) _ ↔ 0 < countLookahead _ _
    rw [limitExcess_pos_iff, hacceleration, countLookahead_pos_iff, htrace,
      traces_acceleration_flag (S := S) rfl hdts hcrops hseed rfl hpos]
    split_ifs with hone
    · exact iff_of_false haccelerationBound.not_gt fun h => absurd h.1 (by omega)
    · have hpos := List.length_pos_iff.mpr hne
      rw [lt_excess_iff haccelerationBound.le, and_iff_right (by omega)]

end Report

section Shot

/-- A full-HD source in portrait. -/
noncomputable def hdInputs : ShotInputs ℝ where
  metadata := .probed 1920 1080 10 (2 / 10) "h264" 0 none
  selection := ⟨0, 1 / 2, 1 / 2⟩
  outputSettings := ⟨.portrait, .balanced⟩
  detectionSampleFps := 10

/-- A detection, and a frame without one. -/
noncomputable def hdObservations : List (RawFrameObservation ℝ) :=
  [⟨0, 0, some ⟨⟨800, 200, 150, 350⟩, 1⟩, .selectedContainingTap, none⟩,
    ⟨1, 100, none, .noDetections, none⟩]

theorem plannerMeasurements_hdObservations : plannerMeasurements hdObservations =
    [⟨some ⟨800, 200, 150, 350⟩, 0, 1, true⟩, ⟨none, 100, 0, true⟩] :=
  rfl

theorem planShot_hdObservations :
    ∃ analysis, planShot exactLinprog hdInputs hdObservations = .ok analysis := by
  have hlegal : DeterministicCropPlanner.hdPlanner.Legal (plannerMeasurements hdObservations) := by
    rw [plannerMeasurements_hdObservations]
    refine ⟨by simp, by simp, ?_⟩
    simp only [List.forall_mem_cons, Option.mem_def, Option.some.injEq, forall_eq', reduceCtorEq,
      false_implies, implies_true, List.not_mem_nil, and_true]
    exact ⟨by norm_num, by norm_num, by norm_num,
      by norm_num [Rect.right, DeterministicCropPlanner.hdPlanner], by norm_num,
      by norm_num [Rect.bottom, DeterministicCropPlanner.hdPlanner]⟩
  obtain ⟨plan, hplan⟩ := plan_exact (P := ⟨DeterministicCropPlanner.hdPlanner⟩) hlegal
    exactLinprog_exact
  exact ⟨_, planShot_of_plan (show DeterministicCropPlanner.make 1920 1080 .portrait .balanced =
    .ok DeterministicCropPlanner.hdPlanner from rfl) hplan⟩

theorem report_kinematics_hdObservations : ∃ analysis report,
    planShot exactLinprog hdInputs hdObservations = .ok analysis ∧
      analysisReport analysis.observations analysis.measurements analysis.plan.crops
        (some (analysis.plan.trace.map .inr)) hdInputs.metadata = .ok report ∧
      IsGreatest (recordedSpeeds analysis.plan.trace) report.maxSpeed := by
  obtain ⟨analysis, hanalysis⟩ := planShot_hdObservations
  obtain ⟨report, -, hreport, -, hgreatest, -⟩ := report_kinematics hanalysis
  exact ⟨analysis, report, hanalysis, hreport, hgreatest le_rfl⟩

end Shot

end ProcessingPipeline

end BoulderFrame
