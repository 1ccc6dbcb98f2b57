import BoulderFrame.Evaluation.Reports

/-!
# Summaries

A summary counts what holds on the frames of a report, and averages their metrics. Rates and means
are in the range of what they summarize. The reports with the same versions have one summary of all
their frames.

## Main definitions

* `Aggregate.InRange`: how a summary is bounded

## Main results

* `aggregate_inRange`: the summary of metrics in range
* `aggregateReports_loaded`: the summaries of the reports of loaded bundles
* `aggregateReports_partition`: each report counts in one summary
-/

namespace BoulderFrame

namespace Evaluation

variable {K : Type} [Field K] [LinearOrder K] [IsStrictOrderedRing K]

/-- How a summary is bounded, and how its parts depend on each other: a detection that is not the one
of the annotated box is one that is missed as well, and the mean overlap is at least what the selected
detections need. -/
structure Aggregate.InRange (a : Aggregate K) : Prop where
  rates : ∀ rate ∈ [a.detectionAvailability, a.meanDetectionIou, a.selectionPrecision,
    a.selectionRecall, a.cropContainment, a.sourceAspectLimitedRate, a.edgeRiskRate],
    ∀ x ∈ rate, 0 ≤ x ∧ x ≤ 1
  selection : a.selectionPrecision = a.selectionRecall
  overlap : ∀ precision ∈ a.selectionPrecision, ∃ x ∈ a.meanDetectionIou,
    selectionIouThreshold * precision ≤ x
  scale : ∀ x ∈ a.meanSubjectScale, 0 < x
  motion : ∀ mean ∈ [a.meanPanVelocity, a.meanPanAcceleration, a.meanPanJerk, a.meanZoomVelocity,
    a.meanZoomAcceleration, a.meanZoomJerk], ∀ x ∈ mean, 0 ≤ x

/-! ## Rates and means -/

section Means

theorem rate_mem {n d : ℕ} (h : n ≤ d) : ∀ x ∈ (rate n d : Option K), 0 ≤ x ∧ x ≤ 1 := by
  intro x hx
  unfold rate at hx
  split_ifs at hx
  · cases hx
  · obtain rfl := Option.some.inj hx
    exact ⟨by positivity, div_le_one_of_le₀ (Nat.cast_le.mpr h) (Nat.cast_nonneg d)⟩

variable {values : List (Option K)}

omit [LinearOrder K] [IsStrictOrderedRing K] in
theorem mean_eq_some {x : K} : mean values = some x ↔
    values.reduceOption ≠ [] ∧ values.reduceOption.sum / values.reduceOption.length = x := by
  unfold mean
  simp only [List.isEmpty_iff]
  split_ifs with h <;> simp [h]

omit [Field K] [LinearOrder K] [IsStrictOrderedRing K] in
theorem forall_mem_reduceOption {P : K → Prop} (h : ∀ v ∈ values, ∀ x ∈ v, P x) :
    ∀ x ∈ values.reduceOption, P x :=
  fun x hx => h (some x) (List.reduceOption_mem_iff.mp hx) x rfl

theorem length_cast_pos {numbers : List K} (h : numbers ≠ []) : (0 : K) < numbers.length :=
  Nat.cast_pos.mpr (List.length_pos_of_ne_nil h)

theorem le_mean {low : K} (h : ∀ v ∈ values, ∀ x ∈ v, low ≤ x) : ∀ x ∈ mean values, low ≤ x := by
  intro x hx
  obtain ⟨hne, rfl⟩ := mean_eq_some.mp hx
  rw [le_div_iff₀ (length_cast_pos hne), mul_comm, ← nsmul_eq_mul]
  exact List.card_nsmul_le_sum _ _ (forall_mem_reduceOption h)

theorem mean_le {high : K} (h : ∀ v ∈ values, ∀ x ∈ v, x ≤ high) : ∀ x ∈ mean values, x ≤ high := by
  intro x hx
  obtain ⟨hne, rfl⟩ := mean_eq_some.mp hx
  rw [div_le_iff₀ (length_cast_pos hne), mul_comm, ← nsmul_eq_mul]
  exact List.sum_le_card_nsmul _ _ (forall_mem_reduceOption h)

theorem mean_pos (h : ∀ v ∈ values, ∀ x ∈ v, 0 < x) : ∀ x ∈ mean values, 0 < x := by
  intro x hx
  obtain ⟨hne, rfl⟩ := mean_eq_some.mp hx
  exact div_pos (List.sum_pos _ (forall_mem_reduceOption h) hne) (length_cast_pos hne)

end Means

/-! ## The summary of metrics in range -/

section InRange

variable {frames : List (FrameMetrics K)}

omit [IsStrictOrderedRing K] in
/-- What the selection has been evaluated on. -/
theorem selectionEvaluated_eq (h : ∀ m ∈ frames, m.InRange) :
    ((frames.filter fun m => m.detectionAvailable.isSome || m.cropContainsSubject.isSome).filter
      fun m => m.selectionCorrect.isSome) = frames.filter fun m => m.selectionCorrect.isSome := by
  rw [List.filter_filter]
  refine List.filter_congr fun m hm => ?_
  cases hcorrect : m.selectionCorrect.isSome with
  | false => rfl
  | true => simp [(h m hm).selection.mp hcorrect]

omit [IsStrictOrderedRing K] in
/-- The overlaps that have been measured. -/
theorem sampled_reduceOption (h : ∀ m ∈ frames, m.InRange) :
    ((frames.filter fun m => m.detectionAvailable.isSome).map (·.detectionIou)).reduceOption =
      (frames.map (·.detectionIou)).reduceOption := by
  induction frames with
  | nil => rfl
  | cons m frames ih =>
    obtain ⟨hm, hframes⟩ := List.forall_mem_cons.mp h
    cases hsampled : m.detectionAvailable.isSome with
    | true =>
      rw [List.filter_cons_of_pos (by simpa using hsampled), List.map_cons, List.map_cons]
      cases m.detectionIou <;> simp [ih hframes]
    | false =>
      have hnone : m.detectionIou = none := by
        rw [← Option.not_isSome_iff_eq_none]
        intro hmeasured
        simp [hm.measured.mp hmeasured] at hsampled
      rw [List.filter_cons_of_neg (by simp [hsampled]), List.map_cons, hnone,
        List.reduceOption_cons_of_none, ih hframes]

omit [IsStrictOrderedRing K] in
/-- The selection is evaluated where an overlap is measured. -/
theorem length_measured (h : ∀ m ∈ frames, m.InRange) :
    (frames.map (·.detectionIou)).reduceOption.length =
      (frames.filter fun m => m.selectionCorrect.isSome).length := by
  induction frames with
  | nil => rfl
  | cons m frames ih =>
    obtain ⟨hm, hframes⟩ := List.forall_mem_cons.mp h
    have hsame : m.selectionCorrect.isSome = m.detectionIou.isSome :=
      Bool.eq_iff_iff.mpr (hm.selection.trans hm.measured.symm)
    cases hiou : m.detectionIou with
    | none => simp [hsame, hiou, ih hframes]
    | some x => simp [hsame, hiou, ih hframes]

/-- Each selected detection overlaps the annotated box by the threshold. -/
theorem threshold_mul_le (h : ∀ m ∈ frames, m.InRange) :
    selectionIouThreshold * ((frames.countP fun m => m.selectionCorrect = some true : ℕ) : K) ≤
      (frames.map (·.detectionIou)).reduceOption.sum := by
  induction frames with
  | nil => simp
  | cons m frames ih =>
    obtain ⟨hm, hframes⟩ := List.forall_mem_cons.mp h
    have hrest := ih hframes
    by_cases hcorrect : m.selectionCorrect = some true
    · obtain ⟨x, hx, hle⟩ := hm.correct hcorrect
      rw [List.countP_cons_of_pos (by simp [hcorrect]), List.map_cons, hx,
        List.reduceOption_cons_of_some, List.sum_cons]
      push_cast
      linarith
    · rw [List.countP_cons_of_neg (by simp [hcorrect])]
      refine hrest.trans ?_
      cases hiou : m.detectionIou with
      | none => simp [hiou]
      | some x =>
        have := (hm.iou x hiou).1
        simpa [hiou] using this

omit [Field K] [LinearOrder K] [IsStrictOrderedRing K] in
/-- The selection is right or wrong where it is evaluated. -/
theorem length_evaluated (frames : List (FrameMetrics K)) :
    (frames.filter fun m => m.selectionCorrect.isSome).length =
      (frames.countP fun m => m.selectionCorrect = some true) +
        frames.countP fun m => m.selectionCorrect = some false := by
  induction frames with
  | nil => rfl
  | cons m frames ih =>
    cases hcorrect : m.selectionCorrect with
    | none => simp [hcorrect, ih]
    | some correct => cases correct <;> simp [hcorrect, ih] <;> omega

omit [Field K] [LinearOrder K] [IsStrictOrderedRing K] in
theorem countP_evaluated {correct : Bool} :
    ((frames.filter fun m => m.selectionCorrect.isSome).countP fun m =>
      m.selectionCorrect = some correct) =
        frames.countP fun m => m.selectionCorrect = some correct := by
  rw [List.countP_filter]
  refine List.countP_congr fun m _ => ?_
  cases hcorrect : m.selectionCorrect <;> simp

/-- **The summary** of metrics in range. -/
theorem aggregate_inRange (h : ∀ m ∈ frames, m.InRange ∧ m.Nonneg) : (aggregate frames).InRange := by
  have hrange : ∀ m ∈ frames, m.InRange := fun m hm => (h m hm).1
  have hlength := length_evaluated frames
  set correct := frames.countP fun m => m.selectionCorrect = some true with hcorrect
  set wrong := frames.countP fun m => m.selectionCorrect = some false with hwrong
  -- both rates divide by the evaluated selections, each of which is right or wrong
  have hprecision : (aggregate frames).selectionPrecision = rate correct (correct + wrong) := by
    unfold aggregate
    dsimp only
    rw [selectionEvaluated_eq hrange, countP_evaluated, countP_evaluated]
  have hrecall : (aggregate frames).selectionRecall = rate correct (correct + wrong) := by
    unfold aggregate
    dsimp only
    rw [selectionEvaluated_eq hrange, countP_evaluated, hlength, Nat.add_sub_cancel_left,
      ← hcorrect]
  have hiou : (aggregate frames).meanDetectionIou = mean (frames.map (·.detectionIou)) := by
    change mean _ = _
    rw [mean, mean, sampled_reduceOption hrange]
  have hmotion : ∀ v : FrameMetrics K → Option K, (∀ m ∈ frames, ∀ x ∈ v m, 0 ≤ x) →
      ∀ x ∈ mean (frames.map v), 0 ≤ x := fun v hv => le_mean (List.forall_mem_map.mpr hv)
  refine ⟨?_, hprecision.trans hrecall.symm, ?_, ?_, ?_⟩
  · rw [hprecision, hrecall, hiou]
    simp only [List.forall_mem_cons, List.not_mem_nil, false_implies, implies_true, and_true]
    refine ⟨rate_mem List.countP_le_length, fun x hx => ⟨?_, ?_⟩, rate_mem (Nat.le_add_right ..),
      rate_mem (Nat.le_add_right ..), rate_mem List.countP_le_length, rate_mem List.countP_le_length,
      rate_mem List.countP_le_length⟩
    · exact le_mean (List.forall_mem_map.mpr fun m hm x hx => ((hrange m hm).iou x hx).1) x hx
    · exact mean_le (List.forall_mem_map.mpr fun m hm x hx => ((hrange m hm).iou x hx).2) x hx
  · intro precision hp
    rw [hprecision] at hp
    unfold rate at hp
    split_ifs at hp with hzero
    · cases hp
    · obtain rfl := Option.some.inj hp
      -- a selection is evaluated where an overlap is measured, so the mean has the same denominator
      have hmeasured := (length_measured hrange).trans hlength
      have hne : (frames.map (·.detectionIou)).reduceOption ≠ [] :=
        List.ne_nil_of_length_pos (by omega)
      refine ⟨_, hiou.trans (mean_eq_some.mpr ⟨hne, rfl⟩), ?_⟩
      rw [hmeasured, ← mul_div_assoc]
      exact div_le_div_of_nonneg_right (threshold_mul_le hrange) (Nat.cast_nonneg _)
  · exact mean_pos (List.forall_mem_map.mpr fun m hm =>
      (hrange m (List.mem_of_mem_filter hm)).scale)
  · simp only [List.forall_mem_cons, List.not_mem_nil, false_implies, implies_true, and_true]
    exact ⟨hmotion _ fun m hm => (h m hm).2.panVelocity, hmotion _ fun m hm => (h m hm).2.panAcceleration,
      hmotion _ fun m hm => (h m hm).2.panJerk, hmotion _ fun m hm => (h m hm).2.zoomVelocity,
      hmotion _ fun m hm => (h m hm).2.zoomAcceleration, hmotion _ fun m hm => (h m hm).2.zoomJerk⟩

end InRange

/-! ## The summaries of reports -/

section Reports

variable {frames frames' : List (FrameMetrics K)} {reports reports' : List (EvaluationReport K)}

omit [LinearOrder K] [IsStrictOrderedRing K] in
theorem mean_perm {values values' : List (Option K)} (h : values.Perm values') :
    mean values = mean values' := by
  have hnumeric : values.reduceOption.Perm values'.reduceOption := h.filterMap _
  unfold mean
  dsimp only
  rw [hnumeric.sum_eq, hnumeric.length_eq]
  simp only [List.isEmpty_iff_length_eq_zero, hnumeric.length_eq]

omit [LinearOrder K] [IsStrictOrderedRing K] in
/-- A summary does not depend on the order of the frames. -/
theorem aggregate_perm (h : frames.Perm frames') : aggregate frames = aggregate frames' := by
  have hsampled := h.filter fun m => m.detectionAvailable.isSome
  have hvisible := h.filter fun m => m.detectionAvailable.isSome || m.cropContainsSubject.isSome
  have hevaluated := hvisible.filter fun m => m.selectionCorrect.isSome
  unfold aggregate
  simp only [hsampled.length_eq, hvisible.length_eq, hevaluated.length_eq, hsampled.countP_eq,
    hvisible.countP_eq, hevaluated.countP_eq, mean_perm (hsampled.map _), mean_perm (hvisible.map _),
    mean_perm (h.map _)]

/-- The frames of the reports of a segment. -/
def segmentFrames (reports : List (EvaluationReport K)) (key : List (String × String)) :
    List (FrameMetrics K) :=
  (reports.filter fun report => segmentKey report = key).flatMap (·.frames)

omit [LinearOrder K] [IsStrictOrderedRing K] in
theorem mem_aggregateReports {key : List (String × String)} {summary : Aggregate K} :
    (key, summary) ∈ aggregateReports reports ↔
      (∃ report ∈ reports, segmentKey report = key) ∧
        summary = aggregate (segmentFrames reports key) := by
  unfold aggregateReports
  rw [List.mem_map]
  constructor
  · rintro ⟨group, hgroup, heq⟩
    obtain ⟨rfl, rfl⟩ := Prod.mk.inj heq
    obtain ⟨hkey, hitems⟩ := mem_groupBy.mp hgroup
    exact ⟨List.mem_map.mp hkey, by rw [segmentFrames, ← hitems]⟩
  · rintro ⟨hkey, rfl⟩
    exact ⟨(key, reports.filter fun report => segmentKey report = key),
      mem_groupBy.mpr ⟨List.mem_map.mpr hkey, rfl⟩, rfl⟩

omit [LinearOrder K] [IsStrictOrderedRing K] in
theorem aggregateReports_keys : ((aggregateReports reports).map Prod.fst).Nodup := by
  unfold aggregateReports
  rw [List.map_map]
  exact (groupBy_grouped segmentKey reports).nodup

omit [LinearOrder K] [IsStrictOrderedRing K] in
/-- The annotated frames of some reports add up. -/
theorem annotatedFrames_flatMap (reports : List (EvaluationReport K)) :
    (aggregate (reports.flatMap (·.frames))).annotatedFrames =
      (reports.map fun report => (aggregate report.frames).annotatedFrames).sum := by
  induction reports with
  | nil => rfl
  | cons report reports ih =>
    rw [List.flatMap_cons, List.map_cons, List.sum_cons, ← ih]
    unfold aggregate
    dsimp only
    rw [List.filter_append, List.length_append]

omit [LinearOrder K] [IsStrictOrderedRing K] in
/-- The annotated frames of groups of reports add up. -/
theorem annotatedFrames_groups (groups : List (List (String × String) × List (EvaluationReport K))) :
    (groups.map fun group => (aggregate (group.2.flatMap (·.frames))).annotatedFrames).sum =
      (aggregate ((groups.flatMap Prod.snd).flatMap (·.frames))).annotatedFrames := by
  induction groups with
  | nil => rfl
  | cons group groups ih =>
    rw [List.map_cons, List.sum_cons, ih, List.flatMap_cons, annotatedFrames_flatMap,
      annotatedFrames_flatMap, annotatedFrames_flatMap, List.map_append, List.sum_append]

omit [LinearOrder K] [IsStrictOrderedRing K] in
/-- **Each report counts in one summary**: the versions and the format of a report have one summary, of
the frames of all reports with them, so that no annotated frame is lost or counts twice, and the
summaries do not depend on the order of the reports. -/
theorem aggregateReports_partition (reports : List (EvaluationReport K)) :
    ((aggregateReports reports).map Prod.fst).Nodup ∧
    (∀ key summary, (key, summary) ∈ aggregateReports reports ↔
      (∃ report ∈ reports, segmentKey report = key) ∧
        summary = aggregate (segmentFrames reports key)) ∧
    ((aggregateReports reports).map fun group => group.2.annotatedFrames).sum =
      (reports.map fun report => (aggregate report.frames).annotatedFrames).sum ∧
    ∀ reports', reports'.Perm reports →
      (aggregateReports reports').Perm (aggregateReports reports) := by
  refine ⟨aggregateReports_keys, fun _ _ => mem_aggregateReports, ?_, fun reports' hperm => ?_⟩
  · have hframes : ((groupBy segmentKey reports).flatMap Prod.snd |>.flatMap (·.frames)).Perm
        (reports.flatMap (·.frames)) := (groupBy_flatMap_perm reports).flatMap_right _
    rw [← annotatedFrames_flatMap, ← aggregate_perm hframes, ← annotatedFrames_groups,
      aggregateReports, List.map_map]
    rfl
  · have hframes : ∀ key, aggregate (segmentFrames reports' key) = aggregate (segmentFrames reports key) :=
      fun key => aggregate_perm ((hperm.filter _).flatMap_right _)
    refine (List.perm_ext_iff_of_nodup (.of_map _ aggregateReports_keys)
      (.of_map _ aggregateReports_keys)).mpr fun entry => ?_
    obtain ⟨key, summary⟩ := entry
    rw [mem_aggregateReports, mem_aggregateReports, hframes key]
    exact and_congr_left fun _ => exists_congr fun report => and_congr_left fun _ => hperm.mem_iff

variable [Elementary K] {hypot : K → K → K}

/-- **The summaries of the reports** of loaded bundles. -/
theorem aggregateReports_loaded (hhypot : ∀ x y, 0 ≤ hypot x y) (hsize : ∀ x y, x ≤ hypot x y)
    (hreports : ∀ report ∈ reports, ∃ records limit path file bundle annotations,
      loadDebugBundle records limit = .ok bundle ∧ loadAnnotations path file = .ok annotations ∧
        evaluate hypot bundle annotations = .ok report) :
    (∀ report ∈ reports, report.aggregate.InRange) ∧
      ∀ group ∈ aggregateReports reports, group.2.InRange := by
  have hsound : ∀ report ∈ reports, report.aggregate = aggregate report.frames ∧
      ∀ m ∈ report.frames, m.InRange ∧ m.Nonneg := by
    intro report hreport
    obtain ⟨records, limit, path, file, bundle, annotations, hbundle, hannotations, heval⟩ :=
      hreports report hreport
    have hsource : sourceMatches bundle.header.source annotations.source = true := by
      rw [← Bool.not_eq_false]
      intro hdiffer
      unfold evaluate at heval
      rw [if_pos hdiffer] at heval
      cases heval
    obtain ⟨report', heval', hsound⟩ :=
      evaluate_eq_ok hhypot hsize (.of_ok hbundle) (.of_ok hannotations) hsource
    obtain rfl := Except.ok.inj (heval.symm.trans heval')
    exact ⟨hsound.aggregate, fun m hm => ⟨(hsound.frames m hm).inRange, (hsound.frames m hm).motion⟩⟩
  refine ⟨fun report hreport => ?_, fun group hgroup => ?_⟩
  · obtain ⟨haggregate, hframes⟩ := hsound report hreport
    rw [haggregate]
    exact aggregate_inRange hframes
  · rw [(mem_aggregateReports.mp hgroup).2]
    refine aggregate_inRange fun m hm => ?_
    obtain ⟨report, hreport, hm⟩ := List.mem_flatMap.mp hm
    exact (hsound report (List.mem_of_mem_filter hreport)).2 m hm

end Reports

section ThreeFrames

attribute [local instance] idleElementary

/-- The report of the three frames, and the summary of it read twice. -/
theorem aggregateReports_loaded_threeFrames : ∃ bundle annotations report,
    loadDebugBundle threeFramesRecords 10 = .ok bundle ∧
    loadAnnotations "case.json" (some (.ok threeFramesAnnotations.record)) = .ok annotations ∧
    evaluate sourceHypot bundle annotations = .ok report ∧
    report.aggregate.InRange ∧
      ∀ group ∈ aggregateReports [report, report], group.2.InRange := by
  obtain ⟨bundle, annotations, hbundle, hannotations, hsource⟩ := threeFrames_accepted
  obtain ⟨report, hreport, -⟩ := evaluate_eq_ok sourceHypot_nonneg le_sourceHypot (.of_ok hbundle)
    (.of_ok hannotations) hsource
  have hreports : ∀ report' ∈ [report, report], ∃ records limit path file bundle annotations,
      loadDebugBundle records limit = .ok bundle ∧ loadAnnotations path file = .ok annotations ∧
        evaluate sourceHypot bundle annotations = .ok report' := by
    intro report' hmem
    obtain rfl : report' = report := by simpa using hmem
    exact ⟨_, _, _, _, bundle, annotations, hbundle, hannotations, hreport⟩
  obtain ⟨hrange, hgroups⟩ := aggregateReports_loaded sourceHypot_nonneg le_sourceHypot hreports
  exact ⟨bundle, annotations, report, hbundle, hannotations, hreport,
    hrange report (List.mem_cons_self ..), hgroups⟩

end ThreeFrames

end Evaluation

end BoulderFrame
