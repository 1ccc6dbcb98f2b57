import BoulderFrame.Evaluation.Metrics

/-!
# Comparing boxes

The evaluation compares a detected box and a crop with an annotated box. The overlap of two boxes
measures how far they are the same, and the margin of a crop whether it holds the box.

## Main definitions

* `Positive`: a rectangle of positive size
* `overlap`: the shared part of two rectangles
* `Apart`: two rectangles that lie beside or above each other

## Main results

* `overlap_eq_one`, `overlap_eq_zero`: boxes that overlap wholly, and not at all
* `iou_spec`: the evaluation computes the overlap, a similarity of boxes
* `contained_of_not_edgeRisk`: a crop without edge risk holds the box
* `boxMetrics_eq_ok`: the metrics of a frame with an annotated box
-/

namespace BoulderFrame

namespace Evaluation

variable {K : Type} [Field K] [LinearOrder K] [IsStrictOrderedRing K] {left right : Rect K}

/-- A rectangle of positive size. -/
def Positive (r : Rect K) : Prop := 0 < r.width ∧ 0 < r.height

omit [LinearOrder K] [IsStrictOrderedRing K] in
theorem quotient_of_ne [LinearOrder K] {a b : K} (h : b ≠ 0) : quotient a b = .ok (a / b) := by
  rw [quotient, divide_of_ne h]
  rfl

theorem Positive.area_pos (h : Positive left) : 0 < left.area := mul_pos h.1 h.2

/-! ## The overlap -/

/-- What two intervals share is no longer than the first. -/
theorem shared_le {a a' : K} (b b' : K) (h : a ≤ a') : max 0 (min a' b' - max a b) ≤ a' - a := by
  refine max_le (sub_nonneg.mpr h) ?_
  have := min_le_left a' b'
  have := le_max_left a b
  linarith

omit [IsStrictOrderedRing K] in
theorem intersection_comm (left right : Rect K) : intersection left right = intersection right left := by
  unfold intersection
  rw [min_comm left.right, max_comm left.x, min_comm left.bottom, max_comm left.y]

theorem intersection_nonneg (left right : Rect K) : 0 ≤ intersection left right :=
  mul_nonneg (le_max_left ..) (le_max_left ..)

/-- The shared part is no larger than one of the rectangles. -/
theorem intersection_le (h : Positive left) (right : Rect K) : intersection left right ≤ left.area := by
  have hx : max 0 (min left.right right.right - max left.x right.x) ≤ left.width := by
    have := shared_le right.x right.right
      (le_add_of_nonneg_right h.1.le : left.x ≤ left.right)
    simpa [Rect.right] using this
  have hy : max 0 (min left.bottom right.bottom - max left.y right.y) ≤ left.height := by
    have := shared_le right.y right.bottom
      (le_add_of_nonneg_right h.2.le : left.y ≤ left.bottom)
    simpa [Rect.bottom] using this
  exact mul_le_mul hx hy (le_max_left ..) h.1.le

/-- The shared part of two rectangles, of what they cover together. -/
def overlap (left right : Rect K) : K :=
  intersection left right / (left.area + right.area - intersection left right)

theorem union_pos (hl : Positive left) (hr : Positive right) :
    0 < left.area + right.area - intersection left right := by
  have := intersection_le hl right
  have := hr.area_pos
  linarith

theorem iou_eq_ok (hl : Positive left) (hr : Positive right) :
    iou left right = .ok (overlap left right) :=
  quotient_of_ne (union_pos hl hr).ne'

theorem overlap_mem (hl : Positive left) (hr : Positive right) :
    0 ≤ overlap left right ∧ overlap left right ≤ 1 := by
  have hunion := union_pos hl hr
  refine ⟨div_nonneg (intersection_nonneg ..) hunion.le, (div_le_one hunion).mpr ?_⟩
  have := intersection_le hl right
  have hother := intersection_le hr left
  rw [intersection_comm] at hother
  linarith

/-- An interval that is wholly shared is in the other one. -/
theorem of_shared_eq {a a' b b' : K} (h : a < a') (heq : max 0 (min a' b' - max a b) = a' - a) :
    b ≤ a ∧ a' ≤ b' := by
  have hpos : 0 < a' - a := sub_pos.mpr h
  have hshared : min a' b' - max a b = a' - a := by
    rcases max_choice 0 (min a' b' - max a b) with hmax | hmax
    · rw [hmax] at heq
      exact absurd heq hpos.ne
    · rwa [hmax] at heq
  have hmin := min_le_left a' b'
  have hmax := le_max_left a b
  have hmin' : min a' b' = a' := by linarith
  have hmax' : max a b = a := by linarith
  exact ⟨max_eq_left_iff.mp hmax', min_eq_left_iff.mp hmin'⟩

/-- A rectangle that is wholly shared is in the other one. -/
theorem of_intersection_eq (hl : Positive left) (right : Rect K) (h : intersection left right = left.area) :
    (right.x ≤ left.x ∧ left.right ≤ right.right) ∧
      right.y ≤ left.y ∧ left.bottom ≤ right.bottom := by
  have hx : left.x < left.right := lt_add_of_pos_right _ hl.1
  have hy : left.y < left.bottom := lt_add_of_pos_right _ hl.2
  have hwidth : left.right - left.x = left.width := by simp [Rect.right]
  have hheight : left.bottom - left.y = left.height := by simp [Rect.bottom]
  have hlex := shared_le right.x right.right hx.le
  have hley := shared_le right.y right.bottom hy.le
  rw [hwidth] at hlex
  rw [hheight] at hley
  have hprod : max 0 (min left.right right.right - max left.x right.x) *
      max 0 (min left.bottom right.bottom - max left.y right.y) = left.width * left.height := h
  have hpos : 0 < max 0 (min left.right right.right - max left.x right.x) := by
    refine lt_of_le_of_ne (le_max_left ..) fun hzero => ?_
    rw [← hzero, zero_mul] at hprod
    exact (mul_pos hl.1 hl.2).ne hprod
  -- no factor is larger than the side, so the products are the same only if the factors are
  obtain ⟨hsharedx, hsharedy⟩ := (mul_eq_mul_iff_eq_and_eq_of_pos hlex hley hpos hl.2).mp hprod
  exact ⟨of_shared_eq hx (hsharedx.trans hwidth.symm), of_shared_eq hy (hsharedy.trans hheight.symm)⟩

omit [IsStrictOrderedRing K] in
theorem containsRect_iff : left.containsRect right = true ↔
    left.x ≤ right.x ∧ left.y ≤ right.y ∧ right.right ≤ left.right ∧ right.bottom ≤ left.bottom := by
  simp [Rect.containsRect, and_assoc]

omit [IsStrictOrderedRing K] in
/-- The shared part of a rectangle and one in it. -/
theorem intersection_of_contains (hr : Positive right) (h : left.containsRect right = true) :
    intersection left right = right.area := by
  obtain ⟨hx, hy, hright, hbottom⟩ := containsRect_iff.mp h
  rw [intersection, min_eq_right hright, max_eq_right hx, min_eq_right hbottom, max_eq_right hy]
  simp only [Rect.right, Rect.bottom, add_sub_cancel_left]
  rw [max_eq_right hr.1.le, max_eq_right hr.2.le, Rect.area]

omit [IsStrictOrderedRing K] in
/-- A rectangle overlaps one in it by how much of it that one is. -/
theorem overlap_of_contains (hr : Positive right) (h : left.containsRect right = true) :
    overlap left right = right.area / left.area := by
  rw [overlap, intersection_of_contains hr h, add_sub_cancel_right]

omit [IsStrictOrderedRing K] in
theorem overlap_comm (left right : Rect K) : overlap left right = overlap right left := by
  rw [overlap, overlap, intersection_comm left right, add_comm left.area]

/-- **Boxes overlap wholly** exactly if they are equal. -/
theorem overlap_eq_one (hl : Positive left) (hr : Positive right) :
    overlap left right = 1 ↔ left = right := by
  have hunion := union_pos hl hr
  constructor
  · intro h
    rw [overlap, div_eq_one_iff_eq hunion.ne'] at h
    have hleft := intersection_le hl right
    have hright := intersection_le hr left
    rw [intersection_comm] at hright
    obtain ⟨⟨hx, hr'⟩, hy, hb⟩ := of_intersection_eq hl right (by linarith)
    obtain ⟨⟨hx', hr''⟩, hy', hb'⟩ := of_intersection_eq hr left
      (by rw [intersection_comm]; linarith)
    obtain ⟨x, y, width, height⟩ := left
    obtain ⟨x', y', width', height'⟩ := right
    simp only [Rect.right, Rect.bottom] at *
    obtain rfl : x = x' := le_antisymm hx' hx
    obtain rfl : y = y' := le_antisymm hy' hy
    obtain rfl : width = width' := by linarith
    obtain rfl : height = height' := by linarith
    rfl
  · rintro rfl
    have hself : left.containsRect left = true := containsRect_iff.mpr ⟨le_rfl, le_rfl, le_rfl, le_rfl⟩
    rw [overlap_of_contains hl hself, div_self hl.area_pos.ne']

/-- Two intervals share nothing exactly if one ends before the other begins. -/
theorem shared_eq_zero {a a' b b' : K} (ha : a < a') (hb : b < b') :
    max 0 (min a' b' - max a b) = 0 ↔ a' ≤ b ∨ b' ≤ a := by
  rw [max_eq_left_iff, sub_nonpos, min_le_iff, le_max_iff, le_max_iff]
  -- no interval ends before it begins
  have ha' := ha.not_ge
  have hb' := hb.not_ge
  tauto

/-- Two rectangles lie beside or above each other. -/
def Apart (left right : Rect K) : Prop :=
  (left.right ≤ right.x ∨ right.right ≤ left.x) ∨ left.bottom ≤ right.y ∨ right.bottom ≤ left.y

/-- **Boxes do not overlap** exactly if they lie apart. -/
theorem overlap_eq_zero (hl : Positive left) (hr : Positive right) :
    overlap left right = 0 ↔ Apart left right := by
  have hx : left.x < left.right := lt_add_of_pos_right _ hl.1
  have hy : left.y < left.bottom := lt_add_of_pos_right _ hl.2
  have hx' : right.x < right.right := lt_add_of_pos_right _ hr.1
  have hy' : right.y < right.bottom := lt_add_of_pos_right _ hr.2
  rw [overlap, div_eq_zero_iff, or_iff_left (union_pos hl hr).ne', intersection, mul_eq_zero,
    shared_eq_zero hx hx', shared_eq_zero hy hy', Apart]

/-- **The comparison of two boxes**: it is the same in both directions, lies between zero and one, is
one for equal boxes only and zero for boxes that lie apart only, and for a box in another one it is how
much of that one it fills. -/
theorem iou_spec (hl : Positive left) (hr : Positive right) :
    ∃ x, iou left right = .ok x ∧ iou right left = .ok x ∧ (0 ≤ x ∧ x ≤ 1) ∧
      (x = 1 ↔ left = right) ∧ (x = 0 ↔ Apart left right) ∧
      (left.containsRect right = true → x = right.area / left.area) :=
  ⟨overlap left right, iou_eq_ok hl hr, by rw [iou_eq_ok hr hl, overlap_comm], overlap_mem hl hr,
    overlap_eq_one hl hr, overlap_eq_zero hl hr, overlap_of_contains hr⟩

/-- A box that fills a quarter of another one. -/
theorem iou_spec_quarter : ∃ x, iou (⟨0, 0, 4, 2⟩ : Rect ℚ) ⟨1, 0, 2, 1⟩ = .ok x ∧ x = 2 / 8 := by
  have hl : Positive (⟨0, 0, 4, 2⟩ : Rect ℚ) := ⟨by norm_num, by norm_num⟩
  have hr : Positive (⟨1, 0, 2, 1⟩ : Rect ℚ) := ⟨by norm_num, by norm_num⟩
  have hin : (⟨0, 0, 4, 2⟩ : Rect ℚ).containsRect ⟨1, 0, 2, 1⟩ = true := by decide +kernel
  obtain ⟨x, hx, -, -, -, -, hfilled⟩ := iou_spec hl hr
  refine ⟨x, hx, (hfilled hin).trans ?_⟩
  norm_num [Rect.area]

/-! ## Crops -/

/-- The least distance of a box from the edges of a crop. -/
def margin (crop bounds : Rect K) : K :=
  min (min (min (bounds.x - crop.x) (bounds.y - crop.y)) (crop.right - bounds.right))
    (crop.bottom - bounds.bottom)

/-- A crop holds a box exactly if the margin is not negative. -/
theorem margin_nonneg : 0 ≤ margin left right ↔ left.containsRect right = true := by
  rw [containsRect_iff, margin, le_min_iff, le_min_iff, le_min_iff, sub_nonneg, sub_nonneg, sub_nonneg,
    sub_nonneg]
  tauto

omit [IsStrictOrderedRing K] in
theorem edgeRisk_eq_ok (h : Positive left) : edgeRisk left right =
    .ok (decide (margin left right / min left.width left.height ≤ edgeRiskFraction)) := by
  have hsize : min left.width left.height ≠ 0 := (lt_min h.1 h.2).ne'
  unfold edgeRisk
  dsimp only
  rw [quotient_of_ne hsize]
  rfl

/-- **A crop without edge risk** holds the box. -/
theorem contained_of_not_edgeRisk (h : Positive left)
    (hrisk : ¬ margin left right / min left.width left.height ≤ edgeRiskFraction) :
    left.containsRect right = true := by
  have hsize : 0 < min left.width left.height := lt_min h.1 h.2
  have hfraction : (0 : K) ≤ edgeRiskFraction := by norm_num [edgeRiskFraction]
  rw [← margin_nonneg]
  by_contra hneg
  exact hrisk ((div_nonpos_of_nonpos_of_nonneg (le_of_not_ge hneg) hsize.le).trans hfraction)

/-- A box in a crop is no larger than it. -/
theorem area_le_of_contains (hr : Positive right) (h : left.containsRect right = true) :
    right.area ≤ left.area := by
  obtain ⟨hx, hy, hright, hbottom⟩ := containsRect_iff.mp h
  simp only [Rect.right, Rect.bottom] at hright hbottom
  have hwidth : right.width ≤ left.width := by linarith
  have hheight : right.height ≤ left.height := by linarith
  exact mul_le_mul hwidth hheight hr.2.le (hr.1.le.trans hwidth)

/-! ## Frames -/

/-- The rectangles of a frame have positive sizes. -/
structure DebugFrame.Drawn (d : DebugFrame K) : Prop where
  detection : ∀ box ∈ d.detection, Positive box
  crop : ∀ crop ∈ d.crop, Positive crop

/-- Nothing has failed on a frame with an annotated box: if detections were sampled, one has been
selected that overlaps the box by a half, the crop holds the box, and a verified rendering has the crop
and the timestamp of the frame. -/
structure Passes (d : DebugFrame K) (bounds : Rect K) : Prop where
  detected : d.detectionSampled = true → ∃ box, d.detection = some box ∧ d.selected ≠ some false ∧
    selectionIouThreshold ≤ overlap box bounds
  contained : ∀ crop ∈ d.crop, crop.containsRect bounds = true
  mapped : d.renderMappingIndependentlyVerified = true →
    (∀ rendered ∈ d.renderedCrop, ∃ crop ∈ d.crop, sameRect crop rendered = true) ∧
      ∀ timestamp ∈ d.renderedTimestampMs, timestamp = d.timestampMs

/-- How the metrics of a frame are bounded and depend on each other. -/
structure FrameMetrics.InRange (m : FrameMetrics K) : Prop where
  iou : ∀ x ∈ m.detectionIou, 0 ≤ x ∧ x ≤ 1
  scale : ∀ x ∈ m.subjectScale, 0 < x
  contained : m.cropContainsSubject = some true → ∀ x ∈ m.subjectScale, x ≤ 1
  risk : m.edgeRisk = some false → m.cropContainsSubject = some true
  selection : m.selectionCorrect.isSome = true ↔ m.detectionAvailable = some true
  measured : m.detectionIou.isSome = true ↔ m.detectionAvailable = some true
  correct : m.selectionCorrect = some true → ∃ x ∈ m.detectionIou, selectionIouThreshold ≤ x

/-- The metrics of a frame with an annotated box, with the divisions done. -/
def drawnMetrics (d : DebugFrame K) (bounds : Rect K) (motion : Option (Motion K)) :
    FrameMetrics K :=
  let detectionIou := if d.detectionSampled then d.detection.map (overlap · bounds) else none
  let detectionAvailable := if d.detectionSampled then some d.detection.isSome else none
  let selectionCorrect :=
    if detectionAvailable = some true then
      some (d.selected.getD true && detectionIou.any fun value =>
        decide (value ≥ selectionIouThreshold))
    else none
  let contained := d.crop.map (·.containsRect bounds)
  { toMotion := motion.getD .none
    frameIndex := d.frameIndex
    timestampMs := d.timestampMs
    detectionAvailable := detectionAvailable
    detectionIou := detectionIou
    selectionCorrect := selectionCorrect
    cropContainsSubject := contained
    sourceAspectLimited := d.sourceAspectLimited
    edgeRisk := d.crop.map fun crop =>
      decide (margin crop bounds / min crop.width crop.height ≤ edgeRiskFraction)
    subjectScale := d.crop.map fun crop => bounds.area / crop.area
    failure := failure detectionAvailable selectionCorrect contained d }

omit [Field K] [LinearOrder K] [IsStrictOrderedRing K] in
theorem option_mapM_eq_ok {α β : Type} {a : Option α} {f : α → Except Raised β} {g : α → β}
    (h : ∀ b ∈ a, f b = .ok (g b)) : a.mapM f = .ok (a.map g) := by
  cases a with
  | none => rfl
  | some b =>
    change some <$> f b = _
    rw [h b rfl]
    rfl

variable {d : DebugFrame K} {bounds : Rect K} {motion : Option (Motion K)}

/-- **The metrics of a frame** with an annotated box are computed. -/
theorem boxMetrics_eq_ok (hd : d.Drawn) (hbounds : Positive bounds) :
    boxMetrics d bounds motion = .ok (drawnMetrics d bounds motion) := by
  have hiou : sampledIou d bounds =
      .ok (if d.detectionSampled then d.detection.map (overlap · bounds) else none) := by
    unfold sampledIou
    split_ifs
    · exact option_mapM_eq_ok fun box hbox => iou_eq_ok (hd.detection box hbox) hbounds
    · rfl
  have hrisk : d.crop.mapM (edgeRisk · bounds) = .ok (d.crop.map fun crop =>
      decide (margin crop bounds / min crop.width crop.height ≤ edgeRiskFraction)) :=
    option_mapM_eq_ok fun crop hcrop => edgeRisk_eq_ok (hd.crop crop hcrop)
  have hscale : (d.crop.mapM fun crop => quotient bounds.area crop.area) =
      .ok (d.crop.map fun crop => bounds.area / crop.area) :=
    option_mapM_eq_ok fun crop hcrop => quotient_of_ne (hd.crop crop hcrop).area_pos.ne'
  unfold boxMetrics
  rw [hiou, Except.ok_bind]
  dsimp only
  rw [hrisk, Except.ok_bind, hscale, Except.ok_bind]
  rfl

/-- The metrics are in range. -/
theorem drawnMetrics_inRange (hd : d.Drawn) (hbounds : Positive bounds) :
    (drawnMetrics d bounds motion).InRange where
  iou := by
    intro x hx
    simp only [drawnMetrics] at hx
    split_ifs at hx
    · obtain ⟨box, hbox, rfl⟩ := Option.map_eq_some_iff.mp hx
      exact overlap_mem (hd.detection box hbox) hbounds
    · cases hx
  scale := by
    intro x hx
    obtain ⟨crop, hcrop, rfl⟩ := Option.map_eq_some_iff.mp hx
    exact div_pos hbounds.area_pos (hd.crop crop hcrop).area_pos
  contained := by
    intro hcontained x hx
    obtain ⟨crop, hcrop, rfl⟩ := Option.map_eq_some_iff.mp hx
    obtain ⟨crop', hcrop', hin⟩ := Option.map_eq_some_iff.mp hcontained
    obtain rfl := Option.some.inj (hcrop.symm.trans hcrop')
    exact (div_le_one (hd.crop crop hcrop).area_pos).mpr (area_le_of_contains hbounds hin)
  risk := by
    intro hrisk
    obtain ⟨crop, hcrop, hrisk⟩ := Option.map_eq_some_iff.mp hrisk
    exact Option.map_eq_some_iff.mpr
      ⟨crop, hcrop, contained_of_not_edgeRisk (hd.crop crop hcrop) (of_decide_eq_false hrisk)⟩
  selection := by
    simp only [drawnMetrics]
    split_ifs <;> simp_all
  measured := by
    simp only [drawnMetrics]
    split_ifs <;> simp
  correct := by
    intro hcorrect
    simp only [drawnMetrics] at hcorrect ⊢
    by_cases hsampled : d.detectionSampled = true
    · simp only [hsampled, if_true] at hcorrect ⊢
      split_ifs at hcorrect
      obtain ⟨-, hany⟩ := Bool.and_eq_true_iff.mp (Option.some.inj hcorrect)
      obtain ⟨x, hx, hle⟩ := (Option.any_eq_true _ _).mp hany
      exact ⟨x, hx, of_decide_eq_true hle⟩
    · simp [hsampled] at hcorrect

omit [IsStrictOrderedRing K] in
theorem failure_eq_none {available correct contained : Option Bool} :
    failure available correct contained d = none ↔ (available ≠ some false ∧ correct ≠ some false) ∧
      contained ≠ some false ∧ (d.renderMappingIndependentlyVerified = true →
        (∀ rendered ∈ d.renderedCrop, ∃ crop ∈ d.crop, sameRect crop rendered = true) ∧
          ∀ timestamp ∈ d.renderedTimestampMs, timestamp = d.timestampMs) := by
  have hmapped : (d.renderMappingIndependentlyVerified &&
      ((d.renderedCrop.any fun rendered => !d.crop.any (sameRect · rendered)) ||
        d.renderedTimestampMs.any fun timestamp => decide (timestamp ≠ d.timestampMs))) = false ↔
      (d.renderMappingIndependentlyVerified = true →
        (∀ rendered ∈ d.renderedCrop, ∃ crop ∈ d.crop, sameRect crop rendered = true) ∧
          ∀ timestamp ∈ d.renderedTimestampMs, timestamp = d.timestampMs) := by
    rw [Bool.and_eq_false_imp, Bool.or_eq_false_iff, Option.any_eq_false, Option.any_eq_false]
    simp [Option.any_eq_true]
  rw [← hmapped, failure]
  generalize (d.renderMappingIndependentlyVerified &&
    ((d.renderedCrop.any fun rendered => !d.crop.any (sameRect · rendered)) ||
      d.renderedTimestampMs.any fun timestamp => decide (timestamp ≠ d.timestampMs))) = wrong
  cases wrong <;> split_ifs <;> simp_all

omit [IsStrictOrderedRing K] in
/-- **Nothing has failed** exactly if the frame passes. -/
theorem drawnMetrics_failure : (drawnMetrics d bounds motion).failure = none ↔ Passes d bounds := by
  have hdetected : ((if d.detectionSampled then some d.detection.isSome else none) ≠ some false ∧
      (if (if d.detectionSampled then some d.detection.isSome else none) = some true then
        some (d.selected.getD true && (if d.detectionSampled then
            d.detection.map (overlap · bounds) else none).any fun value =>
          decide (value ≥ selectionIouThreshold))
        else none) ≠ some false) ↔
      (d.detectionSampled = true → ∃ box, d.detection = some box ∧ d.selected ≠ some false ∧
        selectionIouThreshold ≤ overlap box bounds) := by
    cases d.detectionSampled with
    | false => simp
    | true =>
      cases d.detection with
      | none => simp
      | some box => cases d.selected with
        | none => simp
        | some selected => cases selected <;> simp
  have hcontained : d.crop.map (·.containsRect bounds) ≠ some false ↔
      ∀ crop ∈ d.crop, crop.containsRect bounds = true := by
    cases d.crop <;> simp
  refine failure_eq_none.trans ?_
  rw [hdetected, hcontained]
  exact ⟨fun h => ⟨h.1, h.2.1, h.2.2⟩, fun h => ⟨h.detected, h.contained, h.mapped⟩⟩

end Evaluation

end BoulderFrame
