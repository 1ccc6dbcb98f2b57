import BoulderFrame.Detector.Yolo
import BoulderFrame.Domain.Errors
import BoulderFrame.Library.Outcome

/-!
# Target association

The selected athlete is the detection that a tap chooses on one frame. On every other sampled frame
it is the detection that the last accepted box chooses, among those within its gate. The evidence of
a choice keeps a bounded number of the candidates.

## Main definitions

* `SelectionOutcome`, `AssociationEvidence`, `RawFrameObservation`: what is recorded of a frame
* `selectTargetWithAssociation`: the choice by a reference point
* `TargetFrameAnalyzer.selectSelected`, `TargetFrameAnalyzer.associate`: the choices on the selected
  frame and on the others

## Main results

* `TargetFrameAnalyzer.selectSelected_eq_ok`, `TargetFrameAnalyzer.associate_eq_ok`: what an
  observation says of its frame, and that its detection is one of those on the frame
-/

namespace BoulderFrame

inductive SelectionOutcome
  | selectedContainingTap
  | selectedNearestTap
  | associatedContainingReference
  | associatedNearestReference
  | noDetections
  | noAcceptedCandidate
  | detectionSkipped
  deriving DecidableEq, Repr

def SelectionOutcome.value : SelectionOutcome → String
  | .selectedContainingTap => "selected_containing_tap"
  | .selectedNearestTap => "selected_nearest_tap"
  | .associatedContainingReference => "associated_containing_reference"
  | .associatedNearestReference => "associated_nearest_reference"
  | .noDetections => "no_detections"
  | .noAcceptedCandidate => "no_accepted_candidate"
  | .detectionSkipped => "detection_skipped"

inductive SelectionReferenceKind
  | tap
  | priorDetectorBoxCenter
  deriving DecidableEq, Repr

def SelectionReferenceKind.value : SelectionReferenceKind → String
  | .tap => "tap"
  | .priorDetectorBoxCenter => "prior_detector_box_center"

inductive SelectionStrategy
  | containingReferenceThenNearestCenter
  deriving DecidableEq, Repr

def SelectionStrategy.value : SelectionStrategy → String
  | .containingReferenceThenNearestCenter => "containing_reference_then_nearest_center"

/-- `MAX_ASSOCIATION_CANDIDATES` -/
def maxAssociationCandidates : ℕ := 32

structure DetectionCandidate (K : Type) where
  originalIndex : ℤ
  detection : Detection K
  containsReference : Bool
  centerDistance : K
  selected : Bool

/-- Bounded evidence for deterministic detector-box association. -/
structure AssociationEvidence (K : Type) where
  reference : Point K
  referenceKind : SelectionReferenceKind
  strategy : SelectionStrategy
  outcome : SelectionOutcome
  candidateCount : ℤ
  candidates : List (DetectionCandidate K)
  candidatesTruncated : Bool

/-- A fresh selected detector box, sampled miss, or explicit unsampled frame. -/
structure RawFrameObservation (K : Type) where
  frameIndex : ℤ
  timestampMs : ℤ
  detection : Option (Detection K)
  selectionOutcome : SelectionOutcome
  association : Option (AssociationEvidence K)

namespace RawFrameObservation

variable {K : Type}

def detectorBounds (observation : RawFrameObservation K) : Option (Rect K) :=
  observation.detection.map (·.bounds)

end RawFrameObservation

deriving instance DecidableEq for Detection

variable {K : Type} [Field K] [LinearOrder K]

/-- `Rect.contains` -/
def Rect.containsPoint (r : Rect K) (point : Point K) : Bool :=
  decide (r.x ≤ point.x) && decide (point.x ≤ r.right) && decide (r.y ≤ point.y) &&
    decide (point.y ≤ r.bottom)

/-! ## Checks of the records -/

/-- `DetectionCandidate.__post_init__` -/
def DetectionCandidate.postInit (candidate : DetectionCandidate K) :
    Except Raised (DetectionCandidate K) :=
  if candidate.originalIndex < 0 ∨ candidate.centerDistance < 0 then
    .error (.valueError "candidate index and center distance must not be negative")
  else .ok candidate

/-- `AssociationEvidence.__post_init__` -/
def AssociationEvidence.postInit (evidence : AssociationEvidence K) :
    Except Raised (AssociationEvidence K) :=
  let retained := evidence.candidates.length
  let indexes := evidence.candidates.map (·.originalIndex)
  let selected := evidence.candidates.filter (·.selected)
  if evidence.candidateCount < 0 ∨ maxAssociationCandidates < retained then
    .error (.valueError "association candidate count is invalid")
  else if evidence.candidateCount < retained then
    .error (.valueError "association candidate count is smaller than retained candidates")
  else if evidence.candidatesTruncated ≠ decide ((retained : ℤ) < evidence.candidateCount) then
    .error (.valueError "association candidate truncation state is invalid")
  else if ¬ (indexes.Pairwise (fun i k : ℤ => i ≤ k) ∧ indexes.Nodup) then
    .error (.valueError "retained association candidates must have unique sorted indexes")
  else if evidence.outcome = .noDetections then
    if evidence.candidateCount ≠ 0 ∨ selected.length ≠ 0 then
      .error (.valueError "no-detection association cannot select a candidate")
    else .ok evidence
  else if evidence.outcome = .noAcceptedCandidate then
    if selected.length ≠ 0 then
      .error (.valueError "rejected association cannot select a candidate")
    else .ok evidence
  else if selected.length ≠ 1 then
    .error (.valueError "detected association must retain exactly one selected candidate")
  else .ok evidence

/-- `RawFrameObservation.__post_init__` -/
def RawFrameObservation.postInit (observation : RawFrameObservation K) :
    Except Raised (RawFrameObservation K) :=
  if observation.frameIndex < 0 ∨ observation.timestampMs < 0 then
    .error (.valueError "frame index and timestamp must not be negative")
  else if observation.selectionOutcome = .detectionSkipped ∧
      (observation.detection.isSome ∨ observation.association.isSome) then
    .error (.valueError "skipped detection cannot carry detector or association evidence")
  else match observation.association with
    | none => .ok observation
    | some association =>
      if observation.selectionOutcome ≠ association.outcome then
        .error (.valueError "observation selection outcome must match association evidence")
      else if observation.detection ≠
          (association.candidates.find? (·.selected)).map (·.detection) then
        .error (.valueError "observation detection must match selected association candidate")
      else .ok observation

omit [Field K] in
/-- A checked observation is the observation that was checked. -/
theorem RawFrameObservation.postInit_eq_ok {observation observation' : RawFrameObservation K}
    (h : observation.postInit = .ok observation') :
    observation' = observation ∧ 0 ≤ observation.frameIndex ∧ 0 ≤ observation.timestampMs := by
  obtain ⟨hnonneg, h⟩ := Except.ok_of_guard h
  obtain ⟨-, h⟩ := Except.ok_of_guard h
  refine ⟨?_, by omega⟩
  split at h
  · exact (Except.ok.inj h).symm
  · obtain ⟨-, h⟩ := Except.ok_of_guard h
    obtain ⟨-, h⟩ := Except.ok_of_guard h
    exact (Except.ok.inj h).symm

/-! ## The choice by a reference point -/

/-- The first entry with the smallest key. -/
def firstMinimum {α : Type} (key : α → K) : List α → Option α
  | [] => none
  | a :: as => some (as.foldl (fun best b => if key b < key best then b else best) a)

omit [Field K] in
theorem firstMinimum_mem {α : Type} {key : α → K} {l : List α} {a : α}
    (h : firstMinimum key l = some a) : a ∈ l := by
  cases l with
  | nil => cases h
  | cons b l =>
    rw [← Option.some.inj h]
    clear h
    induction l generalizing b with
    | nil => exact List.mem_cons_self
    | cons c l ih =>
      rw [List.foldl_cons]
      split_ifs
      · exact List.mem_cons_of_mem _ (ih c)
      · obtain hmem | hmem := List.mem_cons.mp (ih b)
        · rw [hmem]
          exact List.mem_cons_self
        · exact List.mem_cons_of_mem _ (List.mem_cons_of_mem _ hmem)

/-- `_center_distance_squared` -/
def centerDistanceSquared (detection : Detection K) (reference : Point K) : K :=
  (detection.bounds.center.x - reference.x) ^ 2 + (detection.bounds.center.y - reference.y) ^ 2

/-- `_select`, with the index of the chosen detection. -/
def select (detections : List (Detection K)) (reference : Point K) : Option (Detection K × ℕ) :=
  let containing := detections.zipIdx.filter fun d => d.1.bounds.containsPoint reference
  firstMinimum (fun d => centerDistanceSquared d.1 reference)
    (if containing.isEmpty then detections.zipIdx else containing)

theorem select_mem {detections : List (Detection K)} {reference : Point K} {d : Detection K × ℕ}
    (h : select detections reference = some d) : d.1 ∈ detections := by
  have hmem : d ∈ detections.zipIdx := by
    have := firstMinimum_mem h
    split_ifs at this
    · exact this
    · exact (List.mem_filter.mp this).1
  exact List.fst_mem_of_mem_zipIdx hmem

/-- `_retained_candidates` -/
def retainedCandidates (candidates : List (DetectionCandidate K)) (selectedIndex : ℕ) :
    List (DetectionCandidate K) :=
  if candidates.length ≤ maxAssociationCandidates then candidates
  else
    let first := if selectedIndex < maxAssociationCandidates then maxAssociationCandidates
      else maxAssociationCandidates - 1
    candidates.filter fun candidate =>
      decide (candidate.originalIndex < first) || decide (candidate.originalIndex = selectedIndex)

section Association

-- `math.hypot`
variable (hypot : K → K → K)

/-- `_center_distance` -/
def centerDistance (detection : Detection K) (reference : Point K) : K :=
  hypot (detection.bounds.center.x - reference.x) (detection.bounds.center.y - reference.y)

/-- The candidates with their evidence; the given index is selected. -/
def associationCandidates (detections : List (Detection K)) (reference : Point K)
    (selectedIndex : Option ℕ) : Except Raised (List (DetectionCandidate K)) :=
  detections.zipIdx.mapM fun d => DetectionCandidate.postInit
    { originalIndex := d.2
      detection := d.1
      containsReference := d.1.bounds.containsPoint reference
      centerDistance := centerDistance hypot d.1 reference
      selected := decide (selectedIndex = some d.2) }

/-- The evidence of a choice among some candidates. -/
def associationEvidence (detections : List (Detection K)) (reference : Point K)
    (referenceKind : SelectionReferenceKind) (outcome : SelectionOutcome)
    (selectedIndex : Option ℕ) : Except Raised (AssociationEvidence K) := do
  let candidates ← associationCandidates hypot detections reference selectedIndex
  let retained := retainedCandidates candidates (selectedIndex.getD 0)
  AssociationEvidence.postInit
    { reference := reference
      referenceKind := referenceKind
      strategy := .containingReferenceThenNearestCenter
      outcome := outcome
      candidateCount := candidates.length
      candidates := retained
      candidatesTruncated := decide (retained.length < candidates.length) }

def noSelectedAthlete : Raised :=
  .worker (.terminal .noSelectedAthlete "No athlete was found at the selected frame." none)

/-- `select_target_with_association` -/
def selectTargetWithAssociation (detections : List (Detection K)) (reference : Point K)
    (referenceKind : SelectionReferenceKind)
    (containingOutcome nearestOutcome : SelectionOutcome) (captureEvidence terminalOnEmpty : Bool) :
    Except Raised (Option (Detection K) × Option (AssociationEvidence K)) :=
  match select detections reference with
  -- there is no detection
  | none =>
    if terminalOnEmpty then .error noSelectedAthlete
    else if ¬ captureEvidence then .ok (none, none)
    else do
      let evidence ← associationEvidence hypot [] reference referenceKind .noDetections none
      .ok (none, some evidence)
  | some (selected, index) =>
    let outcome :=
      if selected.bounds.containsPoint reference then containingOutcome else nearestOutcome
    if ¬ captureEvidence then .ok (some selected, none)
    else do
      let evidence ←
        associationEvidence hypot detections reference referenceKind outcome (some index)
      .ok (some selected, some evidence)

variable {hypot} in
theorem selectTargetWithAssociation_mem {detections : List (Detection K)} {reference : Point K}
    {referenceKind : SelectionReferenceKind} {containingOutcome nearestOutcome : SelectionOutcome}
    {captureEvidence terminalOnEmpty : Bool}
    {r : Option (Detection K) × Option (AssociationEvidence K)}
    (h : selectTargetWithAssociation hypot detections reference referenceKind containingOutcome
      nearestOutcome captureEvidence terminalOnEmpty = .ok r) : ∀ d ∈ r.1, d ∈ detections := by
  unfold selectTargetWithAssociation at h
  split at h
  · obtain ⟨-, h⟩ := Except.ok_of_guard h
    by_cases hcapture : captureEvidence = true
    · rw [if_neg (not_not.mpr hcapture)] at h
      obtain ⟨evidence, -, h⟩ := Except.bind_eq_ok.mp h
      obtain rfl := Except.ok.inj h
      exact fun d hd => absurd hd (Option.not_mem_none d)
    · rw [if_pos hcapture] at h
      obtain rfl := Except.ok.inj h
      exact fun d hd => absurd hd (Option.not_mem_none d)
  · rename_i selected index hselect
    have hmem : ∀ d ∈ some selected, d ∈ detections := by
      intro d hd
      obtain rfl := Option.some.inj hd
      exact select_mem hselect
    by_cases hcapture : captureEvidence = true
    · rw [if_neg (not_not.mpr hcapture)] at h
      obtain ⟨evidence, -, h⟩ := Except.bind_eq_ok.mp h
      obtain rfl := Except.ok.inj h
      exact hmem
    · rw [if_pos hcapture] at h
      obtain rfl := Except.ok.inj h
      exact hmem

/-- `_selection_outcome` -/
def selectionOutcome (association : Option (AssociationEvidence K))
    (containingOutcome nearestOutcome : SelectionOutcome) (selectedContainsReference : Bool) :
    SelectionOutcome :=
  match association with
  | some association => association.outcome
  | none => if selectedContainsReference then containingOutcome else nearestOutcome

/-- `MAX_ASSOCIATION_CENTER_DISTANCE_DIAGONALS` -/
def maxAssociationCenterDistanceDiagonals : K := 1.5

/-- `_within_association_gate` -/
def withinAssociationGate (candidate reference : Rect K) : Bool :=
  decide (hypot (candidate.center.x - reference.center.x) (candidate.center.y - reference.center.y) ≤
    maxAssociationCenterDistanceDiagonals * hypot reference.width reference.height)

/-- `source_tap` -/
def sourceTap (normalizedX normalizedY : K) (width height : ℤ) : Except Raised (Point K) :=
  if width ≤ 0 ∨ height ≤ 0 then .error (.valueError "source dimensions must be positive")
  else if ¬ (0 ≤ normalizedX ∧ normalizedX ≤ 1) ∨ ¬ (0 ≤ normalizedY ∧ normalizedY ≤ 1) then
    .error (.valueError "normalized target coordinates must be between zero and one")
  else .ok ⟨normalizedX * width, normalizedY * height⟩

/-! ## The analyzer -/

namespace TargetFrameAnalyzer

/-- `select_selected` -/
def selectSelected (detections : List (Detection K)) (frameIndex timestampMs : ℤ)
    (normalizedX normalizedY : K) (sourceWidth sourceHeight : ℤ) (captureEvidence : Bool) :
    Except Raised (RawFrameObservation K) := do
  let reference ← sourceTap normalizedX normalizedY sourceWidth sourceHeight
  let (detection, association) ← selectTargetWithAssociation hypot detections reference .tap
    .selectedContainingTap .selectedNearestTap captureEvidence true
  match detection with
  | none => .error (.other "AssertionError")
  | some detection =>
    RawFrameObservation.postInit
      { frameIndex := frameIndex
        timestampMs := timestampMs
        detection := some detection
        selectionOutcome := selectionOutcome association .selectedContainingTap
          .selectedNearestTap (detection.bounds.containsPoint reference)
        association := association }

/-- `associate` -/
def associate (detections : List (Detection K)) (frameIndex timestampMs : ℤ)
    (reference : Point K) (referenceKind : SelectionReferenceKind)
    (referenceBounds : Option (Rect K)) (captureEvidence : Bool) :
    Except Raised (RawFrameObservation K) :=
  let accepted := match referenceBounds with
    | none => detections
    | some bounds => detections.filter fun d => withinAssociationGate hypot d.bounds bounds
  if ¬ detections.isEmpty ∧ accepted.isEmpty then do
    let association ← if captureEvidence then
        some <$> associationEvidence hypot detections reference referenceKind .noAcceptedCandidate
          none
      else .ok none
    RawFrameObservation.postInit
      { frameIndex := frameIndex
        timestampMs := timestampMs
        detection := none
        selectionOutcome := .noAcceptedCandidate
        association := association }
  else do
    let (detection, association) ← selectTargetWithAssociation hypot accepted reference
      referenceKind .associatedContainingReference .associatedNearestReference captureEvidence
      false
    RawFrameObservation.postInit
      { frameIndex := frameIndex
        timestampMs := timestampMs
        detection := detection
        selectionOutcome := match detection with
          | none => if accepted.isEmpty then .noDetections else .noAcceptedCandidate
          | some detection => selectionOutcome association .associatedContainingReference
              .associatedNearestReference (detection.bounds.containsPoint reference)
        association := association }

variable {hypot} {detections : List (Detection K)} {frameIndex timestampMs : ℤ}
  {captureEvidence : Bool} {observation : RawFrameObservation K}

/-- **The selected observation** is of the selected frame, and has a detection on it. -/
theorem selectSelected_eq_ok {normalizedX normalizedY : K} {sourceWidth sourceHeight : ℤ}
    (h : selectSelected hypot detections frameIndex timestampMs normalizedX normalizedY sourceWidth
      sourceHeight captureEvidence = .ok observation) :
    observation.frameIndex = frameIndex ∧ observation.timestampMs = timestampMs ∧
      0 ≤ timestampMs ∧ ∃ d ∈ detections, observation.detection = some d := by
  obtain ⟨reference, -, h⟩ := Except.bind_eq_ok.mp h
  obtain ⟨⟨detection, association⟩, hselect, h⟩ := Except.bind_eq_ok.mp h
  cases detection with
  | none => cases h
  | some detection =>
    obtain ⟨rfl, -, htimestamp⟩ := RawFrameObservation.postInit_eq_ok h
    exact ⟨rfl, rfl, htimestamp, detection, selectTargetWithAssociation_mem hselect _ rfl, rfl⟩

/-- **An associated observation** is of its frame, and its detection, if any, is one on it. -/
theorem associate_eq_ok {reference : Point K} {referenceKind : SelectionReferenceKind}
    {referenceBounds : Option (Rect K)}
    (h : associate hypot detections frameIndex timestampMs reference referenceKind referenceBounds
      captureEvidence = .ok observation) :
    observation.frameIndex = frameIndex ∧ observation.timestampMs = timestampMs ∧
      0 ≤ timestampMs ∧ ∀ d ∈ observation.detection, d ∈ detections := by
  unfold associate at h
  extract_lets accepted at h
  have haccepted : ∀ d ∈ accepted, d ∈ detections := by
    intro d hd
    cases referenceBounds with
    | none => exact hd
    | some bounds => exact (List.mem_filter.mp hd).1
  split at h
  · have hnone : ∀ association, RawFrameObservation.postInit
        ⟨frameIndex, timestampMs, none, .noAcceptedCandidate, association⟩ = .ok observation →
        observation.frameIndex = frameIndex ∧ observation.timestampMs = timestampMs ∧
          0 ≤ timestampMs ∧ ∀ d ∈ observation.detection, d ∈ detections := by
      intro association h
      obtain ⟨rfl, -, htimestamp⟩ := RawFrameObservation.postInit_eq_ok h
      exact ⟨rfl, rfl, htimestamp, fun d hd => absurd hd (Option.not_mem_none d)⟩
    split at h
    · obtain ⟨association, -, h⟩ := Except.bind_eq_ok.mp h
      exact hnone _ h
    · exact hnone _ h
  · obtain ⟨⟨detection, association⟩, hselect, h⟩ := Except.bind_eq_ok.mp h
    obtain ⟨rfl, -, htimestamp⟩ := RawFrameObservation.postInit_eq_ok h
    exact ⟨rfl, rfl, htimestamp, fun d hd =>
      haccepted d (selectTargetWithAssociation_mem hselect d hd)⟩

end TargetFrameAnalyzer

end Association

end BoulderFrame
