import BoulderFrame.Analysis.Association

/-!
# The evidence of an association

With debug capture on, an observation carries evidence of its choice: the candidates, or the first
of them and the selected one. Capturing it changes nothing else of the observation. A candidate is
recorded with its index among those that the choice was made of. On a frame where the gate rejects
some of the detections these are the accepted ones, so that the index is that of the detector only
if the gate rejects none before.

## Main definitions

* `RawFrameObservation.product`: what of an observation does not depend on the capture
* `BoundedEvidence`: evidence of few candidates in the order of their indexes, with the selected one
* `IndexesOf`: every retained candidate has the place of its detection in a list
* `KeepsPlaces`: the gate leaves the retained detections at their places

## Main results

* `TargetFrameAnalyzer.capture_neutral`: the capture neither changes nor fails an observation
* `TargetFrameAnalyzer.originalIndex_iff`: when the indexes are those of the detector's list
-/

namespace List

variable {α : Type} {l : List α} {p : α → Bool}

/-- A filtered list agrees with the list on its first entries exactly if these are kept. -/
theorem getElem?_filter_iff {m : ℕ} (hm : m ≤ (l.filter p).length) :
    (∀ j < m, l[j]? = (l.filter p)[j]?) ↔ ∀ a ∈ l.take m, p a = true := by
  have hle : m ≤ l.length := hm.trans (length_filter_le p l)
  constructor
  · intro h a ha
    obtain ⟨j, hj⟩ := mem_iff_getElem?.mp ha
    rw [getElem?_take] at hj
    split_ifs at hj with hlt
    rw [h j hlt] at hj
    exact (mem_filter.mp (mem_of_getElem? hj)).2
  · intro h j hj
    have hsplit : l.filter p = l.take m ++ (l.drop m).filter p := by
      conv_lhs => rw [← take_append_drop m l, filter_append, filter_eq_self.mpr h]
    rw [hsplit, getElem?_append_left (by rw [length_take]; omega), getElem?_take, if_pos hj]

end List

namespace BoulderFrame

variable {K : Type} [Field K] [LinearOrder K]

/-- What of an observation does not depend on the capture. -/
def RawFrameObservation.product (o : RawFrameObservation K) :
    ℤ × ℤ × Option (Detection K) × SelectionOutcome :=
  (o.frameIndex, o.timestampMs, o.detection, o.selectionOutcome)

/-- Evidence of few candidates, in the order of their indexes, with the selected one. -/
structure BoundedEvidence (detection : Option (Detection K)) (e : AssociationEvidence K) : Prop where
  length_le : e.candidates.length ≤ maxAssociationCandidates
  increasing : (e.candidates.map (·.originalIndex)).Pairwise (· < ·)
  selected : ∀ d ∈ detection, ∃ c ∈ e.candidates, c.selected = true ∧ c.detection = d

/-- Every retained candidate has the place of its detection in the list. -/
def IndexesOf (detections : List (Detection K)) (e : AssociationEvidence K) : Prop :=
  ∀ c ∈ e.candidates, 0 ≤ c.originalIndex ∧ detections[c.originalIndex.toNat]? = some c.detection

/-! ## What is retained -/

section Retained

variable {hypot : K → K → K} {detections : List (Detection K)} {reference : Point K}
  {referenceKind : SelectionReferenceKind} {outcome : SelectionOutcome} {selectedIndex : Option ℕ}
  {e : AssociationEvidence K}

omit [Field K] [LinearOrder K] in
theorem AssociationEvidence.postInit_eq_ok {e e' : AssociationEvidence K}
    (h : e.postInit = .ok e') : e' = e := by
  unfold AssociationEvidence.postInit at h
  dsimp only at h
  split_ifs at h <;> exact (Except.ok.inj h).symm

/-- The candidates of evidence. -/
theorem candidates_eq (hhypot : ∀ a b, 0 ≤ hypot a b)
    (h : associationEvidence hypot detections reference referenceKind outcome selectedIndex = .ok e) :
    e.candidates = retainedCandidates
      (detections.zipIdx.map (candidateOf hypot reference selectedIndex)) (selectedIndex.getD 0) := by
  unfold associationEvidence at h
  rw [associationCandidates_ok hhypot, Except.ok_bind] at h
  rw [AssociationEvidence.postInit_eq_ok h]

/-- The number of candidates that are retained from the front, of `n` with the given one selected. -/
def front (n selected : ℕ) : ℕ :=
  if n ≤ maxAssociationCandidates then n
  else if selected < maxAssociationCandidates then maxAssociationCandidates
  else maxAssociationCandidates - 1

theorem front_le (n selected : ℕ) : front n selected ≤ n := by
  unfold front
  split_ifs <;> omega

variable (hypot detections reference selectedIndex) in
/-- **The retained candidates** are those from the front, and the selected one. -/
theorem mem_retained {c : DetectionCandidate K} {i : ℕ} :
    c ∈ retainedCandidates (detections.zipIdx.map (candidateOf hypot reference selectedIndex)) i ↔
      ∃ j d, detections[j]? = some d ∧ c = candidateOf hypot reference selectedIndex (d, j) ∧
        (j < front detections.length i ∨ j = i) := by
  have hmem : ∀ c, c ∈ detections.zipIdx.map (candidateOf hypot reference selectedIndex) ↔
      ∃ j d, detections[j]? = some d ∧ c = candidateOf hypot reference selectedIndex (d, j) := by
    intro c
    rw [List.mem_map]
    constructor
    · rintro ⟨⟨d, j⟩, hd, rfl⟩
      exact ⟨j, d, List.mem_zipIdx_iff_getElem?.mp hd, rfl⟩
    · rintro ⟨j, d, hd, rfl⟩
      exact ⟨(d, j), List.mem_zipIdx_iff_getElem?.mpr hd, rfl⟩
  unfold retainedCandidates front
  rw [List.length_map, List.length_zipIdx]
  split_ifs with hshort hsmall
  · rw [hmem]
    refine exists₂_congr fun j d => and_congr_right fun hd => (and_iff_left ?_).symm
    exact .inl (List.getElem?_eq_some_iff.mp hd).1
  all_goals
    rw [List.mem_filter, hmem]
    constructor
    · rintro ⟨⟨j, d, hd, rfl⟩, hkept⟩
      rw [Bool.or_eq_true, decide_eq_true_eq, decide_eq_true_eq] at hkept
      exact ⟨j, d, hd, rfl, hkept.imp Int.ofNat_lt.mp Int.natCast_inj.mp⟩
    · rintro ⟨j, d, hd, rfl, hkept⟩
      refine ⟨⟨j, d, hd, rfl⟩, ?_⟩
      rw [Bool.or_eq_true, decide_eq_true_eq, decide_eq_true_eq]
      exact hkept.imp Int.ofNat_lt.mpr Int.natCast_inj.mpr

/-- **Evidence is bounded.** -/
theorem Observes.bounded (hhypot : ∀ a b, 0 ≤ hypot a b) {captureEvidence : Bool}
    {choice : Option (Detection K × ℕ)} {o : RawFrameObservation K}
    (h : Observes hypot detections reference referenceKind captureEvidence choice outcome o)
    (he : e ∈ o.association) : BoundedEvidence o.detection e := by
  obtain ⟨-, hevidence, hfind⟩ := h.evidence e he
  have hcandidates := candidates_eq hhypot hevidence
  refine ⟨?_, ?_, fun d hd => ?_⟩
  · rw [hcandidates]
    exact retained_length _
  · rw [hcandidates]
    exact retained_indexes ..
  · rw [h.detection, Option.mem_def, ← hfind, Option.map_eq_some_iff] at hd
    obtain ⟨c, hc, rfl⟩ := hd
    exact ⟨c, List.mem_of_find?_eq_some hc, List.find?_some hc, rfl⟩

/-- Evidence has indexes of a list exactly if the list has the candidates at the places where they
are retained. -/
theorem indexesOf_iff (hhypot : ∀ a b, 0 ≤ hypot a b)
    (h : associationEvidence hypot detections reference referenceKind outcome selectedIndex = .ok e)
    (others : List (Detection K)) : IndexesOf others e ↔
      ∀ j < detections.length, j < front detections.length (selectedIndex.getD 0) ∨
        j = selectedIndex.getD 0 → others[j]? = detections[j]? := by
  unfold IndexesOf
  rw [candidates_eq hhypot h]
  constructor
  · intro hall j hj hkept
    have hd := List.getElem?_eq_getElem hj
    obtain ⟨-, hplace⟩ := hall _ ((mem_retained ..).mpr ⟨j, _, hd, rfl, hkept⟩)
    rw [hd]
    exact hplace
  · rintro hall c hc
    obtain ⟨j, d, hd, rfl, hkept⟩ := (mem_retained ..).mp hc
    refine ⟨Int.natCast_nonneg j, ?_⟩
    exact (hall j (List.getElem?_eq_some_iff.mp hd).1 hkept).trans hd

end Retained

/-! ## The capture -/

namespace TargetFrameAnalyzer

variable {hypot : K → K → K} {detections : List (Detection K)} {frameIndex timestampMs : ℤ}

/-- What an observation without a frame raises. -/
def negativeFrame : Raised := .valueError "frame index and timestamp must not be negative"

omit [Field K] in
theorem postInit_negative (hneg : frameIndex < 0 ∨ timestampMs < 0) (detection : Option (Detection K))
    (outcome : SelectionOutcome) (association : Option (AssociationEvidence K)) :
    RawFrameObservation.postInit ⟨frameIndex, timestampMs, detection, outcome, association⟩ =
      .error negativeFrame := if_pos hneg

theorem selectSelected_negative (hhypot : ∀ a b, 0 ≤ hypot a b)
    (hneg : frameIndex < 0 ∨ timestampMs < 0) {normalizedX normalizedY : K} {width height : ℤ}
    {reference : Point K} (htap : sourceTap normalizedX normalizedY width height = .ok reference)
    (hne : detections ≠ []) (captureEvidence : Bool) :
    selectSelected hypot detections frameIndex timestampMs normalizedX normalizedY width height
      captureEvidence = .error negativeFrame := by
  obtain ⟨association, hselect, -⟩ := selectTargetWithAssociation_ok detections reference hhypot .tap
    .selectedContainingTap .selectedNearestTap captureEvidence true ⟨nofun, nofun⟩ ⟨nofun, nofun⟩
    fun _ => hne
  unfold selectSelected
  rw [htap, Except.ok_bind, hselect, Except.ok_bind]
  cases hchosen : select detections reference with
  | none => exact absurd (select_eq_none.mp hchosen) hne
  | some chosen => exact postInit_negative hneg ..

theorem associate_negative (hhypot : ∀ a b, 0 ≤ hypot a b) (hneg : frameIndex < 0 ∨ timestampMs < 0)
    (reference : Point K) (referenceKind : SelectionReferenceKind)
    (referenceBounds : Option (Rect K)) (captureEvidence : Bool) :
    associate hypot detections frameIndex timestampMs reference referenceKind referenceBounds
      captureEvidence = .error negativeFrame := by
  unfold associate
  extract_lets gate
  split
  · cases captureEvidence with
    | false => exact postInit_negative hneg ..
    | true =>
      obtain ⟨evidence, hevidence, -⟩ := associationEvidence_ok detections reference hhypot
        referenceKind .noAcceptedCandidate (fun i (hi : i ∈ none) => absurd hi (Option.not_mem_none i))
        ⟨nofun, fun _ => .inr rfl, fun _ => rfl⟩
      rw [if_pos rfl, hevidence]
      exact postInit_negative hneg ..
  · obtain ⟨association, hselect, -⟩ := selectTargetWithAssociation_ok gate reference hhypot
      referenceKind .associatedContainingReference .associatedNearestReference captureEvidence false
      ⟨nofun, nofun⟩ ⟨nofun, nofun⟩ nofun
    rw [hselect, Except.ok_bind]
    exact postInit_negative hneg ..

/-- Observations of one choice agree in what does not depend on the capture. -/
theorem Observes.product_eq {detections' : List (Detection K)} {reference : Point K}
    {referenceKind : SelectionReferenceKind} {capture capture' : Bool}
    {choice : Option (Detection K × ℕ)} {outcome : SelectionOutcome} {o o' : RawFrameObservation K}
    (h : Observes hypot detections' reference referenceKind capture choice outcome o)
    (h' : Observes hypot detections' reference referenceKind capture' choice outcome o')
    (hframe : o.frameIndex = frameIndex ∧ o.timestampMs = timestampMs)
    (hframe' : o'.frameIndex = frameIndex ∧ o'.timestampMs = timestampMs) :
    o.product = o'.product := by
  rw [RawFrameObservation.product, RawFrameObservation.product, h.detection, h'.detection,
    h.outcome_eq, h'.outcome_eq, hframe.1, hframe.2, hframe'.1, hframe'.2]

/-- **The capture of evidence** does not change an observation, nor what is raised instead of one. On
every frame, with a detection for the tap, an observation is made, and its evidence is bounded. -/
theorem capture_neutral (hhypot : ∀ a b, 0 ≤ hypot a b) (detections : List (Detection K))
    (frameIndex timestampMs : ℤ) :
    (∀ normalizedX normalizedY width height,
      RawFrameObservation.product <$> selectSelected hypot detections frameIndex timestampMs
          normalizedX normalizedY width height true =
        RawFrameObservation.product <$> selectSelected hypot detections frameIndex timestampMs
          normalizedX normalizedY width height false) ∧
    (∀ reference referenceKind referenceBounds,
      RawFrameObservation.product <$> associate hypot detections frameIndex timestampMs reference
          referenceKind referenceBounds true =
        RawFrameObservation.product <$> associate hypot detections frameIndex timestampMs reference
          referenceKind referenceBounds false) ∧
    (0 ≤ frameIndex → 0 ≤ timestampMs →
      (∀ normalizedX normalizedY width height reference,
        sourceTap normalizedX normalizedY width height = .ok reference → detections ≠ [] →
        ∃ o e, selectSelected hypot detections frameIndex timestampMs normalizedX normalizedY width
            height true = .ok o ∧ o.association = some e ∧ BoundedEvidence o.detection e) ∧
      ∀ reference referenceKind referenceBounds,
        ∃ o e, associate hypot detections frameIndex timestampMs reference referenceKind
            referenceBounds true = .ok o ∧ o.association = some e ∧
          BoundedEvidence o.detection e) := by
  refine ⟨fun normalizedX normalizedY width height => ?_,
    fun reference referenceKind referenceBounds => ?_, fun hindex htimestamp => ⟨?_, ?_⟩⟩
  · cases htap : sourceTap normalizedX normalizedY width height with
    | error e =>
      unfold selectSelected
      rw [htap]
      rfl
    | ok reference =>
      by_cases hne : detections = []
      · subst hne
        unfold selectSelected
        rw [htap]
        rfl
      by_cases hneg : frameIndex < 0 ∨ timestampMs < 0
      · rw [selectSelected_negative hhypot hneg htap hne, selectSelected_negative hhypot hneg htap hne]
      · obtain ⟨hindex, htimestamp⟩ := not_or.mp hneg
        obtain ⟨o, ho, -, hobserves⟩ := selectSelected_ok hhypot (not_lt.mp hindex)
          (not_lt.mp htimestamp) htap hne true
        obtain ⟨o', ho', -, hobserves'⟩ := selectSelected_ok hhypot (not_lt.mp hindex)
          (not_lt.mp htimestamp) htap hne false
        obtain ⟨hi, ht, -⟩ := selectSelected_eq_ok ho
        obtain ⟨hi', ht', -⟩ := selectSelected_eq_ok ho'
        rw [ho, ho', Except.map_ok_eq, Except.map_ok_eq,
          Observes.product_eq hobserves hobserves' ⟨hi, ht⟩ ⟨hi', ht'⟩]
  · by_cases hneg : frameIndex < 0 ∨ timestampMs < 0
    · rw [associate_negative hhypot hneg, associate_negative hhypot hneg]
    · obtain ⟨hindex, htimestamp⟩ := not_or.mp hneg
      obtain ⟨o, ho, -, hobserves⟩ := associate_ok detections reference hhypot (not_lt.mp hindex)
        (not_lt.mp htimestamp) referenceKind referenceBounds true
      obtain ⟨o', ho', -, hobserves'⟩ := associate_ok detections reference hhypot (not_lt.mp hindex)
        (not_lt.mp htimestamp) referenceKind referenceBounds false
      obtain ⟨hi, ht, -⟩ := associate_eq_ok ho
      obtain ⟨hi', ht', -⟩ := associate_eq_ok ho'
      rw [ho, ho', Except.map_ok_eq, Except.map_ok_eq,
        Observes.product_eq hobserves hobserves' ⟨hi, ht⟩ ⟨hi', ht'⟩]
  · intro normalizedX normalizedY width height reference htap hne
    obtain ⟨o, ho, -, hobserves⟩ := selectSelected_ok hhypot hindex htimestamp htap hne true
    obtain ⟨e, he⟩ := Option.isSome_iff_exists.mp hobserves.captured
    exact ⟨o, e, ho, he, hobserves.bounded hhypot he⟩
  · intro reference referenceKind referenceBounds
    obtain ⟨o, ho, -, hobserves⟩ := associate_ok detections reference hhypot hindex htimestamp
      referenceKind referenceBounds true
    obtain ⟨e, he⟩ := Option.isSome_iff_exists.mp hobserves.captured
    exact ⟨o, e, ho, he, hobserves.bounded hhypot he⟩

/-! ## The indexes -/

variable (hypot detections) in
/-- The gate leaves the retained detections at their places: it accepts none, so that all are
retained, or it accepts the first ones as far as they are retained from the front, and the selected
one, if it is retained beyond these, equals the detection at its index. -/
def KeepsPlaces (reference : Point K) (bounds : Rect K) : Prop :=
  ∀ d i, select (gated hypot detections bounds) reference = some (d, i) →
    (∀ d' ∈ detections.take (front (gated hypot detections bounds).length i),
      withinAssociationGate hypot d'.bounds bounds = true) ∧
    (front (gated hypot detections bounds).length i ≤ i → detections[i]? = some d)

/-- The selected detection has an observation whose evidence has the detector's indexes. -/
theorem selectSelected_indexes (hhypot : ∀ a b, 0 ≤ hypot a b) {normalizedX normalizedY : K}
    {width height : ℤ} {o : RawFrameObservation K} {e : AssociationEvidence K}
    (h : selectSelected hypot detections frameIndex timestampMs normalizedX normalizedY width height
      true = .ok o) (he : o.association = some e) : IndexesOf detections e := by
  obtain ⟨reference, htap, hrest⟩ := Except.bind_eq_ok.mp h
  have hne : detections ≠ [] := by
    obtain ⟨-, -, -, d, hd, -⟩ := selectSelected_eq_ok h
    exact List.ne_nil_of_mem hd
  have hnonneg : ¬ (frameIndex < 0 ∨ timestampMs < 0) := fun hneg => by
    rw [selectSelected_negative hhypot hneg htap hne] at h
    cases h
  obtain ⟨hindex, htimestamp⟩ := not_or.mp hnonneg
  obtain ⟨o', ho', -, hobserves⟩ := selectSelected_ok hhypot (not_lt.mp hindex)
    (not_lt.mp htimestamp) htap hne true
  obtain rfl := Except.ok.inj (h.symm.trans ho')
  obtain ⟨-, hevidence, -⟩ := hobserves.evidence e he
  exact (indexesOf_iff hhypot hevidence detections).mpr fun _ _ _ => rfl

/-- The evidence of an association has the indexes of the detector's list exactly if the gate leaves
the retained detections at their places. -/
theorem associate_indexes_iff (hhypot : ∀ a b, 0 ≤ hypot a b) {reference : Point K}
    {referenceKind : SelectionReferenceKind} {referenceBounds : Option (Rect K)}
    {o : RawFrameObservation K} {e : AssociationEvidence K}
    (h : associate hypot detections frameIndex timestampMs reference referenceKind referenceBounds
      true = .ok o) (he : o.association = some e) :
    IndexesOf detections e ↔
      ∀ bounds ∈ referenceBounds, KeepsPlaces hypot detections reference bounds := by
  have hnonneg : ¬ (frameIndex < 0 ∨ timestampMs < 0) := fun hneg => by
    rw [associate_negative hhypot hneg] at h
    cases h
  obtain ⟨hindex, htimestamp⟩ := not_or.mp hnonneg
  obtain ⟨o', ho', -, hobserves⟩ := associate_ok detections reference hhypot (not_lt.mp hindex)
    (not_lt.mp htimestamp) referenceKind referenceBounds true
  obtain rfl := Except.ok.inj (h.symm.trans ho')
  obtain ⟨-, hevidence, -⟩ := hobserves.evidence e he
  rw [indexesOf_iff hhypot hevidence]
  cases referenceBounds with
  | none =>
    rw [show accepted hypot detections none = detections from rfl, ite_self]
    exact iff_of_true (fun _ _ _ => rfl) fun bounds hbounds => absurd hbounds (by simp)
  | some bounds =>
    have hgate : accepted hypot detections (some bounds) = gated hypot detections bounds := rfl
    rw [hgate]
    simp only [Option.mem_def, Option.some.injEq, forall_eq']
    by_cases hempty : gated hypot detections bounds = []
    · rw [if_pos hempty]
      refine iff_of_true (fun _ _ _ => rfl) fun d i hselect => ?_
      rw [select_eq_none.mpr hempty] at hselect
      cases hselect
    · rw [if_neg hempty]
      obtain ⟨⟨d, i⟩, hselect⟩ := Option.ne_none_iff_exists'.mp (select_eq_none.not.mpr hempty)
      obtain ⟨hi, -⟩ := select_nearest hselect
      have hlt := (List.getElem?_eq_some_iff.mp hi).1
      rw [hselect, Option.map_some, Option.getD_some]
      constructor
      · intro hall d' i' hselect'
        obtain ⟨rfl, rfl⟩ := Prod.mk.inj (Option.some.inj (hselect.symm.trans hselect'))
        refine ⟨(List.getElem?_filter_iff (front_le _ _)).mp fun j hj => ?_, fun _ => ?_⟩
        · exact hall j (hj.trans_le (front_le _ _)) (.inl hj)
        · exact (hall _ hlt (.inr rfl)).trans hi
      · intro hplaces j hj hkept
        obtain ⟨hfront, hselected⟩ := hplaces d i hselect
        have hfront' := (List.getElem?_filter_iff (front_le _ _)).mpr hfront
        obtain hkept | rfl := hkept
        · exact hfront' j hkept
        · by_cases hj' : j < front (gated hypot detections bounds).length j
          · exact hfront' j hj'
          · rw [hselected (not_lt.mp hj'), hi]

/-- **The indexes of the evidence** are those of the detector's list on every selected frame, and on
every other one without a gate. On a frame with a gate they are exactly if the gate leaves the
retained detections at their places. -/
theorem originalIndex_iff (hhypot : ∀ a b, 0 ≤ hypot a b) (detections : List (Detection K))
    (frameIndex timestampMs : ℤ) (o : RawFrameObservation K) (e : AssociationEvidence K)
    (he : o.association = some e) :
    (∀ normalizedX normalizedY width height,
      selectSelected hypot detections frameIndex timestampMs normalizedX normalizedY width height
        true = .ok o → IndexesOf detections e) ∧
    ∀ reference referenceKind referenceBounds,
      associate hypot detections frameIndex timestampMs reference referenceKind referenceBounds
        true = .ok o →
      (IndexesOf detections e ↔
        ∀ bounds ∈ referenceBounds, KeepsPlaces hypot detections reference bounds) :=
  ⟨fun _ _ _ _ h => selectSelected_indexes hhypot h he,
    fun _ _ _ h => associate_indexes_iff hhypot h he⟩

end TargetFrameAnalyzer

/-! ## Two persons, one of them out of reach -/

section Reach

open TargetFrameAnalyzer

/-- The person the gate is around. -/
noncomputable def nearPerson : Detection ℝ := ⟨⟨0, 0, 30, 40⟩, 1⟩

/-- A person a thousand pixels to her right. -/
noncomputable def farPerson : Detection ℝ := ⟨⟨1000, 0, 30, 40⟩, 1⟩

theorem nearPerson_within :
    withinAssociationGate hypotenuse nearPerson.bounds nearPerson.bounds = true := by
  rw [withinAssociationGate_iff, WithinReach]
  norm_num

theorem farPerson_beyond :
    withinAssociationGate hypotenuse farPerson.bounds nearPerson.bounds = false := by
  rw [Bool.eq_false_iff, Ne, withinAssociationGate_iff, WithinReach, not_le]
  have hdiagonal : √(2500 : ℝ) = 50 := by
    rw [show (2500 : ℝ) = 50 ^ 2 by norm_num, Real.sqrt_sq (by norm_num)]
  have hdistance : √(1000000 : ℝ) = 1000 := by
    rw [show (1000000 : ℝ) = 1000 ^ 2 by norm_num, Real.sqrt_sq (by norm_num)]
  simp only [nearPerson, farPerson, Rect.center]
  norm_num [hdiagonal, hdistance]

/-- The gate around the near person leaves the near one alone, wherever the detector lists her. -/
theorem gated_nearPerson :
    gated hypotenuse [nearPerson, farPerson] nearPerson.bounds = [nearPerson] ∧
      gated hypotenuse [farPerson, nearPerson] nearPerson.bounds = [nearPerson] := by
  simp [gated, nearPerson_within, farPerson_beyond]

theorem capture_neutral_twoPersons : ∃ o e, associate hypotenuse [farPerson, nearPerson] 0 0
      nearPerson.bounds.center .priorDetectorBoxCenter (some nearPerson.bounds) true = .ok o ∧
    o.association = some e ∧ BoundedEvidence o.detection e :=
  ((capture_neutral hypotenuse_nonneg [farPerson, nearPerson] 0 0).2.2 le_rfl le_rfl).2 _ _ _

theorem originalIndex_iff_near : ∃ o e, associate hypotenuse [nearPerson, farPerson] 0 0
      nearPerson.bounds.center .priorDetectorBoxCenter (some nearPerson.bounds) true = .ok o ∧
    o.association = some e ∧ IndexesOf [nearPerson, farPerson] e := by
  obtain ⟨o, ho, -, hobserves⟩ := associate_ok [nearPerson, farPerson] nearPerson.bounds.center
    hypotenuse_nonneg (le_refl (0 : ℤ)) (le_refl (0 : ℤ)) .priorDetectorBoxCenter
    (some nearPerson.bounds) true
  obtain ⟨e, he⟩ := Option.isSome_iff_exists.mp hobserves.captured
  refine ⟨o, e, ho, he, ((originalIndex_iff hypotenuse_nonneg [nearPerson, farPerson] 0 0 o e he).2
    _ _ _ ho).mpr ?_⟩
  rintro bounds hbounds d i hselect
  obtain rfl := Option.some.inj hbounds
  rw [gated_nearPerson.1] at hselect ⊢
  obtain ⟨hi, -⟩ := select_nearest hselect
  obtain rfl : i = 0 := by
    have := (List.getElem?_eq_some_iff.mp hi).1
    simpa using this
  exact ⟨fun d' hd' => List.mem_singleton.mp hd' ▸ nearPerson_within, fun h => absurd h (by decide)⟩

/-- **A person out of reach** before the accepted one moves its index. -/
theorem farPerson_moves_index : ∃ o e, associate hypotenuse [farPerson, nearPerson] 0 0
      nearPerson.bounds.center .priorDetectorBoxCenter (some nearPerson.bounds) true = .ok o ∧
    o.association = some e ∧ ¬ IndexesOf [farPerson, nearPerson] e := by
  obtain ⟨o, ho, -, hobserves⟩ := associate_ok [farPerson, nearPerson] nearPerson.bounds.center
    hypotenuse_nonneg (le_refl (0 : ℤ)) (le_refl (0 : ℤ)) .priorDetectorBoxCenter
    (some nearPerson.bounds) true
  obtain ⟨e, he⟩ := Option.isSome_iff_exists.mp hobserves.captured
  refine ⟨o, e, ho, he, fun hindexes => ?_⟩
  have hgated := gated_nearPerson.2
  obtain ⟨⟨d, i⟩, hselect⟩ := Option.ne_none_iff_exists'.mp
    (select_eq_none.not.mpr (by rw [hgated]; exact List.cons_ne_nil _ _) :
      select (gated hypotenuse [farPerson, nearPerson] nearPerson.bounds)
        nearPerson.bounds.center ≠ none)
  obtain ⟨hfront, -⟩ :=
    (associate_indexes_iff hypotenuse_nonneg ho he).mp hindexes nearPerson.bounds rfl d i hselect
  rw [hgated] at hfront
  have hfar := hfront farPerson (List.mem_cons_self ..)
  rw [farPerson_beyond] at hfar
  cases hfar

end Reach

end BoulderFrame
