import BoulderFrame.Analysis.ShotAnalysis
import Mathlib.Analysis.SpecialFunctions.Sqrt

/-!
# Following the athlete

From the selected frame the athlete is followed to both ends of the shot. On each sampled frame the
box is the one that the last accepted box on the way chooses among the detections within its gate; a
frame without such a detection leaves that box the reference of the next. Neither side sees
detections of the other, nor any further out.

## Main definitions

* `Chosen`: the choice of a reference box among some detections
* `IsReference`: the nearest accepted box toward the selected frame

## Main results

* `select_nearest`: the choice contains the reference, if any does, and is nearest to it
* `associate_ok`: on every frame an observation is made, and its detection is the chosen one
* `associateFromSelected_agree`, `observeFrames_local`: what an observation depends on
* `associated_shot`: every shot is followed by these rules
-/

namespace BoulderFrame

section Choice

variable {K : Type} [Field K] [LinearOrder K]

/-! ## The nearest detection -/

omit [Field K] in
theorem firstMinimum_le {α : Type} {key : α → K} {l : List α} {a : α}
    (h : firstMinimum key l = some a) : ∀ b ∈ l, key a ≤ key b := by
  cases l with
  | nil => cases h
  | cons first l =>
    rw [← Option.some.inj h]
    clear h
    -- the fold stays below its start, and below all that it has passed
    suffices hfold : ∀ best, key (l.foldl (fun best b => if key b < key best then b else best) best) ≤
        key best ∧ ∀ b ∈ l,
          key (l.foldl (fun best b => if key b < key best then b else best) best) ≤ key b by
      intro b hb
      obtain rfl | hb := List.mem_cons.mp hb
      · exact (hfold _).1
      · exact (hfold _).2 b hb
    induction l with
    | nil => exact fun best => ⟨le_rfl, fun _ => nofun⟩
    | cons c l ih =>
      intro best
      rw [List.foldl_cons]
      obtain ⟨hstart, hrest⟩ := ih (if key c < key best then c else best)
      have hc : key (if key c < key best then c else best) ≤ key c := by
        split_ifs with h
        · exact le_rfl
        · exact not_lt.mp h
      have hbest : key (if key c < key best then c else best) ≤ key best := by
        split_ifs with h
        · exact h.le
        · exact le_rfl
      refine ⟨hstart.trans hbest, fun b hb => ?_⟩
      obtain rfl | hb := List.mem_cons.mp hb
      · exact hstart.trans hc
      · exact hrest b hb

omit [Field K] in
theorem firstMinimum_eq_none {α : Type} {key : α → K} {l : List α} :
    firstMinimum key l = none ↔ l = [] := by
  cases l with
  | nil => exact ⟨fun _ => rfl, fun _ => rfl⟩
  | cons a l => exact ⟨nofun, nofun⟩

/-- A detection is chosen by a reference: it contains the reference if any detection does, and
no other that may be chosen is nearer. -/
structure Chosen (detections : List (Detection K)) (reference : Point K) (d : Detection K) :
    Prop where
  mem : d ∈ detections
  contains : (∃ c ∈ detections, c.bounds.containsPoint reference = true) →
    d.bounds.containsPoint reference = true
  nearest : ∀ c ∈ detections, (c.bounds.containsPoint reference = true ∨
      ∀ e ∈ detections, e.bounds.containsPoint reference = false) →
    centerDistanceSquared d reference ≤ centerDistanceSquared c reference

variable {detections : List (Detection K)} {reference : Point K}

theorem select_eq_none : select detections reference = none ↔ detections = [] := by
  unfold select
  dsimp only
  rw [firstMinimum_eq_none]
  split_ifs with hempty
  · rw [List.zipIdx_eq_nil_iff]
  · refine ⟨fun h => absurd (List.isEmpty_iff.mpr h) hempty, ?_⟩
    rintro rfl
    rfl

/-- **The choice** is one of the detections, with its index. -/
theorem select_nearest {d : Detection K} {i : ℕ} (h : select detections reference = some (d, i)) :
    detections[i]? = some d ∧ Chosen detections reference d := by
  unfold select at h
  dsimp only at h
  have hmem := firstMinimum_mem h
  have hle := firstMinimum_le h
  split_ifs at hmem hle with hempty
  · -- no detection contains the reference
    rw [List.isEmpty_iff, List.filter_eq_nil_iff] at hempty
    have hnone : ∀ c ∈ detections, c.bounds.containsPoint reference = false := by
      intro c hc
      obtain ⟨j, hj⟩ := List.mem_iff_getElem?.mp hc
      exact Bool.eq_false_iff.mpr (hempty (c, j) (List.mem_zipIdx_iff_getElem?.mpr hj))
    have hi := List.mem_zipIdx_iff_getElem?.mp hmem
    refine ⟨hi, List.mem_of_getElem? hi, ?_, fun c hc _ => ?_⟩
    · rintro ⟨c, hc, hcontains⟩
      rw [hnone c hc] at hcontains
      cases hcontains
    · obtain ⟨j, hj⟩ := List.mem_iff_getElem?.mp hc
      exact hle (c, j) (List.mem_zipIdx_iff_getElem?.mpr hj)
  · obtain ⟨hmem, hcontains⟩ := List.mem_filter.mp hmem
    have hi := List.mem_zipIdx_iff_getElem?.mp hmem
    refine ⟨hi, List.mem_of_getElem? hi, fun _ => hcontains, fun c hc hmay => ?_⟩
    have hc' : c.bounds.containsPoint reference = true := by
      obtain hc' | hnone := hmay
      · exact hc'
      · rw [hnone d (List.mem_of_getElem? hi)] at hcontains
        cases hcontains
    obtain ⟨j, hj⟩ := List.mem_iff_getElem?.mp hc
    exact hle (c, j) (List.mem_filter.mpr ⟨List.mem_zipIdx_iff_getElem?.mpr hj, hc'⟩)

end Choice

/-! ## The evidence of a choice -/

section Evidence

variable {K : Type} [Field K] [LinearOrder K] {hypot : K → K → K}

/-- The candidate for a detection, with its index. -/
def candidateOf (hypot : K → K → K) (reference : Point K) (selectedIndex : Option ℕ)
    (d : Detection K × ℕ) : DetectionCandidate K where
  originalIndex := d.2
  detection := d.1
  containsReference := d.1.bounds.containsPoint reference
  centerDistance := centerDistance hypot d.1 reference
  selected := decide (selectedIndex = some d.2)

variable {detections : List (Detection K)} {reference : Point K} {selectedIndex : Option ℕ}

theorem associationCandidates_ok (hhypot : ∀ a b, 0 ≤ hypot a b) :
    associationCandidates hypot detections reference selectedIndex =
      .ok (detections.zipIdx.map (candidateOf hypot reference selectedIndex)) := by
  refine Except.mapM_eq_ok.mpr (List.forall₂_map_right_iff.mpr (List.forall₂_same.mpr ?_))
  intro d _
  have hvalid : ¬ (((d.2 : ℤ) < 0) ∨ centerDistance hypot d.1 reference < 0) :=
    not_or.mpr ⟨by omega, (hhypot _ _).not_gt⟩
  exact if_neg hvalid

variable (hypot reference selectedIndex) in
/-- The candidates have their places as indexes. -/
theorem candidates_indexes :
    (detections.zipIdx.map (candidateOf hypot reference selectedIndex)).map (·.originalIndex) =
      (List.range detections.length).map (fun i : ℕ => (i : ℤ)) := by
  rw [List.map_map, List.range_eq_range', ← List.zipIdx_map_snd 0 detections, List.map_map]
  rfl

omit [Field K] [LinearOrder K] in
theorem retainedCandidates_sublist (candidates : List (DetectionCandidate K)) (i : ℕ) :
    (retainedCandidates candidates i).Sublist candidates := by
  unfold retainedCandidates
  split_ifs
  · exact List.Sublist.refl _
  all_goals exact List.filter_sublist

variable (hypot detections reference selectedIndex) in
/-- The retained candidates have increasing indexes. -/
theorem retained_indexes (i : ℕ) :
    ((retainedCandidates (detections.zipIdx.map (candidateOf hypot reference selectedIndex)) i).map
      (·.originalIndex)).Pairwise (· < ·) := by
  have hall : ((List.range detections.length).map (fun i : ℕ => (i : ℤ))).Pairwise (· < ·) := by
    rw [List.pairwise_map]
    exact List.pairwise_lt_range.imp fun h => by exact_mod_cast h
  rw [← candidates_indexes hypot reference selectedIndex] at hall
  exact hall.sublist ((retainedCandidates_sublist _ i).map _)

/-- **No more candidates** are retained than the evidence may hold. -/
theorem retained_length (i : ℕ) :
    (retainedCandidates (detections.zipIdx.map (candidateOf hypot reference selectedIndex))
      i).length ≤ maxAssociationCandidates := by
  have hnodup := (retained_indexes hypot detections reference selectedIndex i).imp ne_of_lt
  have hindexes : ∀ candidate ∈ detections.zipIdx.map (candidateOf hypot reference selectedIndex),
      0 ≤ candidate.originalIndex := by
    intro candidate hmem
    obtain ⟨d, -, rfl⟩ := List.mem_map.mp hmem
    exact Int.natCast_nonneg _
  unfold retainedCandidates at hnodup ⊢
  split_ifs at hnodup ⊢ with hshort hsmall
  · exact hshort
  all_goals rw [← List.length_map (·.originalIndex), ← List.toFinset_card_of_nodup hnodup]
  · -- the selected one is among the first
    calc _ ≤ (Finset.Ico (0 : ℤ) maxAssociationCandidates).card := ?_
      _ = maxAssociationCandidates := by rw [Int.card_Ico]; rfl
    refine Finset.card_le_card fun index hindex => ?_
    obtain ⟨candidate, hmem, rfl⟩ := List.mem_map.mp (List.mem_toFinset.mp hindex)
    obtain ⟨hmem, hkept⟩ := List.mem_filter.mp hmem
    rw [Bool.or_eq_true, decide_eq_true_eq, decide_eq_true_eq] at hkept
    rw [Finset.mem_Ico]
    exact ⟨hindexes _ hmem, by omega⟩
  · calc _ ≤ (insert (i : ℤ)
          (Finset.Ico (0 : ℤ) ((maxAssociationCandidates - 1 : ℕ) : ℤ))).card := ?_
      _ ≤ (Finset.Ico (0 : ℤ) ((maxAssociationCandidates - 1 : ℕ) : ℤ)).card + 1 :=
        Finset.card_insert_le _ _
      _ = maxAssociationCandidates := by rw [Int.card_Ico]; rfl
    refine Finset.card_le_card fun index hindex => ?_
    obtain ⟨candidate, hmem, rfl⟩ := List.mem_map.mp (List.mem_toFinset.mp hindex)
    obtain ⟨hmem, hkept⟩ := List.mem_filter.mp hmem
    rw [Bool.or_eq_true, decide_eq_true_eq, decide_eq_true_eq] at hkept
    rw [Finset.mem_insert, Finset.mem_Ico]
    obtain hlt | heq := hkept
    · exact .inr ⟨hindexes _ hmem, hlt⟩
    · exact .inl heq

/-- Without a selected index no candidate is selected. -/
theorem retained_unselected (i : ℕ) :
    (retainedCandidates (detections.zipIdx.map (candidateOf hypot reference none)) i).filter
      (·.selected) = [] := by
  rw [List.filter_eq_nil_iff]
  intro candidate hmem
  obtain ⟨d, -, rfl⟩ := List.mem_map.mp ((retainedCandidates_sublist _ i).subset hmem)
  exact Bool.false_ne_true

/-- **The selected candidate** is retained, and no other is selected. -/
theorem retained_selected {i : ℕ} {d : Detection K} (hd : detections[i]? = some d) :
    (retainedCandidates (detections.zipIdx.map (candidateOf hypot reference (some i))) i).filter
      (·.selected) = [candidateOf hypot reference (some i) (d, i)] := by
  classical
  set candidates := detections.zipIdx.map (candidateOf hypot reference (some i)) with hcandidates
  have hmem : candidateOf hypot reference (some i) (d, i) ∈ retainedCandidates candidates i := by
    have hall : candidateOf hypot reference (some i) (d, i) ∈ candidates :=
      List.mem_map_of_mem (List.mem_zipIdx_iff_getElem?.mpr hd)
    unfold retainedCandidates
    split_ifs
    · exact hall
    all_goals
      refine List.mem_filter.mpr ⟨hall, ?_⟩
      rw [Bool.or_eq_true]
      exact .inr (decide_eq_true rfl)
  have honly : ∀ candidate ∈ retainedCandidates candidates i, candidate.selected =
      decide (candidate = candidateOf hypot reference (some i) (d, i)) := by
    intro candidate hcandidate
    obtain ⟨⟨d', j⟩, hd', rfl⟩ :=
      List.mem_map.mp ((retainedCandidates_sublist _ i).subset hcandidate)
    have hd' := List.mem_zipIdx_iff_getElem?.mp hd'
    change decide (some i = some j) = decide _
    rw [decide_eq_decide]
    constructor
    · intro h
      obtain rfl := Option.some.inj h
      obtain rfl := Option.some.inj (hd.symm.trans hd')
      rfl
    · intro h
      have hindex := congrArg DetectionCandidate.originalIndex h
      exact congrArg some (Int.natCast_inj.mp hindex).symm
  have hnodup : (retainedCandidates candidates i).Nodup :=
    List.Nodup.of_map (fun candidate : DetectionCandidate K => candidate.originalIndex)
      ((retained_indexes hypot detections reference (some i) i).imp ne_of_lt)
  rw [List.filter_congr honly, List.filter_eq, List.count_eq_one_of_mem hnodup hmem]
  rfl

variable (detections reference) in
/-- **The evidence of a choice** is always valid; it has the outcome, and the selected detection. -/
theorem associationEvidence_ok (hhypot : ∀ a b, 0 ≤ hypot a b)
    (referenceKind : SelectionReferenceKind) (outcome : SelectionOutcome)
    (hselected : ∀ i ∈ selectedIndex, i < detections.length)
    (houtcome : (outcome = .noDetections → detections = []) ∧
      (selectedIndex = none ↔ outcome = .noDetections ∨ outcome = .noAcceptedCandidate)) :
    ∃ evidence, associationEvidence hypot detections reference referenceKind outcome
        selectedIndex = .ok evidence ∧ evidence.outcome = outcome ∧
      (evidence.candidates.find? (·.selected)).map (·.detection) =
        selectedIndex.bind (detections[·]?) := by
  set candidates := detections.zipIdx.map (candidateOf hypot reference selectedIndex) with hcandidates
  set retained := retainedCandidates candidates (selectedIndex.getD 0) with hretained
  set evidence : AssociationEvidence K :=
    ⟨reference, referenceKind, .containingReferenceThenNearestCenter, outcome, candidates.length,
      retained, decide (retained.length < candidates.length)⟩ with hevidence
  have hlength : retained.length ≤ maxAssociationCandidates := retained_length _
  have hsub : retained.length ≤ candidates.length := (retainedCandidates_sublist _ _).length_le
  have hindexes :=
    retained_indexes hypot detections reference selectedIndex (selectedIndex.getD 0)
  have hsorted : (retained.map (·.originalIndex)).Pairwise (fun i k : ℤ => i ≤ k) ∧
      (retained.map (·.originalIndex)).Nodup :=
    ⟨hindexes.imp le_of_lt, hindexes.imp ne_of_lt⟩
  have hfilter : (retained.filter (·.selected)).length = if selectedIndex = none then 0 else 1 := by
    cases hindex : selectedIndex with
    | none =>
      rw [hretained, hcandidates, hindex, retained_unselected]
      rfl
    | some i =>
      have hd := List.getElem?_eq_getElem (hselected i hindex)
      rw [hretained, hcandidates, hindex, Option.getD_some, retained_selected hd]
      rfl
  have hvalid : evidence.postInit = .ok evidence := by
    unfold AssociationEvidence.postInit
    dsimp only
    rw [if_neg (not_or.mpr ⟨(Int.natCast_nonneg _).not_gt, hlength.not_gt⟩),
      if_neg (Int.ofNat_le.mpr hsub).not_gt, if_neg (not_not.mpr ?_), if_neg (not_not.mpr hsorted)]
    · change (if outcome = .noDetections then _ else if outcome = .noAcceptedCandidate then _
        else _) = _
      rw [show evidence.candidates = retained from rfl, hfilter]
      obtain ⟨hempty, hnone⟩ := houtcome
      by_cases h₁ : outcome = .noDetections
      · have hcount : evidence.candidateCount = 0 := by
          change ((candidates.length : ℕ) : ℤ) = 0
          rw [hcandidates, List.length_map, List.length_zipIdx, hempty h₁]
          rfl
        rw [if_pos h₁, if_pos (hnone.mpr (.inl h₁))]
        exact if_neg (not_or.mpr ⟨not_not.mpr hcount, not_not.mpr rfl⟩)
      rw [if_neg h₁]
      by_cases h₂ : outcome = .noAcceptedCandidate
      · rw [if_pos h₂, if_pos (hnone.mpr (.inr h₂))]
        exact if_neg (not_not.mpr rfl)
      · rw [if_neg h₂, if_neg fun h => (hnone.mp h).elim h₁ h₂]
        exact if_neg (not_not.mpr rfl)
    · exact decide_eq_decide.mpr Int.ofNat_lt.symm
  refine ⟨evidence, ?_, rfl, ?_⟩
  · unfold associationEvidence
    rw [associationCandidates_ok hhypot]
    exact hvalid
  · rw [← List.head?_filter]
    cases hindex : selectedIndex with
    | none =>
      rw [show evidence.candidates = retained from rfl, hretained, hcandidates, hindex,
        retained_unselected]
      rfl
    | some i =>
      have hd := List.getElem?_eq_getElem (hselected i hindex)
      rw [show evidence.candidates = retained from rfl, hretained, hcandidates, hindex,
        Option.getD_some, retained_selected hd]
      exact hd.symm

omit [Field K] in
/-- What an observation must say of its evidence. -/
theorem RawFrameObservation.postInit_ok {observation : RawFrameObservation K}
    (hindex : 0 ≤ observation.frameIndex) (htimestamp : 0 ≤ observation.timestampMs)
    (hsampled : observation.selectionOutcome ≠ .detectionSkipped)
    (hassociation : ∀ association ∈ observation.association,
      association.outcome = observation.selectionOutcome ∧
        (association.candidates.find? (·.selected)).map (·.detection) = observation.detection) :
    observation.postInit = .ok observation := by
  unfold RawFrameObservation.postInit
  rw [if_neg (not_or.mpr ⟨hindex.not_gt, htimestamp.not_gt⟩), if_neg fun h => hsampled h.1]
  cases hevidence : observation.association with
  | none => rfl
  | some association =>
    obtain ⟨houtcome, hdetection⟩ := hassociation association hevidence
    change (if _ then _ else if _ then _ else _) = _
    rw [if_neg (not_not.mpr houtcome.symm), if_neg (not_not.mpr hdetection.symm)]

/-- The outcome of a choice. -/
def chosenOutcome (reference : Point K) (containingOutcome nearestOutcome : SelectionOutcome) :
    Option (Detection K × ℕ) → SelectionOutcome
  | none => .noDetections
  | some d => if d.1.bounds.containsPoint reference then containingOutcome else nearestOutcome

omit [LinearOrder K] [Field K] in
theorem ite_outcome_ne {outcome containingOutcome nearestOutcome : SelectionOutcome} {contains : Bool}
    (hcontaining : containingOutcome ≠ outcome) (hnearest : nearestOutcome ≠ outcome) :
    (if contains then containingOutcome else nearestOutcome) ≠ outcome := by
  split_ifs
  · exact hcontaining
  · exact hnearest

variable (detections reference) in
/-- **A choice** is made of any detections, with valid evidence of it if that is captured. -/
theorem selectTargetWithAssociation_ok (hhypot : ∀ a b, 0 ≤ hypot a b)
    (referenceKind : SelectionReferenceKind) (containingOutcome nearestOutcome : SelectionOutcome)
    (captureEvidence terminalOnEmpty : Bool)
    (hcontaining : containingOutcome ≠ .noDetections ∧ containingOutcome ≠ .noAcceptedCandidate)
    (hnearest : nearestOutcome ≠ .noDetections ∧ nearestOutcome ≠ .noAcceptedCandidate)
    (hempty : terminalOnEmpty = true → detections ≠ []) :
    ∃ association, selectTargetWithAssociation hypot detections reference referenceKind
        containingOutcome nearestOutcome captureEvidence terminalOnEmpty =
          .ok ((select detections reference).map (·.1), association) ∧
      association.isSome = captureEvidence ∧
      ∀ evidence ∈ association,
        evidence.outcome = chosenOutcome reference containingOutcome nearestOutcome
          (select detections reference) ∧
        associationEvidence hypot detections reference referenceKind evidence.outcome
          ((select detections reference).map (·.2)) = .ok evidence ∧
        (evidence.candidates.find? (·.selected)).map (·.detection) =
          (select detections reference).map (·.1) := by
  unfold selectTargetWithAssociation
  cases hselect : select detections reference with
  | none =>
    obtain rfl := select_eq_none.mp hselect
    obtain ⟨evidence, hevidence, houtcome, hdetection⟩ :=
      associationEvidence_ok [] reference hhypot referenceKind .noDetections
        (fun i (hi : i ∈ none) => absurd hi (Option.not_mem_none i))
        ⟨fun _ => rfl, fun _ => .inl rfl, fun _ => rfl⟩
    rw [if_neg fun h => hempty h rfl]
    cases captureEvidence with
    | false => exact ⟨none, rfl, rfl, nofun⟩
    | true =>
      refine ⟨some evidence, ?_, rfl, fun e he => ?_⟩
      · rw [if_neg (not_not.mpr rfl), hevidence]
        rfl
      · obtain rfl := Option.some.inj he
        exact ⟨houtcome, houtcome ▸ hevidence, hdetection⟩
  | some chosen =>
    obtain ⟨d, i⟩ := chosen
    obtain ⟨hi, -⟩ := select_nearest hselect
    set outcome := if d.bounds.containsPoint reference then containingOutcome else nearestOutcome
      with houtcome'
    have hselected : ∀ j ∈ some i, j < detections.length :=
      fun j hj => Option.some.inj hj ▸ (List.getElem?_eq_some_iff.mp hi).1
    have hdetected : outcome ≠ .noDetections ∧ outcome ≠ .noAcceptedCandidate :=
      ⟨ite_outcome_ne hcontaining.1 hnearest.1, ite_outcome_ne hcontaining.2 hnearest.2⟩
    obtain ⟨evidence, hevidence, houtcome, hdetection⟩ :=
      associationEvidence_ok detections reference hhypot referenceKind outcome hselected
        ⟨fun h => absurd h hdetected.1, nofun, fun h => (h.elim hdetected.1 hdetected.2).elim⟩
    cases captureEvidence with
    | false => exact ⟨none, rfl, rfl, nofun⟩
    | true =>
      refine ⟨some evidence, ?_, rfl, fun e he => ?_⟩
      · change (associationEvidence hypot detections reference referenceKind outcome (some i) >>=
          fun evidence => .ok (some d, some evidence)) = _
        rw [hevidence]
        rfl
      · obtain rfl := Option.some.inj he
        exact ⟨houtcome, houtcome ▸ hevidence, hdetection.trans hi⟩

omit [Field K] [LinearOrder K] in
/-- The outcome of an observation with a detection. -/
theorem selectionOutcome_eq {association : Option (AssociationEvidence K)}
    {containingOutcome nearestOutcome : SelectionOutcome} {contains : Bool}
    (h : ∀ evidence ∈ association,
      evidence.outcome = if contains then containingOutcome else nearestOutcome) :
    selectionOutcome association containingOutcome nearestOutcome contains =
      if contains then containingOutcome else nearestOutcome := by
  cases association with
  | none => rfl
  | some evidence => exact h evidence rfl

/-! ## The observations -/

/-- The detections within the gate of a box. -/
def gated (hypot : K → K → K) (detections : List (Detection K)) (referenceBounds : Rect K) :
    List (Detection K) :=
  detections.filter fun d => withinAssociationGate hypot d.bounds referenceBounds

/-- The detections within the gate, if there is one. -/
def accepted (hypot : K → K → K) (detections : List (Detection K)) :
    Option (Rect K) → List (Detection K)
  | none => detections
  | some bounds => gated hypot detections bounds

/-- What an observation of a choice says: its detection and its outcome, and evidence, if that is
captured, of the choice among the given detections. -/
structure Observes (hypot : K → K → K) (detections : List (Detection K)) (reference : Point K)
    (referenceKind : SelectionReferenceKind) (captureEvidence : Bool)
    (choice : Option (Detection K × ℕ)) (outcome : SelectionOutcome) (o : RawFrameObservation K) :
    Prop where
  detection : o.detection = choice.map (·.1)
  outcome_eq : o.selectionOutcome = outcome
  captured : o.association.isSome = captureEvidence
  evidence : ∀ e ∈ o.association, e.outcome = outcome ∧
    associationEvidence hypot detections reference referenceKind outcome (choice.map (·.2)) = .ok e ∧
    (e.candidates.find? (·.selected)).map (·.detection) = choice.map (·.1)

namespace TargetFrameAnalyzer

variable {frameIndex timestampMs : ℤ}

/-- **A detection at the tap** is selected on every frame that has one. -/
theorem selectSelected_ok (hhypot : ∀ a b, 0 ≤ hypot a b) (hindex : 0 ≤ frameIndex)
    (htimestamp : 0 ≤ timestampMs) {normalizedX normalizedY : K} {width height : ℤ}
    (htap : sourceTap normalizedX normalizedY width height = .ok reference)
    (hne : detections ≠ []) (captureEvidence : Bool) :
    ∃ observation, selectSelected hypot detections frameIndex timestampMs normalizedX normalizedY
        width height captureEvidence = .ok observation ∧
      observation.selectionOutcome ≠ .detectionSkipped ∧
      Observes hypot detections reference .tap captureEvidence (select detections reference)
        (chosenOutcome reference .selectedContainingTap .selectedNearestTap
          (select detections reference)) observation := by
  obtain ⟨association, hselect, hcaptured, hassociation⟩ := selectTargetWithAssociation_ok
    detections reference hhypot .tap .selectedContainingTap .selectedNearestTap captureEvidence true
    ⟨nofun, nofun⟩ ⟨nofun, nofun⟩ fun _ => hne
  unfold selectSelected
  rw [htap, Except.ok_bind, hselect, Except.ok_bind]
  cases hchosen : select detections reference with
  | none => exact absurd (select_eq_none.mp hchosen) hne
  | some chosen =>
    rw [hchosen] at hassociation
    have houtcome := selectionOutcome_eq fun e he => (hassociation e he).1
    have hsampled : selectionOutcome association .selectedContainingTap .selectedNearestTap
        (chosen.1.bounds.containsPoint reference) ≠ .detectionSkipped := by
      rw [houtcome]
      exact ite_outcome_ne nofun nofun
    refine ⟨_, RawFrameObservation.postInit_ok hindex htimestamp hsampled fun e he => ?_, hsampled,
      rfl, houtcome, hcaptured, fun e he => ?_⟩
    · exact ⟨(hassociation e he).1.trans houtcome.symm, (hassociation e he).2.2⟩
    · obtain ⟨heq, hevidence, hfind⟩ := hassociation e he
      exact ⟨heq, heq ▸ hevidence, hfind⟩

variable (detections reference) in
/-- **An observation** is made of every other frame, of what is chosen within the gate. -/
theorem associate_ok (hhypot : ∀ a b, 0 ≤ hypot a b) (hindex : 0 ≤ frameIndex)
    (htimestamp : 0 ≤ timestampMs) (referenceKind : SelectionReferenceKind)
    (referenceBounds : Option (Rect K)) (captureEvidence : Bool) :
    ∃ observation, associate hypot detections frameIndex timestampMs reference referenceKind
        referenceBounds captureEvidence = .ok observation ∧
      observation.selectionOutcome ≠ .detectionSkipped ∧
      Observes hypot
        (if accepted hypot detections referenceBounds = [] then detections
          else accepted hypot detections referenceBounds) reference referenceKind captureEvidence
        (select (accepted hypot detections referenceBounds) reference)
        (if detections ≠ [] ∧ accepted hypot detections referenceBounds = [] then
          .noAcceptedCandidate
        else chosenOutcome reference .associatedContainingReference .associatedNearestReference
          (select (accepted hypot detections referenceBounds) reference)) observation := by
  unfold associate
  extract_lets gate
  have hgate : accepted hypot detections referenceBounds = gate := by cases referenceBounds <;> rfl
  rw [hgate]
  by_cases hrejected : ¬ detections.isEmpty ∧ gate.isEmpty
  · -- no detection passes the gate
    have hnone : gate = [] := List.isEmpty_iff.mp hrejected.2
    have hsome : detections ≠ [] ∧ gate = [] :=
      ⟨fun h => hrejected.1 (List.isEmpty_iff.mpr h), hnone⟩
    rw [if_pos hrejected, if_pos hnone, if_pos hsome, select_eq_none.mpr hnone]
    cases captureEvidence with
    | false =>
      exact ⟨_, RawFrameObservation.postInit_ok hindex htimestamp nofun nofun, nofun, rfl, rfl, rfl,
        nofun⟩
    | true =>
      obtain ⟨evidence, hevidence, houtcome, hdetection⟩ :=
        associationEvidence_ok detections reference hhypot referenceKind
          .noAcceptedCandidate (fun i (hi : i ∈ none) => absurd hi (Option.not_mem_none i))
          ⟨nofun, fun _ => .inr rfl, fun _ => rfl⟩
      rw [if_pos rfl, hevidence]
      refine ⟨_, RawFrameObservation.postInit_ok hindex htimestamp nofun fun e he => ?_, nofun, rfl,
        rfl, rfl, fun e he => ?_⟩
      · obtain rfl := Option.some.inj he
        exact ⟨houtcome, hdetection⟩
      · obtain rfl := Option.some.inj he
        exact ⟨houtcome, hevidence, hdetection⟩
  · obtain ⟨association, hselect, hcaptured, hassociation⟩ := selectTargetWithAssociation_ok
      gate reference hhypot referenceKind .associatedContainingReference
      .associatedNearestReference captureEvidence false ⟨nofun, nofun⟩ ⟨nofun, nofun⟩ nofun
    have hsame : (if gate = [] then detections else gate) = gate := by
      split_ifs with hempty
      · rw [hempty]
        by_contra hne
        exact hrejected ⟨fun h => hne (List.isEmpty_iff.mp h), List.isEmpty_iff.mpr hempty⟩
      · rfl
    have hnot : ¬ (detections ≠ [] ∧ gate = []) := fun h =>
      hrejected ⟨fun h' => h.1 (List.isEmpty_iff.mp h'), List.isEmpty_iff.mpr h.2⟩
    rw [if_neg hrejected, hsame, if_neg hnot, hselect, Except.ok_bind]
    cases hchosen : select gate reference with
    | none =>
      rw [hchosen] at hassociation
      have hempty := List.isEmpty_iff.mpr (select_eq_none.mp hchosen)
      have houtcome : (if gate.isEmpty = true then
          SelectionOutcome.noDetections else .noAcceptedCandidate) = .noDetections := if_pos hempty
      have hsampled : (if gate.isEmpty = true then
          SelectionOutcome.noDetections else .noAcceptedCandidate) ≠ .detectionSkipped := by
        rw [houtcome]
        exact nofun
      refine ⟨_, RawFrameObservation.postInit_ok hindex htimestamp hsampled fun e he => ?_, hsampled,
        rfl, houtcome, hcaptured, fun e he => ?_⟩
      · exact ⟨(hassociation e he).1.trans houtcome.symm, (hassociation e he).2.2⟩
      · obtain ⟨heq, hevidence, hfind⟩ := hassociation e he
        exact ⟨heq, heq ▸ hevidence, hfind⟩
    | some chosen =>
      rw [hchosen] at hassociation
      have houtcome := selectionOutcome_eq fun e he => (hassociation e he).1
      have hsampled : selectionOutcome association .associatedContainingReference
          .associatedNearestReference (chosen.1.bounds.containsPoint reference) ≠
            .detectionSkipped := by
        rw [houtcome]
        exact ite_outcome_ne nofun nofun
      refine ⟨_, RawFrameObservation.postInit_ok hindex htimestamp hsampled fun e he => ?_, hsampled,
        rfl, houtcome, hcaptured, fun e he => ?_⟩
      · exact ⟨(hassociation e he).1.trans houtcome.symm, (hassociation e he).2.2⟩
      · obtain ⟨heq, hevidence, hfind⟩ := hassociation e he
        exact ⟨heq, heq ▸ hevidence, hfind⟩

end TargetFrameAnalyzer

end Evidence

/-! ## Along the frames -/

section Follow

variable {K : Type} [Field K] [LinearOrder K]

/-- The box that the observation of a frame has accepted. -/
def boxAt (observations : List (RawFrameObservation K)) (index : ℕ) : Option (Rect K) :=
  observations[index]?.bind (·.detectorBounds)

/-- The last accepted box along some frames, after the given one. -/
def lastAccepted (observations : List (RawFrameObservation K)) (indices : List ℕ)
    (bounds : Rect K) : Rect K :=
  indices.foldl (fun bounds index => (boxAt observations index).getD bounds) bounds

omit [Field K] [LinearOrder K] in
/-- The last accepted box is that of the frame after which none has a box. -/
theorem lastAccepted_cases (observations : List (RawFrameObservation K)) (indices : List ℕ)
    (bounds : Rect K) :
    (lastAccepted observations indices bounds = bounds ∧
        ∀ index ∈ indices, boxAt observations index = none) ∨
      ∃ before index after, indices = before ++ index :: after ∧
        boxAt observations index = some (lastAccepted observations indices bounds) ∧
        ∀ later ∈ after, boxAt observations later = none := by
  induction indices generalizing bounds with
  | nil => exact .inl ⟨rfl, nofun⟩
  | cons index indices ih =>
    rw [lastAccepted, List.foldl_cons]
    obtain ⟨hlast, hnone⟩ | ⟨before, index', after, rfl, hlast⟩ :=
      ih ((boxAt observations index).getD bounds)
    · change lastAccepted observations indices _ = _ ∧ _ ∨ _
      rw [← lastAccepted, hlast]
      cases hbox : boxAt observations index with
      | none =>
        refine .inl ⟨rfl, fun index' hindex' => ?_⟩
        obtain rfl | hindex' := List.mem_cons.mp hindex'
        · exact hbox
        · exact hnone index' hindex'
      | some box => exact .inr ⟨[], index, indices, rfl, hbox, hnone⟩
    · exact .inr ⟨index :: before, index', after, rfl, hlast⟩

variable {hypot : K → K → K} {captureEvidence : Bool} {metadata : MediaMetadata}
  {detections : List (Option (List (Detection K)))}

/-- An observation is one of what is chosen by a box, within its gate. -/
structure Associated (hypot : K → K → K) (sample : List (Detection K)) (referenceBounds : Rect K)
    (observation : RawFrameObservation K) : Prop where
  sampled : observation.selectionOutcome ≠ .detectionSkipped
  detection_eq : observation.detection =
    (select (gated hypot sample referenceBounds) referenceBounds.center).map (·.1)

/-- What a pass along some frames does. -/
structure Followed (hypot : K → K → K) (detections : List (Option (List (Detection K))))
    (indices : List ℕ) (referenceBounds : Rect K)
    (observations observations' : List (RawFrameObservation K)) : Prop where
  length_eq : observations'.length = observations.length
  unchanged : ∀ index, (index ∈ indices → ∀ sample, detections[index]? ≠ some (some sample)) →
    observations'[index]? = observations[index]?
  associated : ∀ before index after sample, indices = before ++ index :: after →
    detections[index]? = some (some sample) → ∃ observation,
      observations'[index]? = some observation ∧
        Associated hypot sample (lastAccepted observations' before referenceBounds) observation

variable (detections) in
/-- **A pass** along some frames without a box associates each sampled one by the last box. -/
theorem associateFromSelected_followed (hhypot : ∀ a b, 0 ≤ hypot a b)
    (hmetadata : metadata.Valid) (captureEvidence : Bool) {indices : List ℕ}
    (referenceBounds : Rect K) {observations : List (RawFrameObservation K)}
    (hnodup : indices.Nodup) (hlt : ∀ index ∈ indices, index < observations.length)
    (hnone : ∀ index ∈ indices, boxAt observations index = none) :
    ∃ observations', associateFromSelected hypot captureEvidence metadata detections indices
        referenceBounds observations = .ok observations' ∧
      Followed hypot detections indices referenceBounds observations observations' := by
  induction indices generalizing referenceBounds observations with
  | nil => exact ⟨observations, rfl, rfl, fun _ _ => rfl, fun before _ _ _ h => by simp at h⟩
  | cons index indices ih =>
    obtain ⟨hfresh, hnodup⟩ := List.nodup_cons.mp hnodup
    have hlt' : ∀ j ∈ indices, j < observations.length :=
      fun j hj => hlt j (List.mem_cons_of_mem _ hj)
    have hnone' : ∀ j ∈ indices, boxAt observations j = none :=
      fun j hj => hnone j (List.mem_cons_of_mem _ hj)
    rw [associateFromSelected]
    split
    · rename_i sample hsample
      obtain ⟨t, ht, htnonneg⟩ := hmetadata.timestamp_ok index
      obtain ⟨o, ho, hsampled, hobserves⟩ := TargetFrameAnalyzer.associate_ok sample
        referenceBounds.center hhypot (Int.natCast_nonneg index) htnonneg .priorDetectorBoxCenter
        (some referenceBounds) captureEvidence
      have hdetection := hobserves.detection
      have hset : ∀ j ∈ indices, (observations.set index o)[j]? = observations[j]? :=
        fun j hj => List.getElem?_set_ne fun (h : index = j) => hfresh (h.symm ▸ hj)
      obtain ⟨observations', h, hfollowed⟩ := @ih (o.detectorBounds.getD referenceBounds)
        (observations.set index o) hnodup
        (fun j hj => (hlt' j hj).trans_eq List.length_set.symm)
        (fun j hj => (congrArg (·.bind (·.detectorBounds)) (hset j hj)).trans (hnone' j hj))
      have hindex : observations'[index]? = some o := by
        rw [hfollowed.unchanged index fun h => absurd h hfresh,
          List.getElem?_set_self (hlt index List.mem_cons_self)]
      refine ⟨observations', ?_, hfollowed.length_eq.trans List.length_set, fun j hj => ?_,
        fun before index' after sample' hindices hsample' => ?_⟩
      · rw [ht, Except.ok_bind, ho, Except.ok_bind]
        exact h
      · have hne : index ≠ j := by
          rintro rfl
          exact hj List.mem_cons_self sample hsample
        rw [hfollowed.unchanged j fun h => hj (List.mem_cons_of_mem _ h),
          List.getElem?_set_ne hne]
      · obtain ⟨rfl, hcons⟩ | ⟨before', rfl, htail⟩ := List.cons_eq_append_iff.mp hindices
        · obtain ⟨rfl, rfl⟩ := List.cons.inj hcons
          obtain rfl := Option.some.inj (Option.some.inj (hsample.symm.trans hsample'))
          exact ⟨o, hindex, hsampled, hdetection⟩
        · obtain ⟨o', ho', hassociated⟩ :=
            hfollowed.associated before' index' after sample' htail hsample'
          refine ⟨o', ho', ?_⟩
          rw [lastAccepted, List.foldl_cons, boxAt, hindex]
          exact hassociated
    · rename_i hunsampled
      obtain ⟨observations', h, hfollowed⟩ :=
        @ih referenceBounds observations hnodup hlt' hnone'
      refine ⟨observations', h, hfollowed.length_eq, fun j hj => ?_,
        fun before index' after sample' hindices hsample' => ?_⟩
      · exact hfollowed.unchanged j fun h => hj (List.mem_cons_of_mem _ h)
      · obtain ⟨rfl, hcons⟩ | ⟨before', rfl, htail⟩ := List.cons_eq_append_iff.mp hindices
        · obtain ⟨rfl, rfl⟩ := List.cons.inj hcons
          exact absurd hsample' (hunsampled sample')
        · obtain ⟨o', ho', hassociated⟩ :=
            hfollowed.associated before' index' after sample' htail hsample'
          refine ⟨o', ho', ?_⟩
          rw [lastAccepted, List.foldl_cons, boxAt, hfollowed.unchanged index fun h => absurd h hfresh]
          change Associated hypot sample' (lastAccepted observations' before'
            ((boxAt observations index).getD referenceBounds)) o'
          rw [hnone index List.mem_cons_self]
          exact hassociated

/-! ## What a pass depends on -/

/-- A pass leaves the observations of other frames alone. -/
theorem associateFromSelected_frame {indices : List ℕ} {referenceBounds : Rect K}
    {observations observations' : List (RawFrameObservation K)}
    (h : associateFromSelected hypot captureEvidence metadata detections indices referenceBounds
      observations = .ok observations') {j : ℕ} (hj : j ∉ indices) :
    observations'[j]? = observations[j]? := by
  induction indices generalizing referenceBounds observations with
  | nil =>
    obtain rfl := Except.ok.inj h
    rfl
  | cons index indices ih =>
    obtain ⟨hne, hj⟩ := not_or.mp (List.mem_cons.not.mp hj)
    rw [associateFromSelected] at h
    split at h
    · obtain ⟨t, -, h⟩ := Except.bind_eq_ok.mp h
      obtain ⟨o, -, h⟩ := Except.bind_eq_ok.mp h
      exact (ih h hj).trans (List.getElem?_set_ne (Ne.symm hne))
    · exact ih h hj

/-- **Two passes** that begin alike agree on the frames where their detections have agreed. -/
theorem associateFromSelected_agree {detections' : List (Option (List (Detection K)))}
    {before after after' : List ℕ} {referenceBounds : Rect K}
    {observations₁ observations₂ result₁ result₂ : List (RawFrameObservation K)}
    (hnodup : (before ++ after).Nodup) (hnodup' : (before ++ after').Nodup)
    (hdetections : ∀ j ∈ before, detections'[j]? = detections[j]?)
    (hobservations : ∀ j ∈ before, observations₂[j]? = observations₁[j]?)
    (h₁ : associateFromSelected hypot captureEvidence metadata detections (before ++ after)
      referenceBounds observations₁ = .ok result₁)
    (h₂ : associateFromSelected hypot captureEvidence metadata detections' (before ++ after')
      referenceBounds observations₂ = .ok result₂) :
    ∀ j ∈ before, result₂[j]? = result₁[j]? := by
  induction before generalizing referenceBounds observations₁ observations₂ with
  | nil => exact fun _ => nofun
  | cons index before ih =>
    obtain ⟨hfresh, hnodup⟩ := List.nodup_cons.mp hnodup
    obtain ⟨hfresh', hnodup'⟩ := List.nodup_cons.mp hnodup'
    have hdetections' : ∀ j ∈ before, detections'[j]? = detections[j]? :=
      fun j hj => hdetections j (List.mem_cons_of_mem _ hj)
    have hobservations' : ∀ j ∈ before, observations₂[j]? = observations₁[j]? :=
      fun j hj => hobservations j (List.mem_cons_of_mem _ hj)
    have hindex := hobservations index List.mem_cons_self
    rw [List.cons_append, associateFromSelected] at h₁ h₂
    rw [hdetections index List.mem_cons_self] at h₂
    split at h₁
    · rename_i sample hsample
      rw [hsample] at h₂
      obtain ⟨t, ht, h₁⟩ := Except.bind_eq_ok.mp h₁
      obtain ⟨o, ho, h₁⟩ := Except.bind_eq_ok.mp h₁
      obtain ⟨t', ht', h₂⟩ := Except.bind_eq_ok.mp h₂
      obtain ⟨o', ho', h₂⟩ := Except.bind_eq_ok.mp h₂
      obtain rfl := Except.ok.inj (ht.symm.trans ht')
      obtain rfl := Except.ok.inj (ho.symm.trans ho')
      have hset : ∀ j : ℕ, observations₂[j]? = observations₁[j]? →
          (observations₂.set index o)[j]? = (observations₁.set index o)[j]? := by
        intro j hj
        by_cases hj' : index = j
        · subst hj'
          rw [List.getElem?_set_self', List.getElem?_set_self', hj]
        · rw [List.getElem?_set_ne hj', List.getElem?_set_ne hj', hj]
      intro j hj
      obtain rfl | hj := List.mem_cons.mp hj
      · rw [associateFromSelected_frame h₁ hfresh, associateFromSelected_frame h₂ hfresh']
        exact hset _ hindex
      · exact ih hnodup hnodup' hdetections' (fun j hj => hset j (hobservations' j hj)) h₁ h₂ j hj
    · have hrest : associateFromSelected hypot captureEvidence metadata detections'
          (before ++ after') referenceBounds observations₂ = .ok result₂ := by
        rename_i hunsampled
        split at h₂
        · rename_i sample hsample
          exact absurd hsample (hunsampled sample)
        · exact h₂
      intro j hj
      obtain rfl | hj := List.mem_cons.mp hj
      · rw [associateFromSelected_frame h₁ hfresh, associateFromSelected_frame hrest hfresh', hindex]
      · exact ih hnodup hnodup' hdetections' hobservations' h₁ hrest j hj

/-! ## From the selected frame outwards -/

/-- The frames of a pass: those between the selected frame and one of them come before that one. -/
structure Outward (selected : ℕ) (indices : List ℕ) : Prop where
  ne : ∀ j ∈ indices, j ≠ selected
  sorted : indices.Pairwise fun i j => i ∈ Set.uIcc selected j ∧ i ≠ j
  complete : ∀ j ∈ indices, ∀ k ∈ Set.uIcc selected j, k ≠ selected → k ∈ indices

/-- The nearest accepted box on the way from a frame to the selected one. -/
def IsReference (observations : List (RawFrameObservation K)) (selected index : ℕ)
    (bounds : Rect K) : Prop :=
  ∃ j ∈ Set.uIcc selected index, j ≠ index ∧ boxAt observations j = some bounds ∧
    ∀ k ∈ Set.uIcc j index, k ≠ j → k ≠ index → boxAt observations k = none

variable {selected : ℕ} {indices before after : List ℕ} {index : ℕ}
  {observations : List (RawFrameObservation K)} {bounds : Rect K}

theorem later_outward (selected n : ℕ) : Outward selected (List.range' (selected + 1) n) where
  ne j hj := by
    rw [List.mem_range'_1] at hj
    omega
  sorted := by
    refine (List.pairwise_lt_range' 1).imp_of_mem fun {i j} hi hj hlt => ?_
    rw [List.mem_range'_1] at hi hj
    rw [Set.mem_uIcc]
    omega
  complete j hj k hk hne := by
    rw [List.mem_range'_1] at hj ⊢
    rw [Set.mem_uIcc] at hk
    omega

theorem earlier_outward (selected : ℕ) : Outward selected (List.range selected).reverse where
  ne j hj := by
    rw [List.mem_reverse, List.mem_range] at hj
    omega
  sorted := by
    rw [List.pairwise_reverse]
    refine List.pairwise_lt_range.imp_of_mem fun {i j} hi hj hlt => ?_
    rw [List.mem_range] at hi hj
    rw [Set.mem_uIcc]
    omega
  complete j hj k hk hne := by
    rw [List.mem_reverse, List.mem_range] at hj ⊢
    rw [Set.mem_uIcc] at hk
    omega

theorem Outward.nodup (h : Outward selected indices) : indices.Nodup := h.sorted.imp fun h => h.2

/-- Before a frame come exactly those between it and the selected frame. -/
theorem Outward.mem_before (h : Outward selected (before ++ index :: after)) {j : ℕ} :
    j ∈ before ↔ j ∈ Set.uIcc selected index ∧ j ≠ selected ∧ j ≠ index := by
  obtain ⟨-, hafter, hbefore⟩ := List.pairwise_append.mp h.sorted
  constructor
  · intro hj
    obtain ⟨hmem, hne⟩ := hbefore j hj index List.mem_cons_self
    exact ⟨hmem, h.ne j (List.mem_append_left _ hj), hne⟩
  · rintro ⟨hmem, hselected, hne⟩
    have hindex : index ∈ before ++ index :: after :=
      List.mem_append_right _ List.mem_cons_self
    obtain hj | hj := List.mem_append.mp (h.complete index hindex j hmem hselected)
    · exact hj
    · obtain rfl | hj := List.mem_cons.mp hj
      · exact absurd rfl hne
      · -- a frame that comes after is not between
        obtain ⟨hmem', -⟩ := (List.pairwise_cons.mp hafter).1 j hj
        rw [Set.mem_uIcc] at hmem hmem'
        omega

omit [Field K] [LinearOrder K] in
/-- The last box of a pass before a frame is its reference. -/
theorem Outward.isReference (h : Outward selected (before ++ index :: after))
    (hbox : boxAt observations selected = some bounds) :
    IsReference observations selected index (lastAccepted observations before bounds) := by
  have hindex := h.ne index (List.mem_append_right _ List.mem_cons_self)
  obtain ⟨hlast, hnone⟩ | ⟨before', j, after', rfl, hj, hnone⟩ :=
    lastAccepted_cases observations before bounds
  · refine ⟨selected, Set.left_mem_uIcc, hindex.symm, by rw [hbox, hlast], fun k hk hne hne' => ?_⟩
    exact hnone k (h.mem_before.mpr ⟨hk, hne, hne'⟩)
  · obtain ⟨hmem, hselected, hne⟩ :=
      h.mem_before.mp (List.mem_append_right before' List.mem_cons_self : j ∈ _)
    refine ⟨j, hmem, hne, hj, fun k hk hkj hkindex => ?_⟩
    have hk' : k ∈ before' ++ j :: after' := by
      refine h.mem_before.mpr ⟨?_, ?_, hkindex⟩
      all_goals
        rw [Set.mem_uIcc] at *
        omega
    rw [List.append_assoc, List.cons_append] at h
    obtain hk' | hk' := List.mem_append.mp hk'
    · obtain ⟨hmem', -, -⟩ := h.mem_before.mp hk'
      rw [Set.mem_uIcc] at hk hmem hmem'
      omega
    · obtain rfl | hk' := List.mem_cons.mp hk'
      · exact absurd rfl hkj
      · exact hnone k hk'

omit [Field K] [LinearOrder K] in
/-- A reference depends on the boxes on the way. -/
theorem IsReference.congr {observations' : List (RawFrameObservation K)}
    (h : IsReference observations selected index bounds)
    (hsame : ∀ j ∈ Set.uIcc selected index, j ≠ index →
      boxAt observations' j = boxAt observations j) :
    IsReference observations' selected index bounds := by
  obtain ⟨j, hmem, hne, hj, hnone⟩ := h
  refine ⟨j, hmem, hne, (hsame j hmem hne).trans hj, fun k hk hkj hkindex => ?_⟩
  rw [hsame k ?_ hkindex]
  · exact hnone k hk hkj hkindex
  · rw [Set.mem_uIcc] at *
    omega

/-! ## A shot -/

variable {selection : Protocol.TargetSelection K} {sample : List (Detection K)} {reference : Point K}

omit [Field K] in
/-- The observations before any frame has been looked at. -/
theorem skipped_ok (hmetadata : metadata.Valid) {n : ℕ} :
    ∃ skipped : List (RawFrameObservation K), (List.range n).mapM
        (fun index : ℕ => skippedObservation metadata index) = .ok skipped ∧ skipped.length = n ∧
      ∀ (j : ℕ) o, skipped[j]? = some o →
        o.detection = none ∧ o.selectionOutcome = .detectionSkipped := by
  have hone : ∀ index : ℕ, ∃ o : RawFrameObservation K,
      skippedObservation metadata index = .ok o ∧
        o.detection = none ∧ o.selectionOutcome = .detectionSkipped := by
    intro index
    obtain ⟨t, ht, hnonneg⟩ := hmetadata.timestamp_ok index
    have hvalid : ¬ ((index : ℤ) < 0 ∨ t < 0) :=
      not_or.mpr ⟨(Int.natCast_nonneg index).not_gt, hnonneg.not_gt⟩
    refine ⟨⟨index, t, none, .detectionSkipped, none⟩, ?_, rfl, rfl⟩
    rw [skippedObservation, ht, Except.ok_bind]
    exact if_neg hvalid
  obtain ⟨skipped, hskipped⟩ := Except.mapM_total (l := List.range n)
    fun (index : ℕ) _ => (hone index).imp fun o ho => ho.1
  have hforall := Except.mapM_eq_ok.mp hskipped
  have hlength : skipped.length = n := by rw [← hforall.length_eq, List.length_range]
  refine ⟨skipped, hskipped, hlength, fun j o ho => ?_⟩
  obtain ⟨index, -, hindex⟩ := hforall.exists_left (List.mem_of_getElem? ho)
  obtain ⟨o', ho', hprop⟩ := hone index
  obtain rfl := Except.ok.inj (hindex.symm.trans ho')
  exact hprop

/-- **The observations of a shot** are made in two passes from the selected frame outwards. -/
theorem observeFrames_ok (hhypot : ∀ a b, 0 ≤ hypot a b) (hmetadata : metadata.Valid)
    (captureEvidence : Bool) (hcount : metadata.expectedFrameCount = detections.length)
    (htap : sourceTap selection.normalizedX selection.normalizedY metadata.displayDimensions.1
      metadata.displayDimensions.2 = .ok reference)
    (hsample : detections[selected]? = some (some sample)) (hne : sample ≠ []) :
    ∃ (skipped : List (RawFrameObservation K)) (first : RawFrameObservation K) (d : Detection K)
      (later observations : List (RawFrameObservation K)),
      observeFrames hypot captureEvidence metadata selection selected detections =
        .ok observations ∧ skipped.length = detections.length ∧
      (∀ (j : ℕ) o, skipped[j]? = some o →
        o.detection = none ∧ o.selectionOutcome = .detectionSkipped) ∧
      Chosen sample reference d ∧ first.detection = some d ∧
      first.selectionOutcome ≠ .detectionSkipped ∧
      Followed hypot detections
        (List.range' (selected + 1) (detections.length - (selected + 1))) d.bounds
        (skipped.set selected first) later ∧
      Followed hypot detections (List.range selected).reverse d.bounds later observations := by
  obtain ⟨skipped, hskipped, hlength, hnone⟩ :=
    skipped_ok (K := K) hmetadata (n := metadata.expectedFrameCount.toNat)
  have hlength : skipped.length = detections.length := by omega
  have hselected : selected < detections.length := (List.getElem?_eq_some_iff.mp hsample).1
  obtain ⟨t, ht, htnonneg⟩ := hmetadata.timestamp_ok selected
  obtain ⟨first, hfirst, hsampled, hobserves⟩ := TargetFrameAnalyzer.selectSelected_ok hhypot
    (Int.natCast_nonneg selected) htnonneg htap hne captureEvidence
  have hdetection := hobserves.detection
  obtain ⟨⟨d, i⟩, hselect⟩ :=
    Option.ne_none_iff_exists'.mp (select_eq_none.not.mpr hne : select sample reference ≠ none)
  have hdetection : first.detection = some d := by rw [hdetection, hselect, Option.map_some]
  -- only the selected frame has a box at first
  have hbox : ∀ j, j ≠ selected → boxAt (skipped.set selected first) j = none := by
    intro j hj
    rw [boxAt, List.getElem?_set_ne hj.symm]
    cases ho : skipped[j]? with
    | none => rfl
    | some o =>
      have := (hnone j o ho).1
      exact congrArg (Option.map _) this
  have hbox₁ : ∀ j ∈ List.range' (selected + 1) (detections.length - (selected + 1)),
      boxAt (skipped.set selected first) j = none :=
    fun j hj => hbox j ((later_outward _ _).ne j hj)
  obtain ⟨later, hlater, hfollowed₁⟩ := associateFromSelected_followed detections hhypot hmetadata
    captureEvidence d.bounds (later_outward selected _).nodup
    (fun j hj => by
      rw [List.mem_range'_1] at hj
      rw [List.length_set]
      omega) hbox₁
  have hbox₂ : ∀ j ∈ (List.range selected).reverse, boxAt later j = none := by
    intro j hj
    have hj' : j ∉ List.range' (selected + 1) (detections.length - (selected + 1)) := by
      rw [List.mem_reverse, List.mem_range] at hj
      rw [List.mem_range'_1]
      omega
    rw [boxAt, hfollowed₁.unchanged j fun h => absurd h hj']
    exact hbox j ((earlier_outward selected).ne j hj)
  obtain ⟨observations, hobservations, hfollowed₂⟩ := associateFromSelected_followed detections
    hhypot hmetadata captureEvidence d.bounds (earlier_outward selected).nodup
    (fun j hj => by
      rw [List.mem_reverse, List.mem_range] at hj
      rw [hfollowed₁.length_eq, List.length_set]
      omega) hbox₂
  refine ⟨skipped, first, d, later, observations, ?_, hlength, hnone, (select_nearest hselect).2,
    hdetection, hsampled, hfollowed₁, hfollowed₂⟩
  unfold observeFrames
  rw [hskipped, Except.ok_bind, Int.toNat_natCast, hsample]
  change (metadata.timestampForFrame selected >>= _) = _
  rw [ht, Except.ok_bind, hfirst, Except.ok_bind]
  change (match first.detectorBounds with | none => _ | some bounds => _) = _
  rw [RawFrameObservation.detectorBounds, hdetection]
  change (associateFromSelected _ _ _ _ _ _ _ >>= _) = _
  rw [hlater]
  exact hobservations

/-- A pass outwards gives a frame the same observation if the detections on the way are the same. -/
theorem Outward.agree {detections' : List (Option (List (Detection K)))}
    {observations₁ observations₂ result₁ result₂ : List (RawFrameObservation K)}
    (houtward : Outward selected indices)
    (hsame : ∀ j ∈ Set.uIcc selected index, detections'[j]? = detections[j]?)
    (hobservations : ∀ j, j = index ∨ j ∈ indices → observations₂[j]? = observations₁[j]?)
    (h₁ : associateFromSelected hypot captureEvidence metadata detections indices bounds
      observations₁ = .ok result₁)
    (h₂ : associateFromSelected hypot captureEvidence metadata detections' indices bounds
      observations₂ = .ok result₂) : result₂[index]? = result₁[index]? := by
  by_cases hindex : index ∈ indices
  · obtain ⟨before, after, rfl⟩ := List.append_of_mem hindex
    have hway : ∀ j ∈ before ++ [index], detections'[j]? = detections[j]? := by
      intro j hj
      obtain hj | hj := List.mem_append.mp hj
      · exact hsame j (houtward.mem_before.mp hj).1
      · obtain rfl := List.mem_singleton.mp hj
        exact hsame j Set.right_mem_uIcc
    have hnodup := houtward.nodup
    rw [List.append_cons] at h₁ h₂ hobservations hnodup
    exact associateFromSelected_agree hnodup hnodup hway
      (fun j hj => hobservations j (.inr (List.mem_append_left _ hj))) h₁ h₂ index
      (List.mem_append_right _ (List.mem_singleton_self index))
  · rw [associateFromSelected_frame h₁ hindex, associateFromSelected_frame h₂ hindex]
    exact hobservations index (.inl rfl)

/-- **The observation of a frame** depends on the detections from the selected frame up to it. -/
theorem observeFrames_local {detections' : List (Option (List (Detection K)))}
    {observations' : List (RawFrameObservation K)}
    (hlength : detections'.length = detections.length)
    (hsame : ∀ j ∈ Set.uIcc selected index, detections'[j]? = detections[j]?)
    (h : observeFrames hypot captureEvidence metadata selection selected detections =
      .ok observations)
    (h' : observeFrames hypot captureEvidence metadata selection selected detections' =
      .ok observations') :
    observations'[index]? = observations[index]? := by
  obtain ⟨skipped, hskipped, h⟩ := Except.bind_eq_ok.mp h
  obtain ⟨skipped', hskipped', h'⟩ := Except.bind_eq_ok.mp h'
  obtain rfl := Except.ok.inj (hskipped.symm.trans hskipped')
  rw [Int.toNat_natCast] at h h'
  rw [hsame selected Set.left_mem_uIcc, hlength] at h'
  split at h
  · cases h
  · cases h
  · rename_i sample hsample
    rw [hsample] at h'
    obtain ⟨t, ht, h⟩ := Except.bind_eq_ok.mp h
    obtain ⟨first, hfirst, h⟩ := Except.bind_eq_ok.mp h
    obtain ⟨t', ht', h'⟩ := Except.bind_eq_ok.mp h'
    obtain ⟨first', hfirst', h'⟩ := Except.bind_eq_ok.mp h'
    obtain rfl := Except.ok.inj (ht.symm.trans ht')
    obtain rfl := Except.ok.inj (hfirst.symm.trans hfirst')
    dsimp only at h h'
    split at h
    · cases h
    · rename_i bounds hbounds
      rw [hbounds] at h'
      obtain ⟨later, hlater, h⟩ := Except.bind_eq_ok.mp h
      obtain ⟨later', hlater', h'⟩ := Except.bind_eq_ok.mp h'
      -- the earlier frames are as they were before the first pass
      have hearlier : ∀ j ∈ (List.range selected).reverse, later'[j]? = later[j]? := by
        intro j hj
        have hj' : j ∉ List.range' (selected + 1) (detections.length - (selected + 1)) := by
          rw [List.mem_reverse, List.mem_range] at hj
          rw [List.mem_range'_1]
          omega
        rw [associateFromSelected_frame hlater hj', associateFromSelected_frame hlater' hj']
      refine (earlier_outward selected).agree hsame (fun j hj => ?_) h h'
      obtain rfl | hj := hj
      · exact (later_outward selected _).agree hsame (fun _ _ => rfl) hlater hlater'
      · exact hearlier j hj

/-- **The frames of a shot**: the selected one has the detection at the tap, the sampled ones are
associated by their references, and the others are skipped. -/
theorem observeFrames_followed (hhypot : ∀ a b, 0 ≤ hypot a b) (hmetadata : metadata.Valid)
    (captureEvidence : Bool) (hcount : metadata.expectedFrameCount = detections.length)
    (htap : sourceTap selection.normalizedX selection.normalizedY metadata.displayDimensions.1
      metadata.displayDimensions.2 = .ok reference)
    (hsample : detections[selected]? = some (some sample)) (hne : sample ≠ []) :
    ∃ observations, observeFrames hypot captureEvidence metadata selection selected detections =
        .ok observations ∧ observations.length = detections.length ∧
      (∃ o d, observations[selected]? = some o ∧ o.selectionOutcome ≠ .detectionSkipped ∧
        o.detection = some d ∧ Chosen sample reference d) ∧
      (∀ (index : ℕ) o, detections[index]? = some none → observations[index]? = some o →
        o.selectionOutcome = .detectionSkipped ∧ o.detection = none) ∧
      ∀ (index : ℕ) sample', index ≠ selected → detections[index]? = some (some sample') →
        ∃ o bounds, observations[index]? = some o ∧
          IsReference observations selected index bounds ∧ Associated hypot sample' bounds o := by
  obtain ⟨skipped, first, d, later, observations, h, hlength, hskipped, hchosen, hdetection,
    hsampled, hlater, hearlier⟩ :=
    observeFrames_ok hhypot hmetadata captureEvidence hcount htap hsample hne
  have hselected : selected < detections.length := (List.getElem?_eq_some_iff.mp hsample).1
  have hfirst : ∀ j : ℕ, selected ≤ j → observations[j]? = later[j]? := fun j hj =>
    hearlier.unchanged j fun h => by
      rw [List.mem_reverse, List.mem_range] at h
      omega
  have hthen : ∀ j : ℕ, j ≤ selected → later[j]? = (skipped.set selected first)[j]? := fun j hj =>
    hlater.unchanged j fun h => by
      rw [List.mem_range'_1] at h
      omega
  have hat : observations[selected]? = some first := by
    rw [hfirst selected le_rfl, hthen selected le_rfl, List.getElem?_set_self (by omega)]
  have hbox : boxAt observations selected = some d.bounds := by
    rw [boxAt, hat, Option.bind_some, RawFrameObservation.detectorBounds, hdetection, Option.map_some]
  refine ⟨observations, h, ?_, ⟨first, d, hat, hsampled, hdetection, hchosen⟩,
    fun index o hindex ho => ?_, fun index sample' hindex hsample' => ?_⟩
  · rw [hearlier.length_eq, hlater.length_eq, List.length_set, hlength]
  · have hunsampled : ∀ sample', detections[index]? ≠ some (some sample') := by
      intro sample' hsample'
      cases hindex.symm.trans hsample'
    have hne : selected ≠ index := by
      rintro rfl
      exact hunsampled sample hsample
    rw [hearlier.unchanged index fun _ => hunsampled, hlater.unchanged index fun _ => hunsampled,
      List.getElem?_set_ne hne] at ho
    exact (hskipped index o ho).symm
  · have hlt : index < detections.length := (List.getElem?_eq_some_iff.mp hsample').1
    obtain hbelow | habove := lt_or_gt_of_ne hindex
    · have hmem : index ∈ (List.range selected).reverse :=
        List.mem_reverse.mpr (List.mem_range.mpr hbelow)
      obtain ⟨before, after, hsplit⟩ := List.append_of_mem hmem
      obtain ⟨o, ho, hassociated⟩ := hearlier.associated before index after sample' hsplit hsample'
      exact ⟨o, _, ho, (hsplit ▸ earlier_outward selected).isReference hbox, hassociated⟩
    · have hmem : index ∈ List.range' (selected + 1) (detections.length - (selected + 1)) := by
        rw [List.mem_range'_1]
        omega
      obtain ⟨before, after, hsplit⟩ := List.append_of_mem hmem
      obtain ⟨o, ho, hassociated⟩ := hlater.associated before index after sample' hsplit hsample'
      have hbox' : boxAt later selected = some d.bounds := by
        rw [← hbox, boxAt, boxAt, hfirst selected le_rfl]
      refine ⟨o, _, (hfirst index habove.le).trans ho, ?_, hassociated⟩
      refine ((hsplit ▸ later_outward selected _ : Outward selected _).isReference hbox').congr
        fun j hj _ => ?_
      rw [boxAt, boxAt, hfirst j]
      rw [Set.mem_uIcc] at hj
      omega

end Follow

/-! ## In exact arithmetic -/

section Exact

/-- `math.hypot`, exactly. -/
noncomputable def hypotenuse (a b : ℝ) : ℝ := √(a ^ 2 + b ^ 2)

theorem hypotenuse_nonneg (a b : ℝ) : 0 ≤ hypotenuse a b := Real.sqrt_nonneg _

/-- A box lies within 1.5 diagonals of a reference box, by their centers. -/
def WithinReach (referenceBounds candidate : Rect ℝ) : Prop :=
  √((candidate.center.x - referenceBounds.center.x) ^ 2 +
      (candidate.center.y - referenceBounds.center.y) ^ 2) ≤
    1.5 * √(referenceBounds.width ^ 2 + referenceBounds.height ^ 2)

theorem withinReach_iff {referenceBounds candidate : Rect ℝ} :
    WithinReach referenceBounds candidate ↔
      (candidate.center.x - referenceBounds.center.x) ^ 2 +
        (candidate.center.y - referenceBounds.center.y) ^ 2 ≤
          9 / 4 * (referenceBounds.width ^ 2 + referenceBounds.height ^ 2) := by
  have hscale : (1.5 : ℝ) = √(9 / 4) := by
    rw [show (9 / 4 : ℝ) = (3 / 2) ^ 2 by norm_num, Real.sqrt_sq (by norm_num)]
    norm_num
  rw [WithinReach, hscale, ← Real.sqrt_mul (by norm_num), Real.sqrt_le_sqrt_iff (by positivity)]

theorem withinAssociationGate_iff {referenceBounds candidate : Rect ℝ} :
    withinAssociationGate hypotenuse candidate referenceBounds = true ↔
      WithinReach referenceBounds candidate := decide_eq_true_iff

theorem mem_gated {sample : List (Detection ℝ)} {referenceBounds : Rect ℝ} {d : Detection ℝ} :
    d ∈ gated hypotenuse sample referenceBounds ↔
      d ∈ sample ∧ WithinReach referenceBounds d.bounds := by
  rw [gated, List.mem_filter, withinAssociationGate_iff]

variable {metadata : MediaMetadata} {selection : Protocol.TargetSelection ℝ}
  {detections : List (Option (List (Detection ℝ)))} {selected : ℕ} {sample : List (Detection ℝ)}

/-- **An athlete is followed** from the selected frame: every other sampled frame has the detection
that the nearest accepted box on the way chooses among those within its reach, or none if there is
none, and no frame depends on the detections of others than those on the way. -/
theorem associated_shot (hmetadata : metadata.Valid) (captureEvidence : Bool)
    (htap : (0 ≤ selection.normalizedX ∧ selection.normalizedX ≤ 1) ∧
      0 ≤ selection.normalizedY ∧ selection.normalizedY ≤ 1)
    (hcount : metadata.expectedFrameCount = detections.length)
    (hsample : detections[selected]? = some (some sample)) (hne : sample ≠ []) :
    ∃ observations, observeFrames hypotenuse captureEvidence metadata selection selected
        detections = .ok observations ∧ observations.length = detections.length ∧
      (∃ o d, observations[selected]? = some o ∧ o.detection = some d ∧
        Chosen sample ⟨selection.normalizedX * metadata.displayDimensions.1,
          selection.normalizedY * metadata.displayDimensions.2⟩ d) ∧
      (∀ (index : ℕ) o, detections[index]? = some none → observations[index]? = some o →
        o.selectionOutcome = .detectionSkipped ∧ o.detection = none) ∧
      (∀ (index : ℕ) sample', index ≠ selected → detections[index]? = some (some sample') →
        ∃ o bounds, observations[index]? = some o ∧ o.selectionOutcome ≠ .detectionSkipped ∧
          IsReference observations selected index bounds ∧
          (o.detection = none ↔ ∀ d ∈ sample', ¬ WithinReach bounds d.bounds) ∧
          ∀ d ∈ o.detection, d ∈ sample' ∧ WithinReach bounds d.bounds ∧
            Chosen (gated hypotenuse sample' bounds) bounds.center d) ∧
      ∀ (index : ℕ) (detections' : List (Option (List (Detection ℝ)))) observations',
        detections'.length = detections.length →
        (∀ j ∈ Set.uIcc selected index, detections'[j]? = detections[j]?) →
        observeFrames hypotenuse captureEvidence metadata selection selected detections' =
          .ok observations' → observations'[index]? = observations[index]? := by
  have hdimensions := hmetadata.display_pos
  have htap' : sourceTap selection.normalizedX selection.normalizedY metadata.displayDimensions.1
      metadata.displayDimensions.2 = .ok ⟨selection.normalizedX * metadata.displayDimensions.1,
        selection.normalizedY * metadata.displayDimensions.2⟩ := by
    unfold sourceTap
    rw [if_neg (by omega), if_neg (not_or.mpr ⟨not_not.mpr htap.1, not_not.mpr htap.2⟩)]
  obtain ⟨observations, h, hlength, ⟨o, d, ho, -, hd, hchosen⟩, hskipped, hassociated⟩ :=
    observeFrames_followed hypotenuse_nonneg hmetadata captureEvidence hcount htap' hsample hne
  refine ⟨observations, h, hlength, ⟨o, d, ho, hd, hchosen⟩, hskipped,
    fun index sample' hindex hsample' => ?_, fun index detections' observations' hlength' hsame h' =>
      observeFrames_local hlength' hsame h h'⟩
  obtain ⟨o, bounds, ho, hreference, hsampled, hdetection⟩ :=
    hassociated index sample' hindex hsample'
  refine ⟨o, bounds, ho, hsampled, hreference, ?_, fun d hd => ?_⟩
  · rw [hdetection, Option.map_eq_none_iff, select_eq_none, List.eq_nil_iff_forall_not_mem]
    exact forall_congr' fun d => by rw [mem_gated, not_and]
  · rw [hdetection] at hd
    obtain ⟨⟨d', i⟩, hselect, rfl⟩ := Option.mem_map.mp hd
    have hchosen := (select_nearest hselect).2
    obtain ⟨hmem, hreach⟩ := mem_gated.mp hchosen.mem
    exact ⟨hmem, hreach, hchosen⟩

/-- A source of three frames. -/
def threeFrames : MediaMetadata where
  width := 1920
  height := 1080
  durationMs := 300
  frameRate := 10
  videoCodec := "h264"
  audioCodec := none
  rotation := 0
  hasAudio := false
  videoDuration := none
  audioStreamIndex := none

/-- A person who is found with confidence one, in a box of whole pixels. -/
noncomputable def personAt (x y width height : ℕ) : Detection ℝ := ⟨⟨x, y, width, height⟩, 1⟩

/-- A climber who is selected on the second frame. -/
noncomputable def climber : Detection ℝ := personAt 900 400 100 200

/-- The climber on the frame before. -/
noncomputable def climberBefore : Detection ℝ := personAt 870 400 100 200

/-- Another person, far away. -/
noncomputable def bystander : Detection ℝ := personAt 100 100 50 50

theorem withinReach_climberBefore : WithinReach climber.bounds climberBefore.bounds := by
  rw [withinReach_iff]
  norm_num [climber, climberBefore, personAt, Rect.center]

theorem not_withinReach_bystander : ¬ WithinReach climber.bounds bystander.bounds := by
  rw [withinReach_iff]
  norm_num [climber, bystander, personAt, Rect.center]

/-- The athlete is followed to the frame before, where another person is far away, and is not found
on the frame after. -/
theorem associated_shot_threeFrames : ∃ observations, observeFrames hypotenuse true threeFrames
      ⟨100, 1 / 2, 1 / 2⟩ (1 : ℕ) [some [bystander, climberBefore], some [climber], some []] =
        .ok observations ∧
      (∃ o, observations[0]? = some o ∧ o.detection = some climberBefore) ∧
      (∃ o, observations[1]? = some o ∧ o.detection = some climber) ∧
      ∃ o, observations[2]? = some o ∧ o.detection = none := by
  obtain ⟨observations, h, -, ⟨o, d, ho, hd, hchosen⟩, -, hfollowed, -⟩ :=
    @associated_shot threeFrames ⟨100, 1 / 2, 1 / 2⟩
      [some [bystander, climberBefore], some [climber], some []] 1 [climber]
      ⟨by decide, by decide, by decide +kernel⟩ true (by norm_num) (by decide +kernel) rfl
      (List.cons_ne_nil _ _)
  obtain rfl := List.mem_singleton.mp hchosen.mem
  obtain ⟨o₀, bounds, ho₀, -, ⟨j, hj, hne, hbox, -⟩, hnone, hsome⟩ :=
    hfollowed 0 [bystander, climberBefore] (by decide) rfl
  obtain ⟨o₂, _, ho₂, -, -, hmissed, -⟩ := hfollowed 2 [] (by decide) rfl
  refine ⟨observations, h, ⟨o₀, ho₀, ?_⟩, ⟨o, ho, hd⟩, o₂, ho₂, hmissed.mpr nofun⟩
  -- the reference of the first frame is the selected box
  obtain rfl : j = 1 := by
    rw [Set.mem_uIcc] at hj
    omega
  obtain rfl : bounds = climber.bounds := by
    simpa [boxAt, ho, RawFrameObservation.detectorBounds, hd] using hbox.symm
  cases hdetection : o₀.detection with
  | none =>
    exact absurd withinReach_climberBefore (hnone.mp hdetection _ (by simp))
  | some d =>
    obtain ⟨hmem, hreach, -⟩ := hsome d hdetection
    obtain rfl | rfl : d = bystander ∨ d = climberBefore := by simpa using hmem
    · exact absurd hreach not_withinReach_bystander
    · rfl

end Exact

end BoulderFrame
