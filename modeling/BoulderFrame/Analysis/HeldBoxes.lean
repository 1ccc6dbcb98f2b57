import BoulderFrame.Analysis.ShotAnalysis
import BoulderFrame.Framing.SeedMotion

/-!
# Held boxes

Between two samples the planner is guided by the box of the earlier one. A held box guides the
causal seed only: the look-ahead planner constrains the crops of the frames that were sampled and
have a box. What happens on later frames is not seen on earlier ones.

## Main definitions

* `HeldAt`: the detection that is held on a frame
* `LookaheadCropPlanner.fullInterval`: the origins of a crop anywhere in the source

## Main results

* `measurementsFrom_held`: the measurement of a frame has the held detection
* `plannerMeasurements_take`, `DeterministicCropPlanner.plan_take`: nothing is seen of later frames
* `measurements_fresh`: what the look-ahead planner makes of the measurements
-/

namespace BoulderFrame

/-- The detector has run on the frame. -/
def RawFrameObservation.Sampled {K : Type} (observation : RawFrameObservation K) : Prop :=
  observation.selectionOutcome ≠ .detectionSkipped

section Held

variable {K : Type}

/-- The detection that is held on a frame: that of the last sampled observation at or before it, or
the given one if there is none. -/
def HeldAt (before : Option (Detection K)) (observations : List (RawFrameObservation K)) (i : ℕ)
    (held : Option (Detection K)) : Prop :=
  (∃ j ≤ i, ∃ o, observations[j]? = some o ∧ o.Sampled ∧ held = o.detection ∧
      ∀ k o', j < k → k ≤ i → observations[k]? = some o' → ¬ o'.Sampled) ∨
    held = before ∧ ∀ k o', k ≤ i → observations[k]? = some o' → ¬ o'.Sampled

variable {before held : Option (Detection K)} {o : RawFrameObservation K}
  {observations : List (RawFrameObservation K)} {i : ℕ}

/-- A frame without a sample leaves the detection held. -/
theorem HeldAt.cons_skipped (h : HeldAt before observations i held) (ho : ¬ o.Sampled) :
    HeldAt before (o :: observations) (i + 1) held := by
  obtain ⟨j, hj, o', ho', hsampled, hheld, hlater⟩ | ⟨hheld, hnone⟩ := h
  · refine .inl ⟨j + 1, by omega, o', ho', hsampled, hheld, fun k p hk hki hp => ?_⟩
    obtain _ | k := k
    · omega
    · exact hlater k p (by omega) (by omega) hp
  · refine .inr ⟨hheld, fun k p hki hp => ?_⟩
    obtain _ | k := k
    · obtain rfl := Option.some.inj hp
      exact ho
    · exact hnone k p (by omega) hp

/-- A sampled frame replaces it. -/
theorem HeldAt.cons_sampled (h : HeldAt o.detection observations i held) (ho : o.Sampled) :
    HeldAt before (o :: observations) (i + 1) held := by
  obtain ⟨j, hj, o', ho', hsampled, hheld, hlater⟩ | ⟨hheld, hnone⟩ := h
  · refine .inl ⟨j + 1, by omega, o', ho', hsampled, hheld, fun k p hk hki hp => ?_⟩
    obtain _ | k := k
    · omega
    · exact hlater k p (by omega) (by omega) hp
  · refine .inl ⟨0, by omega, o, rfl, ho, hheld, fun k p hk hki hp => ?_⟩
    obtain _ | k := k
    · omega
    · exact hnone k p (by omega) hp

/-- On a sampled frame its own detection is held. -/
theorem HeldAt.eq_of_sampled (h : HeldAt before observations i held)
    (ho : observations[i]? = some o) (hsampled : o.Sampled) : held = o.detection := by
  obtain ⟨j, hj, o', ho', -, hheld, hlater⟩ | ⟨-, hnone⟩ := h
  · obtain rfl | hlt := hj.eq_or_lt
    · obtain rfl := Option.some.inj (ho.symm.trans ho')
      exact hheld
    · exact absurd hsampled (hlater i o hlt le_rfl ho)
  · exact absurd hsampled (hnone i o le_rfl ho)

variable [Field K]

variable (before) in
/-- **The measurement** of a frame has the held detection. -/
theorem measurementsFrom_held (ho : observations[i]? = some o) :
    ∃ m held, (measurementsFrom before observations)[i]? = some m ∧
      HeldAt before observations i held ∧ m.detectorBounds = held.map (·.bounds) ∧
      m.confidence = (held.map (·.confidence)).getD 0 ∧ m.timestampMs = o.timestampMs ∧
      (m.detectionSampled = true ↔ o.Sampled) := by
  induction observations generalizing before i with
  | nil => cases ho
  | cons first observations ih =>
    rw [measurementsFrom]
    by_cases hskipped : first.selectionOutcome = .detectionSkipped
    · have hfirst : ¬ first.Sampled := not_not.mpr hskipped
      rw [if_pos hskipped]
      cases i with
      | zero =>
        obtain rfl := Option.some.inj ho
        refine ⟨_, before, rfl, .inr ⟨rfl, fun k p hk hp => ?_⟩, rfl, rfl, rfl, decide_eq_true_iff⟩
        obtain rfl : k = 0 := by omega
        obtain rfl := Option.some.inj hp
        exact hfirst
      | succ i =>
        obtain ⟨m, held, hm, hheld, hrest⟩ := @ih before i ho
        exact ⟨m, held, hm, hheld.cons_skipped hfirst, hrest⟩
    · rw [if_neg hskipped]
      cases i with
      | zero =>
        obtain rfl := Option.some.inj ho
        exact ⟨_, first.detection, rfl, .inl ⟨0, le_rfl, first, rfl, hskipped, rfl,
          fun k p hk hk' => by omega⟩, rfl, rfl, rfl, decide_eq_true_iff⟩
      | succ i =>
        obtain ⟨m, held, hm, hheld, hrest⟩ := @ih first.detection i ho
        exact ⟨m, held, hm, hheld.cons_sampled hskipped, hrest⟩

theorem measurementsFrom_take (n : ℕ) : (measurementsFrom before observations).take n =
    measurementsFrom before (observations.take n) := by
  induction observations generalizing before n with
  | nil =>
    rw [List.take_nil, measurementsFrom, List.take_nil]
  | cons o observations ih =>
    cases n with
    | zero => rfl
    | succ n =>
      rw [List.take_succ_cons, measurementsFrom, measurementsFrom, List.take_succ_cons, ih]

/-- **The measurements** of the first frames are those of their own observations. -/
theorem plannerMeasurements_take (observations : List (RawFrameObservation K)) (n : ℕ) :
    (plannerMeasurements observations).take n = plannerMeasurements (observations.take n) :=
  measurementsFrom_take n

end Held

/-! ## The causal seed -/

namespace DeterministicCropPlanner

variable {K : Type} [Field K] [LinearOrder K] [Elementary K] {P : DeterministicCropPlanner}
  {ms : List (FrameMeasurement K)}

theorem planFrom_take {st : SeedState K} {frames : List (CropRect K × PlannerFrameTrace K)}
    (h : P.planFrom st ms = .ok frames) (n : ℕ) :
    P.planFrom st (ms.take n) = .ok (frames.take n) := by
  induction ms generalizing st frames n with
  | nil =>
    obtain rfl := Except.ok.inj h
    rw [List.take_nil, List.take_nil]
    rfl
  | cons m ms ih =>
    obtain ⟨⟨frame, next⟩, hframe, h⟩ := Except.bind_eq_ok.mp h
    obtain ⟨frames', hframes, h⟩ := Except.bind_eq_ok.mp h
    obtain rfl := Except.ok.inj h
    cases n with
    | zero => rfl
    | succ n =>
      rw [List.take_succ_cons, planFrom, hframe, Except.ok_bind]
      change (P.planFrom next (ms.take n) >>= _) = _
      rw [ih hframes n]
      rfl

/-- **The seed** of the first frames is that of their own measurements. -/
theorem plan_take {seed : CropPlan K (PlannerFrameTrace K)} (h : P.plan ms = .ok seed) (n : ℕ) :
    ∃ first, P.plan (ms.take n) = .ok first ∧ first.crops = seed.crops.take n ∧
      first.trace = seed.trace.take n := by
  obtain ⟨frames, hframes, h⟩ := Except.bind_eq_ok.mp h
  obtain rfl := Except.ok.inj h
  refine ⟨.ofFrames (frames.take n), ?_, List.map_take, List.map_take⟩
  rw [DeterministicCropPlanner.plan, planFrom_take hframes n]
  rfl

end DeterministicCropPlanner

/-! ## The legal intervals -/

namespace LookaheadCropPlanner

variable {K : Type} [Field K] [LinearOrder K] (P : LookaheadCropPlanner)

/-- The interval of a crop that may lie anywhere in the source. -/
def fullInterval (horizontal : Bool) (crop : CropRect K) : AxisInterval K where
  originLower := 0
  originUpper := P.source horizontal - crop.extent horizontal
  centerLower := (0 + crop.extent horizontal / 2) / P.source horizontal
  centerUpper := (P.source horizontal - crop.extent horizontal + crop.extent horizontal / 2) /
    P.source horizontal

variable {P} [Elementary K] {crop : CropRect K} {m : FrameMeasurement K}

/-- A frame that does not constrain its crop keeps the whole source. -/
theorem axisInterval_full {horizontal possible : Bool} {item : AxisInterval K}
    (h : P.axisInterval horizontal crop m possible = .ok item)
    (hfree : possible = false ∨ m.detectorBounds = none) :
    item = P.fullInterval horizontal crop := by
  have hround : ¬ ((P.source horizontal : K) - crop.extent horizontal + crop.extent horizontal >
      P.source horizontal) := by
    rw [sub_add_cancel]
    exact lt_irrefl _
  unfold axisInterval at h
  obtain ⟨-, h⟩ := Except.ok_of_guard h
  obtain rfl := Except.ok.inj h
  rw [if_neg hround]
  obtain rfl | hnone := hfree
  · cases m.detectorBounds <;> rfl
  · rw [hnone]
    cases possible <;> rfl

omit [Field K] [Elementary K] in
theorem feasible_eq_false (hfree : m.detectionSampled = false ∨ m.detectorBounds = none) :
    feasible m crop = false := by
  rw [feasible]
  obtain h | h := hfree
  · rw [h, Bool.false_and]
  · rw [h, Option.any_none, Bool.and_false]

/-- A plan has two axis problems, and its crops have the origins that solve them. -/
theorem plan_axisProblem {linprog : Linprog K} {ms : List (FrameMeasurement K)} (hne : ms ≠ [])
    {plan : CropPlan K (LookaheadPlannerFrameTrace K)} (h : P.plan linprog ms = .ok plan) :
    ∃ seed, P.seedPlanner.plan ms = .ok seed ∧ seed.crops.length = ms.length ∧
      ∀ horizontal, ∃ A, P.axisProblem seed.crops ms (possible ms seed.crops) (intervals ms)
          horizontal = .ok A ∧
        ∃ origins, A.solve linprog = .ok origins := by
  obtain ⟨seed, originsX, originsY, hseed, -, -, -, hX, hY, -⟩ := (plan_eq_ok hne).mp h
  refine ⟨seed, hseed, (DeterministicCropPlanner.plan_timestamps hseed).1, fun horizontal => ?_⟩
  cases horizontal
  · obtain ⟨A, hA, horigins⟩ := Except.bind_eq_ok.mp hY
    exact ⟨A, hA, originsY, horigins⟩
  · obtain ⟨A, hA, horigins⟩ := Except.bind_eq_ok.mp hX
    exact ⟨A, hA, originsX, horigins⟩

/-- **A frame without a sampled box** keeps the whole source on both axes. -/
theorem plan_full {linprog : Linprog K} {ms : List (FrameMeasurement K)}
    {plan : CropPlan K (LookaheadPlannerFrameTrace K)} (h : P.plan linprog ms = .ok plan) {i : ℕ}
    (hm : ms[i]? = some m) (hfree : m.detectionSampled = false ∨ m.detectorBounds = none) :
    ∃ seed crop, P.seedPlanner.plan ms = .ok seed ∧ seed.crops[i]? = some crop ∧
      ∀ horizontal, ∃ A, P.axisProblem seed.crops ms (possible ms seed.crops) (intervals ms)
          horizontal = .ok A ∧ (∃ origins, A.solve linprog = .ok origins) ∧
        A.legal[i]? = some (P.fullInterval horizontal crop) := by
  have hne : ms ≠ [] := List.ne_nil_of_mem (List.mem_of_getElem? hm)
  obtain ⟨seed, hseed, hlength, haxes⟩ := plan_axisProblem hne h
  have hi : i < seed.crops.length := hlength.symm ▸ (List.getElem?_eq_some_iff.mp hm).1
  have hcrop := List.getElem?_eq_getElem hi
  refine ⟨seed, _, hseed, hcrop, fun horizontal => ?_⟩
  obtain ⟨A, hA, horigins⟩ := haxes horizontal
  refine ⟨A, hA, horigins, ?_⟩
  obtain ⟨legal, hlegal, rfl⟩ := axisProblem_eq_ok.mp hA
  obtain ⟨hlen, hentry⟩ := axisIntervals_eq_ok hlength hlegal
  have hitem := List.getElem?_eq_getElem (hlen.symm ▸ hi)
  have hinterval := hentry i _ m _ hcrop hm hitem
  rw [feasible_eq_false hfree] at hinterval
  exact hitem.trans (congrArg some (axisInterval_full hinterval (.inl rfl)))

end LookaheadCropPlanner

section Fresh

variable {K : Type} [Field K] [LinearOrder K] [Elementary K]

/-- **Measurements are fresh.** The measurement of a frame has the box and the confidence of the last
sampled observation at or before it, and is sampled if the frame is; the first frames have the
measurements and the causal targets of their own observations; and a frame without a box of its own
does not constrain a plan. -/
theorem measurements_fresh (observations : List (RawFrameObservation K)) :
    (∀ (i : ℕ) o, observations[i]? = some o → ∃ m held,
      (plannerMeasurements observations)[i]? = some m ∧ HeldAt none observations i held ∧
        m.detectorBounds = held.map (·.bounds) ∧
        m.confidence = (held.map (·.confidence)).getD 0 ∧ m.timestampMs = o.timestampMs ∧
        (m.detectionSampled = true ↔ o.Sampled)) ∧
      ∀ (P : LookaheadCropPlanner) linprog plan,
        P.plan linprog (plannerMeasurements observations) = .ok plan →
        (∀ n seed, P.seedPlanner.plan (plannerMeasurements observations) = .ok seed →
          ∃ first, P.seedPlanner.plan (plannerMeasurements (observations.take n)) = .ok first ∧
            first.crops = seed.crops.take n ∧ first.trace = seed.trace.take n) ∧
        ∀ (i : ℕ) o, observations[i]? = some o → ¬ o.Sampled ∨ o.detection = none →
          ∃ seed crop, P.seedPlanner.plan (plannerMeasurements observations) = .ok seed ∧
            seed.crops[i]? = some crop ∧ ∀ horizontal, ∃ A,
              P.axisProblem seed.crops (plannerMeasurements observations)
                (LookaheadCropPlanner.possible (plannerMeasurements observations) seed.crops)
                (LookaheadCropPlanner.intervals (plannerMeasurements observations))
                horizontal = .ok A ∧ (∃ origins, A.solve linprog = .ok origins) ∧
              A.legal[i]? = some (P.fullInterval horizontal crop) := by
  refine ⟨fun i o ho => measurementsFrom_held none ho, fun P linprog plan hplan =>
    ⟨fun n seed hseed => ?_, fun i o ho hfree => ?_⟩⟩
  · rw [← plannerMeasurements_take]
    exact DeterministicCropPlanner.plan_take hseed n
  · obtain ⟨m, held, hm, hheld, hbounds, -, -, hsampled⟩ :=
      measurementsFrom_held none ho
    refine LookaheadCropPlanner.plan_full hplan hm ?_
    by_cases hfresh : o.Sampled
    · right
      rw [hbounds, hheld.eq_of_sampled ho hfresh, hfree.resolve_left (not_not.mpr hfresh)]
      rfl
    · exact .inl (Bool.eq_false_iff.mpr fun h => hfresh (hsampled.mp h))

/-- On a frame that is skipped after a sample, the box of the sample is held. -/
theorem measurements_fresh_skipped : ∃ m, ∃ held : Option (Detection ℝ),
    (plannerMeasurements [⟨0, 0, some ⟨⟨900, 400, 100, 300⟩, 1⟩, .selectedContainingTap, none⟩,
      (⟨1, 40, none, .detectionSkipped, none⟩ : RawFrameObservation ℝ)])[1]? = some m ∧
    m.detectorBounds = held.map (·.bounds) ∧ m.detectionSampled = false := by
  obtain ⟨m, held, hm, -, hbounds, -, -, hsampled⟩ := (measurements_fresh
    [⟨0, 0, some ⟨⟨900, 400, 100, 300⟩, 1⟩, .selectedContainingTap, none⟩,
      (⟨1, 40, none, .detectionSkipped, none⟩ : RawFrameObservation ℝ)]).1 1 _ rfl
  exact ⟨m, held, hm, hbounds, Bool.eq_false_iff.mpr fun h => hsampled.mp h rfl⟩

end Fresh

end BoulderFrame
