import BoulderFrame.Framing.AxisPasses
import BoulderFrame.Framing.SeedSafety

/-!
# The axes of a look-ahead plan

What a run of the look-ahead planner that returns has been through: a causal plan, two axis
problems whose intervals are positive and whose legal intervals are not empty, and the checks of
its own result.

## Main definitions

* `LookaheadCropPlanner.centers`: the normalized center path of crops

## Main results

* `DeterministicCropPlanner.plan_timestamps`: the causal planner returns on increasing timestamps
  only
* `LookaheadCropPlanner.axisProblem_regular`: the axis problems of a causal plan are regular
* `LookaheadCropPlanner.plan_eq_ok`: what the look-ahead planner checks
-/

namespace BoulderFrame

open LinearProgramming

variable {K : Type} [Field K] [LinearOrder K]

/-! ## What the causal planner checks -/

namespace DeterministicCropPlanner

variable [Elementary K] {P : DeterministicCropPlanner}

omit [LinearOrder K] [Elementary K] in
theorem elapsed_eq_ok {previous : Option ℤ} {t : ℤ} {dt : K} (h : elapsed previous t = .ok dt) :
    ∀ p ∈ previous, p < t := by
  obtain ⟨-, h⟩ := Except.ok_of_guard h
  rintro p ⟨⟩
  exact not_le.mp (Except.ok_of_guard h).1

theorem frame_eq_ok {st st' : SeedState K} {m : FrameMeasurement K}
    {out : CropRect K × PlannerFrameTrace K} (h : P.frame st m = .ok (out, st')) :
    (∀ p ∈ st.previousTimestamp, p < m.timestampMs) ∧ st'.previousTimestamp = m.timestampMs := by
  obtain ⟨dt, hdt, h⟩ := Except.bind_eq_ok.mp h
  obtain ⟨c, -, h⟩ := Except.bind_eq_ok.mp h
  obtain ⟨⟨crop, limited⟩, -, h⟩ := Except.bind_eq_ok.mp h
  obtain ⟨-, rfl⟩ := Prod.mk.inj (Except.ok.inj h)
  exact ⟨elapsed_eq_ok hdt, rfl⟩

/-- A run that returns has read increasing timestamps. -/
theorem planFrom_timestamps {st : SeedState K} {ms : List (FrameMeasurement K)}
    {frames : List (CropRect K × PlannerFrameTrace K)} (h : P.planFrom st ms = .ok frames) :
    frames.length = ms.length ∧ (∀ p ∈ st.previousTimestamp, ∀ m ∈ ms.head?, p < m.timestampMs) ∧
      ms.IsChain fun m m' => m.timestampMs < m'.timestampMs := by
  induction ms generalizing st frames with
  | nil =>
    obtain rfl := Except.ok.inj h
    exact ⟨rfl, by simp, .nil⟩
  | cons m rest ih =>
    obtain ⟨⟨out, st'⟩, hf, h⟩ := Except.bind_eq_ok.mp h
    obtain ⟨frames', hrest, h⟩ := Except.bind_eq_ok.mp h
    obtain rfl := Except.ok.inj h
    obtain ⟨hlt, htime⟩ := frame_eq_ok hf
    obtain ⟨hlen, hhead, hchain⟩ := ih hrest
    refine ⟨by simp [hlen], by simpa using hlt, List.isChain_cons.mpr ⟨fun m' hm' => ?_, hchain⟩⟩
    exact hhead m.timestampMs (by rw [htime]; rfl) m' hm'

/-- **The causal planner** returns as many crops as measurements, and only on increasing
timestamps. -/
theorem plan_timestamps {ms : List (FrameMeasurement K)} {plan : CropPlan K (PlannerFrameTrace K)}
    (h : P.plan ms = .ok plan) : plan.crops.length = ms.length ∧
      ms.IsChain fun m m' => m.timestampMs < m'.timestampMs := by
  obtain ⟨frames, hframes, h⟩ := Except.bind_eq_ok.mp h
  obtain rfl := Except.ok.inj h
  obtain ⟨hlen, -, hchain⟩ := planFrom_timestamps hframes
  exact ⟨by simp [CropPlan.ofFrames, hlen], hchain⟩

/-- A frame misses its detection exactly when its measurement has no box. -/
theorem planFrom_missed {st : SeedState K} {ms : List (FrameMeasurement K)}
    {frames : List (CropRect K × PlannerFrameTrace K)} (h : P.planFrom st ms = .ok frames) :
    frames.map (·.2.detectionMissed) = ms.map (·.detectorBounds.isNone) := by
  induction ms generalizing st frames with
  | nil =>
    obtain rfl := Except.ok.inj h
    rfl
  | cons m rest ih =>
    obtain ⟨⟨out, st'⟩, hframe, h⟩ := Except.bind_eq_ok.mp h
    obtain ⟨frames', hrest, h⟩ := Except.bind_eq_ok.mp h
    obtain rfl := Except.ok.inj h
    obtain ⟨dt, -, hframe⟩ := Except.bind_eq_ok.mp hframe
    obtain ⟨c, -, hframe⟩ := Except.bind_eq_ok.mp hframe
    obtain ⟨⟨crop, limited⟩, -, hframe⟩ := Except.bind_eq_ok.mp hframe
    obtain ⟨rfl, rfl⟩ := Prod.mk.inj (Except.ok.inj hframe)
    rw [List.map_cons, List.map_cons, ih hrest]

theorem plan_missed {ms : List (FrameMeasurement K)} {plan : CropPlan K (PlannerFrameTrace K)}
    (h : P.plan ms = .ok plan) :
    plan.trace.map (·.detectionMissed) = ms.map (·.detectorBounds.isNone) := by
  obtain ⟨frames, hframes, h⟩ := Except.bind_eq_ok.mp h
  obtain rfl := Except.ok.inj h
  rw [← planFrom_missed hframes, CropPlan.ofFrames, List.map_map]
  rfl

end DeterministicCropPlanner

namespace LookaheadCropPlanner

variable {P : LookaheadCropPlanner}

/-! ## The intervals and the legal origins -/

omit [LinearOrder K] in
theorem intervals_length (ms : List (FrameMeasurement K)) :
    (intervals ms).length = ms.length - 1 := by
  simp [intervals]

theorem intervals_pos [IsStrictOrderedRing K] {ms : List (FrameMeasurement K)}
    (h : ms.IsChain fun m m' => m.timestampMs < m'.timestampMs) :
    ∀ dt ∈ intervals ms, 0 < dt := by
  intro dt hdt
  obtain ⟨i, hi⟩ := List.mem_iff_getElem?.mp hdt
  obtain ⟨left, right, hleft, hright, rfl⟩ := List.getElem?_zipWith_eq_some.mp hi
  rw [List.getElem?_tail] at hright
  have hlt : left.timestampMs < right.timestampMs := by
    obtain ⟨h1, rfl⟩ := List.getElem?_eq_some_iff.mp hleft
    obtain ⟨h2, rfl⟩ := List.getElem?_eq_some_iff.mp hright
    exact List.isChain_iff_getElem.mp h i h2
  have : (0 : K) < ((right.timestampMs - left.timestampMs : ℤ) : K) := by
    exact_mod_cast sub_pos.mpr hlt
  positivity

section Axes

variable [Elementary K]

/-- A legal interval that is computed is not empty. -/
theorem axisInterval_consistent {horizontal possible : Bool} {crop : CropRect K}
    {m : FrameMeasurement K} {item : AxisInterval K}
    (h : P.axisInterval horizontal crop m possible = .ok item) :
    item.Consistent (crop.extent horizontal) (P.source horizontal) := by
  unfold axisInterval at h
  obtain ⟨hle, h⟩ := Except.ok_of_guard h
  obtain rfl := Except.ok.inj h
  exact ⟨not_lt.mp hle, rfl, rfl⟩

theorem axisProblem_eq_ok {crops : List (CropRect K)} {ms : List (FrameMeasurement K)}
    {possible : List Bool} {dts : List K} {horizontal : Bool} {A : AxisProblem K} :
    P.axisProblem crops ms possible dts horizontal = .ok A ↔ ∃ legal,
      P.axisIntervals crops ms possible horizontal = .ok legal ∧
        A = ⟨horizontal, P.source horizontal, crops, legal, dts⟩ := by
  unfold axisProblem
  rw [Except.bind_eq_ok]
  refine exists_congr fun legal => and_congr_right fun _ => ?_
  rw [Except.pure_eq_ok, Except.ok.injEq, eq_comm]

/-- The legal intervals of a causal plan, one per frame. -/
theorem axisIntervals_eq_ok {crops : List (CropRect K)} {ms : List (FrameMeasurement K)}
    {horizontal : Bool} {legal : List (AxisInterval K)} (hlen : crops.length = ms.length)
    (h : P.axisIntervals crops ms (possible ms crops) horizontal = .ok legal) :
    legal.length = crops.length ∧ ∀ (i : ℕ) crop m item, crops[i]? = some crop →
      ms[i]? = some m → legal[i]? = some item →
        P.axisInterval horizontal crop m (feasible m crop) = .ok item := by
  have hall := Except.mapM_eq_ok.mp h
  refine ⟨?_, fun i crop m item hcrop hm hitem => ?_⟩
  · rw [← hall.length_eq]
    simp [possible, hlen]
  · refine hall.at (i := i) (a := (crop, m, feasible m crop)) ?_ hitem
    rw [List.getElem?_zip_eq_some, List.getElem?_zip_eq_some]
    refine ⟨hcrop, hm, ?_⟩
    rw [possible, List.getElem?_zipWith, hm, hcrop]

/-- **The axis problems** of a causal plan of two frames or more are regular. -/
theorem axisProblem_regular [IsStrictOrderedRing K] {ms : List (FrameMeasurement K)}
    {seed : CropPlan K (PlannerFrameTrace K)} (hseed : P.seedPlanner.plan ms = .ok seed)
    (hn : 2 ≤ ms.length) {horizontal : Bool} {A : AxisProblem K}
    (hA : P.axisProblem seed.crops ms (possible ms seed.crops) (intervals ms) horizontal = .ok A) :
    A.Regular ∧ A.count = ms.length := by
  obtain ⟨hlen, hchain⟩ := DeterministicCropPlanner.plan_timestamps hseed
  obtain ⟨legal, hlegal, rfl⟩ := axisProblem_eq_ok.mp hA
  obtain ⟨hl, hentry⟩ := axisIntervals_eq_ok hlen hlegal
  refine ⟨⟨hn.trans hlen.ge, hl, ?_, intervals_pos hchain, ?_, fun i crop item hcrop hitem => ?_⟩,
    hlen⟩
  · change (intervals ms).length + 1 = seed.crops.length
    rw [intervals_length]
    omega
  · unfold source
    split_ifs
    · exact P.seedPlanner.sourceWidth_pos
    · exact P.seedPlanner.sourceHeight_pos
  · have hi : i < ms.length := by
      have := (List.getElem?_eq_some_iff.mp hcrop).1
      change i < seed.crops.length at this
      omega
    exact axisInterval_consistent (hentry i crop _ item hcrop (List.getElem?_eq_getElem hi) hitem)

omit [Elementary K] in
/-- With two frames or more the origins of an axis are those of the last pass. -/
theorem solve_eq_ok {A : AxisProblem K} (hn : 2 ≤ A.count) {linprog : Linprog K}
    {origins : List K} :
    A.solve linprog = .ok origins ↔ ∃ st, A.runPasses linprog 6 = .ok st ∧ st.origins = origins := by
  unfold AxisProblem.solve
  split
  · rename_i crop item hcrops hlegal
    rw [AxisProblem.count, hcrops] at hn
    simp at hn
  · rw [Except.bind_eq_ok]
    simp only [Except.pure_eq_ok, Except.ok.injEq]

omit [Elementary K] in
/-- A single frame has a single origin. -/
theorem solve_length {A : AxisProblem K} (hlegal : A.legal.length = A.count) (hn : A.count = 1)
    {linprog : Linprog K} {origins : List K} (h : A.solve linprog = .ok origins) :
    origins.length = 1 := by
  unfold AxisProblem.solve at h
  split at h
  · rename_i crop item hcrops hitems
    dsimp only at h
    split_ifs at h
    · obtain rfl := Except.ok.inj h
      rfl
    · obtain ⟨canonical, hcan, h⟩ := Except.bind_eq_ok.mp h
      obtain rfl := Except.ok.inj h
      rw [List.length_map, ← (Except.mapM_eq_ok.mp hcan).length_eq]
      simp [AxisProblem.seedCenters, hcrops, hitems]
  · rename_i hnot
    obtain ⟨crop, hcrops⟩ := List.length_eq_one_iff.mp (show A.crops.length = 1 from hn)
    obtain ⟨item, hitem⟩ := List.length_eq_one_iff.mp (hlegal.trans hn)
    exact absurd hitem (hnot crop item hcrops)

/-- A run of the look-ahead planner over some measurements returns exactly when the causal planner
does, both axes are solved, and nothing is refused before or after. -/
theorem plan_eq_ok {linprog : Linprog K} {ms : List (FrameMeasurement K)} (hne : ms ≠ [])
    {plan : CropPlan K (LookaheadPlannerFrameTrace K)} :
    P.plan linprog ms = .ok plan ↔ ∃ seed originsX originsY, P.seedPlanner.plan ms = .ok seed ∧
      (∀ crop ∈ seed.crops, ¬ P.invalidGeometry crop) ∧ (∀ m ∈ ms, ¬ invalidBox m) ∧
      (∀ q ∈ ms.zip (seed.crops.zip seed.trace), rejectedSample q.1 q.2.1 q.2.2 = false) ∧
      P.solveAxis linprog seed.crops ms (possible ms seed.crops) (intervals ms) true =
        .ok originsX ∧
      P.solveAxis linprog seed.crops ms (possible ms seed.crops) (intervals ms) false =
        .ok originsY ∧
      (∀ crop ∈ moved originsX originsY seed.crops, ¬ P.invalidGeometry crop) ∧
      (∀ q ∈ (moved originsX originsY seed.crops).zip (ms.zip (possible ms seed.crops)),
        uncontained q.1 q.2.1 q.2.2 = false) ∧
      CropPlan.make (moved originsX originsY seed.crops)
        (P.traces (moved originsX originsY seed.crops) seed ms (intervals ms)) = .ok plan := by
  have hgeometry : ∀ crops : List (CropRect K), P.validateGeometry crops = .ok () ↔
      ∀ crop ∈ crops, ¬ P.invalidGeometry crop := by
    intro crops
    unfold validateGeometry
    split_ifs with h
    · simpa using h
    · simpa using h
  unfold LookaheadCropPlanner.plan
  rw [Except.bind_eq_ok]
  constructor
  · rintro ⟨seed, hseed, h⟩
    have hcrops : seed.crops ≠ [] := by
      rw [← List.length_pos_iff, (DeterministicCropPlanner.plan_timestamps hseed).1,
        List.length_pos_iff]
      exact hne
    rw [if_neg hcrops] at h
    obtain ⟨⟨⟩, hseedgeo, h⟩ := Except.bind_eq_ok.mp h
    obtain ⟨hboxes, h⟩ := Except.ok_of_guard h
    obtain ⟨hrejected, h⟩ := Except.ok_of_guard h
    obtain ⟨originsX, hx, h⟩ := Except.bind_eq_ok.mp h
    obtain ⟨originsY, hy, h⟩ := Except.bind_eq_ok.mp h
    obtain ⟨⟨⟩, hgeo, h⟩ := Except.bind_eq_ok.mp h
    obtain ⟨hcontained, h⟩ := Except.ok_of_guard h
    refine ⟨seed, originsX, originsY, hseed, (hgeometry _).mp hseedgeo, by simpa using hboxes, ?_,
      hx, hy, (hgeometry _).mp hgeo, ?_, h⟩
    · intro q hq
      rw [Bool.eq_false_iff]
      exact fun hr => hrejected (List.any_eq_true.mpr ⟨q, hq, hr⟩)
    · intro q hq
      rw [Bool.eq_false_iff]
      exact fun hr => hcontained (List.any_eq_true.mpr ⟨q, hq, hr⟩)
  · rintro ⟨seed, originsX, originsY, hseed, hseedgeo, hboxes, hrejected, hx, hy, hgeo, hcontained,
      h⟩
    have hcrops : seed.crops ≠ [] := by
      rw [← List.length_pos_iff, (DeterministicCropPlanner.plan_timestamps hseed).1,
        List.length_pos_iff]
      exact hne
    refine ⟨seed, hseed, ?_⟩
    rw [if_neg hcrops, (hgeometry _).mpr hseedgeo, Except.ok_bind,
      if_neg (by simpa using hboxes), if_neg]
    · dsimp only
      rw [hx, Except.ok_bind, hy, Except.ok_bind, (hgeometry _).mpr hgeo, Except.ok_bind, if_neg]
      · exact h
      · rw [List.any_eq_true]
        rintro ⟨q, hq, hr⟩
        exact Bool.false_ne_true ((hcontained q hq).symm.trans hr)
    · rw [List.any_eq_true]
      rintro ⟨q, hq, hr⟩
      exact Bool.false_ne_true ((hrejected q hq).symm.trans hr)

end Axes

/-! ## The moved crops -/

section Moved

variable {crops : List (CropRect K)} {originsX originsY : List K}

omit [Field K] [LinearOrder K] in
theorem moved_eq_some {i : ℕ} {c : CropRect K} : (moved originsX originsY crops)[i]? = some c ↔
    ∃ x y crop, originsX[i]? = some x ∧ originsY[i]? = some y ∧ crops[i]? = some crop ∧
      c = ⟨x, y, crop.width, crop.height⟩ := by
  rw [moved, List.getElem?_zipWith_eq_some]
  constructor
  · rintro ⟨⟨x, y⟩, crop, hz, hcrop, rfl⟩
    obtain ⟨hx, hy⟩ := List.getElem?_zip_eq_some.mp hz
    exact ⟨x, y, crop, hx, hy, hcrop, rfl⟩
  · rintro ⟨x, y, crop, hx, hy, hcrop, rfl⟩
    exact ⟨(x, y), crop, List.getElem?_zip_eq_some.mpr ⟨hx, hy⟩, hcrop, rfl⟩

omit [Field K] [LinearOrder K] in
theorem moved_length (hx : originsX.length = crops.length) (hy : originsY.length = crops.length) :
    (moved originsX originsY crops).length = crops.length := by
  simp [moved, hx, hy]

theorem traces_length {seed : CropPlan K (PlannerFrameTrace K)} {ms : List (FrameMeasurement K)}
    {dts : List K} (hc : crops.length = ms.length) (hs : seed.crops.length = ms.length) :
    (P.traces crops seed ms dts).length = ms.length := by
  simp [traces, hc, hs, ← seed.length_eq]

/-- A trace record repeats what the causal planner says of the source's limits and of a miss. -/
theorem traces_eq_some {seed : CropPlan K (PlannerFrameTrace K)} {ms : List (FrameMeasurement K)}
    {dts : List K} {i : ℕ} {trace : LookaheadPlannerFrameTrace K}
    (h : (P.traces crops seed ms dts)[i]? = some trace) : ∃ causal, seed.trace[i]? = some causal ∧
      trace.sourceAspectLimited = causal.sourceAspectLimited ∧
      trace.detectionMissed = causal.detectionMissed := by
  simp only [traces, List.getElem?_map, Option.map_eq_some_iff, List.getElem?_zipIdx] at h
  obtain ⟨⟨⟨crop, seedCrop, m, causal⟩, j⟩, ⟨q, hq, hj⟩, rfl⟩ := h
  obtain ⟨rfl, rfl⟩ := Prod.mk.inj hj
  rw [List.getElem?_zip_eq_some, List.getElem?_zip_eq_some, List.getElem?_zip_eq_some] at hq
  exact ⟨causal, hq.2.2.2, rfl, rfl⟩

theorem traces_missed {seed : CropPlan K (PlannerFrameTrace K)} {ms : List (FrameMeasurement K)}
    {dts : List K} (hc : crops.length = ms.length) (hs : seed.crops.length = ms.length) :
    (P.traces crops seed ms dts).map (·.detectionMissed) =
      seed.trace.map (·.detectionMissed) := by
  refine List.ext_getElem ?_ fun i hi hi' => ?_
  · rw [List.length_map, List.length_map, traces_length hc hs, ← seed.length_eq, hs]
  · rw [List.length_map] at hi hi'
    obtain ⟨causal, hcausal, -, hmissed⟩ := traces_eq_some (List.getElem?_eq_getElem hi)
    rw [List.getElem_map, List.getElem_map, hmissed,
      Option.some.inj ((List.getElem?_eq_getElem hi').symm.trans hcausal)]

end Moved

/-! ## The center path of crops -/

variable (P) in
/-- The normalized centers of crops on an axis. -/
def centers (horizontal : Bool) (crops : List (CropRect K)) : ℕ → K :=
  vec (crops.map (·.normalizedCenter horizontal (P.source horizontal)))

omit [LinearOrder K] in
/-- The seed crops at solved origins have the path of these origins. -/
theorem centers_moved {crops : List (CropRect K)} {originsX originsY : List K}
    (hx : originsX.length = crops.length) (hy : originsY.length = crops.length) (horizontal : Bool)
    {A : AxisProblem K} (hh : A.horizontal = horizontal) (hs : A.source = P.source horizontal)
    (hc : A.crops = crops) : P.centers horizontal (moved originsX originsY crops) =
      A.path (if horizontal then originsX else originsY) := by
  unfold centers AxisProblem.path
  congr 1
  refine List.ext_getElem? fun i => ?_
  rw [hc, hs, hh, List.getElem?_map, moved, List.getElem?_zipWith, List.getElem?_zipWith]
  rcases Nat.lt_or_ge i crops.length with hi | hi
  · have hz : (originsX.zip originsY)[i]? = some (vec originsX i, vec originsY i) :=
      List.getElem?_zip_eq_some.mpr ⟨getElem?_eq_vec (by omega), getElem?_eq_vec (by omega)⟩
    rw [hz, List.getElem?_eq_getElem hi]
    cases horizontal
    · simp [getElem?_eq_vec (show i < originsY.length by omega), CropRect.normalizedCenter,
        CropRect.center, CropRect.extent]
    · simp [getElem?_eq_vec (show i < originsX.length by omega), CropRect.normalizedCenter,
        CropRect.center, CropRect.extent]
  · rw [List.getElem?_eq_none hi]
    cases (originsX.zip originsY)[i]? <;>
      cases (if horizontal then originsX else originsY)[i]? <;> simp

end LookaheadCropPlanner

end BoulderFrame
