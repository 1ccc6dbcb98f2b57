import BoulderFrame.Framing.LookaheadOptimum

/-!
# The motion flags of a plan

A trace record says whether the camera moves above its limits there. The speed of an interval counts
at the frame that ends it, a change of velocity at the frame after it, and the two rests at the first
and the last frame. So the flags of a plan cover every interval and every change of velocity of its
center path.

## Main definitions

* `flagBound`: the value above which a flag is raised
* `pathVelocity`, `pathAcceleration`: the motion of the crops' centers on both axes
* `Attached`: the frame at which a change of velocity counts

## Main results

* `limitExceeded_iff`: a flag is raised above its bound
* `traces_speed_flag`, `traces_acceleration_flag`: the flags of a plan, by its center path
* `motion_flags`: no avoidable excess is flagged, and no unavoidable one is missed
-/

namespace BoulderFrame

open LinearProgramming LexMin

namespace LookaheadCropPlanner

section Flags

variable {K : Type} [Field K] [LinearOrder K]

/-- The limit with the tolerance of the optimizer and that of the comparison. -/
def flagBound (limit : K) : K := limit + solverFeasibilityTolerance + 1e-12

variable (P : LookaheadCropPlanner) (S : Shot K) (crops : List (CropRect K))

/-- The velocity of the centers after frame `i`, on both axes. -/
def pathVelocity (i : ℕ) : K × K :=
  (S.velocity (P.centers true crops) i, S.velocity (P.centers false crops) i)

/-- Their acceleration at frame `i`, the rest before and after the shot included. -/
def pathAcceleration (i : ℕ) : K × K :=
  (S.acceleration (P.centers true crops) i, S.acceleration (P.centers false crops) i)

/-- The change of velocity at frame `j` counts at frame `i`, of `n` frames. -/
def Attached (n i j : ℕ) : Prop :=
  i = 0 ∧ j = 0 ∨ (i = j + 1 ∧ 1 ≤ j) ∨ i = n - 1 ∧ j = n - 1

variable [IsStrictOrderedRing K] {P S crops}

theorem flagBound_pos {limit : K} (h : 0 ≤ limit) : 0 < flagBound limit := by
  have := solverFeasibilityTolerance_nonneg (K := K)
  unfold flagBound
  positivity

theorem lt_flagBound (limit : K) : limit + solverFeasibilityTolerance < flagBound limit :=
  lt_add_of_pos_right _ (by norm_num)

/-- **A flag** is raised above its bound. -/
theorem limitExceeded_iff {value limit : K} :
    limitExceeded value limit = true ↔ flagBound limit < value := by
  have htol : (0 : K) < 1e-12 := by norm_num
  unfold limitExceeded
  dsimp only
  rw [Bool.and_eq_true, decide_eq_true_eq, Bool.not_eq_true', isclose, zero_mul,
    max_eq_right htol.le, decide_eq_false_iff_not, not_le, flagBound]
  constructor
  · rintro ⟨habove, hfar⟩
    rw [abs_of_pos (sub_pos.mpr habove)] at hfar
    linarith
  · intro h
    have habove : limit + solverFeasibilityTolerance < value := by linarith
    rw [abs_of_pos (sub_pos.mpr habove)]
    exact ⟨habove, by linarith⟩

/-! ## The motion of the center path -/

omit [IsStrictOrderedRing K] in
/-- The magnitude of a velocity bounds both axes, each with a shot of its own. -/
theorem pathVelocity_le_iff {shot : Bool → Shot K} (hdt : ∀ horizontal, (shot horizontal).dt = S.dt)
    {i : ℕ} {b : K} : magnitude (P.pathVelocity S crops i) ≤ b ↔
      ∀ horizontal, |(shot horizontal).velocity (P.centers horizontal crops) i| ≤ b := by
  simp only [Shot.velocity, hdt, Bool.forall_bool, magnitude, pathVelocity, max_le_iff]
  exact and_comm

omit [IsStrictOrderedRing K] in
theorem pathAcceleration_le_iff {shot : Bool → Shot K}
    (hframes : ∀ horizontal, (shot horizontal).frames = S.frames)
    (hdt : ∀ horizontal, (shot horizontal).dt = S.dt) {i : ℕ} {b : K} :
    magnitude (P.pathAcceleration S crops i) ≤ b ↔
      ∀ horizontal, |(shot horizontal).acceleration (P.centers horizontal crops) i| ≤ b := by
  simp only [Shot.acceleration, Shot.velocityChange, Shot.span, Shot.velocity, hframes, hdt,
    Bool.forall_bool, magnitude, pathAcceleration, max_le_iff]
  exact and_comm

variable {dts : List K} (hframes : S.frames = crops.length) (hdt : S.dt = vec dts)
  (hlen : dts.length + 1 = crops.length)

omit [LinearOrder K] [IsStrictOrderedRing K] in
include hdt hlen in
theorem velocities_getElem? {i : ℕ} (hi : i + 1 < crops.length) :
    (P.velocities crops dts)[i]? = some (P.pathVelocity S crops i) := by
  have htail : crops.tail[i]? = some crops[i + 1] := by
    rw [List.getElem?_tail]
    exact List.getElem?_eq_getElem hi
  have hpair : (crops.zip crops.tail)[i]? = some (crops[i], crops[i + 1]) :=
    List.getElem?_zip_eq_some.mpr ⟨List.getElem?_eq_getElem (by omega), htail⟩
  have hcenter : ∀ horizontal j (hj : j < crops.length), P.centers horizontal crops j =
      (crops[j]).normalizedCenter horizontal (P.source horizontal) := by
    intro horizontal j hj
    refine vec_of_getElem? ?_
    rw [List.getElem?_map, List.getElem?_eq_getElem hj, Option.map_some]
  rw [velocities, List.getElem?_zipWith, hpair, getElem?_eq_vec (by omega), pathVelocity,
    Shot.velocity, Shot.velocity, hdt, hcenter true i (by omega), hcenter true (i + 1) hi,
    hcenter false i (by omega), hcenter false (i + 1) hi]
  simp only [CropRect.normalizedCenter, source, if_true, Bool.false_eq_true, if_false, sub_div]

include hdt hlen in
/-- The camera starts at rest. -/
theorem magnitude_first (hn : 2 ≤ crops.length) (hframes : S.frames = crops.length)
    (hpos : ∀ dt ∈ dts, 0 < dt) :
    magnitude (P.pathAcceleration S crops 0) =
      magnitude (P.pathVelocity S crops 0) * 2 / vec dts 0 := by
  have hdt0 : 0 < vec dts 0 := hpos _ (List.mem_of_getElem? (getElem?_eq_vec (by omega)))
  have habs : ∀ v : K, |v / (vec dts 0 / 2)| = |v| * (2 / vec dts 0) := by
    intro v
    rw [abs_div, abs_of_pos (half_pos hdt0), div_div_eq_mul_div, mul_div_assoc]
  rw [magnitude, magnitude, pathAcceleration, pathVelocity, Shot.acceleration, Shot.acceleration,
    Shot.velocityChange_first (hframes ▸ hn), Shot.velocityChange_first (hframes ▸ hn),
    Shot.span_first (hframes ▸ hn), hdt]
  dsimp only
  rw [habs, habs, ← max_mul_of_nonneg _ _ (by positivity), mul_div_assoc]

include hdt hlen in
/-- And it ends at rest. -/
theorem magnitude_last {i : ℕ} (hi : crops.length = i + 2) (hframes : S.frames = crops.length)
    (hpos : ∀ dt ∈ dts, 0 < dt) :
    magnitude (P.pathAcceleration S crops (i + 1)) =
      magnitude (P.pathVelocity S crops i) * 2 / vec dts i := by
  have hdti : 0 < vec dts i := hpos _ (List.mem_of_getElem? (getElem?_eq_vec (by omega)))
  have habs : ∀ v : K, |-v / (vec dts i / 2)| = |v| * (2 / vec dts i) := by
    intro v
    rw [abs_div, abs_neg, abs_of_pos (half_pos hdti), div_div_eq_mul_div, mul_div_assoc]
  rw [magnitude, magnitude, pathAcceleration, pathVelocity, Shot.acceleration, Shot.acceleration,
    Shot.velocityChange_last (hframes.trans hi), Shot.velocityChange_last (hframes.trans hi),
    Shot.span_last (hframes.trans hi), hdt]
  dsimp only
  rw [habs, habs, ← max_mul_of_nonneg _ _ (by positivity), mul_div_assoc]

/-! ## The flags of a frame -/

variable {index : ℕ} {seedCrop crop : CropRect K} {m : FrameMeasurement K}
  {causal : PlannerFrameTrace K}

omit [LinearOrder K] [IsStrictOrderedRing K] in
theorem velocities_length : (P.velocities crops dts).length =
    min (min crops.length (crops.length - 1)) dts.length := by
  rw [velocities, List.length_zipWith, List.length_zip, List.length_tail]

include hdt hlen in
/-- **The speed flag** of a frame is that of the interval before it. -/
theorem frameTrace_speed (hindex : index < crops.length) :
    (frameTrace crops (P.velocities crops dts) dts seedCrop index crop m
        causal).panSpeedLimitExceeded = true ↔
      ∃ j, index = j + 1 ∧ flagBound panMaxSpeed < magnitude (P.pathVelocity S crops j) := by
  change limitExceeded ((Option.map magnitude (if index = 0 then none else
    (P.velocities crops dts)[index - 1]?)).getD 0) panMaxSpeed = true ↔ _
  rw [limitExceeded_iff]
  cases index with
  | zero =>
    refine iff_of_false (flagBound_pos ?_).not_gt fun ⟨j, hj, _⟩ => by omega
    norm_num [panMaxSpeed]
  | succ j =>
    rw [if_neg (by omega), Nat.add_sub_cancel, velocities_getElem? hdt hlen hindex]
    constructor
    · exact fun h => ⟨j, rfl, h⟩
    · rintro ⟨j', hj', h⟩
      obtain rfl := Nat.succ_inj.mp hj'
      exact h

omit [IsStrictOrderedRing K] in
/-- The greatest magnitude that counts at a frame exceeds a bound if one of them does. -/
theorem lt_attached_iff {n : ℕ} {a : ℕ → K} {b : K} (hb : 0 < b) :
    b < max (if index = n - 1 then max (if index = 0 then a 0 else 0) (a (n - 1))
        else if index = 0 then a 0 else 0) (if 2 ≤ index then a (index - 1) else 0) ↔
      ∃ j, Attached n index j ∧ b < a j := by
  have hfirst : b < (if index = 0 then a 0 else 0) ↔ index = 0 ∧ b < a 0 := by
    split_ifs with h
    · rw [and_iff_right h]
    · exact iff_of_false hb.not_gt fun h' => h h'.1
  have hinner : b < (if 2 ≤ index then a (index - 1) else 0) ↔ 2 ≤ index ∧ b < a (index - 1) := by
    split_ifs with h
    · rw [and_iff_right h]
    · exact iff_of_false hb.not_gt fun h' => h h'.1
  have hlast : b < (if index = n - 1 then max (if index = 0 then a 0 else 0) (a (n - 1))
      else if index = 0 then a 0 else 0) ↔
        index = 0 ∧ b < a 0 ∨ index = n - 1 ∧ b < a (n - 1) := by
    split_ifs with h h0 h0
    · rw [lt_max_iff, and_iff_right h0, and_iff_right h]
    · rw [lt_max_iff, or_iff_right hb.not_gt, and_iff_right h, or_iff_right fun h' => h0 h'.1]
    · rw [and_iff_right h0, or_iff_left fun h' => h h'.1]
    · exact iff_of_false hb.not_gt fun h' => h'.elim (fun h' => h0 h'.1) fun h' => h h'.1
  rw [lt_max_iff, hlast, hinner]
  constructor
  · rintro ((⟨h, hlt⟩ | ⟨h, hlt⟩) | ⟨h, hlt⟩)
    · exact ⟨0, .inl ⟨h, rfl⟩, hlt⟩
    · exact ⟨n - 1, .inr (.inr ⟨h, rfl⟩), hlt⟩
    · exact ⟨index - 1, .inr (.inl ⟨by omega, by omega⟩), hlt⟩
  · rintro ⟨j, ⟨h, rfl⟩ | ⟨rfl, hj⟩ | ⟨h, rfl⟩, hlt⟩
    · exact .inl (.inl ⟨h, hlt⟩)
    · exact .inr ⟨by omega, hlt⟩
    · exact .inl (.inr ⟨h, hlt⟩)

include hdt hlen in
/-- **The acceleration flag** of a frame is that of the changes of velocity that count there. -/
theorem frameTrace_acceleration (hframes : S.frames = crops.length) (hpos : ∀ dt ∈ dts, 0 < dt)
    (hn : 2 ≤ crops.length) (hindex : index < crops.length) :
    (frameTrace crops (P.velocities crops dts) dts seedCrop index crop m
        causal).panAccelerationLimitExceeded = true ↔
      ∃ j, Attached crops.length index j ∧
        flagBound panMaxAcceleration < magnitude (P.pathAcceleration S crops j) := by
  have hbound : (0 : K) < flagBound panMaxAcceleration :=
    flagBound_pos (by norm_num [panMaxAcceleration])
  have hhead : (P.velocities crops dts).head? = some (P.pathVelocity S crops 0) := by
    rw [List.head?_eq_getElem?]
    exact velocities_getElem? hdt hlen hn
  have hlast : (P.velocities crops dts).getLast? =
      some (P.pathVelocity S crops (crops.length - 2)) := by
    rw [List.getLast?_eq_getElem?, velocities_length]
    exact (congrArg _ (by omega)).trans
      (velocities_getElem? hdt hlen (show crops.length - 2 + 1 < crops.length by omega))
  have hfirst := magnitude_first (P := P) hdt hlen hn hframes hpos
  have hend := magnitude_last (P := P) hdt hlen (show crops.length = crops.length - 2 + 2 by omega)
    hframes hpos
  unfold frameTrace
  dsimp only
  rw [limitExceeded_iff, hhead, hlast,
    ← lt_attached_iff hbound (a := fun j => magnitude (P.pathAcceleration S crops j))]
  dsimp only
  refine iff_of_eq (congrArg (flagBound panMaxAcceleration < ·) (congrArg₂ max ?_ ?_))
  · rw [hfirst, show crops.length - 1 = crops.length - 2 + 1 by omega, hend,
      show dts.length - 1 = crops.length - 2 by omega]
  · by_cases h2 : 2 ≤ index
    · obtain ⟨j, rfl⟩ : ∃ j, index = j + 2 := ⟨index - 2, by omega⟩
      rw [if_pos h2, if_pos h2, Nat.add_sub_cancel, show j + 2 - 1 = j + 1 by omega,
        velocities_getElem? hdt hlen (by omega), velocities_getElem? hdt hlen hindex]
      change magnitude _ = magnitude _
      rw [pathAcceleration, Shot.acceleration, Shot.acceleration,
        Shot.velocityChange_inner (hframes ▸ hindex), Shot.velocityChange_inner (hframes ▸ hindex),
        Shot.span_inner (hframes ▸ hindex), hdt]
      rfl
    · rw [if_neg h2, if_neg h2]
      rfl

omit [LinearOrder K] [IsStrictOrderedRing K] in
/-- A single frame has no motion. -/
theorem velocities_single (hn : crops.length = 1) : P.velocities crops dts = [] := by
  rw [← List.length_eq_zero_iff, velocities_length]
  omega

theorem frameTrace_acceleration_single (hn : crops.length = 1) (hindex : index < crops.length) :
    (frameTrace crops (P.velocities crops dts) dts seedCrop index crop m
      causal).panAccelerationLimitExceeded = false := by
  rw [Bool.eq_false_iff]
  unfold frameTrace
  rw [velocities_single hn]
  obtain rfl : index = 0 := by omega
  change ¬ limitExceeded (max 0 0) panMaxAcceleration = true
  rw [limitExceeded_iff, max_self]
  exact (flagBound_pos (by norm_num [panMaxAcceleration])).not_gt

/-! ## The flags of a plan -/

variable {seed : CropPlan K (PlannerFrameTrace K)} {ms : List (FrameMeasurement K)}
  (hcrops : crops.length = ms.length) (hseed : seed.crops.length = ms.length)

omit [IsStrictOrderedRing K] in
variable (dts) in
include hcrops hseed in
/-- Every frame has its record. -/
theorem traces_getElem? (hindex : index < crops.length) : ∃ seedCrop crop m causal,
    (P.traces crops seed ms dts)[index]? =
      some (frameTrace crops (P.velocities crops dts) dts seedCrop index crop m causal) := by
  have hat : ∀ {α : Type} (l : List α), l.length = crops.length → ∃ a, l[index]? = some a :=
    fun l hl => ⟨_, List.getElem?_eq_getElem (hl.symm ▸ hindex)⟩
  obtain ⟨crop, hcrop⟩ := hat crops rfl
  obtain ⟨seedCrop, hseedCrop⟩ := hat seed.crops (hseed.trans hcrops.symm)
  obtain ⟨m, hm⟩ := hat ms hcrops.symm
  obtain ⟨causal, hcausal⟩ := hat seed.trace (seed.length_eq ▸ hseed.trans hcrops.symm)
  refine ⟨seedCrop, crop, m, causal, ?_⟩
  have hpair : (crops.zip (seed.crops.zip (ms.zip seed.trace)))[index]? =
      some (crop, seedCrop, m, causal) := by
    rw [List.getElem?_zip_eq_some, List.getElem?_zip_eq_some, List.getElem?_zip_eq_some]
    exact ⟨hcrop, hseedCrop, hm, hcausal⟩
  rw [traces]
  dsimp only
  rw [List.getElem?_map, List.getElem?_zipIdx, hpair]
  simp only [Option.map_some, zero_add]

omit [IsStrictOrderedRing K] in
include hcrops hseed in
/-- Every record is that of a frame. -/
theorem traces_mem {trace : LookaheadPlannerFrameTrace K}
    (h : trace ∈ P.traces crops seed ms dts) : ∃ index seedCrop crop m causal,
      index < crops.length ∧
        trace = frameTrace crops (P.velocities crops dts) dts seedCrop index crop m causal := by
  obtain ⟨index, hindex⟩ := List.mem_iff_getElem?.mp h
  have hlt : index < crops.length := by
    have := (List.getElem?_eq_some_iff.mp hindex).1
    rw [traces_length hcrops hseed] at this
    omega
  obtain ⟨seedCrop, crop, m, causal, htrace⟩ := traces_getElem? (P := P) dts hcrops hseed hlt
  exact ⟨index, seedCrop, crop, m, causal, hlt, Option.some.inj (hindex.symm.trans htrace)⟩

include hcrops hseed hdt hlen in
/-- **A speed is flagged** on some frame exactly when some interval of the center path exceeds the
bound. -/
theorem traces_speed_flag :
    (∃ trace ∈ P.traces crops seed ms dts, trace.panSpeedLimitExceeded = true) ↔
      ∃ j, j + 1 < crops.length ∧ flagBound panMaxSpeed < magnitude (P.pathVelocity S crops j) := by
  constructor
  · rintro ⟨trace, hmem, hflag⟩
    obtain ⟨index, _, _, _, _, hlt, rfl⟩ := traces_mem hcrops hseed hmem
    obtain ⟨j, rfl, hj⟩ := (frameTrace_speed hdt hlen hlt).mp hflag
    exact ⟨j, hlt, hj⟩
  · rintro ⟨j, hj, hexceeds⟩
    obtain ⟨_, _, _, _, htrace⟩ := traces_getElem? (P := P) dts hcrops hseed hj
    exact ⟨_, List.mem_of_getElem? htrace, (frameTrace_speed hdt hlen hj).mpr ⟨j, rfl, hexceeds⟩⟩

include hcrops hseed hdt hlen in
/-- **An acceleration is flagged** on some frame exactly when some change of velocity exceeds the
bound. -/
theorem traces_acceleration_flag (hframes : S.frames = crops.length) (hpos : ∀ dt ∈ dts, 0 < dt) :
    (∃ trace ∈ P.traces crops seed ms dts, trace.panAccelerationLimitExceeded = true) ↔
      2 ≤ crops.length ∧ ∃ j < crops.length,
        flagBound panMaxAcceleration < magnitude (P.pathAcceleration S crops j) := by
  constructor
  · rintro ⟨trace, hmem, hflag⟩
    obtain ⟨index, _, _, _, _, hlt, rfl⟩ := traces_mem hcrops hseed hmem
    have hn : 2 ≤ crops.length := by
      by_contra hn
      rw [frameTrace_acceleration_single (by omega) hlt] at hflag
      cases hflag
    obtain ⟨j, hj, hexceeds⟩ := (frameTrace_acceleration hdt hlen hframes hpos hn hlt).mp hflag
    refine ⟨hn, j, ?_, hexceeds⟩
    obtain ⟨-, rfl⟩ | ⟨rfl, -⟩ | ⟨-, rfl⟩ := hj <;> omega
  · rintro ⟨hn, j, hj, hexceeds⟩
    -- the first change counts at the first frame, the last one at the last, the others one later
    obtain ⟨index, hindex, hattached⟩ : ∃ index < crops.length, Attached crops.length index j := by
      obtain rfl | hfirst := Nat.eq_zero_or_pos j
      · exact ⟨0, hj, .inl ⟨rfl, rfl⟩⟩
      · by_cases hlast : j + 1 < crops.length
        · exact ⟨j + 1, hlast, .inr (.inl ⟨rfl, hfirst⟩)⟩
        · exact ⟨crops.length - 1, by omega, .inr (.inr ⟨rfl, by omega⟩)⟩
    obtain ⟨_, _, _, _, htrace⟩ := traces_getElem? (P := P) dts hcrops hseed hindex
    exact ⟨_, List.mem_of_getElem? htrace,
      (frameTrace_acceleration hdt hlen hframes hpos hn hindex).mpr ⟨j, hattached, hexceeds⟩⟩

end Flags

/-! ## The flags of an optimal plan -/

section Plan

variable {K : Type} [Field K] [LinearOrder K] [IsStrictOrderedRing K] [Elementary K]
  {P : LookaheadCropPlanner} {linprog : Linprog K} {ms : List (FrameMeasurement K)}
  {plan : CropPlan K (LookaheadPlannerFrameTrace K)}

/-- **The records of a plan** are those of its own crops. -/
theorem plan_trace (hne : ms ≠ []) (h : P.plan linprog ms = .ok plan) :
    ∃ seed, P.seedPlanner.plan ms = .ok seed ∧ seed.crops.length = ms.length ∧
      plan.crops.length = ms.length ∧
      plan.trace = P.traces plan.crops seed ms (intervals ms) ∧
      (intervals ms).length + 1 = plan.crops.length ∧ ∀ dt ∈ intervals ms, 0 < dt := by
  obtain ⟨seed, origins, hseed, hsolved, hcrops, htrace, -⟩ := plan_solved hne h
  obtain ⟨hlen, hchain⟩ := DeterministicCropPlanner.plan_timestamps hseed
  have hmoved : plan.crops.length = ms.length := by
    rw [hcrops, moved_length, hlen]
    · exact (solveAxis_length hseed hne (hsolved true)).trans hlen.symm
    · exact (solveAxis_length hseed hne (hsolved false)).trans hlen.symm
  refine ⟨seed, hseed, hlen, hmoved, htrace, ?_, intervals_pos hchain⟩
  have := List.length_pos_iff.mpr hne
  rw [intervals_length, hmoved]
  omega

omit [IsStrictOrderedRing K] in
/-- No frame, no crop and no record. -/
theorem plan_nil (P : LookaheadCropPlanner) (linprog : Linprog K) : P.plan linprog [] =
    (.ok (.ofFrames []) : Except PlanError (CropPlan K (LookaheadPlannerFrameTrace K))) :=
  rfl

omit [IsStrictOrderedRing K] in
theorem axisProblem_nil (P : LookaheadCropPlanner) (horizontal : Bool) :
    P.axisProblem (K := K) [] [] (possible (K := K) [] []) (intervals []) horizontal =
      .ok ⟨horizontal, P.source horizontal, [], [], []⟩ :=
  rfl

/-- An axis that has been set up has a legal path. -/
theorem axisProblem_legalPath {crops : List (CropRect K)} (hlen : crops.length = ms.length)
    {horizontal : Bool} {A : AxisProblem K} (hA : P.axisProblem crops ms (possible ms crops)
      (intervals ms) horizontal = .ok A) : ∃ c, c ∈ A.legalPaths := by
  obtain ⟨legal, hlegal, rfl⟩ := axisProblem_eq_ok.mp hA
  obtain ⟨hl, hentry⟩ := axisIntervals_eq_ok hlen hlegal
  refine ⟨vec (legal.map (·.centerLower)), fun i item hitem => ?_⟩
  rw [vec_of_getElem? (by rw [List.getElem?_map, hitem, Option.map_some])]
  refine ⟨le_rfl, ?_⟩
  have hi : i < crops.length := hl ▸ (List.getElem?_eq_some_iff.mp hitem).1
  obtain ⟨hle, hlower, hupper⟩ := axisInterval_consistent (hentry i _ _ item
    (List.getElem?_eq_getElem hi) (List.getElem?_eq_getElem (hlen ▸ hi)) hitem)
  have hsource : (0 : K) ≤ (P.source horizontal : ℤ) := by
    unfold source
    split_ifs
    · exact_mod_cast P.seedPlanner.sourceWidth_pos.le
    · exact_mod_cast P.seedPlanner.sourceHeight_pos.le
  rw [hlower, hupper]
  gcongr

end Plan

section Optimal

variable {linprog : Linprog ℝ} {ms : List (FrameMeasurement ℝ)}

/-- A path keeps the limits of its shot: of speed on every interval, of acceleration at every frame,
the rest before and after the shot included. -/
structure WithinLimits (S : Shot ℝ) (c : ℕ → ℝ) : Prop where
  speed : ∀ i, i + 1 < S.frames → |S.velocity c i| ≤ 0.25
  acceleration : ∀ i < S.frames, |S.acceleration c i| ≤ 0.5

/-- **A path within the limits** keeps the optimal path within them, up to the tolerance of the
locks. -/
theorem withinLimits_optimal {L : Set (ℕ → ℝ)} {S : Shot ℝ} {m : ℕ → ℝ} {c path : ℕ → ℝ}
    (hspeed : S.maxSpeed = 0.25) (hacceleration : S.maxAcceleration = 0.5)
    (hmin : IsLexMinima L S.objective m solverFeasibilityTolerance 6) (hc : c ∈ L)
    (hlimits : WithinLimits S c)
    (hpath : ∀ k < 5, S.objective k path ≤ m k + solverFeasibilityTolerance) :
    (∀ i, i + 1 < S.frames → |S.velocity path i| ≤ 0.25 + solverFeasibilityTolerance) ∧
      ∀ i < S.frames, |S.acceleration path i| ≤ 0.5 + solverFeasibilityTolerance := by
  have htol := solverFeasibilityTolerance_nonneg (K := ℝ)
  have h0 : S.objective 0 c ≤ 0 := by
    refine excess_le_iff.mpr ⟨le_rfl, fun i hi => ?_⟩
    rw [hspeed, add_zero]
    exact hlimits.speed i (by omega)
  have h1 : S.objective 1 c ≤ 0 := by
    refine excess_le_iff.mpr ⟨le_rfl, fun i hi => ?_⟩
    rw [hacceleration, add_zero]
    exact hlimits.acceleration i hi
  have hm0 : m 0 ≤ 0 := ((hmin 0 (by omega)).2 ⟨c, ⟨hc, fun j hj => by omega⟩, rfl⟩).trans h0
  have hm0' : 0 ≤ m 0 := by
    obtain ⟨x, -, hx⟩ := (hmin 0 (by omega)).1
    exact hx ▸ excess_nonneg
  have hm1 : m 1 ≤ 0 := by
    refine ((hmin 1 (by omega)).2 ⟨c, ⟨hc, fun j hj => ?_⟩, rfl⟩).trans h1
    obtain rfl : j = 0 := by omega
    exact h0.trans (add_nonneg hm0' htol)
  constructor
  · intro i hi
    have := (excess_le_iff.mp ((hpath 0 (by omega)).trans
      (add_le_of_nonpos_left hm0))).2 i (by omega)
    rwa [hspeed] at this
  · intro i hi
    have := (excess_le_iff.mp ((hpath 1 (by omega)).trans (add_le_of_nonpos_left hm1))).2 i hi
    rwa [hacceleration] at this

/-- **Motion flags.** With an exact optimizer no frame of a plan is flagged if each axis has a legal
path within the limits; and if on some axis every legal path has a speed above the bound, some frame
is flagged. -/
theorem motion_flags (P : LookaheadCropPlanner) (hex : ExactLinprog linprog)
    {plan : CropPlan ℝ (LookaheadPlannerFrameTrace ℝ)} (h : P.plan linprog ms = .ok plan) :
    ∃ (seed : CropPlan ℝ (PlannerFrameTrace ℝ)) (A : Bool → AxisProblem ℝ),
      P.seedPlanner.plan ms = .ok seed ∧
      (∀ horizontal, P.axisProblem seed.crops ms (possible ms seed.crops) (intervals ms) horizontal =
        .ok (A horizontal)) ∧
      ((∀ horizontal, ∃ c ∈ (A horizontal).legalPaths, WithinLimits (A horizontal).shot c) →
        ∀ trace ∈ plan.trace, trace.panSpeedLimitExceeded = false ∧
          trace.panAccelerationLimitExceeded = false) ∧
      ((∃ horizontal, ∀ c ∈ (A horizontal).legalPaths, ∃ i, i + 1 < ms.length ∧
          (0.25 + solverFeasibilityTolerance + 1e-12 : ℝ) < |(A horizontal).shot.velocity c i|) →
        ∃ trace ∈ plan.trace, trace.panSpeedLimitExceeded = true) := by
  rcases eq_or_ne ms [] with rfl | hne
  · -- there is no frame
    rw [plan_nil] at h
    obtain rfl := Except.ok.inj h
    refine ⟨.ofFrames [], fun horizontal => ⟨horizontal, P.source horizontal, [], [], []⟩, rfl,
      axisProblem_nil P, fun _ _ htrace => absurd htrace List.not_mem_nil, ?_⟩
    rintro ⟨_, hall⟩
    obtain ⟨i, hi, -⟩ := hall 0 fun _ _ h => nomatch h
    exact absurd hi (Nat.not_lt_zero _)
  obtain ⟨seed, origins, hseed, hsolved, -, -, hcenters⟩ := plan_solved hne h
  obtain ⟨seed', hseed', hlen, hcrops, htrace, hdts, hpos⟩ := plan_trace hne h
  obtain rfl := Except.ok.inj (hseed.symm.trans hseed')
  have hproblem : ∀ horizontal, ∃ A, P.axisProblem seed.crops ms (possible ms seed.crops)
      (intervals ms) horizontal = .ok A := fun horizontal =>
    (Except.bind_eq_ok.mp (hsolved horizontal)).imp fun _ hA => hA.1
  choose A hA using hproblem
  have hframes : ∀ horizontal, (A horizontal).shot.frames = plan.crops.length := by
    intro horizontal
    obtain ⟨legal, -, hA'⟩ := axisProblem_eq_ok.mp (hA horizontal)
    rw [hA']
    exact hlen.trans hcrops.symm
  have hdt : ∀ horizontal, (A horizontal).shot.dt = vec (intervals ms) := by
    intro horizontal
    obtain ⟨legal, -, hA'⟩ := axisProblem_eq_ok.mp (hA horizontal)
    rw [hA']
    rfl
  have hsame : ∀ horizontal, (A horizontal).shot.dt = (A true).shot.dt := fun horizontal =>
    (hdt horizontal).trans (hdt true).symm
  have hoptimal := fun hn horizontal => hcenters horizontal _ (hA horizontal) ▸
    solveAxis_optimal hex hseed hn (hA horizontal) (hsolved horizontal)
  refine ⟨seed, A, hseed, hA, fun hlimits => ?_, ?_⟩
  · have hwithin := fun hn horizontal =>
      have ⟨c, hc, hlimit⟩ := hlimits horizontal
      withinLimits_optimal rfl rfl (hoptimal hn horizontal).2.1 hc hlimit
        (hoptimal hn horizontal).2.2.1
    intro trace hmem
    rw [htrace] at hmem
    rw [Bool.eq_false_iff, Bool.eq_false_iff]
    constructor
    · intro hflag
      obtain ⟨j, hj, hexceeds⟩ := (traces_speed_flag (hdt true) hdts hcrops hlen).mp
        ⟨trace, hmem, hflag⟩
      have hle := (pathVelocity_le_iff hsame).mpr fun horizontal =>
        (hwithin (by omega) horizontal).1 j ((hframes horizontal).symm ▸ hj)
      exact absurd (hexceeds.trans_le hle) (lt_flagBound _).not_gt
    · intro hflag
      obtain ⟨hn, j, hj, hexceeds⟩ := (traces_acceleration_flag (hdt true) hdts hcrops hlen
        (hframes true) hpos).mp ⟨trace, hmem, hflag⟩
      have hle := (pathAcceleration_le_iff (fun horizontal =>
        (hframes horizontal).trans (hframes true).symm) hsame).mpr fun horizontal =>
          (hwithin (by omega) horizontal).2 j ((hframes horizontal).symm ▸ hj)
      exact absurd (hexceeds.trans_le hle) (lt_flagBound _).not_gt
  · rintro ⟨horizontal, hall⟩
    rcases Nat.lt_or_ge ms.length 2 with hn | hn
    · -- a single frame has a legal path and no interval
      obtain ⟨c, hc⟩ := axisProblem_legalPath hlen (hA horizontal)
      obtain ⟨i, hi, -⟩ := hall c hc
      omega
    · obtain ⟨i, hi, hexceeds⟩ := hall _ (hoptimal hn horizontal).1
      rw [htrace]
      refine (traces_speed_flag (hdt true) hdts hcrops hlen).mpr ⟨i, by omega, ?_⟩
      by_contra hnot
      have hle := (pathVelocity_le_iff hsame).mp (not_lt.mp hnot) horizontal
      exact absurd hexceeds hle.not_gt

theorem motion_flags_hdShot : ∃ plan,
    (⟨DeterministicCropPlanner.hdPlanner⟩ : LookaheadCropPlanner).plan exactLinprog
      DeterministicCropPlanner.hdShot = .ok plan ∧
    ∃ (seed : CropPlan ℝ (PlannerFrameTrace ℝ)) (A : Bool → AxisProblem ℝ),
      (∀ horizontal, (⟨DeterministicCropPlanner.hdPlanner⟩ : LookaheadCropPlanner).axisProblem
        seed.crops DeterministicCropPlanner.hdShot
        (possible DeterministicCropPlanner.hdShot seed.crops)
        (intervals DeterministicCropPlanner.hdShot) horizontal = .ok (A horizontal)) ∧
      ((∀ horizontal, ∃ c ∈ (A horizontal).legalPaths, WithinLimits (A horizontal).shot c) →
        ∀ trace ∈ plan.trace, trace.panSpeedLimitExceeded = false) := by
  obtain ⟨plan, hplan⟩ := plan_exact (P := ⟨DeterministicCropPlanner.hdPlanner⟩)
    DeterministicCropPlanner.hdShot_legal exactLinprog_exact
  obtain ⟨seed, A, -, hA, hquiet, -⟩ := motion_flags
    ⟨DeterministicCropPlanner.hdPlanner⟩ exactLinprog_exact hplan
  exact ⟨plan, hplan, seed, A, hA, fun hlimits trace hmem => (hquiet hlimits trace hmem).1⟩

end Optimal

end LookaheadCropPlanner

end BoulderFrame
