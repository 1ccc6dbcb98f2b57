import BoulderFrame.Analysis.ShotAnalysis

/-!
# The frames that are sampled

The detector runs on the first frame at or after each tick of a regular clock, and on the selected
frame. The code compares the ticks before a frame and before its predecessor as integer quotients of
an exact fraction, and never computes the time of a tick.

## Main definitions

* `OnGrid`: the frame is sampled, by the times of the ticks
* `detectLoop`: the loop of `detectFrom` with a detector that acts
* `recorded`: a detector whose calls are recorded

## Main results

* `sampledFrame_iff`: the comparison of the quotients finds the frames on the grid
* `detector_calls`: the detector is called once on each of them, in order
-/

namespace BoulderFrame

/-! ## The grid -/

section Grid

/-- All frames are on the grid of no sampling, or of a rate that is not below the frame rate.
Otherwise the selected frame is, and the first frame at or after each tick. -/
def OnGrid (frameRate rate : ℚ) (selected index : ℤ) : Prop :=
  rate = 0 ∨ frameRate ≤ rate ∨ index = selected ∨
    ∃ k : ℕ, IsLeast {i : ℤ | 0 ≤ i ∧ (k : ℚ) / rate ≤ i / frameRate} index

/-- A tick lies after the predecessor of a frame and not after the frame exactly when the whole
parts of their ticks differ. -/
theorem floor_lt_floor_iff {K : Type} [Ring K] [LinearOrder K] [FloorRing K] {x y : K} :
    ⌊x⌋ < ⌊y⌋ ↔ ∃ k : ℤ, x < k ∧ (k : K) ≤ y := by
  constructor
  · intro h
    exact ⟨⌊y⌋, Int.floor_lt.mp h, Int.floor_le y⟩
  · rintro ⟨k, hx, hy⟩
    exact (Int.floor_lt.mpr hx).trans_le (Int.le_floor.mpr hy)

variable {frameRate rate : ℚ} {selected index : ℤ}

/-- The quotient in the code is a whole number of ticks. -/
theorem mul_num_ediv_den (step : ℚ) (i : ℤ) : i * step.num / step.den = ⌊(i : ℚ) * step⌋ := by
  rw [← Rat.floor_intCast_div_natCast]
  congr 1
  rw [Int.cast_mul, mul_div_assoc, Rat.num_div_den]

/-- A frame other than the first one is the first after a tick if the tick lies after its
predecessor. -/
theorem isLeast_tick_iff (hframeRate : 0 < frameRate) (hrate : 0 < rate) (hindex : 0 < index)
    (k : ℕ) : IsLeast {i : ℤ | 0 ≤ i ∧ (k : ℚ) / rate ≤ i / frameRate} index ↔
      ((index - 1 : ℤ) : ℚ) * (rate / frameRate) < k ∧ (k : ℚ) ≤ index * (rate / frameRate) := by
  have hticks : ∀ i : ℤ, (k : ℚ) / rate ≤ i / frameRate ↔ (k : ℚ) ≤ i * (rate / frameRate) := by
    intro i
    rw [div_le_iff₀ hrate, ← mul_div_assoc, div_mul_eq_mul_div]
  have hstep : 0 < rate / frameRate := div_pos hrate hframeRate
  constructor
  · rintro ⟨⟨-, hle⟩, hleast⟩
    refine ⟨not_le.mp fun h => ?_, (hticks index).mp hle⟩
    have := hleast ⟨(by omega : 0 ≤ index - 1), (hticks (index - 1)).mpr h⟩
    omega
  · rintro ⟨hlt, hle⟩
    refine ⟨⟨hindex.le, (hticks index).mpr hle⟩, fun i ⟨_, hi⟩ => ?_⟩
    by_contra! hbefore
    -- an earlier frame is not after the predecessor
    have hcast : (i : ℚ) ≤ ((index - 1 : ℤ) : ℚ) := by exact_mod_cast Int.le_sub_one_of_lt hbefore
    have := mul_le_mul_of_nonneg_right hcast hstep.le
    have := (hticks i).mp hi
    linarith

/-- **The comparison** of the quotients finds the frames on the grid. -/
theorem sampledFrame_iff (hframeRate : 0 < frameRate) (hrate : 0 ≤ rate) (hindex : 0 ≤ index) :
    sampledFrame (rate / frameRate) selected index = true ↔
      OnGrid frameRate rate selected index := by
  unfold sampledFrame OnGrid
  rw [Bool.or_eq_true, Bool.or_eq_true, Bool.or_eq_true, Bool.or_eq_true, decide_eq_true_eq,
    decide_eq_true_eq, decide_eq_true_eq, decide_eq_true_eq, decide_eq_true_eq, Rat.num_eq_zero,
    div_eq_zero_iff, or_iff_left hframeRate.ne', mul_num_ediv_den, mul_num_ediv_den, gt_iff_lt,
    floor_lt_floor_iff]
  have hone : (rate / frameRate).num ≥ (rate / frameRate).den ↔ frameRate ≤ rate := by
    rw [← one_le_div hframeRate, Rat.le_iff]
    simp only [Rat.num_one, Rat.den_one, one_mul, Nat.cast_one, mul_one]
  rw [hone, or_assoc, or_assoc, or_assoc]
  refine or_congr_right' fun hzero => or_congr_right ?_
  have hrate : 0 < rate := lt_of_le_of_ne hrate (Ne.symm hzero)
  have hstep : 0 < rate / frameRate := div_pos hrate hframeRate
  rw [or_left_comm]
  refine or_congr_right ?_
  obtain rfl | hpos := hindex.eq_or_lt
  · -- the first frame is at the first tick
    refine iff_of_true (.inl rfl) ⟨0, ⟨le_rfl, ?_⟩, fun i hi => hi.1⟩
    rw [Nat.cast_zero, zero_div, Int.cast_zero, zero_div]
  · rw [or_iff_right hpos.ne']
    constructor
    · rintro ⟨k, hlt, hle⟩
      have hnonneg : (0 : ℚ) ≤ ((index - 1 : ℤ) : ℚ) * (rate / frameRate) :=
        mul_nonneg (by exact_mod_cast Int.sub_nonneg.mpr hpos) hstep.le
      have hk : 0 ≤ k := by exact_mod_cast (hnonneg.trans_lt hlt).le
      lift k to ℕ using hk
      exact ⟨k, (isLeast_tick_iff hframeRate hrate hpos k).mpr ⟨hlt, hle⟩⟩
    · rintro ⟨k, hk⟩
      exact ⟨k, (isLeast_tick_iff hframeRate hrate hpos k).mp hk⟩

end Grid

/-! ## The calls of the detector -/

section Calls

variable {K Pixels : Type} {m : Type → Type} [Monad m] [MonadExceptOf Raised m]

/-- The loop over the frames, from the given index on, with a detector that acts. -/
def detectLoop (detect : Pixels → m (List (Detection K))) (metadata : MediaMetadata)
    (sampleStep : ℚ) (selectedIndex index : ℤ) :
    List (DecodedFrame Pixels) → m (List (Option (List (Detection K))))
  | [] => pure []
  | frame :: frames => do
    let timestampMs ← ofExcept (metadata.timestampForFrame index)
    if metadata.expectedFrameCount ≤ index ∨ frame.index ≠ index ∨ frame.timestampMs ≠ timestampMs
    then throw inconsistentFrames
    else do
      let detections ← if sampledFrame sampleStep selectedIndex index then
          some <$> detect frame.pixels
        else pure none
      let rest ← detectLoop detect metadata sampleStep selectedIndex (index + 1) frames
      pure (detections :: rest)

/-- What a run makes of the calls recorded before it: its result, and all calls. -/
abbrev Recorded (Pixels : Type) := ExceptT Raised (StateM (List Pixels))

/-- A detector whose calls are recorded. -/
def recorded (detect : Pixels → Except Raised (List (Detection K))) (pixels : Pixels) :
    Recorded Pixels (List (Detection K)) := do
  modify (· ++ [pixels])
  ofExcept (detect pixels)

variable {detect : Pixels → Except Raised (List (Detection K))} {metadata : MediaMetadata}
  {sampleStep : ℚ} {selectedIndex index : ℤ}

/-- The frames that a reader delivers as expected, from the given index on. -/
def Delivered (metadata : MediaMetadata) (index : ℤ) : List (DecodedFrame Pixels) → Prop
  | [] => True
  | frame :: frames => index < metadata.expectedFrameCount ∧ frame.index = index ∧
      metadata.timestampForFrame index = .ok frame.timestampMs ∧
      Delivered metadata (index + 1) frames

/-- The pixels of the sampled frames, in order. -/
def sampledPixels (sampleStep : ℚ) (selectedIndex : ℤ) (frames : List (DecodedFrame Pixels)) :
    List Pixels :=
  (frames.filter fun frame => sampledFrame sampleStep selectedIndex frame.index).map (·.pixels)

/-- The calls are those for some frames in order: for all of them, or until the detector raises. -/
def CalledOn (detect : Pixels → Except Raised (List (Detection K))) (expected calls : List Pixels) :
    Prop :=
  calls = expected ∨ ∃ pixels error, calls.getLast? = some pixels ∧ detect pixels = .error error ∧
    calls <+: expected

/-- A recorded run goes on with the calls made so far. -/
theorem Recorded.run_bind {α β : Type} (x : Recorded Pixels α) (f : α → Recorded Pixels β)
    (calls : List Pixels) : (x >>= f).run.run calls =
      match x.run.run calls with
      | (.ok a, calls) => (f a).run.run calls
      | (.error e, calls) => (.error e, calls) := by
  change (match x.run.run calls with | (r, calls) => (ExceptT.bindCont f r).run calls) = _
  rcases x.run.run calls with ⟨_ | _, _⟩ <;> rfl

theorem recorded_run (pixels : Pixels) (calls : List Pixels) :
    (recorded detect pixels).run.run calls = (detect pixels, calls ++ [pixels]) := by
  rw [recorded, Recorded.run_bind]
  change (ofExcept (detect pixels) : Recorded Pixels _).run.run (calls ++ [pixels]) = _
  cases detect pixels <;> rfl

theorem CalledOn.cons {expected calls : List Pixels} (h : CalledOn detect expected calls)
    (pixels : Pixels) : CalledOn detect (pixels :: expected) (pixels :: calls) := by
  obtain rfl | ⟨last, error, hlast, herror, hpart⟩ := h
  · exact .inl rfl
  · refine .inr ⟨last, error, ?_, herror, List.cons_prefix_cons.mpr ⟨rfl, hpart⟩⟩
    rw [List.getLast?_cons, hlast]
    rfl

variable (detect sampleStep selectedIndex) in
/-- **The recorded loop** has the result of the loop, and calls the detector on the sampled
frames. -/
theorem detectLoop_recorded {frames : List (DecodedFrame Pixels)}
    (hdelivered : Delivered metadata index frames) (calls : List Pixels) :
    ∃ made, (detectLoop (recorded detect) metadata sampleStep selectedIndex index frames).run.run
        calls = (detectFrom detect metadata sampleStep selectedIndex index frames, calls ++ made) ∧
      CalledOn detect (sampledPixels sampleStep selectedIndex frames) made := by
  induction frames generalizing index calls with
  | nil => exact ⟨[], by rw [List.append_nil]; rfl, .inl rfl⟩
  | cons frame frames ih =>
    obtain ⟨hlt, hindex, htimestamp, hdelivered⟩ := hdelivered
    have hexpected : ¬ (metadata.expectedFrameCount ≤ index ∨ index ≠ index ∨
        frame.timestampMs ≠ frame.timestampMs) := by
      rintro (h | h | h)
      · exact hlt.not_ge h
      · exact h rfl
      · exact h rfl
    rw [detectLoop, detectFrom, htimestamp, sampledPixels, List.filter_cons, hindex,
      show (ofExcept (.ok frame.timestampMs) : Recorded Pixels ℤ) = pure frame.timestampMs from rfl,
      pure_bind, Except.ok_bind, if_neg hexpected, if_neg hexpected]
    by_cases hsampled : sampledFrame sampleStep selectedIndex index = true
    · rw [if_pos hsampled, if_pos hsampled, if_pos hsampled, List.map_cons]
      have hcall : (some <$> recorded detect frame.pixels).run.run calls =
          (some <$> detect frame.pixels, calls ++ [frame.pixels]) := by
        rw [← bind_pure_comp, Recorded.run_bind, recorded_run]
        cases detect frame.pixels <;> rfl
      rw [Recorded.run_bind, hcall]
      cases hdetect : detect frame.pixels with
      | error error =>
        exact ⟨[frame.pixels], rfl, .inr ⟨frame.pixels, error, rfl, hdetect,
          List.cons_prefix_cons.mpr ⟨rfl, List.nil_prefix⟩⟩⟩
      | ok sample =>
        obtain ⟨made, hmade, hcalled⟩ := ih hdelivered (calls ++ [frame.pixels])
        refine ⟨frame.pixels :: made, ?_, hcalled.cons frame.pixels⟩
        dsimp only [Except.map_ok_eq]
        rw [Recorded.run_bind, hmade, Except.ok_bind, List.append_assoc, List.singleton_append]
        cases detectFrom detect metadata sampleStep selectedIndex (index + 1) frames <;> rfl
    · rw [if_neg hsampled, if_neg hsampled, if_neg hsampled]
      obtain ⟨made, hmade, hcalled⟩ := ih hdelivered calls
      refine ⟨made, ?_, hcalled⟩
      rw [pure_bind, Except.ok_bind, Recorded.run_bind, hmade]
      cases detectFrom detect metadata sampleStep selectedIndex (index + 1) frames <;> rfl

theorem Delivered.index_nonneg {frames : List (DecodedFrame Pixels)} (hindex : 0 ≤ index)
    (h : Delivered metadata index frames) : ∀ frame ∈ frames, 0 ≤ frame.index := by
  induction frames generalizing index with
  | nil => exact fun _ => nofun
  | cons frame frames ih =>
    obtain ⟨-, hframe, -, h⟩ := h
    intro frame' hmem
    obtain rfl | hmem := List.mem_cons.mp hmem
    · exact hframe ▸ hindex
    · exact ih (by omega) h frame' hmem

theorem CalledOn.eq_of_returns {expected calls : List Pixels} (h : CalledOn detect expected calls)
    (hreturns : ∀ pixels ∈ expected, ∃ sample, detect pixels = .ok sample) : calls = expected := by
  obtain h | ⟨last, error, hlast, herror, hpart⟩ := h
  · exact h
  · obtain ⟨sample, hsample⟩ := hreturns last (hpart.subset (List.mem_of_getLast? hlast))
    rw [hsample] at herror
    cases herror

open Classical in
/-- The pixels of the frames on the grid, in order. -/
noncomputable def gridPixels (frameRate rate : ℚ) (selected : ℤ)
    (frames : List (DecodedFrame Pixels)) : List Pixels :=
  (frames.filter fun frame => OnGrid frameRate rate selected frame.index).map (·.pixels)

theorem sampledPixels_eq (hmetadata : metadata.Valid) {rate : ℚ} (hrate : 0 ≤ rate) (selected : ℤ)
    {frames : List (DecodedFrame Pixels)} (hdelivered : Delivered metadata 0 frames) :
    sampledPixels (rate / metadata.frameRate) selected frames =
      gridPixels metadata.frameRate rate selected frames := by
  classical
  rw [sampledPixels, gridPixels]
  congr 1
  refine List.filter_congr fun frame hframe => ?_
  rw [Bool.eq_iff_iff, decide_eq_true_iff]
  exact sampledFrame_iff hmetadata.frameRate_pos hrate
    (hdelivered.index_nonneg le_rfl frame hframe)

/-- **The detector** is called once on each delivered frame of the grid, in order, and on no other
frame, unless it raises; and another selection changes nothing at the frames that neither selects. -/
theorem detector_calls (hmetadata : metadata.Valid) {rate : ℚ} (hrate : 0 ≤ rate) (selected : ℤ)
    {frames : List (DecodedFrame Pixels)} (hdelivered : Delivered metadata 0 frames)
    (detect : Pixels → Except Raised (List (Detection K))) :
    (∃ calls, (detectLoop (recorded detect) metadata (rate / metadata.frameRate) selected 0
          frames).run.run [] =
        (detectFrom detect metadata (rate / metadata.frameRate) selected 0 frames, calls) ∧
      CalledOn detect (gridPixels metadata.frameRate rate selected frames) calls ∧
      ((∀ frame ∈ frames, ∃ sample, detect frame.pixels = .ok sample) →
        calls = gridPixels metadata.frameRate rate selected frames)) ∧
      ∀ selected' index, index ≠ selected → index ≠ selected' →
        sampledFrame (rate / metadata.frameRate) selected' index =
          sampledFrame (rate / metadata.frameRate) selected index := by
  obtain ⟨calls, hrun, hcalled⟩ :=
    detectLoop_recorded detect (rate / metadata.frameRate) selected hdelivered []
  rw [sampledPixels_eq hmetadata hrate selected hdelivered] at hcalled
  refine ⟨⟨calls, hrun, hcalled, fun hreturns => ?_⟩, fun selected' index h h' => ?_⟩
  · refine hcalled.eq_of_returns fun pixels hpixels => ?_
    obtain ⟨frame, hframe, rfl⟩ := List.mem_map.mp hpixels
    exact hreturns frame (List.mem_filter.mp hframe).1
  · unfold sampledFrame
    rw [decide_eq_false h, decide_eq_false h']

/-- At 4 of 10 frames per second the first of three frames is sampled, and the selected one. -/
theorem detector_calls_threeFrames :
    ((detectLoop (recorded fun _ : ℕ => .ok ([] : List (Detection ℚ)))
      (MediaMetadata.probed 1920 1080 10 (3 / 10) "h264" 0 none) (4 / 10) 1 0
      [⟨0, 0, 0⟩, ⟨1, 100, 1⟩, ⟨2, 200, 2⟩]).run.run []).2 = [0, 1] := by
  have hmetadata : (MediaMetadata.probed 1920 1080 10 (3 / 10) "h264" 0 none).Valid :=
    ⟨by decide, by decide, by decide +kernel⟩
  have hdelivered : Delivered (MediaMetadata.probed 1920 1080 10 (3 / 10) "h264" 0 none) 0
      [⟨0, 0, (0 : ℕ)⟩, ⟨1, 100, 1⟩, ⟨2, 200, 2⟩] :=
    ⟨by decide +kernel, rfl, by decide +kernel, by decide +kernel, rfl, by decide +kernel,
      by decide +kernel, rfl, by decide +kernel, trivial⟩
  have hrate : (0 : ℚ) ≤ 4 := by norm_num
  obtain ⟨⟨calls, hrun, -, hcalls⟩, -⟩ := detector_calls hmetadata hrate 1 hdelivered
    fun _ : ℕ => .ok ([] : List (Detection ℚ))
  have hgrid := (sampledPixels_eq hmetadata hrate 1 hdelivered).symm
  calc _ = calls := congrArg Prod.snd hrun
    _ = _ := hcalls fun _ _ => ⟨[], rfl⟩
    _ = _ := hgrid
    _ = [0, 1] := by decide +kernel

end Calls

end BoulderFrame
