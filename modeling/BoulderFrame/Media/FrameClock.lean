import BoulderFrame.Media.Metadata

/-!
# The times of the frames

A frame has the millisecond that is nearest to its start. Up to a thousand frames per second these
milliseconds increase, and those of the expected frames lie within the video. The frame at a
millisecond is the one that is shown then, so that a millisecond before the start of its frame
gives the frame before.

## Main definitions

* `frameTime`: the millisecond of a frame

## Main results

* `strictMono_frameTime`, `frameTime_le_duration`: the times increase, within the duration
* `frameForTimeMs_timestamp`: the frame at the time of a frame
-/

namespace BoulderFrame.MediaMetadata

/-- The millisecond of a frame. -/
def frameTime (rate : ℚ) (index : ℕ) : ℤ := roundHalfEven ((index * 1000 : ℤ) / rate : ℚ)

theorem timestampForFrame_natCast (m : MediaMetadata) (index : ℕ) :
    m.timestampForFrame index = .ok (frameTime m.frameRate index) :=
  if_neg (Int.natCast_nonneg index).not_gt

variable {rate duration : ℚ} {index : ℕ}

theorem frameTime_eq (rate : ℚ) (index : ℕ) :
    frameTime rate index = roundHalfEven (index * 1000 / rate : ℚ) := by
  rw [frameTime]
  push_cast
  rfl

theorem frameTime_nonneg (hr : 0 < rate) (index : ℕ) : 0 ≤ frameTime rate index := by
  rw [frameTime_eq]
  exact roundHalfEven_nonneg (by positivity)

/-- **The times increase**, up to a thousand frames per second: at exactly a thousand they are not
rounded, and below it two frames are more than a millisecond apart. -/
theorem strictMono_frameTime (hr : 0 < rate) (hle : rate ≤ 1000) : StrictMono (frameTime rate) := by
  refine strictMono_nat_of_lt_succ fun index => ?_
  rw [frameTime_eq, frameTime_eq]
  obtain hlt | rfl := hle.lt_or_eq
  · refine roundHalfEven_lt ?_
    have hstep : 1 < 1000 / rate := (one_lt_div hr).mpr hlt
    have hnext : ((index + 1 : ℕ) : ℚ) * 1000 / rate = index * 1000 / rate + 1000 / rate := by
      push_cast
      ring
    linarith
  · have hwhole : ∀ n : ℕ, (n * 1000 / 1000 : ℚ) = ((n : ℤ) : ℚ) := fun n => by
      push_cast
      ring
    rw [hwhole, hwhole, roundHalfEven_intCast, roundHalfEven_intCast]
    exact_mod_cast Nat.lt_succ_self index

/-- An expected frame starts at least half a frame before the end of the video. -/
theorem start_of_expected (h : (index : ℤ) < roundHalfEven (duration * rate)) :
    (index : ℚ) * 2 + 1 ≤ duration * rate * 2 := by
  have hcount : (index : ℚ) + 1 ≤ roundHalfEven (duration * rate) := by exact_mod_cast h
  linarith [(roundHalfEven_bounds (duration * rate)).2]

/-- **The times of the expected frames** lie within the duration. -/
theorem frameTime_le_duration (hr : 0 < rate)
    (h : (index : ℤ) < roundHalfEven (duration * rate)) :
    frameTime rate index ≤ roundHalfEven (duration * 1000) := by
  rw [frameTime_eq]
  refine roundHalfEven_mono ?_
  rw [div_le_iff₀ hr]
  linarith [start_of_expected h]

/-! ## The frame at the time of a frame -/

/-- A millisecond at or after the start of its frame lies before the start of the next one. -/
theorem floor_frameTime (hr : 0 < rate) (hle : rate ≤ 1000)
    (h : (index * 1000 / rate : ℚ) ≤ frameTime rate index) :
    ⌊(frameTime rate index : ℚ) / 1000 * rate⌋ = index := by
  rw [div_le_iff₀ hr] at h
  have hnear := (roundHalfEven_bounds (index * 1000 / rate : ℚ)).2
  rw [← frameTime_eq, div_mul_eq_mul_div, ← sub_le_iff_le_add, le_div_iff₀ hr] at hnear
  rw [Int.floor_eq_iff]
  push_cast
  constructor <;> linarith

/-- A millisecond before the start of its frame lies after the start of the one before. -/
theorem floor_frameTime_of_lt (hr : 0 < rate) (hle : rate ≤ 1000)
    (h : (frameTime rate index : ℚ) < index * 1000 / rate) :
    ⌊(frameTime rate index : ℚ) / 1000 * rate⌋ = (index : ℤ) - 1 := by
  rw [lt_div_iff₀ hr] at h
  have hnear := (roundHalfEven_bounds (index * 1000 / rate : ℚ)).1
  rw [← frameTime_eq, div_mul_eq_mul_div, div_le_iff₀ hr] at hnear
  rw [Int.floor_eq_iff]
  push_cast
  constructor <;> linarith

section Selected

variable {width height rotation : ℤ} {codec : String} {audio : Option ℤ}

theorem frameForTimeMs_frameTime (hr : 0 < rate) (hle : rate ≤ 1000)
    (hbefore : frameTime rate index < roundHalfEven (duration * 1000)) :
    (probed width height rate duration codec rotation audio).frameForTimeMs
        (frameTime rate index) =
      .ok (if (index * 1000 / rate : ℚ) ≤ frameTime rate index then (index : ℤ)
        else index - 1) := by
  have hnonneg := frameTime_nonneg hr index
  have hpos : (0 : ℚ) ≤ frameTime rate index := by exact_mod_cast hnonneg
  rw [frameForTimeMs, probed, if_neg (not_not.mpr ⟨hnonneg, hbefore⟩),
    truncate_of_nonneg (by positivity)]
  by_cases hstart : (index * 1000 / rate : ℚ) ≤ frameTime rate index
  · rw [if_pos hstart, floor_frameTime hr hle hstart]
  · rw [if_neg hstart, floor_frameTime_of_lt hr hle (not_le.mp hstart)]

/-- **The frame at the time of a frame** is that frame if its time was not rounded down, and
otherwise the frame before. -/
theorem frameForTimeMs_timestamp (hr : 0 < rate) (hle : rate ≤ 1000) {t : ℤ}
    (ht : (probed width height rate duration codec rotation audio).timestampForFrame index = .ok t)
    (hbefore : t < (probed width height rate duration codec rotation audio).durationMs) :
    ((probed width height rate duration codec rotation audio).frameForTimeMs t = .ok index ↔
        (index * 1000 / rate : ℚ) ≤ t) ∧
      ((t : ℚ) < index * 1000 / rate →
        (probed width height rate duration codec rotation audio).frameForTimeMs t =
          .ok (index - 1)) := by
  have hprobed : (probed width height rate duration codec rotation audio).frameRate = rate := rfl
  rw [timestampForFrame_natCast, hprobed] at ht
  obtain rfl := Except.ok.inj ht
  rw [frameForTimeMs_frameTime hr hle hbefore]
  by_cases hstart : (index * 1000 / rate : ℚ) ≤ frameTime rate index
  · rw [if_pos hstart]
    exact ⟨iff_of_true rfl hstart, fun hlt => absurd hstart hlt.not_ge⟩
  · rw [if_neg hstart]
    refine ⟨iff_of_false (fun h => ?_) hstart, fun _ => rfl⟩
    have := Except.ok.inj h
    omega

/-- The second frame of a video at 30 frames per second has the time 33 ms, at which the first one
is shown. -/
theorem frameForTimeMs_timestamp_second :
    ((probed 1920 1080 30 1 "h264" 0 none).frameForTimeMs 33 = .ok ((1 : ℕ) : ℤ) ↔
        (((1 : ℕ) : ℚ) * 1000 / 30 : ℚ) ≤ ((33 : ℤ) : ℚ)) ∧
      (((33 : ℤ) : ℚ) < ((1 : ℕ) : ℚ) * 1000 / 30 →
        (probed 1920 1080 30 1 "h264" 0 none).frameForTimeMs 33 = .ok (((1 : ℕ) : ℤ) - 1)) :=
  frameForTimeMs_timestamp (by norm_num) (by norm_num) (by decide +kernel) (by decide +kernel)

/-- So the time of a frame does not always select it. -/
theorem timestamp_before_frame :
    ¬ ∀ (width height rotation : ℤ) (rate duration : ℚ) (codec : String) (audio : Option ℤ)
      (index : ℕ) (t : ℤ), 0 < rate → rate ≤ 1000 → 0 < duration →
        (index : ℤ) <
          (probed width height rate duration codec rotation audio).expectedFrameCount →
        (probed width height rate duration codec rotation audio).timestampForFrame index = .ok t →
        t < (probed width height rate duration codec rotation audio).durationMs →
          (probed width height rate duration codec rotation audio).frameForTimeMs t =
            .ok index := by
  intro h
  have hselected := h 1920 1080 0 30 1 "h264" none 1 33 (by norm_num) (by norm_num) (by norm_num)
    (by decide +kernel) (by decide +kernel) (by decide +kernel)
  exact absurd hselected (by decide +kernel)

end Selected

end BoulderFrame.MediaMetadata
