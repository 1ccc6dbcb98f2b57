import BoulderFrame.Domain.Errors
import BoulderFrame.Domain.Protocol
import BoulderFrame.Library.Outcome
import BoulderFrame.Library.Rounding
import Mathlib

/-!
# Media metadata and the frame clock

Durations and frame rates are exact rationals; frame indices, milliseconds and the number of
frames come from them by three different roundings. The selected frame lies within the expected
frames exactly when these roundings agree.

## Main definitions

* `MediaMetadata`: the validated metadata of a source video
* `MediaMetadata.probed`: what `metadata_from_ffprobe` returns for the values it accepts
* `MediaMetadata.displayDimensions`, `outputDimensions`: the sizes of source and output frames
* `MediaMetadata.frameForTimeMs`, `MediaMetadata.expectedFrameCount`,
  `MediaMetadata.timestampForFrame`: the frame clock

## Main results

* `MediaMetadata.selected_lt_expected_iff`: when the selected frame is one of the expected frames
-/

namespace BoulderFrame

structure MediaMetadata where
  width : ℤ
  height : ℤ
  durationMs : ℤ
  frameRate : ℚ
  videoCodec : String
  audioCodec : Option String
  rotation : ℤ
  hasAudio : Bool
  videoDuration : Option ℚ
  audioStreamIndex : Option ℤ
  deriving DecidableEq

namespace MediaMetadata

variable (m : MediaMetadata)

/-- The width and height of the frames as they are shown. -/
def displayDimensions : ℤ × ℤ :=
  if m.rotation = 90 ∨ m.rotation = 270 then (m.height, m.width) else (m.width, m.height)

/-- What the inspector has checked of every metadata that it returns. -/
structure Valid : Prop where
  width_pos : 0 < m.width
  height_pos : 0 < m.height
  frameRate_pos : 0 < m.frameRate

variable {m} in
theorem Valid.display_pos (h : m.Valid) :
    0 < m.displayDimensions.1 ∧ 0 < m.displayDimensions.2 := by
  unfold displayDimensions
  split_ifs
  · exact ⟨h.height_pos, h.width_pos⟩
  · exact ⟨h.width_pos, h.height_pos⟩

/-- The frame at a selection time, which must lie inside the video. -/
def frameForTimeMs (frameTimeMs : ℤ) : Except Raised ℤ :=
  if ¬ (0 ≤ frameTimeMs ∧ frameTimeMs < m.durationMs) then
    .error (.worker
      (.terminal .invalidTargetSelection "Target frame time is outside the video." none))
  else .ok (truncate ((frameTimeMs : ℚ) / 1000 * m.frameRate))

/-- A missing or zero video duration falls back to the milliseconds. -/
def expectedFrameCount : ℤ :=
  let fallback : ℚ := m.durationMs / 1000
  let duration := match m.videoDuration with
    | some duration => if duration = 0 then fallback else duration
    | none => fallback
  roundHalfEven (duration * m.frameRate)

def timestampForFrame (index : ℤ) : Except Raised ℤ :=
  if index < 0 then .error (.valueError "frame index must not be negative")
  else .ok (roundHalfEven ((index * 1000 : ℤ) / m.frameRate : ℚ))

variable {m} in
/-- Every frame of a valid source has a timestamp. -/
theorem Valid.timestamp_ok (h : m.Valid) (index : ℕ) :
    ∃ t, m.timestampForFrame index = .ok t ∧ 0 ≤ t := by
  refine ⟨_, if_neg (Int.natCast_nonneg index).not_gt, roundHalfEven_nonneg ?_⟩
  have := h.frameRate_pos
  have : (0 : ℚ) ≤ ((index * 1000 : ℤ) : ℚ) := by exact_mod_cast (by omega : (0 : ℤ) ≤ index * 1000)
  positivity

variable {m} in
/-- The timestamps of a valid source keep the order of its frames. -/
theorem Valid.exists_time (h : m.Valid) : ∃ time : ℕ → ℤ, Monotone time ∧
    ∀ index : ℕ, m.timestampForFrame index = .ok (time index) := by
  refine ⟨fun index => roundHalfEven ((index * 1000 : ℤ) / m.frameRate : ℚ), fun i j hij => ?_,
    fun index => if_neg (Int.natCast_nonneg index).not_gt⟩
  have hrate := h.frameRate_pos
  have hle : ((i * 1000 : ℤ) : ℚ) ≤ ((j * 1000 : ℤ) : ℚ) := by exact_mod_cast (by omega)
  exact roundHalfEven_mono (div_le_div_of_nonneg_right hle hrate.le)

/-- The metadata that `metadata_from_ffprobe` returns, from the values that it has checked. -/
def probed (width height : ℤ) (frameRate videoDuration : ℚ) (videoCodec : String)
    (rotation : ℤ) (audioStreamIndex : Option ℤ) : MediaMetadata where
  width := width
  height := height
  durationMs := roundHalfEven (videoDuration * 1000)
  frameRate := frameRate
  videoCodec := videoCodec
  audioCodec := if audioStreamIndex.isSome then some "aac" else none
  rotation := rotation
  hasAudio := audioStreamIndex.isSome
  videoDuration := some videoDuration
  audioStreamIndex := audioStreamIndex

variable {m} in
theorem frameForTimeMs_nonneg {t i : ℤ} (hr : 0 ≤ m.frameRate)
    (h : m.frameForTimeMs t = .ok i) : 0 ≤ i := by
  unfold frameForTimeMs at h
  obtain ⟨ht, h⟩ := Except.ok_of_guard h
  have ht : 0 ≤ t := (not_not.mp ht).1
  have hnonneg : (0 : ℚ) ≤ (t : ℚ) / 1000 * m.frameRate := by
    have : (0 : ℚ) ≤ t := by exact_mod_cast ht
    positivity
  rw [← Except.ok.inj h, truncate_of_nonneg hnonneg]
  exact Int.floor_nonneg.mpr hnonneg

/-! ## The selected frame -/

section Selected

variable {width height rotation : ℤ} {rate duration : ℚ} {codec : String} {audio : Option ℤ}

theorem probed_expectedFrameCount (hd : 0 < duration) :
    (probed width height rate duration codec rotation audio).expectedFrameCount =
      roundHalfEven (duration * rate) := by
  simp [expectedFrameCount, probed, hd.ne']

/-- An accepted selection time lies before the rounded duration, and its index is a floor. -/
theorem frameForTimeMs_eq_ok {t i : ℤ} (hr : 0 < rate)
    (h : (probed width height rate duration codec rotation audio).frameForTimeMs t = .ok i) :
    0 ≤ t ∧ t < roundHalfEven (duration * 1000) ∧ i = ⌊(t : ℚ) / 1000 * rate⌋ := by
  unfold frameForTimeMs at h
  split_ifs at h with ht
  have hnonneg : (0 : ℚ) ≤ (t : ℚ) / 1000 * rate := by
    have : (0 : ℚ) ≤ t := by exact_mod_cast ht.1
    positivity
  exact ⟨ht.1, ht.2, (Except.ok.inj h).symm.trans (truncate_of_nonneg hnonneg)⟩

/-- The selection time is less than half a millisecond past the end of the video, so its index is
at most one frame past the last whole frame. -/
theorem selected_le_floor {t : ℤ} (ht : t < roundHalfEven (duration * 1000)) (hr : 0 < rate) :
    (t : ℚ) / 1000 * rate < duration * rate := by
  have habs := abs_roundHalfEven_sub_le (duration * 1000)
  have hle : (t : ℚ) + 1 ≤ roundHalfEven (duration * 1000) := by exact_mod_cast ht
  have hlt : (t : ℚ) / 1000 < duration := by
    have := (abs_le.mp (show |(roundHalfEven (duration * 1000) : ℚ) - duration * 1000| ≤ 1 / 2 by
      linarith)).2
    linarith
  exact mul_lt_mul_of_pos_right hlt hr

/-- The selected frame is one of the expected frames exactly when the number of frames was rounded
up, or the selection time lies before the end of the last whole frame. -/
theorem floor_lt_expected_iff {t : ℤ} (ht : t < roundHalfEven (duration * 1000)) (hr : 0 < rate) :
    ⌊(t : ℚ) / 1000 * rate⌋ < roundHalfEven (duration * rate) ↔
      RoundsUp (duration * rate) ∨ (t : ℚ) * rate < 1000 * ⌊duration * rate⌋ := by
  have hlt := selected_le_floor ht hr
  rw [roundHalfEven_eq]
  by_cases hup : RoundsUp (duration * rate)
  · rw [if_pos hup]
    refine iff_of_true ?_ (.inl hup)
    exact Int.lt_add_one_iff.mpr (Int.floor_le_floor hlt.le)
  · rw [if_neg hup, Int.floor_lt, or_iff_right hup, div_mul_eq_mul_div, div_lt_iff₀ (by norm_num)]
    rw [mul_comm (1000 : ℚ)]

/-- **The selected frame** of an accepted selection time is one of the expected frames, and the
detections that were read for exactly the expected frames have an entry for it, if and only if the
number of frames was rounded up or the time lies before the end of the last whole frame. -/
theorem selected_lt_expected_iff (hd : 0 < duration) (hr : 0 < rate) {t i : ℤ}
    (h : (probed width height rate duration codec rotation audio).frameForTimeMs t = .ok i) :
    ((i < (probed width height rate duration codec rotation audio).expectedFrameCount ∧
      ∀ {α : Type} (detections : List α), (detections.length : ℤ) =
          (probed width height rate duration codec rotation audio).expectedFrameCount →
        (0 ≤ i ∧ i.toNat < detections.length)) ↔
      RoundsUp (duration * rate) ∨ (t : ℚ) * rate < 1000 * ⌊duration * rate⌋) := by
  obtain ⟨h0, ht, rfl⟩ := frameForTimeMs_eq_ok hr h
  rw [probed_expectedFrameCount hd, ← floor_lt_expected_iff ht hr]
  refine ⟨fun h => h.1, fun hlt => ⟨hlt, fun detections hlen => ?_⟩⟩
  have hnonneg : (0 : ℚ) ≤ (t : ℚ) / 1000 * rate := by
    have : (0 : ℚ) ≤ t := by exact_mod_cast h0
    positivity
  have := Int.floor_nonneg.mpr hnonneg
  omega

/-- A selection at 105 ms of a video of 0.14 s at 10 frames per second selects the second frame of
one. -/
theorem selected_lt_expected_iff_video :
    ((1 : ℤ) < (probed 1920 1080 10 (14 / 100) "h264" 0 none).expectedFrameCount ∧
      ∀ {α : Type} (detections : List α), (detections.length : ℤ) =
          (probed 1920 1080 10 (14 / 100) "h264" 0 none).expectedFrameCount →
        ((0 : ℤ) ≤ 1 ∧ (1 : ℤ).toNat < detections.length)) ↔
      RoundsUp (14 / 100 * 10 : ℚ) ∨ ((105 : ℤ) : ℚ) * 10 < 1000 * ⌊(14 / 100 * 10 : ℚ)⌋ :=
  selected_lt_expected_iff (by norm_num) (by norm_num) (by decide +kernel)

/-- So an accepted selection does not always select an expected frame. -/
theorem selected_beyond_expected :
    ¬ ∀ (width height rotation : ℤ) (rate duration : ℚ) (codec : String) (audio : Option ℤ)
      (t i : ℤ), 0 < duration → 0 < rate →
        (probed width height rate duration codec rotation audio).frameForTimeMs t = .ok i →
          i < (probed width height rate duration codec rotation audio).expectedFrameCount := by
  intro h
  have := h 1920 1080 0 10 (14 / 100) "h264" none 105 1 (by norm_num) (by norm_num)
    (by decide +kernel)
  exact absurd this (by decide +kernel)

end Selected

end MediaMetadata

/-- `output_dimensions` -/
def outputDimensions : AspectRatio → ℤ × ℤ
  | .landscape => (1920, 1080)
  | .portrait => (1080, 1920)

end BoulderFrame
