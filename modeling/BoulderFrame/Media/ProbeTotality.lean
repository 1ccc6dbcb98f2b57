import BoulderFrame.Library.Outcome
import BoulderFrame.Media.Probe

/-!
# What the inspector may print

The checks are meant to turn every printed object into usable metadata or a terminal failure. They
do so unless a value of an unexpected type is hashed, iterated or converted, or a video is so short
that its duration or its number of frames is rounded to zero.

## Main definitions

* `Usable`: the metadata are usable
* `Classified`: a terminal failure, or usable metadata
* `Admitted`: the video stream has passed the checks before its duration
* `Mishandled`: the kinds of objects that are neither refused nor usable

## Main results

* `metadataFromFfprobe_classified_iff`: exactly these objects are mishandled
-/

namespace BoulderFrame

namespace Ffprobe

open Except (RaisesOnly)

/-- A failure that ends a job. -/
def Terminal (e : Raised) : Prop := ∃ error, e = .worker error ∧ error.transient = false

theorem terminal_worker (code : ErrorCode) (message : String) :
    Terminal (.worker (.terminal code message none)) := ⟨_, rfl, rfl⟩

theorem not_terminal_other (name : String) : ¬ Terminal (.other name) := by
  rintro ⟨error, h, -⟩
  cases h

/-- The metadata are usable. -/
structure Usable (m : MediaMetadata) : Prop where
  width_pos : 0 < m.width
  height_pos : 0 < m.height
  frameRate_pos : 0 < m.frameRate
  durationMs_pos : 0 < m.durationMs
  expectedFrameCount_pos : 0 < m.expectedFrameCount
  rotation : m.rotation = 0 ∨ m.rotation = 90 ∨ m.rotation = 180 ∨ m.rotation = 270
  audio : m.hasAudio = m.audioStreamIndex.isSome
  audioCodec : m.audioCodec = if m.hasAudio then some "aac" else none

/-- A terminal failure, or usable metadata. -/
structure Classified (result : Except Raised MediaMetadata) : Prop where
  terminal : ∀ e, result = .error e → Terminal e
  usable : ∀ m, result = .ok m → Usable m

variable {K : Type}

/-- Arrays and objects have no hash. -/
def Unhashable : Value K → Prop
  | .list _ => True
  | .dict _ => True
  | _ => False

/-- Numbers, truth values and nothing do not iterate. -/
def Iterates (v : Value K) : Prop := ∃ items, iterate v = .ok items

section Conditions

variable (texts : NumberTexts K) (payload : Value K) (allowVariableFrameRate : Bool)

/-- The video stream has passed the checks before its duration. -/
structure Admitted (video : Value K) (rate : ℚ) : Prop where
  container : supportedContainer payload = true
  found : stream payload "video" = some video
  codec : inTexts (video.get "codec_name") ["h264", "hevc"] = .ok true
  avgRate : fraction texts (video.get "avg_frame_rate") = .ok rate
  realRate : ∃ realRate, fraction texts (video.get "r_frame_rate") = .ok realRate ∧
    (rate = realRate ∨ allowVariableFrameRate = true)
  width : ∃ width, asInt (video.get "width") = some width ∧ 0 < width
  height : ∃ height, asInt (video.get "height") = some height ∧ 0 < height

/-- The objects that are neither refused nor usable: the name of the codec, the duration in ticks or
its unit is an array or object; the side data do not iterate, or have an infinite rotation; or the
video is not longer than half a millisecond, or than half a frame. -/
inductive Mishandled [Field K] [LinearOrder K] [FloorRing K] : Prop
  | codecName {video : Value K} (hcontainer : supportedContainer payload = true)
      (hvideo : stream payload "video" = some video)
      (h : Unhashable (video.get "codec_name"))
  | durationTs {video : Value K} {rate : ℚ}
      (hadmitted : Admitted texts payload allowVariableFrameRate video rate)
      (h : Unhashable (video.get "duration_ts"))
  | timeBase {video : Value K} {rate : ℚ}
      (hadmitted : Admitted texts payload allowVariableFrameRate video rate)
      (hticks : unavailable (video.get "duration_ts") = .ok false)
      (h : Unhashable (video.get "time_base"))
  | sideData {video sideDataList : Value K} {rate duration : ℚ} {audio : Option (Value K × ℤ)}
      (hadmitted : Admitted texts payload allowVariableFrameRate video rate)
      (hduration : videoDuration texts video = .ok duration)
      (haudio : audioStream payload = .ok audio)
      (htag : ((video.get "tags").get "rotate").isNone = true)
      (hside : video.field "side_data_list" = some sideDataList) (h : ¬ Iterates sideDataList)
  | infiniteRotation {video : Value K} {rate duration : ℚ} {audio : Option (Value K × ℤ)}
      {negative : Bool}
      (hadmitted : Admitted texts payload allowVariableFrameRate video rate)
      (hduration : videoDuration texts video = .ok duration)
      (haudio : audioStream payload = .ok audio)
      (hraw : rawRotation video = .ok (.float (.infinite negative)))
  | short {video : Value K} {rate duration : ℚ} {audio : Option (Value K × ℤ)} {degrees : ℤ}
      (hadmitted : Admitted texts payload allowVariableFrameRate video rate)
      (hduration : videoDuration texts video = .ok duration)
      (haudio : audioStream payload = .ok audio)
      (hrotation : rotation texts video = .ok degrees)
      (h : duration * 1000 ≤ 1 / 2 ∨ duration * rate ≤ 1 / 2)

end Conditions

/-! ## The parts -/

section Parts

theorem inTexts_unhashable {v : Value K} (h : Unhashable v) (texts : List String) :
    inTexts v texts = .error (.other "TypeError") := by
  cases v with
  | list => rfl
  | dict => rfl
  | _ => exact absurd h id

theorem inTexts_hashable {v : Value K} (h : ¬ Unhashable v) (texts : List String) :
    ∃ b, inTexts v texts = .ok b := by
  cases v with
  | list => exact absurd trivial h
  | dict => exact absurd trivial h
  | _ => exact ⟨_, rfl⟩

theorem unavailable_unhashable {v : Value K} (h : Unhashable v) :
    unavailable v = .error (.other "TypeError") := by
  cases v with
  | list => rfl
  | dict => rfl
  | _ => exact absurd h id

theorem unavailable_hashable {v : Value K} (h : ¬ Unhashable v) : ∃ b, unavailable v = .ok b := by
  unfold unavailable
  split_ifs
  · exact ⟨_, rfl⟩
  · exact inTexts_hashable h _

theorem iterate_of_not {v : Value K} (h : ¬ Iterates v) :
    iterate v = .error (.other "TypeError") := by
  cases v with
  | list items => exact absurd ⟨items, rfl⟩ h
  | dict => exact absurd ⟨[], rfl⟩ h
  | str => exact absurd ⟨[], rfl⟩ h
  | bytes => exact absurd ⟨[], rfl⟩ h
  | _ => rfl

variable (texts : NumberTexts K)

theorem fraction_raises (v : Value K) : RaisesOnly Terminal (fraction texts v) := by
  cases v with
  | str text =>
    refine .ite (fun _ => .error (terminal_worker _ _)) fun _ => ?_
    split
    · exact .error (terminal_worker _ _)
    · exact .ite (fun _ => .error (terminal_worker _ _)) fun _ => .ok _
  | _ => exact .error (terminal_worker _ _)

variable {texts} in
theorem fraction_pos {v : Value K} {rate : ℚ} (h : fraction texts v = .ok rate) : 0 < rate := by
  cases v with
  | str text =>
    obtain ⟨-, h⟩ := Except.ok_of_guard h
    split at h
    · cases h
    · obtain ⟨hpos, h⟩ := Except.ok_of_guard h
      rw [← Except.ok.inj h]
      exact not_le.mp hpos
  | _ => cases h

theorem audioStreamFrom_raises (items : List (Value K)) (index : ℕ) :
    RaisesOnly Terminal (audioStreamFrom index items) := by
  induction items generalizing index with
  | nil => exact .ok _
  | cons item items ih =>
    unfold audioStreamFrom
    refine .ite (fun _ => ?_) fun _ => ih _
    refine .ite (fun _ => ?_) fun _ => .ite (fun _ => ?_) fun _ => ih _
    · split
      · exact .ite (fun _ => .ok _) fun _ => .error (terminal_worker _ _)
      · exact .error (terminal_worker _ _)
    · exact .error (terminal_worker _ _)

/-! ## The video stream -/

variable {texts} {payload : Value K} {allowVariableFrameRate : Bool}

theorem checkedVideo_eq_ok {video : Value K} {rate : ℚ} {width height : ℤ} :
    checkedVideo texts payload allowVariableFrameRate = .ok (video, rate, width, height) ↔
      Admitted texts payload allowVariableFrameRate video rate ∧
        asInt (video.get "width") = some width ∧ asInt (video.get "height") = some height ∧
        0 < width ∧ 0 < height := by
  constructor
  · intro h
    obtain ⟨hcontainer, h⟩ := Except.ok_of_guard h
    split at h
    · cases h
    · rename_i found hfound
      obtain ⟨supported, hsupported, h⟩ := Except.bind_eq_ok.mp h
      obtain ⟨hcodec, h⟩ := Except.ok_of_guard h
      obtain ⟨avgRate, havg, h⟩ := Except.bind_eq_ok.mp h
      obtain ⟨realRate, hreal, h⟩ := Except.bind_eq_ok.mp h
      obtain ⟨hrates, h⟩ := Except.ok_of_guard h
      split at h
      · rename_i width' height' hwidth hheight
        obtain ⟨hpos, h⟩ := Except.ok_of_guard h
        simp only [Except.ok.injEq, Prod.mk.injEq] at h
        obtain ⟨rfl, rfl, rfl, rfl⟩ := h
        obtain ⟨hwidthPos, hheightPos⟩ := not_or.mp hpos
        rw [not_not.mp hcodec] at hsupported
        refine ⟨⟨not_not.mp hcontainer, hfound, hsupported, havg, ⟨realRate, hreal, ?_⟩,
          ⟨_, hwidth, not_le.mp hwidthPos⟩, ⟨_, hheight, not_le.mp hheightPos⟩⟩, hwidth, hheight,
          not_le.mp hwidthPos, not_le.mp hheightPos⟩
        by_contra hnot
        exact hrates (not_or.mp hnot)
      · cases h
  · rintro ⟨⟨hcontainer, hfound, hcodec, havg, ⟨realRate, hreal, hrates⟩, -, -⟩, hwidth, hheight,
      hwidthPos, hheightPos⟩
    have hagree : ¬ (rate ≠ realRate ∧ ¬ allowVariableFrameRate = true) :=
      fun ⟨hne, hfixed⟩ => hrates.elim hne hfixed
    have hpos : ¬ (width ≤ 0 ∨ height ≤ 0) := not_or.mpr ⟨hwidthPos.not_ge, hheightPos.not_ge⟩
    rw [checkedVideo, if_neg (not_not.mpr hcontainer), hfound]
    simp only [hcodec, havg, hreal, hwidth, hheight, Except.ok_bind, not_true_eq_false, if_false,
      if_neg hagree, if_neg hpos]

/-- A codec that has no hash is all that is not refused. -/
theorem checkedVideo_raises (h : supportedContainer payload = true → ∀ video,
    stream payload "video" = some video → ¬ Unhashable (video.get "codec_name")) :
    RaisesOnly Terminal (checkedVideo texts payload allowVariableFrameRate) := by
  refine .ite (fun _ => .error (terminal_worker _ _)) fun hcontainer => ?_
  split
  · exact .error (terminal_worker _ _)
  · rename_i video hvideo
    obtain ⟨supported, hsupported⟩ :=
      inTexts_hashable (h (not_not.mp hcontainer) video hvideo) ["h264", "hevc"]
    rw [hsupported, Except.ok_bind]
    refine .ite (fun _ => .error (terminal_worker _ _)) fun _ => ?_
    refine .bind (fraction_raises texts _) fun _ _ => .bind (fraction_raises texts _) fun _ _ => ?_
    refine .ite (fun _ => .error (terminal_worker _ _)) fun _ => ?_
    split
    · exact .ite (fun _ => .error (terminal_worker _ _)) fun _ => .ok _
    · exact .error (terminal_worker _ _)

/-! ## The duration -/

theorem withoutTicks_durationTs {video : Value K} (h : Unhashable (video.get "duration_ts")) :
    withoutTicks video = .error (.other "TypeError") := by
  rw [withoutTicks, unavailable_unhashable h]
  rfl

theorem withoutTicks_timeBase {video : Value K}
    (hticks : unavailable (video.get "duration_ts") = .ok false)
    (h : Unhashable (video.get "time_base")) :
    withoutTicks video = .error (.other "TypeError") := by
  rw [withoutTicks, hticks]
  exact unavailable_unhashable h

theorem exists_withoutTicks {video : Value K} (hts : ¬ Unhashable (video.get "duration_ts"))
    (hbase : unavailable (video.get "duration_ts") = .ok false →
      ¬ Unhashable (video.get "time_base")) : ∃ b, withoutTicks video = .ok b := by
  obtain ⟨noTicks, hticks⟩ := unavailable_hashable hts
  rw [withoutTicks, hticks, Except.ok_bind]
  cases noTicks with
  | true => exact ⟨true, rfl⟩
  | false => exact unavailable_hashable (hbase hticks)

theorem videoDuration_raises {video : Value K} (h : ∃ b, withoutTicks video = .ok b) :
    RaisesOnly Terminal (videoDuration texts video) := by
  obtain ⟨b, hb⟩ := h
  unfold videoDuration
  rw [hb, Except.ok_bind]
  dsimp only
  split
  · exact .error (terminal_worker _ _)
  · exact .ite (fun _ => .error (terminal_worker _ _)) fun _ => .ok _

theorem videoDuration_eq_error {video : Value K} {e : Raised} (h : withoutTicks video = .error e) :
    videoDuration texts video = .error e := by
  rw [videoDuration, h, Except.error_bind]

theorem videoDuration_pos {video : Value K} {duration : ℚ}
    (h : videoDuration texts video = .ok duration) : 0 < duration := by
  obtain ⟨withoutTicks, -, h⟩ := Except.bind_eq_ok.mp h
  dsimp only at h
  split at h
  · cases h
  · obtain ⟨hpos, h⟩ := Except.ok_of_guard h
    rw [← Except.ok.inj h]
    exact not_le.mp hpos

/-! ## The rotation -/

section Rotation

variable [Field K] [LinearOrder K] [FloorRing K]

omit [Field K] [LinearOrder K] [FloorRing K] in
theorem rawRotation_of_not {video sideDataList : Value K}
    (htag : ((video.get "tags").get "rotate").isNone = true)
    (hside : video.field "side_data_list" = some sideDataList) (h : ¬ Iterates sideDataList) :
    rawRotation video = .error (.other "TypeError") := by
  unfold rawRotation
  simp only [htag, if_true, hside, Option.getD_some, iterate_of_not h, Except.error_bind]

omit [Field K] [LinearOrder K] [FloorRing K] in
theorem exists_rawRotation {video : Value K}
    (h : ((video.get "tags").get "rotate").isNone = true → ∀ sideDataList,
      video.field "side_data_list" = some sideDataList → Iterates sideDataList) :
    ∃ raw, rawRotation video = .ok raw := by
  unfold rawRotation
  dsimp only
  split_ifs with htag
  · have hiterates : Iterates ((video.field "side_data_list").getD (.list [])) := by
      cases hside : video.field "side_data_list" with
      | none => exact ⟨[], rfl⟩
      | some sideDataList => exact h htag sideDataList hside
    obtain ⟨items, hitems⟩ := hiterates
    exact ⟨_, by rw [hitems, Except.ok_bind]⟩
  · exact ⟨_, rfl⟩

/-- Of the values that are converted, only an infinite number raises what is not handled. -/
theorem rotation_raises {video raw : Value K} (hraw : rawRotation video = .ok raw)
    (h : ∀ negative, raw ≠ .float (.infinite negative)) :
    RaisesOnly Terminal (rotation texts video) := by
  unfold rotation
  rw [hraw, Except.ok_bind]
  refine .ite (fun _ => .ok _) fun _ => ?_
  have hconvert : ∀ e, toInt texts raw = .error e →
      (∃ message, e = .valueError message) ∨ e = .other "TypeError" := by
    intro e he
    cases raw with
    | float x =>
      cases x with
      | finite x => cases he
      | infinite negative => exact absurd rfl (h negative)
      | nan => exact .inl ⟨_, (Except.error.inj he).symm⟩
    | str text =>
      cases hint : texts.int text with
      | some value =>
        rw [toInt, hint] at he
        cases he
      | none =>
        rw [toInt, hint] at he
        exact .inl ⟨_, (Except.error.inj he).symm⟩
    | bool => cases he
    | int => cases he
    | _ => exact .inr (Except.error.inj he).symm
  split
  · exact .error (terminal_worker _ _)
  · exact .error (terminal_worker _ _)
  · rename_i e hvalue htype he
    obtain ⟨message, rfl⟩ | rfl := hconvert e he
    · exact absurd rfl (hvalue message)
    · exact absurd rfl htype
  · exact .ite (fun _ => .error (terminal_worker _ _)) fun _ => .ok _

theorem rotation_infinite {video : Value K} {negative : Bool}
    (hraw : rawRotation video = .ok (.float (.infinite negative))) :
    rotation texts video = .error (.other "OverflowError") := by
  unfold rotation
  rw [hraw]
  rfl

theorem rotation_quarter {video : Value K} {degrees : ℤ}
    (h : rotation texts video = .ok degrees) :
    degrees = 0 ∨ degrees = 90 ∨ degrees = 180 ∨ degrees = 270 := by
  obtain ⟨raw, -, h⟩ := Except.bind_eq_ok.mp h
  split_ifs at h
  · exact .inl (Except.ok.inj h).symm
  · split at h
    · cases h
    · cases h
    · cases h
    · obtain ⟨hquarter, h⟩ := Except.ok_of_guard h
      rw [← Except.ok.inj h]
      simpa only [List.mem_cons, List.not_mem_nil, or_false, not_not] using hquarter

end Rotation

end Parts

/-! ## The whole -/

section Whole

variable [Field K] [LinearOrder K] [FloorRing K] {texts : NumberTexts K} {payload : Value K}
  {allowVariableFrameRate : Bool} {video : Value K} {rate duration : ℚ} {degrees : ℤ}
  {audio : Option (Value K × ℤ)}

/-- The metadata of the values that have been read. -/
def readMetadata (texts : NumberTexts K) (video : Value K) (width height : ℤ) (rate duration : ℚ)
    (audio : Option (Value K × ℤ)) (degrees : ℤ) : MediaMetadata :=
  .probed width height rate duration (texts.str (video.get "codec_name")) degrees
    (audio.map Prod.snd)

/-- **The metadata that are returned** are those of the values that have been read. -/
theorem metadataFromFfprobe_eq_ok {m : MediaMetadata} :
    metadataFromFfprobe texts payload allowVariableFrameRate = .ok m ↔
      ∃ video rate width height duration audio degrees,
        checkedVideo texts payload allowVariableFrameRate = .ok (video, rate, width, height) ∧
        videoDuration texts video = .ok duration ∧ audioStream payload = .ok audio ∧
        rotation texts video = .ok degrees ∧
        m = readMetadata texts video width height rate duration audio degrees := by
  have haudio : ∀ audio : Option (Value K × ℤ), (audio.map Prod.snd).isSome = audio.isSome :=
    fun audio => Option.isSome_map
  simp only [metadataFromFfprobe, Except.bind_eq_ok, Prod.exists, readMetadata,
    MediaMetadata.probed, haudio]
  constructor
  · rintro ⟨video, rate, width, height, hchecked, duration, hduration, audio, hstream, degrees,
      hrotation, hm⟩
    exact ⟨video, rate, width, height, duration, audio, degrees, hchecked, hduration, hstream,
      hrotation, (Except.ok.inj hm).symm⟩
  · rintro ⟨video, rate, width, height, duration, audio, degrees, hchecked, hduration, hstream,
      hrotation, rfl⟩
    exact ⟨video, rate, width, height, hchecked, duration, hduration, audio, hstream, degrees,
      hrotation, rfl⟩

theorem metadataFromFfprobe_eq (payload : Value K) (allowVariableFrameRate : Bool) :
    metadataFromFfprobe texts payload allowVariableFrameRate =
      checkedVideo texts payload allowVariableFrameRate >>= fun checked =>
        videoDuration texts checked.1 >>= fun duration =>
          audioStream payload >>= fun audio =>
            rotation texts checked.1 >>= fun degrees =>
              .ok (readMetadata texts checked.1 checked.2.2.1 checked.2.2.2 checked.2.1 duration
                audio degrees) := by
  have haudio : ∀ audio : Option (Value K × ℤ), (audio.map Prod.snd).isSome = audio.isSome :=
    fun audio => Option.isSome_map
  simp only [metadataFromFfprobe, readMetadata, MediaMetadata.probed, haudio]
  rfl

/-- The metadata that are read are usable, unless something is rounded to zero. -/
theorem usable_readMetadata {width height : ℤ}
    (hadmitted : Admitted texts payload allowVariableFrameRate video rate) (hwidth : 0 < width)
    (hheight : 0 < height) (hduration : videoDuration texts video = .ok duration)
    (hrotation : rotation texts video = .ok degrees) :
    Usable (readMetadata texts video width height rate duration audio degrees) ↔
      ¬ (duration * 1000 ≤ 1 / 2 ∨ duration * rate ≤ 1 / 2) := by
  have hpos := videoDuration_pos hduration
  have hmilliseconds : 0 < roundHalfEven (duration * 1000) ↔ ¬ duration * 1000 ≤ 1 / 2 := by
    rw [roundHalfEven_pos_iff, not_le]
    constructor <;> intro h <;> linarith
  have hframes : 0 < roundHalfEven (duration * rate) ↔ ¬ duration * rate ≤ 1 / 2 := by
    rw [roundHalfEven_pos_iff, not_le]
    constructor <;> intro h <;> linarith
  have hexpected : (readMetadata texts video width height rate duration audio
      degrees).expectedFrameCount = roundHalfEven (duration * rate) :=
    MediaMetadata.probed_expectedFrameCount hpos
  rw [not_or, ← hmilliseconds, ← hframes]
  constructor
  · intro h
    exact ⟨h.durationMs_pos, hexpected ▸ h.expectedFrameCount_pos⟩
  · rintro ⟨hdurationMs, hcount⟩
    exact ⟨hwidth, hheight, fraction_pos hadmitted.avgRate, hdurationMs, hexpected ▸ hcount,
      rotation_quarter hrotation, rfl, rfl⟩

/-- Everything before the metadata are put together. -/
theorem read_of_admitted (hadmitted : Admitted texts payload allowVariableFrameRate video rate) :
    ∃ width height, 0 < width ∧ 0 < height ∧
      metadataFromFfprobe texts payload allowVariableFrameRate =
        videoDuration texts video >>= fun duration =>
          audioStream payload >>= fun audio =>
            rotation texts video >>= fun degrees =>
              .ok (readMetadata texts video width height rate duration audio degrees) := by
  obtain ⟨width, hwidth, hwidthPos⟩ := hadmitted.width
  obtain ⟨height, hheight, hheightPos⟩ := hadmitted.height
  refine ⟨width, height, hwidthPos, hheightPos, ?_⟩
  rw [metadataFromFfprobe_eq,
    checkedVideo_eq_ok.mpr ⟨hadmitted, hwidth, hheight, hwidthPos, hheightPos⟩, Except.ok_bind]

theorem not_classified_other {name : String} : ¬ Classified (.error (.other name)) :=
  fun h => not_terminal_other name (h.terminal _ rfl)

/-- **The objects of the six kinds** are neither refused nor usable. -/
theorem Mishandled.not_classified (h : Mishandled texts payload allowVariableFrameRate) :
    ¬ Classified (metadataFromFfprobe texts payload allowVariableFrameRate) := by
  cases h with
  | codecName hcontainer hvideo h =>
    have hchecked : checkedVideo texts payload allowVariableFrameRate =
        .error (.other "TypeError") := by
      rw [checkedVideo, if_neg (not_not.mpr hcontainer), hvideo]
      dsimp only
      rw [inTexts_unhashable h, Except.error_bind]
    rw [metadataFromFfprobe_eq, hchecked, Except.error_bind]
    exact not_classified_other
  | durationTs hadmitted h =>
    obtain ⟨width, height, -, -, hread⟩ := read_of_admitted hadmitted
    rw [hread, videoDuration_eq_error (withoutTicks_durationTs h), Except.error_bind]
    exact not_classified_other
  | timeBase hadmitted hticks h =>
    obtain ⟨width, height, -, -, hread⟩ := read_of_admitted hadmitted
    rw [hread, videoDuration_eq_error (withoutTicks_timeBase hticks h), Except.error_bind]
    exact not_classified_other
  | sideData hadmitted hduration haudio htag hside h =>
    obtain ⟨width, height, -, -, hread⟩ := read_of_admitted hadmitted
    rw [hread, hduration, Except.ok_bind, haudio, Except.ok_bind, rotation,
      rawRotation_of_not htag hside h, Except.error_bind, Except.error_bind]
    exact not_classified_other
  | infiniteRotation hadmitted hduration haudio hraw =>
    obtain ⟨width, height, -, -, hread⟩ := read_of_admitted hadmitted
    rw [hread, hduration, Except.ok_bind, haudio, Except.ok_bind, rotation_infinite hraw,
      Except.error_bind]
    exact not_classified_other
  | short hadmitted hduration haudio hrotation h =>
    obtain ⟨width, height, hwidth, hheight, hread⟩ := read_of_admitted hadmitted
    rw [hread, hduration, Except.ok_bind, haudio, Except.ok_bind, hrotation, Except.ok_bind]
    intro hclassified
    exact (usable_readMetadata hadmitted hwidth hheight hduration hrotation).mp
      (hclassified.usable _ rfl) h

/-- **All other objects** are refused, or give usable metadata. -/
theorem classified_of_not (h : ¬ Mishandled texts payload allowVariableFrameRate) :
    Classified (metadataFromFfprobe texts payload allowVariableFrameRate) := by
  constructor
  · change RaisesOnly Terminal _
    rw [metadataFromFfprobe_eq]
    refine .bind (checkedVideo_raises fun hcontainer video hvideo hcodec =>
      h (.codecName hcontainer hvideo hcodec)) ?_
    rintro ⟨video, rate, width, height⟩ hchecked
    have hadmitted := (checkedVideo_eq_ok.mp hchecked).1
    have hticks := exists_withoutTicks (fun hts => h (.durationTs hadmitted hts))
      fun hticks hbase => h (.timeBase hadmitted hticks hbase)
    refine .bind (videoDuration_raises hticks) fun duration hduration =>
      .bind (audioStreamFrom_raises _ _) fun audio haudio => ?_
    obtain ⟨raw, hraw⟩ := exists_rawRotation fun htag sideDataList hside => not_not.mp fun hnot =>
      h (.sideData hadmitted hduration haudio htag hside hnot)
    refine .bind (rotation_raises hraw ?_) fun _ _ => .ok _
    rintro negative rfl
    exact h (.infiniteRotation hadmitted hduration haudio hraw)
  · intro m hm
    obtain ⟨video, rate, width, height, duration, audio, degrees, hchecked, hduration, haudio,
      hrotation, rfl⟩ := metadataFromFfprobe_eq_ok.mp hm
    obtain ⟨hadmitted, -, -, hwidth, hheight⟩ := checkedVideo_eq_ok.mp hchecked
    exact (usable_readMetadata hadmitted hwidth hheight hduration hrotation).mpr fun hshort =>
      h (.short hadmitted hduration haudio hrotation hshort)

/-- **The printed objects** are refused with a terminal failure or give usable metadata exactly if
they are of none of the six kinds. -/
theorem metadataFromFfprobe_classified_iff :
    Classified (metadataFromFfprobe texts payload allowVariableFrameRate) ↔
      ¬ Mishandled texts payload allowVariableFrameRate :=
  ⟨fun h hmishandled => hmishandled.not_classified h, classified_of_not⟩

end Whole

/-! ## Three mishandled objects -/

/-- Texts of integers and rates, as far as the objects below have them. -/
def clipTexts : NumberTexts ℚ where
  str
    | .str text => text
    | _ => ""
  fraction text :=
    if text = "30/1" then some 30
    else if text = "0.000400" then some (1 / 2500)
    else if text = "10.000000" then some 10
    else none
  int text := if text = "90" then some 90 else none

/-- A printed object with one video stream, with the given name of its codec, duration and further
fields. -/
def clip (codecName : Value ℚ) (duration : String) (rest : List (String × Value ℚ)) : Value ℚ :=
  .dict [
    ("format", .dict [("format_name", .str "mov,mp4,m4a")]),
    ("streams", .list [.dict ([
      ("codec_type", .str "video"),
      ("codec_name", codecName),
      ("avg_frame_rate", .str "30/1"),
      ("r_frame_rate", .str "30/1"),
      ("width", .int 1920),
      ("height", .int 1080),
      ("duration", .str duration)] ++ rest)])]

/-- The name of a codec in an array, side data that are nothing, and a video of 0.4 ms. -/
theorem metadataFromFfprobe_mishandles :
    ¬ Classified (metadataFromFfprobe clipTexts
      (clip (.list [.str "h264"]) "10.000000" []) false) ∧
    ¬ Classified (metadataFromFfprobe clipTexts
      (clip (.str "h264") "10.000000" [("side_data_list", .none)]) false) ∧
    ¬ Classified (metadataFromFfprobe clipTexts (clip (.str "h264") "0.000400" []) false) := by
  have hcodec : metadataFromFfprobe clipTexts (clip (.list [.str "h264"]) "10.000000" []) false =
      .error (.other "TypeError") := rfl
  have hside : metadataFromFfprobe clipTexts
      (clip (.str "h264") "10.000000" [("side_data_list", .none)]) false =
        .error (.other "TypeError") := rfl
  have hshort : ((metadataFromFfprobe clipTexts (clip (.str "h264") "0.000400" [])
      false).toOption.map (·.durationMs)) = some 0 := by decide +kernel
  refine ⟨?_, ?_, ?_⟩
  · rw [hcodec]
    exact not_classified_other
  · rw [hside]
    exact not_classified_other
  · intro hclassified
    cases hread : metadataFromFfprobe clipTexts (clip (.str "h264") "0.000400" []) false with
    | error e =>
      rw [hread] at hshort
      cases hshort
    | ok m =>
      rw [hread] at hshort
      have hzero : m.durationMs = 0 := Option.some.inj hshort
      have hpos := (hclassified.usable m hread).durationMs_pos
      omega

end Ffprobe

end BoulderFrame
