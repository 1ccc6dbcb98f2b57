import BoulderFrame.Library.Value
import BoulderFrame.Media.Metadata

/-!
# Reading the metadata of a video

The inspector prints a JSON object, which is read field by field. Whatever is not as expected is to
raise a terminal failure. The texts of numbers are read by functions that are given.

## Main definitions

* `NumberTexts`: how the texts of numbers are read
* `inTexts`: membership in a set of texts, of values of any type
* `stream`, `audioStream`, `fraction`, `rotation`, `videoDuration`: the parts of the metadata
* `metadataFromFfprobe`: the metadata of a printed object
-/

namespace BoulderFrame

namespace Ffprobe

variable {K : Type}

/-- The text of a value, and the numbers that texts stand for, if any. -/
structure NumberTexts (K : Type) where
  str : Value K → String
  fraction : String → Option ℚ
  int : String → Option ℤ

/-- The integer that an integer or a truth value is. -/
def asInt : Value K → Option ℤ
  | .bool value => some (if value then 1 else 0)
  | .int value => some value
  | _ => none

/-- Membership in a set of texts; arrays and objects have no hash. -/
def inTexts (v : Value K) (texts : List String) : Except Raised Bool :=
  match v with
  | .list _ => .error (.other "TypeError")
  | .dict _ => .error (.other "TypeError")
  | .str text => .ok (texts.contains text)
  | _ => .ok false

/-- `v in {None, "N/A"}` -/
def unavailable (v : Value K) : Except Raised Bool :=
  if v.isNone then .ok true else inTexts v ["N/A"]

def invalidMedia (message : String) : Raised := .worker (.terminal .invalidMedia message none)

/-! ## The streams -/

/-- The items of an array, and none of any other value. -/
def streams (payload : Value K) : List (Value K) :=
  match payload.get "streams" with
  | .list items => items
  | _ => []

/-- `_stream` -/
def stream (payload : Value K) (codecType : String) : Option (Value K) :=
  (streams payload).find? fun item => (item.get "codec_type").isText codecType

/-- The loop of `_audio_stream`, from an index on. -/
def audioStreamFrom : ℕ → List (Value K) → Except Raised (Option (Value K × ℤ))
  | _, [] => .ok none
  | index, item :: items =>
    if (item.get "codec_type").isText "audio" then
      if (item.get "codec_name").isText "aac" then
        match asInt ((item.field "index").getD (.int index)) with
        | some streamIndex =>
          if 0 ≤ streamIndex then .ok (some (item, streamIndex))
          else .error (invalidMedia "Video audio stream metadata is invalid.")
        | none => .error (invalidMedia "Video audio stream metadata is invalid.")
      else if ¬ (item.get "codec_name").isText "none" then
        .error (.worker (.terminal .unsupportedAudioCodec
          "Only AAC audio is supported when audio is present." none))
      else audioStreamFrom (index + 1) items
    else audioStreamFrom (index + 1) items

/-- `_audio_stream` -/
def audioStream (payload : Value K) : Except Raised (Option (Value K × ℤ)) :=
  audioStreamFrom 0 (streams payload)

/-! ## Rates, durations and rotations -/

section Numbers

variable (texts : NumberTexts K)

/-- `_fraction` -/
def fraction (v : Value K) : Except Raised ℚ :=
  match v with
  | .str text =>
    if text = "0/0" ∨ text = "N/A" then .error (invalidMedia "Video frame rate is invalid.")
    else
      match texts.fraction text with
      | none => .error (invalidMedia "Video frame rate is invalid.")
      | some result =>
        if result ≤ 0 then .error (invalidMedia "Video frame rate is invalid.") else .ok result
  | _ => .error (invalidMedia "Video frame rate is invalid.")

/-- The duration is not given in ticks of a unit. -/
def withoutTicks (video : Value K) : Except Raised Bool := do
  let noTicks ← unavailable (video.get "duration_ts")
  if noTicks then .ok true else unavailable (video.get "time_base")

/-- `_video_duration` -/
def videoDuration (video : Value K) : Except Raised ℚ := do
  let withoutTicks ← withoutTicks video
  let duration := if withoutTicks then texts.fraction (texts.str (video.get "duration")) else do
    let ticks ← texts.fraction (texts.str (video.get "duration_ts"))
    let base ← texts.fraction (texts.str (video.get "time_base"))
    some (ticks * base)
  match duration with
  | none => .error (invalidMedia "Video duration is invalid.")
  | some duration =>
    if duration ≤ 0 then .error (invalidMedia "Video duration is invalid.") else .ok duration

/-- The items over which a value iterates, as far as they may be objects; most values do not
iterate. -/
def iterate : Value K → Except Raised (List (Value K))
  | .list items => .ok items
  | .dict _ => .ok []
  | .str _ => .ok []
  | .bytes _ => .ok []
  | _ => .error (.other "TypeError")

/-- The first rotation in the side data. -/
def sideRotation : List (Value K) → Value K
  | [] => .none
  | item :: items =>
    match item.field "rotation" with
    | some raw => raw
    | none => sideRotation items

/-- The rotation as it is given: a tag, or else side data. -/
def rawRotation (video : Value K) : Except Raised (Value K) :=
  let raw := (video.get "tags").get "rotate"
  if raw.isNone then do
    let items ← iterate ((video.field "side_data_list").getD (.list []))
    .ok (sideRotation items)
  else .ok raw

section Int

variable [Field K] [LinearOrder K] [FloorRing K]

/-- `int(raw)` -/
def toInt : Value K → Except Raised ℤ
  | .bool value => .ok (if value then 1 else 0)
  | .int value => .ok value
  | .float (.finite value) => .ok (truncate value)
  | .float (.infinite _) => .error (.other "OverflowError")
  | .float .nan => .error (.valueError "cannot convert float NaN to integer")
  | .str text =>
    match texts.int text with
    | some value => .ok value
    | none => .error (.valueError "invalid literal for int() with base 10")
  | _ => .error (.other "TypeError")

/-- `_rotation` -/
def rotation (video : Value K) : Except Raised ℤ := do
  let raw ← rawRotation video
  if raw.isNone then .ok 0
  else
    match toInt texts raw with
    | .error (.valueError _) => .error (invalidMedia "Video rotation metadata is invalid.")
    | .error (.other "TypeError") => .error (invalidMedia "Video rotation metadata is invalid.")
    | .error e => .error e
    | .ok degrees =>
      let rotation := degrees % 360
      if rotation ∉ [0, 90, 180, 270] then
        .error (invalidMedia "Video rotation metadata is invalid.")
      else .ok rotation

end Int

/-! ## The metadata -/

/-- The name of the format is a text with one of the two containers. -/
def supportedContainer (payload : Value K) : Bool :=
  match (payload.get "format").get "format_name" with
  | .str name => (name.toList.splitOn ',').any fun part =>
      part == "mp4".toList || part == "mov".toList
  | _ => false

/-- The checks of `metadata_from_ffprobe` before the duration is read: the video stream, its rate
and its size. -/
def checkedVideo (payload : Value K) (allowVariableFrameRate : Bool) :
    Except Raised (Value K × ℚ × ℤ × ℤ) :=
  if ¬ supportedContainer payload then
    .error (.worker (.terminal .unsupportedContainer
      "Only MP4 and QuickTime video files are supported." none))
  else
    match stream payload "video" with
    | none => .error (.worker (.terminal .missingVideoStream
        "The source file has no video stream." none))
    | some video => do
      let supported ← inTexts (video.get "codec_name") ["h264", "hevc"]
      if ¬ supported then
        .error (.worker (.terminal .unsupportedVideoCodec
          "Only H.264 or HEVC video is supported." none))
      else do
        let avgRate ← fraction texts (video.get "avg_frame_rate")
        let realRate ← fraction texts (video.get "r_frame_rate")
        if avgRate ≠ realRate ∧ ¬ allowVariableFrameRate then
          .error (.worker (.terminal .variableFrameRate
            "Variable-frame-rate video is not supported." none))
        else
          match asInt (video.get "width"), asInt (video.get "height") with
          | some width, some height =>
            if width ≤ 0 ∨ height ≤ 0 then
              .error (invalidMedia "Video dimensions are invalid.")
            else .ok (video, avgRate, width, height)
          | _, _ => .error (invalidMedia "Video dimensions are invalid.")

/-- `metadata_from_ffprobe` -/
def metadataFromFfprobe [Field K] [LinearOrder K] [FloorRing K] (payload : Value K)
    (allowVariableFrameRate : Bool) : Except Raised MediaMetadata := do
  let (video, avgRate, width, height) ← checkedVideo texts payload allowVariableFrameRate
  let duration ← videoDuration texts video
  let durationMs := roundHalfEven (duration * 1000)
  let audio ← audioStream payload
  let rotation ← rotation texts video
  return {
    width
    height
    durationMs
    frameRate := avgRate
    videoCodec := texts.str (video.get "codec_name")
    audioCodec := if audio.isSome then some "aac" else none
    rotation
    hasAudio := audio.isSome
    videoDuration := some duration
    audioStreamIndex := audio.map Prod.snd }

end Numbers

end Ffprobe

end BoulderFrame
