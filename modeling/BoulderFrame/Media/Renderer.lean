import BoulderFrame.Media.Process
import Mathlib.Algebra.Order.Floor.Ring

/-!
# The renderer

A video is rendered frame by frame: each frame of the source is cut and resized, and written to the
encoder, which writes a partial file. The partial file takes the place of the output only after the
encoder has finished and the file has been inspected and decoded.

## Main definitions

* `PurePath`, `PurePath.partialPath`: paths, and the path of the partial file
* `validateOutput`, `decodedFrameCount`: the checks of an output and of the report on its decoding
* `FFmpegRenderer.renderCropPath`: the rendering
-/

namespace BoulderFrame

/-! ## Paths -/

/-- A path: its directory, and its last part without and with its suffix. -/
structure PurePath where
  parent : String
  stem : String
  suffix : String

namespace PurePath

def text (path : PurePath) : String := path.parent ++ "/" ++ path.stem ++ path.suffix

/-- `destination.with_name(destination.stem + ".partial" + destination.suffix)` -/
def partialPath (destination : PurePath) : PurePath :=
  { destination with stem := destination.stem ++ ".partial" }

theorem partialPath_ne (destination : PurePath) :
    destination.partialPath.text ≠ destination.text := by
  intro h
  have := congrArg String.length h
  simp only [text, partialPath, String.length_append] at this
  have hlength : (".partial" : String).length = 8 := by rfl
  omega

end PurePath

/-! ## The checks of an output -/

def rejectedOutput (message diagnostic : String) : Raised :=
  .worker (.terminal .invalidOutput message (some diagnostic))

/-- `validate_output` -/
def validateOutput (metadata : MediaMetadata) (aspectRatio : AspectRatio)
    (expectedDurationMs durationToleranceMs : Option ℤ) (sourceHasAudio : Option Bool) :
    Except Raised Unit :=
  let (width, height) := outputDimensions aspectRatio
  if (metadata.width, metadata.height) ≠ (width, height) then
    .error (rejectedOutput "Rendered video dimensions are invalid."
      (s!"expected_dimensions={width}x{height} " ++
        s!"actual_dimensions={metadata.width}x{metadata.height}"))
  else if metadata.videoCodec ≠ "h264" then
    .error (rejectedOutput "Rendered video codec is invalid."
      s!"expected_video_codec=h264 actual_video_codec={metadata.videoCodec}")
  else if metadata.hasAudio ∧ metadata.audioCodec ≠ some "aac" then
    .error (rejectedOutput "Rendered audio codec is invalid."
      ("expected_audio_codec=aac actual_audio_codec=" ++ metadata.audioCodec.getD "None"))
  else if sourceHasAudio = some true ∧ ¬ metadata.hasAudio then
    .error (rejectedOutput "Rendered video audio is missing."
      "source_has_audio=true output_has_audio=false")
  else match expectedDurationMs with
    | none => .ok ()
    | some expected => match durationToleranceMs.filter (0 ≤ ·) with
      | none => .error (.valueError "duration tolerance must be non-negative")
      | some tolerance =>
        if tolerance < |metadata.durationMs - expected| then
          .error (rejectedOutput "Rendered video duration is invalid."
            (s!"expected_duration_ms={expected} actual_duration_ms={metadata.durationMs} " ++
              s!"tolerance_ms={tolerance}"))
        else .ok ()

/-- A line of a progress report changes the count and whether the report has ended. -/
def progressLine (int : String → Option ℤ) (state : Option ℤ × Bool) (line : List Char) :
    Option ℤ × Bool :=
  if '=' ∉ line then state
  else
    let key := line.takeWhile (· ≠ '=')
    let value := (line.dropWhile (· ≠ '=')).tail
    if key = "frame".toList then (int (String.ofList value), state.2)
    else if key = "progress".toList ∧ value = "end".toList then (state.1, true)
    else state

/-- The frame count of a progress report, as `decode` reads it. -/
def decodedFrameCount (int : String → Option ℤ) (report : String) : Except Raised ℤ :=
  match (splitLines report).foldl (progressLine int) (none, false) with
  | (some frameCount, true) =>
    if frameCount < 0 then .error (rejectedOutput "Rendered video could not be decoded."
      "FFmpeg decode progress was incomplete.")
    else .ok frameCount
  | _ => .error (rejectedOutput "Rendered video could not be decoded."
      "FFmpeg decode progress was incomplete.")

/-- `math.ceil(1000 / float(source_metadata.frame_rate))`, of the exact quotient -/
def durationTolerance (K : Type) [Field K] [LinearOrder K] [FloorRing K] (metadata : MediaMetadata) :
    Except Raised ℤ :=
  if metadata.frameRate = 0 then .error (.other "ZeroDivisionError")
  else .ok ⌈(1000 : K) / metadata.frameRate⌉

/-! ## The rendering -/

namespace FFmpegRenderer

open Routine

/-- `error.diagnostic or f"{error.code.value}: {error.message}"` -/
def errorDiagnostic (error : WorkerError) : Option String :=
  orText error.diagnostic (some (error.code.value ++ ": " ++ error.message))

def renderUnavailable (diagnostic : Option String) : Raised :=
  .worker (.terminal .renderUnavailable "Video rendering could not be completed." diagnostic)

def inconsistentRender (diagnostic : Option String) : Raised :=
  .worker (.terminal .invalidMedia "Video frames could not be rendered consistently." diagnostic)

/-- `_render_failure` -/
def renderFailure (error : WorkerError) : Raised := renderUnavailable (errorDiagnostic error)

/-- `str`, of a fraction. -/
def fractionText (q : ℚ) : String :=
  if q.den = 1 then toString q.num else toString q.num ++ "/" ++ toString q.den

/-- `_render_arguments` -/
def renderArguments (binary : String) (source destination : String) (metadata : MediaMetadata)
    (aspectRatio : AspectRatio) : List String :=
  let (outputWidth, outputHeight) := outputDimensions aspectRatio
  let audioInput := match metadata.audioStreamIndex with
    | some _ => ["-noautorotate", "-i", source]
    | none => []
  let audioMapping := match metadata.audioStreamIndex with
    | some index => ["-map", "1:" ++ toString index]
    | none => []
  [binary, "-y", "-f", "rawvideo", "-pix_fmt", "bgr24", "-video_size",
    toString outputWidth ++ "x" ++ toString outputHeight, "-framerate",
    fractionText metadata.frameRate, "-i", "pipe:0"] ++ audioInput ++ ["-map", "0:v:0"] ++
    audioMapping ++ ["-fps_mode:v", "passthrough", "-c:v", "libx264", "-preset", "medium", "-crf",
    "18", "-pix_fmt", "yuv420p", "-c:a", "aac", "-map_metadata", "-1", "-metadata:s:v:0", "rotate=0",
    "-movflags", "+faststart", destination]

/-- The arguments of `decode` -/
def decodeArguments (binary output : String) : List String :=
  [binary, "-v", "error", "-progress", "pipe:1", "-nostats", "-i", output, "-map", "0:v:0", "-map",
    "0:a?", "-f", "null", "-"]

variable {K : Type} (str : Raised → String) (int : String → Option ℤ) (binary : String)

/-- A failure of the encoder's process. -/
def onEncoder (m : RenderRoutine K Unit) : RenderRoutine K Unit :=
  handle m fun
    | .worker error => raise (renderFailure error)
    | e => raise (renderUnavailable (commandDiagnostic (some (str e))))

/-- A failure of the reader of the frames. -/
def onFrames {α : Type} (m : RenderRoutine K α) : RenderRoutine K α :=
  handle m fun
    | .worker error => raise (.worker error)
    | e => raise (inconsistentRender (commandDiagnostic (some (str e))))

/-- A failure of a change of a file. -/
def onFile (m : RenderRoutine K Unit) : RenderRoutine K Unit :=
  handle m fun e =>
    if e.isOSError then raise (renderUnavailable (commandDiagnostic (some (str e)))) else raise e

/-- `memoryview(resized).cast("B")` -/
def framePayload (image : Image Bgr) : RenderRoutine K (List UInt8) :=
  handle (onSystem (.payload image)) fun
    | .valueError _ => raise (inconsistentRender none)
    | .other "TypeError" => raise (inconsistentRender none)
    | e => raise e

/-- The frames from an index on, each cut and written to the encoder. -/
def renderFrames (metadata : MediaMetadata) (aspectRatio : AspectRatio) (index : ℕ) :
    List (CropRect (FloatValue K)) → RenderRoutine K Unit
  | [] => pure ()
  | crop :: crops => do
    match ← onFrames str (onSystem .nextFrame) with
    | none => raise (inconsistentRender none)
    | some frame => do
      if frame.index ≠ index then raise (inconsistentRender none)
      else do
        let timestamp ← ofExcept (metadata.timestampForFrame index)
        if frame.timestampMs ≠ timestamp then raise (inconsistentRender none)
        else do
          let resized ← onSystem (.cropAndResize frame.pixels crop (outputDimensions aspectRatio))
          let payload ← framePayload resized
          onEncoder str (MediaProcess.write str payload)
          renderFrames metadata aspectRatio (index + 1) crops

/-- `decode` -/
def decode (output : String) : RenderRoutine K ℤ := do
  let report ← handle (onSystem (.run (decodeArguments binary output))) fun
    | .worker error => raise (.worker (.terminal .invalidOutput
        "Rendered video could not be decoded." (errorDiagnostic error)))
    | e => raise e
  ofExcept (decodedFrameCount int report)

variable [Field K] [LinearOrder K] [FloorRing K]

/-- `validate_rendered_output` -/
def validateRenderedOutput (output : String) (sourceMetadata : MediaMetadata)
    (aspectRatio : AspectRatio) : RenderRoutine K MediaMetadata := do
  let outputMetadata ← handle (onSystem (.inspect output)) fun
    | .worker error => raise (.worker (.terminal .invalidOutput
        "Rendered video could not be inspected." (errorDiagnostic error)))
    | e => raise e
  let tolerance ← ofExcept (durationTolerance K sourceMetadata)
  ofExcept (validateOutput outputMetadata aspectRatio (some sourceMetadata.durationMs)
    (some tolerance) (some sourceMetadata.hasAudio))
  let actualFrameCount ← decode int binary output
  if actualFrameCount ≠ sourceMetadata.expectedFrameCount then
    raise (rejectedOutput "Rendered video frame count is invalid."
      (s!"expected_frame_count={sourceMetadata.expectedFrameCount} " ++
        s!"actual_frame_count={actualFrameCount}"))
  else pure outputMetadata

/-- The rendering up to its output, without the cleanup. -/
def renderPartial (source : PurePath) (destination : PurePath)
    (cropPath : List (CropRect (FloatValue K))) (sourceMetadata : MediaMetadata)
    (aspectRatio : AspectRatio) : RenderRoutine K MediaMetadata := do
  let partialText := destination.partialPath.text
  onEncoder str (MediaProcess.start str
    (renderArguments binary source.text partialText sourceMetadata aspectRatio))
  onFrames str do
    onSystem (.readFrames source.text sourceMetadata)
    modify fun l => { l with reading := true }
  renderFrames str sourceMetadata aspectRatio 0 cropPath
  match ← onFrames str (onSystem .nextFrame) with
  | some _ => raise (inconsistentRender none)
  | none => do
    onEncoder str (MediaProcess.finish str)
    let outputMetadata ← validateRenderedOutput int binary partialText sourceMetadata aspectRatio
    onFile str (onSystem (.replace partialText destination.text))
    pure outputMetadata

/-- A process that has been started is aborted. -/
def abortStarted : RenderRoutine K Unit := do
  let l ← get
  if l.started then MediaProcess.abort else pure ()

/-- A reader that has been opened is closed. -/
def closeReader : RenderRoutine K Unit := do
  let l ← get
  if l.reading then onSystem .closeFrames else pure ()

/-- `render_crop_path` -/
def renderCropPath (source : PurePath) (destination : PurePath)
    (cropPath : List (CropRect (FloatValue K))) (sourceMetadata : MediaMetadata)
    (aspectRatio : AspectRatio) : RenderRoutine K MediaMetadata := do
  ofExcept (validateCropPath cropPath sourceMetadata aspectRatio)
  let partialText := destination.partialPath.text
  onFile str (onSystem (.unlink partialText))
  ensure (handle
      (renderPartial str int binary source destination cropPath sourceMetadata aspectRatio) fun e => do
    abortStarted
    ignoreOSError (onSystem (.unlink partialText))
    raise e) closeReader

end FFmpegRenderer

end BoulderFrame
