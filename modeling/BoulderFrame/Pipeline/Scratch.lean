import BoulderFrame.Domain.State
import BoulderFrame.Library.JsonFile
import BoulderFrame.Media.RenderedOutput
import BoulderFrame.Pipeline.AnalysisReport
import BoulderFrame.Pipeline.AnalysisTrace
import BoulderFrame.Pipeline.CropPath

/-!
# The scratch directory of an attempt

The handlers of an attempt share a directory. Each of them prepares what it needs and takes over
what an earlier one has left there: the source, its normalized copy, the crop path with its report,
and the rendered output, which a cache file ties to the crop path that it was made of.

## Main definitions

* `ScratchFile`, `ScratchEffect`: the JSON files of an attempt, and the calls on the directory
* `inputs`, `cropPath`, `render`: `_inputs`, `_crop_path` and `_render`
* `validating`, `analyzing`, `rendering`: the handlers of the stages before the upload
-/

namespace BoulderFrame

open Routine

/-- The JSON files of an attempt. -/
inductive ScratchFile
  | cropPath
  | analysisReport
  | analysisTrace
  | renderCache
  deriving DecidableEq, Repr

/-- `_Inputs`, with the paths of the source and of the output. -/
structure PipelineInputs (K : Type) extends ShotInputs K where
  source : PurePath
  output : PurePath

/-- What the handlers of an attempt do on the system, apart from a rendering. -/
inductive ScratchEffect (K Text : Type)
  -- the JSON files, each of which is written under a temporary name
  | isFile (file : ScratchFile)
  | readFile (file : ScratchFile)
  | unlinkFile (file : ScratchFile)
  | unlinkTemporary (file : ScratchFile)
  | writeTemporary (file : ScratchFile) (text : Text)
  | replaceFile (file : ScratchFile)
  -- the media files
  | pathExists (path : String)
  | download (key path : String)
  | inspectSource (path : String) (allowVariableFrameRate : Bool)
  | normalize (source destination : String) (frameRate : ℚ) (audioStreamIndex : Option ℤ)
  | outputProgress (path : String)
  -- the frames of the source are read, detected on, and planned for
  | analyze (inputs : PipelineInputs K)

/-- What the calls answer, if they do not raise. -/
@[reducible] def ScratchEffect.Result {K Text : Type} : ScratchEffect K Text → Type
  | .isFile _ | .pathExists _ => Bool
  | .readFile _ => Text
  | .inspectSource .. => MediaMetadata
  | .analyze _ => ShotAnalysis K
  | _ => Unit

abbrev ScratchEffect.Answer {K Text : Type} (e : ScratchEffect K Text) : Type :=
  Except Raised e.Result

abbrev ScratchRoutine (K Text α : Type) := Routine (RenderEffect K ⊕ ScratchEffect K Text)
  (Sum.elim RenderEffect.Answer ScratchEffect.Answer) Raised Unit α

/-- The job of an attempt: what its record says of the source, and the settings of its
configuration, if they are valid. -/
structure ScratchJob (K : Type) where
  source : Except Raised SourceAsset
  storageKey : String
  sizeBytes : ℤ
  settings : Except Raised (Protocol.TargetSelection K × Protocol.OutputSettings × ℚ)

/-- How the handlers are set up. -/
structure ScratchSettings (K Text : Type) where
  scratch : String
  format : JsonFormat K Text
  textSize : LinesSize K
  floatOfText : String → Option (FloatValue K)
  str : Raised → String
  int : String → Option ℤ
  binary : String
  debugCapture : Bool
  debugMaxFrames : ℤ
  debugMaxBytes : ℤ
  normalizationMaxSourceBytes : ℤ

namespace ProcessingPipeline

variable {K Text α : Type}

/-- A call on the directory. -/
def onScratch (e : ScratchEffect K Text) : ScratchRoutine K Text e.Result := call (.inr e) rfl

/-- A rendering, with variables of its own. -/
def onMedia (m : RenderRoutine K α) : ScratchRoutine K Text α := scope .init (inl m)

variable (settings : ScratchSettings K Text)

/-! ## The JSON files -/

/-- A file is written under a temporary name, which is removed if that fails. -/
def replaceBy (file : ScratchFile) (text : Except Raised Text) : ScratchRoutine K Text Unit := do
  onScratch (.unlinkTemporary file)
  handle (do
      let text ← ofExcept text
      onScratch (.writeTemporary file text)
      onScratch (.replaceFile file)) fun e => do
    onScratch (.unlinkTemporary file)
    raise e

/-- The report of the analysis is written. -/
def writeAnalysisReport (report : Value K) : ScratchRoutine K Text Unit := do
  onScratch (.writeTemporary .analysisReport (settings.format.ofValue report))
  onScratch (.replaceFile .analysisReport)

/-- `_load_analysis_report` -/
def loadAnalysisReport : ScratchRoutine K Text (List (String × Value K)) := do
  let isFile : Bool ← onScratch (.isFile .analysisReport)
  if isFile then do
    let text : Text ← onScratch (.readFile .analysisReport)
    match settings.format.value text with
    | none => raise (.other "JSONDecodeError")
    | some (.dict fields) => pure fields
    | some _ => raise (.other "TypeError")
  else pure []

/-! ## The inputs -/

def sourceOriginal : PurePath := ⟨settings.scratch, "source-original", ""⟩

def sourceNormalized : PurePath := ⟨settings.scratch, "source-cfr", ".mp4"⟩

def outputFile : PurePath := ⟨settings.scratch, "output", ".mp4"⟩

/-- What raises for a video of a variable frame rate. -/
def isVariableFrameRate : Raised → Bool
  | .worker error => decide (error.code = .variableFrameRate)
  | _ => false

/-- A source of a variable frame rate is normalized, unless its copy is there. -/
def normalized (job : ScratchJob K) : ScratchRoutine K Text (PurePath × MediaMetadata) := do
  let original : MediaMetadata ← onScratch (.inspectSource (sourceOriginal settings).text true)
  if settings.normalizationMaxSourceBytes < job.sizeBytes then
    raise (.worker (.terminal .invalidMedia
      "This variable-frame-rate video is too large to normalize." none))
  else do
    let path := (sourceNormalized settings).text
    let there : Bool ← onScratch (.pathExists path)
    (if there then pure ()
      else onScratch (.normalize (sourceOriginal settings).text path original.frameRate
        original.audioStreamIndex))
    let metadata : MediaMetadata ← onScratch (.inspectSource path false)
    pure (sourceNormalized settings, metadata)

/-- `_inputs` -/
def inputs (job : ScratchJob K) : ScratchRoutine K Text (PipelineInputs K) := do
  let _ ← ofExcept job.source
  let (selection, outputSettings, detectionSampleFps) ← ofExcept job.settings
  let path := (sourceOriginal settings).text
  let there : Bool ← onScratch (.pathExists path)
  (if there then pure () else onScratch (.download job.storageKey path))
  let inspected : Option MediaMetadata ← handle (do
      let metadata : MediaMetadata ← onScratch (.inspectSource path false)
      pure (some metadata)) fun e => if isVariableFrameRate e then pure none else raise e
  let (source, metadata) ← match inspected with
    | some metadata => pure (sourceOriginal settings, metadata)
    | none => normalized settings job
  let _ ← ofExcept (metadata.frameForTimeMs selection.frameTimeMs)
  pure ⟨⟨metadata, selection, outputSettings, detectionSampleFps⟩, source, outputFile settings⟩

section CropPath

variable [Field K] [LinearOrder K] [Elementary K]

/-! ## The crop path -/

/-- The trace of an analysis is optional: the file is removed if it cannot be written. -/
def writeDebugTrace (analysis : ShotAnalysis K) : ScratchRoutine K Text Unit :=
  handle (replaceBy .analysisTrace ((writeAnalysisTrace settings.textSize analysis.observations
      analysis.measurements analysis.plan.crops (analysis.plan.trace.map fun t => some (.inr t))
      settings.debugMaxFrames settings.debugMaxBytes).map settings.format.ofLines)) fun
    | .valueError _ => onScratch (.unlinkFile .analysisTrace)
    | e => if e.isOSError then onScratch (.unlinkFile .analysisTrace) else raise e

/-- The frames are analyzed, and what has been planned for them is written. -/
def analyzedCropPath (inputs : PipelineInputs K) :
    ScratchRoutine K Text (List (CropRect (FloatValue K))) := do
  let analysis : ShotAnalysis K ← onScratch (.analyze inputs)
  let report ← ofExcept (analysisReport analysis.observations analysis.measurements
    analysis.plan.crops (some (analysis.plan.trace.map .inr)) inputs.metadata)
  writeAnalysisReport settings report.toValue
  let records ← ofExcept (writeCropPath analysis.observations analysis.plan.crops)
  replaceBy .cropPath (.ok (settings.format.ofLines records))
  (if settings.debugCapture then writeDebugTrace settings analysis else pure ())
  pure (analysis.plan.crops.map readCrop)

/-- `_crop_path` -/
def cropPath (inputs : PipelineInputs K) :
    ScratchRoutine K Text (List (CropRect (FloatValue K))) := do
  let isFile : Bool ← onScratch (.isFile .cropPath)
  if isFile then do
    let text : Text ← onScratch (.readFile .cropPath)
    ofExcept (loadCropPath settings.floatOfText inputs.metadata (settings.format.lines text))
  else analyzedCropPath settings inputs

/-! ## The output -/

/-- What a cache file says of the output. -/
def renderCacheFields (aspectRatio : AspectRatio) (cropPathSha256 : String) :
    List (String × String) :=
  [("aspect_ratio", aspectRatio.value), ("crop_path_sha256", cropPathSha256),
    ("renderer_version", "fixed-output-v1")]

/-- The value is the object of some texts. -/
def isTexts (expected : List (String × String)) : Value K → Bool
  | .dict fields => decide (fields.length = expected.length) &&
      expected.all fun f => ((Value.dict fields).get f.1).isText f.2
  | _ => false

/-- `_render_cache_matches` -/
def renderCacheMatches (expected : List (String × String)) : ScratchRoutine K Text Bool :=
  handle (do
      let text : Text ← onScratch (.readFile .renderCache)
      pure ((settings.format.value text).any (isTexts expected)))
    fun e => if e.isOSError then pure false else raise e

/-- `_write_render_cache` -/
def writeRenderCache (fields : List (String × String)) : ScratchRoutine K Text Unit :=
  replaceBy .renderCache (.ok (settings.format.ofValue (.dict (fields.map fun f => (f.1, .str f.2)))))

/-- The lines of a trace, marked, if they are JSON. -/
def markedTrace (lines : List (JsonLine K)) : Except Raised (List (Value K)) := do
  let records ← lines.mapM fun line => line.mapError jsonRaised
  writeLines settings.textSize settings.debugMaxBytes [] (records.map markRecord)

/-- `_mark_render_validated` -/
def markTrace : ScratchRoutine K Text Unit := do
  let isFile : Bool ← onScratch (.isFile .analysisTrace)
  if isFile then do
    onScratch (.unlinkTemporary .analysisTrace)
    handle (do
        let text : Text ← onScratch (.readFile .analysisTrace)
        let marked ← ofExcept (markedTrace settings (settings.format.lines text))
        onScratch (.writeTemporary .analysisTrace (settings.format.ofLines marked))
        onScratch (.replaceFile .analysisTrace)) fun _ => onScratch (.unlinkTemporary .analysisTrace)
  else pure ()

variable [FloorRing K]

/-- `_render` -/
def render (inputs : PipelineInputs K) : ScratchRoutine K Text MediaMetadata := do
  let crops ← cropPath settings inputs
  let text : Text ← onScratch (.readFile .cropPath)
  let cache := renderCacheFields inputs.outputSettings.aspectRatio (settings.format.sha256 text)
  let there : Bool ← onScratch (.pathExists inputs.output.text)
  let cached ← if there then renderCacheMatches settings cache else pure false
  if cached then do
    let metadata ← onMedia (FFmpegRenderer.validateRenderedOutput settings.int settings.binary
      inputs.output.text inputs.metadata inputs.outputSettings.aspectRatio)
    markTrace settings
    pure metadata
  else do
    onScratch (.unlinkFile .renderCache)
    let rendered ← onMedia (FFmpegRenderer.renderCropPath settings.str settings.int settings.binary
      inputs.source inputs.output crops inputs.metadata inputs.outputSettings.aspectRatio)
    writeRenderCache settings cache
    markTrace settings
    pure rendered

/-! ## The handlers -/

/-- `validating`, whose report is empty. -/
def validating (job : ScratchJob K) : ScratchRoutine K Text (List (String × Value K)) := do
  let _ ← inputs settings job
  pure []

/-- `analyzing` -/
def analyzing (job : ScratchJob K) : ScratchRoutine K Text (List (String × Value K)) := do
  let inputs ← inputs settings job
  let _ ← cropPath settings inputs
  loadAnalysisReport settings

/-- `_log_render_progress`, whose other failures are only logged. -/
def logRenderProgress (inputs : PipelineInputs K) : ScratchRoutine K Text Unit :=
  if settings.debugCapture then do
    let available ← handle (do
        onScratch (.outputProgress inputs.output.text)
        pure true) fun
      | .valueError _ | .worker _ => pure false
      | e => raise e
    if available then do
      let _ ← cropPath settings inputs
      pure ()
    else pure ()
  else pure ()

/-- The report of a handler that has the output. -/
def outputReport (report : List (String × Value K)) (metadata : MediaMetadata) :
    List (String × Value K) :=
  Value.setField report "frames_processed" (.int metadata.expectedFrameCount)

/-- `rendering` -/
def rendering (job : ScratchJob K) : ScratchRoutine K Text (List (String × Value K)) := do
  let inputs ← inputs settings job
  let _ ← render settings inputs
  logRenderProgress settings inputs
  let report ← loadAnalysisReport settings
  pure (outputReport report inputs.metadata)

end CropPath

end ProcessingPipeline

end BoulderFrame
