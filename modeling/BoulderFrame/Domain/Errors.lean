import Mathlib.Init

/-!
# Worker failures

## Main definitions

* `ErrorCode`, `WorkerError`: a failure suitable for durable job storage
* `WorkerError.terminal`, `WorkerError.retryable`: failures that end a job, and that do not
* `Raised`: what the worker's code raises
-/

namespace BoulderFrame

inductive ErrorCode
  | invalidTask
  | invalidMedia
  | unsupportedContainer
  | unsupportedVideoCodec
  | unsupportedAudioCodec
  | variableFrameRate
  | missingVideoStream
  | invalidTargetSelection
  | noSelectedAthlete
  | modelUnavailable
  | renderUnavailable
  | invalidOutput
  | storageUnavailable
  | databaseUnavailable
  | internal
  deriving DecidableEq, Repr

def ErrorCode.value : ErrorCode → String
  | .invalidTask => "invalid_task"
  | .invalidMedia => "invalid_media"
  | .unsupportedContainer => "unsupported_container"
  | .unsupportedVideoCodec => "unsupported_video_codec"
  | .unsupportedAudioCodec => "unsupported_audio_codec"
  | .variableFrameRate => "variable_frame_rate"
  | .missingVideoStream => "missing_video_stream"
  | .invalidTargetSelection => "invalid_target_selection"
  | .noSelectedAthlete => "no_selected_athlete"
  | .modelUnavailable => "model_unavailable"
  | .renderUnavailable => "render_unavailable"
  | .invalidOutput => "invalid_output"
  | .storageUnavailable => "storage_unavailable"
  | .databaseUnavailable => "database_unavailable"
  | .internal => "internal"

structure WorkerError where
  code : ErrorCode
  message : String
  transient : Bool
  diagnostic : Option String
  deriving DecidableEq, Repr

/-- `terminal` -/
def WorkerError.terminal (code : ErrorCode) (message : String)
    (diagnostic : Option String) : WorkerError := ⟨code, message, false, diagnostic⟩

/-- `transient` -/
def WorkerError.retryable (code : ErrorCode) (message : String) : WorkerError :=
  ⟨code, message, true, none⟩

/-- What the worker's code raises. -/
inductive Raised
  | worker (error : WorkerError)
  /-- a worker no longer owns a current database lease -/
  | leaseLost (message : String)
  | valueError (message : String)
  /-- any other exception, of a library or of the system, by the name of its class -/
  | other (name : String)
  deriving DecidableEq, Repr

/-- A failure that is suitable for durable job storage. -/
def Raised.isWorker : Raised → Bool
  | .worker _ => true
  | _ => false

end BoulderFrame
