import BoulderFrame.Analysis.ShotAnalysis
import BoulderFrame.Debug.Sanitize
import BoulderFrame.Library.Routine
import BoulderFrame.Media.PixelCrop
import Mathlib.Data.List.DropRight

/-!
# Media processes

The encoder is a process that reads frames from a pipe and writes a file. Its methods close the
pipe, wait for the process and keep the last lines of its diagnostics; once a process is finished,
its methods do nothing more.

## Main definitions

* `commandDiagnostic`: the last lines of a diagnostic
* `RenderEffect`: what a rendering does on the system
* `MediaProcess.start`, `MediaProcess.write`, `MediaProcess.finish`, `MediaProcess.abort`: the methods
  of a media process
-/

namespace BoulderFrame

/-! ## Diagnostics -/

def isLineBreak (c : Char) : Bool :=
  let code := c.toNat
  (10 ≤ code && code ≤ 13) || (28 ≤ code && code ≤ 30) || code == 0x85 || code == 0x2028 ||
    code == 0x2029

/-- The lines after the characters of a first one, in reverse. -/
def splitLinesFrom (line : List Char) : List Char → List (List Char)
  | [] => if line = [] then [] else [line.reverse]
  | '\r' :: '\n' :: rest => line.reverse :: splitLinesFrom [] rest
  | c :: rest =>
    if isLineBreak c then line.reverse :: splitLinesFrom [] rest else splitLinesFrom (c :: line) rest

/-- `str.splitlines` -/
def splitLines (text : String) : List (List Char) := splitLinesFrom [] text.toList

/-- `_command_diagnostic` -/
def commandDiagnostic (stderr : Option String) : Option String := do
  let text ← stderr
  if text = "" then none
  let lines := ((splitLines text).filter fun line => line.any fun c => !isSpace c).map
    fun line => (line.filter (· ≠ '\x00')).rtake 512
  let diagnostic := (['\n'].intercalate (lines.rtake 16)).rtake 4096
  if diagnostic = [] then none else some (String.ofList diagnostic)

/-- `or`, of a text that may be missing. -/
def orText (text : Option String) (default : Option String) : Option String :=
  (text.filter (· ≠ "")).or default

/-! ## The system -/

/-- The subclasses of `OSError`. -/
def osErrors : List String := ["OSError", "FileNotFoundError", "FileExistsError", "PermissionError",
  "IsADirectoryError", "NotADirectoryError", "InterruptedError", "BlockingIOError",
  "ChildProcessError", "ProcessLookupError", "TimeoutError", "ConnectionError", "BrokenPipeError",
  "ConnectionAbortedError", "ConnectionRefusedError", "ConnectionResetError",
  "UnsupportedOperation"]

def Raised.isOSError : Raised → Bool
  | .other name => osErrors.contains name
  | _ => false

/-- What a rendering does on the system. -/
inductive RenderEffect (K : Type)
  -- `partial.unlink`, `partial.replace`
  | unlink (path : String)
  | replace (source destination : String)
  -- the encoder, with its pipe and its diagnostics
  | openDiagnostic
  | popen (arguments : List String)
  | writeInput (data : List UInt8)
  | closeInput
  | wait
  | waitTimeout (seconds : ℕ)
  | poll
  | terminate
  | kill
  | readDiagnostic
  | closeDiagnostic
  -- the reader of the frames
  | readFrames (source : String) (metadata : MediaMetadata)
  | nextFrame
  | closeFrames
  -- the crop of a frame, and its bytes
  | cropAndResize (pixels : Option (Image Bgr)) (crop : CropRect (FloatValue K)) (size : ℤ × ℤ)
  | payload (image : Image Bgr)
  -- the media tools
  | inspect (path : String)
  | run (arguments : List String)

/-- What the effects answer; each may raise. -/
@[reducible] def RenderEffect.Result {K : Type} : RenderEffect K → Type
  | .writeInput _ => Option ℤ
  | .wait | .waitTimeout _ => ℤ
  | .poll => Option ℤ
  | .readDiagnostic | .run _ => String
  | .nextFrame => Option (DecodedFrame (Option (Image Bgr)))
  | .cropAndResize .. => Image Bgr
  | .payload _ => List UInt8
  | .inspect _ => MediaMetadata
  | _ => Unit

abbrev RenderEffect.Answer {K : Type} (e : RenderEffect K) : Type := Except Raised e.Result

/-- The variables of a rendering: whether its process is there, and finished, and its reader. -/
structure RenderVariables where
  started : Bool
  finished : Bool
  reading : Bool

def RenderVariables.init : RenderVariables := ⟨false, false, false⟩

abbrev RenderRoutine (K : Type) := Routine (RenderEffect K) RenderEffect.Answer Raised RenderVariables

open Routine

variable {K : Type}

/-- One effect on the system. -/
def onSystem (e : RenderEffect K) : RenderRoutine K e.Result := call e rfl

/-- `except OSError: pass` -/
def ignoreOSError (m : RenderRoutine K Unit) : RenderRoutine K Unit :=
  handle m fun e => if e.isOSError then pure () else raise e

/-! ## The methods of a media process -/

namespace MediaProcess

/-- `_read_diagnostic` -/
def readDiagnostic : RenderRoutine K (Option String) := do
  let text ← onSystem .readDiagnostic
  pure (commandDiagnostic (some text))

/-- The process is finished, and its diagnostics are closed. -/
def markFinished : RenderRoutine K Unit := do
  modify fun l => { l with finished := true }
  ignoreOSError (onSystem .closeDiagnostic)

variable (str : Raised → String)

/-- `SubprocessRunner.start` -/
def start (arguments : List String) : RenderRoutine K Unit := do
  onSystem .openDiagnostic
  handle (onSystem (.popen arguments)) fun e =>
    if e = .other "FileNotFoundError" then do
      onSystem .closeDiagnostic
      raise (.worker (.terminal .internal
        ("Required media tool is unavailable: " ++ arguments.headD "" ++ ".") none))
    else if e.isOSError then do
      onSystem .closeDiagnostic
      raise (.worker (.terminal .internal "Media process could not be started."
        (commandDiagnostic (some (str e)))))
    else raise e
  modify fun l => { l with started := true, finished := false }

/-- `_finish_after_failure` -/
def finishAfterFailure : RenderRoutine K (Option String) := do
  ignoreOSError (onSystem .closeInput)
  ensure (handle (do
      let _ ← onSystem .wait
      readDiagnostic) fun e =>
    if e.isOSError then pure (commandDiagnostic (some (str e))) else raise e) markFinished

/-- The pipe takes some of the data at a time. -/
def writeAll (data : List UInt8) : RenderRoutine K Unit :=
  if data = [] then pure ()
  else do
    match ← onSystem (.writeInput data) with
    | none => raise (.other "BrokenPipeError")
    | some written =>
      if written ≤ 0 then raise (.other "BrokenPipeError")
      else writeAll (data.drop written.toNat)
termination_by data.length
decreasing_by
  rename_i hdata hwritten
  have := List.length_pos_iff.mpr hdata
  rw [List.length_drop]
  omega

/-- `_SubprocessMediaProcess.write` -/
def write (data : List UInt8) : RenderRoutine K Unit := do
  let l ← get
  if l.finished then
    raise (.worker (.terminal .invalidMedia "Media process input is unavailable." none))
  else
    handle (writeAll data) fun e =>
      if e.isOSError then do
        let diagnostic ← finishAfterFailure str
        raise (.worker (.terminal .invalidMedia "Media process could not accept input." diagnostic))
      else raise e

/-- `_SubprocessMediaProcess.finish` -/
def finish : RenderRoutine K Unit := do
  let l ← get
  if l.finished then pure ()
  else do
    let closeError ← handle (do
        onSystem .closeInput
        pure none) fun e => if e.isOSError then pure (some e) else raise e
    let (returnCode, diagnostic) ← ensure (do
      let returnCode : ℤ ← onSystem .wait
      let diagnostic ← readDiagnostic
      pure (returnCode, diagnostic)) markFinished
    if returnCode ≠ 0 ∨ closeError.isSome then
      raise (.worker (.terminal .invalidMedia "Media process failed." (orText diagnostic
        (closeError.bind fun e => commandDiagnostic (some (str e))))))
    else pure ()

/-- `_SubprocessMediaProcess.abort` -/
def abort : RenderRoutine K Unit := do
  let l ← get
  if l.finished then pure ()
  else
    ensure (ignoreOSError do
      ignoreOSError (onSystem .closeInput)
      let returnCode : Option ℤ ← onSystem .poll
      if returnCode.isNone then do
        onSystem .terminate
        handle (do
          let _ ← onSystem (.waitTimeout 5)
          pure ()) fun e =>
          if e = .other "TimeoutExpired" then do
            onSystem .kill
            let _ ← onSystem .wait
            pure ()
          else raise e
      else pure ()) markFinished

end MediaProcess

end BoulderFrame
