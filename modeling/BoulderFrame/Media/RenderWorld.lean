import BoulderFrame.Media.Renderer

/-!
# What a rendering does

While the encoder runs it may change its output, read its pipe, and exit; nothing else changes
files behind the rendering. Every call on the system may fail.

## Main definitions

* `RenderTools`: the source's frames, and what the tools make of a file
* `Encoder`, `RenderWorld`: the encoder's process, and the system
* `RenderWorld.Rely`: what happens between the calls
* `RenderWorld.Step`: what each call may do
* `RenderWorld.Going`: only the encoder's output has changed, and the encoder is known

## Main results

* `RenderWorld.Going.rely`, `RenderWorld.Going.step`: this is kept by every step but the start of
  the encoder and the changes of files
-/

namespace BoulderFrame

open Routine

/-! ## The system -/

/-- The bytes of an image, row by row. -/
def frameBytes (image : Image Bgr) : List UInt8 :=
  (List.range image.height).flatMap fun row => (List.range image.width).flatMap fun column =>
    let pixel := image.pixel row column
    [pixel.blue, pixel.green, pixel.red]

/-- The frames of a source, and what the tools may make of a file or of the bytes of frames. -/
structure RenderTools (Content : Type) where
  resize : Image Bgr → ℤ × ℤ → Except Raised (Option (Image Bgr))
  frames : String → MediaMetadata → List (DecodedFrame (Option (Image Bgr)))
  probes : Content → MediaMetadata → Prop
  decodes : Content → String → Prop
  encodes : List String → List UInt8 → Content → Prop

/-- The encoder's process: what has been written to its pipe, and what it has been delivered. -/
structure Encoder where
  arguments : List String
  inputOpen : Bool
  written : List UInt8
  delivered : List UInt8
  exitCode : Option ℤ

/-- The file that a tool reads: the one after `-i`. -/
def inputPath : List String → Option String
  | "-i" :: path :: _ => some path
  | _ :: rest => inputPath rest
  | [] => none

/-- The file that the encoder writes: its last argument. -/
def outputPath (arguments : List String) : String := arguments.getLastD ""

/-- The system during a rendering: its files, the encoder, what the reader has not yielded yet
(none once it has ended), and whether the removal of a file or a call on the encoder's process has
failed. -/
structure RenderWorld (Content : Type) where
  files : String → Option Content
  encoder : Option Encoder
  reader : Option (List (DecodedFrame (Option (Image Bgr))))
  unlinkFailed : Bool
  signalFailed : Bool

/-- A call on the encoder's process. -/
def RenderEffect.isSignal {K : Type} : RenderEffect K → Bool
  | .wait | .waitTimeout _ | .poll | .terminate | .kill => true
  | _ => false

/-- The calls that may raise without any change, and what they raise. -/
def RenderEffect.mayRaise {K : Type} : RenderEffect K → Raised → Prop
  | .replace .., _ | .openDiagnostic, _ | .popen _, _ | .readDiagnostic, _ | .readFrames .., _
  | .cropAndResize .., _ | .payload _, _ | .inspect _, _ | .run _, _ => True
  | .closeDiagnostic, error => error.isOSError
  | _, _ => False

namespace RenderWorld

variable {K Content : Type} [Field K] [LinearOrder K] [FloorRing K] (tools : RenderTools Content)

/-- The encoder goes on: it may read its pipe, change its output, and exit; if it exits with zero,
its output is made of the bytes that it has been delivered. -/
structure Advances (p p' : Encoder) (files files' : String → Option Content) : Prop where
  arguments : p'.arguments = p.arguments
  inputOpen : p'.inputOpen = p.inputOpen
  written : p'.written = p.written
  delivered : p.delivered <+: p'.delivered ∧ p'.delivered <+: p.written
  files : ∀ path ≠ outputPath p.arguments, files' path = files path
  output : p'.exitCode = some 0 →
    ∀ c ∈ files' (outputPath p.arguments), tools.encodes p.arguments p'.delivered c

/-- Between the calls of the rendering only a running encoder acts. -/
inductive Rely (w : RenderWorld Content) : RenderWorld Content → Prop
  | idle : Rely w w
  | encoder {p p' : Encoder} {files} (hp : w.encoder = some p) (hrun : p.exitCode = none)
    (h : Advances tools p p' w.files files) :
    Rely w { w with files := files, encoder := some p' }

/-- What the calls of a rendering do. -/
inductive Step (w : RenderWorld Content) : (e : RenderEffect K) → e.Answer → RenderWorld Content → Prop
  | raised {e error} (h : e.mayRaise error) : Step w e (.error error) w
  | unlinked {path} :
    Step w (.unlink path) (.ok ()) { w with files := Function.update w.files path none }
  | unlinkFailed {path error} (h : error.isOSError = true) :
    Step w (.unlink path) (.error error) { w with unlinkFailed := true }
  | replaced {source destination c} (h : w.files source = some c) :
    Step w (.replace source destination) (.ok ()) { w with
      files := Function.update (Function.update w.files source none) destination (some c) }
  | openedDiagnostic : Step w .openDiagnostic (.ok ()) w
  | readDiagnostic {text : String} : Step w .readDiagnostic (.ok text) w
  | closedDiagnostic : Step w .closeDiagnostic (.ok ()) w
  | started {arguments} : Step w (.popen arguments) (.ok ())
    { w with encoder := some ⟨arguments, true, [], [], none⟩ }
  | accepted {p : Encoder} {data} {n : ℕ} (hp : w.encoder = some p) (hn : n ≤ data.length) :
    Step w (.writeInput data) (.ok (some (n : ℤ)))
      { w with encoder := some { p with written := p.written ++ data.take n } }
  | refused {data} : Step w (.writeInput data) (.ok none) w
  | writeFailed {p : Encoder} {data error} (n : ℕ) (hp : w.encoder = some p) :
    Step w (.writeInput data) (.error error)
      { w with encoder := some { p with written := p.written ++ data.take n } }
  -- a closed pipe has been flushed, which fails if the encoder has exited before
  | flushed {p : Encoder} (hp : w.encoder = some p) (hopen : p.inputOpen = true)
    (h : p.exitCode = none ∨ p.delivered = p.written) : Step w .closeInput (.ok ())
      { w with encoder := some { p with inputOpen := false, delivered := p.written } }
  | closedBefore {p : Encoder} (hp : w.encoder = some p) (hclosed : p.inputOpen = false) :
    Step w .closeInput (.ok ()) w
  | closeFailed {p : Encoder} {error} (hp : w.encoder = some p) (h : error.isOSError = true) :
    Step w .closeInput (.error error) { w with encoder := some { p with inputOpen := false } }
  | waited {w' : RenderWorld Content} {p : Encoder} {code : ℤ} (hrely : Rely tools w w')
    (hp : w'.encoder = some p) (hexit : p.exitCode = some code) : Step w .wait (.ok code) w'
  | waitedInTime {w' : RenderWorld Content} {p : Encoder} {seconds} {code : ℤ}
    (hrely : Rely tools w w') (hp : w'.encoder = some p) (hexit : p.exitCode = some code) :
    Step w (.waitTimeout seconds) (.ok code) w'
  | timeout {w' : RenderWorld Content} {seconds} (hrely : Rely tools w w') :
    Step w (.waitTimeout seconds) (.error (.other "TimeoutExpired")) w'
  | polled {p : Encoder} (hp : w.encoder = some p) : Step w .poll (.ok p.exitCode) w
  | terminated : Step w .terminate (.ok ()) w
  | killed : Step w .kill (.ok ()) w
  | signalFailed {e error} (he : e.isSignal = true) (h : error.isOSError = true) :
    Step w e (.error error) { w with signalFailed := true }
  | opened {source metadata} : Step w (.readFrames source metadata) (.ok ())
    { w with reader := some (tools.frames source metadata) }
  | next {frame frames} (h : w.reader = some (frame :: frames)) :
    Step w .nextFrame (.ok (some frame)) { w with reader := some frames }
  | ended (h : w.reader = some []) : Step w .nextFrame (.ok none) { w with reader := none }
  | endedBefore (h : w.reader = none) : Step w .nextFrame (.ok none) w
  | readFailed {frames error} (h : w.reader = some frames) :
    Step w .nextFrame (.error error) { w with reader := none }
  | closedReader (h : w.reader = none) : Step w .closeFrames (.ok ()) w
  -- a reader that has not ended cleans up, and may raise
  | closedSuspended {frames a} (h : w.reader = some frames) :
    Step w .closeFrames a { w with reader := none }
  | cropped {pixels crop size image} (h : cropAndResizeFrame tools.resize pixels crop size = .ok image) :
    Step w (.cropAndResize pixels crop size) (.ok image) w
  | viewed {image : Image Bgr} : Step w (.payload image) (.ok (frameBytes image)) w
  | inspected {path c metadata} (hc : w.files path = some c) (h : tools.probes c metadata) :
    Step w (.inspect path) (.ok metadata) w
  | decoded {arguments : List String} {path c report} (hpath : inputPath arguments.tail = some path)
    (hc : w.files path = some c) (h : tools.decodes c report) :
    Step w (.run arguments) (.ok report) w

/-! ## The state of a rendering -/

variable {tools} {files₀ : String → Option Content} {arguments : List String}
  {l l' : RenderVariables} {w w' : RenderWorld Content}

/-- No encoder is running. -/
def Quiet (w : RenderWorld Content) : Prop := ∀ p ∈ w.encoder, p.exitCode.isSome

/-- The encoder of the rendering, if it has been started. Its output is made of what it has been
delivered if it exits with zero, and it has exited if it counts as finished, unless a call on it
has failed. -/
structure Encodes (tools : RenderTools Content) (arguments : List String) (l : RenderVariables)
    (w : RenderWorld Content) (p : Encoder) : Prop where
  encoder : w.encoder = some p
  invoked : p.arguments = arguments
  output : p.exitCode = some 0 →
    ∀ c ∈ w.files (outputPath arguments), tools.encodes arguments p.delivered c
  finished : l.finished = true → p.exitCode.isSome ∨ w.signalFailed = true

/-- During the rendering no other file than the encoder's output changes, which is missing before
the encoder is started. -/
structure Going (tools : RenderTools Content) (files₀ : String → Option Content)
    (arguments : List String) (l : RenderVariables) (w : RenderWorld Content) : Prop where
  files : ∀ path ≠ outputPath arguments, w.files path = files₀ path
  idle : l.started = false → w.Quiet ∧ w.files (outputPath arguments) = none
  process : l.started = true → ∃ p, Encodes tools arguments l w p

theorem Rely.eq_of_quiet (h : Rely tools w w') (hquiet : w.Quiet) : w' = w := by
  cases h with
  | idle => rfl
  | encoder hp hrun =>
    have := hquiet _ hp
    rw [hrun] at this
    cases this

theorem Encodes.rely {p : Encoder} (h : Encodes tools arguments l w p) (hrely : Rely tools w w') :
    ∃ p', Encodes tools arguments l w' p' ∧ p'.written = p.written ∧ p'.inputOpen = p.inputOpen ∧
      ∀ path ≠ outputPath arguments, w'.files path = w.files path := by
  cases hrely with
  | idle => exact ⟨p, h, rfl, rfl, fun _ _ => rfl⟩
  | @encoder q p' files hq hrun hadv =>
    obtain rfl := Option.some.inj (h.encoder.symm.trans hq)
    have hargs := h.invoked
    subst hargs
    refine ⟨p', ⟨rfl, hadv.arguments, hadv.output, fun hfinished => ?_⟩, hadv.written,
      hadv.inputOpen, hadv.files⟩
    rcases h.finished hfinished with hexit | hfailed
    · rw [hrun] at hexit
      cases hexit
    · exact .inr hfailed

/-- **The environment** keeps the state of a rendering. -/
theorem Going.rely (h : Going tools files₀ arguments l w) (hrely : Rely tools w w') :
    Going tools files₀ arguments l w' := by
  cases hstarted : l.started with
  | false =>
    rw [hrely.eq_of_quiet (h.idle hstarted).1]
    exact h
  | true =>
    obtain ⟨p, hp⟩ := h.process hstarted
    obtain ⟨p', hp', -, -, hfiles⟩ := hp.rely hrely
    exact ⟨fun path hpath => (hfiles path hpath).trans (h.files path hpath),
      fun hidle => by simp [hstarted] at hidle, fun _ => ⟨p', hp'⟩⟩

theorem Going.same (h : Going tools files₀ arguments l w) (hfiles : w'.files = w.files)
    (hencoder : w'.encoder = w.encoder) (hfailed : w.signalFailed = true → w'.signalFailed = true) :
    Going tools files₀ arguments l w' := by
  refine ⟨hfiles ▸ h.files, fun hidle => ?_, fun hstarted => ?_⟩
  · rw [Quiet, hencoder, hfiles]
    exact h.idle hidle
  · obtain ⟨p, hp⟩ := h.process hstarted
    exact ⟨p, hencoder ▸ hp.encoder, hp.invoked, hfiles ▸ hp.output, fun hfinished =>
      (hp.finished hfinished).imp_right hfailed⟩

/-- A change of the pipe alone keeps the state of a rendering. -/
theorem Going.pipe {p q : Encoder} (h : Going tools files₀ arguments l w) (hp : w.encoder = some p)
    (harguments : q.arguments = p.arguments) (hexit : q.exitCode = p.exitCode)
    (hdelivered : p.exitCode = some 0 → q.delivered = p.delivered) :
    Going tools files₀ arguments l { w with encoder := some q } := by
  refine ⟨h.files, fun hidle => ⟨?_, (h.idle hidle).2⟩, fun hstarted => ⟨q, ?_⟩⟩
  · rintro _ ⟨⟩
    rw [hexit]
    exact (h.idle hidle).1 p hp
  · obtain ⟨p', hencodes⟩ := h.process hstarted
    obtain rfl := Option.some.inj (hp.symm.trans hencodes.encoder)
    refine ⟨rfl, harguments.trans hencodes.invoked, fun hzero c hc => ?_, fun hfinished => ?_⟩
    · have hzero' := hexit.symm.trans hzero
      rw [hdelivered hzero']
      exact hencodes.output hzero' c hc
    · rw [hexit]
      exact hencodes.finished hfinished

end RenderWorld

/-- A call that neither starts the encoder nor changes a file. -/
def RenderEffect.isNeutral {K : Type} : RenderEffect K → Bool
  | .unlink _ | .replace .. | .popen _ => false
  | _ => true

namespace RenderWorld

variable {K Content : Type} [Field K] [LinearOrder K] [FloorRing K] {tools : RenderTools Content}
  {files₀ : String → Option Content} {arguments : List String} {l : RenderVariables}
  {w w' : RenderWorld Content}

/-- **The other calls** keep the state of a rendering. -/
theorem Going.step {e : RenderEffect K} {a : e.Answer} (h : Going tools files₀ arguments l w)
    (he : e.isNeutral = true) (hstep : Step tools w e a w') : Going tools files₀ arguments l w' := by
  cases hstep with
  | raised | openedDiagnostic | readDiagnostic | closedDiagnostic | refused | closedBefore | polled
  | terminated | killed | endedBefore | closedReader | cropped | viewed | inspected | decoded =>
    exact h
  | unlinked | unlinkFailed | replaced | started => cases he
  | accepted hp hn => exact h.pipe hp rfl rfl fun _ => rfl
  | writeFailed n hp => exact h.pipe hp rfl rfl fun _ => rfl
  | closeFailed hp => exact h.pipe hp rfl rfl fun _ => rfl
  | flushed hp hopen hflush =>
    refine h.pipe hp rfl rfl fun hzero => ?_
    rcases hflush with hrun | hall
    · rw [hrun] at hzero
      cases hzero
    · exact hall.symm
  | waited hrely | waitedInTime hrely | timeout hrely => exact h.rely hrely
  | signalFailed => exact h.same rfl rfl fun _ => rfl
  | opened | next | ended | readFailed | closedSuspended => exact h.same rfl rfl id

end RenderWorld

/-- A rendering among the steps of its encoder. -/
def renderSetting {K Content : Type} [Field K] [LinearOrder K] [FloorRing K]
    (tools : RenderTools Content) :
    Setting (RenderEffect K) RenderEffect.Answer (RenderWorld Content) where
  rely := RenderWorld.Rely tools
  sem e w a w' := RenderWorld.Step tools w e a w'
  guar _ _ := True

end BoulderFrame
