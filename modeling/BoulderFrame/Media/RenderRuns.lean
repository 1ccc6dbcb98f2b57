import BoulderFrame.Media.RenderedOutput

/-!
# A rendering that returns

If the frames of a source can be cut along its crop path, and the tools accept what the encoder makes
of them, then a rendering has a run that returns.

## Main definitions

* `RenderWorld.fed`, `RenderWorld.encoded`: the encoder has been written to, and has finished

## Main results

* `FFmpegRenderer.returns_renderFrames`: the loop over the frames
* `FFmpegRenderer.returns_renderCropPath`: a rendering of such a crop path
-/

namespace BoulderFrame

open Routine RenderWorld

variable {K Content : Type} [Field K] [LinearOrder K] [FloorRing K] {tools : RenderTools Content}
  {arguments : List String} {l : RenderVariables} {w w' : RenderWorld Content}

/-- One call on the system. -/
theorem returns_onSystem {e : RenderEffect K} {a : e.Result} (h : RenderWorld.Step tools w e (.ok a) w') :
    (onSystem e).Returns (renderSetting tools) l w a l w' :=
  .call .idle h rfl

namespace RenderWorld

/-- The encoder has been started and been written the bytes; the reader has frames left. -/
def fed (w : RenderWorld Content) (arguments : List String) (bytes : List UInt8)
    (reader : Option (List (DecodedFrame (Option (Image Bgr))))) : RenderWorld Content :=
  { w with encoder := some ⟨arguments, true, bytes, [], none⟩, reader := reader }

/-- The encoder has been delivered the bytes, has written its output, and has exited with zero. -/
def encoded (w : RenderWorld Content) (arguments : List String) (bytes : List UInt8) (c : Content) :
    RenderWorld Content :=
  { w with
    files := Function.update w.files (outputPath arguments) (some c)
    encoder := some ⟨arguments, false, bytes, bytes, some 0⟩
    reader := none }

end RenderWorld

namespace MediaProcess

variable {str : Raised → String}

theorem returns_start : (start str arguments : RenderRoutine K Unit).Returns (renderSetting tools) l w
    () { l with started := true, finished := false } (w.fed arguments [] w.reader) :=
  .bind (returns_onSystem .openedDiagnostic)
    (.bind (.handle (returns_onSystem .started)) .modify)

/-- The pipe takes all of the data at once. -/
theorem returns_writeAll {p : Encoder} (hp : w.encoder = some p) (data : List UInt8) :
    (writeAll data : RenderRoutine K Unit).Returns (renderSetting tools) l w () l
      { w with encoder := some { p with written := p.written ++ data } } := by
  unfold writeAll
  split_ifs with hdata
  · rw [hdata, List.append_nil, ← hp]
    exact .pure
  · have hlength : ¬ ((data.length : ℤ) ≤ 0) := by
      have := List.length_pos_iff.mpr hdata
      omega
    have hrest : (writeAll (data.drop (data.length : ℤ).toNat) : RenderRoutine K Unit).Returns
        (renderSetting tools) l { w with encoder := some { p with written := p.written ++ data } } ()
        l { w with encoder := some { p with written := p.written ++ data } } := by
      rw [Int.toNat_natCast, List.drop_length]
      unfold writeAll
      exact .pure
    have haccepted : RenderWorld.Step tools w (.writeInput data : RenderEffect K) (.ok (some (data.length : ℤ)))
        { w with encoder := some { p with written := p.written ++ data.take data.length } } :=
      .accepted hp le_rfl
    rw [List.take_length] at haccepted
    refine .bind (returns_onSystem haccepted) ?_
    dsimp only
    rw [if_neg hlength]
    exact hrest

theorem returns_write {p : Encoder} (hp : w.encoder = some p) (hlive : l.finished = false)
    (data : List UInt8) : (write str data : RenderRoutine K Unit).Returns (renderSetting tools) l w ()
      l { w with encoder := some { p with written := p.written ++ data } } := by
  unfold write
  refine .bind .get ?_
  rw [hlive]
  exact .handle (returns_writeAll hp data)

/-- **The encoder finishes** its output of what it has been written. -/
theorem returns_finish {bytes : List UInt8} {c : Content} (hencodes : tools.encodes arguments bytes c)
    (hlive : l.finished = false) :
    (finish str : RenderRoutine K Unit).Returns (renderSetting tools) l (w.fed arguments bytes none) ()
      { l with finished := true } (w.encoded arguments bytes c) := by
  unfold finish
  refine .bind .get ?_
  rw [hlive]
  have hexits : RenderWorld.Rely tools
      { w.fed arguments bytes none with encoder := some ⟨arguments, false, bytes, bytes, none⟩ }
      (w.encoded arguments bytes c) :=
    .encoder rfl rfl ⟨rfl, rfl, rfl, ⟨List.prefix_refl _, List.prefix_refl _⟩,
      fun path hpath => Function.update_of_ne hpath .., fun _ c' hc' => by
        rw [show c' = c from Option.some.inj (hc'.symm.trans (Function.update_self ..))]
        exact hencodes⟩
  refine .bind (.handle (.bind (returns_onSystem (.flushed rfl rfl (.inl rfl))) .pure)) ?_
  have hdiagnostic : RenderWorld.Step tools (w.encoded arguments bytes c)
      (.readDiagnostic : RenderEffect K) (.ok "") (w.encoded arguments bytes c) := .readDiagnostic
  refine .bind (.ensure (.bind (returns_onSystem (.waited hexits rfl rfl))
    (.bind (.bind (returns_onSystem hdiagnostic) .pure) .pure))
    (.bind .modify (.handle (returns_onSystem .closedDiagnostic)))) ?_
  exact .pure

end MediaProcess

namespace FFmpegRenderer

variable {str : Raised → String} {int : String → Option ℤ} {binary : String}
  {source destination : PurePath} {cropPath : List (CropRect (FloatValue K))} {metadata : MediaMetadata}
  {aspectRatio : AspectRatio}

/-- **The frames** are written to the encoder. -/
theorem returns_renderFrames {k : ℕ} {frames : List (DecodedFrame (Option (Image Bgr)))}
    {crops : List (CropRect (FloatValue K))} {images : List (Image Bgr)}
    (h : ShownFrom tools metadata aspectRatio k frames crops images) (hlive : l.finished = false)
    (bytes : List UInt8) :
    (renderFrames str metadata aspectRatio k crops).Returns (renderSetting tools) l
      (w.fed arguments bytes (some frames)) () l
      (w.fed arguments (bytes ++ images.flatMap frameBytes) (some [])) := by
  induction h generalizing bytes with
  | nil =>
    rw [List.flatMap_nil, List.append_nil]
    exact .pure
  | @cons k frame frames crop crops image images hshown _ ih =>
    rw [List.flatMap_cons, ← List.append_assoc]
    unfold renderFrames
    refine .bind (.handle (returns_onSystem (.next rfl))) ?_
    dsimp only
    rw [if_neg (not_not.mpr hshown.index)]
    refine .bind (.ofExcept hshown.timestamp) ?_
    rw [if_neg (not_not.mpr rfl)]
    refine .bind (returns_onSystem (.cropped hshown.image)) ?_
    refine .bind (.handle (returns_onSystem .viewed)) ?_
    exact .bind (.handle (MediaProcess.returns_write rfl hlive _)) (ih (bytes ++ frameBytes image))

theorem returns_validateRenderedOutput {path : String} {c : Content} {output : MediaMetadata}
    (hc : w.files path = some c)
    (h : Validated K tools int metadata aspectRatio c output) :
    (validateRenderedOutput int binary path metadata aspectRatio : RenderRoutine K MediaMetadata).Returns
      (renderSetting tools) l w output l w := by
  obtain ⟨tolerance, htolerance, hvalid⟩ := h.valid
  obtain ⟨report, hreport, hcount⟩ := h.decoded
  unfold validateRenderedOutput
  refine .bind (.handle (returns_onSystem (.inspected hc h.probed))) ?_
  refine .bind (.ofExcept htolerance) (.bind (.ofExcept hvalid) ?_)
  refine .bind (.bind (.handle (returns_onSystem (.decoded (inputPath_decode path) hc hreport)))
    (.ofExcept hcount)) ?_
  rw [if_neg (not_not.mpr rfl)]
  exact .pure

/-- What a rendering leaves that has made the content its output. -/
def rendered (w : RenderWorld Content) (arguments : List String) (destination : PurePath)
    (bytes : List UInt8) (c : Content) : RenderWorld Content :=
  { w with
    files := Function.update (Function.update w.files destination.partialPath.text none)
      destination.text (some c)
    encoder := some ⟨arguments, false, bytes, bytes, some 0⟩
    reader := none }

/-- **The rendering up to its output.** -/
theorem returns_renderPartial {images : List (Image Bgr)} {c : Content} {output : MediaMetadata}
    (hshown : ShownFrom tools metadata aspectRatio 0 (tools.frames source.text metadata) cropPath images)
    (hencodes : tools.encodes (encoderArguments binary source destination metadata aspectRatio)
      (images.flatMap frameBytes) c)
    (hvalidated : Validated K tools int metadata aspectRatio c output) :
    (renderPartial str int binary source destination cropPath metadata aspectRatio).Returns
      (renderSetting tools) .init w output ⟨true, true, true⟩
      (rendered w (encoderArguments binary source destination metadata aspectRatio) destination
        (images.flatMap frameBytes) c) := by
  have hpath : outputPath (encoderArguments binary source destination metadata aspectRatio) =
      destination.partialPath.text := outputPath_renderArguments
  have hc : (w.encoded (encoderArguments binary source destination metadata aspectRatio)
      (images.flatMap frameBytes) c).files destination.partialPath.text = some c := by
    rw [← hpath]
    exact Function.update_self ..
  have hreplaced : rendered w (encoderArguments binary source destination metadata aspectRatio)
      destination (images.flatMap frameBytes) c =
      rendered (w.encoded (encoderArguments binary source destination metadata aspectRatio)
        (images.flatMap frameBytes) c) (encoderArguments binary source destination metadata aspectRatio)
        destination (images.flatMap frameBytes) c := by
    simp only [rendered, RenderWorld.encoded, hpath, Function.update_idem]
  rw [hreplaced]
  unfold renderPartial
  refine .bind (.handle MediaProcess.returns_start) ?_
  refine .bind (.handle (.bind (returns_onSystem .opened) .modify)) ?_
  refine .bind (returns_renderFrames hshown rfl []) ?_
  refine .bind (.handle (returns_onSystem (.ended rfl))) ?_
  refine .bind (.handle (MediaProcess.returns_finish hencodes rfl)) ?_
  refine .bind (returns_validateRenderedOutput hc hvalidated) ?_
  exact .bind (.handle (returns_onSystem (.replaced hc))) .pure

/-- **A rendering returns** if the frames of the source can be cut along its crop path, and the tools
accept what the encoder makes of them. -/
theorem returns_renderCropPath {images : List (Image Bgr)} {c : Content} {output : MediaMetadata}
    (hvalid : validateCropPath cropPath metadata aspectRatio = .ok ())
    (hshown : ShownFrom tools metadata aspectRatio 0 (tools.frames source.text metadata) cropPath images)
    (hencodes : tools.encodes (encoderArguments binary source destination metadata aspectRatio)
      (images.flatMap frameBytes) c)
    (hvalidated : Validated K tools int metadata aspectRatio c output) :
    (renderCropPath str int binary source destination cropPath metadata aspectRatio).Returns
      (renderSetting tools) .init w output ⟨true, true, true⟩
      (rendered w (encoderArguments binary source destination metadata aspectRatio) destination
        (images.flatMap frameBytes) c) := by
  have hunlinked : rendered w (encoderArguments binary source destination metadata aspectRatio)
      destination (images.flatMap frameBytes) c =
      rendered { w with files := Function.update w.files destination.partialPath.text none }
        (encoderArguments binary source destination metadata aspectRatio) destination
        (images.flatMap frameBytes) c := by
    simp only [rendered, Function.update_idem]
  rw [hunlinked]
  unfold renderCropPath
  refine .bind (.ofExcept hvalid) (.bind (.handle (returns_onSystem .unlinked)) ?_)
  refine .ensure (.handle (returns_renderPartial hshown hencodes hvalidated)) ?_
  exact .bind .get (returns_onSystem (.closedReader rfl))

end FFmpegRenderer

end BoulderFrame
