import BoulderFrame.Media.ProcessRuns

/-!
# The output of a rendering

A rendering either replaces its output by a file that has been made of all frames, inspected and
decoded, or it leaves the output alone and cleans up.

## Main definitions

* `Shown`, `Played`: an image is that of a frame with its crop, and images are those of all frames
* `Validated`: a file has passed the checks of an output
* `RenderWorld.Rendered`, `RenderWorld.Undone`: what a rendering leaves if it returns, and if it
  raises

## Main results

* `FFmpegRenderer.wp_renderFrames`: the loop over the frames
* `FFmpegRenderer.wp_renderCropPath`: a rendering renders its output or undoes what it did
-/

namespace BoulderFrame

open Routine RenderWorld

variable {K Content : Type} [Field K] [LinearOrder K] [FloorRing K] {tools : RenderTools Content}
  {files₀ : String → Option Content} {arguments : List String} {l l' : RenderVariables}
  {w w' : RenderWorld Content}

/-! ## The frames -/

/-- The image is that of the frame on the grid, cut and resized. -/
structure Shown (tools : RenderTools Content) (metadata : MediaMetadata) (aspectRatio : AspectRatio)
    (k : ℕ) (frame : DecodedFrame (Option (Image Bgr))) (crop : CropRect (FloatValue K))
    (image : Image Bgr) : Prop where
  index : frame.index = k
  timestamp : metadata.timestampForFrame k = .ok frame.timestampMs
  image : cropAndResizeFrame tools.resize frame.pixels crop (outputDimensions aspectRatio) = .ok image

/-- The images of some frames, from an index on. -/
inductive ShownFrom (tools : RenderTools Content) (metadata : MediaMetadata)
    (aspectRatio : AspectRatio) : ℕ → List (DecodedFrame (Option (Image Bgr))) →
    List (CropRect (FloatValue K)) → List (Image Bgr) → Prop
  | nil {k} : ShownFrom tools metadata aspectRatio k [] [] []
  | cons {k frame frames crop crops image images}
    (h : Shown tools metadata aspectRatio k frame crop image)
    (hrest : ShownFrom tools metadata aspectRatio (k + 1) frames crops images) :
    ShownFrom tools metadata aspectRatio k (frame :: frames) (crop :: crops) (image :: images)

/-- The images of all frames, one for each crop. -/
structure Played (tools : RenderTools Content) (metadata : MediaMetadata) (aspectRatio : AspectRatio)
    (frames : List (DecodedFrame (Option (Image Bgr)))) (cropPath : List (CropRect (FloatValue K)))
    (images : List (Image Bgr)) : Prop where
  frames_length : frames.length = cropPath.length
  images_length : images.length = cropPath.length
  shown : ∀ k frame crop image, frames[k]? = some frame → cropPath[k]? = some crop →
    images[k]? = some image → Shown tools metadata aspectRatio k frame crop image
  size : ∀ image ∈ images, ((image.width : ℤ), (image.height : ℤ)) = outputDimensions aspectRatio

/-- A cut frame has the size of the output. -/
theorem cropAndResizeFrame_size {resize : Image Bgr → ℤ × ℤ → Except Raised (Option (Image Bgr))}
    {pixels : Option (Image Bgr)} {crop : CropRect (FloatValue K)} {size : ℤ × ℤ} {image : Image Bgr}
    (h : cropAndResizeFrame resize pixels crop size = .ok image) :
    ((image.width : ℤ), (image.height : ℤ)) = size := by
  obtain ⟨width, height⟩ := size
  unfold cropAndResizeFrame at h
  split at h
  · cases h
  split at h
  · cases h
  dsimp only at h
  obtain ⟨-, h⟩ := Except.ok_of_guard h
  obtain ⟨-, h⟩ := Except.ok_of_guard h
  split at h
  · split_ifs at h
  · cases h
  · obtain ⟨hsize, h⟩ := Except.ok_of_guard h
    obtain rfl := Except.ok.inj h
    obtain ⟨hheight, hwidth⟩ := not_or.mp hsize
    rw [not_not.mp hheight, not_not.mp hwidth]

variable {metadata : MediaMetadata} {aspectRatio : AspectRatio}

theorem ShownFrom.played {k : ℕ} {frames : List (DecodedFrame (Option (Image Bgr)))}
    {crops : List (CropRect (FloatValue K))} {images : List (Image Bgr)}
    (h : ShownFrom tools metadata aspectRatio k frames crops images) :
    frames.length = crops.length ∧ images.length = crops.length ∧
      (∀ i frame crop image, frames[i]? = some frame → crops[i]? = some crop →
        images[i]? = some image → Shown tools metadata aspectRatio (k + i) frame crop image) ∧
      ∀ image ∈ images, ((image.width : ℤ), (image.height : ℤ)) = outputDimensions aspectRatio := by
  induction h with
  | nil => exact ⟨rfl, rfl, fun i _ _ _ hi => by simp at hi, fun _ => nofun⟩
  | @cons k frame frames crop crops image images hshown _ ih =>
    obtain ⟨hframes, himages, hall, hsize⟩ := ih
    refine ⟨congrArg (· + 1) hframes, congrArg (· + 1) himages, ?_, ?_⟩
    · rintro (_ | i) frame' crop' image' hframe hcrop himage
      · cases hframe
        cases hcrop
        cases himage
        exact hshown
      · rw [show k + (i + 1) = k + 1 + i by omega]
        exact hall i frame' crop' image' hframe hcrop himage
    · exact List.forall_mem_cons.mpr ⟨cropAndResizeFrame_size hshown.image, hsize⟩

/-- The images of all frames are shown in order. -/
theorem ShownFrom.toPlayed {frames : List (DecodedFrame (Option (Image Bgr)))}
    {crops : List (CropRect (FloatValue K))} {images : List (Image Bgr)}
    (h : ShownFrom tools metadata aspectRatio 0 frames crops images) :
    Played tools metadata aspectRatio frames crops images := by
  obtain ⟨hframes, himages, hall, hsize⟩ := h.played
  refine ⟨hframes, himages, fun k frame crop image hframe hcrop himage => ?_, hsize⟩
  have hk := hall k frame crop image hframe hcrop himage
  rwa [Nat.zero_add] at hk

omit [Field K] [LinearOrder K] [FloorRing K] in
theorem frameBytes_length (image : Image Bgr) :
    (frameBytes image).length = image.height * (image.width * 3) := by
  simp [frameBytes, List.length_flatMap]

/-- The bytes of the images of all frames. -/
theorem Played.bytes_length {frames : List (DecodedFrame (Option (Image Bgr)))}
    {cropPath : List (CropRect (FloatValue K))} {images : List (Image Bgr)} (h : Played tools metadata aspectRatio frames cropPath images) :
    ((images.flatMap frameBytes).length : ℤ) = cropPath.length *
      ((outputDimensions aspectRatio).2 * ((outputDimensions aspectRatio).1 * 3)) := by
  have hsum : ∀ images : List (Image Bgr), (∀ image ∈ images,
      ((image.width : ℤ), (image.height : ℤ)) = outputDimensions aspectRatio) →
      ((images.flatMap frameBytes).length : ℤ) = images.length *
        ((outputDimensions aspectRatio).2 * ((outputDimensions aspectRatio).1 * 3)) := by
    intro images hsize
    induction images with
    | nil => simp
    | cons image images ih =>
      obtain ⟨himage, hsize⟩ := List.forall_mem_cons.mp hsize
      rw [List.flatMap_cons, List.length_append, frameBytes_length]
      push_cast
      rw [ih hsize, ← himage, List.length_cons]
      push_cast
      ring
  rw [hsum images h.size, h.images_length]

/-! ## The checks of a file -/

/-- The file has passed the checks of an output. -/
structure Validated (K : Type) [Field K] [LinearOrder K] [FloorRing K] (tools : RenderTools Content)
    (int : String → Option ℤ) (metadata : MediaMetadata) (aspectRatio : AspectRatio) (c : Content)
    (output : MediaMetadata) : Prop where
  probed : tools.probes c output
  valid : ∃ tolerance, durationTolerance K metadata = .ok tolerance ∧
    validateOutput output aspectRatio (some metadata.durationMs) (some tolerance)
      (some metadata.hasAudio) = .ok ()
  decoded : ∃ report, tools.decodes c report ∧
    decodedFrameCount int report = .ok metadata.expectedFrameCount

/-- The file is the encoder's output of the images of all frames, and has passed the checks. -/
structure IsRendering (tools : RenderTools Content) (int : String → Option ℤ)
    (arguments : List String) (frames : List (DecodedFrame (Option (Image Bgr))))
    (cropPath : List (CropRect (FloatValue K))) (metadata : MediaMetadata) (aspectRatio : AspectRatio)
    (images : List (Image Bgr)) (c : Content) (output : MediaMetadata) : Prop where
  played : Played tools metadata aspectRatio frames cropPath images
  encoded : tools.encodes arguments (images.flatMap frameBytes) c
  validated : Validated K tools int metadata aspectRatio c output

namespace RenderWorld

/-- **A rendering that returns**: the encoder has been delivered the images of all frames and has
exited with zero, and the file that has passed the checks is the destination's. -/
structure Rendered (tools : RenderTools Content) (int : String → Option ℤ) (arguments : List String)
    (frames : List (DecodedFrame (Option (Image Bgr)))) (cropPath : List (CropRect (FloatValue K)))
    (metadata : MediaMetadata) (aspectRatio : AspectRatio) (destination : String)
    (files₀ : String → Option Content) (output : MediaMetadata) (w : RenderWorld Content) : Prop where
  rendering : ∃ images c, w.files destination = some c ∧
    IsRendering tools int arguments frames cropPath metadata aspectRatio images c output ∧
    ∃ p ∈ w.encoder, p.arguments = arguments ∧ p.exitCode = some 0 ∧
      p.delivered = images.flatMap frameBytes
  removed : w.files (outputPath arguments) = none
  others : ∀ path, path ≠ destination → path ≠ outputPath arguments → w.files path = files₀ path

theorem Rendered.quiet {int : String → Option ℤ}
    {frames : List (DecodedFrame (Option (Image Bgr)))} {cropPath : List (CropRect (FloatValue K))}
    {metadata : MediaMetadata} {aspectRatio : AspectRatio} {destination : String}
    {output : MediaMetadata} (h : Rendered tools int arguments frames cropPath metadata aspectRatio
      destination files₀ output w) : w.Quiet := by
  obtain ⟨images, c, -, -, p, hp, -, hexit, -⟩ := h.rendering
  exact quiet_of_exit hp hexit

/-- **A rendering that raises**: no file but the partial one has changed, which is missing unless its
removal or a call on the encoder has failed, and a started encoder is finished. -/
structure Undone (arguments : List String) (files₀ : String → Option Content) (l : RenderVariables)
    (w : RenderWorld Content) : Prop where
  files : ∀ path ≠ outputPath arguments, w.files path = files₀ path
  removed : w.unlinkFailed = false → w.signalFailed = false → w.files (outputPath arguments) = none
  finished : l.started = true → l.finished = true
  gone : w.signalFailed = false → w.Quiet
  invoked : ∀ p ∈ w.encoder, p.exitCode = none → p.arguments = arguments

theorem Undone.rely (h : Undone arguments files₀ l w) (hrely : Rely tools w w') :
    Undone arguments files₀ l w' := by
  cases hrely with
  | idle => exact h
  | @encoder p p' files hp hrun hadv =>
    have hfailed : w.signalFailed = true := by
      by_contra hworks
      have hexit := h.gone (Bool.not_eq_true _ ▸ hworks) _ hp
      rw [hrun] at hexit
      cases hexit
    have harguments := h.invoked _ hp hrun
    subst harguments
    refine ⟨fun path hpath => (hadv.files path hpath).trans (h.files path hpath),
      fun _ hworks => absurd (hfailed.symm.trans hworks) nofun, h.finished,
      fun hworks => absurd (hfailed.symm.trans hworks) nofun, ?_⟩
    rintro _ ⟨⟩ -
    exact hadv.arguments

end RenderWorld

namespace FFmpegRenderer

open MediaProcess

variable {str : Raised → String} {int : String → Option ℤ} {binary : String}

/-- A failure is raised as another one. -/
theorem wp_rewrap {α : Type} {m : RenderRoutine K α} {handler : Raised → RenderRoutine K α}
    {P : Except Raised α → RenderVariables → RenderWorld Content → Prop}
    (hm : m.wp (renderSetting tools) P l w) (hraise : ∀ e, ∃ e', handler e = raise e')
    (herror : ∀ e e' l w, P (.error e) l w → P (.error e') l w) :
    (handle m handler).wp (renderSetting tools) P l w := by
  refine wp_handle_of hm (fun _ _ _ hP => hP) fun e l w hP => ?_
  obtain ⟨e', he'⟩ := hraise e
  rw [he']
  exact herror e e' l w hP

theorem wp_onEncoder {m : RenderRoutine K Unit}
    {P : Except Raised Unit → RenderVariables → RenderWorld Content → Prop}
    (hm : m.wp (renderSetting tools) P l w)
    (herror : ∀ e e' l w, P (.error e) l w → P (.error e') l w) :
    (onEncoder str m).wp (renderSetting tools) P l w :=
  wp_rewrap hm (fun e => by cases e <;> exact ⟨_, rfl⟩) herror

theorem wp_onFrames {α : Type} {m : RenderRoutine K α}
    {P : Except Raised α → RenderVariables → RenderWorld Content → Prop}
    (hm : m.wp (renderSetting tools) P l w)
    (herror : ∀ e e' l w, P (.error e) l w → P (.error e') l w) :
    (onFrames str m).wp (renderSetting tools) P l w :=
  wp_rewrap hm (fun e => by cases e <;> exact ⟨_, rfl⟩) herror

theorem wp_onFile {m : RenderRoutine K Unit}
    {P : Except Raised Unit → RenderVariables → RenderWorld Content → Prop}
    (hm : m.wp (renderSetting tools) P l w)
    (herror : ∀ e e' l w, P (.error e) l w → P (.error e') l w) :
    (onFile str m).wp (renderSetting tools) P l w := by
  refine wp_rewrap hm (fun e => ?_) herror
  split_ifs
  · exact ⟨_, rfl⟩
  · exact ⟨_, rfl⟩

/-- Nothing has changed. -/
def Unchanged (l : RenderVariables) (w : RenderWorld Content) (l' : RenderVariables)
    (w' : RenderWorld Content) : Prop := l' = l ∧ w' = w

theorem inputPath_decode (output : String) :
    inputPath (decodeArguments binary output).tail = some output := by
  simp [decodeArguments, inputPath]

/-- **The decoding** reads the file. -/
theorem wp_decode (hquiet : w.Quiet) {output : String} :
    (decode int binary output : RenderRoutine K ℤ).wp (renderSetting tools)
      (Finally (fun n l' w' => Unchanged l w l' w' ∧ ∃ c ∈ w.files output, ∃ report,
        tools.decodes c report ∧ decodedFrameCount int report = .ok n) (Unchanged l w)) l w := by
  have hrun : (onSystem (.run (decodeArguments binary output)) : RenderRoutine K String).wp
      (renderSetting tools) (Finally (fun report l' w' => Unchanged l w l' w' ∧
        ∃ c ∈ w.files output, tools.decodes c report) (Unchanged l w)) l w := by
    refine wp_onSystem.mpr fun w₁ hrely a w₂ hstep => ?_
    obtain rfl := hrely.eq_of_quiet hquiet
    cases hstep with
    | raised => exact ⟨rfl, rfl⟩
    | signalFailed hsignal => cases hsignal
    | decoded hpath hc h =>
      rw [inputPath_decode, Option.some.injEq] at hpath
      exact ⟨⟨rfl, rfl⟩, _, hpath ▸ hc, h⟩
  unfold decode
  refine wp_bind_of (wp_rewrap hrun (fun e => by cases e <;> exact ⟨_, rfl⟩) fun _ _ _ _ hP => hP)
    ?_ fun _ _ _ hP => hP
  rintro report l w ⟨⟨rfl, rfl⟩, c, hc, hdecodes⟩
  rw [wp_ofExcept]
  cases hcount : decodedFrameCount int report with
  | error e => exact ⟨rfl, rfl⟩
  | ok n => exact ⟨⟨rfl, rfl⟩, c, hc, report, hdecodes, hcount⟩

/-- **The checks** of an output read its file. -/
theorem wp_validateRenderedOutput (hquiet : w.Quiet) {output : String} :
    (validateRenderedOutput int binary output metadata aspectRatio : RenderRoutine K MediaMetadata).wp
      (renderSetting tools)
      (Finally (fun m l' w' => Unchanged l w l' w' ∧
        ∃ c ∈ w.files output, Validated K tools int metadata aspectRatio c m) (Unchanged l w)) l w := by
  have hinspect : (onSystem (.inspect output) : RenderRoutine K MediaMetadata).wp
      (renderSetting tools) (Finally (fun m l' w' => Unchanged l w l' w' ∧
        ∃ c ∈ w.files output, tools.probes c m) (Unchanged l w)) l w := by
    refine wp_onSystem.mpr fun w₁ hrely a w₂ hstep => ?_
    obtain rfl := hrely.eq_of_quiet hquiet
    cases hstep with
    | raised => exact ⟨rfl, rfl⟩
    | signalFailed hsignal => cases hsignal
    | inspected hc h => exact ⟨⟨rfl, rfl⟩, _, hc, h⟩
  unfold validateRenderedOutput
  refine wp_bind_of (wp_rewrap hinspect (fun e => by cases e <;> exact ⟨_, rfl⟩)
    fun _ _ _ _ hP => hP) ?_ fun _ _ _ hP => hP
  rintro m l w ⟨⟨rfl, rfl⟩, c, hc, hprobed⟩
  rw [wp_bind, wp_ofExcept]
  cases htolerance : durationTolerance K metadata with
  | error e => exact ⟨rfl, rfl⟩
  | ok tolerance =>
    dsimp only
    rw [wp_bind, wp_ofExcept]
    cases hvalid : validateOutput m aspectRatio (some metadata.durationMs) (some tolerance)
        (some metadata.hasAudio) with
    | error e => exact ⟨rfl, rfl⟩
    | ok _ =>
      refine wp_bind_of (wp_decode hquiet) ?_ fun _ _ _ hP => hP
      rintro n l w ⟨⟨rfl, rfl⟩, c', hc', report, hdecodes, hcount⟩
      obtain rfl := Option.mem_unique hc hc'
      split_ifs with hne
      · exact ⟨rfl, rfl⟩
      · obtain rfl := not_not.mp hne
        exact ⟨⟨rfl, rfl⟩, c, hc, hprobed, ⟨tolerance, htolerance, hvalid⟩, report, hdecodes, hcount⟩

/-! ## The loop -/

section Loop

variable {bytes : List UInt8} {frames : List (DecodedFrame (Option (Image Bgr)))}

/-- The reader yields its next frame, or has ended. -/
theorem wp_nextFrame (h : Feeding tools files₀ arguments bytes (some frames) l w) :
    (onFrames str (onSystem .nextFrame) :
      RenderRoutine K (Option (DecodedFrame (Option (Image Bgr))))).wp (renderSetting tools)
      (Finally (fun next l' w' => l' = l ∧
        (∀ frame, next = some frame → ∃ rest, frames = frame :: rest ∧
          Feeding tools files₀ arguments bytes (some rest) l w') ∧
        (next = none → frames = [] ∧ Feeding tools files₀ arguments bytes none l w'))
        (Failed tools files₀ arguments l)) l w := by
  refine wp_onFrames (wp_onSystem.mpr fun w₁ hrely a w₂ hstep => ?_) fun _ _ _ _ hP => hP
  have h₁ := h.rely hrely
  have hgoing := h₁.going.step rfl hstep
  cases hstep with
  | raised hraise => cases hraise
  | signalFailed hsignal => cases hsignal
  | readFailed => exact ⟨⟨rfl, rfl⟩, hgoing⟩
  | endedBefore hreader => cases hreader.symm.trans h₁.reader
  | ended hreader =>
    obtain rfl := Option.some.inj (hreader.symm.trans h₁.reader)
    exact ⟨rfl, fun _ => nofun, fun _ => ⟨rfl, hgoing, h₁.live, h₁.encoder, rfl⟩⟩
  | next hreader =>
    obtain rfl := Option.some.inj (hreader.symm.trans h₁.reader)
    refine ⟨rfl, fun frame hframe => ?_, nofun⟩
    obtain rfl := Option.some.inj hframe
    exact ⟨_, rfl, hgoing, h₁.live, h₁.encoder, rfl⟩

theorem wp_cropAndResize {pixels : Option (Image Bgr)} {crop : CropRect (FloatValue K)}
    {size : ℤ × ℤ} (h : Feeding tools files₀ arguments bytes (some frames) l w) :
    (onSystem (.cropAndResize pixels crop size) : RenderRoutine K (Image Bgr)).wp
      (renderSetting tools)
      (Finally (fun image l' w' => l' = l ∧ Feeding tools files₀ arguments bytes (some frames) l w' ∧
        cropAndResizeFrame tools.resize pixels crop size = .ok image)
        (Failed tools files₀ arguments l)) l w := by
  refine wp_onSystem.mpr fun w₁ hrely a w₂ hstep => ?_
  have h₁ := h.rely hrely
  cases hstep with
  | raised => exact ⟨⟨rfl, rfl⟩, h₁.going⟩
  | signalFailed hsignal => cases hsignal
  | cropped hcrop => exact ⟨rfl, h₁, hcrop⟩

theorem wp_framePayload {image : Image Bgr}
    (h : Feeding tools files₀ arguments bytes (some frames) l w) :
    (framePayload image : RenderRoutine K (List UInt8)).wp (renderSetting tools)
      (Finally (fun payload l' w' => l' = l ∧
        Feeding tools files₀ arguments bytes (some frames) l w' ∧ payload = frameBytes image)
        (Failed tools files₀ arguments l)) l w := by
  unfold framePayload
  refine wp_rewrap (wp_onSystem.mpr fun w₁ hrely a w₂ hstep => ?_) (fun e => ?_)
    fun _ _ _ _ hP => hP
  swap
  · split <;> exact ⟨_, rfl⟩
  have h₁ := h.rely hrely
  cases hstep with
  | raised => exact ⟨⟨rfl, rfl⟩, h₁.going⟩
  | signalFailed hsignal => cases hsignal
  | viewed => exact ⟨rfl, h₁, rfl⟩

/-- **The loop over the frames** writes the image of every frame to the encoder. -/
theorem wp_renderFrames {k : ℕ} {crops : List (CropRect (FloatValue K))}
    (h : Feeding tools files₀ arguments bytes (some frames) l w) :
    (renderFrames str metadata aspectRatio k crops).wp (renderSetting tools)
      (Finally (fun _ l' w' => l' = l ∧ ∃ shown rest images, frames = shown ++ rest ∧
        ShownFrom tools metadata aspectRatio k shown crops images ∧
        Feeding tools files₀ arguments (bytes ++ images.flatMap frameBytes) (some rest) l w')
        (Failed tools files₀ arguments l)) l w := by
  induction crops generalizing k frames bytes l w with
  | nil =>
    refine ⟨rfl, [], frames, [], rfl, .nil, ?_⟩
    rwa [List.flatMap_nil, List.append_nil]
  | cons crop crops ih =>
    unfold renderFrames
    refine wp_bind_of (wp_nextFrame h) ?_ fun _ _ _ hP => hP
    rintro next l w₁ ⟨rfl, hnext, hnone⟩
    cases next with
    | none => exact ⟨⟨rfl, rfl⟩, (hnone rfl).2.going⟩
    | some frame =>
      obtain ⟨rest, rfl, h₁⟩ := hnext frame rfl
      dsimp only
      split_ifs with hindex
      · exact ⟨⟨rfl, rfl⟩, h₁.going⟩
      rw [wp_bind, wp_ofExcept]
      cases htimestamp : metadata.timestampForFrame k with
      | error e => exact ⟨⟨rfl, rfl⟩, h₁.going⟩
      | ok timestamp =>
        dsimp only
        split_ifs with htime
        · exact ⟨⟨rfl, rfl⟩, h₁.going⟩
        refine wp_bind_of (wp_cropAndResize h₁) ?_ fun _ _ _ hP => hP
        rintro image l w₂ ⟨rfl, h₂, hcrop⟩
        refine wp_bind_of (wp_framePayload h₂) ?_ fun _ _ _ hP => hP
        rintro payload l w₃ ⟨rfl, h₃, rfl⟩
        refine wp_bind_of (wp_onEncoder (wp_write _ h₃) fun _ _ _ _ hP => hP) ?_ fun _ _ _ hP => hP
        rintro - l w₄ ⟨rfl, h₄⟩
        refine wp_mono ?_ (ih h₄)
        rintro (e | a) l w₅ hP
        · exact hP
        obtain ⟨rfl, shown, rest', images, rfl, hshown, h₅⟩ := hP
        have hframe : Shown tools metadata aspectRatio k frame crop image :=
          ⟨not_not.mp hindex, htimestamp.trans (congrArg _ (not_not.mp htime).symm), hcrop⟩
        refine ⟨rfl, frame :: shown, rest', image :: images, rfl, .cons hframe hshown, ?_⟩
        rwa [List.flatMap_cons, ← List.append_assoc]

end Loop

/-! ## The rendering -/

omit [Field K] [LinearOrder K] [FloorRing K] in
@[simp] theorem outputPath_renderArguments {source destination : String} :
    outputPath (renderArguments binary source destination metadata aspectRatio) = destination := by
  cases haudio : metadata.audioStreamIndex <;>
    simp [outputPath, renderArguments, List.getLastD_eq_getLast?, haudio]

theorem Going.reading (h : Going tools files₀ arguments l w) :
    Going tools files₀ arguments { l with reading := true } w := by
  refine ⟨h.files, h.idle, fun hstarted => ?_⟩
  obtain ⟨p, hp⟩ := h.process hstarted
  exact ⟨p, hp.encoder, hp.invoked, hp.output, hp.finished⟩

/-- The reader is opened. -/
theorem wp_readFrames {bytes : List UInt8}
    {reader : Option (List (DecodedFrame (Option (Image Bgr))))} {source : String}
    (h : Feeding tools files₀ arguments bytes reader l w) :
    (onFrames str (do
      onSystem (.readFrames source metadata)
      modify fun l => { l with reading := true }) : RenderRoutine K Unit).wp (renderSetting tools)
      (Finally (fun _ l' w' => l' = { l with reading := true } ∧
        Feeding tools files₀ arguments bytes (some (tools.frames source metadata)) l' w')
        (Failed tools files₀ arguments l)) l w := by
  have hcall : (onSystem (.readFrames source metadata) : RenderRoutine K Unit).wp
      (renderSetting tools) (Finally (fun _ l' w' => l' = l ∧
        Feeding tools files₀ arguments bytes (some (tools.frames source metadata)) l' w')
        (Failed tools files₀ arguments l)) l w := by
    refine wp_onSystem.mpr fun w₁ hrely a w₂ hstep => ?_
    have h₁ := h.rely hrely
    have hgoing := h₁.going.step rfl hstep
    cases hstep with
    | raised => exact ⟨⟨rfl, rfl⟩, hgoing⟩
    | signalFailed hsignal => cases hsignal
    | opened => exact ⟨rfl, hgoing, h₁.live, h₁.encoder, rfl⟩
  refine wp_onFrames (wp_bind_of hcall ?_ fun _ _ _ hP => hP) fun _ _ _ _ hP => hP
  rintro - l w₁ ⟨rfl, h₁⟩
  exact ⟨rfl, Going.reading h₁.going, h₁.live, h₁.encoder, h₁.reader⟩

/-- The partial file takes the place of the destination. -/
theorem wp_replace {path destination : String} {c : Content} (hquiet : w.Quiet)
    (hc : w.files path = some c) :
    (onFile str (onSystem (.replace path destination)) : RenderRoutine K Unit).wp
      (renderSetting tools)
      (Finally (fun _ _ w' => w' = { w with
          files := Function.update (Function.update w.files path none) destination (some c) })
        (Unchanged l w)) l w := by
  refine wp_onFile (wp_onSystem.mpr fun w₁ hrely a w₂ hstep => ?_) fun _ _ _ _ hP => hP
  obtain rfl := hrely.eq_of_quiet hquiet
  cases hstep with
  | raised => exact ⟨rfl, rfl⟩
  | signalFailed hsignal => cases hsignal
  | replaced h =>
    obtain rfl := Option.some.inj (h.symm.trans hc)
    rfl

variable {source destination : PurePath} {cropPath : List (CropRect (FloatValue K))}

/-- The arguments of the encoder of a rendering. -/
abbrev encoderArguments (binary : String) (source destination : PurePath) (metadata : MediaMetadata)
    (aspectRatio : AspectRatio) : List String :=
  renderArguments binary source.text destination.partialPath.text metadata aspectRatio

/-- **The rendering up to its output.** -/
theorem wp_renderPartial (hidle : l.started = false)
    (h : Going tools files₀ (encoderArguments binary source destination metadata aspectRatio) l w) :
    (renderPartial str int binary source destination cropPath metadata aspectRatio).wp
      (renderSetting tools)
      (Finally (fun output _ w' => w'.reader = none ∧ Rendered tools int
          (encoderArguments binary source destination metadata aspectRatio)
          (tools.frames source.text metadata) cropPath metadata aspectRatio destination.text files₀
          output w')
        (Going tools files₀ (encoderArguments binary source destination metadata aspectRatio))) l w := by
  unfold renderPartial
  refine wp_bind_of (wp_onEncoder (wp_start h hidle) fun _ _ _ _ hP => hP) ?_ fun _ _ _ hP => hP.2
  rintro - _ w₁ ⟨rfl, h₁⟩
  refine wp_bind_of (wp_readFrames h₁) ?_ fun _ _ _ hP => hP.2
  rintro - _ w₂ ⟨rfl, h₂⟩
  refine wp_bind_of (wp_renderFrames h₂) ?_ fun _ _ _ hP => hP.2
  rintro - _ w₃ ⟨rfl, shown, rest, images, hframes, hshown, h₃⟩
  refine wp_bind_of (wp_nextFrame h₃) ?_ fun _ _ _ hP => hP.2
  rintro next _ w₄ ⟨rfl, hnext, hnone⟩
  cases next with
  | some frame =>
    obtain ⟨rest', -, h₄⟩ := hnext frame rfl
    exact h₄.going
  | none =>
    obtain ⟨rfl, h₄⟩ := hnone rfl
    rw [List.nil_append] at h₄
    refine wp_bind_of (wp_onEncoder (wp_finish h₄) fun _ _ _ _ hP => hP) ?_ fun _ _ _ hP => hP.2
    rintro - _ w₅ ⟨rfl, h₅⟩
    refine wp_bind_of (wp_validateRenderedOutput h₅.quiet) ?_ fun e l' w' hP => ?_
    · rintro output _ w₆ ⟨⟨rfl, rfl⟩, c, hc, hvalidated⟩
      refine wp_bind_of (wp_replace h₅.quiet hc) ?_ fun e l' w' hP => ?_
      · rintro - _ _ rfl
        have hpath : outputPath (encoderArguments binary source destination metadata aspectRatio) =
            destination.partialPath.text := outputPath_renderArguments
        have hne := destination.partialPath_ne
        obtain ⟨p, hp, hinvoked, hexit, hdelivered⟩ := h₅.encoder
        have hplayed : Played tools metadata aspectRatio (tools.frames source.text metadata) cropPath
            images := by
          rw [hframes, List.append_nil]
          exact hshown.toPlayed
        refine ⟨h₅.reader, ⟨images, c, Function.update_self .., ⟨hplayed, ?_, hvalidated⟩, p, hp,
          hinvoked, hexit, hdelivered⟩, ?_, fun path hpath' hother => ?_⟩
        · exact h₅.output c (hpath.symm ▸ hc)
        · rw [hpath]
          exact (Function.update_of_ne hne ..).trans (Function.update_self ..)
        · rw [hpath] at hother
          refine (Function.update_of_ne hpath' ..).trans ?_
          refine (Function.update_of_ne hother ..).trans (h₅.going.files path ?_)
          rwa [hpath]
      · obtain ⟨rfl, rfl⟩ := hP
        exact h₅.going
    · obtain ⟨rfl, rfl⟩ := hP
      exact h₅.going

/-! ## The cleanup -/

/-- **The cleanup** after a failure. -/
theorem wp_cleanup (h : Going tools files₀ arguments l w) (e : Raised) :
    (do
      abortStarted
      ignoreOSError (onSystem (.unlink (outputPath arguments)))
      raise e : RenderRoutine K MediaMetadata).wp (renderSetting tools)
      (Finally (fun _ _ _ => False) (Undone arguments files₀)) l w := by
  have habort : (abortStarted : RenderRoutine K Unit).wp (renderSetting tools)
      (fun r l' w' => r = .ok () ∧ (l'.started = true → l'.finished = true) ∧
        Going tools files₀ arguments l' w') l w := by
    unfold abortStarted
    rw [wp_get_bind]
    split_ifs with hstarted
    · refine wp_mono ?_ (wp_abort h)
      rintro _ _ w₁ ⟨rfl, rfl, h₁⟩
      exact ⟨rfl, fun _ => rfl, h₁⟩
    · exact ⟨rfl, fun h => absurd h hstarted, h⟩
  refine wp_bind_of habort ?_ fun e l w h => nomatch h.1
  rintro - l w₁ ⟨-, hfinished, h₁⟩
  have hunlink : (ignoreOSError (onSystem (.unlink (outputPath arguments))) :
      RenderRoutine K Unit).wp (renderSetting tools)
      (fun r l' w' => r = .ok () ∧ Undone arguments files₀ l' w') l w₁ := by
    refine wp_ignoreOSError (wp_onSystem.mpr fun w₂ hrely a w₃ hstep => ?_)
    have h₂ := h₁.rely hrely
    have hgone : w₂.signalFailed = false → w₂.Quiet := by
      intro hworks
      cases hstarted : l.started with
      | false => exact (h₂.idle hstarted).1
      | true =>
        obtain ⟨p, hp⟩ := h₂.process hstarted
        rintro q hq
        obtain rfl := Option.some.inj (hp.encoder.symm.trans hq)
        exact (hp.finished (hfinished hstarted)).resolve_right (by simp [hworks])
    have hinvoked : ∀ p ∈ w₂.encoder, p.exitCode = none → p.arguments = arguments := by
      intro p hp hrun
      cases hstarted : l.started with
      | false =>
        have hexit := (h₂.idle hstarted).1 p hp
        rw [hrun] at hexit
        cases hexit
      | true =>
        obtain ⟨q, hq⟩ := h₂.process hstarted
        obtain rfl := Option.some.inj (hq.encoder.symm.trans hp)
        exact hq.invoked
    cases hstep with
    | raised hraise => cases hraise
    | signalFailed hsignal => cases hsignal
    | unlinked =>
      exact ⟨fun e => nofun, fun path hpath => (Function.update_of_ne hpath ..).trans
        (h₂.files path hpath), fun _ _ => Function.update_self .., hfinished, hgone, hinvoked⟩
    | unlinkFailed hos =>
      exact ⟨fun e he => Except.error.inj he ▸ hos, h₂.files, nofun, hfinished, hgone, hinvoked⟩
  refine wp_bind_of hunlink ?_ fun e l w h => nomatch h.1
  rintro - l w₂ ⟨-, hundone⟩
  exact hundone

/-- Closing the reader changes no file, even if it raises. -/
theorem wp_closeReader (h : Undone arguments files₀ l w) :
    (closeReader : RenderRoutine K Unit).wp (renderSetting tools)
      (fun _ l' w' => Undone arguments files₀ l' w') l w := by
  unfold closeReader
  rw [wp_get_bind]
  split_ifs
  · refine wp_onSystem.mpr fun w₁ hrely a w₂ hstep => ?_
    have h₁ := h.rely hrely
    cases hstep with
    | raised hraise => cases hraise
    | signalFailed hsignal => cases hsignal
    | closedReader => exact h₁
    | closedSuspended => exact ⟨h₁.files, h₁.removed, h₁.finished, h₁.gone, h₁.invoked⟩
  · exact h

/-- A reader that has ended has nothing to clean up. -/
theorem wp_closeReader_ended (hquiet : w.Quiet) (hreader : w.reader = none) :
    (closeReader : RenderRoutine K Unit).wp (renderSetting tools)
      (fun r _ w' => r = .ok () ∧ w' = w) l w := by
  unfold closeReader
  rw [wp_get_bind]
  split_ifs
  · refine wp_onSystem.mpr fun w₁ hrely a w₂ hstep => ?_
    obtain rfl := hrely.eq_of_quiet hquiet
    cases hstep with
    | raised hraise => cases hraise
    | signalFailed hsignal => cases hsignal
    | closedReader => exact ⟨rfl, rfl⟩
    | closedSuspended h => cases hreader.symm.trans h
  · exact ⟨rfl, rfl⟩

/-- The removal of an old partial file. -/
theorem wp_unlink (hquiet : w.Quiet) {path : String} :
    (onFile str (onSystem (.unlink path)) : RenderRoutine K Unit).wp (renderSetting tools)
      (Finally (fun _ l' w' => l' = l ∧ w' = { w with files := Function.update w.files path none })
        fun l' w' => l' = l ∧ w' = { w with unlinkFailed := true }) l w := by
  refine wp_onFile (wp_onSystem.mpr fun w₁ hrely a w₂ hstep => ?_) fun _ _ _ _ hP => hP
  obtain rfl := hrely.eq_of_quiet hquiet
  cases hstep with
  | raised hraise => cases hraise
  | signalFailed hsignal => cases hsignal
  | unlinked => exact ⟨rfl, rfl⟩
  | unlinkFailed => exact ⟨rfl, rfl⟩

/-- **A rendering** returns with its output, or undoes what it has done. -/
theorem wp_renderCropPath (hvalid : validateCropPath cropPath metadata aspectRatio = .ok ())
    (hquiet : w.Quiet) :
    (renderCropPath str int binary source destination cropPath metadata aspectRatio).wp
      (renderSetting tools)
      (Finally (fun output _ w' => Rendered tools int
          (encoderArguments binary source destination metadata aspectRatio)
          (tools.frames source.text metadata) cropPath metadata aspectRatio destination.text w.files
          output w')
        (Undone (encoderArguments binary source destination metadata aspectRatio) w.files)) .init w := by
  have hpath : outputPath (encoderArguments binary source destination metadata aspectRatio) =
      destination.partialPath.text := outputPath_renderArguments
  have hinvoked : ∀ p ∈ w.encoder, p.exitCode = none → p.arguments =
      encoderArguments binary source destination metadata aspectRatio := by
    intro p hp hrun
    have hexit := hquiet p hp
    rw [hrun] at hexit
    cases hexit
  unfold renderCropPath
  rw [wp_bind, wp_ofExcept, hvalid]
  refine wp_bind_of (wp_unlink hquiet) ?_ fun e l' w' hP => ?_
  · rintro - _ _ ⟨rfl, rfl⟩
    rw [wp_ensure, ← hpath]
    have hgoing : Going tools w.files (encoderArguments binary source destination metadata
        aspectRatio) .init { w with files := Function.update w.files (outputPath
          (encoderArguments binary source destination metadata aspectRatio)) none } :=
      ⟨fun path hne => Function.update_of_ne hne .., fun _ => ⟨hquiet, Function.update_self ..⟩,
        nofun⟩
    have hpartial : (renderPartial str int binary source destination cropPath metadata aspectRatio).wp
        (renderSetting tools) _ .init _ := wp_renderPartial rfl hgoing
    have hhandled := wp_handle_of (Q := Finally (fun output _ w' => w'.reader = none ∧
        Rendered tools int (encoderArguments binary source destination metadata aspectRatio)
          (tools.frames source.text metadata) cropPath metadata aspectRatio destination.text w.files
          output w')
        (Undone (encoderArguments binary source destination metadata aspectRatio) w.files))
      hpartial (fun _ _ _ hP => hP)
      fun e l w hP => wp_mono ?_ (wp_cleanup hP e)
    · refine wp_mono ?_ hhandled
      rintro (e | output) l w₁ hP
      · refine wp_mono ?_ (wp_closeReader hP)
        rintro (_ | _) l w₂ h₂ <;> exact h₂
      · obtain ⟨hreader, hrendered⟩ := hP
        refine wp_mono ?_ (wp_closeReader_ended hrendered.quiet hreader)
        rintro _ l w₂ ⟨rfl, rfl⟩
        exact hrendered
    · rintro (e | output) l w₁ hP
      · exact hP
      · exact hP.elim
  · obtain ⟨rfl, rfl⟩ := hP
    exact ⟨fun _ _ => rfl, nofun, nofun, fun _ => hquiet, hinvoked⟩

/-! ## All or nothing -/

/-- **All or nothing.** If a rendering of a valid crop path raises, its destination is what it was
before, no partial file is left, and a started encoder is finished. If it returns, the encoder has
been delivered one frame for each crop, which are those of all frames of the source, and the
destination is the file that has passed the checks. -/
theorem renderCropPath_all_or_nothing (str : Raised → String) (int : String → Option ℤ)
    (binary : String) (hvalid : validateCropPath cropPath metadata aspectRatio = .ok ())
    (hquiet : w.Quiet) :
    (renderCropPath str int binary source destination cropPath metadata aspectRatio).wp
      (renderSetting tools)
      (Finally (fun output _ w' =>
          Rendered tools int (encoderArguments binary source destination metadata aspectRatio)
            (tools.frames source.text metadata) cropPath metadata aspectRatio destination.text w.files
            output w' ∧
          ∃ p ∈ w'.encoder, (p.delivered.length : ℤ) = cropPath.length *
            ((outputDimensions aspectRatio).2 * ((outputDimensions aspectRatio).1 * 3)))
        fun l' w' => w'.files destination.text = w.files destination.text ∧
          Undone (encoderArguments binary source destination metadata aspectRatio) w.files l' w')
      .init w := by
  refine wp_mono ?_ (wp_renderCropPath hvalid hquiet)
  rintro (e | output) l w' hP
  · refine ⟨hP.files _ ?_, hP⟩
    rw [outputPath_renderArguments]
    exact destination.partialPath_ne.symm
  · obtain ⟨images, c, -, hrendering, p, hp, -, -, hdelivered⟩ := hP.rendering
    refine ⟨hP, p, hp, ?_⟩
    rw [hdelivered]
    exact hrendering.played.bytes_length

end FFmpegRenderer

/-! ## A video of three frames -/

/-- A file with its metadata and its frame count. -/
def threeFramesTools : RenderTools (MediaMetadata × ℕ) where
  resize image size := .ok (some ⟨size.2.toNat, size.1.toNat, fun row column =>
    image.pixel (row * image.height / size.2.toNat) (column * image.width / size.1.toNat)⟩)
  frames _ _ := [(0, 0), (1, 33), (2, 67)].map fun frame =>
    ⟨frame.1, frame.2, some ⟨1080, 1920, fun _ _ => ⟨0, 0, 0⟩⟩⟩
  probes c metadata := c.1 = metadata
  decodes c report := report = "frame=" ++ toString c.2 ++ "\nprogress=end\n"
  encodes _ bytes c := c.2 * (1920 * (1080 * 3)) = bytes.length

def threeFramesMedia : MediaMetadata := .probed 1920 1080 30 (1 / 10) "h264" 0 none

/-- The camera pans by twelve pixels to the right, and widens the crop at its left edge. -/
def threeFramesCrops : List (CropRect ℚ) :=
  [⟨600, 60, 540, 960⟩, ⟨612, 60, 540, 960⟩, ⟨612, 0, 1215 / 2, 1080⟩]

def threeFramesWorld : RenderWorld (MediaMetadata × ℕ) := ⟨fun _ => none, none, none, false, false⟩

def scratchSource : PurePath := ⟨"/scratch", "source", ".mp4"⟩

def scratchOutput : PurePath := ⟨"/scratch", "output", ".mp4"⟩

theorem renderCropPath_all_or_nothing_threeFrames :
    (FFmpegRenderer.renderCropPath (fun _ => "") String.toInt? "ffmpeg" scratchSource scratchOutput
      (threeFramesCrops.map (·.floats)) threeFramesMedia .portrait).wp
      (renderSetting threeFramesTools)
      (Finally (fun output _ w' =>
          Rendered threeFramesTools String.toInt? (FFmpegRenderer.encoderArguments "ffmpeg"
            scratchSource scratchOutput threeFramesMedia .portrait)
            (threeFramesTools.frames scratchSource.text threeFramesMedia)
            (threeFramesCrops.map (·.floats)) threeFramesMedia .portrait scratchOutput.text
            threeFramesWorld.files output w' ∧
          ∃ p ∈ w'.encoder, (p.delivered.length : ℤ) = (3 : ℕ) * (1920 * (1080 * 3)))
        fun l' w' => w'.files scratchOutput.text = none ∧
          Undone (FFmpegRenderer.encoderArguments "ffmpeg" scratchSource scratchOutput
            threeFramesMedia .portrait) threeFramesWorld.files l' w')
      .init threeFramesWorld := by
  have hvalid : validateCropPath (threeFramesCrops.map (·.floats)) threeFramesMedia .portrait =
      .ok () := by decide +kernel
  have hquiet : threeFramesWorld.Quiet := fun p hp => nomatch hp
  exact FFmpegRenderer.renderCropPath_all_or_nothing _ _ _ hvalid hquiet

end BoulderFrame
