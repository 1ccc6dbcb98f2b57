import BoulderFrame.Media.RenderRuns
import BoulderFrame.Pipeline.RenderCache

/-!
# The handlers that return

In a directory without a trace, the handlers have runs that return: if the source can be inspected,
analyzed and cut along its crop path, and the tools accept what the encoder makes of it.

## Main definitions

* `ScratchWorld.setFile`: a JSON file is replaced
* `Ready`: the inputs of a job can be loaded
* `Renders`: the source can be rendered along a crop path

## Main results

* `returns_inputs`, `returns_analyzedCropPath`: the inputs are loaded, and analyzed
* `returns_render`, `returns_renderAgain`: the output is rendered, or taken over
-/

namespace BoulderFrame

open Routine ProcessingPipeline ScratchWorld FFmpegRenderer

variable {K Text Pixels Content : Type} [Field K] [LinearOrder K] [Elementary K] [FloorRing K]
  {tools : ScratchTools K Pixels Content} {settings : ScratchSettings K Text} {job : ScratchJob K}
  {debugCapture : Bool} {inputs : PipelineInputs K} {w w' : ScratchWorld Text Content}

/-! ## The calls -/

/-- One call on the directory. -/
theorem returns_onScratch {e : ScratchEffect K Text} {a : e.Result}
    (h : ScratchWorld.Step tools debugCapture w e (.ok a) w') :
    (onScratch e).Returns (scratchSetting tools debugCapture) () w a () w' :=
  .call ⟨.idle, rfl, rfl⟩ h rfl

theorem returns_isFile {file : ScratchFile} {o : Option Text} (h : w.files file = o) :
    (onScratch (.isFile file) : ScratchRoutine K Text Bool).Returns
      (scratchSetting tools debugCapture) () w o.isSome () w := by
  rw [← h]
  exact returns_onScratch .isFile

theorem returns_pathExists {path : String} {o : Option Content} (h : w.media.files path = o) :
    (onScratch (.pathExists path) : ScratchRoutine K Text Bool).Returns
      (scratchSetting tools debugCapture) () w o.isSome () w := by
  rw [← h]
  exact returns_onScratch .pathExists

/-- A rendering in the directory. -/
theorem returns_onMedia {α : Type} {m : RenderRoutine K α} {a : α} {l : RenderVariables}
    {media : RenderWorld Content}
    (h : m.Returns (renderSetting tools.render) .init w.media a l media) :
    (onMedia m : ScratchRoutine K Text α).Returns (scratchSetting tools debugCapture) () w a ()
      { w with media := media } := by
  have hrely : ∀ s s₁ : RenderWorld Content, RenderWorld.Rely tools.render s s₁ →
      (scratchSetting tools debugCapture).rely { w with media := s } { w with media := s₁ } :=
    fun _ _ h => ⟨h, rfl, rfl⟩
  have hsem : ∀ e (s : RenderWorld Content) r s₁, RenderWorld.Step tools.render s e r s₁ →
      (scratchSetting tools debugCapture).sem (.inl e) { w with media := s } r
        { w with media := s₁ } := fun _ _ _ _ h => ⟨h, rfl, rfl⟩
  have hinl := Prog.Run.inl hrely hsem h
  exact .scope hinl

namespace ScratchWorld

/-- A JSON file is replaced. -/
def setFile (w : ScratchWorld Text Content) (file : ScratchFile) (text : Text) :
    ScratchWorld Text Content :=
  { w with
    files := Function.update w.files file (some text)
    temporaries := Function.update w.temporaries file none }

theorem setFile_files (w : ScratchWorld Text Content) (file : ScratchFile) (text : Text) :
    (w.setFile file text).files file = some text := Function.update_self ..

/-- What was under the temporary name does not matter. -/
theorem setFile_temporaries (w : ScratchWorld Text Content) (file : ScratchFile) (text : Text)
    (old : Option Text) :
    { w with temporaries := Function.update w.temporaries file old }.setFile file text =
      w.setFile file text := by
  simp only [setFile, Function.update_idem]

theorem setFile_files_of_ne {file file' : ScratchFile} {text : Text} (h : file' ≠ file) :
    (w.setFile file text).files file' = w.files file' := Function.update_of_ne h ..

end ScratchWorld

theorem returns_writeFile {file : ScratchFile} {text : Text} :
    (do
      onScratch (.writeTemporary file text)
      onScratch (.replaceFile file) : ScratchRoutine K Text Unit).Returns
      (scratchSetting tools debugCapture) () w () () (w.setFile file text) := by
  rw [← w.setFile_temporaries file text (some text)]
  exact .bind (returns_onScratch .written) (returns_onScratch (.replaced (Function.update_self ..)))

theorem returns_replaceBy {file : ScratchFile} {text : Text} :
    (replaceBy file (.ok text) : ScratchRoutine K Text Unit).Returns
      (scratchSetting tools debugCapture) () w () () (w.setFile file text) := by
  rw [← w.setFile_temporaries file text none]
  exact .bind (returns_onScratch .unlinkedTemporary)
    (.handle (.bind (.ofExcept rfl) returns_writeFile))

theorem returns_writeRenderCache {fields : List (String × String)} :
    (writeRenderCache settings fields).Returns (scratchSetting tools debugCapture) () w () ()
      (w.setFile .renderCache (settings.format.ofValue (.dict (fields.map fun f => (f.1, .str f.2))))) :=
  returns_replaceBy

/-- There is no trace to be marked. -/
theorem returns_markTrace (htrace : w.files .analysisTrace = none) :
    (markTrace settings).Returns (scratchSetting tools debugCapture) () w () () w :=
  .bind (returns_isFile htrace) .pure

theorem returns_loadAnalysisReport_none (htext : w.files .analysisReport = none) :
    (loadAnalysisReport settings).Returns (scratchSetting tools debugCapture) () w [] () w :=
  .bind (returns_isFile htext) .pure

/-! ## The inputs -/

/-- The inputs of a job can be loaded: its source is of a constant frame rate. -/
structure Ready (tools : ScratchTools K Pixels Content) (settings : ScratchSettings K Text)
    (job : ScratchJob K) (inputs : PipelineInputs K) : Prop where
  source : ∃ source, job.source = .ok source
  configured : job.settings = .ok (inputs.selection, inputs.outputSettings, inputs.detectionSampleFps)
  inspected : tools.inspect (tools.stored job.storageKey) false = .ok inputs.metadata
  selected : ∃ index, inputs.metadata.frameForTimeMs inputs.selection.frameTimeMs = .ok index
  original : inputs.source = sourceOriginal settings
  output : inputs.output = outputFile settings

/-- The source has been downloaded. -/
def downloaded (tools : ScratchTools K Pixels Content) (settings : ScratchSettings K Text)
    (job : ScratchJob K) (w : ScratchWorld Text Content) : ScratchWorld Text Content :=
  w.setMedia (sourceOriginal settings).text (some (tools.stored job.storageKey))

omit [Field K] [LinearOrder K] [Elementary K] [FloorRing K] in
/-- A source that is there already is not downloaded again. -/
theorem downloaded_eq
    (hc : w.media.files (sourceOriginal settings).text = some (tools.stored job.storageKey)) :
    downloaded tools settings job w = w := by
  simp only [downloaded, setMedia, ← hc, Function.update_eq_self]

/-- **The inputs are loaded**; the source is downloaded if it is missing. -/
theorem returns_inputs (h : Ready tools settings job inputs)
    (hsource : ∀ c ∈ w.media.files (sourceOriginal settings).text, c = tools.stored job.storageKey) :
    (ProcessingPipeline.inputs settings job).Returns (scratchSetting tools debugCapture) () w inputs
      () (downloaded tools settings job w) := by
  obtain ⟨source, hjob⟩ := h.source
  obtain ⟨index, hindex⟩ := h.selected
  have hdownload : (if (w.media.files (sourceOriginal settings).text).isSome then pure ()
      else onScratch (.download job.storageKey (sourceOriginal settings).text) :
      ScratchRoutine K Text Unit).Returns (scratchSetting tools debugCapture) () w () ()
      (downloaded tools settings job w) := by
    cases hc : w.media.files (sourceOriginal settings).text with
    | none => exact returns_onScratch .downloaded
    | some c =>
      obtain rfl := hsource c hc
      rw [downloaded_eq hc]
      exact .pure
  have hinspect : ScratchWorld.Step tools debugCapture (downloaded tools settings job w)
      (.inspectSource (sourceOriginal settings).text false) (.ok inputs.metadata)
      (downloaded tools settings job w) := by
    rw [← h.inspected]
    exact .inspected (Function.update_self ..)
  unfold ProcessingPipeline.inputs
  refine .bind (.ofExcept hjob) (.bind (.ofExcept h.configured) ?_)
  refine .bind (returns_pathExists rfl) (.bind hdownload ?_)
  refine .bind (.handle (.bind (returns_onScratch hinspect) .pure)) (.bind .pure ?_)
  refine .bind (.ofExcept hindex) ?_
  rw [← h.original, ← h.output]
  exact .pure

/-! ## The crop path -/

variable {text report : Text} {crops : List (CropRect (FloatValue K))}

theorem returns_cropPath_stored (htext : w.files .cropPath = some text)
    (hload : loadCropPath settings.floatOfText inputs.metadata (settings.format.lines text) =
      .ok crops) :
    (cropPath settings inputs).Returns (scratchSetting tools debugCapture) () w crops () w :=
  .bind (returns_isFile htext) (.bind (returns_onScratch (.read htext)) (.ofExcept hload))

/-- The source can be rendered along the crop path of the text. -/
structure Renders (tools : ScratchTools K Pixels Content) (settings : ScratchSettings K Text)
    (inputs : PipelineInputs K) (text : Text) (crops : List (CropRect (FloatValue K)))
    (images : List (Image Bgr)) (c : Content) (output : MediaMetadata) : Prop where
  loads : loadCropPath settings.floatOfText inputs.metadata (settings.format.lines text) = .ok crops
  valid : validateCropPath crops inputs.metadata inputs.outputSettings.aspectRatio = .ok ()
  shown : ShownFrom tools.render inputs.metadata inputs.outputSettings.aspectRatio 0
    (tools.frames inputs.source.text inputs.metadata) crops images
  encoded : tools.encodes (encoderArguments settings.binary inputs.source inputs.output inputs.metadata
    inputs.outputSettings.aspectRatio) (images.flatMap frameBytes) c
  validated : Validated K tools.render settings.int inputs.metadata inputs.outputSettings.aspectRatio c
    output

/-- What a cache file says of an output. -/
def cacheText (settings : ScratchSettings K Text) (inputs : PipelineInputs K) (text : Text) : Text :=
  settings.format.ofValue (.dict ((renderCacheFields inputs.outputSettings.aspectRatio
    (settings.format.sha256 text)).map fun f => (f.1, .str f.2)))

/-- What `_render` leaves that has rendered the output. -/
def renderedAnew (settings : ScratchSettings K Text) (inputs : PipelineInputs K) (text : Text)
    (images : List (Image Bgr)) (c : Content) (w : ScratchWorld Text Content) :
    ScratchWorld Text Content :=
  { w with media := rendered w.media (encoderArguments settings.binary inputs.source inputs.output
      inputs.metadata inputs.outputSettings.aspectRatio) inputs.output (images.flatMap frameBytes) c
    }.setFile .renderCache (cacheText settings inputs text)

variable {images : List (Image Bgr)} {c : Content} {output : MediaMetadata}

omit [Field K] [LinearOrder K] [Elementary K] [FloorRing K] in
theorem downloaded_source : (downloaded tools settings job w).media.files
    (sourceOriginal settings).text = some (tools.stored job.storageKey) := Function.update_self ..

omit [Field K] [LinearOrder K] [Elementary K] [FloorRing K] in
theorem downloaded_output : (downloaded tools settings job w).media.files
    (outputFile settings).text = w.media.files (outputFile settings).text :=
  Function.update_of_ne (isSource_original settings).ne_output.symm ..

omit [Field K] [LinearOrder K] [Elementary K] [FloorRing K] in
theorem renderedAnew_output :
    (renderedAnew settings inputs text images c w).media.files inputs.output.text = some c :=
  Function.update_self ..

omit [Field K] [LinearOrder K] [Elementary K] [FloorRing K] in
/-- The source stays where it is. -/
theorem renderedAnew_source (h : inputs.output = outputFile settings) :
    (renderedAnew settings inputs text images c w).media.files (sourceOriginal settings).text =
      w.media.files (sourceOriginal settings).text := by
  have hpath := isSource_original settings
  simp only [renderedAnew, setFile, rendered, h]
  rw [Function.update_of_ne hpath.ne_output, Function.update_of_ne hpath.ne_partial]

omit [Field K] [LinearOrder K] [Elementary K] [FloorRing K] in
theorem renderedAnew_cache : (renderedAnew settings inputs text images c w).files .renderCache =
    some (cacheText settings inputs text) := setFile_files ..

/-- **The output is rendered** if there is none, or the cache file is about another crop path. -/
theorem returns_render (h : Renders tools settings inputs text crops images c output)
    (hcrops : (cropPath settings inputs).Returns (scratchSetting tools debugCapture) () w crops () w')
    (htext : w'.files .cropPath = some text) (htrace : w'.files .analysisTrace = none)
    (hstale : ∀ c ∈ w'.media.files inputs.output.text, ∃ cache,
      w'.files .renderCache = some cache ∧ (settings.format.value cache).any (isTexts
        (renderCacheFields inputs.outputSettings.aspectRatio (settings.format.sha256 text))) = false) :
    (render settings inputs).Returns (scratchSetting tools debugCapture) () w output ()
      (renderedAnew settings inputs text images c w') := by
  have hrendered : renderedAnew settings inputs text images c w' =
      renderedAnew settings inputs text images c
        { w' with files := Function.update w'.files .renderCache none } := by
    simp only [renderedAnew, setFile, Function.update_idem]
  have hanew : (do
      onScratch (.unlinkFile .renderCache)
      let rendered ← onMedia (renderCropPath settings.str settings.int settings.binary inputs.source
        inputs.output crops inputs.metadata inputs.outputSettings.aspectRatio)
      writeRenderCache settings (renderCacheFields inputs.outputSettings.aspectRatio
        (settings.format.sha256 text))
      markTrace settings
      pure rendered : ScratchRoutine K Text MediaMetadata).Returns
      (scratchSetting tools debugCapture) () w' output ()
      (renderedAnew settings inputs text images c w') := by
    rw [hrendered]
    refine .bind (returns_onScratch .unlinked) ?_
    refine .bind (returns_onMedia (returns_renderCropPath h.valid h.shown h.encoded h.validated)) ?_
    refine .bind returns_writeRenderCache (.bind (returns_markTrace ?_) .pure)
    have hne : ScratchFile.analysisTrace ≠ .renderCache := by decide
    have hkept : Function.update w'.files .renderCache none .analysisTrace = w'.files .analysisTrace :=
      Function.update_of_ne hne ..
    exact (setFile_files_of_ne hne).trans (hkept.trans htrace)
  unfold render
  refine .bind hcrops (.bind (returns_onScratch (.read htext)) (.bind (returns_pathExists rfl) ?_))
  cases hold : w'.media.files inputs.output.text with
  | none => exact .bind .pure hanew
  | some old =>
    obtain ⟨cache, hcache, hdiffers⟩ := hstale old hold
    have hcached : (renderCacheMatches settings (renderCacheFields inputs.outputSettings.aspectRatio
        (settings.format.sha256 text))).Returns (scratchSetting tools debugCapture) () w' false () w' := by
      refine .handle (.bind (returns_onScratch (.read hcache)) ?_)
      rw [hdiffers]
      exact .pure
    exact .bind hcached hanew

/-- The rendering handler, without its log entries. -/
theorem returns_rendering {s₁ s₂ : ScratchWorld Text Content} {fields : List (String × Value K)}
    (hdebug : settings.debugCapture = false)
    (hinputs : (ProcessingPipeline.inputs settings job).Returns (scratchSetting tools debugCapture) () w
      inputs () s₁)
    (hrender : (render settings inputs).Returns (scratchSetting tools debugCapture) () s₁ output () s₂)
    (hreport : (loadAnalysisReport settings).Returns (scratchSetting tools debugCapture) () s₂ fields ()
      s₂) :
    (rendering settings job).Returns (scratchSetting tools debugCapture) () w
      (outputReport fields inputs.metadata) () s₂ := by
  have hlog : (logRenderProgress settings inputs).Returns (scratchSetting tools debugCapture) () s₂ ()
      () s₂ := by
    unfold logRenderProgress
    rw [if_neg (by simp [hdebug])]
    exact .pure
  exact .bind hinputs (.bind hrender (.bind hlog (.bind hreport .pure)))

end BoulderFrame
