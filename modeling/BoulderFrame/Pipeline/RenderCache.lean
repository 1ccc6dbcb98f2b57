import BoulderFrame.Pipeline.PreparedInputs

/-!
# The cache of the rendered output

The cache file ties the output to the crop path that it was rendered from and to its aspect ratio.
Whatever fails between the writes of the three files, a cache file never vouches for another output:
it is removed before the rendering, and written after the output has been replaced.

## Main definitions

* `RenderingOf`: a content is a rendering of a crop path, with its metadata
* `Vouched`: the cache file vouches for renderings only

## Main results

* `wp_render`: `_render` keeps this, and returns with a rendering of the stored crop path
-/

namespace BoulderFrame

open Routine ProcessingPipeline ScratchWorld FFmpegRenderer

variable {K Text Pixels Content : Type} [Field K] [LinearOrder K] [Elementary K] [FloorRing K]
  {tools : ScratchTools K Pixels Content} {settings : ScratchSettings K Text} {job : ScratchJob K}
  {debugCapture : Bool} {w w' : ScratchWorld Text Content}

/-! ## The calls -/

/-- **A rendering** in the directory. -/
theorem wp_onMedia {α : Type} {m : RenderRoutine K α}
    {Q : Except Raised α → RenderVariables → RenderWorld Content → Prop}
    (h : m.wp (renderSetting tools.render) Q .init w.media) :
    (onMedia m : ScratchRoutine K Text α).wp (scratchSetting tools debugCapture)
      (fun r _ w' => (∃ l, Q r l w'.media) ∧ w'.files = w.files) () w := by
  have hinl : (inl m : Routine (RenderEffect K ⊕ ScratchEffect K Text)
      (Sum.elim RenderEffect.Answer ScratchEffect.Answer) Raised RenderVariables α).wp
      (scratchSetting tools debugCapture)
      (fun r l w' => Q r l w'.media ∧ w'.files = w.files) .init w := by
    refine wp_inl (T := renderSetting tools.render) (π := ScratchWorld.media)
      (I := fun w' => w'.files = w.files) ?_ ?_ rfl h
    · exact fun w₁ w₂ hfiles hrely => ⟨hrely.1, hrely.2.1.trans hfiles⟩
    · exact fun e w₁ a w₂ hfiles hstep => ⟨hstep.1, fun h => h, hstep.2.1.trans hfiles⟩
  rw [onMedia, wp_scope]
  exact wp_mono (fun r l w' h => ⟨⟨l, h.1⟩, h.2⟩) hinl

/-- The trace is marked, or left as it is. -/
theorem wp_markTrace (hquiet : w.media.Quiet) :
    (markTrace settings).wp (scratchSetting tools debugCapture)
      (fun _ _ w' => w.Touches [.analysisTrace] w') () w := by
  unfold markTrace
  refine wp_bind_of (wp_isFile hquiet) ?_ fun _ _ _ h => h ▸ .refl
  rintro isFile l w ⟨rfl, -⟩
  split_ifs
  · refine wp_bind_of (wp_unlinkTemporary hquiet) ?_ fun _ _ _ h => h.mono (List.nil_subset _)
    rintro - l w₁ h₁
    have hbody : (do
        let text : Text ← onScratch (.readFile .analysisTrace)
        let marked ← ofExcept (markedTrace settings (settings.format.lines text))
        onScratch (.writeTemporary .analysisTrace (settings.format.ofLines marked))
        onScratch (.replaceFile .analysisTrace) : ScratchRoutine K Text Unit).wp
        (scratchSetting tools debugCapture)
        (fun _ _ w' => w.Touches [.analysisTrace] w') l w₁ := by
      have h₁' := h₁.mono (List.nil_subset [.analysisTrace])
      refine wp_bind_of (wp_readFile (h₁.quiet hquiet)) ?_ fun _ _ _ h => h ▸ h₁'
      rintro text l w₁ ⟨rfl, -⟩
      rw [wp_bind, wp_ofExcept]
      cases markedTrace settings (settings.format.lines text) with
      | error e => exact h₁'
      | ok marked =>
        refine wp_mono ?_ (wp_writeFile (h₁.quiet hquiet))
        rintro (e | _) l w₂ h₂
        · exact h₁'.trans h₂ (List.nil_subset _)
        · exact h₁'.trans h₂.1 (List.Subset.refl _)
    refine wp_handle_of hbody (fun _ _ _ h => h) fun e l w₂ h₂ => ?_
    refine wp_mono ?_ (wp_unlinkTemporary (h₂.quiet hquiet))
    exact fun _ _ w₃ h₃ => h₂.trans h₃ (List.nil_subset _)
  · exact .refl

/-- The cache file is read. -/
theorem wp_renderCacheMatches (hquiet : w.media.Quiet) (expected : List (String × String)) :
    (renderCacheMatches settings expected).wp (scratchSetting tools debugCapture)
      (Ends (fun same w' => w' = w ∧ (same = true → ∃ cache, w.files .renderCache = some cache ∧
        (settings.format.value cache).any (isTexts expected) = true)) (· = w)) () w := by
  unfold renderCacheMatches
  rw [wp_handle, wp_bind]
  refine wp_mono ?_ (wp_readFile hquiet)
  rintro (e | cache) l w' h
  · dsimp only
    split_ifs
    · exact ⟨h, fun h => nomatch h⟩
    · exact h
  · obtain ⟨rfl, hcache⟩ := h
    exact ⟨rfl, fun hsame => ⟨cache, hcache, hsame⟩⟩

/-! ## The cache file -/

omit [Field K] [LinearOrder K] [Elementary K] [FloorRing K] in
/-- A cache file vouches for what has been written to it only. -/
theorem isTexts_renderCacheFields {aspectRatio aspectRatio' : AspectRatio} {sha sha' : String}
    (h : isTexts (renderCacheFields aspectRatio' sha')
      (.dict ((renderCacheFields aspectRatio sha).map fun f => (f.1, (.str f.2 : Value K)))) = true) :
    aspectRatio = aspectRatio' ∧ sha = sha' := by
  simp only [isTexts, renderCacheFields, List.map_cons, List.map_nil, List.all_cons, List.all_nil,
    Bool.and_eq_true, Value.get, Value.field] at h
  have hratio : aspectRatio.value = aspectRatio'.value := of_decide_eq_true h.2.1
  have hsha : sha = sha' := of_decide_eq_true h.2.2.1
  exact ⟨by cases aspectRatio <;> cases aspectRatio' <;> first | rfl | exact absurd hratio (by decide),
    hsha⟩

omit [Field K] [LinearOrder K] [Elementary K] [FloorRing K] in
theorem plain_renderCacheFields (aspectRatio : AspectRatio) (sha : String) :
    (Value.dict ((renderCacheFields aspectRatio sha).map fun f => (f.1, (.str f.2 : Value K)))).Plain :=
  .fields (by decide : ["aspect_ratio", "crop_path_sha256", "renderer_version"].Nodup)
    ⟨.str _, .str _, .str _⟩

/-- The content is a rendering of the crop path of the text, from the source of the directory. -/
structure RenderingOf (tools : ScratchTools K Pixels Content) (settings : ScratchSettings K Text)
    (w : ScratchWorld Text Content) (aspectRatio : AspectRatio) (text : Text) (c : Content)
    (source : PurePath) (metadata : MediaMetadata) (crops : List (CropRect (FloatValue K)))
    (images : List (Image Bgr)) (output : MediaMetadata) : Prop where
  found : SourceOf tools settings w source metadata
  loads : loadCropPath settings.floatOfText metadata (settings.format.lines text) = .ok crops
  rendering : IsRendering tools.render settings.int (encoderArguments settings.binary source
    (outputFile settings) metadata aspectRatio) (tools.frames source.text metadata) crops metadata
    aspectRatio images c output

/-- What is said of the aspect ratio and the digest in the cache file is so of the output. -/
structure Vouched (tools : ScratchTools K Pixels Content) (settings : ScratchSettings K Text)
    (texts : Set Text) (w : ScratchWorld Text Content) : Prop where
  quiet : w.media.signalFailed = false → w.media.Quiet
  cached : ∀ cache aspectRatio sha, w.files .renderCache = some cache →
    (settings.format.value cache).any (isTexts (renderCacheFields aspectRatio sha)) = true →
    ∀ c, w.media.files (outputFile settings).text = some c → ∃ text ∈ texts,
      settings.format.sha256 text = sha ∧ ∃ source metadata crops images output,
        RenderingOf tools settings w aspectRatio text c source metadata crops images output

namespace Vouched

variable {texts : Set Text} {changing : List ScratchFile}

omit [Elementary K] in
/-- The other JSON files do not matter. -/
theorem touches (h : Vouched tools settings texts w) (htouches : w.Touches changing w')
    (hcache : .renderCache ∉ changing) : Vouched tools settings texts w' := by
  refine ⟨fun hworks => htouches.quiet (h.quiet (htouches.media ▸ hworks)), ?_⟩
  rw [htouches.files _ hcache, htouches.media]
  intro cache aspectRatio sha hcache hsame c hc
  obtain ⟨text, htext, hsha, source, metadata, crops, images, output, hrendering⟩ :=
    h.cached cache aspectRatio sha hcache hsame c hc
  refine ⟨text, htext, hsha, source, metadata, crops, images, output, ?_, hrendering.loads,
    hrendering.rendering⟩
  exact hrendering.found.later fun _ _ _ hc => htouches.media ▸ hc

omit [Elementary K] in
/-- Loading the inputs changes no output. -/
theorem loads (h : Vouched tools settings texts w) (hloads : Loads settings w w') :
    Vouched tools settings texts w' := by
  have houtput : w'.media.files (outputFile settings).text =
      w.media.files (outputFile settings).text :=
    hloads.others _ (isSource_original settings).ne_output.symm
      (isSource_normalized settings).ne_output.symm
  refine ⟨fun hworks => hloads.quiet (h.quiet (hloads.signalFailed ▸ hworks)), ?_⟩
  rw [hloads.files, houtput]
  intro cache aspectRatio sha hcache hsame c hc
  obtain ⟨text, htext, hsha, source, metadata, crops, images, output, hrendering⟩ :=
    h.cached cache aspectRatio sha hcache hsame c hc
  exact ⟨text, htext, hsha, source, metadata, crops, images, output,
    hrendering.found.later fun _ _ _ hc => hloads.kept _ _ hc, hrendering.loads,
    hrendering.rendering⟩

omit [Elementary K] in
/-- Without a cache file there is nothing to keep. -/
theorem of_none (hquiet : w.media.signalFailed = false → w.media.Quiet)
    (hcache : w.files .renderCache = none) : Vouched tools settings texts w := by
  refine ⟨hquiet, fun cache aspectRatio sha hsome => ?_⟩
  rw [hcache] at hsome
  cases hsome

end Vouched

/-! ## The output -/

omit [Elementary K] in
/-- A rendering that raises leaves all files but the partial one, if it does not return. -/
theorem wp_renderCropPath_ends {media : RenderWorld Content} {source destination : PurePath}
    {crops : List (CropRect (FloatValue K))} {metadata : MediaMetadata} {aspectRatio : AspectRatio}
    (hquiet : media.Quiet) :
    (renderCropPath settings.str settings.int settings.binary source destination crops metadata
      aspectRatio).wp (renderSetting tools.render)
      (Finally (fun output _ media' => RenderWorld.Rendered tools.render settings.int
          (encoderArguments settings.binary source destination metadata aspectRatio)
          (tools.frames source.text metadata) crops metadata aspectRatio destination.text media.files
          output media')
        fun _ media' => (media'.signalFailed = false → media'.Quiet) ∧
          ∀ path ≠ destination.partialPath.text, media'.files path = media.files path)
      .init media := by
  cases hvalid : validateCropPath crops metadata aspectRatio with
  | error e =>
    unfold renderCropPath
    rw [wp_bind, wp_ofExcept, hvalid]
    exact ⟨fun _ => hquiet, fun _ _ => rfl⟩
  | ok _ =>
    refine wp_mono ?_ (wp_renderCropPath hvalid hquiet)
    rintro (e | output) l media' h
    · exact ⟨h.gone, fun path hpath => h.files path (by rwa [outputPath_renderArguments])⟩
    · exact h

/-- The crop path that is returned is that of the file. -/
theorem wp_cropPath_loads (hquiet : w.media.Quiet) (hformat : settings.format.Exact)
    {inputs : PipelineInputs K} (hrate : 0 ≤ inputs.metadata.frameRate) :
    (cropPath settings inputs).wp (scratchSetting tools settings.debugCapture)
      (Ends (fun crops w' => w.Touches analysisFiles w' ∧ ∃ text, w'.files .cropPath = some text ∧
          loadCropPath settings.floatOfText inputs.metadata (settings.format.lines text) = .ok crops)
        (w.Touches analysisFiles)) () w := by
  refine wp_mono ?_ (wp_cropPath hquiet)
  rintro (e | crops) l w' h
  · exact h
  · obtain ⟨rfl, htext⟩ | ⟨-, htouches, c, report, text, -, hplanned, -, htext⟩ := h
    · exact ⟨.refl, htext⟩
    · exact ⟨htouches, text, htext, hplanned.loads hformat hrate⟩

variable {texts : Set Text} {inputs : PipelineInputs K}

/-- What a return of `_render` leaves: the output is a rendering of the stored crop path. -/
structure Current (tools : ScratchTools K Pixels Content) (settings : ScratchSettings K Text)
    (inputs : PipelineInputs K) (output : MediaMetadata) (w : ScratchWorld Text Content) : Prop where
  quiet : w.media.Quiet
  rendering : ∃ text c crops images, w.files .cropPath = some text ∧
    w.media.files (outputFile settings).text = some c ∧
    RenderingOf tools settings w inputs.outputSettings.aspectRatio text c inputs.source
      inputs.metadata crops images output

omit [Elementary K] in
theorem Current.touches {output : MediaMetadata} {changing : List ScratchFile}
    (h : Current tools settings inputs output w) (htouches : w.Touches changing w')
    (hcrops : .cropPath ∉ changing) : Current tools settings inputs output w' := by
  refine ⟨htouches.quiet h.quiet, ?_⟩
  rw [htouches.files _ hcrops, htouches.media]
  obtain ⟨text, c, crops, images, htext, hc, hrendering⟩ := h.rendering
  exact ⟨text, c, crops, images, htext, hc, hrendering.found.later fun _ _ _ hc => htouches.media ▸ hc,
    hrendering.loads, hrendering.rendering⟩

/-- The stored crop path is one of the texts. -/
def Occurs (texts : Set Text) (w : ScratchWorld Text Content) : Prop :=
  ∀ text, w.files .cropPath = some text → text ∈ texts

omit [Elementary K] in
/-- **An output that the cache file vouches for** is a rendering of the stored crop path, if it is
validated again. -/
theorem Vouched.current {cache text : Text} {crops : List (CropRect (FloatValue K))} {c : Content}
    {output : MediaMetadata} (h : Vouched tools settings texts w)
    (hinjective : Set.InjOn settings.format.sha256 texts) (hquiet : w.media.Quiet)
    (hfound : SourceOf tools settings w inputs.source inputs.metadata)
    (htext : w.files .cropPath = some text) (hoccurs : text ∈ texts)
    (hload : loadCropPath settings.floatOfText inputs.metadata (settings.format.lines text) =
      .ok crops)
    (hcache : w.files .renderCache = some cache)
    (hsame : (settings.format.value cache).any (isTexts (renderCacheFields
      inputs.outputSettings.aspectRatio (settings.format.sha256 text))) = true)
    (hc : w.media.files (outputFile settings).text = some c)
    (hvalid : Validated K tools.render settings.int inputs.metadata inputs.outputSettings.aspectRatio c
      output) : Current tools settings inputs output w := by
  obtain ⟨text', htext', hsha, source, metadata, crops', images, output', hfound', hload', hplayed,
    hencoded, hvalid'⟩ := h.cached cache _ _ hcache hsame c hc
  obtain rfl := hinjective htext' hoccurs hsha
  obtain ⟨rfl, rfl⟩ := hfound.unique hfound'
  obtain rfl := Except.ok.inj (hload'.symm.trans hload)
  exact ⟨hquiet, text', c, crops', images, htext, hc, hfound, hload, hplayed, hencoded, hvalid⟩

/-- However `_render` ends, the cache file vouches for renderings only; if it returns, the output is
a rendering of the stored crop path. -/
structure RenderEnds (tools : ScratchTools K Pixels Content) (settings : ScratchSettings K Text)
    (texts : Set Text) (inputs : PipelineInputs K) (r : Except Raised MediaMetadata) (_ : Unit)
    (w' : ScratchWorld Text Content) : Prop where
  returned : ∀ output, r = .ok output → w'.media.Quiet ∧ ∃ text, w'.files .cropPath = some text
  vouched : Occurs texts w' → Vouched tools settings texts w'
  current : Occurs texts w' → ∀ output, r = .ok output → Current tools settings inputs output w'

omit [Elementary K] in
theorem RenderEnds.failed (h : Vouched tools settings texts w) (e : Raised) :
    RenderEnds tools settings texts inputs (.error e) () w :=
  ⟨nofun, fun _ => h, fun _ => nofun⟩

omit [Elementary K] in
theorem RenderEnds.touches {output : MediaMetadata} {changing : List ScratchFile}
    {r : Except Raised MediaMetadata} (h : RenderEnds tools settings texts inputs (.ok output) () w)
    (htouches : w.Touches changing w') (hcrops : .cropPath ∉ changing)
    (hcache : .renderCache ∉ changing) (hr : ∀ output', r = .ok output' → output' = output) :
    RenderEnds tools settings texts inputs r () w' := by
  have hoccurs : Occurs texts w' → Occurs texts w := fun hoccurs text htext =>
    hoccurs text ((htouches.files _ hcrops).trans htext)
  obtain ⟨hquiet, text, htext⟩ := h.returned output rfl
  refine ⟨fun _ _ => ⟨htouches.quiet hquiet, text, (htouches.files _ hcrops).trans htext⟩,
    fun h' => (h.vouched (hoccurs h')).touches htouches hcache, fun h' output' houtput' => ?_⟩
  obtain rfl := hr output' houtput'
  exact (h.current (hoccurs h') _ rfl).touches htouches hcrops

/-- The trace is marked after the output has been rendered or validated. -/
theorem wp_marked {output : MediaMetadata}
    (h : RenderEnds tools settings texts inputs (.ok output) () w) :
    (do
      markTrace settings
      pure output : ScratchRoutine K Text MediaMetadata).wp (scratchSetting tools settings.debugCapture)
      (RenderEnds tools settings texts inputs) () w := by
  refine wp_bind_of (wp_markTrace (h.returned output rfl).1) ?_ ?_
  · exact fun _ _ w' hw' => h.touches hw' (by decide) (by decide) fun _ heq => (Except.ok.inj heq).symm
  · exact fun _ _ w' hw' => h.touches hw' (by decide) (by decide) nofun

variable {text : Text} {crops : List (CropRect (FloatValue K))}

/-- **The output is taken over**, if the cache file vouches for it. -/
theorem wp_takeOver (hinjective : Set.InjOn settings.format.sha256 texts) (hquiet : w.media.Quiet)
    (hvouched : Vouched tools settings texts w) (hinputs : InputsOf tools settings job w inputs)
    (htext : w.files .cropPath = some text)
    (hload : loadCropPath settings.floatOfText inputs.metadata (settings.format.lines text) =
      .ok crops) {cache : Text} (hcache : w.files .renderCache = some cache)
    (hsame : (settings.format.value cache).any (isTexts (renderCacheFields
      inputs.outputSettings.aspectRatio (settings.format.sha256 text))) = true) :
    (do
      let metadata ← onMedia (validateRenderedOutput settings.int settings.binary inputs.output.text
        inputs.metadata inputs.outputSettings.aspectRatio)
      markTrace settings
      pure metadata : ScratchRoutine K Text MediaMetadata).wp
      (scratchSetting tools settings.debugCapture) (RenderEnds tools settings texts inputs) () w := by
  refine wp_bind_of (wp_onMedia (wp_validateRenderedOutput hquiet)) ?_ ?_
  · rintro output l w₁ ⟨⟨_, ⟨-, hmedia⟩, c, hc, hvalid⟩, hfiles⟩
    have h₁ : w.Touches [] w₁ := ⟨hmedia, fun _ _ => by rw [hfiles]⟩
    have htext₁ : w₁.files .cropPath = some text := (h₁.files _ (by simp)).trans htext
    refine wp_marked ⟨fun _ _ => ⟨h₁.quiet hquiet, text, htext₁⟩,
      fun _ => hvouched.touches h₁ (by simp), fun hoccurs output' houtput' => ?_⟩
    obtain rfl := Except.ok.inj houtput'
    exact (hvouched.current hinjective hquiet hinputs.source htext (hoccurs _ htext₁) hload hcache
      hsame (hinputs.output ▸ hc) hvalid).touches h₁ (by simp)
  · rintro e l w₁ ⟨⟨_, -, hmedia⟩, hfiles⟩
    have h₁ : w.Touches [] w₁ := ⟨hmedia, fun _ _ => by rw [hfiles]⟩
    exact .failed (hvouched.touches h₁ (by simp)) e

/-- **The output is rendered**, and the cache file vouches for it afterwards. -/
theorem wp_renderAnew (hformat : settings.format.Exact) (hquiet : w.media.Quiet)
    (hvouched : Vouched tools settings texts w) (hinputs : InputsOf tools settings job w inputs)
    (htext : w.files .cropPath = some text)
    (hload : loadCropPath settings.floatOfText inputs.metadata (settings.format.lines text) =
      .ok crops) :
    (do
      onScratch (.unlinkFile .renderCache)
      let rendered ← onMedia (renderCropPath settings.str settings.int settings.binary inputs.source
        inputs.output crops inputs.metadata inputs.outputSettings.aspectRatio)
      writeRenderCache settings (renderCacheFields inputs.outputSettings.aspectRatio
        (settings.format.sha256 text))
      markTrace settings
      pure rendered : ScratchRoutine K Text MediaMetadata).wp
      (scratchSetting tools settings.debugCapture) (RenderEnds tools settings texts inputs) () w := by
  refine wp_bind_of (wp_unlinkFile hquiet) ?_ fun e _ w₁ h => h ▸ .failed hvouched e
  rintro - l w₁ ⟨h₁, hnone⟩
  have hfound₁ : SourceOf tools settings w₁ inputs.source inputs.metadata :=
    hinputs.source.later fun _ _ _ hc => h₁.media ▸ hc
  refine wp_bind_of (wp_onMedia (wp_renderCropPath_ends (h₁.quiet hquiet))) ?_ ?_
  · rintro output l w₂ ⟨⟨_, hrendered⟩, hfiles⟩
    rw [hinputs.output] at hrendered
    obtain ⟨images, c, hc, hrendering, -⟩ := hrendered.rendering
    have hfound₂ : SourceOf tools settings w₂ inputs.source inputs.metadata :=
      hfound₁.later fun path hpath c hc => (hrendered.others _ hpath.ne_output
        (by rw [outputPath_renderArguments]; exact hpath.ne_partial)).trans hc
    refine wp_bind_of (wp_replaceBy hrendered.quiet) ?_ ?_
    · rintro - l w₃ ⟨h₃, written, hwritten, hcache⟩
      obtain rfl := Except.ok.inj hwritten
      have htext₃ : w₃.files .cropPath = some text := by
        rw [h₃.files _ (by decide), hfiles, h₁.files _ (by decide), htext]
      have hquiet₃ := h₃.quiet hrendered.quiet
      have hof₃ : RenderingOf tools settings w₃ inputs.outputSettings.aspectRatio text c inputs.source
          inputs.metadata crops images output :=
        ⟨hfound₂.later fun _ _ _ hc => h₃.media ▸ hc, hload, hrendering⟩
      have hc₃ : w₃.media.files (outputFile settings).text = some c := h₃.media ▸ hc
      refine wp_marked ⟨fun _ _ => ⟨hquiet₃, text, htext₃⟩, fun hoccurs => ⟨fun _ => hquiet₃, ?_⟩,
        fun _ => ?_⟩
      · intro cache aspectRatio sha hcache' hsame c' hc'
        obtain rfl := Option.some.inj (hcache.symm.trans hcache')
        obtain rfl := Option.some.inj (hc₃.symm.trans hc')
        rw [hformat.value_ofValue (plain_renderCacheFields _ _), Option.any_some] at hsame
        obtain ⟨rfl, rfl⟩ := isTexts_renderCacheFields hsame
        exact ⟨text, hoccurs _ htext₃, rfl, _, _, _, _, _, hof₃⟩
      · intro output' houtput'
        obtain rfl := Except.ok.inj houtput'
        exact ⟨hquiet₃, text, c, crops, images, htext₃, hc₃, hof₃⟩
    · rintro e l w₃ h₃
      exact .failed (.of_none (fun _ => h₃.quiet hrendered.quiet)
        (by rw [h₃.files _ (by simp), hfiles, hnone])) e
  · rintro e l w₂ ⟨⟨_, hquiet₂, hkept⟩, hfiles⟩
    exact .failed (.of_none hquiet₂ (by rw [hfiles, hnone])) e

/-- **The output is rendered or taken over.** However `_render` ends, the cache file vouches for
renderings only; if it returns, the output is a rendering of the stored crop path. -/
theorem wp_render (hformat : settings.format.Exact)
    (hinjective : Set.InjOn settings.format.sha256 texts) (hquiet : w.media.Quiet)
    (hvouched : Vouched tools settings texts w) (hinputs : InputsOf tools settings job w inputs) :
    (render settings inputs).wp (scratchSetting tools settings.debugCapture)
      (RenderEnds tools settings texts inputs) () w := by
  unfold render
  refine wp_bind_of (wp_cropPath_loads hquiet hformat hinputs.source.frameRate_pos.le) ?_
    fun e _ _ h => .failed (hvouched.touches h (by decide)) e
  rintro crops l w₁ ⟨h₁, text, htext, hload⟩
  have hquiet₁ := h₁.quiet hquiet
  have hvouched₁ : Vouched tools settings texts w₁ := hvouched.touches h₁ (by decide)
  have hinputs₁ : InputsOf tools settings job w₁ inputs :=
    ⟨hinputs.source.later fun _ _ _ hc => h₁.media ▸ hc, hinputs.output, hinputs.settings⟩
  refine wp_bind_of (wp_readFile hquiet₁) ?_ fun e _ w' h => h ▸ .failed hvouched₁ e
  rintro text' l w₁ ⟨rfl, htext'⟩
  obtain rfl := Option.some.inj (htext'.symm.trans htext)
  refine wp_bind_of (wp_pathExists hquiet₁) ?_ fun e _ w' h => h ▸ .failed hvouched₁ e
  rintro there l w₁ ⟨rfl, -⟩
  split_ifs
  · refine wp_bind_of (wp_renderCacheMatches hquiet₁ _) ?_ fun e _ w' h => h ▸ .failed hvouched₁ e
    rintro cached l w₁ ⟨rfl, hsame⟩
    dsimp only
    split_ifs with hcached
    · obtain ⟨cache, hcache, hsame⟩ := hsame hcached
      exact wp_takeOver hinjective hquiet₁ hvouched₁ hinputs₁ htext hload hcache hsame
    · exact wp_renderAnew hformat hquiet₁ hvouched₁ hinputs₁ htext hload
  · exact wp_renderAnew hformat hquiet₁ hvouched₁ hinputs₁ htext hload

end BoulderFrame
