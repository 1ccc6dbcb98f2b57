import BoulderFrame.Media.ProbeTotality
import BoulderFrame.Pipeline.Scratch

/-!
# What happens in a scratch directory

The files of an attempt change by its own calls only, and any call may fail. A failed write or
normalization may leave anything in the file that it was writing. What the tools make of a file is
a function of its content.

## Main definitions

* `ScratchTools`: what storage returns, and what the tools make of a content
* `ScratchWorld`, `ScratchWorld.Step`: the scratch directory, and what each call may do
* `ScratchWorld.Touches`: only some of the JSON files change
* `PlannedFiles`: the texts that an analysis leaves

## Main results

* `wp_replaceBy`, `wp_cropPath`: what the routines on the JSON files do
* `PlannedFiles.loads`: the crop path of an analysis is read back from its text
-/

namespace BoulderFrame

open Routine

/-- What storage returns for a key, and what the tools make of a content: the report of the probe,
the normalized copy, the frames with their detections, and a rendering. -/
structure ScratchTools (K Pixels Content : Type) where
  stored : String → Content
  probe : Content → Except Raised (Value K)
  numberTexts : Ffprobe.NumberTexts K
  normalize : Content → ℚ → Option ℤ → Content
  stream : Content → MediaMetadata → FrameStream Pixels
  detect : Pixels → Except Raised (List (Detection K))
  hypot : K → K → K
  linprog : Linprog K
  resize : Image Bgr → ℤ × ℤ → Except Raised (Option (Image Bgr))
  frames : String → MediaMetadata → List (DecodedFrame (Option (Image Bgr)))
  decodes : Content → String → Prop
  encodes : List String → List UInt8 → Content → Prop

/-- The scratch directory: the media files with what works on them, and the JSON files, with those
that are under their temporary names. -/
structure ScratchWorld (Text Content : Type) where
  media : RenderWorld Content
  files : ScratchFile → Option Text
  temporaries : ScratchFile → Option Text

/-- A variable frame rate is reported of such a source only; all else may be raised any time. -/
def ScratchEffect.mayRaise {K Text : Type} : ScratchEffect K Text → Raised → Prop
  | .inspectSource .., error => ProcessingPipeline.isVariableFrameRate error = false
  | _, _ => True

section Step

variable {K Text Pixels Content : Type} [Field K] [LinearOrder K] [Elementary K] [FloorRing K]

namespace ScratchTools

variable (tools : ScratchTools K Pixels Content)

/-- `FFprobeInspector.inspect`, of a content. -/
def inspect (c : Content) (allowVariableFrameRate : Bool) : Except Raised MediaMetadata := do
  let payload ← tools.probe c
  Ffprobe.metadataFromFfprobe tools.numberTexts payload allowVariableFrameRate

/-- The tools of a rendering. -/
def render : RenderTools Content where
  resize := tools.resize
  frames := tools.frames
  probes c metadata := tools.inspect c false = .ok metadata
  decodes := tools.decodes
  encodes := tools.encodes

/-- The analysis of a content. -/
def analyze (debugCapture : Bool) (inputs : PipelineInputs K) (c : Content) :
    Except Raised (ShotAnalysis K) :=
  analyzeShot tools.hypot tools.linprog debugCapture tools.detect inputs.toShotInputs
    (tools.stream c inputs.metadata)

variable {tools}

omit [Elementary K] in
/-- What is inspected has a positive frame rate. -/
theorem inspect_frameRate {c : Content} {allow : Bool} {metadata : MediaMetadata}
    (h : tools.inspect c allow = .ok metadata) : 0 < metadata.frameRate := by
  obtain ⟨payload, -, h⟩ := Except.bind_eq_ok.mp h
  obtain ⟨video, rate, width, height, duration, audio, degrees, hchecked, -, -, -, rfl⟩ :=
    Ffprobe.metadataFromFfprobe_eq_ok.mp h
  exact Ffprobe.fraction_pos (Ffprobe.checkedVideo_eq_ok.mp hchecked).1.avgRate

end ScratchTools

namespace ScratchWorld

variable (tools : ScratchTools K Pixels Content) (debugCapture : Bool)

/-- A media file is written. -/
def setMedia (w : ScratchWorld Text Content) (path : String) (c : Option Content) :
    ScratchWorld Text Content :=
  { w with media := { w.media with files := Function.update w.media.files path c } }

/-- What the calls on the directory do. -/
inductive Step (w : ScratchWorld Text Content) :
    (e : ScratchEffect K Text) → e.Answer → ScratchWorld Text Content → Prop
  | raised {e error} (h : e.mayRaise error) : Step w e (.error error) w
  | isFile {file} : Step w (.isFile file) (.ok (w.files file).isSome) w
  | read {file text} (h : w.files file = some text) : Step w (.readFile file) (.ok text) w
  | unlinked {file} :
    Step w (.unlinkFile file) (.ok ()) { w with files := Function.update w.files file none }
  | unlinkedTemporary {file} : Step w (.unlinkTemporary file) (.ok ())
    { w with temporaries := Function.update w.temporaries file none }
  | written {file text} : Step w (.writeTemporary file text) (.ok ())
    { w with temporaries := Function.update w.temporaries file (some text) }
  | writeFailed {file text error} (rest : Option Text) :
    Step w (.writeTemporary file text) (.error error)
      { w with temporaries := Function.update w.temporaries file rest }
  | replaced {file text} (h : w.temporaries file = some text) : Step w (.replaceFile file) (.ok ())
    { w with
      files := Function.update w.files file (some text)
      temporaries := Function.update w.temporaries file none }
  | pathExists {path} : Step w (.pathExists path) (.ok (w.media.files path).isSome) w
  | downloaded {key path} :
    Step w (.download key path) (.ok ()) (w.setMedia path (some (tools.stored key)))
  | inspected {path allow c} (hc : w.media.files path = some c) :
    Step w (.inspectSource path allow) (tools.inspect c allow) w
  | normalized {source destination rate audio c} (hc : w.media.files source = some c) :
    Step w (.normalize source destination rate audio) (.ok ())
      (w.setMedia destination (some (tools.normalize c rate audio)))
  | normalizeFailed {source destination rate audio error} (rest : Option Content) :
    Step w (.normalize source destination rate audio) (.error error) (w.setMedia destination rest)
  | progressed {path} : Step w (.outputProgress path) (.ok ()) w
  | analyzed {inputs c analysis} (hc : w.media.files inputs.source.text = some c)
    (h : tools.analyze debugCapture inputs c = .ok analysis) : Step w (.analyze inputs) (.ok analysis) w

end ScratchWorld

/-- The handlers of an attempt in its directory, which only its encoder changes behind them. -/
def scratchSetting (tools : ScratchTools K Pixels Content) (debugCapture : Bool) :
    Setting (RenderEffect K ⊕ ScratchEffect K Text)
      (Sum.elim RenderEffect.Answer ScratchEffect.Answer) (ScratchWorld Text Content) where
  rely w w' := RenderWorld.Rely tools.render w.media w'.media ∧ w'.files = w.files ∧
    w'.temporaries = w.temporaries
  sem
    | .inl e => fun w a w' => RenderWorld.Step tools.render w.media e a w'.media ∧
        w'.files = w.files ∧ w'.temporaries = w.temporaries
    | .inr e => fun w a w' => ScratchWorld.Step tools debugCapture w e a w'
  guar _ _ := True

end Step

section Calls

variable {K Text Pixels Content α : Type} [Field K] [LinearOrder K] [Elementary K] [FloorRing K]
  {tools : ScratchTools K Pixels Content} {debugCapture : Bool} {file : ScratchFile} {text : Text}
  {changing changing' : List ScratchFile} {w w' w'' : ScratchWorld Text Content}

namespace ScratchWorld

/-- What holds if a routine returns, and if it raises. -/
def Ends (returned : α → ScratchWorld Text Content → Prop)
    (failed : ScratchWorld Text Content → Prop) :
    Except Raised α → Unit → ScratchWorld Text Content → Prop
  | .ok a, _ => returned a
  | .error _, _ => failed

/-- Only the given JSON files have changed. -/
structure Touches (changing : List ScratchFile) (w w' : ScratchWorld Text Content) : Prop where
  media : w'.media = w.media
  files : ∀ file ∉ changing, w'.files file = w.files file

theorem Touches.refl : w.Touches changing w := ⟨rfl, fun _ _ => rfl⟩

theorem Touches.trans (h : w.Touches changing w') (h' : w'.Touches changing' w'')
    (hsub : changing' ⊆ changing) : w.Touches changing w'' :=
  ⟨h'.media.trans h.media, fun file hfile =>
    (h'.files file fun hmem => hfile (hsub hmem)).trans (h.files file hfile)⟩

theorem Touches.mono (h : w.Touches changing w') (hsub : changing ⊆ changing') :
    w.Touches changing' w' := Touches.refl.trans h hsub

theorem Touches.quiet (h : w.Touches changing w') (hquiet : w.media.Quiet) : w'.media.Quiet :=
  h.media ▸ hquiet

end ScratchWorld

open ScratchWorld ProcessingPipeline

/-- **One call**: nothing acts behind a quiet directory. -/
theorem wp_onScratch {e : ScratchEffect K Text}
    {Q : e.Answer → Unit → ScratchWorld Text Content → Prop} (hquiet : w.media.Quiet)
    (h : ∀ a w', Step tools debugCapture w e a w' → Q a () w') :
    (onScratch e).wp (scratchSetting tools debugCapture) Q () w := by
  change ∀ w₁, (scratchSetting tools debugCapture).rely w w₁ → ∀ a w₂,
    Step tools debugCapture w₁ e a w₂ → True ∧ Q a () w₂
  rintro w₁ ⟨hrely, hfiles, htemporaries⟩ a w₂ hstep
  obtain rfl : w₁ = w := by
    cases w₁
    cases w
    obtain rfl := hrely.eq_of_quiet hquiet
    obtain rfl := hfiles
    obtain rfl := htemporaries
    rfl
  exact ⟨trivial, h a w₂ hstep⟩

theorem wp_isFile (hquiet : w.media.Quiet) :
    (onScratch (.isFile file) : ScratchRoutine K Text Bool).wp (scratchSetting tools debugCapture)
      (Ends (fun there w' => w' = w ∧ there = (w.files file).isSome) (· = w)) () w := by
  refine wp_onScratch hquiet fun a w' hstep => ?_
  cases hstep with
  | raised => rfl
  | isFile => exact ⟨rfl, rfl⟩

theorem wp_readFile (hquiet : w.media.Quiet) :
    (onScratch (.readFile file) : ScratchRoutine K Text Text).wp (scratchSetting tools debugCapture)
      (Ends (fun text w' => w' = w ∧ w.files file = some text) (· = w)) () w := by
  refine wp_onScratch hquiet fun a w' hstep => ?_
  cases hstep with
  | raised => rfl
  | read h => exact ⟨rfl, h⟩

theorem wp_unlinkFile (hquiet : w.media.Quiet) :
    (onScratch (.unlinkFile file) : ScratchRoutine K Text Unit).wp
      (scratchSetting tools debugCapture)
      (Ends (fun _ w' => w.Touches [file] w' ∧ w'.files file = none) (· = w)) () w := by
  refine wp_onScratch hquiet fun a w' hstep => ?_
  cases hstep with
  | raised => rfl
  | unlinked =>
    exact ⟨⟨rfl, fun _ hne => Function.update_of_ne (List.ne_of_not_mem_cons hne) ..⟩,
      Function.update_self ..⟩

theorem wp_unlinkTemporary (hquiet : w.media.Quiet) :
    (onScratch (.unlinkTemporary file) : ScratchRoutine K Text Unit).wp
      (scratchSetting tools debugCapture) (fun _ _ w' => w.Touches [] w') () w := by
  refine wp_onScratch hquiet fun a w' hstep => ?_
  cases hstep with
  | raised => exact .refl
  | unlinkedTemporary => exact ⟨rfl, fun _ _ => rfl⟩

/-- **A file is replaced** by what has been written under its temporary name. -/
theorem wp_writeFile (hquiet : w.media.Quiet) :
    (do
      onScratch (.writeTemporary file text)
      onScratch (.replaceFile file) : ScratchRoutine K Text Unit).wp
      (scratchSetting tools debugCapture)
      (Ends (fun _ w' => w.Touches [file] w' ∧ w'.files file = some text) (w.Touches [])) () w := by
  have hwrite : (onScratch (.writeTemporary file text) : ScratchRoutine K Text Unit).wp
      (scratchSetting tools debugCapture)
      (Ends (fun _ w' => w.Touches [] w' ∧ w'.temporaries file = some text) (w.Touches [])) () w := by
    refine wp_onScratch hquiet fun a w' hstep => ?_
    cases hstep with
    | raised => exact .refl
    | writeFailed => exact ⟨rfl, fun _ _ => rfl⟩
    | written => exact ⟨⟨rfl, fun _ _ => rfl⟩, Function.update_self ..⟩
  refine wp_bind_of hwrite ?_ fun _ _ _ h => h
  rintro - - w₁ ⟨htouches, htext⟩
  refine wp_onScratch (htouches.quiet hquiet) fun a w' hstep => ?_
  cases hstep with
  | raised => exact htouches
  | replaced h =>
    obtain rfl := Option.some.inj (h.symm.trans htext)
    exact ⟨⟨htouches.media, fun _ hne => (Function.update_of_ne (List.ne_of_not_mem_cons hne) ..).trans
      (htouches.files _ List.not_mem_nil)⟩, Function.update_self ..⟩

/-- **A file is replaced or left alone.** -/
theorem wp_replaceBy (hquiet : w.media.Quiet) {text : Except Raised Text} :
    (replaceBy file text : ScratchRoutine K Text Unit).wp (scratchSetting tools debugCapture)
      (Ends (fun _ w' => w.Touches [file] w' ∧ ∃ t, text = .ok t ∧ w'.files file = some t)
        (w.Touches [])) () w := by
  unfold replaceBy
  refine wp_bind_of (wp_unlinkTemporary hquiet) ?_ fun _ _ _ h => h
  rintro - - w₁ h₁
  have hbody : (do
      let text ← ofExcept text
      onScratch (.writeTemporary file text)
      onScratch (.replaceFile file) : ScratchRoutine K Text Unit).wp
      (scratchSetting tools debugCapture)
      (Ends (fun _ w' => w.Touches [file] w' ∧ ∃ t, text = .ok t ∧ w'.files file = some t)
        (w.Touches [])) () w₁ := by
    rw [wp_bind, wp_ofExcept]
    cases text with
    | error e => exact h₁
    | ok text =>
      refine wp_mono ?_ (wp_writeFile (h₁.quiet hquiet))
      rintro (e | _) l w₂ h₂
      · exact h₁.trans h₂ (List.Subset.refl _)
      · exact ⟨(h₁.mono (List.nil_subset _)).trans h₂.1 (List.Subset.refl _), text, rfl, h₂.2⟩
  refine wp_handle_of hbody (fun _ _ _ h => h) fun e _ w₂ h₂ => ?_
  refine wp_bind_of (wp_unlinkTemporary (h₂.quiet hquiet)) ?_ ?_
  · exact fun _ _ w₃ h₃ => h₂.trans h₃ (List.Subset.refl _)
  · exact fun _ _ w₃ h₃ => h₂.trans h₃ (List.Subset.refl _)

end Calls

/-! ## The files of an analysis -/

section Planned

variable {K Text Pixels Content : Type} [Field K] [LinearOrder K] [Elementary K]
  {tools : ScratchTools K Pixels Content} {settings : ScratchSettings K Text}
  {inputs : PipelineInputs K} {c : Content} {report text : Text}
  {crops : List (CropRect (FloatValue K))}

open ProcessingPipeline

omit [Field K] [LinearOrder K] [Elementary K] in
/-- The line of a frame is JSON. -/
theorem plain_cropPathRecord (observation : RawFrameObservation K) (crop : CropRect K) :
    (cropPathRecord observation crop).sortKeys.Plain := by
  have hcrop : (serializeCropRect crop).Plain :=
    .fields (by decide : ["x", "y", "width", "height"].Nodup)
      ⟨.number _, .number _, .number _, .number _⟩
  exact Value.Plain.sortKeys
    (.fields (by decide : ["frame_index", "timestamp_ms", "crop"].Nodup) ⟨.int _, .int _, hcrop⟩)

/-- What the analysis of a content leaves: the texts of its report and of its crop path, and the
crops. -/
structure Planned (tools : ScratchTools K Pixels Content) (settings : ScratchSettings K Text)
    (inputs : PipelineInputs K) (c : Content) (report text : Text)
    (crops : List (CropRect (FloatValue K))) : Prop where
  analyzed : ∃ analysis counted records, tools.analyze settings.debugCapture inputs c = .ok analysis ∧
    analysisReport analysis.observations analysis.measurements analysis.plan.crops
      (some (analysis.plan.trace.map .inr)) inputs.metadata = .ok counted ∧
    report = settings.format.ofValue counted.toValue ∧
    writeCropPath analysis.observations analysis.plan.crops = .ok records ∧
    text = settings.format.ofLines records ∧ crops = analysis.plan.crops.map readCrop

/-- **What an analysis has planned** is read back from its text. -/
theorem Planned.loads (h : Planned tools settings inputs c report text crops)
    (hformat : settings.format.Exact) (hrate : 0 ≤ inputs.metadata.frameRate) :
    loadCropPath settings.floatOfText inputs.metadata (settings.format.lines text) = .ok crops := by
  obtain ⟨analysis, counted, records, hanalysis, -, -, hrecords, rfl, rfl⟩ := h.analyzed
  obtain ⟨hcount, hclock, -⟩ := analyzeShot_eq_ok hrate hanalysis
  obtain ⟨hlength, hwritten⟩ := Except.ok_of_guard hrecords
  have hlength := not_not.mp hlength
  obtain ⟨records', hrecords', hload⟩ : ∃ records', writeCropPath analysis.observations
      analysis.plan.crops = .ok records' ∧ loadCropPath settings.floatOfText inputs.metadata
        (records'.map .ok) = .ok (analysis.plan.crops.map readCrop) :=
    loadCropPath_writeCropPath (fun index observation hobservation =>
      (hclock index observation hobservation).imp_right And.left) hlength (by rw [← hlength, hcount])
  obtain rfl := Except.ok.inj (hrecords'.symm.trans hrecords)
  have hplain : ∀ record ∈ records', record.Plain := by
    intro record hrecord
    rw [← Except.ok.inj hwritten] at hrecord
    obtain ⟨⟨observation, crop⟩, -, rfl⟩ := List.mem_map.mp hrecord
    exact plain_cropPathRecord observation crop
  rw [hformat.lines_ofLines hplain, hload]

variable [FloorRing K] {w : ScratchWorld Text Content}

open Routine ScratchWorld

/-- The trace of an analysis is written, or there is none. -/
theorem wp_writeDebugTrace (hquiet : w.media.Quiet) (analysis : ShotAnalysis K) :
    (writeDebugTrace settings analysis).wp (scratchSetting tools settings.debugCapture)
      (fun _ _ w' => w.Touches [.analysisTrace] w') () w := by
  have hunlink : ∀ w₁ : ScratchWorld Text Content, w.Touches [] w₁ →
      (onScratch (.unlinkFile .analysisTrace) : ScratchRoutine K Text Unit).wp
        (scratchSetting tools settings.debugCapture)
        (fun _ _ w' => w.Touches [.analysisTrace] w') () w₁ := by
    intro w₁ h₁
    have h₁' := h₁.mono (List.nil_subset [.analysisTrace])
    refine wp_mono ?_ (wp_unlinkFile (h₁.quiet hquiet))
    rintro (e | _) l w₂ h₂
    · exact h₂ ▸ h₁'
    · exact h₁'.trans h₂.1 (List.Subset.refl _)
  unfold writeDebugTrace
  refine wp_handle_of (wp_replaceBy hquiet) (fun _ _ _ h => h.1) fun e _ w₁ h₁ => ?_
  cases e with
  | valueError => exact hunlink w₁ h₁
  | worker | leaseLost => exact h₁.mono (List.nil_subset _)
  | other name =>
    dsimp only
    split_ifs
    · exact hunlink w₁ h₁
    · exact h₁.mono (List.nil_subset _)

/-- The JSON files of an analysis. -/
def analysisFiles : List ScratchFile := [.analysisReport, .cropPath, .analysisTrace]

/-- **An analysis** leaves what it has planned. -/
theorem wp_analyzedCropPath (hquiet : w.media.Quiet) :
    (analyzedCropPath settings inputs).wp (scratchSetting tools settings.debugCapture)
      (Ends (fun crops w' => w.Touches analysisFiles w' ∧
        ∃ c report text, w.media.files inputs.source.text = some c ∧
          Planned tools settings inputs c report text crops ∧
          w'.files .analysisReport = some report ∧ w'.files .cropPath = some text)
        (w.Touches analysisFiles)) () w := by
  have hanalyze : (onScratch (.analyze inputs) : ScratchRoutine K Text (ShotAnalysis K)).wp
      (scratchSetting tools settings.debugCapture)
      (Ends (fun analysis w' => w' = w ∧ ∃ c, w.media.files inputs.source.text = some c ∧
        tools.analyze settings.debugCapture inputs c = .ok analysis) (· = w)) () w := by
    refine wp_onScratch hquiet fun a w' hstep => ?_
    cases hstep with
    | raised => rfl
    | analyzed hc h => exact ⟨rfl, _, hc, h⟩
  unfold analyzedCropPath
  refine wp_bind_of hanalyze ?_ fun _ _ _ h => h ▸ .refl
  rintro analysis l w ⟨rfl, c, hc, hanalysis⟩
  rw [wp_bind, wp_ofExcept]
  cases hreport : analysisReport analysis.observations analysis.measurements analysis.plan.crops
      (some (analysis.plan.trace.map .inr)) inputs.metadata with
  | error e => exact .refl
  | ok counted =>
    refine wp_bind_of (wp_writeFile hquiet) ?_ fun _ _ _ h => h.mono (List.nil_subset _)
    rintro - l w₁ ⟨h₁, hfile₁⟩
    have h₁' : w.Touches analysisFiles w₁ := h₁.mono (by simp [analysisFiles])
    rw [wp_bind, wp_ofExcept]
    cases hrecords : writeCropPath analysis.observations analysis.plan.crops with
    | error e => exact h₁'
    | ok records =>
      refine wp_bind_of (wp_replaceBy (h₁.quiet hquiet)) ?_
        fun _ _ _ h => h₁'.trans h (List.nil_subset _)
      rintro - l w₂ ⟨h₂, text, htext, hfile₂⟩
      obtain rfl := Except.ok.inj htext
      have h₂' : w.Touches analysisFiles w₂ := h₁'.trans h₂ (by simp [analysisFiles])
      have htrace : (if settings.debugCapture then writeDebugTrace settings analysis else pure ()).wp
          (scratchSetting tools settings.debugCapture)
          (fun _ _ w' => w₂.Touches [.analysisTrace] w') l w₂ := by
        split_ifs
        · exact wp_writeDebugTrace (h₂'.quiet hquiet) analysis
        · exact .refl
      refine wp_bind_of htrace ?_ fun _ _ _ h => h₂'.trans h (by simp [analysisFiles])
      rintro - l w₃ h₃
      refine ⟨h₂'.trans h₃ (by simp [analysisFiles]), c, _, _, hc,
        ⟨analysis, counted, records, hanalysis, hreport, rfl, hrecords, rfl, rfl⟩, ?_, ?_⟩
      · rw [h₃.files _ (by decide), h₂.files _ (by decide), hfile₁]
      · rw [h₃.files _ (by decide), hfile₂]

/-- **The crop path** that is returned is that of the file, which is written if it is missing. -/
theorem wp_cropPath (hquiet : w.media.Quiet) :
    (cropPath settings inputs).wp (scratchSetting tools settings.debugCapture)
      (Ends (fun crops w' => (w' = w ∧ ∃ text, w.files .cropPath = some text ∧
          loadCropPath settings.floatOfText inputs.metadata (settings.format.lines text) =
            .ok crops) ∨
        w.files .cropPath = none ∧ w.Touches analysisFiles w' ∧
          ∃ c report text, w.media.files inputs.source.text = some c ∧
            Planned tools settings inputs c report text crops ∧
            w'.files .analysisReport = some report ∧ w'.files .cropPath = some text)
        (w.Touches analysisFiles)) () w := by
  unfold cropPath
  refine wp_bind_of (wp_isFile hquiet) ?_ fun _ _ _ h => h ▸ .refl
  rintro isFile l w ⟨rfl, rfl⟩
  cases hfile : w.files .cropPath with
  | none =>
    refine wp_mono ?_ (wp_analyzedCropPath hquiet)
    rintro (e | crops) l w' h
    · exact h
    · exact .inr ⟨rfl, h⟩
  | some text =>
    refine wp_bind_of (wp_readFile hquiet) ?_ fun _ _ _ h => h ▸ .refl
    rintro text' l w ⟨rfl, htext⟩
    obtain rfl := Option.some.inj (hfile.symm.trans htext)
    rw [wp_ofExcept]
    cases hload : loadCropPath settings.floatOfText inputs.metadata (settings.format.lines text) with
    | error e => exact .refl
    | ok crops => exact .inl ⟨rfl, text, rfl, hload⟩

end Planned

end BoulderFrame
