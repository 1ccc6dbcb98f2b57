import BoulderFrame.Pipeline.AttemptDirectory

/-!
# Resumed attempts

An attempt works in a directory of its own and takes over nothing of an earlier one: its handlers
make what they need from the source of the job. So an attempt that completes the job has the same
crop path, output and report as any other, at whatever stage it resumes, if storage and the tools
answer the same every time.

## Main definitions

* `JobSource`, `JobReport`: the source of a job, and the report of its analysis
* `Own`, `Intact`: what a directory has of the job
* `AttemptOutcome`: what a completed attempt leaves

## Main results

* `wp_runAttempt_completed`: an attempt that completes has uploaded the output of the job
* `completed_attempts_agree`: all attempts that complete a job leave the same outcome
-/

namespace BoulderFrame

open Routine ProcessingPipeline ScratchWorld FFmpegRenderer

variable {K Text Pixels Content : Type} [Field K] [LinearOrder K] [Elementary K] [FloorRing K]

/-! ## What returns -/

section Returning

variable {E : Type} {A : E → Type} {ε ℓ α β σ : Type} {T : Setting E A σ} {m : Routine E A ε ℓ α}
  {l : ℓ} {s : σ}

end Returning

/-! ## What a job determines -/

section Job

/-- The source of a job, with its path, metadata and content. -/
inductive JobSource (tools : ScratchTools K Pixels Content) (settings : ScratchSettings K Text)
    (job : ScratchJob K) : PurePath → MediaMetadata → Content → Prop
  | original {metadata} (h : tools.inspect (tools.stored job.storageKey) false = .ok metadata) :
    JobSource tools settings job (sourceOriginal settings) metadata (tools.stored job.storageKey)
  | normalized {e m metadata} (he : tools.inspect (tools.stored job.storageKey) false = .error e)
      (hm : tools.inspect (tools.stored job.storageKey) true = .ok m)
      (h : tools.inspect (tools.normalize (tools.stored job.storageKey) m.frameRate
        m.audioStreamIndex) false = .ok metadata) :
    JobSource tools settings job (sourceNormalized settings) metadata
      (tools.normalize (tools.stored job.storageKey) m.frameRate m.audioStreamIndex)

/-- The inputs of a job, with the content of its source. -/
structure JobInputs (tools : ScratchTools K Pixels Content) (settings : ScratchSettings K Text)
    (job : ScratchJob K) (inputs : PipelineInputs K) (c : Content) : Prop where
  source : JobSource tools settings job inputs.source inputs.metadata c
  settings : job.settings = .ok (inputs.selection, inputs.outputSettings, inputs.detectionSampleFps)

/-- What the analysis of a job leaves. -/
def JobPlanned (tools : ScratchTools K Pixels Content) (settings : ScratchSettings K Text)
    (job : ScratchJob K) (report text : Text) : Prop :=
  ∃ inputs c crops, JobInputs tools settings job inputs c ∧
    Planned tools settings inputs c report text crops

/-- The fields of the report of a job. -/
def JobReport (tools : ScratchTools K Pixels Content) (settings : ScratchSettings K Text)
    (job : ScratchJob K) (fields : List (String × Value K)) : Prop :=
  ∃ report text, JobPlanned tools settings job report text ∧
    settings.format.value report = some (.dict fields)

variable {tools : ScratchTools K Pixels Content} {settings : ScratchSettings K Text}
  {job : ScratchJob K} {scratch : String} {inputs inputs' : PipelineInputs K} {c c' : Content}

omit [Elementary K] in
/-- **The source of a job** is the same file in every directory. -/
theorem JobSource.unique {source source' : PurePath} {metadata metadata' : MediaMetadata}
    (h : JobSource tools settings job source metadata c)
    (h' : JobSource tools { settings with scratch := scratch } job source' metadata' c') :
    metadata' = metadata ∧ c' = c ∧ ((source = sourceOriginal settings ∧
        source' = sourceOriginal { settings with scratch := scratch }) ∨
      (source = sourceNormalized settings ∧
        source' = sourceNormalized { settings with scratch := scratch })) := by
  cases h with
  | original h =>
    cases h' with
    | original h' => exact ⟨Except.ok.inj (h'.symm.trans h), rfl, .inl ⟨rfl, rfl⟩⟩
    | normalized he' => cases he'.symm.trans h
  | normalized he hm h =>
    cases h' with
    | original h' => cases h'.symm.trans he
    | normalized he' hm' h' =>
      obtain rfl := Except.ok.inj (hm'.symm.trans hm)
      exact ⟨Except.ok.inj (h'.symm.trans h), rfl, .inr ⟨rfl, rfl⟩⟩

omit [Elementary K] in
/-- The inputs of a job are the same but for the paths. -/
theorem JobInputs.unique (h : JobInputs tools settings job inputs c)
    (h' : JobInputs tools { settings with scratch := scratch } job inputs' c') :
    inputs'.toShotInputs = inputs.toShotInputs ∧ c' = c := by
  obtain ⟨hmetadata, hc, -⟩ := h.source.unique h'.source
  obtain ⟨hselection, hsettings, hfps⟩ : inputs'.selection = inputs.selection ∧
      inputs'.outputSettings = inputs.outputSettings ∧
      inputs'.detectionSampleFps = inputs.detectionSampleFps := by
    simpa using h'.settings.symm.trans h.settings
  obtain ⟨⟨_, _, _, _⟩, _, _⟩ := inputs
  obtain ⟨⟨_, _, _, _⟩, _, _⟩ := inputs'
  obtain rfl := hmetadata
  obtain rfl := hselection
  obtain rfl := hsettings
  obtain rfl := hfps
  exact ⟨rfl, hc⟩

omit [FloorRing K] in
/-- What an analysis leaves is determined by the inputs but for the paths. -/
theorem Planned.unique {report report' text text' : Text} {crops crops' : List (CropRect (FloatValue K))}
    (hshot : inputs'.toShotInputs = inputs.toShotInputs)
    (h : Planned tools settings inputs c report text crops)
    (h' : Planned tools { settings with scratch := scratch } inputs' c report' text' crops') :
    report' = report ∧ text' = text ∧ crops' = crops := by
  obtain ⟨analysis, counted, records, hanalysis, hcounted, rfl, hrecords, rfl, rfl⟩ := h.analyzed
  obtain ⟨analysis', counted', records', hanalysis', hcounted', rfl, hrecords', rfl, rfl⟩ := h'.analyzed
  rw [ScratchTools.analyze, hshot] at hanalysis'
  obtain rfl := Except.ok.inj (hanalysis'.symm.trans hanalysis)
  rw [hshot] at hcounted'
  obtain rfl := Except.ok.inj (hcounted'.symm.trans hcounted)
  obtain rfl := Except.ok.inj (hrecords'.symm.trans hrecords)
  exact ⟨rfl, rfl, rfl⟩

/-- **What the analysis of a job leaves** is the same in every directory. -/
theorem JobPlanned.unique {report report' text text' : Text}
    (h : JobPlanned tools settings job report text)
    (h' : JobPlanned tools { settings with scratch := scratch } job report' text') :
    report' = report ∧ text' = text := by
  obtain ⟨inputs, c, crops, hinputs, hplanned⟩ := h
  obtain ⟨inputs', c', crops', hinputs', hplanned'⟩ := h'
  obtain ⟨hshot, rfl⟩ := hinputs.unique hinputs'
  obtain ⟨hreport, htext, -⟩ := hplanned.unique hshot hplanned'
  exact ⟨hreport, htext⟩

theorem JobReport.unique {fields fields' : List (String × Value K)}
    (h : JobReport tools settings job fields)
    (h' : JobReport tools { settings with scratch := scratch } job fields') : fields' = fields := by
  obtain ⟨report, text, hplanned, hvalue⟩ := h
  obtain ⟨report', text', hplanned', hvalue'⟩ := h'
  obtain ⟨rfl, -⟩ := hplanned.unique hplanned'
  exact Value.dict.inj (Option.some.inj (hvalue'.symm.trans hvalue))

end Job

/-! ## What a directory has of its job -/

section Own

variable {tools : ScratchTools K Pixels Content} {settings : ScratchSettings K Text}
  {job : ScratchJob K} {w w' : ScratchWorld Text Content} {inputs : PipelineInputs K}

/-- The files of a directory are those of its job: the sources, and the crop path with its report. -/
structure Own (tools : ScratchTools K Pixels Content) (settings : ScratchSettings K Text)
    (job : ScratchJob K) (w : ScratchWorld Text Content) : Prop where
  original : ∀ c, w.media.files (sourceOriginal settings).text = some c →
    c = tools.stored job.storageKey
  normalized : ∀ c, w.media.files (sourceNormalized settings).text = some c → ∃ m,
    tools.inspect (tools.stored job.storageKey) true = .ok m ∧
      c = tools.normalize (tools.stored job.storageKey) m.frameRate m.audioStreamIndex
  planned : ∀ text, w.files .cropPath = some text → ∃ report,
    w.files .analysisReport = some report ∧ JobPlanned tools settings job report text

namespace Own

/-- The source that a directory has is that of its job. -/
theorem source {path : PurePath} {metadata : MediaMetadata} (h : Own tools settings job w)
    (hsource : SourceOf tools settings w path metadata) : ∃ c, w.media.files path.text = some c ∧
      JobSource tools settings job path metadata c := by
  cases hsource with
  | original hc hinspect =>
    obtain rfl := h.original _ hc
    exact ⟨_, hc, .original hinspect⟩
  | normalized hc he _ hn hinspect =>
    obtain rfl := h.original _ hc
    obtain ⟨m, hm, rfl⟩ := h.normalized _ hn
    exact ⟨_, hn, .normalized he hm hinspect⟩

theorem loaded (h : Own tools settings job w) (hinputs : InputsOf tools settings job w inputs) :
    ∃ c, w.media.files inputs.source.text = some c ∧ JobInputs tools settings job inputs c := by
  obtain ⟨c, hc, hsource⟩ := h.source hinputs.source
  exact ⟨c, hc, hsource, hinputs.settings⟩

/-- Loading the inputs writes the sources of the job. -/
theorem loads (h : Own tools settings job w) (hloads : Loads settings w w')
    (hwrote : Wrote tools settings job w w') : Own tools settings job w' := by
  have horiginal : ∀ c, w'.media.files (sourceOriginal settings).text = some c →
      c = tools.stored job.storageKey := by
    intro c hc
    rcases hwrote.original with hsame | hnew
    · exact h.original c (hsame ▸ hc)
    · exact (Option.some.inj (hnew.symm.trans hc)).symm
  refine ⟨horiginal, fun c hc => ?_, hloads.files ▸ h.planned⟩
  rcases hwrote.normalized with hsame | ⟨c₀, m, hc₀, hm, hnew⟩
  · exact h.normalized c (hsame ▸ hc)
  · obtain rfl := horiginal c₀ hc₀
    exact ⟨m, hm, (Option.some.inj (hnew.symm.trans hc)).symm⟩

/-- Other files do not matter. -/
theorem other (h : Own tools settings job w)
    (hmedia : ∀ path : PurePath, IsSource settings path →
      w'.media.files path.text = w.media.files path.text)
    (hcrops : w'.files .cropPath = w.files .cropPath)
    (hreport : w'.files .analysisReport = w.files .analysisReport) : Own tools settings job w' := by
  refine ⟨?_, ?_, ?_⟩
  · rw [hmedia _ (isSource_original settings)]
    exact h.original
  · rw [hmedia _ (isSource_normalized settings)]
    exact h.normalized
  · rw [hcrops, hreport]
    exact h.planned

theorem touches {changing : List ScratchFile} (h : Own tools settings job w)
    (htouches : w.Touches changing w') (hcrops : .cropPath ∉ changing)
    (hreport : .analysisReport ∉ changing) : Own tools settings job w' :=
  h.other (fun _ _ => by rw [htouches.media]) (htouches.files _ hcrops) (htouches.files _ hreport)

/-- The crop paths of a directory are those of its job, of which there is one. -/
theorem occurs (h : Own tools settings job w) :
    Occurs {text | ∃ report, JobPlanned tools settings job report text} w := by
  intro text htext
  obtain ⟨report, -, hplanned⟩ := h.planned text htext
  exact ⟨report, hplanned⟩

/-- The report that is read is that of the job. -/
theorem report {fields : List (String × Value K)} {text : Text} (h : Own tools settings job w)
    (htext : w.files .cropPath = some text)
    (hread : ∀ report, w.files .analysisReport = some report →
      settings.format.value report = some (.dict fields)) : JobReport tools settings job fields := by
  obtain ⟨report, hreport, hplanned⟩ := h.planned text htext
  exact ⟨report, text, hplanned, hread report hreport⟩

end Own

end Own

/-! ## The stages of an attempt -/

section Stages

variable {tools : ScratchTools K Pixels Content} {settings : ScratchSettings K Text}
  {job : ScratchJob K} {w w' : ScratchWorld Text Content} {inputs : PipelineInputs K}

/-- The crop paths of a job. -/
def jobTexts (tools : ScratchTools K Pixels Content) (settings : ScratchSettings K Text)
    (job : ScratchJob K) : Set Text :=
  {text | ∃ report, JobPlanned tools settings job report text}

/-- The directory of an attempt none of whose handlers has raised. -/
structure Intact (tools : ScratchTools K Pixels Content) (settings : ScratchSettings K Text)
    (job : ScratchJob K) (w : ScratchWorld Text Content) : Prop where
  own : Own tools settings job w
  vouched : Vouched tools settings (jobTexts tools settings job) w
  quiet : w.media.Quiet

theorem Intact.touches {changing : List ScratchFile} (h : Intact tools settings job w)
    (htouches : w.Touches changing w') (hown : Own tools settings job w')
    (hcache : .renderCache ∉ changing) : Intact tools settings job w' :=
  ⟨hown, h.vouched.touches htouches hcache, htouches.quiet h.quiet⟩

end Stages

/-! ## The upload -/

section Upload

variable {tools : ScratchTools K Pixels Content} {settings : ScratchSettings K Text}
  {jobOf : JobRecord → ScratchJob K} {reportText : Value K → String} {job : ScratchJob K}
  {w w' : AttemptWorld K Text Content} {record : JobRecord}

/-- The report of an upload. -/
def uploadReport (reportText : Value K → String) (fields : List (String × Value K))
    (metadata : MediaMetadata) : Report :=
  (fieldTexts reportText fields).merge
    [("frames_processed", toString metadata.expectedFrameCount)]

/-- The upload has finalized one output of the job, and has returned its report. -/
def Uploaded (tools : ScratchTools K Pixels Content) (settings : ScratchSettings K Text)
    (reportText : Value K → String) (job : ScratchJob K) (w : AttemptWorld K Text Content)
    (report : Report) : Prop :=
  ∃ f inputs output fields, w.finalized = [f] ∧ Own tools settings job f.scratch ∧
    f.Good tools settings (fun _ => job) inputs output ∧ JobReport tools settings job fields ∧
    report = uploadReport reportText fields inputs.metadata

end Upload

/-! ## The whole attempt -/

section Attempt

variable {tools : ScratchTools K Pixels Content} {settings : ScratchSettings K Text}
  {jobOf : JobRecord → ScratchJob K} {reportText : Value K → String} {job : ScratchJob K}
  {config : WorkerConfig} {attemptId : String} {attempt : Attempt} {w : AttemptWorld K Text Content}

/-- The upload is done, and its fields are those of the report but for the name of the attempt. -/
def Completed (tools : ScratchTools K Pixels Content) (settings : ScratchSettings K Text)
    (reportText : Value K → String) (job : ScratchJob K) (attempt : Attempt)
    (w : AttemptWorld K Text Content) : Prop :=
  ∃ report, Uploaded tools settings reportText job w report ∧
    ∀ key ≠ "attempt_id", attempt.report.lookup key = report.lookup key

end Attempt

/-! ## All attempts -/

section Agreement

variable {tools : ScratchTools K Pixels Content} {settings : ScratchSettings K Text}
  {jobOf : JobRecord → ScratchJob K} {reportText : Value K → String} {job : ScratchJob K}
  {scratch scratch' : String} {w : AttemptWorld K Text Content} {attempt : Attempt}

/-- What a completed attempt leaves: the crop path, the output that it has finalized with its
metadata, and the fields of the report. -/
structure AttemptOutcome (Text Content : Type) where
  cropPath : Text
  object : Content
  output : MediaMetadata
  report : Report

/-- The attempt has left the outcome; the report is also named after the attempt. -/
structure AttemptOutcome.Left (o : AttemptOutcome Text Content) (attempt : Attempt)
    (w : AttemptWorld K Text Content) : Prop where
  finalized : ∃ f, w.finalized = [f] ∧ f.scratch.files .cropPath = some o.cropPath ∧
    f.object = some o.object ∧ f.asset.width = o.output.width ∧ f.asset.height = o.output.height ∧
    f.asset.frameRate = o.output.frameRate ∧ f.asset.durationMs = o.output.durationMs
  report : ∀ key ≠ "attempt_id", attempt.report.lookup key = o.report.lookup key

/-- The frames and the encoder's output do not depend on the directory. -/
structure ScratchTools.Definite (tools : ScratchTools K Pixels Content) (binary : String) : Prop where
  frames : ∀ scratch scratch' stem suffix metadata,
    tools.frames (PurePath.text ⟨scratch, stem, suffix⟩) metadata =
      tools.frames (PurePath.text ⟨scratch', stem, suffix⟩) metadata
  encodes : ∀ scratch scratch' stem suffix stem' suffix' metadata aspectRatio bytes c c',
    tools.encodes (encoderArguments binary ⟨scratch, stem, suffix⟩ ⟨scratch, stem', suffix'⟩ metadata
      aspectRatio) bytes c →
    tools.encodes (encoderArguments binary ⟨scratch', stem, suffix⟩ ⟨scratch', stem', suffix'⟩
      metadata aspectRatio) bytes c' → c' = c

omit [Elementary K] in
/-- The frames and their crops determine the images. -/
theorem Played.unique {tools : RenderTools Content} {metadata : MediaMetadata}
    {aspectRatio : AspectRatio} {frames : List (DecodedFrame (Option (Image Bgr)))}
    {crops : List (CropRect (FloatValue K))} {images images' : List (Image Bgr)}
    (h : Played tools metadata aspectRatio frames crops images)
    (h' : Played tools metadata aspectRatio frames crops images') : images' = images := by
  refine List.ext_getElem (h'.images_length.trans h.images_length.symm) fun k hk' hk => ?_
  have hcrops : k < crops.length := h.images_length ▸ hk
  have hframes : k < frames.length := h.frames_length ▸ hcrops
  have hshown := h.shown k _ _ _ (List.getElem?_eq_getElem hframes)
    (List.getElem?_eq_getElem hcrops) (List.getElem?_eq_getElem hk)
  have hshown' := h'.shown k _ _ _ (List.getElem?_eq_getElem hframes)
    (List.getElem?_eq_getElem hcrops) (List.getElem?_eq_getElem hk')
  exact Except.ok.inj (hshown'.image.symm.trans hshown.image)

omit [Elementary K] in
/-- The source of a job and its crop path determine the rendering. -/
theorem RenderingOf.unique {s s' : ScratchWorld Text Content} {aspectRatio : AspectRatio} {text : Text}
    {c c' d : Content} {source source' : PurePath} {metadata metadata' output output' : MediaMetadata}
    {crops crops' : List (CropRect (FloatValue K))} {images images' : List (Image Bgr)}
    (hdefinite : tools.Definite settings.binary)
    (hsource : JobSource tools settings job source metadata d)
    (hsource' : JobSource tools { settings with scratch := scratch } job source' metadata' d)
    (h : RenderingOf tools settings s aspectRatio text c source metadata crops images output)
    (h' : RenderingOf tools { settings with scratch := scratch } s' aspectRatio text c' source'
      metadata' crops' images' output') : c' = c ∧ output' = output := by
  obtain ⟨rfl, -, hpaths⟩ := hsource.unique hsource'
  obtain ⟨stem, suffix, rfl, rfl⟩ : ∃ stem suffix, source = ⟨settings.scratch, stem, suffix⟩ ∧
      source' = ⟨scratch, stem, suffix⟩ := by
    obtain ⟨rfl, rfl⟩ | ⟨rfl, rfl⟩ := hpaths
    · exact ⟨_, _, rfl, rfl⟩
    · exact ⟨_, _, rfl, rfl⟩
  obtain rfl := Except.ok.inj (h'.loads.symm.trans h.loads)
  have hplayed' := h'.rendering.played
  rw [hdefinite.frames scratch settings.scratch] at hplayed'
  obtain rfl := h.rendering.played.unique hplayed'
  obtain rfl : c' = c := hdefinite.encodes settings.scratch scratch _ _ _ _ _ _ _ _ _
    h.rendering.encoded h'.rendering.encoded
  exact ⟨rfl, Except.ok.inj (h'.rendering.validated.probed.symm.trans h.rendering.validated.probed)⟩

/-- The upload has left one outcome. -/
theorem Completed.left (h : Completed tools settings reportText job attempt w) :
    ∃ o : AttemptOutcome Text Content, o.Left attempt w := by
  obtain ⟨report, ⟨f, inputs, output, fields, hfinalized, -, hgood, -, -⟩, hreport⟩ := h
  obtain ⟨text, c, _, _, htext, hc, -⟩ := hgood.current.rendering
  exact ⟨⟨text, c, output, report⟩, ⟨f, hfinalized, htext, hgood.object.trans hc, hgood.asset⟩, hreport⟩

/-- **What a completed attempt leaves** is determined by the job. -/
theorem Completed.agree {w' : AttemptWorld K Text Content} {attempt' : Attempt}
    {o : AttemptOutcome Text Content} (hdefinite : tools.Definite settings.binary)
    (h : Completed tools settings reportText job attempt w)
    (h' : Completed tools { settings with scratch := scratch } reportText job attempt' w')
    (ho : o.Left attempt w) : o.Left attempt' w' := by
  obtain ⟨report, ⟨f, inputs, output, fields, hfinalized, hown, hgood, hfields, rfl⟩, hreport⟩ := h
  obtain ⟨report', ⟨f', inputs', output', fields', hfinalized', hown', hgood', hfields', rfl⟩,
    hreport'⟩ := h'
  obtain ⟨text, c, crops, images, htext, hc, hrendering⟩ := hgood.current.rendering
  obtain ⟨text', c', crops', images', htext', hc', hrendering'⟩ := hgood'.current.rendering
  obtain ⟨planned, -, hplanned⟩ := hown.planned text htext
  obtain ⟨planned', -, hplanned'⟩ := hown'.planned text' htext'
  obtain ⟨-, rfl⟩ := hplanned.unique hplanned'
  obtain ⟨d, -, hinputs⟩ := hown.loaded hgood.loaded
  obtain ⟨d', -, hinputs'⟩ := hown'.loaded hgood'.loaded
  obtain ⟨hshot, rfl⟩ := hinputs.unique hinputs'
  have hratio : inputs'.outputSettings = inputs.outputSettings := congrArg (·.outputSettings) hshot
  have hmetadata : inputs'.metadata = inputs.metadata := congrArg (·.metadata) hshot
  rw [hratio] at hrendering'
  obtain ⟨rfl, rfl⟩ := hrendering.unique hdefinite hinputs.source hinputs'.source hrendering'
  obtain rfl := hfields.unique hfields'
  obtain ⟨f₀, hf₀, hcropPath, hobject, hasset⟩ := ho.finalized
  obtain rfl := List.singleton_inj.mp (hfinalized.symm.trans hf₀)
  obtain rfl := Option.some.inj (htext.symm.trans hcropPath)
  refine ⟨⟨f', hfinalized', htext', ?_, ?_⟩, fun key hkey => ?_⟩
  · rw [hgood'.object, hc', ← hc, ← hgood.object, hobject]
  · obtain ⟨hwidth, hheight, hrate, hduration⟩ := hgood.asset
    obtain ⟨hwidth', hheight', hrate', hduration'⟩ := hgood'.asset
    rw [← hasset.1, ← hasset.2.1, ← hasset.2.2.1, ← hasset.2.2.2]
    exact ⟨hwidth'.trans hwidth.symm, hheight'.trans hheight.symm, hrate'.trans hrate.symm,
      hduration'.trans hduration.symm⟩
  · rw [hreport' key hkey, ← ho.report key hkey, hreport key hkey, hmetadata]

end Agreement

/-! ## Attempts that return -/

section Returns

variable {tools : ScratchTools K Pixels Content} {settings : ScratchSettings K Text}
  {jobOf : JobRecord → ScratchJob K} {reportText : Value K → String} {config : WorkerConfig}
  {handlers : JobStage → StageHandler} {attemptId : String} {attempt attempt' : Attempt}
  {w w' : AttemptWorld K Text Content} {record : JobRecord} {report : Report}

end Returns

/-! ## An attempt and a resumed one -/

namespace FourFrames

attribute [local instance] elementary

/-- The settings of an attempt in a directory of its own. -/
abbrev settingsIn (scratch : String) : ScratchSettings ℚ (List (Value ℚ)) :=
  { settings with scratch := scratch }

/-- What the analysis of the shot writes. -/
def plannedShot : Except Raised (ShotAnalysis ℚ × AnalysisReport ℚ × List (Value ℚ)) := do
  let analysis ← analysis false
  let counted ← analysisReport analysis.observations analysis.measurements analysis.plan.crops
    (some (analysis.plan.trace.map .inr)) shot.metadata
  let records ← writeCropPath analysis.observations analysis.plan.crops
  .ok (analysis, counted, records)

/-- The crops are in the middle of the source. -/
def middle : List (CropRect (FloatValue ℚ)) :=
  [2625 / 4, 2625 / 4, 2625 / 4, 2625 / 4].map fun x => (crop x).floats

theorem plannedShot_crops : plannedShot.map (fun planned => planned.1.plan.crops.map readCrop) =
    .ok middle := by decide +kernel

theorem planned : ∃ report text fields, settings.format.value report = some (.dict fields) ∧
    ∀ scratch, Planned tools (settingsIn scratch) (inputs scratch) ⟨1920, 1080, 4⟩ report
      text middle := by
  have hcrops := plannedShot_crops
  cases hplanned : plannedShot with
  | error e =>
    rw [hplanned] at hcrops
    cases hcrops
  | ok result =>
  obtain ⟨analysis, counted, records⟩ := result
  rw [hplanned] at hcrops
  have hmiddle : analysis.plan.crops.map readCrop = middle := Except.ok.inj hcrops
  obtain ⟨analysis', hanalysis, h⟩ := Except.bind_eq_ok.mp hplanned
  obtain ⟨counted', hcounted, h⟩ := Except.bind_eq_ok.mp h
  obtain ⟨records', hrecords, h⟩ := Except.bind_eq_ok.mp h
  obtain ⟨rfl, rfl, rfl⟩ : analysis' = analysis ∧ counted' = counted ∧ records' = records := by
    simpa using h
  refine ⟨settings.format.ofValue counted'.toValue, records', _, rfl, fun scratch => ?_⟩
  exact ⟨⟨analysis', counted', records', hanalysis, hcounted, rfl, hrecords, rfl, hmiddle.symm⟩⟩

/-- The source has been downloaded. -/
def loaded (scratch : String) : ScratchWorld (List (Value ℚ)) Video :=
  downloaded tools (settingsIn scratch) (job sampleRecord) made.scratch

/-- The crop path has been planned, too. -/
def analyzed (scratch : String) (report text : List (Value ℚ)) :
    ScratchWorld (List (Value ℚ)) Video :=
  ((loaded scratch).setFile .analysisReport report).setFile .cropPath text

/-- The output has been rendered along it. -/
def finished (scratch : String) (report text : List (Value ℚ)) (images : List (Image Bgr)) :
    ScratchWorld (List (Value ℚ)) Video :=
  renderedAnew (settingsIn scratch) (inputs scratch) text images output
    (analyzed scratch report text)

variable {scratch : String} {record : JobRecord} {w : ScratchWorld (List (Value ℚ)) Video}
  {report text : List (Value ℚ)} {fields : List (String × Value ℚ)} {images : List (Image Bgr)}

/-- The directory of an attempt that has not uploaded anything. -/
def before (w : ScratchWorld (List (Value ℚ)) Video) : AttemptWorld ℚ (List (Value ℚ)) Video :=
  { made with scratch := w }

end FourFrames

end BoulderFrame
