import BoulderFrame.Pipeline.ScratchRuns
import BoulderFrame.Repository.Reference
import BoulderFrame.Worker.Process

/-!
# The handlers of an attempt in its directory

The handlers of the worker work in one scratch directory. In any order of their calls, with any
failures, and with other crop paths put in place between them, an output is finalized only as a
rendering of the crop path that is stored at that time.

## Main definitions

* `AttemptWorld`, `AttemptWorld.Step`: an attempt with its directory, and the worker's effects on it
* `Finalization.Good`: what has been finalized is such a rendering
* `Attempted`: the states that an attempt may reach

## Main results

* `wp_stageHandler`: what a handler keeps
* `attempted_finalized`: every finalized output is a rendering of the stored crop path, with one frame
  for each of its crops
-/

namespace BoulderFrame

open Routine ProcessingPipeline ScratchWorld

variable {K Text Pixels Content : Type} [Field K] [LinearOrder K] [Elementary K] [FloorRing K]

/-! ## The attempt -/

/-- What is finalized for a record, and the stored object and the directory at that time. -/
structure Finalization (Text Content : Type) where
  record : JobRecord
  asset : OutputAsset
  object : Option Content
  scratch : ScratchWorld Text Content

/-- An attempt: its directory, the inputs that its upload has loaded, the object that it has put, and
what it has finalized. -/
structure AttemptWorld (K Text Content : Type) where
  scratch : ScratchWorld Text Content
  uploading : Option (PipelineInputs K)
  object : Option Content
  finalized : List (Finalization Text Content)

/-- The media work of a stage before the upload. -/
def stageRoutine {Text : Type} (settings : ScratchSettings K Text) (job : ScratchJob K) :
    JobStage → Option (ScratchRoutine K Text (List (String × Value K)))
  | .validating => some (validating settings job)
  | .analyzing => some (analyzing settings job)
  | .rendering => some (rendering settings job)
  | _ => none

/-- The effects that are not on the directory. -/
def Effect.isElsewhere : Effect → Bool
  | .runHandler .. | .loadInputs _ | .render _ | .loadAnalysisReport | .uploadFile .. |
    .finalizeOutput .. => false
  | _ => true

section Step

variable (tools : ScratchTools K Pixels Content) (settings : ScratchSettings K Text)
  (jobOf : JobRecord → ScratchJob K) (reportText : Value K → String)

/-- The fields of a report, as texts. -/
def fieldTexts (fields : List (String × Value K)) : Report :=
  fields.map fun f => (f.1, reportText f.2)

/-- **The effects of the worker** on the directory are runs of the routines on it. -/
inductive AttemptWorld.Step (w : AttemptWorld K Text Content) :
    (e : Effect) → e.Answer → AttemptWorld K Text Content → Prop
  | handled {stage record routine r s}
      (hroutine : stageRoutine settings (jobOf record) stage = some routine)
      (hrun : Prog.Run (scratchSetting tools settings.debugCapture) (routine ()) w.scratch (r, ()) s) :
      Step w (.runHandler stage record) (r.map (fieldTexts reportText)) { w with scratch := s }
  | loaded {record r s}
      (hrun : Prog.Run (scratchSetting tools settings.debugCapture)
        (ProcessingPipeline.inputs settings (jobOf record) ()) w.scratch (r, ()) s) :
      Step w (.loadInputs record) (r.map fun inputs => inputs.metadata)
        { w with scratch := s, uploading := r.toOption }
  | rendered {record inputs r s} (hinputs : w.uploading = some inputs)
      (hrun : Prog.Run (scratchSetting tools settings.debugCapture) (render settings inputs ())
        w.scratch (r, ()) s) : Step w (.render record) r { w with scratch := s }
  | reported {r s}
      (hrun : Prog.Run (scratchSetting tools settings.debugCapture)
        (loadAnalysisReport settings ()) w.scratch (r, ()) s) :
      Step w .loadAnalysisReport (r.map (fieldTexts reportText)) { w with scratch := s }
  | put {key contentType c} (hc : w.scratch.media.files (outputFile settings).text = some c) :
      Step w (.uploadFile key contentType) (.ok ()) { w with object := some c }
  | putFailed {key contentType error} (object : Option Content) :
      Step w (.uploadFile key contentType) (.error error) { w with object := object }
  | finalized {record asset a} : Step w (.finalizeOutput record asset) a
      { w with finalized := ⟨record, asset, w.object, w.scratch⟩ :: w.finalized }
  | elsewhere {e a} (h : e.isElsewhere = true) : Step w e a w

/-- The worker's effects in the directory of an attempt. -/
def directorySetting : Setting Effect Effect.Answer (AttemptWorld K Text Content) where
  rely w w' := w' = w
  sem e w a w' := AttemptWorld.Step tools settings jobOf reportText w e a w'
  guar _ _ := True

end Step

/-! ## The media work -/

section Media

variable {tools : ScratchTools K Pixels Content} {settings : ScratchSettings K Text}
  {job : ScratchJob K} {texts : Set Text} {w : ScratchWorld Text Content}

/-- The report is read. -/
theorem wp_loadAnalysisReport (hquiet : w.media.Quiet) :
    (loadAnalysisReport settings).wp (scratchSetting tools settings.debugCapture)
      (fun r _ w' => w' = w ∧ ∀ fields text, r = .ok fields → w.files .analysisReport = some text →
        settings.format.value text = some (.dict fields)) () w := by
  unfold loadAnalysisReport
  refine wp_bind_of (wp_isFile hquiet) ?_ fun _ _ _ h => ⟨h, nofun⟩
  rintro there l w ⟨rfl, rfl⟩
  cases hfile : w.files .analysisReport with
  | none => exact ⟨rfl, nofun⟩
  | some text =>
    refine wp_bind_of (wp_readFile hquiet) ?_ fun _ _ _ h => ⟨h, nofun⟩
    rintro text' l w ⟨rfl, htext⟩
    obtain rfl := Option.some.inj (hfile.symm.trans htext)
    cases hvalue : settings.format.value text with
    | none => exact ⟨rfl, nofun⟩
    | some value =>
      cases value with
      | dict fields =>
        refine ⟨rfl, fun fields' text' hfields htext' => ?_⟩
        obtain rfl := Option.some.inj htext'
        rw [hvalue, Except.ok.inj hfields]
      | _ => exact ⟨rfl, nofun⟩

/-- A crop path that is stored is only read. -/
theorem wp_cropPath_stored {inputs : PipelineInputs K} {text : Text} (hquiet : w.media.Quiet)
    (htext : w.files .cropPath = some text) :
    (cropPath settings inputs).wp (scratchSetting tools settings.debugCapture)
      (fun _ _ w' => w' = w) () w := by
  unfold cropPath
  refine wp_bind_of (wp_isFile hquiet) ?_ fun _ _ _ h => h
  rintro there l w ⟨rfl, rfl⟩
  rw [htext]
  refine wp_bind_of (wp_readFile hquiet) ?_ fun _ _ _ h => h
  rintro text' l w ⟨rfl, -⟩
  rfl

/-- The log entries of a rendering change nothing. -/
theorem wp_logRenderProgress {inputs : PipelineInputs K} {text : Text} (hquiet : w.media.Quiet)
    (htext : w.files .cropPath = some text) :
    (logRenderProgress settings inputs).wp (scratchSetting tools settings.debugCapture)
      (fun _ _ w' => w' = w) () w := by
  unfold logRenderProgress
  split_ifs
  · refine wp_bind_of (P := fun _ _ w' => w' = w) ?_ ?_ fun _ _ _ h => h
    · rw [wp_handle, wp_bind]
      refine wp_onScratch hquiet fun a w' hstep => ?_
      cases hstep with
      | progressed => rfl
      | @raised _ error => cases error <;> rfl
    · rintro available l w' rfl
      split_ifs
      · exact wp_bind_of (wp_cropPath_stored hquiet htext) (fun _ _ _ h => h) fun _ _ _ h => h
      · rfl
  · rfl

/-- **The media work of a stage** keeps the cache file true. -/
theorem wp_stageRoutine (hformat : settings.format.Exact)
    (hinjective : Set.InjOn settings.format.sha256 texts) (hquiet : w.media.Quiet)
    (hvouched : Vouched tools settings texts w) {stage : JobStage}
    {routine : ScratchRoutine K Text (List (String × Value K))}
    (hroutine : stageRoutine settings job stage = some routine) :
    routine.wp (scratchSetting tools settings.debugCapture)
      (fun _ _ w' => Occurs texts w' → Vouched tools settings texts w') () w := by
  cases stage with
  | validating =>
    obtain rfl := Option.some.inj hroutine
    unfold validating
    exact wp_bind_of (wp_inputs hquiet) (fun _ _ _ h _ => hvouched.loads h.1)
      fun _ _ _ h _ => hvouched.loads h
  | analyzing =>
    obtain rfl := Option.some.inj hroutine
    unfold analyzing
    refine wp_bind_of (wp_inputs hquiet) ?_ fun _ _ _ h _ => hvouched.loads h
    rintro inputs l w₁ ⟨hloads, -, hinputs⟩
    have hvouched₁ := hvouched.loads hloads
    have hquiet₁ := hloads.quiet hquiet
    refine wp_bind_of (wp_cropPath_loads hquiet₁ hformat hinputs.source.frameRate_pos.le) ?_
      fun _ _ _ h _ => hvouched₁.touches h (by decide)
    rintro crops l w₂ ⟨h₂, -⟩
    refine wp_mono ?_ (wp_loadAnalysisReport (h₂.quiet hquiet₁))
    rintro r l w₃ ⟨rfl, -⟩ -
    exact hvouched₁.touches h₂ (by decide)
  | rendering =>
    obtain rfl := Option.some.inj hroutine
    unfold rendering
    refine wp_bind_of (wp_inputs hquiet) ?_ fun _ _ _ h _ => hvouched.loads h
    rintro inputs l w₁ ⟨hloads, -, hinputs⟩
    refine wp_bind_of (wp_render hformat hinjective (hloads.quiet hquiet) (hvouched.loads hloads)
      hinputs) ?_ fun _ _ _ h => h.vouched
    rintro output l w₂ h₂
    obtain ⟨hquiet₂, text, htext⟩ := h₂.returned output rfl
    refine wp_bind_of (wp_logRenderProgress hquiet₂ htext) ?_ fun _ _ _ h => h ▸ h₂.vouched
    rintro - l w₃ rfl
    refine wp_bind_of (wp_loadAnalysisReport hquiet₂) ?_ fun _ _ _ h => h.1 ▸ h₂.vouched
    rintro report l w₄ ⟨rfl, -⟩
    exact h₂.vouched
  | queued | uploading | completed | failed | cancelled => cases hroutine

end Media

/-! ## The handlers -/

section Handlers

variable {tools : ScratchTools K Pixels Content} {settings : ScratchSettings K Text}
  {jobOf : JobRecord → ScratchJob K} {reportText : Value K → String} {texts : Set Text}
  {w w' : AttemptWorld K Text Content}

/-- What has been finalized is the stored object, which is a rendering of the crop path that was
stored then, and the asset has its metadata. -/
structure Finalization.Good (tools : ScratchTools K Pixels Content)
    (settings : ScratchSettings K Text) (jobOf : JobRecord → ScratchJob K)
    (f : Finalization Text Content) (inputs : PipelineInputs K) (output : MediaMetadata) : Prop where
  loaded : InputsOf tools settings (jobOf f.record) f.scratch inputs
  current : Current tools settings inputs output f.scratch
  object : f.object = f.scratch.media.files (outputFile settings).text
  asset : f.asset.width = output.width ∧ f.asset.height = output.height ∧
    f.asset.frameRate = output.frameRate ∧ f.asset.durationMs = output.durationMs

/-- What a handler leaves, however it ends. -/
structure HandlerEnds (tools : ScratchTools K Pixels Content) (settings : ScratchSettings K Text)
    (jobOf : JobRecord → ScratchJob K) (texts : Set Text) (w w' : AttemptWorld K Text Content) : Prop where
  vouched : Occurs texts w'.scratch → Vouched tools settings texts w'.scratch
  finalized : Occurs texts w'.scratch →
    ∀ f ∈ w'.finalized, f ∈ w.finalized ∨ ∃ inputs output, f.Good tools settings jobOf inputs output

/-- An asset has the metadata that it is made of. -/
theorem OutputAsset.postInit_media {sizeBytes width height durationMs : ℤ} {contentType : String}
    {frameRate : ℚ} {asset : OutputAsset} (h : OutputAsset.postInit sizeBytes contentType width height
      frameRate durationMs = .ok asset) : asset.width = width ∧ asset.height = height ∧
      asset.frameRate = frameRate ∧ asset.durationMs = durationMs := by
  unfold OutputAsset.postInit at h
  split_ifs at h
  obtain rfl := Except.ok.inj h
  exact ⟨rfl, rfl, rfl, rfl⟩

/-- One effect in the directory. -/
theorem wp_onDirectory {ℓ α : Type} {l : ℓ} {e : Effect} {h : e.Answer = Except Raised α}
    {Q : Except Raised α → ℓ → AttemptWorld K Text Content → Prop}
    (hstep : ∀ a w', AttemptWorld.Step tools settings jobOf reportText w e a w' → Q (cast h a) l w') :
    (call e h : WorkerRoutine ℓ α).wp (directorySetting tools settings jobOf reportText) Q l w := by
  rw [wp_call]
  rintro w₁ rfl a w₂ hsem
  exact ⟨trivial, hstep a w₂ hsem⟩

theorem wp_loadInputs {record : JobRecord} (hquiet : w.scratch.media.Quiet) :
    (call (.loadInputs record) rfl : WorkerRoutine Unit MediaMetadata).wp
      (directorySetting tools settings jobOf reportText)
      (fun r _ w' => Loads settings w.scratch w'.scratch ∧ w'.finalized = w.finalized ∧
        ∀ metadata, r = .ok metadata → ∃ inputs, w'.uploading = some inputs ∧
          inputs.metadata = metadata ∧ InputsOf tools settings (jobOf record) w'.scratch inputs ∧
          Wrote tools settings (jobOf record) w.scratch w'.scratch) () w := by
  refine wp_onDirectory fun a w' hstep => ?_
  cases hstep with
  | @loaded _ r s hrun =>
    have hends := Prog.wp_run (wp_inputs hquiet) hrun
    cases r with
    | error e => exact ⟨hends, rfl, fun _ h => nomatch h⟩
    | ok inputs =>
      exact ⟨hends.1, rfl, fun _ h => ⟨inputs, rfl, Except.ok.inj h, hends.2.2, hends.2.1⟩⟩
  | elsewhere h => cases h

theorem wp_renderOutput {record : JobRecord} {inputs : PipelineInputs K}
    (hformat : settings.format.Exact) (hinjective : Set.InjOn settings.format.sha256 texts)
    (hquiet : w.scratch.media.Quiet) (hvouched : Vouched tools settings texts w.scratch)
    (hloaded : w.uploading = some inputs)
    (hinputs : InputsOf tools settings (jobOf record) w.scratch inputs) :
    (call (.render record) rfl : WorkerRoutine Unit MediaMetadata).wp
      (directorySetting tools settings jobOf reportText)
      (fun r _ w' => RenderEnds tools settings texts inputs r () w'.scratch ∧
        w'.finalized = w.finalized) () w := by
  refine wp_onDirectory fun a w' hstep => ?_
  cases hstep with
  | @rendered _ inputs' _ s hinputs' hrun =>
    obtain rfl := Option.some.inj (hloaded.symm.trans hinputs')
    have hends := Prog.wp_run (wp_render hformat hinjective hquiet hvouched hinputs) hrun
    exact ⟨hends, rfl⟩
  | elsewhere h => cases h

/-- The output is put. -/
theorem wp_putOutput {key contentType : String} :
    (uploadStored key contentType).wp (directorySetting tools settings jobOf reportText)
      (fun r _ w' => w'.scratch = w.scratch ∧ w'.finalized = w.finalized ∧
        ∀ stored, r = .ok stored → ∃ c,
          w.scratch.media.files (outputFile settings).text = some c ∧ w'.object = some c) () w := by
  have hput : (handle (call (.uploadFile key contentType) rfl) fun _ => raise storageError :
      WorkerRoutine Unit Unit).wp (directorySetting tools settings jobOf reportText)
      (fun r _ w' => w'.scratch = w.scratch ∧ w'.finalized = w.finalized ∧
        (r = .ok () → ∃ c, w.scratch.media.files (outputFile settings).text = some c ∧
          w'.object = some c)) () w := by
    rw [wp_handle]
    refine wp_onDirectory fun a w' hstep => ?_
    cases hstep with
    | put hc => exact ⟨rfl, rfl, fun _ => ⟨_, hc, rfl⟩⟩
    | putFailed => exact ⟨rfl, rfl, nofun⟩
    | elsewhere h => cases h
  have hhead : ∀ w₁ : AttemptWorld K Text Content, (headStored key).wp
      (directorySetting tools settings jobOf reportText) (fun _ _ w' => w' = w₁) () w₁ := by
    intro w₁
    unfold headStored
    have hcall : (handle (call (.headObject key) rfl) fun _ => raise storageError :
        WorkerRoutine Unit (ℤ × Option String)).wp (directorySetting tools settings jobOf reportText)
        (fun _ _ w' => w' = w₁) () w₁ := by
      rw [wp_handle]
      refine wp_onDirectory fun a w' hstep => ?_
      cases hstep with
      | elsewhere => cases a <;> rfl
    exact wp_bind_of hcall (fun _ _ _ h => h) fun _ _ _ h => h
  unfold uploadStored
  refine wp_bind_of hput ?_ fun _ _ _ h => ⟨h.1, h.2.1, nofun⟩
  rintro _ l w₁ ⟨hscratch, hfinalized, hobject⟩
  refine wp_mono ?_ (hhead w₁)
  rintro r l w₂ rfl
  exact ⟨hscratch, hfinalized, fun _ _ => hobject rfl⟩

/-- **The upload** finalizes a rendering of the stored crop path only. -/
theorem wp_upload {record : JobRecord} (hformat : settings.format.Exact)
    (hinjective : Set.InjOn settings.format.sha256 texts) (hquiet : w.scratch.media.Quiet)
    (hvouched : Vouched tools settings texts w.scratch) :
    (uploading record).wp (directorySetting tools settings jobOf reportText)
      (fun _ _ w' => HandlerEnds tools settings jobOf texts w w') () w := by
  have hsame : ∀ w' : AttemptWorld K Text Content, w'.finalized = w.finalized →
      (Occurs texts w'.scratch → Vouched tools settings texts w'.scratch) →
      HandlerEnds tools settings jobOf texts w w' :=
    fun w' hfinalized hvouched' => ⟨hvouched', fun _ f hf => .inl (hfinalized ▸ hf)⟩
  unfold uploading
  refine wp_bind_of (wp_loadInputs hquiet) ?_ fun _ _ w' h => hsame w' h.2.1 fun _ => hvouched.loads h.1
  rintro metadata l w₁ ⟨hloads, hfinalized₁, hloaded⟩
  obtain ⟨inputs, huploading, -, hinputs, -⟩ := hloaded metadata rfl
  refine wp_bind_of (wp_renderOutput hformat hinjective (hloads.quiet hquiet) (hvouched.loads hloads)
    huploading hinputs) ?_ fun _ _ w' h => hsame w' (h.2.trans hfinalized₁) h.1.vouched
  rintro output l w₂ ⟨hends, hfinalized₂⟩
  have hfinalized₂ := hfinalized₂.trans hfinalized₁
  obtain ⟨hquiet₂, -⟩ := hends.returned output rfl
  rw [wp_bind, wp_ofExcept]
  cases sourceOf record with
  | error e => exact hsame w₂ hfinalized₂ hends.vouched
  | ok source =>
    refine wp_bind_of wp_putOutput ?_ fun _ _ w' h =>
      hsame w' (h.2.1.trans hfinalized₂) (h.1 ▸ hends.vouched)
    rintro stored l w₃ ⟨hscratch₃, hfinalized₃, hobject⟩
    obtain ⟨c, hc, hobject⟩ := hobject stored rfl
    have hfailed : ∀ w' : AttemptWorld K Text Content, w' = w₃ → HandlerEnds tools settings jobOf texts w w' := by
      rintro w' rfl
      exact hsame w' (hfinalized₃.trans hfinalized₂) (hscratch₃ ▸ hends.vouched)
    refine wp_bind_of (P := fun _ _ w' => w' = w₃) (wp_onDirectory fun a w' hstep => ?_) ?_
      fun _ _ w' h => hfailed w' h
    · cases hstep with
      | elsewhere => rfl
    rintro size l w₃ rfl
    split_ifs
    · exact hfailed w₃ rfl
    rw [wp_bind, wp_ofExcept]
    cases hasset : OutputAsset.postInit stored.sizeBytes (stored.contentType.getD "") output.width
        output.height output.frameRate output.durationMs with
    | error e => exact hfailed w₃ rfl
    | ok asset =>
      obtain ⟨hwidth, hheight, hrate, hduration⟩ := OutputAsset.postInit_media hasset
      have hdone : ∀ w' : AttemptWorld K Text Content, w' = { w₃ with
          finalized := ⟨record, asset, w₃.object, w₃.scratch⟩ :: w₃.finalized } →
          HandlerEnds tools settings jobOf texts w w' := by
        rintro w' rfl
        refine ⟨hscratch₃ ▸ hends.vouched, fun hoccurs f hf => ?_⟩
        rcases List.mem_cons.mp hf with rfl | hf
        · have hcurrent := hends.current (hscratch₃ ▸ hoccurs) output rfl
          obtain ⟨_, _, _, _, -, -, hrendering⟩ := hcurrent.rendering
          exact .inr ⟨inputs, output, ⟨hscratch₃ ▸ hrendering.found, hinputs.output, hinputs.settings⟩,
            hscratch₃ ▸ hcurrent, by rw [hobject, hscratch₃, hc], hwidth, hheight, hrate, hduration⟩
        · exact .inl (hfinalized₂ ▸ hfinalized₃ ▸ hf)
      refine wp_bind_of (P := fun _ _ w' => w' = { w₃ with
          finalized := ⟨record, asset, w₃.object, w₃.scratch⟩ :: w₃.finalized })
        (wp_onDirectory fun a w' hstep => ?_) ?_ fun _ _ w' h => hdone w' h
      · cases hstep with
        | finalized => rfl
        | elsewhere h => cases h
      rintro id l w₄ hw₄
      refine wp_bind_of (P := fun _ _ w' => w' = w₄) (wp_onDirectory fun a w' hstep => ?_) ?_
        fun _ _ w' h => hdone w' (h.trans hw₄)
      · cases hstep with
        | reported hrun =>
          have hquiet₄ : w₄.scratch.media.Quiet := by rw [hw₄, hscratch₃]; exact hquiet₂
          have hread := Prog.wp_run (wp_loadAnalysisReport hquiet₄) hrun
          rw [hread.1]
        | elsewhere h => cases h
      · rintro report l w₅ rfl
        exact hdone _ hw₄

/-- **A handler** keeps the cache file true, and finalizes renderings of the stored crop path only. -/
theorem wp_stageHandler {record : JobRecord} {stage : JobStage} (hformat : settings.format.Exact)
    (hinjective : Set.InjOn settings.format.sha256 texts) (hquiet : w.scratch.media.Quiet)
    (hvouched : Vouched tools settings texts w.scratch) :
    (pipelineHandlers stage record).wp (directorySetting tools settings jobOf reportText)
      (fun _ _ w' => HandlerEnds tools settings jobOf texts w w') () w := by
  have hmedia : (call (.runHandler stage record) rfl : WorkerRoutine Unit Report).wp
      (directorySetting tools settings jobOf reportText)
      (fun _ _ w' => HandlerEnds tools settings jobOf texts w w') () w := by
    refine wp_onDirectory fun a w' hstep => ?_
    cases hstep with
    | handled hroutine hrun =>
      have hends := Prog.wp_run (wp_stageRoutine hformat hinjective hquiet hvouched hroutine) hrun
      exact ⟨hends, fun _ f hf => .inl hf⟩
    | elsewhere h => cases h
  cases stage with
  | uploading => exact wp_upload hformat hinjective hquiet hvouched
  | queued | validating | analyzing | rendering | completed | failed | cancelled => exact hmedia

/-! ## Handlers that return -/

/-- One effect of the worker. -/
theorem returns_effect {ℓ α : Type} {l : ℓ} {e : Effect} {h : e.Answer = Except Raised α}
    {answer : e.Answer} {a : α}
    (hstep : AttemptWorld.Step tools settings jobOf reportText w e answer w')
    (hok : cast h answer = .ok a) : (call e h : WorkerRoutine ℓ α).Returns
      (directorySetting tools settings jobOf reportText) l w a l w' :=
  .call rfl hstep hok

/-- An effect that is not on the directory may answer anything. -/
theorem returns_elsewhere {ℓ α : Type} {l : ℓ} {e : Effect} {h : e.Answer = Except Raised α} {a : α}
    (he : e.isElsewhere = true) : (call e h : WorkerRoutine ℓ α).Returns
      (directorySetting tools settings jobOf reportText) l w a l w := by
  have hstep : AttemptWorld.Step tools settings jobOf reportText w e (cast h.symm (.ok a)) w :=
    .elsewhere he
  exact returns_effect hstep (cast_cast ..)

theorem returns_handled {record : JobRecord} {stage : JobStage}
    {routine : ScratchRoutine K Text (List (String × Value K))} {fields : List (String × Value K)}
    {s : ScratchWorld Text Content} (hroutine : stageRoutine settings (jobOf record) stage = some routine)
    (hrun : routine.Returns (scratchSetting tools settings.debugCapture) () w.scratch fields () s) :
    (call (.runHandler stage record) rfl : WorkerRoutine Unit Report).Returns
      (directorySetting tools settings jobOf reportText) () w (fieldTexts reportText fields) ()
      { w with scratch := s } :=
  returns_effect (.handled hroutine hrun) rfl

variable {inputs : PipelineInputs K} {output : MediaMetadata} {s₁ s₂ : ScratchWorld Text Content}

/-- **An upload returns** if the output is rendered or taken over, and is stored as it is. -/
theorem returns_upload {record : JobRecord} {source : SourceAsset} {c : Content} {sizeBytes : ℤ}
    {asset : OutputAsset} {fields : List (String × Value K)}
    (hinputs : (ProcessingPipeline.inputs settings (jobOf record)).Returns
      (scratchSetting tools settings.debugCapture) () w.scratch inputs () s₁)
    (hrender : (render settings inputs).Returns (scratchSetting tools settings.debugCapture) () s₁
      output () s₂)
    (hc : s₂.media.files (outputFile settings).text = some c)
    (hreport : (loadAnalysisReport settings).Returns (scratchSetting tools settings.debugCapture) () s₂
      fields () s₂) (hsource : record.sourceAsset = some source)
    (hasset : OutputAsset.postInit sizeBytes "video/mp4" output.width output.height output.frameRate
      output.durationMs = .ok asset) :
    (uploading record).Returns (directorySetting tools settings jobOf reportText) () w
      ((fieldTexts reportText fields).merge
        [("frames_processed", toString inputs.metadata.expectedFrameCount)]) ()
      ⟨s₂, some inputs, some c, ⟨record, asset, some c, s₂⟩ :: w.finalized⟩ := by
  have hsourceOf : sourceOf record = .ok source := by
    unfold sourceOf
    rw [hsource]
  have hhead : (call (.headObject (outputStorageKey source.projectId record.id)) rfl :
      WorkerRoutine Unit (ℤ × Option String)).Returns (directorySetting tools settings jobOf reportText)
      () ⟨s₂, some inputs, some c, w.finalized⟩ (sizeBytes, some "video/mp4") ()
      ⟨s₂, some inputs, some c, w.finalized⟩ := returns_elsewhere rfl
  have hsize : (call .outputFileSize rfl : WorkerRoutine Unit ℤ).Returns
      (directorySetting tools settings jobOf reportText) () ⟨s₂, some inputs, some c, w.finalized⟩
      sizeBytes () ⟨s₂, some inputs, some c, w.finalized⟩ := returns_elsewhere rfl
  have hfinalize : (call (.finalizeOutput record asset) rfl : WorkerRoutine Unit Uuid).Returns
      (directorySetting tools settings jobOf reportText) () ⟨s₂, some inputs, some c, w.finalized⟩
      record.id () ⟨s₂, some inputs, some c, ⟨record, asset, some c, s₂⟩ :: w.finalized⟩ :=
    returns_effect .finalized rfl
  unfold uploading
  refine .bind (returns_effect (.loaded hinputs) rfl) ?_
  refine .bind (returns_effect (.rendered rfl hrender) rfl) (.bind (.ofExcept hsourceOf) ?_)
  refine .bind (.bind (.handle (returns_effect (.put hc) rfl)) (.bind (.handle hhead) .pure)) ?_
  refine .bind hsize ?_
  rw [if_neg (by simp)]
  refine .bind (.ofExcept hasset) (.bind hfinalize ?_)
  exact .bind (returns_effect (.reported hreport) rfl) .pure

end Handlers

/-! ## The states of an attempt -/

section States

/-- The directory has been made, and nothing has been finalized. -/
structure AttemptWorld.Fresh (w : AttemptWorld K Text Content) : Prop where
  files : ∀ file, w.scratch.files file = none
  encoder : w.scratch.media.encoder = none
  finalized : w.finalized = []

/-- The states of an attempt: any handlers are called in any order, each may fail at any point as long
as the encoder's process obeys, and the stored crop path may be removed or replaced between the
calls. `texts` are the crop paths that the calls leave. -/
inductive Attempted (tools : ScratchTools K Pixels Content) (settings : ScratchSettings K Text)
    (jobOf : JobRecord → ScratchJob K) (reportText : Value K → String) (texts : Set Text) :
    AttemptWorld K Text Content → Prop
  | fresh {w} (h : w.Fresh) : Attempted tools settings jobOf reportText texts w
  | handled {w stage record r w'} (h : Attempted tools settings jobOf reportText texts w)
      (hrun : Prog.Run (directorySetting tools settings jobOf reportText)
        (pipelineHandlers stage record ()) w (r, ()) w')
      (hworks : w'.scratch.media.signalFailed = false) (hoccurs : Occurs texts w'.scratch) :
      Attempted tools settings jobOf reportText texts w'
  | cropPathReplaced {w} (h : Attempted tools settings jobOf reportText texts w)
      (text : Option Text) : Attempted tools settings jobOf reportText texts { w with
        scratch := { w.scratch with files := Function.update w.scratch.files .cropPath text } }

variable {tools : ScratchTools K Pixels Content} {settings : ScratchSettings K Text}
  {jobOf : JobRecord → ScratchJob K} {reportText : Value K → String} {texts : Set Text}
  {w : AttemptWorld K Text Content}

/-- **The invariant of an attempt.** -/
theorem Attempted.invariant (hformat : settings.format.Exact)
    (hinjective : Set.InjOn settings.format.sha256 texts)
    (h : Attempted tools settings jobOf reportText texts w) :
    Vouched tools settings texts w.scratch ∧ w.scratch.media.Quiet ∧
      ∀ f ∈ w.finalized, ∃ inputs output, f.Good tools settings jobOf inputs output := by
  induction h with
  | @fresh w h =>
    have hquiet : w.scratch.media.Quiet := by
      intro p hp
      cases h.encoder.symm.trans hp
    exact ⟨.of_none (fun _ => hquiet) (h.files _), hquiet, by simp [h.finalized]⟩
  | handled _ hrun hworks hoccurs ih =>
    obtain ⟨hvouched, hquiet, hgood⟩ := ih
    have hends := Prog.wp_run (wp_stageHandler hformat hinjective hquiet hvouched) hrun
    have hvouched' := hends.vouched hoccurs
    exact ⟨hvouched', hvouched'.quiet hworks,
      fun f hf => (hends.finalized hoccurs f hf).elim (hgood f) id⟩
  | @cropPathReplaced w _ text ih =>
    obtain ⟨hvouched, hquiet, hgood⟩ := ih
    have htouches : w.scratch.Touches [.cropPath] { w.scratch with
        files := Function.update w.scratch.files .cropPath text } :=
      ⟨rfl, fun _ hne => Function.update_of_ne (List.ne_of_not_mem_cons hne) ..⟩
    exact ⟨hvouched.touches htouches (by decide), hquiet, hgood⟩

/-- The content is a rendering of the stored crop path, with one frame for each crop and one crop for
each expected frame, both when it is encoded and when it is decoded. -/
def IsStored (tools : ScratchTools K Pixels Content) (settings : ScratchSettings K Text)
    (inputs : PipelineInputs K) (output : MediaMetadata) (s : ScratchWorld Text Content)
    (object : Option Content) : Prop :=
  ∃ text c crops images, s.files .cropPath = some text ∧ object = some c ∧
    RenderingOf tools settings s inputs.outputSettings.aspectRatio text c inputs.source inputs.metadata
      crops images output ∧
    (output.width, output.height) = outputDimensions inputs.outputSettings.aspectRatio ∧
    (crops.length : ℤ) = inputs.metadata.expectedFrameCount ∧ images.length = crops.length ∧
    ∃ report, tools.decodes c report ∧ decodedFrameCount settings.int report = .ok (crops.length : ℤ)

omit [Elementary K] in
theorem Current.isStored {inputs : PipelineInputs K} {output : MediaMetadata}
    {s : ScratchWorld Text Content} (h : Current tools settings inputs output s) :
    IsStored tools settings inputs output s (s.media.files (outputFile settings).text) := by
  obtain ⟨text, c, crops, images, htext, hc, hrendering⟩ := h.rendering
  obtain ⟨hlines, hlength, -⟩ := loadCropPath_eq_ok.mp hrendering.loads
  have hcount : (crops.length : ℤ) = inputs.metadata.expectedFrameCount := by rw [hlength, hlines]
  obtain ⟨report, hreport, hdecoded⟩ := hrendering.rendering.validated.decoded
  obtain ⟨tolerance, -, hvalid⟩ := hrendering.rendering.validated.valid
  exact ⟨text, c, crops, images, htext, hc, hrendering, not_not.mp (Except.ok_of_guard hvalid).1,
    hcount, hrendering.rendering.played.images_length, report, hreport, hcount ▸ hdecoded⟩

/-- **No stale output.** Any handlers of an attempt are called in any order, each may fail at any
point as long as the calls on the encoder's process succeed, and the stored crop path may be removed
or replaced between the calls; the crop paths that occur have different digests. Then whatever is
finalized is a rendering of the crop path that is stored at that time, for the aspect ratio of the
job, and so is the output whenever `_render` returns. -/
theorem attempted_finalized (hformat : settings.format.Exact)
    (hinjective : Set.InjOn settings.format.sha256 texts)
    (h : Attempted tools settings jobOf reportText texts w) :
    (∀ f ∈ w.finalized, ∃ inputs output, InputsOf tools settings (jobOf f.record) f.scratch inputs ∧
      IsStored tools settings inputs output f.scratch f.object ∧
      f.asset.width = output.width ∧ f.asset.height = output.height ∧
      f.asset.frameRate = output.frameRate ∧ f.asset.durationMs = output.durationMs) ∧
    ∀ record inputs output s, InputsOf tools settings (jobOf record) w.scratch inputs →
      Prog.Run (scratchSetting tools settings.debugCapture) (render settings inputs ()) w.scratch
        (.ok output, ()) s → Occurs texts s →
      IsStored tools settings inputs output s (s.media.files (outputFile settings).text) := by
  obtain ⟨hvouched, hquiet, hgood⟩ := h.invariant hformat hinjective
  constructor
  · intro f hf
    obtain ⟨inputs, output, hinputs, hcurrent, hobject, hasset⟩ := hgood f hf
    exact ⟨inputs, output, hinputs, hobject ▸ hcurrent.isStored, hasset⟩
  · intro record inputs output s hinputs hrun hoccurs
    have hends := Prog.wp_run (wp_render hformat hinjective hquiet hvouched hinputs) hrun
    exact (hends.current hoccurs output rfl).isStored

end States

/-! ## A directory with two crop paths -/

namespace FourFrames

attribute [local instance] elementary

/-- A video: its size, and the count of its frames. -/
structure Video where
  width : ℕ
  height : ℕ
  frames : ℕ
  deriving DecidableEq

/-- What the probe prints of a video of 30 frames per second. -/
def probe (video : Video) : Value ℚ := .dict [
  ("format", .dict [("format_name", .str "mov,mp4,m4a")]),
  ("streams", .list [.dict [
    ("codec_type", .str "video"),
    ("codec_name", .str "h264"),
    ("avg_frame_rate", .str "30/1"),
    ("r_frame_rate", .str "30/1"),
    ("width", .int video.width),
    ("height", .int video.height),
    ("duration", .str (if video.frames = 4 then "0.133333" else "N/A"))]])]

def numberTexts : Ffprobe.NumberTexts ℚ where
  str
    | .str text => text
    | _ => ""
  fraction text :=
    if text = "30/1" then some 30
    else if text = "0.133333" then some (133333 / 1000000)
    else none
  int _ := none

/-- JSON files as their values; the left edge of its first crop tells a crop path from others. -/
def format : JsonFormat ℚ (List (Value ℚ)) where
  ofLines records := records
  lines text := text.map .ok
  ofValue v := [v]
  value text := text.head?
  sha256
    | record :: _ => match (record.get "crop").get "x" with
      | .number x => toString x.num
      | _ => ""
    | [] => ""

theorem format_exact : format.Exact := ⟨fun _ => rfl, fun _ => rfl⟩

def settings : ScratchSettings ℚ (List (Value ℚ)) where
  scratch := "/scratch"
  format := format
  textSize lines := lines.length
  floatOfText := floatOfNone
  str _ := ""
  int text := if text = "4" then some 4 else none
  binary := "ffmpeg"
  debugCapture := false
  debugMaxFrames := 10000
  debugMaxBytes := 100000
  normalizationMaxSourceBytes := 0

def black (height width : ℕ) : Image Bgr := ⟨height, width, fun _ _ => ⟨0, 0, 0⟩⟩

/-- The source of the shot, and the tools; the encoder counts the frames that it has been delivered. -/
def tools : ScratchTools ℚ Bool Video where
  stored _ := ⟨1920, 1080, 4⟩
  probe video := .ok (probe video)
  numberTexts := numberTexts
  normalize video _ _ := video
  stream _ _ := stream
  detect := detect
  hypot x y := max |x| |y|
  linprog := linprog
  resize _ size := .ok (some (black size.2.toNat size.1.toNat))
  frames _ _ := stream.frames.map fun frame =>
    ⟨frame.index, frame.timestampMs, some (black 1080 1920)⟩
  decodes video report := report = "frame=" ++ toString video.frames ++ "\nprogress=end\n"
  encodes _ bytes video := video = ⟨1080, 1920, bytes.length / (1920 * (1080 * 3))⟩

def job (_ : JobRecord) : ScratchJob ℚ where
  source := .ok ⟨sampleJob, sampleProject⟩
  storageKey := "source"
  sizeBytes := 1
  settings := .ok (shot.selection, shot.outputSettings, shot.detectionSampleFps)

/-- The rendered output. -/
def output : Video := ⟨1080, 1920, 4⟩

def outputMetadata : MediaMetadata := .probed 1080 1920 30 (133333 / 1000000) "h264" 0 none

/-- The inputs of the shot in a directory. -/
def inputs (scratch : String) : PipelineInputs ℚ :=
  ⟨shot, sourceOriginal { settings with scratch := scratch },
    outputFile { settings with scratch := scratch }⟩

/-- What the tools say of the source and of the output. -/
theorem tools_answer : tools.inspect ⟨1920, 1080, 4⟩ false = .ok shot.metadata ∧
    tools.inspect output false = .ok outputMetadata ∧
    durationTolerance ℚ shot.metadata = .ok 34 ∧
    validateOutput outputMetadata .portrait (some shot.metadata.durationMs) (some 34)
      (some shot.metadata.hasAudio) = .ok () ∧
    decodedFrameCount settings.int ("frame=" ++ toString output.frames ++ "\nprogress=end\n") =
      .ok shot.metadata.expectedFrameCount ∧
    (OutputAsset.postInit 1 "video/mp4" outputMetadata.width outputMetadata.height
      outputMetadata.frameRate outputMetadata.durationMs).toOption.isSome = true ∧
    shot.metadata.frameForTimeMs 0 = .ok 0 ∧
    ∀ frame ∈ [((0 : ℕ), (0 : ℤ)), (1, 33), (2, 67), (3, 100)],
      shot.metadata.timestampForFrame frame.1 = .ok frame.2 := by decide +kernel

theorem ready (scratch : String) (record : JobRecord) :
    Ready tools { settings with scratch := scratch } (job record) (inputs scratch) :=
  ⟨⟨_, rfl⟩, rfl, tools_answer.1, ⟨0, tools_answer.2.2.2.2.2.2.1⟩, rfl, rfl⟩

theorem output_validated : Validated ℚ tools.render settings.int shot.metadata .portrait output
    outputMetadata := by
  obtain ⟨-, hprobed, htolerance, hvalid, hdecoded, -⟩ := tools_answer
  exact ⟨hprobed, ⟨34, htolerance, hvalid⟩, _, rfl, hdecoded⟩

theorem output_asset : (OutputAsset.postInit 1 "video/mp4" outputMetadata.width outputMetadata.height
    outputMetadata.frameRate outputMetadata.durationMs).toOption.isSome = true :=
  tools_answer.2.2.2.2.2.1

/-- A crop of the height of the source, from its left edge. -/
def crop (x : ℚ) : CropRect ℚ := ⟨x, 0, 1215 / 2, 1080⟩

theorem shown_crop {k : ℕ} {t : ℤ} {x : ℚ} (htime : shot.metadata.timestampForFrame k = .ok t)
    (hvalid : ValidCrop shot.metadata .portrait (crop x)) :
    ∃ image, Shown tools.render shot.metadata .portrait k ⟨k, t, some (black 1080 1920)⟩
      (crop x).floats image := by
  have hresizes : FrameResizes tools.resize := fun _ width height _ hwidth hheight =>
    ⟨_, rfl, Int.toNat_of_nonneg hwidth.le, Int.toNat_of_nonneg hheight.le⟩
  have hcut : (∃ image, cropAndResizeFrame tools.resize (some (black 1080 1920)) (crop x).floats
      (outputDimensions .portrait) = .ok image) ↔ 1 ≤ (crop x).width ∧ 1 ≤ (crop x).height :=
    cropAndResizeFrame_ok_iff hresizes hvalid.x_nonneg hvalid.y_nonneg hvalid.width_pos.le
      hvalid.height_pos.le hvalid.right_le hvalid.bottom_le (by decide)
  obtain ⟨image, himage⟩ := hcut.mpr ⟨by norm_num [crop], by norm_num [crop]⟩
  exact ⟨image, rfl, htime, himage⟩

/-- The source can be rendered along four crops. -/
theorem renders {scratch : String} {text : List (Value ℚ)} {x₀ x₁ x₂ x₃ : ℚ}
    (hload : loadCropPath settings.floatOfText shot.metadata (settings.format.lines text) =
      .ok ([x₀, x₁, x₂, x₃].map fun x => (crop x).floats))
    (hvalid : validateCropPath ([x₀, x₁, x₂, x₃].map fun x => (crop x).floats) shot.metadata .portrait =
      .ok ()) :
    ∃ images, Renders tools { settings with scratch := scratch } (inputs scratch) text
      ([x₀, x₁, x₂, x₃].map fun x => (crop x).floats) images output outputMetadata := by
  have hcrop : ∀ x ∈ [x₀, x₁, x₂, x₃], ValidCrop shot.metadata .portrait (crop x) := by
    intro x hx
    obtain ⟨c, hc, hcrop⟩ := (validateCropPath_eq_ok.mp hvalid).2 _ (List.mem_map_of_mem hx)
    obtain rfl := Option.some.inj hc
    exact hcrop
  obtain ⟨-, -, -, -, -, -, -, hclock⟩ := tools_answer
  have hshown : ∀ (k : ℕ) (t : ℤ), (k, t) ∈ [((0 : ℕ), (0 : ℤ)), (1, 33), (2, 67), (3, 100)] →
      ∀ x ∈ [x₀, x₁, x₂, x₃], ∃ image, Shown tools.render shot.metadata .portrait k
        ⟨k, t, some (black 1080 1920)⟩ (crop x).floats image :=
    fun k t hframe x hx => shown_crop (hclock (k, t) hframe) (hcrop x hx)
  obtain ⟨image₀, h₀⟩ := hshown 0 0 (by simp) x₀ (by simp)
  obtain ⟨image₁, h₁⟩ := hshown 1 33 (by simp) x₁ (by simp)
  obtain ⟨image₂, h₂⟩ := hshown 2 67 (by simp) x₂ (by simp)
  obtain ⟨image₃, h₃⟩ := hshown 3 100 (by simp) x₃ (by simp)
  have hshown : ShownFrom tools.render shot.metadata .portrait 0 (tools.frames "" shot.metadata)
      ([x₀, x₁, x₂, x₃].map fun x => (crop x).floats) [image₀, image₁, image₂, image₃] :=
    .cons h₀ (.cons h₁ (.cons h₂ (.cons h₃ .nil)))
  refine ⟨[image₀, image₁, image₂, image₃], hload, hvalid, hshown, ?_, output_validated⟩
  have hlength : (([image₀, image₁, image₂, image₃].flatMap frameBytes).length : ℤ) =
      4 * (1920 * (1080 * 3)) := hshown.toPlayed.bytes_length
  have hframes : ([image₀, image₁, image₂, image₃].flatMap frameBytes).length / (1920 * (1080 * 3)) =
      4 := by omega
  exact congrArg (Video.mk 1080 1920) hframes.symm

/-- The crops of a crop path from a left edge on. -/
def cropsFrom (x : ℚ) : List (CropRect (FloatValue ℚ)) :=
  [x, x + 1, x + 2, x + 3].map fun x => (crop x).floats

/-- A crop path from a left edge on. -/
def cropPathText (x : ℚ) : List (Value ℚ) :=
  [(0, 0), (1, 33), (2, 67), (3, 100)].map fun frame => (cropPathRecord
    ⟨frame.1, frame.2, none, .detectionSkipped, none⟩ (crop (x + frame.1))).sortKeys

/-- The directory of an attempt at the start. -/
def made : AttemptWorld ℚ (List (Value ℚ)) Video :=
  ⟨⟨⟨fun _ => none, none, none, false, false⟩, fun _ => none, fun _ => none⟩, none, none, []⟩

/-- Another crop path is put in place. -/
def replaced (w : AttemptWorld ℚ (List (Value ℚ)) Video) (x : ℚ) :
    AttemptWorld ℚ (List (Value ℚ)) Video :=
  { w with scratch := { w.scratch with
      files := Function.update w.scratch.files .cropPath (some (cropPathText x)) } }

/-- Both crop paths are loaded, and their digests and cache files differ. -/
theorem cropPathText_loads : (∀ x ∈ [(0 : ℚ), 600],
      loadCropPath settings.floatOfText shot.metadata (settings.format.lines (cropPathText x)) =
        .ok (cropsFrom x) ∧
      validateCropPath (cropsFrom x) shot.metadata .portrait = .ok ()) ∧
    settings.format.sha256 (cropPathText 0) ≠ settings.format.sha256 (cropPathText 600) ∧
    (settings.format.value (cacheText settings (inputs "/scratch") (cropPathText 0))).any
      (isTexts (renderCacheFields .portrait (settings.format.sha256 (cropPathText 600)))) = false := by
  decide +kernel

theorem renders_from {x : ℚ} (hx : x ∈ [(0 : ℚ), 600]) (scratch : String) : ∃ images,
    Renders tools { settings with scratch := scratch } (inputs scratch) (cropPathText x)
      (cropsFrom x) images output outputMetadata :=
  renders (cropPathText_loads.1 x hx).1 (cropPathText_loads.1 x hx).2

/-- The digests of the two crop paths differ. -/
theorem digests_injective : Set.InjOn settings.format.sha256 {cropPathText 0, cropPathText 600} := by
  have hne := cropPathText_loads.2.1
  rintro _ (rfl | rfl) _ (rfl | rfl) heq
  · rfl
  · exact absurd heq hne
  · exact absurd heq.symm hne
  · rfl

theorem replaced_files {w : AttemptWorld ℚ (List (Value ℚ)) Video} {x : ℚ} {file : ScratchFile}
    (h : file ≠ .cropPath) : (replaced w x).scratch.files file = w.scratch.files file :=
  Function.update_of_ne h ..

/-- The source has been downloaded. -/
def validated : AttemptWorld ℚ (List (Value ℚ)) Video :=
  { made with scratch := downloaded tools settings (job sampleRecord) made.scratch }

/-- The output of the first crop path has been rendered. -/
def rendered (images : List (Image Bgr)) : AttemptWorld ℚ (List (Value ℚ)) Video :=
  { replaced validated 0 with
    scratch := renderedAnew settings (inputs "/scratch") (cropPathText 0) images output
      (downloaded tools settings (job sampleRecord) (replaced validated 0).scratch) }

variable {images : List (Image Bgr)}

theorem validated_returns : (pipelineHandlers .validating sampleRecord).Returns
    (directorySetting tools settings job fun _ => "") () made [] () validated := by
  have hmissing : ∀ c ∈ made.scratch.media.files (sourceOriginal settings).text,
      c = tools.stored (job sampleRecord).storageKey := by
    rintro _ ⟨⟩
  have hrun : (validating settings (job sampleRecord)).Returns
      (scratchSetting tools settings.debugCapture) () made.scratch [] () validated.scratch :=
    .bind (returns_inputs (ready "/scratch" sampleRecord) hmissing) .pure
  exact returns_handled rfl hrun

theorem rendered_returns (h : Renders tools settings (inputs "/scratch") (cropPathText 0)
    (cropsFrom 0) images output outputMetadata) : ∃ report,
    (pipelineHandlers .rendering sampleRecord).Returns (directorySetting tools settings job fun _ => "")
      () (replaced validated 0) report () (rendered images) := by
  have hsource : ∀ c ∈ (replaced validated 0).scratch.media.files (sourceOriginal settings).text,
      c = tools.stored (job sampleRecord).storageKey := fun c hc =>
    (Option.some.inj (downloaded_source.symm.trans hc)).symm
  have houtput : (downloaded tools settings (job sampleRecord) (replaced validated 0).scratch).media.files
      (inputs "/scratch").output.text = none := downloaded_output.trans downloaded_output
  have hrender : (render settings (inputs "/scratch")).Returns (scratchSetting tools false) ()
      (downloaded tools settings (job sampleRecord) (replaced validated 0).scratch) outputMetadata ()
      (rendered images).scratch := by
    refine returns_render h (returns_cropPath_stored rfl h.loads) rfl rfl ?_
    rw [houtput]
    rintro _ ⟨⟩
  exact ⟨_, returns_handled rfl (returns_rendering rfl
    (returns_inputs (ready "/scratch" sampleRecord) hsource) hrender
    (returns_loadAnalysisReport_none rfl))⟩

/-- What an upload finalizes. -/
def finalization (asset : OutputAsset) (images images' : List (Image Bgr)) :
    Finalization (List (Value ℚ)) Video where
  record := sampleRecord
  asset := asset
  object := some output
  scratch := renderedAnew settings (inputs "/scratch") (cropPathText 600) images' output
    (downloaded tools settings (job sampleRecord) (replaced (rendered images) 600).scratch)

theorem uploaded_returns (images : List (Image Bgr)) {images' : List (Image Bgr)}
    {asset : OutputAsset}
    (hasset : OutputAsset.postInit 1 "video/mp4" outputMetadata.width outputMetadata.height
      outputMetadata.frameRate outputMetadata.durationMs = .ok asset)
    (h : Renders tools settings (inputs "/scratch") (cropPathText 600)
      (cropsFrom 600) images' output outputMetadata) :
    ∃ report, (pipelineHandlers .uploading sampleRecord).Returns
      (directorySetting tools settings job fun _ => "") () (replaced (rendered images) 600) report ()
      ⟨(finalization asset images images').scratch, some (inputs "/scratch"), some output,
        [finalization asset images images']⟩ := by
  have hkept : (renderedAnew settings (inputs "/scratch") (cropPathText 0) images output
      (downloaded tools settings (job sampleRecord) (replaced validated 0).scratch)).media.files
      (sourceOriginal settings).text = some (tools.stored (job sampleRecord).storageKey) :=
    (renderedAnew_source rfl).trans downloaded_source
  have hsource : ∀ c ∈ (replaced (rendered images) 600).scratch.media.files
      (sourceOriginal settings).text, c = tools.stored (job sampleRecord).storageKey :=
    fun c hc => (Option.some.inj (hkept.symm.trans hc)).symm
  have hrender : (render settings (inputs "/scratch")).Returns (scratchSetting tools false) ()
      (downloaded tools settings (job sampleRecord) (replaced (rendered images) 600).scratch)
      outputMetadata () (finalization asset images images').scratch := by
    have hcache : (rendered images).scratch.files .renderCache =
        some (cacheText settings (inputs "/scratch") (cropPathText 0)) := renderedAnew_cache
    have hkept : (replaced (rendered images) 600).scratch.files .renderCache =
        (rendered images).scratch.files .renderCache := replaced_files (by decide)
    refine returns_render h (returns_cropPath_stored rfl h.loads) rfl rfl fun _ _ => ?_
    exact ⟨_, hkept.trans hcache, cropPathText_loads.2.2⟩
  have houtput : (finalization asset images images').scratch.media.files (outputFile settings).text =
      some output := renderedAnew_output
  have hinputs : (ProcessingPipeline.inputs settings (job sampleRecord)).Returns
      (scratchSetting tools settings.debugCapture) () (replaced (rendered images) 600).scratch
      (inputs "/scratch") () (downloaded tools settings (job sampleRecord)
        (replaced (rendered images) 600).scratch) :=
    returns_inputs (ready "/scratch" sampleRecord) hsource
  have hreport : (loadAnalysisReport settings).Returns (scratchSetting tools settings.debugCapture) ()
      (finalization asset images images').scratch [] () (finalization asset images images').scratch :=
    returns_loadAnalysisReport_none rfl
  have hupload : (uploading sampleRecord).Returns
      (directorySetting tools settings job fun _ => "") () (replaced (rendered images) 600) _ ()
      ⟨(finalization asset images images').scratch, some (inputs "/scratch"), some output,
        [⟨sampleRecord, asset, some output, (finalization asset images images').scratch⟩]⟩ :=
    returns_upload hinputs hrender houtput hreport rfl hasset
  exact ⟨_, hupload⟩

/-- The output of a crop path is rendered, the crop path replaced, and the output uploaded. -/
theorem attempted_uploaded : ∃ w f,
    Attempted tools settings job (fun _ => "") {cropPathText 0, cropPathText 600} w ∧
      w.finalized = [f] ∧ f.scratch.files .cropPath = some (cropPathText 600) ∧
      f.object = some output := by
  obtain ⟨images, hfirst⟩ := renders_from (x := 0) (by simp) "/scratch"
  obtain ⟨images', hsecond⟩ := renders_from (x := 600) (by simp) "/scratch"
  obtain ⟨asset, hasset⟩ := Except.exists_eq_ok output_asset
  obtain ⟨_, hrendered⟩ := rendered_returns hfirst
  obtain ⟨_, huploaded⟩ := uploaded_returns images hasset hsecond
  have hmade : Attempted tools settings job (fun _ => "") {cropPathText 0, cropPathText 600} made :=
    .fresh ⟨fun _ => rfl, rfl, rfl⟩
  refine ⟨_, finalization asset images images', .handled (.cropPathReplaced (.handled (.cropPathReplaced
    (.handled hmade validated_returns rfl ?_) _) hrendered rfl ?_) _) huploaded rfl ?_, rfl, rfl, rfl⟩
  · exact nofun
  · rintro _ ⟨⟩
    exact .inl rfl
  · rintro _ ⟨⟩
    exact .inr rfl

theorem attempted_finalized_uploaded : ∃ (w : AttemptWorld ℚ (List (Value ℚ)) Video)
    (f : Finalization (List (Value ℚ)) Video), w.finalized = [f] ∧
    f.scratch.files .cropPath = some (cropPathText 600) ∧
    (∀ f ∈ w.finalized, ∃ inputs output, InputsOf tools settings (job f.record) f.scratch inputs ∧
      IsStored tools settings inputs output f.scratch f.object ∧
      f.asset.width = output.width ∧ f.asset.height = output.height ∧
      f.asset.frameRate = output.frameRate ∧ f.asset.durationMs = output.durationMs) ∧
    ∀ record inputs output s, InputsOf tools settings (job record) w.scratch inputs →
      Prog.Run (scratchSetting tools false) (render settings inputs ()) w.scratch (.ok output, ()) s →
      Occurs {cropPathText 0, cropPathText 600} s →
      IsStored tools settings inputs output s (s.media.files (outputFile settings).text) := by
  obtain ⟨w, f, hattempted, hf, hcropPath, -⟩ := attempted_uploaded
  exact ⟨w, f, hf, hcropPath, attempted_finalized format_exact digests_injective hattempted⟩

end FourFrames

end BoulderFrame
