import BoulderFrame.Pipeline.ScratchWorld

/-!
# The inputs of a handler

Every handler loads its inputs anew. The source is downloaded and normalized once, so that all
handlers of an attempt find the same source with the same metadata, also after some of them have
failed.

## Main definitions

* `SourceOf`: the source that a directory has, with its metadata
* `Loads`: what loading the inputs may change

## Main results

* `SourceOf.unique`: a directory has one source
* `wp_inputs`: the inputs are those of the job, with the source of the directory
-/

namespace BoulderFrame

open Routine ProcessingPipeline ScratchWorld

variable {K Text Pixels Content : Type} [Field K] [LinearOrder K] [Elementary K] [FloorRing K]
  {tools : ScratchTools K Pixels Content} {settings : ScratchSettings K Text} {job : ScratchJob K}
  {debugCapture : Bool} {w w' w'' : ScratchWorld Text Content}

/-! ## The paths -/

namespace PurePath

/-- Files of one directory with different names have different paths. -/
theorem text_ne {parent stem suffix stem' suffix' : String} (hname : stem ++ suffix ≠ stem' ++ suffix') :
    text ⟨parent, stem, suffix⟩ ≠ text ⟨parent, stem', suffix'⟩ := by
  intro h
  refine hname (String.toList_inj.mp ?_)
  have hchars := congrArg String.toList h
  simp only [text, String.toList_append, List.append_assoc] at hchars ⊢
  exact List.append_cancel_left (List.append_cancel_left hchars)

end PurePath

omit [Field K] [LinearOrder K] [Elementary K] [FloorRing K] in
theorem sourceNormalized_ne (settings : ScratchSettings K Text) :
    (sourceNormalized settings).text ≠ (sourceOriginal settings).text :=
  PurePath.text_ne (by decide : "source-cfr" ++ ".mp4" ≠ "source-original" ++ "")

/-- A rendering writes none of the sources. -/
structure IsSource (settings : ScratchSettings K Text) (source : PurePath) : Prop where
  ne_output : source.text ≠ (outputFile settings).text
  ne_partial : source.text ≠ (outputFile settings).partialPath.text

omit [Field K] [LinearOrder K] [Elementary K] [FloorRing K] in
theorem isSource_original (settings : ScratchSettings K Text) :
    IsSource settings (sourceOriginal settings) :=
  ⟨PurePath.text_ne (by decide : "source-original" ++ "" ≠ "output" ++ ".mp4"),
    PurePath.text_ne (by decide : "source-original" ++ "" ≠ ("output" ++ ".partial") ++ ".mp4")⟩

omit [Field K] [LinearOrder K] [Elementary K] [FloorRing K] in
theorem isSource_normalized (settings : ScratchSettings K Text) :
    IsSource settings (sourceNormalized settings) :=
  ⟨PurePath.text_ne (by decide : "source-cfr" ++ ".mp4" ≠ "output" ++ ".mp4"),
    PurePath.text_ne (by decide : "source-cfr" ++ ".mp4" ≠ ("output" ++ ".partial") ++ ".mp4")⟩

/-! ## The source -/

/-- The source of a directory, with its metadata: the original, or its normalized copy if its frame
rate is variable. -/
inductive SourceOf (tools : ScratchTools K Pixels Content) (settings : ScratchSettings K Text)
    (w : ScratchWorld Text Content) : PurePath → MediaMetadata → Prop
  | original {c metadata} (hc : w.media.files (sourceOriginal settings).text = some c)
      (h : tools.inspect c false = .ok metadata) : SourceOf tools settings w (sourceOriginal settings)
        metadata
  | normalized {c e c' metadata} (hc : w.media.files (sourceOriginal settings).text = some c)
      (he : tools.inspect c false = .error e) (hvariable : isVariableFrameRate e = true)
      (hc' : w.media.files (sourceNormalized settings).text = some c')
      (h : tools.inspect c' false = .ok metadata) : SourceOf tools settings w
        (sourceNormalized settings) metadata

namespace SourceOf

variable {source source' : PurePath} {metadata metadata' : MediaMetadata}

omit [Elementary K] in
theorem frameRate_pos (h : SourceOf tools settings w source metadata) : 0 < metadata.frameRate := by
  cases h with
  | original _ h => exact ScratchTools.inspect_frameRate h
  | normalized _ _ _ _ h => exact ScratchTools.inspect_frameRate h

omit [Elementary K] in
/-- **A directory has one source.** -/
theorem unique (h : SourceOf tools settings w source metadata)
    (h' : SourceOf tools settings w source' metadata') : source' = source ∧ metadata' = metadata := by
  cases h with
  | original hc h =>
    cases h' with
    | original hc' h' =>
      obtain rfl := Option.some.inj (hc'.symm.trans hc)
      exact ⟨rfl, Except.ok.inj (h'.symm.trans h)⟩
    | normalized hc' he' =>
      obtain rfl := Option.some.inj (hc'.symm.trans hc)
      cases he'.symm.trans h
  | normalized hc he hvariable hn h =>
    cases h' with
    | original hc' h' =>
      obtain rfl := Option.some.inj (hc'.symm.trans hc)
      cases h'.symm.trans he
    | normalized hc' he' hvariable' hn' h' =>
      obtain rfl := Option.some.inj (hn'.symm.trans hn)
      exact ⟨rfl, Except.ok.inj (h'.symm.trans h)⟩

omit [Elementary K] in
/-- The source stays while no media file but the outputs changes. -/
theorem later (h : SourceOf tools settings w source metadata)
    (hkept : ∀ path : PurePath, IsSource settings path → ∀ c, w.media.files path.text = some c →
      w'.media.files path.text = some c) : SourceOf tools settings w' source metadata := by
  cases h with
  | original hc h => exact .original (hkept _ (isSource_original settings) _ hc) h
  | normalized hc he hvariable hn h =>
    exact .normalized (hkept _ (isSource_original settings) _ hc) he hvariable
      (hkept _ (isSource_normalized settings) _ hn) h

end SourceOf

/-! ## Loading -/

/-- What loading the inputs may change: a source that is missing is written. -/
structure Loads (settings : ScratchSettings K Text) (w w' : ScratchWorld Text Content) : Prop where
  files : w'.files = w.files
  encoder : w'.media.encoder = w.media.encoder
  signalFailed : w'.media.signalFailed = w.media.signalFailed
  kept : ∀ path c, w.media.files path = some c → w'.media.files path = some c
  others : ∀ path, path ≠ (sourceOriginal settings).text → path ≠ (sourceNormalized settings).text →
    w'.media.files path = w.media.files path

namespace Loads

omit [Field K] [LinearOrder K] [Elementary K] [FloorRing K]

theorem refl : Loads settings w w := ⟨rfl, rfl, rfl, fun _ _ h => h, fun _ _ _ => rfl⟩

theorem trans (h : Loads settings w w') (h' : Loads settings w' w'') : Loads settings w w'' :=
  ⟨h'.files.trans h.files, h'.encoder.trans h.encoder, h'.signalFailed.trans h.signalFailed,
    fun path c hc => h'.kept path c (h.kept path c hc),
    fun path ho hn => (h'.others path ho hn).trans (h.others path ho hn)⟩

theorem quiet (h : Loads settings w w') (hquiet : w.media.Quiet) : w'.media.Quiet := by
  rw [RenderWorld.Quiet, h.encoder]
  exact hquiet

/-- A source that is missing is written. -/
theorem write {path : String} (hpath : path = (sourceOriginal settings).text ∨
    path = (sourceNormalized settings).text) (hmissing : w.media.files path = none)
    (c : Option Content) : Loads settings w (w.setMedia path c) := by
  refine ⟨rfl, rfl, rfl, fun path' c' hc' => ?_, fun path' ho hn => ?_⟩
  · have hne : path' ≠ path := by
      rintro rfl
      rw [hmissing] at hc'
      cases hc'
    exact (Function.update_of_ne hne ..).trans hc'
  · have hne : path' ≠ path := by
      rintro rfl
      exact hpath.elim ho hn
    exact Function.update_of_ne hne ..

end Loads

/-- A content that loading the inputs has written is the stored one or its normalized copy. -/
structure Wrote (tools : ScratchTools K Pixels Content) (settings : ScratchSettings K Text)
    (job : ScratchJob K) (w w' : ScratchWorld Text Content) : Prop where
  original : w'.media.files (sourceOriginal settings).text =
      w.media.files (sourceOriginal settings).text ∨
    w'.media.files (sourceOriginal settings).text = some (tools.stored job.storageKey)
  normalized : w'.media.files (sourceNormalized settings).text =
      w.media.files (sourceNormalized settings).text ∨
    ∃ c m, w'.media.files (sourceOriginal settings).text = some c ∧ tools.inspect c true = .ok m ∧
      w'.media.files (sourceNormalized settings).text =
        some (tools.normalize c m.frameRate m.audioStreamIndex)

omit [Elementary K] in
theorem Wrote.trans (h : Wrote tools settings job w w') (hloads : Loads settings w' w'')
    (h' : Wrote tools settings job w' w'') : Wrote tools settings job w w'' := by
  refine ⟨?_, ?_⟩
  · rcases h'.original with hsame | hnew
    · rw [hsame]
      exact h.original
    · exact .inr hnew
  · rcases h'.normalized with hsame | hnew
    · rw [hsame]
      refine h.normalized.imp_right ?_
      rintro ⟨c, m, hc, hm, hcopy⟩
      exact ⟨c, m, hloads.kept _ _ hc, hm, hcopy⟩
    · exact .inr hnew

/-! ## The calls -/

theorem wp_pathExists (hquiet : w.media.Quiet) {path : String} :
    (onScratch (.pathExists path) : ScratchRoutine K Text Bool).wp
      (scratchSetting tools debugCapture)
      (Ends (fun there w' => w' = w ∧ there = (w.media.files path).isSome) (· = w)) () w := by
  refine wp_onScratch hquiet fun a w' hstep => ?_
  cases hstep with
  | raised => rfl
  | pathExists => exact ⟨rfl, rfl⟩

/-- An inspection says what the content says; what else it raises is no variable frame rate. -/
theorem wp_inspectSource (hquiet : w.media.Quiet) {path : String} {allow : Bool} :
    (onScratch (.inspectSource path allow) : ScratchRoutine K Text MediaMetadata).wp
      (scratchSetting tools debugCapture)
      (fun r _ w' => w' = w ∧ ((∃ c, w.media.files path = some c ∧ r = tools.inspect c allow) ∨
        ∃ e, r = .error e ∧ isVariableFrameRate e = false)) () w := by
  refine wp_onScratch hquiet fun a w' hstep => ?_
  cases hstep with
  | raised h => exact ⟨rfl, .inr ⟨_, rfl, h⟩⟩
  | inspected hc => exact ⟨rfl, .inl ⟨_, hc, rfl⟩⟩

/-- **The source** is downloaded once. -/
theorem wp_download (hquiet : w.media.Quiet) :
    (if (w.media.files (sourceOriginal settings).text).isSome then pure ()
      else onScratch (.download job.storageKey (sourceOriginal settings).text) :
      ScratchRoutine K Text Unit).wp (scratchSetting tools debugCapture)
      (Ends (fun _ w' => Loads settings w w' ∧ Wrote tools settings job w w') (Loads settings w))
      () w := by
  cases hfile : w.media.files (sourceOriginal settings).text with
  | some c => exact ⟨.refl, .inl rfl, .inl rfl⟩
  | none =>
    refine wp_onScratch hquiet fun a w' hstep => ?_
    cases hstep with
    | raised => exact .refl
    | downloaded =>
      exact ⟨.write (.inl rfl) hfile _, .inr (Function.update_self ..),
        .inl (Function.update_of_ne (sourceNormalized_ne settings) ..)⟩

/-- **A source of a variable frame rate** is normalized once. -/
theorem wp_normalized (hquiet : w.media.Quiet) {c : Content} {e : Raised}
    (hc : w.media.files (sourceOriginal settings).text = some c)
    (he : tools.inspect c false = .error e) (hvariable : isVariableFrameRate e = true) :
    (normalized settings job).wp (scratchSetting tools debugCapture)
      (Ends (fun source w' => Loads settings w w' ∧ Wrote tools settings job w w' ∧
        SourceOf tools settings w' source.1 source.2) (Loads settings w)) () w := by
  unfold normalized
  refine wp_bind_of (wp_inspectSource hquiet) ?_ fun _ _ _ h => h.1 ▸ .refl
  rintro original l w ⟨rfl, ⟨c', hc', hinspect⟩ | ⟨_, hraise, -⟩⟩
  · rw [Option.some.inj (hc'.symm.trans hc)] at hinspect
    split_ifs
    · exact .refl
    refine wp_bind_of (wp_pathExists hquiet) ?_ fun _ _ _ h => h ▸ .refl
    rintro there l w ⟨rfl, rfl⟩
    have hnormalize : (if (w.media.files (sourceNormalized settings).text).isSome then pure ()
        else onScratch (.normalize (sourceOriginal settings).text (sourceNormalized settings).text
          original.frameRate original.audioStreamIndex) : ScratchRoutine K Text Unit).wp
        (scratchSetting tools debugCapture)
        (Ends (fun _ w' => Loads settings w w' ∧ Wrote tools settings job w w') (Loads settings w))
        () w := by
      cases hfile : w.media.files (sourceNormalized settings).text with
      | some c => exact ⟨.refl, .inl rfl, .inl rfl⟩
      | none =>
        refine wp_onScratch hquiet fun a w' hstep => ?_
        cases hstep with
        | raised => exact .refl
        | normalizeFailed => exact .write (.inr rfl) hfile _
        | normalized hsource =>
          rw [Option.some.inj (hsource.symm.trans hc)]
          have hother : (w.setMedia (sourceNormalized settings).text
              (some (tools.normalize c original.frameRate original.audioStreamIndex))).media.files
              (sourceOriginal settings).text = w.media.files (sourceOriginal settings).text :=
            Function.update_of_ne (sourceNormalized_ne settings).symm ..
          exact ⟨.write (.inr rfl) hfile _, .inl hother, .inr ⟨_, _, hother.trans hc, hinspect.symm,
            Function.update_self ..⟩⟩
    refine wp_bind_of hnormalize ?_ fun _ _ _ h => h
    rintro - l w₁ ⟨hloads, hwrote⟩
    refine wp_bind_of (wp_inspectSource (hloads.quiet hquiet)) ?_ fun _ _ _ h => h.1 ▸ hloads
    rintro metadata l w₁ ⟨rfl, ⟨c₁, hc₁, hmetadata⟩ | ⟨_, hraise, -⟩⟩
    · exact ⟨hloads, hwrote, .normalized (hloads.kept _ _ hc) he hvariable hc₁ hmetadata.symm⟩
    · cases hraise
  · cases hraise

/-! ## The inputs -/

/-- The inputs are those of the job, with the source of the directory. -/
structure InputsOf (tools : ScratchTools K Pixels Content) (settings : ScratchSettings K Text)
    (job : ScratchJob K) (w : ScratchWorld Text Content) (inputs : PipelineInputs K) : Prop where
  source : SourceOf tools settings w inputs.source inputs.metadata
  output : inputs.output = outputFile settings
  settings : job.settings = .ok (inputs.selection, inputs.outputSettings, inputs.detectionSampleFps)

/-- The original is inspected; a variable frame rate is no failure. -/
theorem wp_inspected (hquiet : w.media.Quiet) {path : String} :
    (handle (do
        let metadata : MediaMetadata ← onScratch (.inspectSource path false)
        pure (some metadata)) fun e => if isVariableFrameRate e then pure none else raise e :
      ScratchRoutine K Text (Option MediaMetadata)).wp (scratchSetting tools debugCapture)
      (Ends (fun inspected w' => w' = w ∧ ∃ c, w.media.files path = some c ∧
        match inspected with
        | some metadata => tools.inspect c false = .ok metadata
        | none => ∃ e, tools.inspect c false = .error e ∧ isVariableFrameRate e = true) (· = w))
      () w := by
  rw [wp_handle, wp_bind]
  refine wp_mono ?_ (wp_inspectSource hquiet)
  rintro r l w' ⟨rfl, h⟩
  cases r with
  | ok metadata =>
    obtain ⟨c, hc, hinspect⟩ | ⟨_, hraise, -⟩ := h
    · exact ⟨rfl, c, hc, hinspect.symm⟩
    · cases hraise
  | error e =>
    dsimp only
    split_ifs with hvariable
    · obtain ⟨c, hc, hinspect⟩ | ⟨e', hraise, hfixed⟩ := h
      · exact ⟨rfl, c, hc, e, hinspect.symm, hvariable⟩
      · rw [Except.error.inj hraise, hfixed] at hvariable
        cases hvariable
    · rfl

/-- **The inputs** are loaded. -/
theorem wp_inputs (hquiet : w.media.Quiet) :
    (inputs settings job).wp (scratchSetting tools debugCapture)
      (Ends (fun inputs w' => Loads settings w w' ∧ Wrote tools settings job w w' ∧
        InputsOf tools settings job w' inputs) (Loads settings w)) () w := by
  unfold inputs
  rw [wp_bind, wp_ofExcept]
  cases job.source with
  | error e => exact .refl
  | ok asset =>
    dsimp only
    rw [wp_bind, wp_ofExcept]
    cases hjob : job.settings with
    | error e => exact .refl
    | ok configured =>
      obtain ⟨selection, outputSettings, detectionSampleFps⟩ := configured
      dsimp only
      refine wp_bind_of (wp_pathExists hquiet) ?_ fun _ _ _ h => h ▸ .refl
      rintro there l w ⟨rfl, rfl⟩
      refine wp_bind_of (wp_download hquiet) ?_ fun _ _ _ h => h
      rintro - l w₁ ⟨hloads₁, hwrote₁⟩
      refine wp_bind_of (wp_inspected (hloads₁.quiet hquiet)) ?_ fun _ _ _ h => h ▸ hloads₁
      rintro inspected l w₂ ⟨rfl, c, hc, hinspected⟩
      have hrest : ∀ (source : PurePath) (metadata : MediaMetadata) w₃, Loads settings w₂ w₃ →
          Wrote tools settings job w₂ w₃ → SourceOf tools settings w₃ source metadata →
          (do
            let _ ← ofExcept (metadata.frameForTimeMs selection.frameTimeMs)
            pure ⟨⟨metadata, selection, outputSettings, detectionSampleFps⟩, source,
              outputFile settings⟩ : ScratchRoutine K Text (PipelineInputs K)).wp
            (scratchSetting tools debugCapture)
            (Ends (fun inputs w' => Loads settings w w' ∧ Wrote tools settings job w w' ∧
              InputsOf tools settings job w' inputs) (Loads settings w)) l w₃ := by
        intro source metadata w₃ hloads₃ hwrote₃ hsource₃
        rw [wp_bind, wp_ofExcept]
        cases metadata.frameForTimeMs selection.frameTimeMs with
        | error e => exact hloads₁.trans hloads₃
        | ok index =>
          exact ⟨hloads₁.trans hloads₃, hwrote₁.trans hloads₃ hwrote₃, hsource₃, rfl, hjob⟩
      cases inspected with
      | some metadata =>
        exact hrest _ metadata w₂ .refl ⟨.inl rfl, .inl rfl⟩ (.original hc hinspected)
      | none =>
        obtain ⟨e, he, hvariable⟩ := hinspected
        refine wp_bind_of (wp_normalized (hloads₁.quiet hquiet) hc he hvariable) ?_
          fun _ _ _ h => hloads₁.trans h
        rintro source l w₃ ⟨hloads₃, hwrote₃, hsource₃⟩
        exact hrest source.1 source.2 w₃ hloads₃ hwrote₃ hsource₃

end BoulderFrame
