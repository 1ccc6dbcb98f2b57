import BoulderFrame.Media.RenderWorld

/-!
# The runs of a media process

However the methods of a media process end, the process counts as finished after a failure, after
`finish` and after `abort`, and it has then exited unless a call on it failed. If `finish` returns,
the encoder has been delivered all that was written to it.

## Main definitions

* `RenderWorld.Gone`: the process has exited, or a call on it has failed
* `RenderWorld.Feeding`: the encoder takes frames
* `RenderWorld.Encoded`: the encoder has finished its output

## Main results

* `MediaProcess.wp_start`, `MediaProcess.wp_write`, `MediaProcess.wp_finish`,
  `MediaProcess.wp_abort`: what the methods do
-/

namespace BoulderFrame

open Routine

variable {K Content : Type} [Field K] [LinearOrder K] [FloorRing K] {tools : RenderTools Content}
  {files₀ : String → Option Content} {arguments : List String} {l l' : RenderVariables}
  {w w' : RenderWorld Content}

/-! ## One call -/

/-- What holds if a routine returns, and if it raises. -/
def Finally {α : Type} (returned : α → RenderVariables → RenderWorld Content → Prop)
    (failed : RenderVariables → RenderWorld Content → Prop) :
    Except Raised α → RenderVariables → RenderWorld Content → Prop
  | .ok a => returned a
  | .error _ => failed

theorem wp_onSystem {e : RenderEffect K} {Q : e.Answer → RenderVariables → RenderWorld Content → Prop} :
    (onSystem e).wp (renderSetting tools) Q l w ↔
      ∀ w₁, RenderWorld.Rely tools w w₁ → ∀ a w₂, RenderWorld.Step tools w₁ e a w₂ → Q a l w₂ := by
  simp only [onSystem, wp_call, cast_eq]
  exact ⟨fun h w₁ hrely a w₂ hstep => (h w₁ hrely a w₂ hstep).2,
    fun h w₁ hrely a w₂ hstep => ⟨trivial, h w₁ hrely a w₂ hstep⟩⟩

namespace RenderWorld

/-- The process has exited, or a call on it has failed. -/
def Gone (w : RenderWorld Content) : Prop :=
  ∀ p ∈ w.encoder, p.exitCode.isSome ∨ w.signalFailed = true

theorem Gone.rely (h : w.Gone) (hrely : Rely tools w w') : w'.Gone := by
  cases hrely with
  | idle => exact h
  | encoder hp hrun =>
    rintro _ -
    rcases h _ hp with hexit | hfailed
    · rw [hrun] at hexit
      cases hexit
    · exact .inr hfailed

theorem gone_of_exit {p : Encoder} {code : ℤ} (hp : w.encoder = some p)
    (hexit : p.exitCode = some code) : w.Gone := by
  rintro q hq
  obtain rfl := Option.some.inj (hp.symm.trans hq)
  exact .inl (by rw [hexit]; rfl)

/-- A process that has gone counts as finished. -/
theorem Going.finish (h : Going tools files₀ arguments l w) (hgone : w.Gone) :
    Going tools files₀ arguments { l with finished := true } w := by
  refine ⟨h.files, h.idle, fun hstarted => ?_⟩
  obtain ⟨p, hp⟩ := h.process hstarted
  exact ⟨p, hp.encoder, hp.invoked, hp.output, fun _ => hgone p hp.encoder⟩

/-- The encoder takes frames: what has been written to its pipe, and what the reader has left. -/
structure Feeding (tools : RenderTools Content) (files₀ : String → Option Content)
    (arguments : List String) (bytes : List UInt8)
    (reader : Option (List (DecodedFrame (Option (Image Bgr))))) (l : RenderVariables)
    (w : RenderWorld Content) : Prop where
  going : Going tools files₀ arguments l w
  live : l.started = true ∧ l.finished = false
  encoder : ∃ p, w.encoder = some p ∧ p.written = bytes ∧ p.inputOpen = true
  reader : w.reader = reader

/-- The encoder has been delivered the bytes, and has made its output of them. -/
structure Encoded (tools : RenderTools Content) (files₀ : String → Option Content)
    (arguments : List String) (bytes : List UInt8)
    (reader : Option (List (DecodedFrame (Option (Image Bgr))))) (l : RenderVariables)
    (w : RenderWorld Content) : Prop where
  going : Going tools files₀ arguments l w
  encoder : ∃ p, w.encoder = some p ∧ p.arguments = arguments ∧ p.exitCode = some 0 ∧
    p.delivered = bytes
  output : ∀ c ∈ w.files (outputPath arguments), tools.encodes arguments bytes c
  reader : w.reader = reader

variable {bytes : List UInt8} {reader : Option (List (DecodedFrame (Option (Image Bgr))))}

theorem Rely.reader_eq (h : Rely tools w w') : w'.reader = w.reader := by
  cases h <;> rfl

theorem Feeding.rely (h : Feeding tools files₀ arguments bytes reader l w)
    (hrely : Rely tools w w') : Feeding tools files₀ arguments bytes reader l w' := by
  obtain ⟨p, hp, hwritten, hopen⟩ := h.encoder
  obtain ⟨q, hq⟩ := h.going.process h.live.1
  obtain rfl := Option.some.inj (hp.symm.trans hq.encoder)
  obtain ⟨p', hp', hwritten', hopen', -⟩ := hq.rely hrely
  exact ⟨h.going.rely hrely, h.live, ⟨p', hp'.encoder, hwritten'.trans hwritten,
    hopen'.trans hopen⟩, hrely.reader_eq.trans h.reader⟩

/-- The encoder has been delivered the bytes. -/
def ReachedEncoder (bytes : List UInt8) (w : RenderWorld Content) : Prop :=
  ∃ p, w.encoder = some p ∧ p.written = bytes ∧ p.delivered = bytes

theorem ReachedEncoder.rely {bytes : List UInt8} (h : ReachedEncoder bytes w) (hrely : Rely tools w w') :
    ReachedEncoder bytes w' := by
  obtain ⟨p, hp, hwritten, hdelivered⟩ := h
  cases hrely with
  | idle => exact ⟨p, hp, hwritten, hdelivered⟩
  | @encoder q p' files hq hrun hadv =>
    obtain rfl := Option.some.inj (hp.symm.trans hq)
    refine ⟨p', rfl, hadv.written.trans hwritten, ?_⟩
    obtain ⟨hmore, hless⟩ := hadv.delivered
    rw [hdelivered] at hmore
    rw [hwritten] at hless
    exact (hmore.eq_of_length_le hless.length_le).symm

theorem quiet_of_exit {p : Encoder} {code : ℤ} (hp : w.encoder = some p)
    (hexit : p.exitCode = some code) : w.Quiet := by
  rintro q hq
  obtain rfl := Option.some.inj (hp.symm.trans hq)
  rw [hexit]
  rfl

/-- The encoder has exited meanwhile. -/
structure Exits (code : ℤ) (w w' : RenderWorld Content) : Prop where
  exit : ∃ p, w'.encoder = some p ∧ p.exitCode = some code
  delivered : ∀ bytes, ReachedEncoder bytes w → ReachedEncoder bytes w'

theorem Encoded.quiet (h : Encoded tools files₀ arguments bytes reader l w) : w.Quiet := by
  obtain ⟨p, hp, -, hexit, -⟩ := h.encoder
  exact quiet_of_exit hp hexit

end RenderWorld

open RenderWorld

/-! ## The methods -/

namespace MediaProcess

variable {str : Raised → String}

theorem wp_ignoreOSError {m : RenderRoutine K Unit}
    {P : RenderVariables → RenderWorld Content → Prop}
    (h : m.wp (renderSetting tools)
      (fun r l w => (∀ e, r = .error e → e.isOSError = true) ∧ P l w) l w) :
    (ignoreOSError m).wp (renderSetting tools) (fun r l w => r = .ok () ∧ P l w) l w := by
  refine wp_handle_of h (fun a l w hP => ⟨rfl, hP.2⟩) fun e l w hP => ?_
  rw [if_pos (hP.1 e rfl)]
  exact ⟨rfl, hP.2⟩

theorem wp_closeInput (h : Going tools files₀ arguments l w) :
    (ignoreOSError (onSystem .closeInput) : RenderRoutine K Unit).wp (renderSetting tools)
      (fun r l' w' => r = .ok () ∧ l' = l ∧ Going tools files₀ arguments l w') l w := by
  refine wp_ignoreOSError (wp_onSystem.mpr fun w₁ hrely a w₂ hstep => ?_)
  refine ⟨fun e he => ?_, rfl, (h.rely hrely).step rfl hstep⟩
  cases hstep with
  | raised hraise => cases hraise
  | signalFailed hsignal => cases hsignal
  | flushed | closedBefore => cases he
  | closeFailed hp herror => exact Except.error.inj he ▸ herror

/-- A process that has gone is marked as finished. -/
theorem wp_markFinished (h : Going tools files₀ arguments l w) (hgone : w.Gone) :
    (markFinished : RenderRoutine K Unit).wp (renderSetting tools)
      (fun r l' w' => r = .ok () ∧ l' = { l with finished := true } ∧
        Going tools files₀ arguments l' w' ∧ (w.Quiet → w' = w)) l w := by
  unfold markFinished
  rw [wp_modify_bind]
  refine wp_ignoreOSError (wp_onSystem.mpr fun w₁ hrely a w₂ hstep => ?_)
  have hgoing := ((h.finish hgone).rely hrely).step rfl hstep
  have hsame := hrely.eq_of_quiet
  cases hstep with
  | raised hraise => exact ⟨fun e he => Except.error.inj he ▸ hraise, rfl, hgoing, hsame⟩
  | signalFailed hsignal => cases hsignal
  | closedDiagnostic => exact ⟨fun e => nofun, rfl, hgoing, hsame⟩

theorem wp_wait (h : Going tools files₀ arguments l w) :
    (onSystem .wait : RenderRoutine K ℤ).wp (renderSetting tools)
      (fun r l' w' => l' = l ∧ Going tools files₀ arguments l w' ∧ w'.Gone ∧
        (∀ e, r = .error e → e.isOSError = true) ∧ w'.reader = w.reader ∧
        ∀ code, r = .ok code → Exits code w w') l w := by
  refine wp_onSystem.mpr fun w₁ hrely a w₂ hstep => ?_
  refine ⟨rfl, (h.rely hrely).step rfl hstep, ?_⟩
  cases hstep with
  | raised hraise => cases hraise
  | waited hrely' hp hexit =>
    refine ⟨gone_of_exit hp hexit, fun _ => nofun, hrely'.reader_eq.trans hrely.reader_eq,
      fun code hcode => ⟨⟨_, hp, ?_⟩, fun bytes hd => (hd.rely hrely).rely hrely'⟩⟩
    rw [hexit, Except.ok.inj hcode]
  | signalFailed hsignal herror =>
    exact ⟨fun _ _ => .inr rfl, fun e he => Except.error.inj he ▸ herror, hrely.reader_eq,
      fun code => nofun⟩

theorem wp_readDiagnostic (h : Going tools files₀ arguments l w) (hgone : w.Gone) :
    (readDiagnostic : RenderRoutine K (Option String)).wp (renderSetting tools)
      (fun _ l' w' => l' = l ∧ Going tools files₀ arguments l w' ∧ w'.Gone ∧
        (w.Quiet → w' = w)) l w := by
  have hcall : (onSystem .readDiagnostic : RenderRoutine K String).wp (renderSetting tools)
      (fun _ l' w' => l' = l ∧ Going tools files₀ arguments l w' ∧ w'.Gone ∧
        (w.Quiet → w' = w)) l w := by
    refine wp_onSystem.mpr fun w₁ hrely a w₂ hstep => ?_
    have hgoing := (h.rely hrely).step rfl hstep
    cases hstep with
    | raised | readDiagnostic => exact ⟨rfl, hgoing, hgone.rely hrely, hrely.eq_of_quiet⟩
    | signalFailed hsignal => cases hsignal
  exact wp_bind_of hcall (fun _ _ _ hP => hP) fun _ _ _ hP => hP

/-- **After a failure** the process is finished. -/
theorem wp_finishAfterFailure (h : Going tools files₀ arguments l w) :
    (finishAfterFailure str : RenderRoutine K (Option String)).wp (renderSetting tools)
      (fun _ l' w' => l' = { l with finished := true } ∧
        Going tools files₀ arguments l' w') l w := by
  unfold finishAfterFailure
  refine wp_bind_of (wp_closeInput h) ?_ fun e l w h => nomatch h.1
  rintro - l w₁ ⟨-, rfl, h₁⟩
  have hgone : (handle (do
      let _ ← onSystem .wait
      readDiagnostic) fun e =>
        if e.isOSError then pure (commandDiagnostic (some (str e))) else raise e :
      RenderRoutine K (Option String)).wp (renderSetting tools)
      (fun _ l' w' => l' = l ∧ Going tools files₀ arguments l w' ∧ w'.Gone) l w₁ := by
    refine wp_handle_of
      (P := fun _ l' w' => l' = l ∧ Going tools files₀ arguments l w' ∧ w'.Gone)
      (wp_bind_of (wp_wait h₁) ?_ fun e l' w' hP => ?_) (fun _ _ _ hP => hP) fun e l' w' hP => ?_
    · rintro code l w₂ ⟨rfl, h₂, hgone, -⟩
      refine wp_mono ?_ (wp_readDiagnostic h₂ hgone)
      rintro r l w₃ ⟨rfl, h₃, hgone₃, -⟩
      exact ⟨rfl, h₃, hgone₃⟩
    · exact ⟨hP.1, hP.2.1, hP.2.2.1⟩
    · split_ifs
      · exact hP
      · exact hP
  refine wp_ensure_of hgone ?_
  rintro r l w₂ ⟨rfl, h₂, hgone⟩
  refine wp_mono ?_ (wp_markFinished h₂ hgone)
  rintro _ _ w₃ ⟨rfl, rfl, h₃, -⟩
  exact ⟨rfl, rfl, h₃⟩

theorem wp_poll (h : Going tools files₀ arguments l w) :
    (onSystem .poll : RenderRoutine K (Option ℤ)).wp (renderSetting tools)
      (fun r l' w' => l' = l ∧ Going tools files₀ arguments l w' ∧ (r ≠ .ok none → w'.Gone) ∧
        ∀ e, r = .error e → e.isOSError = true) l w := by
  refine wp_onSystem.mpr fun w₁ hrely a w₂ hstep => ?_
  refine ⟨rfl, (h.rely hrely).step rfl hstep, ?_⟩
  cases hstep with
  | raised hraise => cases hraise
  | signalFailed hsignal herror =>
    exact ⟨fun _ _ _ => .inr rfl, fun e he => Except.error.inj he ▸ herror⟩
  | @polled p hp =>
    refine ⟨fun hne => ?_, fun _ => nofun⟩
    obtain ⟨code, hcode⟩ := Option.ne_none_iff_exists'.mp fun hnone => hne (congrArg _ hnone)
    exact gone_of_exit hp hcode

/-- What holds after a process has been stopped: if a call on it raises, it is an `OSError`. -/
def Stopped {α : Type} (tools : RenderTools Content) (files₀ : String → Option Content)
    (arguments : List String) (l : RenderVariables) (r : Except Raised α) (l' : RenderVariables)
    (w' : RenderWorld Content) : Prop :=
  (∀ e, r = .error e → e.isOSError = true) ∧ l' = l ∧ Going tools files₀ arguments l w' ∧ w'.Gone

/-- A signal is sent, or the process has gone. -/
theorem wp_signal {e : RenderEffect K} (h : Going tools files₀ arguments l w)
    (he : e = .terminate ∨ e = .kill) : (onSystem e).wp (renderSetting tools)
      (fun r l' w' => (∀ a, r = .ok a → l' = l ∧ Going tools files₀ arguments l w') ∧
        ∀ error, r = .error error → Stopped tools files₀ arguments l r l' w') l w := by
  refine wp_onSystem.mpr fun w₁ hrely a w₂ hstep => ?_
  have hneutral : e.isNeutral = true := by
    rcases he with rfl | rfl <;> rfl
  have hgoing := (h.rely hrely).step hneutral hstep
  refine ⟨fun _ _ => ⟨rfl, hgoing⟩, fun error herror => ?_⟩
  rcases he with rfl | rfl
  all_goals cases hstep with
  | raised hraise => cases hraise
  | signalFailed _ hos =>
    exact ⟨fun e he => Except.error.inj he ▸ hos, rfl, hgoing, fun _ _ => .inr rfl⟩
  | _ => cases herror

theorem wp_waitTimeout (h : Going tools files₀ arguments l w) :
    (onSystem (.waitTimeout 5) : RenderRoutine K ℤ).wp (renderSetting tools)
      (fun r l' w' => l' = l ∧ Going tools files₀ arguments l w' ∧
        (r ≠ .error (.other "TimeoutExpired") → Stopped tools files₀ arguments l r l' w')) l w := by
  refine wp_onSystem.mpr fun w₁ hrely a w₂ hstep => ?_
  have hgoing := (h.rely hrely).step rfl hstep
  refine ⟨rfl, hgoing, fun hne => ?_⟩
  cases hstep with
  | raised hraise => cases hraise
  | waitedInTime _ hp hexit => exact ⟨fun _ => nofun, rfl, hgoing, gone_of_exit hp hexit⟩
  | timeout => exact absurd rfl hne
  | signalFailed _ hos =>
    exact ⟨fun e he => Except.error.inj he ▸ hos, rfl, hgoing, fun _ _ => .inr rfl⟩

/-- A process that is told to stop is killed if it does not exit in time. -/
theorem wp_stop (h : Going tools files₀ arguments l w) :
    (do
      onSystem .terminate
      handle (do
        let _ ← onSystem (.waitTimeout 5)
        pure ()) fun e =>
        if e = .other "TimeoutExpired" then do
          onSystem .kill
          let _ ← onSystem .wait
          pure ()
        else raise e : RenderRoutine K Unit).wp (renderSetting tools)
      (Stopped tools files₀ arguments l) l w := by
  refine wp_bind_of (wp_signal h (.inl rfl)) ?_ fun e l w hP => hP.2 e rfl
  rintro a l' w₁ ⟨hok, -⟩
  obtain ⟨rfl, h₁⟩ := hok _ rfl
  refine wp_handle_of (P := fun r l w => l = l' ∧ Going tools files₀ arguments l' w ∧
      (r ≠ .error (.other "TimeoutExpired") → Stopped tools files₀ arguments l' r l w))
    (wp_bind_of (wp_waitTimeout h₁) ?_ fun e l w hP => ?_) (fun a l w hP => hP.2.2 nofun)
    fun e l w hP => ?_
  · rintro code l w₂ ⟨hl, h₂, hstopped⟩
    obtain ⟨-, -, hgoing, hgone⟩ := hstopped nofun
    exact ⟨hl, h₂, fun _ => ⟨fun e => nofun, hl, hgoing, hgone⟩⟩
  · refine ⟨hP.1, hP.2.1, fun hne => ?_⟩
    obtain ⟨hos, hrest⟩ := hP.2.2 fun he => hne (by cases he; rfl)
    exact ⟨fun e' he => hos e' (by cases he; rfl), hrest⟩
  · obtain ⟨rfl, h₂, hstopped⟩ := hP
    split_ifs with htimeout
    · refine wp_bind_of (wp_signal h₂ (.inr rfl)) ?_ fun e l w hP => hP.2 e rfl
      rintro a l' w₃ ⟨hok, -⟩
      obtain ⟨rfl, h₃⟩ := hok _ rfl
      refine wp_bind_of (wp_wait h₃) ?_ fun e l w hP => ?_
      · rintro code l w₄ ⟨rfl, h₄, hgone, -⟩
        exact ⟨fun e => nofun, rfl, h₄, hgone⟩
      · obtain ⟨rfl, h₄, hgone, hos, -⟩ := hP
        exact ⟨fun e' he => hos e' (by cases he; rfl), rfl, h₄, hgone⟩
    · exact hstopped fun he => htimeout (Except.error.inj he)

/-- **Aborting** finishes the process. -/
theorem wp_abort (h : Going tools files₀ arguments l w) :
    (abort : RenderRoutine K Unit).wp (renderSetting tools)
      (fun r l' w' => r = .ok () ∧ l' = { l with finished := true } ∧
        Going tools files₀ arguments l' w') l w := by
  unfold abort
  rw [wp_get_bind]
  split_ifs with hfinished
  · refine ⟨rfl, ?_, h⟩
    rw [← hfinished]
  have hstop : (ignoreOSError (do
      ignoreOSError (onSystem .closeInput)
      let returnCode : Option ℤ ← onSystem .poll
      if returnCode.isNone then do
        onSystem .terminate
        handle (do
          let _ ← onSystem (.waitTimeout 5)
          pure ()) fun e =>
          if e = .other "TimeoutExpired" then do
            onSystem .kill
            let _ ← onSystem .wait
            pure ()
          else raise e
      else pure ()) : RenderRoutine K Unit).wp (renderSetting tools)
      (fun r l' w' => r = .ok () ∧ l' = l ∧ Going tools files₀ arguments l w' ∧ w'.Gone) l w := by
    refine wp_ignoreOSError (wp_bind_of (wp_closeInput h) ?_ fun e l w h => nomatch h.1)
    rintro - l w₁ ⟨-, rfl, h₁⟩
    refine wp_bind_of (wp_poll h₁) ?_ fun e l w hP => ?_
    · rintro returnCode l w₂ ⟨rfl, h₂, hrun, -⟩
      split_ifs with hnone
      · exact wp_stop h₂
      · exact ⟨fun e => nofun, rfl, h₂, hrun fun he => hnone (by cases he; rfl)⟩
    · obtain ⟨rfl, h₂, hrun, herror⟩ := hP
      exact ⟨fun e' he => herror e' (by cases he; rfl), rfl, h₂, hrun nofun⟩
  refine wp_ensure_of hstop ?_
  rintro _ l w₂ ⟨rfl, rfl, h₂, hgone⟩
  refine wp_mono ?_ (wp_markFinished h₂ hgone)
  rintro _ _ w₃ ⟨rfl, rfl, h₃, -⟩
  exact ⟨rfl, rfl, rfl, h₃⟩

/-! ## Starting and feeding the process -/

/-- What a failed method of a process leaves. -/
def Failed (tools : RenderTools Content) (files₀ : String → Option Content) (arguments : List String)
    (l l' : RenderVariables) (w' : RenderWorld Content) : Prop :=
  (l'.started = l.started ∧ l'.reading = l.reading) ∧ Going tools files₀ arguments l' w'

theorem wp_diagnostic {e : RenderEffect K} (h : Going tools files₀ arguments l w)
    (he : e = .openDiagnostic ∨ e = .closeDiagnostic) : (onSystem e).wp (renderSetting tools)
      (fun _ l' w' => l' = l ∧ Going tools files₀ arguments l w' ∧ w'.reader = w.reader) l w := by
  refine wp_onSystem.mpr fun w₁ hrely a w₂ hstep => ?_
  have hneutral : e.isNeutral = true := by
    rcases he with rfl | rfl <;> rfl
  refine ⟨rfl, (h.rely hrely).step hneutral hstep, ?_⟩
  rcases he with rfl | rfl
  all_goals cases hstep with
  | signalFailed hsignal => cases hsignal
  | _ => exact hrely.reader_eq

/-- The encoder has just been started. -/
structure Fresh (arguments : List String) (w w' : RenderWorld Content) : Prop where
  encoder : w'.encoder = some ⟨arguments, true, [], [], none⟩
  files : w'.files = w.files
  reader : w'.reader = w.reader

theorem Fresh.feeding (hfresh : Fresh arguments w w') (h : Going tools files₀ arguments l w) :
    Feeding tools files₀ arguments [] w.reader { l with started := true, finished := false } w' := by
  have hprocess : Encodes tools arguments { l with started := true, finished := false } w'
      ⟨arguments, true, [], [], none⟩ := ⟨hfresh.encoder, rfl, nofun, nofun⟩
  exact ⟨⟨fun path hpath => (congrFun hfresh.files path).trans (h.files path hpath), nofun,
    fun _ => ⟨_, hprocess⟩⟩, ⟨rfl, rfl⟩, ⟨_, hfresh.encoder, rfl, rfl⟩, hfresh.reader⟩

theorem wp_popen (h : Going tools files₀ arguments l w) (hidle : l.started = false) :
    (onSystem (.popen arguments) : RenderRoutine K Unit).wp (renderSetting tools)
      (fun r l' w' => l' = l ∧ (∀ a, r = .ok a → Fresh arguments w w') ∧
        ∀ e, r = .error e → Going tools files₀ arguments l w') l w := by
  refine wp_onSystem.mpr fun w₁ hrely a w₂ hstep => ?_
  obtain rfl := hrely.eq_of_quiet (h.idle hidle).1
  cases hstep with
  | raised => exact ⟨rfl, fun a => nofun, fun _ _ => h⟩
  | started => exact ⟨rfl, fun _ _ => ⟨rfl, rfl, rfl⟩, fun _ => nofun⟩
  | signalFailed hsignal => cases hsignal

/-- **The start**: the encoder takes frames, or nothing has changed. -/
theorem wp_start (h : Going tools files₀ arguments l w) (hidle : l.started = false) :
    (start str arguments : RenderRoutine K Unit).wp (renderSetting tools)
      (Finally (fun _ l' w' => l' = { l with started := true, finished := false } ∧
        Feeding tools files₀ arguments [] w.reader l' w') (Failed tools files₀ arguments l)) l w := by
  unfold start
  refine wp_bind_of (wp_diagnostic h (.inl rfl)) ?_ fun e l' w hP => ?_
  · rintro - l w₁ ⟨rfl, h₁, hreader⟩
    -- The handlers close the diagnostics and raise.
    have hhandler : ∀ (e : Raised) {w₂ : RenderWorld Content}, Going tools files₀ arguments l w₂ →
        (do
          onSystem .closeDiagnostic
          raise e : RenderRoutine K Unit).wp (renderSetting tools)
          (fun r l' w' => (∀ a, r ≠ .ok a) ∧ l' = l ∧ Going tools files₀ arguments l w') l w₂ := by
      intro e w₂ h₂
      refine wp_bind_of (wp_diagnostic h₂ (.inr rfl)) ?_ fun e l w hP => ⟨fun a => nofun, hP.1, hP.2.1⟩
      rintro a l w ⟨hl, h₃, -⟩
      exact ⟨fun a => nofun, hl, h₃⟩
    refine wp_bind_of (P := fun r l' w' => l' = l ∧ (∀ a, r = .ok a → Fresh arguments w₁ w') ∧
      ∀ e, r = .error e → Going tools files₀ arguments l w')
      (wp_handle_of (wp_popen h₁ hidle) (fun _ _ _ hP => hP) fun e l' w₂ hP => ?_) ?_ fun e l' w hP => ?_
    · obtain ⟨rfl, -, hgoing⟩ := hP
      have hraise : ∀ {r : Except Raised Unit} {l'' w'}, (∀ a, r ≠ .ok a) ∧ l'' = l' ∧
          Going tools files₀ arguments l' w' → l'' = l' ∧
            (∀ a, r = .ok a → Fresh arguments w₁ w') ∧
            ∀ e, r = .error e → Going tools files₀ arguments l' w' :=
        fun ⟨hne, hl, h₃⟩ => ⟨hl, fun a ha => absurd ha (hne a), fun _ _ => h₃⟩
      split_ifs
      · exact wp_mono (fun _ _ _ => hraise) (hhandler _ (hgoing e rfl))
      · exact wp_mono (fun _ _ _ => hraise) (hhandler _ (hgoing e rfl))
      · exact hraise ⟨fun a => nofun, rfl, hgoing e rfl⟩
    · rintro a l' w₂ ⟨rfl, hfresh, -⟩
      rw [← hreader]
      exact ⟨rfl, (hfresh a rfl).feeding h₁⟩
    · obtain ⟨rfl, -, hgoing⟩ := hP
      exact ⟨⟨rfl, rfl⟩, hgoing e rfl⟩
  · obtain ⟨rfl, h₁, -⟩ := hP
    exact ⟨⟨rfl, rfl⟩, h₁⟩

theorem wp_writeInput {bytes : List UInt8}
    {reader : Option (List (DecodedFrame (Option (Image Bgr))))} (data : List UInt8)
    (h : Feeding tools files₀ arguments bytes reader l w) :
    (onSystem (.writeInput data) : RenderRoutine K (Option ℤ)).wp (renderSetting tools)
      (fun r l' w' => l' = l ∧ Going tools files₀ arguments l w' ∧ ∀ n : ℤ, r = .ok (some n) →
        Feeding tools files₀ arguments (bytes ++ data.take n.toNat) reader l w') l w := by
  refine wp_onSystem.mpr fun w₁ hrely a w₂ hstep => ?_
  have h₁ := h.rely hrely
  have hgoing := h₁.going.step rfl hstep
  refine ⟨rfl, hgoing, fun n hn => ?_⟩
  cases hstep with
  | raised hraise => cases hraise
  | signalFailed hsignal => cases hsignal
  | refused | writeFailed => cases hn
  | @accepted p _ k hp =>
    obtain ⟨p', hp', hwritten, hopen⟩ := h₁.encoder
    obtain rfl := Option.some.inj (hp.symm.trans hp')
    obtain rfl : (k : ℤ) = n := by simpa using hn
    refine ⟨hgoing, h.live, ⟨_, rfl, ?_, hopen⟩, h₁.reader⟩
    rw [hwritten, Int.toNat_natCast]

/-- The loop that writes to the pipe. -/
theorem wp_writeAll {bytes : List UInt8} {reader : Option (List (DecodedFrame (Option (Image Bgr))))}
    (data : List UInt8) (h : Feeding tools files₀ arguments bytes reader l w) :
    (writeAll data : RenderRoutine K Unit).wp (renderSetting tools)
      (fun r l' w' => l' = l ∧ Going tools files₀ arguments l w' ∧
        ∀ a, r = .ok a → Feeding tools files₀ arguments (bytes ++ data) reader l w') l w := by
  induction hn : data.length using Nat.strong_induction_on generalizing data bytes w with
  | _ n ih =>
    rw [writeAll]
    split_ifs with hdata
    · rw [hdata, List.append_nil]
      exact ⟨rfl, h.going, fun _ _ => h⟩
    refine wp_bind_of (wp_writeInput data h) ?_ fun e l' w hP => ⟨hP.1, hP.2.1, fun a => nofun⟩
    rintro written l w₁ ⟨rfl, hgoing, hfeeding⟩
    have hbroken : ∀ {a}, (.error (.other "BrokenPipeError") : Except Raised Unit) = .ok a →
        Feeding tools files₀ arguments (bytes ++ data) reader l w₁ := nofun
    cases written with
    | none => exact ⟨rfl, hgoing, fun _ => hbroken⟩
    | some written =>
      dsimp only
      split_ifs with hpos
      · exact ⟨rfl, hgoing, fun _ => hbroken⟩
      · have hlength := List.length_pos_iff.mpr hdata
        have hrest := ih _ (by rw [List.length_drop]; omega) (data.drop written.toNat)
          (hfeeding written rfl) rfl
        rwa [List.append_assoc, List.take_append_drop] at hrest

/-- **A write**: the encoder's pipe takes all of the data, or the write fails. -/
theorem wp_write {bytes : List UInt8} {reader : Option (List (DecodedFrame (Option (Image Bgr))))}
    (data : List UInt8) (h : Feeding tools files₀ arguments bytes reader l w) :
    (write str data : RenderRoutine K Unit).wp (renderSetting tools)
      (Finally (fun _ l' w' => l' = l ∧ Feeding tools files₀ arguments (bytes ++ data) reader l' w')
        (Failed tools files₀ arguments l)) l w := by
  unfold write
  rw [wp_get_bind, if_neg (by simp [h.live.2])]
  refine wp_handle_of (wp_writeAll data h) ?_ fun e l' w₁ hP => ?_
  · rintro a l w₁ ⟨rfl, -, hfeeding⟩
    exact ⟨rfl, hfeeding a rfl⟩
  obtain ⟨rfl, h₁, -⟩ := hP
  split_ifs
  · refine wp_bind_of (wp_finishAfterFailure h₁) ?_ fun e l w hP => ?_
    · rintro diagnostic l w₂ ⟨rfl, h₂⟩
      exact ⟨⟨rfl, rfl⟩, h₂⟩
    · obtain ⟨rfl, h₂⟩ := hP
      exact ⟨⟨rfl, rfl⟩, h₂⟩
  · exact ⟨⟨rfl, rfl⟩, h₁⟩

/-! ## Finishing the process -/

/-- Closing the pipe delivers what has been written, or fails. -/
theorem wp_close {bytes : List UInt8} {reader : Option (List (DecodedFrame (Option (Image Bgr))))}
    (h : Feeding tools files₀ arguments bytes reader l w) :
    (handle (do
        onSystem .closeInput
        pure none) fun e =>
      if e.isOSError then pure (some e) else raise e : RenderRoutine K (Option Raised)).wp
      (renderSetting tools)
      (fun r l' w' => l' = l ∧ Going tools files₀ arguments l w' ∧ w'.reader = reader ∧
        (r = .ok none → ReachedEncoder bytes w')) l w := by
  have hcall : (onSystem .closeInput : RenderRoutine K Unit).wp (renderSetting tools)
      (fun r l' w' => l' = l ∧ Going tools files₀ arguments l w' ∧ w'.reader = reader ∧
        ∀ a, r = .ok a → ReachedEncoder bytes w') l w := by
    refine wp_onSystem.mpr fun w₁ hrely a w₂ hstep => ?_
    have h₁ := h.rely hrely
    obtain ⟨p, hp, hwritten, hopen⟩ := h₁.encoder
    refine ⟨rfl, h₁.going.step rfl hstep, ?_⟩
    cases hstep with
    | raised hraise => cases hraise
    | signalFailed hsignal => cases hsignal
    | closeFailed => exact ⟨h₁.reader, fun _ => nofun⟩
    | closedBefore hq hclosed =>
      obtain rfl := Option.some.inj (hp.symm.trans hq)
      rw [hopen] at hclosed
      cases hclosed
    | flushed hq =>
      obtain rfl := Option.some.inj (hp.symm.trans hq)
      exact ⟨h₁.reader, fun _ _ => ⟨_, rfl, hwritten, hwritten⟩⟩
  refine wp_handle_of (P := fun r l' w' => l' = l ∧ Going tools files₀ arguments l w' ∧
      w'.reader = reader ∧ (r = .ok none → ReachedEncoder bytes w'))
    (wp_bind_of hcall ?_ fun e l w hP => ⟨hP.1, hP.2.1, hP.2.2.1, nofun⟩) (fun _ _ _ hP => hP)
    fun e l w hP => ?_
  · rintro a l w₁ ⟨hl, h₁, hreader, hdelivered⟩
    exact ⟨hl, h₁, hreader, fun _ => hdelivered a rfl⟩
  · obtain ⟨hl, h₁, hreader, -⟩ := hP
    split_ifs
    · exact ⟨hl, h₁, hreader, nofun⟩
    · exact ⟨hl, h₁, hreader, nofun⟩

/-- **Finishing**: the encoder has made its output of all the bytes, or the process is finished. -/
theorem wp_finish {bytes : List UInt8} {reader : Option (List (DecodedFrame (Option (Image Bgr))))}
    (h : Feeding tools files₀ arguments bytes reader l w) :
    (finish str : RenderRoutine K Unit).wp (renderSetting tools)
      (Finally (fun _ l' w' => l' = { l with finished := true } ∧
        Encoded tools files₀ arguments bytes reader l' w') (Failed tools files₀ arguments l)) l w := by
  unfold finish
  rw [wp_get_bind, if_neg (by simp [h.live.2])]
  have hlive := h.live
  refine wp_bind_of (wp_close h) ?_ fun e l' w hP =>
    ⟨⟨by rw [hP.1], by rw [hP.1]⟩, hP.1 ▸ hP.2.1⟩
  rintro closeError l w₁ ⟨rfl, h₁, hreader, hdelivered⟩
  have hwait : (ensure (do
      let returnCode : ℤ ← onSystem .wait
      let diagnostic ← readDiagnostic
      pure (returnCode, diagnostic)) markFinished : RenderRoutine K (ℤ × Option String)).wp
      (renderSetting tools)
      (fun r l' w' => l' = { l with finished := true } ∧ Going tools files₀ arguments l' w' ∧
        ∀ code d, r = .ok (code, d) → w'.reader = reader ∧ Exits code w₁ w') l w₁ := by
    refine wp_ensure_of (P := fun r l' w' => l' = l ∧ Going tools files₀ arguments l w' ∧ w'.Gone ∧
        ∀ code d, r = .ok (code, d) → w'.reader = reader ∧ Exits code w₁ w')
      (wp_bind_of (wp_wait h₁) ?_ fun e l w hP => ⟨hP.1, hP.2.1, hP.2.2.1, nofun⟩) ?_
    · rintro code l w₂ ⟨rfl, h₂, hgone, -, hreader₂, hexits⟩
      obtain ⟨⟨p, hp, hexit⟩, hmore⟩ := hexits code rfl
      have hquiet := quiet_of_exit hp hexit
      refine wp_bind_of (wp_readDiagnostic h₂ hgone) ?_ fun e l w hP =>
        ⟨hP.1, hP.2.1, hP.2.2.1, nofun⟩
      rintro diagnostic l w₃ ⟨rfl, h₃, hgone₃, hsame⟩
      obtain rfl := hsame hquiet
      refine ⟨rfl, h₃, hgone₃, fun code' d hr => ⟨hreader₂.trans hreader, ?_⟩⟩
      obtain ⟨rfl, -⟩ := Prod.mk.inj (Except.ok.inj hr)
      exact ⟨⟨p, hp, hexit⟩, hmore⟩
    · rintro r l w₂ ⟨rfl, h₂, hgone, hexits⟩
      refine wp_mono ?_ (wp_markFinished h₂ hgone)
      rintro _ _ w₃ ⟨rfl, rfl, h₃, hsame⟩
      refine ⟨rfl, rfl, h₃, fun code d hr => ?_⟩
      obtain ⟨hreader₂, hexit⟩ := hexits code d hr
      obtain ⟨p, hp, hcode⟩ := hexit.exit
      obtain rfl := hsame (quiet_of_exit hp hcode)
      exact ⟨hreader₂, hexit⟩
  refine wp_bind_of hwait ?_ fun e l' w hP => ?_
  · rintro ⟨code, diagnostic⟩ l' w₂ ⟨rfl, h₂, hexits⟩
    obtain ⟨hreader₂, ⟨p, hp, hcode⟩, hmore⟩ := hexits code diagnostic rfl
    dsimp only
    split_ifs with hfailed
    · exact ⟨⟨rfl, rfl⟩, h₂⟩
    · obtain ⟨hzero, hclosed⟩ := not_or.mp hfailed
      obtain rfl := not_not.mp hzero
      obtain rfl := Option.not_isSome_iff_eq_none.mp hclosed
      obtain ⟨q, hq, -, hbytes⟩ := hmore bytes (hdelivered rfl)
      obtain rfl := Option.some.inj (hp.symm.trans hq)
      obtain ⟨p', hp'⟩ := h₂.process hlive.1
      obtain rfl := Option.some.inj (hp.symm.trans hp'.encoder)
      refine ⟨rfl, h₂, ⟨p, hp, hp'.invoked, hcode, hbytes⟩, ?_, hreader₂⟩
      rw [← hbytes]
      exact hp'.output hcode
  · obtain ⟨rfl, h₂, -⟩ := hP
    exact ⟨⟨rfl, rfl⟩, h₂⟩

end MediaProcess

end BoulderFrame
