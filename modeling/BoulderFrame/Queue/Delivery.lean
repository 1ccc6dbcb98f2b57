import BoulderFrame.Queue.Adapter
import BoulderFrame.Worker.Attempts

/-!
# Deliveries from the stream

Consumers read the entries of a Redis stream, reclaim pending ones from each other, and process
them; the backend publishes entries and creates jobs meanwhile. An entry is acknowledged only when
its job needs it no more, so that no job is lost with its entry.

## Main definitions

* `Stream`, `Stream.Step`: the entries, how many have been delivered, and the pending list
* `QueueWorld`, `QueueWorld.Step`, `QueueWorld.Env`: the stream beside the world of the attempts
* `deliveries`: the pool of the deliveries that are handled
* `Stream.Acknowledged`, `Disposable`: the entries that are no longer kept, and those that need not be

## Main results

* `wp_handleDelivery`: handling a delivery acknowledges only disposable entries
* `QueueWorld.acknowledged_disposable`: so every acknowledged entry is
-/

namespace BoulderFrame

open Routine

/-- The stream, with the consumer of each pending entry. -/
structure Stream where
  entries : List StreamEntry
  delivered : ℕ
  pending : ℕ → Option String

namespace Stream

variable (s : Stream)

def Acknowledged (n : ℕ) : Prop := n < s.delivered ∧ s.pending n = none

/-- `XACK` -/
def ack (n : ℕ) : Stream := { s with pending := Function.update s.pending n none }

/-- `XADD`, `XREADGROUP`, and `XAUTOCLAIM` or the `XCLAIM` of a heartbeat. -/
inductive Step : Stream → Prop
  | add {entry} : Step { s with entries := s.entries ++ [entry] }
  | read {consumer} (h : s.delivered < s.entries.length) : Step { s with
      delivered := s.delivered + 1
      pending := Function.update s.pending s.delivered (some consumer) }
  | claim {n consumer} (h : (s.pending n).isSome) :
    Step { s with pending := Function.update s.pending n (some consumer) }

end Stream

/-- The world of the attempts, and the stream. -/
structure QueueWorld where
  world : World
  stream : Stream

namespace QueueWorld

variable (decoding : Decoding) (s : QueueWorld)

/-- An entry of the stream is about the job. -/
def Mentions (j : Uuid) : Prop :=
  ∃ entry ∈ s.stream.entries, ∃ task, entry.task decoding = .ok task ∧ task.jobId = j

/-- The effects of a delivery that is handled; an acknowledgement may also raise. -/
inductive Step (files : String → ℤ) (t : String) (s : QueueWorld) : (e : Effect ⊕ QueueEffect) →
    Sum.elim Effect.Answer QueueEffect.Answer e → QueueWorld → Prop
  | world {e a w} (h : World.Step files t s.world e a w) :
    Step files t s (.inl e) a { s with world := w }
  | ack {n} : Step files t s (.inr (.ack n)) (.ok ()) { s with stream := s.stream.ack n }
  | interrupted {n name} :
    Step files t s (.inr (.ack n)) (.error (.other name)) { s with stream := s.stream.ack n }
  | lost {n name} : Step files t s (.inr (.ack n)) (.error (.other name)) s

/-- The consumers, and the rest of the system, which creates a job under a new id. -/
inductive Env : QueueWorld → Prop
  | world {w} (h : s.world.Env w)
    (hnew : ∀ j, s.world.db.jobs j = none → s.Mentions decoding j → w.db.jobs j = none) :
    Env { s with world := w }
  | stream {stream} (h : s.stream.Step stream) : Env { s with stream := stream }

end QueueWorld

/-- The deliveries that are handled, each by an attempt with a token of its own. -/
def deliveries (decoding : Decoding) (files : String → ℤ) :
    Pool String (Effect ⊕ QueueEffect) (Sum.elim Effect.Answer QueueEffect.Answer)
      (Except Raised DeliveryAction × Unit) QueueWorld where
  start t s p := ∃ config n entry, n < s.stream.delivered ∧ s.stream.entries[n]? = some entry ∧
    p = handleDelivery decoding config t n entry ()
  sem t e s := QueueWorld.Step files t s e
  env := QueueWorld.Env decoding

/-! ## Settled jobs stay settled -/

section Settled

variable {w w' : World} {j : Uuid}

/-- **An operation** neither creates a job nor changes one that has ended. -/
theorem Operation.run_settled {op : Operation} (h : Settled j w) :
    Settled j { w with db := op.run w.now w.db } := by
  obtain hsame | ⟨_, _, row, row', -, hrow, hrow', hclaim⟩ | ⟨_, row, row', -, -, hrow, hrow', hchange⟩ :=
    op.run_jobs w.now w.db j
  · simpa only [Settled, Finished, hsame] using h
  · obtain h | ⟨row₁, hrow₁, hterminal⟩ := h
    · cases hrow.symm.trans h
    · obtain rfl := Option.some.inj (hrow.symm.trans hrow₁)
      exact nomatch hterminal.symm.trans (rowStep_of_claimSql hclaim).unfinished
  · obtain h | ⟨row₁, hrow₁, hterminal⟩ := h
    · cases hrow.symm.trans h
    · obtain rfl := Option.some.inj (hrow.symm.trans hrow₁)
      exact nomatch hterminal.symm.trans hchange.rowStep.unfinished

/-- **An effect of an attempt** leaves settled jobs as they are. -/
theorem World.Step.settled {files : String → ℤ} {t : String} {e : Effect} {a : e.Answer}
    (hstep : World.Step files t w e a w') (h : Settled j w) : Settled j w' := by
  have hcall : ∀ {a' db}, e.Calls w.toClocked a' db → Settled j (w.after e a' db) := by
    intro a' db hcall
    obtain ⟨completedBy, heq⟩ := World.after_eq w e a' db
    rw [heq]
    obtain rfl | ⟨op, rfl, -, -⟩ := World.calls_run hcall
    · exact h
    · exact op.run_settled h
  cases hstep with
  | answered h => exact hcall h
  | interrupted h => exact hcall h
  | stageResponse =>
    unfold World.respond
    split_ifs
    · exact h
    · exact h
  | published => exact Operation.run_settled h
  | _ => exact h

/-- **The rest of the system** leaves settled jobs as they are, unless it creates them. -/
theorem World.Env.settled (henv : w.Env w') (hnew : w.db.jobs j = none → w'.db.jobs j = none)
    (h : Settled j w) : Settled j w' := by
  obtain hnone | ⟨row, hrow, hterminal⟩ := h
  · exact .inl (hnew hnone)
  have hfinished : Settled j w := .inr ⟨row, hrow, hterminal⟩
  cases henv with
  | clock => exact hfinished
  | renew => exact Operation.run_settled hfinished
  | @createJob i _ habsent =>
    have hi : j ≠ i := by
      rintro rfl
      cases hrow.symm.trans habsent
    exact .inr ⟨row, (w.db.setJob_jobs_of_ne _ hi).trans hrow, hterminal⟩
  | assets => exact hfinished

end Settled

/-! ## The discipline of the deliveries -/

/-- An entry that need not be kept: it has no task, or its job does not exist or has ended. -/
def Disposable (decoding : Decoding) (entry : StreamEntry) (w : World) : Prop :=
  Malformed decoding entry ∨ ∃ task, entry.task decoding = .ok task ∧ Settled task.jobId w

namespace QueueWorld

variable (decoding : Decoding) (s s' : QueueWorld)

/-- The acknowledged entries need not be kept. -/
structure AcksDisposable : Prop where
  delivered : s.stream.delivered ≤ s.stream.entries.length
  disposable : ∀ n entry, s.stream.Acknowledged n → s.stream.entries[n]? = some entry →
    Disposable decoding entry s.world

/-- The entries are kept, and those that need not be kept stay so. -/
structure KeepsEntries : Prop where
  entries : s.stream.entries <+: s'.stream.entries
  disposable : ∀ entry ∈ s.stream.entries, Disposable decoding entry s.world →
    Disposable decoding entry s'.world

variable {decoding s s'} {s'' : QueueWorld}

theorem KeepsEntries.trans (h : KeepsEntries decoding s s') (h' : KeepsEntries decoding s' s'') :
    KeepsEntries decoding s s'' where
  entries := h.entries.trans h'.entries
  disposable entry hentry hdisposable :=
    h'.disposable entry (h.entries.subset hentry) (h.disposable entry hentry hdisposable)

theorem KeepsEntries.getElem? (h : KeepsEntries decoding s s') {n : ℕ} {entry : StreamEntry}
    (hentry : s.stream.entries[n]? = some entry) : s'.stream.entries[n]? = some entry := by
  obtain ⟨rest, hrest⟩ := h.entries
  obtain ⟨hn, -⟩ := List.getElem?_eq_some_iff.mp hentry
  rw [← hrest, List.getElem?_append_left hn, hentry]

/-- The world of a stream changes, and the jobs of its entries stay settled. -/
theorem keepsEntries_of_settled {w : World}
    (h : ∀ j, s.Mentions decoding j → Settled j s.world → Settled j w) :
    KeepsEntries decoding s { s with world := w } where
  entries := List.prefix_rfl
  disposable entry hentry hdisposable := by
    obtain hmalformed | ⟨task, htask, hsettled⟩ := hdisposable
    · exact .inl hmalformed
    · exact .inr ⟨task, htask, h _ ⟨entry, hentry, task, htask, rfl⟩ hsettled⟩

theorem AcksDisposable.world {w : World} (h : s.AcksDisposable decoding)
    (hkeeps : KeepsEntries decoding s { s with world := w }) :
    AcksDisposable decoding { s with world := w } where
  delivered := h.delivered
  disposable n entry hack hentry :=
    hkeeps.disposable entry (List.mem_of_getElem? hentry) (h.disposable n entry hack hentry)

/-- **A step of the consumers** acknowledges nothing. -/
theorem AcksDisposable.stream {stream : Stream} (h : s.AcksDisposable decoding)
    (hstep : s.stream.Step stream) : AcksDisposable decoding { s with stream := stream } := by
  cases hstep with
  | add =>
    refine ⟨h.delivered.trans (by simp), fun n entry hack hentry => ?_⟩
    have hn : n < s.stream.entries.length := hack.1.trans_le h.delivered
    exact h.disposable n entry hack ((List.getElem?_append_left hn).symm.trans hentry)
  | read hdelivered =>
    refine ⟨hdelivered, fun n entry ⟨hn, hnone⟩ hentry => ?_⟩
    by_cases hlast : n = s.stream.delivered
    · subst hlast
      cases (Function.update_self ..).symm.trans hnone
    · have hn' : n < s.stream.delivered := lt_of_le_of_ne (Nat.le_of_lt_succ hn) hlast
      have hnone' := (Function.update_of_ne hlast ..).symm.trans hnone
      exact h.disposable n entry ⟨hn', hnone'⟩ hentry
  | @claim m consumer hpending =>
    refine ⟨h.delivered, fun n entry ⟨hn, hnone⟩ hentry => ?_⟩
    by_cases hnm : n = m
    · subst hnm
      cases (Function.update_self ..).symm.trans hnone
    · have hnone' := (Function.update_of_ne hnm ..).symm.trans hnone
      exact h.disposable n entry ⟨hn, hnone'⟩ hentry

/-- **An acknowledgement** of an entry that need not be kept. -/
theorem AcksDisposable.ack {m : ℕ} {entry : StreamEntry} (h : s.AcksDisposable decoding)
    (hentry : s.stream.entries[m]? = some entry) (hdisposable : Disposable decoding entry s.world) :
    AcksDisposable decoding { s with stream := s.stream.ack m } where
  delivered := h.delivered
  disposable n entry' hack hentry' := by
    by_cases hnm : n = m
    · subst hnm
      obtain rfl := Option.some.inj (hentry.symm.trans hentry')
      exact hdisposable
    · refine h.disposable n entry' ⟨hack.1, ?_⟩ hentry'
      exact (Function.update_of_ne hnm ..).symm.trans hack.2

/-- **The environment** keeps the entries. -/
theorem Env.keepsEntries (henv : s.Env decoding s') : KeepsEntries decoding s s' := by
  cases henv with
  | world h hnew =>
    exact keepsEntries_of_settled fun j hj => World.Env.settled h fun hnone => hnew j hnone hj
  | stream h =>
    cases h with
    | add => exact ⟨List.prefix_append .., fun _ _ h => h⟩
    | read => exact ⟨List.prefix_rfl, fun _ _ h => h⟩
    | claim => exact ⟨List.prefix_rfl, fun _ _ h => h⟩

end QueueWorld

/-- What the deliveries rely on. -/
def deliveryDiscipline (decoding : Decoding) : Pool.Discipline String QueueWorld where
  inv s := s.world.Inv ∧ s.AcksDisposable decoding
  rely t s s' := World.Relies t s.world s'.world ∧ s.KeepsEntries decoding s'
  rely_refl _ _ := ⟨.rfl, List.prefix_rfl, fun _ _ h => h⟩
  rely_trans _ _ _ _ h h' := ⟨h.1.trans h'.1, h.2.trans h'.2⟩
  fresh _ _ := True
  fresh_rely _ _ _ _ _ := trivial

/-! ## Handling a delivery -/

section Handle

variable {decoding : Decoding} {files : String → ℤ} {t : String} {config : WorkerConfig} {n : ℕ}
  {entry : StreamEntry} {s : QueueWorld}

/-- The setting of one delivery. -/
abbrev deliverySetting (decoding : Decoding) (files : String → ℤ) (t : String) :=
  (deliveryDiscipline decoding).setting (deliveries decoding files) t

/-- **An acknowledgement** is correct if the entry need not be kept. -/
theorem wp_ackDelivery (hentry : s.stream.entries[n]? = some entry)
    (hdisposable : Disposable decoding entry s.world) :
    (ackDelivery n).wp (deliverySetting decoding files t) (fun _ _ _ => True) () s := by
  unfold ackDelivery
  rw [wp_bind]
  refine wp_call.mpr ?_
  rintro s₁ ⟨⟨-, hkeeps⟩, hinv, hacks⟩ a s₂ hstep
  have hentry₁ := hkeeps.getElem? hentry
  have hdisposable₁ := hkeeps.disposable entry (List.mem_of_getElem? hentry) hdisposable
  have hothers : ∀ stream : Stream, stream.entries = s₁.stream.entries → ∀ t' ≠ t,
      (deliveryDiscipline decoding).rely t' s₁ { s₁ with stream := stream } := by
    intro stream hentries t' _
    exact ⟨.rfl, by rw [hentries], fun _ _ h => h⟩
  refine ⟨?_, by cases a <;> exact trivial⟩
  cases hstep with
  | ack => exact ⟨⟨hinv, hacks.ack hentry₁ hdisposable₁⟩, hothers _ rfl⟩
  | interrupted => exact ⟨⟨hinv, hacks.ack hentry₁ hdisposable₁⟩, hothers _ rfl⟩
  | lost => exact ⟨⟨hinv, hacks⟩, hothers _ rfl⟩

/-- **The processing** of a delivery settles its job, if the delivery may be acknowledged. -/
theorem wp_process_delivery {task : JobTask} (hacks : s.AcksDisposable decoding)
    (hentry : s.stream.entries[n]? = some entry) :
    (inl (process config pipelineHandlers t task) : DeliveryRoutine ProcessResult).wp
      (deliverySetting decoding files t) (fun r _ s => Decided task.jobId r s.world ∧
        s.AcksDisposable decoding ∧ s.stream.entries[n]? = some entry) () s := by
  refine Routine.wp_inl (T := attemptSetting files t) ?_ ?_ ⟨hacks, hentry⟩ wp_process_decides
  · rintro s s₁ ⟨-, hentry⟩ ⟨⟨hrely, hkeeps⟩, hinv, hacks⟩
    exact ⟨⟨hrely, hinv⟩, hacks, hkeeps.getElem? hentry⟩
  · rintro e s a s' ⟨hacks, hentry⟩ hstep
    cases hstep with
    | world hstep =>
      have hkeeps : QueueWorld.KeepsEntries decoding s _ :=
        QueueWorld.keepsEntries_of_settled fun _ _ => hstep.settled
      exact ⟨hstep, fun ⟨hinv, hothers⟩ =>
        ⟨⟨hinv, hacks.world hkeeps⟩, fun t' ht' => ⟨hothers t' ht', hkeeps⟩⟩,
        hacks.world hkeeps, hentry⟩

/-- An outcome that acknowledges the delivery settles its job. -/
theorem settled_of_outcomeAction {j : Uuid} {r : Except Raised ProcessResult} {w : World}
    (h : Decided j r w) (hack : outcomeAction r = .ack) : Settled j w := by
  match r with
  | .ok (.action .ack) | .ok (.flag true) => exact h
  | .ok (.action .retry) | .ok (.flag false) => cases hack
  | .error (.worker error) =>
    simp only [Decided, Raised.isTerminal, Bool.not_eq_false'] at h
    simp only [outcomeAction, h, if_true] at hack
    cases hack
  | .error (.leaseLost _) | .error (.valueError _) | .error (.other _) => cases hack

/-- **Handling a delivery** acknowledges its entry only if it need not be kept. -/
theorem wp_handleDelivery (hacks : s.AcksDisposable decoding)
    (hentry : s.stream.entries[n]? = some entry) :
    (handleDelivery decoding config t n entry).wp (deliverySetting decoding files t)
      (fun _ _ _ => True) () s := by
  unfold handleDelivery
  split_ifs with htype
  · exact wp_ackDelivery hentry (.inl (.inl htype))
  · cases htask : entry.task decoding with
    | error e =>
      have hmalformed : Disposable decoding entry s.world := .inl (.inr ⟨e, htask⟩)
      cases e with
      | worker => exact wp_ackDelivery hentry hmalformed
      | valueError => exact wp_ackDelivery hentry hmalformed
      | leaseLost => exact trivial
      | other => exact trivial
    | ok task =>
      simp only [wp_bind, wp_outcome]
      refine wp_mono ?_ (wp_process_delivery hacks hentry)
      rintro r - s' ⟨hdecided, -, hentry'⟩
      cases haction : outcomeAction r with
      | retry => exact trivial
      | ack =>
        have hsettled := settled_of_outcomeAction hdecided haction
        exact wp_ackDelivery hentry' (.inr ⟨task, htask, hsettled⟩)

end Handle

/-! ## Reachable streams -/

namespace QueueWorld

variable {decoding : Decoding} {files : String → ℤ} {s : QueueWorld}
  {c : Pool.Config String (Effect ⊕ QueueEffect) (Sum.elim Effect.Answer QueueEffect.Answer)
    (Except Raised DeliveryAction × Unit) QueueWorld}

/-- Nothing has been delivered, and every job has just been created. -/
def Initial (s : QueueWorld) : Prop := s.world.Initial ∧ s.stream.delivered = 0

/-- **An acknowledged entry** is malformed, or its job does not exist or has ended; so a well-formed
entry of an unfinished job is still to be delivered or pending, however many consumers handle
deliveries, and whenever they stop, lose their lease or fail. -/
theorem acknowledged_disposable (hs : s.Initial) (hc : (deliveries decoding files).Reachable s c)
    {n : ℕ} {entry : StreamEntry} (hentry : c.shared.stream.entries[n]? = some entry) :
    (c.shared.stream.Acknowledged n → Malformed decoding entry ∨
      ∃ task, entry.task decoding = .ok task ∧ (c.shared.world.db.jobs task.jobId = none ∨
        ∃ row, c.shared.world.db.jobs task.jobId = some row ∧ row.state.isTerminal)) ∧
    ∀ task row, ¬ Malformed decoding entry → entry.task decoding = .ok task →
      c.shared.world.db.jobs task.jobId = some row → row.state.isTerminal = false →
      c.shared.stream.delivered ≤ n ∨ (c.shared.stream.pending n).isSome := by
  have henv : ∀ s s', (deliveryDiscipline decoding).inv s → (deliveries decoding files).env s s' →
      (deliveryDiscipline decoding).inv s' ∧ ∀ t, (deliveryDiscipline decoding).rely t s s' := by
    rintro s s' ⟨hinv, hacks⟩ henv
    have hkeeps := Env.keepsEntries henv
    cases henv with
    | world h => exact ⟨⟨World.Env.inv hinv h, hacks.world hkeeps⟩, fun t => ⟨h.relies t, hkeeps⟩⟩
    | stream h => exact ⟨⟨hinv, hacks.stream h⟩, fun _ => ⟨.rfl, hkeeps⟩⟩
  have hstart : ∀ t s p, (deliveryDiscipline decoding).inv s → (deliveryDiscipline decoding).fresh t s →
      (deliveries decoding files).start t s p →
      p.wp ((deliveryDiscipline decoding).setting (deliveries decoding files) t)
        (fun _ _ => True) s := by
    rintro t s _ ⟨-, hacks⟩ - ⟨config, m, entry, -, hentry, rfl⟩
    exact wp_handleDelivery hacks hentry
  have hinit : (deliveryDiscipline decoding).inv s := by
    refine ⟨fun j row hrow => World.jobInv_of_created (hs.1 j row hrow), ?_, fun n _ hack => ?_⟩
    · exact hs.2.le.trans (Nat.zero_le _)
    · exact absurd (hs.2 ▸ hack.1) (Nat.not_lt_zero n)
  obtain ⟨⟨-, hacks⟩, -⟩ :=
    (deliveryDiscipline decoding).sound henv hstart hinit (fun _ => trivial) hc
  refine ⟨fun hack => hacks.disposable n entry hack hentry, ?_⟩
  intro task row hwell htask hrow hunfinished
  by_contra hlost
  rw [not_or, not_le, Bool.not_eq_true, Option.isSome_eq_false_iff, Option.isNone_iff_eq_none]
    at hlost
  obtain hmalformed | ⟨task', htask', hsettled⟩ := hacks.disposable n entry hlost hentry
  · exact hwell hmalformed
  obtain rfl := Except.ok.inj (htask.symm.trans htask')
  obtain hnone | ⟨row', hrow', hterminal⟩ := hsettled
  · cases hrow.symm.trans hnone
  · obtain rfl := Option.some.inj (hrow.symm.trans hrow')
    exact nomatch hunfinished.symm.trans hterminal

/-! ## The delivery of the created job -/

def sampleTrace : Uuid := ⟨"58e0a7c3-6f2d-4f3b-8f0e-9b7a1c2d3e40", by decide⟩

/-- The payload of the created job, and what it decodes to. -/
def samplePayload : List UInt8 :=
  ("\x7b\"job_id\":\"" ++ sampleJob.text ++ "\",\"trace_id\":\"" ++ sampleTrace.text ++
    "\"\x7d").toUTF8.toList

def sampleDecoding : Decoding where
  loads payload := if payload = samplePayload then
      .ok (.object [("job_id", .string sampleJob.text), ("trace_id", .string sampleTrace.text)])
    else .error (.valueError "Expecting value: line 1 column 1 (char 0)")
  uuid text := if h : isCanonicalUuid text.toList then some ⟨text, h⟩ else none

def sampleEntry : StreamEntry := ⟨taskProcessJob, sampleJob.text, samplePayload⟩

/-- The created job, with its published entry. -/
def sample : QueueWorld := ⟨World.sample, [sampleEntry], 0, fun _ => none⟩

/-- A consumer has read the entry. -/
def sampleRead : QueueWorld :=
  ⟨World.sample, [sampleEntry], 1, Function.update (fun _ => none) 0 (some "consumer")⟩

/-- What every effect of a delivery answers if nothing fails. -/
def serve (t : String) : (e : Effect ⊕ QueueEffect) → QueueWorld →
    Sum.elim Effect.Answer QueueEffect.Answer e × QueueWorld
  | .inl e, s =>
    let result := World.serve (fun _ => 4096) World.sampleOutput World.sampleMedia t e s.world
    (result.1, { s with world := result.2 })
  | .inr (.ack n), s => (.ok (), { s with stream := s.stream.ack n })

theorem serve_step (t : String) (e : Effect ⊕ QueueEffect) (s : QueueWorld) :
    Step (fun _ => 4096) t s e (serve t e s).1 (serve t e s).2 := by
  cases e with
  | inl e => exact .world (World.serve_step ..)
  | inr e =>
    cases e with
    | ack n => exact .ack

def sampleDelivery : Prog (Effect ⊕ QueueEffect) (Sum.elim Effect.Answer QueueEffect.Answer)
    (Except Raised DeliveryAction × Unit) :=
  handleDelivery sampleDecoding sampleConfig "attempt" 0 sampleEntry ()

/-- The delivery of the created job, after it has been handled undisturbed. -/
def sampleHandled : QueueWorld := (sampleDelivery.advance (serve "attempt") 200 sampleRead).2

/-- The entry of the created job is acknowledged, as the job has been completed. -/
theorem acknowledged_disposable_completed : sampleHandled.stream.Acknowledged 0 ∧
    (sampleHandled.world.db.jobs sampleJob).map (·.state) = some .completed ∧
    (sampleHandled.stream.Acknowledged 0 → Malformed sampleDecoding sampleEntry ∨
      ∃ task, sampleEntry.task sampleDecoding = .ok task ∧
        (sampleHandled.world.db.jobs task.jobId = none ∨
          ∃ row, sampleHandled.world.db.jobs task.jobId = some row ∧ row.state.isTerminal)) ∧
    ∀ task row, ¬ Malformed sampleDecoding sampleEntry → sampleEntry.task sampleDecoding = .ok task →
      sampleHandled.world.db.jobs task.jobId = some row → row.state.isTerminal = false →
      sampleHandled.stream.delivered ≤ 0 ∨ (sampleHandled.stream.pending 0).isSome := by
  have hread : (deliveries sampleDecoding fun _ => 4096).Reachable sample
      ⟨sampleRead, fun _ => .ready⟩ :=
    Pool.Reachable.init.step (.env (.stream (.read (by decide))))
  have hstart : (deliveries sampleDecoding fun _ => 4096).start "attempt" sampleRead sampleDelivery :=
    ⟨sampleConfig, 0, sampleEntry, Nat.one_pos, rfl, rfl⟩
  have hhandled := hread.launch rfl hstart (serve_step "attempt") 200
  have hentries : sampleHandled.stream.entries[0]? = some sampleEntry := by decide +kernel
  refine ⟨⟨by decide +kernel, by decide +kernel⟩, by decide +kernel, ?_⟩
  exact acknowledged_disposable ⟨World.sample_initial, rfl⟩ hhandled hentries

end QueueWorld

end BoulderFrame
