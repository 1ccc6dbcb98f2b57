import BoulderFrame.Library.Json
import BoulderFrame.Worker.Process
import Mathlib.Data.Finset.Insert

/-!
# The queue adapter

An entry of the Redis stream is decoded to a task, the task is processed, and the outcome decides
whether the entry is acknowledged or kept pending.

## Main definitions

* `StreamEntry`, `Decoding`: the normalized fields of an entry, and the functions that decode them
* `StreamEntry.task`, `Malformed`: the task of an entry, and the entries without one
* `handleDelivery`: `QueueConsumerAdapter.handle`
-/

namespace BoulderFrame

/-- The fields of a delivery. -/
structure StreamEntry where
  taskType : String
  taskId : String
  payload : List UInt8
  deriving DecidableEq

/-- `json.loads`, and `UUID` on a text, which raises `ValueError` if it returns none. -/
structure Decoding where
  loads : List UInt8 → Except Raised Json
  uuid : String → Option Uuid

def taskProcessJob : String := "job.process"

def invalidTask : Raised := .worker (.terminal .invalidTask "Worker task payload is invalid." none)

section Decode

variable (decoding : Decoding)

/-- `JobTask.from_payload` -/
def JobTask.fromPayload : Json → Except Raised JobTask
  | .object fields =>
    if (fields.map (·.1)).toFinset ≠ ({"job_id", "trace_id"} : Finset String) then .error invalidTask
    else match fields.lookup "job_id", fields.lookup "trace_id" with
      | some (.string value), some (.string traceId) =>
        if traceId = "" then .error invalidTask
        else match decoding.uuid value, decoding.uuid traceId with
          | some jobId, some traceId => .ok ⟨jobId, traceId.text⟩
          | _, _ => .error invalidTask
      | _, _ => .error invalidTask
  | _ => .error invalidTask

/-- The task of an entry, if its own id is that of the job. -/
def StreamEntry.task (entry : StreamEntry) : Except Raised JobTask := do
  let payload ← decoding.loads entry.payload
  let task ← JobTask.fromPayload decoding payload
  match decoding.uuid entry.taskId with
  | none => .error (.valueError "badly formed hexadecimal UUID string")
  | some taskId =>
    if task.jobId ≠ taskId then
      .error (.valueError "stream task ID does not match its payload")
    else .ok task

/-- An entry of another type, with a bad payload, or with another id than its job. The backend
publishes none. -/
def Malformed (entry : StreamEntry) : Prop :=
  entry.taskType ≠ taskProcessJob ∨ ∃ e, entry.task decoding = .error e

end Decode

/-- The one effect of a delivery on the stream; keeping it pending has none. -/
inductive QueueEffect
  | ack (entry : ℕ)

abbrev QueueEffect.Answer : QueueEffect → Type
  | .ack _ => Except Raised Unit

abbrev DeliveryRoutine (α : Type) :=
  Routine (Effect ⊕ QueueEffect) (Sum.elim Effect.Answer QueueEffect.Answer) Raised Unit α

open Routine

/-- What the outcome of the processor means for the delivery. -/
def outcomeAction : Except Raised ProcessResult → DeliveryAction
  | .error (.worker error) => if error.transient then .retry else .ack
  | .error _ => .retry
  | .ok (.action .retry) | .ok (.flag false) => .retry
  | .ok _ => .ack

/-- `delivery.ack()`, and the action that is returned -/
def ackDelivery (entryId : ℕ) : DeliveryRoutine DeliveryAction := do
  call (Sum.inr (QueueEffect.ack entryId) : Effect ⊕ QueueEffect) rfl
  pure .ack

/-- `QueueConsumerAdapter.handle`, for an attempt with the given token. -/
def handleDelivery (decoding : Decoding) (config : WorkerConfig) (attemptId : String)
    (entryId : ℕ) (entry : StreamEntry) : DeliveryRoutine DeliveryAction :=
  if entry.taskType ≠ taskProcessJob then ackDelivery entryId
  else match entry.task decoding with
    | .error (.worker _) | .error (.valueError _) => ackDelivery entryId
    | .error e => raise e
    | .ok task => do
      let outcome ← outcome (inl (process config pipelineHandlers attemptId task)) ()
      match outcomeAction outcome with
      | .retry => pure .retry
      | .ack => ackDelivery entryId

end BoulderFrame
