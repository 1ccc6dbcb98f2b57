import BoulderFrame.Queue.Delivery

/-!
# The stream transport

The transport asks Redis for entries and submits their deliveries to its pool. The entries of a
reply are decoded together, before the first delivery is submitted, so that an entry that is no text
ends the whole loop.

## Main definitions

* `text`: `_text`, the strict decoding of bytes
* `RawEntry`, `delivery`: an entry of a reply, and its decoding
* `serveTurn`: one turn of the loop of `RedisStreamsTransport.serve`
* `Isolated`: every entry is dispatched, and a malformed one is only acknowledged

## Main results

* `exists_delivery`: the entries that are decoded
* `serveTurn_isolated_iff`: the replies whose entries are treated on their own
-/

namespace BoulderFrame

/-! ## Texts -/

def utf8 (s : String) : List UInt8 := s.toByteArray.data.toList

/-- `_text` on bytes; `UnicodeDecodeError` is a `ValueError`. -/
def text (value : List UInt8) : Except Raised String :=
  match String.fromUTF8? ⟨value.toArray⟩ with
  | some decoded => .ok decoded
  | none => .error (.valueError "'utf-8' codec can't decode bytes")

theorem text_eq_ok {value : List UInt8} {s : String} : text value = .ok s ↔ value = utf8 s := by
  constructor
  · intro h
    rw [text, String.fromUTF8?] at h
    split at h
    · rename_i decoded hdecoded
      split at hdecoded
      · obtain rfl := Option.some.inj hdecoded
        obtain rfl := Except.ok.inj h
        rw [utf8, String.fromUTF8]
      · cases hdecoded
    · cases h
  · rintro rfl
    have hbytes : (⟨(utf8 s).toArray⟩ : ByteArray) = s.toByteArray := by
      rw [utf8, Array.toArray_toList]
    rw [text, hbytes, String.fromUTF8?, dif_pos s.isValidUTF8]
    rfl

@[simp] theorem text_utf8 (s : String) : text (utf8 s) = .ok s := text_eq_ok.mpr rfl

theorem utf8_injective : Function.Injective utf8 := fun s t h =>
  Except.ok.inj ((text_utf8 s).symm.trans (h ▸ text_utf8 t))

/-! ## Entries -/

/-- An entry of a reply: a mapping from names to values, all of them bytes. -/
structure RawEntry where
  entryId : ℕ
  fields : List (List UInt8 × List UInt8)
  keys : (fields.map Prod.fst).Nodup

structure RedisStreamDelivery where
  entryId : ℕ
  entry : StreamEntry
  deriving DecidableEq

/-- The names of the fields as texts; different bytes are different texts. -/
def normalize (fields : List (List UInt8 × List UInt8)) :
    Except Raised (List (String × List UInt8)) :=
  fields.mapM fun field => do
    let key ← text field.1
    .ok (key, field.2)

/-- `_delivery` -/
def delivery (raw : RawEntry) : Except Raised RedisStreamDelivery := do
  let normalized ← normalize raw.fields
  let payload := (normalized.lookup "payload").getD []
  let taskType ← text ((normalized.lookup "type").getD [])
  let taskId ← text ((normalized.lookup "task_id").getD [])
  .ok ⟨raw.entryId, ⟨taskType, taskId, payload⟩⟩

namespace RawEntry

variable (raw : RawEntry)

/-- The value of a field, no bytes without the field. -/
def value (key : String) : List UInt8 := (raw.fields.lookup (utf8 key)).getD []

/-- The names of the fields are texts, and so are the type and the id of the task. -/
structure Readable : Prop where
  names : ∀ field ∈ raw.fields, ∃ name, text field.1 = .ok name
  taskType : ∃ taskType, text (raw.value "type") = .ok taskType
  taskId : ∃ taskId, text (raw.value "task_id") = .ok taskId

end RawEntry

theorem normalize_lookup {fields : List (List UInt8 × List UInt8)}
    {normalized : List (String × List UInt8)} (h : normalize fields = .ok normalized)
    (key : String) : normalized.lookup key = fields.lookup (utf8 key) := by
  rw [normalize, Except.mapM_eq_ok] at h
  induction h with
  | nil => rfl
  | @cons field entry fields normalized hfield _ ih =>
    obtain ⟨name, hname, hentry⟩ := Except.bind_eq_ok.mp hfield
    obtain rfl := Except.ok.inj hentry
    rw [List.lookup_cons, List.lookup_cons, ih, text_eq_ok.mp hname]
    by_cases hkey : key = name
    · rw [hkey, beq_self_eq_true, beq_self_eq_true]
    · rw [beq_false_of_ne hkey, beq_false_of_ne (utf8_injective.ne hkey)]

theorem exists_normalize {fields : List (List UInt8 × List UInt8)} :
    (∃ normalized, normalize fields = .ok normalized) ↔
      ∀ field ∈ fields, ∃ name, text field.1 = .ok name := by
  rw [normalize, Except.exists_mapM_iff]
  refine forall₂_congr fun field _ => ⟨?_, ?_⟩
  · rintro ⟨entry, h⟩
    obtain ⟨name, hname, -⟩ := Except.bind_eq_ok.mp h
    exact ⟨name, hname⟩
  · rintro ⟨name, hname⟩
    exact ⟨(name, field.2), by rw [hname]; rfl⟩

theorem delivery_eq_ok {raw : RawEntry} {d : RedisStreamDelivery} : delivery raw = .ok d ↔
    (∀ field ∈ raw.fields, ∃ name, text field.1 = .ok name) ∧
      text (raw.value "type") = .ok d.entry.taskType ∧
      text (raw.value "task_id") = .ok d.entry.taskId ∧
      d.entryId = raw.entryId ∧ d.entry.payload = raw.value "payload" := by
  rw [← exists_normalize, delivery, Except.bind_eq_ok]
  constructor
  · rintro ⟨normalized, hnormalized, h⟩
    simp only [normalize_lookup hnormalized] at h
    obtain ⟨taskType, htype, h⟩ := Except.bind_eq_ok.mp h
    obtain ⟨taskId, hid, h⟩ := Except.bind_eq_ok.mp h
    obtain rfl := Except.ok.inj h
    exact ⟨⟨normalized, hnormalized⟩, htype, hid, rfl, rfl⟩
  · rintro ⟨⟨normalized, hnormalized⟩, htype, hid, hentry, hpayload⟩
    obtain ⟨entryId, taskType, taskId, payload⟩ := d
    obtain rfl : entryId = raw.entryId := hentry
    obtain rfl : payload = raw.value "payload" := hpayload
    refine ⟨normalized, hnormalized, ?_⟩
    simp only [normalize_lookup hnormalized]
    rw [RawEntry.value] at htype hid
    rw [htype, hid]
    rfl

/-- **The entries that are decoded.** -/
theorem exists_delivery {raw : RawEntry} : (∃ d, delivery raw = .ok d) ↔ raw.Readable := by
  constructor
  · rintro ⟨d, h⟩
    obtain ⟨hnames, htype, hid, -⟩ := delivery_eq_ok.mp h
    exact ⟨hnames, ⟨_, htype⟩, ⟨_, hid⟩⟩
  · rintro ⟨hnames, ⟨taskType, htype⟩, taskId, hid⟩
    exact ⟨⟨raw.entryId, ⟨taskType, taskId, raw.value "payload"⟩⟩,
      delivery_eq_ok.mpr ⟨hnames, htype, hid, rfl, rfl⟩⟩

/-! ## A turn of the loop -/

/-- `REDIS_CONNECTION_ERRORS` -/
def isConnectionError : Raised → Bool
  | .other name => name ∈ ["ConnectionError", "TimeoutError"]
  | _ => false

/-- `_reclaim`, from the reply of `XAUTOCLAIM`: the next cursor, and the entries. -/
def reclaim (result : Option (String × List RawEntry)) :
    Except Raised (List RedisStreamDelivery) :=
  match result with
  | none => .ok []
  | some (_, entries) => entries.mapM delivery

/-- `_read`, from the reply of `XREADGROUP`: the entries of each stream. -/
def read (result : List (String × List RawEntry)) : Except Raised (List RedisStreamDelivery) :=
  (result.flatMap Prod.snd).mapM delivery

/-- What a turn of the loop with a free thread does. -/
inductive ServeTurn
  /-- the deliveries are submitted to the pool, each with the handler -/
  | submits (deliveries : List RedisStreamDelivery)
  /-- the loop waits and asks again -/
  | waits
  /-- `serve` raises -/
  | raises (e : Raised)
  deriving DecidableEq

/-- A turn of the loop of `serve`, with the answers of Redis to the two commands. -/
def serveTurn (claimed : Except Raised (Option (String × List RawEntry)))
    (unread : Except Raised (List (String × List RawEntry))) : ServeTurn :=
  let deliveries : Except Raised (List RedisStreamDelivery) := do
    let result ← claimed
    let reclaimed ← reclaim result
    if reclaimed = [] then
      let result ← unread
      read result
    else .ok reclaimed
  match deliveries with
  | .ok deliveries => .submits deliveries
  | .error e => if isConnectionError e then .waits else .raises e

/-- The entries of the reply that a turn takes its deliveries from. -/
def repliedEntries (claimed : Option (String × List RawEntry))
    (unread : List (String × List RawEntry)) : List RawEntry :=
  match claimed with
  | some (_, entry :: entries) => entry :: entries
  | _ => unread.flatMap Prod.snd

/-! ## Entries on their own -/

section Isolated

variable (decoding : Decoding) (config : WorkerConfig)

/-- There is no task in an entry. -/
def RawEntry.Malformed (raw : RawEntry) : Prop :=
  ¬ ∃ d task, delivery raw = .ok d ∧ d.entry.taskType = taskProcessJob ∧
    d.entry.task decoding = .ok task

/-- Every entry of a reply is dispatched as what it says, and one without a task is acknowledged
without running the processor. -/
def Isolated (turn : ServeTurn) (entries : List RawEntry) : Prop :=
  ∃ deliveries, turn = .submits deliveries ∧
    List.Forall₂ (fun raw d => delivery raw = .ok d ∧ (raw.Malformed decoding → ∀ attemptId,
      handleDelivery decoding config attemptId d.entryId d.entry = ackDelivery raw.entryId))
      entries deliveries

/-- What the handler of a delivery catches when it decodes the task. -/
def Raised.isRejection : Raised → Bool
  | .worker _ | .valueError _ => true
  | _ => false

/-- The payload of a job's entry is JSON, or raises a `ValueError`. -/
def RawEntry.Parses (raw : RawEntry) : Prop :=
  text (raw.value "type") = .ok taskProcessJob →
    ∀ e, decoding.loads (raw.value "payload") = .error e → e.isRejection

variable {decoding config}

/-- A turn takes its deliveries from one reply. -/
theorem serveTurn_eq (claimed : Option (String × List RawEntry))
    (unread : List (String × List RawEntry)) :
    serveTurn (.ok claimed) (.ok unread) =
      match (repliedEntries claimed unread).mapM delivery with
      | .ok deliveries => .submits deliveries
      | .error e => if isConnectionError e then .waits else .raises e := by
  match claimed with
  | none => rfl
  | some (_, []) => rfl
  | some (_, entry :: entries) =>
    rw [serveTurn, Except.ok_bind, reclaim, repliedEntries]
    cases hdeliveries : (entry :: entries).mapM delivery with
    | error e => rfl
    | ok deliveries =>
      have hne : deliveries ≠ [] := by
        rintro rfl
        cases Except.mapM_eq_ok.mp hdeliveries
      rw [Except.ok_bind, if_neg hne]

theorem fromPayload_error {json : Json} {e : Raised}
    (h : JobTask.fromPayload decoding json = .error e) : e = invalidTask := by
  unfold JobTask.fromPayload at h
  split at h
  · split_ifs at h
    · exact (Except.error.inj h).symm
    · split at h
      · split_ifs at h
        · exact (Except.error.inj h).symm
        · split at h
          · cases h
          · exact (Except.error.inj h).symm
      · exact (Except.error.inj h).symm
  · exact (Except.error.inj h).symm

/-- Past the JSON parser the decoding of a task raises only what the handler catches. -/
theorem task_error {entry : StreamEntry} {e : Raised} (h : entry.task decoding = .error e) :
    decoding.loads entry.payload = .error e ∨ e.isRejection := by
  rw [StreamEntry.task] at h
  cases hloads : decoding.loads entry.payload with
  | error e' =>
    rw [hloads, Except.error_bind] at h
    exact .inl (congrArg _ (Except.error.inj h))
  | ok json =>
    refine .inr ?_
    rw [hloads, Except.ok_bind] at h
    cases htask : JobTask.fromPayload decoding json with
    | error e' =>
      rw [htask] at h
      obtain rfl := Except.error.inj h
      rw [fromPayload_error htask]
      rfl
    | ok task =>
      rw [htask, Except.ok_bind] at h
      split at h
      · obtain rfl := Except.error.inj h
        rfl
      · split_ifs at h
        obtain rfl := Except.error.inj h
        rfl

/-- A delivery without a task is acknowledged, unless the JSON parser raises what is not caught. -/
theorem handleDelivery_of_error {entryId : ℕ} {entry : StreamEntry} {e : Raised} {attemptId : String}
    (htype : entry.taskType = taskProcessJob) (h : entry.task decoding = .error e) :
    handleDelivery decoding config attemptId entryId entry = ackDelivery entryId ↔ e.isRejection := by
  rw [handleDelivery, if_neg (not_not.mpr htype), h]
  cases e with
  | worker error => exact iff_of_true rfl rfl
  | valueError message => exact iff_of_true rfl rfl
  | leaseLost message => exact iff_of_false (fun h => nomatch congrFun h ()) Bool.false_ne_true
  | other name => exact iff_of_false (fun h => nomatch congrFun h ()) Bool.false_ne_true

/-- **The replies whose entries are treated on their own**: the names of their fields, their types
and their task ids are texts, and the JSON parser only raises what the handler catches. -/
theorem serveTurn_isolated_iff (decoding : Decoding) (config : WorkerConfig)
    (claimed : Option (String × List RawEntry)) (unread : List (String × List RawEntry)) :
    Isolated decoding config (serveTurn (.ok claimed) (.ok unread))
        (repliedEntries claimed unread) ↔
      ∀ raw ∈ repliedEntries claimed unread, raw.Readable ∧ raw.Parses decoding := by
  rw [serveTurn_eq]
  generalize repliedEntries claimed unread = entries
  constructor
  · rintro ⟨deliveries, -, hall⟩ raw hraw
    obtain ⟨d, -, hd, hmalformed⟩ := hall.flip.exists_left hraw
    obtain ⟨-, htype, -, hentry, hpayload⟩ := delivery_eq_ok.mp hd
    refine ⟨exists_delivery.mp ⟨d, hd⟩, fun hjob e he => ?_⟩
    have hprocess : d.entry.taskType = taskProcessJob := Except.ok.inj (htype.symm.trans hjob)
    have htask : d.entry.task decoding = .error e := by
      rw [StreamEntry.task, hpayload, he, Except.error_bind]
    have hnone : raw.Malformed decoding := by
      rintro ⟨d', task, hd', -, htask'⟩
      obtain rfl := Except.ok.inj (hd.symm.trans hd')
      cases htask.symm.trans htask'
    have hack := hmalformed hnone ""
    rw [← hentry] at hack
    exact (handleDelivery_of_error hprocess htask).mp hack
  · intro h
    obtain ⟨deliveries, hdeliveries⟩ := Except.exists_mapM_iff.mpr fun raw hraw =>
      exists_delivery.mpr (h raw hraw).1
    rw [hdeliveries]
    refine ⟨deliveries, rfl, ?_⟩
    have hparses : ∀ raw ∈ entries, raw.Parses decoding := fun raw hraw => (h raw hraw).2
    refine (List.forall₂_and_left (p := fun raw : RawEntry => raw.Parses decoding) _ _).mpr
      ⟨hparses, Except.mapM_eq_ok.mp hdeliveries⟩ |>.imp ?_
    rintro raw d ⟨hparse, hd⟩
    obtain ⟨-, htype, -, hentry, hpayload⟩ := delivery_eq_ok.mp hd
    refine ⟨hd, fun hmalformed attemptId => ?_⟩
    rw [← hentry]
    by_cases hprocess : d.entry.taskType = taskProcessJob
    · cases htask : d.entry.task decoding with
      | ok task => exact absurd ⟨d, task, hd, hprocess, htask⟩ hmalformed
      | error e =>
        refine (handleDelivery_of_error hprocess htask).mpr ?_
        obtain hloads | hrejection := task_error htask
        · rw [hpayload] at hloads
          exact hparse (hprocess ▸ htype) e hloads
        · exact hrejection
    · rw [handleDelivery, if_pos hprocess]

end Isolated

/-! ## An entry that is no text -/

/-- The type of this entry is no text. -/
def brokenEntry : RawEntry := ⟨1, [(utf8 "type", [0xff])], by decide +kernel⟩

/-- The published entry of the created job. -/
def publishedRaw : RawEntry :=
  ⟨2, [(utf8 "type", utf8 taskProcessJob), (utf8 "task_id", utf8 QueueWorld.sampleEntry.taskId),
    (utf8 "payload", QueueWorld.sampleEntry.payload)], by decide +kernel⟩

/-- **One entry that is no text** makes `serve` raise, and the entry of a job behind it is not
dispatched. -/
theorem brokenEntry_not_isolated :
    delivery publishedRaw = .ok ⟨2, QueueWorld.sampleEntry⟩ ∧
      serveTurn (.ok (some ("0-0", [brokenEntry, publishedRaw]))) (.ok []) =
        .raises (.valueError "'utf-8' codec can't decode bytes") ∧
      ¬ Isolated QueueWorld.sampleDecoding sampleConfig
        (serveTurn (.ok (some ("0-0", [brokenEntry, publishedRaw]))) (.ok []))
        [brokenEntry, publishedRaw] := by
  have hraises : serveTurn (.ok (some ("0-0", [brokenEntry, publishedRaw]))) (.ok []) =
      .raises (.valueError "'utf-8' codec can't decode bytes") := by decide +kernel
  refine ⟨by decide +kernel, hraises, ?_⟩
  rintro ⟨deliveries, h, -⟩
  cases hraises.symm.trans h

end BoulderFrame
