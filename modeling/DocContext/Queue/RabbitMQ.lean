import DocContext.Queue.Json
import DocContext.Workers.DocumentWorker

/-! The queue on the wire: the bodies `publish` sends, and what `consume` does with any
body it is handed. -/

namespace DocContext

open Foundation Coroutine

/-- The body of a message: `json.dumps(dict(payload)).encode("utf-8")`. -/
def encodeBody (format : FloatFormat) (payload : List (String × JsonValue)) :
    Except PyException ByteArray :=
  (dumps format (.obj (dictOf payload))).map String.toUTF8

/-- `json.loads(body.decode("utf-8"))`. The text of its errors goes to the log alone. -/
def decodeBody (format : FloatFormat) (body : ByteArray) : Except PyException JsonValue :=
  match (String.fromUTF8? body).bind (loads format) with
  | some payload => .ok payload
  | none => .error ⟨.valueError, ""⟩

/-- What a worker awaits: the calls of its jobs, and the settlement of the message in
hand. -/
inductive WorkerCall where
  | job (call : Call)
  | ack
  | reject

@[reducible] def WorkerReply : WorkerCall → Type
  | .job call => Reply call
  | .ack | .reject => Unit

abbrev WorkerTask (α : Type) := Coroutine WorkerCall WorkerReply PyException α

/-- The exit of `message.process(requeue=False)`. -/
def settlement : Except (Raised PyException) Unit → WorkerTask Unit
  | .ok _ => Coroutine.request WorkerCall.ack
  | .error _ => Coroutine.request WorkerCall.reject

/-- `async with message.process(requeue=False)` around a handler, its exceptions logged and
swallowed. -/
def processing (handler : Task Unit) : WorkerTask Unit :=
  ((handler.relay WorkerCall.job fun _ reply => reply).asyncWith settlement).tryExcept
    fun _ => .ret ()

/-- One turn of `consume`, with the handler that `run_worker` gives it. -/
def consumeMessage (env : Env) (format : FloatFormat) (body : ByteArray) : WorkerTask Unit :=
  processing (Coroutine.ofExcept (decodeBody format body) >>= DocumentWorker.handle env)

/-- The job a body asks for; none where no worker can make an envelope of it. -/
def jobOf? (env : Env) (format : FloatFormat) (body : ByteArray) : Option JsonValue :=
  match decodeBody format body with
  | .ok payload =>
    match JobEnvelope.fromPayload env.repr payload with
    | .ok _ => some payload
    | .error _ => none
  | .error _ => none

section Wire

variable {env : Env} {format : FloatFormat}

theorem encodeBody_of_genuine {payload : List (String × JsonValue)}
    (all : (JsonValue.obj payload).all (genuine format)) :
    encodeBody format payload = .ok (String.ofList (writeValue format (.obj payload))).toUTF8 := by
  have distinct : (payload.map Prod.fst).Nodup := by
    simp only [JsonValue.all, genuine, Bool.and_eq_true, decide_eq_true_eq] at all
    exact all.1
  rw [encodeBody, dictOf_of_nodup distinct, dumps, if_pos (intFits_of_genuine _ all)]
  rfl

theorem decodeBody_toUTF8 {payload : JsonValue} (all : payload.all (genuine format)) :
    decodeBody format (String.ofList (writeValue format payload)).toUTF8 = .ok payload := by
  have decoded (text : String) : String.fromUTF8? text.toUTF8 = some text := by
    have valid : text.toUTF8.IsValidUTF8 := text.isValidUTF8
    rw [String.fromUTF8?, dif_pos valid]
    rfl
  rw [decodeBody, decoded, Option.bind_some, loads_writeValue payload all]

theorem genuine_toPayload (format : FloatFormat) (envelope : JobEnvelope) :
    envelope.toPayload.all (genuine format) := by
  obtain ⟨jobId, jobType, clientId, corpusId, documentId, fileType, filePath⟩ := envelope
  cases filePath <;> simp [JobEnvelope.toPayload, JsonValue.all, genuine, intFits]

/-- The body of an envelope is the job of that envelope. -/
theorem jobOf_encodeBody (env : Env) (format : FloatFormat) {envelope : JobEnvelope}
    (wellFormed : envelope.WellFormed) :
    ∃ payload body, envelope.toPayload = .obj payload ∧ encodeBody format payload = .ok body ∧
      jobOf? env format body = some envelope.toPayload := by
  have genuine := genuine_toPayload format envelope
  obtain ⟨payload, same⟩ : ∃ payload, envelope.toPayload = .obj payload := ⟨_, rfl⟩
  refine ⟨payload, _, same, encodeBody_of_genuine (same ▸ genuine), ?_⟩
  rw [← same]
  simp only [jobOf?, decodeBody_toUTF8 genuine,
    JobEnvelope.fromPayload_of_wellFormed env.repr wellFormed]

/-- The message is about to be settled, and whatever comes of it the turn is over. -/
def Settling (task : WorkerTask Unit) : Prop :=
  ∃ call resume, task = .await call resume ∧ (call = .ack ∨ call = .reject) ∧
    ∀ reply, (resume reply).ended = true

theorem settling_request {call : WorkerCall} (settles : call = .ack ∨ call = .reject)
    (last : WorkerReply call → WorkerTask Unit) (ended : ∀ reply, (last reply).ended = true)
    (swallow : PyException → WorkerTask Unit) (swallowed : ∀ error, (swallow error).ended = true) :
    Settling (((Coroutine.request call).bind last).tryExcept swallow) := by
  refine ⟨call, _, rfl, settles, fun reply => ?_⟩
  have concluded (task : WorkerTask Unit) (ended : task.ended = true) :
      (task.tryExcept swallow).ended = true := by
    cases task with
    | ret value => rfl
    | raise raised =>
      cases raised with
      | exception error => exact swallowed error
      | cancelled => rfl
    | await call resume => cases ended
  apply concluded
  cases reply with
  | ok value => exact ended value
  | error raised => rfl

theorem processing_ended {handler : Task Unit} (ended : handler.ended = true) :
    Settling (processing handler) := by
  cases handler with
  | ret value =>
    exact settling_request (.inl rfl) (fun _ => .ret value) (fun _ => rfl) _ fun _ => rfl
  | raise raised =>
    exact settling_request (.inr rfl) (fun _ => .raise raised) (fun _ => rfl) _ fun _ => rfl
  | await call resume => cases ended

theorem processing_await (call : Call) (resume : Except (Raised PyException) (Reply call) → Task Unit) :
    processing (.await call resume) = .await (.job call) fun reply => processing (resume reply) := rfl

theorem processing_job {handler : Task Unit} {call : Call}
    {resume : Except (Raised PyException) (Reply call) → WorkerTask Unit}
    (waits : processing handler = .await (.job call) resume) :
    ∃ resume', handler = .await call resume' ∧ resume = fun reply => processing (resume' reply) := by
  cases handler with
  | ret value => cases waits
  | raise raised => cases waits
  | await call' resume' =>
    rw [processing_await] at waits
    cases waits
    exact ⟨resume', rfl, rfl⟩

theorem processing_running (handler : Task Unit) : (processing handler).ended = false := by
  cases handler <;> rfl

theorem consumeMessage_poison {body : ByteArray} (poison : jobOf? env format body = none) :
    Settling (consumeMessage env format body) := by
  apply processing_ended
  unfold jobOf? at poison
  cases decoded : decodeBody format body with
  | error error => rfl
  | ok payload =>
    simp only [decoded] at poison
    cases read : JobEnvelope.fromPayload env.repr payload with
    | ok envelope =>
      rw [read] at poison
      cases poison
    | error error =>
      change (DocumentWorker.handle env payload).ended = true
      rw [DocumentWorker.handle, read]
      rfl

theorem consumeMessage_job {body : ByteArray} {message : JsonValue}
    (asks : jobOf? env format body = some message) :
    consumeMessage env format body = processing (DocumentWorker.handle env message) := by
  unfold jobOf? at asks
  cases decoded : decodeBody format body with
  | error error => simp only [decoded] at asks; cases asks
  | ok payload =>
    simp only [decoded] at asks
    split at asks
    · cases asks
      rw [consumeMessage, decoded]
      rfl
    · cases asks

end Wire

/-- What is published is read back: a mapping of any values that Python can write, its
strings without surrogates and its nesting within the limits of the interpreter, has a
body of ASCII bytes, and the consumer decodes that body to the same mapping. -/
theorem body_round_trip (format : FloatFormat) (payload : List (String × JsonValue))
    (all : (JsonValue.obj payload).all (genuine format)) :
    ∃ body, encodeBody format payload = .ok body ∧
      (∀ byte ∈ body.data.toList, byte.toNat < 128) ∧
        decodeBody format body = .ok (.obj payload) := by
  refine ⟨_, encodeBody_of_genuine all, ?_, decodeBody_toUTF8 all⟩
  rw [String.toUTF8_eq_toByteArray, String.toByteArray_ofList]
  exact ascii_utf8Encode (ascii_writeValue _)

/-- Floats that are integers, up to where exponents begin. -/
def Sample.floats : FloatFormat where
  spell := fun value => ⟨value < 0, Nat.toDigits 10 value.num.natAbs, ['0'], []⟩
  wellFormed := fun value =>
    ⟨whole_toDigits value.num.natAbs, by simp, .inl rfl⟩
  pointed := fun _ => rfl
  read := fun numeral => .finite numeral.toInt

private def oddPayload : List (String × JsonValue) :=
  [("name", .str "\"\nü☃😀"), ("size", .int (-120)),
    ("parts", .arr [.null, .bool true, .float (.finite 2), .float (.inf true), .obj []])]

/-- A payload of every kind of value, with a character beyond the basic plane. -/
theorem body_round_trip_sample :
    ∃ body, encodeBody Sample.floats oddPayload = .ok body ∧
      (∀ byte ∈ body.data.toList, byte.toNat < 128) ∧
      decodeBody Sample.floats body = .ok (.obj oddPayload) :=
  body_round_trip Sample.floats oddPayload (by decide +kernel)

end DocContext
