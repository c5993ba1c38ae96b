import DocContext.Models

/-! `JobEnvelope`, the wire format of the job queue. -/

namespace DocContext

structure JobEnvelope where
  jobId : String
  jobType : JobType
  clientId : String
  corpusId : String
  documentId : String
  fileType : String
  filePath : Option String
deriving DecidableEq, Repr

/-- `JobType(value)`. -/
def JobType.ofValue (repr : JsonValue → String) (value : JsonValue) : Except PyException JobType :=
  let invalid := .error ⟨.valueError, repr value ++ " is not a valid JobType"⟩
  match value with
  | .str name => (JobType.ofName? name).elim invalid .ok
  | _ => invalid

namespace JobEnvelope

/-- The body of the `try` statement of `from_payload`. -/
def read (repr : JsonValue → String) (payload : JsonValue) : Except PyException JobEnvelope := do
  let rawType ← payload.subscript "job_type"
  let jobId ← payload.subscript "job_id"
  let jobType ← JobType.ofValue repr rawType
  let clientId ← payload.subscript "client_id"
  let corpusId ← payload.subscript "corpus_id"
  let documentId ← payload.subscript "document_id"
  let fileType ← payload.get "file_type"
  let filePath ← payload.get "file_path"
  return {
    jobId := jobId.pyStr repr
    jobType
    clientId := clientId.pyStr repr
    corpusId := corpusId.pyStr repr
    documentId := documentId.pyStr repr
    fileType := ((fileType.filter JsonValue.truthy).map (JsonValue.pyStr repr)).getD ""
    filePath := (filePath.filter JsonValue.truthy).map (JsonValue.pyStr repr) }

def fromPayload (repr : JsonValue → String) (payload : JsonValue) : Except PyException JobEnvelope :=
  match read repr payload with
  | .ok envelope => .ok envelope
  | .error error =>
    if error.isKeyError || error.isValueError then
      .error ⟨.malformedJobEnvelope, "payload is not a valid job envelope: " ++ error.text⟩
    else .error error

def toPayload (envelope : JobEnvelope) : JsonValue :=
  .obj [
    ("job_id", .str envelope.jobId),
    ("job_type", .str envelope.jobType.name),
    ("client_id", .str envelope.clientId),
    ("corpus_id", .str envelope.corpusId),
    ("document_id", .str envelope.documentId),
    ("file_type", .str envelope.fileType),
    ("file_path", envelope.filePath.elim .null .str)]

/-- Reading back what was sent only turns an empty path into none. -/
theorem fromPayload_toPayload (repr : JsonValue → String) (envelope : JobEnvelope) :
    fromPayload repr envelope.toPayload =
      .ok { envelope with filePath := envelope.filePath.filter fun path => path ≠ "" } := by
  obtain ⟨jobId, jobType, clientId, corpusId, documentId, fileType, filePath⟩ := envelope
  have type : ((Option.filter JsonValue.truthy (some (.str fileType))).map
      (JsonValue.pyStr repr)).getD "" = fileType := by
    by_cases empty : fileType = "" <;> simp [Option.filter, JsonValue.truthy, JsonValue.pyStr, empty]
  have path : (Option.filter JsonValue.truthy (some (filePath.elim .null .str))).map
      (JsonValue.pyStr repr) = filePath.filter fun path => path ≠ "" := by
    cases filePath with
    | none => rfl
    | some path =>
      by_cases empty : path = "" <;> simp [Option.filter, JsonValue.truthy, JsonValue.pyStr, empty]
  simp [fromPayload, read, toPayload, JsonValue.subscript, JsonValue.get, List.lookup,
    JobType.ofValue, JsonValue.pyStr, bind, Except.bind, pure, Except.pure, type, path]

/-- An envelope as the two handlers build it: a path is not empty. -/
def WellFormed (envelope : JobEnvelope) : Prop := envelope.filePath ≠ some ""

instance (envelope : JobEnvelope) : Decidable envelope.WellFormed :=
  inferInstanceAs (Decidable (_ ≠ _))

theorem fromPayload_of_wellFormed (repr : JsonValue → String) {envelope : JobEnvelope}
    (wellFormed : envelope.WellFormed) : fromPayload repr envelope.toPayload = .ok envelope := by
  rw [fromPayload_toPayload]
  obtain ⟨jobId, jobType, clientId, corpusId, documentId, fileType, filePath⟩ := envelope
  cases filePath with
  | none => rfl
  | some path =>
    have nonempty : path ≠ "" := fun empty => wellFormed (congrArg some empty)
    simp [Option.filter, nonempty]

end JobEnvelope

end DocContext
