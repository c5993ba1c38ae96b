import DocContext.Foundation.Outcome
import DocContext.Services.Submission

/-! The job envelope as a codec: what the decoder makes of a message body, whatever
JSON it is, and that what it returns survives the wire. -/

namespace DocContext

open Foundation

namespace JobEnvelope

/-- The body is an object with the five fields every job has, and its type is one of
the two names. -/
def Readable (payload : JsonValue) : Prop :=
  ∃ entries, payload = .obj entries ∧
    (∀ key ∈ ["job_id", "job_type", "client_id", "corpus_id", "document_id"],
      (entries.lookup key).isSome) ∧
    ∃ type : JobType, entries.lookup "job_type" = some (.str type.name)

/-- An envelope sent as a message and read back: `publish`, then `consume`. -/
def travel (repr : JsonValue → String) (dumps : JsonValue → String)
    (loads : String → Except PyException JsonValue) (envelope : JobEnvelope) :
    Except PyException JobEnvelope :=
  loads (dumps envelope.toPayload) >>= fromPayload repr

/-- The error is what `from_payload` catches. -/
abbrev Caught (error : PyException) : Prop := (error.isKeyError || error.isValueError) = true

abbrev Malformed (error : PyException) : Prop := error.type = .malformedJobEnvelope

section Decoder

variable {repr : JsonValue → String} {payload : JsonValue} {entries : List (String × JsonValue)}
  {α : Type} {raises : PyException → Prop}

theorem promises_of_forall {computed : Except PyException α} {returns : α → Prop}
    (all : ∀ value, returns value) (errors : ∀ error, computed = .error error → raises error) :
    Promises returns raises computed := by
  cases computed with
  | ok value => exact all value
  | error error => exact errors error rfl

theorem subscript_ok {key : String} {value : JsonValue} :
    (JsonValue.obj entries).subscript key = .ok value ↔ entries.lookup key = some value := by
  cases found : entries.lookup key <;> simp [JsonValue.subscript, found]

theorem subscript_caught {key : String} {error : PyException}
    (raised : (JsonValue.obj entries).subscript key = .error error) : Caught error := by
  cases found : entries.lookup key <;> simp only [JsonValue.subscript, found] at raised <;>
    cases raised
  rfl

theorem ofValue_caught {value : JsonValue} {error : PyException}
    (raised : JobType.ofValue repr value = .error error) : Caught error := by
  have invalid {text : String} : Caught ⟨.valueError, text⟩ := rfl
  cases value with
  | str name =>
    cases named : JobType.ofName? name <;> simp only [JobType.ofValue, named, Option.elim] at raised <;>
      cases raised
    exact invalid
  | _ =>
    cases raised
    exact invalid

theorem ofName_some {name : String} {type : JobType} (named : JobType.ofName? name = some type) :
    name = type.name := by
  unfold JobType.ofName? at named
  split at named
  · cases named
    assumption
  · split at named
    · cases named
      assumption
    · cases named

theorem ofValue_ok {value : JsonValue} {type : JobType} :
    JobType.ofValue repr value = .ok type ↔ value = .str type.name := by
  constructor
  · intro read
    cases value with
    | str name =>
      cases named : JobType.ofName? name with
      | none => simp [JobType.ofValue, named] at read
      | some found =>
        simp only [JobType.ofValue, named, Option.elim, Except.ok.injEq] at read
        subst read
        rw [ofName_some named]
    | _ => cases read
  · intro same
    subst same
    simp [JobType.ofValue]

theorem read_obj (entries : List (String × JsonValue)) :
    Promises (fun _ => True) Caught (read repr (.obj entries)) := by
  unfold read
  refine promises_bind.mpr (promises_of_forall (fun rawType => ?_) fun _ => subscript_caught)
  refine promises_bind.mpr (promises_of_forall (fun jobId => ?_) fun _ => subscript_caught)
  refine promises_bind.mpr (promises_of_forall (fun jobType => ?_) fun _ => ofValue_caught)
  refine promises_bind.mpr (promises_of_forall (fun clientId => ?_) fun _ => subscript_caught)
  refine promises_bind.mpr (promises_of_forall (fun corpusId => ?_) fun _ => subscript_caught)
  refine promises_bind.mpr (promises_of_forall (fun documentId => ?_) fun _ => subscript_caught)
  trivial

theorem read_other (other : ∀ entries, payload ≠ .obj entries) :
    ∃ text, read repr payload = .error ⟨.typeError, text⟩ := by
  cases payload with
  | obj entries => exact absurd rfl (other entries)
  | _ => exact ⟨_, rfl⟩

/-- What an envelope that is read is made of. -/
theorem read_ok {envelope : JobEnvelope} :
    read repr payload = .ok envelope ↔
      ∃ entries jobId jobType clientId corpusId documentId, payload = .obj entries ∧
        entries.lookup "job_type" = some (.str (JobType.name jobType)) ∧
        entries.lookup "job_id" = some jobId ∧ entries.lookup "client_id" = some clientId ∧
        entries.lookup "corpus_id" = some corpusId ∧
        entries.lookup "document_id" = some documentId ∧
        envelope = {
          jobId := jobId.pyStr repr
          jobType
          clientId := clientId.pyStr repr
          corpusId := corpusId.pyStr repr
          documentId := documentId.pyStr repr
          fileType := (((entries.lookup "file_type").filter JsonValue.truthy).map
            (JsonValue.pyStr repr)).getD ""
          filePath := ((entries.lookup "file_path").filter JsonValue.truthy).map
            (JsonValue.pyStr repr) } := by
  constructor
  · intro returned
    cases payload with
    | obj entries =>
      obtain ⟨rawType, type, returned⟩ := bind_eq_ok_iff.mp returned
      obtain ⟨jobId, job, returned⟩ := bind_eq_ok_iff.mp returned
      obtain ⟨jobType, known, returned⟩ := bind_eq_ok_iff.mp returned
      obtain ⟨clientId, client, returned⟩ := bind_eq_ok_iff.mp returned
      obtain ⟨corpusId, corpus, returned⟩ := bind_eq_ok_iff.mp returned
      obtain ⟨documentId, document, returned⟩ := bind_eq_ok_iff.mp returned
      rw [subscript_ok] at type job client corpus document
      rw [ofValue_ok.mp known] at type
      exact ⟨entries, jobId, jobType, clientId, corpusId, documentId, rfl, type, job, client, corpus,
        document, (Except.ok.inj returned).symm⟩
    | _ => cases returned
  · rintro ⟨entries, jobId, jobType, clientId, corpusId, documentId, rfl, type, job, client, corpus,
      document, rfl⟩
    refine bind_eq_ok_iff.mpr ⟨_, subscript_ok.mpr type, ?_⟩
    refine bind_eq_ok_iff.mpr ⟨_, subscript_ok.mpr job, ?_⟩
    refine bind_eq_ok_iff.mpr ⟨_, ofValue_ok.mpr rfl, ?_⟩
    refine bind_eq_ok_iff.mpr ⟨_, subscript_ok.mpr client, ?_⟩
    refine bind_eq_ok_iff.mpr ⟨_, subscript_ok.mpr corpus, ?_⟩
    exact bind_eq_ok_iff.mpr ⟨_, subscript_ok.mpr document, rfl⟩

theorem read_returns :
    (∃ envelope, read repr payload = .ok envelope) ↔ Readable payload := by
  constructor
  · rintro ⟨envelope, returned⟩
    obtain ⟨entries, jobId, jobType, clientId, corpusId, documentId, rfl, type, job, client, corpus,
      document, _⟩ := read_ok.mp returned
    refine ⟨entries, rfl, ?_, jobType, type⟩
    simp only [List.forall_mem_cons, type, job, client, corpus, document]
    simp
  · rintro ⟨entries, rfl, present, jobType, type⟩
    simp only [List.forall_mem_cons, Option.isSome_iff_exists] at present
    obtain ⟨⟨jobId, job⟩, _, ⟨clientId, client⟩, ⟨corpusId, corpus⟩, ⟨documentId, document⟩, _⟩ :=
      present
    exact ⟨_, read_ok.mpr ⟨entries, jobId, jobType, clientId, corpusId, documentId, rfl, type, job,
      client, corpus, document, rfl⟩⟩

/-- A path that is read is the text of a truthy value, which is not empty. -/
theorem read_wellFormed (spelled : ∀ value, repr value ≠ "") {envelope : JobEnvelope}
    (returned : read repr payload = .ok envelope) : envelope.WellFormed := by
  obtain ⟨entries, _, _, _, _, _, _, _, _, _, _, _, rfl⟩ := read_ok.mp returned
  intro empty
  obtain ⟨value, kept, text⟩ := Option.map_eq_some_iff.mp empty
  obtain ⟨_, truthy⟩ := Option.filter_eq_some_iff.mp kept
  cases value with
  | str path =>
    change path = "" at text
    simp [JsonValue.truthy, text] at truthy
  | _ => exact spelled _ text

theorem fromPayload_ok {envelope : JobEnvelope} :
    fromPayload repr payload = .ok envelope ↔ read repr payload = .ok envelope := by
  unfold fromPayload
  cases read repr payload with
  | ok read => exact Iff.rfl
  | error error =>
    refine iff_of_false (fun clash => ?_) fun clash => nomatch clash
    dsimp only at clash
    split at clash <;> cases clash

/-- What is caught becomes a malformed envelope. -/
theorem fromPayload_obj (entries : List (String × JsonValue)) :
    Promises (fun _ => True) Malformed (fromPayload repr (.obj entries)) := by
  have caught := @read_obj repr entries
  unfold fromPayload
  cases result : read repr (.obj entries) with
  | ok envelope => trivial
  | error error =>
    rw [result] at caught
    dsimp only
    rw [if_pos (promises_error.mp caught)]
    rfl

theorem fromPayload_other (other : ∀ entries, payload ≠ .obj entries) :
    ∃ error, fromPayload repr payload = .error error ∧ error.type = .typeError := by
  obtain ⟨text, raised⟩ := @read_other repr payload other
  rw [fromPayload, raised]
  exact ⟨_, rfl, rfl⟩

end Decoder

/-- The codec of job envelopes. A body that is an object is read, or refused as
malformed, and read exactly when its five fields are there and its type is known; any
other JSON raises a `TypeError`. What is read travels unchanged, and so does every
envelope without an empty path, among them all that the two handlers send. -/
theorem envelope_codec (repr dumps : JsonValue → String)
    (loads : String → Except PyException JsonValue) (spelled : ∀ value, repr value ≠ "")
    (payload : JsonValue) (sent : JobEnvelope) (submission : Submission)
    (undone : ∀ envelope ∈ [sent, submission.envelope],
      loads (dumps envelope.toPayload) = .ok envelope.toPayload) :
    ((∃ entries, payload = .obj entries) →
        Promises (fun _ => True) Malformed (fromPayload repr payload)) ∧
      ((∀ entries, payload ≠ .obj entries) →
        ∃ error, fromPayload repr payload = .error error ∧ error.type = .typeError) ∧
      ((∃ envelope, fromPayload repr payload = .ok envelope) ↔ Readable payload) ∧
      (fromPayload repr payload = .ok sent → travel repr dumps loads sent = .ok sent) ∧
      (sent.filePath ≠ some "" → travel repr dumps loads sent = .ok sent) ∧
      ((∃ raised, submission.handle = .raise raised) ∨
        submission.handle = enqueue submission.envelope ∧
          travel repr dumps loads submission.envelope = .ok submission.envelope) := by
  have travels (envelope : JobEnvelope) (member : envelope ∈ [sent, submission.envelope])
      (wellFormed : envelope.WellFormed) : travel repr dumps loads envelope = .ok envelope := by
    rw [travel, undone envelope member]
    exact fromPayload_of_wellFormed repr wellFormed
  refine ⟨?_, fromPayload_other, ?_, ?_, ?_, ?_⟩
  · rintro ⟨entries, rfl⟩
    exact fromPayload_obj entries
  · simp only [fromPayload_ok]
    exact read_returns
  · intro returned
    exact travels sent (by simp) (read_wellFormed spelled (fromPayload_ok.mp returned))
  · exact travels sent (by simp)
  · refine submission.handle_cases.imp id ?_
    rintro ⟨wellFormed, accepted⟩
    exact ⟨accepted, travels submission.envelope (by simp) wellFormed⟩

private def numberRepr : JsonValue → String
  | .int (.ofNat value) => value.repr
  | value => value.typeName

private def deletePayload : JsonValue :=
  .obj [("job_id", .int 7), ("job_type", .str "DELETE_DOCUMENT"), ("client_id", .str "c"),
    ("corpus_id", .str ""), ("document_id", .str "d"), ("file_path", .str "")]

private def deleteEnvelope : JobEnvelope := ⟨"7", .deleteDocument, "c", "", "d", "", none⟩

private def deleteText : String :=
  "\x7b\"job_id\":\"7\",\"job_type\":\"DELETE_DOCUMENT\",\"client_id\":\"c\",\"corpus_id\":\"\"," ++
    "\"document_id\":\"d\",\"file_type\":\"\",\"file_path\":null\x7d"

private theorem numberRepr_spelled (value : JsonValue) : numberRepr value ≠ "" := by
  have named : value.typeName ≠ "" := by
    cases value <;> simp [JsonValue.typeName]
  cases value with
  | int value =>
    cases value with
    | ofNat value => exact Nat.repr_ne_empty
    | negSucc value => exact named
  | _ => exact named

/-- A delete job whose id is a number and whose path is empty. -/
theorem envelope_codec_sample :
    ((∃ entries, deletePayload = .obj entries) →
        Promises (fun _ => True) Malformed (fromPayload numberRepr deletePayload)) ∧
      ((∀ entries, deletePayload ≠ .obj entries) →
        ∃ error, fromPayload numberRepr deletePayload = .error error ∧ error.type = .typeError) ∧
      ((∃ envelope, fromPayload numberRepr deletePayload = .ok envelope) ↔ Readable deletePayload) ∧
      (fromPayload numberRepr deletePayload = .ok deleteEnvelope →
        travel numberRepr (fun _ => deleteText) (fun _ => .ok deleteEnvelope.toPayload)
          deleteEnvelope = .ok deleteEnvelope) ∧
      (deleteEnvelope.filePath ≠ some "" →
        travel numberRepr (fun _ => deleteText) (fun _ => .ok deleteEnvelope.toPayload)
          deleteEnvelope = .ok deleteEnvelope) ∧
      ((∃ raised, (Submission.delete ⟨"c", "d"⟩ "7").handle = .raise raised) ∨
        (Submission.delete ⟨"c", "d"⟩ "7").handle =
            enqueue (Submission.delete ⟨"c", "d"⟩ "7").envelope ∧
          travel numberRepr (fun _ => deleteText) (fun _ => .ok deleteEnvelope.toPayload)
            (Submission.delete ⟨"c", "d"⟩ "7").envelope =
              .ok (Submission.delete ⟨"c", "d"⟩ "7").envelope) := by
  refine envelope_codec numberRepr (fun _ => deleteText) (fun _ => .ok deleteEnvelope.toPayload)
    numberRepr_spelled deletePayload deleteEnvelope (.delete ⟨"c", "d"⟩ "7") ?_
  intro envelope member
  rcases List.mem_cons.mp member with rfl | later
  · rfl
  · rw [List.mem_singleton.mp later]
    rfl

/-- A list is refused with another exception. -/
theorem envelope_list_escapes :
    ¬ ∀ (repr : JsonValue → String) (payload : JsonValue),
      Promises (fun _ => True) Malformed (fromPayload repr payload) := by
  intro refused
  have alien := refused (fun _ => "[]") (.arr [])
  cases alien

end JobEnvelope

end DocContext
