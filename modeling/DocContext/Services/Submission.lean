import DocContext.Foundation.Protocol
import DocContext.Services.Converters
import DocContext.Workers.Envelope

/-! `IndexDocument` and `DeleteDocument`: a row first, then a message. The ids
that `new_job_id` and `new_document_id` draw are parameters. -/

namespace DocContext

open Foundation Coroutine

structure IndexDocumentRequest where
  clientId : String
  corpusId : String
  documentId : String
  fileType : Int
  storagePath : String
deriving DecidableEq

structure DeleteDocumentRequest where
  clientId : String
  documentId : String
deriving DecidableEq

/-- `IndexDocumentResponse` and `DeleteDocumentResponse`. -/
structure JobResponse where
  jobId : String
  status : Int
deriving DecidableEq

/-- The end of both handlers: create the row, publish the envelope, respond. -/
def enqueue (envelope : JobEnvelope) : Task JobResponse := do
  let _ ← request (.create envelope.jobId envelope.jobType envelope.clientId envelope.corpusId
    envelope.documentId envelope.fileType envelope.filePath)
  request (.publish envelope.toPayload)
  return ⟨envelope.jobId, statusToProto .queued⟩

namespace IndexDocumentHandler

def envelope (rpc : IndexDocumentRequest) (jobId newDocumentId fileType : String) : JobEnvelope where
  jobId := jobId
  jobType := .indexDocument
  clientId := rpc.clientId
  corpusId := rpc.corpusId
  documentId := if rpc.documentId = "" then newDocumentId else rpc.documentId
  fileType := fileType
  filePath := some rpc.storagePath

def handle (rpc : IndexDocumentRequest) (jobId newDocumentId : String) : Task JobResponse :=
  if rpc.clientId = "" then
    abort .invalidArgument "client_id is required"
  else if rpc.corpusId = "" then
    abort .invalidArgument "corpus_id is required"
  else if rpc.storagePath = "" then
    abort .invalidArgument "storage_path is required"
  else
    match fileTypeToStr rpc.fileType with
    | .error error =>
      if error.isValueError then abort .invalidArgument error.text else Coroutine.throw error
    | .ok fileType => enqueue (envelope rpc jobId newDocumentId fileType)

/-- A request is refused at once, or has a path and a known file type. -/
theorem handle_cases (rpc : IndexDocumentRequest) (jobId newDocumentId : String) :
    (∃ raised, handle rpc jobId newDocumentId = .raise raised) ∨
      (rpc.storagePath ≠ "" ∧ ∃ fileType, fileTypeToStr rpc.fileType = .ok fileType ∧
        handle rpc jobId newDocumentId = enqueue (envelope rpc jobId newDocumentId fileType)) := by
  unfold handle
  split
  · exact .inl ⟨_, rfl⟩
  split
  · exact .inl ⟨_, rfl⟩
  split
  · exact .inl ⟨_, rfl⟩
  rename_i path
  cases fileTypeToStr rpc.fileType with
  | error error =>
    dsimp only
    split
    · exact .inl ⟨_, rfl⟩
    · exact .inl ⟨_, rfl⟩
  | ok fileType => exact .inr ⟨path, fileType, rfl, rfl⟩

end IndexDocumentHandler

namespace DeleteDocumentHandler

/-- The corpus is left empty: a document is found by client and document id. -/
def envelope (rpc : DeleteDocumentRequest) (jobId : String) : JobEnvelope where
  jobId := jobId
  jobType := .deleteDocument
  clientId := rpc.clientId
  corpusId := ""
  documentId := rpc.documentId
  fileType := ""
  filePath := none

def handle (rpc : DeleteDocumentRequest) (jobId : String) : Task JobResponse :=
  if rpc.clientId = "" then
    abort .invalidArgument "client_id is required"
  else if rpc.documentId = "" then
    abort .invalidArgument "document_id is required"
  else
    enqueue (envelope rpc jobId)

theorem handle_cases (rpc : DeleteDocumentRequest) (jobId : String) :
    (∃ raised, handle rpc jobId = .raise raised) ∨
      handle rpc jobId = enqueue (envelope rpc jobId) := by
  unfold handle
  split
  · exact .inl ⟨_, rfl⟩
  split
  · exact .inl ⟨_, rfl⟩
  exact .inr rfl

end DeleteDocumentHandler

/-- A request to either handler, with the ids drawn for it. -/
inductive Submission where
  | index (rpc : IndexDocumentRequest) (jobId newDocumentId : String)
  | delete (rpc : DeleteDocumentRequest) (jobId : String)
deriving DecidableEq

namespace Submission

def handle : Submission → Task JobResponse
  | .index rpc jobId newDocumentId => IndexDocumentHandler.handle rpc jobId newDocumentId
  | .delete rpc jobId => DeleteDocumentHandler.handle rpc jobId

/-- The envelope a submission sends, if it passes validation. -/
def envelope : Submission → JobEnvelope
  | .index rpc jobId newDocumentId =>
    IndexDocumentHandler.envelope rpc jobId newDocumentId
      ((fileTypeToStr rpc.fileType).toOption.getD "")
  | .delete rpc jobId => DeleteDocumentHandler.envelope rpc jobId

def jobId (submission : Submission) : String := submission.envelope.jobId

/-- A submission is refused at once, or sends an envelope a worker can read. -/
theorem handle_cases (submission : Submission) :
    (∃ raised, submission.handle = .raise raised) ∨
      (submission.envelope.WellFormed ∧ submission.handle = enqueue submission.envelope) := by
  cases submission with
  | index rpc jobId newDocumentId =>
    refine (IndexDocumentHandler.handle_cases rpc jobId newDocumentId).imp id ?_
    rintro ⟨path, fileType, known, accepted⟩
    have named : (index rpc jobId newDocumentId).envelope =
        IndexDocumentHandler.envelope rpc jobId newDocumentId fileType := by
      simp only [envelope, known]
      rfl
    exact ⟨fun empty => path (Option.some.inj empty), accepted.trans (by rw [named])⟩
  | delete rpc jobId =>
    refine (DeleteDocumentHandler.handle_cases rpc jobId).imp id fun accepted => ?_
    exact ⟨fun empty => (by cases empty), accepted⟩

end Submission

/-- How far a submission has come: nothing done, the row there, the row there
alone for good, nothing there for good, row and message there. -/
inductive Phase where
  | arrived
  | created
  | orphaned
  | refused
  | published
deriving DecidableEq

namespace Phase

/-- The calls a submission makes in a phase. -/
inductive Awaits (envelope : JobEnvelope) : Phase → Call → Prop where
  | create : Awaits envelope .arrived
      (.create envelope.jobId envelope.jobType envelope.clientId envelope.corpusId
        envelope.documentId envelope.fileType envelope.filePath)
  | publish (wellFormed : envelope.WellFormed) :
      Awaits envelope .created (.publish envelope.toPayload)

def moves (phase : Phase) :
    (call : Call) → Except (Raised PyException) (Reply call) → Phase
  | .create .., .ok _ => .created
  | .create .., .error _ => .refused
  | .publish _, .ok _ => .published
  | .publish _, .error _ => .orphaned
  | _, _ => phase

/-- Where a submission may end, and with which result. -/
def Ended (jobId : String) (phase : Phase) (result : Except (Raised PyException) JobResponse) :
    Prop :=
  (phase = .published ∧ result = .ok ⟨jobId, statusToProto .queued⟩) ∨
    ((phase = .arrived ∨ phase = .refused ∨ phase = .orphaned) ∧ ∃ raised, result = .error raised)

end Phase

def submissionProtocol (envelope : JobEnvelope) : Protocol Call Reply PyException Phase where
  admits := Phase.Awaits envelope
  moves := Phase.moves

theorem enqueue_follows {envelope : JobEnvelope} (wellFormed : envelope.WellFormed) :
    Follows (submissionProtocol envelope) (Phase.Ended envelope.jobId) .arrived
      (enqueue envelope) := by
  unfold enqueue
  refine follows_request_bind .create (fun raised => ?_) fun row => ?_
  · exact .inr ⟨.inr (.inl rfl), raised, rfl⟩
  · refine follows_request_bind (.publish wellFormed) (fun raised => ?_) fun _ => ?_
    · exact .inr ⟨.inr (.inr rfl), raised, rfl⟩
    · exact .inl ⟨rfl, rfl⟩

theorem Submission.handle_follows (submission : Submission) :
    Follows (submissionProtocol submission.envelope) (Phase.Ended submission.jobId) .arrived
      submission.handle := by
  rcases submission.handle_cases with ⟨raised, refused⟩ | ⟨wellFormed, accepted⟩
  · rw [refused]
    exact .inr ⟨.inl rfl, raised, rfl⟩
  · rw [accepted]
    exact enqueue_follows wellFormed

end DocContext
