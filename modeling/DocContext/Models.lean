import DocContext.Python
import DocContext.Chunking.Recursive

/-! Domain records. Time stamps are left out: no modelled function reads them. -/

namespace DocContext

/-- A chunk as it lives in, or is about to be written to, the vector store. -/
structure StoredChunk where
  chunkId : String
  documentId : String
  corpusId : String
  clientId : String
  chunkIndex : Nat
  charStart : Nat
  charEnd : Nat
  text : Text
  fileType : String
  vector : List PyFloat
deriving DecidableEq

/-- A chunk returned by a vector search, plus its similarity score. -/
structure RetrievedChunk where
  chunkId : String
  documentId : String
  corpusId : String
  clientId : String
  chunkIndex : Nat
  charStart : Nat
  charEnd : Nat
  text : Text
  fileType : String
  score : PyFloat
deriving DecidableEq

/-- The fields a retrieved chunk shares with the chunk it was written from. -/
def RetrievedChunk.toChunk (retrieved : RetrievedChunk) : Chunk where
  text := retrieved.text
  chunkIndex := retrieved.chunkIndex
  charStart := retrieved.charStart
  charEnd := retrieved.charEnd

inductive JobType where
  | indexDocument
  | deleteDocument
deriving DecidableEq, Repr

def JobType.name : JobType → String
  | .indexDocument => "INDEX_DOCUMENT"
  | .deleteDocument => "DELETE_DOCUMENT"

/-- `JobType(value)` on a string. -/
def JobType.ofName? (value : String) : Option JobType :=
  if value = "INDEX_DOCUMENT" then some .indexDocument
  else if value = "DELETE_DOCUMENT" then some .deleteDocument
  else none

@[simp] theorem JobType.ofName?_name (type : JobType) : JobType.ofName? type.name = some type := by
  cases type <;> rfl

inductive JobStatus where
  | queued
  | running
  | succeeded
  | failed
deriving DecidableEq, Repr

/-- No further transition is expected. -/
def JobStatus.terminal (status : JobStatus) : Bool := status = .succeeded || status = .failed

/-- A row of `indexing_jobs`. -/
structure Job where
  jobId : String
  jobType : JobType
  status : JobStatus
  clientId : String
  corpusId : String
  documentId : String
  fileType : String
  filePath : Option String
  errorMessage : Option String
deriving DecidableEq, Repr

end DocContext
