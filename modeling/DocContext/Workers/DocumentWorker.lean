import DocContext.VectorStores.Qdrant
import DocContext.Workers.Envelope

/-! `DocumentWorker`: an index job extracts, chunks, embeds and writes, a delete
job clears a document, and the row of the job follows. -/

namespace DocContext

open Foundation

def chunkIdFor (env : Env) (documentId : String) (chunkIndex : Nat) : String :=
  env.uuid5 (documentId ++ ":" ++ toString chunkIndex)

namespace DocumentWorker

def storedChunk (env : Env) (envelope : JobEnvelope) (chunk : Chunk) (vector : List PyFloat) :
    StoredChunk where
  chunkId := chunkIdFor env envelope.documentId chunk.chunkIndex
  documentId := envelope.documentId
  corpusId := envelope.corpusId
  clientId := envelope.clientId
  chunkIndex := chunk.chunkIndex
  charStart := chunk.charStart
  charEnd := chunk.charEnd
  text := chunk.text
  fileType := envelope.fileType
  vector := vector

/-- The `stored` comprehension of `_handle_index`. -/
def storedChunks (env : Env) (envelope : JobEnvelope) (chunks : List Chunk)
    (vectors : List (List PyFloat)) : Except PyException (List StoredChunk) :=
  (zipStrict chunks vectors).map
    (List.map fun pair => storedChunk env envelope pair.1 pair.2)

def missingPath : PyException := ⟨.valueError, "INDEX_DOCUMENT envelope missing file_path"⟩

def handleIndex (env : Env) (envelope : JobEnvelope) : Task Nat :=
  match envelope.filePath.filter fun path => path ≠ "" with
  | none => Coroutine.throw missingPath
  | some path => do
    let text ← request (.extractText path envelope.fileType)
    let chunks ← request (.chunk text)
    if chunks.isEmpty then
      return 0
    let vectors ← request (.embed (chunks.map Chunk.text))
    QdrantVectorStore.ensureCollection env env.dim
    let stored ← Coroutine.ofExcept (storedChunks env envelope chunks vectors)
    QdrantVectorStore.upsert stored

def handleDelete (envelope : JobEnvelope) : Task Nat :=
  QdrantVectorStore.deleteByDocument envelope.clientId envelope.documentId

/-- The branches on the type of the job. -/
def work (env : Env) (envelope : JobEnvelope) : Task Nat :=
  match envelope.jobType with
  | .indexDocument => handleIndex env envelope
  | .deleteDocument => handleDelete envelope

/-- `handle`, from the decoded envelope on. -/
def handleEnvelope (env : Env) (envelope : JobEnvelope) : Task Unit := do
  let _ ← request (.markRunning envelope.jobId)
  Coroutine.tryExcept
    (do
      let _ ← work env envelope
      let _ ← request (.markSucceeded envelope.jobId)
      return)
    fun error => do
      let _ ← request (.markFailed envelope.jobId error.text)
      Coroutine.throw error

def handle (env : Env) (payload : JsonValue) : Task Unit := do
  let envelope ← Coroutine.ofExcept (JobEnvelope.fromPayload env.repr payload)
  handleEnvelope env envelope

end DocumentWorker

end DocContext
