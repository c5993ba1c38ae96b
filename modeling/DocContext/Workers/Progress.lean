import DocContext.Workers.Effect
import DocContext.VectorStores.Contents

/-! A job whose inputs are in order and whose calls are answered runs to its
end. -/

namespace DocContext

open Foundation Coroutine

variable {env : Env} {envelope : JobEnvelope} {world : World}

/-- The inputs of a job are in order: the chunks of an index job can be computed,
and a delete job finds the collection. -/
def Ready (env : Env) (envelope : JobEnvelope) (world : World) : Prop :=
  match envelope.jobType with
  | .indexDocument => ∃ stored, indexedChunks env world.extractText envelope = .ok stored
  | .deleteDocument => world.collection.isSome

theorem indexedChunks_runs {extract : Extraction} {path : String} {text : Text}
    (located : envelope.filePath.filter (fun path => path ≠ "") = some path)
    (found : extract path envelope.fileType = .ok text) {vectors : List (List PyFloat)}
    (embedded : env.embed ((env.chunker.chunk text).map Chunk.text) = .ok vectors)
    (one : (env.chunker.chunk text).length = vectors.length) :
    ∃ stored, indexedChunks env extract envelope = .ok stored := by
  unfold indexedChunks
  simp only [located, found]
  change ∃ stored, (if (env.chunker.chunk text).isEmpty then .ok []
    else env.embed _ >>= DocumentWorker.storedChunks env envelope _) = Except.ok stored
  by_cases empty : (env.chunker.chunk text).isEmpty = true
  · exact ⟨[], if_pos empty⟩
  · rw [if_neg empty, embedded]
    change ∃ stored, DocumentWorker.storedChunks env envelope _ vectors = .ok stored
    rw [DocumentWorker.storedChunks, zipStrict, if_pos one]
    exact ⟨_, rfl⟩

theorem ensureCollection_runs (env : Env) (dim : Nat) (world : World) :
    ∃ after, (QdrantVectorStore.ensureCollection env dim).exec (perform env) world =
        (.ok (), after) ∧ after.table = world.table ∧ after.collection.isSome := by
  simp only [QdrantVectorStore.ensureCollection, bind_eq, exec_bind, exec_request, perform]
  cases present : world.collection with
  | some collection => exact ⟨world, by simp, rfl, by rw [present]; rfl⟩
  | none =>
    refine ⟨{ world with
      collection := some ⟨dim, ["client_id", "corpus_id", "document_id"], ∅⟩ }, ?_, rfl, rfl⟩
    simp [exec_bind, exec_request, perform, present, World.stored, Collection.empty]

theorem upsert_runs (env : Env) (stored : List StoredChunk) (present : world.collection.isSome) :
    ∃ count after, (QdrantVectorStore.upsert stored).exec (perform env) world = (.ok count, after) ∧
      after.table = world.table := by
  obtain ⟨collection, found⟩ := Option.isSome_iff_exists.mp present
  exact ⟨_, _, exec_upsert stored found, rfl⟩

theorem handleIndex_runs {stored : List StoredChunk}
    (indexed : indexedChunks env world.extractText envelope = .ok stored) :
    ∃ count after, (DocumentWorker.handleIndex env envelope).exec (perform env) world =
      (.ok count, after) ∧ after.table = world.table := by
  obtain ⟨path, text, located, found, chunks⟩ := indexedChunks_ok indexed
  have read : perform env (.extractText path envelope.fileType) world = (.ok text, world) := by
    rw [perform, computed, found]
    rfl
  unfold DocumentWorker.handleIndex
  rw [located]
  simp only [bind_eq, exec_bind, exec_request, read, continueWith_ok]
  rw [perform, continueWith_ok]
  rcases chunks with ⟨empty, _⟩ | ⟨nonempty, vectors, embedded, paired⟩
  · rw [if_pos (by simpa using empty)]
    exact ⟨0, world, rfl, rfl⟩
  · have vectorized : perform env (.embed ((env.chunker.chunk text).map Chunk.text)) world =
        (.ok vectors, world) := by
      rw [perform, computed, embedded]
      rfl
    obtain ⟨ensured, ran, table, present⟩ := ensureCollection_runs env env.dim world
    obtain ⟨count, after, wrote, table'⟩ := upsert_runs env stored present
    refine ⟨count, after, ?_, table'.trans table⟩
    rw [if_neg (by simpa using nonempty)]
    simp only [exec_bind, exec_request, vectorized, continueWith_ok, ran, exec_ofExcept, paired,
      Except.mapError, wrote]

theorem handleDelete_runs (present : world.collection.isSome) :
    ∃ count after, (DocumentWorker.handleDelete envelope).exec (perform env) world =
      (.ok count, after) ∧ after.table = world.table := by
  obtain ⟨collection, found⟩ := Option.isSome_iff_exists.mp present
  obtain ⟨count, after, ran, _⟩ :=
    exec_deleteByDocument env envelope.clientId envelope.documentId found
  exact ⟨count, _, ran, rfl⟩

theorem work_runs (ready : Ready env envelope world) :
    ∃ count after, (DocumentWorker.work env envelope).exec (perform env) world = (.ok count, after) ∧
      after.table = world.table := by
  unfold DocumentWorker.work
  cases type : envelope.jobType with
  | indexDocument =>
    simp only [Ready, type] at ready
    obtain ⟨stored, indexed⟩ := ready
    exact handleIndex_runs indexed
  | deleteDocument =>
    simp only [Ready, type] at ready
    exact handleDelete_runs ready

/-- A job with its row and its inputs in order succeeds. -/
theorem handleEnvelope_runs {row : Job} (found : world.table.rows envelope.jobId = some row)
    (ready : Ready env envelope world) :
    ∃ after, (DocumentWorker.handleEnvelope env envelope).exec (perform env) world = (.ok (), after) ∧
      after.table.status? envelope.jobId = some .succeeded := by
  let running := world.table.commit envelope.jobId
    { row with status := .running, errorMessage := row.errorMessage }
  have started : perform env (.markRunning envelope.jobId) world =
      (.ok { row with status := .running, errorMessage := row.errorMessage },
        { world with table := running }) := by
    rw [perform, JobTable.markRunning, JobTable.transition_of_row found]
    rfl
  have ready' : Ready env envelope { world with table := running } := ready
  obtain ⟨count, after, worked, table⟩ := work_runs ready'
  have kept : after.table.rows envelope.jobId =
      some { row with status := .running, errorMessage := row.errorMessage } := by
    rw [table]
    exact Function.update_self ..
  unfold DocumentWorker.handleEnvelope
  simp only [bind_eq, exec_bind, exec_request, started, continueWith_ok, exec_tryExcept, worked]
  rw [perform, JobTable.markSucceeded, JobTable.transition_of_row kept]
  exact ⟨_, rfl, by rw [JobTable.status?_commit, if_pos rfl]⟩

end DocContext
