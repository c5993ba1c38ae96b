import DocContext.Foundation.Protocol
import DocContext.Workers.DocumentWorker

/-! The lifecycle of one job as a protocol: which call a worker makes at each
stage, and where the reply leads. -/

namespace DocContext

open Foundation Coroutine

/-- How far a worker has come with a job. -/
inductive Stage where
  | received
  | refused
  | running
  | extracted (text : Text)
  | chunked (chunks : List Chunk)
  | embedded (chunks : List Chunk) (vectors : List (List PyFloat))
  | counted
  | finished
  | failed (error : PyException)
  | succeeded
  | closed
  | cancelled

namespace Stage

/-- The calls a job makes at a stage. -/
inductive Awaits (env : Env) (envelope : JobEnvelope) : Stage → Call → Prop where
  | start : Awaits env envelope .received (.markRunning envelope.jobId)
  | extract {path : String} (index : envelope.jobType = .indexDocument)
      (located : envelope.filePath = some path) (nonempty : path ≠ "") :
      Awaits env envelope .running (.extractText path envelope.fileType)
  | rejectPath (index : envelope.jobType = .indexDocument)
      (missing : envelope.filePath = none ∨ envelope.filePath = some "") :
      Awaits env envelope .running
        (.markFailed envelope.jobId DocumentWorker.missingPath.text)
  | chunk {text : Text} : Awaits env envelope (.extracted text) (.chunk text)
  | embed {chunks : List Chunk} :
      Awaits env envelope (.chunked chunks) (.embed (chunks.map Chunk.text))
  | list {chunks : List Chunk} {vectors : List (List PyFloat)} :
      Awaits env envelope (.embedded chunks vectors) .getCollections
  | createCollection {chunks : List Chunk} {vectors : List (List PyFloat)} :
      Awaits env envelope (.embedded chunks vectors) (.createCollection env.dim)
  | createPayloadIndex {chunks : List Chunk} {vectors : List (List PyFloat)} {field : String} :
      Awaits env envelope (.embedded chunks vectors) (.createPayloadIndex field)
  | rejectVectors {chunks : List Chunk} {vectors : List (List PyFloat)} {error : PyException}
      (mismatch : DocumentWorker.storedChunks env envelope chunks vectors = .error error) :
      Awaits env envelope (.embedded chunks vectors) (.markFailed envelope.jobId error.text)
  | write {chunks : List Chunk} {vectors : List (List PyFloat)} {stored : List StoredChunk}
      (index : envelope.jobType = .indexDocument)
      (paired : DocumentWorker.storedChunks env envelope chunks vectors = .ok stored) :
      Awaits env envelope (.embedded chunks vectors)
        (.upsertPoints (stored.map StoredChunk.point))
  | count (delete : envelope.jobType = .deleteDocument) :
      Awaits env envelope .running
        (.count (documentFilter envelope.clientId envelope.documentId))
  | delete (delete : envelope.jobType = .deleteDocument) :
      Awaits env envelope .counted
        (.deletePoints (documentFilter envelope.clientId envelope.documentId))
  | succeed : Awaits env envelope .finished (.markSucceeded envelope.jobId)
  | fail {error : PyException} :
      Awaits env envelope (.failed error) (.markFailed envelope.jobId error.text)

/-- The stage after a call of the work raised. -/
def afterRaise : Raised PyException → Stage
  | .exception error => .failed error
  | .cancelled => .cancelled

/-- The stage after a reply. -/
def moves (stage : Stage) : (call : Call) → Except (Raised PyException) (Reply call) → Stage
  | .markRunning _, .ok _ => .running
  | .markRunning _, .error _ => .refused
  | .markFailed .., _ => .closed
  | _, .error raised => afterRaise raised
  | .extractText .., .ok text => .extracted text
  | .chunk _, .ok chunks => if chunks.isEmpty then .finished else .chunked chunks
  | .embed _, .ok vectors =>
    match stage with
    | .chunked chunks => .embedded chunks vectors
    | _ => stage
  | .upsertPoints _, .ok _ => .finished
  | .count _, .ok count => if count = 0 then .finished else .counted
  | .deletePoints _, .ok _ => .finished
  | .markSucceeded _, .ok _ => .succeeded
  | _, .ok _ => stage

/-- Where a job may end, and with which result. -/
def Ended (stage : Stage) (result : Except (Raised PyException) Unit) : Prop :=
  (stage = .succeeded ∧ result = .ok ()) ∨
    ((stage = .refused ∨ stage = .closed ∨ stage = .cancelled) ∧ ∃ raised, result = .error raised)

end Stage

open Stage

/-- The lifecycle of a job. -/
def jobProtocol (env : Env) (envelope : JobEnvelope) :
    Protocol Call Reply PyException Stage where
  admits := Awaits env envelope
  moves := moves

namespace DocumentWorker

/-- What the branches of the job leave: the work is done, or the `except` clause
is about to record what went wrong. -/
def Worked (env : Env) (envelope : JobEnvelope) (stage : Stage) :
    Except (Raised PyException) α → Prop
  | .ok _ => stage = .finished
  | .error (.exception error) => Awaits env envelope stage (.markFailed envelope.jobId error.text)
  | .error .cancelled => stage = .cancelled

variable {env : Env} {envelope : JobEnvelope} {stage : Stage}

theorem worked_afterRaise (raised : Raised PyException) :
    Worked (α := α) env envelope (afterRaise raised) (.error raised) := by
  cases raised with
  | exception error => exact .fail
  | cancelled => rfl

theorem follows_work {call : Call} {next : Reply call → Task α}
    (admitted : Awaits env envelope stage call)
    (raises : ∀ raised, stage.moves call (.error raised) = afterRaise raised)
    (resumed : ∀ value, Follows (jobProtocol env envelope) (Worked env envelope)
      (stage.moves call (.ok value)) (next value)) :
    Follows (jobProtocol env envelope) (Worked env envelope) stage ((request call).bind next) := by
  refine follows_request_bind admitted (fun raised => ?_) resumed
  change Worked env envelope (stage.moves call (.error raised)) (.error raised)
  rw [raises]
  exact worked_afterRaise raised

theorem storedChunks_ne_nil {chunks : List Chunk} {vectors : List (List PyFloat)}
    {stored : List StoredChunk} (paired : storedChunks env envelope chunks vectors = .ok stored)
    (nonempty : chunks ≠ []) : stored ≠ [] := by
  unfold storedChunks zipStrict at paired
  split at paired
  · rename_i same
    cases paired
    cases chunks with
    | nil => exact absurd rfl nonempty
    | cons chunk rest =>
      cases vectors with
      | nil => simp at same
      | cons vector others => simp
  · split at paired <;> cases paired

theorem upsert_follows {chunks : List Chunk} {vectors : List (List PyFloat)}
    {stored : List StoredChunk} (index : envelope.jobType = .indexDocument)
    (paired : storedChunks env envelope chunks vectors = .ok stored) (nonempty : stored ≠ []) :
    Follows (jobProtocol env envelope) (Worked env envelope) (.embedded chunks vectors)
      (QdrantVectorStore.upsert stored) := by
  unfold QdrantVectorStore.upsert
  rw [if_neg (by simpa using nonempty)]
  exact follows_work (.write index paired) (fun _ => rfl) fun _ => rfl

/-- `ensure_collection` and the rest of an index job. -/
theorem ensureCollection_follows {chunks : List Chunk} {vectors : List (List PyFloat)}
    {next : Unit → Task α}
    (resumed : Follows (jobProtocol env envelope) (Worked env envelope) (.embedded chunks vectors)
      (next ())) :
    Follows (jobProtocol env envelope) (Worked env envelope) (.embedded chunks vectors)
      ((QdrantVectorStore.ensureCollection env env.dim).bind next) := by
  unfold QdrantVectorStore.ensureCollection
  simp only [bind_eq, bind_assoc]
  refine follows_work .list (fun _ => rfl) fun existing => ?_
  by_cases listed : existing.contains env.collectionName = true
  · rw [if_pos listed]
    exact resumed
  · rw [if_neg listed, bind_assoc]
    simp only [bind_assoc]
    refine follows_work .createCollection (fun _ => rfl) fun _ => ?_
    refine follows_work .createPayloadIndex (fun _ => rfl) fun _ => ?_
    refine follows_work .createPayloadIndex (fun _ => rfl) fun _ => ?_
    exact follows_work .createPayloadIndex (fun _ => rfl) fun _ => resumed

theorem handleIndex_follows (index : envelope.jobType = .indexDocument) :
    Follows (jobProtocol env envelope) (Worked env envelope) .running (handleIndex env envelope) := by
  unfold handleIndex
  split
  · rename_i missing
    refine Awaits.rejectPath index ?_
    cases located : envelope.filePath with
    | none => exact .inl rfl
    | some path =>
      by_cases empty : path = ""
      · exact .inr (congrArg some empty)
      · simp [located, Option.filter, empty] at missing
  · rename_i path found
    rw [Option.filter_eq_some_iff] at found
    refine follows_work (.extract index found.1 (of_decide_eq_true found.2)) (fun _ => rfl)
      fun text => ?_
    change Follows _ _ (Stage.extracted text) _
    refine follows_work .chunk (fun _ => rfl) fun chunks => ?_
    by_cases empty : chunks.isEmpty = true
    · rw [if_pos empty]
      exact if_pos empty
    · have next : (Stage.extracted text).moves (.chunk text) (.ok chunks) = .chunked chunks :=
        if_neg empty
      rw [if_neg empty, next]
      refine follows_work .embed (fun _ => rfl) fun vectors => ensureCollection_follows ?_
      cases paired : storedChunks env envelope chunks vectors with
      | error error => exact Awaits.rejectVectors paired
      | ok stored =>
        exact upsert_follows index paired (storedChunks_ne_nil paired (by simpa using empty))

theorem handleDelete_follows (delete : envelope.jobType = .deleteDocument) :
    Follows (jobProtocol env envelope) (Worked env envelope) .running (handleDelete envelope) := by
  unfold handleDelete QdrantVectorStore.deleteByDocument
  refine follows_work (.count delete) (fun _ => rfl) fun count => ?_
  by_cases zero : count = 0
  · rw [if_pos zero]
    exact if_pos zero
  · have next : Stage.running.moves (.count (documentFilter envelope.clientId envelope.documentId))
        (.ok count) = .counted := if_neg zero
    rw [if_neg zero, next]
    exact follows_work (.delete delete) (fun _ => rfl) fun _ => rfl

theorem work_follows :
    Follows (jobProtocol env envelope) (Worked env envelope) .running (work env envelope) := by
  unfold work
  cases type : envelope.jobType with
  | indexDocument => exact handleIndex_follows type
  | deleteDocument => exact handleDelete_follows type

/-- A worker keeps to the lifecycle, whatever its calls reply. -/
theorem handleEnvelope_follows (env : Env) (envelope : JobEnvelope) :
    Follows (jobProtocol env envelope) Ended .received (handleEnvelope env envelope) := by
  refine follows_request_bind .start (fun raised => .inr ⟨.inl rfl, raised, rfl⟩) fun _ => ?_
  apply follows_tryExcept
  apply follows_bind
  refine work_follows.weaken fun stage result worked => ?_
  have failing {stage : Stage} {error : PyException}
      (caught : Awaits env envelope stage (.markFailed envelope.jobId error.text)) :
      Follows (jobProtocol env envelope) Ended stage
        ((request (.markFailed envelope.jobId error.text)).bind fun _ => Coroutine.throw error) :=
    follows_request_bind caught (fun raised => .inr ⟨.inr (.inl rfl), raised, rfl⟩)
      fun _ => .inr ⟨.inr (.inl rfl), _, rfl⟩
  cases result with
  | error raised =>
    cases raised with
    | exception error => exact failing worked
    | cancelled => exact .inr ⟨.inr (.inr worked), _, rfl⟩
  | ok count =>
    cases worked
    refine follows_request_bind .succeed (fun raised => ?_) fun _ => .inl ⟨rfl, rfl⟩
    cases raised with
    | exception error => exact failing .fail
    | cancelled => exact .inr ⟨.inr (.inr rfl), _, rfl⟩

end DocumentWorker

end DocContext
