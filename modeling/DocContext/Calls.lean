import DocContext.Foundation.Coroutine
import DocContext.Foundation.Store
import DocContext.Repositories.Job
import DocContext.VectorStores.Collection
import DocContext.Llm.Prompts

/-! The calls the program's coroutines await, and a world that answers them:
job table, broker, Qdrant, the extracted files and the semaphore. -/

namespace DocContext

open Foundation

inductive Call where
  | create (jobId : String) (jobType : JobType)
      (clientId corpusId documentId fileType : String) (filePath : Option String)
  | getJob (jobId : String)
  | markRunning (jobId : String)
  | markSucceeded (jobId : String)
  | markFailed (jobId errorMessage : String)
  | publish (payload : JsonValue)
  | extractText (path fileType : String)
  | chunk (text : Text)
  | embed (texts : List Text)
  | getCollections
  | createCollection (dim : Nat)
  | createPayloadIndex (field : String)
  | upsertPoints (points : List Point)
  | count (filter : Filter)
  | deletePoints (filter : Filter)
  | queryPoints (vector : List PyFloat) (filter : Filter) (limit : Nat)
  | scroll (filter : Filter) (limit : Nat) (offset : Option String)
  | acquire
  | release
  | complete (messages : List Message) (model : String)

@[reducible] def Reply : Call → Type
  | .create .. => Job
  | .getJob _ => Option Job
  | .markRunning _ => Job
  | .markSucceeded _ => Job
  | .markFailed .. => Job
  | .extractText .. => Text
  | .chunk _ => List Chunk
  | .embed _ => List (List PyFloat)
  | .getCollections => List String
  | .count _ => Nat
  | .queryPoints .. => List (Point × PyFloat)
  | .scroll .. => List Point × Option String
  | .complete .. => LLMResponse
  | .publish _ | .createCollection _ | .createPayloadIndex _ | .upsertPoints _ | .deletePoints _
  | .acquire | .release => Unit

/-- A coroutine of this program. -/
abbrev Task (α : Type) := Coroutine Call Reply PyException α

/-- `await call`. -/
abbrev request (call : Call) : Task (Reply call) := Coroutine.request call

/-- Code outside the repository, and the settings it reads. -/
structure Env where
  chunker : RecursiveCharacterChunker
  collectionName : String
  llmRouterModel : String
  llmAnswerModel : String
  queryTopKDefault : Nat
  /-- `str(uuid.uuid5(_CHUNK_NAMESPACE, name))`. -/
  uuid5 : String → String
  repr : JsonValue → String
  /-- `json.loads`. -/
  loads : String → Except PyException JsonValue
  /-- `float` of a string. -/
  floatOfString : String → Option PyFloat
  /-- UTF-8 can encode the text: it has no lone surrogate. -/
  encodable : String → Bool
  dim : Nat
  embed : List Text → Except PyException (List (List PyFloat))
  /-- How `query_points` ranks the matching points. -/
  rank : List PyFloat → List Point → Nat → List (Point × PyFloat)
  complete : List Message → String → Except PyException LLMResponse

/-- A small deployment, where ids are their own names. -/
def Sample.env : Env where
  chunker := ⟨8, 2, Chunking.defaultSeparators, by decide, by decide⟩
  collectionName := "doccontext_chunks"
  llmRouterModel := "router"
  llmAnswerModel := "answer"
  queryTopKDefault := 5
  uuid5 := id
  repr := fun _ => ""
  loads := fun _ => .error ⟨.valueError, "Expecting value"⟩
  floatOfString := fun _ => none
  encodable := fun _ => true
  dim := 1
  embed := fun texts => .ok (texts.map fun _ => [.finite 1])
  rank := fun _ points limit => (points.take limit).map fun point => (point, .finite 1)
  complete := fun _ _ => .ok ⟨"", "", ⟨0, 0, 0⟩⟩

structure World where
  table : JobTable
  queue : List JsonValue
  collection : Option Collection
  extractText : String → String → Except PyException Text
  permits : Nat

def missingCollection : PyException := ⟨.unexpectedResponse, "Collection doesn't exist!"⟩

namespace World

/-- Raise what a computation raised, or take over the table it committed. -/
def committed (world : World) :
    Except PyException (Job × JobTable) → Except (Raised PyException) Job × World
  | .ok (row, table) => (.ok row, { world with table })
  | .error error => (.error (.exception error), world)

/-- The reply of a remote call on a collection, which must exist. -/
def stored (world : World) (operation : Collection → α × Collection) :
    Except (Raised PyException) α × World :=
  match world.collection with
  | none => (.error (.exception missingCollection), world)
  | some collection =>
    (.ok (operation collection).1, { world with collection := some (operation collection).2 })

end World

/-- A synchronous reply that leaves the world alone. -/
def computed (world : World) (value : Except PyException α) : Except (Raised PyException) α × World :=
  (value.mapError .exception, world)

def perform (env : Env) : (call : Call) → World → Except (Raised PyException) (Reply call) × World
  | .create jobId jobType clientId corpusId documentId fileType filePath, world =>
    world.committed
      (world.table.create jobId jobType clientId corpusId documentId fileType filePath)
  | .getJob jobId, world => (.ok (world.table.rows jobId), world)
  | .markRunning jobId, world => world.committed (world.table.markRunning jobId)
  | .markSucceeded jobId, world => world.committed (world.table.markSucceeded jobId)
  | .markFailed jobId errorMessage, world =>
    world.committed (world.table.markFailed jobId errorMessage)
  | .publish payload, world => (.ok (), { world with queue := world.queue ++ [payload] })
  | .extractText path fileType, world => computed world (world.extractText path fileType)
  | .chunk text, world => (.ok (env.chunker.chunk text), world)
  | .embed texts, world => computed world (env.embed texts)
  | .getCollections, world =>
    (.ok (world.collection.toList.map fun _ => env.collectionName), world)
  | .createCollection dim, world =>
    match world.collection with
    | some _ => (.error (.exception ⟨.unexpectedResponse, "Collection already exists!"⟩), world)
    | none => (.ok (), { world with collection := some (.empty dim) })
  | .createPayloadIndex field, world =>
    world.stored fun collection =>
      ((), { collection with indexed := collection.indexed ++ [field] })
  | .upsertPoints points, world => world.stored fun collection => ((), collection.upsert points)
  | .count filter, world => world.stored fun collection => (collection.count filter, collection)
  | .deletePoints filter, world => world.stored fun collection => ((), collection.delete filter)
  | .queryPoints vector filter limit, world =>
    world.stored fun collection =>
      (env.rank vector (collection.matching filter) limit, collection)
  | .scroll filter limit offset, world =>
    world.stored fun collection => (collection.scroll filter limit offset, collection)
  -- a free permit is taken; a scheduler lets no waiting coroutine take this step
  | .acquire, world => (.ok (), { world with permits := world.permits - 1 })
  | .release, world => (.ok (), { world with permits := world.permits + 1 })
  | .complete messages model, world => computed world (env.complete messages model)

/-! What a call can touch, under any fault. -/

/-- The points of the store; a missing collection has none. -/
def World.stock (world : World) : Store String Record :=
  world.collection.elim (fun _ => none) Collection.view

/-- The row a call writes, and the status it gives it. -/
def Call.written? : Call → Option (String × JobStatus)
  | .create jobId .. => some (jobId, .queued)
  | .markRunning jobId => some (jobId, .running)
  | .markSucceeded jobId => some (jobId, .succeeded)
  | .markFailed jobId _ => some (jobId, .failed)
  | _ => none

/-- The call changes points. -/
def Call.writesPoints : Call → Bool
  | .upsertPoints _ | .deletePoints _ => true
  | _ => false

section Touches

variable {env : Env} {call : Call} {world : World} {fault : Option (Coroutine.Fault PyException)}

@[simp] theorem stored_table (operation : Collection → α × Collection) :
    (world.stored operation).2.table = world.table := by
  unfold World.stored
  split <;> rfl

@[simp] theorem stored_extractText (operation : Collection → α × Collection) :
    (world.stored operation).2.extractText = world.extractText := by
  unfold World.stored
  split <;> rfl

@[simp] theorem stored_queue (operation : Collection → α × Collection) :
    (world.stored operation).2.queue = world.queue := by
  unfold World.stored
  split <;> rfl

@[simp] theorem stored_permits (operation : Collection → α × Collection) :
    (world.stored operation).2.permits = world.permits := by
  unfold World.stored
  split <;> rfl

@[simp] theorem committed_permits (result : Except PyException (Job × JobTable)) :
    (world.committed result).2.permits = world.permits := by
  rcases result with error | ⟨row, table⟩ <;> rfl

@[simp] theorem committed_extractText (result : Except PyException (Job × JobTable)) :
    (world.committed result).2.extractText = world.extractText := by
  rcases result with error | ⟨row, table⟩ <;> rfl

@[simp] theorem committed_collection (result : Except PyException (Job × JobTable)) :
    (world.committed result).2.collection = world.collection := by
  rcases result with error | ⟨row, table⟩ <;> rfl

@[simp] theorem committed_queue (result : Except PyException (Job × JobTable)) :
    (world.committed result).2.queue = world.queue := by
  rcases result with error | ⟨row, table⟩ <;> rfl

theorem stored_cases (world : World) (operation : Collection → α × Collection) :
    (∃ error, world.stored operation = (.error (.exception error), world)) ∨
      ∃ collection, world.collection = some collection ∧
        world.stored operation =
          (.ok (operation collection).1,
            { world with collection := some (operation collection).2 }) := by
  unfold World.stored
  cases present : world.collection with
  | none => exact .inl ⟨_, rfl⟩
  | some collection => exact .inr ⟨collection, rfl, rfl⟩

theorem stock_of_some {collection : Collection} (present : world.collection = some collection) :
    world.stock = collection.view := by
  rw [World.stock, present]
  rfl

theorem perform_upsertPoints (env : Env) (points : List Point) (world : World) :
    ((perform env (.upsertPoints points) world).2 = world ∧
        ∃ raised, (perform env (.upsertPoints points) world).1 = .error raised) ∨
      (perform env (.upsertPoints points) world).2.stock =
        Store.write (points.map Point.entry) world.stock := by
  rw [perform]
  rcases stored_cases world fun collection => ((), collection.upsert points) with
    ⟨error, failed⟩ | ⟨collection, present, written⟩
  · rw [failed]
    exact .inl ⟨rfl, _, rfl⟩
  · rw [written, stock_of_some present]
    exact .inr (collection.view_upsert points)

theorem perform_deletePoints (env : Env) (filter : Filter) (world : World) :
    ((perform env (.deletePoints filter) world).2 = world ∧
        ∃ raised, (perform env (.deletePoints filter) world).1 = .error raised) ∨
      (perform env (.deletePoints filter) world).2.stock =
        Store.remove (fun record => record.payload.satisfies filter) world.stock := by
  rw [perform]
  rcases stored_cases world fun collection => ((), collection.delete filter) with
    ⟨error, failed⟩ | ⟨collection, present, removed⟩
  · rw [failed]
    exact .inl ⟨rfl, _, rfl⟩
  · rw [removed, stock_of_some present]
    exact .inr (collection.view_delete filter)

theorem stored_stock {operation : Collection → α × Collection}
    (kept : ∀ collection, (operation collection).2.view = collection.view) :
    (world.stored operation).2.stock = world.stock := by
  unfold World.stored World.stock
  split
  · rfl
  · rename_i collection present
    rw [present]
    exact kept collection

theorem stored_isSome {operation : Collection → α × Collection}
    (present : world.collection.isSome) : (world.stored operation).2.collection.isSome := by
  unfold World.stored
  split
  · exact present
  · rfl

/-- What holds of the untouched world and of the performed call holds of any
answer. -/
theorem answer_of (holds : World → Prop) (before : holds world)
    (after : holds (perform env call world).2) :
    holds (Coroutine.answer (perform env) fault call world).2 := by
  rcases Coroutine.answer_world (perform env) fault call world with same | same <;> rw [same]
  · exact before
  · exact after

theorem answer_extractText :
    (Coroutine.answer (perform env) fault call world).2.extractText = world.extractText := by
  refine answer_of (fun after => after.extractText = world.extractText) rfl ?_
  cases call <;> simp only [perform, committed_extractText, stored_extractText, computed]
  case createCollection => split <;> rfl

theorem answer_isSome (present : world.collection.isSome) :
    (Coroutine.answer (perform env) fault call world).2.collection.isSome := by
  refine answer_of (fun after => after.collection.isSome) present ?_
  cases call <;> simp only [perform, committed_collection, computed, stored_isSome present, present]
  case createCollection => split <;> simp_all

theorem answer_stock (env : Env) (call : Call) (fault : Option (Coroutine.Fault PyException))
    (world : World) (reads : call.writesPoints = false) :
    (Coroutine.answer (perform env) fault call world).2.stock = world.stock := by
  refine answer_of (fun after => after.stock = world.stock) rfl ?_
  cases call <;> simp only [perform, World.stock, committed_collection, computed]
  case createCollection => split <;> simp_all [Collection.view_empty]
  case createPayloadIndex => exact stored_stock fun _ => rfl
  case count => exact stored_stock fun _ => rfl
  case queryPoints => exact stored_stock fun _ => rfl
  case scroll => exact stored_stock fun _ => rfl
  all_goals cases reads

theorem answer_table (reads : call.written? = none) :
    (Coroutine.answer (perform env) fault call world).2.table = world.table := by
  refine answer_of (fun after => after.table = world.table) rfl ?_
  cases call <;> simp only [perform, stored_table, computed]
  case createCollection => split <;> rfl
  all_goals cases reads

theorem answer_queue (quiet : ∀ payload, call ≠ .publish payload) :
    (Coroutine.answer (perform env) fault call world).2.queue = world.queue := by
  refine answer_of (fun after => after.queue = world.queue) rfl ?_
  cases call <;> simp only [perform, committed_queue, stored_queue, computed]
  case createCollection => split <;> rfl
  case publish payload => exact absurd rfl (quiet payload)

/-- A publish that is answered has appended its message; one that raises may
have. -/
theorem answer_publish (env : Env) (fault : Option (Coroutine.Fault PyException))
    (payload : JsonValue) (world : World) :
    (Coroutine.answer (perform env) fault (.publish payload) world).2 =
        { world with queue := world.queue ++ [payload] } ∨
      ((Coroutine.answer (perform env) fault (.publish payload) world).2 = world ∧
        ∃ raised, (Coroutine.answer (perform env) fault (.publish payload) world).1 =
          .error raised) := by
  cases fault with
  | none => exact .inl rfl
  | some fault => cases landed : fault.landed <;> simp [landed, perform]

/-- A create that is answered has written a queued row under a free key; one that
raises may have. -/
theorem answer_create (env : Env) (fault : Option (Coroutine.Fault PyException)) (jobId : String)
    (jobType : JobType) (clientId corpusId documentId fileType : String) (filePath : Option String)
    (world : World) :
    let call := Call.create jobId jobType clientId corpusId documentId fileType filePath
    (∃ row, world.table.rows jobId = none ∧ row.status = .queued ∧
        (Coroutine.answer (perform env) fault call world).2 =
          { world with table := world.table.commit jobId row }) ∨
      ((Coroutine.answer (perform env) fault call world).2 = world ∧
        ∃ raised, (Coroutine.answer (perform env) fault call world).1 = .error raised) := by
  intro call
  have performed : (∃ row, world.table.rows jobId = none ∧ row.status = .queued ∧
        (perform env call world).2 = { world with table := world.table.commit jobId row }) ∨
      ((perform env call world).2 = world ∧ ∃ raised, (perform env call world).1 = .error raised) := by
    change (∃ row, _ ∧ _ ∧ (world.committed (world.table.create ..)).2 = _) ∨
      ((world.committed (world.table.create ..)).2 = _ ∧ ∃ raised,
        (world.committed (world.table.create ..)).1 = _)
    cases created : world.table.create jobId jobType clientId corpusId documentId fileType filePath with
    | error error => exact .inr ⟨rfl, _, rfl⟩
    | ok made =>
      obtain ⟨row, table⟩ := made
      obtain ⟨free, queued, rfl⟩ := JobTable.create_ok created
      exact .inl ⟨row, free, queued, rfl⟩
  cases fault with
  | none => exact performed
  | some fault =>
    cases landed : fault.landed with
    | false => exact .inr ⟨by simp [landed], _, rfl⟩
    | true =>
      rcases performed with ⟨row, free, queued, after⟩ | ⟨same, _⟩
      · exact .inl ⟨row, free, queued, by simp [landed, after]⟩
      · exact .inr ⟨by simp [landed, same], _, rfl⟩

/-- A call that writes a row raises and leaves the table alone, or has written
the row, with or without a reply. -/
theorem answer_written (env : Env) (call : Call) (fault : Option (Coroutine.Fault PyException))
    (world : World) {jobId : String} {status : JobStatus}
    (writes : call.written? = some (jobId, status)) :
    ((Coroutine.answer (perform env) fault call world).2.table = world.table ∧
        ∃ raised, (Coroutine.answer (perform env) fault call world).1 = .error raised) ∨
      ∃ row, row.status = status ∧
        (Coroutine.answer (perform env) fault call world).2.table =
          world.table.commit jobId row := by
  have performed : ((perform env call world).2.table = world.table ∧
        ∃ raised, (perform env call world).1 = .error raised) ∨
      ∃ row, row.status = status ∧ (perform env call world).2.table = world.table.commit jobId row := by
    have written {result : Except PyException (Job × JobTable)}
        (commits : ∀ row table, result = .ok (row, table) →
          row.status = status ∧ table = world.table.commit jobId row) :
        ((world.committed result).2.table = world.table ∧
            ∃ raised, (world.committed result).1 = .error raised) ∨
          ∃ row, row.status = status ∧
            (world.committed result).2.table = world.table.commit jobId row := by
      rcases result with error | ⟨row, table⟩
      · exact .inl ⟨rfl, _, rfl⟩
      · exact .inr ⟨row, commits row table rfl⟩
    cases call <;> cases writes
    case create =>
      exact written fun row table created =>
        ⟨(JobTable.create_ok created).2.1, (JobTable.create_ok created).2.2⟩
    all_goals
      refine written fun row table moved => ?_
      obtain ⟨before, _, updated, committed⟩ := JobTable.transition_ok moved
      exact ⟨congrArg Job.status updated, committed⟩
  cases fault with
  | none => exact performed
  | some fault =>
    cases landed : fault.landed with
    | false => exact .inl ⟨by simp [landed], _, rfl⟩
    | true =>
      rcases performed with ⟨same, _⟩ | ⟨row, written, committed⟩
      · exact .inl ⟨by simp [landed, same], _, rfl⟩
      · exact .inr ⟨row, written, by simp [landed, committed]⟩

/-- A call commits one row at most. -/
theorem answer_commits (env : Env) (call : Call) (fault : Option (Coroutine.Fault PyException))
    (world : World) :
    (Coroutine.answer (perform env) fault call world).2.table = world.table ∨
      ∃ key row, (Coroutine.answer (perform env) fault call world).2.table =
        world.table.commit key row := by
  cases written : call.written? with
  | none => exact .inl (answer_table written)
  | some entry =>
    obtain ⟨key, status⟩ := entry
    rcases answer_written env call fault world written with ⟨same, _⟩ | ⟨row, _, committed⟩
    · exact .inl same
    · exact .inr ⟨key, row, committed⟩

theorem answer_status {jobId : String}
    (others : ∀ key status, call.written? = some (key, status) → key ≠ jobId) :
    (Coroutine.answer (perform env) fault call world).2.table.status? jobId =
      world.table.status? jobId := by
  cases written : call.written? with
  | none => rw [answer_table written]
  | some entry =>
    obtain ⟨key, status⟩ := entry
    rcases answer_written env call fault world written with ⟨same, _⟩ | ⟨row, _, committed⟩
    · rw [same]
    · rw [committed, JobTable.status?_commit, if_neg (others key status written)]

/-- The world itself raises exceptions only. -/
theorem perform_exception {raised : Raised PyException}
    (failed : (perform env call world).1 = .error raised) : ∃ error, raised = .exception error := by
  have stored {α : Type} {operation : Collection → α × Collection} {raised : Raised PyException}
      (failed : (world.stored operation).1 = .error raised) : ∃ error, raised = .exception error := by
    rcases stored_cases world operation with ⟨error, same⟩ | ⟨collection, _, same⟩ <;>
      rw [same] at failed <;> cases failed
    exact ⟨error, rfl⟩
  have committed {result : Except PyException (Job × JobTable)} {raised : Raised PyException}
      (failed : (world.committed result).1 = .error raised) : ∃ error, raised = .exception error := by
    rcases result with error | ⟨row, table⟩ <;> cases failed
    exact ⟨error, rfl⟩
  have computed {α : Type} {value : Except PyException α} {raised : Raised PyException}
      (failed : (computed world value).1 = .error raised) : ∃ error, raised = .exception error := by
    cases value <;> cases failed
    exact ⟨_, rfl⟩
  cases call
  case createCollection =>
    rw [perform] at failed
    split at failed <;> cases failed
    exact ⟨_, rfl⟩
  case create | markRunning | markSucceeded | markFailed => exact committed failed
  case extractText | embed | complete => exact computed failed
  case createPayloadIndex | upsertPoints | count | deletePoints | queryPoints | scroll =>
    exact stored failed
  all_goals cases failed

/-- The transition of a worker a call makes. -/
def Call.marks? : Call → Option (String × JobStatus)
  | .markRunning jobId => some (jobId, .running)
  | .markSucceeded jobId => some (jobId, .succeeded)
  | .markFailed jobId _ => some (jobId, .failed)
  | _ => none

/-- A transition of a row that exists is written, and answered unless a fault
strikes. -/
theorem answer_marks (env : Env) (call : Call) {jobId : String} {status : JobStatus}
    (marks : call.marks? = some (jobId, status)) (present : (world.table.rows jobId).isSome)
    (fault : Option (Coroutine.Fault PyException)) :
    ∃ row, row.status = status ∧
      match fault with
      | none => (∃ reply, (Coroutine.answer (perform env) fault call world).1 = .ok reply) ∧
          (Coroutine.answer (perform env) fault call world).2 =
            { world with table := world.table.commit jobId row }
      | some fault =>
          (Coroutine.answer (perform env) fault call world).1 = .error fault.raised ∧
          (Coroutine.answer (perform env) fault call world).2 =
            if fault.landed then { world with table := world.table.commit jobId row } else world := by
  obtain ⟨before, found⟩ := Option.isSome_iff_exists.mp present
  have moved (status : JobStatus) (message : Option (Option String)) : ∃ row, row.status = status ∧
      world.committed (world.table.transition jobId status message) =
        (.ok row, { world with table := world.table.commit jobId row }) := by
    rw [JobTable.transition_of_row found]
    exact ⟨_, rfl, rfl⟩
  have performed : ∃ row, row.status = status ∧ (∃ reply, (perform env call world).1 = .ok reply) ∧
      (perform env call world).2 = { world with table := world.table.commit jobId row } := by
    cases call <;> cases marks
    case markRunning =>
      obtain ⟨row, reached, same⟩ := moved .running none
      exact ⟨row, reached, ⟨row, congrArg Prod.fst same⟩, congrArg Prod.snd same⟩
    case markSucceeded =>
      obtain ⟨row, reached, same⟩ := moved .succeeded (some none)
      exact ⟨row, reached, ⟨row, congrArg Prod.fst same⟩, congrArg Prod.snd same⟩
    case markFailed text =>
      obtain ⟨row, reached, same⟩ := moved .failed (some (some (sliceTo text 2048)))
      exact ⟨row, reached, ⟨row, congrArg Prod.fst same⟩, congrArg Prod.snd same⟩
  obtain ⟨row, reached, replied, wrote⟩ := performed
  refine ⟨row, reached, ?_⟩
  cases fault with
  | none => exact ⟨replied, wrote⟩
  | some fault => exact ⟨rfl, by rw [Coroutine.answer_some, wrote]⟩

theorem answer_rows {jobId : String} (present : (world.table.rows jobId).isSome) :
    ((Coroutine.answer (perform env) fault call world).2.table.rows jobId).isSome := by
  cases written : call.written? with
  | none => rwa [answer_table written]
  | some entry =>
    obtain ⟨key, status⟩ := entry
    rcases answer_written env call fault world written with ⟨same, _⟩ | ⟨row, _, committed⟩
    · rwa [same]
    · rw [committed, JobTable.commit_rows, Function.update_apply]
      split
      · rfl
      · exact present

end Touches

end DocContext
