import DocContext.Workers.Lifecycle

/-! What one job does to the stored points, whatever goes wrong: nothing, or all
of its effect; all of it when the row ends up succeeded. -/

namespace DocContext

open Foundation Coroutine

/-- `extract_text` as the job finds it. -/
abbrev Extraction := String → String → Except PyException Text

/-- The chunks an index job stores. -/
def indexedChunks (env : Env) (extract : Extraction) (envelope : JobEnvelope) :
    Except PyException (List StoredChunk) :=
  match envelope.filePath.filter fun path => path ≠ "" with
  | none => .error DocumentWorker.missingPath
  | some path => do
    let text ← extract path envelope.fileType
    let chunks := env.chunker.chunk text
    if chunks.isEmpty then
      return []
    let vectors ← env.embed (chunks.map Chunk.text)
    DocumentWorker.storedChunks env envelope chunks vectors

/-- What an index job has read when its chunks could be computed. -/
theorem indexedChunks_ok {env : Env} {extract : Extraction} {envelope : JobEnvelope}
    {stored : List StoredChunk} (indexed : indexedChunks env extract envelope = .ok stored) :
    ∃ path text, envelope.filePath.filter (fun path => path ≠ "") = some path ∧
      extract path envelope.fileType = .ok text ∧
      ((env.chunker.chunk text = [] ∧ stored = []) ∨
        (env.chunker.chunk text ≠ [] ∧
          ∃ vectors, env.embed ((env.chunker.chunk text).map Chunk.text) = .ok vectors ∧
            DocumentWorker.storedChunks env envelope (env.chunker.chunk text) vectors =
              .ok stored)) := by
  unfold indexedChunks at indexed
  split at indexed
  · cases indexed
  · rename_i path located
    cases found : extract path envelope.fileType with
    | error error =>
      rw [found] at indexed
      cases indexed
    | ok text =>
      refine ⟨path, text, located, found, ?_⟩
      rw [found] at indexed
      change (if (env.chunker.chunk text).isEmpty then .ok [] else _) = Except.ok stored at indexed
      by_cases empty : (env.chunker.chunk text).isEmpty = true
      · rw [if_pos empty] at indexed
        exact .inl ⟨by simpa using empty, (Except.ok.inj indexed).symm⟩
      · rw [if_neg empty] at indexed
        refine .inr ⟨by simpa using empty, ?_⟩
        cases embedded : env.embed ((env.chunker.chunk text).map Chunk.text) with
        | error error =>
          rw [embedded] at indexed
          cases indexed
        | ok vectors =>
          rw [embedded] at indexed
          exact ⟨vectors, rfl, indexed⟩

/-- The points of an index job. -/
def indexedPoints (env : Env) (extract : Extraction) (envelope : JobEnvelope) : List Point :=
  match indexedChunks env extract envelope with
  | .ok stored => stored.map StoredChunk.point
  | .error _ => []

def inDocument (clientId documentId : String) (record : Record) : Bool :=
  record.payload.satisfies (documentFilter clientId documentId)

theorem inDocument_iff {clientId documentId : String} {record : Record} :
    inDocument clientId documentId record = true ↔
      record.payload.clientId = some clientId ∧ record.payload.documentId = some documentId :=
  satisfies_documentFilter ..

/-- What a call of a job can do to the points: nothing, or it writes the points of an index
job, or removes those of the document of a delete job. -/
theorem Stage.Awaits.stock {env : Env} {envelope : JobEnvelope} {stage : Stage} {call : Call}
    (awaits : Stage.Awaits env envelope stage call) (fault : Option (Fault PyException))
    (world : World) :
    (answer (perform env) fault call world).2.stock = world.stock ∨
      (∃ chunks vectors stored, envelope.jobType = .indexDocument ∧
        DocumentWorker.storedChunks env envelope chunks vectors = .ok stored ∧
        (answer (perform env) fault call world).2.stock =
          Store.write ((stored.map StoredChunk.point).map Point.entry) world.stock) ∨
      (envelope.jobType = .deleteDocument ∧
        (answer (perform env) fault call world).2.stock =
          Store.remove (inDocument envelope.clientId envelope.documentId) world.stock) := by
  cases awaits with
  | @write chunks vectors stored index paired =>
    rcases answer_world (perform env) fault (.upsertPoints (stored.map StoredChunk.point)) world with
      same | landed
    · exact .inl (congrArg World.stock same)
    · rcases perform_upsertPoints env (stored.map StoredChunk.point) world with ⟨same, _⟩ | written
      · exact .inl (congrArg World.stock (landed.trans same))
      · exact .inr (.inl ⟨chunks, vectors, stored, index, paired, by rw [landed, written]⟩)
  | delete isDelete =>
    let filter := documentFilter envelope.clientId envelope.documentId
    rcases answer_world (perform env) fault (.deletePoints filter) world with same | landed
    · exact .inl (congrArg World.stock same)
    · rcases perform_deletePoints env filter world with ⟨same, _⟩ | removed
      · exact .inl (congrArg World.stock (landed.trans same))
      · exact .inr (.inr ⟨isDelete, (congrArg World.stock landed).trans removed⟩)
  | start | extract | rejectPath | chunk | embed | list | createCollection | createPayloadIndex
  | rejectVectors | count | succeed | fail => exact .inl (answer_stock env _ fault world rfl)

/-- The whole effect of a job on the stored points. -/
def jobEffect (env : Env) (extract : Extraction) (envelope : JobEnvelope)
    (stock : Store String Record) : Store String Record :=
  match envelope.jobType with
  | .indexDocument => stock.write ((indexedPoints env extract envelope).map Point.entry)
  | .deleteDocument => stock.remove (inDocument envelope.clientId envelope.documentId)

/-- The job has had its whole effect; an index job had all its chunks to write. -/
structure Done (env : Env) (envelope : JobEnvelope) (start world : World) : Prop where
  stock : world.stock = jobEffect env start.extractText envelope start.stock
  indexed : envelope.jobType = .indexDocument →
    ∃ stored, indexedChunks env start.extractText envelope = .ok stored

/-- What a worker has read so far. -/
inductive Extracted (envelope : JobEnvelope) (extract : Extraction) (text : Text) : Prop where
  | intro (index : envelope.jobType = .indexDocument) (path : String)
      (located : envelope.filePath = some path) (nonempty : path ≠ "")
      (found : extract path envelope.fileType = .ok text)

/-- The stages between `mark_running` and the effect, with what they know. -/
def Underway (env : Env) (envelope : JobEnvelope) (start : World) : Stage → Prop
  | .running | .counted => True
  | .extracted text => Extracted envelope start.extractText text
  | .chunked chunks => ∃ text, Extracted envelope start.extractText text ∧
      chunks = env.chunker.chunk text ∧ chunks ≠ []
  | .embedded chunks vectors => ∃ text, Extracted envelope start.extractText text ∧
      chunks = env.chunker.chunk text ∧ chunks ≠ [] ∧
      env.embed (chunks.map Chunk.text) = .ok vectors
  | _ => False

/-- How the world stands to the world in which the job was received. -/
def Stands (env : Env) (envelope : JobEnvelope) (start : World) (stage : Stage) (world : World) :
    Prop :=
  match stage with
  | .received => world.stock = start.stock ∧ world.table = start.table
  | .refused => world.stock = start.stock ∧
      (world.table.status? envelope.jobId = some .succeeded →
        start.table.status? envelope.jobId = some .succeeded)
  | .finished =>
      world.table.status? envelope.jobId = some .running ∧ Done env envelope start world
  | .succeeded =>
      world.table.status? envelope.jobId = some .succeeded ∧ Done env envelope start world
  | .failed _ | .closed | .cancelled =>
      (world.stock = start.stock ∨ Done env envelope start world) ∧
        (world.table.status? envelope.jobId = some .succeeded → Done env envelope start world)
  | stage => world.stock = start.stock ∧
      world.table.status? envelope.jobId = some .running ∧ Underway env envelope start stage

structure Tracks (env : Env) (envelope : JobEnvelope) (start : World) (stage : Stage)
    (world : World) : Prop where
  row : stage = .received ∨ stage = .refused ∨ (start.table.rows envelope.jobId).isSome
  extract : world.extractText = start.extractText
  exists' : start.collection.isSome → world.collection.isSome
  stands : Stands env envelope start stage world

variable {env : Env} {envelope : JobEnvelope} {start world : World} {call : Call} {stage : Stage}
  {fault : Option (Fault PyException)}

theorem indexedChunks_of_extracted {text : Text}
    (extracted : Extracted envelope start.extractText text) :
    indexedChunks env start.extractText envelope =
      if (env.chunker.chunk text).isEmpty then .ok []
      else env.embed ((env.chunker.chunk text).map Chunk.text) >>=
        DocumentWorker.storedChunks env envelope (env.chunker.chunk text) := by
  obtain ⟨_, path, located, nonempty, found⟩ := extracted
  have kept : envelope.filePath.filter (fun path => path ≠ "") = some path := by
    simp [located, Option.filter, nonempty]
  rw [indexedChunks, kept]
  simp only [found]
  rfl

theorem stands_afterRaise (status : world.table.status? envelope.jobId = some .running)
    (stock : world.stock = start.stock ∨ Done env envelope start world)
    (raised : Raised PyException) : Stands env envelope start (Stage.afterRaise raised) world := by
  have running : world.table.status? envelope.jobId = some .succeeded →
      Done env envelope start world := by
    intro succeeded
    rw [status] at succeeded
    cases succeeded
  cases raised with
  | exception error => exact ⟨stock, running⟩
  | cancelled => exact ⟨stock, running⟩

/-- A call of the work that leaves rows and points alone. -/
theorem stands_read (reads : call.written? = none) (keeps : call.writesPoints = false)
    (raises : ∀ raised, stage.moves call (.error raised) = Stage.afterRaise raised)
    (stock : world.stock = start.stock)
    (status : world.table.status? envelope.jobId = some .running)
    (replied : ∀ value after, (perform env call world).1 = .ok value →
      after.stock = start.stock → after.table.status? envelope.jobId = some .running →
      Stands env envelope start (stage.moves call (.ok value)) after) :
    Stands env envelope start (stage.moves call (answer (perform env) fault call world).1)
      (answer (perform env) fault call world).2 := by
  have stock' := (answer_stock env call fault world keeps).trans stock
  have status' : (answer (perform env) fault call world).2.table.status? envelope.jobId =
      some .running := by
    rw [answer_table reads, status]
  cases reply : (answer (perform env) fault call world).1 with
  | error raised =>
    rw [raises]
    exact stands_afterRaise status' (.inl stock') raised
  | ok value =>
    cases fault with
    | none => exact replied value _ reply stock' status'
    | some fault => cases reply

/-- The call of the work that has the effect of the job. -/
theorem stands_changed (reads : call.written? = none)
    (raises : ∀ raised, stage.moves call (.error raised) = Stage.afterRaise raised)
    (finishes : ∀ value, stage.moves call (.ok value) = .finished)
    (stock : world.stock = start.stock)
    (status : world.table.status? envelope.jobId = some .running)
    (performed : ((perform env call world).2 = world ∧
        ∃ raised, (perform env call world).1 = .error raised) ∨
      Done env envelope start (perform env call world).2) :
    Stands env envelope start (stage.moves call (answer (perform env) fault call world).1)
      (answer (perform env) fault call world).2 := by
  have status' : (answer (perform env) fault call world).2.table.status? envelope.jobId =
      some .running := by
    rw [answer_table reads, status]
  have stock' : (answer (perform env) fault call world).2.stock = start.stock ∨
      Done env envelope start (answer (perform env) fault call world).2 := by
    refine answer_of (fun after =>
      after.stock = start.stock ∨ Done env envelope start after) (.inl stock) ?_
    rcases performed with ⟨same, _⟩ | done
    · rw [same]
      exact .inl stock
    · exact .inr done
  cases reply : (answer (perform env) fault call world).1 with
  | error raised =>
    rw [raises]
    exact stands_afterRaise status' stock' raised
  | ok value =>
    rw [finishes]
    cases fault with
    | some fault => cases reply
    | none =>
      rcases performed with ⟨_, raised, failed⟩ | done
      · cases reply.symm.trans failed
      · exact ⟨status', done⟩

theorem write_performed {chunks : List Chunk} {vectors : List (List PyFloat)}
    {stored : List StoredChunk} (index : envelope.jobType = .indexDocument)
    (paired : DocumentWorker.storedChunks env envelope chunks vectors = .ok stored)
    (underway : Underway env envelope start (.embedded chunks vectors))
    (stock : world.stock = start.stock) :
    ((perform env (.upsertPoints (stored.map StoredChunk.point)) world).2 = world ∧
        ∃ raised, (perform env (.upsertPoints (stored.map StoredChunk.point)) world).1 =
          .error raised) ∨
      Done env envelope start (perform env (.upsertPoints (stored.map StoredChunk.point)) world).2 := by
  obtain ⟨text, extracted, rfl, nonempty, embedded⟩ := underway
  have indexed : indexedChunks env start.extractText envelope = .ok stored := by
    rw [indexedChunks_of_extracted extracted, if_neg (by simpa using nonempty), embedded]
    exact paired
  rcases perform_upsertPoints env (stored.map StoredChunk.point) world with failed | written
  · exact .inl failed
  · refine .inr ⟨?_, fun _ => ⟨stored, indexed⟩⟩
    rw [jobEffect, index, indexedPoints, indexed, ← stock]
    exact written

theorem delete_performed (delete : envelope.jobType = .deleteDocument)
    (stock : world.stock = start.stock) :
    ((perform env (.deletePoints (documentFilter envelope.clientId envelope.documentId)) world).2 =
          world ∧
        ∃ raised, (perform env
          (.deletePoints (documentFilter envelope.clientId envelope.documentId)) world).1 =
            .error raised) ∨
      Done env envelope start
        (perform env (.deletePoints (documentFilter envelope.clientId envelope.documentId)) world).2 := by
  rcases perform_deletePoints env (documentFilter envelope.clientId envelope.documentId) world with
    failed | removed
  · exact .inl failed
  · refine .inr ⟨?_, fun index => by rw [delete] at index; cases index⟩
    rw [jobEffect, delete, ← stock]
    exact removed

theorem lacks_of_count_zero {clientId documentId : String}
    (counted : (perform env (.count (documentFilter clientId documentId)) world).1 = .ok 0) :
    Store.Lacks (inDocument clientId documentId) world.stock := by
  intro id record held
  rw [perform] at counted
  rcases stored_cases world fun collection =>
    (collection.count (documentFilter clientId documentId), collection) with
    ⟨error, failed⟩ | ⟨collection, present, answered⟩
  · rw [failed] at counted
    cases counted
  · rw [answered] at counted
    rw [stock_of_some present] at held
    exact (collection.count_eq_zero _).mp (Except.ok.inj counted) ⟨id, record⟩ held

theorem done_of_count_zero {after : World} (delete : envelope.jobType = .deleteDocument)
    (counted : (perform env (.count (documentFilter envelope.clientId envelope.documentId)) world).1 =
      .ok 0)
    (stock : world.stock = start.stock) (stock' : after.stock = start.stock) :
    Done env envelope start after := by
  refine ⟨?_, fun index => by rw [delete] at index; cases index⟩
  have clear := lacks_of_count_zero counted
  rw [stock] at clear
  rw [stock', jobEffect, delete]
  exact (Store.remove_eq_self clear).symm

theorem stands_started (stands : Stands env envelope start .received world) :
    Stands env envelope start
      (Stage.received.moves (.markRunning envelope.jobId)
        (answer (perform env) fault (.markRunning envelope.jobId) world).1)
      (answer (perform env) fault (.markRunning envelope.jobId) world).2 := by
  obtain ⟨stock, table⟩ := stands
  have stock' := (answer_stock env (.markRunning envelope.jobId) fault world rfl).trans stock
  rcases answer_written env (.markRunning envelope.jobId) fault world rfl with
    ⟨same, raised, reply⟩ | ⟨row, running, committed⟩
  · rw [reply]
    refine ⟨stock', fun succeeded => ?_⟩
    rwa [same, table] at succeeded
  · have status : (answer (perform env) fault (.markRunning envelope.jobId) world).2.table.status?
        envelope.jobId = some .running := by
      rw [committed, JobTable.status?_commit, if_pos rfl, running]
    cases (answer (perform env) fault (.markRunning envelope.jobId) world).1 with
    | ok row => exact ⟨stock', status, trivial⟩
    | error raised =>
      refine ⟨stock', fun succeeded => ?_⟩
      rw [status] at succeeded
      cases succeeded

theorem stands_succeeding (stands : Stands env envelope start .finished world) :
    Stands env envelope start
      (Stage.finished.moves (.markSucceeded envelope.jobId)
        (answer (perform env) fault (.markSucceeded envelope.jobId) world).1)
      (answer (perform env) fault (.markSucceeded envelope.jobId) world).2 := by
  obtain ⟨_, stock, indexed⟩ := stands
  have done : Done env envelope start
      (answer (perform env) fault (.markSucceeded envelope.jobId) world).2 :=
    ⟨(answer_stock env _ fault world rfl).trans stock, indexed⟩
  rcases answer_written env (.markSucceeded envelope.jobId) fault world rfl with
    ⟨same, raised, reply⟩ | ⟨row, succeeded, committed⟩
  · rw [reply]
    cases raised with
    | exception error => exact ⟨.inr done, fun _ => done⟩
    | cancelled => exact ⟨.inr done, fun _ => done⟩
  · cases (answer (perform env) fault (.markSucceeded envelope.jobId) world).1 with
    | ok reply =>
      refine ⟨?_, done⟩
      rw [committed, JobTable.status?_commit, if_pos rfl, succeeded]
    | error raised =>
      cases raised with
      | exception error => exact ⟨.inr done, fun _ => done⟩
      | cancelled => exact ⟨.inr done, fun _ => done⟩

/-- Recording a failure leaves the points alone; if the row still reads
succeeded, the work had been done. -/
theorem stands_failing {text : String}
    (stock : world.stock = start.stock ∨ Done env envelope start world)
    (status : world.table.status? envelope.jobId = some .succeeded → Done env envelope start world) :
    Stands env envelope start .closed
      (answer (perform env) fault (.markFailed envelope.jobId text) world).2 := by
  have stock' := answer_stock env (.markFailed envelope.jobId text) fault world rfl
  have carried (done : Done env envelope start world) : Done env envelope start
      (answer (perform env) fault (.markFailed envelope.jobId text) world).2 :=
    ⟨stock'.trans done.stock, done.indexed⟩
  refine ⟨stock.imp stock'.trans carried, fun succeeded => ?_⟩
  rcases answer_written env (.markFailed envelope.jobId text) fault world rfl with
    ⟨same, _⟩ | ⟨row, failed, committed⟩
  · rw [same] at succeeded
    exact carried (status succeeded)
  · rw [committed, JobTable.status?_commit, if_pos rfl, failed] at succeeded
    cases succeeded

/-- An empty text leaves nothing to do. -/
theorem stands_chunked {text : Text} (stands : Stands env envelope start (.extracted text) world) :
    Stands env envelope start
      ((Stage.extracted text).moves (.chunk text) (answer (perform env) fault (.chunk text) world).1)
      (answer (perform env) fault (.chunk text) world).2 := by
  obtain ⟨stock, status, extracted⟩ := stands
  refine stands_read rfl rfl (fun _ => rfl) stock status fun chunks after found stock' status' => ?_
  have same : env.chunker.chunk text = chunks := Except.ok.inj found
  by_cases empty : chunks.isEmpty = true
  · have next : (Stage.extracted text).moves (.chunk text) (.ok chunks) = .finished := if_pos empty
    have none : indexedChunks env start.extractText envelope = .ok [] := by
      rw [indexedChunks_of_extracted extracted, same, if_pos empty]
    rw [next]
    refine ⟨status', ?_, fun _ => ⟨[], none⟩⟩
    obtain ⟨index, _⟩ := extracted
    rw [stock', jobEffect, index, indexedPoints, none]
    rfl
  · have next : (Stage.extracted text).moves (.chunk text) (.ok chunks) = .chunked chunks :=
      if_neg empty
    rw [next]
    exact ⟨stock', status', text, extracted, same.symm, by simpa using empty⟩

/-- A delete job that counts no points is at its end. -/
theorem stands_counted (delete : envelope.jobType = .deleteDocument)
    (stands : Stands env envelope start .running world) :
    Stands env envelope start
      (Stage.running.moves (.count (documentFilter envelope.clientId envelope.documentId))
        (answer (perform env) fault
          (.count (documentFilter envelope.clientId envelope.documentId)) world).1)
      (answer (perform env) fault
        (.count (documentFilter envelope.clientId envelope.documentId)) world).2 := by
  obtain ⟨stock, status, _⟩ := stands
  refine stands_read rfl rfl (fun _ => rfl) stock status fun count after found stock' status' => ?_
  by_cases zero : count = 0
  · subst zero
    exact ⟨status', done_of_count_zero delete found stock stock'⟩
  · have next : Stage.running.moves (.count (documentFilter envelope.clientId envelope.documentId))
        (.ok count) = .counted := if_neg zero
    rw [next]
    exact ⟨stock', status', trivial⟩

/-- Each call of a job, however it is answered. -/
theorem stands_answered (awaits : Stage.Awaits env envelope stage call)
    (extract : world.extractText = start.extractText)
    (stands : Stands env envelope start stage world) :
    Stands env envelope start (stage.moves call (answer (perform env) fault call world).1)
      (answer (perform env) fault call world).2 := by
  cases awaits with
  | start => exact stands_started stands
  | succeed => exact stands_succeeding stands
  | fail => exact stands_failing stands.1 stands.2
  | rejectPath | rejectVectors =>
    obtain ⟨stock, status, _⟩ := stands
    refine stands_failing (.inl stock) fun succeeded => ?_
    rw [status] at succeeded
    cases succeeded
  | @extract path index located nonempty =>
    obtain ⟨stock, status, _⟩ := stands
    refine stands_read rfl rfl (fun _ => rfl) stock status fun text after found stock' status' => ?_
    refine ⟨stock', status', index, path, located, nonempty, ?_⟩
    rw [← extract]
    exact mapError_eq_ok_iff.mp found
  | chunk => exact stands_chunked stands
  | @embed chunks =>
    obtain ⟨stock, status, text, extracted, chunked, nonempty⟩ := stands
    refine stands_read rfl rfl (fun _ => rfl) stock status fun vectors after found stock' status' => ?_
    exact ⟨stock', status', text, extracted, chunked, nonempty, mapError_eq_ok_iff.mp found⟩
  | list | createCollection | createPayloadIndex =>
    obtain ⟨stock, status, underway⟩ := stands
    exact stands_read rfl rfl (fun _ => rfl) stock status fun _ _ _ stock' status' =>
      ⟨stock', status', underway⟩
  | write index paired =>
    obtain ⟨stock, status, underway⟩ := stands
    exact stands_changed rfl (fun _ => rfl) (fun _ => rfl) stock status
      (write_performed index paired underway stock)
  | count delete => exact stands_counted delete stands
  | delete delete =>
    obtain ⟨stock, status, _⟩ := stands
    exact stands_changed rfl (fun _ => rfl) (fun _ => rfl) stock status
      (delete_performed delete stock)

/-- Only a job with a row gets past `mark_running`. -/
theorem row_answered (awaits : Stage.Awaits env envelope stage call)
    (tracks : Tracks env envelope start stage world) :
    stage.moves call (answer (perform env) fault call world).1 = .refused ∨
      (start.table.rows envelope.jobId).isSome := by
  rcases tracks.row with rfl | rfl | row
  · cases awaits
    cases reply : (answer (perform env) fault (.markRunning envelope.jobId) world).1 with
    | error raised => exact .inl rfl
    | ok row =>
      right
      cases fault with
      | some fault => cases reply
      | none =>
        rw [← tracks.stands.2]
        rw [answer_none, perform] at reply
        cases moved : world.table.markRunning envelope.jobId with
        | error error =>
          rw [moved] at reply
          cases reply
        | ok updated =>
          obtain ⟨before, found, _⟩ := JobTable.transition_ok moved
          rw [found]
          rfl
  · cases awaits
  · exact .inr row

theorem Tracks.answered (awaits : Stage.Awaits env envelope stage call)
    (tracks : Tracks env envelope start stage world) :
    Tracks env envelope start (stage.moves call (answer (perform env) fault call world).1)
      (answer (perform env) fault call world).2 where
  row := .inr (row_answered awaits tracks)
  extract := answer_extractText.trans tracks.extract
  exists' := fun present => answer_isSome (tracks.exists' present)
  stands := stands_answered awaits tracks.extract tracks.stands

/-- What a whole job leaves behind, under any plan of faults. -/
structure Outcome (env : Env) (envelope : JobEnvelope) (start : World)
    (ended : Except (Raised PyException) Unit × World) : Prop where
  extract : ended.2.extractText = start.extractText
  exists' : start.collection.isSome → ended.2.collection.isSome
  stock : ended.2.stock = start.stock ∨
    ((start.table.rows envelope.jobId).isSome ∧ Done env envelope start ended.2)
  succeeded : ended.2.table.status? envelope.jobId = some .succeeded →
    start.table.status? envelope.jobId = some .succeeded ∨ Done env envelope start ended.2
  returned : ended.1 = .ok () →
    ended.2.table.status? envelope.jobId = some .succeeded ∧ Done env envelope start ended.2

theorem handleEnvelope_outcome (env : Env) (envelope : JobEnvelope)
    (plan : List (Option (Fault PyException))) (start : World) :
    Outcome env envelope start
      (execPlanned (perform env) plan (DocumentWorker.handleEnvelope env envelope) start) := by
  have arrived : Tracks env envelope start .received start := ⟨.inl rfl, rfl, id, rfl, rfl⟩
  obtain ⟨last, ⟨row, extract, exists', stands⟩, ended⟩ :=
    execPlanned_follows (perform env) (Tracks env envelope start)
      (fun _ _ _ _ awaits tracks => tracks.answered awaits) plan
      (DocumentWorker.handleEnvelope_follows env envelope) arrived
  rcases ended with ⟨rfl, returned⟩ | ⟨(rfl | rfl | rfl), raised, failed⟩
  · have found : (start.table.rows envelope.jobId).isSome := by simpa using row
    exact ⟨extract, exists', .inr ⟨found, stands.2⟩, fun _ => .inr stands.2, fun _ => stands⟩
  · refine ⟨extract, exists', .inl stands.1, fun status => .inl (stands.2 status), fun returned => ?_⟩
    cases failed.symm.trans returned
  · have found : (start.table.rows envelope.jobId).isSome := by simpa using row
    refine ⟨extract, exists', stands.1.imp id (⟨found, ·⟩), fun status => .inr (stands.2 status),
      fun returned => ?_⟩
    cases failed.symm.trans returned
  · have found : (start.table.rows envelope.jobId).isSome := by simpa using row
    refine ⟨extract, exists', stands.1.imp id (⟨found, ·⟩), fun status => .inr (stands.2 status),
      fun returned => ?_⟩
    cases failed.symm.trans returned

end DocContext
