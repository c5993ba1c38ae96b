import DocContext.Workers.Progress
import DocContext.Chunking.Ranges
import DocContext.Foundation.Naming

/-! Jobs processed one after another, each under its own faults and with its own
files, and what each leaves in the store. -/

namespace DocContext

open Foundation Coroutine

/-! The points an index job writes. -/

theorem storedChunks_eq {env : Env} {envelope : JobEnvelope} {chunks : List Chunk}
    {vectors : List (List PyFloat)} {stored : List StoredChunk}
    (paired : DocumentWorker.storedChunks env envelope chunks vectors = .ok stored) :
    chunks.length = vectors.length ∧
      stored = (chunks.zip vectors).map fun pair =>
        DocumentWorker.storedChunk env envelope pair.1 pair.2 := by
  unfold DocumentWorker.storedChunks zipStrict at paired
  split at paired
  · rename_i same
    exact ⟨same, (Except.ok.inj paired).symm⟩
  · split at paired <;> cases paired

theorem storedChunks_mem {env : Env} {envelope : JobEnvelope} {chunks : List Chunk}
    {vectors : List (List PyFloat)} {stored : List StoredChunk}
    (paired : DocumentWorker.storedChunks env envelope chunks vectors = .ok stored)
    {chunk : StoredChunk} (member : chunk ∈ stored) :
    ∃ pair ∈ chunks.zip vectors, chunk = DocumentWorker.storedChunk env envelope pair.1 pair.2 := by
  obtain ⟨_, rfl⟩ := storedChunks_eq paired
  obtain ⟨pair, listed, rfl⟩ := List.mem_map.mp member
  exact ⟨pair, listed, rfl⟩

theorem storedChunk_ids {env : Env} {envelope : JobEnvelope} {chunks : List Chunk}
    {vectors : List (List PyFloat)} (same : chunks.length = vectors.length) :
    ((chunks.zip vectors).map fun pair =>
        DocumentWorker.storedChunk env envelope pair.1 pair.2).map StoredChunk.chunkId =
      (chunks.map Chunk.chunkIndex).map (chunkIdFor env envelope.documentId) := by
  conv_rhs => rw [← List.map_fst_zip (Nat.le_of_eq same)]
  simp only [List.map_map]
  rfl

theorem storedChunks_ids {env : Env} {envelope : JobEnvelope} {chunks : List Chunk}
    {vectors : List (List PyFloat)} {stored : List StoredChunk}
    (paired : DocumentWorker.storedChunks env envelope chunks vectors = .ok stored) :
    stored.map StoredChunk.chunkId =
      (chunks.map Chunk.chunkIndex).map (chunkIdFor env envelope.documentId) := by
  obtain ⟨same, rfl⟩ := storedChunks_eq paired
  exact storedChunk_ids same

theorem ids_of_points (stored : List StoredChunk) :
    (stored.map StoredChunk.point).map Point.id = stored.map StoredChunk.chunkId := by
  rw [List.map_map]
  rfl

/-- The payload a chunk of a job is to be stored with. -/
def chunkPayload (env : Env) (envelope : JobEnvelope) (chunk : Chunk) : Payload where
  chunkId := some (chunkIdFor env envelope.documentId chunk.chunkIndex)
  documentId := some envelope.documentId
  corpusId := some envelope.corpusId
  clientId := some envelope.clientId
  chunkIndex := some chunk.chunkIndex
  charStart := some chunk.charStart
  charEnd := some chunk.charEnd
  text := some chunk.text
  fileType := some envelope.fileType

/-- The point a chunk of a job is to be stored as. -/
def chunkPoint (env : Env) (envelope : JobEnvelope) (chunk : Chunk) (vector : List PyFloat) :
    Point where
  id := chunkIdFor env envelope.documentId chunk.chunkIndex
  record := { vector, payload := chunkPayload env envelope chunk }

/-- The points are the chunks of the text, each with the vector the embedder gave it. -/
def PointsOf (env : Env) (envelope : JobEnvelope) (text : Text) (points : List Point) : Prop :=
  ∃ vectors, vectors.length = (env.chunker.chunk text).length ∧
    (env.chunker.chunk text ≠ [] →
      env.embed ((env.chunker.chunk text).map Chunk.text) = .ok vectors) ∧
    points = (env.chunker.chunk text).zipWith (chunkPoint env envelope) vectors

theorem PointsOf.unique {env : Env} {envelope : JobEnvelope} {text : Text} {points points' : List Point}
    (made : PointsOf env envelope text points) (made' : PointsOf env envelope text points') :
    points = points' := by
  obtain ⟨vectors, same, embedded, rfl⟩ := made
  obtain ⟨vectors', same', embedded', rfl⟩ := made'
  by_cases empty : env.chunker.chunk text = []
  · rw [empty]
    rfl
  · cases (embedded empty).symm.trans (embedded' empty)
    rfl

theorem pointsOf_nil {env : Env} {envelope : JobEnvelope} {text : Text}
    (empty : env.chunker.chunk text = []) : PointsOf env envelope text [] := by
  refine ⟨[], ?_, fun nonempty => absurd empty nonempty, ?_⟩ <;> rw [empty] <;> rfl

theorem pointsOf_stored {env : Env} {envelope : JobEnvelope} {text : Text}
    {vectors : List (List PyFloat)} {stored : List StoredChunk}
    (embedded : env.embed ((env.chunker.chunk text).map Chunk.text) = .ok vectors)
    (paired : DocumentWorker.storedChunks env envelope (env.chunker.chunk text) vectors =
      .ok stored) : PointsOf env envelope text (stored.map StoredChunk.point) := by
  obtain ⟨same, rfl⟩ := storedChunks_eq paired
  refine ⟨vectors, same.symm, fun _ => embedded, ?_⟩
  rw [List.map_map, List.zip, List.map_zipWith]
  rfl

/-- The chunks an index job stores are those of its text, numbered from 0. -/
theorem indexedChunks_chunks {env : Env} {extract : Extraction} {envelope : JobEnvelope}
    {stored : List StoredChunk} (indexed : indexedChunks env extract envelope = .ok stored) :
    ∃ path text, envelope.filePath.filter (fun path => path ≠ "") = some path ∧
      extract path envelope.fileType = .ok text ∧
      ∃ vectors : List (List PyFloat), vectors.length = (env.chunker.chunk text).length ∧
        stored = ((env.chunker.chunk text).zip vectors).map fun pair =>
          DocumentWorker.storedChunk env envelope pair.1 pair.2 := by
  obtain ⟨path, text, located, found, chunks⟩ := indexedChunks_ok indexed
  refine ⟨path, text, located, found, ?_⟩
  rcases chunks with ⟨empty, rfl⟩ | ⟨_, vectors, _, paired⟩
  · exact ⟨[], by rw [empty]; rfl, by rw [empty]; rfl⟩
  · obtain ⟨same, rfl⟩ := storedChunks_eq paired
    exact ⟨vectors, same.symm, rfl⟩

theorem chunkIdFor_inj {env : Env} (injective : Function.Injective env.uuid5)
    {documentId documentId' : String} {index index' : Nat}
    (same : chunkIdFor env documentId index = chunkIdFor env documentId' index') :
    documentId = documentId' ∧ index = index' :=
  numbered_inj (injective same)

section Points

variable {env : Env} {extract : Extraction} {envelope : JobEnvelope}

/-- Every point an index job writes carries the job's own fields, and an id made
of its document and its index. -/
theorem mem_indexedPoints {point : Point} (member : point ∈ indexedPoints env extract envelope) :
    point.record.payload.clientId = some envelope.clientId ∧
      point.record.payload.documentId = some envelope.documentId ∧
      point.record.payload.corpusId = some envelope.corpusId ∧
      ∃ index, point.record.payload.chunkIndex = some index ∧
        point.id = chunkIdFor env envelope.documentId index := by
  unfold indexedPoints at member
  split at member
  · rename_i stored indexed
    obtain ⟨path, text, _, _, vectors, _, rfl⟩ := indexedChunks_chunks indexed
    obtain ⟨chunk, listed, rfl⟩ := List.mem_map.mp member
    obtain ⟨pair, _, rfl⟩ := List.mem_map.mp listed
    exact ⟨rfl, rfl, rfl, pair.1.chunkIndex, rfl, rfl⟩
  · simp at member

theorem indexedPoints_ids :
    (indexedPoints env extract envelope).map Point.id =
      (List.range (indexedPoints env extract envelope).length).map
        (chunkIdFor env envelope.documentId) := by
  unfold indexedPoints
  split
  · rename_i stored indexed
    obtain ⟨path, text, _, _, vectors, same, rfl⟩ := indexedChunks_chunks indexed
    rw [ids_of_points, storedChunk_ids same.symm, env.chunker.chunk_indexes]
    simp [same]
  · rfl

theorem mem_ids {id : String} :
    id ∈ ((indexedPoints env extract envelope).map Point.entry).map Prod.fst ↔
      ∃ index < (indexedPoints env extract envelope).length,
        id = chunkIdFor env envelope.documentId index := by
  have ids : ((indexedPoints env extract envelope).map Point.entry).map Prod.fst =
      (indexedPoints env extract envelope).map Point.id := by
    rw [List.map_map]
    rfl
  rw [ids, indexedPoints_ids]
  simp only [List.mem_map, List.mem_range, eq_comm]

theorem ids_distinct (injective : Function.Injective env.uuid5) :
    (((indexedPoints env extract envelope).map Point.entry).map Prod.fst).Nodup := by
  rw [List.map_map]
  change ((indexedPoints env extract envelope).map Point.id).Nodup
  rw [indexedPoints_ids]
  exact List.Nodup.map (fun _ _ same => (chunkIdFor_inj injective same).2) List.nodup_range

theorem mem_entries {id : String} {record : Record} :
    (id, record) ∈ (indexedPoints env extract envelope).map Point.entry ↔
      (⟨id, record⟩ : Point) ∈ indexedPoints env extract envelope := by
  constructor
  · intro member
    obtain ⟨point, listed, same⟩ := List.mem_map.mp member
    cases same
    exact listed
  · exact fun member => List.mem_map.mpr ⟨_, member, rfl⟩

theorem inDocument_indexed {point : Point} (member : point ∈ indexedPoints env extract envelope) :
    inDocument envelope.clientId envelope.documentId point.record = true :=
  inDocument_iff.mpr ⟨(mem_indexedPoints member).1, (mem_indexedPoints member).2.1⟩

end Points

/-! Runs of jobs. -/

/-- One delivery of a job to a worker: the rows and files it finds, and the
faults that strike its calls. -/
structure Delivery where
  envelope : JobEnvelope
  wellFormed : envelope.WellFormed
  table : JobTable
  extract : Extraction
  plan : List (Option (Fault PyException))

namespace Delivery

/-- The world as the job finds it. -/
def arrival (delivery : Delivery) (world : World) : World :=
  { world with table := delivery.table, extractText := delivery.extract }

/-- `DocumentWorker.handle` on the delivered message. -/
def process (env : Env) (delivery : Delivery) (world : World) :
    Except (Raised PyException) Unit × World :=
  execPlanned (perform env) delivery.plan
    (DocumentWorker.handle env delivery.envelope.toPayload) (delivery.arrival world)

/-- The job ended succeeded in this delivery. -/
def Completed (env : Env) (delivery : Delivery) (world : World) : Prop :=
  (delivery.process env world).1 = .ok () ∨
    (delivery.table.status? delivery.envelope.jobId ≠ some .succeeded ∧
      (delivery.process env world).2.table.status? delivery.envelope.jobId = some .succeeded)

/-- What the job writes or removes, if it completes. -/
def effect (env : Env) (delivery : Delivery) : Store String Record → Store String Record :=
  jobEffect env delivery.extract delivery.envelope

/-- The points an index job writes. -/
def points (env : Env) (delivery : Delivery) : List Point :=
  indexedPoints env delivery.extract delivery.envelope

/-- The text an index job extracts. -/
def text (delivery : Delivery) : Text :=
  match delivery.envelope.filePath.filter fun path => path ≠ "" with
  | none => []
  | some path => ((delivery.extract path delivery.envelope.fileType).toOption).getD []

/-- The chunks of the text an index job extracts. -/
def chunks (env : Env) (delivery : Delivery) : List Chunk := env.chunker.chunk delivery.text

theorem text_eq (delivery : Delivery) {path : String} {text : Text}
    (located : delivery.envelope.filePath.filter (fun path => path ≠ "") = some path)
    (found : delivery.extract path delivery.envelope.fileType = .ok text) : delivery.text = text := by
  rw [Delivery.text, located]
  simp only [found]
  rfl

def payload (env : Env) (delivery : Delivery) (chunk : Chunk) : Payload :=
  chunkPayload env delivery.envelope chunk

theorem points_chunks {env : Env} {delivery : Delivery} {stored : List StoredChunk}
    (indexed : indexedChunks env delivery.extract delivery.envelope = .ok stored) :
    (delivery.points env).map (fun point => (point.id, point.record.payload)) =
      (delivery.chunks env).map fun chunk =>
        (chunkIdFor env delivery.envelope.documentId chunk.chunkIndex, delivery.payload env chunk) := by
  have written : delivery.points env = stored.map StoredChunk.point := by
    rw [points, indexedPoints, indexed]
  obtain ⟨path, text, located, found, vectors, same, rfl⟩ := indexedChunks_chunks indexed
  have read : delivery.chunks env = env.chunker.chunk text := by
    rw [chunks, delivery.text_eq located found]
  conv_rhs => rw [read, ← List.map_fst_zip (Nat.le_of_eq same.symm), List.map_map]
  rw [written, List.map_map, List.map_map]
  rfl

theorem handle_eq (env : Env) {envelope : JobEnvelope} (wellFormed : envelope.WellFormed) :
    DocumentWorker.handle env envelope.toPayload = DocumentWorker.handleEnvelope env envelope := by
  unfold DocumentWorker.handle
  rw [JobEnvelope.fromPayload_of_wellFormed env.repr wellFormed]
  rfl

theorem process_outcome (env : Env) (delivery : Delivery) (world : World) :
    Outcome env delivery.envelope (delivery.arrival world) (delivery.process env world) := by
  rw [process, handle_eq env delivery.wellFormed]
  exact handleEnvelope_outcome env delivery.envelope delivery.plan (delivery.arrival world)

theorem process_done {env : Env} {delivery : Delivery} {world : World}
    (completed : delivery.Completed env world) :
    Done env delivery.envelope (delivery.arrival world) (delivery.process env world).2 := by
  have outcome := delivery.process_outcome env world
  rcases completed with returned | ⟨fresh, succeeded⟩
  · exact (outcome.returned returned).2
  · exact (outcome.succeeded succeeded).resolve_left fresh

theorem process_stock {env : Env} {delivery : Delivery} {world : World}
    (completed : delivery.Completed env world) :
    (delivery.process env world).2.stock = delivery.effect env world.stock :=
  (process_done completed).stock

theorem process_returns {env : Env} {delivery : Delivery} {world : World}
    (calm : delivery.plan = []) (row : (delivery.table.rows delivery.envelope.jobId).isSome)
    (ready : Ready env delivery.envelope (delivery.arrival world)) :
    (delivery.process env world).1 = .ok () := by
  obtain ⟨found, present⟩ := Option.isSome_iff_exists.mp row
  rw [process, handle_eq env delivery.wellFormed, calm, execPlanned_nil]
  obtain ⟨after, ran, _⟩ := handleEnvelope_runs present ready
  rw [ran]

theorem ready_of_points {env : Env} {delivery : Delivery} (world : World)
    (index : delivery.envelope.jobType = .indexDocument) (some : delivery.points env ≠ []) :
    Ready env delivery.envelope (delivery.arrival world) := by
  rw [Ready, index]
  cases indexed : indexedChunks env delivery.extract delivery.envelope with
  | ok stored => exact ⟨stored, indexed⟩
  | error error => simp [points, indexedPoints, indexed] at some

theorem process_writes {env : Env} {delivery : Delivery} {world : World}
    (completed : delivery.Completed env world)
    (index : delivery.envelope.jobType = .indexDocument)
    (number : Nat) (within : number < (delivery.points env).length) :
    ∃ record, (⟨chunkIdFor env delivery.envelope.documentId number, record⟩ : Point) ∈
        delivery.points env ∧
      (delivery.process env world).2.stock (chunkIdFor env delivery.envelope.documentId number) =
        some record := by
  obtain ⟨record, member, stored⟩ := Store.write_own (mem_ids.mpr ⟨number, within, rfl⟩)
  refine ⟨record, mem_entries.mp member, ?_⟩
  rw [process_stock completed, effect, jobEffect, index]
  exact stored _

end Delivery

/-- Deliveries processed one after another. -/
def processAll (env : Env) (world : World) (deliveries : List Delivery) : World :=
  deliveries.foldl (fun world delivery => (delivery.process env world).2) world

/-- Every job of a run ends succeeded. -/
def AllCompleted (env : Env) : World → List Delivery → Prop
  | _, [] => True
  | world, delivery :: rest =>
    delivery.Completed env world ∧ AllCompleted env (delivery.process env world).2 rest

theorem processAll_stock {env : Env} {world : World} {deliveries : List Delivery}
    (completed : AllCompleted env world deliveries) :
    (processAll env world deliveries).stock =
      deliveries.foldl (fun stock delivery => delivery.effect env stock) world.stock := by
  induction deliveries generalizing world with
  | nil => rfl
  | cons delivery rest ih =>
    rw [List.foldl_cons, ← Delivery.process_stock completed.1, ← ih completed.2]
    rfl

theorem indexed_of_completed {env : Env} {world : World} {deliveries : List Delivery}
    (completed : AllCompleted env world deliveries) {delivery : Delivery}
    (member : delivery ∈ deliveries) (index : delivery.envelope.jobType = .indexDocument) :
    ∃ stored, indexedChunks env delivery.extract delivery.envelope = .ok stored := by
  induction deliveries generalizing world with
  | nil => simp at member
  | cons first rest ih =>
    rcases List.mem_cons.mp member with same | later
    · subst same
      exact (Delivery.process_done completed.1).indexed index
    · exact ih completed.2 later

/-! A small deployment whose files hold their path. -/

namespace Sample

def extract : Extraction := fun path _ => .ok path.toList

def indexJob (jobId clientId documentId path : String) : JobEnvelope :=
  ⟨jobId, .indexDocument, clientId, "corpus", documentId, "txt", some path⟩

def deleteJob (jobId clientId documentId : String) : JobEnvelope :=
  ⟨jobId, .deleteDocument, clientId, "", documentId, "", none⟩

/-- The table of one submitted job. -/
def table (job : JobEnvelope) : JobTable :=
  JobTable.empty.commit job.jobId
    ⟨job.jobId, job.jobType, .queued, job.clientId, job.corpusId, job.documentId, job.fileType,
      job.filePath, none⟩

/-- A job delivered once, and nothing going wrong. -/
def delivery (job : JobEnvelope) (wellFormed : job.WellFormed := by decide) : Delivery :=
  ⟨job, wellFormed, table job, extract, []⟩

def world (collection : Option Collection) : World := ⟨JobTable.empty, [], collection, extract, 10⟩

theorem row (job : JobEnvelope) : ((table job).rows job.jobId).isSome := by simp [table]

theorem completed {job : JobEnvelope} {wellFormed : job.WellFormed} (start : World)
    (index : job.jobType = .indexDocument) (some : (delivery job wellFormed).points env ≠ []) :
    (delivery job wellFormed).Completed env start :=
  .inl (Delivery.process_returns rfl (row job) (Delivery.ready_of_points start index some))

theorem completedDelete {job : JobEnvelope} {wellFormed : job.WellFormed} {start : World}
    (delete : job.jobType = .deleteDocument) (present : start.collection.isSome) :
    (delivery job wellFormed).Completed env start := by
  refine .inl (Delivery.process_returns rfl (row job) ?_)
  simp only [Ready, delivery, delete]
  exact present

end Sample

end DocContext
