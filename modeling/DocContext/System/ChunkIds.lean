import DocContext.System.Settlement
import DocContext.Workers.Grounds
import DocContext.VectorStores.Contents

/-! Chunk ids: a name determines its document and its index, so the chunks of one
upsert have distinct ids, and a store that only workers write keeps every point
under the id of its own document and index. -/

namespace DocContext

open Foundation Coroutine

/-- The id of the document and the index a record carries. -/
def Record.ownId (env : Env) (record : Record) : String :=
  chunkIdFor env (record.payload.documentId.getD "") (record.payload.chunkIndex.getD 0)

section Upserts

variable {env : Env} {envelope : JobEnvelope} {chunks : List Chunk}
  {vectors : List (List PyFloat)} {stored : List StoredChunk}

theorem ownId_point
    (paired : DocumentWorker.storedChunks env envelope chunks vectors = .ok stored)
    {entry : String × Record}
    (member : entry ∈ (stored.map StoredChunk.point).map Point.entry) :
    entry.1 = entry.2.ownId env := by
  obtain ⟨point, pointed, rfl⟩ := List.mem_map.mp member
  obtain ⟨chunk, listed, rfl⟩ := List.mem_map.mp pointed
  obtain ⟨pair, _, rfl⟩ := storedChunks_mem paired listed
  rfl

theorem storedChunks_length
    (paired : DocumentWorker.storedChunks env envelope chunks vectors = .ok stored) :
    stored.length = chunks.length := by
  have counts := congrArg List.length (storedChunks_ids paired)
  simpa using counts

end Upserts

/-- The upsert of a text's chunks returns their number, and adds or replaces as many
points. -/
theorem upsert_takes {env : Env} (injective : Function.Injective env.uuid5)
    {envelope : JobEnvelope} {text : Text} {vectors : List (List PyFloat)}
    {stored : List StoredChunk}
    (paired : DocumentWorker.storedChunks env envelope (env.chunker.chunk text) vectors =
      .ok stored)
    {world : World} {collection : Collection} (present : world.collection = some collection) :
    ∃ after, (QdrantVectorStore.upsert stored).exec (perform env) world =
        (.ok (env.chunker.chunk text).length, { world with collection := some after }) ∧
      collection.Takes (stored.map StoredChunk.point) after ∧
      (stored.map StoredChunk.point).length = (env.chunker.chunk text).length := by
  have len := storedChunks_length paired
  have distinct : ((stored.map StoredChunk.point).map Point.id).Nodup := by
    rw [ids_of_points]
    exact storedChunks_nodup injective paired
  refine ⟨_, ?_, collection.takes_upsert distinct, by rw [List.length_map, len]⟩
  rw [exec_upsert stored present, len]

namespace System

variable {env : Env} {system after : System env}

/-- Every point stands under the id of its own document and index. -/
def Named (system : System env) : Prop := Store.Keyed (Record.ownId env) system.world.stock

theorem named_step {action : Action} (named : system.Named)
    (stepped : system.step action = some after) : after.Named := by
  rcases step_stock stepped with
    same | ⟨envelope, chunks, vectors, stored, paired, written⟩ | ⟨envelope, removed⟩
  · rw [Named, same]
    exact named
  · rw [Named, written]
    exact named.write fun entry member => ownId_point paired member
  · rw [Named, removed]
    exact named.remove _

theorem named_initial {collection : Option Collection}
    (unfilled : ∀ found ∈ collection, ∃ dim, found = .empty dim) (extractText : Extraction) :
    (initial env collection extractText).Named := by
  have empty : (initial env collection extractText).world.stock = fun _ => none := by
    cases collection with
    | none => rfl
    | some found =>
      obtain ⟨dim, rfl⟩ := unfilled found rfl
      exact Collection.view_empty dim
  rw [Named, empty]
  exact Store.keyed_empty _

theorem named_of_reaches {collection : Option Collection}
    (unfilled : ∀ found ∈ collection, ∃ dim, found = .empty dim) {extractText : Extraction}
    (reaches : Reaches step anyStep (initial env collection extractText) system) : system.Named :=
  reaches.invariant Named (fun _ _ _ _ stepped named => named_step named stepped)
    (named_initial unfilled extractText)

theorem Named.alone (named : system.Named) {collection : Collection}
    (present : system.world.collection = some collection) {point other : Point}
    (held : collection.Holds point) (held' : collection.Holds other)
    (document : point.record.payload.documentId = other.record.payload.documentId)
    (index : point.record.payload.chunkIndex = other.record.payload.chunkIndex) :
    point = other := by
  have ids : point.id = other.id := by
    rw [Named, stock_of_some present] at named
    rw [named _ _ held, named _ _ held', Record.ownId, Record.ownId, document, index]
  rw [Collection.Holds, ids] at held
  have records := Option.some.inj (held.symm.trans held')
  obtain ⟨id, record⟩ := point
  exact congrArg₂ Point.mk ids records

/-- Names of chunks never collide; with an injective `uuid5` their ids do not either, and the
upsert of a text's chunks has distinct ids and adds or replaces one point for each chunk; and
no reachable store holds two points of one document and index. -/
theorem chunk_ids_unique (env : Env) :
    (∀ (documentId documentId' : String) (index index' : Nat),
      documentId ++ ":" ++ toString index = documentId' ++ ":" ++ toString index' →
        documentId = documentId' ∧ index = index') ∧
    (Function.Injective env.uuid5 →
      (∀ (documentId documentId' : String) (index index' : Nat),
        chunkIdFor env documentId index = chunkIdFor env documentId' index' →
          documentId = documentId' ∧ index = index') ∧
      ∀ (envelope : JobEnvelope) (text : Text) (vectors : List (List PyFloat))
        (stored : List StoredChunk),
        DocumentWorker.storedChunks env envelope (env.chunker.chunk text) vectors = .ok stored →
        (stored.map StoredChunk.chunkId).Nodup ∧
          ∀ world collection, world.collection = some collection →
            ∃ after, (QdrantVectorStore.upsert stored).exec (perform env) world =
                (.ok (env.chunker.chunk text).length, { world with collection := some after }) ∧
              collection.Takes (stored.map StoredChunk.point) after ∧
              (stored.map StoredChunk.point).length = (env.chunker.chunk text).length) ∧
    ∀ (initially : Option Collection) (extractText : Extraction) (system : System env),
      (∀ found ∈ initially, ∃ dim, found = .empty dim) →
      Reaches step anyStep (initial env initially extractText) system →
      ∀ collection, system.world.collection = some collection →
        ∀ point other, collection.Holds point → collection.Holds other →
          point.record.payload.documentId = other.record.payload.documentId →
          point.record.payload.chunkIndex = other.record.payload.chunkIndex → point = other := by
  refine ⟨fun _ _ _ _ => numbered_inj, ?_, ?_⟩
  · refine fun injective => ⟨fun _ _ _ _ => chunkIdFor_inj injective, ?_⟩
    intro envelope text vectors stored paired
    exact ⟨storedChunks_nodup injective paired, fun _ _ => upsert_takes injective paired⟩
  · intro initially extractText system unfilled reaches collection present point other
    exact (named_of_reaches unfilled reaches).alone present

open Sample

/-- An index job that is worked off, and the chunk of its text. -/
theorem chunk_ids_unique_sample :
    (∃ stored, DocumentWorker.storedChunks Sample.env (indexJob "1" "c" "d" "path")
        (Sample.env.chunker.chunk "path".toList) [[.finite 1]] = .ok stored ∧
        (stored.map StoredChunk.chunkId).Nodup) ∧
      ∃ (system : System Sample.env) (collection : Collection) (point : Point),
        system.world.collection = some collection ∧ collection.Holds point ∧
          ∀ other, collection.Holds other →
            point.record.payload.documentId = other.record.payload.documentId →
            point.record.payload.chunkIndex = other.record.payload.chunkIndex → point = other := by
  constructor
  · refine ⟨_, rfl, ?_⟩
    exact (((chunk_ids_unique Sample.env).2.1 Function.injective_id).2 (indexJob "1" "c" "d" "path")
      "path".toList [[.finite 1]] _ rfl).1
  · obtain ⟨system, played, collection, present, record, held⟩ : ∃ system : System Sample.env,
        (submitted pathJob 0 0 ++ calls 0 11).foldlM step fresh = some system ∧
          ∃ collection, system.world.collection = some collection ∧
            ∃ record, collection.view (chunkIdFor Sample.env "d" 0) = some record :=
      ⟨_, rfl, _, rfl, _, rfl⟩
    have reaches : Reaches step anyStep fresh system :=
      reaches_of_play (fun _ _ _ => trivial) played
    have alone := (chunk_ids_unique Sample.env).2.2 none Sample.extract system (by simp) reaches
      collection present
    exact ⟨system, collection, ⟨_, record⟩, present, held, fun other => alone _ other held⟩

end System

end DocContext
