import DocContext.VectorStores.Listing

/-! What a collection holds, told in the chunks that were written to it, and what
a listing of it returns. -/

namespace DocContext

open Foundation Coroutine

/-- The chunk as it is listed: all its fields, and no score. -/
def StoredChunk.unscored (chunk : StoredChunk) : RetrievedChunk where
  chunkId := chunk.chunkId
  documentId := chunk.documentId
  corpusId := chunk.corpusId
  clientId := chunk.clientId
  chunkIndex := chunk.chunkIndex
  charStart := chunk.charStart
  charEnd := chunk.charEnd
  text := chunk.text
  fileType := chunk.fileType
  score := .finite 0

theorem retrieved_point (chunk : StoredChunk) :
    chunk.point.retrieved (.finite 0) = chunk.unscored := rfl

/-- A use of one of the two writing methods. -/
inductive Write where
  | upsert (chunks : List StoredChunk)
  | deleteByDocument (clientId documentId : String)

namespace Write

def task : Write → Task Nat
  | .upsert chunks => QdrantVectorStore.upsert chunks
  | .deleteByDocument clientId documentId => QdrantVectorStore.deleteByDocument clientId documentId

/-- What a write does to a store of chunks. -/
def effect : Write → Store String StoredChunk → Store String StoredChunk
  | .upsert chunks => Store.write (chunks.map fun chunk => (chunk.chunkId, chunk))
  | .deleteByDocument clientId documentId =>
    Store.remove fun chunk => chunk.clientId = clientId && chunk.documentId = documentId

/-- The world after some writes in a row. -/
def runAll (env : Env) (world : World) (writes : List Write) : World :=
  writes.foldl (fun world write => (write.task.exec (perform env) world).2) world

/-- The chunks some writes in a row leave, by their ids. -/
def contents (writes : List Write) : Store String StoredChunk :=
  writes.foldl (fun chunks write => write.effect chunks) fun _ => none

end Write

section Writes

variable {env : Env} {world : World} {collection : Collection}

theorem exec_upsert (chunks : List StoredChunk) (present : world.collection = some collection) :
    (QdrantVectorStore.upsert chunks).exec (perform env) world =
      (.ok chunks.length, { world with
        collection := some (collection.upsert (chunks.map StoredChunk.point)) }) := by
  unfold QdrantVectorStore.upsert
  cases chunks with
  | nil =>
    obtain ⟨table, queue, stored, extractText, permits⟩ := world
    cases present
    rfl
  | cons chunk rest =>
    simp [exec_bind, exec_request, perform, World.stored, present]

theorem delete_of_count_zero {filter : Filter} (none : collection.count filter = 0) :
    (collection.delete filter).view = collection.view := by
  rw [Collection.view_delete]
  apply Store.remove_eq_self
  intro id record held
  exact (collection.count_eq_zero filter).mp none ⟨id, record⟩ held

theorem exec_deleteByDocument (env : Env) (clientId documentId : String)
    (present : world.collection = some collection) :
    ∃ count after, (QdrantVectorStore.deleteByDocument clientId documentId).exec (perform env) world =
        (.ok count, { world with collection := some after }) ∧
      after.view = (collection.delete (documentFilter clientId documentId)).view := by
  obtain ⟨table, queue, stored, extractText, permits⟩ := world
  cases present
  unfold QdrantVectorStore.deleteByDocument
  simp only [bind_eq, exec_bind, exec_request, perform, World.stored, continueWith_ok]
  split
  · rename_i none
    exact ⟨0, collection, rfl, (delete_of_count_zero none).symm⟩
  · simp only [exec_bind, exec_request, perform, World.stored, continueWith_ok]
    exact ⟨_, _, rfl, rfl⟩

/-- A store of chunks as records. -/
abbrev records : Store String StoredChunk → Store String Record :=
  Store.map fun chunk => chunk.point.record

theorem records_upsert (chunks : List StoredChunk) (store : Store String StoredChunk) :
    records ((Write.upsert chunks).effect store) =
      Store.write ((chunks.map StoredChunk.point).map Point.entry) (records store) := by
  rw [Write.effect, records, Store.map_write, List.map_map, List.map_map]
  rfl

theorem records_delete (clientId documentId : String) (store : Store String StoredChunk) :
    records ((Write.deleteByDocument clientId documentId).effect store) =
      Store.remove (fun record => record.payload.satisfies (documentFilter clientId documentId))
        (records store) := by
  apply Store.map_remove
  intro chunk
  rw [Bool.eq_iff_iff, satisfies_documentFilter]
  simp [StoredChunk.point]

theorem exec_write (env : Env) (write : Write) (present : world.collection = some collection)
    {store : Store String StoredChunk} (same : collection.view = records store) :
    ∃ after, (write.task.exec (perform env) world).2 = { world with collection := some after } ∧
      after.view = records (write.effect store) := by
  cases write with
  | upsert chunks =>
    rw [Write.task, exec_upsert chunks present, records_upsert, ← same]
    exact ⟨_, rfl, collection.view_upsert _⟩
  | deleteByDocument clientId documentId =>
    obtain ⟨count, after, ran, deleted⟩ := exec_deleteByDocument env clientId documentId present
    rw [Collection.view_delete, same] at deleted
    rw [Write.task, ran]
    exact ⟨after, rfl, deleted.trans (records_delete clientId documentId store).symm⟩

theorem runAll_snoc (env : Env) (world : World) (writes : List Write) (write : Write) :
    Write.runAll env world (writes ++ [write]) =
      (write.task.exec (perform env) (Write.runAll env world writes)).2 := by
  simp [Write.runAll]

theorem contents_snoc (writes : List Write) (write : Write) :
    Write.contents (writes ++ [write]) = write.effect (Write.contents writes) := by
  simp [Write.contents]

theorem runAll_contents (env : Env) {dim : Nat} (fresh : world.collection = some (.empty dim))
    (writes : List Write) :
    ∃ after, (Write.runAll env world writes).collection = some after ∧
      after.view = records (Write.contents writes) := by
  induction writes using List.reverseRecOn with
  | nil => exact ⟨_, fresh, Collection.view_empty dim⟩
  | append_singleton writes write ih =>
    obtain ⟨before, present, same⟩ := ih
    obtain ⟨after, ran, written⟩ := exec_write env write present same
    rw [runAll_snoc, contents_snoc, ran]
    exact ⟨after, rfl, written⟩

theorem contents_keyed (writes : List Write) :
    Store.Keyed StoredChunk.chunkId (Write.contents writes) := by
  induction writes using List.reverseRecOn with
  | nil => exact Store.keyed_empty _
  | append_singleton writes write ih =>
    rw [contents_snoc]
    cases write with
    | upsert chunks =>
      apply ih.write
      intro entry member
      obtain ⟨chunk, _, same⟩ := List.mem_map.mp member
      subst same
      rfl
    | deleteByDocument clientId documentId => exact ih.remove _

theorem written_of_holds {dim : Nat} {start : World} (fresh : start.collection = some (.empty dim))
    (writes : List Write) (present : (Write.runAll env start writes).collection = some collection)
    {point : Point} (held : collection.Holds point) :
    ∃ chunk, Write.contents writes chunk.chunkId = some chunk ∧ point = chunk.point := by
  obtain ⟨after, found, same⟩ := runAll_contents env fresh writes
  cases present.symm.trans found
  rw [Collection.Holds, same] at held
  obtain ⟨chunk, kept, read⟩ := Option.map_eq_some_iff.mp held
  have own := contents_keyed writes _ _ kept
  rw [own] at kept
  exact ⟨chunk, kept, congrArg₂ Point.mk own read.symm⟩

end Writes

/-- Listing is exact: in a loop that ends and leaves the world as it is, the first
points of the client and the corpora in id order, as many as the limit lets
through and none twice; on a collection that was written through the store's own
methods, each is the chunk last written under its id. -/
theorem listing_exact (env : Env) (world : World) (collection : Collection)
    (present : world.collection = some collection) (clientId : String) (corpusIds : List String)
    (nonempty : corpusIds ≠ []) (limit : Int) :
    let matching := collection.matching (corporaFilter clientId corpusIds)
    let listed := matching.take limit.toNat
    let chunks := listed.map fun point => point.retrieved (.finite 0)
    (QdrantVectorStore.listChunksForCorpora clientId corpusIds limit).exec (perform env) world =
        (.ok chunks, world) ∧
      (0 < limit → ∃ calls, Scrolls (perform env) world (corporaFilter clientId corpusIds)
        limit.toNat (min limit.toNat 512) calls [] none chunks) ∧
      (limit ≤ 0 → chunks = []) ∧
      chunks.length = min limit.toNat matching.length ∧
      InOrder matching ∧
      (∀ point, point ∈ matching ↔ collection.Holds point ∧
        point.record.payload.clientId = some clientId ∧
          ∃ corpusId ∈ corpusIds, point.record.payload.corpusId = some corpusId) ∧
      ∀ start dim writes, start.collection = some (.empty dim) →
        world = Write.runAll env start writes →
        ∀ point ∈ listed, ∃ chunk, Write.contents writes chunk.chunkId = some chunk ∧
          point = chunk.point ∧ point.retrieved (.finite 0) = chunk.unscored := by
  intro matching listed chunks
  have ordered : InOrder matching := collection.matching_sorted _
  have answers (limit : Nat) (offset : Option String) :
      perform env (.scroll (corporaFilter clientId corpusIds) limit offset) world =
        (.ok (Collection.pageOf matching limit offset), world) := by
    obtain ⟨table, queue, stored, extractText, permits⟩ := world
    cases present
    rfl
  refine ⟨exec_listChunksForCorpora nonempty ordered answers limit, ?_, ?_, ?_, ordered, ?_, ?_⟩
  · intro positive
    have page : 0 < min limit.toNat 512 := by omega
    have start : Reached matching 0 none := rfl
    have nothing : limit.toNat - ([] : List RetrievedChunk).length = limit.toNat := Nat.sub_zero _
    obtain ⟨calls, _, scrolls⟩ := scrolls_rest ordered answers page start nothing
    exact ⟨calls, scrolls⟩
  · intro negative
    have zero : limit.toNat = 0 := by omega
    simp [chunks, listed, zero]
  · simp [chunks, listed]
  · intro point
    rw [Collection.mem_matching, satisfies_corporaFilter]
  · intro start dim writes fresh same point member
    subst same
    have held := (collection.mem_matching _ _).mp (List.mem_of_mem_take member)
    obtain ⟨chunk, kept, read⟩ := written_of_holds fresh writes present held.1
    subst read
    exact ⟨chunk, kept, rfl, retrieved_point chunk⟩

private def twoPoints : Collection :=
  (Collection.empty 1).upsert
    [⟨"b", [], ⟨some "b", some "d", some "corpus", some "c", some 1, some 2, some 4, some [], none⟩⟩,
      ⟨"a", [], ⟨none, none, some "corpus", some "c", none, none, none, none, none⟩⟩]

private def twoPointsWorld : World :=
  ⟨JobTable.empty, [], some twoPoints, fun path _ => .ok path.toList, 10⟩

/-- A limit of one point, in a collection of two with missing keys. -/
theorem listing_exact_sample :
    let matching := twoPoints.matching (corporaFilter "c" ["corpus"])
    let listed := matching.take 1
    let chunks := listed.map fun point => point.retrieved (.finite 0)
    (QdrantVectorStore.listChunksForCorpora "c" ["corpus"] 1).exec (perform Sample.env)
        twoPointsWorld = (.ok chunks, twoPointsWorld) ∧
      ((0 : Int) < 1 → ∃ calls, Scrolls (perform Sample.env) twoPointsWorld
        (corporaFilter "c" ["corpus"]) 1 (min 1 512) calls [] none chunks) ∧
      ((1 : Int) ≤ 0 → chunks = []) ∧
      chunks.length = min 1 matching.length ∧
      InOrder matching ∧
      (∀ point, point ∈ matching ↔ twoPoints.Holds point ∧
        point.record.payload.clientId = some "c" ∧
          ∃ corpusId ∈ ["corpus"], point.record.payload.corpusId = some corpusId) ∧
      ∀ start dim writes, start.collection = some (.empty dim) →
        twoPointsWorld = Write.runAll Sample.env start writes →
        ∀ point ∈ listed, ∃ chunk, Write.contents writes chunk.chunkId = some chunk ∧
          point = chunk.point ∧ point.retrieved (.finite 0) = chunk.unscored :=
  listing_exact Sample.env twoPointsWorld twoPoints rfl "c" ["corpus"] (by decide) 1

end DocContext
