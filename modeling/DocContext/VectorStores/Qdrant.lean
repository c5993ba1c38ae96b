import DocContext.Calls

/-! `QdrantVectorStore`: every method is a coroutine over its remote calls. A
worker runs each method in a thread, and the thread outlives a worker that is cancelled. -/

namespace DocContext

open Foundation

def matchValue (key value : String) : FieldCondition := ⟨key, .value value⟩

def matchAny (key : String) (values : List String) : FieldCondition := ⟨key, .any values⟩

/-- The filter of `delete_by_document`. -/
def documentFilter (clientId documentId : String) : Filter :=
  [matchValue "client_id" clientId, matchValue "document_id" documentId]

/-- The filter of `list_chunks_for_corpora`. -/
def corporaFilter (clientId : String) (corpusIds : List String) : Filter :=
  [matchValue "client_id" clientId, matchAny "corpus_id" corpusIds]

/-- The filter of `search`, which leaves the corpora out when there are none. -/
def searchFilter (clientId : String) (corpusIds : List String) : Filter :=
  [matchValue "client_id" clientId] ++
    if corpusIds.isEmpty then [] else [matchAny "corpus_id" corpusIds]

/-- The point a chunk is stored as. -/
def StoredChunk.point (chunk : StoredChunk) : Point where
  id := chunk.chunkId
  record := {
    vector := chunk.vector
    payload := {
      chunkId := some chunk.chunkId
      documentId := some chunk.documentId
      corpusId := some chunk.corpusId
      clientId := some chunk.clientId
      chunkIndex := some chunk.chunkIndex
      charStart := some chunk.charStart
      charEnd := some chunk.charEnd
      text := some chunk.text
      fileType := some chunk.fileType } }

/-- The chunk read back from a point, with a default for every missing key. -/
def Point.retrieved (point : Point) (score : PyFloat) : RetrievedChunk where
  chunkId := point.record.payload.chunkId.getD point.id
  documentId := point.record.payload.documentId.getD ""
  corpusId := point.record.payload.corpusId.getD ""
  clientId := point.record.payload.clientId.getD ""
  chunkIndex := point.record.payload.chunkIndex.getD 0
  charStart := point.record.payload.charStart.getD 0
  charEnd := point.record.payload.charEnd.getD 0
  text := point.record.payload.text.getD []
  fileType := point.record.payload.fileType.getD ""
  score := score

namespace QdrantVectorStore

def ensureCollection (env : Env) (dim : Nat) : Task Unit := do
  let existing ← request .getCollections
  if existing.contains env.collectionName then
    return
  request (.createCollection dim)
  request (.createPayloadIndex "client_id")
  request (.createPayloadIndex "corpus_id")
  request (.createPayloadIndex "document_id")

def upsert (chunks : List StoredChunk) : Task Nat := do
  if chunks.isEmpty then
    return 0
  let points := chunks.map StoredChunk.point
  request (.upsertPoints points)
  return points.length

def search (queryVector : List PyFloat) (clientId : String) (corpusIds : List String)
    (topK : Nat) : Task (List RetrievedChunk) := do
  let points ← request (.queryPoints queryVector (searchFilter clientId corpusIds) topK)
  return points.map fun hit => hit.1.retrieved hit.2

/-- The `while` loop. Every page but the last adds a point, so it takes at most
`limit` rounds. -/
def scrollLoop (filter : Filter) (limit page : Nat) (out : List RetrievedChunk)
    (offset : Option String) : Nat → Task (List RetrievedChunk)
  | 0 => return out
  | rounds + 1 => do
    if out.length < limit then
      let (points, nextOffset) ← request (.scroll filter (min page (limit - out.length)) offset)
      let out := out ++ points.map fun point => point.retrieved (.finite 0)
      if nextOffset.isNone then
        return out
      scrollLoop filter limit page out nextOffset rounds
    else
      return out

def listChunksForCorpora (clientId : String) (corpusIds : List String) (limit : Int := 10000) :
    Task (List RetrievedChunk) := do
  if corpusIds.isEmpty || limit ≤ 0 then
    return []
  let limit := limit.toNat
  scrollLoop (corporaFilter clientId corpusIds) limit (min limit 512) [] none limit

def deleteByDocument (clientId documentId : String) : Task Nat := do
  let filter := documentFilter clientId documentId
  let count ← request (.count filter)
  if count = 0 then
    return 0
  request (.deletePoints filter)
  return count

end QdrantVectorStore

theorem satisfies_documentFilter (payload : Payload) (clientId documentId : String) :
    payload.satisfies (documentFilter clientId documentId) = true ↔
      payload.clientId = some clientId ∧ payload.documentId = some documentId := by
  cases client : payload.clientId <;> cases document : payload.documentId <;>
    simp [Payload.satisfies, documentFilter, matchValue, Payload.keyword?, Match.accepts, client,
      document]

theorem satisfies_corporaFilter (payload : Payload) (clientId : String) (corpusIds : List String) :
    payload.satisfies (corporaFilter clientId corpusIds) = true ↔
      payload.clientId = some clientId ∧ ∃ corpusId ∈ corpusIds, payload.corpusId = some corpusId := by
  cases client : payload.clientId <;> cases corpus : payload.corpusId <;>
    simp [Payload.satisfies, corporaFilter, matchValue, matchAny, Payload.keyword?, Match.accepts,
      client, corpus]

theorem searchFilter_eq (clientId : String) {corpusIds : List String} (nonempty : corpusIds ≠ []) :
    searchFilter clientId corpusIds = corporaFilter clientId corpusIds := by
  simp [searchFilter, corporaFilter, nonempty]

end DocContext
