import DocContext.Workers.Runs
import DocContext.Chunking.Ranges

/-! What the handler of one job has in its hands, and what its calls make of it:
texts of its file, their chunks and vectors, and the points it writes. -/

namespace DocContext

open Foundation Coroutine

theorem storedChunks_nodup {env : Env} (injective : Function.Injective env.uuid5)
    {envelope : JobEnvelope} {text : Text} {vectors : List (List PyFloat)}
    {stored : List StoredChunk}
    (paired : DocumentWorker.storedChunks env envelope (env.chunker.chunk text) vectors =
      .ok stored) : (stored.map StoredChunk.chunkId).Nodup := by
  rw [storedChunks_ids paired, env.chunker.chunk_indexes]
  exact List.nodup_range.map fun _ _ same => (chunkIdFor_inj injective same).2

/-- What a handler has in its hands comes from a text that it could extract. -/
def Stage.Knows (env : Env) (extracts : Text → Prop) : Stage → Prop
  | .extracted text => extracts text
  | .chunked chunks => ∃ text, extracts text ∧ chunks = env.chunker.chunk text ∧ chunks ≠ []
  | .embedded chunks vectors => ∃ text, extracts text ∧ chunks = env.chunker.chunk text ∧
      chunks ≠ [] ∧ env.embed (chunks.map Chunk.text) = .ok vectors
  | _ => True

theorem Stage.Knows.imp {env : Env} {extracts extracts' : Text → Prop} {stage : Stage}
    (knows : stage.Knows env extracts) (implies : ∀ text, extracts text → extracts' text) :
    stage.Knows env extracts' := by
  cases stage with
  | extracted text => exact implies text knows
  | chunked chunks =>
    obtain ⟨text, found, rest⟩ := knows
    exact ⟨text, implies text found, rest⟩
  | embedded chunks vectors =>
    obtain ⟨text, found, rest⟩ := knows
    exact ⟨text, implies text found, rest⟩
  | received | refused | running | counted | finished | failed | succeeded | closed | cancelled =>
    trivial

theorem knows_afterRaise {env : Env} {extracts : Text → Prop} (raised : Raised PyException) :
    (Stage.afterRaise raised).Knows env extracts := by
  cases raised <;> trivial

section Answers

variable {env : Env} {envelope : JobEnvelope} {stage : Stage} {call : Call} {world : World}
  {fault : Option (Fault PyException)} {extracts : Text → Prop}

theorem unfaulted {value : Reply call}
    (found : (answer (perform env) fault call world).1 = .ok value) : fault = none := by
  cases fault with
  | none => rfl
  | some fault => cases found

theorem replied_of_ok {value : Reply call}
    (found : (answer (perform env) fault call world).1 = .ok value) :
    (perform env call world).1 = .ok value := by
  rwa [unfaulted found, answer_none] at found

/-- Every reply leaves a handler with what its file holds. -/
theorem knows_answered (now : ∀ text, Extracted envelope world.extractText text → extracts text)
    (awaits : Stage.Awaits env envelope stage call) (knows : stage.Knows env extracts) :
    (stage.moves call (answer (perform env) fault call world).1).Knows env extracts := by
  cases reply : (answer (perform env) fault call world).1 with
  | error raised =>
    cases awaits with
    | start | fail | rejectPath | rejectVectors => trivial
    | extract | chunk | embed | list | createCollection | createPayloadIndex | write | count
    | delete | succeed => exact knows_afterRaise raised
  | ok value =>
    have found := replied_of_ok reply
    cases awaits with
    | start | succeed | fail | rejectPath | rejectVectors | write | delete => trivial
    | list | createCollection | createPayloadIndex => exact knows
    | count =>
      simp only [Stage.moves]
      split <;> trivial
    | @extract path index located nonempty =>
      exact now value ⟨index, path, located, nonempty, mapError_eq_ok_iff.mp found⟩
    | @chunk text =>
      have chunked : env.chunker.chunk text = value := Except.ok.inj found
      simp only [Stage.moves]
      split
      · trivial
      · rename_i nonempty
        exact ⟨text, knows, chunked.symm, by simpa using nonempty⟩
    | @embed chunks =>
      obtain ⟨text, extracts, chunked, nonempty⟩ := knows
      exact ⟨text, extracts, chunked, nonempty, mapError_eq_ok_iff.mp found⟩

/-- What a call of a job does to the points: it writes none, or those of a text, or
removes those of its document. -/
theorem stock_answered (awaits : Stage.Awaits env envelope stage call)
    (knows : stage.Knows env extracts) :
    (answer (perform env) fault call world).2.stock = world.stock ∨
      (envelope.jobType = .indexDocument ∧ ∃ text points, extracts text ∧
        PointsOf env envelope text points ∧
        (answer (perform env) fault call world).2.stock =
          Store.write (points.map Point.entry) world.stock) ∨
      (envelope.jobType = .deleteDocument ∧
        (answer (perform env) fault call world).2.stock =
          Store.remove (inDocument envelope.clientId envelope.documentId) world.stock) := by
  cases awaits with
  | @write chunks vectors stored index paired =>
    rcases answer_world (perform env) fault (.upsertPoints (stored.map StoredChunk.point)) world with
      same | landed
    · exact .inl (congrArg World.stock same)
    rcases perform_upsertPoints env (stored.map StoredChunk.point) world with ⟨same, _⟩ | written
    · exact .inl (congrArg World.stock (landed.trans same))
    · obtain ⟨text, extracted, rfl, nonempty, embedded⟩ := knows
      exact .inr (.inl ⟨index, text, _, extracted, pointsOf_stored embedded paired,
        by rw [landed, written]⟩)
  | delete isDelete =>
    let filter := documentFilter envelope.clientId envelope.documentId
    rcases answer_world (perform env) fault (.deletePoints filter) world with same | landed
    · exact .inl (congrArg World.stock same)
    rcases perform_deletePoints env filter world with ⟨same, _⟩ | removed
    · exact .inl (congrArg World.stock (landed.trans same))
    · exact .inr (.inr ⟨isDelete, (congrArg World.stock landed).trans removed⟩)
  | start | extract | rejectPath | chunk | embed | list | createCollection | createPayloadIndex
  | rejectVectors | count | succeed | fail => exact .inl (answer_stock env _ fault world rfl)

/-- The store holds the points of the text. -/
def Shows (env : Env) (envelope : JobEnvelope) (text : Text) (stock : Store String Record) : Prop :=
  ∃ points, PointsOf env envelope text points ∧
    ∀ point ∈ points, stock point.id = some point.record

/-- The store is as the job was to leave it. -/
def Effected (env : Env) (envelope : JobEnvelope) (extracts : Text → Prop)
    (stock : Store String Record) : Prop :=
  match envelope.jobType with
  | .indexDocument => ∃ text, extracts text ∧ Shows env envelope text stock
  | .deleteDocument => Store.Lacks (inDocument envelope.clientId envelope.documentId) stock

theorem PointsOf.ids {text : Text} {points : List Point} (made : PointsOf env envelope text points) :
    points.map Point.id =
      (List.range (env.chunker.chunk text).length).map (chunkIdFor env envelope.documentId) := by
  obtain ⟨vectors, same, _, rfl⟩ := made
  rw [← env.chunker.chunk_indexes, List.map_map, List.map_zipWith, ← List.map_uncurry_zip_eq_zipWith]
  conv_rhs => rw [← List.map_fst_zip (Nat.le_of_eq same.symm), List.map_map]
  rfl

theorem PointsOf.nodup (injective : Function.Injective env.uuid5) {text : Text}
    {points : List Point} (made : PointsOf env envelope text points) :
    (points.map Point.id).Nodup := by
  rw [made.ids]
  exact List.nodup_range.map fun _ _ same => (chunkIdFor_inj injective same).2

theorem shows_written (injective : Function.Injective env.uuid5) {text : Text}
    {points : List Point} (made : PointsOf env envelope text points) (stock : Store String Record) :
    ∀ point ∈ points, Store.write (points.map Point.entry) stock point.id = some point.record := by
  intro point member
  have distinct : ((points.map Point.entry).map Prod.fst).Nodup := by
    rw [List.map_map]
    exact made.nodup injective
  exact Store.write_mem distinct (List.mem_map.mpr ⟨point, member, rfl⟩)

/-- A handler that comes to the end of its work leaves the store as it was to. -/
theorem effected_answered (injective : Function.Injective env.uuid5)
    (indexes : ∀ text, extracts text → envelope.jobType = .indexDocument)
    (awaits : Stage.Awaits env envelope stage call) (knows : stage.Knows env extracts)
    (finishes : stage.moves call (answer (perform env) fault call world).1 = .finished) :
    stage = .finished ∨
      Effected env envelope extracts (answer (perform env) fault call world).2.stock := by
  cases reply : (answer (perform env) fault call world).1 with
  | error raised =>
    rw [reply] at finishes
    cases awaits <;> cases raised <;> cases finishes
  | ok value =>
    have found := replied_of_ok reply
    rw [reply] at finishes
    cases awaits with
    | start | succeed | fail | rejectPath | rejectVectors | extract | embed | list
    | createCollection | createPayloadIndex => cases finishes
    | @chunk text =>
      right
      have chunked : env.chunker.chunk text = value := Except.ok.inj found
      simp only [Stage.moves] at finishes
      split at finishes
      · rename_i empty
        rw [Effected, indexes text knows]
        have none : env.chunker.chunk text = [] := by
          rw [chunked]
          exact List.isEmpty_iff.mp empty
        exact ⟨text, knows, [], pointsOf_nil none, by simp⟩
      · cases finishes
    | @write chunks vectors stored index paired =>
      right
      obtain ⟨text, extracted, rfl, nonempty, embedded⟩ := knows
      have made := pointsOf_stored embedded paired
      have landed : (answer (perform env) fault (.upsertPoints (stored.map StoredChunk.point))
          world).2.stock =
            Store.write ((stored.map StoredChunk.point).map Point.entry) world.stock := by
        rw [unfaulted reply, answer_none]
        rcases perform_upsertPoints env (stored.map StoredChunk.point) world with
          ⟨_, raised, failed⟩ | written
        · cases found.symm.trans failed
        · exact written
      rw [Effected, index, landed]
      exact ⟨text, extracted, _, made, shows_written injective made world.stock⟩
    | count isDelete =>
      right
      simp only [Stage.moves] at finishes
      split at finishes
      · rename_i zero
        subst zero
        rw [Effected, isDelete, answer_stock env _ fault world rfl]
        exact lacks_of_count_zero found
      · cases finishes
    | delete isDelete =>
      right
      have landed : (answer (perform env) fault
          (.deletePoints (documentFilter envelope.clientId envelope.documentId)) world).2.stock =
            Store.remove (inDocument envelope.clientId envelope.documentId) world.stock := by
        rw [unfaulted reply, answer_none]
        rcases perform_deletePoints env (documentFilter envelope.clientId envelope.documentId) world
          with ⟨_, raised, failed⟩ | removed
        · cases found.symm.trans failed
        · exact removed
      rw [Effected, isDelete, landed]
      exact Store.lacks_remove _ _

end Answers

end DocContext
