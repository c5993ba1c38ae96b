import DocContext.Workers.Runs

/-! A job under a choice of failing steps. It returns when none of the steps it comes
to fails, and has its whole effect then; otherwise the first failing step decides,
the points stay as they were and the row says why. -/

namespace DocContext

open Foundation Coroutine

/-- Which calls raise, with what, and whether their effect has landed before. No job
makes one call twice, so a call stands for its step. The repository answers, and a
call that raises has not touched points. -/
structure Failures where
  strike : Call → Option (PyException × Bool)
  repository : ∀ call, call.written? ≠ none → strike call = none
  unwritten : ∀ call error landed, strike call = some (error, landed) →
    call.writesPoints = true → landed = false

namespace Failures

def fault (failures : Failures) (call : Call) : Option (Fault PyException) :=
  (failures.strike call).map fun struck => ⟨.exception struck.1, struck.2⟩

/-- The world answers, but for the calls that fail. -/
def perform (failures : Failures) (env : Env) (call : Call) (world : World) :
    Except (Raised PyException) (Reply call) × World :=
  answer (DocContext.perform env) (failures.fault call) call world

/-- A step of a job: its call fails, or it has the result given. -/
def attempt (failures : Failures) (call : Call) (result : Except PyException α) :
    Except PyException α :=
  match failures.strike call with
  | some struck => .error struck.1
  | none => result

end Failures

/-- The steps of `ensure_collection`. -/
def ensureSteps (env : Env) (failures : Failures) (present : Bool) : Except PyException Unit := do
  failures.attempt .getCollections (.ok ())
  if present then
    return
  failures.attempt (.createCollection env.dim) (.ok ())
  failures.attempt (.createPayloadIndex "client_id") (.ok ())
  failures.attempt (.createPayloadIndex "corpus_id") (.ok ())
  failures.attempt (.createPayloadIndex "document_id") (.ok ())

/-- The steps of an index job, up to the first that fails. -/
def indexSteps (env : Env) (failures : Failures) (envelope : JobEnvelope) (world : World) :
    Except PyException Unit :=
  match envelope.filePath.filter fun path => path ≠ "" with
  | none => .error DocumentWorker.missingPath
  | some path => do
    let text ← failures.attempt (.extractText path envelope.fileType)
      (world.extractText path envelope.fileType)
    let chunks ← failures.attempt (.chunk text) (.ok (env.chunker.chunk text))
    if chunks.isEmpty then
      return
    let texts := chunks.map Chunk.text
    let vectors ← failures.attempt (.embed texts) (env.embed texts)
    ensureSteps env failures world.collection.isSome
    let stored ← DocumentWorker.storedChunks env envelope chunks vectors
    failures.attempt (.upsertPoints (stored.map StoredChunk.point)) (.ok ())

/-- The steps of a delete job, up to the first that fails. -/
def deleteSteps (failures : Failures) (envelope : JobEnvelope) (world : World) :
    Except PyException Unit := do
  let filter := documentFilter envelope.clientId envelope.documentId
  let count ← failures.attempt (.count filter)
    (world.collection.elim (.error missingCollection) fun collection => .ok (collection.count filter))
  if count = 0 then
    return
  failures.attempt (.deletePoints filter) (.ok ())

/-- The steps a job comes to: what the first failing one raises, if any. -/
def jobSteps (env : Env) (failures : Failures) (envelope : JobEnvelope) (world : World) :
    Except PyException Unit :=
  match envelope.jobType with
  | .indexDocument => indexSteps env failures envelope world
  | .deleteDocument => deleteSteps failures envelope world

/-- The run of the work does what the steps say: all of the effect, or none. -/
def Meets (table : JobTable) (stock target : Store String Record) (steps : Except PyException Unit)
    (ended : Except (Raised PyException) α × World) : Prop :=
  ended.2.table = table ∧
    match steps with
    | .ok _ => (∃ value, ended.1 = .ok value) ∧ ended.2.stock = target
    | .error error => ended.1 = .error (.exception error) ∧ ended.2.stock = stock

section Steps

variable {env : Env} {failures : Failures} {envelope : JobEnvelope} {world : World}
  {table : JobTable} {stock target : Store String Record}

theorem perform_struck {call : Call} {struck : PyException × Bool}
    (strike : failures.strike call = some struck) :
    failures.perform env call world =
      (.error (.exception struck.1), if struck.2 then (perform env call world).2 else world) := by
  rw [Failures.perform, Failures.fault, strike]
  rfl

theorem perform_spared {call : Call} (spared : failures.strike call = none) :
    failures.perform env call world = perform env call world := by
  rw [Failures.perform, Failures.fault, spared]
  rfl

/-- A call that leaves rows and points alone, and the steps behind it. -/
theorem attempt_meets {call : Call} {result : Except PyException β}
    {rest : β → Except PyException Unit} {next : Reply call → Task α}
    (reads : call.written? = none) (keeps : call.writesPoints = false)
    (tabled : world.table = table) (stocked : world.stock = stock)
    (failing : ∀ error, result = .error error →
      (perform env call world).1 = .error (.exception error))
    (resumed : ∀ value, result = .ok value → ∃ reply, (perform env call world).1 = .ok reply ∧
      ((perform env call world).2.table = table → (perform env call world).2.stock = stock →
        Meets table stock target (rest value)
          ((next reply).exec (failures.perform env) (perform env call world).2))) :
    Meets table stock target (failures.attempt call result >>= rest)
      (((request call).bind next).exec (failures.perform env) world) := by
  have tabled' (fault : Option (Fault PyException)) :
      (answer (perform env) fault call world).2.table = table := (answer_table reads).trans tabled
  have stocked' (fault : Option (Fault PyException)) :
      (answer (perform env) fault call world).2.stock = stock :=
    (answer_stock env call fault world keeps).trans stocked
  rw [exec_bind, exec_request]
  unfold Failures.attempt
  cases strike : failures.strike call with
  | some struck =>
    have table' := tabled' (some ⟨.exception struck.1, struck.2⟩)
    have stock' := stocked' (some ⟨.exception struck.1, struck.2⟩)
    rw [perform_struck strike]
    exact ⟨table', rfl, stock'⟩
  | none =>
    have table' := tabled' none
    have stock' := stocked' none
    rw [answer_none] at table' stock'
    rw [perform_spared strike]
    cases computed : result with
    | error error =>
      have raised := failing error computed
      rw [← Prod.mk.eta (p := perform env call world), raised]
      exact ⟨table', rfl, stock'⟩
    | ok value =>
      obtain ⟨reply, replied, meets⟩ := resumed value computed
      rw [← Prod.mk.eta (p := perform env call world), replied]
      exact meets table' stock'

theorem createPayloadIndex_meets {field : String} {rest : Except PyException Unit}
    {next : Unit → Task α} (present : world.collection.isSome)
    (tabled : world.table = table) (stocked : world.stock = stock)
    (resumed : ∀ after : World, after.collection.isSome → after.table = table →
      after.stock = stock → Meets table stock target rest ((next ()).exec (failures.perform env) after)) :
    Meets table stock target (failures.attempt (.createPayloadIndex field) (.ok ()) >>= fun _ => rest)
      (((request (.createPayloadIndex field)).bind next).exec (failures.perform env) world) := by
  apply attempt_meets rfl rfl tabled stocked
  · intro error clash
    cases clash
  · intro _ _
    refine ⟨(), ?_, fun table' stock' => resumed _ (stored_isSome present) table' stock'⟩
    obtain ⟨collection, found⟩ := Option.isSome_iff_exists.mp present
    rw [perform, World.stored, found]

/-- After `ensure_collection` there is a collection. -/
theorem ensureCollection_meets {rest : Except PyException Unit} {next : Unit → Task α}
    (tabled : world.table = table) (stocked : world.stock = stock)
    (resumed : ∀ after : World, after.collection.isSome → after.table = table →
      after.stock = stock → Meets table stock target rest ((next ()).exec (failures.perform env) after)) :
    Meets table stock target (ensureSteps env failures world.collection.isSome >>= fun _ => rest)
      (((QdrantVectorStore.ensureCollection env env.dim).bind next).exec (failures.perform env)
        world) := by
  unfold ensureSteps QdrantVectorStore.ensureCollection
  simp only [bind_eq, Coroutine.bind_assoc, LawfulMonad.bind_assoc]
  apply attempt_meets rfl rfl tabled stocked
  · intro error clash
    cases clash
  · intro _ _
    refine ⟨_, rfl, fun table' stock' => ?_⟩
    cases existing : world.collection with
    | some collection =>
      have listed : ((some collection).toList.map fun _ => env.collectionName).contains
          env.collectionName = true := by simp
      rw [if_pos listed]
      have present : world.collection.isSome := by rw [existing]; rfl
      exact resumed world present tabled stocked
    | none =>
      have unlisted : ¬ ((none : Option Collection).toList.map fun _ => env.collectionName).contains
          env.collectionName = true := by simp
      rw [if_neg unlisted]
      simp only [Option.isSome_none, Bool.false_eq_true, if_false, Coroutine.bind_assoc,
        LawfulMonad.bind_assoc]
      apply attempt_meets rfl rfl tabled stocked
      · intro error clash
        cases clash
      · intro _ _
        have created : perform env (.createCollection env.dim) world =
            (.ok (), { world with collection := some (.empty env.dim) }) := by
          rw [perform, existing]
        rw [created]
        refine ⟨(), rfl, fun table' stock' => ?_⟩
        apply createPayloadIndex_meets rfl table' stock'
        intro first present table' stock'
        apply createPayloadIndex_meets present table' stock'
        intro second present table' stock'
        exact createPayloadIndex_meets present table' stock' resumed

/-- The call with the effect of the job, on a collection that exists. -/
theorem change_meets {call : Call} {value : α} (reads : call.written? = none)
    (writes : call.writesPoints = true) (tabled : world.table = table) (stocked : world.stock = stock)
    (changed : (perform env call world).2.stock = target)
    (replied : ∃ reply, (perform env call world).1 = .ok reply) :
    Meets table stock target (failures.attempt call (.ok ()))
      (((request call).bind fun _ => .ret value).exec (failures.perform env) world) := by
  rw [exec_bind, exec_request]
  unfold Failures.attempt
  cases strike : failures.strike call with
  | some struck =>
    have lost := failures.unwritten call struck.1 struck.2 strike writes
    rw [perform_struck strike, lost]
    exact ⟨tabled, rfl, stocked⟩
  | none =>
    have table' : (answer (perform env) none call world).2.table = table :=
      (answer_table reads).trans tabled
    obtain ⟨reply, ok⟩ := replied
    rw [perform_spared strike, ← Prod.mk.eta (p := perform env call world), ok]
    exact ⟨table', ⟨value, rfl⟩, changed⟩

/-- The chunks of an index job are paired with vectors and written. -/
theorem write_meets {start : World} {text : Text} {vectors : List (List PyFloat)}
    (extracted : Extracted envelope start.extractText text)
    (nonempty : env.chunker.chunk text ≠ [])
    (embedded : env.embed ((env.chunker.chunk text).map Chunk.text) = .ok vectors)
    (present : world.collection.isSome) (tabled : world.table = start.table)
    (stocked : world.stock = start.stock) :
    Meets start.table start.stock (jobEffect env start.extractText envelope start.stock)
      (DocumentWorker.storedChunks env envelope (env.chunker.chunk text) vectors >>= fun stored =>
        failures.attempt (.upsertPoints (stored.map StoredChunk.point)) (.ok ()))
      (((ofExcept (DocumentWorker.storedChunks env envelope (env.chunker.chunk text) vectors)).bind
        QdrantVectorStore.upsert).exec (failures.perform env) world) := by
  have ⟨index, _, _, _, _⟩ := extracted
  cases paired : DocumentWorker.storedChunks env envelope (env.chunker.chunk text) vectors with
  | error error => exact ⟨tabled, rfl, stocked⟩
  | ok stored =>
    have filled := DocumentWorker.storedChunks_ne_nil paired nonempty
    obtain ⟨collection, found⟩ := Option.isSome_iff_exists.mp present
    have replied : (perform env (.upsertPoints (stored.map StoredChunk.point)) world).1 =
        .ok () := by
      rw [perform, World.stored, found]
    have done : Done env envelope start
        (perform env (.upsertPoints (stored.map StoredChunk.point)) world).2 := by
      rcases write_performed index paired ⟨text, extracted, rfl, nonempty, embedded⟩ stocked with
        ⟨_, raised, failed⟩ | done
      · cases replied.symm.trans failed
      · exact done
    change Meets _ _ _ _ ((QdrantVectorStore.upsert stored).exec (failures.perform env) world)
    unfold QdrantVectorStore.upsert
    rw [if_neg (by simpa using filled)]
    exact change_meets rfl rfl tabled stocked done.stock ⟨(), replied⟩

theorem handleIndex_meets (index : envelope.jobType = .indexDocument) (world : World) :
    Meets world.table world.stock (jobEffect env world.extractText envelope world.stock)
      (indexSteps env failures envelope world)
      ((DocumentWorker.handleIndex env envelope).exec (failures.perform env) world) := by
  unfold indexSteps DocumentWorker.handleIndex
  cases located : envelope.filePath.filter fun path => path ≠ "" with
  | none => exact ⟨rfl, rfl, rfl⟩
  | some path =>
    dsimp only [bind_eq]
    apply attempt_meets rfl rfl rfl rfl
    · intro error raises
      rw [perform, computed, raises]
      rfl
    · intro text found
      have read : perform env (.extractText path envelope.fileType) world = (.ok text, world) := by
        rw [perform, computed, found]
        rfl
      rw [read]
      refine ⟨text, rfl, fun tabled stocked => ?_⟩
      rw [Option.filter_eq_some_iff] at located
      have extracted : Extracted envelope world.extractText text :=
        ⟨index, path, located.1, of_decide_eq_true located.2, found⟩
      apply attempt_meets rfl rfl tabled stocked
      · intro error clash
        cases clash
      · intro chunks chunked
        cases chunked
        refine ⟨_, rfl, fun tabled stocked => ?_⟩
        by_cases empty : (env.chunker.chunk text).isEmpty = true
        · have nothing : indexedChunks env world.extractText envelope = .ok [] := by
            rw [indexedChunks_of_extracted extracted, if_pos empty]
          rw [if_pos empty, if_pos empty]
          refine ⟨tabled, ⟨0, rfl⟩, ?_⟩
          rw [jobEffect, index, indexedPoints, nothing]
          exact stocked
        · rw [if_neg empty, if_neg empty]
          apply attempt_meets rfl rfl tabled stocked
          · intro error raises
            change (env.embed _).mapError Raised.exception = _
            rw [raises]
            rfl
          · intro vectors embedded
            refine ⟨vectors, ?_, fun tabled stocked => ?_⟩
            · change (env.embed _).mapError Raised.exception = _
              rw [embedded]
              rfl
            · apply ensureCollection_meets (rfl : world.table = _) (rfl : world.stock = _)
              intro after present tabled stocked
              have nonempty : env.chunker.chunk text ≠ [] := by simpa using empty
              exact write_meets extracted nonempty embedded present tabled stocked

theorem handleDelete_meets (delete : envelope.jobType = .deleteDocument) (world : World) :
    Meets world.table world.stock (jobEffect env world.extractText envelope world.stock)
      (deleteSteps failures envelope world)
      ((DocumentWorker.handleDelete envelope).exec (failures.perform env) world) := by
  unfold deleteSteps DocumentWorker.handleDelete QdrantVectorStore.deleteByDocument
  apply attempt_meets rfl rfl rfl rfl
  · intro error raises
    cases present : world.collection with
    | none =>
      rw [present] at raises
      cases raises
      rw [perform, World.stored, present]
    | some collection =>
      rw [present] at raises
      cases raises
  · intro count counted
    cases present : world.collection with
    | none =>
      rw [present] at counted
      cases counted
    | some collection =>
      rw [present] at counted
      have same : { world with collection := some collection } = world := by rw [← present]
      have replied : perform env (.count (documentFilter envelope.clientId envelope.documentId))
          world = (.ok count, world) := by
        cases counted
        rw [perform, World.stored, present]
        exact Prod.ext rfl same
      rw [replied]
      refine ⟨count, rfl, fun tabled stocked => ?_⟩
      by_cases zero : count = 0
      · rw [if_pos zero, if_pos zero]
        have none : (perform env (.count (documentFilter envelope.clientId envelope.documentId))
            world).1 = .ok 0 := by rw [replied, zero]
        have done : Done env envelope world world := done_of_count_zero delete none rfl rfl
        exact ⟨tabled, ⟨0, rfl⟩, done.stock⟩
      · rw [if_neg zero, if_neg zero]
        have deleted : (perform env
            (.deletePoints (documentFilter envelope.clientId envelope.documentId)) world).1 =
              .ok () := by
          rw [perform, World.stored, present]
        have done : Done env envelope world (perform env
            (.deletePoints (documentFilter envelope.clientId envelope.documentId)) world).2 := by
          rcases delete_performed delete rfl with ⟨_, raised, failed⟩ | done
          · cases deleted.symm.trans failed
          · exact done
        exact change_meets rfl rfl rfl rfl done.stock ⟨(), deleted⟩

/-- The work does what its steps say. -/
theorem work_meets (env : Env) (failures : Failures) (envelope : JobEnvelope) (world : World) :
    Meets world.table world.stock (jobEffect env world.extractText envelope world.stock)
      (jobSteps env failures envelope world)
      ((DocumentWorker.work env envelope).exec (failures.perform env) world) := by
  unfold jobSteps DocumentWorker.work
  cases type : envelope.jobType with
  | indexDocument => exact handleIndex_meets type world
  | deleteDocument => exact handleDelete_meets type world

end Steps

/-- The points a job is to leave: those there were with the chunks of its text written
under their ids, or without those of its document. -/
def Leaves (env : Env) (envelope : JobEnvelope) (extract : Extraction)
    (before after : Store String Record) : Prop :=
  match envelope.jobType with
  | .indexDocument => ∃ text points, Extracted envelope extract text ∧
      PointsOf env envelope text points ∧ after = before.write (points.map Point.entry)
  | .deleteDocument => after = before.remove fun record =>
      decide (record.payload.clientId = some envelope.clientId ∧
        record.payload.documentId = some envelope.documentId)

/-- What a job leaves: the whole effect and a succeeded row, or the points as they were
and a row with what the first failing step raised. No other row is touched. -/
def Settled (env : Env) (envelope : JobEnvelope) (start : World) (row : Job)
    (steps : Except PyException Unit) (ended : Except (Raised PyException) Unit × World) : Prop :=
  match steps with
  | .ok _ =>
    ended.1 = .ok () ∧
      ended.2.table.rows = Function.update start.table.rows envelope.jobId
        (some { row with status := .succeeded, errorMessage := none }) ∧
      Leaves env envelope start.extractText start.stock ended.2.stock
  | .error error =>
    ended.1 = .error (.exception error) ∧
      ended.2.table.rows = Function.update start.table.rows envelope.jobId
        (some { row with status := .failed, errorMessage := some (sliceTo error.text 2048) }) ∧
      ended.2.stock = start.stock

theorem attempt_ok {failures : Failures} {call : Call} {result : Except PyException α} {value : α}
    (attempted : failures.attempt call result = .ok value) : result = .ok value := by
  unfold Failures.attempt at attempted
  split at attempted
  · cases attempted
  · exact attempted

/-- Steps that come through leave chunks to store. -/
theorem indexSteps_ok {env : Env} {failures : Failures} {envelope : JobEnvelope} {world : World}
    (steps : indexSteps env failures envelope world = .ok ()) :
    ∃ stored, indexedChunks env world.extractText envelope = .ok stored := by
  unfold indexSteps at steps
  unfold indexedChunks
  cases located : envelope.filePath.filter fun path => path ≠ "" with
  | none =>
    rw [located] at steps
    cases steps
  | some path =>
    rw [located] at steps
    obtain ⟨text, attempted, steps⟩ := bind_eq_ok_iff.mp steps
    obtain ⟨chunks, chunked, steps⟩ := bind_eq_ok_iff.mp steps
    have same : env.chunker.chunk text = chunks := Except.ok.inj (attempt_ok chunked)
    subst same
    dsimp only
    rw [attempt_ok attempted]
    change ∃ stored, (if (env.chunker.chunk text).isEmpty then .ok [] else _) = Except.ok stored
    by_cases empty : (env.chunker.chunk text).isEmpty = true
    · exact ⟨[], if_pos empty⟩
    · rw [if_neg empty] at steps ⊢
      obtain ⟨vectors, embedded, steps⟩ := bind_eq_ok_iff.mp steps
      obtain ⟨_, _, steps⟩ := bind_eq_ok_iff.mp steps
      obtain ⟨stored, paired, _⟩ := bind_eq_ok_iff.mp steps
      refine ⟨stored, ?_⟩
      rw [attempt_ok embedded]
      exact paired

/-- The effect of a job whose steps come through, point by point. -/
theorem leaves_effect {env : Env} {failures : Failures} {envelope : JobEnvelope} {world : World}
    (steps : jobSteps env failures envelope world = .ok ()) (stock : Store String Record) :
    Leaves env envelope world.extractText stock
      (jobEffect env world.extractText envelope stock) := by
  unfold Leaves jobEffect
  cases type : envelope.jobType with
  | indexDocument =>
    rw [jobSteps, type] at steps
    obtain ⟨stored, indexed⟩ := indexSteps_ok steps
    have written : indexedPoints env world.extractText envelope = stored.map StoredChunk.point := by
      rw [indexedPoints, indexed]
    obtain ⟨path, text, located, found, rest⟩ := indexedChunks_ok indexed
    rw [Option.filter_eq_some_iff] at located
    have extracted : Extracted envelope world.extractText text :=
      ⟨type, path, located.1, of_decide_eq_true located.2, found⟩
    refine ⟨text, _, extracted, ?_, by rw [written]⟩
    rcases rest with ⟨empty, rfl⟩ | ⟨_, vectors, embedded, paired⟩
    · exact pointsOf_nil empty
    · exact pointsOf_stored embedded paired
  | deleteDocument =>
    have selects : inDocument envelope.clientId envelope.documentId = fun record =>
        decide (record.payload.clientId = some envelope.clientId ∧
          record.payload.documentId = some envelope.documentId) := by
      funext record
      rw [Bool.eq_iff_iff, decide_eq_true_iff]
      exact inDocument_iff
    rw [selects]

theorem committed_of_row {table : JobTable} {row : Job} (world : World)
    (found : table.rows jobId = some row) (status : JobStatus) (message : Option (Option String)) :
    let updated : Job := { row with status, errorMessage := message.getD row.errorMessage }
    world.committed (table.transition jobId status message) =
      (.ok updated, { world with table := table.commit jobId updated }) := by
  rw [JobTable.transition_of_row found]
  rfl

theorem handleEnvelope_settled (env : Env) (failures : Failures) {envelope : JobEnvelope}
    {world : World} {row : Job} (found : world.table.rows envelope.jobId = some row) :
    Settled env envelope world row (jobSteps env failures envelope world)
      ((DocumentWorker.handleEnvelope env envelope).exec (failures.perform env) world) := by
  let running : Job := { row with status := .running, errorMessage := row.errorMessage }
  let start : World := { world with table := world.table.commit envelope.jobId running }
  have spared (call : Call) (writes : call.written? ≠ none) (after : World) :
      failures.perform env call after = perform env call after :=
    perform_spared (failures.repository call writes)
  have started : failures.perform env (.markRunning envelope.jobId) world = (.ok running, start) := by
    rw [spared (.markRunning _) (Option.some_ne_none _)]
    exact committed_of_row world found .running none
  -- the transition that ends the job, whatever the work has left
  have moved (after : World) (tabled : after.table = start.table) (status : JobStatus)
      (message : Option String) :
      let updated : Job := { row with status, errorMessage := message }
      after.committed (after.table.transition envelope.jobId status (some message)) =
        (.ok updated, { after with table := start.table.commit envelope.jobId updated }) := by
    have kept : after.table.rows envelope.jobId = some running := by
      rw [tabled]
      exact Function.update_self ..
    rw [committed_of_row after kept, tabled]
    rfl
  have rows (last : Job) : (start.table.commit envelope.jobId last).rows =
      Function.update world.table.rows envelope.jobId (some last) := by
    change Function.update (Function.update _ _ _) _ _ = _
    rw [Function.update_idem]
  obtain ⟨tabled, worked⟩ := work_meets env failures envelope start
  change match jobSteps env failures envelope world with | .ok _ => _ | .error error => _ at worked
  unfold DocumentWorker.handleEnvelope
  simp only [bind_eq, exec_bind, exec_request, started, continueWith_ok, exec_tryExcept]
  cases steps : jobSteps env failures envelope world with
  | ok done =>
    rw [steps] at worked
    obtain ⟨⟨value, returned⟩, stocked⟩ := worked
    rw [← Prod.mk.eta (p := (DocumentWorker.work env envelope).exec (failures.perform env) start),
      returned]
    simp only [continueWith_ok, exec_bind, exec_request]
    rw [spared (.markSucceeded _) (Option.some_ne_none _), perform, JobTable.markSucceeded, moved _ tabled]
    refine ⟨rfl, rows _, ?_⟩
    change Leaves env envelope world.extractText world.stock
      ((DocumentWorker.work env envelope).exec (failures.perform env) start).2.stock
    rw [stocked]
    exact leaves_effect steps world.stock
  | error error =>
    rw [steps] at worked
    obtain ⟨raised, stocked⟩ := worked
    rw [← Prod.mk.eta (p := (DocumentWorker.work env envelope).exec (failures.perform env) start),
      raised]
    simp only [continueWith_error, handleWith, exec_bind, exec_request]
    rw [spared (.markFailed ..) (Option.some_ne_none _), perform, JobTable.markFailed, moved _ tabled]
    exact ⟨rfl, rows _, stocked⟩

/-- A worker returns exactly when no step it comes to fails, and settles the job
either way. -/
theorem handle_settles (env : Env) (failures : Failures) {payload : JsonValue}
    {envelope : JobEnvelope} {world : World} {row : Job}
    (decoded : JobEnvelope.fromPayload env.repr payload = .ok envelope)
    (found : world.table.rows envelope.jobId = some row) :
    (((DocumentWorker.handle env payload).exec (failures.perform env) world).1 = .ok () ↔
        jobSteps env failures envelope world = .ok ()) ∧
      Settled env envelope world row (jobSteps env failures envelope world)
        ((DocumentWorker.handle env payload).exec (failures.perform env) world) := by
  have settled := handleEnvelope_settled env failures found
  have same : (DocumentWorker.handle env payload).exec (failures.perform env) world =
      (DocumentWorker.handleEnvelope env envelope).exec (failures.perform env) world := by
    rw [DocumentWorker.handle, decoded]
    rfl
  rw [same]
  refine ⟨?_, settled⟩
  cases steps : jobSteps env failures envelope world with
  | ok done =>
    rw [steps] at settled
    exact iff_of_true settled.1 rfl
  | error error =>
    rw [steps] at settled
    rw [settled.1]
    exact iff_of_false (fun clash => by cases clash) fun clash => by cases clash

namespace Sample

/-- Nothing fails. -/
def sound : Failures where
  strike _ := none
  repository _ _ := rfl
  unwritten _ _ _ struck := by cases struck

/-- The store takes no points. -/
def storeDown : Failures where
  strike
    | .upsertPoints _ => some (⟨.unexpectedResponse, "down"⟩, false)
    | _ => none
  repository := by
    intro call writes
    cases call <;> first | rfl | exact absurd rfl writes
  unwritten := by
    intro call error landed struck _
    cases call <;> cases struck
    rfl

def hello : JobEnvelope := indexJob "1" "client" "document" "hello"

/-- The job is submitted, and nothing has been indexed. -/
def arrived : World := { world none with table := table hello }

end Sample

/-- A text is extracted, cut, embedded and written; where the store is down, its points
cannot be written. -/
theorem handle_settles_sample :
    (((DocumentWorker.handle Sample.env Sample.hello.toPayload).exec
          (Sample.sound.perform Sample.env) Sample.arrived).1 = .ok () ∧
        ∃ text points, Extracted Sample.hello Sample.arrived.extractText text ∧
          PointsOf Sample.env Sample.hello text points ∧
          ((DocumentWorker.handle Sample.env Sample.hello.toPayload).exec
            (Sample.sound.perform Sample.env) Sample.arrived).2.stock =
              Sample.arrived.stock.write (points.map Point.entry)) ∧
      ((DocumentWorker.handle Sample.env Sample.hello.toPayload).exec
        (Sample.storeDown.perform Sample.env) Sample.arrived).1 =
          .error (.exception ⟨.unexpectedResponse, "down"⟩) ∧
      ((DocumentWorker.handle Sample.env Sample.hello.toPayload).exec
        (Sample.storeDown.perform Sample.env) Sample.arrived).2.stock = Sample.arrived.stock := by
  have wellFormed : Sample.hello.WellFormed := by decide
  obtain ⟨row, found⟩ : ∃ row, Sample.arrived.table.rows Sample.hello.jobId = some row := ⟨_, rfl⟩
  have settled (failures : Failures) := (handle_settles Sample.env failures
    (JobEnvelope.fromPayload_of_wellFormed _ wellFormed) found).2
  have done := settled Sample.sound
  have failed := settled Sample.storeDown
  have steps : jobSteps Sample.env Sample.sound Sample.hello Sample.arrived = .ok () := rfl
  have stuck : jobSteps Sample.env Sample.storeDown Sample.hello Sample.arrived =
      .error ⟨.unexpectedResponse, "down"⟩ := rfl
  rw [steps] at done
  rw [stuck] at failed
  exact ⟨⟨done.1, done.2.2⟩, failed.1, failed.2.2⟩

end DocContext
