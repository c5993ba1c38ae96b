import DocContext.Services.Replies
import DocContext.System.Deletion

/-! Before the first index. Only an index job with a chunk makes the collection;
deletes and queries ask for one that may not exist. -/

namespace DocContext

open Foundation Coroutine

section Missing

variable {env : Env} {envelope : JobEnvelope} {query : QueryDocumentsRequest}
  {router reply : LLMResponse} {world : World}

/-! A delete job. -/

/-- The job, handled now, succeeds and has deleted nothing. -/
def DeletesNothing (env : Env) (envelope : JobEnvelope) (world : World) : Prop :=
  ((DocumentWorker.work env envelope).exec (perform env)
      (perform env (.markRunning envelope.jobId) world).2).1 = .ok 0 ∧
    ((DocumentWorker.handleEnvelope env envelope).exec (perform env) world).2.table.status?
      envelope.jobId = some .succeeded

theorem perform_count_clear {clientId documentId : String}
    (lacks : Store.Lacks (inDocument clientId documentId) world.stock) :
    perform env (.count (documentFilter clientId documentId)) world =
      (if world.collection.isSome then .ok 0 else .error (.exception missingCollection), world) := by
  obtain ⟨table, queue, collection, extractText, permits⟩ := world
  cases collection with
  | none => rfl
  | some collection =>
    have clear : collection.count (documentFilter clientId documentId) = 0 :=
      (collection.count_eq_zero _).mpr fun point held => lacks point.id point.record held
    simp only [perform, World.stored, clear, Option.isSome_some, if_true]

theorem handleDelete_clear
    (lacks : Store.Lacks (inDocument envelope.clientId envelope.documentId) world.stock) :
    ((DocumentWorker.handleDelete envelope).exec (perform env) world).1 =
      if world.collection.isSome then .ok 0 else .error (.exception missingCollection) := by
  unfold DocumentWorker.handleDelete QdrantVectorStore.deleteByDocument
  rw [bind_eq, exec_bind, exec_request, perform_count_clear lacks]
  cases world.collection <;> rfl

/-- A delete job of a document without points ends well exactly when there is a
collection. -/
theorem deletesNothing_iff (delete : envelope.jobType = .deleteDocument)
    (row : (world.table.rows envelope.jobId).isSome)
    (lacks : Store.Lacks (inDocument envelope.clientId envelope.documentId) world.stock) :
    DeletesNothing env envelope world ↔ world.collection.isSome = true := by
  have same : (perform env (.markRunning envelope.jobId) world).2.collection = world.collection :=
    committed_collection _
  have lacks' : Store.Lacks (inDocument envelope.clientId envelope.documentId)
      (perform env (.markRunning envelope.jobId) world).2.stock := by
    rw [World.stock, same]
    exact lacks
  have worked : DocumentWorker.work env envelope = DocumentWorker.handleDelete envelope := by
    rw [DocumentWorker.work, delete]
  unfold DeletesNothing
  rw [worked, handleDelete_clear lacks', same]
  constructor
  · rintro ⟨counted, _⟩
    by_contra missing
    rw [if_neg missing] at counted
    cases counted
  · intro present
    obtain ⟨found, held⟩ := Option.isSome_iff_exists.mp row
    have ready : Ready env envelope world := by
      rw [Ready, delete]
      exact present
    obtain ⟨after, ran, succeeded⟩ := handleEnvelope_runs held ready
    rw [ran]
    exact ⟨if_pos present, succeeded⟩

/-! A query. -/

/-- The query, handled now, gets a response that cites nothing. -/
def CitesNothing (env : Env) (query : QueryDocumentsRequest) (world : World) : Prop :=
  ∃ response, ((QueryDocumentsHandler.handle env query).exec (perform env) world).1 = .ok response ∧
    response.citations = []

/-- The tenant has no points. -/
def Pointless (query : QueryDocumentsRequest) (world : World) : Prop :=
  ∀ id record, world.stock id = some record → record.payload.clientId ≠ some query.clientId

theorem fullDocument_missing (nonempty : query.corpusIds ≠ []) (missing : visible query world = none)
    (history : List Message) :
    ((QueryDocumentsHandler.fullDocument env query history).exec (perform env) world).1 =
      .error (.exception missingCollection) := by
  have raises (limit : Nat) (offset : Option String) := @perform_scroll env query world limit offset
  rw [missing] at raises
  unfold QueryDocumentsHandler.fullDocument
  rw [bind_eq, exec_bind, exec_listChunksForCorpora_raises nonempty raises (by decide)]
  rfl

theorem section_missing (nonempty : query.corpusIds ≠ []) (missing : visible query world = none)
    {vector : List PyFloat} {rest : List (List PyFloat)}
    (embedded : env.embed [query.prompt.toList] = .ok (vector :: rest)) (history : List Message)
    (topK : Nat) :
    ((QueryDocumentsHandler.section' env query history topK).exec (perform env) world).1 =
      .error (.exception missingCollection) := by
  have raises := @perform_queryPoints env query world vector topK
  rw [missing] at raises
  unfold QueryDocumentsHandler.section' QdrantVectorStore.search
  rw [searchFilter_eq query.clientId nonempty, bind_eq, exec_bind, exec_embedOne embedded,
    continueWith_ok, bind_eq, exec_bind, bind_eq, exec_bind, exec_request, raises]
  rfl

theorem handle_missing (valid : query.clientId ≠ "" ∧ query.prompt ≠ "" ∧ query.corpusIds ≠ [])
    (replies : Replies env query router reply) (missing : visible query world = none) :
    ∃ raised, ((QueryDocumentsHandler.handle env query).exec (perform env) world).1 =
      .error raised := by
  have below : visible query { world with permits := world.permits - 1 } = none := missing
  obtain ⟨vector, rest, embedded⟩ := replies.embedded
  have answered := exec_answer replies (trimHistory query.history query.historyWindow.toNat)
    (if query.topK > 0 then query.topK.toNat else env.queryTopKDefault)
    (fun _ _ => fullDocument_missing valid.2.2 below _)
    (fun _ _ => section_missing valid.2.2 below embedded _ _)
  rw [exec_handle env valid, answered]
  cases parseRouterDecision env router.content <;> exact ⟨_, rfl⟩

theorem visible_pointless (pointless : Pointless query world) (present : world.collection.isSome) :
    visible query world = some [] := by
  obtain ⟨collection, found⟩ := Option.isSome_iff_exists.mp present
  rw [visible, found, Option.map_some, Option.some_inj]
  apply List.eq_nil_iff_forall_not_mem.mpr
  intro point member
  obtain ⟨held, selected⟩ := (collection.mem_matching _ _).mp member
  refine pointless point.id point.record ?_ ((satisfies_corporaFilter ..).mp selected).1
  rw [stock_of_some found]
  exact held

/-- A query of a tenant without points gets its empty response exactly when there
is a collection and both replies can be read. -/
theorem citesNothing_iff
    (ranked : ∀ vector points limit, ∀ hit ∈ env.rank vector points limit, hit.1 ∈ points)
    (valid : query.clientId ≠ "" ∧ query.prompt ≠ "" ∧ query.corpusIds ≠ [])
    (replies : Replies env query router reply) (pointless : Pointless query world) :
    CitesNothing env query world ↔ world.collection.isSome = true ∧
      RouterReadable env router.content ∧ AnswerReadable env reply.content := by
  by_cases present : world.collection.isSome = true
  · have unranked (vector : List PyFloat) (limit : Nat) : env.rank vector [] limit = [] := by
      apply List.eq_nil_iff_forall_not_mem.mpr
      exact fun hit member => List.not_mem_nil (ranked vector [] limit hit member)
    have cites (vector : List PyFloat) (topK : Nat) (decision : RouterDecision) :
        citationsOf env vector topK [] decision = .ok [] := by
      unfold citationsOf
      rw [unranked]
      split <;> rfl
    obtain ⟨vector, rest, embedded⟩ := replies.embedded
    rw [CitesNothing, handle_replied valid replies (visible_pointless pointless present) embedded,
      and_iff_right present]
    constructor
    · rintro ⟨response, made, _⟩
      exact (responseOf_returns_iff.mp ⟨response, mapError_eq_ok_iff.mp made⟩).1
    · intro readable
      obtain ⟨response, made⟩ := responseOf_returns_iff.mpr ⟨readable, fun _ _ => ⟨[], cites ..⟩⟩
      obtain ⟨_, _, _, decision, cited⟩ := responseOf_sound made
      exact ⟨response, mapError_eq_ok_iff.mpr made, Except.ok.inj (cited.symm.trans (cites ..))⟩
  · have missing : visible query world = none := by
      rw [visible, Option.not_isSome_iff_eq_none.mp present]
      rfl
    refine iff_of_false ?_ fun both => present both.1
    rintro ⟨response, made, _⟩
    obtain ⟨raised, failed⟩ := handle_missing valid replies missing
    cases made.symm.trans failed

end Missing

namespace System

variable {env : Env} {system after : System env}

/-! The whole system. -/

theorem collection_step {action : Action} (stepped : system.step action = some after)
    (present : system.world.collection.isSome = true) :
    after.world.collection.isSome = true := by
  rcases step_answers stepped with ⟨_, same⟩ | ⟨call, fault, answered⟩
  · rwa [same]
  · rw [answered]
    exact answer_isSome present

theorem collection_stays {later : System env} (reaches : Reaches step anyStep system later)
    (present : system.world.collection.isSome = true) : later.world.collection.isSome = true :=
  reaches.invariant (fun state => state.world.collection.isSome = true)
    (fun _ _ _ _ stepped => collection_step stepped) present

/-- In a deployment that starts without a collection, a delete job of a document
without points succeeds with nothing deleted, and a query of a tenant without
points is answered without citations, once there is a collection and not before;
and once there is one, there always is. -/
theorem empty_operations_iff (env : Env)
    (ranked : ∀ vector points limit, ∀ hit ∈ env.rank vector points limit, hit.1 ∈ points)
    (extractText : Extraction) (system : System env)
    (reaches : Reaches step anyStep (initial env none extractText) system) :
    (∀ message ∈ system.messages, ∀ envelope,
      JobEnvelope.fromPayload env.repr message = .ok envelope → envelope.jobType = .deleteDocument →
      Store.Lacks (inDocument envelope.clientId envelope.documentId) system.world.stock →
      (DeletesNothing env envelope system.world ↔ system.world.collection.isSome = true)) ∧
    (∀ query router reply, query.clientId ≠ "" ∧ query.prompt ≠ "" ∧ query.corpusIds ≠ [] →
      Replies env query router reply → Pointless query system.world →
      (CitesNothing env query system.world ↔ system.world.collection.isSome = true ∧
        RouterReadable env router.content ∧ AnswerReadable env reply.content)) ∧
    (system.world.collection.isSome = true → ∀ later, Reaches step anyStep system later →
      later.world.collection.isSome = true) := by
  have sound := sound_of_reaches reaches
  refine ⟨fun message member envelope read delete lacks => ?_, ?_, ?_⟩
  · obtain ⟨_, _, _, row⟩ := sound.sent member read
    exact deletesNothing_iff delete row lacks
  · exact fun query router reply valid replies pointless =>
      citesNothing_iff ranked valid replies pointless
  · exact fun present later onward => collection_stays onward present

end System

namespace System

open Sample

private def deleteEnvelope : JobEnvelope := (Submission.delete deleteRpc "1").envelope

/-- An index job makes the collection and fails before it writes, and a deletion of another
document is requested. -/
private def deletingLater : List Action :=
  submitted (.index (indexRpc "c" "e" "path") "0" "") 0 0 ++ calls 0 9 ++
    [.work 0 (some ⟨.exception ⟨.other "ResponseHandlingException", "timed out"⟩, false⟩),
      .work 0 none, .settle 0, .submit (.delete deleteRpc "1"), .serve 1 none, .serve 1 none]

private def emptyQuery : QueryDocumentsRequest := ⟨"c", ["corpus"], "Hello?", 0, 0, []⟩

theorem empty_operations_sample :
    ∃ system : System Sample.env, system.world.collection.isSome = true ∧
      DeletesNothing Sample.env deleteEnvelope system.world ∧
      CitesNothing Sample.env emptyQuery system.world := by
  obtain ⟨system, played, present, empty, message, member, read⟩ : ∃ system,
      deletingLater.foldlM step fresh = some system ∧ system.world.collection.isSome = true ∧
        system.world.stock = (fun _ => none) ∧ ∃ message ∈ system.messages,
          JobEnvelope.fromPayload Sample.env.repr message = .ok deleteEnvelope :=
    ⟨_, rfl, rfl, rfl, _, .head _, rfl⟩
  have ranked : ∀ vector points limit, ∀ hit ∈ Sample.env.rank vector points limit,
      hit.1 ∈ points := by
    intro vector points limit hit found
    obtain ⟨point, held, rfl⟩ := List.mem_map.mp found
    exact List.mem_of_mem_take held
  obtain ⟨deletes, cites, _⟩ := empty_operations_iff Sample.env ranked Sample.extract system
    (reaches_of_play (fun _ _ _ => trivial) played)
  have replies : Replies Sample.env emptyQuery ⟨"", "", ⟨0, 0, 0⟩⟩ ⟨"", "", ⟨0, 0, 0⟩⟩ :=
    ⟨⟨_, _, rfl⟩, rfl, fun _ _ => rfl⟩
  refine ⟨system, present, ?_, ?_⟩
  · refine (deletes message member deleteEnvelope read rfl fun id record held => ?_).mpr present
    rw [empty] at held
    cases held
  · refine (cites emptyQuery _ _ (by decide) replies fun id record held => ?_).mpr
      ⟨present, .inl ⟨_, rfl, rfl⟩, .inl ⟨_, rfl, rfl, rfl⟩⟩
    rw [empty] at held
    cases held

/-- The first request of a deployment is a deletion. -/
private def deletingFirst : List Action :=
  [.submit (.delete deleteRpc "1"), .serve 0 none, .serve 0 none]

/-- Deleted first, a document without points fails the job. -/
theorem empty_delete_fails :
    ¬ ∀ (env : Env) (extractText : Extraction) (system : System env),
      Reaches step anyStep (initial env none extractText) system →
      ∀ message ∈ system.messages, ∀ envelope,
        JobEnvelope.fromPayload env.repr message = .ok envelope →
        envelope.jobType = .deleteDocument →
        Store.Lacks (inDocument envelope.clientId envelope.documentId) system.world.stock →
        DeletesNothing env envelope system.world := by
  intro claimed
  obtain ⟨system, played, missing, message, member, read⟩ : ∃ system,
      deletingFirst.foldlM step fresh = some system ∧ system.world.collection = none ∧
        ∃ message ∈ system.messages,
          JobEnvelope.fromPayload Sample.env.repr message = .ok deleteEnvelope :=
    ⟨_, rfl, rfl, _, .head _, rfl⟩
  have lacks {world : World} (missing : world.collection = none) :
      Store.Lacks (inDocument deleteEnvelope.clientId deleteEnvelope.documentId) world.stock := by
    intro id record held
    rw [World.stock, missing] at held
    cases held
  obtain ⟨counted, _⟩ := claimed Sample.env Sample.extract system
    (reaches_of_play (fun _ _ _ => trivial) played) message member deleteEnvelope read rfl
    (lacks missing)
  have worked : DocumentWorker.work Sample.env deleteEnvelope =
      DocumentWorker.handleDelete deleteEnvelope := rfl
  have same : (perform Sample.env (.markRunning deleteEnvelope.jobId) system.world).2.collection =
      none := (committed_collection _).trans missing
  rw [worked, handleDelete_clear (lacks same), same] at counted
  cases counted

end System

end DocContext
