import DocContext.Services.QueryIsolation
import DocContext.VectorStores.Listing

/-! Whole-document answers. The listing stops at a limit it does not report, and
what it leaves out is missing from the documents in the prompt. -/

namespace DocContext

open Foundation Coroutine

/-- The documents a whole-document answer is asked of, unless the listing raises. -/
def promptedDocuments (env : Env) (query : QueryDocumentsRequest) (world : World) :
    Option (List (String × Text)) :=
  ((QdrantVectorStore.listChunksForCorpora query.clientId query.corpusIds).exec (perform env)
    world).1.toOption.map assembleDocuments

/-- The router sends the query to its whole documents. -/
def RoutedFullDoc (env : Env) (query : QueryDocumentsRequest) : Prop :=
  ∃ routed decision,
    env.complete (Prompts.buildRouterMessages query.prompt) env.llmRouterModel = .ok routed ∧
      parseRouterDecision env routed.content = .ok decision ∧ decision.route = "FULL_DOC"

/-! What is said to the model. -/

/-- The calls of a listing. -/
def listingProtocol : Protocol Call Reply PyException Unit where
  admits _ call := ∃ filter limit offset, call = .scroll filter limit offset
  moves _ _ _ := ()

theorem scrollLoop_lists {filter : Filter} {limit page rounds : Nat} {out : List RetrievedChunk}
    {offset : Option String} :
    Follows listingProtocol (fun _ _ => True) ()
      (QdrantVectorStore.scrollLoop filter limit page out offset rounds) := by
  induction rounds generalizing out offset with
  | zero => trivial
  | succ rounds ih =>
    unfold QdrantVectorStore.scrollLoop
    split
    · refine follows_request_bind ⟨_, _, _, rfl⟩ (fun _ => trivial) fun page => ?_
      obtain ⟨points, nextOffset⟩ := page
      dsimp only
      split
      · trivial
      · exact ih
    · trivial

theorem listChunksForCorpora_lists {clientId : String} {corpusIds : List String} {limit : Int} :
    Follows listingProtocol (fun _ _ => True) ()
      (QdrantVectorStore.listChunksForCorpora clientId corpusIds limit) := by
  unfold QdrantVectorStore.listChunksForCorpora
  split
  · trivial
  · exact scrollLoop_lists

section Conversation

variable {env : Env} {query : QueryDocumentsRequest} {history : List Message} {world other : World}
  {noted : List (List Message × String)}

/-- A listing says nothing to the model, and reads nothing but the collection. -/
theorem exec_listing (env : Env) (clientId : String) (corpusIds : List String)
    (same : world.collection = other.collection) (noted : List (List Message × String)) :
    ((QdrantVectorStore.listChunksForCorpora clientId corpusIds).exec (conversing env)
        (world, noted)).1 =
      ((QdrantVectorStore.listChunksForCorpora clientId corpusIds).exec (perform env) other).1 ∧
    ((QdrantVectorStore.listChunksForCorpora clientId corpusIds).exec (conversing env)
        (world, noted)).2.2 = noted := by
  have kept (state : Unit) (call : Call) (one : World × List (List Message × String)) (two : World)
      (listing : listingProtocol.admits state call)
      (alike : one.1.collection = two.collection ∧ one.2 = noted) :
      (conversing env call one).1 = (perform env call two).1 ∧
        (conversing env call one).2.1.collection = (perform env call two).2.collection ∧
        (conversing env call one).2.2 = noted := by
    obtain ⟨filter, limit, offset, rfl⟩ := listing
    obtain ⟨same, silent⟩ := alike
    simp only [conversing, perform, World.stored, same, silent]
    cases two.collection <;> simp [same]
  have start : (world, noted).1.collection = other.collection ∧ (world, noted).2 = noted :=
    ⟨same, rfl⟩
  obtain ⟨agree, _, ⟨_, silent⟩, _⟩ :=
    exec_agree (conversing env) (perform env)
      (fun _ one two => one.1.collection = two.collection ∧ one.2 = noted) kept
      listChunksForCorpora_lists start
  exact ⟨agree, silent⟩

theorem fullDocument_spoken (same : world.collection = other.collection) :
    ((QueryDocumentsHandler.fullDocument env query history).exec (conversing env)
        (world, noted)).2.2 =
      noted ++ (promptedDocuments env query other).toList.map fun documents =>
        (Prompts.buildFullDocAnswerMessages query.prompt history documents, env.llmAnswerModel) := by
  obtain ⟨agree, silent⟩ := exec_listing env query.clientId query.corpusIds same noted
  unfold QueryDocumentsHandler.fullDocument promptedDocuments
  rw [bind_eq, exec_bind, ← agree]
  rcases listed : (QdrantVectorStore.listChunksForCorpora query.clientId query.corpusIds).exec
    (conversing env) (world, noted) with ⟨result, after, said⟩
  rw [listed] at silent
  change said = noted at silent
  subst silent
  cases result with
  | error raised => simp [Except.toOption]
  | ok docs =>
    have quiet (answered : LLMResponse) (world : World × List (List Message × String)) :
        (exec (conversing env) (do
          let citations ← Coroutine.ofExcept (citationsForFullDoc docs)
          return (answered, citations)) world).2 = world := by
      rw [bind_eq, exec_bind, exec_ofExcept]
      cases citationsForFullDoc docs <;> rfl
    rw [continueWith_ok, bind_eq, exec_bind, exec_request, continueWith_world _ quiet]
    rfl

theorem answer_spoken {topK : Nat} (routed : RoutedFullDoc env query)
    (same : world.collection = other.collection) :
    ((QueryDocumentsHandler.answer env query history topK).exec (conversing env)
        (world, noted)).2.2 =
      noted ++ (Prompts.buildRouterMessages query.prompt, env.llmRouterModel) ::
        (promptedDocuments env query other).toList.map fun documents =>
          (Prompts.buildFullDocAnswerMessages query.prompt history documents,
            env.llmAnswerModel) := by
  obtain ⟨reply, decision, completed, parsed, route⟩ := routed
  have replied : conversing env (.complete (Prompts.buildRouterMessages query.prompt)
      env.llmRouterModel) (world, noted) = (.ok reply, world,
        noted ++ [(Prompts.buildRouterMessages query.prompt, env.llmRouterModel)]) := by
    simp [conversing, perform, computed, completed, Except.mapError]
  unfold QueryDocumentsHandler.answer
  rw [bind_eq, exec_bind, exec_request, replied, continueWith_ok, parsed, bind_eq, exec_bind,
    exec_ofExcept, Except.mapError, continueWith_ok, if_pos route, bind_eq, exec_bind,
    continueWith_world _ fun _ _ => rfl, fullDocument_spoken same, List.append_assoc,
    List.singleton_append]

/-- A query on the whole-document route asks the router, then asks one answer of
the documents it assembled. -/
theorem converse_spoken (env : Env) {query : QueryDocumentsRequest}
    (valid : query.clientId ≠ "" ∧ query.prompt ≠ "" ∧ query.corpusIds ≠ [])
    (routed : RoutedFullDoc env query) (world : World) :
    (converse env query world).2 =
      (Prompts.buildRouterMessages query.prompt, env.llmRouterModel) ::
        (promptedDocuments env query world).toList.map fun documents =>
          (Prompts.buildFullDocAnswerMessages query.prompt
            (trimHistory query.history query.historyWindow.toNat) documents,
            env.llmAnswerModel) := by
  have acquired : conversing env .acquire (world, []) =
      (.ok (), { world with permits := world.permits - 1 }, []) := rfl
  unfold converse QueryDocumentsHandler.handle withSemaphore
  rw [if_neg valid.1, if_neg valid.2.1, if_neg (by simpa using valid.2.2)]
  simp only [bind_eq, bind_assoc]
  rw [exec_bind, exec_request, acquired, continueWith_ok, exec_bind, continueWith_world, exec_tryFinally]
  · have said := @answer_spoken env query (trimHistory query.history query.historyWindow.toNat)
      { world with permits := world.permits - 1 } world []
      (if query.topK > 0 then query.topK.toNat else env.queryTopKDefault) routed rfl
    rw [List.nil_append] at said
    rw [← said]
    rcases (QueryDocumentsHandler.answer ..).exec _ _ with ⟨raised | answered, after⟩ <;> rfl
  · intro answered world
    obtain ⟨decision, answered, citations⟩ := answered
    dsimp only
    rw [exec_ofExcept]

end Conversation

/-! What the listing leaves of the documents. -/

theorem promptedDocuments_eq (env : Env) {query : QueryDocumentsRequest} (world : World)
    (nonempty : query.corpusIds ≠ []) :
    promptedDocuments env query world = (visible query world).map fun points =>
      assembleDocuments ((points.take 10000).map fun point => point.retrieved (.finite 0)) := by
  unfold promptedDocuments
  have positive : (0 : Int) < 10000 := by decide
  cases present : world.collection with
  | none =>
    have sight : visible query world = none := by rw [visible, present, Option.map_none]
    have raises (limit : Nat) (offset : Option String) := @perform_scroll env query world limit offset
    rw [sight] at raises ⊢
    rw [exec_listChunksForCorpora_raises nonempty raises positive]
    rfl
  | some collection =>
    have sight : visible query world =
        some (collection.matching (corporaFilter query.clientId query.corpusIds)) := by
      rw [visible, present, Option.map_some]
    have answers (limit : Nat) (offset : Option String) := @perform_scroll env query world limit offset
    rw [sight] at answers ⊢
    rw [exec_listChunksForCorpora nonempty (collection.matching_sorted _) answers]
    rfl

/-- A family of documents, each indexed once and successfully, in a store of its
own. -/
structure IndexedOnce (env : Env) (start : World) (deliveries : List Delivery) : Prop where
  empty : start.stock = fun _ => none
  indexes : ∀ delivery ∈ deliveries, delivery.envelope.jobType = .indexDocument
  distinct : (deliveries.map fun delivery => delivery.envelope.documentId).Nodup
  texts : ∀ delivery ∈ deliveries, delivery.text ≠ []
  completed : AllCompleted env start deliveries

/-- The document is the client's, in one of the corpora. -/
def Delivery.Selected (query : QueryDocumentsRequest) (delivery : Delivery) : Bool :=
  delivery.envelope.clientId = query.clientId &&
    query.corpusIds.contains delivery.envelope.corpusId

/-- What a whole-document answer should be asked of. -/
def selectedDocuments (query : QueryDocumentsRequest) (deliveries : List Delivery) :
    List (String × Text) :=
  (deliveries.filter (Delivery.Selected query)).map fun delivery =>
    (delivery.envelope.documentId, delivery.text)

/-- The chunk ids of these documents. -/
def selectedIds (env : Env) (query : QueryDocumentsRequest) (deliveries : List Delivery) :
    List String :=
  (deliveries.filter (Delivery.Selected query)).flatMap fun delivery =>
    (delivery.chunks env).map fun chunk =>
      chunkIdFor env delivery.envelope.documentId chunk.chunkIndex

/-- Every character of these documents is in a chunk whose id is among the first
10000. -/
def WithinLimit (env : Env) (query : QueryDocumentsRequest) (deliveries : List Delivery) : Prop :=
  ∀ delivery ∈ deliveries, delivery.Selected query → ∀ position < delivery.text.length,
    ∃ chunk ∈ delivery.chunks env, chunk.charStart ≤ position ∧ position < chunk.charEnd ∧
      (selectedIds env query deliveries).countP (fun id =>
        decide (id < chunkIdFor env delivery.envelope.documentId chunk.chunkIndex)) < 10000

theorem selected_iff {query : QueryDocumentsRequest} {delivery : Delivery} :
    delivery.Selected query = true ↔ delivery.envelope.clientId = query.clientId ∧
      delivery.envelope.corpusId ∈ query.corpusIds := by
  simp [Delivery.Selected]

/-- Points of different documents have different ids. -/
theorem stock_distinct {env : Env} (injective : Function.Injective env.uuid5)
    {deliveries : List Delivery}
    (indexes : ∀ delivery ∈ deliveries, delivery.envelope.jobType = .indexDocument)
    (distinct : (deliveries.map fun delivery => delivery.envelope.documentId).Nodup) (id : String)
    (record : Record) :
    deliveries.foldl (fun stock delivery => delivery.effect env stock) (fun _ => none) id =
        some record ↔
      ∃ delivery ∈ deliveries, (⟨id, record⟩ : Point) ∈ delivery.points env := by
  induction deliveries using List.reverseRecOn with
  | nil => simp
  | append_singleton earlier last ih =>
    rw [List.map_append, List.nodup_append] at distinct
    have before := ih (fun delivery member => indexes delivery (List.mem_append_left _ member))
      distinct.1
    have index := indexes last (List.mem_append_right _ (List.mem_singleton_self _))
    rw [List.foldl_append, List.foldl_cons, List.foldl_nil, Delivery.effect, jobEffect, index]
    rw [Store.write_eq_some (ids_distinct injective), before]
    constructor
    · rintro (written | ⟨⟨delivery, member, found⟩, _⟩)
      · exact ⟨last, by simp, mem_entries.mp written⟩
      · exact ⟨delivery, List.mem_append_left _ member, found⟩
    · rintro ⟨delivery, member, found⟩
      rcases List.mem_append.mp member with older | same
      · refine .inr ⟨⟨delivery, older, found⟩, fun collides => ?_⟩
        obtain ⟨_, _, _, index, _, named⟩ := mem_indexedPoints found
        obtain ⟨index', _, named'⟩ := mem_ids.mp collides
        exact distinct.2.2 _ (List.mem_map_of_mem older) last.envelope.documentId (by simp)
          (chunkIdFor_inj injective (named.symm.trans named')).1
      · rw [List.mem_singleton.mp same] at found
        exact .inl (mem_entries.mpr found)

namespace IndexedOnce

variable {env : Env} {query : QueryDocumentsRequest} {start : World} {deliveries : List Delivery}
  {points : List Point}

theorem mem_stock (family : IndexedOnce env start deliveries)
    (injective : Function.Injective env.uuid5) (point : Point) :
    (processAll env start deliveries).stock point.id = some point.record ↔
      ∃ delivery ∈ deliveries, point ∈ delivery.points env := by
  rw [processAll_stock family.completed, family.empty]
  exact stock_distinct injective family.indexes family.distinct point.id point.record

theorem points_chunks (family : IndexedOnce env start deliveries) {delivery : Delivery}
    (member : delivery ∈ deliveries) :
    (delivery.points env).map (fun point => (point.id, point.record.payload)) =
      (delivery.chunks env).map fun chunk =>
        (chunkIdFor env delivery.envelope.documentId chunk.chunkIndex,
          delivery.payload env chunk) := by
  obtain ⟨stored, indexed⟩ :=
    indexed_of_completed family.completed member (family.indexes delivery member)
  exact Delivery.points_chunks indexed

theorem chunk_of_point (family : IndexedOnce env start deliveries) {delivery : Delivery}
    (member : delivery ∈ deliveries) {point : Point} (written : point ∈ delivery.points env) :
    ∃ chunk ∈ delivery.chunks env,
      point.id = chunkIdFor env delivery.envelope.documentId chunk.chunkIndex ∧
        point.record.payload = delivery.payload env chunk := by
  have listed : (point.id, point.record.payload) ∈
      (delivery.points env).map fun point => (point.id, point.record.payload) :=
    List.mem_map.mpr ⟨point, written, rfl⟩
  rw [family.points_chunks member] at listed
  obtain ⟨chunk, present, same⟩ := List.mem_map.mp listed
  exact ⟨chunk, present, (congrArg Prod.fst same).symm, (congrArg Prod.snd same).symm⟩

theorem point_of_chunk (family : IndexedOnce env start deliveries) {delivery : Delivery}
    (member : delivery ∈ deliveries) {chunk : Chunk} (present : chunk ∈ delivery.chunks env) :
    ∃ point ∈ delivery.points env,
      point.id = chunkIdFor env delivery.envelope.documentId chunk.chunkIndex ∧
        point.record.payload = delivery.payload env chunk := by
  have listed : (chunkIdFor env delivery.envelope.documentId chunk.chunkIndex,
      delivery.payload env chunk) ∈ (delivery.chunks env).map fun chunk =>
        (chunkIdFor env delivery.envelope.documentId chunk.chunkIndex, delivery.payload env chunk) :=
    List.mem_map.mpr ⟨chunk, present, rfl⟩
  rw [← family.points_chunks member] at listed
  obtain ⟨point, written, same⟩ := List.mem_map.mp listed
  exact ⟨point, written, congrArg Prod.fst same, congrArg Prod.snd same⟩

/-- The query sees the points of the selected documents. -/
theorem mem_visible (family : IndexedOnce env start deliveries)
    (injective : Function.Injective env.uuid5)
    (sight : visible query (processAll env start deliveries) = some points) (point : Point) :
    point ∈ points ↔ ∃ delivery ∈ deliveries, delivery.Selected query ∧
      point ∈ delivery.points env := by
  obtain ⟨collection, present, rfl⟩ := Option.map_eq_some_iff.mp sight
  have held := family.mem_stock injective point
  rw [stock_of_some present] at held
  rw [Collection.mem_matching, Collection.Holds, held]
  rw [satisfies_corporaFilter]
  constructor
  · rintro ⟨⟨delivery, member, written⟩, client, corpusId, asked, corpus⟩
    obtain ⟨ownClient, _, ownCorpus, _⟩ := mem_indexedPoints written
    refine ⟨delivery, member, selected_iff.mpr ⟨?_, ?_⟩, written⟩
    · exact Option.some.inj (ownClient.symm.trans client)
    · rwa [Option.some.inj (ownCorpus.symm.trans corpus)]
  · rintro ⟨delivery, member, selected, written⟩
    obtain ⟨ownClient, _, ownCorpus, _⟩ := mem_indexedPoints written
    obtain ⟨client, corpus⟩ := selected_iff.mp selected
    exact ⟨⟨delivery, member, written⟩, client ▸ ownClient, _, corpus, ownCorpus⟩

theorem selectedIds_nodup (family : IndexedOnce env start deliveries)
    (injective : Function.Injective env.uuid5) (query : QueryDocumentsRequest) :
    (selectedIds env query deliveries).Nodup := by
  refine List.nodup_flatMap.mpr ⟨fun delivery _ => ?_, ?_⟩
  · have numbered : ((delivery.chunks env).map Chunk.chunkIndex).Nodup := by
      rw [Delivery.chunks, env.chunker.chunk_indexes]
      exact List.nodup_range
    have apart : Function.Injective (chunkIdFor env delivery.envelope.documentId) :=
      fun _ _ same => (chunkIdFor_inj injective same).2
    have named := numbered.map apart
    rwa [List.map_map] at named
  · refine ((List.pairwise_map.mp family.distinct).filter _).imp fun different => ?_
    refine List.disjoint_left.mpr fun id one two => ?_
    obtain ⟨chunk, _, rfl⟩ := List.mem_map.mp one
    obtain ⟨other, _, same⟩ := List.mem_map.mp two
    exact different (chunkIdFor_inj injective same).1.symm

/-- The ids of the chunks to list are those of the points the query sees. -/
theorem visible_ids (family : IndexedOnce env start deliveries)
    (injective : Function.Injective env.uuid5)
    (sight : visible query (processAll env start deliveries) = some points) :
    (points.map Point.id).Perm (selectedIds env query deliveries) := by
  have distinct : (points.map Point.id).Nodup := by
    obtain ⟨collection, _, rfl⟩ := Option.map_eq_some_iff.mp sight
    exact List.pairwise_map.mpr ((collection.matching_sorted _).imp fun less => ne_of_lt less)
  refine (List.perm_ext_iff_of_nodup distinct (family.selectedIds_nodup injective query)).mpr fun id => ?_
  rw [List.mem_map, selectedIds, List.mem_flatMap]
  constructor
  · rintro ⟨point, member, rfl⟩
    obtain ⟨delivery, known, selected, written⟩ := (family.mem_visible injective sight point).mp member
    obtain ⟨chunk, present, named, _⟩ := family.chunk_of_point known written
    exact ⟨delivery, List.mem_filter.mpr ⟨known, selected⟩, List.mem_map.mpr ⟨chunk, present, named.symm⟩⟩
  · rintro ⟨delivery, member, within⟩
    obtain ⟨known, selected⟩ := List.mem_filter.mp member
    obtain ⟨chunk, present, rfl⟩ := List.mem_map.mp within
    obtain ⟨point, written, named, _⟩ := family.point_of_chunk known present
    exact ⟨point, (family.mem_visible injective sight point).mpr ⟨delivery, known, selected, written⟩,
      named⟩

theorem selected_unique (family : IndexedOnce env start deliveries) {first second : Delivery}
    (one : first ∈ deliveries) (two : second ∈ deliveries)
    (same : first.envelope.documentId = second.envelope.documentId) : first = second :=
  List.inj_on_of_nodup_map family.distinct one two same

/-- A chunk of a document is listed when few of the chunk ids come before its
own. -/
theorem mem_listed (family : IndexedOnce env start deliveries)
    (injective : Function.Injective env.uuid5)
    (sight : visible query (processAll env start deliveries) = some points) (limit : Nat)
    {delivery : Delivery} (member : delivery ∈ deliveries) (selected : delivery.Selected query)
    (chunk : Chunk) :
    chunk ∈ (ofDocument delivery.envelope.documentId
          ((points.take limit).map fun point => point.retrieved (.finite 0))).map
        RetrievedChunk.toChunk ↔
      chunk ∈ delivery.chunks env ∧ (selectedIds env query deliveries).countP (fun id =>
        decide (id < chunkIdFor env delivery.envelope.documentId chunk.chunkIndex)) < limit := by
  have ordered : InOrder points := by
    obtain ⟨collection, _, rfl⟩ := Option.map_eq_some_iff.mp sight
    exact collection.matching_sorted _
  have rank (id : String) : (selectedIds env query deliveries).countP (fun other =>
      decide (other < id)) = points.countP fun point => decide (point.id < id) := by
    rw [← (family.visible_ids injective sight).countP_eq, List.countP_map]
    rfl
  have carried {point : Point} {listed : Chunk} (named : point.record.payload =
      delivery.payload env listed) : (point.retrieved (.finite 0)).toChunk = listed := by
    rw [Point.retrieved, RetrievedChunk.toChunk, named]
    rfl
  rw [List.mem_map]
  constructor
  · rintro ⟨retrieved, found, rfl⟩
    obtain ⟨taken, own⟩ := List.mem_filter.mp found
    obtain ⟨point, early, rfl⟩ := List.mem_map.mp taken
    have seen := List.mem_of_mem_take early
    obtain ⟨other, known, _, written⟩ := (family.mem_visible injective sight point).mp seen
    have same : other = delivery := by
      refine family.selected_unique known member ?_
      have document := (mem_indexedPoints written).2.1
      have named := of_decide_eq_true own
      rw [Point.retrieved, document] at named
      exact named
    subst same
    obtain ⟨listed, present, named, payload⟩ := family.chunk_of_point known written
    rw [carried payload, rank, ← named]
    exact ⟨present, (mem_take_iff ordered limit seen).mp early⟩
  · rintro ⟨present, few⟩
    obtain ⟨point, written, named, payload⟩ := family.point_of_chunk member present
    have seen := (family.mem_visible injective sight point).mpr ⟨delivery, member, selected, written⟩
    rw [rank, ← named] at few
    refine ⟨point.retrieved (.finite 0), List.mem_filter.mpr ⟨?_, decide_eq_true ?_⟩, carried payload⟩
    · exact List.mem_map.mpr ⟨point, (mem_take_iff ordered limit seen).mpr few, rfl⟩
    · rw [Point.retrieved, payload]
      rfl

/-- A document comes out whole when its listed chunks cover it. -/
theorem assembled_iff (family : IndexedOnce env start deliveries)
    (injective : Function.Injective env.uuid5)
    (sight : visible query (processAll env start deliveries) = some points) (limit : Nat)
    {delivery : Delivery} (member : delivery ∈ deliveries) (selected : delivery.Selected query) :
    assembleDocument (ofDocument delivery.envelope.documentId
        ((points.take limit).map fun point => point.retrieved (.finite 0))) = delivery.text ↔
      ∀ position < delivery.text.length, ∃ chunk ∈ delivery.chunks env,
        chunk.charStart ≤ position ∧ position < chunk.charEnd ∧
          (selectedIds env query deliveries).countP (fun id =>
            decide (id < chunkIdFor env delivery.envelope.documentId chunk.chunkIndex)) < limit := by
  have listed := family.mem_listed injective sight limit member selected
  rw [assembleDocument_eq_covered env.chunker delivery.text, keepPositions_eq_self_iff]
  · refine forall₂_congr fun position _ => ?_
    rw [coveredBy_iff]
    refine exists_congr fun chunk => ?_
    rw [listed chunk]
    tauto
  · exact fun chunk found => ((listed _).mp (List.mem_map.mpr ⟨chunk, found, rfl⟩)).1

theorem sight_none (family : IndexedOnce env start deliveries)
    (injective : Function.Injective env.uuid5)
    (blind : visible query (processAll env start deliveries) = none) : deliveries = [] := by
  refine List.eq_nil_iff_forall_not_mem.mpr fun delivery member => ?_
  obtain ⟨chunk, present⟩ :=
    List.exists_mem_of_ne_nil _ (env.chunker.chunk_nonempty _ (family.texts delivery member))
  obtain ⟨point, written, _⟩ := family.point_of_chunk member present
  have stored := (family.mem_stock injective point).mpr ⟨delivery, member, written⟩
  rw [World.stock, Option.map_eq_none_iff.mp blind] at stored
  cases stored

/-- The listed documents are the selected ones, whole, exactly when every
character of theirs was listed. -/
theorem assembled_perm_iff (family : IndexedOnce env start deliveries)
    (injective : Function.Injective env.uuid5)
    (sight : visible query (processAll env start deliveries) = some points) :
    (assembleDocuments ((points.take 10000).map fun point => point.retrieved (.finite 0))).Perm
        (selectedDocuments query deliveries) ↔
      WithinLimit env query deliveries := by
  have whole (delivery : Delivery) (member : delivery ∈ deliveries)
      (selected : delivery.Selected query = true) :=
    family.assembled_iff injective sight 10000 member selected
  constructor
  · intro perm delivery member selected
    refine (whole delivery member selected).mp ?_
    have listed : (delivery.envelope.documentId, delivery.text) ∈ selectedDocuments query deliveries :=
      List.mem_map.mpr ⟨delivery, List.mem_filter.mpr ⟨member, selected⟩, rfl⟩
    exact (mem_assembleDocuments.mp (perm.mem_iff.mpr listed)).2.symm
  · intro within
    have keys : ((assembleDocuments ((points.take 10000).map fun point =>
        point.retrieved (.finite 0))).map Prod.fst).Nodup := by
      rw [assembleDocuments_keys]
      exact nodup_eraseDups _
    have keys' : ((selectedDocuments query deliveries).map Prod.fst).Nodup := by
      rw [selectedDocuments, List.map_map]
      exact family.distinct.sublist (List.filter_sublist.map _)
    refine (List.perm_ext_iff_of_nodup keys.of_map keys'.of_map).mpr fun document => ?_
    obtain ⟨documentId, text⟩ := document
    rw [mem_assembleDocuments, selectedDocuments, List.mem_map]
    constructor
    · rintro ⟨⟨chunk, listed, rfl⟩, rfl⟩
      obtain ⟨point, early, rfl⟩ := List.mem_map.mp listed
      obtain ⟨delivery, member, selected, written⟩ :=
        (family.mem_visible injective sight point).mp (List.mem_of_mem_take early)
      have own : (point.retrieved (.finite 0)).documentId = delivery.envelope.documentId := by
        rw [Point.retrieved, (mem_indexedPoints written).2.1]
        rfl
      refine ⟨delivery, List.mem_filter.mpr ⟨member, selected⟩, ?_⟩
      rw [own, (whole delivery member selected).mpr (within delivery member selected)]
    · rintro ⟨delivery, listed, same⟩
      cases same
      obtain ⟨member, selected⟩ := List.mem_filter.mp listed
      refine ⟨?_, ((whole delivery member selected).mpr (within delivery member selected)).symm⟩
      obtain ⟨chunk, present, _, _, few⟩ := within delivery member selected 0
        (List.length_pos_iff.mpr (family.texts delivery member))
      obtain ⟨retrieved, found, _⟩ := List.mem_map.mp
        ((family.mem_listed injective sight 10000 member selected chunk).mpr ⟨present, few⟩)
      obtain ⟨taken, own⟩ := List.mem_filter.mp found
      exact ⟨retrieved, taken, of_decide_eq_true own⟩

/-- No document longer than ten thousand windows comes out whole. -/
theorem length_of_within (family : IndexedOnce env start deliveries)
    (injective : Function.Injective env.uuid5)
    (sight : visible query (processAll env start deliveries) = some points)
    (within : WithinLimit env query deliveries) {delivery : Delivery}
    (member : delivery ∈ deliveries) (selected : delivery.Selected query) :
    delivery.text.length ≤ 10000 * (env.chunker.chunkSize + env.chunker.chunkOverlap) := by
  let listed := (ofDocument delivery.envelope.documentId
    ((points.take 10000).map fun point => point.retrieved (.finite 0))).map RetrievedChunk.toChunk
  have own := family.mem_listed injective sight 10000 member selected
  have few : listed.length ≤ 10000 := by
    rw [List.length_map]
    refine (List.length_filter_le ..).trans ?_
    rw [List.length_map, List.length_take]
    exact Nat.min_le_left ..
  have covers : Finset.range delivery.text.length ⊆
      listed.toFinset.biUnion fun chunk => Finset.Ico chunk.charStart chunk.charEnd := by
    intro position inside
    obtain ⟨chunk, present, lower, upper, early⟩ :=
      within delivery member selected position (Finset.mem_range.mp inside)
    exact Finset.mem_biUnion.mpr ⟨chunk, List.mem_toFinset.mpr ((own chunk).mpr ⟨present, early⟩),
      Finset.mem_Ico.mpr ⟨lower, upper⟩⟩
  have narrow : ∀ chunk ∈ listed.toFinset, (Finset.Ico chunk.charStart chunk.charEnd).card ≤
      env.chunker.chunkSize + env.chunker.chunkOverlap := by
    intro chunk found
    have width := env.chunker.chunk_width delivery.text
      ((own chunk).mp (List.mem_toFinset.mp found)).1
    rw [Nat.card_Ico]
    omega
  calc delivery.text.length
      = (Finset.range delivery.text.length).card := (Finset.card_range _).symm
    _ ≤ _ := Finset.card_le_card covers
    _ ≤ listed.toFinset.card * (env.chunker.chunkSize + env.chunker.chunkOverlap) :=
        Finset.card_biUnion_le_card_mul _ _ _ narrow
    _ ≤ 10000 * (env.chunker.chunkSize + env.chunker.chunkOverlap) :=
        Nat.mul_le_mul_right _ ((List.toFinset_card_le _).trans few)

end IndexedOnce

/-- When a query takes the whole-document route over documents each indexed once,
it asks the router and then, once, for an answer on the documents it assembled.
These are exactly the client's documents in its corpora, with their whole texts
and up to order, if and only if every character of theirs is in a chunk whose id
is among the first 10000. -/
theorem fullDocument_faithful_iff (env : Env) (injective : Function.Injective env.uuid5)
    (start : World) (deliveries : List Delivery) (family : IndexedOnce env start deliveries)
    (query : QueryDocumentsRequest)
    (valid : query.clientId ≠ "" ∧ query.prompt ≠ "" ∧ query.corpusIds ≠ [])
    (routed : RoutedFullDoc env query) :
    (converse env query (processAll env start deliveries)).2 =
        (Prompts.buildRouterMessages query.prompt, env.llmRouterModel) ::
          (promptedDocuments env query (processAll env start deliveries)).toList.map
            (fun documents => (Prompts.buildFullDocAnswerMessages query.prompt
              (trimHistory query.history query.historyWindow.toNat) documents,
              env.llmAnswerModel)) ∧
      ((∀ documents ∈ promptedDocuments env query (processAll env start deliveries),
          documents.Perm (selectedDocuments query deliveries)) ↔
        WithinLimit env query deliveries) := by
  refine ⟨converse_spoken env valid routed _, ?_⟩
  rw [promptedDocuments_eq env _ valid.2.2]
  cases sight : visible query (processAll env start deliveries) with
  | none =>
    have empty := family.sight_none injective sight
    subst empty
    exact iff_of_true (fun documents listed => by cases listed) fun delivery member => by cases member
  | some points =>
    rw [← family.assembled_perm_iff injective sight]
    simp

/-- The settings of a deployment, and a router that always asks for whole
documents. -/
private def wholeEnv : Env :=
  { Sample.env with
    chunker := ⟨800, 160, Chunking.defaultSeparators, by decide, by decide⟩
    loads := fun _ => .ok (.obj [("route", .str "FULL_DOC")]) }

private def wholeQuery : QueryDocumentsRequest := ⟨"c", ["corpus"], "What?", 0, 0, []⟩

private theorem wholeQuery_routed : RoutedFullDoc wholeEnv wholeQuery :=
  ⟨_, ⟨"FULL_DOC", .finite 0⟩, rfl, by decide +kernel, rfl⟩

/-- A job whose file holds a text, delivered once, and nothing going wrong. -/
private def wholeDelivery (job : JobEnvelope) (wellFormed : job.WellFormed) (text : Text) :
    Delivery :=
  ⟨job, wellFormed, Sample.table job, fun _ _ => .ok text, []⟩

private theorem wholeDelivery_text {job : JobEnvelope} {wellFormed : job.WellFormed} {path : String}
    (located : job.filePath.filter (fun path => path ≠ "") = some path) (text : Text) :
    (wholeDelivery job wellFormed text).text = text :=
  Delivery.text_eq _ located rfl

private theorem wholeDelivery_completed {job : JobEnvelope} {wellFormed : job.WellFormed}
    {path : String} (index : job.jobType = .indexDocument)
    (located : job.filePath.filter (fun path => path ≠ "") = some path) (text : Text)
    (start : World) : (wholeDelivery job wellFormed text).Completed wholeEnv start := by
  refine .inl (Delivery.process_returns rfl (Sample.row job) ?_)
  rw [Ready, wholeDelivery, index]
  have embedded : wholeEnv.embed ((wholeEnv.chunker.chunk text).map Chunk.text) =
      .ok ((wholeEnv.chunker.chunk text).map fun _ => [.finite 1]) := by
    simp [wholeEnv, Sample.env]
  exact indexedChunks_runs located rfl embedded (by simp)

private def smallFamily : List Delivery :=
  [wholeDelivery (Sample.indexJob "1" "c" "d" "path") (by decide) "hello".toList,
    wholeDelivery (Sample.indexJob "2" "c" "e" "path") (by decide) "world".toList]

private theorem smallFamily_indexed : IndexedOnce wholeEnv (Sample.world none) smallFamily where
  empty := rfl
  indexes := by decide
  distinct := by decide
  texts := by decide
  completed := ⟨wholeDelivery_completed rfl rfl _ _, wholeDelivery_completed rfl rfl _ _, trivial⟩

theorem fullDocument_faithful_sample :
    (converse wholeEnv wholeQuery (processAll wholeEnv (Sample.world none) smallFamily)).2 =
        (Prompts.buildRouterMessages wholeQuery.prompt, wholeEnv.llmRouterModel) ::
          (promptedDocuments wholeEnv wholeQuery
            (processAll wholeEnv (Sample.world none) smallFamily)).toList.map
            (fun documents => (Prompts.buildFullDocAnswerMessages wholeQuery.prompt
              (trimHistory wholeQuery.history wholeQuery.historyWindow.toNat) documents,
              wholeEnv.llmAnswerModel)) ∧
      ((∀ documents ∈ promptedDocuments wholeEnv wholeQuery
            (processAll wholeEnv (Sample.world none) smallFamily),
          documents.Perm (selectedDocuments wholeQuery smallFamily)) ↔
        WithinLimit wholeEnv wholeQuery smallFamily) :=
  fullDocument_faithful_iff wholeEnv Function.injective_id (Sample.world none) smallFamily
    smallFamily_indexed wholeQuery (by decide) wholeQuery_routed

/-- One character more than ten thousand windows can show. -/
private def longFamily : List Delivery :=
  [wholeDelivery (Sample.indexJob "1" "c" "d" "path") (by decide) (List.replicate 9600001 'x')]

private theorem longFamily_text : ∀ delivery ∈ longFamily,
    delivery.text = List.replicate 9600001 'x' := by
  intro delivery member
  rw [List.mem_singleton.mp member]
  exact wholeDelivery_text rfl _

private theorem longFamily_indexed : IndexedOnce wholeEnv (Sample.world none) longFamily where
  empty := rfl
  indexes := by
    intro delivery member
    rw [List.mem_singleton.mp member]
    rfl
  distinct := List.nodup_singleton _
  texts := by
    intro delivery member
    apply List.ne_nil_of_length_pos
    rw [longFamily_text delivery member, List.length_replicate]
    decide
  completed := ⟨wholeDelivery_completed rfl rfl _ _, trivial⟩

/-- A document of a single corpus is cut short, with an embedder that gives one
vector for each text. -/
theorem fullDocument_drops_chunks :
    ¬ ∀ (env : Env), Function.Injective env.uuid5 →
      (∀ texts vectors, env.embed texts = .ok vectors → vectors.length = texts.length) →
      ∀ (start : World) (deliveries : List Delivery), IndexedOnce env start deliveries →
      ∀ query : QueryDocumentsRequest,
      (query.clientId ≠ "" ∧ query.prompt ≠ "" ∧ query.corpusIds ≠ []) →
      RoutedFullDoc env query →
      ∀ documents ∈ promptedDocuments env query (processAll env start deliveries),
        documents.Perm (selectedDocuments query deliveries) := by
  intro faithful
  have one (texts : List Text) (vectors : List (List PyFloat))
      (embedded : wholeEnv.embed texts = .ok vectors) : vectors.length = texts.length := by
    cases embedded
    simp
  have listed := faithful wholeEnv Function.injective_id one (Sample.world none) longFamily
    longFamily_indexed wholeQuery (by decide) wholeQuery_routed
  rw [promptedDocuments_eq wholeEnv _ (by decide)] at listed
  cases sight : visible wholeQuery (processAll wholeEnv (Sample.world none) longFamily) with
  | none => cases longFamily_indexed.sight_none Function.injective_id sight
  | some points =>
    rw [sight] at listed
    have within := (longFamily_indexed.assembled_perm_iff Function.injective_id sight).mp
      (listed _ rfl)
    have bound := longFamily_indexed.length_of_within Function.injective_id sight within
      (List.mem_singleton_self _) rfl
    rw [wholeDelivery_text rfl, List.length_replicate] at bound
    exact absurd bound (by decide)

end DocContext
