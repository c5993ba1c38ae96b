import DocContext.Foundation.Protocol
import DocContext.Services.QueryService
import DocContext.Workers.Runs

/-! Read isolation of queries: a query reads the store only through the filter of
its client and corpora, and prompts and citations are made of what it read. -/

namespace DocContext

open Foundation Coroutine

/-- Answer a call and note what was said to the model. -/
def conversing (env : Env) (call : Call) (noted : World × List (List Message × String)) :
    Except (Raised PyException) (Reply call) × (World × List (List Message × String)) :=
  let answered := perform env call noted.1
  (answered.1, answered.2,
    match call with
    | .complete messages model => noted.2 ++ [(messages, model)]
    | _ => noted.2)

/-- A query alone: its response, and what it said to the model. -/
def converse (env : Env) (query : QueryDocumentsRequest) (world : World) :
    Except (Raised PyException) QueryDocumentsResponse × List (List Message × String) :=
  let ended := (QueryDocumentsHandler.handle env query).exec (conversing env) (world, [])
  (ended.1, ended.2.2)

/-- The messages of a query that has read some chunks. -/
def Speaks (query : QueryDocumentsRequest) (chunks : List RetrievedChunk)
    (messages : List Message) : Prop :=
  messages = Prompts.buildRouterMessages query.prompt ∨
    ∃ history, messages =
        Prompts.buildFullDocAnswerMessages query.prompt history (assembleDocuments chunks) ∨
      messages = Prompts.buildSectionAnswerMessages query.prompt history chunks

/-- The calls of a query; its state is what it has read. -/
def Reads (query : QueryDocumentsRequest) (chunks : List RetrievedChunk) : Call → Prop
  | .acquire | .release | .embed _ => True
  | .queryPoints _ filter _ | .scroll filter _ _ =>
    filter = corporaFilter query.clientId query.corpusIds
  | .complete messages _ => Speaks query chunks messages
  | _ => False

/-- What a query has read after a reply. -/
def readOn (chunks : List RetrievedChunk) :
    (call : Call) → Except (Raised PyException) (Reply call) → List RetrievedChunk
  | .queryPoints .., .ok hits => hits.map fun hit => hit.1.retrieved hit.2
  | .scroll .., .ok page => chunks ++ page.1.map fun point => point.retrieved (.finite 0)
  | _, _ => chunks

def queryProtocol (query : QueryDocumentsRequest) :
    Protocol Call Reply PyException (List RetrievedChunk) where
  admits := Reads query
  moves := readOn

/-- The citations of a response are made of what was read. -/
def Cites (chunks : List RetrievedChunk) (citations : List Citation) : Prop :=
  citationsForFullDoc chunks = .ok citations ∨ citationsForSection chunks = .ok citations

section Handler

variable {env : Env} {query : QueryDocumentsRequest}

theorem scrollLoop_follows {limit page rounds : Nat} {out : List RetrievedChunk}
    {offset : Option String} :
    Follows (queryProtocol query)
      (fun chunks (result : Except (Raised PyException) (List RetrievedChunk)) =>
        ∀ docs, result = .ok docs → chunks = docs) out
      (QdrantVectorStore.scrollLoop (corporaFilter query.clientId query.corpusIds) limit page out
        offset rounds) := by
  induction rounds generalizing out offset with
  | zero => exact fun docs same => Except.ok.inj same
  | succ rounds ih =>
    unfold QdrantVectorStore.scrollLoop
    split
    · refine follows_request_bind rfl (fun raised docs same => by cases same) fun page => ?_
      obtain ⟨points, nextOffset⟩ := page
      dsimp only
      split
      · exact fun docs same => Except.ok.inj same
      · exact ih
    · exact fun docs same => Except.ok.inj same

theorem fullDocument_follows {history : List Message} (nonempty : query.corpusIds ≠ []) :
    Follows (queryProtocol query)
      (fun chunks (result : Except (Raised PyException) (LLMResponse × List Citation)) =>
        ∀ answered, result = .ok answered → Cites chunks answered.2) []
      (QueryDocumentsHandler.fullDocument env query history) := by
  unfold QueryDocumentsHandler.fullDocument QdrantVectorStore.listChunksForCorpora
  rw [if_neg (by simpa using nonempty)]
  refine follows_bind (scrollLoop_follows.weaken fun chunks result read => ?_)
  cases result with
  | error raised => exact fun answered same => by cases same
  | ok docs =>
    rw [read docs rfl]
    refine follows_request_bind (.inr ⟨history, .inl rfl⟩) (fun raised answered same => by cases same)
      fun answer => ?_
    cases cited : citationsForFullDoc docs with
    | error error => exact fun answered same => by cases same
    | ok citations =>
      intro answered same
      cases same
      exact .inl cited

theorem section_follows {history : List Message} {topK : Nat} (nonempty : query.corpusIds ≠ []) :
    Follows (queryProtocol query)
      (fun chunks (result : Except (Raised PyException) (LLMResponse × List Citation)) =>
        ∀ answered, result = .ok answered → Cites chunks answered.2) []
      (QueryDocumentsHandler.section' env query history topK) := by
  unfold QueryDocumentsHandler.section' embedOne QdrantVectorStore.search
  simp only [bind_eq, bind_assoc]
  refine follows_request_bind trivial (fun raised answered same => by cases same) fun vectors => ?_
  cases vectors with
  | nil => exact fun answered same => by cases same
  | cons vector rest =>
    refine follows_request_bind (searchFilter_eq query.clientId nonempty)
      (fun raised answered same => by cases same) fun hits => ?_
    refine follows_request_bind (.inr ⟨history, .inr rfl⟩) (fun raised answered same => by cases same)
      fun answer => ?_
    cases cited : citationsForSection (hits.map fun hit => hit.1.retrieved hit.2) with
    | error error => exact fun answered same => by cases same
    | ok citations =>
      intro answered same
      cases same
      exact .inr cited

theorem answer_follows {history : List Message} {topK : Nat} (nonempty : query.corpusIds ≠ []) :
    Follows (queryProtocol query)
      (fun chunks (result : Except (Raised PyException)
          (RouterDecision × LLMResponse × List Citation)) =>
        ∀ answered, result = .ok answered → Cites chunks answered.2.2) []
      (QueryDocumentsHandler.answer env query history topK) := by
  unfold QueryDocumentsHandler.answer
  refine follows_request_bind (.inl rfl) (fun raised answered same => by cases same) fun routed => ?_
  cases parseRouterDecision env routed.content with
  | error error => exact fun answered same => by cases same
  | ok decision =>
    have concludes {body : Task (LLMResponse × List Citation)}
        (follows : Follows (queryProtocol query) (fun chunks result =>
          ∀ answered, result = .ok answered → Cites chunks answered.2) [] body) :
        Follows (queryProtocol query) (fun chunks (result : Except (Raised PyException)
            (RouterDecision × LLMResponse × List Citation)) =>
          ∀ answered, result = .ok answered → Cites chunks answered.2.2) []
          (body.bind fun answered => .ret (decision, answered.1, answered.2)) := by
      refine follows_bind (follows.weaken fun chunks result cites => ?_)
      cases result with
      | error raised => exact fun answered same => by cases same
      | ok answered =>
        intro concluded same
        cases same
        exact cites answered rfl
    change Follows _ _ _ (if decision.route = "FULL_DOC" then _ else _)
    split
    · exact concludes (fullDocument_follows nonempty)
    · exact concludes (section_follows nonempty)

/-- A query that passes validation reads through its own filter only, says only
what it has read, and cites only what it has read. -/
theorem handle_follows (env : Env)
    (valid : query.clientId ≠ "" ∧ query.prompt ≠ "" ∧ query.corpusIds ≠ []) :
    Follows (queryProtocol query)
      (fun chunks (result : Except (Raised PyException) QueryDocumentsResponse) =>
        ∀ response, result = .ok response → Cites chunks response.citations) []
      (QueryDocumentsHandler.handle env query) := by
  unfold QueryDocumentsHandler.handle withSemaphore
  rw [if_neg valid.1, if_neg valid.2.1, if_neg (by simpa using valid.2.2)]
  simp only [bind_eq, bind_assoc]
  refine follows_request_bind trivial (fun raised response same => by cases same) fun _ => ?_
  refine follows_bind (follows_tryFinally ((answer_follows valid.2.2).weaken
    fun chunks result cites => ?_))
  refine follows_request trivial fun reply => ?_
  cases reply with
  | error raised => exact fun response same => by cases same
  | ok _ =>
    cases result with
    | error raised => exact fun response same => by cases same
    | ok answered =>
      obtain ⟨decision, answer, citations⟩ := answered
      change Follows _ _ _ (Coroutine.ofExcept (respond env decision answer citations))
      cases responded : respond env decision answer citations with
      | error error => exact fun response same => by cases same
      | ok made =>
        intro response same
        cases same
        obtain ⟨_, _, _, _, _, rfl⟩ := respond_eq_ok_iff.mp responded
        exact cites _ rfl

end Handler

/-! What a query can see of the store. -/

/-- A chunk read from a point of the query's client and corpora. -/
def Owned (world : World) (query : QueryDocumentsRequest) (chunk : RetrievedChunk) : Prop :=
  ∃ (point : Point) (score : PyFloat), world.stock point.id = some point.record ∧
    point.record.payload.clientId = some query.clientId ∧
    (∃ corpusId ∈ query.corpusIds, point.record.payload.corpusId = some corpusId) ∧
    chunk = point.retrieved score

/-- The points a query can see, in scroll order. -/
def visible (query : QueryDocumentsRequest) (world : World) : Option (List Point) :=
  world.collection.map fun collection =>
    collection.matching (corporaFilter query.clientId query.corpusIds)

section Sight

variable {env : Env} {query : QueryDocumentsRequest} {call : Call} {chunks : List RetrievedChunk}

theorem owned_of_matching {world : World} {collection : Collection}
    (present : world.collection = some collection) {point : Point}
    (member : point ∈ collection.matching (corporaFilter query.clientId query.corpusIds))
    (score : PyFloat) : Owned world query (point.retrieved score) := by
  obtain ⟨held, selected⟩ := (collection.mem_matching _ _).mp member
  obtain ⟨client, corpus⟩ := (satisfies_corporaFilter ..).mp selected
  refine ⟨point, score, ?_, client, corpus, rfl⟩
  rw [stock_of_some present]
  exact held

theorem stored_visible (world : World) {operation : Collection → α × Collection}
    (read : List Point → α)
    (reads : ∀ collection, operation collection =
      (read (collection.matching (corporaFilter query.clientId query.corpusIds)), collection)) :
    world.stored operation =
      ((visible query world).elim (.error (.exception missingCollection)) fun points =>
        .ok (read points), world) := by
  obtain ⟨table, queue, collection, extractText, permits⟩ := world
  cases collection with
  | none => rfl
  | some collection => simp [World.stored, visible, reads]

theorem perform_queryPoints (world : World) (vector : List PyFloat) (limit : Nat) :
    perform env (.queryPoints vector (corporaFilter query.clientId query.corpusIds) limit) world =
      ((visible query world).elim (.error (.exception missingCollection)) fun points =>
        .ok (env.rank vector points limit), world) :=
  stored_visible world (fun points => env.rank vector points limit) fun _ => rfl

theorem perform_scroll (world : World) (limit : Nat) (offset : Option String) :
    perform env (.scroll (corporaFilter query.clientId query.corpusIds) limit offset) world =
      ((visible query world).elim (.error (.exception missingCollection)) fun points =>
        .ok (Collection.pageOf points limit offset), world) :=
  stored_visible world (fun points => Collection.pageOf points limit offset) fun _ => rfl

theorem reads_collection (reads : Reads query chunks call) (world : World) :
    (perform env call world).2.collection = world.collection := by
  cases call <;> try cases reads
  case queryPoints => rw [perform_queryPoints]
  case scroll => rw [perform_scroll]
  all_goals rfl

theorem reads_agree (reads : Reads query chunks call) {first second : World}
    (agree : visible query first = visible query second) :
    (perform env call first).1 = (perform env call second).1 := by
  cases call <;> try cases reads
  case queryPoints => rw [perform_queryPoints, perform_queryPoints, agree]
  case scroll => rw [perform_scroll, perform_scroll, agree]
  all_goals rfl

/-- What a query has read after a call are chunks of its own. -/
theorem readOn_owned
    (ranked : ∀ vector points limit, ∀ hit ∈ env.rank vector points limit, hit.1 ∈ points)
    (reads : Reads query chunks call) {world : World}
    (owned : ∀ chunk ∈ chunks, Owned world query chunk) :
    ∀ chunk ∈ readOn chunks call (perform env call world).1, Owned world query chunk := by
  have seen {points : List Point} (sight : visible query world = some points) {point : Point}
      (member : point ∈ points) (score : PyFloat) : Owned world query (point.retrieved score) := by
    obtain ⟨collection, present, rfl⟩ := Option.map_eq_some_iff.mp sight
    exact owned_of_matching present member score
  cases call <;> try cases reads
  case queryPoints vector limit =>
    rw [perform_queryPoints]
    cases sight : visible query world with
    | none => exact owned
    | some points =>
      intro chunk member
      obtain ⟨hit, found, rfl⟩ := List.mem_map.mp member
      exact seen sight (ranked _ _ _ hit found) hit.2
  case scroll limit offset =>
    rw [perform_scroll]
    cases sight : visible query world with
    | none => exact owned
    | some points =>
      intro chunk member
      rcases List.mem_append.mp member with before | new
      · exact owned chunk before
      · obtain ⟨point, found, rfl⟩ := List.mem_map.mp new
        refine seen sight ?_ _
        have within := List.mem_of_mem_take found
        cases offset with
        | none => exact within
        | some id => exact (List.dropWhile_sublist _).mem within
  all_goals exact owned

end Sight

theorem cites_chunk {chunks : List RetrievedChunk} {citations : List Citation}
    (cites : Cites chunks citations) {citation : Citation} (member : citation ∈ citations) :
    ∃ chunk ∈ chunks, citation.documentId = chunk.documentId ∧
      citation.corpusId = chunk.corpusId := by
  rcases cites with spanned | hit
  · obtain ⟨_, rfl⟩ := citationsForFullDoc_eq_ok_iff.mp spanned
    obtain ⟨entry, present, rfl⟩ := List.mem_map.mp member
    exact collect_values (fun citation : Citation => ∃ chunk ∈ chunks,
        citation.documentId = chunk.documentId ∧ citation.corpusId = chunk.corpusId)
      RetrievedChunk.documentId widenCitation (fun chunk found => ⟨chunk, found, rfl, rfl⟩)
      (fun _ _ _ held => held) entry present
  · obtain ⟨_, rfl⟩ := citationsForSection_eq_ok_iff.mp hit
    obtain ⟨chunk, present, rfl⟩ := List.mem_map.mp member
    exact ⟨chunk, present, rfl, rfl⟩

theorem visible_agree {query : QueryDocumentsRequest} {first second : World}
    (present : first.collection.isSome = second.collection.isSome)
    (agree : ∀ id record, record.payload.clientId = some query.clientId →
      (∃ corpusId ∈ query.corpusIds, record.payload.corpusId = some corpusId) →
      (first.stock id = some record ↔ second.stock id = some record)) :
    visible query first = visible query second := by
  unfold visible
  cases one : first.collection with
  | none => cases two : second.collection with
    | none => rfl
    | some collection => simp [one, two] at present
  | some collection => cases two : second.collection with
    | none => simp [one, two] at present
    | some other =>
      refine congrArg some (Collection.matching_congr fun point selected => ?_)
      obtain ⟨client, corpus⟩ := (satisfies_corporaFilter ..).mp selected
      have same := agree point.id point.record client corpus
      rwa [stock_of_some one, stock_of_some two] at same

/-- The two runs of a query side by side: the collections stay, the notes are the
same, and what was read and said so far is the query's own. -/
structure Alike (query : QueryDocumentsRequest) (first second : World)
    (chunks : List RetrievedChunk) (one two : World × List (List Message × String)) : Prop where
  left : one.1.collection = first.collection
  right : two.1.collection = second.collection
  noted : one.2 = two.2
  owned : ∀ chunk ∈ chunks, Owned first query chunk
  spoken : ∀ said ∈ one.2, ∃ chunks, (∀ chunk ∈ chunks, Owned first query chunk) ∧
    Speaks query chunks said.1

theorem alike_kept {env : Env}
    (ranked : ∀ vector points limit, ∀ hit ∈ env.rank vector points limit, hit.1 ∈ points)
    {query : QueryDocumentsRequest} {first second : World}
    (agree : visible query first = visible query second) (chunks : List RetrievedChunk)
    (call : Call) (one two : World × List (List Message × String))
    (reads : Reads query chunks call) (alike : Alike query first second chunks one two) :
    (conversing env call one).1 = (conversing env call two).1 ∧
      Alike query first second (readOn chunks call (conversing env call one).1)
        (conversing env call one).2 (conversing env call two).2 := by
  have sight {world other : World} (same : world.collection = other.collection) :
      visible query world = visible query other := congrArg (Option.map _) same
  have stock : one.1.stock = first.stock := congrArg (fun found => Option.elim found _ _) alike.left
  have ownedHere (chunk : RetrievedChunk) : Owned one.1 query chunk ↔ Owned first query chunk := by
    rw [Owned, Owned, stock]
  refine ⟨reads_agree reads ((sight alike.left).trans (agree.trans (sight alike.right).symm)),
    (reads_collection reads one.1).trans alike.left,
    (reads_collection reads two.1).trans alike.right, ?_, ?_, ?_⟩
  · have noted := alike.noted
    unfold conversing
    cases call <;> simp only [noted]
  · intro chunk member
    refine (ownedHere chunk).mp (readOn_owned ranked reads (fun other found => ?_) chunk member)
    exact (ownedHere other).mpr (alike.owned other found)
  · cases call <;> try exact alike.spoken
    case complete messages model =>
      intro said member
      rcases List.mem_append.mp member with before | new
      · exact alike.spoken said before
      · rw [List.mem_singleton.mp new]
        exact ⟨chunks, alike.owned, reads⟩

/-- In two worlds that agree on the points of a client and some corpora a valid
query of that client over these corpora says the same to the model and gets the
same response; all it says and cites is made of chunks of that client and these
corpora. -/
theorem query_isolation (env : Env)
    (ranked : ∀ vector points limit, ∀ hit ∈ env.rank vector points limit, hit.1 ∈ points)
    (query : QueryDocumentsRequest)
    (valid : query.clientId ≠ "" ∧ query.prompt ≠ "" ∧ query.corpusIds ≠ []) (first second : World)
    (present : first.collection.isSome = second.collection.isSome)
    (agree : ∀ id record, record.payload.clientId = some query.clientId →
      (∃ corpusId ∈ query.corpusIds, record.payload.corpusId = some corpusId) →
      (first.stock id = some record ↔ second.stock id = some record)) :
    converse env query first = converse env query second ∧
      (∀ spoken ∈ (converse env query first).2, ∃ chunks,
        (∀ chunk ∈ chunks, Owned first query chunk) ∧ Speaks query chunks spoken.1) ∧
      ∀ response, (converse env query first).1 = .ok response →
        ∀ citation ∈ response.citations, ∃ chunk, Owned first query chunk ∧
          citation.documentId = chunk.documentId ∧ citation.corpusId = chunk.corpusId := by
  have start : Alike query first second [] (first, []) (second, []) :=
    ⟨rfl, rfl, rfl, by simp, by simp⟩
  obtain ⟨same, chunks, alike, cites⟩ :=
    exec_agree (conversing env) (conversing env) (Alike query first second)
      (alike_kept ranked (visible_agree present agree)) (handle_follows env valid) start
  refine ⟨Prod.ext same alike.noted, alike.spoken, fun response answered citation member => ?_⟩
  obtain ⟨chunk, found, named⟩ := cites_chunk (cites response answered) member
  exact ⟨chunk, alike.owned chunk found, named⟩

private def oneChunk (clientId : String) : Point :=
  (DocumentWorker.storedChunk Sample.env (Sample.indexJob "1" clientId clientId "text")
    ⟨"text".toList, 0, 0, 4⟩ [.finite 1]).point

private def tenantQuery : QueryDocumentsRequest := ⟨"a", ["corpus"], "What?", 0, 0, []⟩

/-- A point of another client makes no difference. -/
theorem query_isolation_sample :
    let first := Sample.world (some ((Collection.empty 1).upsert [oneChunk "a"]))
    let second := Sample.world (some ((Collection.empty 1).upsert [oneChunk "b", oneChunk "a"]))
    converse Sample.env tenantQuery first = converse Sample.env tenantQuery second ∧
      (∀ spoken ∈ (converse Sample.env tenantQuery first).2, ∃ chunks,
        (∀ chunk ∈ chunks, Owned first tenantQuery chunk) ∧ Speaks tenantQuery chunks spoken.1) ∧
      ∀ response, (converse Sample.env tenantQuery first).1 = .ok response →
        ∀ citation ∈ response.citations, ∃ chunk, Owned first tenantQuery chunk ∧
          citation.documentId = chunk.documentId ∧ citation.corpusId = chunk.corpusId := by
  intro first second
  refine query_isolation Sample.env ?_ tenantQuery (by decide) first second rfl ?_
  · intro vector points limit hit member
    obtain ⟨point, found, rfl⟩ := List.mem_map.mp member
    exact List.mem_of_mem_take found
  · intro id record client _
    have one : first.stock = _ := (Collection.empty 1).view_upsert [oneChunk "a"]
    have two : second.stock = _ := (Collection.empty 1).view_upsert [oneChunk "b", oneChunk "a"]
    have later : ([oneChunk "b", oneChunk "a"].map Point.entry) =
      (oneChunk "b").entry :: [oneChunk "a"].map Point.entry := rfl
    rw [one, two, later, Store.write_cons]
    by_cases own : id ∈ ([oneChunk "a"].map Point.entry).map Prod.fst
    · obtain ⟨stored, _, written⟩ := Store.write_own own
      rw [written, written]
    · rw [Store.write_other own, Store.write_other own, Collection.view_empty]
      refine iff_of_false (by simp) fun held => ?_
      rw [Function.update_apply] at held
      split at held
      · cases held
        exact absurd client (by decide)
      · cases held

end DocContext
