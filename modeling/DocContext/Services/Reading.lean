import DocContext.Foundation.Paging
import DocContext.Foundation.Protocol
import DocContext.Services.Replies

/-! What a query has read of the store, as a protocol: pages of points in scroll order
on the one route, hits on the other, and what it makes of them. -/

namespace DocContext

open Foundation Coroutine

/-- How many chunks `list_chunks_for_corpora` returns at most. -/
def listingLimit : Nat := 10000

/-- How far a query has come with the store. -/
inductive Reading where
  | nothing
  /-- Some pages; the next one begins at an id. -/
  | pages (points : List Point) (offset : String)
  /-- The listing has ended, with the last page or at the limit. -/
  | listed (points : List Point) (whole : Bool)
  | found (hits : List (Point × PyFloat))
  /-- A page without points that promises more, which no collection answers. -/
  | stalled
  /-- A call has raised. -/
  | failed

/-- The history a query shows to the model. -/
def QueryDocumentsRequest.shownHistory (query : QueryDocumentsRequest) : List Message :=
  trimHistory query.history query.historyWindow.toNat

namespace Reading

/-- The points read so far. -/
def points : Reading → List Point
  | .pages points _ | .listed points _ => points
  | .found hits => hits.map Prod.fst
  | _ => []

/-- The chunks they are read as. -/
def chunks : Reading → List RetrievedChunk
  | .pages points _ | .listed points _ => listedChunks points
  | .found hits => foundChunks hits
  | _ => []

/-- The calls of a query, by what it has read. -/
inductive Awaits (env : Env) (query : QueryDocumentsRequest) : Reading → Call → Prop where
  | acquire : Awaits env query .nothing .acquire
  | release {reading : Reading} : Awaits env query reading .release
  | route : Awaits env query .nothing
      (.complete (Prompts.buildRouterMessages query.prompt) env.llmRouterModel)
  | embed : Awaits env query .nothing (.embed [query.prompt.toList])
  | search {vector : List PyFloat} {filter : Filter}
      (own : filter = corporaFilter query.clientId query.corpusIds) : Awaits env query .nothing
      (.queryPoints vector filter (query.hitLimit env))
  | firstPage {limit : Nat} (positive : 0 < limit) (within : limit ≤ listingLimit) :
      Awaits env query .nothing
        (.scroll (corporaFilter query.clientId query.corpusIds) limit none)
  | nextPage {points : List Point} {offset : String} {limit : Nat} (positive : 0 < limit)
      (within : points.length + limit ≤ listingLimit) :
      Awaits env query (.pages points offset)
        (.scroll (corporaFilter query.clientId query.corpusIds) limit (some offset))
  | answerFullDoc {points : List Point} {whole : Bool} : Awaits env query (.listed points whole)
      (.complete (Prompts.buildFullDocAnswerMessages query.prompt query.shownHistory
        (assembleDocuments (listedChunks points))) env.llmAnswerModel)
  | answerSection {hits : List (Point × PyFloat)} : Awaits env query (.found hits)
      (.complete (Prompts.buildSectionAnswerMessages query.prompt query.shownHistory
        (foundChunks hits)) env.llmAnswerModel)
  | stalledScroll {limit : Nat} {offset : Option String} : Awaits env query .stalled
      (.scroll (corporaFilter query.clientId query.corpusIds) limit offset)
  | stalledAnswer {messages : List Message} : Awaits env query .stalled
      (.complete messages env.llmAnswerModel)

/-- What a page adds. -/
def page (points : List Point) : List Point × Option String → Reading
  | (more, none) => .listed (points ++ more) true
  | ([], some _) => .stalled
  | (more, some offset) =>
    if (points ++ more).length < listingLimit then .pages (points ++ more) offset
    else .listed (points ++ more) false

def moves (reading : Reading) : (call : Call) → Except (Raised PyException) (Reply call) → Reading
  | _, .error _ => .failed
  | .scroll .., .ok answered =>
    match reading with
    | .nothing => page [] answered
    | .pages points _ => page points answered
    | other => other
  | .queryPoints .., .ok hits => .found hits
  | _, _ => reading

/-- How a query ends: its citations are made of what it has read, and the route it
names is the one it took. -/
def Concluded (reading : Reading) (result : Except (Raised PyException) QueryDocumentsResponse) :
    Prop :=
  ∀ response, result = .ok response →
    reading = .stalled ∨
    (∃ points whole, reading = .listed points whole ∧ response.usedRoute = 2 ∧
      citationsForFullDoc (listedChunks points) = .ok response.citations) ∨
    ∃ hits, reading = .found hits ∧ response.usedRoute = 1 ∧
      citationsForSection (foundChunks hits) = .ok response.citations

end Reading

def readingProtocol (env : Env) (query : QueryDocumentsRequest) :
    Protocol Call Reply PyException Reading where
  admits := Reading.Awaits env query
  moves := Reading.moves

section Handler

variable {env : Env} {query : QueryDocumentsRequest}

/-- What the listing leaves. -/
def Listed (reading : Reading) (result : Except (Raised PyException) (List RetrievedChunk)) : Prop :=
  ∀ docs, result = .ok docs → reading = .stalled ∨
    ∃ points whole, reading = .listed points whole ∧ docs = listedChunks points

theorem stalled_listed {rounds : Nat} {out : List RetrievedChunk} {offset : Option String} :
    Follows (readingProtocol env query) Listed .stalled
      (QdrantVectorStore.scrollLoop (corporaFilter query.clientId query.corpusIds) listingLimit 512
        out offset rounds) := by
  induction rounds generalizing out offset with
  | zero => exact fun docs same => .inl rfl
  | succ rounds ih =>
    unfold QdrantVectorStore.scrollLoop
    split
    · refine follows_request_bind .stalledScroll (fun raised docs same => by cases same)
        fun page => ?_
      obtain ⟨points, nextOffset⟩ := page
      dsimp only
      split
      · exact fun docs same => .inl rfl
      · exact ih
    · exact fun docs same => .inl rfl

theorem listedChunks_append (points more : List Point) :
    listedChunks points ++ more.map (fun point => point.retrieved (.finite 0)) =
      listedChunks (points ++ more) :=
  List.map_append.symm

/-- After a page: the listing ends, or goes on with the rest of the loop. -/
theorem page_listed {rounds : Nat} {points : List Point}
    (rest : ∀ more offset, (points ++ more).length < listingLimit → more ≠ [] →
      Follows (readingProtocol env query) Listed (.pages (points ++ more) offset)
        (QdrantVectorStore.scrollLoop (corporaFilter query.clientId query.corpusIds) listingLimit
          512 (listedChunks (points ++ more)) (some offset) rounds))
    (answered : List Point × Option String) :
    Follows (readingProtocol env query) Listed (Reading.page points answered)
      (if answered.2.isNone then .ret (listedChunks (points ++ answered.1))
        else QdrantVectorStore.scrollLoop (corporaFilter query.clientId query.corpusIds)
          listingLimit 512 (listedChunks (points ++ answered.1)) answered.2 rounds) := by
  obtain ⟨more, next⟩ := answered
  cases next with
  | none => exact fun docs same => .inr ⟨_, _, rfl, (Except.ok.inj same).symm⟩
  | some offset =>
    rw [if_neg (by simp)]
    cases more with
    | nil => exact stalled_listed
    | cons first others =>
      simp only [Reading.page]
      by_cases short : (points ++ first :: others).length < listingLimit
      · rw [if_pos short]
        exact rest _ offset short (List.cons_ne_nil _ _)
      · rw [if_neg short]
        -- the loop stops at its limit
        cases rounds with
        | zero => exact fun docs same => .inr ⟨_, _, rfl, (Except.ok.inj same).symm⟩
        | succ rounds =>
          unfold QdrantVectorStore.scrollLoop
          have full : ¬ (listedChunks (points ++ first :: others)).length < listingLimit := by
            rwa [listedChunks, List.length_map]
          rw [if_neg full]
          exact fun docs same => .inr ⟨_, _, rfl, (Except.ok.inj same).symm⟩

/-- The rest of the loop after some pages; no page is empty, so its rounds suffice. -/
theorem pages_listed {rounds : Nat} {points : List Point} {offset : String}
    (short : points.length < listingLimit) (enough : listingLimit ≤ points.length + rounds) :
    Follows (readingProtocol env query) Listed (.pages points offset)
      (QdrantVectorStore.scrollLoop (corporaFilter query.clientId query.corpusIds) listingLimit 512
        (listedChunks points) (some offset) rounds) := by
  induction rounds generalizing points offset with
  | zero => omega
  | succ rounds ih =>
    have size : (listedChunks points).length = points.length := List.length_map ..
    unfold QdrantVectorStore.scrollLoop
    rw [if_pos (by rwa [size])]
    refine follows_request_bind (.nextPage (by omega) (by omega)) (fun raised docs same => by cases same)
      fun answered => ?_
    obtain ⟨more, next⟩ := answered
    dsimp only
    rw [listedChunks_append]
    refine page_listed (fun more offset short nonempty => ih short ?_) (more, next)
    have grown := List.length_pos_iff.mpr nonempty
    rw [List.length_append]
    omega

theorem listing_listed (nonempty : query.corpusIds ≠ []) :
    Follows (readingProtocol env query) Listed .nothing
      (QdrantVectorStore.listChunksForCorpora query.clientId query.corpusIds) := by
  unfold QdrantVectorStore.listChunksForCorpora
  rw [if_neg (by simpa using nonempty)]
  change Follows _ _ _ (QdrantVectorStore.scrollLoop _ listingLimit 512 (listedChunks []) none
    (9999 + 1))
  unfold QdrantVectorStore.scrollLoop
  have limit : listingLimit = 10000 := rfl
  rw [if_pos (by decide)]
  refine follows_request_bind (.firstPage (by decide) (by decide)) (fun raised docs same => by cases same)
    fun answered => ?_
  obtain ⟨more, next⟩ := answered
  dsimp only
  rw [listedChunks_append]
  refine page_listed (fun more offset short nonempty => pages_listed short ?_) (more, next)
  have grown := List.length_pos_iff.mpr nonempty
  rw [List.length_append]
  omega

/-- What the routes leave. -/
def Branched (full : Bool) (reading : Reading)
    (result : Except (Raised PyException) (LLMResponse × List Citation)) : Prop :=
  ∀ answered, result = .ok answered → reading = .stalled ∨
    (full = true ∧ ∃ points whole, reading = .listed points whole ∧
      citationsForFullDoc (listedChunks points) = .ok answered.2) ∨
    (full = false ∧ ∃ hits, reading = .found hits ∧
      citationsForSection (foundChunks hits) = .ok answered.2)

theorem fullDocument_answered (nonempty : query.corpusIds ≠ []) :
    Follows (readingProtocol env query) (Branched true) .nothing
      (QueryDocumentsHandler.fullDocument env query query.shownHistory) := by
  unfold QueryDocumentsHandler.fullDocument
  refine follows_bind ((listing_listed nonempty).weaken fun reading result listed => ?_)
  cases result with
  | error raised => exact fun answered same => by cases same
  | ok docs =>
    rcases listed docs rfl with rfl | ⟨points, whole, rfl, rfl⟩
    · refine follows_request_bind .stalledAnswer (fun raised answered same => by cases same)
        fun answer => ?_
      cases citationsForFullDoc docs with
      | error error => exact fun answered same => by cases same
      | ok citations => exact fun answered same => .inl rfl
    · refine follows_request_bind .answerFullDoc (fun raised answered same => by cases same)
        fun answer => ?_
      cases cited : citationsForFullDoc (listedChunks points) with
      | error error => exact fun answered same => by cases same
      | ok citations =>
        intro answered same
        cases same
        exact .inr (.inl ⟨rfl, points, whole, rfl, cited⟩)

theorem section_answered (nonempty : query.corpusIds ≠ []) :
    Follows (readingProtocol env query) (Branched false) .nothing
      (QueryDocumentsHandler.section' env query query.shownHistory (query.hitLimit env)) := by
  unfold QueryDocumentsHandler.section' embedOne QdrantVectorStore.search
  simp only [bind_eq, bind_assoc]
  refine follows_request_bind .embed (fun raised answered same => by cases same) fun vectors => ?_
  cases vectors with
  | nil => exact fun answered same => by cases same
  | cons vector rest =>
    refine follows_request_bind (.search (searchFilter_eq query.clientId nonempty))
      (fun raised answered same => by cases same) fun hits => ?_
    refine follows_request_bind .answerSection (fun raised answered same => by cases same)
      fun answer => ?_
    change Follows _ _ _ ((Coroutine.ofExcept (citationsForSection (foundChunks hits))).bind _)
    cases cited : citationsForSection (foundChunks hits) with
    | error error => exact fun answered same => by cases same
    | ok citations =>
      intro answered same
      cases same
      exact .inr (.inr ⟨rfl, hits, rfl, cited⟩)

/-- What the section under the semaphore leaves. -/
def Routed (reading : Reading)
    (result : Except (Raised PyException) (RouterDecision × LLMResponse × List Citation)) : Prop :=
  ∀ answered, result = .ok answered →
    Branched (answered.1.route = "FULL_DOC") reading (.ok answered.2)

theorem answer_routed (nonempty : query.corpusIds ≠ []) :
    Follows (readingProtocol env query) Routed .nothing
      (QueryDocumentsHandler.answer env query query.shownHistory (query.hitLimit env)) := by
  unfold QueryDocumentsHandler.answer
  refine follows_request_bind .route (fun raised answered same => by cases same) fun routed => ?_
  cases parseRouterDecision env routed.content with
  | error error => exact fun answered same => by cases same
  | ok decision =>
    have concludes {body : Task (LLMResponse × List Citation)}
        (follows : Follows (readingProtocol env query)
          (Branched (decision.route = "FULL_DOC")) .nothing body) :
        Follows (readingProtocol env query) Routed .nothing
          (body.bind fun answered => .ret (decision, answered.1, answered.2)) := by
      refine follows_bind (follows.weaken fun reading result left => ?_)
      cases result with
      | error raised => exact fun answered same => by cases same
      | ok answered =>
        intro concluded same
        cases same
        exact left
    change Follows _ _ _ (if decision.route = "FULL_DOC" then _ else _)
    split
    · rename_i full
      refine concludes ?_
      rw [decide_eq_true full]
      exact fullDocument_answered nonempty
    · rename_i part
      refine concludes ?_
      rw [decide_eq_false part]
      exact section_answered nonempty

/-- A query reads one page after the other on one route or searches once on the other,
shows the model what it has read, and cites it. -/
theorem handle_reads (env : Env) (query : QueryDocumentsRequest) :
    Follows (readingProtocol env query) Reading.Concluded .nothing
      (QueryDocumentsHandler.handle env query) := by
  unfold QueryDocumentsHandler.handle withSemaphore
  split
  · exact fun response same => by cases same
  split
  · exact fun response same => by cases same
  split
  · exact fun response same => by cases same
  rename_i nonempty
  simp only [bind_eq, bind_assoc]
  refine follows_request_bind .acquire (fun raised response same => by cases same) fun _ => ?_
  refine follows_bind (follows_tryFinally ((answer_routed (by simpa using nonempty)).weaken
    fun reading result left => ?_))
  refine follows_request .release fun reply => ?_
  cases reply with
  | error raised => exact fun response same => by cases same
  | ok _ =>
    cases result with
    | error raised => exact fun response same => by cases same
    | ok answered =>
      obtain ⟨decision, answer, citations⟩ := answered
      change Follows _ _ _ (Coroutine.ofExcept (respond env decision answer citations))
      cases responded : respond env decision answer citations with
      | error error => exact fun response same => by cases same
      | ok made =>
        intro response same
        cases same
        obtain ⟨payload, usedRoute, _, routed, _, rfl⟩ := respond_eq_ok_iff.mp responded
        rcases left _ rfl _ rfl with stalled | ⟨full, points, whole, listed, cited⟩ |
          ⟨part, hits, found, cited⟩
        · exact .inl stalled
        · rw [of_decide_eq_true full] at routed
          exact .inr (.inl ⟨points, whole, listed, (Except.ok.inj routed).symm, cited⟩)
        · refine .inr (.inr ⟨hits, found, ?_, cited⟩)
          unfold queryRouteToProto at routed
          split at routed
          · exact (Except.ok.inj routed).symm
          · rw [if_neg (of_decide_eq_false part)] at routed
            cases routed

end Handler

namespace Reading

variable {env : Env} {query : QueryDocumentsRequest} {reading next : Reading} {call : Call}
  {world : World} {points got : List Point}

/-- What a query says to the model: its prompt for the router, and then what it has read. -/
theorem Awaits.spoken {messages : List Message} {model : String}
    (awaits : Awaits env query reading (.complete messages model)) (live : reading ≠ .stalled) :
    messages = Prompts.buildRouterMessages query.prompt ∨
      messages = Prompts.buildFullDocAnswerMessages query.prompt query.shownHistory
        (assembleDocuments reading.chunks) ∨
      messages = Prompts.buildSectionAnswerMessages query.prompt query.shownHistory
        reading.chunks := by
  cases awaits with
  | route => exact .inl rfl
  | answerFullDoc => exact .inr (.inl rfl)
  | answerSection => exact .inr (.inr rfl)
  | stalledAnswer => exact absurd rfl live

theorem Concluded.cites {response : QueryDocumentsResponse}
    (concluded : Concluded reading (.ok response)) (live : reading ≠ .stalled) :
    Cites reading.chunks response.citations := by
  rcases concluded response rfl with stalled | ⟨points, whole, rfl, _, cited⟩ |
    ⟨hits, rfl, _, cited⟩
  · exact absurd stalled live
  · exact .inl cited
  · exact .inr cited

/-! What a query reads when a world answers. -/

theorem point_of_chunk {chunk : RetrievedChunk} (member : chunk ∈ reading.chunks) :
    ∃ point ∈ reading.points, ∃ score, chunk = point.retrieved score := by
  cases reading with
  | pages points offset | listed points whole =>
    obtain ⟨point, listed, rfl⟩ := List.mem_map.mp member
    exact ⟨point, listed, .finite 0, rfl⟩
  | found hits =>
    obtain ⟨hit, found, rfl⟩ := List.mem_map.mp member
    exact ⟨hit.1, List.mem_map.mpr ⟨hit, found, rfl⟩, hit.2, rfl⟩
  | nothing | stalled | failed => exact (List.not_mem_nil member).elim

theorem pageOf_eq (points : List Point) (limit : Nat) (cursor : Option String) :
    Collection.pageOf points limit cursor = pageAt Point.id points limit cursor := by
  cases cursor <;> rfl

/-- No page is empty that promises more. -/
theorem page_nonempty {more : List Point} {cursor : Option String} {offset : String} {limit : Nat}
    (paged : pageAt Point.id points limit cursor = (more, some offset)) (positive : 0 < limit) :
    more ≠ [] := by
  rintro rfl
  obtain ⟨first, rest, split, _⟩ := page_split paged rfl
  have taken : (fromCursor Point.id points cursor).take limit = [] := congrArg Prod.fst paged
  rw [List.nil_append] at split
  rw [split] at taken
  rcases List.take_eq_nil_iff.mp taken with zero | none
  · omega
  · cases none

theorem page_cases (got : List Point) {more : List Point} {next : Option String}
    (full : next.isSome → more ≠ []) :
    (next = none ∧ page got (more, next) = .listed (got ++ more) true) ∨
      (listingLimit ≤ (got ++ more).length ∧ page got (more, next) = .listed (got ++ more) false) ∨
      ∃ offset, next = some offset ∧ page got (more, next) = .pages (got ++ more) offset := by
  cases next with
  | none => exact .inl ⟨rfl, rfl⟩
  | some offset =>
    cases more with
    | nil => exact absurd rfl (full rfl)
    | cons first rest =>
      by_cases short : (got ++ first :: rest).length < listingLimit
      · exact .inr (.inr ⟨offset, rfl, if_pos short⟩)
      · exact .inr (.inl ⟨not_lt.mp short, if_neg short⟩)

/-- What an answered call can do to a reading. -/
inductive Learns (env : Env) (query : QueryDocumentsRequest) (world : World) :
    Reading → Reading → Prop where
  | fails {reading : Reading} : Learns env query world reading .failed
  | stays {reading : Reading} : Learns env query world reading reading
  | finds {points : List Point} {vector : List PyFloat} (sight : visible query world = some points) :
      Learns env query world .nothing (.found (env.rank vector points (query.hitLimit env)))
  | begins {points : List Point} {limit : Nat} (sight : visible query world = some points)
      (positive : 0 < limit) (within : limit ≤ listingLimit) :
      Learns env query world .nothing (page [] (pageAt Point.id points limit none))
  | turns {points got : List Point} {offset : String} {limit : Nat}
      (sight : visible query world = some points) (positive : 0 < limit)
      (within : got.length + limit ≤ listingLimit) :
      Learns env query world (.pages got offset)
        (page got (pageAt Point.id points limit (some offset)))

theorem learns_quiet (quiet : ∀ value, reading.moves call (.ok value) = reading)
    (reply : Except (Raised PyException) (Reply call)) :
    Learns env query world reading (reading.moves call reply) := by
  cases reply with
  | error raised => exact .fails
  | ok value =>
    rw [quiet]
    exact .stays

theorem learns_answered (awaits : Awaits env query reading call) (live : reading ≠ .stalled)
    (fault : Option (Fault PyException)) (world : World) :
    Learns env query world reading (reading.moves call (answer (perform env) fault call world).1) := by
  cases fault with
  | some fault => exact .fails
  | none =>
    rw [answer_none]
    cases awaits with
    | acquire | release => exact .stays
    | route | embed | answerFullDoc | answerSection | stalledAnswer =>
      exact learns_quiet (fun _ => rfl) _
    | search own =>
      subst own
      rw [perform_queryPoints]
      cases sight : visible query world with
      | none => exact .fails
      | some points => exact .finds sight
    | firstPage positive within =>
      rw [perform_scroll]
      cases sight : visible query world with
      | none => exact .fails
      | some points =>
        rw [Option.elim_some, pageOf_eq]
        exact .begins sight positive within
    | nextPage positive within =>
      rw [perform_scroll]
      cases sight : visible query world with
      | none => exact .fails
      | some points =>
        rw [Option.elim_some, pageOf_eq]
        exact .turns sight positive within
    | stalledScroll => exact absurd rfl live

theorem mem_visible {point : Point} (sight : visible query world = some points)
    (member : point ∈ points) :
    world.stock point.id = some point.record ∧
      point.record.payload.clientId = some query.clientId ∧
      ∃ corpusId ∈ query.corpusIds, point.record.payload.corpusId = some corpusId := by
  obtain ⟨collection, present, rfl⟩ := Option.map_eq_some_iff.mp sight
  obtain ⟨held, selected⟩ := (collection.mem_matching _ _).mp member
  rw [stock_of_some present]
  exact ⟨held, (satisfies_corporaFilter ..).mp selected⟩

theorem visible_of_stock {point : Point} (sight : visible query world = some points)
    (held : world.stock point.id = some point.record)
    (selected : point.record.payload.clientId = some query.clientId ∧
      ∃ corpusId ∈ query.corpusIds, point.record.payload.corpusId = some corpusId) :
    point ∈ points := by
  obtain ⟨collection, present, rfl⟩ := Option.map_eq_some_iff.mp sight
  rw [stock_of_some present] at held
  exact (collection.mem_matching _ _).mpr ⟨held, (satisfies_corporaFilter ..).mpr selected⟩

theorem visible_ascending (sight : visible query world = some points) :
    Ascending Point.id points := by
  obtain ⟨collection, _, rfl⟩ := Option.map_eq_some_iff.mp sight
  exact collection.matching_sorted _

theorem page_learned {cursor : Option String} {limit : Nat} (positive : 0 < limit)
    (sight : visible query world = some points) (got : List Point) :
    page got (pageAt Point.id points limit cursor) ≠ .stalled ∧
      ∀ point ∈ (page got (pageAt Point.id points limit cursor)).points,
        point ∈ got ∨ point ∈ points := by
  rcases paged : pageAt Point.id points limit cursor with ⟨more, next⟩
  have full : next.isSome → more ≠ [] := by
    intro promised
    obtain ⟨offset, rfl⟩ := Option.isSome_iff_exists.mp promised
    exact page_nonempty paged positive
  have added (point : Point) (member : point ∈ got ++ more) : point ∈ got ∨ point ∈ points :=
    (List.mem_append.mp member).imp_right fun new =>
      (mem_of_page (visible_ascending sight) paged new).1
  rcases page_cases got full with ⟨_, made⟩ | ⟨_, made⟩ | ⟨offset, _, made⟩ <;> rw [made] <;>
    exact ⟨by simp, added⟩

theorem Learns.live (learns : Learns env query world reading next) (live : reading ≠ .stalled) :
    next ≠ .stalled := by
  cases learns with
  | fails | finds => simp
  | stays => exact live
  | begins sight positive within | turns sight positive within =>
    exact (page_learned positive sight _).1

theorem Learns.read
    (ranked : ∀ vector points limit, ∀ hit ∈ env.rank vector points limit, hit.1 ∈ points)
    (learns : Learns env query world reading next) :
    ∀ point ∈ next.points, point ∈ reading.points ∨
      ∃ points, visible query world = some points ∧ point ∈ points := by
  cases learns with
  | fails => exact fun point member => (List.not_mem_nil member).elim
  | stays => exact fun point member => .inl member
  | finds sight =>
    refine fun point member => .inr ⟨_, sight, ?_⟩
    obtain ⟨hit, found, rfl⟩ := List.mem_map.mp member
    exact ranked _ _ _ hit found
  | begins sight positive within | turns sight positive within =>
    intro point member
    exact ((page_learned positive sight _).2 point member).imp_right fun new => ⟨_, sight, new⟩

end Reading

end DocContext
