import DocContext.VectorStores.Qdrant
import DocContext.Services.Converters
import DocContext.Services.Documents

/-! `QueryDocuments`: a router call picks the route, then the answer call reads
retrieved chunks or whole documents. -/

namespace DocContext

open Foundation

structure HistoryMessage where
  role : String
  content : String
deriving DecidableEq

structure QueryDocumentsRequest where
  clientId : String
  corpusIds : List String
  prompt : String
  historyWindow : Int
  topK : Int
  history : List HistoryMessage
deriving DecidableEq

structure Citation where
  documentId : String
  corpusId : String
  chunkIndex : Nat
  charStart : Nat
  charEnd : Nat
  score : PyFloat
deriving DecidableEq

structure QueryDocumentsResponse where
  answer : String
  usedRoute : Int
  citations : List Citation
  confidence : PyFloat
deriving DecidableEq

structure RouterDecision where
  route : String
  confidence : PyFloat
deriving DecidableEq

structure AnswerPayload where
  answer : String
  citations : List JsonValue

/-- Only ASCII letters can become those of the one role compared with. -/
def roleOf (role : String) : Role := if role.toLower = "assistant" then .assistant else .user

/-- The last `window` pairs of the history. -/
def trimHistory (history : List HistoryMessage) (window : Nat) : List Message :=
  if window = 0 || history.isEmpty then []
  else
    let keep := window * 2
    (history.drop (history.length - keep)).map fun message => ⟨roleOf message.role, message.content⟩

/-- `first < second`; no comparison with nan holds. -/
def PyFloat.less : PyFloat → PyFloat → Bool
  | .nan, _ | _, .nan => false
  | .inf negative, .inf negative' => negative && !negative'
  | .inf negative, .finite _ => negative
  | .finite _, .inf negative => !negative
  | .finite first, .finite second => first < second

/-- `max(0.0, min(1.0, confidence))`: both keep their first argument unless the
second is strictly better. -/
def clampConfidence (confidence : PyFloat) : PyFloat :=
  let upper := if confidence.less (.finite 1) then confidence else .finite 1
  if (PyFloat.finite 0).less upper then upper else .finite 0

/-- The integers from here on are rounded to infinity. -/
def floatOverflow : Nat := 2 ^ 1024 - 2 ^ 970

/-- `float(value)`. An integer is rounded to a double, which does not matter to
a value that is then clamped, and overflows at the rounding bound of infinity. -/
def floatOf (env : Env) : JsonValue → Except PyException PyFloat
  | .bool value => .ok (.finite (if value then 1 else 0))
  | .int value =>
    if value.natAbs < floatOverflow then .ok (.finite value)
    else .error ⟨.overflowError, "int too large to convert to float"⟩
  | .float value => .ok value
  | .str value =>
    match env.floatOfString value with
    | some float => .ok float
    | none =>
      .error ⟨.valueError, "could not convert string to float: " ++ env.repr (.str value)⟩
  | value =>
    .error ⟨.typeError,
      "float() argument must be a string or a real number, not '" ++ value.typeName ++ "'"⟩

def parseRouterDecision (env : Env) (raw : String) : Except PyException RouterDecision :=
  match env.loads raw with
  | .error error => if error.isValueError then .ok ⟨"SECTION", .finite 0⟩ else .error error
  | .ok obj => do
    -- upper-casing beyond ASCII cannot produce FULL_DOC, and all else is SECTION
    let named := (((← obj.get "route").map (JsonValue.pyStr env.repr)).getD "SECTION").toUpper
    let route := if named = "SECTION" || named = "FULL_DOC" then named else "SECTION"
    let stated := (← obj.get "confidence").getD (.float (.finite 0))
    let confidence ←
      match floatOf env stated with
      | .ok value => .ok value
      | .error error =>
        if error.type = .typeError || error.isValueError then .ok (.finite 0) else .error error
    return ⟨route, clampConfidence confidence⟩

def parseAnswerPayload (env : Env) (raw : String) : Except PyException AnswerPayload :=
  match env.loads raw with
  | .error error => if error.isValueError then .ok ⟨raw, []⟩ else .error error
  | .ok obj => do
    let answer := ((← obj.get "answer").map (JsonValue.pyStr env.repr)).getD ""
    let citations :=
      match ← obj.get "citations" with
      | some (.arr items) => items
      | _ => []
    return ⟨answer, citations⟩

/-- An `int32` field of a message is set. -/
def int32Field (value : Nat) : Except PyException Nat :=
  if value < 2 ^ 31 then .ok value
  else .error ⟨.valueError, "Value out of range: " ++ toString value⟩

/-- `pb.Citation`. -/
def Citation.message (citation : Citation) : Except PyException Citation := do
  let chunkIndex ← int32Field citation.chunkIndex
  let charStart ← int32Field citation.charStart
  let charEnd ← int32Field citation.charEnd
  return { citation with chunkIndex, charStart, charEnd }

def hitCitation (chunk : RetrievedChunk) : Citation :=
  ⟨chunk.documentId, chunk.corpusId, chunk.chunkIndex, chunk.charStart, chunk.charEnd, chunk.score⟩

def citationsForSection (hits : List RetrievedChunk) : Except PyException (List Citation) :=
  hits.mapM fun chunk => (hitCitation chunk).message

/-- The body of the loop of `_citations_for_full_doc`. -/
def widenCitation (chunk : RetrievedChunk) : Option Citation → Citation
  | none =>
    ⟨chunk.documentId, chunk.corpusId, chunk.chunkIndex, chunk.charStart, chunk.charEnd, .finite 0⟩
  | some span =>
    { span with
      charStart := min span.charStart chunk.charStart
      charEnd := max span.charEnd chunk.charEnd
      chunkIndex := min span.chunkIndex chunk.chunkIndex }

/-- What the loop of `_citations_for_full_doc` leaves. -/
def documentSpans (chunks : List RetrievedChunk) : List Citation :=
  (collect RetrievedChunk.documentId widenCitation chunks).map Prod.snd

/-- One citation per document, in the order of first chunks. -/
def citationsForFullDoc (chunks : List RetrievedChunk) : Except PyException (List Citation) :=
  (documentSpans chunks).mapM Citation.message

/-- The numbers of a citation fit the fields of the message. -/
structure Citation.Fits (citation : Citation) : Prop where
  chunkIndex : citation.chunkIndex < 2 ^ 31
  charStart : citation.charStart < 2 ^ 31
  charEnd : citation.charEnd < 2 ^ 31

theorem int32Field_eq_ok_iff {value set : Nat} :
    int32Field value = .ok set ↔ value < 2 ^ 31 ∧ set = value := by
  unfold int32Field
  split
  · rename_i fits
    rw [Except.ok.injEq, eq_comm]
    exact (and_iff_right fits).symm
  · rename_i large
    exact iff_of_false (fun clash => by cases clash) fun both => large both.1

theorem Citation.message_eq_ok_iff (citation made : Citation) :
    citation.message = .ok made ↔ citation.Fits ∧ made = citation := by
  unfold Citation.message
  constructor
  · intro checked
    obtain ⟨_, indexed, checked⟩ := bind_eq_ok_iff.mp checked
    obtain ⟨_, started, checked⟩ := bind_eq_ok_iff.mp checked
    obtain ⟨_, stopped, checked⟩ := bind_eq_ok_iff.mp checked
    obtain ⟨index, rfl⟩ := int32Field_eq_ok_iff.mp indexed
    obtain ⟨start, rfl⟩ := int32Field_eq_ok_iff.mp started
    obtain ⟨stop, rfl⟩ := int32Field_eq_ok_iff.mp stopped
    exact ⟨⟨index, start, stop⟩, (Except.ok.inj checked).symm⟩
  · rintro ⟨⟨index, start, stop⟩, rfl⟩
    rw [int32Field_eq_ok_iff.mpr ⟨index, rfl⟩, int32Field_eq_ok_iff.mpr ⟨start, rfl⟩,
      int32Field_eq_ok_iff.mpr ⟨stop, rfl⟩]
    rfl

theorem citationsForSection_eq_ok_iff {hits : List RetrievedChunk} {citations : List Citation} :
    citationsForSection hits = .ok citations ↔
      (∀ chunk ∈ hits, (hitCitation chunk).Fits) ∧ citations = hits.map hitCitation :=
  mapM_eq_ok_iff fun chunk => (hitCitation chunk).message_eq_ok_iff

theorem citationsForFullDoc_eq_ok_iff {chunks : List RetrievedChunk} {citations : List Citation} :
    citationsForFullDoc chunks = .ok citations ↔
      (∀ citation ∈ documentSpans chunks, citation.Fits) ∧ citations = documentSpans chunks := by
  rw [citationsForFullDoc, mapM_eq_ok_iff Citation.message_eq_ok_iff, List.map_id']

/-- A text field of a response message is set. -/
def textField (env : Env) (text : String) : Except PyException String :=
  if env.encodable text then .ok text else .error ⟨.valueError, "surrogates not allowed"⟩

/-- The rest of `handle`, behind the semaphore. -/
def respond (env : Env) (decision : RouterDecision) (answered : LLMResponse)
    (citations : List Citation) : Except PyException QueryDocumentsResponse := do
  let payload ← parseAnswerPayload env answered.content
  let usedRoute ← queryRouteToProto env.repr decision.route
  let answer ← textField env payload.answer
  return ⟨answer, usedRoute, citations, decision.confidence⟩

theorem textField_eq_ok_iff {env : Env} {text set : String} :
    textField env text = .ok set ↔ env.encodable text = true ∧ set = text := by
  unfold textField
  split
  · rename_i encodable
    rw [Except.ok.injEq, eq_comm]
    exact (and_iff_right encodable).symm
  · rename_i surrogate
    exact iff_of_false (fun clash => by cases clash) fun both => surrogate both.1

/-- A response is made when the answer can be read and sent. -/
theorem respond_eq_ok_iff {env : Env} {decision : RouterDecision} {answered : LLMResponse}
    {citations : List Citation} {response : QueryDocumentsResponse} :
    respond env decision answered citations = .ok response ↔
      ∃ payload usedRoute, parseAnswerPayload env answered.content = .ok payload ∧
        queryRouteToProto env.repr decision.route = .ok usedRoute ∧
        env.encodable payload.answer = true ∧
        response = ⟨payload.answer, usedRoute, citations, decision.confidence⟩ := by
  unfold respond
  constructor
  · intro made
    obtain ⟨payload, parsed, made⟩ := bind_eq_ok_iff.mp made
    obtain ⟨usedRoute, routed, made⟩ := bind_eq_ok_iff.mp made
    obtain ⟨answer, set, made⟩ := bind_eq_ok_iff.mp made
    obtain ⟨encodable, rfl⟩ := textField_eq_ok_iff.mp set
    exact ⟨payload, usedRoute, parsed, routed, encodable, (Except.ok.inj made).symm⟩
  · rintro ⟨payload, usedRoute, parsed, routed, encodable, rfl⟩
    have set : textField env payload.answer = .ok payload.answer :=
      textField_eq_ok_iff.mpr ⟨encodable, rfl⟩
    apply bind_eq_ok_iff.mpr
    refine ⟨payload, parsed, bind_eq_ok_iff.mpr ⟨usedRoute, routed, ?_⟩⟩
    exact bind_eq_ok_iff.mpr ⟨payload.answer, set, rfl⟩

/-- `Embedder.embed_one`. -/
def embedOne (text : Text) : Task (List PyFloat) := do
  match ← request (.embed [text]) with
  | vector :: _ => return vector
  | [] => Coroutine.throw ⟨.indexError, "list index out of range"⟩

/-- `async with semaphore: body`. -/
def withSemaphore (body : Task α) : Task α := do
  request .acquire
  body.tryFinally (request .release)

namespace QueryDocumentsHandler

def fullDocument (env : Env) (query : QueryDocumentsRequest) (history : List Message) :
    Task (LLMResponse × List Citation) := do
  let docs ← QdrantVectorStore.listChunksForCorpora query.clientId query.corpusIds
  let assembled := assembleDocuments docs
  let answer ← request (.complete
    (Prompts.buildFullDocAnswerMessages query.prompt history assembled) env.llmAnswerModel)
  let citations ← Coroutine.ofExcept (citationsForFullDoc docs)
  return (answer, citations)

def section' (env : Env) (query : QueryDocumentsRequest) (history : List Message) (topK : Nat) :
    Task (LLMResponse × List Citation) := do
  let queryVec ← embedOne query.prompt.toList
  let hits ← QdrantVectorStore.search queryVec query.clientId query.corpusIds topK
  let answer ← request (.complete
    (Prompts.buildSectionAnswerMessages query.prompt history hits) env.llmAnswerModel)
  let citations ← Coroutine.ofExcept (citationsForSection hits)
  return (answer, citations)

/-- What runs under the semaphore: the router call, then one of the routes. -/
def answer (env : Env) (query : QueryDocumentsRequest) (history : List Message) (topK : Nat) :
    Task (RouterDecision × LLMResponse × List Citation) := do
  let routed ← request (.complete (Prompts.buildRouterMessages query.prompt) env.llmRouterModel)
  let decision ← Coroutine.ofExcept (parseRouterDecision env routed.content)
  let (answered, citations) ←
    if decision.route = "FULL_DOC" then fullDocument env query history
    else section' env query history topK
  return (decision, answered, citations)

def handle (env : Env) (query : QueryDocumentsRequest) : Task QueryDocumentsResponse := do
  if query.clientId = "" then
    abort .invalidArgument "client_id is required"
  else if query.prompt = "" then
    abort .invalidArgument "prompt is required"
  else if query.corpusIds.isEmpty then
    abort .invalidArgument "corpus_ids must not be empty"
  else
    let topK := if query.topK > 0 then query.topK.toNat else env.queryTopKDefault
    let history := trimHistory query.history query.historyWindow.toNat
    let (decision, answered, citations) ← withSemaphore (answer env query history topK)
    Coroutine.ofExcept (respond env decision answered citations)

end QueryDocumentsHandler

end DocContext
