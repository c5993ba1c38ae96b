import DocContext.Services.Citations
import DocContext.Services.FullDocument

/-! What a query makes of the model's replies. A reply is a text of the model's own
making; the handler reads it as JSON and answers unless the reading raises. -/

namespace DocContext

open Foundation Coroutine

/-! Reading the replies. -/

/-- The router's reply is no JSON, or an object whose confidence is no integer beyond
every float. -/
def RouterReadable (env : Env) (raw : String) : Prop :=
  (∃ error, env.loads raw = .error error ∧ error.isValueError = true) ∨
    ∃ entries, env.loads raw = .ok (.obj entries) ∧
      ∀ value, entries.lookup "confidence" = some (.int value) → value.natAbs < floatOverflow

/-- The answer is no JSON, or an object; its text has no lone surrogate. -/
def AnswerReadable (env : Env) (raw : String) : Prop :=
  (∃ error, env.loads raw = .error error ∧ error.isValueError = true ∧
      env.encodable raw = true) ∨
    ∃ entries, env.loads raw = .ok (.obj entries) ∧
      env.encodable (((entries.lookup "answer").map (JsonValue.pyStr env.repr)).getD "") = true

/-- The reply is an object with a route that names FULL_DOC. -/
def NamesFullDoc (env : Env) (raw : String) : Prop :=
  ∃ entries route, env.loads raw = .ok (.obj entries) ∧ entries.lookup "route" = some route ∧
    (route.pyStr env.repr).toUpper = "FULL_DOC"

/-- The value is a float from 0 to 1. -/
def PyFloat.InUnit (confidence : PyFloat) : Prop :=
  ∃ value : Rat, confidence = .finite value ∧ 0 ≤ value ∧ value ≤ 1

theorem clampConfidence_finite (value : Rat) :
    clampConfidence (.finite value) =
      if value < 1 then if 0 < value then .finite value else .finite 0 else .finite 1 := by
  have positive : (PyFloat.finite 0).less (.finite 1) = true := by decide
  unfold clampConfidence
  by_cases below : value < 1
  · rw [if_pos below]
    simp only [PyFloat.less, below, decide_true, if_true, decide_eq_true_eq]
  · rw [if_neg below]
    simp only [PyFloat.less, below, decide_false, Bool.false_eq_true, if_false, zero_lt_one,
      decide_true, if_true]

theorem clampConfidence_inUnit (confidence : PyFloat) : (clampConfidence confidence).InUnit := by
  cases confidence with
  | nan => exact ⟨1, by decide, by decide, by decide⟩
  | inf negative =>
    cases negative with
    | false => exact ⟨1, by decide, by decide, by decide⟩
    | true => exact ⟨0, by decide, by decide, by decide⟩
  | finite value =>
    rw [clampConfidence_finite]
    split
    · split
      · rename_i below above
        exact ⟨value, rfl, le_of_lt above, le_of_lt below⟩
      · exact ⟨0, rfl, by decide, by decide⟩
    · exact ⟨1, rfl, by decide, by decide⟩

section Reading

variable {env : Env} {raw : String}

/-- The `try` statement around `float`. -/
def floatOrZero (env : Env) (value : JsonValue) : Except PyException PyFloat :=
  match floatOf env value with
  | .ok value => .ok value
  | .error error =>
    if error.type = .typeError || error.isValueError then .ok (.finite 0) else .error error

/-- `float` returns, or raises what the clause catches, or overflows. -/
theorem floatOrZero_returns_iff (value : JsonValue) :
    (∃ confidence, floatOrZero env value = .ok confidence) ↔
      ∀ number, value = .int number → number.natAbs < floatOverflow := by
  unfold floatOrZero
  cases value with
  | int number =>
    rw [floatOf]
    by_cases small : number.natAbs < floatOverflow
    · rw [if_pos small]
      refine iff_of_true ⟨_, rfl⟩ ?_
      intro other same
      cases same
      exact small
    · rw [if_neg small]
      refine iff_of_false ?_ fun fits => small (fits number rfl)
      rintro ⟨_, clash⟩
      cases clash
  | str text =>
    refine iff_of_true ?_ fun _ clash => by cases clash
    rw [floatOf]
    cases env.floatOfString text <;> exact ⟨_, rfl⟩
  | null | bool | float | arr | obj =>
    exact iff_of_true ⟨_, rfl⟩ fun _ clash => by cases clash

theorem parseRouterDecision_obj {entries : List (String × JsonValue)}
    (loaded : env.loads raw = .ok (.obj entries)) :
    parseRouterDecision env raw =
      floatOrZero env ((entries.lookup "confidence").getD (.float (.finite 0))) >>= fun confidence =>
        let named := (((entries.lookup "route").map (JsonValue.pyStr env.repr)).getD "SECTION").toUpper
        .ok ⟨if named = "SECTION" || named = "FULL_DOC" then named else "SECTION",
          clampConfidence confidence⟩ := by
  unfold parseRouterDecision floatOrZero
  rw [loaded]
  simp only [JsonValue.get, Bind.bind, Except.bind]
  cases floatOf env ((entries.lookup "confidence").getD (.float (.finite 0))) with
  | ok value => rfl
  | error error =>
    dsimp only
    split <;> rfl

/-- A decision is one of two routes with a confidence in the unit interval; it is FULL_DOC
when that was named. -/
structure RouterDecision.Sound (env : Env) (raw : String) (decision : RouterDecision) : Prop where
  route : decision.route = "SECTION" ∨ decision.route = "FULL_DOC"
  confidence : decision.confidence.InUnit
  named : decision.route = "FULL_DOC" ↔ NamesFullDoc env raw

theorem zero_inUnit : (PyFloat.finite 0).InUnit := ⟨0, rfl, by decide, by decide⟩

theorem parseRouterDecision_sound {decision : RouterDecision}
    (parsed : parseRouterDecision env raw = .ok decision) : decision.Sound env raw := by
  cases loaded : env.loads raw with
  | error error =>
    unfold parseRouterDecision at parsed
    rw [loaded] at parsed
    dsimp only at parsed
    split at parsed
    · cases parsed
      refine ⟨.inl rfl, zero_inUnit, iff_of_false (by decide) ?_⟩
      rintro ⟨entries, route, clash, _⟩
      cases loaded.symm.trans clash
    · cases parsed
  | ok value =>
    cases value with
    | obj entries =>
      rw [parseRouterDecision_obj loaded] at parsed
      obtain ⟨confidence, _, made⟩ := bind_eq_ok_iff.mp parsed
      cases made
      constructor
      case confidence => exact clampConfidence_inUnit confidence
      case route =>
        dsimp only
        split
        · rename_i known
          simpa using known
        · exact .inl rfl
      case named =>
        dsimp only
        constructor
        · intro full
          split at full
          · cases stated : entries.lookup "route" with
            | none =>
              rw [stated] at full
              change "SECTION".toUpper = "FULL_DOC" at full
              exact absurd full (by decide +kernel)
            | some route =>
              rw [stated] at full
              exact ⟨entries, route, loaded, stated, full⟩
          · exact absurd full (by decide)
        · rintro ⟨_, route, same, stated, full⟩
          cases loaded.symm.trans same
          simp only [stated, Option.map_some, Option.getD_some, full, decide_true, Bool.or_true,
            if_true]
    | null | bool | int | float | str | arr =>
      unfold parseRouterDecision at parsed
      rw [loaded] at parsed
      cases parsed

theorem routerReadable_obj {entries : List (String × JsonValue)}
    (loaded : env.loads raw = .ok (.obj entries)) :
    RouterReadable env raw ↔ ∀ number, entries.lookup "confidence" = some (.int number) →
      number.natAbs < floatOverflow := by
  unfold RouterReadable
  rw [loaded]
  constructor
  · rintro (⟨_, clash, _⟩ | ⟨_, same, fits⟩)
    · cases clash
    · cases same
      exact fits
  · exact fun fits => .inr ⟨entries, rfl, fits⟩

/-- The router parser returns exactly on the replies it can read. -/
theorem parseRouterDecision_returns_iff :
    (∃ decision, parseRouterDecision env raw = .ok decision) ↔ RouterReadable env raw := by
  cases loaded : env.loads raw with
  | error error =>
    unfold parseRouterDecision RouterReadable
    rw [loaded]
    dsimp only
    split
    · rename_i caught
      exact iff_of_true ⟨_, rfl⟩ (.inl ⟨error, rfl, caught⟩)
    · rename_i raised
      refine iff_of_false (fun ⟨_, clash⟩ => by cases clash) ?_
      rintro (⟨_, ⟨⟩, caught⟩ | ⟨_, ⟨⟩, _⟩)
      exact raised caught
  | ok value =>
    cases value with
    | obj entries =>
      have stated : (∃ confidence, floatOrZero env
          ((entries.lookup "confidence").getD (.float (.finite 0))) = .ok confidence) ↔
          RouterReadable env raw := by
        rw [floatOrZero_returns_iff, routerReadable_obj loaded]
        cases entries.lookup "confidence" with
        | none => exact iff_of_true (fun _ clash => by cases clash) fun _ clash => by cases clash
        | some value => simp
      rw [parseRouterDecision_obj loaded, ← stated]
      constructor
      · rintro ⟨decision, parsed⟩
        obtain ⟨confidence, read, _⟩ := bind_eq_ok_iff.mp parsed
        exact ⟨confidence, read⟩
      · rintro ⟨confidence, read⟩
        exact ⟨_, bind_eq_ok_iff.mpr ⟨confidence, read, rfl⟩⟩
    | null | bool | int | float | str | arr =>
      unfold parseRouterDecision RouterReadable
      rw [loaded]
      refine iff_of_false (fun ⟨_, clash⟩ => by cases clash) ?_
      rintro (⟨_, ⟨⟩, _⟩ | ⟨_, ⟨⟩, _⟩)

/-- The answer parser returns a text that can be sent exactly on the replies it can
read. -/
theorem parseAnswerPayload_returns_iff :
    (∃ payload, parseAnswerPayload env raw = .ok payload ∧ env.encodable payload.answer = true) ↔
      AnswerReadable env raw := by
  unfold parseAnswerPayload AnswerReadable
  cases loaded : env.loads raw with
  | error error =>
    dsimp only
    split
    · rename_i caught
      constructor
      · rintro ⟨_, ⟨⟩, encodable⟩
        exact .inl ⟨error, rfl, caught, encodable⟩
      · rintro (⟨_, _, _, encodable⟩ | ⟨_, ⟨⟩, _⟩)
        exact ⟨_, rfl, encodable⟩
    · rename_i raised
      refine iff_of_false (fun ⟨_, clash, _⟩ => by cases clash) ?_
      rintro (⟨_, ⟨⟩, caught, _⟩ | ⟨_, ⟨⟩, _⟩)
      exact raised caught
  | ok value =>
    cases value with
    | obj entries =>
      constructor
      · rintro ⟨_, ⟨⟩, encodable⟩
        exact .inr ⟨entries, rfl, encodable⟩
      · rintro (⟨_, ⟨⟩, _⟩ | ⟨_, ⟨⟩, encodable⟩)
        exact ⟨_, rfl, encodable⟩
    | null | bool | int | float | str | arr =>
      refine iff_of_false (fun ⟨_, clash, _⟩ => by cases clash) ?_
      rintro (⟨_, ⟨⟩, _⟩ | ⟨_, ⟨⟩, _⟩)

theorem RouterDecision.Sound.number {decision : RouterDecision} {raw : String}
    (sound : decision.Sound env raw) :
    ∃ usedRoute, queryRouteToProto env.repr decision.route = .ok usedRoute ∧
      (usedRoute = 1 ∨ usedRoute = 2) ∧ (¬ NamesFullDoc env raw → usedRoute = 1) := by
  unfold queryRouteToProto
  rcases sound.route with section' | full
  · exact ⟨1, if_pos section', .inl rfl, fun _ => rfl⟩
  · rw [full, if_neg (by decide), if_pos rfl]
    exact ⟨2, rfl, .inr rfl, fun unnamed => absurd (sound.named.mp full) unnamed⟩

/-- The response of a query with these replies. -/
def responseOf (env : Env) (router : String) (reply : LLMResponse)
    (citations : RouterDecision → Except PyException (List Citation)) :
    Except PyException QueryDocumentsResponse :=
  parseRouterDecision env router >>= fun decision =>
    citations decision >>= fun cited => respond env decision reply cited

section Response

variable {reply : LLMResponse} {citations : RouterDecision → Except PyException (List Citation)}

/-- There is a response when both replies can be read, the answer sent and the citations
made. -/
theorem responseOf_returns_iff :
    (∃ response, responseOf env raw reply citations = .ok response) ↔
      (RouterReadable env raw ∧ AnswerReadable env reply.content) ∧
        ∀ decision, parseRouterDecision env raw = .ok decision →
          ∃ cited, citations decision = .ok cited := by
  rw [← parseRouterDecision_returns_iff, ← parseAnswerPayload_returns_iff]
  constructor
  · rintro ⟨response, made⟩
    obtain ⟨decision, parsed, made⟩ := bind_eq_ok_iff.mp made
    obtain ⟨cited, listed, responded⟩ := bind_eq_ok_iff.mp made
    obtain ⟨payload, _, read, _, encodable, _⟩ := respond_eq_ok_iff.mp responded
    refine ⟨⟨⟨decision, parsed⟩, payload, read, encodable⟩, fun other same => ?_⟩
    cases parsed.symm.trans same
    exact ⟨cited, listed⟩
  · rintro ⟨⟨⟨decision, parsed⟩, payload, read, encodable⟩, cites⟩
    obtain ⟨usedRoute, routed, _⟩ := (parseRouterDecision_sound parsed).number
    obtain ⟨cited, listed⟩ := cites decision parsed
    refine ⟨⟨payload.answer, usedRoute, cited, decision.confidence⟩, ?_⟩
    refine bind_eq_ok_iff.mpr ⟨decision, parsed, bind_eq_ok_iff.mpr ⟨cited, listed, ?_⟩⟩
    exact respond_eq_ok_iff.mpr ⟨payload, usedRoute, read, routed, encodable, rfl⟩

/-- A response names one of the two routes, FULL_DOC only when the router named it,
with a confidence in the unit interval; its citations are those of the decision. -/
theorem responseOf_sound {response : QueryDocumentsResponse}
    (made : responseOf env raw reply citations = .ok response) :
    (response.usedRoute = 1 ∨ response.usedRoute = 2) ∧ response.confidence.InUnit ∧
      (¬ NamesFullDoc env raw → response.usedRoute = 1) ∧
      ∃ decision, citations decision = .ok response.citations := by
  obtain ⟨decision, parsed, made⟩ := bind_eq_ok_iff.mp made
  obtain ⟨cited, listed, responded⟩ := bind_eq_ok_iff.mp made
  obtain ⟨payload, number, _, numbered, _, rfl⟩ := respond_eq_ok_iff.mp responded
  have sound := parseRouterDecision_sound parsed
  obtain ⟨usedRoute, routed, known, named⟩ := sound.number
  cases numbered.symm.trans routed
  exact ⟨known, sound.confidence, named, decision, listed⟩

end Response

end Reading

/-! A query whose calls are answered. -/

/-- The embedder and the model answer: the model with one reply to the router's
question, and with another to whatever is asked of it next. -/
structure Replies (env : Env) (query : QueryDocumentsRequest) (router answer : LLMResponse) :
    Prop where
  embedded : ∃ vector rest, env.embed [query.prompt.toList] = .ok (vector :: rest)
  routed : env.complete (Prompts.buildRouterMessages query.prompt) env.llmRouterModel = .ok router
  answered : ∀ messages, messages ≠ Prompts.buildRouterMessages query.prompt →
    env.complete messages env.llmAnswerModel = .ok answer

section Answering

variable {env : Env} {query : QueryDocumentsRequest} {router reply : LLMResponse} {world : World}

theorem fullDocMessages_ne (history : List Message) (documents : List (String × Text)) :
    Prompts.buildFullDocAnswerMessages query.prompt history documents ≠
      Prompts.buildRouterMessages query.prompt := by
  intro same
  have lengths := congrArg List.length same
  simp only [Prompts.buildFullDocAnswerMessages, Prompts.buildRouterMessages, List.length_append,
    List.length_cons, List.length_nil] at lengths
  omega

theorem sectionMessages_ne (history : List Message) (chunks : List RetrievedChunk) :
    Prompts.buildSectionAnswerMessages query.prompt history chunks ≠
      Prompts.buildRouterMessages query.prompt := by
  intro same
  have lengths := congrArg List.length same
  simp only [Prompts.buildSectionAnswerMessages, Prompts.buildRouterMessages, List.length_append,
    List.length_cons, List.length_nil] at lengths
  omega

def listedChunks (points : List Point) : List RetrievedChunk :=
  points.map fun point => point.retrieved (.finite 0)

def foundChunks (hits : List (Point × PyFloat)) : List RetrievedChunk :=
  hits.map fun hit => hit.1.retrieved hit.2

/-- The number of hits a query asks for. -/
def QueryDocumentsRequest.hitLimit (env : Env) (query : QueryDocumentsRequest) : Nat :=
  if query.topK > 0 then query.topK.toNat else env.queryTopKDefault

/-- What a query that sees these points cites. -/
def citationsOf (env : Env) (vector : List PyFloat) (topK : Nat) (points : List Point)
    (decision : RouterDecision) : Except PyException (List Citation) :=
  if decision.route = "FULL_DOC" then citationsForFullDoc (listedChunks (points.take 10000))
  else citationsForSection (foundChunks (env.rank vector points topK))

theorem exec_asked (replies : Replies env query router reply) {messages : List Message}
    (other : messages ≠ Prompts.buildRouterMessages query.prompt) (world : World) :
    (request (.complete messages env.llmAnswerModel)).exec (perform env) world = (.ok reply, world) := by
  rw [exec_request, perform, computed, replies.answered messages other]
  rfl

theorem fullDocument_replied (replies : Replies env query router reply)
    (nonempty : query.corpusIds ≠ []) {points : List Point} (sight : visible query world = some points)
    (history : List Message) :
    ((QueryDocumentsHandler.fullDocument env query history).exec (perform env) world).1 =
      ((citationsForFullDoc (listedChunks (points.take 10000))).mapError .exception).map
        (Prod.mk reply) := by
  have answers (limit : Nat) (offset : Option String) := @perform_scroll env query world limit offset
  rw [sight] at answers
  have ordered : InOrder points := by
    obtain ⟨collection, _, rfl⟩ := Option.map_eq_some_iff.mp sight
    exact collection.matching_sorted _
  unfold QueryDocumentsHandler.fullDocument
  rw [bind_eq, exec_bind, exec_listChunksForCorpora nonempty ordered answers, continueWith_ok,
    bind_eq, exec_bind, exec_asked replies (fullDocMessages_ne _ _), continueWith_ok, bind_eq,
    exec_bind, exec_ofExcept]
  change (continueWith _ _
    ((citationsForFullDoc (listedChunks (points.take 10000))).mapError _, _)).1 = _
  cases citationsForFullDoc (listedChunks (points.take 10000)) <;> rfl

theorem exec_embedOne {text : Text} {vector : List PyFloat} {rest : List (List PyFloat)}
    (embedded : env.embed [text] = .ok (vector :: rest)) (world : World) :
    (embedOne text).exec (perform env) world = (.ok vector, world) := by
  unfold embedOne
  rw [bind_eq, exec_bind, exec_request, perform, computed, embedded]
  rfl

theorem section_replied (replies : Replies env query router reply)
    (nonempty : query.corpusIds ≠ []) {points : List Point} (sight : visible query world = some points)
    {vector : List PyFloat} {rest : List (List PyFloat)}
    (embedded : env.embed [query.prompt.toList] = .ok (vector :: rest)) (history : List Message)
    (topK : Nat) :
    ((QueryDocumentsHandler.section' env query history topK).exec (perform env) world).1 =
      ((citationsForSection (foundChunks (env.rank vector points topK))).mapError .exception).map
        (Prod.mk reply) := by
  have hits := @perform_queryPoints env query world vector topK
  rw [sight] at hits
  unfold QueryDocumentsHandler.section' QdrantVectorStore.search
  rw [searchFilter_eq query.clientId nonempty, bind_eq, exec_bind, exec_embedOne embedded,
    continueWith_ok, bind_eq, exec_bind, bind_eq, exec_bind, exec_request, hits]
  simp only [Option.elim_some, continueWith_ok, pure_eq, exec_ret, bind_eq]
  rw [exec_bind, exec_asked replies (sectionMessages_ne _ _), continueWith_ok, exec_bind,
    exec_ofExcept]
  change (continueWith _ _
    ((citationsForSection (foundChunks (env.rank vector points topK))).mapError _, _)).1 = _
  cases citationsForSection (foundChunks (env.rank vector points topK)) <;> rfl

/-- What comes of the two routes comes of the query, once the router's reply is
read. -/
theorem exec_answer (replies : Replies env query router reply) (history : List Message) (topK : Nat)
    {outcome : RouterDecision → Except (Raised PyException) (LLMResponse × List Citation)}
    (full : ∀ decision, decision.route = "FULL_DOC" →
      ((QueryDocumentsHandler.fullDocument env query history).exec (perform env) world).1 =
        outcome decision)
    (part : ∀ decision, decision.route ≠ "FULL_DOC" →
      ((QueryDocumentsHandler.section' env query history topK).exec (perform env) world).1 =
        outcome decision) :
    ((QueryDocumentsHandler.answer env query history topK).exec (perform env) world).1 =
      (parseRouterDecision env router.content).mapError .exception >>= fun decision =>
        (outcome decision).map (Prod.mk decision) := by
  have routed : (request (.complete (Prompts.buildRouterMessages query.prompt)
      env.llmRouterModel)).exec (perform env) world = (.ok router, world) := by
    rw [exec_request, perform, computed, replies.routed]
    rfl
  unfold QueryDocumentsHandler.answer
  rw [bind_eq, exec_bind, routed, continueWith_ok, bind_eq, exec_bind, exec_ofExcept]
  cases parseRouterDecision env router.content with
  | error error => rfl
  | ok decision =>
    simp only [Except.mapError, continueWith_ok]
    by_cases route : decision.route = "FULL_DOC"
    · have answered := full decision route
      rw [if_pos route, bind_eq, exec_bind]
      change _ = (outcome decision).map (Prod.mk decision)
      rw [← answered]
      rcases (QueryDocumentsHandler.fullDocument env query history).exec (perform env) world
        with ⟨raised | value, after⟩ <;> rfl
    · have answered := part decision route
      rw [if_neg route, bind_eq, exec_bind]
      change _ = (outcome decision).map (Prod.mk decision)
      rw [← answered]
      rcases (QueryDocumentsHandler.section' env query history topK).exec (perform env) world
        with ⟨raised | value, after⟩ <;> rfl

theorem exec_withSemaphore (env : Env) (body : Task α) (world : World) :
    ((withSemaphore body).exec (perform env) world).1 =
      (body.exec (perform env) { world with permits := world.permits - 1 }).1 := by
  unfold withSemaphore
  rw [bind_eq, exec_bind, exec_request, perform, continueWith_ok, exec_tryFinally]
  rcases body.exec (perform env) { world with permits := world.permits - 1 } with
    ⟨raised | value, after⟩ <;> rfl

/-- A valid query responds with the answer it made under the semaphore. -/
theorem exec_handle (env : Env)
    (valid : query.clientId ≠ "" ∧ query.prompt ≠ "" ∧ query.corpusIds ≠ []) (world : World) :
    ((QueryDocumentsHandler.handle env query).exec (perform env) world).1 =
      ((QueryDocumentsHandler.answer env query
          (trimHistory query.history query.historyWindow.toNat)
          (if query.topK > 0 then query.topK.toNat else env.queryTopKDefault)).exec (perform env)
        { world with permits := world.permits - 1 }).1 >>= fun answered =>
          (respond env answered.1 answered.2.1 answered.2.2).mapError .exception := by
  unfold QueryDocumentsHandler.handle
  rw [if_neg valid.1, if_neg valid.2.1, if_neg (by simpa using valid.2.2), bind_eq, exec_bind,
    ← exec_withSemaphore]
  rcases (withSemaphore (QueryDocumentsHandler.answer ..)).exec (perform env) world
    with ⟨raised | answered, after⟩
  · rfl
  · exact congrArg Prod.fst (exec_ofExcept _ _ _)

/-- A valid query comes to what its two replies are read as. -/
theorem handle_replied
    (valid : query.clientId ≠ "" ∧ query.prompt ≠ "" ∧ query.corpusIds ≠ [])
    (replies : Replies env query router reply) {points : List Point}
    (sight : visible query world = some points) {vector : List PyFloat}
    {rest : List (List PyFloat)}
    (embedded : env.embed [query.prompt.toList] = .ok (vector :: rest)) :
    ((QueryDocumentsHandler.handle env query).exec (perform env) world).1 =
      (responseOf env router.content reply
        (citationsOf env vector (query.hitLimit env) points)).mapError .exception := by
  have below : visible query { world with permits := world.permits - 1 } = some points := sight
  let history := trimHistory query.history query.historyWindow.toNat
  let topK := query.hitLimit env
  have full (decision : RouterDecision) (route : decision.route = "FULL_DOC") :
      ((QueryDocumentsHandler.fullDocument env query history).exec (perform env)
        { world with permits := world.permits - 1 }).1 =
        ((citationsOf env vector topK points decision).mapError .exception).map (Prod.mk reply) := by
    rw [fullDocument_replied replies valid.2.2 below, citationsOf, if_pos route]
  have part (decision : RouterDecision) (route : decision.route ≠ "FULL_DOC") :
      ((QueryDocumentsHandler.section' env query history topK).exec (perform env)
        { world with permits := world.permits - 1 }).1 =
        ((citationsOf env vector topK points decision).mapError .exception).map (Prod.mk reply) := by
    rw [section_replied replies valid.2.2 below embedded, citationsOf, if_neg route]
  have answered := exec_answer replies history topK full part
  change (QueryDocumentsHandler.answer env query history topK |>.exec (perform env) _).1 = _ at answered
  rw [exec_handle env valid]
  change (QueryDocumentsHandler.answer env query history topK |>.exec (perform env) _).1 >>= _ = _
  rw [answered]
  unfold responseOf
  cases parseRouterDecision env router.content with
  | error error => rfl
  | ok decision =>
    change (((citationsOf env vector topK points decision).mapError _).map _).map _ >>= _ =
      (citationsOf env vector topK points decision >>= _).mapError _
    cases citationsOf env vector topK points decision <;> rfl

end Answering

/-- The query is answered on one of the two routes, FULL_DOC only when the router
named it, with a confidence in the unit interval. -/
def Answered (env : Env) (query : QueryDocumentsRequest) (router : LLMResponse) (world : World) :
    Prop :=
  ∃ response, ((QueryDocumentsHandler.handle env query).exec (perform env) world).1 = .ok response ∧
    (response.usedRoute = 1 ∨ response.usedRoute = 2) ∧ response.confidence.InUnit ∧
    (¬ NamesFullDoc env router.content → response.usedRoute = 1)

/-- What the query is to cite fits the fields of citations: each hit on the one route, on
the other the spans of the documents of the first 10000 chunks. -/
def Citable (env : Env) (query : QueryDocumentsRequest) (router : LLMResponse) (world : World) :
    Prop :=
  ∀ points, visible query world = some points →
    (NamesFullDoc env router.content → SpansFit (listedChunks (points.take 10000))) ∧
      (¬ NamesFullDoc env router.content → ∀ vector rest,
        env.embed [query.prompt.toList] = .ok (vector :: rest) →
          HitsFit (foundChunks (env.rank vector points (query.hitLimit env))))

theorem citationsOf_returns_iff {env : Env} {vector : List PyFloat} {topK : Nat}
    {points : List Point} {decision : RouterDecision} :
    (∃ cited, citationsOf env vector topK points decision = .ok cited) ↔
      (decision.route = "FULL_DOC" → SpansFit (listedChunks (points.take 10000))) ∧
        (decision.route ≠ "FULL_DOC" → HitsFit (foundChunks (env.rank vector points topK))) := by
  unfold citationsOf
  by_cases route : decision.route = "FULL_DOC"
  · rw [if_pos route, citationsForFullDoc_returns_iff]
    exact ⟨fun fit => ⟨fun _ => fit, fun other => absurd route other⟩, fun both => both.1 route⟩
  · rw [if_neg route, citationsForSection_returns_iff]
    exact ⟨fun fit => ⟨fun full => absurd full route, fun _ => fit⟩, fun both => both.2 route⟩

/-- A valid query over an existing collection is answered exactly when both replies
can be read, the answer sent and the citations made. -/
theorem query_answered_iff (env : Env) (query : QueryDocumentsRequest)
    (valid : query.clientId ≠ "" ∧ query.prompt ≠ "" ∧ query.corpusIds ≠ [])
    (router reply : LLMResponse) (replies : Replies env query router reply) (world : World)
    (present : world.collection.isSome) :
    Answered env query router world ↔
      (RouterReadable env router.content ∧ AnswerReadable env reply.content) ∧
        Citable env query router world := by
  obtain ⟨collection, found⟩ := Option.isSome_iff_exists.mp present
  have sight : visible query world =
      some (collection.matching (corporaFilter query.clientId query.corpusIds)) := by
    rw [visible, found, Option.map_some]
  obtain ⟨vector, rest, embedded⟩ := replies.embedded
  rw [Answered, handle_replied valid replies sight embedded]
  constructor
  · rintro ⟨response, made, _⟩
    obtain ⟨readable, cites⟩ := responseOf_returns_iff.mp ⟨response, mapError_eq_ok_iff.mp made⟩
    refine ⟨readable, fun points sight' => ?_⟩
    cases sight.symm.trans sight'
    obtain ⟨decision, parsed⟩ := parseRouterDecision_returns_iff.mpr readable.1
    have named := (parseRouterDecision_sound parsed).named
    obtain ⟨full, part⟩ := citationsOf_returns_iff.mp (cites decision parsed)
    refine ⟨fun names => full (named.mpr names), fun unnamed vector' rest' embedded' => ?_⟩
    cases embedded.symm.trans embedded'
    exact part fun route => unnamed (named.mp route)
  · rintro ⟨readable, citable⟩
    obtain ⟨full, part⟩ := citable _ sight
    have cites (decision : RouterDecision)
        (parsed : parseRouterDecision env router.content = .ok decision) := by
      have named := (parseRouterDecision_sound parsed).named
      exact citationsOf_returns_iff.mpr ⟨fun route => full (named.mp route),
        fun route => part (fun names => route (named.mpr names)) vector rest embedded⟩
    obtain ⟨response, made⟩ := responseOf_returns_iff.mpr ⟨readable, cites⟩
    obtain ⟨known, confidence, named, _⟩ := responseOf_sound made
    exact ⟨response, mapError_eq_ok_iff.mpr made, known, confidence, named⟩

/-- A model that replies with one JSON value, whatever it is asked. -/
private def replyingEnv (value : JsonValue) : Env :=
  { Sample.env with
    loads := fun _ => .ok value
    complete := fun _ _ => .ok ⟨"reply", "", ⟨0, 0, 0⟩⟩ }

private def helloQuery : QueryDocumentsRequest := ⟨"a", ["corpus"], "Hello?", 0, 0, []⟩

private theorem replyingEnv_replies (value : JsonValue) :
    Replies (replyingEnv value) helloQuery ⟨"reply", "", ⟨0, 0, 0⟩⟩ ⟨"reply", "", ⟨0, 0, 0⟩⟩ where
  embedded := ⟨_, _, rfl⟩
  routed := rfl
  answered _ _ := rfl

/-- A store with the one chunk of a document. -/
private def hiWorld : World :=
  processAll Sample.env (Sample.world (some (.empty 1)))
    [Sample.delivery (Sample.indexJob "1" "a" "d" "hi")]

private def helloReply : JsonValue := .obj [("route", .str "FULL_DOC"), ("answer", .str "Hello.")]

/-- The query is answered from the whole document. -/
theorem query_answered_sample :
    Answered (replyingEnv helloReply) helloQuery ⟨"reply", "", ⟨0, 0, 0⟩⟩ hiWorld := by
  have answered := query_answered_iff (replyingEnv helloReply) helloQuery (by decide) _ _
    (replyingEnv_replies helloReply) hiWorld rfl
  refine answered.mpr ⟨⟨.inr ⟨_, rfl, fun _ clash => by cases clash⟩, .inr ⟨_, rfl, rfl⟩⟩, ?_⟩
  intro points sight
  obtain ⟨chunk, listed, index, start, stop⟩ : ∃ chunk,
      (visible helloQuery hiWorld).map (fun points => listedChunks (points.take 10000)) =
        some [chunk] ∧ chunk.chunkIndex = 0 ∧ chunk.charStart = 0 ∧ chunk.charEnd = 2 :=
    ⟨_, rfl, rfl, rfl, rfl⟩
  rw [sight] at listed
  have named : NamesFullDoc (replyingEnv helloReply) "reply" := ⟨_, _, rfl, rfl, by decide +kernel⟩
  refine ⟨fun _ => ?_, fun unnamed => absurd named unnamed⟩
  have only : listedChunks (points.take 10000) = [chunk] := Option.some.inj listed
  rw [only]
  simp [SpansFit, index, start, stop]

/-- The router's empty array has no `get`. -/
theorem query_unanswered :
    ¬ ∀ (env : Env) (query : QueryDocumentsRequest) (router reply : LLMResponse) (world : World),
      query.clientId ≠ "" ∧ query.prompt ≠ "" ∧ query.corpusIds ≠ [] →
      Replies env query router reply → world.collection.isSome → Answered env query router world := by
  intro claimed
  obtain ⟨response, made, _⟩ := claimed (replyingEnv (.arr [])) helloQuery _ _
    (Sample.world (some (.empty 1))) (by decide) (replyingEnv_replies _) rfl
  have raised : ((QueryDocumentsHandler.handle (replyingEnv (.arr [])) helloQuery).exec
      (perform (replyingEnv (.arr []))) (Sample.world (some (.empty 1)))).1 =
      .error (.exception ⟨.attributeError, "'list' object has no attribute 'get'"⟩) := rfl
  rw [raised] at made
  cases made

end DocContext
