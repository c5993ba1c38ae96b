import DocContext.Services.FullDocument

/-! The history in the answer prompt. The window counts pairs and the code slices
messages: the two part where a dangling user turn shifts the slice by one. -/

namespace DocContext

open Foundation Coroutine

/-- The message as it is passed on. -/
def HistoryMessage.message (message : HistoryMessage) : Message :=
  ⟨roleOf message.role, message.content⟩

/-- The history a query passes to its answer prompt. -/
def QueryDocumentsRequest.promptHistory (query : QueryDocumentsRequest) : List Message :=
  trimHistory query.history query.historyWindow.toNat

/-- User and assistant take turns, the user first; a last user turn may be left
without its answer. -/
def Alternating : List HistoryMessage → Prop
  | [] => True
  | [question] => roleOf question.role = .user
  | question :: answer :: rest =>
    roleOf question.role = .user ∧ roleOf answer.role = .assistant ∧ Alternating rest

/-- The complete pairs of a history. -/
def completePairs : List HistoryMessage → List (HistoryMessage × HistoryMessage)
  | question :: answer :: rest => (question, answer) :: completePairs rest
  | _ => []

/-- The turn without an answer. -/
def danglingTurn : List HistoryMessage → Option HistoryMessage
  | [] => none
  | [question] => some question
  | _ :: _ :: rest => danglingTurn rest

/-- Pairs and what follows them as one history. -/
def unpair (pairs : List (HistoryMessage × HistoryMessage)) (dangling : Option HistoryMessage) :
    List HistoryMessage :=
  (pairs.flatMap fun pair => [pair.1, pair.2]) ++ dangling.toList

/-- The last pairs of a history, as many as the window counts or as there are, and
its dangling turn. -/
def lastPairs (window : Nat) (history : List HistoryMessage) : List HistoryMessage :=
  let pairs := completePairs history
  unpair (pairs.drop (pairs.length - min window pairs.length)) (danglingTurn history)

/-! What is passed on, by every route and whatever the calls of the query reply. -/

/-- The call is no prompt, or the router's, or an answer prompt with the history. -/
def Asks (query : QueryDocumentsRequest) (history : List Message) : Call → Prop
  | .complete messages _ =>
    messages = Prompts.buildRouterMessages query.prompt ∨
      (∃ documents, messages =
        Prompts.buildFullDocAnswerMessages query.prompt history documents) ∨
      ∃ chunks, messages = Prompts.buildSectionAnswerMessages query.prompt history chunks
  | _ => True

section Asks

variable {env : Env} {query : QueryDocumentsRequest} {history : List Message}

theorem fullDocument_asks :
    Calls (Asks query history) (QueryDocumentsHandler.fullDocument env query history) := by
  unfold QueryDocumentsHandler.fullDocument
  apply Calls.bind
  · apply Follows.calls listChunksForCorpora_lists
    rintro _ _ ⟨filter, limit, offset, rfl⟩
    trivial
  · intro docs
    apply Calls.bind (calls_request (.inr (.inl ⟨_, rfl⟩)))
    intro answer
    cases citationsForFullDoc docs <;> trivial

theorem section_asks {topK : Nat} :
    Calls (Asks query history) (QueryDocumentsHandler.section' env query history topK) := by
  unfold QueryDocumentsHandler.section' embedOne QdrantVectorStore.search
  simp only [bind_eq, bind_assoc]
  apply Calls.bind (calls_request (by trivial))
  intro vectors
  cases vectors with
  | nil => trivial
  | cons vector rest =>
    apply Calls.bind (calls_request (by trivial))
    intro hits
    apply Calls.bind (calls_request (.inr (.inr ⟨_, rfl⟩)))
    intro answer
    cases citationsForSection (hits.map fun hit => hit.1.retrieved hit.2) <;> trivial

theorem answer_asks {topK : Nat} :
    Calls (Asks query history) (QueryDocumentsHandler.answer env query history topK) := by
  unfold QueryDocumentsHandler.answer
  apply Calls.bind (calls_request (.inl rfl))
  intro routed
  cases parseRouterDecision env routed.content with
  | error error => trivial
  | ok decision =>
    change Calls _ (if decision.route = "FULL_DOC" then _ else _)
    split
    · exact fullDocument_asks.bind fun _ => trivial
    · exact section_asks.bind fun _ => trivial

/-- Every answer prompt of a query carries its trimmed history. -/
theorem handle_asks (env : Env) (query : QueryDocumentsRequest) :
    Calls (Asks query query.promptHistory) (QueryDocumentsHandler.handle env query) := by
  unfold QueryDocumentsHandler.handle withSemaphore
  split
  · trivial
  split
  · trivial
  split
  · trivial
  · simp only [bind_eq, bind_assoc]
    apply Calls.bind (calls_request (by trivial))
    intro _
    apply Calls.bind (answer_asks.tryFinally (calls_request (by trivial)))
    rintro ⟨decision, answered, citations⟩
    dsimp only
    cases respond env decision answered citations <;> trivial

end Asks

/-! Pairs and slices. -/

section Pairs

variable {history : List HistoryMessage} {window : Nat}

theorem unpair_pairs (history : List HistoryMessage) :
    unpair (completePairs history) (danglingTurn history) = history := by
  induction history using completePairs.induct with
  | case1 question answer rest ih => simpa [unpair, completePairs, danglingTurn] using ih
  | case2 history short =>
    match history with
    | [] => rfl
    | [question] => rfl
    | question :: answer :: rest => exact absurd rfl (short question answer rest)

theorem length_pairs (history : List HistoryMessage) :
    history.length = 2 * (completePairs history).length + (danglingTurn history).toList.length := by
  induction history using completePairs.induct with
  | case1 question answer rest ih =>
    simp only [List.length_cons, completePairs, danglingTurn]
    omega
  | case2 history short =>
    match history with
    | [] => rfl
    | [question] => rfl
    | question :: answer :: rest => exact absurd rfl (short question answer rest)

/-- Skipping some pairs skips two messages each. -/
theorem drop_unpair (pairs : List (HistoryMessage × HistoryMessage))
    (dangling : Option HistoryMessage) {count : Nat} (within : count ≤ pairs.length) :
    (unpair pairs dangling).drop (2 * count) = unpair (pairs.drop count) dangling := by
  induction pairs generalizing count with
  | nil =>
    rw [Nat.eq_zero_of_le_zero within]
    rfl
  | cons pair rest ih =>
    cases count with
    | zero => rfl
    | succ count => exact ih (Nat.le_of_succ_le_succ within)

theorem lastPairs_eq (window : Nat) (history : List HistoryMessage) :
    lastPairs window history =
      history.drop (2 * ((completePairs history).length -
        min window (completePairs history).length)) := by
  rw [lastPairs, ← drop_unpair _ _ (Nat.sub_le ..), unpair_pairs]

theorem trimHistory_eq (positive : 0 < window) (history : List HistoryMessage) :
    trimHistory history window =
      (history.drop (history.length - 2 * window)).map HistoryMessage.message := by
  unfold trimHistory
  split
  · rename_i nothing
    have empty : history = [] := by
      simpa [Nat.pos_iff_ne_zero.mp positive] using nothing
    subst empty
    simp
  · rw [Nat.mul_comm]
    rfl

/-- In an alternating history the place of a message tells its role. -/
theorem role_of_place (alternating : Alternating history) {place : Nat} {message : HistoryMessage}
    (found : history[place]? = some message) :
    roleOf message.role = if place % 2 = 0 then .user else .assistant := by
  induction history using Alternating.induct generalizing place with
  | case1 => simp at found
  | case2 question =>
    cases place with
    | zero =>
      cases found
      exact alternating
    | succ place => simp at found
  | case3 question answer rest ih =>
    obtain ⟨asked, answered, later⟩ := alternating
    match place with
    | 0 =>
      cases found
      exact asked
    | 1 =>
      cases found
      exact answered
    | place + 2 =>
      rw [Nat.add_mod_right]
      exact ih later found

/-- The last pairs and the dangling turn are kept exactly when no turn dangles, or nothing
is cut off. -/
theorem trimHistory_pairs_iff (positive : 0 < window) :
    trimHistory history window = (lastPairs window history).map HistoryMessage.message ↔
      history.length % 2 = 0 ∨ history.length ≤ 2 * window := by
  have lengths := length_pairs history
  have one : (danglingTurn history).toList.length ≤ 1 := by
    cases danglingTurn history <;> simp
  rw [trimHistory_eq positive, lastPairs_eq]
  constructor
  · intro same
    have count := congrArg List.length same
    simp only [List.length_map, List.length_drop] at count
    omega
  · intro whole
    congr 2
    omega

theorem trimHistory_asked_iff (alternating : Alternating history) (positive : 0 < window) :
    (∀ first ∈ (trimHistory history window).head?, first.role = .user) ↔
      history.length % 2 = 0 ∨ history.length ≤ 2 * window := by
  rw [trimHistory_eq positive, List.head?_map, List.head?_drop]
  constructor
  · intro asked
    by_contra cut
    have inside : history.length - 2 * window < history.length := by omega
    have found := List.getElem?_eq_getElem inside
    have role := role_of_place alternating found
    have user := asked _ (Option.mem_map.mpr ⟨_, found, rfl⟩)
    rw [if_neg (by omega)] at role
    cases role.symm.trans user
  · intro whole first member
    obtain ⟨message, found, rfl⟩ := Option.mem_map.mp member
    have role := role_of_place alternating found
    rw [if_pos (by omega)] at role
    exact role

end Pairs

/-- Every answer prompt of a query carries one history. It is the last pairs of an
alternating history and its dangling turn exactly when no turn dangles or nothing
is cut off, and just then it begins with a user turn. -/
theorem history_pairs_iff (env : Env) (query : QueryDocumentsRequest)
    (alternating : Alternating query.history) (window : 1 ≤ query.historyWindow) :
    Calls (Asks query query.promptHistory) (QueryDocumentsHandler.handle env query) ∧
      (query.promptHistory =
          (lastPairs query.historyWindow.toNat query.history).map HistoryMessage.message ↔
        query.history.length % 2 = 0 ∨ query.history.length ≤ 2 * query.historyWindow) ∧
      ((∀ first ∈ query.promptHistory.head?, first.role = .user) ↔
        query.history.length % 2 = 0 ∨ query.history.length ≤ 2 * query.historyWindow) := by
  have positive : 0 < query.historyWindow.toNat := by omega
  have bound : query.history.length % 2 = 0 ∨
      query.history.length ≤ 2 * query.historyWindow.toNat ↔
        query.history.length % 2 = 0 ∨ query.history.length ≤ 2 * query.historyWindow := by
    omega
  refine ⟨handle_asks env query, ?_, ?_⟩
  · exact (trimHistory_pairs_iff positive).trans bound
  · exact (trimHistory_asked_iff alternating positive).trans bound

private def shortTalk (history : List HistoryMessage) : QueryDocumentsRequest :=
  ⟨"c", ["corpus"], "What?", 1, 0, history⟩

private theorem shortTalk_alternating {rest : List HistoryMessage} (later : Alternating rest) :
    Alternating (⟨"user", "q1"⟩ :: ⟨"assistant", "a1"⟩ :: rest) :=
  ⟨by decide +kernel, by decide +kernel, later⟩

/-- One pair within a window of one. -/
theorem history_pairs_sample :
    let query := shortTalk [⟨"user", "q1"⟩, ⟨"assistant", "a1"⟩]
    Calls (Asks query query.promptHistory) (QueryDocumentsHandler.handle Sample.env query) ∧
      (query.promptHistory =
          (lastPairs query.historyWindow.toNat query.history).map HistoryMessage.message ↔
        query.history.length % 2 = 0 ∨ query.history.length ≤ 2 * query.historyWindow) ∧
      ((∀ first ∈ query.promptHistory.head?, first.role = .user) ↔
        query.history.length % 2 = 0 ∨ query.history.length ≤ 2 * query.historyWindow) :=
  history_pairs_iff Sample.env (shortTalk [⟨"user", "q1"⟩, ⟨"assistant", "a1"⟩])
    (shortTalk_alternating trivial) (by decide)

/-- A dangling turn after one pair pushes the question of the pair out. -/
theorem history_cuts_question :
    ¬ ∀ query : QueryDocumentsRequest, Alternating query.history → 1 ≤ query.historyWindow →
      query.promptHistory =
        (lastPairs query.historyWindow.toNat query.history).map HistoryMessage.message := by
  intro whole
  have asks : roleOf "user" = .user := by decide +kernel
  have same := whole (shortTalk [⟨"user", "q1"⟩, ⟨"assistant", "a1"⟩, ⟨"user", "q2"⟩])
    (shortTalk_alternating asks) (by decide)
  have count := congrArg List.length same
  cases count

end DocContext
