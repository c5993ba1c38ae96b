import DocContext.Foundation.Semaphore
import DocContext.Services.FullDocument

/-! The cap on concurrent queries: one handler's requests share a semaphore around
the router call, the retrieval and the answer call. -/

namespace DocContext

open Foundation Coroutine

/-- What a call is to `async with self._sem`. -/
def gateOf : Call → Gate
  | .acquire => .enter
  | .release => .leave
  | _ => .within

/-! A query enters the section once and leaves it, whatever is raised. -/

section Section

variable {env : Env} {query : QueryDocumentsRequest} {history : List Message}

theorem listing_stays {clientId : String} {corpusIds : List String} :
    Stays gateOf (QdrantVectorStore.listChunksForCorpora clientId corpusIds) := by
  apply stays_of_follows listChunksForCorpora_lists
  rintro _ _ ⟨filter, limit, offset, rfl⟩
  rfl

theorem fullDocument_stays :
    Stays gateOf (QueryDocumentsHandler.fullDocument env query history) := by
  apply Stays.bind listing_stays
  intro docs
  apply Stays.bind (stays_request rfl)
  intro answer
  cases citationsForFullDoc docs <;> rfl

theorem embedOne_stays {text : Text} : Stays gateOf (embedOne text) := by
  apply Stays.bind (stays_request rfl)
  intro vectors
  cases vectors <;> rfl

theorem section_stays {topK : Nat} :
    Stays gateOf (QueryDocumentsHandler.section' env query history topK) := by
  apply Stays.bind embedOne_stays
  intro vector
  apply Stays.bind
  · apply Stays.bind (stays_request rfl)
    exact fun hits => rfl
  · intro hits
    apply Stays.bind (stays_request rfl)
    intro answer
    cases citationsForSection hits <;> rfl

theorem answer_stays {topK : Nat} :
    Stays gateOf (QueryDocumentsHandler.answer env query history topK) := by
  apply Stays.bind (stays_request rfl)
  intro routed
  apply Stays.bind
  · cases parseRouterDecision env routed.content <;> rfl
  · intro decision
    by_cases full : decision.route = "FULL_DOC"
    · rw [if_pos full]
      exact Stays.bind fullDocument_stays fun answered => rfl
    · rw [if_neg full]
      exact Stays.bind section_stays fun answered => rfl

theorem handle_sections (env : Env) (query : QueryDocumentsRequest) :
    Follows (sectionProtocol Reply PyException gateOf) Left .outside
      (QueryDocumentsHandler.handle env query) := by
  have refused (error : PyException) : Follows (sectionProtocol Reply PyException gateOf)
      (Left : Standing → Except (Raised PyException) QueryDocumentsResponse → Prop) .outside
      (Coroutine.throw error) := fun clash => nomatch clash
  unfold QueryDocumentsHandler.handle
  split
  · exact refused _
  split
  · exact refused _
  split
  · exact refused _
  apply follows_bind
  apply Follows.weaken (follows_section rfl answer_stays (leaves_request rfl))
  intro standing result gone
  subst gone
  cases result with
  | error raised => exact fun clash => nomatch clash
  | ok answered =>
    obtain ⟨decision, answered, citations⟩ := answered
    dsimp only [thenFollows]
    cases respond env decision answered citations <;> exact fun clash => nomatch clash

end Section

/-! All the queries of one handler. -/

/-- A request that has reached the handler. -/
def arrived (env : Env) (query : QueryDocumentsRequest) :
    Member Reply PyException QueryDocumentsResponse gateOf :=
  ⟨.outside, QueryDocumentsHandler.handle env query, handle_sections env query⟩

/-- One handler's requests, and what they share. -/
abbrev Queries := Pool Reply PyException QueryDocumentsResponse World gateOf

/-- The query has a call to the model in flight. -/
def completing (member : Member Reply PyException QueryDocumentsResponse gateOf) : Bool :=
  match member.body with
  | .await (.complete ..) _ => true
  | _ => false

theorem perform_counts (env : Env) : Pool.Counts gateOf World.permits (perform env) where
  enter call world enters := by
    cases call <;> first | exact ⟨⟨(), rfl⟩, rfl⟩ | cases enters
  leave call world leaves := by
    cases call <;> first | rfl | cases leaves
  within call world within := by
    cases call <;> simp only [perform, computed, stored_permits, committed_permits]
    case createCollection => split <;> rfl
    case acquire | release => cases within

/-- Of any number of queries that share a semaphore with so many permits, in any
order of their steps and whatever is raised in them, at most so many are between
acquiring and releasing, and at most so many calls to the model are in flight; free
permits and queries inside make up the capacity, which is free again once all have
ended. -/
theorem queries_capped (env : Env) (world : World) (queries : Queries)
    (reaches : Reaches (Pool.step (perform env) (arrived env)) (Pool.Orderly World.permits)
      (⟨world, []⟩ : Queries) queries) :
    queries.world.permits + queries.inside = world.permits ∧
      queries.inside ≤ world.permits ∧
      queries.members.countP completing ≤ world.permits ∧
      ((∀ member ∈ queries.members, member.body.ended = true) →
        queries.world.permits = world.permits) := by
  have balanced := Pool.balance (perform_counts env) (fun _ => rfl) reaches
  change _ = world.permits + 0 at balanced
  have flying : queries.members.countP completing ≤ queries.inside := by
    apply List.countP_mono_left
    intro member found completes
    rw [decide_eq_true_eq]
    unfold completing at completes
    split at completes
    · rename_i messages model resume waits
      exact Pool.inside_of_waits waits rfl
    · cases completes
  refine ⟨by omega, by omega, by omega, fun ended => ?_⟩
  have empty := Pool.inside_of_ended ended
  omega

private def greeting : QueryDocumentsRequest := ⟨"a", ["corpus"], "Hello?", 0, 0, []⟩

private def onePermit : World := { Sample.world none with permits := 1 }

/-- Two queries for one permit: the second waits. -/
theorem queries_capped_sample :
    ∃ queries : Queries, queries.members.length = 2 ∧ queries.inside = 1 ∧
      queries.world.permits + queries.inside = onePermit.permits ∧
      queries.inside ≤ onePermit.permits ∧
      queries.members.countP completing ≤ onePermit.permits ∧
      ((∀ member ∈ queries.members, member.body.ended = true) →
        queries.world.permits = onePermit.permits) := by
  let step := Pool.step (perform Sample.env) (arrived Sample.env)
  obtain ⟨first, second, queries, joined, joined', entered, two, one⟩ : ∃ first second queries,
      step (⟨onePermit, []⟩ : Queries) (.arrive greeting) = some first ∧
      step first (.arrive greeting) = some second ∧
      step second (.serve 0 none) = some queries ∧
      queries.members.length = 2 ∧ queries.inside = 1 := ⟨_, _, _, rfl, rfl, rfl, rfl, rfl⟩
  have arrives (queries : Queries) : Pool.Orderly World.permits queries
      (.arrive greeting : PoolAction PyException World QueryDocumentsRequest) := trivial
  have enters : Pool.Orderly World.permits second
      (.serve 0 none : PoolAction PyException World QueryDocumentsRequest) := by
    cases joined
    cases joined'
    intro member found call resume waits
    cases found
    change Coroutine.await Call.acquire _ = _ at waits
    cases waits
    exact Nat.one_pos
  have reaches : Reaches step (Pool.Orderly World.permits) (⟨onePermit, []⟩ : Queries) queries :=
    ((Relation.ReflTransGen.single ⟨_, arrives _, joined⟩).tail ⟨_, arrives _, joined'⟩).tail
      ⟨_, enters, entered⟩
  exact ⟨queries, two, one, queries_capped Sample.env onePermit queries reaches⟩

end DocContext
