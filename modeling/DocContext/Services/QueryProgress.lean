import DocContext.Services.QueryConcurrency

/-! Queries that share a semaphore do not wait for each other for ever. -/

namespace DocContext

open Foundation Coroutine

/-- Calls of queries are answered or raise, as the semaphore allows, and no query arrives. -/
abbrev Answering : Queries → PoolAction PyException World QueryDocumentsRequest → Prop :=
  Pool.Serving World.permits

/-- Queries that share a semaphore with at least one permit never deadlock: from every state
they can reach, in any order of steps and whatever has been raised, answering calls
comes to an end, also where the calls raise; and it ends only with all of them
answered and all permits back. -/
theorem queries_served (env : Env) (world : World) (capacity : 0 < world.permits)
    (queries : Queries)
    (reaches : Reaches (Pool.step (perform env) (arrived env)) (Pool.Orderly World.permits)
      (⟨world, []⟩ : Queries) queries) :
    (WellFounded fun after before : Queries =>
        Moves (Pool.step (perform env) (arrived env)) Answering before after) ∧
      (∃ last, Reaches (Pool.step (perform env) (arrived env)) Answering queries last ∧
        Stuck (Pool.step (perform env) (arrived env)) Answering last) ∧
      ∀ last, Reaches (Pool.step (perform env) (arrived env)) Answering queries last →
        Stuck (Pool.step (perform env) (arrived env)) Answering last →
        (∀ member ∈ last.members, member.body.ended = true) ∧
          last.world.permits = world.permits := by
  refine ⟨Pool.serving_wellFounded, reaches_stuck Pool.serving_wellFounded queries, ?_⟩
  intro last answered stuck
  have orderly : Reaches (Pool.step (perform env) (arrived env)) (Pool.Orderly World.permits)
      queries last := by
    refine answered.weaken ?_
    rintro pool _ ⟨index, fault, orderly⟩
    exact orderly
  have balanced := Pool.balance (perform_counts env) (fun _ => rfl) (reaches.trans orderly)
  change _ = world.permits + 0 at balanced
  have ended := Pool.ended_of_stuck (by omega) stuck
  have empty := Pool.inside_of_ended ended
  exact ⟨ended, by omega⟩

private def onlyPermit : World := { Sample.world none with permits := 1 }

private def questions : List QueryDocumentsRequest :=
  [⟨"a", ["corpus"], "Who?", 0, 0, []⟩, ⟨"b", ["corpus"], "When?", 0, 0, []⟩]

/-- Two queries of two clients for one permit. -/
theorem queries_served_sample :
    ∃ queries : Queries, queries.members.length = 2 ∧
      (WellFounded fun after before : Queries =>
        Moves (Pool.step (perform Sample.env) (arrived Sample.env)) Answering before after) ∧
      (∃ last, Reaches (Pool.step (perform Sample.env) (arrived Sample.env)) Answering queries last ∧
        Stuck (Pool.step (perform Sample.env) (arrived Sample.env)) Answering last) ∧
      ∀ last, Reaches (Pool.step (perform Sample.env) (arrived Sample.env)) Answering queries last →
        Stuck (Pool.step (perform Sample.env) (arrived Sample.env)) Answering last →
        (∀ member ∈ last.members, member.body.ended = true) ∧
          last.world.permits = onlyPermit.permits := by
  obtain ⟨queries, played, two⟩ : ∃ queries : Queries,
      (questions.map PoolAction.arrive).foldlM (Pool.step (perform Sample.env) (arrived Sample.env))
        ⟨onlyPermit, []⟩ = some queries ∧ queries.members.length = 2 := ⟨_, rfl, rfl⟩
  have reaches : Reaches (Pool.step (perform Sample.env) (arrived Sample.env))
      (Pool.Orderly World.permits) (⟨onlyPermit, []⟩ : Queries) queries := by
    refine reaches_of_play (fun action member state => ?_) played
    obtain ⟨query, _, rfl⟩ := List.mem_map.mp member
    trivial
  exact ⟨queries, two, queries_served Sample.env onlyPermit Nat.one_pos queries reaches⟩

end DocContext
