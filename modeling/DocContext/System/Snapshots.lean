import DocContext.System.Answers

/-! Searched answers as snapshots: a query that searches once answers as it would have
answered alone, at the moment of its search. -/

namespace DocContext

open Foundation Coroutine

/-- The call reads the store. -/
def Call.retrieves : Call → Bool
  | .queryPoints .. | .scroll .. => true
  | _ => false

namespace Reading

variable {env : Env} {query : QueryDocumentsRequest} {reading : Reading} {call : Call}
  {first second : World}

/-- The query reads the store no more. -/
def sated : Reading → Bool
  | .listed .. | .found _ | .failed => true
  | _ => false

theorem Awaits.quiet (awaits : Awaits env query reading call) (quiet : call.retrieves = false)
    (first second : World) : (perform env call first).1 = (perform env call second).1 := by
  cases awaits <;> first | rfl | cases quiet

theorem Awaits.kept (awaits : Awaits env query reading call) (quiet : call.retrieves = false)
    (reply : Except (Raised PyException) (Reply call)) :
    reading.moves call reply = .failed ∨ reading.moves call reply = reading := by
  cases reply with
  | error raised => exact .inl rfl
  | ok value => cases awaits <;> first | exact .inr rfl | cases quiet

theorem Awaits.retrieves (awaits : Awaits env query reading call) (sated : reading.sated = true) :
    call.retrieves = false := by
  cases awaits <;> first | rfl | cases sated

theorem Awaits.agree (awaits : Awaits env query reading call)
    (same : first.collection = second.collection) :
    (perform env call first).1 = (perform env call second).1 := by
  cases reads : call.retrieves with
  | false => exact awaits.quiet reads first second
  | true =>
    have sight : visible query first = visible query second := congrArg (Option.map _) same
    cases awaits with
    | search own =>
      subst own
      rw [perform_queryPoints, perform_queryPoints, sight]
    | firstPage | nextPage | stalledScroll => rw [perform_scroll, perform_scroll, sight]
    | acquire | release | route | embed | answerFullDoc | answerSection | stalledAnswer => cases reads

theorem Awaits.collection (awaits : Awaits env query reading call) (world : World) :
    (perform env call world).2.collection = world.collection := by
  obtain ⟨permits, same⟩ := Deployment.reads_permits awaits none world
  rw [answer_none] at same
  rw [same]
  rfl

end Reading

section Alone

variable {env : Env} {query : QueryDocumentsRequest} {reading : Reading} {call : Call}
  {body : Task QueryDocumentsResponse}
  {resume : Except (Raised PyException) (Reply call) → Task QueryDocumentsResponse}
  {first second : World}

/-- What a query ends with depends on the collection only, and on nothing once it has read
the store. -/
theorem exec_alike (follows : Follows (readingProtocol env query) Reading.Concluded reading body)
    (alike : reading.sated = true ∨ first.collection = second.collection) :
    (body.exec (perform env) first).1 = (body.exec (perform env) second).1 := by
  refine And.left (exec_agree (perform env) (perform env)
    (fun reading first second => reading.sated = true ∨ first.collection = second.collection)
    (fun reading call first second awaits alike => ?_) follows alike)
  replace awaits : Reading.Awaits env query reading call := awaits
  rcases alike with sated | same
  · have quiet := awaits.retrieves sated
    refine ⟨awaits.quiet quiet first second, .inl ?_⟩
    rcases awaits.kept quiet (perform env call first).1 with failed | stays
    · exact congrArg Reading.sated failed
    · exact (congrArg Reading.sated stays).trans sated
  · refine ⟨awaits.agree same, .inr ?_⟩
    rw [awaits.collection, awaits.collection, same]

theorem exec_quiet
    (follows : Follows (readingProtocol env query) Reading.Concluded reading (.await call resume))
    (quiet : call.retrieves = false) (world other : World) :
    ((Coroutine.await call resume).exec (perform env) world).1 =
      ((resume (perform env call other).1).exec (perform env) world).1 := by
  have awaits : Reading.Awaits env query reading call := follows.1
  change ((resume (perform env call world).1).exec (perform env) (perform env call world).2).1 = _
  rw [awaits.quiet quiet world other]
  exact exec_alike (follows.2 _) (.inr (awaits.collection world))

end Alone

namespace Deployment

variable {env : Env} {query : QueryDocumentsRequest} {begun before after last : Deployment env}

/-- A query that has not read yet will answer as it would alone, and one that has searched as
it would have then. -/
structure Timely (env : Env) (query : QueryDocumentsRequest) (begun deployment : Deployment env)
    (reading : Reading) (body : Task QueryDocumentsResponse) : Prop where
  follows : Follows (readingProtocol env query) Reading.Concluded reading body
  live : reading ≠ .stalled
  awaiting : reading = .nothing → ∀ world, (body.exec (perform env) world).1 =
    ((QueryDocumentsHandler.handle env query).exec (perform env) world).1
  searched : ∀ hits, reading = .found hits → Once step begun deployment fun moment =>
    (body.exec (perform env) moment.system.world).1 =
      ((QueryDocumentsHandler.handle env query).exec (perform env) moment.system.world).1

theorem Timely.later {event : Event} {reading : Reading} {body : Task QueryDocumentsResponse}
    (timely : Timely env query begun before reading body) (stepped : before.step event = some after) :
    Timely env query begun after reading body :=
  { timely with searched := fun hits found => (timely.searched hits found).later stepped }

theorem timely_failed {body : Task QueryDocumentsResponse}
    (follows : Follows (readingProtocol env query) Reading.Concluded .failed body) :
    Timely env query begun before .failed body where
  follows := follows
  live := by simp
  awaiting := by simp
  searched := by simp

theorem timely_page {got : List Point} {answered : List Point × Option String}
    {body : Task QueryDocumentsResponse}
    (follows : Follows (readingProtocol env query) Reading.Concluded (Reading.page got answered) body)
    (live : Reading.page got answered ≠ .stalled) :
    Timely env query begun before (Reading.page got answered) body := by
  refine ⟨follows, live, fun nothing => ?_, fun hits found => ?_⟩
  · unfold Reading.page at nothing
    split at nothing <;> try split at nothing
    all_goals cases nothing
  · unfold Reading.page at found
    split at found <;> try split at found
    all_goals cases found

/-- The moment of a search is the one at which it is answered. -/
theorem timely_searched {vector : List PyFloat}
    {resume : Except (Raised PyException) (List (Point × PyFloat)) → Task QueryDocumentsResponse}
    (run : Reaches step anyStep begun before)
    (timely : Timely env query begun before .nothing
      (.await (.queryPoints vector (corporaFilter query.clientId query.corpusIds)
        (query.hitLimit env)) resume)) {hits : List (Point × PyFloat)}
    (replied : (perform env (.queryPoints vector (corporaFilter query.clientId query.corpusIds)
        (query.hitLimit env)) before.system.world).1 = .ok hits) :
    Timely env query begun before (.found hits) (resume (.ok hits)) where
  follows := timely.follows.2 (.ok hits)
  live := by simp
  awaiting := by simp
  searched := by
    intro _ _
    refine Once.now run ?_
    rw [← timely.awaiting rfl before.system.world]
    rw [exec, replied]
    exact exec_alike (timely.follows.2 (.ok hits)) (.inl rfl)

theorem Timely.replied {reading : Reading} {call : Call}
    {resume : Except (Raised PyException) (Reply call) → Task QueryDocumentsResponse}
    (run : Reaches step anyStep begun before)
    (timely : Timely env query begun before reading (.await call resume))
    (fault : Option (Fault PyException)) :
    Timely env query begun before
      (reading.moves call (answer (perform env) fault call before.system.world).1)
      (resume (answer (perform env) fault call before.system.world).1) := by
  have awaits : Reading.Awaits env query reading call := timely.follows.1
  have follows := timely.follows.2 (answer (perform env) fault call before.system.world).1
  have live := (Reading.learns_answered awaits timely.live fault before.system.world).live timely.live
  cases fault with
  | some fault => exact timely_failed follows
  | none =>
    rw [answer_none] at follows live ⊢
    cases reads : call.retrieves with
    | false =>
      have same := exec_quiet timely.follows reads
      rcases awaits.kept reads (perform env call before.system.world).1 with failed | stays
      · rw [failed]
        exact timely_failed (failed ▸ follows)
      · rw [stays]
        refine ⟨stays ▸ follows, timely.live, fun nothing world => ?_, fun hits found => ?_⟩
        · rw [← same world]
          exact timely.awaiting nothing world
        · refine (timely.searched hits found).imp fun moment alone => ?_
          rw [← same moment.system.world]
          exact alone
    | true =>
      cases awaits with
      | search own =>
        subst own
        rcases replied : (perform env _ before.system.world).1 with raised | hits
        · rw [replied] at follows
          exact timely_failed follows
        · exact timely_searched run timely replied
      | firstPage | nextPage =>
        rcases replied : (perform env _ before.system.world).1 with raised | answered
        · rw [replied] at follows
          exact timely_failed follows
        · rw [replied] at follows live
          exact timely_page follows live
      | stalledScroll => exact absurd rfl timely.live
      | acquire | release | route | embed | answerFullDoc | answerSection | stalledAnswer => cases reads

/-- A searched answer is the answer of one moment, model, embedder and ranking being
functions of what they are given: whatever servers, workers and other queries do while
a query runs, if it ends with a response of the section route, then it ends as it would
have ended alone, on the store as it was at some moment since it began. -/
theorem section_atomic (env : Env) (asked begun last : Deployment env)
    (query : QueryDocumentsRequest) (asks : asked.step (.ask query) = some begun)
    (after : Reaches step anyStep begun last) :
    ∃ inquiry, last.inquiries[asked.inquiries.length]? = some inquiry ∧ inquiry.query = query ∧
      ∀ response, inquiry.process.body = .ret response → response.usedRoute = 1 →
        Once step begun last fun moment =>
          ((QueryDocumentsHandler.handle env query).exec (perform env) moment.system.world).1 =
            .ok response := by
  obtain ⟨inquiry, found, rfl, timely⟩ := inquiry_of_reaches
    (fun deployment => Timely env query begun deployment) asks
    ⟨handle_reads env query, by simp, fun _ _ => rfl, by simp⟩
    (fun _ _ _ _ _ stepped _ _ timely => timely.later stepped)
    (fun _ _ _ _ fault run _ _ timely => timely.replied run fault) after
  refine ⟨inquiry, found, rfl, fun response returned route => ?_⟩
  have concluded := inquiry.process.follows
  rw [returned] at concluded timely
  rcases concluded response rfl with stalled | ⟨points, whole, _, routed, _⟩ | ⟨hits, found, _, _⟩
  · exact absurd stalled timely.live
  · rw [routed] at route
    cases route
  · exact (timely.searched hits found).imp fun moment alone => alone.symm

open Sample

/-- The question comes before the file is indexed, and is searched for afterwards. -/
theorem section_atomic_sample :
    ∃ (begun last : Deployment Sample.env) (response : QueryDocumentsResponse),
      response.usedRoute = 1 ∧ response.citations.length = 1 ∧
      Once step begun last fun moment =>
        ((QueryDocumentsHandler.handle Sample.env pathQuery).exec (perform Sample.env)
          moment.system.world).1 = .ok response := by
  obtain ⟨begun, last, response, asks, replied, returned, section', cited⟩ :
      ∃ begun last response,
        (initial Sample.env none Sample.extract).step (.ask pathQuery) = some begun ∧
        (replies 0 3 ++ indexing ++ replies 0 3).foldlM step begun = some last ∧
        (last.inquiries[0]?.map fun inquiry => inquiry.process.body) = some (.ret response) ∧
        response.usedRoute = 1 ∧ response.citations.length = 1 := ⟨_, _, _, rfl, rfl, rfl, rfl, rfl⟩
  have after : Reaches step anyStep begun last := reaches_of_play (fun _ _ _ => trivial) replied
  obtain ⟨inquiry, found, own, atomic⟩ := section_atomic Sample.env _ begun last pathQuery asks after
  have first : last.inquiries[0]? = some inquiry := found
  rw [first] at returned
  exact ⟨begun, last, response, section', cited, atomic response (Option.some.inj returned) section'⟩

end Deployment

end DocContext
