import DocContext.Foundation.Moments
import DocContext.Services.Reading
import DocContext.System.Settlement

/-! The deployment: the servers, broker and workers of the system, and the queries of a
server, all on one world and one awaited call at a time. Queries take permits and
read; to the rest of the system they make no difference. -/

namespace DocContext

open Foundation Coroutine

/-- A query that has reached the server. -/
structure Inquiry (env : Env) where
  query : QueryDocumentsRequest
  process : Process (readingProtocol env query) Reading.Concluded

structure Deployment (env : Env) where
  system : System env
  inquiries : List (Inquiry env)

/-- What can happen next. -/
inductive Event where
  /-- Anything but a query. -/
  | inside (action : Action)
  /-- A query reaches the server. -/
  | ask (query : QueryDocumentsRequest)
  /-- A query has its call answered. -/
  | reply (inquiry : Nat) (fault : Option (Fault PyException))

/-- The event without its query, if it has one. -/
def Event.action? : Event → Option Action
  | .inside action => some action
  | _ => none

namespace Inquiry

variable {env : Env}

def start (env : Env) (query : QueryDocumentsRequest) : Inquiry env where
  query := query
  process := ⟨.nothing, QueryDocumentsHandler.handle env query, handle_reads env query⟩

/-- The query waits for a permit, and there is none. -/
def blocked (inquiry : Inquiry env) (permits : Nat) (fault : Option (Fault PyException)) : Bool :=
  match inquiry.process.body with
  | .await .acquire _ => permits = 0 && fault.all fun fault => fault.landed
  | _ => false

end Inquiry

/-- The world with so many free permits. -/
def World.withPermits (permits : Nat) (world : World) : World := { world with permits }

section Permits

variable {env : Env} {call : Call}

/-- The call neither takes nor returns a permit. -/
def Call.permitless : Call → Bool
  | .acquire | .release => false
  | _ => true

theorem committed_withPermits (permits : Nat) (world : World)
    (result : Except PyException (Job × JobTable)) :
    (world.withPermits permits).committed result =
      ((world.committed result).1, (world.committed result).2.withPermits permits) := by
  rcases result with error | ⟨row, table⟩ <;> rfl

theorem stored_withPermits {α : Type} (permits : Nat) (world : World)
    (operation : Collection → α × Collection) :
    (world.withPermits permits).stored operation =
      ((world.stored operation).1, (world.stored operation).2.withPermits permits) := by
  obtain ⟨table, queue, collection, extractText, free⟩ := world
  cases collection <;> rfl

theorem perform_withPermits (permitless : call.permitless = true) (permits : Nat) (world : World) :
    perform env call (world.withPermits permits) =
      ((perform env call world).1, (perform env call world).2.withPermits permits) := by
  cases call
  case acquire | release => cases permitless
  case create | markRunning | markSucceeded | markFailed => exact committed_withPermits ..
  case createPayloadIndex | upsertPoints | count | deletePoints | queryPoints | scroll =>
    exact stored_withPermits ..
  case createCollection =>
    obtain ⟨table, queue, collection, extractText, free⟩ := world
    cases collection <;> rfl
  all_goals rfl

theorem answer_withPermits {fault : Option (Fault PyException)}
    (permitless : call.permitless = true) (permits : Nat) (world : World) :
    answer (perform env) fault call (world.withPermits permits) =
      ((answer (perform env) fault call world).1,
        (answer (perform env) fault call world).2.withPermits permits) := by
  cases fault with
  | none => exact perform_withPermits permitless permits world
  | some fault =>
    rw [answer_some, answer_some, perform_withPermits permitless]
    split <;> rfl

end Permits

namespace System

variable {env : Env} {system after : System env}

def withPermits (permits : Nat) (system : System env) : System env :=
  { system with world := system.world.withPermits permits }

/-- The system works alike whatever permits are free. -/
theorem step_withPermits {action : Action} (stepped : system.step action = some after)
    (permits : Nat) :
    (system.withPermits permits).step action = some (after.withPermits permits) := by
  cases action with
  | submit submission =>
    rw [step] at stepped ⊢
    split at stepped
    · cases stepped
    · rename_i fresh
      cases stepped
      exact if_neg fresh
  | serve index fault =>
    obtain ⟨rpc, found, stepped⟩ := Option.bind_eq_some_iff.mp stepped
    obtain ⟨⟨process, world⟩, advanced, stepped⟩ := Option.bind_eq_some_iff.mp stepped
    cases stepped
    have alike := Process.advance_congr _ (World.withPermits permits) (fun call awaits => by
      refine answer_withPermits ?_ permits system.world
      change Phase.Awaits _ _ _ at awaits
      generalize rpc.process.state = phase at awaits
      cases awaits <;> rfl) advanced
    exact Option.bind_eq_some_iff.mpr ⟨rpc, found, Option.bind_eq_some_iff.mpr ⟨_, alike, rfl⟩⟩
  | work index fault =>
    obtain ⟨handling, found, stepped⟩ := Option.bind_eq_some_iff.mp stepped
    obtain ⟨⟨process, world⟩, advanced, stepped⟩ := Option.bind_eq_some_iff.mp stepped
    have alike := Process.advance_congr _ (World.withPermits permits) (fun call admitted => by
      refine answer_withPermits ?_ permits system.world
      obtain ⟨envelope, _, awaits⟩ := admits_message admitted
      generalize handling.process.state = stage at awaits
      cases awaits <;> rfl) advanced
    dsimp only at stepped
    split at stepped
    · rename_i goesOn
      cases stepped
      exact Option.bind_eq_some_iff.mpr ⟨handling, found,
        Option.bind_eq_some_iff.mpr ⟨_, alike, if_pos goesOn⟩⟩
    · cases stepped
  | replaceFiles extractText =>
    cases stepped
    rfl
  | deliver worker =>
    rw [step] at stepped ⊢
    split at stepped
    · cases stepped
    · rename_i message queue next
      rw [show (system.withPermits permits).world.queue = message :: queue from next]
      split at stepped
      · rename_i idle
        cases stepped
        exact if_pos idle
      · cases stepped
  | settle index | cancel index =>
    obtain ⟨handling, found, stepped⟩ := Option.bind_eq_some_iff.mp stepped
    refine Option.bind_eq_some_iff.mpr ⟨handling, found, ?_⟩
    split at stepped
    · rename_i ready
      cases stepped
      exact if_pos ready
    · cases stepped
  | loseConnection index =>
    obtain ⟨handling, found, stepped⟩ := Option.bind_eq_some_iff.mp stepped
    refine Option.bind_eq_some_iff.mpr ⟨handling, found, ?_⟩
    split at stepped
    · rename_i held
      cases stepped
      exact if_pos held
    · cases stepped
  | crash index =>
    obtain ⟨handling, found, stepped⟩ := Option.bind_eq_some_iff.mp stepped
    refine Option.bind_eq_some_iff.mpr ⟨handling, found, ?_⟩
    split at stepped
    · cases stepped
    · rename_i working
      cases stepped
      exact if_neg working

end System

namespace Deployment

variable {env : Env}

/-- A deployment before its first request. -/
def initial (env : Env) (collection : Option Collection) (extractText : Extraction) :
    Deployment env where
  system := .initial env collection extractText
  inquiries := []

def step (deployment : Deployment env) : Event → Option (Deployment env)
  | .inside action => (deployment.system.step action).map fun system => { deployment with system }
  | .ask query => some { deployment with inquiries := deployment.inquiries ++ [Inquiry.start env query] }
  | .reply index fault => do
    let inquiry ← deployment.inquiries[index]?
    if inquiry.blocked deployment.system.world.permits fault then none
    else
      let (process, world) ← inquiry.process.advance (answer (perform env) fault)
        deployment.system.world
      some {
        system := { deployment.system with world }
        inquiries := deployment.inquiries.set index { inquiry with process } }

/-- The points of the store. -/
abbrev stock (deployment : Deployment env) : Store String Record := deployment.system.world.stock

/-- The system without its queries: all permits are free. -/
def core (deployment : Deployment env) : System env := deployment.system.withPermits 10

variable {deployment after : Deployment env} {action : Action} {index : Nat}
  {fault : Option (Fault PyException)}

theorem step_inside (stepped : deployment.step (.inside action) = some after) :
    ∃ system, deployment.system.step action = some system ∧
      after = { deployment with system } := by
  obtain ⟨system, inner, rfl⟩ := Option.map_eq_some_iff.mp stepped
  exact ⟨system, inner, rfl⟩

theorem step_ask {query : QueryDocumentsRequest} (stepped : deployment.step (.ask query) = some after) :
    after = { deployment with inquiries := deployment.inquiries ++ [Inquiry.start env query] } :=
  (Option.some.inj stepped).symm

/-- A query leaves everything but the permits. -/
theorem reads_permits {query : QueryDocumentsRequest} {reading : Reading} {call : Call}
    (awaits : Reading.Awaits env query reading call) (fault : Option (Fault PyException))
    (world : World) :
    ∃ permits, (answer (perform env) fault call world).2 = world.withPermits permits := by
  refine answer_of (fun after => ∃ permits, after = world.withPermits permits)
    ⟨world.permits, rfl⟩ ?_
  cases awaits with
  | acquire => exact ⟨world.permits - 1, rfl⟩
  | release => exact ⟨world.permits + 1, rfl⟩
  | search own =>
    subst own
    rw [perform_queryPoints]
    exact ⟨world.permits, rfl⟩
  | firstPage | nextPage | stalledScroll =>
    rw [perform_scroll]
    exact ⟨world.permits, rfl⟩
  | route | embed | answerFullDoc | answerSection | stalledAnswer => exact ⟨world.permits, rfl⟩

theorem step_reply (stepped : deployment.step (.reply index fault) = some after) :
    ∃ inquiry process call resume permits, deployment.inquiries[index]? = some inquiry ∧
      inquiry.process.body = .await call resume ∧
      Reading.Awaits env inquiry.query inquiry.process.state call ∧
      process.state = inquiry.process.state.moves call
        (answer (perform env) fault call deployment.system.world).1 ∧
      process.body = resume (answer (perform env) fault call deployment.system.world).1 ∧
      after = {
        system := deployment.system.withPermits permits
        inquiries := deployment.inquiries.set index { inquiry with process } } := by
  obtain ⟨inquiry, found, stepped⟩ := Option.bind_eq_some_iff.mp stepped
  split at stepped
  · cases stepped
  obtain ⟨⟨process, world⟩, advanced, stepped⟩ := Option.bind_eq_some_iff.mp stepped
  cases stepped
  obtain ⟨call, resume, waits, awaits, moved, resumed, rfl⟩ := Process.advance_resumed advanced
  obtain ⟨permits, same⟩ := reads_permits awaits fault deployment.system.world
  rw [same]
  exact ⟨inquiry, process, call, resume, permits, found, waits, awaits, moved, resumed, rfl⟩

theorem core_step {event : Event} (stepped : deployment.step event = some after) :
    (∃ action, event = .inside action ∧ deployment.core.step action = some after.core) ∨
      after.core = deployment.core := by
  cases event with
  | inside action =>
    obtain ⟨system, inner, rfl⟩ := step_inside stepped
    exact .inl ⟨action, rfl, System.step_withPermits inner 10⟩
  | ask query =>
    cases step_ask stepped
    exact .inr rfl
  | reply index fault =>
    obtain ⟨inquiry, process, call, resume, permits, _, _, _, _, _, rfl⟩ := step_reply stepped
    exact .inr rfl

/-- Without its queries a run of a deployment is one of its system. -/
theorem core_reaches {allowed : Deployment env → Event → Prop}
    {permitted : System env → Action → Prop}
    (fewer : ∀ deployment action, allowed deployment (.inside action) →
      permitted deployment.core action)
    {start last : Deployment env} (reaches : Reaches step allowed start last) :
    Reaches System.step permitted start.core last.core := by
  induction reaches with
  | refl => exact .refl
  | tail _ moved ih =>
    obtain ⟨event, allows, stepped⟩ := moved
    rcases core_step stepped with ⟨action, rfl, inner⟩ | same
    · exact ih.tail ⟨action, fewer _ _ allows, inner⟩
    · rwa [same]

/-- What holds when a query arrives, and is kept by the steps around it and by the replies
to its own calls, holds of it for good. -/
theorem inquiry_of_reaches {allowed : Deployment env → Event → Prop}
    {asked begun last : Deployment env} {query : QueryDocumentsRequest}
    (holds : Deployment env → Reading → Task QueryDocumentsResponse → Prop)
    (asks : asked.step (.ask query) = some begun)
    (starts : holds begun .nothing (QueryDocumentsHandler.handle env query))
    (waits : ∀ before event after, Reaches step allowed begun before → allowed before event →
      before.step event = some after → ∀ reading body, holds before reading body →
        holds after reading body)
    (replies : ∀ before reading call resume fault, Reaches step allowed begun before →
      allowed before (.reply asked.inquiries.length fault) →
      Reading.Awaits env query reading call → holds before reading (.await call resume) →
        holds before
          (reading.moves call (answer (perform env) fault call before.system.world).1)
          (resume (answer (perform env) fault call before.system.world).1))
    (reaches : Reaches step allowed begun last) :
    ∃ inquiry, last.inquiries[asked.inquiries.length]? = some inquiry ∧ inquiry.query = query ∧
      holds last inquiry.process.state inquiry.process.body := by
  cases step_ask asks
  refine And.right (reaches.invariant (fun deployment => Reaches step allowed _ deployment ∧
    ∃ inquiry, deployment.inquiries[asked.inquiries.length]? = some inquiry ∧
      inquiry.query = query ∧ holds deployment inquiry.process.state inquiry.process.body)
    (fun before event after allows stepped held => ?_) ⟨.refl, ?_⟩)
  · obtain ⟨run, inquiry, found, own, held⟩ := held
    refine ⟨run.tail ⟨event, allows, stepped⟩, ?_⟩
    have kept := waits before event after run allows stepped
    cases event with
    | inside action =>
      obtain ⟨system, _, rfl⟩ := step_inside stepped
      exact ⟨inquiry, found, own, kept _ _ held⟩
    | ask other =>
      cases step_ask stepped
      have within := (List.getElem?_eq_some_iff.mp found).1
      exact ⟨inquiry, (List.getElem?_append_left within).trans found, own, kept _ _ held⟩
    | reply index fault =>
      obtain ⟨other, process, call, resume, permits, found', waiting, awaits, moved, resumed, rfl⟩ :=
        step_reply stepped
      by_cases here : index = asked.inquiries.length
      · subst here
        obtain rfl : other = inquiry := Option.some.inj (found'.symm.trans found)
        have within := (List.getElem?_eq_some_iff.mp found).1
        refine ⟨{ other with process }, List.getElem?_set_self within, own, ?_⟩
        subst own
        rw [waiting] at held
        have replied := replies before _ call resume fault run allows awaits held
        rw [← moved, ← resumed] at replied
        exact kept _ _ replied
      · exact ⟨inquiry, (List.getElem?_set_ne here).trans found, own, kept _ _ held⟩
  · exact ⟨Inquiry.start env query, List.getElem?_concat_length, rfl, starts⟩

/-- Queries make no difference to the rest: leave the queries out of any run of the
deployment, and the other events alone are a run of the system, to the same rows,
messages, points, files and handlers. -/
theorem queries_invisible (env : Env) (start last : Deployment env) (events : List Event)
    (played : events.foldlM step start = some last) :
    (events.filterMap Event.action?).foldlM System.step start.core = some last.core := by
  induction events generalizing start with
  | nil =>
    cases played
    rfl
  | cons event rest ih =>
    rw [List.foldlM_cons] at played
    obtain ⟨next, stepped, played⟩ := Option.bind_eq_some_iff.mp played
    have later := ih next played
    cases event with
    | inside action =>
      obtain ⟨system, inner, rfl⟩ := step_inside stepped
      exact Option.bind_eq_some_iff.mpr ⟨_, System.step_withPermits inner 10, later⟩
    | ask query =>
      cases step_ask stepped
      exact later
    | reply index fault =>
      obtain ⟨inquiry, process, call, resume, permits, _, _, _, _, _, rfl⟩ := step_reply stepped
      exact later

end Deployment

namespace Sample

/-- A deployment whose one index job is worked off. -/
def indexing : List Event := (submitted pathJob 0 0 ++ calls 0 11).map .inside

/-- A question about its corpus. -/
def pathQuery : QueryDocumentsRequest := ⟨"c", ["corpus"], "What?", 0, 0, []⟩

/-- Calls of a query that are answered. -/
def replies (inquiry count : Nat) : List Event := List.replicate count (.reply inquiry none)

end Sample

namespace Deployment

open Sample

/-- A question in the middle of an index job. -/
theorem queries_invisible_sample :
    ∃ last : Deployment Sample.env, last.inquiries.length = 1 ∧
      indexing.filterMap Event.action? = submitted pathJob 0 0 ++ calls 0 11 ∧
      (submitted pathJob 0 0 ++ calls 0 11).foldlM System.step fresh = some last.core := by
  obtain ⟨last, played, one⟩ : ∃ last,
      ((indexing.take 5 ++ .ask pathQuery :: replies 0 3) ++ indexing.drop 5).foldlM step
        (initial Sample.env none Sample.extract) = some last ∧ last.inquiries.length = 1 :=
    ⟨_, rfl, rfl⟩
  exact ⟨last, one, rfl, queries_invisible Sample.env _ last _ played⟩

end Deployment

end DocContext
