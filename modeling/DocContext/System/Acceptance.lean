import DocContext.System.Settlement

/-! Accepted requests. The row and the message are two effects: a request that
fails between them leaves its row behind, and every other queued row has a
message that a worker will pick up. -/

namespace DocContext

open Foundation Coroutine

section Requests

variable {env : Env} {submission : Submission} {world : World}
  {plan : List (Option (Fault PyException))}

/-- One new queued row and one new message that names it. -/
def Accepted (env : Env) (submission : Submission) (world : World)
    (ended : Except (Raised PyException) JobResponse × World) : Prop :=
  ended.1 = .ok ⟨submission.jobId, statusToProto .queued⟩ ∧
    JobEnvelope.fromPayload env.repr submission.envelope.toPayload = .ok submission.envelope ∧
    ∃ row, world.table.rows submission.jobId = none ∧ row.status = .queued ∧
      ended.2 = { world with
        table := world.table.commit submission.jobId row
        queue := world.queue ++ [submission.envelope.toPayload] }

/-- An error, and nothing has changed. -/
def Refused (world : World) (ended : Except (Raised PyException) JobResponse × World) : Prop :=
  ∃ raised, ended = (.error raised, world)

/-- An error, and one new queued row. -/
def Orphaned (submission : Submission) (world : World)
    (ended : Except (Raised PyException) JobResponse × World) : Prop :=
  ∃ raised row, world.table.rows submission.jobId = none ∧ row.status = .queued ∧
    ended = (.error raised, { world with table := world.table.commit submission.jobId row })

/-- Every fault of the plan strikes before the effect of its call. -/
def Unlanded (plan : List (Option (Fault PyException))) : Prop :=
  ∀ fault, some fault ∈ plan → fault.landed = false

theorem Unlanded.answer {call : Call} {fault : Fault PyException} (unlanded : Unlanded plan)
    (planned : plan.head?.getD none = some fault) :
    answer (perform env) (plan.head?.getD none) call world = (.error fault.raised, world) := by
  have member : some fault ∈ plan := by
    cases plan with
    | nil => cases planned
    | cons first rest =>
      cases planned
      exact List.mem_cons_self ..
  rw [planned, answer_some, unlanded fault member]
  rfl

theorem Unlanded.tail (unlanded : Unlanded plan) : Unlanded plan.tail :=
  fun fault member => unlanded fault (List.mem_of_mem_tail member)

theorem publish_planned (unlanded : Unlanded plan) :
    execPlanned (perform env) plan
        ((request (.publish submission.envelope.toPayload)).bind fun _ =>
          .ret (⟨submission.jobId, statusToProto .queued⟩ : JobResponse)) world =
      match plan.head?.getD none with
      | none => (.ok ⟨submission.jobId, statusToProto .queued⟩,
          { world with queue := world.queue ++ [submission.envelope.toPayload] })
      | some fault => (.error fault.raised, world) := by
  rw [execPlanned_request_bind]
  obtain planned | ⟨fault, planned⟩ := Option.eq_none_or_eq_some (plan.head?.getD none)
  · rw [planned]
    rfl
  · rw [unlanded.answer planned, planned]

/-- A request is atomic unless its publish raises. -/
theorem request_atomic (unlanded : Unlanded plan) :
    let ended := execPlanned (perform env) plan submission.handle world
    (plan[1]?.getD none = none → Accepted env submission world ended ∨ Refused world ended) ∧
      (plan[1]?.getD none ≠ none → Refused world ended ∨ Orphaned submission world ended) := by
  intro ended
  have refused (raised : Raised PyException) (same : ended = (.error raised, world)) :
      (plan[1]?.getD none = none → Accepted env submission world ended ∨ Refused world ended) ∧
        (plan[1]?.getD none ≠ none → Refused world ended ∨ Orphaned submission world ended) :=
    ⟨fun _ => .inr ⟨raised, same⟩, fun _ => .inl ⟨raised, same⟩⟩
  rcases submission.handle_cases with ⟨raised, invalid⟩ | ⟨wellFormed, accepted⟩
  · refine refused raised ?_
    change execPlanned (perform env) plan submission.handle world = _
    rw [invalid]
    rfl
  · have ran : ended = execPlanned (perform env) plan (enqueue submission.envelope) world := by
      rw [← accepted]
    rw [enqueue, bind_eq, execPlanned_request_bind] at ran
    obtain planned | ⟨fault, planned⟩ := Option.eq_none_or_eq_some (plan.head?.getD none)
    · rw [planned, answer_none, perform] at ran
      cases created : world.table.create submission.envelope.jobId submission.envelope.jobType
        submission.envelope.clientId submission.envelope.corpusId submission.envelope.documentId
        submission.envelope.fileType submission.envelope.filePath with
      | error error =>
        rw [created] at ran
        exact refused (.exception error) ran
      | ok made =>
        obtain ⟨row, table⟩ := made
        obtain ⟨free, queued, rfl⟩ := JobTable.create_ok created
        rw [created] at ran
        replace ran := ran.trans (publish_planned unlanded.tail)
        rw [List.head?_tail] at ran
        cases published : plan[1]?.getD none with
        | none =>
          rw [published] at ran
          refine ⟨fun _ => .inl ?_, fun raises => absurd rfl raises⟩
          rw [ran]
          exact ⟨rfl, JobEnvelope.fromPayload_of_wellFormed env.repr wellFormed, row, free, queued, rfl⟩
        | some fault =>
          rw [published] at ran
          refine ⟨fun calm => (by cases calm), fun _ => .inr ?_⟩
          exact ⟨fault.raised, row, free, queued, ran⟩
    · rw [unlanded.answer planned] at ran
      exact refused fault.raised ran

end Requests

namespace System

variable {env : Env} {system after : System env} {index : Nat} {jobId : String}
  {fault : Option (Fault PyException)}

/-- No `mark_running` of the job raises before it is written. -/
def Picking (jobId : String) (system : System env) : Action → Prop
  | .work index fault => ∀ handling resume struck, system.handlings[index]? = some handling →
      handling.process.body = .await (.markRunning jobId) resume → fault = some struck →
      struck.landed = true
  | _ => True

/-- A message of the job waits, or a worker holds one and is about to start the
job. -/
def Awaited (jobId : String) (system : System env) : Prop :=
  (∃ message ∈ system.world.queue, names env jobId message = true) ∨
    ∃ handling ∈ system.handlings, handling.custody = .held ∧ handling.on jobId = true ∧
      ∃ resume, handling.process.body = .await (.markRunning jobId) resume

/-- The request of the job has not been answered with a job id. -/
def Unanswered (jobId : String) (system : System env) : Prop :=
  ∃ rpc ∈ system.rpcs, rpc.submission.jobId = jobId ∧ ∀ response, rpc.process.body ≠ .ret response

/-- Where the message of a queued job is, or which request has not sent it. -/
def Pending (jobId : String) (system : System env) : Prop :=
  (∃ message ∈ system.world.queue, names env jobId message = true) ∨
    (∃ handling ∈ system.handlings, handling.custody = .held ∧ handling.on jobId = true ∧
      handling.process.state = .received) ∨
    ∃ rpc ∈ system.rpcs, rpc.submission.jobId = jobId ∧ rpc.process.state ≠ .published

/-- A worker that has just received a job is about to start it. -/
theorem starting {handling : Handling env} (on : handling.on jobId = true)
    (received : handling.process.state = .received) :
    ∃ resume, handling.process.body = .await (.markRunning jobId) resume := by
  obtain ⟨envelope, read, rfl⟩ := names_iff.mp on
  obtain ⟨worker, message, custody, state, body, follows⟩ := handling
  change state = .received at received
  subst received
  have unfinished (result : Except (Raised PyException) Unit) :
      ¬ Handled env message .received result := by
    intro handled
    rw [Handled, read] at handled
    rcases handled with ⟨reached, _⟩ | ⟨reached | reached | reached, _⟩ <;> cases reached
  cases body with
  | ret value => exact absurd follows (unfinished _)
  | raise raised => exact absurd follows (unfinished _)
  | await call resume =>
    obtain ⟨same, read', awaits⟩ := admits_message follows.1
    cases read.symm.trans read'
    cases awaits
    exact ⟨resume, rfl⟩

theorem unanswered {rpc : Rpc} (unpublished : rpc.process.state ≠ .published)
    (response : JobResponse) : rpc.process.body ≠ .ret response := by
  intro answered
  obtain ⟨submission, state, body, follows⟩ := rpc
  change body = _ at answered
  subst answered
  rcases follows with ⟨published, _⟩ | ⟨_, raised, failed⟩
  · exact unpublished published
  · cases failed

theorem pending_serve
    (pending : system.world.table.status? jobId = some .queued → system.Pending jobId)
    (stepped : system.step (.serve index fault) = some after)
    (queued : after.world.table.status? jobId = some .queued) : after.Pending jobId := by
  obtain ⟨rpc, process, world, found, served, rfl⟩ := step_serve stepped
  have new := mem_replaced found { rpc with process }
  -- a request that has sent nothing still owes what it owed
  have unsent (owing : process.state ≠ .published) (queue : world.queue = system.world.queue)
      (before : system.Pending jobId) :
      Pending jobId { system with world, rpcs := system.rpcs.set index { rpc with process } } := by
    rcases before with waiting | held | ⟨other, listed, same, unpublished⟩
    · left
      rwa [queue]
    · exact .inr (.inl held)
    · right; right
      rcases mem_or_kept found listed { rpc with process } with rfl | kept
      · exact ⟨_, new, same, owing⟩
      · exact ⟨other, kept, same, unpublished⟩
  cases served with
  | created was row free queued' now wrote =>
    have owing : process.state ≠ .published := by
      rcases now with now | now <;> rw [now] <;> exact fun clash => by cases clash
    subst wrote
    by_cases own : rpc.submission.jobId = jobId
    · exact .inr (.inr ⟨_, new, own, owing⟩)
    · change (system.world.table.commit rpc.submission.jobId row).status? jobId = _ at queued
      rw [JobTable.status?_commit, if_neg own] at queued
      exact unsent owing rfl (pending queued)
  | refused was now same | orphaned was now same =>
    subst same
    exact unsent (by rw [now]; exact fun clash => by cases clash) rfl (pending queued)
  | published was wellFormed now sent =>
    subst sent
    rcases pending queued with ⟨message, waiting, named⟩ | held | ⟨other, listed, same, unpublished⟩
    · exact .inl ⟨message, List.mem_append_left _ waiting, named⟩
    · exact .inr (.inl held)
    · rcases mem_or_kept found listed { rpc with process } with rfl | kept
      · refine .inl ⟨_, List.mem_append_right _ (List.mem_singleton.mpr rfl), ?_⟩
        rw [names_toPayload wellFormed]
        exact decide_eq_true same
      · exact .inr (.inr ⟨other, kept, same, unpublished⟩)

theorem awaits_transition {envelope : JobEnvelope} {stage : Stage} {call : Call}
    (awaits : Stage.Awaits env envelope stage call) {key : String} {status : JobStatus}
    (written : call.written? = some (key, status)) : status ≠ .queued := by
  cases awaits <;> cases written <;> exact fun clash => by cases clash

theorem queued_before {envelope : JobEnvelope} {stage : Stage} {call : Call} {world : World}
    (awaits : Stage.Awaits env envelope stage call)
    (queued : (answer (perform env) fault call world).2.table.status? jobId = some .queued) :
    world.table.status? jobId = some .queued := by
  cases written : call.written? with
  | none => rwa [answer_table written] at queued
  | some entry =>
    obtain ⟨key, status⟩ := entry
    rcases answer_written env call fault world written with ⟨same, _⟩ | ⟨row, wrote, committed⟩
    · rwa [same] at queued
    · rw [committed, JobTable.status?_commit] at queued
      split at queued
      · have transition := awaits_transition awaits written
        rw [← wrote] at transition
        exact absurd (Option.some.inj queued) transition
      · exact queued

theorem started_running {world : World} (present : (world.table.rows jobId).isSome)
    (landed : ∀ struck, fault = some struck → struck.landed = true) :
    (answer (perform env) fault (.markRunning jobId) world).2.table.status? jobId =
      some .running := by
  obtain ⟨row, running, answered⟩ := answer_marks env (.markRunning jobId) rfl present fault
  have wrote : (answer (perform env) fault (.markRunning jobId) world).2 =
      { world with table := world.table.commit jobId row } := by
    cases fault with
    | none => exact answered.2
    | some struck =>
      have written := answered.2
      rwa [landed struck rfl, if_pos rfl] at written
  rw [wrote]
  change (world.table.commit jobId row).status? jobId = some .running
  rw [JobTable.status?_commit, if_pos rfl, running]

theorem pending_work (sound : system.Sound)
    (pending : system.world.table.status? jobId = some .queued → system.Pending jobId)
    (picking : system.Picking jobId (.work index fault))
    (stepped : system.step (.work index fault) = some after)
    (queued : after.world.table.status? jobId = some .queued) : after.Pending jobId := by
  obtain ⟨handling, process, call, resume, envelope, found, waits, read, awaits, moved, rfl⟩ :=
    step_work stepped
  have present : (system.world.table.rows envelope.jobId).isSome := by
    obtain ⟨_, _, _, row⟩ :=
      sound.sent (message_of_handling (List.mem_of_getElem? found)) read
    exact row
  rcases pending (queued_before awaits queued) with waiting | ⟨other, listed, held, on, received⟩ | unsent
  · left
    rwa [answer_queue (awaits_quiet awaits)]
  · right; left
    rcases mem_or_kept found listed { handling with process } with rfl | kept
    · obtain ⟨envelope', read', rfl⟩ := names_iff.mp on
      cases read.symm.trans read'
      rw [received] at awaits
      cases awaits
      have landed := fun struck => picking other resume struck found waits
      cases queued.symm.trans (started_running present landed)
    · exact ⟨other, kept, held, on, received⟩
  · exact .inr (.inr unsent)

theorem Pending.settle {handling : Handling env} (pending : system.Pending jobId)
    (found : system.handlings[index]? = some handling)
    (begun : handling.on jobId = true → handling.process.state ≠ .received) :
    Pending jobId { system with
      handlings := system.handlings.set index { handling with custody := .settled } } := by
  rcases pending with waiting | ⟨other, listed, held, on, received⟩ | unsent
  · exact .inl waiting
  · rcases mem_or_kept found listed { handling with custody := .settled } with rfl | kept
    · exact absurd received (begun on)
    · exact .inr (.inl ⟨other, kept, held, on, received⟩)
  · exact .inr (.inr unsent)

theorem pending_step {action : Action} (sound : system.Sound)
    (pending : system.world.table.status? jobId = some .queued → system.Pending jobId)
    (picking : system.Picking jobId action) (stepped : system.step action = some after)
    (queued : after.world.table.status? jobId = some .queued) : after.Pending jobId := by
  cases action with
  | serve index fault => exact pending_serve pending stepped queued
  | work index fault => exact pending_work sound pending picking stepped queued
  | submit submission =>
    obtain ⟨fresh, rfl⟩ := step_submit stepped
    rcases pending queued with waiting | held | ⟨rpc, listed, same, unpublished⟩
    · exact .inl waiting
    · exact .inr (.inl held)
    · exact .inr (.inr ⟨rpc, List.mem_append_left _ listed, same, unpublished⟩)
  | replaceFiles extractText =>
    cases stepped
    exact pending queued
  | deliver worker =>
    obtain ⟨message, queue, next, rfl⟩ := step_deliver stepped
    rcases pending queued with
      ⟨other, waiting, named⟩ | ⟨handling, listed, held, on, received⟩ | unsent
    · rw [next] at waiting
      rcases List.mem_cons.mp waiting with rfl | later
      · exact .inr (.inl ⟨_, List.mem_append_right _ (List.mem_singleton.mpr rfl), rfl, named, rfl⟩)
      · exact .inl ⟨other, later, named⟩
    · exact .inr (.inl ⟨handling, List.mem_append_left _ listed, held, on, received⟩)
    · exact .inr (.inr unsent)
  | settle index =>
    obtain ⟨handling, found, held, ended, rfl⟩ := step_settle stepped
    refine (pending queued).settle found fun on received => ?_
    obtain ⟨resume, waits⟩ := starting on received
    rw [Handling.ended, waits] at ended
    cases ended
  | cancel index =>
    obtain ⟨handling, found, held, threaded, rfl⟩ := step_cancel stepped
    refine (pending queued).settle found fun on received => ?_
    obtain ⟨resume, waits⟩ := starting on received
    rw [Handling.thread?, waits] at threaded
    cases threaded
  | loseConnection index =>
    obtain ⟨handling, found, held, rfl⟩ := step_loseConnection stepped
    rcases pending queued with ⟨message, waiting, named⟩ | ⟨other, listed, held', on, received⟩ | unsent
    · exact .inl ⟨message, List.mem_cons_of_mem _ waiting, named⟩
    · rcases mem_or_kept found listed { handling with custody := .returned } with rfl | kept
      · exact .inl ⟨_, List.mem_cons_self .., on⟩
      · exact .inr (.inl ⟨other, kept, held', on, received⟩)
    · exact .inr (.inr unsent)
  | crash index =>
    obtain ⟨handling, found, _, rfl⟩ := step_crash stepped
    rcases pending queued with ⟨message, waiting, named⟩ | ⟨other, listed, held, on, received⟩ | unsent
    · exact .inl ⟨message, List.mem_append_right _ waiting, named⟩
    · rcases mem_or_kept found listed handling.dead with rfl | kept
      · refine .inl ⟨other.message, List.mem_append_left _ ?_, on⟩
        rw [if_pos held]
        exact List.mem_singleton.mpr rfl
      · exact .inr (.inl ⟨other, kept, held, on, received⟩)
    · exact .inr (.inr unsent)

theorem pending_of_reaches {collection : Option Collection} {extractText : Extraction}
    (reaches : Reaches step (Picking jobId) (initial env collection extractText) system)
    (queued : system.world.table.status? jobId = some .queued) : system.Pending jobId := by
  have both : system.Sound ∧
      (system.world.table.status? jobId = some .queued → system.Pending jobId) := by
    refine reaches.invariant
      (fun system => system.Sound ∧
        (system.world.table.status? jobId = some .queued → system.Pending jobId))
      ?_ ⟨sound_initial env collection extractText, fun queued => by cases queued⟩
    intro before action after picking stepped holds
    exact ⟨sound_step holds.1 stepped, pending_step holds.1 holds.2 picking stepped⟩
  exact both.2 queued

/-- A request is atomic unless its publish raises, and then it leaves a queued row
at most. In every run in which no `mark_running` of a job raises before it is
written, the job's queued row has a message that a worker will pick up, if its
request was answered with the job id. -/
theorem submission_accounted (env : Env) :
    (∀ (submission : Submission) (plan : List (Option (Fault PyException))) (world : World),
      Unlanded plan →
      let ended := execPlanned (perform env) plan submission.handle world
      (plan[1]?.getD none = none → Accepted env submission world ended ∨ Refused world ended) ∧
        (plan[1]?.getD none ≠ none → Refused world ended ∨ Orphaned submission world ended)) ∧
      ∀ (collection : Option Collection) (extractText : Extraction) (system : System env)
        (jobId : String),
        Reaches step (Picking jobId) (initial env collection extractText) system →
          system.world.table.status? jobId = some .queued →
            system.Awaited jobId ∨ system.Unanswered jobId := by
  refine ⟨fun submission plan world unlanded => request_atomic unlanded, ?_⟩
  intro collection extractText system jobId reaches queued
  rcases pending_of_reaches reaches queued with
    waiting | ⟨handling, listed, held, on, received⟩ | ⟨rpc, listed, same, unpublished⟩
  · exact .inl (.inl waiting)
  · exact .inl (.inr ⟨handling, listed, held, on, starting on received⟩)
  · exact .inr ⟨rpc, listed, same, unanswered unpublished⟩

end System

namespace System

open Sample

/-- The broker cannot be reached after the row is there. -/
private def unreachable : List (Option (Fault PyException)) :=
  [none, some ⟨.exception ⟨.other "AMQPConnectionError", "connection refused"⟩, false⟩]

private theorem unlanded_unreachable : Unlanded unreachable := by
  intro fault member
  simp only [unreachable, List.mem_cons, List.not_mem_nil, or_false, reduceCtorEq, false_or,
    Option.some.injEq] at member
  rw [member]

theorem submission_accounted_sample :
    Orphaned pathJob fresh.world
        (execPlanned (perform Sample.env) unreachable pathJob.handle fresh.world) ∧
      ∃ system, Reaches step (Picking "1") fresh system ∧
        system.world.table.status? "1" = some .queued ∧ system.Awaited "1" := by
  obtain ⟨atomic, awaited⟩ := submission_accounted Sample.env
  constructor
  · have struck : unreachable[1]?.getD none ≠ none := fun clash => by cases clash
    refine ((atomic pathJob unreachable fresh.world unlanded_unreachable).2 struck).resolve_left ?_
    rintro ⟨raised, same⟩
    have row : ((execPlanned (perform Sample.env) unreachable pathJob.handle
        fresh.world).2.table.status? "1") = some .queued := rfl
    rw [same] at row
    cases row
  · obtain ⟨system, played, queued, rpc, response, only, answered⟩ : ∃ system,
        [Action.submit pathJob, .serve 0 none, .serve 0 none].foldlM step fresh = some system ∧
          system.world.table.status? "1" = some .queued ∧
          ∃ rpc response, system.rpcs = [rpc] ∧ rpc.process.body = .ret response :=
      ⟨_, rfl, rfl, _, _, rfl, rfl⟩
    have reaches : Reaches step (Picking "1") fresh system := by
      refine reaches_of_play (fun action member state => ?_) played
      simp only [List.mem_cons, List.not_mem_nil, or_false] at member
      rcases member with rfl | rfl | rfl <;> trivial
    refine ⟨system, reaches, queued, ?_⟩
    refine (awaited none Sample.extract system "1" reaches queued).resolve_right ?_
    rintro ⟨other, listed, _, unanswered⟩
    rw [only] at listed
    rw [List.mem_singleton.mp listed] at unanswered
    exact unanswered response answered

/-- The broker cannot be reached when the message is published. -/
private def orphanedRun : List Action :=
  [.submit pathJob, .serve 0 none, .serve 0 (some ⟨.exception
    ⟨.other "AMQPConnectionError", "connection refused"⟩, false⟩)]

/-- The connection to the database drops at `mark_running`. -/
private def droppedRun : List Action :=
  submitted pathJob 0 0 ++
    [.work 0 (some ⟨.exception ⟨.other "OperationalError", "connection closed"⟩, false⟩), .settle 0]

/-- The publish raises, and the row stays without a message. So it does where the
request was answered and `mark_running` raises. -/
theorem submission_orphaned :
    (¬ ∀ (env : Env) (submission : Submission) (plan : List (Option (Fault PyException)))
        (world : World), Unlanded plan →
        Accepted env submission world (execPlanned (perform env) plan submission.handle world) ∨
          Refused world (execPlanned (perform env) plan submission.handle world)) ∧
      (¬ ∀ (env : Env) (collection : Option Collection) (extractText : Extraction)
        (system : System env) (jobId : String),
        Reaches step (Picking jobId) (initial env collection extractText) system →
        system.world.table.status? jobId = some .queued → system.Awaited jobId) ∧
      ¬ ∀ (env : Env) (collection : Option Collection) (extractText : Extraction)
        (system : System env) (jobId : String),
        Reaches step anyStep (initial env collection extractText) system →
        system.world.table.status? jobId = some .queued →
          system.Awaited jobId ∨ system.Unanswered jobId := by
  refine ⟨?_, ?_, ?_⟩
  · intro atomic
    obtain ⟨raised, failed, row⟩ : ∃ raised,
        (execPlanned (perform Sample.env) unreachable pathJob.handle fresh.world).1 = .error raised ∧
          (execPlanned (perform Sample.env) unreachable pathJob.handle
            fresh.world).2.table.status? "1" = some .queued :=
      ⟨_, rfl, rfl⟩
    rcases atomic Sample.env pathJob unreachable fresh.world unlanded_unreachable with
      ⟨answered, _⟩ | ⟨_, same⟩
    · cases failed.symm.trans answered
    · rw [same] at row
      cases row
  · intro awaited
    obtain ⟨system, played, queued, empty, idle⟩ : ∃ system,
        orphanedRun.foldlM step fresh = some system ∧
          system.world.table.status? "1" = some .queued ∧ system.world.queue = [] ∧
          system.handlings = [] :=
      ⟨_, rfl, rfl, rfl, rfl⟩
    have reaches : Reaches step (Picking "1") fresh system := by
      refine reaches_of_play (fun action member state => ?_) played
      simp only [orphanedRun, List.mem_cons, List.not_mem_nil, or_false] at member
      rcases member with rfl | rfl | rfl <;> trivial
    rcases awaited Sample.env none Sample.extract system "1" reaches queued with
      ⟨message, waiting, _⟩ | ⟨handling, listed, _⟩
    · rw [empty] at waiting
      cases waiting
    · rw [idle] at listed
      cases listed
  · intro awaited
    obtain ⟨system, played, queued, empty, handling, only, settled, rpc, response, lone, answered⟩ :
        ∃ system, droppedRun.foldlM step fresh = some system ∧
          system.world.table.status? "1" = some .queued ∧ system.world.queue = [] ∧
          ∃ handling, system.handlings = [handling] ∧ handling.custody = .settled ∧
          ∃ rpc response, system.rpcs = [rpc] ∧ rpc.process.body = .ret response :=
      ⟨_, rfl, rfl, rfl, _, rfl, rfl, _, _, rfl, rfl⟩
    have reaches : Reaches step anyStep fresh system :=
      reaches_of_play (fun _ _ _ => trivial) played
    rcases awaited Sample.env none Sample.extract system "1" reaches queued with
      (⟨message, waiting, _⟩ | ⟨other, listed, held, _⟩) | ⟨other, listed, _, unanswered⟩
    · rw [empty] at waiting
      cases waiting
    · rw [only] at listed
      rw [List.mem_singleton.mp listed, settled] at held
      cases held
    · rw [lone] at listed
      rw [List.mem_singleton.mp listed] at unanswered
      exact unanswered response answered

end System

end DocContext
