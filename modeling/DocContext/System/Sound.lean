import DocContext.System.Model

/-! What each step of the system can do, and what holds in every state: job ids
are drawn once, every message in circulation is the envelope of a submission whose
row exists, and a job has at most one message that is not settled. -/

namespace DocContext

open Foundation Coroutine

namespace System

variable {env : Env} {system after : System env} {index worker : Nat}
  {fault : Option (Fault PyException)}

/-! One inversion lemma for each action. -/

theorem step_submit {submission : Submission}
    (stepped : system.step (.submit submission) = some after) :
    (∀ rpc ∈ system.rpcs, rpc.submission.jobId ≠ submission.jobId) ∧
      after = { system with rpcs := system.rpcs ++ [Rpc.start submission] } := by
  rw [step] at stepped
  split at stepped
  · cases stepped
  · rename_i fresh
    refine ⟨fun rpc member same => fresh ?_, (Option.some.inj stepped).symm⟩
    exact List.any_eq_true.mpr ⟨rpc, member, decide_eq_true same⟩

/-- What one call of a submission does: the row is written, or the call raised
before; the message is sent, or the call raised before. -/
inductive Served (submission : Submission) (before : Phase) (world : World) (next : Phase)
    (world' : World) : Prop where
  | created (was : before = .arrived) (row : Job)
      (free : world.table.rows submission.jobId = none) (queued : row.status = .queued)
      (now : next = .created ∨ next = .refused)
      (wrote : world' = { world with table := world.table.commit submission.jobId row })
  | refused (was : before = .arrived) (now : next = .refused) (same : world' = world)
  | published (was : before = .created) (wellFormed : submission.envelope.WellFormed)
      (now : next = .published ∨ next = .orphaned)
      (sent : world' = { world with queue := world.queue ++ [submission.envelope.toPayload] })
  | orphaned (was : before = .created) (now : next = .orphaned) (same : world' = world)

theorem served_of_awaits {submission : Submission} {before : Phase} {call : Call} {world : World}
    (awaits : Phase.Awaits submission.envelope before call) :
    Served submission before world
      (before.moves call (answer (perform env) fault call world).1)
      (answer (perform env) fault call world).2 := by
  cases awaits with
  | create =>
    rcases answer_create env fault submission.jobId submission.envelope.jobType
      submission.envelope.clientId submission.envelope.corpusId submission.envelope.documentId
      submission.envelope.fileType submission.envelope.filePath world with
      ⟨row, free, queued, wrote⟩ | ⟨same, raised, failed⟩
    · refine .created rfl row free queued ?_ wrote
      cases (answer (perform env) fault _ world).1 with
      | ok row => exact .inl rfl
      | error raised => exact .inr rfl
    · exact .refused rfl (congrArg _ failed) same
  | publish wellFormed =>
    rcases answer_publish env fault submission.envelope.toPayload world with
      sent | ⟨same, raised, failed⟩
    · refine .published rfl wellFormed ?_ sent
      cases (answer (perform env) fault _ world).1 with
      | ok _ => exact .inl rfl
      | error raised => exact .inr rfl
    · exact .orphaned rfl (congrArg _ failed) same

theorem step_serve_call (stepped : system.step (.serve index fault) = some after) :
    ∃ rpc process call resume, system.rpcs[index]? = some rpc ∧
      rpc.process.body = .await call resume ∧
      Phase.Awaits rpc.submission.envelope rpc.process.state call ∧
      process.state = rpc.process.state.moves call (answer (perform env) fault call system.world).1 ∧
      after = { system with
        world := (answer (perform env) fault call system.world).2
        rpcs := system.rpcs.set index { rpc with process } } := by
  obtain ⟨rpc, found, stepped⟩ := Option.bind_eq_some_iff.mp stepped
  obtain ⟨⟨process, world⟩, advanced, stepped⟩ := Option.bind_eq_some_iff.mp stepped
  cases stepped
  obtain ⟨call, resume, waits, awaits, moved, rfl⟩ := Process.advance_admitted advanced
  exact ⟨rpc, process, call, resume, found, waits, awaits, moved, rfl⟩

theorem step_serve (stepped : system.step (.serve index fault) = some after) :
    ∃ rpc process world, system.rpcs[index]? = some rpc ∧
      Served rpc.submission rpc.process.state system.world process.state world ∧
      after = { system with world, rpcs := system.rpcs.set index { rpc with process } } := by
  obtain ⟨rpc, process, call, resume, found, _, awaits, moved, rfl⟩ := step_serve_call stepped
  refine ⟨rpc, process, _, found, ?_, rfl⟩
  rw [moved]
  exact served_of_awaits awaits

theorem step_deliver (stepped : system.step (.deliver worker) = some after) :
    ∃ message queue, system.world.queue = message :: queue ∧
      after = { system with
        world := { system.world with queue }
        handlings := system.handlings ++ [Handling.start env worker message] } := by
  rw [step] at stepped
  split at stepped
  · cases stepped
  · rename_i message queue next
    split at stepped
    · exact ⟨message, queue, next, (Option.some.inj stepped).symm⟩
    · cases stepped

theorem admits_message {message : JsonValue} {stage : Stage} {call : Call}
    (admitted : (messageProtocol env message).admits stage call) :
    ∃ envelope, JobEnvelope.fromPayload env.repr message = .ok envelope ∧
      Stage.Awaits env envelope stage call := by
  unfold messageProtocol at admitted
  split at admitted
  · exact ⟨_, ‹_›, admitted⟩
  · exact admitted.elim

theorem messageProtocol_moves (env : Env) (message : JsonValue) :
    (messageProtocol env message).moves = Stage.moves := by
  unfold messageProtocol
  split <;> rfl

theorem step_work (stepped : system.step (.work index fault) = some after) :
    ∃ handling process call resume envelope, system.handlings[index]? = some handling ∧
      handling.process.body = .await call resume ∧
      JobEnvelope.fromPayload env.repr handling.message = .ok envelope ∧
      Stage.Awaits env envelope handling.process.state call ∧
      process.state =
        handling.process.state.moves call (answer (perform env) fault call system.world).1 ∧
      after = { system with
        world := (answer (perform env) fault call system.world).2
        handlings := system.handlings.set index { handling with process } } := by
  obtain ⟨handling, found, stepped⟩ := Option.bind_eq_some_iff.mp stepped
  obtain ⟨⟨process, world⟩, advanced, stepped⟩ := Option.bind_eq_some_iff.mp stepped
  obtain ⟨call, resume, waits, admitted, moved, rfl⟩ := Process.advance_admitted advanced
  obtain ⟨envelope, read, awaits⟩ := admits_message admitted
  rw [messageProtocol_moves] at moved
  dsimp only at stepped
  split at stepped
  · exact ⟨handling, process, call, resume, envelope, found, waits, read, awaits, moved,
      (Option.some.inj stepped).symm⟩
  · cases stepped

theorem step_work_mayGoOn (stepped : system.step (.work index fault) = some after) :
    ∃ handling process call resume, system.handlings[index]? = some handling ∧
      handling.process.body = .await call resume ∧
      process.body = resume (answer (perform env) fault call system.world).1 ∧
      handling.mayGoOn { handling with process } fault = true ∧
      after.handlings[index]? = some { handling with process } := by
  obtain ⟨handling, found, stepped⟩ := Option.bind_eq_some_iff.mp stepped
  obtain ⟨⟨process, world⟩, advanced, stepped⟩ := Option.bind_eq_some_iff.mp stepped
  obtain ⟨call, resume, waits, _, _, resumed, _⟩ := Process.advance_resumed advanced
  dsimp only at stepped
  split at stepped
  · rename_i goesOn
    cases stepped
    exact ⟨handling, process, call, resume, found, waits, resumed, goesOn,
      List.getElem?_set_self (List.getElem?_eq_some_iff.mp found).1⟩
  · cases stepped

/-- A cancellation ends a handler at whatever it awaits. -/
theorem ended_of_cancelled {handling : Handling env} {call : Call}
    {resume : Except (Raised PyException) (Reply call) → Task Unit}
    (waits : handling.process.body = .await call resume) :
    (resume (.error .cancelled)).ended = true := by
  obtain ⟨worker, message, custody, stage, body, follows⟩ := handling
  change body = _ at waits
  subst waits
  obtain ⟨envelope, _, awaits⟩ := admits_message follows.1
  have rest := follows.2 (.error .cancelled)
  rw [messageProtocol_moves] at rest
  cases left : resume (.error .cancelled) with
  | ret value => rfl
  | raise raised => rfl
  | await next resume' =>
    rw [left] at rest
    obtain ⟨_, _, more⟩ := admits_message rest.1
    cases awaits <;> cases more

/-- What goes on after its message is settled is a thread. -/
theorem threaded_of_mayGoOn {handling : Handling env} {process : Process _ _} {call : Call}
    {resume : Except (Raised PyException) (Reply call) → Task Unit} {world : World}
    (waits : handling.process.body = .await call resume)
    (resumed : process.body = resume (answer (perform env) fault call world).1)
    (goesOn : handling.mayGoOn { handling with process } fault = true)
    (settled : handling.custody = .settled) (threaded : handling.Threaded) :
    Handling.Threaded { handling with process } := by
  cases fault with
  | none =>
    have thread : Handling.thread? { handling with process } = handling.thread? := by
      simpa [Handling.mayGoOn, settled] using goesOn
    refine .inr ?_
    rw [thread]
    exact threaded.resolve_left (by simp [Handling.ended, waits, Coroutine.ended])
  | some fault =>
    have cancelled : fault.raised = .cancelled := by
      simpa [Handling.mayGoOn, settled] using goesOn
    refine .inl ?_
    rw [answer_some, cancelled] at resumed
    rw [Handling.ended, resumed]
    exact ended_of_cancelled waits

theorem step_settle (stepped : system.step (.settle index) = some after) :
    ∃ handling, system.handlings[index]? = some handling ∧ handling.custody = .held ∧
      handling.ended = true ∧
      after = { system with
        handlings := system.handlings.set index { handling with custody := .settled } } := by
  obtain ⟨handling, found, stepped⟩ := Option.bind_eq_some_iff.mp stepped
  split at stepped
  · rename_i ready
    rw [Bool.and_eq_true, decide_eq_true_eq] at ready
    exact ⟨handling, found, ready.1, ready.2, (Option.some.inj stepped).symm⟩
  · cases stepped

theorem step_cancel (stepped : system.step (.cancel index) = some after) :
    ∃ handling, system.handlings[index]? = some handling ∧ handling.custody = .held ∧
      handling.thread?.isSome = true ∧
      after = { system with
        handlings := system.handlings.set index { handling with custody := .settled } } := by
  obtain ⟨handling, found, stepped⟩ := Option.bind_eq_some_iff.mp stepped
  split at stepped
  · rename_i threaded
    rw [Bool.and_eq_true, decide_eq_true_eq] at threaded
    exact ⟨handling, found, threaded.1, threaded.2, (Option.some.inj stepped).symm⟩
  · cases stepped

/-- A message is settled when its handler is over, or was cancelled and has a thread left. -/
theorem step_dismisses {action : Action} (index : Nat)
    (dismisses : action = .settle index ∨ action = .cancel index)
    (stepped : system.step action = some after) :
    ∃ handling, system.handlings[index]? = some handling ∧ handling.custody = .held ∧
      handling.Threaded ∧ after = { system with
        handlings := system.handlings.set index { handling with custody := .settled } } := by
  rcases dismisses with rfl | rfl
  · obtain ⟨handling, found, held, ended, same⟩ := step_settle stepped
    exact ⟨handling, found, held, .inl ended, same⟩
  · obtain ⟨handling, found, held, threaded, same⟩ := step_cancel stepped
    exact ⟨handling, found, held, .inr threaded, same⟩

theorem step_loseConnection (stepped : system.step (.loseConnection index) = some after) :
    ∃ handling, system.handlings[index]? = some handling ∧ handling.custody = .held ∧
      after = { system with
        world := { system.world with queue := handling.message :: system.world.queue }
        handlings := system.handlings.set index { handling with custody := .returned } } := by
  obtain ⟨handling, found, stepped⟩ := Option.bind_eq_some_iff.mp stepped
  split at stepped
  · rename_i held
    exact ⟨handling, found, held, (Option.some.inj stepped).symm⟩
  · cases stepped

theorem step_crash (stepped : system.step (.crash index) = some after) :
    ∃ handling, system.handlings[index]? = some handling ∧ handling.concluded = false ∧
      after = { system with
        world := { system.world with
          queue := (if handling.custody = .held then [handling.message] else []) ++
            system.world.queue }
        handlings := system.handlings.set index handling.dead } := by
  obtain ⟨handling, found, stepped⟩ := Option.bind_eq_some_iff.mp stepped
  split at stepped
  · cases stepped
  · rename_i working
    exact ⟨handling, found, Bool.eq_false_iff.mpr working, (Option.some.inj stepped).symm⟩

/-- The action is the broker's, a worker's end or a change of files: no request
comes in and no call is answered. -/
def Quiet : Action → Prop
  | .submit _ | .serve .. | .work .. => False
  | _ => True

theorem step_quiet {action : Action} (stepped : system.step action = some after)
    (quiet : Quiet action) :
    after.rpcs = system.rpcs ∧ after.world.table = system.world.table ∧
      after.world.collection = system.world.collection := by
  cases action with
  | submit | serve | work => exact quiet.elim
  | replaceFiles extractText =>
    cases stepped
    exact ⟨rfl, rfl, rfl⟩
  | deliver worker =>
    obtain ⟨message, queue, next, rfl⟩ := step_deliver stepped
    exact ⟨rfl, rfl, rfl⟩
  | settle index | cancel index =>
    obtain ⟨handling, _, _, _, rfl⟩ := step_dismisses index (by simp) stepped
    exact ⟨rfl, rfl, rfl⟩
  | loseConnection index =>
    obtain ⟨handling, _, _, rfl⟩ := step_loseConnection stepped
    exact ⟨rfl, rfl, rfl⟩
  | crash index =>
    obtain ⟨handling, _, _, rfl⟩ := step_crash stepped
    exact ⟨rfl, rfl, rfl⟩

theorem step_answers {action : Action} (stepped : system.step action = some after) :
    (after.world.table = system.world.table ∧ after.world.collection = system.world.collection) ∨
      ∃ call fault, after.world = (answer (perform env) fault call system.world).2 := by
  cases action with
  | submit submission =>
    obtain ⟨fresh, rfl⟩ := step_submit stepped
    exact .inl ⟨rfl, rfl⟩
  | serve index fault =>
    obtain ⟨rpc, process, call, resume, _, _, _, _, rfl⟩ := step_serve_call stepped
    exact .inr ⟨call, fault, rfl⟩
  | work index fault =>
    obtain ⟨handling, process, call, resume, envelope, _, _, _, _, _, rfl⟩ := step_work stepped
    exact .inr ⟨call, fault, rfl⟩
  | replaceFiles | deliver | settle | cancel | loseConnection | crash =>
    exact .inl (step_quiet stepped trivial).2

theorem stock_of_collection {world world' : World} (same : world'.collection = world.collection) :
    world'.stock = world.stock := by
  rw [World.stock, same, World.stock]

/-- What a step can do to the points: nothing, or a worker writes the points of a job, or
removes those of its document. -/
theorem step_stock {action : Action} (stepped : system.step action = some after) :
    after.world.stock = system.world.stock ∨
      (∃ envelope chunks vectors stored,
        DocumentWorker.storedChunks env envelope chunks vectors = .ok stored ∧
        after.world.stock =
          Store.write ((stored.map StoredChunk.point).map Point.entry) system.world.stock) ∨
      ∃ envelope : JobEnvelope, after.world.stock =
        Store.remove (inDocument envelope.clientId envelope.documentId) system.world.stock := by
  cases action with
  | submit submission =>
    obtain ⟨fresh, rfl⟩ := step_submit stepped
    exact .inl rfl
  | serve index fault =>
    obtain ⟨rpc, process, call, resume, _, _, awaits, _, rfl⟩ := step_serve_call stepped
    have reads : call.writesPoints = false := by
      generalize rpc.process.state = phase at awaits
      cases awaits <;> rfl
    exact .inl (answer_stock env call fault system.world reads)
  | work index fault =>
    obtain ⟨handling, process, call, resume, envelope, _, _, _, awaits, _, rfl⟩ :=
      step_work stepped
    rcases awaits.stock fault system.world with
      same | ⟨chunks, vectors, stored, _, paired, written⟩ | ⟨_, removed⟩
    · exact .inl same
    · exact .inr (.inl ⟨envelope, chunks, vectors, stored, paired, written⟩)
    · exact .inr (.inr ⟨envelope, removed⟩)
  | replaceFiles | deliver | settle | cancel | loseConnection | crash =>
    exact .inl (stock_of_collection (step_quiet stepped trivial).2.2)

/-! What holds in every state. -/

def submissions (system : System env) : List Submission :=
  system.rpcs.map fun rpc => rpc.submission

theorem submissions_step {action : Action} (stepped : system.step action = some after)
    (old : ∀ submission, action ≠ .submit submission) : after.submissions = system.submissions := by
  cases action with
  | submit submission => exact absurd rfl (old submission)
  | serve index fault =>
    obtain ⟨rpc, process, world, found, _, rfl⟩ := step_serve stepped
    exact map_replace found rfl
  | work index fault =>
    obtain ⟨handling, process, call, resume, envelope, found, _, _, _, _, rfl⟩ := step_work stepped
    rfl
  | replaceFiles | deliver | settle | cancel | loseConnection | crash =>
    rw [submissions, (step_quiet stepped trivial).1, submissions]

theorem submissions_grow {action : Action} {submission : Submission}
    (stepped : system.step action = some after) (listed : submission ∈ system.submissions) :
    submission ∈ after.submissions := by
  by_cases new : ∃ fresh, action = .submit fresh
  · obtain ⟨fresh, rfl⟩ := new
    obtain ⟨_, rfl⟩ := step_submit stepped
    rw [submissions, List.map_append]
    exact List.mem_append_left _ listed
  · rwa [submissions_step stepped fun fresh same => new ⟨fresh, same⟩]

/-- The messages waiting at the broker, or handed to a worker at some time. -/
def messages (system : System env) : List JsonValue :=
  system.world.queue ++ system.handlings.map fun handling => handling.message

/-- The message is the envelope of a submission, and the row is there. -/
def Known (system : System env) (message : JsonValue) : Prop :=
  ∃ submission ∈ system.submissions, submission.envelope.WellFormed ∧
    message = submission.envelope.toPayload ∧
    (system.world.table.rows submission.jobId).isSome

structure Sound (system : System env) : Prop where
  distinct : (system.submissions.map Submission.jobId).Nodup
  created : ∀ rpc ∈ system.rpcs, rpc.process.state = .created →
    (system.world.table.rows rpc.submission.jobId).isSome
  known : ∀ message ∈ system.messages, system.Known message
  threaded : ∀ handling ∈ system.handlings, handling.custody = .settled → handling.Threaded

theorem Known.mono {message : JsonValue} (known : system.Known message)
    (submitted : ∀ submission ∈ system.submissions, submission ∈ after.submissions)
    (rows : ∀ jobId, (system.world.table.rows jobId).isSome →
      (after.world.table.rows jobId).isSome) : after.Known message := by
  obtain ⟨submission, member, wellFormed, same, row⟩ := known
  exact ⟨submission, submitted submission member, wellFormed, same, rows _ row⟩

/-- What a message in circulation says is what its submission sent. -/
theorem Sound.sent {message : JsonValue} {envelope : JobEnvelope} (sound : system.Sound)
    (member : message ∈ system.messages)
    (read : JobEnvelope.fromPayload env.repr message = .ok envelope) :
    ∃ submission ∈ system.submissions, submission.envelope = envelope ∧
      (system.world.table.rows envelope.jobId).isSome := by
  obtain ⟨submission, listed, wellFormed, rfl, row⟩ := sound.known message member
  rw [JobEnvelope.fromPayload_of_wellFormed env.repr wellFormed] at read
  cases read
  exact ⟨submission, listed, rfl, row⟩

theorem message_of_handling {handling : Handling env} (member : handling ∈ system.handlings) :
    handling.message ∈ system.messages :=
  List.mem_append_right _ (List.mem_map.mpr ⟨handling, member, rfl⟩)

theorem sound_initial (env : Env) (collection : Option Collection) (extractText : Extraction) :
    (initial env collection extractText).Sound where
  distinct := List.nodup_nil
  created := by simp [initial]
  known := by simp [initial, messages]
  threaded := by simp [initial]

theorem sound_submit {submission : Submission} (sound : system.Sound)
    (stepped : system.step (.submit submission) = some after) : after.Sound := by
  obtain ⟨fresh, rfl⟩ := step_submit stepped
  have submitted : ({ system with rpcs := system.rpcs ++ [Rpc.start submission] } :
      System env).submissions = system.submissions ++ [submission] := by
    rw [submissions, List.map_append]
    rfl
  constructor
  · rw [submitted, List.map_append, List.nodup_append]
    refine ⟨sound.distinct, List.nodup_singleton _, ?_⟩
    intro jobId known other new same
    obtain ⟨earlier, member, rfl⟩ := List.mem_map.mp known
    obtain ⟨rpc, listed, rfl⟩ := List.mem_map.mp member
    rw [List.mem_singleton.mp new] at same
    exact fresh rpc listed same
  · intro rpc member reached
    rcases List.mem_append.mp member with earlier | new
    · exact sound.created rpc earlier reached
    · rw [List.mem_singleton.mp new] at reached
      cases reached
  · intro message member
    refine (sound.known message member).mono (fun other listed => ?_) fun _ row => row
    rw [submitted]
    exact List.mem_append_left _ listed
  · exact sound.threaded

theorem Served.rows {submission : Submission} {before next : Phase} {world world' : World}
    (served : Served submission before world next world') {jobId : String}
    (present : (world.table.rows jobId).isSome) : (world'.table.rows jobId).isSome := by
  cases served with
  | created was row free queued now wrote =>
    rw [wrote, JobTable.commit_rows, Function.update_apply]
    split
    · rfl
    · exact present
  | refused was now same => rwa [same]
  | published was wellFormed now sent => rwa [sent]
  | orphaned was now same => rwa [same]

theorem sound_serve (sound : system.Sound)
    (stepped : system.step (.serve index fault) = some after) : after.Sound := by
  obtain ⟨rpc, process, world, found, served, rfl⟩ := step_serve stepped
  have listed := List.mem_of_getElem? found
  have same : ({ system with world, rpcs := system.rpcs.set index { rpc with process } } :
      System env).submissions = system.submissions := map_replace found rfl
  have before {message : JsonValue} (earlier : message ∈ system.messages) :
      Known { system with world, rpcs := system.rpcs.set index { rpc with process } } message :=
    (sound.known message earlier).mono (fun other member => by rwa [same]) fun _ => served.rows
  constructor
  · rw [same]
    exact sound.distinct
  · intro other member reached
    rcases List.mem_or_eq_of_mem_set member with earlier | rfl
    · exact served.rows (sound.created other earlier reached)
    · change process.state = .created at reached
      change (world.table.rows rpc.submission.jobId).isSome
      rw [reached] at served
      cases served with
      | created was row free queued now wrote =>
        rw [wrote]
        simp
      | refused was now same => cases now
      | published was wellFormed now sent => rcases now with now | now <;> cases now
      | orphaned was now same => cases now
  · intro message member
    rcases List.mem_append.mp member with queued | handed
    · change message ∈ world.queue at queued
      cases served with
      | created was row free waiting now wrote =>
        rw [wrote] at queued
        exact before (List.mem_append_left _ queued)
      | refused was now kept | orphaned was now kept =>
        rw [kept] at queued
        exact before (List.mem_append_left _ queued)
      | published was wellFormed now sent =>
        rw [sent, List.mem_append, List.mem_singleton] at queued
        rcases queued with earlier | rfl
        · exact before (List.mem_append_left _ earlier)
        · refine ⟨rpc.submission, ?_, wellFormed, rfl, ?_⟩
          · rw [same]
            exact List.mem_map.mpr ⟨rpc, listed, rfl⟩
          · rw [sent]
            exact sound.created rpc listed was
    · exact before (List.mem_append_right _ handed)
  · exact sound.threaded

/-- A step that replaces one handling by another of the same message. -/
theorem sound_replace {handling next : Handling env} {world : World} (sound : system.Sound)
    (found : system.handlings[index]? = some handling)
    (same : next.message = handling.message)
    (rows : ∀ jobId, (system.world.table.rows jobId).isSome → (world.table.rows jobId).isSome)
    (queue : ∀ message ∈ world.queue, message = handling.message ∨ message ∈ system.world.queue)
    (threaded : next.custody = .settled → next.Threaded) :
    ({ system with world, handlings := system.handlings.set index next } : System env).Sound := by
  have messages : (system.handlings.set index next).map (fun handling => handling.message) =
      system.handlings.map fun handling => handling.message := map_replace found same
  constructor
  · exact sound.distinct
  · exact fun rpc member reached => rows _ (sound.created rpc member reached)
  · intro message member
    refine (sound.known message ?_).mono (fun _ listed => listed) rows
    rcases List.mem_append.mp member with queued | handed
    · rcases queue message queued with rfl | earlier
      · exact List.mem_append_right _ (List.mem_map.mpr ⟨handling, List.mem_of_getElem? found, rfl⟩)
      · exact List.mem_append_left _ earlier
    · change message ∈ (system.handlings.set index next).map _ at handed
      rw [messages] at handed
      exact List.mem_append_right _ handed
  · intro other member settled
    rcases List.mem_or_eq_of_mem_set member with earlier | rfl
    · exact sound.threaded other earlier settled
    · exact threaded settled

theorem awaits_quiet {envelope : JobEnvelope} {stage : Stage} {call : Call}
    (awaits : Stage.Awaits env envelope stage call) (payload : JsonValue) :
    call ≠ .publish payload := by
  cases awaits <;> exact fun clash => by cases clash

theorem awaits_written {envelope : JobEnvelope} {stage : Stage} {call : Call}
    (awaits : Stage.Awaits env envelope stage call) {key : String} {status : JobStatus}
    (written : call.written? = some (key, status)) : key = envelope.jobId := by
  cases awaits <;> cases written <;> rfl

section Others

variable {envelope : JobEnvelope} {stage : Stage} {call : Call} {world : World} {jobId : String}

theorem status_of_other (awaits : Stage.Awaits env envelope stage call)
    (other : envelope.jobId ≠ jobId) :
    (answer (perform env) fault call world).2.table.status? jobId = world.table.status? jobId := by
  apply answer_status
  intro key status written
  rw [awaits_written awaits written]
  exact other

theorem statuses_of_other (awaits : Stage.Awaits env envelope stage call)
    (other : envelope.jobId ≠ jobId) :
    (answer (perform env) fault call world).2.table.statuses jobId =
      world.table.statuses jobId := by
  cases written : call.written? with
  | none => rw [answer_table written]
  | some entry =>
    obtain ⟨key, status⟩ := entry
    rcases answer_written env call fault world written with ⟨same, _⟩ | ⟨row, _, wrote⟩
    · rw [same]
    · rw [wrote, JobTable.statuses_commit, if_neg, List.append_nil]
      rw [awaits_written awaits written]
      exact other

end Others

theorem sound_step {action : Action} (sound : system.Sound)
    (stepped : system.step action = some after) : after.Sound := by
  cases action with
  | submit submission => exact sound_submit sound stepped
  | serve index fault => exact sound_serve sound stepped
  | replaceFiles extractText =>
    cases stepped
    exact ⟨sound.distinct, sound.created, sound.known, sound.threaded⟩
  | deliver worker =>
    obtain ⟨message, queue, next, rfl⟩ := step_deliver stepped
    refine ⟨sound.distinct, sound.created, fun other member => sound.known other ?_,
      fun handling member settled => ?_⟩
    · rw [messages, next]
      simp only [messages, Handling.start, List.map_append, List.map_singleton, List.mem_append,
        List.mem_cons] at member ⊢
      tauto
    · rcases List.mem_append.mp member with earlier | new
      · exact sound.threaded handling earlier settled
      · rw [List.mem_singleton.mp new] at settled
        cases settled
  | work index fault =>
    obtain ⟨_, _, _, _, found', waits, resumed, goesOn, now⟩ := step_work_mayGoOn stepped
    obtain ⟨handling, process, _, _, envelope, found, _, _, awaits, _, rfl⟩ := step_work stepped
    cases found'.symm.trans found
    rw [List.getElem?_set_self (List.getElem?_eq_some_iff.mp found).1] at now
    cases now
    refine sound_replace sound found rfl (fun _ => answer_rows) (fun message queued => ?_) ?_
    · rw [answer_queue (awaits_quiet awaits)] at queued
      exact .inr queued
    · exact fun settled => threaded_of_mayGoOn waits resumed goesOn settled
        (sound.threaded _ (List.mem_of_getElem? found) settled)
  | settle index | cancel index =>
    obtain ⟨handling, found, _, threaded, rfl⟩ := step_dismisses index (by simp) stepped
    exact sound_replace sound found rfl (fun _ row => row) (fun _ => .inr) fun _ => threaded
  | loseConnection index =>
    obtain ⟨handling, found, _, rfl⟩ := step_loseConnection stepped
    exact sound_replace sound found rfl (fun _ row => row) (fun _ => List.mem_cons.mp)
      fun settled => by cases settled
  | crash index =>
    obtain ⟨handling, found, _, rfl⟩ := step_crash stepped
    refine sound_replace sound found rfl (fun _ row => row) (fun message queued => ?_)
      fun _ => .inl rfl
    rcases List.mem_append.mp queued with back | earlier
    · split at back
      · exact .inl (List.mem_singleton.mp back)
      · cases back
    · exact .inr earlier

theorem sound_of_reaches {allowed : System env → Action → Prop} {collection : Option Collection}
    {extractText : Extraction}
    (reaches : Reaches step allowed (initial env collection extractText) system) : system.Sound :=
  reaches.invariant Sound (fun _ _ _ _ stepped sound => sound_step sound stepped)
    (sound_initial env collection extractText)

end System

end DocContext
