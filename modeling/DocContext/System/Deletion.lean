import DocContext.System.Agreement

/-! Deleting a document. The queue keeps the order in which requests were
accepted, but a delete job that is handed out while an index job of the document, or a thread
of one, is still at work may find nothing to delete. -/

namespace DocContext

open Foundation Coroutine

/-- No point of the document is stored. -/
def Cleared (clientId documentId : String) (world : World) : Prop :=
  Store.Lacks (inDocument clientId documentId) world.stock

/-- An index job of the document. -/
def JobEnvelope.indexes (clientId documentId : String) (envelope : JobEnvelope) : Bool :=
  envelope.jobType = .indexDocument && envelope.clientId = clientId &&
    envelope.documentId = documentId

theorem delete_indexes {envelope : JobEnvelope} (delete : envelope.jobType = .deleteDocument)
    (clientId documentId : String) : envelope.indexes clientId documentId = false := by
  rw [JobEnvelope.indexes, delete]
  rfl

/-- What a worker at a stage of a delete job knows of the document. -/
def Clears (clientId documentId : String) (world : World) : Stage → Prop
  | .finished | .succeeded => Cleared clientId documentId world
  | .extracted _ | .chunked _ | .embedded .. => False
  | _ => True

section Answers

variable {env : Env} {envelope : JobEnvelope} {stage : Stage} {call : Call} {world : World}
  {fault : Option (Fault PyException)} {clientId documentId : String}

theorem Cleared.read (cleared : Cleared clientId documentId world)
    (reads : call.writesPoints = false) :
    Cleared clientId documentId (answer (perform env) fault call world).2 := by
  rw [Cleared, answer_stock env call fault world reads]
  exact cleared

/-- A document that has no points gets none from a job that does not index it. -/
theorem Cleared.answer (cleared : Cleared clientId documentId world)
    (awaits : Stage.Awaits env envelope stage call)
    (other : envelope.indexes clientId documentId = false) :
    Cleared clientId documentId (answer (perform env) fault call world).2 := by
  rcases awaits.stock fault world with
    same | ⟨chunks, vectors, stored, index, paired, written⟩ | ⟨_, removed⟩
  · rw [Cleared, same]
    exact cleared
  · rw [Cleared, written]
    refine cleared.write fun entry member => ?_
    obtain ⟨point, pointed, rfl⟩ := List.mem_map.mp member
    obtain ⟨chunk, listed, rfl⟩ := List.mem_map.mp pointed
    obtain ⟨pair, _, rfl⟩ := storedChunks_mem paired listed
    rw [← Bool.not_eq_true, inDocument_iff]
    rintro ⟨client, document⟩
    have own : envelope.indexes clientId documentId = true := by
      rw [JobEnvelope.indexes, Bool.and_eq_true, Bool.and_eq_true]
      exact ⟨⟨decide_eq_true index, decide_eq_true (Option.some.inj client)⟩,
        decide_eq_true (Option.some.inj document)⟩
    cases own.symm.trans other
  · rw [Cleared, removed]
    exact cleared.remove _

theorem Clears.mono {world' : World} (clears : Clears clientId documentId world stage)
    (kept : Cleared clientId documentId world → Cleared clientId documentId world') :
    Clears clientId documentId world' stage := by
  cases stage with
  | finished | succeeded => exact kept clears
  | extracted | chunked | embedded => exact clears.elim
  | received | refused | running | counted | failed | closed | cancelled => trivial

theorem clears_afterRaise (raised : Raised PyException) :
    Clears clientId documentId world (Stage.afterRaise raised) := by
  cases raised <;> trivial

/-- Each call of a delete job. -/
theorem Clears.answer (awaits : Stage.Awaits env envelope stage call)
    (delete : envelope.jobType = .deleteDocument)
    (clears : Clears envelope.clientId envelope.documentId world stage) :
    Clears envelope.clientId envelope.documentId (answer (perform env) fault call world).2
      (stage.moves call (answer (perform env) fault call world).1) := by
  cases awaits with
  | extract index | rejectPath index | write index => cases delete.symm.trans index
  | chunk | embed | list | createCollection | createPayloadIndex | rejectVectors =>
    exact clears.elim
  | start =>
    cases (Coroutine.answer (perform env) fault (.markRunning envelope.jobId) world).1 <;> trivial
  | fail => trivial
  | succeed =>
    cases (Coroutine.answer (perform env) fault (.markSucceeded envelope.jobId) world).1 with
    | ok row => exact Cleared.read clears rfl
    | error raised => exact clears_afterRaise raised
  | count =>
    cases reply : (Coroutine.answer (perform env) fault
      (.count (documentFilter envelope.clientId envelope.documentId)) world).1 with
    | error raised => exact clears_afterRaise raised
    | ok count =>
      change Clears _ _ _ (if count = 0 then .finished else .counted)
      by_cases zero : count = 0
      · rw [if_pos zero]
        cases fault with
        | some fault => cases reply
        | none =>
          rw [zero, answer_none] at reply
          exact Cleared.read (lacks_of_count_zero reply) rfl
      · rw [if_neg zero]
        trivial
  | delete =>
    cases reply : (Coroutine.answer (perform env) fault
      (.deletePoints (documentFilter envelope.clientId envelope.documentId)) world).1 with
    | error raised => exact clears_afterRaise raised
    | ok _ =>
      cases fault with
      | some fault => cases reply
      | none =>
        rw [answer_none] at reply ⊢
        rcases perform_deletePoints env (documentFilter envelope.clientId envelope.documentId) world
          with ⟨_, raised, failed⟩ | removed
        · cases reply.symm.trans failed
        · change Store.Lacks _ (perform env _ world).2.stock
          rw [removed]
          exact Store.lacks_remove _ _

theorem finished_of_succeeds (awaits : Stage.Awaits env envelope stage call) {key : String}
    (written : call.written? = some (key, .succeeded)) : stage = .finished := by
  cases awaits <;> cases written
  rfl

/-- When the row of a delete job reads succeeded, the document has no points. -/
theorem Cleared.succeeded (awaits : Stage.Awaits env envelope stage call)
    (delete : envelope.jobType = .deleteDocument)
    (clears : Clears envelope.clientId envelope.documentId world stage)
    (before : world.table.status? envelope.jobId = some .succeeded →
      Cleared envelope.clientId envelope.documentId world)
    (succeeded : (Coroutine.answer (perform env) fault call world).2.table.status? envelope.jobId =
      some .succeeded) :
    Cleared envelope.clientId envelope.documentId
      (Coroutine.answer (perform env) fault call world).2 := by
  have other := delete_indexes delete envelope.clientId envelope.documentId
  cases written : call.written? with
  | none =>
    rw [answer_table written] at succeeded
    exact (before succeeded).answer awaits other
  | some entry =>
    obtain ⟨key, status⟩ := entry
    rcases answer_written env call fault world written with ⟨same, _⟩ | ⟨row, wrote, committed⟩
    · rw [same] at succeeded
      exact (before succeeded).answer awaits other
    · rw [committed, JobTable.status?_commit] at succeeded
      split at succeeded
      · have done : status = .succeeded := wrote.symm.trans (Option.some.inj succeeded)
        subst done
        rw [finished_of_succeeds awaits written] at clears
        exact Cleared.answer clears awaits other
      · exact (before succeeded).answer awaits other

end Answers

/-- The submission asks for an index job of the document. -/
def Submission.indexes (clientId documentId : String) (submission : Submission) : Bool :=
  submission.envelope.indexes clientId documentId

/-- The message is an index job of the document. -/
def indexes (env : Env) (clientId documentId : String) (message : JsonValue) : Bool :=
  (JobEnvelope.fromPayload env.repr message).toOption.any
    (JobEnvelope.indexes clientId documentId)

theorem indexes_of_read {env : Env} {clientId documentId : String} {message : JsonValue}
    {envelope : JobEnvelope} (read : JobEnvelope.fromPayload env.repr message = .ok envelope) :
    indexes env clientId documentId message = envelope.indexes clientId documentId := by
  rw [indexes, read]
  rfl

namespace System

variable {env : Env} {system after : System env} {index worker : Nat}
  {fault : Option (Fault PyException)} {rpc : DeleteDocumentRequest} {jobId : String}

/-- No row without a submission. -/
def Filed (system : System env) : Prop :=
  ∀ jobId, (system.world.table.rows jobId).isSome →
    jobId ∈ system.submissions.map Submission.jobId

theorem Agrees.filed (agrees : system.Agrees) : system.Filed := by
  intro jobId present
  obtain ⟨row, found⟩ := Option.isSome_iff_exists.mp present
  obtain ⟨submission, listed, same, _⟩ := agrees jobId row found
  exact List.mem_map.mpr ⟨submission, listed, same⟩

/-- Nobody asks for the document to be indexed any more. -/
def Later (rpc : DeleteDocumentRequest) (_ : System env) : Action → Prop
  | .submit submission => submission.indexes rpc.clientId rpc.documentId = false
  | _ => True

/-- What is more, the delete job is handed out only when every worker is done with
the index jobs of the document it was handed. -/
def Ordered (rpc : DeleteDocumentRequest) (jobId : String) (system : System env) : Action → Prop
  | .submit submission => submission.indexes rpc.clientId rpc.documentId = false
  | .deliver _ => ∀ message, system.world.queue.head? = some message →
      names env jobId message = true → ∀ handling ∈ system.handlings,
        indexes env rpc.clientId rpc.documentId handling.message = true → handling.concluded = true
  | _ => True

/-- Like `Ordered`, but a worker counts as done with an index job as soon as its message is
settled. -/
def Dismissed (rpc : DeleteDocumentRequest) (jobId : String) (system : System env) : Action → Prop
  | .submit submission => submission.indexes rpc.clientId rpc.documentId = false
  | .deliver _ => ∀ message, system.world.queue.head? = some message →
      names env jobId message = true → ∀ handling ∈ system.handlings,
        indexes env rpc.clientId rpc.documentId handling.message = true →
          handling.custody = .settled
  | _ => True

/-- The delete job has been asked for, and no request to index the document is
open. -/
structure Asked (rpc : DeleteDocumentRequest) (jobId : String) (system : System env) : Prop where
  sound : system.Sound
  asked : .delete rpc jobId ∈ system.submissions
  answered : ∀ earlier ∈ system.rpcs,
    earlier.submission.indexes rpc.clientId rpc.documentId = true →
      earlier.process.body.ended = true

/-- The delete job waits, behind every index job of the document. -/
structure Waiting (rpc : DeleteDocumentRequest) (jobId : String) (system : System env) : Prop where
  queue : system.world.queue.Pairwise fun first second =>
    names env jobId first = true → indexes env rpc.clientId rpc.documentId second = false
  unhanded : ∀ handling ∈ system.handlings, handling.on jobId = false
  unsucceeded : system.world.table.status? jobId ≠ some .succeeded

/-- The delete job has been handed out, and no index job of the document is left. -/
structure Handed (rpc : DeleteDocumentRequest) (jobId : String) (system : System env) : Prop where
  queue : ∀ message ∈ system.world.queue,
    indexes env rpc.clientId rpc.documentId message = false
  concluded : ∀ handling ∈ system.handlings,
    indexes env rpc.clientId rpc.documentId handling.message = true → handling.concluded = true
  clears : ∀ handling ∈ system.handlings, handling.on jobId = true →
    Clears rpc.clientId rpc.documentId system.world handling.process.state
  cleared : system.world.table.status? jobId = some .succeeded →
    Cleared rpc.clientId rpc.documentId system.world

theorem step_serve_waits {rpc : Rpc} (stepped : system.step (.serve index fault) = some after)
    (found : system.rpcs[index]? = some rpc) : rpc.process.body.ended = false := by
  obtain ⟨rpc', process, call, resume, found', waits, _⟩ := step_serve_call stepped
  cases found.symm.trans found'
  rw [waits]
  rfl

theorem asked_step {action : Action} (asked : system.Asked rpc jobId)
    (ordered : system.Ordered rpc jobId action) (stepped : system.step action = some after) :
    after.Asked rpc jobId := by
  have sound := sound_step asked.sound stepped
  cases action with
  | submit submission =>
    obtain ⟨fresh, rfl⟩ := step_submit stepped
    refine ⟨sound, ?_, fun earlier member own => ?_⟩
    · rw [submissions, List.map_append]
      exact List.mem_append_left _ asked.asked
    · rcases List.mem_append.mp member with known | new
      · exact asked.answered earlier known own
      · rw [List.mem_singleton.mp new] at own
        cases own.symm.trans ordered
  | serve index fault =>
    have same := submissions_step stepped fun _ clash => by cases clash
    obtain ⟨served, process, world, found, _, rfl⟩ := step_serve stepped
    refine ⟨sound, ?_, fun earlier member own => ?_⟩
    · rw [same]
      exact asked.asked
    · rcases List.mem_or_eq_of_mem_set member with known | rfl
      · exact asked.answered earlier known own
      · have ended := asked.answered served (List.mem_of_getElem? found) own
        cases ended.symm.trans (step_serve_waits stepped found)
  | work index fault =>
    obtain ⟨handling, process, call, resume, envelope, _, _, _, _, _, rfl⟩ := step_work stepped
    exact ⟨sound, asked.asked, asked.answered⟩
  | replaceFiles | deliver | settle | cancel | loseConnection | crash =>
    have same := (step_quiet stepped trivial).1
    refine ⟨sound, ?_, ?_⟩
    · rw [submissions, same]
      exact asked.asked
    · rw [same]
      exact asked.answered

theorem Asked.own {message : JsonValue} {envelope : JobEnvelope} (asked : system.Asked rpc jobId)
    (member : message ∈ system.messages)
    (read : JobEnvelope.fromPayload env.repr message = .ok envelope)
    (same : envelope.jobId = jobId) : envelope = DeleteDocumentHandler.envelope rpc jobId := by
  obtain ⟨submission, listed, rfl, _⟩ := asked.sound.sent member read
  have only : submission = .delete rpc jobId :=
    List.inj_on_of_nodup_map asked.sound.distinct listed asked.asked same
  rw [only]
  rfl

/-- No request publishes an index job of the document any more. -/
theorem Asked.published {sender : Rpc} (asked : system.Asked rpc jobId)
    (stepped : system.step (.serve index fault) = some after)
    (found : system.rpcs[index]? = some sender)
    (wellFormed : sender.submission.envelope.WellFormed) :
    indexes env rpc.clientId rpc.documentId sender.submission.envelope.toPayload = false := by
  rw [indexes_of_read (JobEnvelope.fromPayload_of_wellFormed env.repr wellFormed),
    ← Bool.not_eq_true]
  intro own
  have ended := asked.answered sender (List.mem_of_getElem? found) own
  cases ended.symm.trans (step_serve_waits stepped found)

theorem unconcluded_of_waits {handling : Handling env} (waits : handling.ended = false) :
    handling.concluded = false := by
  rw [Handling.concluded, waits, Bool.and_false]

theorem unconcluded_of_held {handling : Handling env} (held : handling.custody = .held) :
    handling.concluded = false := by
  simp [Handling.concluded, held]

theorem Waiting.serve (waiting : system.Waiting rpc jobId) (asked : system.Asked rpc jobId)
    (stepped : system.step (.serve index fault) = some after) : after.Waiting rpc jobId := by
  obtain ⟨sender, process, world, found, served, rfl⟩ := step_serve stepped
  cases served with
  | created was row free queued now wrote =>
    subst wrote
    refine ⟨waiting.queue, waiting.unhanded, ?_⟩
    change (system.world.table.commit sender.submission.jobId row).status? jobId ≠ _
    rw [JobTable.status?_commit]
    split
    · rw [queued]
      exact fun clash => by cases clash
    · exact waiting.unsucceeded
  | refused was now same | orphaned was now same =>
    subst same
    exact ⟨waiting.queue, waiting.unhanded, waiting.unsucceeded⟩
  | published was wellFormed now sent =>
    subst sent
    refine ⟨?_, waiting.unhanded, waiting.unsucceeded⟩
    refine List.pairwise_append.mpr ⟨waiting.queue, List.pairwise_singleton .., ?_⟩
    intro first _ second new _
    rw [List.mem_singleton.mp new]
    exact asked.published stepped found wellFormed

/-- A step that replaces a handling by one with the same message, and may put the
message back. -/
theorem Waiting.replace {handling next : Handling env} {world : World}
    (waiting : system.Waiting rpc jobId) (found : system.handlings[index]? = some handling)
    (same : next.message = handling.message)
    (queue : world.queue = system.world.queue ∨
      world.queue = handling.message :: system.world.queue)
    (status : world.table.status? jobId = system.world.table.status? jobId) :
    ({ system with world, handlings := system.handlings.set index next } : System env).Waiting
      rpc jobId := by
  have unhanded := waiting.unhanded handling (List.mem_of_getElem? found)
  refine ⟨?_, fun other member => ?_, ?_⟩
  · change world.queue.Pairwise _
    rcases queue with kept | back
    · rw [kept]
      exact waiting.queue
    · rw [back]
      refine List.Pairwise.cons (fun second _ named => ?_) waiting.queue
      cases named.symm.trans unhanded
  · rcases List.mem_or_eq_of_mem_set member with earlier | rfl
    · exact waiting.unhanded other earlier
    · rw [Handling.on, same]
      exact unhanded
  · rw [status]
    exact waiting.unsucceeded

theorem Waiting.deliver (waiting : system.Waiting rpc jobId) {message : JsonValue}
    {queue : List JsonValue} (next : system.world.queue = message :: queue)
    (named : names env jobId message = false) (worker : Nat) :
    ({ system with
      world := { system.world with queue }
      handlings := system.handlings ++ [Handling.start env worker message] } : System env).Waiting
      rpc jobId := by
  have order := waiting.queue
  rw [next] at order
  refine ⟨order.tail, fun handling member => ?_, waiting.unsucceeded⟩
  rcases List.mem_append.mp member with earlier | new
  · exact waiting.unhanded handling earlier
  · rw [List.mem_singleton.mp new]
    exact named

/-- The delete job is handed out, and every worker is done with the index jobs. -/
theorem Waiting.hand (waiting : system.Waiting rpc jobId) (asked : system.Asked rpc jobId)
    {message : JsonValue} {queue : List JsonValue} (next : system.world.queue = message :: queue)
    (named : names env jobId message = true)
    (done : ∀ handling ∈ system.handlings,
      indexes env rpc.clientId rpc.documentId handling.message = true → handling.concluded = true)
    (worker : Nat) :
    ({ system with
      world := { system.world with queue }
      handlings := system.handlings ++ [Handling.start env worker message] } : System env).Handed
      rpc jobId := by
  have order := waiting.queue
  rw [next] at order
  have behind := (List.pairwise_cons.mp order).1
  have listed : message ∈ system.messages := by
    rw [messages, next]
    exact List.mem_append_left _ (List.mem_cons_self ..)
  obtain ⟨envelope, read, same⟩ := names_iff.mp named
  constructor
  case queue => exact fun other member => behind other member named
  case concluded =>
    intro handling member indexing
    rcases List.mem_append.mp member with earlier | new
    · exact done handling earlier indexing
    · rw [List.mem_singleton.mp new] at indexing
      change indexes env rpc.clientId rpc.documentId message = true at indexing
      rw [indexes_of_read read, asked.own listed read same] at indexing
      cases indexing.symm.trans (delete_indexes rfl rpc.clientId rpc.documentId)
  case clears =>
    intro handling member on
    rcases List.mem_append.mp member with earlier | new
    · cases on.symm.trans (waiting.unhanded handling earlier)
    · rw [List.mem_singleton.mp new]
      trivial
  case cleared => exact fun succeeded => absurd succeeded waiting.unsucceeded

theorem waiting_step {action : Action} (asked : system.Asked rpc jobId)
    (waiting : system.Waiting rpc jobId) (ordered : system.Ordered rpc jobId action)
    (stepped : system.step action = some after) :
    after.Waiting rpc jobId ∨ after.Handed rpc jobId := by
  cases action with
  | serve index fault => exact .inl (waiting.serve asked stepped)
  | submit submission =>
    obtain ⟨fresh, rfl⟩ := step_submit stepped
    exact .inl ⟨waiting.queue, waiting.unhanded, waiting.unsucceeded⟩
  | replaceFiles extractText =>
    cases stepped
    exact .inl ⟨waiting.queue, waiting.unhanded, waiting.unsucceeded⟩
  | work index fault =>
    obtain ⟨handling, process, call, resume, envelope, found, _, read, awaits, _, rfl⟩ :=
      step_work stepped
    have unhanded := waiting.unhanded handling (List.mem_of_getElem? found)
    have other : envelope.jobId ≠ jobId := fun own => by
      cases unhanded.symm.trans (names_iff.mpr ⟨envelope, read, own⟩)
    exact .inl (waiting.replace found rfl (.inl (answer_queue (awaits_quiet awaits)))
      (status_of_other awaits other))
  | settle index | cancel index =>
    obtain ⟨handling, found, _, _, rfl⟩ := step_dismisses index (by simp) stepped
    exact .inl (waiting.replace found rfl (.inl rfl) rfl)
  | loseConnection index =>
    obtain ⟨handling, found, _, rfl⟩ := step_loseConnection stepped
    exact .inl (waiting.replace found rfl (.inr rfl) rfl)
  | crash index =>
    obtain ⟨handling, found, _, rfl⟩ := step_crash stepped
    refine .inl (waiting.replace found rfl ?_ rfl)
    by_cases held : handling.custody = .held
    · right
      rw [if_pos held]
      rfl
    · left
      rw [if_neg held]
      rfl
  | deliver worker =>
    obtain ⟨message, queue, next, rfl⟩ := step_deliver stepped
    cases named : names env jobId message with
    | false => exact .inl (waiting.deliver next named worker)
    | true =>
      have head : system.world.queue.head? = some message := by rw [next]; rfl
      exact .inr (waiting.hand asked next named (ordered message head named) worker)

theorem Handed.busy {handling : Handling env} (handed : system.Handed rpc jobId)
    (member : handling ∈ system.handlings) (busy : handling.concluded = false) :
    indexes env rpc.clientId rpc.documentId handling.message = false := by
  rw [← Bool.not_eq_true]
  intro indexing
  cases busy.symm.trans (handed.concluded handling member indexing)

theorem Handed.serve (handed : system.Handed rpc jobId) (asked : system.Asked rpc jobId)
    (stepped : system.step (.serve index fault) = some after) : after.Handed rpc jobId := by
  obtain ⟨sender, process, world, found, served, rfl⟩ := step_serve stepped
  cases served with
  | created was row free queued now wrote =>
    subst wrote
    refine ⟨handed.queue, handed.concluded, handed.clears, fun succeeded => ?_⟩
    change (system.world.table.commit sender.submission.jobId row).status? jobId = _ at succeeded
    rw [JobTable.status?_commit] at succeeded
    split at succeeded
    · rw [queued] at succeeded
      cases succeeded
    · exact handed.cleared succeeded
  | refused was now same | orphaned was now same =>
    subst same
    exact ⟨handed.queue, handed.concluded, handed.clears, handed.cleared⟩
  | published was wellFormed now sent =>
    subst sent
    refine ⟨fun message member => ?_, handed.concluded, handed.clears, handed.cleared⟩
    rcases List.mem_append.mp member with earlier | new
    · exact handed.queue message earlier
    · rw [List.mem_singleton.mp new]
      exact asked.published stepped found wellFormed

theorem Handed.work (handed : system.Handed rpc jobId) (asked : system.Asked rpc jobId)
    (stepped : system.step (.work index fault) = some after) : after.Handed rpc jobId := by
  obtain ⟨handling, process, call, resume, envelope, found, waits, read, awaits, moved, rfl⟩ :=
    step_work stepped
  have member := List.mem_of_getElem? found
  have working : handling.ended = false := by rw [Handling.ended, waits]; rfl
  have busy := unconcluded_of_waits working
  have unrelated : envelope.indexes rpc.clientId rpc.documentId = false := by
    rw [← indexes_of_read read]
    exact handed.busy member busy
  have own (same : envelope.jobId = jobId) : envelope = DeleteDocumentHandler.envelope rpc jobId :=
    asked.own (message_of_handling member) read same
  refine ⟨?_, ?_, ?_, ?_⟩
  · rw [answer_queue (awaits_quiet awaits)]
    exact handed.queue
  · intro other listed indexing
    rcases List.mem_or_eq_of_mem_set listed with earlier | rfl
    · exact handed.concluded other earlier indexing
    · have unrelated := handed.busy member busy
      cases indexing.symm.trans unrelated
  · intro other listed on
    rcases List.mem_or_eq_of_mem_set listed with earlier | rfl
    · exact (handed.clears other earlier on).mono fun cleared => cleared.answer awaits unrelated
    · change Clears _ _ _ process.state
      have clears := handed.clears handling member on
      obtain ⟨envelope', read', same⟩ := names_iff.mp on
      cases read.symm.trans read'
      cases own same
      rw [moved]
      exact clears.answer awaits rfl
  · intro succeeded
    by_cases same : envelope.jobId = jobId
    · have clears := handed.clears handling member (names_iff.mpr ⟨envelope, read, same⟩)
      cases own same
      exact Cleared.succeeded awaits rfl clears handed.cleared succeeded
    · refine (handed.cleared ?_).answer awaits unrelated
      rw [← succeeded]
      exact (status_of_other awaits same).symm

/-- A step that replaces a handling by one with the same message, and may put the
message back. -/
theorem Handed.replace {handling next : Handling env} {queue : List JsonValue}
    (handed : system.Handed rpc jobId) (found : system.handlings[index]? = some handling)
    (same : next.message = handling.message)
    (unrelated : ∀ message ∈ queue, indexes env rpc.clientId rpc.documentId message = false)
    (concluded : indexes env rpc.clientId rpc.documentId handling.message = true →
      next.concluded = true)
    (clears : Clears rpc.clientId rpc.documentId system.world handling.process.state →
      Clears rpc.clientId rpc.documentId system.world next.process.state) :
    ({ system with
      world := { system.world with queue }
      handlings := system.handlings.set index next } : System env).Handed rpc jobId := by
  refine ⟨unrelated, fun other member indexing => ?_, fun other member on => ?_, handed.cleared⟩
  · rcases List.mem_or_eq_of_mem_set member with earlier | rfl
    · exact handed.concluded other earlier indexing
    · rw [same] at indexing
      exact concluded indexing
  · rcases List.mem_or_eq_of_mem_set member with earlier | rfl
    · exact handed.clears other earlier on
    · rw [Handling.on, same] at on
      exact clears (handed.clears handling (List.mem_of_getElem? found) on)

theorem handed_step {action : Action} (asked : system.Asked rpc jobId)
    (handed : system.Handed rpc jobId) (stepped : system.step action = some after) :
    after.Handed rpc jobId := by
  cases action with
  | serve index fault => exact handed.serve asked stepped
  | work index fault => exact handed.work asked stepped
  | submit submission =>
    obtain ⟨fresh, rfl⟩ := step_submit stepped
    exact ⟨handed.queue, handed.concluded, handed.clears, handed.cleared⟩
  | replaceFiles extractText =>
    cases stepped
    exact ⟨handed.queue, handed.concluded, handed.clears, handed.cleared⟩
  | deliver worker =>
    obtain ⟨message, queue, next, rfl⟩ := step_deliver stepped
    have unrelated := handed.queue
    rw [next] at unrelated
    refine ⟨fun other member => unrelated other (List.mem_cons_of_mem _ member), ?_, ?_,
      handed.cleared⟩
    · intro handling member indexing
      rcases List.mem_append.mp member with earlier | new
      · exact handed.concluded handling earlier indexing
      · rw [List.mem_singleton.mp new] at indexing
        cases indexing.symm.trans (unrelated message (List.mem_cons_self ..))
    · intro handling member on
      rcases List.mem_append.mp member with earlier | new
      · exact handed.clears handling earlier on
      · rw [List.mem_singleton.mp new]
        trivial
  | settle index | cancel index =>
    obtain ⟨handling, found, held, _, rfl⟩ := step_dismisses index (by simp) stepped
    have unrelated := handed.busy (List.mem_of_getElem? found) (unconcluded_of_held held)
    refine handed.replace found rfl handed.queue (fun indexing => ?_) id
    cases indexing.symm.trans unrelated
  | loseConnection index =>
    obtain ⟨handling, found, held, rfl⟩ := step_loseConnection stepped
    have unrelated := handed.busy (List.mem_of_getElem? found) (unconcluded_of_held held)
    refine handed.replace found rfl (fun message member => ?_) (fun indexing => ?_) id
    · rcases List.mem_cons.mp member with rfl | earlier
      · exact unrelated
      · exact handed.queue message earlier
    · cases indexing.symm.trans unrelated
  | crash index =>
    obtain ⟨handling, found, busy, rfl⟩ := step_crash stepped
    have unrelated := handed.busy (List.mem_of_getElem? found) busy
    refine handed.replace found rfl (fun message member => ?_) (fun indexing => ?_) fun _ => trivial
    · rcases List.mem_append.mp member with back | earlier
      · split at back
        · rw [List.mem_singleton.mp back]
          exact unrelated
        · cases back
      · exact handed.queue message earlier
    · cases indexing.symm.trans unrelated

/-- When the delete job is asked for, nobody has heard of it. -/
theorem waiting_of_submit {accepted : System env} (sound : accepted.Sound) (filed : accepted.Filed)
    (requested : accepted.step (.submit (.delete rpc jobId)) = some system) :
    system.Waiting rpc jobId := by
  obtain ⟨fresh, rfl⟩ := step_submit requested
  have unheard : jobId ∉ accepted.submissions.map Submission.jobId := by
    intro listed
    obtain ⟨submission, member, same⟩ := List.mem_map.mp listed
    obtain ⟨earlier, known, rfl⟩ := List.mem_map.mp member
    exact fresh earlier known same
  have unnamed {message : JsonValue} (member : message ∈ accepted.messages) :
      names env jobId message = false := by
    rw [← Bool.not_eq_true]
    intro named
    obtain ⟨envelope, read, rfl⟩ := names_iff.mp named
    obtain ⟨submission, listed, rfl, _⟩ := sound.sent member read
    exact unheard (List.mem_map.mpr ⟨submission, listed, rfl⟩)
  refine ⟨?_, fun handling member => unnamed (message_of_handling member), fun succeeded => ?_⟩
  · refine List.Pairwise.imp_of_mem ?_ (List.pairwise_of_forall fun _ _ => trivial)
    intro first second member _ _ named
    cases named.symm.trans (unnamed (List.mem_append_left _ member))
  · exact unheard (filed jobId (JobTable.status?_isSome succeeded))

/-- A document stays deleted: when the requests to index it have ended before the
request to delete it, none comes later, and the delete job is handed out only when
every worker is done with the index jobs of the document, down to the threads of those that
were cancelled, then the success of the delete job leaves no point of the document, whatever
strikes the workers. -/
theorem deleted_stays_deleted (env : Env) (collection : Option Collection) (extractText : Extraction)
    (accepted submitted system : System env) (rpc : DeleteDocumentRequest) (jobId : String)
    (reaches : Reaches step anyStep (initial env collection extractText) accepted)
    (answered : ∀ earlier ∈ accepted.rpcs,
      earlier.submission.indexes rpc.clientId rpc.documentId = true →
        earlier.process.body.ended = true)
    (requested : accepted.step (.submit (.delete rpc jobId)) = some submitted)
    (onward : Reaches step (Ordered rpc jobId) submitted system)
    (succeeded : system.world.table.status? jobId = some .succeeded) (point : Point)
    (held : system.world.stock point.id = some point.record) :
    ¬ (point.record.payload.clientId = some rpc.clientId ∧
      point.record.payload.documentId = some rpc.documentId) := by
  have sound := sound_of_reaches reaches
  have waiting := waiting_of_submit sound (agrees_of_reaches reaches).filed requested
  have asked : submitted.Asked rpc jobId := by
    refine ⟨sound_step sound requested, ?_, ?_⟩ <;> obtain ⟨fresh, rfl⟩ := step_submit requested
    · rw [submissions, List.map_append]
      exact List.mem_append_right _ (List.mem_singleton.mpr rfl)
    · intro earlier member own
      rcases List.mem_append.mp member with known | new
      · exact answered earlier known own
      · rw [List.mem_singleton.mp new] at own
        cases own.symm.trans (delete_indexes rfl rpc.clientId rpc.documentId)
  have last : system.Asked rpc jobId ∧ (system.Waiting rpc jobId ∨ system.Handed rpc jobId) := by
    refine onward.invariant
      (fun system => system.Asked rpc jobId ∧ (system.Waiting rpc jobId ∨ system.Handed rpc jobId))
      ?_ ⟨asked, .inl waiting⟩
    rintro before action after ordered stepped ⟨asked, waiting | handed⟩
    · exact ⟨asked_step asked ordered stepped, waiting_step asked waiting ordered stepped⟩
    · exact ⟨asked_step asked ordered stepped, .inr (handed_step asked handed stepped)⟩
  rcases last.2 with waiting | handed
  · exact absurd succeeded waiting.unsucceeded
  · rw [← inDocument_iff, handed.cleared succeeded point.id point.record held]
    exact Bool.false_ne_true

end System

namespace Sample

def deleteRpc : DeleteDocumentRequest := ⟨"c", "d"⟩

/-- The document is accepted for indexing. -/
def accepting : List Action := [.submit pathJob, .serve 0 none, .serve 0 none]

end Sample

namespace System

open Sample

private def worked (handling count : Nat) : List Action := calls handling count ++ [.settle handling]

private theorem ordered_worked {handling count : Nat} {start last : System Sample.env}
    (played : (worked handling count).foldlM step start = some last) :
    Reaches step (Ordered deleteRpc "2") start last := by
  refine reaches_of_play (fun action member state => ?_) played
  rcases List.mem_append.mp member with work | settled
  · rw [List.eq_of_mem_replicate work]
    trivial
  · rw [List.mem_singleton.mp settled]
    trivial

/-- One worker handles the index job and then the delete job. -/
theorem deleted_stays_deleted_sample :
    ∃ system : System Sample.env, system.world.table.status? "2" = some .succeeded ∧
      ∀ point : Point, system.world.stock point.id = some point.record →
        ¬ (point.record.payload.clientId = some "c" ∧ point.record.payload.documentId = some "d") := by
  obtain ⟨accepted, submitted, sent, busy, idle, handed, system, played, requested, published,
      delivered, indexed, delivered', deleted, ⟨rpc, only, ended⟩, ⟨message, next, first⟩,
      ⟨handling, alone, done⟩, succeeded⟩ :
      ∃ accepted submitted sent busy idle handed system,
        accepting.foldlM step fresh = some accepted ∧
        accepted.step (.submit (.delete deleteRpc "2")) = some submitted ∧
        [Action.serve 1 none, .serve 1 none].foldlM step submitted = some sent ∧
        sent.step (.deliver 0) = some busy ∧ (worked 0 11).foldlM step busy = some idle ∧
        idle.step (.deliver 0) = some handed ∧ (worked 1 4).foldlM step handed = some system ∧
        (∃ rpc, accepted.rpcs = [rpc] ∧ rpc.process.body.ended = true) ∧
        (∃ message, sent.world.queue.head? = some message ∧
          names Sample.env "2" message = false) ∧
        (∃ handling, idle.handlings = [handling] ∧ handling.concluded = true) ∧
        system.world.table.status? "2" = some .succeeded :=
    ⟨_, _, _, _, _, _, _, rfl, rfl, rfl, rfl, rfl, rfl, rfl, ⟨_, rfl, rfl⟩, ⟨_, rfl, rfl⟩,
      ⟨_, rfl, rfl⟩, rfl⟩
  have reaches : Reaches step anyStep fresh accepted :=
    reaches_of_play (fun _ _ _ => trivial) played
  have publishing : Reaches step (Ordered deleteRpc "2") submitted sent := by
    refine reaches_of_play (fun action member state => ?_) published
    simp only [List.mem_cons, List.not_mem_nil, or_false, or_self] at member
    rw [member]
    trivial
  have early : Ordered deleteRpc "2" sent (.deliver 0) := by
    intro other head named
    cases next.symm.trans head
    cases first.symm.trans named
  have late : Ordered deleteRpc "2" idle (.deliver 0) := by
    intro other _ _ holder member _
    rw [alone] at member
    rw [List.mem_singleton.mp member]
    exact done
  have onward : Reaches step (Ordered deleteRpc "2") submitted system :=
    publishing.trans (.head ⟨_, early, delivered⟩ ((ordered_worked indexed).trans
      (.head ⟨_, late, delivered'⟩ (ordered_worked deleted))))
  refine ⟨system, succeeded, fun point held => ?_⟩
  refine deleted_stays_deleted Sample.env none Sample.extract accepted submitted system deleteRpc
    "2" reaches (fun other member _ => ?_) requested onward succeeded point held
  rw [only] at member
  rw [List.mem_singleton.mp member]
  exact ended

/-- The delete job is handed to a second worker while the first is at the index
job: it finds nothing to delete, and the points come after it. -/
private def overtaking : List Action :=
  [.serve 1 none, .serve 1 none, .deliver 0, .deliver 1] ++ calls 0 9 ++ calls 1 3 ++ calls 0 2

/-- The delete job is handed to a second worker while a thread of the first, which was
cancelled, is about to write the points. -/
private def outliving : List Action := calls 1 3 ++ [.work 0 (some ⟨.cancelled, true⟩)]

/-- The document comes back where the delete job overtakes the index job, and also where it is
handed out when the message of the index job is settled: the worker was cancelled, and the
points come with the end of its thread. -/
theorem deleted_comes_back :
    (¬ ∀ (env : Env) (collection : Option Collection) (extractText : Extraction)
      (accepted submitted system : System env) (rpc : DeleteDocumentRequest) (jobId : String)
      (earlier : Rpc),
      Reaches step anyStep (initial env collection extractText) accepted →
      (∀ other ∈ accepted.rpcs, other.submission.indexes rpc.clientId rpc.documentId = true →
        other.process.body.ended = true) →
      earlier ∈ accepted.rpcs → earlier.submission.indexes rpc.clientId rpc.documentId = true →
      (∃ response, earlier.process.body = .ret response) →
      accepted.step (.submit (.delete rpc jobId)) = some submitted →
      Reaches step (Later rpc) submitted system →
      system.world.table.status? earlier.submission.jobId = some .succeeded →
      system.world.table.status? jobId = some .succeeded →
      ∀ point : Point, system.world.stock point.id = some point.record →
        ¬ (point.record.payload.clientId = some rpc.clientId ∧
          point.record.payload.documentId = some rpc.documentId)) ∧
    ¬ ∀ (env : Env) (collection : Option Collection) (extractText : Extraction)
      (accepted submitted system : System env) (rpc : DeleteDocumentRequest) (jobId : String),
      Reaches step anyStep (initial env collection extractText) accepted →
      (∀ other ∈ accepted.rpcs, other.submission.indexes rpc.clientId rpc.documentId = true →
        other.process.body.ended = true) →
      accepted.step (.submit (.delete rpc jobId)) = some submitted →
      Reaches step (Dismissed rpc jobId) submitted system →
      system.world.table.status? jobId = some .succeeded →
      ∀ point : Point, system.world.stock point.id = some point.record →
        ¬ (point.record.payload.clientId = some rpc.clientId ∧
          point.record.payload.documentId = some rpc.documentId) := by
  obtain ⟨accepted, submitted, played, requested, ⟨rpc, only, sent, response, answered⟩,
      ⟨overtaken, played', indexed, cleared', record', held', own'⟩, published, busy, cancelled, handed,
      system, sending, delivered, working, delivered', outlived, ⟨message, next, first⟩,
      ⟨handling, alone, dismissed⟩, cleared, record, held, own⟩ :
      ∃ accepted submitted, accepting.foldlM step fresh = some accepted ∧
        accepted.step (.submit (.delete deleteRpc "2")) = some submitted ∧
        (∃ rpc, accepted.rpcs = [rpc] ∧ rpc.submission = pathJob ∧
          ∃ response, rpc.process.body = .ret response) ∧
        (∃ system, overtaking.foldlM step submitted = some system ∧
          system.world.table.status? "1" = some .succeeded ∧
          system.world.table.status? "2" = some .succeeded ∧
          ∃ record, system.world.stock (chunkIdFor Sample.env "d" 0) = some record ∧
            inDocument "c" "d" record = true) ∧
        ∃ published busy cancelled handed system,
          [Action.serve 1 none, .serve 1 none].foldlM step submitted = some published ∧
          published.step (.deliver 0) = some busy ∧
          (calls 0 9 ++ [Action.cancel 0]).foldlM step busy = some cancelled ∧
          cancelled.step (.deliver 1) = some handed ∧
          outliving.foldlM step handed = some system ∧
          (∃ message, published.world.queue.head? = some message ∧
            names Sample.env "2" message = false) ∧
          (∃ handling, cancelled.handlings = [handling] ∧ handling.custody = .settled) ∧
          system.world.table.status? "2" = some .succeeded ∧
          ∃ record, system.world.stock (chunkIdFor Sample.env "d" 0) = some record ∧
            inDocument "c" "d" record = true :=
    ⟨_, _, rfl, rfl, ⟨_, rfl, rfl, _, rfl⟩, ⟨_, rfl, rfl, rfl, _, rfl, rfl⟩, _, _, _, _, _, rfl, rfl,
      rfl, rfl, rfl, ⟨_, rfl, rfl⟩, ⟨_, rfl, rfl⟩, rfl, _, rfl, rfl⟩
  have reaches : Reaches step anyStep fresh accepted :=
    reaches_of_play (fun _ _ _ => trivial) played
  have done : ∀ other ∈ accepted.rpcs,
      other.submission.indexes deleteRpc.clientId deleteRpc.documentId = true →
        other.process.body.ended = true := by
    intro other member _
    rw [only] at member
    rw [List.mem_singleton.mp member, answered]
    rfl
  constructor
  · intro deleted
    have onward : Reaches step (Later deleteRpc) submitted overtaken := by
      refine reaches_of_play (fun action member state => ?_) played'
      simp only [overtaking, calls, List.mem_append, List.mem_cons, List.not_mem_nil, or_false,
        List.mem_replicate] at member
      rcases member with ((((rfl | rfl | rfl | rfl) | ⟨_, rfl⟩) | ⟨_, rfl⟩) | ⟨_, rfl⟩) <;> trivial
    refine deleted Sample.env none Sample.extract accepted submitted overtaken deleteRpc "2" rpc
      reaches done ?_ ?_ ⟨response, answered⟩ requested onward ?_ cleared' ⟨_, record'⟩ held'
      (inDocument_iff.mp own')
    · rw [only]
      exact List.mem_singleton.mpr rfl
    · rw [sent]
      rfl
    · rw [sent]
      exact indexed
  · intro deleted
    have sending : Reaches step (Dismissed deleteRpc "2") submitted published := by
      refine reaches_of_play (fun action member state => ?_) sending
      simp only [List.mem_cons, List.not_mem_nil, or_false, or_self] at member
      rw [member]
      trivial
    have early : Dismissed deleteRpc "2" published (.deliver 0) := by
      intro other head named
      cases next.symm.trans head
      cases first.symm.trans named
    have working : Reaches step (Dismissed deleteRpc "2") busy cancelled := by
      refine reaches_of_play (fun action member state => ?_) working
      simp only [calls, List.mem_append, List.mem_replicate, List.mem_singleton] at member
      rcases member with ⟨_, rfl⟩ | rfl <;> trivial
    have late : Dismissed deleteRpc "2" cancelled (.deliver 1) := by
      intro other _ _ holder member _
      rw [alone] at member
      rw [List.mem_singleton.mp member]
      exact dismissed
    have outlived : Reaches step (Dismissed deleteRpc "2") handed system := by
      refine reaches_of_play (fun action member state => ?_) outlived
      simp only [outliving, calls, List.mem_append, List.mem_replicate, List.mem_singleton] at member
      rcases member with ⟨_, rfl⟩ | rfl <;> trivial
    exact deleted Sample.env none Sample.extract accepted submitted system deleteRpc "2" reaches done
      requested (sending.trans (.head ⟨_, early, delivered⟩ (working.trans
        (.head ⟨_, late, delivered'⟩ outlived)))) cleared ⟨_, record⟩ held (inDocument_iff.mp own)

end System

end DocContext
