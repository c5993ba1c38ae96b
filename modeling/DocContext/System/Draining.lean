import DocContext.Foundation.Draining
import DocContext.System.Settlement

/-! The system left alone: without new requests, lost connections and crashes it
runs dry, and if no call fails on the way every job in hand is over by then. -/

namespace DocContext

open Foundation Coroutine

/-! Running dry. -/

/-- What is still to be done: a handler has calls to make and a message to settle,
a message is to be handed out, a submission has calls to make. -/
abbrev Chore := (Task Unit × Bool) ⊕ Unit ⊕ Task JobResponse

def Handling.chore {env : Env} (handling : Handling env) : Chore :=
  .inl (handling.process.body, decide (handling.custody = .held))

def Rpc.chore (rpc : Rpc) : Chore := .inr (.inr rpc.process.body)

/-- A submission is traded for a message, and a message for a handler. -/
def Smaller : Chore → Chore → Prop :=
  Sum.Lex (Prod.Lex Resumes (· < ·)) (Sum.Lex emptyRelation Resumes)

theorem smaller_wellFounded : WellFounded Smaller :=
  Sum.lex_wf (WellFounded.prod_lex resumes_wellFounded wellFounded_lt)
    (Sum.lex_wf emptyWf.wf resumes_wellFounded)

namespace System

variable {env : Env} {system after : System env} {index worker : Nat} {jobId : String}
  {fault : Option (Fault PyException)}

/-- No request comes in, no file changes, and no worker loses its connection or
dies. -/
def Inward (_ : System env) : Action → Prop
  | .serve .. | .deliver _ | .work .. | .settle _ | .cancel _ => True
  | .submit _ | .replaceFiles _ | .loseConnection _ | .crash _ => False

def chores (system : System env) : Multiset Chore :=
  ((system.handlings.map Handling.chore : List Chore) : Multiset Chore) +
    (((system.world.queue.map fun _ => .inr (.inl ()) : List Chore) : Multiset Chore) +
      ((system.rpcs.map Rpc.chore : List Chore) : Multiset Chore))

theorem step_serve_resumes (stepped : system.step (.serve index fault) = some after) :
    ∃ rpc process world, system.rpcs[index]? = some rpc ∧
      Resumes process.body rpc.process.body ∧
      (∃ sent, world.queue = system.world.queue ++ sent) ∧
      after = { system with world, rpcs := system.rpcs.set index { rpc with process } } := by
  obtain ⟨rpc, found, stepped⟩ := Option.bind_eq_some_iff.mp stepped
  obtain ⟨⟨process, world⟩, advanced, stepped⟩ := Option.bind_eq_some_iff.mp stepped
  cases stepped
  refine ⟨rpc, process, world, found, Process.advance_resumes advanced, ?_, rfl⟩
  obtain ⟨call, resume, _, awaits, _, rfl⟩ := Process.advance_admitted advanced
  have served := @served_of_awaits env fault rpc.submission _ call system.world awaits
  cases served with
  | created was row free queued now wrote => exact ⟨[], by rw [wrote, List.append_nil]⟩
  | refused was now same | orphaned was now same => exact ⟨[], by rw [same, List.append_nil]⟩
  | published was wellFormed now sent => exact ⟨_, by rw [sent]⟩

theorem step_work_resumes (stepped : system.step (.work index fault) = some after) :
    ∃ handling process world, system.handlings[index]? = some handling ∧
      Resumes process.body handling.process.body ∧ world.queue = system.world.queue ∧
      after = { system with
        world, handlings := system.handlings.set index { handling with process } } := by
  obtain ⟨handling, found, stepped⟩ := Option.bind_eq_some_iff.mp stepped
  obtain ⟨⟨process, world⟩, advanced, stepped⟩ := Option.bind_eq_some_iff.mp stepped
  dsimp only at stepped
  split at stepped
  · refine ⟨handling, process, world, found, Process.advance_resumes advanced, ?_,
      (Option.some.inj stepped).symm⟩
    obtain ⟨call, resume, _, admitted, _, rfl⟩ := Process.advance_admitted advanced
    obtain ⟨envelope, _, awaits⟩ := admits_message admitted
    exact answer_queue (awaits_quiet awaits)
  · cases stepped

theorem cut_handling {handling next : Handling env} {world : World}
    (found : system.handlings[index]? = some handling)
    (queue : world.queue = system.world.queue)
    (less : Smaller next.chore handling.chore) :
    Relation.CutExpand Smaller
      ({ system with world, handlings := system.handlings.set index next } : System env).chores
      system.chores := by
  have replaced := coe_replace Handling.chore found next
  refine ⟨{next.chore}, handling.chore, fun chore member => ?_, ?_⟩
  · rwa [Multiset.mem_singleton.mp member]
  · simp only [chores, queue]
    rw [add_right_comm, replaced, add_right_comm]

theorem cut_serve (stepped : system.step (.serve index fault) = some after) :
    Relation.CutExpand Smaller after.chores system.chores := by
  obtain ⟨rpc, process, world, found, resumes, ⟨sent, queue⟩, rfl⟩ := step_serve_resumes stepped
  have replaced := coe_replace Rpc.chore found { rpc with process }
  let messages : Multiset Chore := ((sent.map fun _ => .inr (.inl ()) : List Chore) : Multiset Chore)
  refine ⟨messages + {Rpc.chore { rpc with process }}, rpc.chore, fun chore member => ?_, ?_⟩
  · rcases Multiset.mem_add.mp member with message | moved
    · obtain ⟨_, _, rfl⟩ := List.mem_map.mp (Multiset.mem_coe.mp message)
      exact .inr (.sep ..)
    · rw [Multiset.mem_singleton.mp moved]
      exact .inr (.inr resumes)
  · simp only [chores, queue, List.map_append, ← Multiset.coe_add]
    rw [add_assoc, add_assoc, replaced]
    abel

theorem cut_step {action : Action} (inward : system.Inward action)
    (stepped : system.step action = some after) :
    Relation.CutExpand Smaller after.chores system.chores := by
  cases action with
  | submit | replaceFiles | loseConnection | crash => exact inward.elim
  | serve index fault => exact cut_serve stepped
  | deliver worker =>
    obtain ⟨message, queue, next, rfl⟩ := step_deliver stepped
    refine ⟨{Handling.chore (Handling.start env worker message)}, .inr (.inl ()), ?_, ?_⟩
    · intro chore member
      rw [Multiset.mem_singleton.mp member]
      exact .sep ..
    · simp only [chores, next, List.map_append, List.map_cons, List.map_nil, ← Multiset.coe_add,
        ← Multiset.cons_coe, ← Multiset.singleton_add, Multiset.coe_nil]
      abel
  | work index fault =>
    obtain ⟨handling, process, world, found, resumes, queue, rfl⟩ := step_work_resumes stepped
    exact cut_handling found queue (.inl (.left _ _ resumes))
  | settle index | cancel index =>
    obtain ⟨handling, found, held, _, rfl⟩ := step_dismisses index (by simp) stepped
    have less : decide (Custody.settled = .held) < decide (handling.custody = .held) := by
      rw [held]
      decide
    exact cut_handling found rfl (.inl (.right _ less))

/-- Whatever fails in them, the steps of servers, broker and workers come to an end. -/
theorem inward_wellFounded (env : Env) :
    WellFounded fun after before : System env => Moves step Inward before after :=
  moves_wellFounded smaller_wellFounded chores fun _ _ _ => cut_step

end System

/-! Running dry without a failure. -/

/-- A handler may end here. -/
def Stage.Over (stage : Stage) : Prop :=
  stage = .succeeded ∨ stage = .refused ∨ stage = .closed ∨ stage = .cancelled

section Answers

variable {env : Env} {envelope : JobEnvelope} {stage : Stage} {call : Call} {world : World}

theorem over_of_handled {message : JsonValue} {result : Except (Raised PyException) Unit}
    (read : JobEnvelope.fromPayload env.repr message = .ok envelope)
    (handled : Handled env message stage result) : stage.Over := by
  unfold Handled at handled
  rw [read] at handled
  rcases handled with ⟨reached, _⟩ | ⟨reached, _⟩
  · exact .inl reached
  · exact .inr reached

/-- A call that does not fail leads on, or says in the row that the job is over. -/
theorem smooth_answered (awaits : Stage.Awaits env envelope stage call)
    (present : (world.table.rows envelope.jobId).isSome) :
    Closed (perform env call world).2.table envelope.jobId ∨
      ¬ (stage.moves call (perform env call world).1).Over := by
  have marked {text : String} :
      Closed (perform env (.markFailed envelope.jobId text) world).2.table envelope.jobId := by
    obtain ⟨row, failed, _, wrote⟩ :=
      answer_marks env (.markFailed envelope.jobId text) rfl present none
    rw [answer_none] at wrote
    rw [wrote]
    exact closed_of_commit (by rw [failed]; rfl)
  have leads (raises : ∀ raised, stage.moves call (.error raised) = Stage.afterRaise raised)
      (replies : ∀ value, ¬ (stage.moves call (.ok value)).Over) :
      ¬ (stage.moves call (perform env call world).1).Over := by
    cases reply : (perform env call world).1 with
    | ok value => exact replies value
    | error raised =>
      obtain ⟨error, rfl⟩ := perform_exception reply
      rw [raises]
      simp [Stage.afterRaise, Stage.Over]
  cases awaits with
  | start =>
    obtain ⟨row, _, ⟨reply, replied⟩, _⟩ :=
      answer_marks env (.markRunning envelope.jobId) rfl present none
    rw [answer_none] at replied
    right
    rw [replied]
    simp [Stage.moves, Stage.Over]
  | succeed =>
    obtain ⟨row, succeeded, _, wrote⟩ :=
      answer_marks env (.markSucceeded envelope.jobId) rfl present none
    rw [answer_none] at wrote
    left
    rw [wrote]
    exact closed_of_commit (by rw [succeeded]; rfl)
  | fail | rejectPath | rejectVectors => exact .inl marked
  | chunk | count =>
    refine .inr (leads (fun _ => rfl) fun value => ?_)
    simp only [Stage.moves]
    split <;> simp [Stage.Over]
  | extract | embed | list | createCollection | createPayloadIndex | write | delete =>
    exact .inr (leads (fun _ => rfl) fun value => by simp [Stage.moves, Stage.Over])

end Answers

namespace System

variable {env : Env} {system after : System env} {index worker : Nat} {jobId : String}

/-- The steps of servers, broker and workers in which no call fails, and the threads that a
cancelled handler left behind come to their end; messages go to one worker. -/
def Smooth (worker : Nat) (system : System env) : Action → Prop
  | .serve _ none | .work _ none | .settle _ => True
  | .work index (some fault) => fault = ⟨.cancelled, true⟩ ∧
      ∀ handling, system.handlings[index]? = some handling → handling.custody = .settled
  | .deliver consumer => consumer = worker
  | _ => False

theorem smooth_inward {action : Action} (smooth : system.Smooth worker action) :
    system.Inward action := by
  cases action <;> trivial

/-- The job is under way: its row is made and its message not yet sent, or the message
waits, or a handler is at work on it. -/
inductive InHand (jobId : String) (system : System env) : Prop where
  | submitting (rpc : Rpc) (member : rpc ∈ system.rpcs) (created : rpc.process.state = .created)
      (own : rpc.submission.jobId = jobId)
  | waiting (message : JsonValue) (member : message ∈ system.world.queue)
      (own : names env jobId message = true)
  | working (handling : Handling env) (member : handling ∈ system.handlings)
      (own : handling.on jobId = true) (atWork : handling.ended = false)
      (unsettled : handling.custody ≠ .settled)

/-- The job is over, or under way. -/
def Covered (jobId : String) (system : System env) : Prop :=
  Closed system.world.table jobId ∨ system.InHand jobId

theorem Served.status {submission : Submission} {before next : Phase} {world world' : World}
    (served : Served submission before world next world')
    (present : (world.table.rows jobId).isSome) :
    world'.table.status? jobId = world.table.status? jobId := by
  cases served with
  | created was row free queued now wrote =>
    rw [wrote, JobTable.status?_commit, if_neg]
    rintro rfl
    rw [free] at present
    cases present
  | refused was now same | orphaned was now same => rw [same]
  | published was wellFormed now sent => rw [sent]

theorem Closed.congr {table table' : JobTable} (same : table'.status? jobId = table.status? jobId)
    (closed : Closed table jobId) : Closed table' jobId := by
  rwa [Closed, same]

theorem covered_serve (covered : system.Covered jobId)
    (stepped : system.step (.serve index none) = some after) : after.Covered jobId := by
  have call := step_serve_call stepped
  obtain ⟨rpc, process, world, found, served, rfl⟩ := step_serve stepped
  rcases covered with closed | inHand
  · obtain ⟨status, read, terminal⟩ := closed
    exact .inl (Closed.congr (served.status (JobTable.status?_isSome read)) ⟨status, read, terminal⟩)
  right
  cases inHand with
  | working handling member own atWork unsettled =>
    exact .working handling member own atWork unsettled
  | waiting message member own =>
    refine .waiting message ?_ own
    cases served with
    | created was row free queued now wrote => rwa [wrote]
    | refused was now same | orphaned was now same => rwa [same]
    | published was wellFormed now sent =>
      rw [sent]
      exact List.mem_append_left _ member
  | submitting sender member created own =>
    rcases mem_or_kept found member { rpc with process } with rfl | kept
    · obtain ⟨other, _, call, resume, found', _, awaits, _, same⟩ := call
      obtain rfl : sender = other := Option.some.inj (found.symm.trans found')
      rw [created] at awaits
      cases awaits with
      | publish wellFormed =>
        refine .waiting sender.submission.envelope.toPayload ?_ ?_
        · have queue : world.queue = system.world.queue ++ [sender.submission.envelope.toPayload] :=
            congrArg (fun after : System env => after.world.queue) same
          change _ ∈ world.queue
          rw [queue]
          exact List.mem_append_right _ (List.mem_singleton_self _)
        · rw [names_toPayload wellFormed]
          exact decide_eq_true own
    · exact .submitting sender kept created own

/-- A thread writes no row. -/
theorem covered_thread {fault : Option (Fault PyException)} (sound : system.Sound)
    (covered : system.Covered jobId)
    (settled : ∀ handling, system.handlings[index]? = some handling → handling.custody = .settled)
    (stepped : system.step (.work index fault) = some after) : after.Covered jobId := by
  obtain ⟨handling, process, call, resume, envelope, found, waits, read, awaits, moved, rfl⟩ :=
    step_work stepped
  have settled := settled handling found
  have thread : call.thread?.isSome = true := by
    rcases sound.threaded handling (List.mem_of_getElem? found) settled with ended | thread
    · rw [Handling.ended, waits] at ended
      cases ended
    · rwa [Handling.thread?, waits] at thread
  have unwritten : call.written? = none := by
    cases call <;> first | rfl | cases thread
  rcases covered with closed | inHand
  · refine .inl ?_
    rwa [answer_table unwritten]
  right
  cases inHand with
  | submitting rpc listed created same => exact .submitting rpc listed created same
  | waiting message listed same =>
    refine .waiting message ?_ same
    rwa [answer_queue (awaits_quiet awaits)]
  | working other listed same atWork unsettled =>
    rcases mem_or_kept found listed { handling with process } with rfl | kept
    · exact absurd settled unsettled
    · exact .working other kept same atWork unsettled

theorem covered_work (sound : system.Sound) (covered : system.Covered jobId)
    (stepped : system.step (.work index none) = some after) : after.Covered jobId := by
  by_cases settled : ∀ handling, system.handlings[index]? = some handling →
      handling.custody = .settled
  · exact covered_thread sound covered settled stepped
  obtain ⟨handling, process, call, resume, envelope, found, waits, read, awaits, moved, rfl⟩ :=
    step_work stepped
  have member := List.mem_of_getElem? found
  have unsettled : handling.custody ≠ .settled := fun now => settled fun other found' => by
    cases found.symm.trans found'
    exact now
  by_cases own : envelope.jobId = jobId
  · subst own
    have on : handling.on envelope.jobId = true := names_iff.mpr ⟨envelope, read, rfl⟩
    rcases smooth_answered awaits (sound.row member on) with closed | leads
    · exact .inl closed
    · refine .inr (.working { handling with process } (mem_replaced found _) on ?_ unsettled)
      rw [answer_none] at moved
      rw [← moved] at leads
      by_contra ended
      rw [Bool.not_eq_false] at ended
      obtain ⟨result, post⟩ := process.post_of_ended ended
      exact leads (over_of_handled read post)
  · have status := @status_of_other env none envelope _ call system.world jobId awaits own
    rcases covered with closed | inHand
    · exact .inl (Closed.congr status closed)
    right
    cases inHand with
    | submitting rpc listed created same => exact .submitting rpc listed created same
    | waiting message listed same =>
      refine .waiting message ?_ same
      rwa [answer_queue (awaits_quiet awaits)]
    | working other listed same atWork unsettled =>
      rcases mem_or_kept found listed { handling with process } with rfl | kept
      · obtain ⟨envelope', read', named⟩ := names_iff.mp same
        cases read.symm.trans read'
        exact absurd named own
      · exact .working other kept same atWork unsettled

theorem covered_step {action : Action} (sound : system.Sound) (covered : system.Covered jobId)
    (smooth : system.Smooth worker action) (stepped : system.step action = some after) :
    after.Covered jobId := by
  cases action with
  | submit | replaceFiles | cancel | loseConnection | crash => exact smooth.elim
  | serve index fault =>
    cases fault with
    | some fault => exact smooth.elim
    | none => exact covered_serve covered stepped
  | work index fault =>
    cases fault with
    | some fault => exact covered_thread sound covered smooth.2 stepped
    | none => exact covered_work sound covered stepped
  | deliver consumer =>
    obtain ⟨message, queue, next, rfl⟩ := step_deliver stepped
    refine covered.imp id fun inHand => ?_
    cases inHand with
    | submitting rpc listed created same => exact .submitting rpc listed created same
    | working handling listed same atWork unsettled =>
      exact .working handling (List.mem_append_left _ listed) same atWork unsettled
    | waiting other listed same =>
      rw [next] at listed
      rcases List.mem_cons.mp listed with rfl | later
      · obtain ⟨envelope, read, named⟩ := names_iff.mp same
        refine .working (Handling.start env consumer other)
          (List.mem_append_right _ (List.mem_singleton_self _)) same ?_ (fun clash => by cases clash)
        change (DocumentWorker.handle env other).ended = false
        rw [DocumentWorker.handle, read]
        rfl
      · exact .waiting other later same
  | settle index =>
    obtain ⟨handling, found, held, ended, rfl⟩ := step_settle stepped
    refine covered.imp id fun inHand => ?_
    cases inHand with
    | submitting rpc listed created same => exact .submitting rpc listed created same
    | waiting message listed same => exact .waiting message listed same
    | working other listed same atWork unsettled =>
      rcases mem_or_kept found listed { handling with custody := .settled } with rfl | kept
      · exact absurd (ended.symm.trans atWork) (by decide)
      · exact .working other kept same atWork unsettled

/-- Where no smooth step is possible, nothing is left to do. -/
theorem stuck_idle (stuck : Stuck step (Smooth worker) system) :
    system.world.queue = [] ∧ (∀ rpc ∈ system.rpcs, rpc.process.body.ended = true) ∧
      ∀ handling ∈ system.handlings, handling.ended = true ∧ handling.custody ≠ .held := by
  have answered : ∀ rpc ∈ system.rpcs, rpc.process.body.ended = true := by
    intro rpc member
    by_contra waiting
    obtain ⟨index, found⟩ := List.mem_iff_getElem?.mp member
    obtain ⟨next, world, advanced⟩ := Process.advance_of_waiting (Bool.eq_false_iff.mpr waiting)
      (answer (perform env) none) system.world
    have none := stuck (.serve index none) trivial
    simp [step, found, advanced] at none
  have done : ∀ handling ∈ system.handlings, handling.ended = true ∧ handling.custody ≠ .held := by
    intro handling member
    obtain ⟨index, found⟩ := List.mem_iff_getElem?.mp member
    have ended : handling.ended = true := by
      by_contra waiting
      obtain ⟨next, world, advanced⟩ := Process.advance_of_waiting (Bool.eq_false_iff.mpr waiting)
        (answer (perform env) none) system.world
      by_cases settled : handling.custody = .settled
      · -- the thread of a cancelled handler comes to its end
        obtain ⟨next, world, advanced⟩ := Process.advance_of_waiting
          (Bool.eq_false_iff.mpr waiting) (answer (perform env) (some ⟨.cancelled, true⟩))
          system.world
        have none := stuck (.work index (some ⟨.cancelled, true⟩)) ⟨rfl, fun other found' => by
          cases found.symm.trans found'
          exact settled⟩
        simp [step, found, advanced, Handling.mayGoOn] at none
      · have none := stuck (.work index none) trivial
        simp [step, found, advanced, Handling.mayGoOn, settled] at none
    refine ⟨ended, fun held => ?_⟩
    have none := stuck (.settle index) trivial
    simp [step, found, held, ended] at none
  refine ⟨?_, answered, done⟩
  cases next : system.world.queue with
  | nil => rfl
  | cons message queue =>
    have idle : system.handlings.all fun handling =>
        handling.worker ≠ worker || handling.concluded := by
      apply List.all_eq_true.mpr
      intro handling member
      obtain ⟨ended, released⟩ := done handling member
      simp [Handling.concluded, ended, released]
    have none := stuck (.deliver worker) rfl
    rw [step, next] at none
    dsimp only at none
    rw [if_pos idle] at none
    cases none

/-- From every state the deployment can reach, whatever has failed before: the steps
of servers, broker and workers alone come to an end, also where calls fail and workers are
cancelled; and once nothing fails and the threads that were left come to their end, they end,
with one worker taking the messages, in a state where every request is answered, the queue is
empty, every message is settled or back at the broker, and every job that was under way is
SUCCEEDED or FAILED. -/
theorem drains (env : Env) (collection : Option Collection) (extractText : Extraction)
    (system : System env) (worker : Nat)
    (reaches : Reaches step anyStep (initial env collection extractText) system) :
    (WellFounded fun after before : System env => Moves step Inward before after) ∧
      (∃ last, Reaches step (Smooth worker) system last ∧ Stuck step (Smooth worker) last) ∧
      ∀ last, Reaches step (Smooth worker) system last → Stuck step (Smooth worker) last →
        last.world.queue = [] ∧ (∀ rpc ∈ last.rpcs, rpc.process.body.ended = true) ∧
        (∀ handling ∈ last.handlings, handling.ended = true ∧ handling.custody ≠ .held) ∧
        ∀ jobId, system.InHand jobId → Closed last.world.table jobId := by
  have smoothStops : WellFounded fun after before : System env =>
      Moves step (Smooth worker) before after := by
    apply Subrelation.wf _ (inward_wellFounded env)
    rintro after before ⟨action, smooth, stepped⟩
    exact ⟨action, smooth_inward smooth, stepped⟩
  refine ⟨inward_wellFounded env, reaches_stuck smoothStops system, ?_⟩
  intro last drained stuck
  obtain ⟨empty, answered, done⟩ := stuck_idle stuck
  refine ⟨empty, answered, done, fun jobId inHand => ?_⟩
  obtain ⟨sound, covered⟩ : last.Sound ∧ last.Covered jobId :=
    drained.invariant (fun system => system.Sound ∧ system.Covered jobId)
      (fun _ _ _ smooth stepped held =>
        ⟨sound_step held.1 stepped, covered_step held.1 held.2 smooth stepped⟩)
      ⟨sound_of_reaches reaches, .inr inHand⟩
  rcases covered with closed | left
  · exact closed
  cases left with
  | submitting rpc member created own =>
    obtain ⟨result, ended⟩ := rpc.process.post_of_ended (answered rpc member)
    rw [created] at ended
    rcases ended with ⟨clash, _⟩ | ⟨clash | clash | clash, _⟩ <;> cases clash
  | waiting message member own =>
    rw [empty] at member
    cases member
  | working handling member own atWork _ =>
    exact absurd ((done handling member).1.symm.trans atWork) (by decide)

open Sample

/-- A job that was submitted, and is not handed out yet. -/
theorem drains_sample :
    ∃ system : System Sample.env, system.InHand "1" ∧
      (WellFounded fun after before : System Sample.env => Moves step Inward before after) ∧
      (∃ last, Reaches step (Smooth 0) system last ∧ Stuck step (Smooth 0) last) ∧
      ∀ last, Reaches step (Smooth 0) system last → Stuck step (Smooth 0) last →
        last.world.queue = [] ∧ (∀ rpc ∈ last.rpcs, rpc.process.body.ended = true) ∧
        (∀ handling ∈ last.handlings, handling.ended = true ∧ handling.custody ≠ .held) ∧
        ∀ jobId, system.InHand jobId → Closed last.world.table jobId := by
  obtain ⟨system, played, queue⟩ : ∃ system : System Sample.env,
      [.submit pathJob, .serve 0 none, .serve 0 none].foldlM step fresh = some system ∧
        system.world.queue = [pathJob.envelope.toPayload] := ⟨_, rfl, rfl⟩
  have reaches : Reaches step anyStep fresh system :=
    reaches_of_play (fun _ _ _ => trivial) played
  have waits : system.InHand "1" := by
    refine .waiting pathJob.envelope.toPayload ?_ rfl
    rw [queue]
    exact List.mem_singleton_self _
  exact ⟨system, waits, drains Sample.env none Sample.extract system 0 reaches⟩

end System

end DocContext
