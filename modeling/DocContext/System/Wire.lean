import DocContext.Queue.RabbitMQ
import DocContext.System.Settlement

/-! The system on the wire: a queue of bodies, into which others may put bodies of their own,
and workers that decode what they are handed and settle it themselves. It refines the
system of messages. -/

namespace DocContext

open Foundation Coroutine

/-- The world, with the bodies at the broker in place of messages. -/
structure Line where
  world : World
  bodies : List ByteArray

/-- A body handed to a worker, and its turn of `consume`. -/
structure Shift where
  body : ByteArray
  /-- The broker waits for it to be settled. -/
  held : Bool
  task : WorkerTask Unit
  /-- What a cancelled handler has left to its thread. -/
  thread : Option (WorkerTask Unit)

structure Wired where
  line : Line
  rpcs : List Rpc
  shifts : Nat → Option Shift

/-- What can happen next. -/
inductive WireAction where
  /-- A request reaches a server. -/
  | submit (submission : Submission)
  /-- A server's handler has its call answered. -/
  | serve (rpc : Nat) (fault : Option (Fault PyException))
  /-- The files in storage change. -/
  | replaceFiles (extractText : Extraction)
  /-- Someone else sends a body. -/
  | inject (body : ByteArray)
  /-- The broker hands the next body to an idle worker. -/
  | take (worker : Nat)
  /-- A worker has its call answered. -/
  | work (worker : Nat) (fault : Option (Fault PyException))
  /-- A worker is cancelled while a thread is at work for its job; the thread goes on. -/
  | cancel (worker : Nat)
  /-- A thread that was left has its call answered. -/
  | land (worker : Nat) (fault : Option (Fault PyException))
  /-- A worker's turn is over and its thread too: it goes on, or is started again. -/
  | next (worker : Nat)
  /-- A worker loses its connection; its turn goes on. -/
  | loseConnection (worker : Nat)
  /-- A worker process dies, and is started again. -/
  | crash (worker : Nat)

/-- `channel_invalid`: a message of a lost channel cannot be settled. -/
def channelClosed : PyException := ⟨.other "ChannelInvalidStateError", ""⟩

/-- The answers of the world, where a message is published as its body. -/
def transmit (env : Env) (format : FloatFormat) :
    (call : Call) → Line → Except (Raised PyException) (Reply call) × Line
  | .publish (.obj payload), line =>
    match encodeBody format payload with
    | .ok body => (.ok (), { line with bodies := line.bodies ++ [body] })
    | .error error => (.error (.exception error), line)
  | .publish payload, line =>
    (.error (.exception ⟨.typeError, "'" ++ payload.typeName ++ "' object is not iterable"⟩), line)
  | call, line => ((perform env call line.world).1, { line with world := (perform env call line.world).2 })

/-- The thread that is at work for the turn. -/
def WorkerTask.thread? : WorkerTask Unit → Option Thread
  | .await (.job call) _ => call.thread?
  | _ => none

/-- What a thread goes on with after a reply. When it has returned or raised, nobody is there
to take its result. -/
def WorkerTask.rest (thread : Option Thread) (fault : Option (Fault PyException))
    (next : WorkerTask Unit) : Option (WorkerTask Unit) :=
  match fault with
  | none => if next.thread? = thread then some next else none
  | some _ => none

namespace Wired

/-- A deployment before its first request. -/
def initial (collection : Option Collection) (extractText : Extraction) : Wired where
  line := ⟨⟨JobTable.empty, [], collection, extractText, 10⟩, []⟩
  rpcs := []
  shifts := fun _ => none

/-- A worker's turn goes on with another shift, or with none. -/
def turn (wired : Wired) (worker : Nat) (shift : Option Shift) : Wired :=
  { wired with shifts := Function.update wired.shifts worker shift }

/-- The broker has a body again. -/
def giveBack (wired : Wired) (shift : Shift) : Wired :=
  if shift.held then
    { wired with line := { wired.line with bodies := shift.body :: wired.line.bodies } }
  else wired

/-- A message is acknowledged or rejected. A fault before that is a lost connection, and after
one there is nothing left to settle. -/
def settle (wired : Wired) (worker : Nat) (shift : Shift) (fault : Option (Fault PyException))
    (resume : Except (Raised PyException) Unit → WorkerTask Unit) : Wired :=
  match fault with
  | none =>
    let reply := if shift.held then .ok () else .error (.exception channelClosed)
    wired.turn worker (some { shift with held := false, task := resume reply })
  | some fault =>
    let left := if fault.landed then wired else wired.giveBack shift
    left.turn worker (some { shift with held := false, task := resume (.error fault.raised) })

def step (env : Env) (format : FloatFormat) (wired : Wired) : WireAction → Option Wired
  | .submit submission =>
    if wired.rpcs.any fun rpc => rpc.submission.jobId = submission.jobId then none
    else some { wired with rpcs := wired.rpcs ++ [Rpc.start submission] }
  | .serve index fault => do
    let rpc ← wired.rpcs[index]?
    let (process, line) ← rpc.process.advance (answer (transmit env format) fault) wired.line
    some { wired with line, rpcs := wired.rpcs.set index { rpc with process } }
  | .replaceFiles extractText =>
    some { wired with line := { wired.line with world := { wired.line.world with extractText } } }
  | .inject body => some { wired with line := { wired.line with bodies := wired.line.bodies ++ [body] } }
  -- `prefetch=1`: a worker handles one message at a time
  | .take worker =>
    match wired.shifts worker, wired.line.bodies with
    | none, body :: bodies =>
      some ({ wired with line := { wired.line with bodies } }.turn worker
        (some ⟨body, true, consumeMessage env format body, none⟩))
    | _, _ => none
  | .work worker fault => do
    let shift ← wired.shifts worker
    match shift.task with
    | .await (.job call) resume =>
      let answered := answer (transmit env format) fault call wired.line
      some ({ wired with line := answered.2 }.turn worker
        (some { shift with task := resume answered.1 }))
    | .await .ack resume | .await .reject resume => some (wired.settle worker shift fault resume)
    | _ => none
  | .cancel worker => do
    let shift ← wired.shifts worker
    match shift.task with
    | .await (.job call) resume =>
      if call.thread?.isSome then
        some (wired.turn worker
          (some { shift with task := resume (.error .cancelled), thread := some shift.task }))
      else none
    | _ => none
  | .land worker fault => do
    let shift ← wired.shifts worker
    match shift.thread with
    | some (.await (.job call) resume) =>
      let answered := answer (transmit env format) fault call wired.line
      some ({ wired with line := answered.2 }.turn worker
        (some { shift with thread := WorkerTask.rest call.thread? fault (resume answered.1) }))
    | _ => none
  | .next worker => do
    let shift ← wired.shifts worker
    if shift.task.ended && shift.thread.isNone then some (wired.turn worker none) else none
  | .loseConnection worker => do
    let shift ← wired.shifts worker
    if shift.held then some ((wired.giveBack shift).turn worker (some { shift with held := false }))
    else none
  | .crash worker => do
    let shift ← wired.shifts worker
    some ((wired.giveBack shift).turn worker none)

end Wired

/-! The messages in the bodies. -/

/-- The world with the messages of a queue. -/
def World.withQueue (queue : List JsonValue) (world : World) : World := { world with queue }

section Queue

variable {env : Env} {call : Call}

theorem committed_withQueue (queue : List JsonValue) (world : World)
    (result : Except PyException (Job × JobTable)) :
    (world.withQueue queue).committed result =
      ((world.committed result).1, (world.committed result).2.withQueue queue) := by
  rcases result with error | ⟨row, table⟩ <;> rfl

theorem stored_withQueue {α : Type} (queue : List JsonValue) (world : World)
    (operation : Collection → α × Collection) :
    (world.withQueue queue).stored operation =
      ((world.stored operation).1, (world.stored operation).2.withQueue queue) := by
  obtain ⟨table, messages, collection, extractText, permits⟩ := world
  cases collection <;> rfl

theorem perform_withQueue (unpublished : ∀ payload, call ≠ .publish payload) (queue : List JsonValue)
    (world : World) :
    perform env call (world.withQueue queue) =
      ((perform env call world).1, (perform env call world).2.withQueue queue) := by
  cases call
  case publish payload => exact absurd rfl (unpublished payload)
  case create | markRunning | markSucceeded | markFailed => exact committed_withQueue ..
  case createPayloadIndex | upsertPoints | count | deletePoints | queryPoints | scroll =>
    exact stored_withQueue ..
  case createCollection =>
    obtain ⟨table, messages, collection, extractText, permits⟩ := world
    cases collection <;> rfl
  all_goals rfl

end Queue

/-- The world as the system of messages has it: bodies that ask for no job are not there. -/
def Line.seen (env : Env) (format : FloatFormat) (line : Line) : World :=
  line.world.withQueue (line.bodies.filterMap (jobOf? env format))

section Transmission

variable {env : Env} {format : FloatFormat} {call : Call}

theorem seen_push (env : Env) (format : FloatFormat) (line : Line) (body : ByteArray) :
    Line.seen env format { line with bodies := line.bodies ++ [body] } =
      (line.seen env format).withQueue
        ((line.seen env format).queue ++ (jobOf? env format body).toList) := by
  simp only [Line.seen, List.filterMap_append, World.withQueue]
  congr 2

/-- What is published is an envelope that a worker can read. -/
def Sends (call : Call) : Prop :=
  ∀ payload, call = .publish payload →
    ∃ envelope : JobEnvelope, envelope.WellFormed ∧ payload = envelope.toPayload

/-- The line answers as the world of messages does. -/
theorem transmit_seen (sends : Sends call) (line : Line) :
    perform env call (line.seen env format) =
      ((transmit env format call line).1, (transmit env format call line).2.seen env format) := by
  by_cases publishes : ∃ payload, call = .publish payload
  · obtain ⟨payload, rfl⟩ := publishes
    obtain ⟨envelope, wellFormed, rfl⟩ := sends payload rfl
    obtain ⟨payload, body, same, encoded, asks⟩ := jobOf_encodeBody env format wellFormed
    have pushed := seen_push env format line body
    rw [asks] at pushed
    rw [same] at pushed ⊢
    simp only [transmit, encoded, pushed]
    rfl
  · have unpublished (payload : JsonValue) : call ≠ .publish payload :=
      fun same => publishes ⟨payload, same⟩
    have same : transmit env format call line = ((perform env call line.world).1,
        { line with world := (perform env call line.world).2 }) := by
      cases call
      case publish payload => exact absurd rfl (unpublished payload)
      all_goals rfl
    rw [same]
    exact perform_withQueue unpublished _ line.world

theorem answer_seen (env : Env) (format : FloatFormat) (fault : Option (Fault PyException))
    (sends : Sends call) (line : Line) :
    answer (perform env) fault call (line.seen env format) =
      ((answer (transmit env format) fault call line).1,
        (answer (transmit env format) fault call line).2.seen env format) := by
  cases fault with
  | none => exact transmit_seen sends line
  | some fault =>
    rw [answer_some, answer_some, transmit_seen sends line]
    split <;> rfl

theorem sends_of_submission {envelope : JobEnvelope} {phase : Phase}
    (awaits : Phase.Awaits envelope phase call) : Sends call := by
  intro payload same
  cases awaits with
  | create => cases same
  | publish wellFormed =>
    cases same
    exact ⟨envelope, wellFormed, rfl⟩

theorem sends_of_job {message : JsonValue} {stage : Stage}
    (admitted : (messageProtocol env message).admits stage call) : Sends call := by
  obtain ⟨envelope, _, awaits⟩ := System.admits_message admitted
  intro payload same
  cases awaits <;> cases same

end Transmission

/-! The refinement. -/

section Refinement

variable {env : Env} {format : FloatFormat} {wired after : Wired} {system : System env}
  {handlings : List (Handling env)} {worker : Nat} {shift : Shift} {handling : Handling env}

/-- The handler is over, or was cancelled and has left its thread. -/
def Left (shift : Shift) (handling : Handling env) : Prop :=
  handling.ended = true ∧ shift.thread = none ∨
    handling.thread?.isSome = true ∧ shift.thread = some (processing handling.process.body)

/-- Where a turn is: at work with the handler, or at the settlement of the message, or over. -/
inductive Turn (shift : Shift) (handling : Handling env) : Prop
  | working (task : shift.task = processing handling.process.body) (alone : shift.thread = none)
      (unsettled : handling.custody ≠ .settled)
  | settling (task : Settling shift.task) (left : Left shift handling)
  | ended (task : shift.task.ended = true) (released : shift.held = false)
      (left : Left shift handling)

/-- The shift is a worker's turn with the message of a handling. -/
structure Carries (format : FloatFormat) (shift : Shift) (handling : Handling env) : Prop where
  asks : jobOf? env format shift.body = some handling.message
  held : shift.held = true ↔ handling.custody = .held
  turn : Turn shift handling

/-- The worker has no other message to be done with. -/
def DoneBeside (handlings : List (Handling env)) (worker : Nat) (own : Nat → Prop) : Prop :=
  ∀ (place : Nat) (other : Handling env), ¬ own place → handlings[place]? = some other →
    other.worker = worker → other.concluded = true

/-- What a worker has in hand is no job, or the job it is at work on. -/
inductive Engaged (format : FloatFormat) (handlings : List (Handling env)) (worker : Nat) :
    Option Shift → Prop
  | idle (done : DoneBeside handlings worker fun _ => False) : Engaged format handlings worker none
  | poison (shift : Shift) (poison : jobOf? env format shift.body = none)
      (task : Settling shift.task ∨ shift.task.ended = true) (alone : shift.thread = none)
      (done : DoneBeside handlings worker fun _ => False) :
      Engaged format handlings worker (some shift)
  | job (shift : Shift) (index : Nat) (handling : Handling env)
      (found : handlings[index]? = some handling) (own : handling.worker = worker)
      (carries : Carries format shift handling) (done : DoneBeside handlings worker (· = index)) :
      Engaged format handlings worker (some shift)

/-- The two systems are in the same situation. -/
structure Matches (format : FloatFormat) (wired : Wired) (system : System env) : Prop where
  world : system.world = wired.line.seen env format
  rpcs : system.rpcs = wired.rpcs
  workers : ∀ worker, Engaged format system.handlings worker (wired.shifts worker)

theorem DoneBeside.mono {own more : Nat → Prop} (done : DoneBeside handlings worker own)
    (fewer : ∀ place, own place → more place) : DoneBeside handlings worker more :=
  fun place other apart => done place other fun mine => apart (fewer place mine)

theorem DoneBeside.set {own : Nat → Prop} (done : DoneBeside handlings worker own) {index : Nat}
    {next : Handling env} (aside : next.worker ≠ worker ∨ own index) :
    DoneBeside (handlings.set index next) worker own := by
  intro place other apart stands belongs
  rw [List.getElem?_set] at stands
  split at stands
  · rename_i same
    subst same
    split at stands
    · cases stands
      rcases aside with different | mine
      · exact absurd belongs different
      · exact absurd mine apart
    · cases stands
  · exact done place other apart stands belongs

theorem DoneBeside.append {own : Nat → Prop} (done : DoneBeside handlings worker own)
    {next : Handling env} (aside : next.worker ≠ worker ∨ own handlings.length) :
    DoneBeside (handlings ++ [next]) worker own := by
  intro place other apart stands belongs
  rw [List.getElem?_append] at stands
  split at stands
  · exact done place other apart stands belongs
  · rename_i beyond
    obtain ⟨start, same⟩ := List.getElem?_eq_some_iff.mp stands
    simp only [List.length_singleton] at start
    have last : place = handlings.length := by omega
    subst last
    simp only [Nat.sub_self, List.getElem_singleton] at same
    subst same
    rcases aside with different | mine
    · exact absurd belongs different
    · exact absurd mine apart

theorem Engaged.set {shift : Option Shift} (engaged : Engaged format handlings worker shift)
    {index : Nat} (found : handlings[index]? = some handling) {next : Handling env}
    (worked : next.worker = handling.worker) (different : handling.worker ≠ worker) :
    Engaged format (handlings.set index next) worker shift := by
  have apart : next.worker ≠ worker := fun same => different (worked.symm.trans same)
  cases engaged with
  | idle done => exact .idle (done.set (.inl apart))
  | poison shift poison task alone done =>
    exact .poison shift poison task alone (done.set (.inl apart))
  | job shift place own stands belongs carries done =>
    have beside : index ≠ place := by
      rintro rfl
      cases stands.symm.trans found
      exact different belongs
    refine .job shift place own ?_ belongs carries (done.set (.inl apart))
    rwa [List.getElem?_set_ne beside]

theorem Engaged.append {shift : Option Shift} (engaged : Engaged format handlings worker shift)
    {next : Handling env} (different : next.worker ≠ worker) :
    Engaged format (handlings ++ [next]) worker shift := by
  cases engaged with
  | idle done => exact .idle (done.append (.inl different))
  | poison shift poison task alone done =>
    exact .poison shift poison task alone (done.append (.inl different))
  | job shift place own stands belongs carries done =>
    refine .job shift place own ?_ belongs carries (done.append (.inl different))
    exact List.getElem?_append_left (List.getElem?_eq_some_iff.mp stands).1 ▸ stands

/-! One step. -/

theorem reaches_step {action : Action} {next : System env}
    (stepped : system.step action = some next) : Reaches System.step anyStep system next :=
  .single ⟨action, trivial, stepped⟩

theorem engaged_turn {shift : Option Shift} (own : Engaged format handlings worker shift)
    (others : ∀ other, other ≠ worker → Engaged format handlings other (wired.shifts other))
    (other : Nat) : Engaged format handlings other ((wired.turn worker shift).shifts other) := by
  by_cases same : other = worker
  · subst same
    simpa [Wired.turn] using own
  · simpa [Wired.turn, same] using others other same

theorem seen_giveBack (env : Env) (format : FloatFormat) (line : Line) (body : ByteArray) :
    Line.seen env format { line with bodies := body :: line.bodies } =
      (line.seen env format).withQueue
        ((jobOf? env format body).toList ++ (line.seen env format).queue) := by
  cases asks : jobOf? env format body <;>
    simp [Line.seen, World.withQueue, asks]

theorem giveBack_shifts (wired : Wired) (shift : Shift) :
    (wired.giveBack shift).shifts = wired.shifts ∧ (wired.giveBack shift).rpcs = wired.rpcs := by
  unfold Wired.giveBack
  split <;> exact ⟨rfl, rfl⟩

/-- Settling ends a turn, and the broker has the body again only if it was held. -/
theorem settle_cases (wired : Wired) (worker : Nat) (shift : Shift)
    (fault : Option (Fault PyException))
    (resume : Except (Raised PyException) Unit → WorkerTask Unit) :
    ∃ reply,
      wired.settle worker shift fault resume =
          wired.turn worker (some { shift with held := false, task := resume reply }) ∨
        shift.held = true ∧ wired.settle worker shift fault resume =
          (wired.giveBack shift).turn worker
            (some { shift with held := false, task := resume reply }) := by
  cases fault with
  | none => exact ⟨_, .inl rfl⟩
  | some fault =>
    refine ⟨.error fault.raised, ?_⟩
    by_cases landed : fault.landed = true
    · simp [Wired.settle, landed]
    · by_cases held : shift.held = true
      · simp [Wired.settle, landed, held]
      · simp [Wired.settle, Wired.giveBack, landed, held]

/-- A worker's step answers a call of its job, or settles its message. -/
theorem step_work_task {fault : Option (Fault PyException)}
    (stepped : wired.step env format (.work worker fault) = some after) :
    ∃ shift, wired.shifts worker = some shift ∧
      ((∃ call resume, shift.task = .await (.job call) resume ∧
          after = { wired with
            line := (answer (transmit env format) fault call wired.line).2 }.turn worker
              (some { shift with
                task := resume (answer (transmit env format) fault call wired.line).1 })) ∨
        ∃ resume : Except (Raised PyException) Unit → WorkerTask Unit,
          (shift.task = .await .ack resume ∨ shift.task = .await .reject resume) ∧
            after = wired.settle worker shift fault resume) := by
  obtain ⟨shift, inHand, stepped⟩ := Option.bind_eq_some_iff.mp stepped
  refine ⟨shift, inHand, ?_⟩
  split at stepped
  · rename_i call resume waits
    cases stepped
    exact .inl ⟨call, resume, waits, rfl⟩
  · rename_i resume waits
    cases stepped
    exact .inr ⟨resume, .inl waits, rfl⟩
  · rename_i resume waits
    cases stepped
    exact .inr ⟨resume, .inr waits, rfl⟩
  · cases stepped

theorem Settling.over {task : WorkerTask Unit} (settling : Settling task)
    {resume : Except (Raised PyException) Unit → WorkerTask Unit}
    (waits : task = .await .ack resume ∨ task = .await .reject resume)
    (reply : Except (Raised PyException) Unit) : (resume reply).ended = true := by
  obtain ⟨call, own, rfl, _, ended⟩ := settling
  rcases waits with same | same <;> cases same <;> exact ended reply

theorem Settling.no_job {task : WorkerTask Unit} (settling : Settling task) (call : Call)
    (resume : Except (Raised PyException) (Reply call) → WorkerTask Unit) :
    task ≠ .await (.job call) resume := by
  obtain ⟨_, own, rfl, settles, _⟩ := settling
  rintro same
  cases same
  rcases settles with clash | clash <;> cases clash

theorem step_settled {index : Nat} (found : system.handlings[index]? = some handling)
    (held : handling.custody = .held) (left : Left shift handling) :
    ∃ action, system.step action = some { system with
      handlings := system.handlings.set index { handling with custody := .settled } } := by
  rcases left with ⟨ended, _⟩ | ⟨threaded, _⟩
  · exact ⟨.settle index,
      Option.bind_eq_some_iff.mpr ⟨handling, found, if_pos (by simp [held, ended])⟩⟩
  · exact ⟨.cancel index,
      Option.bind_eq_some_iff.mpr ⟨handling, found, if_pos (by simp [held, threaded])⟩⟩

theorem Settling.running {task : WorkerTask Unit} (settling : Settling task) : task.ended = false := by
  obtain ⟨_, own, rfl, _⟩ := settling
  rfl

/-- Settling the message of a handler that is over, or was cancelled. -/
theorem settle_matches {fault : Option (Fault PyException)} (same : Matches format wired system)
    {index : Nat} (found : system.handlings[index]? = some handling) (own : handling.worker = worker)
    (carries : Carries format shift handling) (left : Left shift handling)
    (done : DoneBeside system.handlings worker (· = index))
    {resume : Except (Raised PyException) Unit → WorkerTask Unit}
    (closes : ∀ reply, (resume reply).ended = true) :
    ∃ last, Reaches System.step anyStep system last ∧
      Matches format (wired.settle worker shift fault resume) last := by
  obtain ⟨reply, outcome⟩ := settle_cases wired worker shift fault resume
  -- the new shift carries the handling once the handling is no longer held
  have turned (custody : Custody) (released : custody ≠ .held) :
      Carries format { shift with held := false, task := resume reply }
        { handling with custody := custody } :=
    ⟨carries.asks, by simpa using released, .ended (closes reply) rfl left⟩
  have workers (custody : Custody) (released : custody ≠ .held) (other : Nat) :
      Engaged format (system.handlings.set index { handling with custody := custody }) other
        ((wired.turn worker (some { shift with held := false, task := resume reply })).shifts other) := by
    refine engaged_turn ?_ (fun other different => ?_) other
    · refine .job _ index { handling with custody := custody } ?_ own (turned custody released)
        (done.set (.inr rfl))
      exact List.getElem?_set_self (List.getElem?_eq_some_iff.mp found).1
    · exact (same.workers other).set found rfl fun clash => different (clash.symm.trans own)
  by_cases held : shift.held = true
  · have custody := carries.held.mp held
    rcases outcome with settled | ⟨_, lost⟩
    · obtain ⟨action, stepped⟩ := step_settled found custody left
      refine ⟨_, reaches_step stepped, ?_⟩
      rw [settled]
      exact ⟨same.world, same.rpcs, workers .settled (by simp)⟩
    · have stepped : system.step (.loseConnection index) = some { system with
          world := { system.world with queue := handling.message :: system.world.queue }
          handlings := system.handlings.set index { handling with custody := .returned } } :=
        Option.bind_eq_some_iff.mpr ⟨handling, found, if_pos (by simp [custody])⟩
      refine ⟨_, reaches_step stepped, ?_⟩
      have back := seen_giveBack env format wired.line shift.body
      rw [carries.asks] at back
      rw [lost, Wired.giveBack, if_pos held]
      refine ⟨?_, same.rpcs, workers .returned (by simp)⟩
      change _ = Line.seen env format { wired.line with bodies := shift.body :: wired.line.bodies }
      rw [back, ← same.world]
      rfl
  · have released : handling.custody ≠ .held := fun custody => held (carries.held.mpr custody)
    rcases outcome with settled | ⟨clash, _⟩
    · have unchanged : system.handlings.set index { handling with custody := handling.custody } =
          system.handlings := by
        obtain ⟨within, rfl⟩ := List.getElem?_eq_some_iff.mp found
        exact List.set_getElem_self within
      have workers := workers handling.custody released
      rw [unchanged] at workers
      refine ⟨system, .refl, ?_⟩
      rw [settled]
      exact ⟨same.world, same.rpcs, workers⟩
    · exact absurd clash held

theorem Matches.submit {submission : Submission} (same : Matches format wired system)
    (stepped : wired.step env format (.submit submission) = some after) :
    ∃ last, Reaches System.step anyStep system last ∧ Matches format after last := by
  rw [Wired.step] at stepped
  split at stepped
  · cases stepped
  · rename_i fresh
    cases stepped
    rw [← same.rpcs] at fresh
    have moved : system.step (.submit submission) =
        some { system with rpcs := system.rpcs ++ [Rpc.start submission] } := if_neg fresh
    refine ⟨_, reaches_step moved, same.world, ?_, same.workers⟩
    rw [same.rpcs]

theorem Matches.serve {index : Nat} {fault : Option (Fault PyException)}
    (same : Matches format wired system)
    (stepped : wired.step env format (.serve index fault) = some after) :
    ∃ last, Reaches System.step anyStep system last ∧ Matches format after last := by
  obtain ⟨rpc, found, stepped⟩ := Option.bind_eq_some_iff.mp stepped
  obtain ⟨⟨process, line⟩, advanced, stepped⟩ := Option.bind_eq_some_iff.mp stepped
  cases stepped
  have alike := Process.advance_congr (answer (perform env) fault)
    (Line.seen env format)
    (fun call awaits => answer_seen env format fault (sends_of_submission awaits) wired.line) advanced
  rw [← same.world] at alike
  rw [← same.rpcs] at found
  have moved : system.step (.serve index fault) = some { system with
      world := line.seen env format, rpcs := system.rpcs.set index { rpc with process } } :=
    Option.bind_eq_some_iff.mpr ⟨rpc, found, Option.bind_eq_some_iff.mpr ⟨_, alike, rfl⟩⟩
  refine ⟨_, reaches_step moved, rfl, ?_, same.workers⟩
  rw [same.rpcs]

theorem Matches.take (same : Matches format wired system)
    (stepped : wired.step env format (.take worker) = some after) :
    ∃ last, Reaches System.step anyStep system last ∧ Matches format after last := by
  rw [Wired.step] at stepped
  split at stepped
  · rename_i body bodies free next
    cases stepped
    have idle := same.workers worker
    rw [free] at idle
    obtain ⟨done⟩ := idle
    have front : system.world = _ :=
      (same.world.trans (by rw [← next])).trans
        (seen_giveBack env format ⟨wired.line.world, bodies⟩ body)
    cases asks : jobOf? env format body with
    | none =>
      rw [asks] at front
      refine ⟨system, .refl, front, same.rpcs, engaged_turn ?_ fun other _ => same.workers other⟩
      exact .poison _ asks (.inl (consumeMessage_poison asks)) rfl done
    | some message =>
      rw [asks] at front
      have queue : system.world.queue =
          message :: (Line.seen env format ⟨wired.line.world, bodies⟩).queue := by
        rw [front]
        rfl
      have all : (system.handlings.all fun handling =>
          handling.worker ≠ worker || handling.concluded) = true := by
        refine List.all_eq_true.mpr fun handling member => ?_
        obtain ⟨place, stands⟩ := List.mem_iff_getElem?.mp member
        by_cases own : handling.worker = worker
        · simp [done place handling (fun clash => clash) stands own]
        · simp [own]
      have moved : system.step (.deliver worker) = some { system with
          world := { system.world with
            queue := (Line.seen env format ⟨wired.line.world, bodies⟩).queue }
          handlings := system.handlings ++ [Handling.start env worker message] } := by
        simp only [System.step, queue]
        exact if_pos all
      refine ⟨_, reaches_step moved, ?_, same.rpcs, engaged_turn ?_ fun other different => ?_⟩
      · change { system.world with
          queue := (Line.seen env format ⟨wired.line.world, bodies⟩).queue } = _
        rw [front]
        rfl
      · refine .job _ system.handlings.length (Handling.start env worker message) ?_ rfl
          ⟨asks, iff_of_true rfl rfl, .working (consumeMessage_job asks) rfl (by simp [Handling.start])⟩
          ?_
        · exact List.getElem?_concat_length
        · exact (done.mono fun _ clash => clash.elim).append (.inr rfl)
      · exact (same.workers other).append (Ne.symm different)
  · cases stepped

/-- A call of a handling is answered. -/
theorem step_answered {index : Nat} (fault : Option (Fault PyException))
    (found : system.handlings[index]? = some handling) {call : Call}
    {resume : Except (Raised PyException) (Reply call) → Task Unit}
    (waits : handling.process.body = .await call resume)
    (goesOn : ∀ process : Process (messageProtocol env handling.message) (Handled env handling.message),
      process.body = resume (answer (perform env) fault call system.world).1 →
        handling.mayGoOn { handling with process } fault = true) :
    ∃ process, process.body = resume (answer (perform env) fault call system.world).1 ∧
      system.step (.work index fault) = some { system with
        world := (answer (perform env) fault call system.world).2
        handlings := system.handlings.set index { handling with process } } := by
  obtain ⟨number, message, custody, state, body, follows⟩ := handling
  dsimp only at waits goesOn
  subst waits
  exact ⟨⟨_, resume (answer (perform env) fault call system.world).1, follows.2 _⟩, rfl,
    Option.bind_eq_some_iff.mpr ⟨_, found, Option.bind_eq_some_iff.mpr
      ⟨_, rfl, if_pos (goesOn ⟨_, _, follows.2 _⟩ rfl)⟩⟩⟩

theorem answered_alike (same : Matches format wired system) (fault : Option (Fault PyException))
    {call : Call} {resume : Except (Raised PyException) (Reply call) → Task Unit}
    (waits : handling.process.body = .await call resume) :
    answer (perform env) fault call system.world =
      ((answer (transmit env format) fault call wired.line).1,
        (answer (transmit env format) fault call wired.line).2.seen env format) := by
  obtain ⟨number, message, custody, state, body, follows⟩ := handling
  dsimp only at waits
  subst waits
  rw [same.world]
  exact answer_seen env format fault (sends_of_job follows.1) wired.line

/-- A call of a worker is answered on both sides. -/
theorem answered_matches (same : Matches format wired system) {index : Nat}
    (found : system.handlings[index]? = some handling) (own : handling.worker = worker)
    (carries : Carries format shift handling)
    (done : DoneBeside system.handlings worker (· = index)) {action : Action} {world : World}
    {line : Line} {task : WorkerTask Unit} {thread : Option (WorkerTask Unit)}
    {process : Process (messageProtocol env handling.message) (Handled env handling.message)}
    (moved : system.step action = some { system with
      world, handlings := system.handlings.set index { handling with process } })
    (seen : world = line.seen env format)
    (turn : Turn { shift with task, thread } { handling with process }) :
    ∃ last, Reaches System.step anyStep system last ∧
      Matches format ({ wired with line }.turn worker (some { shift with task, thread })) last := by
  refine ⟨_, reaches_step moved, seen, same.rpcs, engaged_turn ?_ fun other different => ?_⟩
  · exact .job _ index _ (List.getElem?_set_self (List.getElem?_eq_some_iff.mp found).1) own
      ⟨carries.asks, carries.held, turn⟩ (done.set (.inr rfl))
  · exact (same.workers other).set found rfl fun clash => different (clash.symm.trans own)

theorem work_matches {fault : Option (Fault PyException)} (same : Matches format wired system)
    {index : Nat} (found : system.handlings[index]? = some handling) (own : handling.worker = worker)
    (carries : Carries format shift handling) (alone : shift.thread = none)
    (unsettled : handling.custody ≠ .settled)
    (done : DoneBeside system.handlings worker (· = index)) {call : Call}
    {resume : Except (Raised PyException) (Reply call) → Task Unit}
    (waits : handling.process.body = .await call resume) :
    ∃ last, Reaches System.step anyStep system last ∧
      Matches format ({ wired with
        line := (answer (transmit env format) fault call wired.line).2 }.turn worker
          (some { shift with
            task := processing (resume (answer (transmit env format) fault call wired.line).1) }))
        last := by
  obtain ⟨process, resumed, moved⟩ := step_answered fault found waits fun process _ => by
    simp [Handling.mayGoOn, unsettled]
  have answered := answered_alike same fault waits
  refine answered_matches same found own carries done moved (by rw [answered])
    (.working ?_ alone unsettled)
  rw [resumed, answered]

theorem thread_processing (handling : Handling env) :
    (processing handling.process.body).thread? = handling.thread? := by
  rw [Handling.thread?]
  cases handling.process.body <;> rfl

theorem Left.turn {thread : Option (WorkerTask Unit)} (left : Left { shift with thread } handling)
    (turn : Settling shift.task ∨ shift.task.ended = true ∧ shift.held = false) :
    Turn { shift with thread } handling := by
  rcases turn with task | ⟨task, released⟩
  · exact .settling task left
  · exact .ended task released left

/-- A call of a thread that was left is answered on both sides. -/
theorem land_matches {fault : Option (Fault PyException)} (same : Matches format wired system)
    {index : Nat} (found : system.handlings[index]? = some handling) (own : handling.worker = worker)
    (carries : Carries format shift handling)
    (turn : Settling shift.task ∨ shift.task.ended = true ∧ shift.held = false)
    (done : DoneBeside system.handlings worker (· = index)) {call : Call}
    {resume : Except (Raised PyException) (Reply call) → Task Unit}
    (waits : handling.process.body = .await call resume) (threaded : call.thread?.isSome = true) :
    ∃ last, Reaches System.step anyStep system last ∧
      Matches format ({ wired with
        line := (answer (transmit env format) fault call wired.line).2 }.turn worker
          (some { shift with
            thread := WorkerTask.rest call.thread? fault
              (processing (resume (answer (transmit env format) fault call wired.line).1)) }))
        last := by
  have answered := answered_alike same fault waits
  -- a thread that raises, or has returned, is the end of the handler it was left by
  have parted (landed : Bool)
      (world : (answer (perform env) (some ⟨.cancelled, landed⟩) call system.world).2 =
        (answer (perform env) fault call system.world).2) :
      ∃ last, Reaches System.step anyStep system last ∧
        Matches format ({ wired with
          line := (answer (transmit env format) fault call wired.line).2 }.turn worker
            (some { shift with thread := none })) last := by
    obtain ⟨process, resumed, moved⟩ := step_answered (some ⟨.cancelled, landed⟩) found waits
      fun process _ => by simp [Handling.mayGoOn]
    have left : Left { shift with thread := none } { handling with process } := by
      refine .inl ⟨?_, rfl⟩
      rw [Handling.ended, resumed]
      exact System.ended_of_cancelled waits
    exact answered_matches same found own carries done moved (world.trans (by rw [answered]))
      (left.turn turn)
  cases fault with
  | some fault => exact parted fault.landed rfl
  | none =>
    rw [WorkerTask.rest]
    split
    · rename_i goesOn
      have thread (process : Process (messageProtocol env handling.message)
          (Handled env handling.message))
          (resumed : process.body = resume (answer (perform env) none call system.world).1) :
          Handling.thread? { handling with process } = call.thread? := by
        rw [answered] at resumed
        rw [← thread_processing, ← goesOn, resumed]
      obtain ⟨process, resumed, moved⟩ := step_answered none found waits fun process resumed => by
        have mine : handling.thread? = call.thread? := by rw [Handling.thread?, waits]
        simp [Handling.mayGoOn, thread process resumed, mine]
      have left : Left { shift with
          thread := some (processing (resume (answer (transmit env format) none call wired.line).1)) }
          { handling with process } := by
        refine .inr ⟨?_, ?_⟩
        · rw [thread process resumed]
          exact threaded
        · rw [resumed, answered]
      exact answered_matches same found own carries done moved (by rw [answered]) (left.turn turn)
    · exact parted true rfl

/-- A poison body is dropped, or is at the broker again. -/
theorem poison_matches {fault : Option (Fault PyException)} (same : Matches format wired system)
    (poison : jobOf? env format shift.body = none) (alone : shift.thread = none)
    (done : DoneBeside system.handlings worker fun _ => False)
    {resume : Except (Raised PyException) Unit → WorkerTask Unit}
    (closes : ∀ reply, (resume reply).ended = true) :
    Matches format (wired.settle worker shift fault resume) system := by
  obtain ⟨reply, outcome⟩ := settle_cases wired worker shift fault resume
  have own : Engaged format system.handlings worker
      (some { shift with held := false, task := resume reply }) :=
    .poison _ poison (.inr (closes reply)) alone done
  rcases outcome with settled | ⟨held, lost⟩
  · rw [settled]
    exact ⟨same.world, same.rpcs, engaged_turn own fun other _ => same.workers other⟩
  · have back := seen_giveBack env format wired.line shift.body
    rw [poison] at back
    rw [lost, Wired.giveBack, if_pos held]
    exact ⟨same.world.trans back.symm, same.rpcs, engaged_turn own fun other _ => same.workers other⟩

theorem Matches.work {fault : Option (Fault PyException)} (same : Matches format wired system)
    (stepped : wired.step env format (.work worker fault) = some after) :
    ∃ last, Reaches System.step anyStep system last ∧ Matches format after last := by
  obtain ⟨shift, inHand, moved⟩ := step_work_task stepped
  have engaged := same.workers worker
  rw [inHand] at engaged
  -- a turn that is over makes no call
  have busy : shift.task.ended = false := by
    rcases moved with ⟨call, resume, waits, _⟩ | ⟨resume, waits | waits, _⟩ <;> rw [waits] <;> rfl
  cases engaged with
  | poison _ poison task alone done =>
    have settling := task.resolve_right (by simp [busy])
    rcases moved with ⟨call, resume, waits, _⟩ | ⟨resume, waits, rfl⟩
    · exact absurd waits (settling.no_job call resume)
    · exact ⟨system, .refl, poison_matches same poison alone done (settling.over waits)⟩
  | job _ index handling found own carries done =>
    have settles (settling : Settling shift.task) (left : Left shift handling) :
        ∃ last, Reaches System.step anyStep system last ∧ Matches format after last := by
      rcases moved with ⟨call, resume, waits, _⟩ | ⟨resume, waits, rfl⟩
      · exact absurd waits (settling.no_job call resume)
      · exact settle_matches same found own carries left done (settling.over waits)
    cases carries.turn with
    | settling task left => exact settles task left
    | ended task released left => cases busy.symm.trans task
    | working task alone unsettled =>
      by_cases ended : handling.ended = true
      · exact settles (task ▸ processing_ended ended) (.inl ⟨ended, alone⟩)
      · cases awaits : handling.process.body with
        | ret value => exact absurd (by rw [Handling.ended, awaits]; rfl) ended
        | raise raised => exact absurd (by rw [Handling.ended, awaits]; rfl) ended
        | await call resume =>
          rw [awaits, processing_await] at task
          rcases moved with ⟨call', resume', waits, rfl⟩ | ⟨resume', waits | waits, _⟩
          · cases task.symm.trans waits
            exact work_matches same found own carries alone unsettled done awaits
          · cases task.symm.trans waits
          · cases task.symm.trans waits

theorem concluded_of_released (released : handling.custody ≠ .held) (ended : handling.ended = true) :
    handling.concluded = true := by
  simp [Handling.concluded, released, ended]

theorem dead_concluded (handling : Handling env) : handling.dead.concluded = true := by
  refine concluded_of_released ?_ rfl
  simp only [Handling.dead]
  split <;> simp

theorem DoneBeside.all {index : Nat} (done : DoneBeside handlings worker (· = index))
    (found : handlings[index]? = some handling) (concluded : handling.concluded = true) :
    DoneBeside handlings worker fun _ => False := by
  intro place other _ stands belongs
  by_cases mine : place = index
  · subst mine
    cases stands.symm.trans found
    exact concluded
  · exact done place other mine stands belongs

theorem Matches.next (same : Matches format wired system)
    (stepped : wired.step env format (.next worker) = some after) : Matches format after system := by
  obtain ⟨shift, inHand, stepped⟩ := Option.bind_eq_some_iff.mp stepped
  split at stepped
  · rename_i idle
    cases stepped
    rw [Bool.and_eq_true, Option.isNone_iff_eq_none] at idle
    have engaged := same.workers worker
    rw [inHand] at engaged
    refine ⟨same.world, same.rpcs, engaged_turn (.idle ?_) fun other _ => same.workers other⟩
    cases engaged with
    | poison _ poison task alone done => exact done
    | job _ index handling found own carries done =>
      cases carries.turn with
      | working task alone unsettled =>
        rw [task, processing_running] at idle
        cases idle.1
      | settling task left =>
        cases task.running.symm.trans idle.1
      | ended task released left =>
        rcases left with ⟨ended, _⟩ | ⟨_, thread⟩
        · refine done.all found (concluded_of_released (fun held => ?_) ended)
          cases released.symm.trans (carries.held.mpr held)
        · cases idle.2.symm.trans thread
  · cases stepped

/-- A worker is cancelled: its thread is at work for the same handler as before. -/
theorem Matches.cancel (same : Matches format wired system)
    (stepped : wired.step env format (.cancel worker) = some after) : Matches format after system := by
  obtain ⟨shift, inHand, stepped⟩ := Option.bind_eq_some_iff.mp stepped
  split at stepped
  · rename_i call resume waits
    split at stepped
    · rename_i threaded
      cases stepped
      have engaged := same.workers worker
      rw [inHand] at engaged
      refine ⟨same.world, same.rpcs, engaged_turn ?_ fun other _ => same.workers other⟩
      cases engaged with
      | poison _ poison task alone done =>
        rcases task with settling | ended
        · exact absurd waits (settling.no_job call resume)
        · rw [waits] at ended
          cases ended
      | job _ index handling found own carries done =>
        refine .job _ index handling found own ⟨carries.asks, carries.held, ?_⟩ done
        cases carries.turn with
        | settling task left => exact absurd waits (task.no_job call resume)
        | ended task released left =>
          rw [waits] at task
          cases task
        | working task alone unsettled =>
          obtain ⟨resume', awaits, rfl⟩ := processing_job (task.symm.trans waits)
          refine .settling (processing_ended (System.ended_of_cancelled awaits)) (.inr ⟨?_, ?_⟩)
          · rwa [Handling.thread?, awaits]
          · rw [task]
    · cases stepped
  · cases stepped

theorem Matches.land {fault : Option (Fault PyException)} (same : Matches format wired system)
    (stepped : wired.step env format (.land worker fault) = some after) :
    ∃ last, Reaches System.step anyStep system last ∧ Matches format after last := by
  obtain ⟨shift, inHand, stepped⟩ := Option.bind_eq_some_iff.mp stepped
  split at stepped
  · rename_i call resume atWork
    cases stepped
    have engaged := same.workers worker
    rw [inHand] at engaged
    cases engaged with
    | poison _ poison task alone done => cases alone.symm.trans atWork
    | job _ index handling found own carries done =>
      obtain ⟨turn, left⟩ : (Settling shift.task ∨ shift.task.ended = true ∧ shift.held = false) ∧
          Left shift handling := by
        cases carries.turn with
        | working task alone unsettled => cases alone.symm.trans atWork
        | settling task left => exact ⟨.inl task, left⟩
        | ended task released left => exact ⟨.inr ⟨task, released⟩, left⟩
      rcases left with ⟨_, gone⟩ | ⟨threaded, thread⟩
      · cases gone.symm.trans atWork
      · obtain ⟨resume', awaits, rfl⟩ := processing_job (Option.some.inj (thread.symm.trans atWork))
        rw [Handling.thread?, awaits] at threaded
        exact land_matches same found own carries turn done awaits threaded
  · cases stepped

theorem Matches.loseConnection (same : Matches format wired system)
    (stepped : wired.step env format (.loseConnection worker) = some after) :
    ∃ last, Reaches System.step anyStep system last ∧ Matches format after last := by
  obtain ⟨shift, inHand, stepped⟩ := Option.bind_eq_some_iff.mp stepped
  split at stepped
  · rename_i held
    cases stepped
    rw [Wired.giveBack, if_pos held]
    have back := seen_giveBack env format wired.line shift.body
    have engaged := same.workers worker
    rw [inHand] at engaged
    cases engaged with
    | poison _ poison task alone done =>
      rw [poison] at back
      exact ⟨system, .refl, same.world.trans back.symm, same.rpcs,
        engaged_turn (.poison _ poison task alone done) fun other _ => same.workers other⟩
    | job _ index handling found own carries done =>
      rw [carries.asks] at back
      have moved : system.step (.loseConnection index) = some { system with
          world := { system.world with queue := handling.message :: system.world.queue }
          handlings := system.handlings.set index { handling with custody := .returned } } :=
        Option.bind_eq_some_iff.mpr ⟨handling, found, if_pos (by simp [carries.held.mp held])⟩
      refine ⟨_, reaches_step moved, ?_, same.rpcs, engaged_turn ?_ fun other different => ?_⟩
      · change _ = Line.seen env format { wired.line with bodies := shift.body :: wired.line.bodies }
        rw [back, ← same.world]
        rfl
      · refine .job _ index { handling with custody := .returned }
          (List.getElem?_set_self (List.getElem?_eq_some_iff.mp found).1) own
          ⟨carries.asks, by simp, ?_⟩ (done.set (.inr rfl))
        cases carries.turn with
        | working task alone unsettled => exact .working task alone (by simp)
        | settling task left => exact .settling task left
        | ended task released left => exact .ended task rfl left
      · exact (same.workers other).set found rfl fun clash => different (clash.symm.trans own)
  · cases stepped

theorem Matches.crash (same : Matches format wired system)
    (stepped : wired.step env format (.crash worker) = some after) :
    ∃ last, Reaches System.step anyStep system last ∧ Matches format after last := by
  obtain ⟨shift, inHand, stepped⟩ := Option.bind_eq_some_iff.mp stepped
  cases stepped
  have engaged := same.workers worker
  rw [inHand] at engaged
  have back := seen_giveBack env format wired.line shift.body
  obtain ⟨shifts, rpcs⟩ := giveBack_shifts wired shift
  have others {handlings : List (Handling env)} (own : Engaged format handlings worker none)
      (rest : ∀ other, other ≠ worker → Engaged format handlings other (wired.shifts other)) :
      ∀ other, Engaged format handlings other
        (((wired.giveBack shift).turn worker none).shifts other) :=
    engaged_turn own fun other different => by
      rw [shifts]
      exact rest other different
  cases engaged with
  | poison _ poison task alone done =>
    refine ⟨system, .refl, ?_, same.rpcs.trans rpcs.symm,
      others (.idle done) fun other _ => same.workers other⟩
    rw [poison] at back
    unfold Wired.giveBack
    split
    · exact same.world.trans back.symm
    · exact same.world
  | job _ index handling found own carries done =>
    by_cases concluded : handling.concluded = true
    · have loose : shift.held = false := by
        by_contra held
        have custody := carries.held.mp (Bool.not_eq_false _ ▸ held)
        simp [Handling.concluded, custody] at concluded
      have unchanged : wired.giveBack shift = wired := by
        simp [Wired.giveBack, loose]
      rw [unchanged] at others ⊢
      exact ⟨system, .refl, same.world, same.rpcs,
        others (.idle (done.all found concluded)) fun other _ => same.workers other⟩
    · have moved : system.step (.crash index) = some { system with
          world := { system.world with
            queue := (if handling.custody = .held then [handling.message] else []) ++
              system.world.queue }
          handlings := system.handlings.set index handling.dead } :=
        Option.bind_eq_some_iff.mpr ⟨handling, found, if_neg concluded⟩
      have gone : (system.handlings.set index handling.dead)[index]? = some handling.dead :=
        List.getElem?_set_self (List.getElem?_eq_some_iff.mp found).1
      have idle : DoneBeside (system.handlings.set index handling.dead) worker fun _ => False :=
        (done.set (.inr rfl)).all gone (dead_concluded handling)
      refine ⟨_, reaches_step moved, ?_, same.rpcs.trans rpcs.symm,
        others (.idle idle) fun other different =>
          (same.workers other).set found rfl fun clash => different (clash.symm.trans own)⟩
      rw [carries.asks] at back
      by_cases held : shift.held = true
      · have custody := carries.held.mp held
        rw [Wired.giveBack, if_pos held]
        change _ = Line.seen env format { wired.line with bodies := shift.body :: wired.line.bodies }
        rw [back, ← same.world]
        simp [custody, World.withQueue]
      · have custody : handling.custody ≠ .held := fun custody => held (carries.held.mpr custody)
        rw [Wired.giveBack, if_neg held]
        simp only [custody, if_false, List.nil_append]
        exact same.world

/-- Whatever others send is no job. -/
def NoForgery (env : Env) (format : FloatFormat) (_ : Wired) : WireAction → Prop
  | .inject body => jobOf? env format body = none
  | _ => True

theorem Matches.step {action : WireAction} (same : Matches format wired system)
    (genuine : NoForgery env format wired action)
    (stepped : wired.step env format action = some after) :
    ∃ last, Reaches System.step anyStep system last ∧ Matches format after last := by
  cases action with
  | submit submission => exact same.submit stepped
  | serve index fault => exact same.serve stepped
  | replaceFiles extractText =>
    cases stepped
    have moved : system.step (.replaceFiles extractText) =
        some { system with world := { system.world with extractText } } := rfl
    refine ⟨_, reaches_step moved, ?_, same.rpcs, same.workers⟩
    rw [same.world]
    rfl
  | inject body =>
    cases stepped
    have pushed := seen_push env format wired.line body
    rw [show jobOf? env format body = none from genuine] at pushed
    simp only [Option.toList_none, List.append_nil] at pushed
    exact ⟨system, .refl, same.world.trans pushed.symm, same.rpcs, same.workers⟩
  | take worker => exact same.take stepped
  | work worker fault => exact same.work stepped
  | cancel worker => exact ⟨system, .refl, same.cancel stepped⟩
  | land worker fault => exact same.land stepped
  | next worker => exact ⟨system, .refl, same.next stepped⟩
  | loseConnection worker => exact same.loseConnection stepped
  | crash worker => exact same.crash stepped

end Refinement

theorem matches_initial (env : Env) (format : FloatFormat) (collection : Option Collection)
    (extractText : Extraction) :
    Matches format (Wired.initial collection extractText)
      (System.initial env collection extractText) where
  world := rfl
  rpcs := rfl
  workers := fun _ => .idle fun _ _ _ found => by simp [System.initial] at found

/-- The system on the wire refines the system of messages: whatever the bodies that others put
into the queue, as long as none asks for a job, every run of servers, broker and
workers over bodies is a run over messages, to the same rows, points, files and
requests; the queue holds the messages of its bodies in their order, and each worker
is at work on the message of its body. -/
theorem wire_refines (env : Env) (format : FloatFormat) (collection : Option Collection)
    (extractText : Extraction) (wired : Wired)
    (reaches : Reaches (Wired.step env format) (NoForgery env format)
      (Wired.initial collection extractText) wired) :
    ∃ system, Reaches System.step anyStep (System.initial env collection extractText) system ∧
      Matches format wired system :=
  reaches.simulated (Matches format)
    (fun _ _ _ genuine stepped _ same => same.step genuine stepped)
    (matches_initial env format collection extractText)

/-- The body of a list: JSON, but no envelope. -/
private def listBody : ByteArray := (String.ofList (writeValue Sample.floats (.arr []))).toUTF8

private theorem listBody_poison : jobOf? Sample.env Sample.floats listBody = none := by
  have decoded : decodeBody Sample.floats listBody = .ok (.arr []) := decodeBody_toUTF8 rfl
  simp only [jobOf?, decoded]
  rfl

/-- A foreign body is first in the queue, and a worker takes it before the job behind it. -/
theorem wire_refines_sample :
    ∃ wired : Wired, wired.line.bodies.length = 1 ∧ (wired.shifts 0).isSome = true ∧
      ∃ system, Reaches System.step anyStep Sample.fresh system ∧
        Matches Sample.floats wired system := by
  let run : List WireAction := [.inject listBody, .submit Sample.pathJob, .serve 0 none,
    .serve 0 none, .take 0]
  obtain ⟨wired, played, waiting, taken⟩ : ∃ wired,
      run.foldlM (Wired.step Sample.env Sample.floats) (Wired.initial none Sample.extract) =
        some wired ∧ wired.line.bodies.length = 1 ∧ (wired.shifts 0).isSome = true :=
    ⟨_, rfl, rfl, rfl⟩
  have reaches : Reaches (Wired.step Sample.env Sample.floats) (NoForgery Sample.env Sample.floats)
      (Wired.initial none Sample.extract) wired := by
    refine reaches_of_play (fun action member state => ?_) played
    simp only [run, List.mem_cons, List.not_mem_nil, or_false] at member
    rcases member with rfl | rfl | rfl | rfl | rfl
    · exact listBody_poison
    all_goals trivial
  exact ⟨wired, waiting, taken,
    wire_refines Sample.env Sample.floats none Sample.extract wired reaches⟩

end DocContext
