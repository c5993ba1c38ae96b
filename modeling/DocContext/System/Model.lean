import DocContext.Foundation.Machine
import DocContext.Services.Submission
import DocContext.Workers.Effect

/-! The whole system: servers handling submissions, a broker with one job queue,
and workers consuming it, one awaited call of one coroutine at a time. -/

namespace DocContext

open Foundation Coroutine

/-- The lifecycle of the job a message names; a message that is no envelope makes
no calls. -/
def messageProtocol (env : Env) (message : JsonValue) : Protocol Call Reply PyException Stage :=
  match JobEnvelope.fromPayload env.repr message with
  | .ok envelope => jobProtocol env envelope
  | .error _ => ⟨fun _ _ => False, Stage.moves⟩

/-- How the handler may end on a message. -/
def Handled (env : Env) (message : JsonValue) (stage : Stage)
    (result : Except (Raised PyException) Unit) : Prop :=
  match JobEnvelope.fromPayload env.repr message with
  | .ok _ => stage.Ended result
  | .error _ => ∃ raised, result = .error raised

/-- The function a worker runs in a thread of its own, by `asyncio.to_thread`. -/
inductive Thread where
  | extractText
  | embed
  | ensureCollection
  | upsert
  | deleteByDocument
deriving DecidableEq

/-- The thread a call of a worker is made in. The calls of no thread are made by the
event loop. -/
def Call.thread? : Call → Option Thread
  | .extractText .. => some .extractText
  | .embed _ => some .embed
  | .getCollections | .createCollection _ | .createPayloadIndex _ => some .ensureCollection
  | .upsertPoints _ => some .upsert
  | .count _ | .deletePoints _ => some .deleteByDocument
  | _ => none

/-- Who answers for a message that was handed out. -/
inductive Custody where
  /-- Its consumer will settle it. -/
  | held
  /-- It is the broker's again. -/
  | returned
  /-- It was acknowledged, or rejected for good. -/
  | settled
deriving DecidableEq

/-- One message handed to a worker, and the handler at work on it. -/
structure Handling (env : Env) where
  worker : Nat
  message : JsonValue
  custody : Custody
  process : Process (messageProtocol env message) (Handled env message)

/-- One request to a server, and its handler at work. -/
structure Rpc where
  submission : Submission
  process : Process (submissionProtocol submission.envelope) (Phase.Ended submission.jobId)

structure System (env : Env) where
  world : World
  rpcs : List Rpc
  handlings : List (Handling env)

def Rpc.start (submission : Submission) : Rpc where
  submission := submission
  process := ⟨.arrived, submission.handle, submission.handle_follows⟩

theorem handle_follows_message (env : Env) (message : JsonValue) :
    Follows (messageProtocol env message) (Handled env message) .received
      (DocumentWorker.handle env message) := by
  unfold messageProtocol Handled DocumentWorker.handle
  cases JobEnvelope.fromPayload env.repr message with
  | ok envelope => exact DocumentWorker.handleEnvelope_follows env envelope
  | error error => exact ⟨_, rfl⟩

namespace Handling

variable {env : Env}

def start (env : Env) (worker : Nat) (message : JsonValue) : Handling env where
  worker := worker
  message := message
  custody := .held
  process := ⟨.received, DocumentWorker.handle env message, handle_follows_message env message⟩

/-- The handler has returned or raised. -/
def ended (handling : Handling env) : Bool := handling.process.body.ended

/-- The thread that is at work for the handler. -/
def thread? (handling : Handling env) : Option Thread :=
  match handling.process.body with
  | .await call _ => call.thread?
  | .ret _ | .raise _ => none

/-- The worker is done with the message: it is settled or the broker's again, and neither the
handler nor a thread of it is at work. -/
def concluded (handling : Handling env) : Bool :=
  handling.custody ≠ .held && handling.ended

/-- The handler is over, or was cancelled and has a thread left. -/
def Threaded (handling : Handling env) : Prop :=
  handling.ended = true ∨ handling.thread?.isSome = true

/-- A handler whose message is settled was cancelled. Its thread makes the calls it still has to
make, and the handler is over when the thread ends, whichever way. -/
def mayGoOn (handling next : Handling env) (fault : Option (Fault PyException)) : Bool :=
  handling.custody ≠ .settled ||
    match fault with
    | none => next.thread? = handling.thread?
    | some fault => fault.raised = .cancelled

theorem handled_cancelled (env : Env) (message : JsonValue) :
    Handled env message .cancelled (.error .cancelled) := by
  unfold Handled
  split
  · exact .inr ⟨.inr (.inr rfl), _, rfl⟩
  · exact ⟨_, rfl⟩

/-- The worker process is gone; what it held is the broker's again. -/
def dead (handling : Handling env) : Handling env where
  worker := handling.worker
  message := handling.message
  custody := if handling.custody = .settled then .settled else .returned
  process := ⟨.cancelled, .raise .cancelled, handled_cancelled env handling.message⟩

end Handling

/-- What can happen next. -/
inductive Action where
  /-- A request reaches a server. -/
  | submit (submission : Submission)
  /-- A server's handler has its call answered. -/
  | serve (rpc : Nat) (fault : Option (Fault PyException))
  /-- The files in storage change. -/
  | replaceFiles (extractText : Extraction)
  /-- The broker hands the next message to an idle worker. -/
  | deliver (worker : Nat)
  /-- A worker's handler has its call answered. -/
  | work (handling : Nat) (fault : Option (Fault PyException))
  /-- A message whose handler has ended is acknowledged or rejected. -/
  | settle (handling : Nat)
  /-- A worker is cancelled while a thread is at work for its handler: the message is rejected,
  the thread goes on. -/
  | cancel (handling : Nat)
  /-- A worker loses its connection; the handler goes on. -/
  | loseConnection (handling : Nat)
  /-- A worker process dies. -/
  | crash (handling : Nat)

namespace System

variable {env : Env}

/-- A deployment before its first request. -/
def initial (env : Env) (collection : Option Collection) (extractText : Extraction) : System env where
  world := ⟨JobTable.empty, [], collection, extractText, 10⟩
  rpcs := []
  handlings := []

def step (system : System env) : Action → Option (System env)
  -- a uuid is drawn once
  | .submit submission =>
    if system.rpcs.any fun rpc => rpc.submission.jobId = submission.jobId then none
    else some { system with rpcs := system.rpcs ++ [Rpc.start submission] }
  | .serve index fault => do
    let rpc ← system.rpcs[index]?
    let (process, world) ← rpc.process.advance (answer (perform env) fault) system.world
    some { system with world, rpcs := system.rpcs.set index { rpc with process } }
  | .replaceFiles extractText => some { system with world := { system.world with extractText } }
  -- `prefetch=1`: a worker handles one message at a time
  | .deliver worker =>
    match system.world.queue with
    | [] => none
    | message :: queue =>
      if system.handlings.all fun handling => handling.worker ≠ worker || handling.concluded then
        some { system with
          world := { system.world with queue }
          handlings := system.handlings ++ [Handling.start env worker message] }
      else none
  | .work index fault => do
    let handling ← system.handlings[index]?
    let (process, world) ← handling.process.advance (answer (perform env) fault) system.world
    if handling.mayGoOn { handling with process } fault then
      some { system with world, handlings := system.handlings.set index { handling with process } }
    else none
  -- `message.process(requeue=False)`: whichever way the handler ended
  | .settle index => do
    let handling ← system.handlings[index]?
    if handling.custody = .held && handling.ended then
      some { system with
        handlings := system.handlings.set index { handling with custody := .settled } }
    else none
  | .cancel index => do
    let handling ← system.handlings[index]?
    if handling.custody = .held && handling.thread?.isSome then
      some { system with
        handlings := system.handlings.set index { handling with custody := .settled } }
    else none
  | .loseConnection index => do
    let handling ← system.handlings[index]?
    if handling.custody = .held then
      some { system with
        world := { system.world with queue := handling.message :: system.world.queue }
        handlings := system.handlings.set index { handling with custody := .returned } }
    else none
  | .crash index => do
    let handling ← system.handlings[index]?
    if handling.concluded then none
    else
      let returned := if handling.custody = .held then [handling.message] else []
      some { system with
        world := { system.world with queue := returned ++ system.world.queue }
        handlings := system.handlings.set index handling.dead }

end System

end DocContext
