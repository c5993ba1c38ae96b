import DocContext.System.Sound

/-! A job has at most one token: the submission that may still send its message,
the message waiting, or the worker that holds it or has settled it. -/

namespace DocContext

open Foundation Coroutine

/-- The message is an envelope of the job. -/
def names (env : Env) (jobId : String) (message : JsonValue) : Bool :=
  (JobEnvelope.fromPayload env.repr message).toOption.any fun envelope => envelope.jobId = jobId

theorem names_iff {env : Env} {jobId : String} {message : JsonValue} :
    names env jobId message = true ↔ ∃ envelope,
      JobEnvelope.fromPayload env.repr message = .ok envelope ∧ envelope.jobId = jobId := by
  unfold names
  cases JobEnvelope.fromPayload env.repr message <;> simp [Except.toOption]

theorem names_toPayload {env : Env} {envelope : JobEnvelope} (wellFormed : envelope.WellFormed)
    (jobId : String) : names env jobId envelope.toPayload = decide (envelope.jobId = jobId) := by
  rw [names, JobEnvelope.fromPayload_of_wellFormed env.repr wellFormed]
  rfl

/-- The submission may still send a message of the job. -/
def Rpc.pends (jobId : String) (rpc : Rpc) : Bool :=
  (rpc.process.state = .arrived || rpc.process.state = .created) && rpc.submission.jobId = jobId

namespace Handling

variable {env : Env}

/-- The message is one of the job. -/
def on (jobId : String) (handling : Handling env) : Bool := names env jobId handling.message

/-- The worker holds the message of the job, or has settled it. -/
def keeps (jobId : String) (handling : Handling env) : Bool :=
  handling.custody ≠ .returned && handling.on jobId

end Handling

namespace System

variable {env : Env} {system after : System env} {index worker : Nat}
  {fault : Option (Fault PyException)} {jobId : String}

def tokens (jobId : String) (system : System env) : Nat :=
  system.rpcs.countP (Rpc.pends jobId) + system.world.queue.countP (names env jobId) +
    system.handlings.countP (Handling.keeps jobId)

/-- A job has at most one token, and none before it is submitted. -/
structure Sole (jobId : String) (system : System env) : Prop where
  one : system.tokens jobId ≤ 1
  none : jobId ∉ system.submissions.map Submission.jobId → system.tokens jobId = 0

theorem tokens_rpc {rpc next : Rpc} {world : World} (found : system.rpcs[index]? = some rpc)
    (fewer : world.queue.countP (names env jobId) + (if next.pends jobId then 1 else 0) ≤
      system.world.queue.countP (names env jobId) + if rpc.pends jobId then 1 else 0) :
    ({ system with world, rpcs := system.rpcs.set index next } : System env).tokens jobId ≤
      system.tokens jobId := by
  have replaced := countP_replace (Rpc.pends jobId) found next
  simp only [tokens]
  omega

theorem tokens_handling {handling next : Handling env} {world : World}
    (found : system.handlings[index]? = some handling)
    (fewer : world.queue.countP (names env jobId) + (if next.keeps jobId then 1 else 0) ≤
      system.world.queue.countP (names env jobId) + if handling.keeps jobId then 1 else 0) :
    ({ system with world, handlings := system.handlings.set index next } : System env).tokens jobId ≤
      system.tokens jobId := by
  have replaced := countP_replace (Handling.keeps jobId) found next
  simp only [tokens]
  omega

theorem keeps_of_held {handling : Handling env} (held : handling.custody = .held) :
    handling.keeps jobId = names env jobId handling.message := by
  rw [Handling.keeps, held]
  rfl

theorem tokens_serve (stepped : system.step (.serve index fault) = some after) :
    after.tokens jobId ≤ system.tokens jobId := by
  obtain ⟨rpc, process, world, found, served, rfl⟩ := step_serve stepped
  have spent (reached : process.state ≠ .arrived ∧ process.state ≠ .created) :
      Rpc.pends jobId { rpc with process } = false := by
    simp [Rpc.pends, reached]
  apply tokens_rpc found
  cases served with
  | created was row free queued now wrote =>
    subst wrote
    rcases now with now | now
    · have pends : Rpc.pends jobId { rpc with process } = Rpc.pends jobId rpc := by
        simp [Rpc.pends, now, was]
      rw [pends]
    · rw [spent (by simp [now])]
      exact Nat.le_add_right ..
  | refused was now same | orphaned was now same =>
    rw [same, spent (by simp [now])]
    exact Nat.le_add_right ..
  | published was wellFormed now sent =>
    -- the message takes the place of the submission
    have here : Rpc.pends jobId rpc = decide (rpc.submission.jobId = jobId) := by
      simp [Rpc.pends, was]
    have message := @names_toPayload env _ wellFormed jobId
    rw [spent (by rcases now with now | now <;> simp [now]), here, sent, List.countP_append,
      List.countP_singleton, message]
    exact Nat.le_refl _

theorem tokens_step {action : Action} (stepped : system.step action = some after)
    (old : ∀ submission, action ≠ .submit submission) :
    after.tokens jobId ≤ system.tokens jobId := by
  cases action with
  | submit submission => exact absurd rfl (old submission)
  | serve index fault => exact tokens_serve stepped
  | replaceFiles extractText =>
    cases stepped
    exact Nat.le_refl _
  | deliver worker =>
    obtain ⟨message, queue, next, rfl⟩ := step_deliver stepped
    have kept : Handling.keeps jobId (Handling.start env worker message) = names env jobId message :=
      rfl
    simp only [tokens, next, List.countP_append, List.countP_cons, List.countP_nil, kept]
    omega
  | work index fault =>
    obtain ⟨handling, process, call, resume, envelope, found, _, _, awaits, _, rfl⟩ :=
      step_work stepped
    apply tokens_handling found
    rw [answer_queue (awaits_quiet awaits)]
    exact Nat.le_refl _
  | settle index | cancel index =>
    obtain ⟨handling, found, held, _, rfl⟩ := step_dismisses index (by simp) stepped
    apply tokens_handling found
    rw [keeps_of_held held]
    exact Nat.le_refl _
  | loseConnection index =>
    obtain ⟨handling, found, held, rfl⟩ := step_loseConnection stepped
    apply tokens_handling found
    rw [keeps_of_held held, List.countP_cons]
    exact Nat.le_refl _
  | crash index =>
    obtain ⟨handling, found, _, rfl⟩ := step_crash stepped
    apply tokens_handling found
    by_cases held : handling.custody = .held
    · have lost : Handling.keeps jobId handling.dead = false := by
        simp [Handling.keeps, Handling.dead, held]
      rw [lost, if_neg Bool.false_ne_true, Nat.add_zero, List.countP_append, if_pos held,
        keeps_of_held held, List.countP_singleton]
      exact Nat.le_of_eq (Nat.add_comm ..)
    · have kept : Handling.keeps jobId handling.dead = Handling.keeps jobId handling := by
        cases custody : handling.custody with
        | held => exact absurd custody held
        | returned | settled => simp [Handling.keeps, Handling.dead, Handling.on, custody]
      rw [kept, if_neg held]
      exact Nat.le_refl _

theorem sole_step {action : Action} (sole : system.Sole jobId)
    (stepped : system.step action = some after) : after.Sole jobId := by
  by_cases new : ∃ submission, action = .submit submission
  · obtain ⟨submission, rfl⟩ := new
    obtain ⟨fresh, rfl⟩ := step_submit stepped
    have submitted : ({ system with rpcs := system.rpcs ++ [Rpc.start submission] } :
        System env).submissions = system.submissions ++ [submission] := by
      rw [submissions, List.map_append]
      rfl
    have start : Rpc.pends jobId (Rpc.start submission) = decide (submission.jobId = jobId) := rfl
    have grown : ({ system with rpcs := system.rpcs ++ [Rpc.start submission] } :
        System env).tokens jobId =
          system.tokens jobId + if submission.jobId = jobId then 1 else 0 := by
      simp only [tokens, List.countP_append, List.countP_singleton, start, decide_eq_true_eq]
      omega
    by_cases own : submission.jobId = jobId
    · have before : system.tokens jobId = 0 := by
        refine sole.none fun listed => ?_
        obtain ⟨other, member, same⟩ := List.mem_map.mp listed
        obtain ⟨rpc, known, rfl⟩ := List.mem_map.mp member
        exact fresh rpc known (same.trans own.symm)
      refine ⟨by rw [grown, before, if_pos own], fun absent => ?_⟩
      rw [submitted, List.map_append] at absent
      exact absurd (List.mem_append_right _ (by simp [own])) absent
    · rw [if_neg own, Nat.add_zero] at grown
      refine ⟨by rw [grown]; exact sole.one, fun absent => ?_⟩
      rw [submitted, List.map_append] at absent
      rw [grown]
      exact sole.none fun listed => absent (List.mem_append_left _ listed)
  · have old : ∀ submission, action ≠ .submit submission :=
      fun submission same => new ⟨submission, same⟩
    have less : after.tokens jobId ≤ system.tokens jobId := tokens_step stepped old
    refine ⟨less.trans sole.one, fun absent => ?_⟩
    rw [submissions_step stepped old] at absent
    have zero := sole.none absent
    omega

/-- In every state a job has one message at most that is not settled. -/
theorem sole_of_reaches {allowed : System env → Action → Prop} {collection : Option Collection}
    {extractText : Extraction} (jobId : String)
    (reaches : Reaches step allowed (initial env collection extractText) system) :
    system.Sole jobId :=
  reaches.invariant (Sole jobId) (fun _ _ _ _ stepped sole => sole_step sole stepped)
    ⟨Nat.zero_le 1, fun _ => rfl⟩

theorem Sole.unique (sole : system.Sole jobId) {one two : Handling env} {place : Nat}
    (found : system.handlings[index]? = some one) (found' : system.handlings[place]? = some two)
    (keeps : one.keeps jobId = true) (keeps' : two.keeps jobId = true) : index = place := by
  have few : system.handlings.countP (Handling.keeps jobId) ≤ 1 := by
    have one := sole.one
    rw [tokens] at one
    omega
  exact index_unique few found found' keeps keeps'

end System

end DocContext
