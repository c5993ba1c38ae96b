import DocContext.Foundation.Machine
import DocContext.Foundation.Protocol

/-! Coroutines that work on one world, any number of them and one answered call at a
time. What one has found out survives the calls of the others, so it holds along
every run. -/

namespace Foundation

open Coroutine

variable {Call : Type} {Reply : Call → Type} {ε α σ State Argument : Type}
  {protocol : Argument → Protocol Call Reply ε State}
  {post : Argument → State → Except (Raised ε) α → Prop}

/-- A coroutine that was started with an argument. -/
structure Worker (protocol : Argument → Protocol Call Reply ε State)
    (post : Argument → State → Except (Raised ε) α → Prop) where
  argument : Argument
  process : Process (protocol argument) (post argument)

structure Crew (protocol : Argument → Protocol Call Reply ε State)
    (post : Argument → State → Except (Raised ε) α → Prop) (σ : Type) where
  world : σ
  workers : List (Worker protocol post)

inductive CrewAction (ε Argument : Type) where
  /-- A coroutine is started. -/
  | start (argument : Argument)
  /-- The call a coroutine waits for is answered. -/
  | serve (index : Nat) (fault : Option (Fault ε))

namespace Crew

def step (perform : (call : Call) → σ → Except (Raised ε) (Reply call) × σ)
    (body : (argument : Argument) → Process (protocol argument) (post argument))
    (crew : Crew protocol post σ) : CrewAction ε Argument → Option (Crew protocol post σ)
  | .start argument => some { crew with workers := crew.workers ++ [⟨argument, body argument⟩] }
  | .serve index fault => do
    let worker ← crew.workers[index]?
    let (process, world) ← worker.process.advance (answer perform fault) crew.world
    some ⟨world, crew.workers.set index { worker with process }⟩

/-- The calls that are answered are granted. -/
def Grants (granted : Argument → Call → Option (Fault ε) → σ → Prop)
    (crew : Crew protocol post σ) : CrewAction ε Argument → Prop
  | .start _ => True
  | .serve index fault => ∀ worker, crew.workers[index]? = some worker → ∀ call resume,
      worker.process.body = .await call resume → granted worker.argument call fault crew.world

/-- What a coroutine knows of the world: its own granted calls keep it up, and no call of
another takes it away. -/
structure Steady (protocol : Argument → Protocol Call Reply ε State)
    (perform : (call : Call) → σ → Except (Raised ε) (Reply call) × σ)
    (granted : Argument → Call → Option (Fault ε) → σ → Prop)
    (knows : Argument → State → σ → Prop) : Prop where
  own : ∀ argument state call fault world, (protocol argument).admits state call →
    granted argument call fault world → knows argument state world →
      knows argument ((protocol argument).moves state call (answer perform fault call world).1)
        (answer perform fault call world).2
  others : ∀ argument state call fault world, (protocol argument).admits state call →
    ∀ other state', knows other state' world →
      knows other state' (answer perform fault call world).2

variable {perform : (call : Call) → σ → Except (Raised ε) (Reply call) × σ}
  {body : (argument : Argument) → Process (protocol argument) (post argument)}
  {granted : Argument → Call → Option (Fault ε) → σ → Prop}
  {knows : Argument → State → σ → Prop} {crew after : Crew protocol post σ}

/-- Every coroutine knows what its state says. -/
def Know (knows : Argument → State → σ → Prop) (crew : Crew protocol post σ) : Prop :=
  ∀ worker ∈ crew.workers, knows worker.argument worker.process.state crew.world

theorem step_serve {index : Nat} {fault : Option (Fault ε)}
    (stepped : crew.step perform body (.serve index fault) = some after) :
    ∃ worker process call resume, crew.workers[index]? = some worker ∧
      worker.process.body = .await call resume ∧
      (protocol worker.argument).admits worker.process.state call ∧
      process.state = (protocol worker.argument).moves worker.process.state call
        (answer perform fault call crew.world).1 ∧
      after = ⟨(answer perform fault call crew.world).2,
        crew.workers.set index { worker with process }⟩ := by
  obtain ⟨worker, found, stepped⟩ := Option.bind_eq_some_iff.mp stepped
  obtain ⟨⟨process, world⟩, advanced, stepped⟩ := Option.bind_eq_some_iff.mp stepped
  cases stepped
  obtain ⟨call, resume, waits, admitted, moved, rfl⟩ := Process.advance_admitted advanced
  exact ⟨worker, process, call, resume, found, waits, admitted, moved, rfl⟩

theorem know_step (steady : Steady protocol perform granted knows)
    (new : ∀ argument world, knows argument (body argument).state world)
    {action : CrewAction ε Argument} (grants : crew.Grants granted action)
    (stepped : crew.step perform body action = some after) (know : crew.Know knows) :
    after.Know knows := by
  cases action with
  | start argument =>
    cases stepped
    intro worker member
    rcases List.mem_append.mp member with earlier | fresh
    · exact know worker earlier
    · rw [List.mem_singleton.mp fresh]
      exact new argument crew.world
  | serve index fault =>
    obtain ⟨worker, process, call, resume, found, waits, admitted, moved, rfl⟩ := step_serve stepped
    have before := know worker (List.mem_of_getElem? found)
    intro other member
    rcases List.mem_or_eq_of_mem_set member with earlier | rfl
    · exact steady.others _ _ call fault _ admitted _ _ (know other earlier)
    · change knows worker.argument process.state _
      rw [moved]
      exact steady.own _ _ call fault _ admitted (grants worker found call resume waits) before

/-- Along a run of granted calls every coroutine knows what its state says. -/
theorem know_of_reaches (steady : Steady protocol perform granted knows)
    (new : ∀ argument world, knows argument (body argument).state world) {world : σ}
    (reaches : Reaches (step perform body) (Grants granted) ⟨world, []⟩ crew) :
    crew.Know knows :=
  reaches.invariant (Know knows) (fun _ _ _ grants stepped => know_step steady new grants stepped)
    fun _ member => by cases member

end Crew

end Foundation
