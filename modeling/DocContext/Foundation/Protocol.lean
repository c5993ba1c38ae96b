import DocContext.Foundation.Coroutine

/-! Protocols: an automaton that says which call may come next and where its
reply leads. Following a protocol is a fact about the tree alone, so it holds
under every scheduler, world and fault; what ties the states of the automaton to
worlds is then carried along any run. -/

namespace Foundation

structure Protocol (Call : Type) (Reply : Call → Type) (ε State : Type) where
  admits : State → Call → Prop
  moves : State → (call : Call) → Except (Raised ε) (Reply call) → State

namespace Coroutine

variable {Call : Type} {Reply : Call → Type} {ε α β σ State : Type}
  {protocol : Protocol Call Reply ε State} {state : State}

/-- Whatever the calls reply, only admitted calls are made, and the coroutine
ends in a state that `post` relates to its result. -/
def Follows (protocol : Protocol Call Reply ε State)
    (post : State → Except (Raised ε) α → Prop) : State → Coroutine Call Reply ε α → Prop
  | state, .ret value => post state (.ok value)
  | state, .raise raised => post state (.error raised)
  | state, .await call resume =>
    protocol.admits state call ∧
      ∀ reply, Follows protocol post (protocol.moves state call reply) (resume reply)

@[simp] theorem follows_ret {post : State → Except (Raised ε) α → Prop} {value : α} :
    Follows protocol post state (.ret value) ↔ post state (.ok value) := Iff.rfl

@[simp] theorem follows_raise {post : State → Except (Raised ε) α → Prop} {raised : Raised ε} :
    Follows protocol post state (.raise raised) ↔ post state (.error raised) := Iff.rfl

theorem Follows.weaken {post weaker : State → Except (Raised ε) α → Prop}
    {body : Coroutine Call Reply ε α} (follows : Follows protocol post state body)
    (implies : ∀ state result, post state result → weaker state result) :
    Follows protocol weaker state body := by
  induction body generalizing state with
  | ret value => exact implies _ _ follows
  | raise raised => exact implies _ _ follows
  | await call resume ih => exact ⟨follows.1, fun reply => ih reply (follows.2 reply)⟩

/-- What `body.bind next` owes after `body`. -/
def thenFollows (protocol : Protocol Call Reply ε State)
    (post : State → Except (Raised ε) β → Prop) (next : α → Coroutine Call Reply ε β)
    (state : State) : Except (Raised ε) α → Prop
  | .ok value => Follows protocol post state (next value)
  | .error raised => post state (.error raised)

theorem follows_bind {post : State → Except (Raised ε) β → Prop}
    {body : Coroutine Call Reply ε α} {next : α → Coroutine Call Reply ε β}
    (follows : Follows protocol (thenFollows protocol post next) state body) :
    Follows protocol post state (body.bind next) := by
  induction body generalizing state with
  | ret value => exact follows
  | raise raised => exact follows
  | await call resume ih => exact ⟨follows.1, fun reply => ih reply (follows.2 reply)⟩

/-- What `try: body; except Exception: handler` owes after `body`. -/
def handlerFollows (protocol : Protocol Call Reply ε State)
    (post : State → Except (Raised ε) α → Prop) (handler : ε → Coroutine Call Reply ε α)
    (state : State) : Except (Raised ε) α → Prop
  | .ok value => post state (.ok value)
  | .error (.exception error) => Follows protocol post state (handler error)
  | .error .cancelled => post state (.error .cancelled)

theorem follows_tryExcept {post : State → Except (Raised ε) α → Prop}
    {body : Coroutine Call Reply ε α} {handler : ε → Coroutine Call Reply ε α}
    (follows : Follows protocol (handlerFollows protocol post handler) state body) :
    Follows protocol post state (body.tryExcept handler) := by
  induction body generalizing state with
  | ret value => exact follows
  | raise raised => cases raised <;> exact follows
  | await call resume ih => exact ⟨follows.1, fun reply => ih reply (follows.2 reply)⟩

/-- What `try: body; finally: final` owes after `body`. -/
def finallyFollows (protocol : Protocol Call Reply ε State)
    (post : State → Except (Raised ε) α → Prop) (final : Coroutine Call Reply ε Unit)
    (state : State) (ended : Except (Raised ε) α) : Prop :=
  Follows protocol (fun state done =>
    match done with
    | .ok _ => post state ended
    | .error raised => post state (.error raised)) state final

theorem follows_tryFinally {post : State → Except (Raised ε) α → Prop}
    {body : Coroutine Call Reply ε α} {final : Coroutine Call Reply ε Unit}
    (follows : Follows protocol (finallyFollows protocol post final) state body) :
    Follows protocol post state (body.tryFinally final) := by
  induction body generalizing state with
  | ret value =>
    rw [follows_ret, finallyFollows] at follows
    refine follows_bind (follows.weaken fun state done owed => ?_)
    cases done <;> exact owed
  | raise raised =>
    rw [follows_raise, finallyFollows] at follows
    refine follows_bind (follows.weaken fun state done owed => ?_)
    cases done <;> exact owed
  | await call resume ih => exact ⟨follows.1, fun reply => ih reply (follows.2 reply)⟩

theorem follows_request {call : Call} {post : State → Except (Raised ε) (Reply call) → Prop}
    (admitted : protocol.admits state call)
    (replied : ∀ reply, post (protocol.moves state call reply) reply) :
    Follows protocol post state (request call) := by
  refine ⟨admitted, fun reply => ?_⟩
  cases reply with
  | ok value => exact replied (.ok value)
  | error raised => exact replied (.error raised)

/-- A call followed by the rest of a `do` block. -/
theorem follows_request_bind {call : Call} {post : State → Except (Raised ε) β → Prop}
    {next : Reply call → Coroutine Call Reply ε β}
    (admitted : protocol.admits state call)
    (failed : ∀ raised, post (protocol.moves state call (.error raised)) (.error raised))
    (resumed : ∀ value,
      Follows protocol post (protocol.moves state call (.ok value)) (next value)) :
    Follows protocol post state ((request call).bind next) := by
  apply follows_bind
  apply follows_request admitted
  intro reply
  cases reply with
  | ok value => exact resumed value
  | error raised => exact failed raised

/-- Whatever the calls reply, only calls of a kind are made. -/
abbrev Calls (kind : Call → Prop) (body : Coroutine Call Reply ε α) : Prop :=
  Follows (⟨fun _ => kind, fun _ _ _ => ()⟩ : Protocol Call Reply ε Unit) (fun _ _ => True) () body

section Calls

variable {kind : Call → Prop} {body : Coroutine Call Reply ε α}

theorem calls_request {call : Call} (own : kind call) :
    Calls kind (request call : Coroutine Call Reply ε _) :=
  follows_request own fun _ => trivial

theorem Calls.bind {next : α → Coroutine Call Reply ε β} (calls : Calls kind body)
    (rest : ∀ value, Calls kind (next value)) : Calls kind (body.bind next) := by
  apply follows_bind
  apply Follows.weaken calls
  intro _ result _
  cases result with
  | ok value => exact rest value
  | error raised => trivial

theorem Calls.tryFinally {final : Coroutine Call Reply ε Unit} (calls : Calls kind body)
    (last : Calls kind final) : Calls kind (body.tryFinally final) := by
  apply follows_tryFinally
  apply Follows.weaken calls
  intro _ result _
  apply Follows.weaken last
  intro _ done _
  cases done <;> trivial

theorem Follows.calls {post : State → Except (Raised ε) α → Prop}
    (follows : Follows protocol post state body)
    (within : ∀ state call, protocol.admits state call → kind call) : Calls kind body := by
  induction body generalizing state with
  | ret value => trivial
  | raise raised => trivial
  | await call resume ih =>
    exact ⟨within state call follows.1, fun reply => ih reply (follows.2 reply)⟩

end Calls

/-- A relation between protocol states and worlds that every admitted call keeps
holds at the end of a run, next to the postcondition. -/
theorem exec_follows {post : State → Except (Raised ε) α → Prop} {body : Coroutine Call Reply ε α}
    (perform : (call : Call) → σ → Except (Raised ε) (Reply call) × σ)
    (related : State → σ → Prop)
    (kept : ∀ state call world, protocol.admits state call → related state world →
      related (protocol.moves state call (perform call world).1) (perform call world).2)
    (follows : Follows protocol post state body) {world : σ} (start : related state world) :
    ∃ last, related last (body.exec perform world).2 ∧ post last (body.exec perform world).1 := by
  induction body generalizing state world with
  | ret value => exact ⟨state, start, follows⟩
  | raise raised => exact ⟨state, start, follows⟩
  | await call resume ih => exact ih _ (follows.2 _) (kept _ _ _ follows.1 start)

/-- Two worlds that answer every admitted call alike and stay related lead a
coroutine to one result. -/
theorem exec_agree {τ : Type} {post : State → Except (Raised ε) α → Prop}
    {body : Coroutine Call Reply ε α}
    (first : (call : Call) → σ → Except (Raised ε) (Reply call) × σ)
    (second : (call : Call) → τ → Except (Raised ε) (Reply call) × τ)
    (related : State → σ → τ → Prop)
    (kept : ∀ state call world other, protocol.admits state call → related state world other →
      (first call world).1 = (second call other).1 ∧
        related (protocol.moves state call (first call world).1) (first call world).2
          (second call other).2)
    (follows : Follows protocol post state body) {world : σ} {other : τ}
    (start : related state world other) :
    (body.exec first world).1 = (body.exec second other).1 ∧
      ∃ last, related last (body.exec first world).2 (body.exec second other).2 ∧
        post last (body.exec first world).1 := by
  induction body generalizing state world other with
  | ret value => exact ⟨rfl, state, start, follows⟩
  | raise raised => exact ⟨rfl, state, start, follows⟩
  | await call resume ih =>
    obtain ⟨same, after⟩ := kept _ _ _ _ follows.1 start
    have rest := ih (first call world).1 (follows.2 _) after
    change ((resume (first call world).1).exec first _).1 =
        ((resume (second call other).1).exec second _).1 ∧ _
    rw [← same]
    change _ ∧ ∃ last, related last ((resume (first call world).1).exec first _).2
      ((resume (second call other).1).exec second _).2 ∧ _
    rw [← same]
    exact rest

/-- A coroutine in the middle of a run, and how far its protocol has come. -/
structure Process (protocol : Protocol Call Reply ε State)
    (post : State → Except (Raised ε) α → Prop) where
  state : State
  body : Coroutine Call Reply ε α
  follows : Follows protocol post state body

namespace Process

variable {post : State → Except (Raised ε) α → Prop} {process : Process protocol post}

/-- Answer the call a coroutine waits for. -/
def advance (perform : (call : Call) → σ → Except (Raised ε) (Reply call) × σ)
    (process : Process protocol post) (world : σ) : Option (Process protocol post × σ) :=
  match process with
  | ⟨state, .await call resume, follows⟩ =>
    let answered := perform call world
    some (⟨protocol.moves state call answered.1, resume answered.1, follows.2 answered.1⟩,
      answered.2)
  | _ => none

theorem advance_resumed {perform : (call : Call) → σ → Except (Raised ε) (Reply call) × σ}
    {next : Process protocol post} {world after : σ}
    (advanced : process.advance perform world = some (next, after)) :
    ∃ call resume, process.body = .await call resume ∧ protocol.admits process.state call ∧
      next.state = protocol.moves process.state call (perform call world).1 ∧
      next.body = resume (perform call world).1 ∧ after = (perform call world).2 := by
  obtain ⟨state, body, follows⟩ := process
  cases body with
  | ret value => cases advanced
  | raise raised => cases advanced
  | await call resume =>
    cases advanced
    exact ⟨call, resume, rfl, follows.1, rfl, rfl, rfl⟩

theorem advance_admitted {perform : (call : Call) → σ → Except (Raised ε) (Reply call) × σ}
    {next : Process protocol post} {world after : σ}
    (advanced : process.advance perform world = some (next, after)) :
    ∃ call resume, process.body = .await call resume ∧ protocol.admits process.state call ∧
      next.state = protocol.moves process.state call (perform call world).1 ∧
      after = (perform call world).2 := by
  obtain ⟨call, resume, waits, admitted, moved, _, left⟩ := advance_resumed advanced
  exact ⟨call, resume, waits, admitted, moved, left⟩

theorem advance_congr {τ : Type} {perform : (call : Call) → σ → Except (Raised ε) (Reply call) × σ}
    (perform' : (call : Call) → τ → Except (Raised ε) (Reply call) × τ)
    {next : Process protocol post} {world after : σ} (view : σ → τ)
    (alike : ∀ call, protocol.admits process.state call →
      perform' call (view world) = ((perform call world).1, view (perform call world).2))
    (advanced : process.advance perform world = some (next, after)) :
    process.advance perform' (view world) = some (next, view after) := by
  obtain ⟨state, body, follows⟩ := process
  cases body with
  | ret value => cases advanced
  | raise raised => cases advanced
  | await call resume =>
    cases advanced
    simp only [advance, alike call follows.1]

/-- A coroutine that has ended has met its postcondition. -/
theorem post_of_ended (ended : process.body.ended) : ∃ result, post process.state result := by
  obtain ⟨state, body, follows⟩ := process
  cases body with
  | ret value => exact ⟨_, follows⟩
  | raise raised => exact ⟨_, follows⟩
  | await call resume => cases ended

end Process

/-! A plan of faults, one entry for each call of a run, none beyond its end. -/

/-- Answer a call under the next entry of a plan. -/
def answerPlanned (perform : (call : Call) → σ → Except (Raised ε) (Reply call) × σ)
    (call : Call) (planned : σ × List (Option (Fault ε))) :
    Except (Raised ε) (Reply call) × (σ × List (Option (Fault ε))) :=
  let answered := answer perform (planned.2.head?.getD none) call planned.1
  (answered.1, answered.2, planned.2.tail)

/-- Run under a plan of faults. -/
def execPlanned (perform : (call : Call) → σ → Except (Raised ε) (Reply call) × σ)
    (plan : List (Option (Fault ε))) (body : Coroutine Call Reply ε α) (world : σ) :
    Except (Raised ε) α × σ :=
  let ended := body.exec (answerPlanned perform) (world, plan)
  (ended.1, ended.2.1)

theorem execPlanned_request_bind (perform : (call : Call) → σ → Except (Raised ε) (Reply call) × σ)
    (plan : List (Option (Fault ε))) (call : Call) (next : Reply call → Coroutine Call Reply ε α)
    (world : σ) :
    execPlanned perform plan ((request call).bind next) world =
      match answer perform (plan.head?.getD none) call world with
      | (.ok value, after) => execPlanned perform plan.tail (next value) after
      | (.error raised, after) => (.error raised, after) := by
  rw [execPlanned, exec_bind, exec_request, answerPlanned]
  rcases answer perform (plan.head?.getD none) call world with ⟨raised | value, after⟩
  · rfl
  · rfl

theorem execPlanned_nil (perform : (call : Call) → σ → Except (Raised ε) (Reply call) × σ)
    (body : Coroutine Call Reply ε α) (world : σ) :
    execPlanned perform [] body world = body.exec perform world := by
  have same : body.exec (answerPlanned perform) (world, []) =
      ((body.exec perform world).1, (body.exec perform world).2, []) := by
    induction body generalizing world with
    | ret value => rfl
    | raise raised => rfl
    | await call resume ih => exact ih _ _
  rw [execPlanned, same]

/-- `exec_follows` under faults: the relation has to survive every answer. -/
theorem execPlanned_follows {post : State → Except (Raised ε) α → Prop}
    {body : Coroutine Call Reply ε α}
    (perform : (call : Call) → σ → Except (Raised ε) (Reply call) × σ)
    (related : State → σ → Prop)
    (kept : ∀ state call fault world, protocol.admits state call → related state world →
      related (protocol.moves state call (answer perform fault call world).1)
        (answer perform fault call world).2)
    (plan : List (Option (Fault ε))) (follows : Follows protocol post state body) {world : σ}
    (start : related state world) :
    ∃ last, related last (execPlanned perform plan body world).2 ∧
      post last (execPlanned perform plan body world).1 :=
  exec_follows (answerPlanned perform) (fun state planned => related state planned.1)
    (fun state call planned => kept state call _ planned.1) follows start

end Coroutine

end Foundation
