import DocContext.Foundation.Draining

/-! A pool of coroutines that share a semaphore. Each enters one section and leaves
it; what ties them together is the count of free permits. -/

namespace Foundation

open Coroutine

/-- What a call is to the section. -/
inductive Gate where
  | enter
  | leave
  | within
deriving DecidableEq

/-- Where a coroutine stands. -/
inductive Standing where
  | outside
  | inside
  | gone
deriving DecidableEq

variable {Call : Type} {Reply : Call → Type} {ε α β σ Arrival : Type} {gate : Call → Gate}

/-- The section is entered first and left once; the calls within are free. -/
def sectionProtocol (Reply : Call → Type) (ε : Type) (gate : Call → Gate) :
    Protocol Call Reply ε Standing where
  admits standing call :=
    match gate call with
    | .enter => standing = .outside
    | .leave | .within => standing = .inside
  moves standing call reply :=
    match gate call, reply with
    | .enter, .ok _ => .inside
    | .enter, .error _ | .leave, _ => .gone
    | .within, _ => standing

/-- A coroutine that is in the section stays in it. -/
abbrev Stays (gate : Call → Gate) (body : Coroutine Call Reply ε α) : Prop :=
  Follows (sectionProtocol Reply ε gate) (fun standing _ => standing = .inside) .inside body

/-- A coroutine does not end in the section. -/
def Left (standing : Standing) (_ : Except (Raised ε) α) : Prop := standing ≠ .inside

theorem stays_request {call : Call} (within : gate call = .within) :
    Stays gate (request call : Coroutine Call Reply ε _) := by
  apply follows_request
  · simp only [sectionProtocol, within]
  · intro reply
    simp only [sectionProtocol, within]

theorem Stays.bind {body : Coroutine Call Reply ε α} {next : α → Coroutine Call Reply ε β}
    (stays : Stays gate body) (rest : ∀ value, Stays gate (next value)) :
    Stays gate (body.bind next) := by
  apply follows_bind
  apply Follows.weaken stays
  intro standing result inside
  subst inside
  cases result with
  | ok value => exact rest value
  | error raised => rfl

/-- A protocol whose calls are all within keeps a coroutine in the section. -/
theorem stays_of_follows {State : Type} {protocol : Protocol Call Reply ε State}
    {post : State → Except (Raised ε) α → Prop} {state : State} {body : Coroutine Call Reply ε α}
    (follows : Follows protocol post state body)
    (within : ∀ state call, protocol.admits state call → gate call = .within) :
    Stays gate body := by
  induction body generalizing state with
  | ret value => rfl
  | raise raised => rfl
  | await call resume ih =>
    have kind := within state call follows.1
    constructor
    · simp only [sectionProtocol, kind]
    · intro reply
      simp only [sectionProtocol, kind]
      exact ih reply (follows.2 reply)

/-- A coroutine that is in the section leaves it. -/
abbrev Leaves (gate : Call → Gate) (body : Coroutine Call Reply ε α) : Prop :=
  Follows (sectionProtocol Reply ε gate) (fun standing _ => standing = .gone) .inside body

theorem leaves_request {call : Call} (leave : gate call = .leave) :
    Leaves gate (request call : Coroutine Call Reply ε _) := by
  apply follows_request
  · simp only [sectionProtocol, leave]
  · intro reply
    simp only [sectionProtocol, leave]

/-- `async with semaphore: body`. -/
theorem follows_section {enter : Call} (enters : gate enter = .enter)
    {body : Coroutine Call Reply ε α} (stays : Stays gate body)
    {final : Coroutine Call Reply ε Unit} (leaves : Leaves gate final) :
    Follows (sectionProtocol Reply ε gate) (fun standing _ => standing = .gone) .outside
      ((request enter).bind fun _ => body.tryFinally final) := by
  apply follows_request_bind
  · simp only [sectionProtocol, enters]
  · intro raised
    simp only [sectionProtocol, enters]
  · intro value
    simp only [sectionProtocol, enters]
    apply follows_tryFinally
    apply Follows.weaken stays
    intro standing result inside
    subst inside
    apply Follows.weaken leaves
    intro standing done gone
    cases done <;> exact gone

/-! The pool. -/

/-- A coroutine of the pool. -/
abbrev Member (Reply : Call → Type) (ε α : Type) (gate : Call → Gate) :=
  Process (sectionProtocol Reply ε gate) (Left : Standing → Except (Raised ε) α → Prop)

structure Pool (Reply : Call → Type) (ε α σ : Type) (gate : Call → Gate) where
  world : σ
  members : List (Member Reply ε α gate)

inductive PoolAction (ε σ Arrival : Type) where
  /-- A coroutine joins. -/
  | arrive (arrival : Arrival)
  /-- The call a coroutine waits for is answered. -/
  | serve (index : Nat) (fault : Option (Fault ε))
  /-- What is not the pool's changes. -/
  | elsewhere (world : σ)

namespace Pool

def step (perform : (call : Call) → σ → Except (Raised ε) (Reply call) × σ)
    (start : Arrival → Member Reply ε α gate) (pool : Pool Reply ε α σ gate) :
    PoolAction ε σ Arrival → Option (Pool Reply ε α σ gate)
  | .arrive arrival => some { pool with members := pool.members ++ [start arrival] }
  | .serve index fault => do
    let member ← pool.members[index]?
    let (next, world) ← member.advance (answer perform fault) pool.world
    some ⟨world, pool.members.set index next⟩
  | .elsewhere world => some { pool with world }

/-- The members between entering and leaving. -/
def inside (pool : Pool Reply ε α σ gate) : Nat :=
  pool.members.countP fun member => decide (member.state = .inside)

/-- What a semaphore promises: a permit is handed out only while one is free, and an
interrupted wait takes none; giving one back is not interrupted. -/
def Grants (free : Nat) : Gate → Option (Fault ε) → Prop
  | .enter, none => 0 < free
  | .enter, some fault => fault.landed = false
  | .leave, fault => fault = none
  | .within, _ => True

/-- The semaphore keeps its promise, and the rest of the world leaves the permits
alone. -/
def Orderly (permits : σ → Nat) (pool : Pool Reply ε α σ gate) : PoolAction ε σ Arrival → Prop
  | .arrive _ => True
  | .elsewhere world => permits world = permits pool.world
  | .serve index fault =>
    ∀ member, pool.members[index]? = some member → ∀ call resume, member.body = .await call resume →
      Grants (permits pool.world) (gate call) fault

/-- What the calls do to the permits. -/
structure Counts (gate : Call → Gate) (permits : σ → Nat)
    (perform : (call : Call) → σ → Except (Raised ε) (Reply call) × σ) : Prop where
  enter : ∀ call world, gate call = .enter →
    (∃ value, (perform call world).1 = .ok value) ∧
      permits (perform call world).2 = permits world - 1
  leave : ∀ call world, gate call = .leave →
    permits (perform call world).2 = permits world + 1
  within : ∀ call world, gate call = .within → permits (perform call world).2 = permits world

section Steps

variable {perform : (call : Call) → σ → Except (Raised ε) (Reply call) × σ}
  {start : Arrival → Member Reply ε α gate} {permits : σ → Nat}
  {pool after : Pool Reply ε α σ gate}

theorem step_serve {index : Nat} {fault : Option (Fault ε)}
    (stepped : pool.step perform start (.serve index fault) = some after) :
    ∃ member next call resume, pool.members[index]? = some member ∧
      member.body = .await call resume ∧
      (sectionProtocol Reply ε gate).admits member.state call ∧
      next.state = (sectionProtocol Reply ε gate).moves member.state call
        (answer perform fault call pool.world).1 ∧
      after = ⟨(answer perform fault call pool.world).2, pool.members.set index next⟩ := by
  obtain ⟨member, found, stepped⟩ := Option.bind_eq_some_iff.mp stepped
  obtain ⟨⟨next, world⟩, advanced, stepped⟩ := Option.bind_eq_some_iff.mp stepped
  cases stepped
  obtain ⟨call, resume, waits, admitted, moved, rfl⟩ := Process.advance_admitted advanced
  exact ⟨member, next, call, resume, found, waits, admitted, moved, rfl⟩

/-- What one answered call does to the permits and to the place of its coroutine. -/
theorem serve_balance (counts : Counts gate permits perform) {standing : Standing} {call : Call}
    {fault : Option (Fault ε)} {world : σ}
    (admitted : (sectionProtocol Reply ε gate).admits standing call)
    (granted : Grants (permits world) (gate call) fault) :
    let next := (sectionProtocol Reply ε gate).moves standing call
      (answer perform fault call world).1
    permits (answer perform fault call world).2 + (if next = .inside then 1 else 0) =
      permits world + if standing = .inside then 1 else 0 := by
  intro next
  cases kind : gate call with
  | enter =>
    simp only [sectionProtocol, kind] at admitted
    rw [kind] at granted
    subst admitted
    cases fault with
    | none =>
      obtain ⟨⟨value, replied⟩, taken⟩ := counts.enter call world kind
      have entered : next = .inside := by
        simp only [next, sectionProtocol, kind, answer_none, replied]
      rw [entered, answer_none, taken]
      change 0 < permits world at granted
      simp only [if_true, reduceCtorEq, if_false]
      omega
    | some fault =>
      change fault.landed = false at granted
      have gone : next = .gone := by
        simp only [next, sectionProtocol, kind, answer_some]
      rw [gone, answer_some, granted]
      simp
  | leave =>
    simp only [sectionProtocol, kind] at admitted
    rw [kind] at granted
    change fault = none at granted
    subst admitted granted
    have gone : next = .gone := by
      simp only [next, sectionProtocol, kind]
    rw [gone, answer_none, counts.leave call world kind]
    simp
  | within =>
    have same : next = standing := by
      simp only [next, sectionProtocol, kind]
    rw [same]
    rcases answer_world perform fault call world with kept | performed
    · rw [kept]
    · rw [performed, counts.within call world kind]

/-- No step changes the sum of free permits and members inside. -/
theorem balance_step (counts : Counts gate permits perform)
    (outside : ∀ arrival, (start arrival).state = .outside) {action : PoolAction ε σ Arrival}
    (orderly : Orderly permits pool action) (stepped : pool.step perform start action = some after) :
    permits after.world + after.inside = permits pool.world + pool.inside := by
  cases action with
  | arrive arrival =>
    cases stepped
    simp [inside, outside arrival]
  | elsewhere world =>
    cases stepped
    change permits world + _ = _
    rw [orderly]
    rfl
  | serve index fault =>
    obtain ⟨member, next, call, resume, found, waits, admitted, moved, rfl⟩ := step_serve stepped
    have answered := serve_balance counts admitted (orderly member found call resume waits)
    have counted := countP_replace (fun member => decide (member.state = .inside)) found next
    simp only [decide_eq_true_eq, moved] at counted
    dsimp only [inside] at answered ⊢
    omega

/-- Free permits and members inside make up the capacity, after any run. -/
theorem balance (counts : Counts gate permits perform)
    (outside : ∀ arrival, (start arrival).state = .outside) {first : Pool Reply ε α σ gate}
    (reaches : Reaches (step perform start) (Orderly permits) first pool) :
    permits pool.world + pool.inside = permits first.world + first.inside :=
  reaches.invariant
    (fun pool => permits pool.world + pool.inside = permits first.world + first.inside)
    (fun _ _ _ orderly stepped => (balance_step counts outside orderly stepped).trans) rfl

theorem inside_of_waits {member : Member Reply ε α gate} {call : Call}
    {resume : Except (Raised ε) (Reply call) → Coroutine Call Reply ε α}
    (waits : member.body = .await call resume) (within : gate call = .within) :
    member.state = .inside := by
  have admitted := member.follows
  rw [waits] at admitted
  have admitted := admitted.1
  simp only [sectionProtocol, within] at admitted
  exact admitted

theorem inside_of_ended (ended : ∀ member ∈ pool.members, member.body.ended = true) :
    pool.inside = 0 := by
  apply List.countP_eq_zero.mpr
  intro member found
  obtain ⟨_, left⟩ := Process.post_of_ended (ended member found)
  rw [decide_eq_true_eq]
  exact left

/-- A call of a member is answered, as the semaphore allows; no member joins. -/
inductive Serving (permits : σ → Nat) (pool : Pool Reply ε α σ gate) :
    PoolAction ε σ Arrival → Prop where
  | serve (index : Nat) (fault : Option (Fault ε)) (orderly : Orderly permits pool
      (.serve index fault : PoolAction ε σ Arrival)) : Serving permits pool (.serve index fault)

/-- A pool that nobody joins comes to rest, whatever is raised in it. -/
theorem serving_wellFounded : WellFounded fun after before : Pool Reply ε α σ gate =>
    Moves (step perform start) (Serving permits) before after := by
  refine moves_wellFounded resumes_wellFounded
    (fun pool => (pool.members.map Process.body : Multiset (Coroutine Call Reply ε α))) ?_
  rintro before _ after ⟨index, fault, orderly⟩ stepped
  obtain ⟨member, found, stepped⟩ := Option.bind_eq_some_iff.mp stepped
  obtain ⟨⟨next, world⟩, advanced, stepped⟩ := Option.bind_eq_some_iff.mp stepped
  cases stepped
  refine ⟨{next.body}, member.body, fun rest listed => ?_, ?_⟩
  · rw [Multiset.mem_singleton.mp listed]
    exact Process.advance_resumes advanced
  · exact coe_replace Process.body found next

theorem servable {index : Nat} {member : Member Reply ε α gate}
    (found : pool.members[index]? = some member) (waiting : member.body.ended = false)
    (granted : ∀ call resume, member.body = .await call resume →
      Grants (permits pool.world) (gate call) (none : Option (Fault ε))) :
    ¬ Stuck (step perform start) (Serving permits) pool := by
  intro stuck
  obtain ⟨next, world, advanced⟩ :=
    Process.advance_of_waiting waiting (answer perform none) pool.world
  have orderly : Orderly permits pool (.serve index none : PoolAction ε σ Arrival) := by
    intro other found' call resume waits
    obtain rfl : member = other := Option.some.inj (found.symm.trans found')
    exact granted call resume waits
  have none := stuck (.serve index none) (.serve index none orderly)
  rw [step, found] at none
  simp only [Option.bind_eq_bind, Option.bind_some, advanced] at none
  cases none

/-- A pool with a permit, taken or free, has no deadlock: where no member can be served, all
have ended. -/
theorem ended_of_stuck (capacity : 0 < permits pool.world + pool.inside)
    (stuck : Stuck (step perform start) (Serving permits) pool) :
    ∀ member ∈ pool.members, member.body.ended = true := by
  intro member listed
  by_contra waiting
  rw [Bool.not_eq_true] at waiting
  by_cases free : 0 < permits pool.world
  · obtain ⟨index, found⟩ := List.mem_iff_getElem?.mp listed
    refine servable found waiting (fun call resume _ => ?_) stuck
    cases gate call with
    | enter => exact free
    | leave => rfl
    | within => trivial
  · -- the permits are taken, so some member is inside, and has no permit to wait for
    have held : 0 < pool.inside := by omega
    obtain ⟨holder, listed, inside⟩ := List.countP_pos_iff.mp held
    rw [decide_eq_true_eq] at inside
    have working : holder.body.ended = false := by
      rw [Bool.eq_false_iff]
      intro ended
      obtain ⟨_, left⟩ := Process.post_of_ended ended
      exact left inside
    obtain ⟨index, found⟩ := List.mem_iff_getElem?.mp listed
    refine servable found working (fun call resume waits => ?_) stuck
    have admitted := holder.follows
    rw [waits] at admitted
    replace admitted := admitted.1
    rw [inside] at admitted
    cases kind : gate call with
    | enter =>
      simp only [sectionProtocol, kind] at admitted
      cases admitted
    | leave => rfl
    | within => trivial

end Steps

end Pool

end Foundation
