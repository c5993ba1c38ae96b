import Mathlib

/-! Coroutines as trees of awaited calls, with Python's two kinds of raise:
exceptions, which an `except Exception` clause catches, and cancellation, which
it lets through. A tree is independent of the world that answers its calls. -/

namespace Foundation

/-- What a statement raises instead of returning. -/
inductive Raised (ε : Type) where
  | exception (error : ε)
  | cancelled
deriving DecidableEq, Repr

/-- A coroutine has returned, has raised, or awaits one call and resumes with
its reply. Every reply, also a raised one, has its own continuation. -/
inductive Coroutine (Call : Type) (Reply : Call → Type) (ε α : Type) where
  | ret (value : α)
  | raise (raised : Raised ε)
  | await (call : Call) (resume : Except (Raised ε) (Reply call) → Coroutine Call Reply ε α)

namespace Coroutine

variable {Call : Type} {Reply : Call → Type} {ε α β γ σ : Type}

def bind : Coroutine Call Reply ε α → (α → Coroutine Call Reply ε β) → Coroutine Call Reply ε β
  | .ret value, next => next value
  | .raise raised, _ => .raise raised
  | .await call resume, next => .await call fun reply => (resume reply).bind next

instance : Monad (Coroutine Call Reply ε) where
  pure := .ret
  bind := bind

/-- `await call`: the reply is returned, or raised where it was called. -/
def request (call : Call) : Coroutine Call Reply ε (Reply call) :=
  .await call fun
    | .ok value => .ret value
    | .error raised => .raise raised

/-- `raise error` for an ordinary exception. -/
def throw (error : ε) : Coroutine Call Reply ε α := .raise (.exception error)

/-- A synchronous computation run by the coroutine itself. -/
def ofExcept : Except ε α → Coroutine Call Reply ε α
  | .ok value => .ret value
  | .error error => throw error

/-- `try: body; except Exception as error: handler error`. -/
def tryExcept (body : Coroutine Call Reply ε α) (handler : ε → Coroutine Call Reply ε α) :
    Coroutine Call Reply ε α :=
  match body with
  | .ret value => .ret value
  | .raise (.exception error) => handler error
  | .raise .cancelled => .raise .cancelled
  | .await call resume => .await call fun reply => (resume reply).tryExcept handler

/-- `try: body; finally: final`, also on cancellation. -/
def tryFinally (body : Coroutine Call Reply ε α) (final : Coroutine Call Reply ε Unit) :
    Coroutine Call Reply ε α :=
  match body with
  | .ret value => final.bind fun _ => .ret value
  | .raise raised => final.bind fun _ => .raise raised
  | .await call resume => .await call fun reply => (resume reply).tryFinally final

/-- `async with context: body`, where `exit` is what the context awaits for the way its body
ended. -/
def asyncWith (exit : Except (Raised ε) α → Coroutine Call Reply ε Unit) :
    Coroutine Call Reply ε α → Coroutine Call Reply ε α
  | .ret value => (exit (.ok value)).bind fun _ => .ret value
  | .raise raised => (exit (.error raised)).bind fun _ => .raise raised
  | .await call resume => .await call fun reply => (resume reply).asyncWith exit

/-- The same coroutine, its calls among those of a larger program. -/
def relay {Call' : Type} {Reply' : Call' → Type} (into : Call → Call')
    (back : (call : Call) → Except (Raised ε) (Reply' (into call)) → Except (Raised ε) (Reply call)) :
    Coroutine Call Reply ε α → Coroutine Call' Reply' ε α
  | .ret value => .ret value
  | .raise raised => .raise raised
  | .await call resume => .await (into call) fun reply => (resume (back call reply)).relay into back

/-- The coroutine has returned or raised. -/
def ended : Coroutine Call Reply ε α → Bool
  | .await .. => false
  | _ => true

@[simp] theorem pure_eq (value : α) : (pure value : Coroutine Call Reply ε α) = .ret value := rfl

@[simp] theorem bind_eq (body : Coroutine Call Reply ε α) (next : α → Coroutine Call Reply ε β) :
    body >>= next = body.bind next := rfl

@[simp] theorem ret_bind (value : α) (next : α → Coroutine Call Reply ε β) :
    (Coroutine.ret value : Coroutine Call Reply ε α).bind next = next value := rfl

@[simp] theorem raise_bind (raised : Raised ε) (next : α → Coroutine Call Reply ε β) :
    (Coroutine.raise raised : Coroutine Call Reply ε α).bind next = .raise raised := rfl

@[simp] theorem await_bind (call : Call)
    (resume : Except (Raised ε) (Reply call) → Coroutine Call Reply ε α)
    (next : α → Coroutine Call Reply ε β) :
    (Coroutine.await call resume).bind next = .await call fun reply => (resume reply).bind next := rfl

theorem bind_assoc (body : Coroutine Call Reply ε α) (next : α → Coroutine Call Reply ε β)
    (last : β → Coroutine Call Reply ε γ) :
    (body.bind next).bind last = body.bind fun value => (next value).bind last := by
  induction body with
  | ret value => rfl
  | raise raised => rfl
  | await call resume ih => simp [ih]

/-! Running a coroutine alone, against a world that answers every call. -/

/-- Run to the end: `perform` answers each call and moves the world. -/
def exec (perform : (call : Call) → σ → Except (Raised ε) (Reply call) × σ) :
    Coroutine Call Reply ε α → σ → Except (Raised ε) α × σ
  | .ret value, world => (.ok value, world)
  | .raise raised, world => (.error raised, world)
  | .await call resume, world =>
    (resume (perform call world).1).exec perform (perform call world).2

section Exec

variable (perform : (call : Call) → σ → Except (Raised ε) (Reply call) × σ)

@[simp] theorem exec_ret (value : α) (world : σ) :
    (Coroutine.ret value : Coroutine Call Reply ε α).exec perform world = (.ok value, world) := rfl

@[simp] theorem exec_raise (raised : Raised ε) (world : σ) :
    (Coroutine.raise raised : Coroutine Call Reply ε α).exec perform world =
      (.error raised, world) := rfl

/-- The rest of a run, once its first part has returned or raised. -/
def continueWith (next : α → Coroutine Call Reply ε β) :
    Except (Raised ε) α × σ → Except (Raised ε) β × σ
  | (.ok value, world) => (next value).exec perform world
  | (.error raised, world) => (.error raised, world)

@[simp] theorem continueWith_ok (next : α → Coroutine Call Reply ε β) (value : α) (world : σ) :
    continueWith perform next (.ok value, world) = (next value).exec perform world := rfl

@[simp] theorem continueWith_error (next : α → Coroutine Call Reply ε β) (raised : Raised ε)
    (world : σ) : continueWith perform next (.error raised, world) = (.error raised, world) := rfl

theorem exec_bind (body : Coroutine Call Reply ε α) (next : α → Coroutine Call Reply ε β)
    (world : σ) :
    (body.bind next).exec perform world = continueWith perform next (body.exec perform world) := by
  induction body generalizing world with
  | ret value => rfl
  | raise raised => rfl
  | await call resume ih => exact ih _ _

/-- A rest that makes no calls. -/
theorem continueWith_world {next : α → Coroutine Call Reply ε β}
    (silent : ∀ value world, ((next value).exec perform world).2 = world)
    (ran : Except (Raised ε) α × σ) : (continueWith perform next ran).2 = ran.2 := by
  rcases ran with ⟨raised | value, world⟩
  · rfl
  · exact silent value world

theorem exec_request (call : Call) (world : σ) :
    (request call : Coroutine Call Reply ε _).exec perform world = perform call world := by
  cases answered : (perform call world).1 <;>
    simp [request, exec, answered, Prod.ext_iff]

theorem exec_ofExcept (computed : Except ε α) (world : σ) :
    (ofExcept computed : Coroutine Call Reply ε α).exec perform world =
      (computed.mapError Raised.exception, world) := by
  cases computed <;> rfl

/-- The run of a `try` statement, once its body has returned or raised. -/
def handleWith (handler : ε → Coroutine Call Reply ε α) :
    Except (Raised ε) α × σ → Except (Raised ε) α × σ
  | (.ok value, world) => (.ok value, world)
  | (.error (.exception error), world) => (handler error).exec perform world
  | (.error .cancelled, world) => (.error .cancelled, world)

theorem exec_tryExcept (body : Coroutine Call Reply ε α) (handler : ε → Coroutine Call Reply ε α)
    (world : σ) :
    (body.tryExcept handler).exec perform world =
      handleWith perform handler (body.exec perform world) := by
  induction body generalizing world with
  | ret value => rfl
  | raise raised => cases raised <;> rfl
  | await call resume ih => exact ih _ _

/-- The run of a `try`/`finally` statement, once its body has ended. -/
def finishWith (final : Coroutine Call Reply ε Unit) :
    Except (Raised ε) α × σ → Except (Raised ε) α × σ
  | (ended, world) =>
    continueWith perform (fun _ => match ended with
      | .ok value => .ret value
      | .error raised => .raise raised) (final.exec perform world)

theorem exec_tryFinally (body : Coroutine Call Reply ε α) (final : Coroutine Call Reply ε Unit)
    (world : σ) :
    (body.tryFinally final).exec perform world =
      finishWith perform final (body.exec perform world) := by
  induction body generalizing world with
  | ret value => exact exec_bind perform final _ world
  | raise raised => exact exec_bind perform final _ world
  | await call resume ih => exact ih _ _

end Exec

/-! Fault injection: a call may raise instead of answering, before or after
its effect has landed. An effect that lands later, in a thread that outlives the coroutine, is
for the machine that runs the coroutine. -/

structure Fault (ε : Type) where
  raised : Raised ε
  landed : Bool
deriving DecidableEq

/-- Answer a call under a fault. Without a fault the world answers. -/
def answer (perform : (call : Call) → σ → Except (Raised ε) (Reply call) × σ)
    (fault : Option (Fault ε)) (call : Call) (world : σ) :
    Except (Raised ε) (Reply call) × σ :=
  match fault with
  | none => perform call world
  | some fault => (.error fault.raised, if fault.landed then (perform call world).2 else world)

@[simp] theorem answer_none (perform : (call : Call) → σ → Except (Raised ε) (Reply call) × σ)
    (call : Call) (world : σ) : answer perform none call world = perform call world := rfl

@[simp] theorem answer_some (perform : (call : Call) → σ → Except (Raised ε) (Reply call) × σ)
    (fault : Fault ε) (call : Call) (world : σ) :
    answer perform (some fault) call world =
      (.error fault.raised, if fault.landed then (perform call world).2 else world) := rfl

theorem answer_world (perform : (call : Call) → σ → Except (Raised ε) (Reply call) × σ)
    (fault : Option (Fault ε)) (call : Call) (world : σ) :
    (answer perform fault call world).2 = world ∨
      (answer perform fault call world).2 = (perform call world).2 := by
  cases fault with
  | none => exact .inr rfl
  | some fault => cases landed : fault.landed <;> simp [landed]

end Coroutine

end Foundation
