import DocContext.Foundation.Machine
import DocContext.Foundation.Protocol

/-! Machines that run dry. What is still to be done is a multiset of tasks; a step
that trades one of them for smaller ones cannot be taken for ever, so some run
of such steps ends where none is possible. -/

namespace Foundation

section Machine

variable {State Action Owed : Type} {step : State → Action → Option State}
  {allowed : State → Action → Prop} {smaller : Owed → Owed → Prop}

/-- A machine whose steps each trade one task for smaller ones stops. -/
theorem moves_wellFounded (decreases : WellFounded smaller) (owed : State → Multiset Owed)
    (cut : ∀ before action after, allowed before action → step before action = some after →
      Relation.CutExpand smaller (owed after) (owed before)) :
    WellFounded fun after before => Moves step allowed before after := by
  apply Subrelation.wf _ (InvImage.wf owed decreases.cutExpand)
  rintro after before ⟨action, allows, stepped⟩
  exact cut before action after allows stepped

/-- No allowed step is possible. -/
def Stuck (step : State → Action → Option State) (allowed : State → Action → Prop)
    (state : State) : Prop :=
  ∀ action, allowed state action → step state action = none

/-- A machine that stops gets stuck, wherever it starts. -/
theorem reaches_stuck (stops : WellFounded fun after before => Moves step allowed before after)
    (start : State) : ∃ last, Reaches step allowed start last ∧ Stuck step allowed last := by
  induction start using stops.induction with
  | h start ih =>
    by_cases stuck : Stuck step allowed start
    · exact ⟨start, .refl, stuck⟩
    · unfold Stuck at stuck
      push Not at stuck
      obtain ⟨action, allows, possible⟩ := stuck
      obtain ⟨next, stepped⟩ := Option.ne_none_iff_exists'.mp possible
      have moved : Moves step allowed start next := ⟨action, allows, stepped⟩
      obtain ⟨last, reaches, stuck⟩ := ih next moved
      exact ⟨last, .head moved reaches, stuck⟩

end Machine

section Items

variable {α β : Type} {items : List α} {index : Nat} {item : α}

theorem coe_replace (read : α → β) (found : items[index]? = some item) (other : α) :
    (((items.set index other).map read : List β) : Multiset β) + {read item} =
      ((items.map read : List β) : Multiset β) + {read other} := by
  obtain ⟨within, rfl⟩ := List.getElem?_eq_some_iff.mp found
  rw [List.set_eq_take_cons_drop _ within]
  conv_rhs => rw [← List.take_append_drop index items, List.drop_eq_getElem_cons within]
  simp only [List.map_append, List.map_cons, ← Multiset.coe_add, ← Multiset.cons_coe,
    ← Multiset.singleton_add]
  abel

end Items

namespace Coroutine

variable {Call : Type} {Reply : Call → Type} {ε α σ State : Type}

/-- What a coroutine goes on with after a reply. -/
inductive Resumes : Coroutine Call Reply ε α → Coroutine Call Reply ε α → Prop where
  | reply (call : Call) (resume : Except (Raised ε) (Reply call) → Coroutine Call Reply ε α)
      (reply : Except (Raised ε) (Reply call)) : Resumes (resume reply) (.await call resume)

/-- No coroutine awaits for ever. -/
theorem resumes_wellFounded :
    WellFounded (Resumes : Coroutine Call Reply ε α → Coroutine Call Reply ε α → Prop) := by
  constructor
  intro body
  induction body with
  | ret value => exact ⟨_, fun rest resumes => by cases resumes⟩
  | raise raised => exact ⟨_, fun rest resumes => by cases resumes⟩
  | await call resume ih =>
    constructor
    intro rest resumes
    cases resumes with
    | reply _ _ reply => exact ih reply

variable {protocol : Protocol Call Reply ε State} {post : State → Except (Raised ε) α → Prop}
  {process next : Process protocol post}
  {perform : (call : Call) → σ → Except (Raised ε) (Reply call) × σ} {world after : σ}

theorem Process.advance_resumes (advanced : process.advance perform world = some (next, after)) :
    Resumes next.body process.body := by
  obtain ⟨state, body, follows⟩ := process
  cases body with
  | ret value => cases advanced
  | raise raised => cases advanced
  | await call resume =>
    cases advanced
    exact .reply call resume _

theorem Process.advance_of_waiting (waiting : process.body.ended = false)
    (perform : (call : Call) → σ → Except (Raised ε) (Reply call) × σ) (world : σ) :
    ∃ next after, process.advance perform world = some (next, after) := by
  obtain ⟨state, body, follows⟩ := process
  cases body with
  | ret value => cases waiting
  | raise raised => cases waiting
  | await call resume => exact ⟨_, _, rfl⟩

end Coroutine

end Foundation
