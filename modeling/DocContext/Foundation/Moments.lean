import DocContext.Foundation.Machine

/-! Moments of a run. What a machine's state says about the past is carried along
with the moment at which it held. -/

namespace Foundation

variable {State Action : Type} {step : State → Action → Option State}
  {start before last : State} {holds : State → Prop}

/-- At some moment of a run from `start` to `last` something held. -/
def Once (step : State → Action → Option State) (start last : State) (holds : State → Prop) : Prop :=
  ∃ moment, Reaches step anyStep start moment ∧ Reaches step anyStep moment last ∧ holds moment

theorem Once.now (reaches : Reaches step anyStep start last) (now : holds last) :
    Once step start last holds :=
  ⟨last, reaches, .refl, now⟩

theorem Once.later {action : Action} (once : Once step start before holds)
    (stepped : step before action = some last) : Once step start last holds := by
  obtain ⟨moment, reaches, on, held⟩ := once
  exact ⟨moment, reaches, on.tail ⟨action, trivial, stepped⟩, held⟩

theorem Once.imp {weaker : State → Prop} (once : Once step start last holds)
    (implies : ∀ state, holds state → weaker state) : Once step start last weaker := by
  obtain ⟨moment, reaches, on, held⟩ := once
  exact ⟨moment, reaches, on, implies moment held⟩

end Foundation
