import Mathlib

/-! What a computation that can raise promises of both of its outcomes, told
backwards through the computations it is made of. -/

namespace Foundation

variable {ε α β : Type} {returns : α → Prop} {raises : ε → Prop} {computed : Except ε α}

/-- The computation returns what it may return, or raises what it may raise. -/
def Promises (returns : α → Prop) (raises : ε → Prop) : Except ε α → Prop
  | .ok value => returns value
  | .error error => raises error

@[simp] theorem promises_ok {value : α} :
    Promises returns raises (.ok value) ↔ returns value := Iff.rfl

@[simp] theorem promises_error {error : ε} :
    Promises returns raises (.error error) ↔ raises error := Iff.rfl

@[simp] theorem promises_pure {value : α} :
    Promises returns raises (pure value) ↔ returns value := Iff.rfl

@[simp] theorem promises_bind {first : Except ε β} {rest : β → Except ε α} :
    Promises returns raises (first >>= rest) ↔
      Promises (fun value => Promises returns raises (rest value)) raises first := by
  cases first <;> rfl

theorem promises_congr {returns' : α → Prop}
    (same : ∀ value, computed = .ok value → (returns value ↔ returns' value)) :
    Promises returns raises computed ↔ Promises returns' raises computed := by
  cases computed with
  | ok value => exact same value rfl
  | error error => exact Iff.rfl

end Foundation
