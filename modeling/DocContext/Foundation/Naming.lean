import Mathlib

/-! Names made of a free part, a separator and a decimal number can be read
back: the number has no separator in it, so the last separator is the one put
in. -/

namespace Foundation

theorem append_separator_inj [DecidableEq α] {separator : α} {front front' back back' : List α}
    (clear : separator ∉ back) (clear' : separator ∉ back')
    (same : front ++ separator :: back = front' ++ separator :: back') :
    front = front' ∧ back = back' := by
  have last (tail head : List α) (free : separator ∉ tail) :
      ((head ++ separator :: tail).reverse.takeWhile fun item => decide (item ≠ separator)) =
        tail.reverse := by
    have kept : ∀ item ∈ tail.reverse, decide (item ≠ separator) = true := by
      intro item member
      have different : item ≠ separator :=
        fun equal => free (equal ▸ List.mem_reverse.mp member)
      simpa using different
    rw [List.reverse_append, List.reverse_cons, List.append_assoc, List.takeWhile_append_of_pos kept]
    simp
  have tails : back.reverse = back'.reverse := by
    rw [← last back front clear, ← last back' front' clear', same]
  have backs := List.reverse_injective tails
  subst backs
  exact ⟨List.append_cancel_right same, rfl⟩

theorem colon_notMem_repr (number : Nat) : ':' ∉ number.repr.toList := by
  rw [Nat.toList_repr]
  intro member
  have digit := Nat.isDigit_of_mem_toDigits (by decide) (by decide) member
  simp at digit

/-- `f"{name}:{number}"` determines the name and the number. -/
theorem numbered_inj {name name' : String} {number number' : Nat}
    (same : name ++ ":" ++ toString number = name' ++ ":" ++ toString number') :
    name = name' ∧ number = number' := by
  have lists : name.toList ++ ':' :: number.repr.toList = name'.toList ++ ':' :: number'.repr.toList := by
    simpa [Nat.toString_eq_repr] using congrArg String.toList same
  obtain ⟨names, numbers⟩ :=
    append_separator_inj (colon_notMem_repr number) (colon_notMem_repr number') lists
  exact ⟨String.toList_injective names, Nat.repr_injective (String.toList_injective numbers)⟩

end Foundation
