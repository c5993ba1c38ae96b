import Mathlib

/-! Machines that take labelled steps: the states a machine reaches by steps of
an allowed kind, and what holds in all of them. -/

namespace Foundation

variable {State Action : Type} {step : State → Action → Option State}
  {allowed : State → Action → Prop}

/-- A step whose action is allowed in the state it is taken in. -/
def Moves (step : State → Action → Option State) (allowed : State → Action → Prop)
    (before after : State) : Prop :=
  ∃ action, allowed before action ∧ step before action = some after

/-- A run of allowed steps. -/
abbrev Reaches (step : State → Action → Option State) (allowed : State → Action → Prop) :
    State → State → Prop :=
  Relation.ReflTransGen (Moves step allowed)

/-- No restriction on the steps of a run. -/
abbrev anyStep : State → Action → Prop := fun _ _ => True

/-- What every allowed step keeps holds at the end of a run. -/
theorem Reaches.invariant (holds : State → Prop)
    (kept : ∀ before action after, allowed before action → step before action = some after →
      holds before → holds after)
    {start last : State} (reaches : Reaches step allowed start last) (initial : holds start) :
    holds last := by
  induction reaches with
  | refl => exact initial
  | tail _ moved ih =>
    obtain ⟨action, allowed, stepped⟩ := moved
    exact kept _ _ _ allowed stepped ih

/-- A reflexive and transitive relation that every allowed step respects relates
the ends of a run. -/
theorem Reaches.relates (related : State → State → Prop) (refl : ∀ state, related state state)
    (trans : ∀ {a b c}, related a b → related b c → related a c)
    (kept : ∀ before action after, allowed before action → step before action = some after →
      related before after)
    {start last : State} (reaches : Reaches step allowed start last) : related start last :=
  reaches.invariant (related start)
    (fun _ _ _ allowed stepped before => trans before (kept _ _ _ allowed stepped)) (refl start)

theorem Reaches.weaken {permitted : State → Action → Prop}
    (fewer : ∀ state action, allowed state action → permitted state action) {start last : State}
    (reaches : Reaches step allowed start last) : Reaches step permitted start last := by
  have fewer' : Moves step allowed ≤ Moves step permitted :=
    fun _ _ ⟨action, holds, stepped⟩ => ⟨action, fewer _ _ holds, stepped⟩
  exact Relation.ReflTransGen.mono fewer' _ _ reaches

/-- What every allowed step keeps holds all along a run. -/
theorem Reaches.along (holds : State → Prop)
    (kept : ∀ before action after, allowed before action → step before action = some after →
      holds before → holds after)
    {start last : State} (reaches : Reaches step allowed start last) (initial : holds start) :
    Reaches step (fun state action => allowed state action ∧ holds state) start last := by
  induction reaches with
  | refl => exact .refl
  | tail run moved ih =>
    obtain ⟨action, allows, stepped⟩ := moved
    exact ih.tail ⟨action, ⟨allows, Reaches.invariant holds kept run initial⟩, stepped⟩

/-- Where each allowed step can be followed by a run of another machine, so can every
run. -/
theorem Reaches.simulated {State' Action' : Type} {step' : State' → Action' → Option State'}
    {allowed' : State' → Action' → Prop} (related : State → State' → Prop)
    (followed : ∀ before action after, allowed before action → step before action = some after →
      ∀ other, related before other → ∃ last, Reaches step' allowed' other last ∧ related after last)
    {start last : State} (reaches : Reaches step allowed start last) {other : State'}
    (starts : related start other) :
    ∃ last', Reaches step' allowed' other last' ∧ related last last' := by
  induction reaches with
  | refl => exact ⟨other, .refl, starts⟩
  | tail _ moved ih =>
    obtain ⟨action, allows, stepped⟩ := moved
    obtain ⟨middle, run, holds⟩ := ih
    obtain ⟨last', further, holds'⟩ := followed _ _ _ allows stepped middle holds
    exact ⟨last', run.trans further, holds'⟩

/-- A list of actions that are allowed wherever they are taken, played to its
end. -/
theorem reaches_of_play {actions : List Action}
    (always : ∀ action ∈ actions, ∀ state, allowed state action) {start last : State}
    (played : actions.foldlM step start = some last) : Reaches step allowed start last := by
  induction actions generalizing start with
  | nil =>
    cases played
    exact .refl
  | cons action rest ih =>
    rw [List.foldlM_cons] at played
    obtain ⟨next, stepped, played⟩ := Option.bind_eq_some_iff.mp played
    have first : Moves step allowed start next :=
      ⟨action, always action (List.mem_cons_self ..) start, stepped⟩
    exact .head first (ih (fun other member => always other (List.mem_cons_of_mem _ member)) played)

/-! Lists whose entries are replaced one at a time. -/

section Counting

variable {α : Type} {items : List α} {index : Nat} {item : α}

theorem map_replace {β : Type} {read : α → β} (found : items[index]? = some item) {other : α}
    (same : read other = read item) : (items.set index other).map read = items.map read := by
  rw [List.map_set, same]
  apply List.ext_getElem?
  intro place
  rw [List.getElem?_set, List.getElem?_map]
  by_cases here : index = place
  · subst here
    have within := (List.getElem?_eq_some_iff.mp found).1
    rw [if_pos rfl, if_pos (by rwa [List.length_map]), found]
    rfl
  · rw [if_neg here]

theorem countP_replace (counted : α → Bool) (found : items[index]? = some item) (other : α) :
    (items.set index other).countP counted + (if counted item then 1 else 0) =
      items.countP counted + if counted other then 1 else 0 := by
  obtain ⟨within, same⟩ := List.getElem?_eq_some_iff.mp found
  rw [List.countP_set within, same]
  have counts : counted item = true → 0 < items.countP counted := fun holds =>
    List.countP_pos_iff.mpr ⟨item, List.mem_of_getElem? found, holds⟩
  cases holds : counted item with
  | false => simp
  | true =>
    have positive := counts holds
    simp only [if_true]
    omega

/-- After a replacement an entry is the new one, or stands where it stood. -/
theorem mem_replace {other entry : α} (member : entry ∈ items.set index other) :
    entry = other ∨ ∃ place, place ≠ index ∧ items[place]? = some entry := by
  obtain ⟨place, found⟩ := List.mem_iff_getElem?.mp member
  rw [List.getElem?_set] at found
  by_cases here : index = place
  · rw [if_pos here] at found
    split at found
    · exact .inl (Option.some.inj found).symm
    · cases found
  · rw [if_neg here] at found
    exact .inr ⟨place, Ne.symm here, found⟩

/-- An entry is the one that is replaced, or stays. -/
theorem mem_or_kept (found : items[index]? = some item) {entry : α} (member : entry ∈ items)
    (other : α) : entry = item ∨ entry ∈ items.set index other := by
  obtain ⟨place, found'⟩ := List.mem_iff_getElem?.mp member
  by_cases here : index = place
  · subst here
    exact .inl (Option.some.inj (found'.symm.trans found))
  · refine .inr (List.mem_iff_getElem?.mpr ⟨place, ?_⟩)
    rw [List.getElem?_set, if_neg here]
    exact found'

theorem mem_replaced (found : items[index]? = some item) (other : α) :
    other ∈ items.set index other :=
  List.mem_set (List.getElem?_eq_some_iff.mp found).1 other

/-- Where at most one entry counts, two that count are one. -/
theorem index_unique {counted : α → Bool} (sole : items.countP counted ≤ 1) {other : α} {place : Nat}
    (found : items[index]? = some item) (found' : items[place]? = some other)
    (counts : counted item = true) (counts' : counted other = true) : index = place := by
  induction items generalizing index place with
  | nil => simp at found
  | cons first rest ih =>
    rw [List.countP_cons] at sole
    cases index with
    | zero =>
      cases place with
      | zero => rfl
      | succ place =>
        cases found
        rw [List.getElem?_cons_succ] at found'
        have more := List.countP_pos_iff.mpr ⟨other, List.mem_of_getElem? found', counts'⟩
        rw [if_pos counts] at sole
        omega
    | succ index =>
      rw [List.getElem?_cons_succ] at found
      cases place with
      | zero =>
        cases found'
        have more := List.countP_pos_iff.mpr ⟨item, List.mem_of_getElem? found, counts⟩
        rw [if_pos counts'] at sole
        omega
      | succ place =>
        rw [List.getElem?_cons_succ] at found'
        exact congrArg Nat.succ (ih (by omega) found found')

end Counting

end Foundation
