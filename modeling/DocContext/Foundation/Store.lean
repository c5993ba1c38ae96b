import Mathlib

/-! A keyed store as a function, with bulk writes and bulk removals, and runs of
actions that commute and may be repeated. -/

namespace Foundation

abbrev Store (Key Value : Type) := Key → Option Value

namespace Store

variable {Key Value : Type} [DecidableEq Key] {store other : Store Key Value}

/-- Write every entry; the last one under a key stays. -/
def write (entries : List (Key × Value)) (store : Store Key Value) : Store Key Value :=
  entries.foldl (fun stored entry => Function.update stored entry.1 (some entry.2)) store

/-- Drop every value the predicate selects. -/
def remove (selected : Value → Bool) (store : Store Key Value) : Store Key Value :=
  fun key => (store key).filter fun value => !selected value

@[simp] theorem write_nil : write [] store = store := rfl

@[simp] theorem write_cons (entry : Key × Value) (entries : List (Key × Value)) :
    write (entry :: entries) store =
      write entries (Function.update store entry.1 (some entry.2)) := rfl

theorem write_other {entries : List (Key × Value)} {key : Key}
    (other : key ∉ entries.map Prod.fst) : write entries store key = store key := by
  induction entries generalizing store with
  | nil => rfl
  | cons entry rest ih =>
    rw [List.map_cons, List.mem_cons, not_or] at other
    rw [write_cons, ih other.2, Function.update_of_ne other.1]

/-- Under a written key stands one of the written values, whatever was there. -/
theorem write_own {entries : List (Key × Value)} {key : Key}
    (written : key ∈ entries.map Prod.fst) :
    ∃ value, (key, value) ∈ entries ∧ ∀ store, write entries store key = some value := by
  induction entries with
  | nil => simp at written
  | cons entry rest ih =>
    by_cases later : key ∈ rest.map Prod.fst
    · obtain ⟨value, member, stored⟩ := ih later
      exact ⟨value, List.mem_cons_of_mem _ member, fun store => stored _⟩
    · rw [List.map_cons, List.mem_cons] at written
      have same : key = entry.1 := written.resolve_right later
      subst same
      refine ⟨entry.2, List.mem_cons_self .., fun store => ?_⟩
      rw [write_cons, write_other later, Function.update_self]

/-- What a store holds after a write was written, or stood there before. -/
theorem write_cases {entries : List (Key × Value)} {key : Key} {value : Value}
    (held : write entries store key = some value) : (key, value) ∈ entries ∨ store key = some value := by
  by_cases written : key ∈ entries.map Prod.fst
  · obtain ⟨value', member, stored⟩ := write_own written
    rw [stored] at held
    cases held
    exact .inl member
  · rw [write_other written] at held
    exact .inr held

theorem write_mem {entries : List (Key × Value)} (distinct : (entries.map Prod.fst).Nodup)
    {entry : Key × Value} (member : entry ∈ entries) :
    write entries store entry.1 = some entry.2 := by
  obtain ⟨value, found, stored⟩ := write_own (List.mem_map.mpr ⟨entry, member, rfl⟩)
  have same := List.inj_on_of_nodup_map distinct found member rfl
  rw [stored, ← same]

theorem write_eq_some {entries : List (Key × Value)} (distinct : (entries.map Prod.fst).Nodup)
    {key : Key} {value : Value} :
    write entries store key = some value ↔
      (key, value) ∈ entries ∨ (store key = some value ∧ key ∉ entries.map Prod.fst) := by
  by_cases written : key ∈ entries.map Prod.fst
  · obtain ⟨⟨_, stored⟩, member, same⟩ := List.mem_map.mp written
    subst same
    rw [write_mem distinct member]
    constructor
    · intro equal
      cases equal
      exact .inl member
    · rintro (found | ⟨_, missing⟩)
      · exact congrArg some
          (congrArg Prod.snd (List.inj_on_of_nodup_map distinct member found rfl))
      · exact absurd written missing
  · rw [write_other written]
    constructor
    · exact fun held => .inr ⟨held, written⟩
    · rintro (found | held)
      · exact absurd (List.mem_map.mpr ⟨_, found, rfl⟩) written
      · exact held.1

theorem write_idem (entries : List (Key × Value)) :
    write entries (write entries store) = write entries store := by
  funext key
  by_cases written : key ∈ entries.map Prod.fst
  · obtain ⟨value, _, stored⟩ := write_own written
    rw [stored, stored]
  · rw [write_other written]

theorem write_comm {entries others : List (Key × Value)}
    (disjoint : ∀ key ∈ entries.map Prod.fst, key ∉ others.map Prod.fst) :
    write entries (write others store) = write others (write entries store) := by
  funext key
  by_cases written : key ∈ entries.map Prod.fst
  · obtain ⟨value, _, stored⟩ := write_own written
    rw [stored, write_other (disjoint key written), stored]
  · rw [write_other written]
    by_cases written' : key ∈ others.map Prod.fst
    · obtain ⟨value, _, stored⟩ := write_own written'
      rw [stored, stored]
    · rw [write_other written', write_other written', write_other written]

omit [DecidableEq Key] in
theorem remove_eq_some {selected : Value → Bool} {key : Key} {value : Value} :
    remove selected store key = some value ↔ store key = some value ∧ selected value = false := by
  rw [remove, Option.filter_eq_some_iff, Bool.not_eq_true']

omit [DecidableEq Key] in
theorem remove_idem (selected : Value → Bool) :
    remove selected (remove selected store) = remove selected store := by
  funext key
  cases held : store key with
  | none => simp [remove, held]
  | some value => cases drop : selected value <;> simp [remove, held, Option.filter, drop]

omit [DecidableEq Key] in
theorem remove_comm (selected others : Value → Bool) :
    remove selected (remove others store) = remove others (remove selected store) := by
  funext key
  cases held : store key with
  | none => simp [remove, held]
  | some value =>
    cases one : selected value <;> cases two : others value <;>
      simp [remove, held, Option.filter, one, two]

/-- The store holds no value the predicate selects. -/
def Lacks (selected : Value → Bool) (store : Store Key Value) : Prop :=
  ∀ key value, store key = some value → selected value = false

theorem Lacks.write {selected : Value → Bool} (lacks : Lacks selected store)
    {entries : List (Key × Value)} (kept : ∀ entry ∈ entries, selected entry.2 = false) :
    Lacks selected (write entries store) := by
  intro key value held
  by_cases written : key ∈ entries.map Prod.fst
  · obtain ⟨value', member, stored⟩ := write_own written
    cases (stored store).symm.trans held
    exact kept _ member
  · rw [write_other written] at held
    exact lacks key value held

omit [DecidableEq Key] in
theorem Lacks.remove {selected : Value → Bool} (lacks : Lacks selected store)
    (others : Value → Bool) : Lacks selected (remove others store) :=
  fun key value held => lacks key value (remove_eq_some.mp held).1

omit [DecidableEq Key] in
theorem lacks_remove (selected : Value → Bool) (store : Store Key Value) :
    Lacks selected (remove selected store) := fun _ _ held => (remove_eq_some.mp held).2

omit [DecidableEq Key] in
theorem remove_eq_self {selected : Value → Bool} (clear : Lacks selected store) :
    remove selected store = store := by
  funext key
  cases held : store key with
  | none => simp [remove, held]
  | some value => simp [remove, held, Option.filter, clear key value held]

theorem remove_write {selected : Value → Bool} {entries : List (Key × Value)}
    (kept : ∀ entry ∈ entries, selected entry.2 = false) :
    remove selected (write entries store) = write entries (remove selected store) := by
  funext key
  by_cases written : key ∈ entries.map Prod.fst
  · obtain ⟨value, member, stored⟩ := write_own written
    rw [stored, remove, stored]
    simp [Option.filter, kept (key, value) member]
  · rw [write_other written, remove, write_other written]
    rfl

/-- Convert every value. -/
def map {Value' : Type} (convert : Value → Value') (store : Store Key Value) : Store Key Value' :=
  fun key => (store key).map convert

theorem map_write {Value' : Type} (convert : Value → Value') (entries : List (Key × Value)) :
    map convert (write entries store) =
      write (entries.map fun entry => (entry.1, convert entry.2)) (map convert store) := by
  induction entries generalizing store with
  | nil => rfl
  | cons entry rest ih =>
    have updated : map convert (Function.update store entry.1 (some entry.2)) =
        Function.update (map convert store) entry.1 (some (convert entry.2)) := by
      funext key
      by_cases own : key = entry.1
      · subst own
        simp [map]
      · simp [map, own]
    rw [write_cons, ih, updated, List.map_cons, write_cons]

omit [DecidableEq Key] in
theorem map_remove {Value' : Type} {convert : Value → Value'} {selected : Value → Bool}
    {selected' : Value' → Bool} (same : ∀ value, selected' (convert value) = selected value) :
    map convert (remove selected store) = remove selected' (map convert store) := by
  funext key
  cases held : store key with
  | none => simp [map, remove, held]
  | some value => cases drop : selected value <;> simp [map, remove, held, Option.filter, same, drop]

/-- Every value stands under the key it names. -/
def Keyed (name : Value → Key) (store : Store Key Value) : Prop :=
  ∀ key value, store key = some value → key = name value

omit [DecidableEq Key] in
theorem keyed_empty (name : Value → Key) : Keyed name (fun _ => none) := by
  intro key value held
  cases held

theorem Keyed.write {name : Value → Key} (keyed : Keyed name store)
    {entries : List (Key × Value)} (own : ∀ entry ∈ entries, entry.1 = name entry.2) :
    Keyed name (write entries store) := by
  intro key value held
  by_cases written : key ∈ entries.map Prod.fst
  · obtain ⟨value', member, stored⟩ := write_own written
    cases (stored store).symm.trans held
    exact own _ member
  · rw [write_other written] at held
    exact keyed key value held

omit [DecidableEq Key] in
theorem Keyed.remove {name : Value → Key} (keyed : Keyed name store) (selected : Value → Bool) :
    Keyed name (remove selected store) :=
  fun key value held => keyed key value (remove_eq_some.mp held).1

end Store

/-! Actions that commute with one another and can be repeated: a run depends
only on which actions took part. -/

section Replay

variable {Action State : Type} {act : Action → State → State} {taken : Action → Prop}

private theorem foldl_act_comm
    (comm : ∀ a b, taken a → taken b → ∀ state, act a (act b state) = act b (act a state))
    {actions : List Action} (all : ∀ action ∈ actions, taken action) {a : Action} (one : taken a)
    (state : State) :
    act a (actions.foldl (fun state action => act action state) state) =
      actions.foldl (fun state action => act action state) (act a state) := by
  induction actions generalizing state with
  | nil => rfl
  | cons action rest ih =>
    rw [List.foldl_cons, List.foldl_cons, ih fun other member => all other (List.mem_cons_of_mem _ member),
      comm a action one (all action (List.mem_cons_self ..))]

private theorem foldl_act_absorbs
    (comm : ∀ a b, taken a → taken b → ∀ state, act a (act b state) = act b (act a state))
    (idem : ∀ a, taken a → ∀ state, act a (act a state) = act a state)
    {actions : List Action} (all : ∀ action ∈ actions, taken action) {a : Action}
    (member : a ∈ actions) (state : State) :
    actions.foldl (fun state action => act action state) (act a state) =
      actions.foldl (fun state action => act action state) state := by
  induction actions generalizing state with
  | nil => simp at member
  | cons action rest ih =>
    have later : ∀ other ∈ rest, taken other := fun other found =>
      all other (List.mem_cons_of_mem _ found)
    rw [List.foldl_cons, List.foldl_cons]
    rcases List.mem_cons.mp member with same | found
    · subst same
      rw [idem a (all a member)]
    · rw [comm action a (all action (List.mem_cons_self ..)) (all a member), ih later found]

private theorem foldl_act_append_absorbs
    (comm : ∀ a b, taken a → taken b → ∀ state, act a (act b state) = act b (act a state))
    (idem : ∀ a, taken a → ∀ state, act a (act a state) = act a state)
    {actions others : List Action} (all : ∀ action ∈ actions, taken action)
    (within : ∀ action ∈ others, action ∈ actions) (state : State) :
    actions.foldl (fun state action => act action state)
        (others.foldl (fun state action => act action state) state) =
      actions.foldl (fun state action => act action state) state := by
  induction others generalizing state with
  | nil => rfl
  | cons action rest ih =>
    rw [List.foldl_cons, ih fun other found => within other (List.mem_cons_of_mem _ found),
      foldl_act_absorbs comm idem all (within action (List.mem_cons_self ..))]

/-- Two runs of the same actions, in any order and with any repetitions, end
alike. -/
theorem foldl_act_eq (act : Action → State → State) (taken : Action → Prop)
    (comm : ∀ a b, taken a → taken b → ∀ state, act a (act b state) = act b (act a state))
    (idem : ∀ a, taken a → ∀ state, act a (act a state) = act a state)
    {first second : List Action} (all : ∀ action ∈ first, taken action)
    (same : ∀ action, action ∈ first ↔ action ∈ second) (state : State) :
    first.foldl (fun state action => act action state) state =
      second.foldl (fun state action => act action state) state := by
  have all' : ∀ action ∈ second, taken action := fun action member =>
    all action ((same action).mpr member)
  have swap (actions others : List Action) (front : ∀ action ∈ actions, taken action)
      (back : ∀ action ∈ others, taken action) :
      actions.foldl (fun state action => act action state)
          (others.foldl (fun state action => act action state) state) =
        others.foldl (fun state action => act action state)
          (actions.foldl (fun state action => act action state) state) := by
    induction actions generalizing state with
    | nil => rfl
    | cons action rest ih =>
      rw [List.foldl_cons, List.foldl_cons, foldl_act_comm comm back (front action (List.mem_cons_self ..)),
        ih _ fun other found => front other (List.mem_cons_of_mem _ found)]
  rw [← foldl_act_append_absorbs comm idem all (fun action member => (same action).mpr member) state,
    swap first second all all',
    foldl_act_append_absorbs comm idem all' (fun action member => (same action).mp member) state]

end Replay

end Foundation
