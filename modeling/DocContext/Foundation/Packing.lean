import Mathlib.Algebra.Order.Floor.Div
import Mathlib.Order.Bounds.Basic

/-! Packing a sequence of items, in order, into groups of bounded load. The greedy
packing opens a group only for an item the open one has no room for, and no packing
has fewer groups. -/

namespace Foundation

variable {ι : Type} (weight : ι → Nat) (capacity : Nat)

def load (group : List ι) : Nat := (group.map weight).sum

/-- A partition of the items into consecutive groups, none above the capacity. -/
structure Packing (items : List ι) (groups : List (List ι)) : Prop where
  flat : groups.flatten = items
  nonempty : ∀ group ∈ groups, group ≠ []
  within : ∀ group ∈ groups, load weight group ≤ capacity

/-- The groups that packing the items greedily makes, from a group that is open. -/
def packFrom (opened : List ι) : List ι → List (List ι)
  | [] => [opened]
  | item :: rest =>
    if load weight opened + weight item ≤ capacity then packFrom (opened ++ [item]) rest
    else opened :: packFrom [item] rest

/-- The greedy packing. -/
def pack : List ι → List (List ι)
  | [] => []
  | item :: rest => packFrom weight capacity [item] rest

variable {weight} {capacity}

@[simp] theorem load_nil : load weight [] = 0 := rfl

@[simp] theorem load_cons (item : ι) (group : List ι) :
    load weight (item :: group) = weight item + load weight group := by
  simp [load]

@[simp] theorem load_append (front back : List ι) :
    load weight (front ++ back) = load weight front + load weight back := by
  simp [load]

theorem packFrom_room {item : ι} (room : load weight opened + weight item ≤ capacity)
    (rest : List ι) : packFrom weight capacity opened (item :: rest) =
      packFrom weight capacity (opened ++ [item]) rest := by
  simp [packFrom, room]

theorem packFrom_full {item : ι} (full : capacity < load weight opened + weight item)
    (rest : List ι) : packFrom weight capacity opened (item :: rest) =
      opened :: packFrom weight capacity [item] rest := by
  simp [packFrom, Nat.not_le.mpr full]

/-! The greedy packing is a packing. -/

theorem packFrom_flatten (opened items : List ι) :
    (packFrom weight capacity opened items).flatten = opened ++ items := by
  induction items generalizing opened with
  | nil => simp [packFrom]
  | cons item rest ih =>
    by_cases room : load weight opened + weight item ≤ capacity
    · simp [packFrom, room, ih]
    · simp [packFrom, room, ih]

theorem packFrom_nonempty (started : opened ≠ []) (items : List ι) :
    ∀ group ∈ packFrom weight capacity opened items, group ≠ [] := by
  induction items generalizing opened with
  | nil => simpa [packFrom] using started
  | cons item rest ih =>
    have joined : opened ++ [item] ≠ [] := by simp
    have single : [item] ≠ [] := by simp
    by_cases room : load weight opened + weight item ≤ capacity
    · simpa [packFrom, room] using ih joined
    · simpa [packFrom, room, started] using ih single

theorem packFrom_within (fits : load weight opened ≤ capacity)
    (small : ∀ item ∈ items, weight item ≤ capacity) :
    ∀ group ∈ packFrom weight capacity opened items, load weight group ≤ capacity := by
  induction items generalizing opened with
  | nil => simpa [packFrom] using fits
  | cons item rest ih =>
    have smaller : ∀ other ∈ rest, weight other ≤ capacity := fun other member =>
      small other (by simp [member])
    by_cases room : load weight opened + weight item ≤ capacity
    · have joined : load weight (opened ++ [item]) ≤ capacity := by simpa using room
      simpa [packFrom, room] using ih joined smaller
    · have single : load weight [item] ≤ capacity := by simpa using small item (by simp)
      simpa [packFrom, room, fits] using ih single smaller

theorem pack_packing (small : ∀ item ∈ items, weight item ≤ capacity) :
    Packing weight capacity items (pack weight capacity items) := by
  cases items with
  | nil => exact ⟨rfl, by simp [pack], by simp [pack]⟩
  | cons item rest =>
    constructor
    · exact packFrom_flatten [item] rest
    · exact packFrom_nonempty (by simp) rest
    · have single : load weight [item] ≤ capacity := by simpa using small item (by simp)
      exact packFrom_within single fun other member => small other (by simp [member])

/-! No packing has fewer groups: over one group of a packing, the greedy packing
opens at most one. -/

theorem packFrom_append (room : load weight opened + load weight group ≤ capacity)
    (rest : List ι) : packFrom weight capacity opened (group ++ rest) =
      packFrom weight capacity (opened ++ group) rest := by
  induction group generalizing opened with
  | nil => simp
  | cons item later ih =>
    rw [load_cons] at room
    have joined : load weight (opened ++ [item]) + load weight later ≤ capacity := by
      simp only [load_append, load_cons, load_nil]
      omega
    rw [List.cons_append, packFrom_room (by omega), ih joined]
    simp

theorem packFrom_group (within : load weight group ≤ capacity) (opened rest : List ι) :
    ∃ next, (packFrom weight capacity opened (group ++ rest)).length ≤
      (packFrom weight capacity next rest).length + 1 := by
  induction group generalizing opened with
  | nil => exact ⟨opened, Nat.le_succ _⟩
  | cons item later ih =>
    rw [load_cons] at within
    rw [List.cons_append]
    by_cases room : load weight opened + weight item ≤ capacity
    · rw [packFrom_room room]
      exact ih (by omega) _
    · -- the rest of the group has room in the group its item opens
      have joins : load weight [item] + load weight later ≤ capacity := by simpa using within
      refine ⟨[item] ++ later, ?_⟩
      rw [packFrom_full (by omega), packFrom_append joins, List.length_cons]

theorem packFrom_least {groups : List (List ι)}
    (within : ∀ group ∈ groups, load weight group ≤ capacity)
    (opened : List ι) :
    (packFrom weight capacity opened groups.flatten).length ≤ groups.length + 1 := by
  induction groups generalizing opened with
  | nil => simp [packFrom]
  | cons group later ih =>
    obtain ⟨next, bound⟩ := packFrom_group (within group (by simp)) opened later.flatten
    have ahead := ih (fun other member => within other (by simp [member])) next
    simp only [List.flatten_cons, List.length_cons]
    omega

theorem Packing.pack_le (packing : Packing weight capacity items groups) :
    (pack weight capacity items).length ≤ groups.length := by
  obtain ⟨flat, nonempty, within⟩ := packing
  subst items
  cases groups with
  | nil => simp [pack]
  | cons group later =>
    have first := within group (by simp)
    cases group with
    | nil => exact absurd rfl (nonempty [] (by simp))
    | cons item others =>
      have joins : load weight [item] + load weight others ≤ capacity := by simpa using first
      have rest : ∀ other ∈ later, load weight other ≤ capacity := fun other member =>
        within other (by simp [member])
      have bound := packFrom_least rest ([item] ++ others)
      rwa [List.flatten_cons, List.cons_append, pack, packFrom_append joins]

/-- The greedy packing has the least number of groups. -/
theorem pack_isLeast (small : ∀ item ∈ items, weight item ≤ capacity) :
    IsLeast {count | ∃ groups, Packing weight capacity items groups ∧ groups.length = count}
      (pack weight capacity items).length := by
  constructor
  · exact ⟨_, pack_packing small, rfl⟩
  · rintro _ ⟨groups, packing, rfl⟩
    exact packing.pack_le

/-! Items of weight one fill every group but the last. -/

theorem packFrom_unit (unit : ∀ item ∈ items, weight item = 1)
    (started : 0 < load weight opened) (fits : load weight opened ≤ capacity) :
    (packFrom weight capacity opened items).length =
      (load weight opened + items.length) ⌈/⌉ capacity := by
  induction items generalizing opened with
  | nil =>
    have one : (load weight opened + (capacity - 1)) / capacity = 1 :=
      Nat.div_eq_of_lt_le (by omega) (by omega)
    rw [packFrom, Nat.ceilDiv_eq_add_pred_div, List.length_nil, Nat.add_zero,
      Nat.add_sub_assoc (by omega), one]
    rfl
  | cons item rest ih =>
    have single : weight item = 1 := unit item (by simp)
    have others : ∀ other ∈ rest, weight other = 1 := fun other member =>
      unit other (by simp [member])
    by_cases room : load weight opened + weight item ≤ capacity
    · rw [packFrom_room room, ih others (by simp; omega) (by simpa using room)]
      simp [single, Nat.add_assoc, Nat.add_comm 1]
    · have full : load weight opened = capacity := by omega
      rw [packFrom_full (by omega), List.length_cons,
        ih others (by simp [single]) (by simp [single]; omega), full]
      simp only [load_cons, load_nil, single, List.length_cons, Nat.ceilDiv_eq_add_pred_div]
      have shifted : capacity + (rest.length + 1) + capacity - 1 =
          (1 + 0 + rest.length + capacity - 1) + capacity := by omega
      rw [shifted, Nat.add_div_right _ (by omega)]

theorem pack_unit (unit : ∀ item ∈ items, weight item = 1) (positive : 0 < capacity) :
    (pack weight capacity items).length = items.length ⌈/⌉ capacity := by
  cases items with
  | nil => simp [pack]
  | cons item rest =>
    have single : weight item = 1 := unit item (by simp)
    rw [pack, packFrom_unit (fun other member => unit other (by simp [member])) (by simp [single])
      (by simp [single]; omega)]
    simp [single, Nat.add_comm]

end Foundation
