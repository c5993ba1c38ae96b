import DocContext.Foundation.Tiling

/-! Occurrences of one list in another, the segments that cutting behind them
leaves, and maximal runs between breaks. -/

namespace Foundation

variable {α : Type}

/-- `sep` stands at position `i`. -/
def OccursAt (items sep : List α) (i : Nat) : Prop := sep <+: items.drop i

/-- The leftmost position from `start` on where `sep` stands. -/
structure FirstFrom (items sep : List α) (start i : Nat) : Prop where
  reached : start ≤ i
  occurs : OccursAt items sep i
  leftmost : ∀ j, start ≤ j → j < i → ¬ OccursAt items sep j

/-- Where a segment starts: at 0, or behind the leftmost separator after the start
of another. -/
inductive SegmentStart (items sep : List α) : Nat → Prop where
  | first : SegmentStart items sep 0
  | next : SegmentStart items sep start → FirstFrom items sep start i →
      SegmentStart items sep (i + sep.length)

/-- A segment reaches over the next separator, or to the end where there is none. -/
def Segment (items sep : List α) (start stop : Nat) : Prop :=
  SegmentStart items sep start ∧
    ((∃ i, FirstFrom items sep start i ∧ stop = i + sep.length) ∨
      ((∀ i, start ≤ i → ¬ OccursAt items sep i) ∧ stop = items.length))

theorem FirstFrom.unique {items sep : List α} (one : FirstFrom items sep start i)
    (other : FirstFrom items sep start j) : i = j := by
  rcases Nat.lt_trichotomy i j with before | same | behind
  · exact absurd one.occurs (other.leftmost i one.reached before)
  · exact same
  · exact absurd other.occurs (one.leftmost j other.reached behind)

theorem OccursAt.bound {items sep : List α} (occurs : OccursAt items sep i)
    (nonempty : sep ≠ []) : i + sep.length ≤ items.length := by
  have short := List.IsPrefix.length_le occurs
  have positive := List.length_pos_iff.mpr nonempty
  rw [List.length_drop] at short
  omega

theorem SegmentStart.le {items sep : List α} (starts : SegmentStart items sep start)
    (nonempty : sep ≠ []) : start ≤ items.length := by
  induction starts with
  | first => exact Nat.zero_le _
  | next _ first _ => exact first.occurs.bound nonempty

theorem Segment.bounds {items sep : List α} (segment : Segment items sep start stop)
    (nonempty : sep ≠ []) : start ≤ stop ∧ stop ≤ items.length := by
  obtain ⟨starts, ⟨i, first, reach⟩ | ⟨_, reach⟩⟩ := segment
  · have bound := first.occurs.bound nonempty
    have reached := first.reached
    omega
  · have bound := starts.le nonempty
    omega

theorem OccursAt.getElem? {items sep : List α} (occurs : OccursAt items sep i)
    (within : k < sep.length) : items[i + k]? = sep[k]? := by
  have here := List.prefix_iff_getElem?.mp occurs k within
  rw [List.getElem?_drop] at here
  rw [here, List.getElem?_eq_getElem within]

theorem occursAt_singleton {items : List α} : OccursAt items [item] i ↔ items[i]? = some item := by
  rw [OccursAt, List.singleton_prefix_iff_head?_eq_some, List.head?_drop]

theorem getElem?_slice (items : List α) (start stop k : Nat) :
    (slice items start stop)[k]? = if start + k < stop then items[start + k]? else none := by
  rw [slice, List.getElem?_drop, List.getElem?_take]

/-! Maximal runs. -/

variable {Break : α → Prop}

/-- The end of a segment: the list stops there or a break stands before it. -/
def Boundary (Break : α → Prop) (items : List α) (i : Nat) : Prop :=
  i = 0 ∨ i = items.length ∨ ∃ k item, i = k + 1 ∧ items[k]? = some item ∧ Break item

/-- A maximal run of elements that are no breaks. -/
structure Run (Break : α → Prop) (items : List α) (start stop : Nat) : Prop where
  nonempty : start < stop
  within : stop ≤ items.length
  unbroken : ∀ i item, start ≤ i → i < stop → items[i]? = some item → ¬ Break item
  before : ∀ i item, i + 1 = start → items[i]? = some item → Break item
  behind : ∀ item, items[stop]? = some item → Break item

theorem Run.uncut {items : List α} (run : Run Break items start stop)
    (boundary : Boundary Break items i) : ¬ (start < i ∧ i < stop) := by
  rintro ⟨lower, upper⟩
  rcases boundary with zero | full | ⟨k, item, next, found, brk⟩
  · omega
  · have within := run.within
    omega
  · exact run.unbroken k item (by omega) (by omega) found brk

/-- A run that reaches into the part between two boundaries is a run of that part. -/
theorem Run.slice {items : List α} (run : Run Break items start stop)
    (lo : Boundary Break items first) (hi : Boundary Break items last)
    (bound : last ≤ items.length) (inside : first < i ∧ i < last)
    (meets : start < i ∧ i < stop) :
    first ≤ start ∧ stop ≤ last ∧
      Run Break (slice items first last) (start - first) (stop - first) := by
  have lower : first ≤ start := by
    have uncut := run.uncut lo
    omega
  have upper : stop ≤ last := by
    have uncut := run.uncut hi
    omega
  have nonempty := run.nonempty
  refine ⟨lower, upper, ?_⟩
  constructor
  case nonempty => omega
  case within =>
    rw [length_slice, Nat.min_eq_left bound]
    omega
  case unbroken =>
    intro k item above below found
    rw [getElem?_slice, if_pos (by omega)] at found
    exact run.unbroken (first + k) item (by omega) (by omega) found
  case before =>
    intro k item next found
    rw [getElem?_slice, if_pos (by omega)] at found
    exact run.before (first + k) item (by omega) found
  case behind =>
    intro item found
    rw [getElem?_slice] at found
    split at found
    · rw [Nat.add_sub_cancel' (by omega)] at found
      exact run.behind item found
    · cases found

end Foundation
