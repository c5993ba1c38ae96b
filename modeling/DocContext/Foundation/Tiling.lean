import Mathlib

/-! Ranges of positions in a list: lists of ranges that tile an interval, the
elements at chosen positions, and stitching overlapping cuts back together. -/

namespace Foundation

/-- The positions from the first component up to, and without, the second. -/
abbrev Span := Nat × Nat

/-- Consecutive nonempty spans from `lo` to `hi`, without gap or overlap. -/
def Tiles : Nat → Nat → List Span → Prop
  | lo, hi, [] => lo = hi
  | lo, hi, span :: rest => span.1 = lo ∧ lo < span.2 ∧ Tiles span.2 hi rest

@[simp] theorem tiles_nil : Tiles lo hi [] ↔ lo = hi := Iff.rfl

@[simp] theorem tiles_cons :
    Tiles lo hi (span :: rest) ↔ span.1 = lo ∧ lo < span.2 ∧ Tiles span.2 hi rest := Iff.rfl

theorem Tiles.le (tiles : Tiles lo hi spans) : lo ≤ hi := by
  induction spans generalizing lo with
  | nil => exact Nat.le_of_eq tiles
  | cons span rest ih =>
    obtain ⟨_, positive, remaining⟩ := tiles
    exact Nat.le_trans (Nat.le_of_lt positive) (ih remaining)

theorem Tiles.append (first : Tiles lo mid front) (second : Tiles mid hi back) :
    Tiles lo hi (front ++ back) := by
  induction front generalizing lo with
  | nil =>
    cases first
    exact second
  | cons span rest ih =>
    obtain ⟨start, positive, remaining⟩ := first
    exact ⟨start, positive, ih remaining⟩

theorem Tiles.snoc (tiles : Tiles lo mid spans) (positive : mid < hi) :
    Tiles lo hi (spans ++ [(mid, hi)]) :=
  tiles.append ⟨rfl, positive, rfl⟩

/-- Shift every span by the same distance. -/
def shift (distance : Nat) (spans : List Span) : List Span :=
  spans.map fun span => (distance + span.1, distance + span.2)

theorem Tiles.shift (tiles : Tiles lo hi spans) (distance : Nat) :
    Tiles (distance + lo) (distance + hi) (shift distance spans) := by
  induction spans generalizing lo with
  | nil =>
    cases tiles
    rfl
  | cons span rest ih =>
    obtain ⟨start, positive, remaining⟩ := tiles
    exact ⟨by simp [start], Nat.add_lt_add_left positive distance, ih remaining⟩

theorem Tiles.bounds (tiles : Tiles lo hi spans) (member : span ∈ spans) :
    lo ≤ span.1 ∧ span.1 < span.2 ∧ span.2 ≤ hi := by
  induction spans generalizing lo with
  | nil => simp at member
  | cons head rest ih =>
    obtain ⟨start, positive, remaining⟩ := tiles
    rcases List.mem_cons.mp member with same | later
    · subst same
      exact ⟨Nat.le_of_eq start.symm, by omega, remaining.le⟩
    · obtain ⟨lower, nonempty, upper⟩ := ih remaining later
      exact ⟨by omega, nonempty, upper⟩

theorem Tiles.nil_iff (tiles : Tiles lo hi spans) : spans = [] ↔ lo = hi := by
  cases spans with
  | nil => simpa using tiles
  | cons span rest =>
    obtain ⟨_, positive, remaining⟩ := tiles
    have upper := remaining.le
    simp only [reduceCtorEq, false_iff]
    omega

theorem Tiles.first (tiles : Tiles lo hi spans) (found : spans[0]? = some span) :
    span.1 = lo ∧ lo < span.2 := by
  cases spans with
  | nil => simp at found
  | cons head rest =>
    cases found
    exact ⟨tiles.1, tiles.2.1⟩

theorem Tiles.next (tiles : Tiles lo hi spans) (earlier : spans[i]? = some before)
    (later : spans[i + 1]? = some span) : span.1 = before.2 ∧ before.2 < span.2 := by
  induction spans generalizing lo i with
  | nil => simp at later
  | cons head rest ih =>
    obtain ⟨_, _, remaining⟩ := tiles
    cases i with
    | zero =>
      cases earlier
      exact remaining.first later
    | succ i => exact ih remaining earlier later

theorem Tiles.last (tiles : Tiles lo hi spans) (found : spans.getLast? = some span) :
    span.2 = hi := by
  induction spans generalizing lo with
  | nil => cases found
  | cons head rest ih =>
    obtain ⟨_, _, remaining⟩ := tiles
    cases rest with
    | nil =>
      cases found
      exact remaining
    | cons next rest =>
      rw [List.getLast?_cons_cons] at found
      exact ih remaining found

/-- Every position of a tiled interval lies in one of its spans. -/
theorem Tiles.covers (tiles : Tiles lo hi spans) (lower : lo ≤ position)
    (upper : position < hi) : ∃ span ∈ spans, span.1 ≤ position ∧ position < span.2 := by
  induction spans generalizing lo with
  | nil =>
    cases tiles
    omega
  | cons span rest ih =>
    obtain ⟨start, _, remaining⟩ := tiles
    by_cases inside : position < span.2
    · exact ⟨span, by simp, by omega, inside⟩
    · obtain ⟨later, member, found⟩ := ih remaining (by omega)
      exact ⟨later, by simp [member], found⟩

/-! Elements of a list by position. -/

variable {α : Type}

/-- The elements from position `start` up to `stop`, as a slice takes them. -/
def slice (items : List α) (start stop : Nat) : List α := (items.take stop).drop start

@[simp] theorem length_slice (items : List α) (start stop : Nat) :
    (slice items start stop).length = min stop items.length - start := by
  simp [slice]

theorem drop_slice (items : List α) (start stop count : Nat) :
    (slice items start stop).drop count = slice items (start + count) stop := by
  simp [slice]

theorem slice_slice (items : List α) (start stop first last : Nat) (within : start + last ≤ stop) :
    slice (slice items start stop) first last = slice items (start + first) (start + last) := by
  unfold slice
  rw [List.take_drop, List.take_take, List.drop_drop, Nat.min_eq_left within]

/-- The elements at the positions chosen by `keep`, counted from `offset`, in
increasing position order and each exactly once. -/
def keepFrom (offset : Nat) (items : List α) (keep : Nat → Bool) : List α :=
  ((items.zipIdx offset).filter fun entry => keep entry.2).map Prod.fst

/-- The elements at the positions chosen by `keep`. -/
def keepPositions (items : List α) (keep : Nat → Bool) : List α := keepFrom 0 items keep

@[simp] theorem keepFrom_nil (keep : Nat → Bool) : keepFrom offset ([] : List α) keep = [] := rfl

theorem keepFrom_cons (item : α) (items : List α) (keep : Nat → Bool) :
    keepFrom offset (item :: items) keep =
      if keep offset then item :: keepFrom (offset + 1) items keep
      else keepFrom (offset + 1) items keep := by
  by_cases kept : keep offset <;> simp [keepFrom, List.zipIdx_cons, kept]

theorem keepFrom_append (front back : List α) (keep : Nat → Bool) :
    keepFrom offset (front ++ back) keep =
      keepFrom offset front keep ++ keepFrom (offset + front.length) back keep := by
  simp [keepFrom, List.zipIdx_append]

theorem keepFrom_congr (items : List α) (first second : Nat → Bool)
    (agree : ∀ position, offset ≤ position → position < offset + items.length →
      first position = second position) :
    keepFrom offset items first = keepFrom offset items second := by
  induction items generalizing offset with
  | nil => rfl
  | cons item rest ih =>
    have later := @ih (offset + 1) fun position lower upper =>
      agree position (by omega) (by simp only [List.length_cons]; omega)
    have here := agree offset (Nat.le_refl _) (by simp)
    simp only [keepFrom_cons, here, later]

theorem keepFrom_all (items : List α) (keep : Nat → Bool)
    (all : ∀ position, offset ≤ position → position < offset + items.length →
      keep position = true) : keepFrom offset items keep = items := by
  induction items generalizing offset with
  | nil => rfl
  | cons item rest ih =>
    have later := @ih (offset + 1) fun position lower upper =>
      all position (by omega) (by simp only [List.length_cons]; omega)
    have here := all offset (Nat.le_refl _) (by simp)
    simp only [keepFrom_cons, here, later, ↓reduceIte]

theorem keepFrom_none (items : List α) (keep : Nat → Bool)
    (none : ∀ position, offset ≤ position → position < offset + items.length →
      keep position = false) : keepFrom offset items keep = [] := by
  induction items generalizing offset with
  | nil => rfl
  | cons item rest ih =>
    have later := @ih (offset + 1) fun position lower upper =>
      none position (by omega) (by simp only [List.length_cons]; omega)
    have here := none offset (Nat.le_refl _) (by simp)
    simp only [keepFrom_cons, here, later, Bool.false_eq_true, ↓reduceIte]

theorem keepFrom_length_le (items : List α) (keep : Nat → Bool) :
    (keepFrom offset items keep).length ≤ items.length := by
  have filtered := List.length_filter_le (fun entry : α × Nat => keep entry.2) (items.zipIdx offset)
  simpa [keepFrom] using filtered

/-- A choice of positions returns the whole list exactly when it skips none. -/
theorem keepFrom_eq_self_iff (items : List α) (keep : Nat → Bool) :
    keepFrom offset items keep = items ↔
      ∀ position, offset ≤ position → position < offset + items.length →
        keep position = true := by
  constructor
  · intro whole
    induction items generalizing offset with
    | nil =>
      intro position lower upper
      simp only [List.length_nil] at upper
      omega
    | cons item rest ih =>
      rw [keepFrom_cons] at whole
      split at whole
      · rename_i kept
        intro position lower upper
        by_cases here : position = offset
        · subst here
          exact kept
        · exact ih (List.cons.inj whole).2 position (by omega)
            (by simp only [List.length_cons] at upper; omega)
      · have short : (keepFrom (offset + 1) rest keep).length ≤ rest.length :=
          keepFrom_length_le rest keep
        rw [whole] at short
        simp at short
  · exact keepFrom_all items keep

theorem keepPositions_eq_self_iff (items : List α) (keep : Nat → Bool) :
    keepPositions items keep = items ↔ ∀ position, position < items.length → keep position = true := by
  simp [keepPositions, keepFrom_eq_self_iff]

/-- Cutting a list at two positions cuts a choice of positions with it. -/
theorem keepPositions_split (items : List α) (keep : Nat → Bool) (start stop : Nat)
    (ordered : start ≤ stop) (within : stop ≤ items.length) :
    keepPositions items keep =
      keepFrom 0 (items.take start) keep ++ keepFrom start (slice items start stop) keep ++
        keepFrom stop (items.drop stop) keep := by
  have cut : items = items.take start ++ slice items start stop ++ items.drop stop := by
    have head : items.take stop = items.take start ++ slice items start stop := by
      have taken : (items.take stop).take start = items.take start := by
        rw [List.take_take, Nat.min_eq_left ordered]
      calc items.take stop = (items.take stop).take start ++ (items.take stop).drop start :=
            (List.take_append_drop start _).symm
        _ = items.take start ++ slice items start stop := by rw [taken]; rfl
    rw [← head, List.take_append_drop]
  have front : 0 + (items.take start).length = start := by simp; omega
  have middle : 0 + (items.take start ++ slice items start stop).length = stop := by simp; omega
  conv => lhs; rw [keepPositions, cut]
  rw [keepFrom_append, keepFrom_append, front, middle]

/-! Stitching overlapping cuts of one list. -/

/-- A cut of a list: the span it was taken from and what was there. -/
structure Cut (α : Type) where
  start : Nat
  stop : Nat
  content : List α
deriving DecidableEq

/-- Append what lies beyond the cursor and move the cursor to the end. -/
def stitchStep (state : List α × Nat) (cut : Cut α) : List α × Nat :=
  (state.1 ++ (if state.2 ≤ cut.start then cut.content else cut.content.drop (state.2 - cut.start)),
    max state.2 cut.stop)

/-- Stitch cuts together from left to right, dropping what overlaps. -/
def stitch (cuts : List (Cut α)) : List α := (cuts.foldl stitchStep ([], 0)).1

/-- Some cut reaches over the position. -/
def covered (cuts : List (Cut α)) (position : Nat) : Bool :=
  cuts.any fun cut => decide (cut.start ≤ position) && decide (position < cut.stop)

theorem covered_iff (cuts : List (Cut α)) (position : Nat) :
    covered cuts position = true ↔ ∃ cut ∈ cuts, cut.start ≤ position ∧ position < cut.stop := by
  simp [covered]

/-- The cut shows what `items` has at its span. -/
def Cut.Of (items : List α) (cut : Cut α) : Prop :=
  cut.start ≤ cut.stop ∧ cut.stop ≤ items.length ∧ cut.content = slice items cut.start cut.stop

/-- Neither end of a later cut lies before that of an earlier one. -/
def Advancing (cuts : List (Cut α)) : Prop :=
  cuts.Pairwise fun first second => first.start ≤ second.start ∧ first.stop ≤ second.stop

/-- What the cursor of a stitching knows: it is the furthest end so far. -/
def CursorAt (cuts : List (Cut α)) (cursor : Nat) : Prop :=
  (∀ cut ∈ cuts, cut.stop ≤ cursor) ∧ (cursor = 0 ∨ ∃ cut ∈ cuts, cut.stop = cursor)

theorem CursorAt.snoc {cuts : List (Cut α)} (furthest : CursorAt cuts cursor) (cut : Cut α) :
    CursorAt (cuts ++ [cut]) (max cursor cut.stop) := by
  constructor
  · intro other member
    rcases List.mem_append.mp member with earlier | last
    · exact Nat.le_trans (furthest.1 other earlier) (Nat.le_max_left ..)
    · rw [List.mem_singleton.mp last]
      exact Nat.le_max_right ..
  · by_cases further : cursor ≤ cut.stop
    · exact .inr ⟨cut, by simp, by omega⟩
    · rcases furthest.2 with zero | ⟨other, member, reached⟩
      · omega
      · exact .inr ⟨other, by simp [member], by omega⟩

theorem keep_beyond {cuts : List (Cut α)} {start : Nat} (ended : ∀ cut ∈ cuts, cut.stop ≤ start)
    (rest : List α) : keepFrom start rest (covered cuts) = [] := by
  apply keepFrom_none
  intro position lower _
  apply Bool.eq_false_iff.mpr
  intro reach
  obtain ⟨cut, member, _, inside⟩ := (covered_iff _ _).mp reach
  have bound := ended cut member
  omega

/-- Below the cursor one more cut covers nothing that was not covered. -/
theorem covered_snoc_below {cuts : List (Cut α)} {cut : Cut α} (furthest : CursorAt cuts cursor)
    (starts : ∀ other ∈ cuts, other.start ≤ cut.start) {position : Nat}
    (below : position < max cursor cut.start) :
    covered (cuts ++ [cut]) position = covered cuts position := by
  apply Bool.eq_iff_iff.mpr
  simp only [covered_iff, List.mem_append, List.mem_singleton]
  constructor
  · rintro ⟨found, earlier | last, lower, higher⟩
    · exact ⟨found, earlier, lower, higher⟩
    · -- the new cut reaches below the cursor only where an earlier one does
      subst last
      rcases furthest.2 with zero | ⟨other, member, same⟩
      · omega
      · have before := starts other member
        exact ⟨other, member, by omega, by omega⟩
  · rintro ⟨found, earlier, inside⟩
    exact ⟨found, .inl earlier, inside⟩

/-- One more cut adds the positions from the cursor to its end. -/
theorem keep_covered_snoc {items : List α} {cuts : List (Cut α)} {cut : Cut α}
    (furthest : CursorAt cuts cursor) (ofItems : cut.Of items)
    (advancing : ∀ other ∈ cuts, other.start ≤ cut.start ∧ other.stop ≤ cut.stop) :
    keepPositions items (covered (cuts ++ [cut])) =
      keepPositions items (covered cuts) ++ slice items (max cursor cut.start) cut.stop := by
  obtain ⟨ordered, within, _⟩ := ofItems
  have reached : cursor ≤ cut.stop := by
    rcases furthest.2 with zero | ⟨other, member, same⟩
    · omega
    · rw [← same]
      exact (advancing other member).2
  have split (keep : Nat → Bool) := keepPositions_split items keep (max cursor cut.start) cut.stop
    (by omega) within
  have before : keepFrom 0 (items.take (max cursor cut.start)) (covered (cuts ++ [cut])) =
      keepFrom 0 (items.take (max cursor cut.start)) (covered cuts) := by
    apply keepFrom_congr
    intro position _ upper
    simp only [Nat.zero_add, List.length_take, lt_inf_iff] at upper
    exact covered_snoc_below furthest (fun other member => (advancing other member).1) upper.1
  have added : keepFrom (max cursor cut.start) (slice items (max cursor cut.start) cut.stop)
      (covered (cuts ++ [cut])) = slice items (max cursor cut.start) cut.stop := by
    apply keepFrom_all
    intro position lower upper
    simp only [length_slice] at upper
    exact (covered_iff _ _).mpr ⟨cut, by simp, by omega, by omega⟩
  have after : keepFrom cut.stop (items.drop cut.stop) (covered (cuts ++ [cut])) = [] := by
    apply keep_beyond
    intro other member
    rcases List.mem_append.mp member with earlier | last
    · exact (advancing other earlier).2
    · exact Nat.le_of_eq (congrArg Cut.stop (List.mem_singleton.mp last))
  have gap : keepFrom (max cursor cut.start) (slice items (max cursor cut.start) cut.stop)
      (covered cuts) = [] :=
    keep_beyond (fun other member => (furthest.1 other member).trans (Nat.le_max_left ..)) _
  have rest : keepFrom cut.stop (items.drop cut.stop) (covered cuts) = [] :=
    keep_beyond (fun other member => (advancing other member).2) _
  rw [split (covered (cuts ++ [cut])), split (covered cuts), before, added, after, gap, rest]
  simp

theorem stitch_fold {items : List α} (cuts : List (Cut α)) (ofItems : ∀ cut ∈ cuts, cut.Of items)
    (advancing : Advancing cuts) :
    (cuts.foldl stitchStep ([], 0)).1 = keepPositions items (covered cuts) ∧
      CursorAt cuts (cuts.foldl stitchStep ([], 0)).2 := by
  induction cuts using List.reverseRecOn with
  | nil =>
    have nothing : keepPositions items (covered ([] : List (Cut α))) = [] :=
      keepFrom_none items _ fun _ _ _ => rfl
    exact ⟨nothing.symm, by simp [CursorAt]⟩
  | append_singleton cuts cut ih =>
    have pairs := List.pairwise_append.mp advancing
    obtain ⟨stitched, furthest⟩ :=
      ih (fun other member => ofItems other (by simp [member])) pairs.1
    have last := ofItems cut (by simp)
    have grown := keep_covered_snoc furthest last
      fun other member => pairs.2.2 other member cut (by simp)
    rw [List.foldl_append]
    refine ⟨?_, furthest.snoc cut⟩
    rw [grown, ← stitched]
    simp only [List.foldl_cons, List.foldl_nil, stitchStep, last.2.2]
    split
    · rename_i ahead
      rw [Nat.max_eq_right ahead]
    · rename_i behind
      rw [drop_slice, Nat.max_eq_left (by omega), Nat.add_sub_cancel' (by omega)]

/-- Stitched cuts show each covered position of the list exactly once, in
increasing order. -/
theorem stitch_eq_covered {items : List α} (cuts : List (Cut α))
    (ofItems : ∀ cut ∈ cuts, cut.Of items) (advancing : Advancing cuts) :
    stitch cuts = keepPositions items (covered cuts) :=
  (stitch_fold cuts ofItems advancing).1

end Foundation
