import DocContext.Foundation.Segments

/-! Lists joined by a separator that repeats one element: where a part stands in the
whole, and that it is a segment of it. -/

namespace Foundation

variable {α : Type} {items sep : List α} {item : α}

/-- The separator has no other element, and has it. -/
structure Repeats (item : α) (sep : List α) : Prop where
  nonempty : sep ≠ []
  only : ∀ other ∈ sep, other = item

theorem exists_firstFrom (reached : start ≤ i) (occurs : OccursAt items sep i) :
    ∃ j, FirstFrom items sep start j ∧ j ≤ i := by
  classical
  let there : ∃ j, start ≤ j ∧ OccursAt items sep j := ⟨i, reached, occurs⟩
  have found := Nat.find_spec there
  refine ⟨Nat.find there, ⟨found.1, found.2, ?_⟩, Nat.find_min' there ⟨reached, occurs⟩⟩
  intro j later before occurs
  exact Nat.find_min there before ⟨later, occurs⟩

theorem Repeats.avoids (repeats : Repeats item sep) (occurs : OccursAt items sep i)
    (differs : items[k]? ≠ some item) (after : i ≤ k) : i + sep.length ≤ k := by
  by_contra covers
  have within : k - i < sep.length := by omega
  have here := occurs.getElem? within
  rw [Nat.add_sub_cancel' after, List.getElem?_eq_getElem within,
    repeats.only _ (List.getElem_mem within)] at here
  exact differs here

/-- An occurrence behind another element ends a segment, whatever occurs before it. -/
theorem SegmentStart.past (repeats : Repeats item sep) (differs : items[k]? ≠ some item)
    (occurs : OccursAt items sep (k + 1)) (starts : SegmentStart items sep start)
    (before : start ≤ k + 1) : SegmentStart items sep (k + 1 + sep.length) := by
  induction left : k + 1 - start using Nat.strong_induction_on generalizing start with
  | _ distance ih =>
    obtain ⟨i, first, bound⟩ := exists_firstFrom before occurs
    have positive := List.length_pos_iff.mpr repeats.nonempty
    have reached := first.reached
    rcases Nat.lt_or_eq_of_le bound with earlier | here
    · have short := repeats.avoids first.occurs differs (by omega)
      exact ih _ (by omega) (starts.next first) (by omega) rfl
    · rw [← here]
      exact starts.next first

/-! Parts that end in another element. -/

/-- The part ends in an element that the separator has not. -/
def EndsApart (item : α) (part : List α) : Prop := ∃ last, part.getLast? = some last ∧ last ≠ item

theorem EndsApart.nonempty {part : List α} (apart : EndsApart item part) : 0 < part.length := by
  obtain ⟨last, found, _⟩ := apart
  exact List.length_pos_iff.mpr fun empty => by rw [empty] at found; cases found

theorem EndsApart.getElem? {part : List α} (apart : EndsApart item part) (front back : List α) :
    (front ++ part ++ back)[front.length + (part.length - 1)]? ≠ some item := by
  have positive := apart.nonempty
  obtain ⟨last, found, differs⟩ := apart
  rw [List.append_assoc, List.getElem?_append_right (Nat.le_add_right _ _), Nat.add_sub_cancel_left,
    List.getElem?_append_left (by omega), ← List.getLast?_eq_getElem?, found]
  exact fun same => differs (Option.some.inj same)

theorem occursAt_length (front sep back : List α) :
    OccursAt (front ++ (sep ++ back)) sep front.length := by
  rw [OccursAt, List.drop_left]
  exact List.prefix_append ..

/-- The parts before one place, each with its separator, end a segment. -/
theorem segmentStart_joined (repeats : Repeats item sep) {front : List (List α)}
    (apart : ∀ part ∈ front, EndsApart item part) (back : List α) :
    SegmentStart (front.flatMap (· ++ sep) ++ back) sep (front.flatMap (· ++ sep)).length := by
  induction front using List.reverseRecOn generalizing back with
  | nil => exact .first
  | append_singleton front part ih =>
    have last := apart part (by simp)
    have positive := last.nonempty
    have earlier := ih (fun part member => apart part (by simp [member])) (part ++ (sep ++ back))
    have whole : (front ++ [part]).flatMap (· ++ sep) ++ back =
        front.flatMap (· ++ sep) ++ (part ++ (sep ++ back)) := by simp
    have size : ((front ++ [part]).flatMap (· ++ sep)).length =
        (front.flatMap (· ++ sep)).length + (part.length - 1) + 1 + sep.length := by
      simp
      omega
    rw [whole, size]
    have differs := last.getElem? (front.flatMap (· ++ sep)) (sep ++ back)
    have occurs := occursAt_length (front.flatMap (· ++ sep) ++ part) sep back
    rw [List.append_assoc] at differs occurs
    rw [List.length_append] at occurs
    refine earlier.past repeats differs ?_ (by omega)
    rw [show (front.flatMap (· ++ sep)).length + (part.length - 1) + 1 =
      (front.flatMap (· ++ sep)).length + part.length by omega]
    exact occurs

/-- Nothing occurs at the places of a part that has no occurrence of its own. -/
theorem not_occursAt_part (repeats : Repeats item sep) (front back : List α) {part : List α}
    (apart : EndsApart item part) (clear : ∀ i, ¬ OccursAt part sep i)
    (lower : front.length ≤ i) (upper : i < front.length + part.length) :
    ¬ OccursAt (front ++ part ++ back) sep i := by
  intro occurs
  have short := repeats.avoids occurs (apart.getElem? front back) (by omega)
  apply clear (i - front.length)
  have shape : (front ++ part ++ back).drop i = part.drop (i - front.length) ++ back := by
    rw [List.append_assoc, List.drop_append, List.drop_append,
      List.drop_eq_nil_of_le lower, List.nil_append,
      show i - front.length - part.length = 0 by omega, List.drop_zero]
  rw [OccursAt, shape] at occurs
  refine List.prefix_of_prefix_length_le occurs (List.prefix_append ..) ?_
  rw [List.length_drop]
  omega

/-- A part with no occurrence of the separator is a segment, with the separator behind it
where another part follows. -/
theorem segment_part (repeats : Repeats item sep) {front : List (List α)} {part : List α}
    (others : ∀ part ∈ front, EndsApart item part) (apart : EndsApart item part)
    (clear : ∀ i, ¬ OccursAt part sep i) (back : List (List α)) :
    ∃ stop, Segment (front.flatMap (· ++ sep) ++ part ++ back.flatMap (sep ++ ·)) sep
        (front.flatMap (· ++ sep)).length stop ∧
      (front.flatMap (· ++ sep)).length + part.length ≤ stop ∧
      stop ≤ (front.flatMap (· ++ sep)).length + part.length + sep.length := by
  have starts := segmentStart_joined repeats others (part ++ back.flatMap (sep ++ ·))
  rw [← List.append_assoc] at starts
  have none {i : Nat} (lower : (front.flatMap (· ++ sep)).length ≤ i)
      (upper : i < (front.flatMap (· ++ sep)).length + part.length) :
      ¬ OccursAt (front.flatMap (· ++ sep) ++ part ++ back.flatMap (sep ++ ·)) sep i :=
    not_occursAt_part repeats _ _ apart clear lower upper
  cases back with
  | nil =>
    refine ⟨_, ⟨starts, .inr ⟨?_, rfl⟩⟩, ?_⟩
    · intro i lower occurs
      have bound := occurs.bound repeats.nonempty
      have positive := List.length_pos_iff.mpr repeats.nonempty
      refine none lower ?_ occurs
      rw [List.flatMap_nil, List.append_nil, List.length_append] at bound
      omega
    · rw [List.flatMap_nil, List.append_nil, List.length_append]
      omega
  | cons next back =>
    refine ⟨_, ⟨starts, .inl ⟨_, ⟨Nat.le_add_right _ part.length, ?_, ?_⟩, rfl⟩⟩, ?_⟩
    · have occurs := occursAt_length (front.flatMap (· ++ sep) ++ part) sep
        (next ++ back.flatMap (sep ++ ·))
      rw [List.length_append] at occurs
      simpa using occurs
    · exact fun j lower upper => none lower upper
    · omega

/-! Where a part stands. -/

theorem intercalate_cons (sep part : List α) (back : List (List α)) :
    sep.intercalate (part :: back) = part ++ back.flatMap (sep ++ ·) := by
  induction back generalizing part with
  | nil => simp
  | cons next back ih =>
    rw [List.intercalate_cons_cons, ih, List.flatMap_cons, List.append_assoc, List.append_assoc]

theorem intercalate_split (sep : List α) (front : List (List α)) (part : List α)
    (back : List (List α)) :
    sep.intercalate (front ++ part :: back) =
      front.flatMap (· ++ sep) ++ part ++ back.flatMap (sep ++ ·) := by
  induction front with
  | nil => exact intercalate_cons sep part back
  | cons first front ih =>
    obtain ⟨head, rest, shape⟩ : ∃ head rest, front ++ part :: back = head :: rest :=
      List.exists_cons_of_ne_nil (by simp)
    rw [List.cons_append, shape, List.intercalate_cons_cons, ← shape, ih, List.flatMap_cons]
    simp only [List.append_assoc]

/-- A stretch that reaches around a part shows it. -/
theorem infix_slice {front part back : List α} (lower : start ≤ front.length)
    (upper : front.length + part.length ≤ stop) :
    part <:+: slice (front ++ part ++ back) start stop := by
  refine ⟨front.drop start, back.take (stop - (front.length + part.length)), ?_⟩
  have within : (front ++ part).take stop = front ++ part := by
    apply List.take_of_length_le
    rw [List.length_append]
    exact upper
  rw [slice, List.take_append, within, List.length_append, List.append_assoc, List.append_assoc,
    List.drop_append_of_le_length lower]

end Foundation
