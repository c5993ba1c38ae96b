import DocContext.Chunking.Specification
import DocContext.Foundation.Segments

/-! Windows end on the most natural boundary that fits: with the default separators
no paragraph and no word that fits a chunk is cut. -/

namespace DocContext

open Foundation

namespace Chunking

/-! Searching. -/

theorem findFrom_some (found : findFrom sep text position = some idx) :
    ∃ k, idx = position + k ∧ sep <+: text.drop k ∧ ∀ j, j < k → ¬ sep <+: text.drop j := by
  induction text generalizing position with
  | nil =>
    simp only [findFrom, List.isEmpty_iff] at found
    split at found
    · rename_i empty
      cases found
      exact ⟨0, rfl, by simp [empty], fun j before => absurd before (Nat.not_lt_zero j)⟩
    · cases found
  | cons char rest ih =>
    simp only [findFrom] at found
    split at found
    · rename_i here
      cases found
      exact ⟨0, rfl, List.isPrefixOf_iff_prefix.mp here, fun j before => absurd before (Nat.not_lt_zero j)⟩
    · rename_i missing
      obtain ⟨k, same, occurs, leftmost⟩ := ih found
      refine ⟨k + 1, by omega, occurs, ?_⟩
      intro j before
      cases j with
      | zero => exact fun here => missing (List.isPrefixOf_iff_prefix.mpr here)
      | succ j => exact leftmost j (by omega)

theorem findFrom_none (missing : findFrom sep text position = none) (j : Nat) :
    ¬ sep <+: text.drop j := by
  induction text generalizing position j with
  | nil =>
    simp only [findFrom, List.isEmpty_iff] at missing
    split at missing
    · cases missing
    · rename_i nonempty
      simpa using nonempty
  | cons char rest ih =>
    simp only [findFrom] at missing
    split at missing
    · cases missing
    · rename_i absent
      cases j with
      | zero => exact fun here => absent (List.isPrefixOf_iff_prefix.mpr here)
      | succ j => exact ih missing j

theorem findText_some (found : findText text sep start = some idx) :
    FirstFrom text sep start idx := by
  obtain ⟨k, same, occurs, leftmost⟩ := findFrom_some found
  rw [List.drop_drop, ← same] at occurs
  constructor
  case reached => omega
  case occurs => exact occurs
  case leftmost =>
    intro j above below
    have absent := leftmost (j - start) (by omega)
    rwa [List.drop_drop, Nat.add_sub_cancel' above] at absent

theorem findText_none (missing : findText text sep start = none) (i : Nat) (above : start ≤ i) :
    ¬ OccursAt text sep i := by
  have absent := findFrom_none missing (i - start)
  rwa [List.drop_drop, Nat.add_sub_cancel' above] at absent

theorem findText_first (first : FirstFrom text sep start idx) :
    findText text sep start = some idx := by
  cases found : findText text sep start with
  | none => exact absurd first.occurs (findText_none found idx first.reached)
  | some idx' => rw [(findText_some found).unique first]

theorem occursIn_iff : occursIn sep text = true ↔ ∃ i, OccursAt text sep i := by
  unfold occursIn
  cases found : findText text sep 0 with
  | none =>
    simp only [Option.isSome_none, Bool.false_eq_true, false_iff, not_exists]
    exact fun i => findText_none found i (Nat.zero_le i)
  | some idx =>
    simp only [Option.isSome_some, true_iff]
    exact ⟨idx, (findText_some found).occurs⟩

/-! Paragraphs stay whole. -/

/-- Every start of a segment is where the loop of a split comes to. -/
theorem segmentStart_splits (whole : Splits text sep 0 pieces)
    (starts : SegmentStart text sep start) :
    ∃ later, Splits text sep start later ∧ ∀ piece ∈ later, piece ∈ pieces := by
  induction starts with
  | first => exact ⟨pieces, whole, fun _ member => member⟩
  | next _ first ih =>
    obtain ⟨later, splits, among⟩ := ih
    have found := findText_first first
    cases splits with
    | last missing => cases missing.symm.trans found
    | cut found' rest =>
      cases found'.symm.trans found
      exact ⟨_, rest, fun piece member => among piece (List.mem_cons_of_mem _ member)⟩

theorem segment_mem (whole : Splits text sep 0 pieces) (segment : Segment text sep start stop) :
    (start, slice text start stop) ∈ pieces := by
  obtain ⟨starts, ending⟩ := segment
  obtain ⟨later, splits, among⟩ := segmentStart_splits whole starts
  apply among
  rcases ending with ⟨idx, first, rfl⟩ | ⟨absent, rfl⟩
  · have found := findText_first first
    cases splits with
    | last missing => cases missing.symm.trans found
    | cut found' rest =>
      cases found'.symm.trans found
      exact List.mem_cons_self ..
  · cases splits with
    | last =>
      rw [slice, List.take_length]
      exact List.mem_singleton_self _
    | cut found => exact absurd (findText_some found).occurs (absent _ (findText_some found).reached)

/-- What a round of the assembly does: skip an empty piece, add the piece to the open
window, expand it, or open a window with it. -/
theorem assembleStep_cases (size : Nat) (expand : Nat → Nat → List Span) (state : Assembly)
    (piece : Nat × Text) :
    (piece.2 = [] ∧ assembleStep size expand state piece = state) ∨
      (∃ start, state.curStart = some start ∧ state.curLen + piece.2.length ≤ size ∧
        assembleStep size expand state piece =
          ⟨state.windows, some start, piece.1 + piece.2.length,
            state.curLen + piece.2.length⟩) ∨
      ((∀ start, state.curStart = some start → size < state.curLen + piece.2.length) ∧
        ((size < piece.2.length ∧ assembleStep size expand state piece =
            ⟨state.close ++ expand piece.1 (piece.1 + piece.2.length), none, 0, 0⟩) ∨
          (piece.2.length ≤ size ∧ assembleStep size expand state piece =
            ⟨state.close, some piece.1, piece.1 + piece.2.length, piece.2.length⟩))) := by
  have started (windows : List Span) :
      (size < piece.2.length ∧ startWindow size expand windows piece.1 piece.2.length =
          ⟨windows ++ expand piece.1 (piece.1 + piece.2.length), none, 0, 0⟩) ∨
        (piece.2.length ≤ size ∧ startWindow size expand windows piece.1 piece.2.length =
          ⟨windows, some piece.1, piece.1 + piece.2.length, piece.2.length⟩) := by
    unfold startWindow
    split
    · rename_i oversized
      exact .inl ⟨oversized, rfl⟩
    · rename_i small
      exact .inr ⟨Nat.not_lt.mp small, rfl⟩
  unfold assembleStep
  split
  · rename_i empty
    exact .inl ⟨List.isEmpty_iff.mp empty, rfl⟩
  · right
    cases opened : state.curStart with
    | none =>
      right
      refine ⟨fun _ clash => (nomatch clash), ?_⟩
      have closed : state.close = state.windows := by rw [Assembly.close, opened]
      rw [closed]
      exact started state.windows
    | some start =>
      dsimp only
      split
      · rename_i room
        exact .inl ⟨start, rfl, room, rfl⟩
      · rename_i full
        right
        refine ⟨fun _ _ => Nat.not_le.mp full, ?_⟩
        have closed : state.close = state.windows ++ [(start, state.curEnd)] := by
          rw [Assembly.close, opened]
        rw [closed]
        exact started _

/-- The piece lies in one of the windows so far. -/
def Held (state : Assembly) (piece : Nat × Text) : Prop :=
  ∃ window ∈ state.close, window.1 ≤ piece.1 ∧ piece.1 + piece.2.length ≤ window.2

theorem Held.step {expand : Nat → Nat → List Span} (held : Held state target)
    (assembled : Assembled size piece.1 state) :
    Held (assembleStep size expand state piece) target := by
  rcases assembleStep_cases size expand state piece with
    ⟨_, same⟩ | ⟨start, opened, _, same⟩ | ⟨_, ⟨_, same⟩ | ⟨_, same⟩⟩
  · rw [same]
    exact held
  · obtain ⟨window, member, lower, upper⟩ := held
    have reached : state.curEnd = piece.1 := by
      obtain ⟨_, shape⟩ := assembled
      rw [opened] at shape
      exact shape.2.2.1
    rw [same]
    rw [Assembly.close, opened] at member
    rcases List.mem_append.mp member with closed | last
    · exact ⟨window, List.mem_append_left _ closed, lower, upper⟩
    · rw [List.mem_singleton.mp last] at lower upper
      refine ⟨(start, piece.1 + piece.2.length), List.mem_append_right _ (List.mem_singleton_self _),
        lower, ?_⟩
      dsimp only at upper ⊢
      omega
  · obtain ⟨window, member, inside⟩ := held
    rw [same]
    exact ⟨window, List.mem_append_left _ member, inside⟩
  · obtain ⟨window, member, inside⟩ := held
    rw [same]
    exact ⟨window, List.mem_append_left _ member, inside⟩

theorem held_step {expand : Nat → Nat → List Span} (assembled : Assembled size piece.1 state)
    (nonempty : piece.2 ≠ []) (small : piece.2.length ≤ size) :
    Held (assembleStep size expand state piece) piece := by
  rcases assembleStep_cases size expand state piece with
    ⟨empty, _⟩ | ⟨start, opened, _, same⟩ | ⟨_, ⟨oversized, _⟩ | ⟨_, same⟩⟩
  · exact absurd empty nonempty
  · have before : start < piece.1 := by
      obtain ⟨_, shape⟩ := assembled
      rw [opened] at shape
      exact shape.2.1
    rw [same]
    exact ⟨_, List.mem_append_right _ (List.mem_singleton_self _), Nat.le_of_lt before, Nat.le_refl _⟩
  · omega
  · rw [same]
    exact ⟨_, List.mem_append_right _ (List.mem_singleton_self _), Nat.le_refl _, Nat.le_refl _⟩

section Assembling

variable {size : Nat} {text : Text} {expand : Nat → Nat → List Span}

/-- The windows an oversized piece expands to tile it and fit. -/
def Expands (size : Nat) (text : Text) (expand : Nat → Nat → List Span)
    (pieces : List (Nat × Text)) : Prop :=
  ∀ piece ∈ pieces, size < piece.2.length →
    piece.2 = slice text piece.1 (piece.1 + piece.2.length) →
      Tiles piece.1 (piece.1 + piece.2.length) (expand piece.1 (piece.1 + piece.2.length)) ∧
        Fits size (expand piece.1 (piece.1 + piece.2.length))

theorem held_fold {pieces : List (Nat × Text)} (split : Pieces text lo pieces)
    (assembled : Assembled size lo state) (expands : Expands size text expand pieces)
    (nonempty : target.2 ≠ []) (small : target.2.length ≤ size)
    (held : Held state target ∨ target ∈ pieces) :
    Held (pieces.foldl (assembleStep size expand) state) target := by
  induction pieces generalizing lo state with
  | nil => exact held.resolve_right List.not_mem_nil
  | cons piece rest ih =>
    obtain ⟨start, content, remaining⟩ := split
    subst start
    have next := assembleStep_assembled assembled
      fun oversized => expands piece (List.mem_cons_self ..) oversized content
    refine ih remaining next (fun other member => expands other (List.mem_cons_of_mem _ member)) ?_
    rcases held with before | member
    · exact .inl (before.step assembled)
    · rcases List.mem_cons.mp member with same | later
      · subst same
        exact .inl (held_step assembled nonempty small)
      · exact .inr later

/-- A piece that fits is not cut. -/
theorem assemble_holds {pieces : List (Nat × Text)} (split : Pieces text 0 pieces)
    (expands : Expands size text expand pieces) (member : piece ∈ pieces) (nonempty : piece.2 ≠ [])
    (small : piece.2.length ≤ size) :
    ∃ window ∈ assemble size expand pieces,
      window.1 ≤ piece.1 ∧ piece.1 + piece.2.length ≤ window.2 :=
  held_fold split ⟨by simp [Fits], rfl⟩ expands nonempty small (.inr member)

/-- A closed window is one of an expanded piece, or it ends with a piece and the
next one has no room in it. -/
def Arises (size : Nat) (expand : Nat → Nat → List Span) (pieces : List (Nat × Text))
    (window : Span) : Prop :=
  (∃ piece ∈ pieces, size < piece.2.length ∧
      window ∈ expand piece.1 (piece.1 + piece.2.length)) ∨
    ((∃ piece ∈ pieces, window.2 = piece.1 + piece.2.length) ∧
      ∃ next ∈ pieces, size < window.2 - window.1 + next.2.length)

/-- The loop invariant about where windows end. -/
def Arisen (size : Nat) (expand : Nat → Nat → List Span) (pieces : List (Nat × Text))
    (state : Assembly) : Prop :=
  (∀ window ∈ state.windows, Arises size expand pieces window) ∧
    ∀ start, state.curStart = some start → ∃ piece ∈ pieces, state.curEnd = piece.1 + piece.2.length

theorem Arisen.step {pieces : List (Nat × Text)} (arisen : Arisen size expand pieces state)
    (assembled : Assembled size piece.1 state) (member : piece ∈ pieces) :
    Arisen size expand pieces (assembleStep size expand state piece) := by
  obtain ⟨windows, ending⟩ := arisen
  have closing (full : ∀ start, state.curStart = some start →
      size < state.curLen + piece.2.length) :
      ∀ window ∈ state.close, Arises size expand pieces window := by
    intro window closed
    obtain ⟨_, shape⟩ := assembled
    unfold Assembly.close at closed
    split at closed
    · exact windows window closed
    · rename_i start opened
      rw [opened] at shape
      rcases List.mem_append.mp closed with earlier | last
      · exact windows window earlier
      · have room := full start opened
        rw [List.mem_singleton.mp last]
        refine .inr ⟨ending start opened, piece, member, ?_⟩
        dsimp only
        omega
  rcases assembleStep_cases size expand state piece with
    ⟨_, same⟩ | ⟨start, opened, _, same⟩ | ⟨full, ⟨oversized, same⟩ | ⟨_, same⟩⟩
  · rw [same]
    exact ⟨windows, ending⟩
  · rw [same]
    exact ⟨windows, fun _ _ => ⟨piece, member, rfl⟩⟩
  · rw [same]
    refine ⟨?_, fun _ clash => nomatch clash⟩
    intro window made
    rcases List.mem_append.mp made with closed | expanded
    · exact closing full window closed
    · exact .inl ⟨piece, member, oversized, expanded⟩
  · rw [same]
    exact ⟨closing full, fun _ _ => ⟨piece, member, rfl⟩⟩

theorem arisen_fold {pieces among : List (Nat × Text)} (split : Pieces text lo pieces)
    (assembled : Assembled size lo state) (expands : Expands size text expand pieces)
    (subset : ∀ piece ∈ pieces, piece ∈ among) (arisen : Arisen size expand among state) :
    Arisen size expand among (pieces.foldl (assembleStep size expand) state) := by
  induction pieces generalizing lo state with
  | nil => exact arisen
  | cons piece rest ih =>
    obtain ⟨start, content, remaining⟩ := split
    subst start
    have next := assembleStep_assembled assembled
      fun oversized => expands piece (List.mem_cons_self ..) oversized content
    exact ih remaining next (fun other member => expands other (List.mem_cons_of_mem _ member))
      (fun other member => subset other (List.mem_cons_of_mem _ member))
      (arisen.step assembled (subset piece (List.mem_cons_self ..)))

theorem arisen_initial (size : Nat) (expand : Nat → Nat → List Span)
    (pieces : List (Nat × Text)) : Arisen size expand pieces ⟨[], none, 0, 0⟩ := by
  constructor
  · intro window member
    cases member
  · intro start clash
    cases clash

/-- Where the windows of an assembly end. -/
theorem assemble_arises {pieces : List (Nat × Text)} (split : Pieces text 0 pieces)
    (expands : Expands size text expand pieces) :
    ∀ window ∈ assemble size expand pieces,
      window.2 = text.length ∨ Arises size expand pieces window := by
  have initial : Assembled size 0 ⟨[], none, 0, 0⟩ := ⟨by simp [Fits], rfl⟩
  obtain ⟨windows, _⟩ := arisen_fold split initial expands (fun _ member => member)
    (arisen_initial size expand pieces)
  obtain ⟨_, shape⟩ := assemble_fold pieces split initial expands
  intro window member
  unfold assemble Assembly.close at member
  split at member
  · exact .inr (windows window member)
  · rename_i start opened
    rw [opened] at shape
    rcases List.mem_append.mp member with earlier | last
    · exact .inr (windows window earlier)
    · rw [List.mem_singleton.mp last]
      exact .inl shape.2.2.1

end Assembling

theorem buildWindows_expands (positive : 0 < size) (enough : Enough (depth + 1) separators)
    (text : Text) :
    Expands size text
      (expandOversized (buildWindows size depth) separators text (pickSeparator separators text))
      (splitWithPositions text (pickSeparator separators text)) := by
  intro piece member oversized content
  by_cases finest : pickSeparator separators text = []
  · rw [finest] at member
    have single := splitWithPositions_nil_length member
    omega
  · have deeper := finerSeparators_enough enough (pickSeparator_mem finest) finest
    exact expandOversized_tiles (buildWindows_tiles positive deeper _) content

/-- A segment between occurrences of the coarsest separator present is not cut when it fits. -/
theorem buildWindows_holds (positive : 0 < size) (enough : Enough (depth + 1) separators)
    (picked : pickSeparator separators text = sep) (nonempty : sep ≠ [])
    (segment : Segment text sep start stop) (filled : start < stop) (within : stop ≤ text.length)
    (small : stop - start ≤ size) :
    ∃ window ∈ buildWindows size (depth + 1) separators text,
      window.1 ≤ start ∧ stop ≤ window.2 := by
  subst picked
  have split := splitWithPositions_splits text (pickSeparator separators text)
  rw [SplitsWith, if_neg nonempty] at split
  have member := segment_mem split segment
  have len : (slice text start stop).length = stop - start := by
    rw [length_slice, Nat.min_eq_left within]
  obtain ⟨window, present, lower, upper⟩ :=
    assemble_holds (splitWithPositions_pieces text _) (buildWindows_expands positive enough text)
      member (List.length_pos_iff.mp (by dsimp only; omega)) (by dsimp only; omega)
  dsimp only at lower upper
  exact ⟨window, present, lower, by omega⟩

/-! Separators and the breaks between words. -/

/-- The characters that end a word. -/
def Break (char : Char) : Prop := char = ' ' ∨ char = '\n'

/-- The separator ends a word. -/
def Breaking (sep : Text) : Prop := ∃ char, sep.getLast? = some char ∧ Break char

/-- The character stands at the end of the text, if anywhere. -/
def OnlyLast (char : Char) (text : Text) : Prop :=
  ∀ i, i + 1 < text.length → text[i]? ≠ some char

theorem OnlyLast.slice (only : OnlyLast char text) (start stop : Nat) :
    OnlyLast char (Foundation.slice text start stop) := by
  intro i before found
  rw [length_slice] at before
  rw [getElem?_slice] at found
  split at found
  · exact only (start + i) (by omega) found
  · cases found

theorem onlyLast_of_absent (absent : occursIn [char] text = false) : OnlyLast char text := by
  intro i _ found
  have occurs := occursIn_iff.mpr ⟨i, occursAt_singleton.mpr found⟩
  rw [absent] at occurs
  cases occurs

/-- Every end of a piece is a boundary when its separator ends a word. -/
theorem Splits.boundaries (splits : Splits text sep start pieces) (breaking : Breaking sep)
    (begins : Boundary Break text start) (within : start ≤ text.length) :
    ∀ piece ∈ pieces, Boundary Break text piece.1 ∧
      Boundary Break text (piece.1 + piece.2.length) := by
  induction splits with
  | last missing =>
    intro piece member
    rw [List.mem_singleton.mp member]
    refine ⟨begins, .inr (.inl ?_)⟩
    rw [List.length_drop]
    exact Nat.add_sub_cancel' within
  | @cut start idx rest found _ ih =>
    obtain ⟨lower, upper⟩ := findText_bounds within found
    have boundary : Boundary Break text (idx + sep.length) := by
      obtain ⟨char, last, brk⟩ := breaking
      have positive : 0 < sep.length := List.length_pos_iff.mpr (List.ne_nil_of_mem
        (List.mem_of_getLast? last))
      refine .inr (.inr ⟨idx + (sep.length - 1), char, by omega, ?_, brk⟩)
      rw [(findText_some found).occurs.getElem? (by omega), ← List.getLast?_eq_getElem?]
      exact last
    intro piece member
    rcases List.mem_cons.mp member with head | later
    · rw [head]
      refine ⟨begins, ?_⟩
      have reach : start + (slice text start (idx + sep.length)).length = idx + sep.length := by
        rw [length_slice]
        omega
      rw [reach]
      exact boundary
    · exact ih boundary upper piece later

/-- Split on a character, a piece has it only at its end. -/
theorem Splits.onlyLast (splits : Splits text [char] start pieces) :
    ∀ piece ∈ pieces, OnlyLast char piece.2 := by
  induction splits with
  | last missing =>
    intro piece member i _ found
    rw [List.mem_singleton.mp member] at found
    dsimp only at found
    rw [List.getElem?_drop] at found
    exact findText_none missing _ (Nat.le_add_right _ i) (occursAt_singleton.mpr found)
  | @cut start idx rest found _ ih =>
    intro piece member
    rcases List.mem_cons.mp member with head | later
    · intro i before present
      have first := findText_some found
      rw [head] at before present
      dsimp only [List.length_singleton] at before present
      rw [length_slice] at before
      rw [getElem?_slice, if_pos (by omega)] at present
      exact first.leftmost _ (Nat.le_add_right _ i) (by omega) (occursAt_singleton.mpr present)
    · exact ih piece later

/-! Which separators a sub-chunker has left. -/

/-- The separators listed before the empty one. -/
def ahead (separators : List Text) : List Text := separators.takeWhile fun sep => !sep.isEmpty

theorem ahead_cons (nonempty : sep ≠ []) : ahead (sep :: rest) = sep :: ahead rest := by
  have kept : (!sep.isEmpty) = true := by simpa using nonempty
  rw [ahead, List.takeWhile_cons, if_pos kept]
  rfl

theorem ahead_nil_cons : ahead ([] :: rest) = [] := rfl

theorem pickSeparator_cons : pickSeparator (sep :: rest) text =
    if sep.isEmpty || occursIn sep text then sep else pickSeparator rest text := by
  unfold pickSeparator
  rw [List.find?_cons]
  split <;> simp_all

theorem occursIn_pickSeparator (nonempty : pickSeparator separators text ≠ []) :
    occursIn (pickSeparator separators text) text = true := by
  induction separators with
  | nil => exact absurd rfl nonempty
  | cons sep rest ih =>
    rw [pickSeparator_cons] at nonempty ⊢
    split
    · rename_i picked
      rw [if_pos picked] at nonempty
      simpa [List.isEmpty_iff, nonempty] using picked
    · rename_i passed
      rw [if_neg passed] at nonempty
      exact ih nonempty

/-- The empty separator is picked only when none before it occurs. -/
theorem absent_of_pick_nil (finest : pickSeparator separators text = [])
    (member : sep ∈ ahead separators) : occursIn sep text = false := by
  induction separators with
  | nil => cases member
  | cons head rest ih =>
    by_cases empty : head = []
    · rw [empty, ahead_nil_cons] at member
      cases member
    · rw [pickSeparator_cons] at finest
      split at finest
      · exact absurd finest empty
      · rename_i passed
        rw [ahead_cons empty] at member
        rcases List.mem_cons.mp member with same | later
        · rw [same]
          simp only [Bool.or_eq_true, not_or, Bool.not_eq_true] at passed
          exact passed.2
        · exact ih finest later

theorem finerSeparators_cons (different : head ≠ sep) :
    finerSeparators (head :: rest) sep = finerSeparators rest sep := by
  have other : (head == sep) = false := by simpa using different
  unfold finerSeparators
  rw [List.idxOf?_cons, other]
  cases rest.idxOf? sep <;> rfl

theorem finerSeparators_head : finerSeparators (sep :: rest) sep =
    if rest.isEmpty then [[]] else rest := by
  unfold finerSeparators
  rw [List.idxOf?_cons, beq_self_eq_true]
  rfl

theorem finerSeparators_mem (member : sep ∈ finerSeparators separators parent) :
    sep ∈ separators ∨ sep = [] := by
  unfold finerSeparators at member
  cases found : separators.idxOf? parent with
  | none =>
    rw [found] at member
    exact .inr (List.mem_singleton.mp member)
  | some idx =>
    rw [found] at member
    dsimp only at member
    split at member
    · exact .inr (List.mem_singleton.mp member)
    · exact .inl (List.mem_of_mem_drop member)

/-- A separator is still listed for the pieces, or they were cut on it, or the text
does not have it. -/
theorem finerSeparators_keeps (member : sep ∈ ahead separators)
    (picked : pickSeparator separators text ≠ []) :
    sep ∈ ahead (finerSeparators separators (pickSeparator separators text)) ∨
      pickSeparator separators text = sep ∨ occursIn sep text = false := by
  induction separators with
  | nil => cases member
  | cons head rest ih =>
    by_cases empty : head = []
    · rw [empty, ahead_nil_cons] at member
      cases member
    · rw [ahead_cons empty] at member
      by_cases occurs : occursIn head text = true
      · have here : pickSeparator (head :: rest) text = head := by
          rw [pickSeparator_cons, occurs, Bool.or_true, if_pos rfl]
        rw [here, finerSeparators_head]
        rcases List.mem_cons.mp member with same | later
        · exact .inr (.inl same.symm)
        · have filled : rest.isEmpty ≠ true := by
            intro none
            rw [List.isEmpty_iff.mp none] at later
            cases later
          rw [if_neg filled]
          exact .inl later
      · have passed : ¬ (head.isEmpty || occursIn head text) = true := by
          simpa [List.isEmpty_iff, empty] using occurs
        rw [pickSeparator_cons, if_neg passed] at picked ⊢
        rcases List.mem_cons.mp member with same | later
        · rw [same]
          exact .inr (.inr (by simpa using occurs))
        · have different : head ≠ pickSeparator rest text := by
            intro same
            rw [same] at occurs
            exact occurs (occursIn_pickSeparator picked)
          rw [finerSeparators_cons different]
          exact ih later picked

/-! Words stay whole. -/

/-- The invariant of the recursion: separators end words, and a character that ends
words is still to be split on or stands at the end of the text alone. -/
structure Level (separators : List Text) (text : Text) : Prop where
  breaking : ∀ sep ∈ separators, sep ≠ [] → Breaking sep
  breaks : ∀ char, Break char → [char] ∈ ahead separators ∨ OnlyLast char text

theorem Pieces.content {pieces : List (Nat × Text)} (split : Pieces text lo pieces) :
    ∀ piece ∈ pieces, piece.2 = slice text piece.1 (piece.1 + piece.2.length) := by
  induction pieces generalizing lo with
  | nil => exact fun _ member => nomatch member
  | cons head rest ih =>
    obtain ⟨start, content, remaining⟩ := split
    subst start
    intro piece member
    rcases List.mem_cons.mp member with same | later
    · rw [same]
      exact content
    · exact ih remaining piece later

theorem Level.finer (level : Level separators text)
    (picked : pickSeparator separators text ≠ [])
    (member : piece ∈ splitWithPositions text (pickSeparator separators text)) :
    Level (finerSeparators separators (pickSeparator separators text)) piece.2 := by
  have content := Pieces.content (splitWithPositions_pieces text _) piece member
  constructor
  · intro sep among nonempty
    rcases finerSeparators_mem among with listed | empty
    · exact level.breaking sep listed nonempty
    · exact absurd empty nonempty
  · intro char brk
    have sliced (only : OnlyLast char text) : OnlyLast char piece.2 := by
      rw [content]
      exact only.slice _ _
    rcases level.breaks char brk with listed | only
    · rcases finerSeparators_keeps listed picked with kept | same | absent
      · exact .inl kept
      · have splits := splitWithPositions_splits text (pickSeparator separators text)
        rw [SplitsWith, if_neg picked, same] at splits
        rw [same] at member
        exact .inr (splits.onlyLast piece member)
      · exact .inr (sliced (onlyLast_of_absent absent))
    · exact .inr (sliced only)

/-- The position cuts no word that fits. -/
def Spares (size : Nat) (text : Text) (i : Nat) : Prop :=
  ∀ start stop, Run Break text start stop → stop - start ≤ size → ¬ (start < i ∧ i < stop)

theorem spares_of_boundary (boundary : Boundary Break text i) : Spares size text i :=
  fun _ _ run _ => run.uncut boundary

/-- A position inside a piece cuts a word of the text only if it cuts one of the piece. -/
theorem Spares.shift (spares : Spares size (slice text first last) i)
    (lo : Boundary Break text first) (hi : Boundary Break text last)
    (bound : last ≤ text.length) (inside : first + i ≤ last) : Spares size text (first + i) := by
  intro start stop run small meets
  by_cases edge : i = 0 ∨ first + i = last
  · rcases edge with zero | reached
    · rw [zero] at meets
      exact run.uncut lo meets
    · rw [reached] at meets
      exact run.uncut hi meets
  · obtain ⟨lower, upper, part⟩ := run.slice lo hi bound (by omega) meets
    exact spares _ _ part (by omega) (by omega)

/-- Where words are separated at the end alone, a window as long as a chunk cuts
only words longer than one. -/
theorem spares_of_full (level : ∀ char, Break char → OnlyLast char text) (full : size ≤ i) :
    Spares size text i := by
  intro start stop run small meets
  have within := run.within
  -- the only word starts with the text
  have zero : start = 0 := by
    cases start with
    | zero => rfl
    | succ k =>
      have inside : k < text.length := by omega
      have found := List.getElem?_eq_getElem inside
      have brk := run.before k _ rfl found
      exact absurd found (level _ brk k (by omega))
  omega

theorem buildWindows_spares (positive : 0 < size) (enough : Enough depth separators)
    (level : Level separators text) :
    ∀ window ∈ buildWindows size depth separators text, Spares size text window.2 := by
  induction depth generalizing separators text with
  | zero => exact fun _ member => nomatch member
  | succ depth ih =>
    intro window member
    have split := splitWithPositions_pieces text (pickSeparator separators text)
    have source := assemble_arises split (buildWindows_expands positive enough text) window member
    by_cases finest : pickSeparator separators text = []
    · have alone (char : Char) (brk : Break char) : OnlyLast char text := by
        rcases level.breaks char brk with listed | only
        · exact onlyLast_of_absent (absent_of_pick_nil finest listed)
        · exact only
      rw [finest] at source
      rcases source with whole | ⟨piece, among, oversized, _⟩ | ⟨_, next, among, full⟩
      · exact spares_of_boundary (.inr (.inl whole))
      · have single := splitWithPositions_nil_length among
        omega
      · have single := splitWithPositions_nil_length among
        exact spares_of_full alone (by omega)
    · have splits := splitWithPositions_splits text (pickSeparator separators text)
      rw [SplitsWith, if_neg finest] at splits
      have boundaries := splits.boundaries
        (level.breaking _ (pickSeparator_mem finest) finest) (.inl rfl) (Nat.zero_le _)
      rcases source with whole | ⟨piece, among, oversized, expanded⟩ | ⟨⟨piece, among, reach⟩, _⟩
      · exact spares_of_boundary (.inr (.inl whole))
      · -- a window of the sub-chunker of an oversized piece
        obtain ⟨lo, hi⟩ := boundaries piece among
        have content := Pieces.content split piece among
        have finer := level.finer finest among
        have deeper := finerSeparators_enough enough (pickSeparator_mem finest) finest
        have tiles := (buildWindows_tiles positive deeper
          (slice text piece.1 (piece.1 + piece.2.length))).1
        rw [expandOversized_eq _ _ _ tiles] at expanded
        obtain ⟨inner, made, same⟩ := List.mem_map.mp expanded
        have bounds := tiles.bounds made
        have len := congrArg List.length content
        rw [length_slice] at len bounds
        rw [content] at finer
        rw [← same]
        exact (ih deeper finer inner made).shift lo hi (by omega) (by omega)
      · rw [reach]
        exact spares_of_boundary (boundaries piece among).2

theorem level_default (text : Text) : Level defaultSeparators text := by
  constructor
  · intro sep listed nonempty
    simp only [defaultSeparators, List.mem_cons, List.not_mem_nil, or_false] at listed
    rcases listed with same | same | same | same | same
    · exact ⟨'\n', by rw [same]; rfl, .inr rfl⟩
    · exact ⟨'\n', by rw [same]; rfl, .inr rfl⟩
    · exact ⟨' ', by rw [same]; rfl, .inl rfl⟩
    · exact ⟨' ', by rw [same]; rfl, .inl rfl⟩
    · exact absurd same nonempty
  · intro char brk
    left
    rcases brk with same | same
    · rw [same]
      decide
    · rw [same]
      decide

end Chunking

open Chunking

namespace RecursiveCharacterChunker

/-- What stands between two paragraphs. -/
def blankLine : Text := ['\n', '\n']

theorem pickSeparator_blankLine (occurs : ∃ i, OccursAt text blankLine i) :
    pickSeparator defaultSeparators text = blankLine := by
  have found : occursIn ['\n', '\n'] text = true := occursIn_iff.mpr occurs
  rw [defaultSeparators, pickSeparator_cons, found, Bool.or_true, if_pos rfl]
  rfl

variable (chunker : RecursiveCharacterChunker) (text : Text)

/-- A paragraph that fits lies in the range of one chunk. -/
theorem paragraph_in_chunk (defaults : chunker.separators = defaultSeparators)
    (occurs : ∃ i, OccursAt text blankLine i) {start stop : Nat}
    (paragraph : Segment text blankLine start stop) (small : stop - start ≤ chunker.chunkSize) :
    ∃ chunk ∈ chunker.chunk text, chunk.charStart ≤ start ∧ stop ≤ chunk.charEnd := by
  obtain ⟨ordered, within⟩ := paragraph.bounds (by decide)
  rcases Nat.lt_or_eq_of_le ordered with filled | empty
  · have picked := pickSeparator_blankLine occurs
    rw [← defaults] at picked
    obtain ⟨window, member, lower, upper⟩ := buildWindows_holds chunker.size_pos chunker.enough picked
      (by decide) paragraph filled within small
    obtain ⟨chunk, present, first, last⟩ := chunker.window_chunk text member
    exact ⟨chunk, present, by omega, by omega⟩
  · -- nothing behind the last blank line: the last position of the text is in a chunk
    obtain ⟨i, here⟩ := occurs
    have positive := here.bound (by decide)
    have blank : blankLine.length = 2 := rfl
    have inside : start - 1 < text.length := by omega
    obtain ⟨chunk, present, lower, upper⟩ := chunker.chunk_covers text inside
    refine ⟨chunk, present, ?_, ?_⟩ <;> omega

/-- No window end cuts a word that fits. -/
theorem word_uncut (defaults : chunker.separators = defaultSeparators) {chunk : Chunk}
    (member : chunk ∈ chunker.chunk text) {start stop : Nat} (word : Run Break text start stop)
    (small : stop - start ≤ chunker.chunkSize) :
    ¬ (start < chunk.charEnd ∧ chunk.charEnd < stop) := by
  obtain ⟨window, present, _, reach⟩ := chunker.chunk_of_window text member
  have level : Level chunker.separators text := by
    rw [defaults]
    exact level_default text
  rw [reach]
  exact buildWindows_spares chunker.size_pos chunker.enough level window present start stop word small

/-- With the default separators no paragraph and no word that fits is cut. -/
theorem natural_boundaries (defaults : chunker.separators = defaultSeparators) :
    ((∃ i, OccursAt text blankLine i) →
      ∀ start stop, Segment text blankLine start stop → stop - start ≤ chunker.chunkSize →
        ∃ chunk ∈ chunker.chunk text, chunk.charStart ≤ start ∧ stop ≤ chunk.charEnd) ∧
      ∀ chunk ∈ chunker.chunk text, ∀ start stop,
        Run Break text start stop → stop - start ≤ chunker.chunkSize →
          ¬ (start < chunk.charEnd ∧ chunk.charEnd < stop) :=
  ⟨fun occurs _ _ paragraph small => chunker.paragraph_in_chunk text defaults occurs paragraph small,
    fun _ member _ _ word small => chunker.word_uncut text defaults member word small⟩

/-- A title in a paragraph of its own, and the word behind it. -/
theorem natural_boundaries_title :
    (∃ chunk ∈ Sample.chunker.chunk "Hi\n\nabcdefgh".toList,
      chunk.charStart ≤ 0 ∧ 4 ≤ chunk.charEnd) ∧
      ∀ chunk ∈ Sample.chunker.chunk "Hi\n\nabcdefgh".toList,
        ¬ (4 < chunk.charEnd ∧ chunk.charEnd < 12) := by
  obtain ⟨paragraphs, words⟩ :=
    natural_boundaries Sample.chunker "Hi\n\nabcdefgh".toList rfl
  have blank : FirstFrom "Hi\n\nabcdefgh".toList blankLine 0 2 := findText_some (by decide)
  have word : Run Break "Hi\n\nabcdefgh".toList 4 12 := by
    constructor
    case nonempty => decide
    case within => decide
    case unbroken =>
      intro i item lower upper found
      unfold Break
      interval_cases i <;> cases found <;> decide
    case before =>
      intro i item next found
      cases next
      cases found
      exact .inr rfl
    case behind => exact fun item found => nomatch found
  constructor
  · exact paragraphs ⟨2, blank.occurs⟩ 0 4 ⟨.first, .inl ⟨2, blank, rfl⟩⟩ (by decide)
  · exact fun chunk member => words chunk member 4 12 word (by decide)

end RecursiveCharacterChunker

end DocContext
