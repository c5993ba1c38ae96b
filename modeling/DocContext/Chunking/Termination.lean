import DocContext.Chunking.Ranges

/-! The loops and the recursion of the chunker as relations between a text and the
result of a run that ends, with no bound on rounds or depth. Every text has such a
run, and it ends with what the bounded definitions compute. -/

namespace DocContext

open Foundation

namespace Chunking

/-- A run of the `while True` loop of `_split_with_positions` from `start`. -/
inductive Splits (text sep : Text) : Nat → List (Nat × Text) → Prop where
  | last : findText text sep start = none → Splits text sep start [(start, text.drop start)]
  | cut : findText text sep start = some idx → Splits text sep (idx + sep.length) rest →
      Splits text sep start ((start, slice text start (idx + sep.length)) :: rest)

/-- A run of `_split_with_positions`. -/
def SplitsWith (text sep : Text) (pieces : List (Nat × Text)) : Prop :=
  if sep = [] then pieces = splitWithPositions text [] else Splits text sep 0 pieces

/-- A run of `_build_windows`, with the run of each sub-chunker in it. -/
inductive Builds (chunkSize : Nat) : List Text → Text → List Span → Prop where
  | assembled (pieces : List (Nat × Text)) (sub : Text → List Span) :
      SplitsWith text (pickSeparator separators text) pieces →
      (∀ piece ∈ pieces, chunkSize < piece.2.length →
        Builds chunkSize (finerSeparators separators (pickSeparator separators text))
          (slice text piece.1 (piece.1 + piece.2.length))
          (sub (slice text piece.1 (piece.1 + piece.2.length)))) →
      Builds chunkSize separators text
        (assemble chunkSize
          (expandOversized (fun _ => sub) separators text (pickSeparator separators text)) pieces)

/-- A run of `chunk`. -/
def Chunks (chunker : RecursiveCharacterChunker) (text : Text) (chunks : List Chunk) : Prop :=
  if text = [] then chunks = []
  else ∃ windows, Builds chunker.chunkSize chunker.separators text windows ∧
    chunks = addOverlap chunker.chunkOverlap windows text

/-! Splitting. -/

theorem splitLoop_splits (nonempty : sep ≠ []) (within : start ≤ text.length)
    (enough : text.length < start + rounds) :
    Splits text sep start (splitLoop text sep rounds start) := by
  induction rounds generalizing start with
  | zero => omega
  | succ rounds ih =>
    unfold splitLoop
    cases found : findText text sep start with
    | none => exact .last found
    | some idx =>
      obtain ⟨lower, upper⟩ := findText_bounds within found
      have positive := List.length_pos_iff.mpr nonempty
      apply Splits.cut found
      exact ih upper (by omega)

theorem splitWithPositions_splits (text sep : Text) :
    SplitsWith text sep (splitWithPositions text sep) := by
  unfold SplitsWith
  split
  · rename_i empty
    rw [empty]
  · rename_i nonempty
    have positive : sep.isEmpty ≠ true := by simpa using nonempty
    rw [splitWithPositions, if_neg positive]
    exact splitLoop_splits nonempty (Nat.zero_le _) (by omega)

theorem Splits.unique (one : Splits text sep start pieces) (other : Splits text sep start pieces') :
    pieces = pieces' := by
  induction one generalizing pieces' with
  | last missing =>
    cases other with
    | last => rfl
    | cut found => cases missing.symm.trans found
  | cut found _ ih =>
    cases other with
    | last missing => cases found.symm.trans missing
    | cut found' later =>
      cases found.symm.trans found'
      rw [ih later]

theorem splitsWith_iff :
    SplitsWith text sep pieces ↔ pieces = splitWithPositions text sep := by
  constructor
  · intro one
    have other := splitWithPositions_splits text sep
    unfold SplitsWith at one other
    split at one
    · rename_i empty
      rw [one, empty]
    · rename_i nonempty
      rw [if_neg nonempty] at other
      exact one.unique other
  · intro same
    rw [same]
    exact splitWithPositions_splits text sep

/-! Windows. -/

/-- Expansions that agree on the oversized pieces assemble the same windows. -/
theorem assemble_congr {expand expand' : Nat → Nat → List Span} {pieces : List (Nat × Text)}
    (agree : ∀ piece ∈ pieces, size < piece.2.length →
      expand piece.1 (piece.1 + piece.2.length) = expand' piece.1 (piece.1 + piece.2.length)) :
    assemble size expand pieces = assemble size expand' pieces := by
  have started (windows : List Span) {piece : Nat × Text} (member : piece ∈ pieces) :
      startWindow size expand windows piece.1 piece.2.length =
        startWindow size expand' windows piece.1 piece.2.length := by
    unfold startWindow
    by_cases oversized : piece.2.length > size
    · rw [if_pos oversized, if_pos oversized, agree piece member oversized]
    · rw [if_neg oversized, if_neg oversized]
  unfold assemble
  congr 1
  refine List.foldl_ext _ _ _ fun state piece member => ?_
  unfold assembleStep
  simp only [started _ member]

theorem expandOversized_congr {build build' : List Text → Text → List Span}
    (same : build (finerSeparators separators sep) (slice text start stop) =
      build' (finerSeparators separators sep) (slice text start stop)) :
    expandOversized build separators text sep start stop =
      expandOversized build' separators text sep start stop := by
  unfold expandOversized chunkWith
  rw [same]

theorem buildWindows_builds (positive : 0 < size) (enough : Enough depth separators)
    (text : Text) : Builds size separators text (buildWindows size depth separators text) := by
  induction depth generalizing separators text with
  | zero => rcases enough with deep | ⟨deep, _⟩ <;> omega
  | succ depth ih =>
    let finer := finerSeparators separators (pickSeparator separators text)
    refine Builds.assembled _ (buildWindows size depth finer) (splitWithPositions_splits text _) ?_
    intro piece member oversized
    by_cases finest : pickSeparator separators text = []
    · -- single characters are never oversized
      rw [finest] at member
      have single := splitWithPositions_nil_length member
      omega
    · exact ih (finerSeparators_enough enough (pickSeparator_mem finest) finest) _

theorem Builds.unique (one : Builds size separators text windows)
    (other : Builds size separators text windows') : windows = windows' := by
  induction one generalizing windows' with
  | assembled pieces sub split _ ih =>
    cases other with
    | assembled pieces' sub' split' built' =>
      cases (splitsWith_iff.mp split).trans (splitsWith_iff.mp split').symm
      apply assemble_congr
      intro piece member oversized
      apply expandOversized_congr
      exact ih piece member oversized (built' piece member oversized)

end Chunking

open Chunking

/-- Every text has exactly one run, and it ends with the chunks of the bounded definition. -/
theorem RecursiveCharacterChunker.chunks_iff (chunker : RecursiveCharacterChunker) (text : Text)
    (chunks : List Chunk) : Chunks chunker text chunks ↔ chunks = chunker.chunk text := by
  have built := buildWindows_builds chunker.size_pos chunker.enough text
  unfold Chunks chunk chunkWith
  by_cases empty : text = []
  · rw [if_pos empty, empty]
    rfl
  · have nonempty : text.isEmpty ≠ true := by simpa using empty
    rw [if_neg empty, if_neg nonempty]
    constructor
    · rintro ⟨windows, builds, same⟩
      rw [same, builds.unique built]
    · exact fun same => ⟨_, built, same⟩

end DocContext
