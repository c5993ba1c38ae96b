import DocContext.Foundation.Packing
import DocContext.Chunking.Boundaries

/-! The greedy assembly as a packing: where every piece fits the chunk size, the
windows are the groups that packing the pieces greedily makes, so no consecutive
grouping of the pieces within the chunk size has fewer. -/

namespace DocContext

open Foundation

namespace Chunking

def pieceLength (piece : Nat × Text) : Nat := piece.2.length

/-- The open window has the length of the group it stands for. -/
structure Opens (size : Nat) (state : Assembly) (opened : List (Nat × Text)) : Prop where
  begun : ∃ start, state.curStart = some start
  len : state.curLen = load pieceLength opened
  bounded : load pieceLength opened ≤ size

theorem Opens.close_length (opens : Opens size state opened) :
    state.close.length = state.windows.length + 1 := by
  obtain ⟨start, found⟩ := opens.begun
  simp [Assembly.close, found]

/-- With a window open, the loop closes one window for each group from there on. -/
theorem fold_groups {pieces : List (Nat × Text)}
    (small : ∀ piece ∈ pieces, pieceLength piece ≤ size) (opens : Opens size state opened) :
    (pieces.foldl (assembleStep size expand) state).close.length =
      state.windows.length + (packFrom pieceLength size opened pieces).length := by
  induction pieces generalizing state opened with
  | nil => simp [packFrom, opens.close_length]
  | cons piece rest ih =>
    have smaller : ∀ other ∈ rest, pieceLength other ≤ size := fun other member =>
      small other (by simp [member])
    have fits : pieceLength piece ≤ size := small piece (by simp)
    have len := opens.len
    have bounded := opens.bounded
    rw [List.foldl_cons]
    rcases assembleStep_cases size expand state piece with
      ⟨empty, next⟩ | ⟨start, _, room, next⟩ | ⟨full, ⟨oversized, _⟩ | ⟨_, next⟩⟩
    · -- an empty piece is skipped, and weighs nothing in its group
      have none : pieceLength piece = 0 := by simp [pieceLength, empty]
      have joined : Opens size state (opened ++ [piece]) :=
        ⟨opens.begun, by simp [len, none], by simpa [none] using bounded⟩
      rw [next, packFrom_room (by omega), ih smaller joined]
    · rw [len] at room next
      have joined : Opens size (assembleStep size expand state piece) (opened ++ [piece]) := by
        rw [next]
        exact ⟨⟨start, rfl⟩, by simp [pieceLength], by simpa [pieceLength] using room⟩
      rw [packFrom_room room, ih smaller joined, next]
    · exact absurd fits (Nat.not_le.mpr oversized)
    · obtain ⟨start, found⟩ := opens.begun
      have beyond := full start found
      rw [len] at beyond
      have begins : Opens size (assembleStep size expand state piece) [piece] := by
        rw [next]
        exact ⟨⟨_, rfl⟩, by simp [pieceLength], by simpa using fits⟩
      rw [packFrom_full beyond, ih smaller begins, next, List.length_cons]
      simp only [opens.close_length]
      omega

/-- Of a split that starts with a piece of text, as many windows as groups. -/
theorem assemble_length {pieces : List (Nat × Text)}
    (small : ∀ piece ∈ pieces, pieceLength piece ≤ size)
    (filled : ∀ piece ∈ pieces.head?, piece.2 ≠ []) :
    (assemble size expand pieces).length = (pack pieceLength size pieces).length := by
  cases pieces with
  | nil => rfl
  | cons piece rest =>
    have fits : pieceLength piece ≤ size := small piece (by simp)
    rw [assemble, List.foldl_cons, pack]
    rcases assembleStep_cases size expand ⟨[], none, 0, 0⟩ piece with
      ⟨empty, _⟩ | ⟨_, found, _⟩ | ⟨_, ⟨oversized, _⟩ | ⟨_, next⟩⟩
    · exact absurd empty (filled piece rfl)
    · cases found
    · exact absurd fits (Nat.not_le.mpr oversized)
    · have begins : Opens size (assembleStep size expand ⟨[], none, 0, 0⟩ piece) [piece] := by
        rw [next]
        exact ⟨⟨_, rfl⟩, by simp [pieceLength], by simpa using fits⟩
      rw [fold_groups (fun other member => small other (by simp [member])) begins, next]
      simp [Assembly.close]

/-- A split on a separator that occurs starts with a piece that ends in it. -/
theorem splitWithPositions_head (occurs : sep ≠ [] → occursIn sep text = true) :
    ∀ piece ∈ (splitWithPositions text sep).head?, piece.2 ≠ [] := by
  intro piece first
  by_cases empty : sep = []
  · subst sep
    have single := splitWithPositions_nil_length (List.mem_of_head? first)
    exact List.ne_nil_of_length_eq_add_one single
  · obtain ⟨idx, found⟩ := Option.isSome_iff_exists.mp (occurs empty)
    have whole := splitWithPositions_splits text sep
    rw [SplitsWith, if_neg empty] at whole
    have positive := List.length_pos_iff.mpr empty
    have bounds := findText_bounds (Nat.zero_le _) found
    generalize splitWithPositions text sep = pieces at whole first
    cases whole with
    | last missing => cases missing.symm.trans found
    | cut here _ =>
      cases here.symm.trans found
      cases first
      apply List.ne_nil_of_length_pos
      rw [length_slice]
      omega

end Chunking

namespace RecursiveCharacterChunker

open Chunking

variable (chunker : RecursiveCharacterChunker) (text : Text)

/-- The pieces `_build_windows` assembles. -/
def pieces : List (Nat × Text) :=
  splitWithPositions text (pickSeparator chunker.separators text)

/-- The numbers of groups, within the chunk size, that the pieces can be partitioned
into as they follow each other. -/
def groupings : Set Nat :=
  {count | ∃ groups, Packing pieceLength chunker.chunkSize (chunker.pieces text) groups ∧
    groups.length = count}

theorem windows_length
    (small : ∀ piece ∈ chunker.pieces text, pieceLength piece ≤ chunker.chunkSize) :
    (chunker.windows text).length =
      (pack pieceLength chunker.chunkSize (chunker.pieces text)).length :=
  assemble_length small (splitWithPositions_head occursIn_pickSeparator)

theorem pieces_single (finest : pickSeparator chunker.separators text = []) :
    ∀ piece ∈ chunker.pieces text, pieceLength piece = 1 := by
  intro piece member
  rw [pieces, finest] at member
  exact splitWithPositions_nil_length member

/-- Where every piece fits the chunk size, as always on the empty separator, no grouping of
the pieces has fewer groups than there are windows; on the empty separator their number
is the length of the text over the chunk size, rounded up. -/
theorem windows_least :
    ((∀ piece ∈ chunker.pieces text, pieceLength piece ≤ chunker.chunkSize) →
      IsLeast (chunker.groupings text) (chunker.windows text).length) ∧
    (pickSeparator chunker.separators text = [] →
      (∀ piece ∈ chunker.pieces text, pieceLength piece ≤ chunker.chunkSize) ∧
        (chunker.windows text).length = text.length ⌈/⌉ chunker.chunkSize) := by
  constructor
  · intro small
    rw [windows_length chunker text small]
    exact pack_isLeast small
  · intro finest
    have single := chunker.pieces_single text finest
    have small : ∀ piece ∈ chunker.pieces text, pieceLength piece ≤ chunker.chunkSize :=
      fun piece member => single piece member ▸ chunker.size_pos
    refine ⟨small, ?_⟩
    rw [windows_length chunker text small, pack_unit single chunker.size_pos, pieces, finest]
    simp [splitWithPositions]

private def fiveWide : RecursiveCharacterChunker := ⟨5, 0, defaultSeparators, by decide, by decide⟩

private def twoWide : RecursiveCharacterChunker := ⟨2, 0, [[]], by decide, by decide⟩

/-- Two pieces share a window, and five characters take three windows of two. -/
theorem windows_least_sample :
    IsLeast (fiveWide.groupings ['a', ' ', 'b', ' ', 'c', 'd', ' '])
        (fiveWide.windows ['a', ' ', 'b', ' ', 'c', 'd', ' ']).length ∧
      (twoWide.windows ['a', 'b', 'c', 'd', 'e']).length = 5 ⌈/⌉ 2 :=
  ⟨(windows_least fiveWide ['a', ' ', 'b', ' ', 'c', 'd', ' ']).1 (by decide),
    ((windows_least twoWide ['a', 'b', 'c', 'd', 'e']).2 (by decide)).2⟩

end RecursiveCharacterChunker

end DocContext
