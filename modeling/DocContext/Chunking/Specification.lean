import DocContext.Chunking.Termination

/-! The chunker's contract: how chunks follow one another, that every short phrase
lies whole in a chunk, and which ranges contain others. -/

namespace DocContext

open Foundation

namespace Chunking

/-! A text that fits is one window. -/

/-- The loop invariant on a text that fits: one window, open from the start. -/
def Opened (position : Nat) (state : Assembly) : Prop :=
  state.windows = [] ∧
    if position = 0 then state.curStart = none
    else state.curStart = some 0 ∧ state.curEnd = position ∧ state.curLen = position

theorem Pieces.le {lo : Nat} {pieces : List (Nat × Text)} (split : Pieces text lo pieces) :
    lo ≤ text.length := by
  induction pieces generalizing lo with
  | nil => exact Nat.le_of_eq split
  | cons piece rest ih =>
    obtain ⟨_, _, remaining⟩ := split
    have later := ih remaining
    omega

theorem assembleStep_opened {expand : Nat → Nat → List Span} (opened : Opened piece.1 state)
    (fits : piece.1 + piece.2.length ≤ size) :
    Opened (piece.1 + piece.2.length) (assembleStep size expand state piece) := by
  obtain ⟨none, shape⟩ := opened
  unfold assembleStep
  by_cases empty : piece.2.isEmpty = true
  · rw [if_pos empty]
    rw [List.isEmpty_iff] at empty
    rw [empty]
    exact ⟨none, shape⟩
  · rw [if_neg empty]
    have positive : 0 < piece.2.length := List.length_pos_iff.mpr (by simpa using empty)
    have later : piece.1 + piece.2.length ≠ 0 := by omega
    by_cases first : piece.1 = 0
    · rw [if_pos first] at shape
      rw [shape]
      have small : ¬ piece.2.length > size := by omega
      simp only [startWindow, if_neg small]
      refine ⟨none, ?_⟩
      rw [if_neg later]
      exact ⟨congrArg some first, rfl, by dsimp only; omega⟩
    · rw [if_neg first] at shape
      obtain ⟨begun, reached, len⟩ := shape
      have room : state.curLen + piece.2.length ≤ size := by omega
      rw [begun]
      simp only [if_pos room]
      refine ⟨none, ?_⟩
      rw [if_neg later]
      exact ⟨rfl, rfl, by dsimp only; omega⟩

theorem assemble_small {expand : Nat → Nat → List Span} {pieces : List (Nat × Text)}
    (split : Pieces text 0 pieces) (nonempty : 0 < text.length) (small : text.length ≤ size) :
    assemble size expand pieces = [(0, text.length)] := by
  have fold {lo : Nat} {state : Assembly} (pieces : List (Nat × Text))
      (split : Pieces text lo pieces) (opened : Opened lo state) :
      Opened text.length (pieces.foldl (assembleStep size expand) state) := by
    induction pieces generalizing lo state with
    | nil =>
      rw [← split]
      exact opened
    | cons piece rest ih =>
      obtain ⟨start, _, remaining⟩ := split
      subst start
      have upper := remaining.le
      exact ih remaining (assembleStep_opened opened (by omega))
  have initial : Opened 0 ⟨[], none, 0, 0⟩ := ⟨rfl, rfl⟩
  obtain ⟨none, shape⟩ := fold pieces split initial
  rw [if_neg (by omega)] at shape
  obtain ⟨begun, reached, _⟩ := shape
  rw [assemble, Assembly.close, begun, none, reached]
  rfl

end Chunking

namespace RecursiveCharacterChunker

open Chunking

variable (chunker : RecursiveCharacterChunker) (text : Text)

theorem chunk_ends :
    (chunker.chunk text).map Chunk.charEnd = (chunker.windows text).map Prod.snd := by
  have ends := congrArg (List.map Prod.snd) (chunker.chunk_ranges text)
  rw [ranges_eq, List.map_map, List.map_map] at ends
  exact ends

theorem chunk_length : (chunker.chunk text).length = (chunker.windows text).length := by
  have same := congrArg List.length (chunker.chunk_ends text)
  rwa [List.length_map, List.length_map] at same

theorem windows_small (nonempty : 0 < text.length) (small : text.length ≤ chunker.chunkSize) :
    chunker.windows text = [(0, text.length)] :=
  assemble_small (splitWithPositions_pieces text _) nonempty small

end RecursiveCharacterChunker

/-- Ten characters a chunk, five of them repeated from the chunk before. -/
def Chunking.Sample.chunker : RecursiveCharacterChunker where
  chunkSize := 10
  chunkOverlap := 5
  size_pos := by decide
  overlap_lt := by decide

/-- What the chunks of a text are, in terms of positions and sizes alone. -/
structure ChunkList (chunker : RecursiveCharacterChunker) (text : Text)
    (chunks : List Chunk) : Prop where
  empty_iff : chunks.length = 0 ↔ text = []
  single_iff : chunks.length = 1 ↔ 0 < text.length ∧ text.length ≤ chunker.chunkSize
  index : ∀ (i : Nat) (chunk : Chunk), chunks[i]? = some chunk → chunk.chunkIndex = i
  content : ∀ chunk ∈ chunks, chunk.text = slice text chunk.charStart chunk.charEnd
  first : ∀ chunk : Chunk, chunks[0]? = some chunk →
    chunk.charStart = 0 ∧ chunk.charEnd ≤ chunker.chunkSize
  last : ∀ chunk : Chunk, chunks.getLast? = some chunk → chunk.charEnd = text.length
  next : ∀ (i : Nat) (before chunk : Chunk), chunks[i]? = some before → chunks[i + 1]? = some chunk →
    before.charEnd < chunk.charEnd ∧ chunk.charEnd - before.charEnd ≤ chunker.chunkSize ∧
      (chunk.charStart : Int) = max 0 ((before.charEnd : Int) - chunker.chunkOverlap)
  kept : chunks.map Chunk.charEnd = (chunker.windows text).map Prod.snd
  width : ∀ chunk ∈ chunks, chunk.text.length ≤ chunker.chunkSize + chunker.chunkOverlap

namespace RecursiveCharacterChunker

open Chunking

variable (chunker : RecursiveCharacterChunker) (text : Text)

theorem chunk_single_iff : (chunker.chunk text).length = 1 ↔
    0 < text.length ∧ text.length ≤ chunker.chunkSize := by
  rw [chunk_length]
  constructor
  · intro single
    obtain ⟨window, only⟩ := List.length_eq_one_iff.mp single
    have tiles := chunker.windows_tiles text
    have fits := chunker.windows_fit text
    rw [only] at tiles fits
    obtain ⟨start, positive, reached⟩ := tiles
    have bound := fits window (List.mem_singleton_self window)
    rw [tiles_nil] at reached
    omega
  · rintro ⟨nonempty, small⟩
    rw [chunker.windows_small text nonempty small]
    rfl

theorem chunk_first {chunk : Chunk} (found : (chunker.chunk text)[0]? = some chunk) :
    chunk.charStart = 0 ∧ chunk.charEnd ≤ chunker.chunkSize := by
  obtain ⟨window, present, _, start, stop, _⟩ := chunker.chunk_window text found
  have begins := ((chunker.windows_tiles text).first present).1
  have bound := chunker.windows_fit text window (List.mem_of_getElem? present)
  omega

theorem chunk_last {chunk : Chunk} (found : (chunker.chunk text).getLast? = some chunk) :
    chunk.charEnd = text.length := by
  have ends := congrArg List.getLast? (chunker.chunk_ends text)
  rw [List.getLast?_map, List.getLast?_map, found] at ends
  obtain ⟨window, present, same⟩ := Option.map_eq_some_iff.mp ends.symm
  rw [← same]
  exact (chunker.windows_tiles text).last present

theorem chunk_next {i : Nat} {before chunk : Chunk}
    (earlier : (chunker.chunk text)[i]? = some before)
    (later : (chunker.chunk text)[i + 1]? = some chunk) :
    before.charEnd < chunk.charEnd ∧ chunk.charEnd - before.charEnd ≤ chunker.chunkSize ∧
      chunk.charStart = before.charEnd - chunker.chunkOverlap := by
  obtain ⟨window, present, _, _, stop, _⟩ := chunker.chunk_window text earlier
  obtain ⟨window', present', _, start', stop', _⟩ := chunker.chunk_window text later
  obtain ⟨adjacent, further⟩ := (chunker.windows_tiles text).next present present'
  have bound := chunker.windows_fit text window' (List.mem_of_getElem? present')
  omega

/-- The chunker meets its specification on every text, and every run of it ends. -/
theorem chunk_specification :
    (∀ chunks, Chunks chunker text chunks ↔ chunks = chunker.chunk text) ∧
      ChunkList chunker text (chunker.chunk text) := by
  refine ⟨chunker.chunks_iff text, ?_⟩
  constructor
  case empty_iff =>
    rw [chunk_length, List.length_eq_zero_iff, (chunker.windows_tiles text).nil_iff]
    constructor
    · exact fun zero => List.length_eq_zero_iff.mp zero.symm
    · exact fun empty => (List.length_eq_zero_iff.mpr empty).symm
  case single_iff => exact chunker.chunk_single_iff text
  case index =>
    intro i chunk found
    obtain ⟨_, _, number, _⟩ := chunker.chunk_window text found
    exact number
  case content => exact fun chunk member => (chunker.mem_chunk text member).2
  case first => exact fun chunk found => chunker.chunk_first text found
  case last => exact fun chunk found => chunker.chunk_last text found
  case next =>
    intro i before chunk earlier later
    obtain ⟨further, short, start⟩ := chunker.chunk_next text earlier later
    exact ⟨further, short, by omega⟩
  case kept => exact chunker.chunk_ends text
  case width =>
    intro chunk member
    have bound := chunker.chunk_width text member
    rw [(chunker.mem_chunk text member).2, length_slice]
    omega

/-- Every nonempty span no longer than the overlap and one more character lies
whole in a chunk, which shows it. -/
theorem chunk_shows_span {a b : Nat} (nonempty : a < b)
    (short : b - a ≤ chunker.chunkOverlap + 1) (within : b ≤ text.length) :
    ∃ chunk ∈ chunker.chunk text, chunk.charStart ≤ a ∧ b ≤ chunk.charEnd ∧
      slice chunk.text (a - chunk.charStart) (b - chunk.charStart) = slice text a b := by
  -- the chunk of the window that has the last character of the span
  have inside : b - 1 < text.length := by omega
  obtain ⟨window, member, lower, upper⟩ :=
    (chunker.windows_tiles text).covers (Nat.zero_le _) inside
  obtain ⟨chunk, present, start, stop⟩ := chunker.window_chunk text member
  have begins : chunk.charStart ≤ a := by omega
  have reaches : b ≤ chunk.charEnd := by omega
  refine ⟨chunk, present, begins, reaches, ?_⟩
  rw [(chunker.mem_chunk text present).2, slice_slice _ _ _ _ _ (by omega),
    Nat.add_sub_cancel' begins, Nat.add_sub_cancel' (by omega)]

/-- Three characters in one piece across the boundary of two chunks. -/
theorem chunk_shows_span_boundary :
    ∃ chunk ∈ Chunking.Sample.chunker.chunk "one two three".toList,
      chunk.charStart ≤ 6 ∧ 9 ≤ chunk.charEnd ∧
        slice chunk.text (6 - chunk.charStart) (9 - chunk.charStart) =
          slice "one two three".toList 6 9 :=
  Chunking.Sample.chunker.chunk_shows_span _ (by decide) (by decide) (by decide)

end RecursiveCharacterChunker

/-! Which ranges contain others. -/

/-- The range of one chunk lies within that of another. -/
def Chunk.Within (inner outer : Chunk) : Prop :=
  outer.charStart ≤ inner.charStart ∧ inner.charEnd ≤ outer.charEnd

/-- No range lies within another, and both ends increase along the list. -/
structure Irredundant (chunks : List Chunk) : Prop where
  apart : chunks.Pairwise fun one other => ¬ one.Within other ∧ ¬ other.Within one
  starts : chunks.Pairwise fun one other => one.charStart < other.charStart
  ends : chunks.Pairwise fun one other => one.charEnd < other.charEnd

/-- A title shorter than the overlap lies within the second chunk. -/
theorem title_within_second :
    ¬ ∀ (chunker : RecursiveCharacterChunker) (text : Text), Irredundant (chunker.chunk text) := by
  intro holds
  have starts := (holds Chunking.Sample.chunker "Hi\n\nabcdefgh".toList).starts
  exact absurd starts (by decide)

namespace RecursiveCharacterChunker

open Chunking

variable (chunker : RecursiveCharacterChunker) (text : Text)

/-- Two chunks start together only where both starts are clamped at 0. -/
theorem chunk_starts_eq_iff : (chunker.chunk text).Pairwise fun one other =>
    one.charStart = other.charStart ↔ other.charStart = 0 := by
  apply List.pairwise_iff_getElem.mpr
  intro i j withinI withinJ ordered
  have ends := List.pairwise_iff_getElem.mp (chunker.chunk_advance text)
  cases j with
  | zero => omega
  | succ j =>
    have withinBefore : j < (chunker.chunk text).length := by omega
    have start := (chunker.chunk_next text (List.getElem?_eq_getElem withinBefore)
      (List.getElem?_eq_getElem withinJ)).2.2
    cases i with
    | zero =>
      have zero := (chunker.chunk_first text (List.getElem?_eq_getElem withinI)).1
      omega
    | succ i =>
      have withinBefore' : i < (chunker.chunk text).length := by omega
      have start' := (chunker.chunk_next text (List.getElem?_eq_getElem withinBefore')
        (List.getElem?_eq_getElem withinI)).2.2
      have later := (ends i j withinBefore' withinBefore (by omega)).2
      omega

/-- When the first chunk is longer than the overlap, no later start is clamped. -/
theorem chunk_starts_pos {first : Chunk} (head : (chunker.chunk text)[0]? = some first)
    (long : chunker.chunkOverlap < first.charEnd) :
    (chunker.chunk text).Pairwise fun _ other => 0 < other.charStart := by
  apply List.pairwise_iff_getElem.mpr
  intro i j _ within ordered
  have ends := List.pairwise_iff_getElem.mp (chunker.chunk_advance text)
  obtain ⟨withinFirst, isFirst⟩ := List.getElem?_eq_some_iff.mp head
  cases j with
  | zero => omega
  | succ j =>
    have withinBefore : j < (chunker.chunk text).length := by omega
    have start := (chunker.chunk_next text (List.getElem?_eq_getElem withinBefore)
      (List.getElem?_eq_getElem within)).2.2
    have reach : first.charEnd ≤ (chunker.chunk text)[j].charEnd := by
      rw [← isFirst]
      rcases Nat.eq_zero_or_pos j with zero | later
      · simp only [zero, Nat.le_refl]
      · exact Nat.le_of_lt (ends 0 j withinFirst withinBefore later).2
    omega

/-- No chunk lies within an earlier one, and an earlier one lies within a later one
exactly when the later one starts at 0. So no chunk lies within another exactly when
there is no second chunk or the first one is longer than the overlap. -/
theorem chunk_redundancy :
    ((chunker.chunk text).Pairwise fun earlier later =>
      earlier.charStart ≤ later.charStart ∧ earlier.charEnd < later.charEnd ∧
        ¬ later.Within earlier ∧ (earlier.Within later ↔ later.charStart = 0)) ∧
      (Irredundant (chunker.chunk text) ↔
        ∀ first second : Chunk, (chunker.chunk text)[0]? = some first →
          (chunker.chunk text)[1]? = some second → chunker.chunkOverlap < first.charEnd) := by
  have advance := chunker.chunk_advance text
  have together := chunker.chunk_starts_eq_iff text
  constructor
  · refine (advance.and together).imp ?_
    rintro earlier later ⟨⟨starts, ends⟩, clamped⟩
    unfold Chunk.Within
    omega
  · constructor
    · intro irredundant first second head next
      have zero := (chunker.chunk_first text head).1
      have start := (chunker.chunk_next text head next).2.2
      obtain ⟨withinFirst, isFirst⟩ := List.getElem?_eq_some_iff.mp head
      obtain ⟨withinSecond, isSecond⟩ := List.getElem?_eq_some_iff.mp next
      have further := List.pairwise_iff_getElem.mp irredundant.starts 0 1 withinFirst withinSecond
        Nat.zero_lt_one
      rw [isFirst, isSecond] at further
      omega
    · intro long
      have starts : (chunker.chunk text).Pairwise fun one other =>
          one.charStart < other.charStart := by
        match listed : chunker.chunk text with
        | [] => exact List.Pairwise.nil
        | [only] => exact List.pairwise_singleton ..
        | first :: second :: rest =>
          have head : (chunker.chunk text)[0]? = some first := by rw [listed]; rfl
          have next : (chunker.chunk text)[1]? = some second := by rw [listed]; rfl
          have positive := chunker.chunk_starts_pos text head (long first second head next)
          rw [← listed]
          refine (advance.and (together.and positive)).imp ?_
          rintro one other ⟨⟨starts, _⟩, clamped, positive⟩
          omega
      constructor
      case apart =>
        refine (advance.and starts).imp ?_
        rintro one other ⟨⟨_, ends⟩, starts⟩
        unfold Chunk.Within
        omega
      case starts => exact starts
      case ends => exact advance.imp fun both => both.2

end RecursiveCharacterChunker

end DocContext
