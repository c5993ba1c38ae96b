import DocContext.Chunking.Windows

/-! The ranges of emitted chunks: each chunk shows its own slice, both ends
advance with the index, and together the chunks cover the text. -/

namespace DocContext

open Foundation

namespace Chunking

/-- Rewinding keeps tiles advancing, their ends strictly. -/
theorem rewound_pairwise (tiles : Tiles lo hi spans) (overlap : Nat) :
    (spans.map fun span => (span.1 - overlap, span.2)).Pairwise
      fun first second : Span => first.1 ≤ second.1 ∧ first.2 < second.2 := by
  induction spans generalizing lo with
  | nil => exact List.Pairwise.nil
  | cons span rest ih =>
    obtain ⟨start, nonempty, remaining⟩ := tiles
    rw [List.map_cons, List.pairwise_cons]
    refine ⟨?_, ih remaining⟩
    intro later member
    obtain ⟨original, present, same⟩ := List.mem_map.mp member
    subst same
    obtain ⟨lower, nonempty, _⟩ := remaining.bounds present
    simp only
    omega

theorem chunksFrom_getElem? (text : Text) (index : Nat) (spans : List Span) (i : Nat) :
    (chunksFrom text index spans)[i]? =
      spans[i]?.map fun span => ⟨slice text span.1 span.2, index + i, span.1, span.2⟩ := by
  rw [chunksFrom, List.getElem?_map, List.getElem?_zipIdx, Option.map_map]
  rfl

end Chunking

namespace RecursiveCharacterChunker

open Chunking

variable (chunker : RecursiveCharacterChunker) (text : Text)

/-- The ranges of the chunks, in chunk order. -/
def ranges : List Span := rewound chunker.chunkOverlap (chunker.windows text)

theorem ranges_eq : chunker.ranges text =
    (chunker.windows text).map fun window => (window.1 - chunker.chunkOverlap, window.2) :=
  rewound_eq (chunker.windows_tiles text) chunker.chunkOverlap

theorem chunk_ranges :
    (chunker.chunk text).map (fun chunk => (chunk.charStart, chunk.charEnd)) =
      chunker.ranges text := by
  rw [chunk_eq, chunksFrom_ranges, ranges]

theorem getElem?_chunk (i : Nat) : (chunker.chunk text)[i]? =
    (chunker.ranges text)[i]?.map fun range =>
      ⟨slice text range.1 range.2, i, range.1, range.2⟩ := by
  rw [chunk_eq, chunksFrom_getElem?, Nat.zero_add, ranges]

theorem chunk_window {i : Nat} {chunk : Chunk} (found : (chunker.chunk text)[i]? = some chunk) :
    ∃ window, (chunker.windows text)[i]? = some window ∧ chunk.chunkIndex = i ∧
      chunk.charStart = window.1 - chunker.chunkOverlap ∧ chunk.charEnd = window.2 ∧
      chunk.text = slice text chunk.charStart chunk.charEnd := by
  rw [getElem?_chunk, ranges_eq, List.getElem?_map, Option.map_map] at found
  obtain ⟨window, present, same⟩ := Option.map_eq_some_iff.mp found
  subst same
  exact ⟨window, present, rfl, rfl, rfl, rfl⟩

theorem window_chunk {window : Span} (member : window ∈ chunker.windows text) :
    ∃ chunk ∈ chunker.chunk text,
      chunk.charStart = window.1 - chunker.chunkOverlap ∧ chunk.charEnd = window.2 := by
  obtain ⟨i, found⟩ := List.mem_iff_getElem?.mp member
  have emitted : (chunker.chunk text)[i]? =
      some ⟨slice text (window.1 - chunker.chunkOverlap) window.2, i,
        window.1 - chunker.chunkOverlap, window.2⟩ := by
    rw [getElem?_chunk, ranges_eq, List.getElem?_map, found]
    rfl
  exact ⟨_, List.mem_of_getElem? emitted, rfl, rfl⟩

theorem chunk_of_window {chunk : Chunk} (member : chunk ∈ chunker.chunk text) :
    ∃ window ∈ chunker.windows text,
      chunk.charStart = window.1 - chunker.chunkOverlap ∧ chunk.charEnd = window.2 := by
  obtain ⟨i, found⟩ := List.mem_iff_getElem?.mp member
  obtain ⟨window, present, _, start, stop, _⟩ := chunker.chunk_window text found
  exact ⟨window, List.mem_of_getElem? present, start, stop⟩

theorem mem_chunk {emitted : Chunk} (member : emitted ∈ chunker.chunk text) :
    (chunker.ranges text)[emitted.chunkIndex]? = some (emitted.charStart, emitted.charEnd) ∧
      emitted.text = slice text emitted.charStart emitted.charEnd := by
  obtain ⟨i, found⟩ := List.mem_iff_getElem?.mp member
  rw [getElem?_chunk] at found
  obtain ⟨range, present, same⟩ := Option.map_eq_some_iff.mp found
  subst same
  exact ⟨present, rfl⟩

theorem chunk_bounds {emitted : Chunk} (member : emitted ∈ chunker.chunk text) :
    emitted.charStart < emitted.charEnd ∧ emitted.charEnd ≤ text.length := by
  obtain ⟨window, present, start, stop⟩ := chunker.chunk_of_window text member
  have bounds := (chunker.windows_tiles text).bounds present
  omega

theorem chunk_width {emitted : Chunk} (member : emitted ∈ chunker.chunk text) :
    emitted.charEnd ≤ emitted.charStart + (chunker.chunkSize + chunker.chunkOverlap) := by
  obtain ⟨window, present, start, stop⟩ := chunker.chunk_of_window text member
  have fits := chunker.windows_fit text window present
  omega

theorem chunk_advance : (chunker.chunk text).Pairwise fun one other =>
    one.charStart ≤ other.charStart ∧ one.charEnd < other.charEnd := by
  have pairs := rewound_pairwise (chunker.windows_tiles text) chunker.chunkOverlap
  rw [← ranges_eq, ← chunk_ranges, List.pairwise_map] at pairs
  exact pairs

theorem chunk_indexes :
    (chunker.chunk text).map Chunk.chunkIndex = List.range (chunker.chunk text).length := by
  rw [chunk_eq]
  simp [chunksFrom, Function.comp_def, List.range_eq_range']

/-- Both ends advance with the index. -/
theorem chunk_monotone (first : one ∈ chunker.chunk text) (second : two ∈ chunker.chunk text)
    (ordered : one.chunkIndex ≤ two.chunkIndex) :
    one.charStart ≤ two.charStart ∧ one.charEnd ≤ two.charEnd := by
  obtain ⟨i, oneFound⟩ := List.mem_iff_getElem?.mp first
  obtain ⟨j, twoFound⟩ := List.mem_iff_getElem?.mp second
  obtain ⟨_, _, oneIndex, _⟩ := chunker.chunk_window text oneFound
  obtain ⟨_, _, twoIndex, _⟩ := chunker.chunk_window text twoFound
  rw [oneIndex, twoIndex] at ordered
  obtain ⟨oneWithin, oneHere⟩ := List.getElem?_eq_some_iff.mp oneFound
  obtain ⟨twoWithin, twoHere⟩ := List.getElem?_eq_some_iff.mp twoFound
  rcases Nat.lt_or_eq_of_le ordered with before | same
  · have advance := List.pairwise_iff_getElem.mp (chunker.chunk_advance text) i j oneWithin
      twoWithin before
    rw [oneHere, twoHere] at advance
    exact ⟨advance.1, Nat.le_of_lt advance.2⟩
  · rw [same] at oneFound
    rw [Option.some.inj (oneFound.symm.trans twoFound)]
    exact ⟨Nat.le_refl _, Nat.le_refl _⟩

theorem chunk_covers (inside : position < text.length) :
    ∃ emitted ∈ chunker.chunk text,
      emitted.charStart ≤ position ∧ position < emitted.charEnd := by
  obtain ⟨window, member, lower, upper⟩ :=
    (chunker.windows_tiles text).covers (Nat.zero_le _) inside
  obtain ⟨emitted, present, start, stop⟩ := chunker.window_chunk text member
  exact ⟨emitted, present, by omega, by omega⟩

theorem chunk_nonempty (nonempty : text ≠ []) : chunker.chunk text ≠ [] := by
  have positive := List.length_pos_iff.mpr nonempty
  obtain ⟨emitted, member, _⟩ := chunker.chunk_covers text positive
  exact List.ne_nil_of_mem member

end RecursiveCharacterChunker

end DocContext
