import DocContext.Chunking.Recursive

/-! What the chunker computes: windows that tile the text, each no longer than
the chunk size, every one but the first rewound by the overlap. -/

namespace DocContext

namespace Chunking

open Foundation

/-! Pieces of a split. -/

/-- Consecutive slices of the text, from `lo` to its end. -/
def Pieces (text : Text) : Nat → List (Nat × Text) → Prop
  | lo, [] => lo = text.length
  | lo, piece :: rest =>
    piece.1 = lo ∧ piece.2 = slice text lo (lo + piece.2.length) ∧
      Pieces text (lo + piece.2.length) rest

theorem findFrom_bounds (found : findFrom sep text position = some idx) :
    position ≤ idx ∧ idx + sep.length ≤ position + text.length := by
  induction text generalizing position with
  | nil =>
    simp only [findFrom, List.isEmpty_iff] at found
    split at found
    · rename_i empty
      cases found
      simp [empty]
    · cases found
  | cons char rest ih =>
    simp only [findFrom] at found
    split at found
    · rename_i here
      cases found
      have short := (List.isPrefixOf_iff_prefix.mp here).length_le
      exact ⟨Nat.le_refl _, by omega⟩
    · obtain ⟨lower, upper⟩ := ih found
      simp only [List.length_cons]
      omega

theorem findText_bounds (within : start ≤ text.length) (found : findText text sep start = some idx) :
    start ≤ idx ∧ idx + sep.length ≤ text.length := by
  obtain ⟨lower, upper⟩ := findFrom_bounds found
  rw [List.length_drop] at upper
  omega

theorem splitLoop_pieces (nonempty : sep ≠ []) (enough : text.length < start + rounds)
    (within : start ≤ text.length) : Pieces text start (splitLoop text sep rounds start) := by
  induction rounds generalizing start with
  | zero => omega
  | succ rounds ih =>
    simp only [splitLoop]
    split
    · simp only [Pieces, List.length_drop, slice, Nat.add_sub_cancel' within, List.take_length,
        and_self]
    · rename_i idx found
      obtain ⟨lower, upper⟩ := findText_bounds within found
      have positive := List.length_pos_iff.mpr nonempty
      have len : (slice text start (idx + sep.length)).length = idx + sep.length - start := by
        rw [length_slice, Nat.min_eq_left upper]
      have next : start + (slice text start (idx + sep.length)).length = idx + sep.length := by
        omega
      exact ⟨rfl, by rw [next], by rw [next]; exact ih (by omega) upper⟩

theorem zipIdx_pieces (front back : Text) :
    Pieces (front ++ back) front.length
      ((back.zipIdx front.length).map fun entry => (entry.2, [entry.1])) := by
  induction back generalizing front with
  | nil => simp [Pieces]
  | cons char rest ih =>
    have later := ih (front ++ [char])
    simp only [List.append_assoc, List.singleton_append, List.length_append, List.length_singleton]
      at later
    refine ⟨rfl, ?_, later⟩
    simp [slice, List.take_append]

theorem splitWithPositions_pieces (text sep : Text) :
    Pieces text 0 (splitWithPositions text sep) := by
  unfold splitWithPositions
  split
  · exact zipIdx_pieces [] text
  · rename_i nonempty
    exact splitLoop_pieces (by simpa using nonempty) (by omega) (Nat.zero_le _)

theorem splitWithPositions_nil_length (member : piece ∈ splitWithPositions text []) :
    piece.2.length = 1 := by
  simp only [splitWithPositions, List.isEmpty_nil, ↓reduceIte, List.mem_map] at member
  obtain ⟨entry, _, same⟩ := member
  subst same
  rfl

/-! Greedy assembly. -/

/-- No span is longer than `size`. -/
def Fits (size : Nat) (spans : List Span) : Prop := ∀ span ∈ spans, span.2 ≤ span.1 + size

theorem Fits.append (first : Fits size front) (second : Fits size back) :
    Fits size (front ++ back) := by
  intro span member
  rcases List.mem_append.mp member with earlier | later
  · exact first span earlier
  · exact second span later

/-- The loop invariant: closed windows tile the text up to the open one, which
reaches from its start to the position of the loop. -/
def Assembled (size position : Nat) (state : Assembly) : Prop :=
  Fits size state.windows ∧
    match state.curStart with
    | none => Tiles 0 position state.windows
    | some start =>
      Tiles 0 start state.windows ∧ start < position ∧ state.curEnd = position ∧
        start + state.curLen = position ∧ state.curLen ≤ size

theorem startWindow_assembled (fits : Fits size windows) (tiles : Tiles 0 start windows)
    (positive : 0 < len)
    (expands : size < len →
      Tiles start (start + len) (expand start (start + len)) ∧ Fits size (expand start (start + len))) :
    Assembled size (start + len) (startWindow size expand windows start len) := by
  unfold startWindow
  split
  · rename_i oversized
    obtain ⟨expanded, small⟩ := expands oversized
    exact ⟨fits.append small, tiles.append expanded⟩
  · rename_i small
    exact ⟨fits, tiles, by omega, rfl, rfl, Nat.not_lt.mp small⟩

theorem assembleStep_assembled (invariant : Assembled size piece.1 state)
    (expands : size < piece.2.length →
      Tiles piece.1 (piece.1 + piece.2.length) (expand piece.1 (piece.1 + piece.2.length)) ∧
        Fits size (expand piece.1 (piece.1 + piece.2.length))) :
    Assembled size (piece.1 + piece.2.length) (assembleStep size expand state piece) := by
  obtain ⟨fits, shape⟩ := invariant
  unfold assembleStep
  split
  · rename_i empty
    simp only [List.isEmpty_iff] at empty
    simpa [empty] using ⟨fits, shape⟩
  · rename_i nonempty
    have positive : 0 < piece.2.length := List.length_pos_iff.mpr (by simpa using nonempty)
    split
    · rename_i closed
      simp only [closed] at shape
      exact startWindow_assembled fits shape positive expands
    · rename_i curStart opened
      simp only [opened] at shape
      obtain ⟨tiles, nonempty, reached, len, bounded⟩ := shape
      split
      · rename_i room
        refine ⟨fits, ?_⟩
        simp only [opened]
        exact ⟨tiles, by omega, trivial, by omega, room⟩
      · have closing : Fits size [(curStart, state.curEnd)] := by
          intro span member
          rw [List.mem_singleton.mp member]
          simp only
          omega
        rw [reached] at closing ⊢
        exact startWindow_assembled (fits.append closing) (tiles.snoc nonempty) positive expands

theorem assemble_fold (pieces : List (Nat × Text)) (split : Pieces text lo pieces)
    (invariant : Assembled size lo state)
    (expands : ∀ piece ∈ pieces, size < piece.2.length →
      piece.2 = slice text piece.1 (piece.1 + piece.2.length) →
      Tiles piece.1 (piece.1 + piece.2.length) (expand piece.1 (piece.1 + piece.2.length)) ∧
        Fits size (expand piece.1 (piece.1 + piece.2.length))) :
    Assembled size text.length (pieces.foldl (assembleStep size expand) state) := by
  induction pieces generalizing lo state with
  | nil =>
    rw [← split]
    exact invariant
  | cons piece rest ih =>
    obtain ⟨start, content, remaining⟩ := split
    subst start
    have next := assembleStep_assembled invariant
      fun oversized => expands piece (by simp) oversized content
    exact ih remaining next fun other member => expands other (by simp [member])

theorem assemble_tiles (pieces : List (Nat × Text)) (split : Pieces text 0 pieces)
    (expands : ∀ piece ∈ pieces, size < piece.2.length →
      piece.2 = slice text piece.1 (piece.1 + piece.2.length) →
      Tiles piece.1 (piece.1 + piece.2.length) (expand piece.1 (piece.1 + piece.2.length)) ∧
        Fits size (expand piece.1 (piece.1 + piece.2.length))) :
    Tiles 0 text.length (assemble size expand pieces) ∧ Fits size (assemble size expand pieces) := by
  have initial : Assembled size 0 ⟨[], none, 0, 0⟩ := ⟨by simp [Fits], rfl⟩
  obtain ⟨fits, shape⟩ := assemble_fold pieces split initial expands
  unfold assemble Assembly.close
  split
  · rename_i closed
    simp only [closed] at shape
    exact ⟨shape, fits⟩
  · rename_i start opened
    simp only [opened] at shape
    obtain ⟨tiles, nonempty, reached, len, bounded⟩ := shape
    rw [reached]
    refine ⟨tiles.snoc nonempty, fits.append ?_⟩
    intro span member
    rw [List.mem_singleton.mp member]
    simp only
    omega

/-! Overlap. -/

/-- Every span but the first starts `overlap` positions earlier, or at 0. -/
def rewound (overlap : Nat) : List Span → List Span
  | [] => []
  | first :: rest => first :: rest.map fun span => (span.1 - overlap, span.2)

theorem rewound_zero (spans : List Span) : rewound 0 spans = spans := by
  cases spans <;> simp [rewound]

/-- On windows from 0 on, the first is rewound like the others: it stays at 0. -/
theorem rewound_eq (tiles : Tiles 0 hi spans) (overlap : Nat) :
    rewound overlap spans = spans.map fun span => (span.1 - overlap, span.2) := by
  cases spans with
  | nil => rfl
  | cons first rest =>
    have same : first.1 - overlap = first.1 := by
      rw [tiles.1]
      exact Nat.zero_sub overlap
    rw [rewound, List.map_cons, same]

/-- The chunks of a list of ranges, numbered in order. -/
def chunksFrom (text : Text) (index : Nat) (spans : List Span) : List Chunk :=
  (spans.zipIdx index).map fun entry =>
    { text := slice text entry.1.1 entry.1.2
      chunkIndex := entry.2
      charStart := entry.1.1
      charEnd := entry.1.2 }

theorem chunksFrom_ranges (text : Text) (index : Nat) (spans : List Span) :
    (chunksFrom text index spans).map (fun chunk => (chunk.charStart, chunk.charEnd)) = spans := by
  simp [chunksFrom, Function.comp_def]

theorem overlapStep_append (overlap cursor : Nat) (text : Text) (out : List Chunk) (span : Span)
    (index start : Nat)
    (begins : (if index = 0 ∨ overlap = 0 then span.1 else min cursor span.1 - overlap) = start)
    (beyond : ∀ last ∈ out.getLast?, last.charEnd < span.2)
    (nonempty : start < span.2) (within : span.2 ≤ text.length) :
    overlapStep overlap text (out, cursor) (span, index) =
      (out ++ [⟨slice text start span.2, out.length, start, span.2⟩], span.2) := by
  have kept : subsumed out start span.2 = false := by
    unfold subsumed
    split
    · rfl
    · rename_i last found
      have further := beyond last (by simp [found])
      simp only [Bool.and_eq_false_iff, decide_eq_false_iff_not]
      right
      omega
  have filled : (slice text start span.2).isEmpty = false := by
    have positive : (slice text start span.2).length ≠ 0 := by
      rw [length_slice]
      omega
    cases cut : slice text start span.2 with
    | nil => simp [cut] at positive
    | cons _ _ => rfl
  simp [overlapStep, begins, kept, filled]

theorem overlap_fold (overlap : Nat) (text : Text) (windows : List Span) (out : List Chunk)
    (tiles : Tiles lo hi windows) (within : hi ≤ text.length) (positive : 0 < out.length)
    (reached : ∀ last ∈ out.getLast?, last.charEnd = lo) :
    ((windows.zipIdx out.length).foldl (overlapStep overlap text) (out, lo)).1 =
      out ++ chunksFrom text out.length (windows.map fun span => (span.1 - overlap, span.2)) := by
  induction windows generalizing lo out with
  | nil => simp [chunksFrom]
  | cons span rest ih =>
    obtain ⟨start, nonempty, remaining⟩ := tiles
    have begins : (if out.length = 0 ∨ overlap = 0 then span.1 else min lo span.1 - overlap) =
        span.1 - overlap := by
      split
      · rename_i first
        rcases first with empty | none
        · omega
        · rw [none, Nat.sub_zero]
      · rw [start, Nat.min_self]
    have upper := remaining.le
    have grown := overlapStep_append overlap lo text out span out.length (span.1 - overlap) begins
      (fun last found => by rw [reached last found]; exact nonempty) (by omega) (by omega)
    have later := ih (out ++ [⟨slice text (span.1 - overlap) span.2, out.length, span.1 - overlap, span.2⟩])
      remaining (by simp) (by simp)
    rw [List.zipIdx_cons, List.foldl_cons, grown]
    simp only [List.length_append, List.length_singleton] at later
    rw [later]
    simp [chunksFrom, List.zipIdx_cons]

/-- On windows that tile the text no guard of `_add_overlap` fires. -/
theorem addOverlap_eq (text : Text) (windows : List Span) (tiles : Tiles 0 text.length windows) :
    addOverlap overlap windows text = chunksFrom text 0 (rewound overlap windows) := by
  cases windows with
  | nil => simp [addOverlap, rewound, chunksFrom]
  | cons span rest =>
    obtain ⟨start, nonempty, remaining⟩ := tiles
    have upper := remaining.le
    have first := overlapStep_append overlap 0 text [] span 0 span.1
      (by simp) (by simp) (by omega) upper
    have later := overlap_fold overlap text rest
      ([] ++ [⟨slice text span.1 span.2, 0, span.1, span.2⟩])
      remaining (Nat.le_refl _) (by simp) (by simp)
    simp only [List.length_nil] at first
    simp only [addOverlap, List.zipIdx_cons, List.foldl_cons, first]
    simp only [List.nil_append, List.length_singleton, Nat.zero_add] at later ⊢
    rw [later]
    simp [rewound, chunksFrom, List.zipIdx_cons]

/-! The recursion on finer separators. -/

/-- The depth at which a list of separators is used up. -/
def Enough (depth : Nat) (separators : List Text) : Prop :=
  separators.length + 2 ≤ depth ∨ (1 ≤ depth ∧ separators = [[]])

theorem pickSeparator_mem (nonempty : pickSeparator separators text ≠ []) :
    pickSeparator separators text ∈ separators := by
  unfold pickSeparator at nonempty ⊢
  cases picked : separators.find? fun sep => sep.isEmpty || occursIn sep text with
  | none => simp [picked] at nonempty
  | some sep => simpa using List.mem_of_find?_eq_some picked

theorem finerSeparators_enough (enough : Enough (depth + 1) separators)
    (member : sep ∈ separators) (nonempty : sep ≠ []) :
    Enough depth (finerSeparators separators sep) := by
  have deep : separators.length + 1 ≤ depth := by
    rcases enough with deep | ⟨_, last⟩
    · omega
    · rw [last] at member
      exact absurd (List.mem_singleton.mp member) nonempty
  have positive := List.length_pos_of_mem member
  unfold finerSeparators
  cases found : separators.idxOf? sep with
  | none => exact absurd member (List.idxOf?_eq_none_iff.mp found)
  | some idx =>
    simp only
    split
    · exact .inr ⟨by omega, rfl⟩
    · left
      rw [List.length_drop]
      omega

theorem chunkWith_zero_ranges (build : Text → List Span) (piece : Text)
    (tiles : Tiles 0 piece.length (build piece)) :
    (chunkWith 0 build piece).map (fun chunk => (chunk.charStart, chunk.charEnd)) =
      build piece := by
  unfold chunkWith
  split
  · rename_i empty
    simp only [List.isEmpty_iff] at empty
    subst empty
    exact (tiles.nil_iff.mpr rfl).symm
  · rw [addOverlap_eq piece _ tiles, rewound_zero, chunksFrom_ranges]

theorem expandOversized_eq (build : List Text → Text → List Span) (separators : List Text)
    (sep : Text) (tiles : Tiles 0 (slice text start stop).length
      (build (finerSeparators separators sep) (slice text start stop))) :
    expandOversized build separators text sep start stop =
      shift start (build (finerSeparators separators sep) (slice text start stop)) := by
  rw [expandOversized, ← chunkWith_zero_ranges _ _ tiles, shift, List.map_map]
  rfl

theorem Fits.shift (fits : Fits size spans) (distance : Nat) :
    Fits size (Foundation.shift distance spans) := by
  intro span member
  obtain ⟨original, present, same⟩ := List.mem_map.mp member
  subst same
  have bound := fits original present
  simp only
  omega

/-- Expanding a piece tiles it when the windows of its sub-chunker tile its text. -/
theorem expandOversized_tiles {build : List Text → Text → List Span} {piece : Nat × Text}
    (built : Tiles 0 (slice text piece.1 (piece.1 + piece.2.length)).length
        (build (finerSeparators separators sep) (slice text piece.1 (piece.1 + piece.2.length))) ∧
      Fits size
        (build (finerSeparators separators sep) (slice text piece.1 (piece.1 + piece.2.length))))
    (content : piece.2 = slice text piece.1 (piece.1 + piece.2.length)) :
    Tiles piece.1 (piece.1 + piece.2.length)
        (expandOversized build separators text sep piece.1 (piece.1 + piece.2.length)) ∧
      Fits size (expandOversized build separators text sep piece.1 (piece.1 + piece.2.length)) := by
  obtain ⟨tiles, fits⟩ := built
  rw [expandOversized_eq build separators sep tiles]
  have len := congrArg List.length content
  have shifted := tiles.shift piece.1
  rw [← len] at shifted
  exact ⟨shifted, fits.shift piece.1⟩

/-- Windows tile the text and fit the chunk size, at every recursion level. -/
theorem buildWindows_tiles (positive : 0 < size) (enough : Enough depth separators) (text : Text) :
    Tiles 0 text.length (buildWindows size depth separators text) ∧
      Fits size (buildWindows size depth separators text) := by
  induction depth generalizing separators text with
  | zero =>
    rcases enough with deep | ⟨deep, _⟩ <;> omega
  | succ depth ih =>
    apply assemble_tiles _ (splitWithPositions_pieces text _)
    intro piece member oversized content
    by_cases finest : pickSeparator separators text = []
    · -- single characters are never oversized
      rw [finest] at member
      have single := splitWithPositions_nil_length member
      omega
    · have deeper := finerSeparators_enough enough (pickSeparator_mem finest) finest
      exact expandOversized_tiles (ih deeper _) content

end Chunking

namespace RecursiveCharacterChunker

open Foundation Chunking

theorem enough (chunker : RecursiveCharacterChunker) : Enough chunker.depth chunker.separators :=
  .inl (Nat.le_refl _)

/-- The windows a chunker finds in a text. -/
def windows (chunker : RecursiveCharacterChunker) (text : Text) : List Span :=
  buildWindows chunker.chunkSize chunker.depth chunker.separators text

theorem windows_tiles (chunker : RecursiveCharacterChunker) (text : Text) :
    Tiles 0 text.length (chunker.windows text) :=
  (buildWindows_tiles chunker.size_pos chunker.enough text).1

theorem windows_fit (chunker : RecursiveCharacterChunker) (text : Text) :
    Fits chunker.chunkSize (chunker.windows text) :=
  (buildWindows_tiles chunker.size_pos chunker.enough text).2

/-- The chunks of a text are its rewound windows, numbered in order. -/
theorem chunk_eq (chunker : RecursiveCharacterChunker) (text : Text) :
    chunker.chunk text =
      chunksFrom text 0 (rewound chunker.chunkOverlap (chunker.windows text)) := by
  have tiles := chunker.windows_tiles text
  unfold chunk chunkWith
  split
  · rename_i empty
    simp only [List.isEmpty_iff] at empty
    subst empty
    rw [tiles.nil_iff.mpr rfl]
    rfl
  · exact addOverlap_eq text _ tiles

end RecursiveCharacterChunker

end DocContext
