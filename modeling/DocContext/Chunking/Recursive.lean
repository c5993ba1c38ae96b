import DocContext.Foundation.Tiling

/-! The recursive character chunker: split on the coarsest separator that
occurs, assemble pieces greedily into windows, recurse on oversized pieces and
rewind every window but the first by the overlap. -/

namespace DocContext

open Foundation

/-- A Python `str` the program slices, as its sequence of code points. -/
abbrev Text := List Char

structure Chunk where
  text : Text
  chunkIndex : Nat
  charStart : Nat
  charEnd : Nat
deriving DecidableEq, Repr

namespace Chunking

/-- `_DEFAULT_SEPARATORS`, from the coarsest to the finest boundary. -/
def defaultSeparators : List Text :=
  [['\n', '\n'], ['\n'], ['.', ' '], [' '], []]

/-- Leftmost occurrence of `sep`, scanning from `position`. -/
def findFrom (sep : Text) : Text → Nat → Option Nat
  | [], position => if sep.isEmpty then some position else none
  | char :: rest, position =>
    if sep.isPrefixOf (char :: rest) then some position else findFrom sep rest (position + 1)

/-- `text.find(sep, start)`, with `none` for `-1`. -/
def findText (text sep : Text) (start : Nat) : Option Nat := findFrom sep (text.drop start) start

/-- `sep in text`. -/
def occursIn (sep text : Text) : Bool := (findText text sep 0).isSome

def pickSeparator (separators : List Text) (text : Text) : Text :=
  (separators.find? fun sep => sep.isEmpty || occursIn sep text).getD []

/-- The `while True` loop of `_split_with_positions` for a nonempty separator,
which moves `start` forward in every round. -/
def splitLoop (text sep : Text) : Nat → Nat → List (Nat × Text)
  | 0, _ => []
  | rounds + 1, start =>
    match findText text sep start with
    | none => [(start, text.drop start)]
    | some idx =>
      (start, slice text start (idx + sep.length)) ::
        splitLoop text sep rounds (idx + sep.length)

def splitWithPositions (text sep : Text) : List (Nat × Text) :=
  if sep.isEmpty then text.zipIdx.map fun entry => (entry.2, [entry.1])
  else splitLoop text sep (text.length + 1) 0

/-- The loop variables of `_build_windows`. -/
structure Assembly where
  windows : List Span
  curStart : Option Nat
  curEnd : Nat
  curLen : Nat

/-- Start a window at a piece, or expand the piece when it is oversized. -/
def startWindow (chunkSize : Nat) (expand : Nat → Nat → List Span) (windows : List Span)
    (start len : Nat) : Assembly :=
  if len > chunkSize then ⟨windows ++ expand start (start + len), none, 0, 0⟩
  else ⟨windows, some start, start + len, len⟩

def assembleStep (chunkSize : Nat) (expand : Nat → Nat → List Span) (state : Assembly)
    (piece : Nat × Text) : Assembly :=
  if piece.2.isEmpty then state
  else
    match state.curStart with
    | none => startWindow chunkSize expand state.windows piece.1 piece.2.length
    | some curStart =>
      if state.curLen + piece.2.length ≤ chunkSize then
        { state with
          curEnd := piece.1 + piece.2.length
          curLen := state.curLen + piece.2.length }
      else
        startWindow chunkSize expand (state.windows ++ [(curStart, state.curEnd)])
          piece.1 piece.2.length

/-- The windows once the pieces are used up. -/
def Assembly.close (state : Assembly) : List Span :=
  match state.curStart with
  | none => state.windows
  | some curStart => state.windows ++ [(curStart, state.curEnd)]

def assemble (chunkSize : Nat) (expand : Nat → Nat → List Span) (pieces : List (Nat × Text)) :
    List Span :=
  (pieces.foldl (assembleStep chunkSize expand) ⟨[], none, 0, 0⟩).close

/-- The guard against a chunk that is a subset of its predecessor. -/
def subsumed (out : List Chunk) (start stop : Nat) : Bool :=
  match out.getLast? with
  | none => false
  | some last => decide (start ≤ last.charStart) && decide (stop ≤ last.charEnd)

/-- One round of `_add_overlap`. The subtraction stops at 0, as the clamp does. -/
def overlapStep (chunkOverlap : Nat) (text : Text) (state : List Chunk × Nat)
    (entry : Span × Nat) : List Chunk × Nat :=
  let start :=
    if entry.2 = 0 ∨ chunkOverlap = 0 then entry.1.1
    else min state.2 entry.1.1 - chunkOverlap
  if subsumed state.1 start entry.1.2 then state
  else if (slice text start entry.1.2).isEmpty then state
  else
    (state.1 ++ [{
      text := slice text start entry.1.2
      chunkIndex := state.1.length
      charStart := start
      charEnd := entry.1.2 }], entry.1.2)

def addOverlap (chunkOverlap : Nat) (windows : List Span) (text : Text) : List Chunk :=
  (windows.zipIdx.foldl (overlapStep chunkOverlap text) ([], 0)).1

/-- `chunk`, given the `_build_windows` it calls. -/
def chunkWith (chunkOverlap : Nat) (build : Text → List Span) (text : Text) : List Chunk :=
  if text.isEmpty then [] else addOverlap chunkOverlap (build text) text

/-- The separators of the sub-chunker for a piece cut on `parentSep`. -/
def finerSeparators (separators : List Text) (parentSep : Text) : List Text :=
  let finer :=
    match separators.idxOf? parentSep with
    | some idx => separators.drop (idx + 1)
    | none => [[]]
  if finer.isEmpty then [[]] else finer

/-- `_expand_oversized`: run a sub-chunker without overlap on one piece and
shift its ranges to the piece's position. -/
def expandOversized (build : List Text → Text → List Span) (separators : List Text) (text : Text)
    (parentSep : Text) (start stop : Nat) : List Span :=
  (chunkWith 0 (build (finerSeparators separators parentSep)) (slice text start stop)).map
    fun chunk => (start + chunk.charStart, start + chunk.charEnd)

/-- `_build_windows`, to a bounded depth of sub-chunkers. -/
def buildWindows (chunkSize : Nat) : Nat → List Text → Text → List Span
  | 0, _, _ => []
  | depth + 1, separators, text =>
    assemble chunkSize
      (expandOversized (buildWindows chunkSize depth) separators text (pickSeparator separators text))
      (splitWithPositions text (pickSeparator separators text))

end Chunking

open Chunking

/-- A constructed chunker: the checks of `__init__` hold of its parameters. -/
structure RecursiveCharacterChunker where
  chunkSize : Nat
  chunkOverlap : Nat
  separators : List Text := defaultSeparators
  size_pos : 0 < chunkSize
  overlap_lt : chunkOverlap < chunkSize

/-- Each sub-chunker has fewer separators, and the last one splits into single
characters, so this depth is never used up. -/
def RecursiveCharacterChunker.depth (chunker : RecursiveCharacterChunker) : Nat :=
  chunker.separators.length + 2

def RecursiveCharacterChunker.chunk (chunker : RecursiveCharacterChunker) (text : Text) :
    List Chunk :=
  chunkWith chunker.chunkOverlap
    (buildWindows chunker.chunkSize chunker.depth chunker.separators) text

end DocContext
