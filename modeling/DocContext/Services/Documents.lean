import DocContext.Models
import DocContext.Chunking.Ranges
import DocContext.Foundation.OrderedDict

/-! Whole documents from retrieved chunks: group by document, sort by chunk
index and trim what overlaps. -/

namespace DocContext

open Foundation

/-- The body of the inner loop of `_assemble_documents`: `pieces` and `cursor`. -/
def appendPiece (state : List Text × Nat) (chunk : RetrievedChunk) : List Text × Nat :=
  (state.1 ++ [if chunk.charStart ≥ state.2 then chunk.text
    else chunk.text.drop (state.2 - chunk.charStart)], max state.2 chunk.charEnd)

/-- The text of one document from its chunks in any order. -/
def assembleDocument (docChunks : List RetrievedChunk) : Text :=
  let sorted := docChunks.mergeSort fun first second => decide (first.chunkIndex ≤ second.chunkIndex)
  (sorted.foldl appendPiece ([], 0)).1.flatten

/-- The `by_doc` dictionary. -/
def groupByDocument (chunks : List RetrievedChunk) : List (String × List RetrievedChunk) :=
  collect RetrievedChunk.documentId (fun chunk group => group.getD [] ++ [chunk]) chunks

def assembleDocuments (chunks : List RetrievedChunk) : List (String × Text) :=
  (groupByDocument chunks).map fun entry => (entry.1, assembleDocument entry.2)

/-- The chunks of one document, in the order of the list. -/
def ofDocument (documentId : String) (chunks : List RetrievedChunk) : List RetrievedChunk :=
  chunks.filter fun chunk => decide (chunk.documentId = documentId)

/-- Some chunk reaches over the position. -/
def coveredBy (chunks : List Chunk) (position : Nat) : Bool :=
  chunks.any fun chunk => decide (chunk.charStart ≤ position) && decide (position < chunk.charEnd)

theorem coveredBy_iff (chunks : List Chunk) (position : Nat) :
    coveredBy chunks position = true ↔
      ∃ chunk ∈ chunks, chunk.charStart ≤ position ∧ position < chunk.charEnd := by
  simp [coveredBy]

theorem assembleDocuments_eq (chunks : List RetrievedChunk) :
    assembleDocuments chunks =
      (chunks.map RetrievedChunk.documentId).eraseDups.map fun documentId =>
        (documentId, assembleDocument (ofDocument documentId chunks)) := by
  rw [assembleDocuments, groupByDocument, collect_append, List.map_map]
  rfl

theorem mem_assembleDocuments :
    (documentId, text) ∈ assembleDocuments chunks ↔
      (∃ chunk ∈ chunks, chunk.documentId = documentId) ∧
        text = assembleDocument (ofDocument documentId chunks) := by
  rw [assembleDocuments_eq, List.mem_map]
  constructor
  · rintro ⟨_, member, same⟩
    cases same
    exact ⟨List.mem_map.mp (List.mem_eraseDups.mp member), rfl⟩
  · rintro ⟨present, rfl⟩
    exact ⟨documentId, List.mem_eraseDups.mpr (List.mem_map.mpr present), rfl⟩

theorem assembleDocuments_keys (chunks : List RetrievedChunk) :
    (assembleDocuments chunks).map Prod.fst = (chunks.map RetrievedChunk.documentId).eraseDups := by
  rw [assembleDocuments_eq, List.map_map]
  exact List.map_id _

theorem filter_assembleDocuments (present : ∃ chunk ∈ chunks, chunk.documentId = documentId) :
    (assembleDocuments chunks).filter (fun entry => decide (entry.1 = documentId)) =
      [(documentId, assembleDocument (ofDocument documentId chunks))] := by
  have distinct := nodup_eraseDups (chunks.map RetrievedChunk.documentId)
  have member := List.mem_eraseDups.mpr (List.mem_map.mpr present)
  rw [assembleDocuments_eq, List.filter_map]
  have single : (chunks.map RetrievedChunk.documentId).eraseDups.filter
      (fun other => decide (other = documentId)) = [documentId] := by
    rw [List.filter_eq, List.count_eq_one_of_mem distinct member]
    rfl
  exact congrArg (List.map _) single

/-- The loop stitches the cuts its chunks carry. -/
def RetrievedChunk.cut (chunk : RetrievedChunk) : Cut Char :=
  ⟨chunk.charStart, chunk.charEnd, chunk.text⟩

theorem appendPiece_fold (chunks : List RetrievedChunk) (pieces : List Text) (cursor : Nat) :
    ((chunks.map RetrievedChunk.cut).foldl stitchStep (pieces.flatten, cursor)) =
      ((chunks.foldl appendPiece (pieces, cursor)).1.flatten,
        (chunks.foldl appendPiece (pieces, cursor)).2) := by
  induction chunks generalizing pieces cursor with
  | nil => rfl
  | cons chunk rest ih =>
    rw [List.foldl_cons, List.map_cons, List.foldl_cons, ← ih]
    congr 2
    rw [stitchStep, appendPiece]
    by_cases ahead : cursor ≤ chunk.charStart <;> simp [RetrievedChunk.cut, ahead]

theorem appendPiece_stitch (chunks : List RetrievedChunk) :
    (chunks.foldl appendPiece ([], 0)).1.flatten = stitch (chunks.map RetrievedChunk.cut) :=
  (congrArg Prod.fst (appendPiece_fold chunks [] 0)).symm

theorem sorted_ordered (docChunks : List RetrievedChunk) :
    (docChunks.mergeSort fun first second => decide (first.chunkIndex ≤ second.chunkIndex)).Pairwise
      fun first second => first.chunkIndex ≤ second.chunkIndex := by
  have pairs : (docChunks.mergeSort fun first second =>
      decide (first.chunkIndex ≤ second.chunkIndex)).Pairwise
        fun first second => decide (first.chunkIndex ≤ second.chunkIndex) = true :=
    List.pairwise_mergeSort (fun a b c => by simp only [decide_eq_true_eq]; omega)
      (fun a b => by simp only [Bool.or_eq_true, decide_eq_true_eq]; omega) docChunks
  simpa only [decide_eq_true_eq] using pairs

/-- Where no index comes twice the order of the chunks does not matter. -/
theorem assembleDocument_perm {docChunks others : List RetrievedChunk} (perm : docChunks.Perm others)
    (distinct : docChunks.Pairwise fun first second => first.chunkIndex ≠ second.chunkIndex) :
    assembleDocument docChunks = assembleDocument others := by
  have indexes : (docChunks.map RetrievedChunk.chunkIndex).Nodup := List.pairwise_map.mpr distinct
  have same : docChunks.mergeSort (fun first second => decide (first.chunkIndex ≤ second.chunkIndex)) =
      others.mergeSort fun first second => decide (first.chunkIndex ≤ second.chunkIndex) := by
    refine List.Perm.eq_of_pairwise ?_ (sorted_ordered docChunks) (sorted_ordered others)
      ((List.mergeSort_perm _ _).trans (perm.trans (List.mergeSort_perm _ _).symm))
    intro first second one two le ge
    have one := (List.mergeSort_perm _ _).mem_iff.mp one
    have two := perm.mem_iff.mpr ((List.mergeSort_perm _ _).mem_iff.mp two)
    exact List.inj_on_of_nodup_map indexes one two (Nat.le_antisymm le ge)
  unfold assembleDocument
  rw [same]

/-- Chunks of one text, in any order and with repetitions, assemble to the
characters at the positions they cover. -/
theorem assembleDocument_eq_covered (chunker : RecursiveCharacterChunker) (text : Text)
    (stored : ∀ chunk ∈ docChunks, chunk.toChunk ∈ chunker.chunk text) :
    assembleDocument docChunks =
      keepPositions text (coveredBy (docChunks.map RetrievedChunk.toChunk)) := by
  let sorted := docChunks.mergeSort fun first second => decide (first.chunkIndex ≤ second.chunkIndex)
  have perm : sorted.Perm docChunks := List.mergeSort_perm _ _
  have ordered : sorted.Pairwise fun first second => first.chunkIndex ≤ second.chunkIndex :=
    sorted_ordered docChunks
  have own : ∀ chunk ∈ sorted, chunk.toChunk ∈ chunker.chunk text :=
    fun chunk member => stored chunk (perm.mem_iff.mp member)
  have ofText : ∀ cut ∈ sorted.map RetrievedChunk.cut, cut.Of text := by
    intro cut member
    obtain ⟨chunk, present, same⟩ := List.mem_map.mp member
    subst same
    obtain ⟨nonempty, within⟩ := chunker.chunk_bounds text (own chunk present)
    exact ⟨Nat.le_of_lt nonempty, within, (chunker.mem_chunk text (own chunk present)).2⟩
  have advancing : Advancing (sorted.map RetrievedChunk.cut) := by
    refine List.pairwise_map.mpr (ordered.imp_of_mem ?_)
    intro first second one two le
    exact chunker.chunk_monotone text (own first one) (own second two) le
  have stitched := stitch_eq_covered _ ofText advancing
  rw [← appendPiece_stitch] at stitched
  refine stitched.trans (congrArg (keepPositions text) ?_)
  funext position
  apply Bool.eq_iff_iff.mpr
  rw [covered_iff, coveredBy_iff]
  constructor
  · rintro ⟨cut, member, inside⟩
    obtain ⟨chunk, present, same⟩ := List.mem_map.mp member
    subst same
    exact ⟨chunk.toChunk, List.mem_map.mpr ⟨chunk, perm.mem_iff.mp present, rfl⟩, inside⟩
  · rintro ⟨range, member, inside⟩
    obtain ⟨chunk, present, same⟩ := List.mem_map.mp member
    subst same
    exact ⟨chunk.cut, List.mem_map.mpr ⟨chunk, perm.mem_iff.mpr present, rfl⟩, inside⟩

/-- All chunks of a text cover it, so they assemble to the text itself. -/
theorem keepPositions_all_chunks (chunker : RecursiveCharacterChunker) (text : Text)
    (all : ∀ chunk ∈ chunker.chunk text, chunk ∈ chunks) :
    keepPositions text (coveredBy chunks) = text := by
  rw [keepPositions_eq_self_iff]
  intro position inside
  obtain ⟨chunk, member, found⟩ := chunker.chunk_covers text inside
  exact (coveredBy_iff _ _).mpr ⟨chunk, all chunk member, found⟩

/-- Reassembly undoes chunking: any nonempty collection of the chunks of a text,
kept as retrieved chunks of one document in any order, with repetitions and among
chunks of other documents, gives one entry for the document with exactly the
covered characters; all the chunks of a nonempty text give the text. -/
theorem assembleDocuments_roundtrip (chunker : RecursiveCharacterChunker) (text : Text)
    (documentId : String) (collected : List Chunk) (retrieved : List RetrievedChunk)
    (fromText : ∀ chunk ∈ collected, chunk ∈ chunker.chunk text)
    (stored : (ofDocument documentId retrieved).map RetrievedChunk.toChunk = collected)
    (nonempty : collected ≠ []) :
    (assembleDocuments retrieved).filter (fun entry => decide (entry.1 = documentId)) =
        [(documentId, keepPositions text (coveredBy collected))] ∧
      ((∀ chunk ∈ chunker.chunk text, chunk ∈ collected) →
        keepPositions text (coveredBy collected) = text) := by
  subst stored
  refine ⟨?_, fun all => keepPositions_all_chunks chunker text all⟩
  obtain ⟨chunk, member⟩ := List.exists_mem_of_ne_nil _ nonempty
  obtain ⟨original, present, _⟩ := List.mem_map.mp member
  obtain ⟨listed, own⟩ := List.mem_filter.mp present
  rw [filter_assembleDocuments ⟨original, listed, of_decide_eq_true own⟩]
  have assembled := assembleDocument_eq_covered chunker text fun other found =>
    fromText other.toChunk (List.mem_map.mpr ⟨other, found, rfl⟩)
  rw [assembled]

private def retrievedFrom (documentId : String) (chunk : Chunk) : RetrievedChunk where
  chunkId := documentId ++ ":" ++ toString chunk.chunkIndex
  documentId := documentId
  corpusId := "corpus"
  clientId := "client"
  chunkIndex := chunk.chunkIndex
  charStart := chunk.charStart
  charEnd := chunk.charEnd
  text := chunk.text
  fileType := "txt"
  score := .finite 0

private def smallChunker : RecursiveCharacterChunker :=
  ⟨3, 1, Chunking.defaultSeparators, by decide, by decide⟩

/-- Two overlapping chunks, the later one first and twice, around a chunk of
another document. -/
theorem assembleDocuments_roundtrip_sample :
    let front : Chunk := ⟨"ab ".toList, 0, 0, 3⟩
    let back : Chunk := ⟨" cd".toList, 1, 2, 5⟩
    (assembleDocuments
        [retrievedFrom "d" back, retrievedFrom "e" front, retrievedFrom "d" back,
          retrievedFrom "d" front]).filter (fun entry => decide (entry.1 = "d")) =
        [("d", keepPositions "ab cd".toList (coveredBy [back, back, front]))] ∧
      ((∀ chunk ∈ smallChunker.chunk "ab cd".toList, chunk ∈ [back, back, front]) →
        keepPositions "ab cd".toList (coveredBy [back, back, front]) = "ab cd".toList) := by
  intro front back
  exact assembleDocuments_roundtrip smallChunker "ab cd".toList "d" [back, back, front] _
    (by decide) (by decide) (by decide)

/-- No chunks at all give no entry, not one with an empty text. -/
theorem assembleDocuments_none :
    ¬ ∀ (chunker : RecursiveCharacterChunker) (text : Text) (documentId : String)
      (collected : List Chunk) (retrieved : List RetrievedChunk),
      (∀ chunk ∈ collected, chunk ∈ chunker.chunk text) →
      (ofDocument documentId retrieved).map RetrievedChunk.toChunk = collected →
      (assembleDocuments retrieved).filter (fun entry => decide (entry.1 = documentId)) =
        [(documentId, keepPositions text (coveredBy collected))] := by
  intro roundtrip
  have single := roundtrip smallChunker [] "d" [] [] (by simp) rfl
  cases single

end DocContext
