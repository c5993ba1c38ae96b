import DocContext.Services.QueryService

/-! The citations of a whole-document answer, next to the documents the answer is
asked of: the same documents in the same order, each with the span of its chunks. -/

namespace DocContext

open Foundation

/-- The citation of one document. -/
def documentCitation (chunks : List RetrievedChunk) (documentId : String) : Citation :=
  (gather RetrievedChunk.documentId widenCitation chunks documentId).getD
    ⟨documentId, "", 0, 0, 0, .finite 0⟩

/-- A citation names the document and the corpus of some chunks, and reaches from
the first of their positions and indexes to the last position. -/
structure Spans (chunks : List RetrievedChunk) (citation : Citation) : Prop where
  document : ∀ chunk ∈ chunks, chunk.documentId = citation.documentId
  corpus : ∃ chunk ∈ chunks, chunk.corpusId = citation.corpusId
  chunkIndex : IsLeast (RetrievedChunk.chunkIndex '' {chunk | chunk ∈ chunks}) citation.chunkIndex
  charStart : IsLeast (RetrievedChunk.charStart '' {chunk | chunk ∈ chunks}) citation.charStart
  charEnd : IsGreatest (RetrievedChunk.charEnd '' {chunk | chunk ∈ chunks}) citation.charEnd
  score : citation.score = .finite 0

theorem mem_snoc (chunks : List RetrievedChunk) (chunk : RetrievedChunk) :
    {other | other ∈ chunks ++ [chunk]} = insert chunk {other | other ∈ chunks} := by
  ext other
  simp [or_comm]

theorem spans_first (chunk : RetrievedChunk) : Spans [chunk] (widenCitation chunk none) := by
  constructor <;> simp [widenCitation]

/-- A chunk of the document widens its citation. -/
theorem Spans.widen {chunks : List RetrievedChunk} {citation : Citation}
    (spans : Spans chunks citation) {chunk : RetrievedChunk}
    (own : chunk.documentId = citation.documentId) :
    Spans (chunks ++ [chunk]) (widenCitation chunk (some citation)) := by
  constructor
  · intro other member
    rcases List.mem_append.mp member with earlier | last
    · exact spans.document other earlier
    · rw [List.mem_singleton.mp last]
      exact own
  · obtain ⟨other, member, same⟩ := spans.corpus
    exact ⟨other, List.mem_append_left _ member, same⟩
  · rw [mem_snoc, Set.image_insert_eq]
    change IsLeast _ (min citation.chunkIndex chunk.chunkIndex)
    rw [min_comm]
    exact spans.chunkIndex.insert _
  · rw [mem_snoc, Set.image_insert_eq]
    change IsLeast _ (min citation.charStart chunk.charStart)
    rw [min_comm]
    exact spans.charStart.insert _
  · rw [mem_snoc, Set.image_insert_eq]
    change IsGreatest _ (max citation.charEnd chunk.charEnd)
    rw [max_comm]
    exact spans.charEnd.insert _
  · exact spans.score

theorem gather_spans {chunks : List RetrievedChunk} {documentId : String}
    (present : ∃ chunk ∈ chunks, chunk.documentId = documentId) :
    gather RetrievedChunk.documentId widenCitation chunks documentId =
        some (documentCitation chunks documentId) ∧
      (documentCitation chunks documentId).documentId = documentId ∧
      Spans (ofDocument documentId chunks) (documentCitation chunks documentId) := by
  obtain ⟨citation, gathered, named, spans⟩ := gather_holds
    (fun (own : List RetrievedChunk) (citation : Citation) =>
      citation.documentId = documentId ∧ Spans own citation)
    RetrievedChunk.documentId widenCitation present
    (fun chunk own => ⟨own, spans_first chunk⟩)
    (fun _ _ _ own held => ⟨held.1, held.2.widen (own.trans held.1.symm)⟩)
  rw [documentCitation, gathered]
  exact ⟨rfl, named, spans⟩

theorem documentSpans_eq (chunks : List RetrievedChunk) :
    documentSpans chunks =
      (chunks.map RetrievedChunk.documentId).eraseDups.map (documentCitation chunks) := by
  rw [documentSpans, collect_eq RetrievedChunk.documentId widenCitation chunks
    (documentCitation chunks) fun chunk member => (gather_spans ⟨chunk, member, rfl⟩).1,
    List.map_map]
  rfl

theorem documentSpans_keys (chunks : List RetrievedChunk) :
    (documentSpans chunks).map Citation.documentId =
      (chunks.map RetrievedChunk.documentId).eraseDups := by
  rw [documentSpans_eq, List.map_map]
  refine (List.map_congr_left fun documentId member => ?_).trans (List.map_id _)
  have present := List.mem_map.mp (List.mem_eraseDups.mp member)
  exact (gather_spans present).2.1

theorem mem_documentSpans {chunks : List RetrievedChunk} {citation : Citation}
    (member : citation ∈ documentSpans chunks) :
    (∃ chunk ∈ chunks, chunk.documentId = citation.documentId) ∧
      citation = documentCitation chunks citation.documentId := by
  rw [documentSpans_eq] at member
  obtain ⟨documentId, listed, same⟩ := List.mem_map.mp member
  have present := List.mem_map.mp (List.mem_eraseDups.mp listed)
  have named := (gather_spans present).2.1
  rw [same] at named
  subst named
  exact ⟨present, same.symm⟩

/-- The chunks of a document are all of one corpus. -/
def OneCorpus (chunks : List RetrievedChunk) : Prop :=
  ∀ first ∈ chunks, ∀ second ∈ chunks, first.documentId = second.documentId →
    first.corpusId = second.corpusId

/-- No two chunks of a document have the same index. -/
def DistinctIndexes (chunks : List RetrievedChunk) : Prop :=
  chunks.Pairwise fun first second => first.documentId = second.documentId →
    first.chunkIndex ≠ second.chunkIndex

section Permuted

variable {chunks permuted : List RetrievedChunk} {documentId : String}

/-- The span of some chunks of one corpus depends on which chunks there are. -/
theorem Spans.unique {citation other : Citation} (spans : Spans chunks citation)
    (spans' : Spans permuted other) (same : ∀ chunk, chunk ∈ chunks ↔ chunk ∈ permuted)
    (corpus : ∀ first ∈ chunks, ∀ second ∈ chunks, first.corpusId = second.corpusId) :
    citation = other := by
  have sets : {chunk | chunk ∈ chunks} = {chunk | chunk ∈ permuted} := Set.ext same
  obtain ⟨first, member, own⟩ := spans.corpus
  obtain ⟨second, member', own'⟩ := spans'.corpus
  have document := (spans.document first member).symm.trans
    (spans'.document first ((same first).mp member))
  have corpora := corpus first member second ((same second).mpr member')
  have index := spans'.chunkIndex
  have start := spans'.charStart
  have stop := spans'.charEnd
  rw [← sets] at index start stop
  obtain ⟨_, _, _, _, _, _⟩ := citation
  obtain ⟨_, _, _, _, _, _⟩ := other
  rw [Citation.mk.injEq]
  exact ⟨document, own.symm.trans (corpora.trans own'), spans.chunkIndex.unique index,
    spans.charStart.unique start, spans.charEnd.unique stop, spans.score.trans spans'.score.symm⟩

theorem mem_ofDocument {chunk : RetrievedChunk} :
    chunk ∈ ofDocument documentId chunks ↔ chunk ∈ chunks ∧ chunk.documentId = documentId := by
  rw [ofDocument, List.mem_filter, decide_eq_true_eq]

theorem documentCitation_perm (perm : chunks.Perm permuted) (corpus : OneCorpus chunks)
    (present : ∃ chunk ∈ chunks, chunk.documentId = documentId) :
    documentCitation chunks documentId = documentCitation permuted documentId := by
  obtain ⟨chunk, member, own⟩ := present
  have spans := (gather_spans ⟨chunk, member, own⟩).2.2
  have spans' := (gather_spans ⟨chunk, perm.mem_iff.mp member, own⟩).2.2
  apply spans.unique spans'
  · intro other
    rw [mem_ofDocument, mem_ofDocument, perm.mem_iff]
  · intro first one second two
    obtain ⟨one, named⟩ := mem_ofDocument.mp one
    obtain ⟨two, named'⟩ := mem_ofDocument.mp two
    exact corpus first one second two (named.trans named'.symm)

theorem assembleDocument_ofDocument_perm (perm : chunks.Perm permuted)
    (distinct : DistinctIndexes chunks) (documentId : String) :
    assembleDocument (ofDocument documentId chunks) =
      assembleDocument (ofDocument documentId permuted) := by
  apply assembleDocument_perm (perm.filter _)
  refine (List.Pairwise.filter _ distinct).imp_of_mem ?_
  intro first second one two differ
  exact differ ((mem_ofDocument.mp one).2.trans (mem_ofDocument.mp two).2.symm)

/-- What is made of each document alone comes in another order, and no other way. -/
theorem perm_of_documents {made made' : String → α} (perm : chunks.Perm permuted)
    (same : ∀ documentId, (∃ chunk ∈ chunks, chunk.documentId = documentId) →
      made documentId = made' documentId) :
    ((chunks.map RetrievedChunk.documentId).eraseDups.map made).Perm
      ((permuted.map RetrievedChunk.documentId).eraseDups.map made') := by
  have documents := eraseDups_perm (perm.map RetrievedChunk.documentId)
  have alike : (chunks.map RetrievedChunk.documentId).eraseDups.map made =
      (chunks.map RetrievedChunk.documentId).eraseDups.map made' := by
    apply List.map_congr_left
    intro documentId member
    exact same documentId (List.mem_map.mp (List.mem_eraseDups.mp member))
  rw [alike]
  exact documents.map made'

end Permuted

/-- All the chunks of a text span it. -/
theorem Spans.whole (chunker : RecursiveCharacterChunker) {text : Text} (nonempty : text ≠ [])
    {docChunks : List RetrievedChunk} {citation : Citation} (spans : Spans docChunks citation)
    (all : ∀ chunk, chunk ∈ docChunks.map RetrievedChunk.toChunk ↔ chunk ∈ chunker.chunk text) :
    citation.charStart = 0 ∧ citation.charEnd = text.length := by
  have positive := List.length_pos_iff.mpr nonempty
  have last : text.length - 1 < text.length := by omega
  constructor
  · obtain ⟨chunk, member, reaches, _⟩ := chunker.chunk_covers text positive
    obtain ⟨retrieved, listed, rfl⟩ := List.mem_map.mp ((all chunk).mpr member)
    have least := spans.charStart.2 ⟨retrieved, listed, rfl⟩
    exact Nat.eq_zero_of_le_zero (least.trans reaches)
  · obtain ⟨chunk, member, _, reaches⟩ := chunker.chunk_covers text last
    obtain ⟨retrieved, listed, rfl⟩ := List.mem_map.mp ((all chunk).mpr member)
    have greatest := spans.charEnd.2 ⟨retrieved, listed, rfl⟩
    obtain ⟨widest, here, same⟩ := spans.charEnd.1
    have within := chunker.chunk_bounds text ((all _).mp (List.mem_map.mpr ⟨widest, here, rfl⟩))
    change retrieved.charEnd ≤ citation.charEnd at greatest
    change text.length - 1 < retrieved.charEnd at reaches
    change _ ∧ widest.charEnd ≤ text.length at within
    omega

/-- A document whose chunks are all there is assembled whole, and its citation spans it. -/
theorem whole_document (chunks : List RetrievedChunk) (chunker : RecursiveCharacterChunker)
    {text : Text} {documentId : String} (nonempty : text ≠ [])
    (all : ∀ chunk, chunk ∈ (ofDocument documentId chunks).map RetrievedChunk.toChunk ↔
      chunk ∈ chunker.chunk text) :
    (documentId, text) ∈ assembleDocuments chunks ∧
      ∃ citation ∈ documentSpans chunks, citation.documentId = documentId ∧
        citation.charStart = 0 ∧ citation.charEnd = text.length := by
  obtain ⟨first, emitted⟩ := List.exists_mem_of_ne_nil _ (chunker.chunk_nonempty text nonempty)
  obtain ⟨chunk, listed, _⟩ := List.mem_map.mp ((all first).mpr emitted)
  obtain ⟨member, own⟩ := mem_ofDocument.mp listed
  obtain ⟨_, named, spans⟩ := gather_spans ⟨chunk, member, own⟩
  constructor
  · have stored : ∀ chunk ∈ ofDocument documentId chunks, chunk.toChunk ∈ chunker.chunk text :=
      fun chunk member => (all _).mp (List.mem_map.mpr ⟨chunk, member, rfl⟩)
    have assembled := assembleDocument_eq_covered chunker text stored
    rw [keepPositions_all_chunks chunker text fun chunk => (all chunk).mpr] at assembled
    exact mem_assembleDocuments.mpr ⟨⟨chunk, member, own⟩, assembled.symm⟩
  · refine ⟨documentCitation chunks documentId, ?_, named, spans.whole chunker nonempty all⟩
    rw [documentSpans_eq]
    exact List.mem_map.mpr
      ⟨documentId, List.mem_eraseDups.mpr (List.mem_map.mpr ⟨chunk, member, own⟩), rfl⟩

/-- For every document some index and some start are small enough for a citation, and no end
is too large. -/
def SpansFit (chunks : List RetrievedChunk) : Prop :=
  ∀ chunk ∈ chunks, chunk.charEnd < 2 ^ 31 ∧
    (∃ other ∈ chunks, other.documentId = chunk.documentId ∧ other.charStart < 2 ^ 31) ∧
    ∃ other ∈ chunks, other.documentId = chunk.documentId ∧ other.chunkIndex < 2 ^ 31

theorem least_lt_iff {values : RetrievedChunk → Nat} {least bound : Nat}
    (isLeast : IsLeast (values '' {chunk | chunk ∈ ofDocument documentId chunks}) least) :
    least < bound ↔
      ∃ chunk ∈ chunks, chunk.documentId = documentId ∧ values chunk < bound := by
  constructor
  · intro small
    obtain ⟨chunk, member, rfl⟩ := isLeast.1
    obtain ⟨listed, own⟩ := mem_ofDocument.mp member
    exact ⟨chunk, listed, own, small⟩
  · rintro ⟨chunk, listed, own, small⟩
    exact Nat.lt_of_le_of_lt (isLeast.2 ⟨chunk, mem_ofDocument.mpr ⟨listed, own⟩, rfl⟩) small

theorem documentSpans_fit_iff {chunks : List RetrievedChunk} :
    (∀ citation ∈ documentSpans chunks, citation.Fits) ↔ SpansFit chunks := by
  constructor
  · intro fits chunk member
    obtain ⟨_, named, spans⟩ := gather_spans ⟨chunk, member, rfl⟩
    have listed : documentCitation chunks chunk.documentId ∈ documentSpans chunks := by
      rw [documentSpans_eq]
      exact List.mem_map_of_mem (List.mem_eraseDups.mpr (List.mem_map_of_mem member))
    obtain ⟨index, start, stop⟩ := fits _ listed
    have reached := spans.charEnd.2 ⟨chunk, mem_ofDocument.mpr ⟨member, rfl⟩, rfl⟩
    exact ⟨Nat.lt_of_le_of_lt reached stop, (least_lt_iff spans.charStart).mp start,
      (least_lt_iff spans.chunkIndex).mp index⟩
  · intro fits citation member
    obtain ⟨present, same⟩ := mem_documentSpans member
    have spans := (gather_spans present).2.2
    rw [← same] at spans
    obtain ⟨last, own, reaches⟩ := spans.charEnd.1
    obtain ⟨listed, document⟩ := mem_ofDocument.mp own
    obtain ⟨stop, start, index⟩ := fits last listed
    rw [document] at start index
    refine ⟨(least_lt_iff spans.chunkIndex).mpr index, (least_lt_iff spans.charStart).mpr start, ?_⟩
    rwa [← reaches]

theorem citationsForFullDoc_returns_iff {chunks : List RetrievedChunk} :
    (∃ citations, citationsForFullDoc chunks = .ok citations) ↔ SpansFit chunks := by
  rw [← documentSpans_fit_iff]
  constructor
  · rintro ⟨citations, made⟩
    exact (citationsForFullDoc_eq_ok_iff.mp made).1
  · exact fun fits => ⟨_, citationsForFullDoc_eq_ok_iff.mpr ⟨fits, rfl⟩⟩

/-- The index and the offsets of every hit are small enough for a citation. -/
def HitsFit (hits : List RetrievedChunk) : Prop :=
  ∀ chunk ∈ hits, chunk.chunkIndex < 2 ^ 31 ∧ chunk.charStart < 2 ^ 31 ∧ chunk.charEnd < 2 ^ 31

theorem citationsForSection_returns_iff {hits : List RetrievedChunk} :
    (∃ citations, citationsForSection hits = .ok citations) ↔ HitsFit hits := by
  constructor
  · rintro ⟨citations, made⟩ chunk member
    obtain ⟨index, start, stop⟩ := (citationsForSection_eq_ok_iff.mp made).1 chunk member
    exact ⟨index, start, stop⟩
  · intro fits
    refine ⟨_, citationsForSection_eq_ok_iff.mpr ⟨fun chunk member => ?_, rfl⟩⟩
    obtain ⟨index, start, stop⟩ := fits chunk member
    exact ⟨index, start, stop⟩

/-- There are citations unless a number does not fit its field. Then they agree with the
documents of the answer: the same documents in the same order and each once, each
citation the span of the chunks of its document; where the chunks of a document have
one corpus and distinct indexes another order of the chunks is no more than another
order of the documents; and where they are the chunks of a nonempty text, the citation
spans that text, which is the document. -/
theorem citations_agree (chunks : List RetrievedChunk) :
    ((∃ citations, citationsForFullDoc chunks = .ok citations) ↔ SpansFit chunks) ∧
      ∀ citations, citationsForFullDoc chunks = .ok citations →
        citations.map Citation.documentId = (assembleDocuments chunks).map Prod.fst ∧
          (citations.map Citation.documentId).Nodup ∧
          (∀ documentId, documentId ∈ citations.map Citation.documentId ↔
            ∃ chunk ∈ chunks, chunk.documentId = documentId) ∧
          (∀ citation ∈ citations, Spans (ofDocument citation.documentId chunks) citation) ∧
          (∀ permuted, chunks.Perm permuted → OneCorpus chunks → DistinctIndexes chunks →
            (∃ others, citationsForFullDoc permuted = .ok others ∧ citations.Perm others) ∧
              (assembleDocuments chunks).Perm (assembleDocuments permuted)) ∧
          ∀ (chunker : RecursiveCharacterChunker) (text : Text) (documentId : String), text ≠ [] →
            (∀ chunk, chunk ∈ (ofDocument documentId chunks).map RetrievedChunk.toChunk ↔
              chunk ∈ chunker.chunk text) →
            (documentId, text) ∈ assembleDocuments chunks ∧
              ∃ citation ∈ citations, citation.documentId = documentId ∧
                citation.charStart = 0 ∧ citation.charEnd = text.length := by
  refine ⟨citationsForFullDoc_returns_iff, fun citations made => ?_⟩
  obtain ⟨fits, rfl⟩ := citationsForFullDoc_eq_ok_iff.mp made
  have keys := documentSpans_keys chunks
  refine ⟨keys.trans (assembleDocuments_keys chunks).symm, ?_, ?_, ?_, ?_, ?_⟩
  · rw [keys]
    exact nodup_eraseDups _
  · intro documentId
    rw [keys, List.mem_eraseDups, List.mem_map]
  · intro citation member
    obtain ⟨present, same⟩ := mem_documentSpans member
    have spans := (gather_spans present).2.2
    rwa [← same] at spans
  · intro permuted perm corpus distinct
    have citations : (documentSpans chunks).Perm (documentSpans permuted) := by
      rw [documentSpans_eq, documentSpans_eq]
      exact perm_of_documents perm fun documentId present =>
        documentCitation_perm perm corpus present
    have others : citationsForFullDoc permuted = .ok (documentSpans permuted) :=
      citationsForFullDoc_eq_ok_iff.mpr
        ⟨fun citation member => fits citation (citations.mem_iff.mpr member), rfl⟩
    refine ⟨⟨_, others, citations⟩, ?_⟩
    rw [assembleDocuments_eq, assembleDocuments_eq]
    exact perm_of_documents perm fun documentId _ =>
      congrArg (Prod.mk documentId) (assembleDocument_ofDocument_perm perm distinct documentId)
  · exact fun chunker text documentId nonempty all =>
      whole_document chunks chunker nonempty all

namespace Sample

/-- A chunk of a document of the client. -/
def retrieved (chunkIndex charStart charEnd : Nat) : RetrievedChunk :=
  ⟨"id", "d", "corpus", "c", chunkIndex, charStart, charEnd, [], "txt", .finite 0⟩

end Sample

/-- Two chunks of a document, the second listed first. -/
theorem citations_agree_sample :
    ∃ citations, citationsForFullDoc [Sample.retrieved 1 6 12, Sample.retrieved 0 0 8] =
        .ok citations ∧ citations.map Citation.documentId = ["d"] := by
  have agree := citations_agree [Sample.retrieved 1 6 12, Sample.retrieved 0 0 8]
  obtain ⟨citations, made⟩ := agree.1.mpr (by simp [SpansFit, Sample.retrieved])
  exact ⟨citations, made, (agree.2 citations made).1⟩

/-- A chunk that ends beyond the field of a citation has none. -/
theorem citations_overflow :
    ¬ ∀ chunks, ∃ citations, citationsForFullDoc chunks = .ok citations ∧
      citations.map Citation.documentId = (assembleDocuments chunks).map Prod.fst := by
  intro agree
  obtain ⟨citations, made, _⟩ := agree [Sample.retrieved 0 0 (2 ^ 31)]
  have fit := citationsForFullDoc_returns_iff.mp ⟨citations, made⟩
  exact absurd (fit _ (List.mem_singleton_self _)).1 (by decide)

end DocContext
