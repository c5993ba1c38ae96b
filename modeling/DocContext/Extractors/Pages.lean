import DocContext.Foundation.Joining
import DocContext.Extractors.Extract
import DocContext.Chunking.Boundaries
import DocContext.Workers.Runs

/-! The pages of a PDF in the chunks of its text: a blank line stands between two pages so
that the chunker can see where they end. -/

namespace DocContext

open Foundation Chunking RecursiveCharacterChunker

namespace PdfExtractor

/-- The pages that have a text, stripped. -/
def readablePages (pages : List Text) : List Text :=
  (pages.map strip).filter fun page => !page.isEmpty

theorem pageBreak_repeats : Repeats '\n' pageBreak where
  nonempty := by decide
  only := by simp [pageBreak]

theorem endsApart_strip {page : Text} (nonblank : strip page ≠ []) :
    EndsApart '\n' (strip page) := by
  have last := List.rdropWhile_last_not isWhitespace (page.dropWhile isWhitespace) nonblank
  refine ⟨_, List.getLast?_eq_some_getLast nonblank, ?_⟩
  intro newline
  apply last
  have space : isWhitespace '\n' = true := by decide
  rw [← newline] at space
  exact space

theorem endsApart_readable (pages : List Text) :
    ∀ page ∈ readablePages pages, EndsApart '\n' page := by
  intro page member
  obtain ⟨listed, nonblank⟩ := List.mem_filter.mp member
  obtain ⟨raw, _, rfl⟩ := List.mem_map.mp listed
  exact endsApart_strip (by simpa using nonblank)

theorem joinPages_split (earlier later : List Text) {page : Text} (nonblank : strip page ≠ []) :
    joinPages (earlier ++ page :: later) =
      (readablePages earlier).flatMap (· ++ pageBreak) ++ strip page ++
        (readablePages later).flatMap (pageBreak ++ ·) := by
  rw [joinPages, List.map_append, List.map_cons, List.filter_append,
    List.filter_cons_of_pos (by simpa using nonblank)]
  exact intercalate_split pageBreak _ _ _

/-- A page that was read is one of the texts that are joined. -/
theorem pageTexts_split {earlier later : List (Except PyException (Option Text))} {page : Text}
    {texts : List Text} (read : pageTexts path (earlier ++ .ok (some page) :: later) = .ok texts) :
    ∃ front back, texts = front ++ page :: back := by
  induction earlier generalizing texts with
  | nil =>
    rw [List.nil_append, pageTexts, List.mapM_cons] at read
    obtain ⟨text, here, read⟩ := bind_eq_ok_iff.mp read
    obtain ⟨back, _, same⟩ := bind_eq_ok_iff.mp read
    cases here
    cases same
    exact ⟨[], back, rfl⟩
  | cons first earlier ih =>
    rw [List.cons_append, pageTexts, List.mapM_cons] at read
    obtain ⟨text, _, read⟩ := bind_eq_ok_iff.mp read
    obtain ⟨rest, paged, same⟩ := bind_eq_ok_iff.mp read
    cases same
    obtain ⟨front, back, split⟩ := ih paged
    exact ⟨text :: front, back, by rw [split]; rfl⟩

theorem extract_ok {files : Files} {text : Text} (extracted : extract files path = .ok text)
    (read : files.pdf path = .reader pages stop) :
    ∃ texts, pageTexts path pages = .ok texts ∧ text = joinPages texts := by
  rw [extract, read] at extracted
  obtain ⟨texts, paged, joined⟩ := bind_eq_ok_iff.mp extracted
  cases stop with
  | some error => cases joined
  | none => exact ⟨texts, paged, (Except.ok.inj joined).symm⟩

/-- A page without a blank line that fits a chunk with its break lies in the range of
one. -/
theorem page_in_range (chunker : RecursiveCharacterChunker)
    (defaults : chunker.separators = defaultSeparators) (earlier later : List Text) {page : Text}
    (nonblank : strip page ≠ []) (whole : ∀ i, ¬ OccursAt (strip page) pageBreak i)
    (small : (strip page).length + 2 ≤ chunker.chunkSize) :
    ∃ front back, joinPages (earlier ++ page :: later) = front ++ strip page ++ back ∧
      ∃ chunk ∈ chunker.chunk (joinPages (earlier ++ page :: later)),
        chunk.charStart ≤ front.length ∧ front.length + (strip page).length ≤ chunk.charEnd := by
  have split := joinPages_split earlier later nonblank
  have apart := endsApart_strip nonblank
  refine ⟨_, _, split, ?_⟩
  obtain ⟨stop, segment, reached, bound⟩ := segment_part pageBreak_repeats
    (endsApart_readable earlier) apart whole (readablePages later)
  rw [← split] at segment
  have two : pageBreak.length = 2 := rfl
  by_cases broken : ∃ i, OccursAt (joinPages (earlier ++ page :: later)) blankLine i
  · obtain ⟨chunk, member, lower, upper⟩ := chunker.paragraph_in_chunk
      (joinPages (earlier ++ page :: later)) defaults broken segment (by omega)
    exact ⟨chunk, member, lower, Nat.le_trans reached upper⟩
  · -- no other page has a text
    obtain ⟨starts, ends⟩ := segment
    generalize ((readablePages earlier).flatMap (· ++ pageBreak)).length = start at *
    cases starts with
    | next _ first => exact absurd ⟨_, first.occurs⟩ broken
    | first =>
      rcases ends with ⟨i, first, _⟩ | ⟨_, full⟩
      · exact absurd ⟨i, first.occurs⟩ broken
      · have positive := apart.nonempty
        have single := chunker.windows_small (joinPages (earlier ++ page :: later)) (by omega)
          (by omega)
        obtain ⟨chunk, member, begins, reaches⟩ := chunker.window_chunk
          (joinPages (earlier ++ page :: later)) (by rw [single]; exact List.mem_singleton_self _)
        refine ⟨chunk, member, ?_, ?_⟩ <;> omega

end PdfExtractor

/-- A page of a PDF that has no blank line of its own, and fits a chunk with the break behind
it, is whole in one of the stored chunks, wherever it stands among the pages and whatever
the others hold. -/
theorem page_in_stored (env : Env) (repr : JsonValue → String) (files : Files)
    (envelope : JobEnvelope) (path : String)
    (earlier later : List (Except PyException (Option Text))) (page : Text)
    (stored : List StoredChunk) (defaults : env.chunker.separators = defaultSeparators)
    (located : envelope.filePath = some path) (key : registryKey envelope.fileType = "pdf")
    (read : files.pdf path = .reader (earlier ++ .ok (some page) :: later) none)
    (indexed : indexedChunks env (extractText repr files) envelope = .ok stored)
    (nonblank : strip page ≠ [])
    (whole : ∀ i, ¬ OccursAt (strip page) PdfExtractor.pageBreak i)
    (small : (strip page).length + 2 ≤ env.chunker.chunkSize) :
    ∃ text front back, extractText repr files path envelope.fileType = .ok text ∧
      text = front ++ strip page ++ back ∧
      ∃ chunk ∈ stored, chunk.charStart ≤ front.length ∧
        front.length + (strip page).length ≤ chunk.charEnd ∧ strip page <:+: chunk.text := by
  obtain ⟨path', text, located', found, vectors, same, rfl⟩ := indexedChunks_chunks indexed
  rw [located] at located'
  cases (Option.filter_eq_some_iff.mp located').1
  have extracted : PdfExtractor.extract files path = .ok text := by
    rw [extractText, getExtractor_of_key .pdf (by rw [key]; rfl)] at found
    exact found
  obtain ⟨texts, paged, rfl⟩ := PdfExtractor.extract_ok extracted read
  obtain ⟨before, behind, rfl⟩ := PdfExtractor.pageTexts_split paged
  obtain ⟨front, back, split, chunk, member, lower, upper⟩ :=
    PdfExtractor.page_in_range env.chunker defaults before behind nonblank whole small
  have listed := member
  rw [← List.map_fst_zip (Nat.le_of_eq same.symm)] at listed
  obtain ⟨⟨_, vector⟩, zipped, rfl⟩ := List.mem_map.mp listed
  refine ⟨_, front, back, found, split, _, List.mem_map.mpr ⟨_, zipped, rfl⟩, lower, upper, ?_⟩
  rw [DocumentWorker.storedChunk, (env.chunker.mem_chunk _ member).2, split]
  exact infix_slice lower upper

/-- An empty page, a title, and a page longer than a chunk. -/
private def titledFiles : Files where
  first := fun _ => .raised (extractorError "")
  again := fun _ => .raised (extractorError "")
  pdf := fun _ => .reader [.ok none, .ok (some [' ', 'H', 'i', '\n']),
    .ok (some ['a', 'b', 'c', 'd', 'e', 'f', 'g', 'h', 'i', 'j'])] none

theorem page_in_stored_sample :
    ∃ stored text front back, extractText (fun _ => "") titledFiles "path" "pdf" = .ok text ∧
      text = front ++ ['H', 'i'] ++ back ∧
      ∃ chunk ∈ (stored : List StoredChunk), chunk.charStart ≤ front.length ∧
        front.length + 2 ≤ chunk.charEnd ∧ ['H', 'i'] <:+: chunk.text := by
  obtain ⟨stored, indexed⟩ : ∃ stored, indexedChunks Sample.env
      (extractText (fun _ => "") titledFiles)
      ⟨"1", .indexDocument, "c", "corpus", "d", "pdf", some "path"⟩ = .ok stored :=
    indexedChunks_runs rfl rfl rfl (by simp)
  refine ⟨stored, page_in_stored Sample.env _ titledFiles _ "path" [_] [_] [' ', 'H', 'i', '\n']
    stored rfl rfl (by decide) rfl indexed (by decide) ?_ (by decide)⟩
  intro i occurs
  have bound := occurs.bound (by decide)
  have first : i = 0 := by
    change i + 2 ≤ 2 at bound
    omega
  rw [first] at occurs
  exact absurd occurs (by unfold OccursAt; decide)

end DocContext
