import DocContext.Foundation.Utf8
import DocContext.Services.Converters
import DocContext.Workers.Effect

/-! From a file to its text: which extractor a file type gets, and what each of them makes
of what it reads. -/

namespace DocContext

open Foundation

def extractorError (text : String) : PyException := ⟨.other "ExtractorError", text⟩

/-- What opening a file and reading its bytes comes to. -/
inductive FileRead where
  | content (bytes : List UInt8)
  | osError (error : PyException)
  | raised (error : PyException)

/-- What `PdfReader(path)` comes to, and then each `page.extract_text()` in turn; the
iteration of the pages may raise as well. -/
inductive PdfRead where
  | reader (pages : List (Except PyException (Option Text))) (stop : Option PyException)
  | unreadable (error : PyException)
  | raised (error : PyException)

/-- The files at the moment of an extraction: a text file may be read twice, with a
change in between. -/
structure Files where
  first : String → FileRead
  again : String → FileRead
  pdf : String → PdfRead

/-- Newlines as text mode reads them. -/
def universalNewlines : Text → Text
  | [] => []
  | '\r' :: '\n' :: rest => '\n' :: universalNewlines rest
  | '\r' :: rest => '\n' :: universalNewlines rest
  | char :: rest => char :: universalNewlines rest

/-- `char.isspace()`. -/
def isWhitespace (char : Char) : Bool :=
  (9 ≤ char.toNat && char.toNat ≤ 13) || (28 ≤ char.toNat && char.toNat ≤ 32) ||
    [0x85, 0xA0, 0x1680, 0x2028, 0x2029, 0x202F, 0x205F, 0x3000].contains char.toNat ||
    (0x2000 ≤ char.toNat && char.toNat ≤ 0x200A)

/-- `text.strip()`. -/
def strip (text : Text) : Text := (text.dropWhile isWhitespace).rdropWhile isWhitespace

inductive Extractor where
  | pdf
  | txt
  | md
deriving DecidableEq, Repr

namespace TxtExtractor

/-- The second read stands in the handler of the first one's `UnicodeDecodeError`, where the
clause for `OSError` does not reach. -/
def extract (files : Files) (path : String) : Except PyException Text :=
  match files.first path with
  | .osError error => .error (extractorError ("failed to read " ++ path ++ ": " ++ error.text))
  | .raised error => .error error
  | .content bytes =>
    match decodeUtf8? bytes with
    | some text => .ok (universalNewlines text)
    | none =>
      match files.again path with
      | .content bytes => .ok (universalNewlines (decodeReplacing bytes))
      | .osError error | .raised error => .error error

end TxtExtractor

namespace PdfExtractor

/-- What stands between two pages. -/
def pageBreak : Text := ['\n', '\n']

def pageTexts (path : String) (pages : List (Except PyException (Option Text))) :
    Except PyException (List Text) :=
  pages.mapM fun
    | .ok text => .ok (text.getD [])
    | .error error =>
      .error (extractorError ("failed to extract page text from " ++ path ++ ": " ++ error.text))

/-- `"\n\n".join(p.strip() for p in pages if p.strip())`. -/
def joinPages (pages : List Text) : Text :=
  pageBreak.intercalate ((pages.map strip).filter fun page => !page.isEmpty)

def extract (files : Files) (path : String) : Except PyException Text :=
  match files.pdf path with
  | .unreadable error =>
    .error (extractorError ("failed to open PDF " ++ path ++ ": " ++ error.text))
  | .raised error => .error error
  | .reader pages stop => do
    let texts ← pageTexts path pages
    match stop with
    | some error => .error error
    | none => .ok (joinPages texts)

end PdfExtractor

/-- `_REGISTRY`. -/
def registry : List (String × Extractor) := [("pdf", .pdf), ("txt", .txt), ("md", .md)]

/-- `file_type.lower().lstrip(".")`; no letter beyond ASCII has a key's letter as its lower
case. -/
def registryKey (fileType : String) : String :=
  String.ofList ((fileType.toList.map Char.toLower).dropWhile (· = '.'))

def getExtractor (repr : JsonValue → String) (fileType : String) : Except PyException Extractor :=
  match registry.lookup (registryKey fileType) with
  | some extractor => .ok extractor
  | none => .error ⟨.other "UnsupportedFileType",
      "no extractor registered for file type " ++ repr (.str fileType)⟩

/-- `MdExtractor` is a `TxtExtractor`. -/
def Extractor.extract (files : Files) (path : String) : Extractor → Except PyException Text
  | .pdf => PdfExtractor.extract files path
  | .txt | .md => TxtExtractor.extract files path

def extractText (repr : JsonValue → String) (files : Files) : Extraction := fun path fileType => do
  let extractor ← getExtractor repr fileType
  extractor.extract files path

/-! Text files. -/

theorem universalNewlines_cons (differs : char ≠ '\r') (rest : Text) :
    universalNewlines (char :: rest) = char :: universalNewlines rest := by
  simp [universalNewlines, differs]

theorem not_mem_universalNewlines (text : Text) : '\r' ∉ universalNewlines text := by
  induction text using universalNewlines.induct with
  | case1 => simp [universalNewlines]
  | case2 rest ih => simp [universalNewlines, ih]
  | case3 rest other ih => simp [universalNewlines, ih]
  | case4 char rest pair single ih =>
    have differs : char ≠ '\r' := by simpa using single
    rw [universalNewlines_cons differs]
    simp [ih, Ne.symm differs]

theorem mem_universalNewlines (differs : char ≠ '\r') (member : char ∈ text) :
    char ∈ universalNewlines text := by
  induction text using universalNewlines.induct with
  | case1 => cases member
  | case2 rest ih =>
    have member : char = '\n' ∨ char ∈ rest := by simpa [differs] using member
    rw [universalNewlines]
    exact List.mem_cons.mpr (member.imp_right ih)
  | case3 rest other ih =>
    have member : char ∈ rest := by simpa [differs] using member
    simp [universalNewlines, ih member]
  | case4 first rest pair single ih =>
    have apart : first ≠ '\r' := by simpa using single
    rw [universalNewlines_cons apart]
    exact List.mem_cons.mpr ((List.mem_cons.mp member).imp_right ih)

/-! The registry. -/

theorem getExtractor_of_key {repr : JsonValue → String} (extractor : Extractor)
    (key : registry.lookup (registryKey fileType) = some extractor) :
    getExtractor repr fileType = .ok extractor := by
  rw [getExtractor, key]

/-- The file can be read, and holds the same bytes should it be read again. -/
structure Files.Holds (files : Files) (path : String) (bytes : List UInt8) : Prop where
  first : files.first path = .content bytes
  again : files.again path = .content bytes

theorem TxtExtractor.extract_eq {files : Files} (holds : files.Holds path bytes) :
    TxtExtractor.extract files path = .ok (universalNewlines (decodeReplacing bytes)) := by
  unfold extract
  rw [holds.first, holds.again]
  dsimp only
  cases decoded : decodeUtf8? bytes with
  | none => rfl
  | some text => rw [decodeReplacing_of_strict decoded]

/-- A text or Markdown file that can be read never fails for its bytes. Its text has no
carriage return. Up to newlines it is the file's own text where the file is UTF-8, and
damage to a stretch of the bytes leaves the text before it and the text behind it as
they are; where the file is not UTF-8 it shows a replacement character. -/
theorem text_extracted (repr : JsonValue → String) (files : Files) (path fileType : String)
    (bytes : List UInt8) (key : registryKey fileType = "txt" ∨ registryKey fileType = "md")
    (holds : files.Holds path bytes) :
    ∃ text, extractText repr files path fileType = .ok text ∧ '\r' ∉ text ∧
      (∀ chars, bytes = encodeUtf8 chars → text = universalNewlines chars) ∧
      ((¬ ∃ chars, bytes = encodeUtf8 chars) → replacement ∈ text) ∧
      ∀ before damage after, bytes = encodeUtf8 before ++ damage ++ encodeUtf8 after →
        text = universalNewlines (before ++ decodeReplacing damage ++ after) := by
  refine ⟨universalNewlines (decodeReplacing bytes), ?_, not_mem_universalNewlines _, ?_, ?_, ?_⟩
  · have read := TxtExtractor.extract_eq holds
    rcases key with key | key
    · rw [extractText, getExtractor_of_key .txt (by rw [key]; rfl)]
      exact read
    · rw [extractText, getExtractor_of_key .md (by rw [key]; rfl)]
      exact read
  · rintro chars rfl
    rw [decodeReplacing_of_strict (decodeUtf8?_encodeUtf8 chars)]
  · intro damaged
    apply mem_universalNewlines (by decide)
    by_contra clean
    exact damaged ⟨_, (encode_decodeReplacing clean).symm⟩
  · rintro before damage after rfl
    rw [decodeReplacing_between]

/-- A file with two bytes that are no characters. -/
private def damagedBytes : List UInt8 := encodeUtf8 ['o', 'k'] ++ [0xFF, 0xFE] ++ encodeUtf8 ['!']

private def damagedFiles : Files where
  first := fun _ => .content damagedBytes
  again := fun _ => .content damagedBytes
  pdf := fun _ => .raised (extractorError "")

theorem text_extracted_sample :
    ∃ text, extractText (fun _ => "") damagedFiles "path" ".TXT" = .ok text ∧ '\r' ∉ text ∧
      (∀ chars, damagedBytes = encodeUtf8 chars → text = universalNewlines chars) ∧
      ((¬ ∃ chars, damagedBytes = encodeUtf8 chars) → replacement ∈ text) ∧
      ∀ before damage after, damagedBytes = encodeUtf8 before ++ damage ++ encodeUtf8 after →
        text = universalNewlines (before ++ decodeReplacing damage ++ after) :=
  text_extracted _ _ _ _ _ (.inl (by decide)) ⟨rfl, rfl⟩

end DocContext
