import DocContext.Models

/-! Chat messages and the prompt templates of the two stages. The user's
question is the first message of both. -/

namespace DocContext

inductive Role where
  | user
  | system
  | assistant
deriving DecidableEq, Repr

structure Message where
  role : Role
  content : String
deriving DecidableEq, Repr

structure Usage where
  promptTokens : Int
  completionTokens : Int
  totalTokens : Int
deriving DecidableEq

structure LLMResponse where
  content : String
  model : String
  usage : Usage
deriving DecidableEq

namespace Prompts

def routerSystemInstruction : String :=
  "You are a routing classifier for a retrieval-augmented QA system.\n" ++
  "\n" ++
  "Classify the user's question into exactly one of:\n" ++
  "\n" ++
  "- FULL_DOC: the answer requires understanding the whole document\n" ++
  "  (summarise, outline, overall tone, structure, cross-section comparison).\n" ++
  "- SECTION: the answer is a specific fact, passage, or quote that lives\n" ++
  "  in a small part of the document.\n" ++
  "\n" ++
  "Be conservative: default to SECTION unless the question clearly needs\n" ++
  "whole-document reasoning.\n" ++
  "\n" ++
  "Respond with STRICT JSON on a single line and nothing else, matching:\n" ++
  "\x7b\"route\": \"FULL_DOC\" | \"SECTION\", \"confidence\": <float between 0 and 1>\x7d\n"

def answerSectionSystemInstruction : String :=
  "You are a retrieval-augmented assistant. Answer the user's question using\n" ++
  "ONLY the retrieved chunks provided below. If the chunks do not contain\n" ++
  "enough information, say so honestly.\n" ++
  "\n" ++
  "Cite the chunk_id of every chunk you used.\n" ++
  "\n" ++
  "Respond with STRICT JSON on a single line and nothing else, matching:\n" ++
  "\x7b\n" ++
  "  \"answer\": <string>,\n" ++
  "  \"citations\": [\n" ++
  "    \x7b\"chunk_id\": <string>, \"document_id\": <string>, \"quote\": <string>\x7d\n" ++
  "  ]\n" ++
  "\x7d\n"

def answerFullDocSystemInstruction : String :=
  "You are an assistant answering questions over one or more full documents.\n" ++
  "Use the complete documents provided below; you may summarise, compare, and\n" ++
  "synthesize across sections.\n" ++
  "\n" ++
  "If a claim leans on a specific passage, include it as a citation with the\n" ++
  "document_id (chunk_id may be empty).\n" ++
  "\n" ++
  "Respond with STRICT JSON on a single line and nothing else, matching:\n" ++
  "\x7b\n" ++
  "  \"answer\": <string>,\n" ++
  "  \"citations\": [\n" ++
  "    \x7b\"chunk_id\": <string>, \"document_id\": <string>, \"quote\": <string>\x7d\n" ++
  "  ]\n" ++
  "\x7d\n"

/-- Rounding to the nearest integer, ties to even. -/
def roundHalfEven (value : Rat) : Int :=
  let below := value.floor
  let rest := value - below
  if rest < 1 / 2 then below
  else if 1 / 2 < rest then below + 1
  else if below % 2 = 0 then below else below + 1

/-- `f"{score:.4f}"`. -/
def formatScore : PyFloat → String
  | .nan => "nan"
  | .inf negative => if negative then "-inf" else "inf"
  | .finite value =>
    let scaled := (roundHalfEven (|value| * 10000)).toNat
    let decimals := toString (scaled % 10000)
    (if value < 0 then "-" else "") ++ toString (scaled / 10000) ++ "." ++
      String.ofList (List.replicate (4 - decimals.length) '0') ++ decimals

def formatChunk (chunk : RetrievedChunk) : String :=
  "--- CHUNK chunk_id=" ++ chunk.chunkId ++ " document_id=" ++ chunk.documentId ++
    " chunk_index=" ++ toString chunk.chunkIndex ++ " score=" ++ formatScore chunk.score ++
    " ---\n" ++ String.ofList chunk.text

def formatChunks (chunks : List RetrievedChunk) : String :=
  "\n\n".intercalate (chunks.map formatChunk)

def formatFullDocument (document : String × Text) : String :=
  "--- DOCUMENT document_id=" ++ document.1 ++ " ---\n" ++ String.ofList document.2

def formatFullDocuments (documents : List (String × Text)) : String :=
  "\n\n".intercalate (documents.map formatFullDocument)

def buildRouterMessages (userPrompt : String) : List Message :=
  [⟨.user, userPrompt⟩, ⟨.system, routerSystemInstruction⟩]

def buildSectionAnswerMessages (userPrompt : String) (history : List Message)
    (chunks : List RetrievedChunk) : List Message :=
  [⟨.user, userPrompt⟩] ++ history ++
    [⟨.system, answerSectionSystemInstruction⟩,
      ⟨.system, "Retrieved chunks:\n\n" ++ formatChunks chunks⟩]

def buildFullDocAnswerMessages (userPrompt : String) (history : List Message)
    (documents : List (String × Text)) : List Message :=
  [⟨.user, userPrompt⟩] ++ history ++
    [⟨.system, answerFullDocSystemInstruction⟩,
      ⟨.system, "Full documents:\n\n" ++ formatFullDocuments documents⟩]

end Prompts

end DocContext
