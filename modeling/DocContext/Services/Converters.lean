import DocContext.Calls

/-! Conversions at the gRPC boundary, and `context.abort`. -/

namespace DocContext

open Foundation

/-- The number of a `FileType` as the string the extractors know. -/
def fileTypeToStr (protoValue : Int) : Except PyException String :=
  if protoValue = 1 then .ok "pdf"
  else if protoValue = 2 then .ok "txt"
  else if protoValue = 3 then .ok "md"
  else .error ⟨.valueError, "unsupported or unspecified FileType: " ++ toString protoValue⟩

def statusToProto : JobStatus → Int
  | .queued => 1
  | .running => 2
  | .succeeded => 3
  | .failed => 4

def queryRouteToProto (repr : JsonValue → String) (route : String) : Except PyException Int :=
  if route = "SECTION" then .ok 1
  else if route = "FULL_DOC" then .ok 2
  else .error ⟨.valueError, "unsupported QueryRoute: " ++ repr (.str route)⟩

inductive StatusCode where
  | invalidArgument
  | notFound
deriving DecidableEq, Repr

def StatusCode.name : StatusCode → String
  | .invalidArgument => "INVALID_ARGUMENT"
  | .notFound => "NOT_FOUND"

/-- `await context.abort(code, details)`, which always raises. -/
def abort (code : StatusCode) (details : String) : Task α :=
  Coroutine.throw ⟨.abortError, code.name ++ ": " ++ details⟩

end DocContext
