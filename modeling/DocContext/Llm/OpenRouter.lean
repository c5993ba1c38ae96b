import DocContext.Llm.Prompts
import DocContext.Foundation.Outcome

/-! `OpenRouterClient.complete`: one POST, and what the client makes of its
outcome. The body of a response is whatever JSON the service sent, and every field
is read the way Python reads it. -/

namespace DocContext

open Foundation

/-- `raise OpenRouterError(text)`. -/
def openRouterError (text : String) : PyException := ⟨.other "OpenRouterError", text⟩

/-- How the POST ends. -/
inductive Exchange where
  /-- An `httpx.HTTPError`, with its `str`. -/
  | failed (text : String)
  /-- A response, with what `response.json()` gives or raises. -/
  | answered (status : Nat) (text : String) (body : Except PyException JsonValue)

/-- `value[0]`. -/
def JsonValue.subscriptZero : JsonValue → Except PyException JsonValue
  | .arr (item :: _) => .ok item
  | .arr [] => .error ⟨.indexError, "list index out of range"⟩
  | .str text =>
    match text.toList with
    | char :: _ => .ok (.str (String.singleton char))
    | [] => .error ⟨.indexError, "string index out of range"⟩
  | .obj _ => .error ⟨.keyError, "0"⟩
  | value => .error ⟨.typeError, "'" ++ value.typeName ++ "' object is not subscriptable"⟩

/-- Round toward zero. -/
def truncate (value : Rat) : Int := if value < 0 then value.ceil else value.floor

/-- `value or default`: what a missing or falsy value leaves. -/
def orDefault (default : JsonValue) (value : Option JsonValue) : JsonValue :=
  (value.filter JsonValue.truthy).getD default

def Role.name : Role → String
  | .user => "user"
  | .system => "system"
  | .assistant => "assistant"

namespace OpenRouterClient

/-- The `LLMResponse` the client builds. Nothing checks the type of its content. -/
structure Completion where
  content : JsonValue
  model : String
  usage : Usage
  raw : JsonValue

/-- The JSON body of the request. -/
def requestBody (messages : List Message) (model : String) (temperature : PyFloat)
    (responseFormat : Option JsonValue) : JsonValue :=
  .obj ([
    ("model", .str model),
    ("messages", .arr (messages.map fun message =>
      .obj [("role", .str message.role.name), ("content", .str message.content)])),
    ("temperature", .float temperature)] ++
      responseFormat.toList.map fun format => ("response_format", format))

section Client

variable (repr : JsonValue → String) (intOfString : String → Option Int)

/-- `int(value)`. -/
def intOf : JsonValue → Except PyException Int
  | .bool value => .ok (if value then 1 else 0)
  | .int value => .ok value
  | .float (.finite value) => .ok (truncate value)
  | .float .nan => .error ⟨.valueError, "cannot convert float NaN to integer"⟩
  | .float (.inf _) => .error ⟨.overflowError, "cannot convert float infinity to integer"⟩
  | .str text =>
    match intOfString text with
    | some value => .ok value
    | none =>
      .error ⟨.valueError, "invalid literal for int() with base 10: " ++ repr (.str text)⟩
  | value =>
    .error ⟨.typeError, "int() argument must be a string, a bytes-like object or a real number, not '" ++
      value.typeName ++ "'"⟩

/-- `int(usage_raw.get(key, 0))`. -/
def tokenCount (usageRaw : JsonValue) (key : String) : Except PyException Int := do
  intOf repr intOfString ((← usageRaw.get key).getD (.int 0))

def readUsage (usageRaw : JsonValue) : Except PyException Usage := do
  let promptTokens ← tokenCount repr intOfString usageRaw "prompt_tokens"
  let completionTokens ← tokenCount repr intOfString usageRaw "completion_tokens"
  let totalTokens ← tokenCount repr intOfString usageRaw "total_tokens"
  return ⟨promptTokens, completionTokens, totalTokens⟩

/-- `choices[0].get("message", {}).get("content")`. -/
def readContent (choices : JsonValue) : Except PyException (Option JsonValue) := do
  let choice ← choices.subscriptZero
  let message := (← choice.get "message").getD (.obj [])
  message.get "content"

/-- What `complete` makes of a body that is JSON. -/
def readCompletion (model : String) (data : JsonValue) : Except PyException Completion := do
  let choices := orDefault (.arr []) (← data.get "choices")
  if !choices.truthy then
    .error (openRouterError ("OpenRouter response had no choices: " ++ repr data))
  else
    match ← readContent choices with
    | none | some .null =>
      .error (openRouterError ("OpenRouter response missing content: " ++ repr data))
    | some content =>
      let usage ← readUsage repr intOfString (orDefault (.obj []) (← data.get "usage"))
      let named := ((← data.get "model").map (JsonValue.pyStr repr)).getD model
      return ⟨content, named, usage, data⟩

/-- What `complete` makes of the outcome of its POST. -/
def receive (model : String) : Exchange → Except PyException Completion
  | .failed text => .error (openRouterError ("HTTP error calling OpenRouter: " ++ text))
  | .answered status text body =>
    if status ≥ 400 then
      .error (openRouterError
        ("OpenRouter returned " ++ toString status ++ ": " ++ sliceTo text 500))
    else
      match body with
      | .error error =>
        if error.isValueError then
          .error (openRouterError ("OpenRouter returned non-JSON body: " ++ error.text))
        else .error error
      | .ok data => readCompletion repr intOfString model data

def complete (post : JsonValue → Exchange) (messages : List Message) (model : String)
    (temperature : PyFloat := .finite 0) (responseFormat : Option JsonValue := none) :
    Except PyException Completion :=
  receive repr intOfString model (post (requestBody messages model temperature responseFormat))

end Client

/-! The contract: a text and a 2xx status, or an `OpenRouterError`. -/

/-- The error is the client's own. -/
abbrev Own (error : PyException) : Prop := error.type = .other "OpenRouterError"

/-- The status of a response that succeeded. -/
def Succeeded (status : Nat) : Prop := 200 ≤ status ∧ status < 300

/-- The client returns a text after a 2xx response, or raises its own error. -/
def KeepsContract (exchange : Exchange) : Except PyException Completion → Prop :=
  Promises (fun completion => (∃ text, completion.content = .str text) ∧
    ∃ status text body, exchange = .answered status text body ∧ Succeeded status) Own

/-- The value is a number, or a text that spells one. -/
def Countable (intOfString : String → Option Int) : JsonValue → Prop
  | .bool _ | .int _ | .float (.finite _) => True
  | .str text => (intOfString text).isSome
  | _ => False

/-- There is no usage, or an object whose token counts, where there are any, can be
read as integers. -/
def UsageFits (intOfString : String → Option Int) : Option JsonValue → Prop
  | none => True
  | some (.obj counts) =>
    ∀ key ∈ ["prompt_tokens", "completion_tokens", "total_tokens"], ∀ value,
      counts.lookup key = some value → Countable intOfString value
  | some usage => usage.truthy = false

/-- The body is an object; choices that are not falsy are a list that begins with an
object, its message an object, and the content of the message, unless it is null, a
text, next to a usage that fits and under a 2xx status. What is missing does no harm. -/
def BodyFits (intOfString : String → Option Int) (status : Nat) (data : JsonValue) : Prop :=
  ∃ entries, data = .obj entries ∧
    ∀ choices, entries.lookup "choices" = some choices → choices.truthy = true →
      ∃ choice rest, choices = .arr (.obj choice :: rest) ∧
        ∀ message, choice.lookup "message" = some message →
          ∃ fields, message = .obj fields ∧
            ∀ content, fields.lookup "content" = some content → content ≠ .null →
              (∃ text, content = .str text) ∧ Succeeded status ∧
                UsageFits intOfString (entries.lookup "usage")

/-- No response, an error status, a body that is no JSON, or one that fits. A body
that is refused for another reason than its syntax is not caught. -/
def Conforms (intOfString : String → Option Int) : Exchange → Prop
  | .failed _ => True
  | .answered status _ (.error error) => 400 ≤ status ∨ error.isValueError = true ∨ Own error
  | .answered status _ (.ok data) => 400 ≤ status ∨ BodyFits intOfString status data

section Contract

variable {repr : JsonValue → String} {intOfString : String → Option Int}

theorem promises_get {returns : Option JsonValue → Prop} {value : JsonValue} {key : String} :
    Promises returns Own (value.get key) ↔
      ∃ entries, value = .obj entries ∧ returns (entries.lookup key) := by
  cases value <;> simp [JsonValue.get, Own]

theorem promises_intOf {returns : Prop} {value : JsonValue} :
    Promises (fun _ => returns) Own (intOf repr intOfString value) ↔
      Countable intOfString value ∧ returns := by
  cases value with
  | float value => cases value <;> simp [intOf, Countable, Own]
  | str text => cases read : intOfString text <;> simp [intOf, Countable, Own, read]
  | _ => simp [intOf, Countable, Own]

theorem promises_tokenCount {returns : Prop} {counts : List (String × JsonValue)} {key : String} :
    Promises (fun _ => returns) Own (tokenCount repr intOfString (.obj counts) key) ↔
      (∀ value, counts.lookup key = some value → Countable intOfString value) ∧ returns := by
  rw [tokenCount, promises_bind, promises_get]
  simp only [promises_intOf]
  cases found : counts.lookup key with
  | none => simp [found, Countable]
  | some value => simp [found]

theorem promises_readUsage_obj {returns : Prop} {counts : List (String × JsonValue)} :
    Promises (fun _ => returns) Own (readUsage repr intOfString (.obj counts)) ↔
      UsageFits intOfString (some (.obj counts)) ∧ returns := by
  simp only [readUsage, promises_bind, promises_pure, promises_tokenCount, UsageFits, List.forall_mem_cons]
  tauto

@[simp] theorem orDefault_none (default : JsonValue) : orDefault default none = default := rfl

theorem orDefault_truthy {default value : JsonValue} (truthy : value.truthy = true) :
    orDefault default (some value) = value := by
  rw [orDefault, Option.filter_some_pos truthy, Option.getD_some]

theorem orDefault_falsy {default value : JsonValue} (falsy : value.truthy = false) :
    orDefault default (some value) = default := by
  rw [orDefault, Option.filter_some_neg falsy, Option.getD_none]

theorem usageFits_falsy {usage : JsonValue} (falsy : usage.truthy = false) :
    UsageFits intOfString (some usage) := by
  cases usage with
  | obj counts =>
    have empty : counts = [] := by simpa [JsonValue.truthy] using falsy
    subst empty
    simp [UsageFits]
  | _ => exact falsy

theorem promises_readUsage {returns : Prop} {usage : Option JsonValue} :
    Promises (fun _ => returns) Own (readUsage repr intOfString (orDefault (.obj []) usage)) ↔
      UsageFits intOfString usage ∧ returns := by
  cases usage with
  | none =>
    rw [orDefault_none, promises_readUsage_obj]
    exact and_congr_left fun _ => iff_of_true (usageFits_falsy rfl) trivial
  | some usage =>
    cases truthy : usage.truthy with
    | false =>
      rw [orDefault_falsy truthy, promises_readUsage_obj]
      exact and_congr_left fun _ => iff_of_true (usageFits_falsy rfl) (usageFits_falsy truthy)
    | true =>
      rw [orDefault_truthy truthy]
      cases usage with
      | obj counts => exact promises_readUsage_obj
      | _ => simp [readUsage, tokenCount, promises_get, UsageFits, truthy]

/-- The content is read without an alien error when the choices begin with an object
whose message, where there is one, is an object. -/
theorem promises_readContent {returns : Option JsonValue → Prop} (missing : returns none)
    {choices : JsonValue} (truthy : choices.truthy = true) :
    Promises returns Own (readContent choices) ↔
      ∃ choice rest, choices = .arr (.obj choice :: rest) ∧
        ∀ message, choice.lookup "message" = some message →
          ∃ fields, message = .obj fields ∧ returns (fields.lookup "content") := by
  unfold readContent
  cases choices with
  | arr items =>
    cases items with
    | nil => cases truthy
    | cons item rest =>
      cases item with
      | obj choice =>
        simp only [JsonValue.subscriptZero, promises_bind, promises_ok, promises_get]
        cases found : choice.lookup "message" with
        | none => simp [found, missing]
        | some message => simp [found]
      | _ => simp [JsonValue.subscriptZero, promises_get]
  | str text =>
    cases spelled : text.toList <;>
      simp [JsonValue.subscriptZero, spelled, promises_get, Own]
  | _ => simp [JsonValue.subscriptZero, Own]

theorem promises_completion {model : String} {status : Nat} {entries : List (String × JsonValue)}
    {content : JsonValue} :
    Promises (fun completion : Completion =>
        (∃ text, completion.content = .str text) ∧ Succeeded status) Own (do
      let usage ← readUsage repr intOfString (orDefault (.obj [])
        (← (JsonValue.obj entries).get "usage"))
      let named := ((← (JsonValue.obj entries).get "model").map (JsonValue.pyStr repr)).getD model
      return ⟨content, named, usage, .obj entries⟩) ↔
      (∃ text, content = .str text) ∧ Succeeded status ∧
        UsageFits intOfString (entries.lookup "usage") := by
  simp only [JsonValue.get, promises_bind, promises_ok, promises_pure, promises_readUsage]
  tauto

/-- The body is read without an alien error, and only to a text under a 2xx status,
when it fits. -/
theorem promises_readCompletion {model : String} {status : Nat} {data : JsonValue} :
    Promises (fun completion => (∃ text, completion.content = .str text) ∧ Succeeded status) Own
        (readCompletion repr intOfString model data) ↔
      BodyFits intOfString status data := by
  unfold readCompletion BodyFits
  rw [promises_bind, promises_get]
  refine exists_congr fun entries => and_congr_right ?_
  rintro rfl
  cases found : entries.lookup "choices" with
  | none => exact iff_of_true rfl fun choices clash => nomatch clash
  | some choices =>
    cases truthy : choices.truthy with
    | false =>
      rw [orDefault_falsy truthy]
      refine iff_of_true rfl fun other same holds => ?_
      cases same
      cases truthy.symm.trans holds
    | true =>
      rw [orDefault_truthy truthy, if_neg (by simp [truthy]), promises_bind]
      refine (promises_readContent ?_ truthy).trans ?_
      · rfl
      · simp only [Option.some.injEq, forall_eq', truthy, forall_const]
        refine exists_congr fun choice => exists_congr fun rest => and_congr_right fun _ =>
          forall_congr' fun message => forall_congr' fun _ => exists_congr fun fields =>
            and_congr_right fun _ => ?_
        cases fields.lookup "content" with
        | none => exact iff_of_true rfl fun content clash => nomatch clash
        | some content =>
          cases content with
          | null =>
            refine iff_of_true rfl fun other same filled => ?_
            cases same
            exact absurd rfl filled
          | _ =>
            constructor
            · rintro returned other same _
              cases same
              exact promises_completion.mp returned
            · intro all
              exact promises_completion.mpr (all _ rfl fun clash => JsonValue.noConfusion clash)

theorem keepsContract_answered {status : Nat} {text : String} {body : Except PyException JsonValue}
    {result : Except PyException Completion} :
    KeepsContract (.answered status text body) result ↔
      Promises (fun completion => (∃ text, completion.content = .str text) ∧ Succeeded status) Own
        result := by
  apply promises_congr
  intro completion _
  simp

theorem receive_keeps {model : String} {exchange : Exchange} :
    KeepsContract exchange (receive repr intOfString model exchange) ↔
      Conforms intOfString exchange := by
  match exchange with
  | .failed text => exact iff_of_true rfl trivial
  | .answered status text (.error error) =>
    rw [keepsContract_answered, Conforms, receive]
    split
    · rename_i refused
      exact iff_of_true rfl (.inl refused)
    · rename_i accepted
      rw [or_iff_right accepted]
      split
      · rename_i malformed
        exact iff_of_true rfl (.inl malformed)
      · rename_i other
        rw [or_iff_right other, promises_error]
  | .answered status text (.ok data) =>
    rw [keepsContract_answered, Conforms, receive]
    split
    · rename_i refused
      exact iff_of_true rfl (.inl refused)
    · rename_i accepted
      rw [or_iff_right accepted]
      exact promises_readCompletion

end Contract

/-- The client keeps its contract on exactly the outcomes that conform: whatever it
was asked, it then returns a text after a 2xx response or raises its own error. -/
theorem contract_iff (repr : JsonValue → String) (intOfString : String → Option Int)
    (post : JsonValue → Exchange) (messages : List Message) (model : String)
    (temperature : PyFloat) (responseFormat : Option JsonValue) :
    let exchange := post (requestBody messages model temperature responseFormat)
    KeepsContract exchange
        (complete repr intOfString post messages model temperature responseFormat) ↔
      Conforms intOfString exchange :=
  receive_keeps

/-- A body that is a list has no `get`, and the exception escapes. -/
theorem contract_broken :
    ¬ ∀ (repr : JsonValue → String) (intOfString : String → Option Int)
      (post : JsonValue → Exchange) (messages : List Message) (model : String),
      KeepsContract (post (requestBody messages model (.finite 0) none))
        (complete repr intOfString post messages model) := by
  intro keeps
  have alien := keeps (fun _ => "[]") (fun _ => none) (fun _ => .answered 200 "[]" (.ok (.arr [])))
    [⟨.user, "q"⟩] "model"
  cases alien

end OpenRouterClient

end DocContext
