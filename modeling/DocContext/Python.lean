import DocContext.Foundation.Coroutine

/-! The Python values the program passes around: floats, JSON values and
exceptions. `repr` of a value is left to a parameter wherever a text needs it. -/

namespace DocContext

open Foundation

/-- The value of a `float`; the two zeros are not told apart. -/
inductive PyFloat where
  | nan
  | inf (negative : Bool)
  | finite (value : Rat)
deriving DecidableEq, Repr

/-- What `json.loads` can return. -/
inductive JsonValue where
  | null
  | bool (value : Bool)
  | int (value : Int)
  | float (value : PyFloat)
  | str (value : String)
  | arr (items : List JsonValue)
  | obj (entries : List (String × JsonValue))

/-- `bool(value)`. -/
def JsonValue.truthy : JsonValue → Bool
  | .null => false
  | .bool value => value
  | .int value => value ≠ 0
  | .float value => value ≠ .finite 0
  | .str value => value ≠ ""
  | .arr items => !items.isEmpty
  | .obj entries => !entries.isEmpty

/-- `str(value)`, which is `repr(value)` on everything but a string. -/
def JsonValue.pyStr (repr : JsonValue → String) : JsonValue → String
  | .str value => value
  | value => repr value

inductive ExceptionType where
  | valueError
  | keyError
  | typeError
  | attributeError
  | lookupError
  | indexError
  | overflowError
  | malformedJobEnvelope
  | integrityError
  | unexpectedResponse
  | abortError
  | other (name : String)
deriving DecidableEq, Repr

/-- An instance of `Exception`, with its `str`. -/
structure PyException where
  type : ExceptionType
  text : String
deriving DecidableEq, Repr

/-- `isinstance(error, ValueError)`. -/
def PyException.isValueError (error : PyException) : Bool :=
  error.type = .valueError || error.type = .malformedJobEnvelope

/-- `isinstance(error, KeyError)`. -/
def PyException.isKeyError (error : PyException) : Bool := error.type = .keyError

/-- `type(value).__name__`. -/
def JsonValue.typeName : JsonValue → String
  | .null => "NoneType"
  | .bool _ => "bool"
  | .int _ => "int"
  | .float _ => "float"
  | .str _ => "str"
  | .arr _ => "list"
  | .obj _ => "dict"

/-- `value[key]`. -/
def JsonValue.subscript (key : String) : JsonValue → Except PyException JsonValue
  | .obj entries =>
    match entries.lookup key with
    | some value => .ok value
    | none => .error ⟨.keyError, "'" ++ key ++ "'"⟩
  | .arr _ => .error ⟨.typeError, "list indices must be integers or slices, not str"⟩
  | .str _ => .error ⟨.typeError, "string indices must be integers, not 'str'"⟩
  | value => .error ⟨.typeError, "'" ++ value.typeName ++ "' object is not subscriptable"⟩

/-- `value.get(key)`, where `none` stands for the default. -/
def JsonValue.get (key : String) : JsonValue → Except PyException (Option JsonValue)
  | .obj entries => .ok (entries.lookup key)
  | value =>
    .error ⟨.attributeError, "'" ++ value.typeName ++ "' object has no attribute 'get'"⟩

theorem mapError_eq_ok_iff {computed : Except ε α} {wrap : ε → δ} {value : α} :
    computed.mapError wrap = .ok value ↔ computed = .ok value := by
  cases computed <;> simp [Except.mapError]

theorem bind_eq_ok_iff {first : Except ε α} {rest : α → Except ε β} {value : β} :
    (first >>= rest) = .ok value ↔ ∃ middle, first = .ok middle ∧ rest middle = .ok value := by
  cases first with
  | error error =>
    constructor
    · intro clash
      cases clash
    · rintro ⟨middle, clash, _⟩
      cases clash
  | ok middle =>
    constructor
    · exact fun returned => ⟨middle, rfl, returned⟩
    · rintro ⟨_, ⟨⟩, returned⟩
      exact returned

/-- A list of checked values is made when all checks pass. -/
theorem mapM_eq_ok_iff {check : α → Except ε β} {passes : α → Prop} {made : α → β}
    (checks : ∀ item result, check item = .ok result ↔ passes item ∧ result = made item)
    {items : List α} {results : List β} :
    items.mapM check = .ok results ↔ (∀ item ∈ items, passes item) ∧ results = items.map made := by
  induction items generalizing results with
  | nil =>
    rw [List.mapM_nil, List.map_nil]
    exact ⟨fun returned => ⟨by simp, (Except.ok.inj returned).symm⟩, fun both => by rw [both.2]; rfl⟩
  | cons item rest ih =>
    rw [List.mapM_cons, bind_eq_ok_iff, List.forall_mem_cons, List.map_cons]
    constructor
    · rintro ⟨result, checked, returned⟩
      obtain ⟨later, mapped, last⟩ := bind_eq_ok_iff.mp returned
      obtain ⟨first, rfl⟩ := (checks item result).mp checked
      obtain ⟨others, rfl⟩ := ih.mp mapped
      exact ⟨⟨first, others⟩, (Except.ok.inj last).symm⟩
    · rintro ⟨⟨first, others⟩, rfl⟩
      exact ⟨made item, (checks item _).mpr ⟨first, rfl⟩,
        bind_eq_ok_iff.mpr ⟨rest.map made, ih.mpr ⟨others, rfl⟩, rfl⟩⟩

/-- `text[:count]`. -/
def sliceTo (text : String) (count : Nat) : String := String.ofList (text.toList.take count)

/-- `zip(first, second, strict=True)`. -/
def zipStrict (first : List α) (second : List β) : Except PyException (List (α × β)) :=
  if first.length = second.length then .ok (first.zip second)
  else if second.length < first.length then
    .error ⟨.valueError, "zip() argument 2 is shorter than argument 1"⟩
  else .error ⟨.valueError, "zip() argument 2 is longer than argument 1"⟩

end DocContext
