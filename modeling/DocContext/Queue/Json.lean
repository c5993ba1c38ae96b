import DocContext.Foundation.Brackets
import DocContext.Foundation.JsonString
import DocContext.Foundation.Numeral
import DocContext.Foundation.OrderedDict
import DocContext.Python

/-! `json.dumps` with the separators of the queue, and `json.loads`. How floats are spelled
and read is a parameter. -/

namespace DocContext

open Foundation

/-- The text of floats. -/
structure FloatFormat where
  /-- `float.__repr__` of a finite float. -/
  spell : Rat → Numeral
  wellFormed : ∀ value, (spell value).WellFormed
  pointed : ∀ value, (spell value).integral = false
  /-- `float` of the text of a numeral. -/
  read : Numeral → PyFloat

/-- The most digits an `int` is converted to a text or from a text with. -/
def maxDigits : Nat := 4300

/-- `int.__repr__` does not raise. -/
def intFits : JsonValue → Bool
  | .int value => (Numeral.ofInt value).whole.length ≤ maxDigits
  | _ => true

variable (format : FloatFormat)

def writeFloat : PyFloat → List Char
  | .nan => ['N', 'a', 'N']
  | .inf false => ['I', 'n', 'f', 'i', 'n', 'i', 't', 'y']
  | .inf true => ['-', 'I', 'n', 'f', 'i', 'n', 'i', 't', 'y']
  | .finite value => (format.spell value).text

def writeText (text : String) : List Char := '"' :: (escapeChars text.toList ++ ['"'])

mutual

def writeValue : JsonValue → List Char
  | .null => ['n', 'u', 'l', 'l']
  | .bool true => ['t', 'r', 'u', 'e']
  | .bool false => ['f', 'a', 'l', 's', 'e']
  | .int value => (Numeral.ofInt value).text
  | .float value => writeFloat format value
  | .str text => writeText text
  | .arr items => '[' :: (joinItems (writeItems items) ++ [']'])
  | .obj entries => '\x7b' :: (joinItems (writeEntries entries) ++ ['\x7d'])

def writeItems : List JsonValue → List (List Char)
  | [] => []
  | item :: rest => writeValue item :: writeItems rest

def writeEntries : List (String × JsonValue) → List (List Char)
  | [] => []
  | (key, value) :: rest => (writeText key ++ ':' :: writeValue value) :: writeEntries rest

end

mutual

/-- Every value within a value passes a test. -/
def JsonValue.all (test : JsonValue → Bool) : JsonValue → Bool
  | .arr items => test (.arr items) && JsonValue.allItems test items
  | .obj entries => test (.obj entries) && JsonValue.allEntries test entries
  | value => test value

def JsonValue.allItems (test : JsonValue → Bool) : List JsonValue → Bool
  | [] => true
  | item :: rest => item.all test && JsonValue.allItems test rest

def JsonValue.allEntries (test : JsonValue → Bool) : List (String × JsonValue) → Bool
  | [] => true
  | (_, value) :: rest => value.all test && JsonValue.allEntries test rest

end

def tooManyDigits : PyException :=
  ⟨.valueError, "Exceeds the limit (4300 digits) for integer string conversion; " ++
    "use sys.set_int_max_str_digits() to increase the limit"⟩

/-- `json.dumps(value, separators=(",", ":"))`. -/
def dumps (value : JsonValue) : Except PyException String :=
  if value.all intFits then .ok (String.ofList (writeValue format value)) else .error tooManyDigits

/-- An `int` of too many digits is a `ValueError`. -/
def readNumber (text : List Char) : Option (JsonValue × List Char) :=
  (readNumeral text).bind fun (numeral, rest) =>
    if numeral.integral then
      if numeral.whole.length ≤ maxDigits then some (.int numeral.toInt, rest) else none
    else some (.float (format.read numeral), rest)

/-- `dict(entries)`: the last value of a key, at the place of its first. -/
def dictOf (entries : List (String × JsonValue)) : List (String × JsonValue) :=
  collect Prod.fst (fun entry _ => entry.2) entries

def readText : List Char → Option (String × List Char)
  | '"' :: rest => (readChars rest).map fun read => (String.ofList read.1, read.2)
  | _ => none

def readEntry (read : List Char → Option (JsonValue × List Char)) (text : List Char) :
    Option ((String × JsonValue) × List Char) :=
  (readText text).bind fun key =>
    match skipSpace key.2 with
    | ':' :: rest => (read (skipSpace rest)).map fun value => ((key.1, value.1), value.2)
    | _ => none

/-- `scan_once`: the value at the start of a text, and what follows it. -/
def readValue : Nat → List Char → Option (JsonValue × List Char)
  | 0, _ => none
  | fuel + 1, text =>
    match text with
    | '"' :: rest => (readText ('"' :: rest)).map fun read => (.str read.1, read.2)
    | '\x7b' :: rest =>
      (readBracketed (readEntry (readValue fuel)) '\x7d' fuel rest).map fun read =>
        (.obj (dictOf read.1), read.2)
    | '[' :: rest =>
      (readBracketed (readValue fuel) ']' fuel rest).map fun read => (.arr read.1, read.2)
    | 'n' :: 'u' :: 'l' :: 'l' :: rest => some (.null, rest)
    | 't' :: 'r' :: 'u' :: 'e' :: rest => some (.bool true, rest)
    | 'f' :: 'a' :: 'l' :: 's' :: 'e' :: rest => some (.bool false, rest)
    | 'N' :: 'a' :: 'N' :: rest => some (.float .nan, rest)
    | 'I' :: 'n' :: 'f' :: 'i' :: 'n' :: 'i' :: 't' :: 'y' :: rest => some (.float (.inf false), rest)
    | '-' :: 'I' :: 'n' :: 'f' :: 'i' :: 'n' :: 'i' :: 't' :: 'y' :: rest =>
      some (.float (.inf true), rest)
    | text => readNumber format text

/-- `json.loads(text)`, without the text of its error. -/
def loads (text : String) : Option JsonValue :=
  let chars := skipSpace text.toList
  (readValue format chars.length chars).bind fun read =>
    if skipSpace read.2 = [] then some read.1 else none

/-- An induction over the values within a value. -/
theorem JsonValue.within {motive : JsonValue → Prop} (null : motive .null)
    (bool : ∀ value, motive (.bool value)) (int : ∀ value, motive (.int value))
    (float : ∀ value, motive (.float value)) (str : ∀ text, motive (.str text))
    (arr : ∀ items, (∀ item ∈ items, motive item) → motive (.arr items))
    (obj : ∀ entries, (∀ entry ∈ entries, motive entry.2) → motive (.obj entries))
    (value : JsonValue) : motive value := by
  refine @JsonValue.rec motive (fun items => ∀ item ∈ items, motive item)
    (fun entries => ∀ entry ∈ entries, motive entry.2) (fun entry => motive entry.2)
    null bool int float str arr obj ?_ ?_ ?_ ?_ ?_ value
  all_goals simp +contextual

section RoundTrip

variable {format : FloatFormat} {test : JsonValue → Bool}

@[simp] theorem writeItems_eq (items : List JsonValue) :
    writeItems format items = items.map (writeValue format) := by
  induction items with
  | nil => rfl
  | cons item rest ih => simp [writeItems, ih]

def writeEntry (format : FloatFormat) (entry : String × JsonValue) : List Char :=
  writeText entry.1 ++ ':' :: writeValue format entry.2

@[simp] theorem writeEntries_eq (entries : List (String × JsonValue)) :
    writeEntries format entries = entries.map (writeEntry format) := by
  induction entries with
  | nil => rfl
  | cons entry rest ih => simp [writeEntries, writeEntry, ih]

@[simp] theorem allItems_eq (items : List JsonValue) :
    JsonValue.allItems test items = items.all (JsonValue.all test) := by
  induction items with
  | nil => rfl
  | cons item rest ih => simp [JsonValue.allItems, ih]

@[simp] theorem allEntries_eq (entries : List (String × JsonValue)) :
    JsonValue.allEntries test entries = entries.all fun entry => entry.2.all test := by
  induction entries with
  | nil => rfl
  | cons entry rest ih => simp [JsonValue.allEntries, ih]

theorem readValue_numeric (fuel : Nat) {text : List Char} (numeric : Numeric text) :
    readValue format (fuel + 1) text = readNumber format text := by
  unfold readValue
  split
  all_goals first
    | rfl
    | exact absurd numeric (by simp [Numeric])

theorem numeric_begins {text : List Char} (numeric : Numeric text) :
    ∃ first rest, text = first :: rest ∧ (first.isDigit ∨ first = '-') := by
  cases text with
  | nil => exact numeric.elim
  | cons first rest => exact ⟨first, rest, rfl, numeric.imp_right And.left⟩

/-- What a value begins with: no space and no closing bracket. -/
def Opening (first : Char) : Prop := isSpace first = false ∧ first ≠ ']' ∧ first ≠ '\x7d'

theorem opening_numeric {first : Char} (numeric : first.isDigit ∨ first = '-') : Opening first := by
  rcases numeric with digit | rfl
  · refine ⟨?_, ?_, ?_⟩
    · simp only [isSpace, Bool.or_eq_false_iff, decide_eq_false_iff_not]
      refine ⟨⟨⟨?_, ?_⟩, ?_⟩, ?_⟩ <;> (rintro rfl; cases digit)
    · rintro rfl
      cases digit
    · rintro rfl
      cases digit
  · simp [Opening, isSpace]

theorem writeValue_begins (value : JsonValue) :
    ∃ first rest, writeValue format value = first :: rest ∧ Opening first := by
  have numeral {numeral : Numeral} (wellFormed : numeral.WellFormed) :
      ∃ first rest, numeral.text = first :: rest ∧ Opening first := by
    have numeric := numeric_text wellFormed []
    rw [List.append_nil] at numeric
    obtain ⟨first, rest, begins, opens⟩ := numeric_begins numeric
    exact ⟨first, rest, begins, opening_numeric opens⟩
  cases value with
  | null => exact ⟨_, _, rfl, by simp [Opening, isSpace]⟩
  | bool value => cases value <;> exact ⟨_, _, rfl, by simp [Opening, isSpace]⟩
  | int value => exact numeral (wellFormed_ofInt value)
  | float value =>
    cases value with
    | nan => exact ⟨_, _, rfl, by simp [Opening, isSpace]⟩
    | inf negative => cases negative <;> exact ⟨_, _, rfl, by simp [Opening, isSpace]⟩
    | finite value => exact numeral (format.wellFormed value)
  | str text => exact ⟨_, _, rfl, by simp [Opening, isSpace]⟩
  | arr items => exact ⟨_, _, rfl, by simp [Opening, isSpace]⟩
  | obj entries => exact ⟨_, _, rfl, by simp [Opening, isSpace]⟩

theorem readText_writeText (text : String) (tail : List Char) :
    readText (writeText text ++ tail) = some (text, tail) := by
  simp [writeText, readText, readChars_escapeChars]

/-- What the type of values leaves open: a dict has no key twice, a finite float is the
value of its own text, and an integer is not too long to be written. -/
def genuine (format : FloatFormat) : JsonValue → Bool
  | .obj entries => decide (entries.map Prod.fst).Nodup
  | .float (.finite value) => format.read (format.spell value) = .finite value
  | value => intFits value

/-- A value is read back where no numeral goes on, given the fuel. -/
def Back (format : FloatFormat) (value : JsonValue) : Prop :=
  ∀ fuel tail, (writeValue format value).length ≤ fuel → Closed tail →
    readValue format fuel (writeValue format value ++ tail) = some (value, tail)

theorem closed_of_bracket {next : Char} (tail : List Char)
    (ends : next = ',' ∨ next = ']' ∨ next = '\x7d') :
    Closed (next :: tail) := by
  rcases ends with rfl | rfl | rfl <;> simp [Closed]

theorem back_numeral {numeral : Numeral} {value : JsonValue} (wellFormed : numeral.WellFormed)
    (spelled : writeValue format value = numeral.text)
    (read : ∀ tail, readNumeral (numeral.text ++ tail) = some (numeral, tail) →
      readNumber format (numeral.text ++ tail) = some (value, tail)) : Back format value := by
  intro fuel tail enough closed
  obtain _ | fuel := fuel
  · obtain ⟨first, rest, begins, _⟩ := @writeValue_begins format value
    rw [begins] at enough
    cases enough
  · rw [spelled, readValue_numeric fuel (numeric_text wellFormed tail)]
    exact read tail (readNumeral_text wellFormed closed)

theorem readsBack_item {fuel : Nat} {item : JsonValue} (back : Back format item)
    (enough : (writeValue format item).length ≤ fuel) :
    ReadsBack (readValue format fuel) ']' (writeValue format) item where
  reads := fun next tail ends =>
    back fuel (next :: tail) enough (closed_of_bracket tail (ends.imp_right .inl))
  begins := by
    obtain ⟨first, rest, begins, unspaced, unclosed, _⟩ := @writeValue_begins format item
    exact ⟨first, rest, begins, unspaced, unclosed⟩

theorem readsBack_entry {fuel : Nat} {entry : String × JsonValue} (back : Back format entry.2)
    (enough : (writeValue format entry.2).length ≤ fuel) :
    ReadsBack (readEntry (readValue format fuel)) '\x7d' (writeEntry format) entry where
  reads := by
    intro next tail ends
    obtain ⟨first, rest, begins, unspaced, _⟩ := @writeValue_begins format entry.2
    have tight : Tight (writeValue format entry.2 ++ next :: tail) := by
      rw [begins]
      simp [Tight, unspaced]
    have colon (text : List Char) : skipSpace (':' :: text) = ':' :: text := rfl
    rw [writeEntry, List.append_assoc, readEntry, readText_writeText, Option.bind_some]
    simp only [List.cons_append, colon]
    rw [skipSpace_tight tight, back fuel (next :: tail) enough
      (closed_of_bracket tail (ends.imp_right .inr))]
    rfl
  begins := ⟨'"', _, rfl, rfl, by decide⟩

theorem closing_square : Closing ']' := by simp [Closing, isSpace]

theorem closing_curly : Closing '\x7d' := by simp [Closing, isSpace]

theorem dictOf_of_nodup {entries : List (String × JsonValue)} (distinct : (entries.map Prod.fst).Nodup) :
    dictOf entries = entries := by
  rw [dictOf, collect_distinct _ _ distinct]
  simp

/-- Every value is read back. -/
theorem back_of_genuine (value : JsonValue) (all : value.all (genuine format)) : Back format value := by
  induction value using JsonValue.within with
  | null =>
    rintro (_ | fuel) tail enough _
    · cases enough
    · rfl
  | bool value =>
    rintro (_ | fuel) tail enough _
    · cases value <;> cases enough
    · cases value <;> rfl
  | int value =>
    apply back_numeral (wellFormed_ofInt value) rfl
    intro tail read
    have short : (Numeral.ofInt value).whole.length ≤ maxDigits := of_decide_eq_true all
    have integral : (Numeral.ofInt value).integral = true := rfl
    simp [readNumber, read, integral, short]
  | float value =>
    cases value with
    | nan =>
      rintro (_ | fuel) tail enough _
      · cases enough
      · rfl
    | inf negative =>
      rintro (_ | fuel) tail enough _
      · cases negative <;> cases enough
      · cases negative <;> rfl
    | finite value =>
      apply back_numeral (format.wellFormed value) rfl
      intro tail read
      have own : format.read (format.spell value) = .finite value := of_decide_eq_true all
      simp [readNumber, read, format.pointed value, own]
  | str text =>
    rintro (_ | fuel) tail enough _
    · cases enough
    · have read := readText_writeText text tail
      simp only [writeValue, writeText, List.cons_append] at read ⊢
      simp only [readValue, read, Option.map_some]
  | arr items ih =>
    simp only [JsonValue.all, allItems_eq, Bool.and_eq_true, List.all_eq_true] at all
    rintro (_ | fuel) tail enough _
    · cases enough
    simp only [writeValue, writeItems_eq, List.length_cons, List.length_append] at enough
    obtain ⟨within, count⟩ := @length_le_joinItems (items.map (writeValue format))
    rw [List.length_map] at count
    have back : ∀ item ∈ items, ReadsBack (readValue format fuel) ']' (writeValue format) item := by
      intro item member
      have fits := within _ (List.mem_map_of_mem member)
      exact readsBack_item (ih item member (all.2 item member)) (by omega)
    have read := readBracketed_joinItems closing_square back (by omega : items.length ≤ fuel) tail
    simp only [writeValue, writeItems_eq, List.cons_append, List.append_assoc, List.nil_append,
      readValue, read, Option.map_some]
  | obj entries ih =>
    simp only [JsonValue.all, allEntries_eq, Bool.and_eq_true, List.all_eq_true, genuine,
      decide_eq_true_eq] at all
    rintro (_ | fuel) tail enough _
    · cases enough
    simp only [writeValue, writeEntries_eq, List.length_cons, List.length_append] at enough
    obtain ⟨within, count⟩ := @length_le_joinItems (entries.map (writeEntry format))
    rw [List.length_map] at count
    have back : ∀ entry ∈ entries,
        ReadsBack (readEntry (readValue format fuel)) '\x7d' (writeEntry format) entry := by
      intro entry member
      have fits := within _ (List.mem_map_of_mem member)
      simp only [writeEntry, List.length_append, List.length_cons] at fits
      exact readsBack_entry (ih entry member (all.2 entry member)) (by omega)
    have read := readBracketed_joinItems closing_curly back (by omega : entries.length ≤ fuel) tail
    have distinct := dictOf_of_nodup all.1
    simp only [writeValue, writeEntries_eq, List.cons_append, List.append_assoc, List.nil_append,
      readValue, read, Option.map_some, distinct]

theorem all_mono {other : JsonValue → Bool} (stronger : ∀ value, test value → other value)
    (value : JsonValue) (all : value.all test) : value.all other := by
  induction value using JsonValue.within with
  | arr items ih =>
    simp only [JsonValue.all, allItems_eq, Bool.and_eq_true, List.all_eq_true] at all ⊢
    exact ⟨stronger _ all.1, fun item member => ih item member (all.2 item member)⟩
  | obj entries ih =>
    simp only [JsonValue.all, allEntries_eq, Bool.and_eq_true, List.all_eq_true] at all ⊢
    exact ⟨stronger _ all.1, fun entry member => ih entry member (all.2 entry member)⟩
  | _ => exact stronger _ all

theorem intFits_of_genuine (value : JsonValue) (all : value.all (genuine format)) :
    value.all intFits := by
  apply all_mono _ value all
  intro value holds
  cases value with
  | int value => exact holds
  | _ => rfl

theorem ascii_writeText (text : String) : ∀ char ∈ writeText text, char.toNat < 128 := by
  rw [writeText]
  refine List.forall_mem_cons.mpr ⟨by decide, List.forall_mem_append.mpr ⟨?_, by simp⟩⟩
  exact ascii_escapeChars text.toList

/-- `ensure_ascii`: every value is written in ASCII. -/
theorem ascii_writeValue (value : JsonValue) :
    ∀ char ∈ writeValue format value, char.toNat < 128 := by
  induction value using JsonValue.within with
  | null => simp [writeValue]
  | bool value => cases value <;> simp [writeValue]
  | int value => exact ascii_numeral (wellFormed_ofInt value)
  | float value =>
    cases value with
    | nan => simp [writeValue, writeFloat]
    | inf negative => cases negative <;> simp [writeValue, writeFloat]
    | finite value => exact ascii_numeral (format.wellFormed value)
  | str text => exact ascii_writeText text
  | arr items ih =>
    simp only [writeValue, writeItems_eq, List.forall_mem_cons, List.forall_mem_append]
    refine ⟨by decide, forall_mem_joinItems (by decide) ?_, by simp⟩
    simpa using ih
  | obj entries ih =>
    simp only [writeValue, writeEntries_eq, List.forall_mem_cons, List.forall_mem_append]
    refine ⟨by decide, forall_mem_joinItems (by decide) ?_, by simp⟩
    intro written member
    obtain ⟨entry, listed, rfl⟩ := List.mem_map.mp member
    refine List.forall_mem_append.mpr ⟨ascii_writeText entry.1, ?_⟩
    exact List.forall_mem_cons.mpr ⟨by decide, ih entry listed⟩

/-- `json.loads` gives back what `json.dumps` wrote. -/
theorem loads_writeValue (value : JsonValue) (all : value.all (genuine format)) :
    loads format (String.ofList (writeValue format value)) = some value := by
  obtain ⟨first, rest, begins, unspaced, _⟩ := @writeValue_begins format value
  have tight : skipSpace (writeValue format value) = writeValue format value := by
    apply skipSpace_tight
    simp [Tight, begins, unspaced]
  have read := back_of_genuine value all _ [] (Nat.le_refl _) (by simp [Closed])
  rw [List.append_nil] at read
  simp only [loads, String.toList_ofList, tight, read, Option.bind_some]
  rfl

end RoundTrip

section Fuel

variable {format : FloatFormat}

theorem readText_shortens : Shortens readText := by
  intro text key rest read
  unfold readText at read
  split at read
  · obtain ⟨⟨chars, last⟩, found, paired⟩ := Option.map_eq_some_iff.mp read
    cases paired
    have shorter := readChars_shorter found
    simp only [List.length_cons]
    omega
  · cases read

theorem readEntry_shortens {read : List Char → Option (JsonValue × List Char)}
    (shortens : Shortens read) : Shortens (readEntry read) := by
  intro text entry rest found
  obtain ⟨⟨key, left⟩, named, found⟩ := Option.bind_eq_some_iff.mp found
  have first := readText_shortens _ _ _ named
  have skipped := skipSpace_shorter left
  dsimp only at found
  split at found
  · rename_i later same
    rw [same, List.length_cons] at skipped
    obtain ⟨⟨value, last⟩, taken, paired⟩ := Option.map_eq_some_iff.mp found
    cases paired
    have second := shortens _ _ _ taken
    have again := skipSpace_shorter later
    dsimp only
    omega
  · cases found

theorem readEntry_congr {read other : List Char → Option (JsonValue × List Char)} {text : List Char}
    (agree : ∀ part : List Char, part.length ≤ text.length → read part = other part) :
    readEntry read text = readEntry other text := by
  unfold readEntry
  cases named : readText text with
  | none => rfl
  | some key =>
    have first := readText_shortens _ _ _ named
    have skipped := skipSpace_shorter key.2
    simp only [Option.bind_some]
    cases same : skipSpace key.2 with
    | nil => rfl
    | cons colon later =>
      rw [same, List.length_cons] at skipped
      have again := skipSpace_shorter later
      have alike : read (skipSpace later) = other (skipSpace later) := agree _ (by omega)
      split
      · rename_i rest begins
        cases begins
        rw [alike]
      · rfl

theorem readNumber_shortens : Shortens (readNumber format) := by
  intro text value rest found
  obtain ⟨⟨numeral, left⟩, read, found⟩ := Option.bind_eq_some_iff.mp found
  have shorter := readNumeral_shorter read
  dsimp only at found
  split at found
  · split at found
    · cases found
      exact shorter
    · cases found
  · cases found
    exact shorter

theorem readValue_shortens (format : FloatFormat) (fuel : Nat) : Shortens (readValue format fuel) := by
  induction fuel with
  | zero => exact fun _ _ _ clash => by cases clash
  | succ fuel ih =>
    intro text value rest found
    unfold readValue at found
    split at found
    · obtain ⟨⟨key, last⟩, read, paired⟩ := Option.map_eq_some_iff.mp found
      cases paired
      exact readText_shortens _ _ _ read
    · obtain ⟨⟨entries, last⟩, read, paired⟩ := Option.map_eq_some_iff.mp found
      cases paired
      exact Nat.lt_succ_of_lt (readBracketed_shortens (readEntry_shortens ih) _ _ _ read)
    · obtain ⟨⟨items, last⟩, read, paired⟩ := Option.map_eq_some_iff.mp found
      cases paired
      exact Nat.lt_succ_of_lt (readBracketed_shortens ih _ _ _ read)
    all_goals try (cases found; simp only [List.length_cons]; omega)
    exact readNumber_shortens _ _ _ found

theorem readValue_nil (fuel : Nat) : readValue format fuel [] = none := by
  cases fuel <;> rfl

/-- Once the fuel covers the text, more of it changes nothing. -/
theorem readValue_stable {text : List Char} {fuel fuel' : Nat} (enough : text.length ≤ fuel)
    (enough' : text.length ≤ fuel') : readValue format fuel text = readValue format fuel' text := by
  induction fuel generalizing text fuel' with
  | zero =>
    rw [List.length_eq_zero_iff.mp (Nat.le_zero.mp enough), readValue_nil, readValue_nil]
  | succ fuel ih =>
    cases fuel' with
    | zero => rw [List.length_eq_zero_iff.mp (Nat.le_zero.mp enough'), readValue_nil, readValue_nil]
    | succ fuel' =>
      have shortens := readValue_shortens format fuel
      unfold readValue
      split
      · rfl
      · rename_i rest
        rw [List.length_cons] at enough enough'
        have same : readBracketed (readEntry (readValue format fuel)) '\x7d' fuel rest =
            readBracketed (readEntry (readValue format fuel')) '\x7d' fuel' rest :=
          readBracketed_congr (readEntry_shortens shortens)
            (fun part within => readEntry_congr fun inner below => ih (by omega) (by omega))
            (by omega) (by omega)
        rw [same]
      · rename_i rest
        rw [List.length_cons] at enough enough'
        have same : readBracketed (readValue format fuel) ']' fuel rest =
            readBracketed (readValue format fuel') ']' fuel' rest :=
          readBracketed_congr shortens (fun part within => ih (by omega) (by omega))
            (by omega) (by omega)
        rw [same]
      all_goals rfl

/-- `loads` is decided by any fuel that covers the text: it never fails for want of it. -/
theorem loads_fuel (text : String) {fuel : Nat} (enough : text.toList.length ≤ fuel) :
    loads format text =
      (readValue format fuel (skipSpace text.toList)).bind fun read =>
        if skipSpace read.2 = [] then some read.1 else none := by
  have skipped := skipSpace_shorter text.toList
  rw [loads, readValue_stable (Nat.le_refl _) (skipped.trans enough)]

end Fuel

end DocContext
