import Mathlib

/-! The numerals of JSON: how they are spelled, the reader that takes them back where no
numeral goes on, and integers as numerals. -/

namespace Foundation

/-- A number as it is spelled: an integer part, and where it is not an integer a
fraction, an exponent or both. -/
structure Numeral where
  negative : Bool
  whole : List Char
  fraction : List Char
  exponent : List Char
deriving DecidableEq, Repr

namespace Numeral

/-- The number is spelled as an integer. -/
def integral (numeral : Numeral) : Bool := numeral.fraction.isEmpty && numeral.exponent.isEmpty

def text (numeral : Numeral) : List Char :=
  (if numeral.negative then ['-'] else []) ++ numeral.whole ++
    (if numeral.fraction.isEmpty then [] else '.' :: numeral.fraction) ++ numeral.exponent

/-- One digit, or several that do not begin with a zero. -/
def Whole (digits : List Char) : Prop :=
  digits = ['0'] ∨ ∃ first rest, digits = first :: rest ∧ first ≠ '0' ∧ ∀ digit ∈ digits, digit.isDigit

/-- Nothing, or a mark, a sign or none, and digits. -/
def Exponent (spelled : List Char) : Prop :=
  spelled = [] ∨ ∃ mark sign digits, spelled = mark :: (sign ++ digits) ∧ (mark = 'e' ∨ mark = 'E') ∧
    (sign = [] ∨ sign = ['+'] ∨ sign = ['-']) ∧ digits ≠ [] ∧ ∀ digit ∈ digits, digit.isDigit

/-- The number is spelled as JSON has it. -/
structure WellFormed (numeral : Numeral) : Prop where
  whole : Whole numeral.whole
  fraction : ∀ digit ∈ numeral.fraction, digit.isDigit
  exponent : Exponent numeral.exponent

end Numeral

def readWhole : List Char → Option (List Char × List Char)
  | '0' :: rest => some (['0'], rest)
  | first :: rest =>
    if first.isDigit then
      some (first :: rest.takeWhile Char.isDigit, rest.dropWhile Char.isDigit)
    else none
  | [] => none

/-- A point without a digit after it is left where it is. -/
def readFraction : List Char → List Char × List Char
  | '.' :: rest =>
    match rest.takeWhile Char.isDigit with
    | [] => ([], '.' :: rest)
    | digits => (digits, rest.dropWhile Char.isDigit)
  | text => ([], text)

def readSign : List Char → List Char × List Char
  | '+' :: rest => (['+'], rest)
  | '-' :: rest => (['-'], rest)
  | text => ([], text)

/-- A mark without a digit after it is left where it is. -/
def readExponent : List Char → List Char × List Char
  | mark :: rest =>
    if mark = 'e' ∨ mark = 'E' then
      match (readSign rest).2.takeWhile Char.isDigit with
      | [] => ([], mark :: rest)
      | digits =>
        (mark :: ((readSign rest).1 ++ digits), (readSign rest).2.dropWhile Char.isDigit)
    else ([], mark :: rest)
  | [] => ([], [])

def readMinus : List Char → Bool × List Char
  | '-' :: rest => (true, rest)
  | text => (false, text)

def readNumeral (text : List Char) : Option (Numeral × List Char) :=
  (readWhole (readMinus text).2).map fun whole =>
    let fraction := readFraction whole.2
    let exponent := readExponent fraction.2
    (⟨(readMinus text).1, whole.1, fraction.1, exponent.1⟩, exponent.2)

section Numerals

/-- No digit comes first. -/
def Undigited (text : List Char) : Prop := ∀ next ∈ text.head?, next.isDigit = false

/-- No numeral goes on with the text. -/
def Closed (text : List Char) : Prop :=
  ∀ next ∈ text.head?, next.isDigit = false ∧ next ≠ '.' ∧ next ≠ 'e' ∧ next ≠ 'E'

variable {digits tail : List Char}

theorem Closed.undigited (closed : Closed tail) : Undigited tail := fun next first =>
  (closed next first).1

theorem Closed.exponent (closed : Closed tail) {spelled : List Char}
    (exponent : Numeral.Exponent spelled) :
    Undigited (spelled ++ tail) ∧ ∀ next ∈ (spelled ++ tail).head?, next ≠ '.' := by
  rcases exponent with rfl | ⟨mark, sign, digits, rfl, mark, _⟩
  · exact ⟨closed.undigited, fun next first => (closed next first).2.1⟩
  · rcases mark with rfl | rfl <;> simp [Undigited]

theorem takeWhile_digits (all : ∀ digit ∈ digits, digit.isDigit) (stops : Undigited tail) :
    (digits ++ tail).takeWhile Char.isDigit = digits ∧
      (digits ++ tail).dropWhile Char.isDigit = tail := by
  induction digits with
  | nil =>
    cases tail with
    | nil => simp
    | cons next tail => simp [stops next rfl]
  | cons digit digits ih =>
    obtain ⟨first, rest⟩ := List.forall_mem_cons.mp all
    simpa [first] using ih rest

theorem readWhole_append (whole : Numeral.Whole digits) (stops : Undigited tail) :
    readWhole (digits ++ tail) = some (digits, tail) := by
  rcases whole with rfl | ⟨first, rest, rfl, nonzero, all⟩
  · rfl
  · obtain ⟨leads, follow⟩ := List.forall_mem_cons.mp all
    obtain ⟨taken, left⟩ := takeWhile_digits follow stops
    rw [List.cons_append, readWhole, if_pos leads, taken, left]
    exact fun zero => nonzero zero

theorem readFraction_append (all : ∀ digit ∈ digits, digit.isDigit) (stops : Undigited tail)
    (pointless : ∀ next ∈ tail.head?, next ≠ '.') :
    readFraction ((if digits.isEmpty then [] else '.' :: digits) ++ tail) = (digits, tail) := by
  cases digits with
  | nil =>
    cases tail with
    | nil => rfl
    | cons next tail =>
      have other := pointless next rfl
      simp [readFraction, other]
  | cons digit digits =>
    obtain ⟨taken, left⟩ := takeWhile_digits all stops
    change readFraction ('.' :: (digit :: digits ++ tail)) = _
    rw [readFraction, taken, left]

theorem readSign_digits (all : ∀ digit ∈ digits, digit.isDigit) (nonempty : digits ≠ [])
    (tail : List Char) : readSign (digits ++ tail) = ([], digits ++ tail) := by
  cases digits with
  | nil => exact absurd rfl nonempty
  | cons digit digits =>
    have first := (List.forall_mem_cons.mp all).1
    have unsigned : digit ≠ '+' ∧ digit ≠ '-' := by
      constructor <;> rintro rfl <;> cases first
    simp [readSign, unsigned]

theorem readExponent_append (exponent : Numeral.Exponent digits) (closed : Closed tail) :
    readExponent (digits ++ tail) = (digits, tail) := by
  rcases exponent with rfl | ⟨mark, sign, digits, rfl, marked, signed, nonempty, all⟩
  · cases tail with
    | nil => rfl
    | cons next tail =>
      obtain ⟨_, _, small, capital⟩ := closed next rfl
      simp [readExponent, small, capital]
  · have read : readSign (sign ++ digits ++ tail) = (sign, digits ++ tail) := by
      rcases signed with rfl | rfl | rfl
      · exact readSign_digits all nonempty tail
      · rfl
      · rfl
    obtain ⟨taken, left⟩ := takeWhile_digits all closed.undigited
    rw [List.cons_append, readExponent, if_pos marked, read, taken, left]
    cases digits with
    | nil => exact absurd rfl nonempty
    | cons digit digits => rfl

theorem Numeral.Whole.cons (whole : Numeral.Whole digits) :
    ∃ first rest, digits = first :: rest ∧ first.isDigit := by
  rcases whole with rfl | ⟨first, rest, rfl, _, all⟩
  · exact ⟨'0', [], rfl, rfl⟩
  · exact ⟨first, rest, rfl, (List.forall_mem_cons.mp all).1⟩

theorem readMinus_whole (whole : Numeral.Whole digits) (negative : Bool) (tail : List Char) :
    readMinus ((if negative then ['-'] else []) ++ (digits ++ tail)) = (negative, digits ++ tail) := by
  obtain ⟨first, rest, rfl, leads⟩ := whole.cons
  have unsigned : first ≠ '-' := by
    rintro rfl
    cases leads
  cases negative with
  | false => simp [readMinus, unsigned]
  | true => rfl

theorem readNumeral_text {numeral : Numeral} (wellFormed : numeral.WellFormed)
    (closed : Closed tail) : readNumeral (numeral.text ++ tail) = some (numeral, tail) := by
  obtain ⟨negative, whole, fraction, exponent⟩ := numeral
  obtain ⟨undigited, pointless⟩ := closed.exponent wellFormed.exponent
  have stops : Undigited ((if fraction.isEmpty then [] else '.' :: fraction) ++ (exponent ++ tail)) := by
    cases fraction with
    | nil => exact undigited
    | cons digit fraction => simp [Undigited]
  simp only [Numeral.text, List.append_assoc, readNumeral]
  rw [readMinus_whole wellFormed.whole, readWhole_append wellFormed.whole stops, Option.map_some,
    readFraction_append wellFormed.fraction undigited pointless,
    readExponent_append wellFormed.exponent closed]

theorem readFraction_shorter (text : List Char) : (readFraction text).2.length ≤ text.length := by
  unfold readFraction
  split
  · rename_i rest
    split
    · simp
    · have fewer := List.length_dropWhile_le Char.isDigit rest
      simp only [List.length_cons]
      omega
  · simp

theorem readSign_shorter (text : List Char) : (readSign text).2.length ≤ text.length := by
  unfold readSign
  split <;> simp

theorem readExponent_shorter (text : List Char) : (readExponent text).2.length ≤ text.length := by
  unfold readExponent
  split
  · rename_i mark rest
    split
    · split
      · simp
      · have fewer := List.length_dropWhile_le Char.isDigit (readSign rest).2
        have unsigned := readSign_shorter rest
        simp only [List.length_cons]
        omega
    · simp
  · simp

theorem readMinus_shorter (text : List Char) : (readMinus text).2.length ≤ text.length := by
  unfold readMinus
  split <;> simp

theorem readWhole_shorter {text : List Char} (read : readWhole text = some (digits, tail)) :
    tail.length < text.length := by
  unfold readWhole at read
  split at read
  · cases read
    simp
  · split at read
    · rename_i first rest _ _
      cases read
      have fewer := List.length_dropWhile_le Char.isDigit rest
      simp only [List.length_cons]
      omega
    · cases read
  · cases read

theorem readNumeral_shorter {text : List Char} {numeral : Numeral}
    (read : readNumeral text = some (numeral, tail)) : tail.length < text.length := by
  obtain ⟨⟨digits, rest⟩, whole, paired⟩ := Option.map_eq_some_iff.mp read
  cases paired
  have unsigned := readMinus_shorter text
  have first := readWhole_shorter whole
  have second := readFraction_shorter rest
  have third := readExponent_shorter (readFraction rest).2
  simp only
  omega

/-- The text begins as numerals begin. -/
def Numeric : List Char → Prop
  | [] => False
  | first :: rest => first.isDigit ∨ first = '-' ∧ ∃ digit ∈ rest.head?, digit.isDigit

theorem numeric_text {numeral : Numeral} (wellFormed : numeral.WellFormed) (tail : List Char) :
    Numeric (numeral.text ++ tail) := by
  obtain ⟨negative, whole, fraction, exponent⟩ := numeral
  obtain ⟨first, rest, rfl, leads⟩ := wellFormed.whole.cons
  cases negative with
  | false => exact .inl leads
  | true => exact .inr ⟨rfl, first, rfl, leads⟩

theorem ascii_digit {digit : Char} (is : digit.isDigit) : digit.toNat < 128 := by
  simp only [Char.isDigit, Bool.and_eq_true, decide_eq_true_eq] at is
  have below : digit.val.toNat ≤ 57 := is.2
  exact Nat.lt_of_le_of_lt below (by decide)

/-- A numeral is ASCII. -/
theorem ascii_numeral {numeral : Numeral} (wellFormed : numeral.WellFormed) :
    ∀ char ∈ numeral.text, char.toNat < 128 := by
  obtain ⟨negative, whole, fraction, exponent⟩ := numeral
  obtain ⟨whole', fraction', exponent'⟩ := wellFormed
  have all : ∀ digit ∈ whole, digit.isDigit := by
    rcases whole' with rfl | ⟨_, _, _, _, all⟩
    · simp
    · exact all
  simp only [Numeral.text, List.forall_mem_append]
  refine ⟨⟨⟨?_, fun digit member => ascii_digit (all digit member)⟩, ?_⟩, ?_⟩
  · cases negative <;> simp
  · cases fraction with
    | nil => simp
    | cons first rest =>
      exact List.forall_mem_cons.mpr ⟨by decide, fun digit member => ascii_digit (fraction' digit member)⟩
  · rcases exponent' with rfl | ⟨mark, sign, digits, rfl, marked, signed, _, all⟩
    · simp
    · simp only [List.forall_mem_cons, List.forall_mem_append]
      refine ⟨?_, ?_, fun digit member => ascii_digit (all digit member)⟩
      · rcases marked with rfl | rfl <;> decide
      · rcases signed with rfl | rfl | rfl <;> simp

/-! Integers as numerals. -/

/-- `int.__repr__(value)`. -/
def Numeral.ofInt (value : Int) : Numeral := ⟨value < 0, Nat.toDigits 10 value.natAbs, [], []⟩

/-- `int(text)`. -/
def Numeral.toInt (numeral : Numeral) : Int :=
  if numeral.negative then -Nat.ofDigitChars 10 numeral.whole 0
  else Nat.ofDigitChars 10 numeral.whole 0

theorem toDigits_leads {number : Nat} (positive : 0 < number) :
    ∃ first rest, Nat.toDigits 10 number = first :: rest ∧ first ≠ '0' := by
  induction number using Nat.strong_induction_on with
  | _ number ih =>
    rw [Nat.toDigits_eq_if (by decide)]
    split
    · exact ⟨_, [], rfl, by simpa using positive.ne'⟩
    · obtain ⟨first, rest, digits, nonzero⟩ := ih (number / 10) (by omega) (by omega)
      exact ⟨first, rest ++ [Nat.digitChar (number % 10)], by rw [digits]; rfl, nonzero⟩

theorem whole_toDigits (number : Nat) : Numeral.Whole (Nat.toDigits 10 number) := by
  rcases Nat.eq_zero_or_pos number with rfl | positive
  · exact .inl rfl
  · obtain ⟨first, rest, digits, nonzero⟩ := toDigits_leads positive
    exact .inr ⟨first, rest, digits, nonzero, fun digit member =>
      Nat.isDigit_of_mem_toDigits (by decide) (by decide) member⟩

theorem wellFormed_ofInt (value : Int) : (Numeral.ofInt value).WellFormed where
  whole := whole_toDigits value.natAbs
  fraction := fun _ member => (List.not_mem_nil member).elim
  exponent := .inl rfl

@[simp] theorem toInt_ofInt (value : Int) : (Numeral.ofInt value).toInt = value := by
  by_cases negative : value < 0 <;>
    simp only [Numeral.ofInt, Numeral.toInt, Nat.ofDigitChars_ten_toDigits, negative, decide_true,
      decide_false, if_true, Bool.false_eq_true, if_false] <;> omega

end Numerals

end Foundation
