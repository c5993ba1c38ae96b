import Mathlib

/-! JSON strings: their characters as ASCII text, and the reader that takes them back,
whatever follows. The reader takes any escape, also of one surrogate alone. -/

namespace Foundation

/-- `'{0:04x}'.format(code)`. -/
def hexFour (code : Nat) : List Char :=
  [Nat.digitChar (code / 4096 % 16), Nat.digitChar (code / 256 % 16),
    Nat.digitChar (code / 16 % 16), Nat.digitChar (code % 16)]

def hexValue? (digit : Char) : Option Nat :=
  if digit.isDigit then some (digit.toNat - 48)
  else if 97 ≤ digit.toNat ∧ digit.toNat ≤ 102 then some (digit.toNat - 87)
  else if 65 ≤ digit.toNat ∧ digit.toNat ≤ 70 then some (digit.toNat - 55)
  else none

def hexValueFour? (first second third fourth : Char) : Option Nat := do
  return (← hexValue? first) * 4096 + (← hexValue? second) * 256 +
    (← hexValue? third) * 16 + (← hexValue? fourth)

/-- The letter of a short escape. -/
def shortEscape? : Char → Option Char
  | '"' => some '"'
  | '\\' => some '\\'
  | '\n' => some 'n'
  | '\r' => some 'r'
  | '\t' => some 't'
  | '\x0c' => some 'f'
  | '\x08' => some 'b'
  | _ => none

/-- The character a short escape stands for. -/
def shortEscaped? : Char → Option Char
  | '"' => some '"'
  | '\\' => some '\\'
  | '/' => some '/'
  | 'n' => some '\n'
  | 'r' => some '\r'
  | 't' => some '\t'
  | 'f' => some '\x0c'
  | 'b' => some '\x08'
  | _ => none

/-- A character in a string of which every character is ASCII; beyond the basic plane
it is a pair of surrogates. -/
def escapeChar (char : Char) : List Char :=
  match shortEscape? char with
  | some letter => ['\\', letter]
  | none =>
    if 32 ≤ char.toNat ∧ char.toNat ≤ 126 then [char]
    else if char.toNat < 65536 then '\\' :: 'u' :: hexFour char.toNat
    else
      let offset := char.toNat - 65536
      '\\' :: 'u' :: hexFour (55296 + offset / 1024) ++
        '\\' :: 'u' :: hexFour (56320 + offset % 1024)

def escapeChars (chars : List Char) : List Char := chars.flatMap escapeChar

def HighSurrogate (unit : Nat) : Prop := 55296 ≤ unit ∧ unit < 56320
deriving Decidable

def LowSurrogate (unit : Nat) : Prop := 56320 ≤ unit ∧ unit < 57344
deriving Decidable

/-- The character of a unit. One surrogate alone is no character, and reads as the
replacement character. -/
def charOfUnit (unit : Nat) : Char :=
  if HighSurrogate unit ∨ LowSurrogate unit then '\ufffd' else Char.ofNat unit

/-- The characters of a string, its surrogates joined in pairs. -/
def joinUnits : List Nat → List Char
  | high :: low :: rest =>
    if HighSurrogate high ∧ LowSurrogate low then
      Char.ofNat (65536 + (high - 55296) * 1024 + (low - 56320)) :: joinUnits rest
    else charOfUnit high :: joinUnits (low :: rest)
  | [unit] => [charOfUnit unit]
  | [] => []

/-- Put a unit before what is read. -/
def consRead (unit : Nat) (read : Option (List Nat × List Char)) : Option (List Nat × List Char) :=
  read.map fun read => (unit :: read.1, read.2)

/-- What each character or escape up to the closing quote stands for, and what follows the
quote. -/
def readUnits : List Char → Option (List Nat × List Char)
  | '"' :: rest => some ([], rest)
  | '\\' :: 'u' :: a :: b :: c :: d :: rest =>
    match hexValueFour? a b c d with
    | none => none
    | some unit => consRead unit (readUnits rest)
  | '\\' :: letter :: rest =>
    match shortEscaped? letter with
    | none => none
    | some char => consRead char.toNat (readUnits rest)
  | char :: rest => if char.toNat < 32 then none else consRead char.toNat (readUnits rest)
  | [] => none

/-- The characters up to the closing quote, and what follows it. -/
def readChars (text : List Char) : Option (List Char × List Char) :=
  (readUnits text).map fun read => (joinUnits read.1, read.2)

/-- The units a character is written as. -/
def charUnits (char : Char) : List Nat :=
  if char.toNat < 65536 then [char.toNat]
  else [55296 + (char.toNat - 65536) / 1024, 56320 + (char.toNat - 65536) % 1024]

section Strings

variable {char letter : Char} {code : Nat}

theorem hexValue_digitChar (small : code < 16) : hexValue? (Nat.digitChar code) = some code := by
  interval_cases code <;> rfl

theorem hexValueFour_hexFour (small : code < 65536) :
    hexValueFour? (Nat.digitChar (code / 4096 % 16)) (Nat.digitChar (code / 256 % 16))
      (Nat.digitChar (code / 16 % 16)) (Nat.digitChar (code % 16)) = some code := by
  have digit (value : Nat) : hexValue? (Nat.digitChar (value % 16)) = some (value % 16) :=
    hexValue_digitChar (Nat.mod_lt _ (by decide))
  simp only [hexValueFour?, digit, Option.pure_def, Option.bind_eq_bind, Option.bind_some]
  congr 1
  omega

theorem shortEscape_spec (short : shortEscape? char = some letter) :
    letter ≠ 'u' ∧ shortEscaped? letter = some char := by
  unfold shortEscape? at short
  split at short <;> cases short <;> simp [shortEscaped?]

theorem readUnits_short (notUnicode : letter ≠ 'u') (escaped : shortEscaped? letter = some char)
    (rest : List Char) :
    readUnits ('\\' :: letter :: rest) = consRead char.toNat (readUnits rest) := by
  rw [readUnits]
  · rw [escaped]
  · intro a b c d tail same
    exact absurd same notUnicode

theorem readUnits_plain (long : shortEscape? char = none) (printable : 32 ≤ char.toNat)
    (rest : List Char) : readUnits (char :: rest) = consRead char.toNat (readUnits rest) := by
  have unquoted : char ≠ '"' := by
    rintro rfl
    cases long
  have unescaped : char ≠ '\\' := by
    rintro rfl
    cases long
  rw [readUnits, if_neg (by omega)]
  · exact unquoted
  · intro a b c d tail same
    exact absurd same unescaped
  · intro letter tail same
    exact absurd same unescaped

theorem readUnits_unicode (basic : code < 65536) (rest : List Char) :
    readUnits ('\\' :: 'u' :: hexFour code ++ rest) = consRead code (readUnits rest) := by
  simp only [hexFour, List.cons_append, List.nil_append]
  rw [readUnits, hexValueFour_hexFour basic]

/-- The units of a written character are read back, whatever follows. -/
theorem readUnits_escapeChar (char : Char) (rest : List Char) :
    readUnits (escapeChar char ++ rest) = (charUnits char).foldr consRead (readUnits rest) := by
  have valid : char.toNat.isValidChar := char.valid
  unfold escapeChar charUnits
  split
  · rename_i letter short
    obtain ⟨notUnicode, escaped⟩ := shortEscape_spec short
    have basic : char.toNat < 65536 := by
      unfold shortEscape? at short
      split at short <;> first | decide | cases short
    rw [if_pos basic]
    exact readUnits_short notUnicode escaped rest
  · rename_i long
    split
    · rename_i printable
      rw [if_pos (by omega)]
      exact readUnits_plain long printable.1 rest
    split
    · rename_i basic
      exact readUnits_unicode basic rest
    · have small : char.toNat - 65536 < 1048576 := by
        unfold Nat.isValidChar at valid
        omega
      rw [List.append_assoc, readUnits_unicode (by omega), readUnits_unicode (by omega)]
      rfl

theorem charOfUnit_char (char : Char) : charOfUnit char.toNat = char := by
  have valid : char.toNat.isValidChar := char.valid
  rw [charOfUnit, if_neg, Char.ofNat_toNat]
  unfold HighSurrogate LowSurrogate
  unfold Nat.isValidChar at valid
  omega

/-- The units of a character are joined to it, whatever follows. -/
theorem joinUnits_charUnits (char : Char) (rest : List Nat) :
    joinUnits (charUnits char ++ rest) = char :: joinUnits rest := by
  have valid : char.toNat.isValidChar := char.valid
  unfold Nat.isValidChar at valid
  unfold charUnits
  split
  · have single : ¬ HighSurrogate char.toNat := by
      unfold HighSurrogate
      omega
    cases rest with
    | nil => rw [List.append_nil, joinUnits, charOfUnit_char, joinUnits]
    | cons next rest =>
      rw [List.singleton_append, joinUnits, if_neg fun both => single both.1, charOfUnit_char]
  · have high : HighSurrogate (55296 + (char.toNat - 65536) / 1024) := by
      unfold HighSurrogate
      omega
    have low : LowSurrogate (56320 + (char.toNat - 65536) % 1024) := by
      unfold LowSurrogate
      omega
    have whole : 65536 + (55296 + (char.toNat - 65536) / 1024 - 55296) * 1024 +
        (56320 + (char.toNat - 65536) % 1024 - 56320) = char.toNat := by omega
    rw [List.cons_append, List.singleton_append, joinUnits, if_pos ⟨high, low⟩, whole,
      Char.ofNat_toNat]

theorem joinUnits_flatMap (chars : List Char) : joinUnits (chars.flatMap charUnits) = chars := by
  induction chars with
  | nil => rfl
  | cons char chars ih => rw [List.flatMap_cons, joinUnits_charUnits, ih]

theorem foldr_consRead (units later : List Nat) (rest : List Char) :
    units.foldr consRead (some (later, rest)) = some (units ++ later, rest) := by
  induction units with
  | nil => rfl
  | cons unit units ih =>
    rw [List.foldr_cons, ih]
    rfl

theorem readUnits_escapeChars (chars rest : List Char) :
    readUnits (escapeChars chars ++ '"' :: rest) = some (chars.flatMap charUnits, rest) := by
  induction chars with
  | nil => rfl
  | cons char chars ih =>
    simp only [escapeChars, List.flatMap_cons, List.append_assoc] at *
    rw [readUnits_escapeChar, ih, foldr_consRead]

theorem readChars_escapeChars (chars rest : List Char) :
    readChars (escapeChars chars ++ '"' :: rest) = some (chars, rest) := by
  rw [readChars, readUnits_escapeChars, Option.map_some, joinUnits_flatMap]

/-- A surrogate alone, and a pair. -/
example : readChars "\\ud800\\ud83d\\ude00\"".toList = some (['\ufffd', '😀'], []) := by decide

theorem ascii_hexFour (code : Nat) : ∀ digit ∈ hexFour code, digit.toNat < 128 := by
  have digit (value : Nat) (small : value < 16) : (Nat.digitChar value).toNat < 128 := by
    interval_cases value <;> decide
  simp only [hexFour, List.mem_cons, List.not_mem_nil, or_false]
  rintro _ (rfl | rfl | rfl | rfl) <;> exact digit _ (Nat.mod_lt _ (by decide))

theorem ascii_escapeChar (char : Char) : ∀ written ∈ escapeChar char, written.toNat < 128 := by
  have hex := ascii_hexFour
  unfold escapeChar
  split
  · rename_i letter short
    unfold shortEscape? at short
    split at short <;> cases short <;> simp
  · split
    · rename_i printable
      simp only [List.mem_singleton, forall_eq]
      omega
    split
    · simpa using hex char.toNat
    · simp only [List.cons_append, List.forall_mem_cons, List.forall_mem_append]
      exact ⟨by decide, by decide, hex _, by decide, by decide, hex _⟩

theorem ascii_escapeChars (chars : List Char) :
    ∀ written ∈ escapeChars chars, written.toNat < 128 := by
  intro written member
  obtain ⟨char, _, own⟩ := List.mem_flatMap.mp member
  exact ascii_escapeChar char written own

theorem ascii_utf8Encode {chars : List Char} (ascii : ∀ char ∈ chars, char.toNat < 128) :
    ∀ byte ∈ chars.utf8Encode.data.toList, byte.toNat < 128 := by
  intro byte member
  rw [List.utf8Encode, List.toList_data_toByteArray] at member
  obtain ⟨char, listed, own⟩ := List.mem_flatMap.mp member
  have small : char.val.toNat < 128 := ascii char listed
  have single : String.utf8EncodeChar char = [UInt8.ofNat char.val.toNat] := by
    rw [String.utf8EncodeChar]
    exact if_pos (Nat.le_of_lt_succ small)
  rw [single, List.mem_singleton] at own
  rw [own, UInt8.toNat_ofNat']
  omega

theorem readUnits_shorter {text rest : List Char} {units : List Nat}
    (read : readUnits text = some (units, rest)) : rest.length < text.length := by
  fun_induction readUnits text generalizing units rest
  all_goals try cases read
  case case1 => simp
  -- the cases that read on
  all_goals
    rename_i ih
    obtain ⟨⟨later, last⟩, found, paired⟩ := Option.map_eq_some_iff.mp read
    cases paired
    have shorter := ih found
    simp only [List.length_cons]
    omega

theorem readChars_shorter {text chars rest : List Char} (read : readChars text = some (chars, rest)) :
    rest.length < text.length := by
  obtain ⟨⟨units, last⟩, found, paired⟩ := Option.map_eq_some_iff.mp read
  cases paired
  exact readUnits_shorter found

end Strings

end Foundation
