import Mathlib

/-! UTF-8 in bytes that may be damaged: the reader that puts a replacement character for
every part that is no character, and how far damage reaches. -/

namespace Foundation

/-- The bytes that go on a character. -/
def Continues (byte : UInt8) : Prop := 0x80 ≤ byte ∧ byte ≤ 0xBF

instance : DecidablePred Continues := fun byte =>
  inferInstanceAs (Decidable (0x80 ≤ byte ∧ byte ≤ 0xBF))

/-- The least and the greatest byte that may follow `lead`, one pair for each byte a
character begun with it still needs. -/
def tailRanges (lead : UInt8) : List (UInt8 × UInt8) :=
  if lead < 0xC2 then []
  else if lead < 0xE0 then [(0x80, 0xBF)]
  else if lead < 0xF0 then
    [(if lead = 0xE0 then 0xA0 else 0x80, if lead = 0xED then 0x9F else 0xBF), (0x80, 0xBF)]
  else if lead < 0xF5 then
    [(if lead = 0xF0 then 0x90 else 0x80, if lead = 0xF4 then 0x8F else 0xBF), (0x80, 0xBF),
      (0x80, 0xBF)]
  else []

/-- How many bytes in a row are in the ranges. -/
def fitting : List (UInt8 × UInt8) → List UInt8 → Nat
  | (low, high) :: ranges, byte :: bytes =>
    if low ≤ byte ∧ byte ≤ high then fitting ranges bytes + 1 else 0
  | _, _ => 0

/-- The character that the bytes begin with. -/
def leading? (bytes : List UInt8) : Option Char := bytes.toByteArray.utf8DecodeChar? 0

def encodeUtf8 (chars : List Char) : List UInt8 := chars.flatMap String.utf8EncodeChar

/-- The strict reader. -/
def decodeUtf8? (bytes : List UInt8) : Option (List Char) :=
  (String.fromUTF8? bytes.toByteArray).map String.toList

/-- Stands for the bytes that are no character. -/
def replacement : Char := '\uFFFD'

def replaceLoop : Nat → List UInt8 → List Char
  | 0, _ => []
  | _ + 1, [] => []
  | fuel + 1, lead :: rest =>
    match leading? (lead :: rest) with
    | some char => char :: replaceLoop fuel ((lead :: rest).drop char.utf8Size)
    | none => replacement :: replaceLoop fuel (rest.drop (fitting (tailRanges lead) rest))

/-- The reader that never fails: a part that begins like a character and breaks off, or a
byte that begins none, becomes one replacement character. -/
def decodeReplacing (bytes : List UInt8) : List Char := replaceLoop bytes.length bytes

/-! What the bytes begin with. -/

theorem encodeUtf8_cons (char : Char) (chars : List Char) :
    encodeUtf8 (char :: chars) = String.utf8EncodeChar char ++ encodeUtf8 chars := rfl

theorem leading?_encode (char : Char) (rest : List UInt8) :
    leading? (String.utf8EncodeChar char ++ rest) = some char := by
  rw [leading?, List.toByteArray_append, ByteArray.utf8DecodeChar?_utf8EncodeChar_append]

theorem leading?_some {bytes : List UInt8} (found : leading? bytes = some char) :
    bytes = String.utf8EncodeChar char ++ bytes.drop char.utf8Size := by
  obtain ⟨rest, same⟩ := ByteArray.exists_of_utf8DecodeChar?_eq_some found
  have listed := congrArg (fun array : ByteArray => array.data.toList) same
  simp only [ByteArray.data_append, Array.toList_append, List.toList_data_toByteArray] at listed
  rw [listed, ← String.length_utf8EncodeChar, List.drop_left]

theorem continues_ofNat (value : Nat) : Continues (UInt8.ofNat (value % 64 + 128)) := by
  simp only [Continues, UInt8.le_iff_toNat_le, UInt8.toNat_ofNat, UInt8.toNat_ofNat']
  omega

theorem not_continues_ofNat {value : Nat} (outside : value % 256 < 128 ∨ 192 ≤ value % 256) :
    ¬ Continues (UInt8.ofNat value) := by
  simp only [Continues, UInt8.le_iff_toNat_le, UInt8.toNat_ofNat, UInt8.toNat_ofNat']
  omega

/-- A character begins with a byte that goes on none, and all its other bytes go on one. -/
theorem encoded_bytes (char : Char) : ∃ first rest, String.utf8EncodeChar char = first :: rest ∧
    ¬ Continues first ∧ ∀ byte ∈ rest, Continues byte := by
  unfold String.utf8EncodeChar
  dsimp only
  split
  · exact ⟨_, _, rfl, not_continues_ofNat (by omega), List.forall_mem_nil _⟩
  split
  · exact ⟨_, _, rfl, not_continues_ofNat (by omega),
      List.forall_mem_singleton.mpr (continues_ofNat _)⟩
  split
  · exact ⟨_, _, rfl, not_continues_ofNat (by omega), List.forall_mem_cons.mpr
      ⟨continues_ofNat _, List.forall_mem_singleton.mpr (continues_ofNat _)⟩⟩
  · exact ⟨_, _, rfl, not_continues_ofNat (by omega), List.forall_mem_cons.mpr
      ⟨continues_ofNat _, List.forall_mem_cons.mpr
        ⟨continues_ofNat _, List.forall_mem_singleton.mpr (continues_ofNat _)⟩⟩⟩

/-- The bytes do not go on a character. -/
def Fresh (bytes : List UInt8) : Prop := ∀ byte, bytes.head? = some byte → ¬ Continues byte

theorem fresh_encode (chars : List Char) : Fresh (encodeUtf8 chars) := by
  intro byte head
  cases chars with
  | nil => cases head
  | cons char chars =>
    obtain ⟨first, rest, shape, starts, _⟩ := encoded_bytes char
    rw [encodeUtf8_cons, shape] at head
    cases head
    exact starts

/-- A character that two pieces begin with is in the first, where the second goes on none. -/
theorem leading?_append {bytes after : List UInt8} (nonempty : bytes ≠ []) (fresh : Fresh after) :
    leading? (bytes ++ after) = leading? bytes := by
  cases found : leading? (bytes ++ after) with
  | none =>
    cases first : leading? bytes with
    | none => rfl
    | some char =>
      rw [leading?_some first, List.append_assoc, leading?_encode] at found
      cases found
  | some char =>
    obtain ⟨first, rest, shape, _, continues⟩ := encoded_bytes char
    have whole := leading?_some found
    have within : char.utf8Size ≤ bytes.length := by
      by_contra short
      obtain ⟨byte, back, split⟩ : ∃ byte back, after = byte :: back := by
        cases after with
        | nil =>
          have size := congrArg List.length whole
          simp only [List.append_nil, List.length_append, String.length_utf8EncodeChar] at size
          omega
        | cons byte back => exact ⟨byte, back, rfl⟩
      have positive := List.length_pos_iff.mpr nonempty
      have size := congrArg List.length shape
      rw [String.length_utf8EncodeChar, List.length_cons] at size
      have here : (bytes ++ after)[bytes.length]? = some byte := by
        rw [split, List.getElem?_append_right (Nat.le_refl _), Nat.sub_self]
        rfl
      rw [whole, shape, List.getElem?_append_left (by rw [List.length_cons]; omega)] at here
      cases bytes with
      | nil => exact nonempty rfl
      | cons lead bytes =>
        rw [List.length_cons, List.getElem?_cons_succ] at here
        exact fresh byte (by rw [split]; rfl) (continues byte (List.mem_of_getElem? here))
    have taken : bytes = String.utf8EncodeChar char ++ bytes.drop char.utf8Size := by
      have front := congrArg (List.take char.utf8Size) whole
      rw [List.take_append_of_le_length within,
        List.take_left' (String.length_utf8EncodeChar char)] at front
      rw [← front, List.take_append_drop]
    rw [taken, leading?_encode]

/-! What a part that is no character takes. -/

theorem fitting_le (ranges : List (UInt8 × UInt8)) (bytes : List UInt8) :
    fitting ranges bytes ≤ bytes.length := by
  induction ranges generalizing bytes with
  | nil => exact Nat.zero_le _
  | cons range ranges ih =>
    cases bytes with
    | nil => exact Nat.zero_le _
    | cons byte bytes =>
      rw [fitting]
      split
      · exact Nat.succ_le_succ (ih bytes)
      · exact Nat.zero_le _

theorem fitting_append {ranges : List (UInt8 × UInt8)} {after : List UInt8}
    (continuing : ∀ range ∈ ranges, 0x80 ≤ range.1 ∧ range.2 ≤ 0xBF) (fresh : Fresh after)
    (bytes : List UInt8) : fitting ranges (bytes ++ after) = fitting ranges bytes := by
  induction ranges generalizing bytes with
  | nil => rfl
  | cons range ranges ih =>
    obtain ⟨low, high⟩ := range
    obtain ⟨⟨above, below⟩, later⟩ := List.forall_mem_cons.mp continuing
    cases bytes with
    | cons byte bytes => simp only [List.cons_append, fitting, ih later]
    | nil =>
      cases after with
      | nil => rfl
      | cons byte after =>
        have outside : ¬ (low ≤ byte ∧ byte ≤ high) := fun inside =>
          fresh byte rfl ⟨UInt8.le_trans above inside.1, UInt8.le_trans inside.2 below⟩
        rw [List.nil_append, fitting, if_neg outside]
        rfl

theorem tailRanges_continuing (lead : UInt8) :
    ∀ range ∈ tailRanges lead, 0x80 ≤ range.1 ∧ range.2 ≤ 0xBF := by
  unfold tailRanges
  split
  · simp
  split
  · simp
  split
  · split <;> split <;> simp
  split
  · split <;> split <;> simp
  · simp

/-! The replacing reader. -/

theorem replaceLoop_succ {bytes : List UInt8} {fuel : Nat} (enough : bytes.length ≤ fuel) :
    replaceLoop (fuel + 1) bytes = replaceLoop fuel bytes := by
  induction fuel generalizing bytes with
  | zero => rw [List.eq_nil_of_length_eq_zero (Nat.le_zero.mp enough)]; rfl
  | succ fuel ih =>
    cases bytes with
    | nil => rfl
    | cons lead rest =>
      rw [List.length_cons] at enough
      rw [replaceLoop, replaceLoop]
      cases leading? (lead :: rest) with
      | some char =>
        have positive := char.utf8Size_pos
        have shorter : ((lead :: rest).drop char.utf8Size).length ≤ fuel := by
          rw [List.length_drop, List.length_cons]
          omega
        dsimp only
        rw [ih shorter]
      | none =>
        have shorter : (rest.drop (fitting (tailRanges lead) rest)).length ≤ fuel := by
          rw [List.length_drop]
          omega
        dsimp only
        rw [ih shorter]

theorem replaceLoop_enough {bytes : List UInt8} {fuel : Nat} (enough : bytes.length ≤ fuel) :
    replaceLoop fuel bytes = decodeReplacing bytes := by
  induction fuel, enough using Nat.le_induction with
  | base => rfl
  | succ fuel enough ih => rw [replaceLoop_succ enough, ih]

theorem decodeReplacing_nil : decodeReplacing [] = [] := rfl

theorem decodeReplacing_encode (char : Char) (rest : List UInt8) :
    decodeReplacing (String.utf8EncodeChar char ++ rest) = char :: decodeReplacing rest := by
  obtain ⟨lead, tail, shape, _⟩ := encoded_bytes char
  have found := leading?_encode char rest
  have left : (String.utf8EncodeChar char ++ rest).drop char.utf8Size = rest :=
    List.drop_left' (String.length_utf8EncodeChar char)
  rw [shape, List.cons_append] at found left ⊢
  rw [decodeReplacing, List.length_cons, replaceLoop, found]
  dsimp only
  rw [left, replaceLoop_enough (by rw [List.length_append]; omega)]

theorem decodeReplacing_damaged {lead : UInt8} {rest : List UInt8}
    (damaged : leading? (lead :: rest) = none) :
    decodeReplacing (lead :: rest) =
      replacement :: decodeReplacing (rest.drop (fitting (tailRanges lead) rest)) := by
  rw [decodeReplacing, List.length_cons, replaceLoop, damaged]
  dsimp only
  rw [replaceLoop_enough (by rw [List.length_drop]; omega)]

/-- Reading in two pieces is reading at once, where the second goes on no character. -/
theorem decodeReplacing_append {after : List UInt8} (fresh : Fresh after) (bytes : List UInt8) :
    decodeReplacing (bytes ++ after) = decodeReplacing bytes ++ decodeReplacing after := by
  induction size : bytes.length using Nat.strong_induction_on generalizing bytes with
  | _ total ih =>
    cases bytes with
    | nil => rfl
    | cons lead rest =>
      rw [List.length_cons] at size
      have same := leading?_append (List.cons_ne_nil lead rest) fresh
      cases found : leading? (lead :: rest) with
      | some char =>
        have whole := leading?_some found
        have positive := char.utf8Size_pos
        have shorter : ((lead :: rest).drop char.utf8Size).length < total := by
          rw [List.length_drop, List.length_cons]
          omega
        rw [whole, List.append_assoc, decodeReplacing_encode, decodeReplacing_encode,
          ih _ shorter _ rfl, List.cons_append]
      | none =>
        rw [found, List.cons_append] at same
        have shorter : (rest.drop (fitting (tailRanges lead) rest)).length < total := by
          rw [List.length_drop]
          omega
        rw [decodeReplacing_damaged found, List.cons_append, decodeReplacing_damaged same,
          fitting_append (tailRanges_continuing lead) fresh,
          List.drop_append_of_le_length (fitting_le _ _), ih _ shorter _ rfl, List.cons_append]

theorem decodeReplacing_encodeUtf8 (chars : List Char) (rest : List UInt8) :
    decodeReplacing (encodeUtf8 chars ++ rest) = chars ++ decodeReplacing rest := by
  induction chars with
  | nil => rfl
  | cons char chars ih =>
    rw [encodeUtf8_cons, List.append_assoc, decodeReplacing_encode, ih, List.cons_append]

/-- Damage stays where it is: the text before it and the text behind it are read whole. -/
theorem decodeReplacing_between (before after : List Char) (damage : List UInt8) :
    decodeReplacing (encodeUtf8 before ++ damage ++ encodeUtf8 after) =
      before ++ decodeReplacing damage ++ after := by
  have whole := decodeReplacing_encodeUtf8 after []
  rw [List.append_nil, decodeReplacing_nil, List.append_nil] at whole
  rw [List.append_assoc, decodeReplacing_encodeUtf8, decodeReplacing_append (fresh_encode after),
    whole, List.append_assoc]

/-- Damage shows: bytes read without a replacement are the UTF-8 of what was read. -/
theorem encode_decodeReplacing {bytes : List UInt8} (clean : replacement ∉ decodeReplacing bytes) :
    encodeUtf8 (decodeReplacing bytes) = bytes := by
  induction size : bytes.length using Nat.strong_induction_on generalizing bytes with
  | _ total ih =>
    cases bytes with
    | nil => rfl
    | cons lead rest =>
      rw [List.length_cons] at size
      cases found : leading? (lead :: rest) with
      | some char =>
        have whole := leading?_some found
        have positive := char.utf8Size_pos
        have shorter : ((lead :: rest).drop char.utf8Size).length < total := by
          rw [List.length_drop, List.length_cons]
          omega
        rw [whole, decodeReplacing_encode] at clean
        have later := ih _ shorter (fun member => clean (List.mem_cons_of_mem _ member)) rfl
        rw [whole, decodeReplacing_encode, encodeUtf8_cons, later]
      | none =>
        rw [decodeReplacing_damaged found] at clean
        exact absurd List.mem_cons_self clean

/-! The strict reader. -/

theorem decodeUtf8?_encodeUtf8 (chars : List Char) :
    decodeUtf8? (encodeUtf8 chars) = some chars := by
  have encoded : (encodeUtf8 chars).toByteArray = (String.ofList chars).toByteArray :=
    String.toByteArray_ofList.symm
  have valid : (encodeUtf8 chars).toByteArray.IsValidUTF8 := by
    rw [encoded]
    exact (String.ofList chars).isValidUTF8
  have same : String.fromUTF8 (encodeUtf8 chars).toByteArray valid = String.ofList chars :=
    String.toByteArray_inj.mp encoded
  rw [decodeUtf8?, String.fromUTF8?, dif_pos valid, same, Option.map_some, String.toList_ofList]

/-- And it reads nothing else. -/
theorem decodeUtf8?_some {bytes : List UInt8} (decoded : decodeUtf8? bytes = some chars) :
    bytes = encodeUtf8 chars := by
  by_cases valid : bytes.toByteArray.IsValidUTF8
  · obtain ⟨text, same⟩ := valid
    have listed := congrArg (fun array : ByteArray => array.data.toList) same
    simp only [List.utf8Encode, List.toList_data_toByteArray] at listed
    have whole : bytes = encodeUtf8 text := listed
    rw [whole, decodeUtf8?_encodeUtf8] at decoded
    rw [whole, Option.some.inj decoded]
  · rw [decodeUtf8?, String.fromUTF8?, dif_neg valid] at decoded
    cases decoded

theorem decodeReplacing_of_strict {bytes : List UInt8} (decoded : decodeUtf8? bytes = some chars) :
    decodeReplacing bytes = chars := by
  have read := decodeReplacing_encodeUtf8 chars []
  rw [List.append_nil, decodeReplacing_nil, List.append_nil] at read
  rw [decodeUtf8?_some decoded, read]

end Foundation
