import Mathlib

/-! Items between brackets, with commas between them, over any reader of items: what is
written is read back, and the fuel of the reader does not matter once it covers the
text. -/

namespace Foundation

def isSpace (char : Char) : Bool := char = ' ' || char = '\t' || char = '\n' || char = '\r'

def skipSpace (text : List Char) : List Char := text.dropWhile isSpace

/-- After an item comes a comma and more items, or the closing bracket. -/
def afterItem {α : Type} (close : Char) (more : List Char → Option (List α × List Char))
    (taken : α × List Char) : Option (List α × List Char) :=
  match skipSpace taken.2 with
  | ',' :: rest => (more (skipSpace rest)).map fun later => (taken.1 :: later.1, later.2)
  | last :: rest => if last = close then some ([taken.1], rest) else none
  | [] => none

/-- Items with a comma between any two, and a closing bracket after the last. -/
def readItems {α : Type} (read : List Char → Option (α × List Char)) (close : Char) :
    Nat → List Char → Option (List α × List Char)
  | 0, _ => none
  | fuel + 1, text => (read text).bind (afterItem close (readItems read close fuel))

/-- What follows an opening bracket. -/
def readBracketed {α : Type} (read : List Char → Option (α × List Char)) (close : Char) (fuel : Nat)
    (text : List Char) : Option (List α × List Char) :=
  match skipSpace text with
  | first :: rest =>
    if first = close then some ([], rest) else readItems read close fuel (first :: rest)
  | [] => none

/-- Texts with a comma between any two. -/
def joinItems : List (List Char) → List Char
  | [] => []
  | [item] => item
  | item :: rest => item ++ ',' :: joinItems rest

section Items

variable {α : Type} {read other : List Char → Option (α × List Char)} {close : Char}
  {write : α → List Char} {items : List α}

/-- No space comes first. -/
def Tight (text : List Char) : Prop := ∀ first ∈ text.head?, isSpace first = false

theorem skipSpace_tight {text : List Char} (tight : Tight text) : skipSpace text = text := by
  cases text with
  | nil => rfl
  | cons first rest => simp [skipSpace, tight first rfl]

theorem skipSpace_shorter (text : List Char) : (skipSpace text).length ≤ text.length :=
  List.length_dropWhile_le isSpace text

/-- A closing bracket is no space and no comma. -/
def Closing (close : Char) : Prop := isSpace close = false ∧ close ≠ ','

/-- An item is read back where a comma or the bracket follows it, and begins with neither a
space nor the bracket. -/
structure ReadsBack (read : List Char → Option (α × List Char)) (close : Char)
    (write : α → List Char) (item : α) : Prop where
  reads : ∀ next tail, next = ',' ∨ next = close →
    read (write item ++ next :: tail) = some (item, next :: tail)
  begins : ∃ first rest, write item = first :: rest ∧ isSpace first = false ∧ first ≠ close

theorem joinItems_cons (item : List Char) {rest : List (List Char)} (more : rest ≠ []) :
    joinItems (item :: rest) = item ++ ',' :: joinItems rest := by
  cases rest with
  | nil => exact absurd rfl more
  | cons next rest => rfl

theorem length_le_joinItems {texts : List (List Char)} :
    (∀ item ∈ texts, item.length ≤ (joinItems texts).length) ∧
      texts.length ≤ (joinItems texts).length + 1 := by
  induction texts with
  | nil => simp [joinItems]
  | cons item rest ih =>
    by_cases single : rest = []
    · subst single
      simp [joinItems]
    · rw [joinItems_cons item single]
      simp only [List.forall_mem_cons, List.length_append, List.length_cons]
      refine ⟨⟨by omega, fun other member => ?_⟩, by omega⟩
      have within := ih.1 other member
      omega

theorem forall_mem_joinItems {holds : Char → Prop} (comma : holds ',') {texts : List (List Char)}
    (all : ∀ item ∈ texts, ∀ char ∈ item, holds char) : ∀ char ∈ joinItems texts, holds char := by
  induction texts with
  | nil => simp [joinItems]
  | cons item rest ih =>
    obtain ⟨first, later⟩ := List.forall_mem_cons.mp all
    by_cases single : rest = []
    · subst single
      exact first
    · rw [joinItems_cons item single]
      exact List.forall_mem_append.mpr ⟨first, List.forall_mem_cons.mpr ⟨comma, ih later⟩⟩

theorem joinItems_begins {item : α} (back : ReadsBack read close write item) (rest : List α) :
    ∃ first later, joinItems ((item :: rest).map write) = first :: later ∧
      isSpace first = false ∧ first ≠ close := by
  obtain ⟨first, later, spelled, unspaced, unclosed⟩ := back.begins
  cases rest with
  | nil => exact ⟨first, later, spelled, unspaced, unclosed⟩
  | cons next rest =>
    refine ⟨first, later ++ ',' :: joinItems ((next :: rest).map write), ?_, unspaced, unclosed⟩
    rw [List.map_cons, joinItems_cons _ (by simp), spelled]
    rfl

theorem afterItem_comma (more : List Char → Option (List α × List Char)) (item : α)
    {text : List Char} (tight : Tight text) :
    afterItem close more (item, ',' :: text) =
      (more text).map fun later => (item :: later.1, later.2) := by
  have still : skipSpace (',' :: text) = ',' :: text := rfl
  simp only [afterItem, still, skipSpace_tight tight]

theorem afterItem_close (closing : Closing close) (more : List Char → Option (List α × List Char))
    (item : α) (tail : List Char) : afterItem close more (item, close :: tail) = some ([item], tail) := by
  have still : skipSpace (close :: tail) = close :: tail := by
    simp [skipSpace, closing.1]
  simp [afterItem, still, closing.2]

/-- Joined items are read back, up to the bracket. -/
theorem readItems_joinItems (closing : Closing close) (nonempty : items ≠ [])
    (back : ∀ item ∈ items, ReadsBack read close write item) {fuel : Nat}
    (enough : items.length ≤ fuel) (tail : List Char) :
    readItems read close fuel (joinItems (items.map write) ++ close :: tail) = some (items, tail) := by
  induction items generalizing fuel with
  | nil => exact absurd rfl nonempty
  | cons item rest ih =>
    obtain ⟨first, later⟩ := List.forall_mem_cons.mp back
    obtain _ | fuel := fuel
    · cases enough
    cases rest with
    | nil =>
      simp only [List.map_cons, List.map_nil, joinItems]
      rw [readItems, first.reads close tail (.inr rfl), Option.bind_some, afterItem_close closing]
    | cons next rest =>
      obtain ⟨start, text, begins, unspaced, _⟩ :=
        joinItems_begins (later next (List.mem_cons_self ..)) rest
      have tight : Tight (joinItems ((next :: rest).map write) ++ close :: tail) := by
        rw [begins]
        simp [Tight, unspaced]
      rw [List.map_cons, joinItems_cons _ (by simp), List.append_assoc, List.cons_append, readItems,
        first.reads ',' _ (.inl rfl), Option.bind_some, afterItem_comma _ _ tight,
        ih (by simp) later (by simpa using enough)]
      rfl

/-- What stands between brackets is read back. -/
theorem readBracketed_joinItems (closing : Closing close)
    (back : ∀ item ∈ items, ReadsBack read close write item) {fuel : Nat}
    (enough : items.length ≤ fuel) (tail : List Char) :
    readBracketed read close fuel (joinItems (items.map write) ++ close :: tail) =
      some (items, tail) := by
  cases items with
  | nil =>
    have still : skipSpace (close :: tail) = close :: tail := by
      simp [skipSpace, closing.1]
    simp [readBracketed, joinItems, still]
  | cons item rest =>
    have read := readItems_joinItems closing (by simp) back enough tail
    obtain ⟨first, later, begins, unspaced, unclosed⟩ :=
      joinItems_begins (back item (List.mem_cons_self ..)) rest
    rw [begins, List.cons_append] at read ⊢
    have still : skipSpace (first :: (later ++ close :: tail)) = first :: (later ++ close :: tail) := by
      simp [skipSpace, unspaced]
    simp only [readBracketed, still, if_neg unclosed, read]

/-- Reading takes something. -/
def Shortens (read : List Char → Option (α × List Char)) : Prop :=
  ∀ text item rest, read text = some (item, rest) → rest.length < text.length

theorem afterItem_congr {more more' : List Char → Option (List α × List Char)}
    {taken : α × List Char}
    (agree : ∀ text : List Char, text.length < taken.2.length → more text = more' text) :
    afterItem close more taken = afterItem close more' taken := by
  have skipped := skipSpace_shorter taken.2
  unfold afterItem
  cases same : skipSpace taken.2 with
  | nil => rfl
  | cons first rest =>
    rw [same, List.length_cons] at skipped
    have again := skipSpace_shorter rest
    by_cases comma : first = ','
    · subst comma
      simp only [agree (skipSpace rest) (by omega)]
    · simp

/-- Readers that agree on what is left to read read the same items, given the fuel. -/
theorem readItems_congr (shortens : Shortens read) {text : List Char}
    (agree : ∀ part : List Char, part.length ≤ text.length → read part = other part)
    {fuel fuel' : Nat} (enough : text.length ≤ fuel) (enough' : text.length ≤ fuel') :
    readItems read close fuel text = readItems other close fuel' text := by
  have nothing : read [] = none := by
    cases found : read [] with
    | none => rfl
    | some taken => exact absurd (shortens [] taken.1 taken.2 found) (by simp)
  induction fuel generalizing text fuel' with
  | zero =>
    rw [List.length_eq_zero_iff.mp (Nat.le_zero.mp enough)] at agree ⊢
    cases fuel' with
    | zero => rfl
    | succ fuel' => simp [readItems, ← agree [] (Nat.le_refl _), nothing]
  | succ fuel ih =>
    cases fuel' with
    | zero =>
      rw [List.length_eq_zero_iff.mp (Nat.le_zero.mp enough')]
      simp [readItems, nothing]
    | succ fuel' =>
      rw [readItems, readItems, ← agree text (Nat.le_refl _)]
      cases found : read text with
      | none => rfl
      | some taken =>
        have first := shortens text taken.1 taken.2 found
        refine afterItem_congr fun part within => ?_
        exact ih (fun other within => agree other (by omega)) (by omega) (by omega)

theorem readBracketed_congr (shortens : Shortens read) {text : List Char}
    (agree : ∀ part : List Char, part.length ≤ text.length → read part = other part)
    {fuel fuel' : Nat} (enough : text.length ≤ fuel) (enough' : text.length ≤ fuel') :
    readBracketed read close fuel text = readBracketed other close fuel' text := by
  have skipped := skipSpace_shorter text
  unfold readBracketed
  split
  · rename_i first later same
    rw [same] at skipped
    split
    · rfl
    · exact readItems_congr shortens (fun part within => agree part (by omega)) (by omega) (by omega)
  · rfl

theorem readItems_shortens (shortens : Shortens read) {fuel : Nat} :
    Shortens (readItems read close fuel) := by
  induction fuel with
  | zero => exact fun _ _ _ clash => by cases clash
  | succ fuel ih =>
    intro text items rest found
    obtain ⟨taken, first, found⟩ := Option.bind_eq_some_iff.mp found
    have shorter := shortens text taken.1 taken.2 first
    have skipped := skipSpace_shorter taken.2
    unfold afterItem at found
    split at found
    · rename_i later same
      rw [same, List.length_cons] at skipped
      obtain ⟨⟨items, last⟩, more, paired⟩ := Option.map_eq_some_iff.mp found
      cases paired
      have again := skipSpace_shorter later
      have fewer := ih _ _ _ more
      dsimp only
      omega
    · rename_i last later _ same
      rw [same, List.length_cons] at skipped
      split at found
      · cases found
        omega
      · cases found
    · cases found

theorem readBracketed_shortens (shortens : Shortens read) {fuel : Nat} :
    Shortens (readBracketed read close fuel) := by
  intro text items rest taken
  have skipped := skipSpace_shorter text
  unfold readBracketed at taken
  split at taken
  · rename_i first later same
    rw [same, List.length_cons] at skipped
    split at taken
    · cases taken
      omega
    · have shorter := readItems_shortens shortens _ _ _ taken
      rw [List.length_cons] at shorter
      omega
  · cases taken

end Items

end Foundation
