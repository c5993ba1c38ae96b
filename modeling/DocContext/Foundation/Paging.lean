import Mathlib

/-! Paging through a sorted collection by a cursor, while the collection changes
between the pages. What was got stays sorted behind the cursor, and what is there
for every page is got. -/

namespace Foundation

variable {α κ : Type} [LinearOrder κ] {key : α → κ}

/-- Strictly increasing keys. -/
abbrev Ascending (key : α → κ) (items : List α) : Prop :=
  items.Pairwise fun first second => key first < key second

/-- The items from a cursor on. -/
def fromCursor (key : α → κ) (items : List α) : Option κ → List α
  | none => items
  | some cursor => items.dropWhile fun item => decide (key item < cursor)

/-- A page of at most so many items, and the key of the next one. -/
def pageAt (key : α → κ) (items : List α) (limit : Nat) (cursor : Option κ) :
    List α × Option κ :=
  ((fromCursor key items cursor).take limit, ((fromCursor key items cursor).drop limit).head?.map key)

variable {items got page : List α} {cursor next : Option κ} {limit : Nat} {item : α}

theorem fromCursor_sublist (key : α → κ) (items : List α) (cursor : Option κ) :
    (fromCursor key items cursor).Sublist items := by
  cases cursor with
  | none => exact List.Sublist.refl _
  | some cursor => exact List.dropWhile_sublist _

theorem mem_fromCursor (ascending : Ascending key items) :
    item ∈ fromCursor key items cursor ↔ item ∈ items ∧ ∀ bound ∈ cursor, bound ≤ key item := by
  cases cursor with
  | none => simp [fromCursor]
  | some bound =>
    simp only [fromCursor, Option.mem_some_iff, forall_eq']
    induction items with
    | nil => simp
    | cons first rest ih =>
      obtain ⟨before, ascending⟩ := List.pairwise_cons.mp ascending
      by_cases less : key first < bound
      · rw [List.dropWhile_cons_of_pos (by simpa using less), ih ascending, List.mem_cons]
        constructor
        · exact fun ⟨member, above⟩ => ⟨.inr member, above⟩
        · rintro ⟨rfl | member, above⟩
          · exact absurd less above.not_gt
          · exact ⟨member, above⟩
      · rw [List.dropWhile_cons_of_neg (by simpa using less)]
        have least : bound ≤ key first := not_lt.mp less
        refine ⟨fun member => ⟨member, ?_⟩, And.left⟩
        rcases List.mem_cons.mp member with rfl | later
        · exact least
        · exact least.trans (before item later).le

/-- The items got so far are sorted, and all of them stand before the cursor. -/
structure Behind (key : α → κ) (got : List α) (cursor : Option κ) : Prop where
  ascending : Ascending key got
  before : ∀ bound ∈ cursor, ∀ item ∈ got, key item < bound
  fresh : cursor = none → got = []

theorem behind_nil (key : α → κ) : Behind key [] none :=
  ⟨.nil, by simp, fun _ => rfl⟩

section Page

variable (ascending : Ascending key items) (paged : pageAt key items limit cursor = (page, next))

include paged

theorem page_length : page.length ≤ limit := by
  cases paged
  exact List.length_take_le ..

theorem page_sublist : page.Sublist (fromCursor key items cursor) := by
  cases paged
  exact List.take_sublist ..

theorem page_split {bound : κ} (more : next = some bound) :
    ∃ first rest, fromCursor key items cursor = page ++ first :: rest ∧ key first = bound := by
  cases paged
  obtain ⟨first, head, rfl⟩ := Option.map_eq_some_iff.mp more
  obtain ⟨rest, split⟩ := List.head?_eq_some_iff.mp head
  exact ⟨first, rest, by rw [← split, List.take_append_drop], rfl⟩

include ascending

theorem mem_of_page (member : item ∈ page) :
    item ∈ items ∧ ∀ bound ∈ cursor, bound ≤ key item :=
  (mem_fromCursor ascending).mp ((page_sublist paged).mem member)

theorem page_ascending : Ascending key page :=
  ((ascending.sublist (fromCursor_sublist ..)).sublist (page_sublist paged))

/-- A page keeps what was got behind the cursor. -/
theorem Behind.append (behind : Behind key got cursor) : Ascending key (got ++ page) ∧
    ∀ bound ∈ next, Behind key (got ++ page) (some bound) := by
  have sorted : Ascending key (got ++ page) := by
    refine List.pairwise_append.mpr ⟨behind.ascending, page_ascending ascending paged, ?_⟩
    intro first member second listed
    have above := (mem_of_page ascending paged listed).2
    cases cursor with
    | none => simp [behind.fresh rfl] at member
    | some bound => exact (behind.before bound rfl first member).trans_le (above bound rfl)
  refine ⟨sorted, fun bound more => ⟨sorted, ?_, by simp⟩⟩
  rintro _ ⟨⟩ item member
  obtain ⟨first, rest, split, rfl⟩ := page_split paged (Option.mem_def.mp more)
  have order : Ascending key (fromCursor key items cursor) :=
    ascending.sublist (fromCursor_sublist ..)
  rw [split, Ascending, List.pairwise_append] at order
  rcases List.mem_append.mp member with old | new
  · have above : first ∈ items ∧ ∀ bound ∈ cursor, bound ≤ key first := (mem_fromCursor ascending).mp
      (split ▸ List.mem_append_right _ (List.mem_cons_self ..) : first ∈ fromCursor key items cursor)
    cases cursor with
    | none => simp [behind.fresh rfl] at old
    | some bound => exact (behind.before bound rfl item old).trans_le (above.2 bound rfl)
  · exact order.2.2 item new first (List.mem_cons_self ..)

/-- An item that is there for the page is got by then, unless it stands after the page. -/
theorem got_page (present : item ∈ items)
    (caught : ∀ bound ∈ cursor, key item < bound → item ∈ got)
    (reached : ∀ bound ∈ next, key item < bound) : item ∈ got ++ page := by
  by_cases above : ∀ bound ∈ cursor, bound ≤ key item
  · apply List.mem_append_right
    have here : item ∈ fromCursor key items cursor := (mem_fromCursor ascending).mpr ⟨present, above⟩
    cases more : next with
    | none =>
      cases paged
      have ended : (fromCursor key items cursor).drop limit = [] := by
        simpa using more
      rwa [← List.take_append_drop limit (fromCursor key items cursor), ended,
        List.append_nil] at here
    | some bound =>
      obtain ⟨first, rest, split, rfl⟩ := page_split paged more
      have order : Ascending key (fromCursor key items cursor) :=
        ascending.sublist (fromCursor_sublist ..)
      rw [split, Ascending, List.pairwise_append] at order
      rw [split] at here
      have less := reached (key first) (by rw [more]; rfl)
      rcases List.mem_append.mp here with got | later
      · exact got
      · rcases List.mem_cons.mp later with rfl | later
        · exact absurd less (lt_irrefl _)
        · exact absurd less ((List.pairwise_cons.mp order.2.1).1 item later).not_gt
  · push Not at above
    obtain ⟨bound, held, less⟩ := above
    exact List.mem_append_left _ (caught bound held less)

end Page

end Foundation
