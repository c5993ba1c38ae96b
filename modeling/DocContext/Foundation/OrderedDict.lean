import Mathlib

/-! Dictionaries in insertion order, and folding a list into one entry for each
key: the keys come in the order of their first item, and each entry is the fold
of its own items alone. -/

namespace Foundation

variable {κ ι β : Type} [DecidableEq κ]

/-- Update the entry of `key` in place, or append one. -/
def alter (key : κ) (update : Option β → β) : List (κ × β) → List (κ × β)
  | [] => [(key, update none)]
  | (other, value) :: rest =>
    if other = key then (other, update (some value)) :: rest
    else (other, value) :: alter key update rest

/-- Fold every item into the entry of its key. -/
def collect (key : ι → κ) (step : ι → Option β → β) (items : List ι) : List (κ × β) :=
  items.foldl (fun entries item => alter (key item) (step item) entries) []

/-- The fold of the items of one key; `none` when there are none. -/
def gather (key : ι → κ) (step : ι → Option β → β) (items : List ι) (wanted : κ) : Option β :=
  (items.filter fun item => decide (key item = wanted)).foldl
    (fun value item => some (step item value)) none

theorem lookup_cons_ne (entries : List (κ × β)) (value : β) (different : wanted ≠ other) :
    ((other, value) :: entries).lookup wanted = entries.lookup wanted := by
  rw [List.lookup_cons, beq_eq_false_iff_ne.mpr different]

theorem lookup_alter (key wanted : κ) (update : Option β → β) (entries : List (κ × β)) :
    (alter key update entries).lookup wanted =
      if wanted = key then some (update (entries.lookup key)) else entries.lookup wanted := by
  induction entries with
  | nil =>
    by_cases same : wanted = key
    · simp [alter, same]
    · simp [alter, lookup_cons_ne, same]
  | cons entry rest ih =>
    obtain ⟨other, value⟩ := entry
    by_cases here : other = key
    · subst here
      by_cases same : wanted = other
      · simp [alter, same]
      · simp [alter, lookup_cons_ne, same]
    · by_cases first : wanted = other
      · subst first
        simp [alter, here]
      · rw [alter, if_neg here, lookup_cons_ne _ _ first, lookup_cons_ne _ _ first,
          lookup_cons_ne _ _ (Ne.symm here), ih]

theorem keys_alter (key : κ) (update : Option β → β) (entries : List (κ × β)) :
    (alter key update entries).map Prod.fst =
      if key ∈ entries.map Prod.fst then entries.map Prod.fst
      else entries.map Prod.fst ++ [key] := by
  induction entries with
  | nil => simp [alter]
  | cons entry rest ih =>
    obtain ⟨other, value⟩ := entry
    by_cases here : other = key
    · simp [alter, here]
    · by_cases later : key ∈ rest.map Prod.fst
      · simp only [later, ↓reduceIte] at ih
        simp only [alter, here, ↓reduceIte, List.map_cons, ih, List.mem_cons, later, or_true]
      · simp only [later, ↓reduceIte] at ih
        simp only [alter, here, ↓reduceIte, List.map_cons, ih, List.mem_cons, later, or_false,
          Ne.symm here, List.cons_append]

theorem alter_fresh {key : κ} (update : Option β → β) {entries : List (κ × β)}
    (fresh : key ∉ entries.map Prod.fst) :
    alter key update entries = entries ++ [(key, update none)] := by
  induction entries with
  | nil => rfl
  | cons entry rest ih =>
    obtain ⟨other, value⟩ := entry
    simp only [List.map_cons, List.mem_cons, not_or] at fresh
    simp [alter, Ne.symm fresh.1, ih fresh.2]

theorem collect_snoc (key : ι → κ) (step : ι → Option β → β) (items : List ι) (item : ι) :
    collect key step (items ++ [item]) = alter (key item) (step item) (collect key step items) := by
  simp [collect, List.foldl_append]

theorem eraseDups_snoc (keys : List κ) (key : κ) :
    (keys ++ [key]).eraseDups =
      if key ∈ keys then keys.eraseDups else keys.eraseDups ++ [key] := by
  rw [List.eraseDups_append]
  by_cases member : key ∈ keys <;> simp [List.removeAll, member, List.eraseDups_cons]

theorem nodup_eraseDups (keys : List κ) : keys.eraseDups.Nodup := by
  induction keys using List.reverseRecOn with
  | nil => simp
  | append_singleton keys key ih =>
    rw [eraseDups_snoc]
    split
    · exact ih
    · rename_i fresh
      simpa [List.nodup_append] using ⟨ih, fun other member same => fresh (same ▸ member)⟩

theorem eraseDups_perm {keys others : List κ} (perm : keys.Perm others) :
    keys.eraseDups.Perm others.eraseDups := by
  rw [List.perm_ext_iff_of_nodup (nodup_eraseDups keys) (nodup_eraseDups others)]
  intro key
  rw [List.mem_eraseDups, List.mem_eraseDups, perm.mem_iff]

theorem keys_collect (key : ι → κ) (step : ι → Option β → β) (items : List ι) :
    (collect key step items).map Prod.fst = (items.map key).eraseDups := by
  induction items using List.reverseRecOn with
  | nil => rfl
  | append_singleton items item ih =>
    rw [collect_snoc, keys_alter, ih, List.map_append, List.map_singleton, eraseDups_snoc]
    simp only [List.mem_eraseDups]

/-- Where no key comes twice, each item has its own entry. -/
theorem collect_distinct (key : ι → κ) (step : ι → Option β → β) {items : List ι}
    (distinct : (items.map key).Nodup) :
    collect key step items = items.map fun item => (key item, step item none) := by
  induction items using List.reverseRecOn with
  | nil => rfl
  | append_singleton items item ih =>
    rw [List.map_append, List.nodup_append] at distinct
    obtain ⟨earlier, _, apart⟩ := distinct
    have fresh : key item ∉ (items.map fun item => (key item, step item none)).map Prod.fst := by
      intro member
      rw [List.map_map] at member
      exact apart _ member (key item) (by simp) rfl
    rw [collect_snoc, ih earlier, alter_fresh _ fresh, List.map_append, List.map_singleton]

theorem lookup_collect (key : ι → κ) (step : ι → Option β → β) (items : List ι) (wanted : κ) :
    (collect key step items).lookup wanted = gather key step items wanted := by
  induction items using List.reverseRecOn with
  | nil => rfl
  | append_singleton items item ih =>
    rw [collect_snoc, lookup_alter]
    by_cases own : key item = wanted
    · subst own
      simp only [↓reduceIte, ih, gather, List.filter_append, List.foldl_append]
      simp
    · simp only [Ne.symm own, ↓reduceIte, ih, gather, List.filter_append, List.foldl_append]
      simp [own]

theorem mem_alter {holds : β → Prop} (key : κ) (update : Option β → β) {entries : List (κ × β)}
    (all : ∀ entry ∈ entries, holds entry.2) (starts : holds (update none))
    (keeps : ∀ value, holds value → holds (update (some value))) :
    ∀ entry ∈ alter key update entries, holds entry.2 := by
  induction entries with
  | nil => simpa [alter] using starts
  | cons first rest ih =>
    have later := ih fun entry member => all entry (List.mem_cons_of_mem _ member)
    have head := all first (List.mem_cons_self ..)
    obtain ⟨other, value⟩ := first
    by_cases same : other = key
    · simpa [alter, same] using ⟨keeps value head, fun a b member =>
        all (a, b) (List.mem_cons_of_mem _ member)⟩
    · simpa [alter, same] using ⟨head, fun a b member => later (a, b) member⟩

theorem collect_values (holds : β → Prop) (key : ι → κ) (step : ι → Option β → β) {items : List ι}
    (starts : ∀ item ∈ items, holds (step item none))
    (keeps : ∀ item ∈ items, ∀ value, holds value → holds (step item (some value))) :
    ∀ entry ∈ collect key step items, holds entry.2 := by
  induction items using List.reverseRecOn with
  | nil => simp [collect]
  | append_singleton items item ih =>
    rw [collect_snoc]
    have last : item ∈ items ++ [item] := List.mem_append_right _ (List.mem_singleton_self _)
    exact mem_alter _ _
      (ih (fun other member => starts other (List.mem_append_left _ member))
        fun other member => keeps other (List.mem_append_left _ member))
      (starts item last) (keeps item last)

theorem lookup_eq_some_of_mem {entries : List (κ × β)} (distinct : (entries.map Prod.fst).Nodup)
    (member : (key, value) ∈ entries) : entries.lookup key = some value := by
  induction entries with
  | nil => simp at member
  | cons entry rest ih =>
    obtain ⟨other, stored⟩ := entry
    rw [List.map_cons, List.nodup_cons] at distinct
    rcases List.mem_cons.mp member with here | later
    · cases here
      simp
    · have different : key ≠ other := by
        intro same
        subst same
        exact distinct.1 (List.mem_map.mpr ⟨(key, value), later, rfl⟩)
      rw [lookup_cons_ne _ _ different]
      exact ih distinct.2 later

/-- One entry for each key, in the order of first items, each the fold of its
own items. -/
theorem collect_eq (key : ι → κ) (step : ι → Option β → β) (items : List ι) (value : κ → β)
    (gathered : ∀ item ∈ items, gather key step items (key item) = some (value (key item))) :
    collect key step items = (items.map key).eraseDups.map fun wanted => (wanted, value wanted) := by
  have distinct : ((collect key step items).map Prod.fst).Nodup := by
    rw [keys_collect]
    exact nodup_eraseDups _
  rw [← keys_collect key step items, List.map_map]
  have same : ∀ entry ∈ collect key step items, (entry.1, value entry.1) = entry := by
    rintro ⟨wanted, stored⟩ member
    have found := lookup_eq_some_of_mem distinct member
    have present : wanted ∈ (items.map key).eraseDups := by
      rw [← keys_collect key step items]
      exact List.mem_map.mpr ⟨(wanted, stored), member, rfl⟩
    obtain ⟨item, original, own⟩ := List.mem_map.mp (List.mem_eraseDups.mp present)
    subst own
    rw [lookup_collect, gathered item original] at found
    rw [Option.some.inj found]
  exact (List.map_congr_left same).trans (List.map_id _) |>.symm

/-- What every step carries on holds between the items of a key and their fold. -/
theorem gather_holds (holds : List ι → β → Prop) (key : ι → κ) (step : ι → Option β → β)
    {items : List ι} {wanted : κ} (present : ∃ item ∈ items, key item = wanted)
    (starts : ∀ item, key item = wanted → holds [item] (step item none))
    (keeps : ∀ before item value, key item = wanted → holds before value →
      holds (before ++ [item]) (step item (some value))) :
    ∃ value, gather key step items wanted = some value ∧
      holds (items.filter fun item => decide (key item = wanted)) value := by
  unfold gather
  obtain ⟨item, member, own⟩ := present
  have nonempty : (items.filter fun item => decide (key item = wanted)) ≠ [] :=
    List.ne_nil_of_mem (List.mem_filter.mpr ⟨member, decide_eq_true own⟩)
  have all : ∀ item ∈ items.filter (fun item => decide (key item = wanted)), key item = wanted :=
    fun item member => of_decide_eq_true (List.mem_filter.mp member).2
  generalize items.filter (fun item => decide (key item = wanted)) = group at nonempty all
  induction group using List.reverseRecOn with
  | nil => exact absurd rfl nonempty
  | append_singleton before last ih =>
    have own := all last (List.mem_append_right _ (List.mem_singleton_self _))
    rw [List.foldl_append]
    by_cases first : before = []
    · subst first
      exact ⟨_, rfl, starts last own⟩
    · obtain ⟨value, folded, held⟩ :=
        ih first fun item member => all item (List.mem_append_left _ member)
      rw [folded]
      exact ⟨_, rfl, keeps before last value own held⟩

/-- Appending every item to the list of its key groups the items by key. -/
theorem collect_append (key : ι → κ) (items : List ι) :
    collect key (fun item group => group.getD [] ++ [item]) items =
      (items.map key).eraseDups.map fun wanted =>
        (wanted, items.filter fun item => decide (key item = wanted)) := by
  apply collect_eq
  intro item member
  have grouped (own : List ι) : own.foldl (fun group item => some (group.getD [] ++ [item])) none =
      if own = [] then none else some own := by
    induction own using List.reverseRecOn with
    | nil => rfl
    | append_singleton own last ih =>
      rw [List.foldl_append, ih]
      by_cases empty : own = [] <;> simp [empty]
  have nonempty : (items.filter fun other => decide (key other = key item)) ≠ [] :=
    List.ne_nil_of_mem (List.mem_filter.mpr ⟨member, by simp⟩)
  rw [gather, grouped, if_neg nonempty]

end Foundation
