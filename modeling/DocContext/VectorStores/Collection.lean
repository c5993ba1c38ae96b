import DocContext.Models
import DocContext.Foundation.Store

/-! The documented behaviour of a Qdrant collection: points by id, replaced by an
upsert of the same id, selected by payload keyword filters and scrolled in id
order. -/

namespace DocContext

open Foundation

/-- The payload of a point; a key may be absent. -/
structure Payload where
  chunkId : Option String
  documentId : Option String
  corpusId : Option String
  clientId : Option String
  chunkIndex : Option Nat
  charStart : Option Nat
  charEnd : Option Nat
  text : Option Text
  fileType : Option String
deriving DecidableEq

/-- What is stored under a point id. -/
structure Record where
  vector : List PyFloat
  payload : Payload
deriving DecidableEq

structure Point where
  id : String
  record : Record
deriving DecidableEq

def Point.entry (point : Point) : String × Record := (point.id, point.record)

/-- The payload keywords a filter can ask for. -/
def Payload.keyword? (payload : Payload) (key : String) : Option String :=
  if key = "client_id" then payload.clientId
  else if key = "corpus_id" then payload.corpusId
  else if key = "document_id" then payload.documentId
  else if key = "chunk_id" then payload.chunkId
  else if key = "file_type" then payload.fileType
  else none

/-- `MatchValue` and `MatchAny`. -/
inductive Match where
  | value (wanted : String)
  | any (wanted : List String)
deriving DecidableEq

def Match.accepts : Match → String → Bool
  | .value wanted, keyword => keyword = wanted
  | .any wanted, keyword => wanted.contains keyword

structure FieldCondition where
  key : String
  condition : Match
deriving DecidableEq

/-- The `must` conditions of a filter. -/
abbrev Filter := List FieldCondition

def Payload.satisfies (payload : Payload) (filter : Filter) : Bool :=
  filter.all fun field =>
    match payload.keyword? field.key with
    | none => false
    | some keyword => field.condition.accepts keyword

/-- A collection: its dimension, the payload fields with a keyword index, and
its points by id. -/
structure Collection where
  dim : Nat
  indexed : List String
  points : Std.ExtTreeMap String Record compare

namespace Collection

def empty (dim : Nat) : Collection := ⟨dim, [], ∅⟩

/-- Write every point under its id, replacing what was there. -/
def upsert (collection : Collection) (points : List Point) : Collection :=
  { collection with
    points := points.foldl (fun stored point => stored.insert point.id point.record)
      collection.points }

/-- Remove every point that satisfies the filter. -/
def delete (collection : Collection) (filter : Filter) : Collection :=
  { collection with
    points := collection.points.filter fun _ record => !record.payload.satisfies filter }

/-- The points that satisfy the filter, in id order. -/
def matching (collection : Collection) (filter : Filter) : List Point :=
  (collection.points.toList.map fun entry => Point.mk entry.1 entry.2).filter
    fun point => point.record.payload.satisfies filter

def count (collection : Collection) (filter : Filter) : Nat := (collection.matching filter).length

/-- One page of some points: at most `limit` from `offset` on, and the id of the
next one. -/
def pageOf (points : List Point) (limit : Nat) (offset : Option String) :
    List Point × Option String :=
  let rest :=
    match offset with
    | none => points
    | some id => points.dropWhile fun point => decide (point.id < id)
  (rest.take limit, (rest.drop limit).head?.map Point.id)

/-- One page of the matching points. -/
def scroll (collection : Collection) (filter : Filter) (limit : Nat) (offset : Option String) :
    List Point × Option String :=
  pageOf (collection.matching filter) limit offset

/-- The collection as a keyed store. -/
def view (collection : Collection) : Store String Record := fun id => collection.points[id]?

/-- The point is in the collection. -/
def Holds (collection : Collection) (point : Point) : Prop :=
  collection.view point.id = some point.record

theorem mem_matching (collection : Collection) (filter : Filter) (point : Point) :
    point ∈ collection.matching filter ↔
      collection.Holds point ∧ point.record.payload.satisfies filter = true := by
  rw [matching, List.mem_filter, List.mem_map]
  constructor
  · rintro ⟨⟨⟨id, record⟩, member, same⟩, selected⟩
    subst same
    exact ⟨Std.ExtTreeMap.mem_toList_iff_getElem?_eq_some.mp member, selected⟩
  · rintro ⟨held, selected⟩
    exact ⟨⟨(point.id, point.record), Std.ExtTreeMap.mem_toList_iff_getElem?_eq_some.mpr held, rfl⟩,
      selected⟩

@[simp] theorem view_empty (dim : Nat) : (empty dim).view = fun _ => none := by
  funext id
  simp [view, empty]

theorem view_upsert (collection : Collection) (points : List Point) :
    (collection.upsert points).view = Store.write (points.map Point.entry) collection.view := by
  induction points generalizing collection with
  | nil => rfl
  | cons point rest ih =>
    have inserted : (collection.upsert [point]).view =
        Function.update collection.view point.id (some point.record) := by
      funext id
      by_cases own : id = point.id
      · subst own
        simp [view, upsert]
      · rw [Function.update_of_ne own]
        simp [view, upsert, Std.ExtTreeMap.getElem?_insert, Ne.symm own]
    exact (ih (collection.upsert [point])).trans (congrArg (Store.write _) inserted)

/-- Exactly these points are added or replaced: each is there afterwards, no other id is
touched, and there are as many points more as replace none. -/
structure Takes (before : Collection) (points : List Point) (after : Collection) : Prop where
  held : ∀ point ∈ points, after.Holds point
  kept : ∀ id, id ∉ points.map Point.id → after.view id = before.view id
  size : after.points.size + points.countP (fun point => (before.view point.id).isSome) =
    before.points.size + points.length

theorem size_upsert_one (collection : Collection) (point : Point) :
    (collection.upsert [point]).points.size +
        (if (collection.view point.id).isSome then 1 else 0) =
      collection.points.size + 1 := by
  have present : (collection.view point.id).isSome = collection.points.contains point.id := by
    rw [view, Std.ExtTreeMap.contains_eq_isSome_getElem?]
  simp only [upsert, List.foldl_cons, List.foldl_nil, Std.ExtTreeMap.size_insert, present,
    Std.ExtTreeMap.contains_iff_mem]
  split <;> simp

theorem size_upsert (collection : Collection) {points : List Point}
    (distinct : (points.map Point.id).Nodup) :
    (collection.upsert points).points.size +
        points.countP (fun point => (collection.view point.id).isSome) =
      collection.points.size + points.length := by
  induction points generalizing collection with
  | nil => rfl
  | cons point rest ih =>
    rw [List.map_cons, List.nodup_cons] at distinct
    have later : rest.countP (fun other => ((collection.upsert [point]).view other.id).isSome) =
        rest.countP fun other => (collection.view other.id).isSome := by
      apply List.countP_congr
      intro other member
      have different : other.id ∉ [point.entry].map Prod.fst := by
        intro same
        exact distinct.1 (List.mem_map.mpr ⟨other, member, List.mem_singleton.mp same⟩)
      rw [view_upsert, List.map_singleton, Store.write_other different]
    have one := collection.size_upsert_one point
    have others := ih (collection.upsert [point]) distinct.2
    have same : (collection.upsert (point :: rest)) = (collection.upsert [point]).upsert rest := rfl
    rw [later] at others
    rw [same, List.countP_cons, List.length_cons]
    omega

theorem takes_upsert (collection : Collection) {points : List Point}
    (distinct : (points.map Point.id).Nodup) :
    collection.Takes points (collection.upsert points) := by
  have keys : (points.map Point.entry).map Prod.fst = points.map Point.id := by
    rw [List.map_map]
    rfl
  constructor
  · intro point member
    rw [← keys] at distinct
    rw [Holds, view_upsert]
    exact Store.write_mem distinct (List.mem_map.mpr ⟨point, member, rfl⟩)
  · intro id other
    rw [← keys] at other
    rw [view_upsert, Store.write_other other]
  · exact collection.size_upsert distinct

theorem view_delete (collection : Collection) (filter : Filter) :
    (collection.delete filter).view =
      Store.remove (fun record => record.payload.satisfies filter) collection.view := by
  funext id
  simp [view, delete, Store.remove, Option.filter]

theorem count_eq_zero (collection : Collection) (filter : Filter) :
    collection.count filter = 0 ↔
      ∀ point, collection.Holds point → point.record.payload.satisfies filter = false := by
  rw [count, List.length_eq_zero_iff, List.eq_nil_iff_forall_not_mem]
  simp only [mem_matching, not_and, Bool.not_eq_true]

theorem matching_sorted (collection : Collection) (filter : Filter) :
    (collection.matching filter).Pairwise fun first second => first.id < second.id := by
  refine List.Pairwise.filter _ (List.pairwise_map.mpr ?_)
  exact Std.ExtTreeMap.ordered_keys_toList.imp fun less => compare_lt_iff_lt.mp less

theorem matching_congr {first second : Collection} {filter : Filter}
    (agree : ∀ point, point.record.payload.satisfies filter = true →
      (first.Holds point ↔ second.Holds point)) : first.matching filter = second.matching filter := by
  have distinct (collection : Collection) : (collection.matching filter).Nodup := by
    refine (collection.matching_sorted filter).imp ?_
    intro point other less same
    rw [same] at less
    exact lt_irrefl _ less
  refine List.Perm.eq_of_pairwise ?_ (first.matching_sorted filter) (second.matching_sorted filter)
    ((List.perm_ext_iff_of_nodup (distinct first) (distinct second)).mpr fun point => ?_)
  · exact fun a b _ _ less more => absurd (lt_trans less more) (lt_irrefl _)
  · rw [mem_matching, mem_matching]
    exact and_congr_left (agree point)

end Collection

end DocContext
