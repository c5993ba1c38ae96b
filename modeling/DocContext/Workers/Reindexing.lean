import DocContext.Workers.Runs

/-! Re-indexing a document. An upsert replaces the chunks of an older version up
to the number of the new ones; what the older version had beyond them stays. -/

namespace DocContext

open Foundation Coroutine

namespace Delivery

def Indexes (delivery : Delivery) : Bool := delivery.envelope.jobType = .indexDocument

end Delivery

/-- The index jobs of a document since its last delete job, latest first. -/
def versions (documentId : String) (deliveries : List Delivery) : List Delivery :=
  (deliveries.filter fun delivery => decide (delivery.envelope.documentId = documentId)).reverse.takeWhile
    Delivery.Indexes

/-- The points a document should have: the chunks of its latest version. -/
def latestChunks (env : Env) (documentId : String) (deliveries : List Delivery) :
    List (String × Payload) :=
  match versions documentId deliveries with
  | [] => []
  | latest :: _ => (latest.chunks env).map fun chunk =>
      (chunkIdFor env documentId chunk.chunkIndex, latest.payload env chunk)

/-- The stored points of a document are exactly the chunks of its latest
version. -/
def Reflects (env : Env) (clientId documentId : String) (deliveries : List Delivery)
    (world : World) : Prop :=
  ∀ id payload,
    (∃ record, world.stock id = some record ∧ record.payload = payload ∧
        inDocument clientId documentId record = true) ↔
      (id, payload) ∈ latestChunks env documentId deliveries

/-- No earlier version since the last delete had more chunks than the latest. -/
def NeverShrunk (env : Env) (documentId : String) (deliveries : List Delivery) : Prop :=
  match versions documentId deliveries with
  | [] => True
  | latest :: earlier => ∀ version ∈ earlier,
      (version.chunks env).length ≤ (latest.chunks env).length

theorem versions_snoc (documentId : String) (deliveries : List Delivery) (last : Delivery) :
    versions documentId (deliveries ++ [last]) =
      if last.envelope.documentId = documentId then
        if last.Indexes then last :: versions documentId deliveries else []
      else versions documentId deliveries := by
  unfold versions
  by_cases own : last.envelope.documentId = documentId
  · rw [if_pos own, List.filter_append, List.filter_cons_of_pos (by simpa using own), List.filter_nil,
      List.reverse_append, List.reverse_singleton, List.singleton_append, List.takeWhile_cons]
  · rw [if_neg own, List.filter_append, List.filter_cons_of_neg (by simpa using own), List.filter_nil,
      List.append_nil]

theorem mem_versions {documentId : String} {deliveries : List Delivery} {version : Delivery}
    (member : version ∈ versions documentId deliveries) :
    version ∈ deliveries ∧ version.envelope.documentId = documentId ∧ version.Indexes = true := by
  have kept := (List.takeWhile_sublist _).mem member
  rw [List.mem_reverse, List.mem_filter] at kept
  exact ⟨kept.1, of_decide_eq_true kept.2, List.mem_takeWhile_imp member⟩

/-- Versions written over one another, the first of the list last. -/
def layers (env : Env) (versions : List Delivery) : Store String Record :=
  versions.foldr (fun version store => store.write ((version.points env).map Point.entry))
    fun _ => none

theorem layers_cons (env : Env) (version : Delivery) (rest : List Delivery) :
    layers env (version :: rest) =
      (layers env rest).write ((version.points env).map Point.entry) := rfl

section Layers

variable {env : Env} {documentId : String} {layered : List Delivery} {id : String}

theorem layers_ids (own : ∀ version ∈ layered, version.envelope.documentId = documentId)
    {record : Record} (held : layers env layered id = some record) :
    ∃ version ∈ layered, ∃ index < (version.points env).length,
      id = chunkIdFor env documentId index := by
  induction layered with
  | nil => cases held
  | cons version rest ih =>
    by_cases written : id ∈ ((version.points env).map Point.entry).map Prod.fst
    · obtain ⟨index, within, same⟩ := mem_ids.mp written
      rw [own version (List.mem_cons_self ..)] at same
      exact ⟨version, List.mem_cons_self .., index, within, same⟩
    · rw [layers_cons, Store.write_other written] at held
      obtain ⟨older, member, found⟩ :=
        ih (fun other present => own other (List.mem_cons_of_mem _ present)) held
      exact ⟨older, List.mem_cons_of_mem _ member, found⟩

theorem layers_isSome (env : Env) {version : Delivery} (member : version ∈ layered) {index : Nat}
    (within : index < (version.points env).length) :
    (layers env layered (chunkIdFor env version.envelope.documentId index)).isSome := by
  induction layered with
  | nil => simp at member
  | cons first rest ih =>
    by_cases written : chunkIdFor env version.envelope.documentId index ∈
        ((first.points env).map Point.entry).map Prod.fst
    · obtain ⟨record, _, stored⟩ := Store.write_own written
      exact Option.isSome_iff_exists.mpr ⟨record, stored _⟩
    · rcases List.mem_cons.mp member with same | later
      · subst same
        exact absurd (mem_ids.mpr ⟨index, within, rfl⟩) written
      · rw [layers_cons, Store.write_other written]
        exact ih later

/-- Of one document the store holds these versions, written over one another. -/
def Layered (env : Env) (clientId documentId : String) (layered : List Delivery)
    (stock : Store String Record) : Prop :=
  ∀ id record, stock id = some record ∧ inDocument clientId documentId record = true ↔
    layers env layered id = some record

variable {clientId : String} {stock : Store String Record} {last : Delivery}

theorem effect_delete (delete : last.envelope.jobType = .deleteDocument) {record : Record} :
    last.effect env stock id = some record ↔ stock id = some record ∧
      inDocument last.envelope.clientId last.envelope.documentId record = false := by
  rw [Delivery.effect, jobEffect, delete]
  exact Store.remove_eq_some

theorem effect_index (injective : Function.Injective env.uuid5)
    (index : last.envelope.jobType = .indexDocument) {record : Record} :
    last.effect env stock id = some record ↔ (⟨id, record⟩ : Point) ∈ last.points env ∨
      (stock id = some record ∧ id ∉ ((last.points env).map Point.entry).map Prod.fst) := by
  rw [Delivery.effect, jobEffect, index]
  exact (Store.write_eq_some (ids_distinct injective)).trans (or_congr_left mem_entries)

/-- A delete job leaves no version of its document and touches no other. -/
theorem Layered.delete (holds : Layered env clientId documentId layered stock)
    (owner : last.envelope.clientId = clientId)
    (delete : last.envelope.jobType = .deleteDocument) :
    Layered env clientId documentId
      (if last.envelope.documentId = documentId then [] else layered) (last.effect env stock) := by
  intro id record
  rw [effect_delete delete, owner]
  by_cases own : last.envelope.documentId = documentId
  · rw [if_pos own, own]
    simp [layers]
  · rw [if_neg own, ← holds id record, and_right_comm]
    refine and_iff_left_of_imp fun held => ?_
    rw [← Bool.not_eq_true, inDocument_iff]
    intro both
    exact own (Option.some.inj (both.2.symm.trans (inDocument_iff.mp held.2).2))

/-- An index job writes the new version of its document over the old ones. -/
theorem Layered.index_own (holds : Layered env clientId documentId layered stock)
    (injective : Function.Injective env.uuid5) (owner : last.envelope.clientId = clientId)
    (index : last.envelope.jobType = .indexDocument) (own : last.envelope.documentId = documentId) :
    Layered env clientId documentId (last :: layered) (last.effect env stock) := by
  intro id record
  have over' : layers env (last :: layered) id = some record ↔
      (⟨id, record⟩ : Point) ∈ last.points env ∨ (layers env layered id = some record ∧
        id ∉ ((last.points env).map Point.entry).map Prod.fst) :=
    (Store.write_eq_some (ids_distinct injective)).trans (or_congr_left mem_entries)
  rw [effect_index injective index, over', ← holds id record]
  constructor
  · rintro ⟨fresh | ⟨held, other⟩, inside⟩
    · exact .inl fresh
    · exact .inr ⟨⟨held, inside⟩, other⟩
  · rintro (fresh | ⟨⟨held, inside⟩, other⟩)
    · rw [← owner, ← own]
      exact ⟨.inl fresh, inDocument_indexed fresh⟩
    · exact ⟨.inr ⟨held, other⟩, inside⟩

/-- An index job writes no point of another document, nor over one. -/
theorem Layered.index_other (holds : Layered env clientId documentId layered stock)
    (injective : Function.Injective env.uuid5) (index : last.envelope.jobType = .indexDocument)
    (other : last.envelope.documentId ≠ documentId)
    (versions : ∀ version ∈ layered, version.envelope.documentId = documentId) :
    Layered env clientId documentId layered (last.effect env stock) := by
  intro id record
  rw [effect_index injective index, ← holds id record]
  constructor
  · rintro ⟨fresh | ⟨held, _⟩, inside⟩
    · have documents := (inDocument_iff.mp (inDocument_indexed fresh)).2
      exact absurd (Option.some.inj (documents.symm.trans (inDocument_iff.mp inside).2)) other
    · exact ⟨held, inside⟩
  · rintro ⟨held, inside⟩
    refine ⟨.inr ⟨held, fun collides => ?_⟩, inside⟩
    obtain ⟨_, _, number, _, same⟩ := layers_ids versions ((holds id record).mp ⟨held, inside⟩)
    obtain ⟨number', _, same'⟩ := mem_ids.mp collides
    exact other (chunkIdFor_inj injective (same'.symm.trans same)).1

end Layers

/-- The effects of a run on the points of one document, when all jobs are of one
tenant: the versions of the document, written over one another. -/
theorem stock_layers {env : Env} (injective : Function.Injective env.uuid5) {clientId : String}
    {deliveries : List Delivery}
    (tenant : ∀ delivery ∈ deliveries, delivery.envelope.clientId = clientId)
    {stock : Store String Record} (empty : stock = fun _ => none) (documentId : String) :
    Layered env clientId documentId (versions documentId deliveries)
      (deliveries.foldl (fun stock delivery => delivery.effect env stock) stock) := by
  induction deliveries using List.reverseRecOn with
  | nil =>
    intro id record
    simp [empty, versions, layers]
  | append_singleton earlier last ih =>
    have owner := tenant last (List.mem_append_right _ (List.mem_singleton_self _))
    have before := ih fun delivery member => tenant delivery (List.mem_append_left _ member)
    rw [List.foldl_append, List.foldl_cons, List.foldl_nil, versions_snoc]
    cases type : last.envelope.jobType with
    | deleteDocument =>
      have cleared : last.Indexes = false := by simp [Delivery.Indexes, type]
      rw [cleared]
      exact before.delete owner type
    | indexDocument =>
      have indexes : last.Indexes = true := by simp [Delivery.Indexes, type]
      rw [indexes]
      by_cases own : last.envelope.documentId = documentId
      · rw [if_pos own, if_pos rfl]
        exact before.index_own injective owner type own
      · rw [if_neg own]
        exact before.index_other injective type own fun version member => (mem_versions member).2.1

section Run

variable {env : Env} {start : World} {collection : Collection} {clientId documentId : String}
  {deliveries : List Delivery}

/-- The stored points of a document after a run that completes. -/
theorem stock_versions (injective : Function.Injective env.uuid5)
    (present : start.collection = some collection) (empty : collection.view = fun _ => none)
    (tenant : ∀ delivery ∈ deliveries, delivery.envelope.clientId = clientId)
    (completed : AllCompleted env start deliveries) (documentId id : String) (record : Record) :
    (processAll env start deliveries).stock id = some record ∧
        inDocument clientId documentId record = true ↔
      layers env (versions documentId deliveries) id = some record := by
  rw [processAll_stock completed]
  exact stock_layers injective tenant ((stock_of_some present).trans empty) documentId id record

theorem version_points (completed : AllCompleted env start deliveries) {version : Delivery}
    (member : version ∈ versions documentId deliveries) :
    (version.points env).map (fun point => (point.id, point.record.payload)) =
      (version.chunks env).map fun chunk =>
        (chunkIdFor env documentId chunk.chunkIndex, version.payload env chunk) := by
  obtain ⟨listed, own, index⟩ := mem_versions member
  obtain ⟨stored, indexed⟩ := indexed_of_completed completed listed (of_decide_eq_true index)
  rw [← own]
  exact Delivery.points_chunks indexed

theorem version_length (completed : AllCompleted env start deliveries) {version : Delivery}
    (member : version ∈ versions documentId deliveries) :
    (version.points env).length = (version.chunks env).length := by
  have lengths := congrArg List.length (version_points completed member)
  rwa [List.length_map, List.length_map] at lengths

theorem mem_latest_points {latest : Delivery} {id : String} {payload : Payload}
    (same : (latest.points env).map (fun point => (point.id, point.record.payload)) =
      (latest.chunks env).map fun chunk =>
        (chunkIdFor env documentId chunk.chunkIndex, latest.payload env chunk)) :
    ((id, payload) ∈ (latest.chunks env).map fun chunk =>
        (chunkIdFor env documentId chunk.chunkIndex, latest.payload env chunk)) ↔
      ∃ record, (⟨id, record⟩ : Point) ∈ latest.points env ∧ record.payload = payload := by
  rw [← same, List.mem_map]
  constructor
  · rintro ⟨⟨_, record⟩, member, equal⟩
    cases equal
    exact ⟨record, member, rfl⟩
  · rintro ⟨record, member, rfl⟩
    exact ⟨⟨id, record⟩, member, rfl⟩

/-- Versions that never shrink replace one another. -/
theorem reflects_of_neverShrunk (injective : Function.Injective env.uuid5)
    (present : start.collection = some collection) (empty : collection.view = fun _ => none)
    (tenant : ∀ delivery ∈ deliveries, delivery.envelope.clientId = clientId)
    (completed : AllCompleted env start deliveries)
    (never : NeverShrunk env documentId deliveries) :
    Reflects env clientId documentId deliveries (processAll env start deliveries) := by
  intro id payload
  have reached := stock_versions injective present empty tenant completed documentId id
  have left : (∃ record, (processAll env start deliveries).stock id = some record ∧
      record.payload = payload ∧ inDocument clientId documentId record = true) ↔
      ∃ record, layers env (versions documentId deliveries) id = some record ∧
        record.payload = payload := by
    refine exists_congr fun record => ?_
    rw [← reached record]
    tauto
  rw [left]
  unfold latestChunks
  unfold NeverShrunk at never
  have owned := @version_points env start documentId deliveries completed
  have counted := @version_length env start documentId deliveries completed
  have own : ∀ version ∈ versions documentId deliveries,
      version.envelope.documentId = documentId := fun version member => (mem_versions member).2.1
  cases layered : versions documentId deliveries with
  | nil => simp [layers]
  | cons latest earlier =>
    rw [layered] at never owned counted own
    rw [mem_latest_points (owned (List.mem_cons_self ..)), layers_cons]
    refine exists_congr fun record => and_congr_left fun _ => ?_
    refine (Store.write_eq_some (ids_distinct injective)).trans
      ((or_congr_left mem_entries).trans (or_iff_left ?_))
    rintro ⟨held, missing⟩
    obtain ⟨version, member, index, within, same⟩ :=
      layers_ids (fun other found => own other (List.mem_cons_of_mem _ found)) held
    refine missing (mem_ids.mpr ⟨index, ?_, ?_⟩)
    · change index < (latest.points env).length
      rw [counted (List.mem_cons_self ..)]
      rw [counted (List.mem_cons_of_mem _ member)] at within
      exact Nat.lt_of_lt_of_le within (never version member)
    · rw [same, own latest (List.mem_cons_self ..)]

/-- What a longer version had beyond the latest one is still stored. -/
theorem neverShrunk_of_reflects (injective : Function.Injective env.uuid5)
    (present : start.collection = some collection) (empty : collection.view = fun _ => none)
    (tenant : ∀ delivery ∈ deliveries, delivery.envelope.clientId = clientId)
    (completed : AllCompleted env start deliveries)
    (reflects : Reflects env clientId documentId deliveries (processAll env start deliveries)) :
    NeverShrunk env documentId deliveries := by
  unfold NeverShrunk
  unfold Reflects latestChunks at reflects
  have reached := stock_versions injective present empty tenant completed documentId
  have owned := @version_points env start documentId deliveries completed
  have counted := @version_length env start documentId deliveries completed
  have own : ∀ version ∈ versions documentId deliveries,
      version.envelope.documentId = documentId := fun version member => (mem_versions member).2.1
  cases layered : versions documentId deliveries with
  | nil => trivial
  | cons latest earlier =>
    rw [layered] at reflects reached owned counted own
    intro version member
    by_contra longer
    rw [Nat.not_le, ← counted (List.mem_cons_of_mem _ member),
      ← counted (List.mem_cons_self ..)] at longer
    let id := chunkIdFor env documentId (latest.points env).length
    have stale : id ∉ ((latest.points env).map Point.entry).map Prod.fst := by
      intro written
      obtain ⟨index, within, same⟩ := mem_ids.mp written
      have equal := (chunkIdFor_inj injective same).2
      exact absurd within (by rw [← equal]; exact Nat.lt_irrefl _)
    have below := layers_isSome env member longer
    rw [own version (List.mem_cons_of_mem _ member)] at below
    obtain ⟨record, held⟩ := Option.isSome_iff_exists.mp below
    have top : layers env (latest :: earlier) id = some record := by
      rw [layers_cons, Store.write_other stale]
      exact held
    obtain ⟨stored, inside⟩ := (reached id record).mpr top
    have expected := (reflects id record.payload).mp ⟨record, stored, rfl, inside⟩
    obtain ⟨written, found, _⟩ :=
      (mem_latest_points (owned (List.mem_cons_self ..))).mp expected
    exact stale (List.mem_map.mpr ⟨_, mem_entries.mpr found, rfl⟩)

end Run

/-- After any run of one tenant's jobs from an empty collection in which all jobs
succeed, the stored points of a document are exactly the chunks of its latest
version if and only if no version since its last delete had more chunks. -/
theorem reindexing_replaces_iff (env : Env) (injective : Function.Injective env.uuid5)
    (start : World) (collection : Collection) (present : start.collection = some collection)
    (empty : collection.view = fun _ => none) (clientId : String) (deliveries : List Delivery)
    (tenant : ∀ delivery ∈ deliveries, delivery.envelope.clientId = clientId)
    (completed : AllCompleted env start deliveries) (documentId : String) :
    Reflects env clientId documentId deliveries (processAll env start deliveries) ↔
      NeverShrunk env documentId deliveries :=
  ⟨neverShrunk_of_reflects injective present empty tenant completed,
    reflects_of_neverShrunk injective present empty tenant completed⟩

/-- A version of one chunk and, later, one of three chunks. -/
private def growing : List Delivery :=
  [Sample.delivery (Sample.indexJob "1" "c" "d" "hi"),
    Sample.delivery (Sample.indexJob "2" "c" "d" "hi there all")]

private theorem growing_completed (start : World) : AllCompleted Sample.env start growing :=
  ⟨Sample.completed _ rfl (by decide), Sample.completed _ rfl (by decide), trivial⟩

theorem reindexing_replaces_sample :
    Reflects Sample.env "c" "d" growing
      (processAll Sample.env (Sample.world (some (.empty 1))) growing) := by
  have replaces := reindexing_replaces_iff Sample.env Function.injective_id
    (Sample.world (some (.empty 1))) (.empty 1) rfl (Collection.view_empty 1) "c" growing (by decide)
    (growing_completed _) "d"
  refine replaces.mpr fun version earlier => ?_
  rw [List.mem_singleton.mp earlier]
  decide

/-- A version of three chunks and, later, one of one chunk. -/
private def shrinking : List Delivery :=
  [Sample.delivery (Sample.indexJob "1" "c" "d" "hi there all"),
    Sample.delivery (Sample.indexJob "2" "c" "d" "hi")]

private theorem shrinking_completed (start : World) : AllCompleted Sample.env start shrinking :=
  ⟨Sample.completed _ rfl (by decide), Sample.completed _ rfl (by decide), trivial⟩

/-- The later chunks of the first version survive the second version. -/
theorem reindexing_leaves_stale_chunks :
    ¬ ∀ (env : Env), Function.Injective env.uuid5 → ∀ (start : World) (collection : Collection),
      start.collection = some collection → (collection.view = fun _ => none) →
      ∀ (clientId : String) (deliveries : List Delivery),
      (∀ delivery ∈ deliveries, delivery.envelope.clientId = clientId) →
      AllCompleted env start deliveries → ∀ documentId,
      Reflects env clientId documentId deliveries (processAll env start deliveries) := by
  intro replaces
  have reflects := replaces Sample.env Function.injective_id (Sample.world (some (.empty 1)))
    (.empty 1) rfl (Collection.view_empty 1) "c" shrinking (by decide) (shrinking_completed _) "d"
  have never : NeverShrunk Sample.env "d" shrinking :=
    neverShrunk_of_reflects Function.injective_id rfl (Collection.view_empty 1) (by decide)
      (shrinking_completed _) reflects
  have shrunk := never (Sample.delivery (Sample.indexJob "1" "c" "d" "hi there all"))
    (List.mem_singleton_self _)
  exact absurd shrunk (by decide)

end DocContext
