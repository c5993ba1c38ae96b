import DocContext.Foundation.Interleaving
import DocContext.VectorStores.Qdrant

/-! `ensure_collection`, called by any number of workers at once: what a call that
returns has ensured, and what it takes on trust. -/

namespace DocContext

open Foundation Coroutine

namespace QdrantVectorStore

/-- The payload fields that get a keyword index, in order. -/
def hotKeys : List String := ["client_id", "corpus_id", "document_id"]

/-- The collection exists with the dimension, and the fields are indexed. -/
def Established (fields : List String) (dim : Nat) (world : World) : Prop :=
  ∃ collection, world.collection = some collection ∧ collection.dim = dim ∧
    ∀ field ∈ fields, field ∈ collection.indexed

/-- What `ensure_collection` is called for. -/
abbrev Ensured (dim : Nat) (world : World) : Prop := Established hotKeys dim world

/-- How far a call has come. -/
inductive Progress where
  | asking
  | found
  | creating
  | indexing (fields : List String)
  | failed

namespace Progress

/-- The calls `ensure_collection` makes. -/
inductive Awaits (dim : Nat) : Progress → Call → Prop where
  | list : Awaits dim .asking .getCollections
  | create : Awaits dim .creating (.createCollection dim)
  | index {fields : List String} {field : String} :
      Awaits dim (.indexing fields) (.createPayloadIndex field)

def moves (env : Env) (progress : Progress) :
    (call : Call) → Except (Raised PyException) (Reply call) → Progress
  | .getCollections, .ok existing =>
    if existing.contains env.collectionName then .found else .creating
  | .createCollection _, .ok _ => .indexing []
  | .createPayloadIndex field, .ok _ =>
    match progress with
    | .indexing fields => .indexing (fields ++ [field])
    | _ => progress
  | _, .error _ => .failed
  | _, .ok _ => progress

/-- A call returns when it has found the collection, or made it and its indexes. -/
def Ended (progress : Progress) : Except (Raised PyException) Unit → Prop
  | .ok _ => progress = .found ∨ progress = .indexing hotKeys
  | .error _ => progress = .failed

/-- What a call knows of the collection. -/
def Knows (dim : Nat) (progress : Progress) (world : World) : Prop :=
  match progress with
  | .found => Ensured dim world
  | .indexing fields => Established fields dim world
  | .asking | .creating | .failed => True

end Progress

def ensureProtocol (env : Env) (dim : Nat) : Protocol Call Reply PyException Progress where
  admits := Progress.Awaits dim
  moves := Progress.moves env

theorem ensureCollection_progress (env : Env) (dim : Nat) :
    Follows (ensureProtocol env dim) Progress.Ended .asking (ensureCollection env dim) := by
  unfold ensureCollection
  refine follows_request_bind Progress.Awaits.list (fun _ => rfl) fun existing => ?_
  by_cases present : env.collectionName ∈ existing
  · simp [ensureProtocol, Progress.moves, Progress.Ended, present]
  · simp only [ensureProtocol, Progress.moves, List.contains_iff_mem, present, if_false]
    refine follows_request_bind Progress.Awaits.create (fun _ => rfl) fun _ => ?_
    refine follows_request_bind Progress.Awaits.index (fun _ => rfl) fun _ => ?_
    refine follows_request_bind Progress.Awaits.index (fun _ => rfl) fun _ => ?_
    apply follows_request Progress.Awaits.index
    rintro (raised | _)
    · rfl
    · exact .inr rfl

/-- One call of `ensure_collection`, before its first step. -/
def ensuring (env : Env) (dim : Nat) : Process (ensureProtocol env dim) Progress.Ended :=
  ⟨.asking, ensureCollection env dim, ensureCollection_progress env dim⟩

/-- The calls some workers make, for each its dimension, and the store they share. -/
abbrev Ensurers (env : Env) := Crew (ensureProtocol env) (fun _ => Progress.Ended) World

/-- Every call that has returned has ensured what it was called for. -/
def Complete {env : Env} (ensurers : Ensurers env) : Prop :=
  ∀ worker ∈ ensurers.workers, worker.process.body = .ret () →
    Ensured worker.argument ensurers.world

/-- A call that is told of a collection finds it with its dimension and its indexes. -/
def Trusted (dim : Nat) (call : Call) (fault : Option (Fault PyException)) (world : World) : Prop :=
  call = .getCollections → fault = none → world.collection.isSome = true → Ensured dim world

section Calls

variable {env : Env} {dim : Nat} {progress : Progress} {call : Call} {world : World}
  {fault : Option (Fault PyException)}

theorem Established.stays {fields : List String} {other : Nat}
    (established : Established fields other world) (awaits : Progress.Awaits dim progress call) :
    Established fields other (answer (perform env) fault call world).2 := by
  refine answer_of (Established fields other) established ?_
  obtain ⟨collection, present, size, indexed⟩ := established
  cases awaits with
  | list => exact ⟨collection, present, size, indexed⟩
  | create =>
    simp only [perform, present]
    exact ⟨collection, present, size, indexed⟩
  | index =>
    simp only [perform, World.stored, present]
    exact ⟨_, rfl, size, fun field member => List.mem_append_left _ (indexed field member)⟩

theorem Progress.Knows.stays {other : Nat} {state : Progress} (knows : state.Knows other world)
    (awaits : Progress.Awaits dim progress call) :
    state.Knows other (answer (perform env) fault call world).2 := by
  cases state with
  | found => exact Established.stays knows awaits
  | indexing fields => exact Established.stays knows awaits
  | asking | creating | failed => trivial

/-- Each call of a worker, if a collection it is told of is complete. -/
theorem Progress.Knows.moves (knows : progress.Knows dim world)
    (awaits : Progress.Awaits dim progress call) (trusted : Trusted dim call fault world) :
    (progress.moves env call (answer (perform env) fault call world).1).Knows dim
      (answer (perform env) fault call world).2 := by
  cases fault with
  | some fault => cases awaits <;> trivial
  | none =>
    rw [answer_none]
    cases awaits with
    | list =>
      cases present : world.collection with
      | none => simp [perform, Progress.moves, present, Knows]
      | some collection =>
        have ensured := trusted rfl rfl (by simp [present])
        simpa [perform, Progress.moves, present] using show Knows dim .found world from ensured
    | create =>
      cases present : world.collection with
      | some collection => simp [perform, Progress.moves, present, Knows]
      | none => simp [perform, Progress.moves, present, Knows, Established, Collection.empty]
    | @index fields field =>
      obtain ⟨collection, present, size, indexed⟩ := knows
      simp only [perform, World.stored, present, Progress.moves, Knows]
      refine ⟨_, rfl, size, ?_⟩
      intro other member
      rcases List.mem_append.mp member with earlier | last
      · exact List.mem_append_left _ (indexed other earlier)
      · exact List.mem_append_right _ last

end Calls

theorem ensuring_steady (env : Env) :
    Crew.Steady (ensureProtocol env) (perform env) Trusted fun dim progress world =>
      progress.Knows dim world where
  own := fun _ _ _ _ _ awaits trusted knows => knows.moves awaits trusted
  others := fun _ _ _ _ _ awaits _ _ knows => knows.stays awaits

theorem complete_of_know {env : Env} {ensurers : Ensurers env}
    (know : ensurers.Know fun dim progress world => progress.Knows dim world) :
    Complete ensurers := by
  intro worker member returned
  have knows := know worker member
  have ended := worker.process.follows
  rw [returned] at ended
  rcases ended with found | indexed
  · rw [found] at knows
    exact knows
  · rw [indexed] at knows
    exact knows

theorem returned_of_found {env : Env} {dim : Nat} {body : Task Unit}
    (follows : Follows (ensureProtocol env dim) Progress.Ended .found body) : body = .ret () := by
  cases body with
  | ret value => rfl
  | raise raised => cases follows
  | await call resume => cases follows.1

/-- A call that is told of an incomplete collection returns all the same. -/
theorem incomplete_of_untrusted {env : Env} {ensurers after : Ensurers env}
    {action : CrewAction PyException Nat}
    (stepped : ensurers.step (perform env) (ensuring env) action = some after)
    (untrusted : ¬ ensurers.Grants Trusted action) : ¬ Complete after := by
  cases action with
  | start dim => exact absurd trivial untrusted
  | serve index fault =>
    simp only [Crew.Grants, Trusted, not_forall] at untrusted
    obtain ⟨worker, found, call, resume, waits, asks, calm, present, missing⟩ := untrusted
    obtain ⟨worker', process, call', resume', found', waits', admitted, moved, rfl⟩ :=
      Crew.step_serve stepped
    cases found.symm.trans found'
    cases waits.symm.trans waits'
    subst asks calm
    obtain ⟨collection, exists'⟩ := Option.isSome_iff_exists.mp present
    have finds : process.state = .found := by
      simp [moved, ensureProtocol, Progress.moves, perform, exists']
    have follows := process.follows
    rw [finds] at follows
    intro complete
    exact missing
      (complete { worker with process } (mem_replaced found _) (returned_of_found follows))

/-! Calls that are in order. -/

section Order

variable {env : Env} {dim : Nat} {ensurers after : Ensurers env}

/-- Every call asks for the one dimension; no fault strikes an index, or a creation that has
landed; and no call asks for the collections while another is at its indexes. -/
def Orderly (dim : Nat) (ensurers : Ensurers env) : CrewAction PyException Nat → Prop
  | .start argument => argument = dim
  | .serve index fault => ∀ worker, ensurers.workers[index]? = some worker → ∀ call resume,
      worker.process.body = .await call resume →
        (∀ field, call = .createPayloadIndex field → fault = none) ∧
        (∀ struck, call = .createCollection dim → fault = some struck → struck.landed = false) ∧
        (call = .getCollections → ∀ other ∈ ensurers.workers, ∀ field resume,
          other.process.body ≠ .await (.createPayloadIndex field) resume)

/-- What holds of calls in order: a collection was made by a call that has come to its indexes. -/
structure Arranged (dim : Nat) (ensurers : Ensurers env) : Prop where
  know : ensurers.Know fun dim progress world => progress.Knows dim world
  asked : ∀ worker ∈ ensurers.workers, worker.argument = dim
  made : ensurers.world.collection.isSome = true → ∃ worker ∈ ensurers.workers, ∃ fields,
    worker.process.state = .indexing fields

/-- A call at its indexes that makes no more of them has made them all. -/
theorem all_indexed {fields : List String} {body : Task Unit}
    (follows : Follows (ensureProtocol env dim) Progress.Ended (.indexing fields) body)
    (idle : ∀ field resume, body ≠ .await (.createPayloadIndex field) resume) :
    fields = hotKeys := by
  cases body with
  | ret value =>
    rcases follows with found | indexed
    · cases found
    · exact Progress.indexing.inj indexed
  | raise raised => cases follows
  | await call resume =>
    cases follows.1
    exact absurd rfl (idle _ resume)

theorem Arranged.trusted {action : CrewAction PyException Nat} (arranged : Arranged dim ensurers)
    (orderly : Orderly dim ensurers action) : ensurers.Grants Trusted action := by
  cases action with
  | start argument => trivial
  | serve index fault =>
    intro worker found call resume waits asks _ present
    obtain ⟨maker, member, fields, indexing⟩ := arranged.made present
    have follows := maker.process.follows
    rw [indexing] at follows
    have all := all_indexed follows ((orderly worker found call resume waits).2.2 asks maker member)
    have knows := arranged.know maker member
    rw [indexing, all, arranged.asked maker member] at knows
    rw [arranged.asked worker (List.mem_of_getElem? found)]
    exact knows

/-- Where there is a collection after a call in order, the caller is at its indexes, or it is not
and there was one before. -/
theorem made_or_found {progress : Progress} {call : Call} {world : World}
    {fault : Option (Fault PyException)} (awaits : Progress.Awaits dim progress call)
    (knows : progress.Knows dim world)
    (unfailing : ∀ field, call = .createPayloadIndex field → fault = none)
    (unlanded : ∀ struck, call = .createCollection dim → fault = some struck →
      struck.landed = false)
    (present : (answer (perform env) fault call world).2.collection.isSome = true) :
    (∃ fields, progress.moves env call (answer (perform env) fault call world).1 =
      .indexing fields) ∨
      (∀ fields, progress ≠ .indexing fields) ∧ world.collection.isSome = true := by
  cases awaits with
  | list =>
    refine .inr ⟨(fun _ clash => by cases clash), ?_⟩
    rcases answer_world (perform env) fault .getCollections world with same | same <;>
      rwa [same] at present
  | create =>
    cases fault with
    | some struck =>
      refine .inr ⟨(fun _ clash => by cases clash), ?_⟩
      simpa [unlanded struck rfl rfl] using present
    | none =>
      cases before : world.collection with
      | some collection => exact .inr ⟨(fun _ clash => by cases clash), rfl⟩
      | none => exact .inl ⟨[], by simp [perform, before, Progress.moves]⟩
  | @index fields field =>
    obtain ⟨collection, before, _⟩ := knows
    rw [unfailing field rfl]
    exact .inl ⟨fields ++ [field], by simp [perform, World.stored, before, Progress.moves]⟩

theorem arranged_step {action : CrewAction PyException Nat} (arranged : Arranged dim ensurers)
    (orderly : Orderly dim ensurers action)
    (stepped : ensurers.step (perform env) (ensuring env) action = some after) :
    Arranged dim after := by
  have new : ∀ dim world, (ensuring env dim).state.Knows dim world := fun _ _ => trivial
  have know := Crew.know_step (ensuring_steady env) new (arranged.trusted orderly) stepped
    arranged.know
  cases action with
  | start argument =>
    cases stepped
    refine ⟨know, fun worker member => ?_, fun present => ?_⟩
    · rcases List.mem_append.mp member with earlier | new
      · exact arranged.asked worker earlier
      · rw [List.mem_singleton.mp new]
        exact orderly
    · obtain ⟨maker, member, fields, indexing⟩ := arranged.made present
      exact ⟨maker, List.mem_append_left _ member, fields, indexing⟩
  | serve index fault =>
    obtain ⟨worker, process, call, resume, found, waits, admitted, moved, rfl⟩ :=
      Crew.step_serve stepped
    have listed := List.mem_of_getElem? found
    obtain ⟨unfailing, unlanded, _⟩ := orderly worker found call resume waits
    rw [← arranged.asked worker listed] at unlanded
    refine ⟨know, fun other member => ?_, fun present => ?_⟩
    · rcases List.mem_or_eq_of_mem_set member with earlier | rfl
      · exact arranged.asked other earlier
      · exact arranged.asked worker listed
    · rcases made_or_found admitted (arranged.know worker listed) unfailing unlanded present with
        ⟨fields, indexing⟩ | ⟨elsewhere, before⟩
      · exact ⟨_, mem_replaced found _, fields, moved.trans indexing⟩
      · obtain ⟨maker, member, fields, indexing⟩ := arranged.made before
        rcases mem_or_kept found member { worker with process } with rfl | kept
        · exact absurd indexing (elsewhere fields)
        · exact ⟨maker, kept, fields, indexing⟩

theorem arranged_of_reaches {world : World} (vacant : world.collection = none)
    (reaches : Reaches (Crew.step (perform env) (ensuring env)) (Orderly dim) ⟨world, []⟩ ensurers) :
    Arranged dim ensurers :=
  reaches.invariant (Arranged dim)
    (fun _ _ _ orderly stepped arranged => arranged_step arranged orderly stepped)
    ⟨(fun _ member => by cases member), (fun _ member => by cases member), by simp [vacant]⟩

end Order

/-- Whatever the faults and the interleaving, every call that returns has ensured the
collection as long as no call is told of one that lacks its dimension or an index; and one
that is told of such a collection returns without ensuring it. On an empty Qdrant none is
told of one where the calls are in order. -/
theorem ensure_complete_iff (env : Env) :
    (∀ (world : World) (ensurers : Ensurers env),
      Reaches (Crew.step (perform env) (ensuring env)) (Crew.Grants Trusted) ⟨world, []⟩ ensurers →
      Complete ensurers) ∧
    (∀ (ensurers after : Ensurers env) (action : CrewAction PyException Nat),
      ensurers.step (perform env) (ensuring env) action = some after →
      ¬ ensurers.Grants Trusted action → ¬ Complete after) ∧
    ∀ (dim : Nat) (world : World) (ensurers : Ensurers env), world.collection = none →
      Reaches (Crew.step (perform env) (ensuring env)) (Orderly dim) ⟨world, []⟩ ensurers →
      Complete ensurers := by
  refine ⟨fun world ensurers reaches => ?_, fun _ _ _ stepped untrusted =>
    incomplete_of_untrusted stepped untrusted, fun dim world ensurers vacant reaches => ?_⟩
  · have new : ∀ dim world, (ensuring env dim).state.Knows dim world := fun _ _ => trivial
    exact complete_of_know (Crew.know_of_reaches (ensuring_steady env) new reaches)
  · exact complete_of_know (arranged_of_reaches vacant reaches).know

/-- Qdrant with nothing in it. -/
private def vacant : World := ⟨JobTable.empty, [], none, fun path _ => .ok path.toList, 10⟩

/-- The first call creates the collection and fails on its first index; the second one
finds the collection. -/
private def retried : List (CrewAction PyException Nat) :=
  [.start 4, .serve 0 none, .serve 0 none,
    .serve 0 (some ⟨.exception ⟨.other "ResponseHandlingException", "timed out"⟩, false⟩),
    .start 4, .serve 1 none]

theorem ensure_unindexed :
    ¬ ∀ (env : Env) (world : World) (ensurers : Ensurers env), world.collection = none →
      Reaches (Crew.step (perform env) (ensuring env)) anyStep ⟨world, []⟩ ensurers →
      Complete ensurers := by
  intro claimed
  obtain ⟨ensurers, played, worker, member, returned, collection, present, unindexed⟩ :
      ∃ ensurers : Ensurers Sample.env,
        retried.foldlM (Crew.step (perform Sample.env) (ensuring Sample.env)) ⟨vacant, []⟩ =
          some ensurers ∧
        ∃ worker ∈ ensurers.workers, worker.process.body = .ret () ∧
          ∃ collection, ensurers.world.collection = some collection ∧ collection.indexed = [] :=
    ⟨_, rfl, _, .tail _ (.head _), rfl, _, rfl, rfl⟩
  have reaches : Reaches (Crew.step (perform Sample.env) (ensuring Sample.env)) anyStep
      ⟨vacant, []⟩ ensurers := reaches_of_play (fun _ _ _ => trivial) played
  obtain ⟨found, present', _, indexed⟩ :=
    claimed Sample.env vacant ensurers rfl reaches worker member returned
  cases present.symm.trans present'
  have first := indexed "client_id" (by decide)
  rw [unindexed] at first
  cases first

end QdrantVectorStore

end DocContext
