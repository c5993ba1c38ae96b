import DocContext.Workers.Runs

/-! Write isolation between tenants. Reads and deletes filter by client, but an
upsert replaces whatever is stored under an id, and the id of a chunk is made of
its document and index only. -/

namespace DocContext

open Foundation Coroutine

/-- The stored points of a tenant. -/
def World.ofTenant (clientId : String) (world : World) : Set Point :=
  {point | world.stock point.id = some point.record ∧
    point.record.payload.clientId = some clientId}

/-- The job writes under an id where a point of another tenant is stored. -/
def Delivery.Overwrites (env : Env) (job : Delivery) (world : World) : Prop :=
  job.envelope.jobType = .indexDocument ∧ (job.table.rows job.envelope.jobId).isSome ∧
    ∃ index < (job.points env).length, ∃ record clientId,
      world.stock (chunkIdFor env job.envelope.documentId index) = some record ∧
        record.payload.clientId = some clientId ∧ clientId ≠ job.envelope.clientId

/-- No step of the job, under any faults, touches a point of another tenant. -/
def Delivery.Isolates (env : Env) (job : Delivery) (world : World) : Prop :=
  ∀ plan clientId, clientId ≠ job.envelope.clientId →
    ({ job with plan }.process env world).2.ofTenant clientId = world.ofTenant clientId

variable {env : Env} {job : Delivery} {world : World}

/-- The effect of a job on another tenant's points, unless it overwrites one. -/
theorem effect_other {clientId : String} (other : clientId ≠ job.envelope.clientId)
    (row : (job.table.rows job.envelope.jobId).isSome) (safe : ¬ job.Overwrites env world)
    {point : Point} (owned : point.record.payload.clientId = some clientId) :
    job.effect env world.stock point.id = some point.record ↔
      world.stock point.id = some point.record := by
  unfold Delivery.effect jobEffect
  cases type : job.envelope.jobType with
  | deleteDocument =>
    refine Store.remove_eq_some.trans (and_iff_left ?_)
    rw [← Bool.not_eq_true, inDocument_iff, owned]
    rintro ⟨same, _⟩
    exact other (Option.some.inj same)
  | indexDocument =>
    by_cases written : point.id ∈ ((job.points env).map Point.entry).map Prod.fst
    · obtain ⟨record, member, stored⟩ := Store.write_own written
      constructor
      · intro held
        cases (stored _).symm.trans held
        have own := (mem_indexedPoints (mem_entries.mp member)).1
        cases own.symm.trans owned
        exact absurd rfl other
      · intro held
        obtain ⟨index, within, same⟩ := mem_ids.mp written
        rw [same] at held
        exact absurd ⟨type, row, index, within, _, _, held, owned, other⟩ safe
    · exact Eq.congr_left (Store.write_other written)

theorem isolates_of_not_overwrites (safe : ¬ job.Overwrites env world) :
    job.Isolates env world := by
  intro plan clientId other
  ext point
  refine and_congr_left fun owned => ?_
  have outcome := Delivery.process_outcome env { job with plan } world
  rcases outcome.stock with same | ⟨row, done⟩
  · rw [same]
    exact Iff.rfl
  · rw [done.stock]
    exact effect_other other row safe owned

/-- An overwriting job that no fault strikes takes the point away. -/
theorem not_isolates_of_overwrites (overwrites : job.Overwrites env world) :
    ¬ job.Isolates env world := by
  obtain ⟨type, row, index, within, record, clientId, held, owned, other⟩ := overwrites
  intro isolates
  have points : job.points env ≠ [] := List.ne_nil_of_length_pos (Nat.zero_lt_of_lt within)
  have returned : ({ job with plan := [] }.process env world).1 = .ok () :=
    Delivery.process_returns rfl row (Delivery.ready_of_points world type points)
  obtain ⟨replaced, member, stored⟩ := Delivery.process_writes (.inl returned) type index within
  have before : (⟨chunkIdFor env job.envelope.documentId index, record⟩ : Point) ∈
      world.ofTenant clientId := ⟨held, owned⟩
  rw [← isolates [] clientId other] at before
  cases stored.symm.trans before.1
  have own := (mem_indexedPoints member).1
  cases own.symm.trans owned
  exact other rfl

/-- In every state a sequence of jobs leads to, a further job keeps every other
tenant's points, whatever strikes it, exactly when it is not an index job that
writes under an id where another tenant's point is stored. -/
theorem tenant_isolation_iff (env : Env) (start : World) (before : List Delivery) (job : Delivery) :
    job.Isolates env (processAll env start before) ↔
      ¬ job.Overwrites env (processAll env start before) :=
  ⟨fun isolates overwrites => not_isolates_of_overwrites overwrites isolates,
    isolates_of_not_overwrites⟩

/-- Two tenants index different files under one document id: the second job takes
the point of the first away. -/
theorem tenant_isolation_fails :
    ¬ ∀ (env : Env) (start : World) (before : List Delivery) (job : Delivery),
      start.collection = none → job.Isolates env (processAll env start before) := by
  intro isolation
  let first := Sample.delivery (Sample.indexJob "1" "a" "d" "mine")
  let second := Sample.delivery (Sample.indexJob "2" "b" "d" "other")
  have completed : first.Completed Sample.env (Sample.world none) :=
    Sample.completed _ rfl (by decide)
  obtain ⟨record, member, stored⟩ :=
    Delivery.process_writes completed rfl 0 (by decide)
  have owned := (mem_indexedPoints member).1
  have overwrites : second.Overwrites Sample.env
      (processAll Sample.env (Sample.world none) [first]) :=
    ⟨rfl, Sample.row _, 0, by decide, record, "a", stored, owned, by decide⟩
  exact not_isolates_of_overwrites overwrites
    (isolation Sample.env (Sample.world none) [first] second rfl)

end DocContext
