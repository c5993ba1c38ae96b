import DocContext.Workers.Runs

/-! Jobs of different documents commute and every job can be repeated, so the
store depends only on which jobs took part. -/

namespace DocContext

open Foundation Coroutine

variable {env : Env} {extract : Extraction}

theorem ids_disjoint (injective : Function.Injective env.uuid5) {one two : JobEnvelope}
    (different : one.documentId ≠ two.documentId) :
    ∀ id ∈ ((indexedPoints env extract one).map Point.entry).map Prod.fst,
      id ∉ ((indexedPoints env extract two).map Point.entry).map Prod.fst := by
  intro id member member'
  obtain ⟨index, _, same⟩ := mem_ids.mp member
  obtain ⟨index', _, same'⟩ := mem_ids.mp member'
  exact different (chunkIdFor_inj injective (same.symm.trans same')).1

theorem entries_kept {one two : JobEnvelope} (different : one.documentId ≠ two.documentId) :
    ∀ entry ∈ (indexedPoints env extract one).map Point.entry,
      inDocument two.clientId two.documentId entry.2 = false := by
  rintro ⟨id, record⟩ member
  rw [← Bool.not_eq_true, inDocument_iff]
  rintro ⟨_, document⟩
  exact different (Option.some.inj
    ((mem_indexedPoints (mem_entries.mp member)).2.1.symm.trans document))

theorem jobEffect_comm (injective : Function.Injective env.uuid5) {one two : JobEnvelope}
    (different : one.documentId ≠ two.documentId) (stock : Store String Record) :
    jobEffect env extract one (jobEffect env extract two stock) =
      jobEffect env extract two (jobEffect env extract one stock) := by
  unfold jobEffect
  cases one.jobType with
  | indexDocument =>
    cases two.jobType with
    | indexDocument => exact Store.write_comm (ids_disjoint injective different)
    | deleteDocument => exact (Store.remove_write (entries_kept different)).symm
  | deleteDocument =>
    cases two.jobType with
    | indexDocument => exact Store.remove_write (entries_kept (Ne.symm different))
    | deleteDocument => exact Store.remove_comm ..

theorem jobEffect_idem (job : JobEnvelope) (stock : Store String Record) :
    jobEffect env extract job (jobEffect env extract job stock) = jobEffect env extract job stock := by
  unfold jobEffect
  cases job.jobType with
  | indexDocument => exact Store.write_idem _
  | deleteDocument => exact Store.remove_idem _

/-- A run that completes applies the effects of its jobs in order. -/
theorem processAll_jobs {start : World} {deliveries : List Delivery}
    (completed : AllCompleted env start deliveries)
    (deterministic : ∀ delivery ∈ deliveries, delivery.extract = extract) :
    (processAll env start deliveries).stock =
      (deliveries.map Delivery.envelope).foldl (fun stock job => jobEffect env extract job stock)
        start.stock := by
  rw [processAll_stock completed, List.foldl_map]
  refine List.foldl_ext _ _ _ fun stock delivery member => ?_
  rw [Delivery.effect, deterministic delivery member]

/-- Two runs of the same succeeding jobs, with pairwise distinct documents, from
one store lead to the same points, in whatever order the jobs are processed and
however often each of them is redelivered. -/
theorem redelivery_independent (env : Env) (injective : Function.Injective env.uuid5)
    (extract : Extraction) (start : World) (first second : List Delivery)
    (deterministic : ∀ delivery ∈ first ++ second, delivery.extract = extract)
    (distinct : ∀ one ∈ first, ∀ two ∈ first,
      one.envelope.documentId = two.envelope.documentId → one.envelope = two.envelope)
    (same : ∀ job, job ∈ first.map Delivery.envelope ↔ job ∈ second.map Delivery.envelope)
    (completed : AllCompleted env start first) (completed' : AllCompleted env start second) :
    (processAll env start first).stock = (processAll env start second).stock := by
  rw [processAll_jobs completed fun delivery member =>
      deterministic delivery (List.mem_append_left _ member),
    processAll_jobs completed' fun delivery member =>
      deterministic delivery (List.mem_append_right _ member)]
  refine foldl_act_eq (jobEffect env extract) (fun job => job ∈ first.map Delivery.envelope) ?_
    (fun job _ => jobEffect_idem job) (fun job member => member) same start.stock
  intro one two oneTaken twoTaken stock
  by_cases document : one.documentId = two.documentId
  · obtain ⟨delivery, member, rfl⟩ := List.mem_map.mp oneTaken
    obtain ⟨delivery', member', rfl⟩ := List.mem_map.mp twoTaken
    rw [distinct delivery member delivery' member' document]
  · exact jobEffect_comm injective document stock

/-- An index and a delete job, and the two with the index job redelivered last. -/
theorem redelivery_independent_sample :
    let index := Sample.delivery (Sample.indexJob "1" "a" "d:1" "hi there all")
    let delete := Sample.delivery (Sample.deleteJob "2" "b" "d")
    let start := Sample.world (some (.empty 1))
    (processAll Sample.env start [index, delete]).stock =
      (processAll Sample.env start [index, delete, index]).stock := by
  intro index delete start
  have indexed (start : World) : index.Completed Sample.env start :=
    Sample.completed start rfl (by decide)
  have deleted : delete.Completed Sample.env (index.process Sample.env start).2 :=
    Sample.completedDelete rfl ((index.process_outcome Sample.env start).exists' rfl)
  refine redelivery_independent Sample.env Function.injective_id Sample.extract start
    [index, delete] [index, delete, index] ?_ ?_ ?_ ⟨indexed start, deleted, trivial⟩
    ⟨indexed start, deleted, indexed _, trivial⟩
  · simp [index, delete, Sample.delivery]
  · simp [index, delete, Sample.delivery, Sample.indexJob, Sample.deleteJob]
  · intro job
    simp only [List.map_cons, List.map_nil, List.mem_cons, List.not_mem_nil, or_false]
    constructor
    · rintro (first | second)
      · exact .inl first
      · exact .inr (.inl second)
    · rintro (first | second | again)
      · exact .inl first
      · exact .inr second
      · exact .inl again

end DocContext
