import DocContext.Repositories.Job

/-! Sequences of repository operations. A failed operation leaves the table alone. -/

namespace DocContext

/-- A call of the repository that writes. -/
inductive Operation where
  | create (jobId : String) (jobType : JobType)
      (clientId corpusId documentId fileType : String) (filePath : Option String)
  | markRunning (jobId : String)
  | markSucceeded (jobId : String)
  | markFailed (jobId errorMessage : String)
deriving DecidableEq, Repr

/-- The row an operation is about. -/
def Operation.jobId : Operation → String
  | .create jobId .. | .markRunning jobId | .markSucceeded jobId | .markFailed jobId _ => jobId

namespace JobTable

/-- What an operation returns or raises, and the table it commits. -/
def operate (table : JobTable) : Operation → Except PyException (Job × JobTable)
  | .create jobId jobType clientId corpusId documentId fileType filePath =>
    table.create jobId jobType clientId corpusId documentId fileType filePath
  | .markRunning jobId => table.markRunning jobId
  | .markSucceeded jobId => table.markSucceeded jobId
  | .markFailed jobId errorMessage => table.markFailed jobId errorMessage

/-- The table after an operation. -/
def after (table : JobTable) (operation : Operation) : JobTable :=
  match table.operate operation with
  | .ok (_, table) => table
  | .error _ => table

/-- The table after a sequence of operations on an empty one. -/
def run (operations : List Operation) : JobTable := operations.foldl after empty

theorem run_snoc (before : List Operation) (operation : Operation) :
    run (before ++ [operation]) = (run before).after operation := by
  rw [run, List.foldl_append, run]
  rfl

/-- No row but a failed one has a message. -/
def Clean (table : JobTable) : Prop :=
  ∀ jobId row, table.rows jobId = some row → row.status ≠ .failed → row.errorMessage = none

/-- Every failed row has a message. -/
def Explained (table : JobTable) : Prop :=
  ∀ jobId row, table.rows jobId = some row → row.status = .failed → row.errorMessage ≠ none

/-- The operation takes up a failed job again. -/
def Reopens (table : JobTable) (operation : Operation) : Prop :=
  ∃ jobId, operation = .markRunning jobId ∧ table.status? jobId = some .failed

/-- A row after an operation is an old one, or the one it returns. -/
theorem after_rows {table : JobTable} {operation : Operation} {jobId : String} {row : Job}
    (found : (table.after operation).rows jobId = some row) :
    table.rows jobId = some row ∨
      (operation.jobId = jobId ∧ ∃ table', table.operate operation = .ok (row, table')) := by
  unfold after at found
  cases operated : table.operate operation with
  | error error =>
    rw [operated] at found
    exact .inl found
  | ok made =>
    obtain ⟨written, table'⟩ := made
    have committed : table' = table.commit operation.jobId written := by
      cases operation with
      | create => exact (create_ok operated).2.2
      | markRunning | markSucceeded | markFailed =>
        obtain ⟨_, _, _, committed⟩ := transition_ok operated
        exact committed
    rw [operated] at found
    change table'.rows jobId = some row at found
    rw [committed, commit_rows, Function.update_apply] at found
    split at found
    · rename_i own
      cases found
      exact .inr ⟨own.symm, _, rfl⟩
    · exact .inl found

theorem create_message {table table' : JobTable} {row : Job}
    (created : table.create jobId jobType clientId corpusId documentId fileType filePath =
      .ok (row, table')) : row.errorMessage = none := by
  unfold create at created
  split at created
  · cases created
  · cases created
    rfl

theorem Clean.after {table : JobTable} {operation : Operation} (clean : table.Clean)
    (fresh : ¬ table.Reopens operation) : (table.after operation).Clean := by
  intro jobId row found unfailed
  rcases after_rows found with old | ⟨own, table', operated⟩
  · exact clean jobId row old unfailed
  · cases operation with
    | create => exact create_message operated
    | markRunning key =>
      obtain ⟨before, present, updated, _⟩ := transition_ok operated
      rw [updated]
      refine clean key before present fun failed => fresh ⟨key, rfl, ?_⟩
      rw [status?, present, ← failed]
      rfl
    | markSucceeded key =>
      obtain ⟨before, _, updated, _⟩ := transition_ok operated
      rw [updated]
      rfl
    | markFailed key message =>
      obtain ⟨before, _, updated, _⟩ := transition_ok operated
      rw [updated] at unfailed
      exact absurd rfl unfailed

theorem Explained.after {table : JobTable} (explained : table.Explained) (operation : Operation) :
    (table.after operation).Explained := by
  intro jobId row found failed
  rcases after_rows found with old | ⟨own, table', operated⟩
  · exact explained jobId row old failed
  · cases operation with
    | create =>
      rw [(create_ok operated).2.1] at failed
      cases failed
    | markRunning key | markSucceeded key =>
      obtain ⟨before, _, updated, _⟩ := transition_ok operated
      rw [updated] at failed
      cases failed
    | markFailed key message =>
      obtain ⟨before, _, updated, _⟩ := transition_ok operated
      rw [updated]
      exact Option.some_ne_none _

theorem run_explained (operations : List Operation) : (run operations).Explained := by
  induction operations using List.reverseRecOn with
  | nil =>
    intro jobId row found
    cases found
  | append_singleton before operation ih =>
    rw [run_snoc]
    exact ih.after operation

/-- Taking up a failed job again leaves its message on a row that runs. -/
theorem not_clean_of_reopens {table : JobTable} {operation : Operation}
    (explained : table.Explained) (reopens : table.Reopens operation) :
    ¬ (table.after operation).Clean := by
  obtain ⟨jobId, rfl, failed⟩ := reopens
  obtain ⟨before, found, status⟩ := Option.map_eq_some_iff.mp failed
  intro clean
  have operated : table.operate (.markRunning jobId) =
      .ok ({ before with status := .running },
        table.commit jobId { before with status := .running }) :=
    transition_of_row found .running none
  unfold after at clean
  rw [operated] at clean
  refine explained jobId before found status ?_
  refine clean jobId { before with status := .running } ?_ fun clash => by cases clash
  rw [commit_rows, Function.update_self]

/-- Along a sequence of operations the rows stay clean exactly when no failed job
is taken up again. -/
theorem clean_iff (operations : List Operation) :
    (∀ before, before <+: operations → (run before).Clean) ↔
      ∀ before operation, before ++ [operation] <+: operations →
        ¬ (run before).Reopens operation := by
  constructor
  · intro clean before operation within reopens
    refine not_clean_of_reopens (run_explained before) reopens ?_
    rw [← run_snoc]
    exact clean _ within
  · intro fresh before
    induction before using List.reverseRecOn with
    | nil =>
      intro _ jobId row found
      cases found
    | append_singleton before operation ih =>
      intro within
      rw [run_snoc]
      exact (ih ((List.prefix_append ..).trans within)).after (fresh before operation within)

end JobTable

end DocContext
