import DocContext.Models

/-! The `indexing_jobs` table and the transitions of `JobRepository`. Every
status a commit writes is also kept in a history, which no code reads. -/

namespace DocContext

structure JobTable where
  rows : String → Option Job
  history : List (String × JobStatus)

namespace JobTable

def empty : JobTable := ⟨fun _ => none, []⟩

/-- Commit a row under its key. -/
def commit (table : JobTable) (jobId : String) (row : Job) : JobTable where
  rows := Function.update table.rows jobId (some row)
  history := table.history ++ [(jobId, row.status)]

/-- The statuses written for one job, oldest first. -/
def statuses (table : JobTable) (jobId : String) : List JobStatus :=
  (table.history.filter fun entry => decide (entry.1 = jobId)).map Prod.snd

/-- The status a job's row has now. -/
def status? (table : JobTable) (jobId : String) : Option JobStatus :=
  (table.rows jobId).map Job.status

/-- `create`: a second row under one primary key is refused. -/
def create (table : JobTable) (jobId : String) (jobType : JobType)
    (clientId corpusId documentId fileType : String) (filePath : Option String) :
    Except PyException (Job × JobTable) :=
  match table.rows jobId with
  | some _ => .error ⟨.integrityError, "duplicate key value violates unique constraint"⟩
  | none =>
    let row : Job := {
      jobId, jobType, clientId, corpusId, documentId, fileType, filePath
      status := .queued
      errorMessage := none }
    .ok (row, table.commit jobId row)

/-- `_transition`. No message (`...`) leaves the old one in place. -/
def transition (table : JobTable) (jobId : String) (status : JobStatus)
    (errorMessage : Option (Option String)) : Except PyException (Job × JobTable) :=
  match table.rows jobId with
  | none => .error ⟨.lookupError, "job " ++ jobId ++ " not found"⟩
  | some row =>
    let updated := { row with status, errorMessage := errorMessage.getD row.errorMessage }
    .ok (updated, table.commit jobId updated)

def markRunning (table : JobTable) (jobId : String) : Except PyException (Job × JobTable) :=
  table.transition jobId .running none

def markSucceeded (table : JobTable) (jobId : String) : Except PyException (Job × JobTable) :=
  table.transition jobId .succeeded (some none)

def markFailed (table : JobTable) (jobId errorMessage : String) :
    Except PyException (Job × JobTable) :=
  table.transition jobId .failed (some (some (sliceTo errorMessage 2048)))

@[simp] theorem commit_rows (table : JobTable) (jobId : String) (row : Job) :
    (table.commit jobId row).rows = Function.update table.rows jobId (some row) := rfl

theorem statuses_commit (table : JobTable) (key jobId : String) (row : Job) :
    (table.commit key row).statuses jobId =
      table.statuses jobId ++ if key = jobId then [row.status] else [] := by
  by_cases own : key = jobId <;> simp [statuses, commit, own]

theorem status?_commit (table : JobTable) (key jobId : String) (row : Job) :
    (table.commit key row).status? jobId =
      if key = jobId then some row.status else table.status? jobId := by
  by_cases own : key = jobId
  · subst own
    simp [status?, commit]
  · rw [if_neg own]
    simp [status?, commit, Function.update_of_ne (Ne.symm own)]

theorem status?_isSome {table : JobTable} {status : JobStatus}
    (read : table.status? jobId = some status) : (table.rows jobId).isSome := by
  rw [status?, Option.map_eq_some_iff] at read
  obtain ⟨row, found, _⟩ := read
  rw [found]
  rfl

/-- The row of a job has the status written last. -/
def Consistent (table : JobTable) : Prop :=
  ∀ jobId, table.status? jobId = (table.statuses jobId).getLast?

theorem consistent_empty : empty.Consistent := fun _ => rfl

theorem Consistent.commit {table : JobTable} (consistent : table.Consistent) (key : String)
    (row : Job) : (table.commit key row).Consistent := by
  intro jobId
  rw [status?_commit, statuses_commit]
  split
  · rw [List.getLast?_concat]
  · rw [List.append_nil]
    exact consistent jobId

/-- A created row is queued, under a key that was free. -/
theorem create_ok {table table' : JobTable} {row : Job}
    (created : table.create jobId jobType clientId corpusId documentId fileType filePath =
      .ok (row, table')) :
    table.rows jobId = none ∧ row.status = .queued ∧ table' = table.commit jobId row := by
  unfold create at created
  split at created
  · cases created
  · rename_i free
    cases created
    exact ⟨free, rfl, rfl⟩

/-- A transition writes the new status to a row that exists, and keeps every
other field but the message. -/
theorem transition_ok {table table' : JobTable} {row : Job}
    (moved : table.transition jobId status message = .ok (row, table')) :
    ∃ before, table.rows jobId = some before ∧
      row = { before with status, errorMessage := message.getD before.errorMessage } ∧
      table' = table.commit jobId row := by
  unfold transition at moved
  split at moved
  · cases moved
  · rename_i before found
    cases moved
    exact ⟨before, found, rfl, rfl⟩

theorem transition_of_row {table : JobTable} {before : Job}
    (found : table.rows jobId = some before) (status : JobStatus)
    (message : Option (Option String)) :
    table.transition jobId status message =
      .ok ({ before with status, errorMessage := message.getD before.errorMessage },
        table.commit jobId
          { before with status, errorMessage := message.getD before.errorMessage }) := by
  simp [transition, found]

end JobTable

end DocContext
