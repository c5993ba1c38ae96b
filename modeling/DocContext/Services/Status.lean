import DocContext.Repositories.Operations
import DocContext.Services.Converters
import DocContext.Workers.Runs

/-! `GetIndexingJobStatus`: the row of a job, read back verbatim. -/

namespace DocContext

open Foundation Coroutine

structure GetIndexingJobStatusResponse where
  jobId : String
  documentId : String
  status : Int
  errorMessage : String
deriving DecidableEq

namespace GetIndexingJobStatusHandler

def handle (jobId : String) : Task GetIndexingJobStatusResponse := do
  if jobId = "" then
    abort .invalidArgument "job_id is required"
  else
    match ← request (.getJob jobId) with
    | none => abort .notFound ("job " ++ jobId ++ " not found")
    | some job =>
      return ⟨job.jobId, job.documentId, statusToProto job.status, job.errorMessage.getD ""⟩

theorem handle_row {env : Env} {world : World} {jobId : String}
    {response : GetIndexingJobStatusResponse}
    (answered : ((handle jobId).exec (perform env) world).1 = .ok response) :
    ∃ row, world.table.rows jobId = some row ∧
      response = ⟨row.jobId, row.documentId, statusToProto row.status, row.errorMessage.getD ""⟩ := by
  unfold handle at answered
  split at answered
  · cases answered
  · rw [bind_eq, exec_bind, exec_request] at answered
    cases found : world.table.rows jobId with
    | none =>
      rw [perform, found] at answered
      cases answered
    | some row =>
      rw [perform, found] at answered
      exact ⟨row, rfl, (Except.ok.inj answered).symm⟩

end GetIndexingJobStatusHandler

/-- Only a failed row has a message, and only a failed job is reported with one. -/
structure MessagesOnFailed (env : Env) (table : JobTable) : Prop where
  rows : table.Clean
  reports : ∀ (world : World) (jobId : String) (response : GetIndexingJobStatusResponse),
    world.table = table →
      ((GetIndexingJobStatusHandler.handle jobId).exec (perform env) world).1 = .ok response →
        response.errorMessage ≠ "" → response.status = statusToProto .failed

theorem messagesOnFailed_of_clean (env : Env) {table : JobTable} (clean : table.Clean) :
    MessagesOnFailed env table := by
  refine ⟨clean, ?_⟩
  rintro world jobId response rfl answered message
  obtain ⟨row, found, rfl⟩ := GetIndexingJobStatusHandler.handle_row answered
  by_cases failed : row.status = .failed
  · rw [failed]
  · refine absurd ?_ message
    change row.errorMessage.getD "" = ""
    rw [clean jobId row found failed]
    rfl

/-- In every state a sequence of repository operations leads to, only failed rows
have a message and only failed jobs are reported with one, exactly when no failed
job is marked as running again. -/
theorem messages_on_failed_iff (env : Env) (operations : List Operation) :
    (∀ before, before <+: operations → MessagesOnFailed env (JobTable.run before)) ↔
      ∀ before operation, before ++ [operation] <+: operations →
        ¬ (JobTable.run before).Reopens operation := by
  rw [← JobTable.clean_iff]
  constructor
  · exact fun holds before within => (holds before within).rows
  · exact fun clean before within => messagesOnFailed_of_clean env (clean before within)

/-- A failed job is delivered again: it runs, and still has its message. -/
theorem running_with_message :
    ¬ ∀ (env : Env) (operations : List Operation),
      MessagesOnFailed env (JobTable.run operations) := by
  intro holds
  let operations : List Operation :=
    [.create "1" .indexDocument "c" "corpus" "d" "txt" (some "path"), .markFailed "1" "boom",
      .markRunning "1"]
  obtain ⟨row, found, running, message⟩ : ∃ row, (JobTable.run operations).rows "1" = some row ∧
      row.status = .running ∧ row.errorMessage = some "boom" := ⟨_, rfl, rfl, rfl⟩
  have clean := (holds Sample.env operations).rows "1" row found
    (by rw [running]; exact fun clash => by cases clash)
  cases message.symm.trans clean

end DocContext
