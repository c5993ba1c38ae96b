import DocContext.System.Settlement

/-! Rows and messages. A row and the envelope of its job are written from the same
values, and no transition changes the fields they share. -/

namespace DocContext

open Foundation Coroutine

/-- What a row says of its job, as an envelope. -/
def Job.envelope (row : Job) : JobEnvelope where
  jobId := row.jobId
  jobType := row.jobType
  clientId := row.clientId
  corpusId := row.corpusId
  documentId := row.documentId
  fileType := row.fileType
  filePath := row.filePath

section Answers

variable {env : Env} {call : Call} {world : World} {fault : Option (Fault PyException)}
  {jobId : String} {row : Job}

theorem transition_envelope {table table' : JobTable} {key : String} {status : JobStatus}
    {message : Option (Option String)} {written : Job}
    (moved : table.transition key status message = .ok (written, table'))
    (found : table.rows jobId = some row) :
    ∃ row', table'.rows jobId = some row' ∧ row'.envelope = row.envelope := by
  obtain ⟨before, present, updated, committed⟩ := JobTable.transition_ok moved
  rw [committed, JobTable.commit_rows, Function.update_apply]
  by_cases own : jobId = key
  · subst own
    rw [if_pos rfl]
    cases found.symm.trans present
    refine ⟨written, rfl, ?_⟩
    rw [updated]
    rfl
  · rw [if_neg own]
    exact ⟨row, found, rfl⟩

theorem transition_absent {table table' : JobTable} {key : String} {status : JobStatus}
    {message : Option (Option String)} {written : Job}
    (moved : table.transition key status message = .ok (written, table'))
    (absent : table.rows jobId = none) : table'.rows jobId = none := by
  obtain ⟨before, present, _, committed⟩ := JobTable.transition_ok moved
  rw [committed, JobTable.commit_rows, Function.update_apply, if_neg]
  · exact absent
  · intro own
    rw [own, present] at absent
    cases absent

theorem create_envelope {table table' : JobTable} {written : Job} {envelope : JobEnvelope}
    (created : table.create envelope.jobId envelope.jobType envelope.clientId envelope.corpusId
      envelope.documentId envelope.fileType envelope.filePath = .ok (written, table')) :
    written.envelope = envelope := by
  unfold JobTable.create at created
  split at created
  · cases created
  · cases created
    rfl

/-- A call takes no row away and changes no field of a row but its status and its
message. -/
theorem answer_envelope (found : world.table.rows jobId = some row) :
    ∃ row', (answer (perform env) fault call world).2.table.rows jobId = some row' ∧
      row'.envelope = row.envelope := by
  cases reads : call.written? with
  | none =>
    rw [answer_table reads]
    exact ⟨row, found, rfl⟩
  | some entry =>
    refine answer_of (fun after => ∃ row', after.table.rows jobId = some row' ∧
      row'.envelope = row.envelope) ⟨row, found, rfl⟩ ?_
    have transition (key : String) (status : JobStatus) (message : Option (Option String)) :
        ∃ row', (world.committed (world.table.transition key status message)).2.table.rows jobId =
          some row' ∧ row'.envelope = row.envelope := by
      cases moved : world.table.transition key status message with
      | error error => exact ⟨row, found, rfl⟩
      | ok made => exact transition_envelope moved found
    cases call <;> cases reads
    case some.create.refl key type client corpus document fileType path =>
      change ∃ row', (world.committed
        (world.table.create key type client corpus document fileType path)).2.table.rows jobId =
          some row' ∧ row'.envelope = row.envelope
      cases created : world.table.create key type client corpus document fileType path with
      | error error => exact ⟨row, found, rfl⟩
      | ok made =>
        obtain ⟨free, _, committed⟩ := JobTable.create_ok created
        refine ⟨row, ?_, rfl⟩
        change made.2.rows jobId = some row
        rw [committed, JobTable.commit_rows, Function.update_apply, if_neg]
        · exact found
        · intro own
          rw [own, free] at found
          cases found
    all_goals exact transition ..

theorem awaits_absent {envelope : JobEnvelope} {stage : Stage}
    (awaits : Stage.Awaits env envelope stage call) (absent : world.table.rows jobId = none) :
    (answer (perform env) fault call world).2.table.rows jobId = none := by
  cases reads : call.written? with
  | none => rwa [answer_table reads]
  | some entry =>
    refine answer_of (fun after => after.table.rows jobId = none) absent ?_
    have transition (key : String) (status : JobStatus) (message : Option (Option String)) :
        (world.committed (world.table.transition key status message)).2.table.rows jobId = none := by
      cases moved : world.table.transition key status message with
      | error error => exact absent
      | ok made => exact transition_absent moved absent
    cases awaits <;> cases reads <;> exact transition ..

theorem awaits_marks {envelope : JobEnvelope} {stage : Stage} {status : JobStatus}
    (awaits : Stage.Awaits env envelope stage call) (marks : call.marks? = some (jobId, status)) :
    jobId = envelope.jobId := by
  cases awaits <;> cases marks <;> rfl

/-- A row that a submission's call writes is the one it asks for. -/
theorem awaits_created {submission : Submission} {phase : Phase}
    (awaits : Phase.Awaits submission.envelope phase call)
    (absent : world.table.rows jobId = none)
    (found : (answer (perform env) fault call world).2.table.rows jobId = some row) :
    jobId = submission.jobId ∧ row.envelope = submission.envelope := by
  cases awaits with
  | create =>
    refine answer_of (fun after => after.table.rows jobId = some row →
      jobId = submission.jobId ∧ row.envelope = submission.envelope) ?_ ?_ found
    · intro present
      cases absent.symm.trans present
    · intro present
      rw [perform] at present
      cases created : world.table.create submission.envelope.jobId submission.envelope.jobType
        submission.envelope.clientId submission.envelope.corpusId submission.envelope.documentId
        submission.envelope.fileType submission.envelope.filePath with
      | error error =>
        rw [created] at present
        cases absent.symm.trans present
      | ok made =>
        obtain ⟨_, _, committed⟩ := JobTable.create_ok created
        rw [created] at present
        change made.2.rows jobId = some row at present
        rw [committed, JobTable.commit_rows, Function.update_apply] at present
        split at present
        · rename_i own
          cases present
          exact ⟨own, create_envelope created⟩
        · cases absent.symm.trans present
  | publish wellFormed =>
    rw [answer_table rfl] at found
    cases absent.symm.trans found

end Answers

namespace System

variable {env : Env} {system after : System env} {index : Nat} {fault : Option (Fault PyException)}

/-- A step takes no row away and changes no field of a row but its status and its
message. -/
theorem envelope_kept {action : Action} (stepped : system.step action = some after)
    {jobId : String} {row : Job} (found : system.world.table.rows jobId = some row) :
    ∃ row', after.world.table.rows jobId = some row' ∧ row'.envelope = row.envelope := by
  rcases step_answers stepped with ⟨same, _⟩ | ⟨call, fault, answered⟩
  · rw [same]
    exact ⟨row, found, rfl⟩
  · rw [answered]
    exact answer_envelope found

/-- Every row says what its submission asked for. -/
def Agrees (system : System env) : Prop :=
  ∀ jobId row, system.world.table.rows jobId = some row →
    ∃ submission ∈ system.submissions, submission.jobId = jobId ∧
      row.envelope = submission.envelope

theorem Agrees.old {action : Action} (agrees : system.Agrees)
    (stepped : system.step action = some after)
    (submitted : ∀ submission ∈ system.submissions, submission ∈ after.submissions)
    {jobId : String} {row row' : Job} (found : system.world.table.rows jobId = some row)
    (found' : after.world.table.rows jobId = some row') :
    ∃ submission ∈ after.submissions, submission.jobId = jobId ∧
      row'.envelope = submission.envelope := by
  obtain ⟨submission, listed, same, written⟩ := agrees jobId row found
  obtain ⟨kept, present, unchanged⟩ := envelope_kept stepped found
  cases found'.symm.trans present
  exact ⟨submission, submitted submission listed, same, unchanged.trans written⟩

theorem agrees_step {action : Action} (agrees : system.Agrees)
    (stepped : system.step action = some after) : after.Agrees := by
  intro jobId row' found'
  have submitted : ∀ submission ∈ system.submissions, submission ∈ after.submissions :=
    fun _ => submissions_grow stepped
  cases found : system.world.table.rows jobId with
  | some row => exact agrees.old stepped submitted found found'
  | none =>
    cases action with
    | serve index fault =>
      obtain ⟨rpc, process, call, resume, held, _, awaits, _, rfl⟩ := step_serve_call stepped
      obtain ⟨rfl, written⟩ := awaits_created awaits found found'
      refine ⟨rpc.submission, submitted _ ?_, rfl, written⟩
      exact List.mem_map.mpr ⟨rpc, List.mem_of_getElem? held, rfl⟩
    | work index fault =>
      obtain ⟨handling, process, call, resume, envelope, _, _, _, awaits, _, rfl⟩ :=
        step_work stepped
      cases (awaits_absent awaits found).symm.trans found'
    | submit submission =>
      obtain ⟨fresh, rfl⟩ := step_submit stepped
      cases found.symm.trans found'
    | replaceFiles | deliver | settle | cancel | loseConnection | crash =>
      rw [(step_quiet stepped trivial).2.1] at found'
      cases found.symm.trans found'

theorem agrees_of_reaches {allowed : System env → Action → Prop} {collection : Option Collection}
    {extractText : Extraction}
    (reaches : Reaches step allowed (initial env collection extractText) system) : system.Agrees :=
  reaches.invariant Agrees (fun _ _ _ _ stepped agrees => agrees_step agrees stepped)
    fun _ _ found => by cases found

theorem transition_answered {handling : Handling env} (sound : system.Sound)
    (member : handling ∈ system.handlings) {call : Call}
    {resume : Except (Raised PyException) (Reply call) → Task Unit}
    (waits : handling.process.body = .await call resume) {jobId : String} {status : JobStatus}
    (marks : call.marks? = some (jobId, status)) :
    ∃ reply, (perform env call system.world).1 = .ok reply := by
  have admitted := handling.process.follows
  rw [waits] at admitted
  obtain ⟨envelope, read, awaits⟩ := admits_message admitted.1
  obtain ⟨_, _, _, present⟩ := sound.sent (message_of_handling member) read
  rw [← awaits_marks awaits marks] at present
  obtain ⟨row, _, answered, _⟩ := answer_marks env call marks present none
  exact answered

/-- In every state the deployment can reach, every message at the broker or handed
to a worker is an envelope whose row holds the same fields; so a worker gets past
the envelope, finds the row of every transition, and no step changes these fields
of a row. -/
theorem rows_agree (env : Env) (collection : Option Collection) (extractText : Extraction)
    (system : System env)
    (reaches : Reaches step anyStep (initial env collection extractText) system) :
    (∀ message ∈ system.messages, ∃ envelope row,
      JobEnvelope.fromPayload env.repr message = .ok envelope ∧
        DocumentWorker.handle env message = DocumentWorker.handleEnvelope env envelope ∧
        system.world.table.rows envelope.jobId = some row ∧ row.envelope = envelope) ∧
    (∀ handling ∈ system.handlings, ∀ call resume jobId status,
      handling.process.body = .await call resume → call.marks? = some (jobId, status) →
        ∃ reply, (perform env call system.world).1 = .ok reply) ∧
    ∀ action after, system.step action = some after → ∀ jobId row,
      system.world.table.rows jobId = some row → ∃ row',
        after.world.table.rows jobId = some row' ∧ row'.envelope = row.envelope := by
  have sound := sound_of_reaches reaches
  have agrees := agrees_of_reaches reaches
  refine ⟨fun message member => ?_, ?_, fun action after stepped jobId row => envelope_kept stepped⟩
  · obtain ⟨submission, listed, wellFormed, rfl, present⟩ := sound.known message member
    obtain ⟨row, found⟩ := Option.isSome_iff_exists.mp present
    obtain ⟨other, listed', same, written⟩ := agrees _ _ found
    have only : other = submission := List.inj_on_of_nodup_map sound.distinct listed' listed same
    rw [only] at written
    have read := JobEnvelope.fromPayload_of_wellFormed env.repr wellFormed
    refine ⟨submission.envelope, row, read, ?_, found, written⟩
    rw [DocumentWorker.handle, read]
    rfl
  · exact fun handling member call resume jobId status waits marks =>
      transition_answered sound member waits marks

end System

namespace System

open Sample

theorem rows_agree_sample :
    ∃ system : System Sample.env, ∃ message ∈ system.messages, ∃ envelope row,
      JobEnvelope.fromPayload Sample.env.repr message = .ok envelope ∧
        DocumentWorker.handle Sample.env message =
          DocumentWorker.handleEnvelope Sample.env envelope ∧
        system.world.table.rows envelope.jobId = some row ∧ row.envelope = envelope := by
  obtain ⟨system, played, message, member⟩ : ∃ system,
      (submitted pathJob 0 0 ++ calls 0 2).foldlM step fresh = some system ∧
        ∃ message, message ∈ system.messages := ⟨_, rfl, _, .head _⟩
  have reaches : Reaches step anyStep fresh system :=
    reaches_of_play (fun _ _ _ => trivial) played
  exact ⟨system, message, member,
    (rows_agree Sample.env none Sample.extract system reaches).1 message member⟩

end System

end DocContext
