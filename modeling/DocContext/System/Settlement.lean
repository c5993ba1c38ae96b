import DocContext.System.Custody
import DocContext.Workers.Runs

/-! Settled messages and their rows. A message is settled however its handler
ended, so the row is left behind wherever the handler ends without recording
that it did. -/

namespace DocContext

open Foundation Coroutine

/-- A row that says the job is over. -/
def Closed (table : JobTable) (jobId : String) : Prop :=
  ∃ status, table.status? jobId = some status ∧ status.terminal = true

/-- A fault that the handler records, or that leaves the row of a job that is
over as it is. -/
def Recorded (world : World) (call : Call) : Option (Fault PyException) → Prop
  | none => True
  | some fault =>
    match call with
    | .markRunning jobId => fault.landed = false ∧ Closed world.table jobId
    | .markSucceeded _ => fault.raised ≠ .cancelled ∨ fault.landed = true
    | .markFailed jobId _ => fault.landed = true ∨ Closed world.table jobId
    | _ => fault.raised ≠ .cancelled

/-- What a row owes to a worker that keeps its message. -/
def Owes (table : JobTable) (jobId : String) : Stage → Prop
  | .received => True
  | .refused | .succeeded | .closed | .cancelled => Closed table jobId
  | .failed _ => table.status? jobId = some .running ∨ table.status? jobId = some .succeeded
  | _ => table.status? jobId = some .running

section Answers

variable {env : Env} {envelope : JobEnvelope} {stage : Stage} {call : Call} {world : World}
  {fault : Option (Fault PyException)} {jobId : String}

theorem closed_of_commit {table : JobTable} {row : Job} (terminal : row.status.terminal = true) :
    Closed (table.commit jobId row) jobId :=
  ⟨row.status, by rw [JobTable.status?_commit, if_pos rfl], terminal⟩

/-- A fault of a call that writes no row is an exception the handler catches. -/
theorem raised_exception {raised : Raised PyException} (recorded : Recorded world call fault)
    (reads : call.written? = none)
    (failed : (answer (perform env) fault call world).1 = .error raised) :
    ∃ error, raised = .exception error := by
  cases fault with
  | none => exact perform_exception failed
  | some fault =>
    have caught : fault.raised ≠ .cancelled := by
      cases call <;> first | exact recorded | cases reads
    have same : fault.raised = raised := Except.error.inj failed
    rw [same] at caught
    cases raised with
    | exception error => exact ⟨error, rfl⟩
    | cancelled => exact absurd rfl caught

theorem owes_read (recorded : Recorded world call fault) (reads : call.written? = none)
    (raises : ∀ raised, stage.moves call (.error raised) = Stage.afterRaise raised)
    (running : world.table.status? jobId = some .running)
    (replied : ∀ value, ∀ table : JobTable, table.status? jobId = some .running →
      Owes table jobId (stage.moves call (.ok value))) :
    Owes (answer (perform env) fault call world).2.table jobId
      (stage.moves call (answer (perform env) fault call world).1) := by
  rw [answer_table reads]
  cases reply : (answer (perform env) fault call world).1 with
  | ok value => exact replied value _ running
  | error raised =>
    obtain ⟨error, rfl⟩ := raised_exception recorded reads reply
    rw [raises]
    exact .inl running

theorem owes_started (recorded : Recorded world (.markRunning jobId) fault)
    (present : (world.table.rows jobId).isSome) :
    Owes (answer (perform env) fault (.markRunning jobId) world).2.table jobId
      (Stage.received.moves (.markRunning jobId)
        (answer (perform env) fault (.markRunning jobId) world).1) := by
  cases fault with
  | some fault =>
    obtain ⟨missed, closed⟩ := recorded
    rw [answer_some, missed]
    exact closed
  | none =>
    obtain ⟨row, running, ⟨reply, replied⟩, wrote⟩ := answer_marks env (.markRunning jobId) rfl present none
    rw [replied, wrote]
    change (world.table.commit jobId row).status? jobId = some .running
    rw [JobTable.status?_commit, if_pos rfl, running]

theorem owes_succeeding (recorded : Recorded world (.markSucceeded jobId) fault)
    (running : world.table.status? jobId = some .running) :
    Owes (answer (perform env) fault (.markSucceeded jobId) world).2.table jobId
      (Stage.finished.moves (.markSucceeded jobId)
        (answer (perform env) fault (.markSucceeded jobId) world).1) := by
  obtain ⟨row, succeeded, answered⟩ :=
    answer_marks env (.markSucceeded jobId) rfl (JobTable.status?_isSome running) fault
  have terminal : row.status.terminal = true := by rw [succeeded]; rfl
  cases fault with
  | none =>
    obtain ⟨⟨reply, replied⟩, wrote⟩ := answered
    rw [replied, wrote]
    exact closed_of_commit terminal
  | some fault =>
    obtain ⟨failed, wrote⟩ := answered
    rw [failed, wrote]
    cases landed : fault.landed with
    | true =>
      cases fault.raised with
      | exception error =>
        refine .inr ?_
        change (world.table.commit jobId row).status? jobId = some .succeeded
        rw [JobTable.status?_commit, if_pos rfl, succeeded]
      | cancelled => exact closed_of_commit terminal
    | false =>
      have caught := recorded.resolve_right (by simp [landed])
      cases raised : fault.raised with
      | exception error => exact .inl running
      | cancelled => exact absurd raised caught

theorem owes_failing {text : String} (recorded : Recorded world (.markFailed jobId text) fault)
    (present : (world.table.rows jobId).isSome) :
    Owes (answer (perform env) fault (.markFailed jobId text) world).2.table jobId .closed := by
  obtain ⟨row, failed, answered⟩ := answer_marks env (.markFailed jobId text) rfl present fault
  have terminal : row.status.terminal = true := by rw [failed]; rfl
  cases fault with
  | none =>
    obtain ⟨_, wrote⟩ := answered
    rw [wrote]
    exact closed_of_commit terminal
  | some fault =>
    obtain ⟨_, wrote⟩ := answered
    rw [wrote]
    cases landed : fault.landed with
    | true => exact closed_of_commit terminal
    | false => exact recorded.resolve_left (by simp [landed])

/-- Each call of a job whose faults are recorded. -/
theorem owes_answered (awaits : Stage.Awaits env envelope stage call)
    (recorded : Recorded world call fault) (present : (world.table.rows envelope.jobId).isSome)
    (owes : Owes world.table envelope.jobId stage) :
    Owes (answer (perform env) fault call world).2.table envelope.jobId
      (stage.moves call (answer (perform env) fault call world).1) := by
  cases awaits with
  | start => exact owes_started recorded present
  | succeed => exact owes_succeeding recorded owes
  | fail | rejectPath | rejectVectors => exact owes_failing recorded present
  | @chunk text =>
    refine owes_read recorded rfl (fun _ => rfl) owes fun chunks table running => ?_
    change Owes table envelope.jobId (if chunks.isEmpty then .finished else .chunked chunks)
    split <;> exact running
  | count =>
    refine owes_read recorded rfl (fun _ => rfl) owes fun count table running => ?_
    change Owes table envelope.jobId (if count = 0 then .finished else .counted)
    split <;> exact running
  | extract | embed | list | createCollection | createPayloadIndex | write | delete =>
    exact owes_read recorded rfl (fun _ => rfl) owes fun _ _ running => running

end Answers

theorem Owes.congr {table table' : JobTable} {jobId : String} {stage : Stage}
    (same : table'.status? jobId = table.status? jobId) (owes : Owes table jobId stage) :
    Owes table' jobId stage := by
  cases stage <;> simp only [Owes, Closed, same] at owes ⊢ <;> exact owes

namespace System

variable {env : Env} {system after : System env} {index : Nat} {jobId : String}
  {fault : Option (Fault PyException)}

/-- Every fault of a worker at the job is recorded, and no worker is cancelled, or loses its
connection, with a message of the job in its hands. -/
def Accountable (jobId : String) (system : System env) : Action → Prop
  | .work index fault => ∀ handling call resume, system.handlings[index]? = some handling →
      handling.on jobId = true → handling.process.body = .await call resume →
        Recorded system.world call fault
  | .cancel index | .loseConnection index => ∀ handling, system.handlings[index]? = some handling →
      handling.on jobId = false
  | _ => True

/-- A run in which no message is handed out twice. -/
def Consuming (_ : System env) : Action → Prop
  | .loseConnection _ | .crash _ => False
  | _ => True

structure Accounts (jobId : String) (system : System env) : Prop where
  sound : system.Sound
  sole : system.Sole jobId
  released : ∀ handling ∈ system.handlings, handling.on jobId = true → handling.custody ≠ .held →
    handling.ended = true
  owes : ∀ handling ∈ system.handlings, handling.keeps jobId = true →
    Owes system.world.table jobId handling.process.state

theorem Sound.row {handling : Handling env} (sound : system.Sound)
    (member : handling ∈ system.handlings) (on : handling.on jobId = true) :
    (system.world.table.rows jobId).isSome := by
  obtain ⟨envelope, read, rfl⟩ := names_iff.mp on
  obtain ⟨_, _, _, row⟩ := sound.sent (message_of_handling member) read
  exact row

theorem keeps_on {handling : Handling env} (keeps : handling.keeps jobId = true) :
    handling.on jobId = true := (Bool.and_eq_true_iff.mp keeps).2

theorem accounts_serve (accounts : system.Accounts jobId)
    (stepped : system.step (.serve index fault) = some after) : after.Accounts jobId := by
  refine ⟨sound_step accounts.sound stepped, sole_step accounts.sole stepped, ?_, ?_⟩
  all_goals obtain ⟨rpc, process, world, found, served, rfl⟩ := step_serve stepped
  · exact accounts.released
  · intro handling member keeps
    refine (accounts.owes handling member keeps).congr ?_
    cases served with
    | created was row free queued now wrote =>
      rw [wrote]
      change (system.world.table.commit rpc.submission.jobId row).status? jobId = _
      rw [JobTable.status?_commit, if_neg]
      intro same
      have present := accounts.sound.row member (keeps_on keeps)
      rw [← same, free] at present
      cases present
    | refused was now same | orphaned was now same => rw [same]
    | published was wellFormed now sent => rw [sent]

theorem accounts_work (accounts : system.Accounts jobId)
    (accountable : system.Accountable jobId (.work index fault))
    (stepped : system.step (.work index fault) = some after) : after.Accounts jobId := by
  refine ⟨sound_step accounts.sound stepped, sole_step accounts.sole stepped, ?_, ?_⟩
  all_goals
    obtain ⟨handling, process, call, resume, envelope, found, waits, read, awaits, moved, rfl⟩ :=
      step_work stepped
    have member := List.mem_of_getElem? found
    have held (on : handling.on jobId = true) : handling.custody = .held := by
      by_contra released
      have ended := accounts.released handling member on released
      rw [Handling.ended, waits] at ended
      cases ended
  · intro other listed on released
    rcases List.mem_or_eq_of_mem_set listed with earlier | rfl
    · exact accounts.released other earlier on released
    · exact absurd (held on) released
  · intro other listed keeps
    by_cases own : envelope.jobId = jobId
    · have on : handling.on jobId = true := names_iff.mpr ⟨envelope, read, own⟩
      have keeps' : handling.keeps jobId = true := by
        rw [Handling.keeps, held on]
        exact on
      rcases mem_replace listed with rfl | ⟨place, elsewhere, found'⟩
      · change Owes _ jobId process.state
        have owes := accounts.owes handling member keeps'
        have present := accounts.sound.row member on
        rw [moved]
        subst own
        exact owes_answered awaits (accountable handling call resume found on waits) present owes
      · exact absurd (accounts.sole.unique found' found keeps keeps') elsewhere
    · rcases List.mem_or_eq_of_mem_set listed with earlier | rfl
      · exact (accounts.owes other earlier keeps).congr (status_of_other awaits own)
      · obtain ⟨envelope', read', same⟩ := names_iff.mp (keeps_on keeps)
        rw [read] at read'
        cases read'
        exact absurd same own

/-- One handling changes hands, and the table stays: it is of another job, or over, or has
neither moved nor let go of its message. -/
theorem Accounts.replace {handling next : Handling env} {queue : List JsonValue}
    (accounts : system.Accounts jobId)
    (sound : ({ system with
      world := { system.world with queue }
      handlings := system.handlings.set index next } : System env).Sound)
    (sole : ({ system with
      world := { system.world with queue }
      handlings := system.handlings.set index next } : System env).Sole jobId)
    (found : system.handlings[index]? = some handling) (same : next.message = handling.message)
    (ended : handling.on jobId = true → next.ended = true)
    (kept : handling.on jobId = true → next.custody ≠ .returned →
      handling.custody ≠ .returned ∧ next.process.state = handling.process.state) :
    ({ system with
      world := { system.world with queue }
      handlings := system.handlings.set index next } : System env).Accounts jobId := by
  refine ⟨sound, sole, fun other member on released => ?_, fun other member keeps => ?_⟩
  · rcases List.mem_or_eq_of_mem_set member with earlier | rfl
    · exact accounts.released other earlier on released
    · rw [Handling.on, same] at on
      exact ended on
  · rcases List.mem_or_eq_of_mem_set member with earlier | rfl
    · exact accounts.owes other earlier keeps
    · have on := keeps_on keeps
      rw [Handling.on, same] at on
      rw [Handling.keeps, Bool.and_eq_true, decide_eq_true_eq] at keeps
      obtain ⟨mine, state⟩ := kept on keeps.1
      rw [state]
      refine accounts.owes handling (List.mem_of_getElem? found) ?_
      rw [Handling.keeps, Bool.and_eq_true, decide_eq_true_eq]
      exact ⟨mine, on⟩

theorem accounts_step {action : Action} (accounts : system.Accounts jobId)
    (accountable : system.Accountable jobId action) (stepped : system.step action = some after) :
    after.Accounts jobId := by
  have sound := sound_step accounts.sound stepped
  have sole := sole_step accounts.sole stepped
  cases action with
  | serve index fault => exact accounts_serve accounts stepped
  | work index fault => exact accounts_work accounts accountable stepped
  | submit submission =>
    obtain ⟨fresh, rfl⟩ := step_submit stepped
    exact ⟨sound, sole, accounts.released, accounts.owes⟩
  | replaceFiles extractText =>
    cases stepped
    exact ⟨sound, sole, accounts.released, accounts.owes⟩
  | deliver worker =>
    obtain ⟨message, queue, next, rfl⟩ := step_deliver stepped
    refine ⟨sound, sole, ?_, ?_⟩
    · intro handling member on released
      rcases List.mem_append.mp member with earlier | new
      · exact accounts.released handling earlier on released
      · rw [List.mem_singleton.mp new] at released
        exact absurd rfl released
    · intro handling member keeps
      rcases List.mem_append.mp member with earlier | new
      · exact accounts.owes handling earlier keeps
      · rw [List.mem_singleton.mp new]
        trivial
  | settle index =>
    obtain ⟨handling, found, held, ended, rfl⟩ := step_settle stepped
    exact accounts.replace sound sole found rfl (fun _ => ended) fun _ _ => ⟨by simp [held], rfl⟩
  | cancel index =>
    obtain ⟨handling, found, _, _, rfl⟩ := step_cancel stepped
    have other := Bool.eq_false_iff.mp (accountable handling found)
    exact accounts.replace sound sole found rfl (fun on => absurd on other) fun on =>
      absurd on other
  | loseConnection index =>
    obtain ⟨handling, found, _, rfl⟩ := step_loseConnection stepped
    have other := Bool.eq_false_iff.mp (accountable handling found)
    exact accounts.replace sound sole found rfl (fun on => absurd on other) fun on =>
      absurd on other
  | crash index =>
    obtain ⟨handling, found, working, rfl⟩ := step_crash stepped
    refine accounts.replace sound sole found rfl (fun _ => rfl) fun on kept => ?_
    -- a message that is settled has no handler at work any more
    exfalso
    have settled : handling.custody = .settled := by
      by_contra unsettled
      exact kept (if_neg unsettled)
    have ended := accounts.released handling (List.mem_of_getElem? found) on (by simp [settled])
    rw [Handling.concluded, settled, ended] at working
    cases working

/-- No job is lost: in a run in which every fault of a worker at the job is recorded, the row
of every message of the job that was acknowledged or rejected says that the job is over. -/
theorem settled_closed (env : Env) (collection : Option Collection) (extractText : Extraction)
    (system : System env) (envelope : JobEnvelope)
    (reaches : Reaches step (Accountable envelope.jobId) (initial env collection extractText) system)
    (handling : Handling env) (member : handling ∈ system.handlings)
    (settled : handling.custody = .settled)
    (read : JobEnvelope.fromPayload env.repr handling.message = .ok envelope) :
    Closed system.world.table envelope.jobId := by
  have accounts : system.Accounts envelope.jobId :=
    reaches.invariant (Accounts envelope.jobId)
      (fun _ _ _ accountable stepped accounts => accounts_step accounts accountable stepped)
      ⟨sound_initial env collection extractText, ⟨Nat.zero_le 1, fun _ => rfl⟩, by simp [initial],
        by simp [initial]⟩
  have on : handling.on envelope.jobId = true := names_iff.mpr ⟨envelope, read, rfl⟩
  have keeps : handling.keeps envelope.jobId = true := by
    rw [Handling.keeps, settled]
    exact on
  have owes := accounts.owes handling member keeps
  obtain ⟨result, handled⟩ :=
    handling.process.post_of_ended (accounts.released handling member on (by simp [settled]))
  rw [Handled, read] at handled
  rcases handled with ⟨reached, _⟩ | ⟨reached | reached | reached, _⟩ <;> rw [reached] at owes <;>
    exact owes

end System

namespace Sample

def indexRpc (clientId documentId path : String) : IndexDocumentRequest :=
  ⟨clientId, "corpus", documentId, 2, path⟩

def pathJob : Submission := .index (indexRpc "c" "d" "path") "1" ""

/-- A deployment before its first request, its collection not created yet. -/
def fresh : System env := System.initial env none extract

/-- A request is handled without a fault, and its message goes to a worker. -/
def submitted (submission : Submission) (rpc worker : Nat) : List Action :=
  [.submit submission, .serve rpc none, .serve rpc none, .deliver worker]

/-- Calls of a worker that are answered. -/
def calls (handling count : Nat) : List Action := List.replicate count (.work handling none)

end Sample

namespace System

open Sample

private def unreadable : Fault PyException := ⟨.exception ⟨.other "OSError", "unreadable"⟩, false⟩

/-- An index job whose file cannot be read. -/
theorem settled_closed_sample :
    ∃ system, Reaches step (Accountable "1") fresh system ∧
      ∃ handling ∈ system.handlings, handling.custody = .settled ∧
        Closed system.world.table "1" := by
  obtain ⟨busy, struck, last, played, stepped, played', ⟨working, alone, _, _, _, waits⟩,
      handling, member, settled, read⟩ : ∃ busy struck last,
      (submitted pathJob 0 0 ++ calls 0 1).foldlM step fresh = some busy ∧
        busy.step (.work 0 (some unreadable)) = some struck ∧
        [Action.work 0 none, .settle 0].foldlM step struck = some last ∧
        (∃ handling, busy.handlings = [handling] ∧ ∃ path fileType resume,
          handling.process.body = .await (.extractText path fileType) resume) ∧
        ∃ handling ∈ last.handlings, handling.custody = .settled ∧
          JobEnvelope.fromPayload Sample.env.repr handling.message = .ok pathJob.envelope :=
    ⟨_, _, _, rfl, rfl, rfl, ⟨_, rfl, _, _, _, rfl⟩, _, .head _, rfl, rfl⟩
  have before : Reaches step (Accountable "1") fresh busy := by
    refine reaches_of_play (fun action member state => ?_) played
    simp only [submitted, calls, List.replicate, List.cons_append, List.nil_append,
      List.mem_cons, List.not_mem_nil, or_false] at member
    rcases member with rfl | rfl | rfl | rfl | rfl
    any_goals trivial
    exact fun _ _ _ _ _ _ => trivial
  have caught : Accountable "1" busy (.work 0 (some unreadable)) := by
    intro handling call resume found _ awaits
    rw [alone] at found
    cases found
    cases waits.symm.trans awaits
    exact fun clash => by cases clash
  have after : Reaches step (Accountable "1") struck last := by
    refine reaches_of_play (fun action member state => ?_) played'
    simp only [List.mem_cons, List.not_mem_nil, or_false] at member
    rcases member with rfl | rfl
    · exact fun _ _ _ _ _ _ => trivial
    · trivial
  have reaches := before.trans (.head ⟨_, caught, stepped⟩ after)
  exact ⟨last, reaches, handling, member, settled, settled_closed Sample.env none Sample.extract
    last pathJob.envelope reaches handling member settled read⟩

/-- The connection to the database drops at `mark_running`. -/
private def lostRun : List Action :=
  submitted pathJob 0 0 ++
    [.work 0 (some ⟨.exception ⟨.other "OperationalError", "connection closed"⟩, false⟩), .settle 0]

/-- A message rejected while its row stays queued. -/
theorem settled_queued :
    ¬ ∀ (env : Env) (collection : Option Collection) (extractText : Extraction)
      (system : System env), Reaches step Consuming (initial env collection extractText) system →
      ∀ handling ∈ system.handlings, handling.custody = .settled →
      ∀ envelope, JobEnvelope.fromPayload env.repr handling.message = .ok envelope →
        Closed system.world.table envelope.jobId := by
  intro closed
  obtain ⟨last, played, queued, handling, member, settled, read⟩ : ∃ last,
      lostRun.foldlM step fresh = some last ∧ last.world.table.status? "1" = some .queued ∧
        ∃ handling ∈ last.handlings, handling.custody = .settled ∧
          JobEnvelope.fromPayload Sample.env.repr handling.message = .ok pathJob.envelope :=
    ⟨_, rfl, rfl, _, .head _, rfl, rfl⟩
  have reaches : Reaches step Consuming fresh last := by
    refine reaches_of_play (fun action member state => ?_) played
    simp only [lostRun, submitted, List.cons_append, List.nil_append, List.mem_cons,
      List.not_mem_nil, or_false] at member
    rcases member with rfl | rfl | rfl | rfl | rfl | rfl <;> trivial
  obtain ⟨status, found, terminal⟩ :=
    closed Sample.env none Sample.extract last reaches handling member settled _ read
  cases queued.symm.trans found
  cases terminal

end System

end DocContext
