import DocContext.System.Settlement

/-! The status history of a job. It is one-way as long as a message is handed out
only while its job is open and no worker is at it, and no success is taken back. -/

namespace DocContext

open Foundation Coroutine

/-- A prefix of queued, running, then succeeded or failed, up to repetition of
running. -/
def Lifecycle (statuses : List JobStatus) : Prop :=
  ∃ count status, status.terminal = true ∧
    statuses <+: .queued :: List.replicate (count + 1) .running ++ [status]

/-- Created and running for some time, but not over. -/
def Open (statuses : List JobStatus) (count : Nat) : Prop :=
  statuses = .queued :: List.replicate count .running

/-- Running for some time, then over. -/
def Over (statuses : List JobStatus) : Prop :=
  ∃ count status, status.terminal = true ∧
    statuses = .queued :: List.replicate (count + 1) .running ++ [status]

/-- The histories a job can have. -/
def Shaped (statuses : List JobStatus) : Prop :=
  statuses = [] ∨ (∃ count, Open statuses count) ∨ Over statuses

theorem lifecycle_of_shaped {statuses : List JobStatus} (shaped : Shaped statuses) :
    Lifecycle statuses := by
  rcases shaped with rfl | ⟨count, rfl⟩ | ⟨count, status, terminal, rfl⟩
  · exact ⟨0, .succeeded, rfl, List.nil_prefix⟩
  · refine ⟨count, .succeeded, rfl, [.running, .succeeded], ?_⟩
    rw [List.replicate_succ']
    simp
  · exact ⟨count, status, terminal, List.prefix_rfl⟩

theorem open_next {statuses : List JobStatus} {count : Nat} (opened : Open statuses count) :
    Open (statuses ++ [.running]) (count + 1) := by
  rw [Open, opened, List.replicate_succ']
  rfl

theorem over_next {statuses : List JobStatus} {count : Nat} (opened : Open statuses (count + 1))
    (status : JobStatus) (terminal : status.terminal = true) : Over (statuses ++ [status]) :=
  ⟨count, status, terminal, by rw [opened]⟩

theorem over_prefix {statuses later : List JobStatus} (over' : Over statuses)
    (shaped : Shaped later) (grown : statuses <+: later) : later = statuses := by
  obtain ⟨count, status, terminal, rfl⟩ := over'
  have stuck (times : Nat) (within : status ∈ JobStatus.queued :: List.replicate times .running) :
      False := by
    rcases List.mem_cons.mp within with rfl | running
    · cases terminal
    · rw [List.eq_of_mem_replicate running] at terminal
      cases terminal
  rcases shaped with rfl | ⟨times, rfl⟩ | ⟨times, last, _, rfl⟩
  · cases List.prefix_nil.mp grown
  · exact (stuck times (grown.subset (by simp))).elim
  · rcases List.prefix_concat_iff.mp grown with same | shorter
    · exact same.symm
    · exact (stuck (times + 1) (shorter.subset (by simp))).elim

theorem closed_of_over {table : JobTable} {jobId : String} (consistent : table.Consistent)
    (over' : Over (table.statuses jobId)) : Closed table jobId := by
  obtain ⟨count, status, terminal, written⟩ := over'
  refine ⟨status, ?_, terminal⟩
  rw [consistent, written, List.getLast?_concat]

theorem over_of_closed {table : JobTable} {jobId : String} (consistent : table.Consistent)
    (shaped : Shaped (table.statuses jobId)) (closed : Closed table jobId) :
    Over (table.statuses jobId) := by
  obtain ⟨status, read, terminal⟩ := closed
  rw [consistent] at read
  rcases shaped with empty | ⟨count, opened⟩ | over'
  · rw [empty] at read
    cases read
  · rw [opened] at read
    rcases List.mem_cons.mp (List.mem_of_getLast? read) with rfl | running
    · cases terminal
    · rw [List.eq_of_mem_replicate running] at terminal
      cases terminal
  · exact over'

/-- The history a worker at a stage of a job has behind it. -/
def Fits (statuses : List JobStatus) : Stage → Prop
  | .received => ∃ count, Open statuses count
  | .refused | .succeeded | .closed | .cancelled => True
  | _ => ∃ count, Open statuses (count + 1)

/-- The call does not report a success and raise an exception after all. -/
def KeepsSuccess (call : Call) (fault : Option (Fault PyException)) : Prop :=
  ∀ jobId struck, call = .markSucceeded jobId → fault = some struck → struck.landed = true →
    struck.raised = .cancelled

section Answers

variable {env : Env} {envelope : JobEnvelope} {stage : Stage} {call : Call} {world : World}
  {fault : Option (Fault PyException)} {jobId : String}

theorem fits_read (reads : call.written? = none)
    (raises : ∀ raised, stage.moves call (.error raised) = Stage.afterRaise raised)
    (fits : ∃ count, Open (world.table.statuses jobId) (count + 1))
    (replied : ∀ value, ∀ statuses, (∃ count, Open statuses (count + 1)) →
      Fits statuses (stage.moves call (.ok value))) :
    Fits ((answer (perform env) fault call world).2.table.statuses jobId)
      (stage.moves call (answer (perform env) fault call world).1) := by
  rw [answer_table reads]
  cases (answer (perform env) fault call world).1 with
  | ok value => exact replied value _ fits
  | error raised =>
    rw [raises]
    cases raised with
    | exception error => exact fits
    | cancelled => trivial

/-- What a transition leaves of the history: the new status is appended, or the
call raised before. -/
theorem statuses_marks (call : Call) {status : JobStatus} (marks : call.marks? = some (jobId, status))
    (present : (world.table.rows jobId).isSome) :
    ((answer (perform env) fault call world).2.table.statuses jobId =
        world.table.statuses jobId ++ [status] ∧
      ((∃ reply, (answer (perform env) fault call world).1 = .ok reply) ∨
        ∃ struck, fault = some struck ∧ struck.landed = true ∧
          (answer (perform env) fault call world).1 = .error struck.raised)) ∨
    ((answer (perform env) fault call world).2.table.statuses jobId =
        world.table.statuses jobId ∧
      ∃ raised, (answer (perform env) fault call world).1 = .error raised) := by
  obtain ⟨row, reached, answered⟩ := answer_marks env call marks present fault
  have appended : (world.table.commit jobId row).statuses jobId =
      world.table.statuses jobId ++ [status] := by
    rw [JobTable.statuses_commit, if_pos rfl, reached]
  cases fault with
  | none =>
    obtain ⟨replied, wrote⟩ := answered
    rw [wrote]
    exact .inl ⟨appended, .inl replied⟩
  | some struck =>
    obtain ⟨failed, wrote⟩ := answered
    rw [wrote]
    cases landed : struck.landed with
    | true => exact .inl ⟨appended, .inr ⟨struck, rfl, landed, failed⟩⟩
    | false => exact .inr ⟨rfl, _, failed⟩

theorem fits_started (present : (world.table.rows jobId).isSome) {count : Nat}
    (opened : Open (world.table.statuses jobId) count) :
    Shaped ((answer (perform env) fault (.markRunning jobId) world).2.table.statuses jobId) ∧
      Fits ((answer (perform env) fault (.markRunning jobId) world).2.table.statuses jobId)
        (Stage.received.moves (.markRunning jobId)
          (answer (perform env) fault (.markRunning jobId) world).1) := by
  rcases statuses_marks (.markRunning jobId) rfl present with
    ⟨appended, replied⟩ | ⟨same, raised, failed⟩
  · have next := open_next opened
    rw [← appended] at next
    refine ⟨.inr (.inl ⟨_, next⟩), ?_⟩
    cases (answer (perform env) fault (.markRunning jobId) world).1 with
    | ok row => exact ⟨count, next⟩
    | error raised => trivial
  · rw [same, failed]
    exact ⟨.inr (.inl ⟨count, opened⟩), trivial⟩

theorem fits_succeeding (keeps : KeepsSuccess (.markSucceeded jobId) fault)
    (present : (world.table.rows jobId).isSome) {count : Nat}
    (opened : Open (world.table.statuses jobId) (count + 1)) :
    Shaped ((answer (perform env) fault (.markSucceeded jobId) world).2.table.statuses jobId) ∧
      Fits ((answer (perform env) fault (.markSucceeded jobId) world).2.table.statuses jobId)
        (Stage.finished.moves (.markSucceeded jobId)
          (answer (perform env) fault (.markSucceeded jobId) world).1) := by
  rcases statuses_marks (.markSucceeded jobId) rfl present with
    ⟨appended, replied⟩ | ⟨same, raised, failed⟩
  · have over' := over_next opened .succeeded rfl
    rw [← appended] at over'
    refine ⟨.inr (.inr over'), ?_⟩
    rcases replied with ⟨reply, replied⟩ | ⟨struck, struck', landed, failed⟩
    · rw [replied]
      trivial
    · rw [failed, keeps jobId struck rfl struck' landed]
      trivial
  · rw [same, failed]
    refine ⟨.inr (.inl ⟨_, opened⟩), ?_⟩
    cases raised with
    | exception error => exact ⟨count, opened⟩
    | cancelled => trivial

theorem shaped_failing {text : String} (present : (world.table.rows jobId).isSome) {count : Nat}
    (opened : Open (world.table.statuses jobId) (count + 1)) :
    Shaped ((answer (perform env) fault (.markFailed jobId text) world).2.table.statuses jobId) := by
  rcases statuses_marks (.markFailed jobId text) rfl present with
    ⟨appended, _⟩ | ⟨same, _⟩
  · have over' := over_next opened .failed rfl
    rw [← appended] at over'
    exact .inr (.inr over')
  · rw [same]
    exact .inr (.inl ⟨_, opened⟩)

/-- Each call of a job at the end of an open history. -/
theorem fits_answered (awaits : Stage.Awaits env envelope stage call) (keeps : KeepsSuccess call fault)
    (present : (world.table.rows envelope.jobId).isSome)
    (shaped : Shaped (world.table.statuses envelope.jobId))
    (fits : Fits (world.table.statuses envelope.jobId) stage) :
    Shaped ((answer (perform env) fault call world).2.table.statuses envelope.jobId) ∧
      Fits ((answer (perform env) fault call world).2.table.statuses envelope.jobId)
        (stage.moves call (answer (perform env) fault call world).1) := by
  have kept (reads : call.written? = none) :
      Shaped ((answer (perform env) fault call world).2.table.statuses envelope.jobId) := by
    rwa [answer_table reads]
  cases awaits with
  | start =>
    obtain ⟨count, opened⟩ := fits
    exact fits_started present opened
  | succeed =>
    obtain ⟨count, opened⟩ := fits
    exact fits_succeeding keeps present opened
  | fail | rejectPath | rejectVectors =>
    obtain ⟨count, opened⟩ := fits
    exact ⟨shaped_failing present opened, trivial⟩
  | @chunk text =>
    refine ⟨kept rfl, fits_read rfl (fun _ => rfl) fits fun chunks statuses opened => ?_⟩
    change Fits statuses (if chunks.isEmpty then .finished else .chunked chunks)
    split <;> exact opened
  | count =>
    refine ⟨kept rfl, fits_read rfl (fun _ => rfl) fits fun count statuses opened => ?_⟩
    change Fits statuses (if count = 0 then .finished else .counted)
    split <;> exact opened
  | extract | embed | list | createCollection | createPayloadIndex | write | delete =>
    exact ⟨kept rfl, fits_read rfl (fun _ => rfl) fits fun _ _ opened => opened⟩

end Answers

namespace System

variable {env : Env} {system after later : System env} {index : Nat} {jobId : String}
  {fault : Option (Fault PyException)}

/-- A message of the job is handed out only while the job is open and no worker is at it, and
its success is not taken back. -/
def Exclusive (jobId : String) (system : System env) : Action → Prop
  | .deliver _ => ∀ message, system.world.queue.head? = some message →
      names env jobId message = true → ¬ Closed system.world.table jobId ∧
        ∀ handling ∈ system.handlings, handling.on jobId = true → handling.ended = true
  | .work index fault => ∀ handling call resume, system.handlings[index]? = some handling →
      handling.on jobId = true → handling.process.body = .await call resume →
        KeepsSuccess call fault
  | _ => True

/-- Of two workers at one job, one has ended. -/
def Alone (jobId : String) (handlings : List (Handling env)) : Prop :=
  ∀ (index place : Nat) (one two : Handling env), index ≠ place → handlings[index]? = some one →
    handlings[place]? = some two → one.on jobId = true → two.on jobId = true →
    one.ended = true ∨ two.ended = true

structure Regular (jobId : String) (system : System env) : Prop where
  sound : system.Sound
  consistent : system.world.table.Consistent
  shaped : Shaped (system.world.table.statuses jobId)
  alone : Alone jobId system.handlings
  fits : ∀ handling ∈ system.handlings, handling.on jobId = true → handling.ended = false →
    Fits (system.world.table.statuses jobId) handling.process.state

theorem Alone.replace {handlings : List (Handling env)} {handling next : Handling env}
    (alone : Alone jobId handlings) (found : handlings[index]? = some handling)
    (same : next.message = handling.message) (kept : handling.ended = true → next.ended = true) :
    Alone jobId (handlings.set index next) := by
  have on : next.on jobId = handling.on jobId := by rw [Handling.on, same, Handling.on]
  have place' {place : Nat} {other : Handling env}
      (found' : (handlings.set index next)[place]? = some other) :
      (place = index ∧ other = next) ∨ (place ≠ index ∧ handlings[place]? = some other) := by
    rw [List.getElem?_set] at found'
    by_cases here : index = place
    · rw [if_pos here] at found'
      split at found'
      · exact .inl ⟨here.symm, (Option.some.inj found').symm⟩
      · cases found'
    · rw [if_neg here] at found'
      exact .inr ⟨Ne.symm here, found'⟩
  intro first second one two apart foundOne foundTwo onOne onTwo
  rcases place' foundOne with ⟨rfl, rfl⟩ | ⟨_, oldOne⟩ <;>
    rcases place' foundTwo with ⟨rfl, rfl⟩ | ⟨_, oldTwo⟩
  · exact absurd rfl apart
  · rw [on] at onOne
    exact (alone _ _ _ _ apart found oldTwo onOne onTwo).imp kept id
  · rw [on] at onTwo
    exact (alone _ _ _ _ apart oldOne found onOne onTwo).imp id kept
  · exact alone _ _ _ _ apart oldOne oldTwo onOne onTwo

theorem consistent_answer {call : Call} {world : World} (consistent : world.table.Consistent) :
    (answer (perform env) fault call world).2.table.Consistent := by
  rcases answer_commits env call fault world with same | ⟨key, row, committed⟩
  · rwa [same]
  · rw [committed]
    exact consistent.commit key row

theorem statuses_of_free {table : JobTable} (consistent : table.Consistent)
    (free : table.rows jobId = none) : table.statuses jobId = [] := by
  have read := consistent jobId
  rw [JobTable.status?, free] at read
  exact List.getLast?_eq_none_iff.mp read.symm

theorem regular_serve (regular : system.Regular jobId)
    (stepped : system.step (.serve index fault) = some after) : after.Regular jobId := by
  have sound := sound_step regular.sound stepped
  obtain ⟨rpc, process, world, found, served, rfl⟩ := step_serve stepped
  cases served with
  | created was row free queued now wrote =>
    subst wrote
    refine ⟨sound, regular.consistent.commit _ row, ?_, regular.alone, ?_⟩
    · change Shaped ((system.world.table.commit rpc.submission.jobId row).statuses jobId)
      rw [JobTable.statuses_commit]
      split
      · rename_i own
        rw [← own, statuses_of_free regular.consistent free, queued]
        exact .inr (.inl ⟨0, rfl⟩)
      · rw [List.append_nil]
        exact regular.shaped
    · intro handling member on working
      change Fits ((system.world.table.commit rpc.submission.jobId row).statuses jobId) _
      rw [JobTable.statuses_commit, if_neg, List.append_nil]
      · exact regular.fits handling member on working
      · intro own
        have present := regular.sound.row member on
        rw [← own, free] at present
        cases present
  | refused was now same | orphaned was now same =>
    subst same
    exact ⟨sound, regular.consistent, regular.shaped, regular.alone, regular.fits⟩
  | published was wellFormed now sent =>
    subst sent
    exact ⟨sound, regular.consistent, regular.shaped, regular.alone, regular.fits⟩

theorem regular_work (regular : system.Regular jobId)
    (exclusive : system.Exclusive jobId (.work index fault))
    (stepped : system.step (.work index fault) = some after) : after.Regular jobId := by
  have sound := sound_step regular.sound stepped
  obtain ⟨handling, process, call, resume, envelope, found, waits, read, awaits, moved, rfl⟩ :=
    step_work stepped
  have member := List.mem_of_getElem? found
  have working : handling.ended = false := by rw [Handling.ended, waits]; rfl
  have alone : Alone jobId (system.handlings.set index { handling with process }) :=
    regular.alone.replace found rfl fun ended => by rw [working] at ended; cases ended
  by_cases own : envelope.jobId = jobId
  · have on : handling.on jobId = true := names_iff.mpr ⟨envelope, read, own⟩
    have fits := regular.fits handling member on working
    have present := regular.sound.row member on
    have shaped := regular.shaped
    subst own
    obtain ⟨shaped', fits'⟩ := fits_answered awaits
      (exclusive handling call resume found on waits) present shaped fits
    refine ⟨sound, consistent_answer regular.consistent, shaped', alone, ?_⟩
    intro other listed on' working'
    rcases mem_replace listed with rfl | ⟨place, elsewhere, found'⟩
    · change Fits _ process.state
      rw [moved]
      exact fits'
    · rcases regular.alone _ _ _ _ elsewhere found' found on' on with ended | ended
      · rw [working'] at ended
        cases ended
      · rw [working] at ended
        cases ended
  · have kept : (answer (perform env) fault call system.world).2.table.statuses jobId =
        system.world.table.statuses jobId := statuses_of_other awaits own
    refine ⟨sound, consistent_answer regular.consistent, ?_, alone, ?_⟩
    · change Shaped ((answer (perform env) fault call system.world).2.table.statuses jobId)
      rw [kept]
      exact regular.shaped
    · intro other listed on' working'
      change Fits ((answer (perform env) fault call system.world).2.table.statuses jobId) _
      rw [kept]
      rcases List.mem_or_eq_of_mem_set listed with earlier | rfl
      · exact regular.fits other earlier on' working'
      · obtain ⟨envelope', read', same⟩ := names_iff.mp on'
        rw [read] at read'
        cases read'
        exact absurd same own

/-- A step that replaces a handling by one with the same message, further or as
far, and leaves the table alone. -/
theorem Regular.replace {handling next : Handling env} {queue : List JsonValue}
    (regular : system.Regular jobId)
    (sound : ({ system with
      world := { system.world with queue }
      handlings := system.handlings.set index next } : System env).Sound)
    (found : system.handlings[index]? = some handling) (same : next.message = handling.message)
    (kept : next.ended = true ∨ next.ended = handling.ended ∧
      next.process.state = handling.process.state) :
    ({ system with
      world := { system.world with queue }
      handlings := system.handlings.set index next } : System env).Regular jobId := by
  refine ⟨sound, regular.consistent, regular.shaped, regular.alone.replace found same ?_, ?_⟩
  · intro ended
    rcases kept with kept | ⟨kept, _⟩
    · exact kept
    · rw [kept, ended]
  · intro other listed on working
    rcases List.mem_or_eq_of_mem_set listed with earlier | rfl
    · exact regular.fits other earlier on working
    · rcases kept with kept | ⟨ended, state⟩
      · rw [kept] at working
        cases working
      · rw [state]
        rw [Handling.on, same] at on
        rw [ended] at working
        exact regular.fits handling (List.mem_of_getElem? found) on working

theorem Alone.deliver {handlings : List (Handling env)} (alone : Alone jobId handlings)
    (new : Handling env)
    (free : new.on jobId = true → ∀ handling ∈ handlings, handling.on jobId = true →
      handling.ended = true) : Alone jobId (handlings ++ [new]) := by
  have place' {place : Nat} {other : Handling env}
      (found : (handlings ++ [new])[place]? = some other) :
      handlings[place]? = some other ∨ (place = handlings.length ∧ other = new) := by
    rw [List.getElem?_append] at found
    split at found
    · exact .inl found
    · rename_i beyond
      rw [List.getElem?_singleton] at found
      split at found
      · exact .inr ⟨by omega, (Option.some.inj found).symm⟩
      · cases found
  intro first second one two apart foundOne foundTwo onOne onTwo
  rcases place' foundOne with oldOne | ⟨rfl, rfl⟩ <;>
    rcases place' foundTwo with oldTwo | ⟨rfl, rfl⟩
  · exact alone _ _ _ _ apart oldOne oldTwo onOne onTwo
  · exact .inl (free onTwo one (List.mem_of_getElem? oldOne) onOne)
  · exact .inr (free onOne two (List.mem_of_getElem? oldTwo) onTwo)
  · exact absurd rfl apart

theorem regular_deliver {worker : Nat} (regular : system.Regular jobId)
    (exclusive : system.Exclusive jobId (.deliver worker))
    (stepped : system.step (.deliver worker) = some after) : after.Regular jobId := by
  have sound := sound_step regular.sound stepped
  obtain ⟨message, queue, next, rfl⟩ := step_deliver stepped
  have head : system.world.queue.head? = some message := by rw [next]; rfl
  have waiting : message ∈ system.messages := by
    rw [messages, next]
    exact List.mem_append_left _ (List.mem_cons_self ..)
  refine ⟨sound, regular.consistent, regular.shaped, regular.alone.deliver _ ?_, ?_⟩
  · exact fun on => (exclusive message head on).2
  · intro handling member on working
    rcases List.mem_append.mp member with earlier | new
    · exact regular.fits handling earlier on working
    · rw [List.mem_singleton.mp new] at on ⊢
      obtain ⟨unclosed, _⟩ := exclusive message head on
      obtain ⟨envelope, read, rfl⟩ := names_iff.mp on
      obtain ⟨_, _, _, row⟩ := regular.sound.sent waiting read
      rcases regular.shaped with empty | opened | over'
      · have status := regular.consistent envelope.jobId
        rw [empty, List.getLast?_nil, JobTable.status?, Option.map_eq_none_iff] at status
        rw [status] at row
        cases row
      · exact opened
      · exact absurd (closed_of_over regular.consistent over') unclosed

theorem regular_step {action : Action} (regular : system.Regular jobId)
    (exclusive : system.Exclusive jobId action) (stepped : system.step action = some after) :
    after.Regular jobId := by
  have sound := sound_step regular.sound stepped
  cases action with
  | serve index fault => exact regular_serve regular stepped
  | work index fault => exact regular_work regular exclusive stepped
  | submit submission =>
    obtain ⟨fresh, rfl⟩ := step_submit stepped
    exact ⟨sound, regular.consistent, regular.shaped, regular.alone, regular.fits⟩
  | replaceFiles extractText =>
    cases stepped
    exact ⟨sound, regular.consistent, regular.shaped, regular.alone, regular.fits⟩
  | settle index | cancel index =>
    obtain ⟨handling, found, _, _, rfl⟩ := step_dismisses index (by simp) stepped
    exact regular.replace sound found rfl (.inr ⟨rfl, rfl⟩)
  | loseConnection index =>
    obtain ⟨handling, found, held, rfl⟩ := step_loseConnection stepped
    exact regular.replace sound found rfl (.inr ⟨rfl, rfl⟩)
  | crash index =>
    obtain ⟨handling, found, _, rfl⟩ := step_crash stepped
    exact regular.replace sound found rfl (.inl rfl)
  | deliver worker =>
    exact regular_deliver regular exclusive stepped

theorem statuses_prefix {action : Action} (stepped : system.step action = some after)
    (jobId : String) :
    system.world.table.statuses jobId <+: after.world.table.statuses jobId := by
  rcases step_answers stepped with ⟨same, _⟩ | ⟨call, fault, answered⟩
  · rw [same]
  · rw [answered]
    rcases answer_commits env call fault system.world with same | ⟨key, row, wrote⟩
    · rw [same]
    · rw [wrote, JobTable.statuses_commit]
      exact List.prefix_append ..

theorem regular_of_reaches {collection : Option Collection} {extractText : Extraction}
    (reaches : Reaches step (Exclusive jobId) (initial env collection extractText) system) :
    system.Regular jobId :=
  reaches.invariant (Regular jobId)
    (fun _ _ _ exclusive stepped regular => regular_step regular exclusive stepped)
    ⟨sound_initial env collection extractText, JobTable.consistent_empty, .inl rfl,
      by simp [Alone, initial], by simp [initial]⟩

/-- In a run in which a job's message is handed out only while the job is open and no worker is
at it, and its success is not taken back, the job has a one-way history and a status that says
it is over stays. -/
theorem terminal_final (env : Env) (collection : Option Collection) (extractText : Extraction)
    (system : System env) (jobId : String)
    (reaches : Reaches step (Exclusive jobId) (initial env collection extractText) system) :
    Lifecycle (system.world.table.statuses jobId) ∧
      ∀ later, Reaches step (Exclusive jobId) system later → ∀ status,
        system.world.table.status? jobId = some status → status.terminal = true →
          later.world.table.status? jobId = some status := by
  have now := regular_of_reaches reaches
  refine ⟨lifecycle_of_shaped now.shaped, ?_⟩
  intro later onward status read terminal
  have then' := regular_of_reaches (reaches.trans onward)
  have grown : system.world.table.statuses jobId <+: later.world.table.statuses jobId :=
    onward.relates (fun before after =>
        before.world.table.statuses jobId <+: after.world.table.statuses jobId)
      (fun _ => List.prefix_rfl) List.IsPrefix.trans
      fun _ _ _ _ stepped => statuses_prefix stepped jobId
  have over' := over_of_closed now.consistent now.shaped ⟨status, read, terminal⟩
  rw [then'.consistent, over_prefix over' then'.shaped grown, ← now.consistent, read]

end System

namespace System

open Sample

/-- An index job that goes through, from the hand-out on. -/
private def handledRun : List Action := calls 0 11 ++ [.settle 0]

theorem terminal_final_sample :
    ∃ system, Reaches step (Exclusive "1") fresh system ∧
      system.world.table.status? "1" = some .succeeded ∧
      Lifecycle (system.world.table.statuses "1") ∧
      ∀ later, Reaches step (Exclusive "1") system later → ∀ status,
        system.world.table.status? "1" = some status → status.terminal = true →
          later.world.table.status? "1" = some status := by
  obtain ⟨sent, played, handed, last, stepped, played', status, idle, succeeded⟩ :
      ∃ sent, [Action.submit pathJob, .serve 0 none, .serve 0 none].foldlM step fresh = some sent ∧
        ∃ handed last, sent.step (.deliver 0) = some handed ∧
          handledRun.foldlM step handed = some last ∧
          sent.world.table.status? "1" = some .queued ∧ sent.handlings = [] ∧
          last.world.table.status? "1" = some .succeeded :=
    ⟨_, rfl, _, _, rfl, rfl, rfl, rfl, rfl⟩
  have before : Reaches step (Exclusive "1") fresh sent := by
    refine reaches_of_play (fun action member state => ?_) played
    rcases List.mem_cons.mp member with rfl | member
    · trivial
    · rcases List.mem_cons.mp member with rfl | member
      · trivial
      · rw [List.mem_singleton.mp member]
        trivial
  have handing : Exclusive "1" sent (.deliver 0) := by
    intro message _ _
    refine ⟨fun closed => ?_, by simp [idle]⟩
    obtain ⟨other, found, terminal⟩ := closed
    cases found.symm.trans status
    cases terminal
  have after : Reaches step (Exclusive "1") handed last := by
    refine reaches_of_play (fun action member state => ?_) played'
    rcases List.mem_append.mp member with work | settled
    · rw [List.eq_of_mem_replicate work]
      exact fun _ _ _ _ _ _ _ _ _ faulty => by cases faulty
    · rw [List.mem_singleton.mp settled]
      trivial
  have reaches := before.trans (.head ⟨_, handing, stepped⟩ after)
  exact ⟨last, reaches, succeeded,
    terminal_final Sample.env none Sample.extract last "1" reaches⟩

/-- The connection is lost between the end of the job and its acknowledgement,
and the message is handed out again. -/
theorem terminal_reopened :
    ¬ ∀ (env : Env) (collection : Option Collection) (extractText : Extraction)
      (system : System env), Reaches step anyStep (initial env collection extractText) system →
      (∀ jobId, Lifecycle (system.world.table.statuses jobId)) ∧
        ∀ later, Reaches step anyStep system later → ∀ jobId status,
          system.world.table.status? jobId = some status → status.terminal = true →
            later.world.table.status? jobId = some status := by
  intro final
  obtain ⟨done, played, later, played', succeeded, running⟩ :
      ∃ done, (submitted pathJob 0 0 ++ calls 0 11).foldlM step fresh = some done ∧
        ∃ later, [Action.loseConnection 0, .deliver 0, .work 1 none].foldlM step done = some later ∧
          done.world.table.status? "1" = some .succeeded ∧
          later.world.table.status? "1" = some .running :=
    ⟨_, rfl, _, rfl, rfl, rfl⟩
  have reaches : Reaches step anyStep fresh done := reaches_of_play (fun _ _ _ => trivial) played
  have onward : Reaches step anyStep done later := reaches_of_play (fun _ _ _ => trivial) played'
  have kept := (final Sample.env none Sample.extract done reaches).2 later onward "1" .succeeded
    succeeded rfl
  cases running.symm.trans kept

end System

end DocContext
