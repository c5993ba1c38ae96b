import DocContext.System.Agreement
import DocContext.System.Provenance

/-! What SUCCEEDED says: at some moment before it was written the store was as the job
was to leave it; and an index job of a document that no other job names stays in
effect. -/

namespace DocContext

open Foundation Coroutine

theorem Effected.imp {env : Env} {envelope : JobEnvelope} {extracts extracts' : Text → Prop}
    {stock : Store String Record} (effected : Effected env envelope extracts stock)
    (implies : ∀ text, extracts text → extracts' text) : Effected env envelope extracts' stock := by
  unfold Effected at effected ⊢
  split at effected
  · obtain ⟨text, found, shows⟩ := effected
    exact ⟨text, implies text found, shows⟩
  · exact effected

namespace System

variable {env : Env} {start system after : System env} {envelope : JobEnvelope} {jobId : String}

/-- The store once was as the job was to leave it. -/
def WasEffected (start system : System env) (envelope : JobEnvelope) : Prop :=
  Once step start system fun moment =>
    Effected env envelope (Extracts start system envelope) moment.world.stock

theorem WasEffected.later {action : Action} (was : WasEffected start system envelope)
    (stepped : system.step action = some after) : WasEffected start after envelope :=
  (Once.later was stepped).imp fun _ effected =>
    effected.imp fun _ extracts => extracts.later stepped

/-- A row becomes SUCCEEDED only through a handler that is through with its work. -/
theorem succeeded_step {action : Action} (stepped : system.step action = some after)
    (succeeded : after.world.table.status? jobId = some .succeeded) :
    system.world.table.status? jobId = some .succeeded ∨
      ∃ handling ∈ system.handlings, handling.process.state = .finished ∧
        ∃ envelope, JobEnvelope.fromPayload env.repr handling.message = .ok envelope ∧
          envelope.jobId = jobId := by
  cases action with
  | submit submission =>
    obtain ⟨_, rfl⟩ := step_submit stepped
    exact .inl succeeded
  | replaceFiles | deliver | settle | cancel | loseConnection | crash =>
    rw [(step_quiet stepped trivial).2.1] at succeeded
    exact .inl succeeded
  | serve index fault =>
    obtain ⟨rpc, process, world, found, served, rfl⟩ := step_serve stepped
    cases served with
    | created was row free queued now wrote =>
      rw [wrote, JobTable.status?_commit] at succeeded
      split at succeeded
      · rw [queued] at succeeded
        cases succeeded
      · exact .inl succeeded
    | refused was now same | orphaned was now same =>
      rw [same] at succeeded
      exact .inl succeeded
    | published was wellFormed now sent =>
      rw [sent] at succeeded
      exact .inl succeeded
  | work index fault =>
    obtain ⟨handling, process, call, resume, envelope, found, _, read, awaits, _, rfl⟩ :=
      step_work stepped
    by_cases own : envelope.jobId = jobId
    · cases written : call.written? with
      | none =>
        rw [answer_table written] at succeeded
        exact .inl succeeded
      | some entry =>
        obtain ⟨key, status⟩ := entry
        rcases answer_written env call fault system.world written with
          ⟨same, _⟩ | ⟨row, reached, wrote⟩
        · rw [same] at succeeded
          exact .inl succeeded
        · rw [wrote, JobTable.status?_commit, if_pos ((awaits_written awaits written).trans own),
            reached] at succeeded
          cases succeeded
          refine .inr ⟨handling, List.mem_of_getElem? found, ?_, envelope, read, own⟩
          generalize handling.process.state = stage at awaits
          cases awaits <;> cases written
          rfl
    · rw [status_of_other awaits own] at succeeded
      exact .inl succeeded

/-- Handlers that are through with their work, and rows that say so, had their effect. -/
structure Truthful (start system : System env) : Prop where
  reaches : Reaches step anyStep start system
  sound : system.Sound
  agrees : system.Agrees
  grounded : Grounded start system
  handlers : ∀ handling ∈ system.handlings, ∀ envelope,
    JobEnvelope.fromPayload env.repr handling.message = .ok envelope →
      handling.process.state = .finished → WasEffected start system envelope
  rows : ∀ submission ∈ system.submissions,
    system.world.table.status? submission.jobId = some .succeeded →
      WasEffected start system submission.envelope

theorem handlers_step (injective : Function.Injective env.uuid5) {action : Action}
    (truthful : Truthful start system) (stepped : system.step action = some after)
    {handling : Handling env} (member : handling ∈ after.handlings)
    (read : JobEnvelope.fromPayload env.repr handling.message = .ok envelope)
    (finished : handling.process.state = .finished) : WasEffected start after envelope := by
  have old {earlier : Handling env} (listed : earlier ∈ system.handlings)
      (same : earlier.message = handling.message) (kept : earlier.process.state = .finished) :
      WasEffected start after envelope :=
    (truthful.handlers earlier listed envelope (by rwa [same]) kept).later stepped
  rcases handling_step stepped member with
    ⟨earlier, listed, same, kept⟩ | new | dead |
      ⟨earlier, listed, same, envelope', call, fault, read', awaits, moved, answered⟩
  · exact old listed same (kept.trans finished)
  · cases new.symm.trans finished
  · cases dead.symm.trans finished
  · rw [← same] at read
    obtain rfl : envelope' = envelope := Except.ok.inj (read'.symm.trans read)
    have knows := truthful.grounded earlier listed envelope' read
    have indexes (text : Text) (extracts : Extracts start system envelope' text) := extracts.index
    rcases effected_answered injective indexes awaits knows (moved.symm.trans finished) with
      already | effected
    · exact old listed same already
    · rw [← answered] at effected
      refine Once.now (truthful.reaches.tail ⟨action, trivial, stepped⟩) ?_
      exact effected.imp fun text extracts => extracts.later stepped

theorem rows_step {action : Action} (truthful : Truthful start system)
    (stepped : system.step action = some after) {submission : Submission}
    (listed : submission ∈ after.submissions)
    (succeeded : after.world.table.status? submission.jobId = some .succeeded) :
    WasEffected start after submission.envelope := by
  have sound := sound_step truthful.sound stepped
  rcases succeeded_step stepped succeeded with before | ⟨handling, member, finished, envelope, read, own⟩
  · obtain ⟨row, found, _⟩ := Option.map_eq_some_iff.mp before
    obtain ⟨sender, sent, own, _⟩ := truthful.agrees submission.jobId row found
    have same : sender = submission :=
      List.inj_on_of_nodup_map sound.distinct (submissions_grow stepped sent) listed own
    subst same
    exact (truthful.rows sender sent before).later stepped
  · have was := truthful.handlers handling member envelope read finished
    obtain ⟨sender, sent, rfl, _⟩ := truthful.sound.sent (message_of_handling member) read
    have same : sender = submission :=
      List.inj_on_of_nodup_map sound.distinct (submissions_grow stepped sent) listed own
    subst same
    exact was.later stepped

theorem truthful_of_reaches (injective : Function.Injective env.uuid5)
    {collection : Option Collection} {extractText : Extraction}
    (reaches : Reaches step anyStep (initial env collection extractText) system) :
    Truthful (initial env collection extractText) system :=
  reaches.invariant (Truthful (initial env collection extractText))
    (fun _ action _ _ stepped truthful =>
      ⟨truthful.reaches.tail ⟨action, trivial, stepped⟩, sound_step truthful.sound stepped,
        agrees_step truthful.agrees stepped,
        grounded_step truthful.reaches truthful.grounded stepped,
        fun _ member _ read finished => handlers_step injective truthful stepped member read finished,
        fun _ listed succeeded => rows_step truthful stepped listed succeeded⟩)
    ⟨.refl, sound_initial env collection extractText,
      agrees_of_reaches (.refl : Reaches step anyStep _ _),
      fun _ member => (List.not_mem_nil member).elim, fun _ member => (List.not_mem_nil member).elim,
      fun _ member => (List.not_mem_nil member).elim⟩

/-- In every state the deployment can reach, also after failures, redeliveries and
changes of files, a row that is SUCCEEDED tells the truth about the past: at some
moment the store held every chunk of a text that was extracted from the file of the
index job, or no point of the document of the delete job. -/
theorem succeeded_effect (env : Env) (injective : Function.Injective env.uuid5)
    (collection : Option Collection) (extractText : Extraction) (system : System env)
    (reaches : Reaches step anyStep (initial env collection extractText) system)
    (submission : Submission) (listed : submission ∈ system.submissions)
    (succeeded : system.world.table.status? submission.jobId = some .succeeded) :
    Once step (initial env collection extractText) system fun moment =>
      Effected env submission.envelope
        (Extracts (initial env collection extractText) system submission.envelope)
        moment.world.stock :=
  (truthful_of_reaches injective reaches).rows submission listed succeeded

open Sample

/-- An index job that is worked off. -/
theorem succeeded_effect_sample :
    ∃ system : System Sample.env, system.world.table.status? "1" = some .succeeded ∧
      Once step fresh system fun moment =>
        Effected Sample.env pathJob.envelope (Extracts fresh system pathJob.envelope)
          moment.world.stock := by
  obtain ⟨system, played, listed, succeeded⟩ : ∃ system : System Sample.env,
      (submitted pathJob 0 0 ++ calls 0 11).foldlM step fresh = some system ∧
        pathJob ∈ system.submissions ∧ system.world.table.status? "1" = some .succeeded :=
    ⟨_, rfl, .head _, rfl⟩
  have reaches : Reaches step anyStep fresh system := reaches_of_play (fun _ _ _ => trivial) played
  exact ⟨system, succeeded, succeeded_effect Sample.env Function.injective_id none Sample.extract
    system reaches pathJob listed succeeded⟩

end System

end DocContext
