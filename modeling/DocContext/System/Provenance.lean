import DocContext.Foundation.Moments
import DocContext.System.Settlement
import DocContext.Workers.Grounds

/-! Where the stored points come from: each was there at the start, or is a chunk of
a text that a request to index it led a worker to, under the names the request
gave. -/

namespace DocContext

open Foundation Coroutine

/-- The point is a chunk of the text, under the names of the job, with the vector the
embedder gave the chunk. -/
def ChunkOf (env : Env) (envelope : JobEnvelope) (text : Text) (point : Point) : Prop :=
  ∃ chunk ∈ env.chunker.chunk text, ∃ vectors vector,
    env.embed ((env.chunker.chunk text).map Chunk.text) = .ok vectors ∧
      vectors[chunk.chunkIndex]? = some vector ∧
      point = chunkPoint env envelope chunk vector

theorem PointsOf.chunk {env : Env} {envelope : JobEnvelope} {text : Text} {points : List Point}
    {point : Point} (made : PointsOf env envelope text points) (member : point ∈ points) :
    ChunkOf env envelope text point := by
  obtain ⟨vectors, _, embedded, rfl⟩ := made
  rw [← List.map_uncurry_zip_eq_zipWith] at member
  obtain ⟨⟨emitted, vector⟩, zipped, rfl⟩ := List.mem_map.mp member
  obtain ⟨index, found⟩ := List.mem_iff_getElem?.mp zipped
  obtain ⟨here, there⟩ := List.getElem?_zip_eq_some.mp found
  have emits := List.mem_of_getElem? here
  obtain ⟨_, _, own, _⟩ := env.chunker.chunk_window text here
  refine ⟨emitted, emits, vectors, vector, embedded (List.ne_nil_of_mem emits), ?_, rfl⟩
  rw [own]
  exact there

namespace System

variable {env : Env} {start system after : System env} {envelope : JobEnvelope}

/-- At some moment so far the file of the job gave the text. -/
def Extracts (start system : System env) (envelope : JobEnvelope) (text : Text) : Prop :=
  Once step start system fun moment => Extracted envelope moment.world.extractText text

theorem Extracts.later {action : Action} {text : Text} (extracts : Extracts start system envelope text)
    (stepped : system.step action = some after) : Extracts start after envelope text :=
  Once.later extracts stepped

theorem Extracts.index {text : Text} (extracts : Extracts start system envelope text) :
    envelope.jobType = .indexDocument := by
  obtain ⟨moment, _, _, index, _⟩ := extracts
  exact index

/-- What the handlers have in their hands comes from the files of their jobs. -/
def Grounded (start system : System env) : Prop :=
  ∀ handling ∈ system.handlings, ∀ envelope,
    JobEnvelope.fromPayload env.repr handling.message = .ok envelope →
      handling.process.state.Knows env (Extracts start system envelope)

/-- The point is the chunk of a request's text, read out. -/
def Requested (start system : System env) (point : Point) : Prop :=
  ∃ submission ∈ system.submissions, ∃ text, Extracts start system submission.envelope text ∧
    ChunkOf env submission.envelope text point

theorem Requested.later {action : Action} {point : Point} (requested : Requested start system point)
    (stepped : system.step action = some after) : Requested start after point := by
  obtain ⟨submission, listed, text, extracts, chunk⟩ := requested
  exact ⟨submission, submissions_grow stepped listed, text, extracts.later stepped, chunk⟩

structure Sourced (start system : System env) : Prop where
  reaches : Reaches step anyStep start system
  sound : system.Sound
  grounded : Grounded start system
  points : ∀ point : Point, system.world.stock point.id = some point.record →
    start.world.stock point.id = some point.record ∨ Requested start system point

theorem mem_of_entry {points : List Point} {point : Point}
    (member : (point.id, point.record) ∈ points.map Point.entry) : point ∈ points := by
  obtain ⟨⟨id, record⟩, listed, same⟩ := List.mem_map.mp member
  obtain ⟨rfl, rfl⟩ := Prod.mk.inj same
  exact listed

theorem points_step {action : Action} (sourced : Sourced start system)
    (stepped : system.step action = some after) (point : Point)
    (held : after.world.stock point.id = some point.record) :
    start.world.stock point.id = some point.record ∨ Requested start after point := by
  have before (held : system.world.stock point.id = some point.record) :
      start.world.stock point.id = some point.record ∨ Requested start after point :=
    (sourced.points point held).imp id fun requested => requested.later stepped
  cases action with
  | work index fault =>
    have whole := stepped
    obtain ⟨handling, process, call, resume, envelope, found, _, read, awaits, _, rfl⟩ :=
      step_work stepped
    have member := List.mem_of_getElem? found
    have knows := sourced.grounded handling member envelope read
    rcases stock_answered awaits knows with
      same | ⟨_, text, points, extracts, made, written⟩ | ⟨_, removed⟩
    · rw [same] at held
      exact before held
    · rw [written] at held
      rcases Store.write_cases held with new | old
      · obtain ⟨submission, submitted, rfl, _⟩ :=
          sourced.sound.sent (message_of_handling member) read
        have chunk := made.chunk (mem_of_entry new)
        exact .inr (Requested.later ⟨submission, submitted, text, extracts, chunk⟩ whole)
      · exact before old
    · rw [removed] at held
      exact before (Store.remove_eq_some.mp held).1
  | submit submission =>
    obtain ⟨_, rfl⟩ := step_submit stepped
    exact before held
  | serve index fault =>
    obtain ⟨rpc, process, call, resume, _, _, awaits, _, same⟩ := step_serve_call stepped
    have reads : call.writesPoints = false := by
      generalize rpc.process.state = phase at awaits
      cases awaits <;> rfl
    rw [same] at held
    rw [answer_stock env call fault system.world reads] at held
    exact before held
  | replaceFiles | deliver | settle | cancel | loseConnection | crash =>
    rw [stock_of_collection (step_quiet stepped trivial).2.2] at held
    exact before held

/-- Where a handler comes from: it stood there before, it is new or dead, or a call of it
was answered. -/
theorem handling_step {action : Action} (stepped : system.step action = some after)
    {handling : Handling env} (member : handling ∈ after.handlings) :
    (∃ old ∈ system.handlings, old.message = handling.message ∧
        old.process.state = handling.process.state) ∨
      handling.process.state = .received ∨ handling.process.state = .cancelled ∨
      ∃ old ∈ system.handlings, old.message = handling.message ∧ ∃ envelope call fault,
        JobEnvelope.fromPayload env.repr old.message = .ok envelope ∧
          Stage.Awaits env envelope old.process.state call ∧
          handling.process.state =
            old.process.state.moves call (answer (perform env) fault call system.world).1 ∧
          after.world = (answer (perform env) fault call system.world).2 := by
  cases action with
  | submit submission =>
    obtain ⟨_, rfl⟩ := step_submit stepped
    exact .inl ⟨handling, member, rfl, rfl⟩
  | serve index fault =>
    obtain ⟨rpc, process, world, found, _, rfl⟩ := step_serve stepped
    exact .inl ⟨handling, member, rfl, rfl⟩
  | replaceFiles extractText =>
    cases stepped
    exact .inl ⟨handling, member, rfl, rfl⟩
  | deliver worker =>
    obtain ⟨message, queue, next, rfl⟩ := step_deliver stepped
    rcases List.mem_append.mp member with earlier | new
    · exact .inl ⟨handling, earlier, rfl, rfl⟩
    · rw [List.mem_singleton.mp new]
      exact .inr (.inl rfl)
  | work index fault =>
    obtain ⟨old, process, call, resume, envelope, found, _, read, awaits, moved, rfl⟩ :=
      step_work stepped
    rcases List.mem_or_eq_of_mem_set member with earlier | rfl
    · exact .inl ⟨handling, earlier, rfl, rfl⟩
    · exact .inr (.inr (.inr ⟨old, List.mem_of_getElem? found, rfl, envelope, call, fault, read,
        awaits, moved, rfl⟩))
  | settle index | cancel index =>
    obtain ⟨old, found, _, _, rfl⟩ := step_dismisses index (by simp) stepped
    rcases List.mem_or_eq_of_mem_set member with earlier | rfl
    · exact .inl ⟨handling, earlier, rfl, rfl⟩
    · exact .inl ⟨old, List.mem_of_getElem? found, rfl, rfl⟩
  | loseConnection index =>
    obtain ⟨old, found, _, rfl⟩ := step_loseConnection stepped
    rcases List.mem_or_eq_of_mem_set member with earlier | rfl
    · exact .inl ⟨handling, earlier, rfl, rfl⟩
    · exact .inl ⟨old, List.mem_of_getElem? found, rfl, rfl⟩
  | crash index =>
    obtain ⟨old, found, _, rfl⟩ := step_crash stepped
    rcases List.mem_or_eq_of_mem_set member with earlier | rfl
    · exact .inl ⟨handling, earlier, rfl, rfl⟩
    · exact .inr (.inr (.inl rfl))

theorem grounded_step {action : Action} (reaches : Reaches step anyStep start system)
    (grounded : Grounded start system) (stepped : system.step action = some after) :
    Grounded start after := by
  intro handling member envelope read
  have later {stage : Stage} (knows : stage.Knows env (Extracts start system envelope)) :
      stage.Knows env (Extracts start after envelope) :=
    knows.imp fun text extracts => extracts.later stepped
  rcases handling_step stepped member with
    ⟨old, listed, same, kept⟩ | new | dead |
      ⟨old, listed, same, envelope', call, fault, read', awaits, moved, _⟩
  · rw [← same] at read
    rw [← kept]
    exact later (grounded old listed envelope read)
  · rw [new]
    trivial
  · rw [dead]
    trivial
  · rw [← same] at read
    obtain rfl : envelope' = envelope := Except.ok.inj (read'.symm.trans read)
    have now (text : Text) (found : Extracted envelope' system.world.extractText text) :
        Extracts start system envelope' text := Once.now reaches found
    rw [moved]
    exact later (knows_answered now awaits (grounded old listed envelope' read))

theorem sourced_step {action : Action} (sourced : Sourced start system)
    (stepped : system.step action = some after) : Sourced start after where
  reaches := sourced.reaches.tail ⟨action, trivial, stepped⟩
  sound := sound_step sourced.sound stepped
  grounded := grounded_step sourced.reaches sourced.grounded stepped
  points := points_step sourced stepped

theorem sourced_of_reaches {collection : Option Collection} {extractText : Extraction}
    (reaches : Reaches step anyStep (initial env collection extractText) system) :
    Sourced (initial env collection extractText) system :=
  reaches.invariant (Sourced (initial env collection extractText))
    (fun _ _ _ _ stepped sourced => sourced_step sourced stepped)
    ⟨.refl, sound_initial env collection extractText, fun _ member => (List.not_mem_nil member).elim,
      fun _ held => .inl held⟩

/-- In every state the deployment can reach, every stored point was there at the start,
or is a chunk of a text that the file of an index request gave at some moment: it stands
under the id of the request's document and the chunk's number, names the request's
client, corpus, document and file type, shows the span of the text it says, and has
the vector of that chunk. -/
theorem stored_provenance (env : Env) (collection : Option Collection) (extractText : Extraction)
    (system : System env)
    (reaches : Reaches step anyStep (initial env collection extractText) system) (point : Point)
    (held : system.world.stock point.id = some point.record) :
    (initial env collection extractText).world.stock point.id = some point.record ∨
      ∃ submission ∈ system.submissions, submission.envelope.jobType = .indexDocument ∧
        ∃ path text, submission.envelope.filePath = some path ∧
          Once step (initial env collection extractText) system (fun moment =>
            moment.world.extractText path submission.envelope.fileType = .ok text) ∧
          ChunkOf env submission.envelope text point ∧
          point.record.payload.text = some
            (slice text (point.record.payload.charStart.getD 0)
              (point.record.payload.charEnd.getD 0)) := by
  rcases (sourced_of_reaches reaches).points point held with initially | requested
  · exact .inl initially
  obtain ⟨submission, listed, text, ⟨moment, before, on, extracted⟩, chunk⟩ := requested
  obtain ⟨index, path, located, nonempty, found⟩ := extracted
  refine .inr ⟨submission, listed, index, path, text, located, ⟨moment, before, on, found⟩, chunk, ?_⟩
  obtain ⟨emitted, member, vectors, vector, embedded, paired, rfl⟩ := chunk
  obtain ⟨place, here⟩ := List.mem_iff_getElem?.mp member
  obtain ⟨_, _, _, _, _, shows⟩ := env.chunker.chunk_window text here
  exact congrArg some shows

open Sample

/-- The point of an index job that is worked off. -/
theorem stored_provenance_sample :
    ∃ (system : System Sample.env) (point : Point),
      system.world.stock point.id = some point.record ∧
      ∃ submission ∈ system.submissions, submission.envelope.jobType = .indexDocument ∧
        ∃ path text, submission.envelope.filePath = some path ∧
          Once step fresh system (fun moment =>
            moment.world.extractText path submission.envelope.fileType = .ok text) ∧
          ChunkOf Sample.env submission.envelope text point ∧
          point.record.payload.text = some
            (slice text (point.record.payload.charStart.getD 0)
              (point.record.payload.charEnd.getD 0)) := by
  obtain ⟨system, played, record, held⟩ : ∃ system : System Sample.env,
      (submitted pathJob 0 0 ++ calls 0 11).foldlM step fresh = some system ∧
        ∃ record, system.world.stock (chunkIdFor Sample.env "d" 0) = some record :=
    ⟨_, rfl, _, rfl⟩
  have reaches : Reaches step anyStep fresh system := reaches_of_play (fun _ _ _ => trivial) played
  have origin := stored_provenance Sample.env none Sample.extract system reaches
    ⟨chunkIdFor Sample.env "d" 0, record⟩ held
  exact ⟨system, _, held, origin.resolve_left fun clash => by cases clash⟩

end System

end DocContext
