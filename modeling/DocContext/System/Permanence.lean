import DocContext.System.Success

/-! A document that one index job alone names: once that job has SUCCEEDED, the store
holds its chunks for good. -/

namespace DocContext

open Foundation Coroutine

namespace System

variable {env : Env} {system after : System env} {submission : Submission}
  {extractText : Extraction}

/-- No other job names the document of a submission, and its file stays as it is. -/
def Dedicated (submission : Submission) (system : System env) : Action → Prop
  | .submit other =>
    other = submission ∨ other.envelope.documentId ≠ submission.envelope.documentId
  | .replaceFiles extractText => ∀ path ∈ submission.envelope.filePath,
      extractText path submission.envelope.fileType =
        system.world.extractText path submission.envelope.fileType
  | _ => True

/-- The points of the text of a submission. -/
def Writes (env : Env) (submission : Submission) (extractText : Extraction)
    (points : List Point) : Prop :=
  ∃ text, Extracted submission.envelope extractText text ∧
    PointsOf env submission.envelope text points

theorem Writes.unique {points points' : List Point}
    (writes : Writes env submission extractText points)
    (writes' : Writes env submission extractText points') : points = points' := by
  obtain ⟨text, ⟨_, path, located, _, found⟩, made⟩ := writes
  obtain ⟨text', ⟨_, path', located', _, found'⟩, made'⟩ := writes'
  cases located.symm.trans located'
  cases found.symm.trans found'
  exact made.unique made'

/-- What a step can do to the points, seen from the document of a submission. -/
inductive Touched (env : Env) (submission : Submission) (extractText : Extraction)
    (before after : Store String Record) : Prop where
  | same (kept : after = before)
  | own (points : List Point) (writes : Writes env submission extractText points)
      (wrote : after = Store.write (points.map Point.entry) before)
  | others (entries : List (String × Record))
      (elsewhere : ∀ entry ∈ entries, ∃ documentId index,
        documentId ≠ submission.envelope.documentId ∧
          entry.1 = chunkIdFor env documentId index ∧
          entry.2.payload.documentId = some documentId)
      (wrote : after = Store.write entries before)
  | removed (selected : Record → Bool)
      (elsewhere : ∀ record : Record,
        record.payload.documentId = some submission.envelope.documentId → selected record = false)
      (removed : after = Store.remove selected before)

theorem point_of_writes {points : List Point} {point : Point}
    (writes : Writes env submission extractText points)
    (member : point ∈ points) :
    ∃ index, point.id = chunkIdFor env submission.envelope.documentId index ∧
      point.record.payload.documentId = some submission.envelope.documentId := by
  obtain ⟨text, _, made⟩ := writes
  obtain ⟨chunk, _, _, _, _, _, rfl⟩ := made.chunk member
  exact ⟨chunk.chunkIndex, rfl, rfl⟩

/-- Points of the document stay once they are there. -/
theorem Touched.keeps (injective : Function.Injective env.uuid5)
    {before after : Store String Record} (touched : Touched env submission extractText before after)
    {points : List Point} (writes : Writes env submission extractText points)
    (holds : ∀ point ∈ points, before point.id = some point.record) :
    ∀ point ∈ points, after point.id = some point.record := by
  cases touched with
  | same kept => rwa [kept]
  | own points' writes' wrote =>
    obtain rfl := writes.unique writes'
    obtain ⟨text, _, made⟩ := writes
    rw [wrote]
    exact shows_written injective made before
  | others entries elsewhere wrote =>
    intro point member
    obtain ⟨index, named, _⟩ := point_of_writes writes member
    rw [wrote, Store.write_other, holds point member]
    intro clash
    obtain ⟨entry, listed, same⟩ := List.mem_map.mp clash
    obtain ⟨documentId, index', other, named', _⟩ := elsewhere entry listed
    rw [named', named] at same
    exact other (chunkIdFor_inj injective same).1
  | removed selected elsewhere removed =>
    intro point member
    obtain ⟨index, _, document⟩ := point_of_writes writes member
    rw [removed]
    exact Store.remove_eq_some.mpr ⟨holds point member, elsewhere point.record document⟩

/-- No other point gets the document's id. -/
theorem Touched.only {before after : Store String Record}
    (touched : Touched env submission extractText before after)
    (only : ∀ point : Point, before point.id = some point.record →
      point.record.payload.documentId = some submission.envelope.documentId →
        ∃ points, Writes env submission extractText points ∧ point ∈ points)
    (point : Point) (held : after point.id = some point.record)
    (document : point.record.payload.documentId = some submission.envelope.documentId) :
    ∃ points, Writes env submission extractText points ∧ point ∈ points := by
  cases touched with
  | same kept =>
    rw [kept] at held
    exact only point held document
  | own points writes wrote =>
    rw [wrote] at held
    rcases Store.write_cases held with new | old
    · exact ⟨points, writes, mem_of_entry new⟩
    · exact only point old document
  | others entries elsewhere wrote =>
    rw [wrote] at held
    rcases Store.write_cases held with new | old
    · obtain ⟨documentId, _, other, _, named⟩ := elsewhere _ new
      exact absurd (Option.some.inj (named.symm.trans document)) other
    · exact only point old document
  | removed selected elsewhere removed =>
    rw [removed] at held
    exact only point (Store.remove_eq_some.mp held).1 document

/-- What holds along a run in which the document is dedicated. -/
structure Keeps (submission : Submission) (extractText : Extraction) (system : System env) : Prop where
  sound : system.Sound
  agrees : system.Agrees
  file : ∀ path ∈ submission.envelope.filePath,
    system.world.extractText path submission.envelope.fileType =
      extractText path submission.envelope.fileType
  others : ∀ other ∈ system.submissions,
    other = submission ∨ other.envelope.documentId ≠ submission.envelope.documentId
  grounded : ∀ handling ∈ system.handlings,
    JobEnvelope.fromPayload env.repr handling.message = .ok submission.envelope →
      handling.process.state.Knows env (Extracted submission.envelope extractText)
  only : ∀ point : Point, system.world.stock point.id = some point.record →
    point.record.payload.documentId = some submission.envelope.documentId →
      ∃ points, Writes env submission extractText points ∧ point ∈ points

/-- The job is through with its work, so its chunks are there. -/
structure Delivers (submission : Submission) (extractText : Extraction) (system : System env) :
    Prop where
  handlers : ∀ handling ∈ system.handlings,
    JobEnvelope.fromPayload env.repr handling.message = .ok submission.envelope →
      handling.process.state = .finished → ∃ points, Writes env submission extractText points ∧
        ∀ point ∈ points, system.world.stock point.id = some point.record
  row : system.world.table.status? submission.jobId = some .succeeded →
    submission ∈ system.submissions → ∃ points, Writes env submission extractText points ∧
      ∀ point ∈ points, system.world.stock point.id = some point.record

theorem extracted_here (keeps : Keeps submission extractText system) {text : Text}
    (found : Extracted submission.envelope system.world.extractText text) :
    Extracted submission.envelope extractText text := by
  obtain ⟨index, path, located, nonempty, found⟩ := found
  rw [keeps.file path located] at found
  exact ⟨index, path, located, nonempty, found⟩

theorem touched_step (index : submission.envelope.jobType = .indexDocument) {action : Action}
    (keeps : Keeps submission extractText system) (stepped : system.step action = some after) :
    Touched env submission extractText system.world.stock after.world.stock := by
  cases action with
  | submit other =>
    obtain ⟨_, rfl⟩ := step_submit stepped
    exact .same rfl
  | serve place fault =>
    obtain ⟨rpc, process, call, resume, _, _, awaits, _, rfl⟩ := step_serve_call stepped
    have reads : call.writesPoints = false := by
      generalize rpc.process.state = phase at awaits
      cases awaits <;> rfl
    exact .same (answer_stock env call fault system.world reads)
  | replaceFiles | deliver | settle | cancel | loseConnection | crash =>
    exact .same (stock_of_collection (step_quiet stepped trivial).2.2)
  | work place fault =>
    obtain ⟨handling, process, call, resume, envelope, found, _, read, awaits, _, rfl⟩ :=
      step_work stepped
    have member := List.mem_of_getElem? found
    obtain ⟨sender, sent, rfl, _⟩ := keeps.sound.sent (message_of_handling member) read
    rcases keeps.others sender sent with rfl | other
    · rcases stock_answered awaits (keeps.grounded handling member read) with
        same | ⟨_, text, points, extracted, made, wrote⟩ | ⟨delete, _⟩
      · exact .same same
      · exact .own points ⟨text, extracted, made⟩ wrote
      · cases index.symm.trans delete
    · rcases awaits.stock fault system.world with
        same | ⟨chunks, vectors, stored, _, paired, wrote⟩ | ⟨_, removed⟩
      · exact .same same
      · refine .others _ (fun entry listed => ?_) wrote
        obtain ⟨point, pointed, rfl⟩ := List.mem_map.mp listed
        obtain ⟨chunk, written, rfl⟩ := List.mem_map.mp pointed
        obtain ⟨pair, _, rfl⟩ := storedChunks_mem paired written
        exact ⟨sender.envelope.documentId, pair.1.chunkIndex, other, rfl, rfl⟩
      · refine .removed _ (fun record document => ?_) removed
        apply Bool.eq_false_iff.mpr
        intro selected
        have named := (inDocument_iff.mp selected).2
        exact other (Option.some.inj (named.symm.trans document))

/-- Only a change of files changes what is extracted. -/
theorem extractText_step {action : Action} (stepped : system.step action = some after)
    (others : ∀ extract, action ≠ .replaceFiles extract) :
    after.world.extractText = system.world.extractText := by
  cases action with
  | replaceFiles extract => exact absurd rfl (others extract)
  | submit submission =>
    obtain ⟨_, rfl⟩ := step_submit stepped
    rfl
  | serve index fault =>
    obtain ⟨rpc, process, call, resume, _, _, _, _, rfl⟩ := step_serve_call stepped
    exact answer_extractText
  | work index fault =>
    obtain ⟨handling, process, call, resume, envelope, _, _, _, _, _, rfl⟩ := step_work stepped
    exact answer_extractText
  | deliver worker =>
    obtain ⟨message, queue, _, rfl⟩ := step_deliver stepped
    rfl
  | settle index | cancel index =>
    obtain ⟨handling, _, _, _, rfl⟩ := step_dismisses index (by simp) stepped
    rfl
  | loseConnection index =>
    obtain ⟨handling, _, _, rfl⟩ := step_loseConnection stepped
    rfl
  | crash index =>
    obtain ⟨handling, _, _, rfl⟩ := step_crash stepped
    rfl

theorem keeps_step (index : submission.envelope.jobType = .indexDocument) {action : Action}
    (keeps : Keeps submission extractText system) (dedicated : Dedicated submission system action)
    (stepped : system.step action = some after) : Keeps submission extractText after := by
  refine ⟨sound_step keeps.sound stepped, agrees_step keeps.agrees stepped, ?_, ?_, ?_,
    (touched_step index keeps stepped).only keeps.only⟩
  · intro path located
    by_cases replaced : ∃ extract, action = .replaceFiles extract
    · obtain ⟨extract, rfl⟩ := replaced
      cases stepped
      exact (dedicated path located).trans (keeps.file path located)
    · rw [extractText_step stepped fun extract same => replaced ⟨extract, same⟩]
      exact keeps.file path located
  · intro other listed
    by_cases submitted : ∃ fresh, action = .submit fresh
    · obtain ⟨fresh, rfl⟩ := submitted
      obtain ⟨_, rfl⟩ := step_submit stepped
      rw [submissions, List.map_append] at listed
      rcases List.mem_append.mp listed with earlier | new
      · exact keeps.others other earlier
      · rw [List.mem_singleton.mp new]
        exact dedicated
    · rw [submissions_step stepped fun fresh same => submitted ⟨fresh, same⟩] at listed
      exact keeps.others other listed
  · intro handling member read
    rcases handling_step stepped member with
      ⟨old, listed, same, kept⟩ | new | dead |
        ⟨old, listed, same, envelope, call, fault, read', awaits, moved, _⟩
    · rw [← kept]
      exact keeps.grounded old listed (by rwa [same])
    · rw [new]
      trivial
    · rw [dead]
      trivial
    · rw [← same] at read
      obtain rfl : envelope = submission.envelope := Except.ok.inj (read'.symm.trans read)
      rw [moved]
      exact knows_answered (fun text => extracted_here keeps) awaits (keeps.grounded old listed read)

theorem delivers_step (injective : Function.Injective env.uuid5)
    (index : submission.envelope.jobType = .indexDocument) {action : Action}
    (keeps : Keeps submission extractText system)
    (delivers : Delivers submission extractText system)
    (stepped : system.step action = some after) : Delivers submission extractText after := by
  have touched := touched_step index keeps stepped
  have later (held : ∃ points, Writes env submission extractText points ∧
      ∀ point ∈ points, system.world.stock point.id = some point.record) :
      ∃ points, Writes env submission extractText points ∧
        ∀ point ∈ points, after.world.stock point.id = some point.record := by
    obtain ⟨points, writes, holds⟩ := held
    exact ⟨points, writes, touched.keeps injective writes holds⟩
  constructor
  · intro handling member read finished
    rcases handling_step stepped member with
      ⟨old, listed, same, kept⟩ | new | dead |
        ⟨old, listed, same, envelope, call, fault, read', awaits, moved, answered⟩
    · exact later (delivers.handlers old listed (by rwa [same]) (kept.trans finished))
    · cases new.symm.trans finished
    · cases dead.symm.trans finished
    · rw [← same] at read
      obtain rfl : envelope = submission.envelope := Except.ok.inj (read'.symm.trans read)
      rcases effected_answered injective (fun text found => found.1) awaits
        (keeps.grounded old listed read) (moved.symm.trans finished) with already | effected
      · exact later (delivers.handlers old listed read already)
      · rw [← answered, Effected, index] at effected
        obtain ⟨text, extracted, points, made, holds⟩ := effected
        exact ⟨points, ⟨text, extracted, made⟩, holds⟩
  · intro succeeded listed
    rcases succeeded_step stepped succeeded with
      before | ⟨handling, member, finished, envelope, read, own⟩
    · obtain ⟨row, found, _⟩ := Option.map_eq_some_iff.mp before
      obtain ⟨sender, sent, own, _⟩ := keeps.agrees submission.jobId row found
      obtain rfl : sender = submission := List.inj_on_of_nodup_map
        (sound_step keeps.sound stepped).distinct (submissions_grow stepped sent) listed own
      exact later (delivers.row before sent)
    · obtain ⟨sender, sent, rfl, _⟩ := keeps.sound.sent (message_of_handling member) read
      obtain rfl : sender = submission := List.inj_on_of_nodup_map
        (sound_step keeps.sound stepped).distinct (submissions_grow stepped sent) listed own
      exact later (delivers.handlers handling member read finished)

theorem delivers_of_reaches (injective : Function.Injective env.uuid5)
    {collection : Option Collection} (index : submission.envelope.jobType = .indexDocument)
    (clear : ∀ point : Point,
      (initial env collection extractText).world.stock point.id = some point.record →
        point.record.payload.documentId ≠ some submission.envelope.documentId)
    (reaches : Reaches step (Dedicated submission) (initial env collection extractText) system) :
    Keeps submission extractText system ∧ Delivers submission extractText system := by
  refine reaches.invariant (fun system => Keeps submission extractText system ∧
      Delivers submission extractText system)
    (fun _ _ _ dedicated stepped held =>
      ⟨keeps_step index held.1 dedicated stepped, delivers_step injective index held.1 held.2 stepped⟩)
    ⟨⟨sound_initial env collection extractText, agrees_of_reaches (.refl : Reaches step anyStep _ _),
      fun _ _ => rfl, ?_, ?_, fun point held document => absurd document (clear point held)⟩, ?_, ?_⟩
  all_goals exact fun _ member => (List.not_mem_nil member).elim

/-- A document that one index job alone names, its file left as it is: in whatever order
servers and workers take their steps, and whatever fails, is delivered again or
dies, from the moment the row of the job is SUCCEEDED the points of the document are
exactly the chunks of its text, for good. -/
theorem indexed_stays (env : Env) (injective : Function.Injective env.uuid5)
    (collection : Option Collection) (extractText : Extraction) (submission : Submission)
    (index : submission.envelope.jobType = .indexDocument)
    (clear : ∀ point : Point,
      (initial env collection extractText).world.stock point.id = some point.record →
        point.record.payload.documentId ≠ some submission.envelope.documentId)
    (reported system : System env)
    (before : Reaches step (Dedicated submission) (initial env collection extractText) reported)
    (listed : submission ∈ reported.submissions)
    (succeeded : reported.world.table.status? submission.jobId = some .succeeded)
    (later : Reaches step (Dedicated submission) reported system) :
    ∃ text points, Extracted submission.envelope extractText text ∧
      PointsOf env submission.envelope text points ∧
      ∀ point : Point, point ∈ points ↔
        system.world.stock point.id = some point.record ∧
          point.record.payload.documentId = some submission.envelope.documentId := by
  obtain ⟨keeps, delivers⟩ := delivers_of_reaches injective index clear before
  obtain ⟨points, writes, holds⟩ := delivers.row succeeded listed
  obtain ⟨keeps, holds⟩ :=
    later.invariant (fun system => Keeps submission extractText system ∧
        ∀ point ∈ points, system.world.stock point.id = some point.record)
      (fun _ _ _ dedicated stepped held =>
        ⟨keeps_step index held.1 dedicated stepped,
          (touched_step index held.1 stepped).keeps injective writes held.2⟩)
      ⟨keeps, holds⟩
  have named (point : Point) (member : point ∈ points) :
      point.record.payload.documentId = some submission.envelope.documentId := by
    obtain ⟨_, _, document⟩ := point_of_writes writes member
    exact document
  have sole (point : Point) (held : system.world.stock point.id = some point.record)
      (document : point.record.payload.documentId = some submission.envelope.documentId) :
      point ∈ points := by
    obtain ⟨points', writes', member⟩ := keeps.only point held document
    rwa [writes.unique writes']
  obtain ⟨text, extracted, made⟩ := writes
  refine ⟨text, points, extracted, made, fun point => ⟨fun member => ?_, fun held => ?_⟩⟩
  · exact ⟨holds point member, named point member⟩
  · exact sole point held.1 held.2

open Sample

/-- An index job that is worked off. -/
theorem indexed_stays_sample :
    ∃ system : System Sample.env, system.world.table.status? "1" = some .succeeded ∧
      ∃ text points, Extracted pathJob.envelope Sample.extract text ∧
        PointsOf Sample.env pathJob.envelope text points ∧
        ∀ point : Point, point ∈ points ↔
          system.world.stock point.id = some point.record ∧
            point.record.payload.documentId = some "d" := by
  obtain ⟨system, played, listed, succeeded⟩ : ∃ system : System Sample.env,
      (submitted pathJob 0 0 ++ calls 0 11).foldlM step fresh = some system ∧
        pathJob ∈ system.submissions ∧ system.world.table.status? "1" = some .succeeded :=
    ⟨_, rfl, .head _, rfl⟩
  have reaches : Reaches step (Dedicated pathJob) fresh system := by
    refine reaches_of_play (fun action member state => ?_) played
    simp only [submitted, calls, List.replicate, List.cons_append, List.nil_append,
      List.mem_cons, List.not_mem_nil, or_false] at member
    rcases member with rfl | rfl | rfl | rfl | rfl | rfl | rfl | rfl | rfl | rfl | rfl | rfl | rfl |
      rfl | rfl <;> first | trivial | exact .inl rfl
  exact ⟨system, succeeded, indexed_stays Sample.env Function.injective_id none Sample.extract
    pathJob rfl (fun _ held => by cases held) system system reaches listed succeeded .refl⟩

end System

end DocContext
