import DocContext.Services.Citations
import DocContext.System.Answers
import DocContext.System.Permanence

/-! Listed answers: what pages of a store that changes between them add up to, and that
an indexed document is among them with its whole text. -/

namespace DocContext

open Foundation Coroutine

/-- What a listing has come to that may only read certain points, while certain points are
there to be read. -/
structure Listing (there readable : Point → Prop) (points : List Point) : Prop where
  ascending : Ascending Point.id points
  short : points.length ≤ 10000
  read : ∀ point ∈ points, readable point
  complete : points.length < 10000 → ∀ point, there point → point ∈ points

/-- How such a listing stands. -/
def Reading.Orderly (there readable : Point → Prop) : Reading → Prop
  | .pages got offset => Behind Point.id got (some offset) ∧
      (∀ point ∈ got, readable point) ∧ ∀ point, there point → point.id < offset → point ∈ got
  | .listed got _ => Listing there readable got
  | .stalled => False
  | _ => True

namespace Reading

variable {env : Env} {query : QueryDocumentsRequest} {reading next : Reading} {world : World}
  {there readable wider : Point → Prop} {points got : List Point}

theorem Orderly.live (orderly : reading.Orderly there readable) : reading ≠ .stalled := by
  rintro rfl
  exact orderly

theorem Orderly.imp (orderly : reading.Orderly there readable)
    (implies : ∀ point, readable point → wider point) : reading.Orderly there wider := by
  cases reading with
  | pages got offset =>
    obtain ⟨behind, read, caught⟩ := orderly
    exact ⟨behind, fun point member => implies point (read point member), caught⟩
  | listed got whole =>
    obtain ⟨ascending, short, read, complete⟩ := orderly
    exact ⟨ascending, short, fun point member => implies point (read point member), complete⟩
  | nothing | found | failed => trivial
  | stalled => exact orderly

/-- A further page of a store in which these points are. -/
theorem orderly_page {cursor : Option String} {limit : Nat} (positive : 0 < limit)
    (within : got.length + limit ≤ listingLimit) (ascending : Ascending Point.id points)
    (present : ∀ point, there point → point ∈ points) (seen : ∀ point ∈ points, readable point)
    (behind : Behind Point.id got cursor) (read : ∀ point ∈ got, readable point)
    (caught : ∀ point, there point → ∀ bound ∈ cursor, point.id < bound → point ∈ got) :
    (page got (pageAt Point.id points limit cursor)).Orderly there readable := by
  rcases paged : pageAt Point.id points limit cursor with ⟨more, next⟩
  obtain ⟨sorted, further⟩ := behind.append ascending paged
  have short : (got ++ more).length ≤ listingLimit := by
    have size := page_length paged
    rw [List.length_append]
    omega
  have known (point : Point) (member : point ∈ got ++ more) : readable point := by
    rcases List.mem_append.mp member with old | new
    · exact read point old
    · exact seen point (mem_of_page ascending paged new).1
  have gained (point : Point) (held : there point) (reached : ∀ bound ∈ next, point.id < bound) :
      point ∈ got ++ more :=
    got_page ascending paged (present point held) (caught point held) reached
  have full : next.isSome → more ≠ [] := by
    intro promised
    obtain ⟨offset, rfl⟩ := Option.isSome_iff_exists.mp promised
    exact page_nonempty paged positive
  rcases page_cases got full with ⟨rfl, made⟩ | ⟨long, made⟩ | ⟨offset, rfl, made⟩ <;> rw [made]
  · exact ⟨sorted, short, known, fun _ point held => gained point held fun _ none => by cases none⟩
  · exact ⟨sorted, short, known, fun less => absurd long (Nat.not_le.mpr less)⟩
  · refine ⟨further offset rfl, known, fun point held less => gained point held ?_⟩
    rintro _ ⟨⟩
    exact less

/-- What a reply makes of a listing, while the points are there. -/
theorem Orderly.learns (orderly : reading.Orderly there readable)
    (learns : Learns env query world reading next)
    (sighted : ∀ points, visible query world = some points →
      (∀ point, there point → point ∈ points) ∧ ∀ point ∈ points, readable point) :
    next.Orderly there readable := by
  cases learns with
  | fails | finds => trivial
  | stays => exact orderly
  | begins sight positive within =>
    obtain ⟨present, seen⟩ := sighted _ sight
    exact orderly_page positive (by simpa using within) (visible_ascending sight) present seen
      (behind_nil _) (fun point member => (List.not_mem_nil member).elim)
      (fun _ _ _ none => by cases none)
  | turns sight positive within =>
    obtain ⟨present, seen⟩ := sighted _ sight
    obtain ⟨behind, read, caught⟩ := orderly
    refine orderly_page positive within (visible_ascending sight) present seen behind read ?_
    rintro point held _ ⟨⟩ less
    exact caught point held less

end Reading

/-! The listing of a document's chunks. -/

theorem PointsOf.chunks {env : Env} {envelope : JobEnvelope} {text : Text} {written : List Point}
    (made : PointsOf env envelope text written) :
    written.map (fun point => (point.retrieved (.finite 0)).toChunk) = env.chunker.chunk text := by
  obtain ⟨vectors, same, _, rfl⟩ := made
  rw [List.map_zipWith, ← List.map_uncurry_zip_eq_zipWith]
  conv_rhs => rw [← List.map_fst_zip (Nat.le_of_eq same.symm)]
  rfl

namespace Deployment

variable {env : Env} {query : QueryDocumentsRequest} {asked begun last : Deployment env}

/-- A listing stays in order along a run in which the points are there. -/
theorem orderly_of_reaches {allowed : Deployment env → Event → Prop} (there : Point → Prop)
    (readable : Deployment env → Point → Prop) (asks : asked.step (.ask query) = some begun)
    (later : ∀ before event after, allowed before event → before.step event = some after →
      ∀ point, readable before point → readable after point)
    (sighted : ∀ before event, Reaches step allowed begun before → allowed before event →
      ∀ points, visible query before.system.world = some points →
        (∀ point, there point → point ∈ points) ∧ ∀ point ∈ points, readable before point)
    (reaches : Reaches step allowed begun last) :
    ∃ inquiry, last.inquiries[asked.inquiries.length]? = some inquiry ∧ inquiry.query = query ∧
      inquiry.process.state.Orderly there (readable last) :=
  inquiry_of_reaches (fun deployment reading _ => reading.Orderly there (readable deployment)) asks
    trivial
    (fun before event after _ allows stepped _ _ orderly =>
      orderly.imp (later before event after allows stepped))
    (fun before _ _ _ fault run allows awaits orderly =>
      orderly.learns (Reading.learns_answered awaits orderly.live fault before.system.world)
        (sighted before _ run allows))
    reaches

/-- What a query whose listing is in order says and cites. -/
theorem shows_of_orderly {there readable : Point → Prop} {inquiry : Inquiry env}
    (orderly : inquiry.process.state.Orderly there readable) :
    (∀ messages model resume, inquiry.process.body = .await (.complete messages model) resume →
        messages = Prompts.buildRouterMessages inquiry.query.prompt ∨
          (∃ hits, messages = Prompts.buildSectionAnswerMessages inquiry.query.prompt
            inquiry.query.shownHistory (foundChunks hits)) ∨
          ∃ points, Listing there readable points ∧
            messages = Prompts.buildFullDocAnswerMessages inquiry.query.prompt
              inquiry.query.shownHistory (assembleDocuments (listedChunks points))) ∧
      ∀ response, inquiry.process.body = .ret response → response.usedRoute = 2 →
        ∃ points, Listing there readable points ∧
          citationsForFullDoc (listedChunks points) = .ok response.citations := by
  have follows := inquiry.process.follows
  generalize inquiry.process.state = reading at orderly follows
  constructor
  · intro messages model resume waits
    rw [waits] at follows
    have awaits : Reading.Awaits env inquiry.query reading (.complete messages model) := follows.1
    cases awaits with
    | route => exact .inl rfl
    | answerSection => exact .inr (.inl ⟨_, rfl⟩)
    | answerFullDoc => exact .inr (.inr ⟨_, orderly, rfl⟩)
    | stalledAnswer => exact orderly.elim
  · intro response returned route
    rw [returned] at follows
    rcases follows response rfl with rfl | ⟨points, whole, rfl, _, cited⟩ | ⟨hits, _, routed, _⟩
    · exact orderly.elim
    · exact ⟨points, orderly, cited⟩
    · rw [routed] at route
      cases route

/-- The points stay in the store. -/
def Holding (there : Point → Prop) (deployment : Deployment env) (_ : Event) : Prop :=
  ∀ point, there point → deployment.stock point.id = some point.record

/-- The pages of a listing may come from different moments, and still: whatever happens
while a query runs, the chunks it shows to the model and cites on the whole-document
route are no more than 10000, in strictly increasing order of their ids and so none
twice; each was in the store at some moment since the query began, under its client
and one of its corpora; and where they are fewer than 10000, each point that stayed in
the store all the while is among them. -/
theorem listing_stable (env : Env) (asked begun last : Deployment env)
    (query : QueryDocumentsRequest) (there : Point → Prop)
    (selected : ∀ point, there point → point.record.payload.clientId = some query.clientId ∧
      ∃ corpusId ∈ query.corpusIds, point.record.payload.corpusId = some corpusId)
    (asks : asked.step (.ask query) = some begun)
    (after : Reaches step (Holding there) begun last) :
    ∃ inquiry, last.inquiries[asked.inquiries.length]? = some inquiry ∧ inquiry.query = query ∧
      (∀ messages model resume, inquiry.process.body = .await (.complete messages model) resume →
        messages = Prompts.buildRouterMessages query.prompt ∨
          (∃ hits, messages = Prompts.buildSectionAnswerMessages query.prompt query.shownHistory
            (foundChunks hits)) ∨
          ∃ points, Listing there (Glimpsed query begun last) points ∧
            messages = Prompts.buildFullDocAnswerMessages query.prompt query.shownHistory
              (assembleDocuments (listedChunks points))) ∧
      ∀ response, inquiry.process.body = .ret response → response.usedRoute = 2 →
        ∃ points, Listing there (Glimpsed query begun last) points ∧
          citationsForFullDoc (listedChunks points) = .ok response.citations := by
  have sighted (before : Deployment env) (event : Event)
      (run : Reaches step (Holding there) begun before) (held : Holding there before event)
      (points : List Point) (sight : visible query before.system.world = some points) :
      (∀ point, there point → point ∈ points) ∧
        ∀ point ∈ points, Glimpsed query begun before point := by
    refine ⟨fun point stays => ?_, fun point member => ?_⟩
    · exact Reading.visible_of_stock sight (held point stays) (selected point stays)
    · obtain ⟨stored, client, corpus⟩ := Reading.mem_visible sight member
      exact ⟨client, corpus, Once.now (run.weaken fun _ _ _ => trivial) stored⟩
  obtain ⟨inquiry, found, rfl, orderly⟩ := orderly_of_reaches there (Glimpsed query begun) asks
    (fun _ _ _ _ stepped _ glimpsed => glimpsed.later stepped) sighted after
  exact ⟨inquiry, found, rfl, shows_of_orderly orderly⟩

end Deployment

namespace Sample

/-- A router that always asks for whole documents, and a model that answers. -/
def fullDocEnv : Env :=
  { env with loads := fun _ => .ok (.obj [("route", .str "FULL_DOC"), ("answer", .str "Yes.")]) }

/-- The response of the first query. -/
def firstResponse (deployment : Deployment fullDocEnv) : Option QueryDocumentsResponse :=
  deployment.inquiries[0]?.bind fun inquiry =>
    match inquiry.process.body with
    | .ret response => some response
    | _ => none

/-- Its corpus is indexed, the question comes, and it is answered. -/
theorem asked_and_answered :
    ∃ asked begun last response,
      indexing.foldlM Deployment.step (.initial fullDocEnv none extract) = some asked ∧
      asked.step (.ask pathQuery) = some begun ∧
      (replies 0 5).foldlM Deployment.step begun = some last ∧
      firstResponse last = some response ∧
      asked.inquiries.length = 0 ∧ asked.system.submissions = [pathJob] ∧
      asked.system.world.table.status? "1" = some .succeeded ∧
      response.usedRoute = 2 ∧ response.citations = [⟨"d", "corpus", 0, 0, 4, .finite 0⟩] := by
  have ran : ((indexing.foldlM Deployment.step (.initial fullDocEnv none extract)).bind fun asked =>
      (asked.step (.ask pathQuery)).bind fun begun =>
        ((replies 0 5).foldlM Deployment.step begun).bind fun last =>
          (firstResponse last).map fun response =>
            (asked.inquiries.length, asked.system.submissions,
              asked.system.world.table.status? "1", response.usedRoute, response.citations)) =
      some (0, [pathJob], some .succeeded, 2, [⟨"d", "corpus", 0, 0, 4, .finite 0⟩]) := by
    decide +kernel
  obtain ⟨asked, played, ran⟩ := Option.bind_eq_some_iff.mp ran
  obtain ⟨begun, asks, ran⟩ := Option.bind_eq_some_iff.mp ran
  obtain ⟨last, replied, ran⟩ := Option.bind_eq_some_iff.mp ran
  obtain ⟨response, answered, facts⟩ := Option.map_eq_some_iff.mp ran
  simp only [Prod.mk.injEq] at facts
  exact ⟨asked, begun, last, response, played, asks, replied, answered, facts⟩

theorem body_of_firstResponse {deployment : Deployment fullDocEnv} {inquiry : Inquiry fullDocEnv}
    {response : QueryDocumentsResponse} (found : deployment.inquiries[0]? = some inquiry)
    (answered : firstResponse deployment = some response) : inquiry.process.body = .ret response := by
  rw [firstResponse, found, Option.bind_some] at answered
  split at answered
  · rename_i returned same
    cases answered
    exact same
  · cases answered

end Sample

namespace Deployment

open Sample

/-- The points the deployment holds when the question comes are listed. -/
theorem listing_stable_sample :
    ∃ (begun last : Deployment fullDocEnv) (there : Point → Prop) (points : List Point),
      Listing there (Glimpsed pathQuery begun last) points ∧
        citationsForFullDoc (listedChunks points) = .ok [⟨"d", "corpus", 0, 0, 4, .finite 0⟩] ∧
        there = fun point => begun.stock point.id = some point.record ∧
          point.record.payload.clientId = some "c" ∧
          ∃ corpusId ∈ ["corpus"], point.record.payload.corpusId = some corpusId := by
  obtain ⟨asked, begun, last, response, _, asks, replied, answered, first, _, _, route, cited⟩ :=
    asked_and_answered
  let there (point : Point) : Prop := begun.stock point.id = some point.record ∧
    point.record.payload.clientId = some "c" ∧
    ∃ corpusId ∈ ["corpus"], point.record.payload.corpusId = some corpusId
  have run : Reaches step (fun _ event => event = .reply 0 none) begun last :=
    reaches_of_play (fun _ member _ => List.eq_of_mem_replicate member) replied
  have after : Reaches step (Holding there) begun last := by
    refine (run.along (fun deployment => deployment.stock = begun.stock) ?_ rfl).weaken ?_
    · rintro before _ after rfl stepped same
      obtain ⟨_, _, _, _, _, _, _, _, _, _, rfl⟩ := step_reply stepped
      exact same
    · rintro deployment event ⟨_, same⟩ point held
      rw [same]
      exact held.1
  obtain ⟨inquiry, found, _, _, lists⟩ := listing_stable fullDocEnv asked begun last pathQuery there
    (fun _ held => held.2) asks after
  rw [first] at found
  obtain ⟨points, listing, same⟩ := lists response (body_of_firstResponse found answered) route
  exact ⟨begun, last, there, points, listing, same.trans (congrArg Except.ok cited), rfl⟩

end Deployment

end DocContext
