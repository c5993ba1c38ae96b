import DocContext.System.Deployment
import DocContext.System.Provenance

/-! What answers rest on: what a query says to the model and cites was in the store while
the query ran, and was extracted for a request of its own client. -/

namespace DocContext

open Foundation Coroutine

namespace System

variable {env : Env} {start middle last : System env} {point : Point}

theorem Requested.onward (requested : Requested start middle point)
    (reaches : Reaches step anyStep middle last) : Requested start last point :=
  reaches.invariant (fun system => Requested start system point)
    (fun _ _ _ _ stepped requested => requested.later stepped) requested

end System

/-- The chunk shows a stretch of a text that was extracted for a request of the query's
client and one of its corpora. -/
def Quotes {env : Env} (start last : System env) (query : QueryDocumentsRequest)
    (chunk : RetrievedChunk) : Prop :=
  ∃ submission ∈ last.submissions, submission.envelope.clientId = query.clientId ∧
    submission.envelope.corpusId ∈ query.corpusIds ∧
    chunk.documentId = submission.envelope.documentId ∧
    chunk.corpusId = submission.envelope.corpusId ∧
    ∃ text, System.Extracts start last submission.envelope text ∧
      chunk.text = slice text chunk.charStart chunk.charEnd

namespace Deployment

variable {env : Env} {begun before after last : Deployment env} {query : QueryDocumentsRequest}

/-- The point was there while the query ran, and is for it to see. -/
def Glimpsed (query : QueryDocumentsRequest) (begun last : Deployment env) (point : Point) : Prop :=
  point.record.payload.clientId = some query.clientId ∧
    (∃ corpusId ∈ query.corpusIds, point.record.payload.corpusId = some corpusId) ∧
    Once step begun last fun moment => moment.stock point.id = some point.record

theorem Glimpsed.later {event : Event} {point : Point} (glimpsed : Glimpsed query begun before point)
    (stepped : before.step event = some after) : Glimpsed query begun after point :=
  ⟨glimpsed.1, glimpsed.2.1, glimpsed.2.2.later stepped⟩

/-- A query has read glimpsed points only. -/
theorem glimpsed_of_reaches {asked : Deployment env}
    (ranked : ∀ vector points limit, ∀ hit ∈ env.rank vector points limit, hit.1 ∈ points)
    (asks : asked.step (.ask query) = some begun) (reaches : Reaches step anyStep begun last) :
    ∃ inquiry, last.inquiries[asked.inquiries.length]? = some inquiry ∧ inquiry.query = query ∧
      inquiry.process.state ≠ .stalled ∧
      ∀ point ∈ inquiry.process.state.points, Glimpsed query begun last point := by
  refine inquiry_of_reaches (fun deployment reading _ => reading ≠ .stalled ∧
    ∀ point ∈ reading.points, Glimpsed query begun deployment point) asks ?_ ?_ ?_ reaches
  · exact ⟨by simp, fun point member => (List.not_mem_nil member).elim⟩
  · intro before event after _ _ stepped reading _ held
    exact ⟨held.1, fun point member => (held.2 point member).later stepped⟩
  · intro before reading call resume fault run _ awaits held
    have learns := Reading.learns_answered awaits held.1 fault before.system.world
    refine ⟨learns.live held.1, fun point member => ?_⟩
    rcases learns.read ranked point member with old | ⟨points, sight, seen⟩
    · exact held.2 point old
    · obtain ⟨stored, client, corpus⟩ := Reading.mem_visible sight seen
      exact ⟨client, corpus, Once.now run stored⟩

theorem Glimpsed.source {collection : Option Collection} {extractText : Extraction} {point : Point}
    (reaches : Reaches step anyStep (initial env collection extractText) begun)
    (glimpsed : Glimpsed query begun last point) :
    (initial env collection extractText).stock point.id = some point.record ∨
      System.Requested (initial env collection extractText).core last.core point := by
  obtain ⟨_, _, moment, since, on, held⟩ := glimpsed
  have run : Reaches System.step anyStep (initial env collection extractText).core moment.core :=
    core_reaches (fun _ _ _ => trivial) (reaches.trans since)
  have rest : Reaches System.step anyStep moment.core last.core :=
    core_reaches (fun _ _ _ => trivial) on
  exact ((System.sourced_of_reaches run).points point held).imp_right fun requested =>
    requested.onward rest

theorem quotes_of_requested {start last : System env} {point : Point}
    (requested : System.Requested start last point)
    (client : point.record.payload.clientId = some query.clientId)
    (corpus : ∃ corpusId ∈ query.corpusIds, point.record.payload.corpusId = some corpusId)
    (score : PyFloat) : Quotes start last query (point.retrieved score) := by
  obtain ⟨submission, listed, text, extracts, chunk⟩ := requested
  obtain ⟨emitted, member, vectors, vector, _, _, rfl⟩ := chunk
  obtain ⟨corpusId, asked, named⟩ := corpus
  obtain rfl : submission.envelope.corpusId = corpusId := Option.some.inj named
  obtain ⟨place, here⟩ := List.mem_iff_getElem?.mp member
  obtain ⟨_, _, _, _, _, shows⟩ := env.chunker.chunk_window text here
  exact ⟨submission, listed, Option.some.inj client, asked, rfl, rfl, text, extracts, shows⟩

/-- Whatever servers, workers and other queries do while a query runs: all it says to the
model after its router call, and all it cites, is made of chunks that stood in the
store at some moment since it began, under the query's client and one of its corpora;
and each was there from the start, or shows a stretch of a text that was extracted
for an index request of that client and that corpus. -/
theorem answers_grounded (env : Env)
    (ranked : ∀ vector points limit, ∀ hit ∈ env.rank vector points limit, hit.1 ∈ points)
    (collection : Option Collection) (extractText : Extraction) (asked begun last : Deployment env)
    (query : QueryDocumentsRequest)
    (before : Reaches step anyStep (initial env collection extractText) asked)
    (asks : asked.step (.ask query) = some begun) (after : Reaches step anyStep begun last) :
    ∃ inquiry, last.inquiries[asked.inquiries.length]? = some inquiry ∧ inquiry.query = query ∧
      ∃ chunks,
        (∀ chunk ∈ chunks, ∃ point score, chunk = point.retrieved score ∧
          Glimpsed query begun last point ∧
          ((initial env collection extractText).stock point.id = some point.record ∨
            Quotes (initial env collection extractText).core last.core query chunk)) ∧
        (∀ messages model resume, inquiry.process.body = .await (.complete messages model) resume →
          messages = Prompts.buildRouterMessages query.prompt ∨
            messages = Prompts.buildFullDocAnswerMessages query.prompt query.shownHistory
              (assembleDocuments chunks) ∨
            messages = Prompts.buildSectionAnswerMessages query.prompt query.shownHistory chunks) ∧
        ∀ response, inquiry.process.body = .ret response → Cites chunks response.citations := by
  obtain ⟨inquiry, found, rfl, live, read⟩ := glimpsed_of_reaches ranked asks after
  refine ⟨inquiry, found, rfl, inquiry.process.state.chunks, ?_, ?_, ?_⟩
  · intro chunk member
    obtain ⟨point, listed, score, rfl⟩ := Reading.point_of_chunk member
    have glimpsed := read point listed
    have run := before.tail ⟨_, trivial, asks⟩
    refine ⟨point, score, rfl, glimpsed, (glimpsed.source run).imp_right fun requested => ?_⟩
    exact quotes_of_requested requested glimpsed.1 glimpsed.2.1 score
  · intro messages model resume waits
    have follows := inquiry.process.follows
    rw [waits] at follows
    exact Reading.Awaits.spoken follows.1 live
  · intro response returned
    have follows := inquiry.process.follows
    rw [returned] at follows
    exact Reading.Concluded.cites follows live

end Deployment

namespace Sample

theorem ranked : ∀ vector points limit, ∀ hit ∈ env.rank vector points limit, hit.1 ∈ points := by
  intro vector points limit hit member
  obtain ⟨point, found, rfl⟩ := List.mem_map.mp member
  exact List.mem_of_mem_take found

end Sample

namespace Deployment

open Sample

/-- A question that is answered with a citation of the indexed file. -/
theorem answers_grounded_sample :
    ∃ (begun last : Deployment Sample.env) (inquiry : Inquiry Sample.env),
      last.inquiries[0]? = some inquiry ∧
      (∃ response, inquiry.process.body = .ret response ∧ response.citations.length = 1) ∧
      ∃ chunks,
        (∀ chunk ∈ chunks, ∃ point score, chunk = point.retrieved score ∧
          Glimpsed pathQuery begun last point ∧
          ((initial Sample.env none Sample.extract).stock point.id = some point.record ∨
            Quotes (initial Sample.env none Sample.extract).core last.core pathQuery chunk)) ∧
        (∀ messages model resume, inquiry.process.body = .await (.complete messages model) resume →
          messages = Prompts.buildRouterMessages pathQuery.prompt ∨
            messages = Prompts.buildFullDocAnswerMessages pathQuery.prompt pathQuery.shownHistory
              (assembleDocuments chunks) ∨
            messages = Prompts.buildSectionAnswerMessages pathQuery.prompt pathQuery.shownHistory
              chunks) ∧
        ∀ response, inquiry.process.body = .ret response → Cites chunks response.citations := by
  obtain ⟨asked, begun, last, response, played, asks, replied, first, returned, cited⟩ :
      ∃ asked begun last response,
        indexing.foldlM step (initial Sample.env none Sample.extract) = some asked ∧
        asked.step (.ask pathQuery) = some begun ∧
        (replies 0 6).foldlM step begun = some last ∧ asked.inquiries.length = 0 ∧
        (last.inquiries[0]?.map fun inquiry => inquiry.process.body) = some (.ret response) ∧
        response.citations.length = 1 := ⟨_, _, _, _, rfl, rfl, rfl, rfl, rfl, rfl⟩
  have before : Reaches step anyStep (initial Sample.env none Sample.extract) asked :=
    reaches_of_play (fun _ _ _ => trivial) played
  have after : Reaches step anyStep begun last := reaches_of_play (fun _ _ _ => trivial) replied
  obtain ⟨inquiry, found, own, grounded⟩ := answers_grounded Sample.env ranked none Sample.extract
    asked begun last pathQuery before asks after
  rw [first] at found
  rw [found] at returned
  exact ⟨begun, last, inquiry, found, ⟨response, Option.some.inj returned, cited⟩, grounded⟩

end Deployment

end DocContext
