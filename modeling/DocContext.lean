import DocContext.Foundation.Coroutine
import DocContext.Foundation.Protocol
import DocContext.Foundation.Draining
import DocContext.Foundation.Outcome
import DocContext.Foundation.Machine
import DocContext.Foundation.Moments
import DocContext.Foundation.Interleaving
import DocContext.Foundation.Semaphore
import DocContext.Foundation.Store
import DocContext.Foundation.Tiling
import DocContext.Foundation.Segments
import DocContext.Foundation.Paging
import DocContext.Foundation.Packing
import DocContext.Foundation.OrderedDict
import DocContext.Foundation.Naming
import DocContext.Foundation.JsonString
import DocContext.Foundation.Numeral
import DocContext.Foundation.Brackets
import DocContext.Python
import DocContext.Models
import DocContext.Chunking.Recursive
import DocContext.Chunking.Windows
import DocContext.Chunking.Termination
import DocContext.Chunking.Ranges
import DocContext.Chunking.Specification
import DocContext.Chunking.Boundaries
import DocContext.Chunking.Assembly
import DocContext.Llm.Prompts
import DocContext.Llm.OpenRouter
import DocContext.Repositories.Job
import DocContext.Repositories.Operations
import DocContext.VectorStores.Collection
import DocContext.VectorStores.Qdrant
import DocContext.VectorStores.Listing
import DocContext.VectorStores.Contents
import DocContext.VectorStores.Ensuring
import DocContext.Calls
import DocContext.Workers.Envelope
import DocContext.Workers.Codec
import DocContext.Workers.DocumentWorker
import DocContext.Queue.Json
import DocContext.Queue.RabbitMQ
import DocContext.Workers.Lifecycle
import DocContext.Workers.Effect
import DocContext.Workers.Progress
import DocContext.Workers.Runs
import DocContext.Workers.Grounds
import DocContext.Workers.Isolation
import DocContext.Workers.Reindexing
import DocContext.Workers.Redelivery
import DocContext.Workers.Failures
import DocContext.Services.Converters
import DocContext.Services.Documents
import DocContext.Services.Submission
import DocContext.Services.Status
import DocContext.Services.QueryService
import DocContext.Services.HistoryWindow
import DocContext.Services.QueryIsolation
import DocContext.Services.FullDocument
import DocContext.Services.Citations
import DocContext.Services.Replies
import DocContext.Services.Reading
import DocContext.Services.QueryConcurrency
import DocContext.Services.QueryProgress
import DocContext.System.Model
import DocContext.System.Sound
import DocContext.System.Custody
import DocContext.System.Settlement
import DocContext.System.ChunkIds
import DocContext.System.Finality
import DocContext.System.Acceptance
import DocContext.System.Deletion
import DocContext.System.Agreement
import DocContext.System.Bootstrap
import DocContext.System.Draining
import DocContext.System.Provenance
import DocContext.System.Success
import DocContext.System.Permanence
import DocContext.System.Deployment
import DocContext.System.Answers
import DocContext.System.Snapshots
import DocContext.System.Listings
import DocContext.System.Wire
import DocContext.Extractors.Extract
import DocContext.Extractors.Pages
