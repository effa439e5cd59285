import LlmApp.Application.Coherence
import LlmApp.Application.Protocol
import LlmApp.Application.Runtime
import LlmApp.Application.Shutdown
import LlmApp.Application.ShuttingDown
import LlmApp.Application.State
import LlmApp.Architecture.Layering
import LlmApp.Architecture.Policy
import LlmApp.Backend
import LlmApp.ContextPlanner.Plan
import LlmApp.ContextPlanner.Selection
import LlmApp.Contracts
import LlmApp.Data.Accumulator
import LlmApp.Data.Acyclic
import LlmApp.Data.Buffer
import LlmApp.Data.Bytes
import LlmApp.Data.Cumulative
import LlmApp.Data.Decimal
import LlmApp.Data.Except
import LlmApp.Data.Fallible
import LlmApp.Data.FillOnce
import LlmApp.Data.Index
import LlmApp.Data.Leases
import LlmApp.Data.Marking
import LlmApp.Data.Normal
import LlmApp.Data.OrdMap
import LlmApp.Data.Outbox
import LlmApp.Data.Packing
import LlmApp.Data.Reader
import LlmApp.Data.RoundRobin
import LlmApp.Data.Sorting
import LlmApp.Data.Text
import LlmApp.Data.Tracked
import LlmApp.Data.Utf8
import LlmApp.Data.Utf8Stream
import LlmApp.Data.Words
import LlmApp.Generation.Accounts
import LlmApp.Generation.Fairness
import LlmApp.Generation.Feeding
import LlmApp.Generation.Outcome
import LlmApp.Generation.Progress
import LlmApp.Generation.Publication
import LlmApp.Generation.Scheduler
import LlmApp.Generation.Stream
import LlmApp.Generation.Task
import LlmApp.Generation.Turns
import LlmApp.Gguf.Bounds
import LlmApp.Gguf.Cells
import LlmApp.Gguf.Header
import LlmApp.Gguf.Inspection
import LlmApp.Gguf.Metadata
import LlmApp.Gguf.Model
import LlmApp.Gguf.Reading
import LlmApp.Gguf.Slots
import LlmApp.HostRuntime.Delivery
import LlmApp.HostRuntime.TextOutput
import LlmApp.Hub.Shards
import LlmApp.Lifecycle
import LlmApp.Lifecycle.History
import LlmApp.Output
import LlmApp.Runtime.Accounting
import LlmApp.Runtime.Admission
import LlmApp.Runtime.Atomicity
import LlmApp.Runtime.Cleanup
import LlmApp.Runtime.Custody
import LlmApp.Runtime.Effects
import LlmApp.Runtime.Exhaustion
import LlmApp.Runtime.Frame
import LlmApp.Runtime.Handles
import LlmApp.Runtime.Invariant
import LlmApp.Runtime.Operations
import LlmApp.Runtime.Outcomes
import LlmApp.Runtime.Polling
import LlmApp.Runtime.Quarantine
import LlmApp.Runtime.Shutdown
import LlmApp.Runtime.State
import LlmApp.Runtime.StepLog
import LlmApp.Runtime.Steps
import LlmApp.Runtime.Transition
import LlmApp.Runtime.Unloading
import LlmApp.Sampling.Candidates
import LlmApp.Sampling.Floats
import LlmApp.Sampling.Repetition
import LlmApp.Sampling.Sampler
import LlmApp.Sampling.Weights
import LlmApp.Storage.Canonical
import LlmApp.Storage.Codec
import LlmApp.Storage.Redb
import LlmApp.Storage.Store
import LlmApp.TaskGraph.Artifacts
import LlmApp.TaskGraph.Blocking
import LlmApp.TaskGraph.Graph
import LlmApp.TaskGraph.Ready
import LlmApp.TaskGraph.Runs
import LlmApp.TaskGraph.Table
import LlmApp.TaskGraph.Validation
import LlmApp.Tokenization.Decoding
import LlmApp.Tokenization.Utf8
import LlmApp.Worker.Accounts
import LlmApp.Worker.Coverage
import LlmApp.Worker.Dispatch
import LlmApp.Worker.Engine
import LlmApp.Worker.Exit
import LlmApp.Worker.Grammar
import LlmApp.Worker.Isolation
import LlmApp.Worker.Loop
import LlmApp.Worker.Moves
import LlmApp.Worker.Outcome
import LlmApp.Worker.Preflight
import LlmApp.Worker.Replies
import LlmApp.Worker.Stream
import LlmApp.Workflow.Artifact
import LlmApp.Workflow.Diagnostics
import LlmApp.Workflow.Execution
import LlmApp.Workflow.Executor
import LlmApp.Workflow.Guarantees
import LlmApp.Workflow.Normalization
import LlmApp.Workflow.Pipeline
import LlmApp.Workflow.Plan
import LlmApp.Workflow.Stages
import LlmApp.Workflow.Trace
