import Igris.Lib.Table
import Igris.Lib.Program
import Igris.Lib.Hoare
import Igris.Lib.Interleaving
import Igris.Lib.Stages
import Igris.Lib.Outline
import Igris.Lib.Transactions
import Igris.Lib.Text
import Igris.Lib.Encoding
import Igris.Lib.Merge
import Igris.Lib.Assoc
import Igris.Lib.Json
import Igris.Lib.Pattern
import Igris.Lib.Record
import Igris.Lib.Signature
import Igris.Lib.Reading
import Igris.Lib.Rounding
import Igris.Task.Definition
import Igris.Task.Record
import Igris.Task.Checkpoint
import Igris.Task.Cumulative
import Igris.Wal.Log
import Igris.Wal.Resume
import Igris.Wal.Transfer
import Igris.Wal.HexDigest
import Igris.Store.Operations
import Igris.Store.Effects
import Igris.Store.Lifecycle
import Igris.Store.History
import Igris.Coordinator.Policy
import Igris.System.Action
import Igris.Coordinator.Submit
import Igris.Coordinator.Dispatch
import Igris.Coordinator.Callback
import Igris.Executor.Steps
import Igris.Executor.Execute
import Igris.System.Pool
import Igris.System.Schedule
import Igris.System.Approval
import Igris.System.Idempotency
import Igris.System.Fencing
import Igris.System.Handover
import Igris.Coordinator.Recovery
import Igris.Coordinator.Submission
import Igris.Executor.Cancellation
import Igris.Executor.Emission
import Igris.Executor.Local
import Igris.Executor.Backed
import Igris.Executor.Agreement
import Igris.Executor.Submissions
import Igris.Coordinator.Redispatch
import Igris.Executor.Redaction
import Igris.Executor.Blackboard
import Igris.Executor.Template
import Igris.Coordinator.Envelope
import Igris.Coordinator.Canonical
import Igris.Executor.Receipt
import Igris.Api.CallbackSignature
import Igris.Lib.Parser
import Igris.Lib.RoundTrip
import Igris.Lib.Bytes
import Igris.Lib.HashChain
import Igris.Sdk.Canonical
import Igris.Sdk.Journal
import Igris.Sdk.JournalCrash
import Igris.Sdk.Tamper
import Igris.Api.EvidenceVerify
import Igris.Sdk.Guard
import Igris.Sdk.HonestEvidence
import Igris.Lib.Validation
import Igris.Api.ActionPatch
import Igris.Executor.BehaviorTree
import Igris.Executor.Mediation
import Igris.Sdk.GuardedCall
import Igris.Sdk.NonInterference
import Igris.Sdk.Values
import Igris.Api.BoundRun
import Igris.Coordinator.InputRefs
import Igris.Lib.Numbers
import Igris.Coordinator.InputRedaction
import Igris.Coordinator.InputProtection
import Igris.Executor.ToolRegistry
import Igris.Api.Reconciliation
import Igris.Api.EvidenceLinks
import Igris.Wal.Wire
import Igris.Wal.Import
import Igris.Executor.TreeLog
