import PubkyLocks.Access.EntitlementCheck
import PubkyLocks.Access.ProxyRead
import PubkyLocks.Access.Publications
import PubkyLocks.Api.ContentPath
import PubkyLocks.Api.Errors
import PubkyLocks.Api.Lifecycle
import PubkyLocks.Core.Criteria
import PubkyLocks.Core.Identifiers
import PubkyLocks.Core.Ids
import PubkyLocks.Core.LockPolicy
import PubkyLocks.Core.Resources
import PubkyLocks.Core.Verification
import PubkyLocks.Core.Wire
import PubkyLocks.Deletions.ActionOwnership
import PubkyLocks.Deletions.FrozenContent
import PubkyLocks.Deletions.FrozenResources
import PubkyLocks.Deletions.Request
import PubkyLocks.Drains.AccessDrain
import PubkyLocks.Drains.AccessEffects
import PubkyLocks.Drains.AccessInvariants
import PubkyLocks.Drains.AccessObligations
import PubkyLocks.Drains.AvailableCredentials
import PubkyLocks.Drains.FinalCredentials
import PubkyLocks.Drains.ForceReceipts
import PubkyLocks.Drains.PaymentDrain
import PubkyLocks.FoldedAuth.Attempts
import PubkyLocks.FoldedAuth.Polling
import PubkyLocks.FoldedAuth.Repository
import PubkyLocks.Lanes.Deletion
import PubkyLocks.Lanes.Evaluator
import PubkyLocks.Lanes.Frames
import PubkyLocks.Lanes.Graph
import PubkyLocks.Lanes.Payment
import PubkyLocks.Lanes.Statements
import PubkyLocks.Lanes.V1
import PubkyLocks.Lib.Calls
import PubkyLocks.Lib.Checks
import PubkyLocks.Lib.Decode
import PubkyLocks.Lib.Json
import PubkyLocks.Lib.OrderedMap
import PubkyLocks.Lib.Percent
import PubkyLocks.Lib.RowLocks
import PubkyLocks.Lib.Runs
import PubkyLocks.Lib.Table
import PubkyLocks.Lib.Text
import PubkyLocks.Lib.Transactions
import PubkyLocks.Lib.WriteOnce
import PubkyLocks.Publishing.AloneCalls
import PubkyLocks.Publishing.CarriedLocks
import PubkyLocks.Publishing.CreateContentLock
import PubkyLocks.Publishing.Exclusion
import PubkyLocks.Publishing.Idempotence
import PubkyLocks.Publishing.Landed
import PubkyLocks.Publishing.Repository
import PubkyLocks.Publishing.RequestedLocks
import PubkyLocks.Publishing.Reservations
import PubkyLocks.Publishing.Resumption
import PubkyLocks.Publishing.Retries
import PubkyLocks.Publishing.Transactions
import PubkyLocks.RateLimits.ClientAddress
import PubkyLocks.RateLimits.Limiters
import PubkyLocks.RateLimits.TokenBucket
import PubkyLocks.Sessions.ConnectFlows
import PubkyLocks.Sessions.SingleUse
import PubkyLocks.Store.Admissions
import PubkyLocks.Store.Cutoff
import PubkyLocks.Store.Database
import PubkyLocks.Store.Deletions
import PubkyLocks.Store.ForceFence
import PubkyLocks.Store.Handles
import PubkyLocks.Store.Integrity
import PubkyLocks.Store.Interleavings
import PubkyLocks.Store.Invoices
import PubkyLocks.Store.Jobs
import PubkyLocks.Store.Leases
import PubkyLocks.Store.Lifecycles
import PubkyLocks.Store.Readable
import PubkyLocks.Store.Replays
import PubkyLocks.Store.Row
import PubkyLocks.Store.RowSteps
import PubkyLocks.Store.Settled
import PubkyLocks.Store.System
import PubkyLocks.Submissions.Idempotence
import PubkyLocks.Submissions.SubmitProofBundle
import PubkyLocks.Tasks.Admissibility
import PubkyLocks.Tasks.GraphDecisions
import PubkyLocks.Tasks.GraphEvidence
import PubkyLocks.Tasks.GraphRecordings
import PubkyLocks.Tasks.GraphReducer
import PubkyLocks.Tasks.GraphSnapshot
import PubkyLocks.Tasks.GraphTicks
import PubkyLocks.Tasks.PaymentDecisions
import PubkyLocks.Tasks.PaymentEvidence
import PubkyLocks.Tasks.PaymentSnapshot
import PubkyLocks.Tasks.Record
import PubkyLocks.Tasks.WorkerSnapshots
import PubkyLocks.Workers.Graphs
import PubkyLocks.Workers.Payments
import PubkyLocks.Workers.Publications
import PubkyLocks.Drains.FinalCipher
