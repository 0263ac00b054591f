import Sluice.Theory.Dict
import Sluice.Theory.Table
import Sluice.Theory.Queue
import Sluice.Theory.Program
import Sluice.Theory.Interleaving
import Sluice.Theory.Dialogue
import Sluice.Theory.Shifts
import Sluice.Theory.JsonText
import Sluice.Theory.Rounding
import Sluice.Theory.Radix
import Sluice.Theory.Calendar
import Sluice.Theory.Lists
import Sluice.Kernel.Instant
import Sluice.Kernel.Config
import Sluice.Kernel.Timestamp
import Sluice.Kernel.States
import Sluice.Kernel.Digest
import Sluice.Kernel.Transaction
import Sluice.Kernel.Model
import Sluice.Kernel.MemoryStore
import Sluice.Kernel.Text
import Sluice.Kernel.MockTronNode
import Sluice.Kernel.Address
import Sluice.Kernel.Base58
import Sluice.Kernel.Intake
import Sluice.Kernel.Money
import Sluice.Kernel.Taxonomy
import Sluice.Kernel.Pipeline
import Sluice.Kernel.Stored
import Sluice.Kernel.System
import Sluice.Kernel.Api
import Sluice.Kernel.Fleet
import Sluice.Protocol.Walk
import Sluice.Protocol.Conduct
import Sluice.Protocol.Chain
import Sluice.Protocol.Fencing
import Sluice.Protocol.Terminal
import Sluice.Kernel.PostgresStore
import Sluice.Kernel.Schema
import Sluice.Protocol.StoreAgreement
import Sluice.Protocol.ClaimAgreement
import Sluice.Protocol.SchemaGuard
import Sluice.Protocol.PostgresFencing
import Sluice.Protocol.Portability
import Sluice.Kernel.PostgresSystem
import Sluice.Protocol.Discipline
import Sluice.Protocol.Strides
import Sluice.Protocol.Invariant
import Sluice.Protocol.Handlers
import Sluice.Protocol.Worker
import Sluice.Protocol.WriteAhead
import Sluice.Protocol.Retirement
import Sluice.Protocol.DoubleSpend
import Sluice.Protocol.Refusal
import Sluice.Protocol.Submission
import Sluice.Protocol.Accounting
import Sluice.Protocol.Evidence
import Sluice.Protocol.Passes
import Sluice.Protocol.PostgresRuns
import Sluice.Protocol.Conservation
import Sluice.Protocol.WellFormed
import Sluice.Protocol.Settlement
import Sluice.Protocol.Lifetime
import Sluice.Protocol.BroadcastAt
import Sluice.Protocol.FencedSend
import Sluice.Protocol.FreshTxid
import Sluice.Protocol.Dates
import Sluice.Protocol.Alone
import Sluice.Protocol.Idle
import Sluice.Protocol.Recovery
import Sluice.Protocol.Fleet
import Sluice.Protocol.ClientView
import Sluice.Protocol.ReadBack
import Sluice.Protocol.Balance
import Sluice.Protocol.WireLog
import Sluice.Protocol.AuditLog
