import LetDX.Bytes.LittleEndian
import LetDX.LetDB.Guard
import LetDX.LetDB.Storage.Crc
import LetDX.Ledger.Basic
import LetDX.LetDB.Storage.Entry
import LetDX.LetDB.Postings
import LetDX.LetDB.Storage.Wal
import LetDX.LetDB.Storage.Log
import LetDX.LetDB.Storage.Replay
import LetDX.Bytes.Crc
import LetDX.LetDB.Storage.Bounds
import LetDX.LetDB.Storage.Sequence
import LetDX.LetDB.Storage.Checksum
import LetDX.LetDB.Network.Request
import LetDX.LetDB.Network.Response
import LetDX.LetDB.Network.Server
import LetDX.Bytes.Strtoul
import LetDX.Memory.Block
import LetDX.LetDB.Heap.AccountList
import LetDX.LetDB.Let
import LetDX.LetDB.Cli
import LetDX.LetDB.Cli.Integers
import LetDX.LetDB.Server.Policy
import LetDX.LetDB.Server.Request
import LetDX.LetDB.Server.Step
import LetDX.Durable.Recovery
import LetDX.LetDB.Server.Lifetimes
import LetDX.LetDB.Server.Agreement
import LetDX.LetDB.Server.Durability
import LetDX.LetDB.Server.History
import LetDX.LetDB.Server.Balances
import LetDX.LetDB.Server.Transfers
import LetDX.LetDB.Server.Solvency
import LetDX.Bytes.Decimal
import LetDX.LetDD.Uint128
import LetDX.LetDB.Network.Capacity
import LetDX.LetDB.Network.Decoding
import LetDX.LetDD.Tcp.Request
import LetDX.Wire.Requests
import LetDX.LetDD.Host
import LetDX.LetDD.Supervisor
import LetDX.LetDD.Tcp.Response
import LetDX.LetDD.Tcp.Client
import LetDX.LetDB.Network.Encoding
import LetDX.Effects.Relation
import LetDX.Wire.Responses
import LetDX.Wire.Network
import LetDX.Wire.Serving
import LetDX.Wire.Soundness
import LetDX.Wire.Conversation
import LetDX.Wire.Operations
import LetDX.Wire.Calls
import LetDX.Wire.Runs
import LetDX.Wire.Script
import LetDX.LetDD.Config.Duration
import LetDX.LetDD.Config.Parser
import LetDX.LetDD.Config.Results
import LetDX.LetDD.Config.RateLimiter
import LetDX.LetDD.Config.Supervisor
import LetDX.Wire.Guarantees
import LetDX.LetDD.Config.Config
import LetDX.LetDD.Http.Request
import LetDX.LetDD.Http.Server
import LetDX.LetDD.Main
import LetDX.Bytes.Numerals
import LetDX.LetDD.Numerals
import LetDX.LetDD.Json
import LetDX.LetDD.Backoff
import LetDX.LetDB.Network.Fields
import LetDX.LetDB.Network.Language
import LetDX.Effects.Footprint
import LetDX.LetDB.Server.Footprints
import LetDX.LetDB.Server.Replies
import LetDX.LetDB.Server.Shutdown
import LetDX.LetDB.Clock
import LetDX.LetDB.Storage.Records
import LetDX.LetDB.Storage.Repair
import LetDX.LetDB.Storage.Acceptance
import LetDX.LetDB.Server.Reproduction
import LetDX.Effects.Outcomes
import LetDX.LetDD.Tcp.Ownership
import LetDX.Bytes.Lines
import LetDX.Wire.Traffic
import LetDX.Wire.Pairing
import LetDX.Wire.Callers
import LetDX.LetDB.Server.Restarts
import LetDX.LetDB.Server.Progress
import LetDX.LetDB.Server.Nonces
import LetDX.LetDB.Heap.Representation
import LetDX.LetDB.Heap.Runs
import LetDX.Effects.Safety
import LetDX.Effects.Monitor
import LetDX.Wire.Logs
import LetDX.Wire.Tracing
import LetDX.Wire.Execution
import LetDX.Wire.Outcomes
import LetDX.Wire.Linearizability
import LetDX.Wire.Integrity
import LetDX.LetDD.Http.Response
import LetDX.LetDD.Http.Permissions
import LetDX.Wire.Proxy
import LetDX.Wire.Answers
import LetDX.LetDB.Server.Recovery
import LetDX.Wire.Durability
import LetDX.Effects.Noting
import LetDX.LetDB.Server.FailStop
import LetDX.LetDB.Main
import LetDX.LetDB.Server.Connections
import LetDX.LetDD.Tcp.Retries
import LetDX.LetDB.Server.Health
import LetDX.Wire.Exchanges
import LetDX.Effects.Inevitable
import LetDX.Wire.Health
import LetDX.Wire.Fairness
import LetDX.Wire.Availability
import LetDX.Wire.Reliability
import LetDX.Wire.Backlog
import LetDX.Wire.Healing
