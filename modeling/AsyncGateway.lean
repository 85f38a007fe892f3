import AsyncGateway.Workers.Inspector
import AsyncGateway.System.Endings
import AsyncGateway.System.Windows
import AsyncGateway.System.Whitelist
import AsyncGateway.System.Replays
import AsyncGateway.System.Tenants
import AsyncGateway.System.UpstreamId
import AsyncGateway.System.Output
import AsyncGateway.System.Retry
import AsyncGateway.System.Cancellation
import AsyncGateway.System.Slots
import AsyncGateway.System.Dispatching
import AsyncGateway.System.Deadlines
import AsyncGateway.System.Frames
import AsyncGateway.System.Deliveries
import AsyncGateway.Db.Tampering
import AsyncGateway.System.AuditChain
import AsyncGateway.System.Capacity
import AsyncGateway.System.Poison
import AsyncGateway.System.Templates
import AsyncGateway.System.FourEyes
import AsyncGateway.System.Arbitration
import AsyncGateway.System.Transfers
import AsyncGateway.System.Exports
import AsyncGateway.System.Widths
import AsyncGateway.System.Lifetimes
import AsyncGateway.System.Fidelity
import AsyncGateway.System.Guarantees
import AsyncGateway.Templates.Pinning
import AsyncGateway.Security.Ssrf
import AsyncGateway.Gateway.RoundTrip
import AsyncGateway.Gateway.Addressing
import AsyncGateway.Gateway.Canary
import AsyncGateway.Infra.AcceptMemory
import AsyncGateway.Infra.AcceptRate
import AsyncGateway.Infra.Pauses
import AsyncGateway.System.Inconclusive
import AsyncGateway.System.Misses
import AsyncGateway.System.Throttled
import AsyncGateway.System.Refusals
import AsyncGateway.Workers.Unknowns
import AsyncGateway.Gateway.Frame
import AsyncGateway.Bus.Recovery
import AsyncGateway.Templates.Review
import AsyncGateway.Templates.Grammar
import AsyncGateway.Templates.Explicit
import AsyncGateway.Templates.Patched
import AsyncGateway.Security.Leaks
import AsyncGateway.Gateway.Canonical
import AsyncGateway.Templates.Printing
import AsyncGateway.Admin.RetryKeys
import AsyncGateway.System.Delivery
import AsyncGateway.Bus.Memory
import AsyncGateway.Admin.ReplayRate
import AsyncGateway.Upstream.Transport
import AsyncGateway.System.Waiting
import AsyncGateway.Bus.Codec
import AsyncGateway.System.Integrity
import AsyncGateway.Infra.Ephemeral
import AsyncGateway.System.Routing
import AsyncGateway.Infra.Lagging
import AsyncGateway.System.Objects
import AsyncGateway.Workers.Orphans
