import AgentSeat.Active.Evidence
import AgentSeat.Broker.Consumed
import AgentSeat.Broker.Purge
import AgentSeat.Broker.Uevent
import AgentSeat.Broker.Canonical
import AgentSeat.Broker.Chain
import AgentSeat.Broker.Capabilities
import AgentSeat.Companion.Contexts
import AgentSeat.Companion.Deadline
import AgentSeat.Companion.Isolation
import AgentSeat.Companion.Lines
import AgentSeat.Companion.Pairing
import AgentSeat.Companion.Published
import AgentSeat.Observer.Replica
import AgentSeat.Observer.Reuse
import AgentSeat.Policy.Outcome
import AgentSeat.Policy.Agreement
import AgentSeat.Proto.Strict
import AgentSeat.Provider.Advertised
import AgentSeat.Provider.Delivery
import AgentSeat.Provider.HitTest
import AgentSeat.Provider.Sends
import AgentSeat.Provider.Typed
import AgentSeat.Session.Pinned
import AgentSeat.Session.Revocation
import AgentSeat.Session.Structure
import AgentSeat.X11.Resolution
import AgentSeat.Proto.Image
import AgentSeat.Capture.Pixels
import AgentSeat.Lib.Chars
import AgentSeat.Launch.Exec
import AgentSeat.X11.Typeable
import AgentSeat.X11.Exclusive
import AgentSeat.Provider.Refused
import AgentSeat.Observer.Ledger
import AgentSeat.Launch.Paging
import AgentSeat.Settings.Diff
import AgentSeat.Runtime.Listener
import AgentSeat.Seat.Control
import AgentSeat.Launch.Delegate
import AgentSeat.Broker.Arguments
