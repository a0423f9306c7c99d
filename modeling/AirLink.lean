import AirLink.Air.Bench
import AirLink.Air.Simulation
import AirLink.Host
import AirLink.Proofs.Air.Conservation
import AirLink.Proofs.Air.Pacing
import AirLink.Proofs.Clock.Capture
import AirLink.Proofs.Clock.Checks
import AirLink.Proofs.Clock.Retuning
import AirLink.Proofs.Link.Accounting
import AirLink.Proofs.Link.Authentication
import AirLink.Proofs.Link.Budget
import AirLink.Proofs.Link.Collision
import AirLink.Proofs.Link.Deadlines
import AirLink.Proofs.Link.Delivery
import AirLink.Proofs.Link.Diagram
import AirLink.Proofs.Link.HalfDuplex
import AirLink.Proofs.Link.Hopping
import AirLink.Proofs.Link.Keys
import AirLink.Proofs.Link.Outsider
import AirLink.Proofs.Link.Pending
import AirLink.Proofs.Link.Rejection
import AirLink.Proofs.Link.Realignment
import AirLink.Proofs.Link.Release
import AirLink.Proofs.Link.Replay
import AirLink.Proofs.Link.Resync
import AirLink.Proofs.Link.Steering
import AirLink.Proofs.Link.Switchover
import AirLink.Proofs.Message.WireFormat
import AirLink.Proofs.Packet.Transport
import AirLink.Proofs.Session.Agreement
import AirLink.Proofs.Session.Binding
import AirLink.Proofs.Session.Cache
import AirLink.Proofs.Session.Canonical
import AirLink.Proofs.Session.Nonce
import AirLink.Proofs.Session.Ready
import AirLink.Proofs.Sync.Convergence
import AirLink.Proofs.Sync.Damping
import AirLink.Proofs.Sync.Quality
import AirLink.Proofs.Sync.Requests
import AirLink.Proofs.Sync.Samples
import AirLink.Proofs.Sync.Verdicts
import AirLink.Proofs.Sync.Window
