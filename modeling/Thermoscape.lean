import Thermoscape.Number.Binary32
import Thermoscape.Number.Binary64
import Thermoscape.Number.Decimal
import Thermoscape.Octets.LittleEndian
import Thermoscape.Octets.Utf8
import Thermoscape.Octets.Builder
import Thermoscape.Octets.DecodeError
import Thermoscape.Octets.Cursor
import Thermoscape.Octets.Value
import Thermoscape.Octets.Header
import Thermoscape.Field.Scalar
import Thermoscape.Field.Extent
import Thermoscape.Field.Grid
import Thermoscape.Field.Diffusion
import Thermoscape.Field.Settings
import Thermoscape.Field.Gradient
import Thermoscape.Storage.Disk
import Thermoscape.Snapshot.Error
import Thermoscape.Snapshot.Basic
import Thermoscape.Snapshot.Layout
import Thermoscape.World.Event
import Thermoscape.World.Host
import Thermoscape.World.Simulation
import Thermoscape.World.Profile
import Thermoscape.Proofs.Number.Value
import Thermoscape.Proofs.Octets.Utf8
import Thermoscape.Proofs.Octets.Reading
import Thermoscape.Proofs.Octets.Positions
import Thermoscape.Proofs.Octets.Sequence
import Thermoscape.Proofs.Octets.Replacement
import Thermoscape.Proofs.Field.Validation
import Thermoscape.Proofs.Field.Writing
import Thermoscape.Proofs.Field.Stencil
import Thermoscape.Proofs.Field.Places
import Thermoscape.Proofs.Field.Views
import Thermoscape.Proofs.Field.Simultaneous
import Thermoscape.Proofs.Field.Settled
import Thermoscape.Proofs.Field.Guarded
import Thermoscape.Proofs.Field.Neighbours
import Thermoscape.Proofs.Field.Adjacency
import Thermoscape.Proofs.Field.Exact
import Thermoscape.Proofs.Field.Convergence
import Thermoscape.Proofs.Field.Conservation
import Thermoscape.Proofs.Field.MaximumPrinciple
import Thermoscape.Proofs.Field.Propagation
import Thermoscape.Proofs.Field.Isotropy
import Thermoscape.Proofs.Snapshot.Wire
import Thermoscape.Proofs.Snapshot.RoundTrip
import Thermoscape.Proofs.Snapshot.Grammar
import Thermoscape.Proofs.Snapshot.Truncation
import Thermoscape.Proofs.Snapshot.Bounds
import Thermoscape.Proofs.Snapshot.Fields
import Thermoscape.Proofs.Snapshot.Outcome
import Thermoscape.Proofs.Snapshot.Room
import Thermoscape.Proofs.Snapshot.Resave
import Thermoscape.Proofs.Snapshot.Overflow
import Thermoscape.Proofs.Snapshot.Transfer
import Thermoscape.Proofs.Snapshot.Exchange
import Thermoscape.Proofs.Snapshot.Safety
import Thermoscape.Proofs.Snapshot.Rebuilding
import Thermoscape.Proofs.World.Run
import Thermoscape.Proofs.World.Restore
import Thermoscape.Proofs.World.Resume
import Thermoscape.Proofs.World.Coherence
import Thermoscape.Proofs.World.Versions
