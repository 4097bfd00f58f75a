import StreamTap.Failure
import StreamTap.Flow.Workspace
import StreamTap.Settings.Environment
import StreamTap.Stream.Session
import StreamTap.Tap
import StreamTap.Tracker.Session
import StreamTap.Proofs.Stream.Parked
import StreamTap.Proofs.Wire.Seq
import StreamTap.Proofs.Stream.Drain
import StreamTap.Proofs.Stream.History
import StreamTap.Proofs.Stream.Scheduler
import StreamTap.Proofs.Stream.Accounts
import StreamTap.Proofs.Stream.Backpressure
import StreamTap.Proofs.Stream.Assembly
import StreamTap.Proofs.Stream.OrderIndependence
import StreamTap.Proofs.Stream.TruePrefix
import StreamTap.Proofs.Stream.Feeding
import StreamTap.Proofs.Stream.Rebase
import StreamTap.Proofs.Tracker.Course
import StreamTap.Proofs.Tracker.Registers
import StreamTap.Proofs.Tracker.Alone
import StreamTap.Proofs.Tracker.Requests
import StreamTap.Proofs.Tracker.Routing
import StreamTap.Proofs.Tracker.Reconstruction
import StreamTap.Proofs.Wire.Connection
import StreamTap.Proofs.Tracker.Preface
import StreamTap.Proofs.Stream.Conservation
import StreamTap.Proofs.Stream.Chain
import StreamTap.Proofs.Stream.Occupancy
import StreamTap.Proofs.Stream.Overcrowding
import StreamTap.Proofs.Wire.Encoding
import StreamTap.Proofs.Wire.Decoding
import StreamTap.Proofs.Tracker.Ageing
import StreamTap.Proofs.Tracker.Handshake
import StreamTap.Proofs.Tracker.Lifetime
import StreamTap.Proofs.Tracker.Closing
import StreamTap.Proofs.Tracker.SecondPreface
import StreamTap.Proofs.Stream.Waiting
import StreamTap.Proofs.Stream.AfterClose
import StreamTap.Proofs.Stream.Fates
import StreamTap.Proofs.Tracker.Provenance
import StreamTap.Proofs.Flow.FiniteSets
import StreamTap.Proofs.Json.Objects
import StreamTap.Proofs.Files.Tree
import StreamTap.Proofs.Settings.SaveLoad
import StreamTap.Proofs.Tap.Intake
import StreamTap.Proofs.Tracker.Announcing
import StreamTap.Proofs.Tap.Stopping
import StreamTap.Proofs.Stream.Redelivery
import StreamTap.Proofs.Stream.StartingAfresh
import StreamTap.Proofs.Stream.Demands
import StreamTap.Proofs.Json.Grammar
import StreamTap.Proofs.Json.Skipping
import StreamTap.Proofs.Json.Members
import StreamTap.Proofs.Settings.PartialDocuments
import StreamTap.Proofs.Wire.Dissection
import StreamTap.Proofs.Tracker.Phases
import StreamTap.Proofs.Tracker.Counting
import StreamTap.Proofs.Json.Literals
import StreamTap.Proofs.Json.Records
import StreamTap.Proofs.Settings.Numbers
import StreamTap.Proofs.Settings.Overrides
