import VideoRelay.Fragment.Transport
import VideoRelay.Main
import VideoRelay.Relay.Script
import VideoRelay.Simulation.Script
import VideoRelay.Proofs.Hub.History
import VideoRelay.Proofs.Hub.Transition
import VideoRelay.Proofs.Hub.Runs
import VideoRelay.Proofs.Hub.Registry
import VideoRelay.Proofs.Hub.Calls
import VideoRelay.Proofs.Hub.Clock
import VideoRelay.Proofs.Hub.FanOut
import VideoRelay.Proofs.Hub.Rounds
import VideoRelay.Proofs.Hub.Breakdown
import VideoRelay.Proofs.Hub.Shutdown
import VideoRelay.Proofs.Hub.Standstill
import VideoRelay.Proofs.Fragment.Lossless
import VideoRelay.Proofs.Frame.RoundTrip
import VideoRelay.Proofs.Media.Enumeration
import VideoRelay.Proofs.Media.Joining
import VideoRelay.Proofs.System.Failure
import VideoRelay.Proofs.Fragment.Loss
import VideoRelay.Proofs.Fragment.Pieces
import VideoRelay.Proofs.Fragment.Rejection
import VideoRelay.Proofs.Fragment.NormalForm
import VideoRelay.Proofs.Hub.Statistics
import VideoRelay.Proofs.Hub.Origins
import VideoRelay.Proofs.Hub.RealTime
import VideoRelay.Proofs.Hub.Isolation
import VideoRelay.Proofs.Fragment.Trace
import VideoRelay.Proofs.Hub.Skipping
import VideoRelay.Proofs.System.Owners
import VideoRelay.Proofs.Tap.Trace
import VideoRelay.Proofs.Tap.Delivery
import VideoRelay.Proofs.Frame.Pending
import VideoRelay.Proofs.Hub.Calm
import VideoRelay.Proofs.Session.Producer
import VideoRelay.Proofs.Session.Subscriber
import VideoRelay.Proofs.System.Attendance
import VideoRelay.Proofs.System.Peaceful
import VideoRelay.Proofs.System.Rest
import VideoRelay.Proofs.Relay.Running
import VideoRelay.Proofs.Relay.Transparency
import VideoRelay.Proofs.Hub.Effect
import VideoRelay.Proofs.Session.Output
import VideoRelay.Proofs.Session.Conveyance
import VideoRelay.Proofs.System.Submitters
import VideoRelay.Proofs.Session.Submission
import VideoRelay.Proofs.Tap.Accounts
import VideoRelay.Proofs.Fragment.Format
import VideoRelay.Proofs.Hub.Correspondence
import VideoRelay.Proofs.Hub.Policies
import VideoRelay.Proofs.Hub.Identity
import VideoRelay.Proofs.Hub.Renumbering
import VideoRelay.Proofs.Hub.Cancellation
import VideoRelay.Proofs.Hub.Residue
