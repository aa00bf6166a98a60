import OscmixDesk.Foundation.Rounding
import OscmixDesk.Foundation.Text
import OscmixDesk.Foundation.Nearest
import OscmixDesk.Foundation.Keyed
import OscmixDesk.Foundation.Newest
import OscmixDesk.Foundation.Buckets
import OscmixDesk.Foundation.Checks
import OscmixDesk.Foundation.Twins
import OscmixDesk.Foundation.Effects
import OscmixDesk.Foundation.Traces
import OscmixDesk.Foundation.RingBuffer
import OscmixDesk.Foundation.Patterns
import OscmixDesk.Model.Registers
import OscmixDesk.Model.Devices
import OscmixDesk.Model.Numeric
import OscmixDesk.Model.Config
import OscmixDesk.Model.Errors
import OscmixDesk.Model.Playback
import OscmixDesk.Model.Autogain
import OscmixDesk.Model.Base
import OscmixDesk.Model.Mirrors
import OscmixDesk.Model.Sections
import OscmixDesk.Model.Loader
import OscmixDesk.Model.Entries
import OscmixDesk.Model.Reconcile
import OscmixDesk.Model.Fold
import OscmixDesk.Model.Contents
import OscmixDesk.Model.Observation
import OscmixDesk.Model.Session
import OscmixDesk.Model.Prechecks
import OscmixDesk.Model.PeakSafe
import OscmixDesk.Model.Routing
import OscmixDesk.Model.Verify
import OscmixDesk.Model.Profiles
import OscmixDesk.Proof.Tables
import OscmixDesk.Proof.Acceptance
import OscmixDesk.Proof.RouteEntries
import OscmixDesk.Proof.Desired
import OscmixDesk.Proof.Silence
import OscmixDesk.Proof.Planning
import OscmixDesk.Proof.Mutes
import OscmixDesk.Proof.OneValue
import OscmixDesk.Proof.Layers
import OscmixDesk.Proof.Links
import OscmixDesk.Proof.Columns
import OscmixDesk.Proof.Totality
import OscmixDesk.Proof.Release
import OscmixDesk.Proof.Retained
import OscmixDesk.Proof.Crosspoints
import OscmixDesk.Proof.Submix
import OscmixDesk.Proof.Balances
import OscmixDesk.Proof.Confined
import OscmixDesk.Proof.Sending
import OscmixDesk.Proof.Account
import OscmixDesk.Proof.GiveBack
import OscmixDesk.Proof.Peaks
import OscmixDesk.Proof.Untouched
import OscmixDesk.Proof.Selecting
import OscmixDesk.Proof.Interleaving
import OscmixDesk.Proof.Queues
import OscmixDesk.Proof.Deadlines
import OscmixDesk.Proof.Windows
import OscmixDesk.Proof.FreshView
import OscmixDesk.Proof.Receipts
import OscmixDesk.Proof.Discipline
import OscmixDesk.Proof.Watching
import OscmixDesk.Proof.Repeating
import OscmixDesk.Proof.Lifecycle
import OscmixDesk.Proof.Reestablished
import OscmixDesk.Proof.LastReport
import OscmixDesk.Proof.Bundles
import OscmixDesk.Proof.Closed
import OscmixDesk.Proof.LinkBarrier
import OscmixDesk.Proof.Budgets
import OscmixDesk.Proof.Spared
import OscmixDesk.Proof.ReadBacks
import OscmixDesk.Proof.Drift
import OscmixDesk.Proof.Verdicts
import OscmixDesk.Proof.Consistent
import OscmixDesk.Proof.Playbacks
import OscmixDesk.Proof.Ignored
import OscmixDesk.Model.Poll
import OscmixDesk.Proof.Polled
import OscmixDesk.Model.Readback
import OscmixDesk.Proof.Halves
import OscmixDesk.Model.Discovery
import OscmixDesk.Proof.Boxes
import OscmixDesk.Model.Endpoint
import OscmixDesk.Proof.Owners
import OscmixDesk.Model.Supervise
import OscmixDesk.Proof.Reloads
import OscmixDesk.Proof.NextTurn
import OscmixDesk.Foundation.Observed
import OscmixDesk.Model.Processes
import OscmixDesk.Model.HostService
import OscmixDesk.Proof.Signals
import OscmixDesk.Proof.Reached
import OscmixDesk.Proof.Spoofing
import OscmixDesk.Model.Console
import OscmixDesk.Proof.Refreshes
import OscmixDesk.Model.Stereo
import OscmixDesk.Proof.Geometry
import OscmixDesk.Model.Midi
import OscmixDesk.Proof.Frames
import OscmixDesk.Model.Diff
import OscmixDesk.Proof.Differences
import OscmixDesk.Model.Pipewire
import OscmixDesk.Proof.Sinks
import OscmixDesk.Model.Dump
import OscmixDesk.Proof.Levels
import OscmixDesk.Proof.Recovered
import OscmixDesk.Proof.Redumped
import OscmixDesk.Proof.Encodings
import OscmixDesk.Proof.Converges
import OscmixDesk.Proof.Inverted
import OscmixDesk.Foundation.Calls
import OscmixDesk.Foundation.Disk
import OscmixDesk.Model.Marker
import OscmixDesk.Proof.Remembered
import OscmixDesk.Model.Locking
import OscmixDesk.Proof.Serialised
