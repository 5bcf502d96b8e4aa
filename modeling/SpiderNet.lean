import SpiderNet.Basic
import SpiderNet.Text
import SpiderNet.Library.ListFacts
import SpiderNet.Library.OrdMap
import SpiderNet.Library.WaterLevel
import SpiderNet.Library.Tiling
import SpiderNet.Library.Coalesce
import SpiderNet.Library.Decimal
import SpiderNet.Library.Transition
import SpiderNet.Library.Polling
import SpiderNet.Library.Terminator
import SpiderNet.Library.FixedWindow
import SpiderNet.Library.Machine
import SpiderNet.Library.TopSelection
import SpiderNet.Library.Scan
import SpiderNet.Library.Utf8
import SpiderNet.Library.AddressBlock
import SpiderNet.Fair.Model
import SpiderNet.Fair.Rounds
import SpiderNet.Fair.MaxMin
import SpiderNet.Fair.Totals
import SpiderNet.Fair.Allocation
import SpiderNet.Fair.FalseDemand
import SpiderNet.Fair.Validation
import SpiderNet.Fair.MoreCapacity
import SpiderNet.Fair.Checked
import SpiderNet.Fair.Guarantee
import SpiderNet.Fair.Solidarity
import SpiderNet.Fair.Regrant
import SpiderNet.Fair.Specs
import SpiderNet.Fair.Report
import SpiderNet.Fair.Rerun
import SpiderNet.Fetch.Types
import SpiderNet.Fetch.Plan
import SpiderNet.Fetch.Merge
import SpiderNet.Fetch.PlanShape
import SpiderNet.Fetch.Gather
import SpiderNet.Fetch.Subsplit
import SpiderNet.Fetch.Shares
import SpiderNet.Fetch.PlanGaps
import SpiderNet.Fetch.PlanAccepted
import SpiderNet.Fetch.Strongest
import SpiderNet.Fetch.Weighted
import SpiderNet.Fetch.CheckedPlan
import SpiderNet.Fetch.PlanRange
import SpiderNet.Fetch.EvenParts
import SpiderNet.Fetch.Parts
import SpiderNet.Fetch.Assemble
import SpiderNet.Fetch.Reassembly
import SpiderNet.Fetch.WholeParts
import SpiderNet.Fetch.Exec
import SpiderNet.Fetch.RetryOrder
import SpiderNet.Fetch.ExecSteps
import SpiderNet.Fetch.Retry
import SpiderNet.Fetch.RetryRun
import SpiderNet.Fetch.RunParts
import SpiderNet.Fetch.Ranged
import SpiderNet.Fetch.Leftover
import SpiderNet.Fetch.History
import SpiderNet.Fetch.Trace
import SpiderNet.Fetch.Tracker
import SpiderNet.Fetch.Delivery
import SpiderNet.Fetch.Abort
import SpiderNet.Fetch.Runner
import SpiderNet.Fetch.Probe
import SpiderNet.Fetch.Integrity
import SpiderNet.Fetch.Honest
import SpiderNet.Fetch.Settle
import SpiderNet.Fetch.Owners
import SpiderNet.Fetch.Routing
import SpiderNet.Fetch.ExitSpecs
import SpiderNet.Exit.Config
import SpiderNet.Exit.PublicOrigin
import SpiderNet.Exit.Disguised
import SpiderNet.Exit.Ledger
import SpiderNet.Exit.Windows
import SpiderNet.Exit.Traffic
import SpiderNet.Exit.RetryAfter
import SpiderNet.Exit.AddrText
import SpiderNet.Exit.AddrChars
import SpiderNet.Exit.Parse
import SpiderNet.Exit.Authority
import SpiderNet.Exit.RequestLine
import SpiderNet.Exit.RoundTrip
import SpiderNet.Exit.HeadTail
import SpiderNet.Exit.Proxy
import SpiderNet.Exit.Course
import SpiderNet.Exit.Guard
import SpiderNet.Exit.Relay
import SpiderNet.Exit.Handshake
import SpiderNet.Exit.Counting
import SpiderNet.Exit.Accounting
import SpiderNet.Exit.Pipeline
import SpiderNet.Exit.Service
import SpiderNet.Exit.Metering
import SpiderNet.Exit.Refinement
import SpiderNet.Exit.Isolation
import SpiderNet.Node.Types
import SpiderNet.Node.Yggdrasil
import SpiderNet.Node.Endpoint
import SpiderNet.Node.Settings
import SpiderNet.Node.DaemonConfig
import SpiderNet.Node.AdminAnswer
import SpiderNet.Node.OwnerOnly
import SpiderNet.Node.Spawn
import SpiderNet.Node.Identity
import SpiderNet.Node.Outcome
import SpiderNet.Node.FirstStart
import SpiderNet.Node.Overlay
import SpiderNet.Node.Wake
import SpiderNet.Node.Daemon
import SpiderNet.Node.Supervision
import SpiderNet.Node.ExitPolicy
import SpiderNet.Node.ExitArgs
import SpiderNet.Node.Faults
import SpiderNet.Node.Generated
import SpiderNet.Node.Genconf
import SpiderNet.Node.Standalone
import SpiderNet.Node.Life
import SpiderNet.Node.Shutdown
import SpiderNet.Node.Household
