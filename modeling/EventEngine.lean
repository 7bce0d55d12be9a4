import EventEngine.Alarm.Clock
import EventEngine.Alarm.Schedule
import EventEngine.Alarm.Session
import EventEngine.Config.Events
import EventEngine.Config.Expansion
import EventEngine.Config.Load
import EventEngine.Diagnostics
import EventEngine.Engine.Command
import EventEngine.Engine.Moves
import EventEngine.Engine.Perform
import EventEngine.Engine.World
import EventEngine.Event.Action
import EventEngine.Event.Handler
import EventEngine.Event.Types
import EventEngine.Main
import EventEngine.Metrics
import EventEngine.Program.CommandLine
import EventEngine.Program.Report
import EventEngine.Program.Run
import EventEngine.Program.Settings
import EventEngine.Queue.Basic
import EventEngine.Queue.Shared
import EventEngine.Subsystems.Basic
import EventEngine.Subsystems.Ledger
import EventEngine.Subsystems.Roster
import EventEngine.Text
import EventEngine.Time.Calendar
import EventEngine.Time.Duration
import EventEngine.Time.Instant
import EventEngine.Toml.Document
import EventEngine.Toml.Number
import EventEngine.Toml.Reader
import EventEngine.Toml.Text
import EventEngine.Toml.Value
import EventEngine.Proofs.AfterStop
import EventEngine.Proofs.Clocks.Callbacks
import EventEngine.Proofs.Clocks.CatchUp
import EventEngine.Proofs.Clocks.Fates
import EventEngine.Proofs.Clocks.Firings
import EventEngine.Proofs.Clocks.Grid
import EventEngine.Proofs.Clocks.Logs
import EventEngine.Proofs.Clocks.MissedPeriods
import EventEngine.Proofs.Clocks.Order
import EventEngine.Proofs.Clocks.Owners
import EventEngine.Proofs.Clocks.Restarts
import EventEngine.Proofs.Clocks.Startable
import EventEngine.Proofs.Clocks.Steps
import EventEngine.Proofs.Clocks.Taking
import EventEngine.Proofs.Clocks.Threads
import EventEngine.Proofs.Clocks.Ticks
import EventEngine.Proofs.Clocks.Timelines
import EventEngine.Proofs.Clocks.Uses
import EventEngine.Proofs.Clocks.Wakeups
import EventEngine.Proofs.Counters
import EventEngine.Proofs.Delivery
import EventEngine.Proofs.Destruction
import EventEngine.Proofs.DispatchOrder
import EventEngine.Proofs.Exits
import EventEngine.Proofs.Expansions.Failures
import EventEngine.Proofs.Expansions.Faithful
import EventEngine.Proofs.Expansions.Growth
import EventEngine.Proofs.Expansions.Matches
import EventEngine.Proofs.Expansions.Stages
import EventEngine.Proofs.Expirations
import EventEngine.Proofs.Expiry
import EventEngine.Proofs.FailedStarts
import EventEngine.Proofs.ForeignAlarms
import EventEngine.Proofs.Independence
import EventEngine.Proofs.LapsedAlarms
import EventEngine.Proofs.LastingStarts
import EventEngine.Proofs.Leftovers
import EventEngine.Proofs.LifeCycle
import EventEngine.Proofs.LockExclusion
import EventEngine.Proofs.OneAlarm
import EventEngine.Proofs.Operations
import EventEngine.Proofs.Pacing
import EventEngine.Proofs.Pasts.Actions
import EventEngine.Proofs.Pasts.Basic
import EventEngine.Proofs.Pasts.Histories
import EventEngine.Proofs.Pasts.Moves
import EventEngine.Proofs.Pasts.Renewed
import EventEngine.Proofs.Queues.BoundedWaits
import EventEngine.Proofs.Queues.History
import EventEngine.Proofs.Queues.Order
import EventEngine.Proofs.Queues.Shared
import EventEngine.Proofs.Queues.Waiters
import EventEngine.Proofs.Registrations
import EventEngine.Proofs.Renewal
import EventEngine.Proofs.Routing
import EventEngine.Proofs.Runs
import EventEngine.Proofs.Sides.Basic
import EventEngine.Proofs.Sides.Confined
import EventEngine.Proofs.Sides.Parts
import EventEngine.Proofs.StopBarrier
import EventEngine.Proofs.StopGuarantees
import EventEngine.Proofs.Subsystems.Deeds
import EventEngine.Proofs.Subsystems.ExactLedger
import EventEngine.Proofs.Subsystems.Forwards
import EventEngine.Proofs.Subsystems.Mail
import EventEngine.Proofs.Subsystems.Sessions
import EventEngine.Proofs.Subsystems.Staff
import EventEngine.Proofs.Subsystems.Startup
import EventEngine.Proofs.Subsystems.WalletResults
import EventEngine.Proofs.TailOrder
import EventEngine.Proofs.TimeoutGrid
import EventEngine.Proofs.TimeoutSettings
import EventEngine.Proofs.Timeouts
import EventEngine.Proofs.Turns.Actions
import EventEngine.Proofs.Turns.Alarms
import EventEngine.Proofs.Turns.Basic
import EventEngine.Proofs.Turns.Effects
import EventEngine.Proofs.Turns.Requests
import EventEngine.Proofs.Turns.Settings
import EventEngine.Proofs.Turns.Steps
import EventEngine.Proofs.Turns.Workers
