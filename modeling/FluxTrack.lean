import FluxTrack.Data.Table
import FluxTrack.Data.Calendar
import FluxTrack.Data.Builtins
import FluxTrack.Data.Rounding
import FluxTrack.Process.Prog
import FluxTrack.Process.Interference
import FluxTrack.Process.Pool
import FluxTrack.Process.Guarded
import FluxTrack.Models
import FluxTrack.Scheduling.Resolver
import FluxTrack.Db
import FluxTrack.Scheduling.Suspensions
import FluxTrack.Scheduling.Merge
import FluxTrack.Scheduling.ScheduleOps
import FluxTrack.Scheduling.Jobs
import FluxTrack.Scheduling.RoomConflicts
import FluxTrack.Ops.Occupancy
import FluxTrack.Ops.Availability
import FluxTrack.Ops.Occupants
import FluxTrack.Scheduling.Materialization
import FluxTrack.Web.Scan
import FluxTrack.Web.Faculty
import FluxTrack.Web.Checker
import FluxTrack.Web.RoomCheck
import FluxTrack.Web.Ifo
import FluxTrack.System
import FluxTrack.Theorems.Sweep
import FluxTrack.Theorems.Flips
import FluxTrack.Theorems.Reconfirmation
import FluxTrack.Theorems.StartRecords
import FluxTrack.Theorems.Statements
import FluxTrack.Theorems.StatusMachine
import FluxTrack.Theorems.Excusal
import FluxTrack.Theorems.Forecast
import FluxTrack.Scheduling.Services
import FluxTrack.Scheduling.TermLifecycle
import FluxTrack.Theorems.Approval
import FluxTrack.Theorems.RoomShift
import FluxTrack.Theorems.RequestLifecycle
import FluxTrack.Theorems.Terms
import FluxTrack.Theorems.SessionIdentity
import FluxTrack.Theorems.MergeGroup
import FluxTrack.Scheduling.Reporting
import FluxTrack.Scheduling.RoomReporting
import FluxTrack.Web.RoomState
import FluxTrack.Data.Tally
import FluxTrack.Theorems.Attendance
import FluxTrack.Theorems.HeatGrid
import FluxTrack.Process.Runs
import FluxTrack.Theorems.InForce
import FluxTrack.Theorems.Attribution
import FluxTrack.Theorems.ScheduleEdit
import FluxTrack.Theorems.Replay
import FluxTrack.Process.Locking
import FluxTrack.Theorems.ClosedTerm
import FluxTrack.Theorems.CheckInGrace
import FluxTrack.Theorems.CheckIns
import FluxTrack.Theorems.Coverage
import FluxTrack.Theorems.SlotDates
import FluxTrack.Theorems.Reservations
import FluxTrack.Theorems.RoomHolding
import FluxTrack.Theorems.CheckerScans
import FluxTrack.Theorems.ReplayReports
import FluxTrack.Theorems.CheckerGate
import FluxTrack.Theorems.DroppedReports
import FluxTrack.Theorems.TimeRecords
import FluxTrack.Theorems.UsableRooms
import FluxTrack.Theorems.Births
import FluxTrack.Theorems.BornRooms
import FluxTrack.Data.Episodes
import FluxTrack.Theorems.ConflictFlags
import FluxTrack.Process.Bids
import FluxTrack.Process.Agree
import FluxTrack.Process.Once
import FluxTrack.Theorems.OpenRequests
import FluxTrack.Process.Faults
import FluxTrack.Process.Delivery
import FluxTrack.Theorems.OnlineDecisions
import FluxTrack.Theorems.SessionChanges
import FluxTrack.Scheduling.ShiftRequests
import FluxTrack.Verification.OnlineDuty
import FluxTrack.Scheduling.ImportOfferings
import FluxTrack.Theorems.FrozenTerms
import FluxTrack.Scheduling.Admin
import FluxTrack.Theorems.AdminGuards
import FluxTrack.Theorems.ScanOnce
import FluxTrack.Theorems.ExactRuns
import FluxTrack.Theorems.ReportTotals
import FluxTrack.Theorems.RoomTotals
import FluxTrack.Theorems.RoomCapacity
import FluxTrack.Theorems.Payroll
import FluxTrack.Theorems.ImportPreview
import FluxTrack.Theorems.ImportTwice
import FluxTrack.Process.Rescue
import FluxTrack.Theorems.ImportCommits
import FluxTrack.Theorems.ClassAdditions
import FluxTrack.Data.First
import FluxTrack.Data.Strides
import FluxTrack.Ops.SlotSearch
import FluxTrack.Web.ModalityShifts
import FluxTrack.Web.Schedules
import FluxTrack.Theorems.ScanOutcomes
import FluxTrack.Theorems.RoomBoard
import FluxTrack.Theorems.CheckerTargets
import FluxTrack.Theorems.MergeLaws
import FluxTrack.Theorems.ExactSuspensions
import FluxTrack.Theorems.StartButton
import FluxTrack.Theorems.TeacherTimes
import FluxTrack.Theorems.SlotLengths
import FluxTrack.Theorems.AlternativeTimes
import FluxTrack.Theorems.ScheduleCards
import FluxTrack.Theorems.OnlineRoster
import FluxTrack.Theorems.FloorAlerts
import FluxTrack.Theorems.AmbiguousScans
import FluxTrack.Theorems.Accounting
import FluxTrack.Scheduling.BlockSaturation
import FluxTrack.Theorems.Saturation
import FluxTrack.Web.ReportingCommon
import FluxTrack.Web.QueuedScans
import FluxTrack.Theorems.ReportScopes
import FluxTrack.Process.Purge
import FluxTrack.Process.Raises
import FluxTrack.Theorems.BadFilters
import FluxTrack.Theorems.ReplayAnswers
import FluxTrack.Theorems.MalformedScans
import FluxTrack.Data.Labels
import FluxTrack.Theorems.ImportIdentity
import FluxTrack.Theorems.WeeksWindow
import FluxTrack.Data.Quantiles
import FluxTrack.Web.HeatSteps
import FluxTrack.Theorems.HeatSteps
import FluxTrack.Data.Decimal
import FluxTrack.Theorems.ExactFigures
import FluxTrack.Data.Grouping
import FluxTrack.Scheduling.FloorRollup
import FluxTrack.Theorems.FloorRollup
import FluxTrack.Data.Numeration
import FluxTrack.Scheduling.Xlsx
import FluxTrack.Theorems.Spreadsheets
import FluxTrack.Theorems.MeetingStrings
import FluxTrack.Data.Utf8
import FluxTrack.Data.Percent
import FluxTrack.Web.RoomTokens
import FluxTrack.Theorems.RoomTokens
import FluxTrack.Web.OfflineQueue
import FluxTrack.Theorems.OfflineReceipts
import FluxTrack.Theorems.OfflineQueue
import FluxTrack.Theorems.OfflineDrain
import FluxTrack.Theorems.StagedUploads
import FluxTrack.Data.References
import FluxTrack.Web.CampusStructure
import FluxTrack.Theorems.CampusStructure
import FluxTrack.Theorems.Posters
import FluxTrack.Scheduling.RoomMaster
import FluxTrack.Theorems.RoomMaster
import FluxTrack.Process.Outbox
import FluxTrack.Ops.Notifications
import FluxTrack.Ops.Push
import FluxTrack.Theorems.PushOutbox
import FluxTrack.Theorems.NotificationCenter
import FluxTrack.Data.Dates
import FluxTrack.Data.Csv
import FluxTrack.Ops.Reports
import FluxTrack.Scheduling.ReportRender
import FluxTrack.Web.ReportExports
import FluxTrack.Theorems.ReportAccess
