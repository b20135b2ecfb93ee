import TimeTools.Foundation.FixedWidth
import TimeTools.Foundation.SignedSplit
import TimeTools.Foundation.ByteOrder
import TimeTools.Foundation.Blocks
import TimeTools.Foundation.Ledger
import TimeTools.Foundation.RecordLock
import TimeTools.Foundation.Run
import TimeTools.Foundation.TwoRuns
import TimeTools.Foundation.Amortize
import TimeTools.Foundation.PiLoop
import TimeTools.Foundation.ClampedWalk
import TimeTools.Foundation.Signal
import TimeTools.Foundation.OutParam
import TimeTools.Foundation.DayTime
import TimeTools.Foundation.CString
import TimeTools.Foundation.Printf
import TimeTools.Foundation.TextLog
import TimeTools.Foundation.HandlerLog
import TimeTools.Timespec
import TimeTools.TimeExpr
import TimeTools.Driver.Ioctl
import TimeTools.Driver.CardRead
import TimeTools.Driver.Board
import TimeTools.Driver.Slots
import TimeTools.Driver.Module
import TimeTools.Driver.Usable
import TimeTools.Driver.Mmap
import TimeTools.Sync.Servo
import TimeTools.Sync.HostSync
import TimeTools.Sync.GuestSync
import TimeTools.Sync.Process
import TimeTools.Sync.OneWriter
import TimeTools.Sync.Moves
import TimeTools.Sync.Display
import TimeTools.Sync.LockFds
import TimeTools.Sync.DriftHistory
import TimeTools.Sync.ServoPair
import TimeTools.Sync.Restart
import TimeTools.Sync.OneStep
import TimeTools.Sync.Tracking
import TimeTools.Sync.LongPeriod
import TimeTools.Sync.TornRead
import TimeTools.Sync.Tenure
import TimeTools.Sync.PidFile
import TimeTools.Driver.CardTime
import TimeTools.Timer.Record
import TimeTools.Timer.Server
import TimeTools.Timer.Lifecycle
import TimeTools.Timer.Handler
import TimeTools.Timer.Appointment
import TimeTools.Timer.Arming
import TimeTools.Timer.Setup
import TimeTools.Timer.Reference
import TimeTools.Timer.LocalFields
import TimeTools.Timer.StartOption
import TimeTools.Timer.LogFile
import TimeTools.Timer.Schedule
import TimeTools.Timer.Cost
import TimeTools.Timer.EndToEnd
import TimeTools.FailedReads
