import GoFire.Foundations.GregorianCalendar
import GoFire.Foundations.BoundedSearch
import GoFire.GoTime.Instants
import GoFire.CronParser.FieldParsing
import GoFire.CronParser.FieldCoverage
import GoFire.CronParser.GrammarConformance
import GoFire.CronParser.NextRun
import GoFire.CronParser.WallClock
import GoFire.CronParser.NextRunCorrectness
import GoFire.CronParser.ZoneIndependence
import GoFire.Foundations.KeyedTable
import GoFire.Foundations.TransitionSystem
import GoFire.State.Statuses
import GoFire.Store.EnqueuedJobStore
import GoFire.QueueManager.Manager
import GoFire.QueueManager.Board
import GoFire.QueueManager.Refinement
import GoFire.Store.QueueRows
import GoFire.QueueManager.MutualExclusion
import GoFire.QueueManager.StatusChanges
import GoFire.QueueManager.RetryAccounting
import GoFire.QueueManager.HandlerStarts
import GoFire.Store.CronJobStore
import GoFire.CronManager.Manager
import GoFire.CronManager.Board
import GoFire.Store.CronRows
import GoFire.CronManager.RowSteps
import GoFire.CronManager.OccurrenceRaces
import GoFire.CronManager.DueStarts
import GoFire.CronManager.Deactivation
import GoFire.Managers.StaleLocks
import GoFire.QueueManager.ScheduledStarts
import GoFire.Store.RowLookup
import GoFire.Foundations.SessionLocks
import GoFire.Lock.LockManager
import GoFire.Lock.ReleasedLocks
import GoFire.Lock.MutualExclusion
import GoFire.QueueSync.Worker
import GoFire.QueueSync.Conservation
import GoFire.Managers.Outcomes
import GoFire.QueueManager.Lifecycle
import GoFire.QueueManager.Outcomes
import GoFire.CronManager.Lifecycle
import GoFire.CronManager.Outcomes
import GoFire.Managers.ShutdownOutcomes
import GoFire.QueueManager.Deadlock
import GoFire.CronManager.Reschedules
import GoFire.Foundations.DoubleNumbers
import GoFire.GoTime.Rfc3339
import GoFire.QueueSync.Messages
import GoFire.Store.LockFields
import GoFire.Managers.ExecutionResults
import GoFire.QueueManager.GoroutineResults
import GoFire.CronManager.GoroutineResults
import GoFire.Managers.HandlerPanics
import GoFire.Managers.LockedStarts
import GoFire.QueueManager.RetryWorker
import GoFire.CronParser.Int64Fields
import GoFire.CronParser.ItemOrder
import GoFire.CronParser.ForwardPasses
import GoFire.JobManager.TimerLoop
import GoFire.Store.DueJobsQuery
import GoFire.Foundations.SortedPages
import GoFire.Store.DuePages
import GoFire.CronManager.SweepCoverage
import GoFire.Foundations.TiedPages
import GoFire.Store.DueJobPages
import GoFire.Store.BulkInserts
import GoFire.QueueSync.Batches
import GoFire.Store.LockReleases
import GoFire.Foundations.WorkerPool
import GoFire.Managers.WorkerPools
import GoFire.CronManager.NextRunZones
import GoFire.Store.StatusCounts
import GoFire.Users.UserStore
import GoFire.Users.AdminBootstrap
import GoFire.Config.Options
import GoFire.Store.CronJobsQuery
import GoFire.Web.PageNumbers
import GoFire.Foundations.Base64
import GoFire.Web.AuthTokens
import GoFire.Users.Credentials
import GoFire.Web.Dashboard
import GoFire.Web.Sessions
import GoFire.CronManager.ScheduleBook
import GoFire.Foundations.NumberedRows
import GoFire.QueueManager.JobBook
import GoFire.QueueManager.RowHistory
import GoFire.CronParser.Occurrences
import GoFire.QueueManager.Successes
import GoFire.Foundations.CalendarStarts
import GoFire.JobManager.Periods
import GoFire.CronManager.FixedExpressions
import GoFire.JobManager.Schedules
import GoFire.Foundations.PercentEncoding
import GoFire.Web.FlashMessages
import GoFire.Server.Handlers
import GoFire.Server.Lifecycle
import GoFire.Web.Notices
import GoFire.Server.Stages
import GoFire.Server.Shutdown
import GoFire.Server.Registrations
import GoFire.Server.Starts
import GoFire.Db.Catalog
import GoFire.Db.Migrations
import GoFire.Db.MigrationRuns
