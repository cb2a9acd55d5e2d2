import TbManager.BalancePlan
import TbManager.DoubleEntry
import TbManager.PlanShape
import TbManager.Importer
import TbManager.SnapshotReplay
import TbManager.LimitFlags
import TbManager.SourceHistory
import TbManager.WindowedReplay
import TbManager.CutoffBalance
import TbManager.ReadAll
import TbManager.Migration
import TbManager.Bytes
import TbManager.DataFile
import TbManager.Manifest
import TbManager.ManifestLog
import TbManager.Readings
import TbManager.ObjectIter
import TbManager.EagerRead
import TbManager.WalIter
import TbManager.ManifestWalk
import TbManager.Paging
import TbManager.LsmPages
import TbManager.ReaderSurvival
import TbManager.BackupRuns
import TbManager.ImportOrder
import TbManager.PlanTimeline
import TbManager.PlanIds
import TbManager.PlanTimestamps
import TbManager.TransferIds
import TbManager.CsvReplay
import TbManager.PendingWindow
import TbManager.BackupLock
import TbManager.ImportPhases
import TbManager.MigrationStream
import TbManager.ScheduleCopies
import TbManager.WindowOrdering
import TbManager.CsvLimits
import TbManager.CsvPlan
import TbManager.ConfigUpdates
import TbManager.CsvTimeline
import TbManager.ReadOrder
import TbManager.SchedulerState
import TbManager.FormatGuard
import TbManager.ImportRun
import TbManager.LinkedBatches
import TbManager.ClosedAccounts
import TbManager.TimestampClash
import TbManager.LedgerTotals
import TbManager.MigrationPreflight
import TbManager.TransferWindow
import TbManager.CsvPreflight
import TbManager.PagedErrors
import TbManager.WalSlots
import TbManager.WalOwnSlots
import TbManager.TimestampRepair
import TbManager.SuperblockElection
import TbManager.ByteLayout
import TbManager.RecordBytes
import TbManager.IndexBlocks
import TbManager.WalkBound
import TbManager.LiveCount
import TbManager.DecimalText
import TbManager.TransferRoute
import TbManager.BrowseAccounts
import TbManager.AmountSums
import TbManager.LogicalClock
import TbManager.TimeBasedId
import TbManager.SharedTarget
import TbManager.Broadcast
import TbManager.LogPipeline
import TbManager.ClientReply
import TbManager.SeekPaging
import TbManager.PagedQuery
import TbManager.NodeRestart
import TbManager.BookEntries
import TbManager.MigrationDelivery
import TbManager.TwoStepMigration
import TbManager.SeparateHeap
import TbManager.RequestOwnership
import TbManager.NodeExit
import TbManager.PlanPreview
import TbManager.ImportCalls
import TbManager.Collecting
import TbManager.FileRecords
import TbManager.FileDelivery
