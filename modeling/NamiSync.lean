import NamiSync.Core.PathLaws
import NamiSync.Db.HistoryExact
import NamiSync.Db.Idempotence
import NamiSync.Db.Reappearance
import NamiSync.Dispatcher.Admission
import NamiSync.Dispatcher.Attendance
import NamiSync.Dispatcher.AuditTruth
import NamiSync.Dispatcher.Bounded
import NamiSync.Dispatcher.Cancel
import NamiSync.Dispatcher.Custody
import NamiSync.Dispatcher.Delivery
import NamiSync.Dispatcher.EventOrder
import NamiSync.Dispatcher.Returned
import NamiSync.Dispatcher.Terminal
import NamiSync.Modules.Claimed
import NamiSync.Modules.Classification
import NamiSync.Modules.Continuation
import NamiSync.Modules.Drift
import NamiSync.Modules.Executor.Conservation
import NamiSync.Modules.Executor.TempNames
import NamiSync.Modules.FilterFrame
import NamiSync.Modules.OrphanedTemps
import NamiSync.Modules.PlanOrder
import NamiSync.Modules.ProgressTruth
import NamiSync.Modules.Totality
import NamiSync.Modules.TrashUse
import NamiSync.Workflows.Emptied
import NamiSync.Workflows.Latest
import NamiSync.Workflows.OutcomesOnce
import NamiSync.Workflows.Renames
import NamiSync.Workflows.RoundTrip
import NamiSync.Workflows.TrustChain
import NamiSync.Workflows.Untangled
