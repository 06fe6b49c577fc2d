import InmemRuntime.PruneHistory
import InmemRuntime.JsonText
import InmemRuntime.Lib.Base64
import InmemRuntime.ReplaceThreadId
import InmemRuntime.Substitution
import InmemRuntime.ThreadCopy
import InmemRuntime.ThreadCopySpec
import InmemRuntime.SizeWeights
import InmemRuntime.SizeShifts
import InmemRuntime.RunCheckpoints
import InmemRuntime.SizeTracking
import InmemRuntime.SaverRuns
import InmemRuntime.Filters
import InmemRuntime.Lib.EventLoop
import InmemRuntime.Lib.Table
import InmemRuntime.ThreadTtl
import InmemRuntime.Runtime
import InmemRuntime.ThreadOps
import InmemRuntime.ThreadRaces
import InmemRuntime.RunsPut
import InmemRuntime.CronsPut
import InmemRuntime.StoreRaces
import InmemRuntime.RunOps
import InmemRuntime.RunsCancel
import InmemRuntime.RunsNext
import InmemRuntime.RunEffects
import InmemRuntime.FilterMatch
import InmemRuntime.StreamReplay
import InmemRuntime.SweepRuns
import InmemRuntime.TtlBounds
import InmemRuntime.SweepDecisions
import InmemRuntime.SweepRaces
import InmemRuntime.StreamDelivery
import InmemRuntime.CancelListener
import InmemRuntime.JoinDelivery
import InmemRuntime.JoinRuns
import InmemRuntime.ItemStore
import InmemRuntime.ItemEffects
import InmemRuntime.FieldIndex
import InmemRuntime.ItemTracking
import InmemRuntime.ItemLeases
import InmemRuntime.ThreadDelivery
import InmemRuntime.ThreadListening
import InmemRuntime.ThreadStreamRuns
import InmemRuntime.ThreadYields
import InmemRuntime.Assistants
import InmemRuntime.AssistantVersions
import InmemRuntime.AssistantContext
import InmemRuntime.AssistantRestarts
import InmemRuntime.CronsUpdate
import InmemRuntime.CronRuns
import InmemRuntime.Lib.Board
import InmemRuntime.StreamBoard
import InmemRuntime.StreamMailboxes
import InmemRuntime.ThreadQueues
import InmemRuntime.ControlSubscribers
import InmemRuntime.ControlHeard
import InmemRuntime.Persistence
import InmemRuntime.FlushedDicts
import InmemRuntime.ThreadUpdates
import InmemRuntime.LostUpdates
import InmemRuntime.IndexedSaver
import InmemRuntime.Lib.DictRel
import InmemRuntime.Lib.Machine
import InmemRuntime.ThreadMirror
import InmemRuntime.MirroredCalls
import InmemRuntime.CopyRuns
import InmemRuntime.Lib.LoneCall
import InmemRuntime.ThreadFailures
import InmemRuntime.CronFailures
import InmemRuntime.ItemFailures
import InmemRuntime.RunDeletions
import InmemRuntime.TtlAgreement
import InmemRuntime.PruneExact
import InmemRuntime.AssistantsDelete
import InmemRuntime.Lib.NamedList
import InmemRuntime.CronYields
import InmemRuntime.QueueTokens
import InmemRuntime.QueueLoop
import InmemRuntime.NextWork
import InmemRuntime.CancelEffects
import InmemRuntime.CancelSignals
import InmemRuntime.PyEq
import InmemRuntime.StartPool
import InmemRuntime.FilterRejects
import InmemRuntime.Containment
import InmemRuntime.TrueIds
import InmemRuntime.JointStatus
import InmemRuntime.EnterExit
import InmemRuntime.Lib.Slices
import InmemRuntime.PruneCalls
import InmemRuntime.DeployReader
import InmemRuntime.Lib.Paging
import InmemRuntime.ThreadSearch
import InmemRuntime.ValuesFilter
import InmemRuntime.RecordSearch
import InmemRuntime.SearchPages
import InmemRuntime.NextOrder
import InmemRuntime.BusyThreads
import InmemRuntime.DeployStream
import InmemRuntime.StopStream
import InmemRuntime.PruneCycles
import InmemRuntime.SubstitutionExact
import InmemRuntime.BusyRuns
import InmemRuntime.CancelNotices
import InmemRuntime.SweepMemory
import InmemRuntime.SweepExact
import InmemRuntime.FilteredCalls
import InmemRuntime.RunLifecycle
import InmemRuntime.DeployLogs
import InmemRuntime.AssistantHistory
import InmemRuntime.SweepDrain
import InmemRuntime.SweeperRuns
import InmemRuntime.ItemSerial
import InmemRuntime.AssistantTenants
import InmemRuntime.ItemMap
