import Causer.WatchCounter
import Causer.WatchCoverage
import Causer.SlotExclusion
import Causer.ClosingSafety
import Causer.OverflowReport
import Causer.ScanSafety
import Causer.GuardIntegrity
import Causer.ReallocContents
import Causer.EvidenceKept
import Causer.BlameTracing
import Causer.RatioMarks
import Causer.HistoryRoundTrip
import Causer.HashMapCalls
import Causer.WatchedObjects
import Causer.ForkRelease
import Causer.EventLeaks
import Causer.AliveThreads
import Causer.DeadlockFreedom
import Causer.AllocationFailure
import Causer.ExitCheck
import Causer.ReallocFailure
import Causer.HistorySafety
import Causer.EntryErasure
import Causer.FailedRelease
import Causer.SlotChoice
import Causer.WatchThrottle
import Causer.AllocationSize
import Causer.UsableSize
import Causer.TempMalloc
import Causer.ScanReads
import Causer.HeadSearch
import Causer.CallSiteKey
import Causer.MappingLookup
import Causer.ListOperations
import Causer.ListSplices
import Causer.InstallRollback
import Causer.BacktraceFrames
import Causer.MapsFile
import Causer.CallsiteLocks
import Causer.HashMapProgress
import Causer.StringCopies
import Causer.Detection
import Causer.TrapProgress
import Causer.MarkedSites
import Causer.ExitOverruns
import Causer.Recalloc
