import ProcessManager.System.Broadcast
import ProcessManager.System.Backoff
import ProcessManager.Manager.GracePeriod
import ProcessManager.System.Blocking
import ProcessManager.System.Readiness
import ProcessManager.System.Availability
import ProcessManager.Reaper.Exits
import ProcessManager.System.RateLimit
import ProcessManager.System.StalePids
import ProcessManager.System.CascadeFlag
import ProcessManager.System.StartOrder
import ProcessManager.System.ConcurrentStarts
import ProcessManager.Reaper.Cascade
import ProcessManager.Manager.StopCascade
import ProcessManager.System.WaitersRun
import ProcessManager.System.BindingsRun
import ProcessManager.System.DepsWait
import ProcessManager.Manager.CyclePath
import ProcessManager.Manager.StopEnds
import ProcessManager.Manager.BatchOutcome
import ProcessManager.System.FailedFinal
import ProcessManager.System.EntryInvariant
import ProcessManager.System.StableUptime
import ProcessManager.System.Delays
import ProcessManager.System.Orphans
import ProcessManager.System.StoppedDependency
import ProcessManager.System.RestartFrame
import ProcessManager.System.CustodyCalls
import ProcessManager.System.CustodyRun
import ProcessManager.System.RestartReady
import ProcessManager.System.FailFast
import ProcessManager.System.TimeoutReport
import ProcessManager.System.Identity
import ProcessManager.System.Lifecycle
import ProcessManager.System.Supervision
import ProcessManager.System.Retirement
import ProcessManager.System.Removal
import ProcessManager.System.Standalone
import ProcessManager.System.Claims
import ProcessManager.System.UpToDate
import ProcessManager.System.Survival
import ProcessManager.System.Clock
import ProcessManager.System.DepsReturn
import ProcessManager.System.WaitLimit
import ProcessManager.System.GroupRestart
import ProcessManager.Socket.Manager
import ProcessManager.Manager.RestartLabel
import ProcessManager.System.Transparency
