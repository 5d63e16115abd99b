import ProcessManager.Process.RestartState

/-! The lifecycle state of a managed process, its entry in the process map and the
events that report its end. -/

namespace ProcessManager

inductive ProcessState where
  | starting | running | stopping | stopped | crashed | restarting | failed | waiting
  deriving DecidableEq, Repr

namespace ProcessState

def isAlive : ProcessState → Bool
  | .starting | .running | .stopping | .restarting | .waiting => true
  | .stopped | .crashed | .failed => false

def isTerminated : ProcessState → Bool
  | .stopped | .crashed | .failed => true
  | .starting | .running | .stopping | .restarting | .waiting => false

end ProcessState

/-- An exit code, or the signal that ended the child. -/
inductive ExitStatus where
  | code (n : ℕ)
  | signal (n : ℕ)
  deriving DecidableEq, Repr

def ExitStatus.success : ExitStatus → Bool
  | .code n => n = 0
  | .signal _ => false

/-- An entry of the process map. `child` is the index of a spawned child in the
operating system's table; `pid` is `0` as long as nothing was spawned. -/
structure Process where
  id : ProcessId
  pid : ℕ
  label : Label
  terminateOnExit : Bool
  config : ProcessConfig
  child : Option ℕ
  state : ProcessState
  restartState : Option RestartState
  spawnSequence : ℕ
  cascadeFlag : Bool
  resolvedDeps : List ProcessId
  waitingSince : Option Instant
  deriving DecidableEq

/-- `process.state = ProcessState::Stopping`, before the first signal of a stop. -/
def Process.markStopping (p : Process) : Process := { p with state := .stopping }

structure ProcessExitEvent where
  id : ProcessId
  label : Label
  pid : ℕ
  restartOnExit : Bool
  exitStatus : Option ExitStatus
  state : ProcessState
  deriving DecidableEq

/-- What Phase 1 records about an exit; `restartConfig` is set when it will restart. -/
structure ExitedProcess where
  id : ProcessId
  label : Label
  pid : ℕ
  restartOnExit : Bool
  exitStatus : Option ExitStatus
  state : ProcessState
  restartConfig : Option (ProcessConfig × Label)
  deriving DecidableEq

def ExitedProcess.event (x : ExitedProcess) : ProcessExitEvent where
  id := x.id
  label := x.label
  pid := x.pid
  restartOnExit := x.restartOnExit
  exitStatus := x.exitStatus
  state := x.state

/-- The event of an entry that ends in `state` without an exit status. -/
def Process.endEvent (id : ProcessId) (p : Process) (state : ProcessState) : ProcessExitEvent where
  id := id
  label := p.label
  pid := p.pid
  restartOnExit := p.config.restartOnExit
  exitStatus := none
  state := state

end ProcessManager
