import Mathlib.Algebra.Group.Nat.Defs

/-! Configuration of a managed process: labels, dependency references, signals,
the restart policy and `ProcessConfig` with the builder's defaults. The stdio,
environment and session settings only reach the operating system and are left out. -/

namespace ProcessManager

/-- `ProcessId(u64)`; the counter that hands them out is not bounded here. -/
structure ProcessId where
  raw : ℕ
  deriving DecidableEq, Repr

structure Label where
  name : String
  deriving DecidableEq, Repr

/-- A dependency by label is bound to a `ProcessId` later; one by id is stored as is. -/
inductive DependencyRef where
  | label (target : Label)
  | id (target : ProcessId)
  deriving DecidableEq, Repr

/-! ### Signals -/

inductive Signal where
  | sighup | sigint | sigquit | sigterm | sigkill | sigusr1 | sigusr2 | sigwinch
  | sigstop | sigcont | sigalrm
  deriving DecidableEq, Repr

inductive KillSignal where
  | sigterm | sigkill
  deriving DecidableEq, Repr

def KillSignal.toSignal : KillSignal → Signal
  | .sigterm => .sigterm
  | .sigkill => .sigkill

/-! ### Time -/

/-- Nanoseconds since an arbitrary origin. -/
abbrev Instant := ℕ

/-- `std::time::Duration`: below `2 ^ 64` seconds, in nanoseconds. -/
structure Duration where
  nanos : ℕ
  lt : nanos < 2 ^ 64 * 10 ^ 9
  deriving DecidableEq

theorem Duration.second_lt : 10 ^ 9 < 2 ^ 64 * 10 ^ 9 := by decide

theorem Duration.tenSeconds_lt : 10 * 10 ^ 9 < 2 ^ 64 * 10 ^ 9 := by decide

theorem Duration.minute_lt : 60 * 10 ^ 9 < 2 ^ 64 * 10 ^ 9 := by decide

/-- `Duration::from_millis`, as a number of nanoseconds. -/
def millis (ms : ℕ) : ℕ := ms * 10 ^ 6

/-! ### Restart policy -/

structure BackoffConfig where
  initialDelay : Duration
  /-- In tenths: `20` is a factor of 2. -/
  multiplier : UInt32
  maxDelay : Duration
  maxRestarts : UInt32
  minUptime : Duration
  deriving DecidableEq

inductive RestartPolicy where
  | immediate
  | backoff (config : BackoffConfig)
  deriving DecidableEq

inductive RestartTrigger where
  | crashOnly | always
  deriving DecidableEq, Repr

inductive SupervisorStrategy where
  | oneForOne | oneForAll | restForOne
  deriving DecidableEq, Repr

/-! ### The configuration record -/

structure ProcessConfig where
  command : String
  args : List String := []
  shell : Bool := false
  terminateOnExit : Bool := false
  killSignal : KillSignal := .sigterm
  terminateTimeoutMs : ℕ := 2000
  restartOnExit : Bool := false
  restartTrigger : RestartTrigger := .crashOnly
  restartPolicy : RestartPolicy := .immediate
  supervisorStrategy : SupervisorStrategy := .oneForOne
  dependsOn : List DependencyRef := []
  dependencyTimeoutMs : ℕ := 30000
  cascadeStop : Bool := false
  deriving DecidableEq

/-- `ProcessConfigError::validate`: the command must not be empty. -/
def ProcessConfig.validate (config : ProcessConfig) : Bool := config.command ≠ ""

/-- `get_backoff_config` of the reaper. -/
def getBackoffConfig (config : ProcessConfig) : Option BackoffConfig :=
  match config.restartPolicy with
  | .backoff b => some b
  | .immediate => none

end ProcessManager
