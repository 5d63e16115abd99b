import ProcessManager.Library.AssocList
import ProcessManager.Library.Guards
import ProcessManager.Process.State
import Mathlib.Tactic.Simps.Basic

/-! The state of one manager together with the part of the operating system it talks
to. `Env` decides what the outside does at each system call: how much time passes,
which children exit, which calls fail, which pid a spawn gets and how the map is laid
out after an insertion. Every theorem holds for every `Env`. -/

namespace ProcessManager

open Guards

/-! ### Children -/

/-- Running; exited but not yet collected by `try_wait` or `wait`; collected. -/
inductive ChildStatus where
  | running
  | exited (status : ExitStatus) (time : Instant)
  | reaped (status : ExitStatus) (time : Instant)
  deriving DecidableEq

structure OsChild where
  pid : ℕ
  status : ChildStatus
  deriving DecidableEq

namespace OsChild

def isRunning (ch : OsChild) : Bool := ch.status = .running

/-- The exit was collected; the kernel may reuse the pid. -/
def isReaped (ch : OsChild) : Bool :=
  match ch.status with
  | .reaped _ _ => true
  | _ => false

def exit (status : ExitStatus) (time : Instant) (ch : OsChild) : OsChild :=
  match ch.status with
  | .running => { ch with status := .exited status time }
  | _ => ch

def reap (ch : OsChild) : OsChild :=
  match ch.status with
  | .exited s t => { ch with status := .reaped s t }
  | _ => ch

theorem isReaped_of_isRunning {ch : OsChild} (h : ch.isRunning = true) : ch.isReaped = false := by
  simp only [isRunning, decide_eq_true_eq] at h
  simp only [isReaped, h]

end OsChild

/-- Some child with this pid was spawned and not collected yet. -/
def pidInUse (children : List OsChild) (pid : ℕ) : Bool :=
  children.any fun ch => ch.pid = pid && !ch.isReaped

/-- The pid of a new child: never `0` and never one that is still in use. -/
def freePid (children : List OsChild) (hint : ℕ) : ℕ :=
  if hint ≠ 0 ∧ pidInUse children hint = false then hint
  else (children.map OsChild.pid).sum + 1

/-! ### System calls -/

inductive Errno where
  | esrch | eperm
  deriving DecidableEq, Repr

inductive SpawnError where
  | executableNotFound | spawnFailed
  deriving DecidableEq, Repr

structure OsExit where
  child : ℕ
  status : ExitStatus
  /-- How long into the interval before the call the exit happens. -/
  delay : ℕ

/-- The outside world; the argument `n` is the number of the system call. -/
structure Env where
  elapsed : ℕ → ℕ
  exits : ℕ → List OsExit
  waitFails : ℕ → Bool
  /-- The status a blocking `wait` returns with. -/
  waitStatus : ℕ → ExitStatus
  killError : ℕ → Option Errno
  which : ℕ → String → Option String
  spawnFails : ℕ → Bool
  pid : ℕ → ℕ
  receiverDropped : ℕ → Bool
  /-- Iteration order of the map after an insertion. -/
  rank : ℕ → ProcessId → ℕ
  instantMax : Instant

/-- A world in which nothing happens by itself and every call succeeds. -/
def Env.calm : Env where
  elapsed _ := 0
  exits _ := []
  waitFails _ := false
  waitStatus _ := .code 0
  killError _ := none
  which _ command := some command
  spawnFails _ := false
  pid n := n + 1
  receiverDropped _ := false
  rank _ id := id.raw
  instantMax := 2 ^ 94

/-- The listed exits, each before the system call with that number. -/
def Env.exitsAt (exits : List (ℕ × OsExit)) : Env :=
  { Env.calm with exits := fun n => (exits.filter fun e => e.1 = n).map Prod.snd }

inductive KillSite where
  | stop | stopEscalation | stopMany | stopManyEscalation | sendSignal | cascade | failFast
  deriving DecidableEq, Repr

/-- A `kill` call with the children as they were when it was made. -/
structure KillCall where
  site : KillSite
  id : ProcessId
  pid : ℕ
  signal : Signal
  child : Option ℕ
  error : Option Errno
  children : List OsChild

inductive SpawnSite where
  | start | performRestart | spawnWaiting | restart
  deriving DecidableEq, Repr

/-- A successful spawn with the process map as it was when it happened. -/
structure SpawnCall where
  site : SpawnSite
  id : ProcessId
  child : ℕ
  program : String × List String
  config : ProcessConfig
  resolvedDeps : List ProcessId
  processes : AssocMap ProcessId Process

/-- An event that was sent, with the process map as it was then. -/
structure SendCall where
  event : ProcessExitEvent
  processes : AssocMap ProcessId Process

/-! ### The world -/

inductive ReaperStatus where
  | absent | running | returned | panicked
  deriving DecidableEq, Repr

/-- The manager, the children it spawned, and logs (newest first) of the guards its
reaper takes, of the `kill` and spawn calls, and of the events sent. -/
structure World where
  processes : AssocMap ProcessId Process
  nextId : ℕ
  nextSpawnSequence : ℕ
  reaper : ReaperStatus
  receiverAlive : Bool
  children : List OsChild
  clock : Instant
  ticks : ℕ
  locks : List (Guards.Event ProcessId)
  kills : List KillCall
  spawns : List SpawnCall
  sends : List SendCall

namespace World

/-- The events the receiver got. -/
def events (w : World) : List ProcessExitEvent := w.sends.map SendCall.event

/-- `ProcessManager::new` -/
def new : World where
  processes := ∅
  nextId := 1
  nextSpawnSequence := 1
  reaper := .absent
  receiverAlive := true
  children := []
  clock := 0
  ticks := 0
  locks := []
  kills := []
  spawns := []
  sends := []

/-- `ProcessManager::with_reaper` -/
def withReaper : World := { new with reaper := .running }

variable (env : Env)

/-- Time passes and children exit before the next system call. -/
@[simps processes nextId nextSpawnSequence reaper locks kills spawns sends]
def tick (w : World) : World :=
  { w with
    ticks := w.ticks + 1
    clock := w.clock + env.elapsed w.ticks
    receiverAlive := w.receiverAlive && !env.receiverDropped w.ticks
    children := (env.exits w.ticks).foldl (fun cs e =>
      cs.modify e.child (OsChild.exit e.status (w.clock + min e.delay (env.elapsed w.ticks))))
      w.children }

/-- `thread::sleep`: at least `ns` nanoseconds pass. -/
@[simps processes nextId nextSpawnSequence reaper locks kills spawns sends]
def sleep (ns : ℕ) (w : World) : World :=
  let w' := w.tick env
  { w' with clock := w'.clock + ns }

/-! ### Guards -/

@[simps]
def lock (m : Mode) (id : ProcessId) (w : World) : World :=
  { w with locks := .acquire m id :: w.locks }

@[simps]
def unlock (m : Mode) (id : ProcessId) (w : World) : World :=
  { w with locks := .release m id :: w.locks }

/-- One short guard after the other. -/
@[simps]
def touch (m : Mode) (ids : List ProcessId) (w : World) : World :=
  { w with locks := Guards.touch m ids w.locks }

/-! ### The process map -/

/-- Write an entry back through the guard that lent it out. -/
@[simps]
def put (id : ProcessId) (p : Process) (w : World) : World :=
  { w with processes := w.processes.replace id p }

@[simps]
def remove (id : ProcessId) (w : World) : World :=
  { w with processes := w.processes.erase id }

@[simps]
def insert (id : ProcessId) (p : Process) (w : World) : World :=
  { w with processes := AssocMap.reorder (env.rank w.ticks) (w.processes.insert id p) }

/-! ### Waiting for a child -/

inductive WaitResult where
  | running | error
  | exited (status : ExitStatus)

/-- The state `Process::state` reads off a result. -/
def WaitResult.state : WaitResult → ProcessState
  | .running => .running
  | .error => .crashed
  | .exited status => if status.success then .stopped else .crashed

theorem WaitResult.state_eq_or (r : WaitResult) :
    r.state = .running ∨ r.state.isTerminated = true := by
  cases r with
  | running => exact .inl rfl
  | error => exact .inr rfl
  | exited status =>
    simp only [WaitResult.state]
    split_ifs <;> exact .inr rfl

/-- The status `Process::try_wait_exit` reads off a result. -/
def WaitResult.status : WaitResult → Option ExitStatus
  | .exited status => some status
  | _ => none

/-- The result of `Child::try_wait`. An exit collected before is returned again. -/
def waitResult (c : ℕ) (w : World) : WaitResult :=
  match (w.tick env).children[c]? with
  | none => .error
  | some ch =>
    match ch.status with
    | .reaped s _ => .exited s
    | .exited s _ => if env.waitFails w.ticks then .error else .exited s
    | .running => if env.waitFails w.ticks then .error else .running

/-- `Child::try_wait` -/
def tryWait (c : ℕ) (w : World) : World :=
  let w' := w.tick env
  match w.waitResult env c with
  | .exited _ => { w' with children := w'.children.modify c OsChild.reap }
  | _ => w'

/-- `Child::wait`: returns once the child has exited. -/
@[simps processes nextId nextSpawnSequence reaper locks kills spawns sends]
def wait (c : ℕ) (w : World) : World :=
  let w' := w.tick env
  { w' with children := w'.children.modify c fun ch =>
      ((ch.exit (env.waitStatus w.ticks) w'.clock).reap) }

/-! ### Signals, spawning, events -/

/-- The result of `kill(pid, _)`: `ESRCH` is impossible for a pid in use. -/
def killError (pid : ℕ) (w : World) : Option Errno :=
  if pidInUse (w.tick env).children pid && (env.killError w.ticks = some .esrch) then none
  else env.killError w.ticks

@[simps processes nextId nextSpawnSequence reaper locks kills spawns sends]
def kill (site : KillSite) (p : Process) (signal : Signal) (w : World) : World :=
  let w' := w.tick env
  { w' with kills := ⟨site, p.id, p.pid, signal, p.child, w.killError env p.pid, w'.children⟩ :: w'.kills }

/-- Resolve the executable: `sh -c`, an absolute path, or a search of `PATH`. -/
def resolveExecutable (which : String → Option String) (config : ProcessConfig) :
    Option (String × List String) :=
  if config.shell then
    let full := if config.args = [] then config.command
      else config.command ++ " " ++ " ".intercalate config.args
    some ("sh", ["-c", full])
  else if config.command.toList.head? = some '/' then some (config.command, config.args)
  else (which config.command).map fun exe => (exe, config.args)

def spawnError (config : ProcessConfig) (w : World) : Option SpawnError :=
  match resolveExecutable (env.which w.ticks) config with
  | none => some .executableNotFound
  | some _ => if env.spawnFails w.ticks then some .spawnFailed else none

/-- The index of the child that the next successful spawn creates. -/
def nextChild (w : World) : ℕ := w.children.length

def nextPid (w : World) : ℕ := freePid (w.tick env).children (env.pid w.ticks)

/-- `spawn_process` / `spawn_internal`; on an error nothing but time passes. -/
def spawnProcess (site : SpawnSite) (id : ProcessId) (config : ProcessConfig)
    (resolvedDeps : List ProcessId) (w : World) : World :=
  let w' := w.tick env
  match resolveExecutable (env.which w.ticks) config with
  | none => w'
  | some program =>
    if env.spawnFails w.ticks then w'
    else { w' with
      children := w'.children ++ [⟨w.nextPid env, .running⟩]
      spawns := ⟨site, id, w.nextChild, program, config, resolvedDeps, w'.processes⟩ :: w'.spawns }

/-- Whether `Sender::send` succeeds. -/
def sendOk (w : World) : Bool := (w.tick env).receiverAlive

def send (event : ProcessExitEvent) (w : World) : World :=
  let w' := w.tick env
  if w.sendOk env then { w' with sends := ⟨event, w'.processes⟩ :: w'.sends } else w'

end World

end ProcessManager
