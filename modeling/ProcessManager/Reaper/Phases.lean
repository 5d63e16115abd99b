import ProcessManager.Manager.Dependency

/-! The first four phases of a reaper pass (`reaper/loop.rs`), one section per guard:
exit detection, supervisor cascades, removal and events, restart scheduling and the
restarts that are due. -/

namespace ProcessManager

/-- `should_restart` -/
def shouldRestart (trigger : RestartTrigger) (state : ProcessState) : Bool :=
  match trigger with
  | .crashOnly => state = .crashed
  | .always => true

/-! ### Phase 1: what an exit means for an entry -/

namespace Process

/-- The stable-uptime check at the top of Phase 1. -/
def stableUptime (now : Instant) (p : Process) : Process :=
  if p.state = .running then
    match p.restartState, getBackoffConfig p.config with
    | some rs, some b => { p with restartState := some (rs.checkStableUptime b now) }
    | _, _ => p
  else p

theorem stableUptime_eq (now : Instant) (p : Process) :
    p.stableUptime now = { p with restartState := (p.stableUptime now).restartState } := by
  unfold stableUptime
  split_ifs
  · split <;> rfl
  · rfl

@[simp] theorem stableUptime_id (now : Instant) (p : Process) : (p.stableUptime now).id = p.id := by
  rw [stableUptime_eq]

@[simp] theorem stableUptime_pid (now : Instant) (p : Process) :
    (p.stableUptime now).pid = p.pid := by
  rw [stableUptime_eq]

@[simp] theorem stableUptime_label (now : Instant) (p : Process) :
    (p.stableUptime now).label = p.label := by
  rw [stableUptime_eq]

@[simp] theorem stableUptime_config (now : Instant) (p : Process) :
    (p.stableUptime now).config = p.config := by
  rw [stableUptime_eq]

@[simp] theorem stableUptime_child (now : Instant) (p : Process) :
    (p.stableUptime now).child = p.child := by
  rw [stableUptime_eq]

@[simp] theorem stableUptime_state (now : Instant) (p : Process) :
    (p.stableUptime now).state = p.state := by
  rw [stableUptime_eq]

@[simp] theorem stableUptime_cascadeFlag (now : Instant) (p : Process) :
    (p.stableUptime now).cascadeFlag = p.cascadeFlag := by
  rw [stableUptime_eq]

@[simp] theorem stableUptime_spawnSequence (now : Instant) (p : Process) :
    (p.stableUptime now).spawnSequence = p.spawnSequence := by
  rw [stableUptime_eq]

@[simp] theorem stableUptime_resolvedDeps (now : Instant) (p : Process) :
    (p.stableUptime now).resolvedDeps = p.resolvedDeps := by
  rw [stableUptime_eq]

/-- `Stopped` for a successful exit, `Crashed` for any other. -/
def exitBase (status : ExitStatus) : ProcessState :=
  if status.success then .stopped else .crashed

def restartTriggered (p : Process) (status : ExitStatus) : Bool :=
  p.config.restartOnExit && shouldRestart p.config.restartTrigger (exitBase status)

/-- The backoff policy is exhausted. -/
def rateLimited (p : Process) : Bool :=
  match p.restartState, getBackoffConfig p.config with
  | some rs, some b => rs.isRateLimited b
  | _, _ => false

/-- The state the exit event carries. -/
def exitState (p : Process) (status : ExitStatus) : ProcessState :=
  if p.restartTriggered status && p.rateLimited then .failed else exitBase status

def willRestart (p : Process) (status : ExitStatus) : Bool :=
  p.restartTriggered status && p.exitState status ≠ .failed

/-- The record of an exit that no cascade caused. -/
def exitRecord (p : Process) (status : ExitStatus) : ExitedProcess where
  id := p.id
  label := p.label
  pid := p.pid
  restartOnExit := p.config.restartOnExit
  exitStatus := some status
  state := p.exitState status
  restartConfig := if p.willRestart status then some (p.config, p.label) else none

/-- The record of an exit of a flagged process: always `Stopped`, and restarted
whenever `restart_on_exit` is set. -/
def cascadeRecord (p : Process) (status : ExitStatus) : ExitedProcess where
  id := p.id
  label := p.label
  pid := p.pid
  restartOnExit := p.config.restartOnExit
  exitStatus := some status
  state := .stopped
  restartConfig := if p.config.restartOnExit then some (p.config, p.label) else none

end Process

/-- A crash that makes its supervisor strategy act on its label group. -/
structure CascadeOrigin where
  id : ProcessId
  label : Label
  spawnSequence : ℕ
  strategy : SupervisorStrategy
  deriving DecidableEq

def Process.cascadeOrigin (p : Process) : CascadeOrigin where
  id := p.id
  label := p.label
  spawnSequence := p.spawnSequence
  strategy := p.config.supervisorStrategy

/-- The three lists that Phase 1 fills. -/
structure Exits where
  toRemove : List ProcessId
  exited : List ExitedProcess
  cascadeOrigins : List CascadeOrigin

namespace Exits

def empty : Exits := ⟨[], [], []⟩

/-- Append the consequences of one exit. -/
def add (x : Exits) (p : Process) (status : ExitStatus) : Exits :=
  if p.cascadeFlag then
    { x with
      exited := x.exited ++ [p.cascadeRecord status]
      toRemove := if p.config.restartOnExit then x.toRemove else x.toRemove ++ [p.id] }
  else
    { exited := x.exited ++ [p.exitRecord status]
      toRemove := if p.exitState status = .failed || !p.restartTriggered status then
        x.toRemove ++ [p.id] else x.toRemove
      cascadeOrigins := if p.willRestart status && p.config.supervisorStrategy ≠ .oneForOne then
        x.cascadeOrigins ++ [p.cascadeOrigin] else x.cascadeOrigins }

end Exits

namespace World

variable (env : Env)

/-- The body of the Phase 1 loop for the entry under `id`. -/
def phase1Visit (now : Instant) (id : ProcessId) (x : Exits × World) : Exits × World :=
  let w := x.2.lock .exclusive id
  match w.processes.lookup id with
  | none => (x.1, w.unlock .exclusive id)
  | some p =>
    if p.state = .restarting then (x.1, w.unlock .exclusive id)
    else
      let p := p.stableUptime now
      let r := p.tryWaitExit env w
      match r.1 with
      | some status =>
        (x.1.add p status, (r.2.put id { p with cascadeFlag := false }).unlock .exclusive id)
      | none =>
        let p := if p.state = .starting then { p with state := .running } else p
        (x.1, (r.2.put id p).unlock .exclusive id)

def phase1 (now : Instant) (w : World) : Exits × World :=
  w.processes.keys.foldl (fun x id => phase1Visit env now id x) (.empty, w)

/-! ### Phase 1b: supervisor cascades -/

/-- The filter of the target search, for one origin. -/
def cascadeSelects (o : CascadeOrigin) (p : Process) : Bool :=
  p.id ≠ o.id && p.label = o.label && (p.state = .running || p.state = .starting) &&
    match o.strategy with
    | .oneForAll => true
    | .restForOne => o.spawnSequence < p.spawnSequence
    | .oneForOne => false

def cascadeTargets (origins : List CascadeOrigin) (w : World) : List ProcessId :=
  origins.flatMap fun o => w.processes.keysWhere (cascadeSelects o)

/-- Flag one target and signal it. -/
def cascadeKill (id : ProcessId) (w : World) : World :=
  let w := w.lock .exclusive id
  match w.processes.lookup id with
  | none => w.unlock .exclusive id
  | some p =>
    if p.pid = 0 then w.unlock .exclusive id
    else
      let p := { p with cascadeFlag := true, state := .stopping }
      ((p.sendSignal env .cascade p.config.killSignal w).2.put id p).unlock .exclusive id

def phase1b (origins : List CascadeOrigin) (w : World) : World :=
  let targets := w.cascadeTargets origins
  let w := origins.foldl (fun w _ => w.touch .shared w.processes.keys) w
  targets.foldl (fun w id => w.cascadeKill env id) w

/-! ### Phase 2: removal and events -/

/-- `DashMap::remove` -/
def removeEntry (id : ProcessId) (w : World) : World :=
  ((w.lock .exclusive id).remove id).unlock .exclusive id

/-- Send an event; the reaper thread returns when the channel is closed. -/
def sendOrReturn (event : ProcessExitEvent) (w : World) : World :=
  let w' := w.send env event
  if w.sendOk env then w' else { w' with reaper := .returned }

/-- Run a section unless the reaper thread has returned or panicked. -/
def ifRunning (f : World → World) (w : World) : World :=
  if w.reaper = .running then f w else w

def phase2 (x : Exits) (w : World) : World :=
  let w := x.toRemove.foldl (fun w id => w.removeEntry id) w
  x.exited.foldl (fun w e => w.ifRunning (sendOrReturn env e.event)) w

/-! ### Phase 3: schedule restarts -/

/-- The restart state after `record_restart` and scheduling; `none` when computing the
delay or the instant panics. -/
def scheduleState (now : Instant) (config : ProcessConfig) (rs : RestartState) : Option RestartState :=
  let rs := rs.recordRestart
  match getBackoffConfig config with
  | some b =>
    match rs.currentDelay b with
    | some delay =>
      if now + delay.nanos ≤ env.instantMax then some (rs.scheduleRestart (now + delay.nanos)) else none
    | none => none
  | none => some (rs.scheduleRestart now)

/-- The body of the Phase 3 loop. A panic leaves the counter raised and the state as it
was, and ends the reaper thread. -/
def scheduleEntry (now : Instant) (e : ExitedProcess) (w : World) : World :=
  match e.restartConfig with
  | none => w
  | some (config, _) =>
    let w := w.lock .exclusive e.id
    match w.processes.lookup e.id with
    | none => w.unlock .exclusive e.id
    | some p =>
      let w := p.release env w
      let p := { p with child := none }
      match p.restartState with
      | none => (w.put e.id { p with state := .restarting }).unlock .exclusive e.id
      | some rs =>
        match scheduleState env now config rs with
        | some rs' =>
          (w.put e.id { p with restartState := some rs', state := .restarting }).unlock .exclusive e.id
        | none =>
          { (w.put e.id { p with restartState := some rs.recordRestart }).unlock .exclusive e.id with
            reaper := .panicked }

def phase3 (now : Instant) (exited : List ExitedProcess) (w : World) : World :=
  exited.foldl (fun w e => w.ifRunning (scheduleEntry env now e)) w

/-! ### Phase 4: restarts that are due -/

def restartDue (now : Instant) (p : Process) : Bool :=
  p.state = .restarting &&
    match p.restartState with
    | some rs => rs.isEligibleForRestart now
    | none => false

/-- A failed respawn or a failed `Waiting` spawn: the guard is dropped, the entry is
removed, and the event is sent; a closed channel is only logged. -/
def failSpawn (id : ProcessId) (p : Process) (w : World) : World :=
  ((w.put id { p with state := .failed }).unlock .exclusive id).removeEntry id |>.send env
    (p.endEvent id .failed)

/-- The spawn of `perform_restart`, with the guard on the entry held. -/
def respawn (id : ProcessId) (p : Process) (w : World) : World :=
  let w' := w.spawnProcess env .performRestart id p.config p.resolvedDeps
  match w.spawnError env p.config with
  | some _ => w'.failSpawn env id p
  | none =>
    let w'' := if p.restartState.isSome then w'.tick env else w'
    (w''.put id { p with
      child := some w.nextChild
      pid := w.nextPid env
      state := .starting
      restartState := p.restartState.map
        fun rs => (rs.markStarted w''.clock).cancelPendingRestart }).unlock .exclusive id

/-- The change to `Waiting` of `perform_restart`. -/
def restartToWaiting (id : ProcessId) (p : Process) (resolved : List ProcessId) (w : World) : World :=
  let w := w.tick env
  (w.put id { p with
    state := .waiting
    waitingSince := some w.clock
    resolvedDeps := resolved
    cascadeFlag := false }).unlock .exclusive id

/-- `perform_restart`. The guard on `id` is held while the dependencies are resolved
and polled. -/
def performRestart (id : ProcessId) (w : World) : World :=
  let w := w.lock .exclusive id
  match w.processes.lookup id with
  | none => w.unlock .exclusive id
  | some p =>
    let deps := p.config.dependsOn
    if deps = [] then w.respawn env id p
    else
      let resolved := resolvedOrDefault w.processes deps
      let w := w.touch .shared (resolveVisits w.processes deps)
      if resolved.length = deps.length then
        let r := w.allDepsRunning env resolved
        if r.1 then r.2.respawn env id { p with resolvedDeps := resolved }
        else r.2.restartToWaiting env id p resolved
      else w.restartToWaiting env id p resolved

/-- The ids Phase 4 restarts. -/
def restartIds (now : Instant) (w : World) : List ProcessId :=
  w.processes.keysWhere (restartDue now)

def phase4 (now : Instant) (w : World) : World :=
  (w.restartIds now).foldl (fun w id => w.performRestart env id) (w.touch .shared w.processes.keys)

/-! ### What the phases change -/

variable {env} {now : Instant} {id : ProcessId} {p : Process} {w : World} {P : KillCall → Prop}

/-- A visit of Phase 1 skips the entry, finds an exit, or finds none. -/
theorem phase1Visit_cases (env : Env) (now : Instant) (id : ProcessId) (x : Exits) (w : World) :
    ((∀ p, w.processes.lookup id = some p → p.state = .restarting) ∧
        phase1Visit env now id (x, w) = (x, (w.lock .exclusive id).unlock .exclusive id)) ∨
      ∃ p w', w.processes.lookup id = some p ∧ p.state ≠ .restarting ∧
        ((∃ c status, p.child = some c ∧
            (w.lock .exclusive id).waitResult env c = .exited status ∧
            w' = (w.lock .exclusive id).tryWait env c ∧
            phase1Visit env now id (x, w) = (x.add (p.stableUptime now) status,
              (w'.put id { p.stableUptime now with cascadeFlag := false }).unlock .exclusive id)) ∨
          (OsStep ∅ (fun _ => False) (w.lock .exclusive id) w' ∧
            (∀ c ch, p.child = some c → w'.children[c]? = some ch → ch.isReaped = false) ∧
            phase1Visit env now id (x, w) = (x, (w'.put id
              (if p.state = .starting then { p.stableUptime now with state := .running }
                else p.stableUptime now)).unlock .exclusive id))) := by
  simp only [phase1Visit, lock_processes]
  split
  · next hnone => exact .inl ⟨by simp [hnone], rfl⟩
  · next p hp =>
    by_cases hrestarting : p.state = .restarting
    · refine .inl ⟨?_, by simp only [hrestarting, ↓reduceIte]⟩
      intro q hq
      rw [hp] at hq
      cases hq
      exact hrestarting
    · refine .inr ⟨p, ((p.stableUptime now).tryWaitExit env (w.lock .exclusive id)).2, hp,
        hrestarting, ?_⟩
      simp only [hrestarting, ↓reduceIte, Process.stableUptime_state]
      rcases Option.eq_none_or_eq_some p.child with hc | ⟨c, hc⟩
      · have htry : (p.stableUptime now).tryWaitExit env (w.lock .exclusive id) =
            (none, w.lock .exclusive id) := Process.tryWaitExit_of_no_child (by simp [hc])
        rw [htry]
        exact .inr ⟨.refl _, by simp [hc], rfl⟩
      · have htry : (p.stableUptime now).tryWaitExit env (w.lock .exclusive id) =
            (((w.lock .exclusive id).waitResult env c).status, (w.lock .exclusive id).tryWait env c) :=
          Process.tryWaitExit_of_child (by simp [hc])
        rw [htry]
        cases hresult : (w.lock .exclusive id).waitResult env c with
        | exited status => exact .inl ⟨c, status, hc, hresult, rfl, rfl⟩
        | running =>
          obtain ⟨htick, ch, hch, halive⟩ := Process.waitResult_running hresult
          refine .inr ⟨htick ▸ osStep_tick env _, ?_, rfl⟩
          intro c' ch' hc' hch'
          obtain rfl : c = c' := by simpa [hc] using hc'
          rw [htick, hch] at hch'
          cases hch'
          exact OsChild.isReaped_of_isRunning halive
        | error =>
          obtain ⟨htick, hch⟩ := Process.waitResult_error hresult
          refine .inr ⟨htick ▸ osStep_tick env _, ?_, rfl⟩
          intro c' ch' hc' hch'
          obtain rfl : c = c' := by simpa [hc] using hc'
          rw [htick] at hch'
          exact hch ch' hch'

/-- A cascade target that is gone or was never spawned is skipped; any other is flagged,
put into `Stopping` and signalled. -/
theorem cascadeKill_cases (env : Env) (id : ProcessId) (w : World) :
    ((∀ p, w.processes.lookup id = some p → p.pid = 0) ∧
        w.cascadeKill env id = (w.lock .exclusive id).unlock .exclusive id) ∨
      ∃ p, w.processes.lookup id = some p ∧ p.pid ≠ 0 ∧
        w.cascadeKill env id =
          (((w.lock .exclusive id).kill env .cascade { p with cascadeFlag := true, state := .stopping }
            p.config.killSignal.toSignal).put id
              { p with cascadeFlag := true, state := .stopping }).unlock .exclusive id := by
  simp only [cascadeKill, lock_processes]
  split
  · next hnone => exact .inl ⟨by simp [hnone], rfl⟩
  · next p hp =>
    split_ifs with hpid
    · refine .inl ⟨?_, rfl⟩
      intro q hq
      rw [hp] at hq
      cases hq
      exact hpid
    · refine .inr ⟨p, hp, hpid, ?_⟩
      simp only [Process.sendSignal, hpid, ↓reduceIte]

theorem removeEntry_lookup (id k : ProcessId) (w : World) :
    (w.removeEntry id).processes.lookup k = if k = id then none else w.processes.lookup k := by
  simp only [removeEntry, unlock_processes, remove_processes, lock_processes,
    AssocMap.lookup_erase_eq]

theorem mapStep_removeEntry (id : ProcessId) (w : World) :
    MapStep Kept ∅ P w (w.removeEntry id) := by
  unfold removeEntry
  exact (MapStep.lock kept_refl _ _ _).trans kept_trans ((MapStep.remove id _).trans kept_trans
    (.unlock kept_refl _ _ _))

theorem mapStep_sendOrReturn (event : ProcessExitEvent) (w : World) :
    MapStep Kept ∅ P w (w.sendOrReturn env event) := by
  have hsend : MapStep Kept ∅ P w (w.send env event) := .of_osStep kept_refl (osStep_send env event w)
  simp only [sendOrReturn]
  split_ifs
  · exact hsend
  · exact { hsend with reaper := .inr (.inl rfl) }

theorem mapStep_ifRunning {R : ProcessId → Process → Process → Prop} {S : Set ℕ} {f : World → World}
    (hR : ∀ id p, R id p p) (h : MapStep R S P w (f w)) : MapStep R S P w (w.ifRunning f) := by
  unfold ifRunning
  split_ifs
  · exact h
  · exact .of_osStep hR (.refl w)

/-- What a section keeps, it keeps under `ifRunning`. -/
theorem ifRunning_invariant {I : World → Prop} {f : World → World} (hw : I w)
    (h : w.reaper = .running → I (f w)) : I (w.ifRunning f) := by
  unfold ifRunning
  split_ifs with hr
  · exact h hr
  · exact hw

theorem mapStep_phase2 (x : Exits) (w : World) : MapStep Kept ∅ P w (w.phase2 env x) := by
  have hrefl : ∀ w, MapStep Kept ∅ P w w := fun w => .of_osStep kept_refl (.refl w)
  have htrans : ∀ w₁ w₂ w₃, MapStep Kept ∅ P w₁ w₂ → MapStep Kept ∅ P w₂ w₃ →
      MapStep Kept ∅ P w₁ w₃ := fun _ _ _ => .trans kept_trans
  exact htrans _ _ _
    (Fold.foldl_rel hrefl htrans (fun w id => mapStep_removeEntry id w) x.toRemove w)
    (Fold.foldl_rel hrefl htrans (fun w (e : ExitedProcess) =>
      mapStep_ifRunning kept_refl (mapStep_sendOrReturn e.event w)) x.exited _)

/-- Phase 3 skips an exit without restart, schedules one, or panics over its delay. -/
theorem scheduleEntry_cases (env : Env) (now : Instant) (e : ExitedProcess) (w : World) :
    (scheduleEntry env now e w = w ∧ e.restartConfig = none) ∨
    (scheduleEntry env now e w = (w.lock .exclusive e.id).unlock .exclusive e.id ∧
      w.processes.lookup e.id = none) ∨
    ∃ config label p w', e.restartConfig = some (config, label) ∧
      w.processes.lookup e.id = some p ∧ OsStep p.handles P (w.lock .exclusive e.id) w' ∧
      ((p.restartState = none ∧ scheduleEntry env now e w =
          (w'.put e.id { p with child := none, state := .restarting }).unlock .exclusive e.id) ∨
        (∃ rs rs', p.restartState = some rs ∧ scheduleState env now config rs = some rs' ∧
          scheduleEntry env now e w = (w'.put e.id { p with
            child := none
            restartState := some rs'
            state := .restarting }).unlock .exclusive e.id) ∨
        ∃ rs, p.restartState = some rs ∧ scheduleState env now config rs = none ∧
          scheduleEntry env now e w = { (w'.put e.id { p with
            child := none
            restartState := some rs.recordRestart }).unlock .exclusive e.id with
              reaper := .panicked }) := by
  cases hconfig : e.restartConfig with
  | none => exact .inl ⟨by simp only [scheduleEntry, hconfig], rfl⟩
  | some r =>
    obtain ⟨config, label⟩ := r
    cases hp : w.processes.lookup e.id with
    | none => exact .inr (.inl ⟨by simp only [scheduleEntry, hconfig, lock_processes, hp], rfl⟩)
    | some p =>
      refine .inr (.inr ⟨config, label, p, p.release env (w.lock .exclusive e.id), rfl, rfl,
        Process.osStep_release, ?_⟩)
      simp only [scheduleEntry, hconfig, lock_processes, hp]
      cases hrs : p.restartState with
      | none => exact .inl ⟨rfl, rfl⟩
      | some rs =>
        simp only
        cases hschedule : scheduleState env now config rs with
        | none => exact .inr (.inr ⟨rs, rfl, hschedule, rfl⟩)
        | some rs' => exact .inr (.inl ⟨rs, rs', rfl, hschedule, rfl⟩)

theorem scheduleEntry_lookup (env : Env) (now : Instant) {e : ExitedProcess} {k : ProcessId} (hk : k ≠ e.id)
    (w : World) : (scheduleEntry env now e w).processes.lookup k = w.processes.lookup k := by
  obtain ⟨heq, _⟩ | ⟨heq, _⟩ | ⟨config, label, p, w', _, hp, hstep, hcases⟩ :=
    scheduleEntry_cases (P := fun _ => True) env now e w
  · rw [heq]
  · rw [heq, unlock_processes, lock_processes]
  · obtain ⟨_, heq⟩ | ⟨rs, rs', _, _, heq⟩ | ⟨rs, _, _, heq⟩ := hcases <;> rw [heq] <;>
      simp only [unlock_processes, put_processes, AssocMap.lookup_replace, if_neg hk,
        hstep.processes, lock_processes]

theorem failSpawn_lookup (id k : ProcessId) (p : Process) (w : World) :
    (w.failSpawn env id p).processes.lookup k =
      if k = id then none else w.processes.lookup k := by
  have hsend := osStep_send (S := ∅) (P := fun _ => False) env (p.endEvent id .failed)
    (((w.put id { p with state := .failed }).unlock .exclusive id).removeEntry id)
  rw [failSpawn, hsend.processes, removeEntry_lookup]
  split_ifs with hk
  · rfl
  · rw [unlock_processes, put_processes, AssocMap.lookup_replace, if_neg hk]

theorem mapStep_failSpawn (id : ProcessId) (p : Process) (w : World) :
    MapStep Kept ∅ P w (w.failSpawn env id p) := by
  have hsend : OsStep ∅ P (((w.put id { p with state := .failed }).unlock .exclusive id).removeEntry id)
      (w.failSpawn env id p) := osStep_send env _ _
  refine { hsend with processes := ?_, reaper := .inl hsend.reaper }
  intro k q hq
  rw [failSpawn_lookup] at hq
  split_ifs at hq
  exact ⟨q, hq, rfl⟩

/-- A respawn ends with the entry in `Starting` or removed. -/
theorem respawn_cases (env : Env) (id : ProcessId) (p : Process) (w : World) :
    (∃ w', OsStep ∅ P w w' ∧ w.respawn env id p = w'.failSpawn env id p) ∨
      ∃ w' now, Spawned env .performRestart id p.config p.resolvedDeps w w' ∧
        w.respawn env id p = (w'.put id { p with
          child := some w.nextChild
          pid := w.nextPid env
          state := .starting
          restartState := p.restartState.map
            fun rs => (rs.markStarted now).cancelPendingRestart }).unlock .exclusive id := by
  simp only [respawn]
  split
  · next e he => exact .inl ⟨_, osStep_spawnProcess he, rfl⟩
  · next hok => exact .inr ⟨_, _, (Spawned.of_ok _ _ _ hok).tick_if _, rfl⟩

/-- `perform_restart` respawns an entry without dependencies or with running ones, and
sends any other back to `Waiting`. -/
theorem performRestart_cases (env : Env) (id : ProcessId) (w : World) :
    (w.processes.lookup id = none ∧
        w.performRestart env id = (w.lock .exclusive id).unlock .exclusive id) ∨
      ∃ p, w.processes.lookup id = some p ∧
        ((p.config.dependsOn = [] ∧
            w.performRestart env id = (w.lock .exclusive id).respawn env id p) ∨
          ∃ w₁ resolved, ((w.lock .exclusive id).touch .shared
              (resolveVisits w.processes p.config.dependsOn)) = w₁ ∧
            resolvedOrDefault w.processes p.config.dependsOn = resolved ∧
            ((resolved.length = p.config.dependsOn.length ∧
                (w₁.allDepsRunning env resolved).1 = true ∧ w.performRestart env id =
                  (w₁.allDepsRunning env resolved).2.respawn env id { p with resolvedDeps := resolved }) ∨
              w.performRestart env id =
                (w₁.allDepsRunning env resolved).2.restartToWaiting env id p resolved ∨
              w.performRestart env id = w₁.restartToWaiting env id p resolved)) := by
  simp only [performRestart, lock_processes]
  split
  · next h => exact .inl ⟨h, rfl⟩
  · next p hp =>
    refine .inr ⟨p, hp, ?_⟩
    split_ifs with hdeps hlength hrunning
    · exact .inl ⟨hdeps, rfl⟩
    · exact .inr ⟨_, _, rfl, rfl, .inl ⟨hlength, hrunning, rfl⟩⟩
    · exact .inr ⟨_, _, rfl, rfl, .inr (.inl rfl)⟩
    · exact .inr ⟨_, _, rfl, rfl, .inr (.inr rfl)⟩

/-! ### Sections that cannot end the thread -/

theorem reaper_phase1Visit (env : Env) (now : Instant) (id : ProcessId) (x : Exits × World) :
    (phase1Visit env now id x).2.reaper = x.2.reaper := by
  obtain ⟨_, heq⟩ | ⟨p, w', _, _, ⟨c, status, _, _, rfl, heq⟩ | ⟨hstep, _, heq⟩⟩ :=
    phase1Visit_cases env now id x.1 x.2 <;> rw [heq]
  · rfl
  · exact (osStep_tryWait (P := fun _ => True) env (Set.mem_univ c) _).reaper
  · exact hstep.reaper

theorem reaper_cascadeKill (env : Env) (id : ProcessId) (w : World) :
    (w.cascadeKill env id).reaper = w.reaper := by
  obtain ⟨_, heq⟩ | ⟨p, _, _, heq⟩ := cascadeKill_cases env id w <;> rw [heq] <;> rfl

theorem reaper_failSpawn (env : Env) (id : ProcessId) (p : Process) (w : World) :
    (w.failSpawn env id p).reaper = w.reaper :=
  (osStep_send (S := ∅) (P := fun _ => True) env (p.endEvent id .failed) _).reaper

theorem reaper_allDepsRunning (env : Env) (deps : List ProcessId) (w : World) :
    (w.allDepsRunning env deps).2.reaper = w.reaper := by
  refine allDepsRunning_invariant (I := fun w' => w'.reaper = w.reaper) (fun _ _ h => h)
    (fun _ _ h => h) ?_ deps rfl
  intro id p w' hw' _
  exact (Process.osStep_pollState (P := fun _ => True)).reaper.trans hw'

theorem reaper_respawn (env : Env) (id : ProcessId) (p : Process) (w : World) :
    (w.respawn env id p).reaper = w.reaper := by
  obtain ⟨w', hstep, heq⟩ | ⟨w', now, hspawn, heq⟩ :=
    respawn_cases (P := fun _ => True) env id p w <;> rw [heq]
  · exact (reaper_failSpawn env id p w').trans hstep.reaper
  · exact hspawn.reaper

theorem reaper_performRestart (env : Env) (id : ProcessId) (w : World) :
    (w.performRestart env id).reaper = w.reaper := by
  obtain ⟨_, heq⟩ | ⟨p, hp, ⟨_, heq⟩ | ⟨w₁, resolved, rfl, _, hcases⟩⟩ :=
    performRestart_cases env id w
  · rw [heq]; rfl
  · rw [heq]; exact reaper_respawn env id p _
  · obtain ⟨_, _, heq⟩ | heq | heq := hcases <;> rw [heq]
    · exact (reaper_respawn env id _ _).trans (reaper_allDepsRunning env resolved _)
    · exact reaper_allDepsRunning env resolved _
    · rfl

end World

end ProcessManager
