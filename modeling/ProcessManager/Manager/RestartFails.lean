import ProcessManager.Manager.Respawn

/-! What a `restart` leaves when the replacement cannot be spawned. Outside `Restarting` the old
entry is gone by then, and only the stop of a process in `Waiting` tells anybody. -/

namespace ProcessManager

open Relation

/-- The restart counter; it is `0` for a process that is never restarted. -/
def Process.restarts (p : Process) : UInt32 := p.restartState.elim 0 RestartState.restartCount

namespace World

/-- The process is still tracked, with its label, configuration and restart counter. -/
def StillTracked (id : ProcessId) (p : Process) (w : World) : Prop :=
  ∃ q, w.processes.lookup id = some q ∧ q.label = p.label ∧ q.config = p.config ∧ q.restarts = p.restarts

/-- Between the two states exactly one event was sent for `id`. -/
def Reported (id : ProcessId) (w w' : World) : Prop := (w.sentFor id w').length = 1

/-- The process that was `p` in `w` is still tracked in `w'`, or its end was reported. -/
def AccountedFor (id : ProcessId) (p : Process) (w w' : World) : Prop :=
  w'.StillTracked id p ∨ Reported id w w'

/-- A `restart` that cannot spawn the replacement accounts for the process. -/
def RestartAccounts (env : Env) (id : ProcessId) (w : World) : Prop :=
  ∀ p (e : SpawnError), w.processes.lookup id = some p →
    (w.restart env id).1 = .error (e.toManagerError p.config.command) → AccountedFor id p w (w.restart env id).2

/-- The moment at which a `restart` spawns the replacement of `p`. -/
def respawnAt (env : Env) (id : ProcessId) (p : Process) (w : World) : World :=
  if p.state = .restarting then w.restartReset env id else (w.stop env id).2

/-- No replacement fails to be spawned, or the process is `Restarting` and has not been restarted,
or it is `Waiting` and its removal is reported. -/
def RestartHarmless (env : Env) (id : ProcessId) (w : World) : Prop :=
  ∀ p, w.processes.lookup id = some p → w.SignalsRefused env id ∨
    (w.respawnAt env id p).spawnError env p.config = none ∨
    (p.state = .restarting ∧ p.restarts = 0) ∨ w.ReportsWaiting env p

variable {env : Env} {w w' : World} {id i j : ProcessId} {p q : Process} {e : SpawnError} {label : Label}

/-! ### The branches of a restart -/

theorem toManagerError_ne_signalFailed (command : String) (pid : ℕ) (errno : Errno) :
    e.toManagerError command ≠ .signalFailed pid errno := by
  cases e <;> nofun

theorem restart_of_restarting (hp : w.processes.lookup id = some p) (hstate : p.state = .restarting) :
    w.restart env id = w.restartInPlace env id p := by
  simp only [restart, hp, hstate, ↓reduceIte]

/-- Outside `Restarting` a refused signal ends the restart; otherwise the process is gone. -/
theorem restart_of_stopped (env : Env) (hp : w.processes.lookup id = some p) (hstate : p.state ≠ .restarting) :
    (w.SignalsRefused env id ∧ (∃ pid errno, (w.restart env id).1 = .error (.signalFailed pid errno)) ∧
      (w.restart env id).2 = (w.stop env id).2) ∨
    ¬ w.SignalsRefused env id ∧ w.restart env id = (w.stop env id).2.restartInsert env id p := by
  by_cases hrefused : w.SignalsRefused env id
  · obtain ⟨pid, errno, hfailed⟩ := (stop_failed_iff env id w).mpr hrefused
    refine .inl ⟨hrefused, ⟨pid, errno, ?_⟩, ?_⟩ <;> simp only [restart, hp, if_neg hstate, hfailed]
  · have hok := (stop_ok_iff env hp).mpr hrefused
    refine .inr ⟨hrefused, ?_⟩
    simp only [restart, hp, if_neg hstate, hok]

/-- In place the entry stays, with its counter reset, whether the spawn succeeds or not. -/
theorem restartInPlace_keeps (env : Env) (hp : w.processes.lookup id = some p) :
    ∃ q, (w.restartInPlace env id p).2.processes.lookup id = some q ∧ q.label = p.label ∧
      q.config = p.config ∧ q.restarts = 0 ∧ (p.state = .restarting → q.state ≠ .waiting) := by
  cases hspawn : (w.restartReset env id).spawnError env p.config with
  | some e =>
    refine ⟨{ p with child := none, restartState := p.restartState.map .reset }, ?_, rfl, rfl, ?_, ?_⟩
    · rw [restartInPlace_of_error hspawn, spawnProcess_processes, restartReset_lookup env hp]
    · show (p.restartState.map RestartState.reset).elim 0 RestartState.restartCount = 0
      cases p.restartState <;> rfl
    · rintro hstate hwaiting
      exact absurd (hstate.symm.trans hwaiting) (by decide)
  | none =>
    obtain ⟨_, now, hentry⟩ := restartInPlace_of_ok hp hspawn
    refine ⟨_, hentry, rfl, rfl, ?_, fun _ => nofun⟩
    show (p.restartState.map fun rs => rs.reset.markStarted now).elim 0 RestartState.restartCount = 0
    cases p.restartState <;> rfl

/-- A new entry has never been restarted. -/
theorem restartInsert_keeps (id : ProcessId) (hok : w.spawnError env p.config = none) :
    ∃ q, (w.restartInsert env id p).2.processes.lookup id = some q ∧ q.label = p.label ∧
      q.config = p.config ∧ q.restarts = 0 ∧ q.state ≠ .waiting := by
  obtain ⟨_, now, hentry⟩ := restartInsert_of_ok id hok
  refine ⟨_, hentry, rfl, rfl, ?_, nofun⟩
  simp only [Process.restarts, spawnedProcess]
  split_ifs <;> rfl

theorem untouched_restartInsert_of_error (id i : ProcessId) (hspawn : w.spawnError env p.config = some e) :
    Untouched i w (w.restartInsert env id p).2 := by
  rw [restartInsert_of_error hspawn]
  exact .of_sends_eq (congrArg (AList.lookup i) (spawnProcess_processes ..)) (spawnProcess_sends ..)

/-! ### One restart -/

/-- In place nothing is sent, and the counter is gone. -/
theorem accountedFor_restartInPlace (env : Env) (hp : w.processes.lookup id = some p) :
    AccountedFor id p w (w.restartInPlace env id p).2 ↔ p.restarts = 0 := by
  obtain ⟨q, hq, hlabel, hconfig, hcount, _⟩ := restartInPlace_keeps env hp
  constructor
  · rintro (⟨q', hq', _, _, hsame⟩ | hreported)
    · obtain rfl : q = q' := Option.some.inj (hq.symm.trans hq')
      rw [← hsame, hcount]
    · rw [Reported, sentFor_of_eq (restartInPlace_sends env id p w)] at hreported
      cases hreported
  · exact fun hzero => .inl ⟨q, hq, hlabel, hconfig, hcount.trans hzero.symm⟩

/-- After a stop nothing is left but what the stop has sent. -/
theorem accountedFor_restartInsert (hp : w.processes.lookup id = some p)
    (hspawn : (w.stop env id).2.spawnError env p.config = some e) :
    AccountedFor id p w ((w.stop env id).2.restartInsert env id p).2 ↔ w.ReportsWaiting env p := by
  obtain ⟨hgone, hsuffix, hsent⟩ := stop_spec env hp
  have hafter := untouched_restartInsert_of_error id id hspawn
  have hsame : w.sentFor id ((w.stop env id).2.restartInsert env id p).2 = w.sentFor id (w.stop env id).2 := by
    rw [sentFor_trans id hsuffix hafter.sends, hafter.silent, List.append_nil]
  rw [AccountedFor, Reported, hsame]
  constructor
  · rintro (⟨q, hq, _⟩ | hreported)
    · rw [hafter.lookup, hgone] at hq
      cases hq
    · obtain ⟨_, hreports⟩ | ⟨hnone, _⟩ := hsent
      · exact hreports
      · rw [hnone] at hreported
        cases hreported
  · intro hreports
    obtain ⟨hone, _⟩ | ⟨_, hnot⟩ := hsent
    · exact .inr hone
    · exact absurd hreports hnot

theorem not_signalsRefused_of_restarting (hp : w.processes.lookup id = some p) (hstate : p.state = .restarting) :
    ¬ w.SignalsRefused env id := by
  rintro ⟨p', hp', hstate', _⟩
  obtain rfl : p = p' := Option.some.inj (hp.symm.trans hp')
  exact hstate' hstate

theorem not_reportsWaiting_of_restarting (hstate : p.state = .restarting) : ¬ w.ReportsWaiting env p := fun h =>
  absurd (hstate.symm.trans h.1) (by decide)

theorem accounts_of_restarting (env : Env) (hp : w.processes.lookup id = some p) (hstate : p.state = .restarting) :
    (∀ e : SpawnError, (w.restart env id).1 = .error (e.toManagerError p.config.command) →
      AccountedFor id p w (w.restart env id).2) ↔
      (w.respawnAt env id p).spawnError env p.config = none ∨ p.restarts = 0 := by
  have haccounted := accountedFor_restartInPlace env hp
  rw [restart_of_restarting hp hstate, respawnAt, if_pos hstate]
  cases hspawn : (w.restartReset env id).spawnError env p.config with
  | some e =>
    rw [restartInPlace_of_error hspawn] at haccounted ⊢
    simp only [haccounted, reduceCtorEq, false_or]
    exact ⟨fun h => h e rfl, fun h _ _ => h⟩
  | none =>
    refine ⟨fun _ => .inl rfl, fun _ e' herror => ?_⟩
    rw [(restartInPlace_of_ok hp hspawn).1] at herror
    cases herror

theorem accounts_of_stopped (env : Env) (hp : w.processes.lookup id = some p) (hstate : p.state ≠ .restarting) :
    (∀ e : SpawnError, (w.restart env id).1 = .error (e.toManagerError p.config.command) →
      AccountedFor id p w (w.restart env id).2) ↔
      w.SignalsRefused env id ∨ (w.respawnAt env id p).spawnError env p.config = none ∨ w.ReportsWaiting env p := by
  rw [respawnAt, if_neg hstate]
  obtain ⟨hrefused, ⟨pid, errno, herror⟩, _⟩ | ⟨hallowed, hrestart⟩ := restart_of_stopped env hp hstate
  · refine ⟨fun _ => .inl hrefused, fun _ e' herror' => ?_⟩
    have hsame := Except.error.inj (herror.symm.trans herror')
    exact absurd hsame.symm (toManagerError_ne_signalFailed p.config.command pid errno)
  · rw [hrestart]
    cases hspawn : (w.stop env id).2.spawnError env p.config with
    | some e =>
      have haccounted := accountedFor_restartInsert hp hspawn
      rw [restartInsert_of_error hspawn] at haccounted ⊢
      simp only [haccounted, hallowed, reduceCtorEq, false_or]
      exact ⟨fun h => h e rfl, fun h _ _ => h⟩
    | none =>
      refine ⟨fun _ => .inr (.inl rfl), fun _ e' herror => ?_⟩
      rw [(restartInsert_of_ok id hspawn).1] at herror
      cases herror

/-- A failed respawn accounts for the process exactly where the entry outlives it with the same
counter, or its removal was reported. -/
theorem restartAccounts_iff_harmless (env : Env) (id : ProcessId) (w : World) :
    w.RestartAccounts env id ↔ w.RestartHarmless env id := by
  unfold RestartAccounts RestartHarmless
  refine forall_congr' fun p => ?_
  by_cases hp : w.processes.lookup id = some p
  swap
  · exact ⟨fun _ h => absurd h hp, fun _ _ h => absurd h hp⟩
  have hswap : (∀ e : SpawnError, w.processes.lookup id = some p →
      (w.restart env id).1 = .error (e.toManagerError p.config.command) → AccountedFor id p w (w.restart env id).2) ↔
      ∀ e : SpawnError, (w.restart env id).1 = .error (e.toManagerError p.config.command) →
        AccountedFor id p w (w.restart env id).2 := ⟨fun h e => h e hp, fun h e _ => h e⟩
  rw [hswap, imp_iff_right hp]
  by_cases hstate : p.state = .restarting
  · rw [accounts_of_restarting env hp hstate]
    simp [not_signalsRefused_of_restarting hp hstate, not_reportsWaiting_of_restarting hstate, hstate]
  · rw [accounts_of_stopped env hp hstate]
    simp [hstate]

/-- The executable is not found. -/
def missing : Env := { Env.calm with which := fun _ _ => none }

/-- A running process, with a reaper that would report its end. -/
def runningWeb : World := (World.withReaper.start .calm ⟨"web"⟩ { command := "web" }).2

/-- The command whose executable a restart has not found. -/
def notFoundCommand : Except ManagerError ProcessId → Option String
  | .error (.executableNotFound command) => some command
  | _ => none

theorem eq_of_notFoundCommand {r : Except ManagerError ProcessId} {command : String}
    (h : notFoundCommand r = some command) : r = .error (.executableNotFound command) := by
  unfold notFoundCommand at h
  split at h
  · cases h
    rfl
  · cases h

/-- Its restart fails after the stop: it is gone, and nobody is told. -/
theorem not_restarts_account :
    notFoundCommand (runningWeb.restart missing ⟨1⟩).1 = some "web" ∧
      (runningWeb.restart missing ⟨1⟩).2.processes.keys = [] ∧
      (runningWeb.restart missing ⟨1⟩).2.sends = [] ∧ ¬ runningWeb.RestartAccounts missing ⟨1⟩ := by
  have hfailed : notFoundCommand (runningWeb.restart missing ⟨1⟩).1 = some "web" := by decide +kernel
  have hkeys : (runningWeb.restart missing ⟨1⟩).2.processes.keys = [] := by decide +kernel
  have hafter : (runningWeb.restart missing ⟨1⟩).2.sends = [] := by decide +kernel
  have hbefore : runningWeb.sends = [] := by decide +kernel
  have hcommand : (runningWeb.processes.lookup ⟨1⟩).map (fun p => p.config.command) = some "web" := by
    decide +kernel
  refine ⟨hfailed, hkeys, hafter, fun haccounts => ?_⟩
  obtain ⟨p, hp, hcommand⟩ := Option.map_eq_some_iff.mp hcommand
  have herror := eq_of_notFoundCommand hfailed
  rw [← hcommand] at herror
  rcases haccounts p .executableNotFound hp herror with ⟨q, hq, _⟩ | hreported
  · have hmem := AssocMap.mem_of_lookup hq
    rw [hkeys] at hmem
    exact List.not_mem_nil hmem
  · rw [Reported, sentFor_of_eq (hafter.trans hbefore.symm)] at hreported
    cases hreported

end World

end ProcessManager
