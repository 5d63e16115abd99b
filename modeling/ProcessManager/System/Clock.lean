import ProcessManager.Manager.GracePeriod
import ProcessManager.Reaper.Exits
import ProcessManager.System.DepsWait

/-! The clock never goes back: every section of every thread and every call leaves it where it
was or moves it on. -/

namespace ProcessManager

open Relation

variable {env : Env} {w : World} {p : Process}

namespace World

/-! ### System calls -/

theorem clock_le_send (env : Env) (event : ProcessExitEvent) (w : World) : w.clock ≤ (w.send env event).clock := by
  have htick := w.clock_le_tick env
  simp only [send]
  split_ifs <;> exact htick

theorem clock_le_sendOrReturn (env : Env) (event : ProcessExitEvent) (w : World) :
    w.clock ≤ (w.sendOrReturn env event).clock := by
  have hsend := clock_le_send env event w
  simp only [sendOrReturn]
  split_ifs <;> exact hsend

theorem clock_le_spawnProcess (env : Env) (site : SpawnSite) (id : ProcessId) (config : ProcessConfig)
    (deps : List ProcessId) (w : World) : w.clock ≤ (w.spawnProcess env site id config deps).clock := by
  have htick := w.clock_le_tick env
  simp only [spawnProcess]
  split
  · exact htick
  · split_ifs <;> exact htick

theorem clock_le_release (env : Env) (p : Process) (w : World) : w.clock ≤ (p.release env w).clock := by
  have hwait : ∀ c, w.clock ≤ (w.wait env c).clock := fun _ => w.clock_le_tick env
  unfold Process.release
  cases p.child with
  | none => exact w.clock_le_tick env
  | some c => exact (hwait c).trans (clock_le_tick env _)

theorem clock_le_allDepsRunning (env : Env) (deps : List ProcessId) (w : World) :
    w.clock ≤ (w.allDepsRunning env deps).2.clock := by
  refine allDepsRunning_invariant (I := fun w' : World => w.clock ≤ w'.clock) ?_ ?_ ?_ deps le_rfl
  · exact fun _ _ h => h
  · exact fun _ _ h => h
  · exact fun _ p w' h _ => h.trans (p.clock_le_pollState env w')

/-! ### Sections of the reaper -/

theorem clock_le_phase1Visit (env : Env) (now : Instant) (id : ProcessId) (x : Exits) (w : World) :
    w.clock ≤ (phase1Visit env now id (x, w)).2.clock := by
  have htry : ∀ p : Process, w.clock ≤ (p.tryWaitExit env (w.lock .exclusive id)).2.clock :=
    fun p => p.clock_le_tryWaitExit env (w.lock .exclusive id)
  simp only [phase1Visit, lock_processes]
  cases w.processes.lookup id with
  | none => exact le_rfl
  | some p =>
    by_cases hstate : p.state = .restarting
    · simp [hstate]
    · simp only [hstate, if_false]
      split <;> exact htry _

theorem clock_le_cascadeKill (env : Env) (id : ProcessId) (w : World) : w.clock ≤ (w.cascadeKill env id).clock := by
  simp only [cascadeKill, lock_processes]
  cases w.processes.lookup id with
  | none => exact le_rfl
  | some p =>
    simp only
    split_ifs
    · exact le_rfl
    · exact clock_le_sendSignal .cascade _ _ (w.lock .exclusive id)

theorem clock_le_scheduleEntry (env : Env) (now : Instant) (e : ExitedProcess) (w : World) :
    w.clock ≤ (scheduleEntry env now e w).clock := by
  have hrelease : ∀ p : Process, w.clock ≤ (p.release env (w.lock .exclusive e.id)).clock :=
    fun p => clock_le_release env p (w.lock .exclusive e.id)
  unfold scheduleEntry
  cases e.restartConfig with
  | none => exact le_rfl
  | some r =>
    simp only [lock_processes]
    cases w.processes.lookup e.id with
    | none => exact le_rfl
    | some p =>
      simp only
      cases p.restartState with
      | none => exact hrelease p
      | some rs =>
        simp only
        cases scheduleState env now r.1 rs <;> exact hrelease p

theorem clock_le_respawnHeld (env : Env) (id : ProcessId) (p : Process) (w : World) :
    w.clock ≤ (w.respawnHeld env id p).2.clock := by
  have hspawn := w.clock_le_spawnProcess env .performRestart id p.config p.resolvedDeps
  simp only [respawnHeld, respawn]
  cases w.spawnError env p.config with
  | some e => exact hspawn
  | none =>
    simp only
    split_ifs
    · exact hspawn.trans (clock_le_tick env _)
    · exact hspawn

theorem clock_le_performRestartHeld (env : Env) (id : ProcessId) (w : World) :
    w.clock ≤ (w.performRestartHeld env id).2.clock := by
  have hpoll : ∀ deps ids, w.clock ≤
      (((w.lock .exclusive id).touch .shared ids).allDepsRunning env deps).2.clock :=
    fun deps ids => clock_le_allDepsRunning env deps ((w.lock .exclusive id).touch .shared ids)
  simp only [performRestartHeld, lock_processes]
  cases w.processes.lookup id with
  | none => exact le_rfl
  | some p =>
    simp only
    split_ifs
    · exact clock_le_respawnHeld env id p (w.lock .exclusive id)
    · exact (hpoll _ _).trans (clock_le_respawnHeld env id _ _)
    · exact (hpoll _ _).trans (clock_le_tick env _)
    · exact clock_le_tick env _

theorem clock_le_spawnWaitingHeld (env : Env) (id : ProcessId) (w : World) :
    w.clock ≤ (w.spawnWaitingHeld env id).2.clock := by
  simp only [spawnWaitingHeld, spawnWaitingProcess, lock_processes]
  cases w.processes.lookup id with
  | none => exact le_rfl
  | some p =>
    have hspawn := (w.lock .exclusive id).clock_le_spawnProcess env .spawnWaiting id p.config p.resolvedDeps
    simp only
    cases (w.lock .exclusive id).spawnError env p.config with
    | some e => exact hspawn
    | none =>
      simp only
      split_ifs
      · exact hspawn.trans (clock_le_tick env _)
      · exact hspawn

theorem clock_le_readElapsed (p : Process) (w : World) : w.clock ≤ (w.readElapsed env p).clock := by
  unfold readElapsed
  split_ifs
  · exact clock_le_tick env w
  · exact le_rfl

theorem clock_failIfTerminal (id : ProcessId) (deps : List ProcessId) (v : Verdicts) (w : World) :
    (w.failIfTerminal id deps v).2.clock = w.clock := by
  simp only [failIfTerminal]
  split_ifs <;> rfl

theorem clock_spawnIfReady (id : ProcessId) (p : Process) (v : Verdicts) (w : World) :
    (w.spawnIfReady id p v).2.clock = w.clock := by
  simp only [spawnIfReady]
  split_ifs <;> rfl

theorem clock_checkResolved (id : ProcessId) (p : Process) (v : Verdicts) (w : World) :
    (w.checkResolved id p v).2.clock = w.clock := by
  simp only [checkResolved]
  split_ifs
  · rfl
  · exact clock_failIfTerminal id p.resolvedDeps v _

theorem clock_le_examineHeld (env : Env) (id : ProcessId) (v : Verdicts) (w : World) :
    w.clock ≤ (w.examineHeld env id v).2.2.clock := by
  have hread : ∀ p, w.clock ≤ ((w.lock .shared id).readElapsed env p).clock :=
    fun p => clock_le_readElapsed p (w.lock .shared id)
  simp only [examineHeld, lock_processes]
  cases w.processes.lookup id with
  | none => exact le_rfl
  | some p =>
    simp only
    split_ifs
    · exact hread p
    · exact hread p
    · exact (hread p).trans_eq (clock_checkResolved id p v _).symm

theorem clock_searchDeps (id : ProcessId) (p : Process) (deps : List DependencyRef) (v : Verdicts) (w : World) :
    (w.searchDeps id p deps v).2.2.clock = w.clock := by
  simp only [searchDeps]
  split_ifs
  · exact clock_failIfTerminal id p.resolvedDeps v _
  · rfl

theorem clock_extendEntry (id : ProcessId) (new : List ProcessId) (w : World) :
    (w.extendEntry id new).clock = w.clock := by
  simp only [extendEntry]
  split <;> rfl

theorem clock_recheck (id : ProcessId) (v : Verdicts) (w : World) : (w.recheck id v).2.clock = w.clock := by
  simp only [recheck]
  split
  · rfl
  · exact clock_spawnIfReady id _ v _

theorem clock_failWaitingHeld (id : ProcessId) (w : World) : (w.failWaitingHeld id).2.clock = w.clock := by
  simp only [failWaitingHeld]
  split <;> rfl

theorem clock_failFastCheck (id : ProcessId) (w : World) : (w.failFastCheck id).2.clock = w.clock := by
  simp only [failFastCheck]
  split <;> rfl

theorem clock_le_failRunningHeld (env : Env) (id : ProcessId) (p : Process) (w : World) :
    w.clock ≤ (w.failRunningHeld env id p).clock := by
  simp only [failRunningHeld]
  split
  · exact le_rfl
  · next q _ =>
    split_ifs
    · exact clock_le_sendSignal .failFast q _ ((w.lock .exclusive id).put id { q with state := .failed })
    · exact le_rfl

theorem clock_le_discard (env : Env) (event : ProcessExitEvent) (inLoop : Bool) (w : World) :
    w.clock ≤ (w.discard env event inLoop).clock := by
  unfold discard
  split_ifs
  · exact clock_le_sendOrReturn env event (w.removeEntry event.id)
  · exact clock_le_send env event (w.removeEntry event.id)

end World

/-- Time does not go back in a section of the reaper. -/
theorem ReaperPc.clock_le_next (env : Env) (pollInterval : ℕ) (pc : ReaperPc) (w : World) :
    w.clock ≤ (next env pollInterval pc w).2.clock := by
  cases pc with
  | asleep => exact ((Nat.le_add_right _ _).trans (w.le_clock_sleep env pollInterval)).trans (World.clock_le_tick env _)
  | detect now ids x =>
    cases ids with
    | nil => exact le_rfl
    | cons id ids => exact World.clock_le_phase1Visit env now id x w
  | search now x origins targets => cases origins <;> exact le_rfl
  | collect c ids found => cases ids <;> exact le_rfl
  | cascade now x ids =>
    cases ids with
    | nil => exact le_rfl
    | cons id ids => exact World.clock_le_cascadeKill env id w
  | remove now exited ids => cases ids <;> exact le_rfl
  | report now exited es =>
    cases es with
    | nil => exact le_rfl
    | cons e es => exact World.clock_le_sendOrReturn env e.event w
  | schedule now es =>
    cases es with
    | nil => exact le_rfl
    | cons e es => exact World.clock_le_scheduleEntry env now e w
  | restart ids =>
    cases ids with
    | nil => exact le_rfl
    | cons id ids => exact World.clock_le_performRestartHeld env id w
  | examine ids v =>
    cases ids with
    | nil => exact le_rfl
    | cons id ids =>
      have hexamine := World.clock_le_examineHeld env id v w
      simp only [next]
      split <;> exact hexamine
  | resolve id p deps ids v =>
    have hsearch := World.clock_searchDeps id p deps v w
    simp only [next]
    split_ifs <;> exact hsearch.ge
  | extend id new ids v => exact (World.clock_extendEntry id new w).ge
  | recheck id ids v => exact (World.clock_recheck id v w).ge
  | spawn ids toFail =>
    cases ids with
    | nil => exact le_rfl
    | cons id ids => exact World.clock_le_spawnWaitingHeld env id w
  | fail ids =>
    cases ids with
    | nil => exact le_rfl
    | cons id ids => exact (World.clock_failWaitingHeld id w).ge
  | failFast ids =>
    cases ids with
    | nil => exact le_rfl
    | cons id ids =>
      have hcheck := World.clock_failFastCheck id w
      simp only [next]
      split <;> exact hcheck.ge
  | failRunning id p ids => exact World.clock_le_failRunningHeld env id p w
  | discard event inLoop rest => exact World.clock_le_discard env event inLoop w

theorem ReaperPc.clock_le_step (env : Env) (pollInterval : ℕ) (s : ReaperPc × World) :
    s.2.clock ≤ (step env pollInterval s).2.clock := by
  unfold step
  split_ifs
  · exact s.1.clock_le_next env pollInterval s.2
  · exact le_rfl

namespace World

/-! ### Starts and queries -/

theorem clock_le_markStartedEntry (env : Env) (id : ProcessId) (w : World) :
    w.clock ≤ (w.markStartedEntry env id).clock := by
  unfold markStartedEntry
  split
  · split
    · exact clock_le_tick env w
    · exact le_rfl
  · exact le_rfl

theorem clock_le_startNow (env : Env) (id : ProcessId) (label : Label) (config : ProcessConfig)
    (deps : List ProcessId) (w : World) : w.clock ≤ (w.startNow env id label config deps).2.clock := by
  have hspawn := w.clock_le_spawnProcess env .start id config deps
  simp only [startNow]
  cases w.spawnError env config with
  | some e => exact hspawn
  | none =>
    have hinsert := hspawn.trans_eq (insert_clock env id (w.spawnedProcess env id label config deps)
      (w.spawnProcess env .start id config deps).bumpSequence).symm
    exact hinsert.trans (clock_le_markStartedEntry env id _)

theorem clock_le_start (env : Env) (label : Label) (config : ProcessConfig) (w : World) :
    w.clock ≤ (w.start env label config).2.clock := by
  have hpoll : ∀ deps, w.clock ≤ (({ w with nextId := w.nextId + 1 } : World).allDepsRunning env deps).2.clock :=
    fun deps => clock_le_allDepsRunning env deps { w with nextId := w.nextId + 1 }
  obtain heq | heq | ⟨_, rfl, resolved, _, ⟨_, _, heq⟩ | heq | heq⟩ :=
    start_cases env label config w <;> rw [heq]
  · exact (hpoll resolved).trans (clock_le_startNow env _ label config resolved _)
  · exact (hpoll resolved).trans (clock_le_tick env _)
  · exact clock_le_tick env _

theorem clock_le_startWithDeps (env : Env) (label : Label) (config : ProcessConfig) (w : World) :
    w.clock ≤ (w.startWithDeps env label config).2.clock := by
  have hstart := clock_le_start env label config w
  unfold startWithDeps
  generalize w.start env label config = r at hstart
  obtain ⟨e | id, w'⟩ := r
  · exact hstart
  · simp only
    split
    · split_ifs
      · exact hstart.trans (clock_le_tick env w')
      · exact hstart
    · exact hstart.trans (clock_le_tick env w')

theorem clock_le_depsPoll (env : Env) (id : ProcessId) (config : ProcessConfig) (deadline : Instant) (w : World) :
    w.clock ≤ (w.depsPoll env id config deadline).2.clock := by
  have htick := clock_le_tick env w
  simp only [depsPoll, tick_processes]
  split_ifs
  · split <;> exact htick
  · split
    · split
      · exact htick
      · exact htick.trans ((Nat.le_add_right _ _).trans ((w.tick env).le_clock_sleep env (millis 50)))
      · exact htick
    · exact htick

theorem clock_le_query (env : Env) (id : ProcessId) (w : World) : w.clock ≤ (w.query env id).clock := by
  unfold query
  split
  · next p _ => exact p.clock_le_pollState env w
  · exact le_rfl

theorem clock_le_signal (env : Env) (id : ProcessId) (signal : Signal) (w : World) :
    w.clock ≤ (w.sendSignal env id signal).2.clock := by
  unfold sendSignal
  split
  · exact le_rfl
  · split_ifs
    · exact le_rfl
    · split <;> exact clock_le_tick env w

/-! ### Stops -/

theorem clock_le_graceLoop (deadline : Instant) (fuel : ℕ) (p : Process) (w : World) :
    w.clock ≤ (w.graceLoop env deadline fuel p).2.2.clock := by
  induction fuel generalizing p w with
  | zero => exact le_rfl
  | succ fuel ih =>
    have htick := clock_le_tick env w
    have hpoll := p.clock_le_pollState env (w.tick env)
    have hsleep := (p.pollState env (w.tick env)).2.le_clock_sleep env (millis 50)
    simp only [graceLoop]
    split_ifs
    · exact (htick.trans hpoll).trans (((Nat.le_add_right _ _).trans hsleep).trans (ih _ _))
    · exact htick.trans hpoll
    · exact htick

theorem clock_le_reapLoop (deadline : Instant) (fuel : ℕ) (p : Process) (w : World) :
    w.clock ≤ (w.reapLoop env deadline fuel p).clock := by
  induction fuel generalizing w with
  | zero => exact le_rfl
  | succ fuel ih =>
    have htick := clock_le_tick env w
    have hwait := p.clock_le_tryWaitExit env (w.tick env)
    have hsleep := (p.tryWaitExit env (w.tick env)).2.le_clock_sleep env (millis 10)
    simp only [reapLoop]
    split_ifs
    · exact htick.trans hwait
    · exact (htick.trans hwait).trans (((Nat.le_add_right _ _).trans hsleep).trans (ih _))
    · exact htick

theorem clock_le_awaitKill (env : Env) (p : Process) (w : World) : w.clock ≤ (w.awaitKill env p).clock :=
  calc w.clock ≤ (w.tick env).clock := clock_le_tick env w
    _ ≤ ((w.tick env).reapLoop env ((w.tick env).clock + millis 500) (loopFuel 500 10) p).clock :=
      clock_le_reapLoop _ _ p _
    _ ≤ _ := p.clock_le_tryWaitExit env _
    _ ≤ (w.awaitKill env p).clock := clock_le_tick env _

theorem clock_le_stopEscalate (env : Env) (p : Process) (w : World) :
    w.clock ≤ (w.stopEscalate env p).2.clock := by
  have hkill : w.clock ≤ (p.sendSignal env .stopEscalation .sigkill w).2.clock := clock_le_sendSignal _ _ _ _
  simp only [stopEscalate, Process.forceKill]
  split
  · exact hkill.trans (clock_le_tick env _)
  · exact hkill
  · exact hkill.trans (clock_le_awaitKill env p _)

theorem clock_le_stopGrace (env : Env) (p : Process) (w : World) : w.clock ≤ (w.stopGrace env p).2.clock := by
  have hloop : w.clock ≤ ((w.tick env).graceLoop env ((w.tick env).clock + millis p.config.terminateTimeoutMs)
      (loopFuel p.config.terminateTimeoutMs 50) p).2.2.clock :=
    (clock_le_tick env w).trans (clock_le_graceLoop _ _ p (w.tick env))
  simp only [stopGrace]
  split_ifs
  · exact hloop.trans (clock_le_tick env _)
  · exact hloop.trans (clock_le_stopEscalate env _ _)

theorem clock_le_stopTaken (env : Env) (p : Process) (w : World) : w.clock ≤ (w.stopTaken env p).2.clock := by
  have hsignal : w.clock ≤ (p.markStopping.sendSignal env .stop p.config.killSignal w).2.clock :=
    clock_le_sendSignal _ _ _ _
  simp only [stopTaken]
  split
  · exact hsignal.trans (clock_le_tick env _)
  · exact hsignal
  · exact hsignal.trans (clock_le_stopGrace env _ _)

theorem clock_le_stopOne (env : Env) (id : ProcessId) (w : World) : w.clock ≤ (w.stopOne env id).2.clock := by
  unfold stopOne
  split
  · exact le_rfl
  · next p _ =>
    split_ifs
    · exact le_rfl
    · unfold sendFromHandle
      split_ifs
      · exact le_rfl
      · exact clock_le_send env _ (w.remove id)
    · exact clock_le_stopTaken env p (w.remove id)

theorem clock_le_stopFuel (env : Env) (fuel : ℕ) (id : ProcessId) (w : World) :
    w.clock ≤ (w.stopFuel env fuel id).2.clock := by
  induction fuel generalizing id w with
  | zero => exact le_rfl
  | succ fuel ih =>
    have hone := clock_le_stopOne env id w
    simp only [stopFuel]
    split_ifs
    · exact hone.trans (Fold.foldl_rel (r := fun w w' : World => w.clock ≤ w'.clock) (fun _ => le_rfl)
        (fun _ _ _ h h' => h.trans h') (fun w dep => ih dep w) _ _)
    · exact hone

theorem clock_le_stopManySweep (now : Instant) (entries : List (Process × Instant)) (w : World) :
    w.clock ≤ (w.stopManySweep env now entries).2.clock := by
  induction entries generalizing w with
  | nil => exact le_rfl
  | cons e entries ih =>
    have hpoll := e.1.clock_le_pollState env w
    simp only [stopManySweep]
    split_ifs
    · exact hpoll.trans (ih _)
    · exact hpoll.trans (ih _)
    · exact (hpoll.trans (clock_le_tick env _)).trans (ih _)

theorem clock_le_stopManyPoll (fuel : ℕ) (entries : List (Process × Instant)) (w : World) :
    w.clock ≤ (w.stopManyPoll env fuel entries).2.clock := by
  induction fuel generalizing entries w with
  | zero => exact le_rfl
  | succ fuel ih =>
    have hsweep : w.clock ≤ ((w.tick env).stopManySweep env (w.tick env).clock entries).2.clock :=
      (clock_le_tick env w).trans (clock_le_stopManySweep _ entries (w.tick env))
    simp only [stopManyPoll]
    split_ifs
    · exact le_rfl
    · exact hsweep.trans (ih _ _)
    · exact hsweep.trans (((Nat.le_add_right _ _).trans (le_clock_sleep env (millis 50) _)).trans (ih _ _))

theorem clock_le_stopManyEscalate (env : Env) (entries : List Process) (w : World) :
    w.clock ≤ (w.stopManyEscalate env entries).2.clock := by
  induction entries generalizing w with
  | nil => exact le_rfl
  | cons p entries ih =>
    have hkill : w.clock ≤ (p.sendSignal env .stopManyEscalation .sigkill w).2.clock := clock_le_sendSignal _ _ _ _
    simp only [stopManyEscalate, Process.forceKill]
    split
    · exact hkill.trans (ih _)
    · exact (hkill.trans (clock_le_tick env _)).trans (ih _)
    · exact hkill.trans (ih _)

theorem clock_le_stopMany (env : Env) (ids : List ProcessId) (w : World) :
    w.clock ≤ (w.stopMany env ids).2.clock := by
  have hawait : ∀ (entries : List Process) (w' : World),
      w'.clock ≤ (entries.foldl (fun w p => w.awaitKill env p) w').clock :=
    Fold.foldl_rel (r := fun w w' : World => w.clock ≤ w'.clock) (fun _ => le_rfl)
      (fun _ _ _ h h' => h.trans h') (fun w p => clock_le_awaitKill env p w)
  have hreinsert : ∀ (entries : List Process) (w' : World), w'.clock ≤ (w'.stopManyReinsert env entries).clock :=
    Fold.foldl_rel (r := fun w w' : World => w.clock ≤ w'.clock) (fun _ => le_rfl)
      (fun _ _ _ h h' => h.trans h') (fun _ _ => le_rfl)
  calc w.clock ≤ (w.stopManyTake env ids).2.clock := clock_le_stopManyTake ids w
    _ ≤ _ := clock_le_stopManySignal (w.stopManyTake env ids).1 _
    _ ≤ _ := clock_le_stopManyPoll (batchFuel ((w.stopManyTake env ids).2.stopManySignal env
      (w.stopManyTake env ids).1).1) _ _
    _ ≤ _ := clock_le_stopManyEscalate env _ _
    _ ≤ (w.stopManyKill env ids).2.clock := hawait _ _
    _ ≤ (w.stopMany env ids).2.clock := hreinsert _ _

/-! ### Restarts -/

theorem clock_le_restartReset (env : Env) (id : ProcessId) (w : World) :
    w.clock ≤ (w.restartReset env id).clock := by
  unfold restartReset
  split
  · exact le_rfl
  · next p _ => exact clock_le_release env p w

theorem clock_le_restartStore (env : Env) (id : ProcessId) (child pid : ℕ) (w : World) :
    w.clock ≤ (w.restartStore env id child pid).2.clock := by
  unfold restartStore
  split
  · exact le_rfl
  · simp only
    split_ifs
    · exact clock_le_tick env w
    · exact le_rfl

theorem clock_le_restartInPlace (env : Env) (id : ProcessId) (p : Process) (w : World) :
    w.clock ≤ (w.restartInPlace env id p).2.clock := by
  have hspawn := (clock_le_restartReset env id w).trans
    ((w.restartReset env id).clock_le_spawnProcess env .restart id p.config p.resolvedDeps)
  simp only [restartInPlace]
  split
  · exact hspawn
  · exact hspawn.trans (clock_le_restartStore env id _ _
      ((w.restartReset env id).spawnProcess env .restart id p.config p.resolvedDeps).bumpSequence)

theorem clock_le_restartInsert (env : Env) (id : ProcessId) (p : Process) (w : World) :
    w.clock ≤ (w.restartInsert env id p).2.clock := by
  have hspawn := w.clock_le_spawnProcess env .restart id p.config []
  simp only [restartInsert]
  split
  · exact hspawn
  · have hinsert := hspawn.trans_eq (insert_clock env id (w.spawnedProcess env id p.label p.config [])
      (w.spawnProcess env .restart id p.config []).bumpSequence).symm
    exact hinsert.trans (clock_le_markStartedEntry env id _)

theorem clock_le_restart (env : Env) (id : ProcessId) (w : World) : w.clock ≤ (w.restart env id).2.clock := by
  have hstop : w.clock ≤ (w.stop env id).2.clock := clock_le_stopFuel env _ id w
  unfold restart
  split
  · exact le_rfl
  · next p _ =>
    split_ifs
    · exact clock_le_restartInPlace env id p w
    · simp only
      split
      · exact hstop
      · exact hstop.trans (clock_le_restartInsert env id p _)

theorem clock_le_restartAll (env : Env) (ids : List ProcessId) (w : World) :
    w.clock ≤ (w.restartAll env ids).2.clock := by
  induction ids generalizing w with
  | nil => exact le_rfl
  | cons id ids ih =>
    have hrestart := clock_le_restart env id w
    simp only [restartAll]
    split
    · exact hrestart
    · exact hrestart.trans (ih _)

/-! ### Phases of a pass -/

theorem clock_le_foldl {α : Type} {f : World → α → World} (hf : ∀ w a, w.clock ≤ (f w a).clock) (as : List α)
    (w : World) : w.clock ≤ (as.foldl f w).clock :=
  Fold.foldl_rel (r := fun w w' : World => w.clock ≤ w'.clock) (fun _ => le_rfl) (fun _ _ _ h h' => h.trans h') hf as w

theorem clock_le_ifRunning {f : World → World} (h : w.clock ≤ (f w).clock) : w.clock ≤ (w.ifRunning f).clock :=
  ifRunning_invariant (I := fun w' : World => w.clock ≤ w'.clock) le_rfl fun _ => h

theorem clock_le_phase1 (env : Env) (now : Instant) (w : World) : w.clock ≤ (w.phase1 env now).2.clock :=
  Fold.foldl_rel (r := fun x y : Exits × World => x.2.clock ≤ y.2.clock) (fun _ => le_rfl)
    (fun _ _ _ h h' => h.trans h') (fun x id => clock_le_phase1Visit env now id x.1 x.2) _ (.empty, w)

theorem clock_le_phase1b (env : Env) (origins : List CascadeOrigin) (w : World) :
    w.clock ≤ (w.phase1b env origins).clock :=
  (clock_le_foldl (f := fun w (_ : CascadeOrigin) => w.touch .shared w.processes.keys) (fun _ _ => le_rfl) origins w).trans
    (clock_le_foldl (fun w id => clock_le_cascadeKill env id w) _ _)

theorem clock_le_phase2 (env : Env) (x : Exits) (w : World) : w.clock ≤ (w.phase2 env x).clock :=
  (clock_le_foldl (f := fun w id => w.removeEntry id) (fun _ _ => le_rfl) x.toRemove w).trans
    (clock_le_foldl (fun w e => clock_le_ifRunning (clock_le_sendOrReturn env (ExitedProcess.event e) w)) _ _)

theorem clock_le_phase3 (env : Env) (now : Instant) (exited : List ExitedProcess) (w : World) :
    w.clock ≤ (w.phase3 env now exited).clock :=
  clock_le_foldl (fun w e => clock_le_ifRunning (clock_le_scheduleEntry env now e w)) exited w

theorem clock_le_performRestart (env : Env) (id : ProcessId) (w : World) :
    w.clock ≤ (w.performRestart env id).clock := by
  rw [← finish_performRestartHeld]
  refine (clock_le_performRestartHeld env id w).trans ?_
  obtain ⟨_ | event, w'⟩ := w.performRestartHeld env id
  · exact le_rfl
  · exact clock_le_discard env event false w'

theorem clock_le_phase4 (env : Env) (now : Instant) (w : World) : w.clock ≤ (w.phase4 env now).clock :=
  clock_le_foldl (fun w id => clock_le_performRestart env id w) _ (w.touch .shared w.processes.keys)

/-- From the time that a pass reads on, its clock only goes forward. -/
theorem clock_le_beforePhase5 (env : Env) (pollInterval : ℕ) (w : World) :
    (w.awake env pollInterval).clock ≤ (w.beforePhase5 env pollInterval).clock :=
  calc (w.awake env pollInterval).clock ≤ (w.detect env pollInterval).2.clock := clock_le_phase1 env _ _
    _ ≤ (w.cascade env pollInterval).clock := clock_le_phase1b env _ _
    _ ≤ (w.passDetect env pollInterval).2.2.clock := clock_le_phase2 env _ _
    _ ≤ (w.afterPhase3 env pollInterval).clock := clock_le_ifRunning (clock_le_phase3 env _ _ _)
    _ ≤ (w.beforePhase5 env pollInterval).clock := clock_le_ifRunning (clock_le_phase4 env _ _)

theorem clock_resolveMore (id : ProcessId) (p : Process) (v : Verdicts) (w : World) :
    (w.resolveMore id p v).2.clock = w.clock := by
  simp only [resolveMore]
  split_ifs
  · rw [clock_failIfTerminal]
    rfl
  · rw [unlock_clock, clock_spawnIfReady]
    rfl

theorem clock_le_examine (env : Env) (id : ProcessId) (x : Verdicts × World) :
    x.2.clock ≤ (examine env id x).2.clock := by
  have hread : ∀ p, x.2.clock ≤ ((x.2.lock .shared id).readElapsed env p).clock :=
    fun p => clock_le_readElapsed p (x.2.lock .shared id)
  simp only [examine, lock_processes]
  cases x.2.processes.lookup id with
  | none => exact le_rfl
  | some p =>
    simp only
    split_ifs
    · exact hread p
    · exact (hread p).trans_eq (clock_resolveMore id p x.1 _).symm
    · exact (hread p).trans_eq (clock_checkResolved id p x.1 _).symm

/-! ### Passes -/

theorem clock_le_reaperPass (env : Env) (pollInterval : ℕ) (hr : w.reaper = .running) :
    w.clock ≤ (w.reaperPass env pollInterval).clock := by
  obtain ⟨pc, hsteps, _⟩ := ReaperPc.runs_reaperPass env pollInterval hr
  have hle : ∀ s : ReaperPc × World, ReflTransGen (fun s t => ReaperPc.step env pollInterval s = t) (.asleep, w) s →
      w.clock ≤ s.2.clock := by
    intro s hs
    induction hs with
    | refl => exact le_rfl
    | @tail s t _ hstep ih =>
      subst hstep
      exact ih.trans (ReaperPc.clock_le_step env pollInterval s)
  exact hle (pc, w.reaperPass env pollInterval) hsteps

end World

namespace System

theorem clock_le_step (env : Env) (pollInterval : ℕ) (s : System) (a : Action) :
    s.world.clock ≤ (s.step env pollInterval a).world.clock := by
  cases a with
  | start label config => exact World.clock_le_start env label config s.world
  | startWithDeps label config =>
    have hstart := World.clock_le_startWithDeps env label config s.world
    simp only [step]
    split <;> exact hstart
  | depsPoll n =>
    simp only [step]
    split
    · exact le_rfl
    · next c _ => exact World.clock_le_depsPoll env c.id c.config c.deadline s.world
  | stop id => exact World.clock_le_stopFuel env _ id s.world
  | stopLabel label => exact World.clock_le_stopMany env _ s.world
  | stopAll => exact World.clock_le_stopMany env _ s.world
  | stopTerminateOnExit => exact World.clock_le_stopMany env _ s.world
  | restart id => exact World.clock_le_restart env id s.world
  | restartLabel label => exact World.clock_le_restartAll env _ s.world
  | sendSignal id signal => exact World.clock_le_signal env id signal s.world
  | sendSignalLabel label signal =>
    exact Fold.foldl_rel (r := fun w w' : World => w.clock ≤ w'.clock) (fun _ => le_rfl)
      (fun _ _ _ h h' => h.trans h') (fun w id => World.clock_le_signal env id signal w) _ s.world
  | query id => exact World.clock_le_query env id s.world
  | pass =>
    simp only [step, onWorld, World.ifRunning]
    split_ifs with hr
    · exact World.clock_le_reaperPass env pollInterval hr
    · exact le_rfl

end System

end ProcessManager
