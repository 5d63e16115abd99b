import ProcessManager.System.EvolutionCalls

/-! Passes and runs evolve the state, so what is said of an id stays true from any state of a run to
every later one. -/

namespace ProcessManager

variable {env : Env} {w w' : World} {id i : ProcessId} {p q : Process}

namespace World

/-! ### Phases 1 to 3 -/

theorem evolves_phase1Visit (env : Env) (now : Instant) (i : ProcessId) (x : Exits × World) :
    Evolves x.2 (phase1Visit env now i x).2 := by
  have hlock := Evolves.lock .exclusive i x.2
  simp only [phase1Visit, lock_processes]
  split
  · exact hlock.trans (.unlock _ _ _)
  · next p hp =>
    have hstable := Process.Continues.stableUptime now p
    have htry : OsStep _ (fun _ => False) (x.2.lock .exclusive i)
        ((p.stableUptime now).tryWaitExit env (x.2.lock .exclusive i)).2 := Process.osStep_tryWaitExit
    have hput : ∀ q, p.Continues q → Evolves x.2
        ((((p.stableUptime now).tryWaitExit env (x.2.lock .exclusive i)).2.put i q).unlock .exclusive i) := by
      intro q hq
      have hp' : ((p.stableUptime now).tryWaitExit env (x.2.lock .exclusive i)).2.processes.lookup i = some p :=
        htry.processes ▸ hp
      exact ((hlock.trans (.os htry (Process.tryWaitExit_sends ..))).trans (.put hp' hq)).trans (.unlock _ _ _)
    split_ifs
    · exact hlock.trans (.unlock _ _ _)
    all_goals split
    · exact hput _ (hstable.trans ⟨⟨rfl, rfl, rfl, rfl⟩, rfl⟩)
    · exact hput _ (hstable.trans ⟨⟨rfl, rfl, rfl, rfl⟩, rfl⟩)
    · exact hput _ (hstable.trans ⟨⟨rfl, rfl, rfl, rfl⟩, rfl⟩)
    · exact hput _ hstable

theorem evolves_phase1 (env : Env) (now : Instant) (w : World) : Evolves w (w.phase1 env now).2 :=
  Fold.foldl_invariant (I := fun x : Exits × World => Evolves w x.2) (.refl w)
    fun x i _ hx => hx.trans (evolves_phase1Visit env now i x)

theorem evolves_cascadeKill (env : Env) (hfiled : w.Filed) (i : ProcessId) : Evolves w (w.cascadeKill env i) := by
  have hlock := Evolves.lock .exclusive i w
  obtain ⟨_, heq⟩ | ⟨p, hp, _, heq⟩ := cascadeKill_cases env i w <;> rw [heq]
  · exact hlock.trans (.unlock _ _ _)
  · have hkill : Evolves w ((w.lock .exclusive i).kill env .cascade
        { p with cascadeFlag := true, state := .stopping } p.config.killSignal.toSignal) := by
      refine hlock.after_os (S := ∅) (P := fun k => k.id = i) (osStep_kill env (hfiled i p hp).1) ?_ (.refl _)
      rintro k rfl
      exact .of_lookup hp trivial
    have hput := hkill.trans (.put (q := { p with cascadeFlag := true, state := .stopping }) hp
      ⟨⟨rfl, rfl, rfl, rfl⟩, rfl⟩)
    exact hput.trans (.unlock _ _ _)

theorem evolves_phase1b (env : Env) (hfiled : w.Filed) (origins : List CascadeOrigin) :
    Evolves w (w.phase1b env origins) := by
  have htouch : Evolves w (origins.foldl (fun w _ => w.touch .shared w.processes.keys) w) :=
    .foldl (f := fun w _ => w.touch .shared w.processes.keys) (fun w _ => .touch _ _ w) origins w
  exact htouch.trans (.foldl_filed (htouch.filed hfiled) (fun _ i h => evolves_cascadeKill env h i) _)

/-- Phase 2 reports exits of entries of the first world. -/
theorem evolves_phase2 {x : Exits} (h : Evolves w w')
    (hx : ∀ e ∈ x.exited, w.Concerns e.id e.event.Describes) : Evolves w (w'.phase2 env x) := by
  have hremoved : Evolves w (x.toRemove.foldl (fun w i => w.removeEntry i) w') :=
    h.trans (.foldl (fun w i => .removeEntry i w) _ _)
  refine Fold.foldl_invariant (I := Evolves w) hremoved fun w₁ e he hw₁ => ?_
  exact ifRunning_invariant hw₁ fun _ => hw₁.sendOrReturn (hx e he)

theorem evolves_passDetect (env : Env) (pollInterval : ℕ) (hfiled : w.Filed) :
    Evolves w (w.passDetect env pollInterval).2.2 := by
  have hawake : Evolves w (w.awake env pollInterval) := (Evolves.sleep env _ w).trans (.tick env _)
  have hdetect : Evolves w (w.detect env pollInterval).2 := hawake.trans (evolves_phase1 env _ _)
  have hcascade : Evolves w (w.cascade env pollInterval) :=
    hdetect.trans (evolves_phase1b env (hdetect.filed hfiled) _)
  refine evolves_phase2 hcascade fun e he => ?_
  obtain ⟨p, status, hp, _, hrecord⟩ :=
    (phase1State_detect env pollInterval fun i q hq => (hfiled i q hq).1).recorded e he
  refine .of_lookup hp ?_
  rw [hrecord.record]
  exact .of_alike (Process.Continues.stableUptime _ p).toAlike ((p.stableUptime _).describes_record status)

theorem evolves_scheduleEntry (env : Env) (now : Instant) (e : ExitedProcess) (w : World) :
    Evolves w (scheduleEntry env now e w) := by
  have hlock := Evolves.lock .exclusive e.id w
  unfold scheduleEntry
  split
  · exact .refl w
  · simp only [lock_processes]
    split
    · exact hlock.trans (.unlock _ _ _)
    · next p hp =>
      have hrelease : OsStep p.handles (fun _ => False) (w.lock .exclusive e.id)
          (p.release env (w.lock .exclusive e.id)) := Process.osStep_release
      have hput : ∀ q, p.Continues q →
          Evolves w (((p.release env (w.lock .exclusive e.id)).put e.id q).unlock .exclusive e.id) := by
        intro q hq
        have hp' : (p.release env (w.lock .exclusive e.id)).processes.lookup e.id = some p :=
          hrelease.processes ▸ hp
        exact ((hlock.trans (.os hrelease (Process.release_sends env p _))).trans (.put hp' hq)).trans
          (.unlock _ _ _)
      split
      · exact hput _ ⟨⟨rfl, rfl, rfl, rfl⟩, rfl⟩
      · split
        · exact hput _ ⟨⟨rfl, rfl, rfl, rfl⟩, rfl⟩
        · exact (hput { p with child := none, restartState := _ } ⟨⟨rfl, rfl, rfl, rfl⟩, rfl⟩).trans (.ended _ _)

theorem evolves_phase3 (env : Env) (now : Instant) (exited : List ExitedProcess) (w : World) :
    Evolves w (w.phase3 env now exited) :=
  .foldl (fun w e => .ifRunning (evolves_scheduleEntry env now e) w) exited w

/-! ### Phases 4 to 6 -/

/-- The entry under `id`, if there is one, is `p` up to what may change. -/
def Holding (w : World) (id : ProcessId) (p : Process) : Prop :=
  ∀ q, w.processes.lookup id = some q → q.Continues p

theorem Holding.of_lookup (hp : w.processes.lookup i = some p) : w.Holding i p :=
  fun q hq => Option.some.inj (hq.symm.trans hp) ▸ .refl q

theorem Holding.of_processes (h : w.Holding i p) (hmap : w'.processes = w.processes) : w'.Holding i p :=
  fun q hq => h q (hmap ▸ hq)

theorem evolves_failSpawn (env : Env) (hp : w.Concerns i fun q => q.Alike p) (hheld : w'.Holding i p)
    (h : Evolves w w') : Evolves w (w'.failSpawn env i p) := by
  have hput : Evolves w (w'.put i { p with state := .failed }) :=
    h.trans (.put_of fun q hq => (hheld q hq).trans ⟨⟨rfl, rfl, rfl, rfl⟩, rfl⟩)
  refine ((hput.trans (.unlock .exclusive i _)).trans (.removeEntry i _)).send ?_
  exact hp.imp (fun ⟨q, hq, halike⟩ => ⟨q, hq, .of_alike halike (p.describes_endEvent i rfl)⟩) fun hnew => hnew

/-- The entry is respawned as it was found, or removed. -/
theorem evolves_respawn (env : Env) (hp : w.Concerns i fun q => q.Alike p) (hheld : w'.Holding i p)
    (h : Evolves w w') : Evolves w (w'.respawn env i p) := by
  have hspawn : Evolves w (w'.spawnProcess env .performRestart i p.config p.resolvedDeps) :=
    h.spawnProcess _ _ (hp.imp (fun ⟨q, hq, halike⟩ => ⟨q, hq, halike.config⟩) fun hnew => hnew)
  simp only [respawn]
  split
  · exact evolves_failSpawn env hp (hheld.of_processes (spawnProcess_processes ..)) hspawn
  · refine ((hspawn.trans (.tick_if env _ _)).trans (.put_of fun r hr => ?_)).trans (.unlock _ _ _)
    have hr' : r.Continues p := hheld.of_processes (by split_ifs <;> simp) r hr
    exact hr'.trans ⟨⟨rfl, rfl, rfl, rfl⟩, rfl⟩

theorem evolves_restartToWaiting (env : Env) (resolved : List ProcessId) (hheld : w.Holding i p) :
    Evolves w (w.restartToWaiting env i p resolved) := by
  have hput : Evolves w ((w.tick env).put i { p with
      state := .waiting
      waitingSince := some (w.tick env).clock
      resolvedDeps := resolved
      cascadeFlag := false }) :=
    (Evolves.tick env w).trans (.put_of fun q hq => (hheld q hq).trans ⟨⟨rfl, rfl, rfl, rfl⟩, rfl⟩)
  exact hput.trans (.unlock .exclusive i _)

theorem evolves_performRestart (env : Env) (i : ProcessId) (w : World) : Evolves w (w.performRestart env i) := by
  have hlock := Evolves.lock .exclusive i w
  obtain ⟨_, heq⟩ | ⟨p, hp, ⟨_, heq⟩ | ⟨w₁, resolved, rfl, _, hcases⟩⟩ := performRestart_cases env i w
  · rw [heq]
    exact hlock.trans (.unlock _ _ _)
  · rw [heq]
    exact evolves_respawn env (.of_lookup hp (.refl p)) (.of_lookup hp) hlock
  · have hvisit := hlock.trans (.touch .shared (resolveVisits w.processes p.config.dependsOn) _)
    have hpolled := hvisit.trans (evolves_allDepsRunning env resolved _)
    -- the polled dependencies may include the entry itself
    have hheld : Holding (allDepsRunning env resolved ((w.lock .exclusive i).touch .shared
        (resolveVisits w.processes p.config.dependsOn))).2 i p := by
      intro q hq
      obtain ⟨p', hp', hpolled⟩ := (mapStep_allDepsRunning env (P := fun _ => True) resolved _).processes i q hq
      obtain rfl : p = p' := Option.some.inj (hp.symm.trans hp')
      exact (Process.Continues.of_polled hpolled).symm
    obtain ⟨_, _, heq⟩ | heq | heq := hcases <;> rw [heq]
    · exact evolves_respawn env (.of_lookup hp ⟨rfl, rfl, rfl, rfl⟩) (fun q hq =>
        (hheld q hq).trans ⟨⟨rfl, rfl, rfl, rfl⟩, rfl⟩) hpolled
    · exact hpolled.trans (evolves_restartToWaiting env resolved hheld)
    · exact hvisit.trans (evolves_restartToWaiting env resolved (.of_lookup hp))

theorem evolves_phase4 (env : Env) (now : Instant) (w : World) : Evolves w (w.phase4 env now) :=
  (Evolves.touch .shared w.processes.keys w).trans (.foldl (fun w i => evolves_performRestart env i w) _ _)

theorem nextSpawnSequence_examine (env : Env) (i : ProcessId) (v : Verdicts) (w : World) :
    (examine env i (v, w)).2.nextSpawnSequence = w.nextSpawnSequence := by
  have hread : ∀ (p : Process) (w : World), (w.readElapsed env p).nextSpawnSequence = w.nextSpawnSequence := by
    intro p w
    unfold readElapsed
    split_ifs <;> rfl
  simp only [examine]
  split
  · rfl
  · next p hp =>
    split_ifs
    · exact hread p _
    · simp only [resolveMore]
      split_ifs
      · simp only [(failIfTerminal_spec ..).2]
        exact hread p _
      · simp only [spawnIfReady_snd]
        exact hread p _
    · simp only [checkResolved]
      split_ifs
      · exact hread p _
      · simp only [(failIfTerminal_spec ..).2]
        exact hread p _

theorem evolves_examine (env : Env) (i : ProcessId) (v : Verdicts) (w : World) :
    Evolves w (examine env i (v, w)).2 := by
  refine .of_mapStep ?_ (fun _ => False.elim) (mapStep_examine env i v w) (nextSpawnSequence_examine env i v w)
    (examine_sends i v w)
  rintro j p p' ⟨new, rfl⟩
  exact ⟨⟨rfl, rfl, rfl, rfl⟩, rfl⟩

theorem evolves_spawnWaitingProcess (env : Env) (i : ProcessId) (w : World) :
    Evolves w (w.spawnWaitingProcess env i) := by
  have hlock := Evolves.lock .exclusive i w
  simp only [spawnWaitingProcess, lock_processes]
  split
  · exact hlock.trans (.unlock _ _ _)
  · next p hp =>
    have hspawn : Evolves w ((w.lock .exclusive i).spawnProcess env .spawnWaiting i p.config p.resolvedDeps) :=
      hlock.spawnProcess _ _ (.of_lookup hp rfl)
    have hheld : w.Holding i p := .of_lookup hp
    split
    · exact evolves_failSpawn env (.of_lookup hp (.refl p)) (hheld.of_processes (spawnProcess_processes ..)) hspawn
    · refine ((hspawn.trans (.tick_if env _ _)).trans (.put_of fun r hr => ?_)).trans (.unlock _ _ _)
      have hr' : r.Continues p := hheld.of_processes (by split_ifs <;> simp) r hr
      exact hr'.trans ⟨⟨rfl, rfl, rfl, rfl⟩, rfl⟩

theorem evolves_failWaiting (env : Env) (i : ProcessId) (w : World) : Evolves w (w.failWaiting env i) := by
  have hlock := Evolves.lock .exclusive i w
  simp only [failWaiting, lock_processes]
  split
  · exact hlock.trans (.unlock _ _ _)
  · next p hp =>
    have hput := hlock.trans (.put (q := { p with state := .failed }) hp ⟨⟨rfl, rfl, rfl, rfl⟩, rfl⟩)
    exact ((hput.trans (.unlock .exclusive i _)).trans (.removeEntry i _)).sendOrReturn
      (.of_lookup hp (p.describes_endEvent i rfl))

theorem evolves_phase5 (env : Env) (w : World) : Evolves w (w.phase5 env) := by
  have hverdicts : Evolves w (w.verdicts env).2 :=
    Fold.foldl_invariant (I := fun x : Verdicts × World => Evolves w x.2) (.touch _ _ w)
      fun x i _ hx => hx.trans (evolves_examine env i x.1 x.2)
  exact (hverdicts.trans (.foldl (fun w i => evolves_spawnWaitingProcess env i w) _ _)).trans
    (.foldl (fun w i => .ifRunning (evolves_failWaiting env i) w) _ _)

theorem evolves_failRunning (env : Env) (hfiled : w.Filed) (hp : w.processes.lookup i = some p) :
    Evolves w (w.failRunning env i p) := by
  have hput := (Evolves.lock .exclusive i w).trans (.put (q := { p with state := .failed }) hp ⟨⟨rfl, rfl, rfl, rfl⟩, rfl⟩)
  have hsignal : Evolves w (if 0 < p.pid then (p.sendSignal env .failFast p.config.killSignal
      ((w.lock .exclusive i).put i { p with state := .failed })).2
      else (w.lock .exclusive i).put i { p with state := .failed }) := by
    split_ifs
    · refine hput.after_os Process.osStep_sendSignal (fun k hk => ?_) (.of_eq (Process.sendSignal_sends ..))
      rw [hk.id, (hfiled i p hp).1]
      exact .of_lookup hp trivial
    · exact hput
  simp only [failRunning, lock_processes, hp]
  exact ((hsignal.trans (.unlock .exclusive i _)).trans (.removeEntry i _)).sendOrReturn
    (.of_lookup hp (p.describes_endEvent i rfl))

theorem evolves_failFast (env : Env) (hfiled : w.Filed) (i : ProcessId) : Evolves w (w.failFast env i) := by
  have hlock := Evolves.lock .shared i w
  simp only [failFast, lock_processes]
  split
  · exact hlock.trans (.unlock _ _ _)
  · next p hp =>
    have hchecked := (hlock.trans (.touch .shared (p.resolvedDeps.visitedUntil (isTerminalDep w.processes)) _)).trans
      (.unlock .shared i _)
    split_ifs
    · exact hchecked.trans (evolves_failRunning env (hchecked.filed hfiled) hp)
    · exact hchecked

theorem evolves_phase6 (env : Env) (hfiled : w.Filed) : Evolves w (w.phase6 env) := by
  have htouch := Evolves.touch .shared w.processes.keys w
  refine htouch.trans (.foldl_filed (htouch.filed hfiled) (fun w' i hw' => ?_) _)
  exact ifRunning_invariant (.refl w') fun _ => evolves_failFast env hw' i

theorem evolves_reaperPass (env : Env) (pollInterval : ℕ) (hfiled : w.Filed) :
    Evolves w (w.reaperPass env pollInterval) := by
  have hdetect : Evolves w (w.passDetect env pollInterval).2.2 := evolves_passDetect env pollInterval hfiled
  have hended : ∀ w', Evolves w w' → w'.reaper ≠ .running → Evolves w w' := fun _ h _ => h
  refine reaperPass_invariant hdetect hended ?_ ?_ ?_ ?_
  · rintro w' rfl _
    exact hdetect.trans (evolves_phase3 env _ _ _)
  · exact fun now w' h _ => h.trans (evolves_phase4 env now w')
  · exact fun w' h _ => h.trans (evolves_phase5 env w')
  · exact fun w' h _ => h.trans (evolves_phase6 env (h.filed hfiled))

end World

/-! ### Runs -/

namespace System

variable (env : Env) (pollInterval : ℕ)

theorem evolves_step (s : System) (a : Action) (hfiled : s.world.Filed) :
    s.world.Evolves (s.step env pollInterval a).world := by
  cases a with
  | start label config => exact World.evolves_start env label config s.world
  | startWithDeps label config =>
    have hstart := World.evolves_startWithDeps env label config s.world
    simp only [step]
    split <;> exact hstart
  | depsPoll n =>
    simp only [step]
    split
    · exact .refl _
    · exact World.evolves_depsPoll ..
  | stop id => exact World.evolves_stop env hfiled id
  | stopLabel label => exact World.evolves_stopMany env hfiled _
  | stopAll => exact World.evolves_stopMany env hfiled _
  | stopTerminateOnExit => exact World.evolves_stopMany env hfiled _
  | restart id => exact World.evolves_restart env hfiled id
  | restartLabel label => exact World.evolves_restartAll env hfiled _
  | sendSignal id signal => exact World.evolves_sendSignal env hfiled id signal
  | sendSignalLabel label signal => exact World.evolves_sendSignalLabel env hfiled label signal
  | query id => exact World.evolves_query env id s.world
  | pass => exact World.ifRunning_invariant (.refl _) fun _ => World.evolves_reaperPass env pollInterval hfiled

theorem evolves_run (actions : List Action) {s : System} (hfiled : s.world.Filed) :
    s.world.Evolves (s.run env pollInterval actions).world :=
  Fold.foldl_invariant (I := fun s' : System => s.world.Evolves s'.world) (.refl _)
    fun s' a _ h => h.trans (evolves_step env pollInterval s' a (h.filed hfiled))

theorem filed_of_initial {s : System} (hs : s.Initial) : s.world.Filed := by
  rcases hs with rfl | rfl <;> exact fun i q hq => absurd hq (by simp [new, withReaper, World.new, World.withReaper])

/-- What happens between two points of a run. -/
theorem evolves_between {s : System} (hs : s.Initial) (before later : List Action) :
    (s.run env pollInterval before).world.Evolves (s.run env pollInterval (before ++ later)).world := by
  have hfiled := (evolves_run env pollInterval before (filed_of_initial hs)).filed (filed_of_initial hs)
  rw [run, run, List.foldl_append]
  exact evolves_run env pollInterval later hfiled

end System

end ProcessManager
