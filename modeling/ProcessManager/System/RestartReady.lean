import ProcessManager.Reaper.SelfBlock
import ProcessManager.System.RestartKeeps

/-! Dependencies and restarts. The reaper respawns a process only while its dependencies are
`Running` and lets it wait otherwise; `restart` spawns at once. -/

namespace ProcessManager

namespace World

/-- All dependencies resolve, and all of them are `Running` when they are polled. -/
def DepsReady (env : Env) (deps : List DependencyRef) (w : World) : Prop :=
  (resolvedOrDefault w.processes deps).length = deps.length ∧
    (w.allDepsRunning env (resolvedOrDefault w.processes deps)).1 = true

instance (env : Env) (deps : List DependencyRef) (w : World) : Decidable (w.DepsReady env deps) :=
  inferInstanceAs (Decidable (_ ∧ _))

/-- No child was spawned, and the process is `Waiting`. -/
def LeftWaiting (id : ProcessId) (w w' : World) : Prop :=
  w'.spawns = w.spawns ∧ ∃ q, w'.processes.lookup id = some q ∧ q.state = .waiting

/-- `restart` leaves a process waiting whose dependencies are not ready when it is to be spawned. -/
def RestartHeeds (env : Env) (id : ProcessId) (w : World) : Prop :=
  ∀ p, w.processes.lookup id = some p → p.config.dependsOn ≠ [] →
    ¬ (w.respawnAt env id p).DepsReady env p.config.dependsOn → LeftWaiting id w (w.restart env id).2

/-- The dependencies of the process, if it has any, are ready when it is to be spawned. -/
def RespawnReady (env : Env) (id : ProcessId) (w : World) : Prop :=
  ∀ p, w.processes.lookup id = some p → p.config.dependsOn ≠ [] →
    (w.respawnAt env id p).DepsReady env p.config.dependsOn

/-- The moment at which `perform_restart` asks for the dependencies. -/
def performAt (id : ProcessId) (p : Process) (w : World) : World :=
  (w.lock .exclusive id).touch .shared (resolveVisits w.processes p.config.dependsOn)

/-- `perform_restart`, where it returns, leaves such a process waiting. -/
def PerformRestartHeeds {σ : Type*} [DecidableEq σ] (shard : ProcessId → σ) (env : Env) (id : ProcessId) (w : World) : Prop :=
  ∀ p, w.processes.lookup id = some p → p.config.dependsOn ≠ [] →
    ¬ (w.performAt id p).DepsReady env p.config.dependsOn →
      ∀ w', w.performRestart? shard env id = some w' → LeftWaiting id w w'

variable {env : Env} {w w' : World} {id : ProcessId} {p q : Process}

/-- Whatever a restart finds, it leaves no process waiting. -/
theorem restart_not_waiting (hp : w.processes.lookup id = some p)
    (hq : (w.restart env id).2.processes.lookup id = some q) : q.state ≠ .waiting := by
  by_cases hstate : p.state = .restarting
  · rw [restart_of_restarting hp hstate] at hq
    obtain ⟨q', hq', _, _, _, hkeeps⟩ := restartInPlace_keeps env hp
    obtain rfl : q = q' := Option.some.inj (hq.symm.trans hq')
    exact hkeeps hstate
  · obtain ⟨hgone, _, _⟩ := stop_spec env hp
    obtain ⟨_, _, hrestart⟩ | ⟨_, hrestart⟩ := restart_of_stopped env hp hstate
    · rw [hrestart, hgone] at hq
      cases hq
    · rw [hrestart] at hq
      cases hspawn : (w.stop env id).2.spawnError env p.config with
      | some e =>
        rw [(untouched_restartInsert_of_error id id hspawn).lookup, hgone] at hq
        cases hq
      | none =>
        obtain ⟨q', hq', _, _, _, hkeeps⟩ := restartInsert_keeps id hspawn
        obtain rfl : q = q' := Option.some.inj (hq.symm.trans hq')
        exact hkeeps

theorem leftWaiting_restartToWaiting (env : Env) (p : Process) (resolved : List ProcessId)
    (htracked : ∃ q, w.processes.lookup id = some q) : LeftWaiting id w (w.restartToWaiting env id p resolved) := by
  obtain ⟨q, hq⟩ := htracked
  let parked := { p with
    state := .waiting, waitingSince := some (w.tick env).clock, resolvedDeps := resolved, cascadeFlag := false }
  have hparked : (w.restartToWaiting env id p resolved).processes.lookup id = some parked := by
    show (w.processes.replace id parked).lookup id = some parked
    simp [AssocMap.lookup_replace, hq]
  exact ⟨rfl, parked, hparked, rfl⟩

/-- Polling the dependencies removes no entry. -/
theorem tracked_allDepsRunning (deps : List ProcessId) (hp : ∃ p, w.processes.lookup id = some p) :
    ∃ p, (w.allDepsRunning env deps).2.processes.lookup id = some p := by
  apply allDepsRunning_invariant (I := fun w' => ∃ p, w'.processes.lookup id = some p) _ _ _ deps hp
  · intro d w' hw'
    exact hw'
  · intro d w' hw'
    exact hw'
  · rintro d q w' ⟨p', hp'⟩ _
    rw [pollEntry_processes, AssocMap.lookup_replace]
    split_ifs with hd
    · rw [← hd, hp']
      exact ⟨_, rfl⟩
    · exact ⟨p', hp'⟩

/-- The branches of `perform_restart` for a process with dependencies. -/
theorem performRestart_of_deps (hp : w.processes.lookup id = some p) (hdeps : p.config.dependsOn ≠ []) :
    w.performRestart env id =
      let resolved := resolvedOrDefault w.processes p.config.dependsOn
      let polled := (w.performAt id p).allDepsRunning env resolved
      if resolved.length = p.config.dependsOn.length then
        if polled.1 then polled.2.respawn env id { p with resolvedDeps := resolved }
        else polled.2.restartToWaiting env id p resolved
      else (w.performAt id p).restartToWaiting env id p resolved := by
  simp only [performRestart, lock_processes, hp, if_neg hdeps]
  rfl

theorem performRestart_heeds {σ : Type*} [DecidableEq σ] (shard : ProcessId → σ) (env : Env) (id : ProcessId) (w : World) :
    w.PerformRestartHeeds shard env id := by
  intro p hp hdeps hready w' hw'
  obtain ⟨_, rfl⟩ : RestartUnblocked shard env id w ∧ w.performRestart env id = w' := by
    simpa only [performRestart?, Option.ite_none_right_eq_some, Option.some.injEq] using hw'
  have htracked : ∃ q, (w.performAt id p).processes.lookup id = some q := ⟨p, hp⟩
  rw [performRestart_of_deps hp hdeps]
  extract_lets resolved polled
  split_ifs with hlength hall
  · exact absurd ⟨hlength, hall⟩ hready
  · have hspawns : polled.2.spawns = w.spawns := (mapStep_allDepsRunning (P := fun _ => True) env resolved _).spawns
    obtain ⟨hnone, hwaiting⟩ := leftWaiting_restartToWaiting env p resolved
      (tracked_allDepsRunning resolved htracked)
    exact ⟨hnone.trans hspawns, hwaiting⟩
  · exact leftWaiting_restartToWaiting env p resolved htracked

/-! ### The two ways to respawn -/

theorem restartHeeds_iff_ready (env : Env) (id : ProcessId) (w : World) :
    w.RestartHeeds env id ↔ w.RespawnReady env id := by
  constructor
  · intro h p hp hdeps
    by_contra hready
    obtain ⟨_, q, hq, hwaiting⟩ := h p hp hdeps hready
    exact restart_not_waiting hp hq hwaiting
  · intro h p hp hdeps hready
    exact absurd (h p hp hdeps) hready

/-- The reaper heeds the dependencies of every process whose restart it gets done, `restart` only where
there is nothing to heed. -/
theorem restartHeeds_iff {σ : Type*} [DecidableEq σ] (shard : ProcessId → σ) (env : Env) (id : ProcessId) (w : World) :
    (w.RestartHeeds env id ↔ w.RespawnReady env id) ∧ w.PerformRestartHeeds shard env id :=
  ⟨restartHeeds_iff_ready env id w, performRestart_heeds shard env id w⟩

/-- A process that waits for a dependency nobody started. -/
def waitingWeb : World :=
  (World.withReaper.start .calm ⟨"web"⟩ { command := "web", dependsOn := [.label ⟨"db"⟩] }).2

/-- A process that waits for a database nobody has started is restarted: it runs. -/
theorem not_restartHeeds :
    (waitingWeb.processes.lookup ⟨1⟩).map (fun p => (p.state, p.config.dependsOn)) =
        some (.waiting, [.label ⟨"db"⟩]) ∧
      (waitingWeb.restart .calm ⟨1⟩).1.isOk = true ∧
      ((waitingWeb.restart .calm ⟨1⟩).2.processes.lookup ⟨1⟩).map Process.state = some .starting ∧
      ¬ waitingWeb.RestartHeeds .calm ⟨1⟩ := by
  have hentry : (waitingWeb.processes.lookup ⟨1⟩).map (fun p => (p.state, p.config.dependsOn)) =
      some (.waiting, [.label ⟨"db"⟩]) := by decide +kernel
  have hafter : ((waitingWeb.restart .calm ⟨1⟩).2.processes.lookup ⟨1⟩).map Process.state =
      some .starting := by decide +kernel
  have hunresolved : resolvedOrDefault (waitingWeb.stop .calm ⟨1⟩).2.processes [.label ⟨"db"⟩] = [] := by
    decide +kernel
  refine ⟨hentry, by decide +kernel, hafter, fun hheeds => ?_⟩
  obtain ⟨p, hp, hfound⟩ := Option.map_eq_some_iff.mp hentry
  have hwaiting : p.state = .waiting := congrArg Prod.fst hfound
  have hdeps : p.config.dependsOn = [.label ⟨"db"⟩] := congrArg Prod.snd hfound
  have hat : waitingWeb.respawnAt .calm ⟨1⟩ p = (waitingWeb.stop .calm ⟨1⟩).2 := by
    rw [respawnAt, if_neg (by rw [hwaiting]; decide)]
  have hready := (restartHeeds_iff_ready .calm ⟨1⟩ waitingWeb).mp hheeds p hp (by rw [hdeps]; decide)
  rw [hat, hdeps, DepsReady, hunresolved] at hready
  exact absurd hready.1 (by decide)

end World

end ProcessManager
