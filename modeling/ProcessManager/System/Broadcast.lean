import ProcessManager.System.Run

/-! Signals to pid `0`. `kill(0, _)` reaches the whole process group of the manager.
`Process::send_signal` and `force_kill` refuse pid `0`, and the only path that does not go
through them is `ProcessManager::send_signal`: a run is free of such calls exactly when it
never sends a signal to an entry that has no pid. -/

namespace ProcessManager

/-- `kill` calls are only added, and none of the new ones is a broadcast. -/
def Spares (w w' : World) : Prop := Grows (fun k => k.pid ≠ 0) w.kills w'.kills

theorem Spares.refl (w : World) : Spares w w := Grows.refl _

theorem Spares.trans {w₁ w₂ w₃ : World} (h : Spares w₁ w₂) (h' : Spares w₂ w₃) : Spares w₁ w₃ :=
  Grows.trans h h'

theorem Spares.of_eq {w w' : World} (h : w'.kills = w.kills) : Spares w w' := Grows.of_eq h

namespace World

variable {env : Env} {w w' : World}

theorem pid_ne_of_killsFrom {p : Process} {k : KillCall} (h : KillsFrom p w k) : k.pid ≠ 0 := by
  rw [h.pid]
  exact h.pid_ne

/-! ### Calls of the manager -/

theorem spares_allDepsRunning (deps : List ProcessId) (w : World) :
    Spares w (w.allDepsRunning env deps).2 :=
  (mapStep_allDepsRunning _ deps w).kills

theorem spares_startNow (id : ProcessId) (label : Label) (config : ProcessConfig)
    (resolved : List ProcessId) (w : World) :
    Spares w (w.startNow env id label config resolved).2 := by
  simp only [startNow]
  split
  · next e he => exact (osStep_spawnProcess (S := ∅) he).kills
  · next hok =>
    have hspawn := Spawned.of_ok .start id resolved hok
    refine Spares.trans (.of_eq hspawn.kills) ?_
    exact (mapStep_markStartedEntry (P := fun k => k.pid ≠ 0) id _).kills

theorem spares_start (label : Label) (config : ProcessConfig) (w : World) :
    Spares w (w.start env label config).2 := by
  obtain h | h | ⟨w₁, hw₁, resolved, -, hcases⟩ := start_cases env label config w
  · rw [h]; exact .refl _
  · rw [h]; exact .of_eq rfl
  · have hstart : Spares w w₁ := by rw [← hw₁]; exact .of_eq rfl
    obtain ⟨-, -, h⟩ | h | h := hcases <;> rw [h]
    · exact hstart.trans ((spares_allDepsRunning resolved w₁).trans (spares_startNow _ _ _ _ _))
    · exact hstart.trans (spares_allDepsRunning resolved w₁)
    · exact hstart

theorem spares_stop (id : ProcessId) (w : World) : Spares w (w.stop env id).2 := by
  refine stop_invariant_of_forall (I := Spares w) ?_ id (.refl _)
  intro i w' hw'
  cases hp : w'.processes.lookup i with
  | none =>
    rw [stopOne_of_untracked hp]
    exact hw'
  | some p =>
    exact hw'.trans ((osStep_stopOne hp).kills.mono fun k hk => pid_ne_of_killsFrom hk.1)

theorem spares_stopMany (ids : List ProcessId) (w : World) : Spares w (w.stopMany env ids).2 := by
  have hkill := (stopManyKill_spec env ids w).1.kills
  rw [Spares, stopMany_kills]
  refine hkill.mono ?_
  rintro k ⟨id, -, p, -, hk⟩
  exact pid_ne_of_killsFrom hk

theorem spares_restartInPlace {id : ProcessId} {p : Process} (hp : w.processes.lookup id = some p) :
    Spares w (w.restartInPlace env id p).2 := by
  obtain ⟨w₁, hreset, heq⟩ := restartReset_eq env (P := fun k => k.pid ≠ 0) hp
  simp only [restartInPlace, heq]
  have hput : Spares w (w₁.put id { p with
      child := none, restartState := p.restartState.map .reset }) := hreset.kills
  split
  · next e he => exact hput.trans (osStep_spawnProcess (S := ∅) he).kills
  · next hok =>
    have hspawn := Spawned.of_ok .restart id p.resolvedDeps hok
    refine hput.trans (Spares.trans (.of_eq hspawn.kills) ?_)
    simp only [restartStore]
    split
    · exact .refl _
    · split_ifs <;> exact .refl _

theorem spares_restartInsert (id : ProcessId) (p : Process) (w : World) :
    Spares w (w.restartInsert env id p).2 := by
  simp only [restartInsert]
  split
  · next e he => exact (osStep_spawnProcess (S := ∅) he).kills
  · next hok =>
    have hspawn := Spawned.of_ok .restart id [] hok
    refine Spares.trans (.of_eq hspawn.kills) ?_
    exact (mapStep_markStartedEntry (P := fun k => k.pid ≠ 0) id _).kills

theorem spares_restart (id : ProcessId) (w : World) : Spares w (w.restart env id).2 := by
  obtain ⟨-, h⟩ | ⟨p, hp, ⟨-, h⟩ | ⟨-, h | h⟩⟩ := restart_cases env id w <;> rw [h]
  · exact .refl _
  · exact spares_restartInPlace hp
  · exact spares_stop id w
  · exact (spares_stop id w).trans (spares_restartInsert id p _)

theorem spares_restartAll (ids : List ProcessId) (w : World) :
    Spares w (w.restartAll env ids).2 :=
  restartAll_invariant (I := Spares w) (fun id w' hw' _ => hw'.trans (spares_restart id w'))
    ids w (.refl _) (restartsMeet_of_forall (fun _ _ => trivial) ids w)

/-! ### Passes of the reaper -/

theorem spares_phase1Visit (now : Instant) (id : ProcessId) (x : Exits) (w : World) :
    Spares w (phase1Visit env now id (x, w)).2 := by
  obtain ⟨-, h⟩ | ⟨p, w', hp, -, ⟨c, status, hc, -, rfl, h⟩ | ⟨hstep, -, h⟩⟩ :=
    phase1Visit_cases env now id x w <;> rw [h]
  · exact .refl _
  · exact ((w.lock .exclusive id).osStep_tryWait env (S := Set.univ) (c := c) trivial).kills
  · exact hstep.weaken (S := ∅).kills

theorem spares_passDetect (pollInterval : ℕ) (w : World) :
    Spares w (w.passDetect env pollInterval).2.2 := by
  simp only [passDetect]
  generalize hw₀ : (w.sleep env pollInterval).tick env = w₀
  have hstart : Spares w w₀ := by
    rw [← hw₀]
    exact .refl _
  have hphase1 : Spares w (w₀.phase1 env w₀.clock).2 := by
    refine Fold.foldl_invariant (I := fun x : Exits × World => Spares w x.2) hstart ?_
    exact fun x id _ hx => hx.trans (spares_phase1Visit _ id x.1 x.2)
  have hphase1b : ∀ origins w', Spares w w' → Spares w (w'.phase1b env origins) := by
    intro origins w' hw'
    refine Fold.foldl_invariant (I := Spares w) ?_ ?_
    · exact Fold.foldl_invariant (I := Spares w) hw' fun _ _ _ h => h
    · intro w₁ id _ hw₁
      obtain ⟨-, h⟩ | ⟨p, -, hpid, h⟩ := cascadeKill_cases env id w₁ <;> rw [h]
      · exact hw₁
      · exact hw₁.trans (.cons _ hpid)
  exact (hphase1b _ _ hphase1).trans (mapStep_phase2 _ _).kills

theorem spares_reaperPass (pollInterval : ℕ) (w : World) :
    Spares w (w.reaperPass env pollInterval) := by
  refine reaperPass_invariant (spares_passDetect pollInterval w) (fun _ h _ => h) ?_ ?_ ?_ ?_
  · rintro w' rfl -
    exact (spares_passDetect pollInterval w).trans (.of_eq (kills_phase3 env _ _ _))
  · exact fun now w' hw' _ => hw'.trans (.of_eq (kills_phase4 env now w'))
  · exact fun w' hw' _ => hw'.trans (.of_eq (kills_phase5 env w'))
  · intro w' hw' _
    refine Fold.foldl_invariant (I := Spares w) hw' fun w₁ id _ hw₁ =>
      ifRunning_invariant hw₁ fun _ => hw₁.trans ((mapStep_failFast id w₁).kills.mono ?_)
    rintro k ⟨p, -, hk⟩
    exact pid_ne_of_killsFrom hk

end World

/-! ### Runs -/

/-- The entry `id` may be signalled: it is in backoff, where the call is refused, or has
a pid. -/
def World.Signallable (id : ProcessId) (w : World) : Prop :=
  ∀ p ∈ w.processes.lookup id, p.state = .restarting ∨ p.pid ≠ 0

instance (id : ProcessId) (w : World) : Decidable (w.Signallable id) :=
  inferInstanceAs (Decidable (∀ p ∈ w.processes.lookup id, p.state = .restarting ∨ p.pid ≠ 0))

/-- No `kill` call so far went to pid `0`. -/
def World.NoBroadcast (w : World) : Prop := ∀ k ∈ w.kills, k.pid ≠ 0

instance (w : World) : Decidable w.NoBroadcast :=
  inferInstanceAs (Decidable (∀ k ∈ w.kills, k.pid ≠ 0))

theorem Spares.noBroadcast {w w' : World} (h : Spares w w') : w'.NoBroadcast ↔ w.NoBroadcast :=
  ⟨fun h' k hk => h' k (Grows.mem_of_mem h hk), fun h' => Grows.forall_mem h h'⟩

namespace World

variable {env : Env} {w w' : World}

theorem sendSignal_processes (id : ProcessId) (signal : Signal) (w : World) :
    (w.sendSignal env id signal).2.processes = w.processes := by
  simp only [sendSignal]
  split
  · rfl
  · split_ifs
    · rfl
    · split <;> rfl

/-- One `send_signal` broadcasts exactly when its entry may not be signalled. -/
theorem noBroadcast_sendSignal (id : ProcessId) (signal : Signal) (w : World) :
    (w.sendSignal env id signal).2.NoBroadcast ↔ w.NoBroadcast ∧ w.Signallable id := by
  unfold NoBroadcast Signallable
  cases hp : w.processes.lookup id with
  | none => simp [sendSignal, hp]
  | some p =>
    by_cases hstate : p.state = .restarting
    · simp [sendSignal, hp, hstate]
    · have hkills : (w.sendSignal env id signal).2.kills = (w.kill env .sendSignal p signal).kills := by
        simp only [sendSignal, hp, hstate, ↓reduceIte]
        split <;> rfl
      rw [hkills, kill_kills, tick_kills]
      simp only [List.forall_mem_cons, Option.mem_def, Option.some.injEq, forall_eq', hstate, false_or]
      exact and_comm

theorem noBroadcast_sendSignalLabel (label : Label) (signal : Signal) (w : World) :
    (w.sendSignalLabel env label signal).NoBroadcast ↔
      w.NoBroadcast ∧ ∀ id ∈ w.labelMembers label, w.Signallable id := by
  have hfold : ∀ (ids : List ProcessId) (w : World),
      (ids.foldl (fun w id => (w.sendSignal env id signal).2) w).NoBroadcast ↔
        w.NoBroadcast ∧ ∀ id ∈ ids, w.Signallable id := by
    intro ids
    induction ids with
    | nil => simp
    | cons id ids ih =>
      intro w
      have hsame : ∀ i, (w.sendSignal env id signal).2.Signallable i ↔ w.Signallable i := by
        intro i
        rw [Signallable, sendSignal_processes, Signallable]
      rw [List.foldl_cons, ih, noBroadcast_sendSignal, List.forall_mem_cons, and_assoc]
      simp only [hsame]
  exact hfold _ w

end World

namespace System

variable (env : Env) (pollInterval : ℕ)

/-- A signal of the API only goes to entries that may be signalled. -/
def SignalsSpawned (s : System) : Action → Prop
  | .sendSignal id _ => s.world.Signallable id
  | .sendSignalLabel label _ => ∀ id ∈ s.world.labelMembers label, s.world.Signallable id
  | _ => True

instance (s : System) (a : Action) : Decidable (SignalsSpawned s a) := by
  cases a <;> unfold SignalsSpawned <;> infer_instance

theorem noBroadcast_step (s : System) (a : Action) :
    (s.step env pollInterval a).world.NoBroadcast ↔ s.world.NoBroadcast ∧ SignalsSpawned s a := by
  have hspares : ∀ {w : World}, Spares s.world w →
      (w.NoBroadcast ↔ s.world.NoBroadcast ∧ True) := fun h => by rw [h.noBroadcast, and_true]
  cases a with
  | start label config => exact hspares (World.spares_start label config _)
  | startWithDeps label config =>
    have hstart : Spares s.world (s.world.startWithDeps env label config).2 :=
      (World.spares_start label config _).trans (World.startWithDeps_world label config _).kills
    simp only [step]
    split <;> exact hspares hstart
  | depsPoll n =>
    simp only [step]
    split
    · exact hspares (.refl _)
    · exact hspares (World.mapStep_depsPoll _ _ _ _).kills
  | stop id => exact hspares (World.spares_stop id _)
  | stopLabel label => exact hspares (World.spares_stopMany _ _)
  | stopAll => exact hspares (World.spares_stopMany _ _)
  | stopTerminateOnExit => exact hspares (World.spares_stopMany _ _)
  | restart id => exact hspares (World.spares_restart id _)
  | restartLabel label => exact hspares (World.spares_restartAll _ _)
  | sendSignal id signal => exact World.noBroadcast_sendSignal id signal _
  | sendSignalLabel label signal => exact World.noBroadcast_sendSignalLabel label signal _
  | query id => exact hspares (World.mapStep_query id _).kills
  | pass =>
    exact hspares (World.ifRunning_invariant (.refl _) fun _ => World.spares_reaperPass _ _)

/-- A run from a new manager broadcasts no signal exactly when each of its `send_signal`
calls finds an entry in backoff or with a pid. -/
theorem noBroadcast_run {s : System} (hs : s.Initial) (actions : List Action) :
    (s.run env pollInterval actions).world.NoBroadcast ↔
      Fold.Meets SignalsSpawned (step env pollInterval) actions s := by
  have hinit : s.world.NoBroadcast := by
    rcases hs with rfl | rfl <;> exact fun k hk => absurd hk (by simp [new, withReaper, World.new, World.withReaper])
  have hrun : ∀ (actions : List Action) (s : System),
      (s.run env pollInterval actions).world.NoBroadcast ↔
        s.world.NoBroadcast ∧ Fold.Meets SignalsSpawned (step env pollInterval) actions s := by
    intro actions
    induction actions with
    | nil => simp [run, Fold.Meets]
    | cons a actions ih =>
      intro s
      have hcons : s.run env pollInterval (a :: actions) =
          (s.step env pollInterval a).run env pollInterval actions := rfl
      rw [hcons, ih, noBroadcast_step, Fold.Meets, and_assoc]
  rw [hrun, and_iff_right hinit]

/-- A process that is signalled as soon as it runs. -/
theorem noBroadcast_run_spawned :
    (withReaper.run .calm 0 [.start ⟨"web"⟩ { command := "/bin/web" },
      .sendSignal ⟨1⟩ .sighup]).world.NoBroadcast :=
  (noBroadcast_run .calm 0 (.inr rfl) _).mpr ⟨trivial, by decide +kernel, trivial⟩

/-- A signal for a process that waits for its dependency goes to pid `0`. -/
theorem not_noBroadcast : ¬ ∀ (env : Env) (pollInterval : ℕ) (s : System) (actions : List Action),
    s.Initial → (s.run env pollInterval actions).world.NoBroadcast := by
  intro h
  have hrun := h .calm 0 new [.start ⟨"web"⟩ { command := "/bin/web", dependsOn := [.id ⟨7⟩] },
    .sendSignal ⟨1⟩ .sigterm] (.inl rfl)
  exact absurd hrun (by decide +kernel)

end System

end ProcessManager
