import ProcessManager.Manager.Restart
import ProcessManager.Os.Sends

/-! The calls of the manager that send an event. There is one: `stop` of a process in
`Waiting`. Every other call leaves the log of sent events as it is. -/

namespace ProcessManager

variable {env : Env} {w w' : World} {id : ProcessId} {p : Process}

namespace Process

@[simp] theorem pollState_sends (env : Env) (p : Process) (w : World) :
    (p.pollState env w).2.sends = w.sends := by
  obtain h | ⟨_, ⟨_, h⟩ | ⟨c, _, h⟩⟩ := pollState_cases env p w <;> rw [h]
  exact World.tryWait_sends env c w

@[simp] theorem tryWaitExit_sends (env : Env) (p : Process) (w : World) :
    (p.tryWaitExit env w).2.sends = w.sends := by
  cases hc : p.child with
  | none => rw [tryWaitExit_of_no_child hc]
  | some c => rw [tryWaitExit_of_child hc, World.tryWait_sends]

@[simp] theorem sendSignal_sends (env : Env) (site : KillSite) (p : Process) (signal : KillSignal)
    (w : World) : (p.sendSignal env site signal w).2.sends = w.sends := by
  unfold sendSignal
  split_ifs <;> rfl

@[simp] theorem forceKill_sends (env : Env) (site : KillSite) (p : Process) (w : World) :
    (p.forceKill env site w).2.sends = w.sends := sendSignal_sends env site p .sigkill w

@[simp] theorem joinReaders_sends (env : Env) (p : Process) (w : World) :
    (p.joinReaders env w).sends = w.sends := rfl

@[simp] theorem release_sends (env : Env) (p : Process) (w : World) :
    (p.release env w).sends = w.sends := by
  unfold release
  cases p.child <;> rfl

end Process

namespace World

/-! ### Starts, queries, signals -/

@[simp] theorem pollEntry_sends (env : Env) (id : ProcessId) (p : Process) (w : World) :
    (w.pollEntry env id p).sends = w.sends := Process.pollState_sends env p w

@[simp] theorem allDepsRunning_sends (env : Env) (deps : List ProcessId) (w : World) :
    (w.allDepsRunning env deps).2.sends = w.sends := by
  refine allDepsRunning_invariant (I := fun w' => w'.sends = w.sends) (fun _ _ h => h)
    (fun _ _ h => h) ?_ deps rfl
  intro i q w' h _
  rw [pollEntry_sends, h]

@[simp] theorem markStartedEntry_sends (env : Env) (id : ProcessId) (w : World) :
    (w.markStartedEntry env id).sends = w.sends := by
  unfold markStartedEntry
  split
  · split <;> rfl
  · rfl

@[simp] theorem startNow_sends (env : Env) (id : ProcessId) (label : Label) (config : ProcessConfig)
    (deps : List ProcessId) (w : World) : (w.startNow env id label config deps).2.sends = w.sends := by
  unfold startNow
  split
  · exact spawnProcess_sends ..
  · rw [markStartedEntry_sends]
    exact spawnProcess_sends ..

@[simp] theorem start_sends (env : Env) (label : Label) (config : ProcessConfig) (w : World) :
    (w.start env label config).2.sends = w.sends := by
  obtain heq | heq | ⟨w₁, rfl, resolved, _, ⟨_, _, heq⟩ | heq | heq⟩ := start_cases env label config w <;>
    rw [heq]
  · rw [startNow_sends, allDepsRunning_sends]
  · exact allDepsRunning_sends ..
  · rfl

@[simp] theorem startWithDeps_sends (env : Env) (label : Label) (config : ProcessConfig) (w : World) :
    (w.startWithDeps env label config).2.sends = w.sends := by
  have hstart := start_sends env label config w
  unfold startWithDeps
  split
  · next h => rwa [h] at hstart
  · next h =>
    rw [h] at hstart
    split
    · split_ifs <;> exact hstart
    · exact hstart

@[simp] theorem depsPoll_sends (env : Env) (id : ProcessId) (config : ProcessConfig)
    (deadline : Instant) (w : World) : (w.depsPoll env id config deadline).2.sends = w.sends := by
  simp only [depsPoll]
  split_ifs
  · simp only
    split <;> rfl
  · split
    · split <;> rfl
    · rfl

@[simp] theorem query_sends (env : Env) (id : ProcessId) (w : World) :
    (w.query env id).sends = w.sends := by
  unfold query
  split
  · exact pollEntry_sends ..
  · rfl

@[simp] theorem sendSignal_sends (env : Env) (id : ProcessId) (signal : Signal) (w : World) :
    (w.sendSignal env id signal).2.sends = w.sends := by
  unfold sendSignal
  split
  · rfl
  · split_ifs
    · rfl
    · split <;> rfl

@[simp] theorem sendSignalLabel_sends (env : Env) (label : Label) (signal : Signal) (w : World) :
    (w.sendSignalLabel env label signal).sends = w.sends :=
  Fold.foldl_invariant (I := fun w' : World => w'.sends = w.sends) rfl fun w' id _ h => by
    rw [sendSignal_sends, h]

/-! ### Stops -/

theorem graceLoop_sends (env : Env) (deadline : Instant) (fuel : ℕ) (p : Process) (w : World) :
    (w.graceLoop env deadline fuel p).2.2.sends = w.sends := by
  induction fuel generalizing p w with
  | zero => rfl
  | succ fuel ih =>
    simp only [graceLoop]
    split_ifs
    · rw [ih, sleep_sends, tick_sends, Process.pollState_sends, tick_sends]
    · rw [Process.pollState_sends, tick_sends]
    · rfl

theorem reapLoop_sends (env : Env) (deadline : Instant) (fuel : ℕ) (p : Process) (w : World) :
    (w.reapLoop env deadline fuel p).sends = w.sends := by
  induction fuel generalizing w with
  | zero => rfl
  | succ fuel ih =>
    simp only [reapLoop]
    split_ifs
    · rw [Process.tryWaitExit_sends, tick_sends]
    · rw [ih, sleep_sends, tick_sends, Process.tryWaitExit_sends, tick_sends]
    · rfl

@[simp] theorem awaitKill_sends (env : Env) (p : Process) (w : World) :
    (w.awaitKill env p).sends = w.sends := by
  rw [awaitKill, Process.joinReaders_sends, Process.tryWaitExit_sends, reapLoop_sends, tick_sends]

theorem stopTaken_sends (env : Env) (p : Process) (w : World) :
    (w.stopTaken env p).2.sends = w.sends := by
  have hescalate : ∀ (q : Process) (w : World), (w.stopEscalate env q).2.sends = w.sends := by
    intro q w
    simp only [stopEscalate]
    split <;> simp
  have hgrace : ∀ (q : Process) (w : World), (w.stopGrace env q).2.sends = w.sends := by
    intro q w
    simp only [stopGrace]
    split_ifs
    · rw [Process.joinReaders_sends, graceLoop_sends, tick_sends]
    · rw [hescalate, graceLoop_sends, tick_sends]
  simp only [stopTaken]
  split <;> simp [hgrace]

/-- The stop of a process in `Waiting` removes it and sends its event. -/
theorem stopOne_of_waiting (hp : w.processes.lookup id = some p) (hstate : p.state = .waiting) :
    (w.stopOne env id).2 = (w.remove id).sendFromHandle env (p.endEvent id .stopped) := by
  simp [stopOne, hp, hstate]

theorem sends_sendFromHandle (env : Env) (event : ProcessExitEvent) (w : World) :
    (w.reaper ≠ .absent ∧ w.sendOk env = true ∧
      (w.sendFromHandle env event).sends = ⟨event, w.processes⟩ :: w.sends) ∨
    ¬ (w.reaper ≠ .absent ∧ w.sendOk env = true) ∧ (w.sendFromHandle env event).sends = w.sends := by
  unfold sendFromHandle
  split_ifs with habsent
  · exact .inr ⟨fun h => h.1 habsent, rfl⟩
  · obtain ⟨hok, hsends⟩ | ⟨hclosed, hsends⟩ := send_outcome env event w
    · exact .inl ⟨habsent, hok, hsends⟩
    · exact .inr ⟨fun h => Bool.eq_false_iff.mp hclosed h.2, hsends⟩

theorem stopOne_sends (env : Env) (h : ∀ p, w.processes.lookup id = some p → p.state ≠ .waiting) :
    (w.stopOne env id).2.sends = w.sends := by
  simp only [stopOne]
  split
  · rfl
  · next p hp =>
    rw [if_neg (h p hp)]
    split_ifs
    · rfl
    · exact stopTaken_sends env p _

/-! ### Batches -/

theorem stopManyTake_sends (env : Env) (ids : List ProcessId) (w : World) :
    (w.stopManyTake env ids).2.sends = w.sends := by
  induction ids generalizing w with
  | nil => rfl
  | cons id ids ih =>
    simp only [stopManyTake]
    split
    · exact ih w
    · split_ifs <;> exact ih _

theorem stopManySignal_sends (env : Env) (entries : List (Process × Instant)) (w : World) :
    (w.stopManySignal env entries).2.sends = w.sends := by
  induction entries generalizing w with
  | nil => rfl
  | cons e entries ih => rw [stopManySignal, ih, Process.sendSignal_sends]

theorem stopManySweep_sends (env : Env) (now : Instant) (entries : List (Process × Instant))
    (w : World) : (w.stopManySweep env now entries).2.sends = w.sends := by
  induction entries generalizing w with
  | nil => rfl
  | cons e entries ih =>
    simp only [stopManySweep]
    split_ifs <;> simp [ih]

theorem stopManyPoll_sends (env : Env) (fuel : ℕ) (entries : List (Process × Instant)) (w : World) :
    (w.stopManyPoll env fuel entries).2.sends = w.sends := by
  induction fuel generalizing entries w with
  | zero => rfl
  | succ fuel ih =>
    simp only [stopManyPoll]
    split_ifs <;> simp [ih, stopManySweep_sends]

theorem stopManyEscalate_sends (env : Env) (entries : List Process) (w : World) :
    (w.stopManyEscalate env entries).2.sends = w.sends := by
  induction entries generalizing w with
  | nil => rfl
  | cons p entries ih =>
    simp only [stopManyEscalate]
    split <;> simp [ih]

@[simp] theorem stopMany_sends (env : Env) (ids : List ProcessId) (w : World) :
    (w.stopMany env ids).2.sends = w.sends := by
  have hreinsert : ∀ (entries : List Process) (w : World),
      (w.stopManyReinsert env entries).sends = w.sends := fun entries w =>
    Fold.foldl_invariant (I := fun w' : World => w'.sends = w.sends) rfl fun _ _ _ h => h
  have hkill : (w.stopManyKill env ids).2.sends = w.sends := by
    refine Fold.foldl_invariant (I := fun w' : World => w'.sends = w.sends) ?_
      fun w' p _ h => (awaitKill_sends env p w').trans h
    rw [stopManyEscalate_sends, stopManyPoll_sends, stopManySignal_sends, stopManyTake_sends]
  rw [stopMany, hreinsert, hkill]

/-! ### Restarts -/

theorem restartInPlace_sends (env : Env) (id : ProcessId) (p : Process) (w : World) :
    (w.restartInPlace env id p).2.sends = w.sends := by
  have hreset : (w.restartReset env id).sends = w.sends := by
    unfold restartReset
    split
    · rfl
    · exact Process.release_sends ..
  have hspawn := (spawnProcess_sends env .restart id p.config p.resolvedDeps (w.restartReset env id)).trans
    hreset
  simp only [restartInPlace]
  split
  · exact hspawn
  · simp only [restartStore]
    split
    · exact hspawn
    · split_ifs <;> exact hspawn

theorem restartInsert_sends (env : Env) (id : ProcessId) (p : Process) (w : World) :
    (w.restartInsert env id p).2.sends = w.sends := by
  unfold restartInsert
  split
  · exact spawnProcess_sends ..
  · rw [markStartedEntry_sends]
    exact spawnProcess_sends ..

end World

end ProcessManager
