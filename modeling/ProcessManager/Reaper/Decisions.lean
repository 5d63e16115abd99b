import ProcessManager.Reaper.Sections

/-! What one section of the reaper decides: which process it fails for its dependencies, and
which bindings it keeps. -/

namespace ProcessManager

variable {env : Env} {pollInterval : ℕ} {w w' : World} {id k : ProcessId} {p : Process}

/-! ### Failing -/

namespace ReaperPc

/-- The processes that the thread has decided to fail and not failed yet. -/
def toFail : ReaperPc → List ProcessId
  | .examine _ v | .resolve _ _ _ _ v | .extend _ _ _ v | .recheck _ _ v => v.toFail
  | .spawn _ ids | .fail ids => ids
  | .failRunning id _ _ => [id]
  | .discard _ _ rest => rest.toFail
  | _ => []

/-- The process that the next section decides on. -/
def decidesOn (env : Env) : ReaperPc → World → Option (ProcessId × Process)
  | .examine (id :: _) _, w =>
    ((w.processes.lookup id).filter fun p =>
      w.timedOut env p || p.resolvedDeps.length = p.config.dependsOn.length).map (id, ·)
  | .resolve id p deps _ _, w => if newlyResolved w.processes deps = [] then some (id, p) else none
  | .failFast (id :: _), w => (w.processes.lookup id).map (id, ·)
  | _, _ => none

/-- Its dependencies do not matter, since it has waited for too long. -/
def timesOut (env : Env) : ReaperPc → World → Process → Bool
  | .examine .., w, p => w.timedOut env p
  | _, _, _ => false

end ReaperPc

namespace World

theorem any_isTerminalDep_of_all {deps : List ProcessId} (h : deps.all (isRunningDep w.processes) = true) :
    deps.any (isTerminalDep w.processes) = false := by
  rw [List.any_eq_false]
  intro dep hdep hterminal
  have hrunning := List.all_eq_true.mp h dep hdep
  unfold isRunningDep at hrunning
  unfold isTerminalDep at hterminal
  cases hp : w.processes.lookup dep with
  | none => simp [hp] at hrunning
  | some p => simp_all

theorem failIfTerminal_toFail (id : ProcessId) (deps : List ProcessId) (v : Verdicts) (w : World) :
    (w.failIfTerminal id deps v).1.toFail =
      if deps.any (isTerminalDep w.processes) then v.toFail ++ [id] else v.toFail := by
  simp only [failIfTerminal]
  split_ifs <;> rfl

theorem checkResolved_toFail (id : ProcessId) (p : Process) (v : Verdicts) (w : World) :
    (w.checkResolved id p v).1.toFail =
      if p.resolvedDeps.any (isTerminalDep w.processes) then v.toFail ++ [id] else v.toFail := by
  simp only [checkResolved]
  split_ifs with hall hany hany
  · rw [any_isTerminalDep_of_all hall] at hany
    cases hany
  · rfl
  · rw [failIfTerminal_toFail, touch_processes, if_pos hany]
  · rw [failIfTerminal_toFail, touch_processes, if_neg hany]

theorem spawnIfReady_toFail (id : ProcessId) (p : Process) (v : Verdicts) (w : World) :
    (w.spawnIfReady id p v).1.toFail = v.toFail := by
  simp only [spawnIfReady]
  split_ifs <;> rfl

end World

namespace ReaperPc

end ReaperPc

/-! ### Bindings -/

/-- An entry keeps its id and what it is bound to. -/
structure Process.StaysBound (p p' : Process) : Prop where
  id : p'.id = p.id
  bound : p.resolvedDeps ⊆ p'.resolvedDeps

theorem Process.StaysBound.of_eq {p p' : Process} (hid : p'.id = p.id) (hdeps : p'.resolvedDeps = p.resolvedDeps) :
    p.StaysBound p' :=
  ⟨hid, hdeps ▸ fun _ h => h⟩

theorem Process.StaysBound.refl (p : Process) : p.StaysBound p := .of_eq rfl rfl

theorem Process.StaysBound.of_polled {p p' : Process} (h : Process.Polled id p p') : p.StaysBound p' := by
  obtain rfl | ⟨_, _, _, rfl⟩ := h
  · exact .refl p'
  · exact .of_eq rfl rfl

namespace World

/-- The entries of `w'` were there before, each bound as it was. -/
abbrev StayBound (w w' : World) : Prop :=
  AssocMap.Refines (fun _ => Process.StaysBound) w.processes w'.processes

theorem stayBound_of_processes (h : w'.processes = w.processes) : StayBound w w' := by
  unfold StayBound
  rw [h]
  exact .refl (fun _ q => .refl q) _

theorem stayBound_put {p' : Process} (hp : w.processes.lookup id = some p)
    (hmap : w'.processes = w.processes.replace id p') (h : p.StaysBound p') : StayBound w w' := by
  unfold StayBound
  rw [hmap]
  exact .replace (fun _ q => .refl q) hp h

theorem stayBound_phase1Visit (env : Env) (now : Instant) (id : ProcessId) (x : Exits) (w : World) :
    StayBound w (phase1Visit env now id (x, w)).2 := by
  obtain ⟨_, heq⟩ | ⟨p, w', hp, _, ⟨c, status, _, _, rfl, heq⟩ | ⟨hstep, _, heq⟩⟩ :=
    phase1Visit_cases env now id x w <;> rw [heq]
  · exact stayBound_of_processes rfl
  · have hwait : ((w.lock .exclusive id).tryWait env c).processes = w.processes :=
      (osStep_tryWait (P := fun _ => True) env (Set.mem_univ c) _).processes
    refine stayBound_put hp (congrArg (AList.replace id _) hwait) ?_
    exact .of_eq (Process.stableUptime_id now p) (Process.stableUptime_resolvedDeps now p)
  · refine stayBound_put hp (congrArg (AList.replace id _) hstep.processes) ?_
    split_ifs
    · exact .of_eq (Process.stableUptime_id now p) (Process.stableUptime_resolvedDeps now p)
    · exact .of_eq (Process.stableUptime_id now p) (Process.stableUptime_resolvedDeps now p)

theorem stayBound_cascadeKill (env : Env) (id : ProcessId) (w : World) : StayBound w (w.cascadeKill env id) := by
  obtain ⟨_, heq⟩ | ⟨p, hp, _, heq⟩ := cascadeKill_cases env id w <;> rw [heq]
  · exact stayBound_of_processes rfl
  · exact stayBound_put hp rfl (.of_eq rfl rfl)

theorem stayBound_scheduleEntry (env : Env) (now : Instant) (e : ExitedProcess) (w : World) :
    StayBound w (scheduleEntry env now e w) := by
  obtain ⟨heq, _⟩ | ⟨heq, _⟩ | ⟨config, label, p, w', _, hp, hstep, hcases⟩ :=
    scheduleEntry_cases (P := fun _ => True) env now e w
  · rw [heq]
    exact stayBound_of_processes rfl
  · rw [heq]
    exact stayBound_of_processes rfl
  · obtain ⟨_, heq⟩ | ⟨rs, rs', _, _, heq⟩ | ⟨rs, _, _, heq⟩ := hcases <;> rw [heq]
    · exact stayBound_put hp (congrArg (AList.replace e.id _) hstep.processes) (.of_eq rfl rfl)
    · exact stayBound_put hp (congrArg (AList.replace e.id _) hstep.processes) (.of_eq rfl rfl)
    · exact stayBound_put hp (congrArg (AList.replace e.id _) hstep.processes) (.of_eq rfl rfl)

theorem stayBound_kept {T : Set ℕ} {P : KillCall → Prop} (h : MapStep Kept T P w w') : StayBound w w' :=
  h.processes.mono fun _ q q' (hq : q' = q) => hq ▸ .refl q

theorem stayBound_discard (env : Env) (event : ProcessExitEvent) (inLoop : Bool) (w : World) :
    StayBound w (w.discard env event inLoop) := by
  simp only [discard]
  have hremove := mapStep_removeEntry (P := fun _ => False) event.id w
  split_ifs
  · exact stayBound_kept (hremove.trans kept_trans (mapStep_sendOrReturn event _))
  · exact stayBound_kept (hremove.trans kept_trans (.of_osStep kept_refl (osStep_send env event _)))

theorem stayBound_spawnWaitingHeld (env : Env) (id : ProcessId) (w : World) :
    StayBound w (w.spawnWaitingHeld env id).2 := by
  simp only [spawnWaitingHeld, spawnWaitingProcess, lock_processes]
  cases hp : w.processes.lookup id with
  | none => exact stayBound_of_processes rfl
  | some p =>
    simp only
    cases hspawn : (w.lock .exclusive id).spawnError env p.config with
    | some e =>
      have hmap : ((w.lock .exclusive id).spawnProcess env .spawnWaiting id p.config p.resolvedDeps).processes =
          w.processes := (osStep_spawnProcess (P := fun _ => True) (S := ∅) hspawn).processes
      exact stayBound_put hp (congrArg (AList.replace id _) hmap) (.of_eq rfl rfl)
    | none =>
      have hmap := ((Spawned.of_ok .spawnWaiting id p.resolvedDeps hspawn).tick_if p.restartState.isSome).processes
      exact stayBound_put hp (congrArg (AList.replace id _) hmap) (.of_eq rfl rfl)

theorem stayBound_extendEntry (id : ProcessId) (new : List ProcessId) (w : World) :
    StayBound w (w.extendEntry id new) := by
  simp only [extendEntry, lock_processes]
  cases hp : w.processes.lookup id with
  | none => exact stayBound_of_processes rfl
  | some p =>
    have hextend : p.StaysBound (p.extend new) := ⟨rfl, List.subset_append_left _ _⟩
    exact stayBound_put hp rfl hextend

theorem stayBound_failWaitingHeld (id : ProcessId) (w : World) : StayBound w (w.failWaitingHeld id).2 := by
  simp only [failWaitingHeld, lock_processes]
  cases hp : w.processes.lookup id with
  | none => exact stayBound_of_processes rfl
  | some p => exact stayBound_put hp rfl (.of_eq rfl rfl)

theorem stayBound_failRunningHeld (env : Env) (id : ProcessId) (p : Process) (w : World) :
    StayBound w (w.failRunningHeld env id p) := by
  simp only [failRunningHeld, lock_processes]
  cases hq : w.processes.lookup id with
  | none => exact stayBound_of_processes rfl
  | some q =>
    have hfailed : q.StaysBound { q with state := .failed } := .of_eq rfl rfl
    refine stayBound_put hq ?_ hfailed
    simp only
    split_ifs
    · exact Process.osStep_sendSignal.processes
    · rfl

/-- A respawn writes the entry it is given back, `Failed` or with a child. -/
theorem respawnHeld_processes (env : Env) (id : ProcessId) (p : Process) (w : World) :
    ∃ q, (w.respawnHeld env id p).2.processes = w.processes.replace id q ∧ q.id = p.id ∧
      q.resolvedDeps = p.resolvedDeps := by
  simp only [respawnHeld, respawn]
  cases hspawn : w.spawnError env p.config with
  | some e =>
    have hmap : (w.spawnProcess env .performRestart id p.config p.resolvedDeps).processes = w.processes :=
      (osStep_spawnProcess (P := fun _ => True) (S := ∅) hspawn).processes
    exact ⟨_, congrArg (AList.replace id _) hmap, rfl, rfl⟩
  | none =>
    have hmap := ((Spawned.of_ok .performRestart id p.resolvedDeps hspawn).tick_if p.restartState.isSome).processes
    exact ⟨_, congrArg (AList.replace id _) hmap, rfl, rfl⟩

/-- What an entry is bound to after Phase 4 came to it. -/
def boundAfter (p : Process) (w : World) : List ProcessId :=
  if p.config.dependsOn = [] then p.resolvedDeps else resolvedOrDefault w.processes p.config.dependsOn

/-- Phase 4 writes the entry back, bound to what its dependencies resolve to now. -/
theorem performRestartHeld_processes (env : Env) (hp : w.processes.lookup id = some p) :
    ∃ w' q, StayBound w w' ∧ (w.performRestartHeld env id).2.processes = w'.processes.replace id q ∧
      (∃ p', w'.processes.lookup id = some p') ∧ q.id = p.id ∧ q.resolvedDeps = w.boundAfter p := by
  have hpolled : ∀ (deps : List ProcessId) (w₁ : World), w₁.processes = w.processes →
      StayBound w (w₁.allDepsRunning env deps).2 ∧
        ∃ p', (w₁.allDepsRunning env deps).2.processes.lookup id = some p' := by
    intro deps w₁ hw₁
    refine ⟨?_, allDepsRunning_invariant (I := fun w' => ∃ p', w'.processes.lookup id = some p')
      (fun _ _ h => h) (fun _ _ h => h) ?_ deps ⟨p, hw₁ ▸ hp⟩⟩
    · unfold StayBound
      rw [← hw₁]
      exact (mapStep_allDepsRunning (P := fun _ => True) env deps w₁).processes.mono fun _ _ _ => .of_polled
    · rintro d q w₂ ⟨p', hp'⟩ _
      rw [pollEntry_processes, AssocMap.lookup_replace]
      split_ifs with hd
      · exact ⟨_, by rw [← hd, hp']; rfl⟩
      · exact ⟨p', hp'⟩
  simp only [performRestartHeld, lock_processes, hp, boundAfter]
  set resolved := resolvedOrDefault w.processes p.config.dependsOn
  set w₁ := (w.lock .exclusive id).touch .shared (resolveVisits w.processes p.config.dependsOn)
  obtain ⟨hstays, htracked⟩ := hpolled resolved w₁ rfl
  split_ifs with hdeps hlength hrunning
  · obtain ⟨q, hmap, hid, hbound⟩ := respawnHeld_processes env id p (w.lock .exclusive id)
    exact ⟨w, q, stayBound_of_processes rfl, hmap, ⟨p, hp⟩, hid, hbound⟩
  · obtain ⟨q, hmap, hid, hbound⟩ :=
      respawnHeld_processes env id { p with resolvedDeps := resolved } (w₁.allDepsRunning env resolved).2
    exact ⟨_, q, hstays, hmap, htracked, hid, hbound⟩
  · exact ⟨_, _, hstays, rfl, htracked, rfl, rfl⟩
  · exact ⟨w, _, stayBound_of_processes rfl, rfl, ⟨p, hp⟩, rfl, rfl⟩

theorem performRestartHeld_of_untracked (env : Env) (hp : w.processes.lookup id = none) :
    (w.performRestartHeld env id).2.processes = w.processes := by
  simp only [performRestartHeld, lock_processes, hp]
  rfl

end World

namespace ReaperPc

/-- The process whose dependencies the next section resolves again. -/
def resolvesAgain : ReaperPc → Option ProcessId
  | .restart (id :: _) => some id
  | _ => none

theorem exists_of_resolvesAgain {pc : ReaperPc} (h : pc.resolvesAgain = some id) :
    ∃ ids, pc = .restart (id :: ids) := by
  unfold resolvesAgain at h
  split at h
  · next i ids => exact ⟨ids, by rw [Option.some.inj h]⟩
  · cases h

/-- Every section but those of Phase 4 keeps what a process is bound to. -/
theorem stayBound_next (env : Env) (pollInterval : ℕ) {pc : ReaperPc} (h : pc.resolvesAgain = none) (w : World) :
    World.StayBound w (next env pollInterval pc w).2 := by
  have hsame : ∀ {T : Set ℕ} {w' : World}, OsStep T (fun _ => False) w w' → World.StayBound w w' :=
    fun hstep => World.stayBound_of_processes hstep.processes
  cases pc with
  | asleep => exact hsame ((World.osStep_sleep (S := ∅) env _ w).trans (World.osStep_tick env _))
  | detect now ids x =>
    cases ids with
    | nil => exact hsame (.refl w : OsStep ∅ _ w w)
    | cons id ids => exact World.stayBound_phase1Visit env now id x w
  | search now x origins targets => cases origins <;> exact hsame (.refl w : OsStep ∅ _ w w)
  | collect c ids found =>
    cases ids with
    | nil => exact hsame (.refl w : OsStep ∅ _ w w)
    | cons id ids => exact hsame (.touch _ _ _ : OsStep ∅ _ w _)
  | cascade now x targets =>
    cases targets with
    | nil => exact hsame (.refl w : OsStep ∅ _ w w)
    | cons id ids => exact World.stayBound_cascadeKill env id w
  | remove now exited ids =>
    cases ids with
    | nil => exact hsame (.refl w : OsStep ∅ _ w w)
    | cons id ids => exact World.stayBound_kept (World.mapStep_removeEntry (P := fun _ => False) id w)
  | report now exited pending =>
    cases pending with
    | nil => exact hsame (.refl w : OsStep ∅ _ w w)
    | cons e es => exact World.stayBound_kept (World.mapStep_sendOrReturn (P := fun _ => False) e.event w)
  | schedule now exited =>
    cases exited with
    | nil => exact hsame (.refl w : OsStep ∅ _ w w)
    | cons e es => exact World.stayBound_scheduleEntry env now e w
  | restart ids =>
    cases ids with
    | nil => exact hsame (.refl w : OsStep ∅ _ w w)
    | cons id ids => cases h
  | examine ids v =>
    cases ids with
    | nil => exact hsame (.refl w : OsStep ∅ _ w w)
    | cons id ids =>
      have hstep := hsame (World.osStep_examineHeld env id v w)
      simp only [next]
      split <;> exact hstep
  | resolve id p deps ids v =>
    have hstep := hsame (World.osStep_searchDeps id p deps v w)
    simp only [next]
    split_ifs <;> exact hstep
  | extend id new ids v => exact World.stayBound_extendEntry id new w
  | recheck id ids v => exact hsame (World.osStep_recheck id v w)
  | spawn ids failing =>
    cases ids with
    | nil => exact hsame (.refl w : OsStep ∅ _ w w)
    | cons id ids => exact World.stayBound_spawnWaitingHeld env id w
  | fail ids =>
    cases ids with
    | nil => exact hsame (.refl w : OsStep ∅ _ w w)
    | cons id ids => exact World.stayBound_failWaitingHeld id w
  | failFast ids =>
    cases ids with
    | nil => exact hsame (.refl w : OsStep ∅ _ w w)
    | cons id ids =>
      have hstep := hsame (World.osStep_failFastCheck id w)
      simp only [next]
      split <;> exact hstep
  | failRunning id p ids => exact World.stayBound_failRunningHeld env id p w
  | discard event inLoop rest => exact World.stayBound_discard env event inLoop w

/-- What a section does to an entry. -/
theorem refines_next (env : Env) (pollInterval : ℕ) (pc : ReaperPc) (w : World) :
    AssocMap.Refines (fun k p p' => p'.id = p.id ∧ (p.resolvedDeps ⊆ p'.resolvedDeps ∨
      (pc.resolvesAgain = some k ∧ p'.resolvedDeps = w.boundAfter p)))
      w.processes (next env pollInterval pc w).2.processes := by
  cases hagain : pc.resolvesAgain with
  | none => exact (stayBound_next env pollInterval hagain w).mono fun _ _ _ h => ⟨h.id, .inl h.bound⟩
  | some id =>
    obtain ⟨ids, rfl⟩ := exists_of_resolvesAgain hagain
    cases hp : w.processes.lookup id with
    | none =>
      have hsame : (next env pollInterval (.restart (id :: ids)) w).2.processes = w.processes :=
        World.performRestartHeld_of_untracked env hp
      rw [hsame]
      exact .refl (fun _ _ => ⟨rfl, .inl fun _ h => h⟩) _
    | some p =>
      obtain ⟨w', q, hstays, hmap, _, hid, hbound⟩ := World.performRestartHeld_processes env hp
      have hnext : (next env pollInterval (.restart (id :: ids)) w).2.processes = w'.processes.replace id q := hmap
      intro k p' hp'
      rw [hnext, AssocMap.lookup_replace] at hp'
      split_ifs at hp' with hk
      · obtain ⟨_, _, rfl⟩ := Option.map_eq_some_iff.mp hp'
        exact ⟨p, hk ▸ hp, hid, .inr ⟨congrArg some hk.symm, hbound⟩⟩
      · obtain ⟨p₀, hp₀, h⟩ := hstays k p' hp'
        exact ⟨p₀, hp₀, h.id, .inl h.bound⟩

end ReaperPc

end ProcessManager
