import ProcessManager.System.Blocking
import ProcessManager.System.Delays
import ProcessManager.System.Lifecycle
import ProcessManager.System.RestartReady

/-! That supervised processes come back. No pass leaves a restart behind that was due when it
read the clock, and the exit of a supervised child leads to a new child in the first pass that
is not too early. -/

namespace ProcessManager

variable {env : Env} {now : Instant} {pollInterval : ℕ} {C : Point → World → Process → Prop}
  {w w' : World} {id k : ProcessId} {p q : Process}

namespace World

/-! ### The reaper thread does not come back -/

theorem running_of_moves (h : Moves env C w w') (hr : w'.reaper = .running) : w.reaper = .running := by
  induction h with
  | refl => exact hr
  | tail _ hmove ih =>
    refine ih ?_
    obtain heq | hended := reaper_move hmove
    · rw [← heq, hr]
    · rcases hended with hended | hended <;> rw [hr] at hended <;> cases hended

theorem running_of_ifRunning {f : World → World} (h : (w.ifRunning f).reaper = .running) :
    w.reaper = .running ∧ w.ifRunning f = f w := by
  unfold ifRunning at h ⊢
  split_ifs at h ⊢ with hr
  · exact ⟨hr, rfl⟩
  · exact absurd h hr

/-! ### Processes that are not to be restarted -/

/-- The process is gone or in a state other than `Restarting`. -/
def NotRestarting (id : ProcessId) (w : World) : Prop :=
  ∀ p, w.processes.lookup id = some p → p.state ≠ .restarting

theorem NotRestarting.put (h : NotRestarting id w) (hprocesses : w'.processes = w.processes)
    (hq : q.state ≠ .restarting) : NotRestarting id (w'.put k q) := by
  intro p hp
  rw [put_processes, AssocMap.lookup_replace, hprocesses] at hp
  split_ifs at hp
  · obtain ⟨_, _, rfl⟩ := Option.map_eq_some_iff.mp hp
    exact hq
  · exact h p hp

theorem NotRestarting.insert (h : NotRestarting id w) (hprocesses : w'.processes = w.processes)
    (hq : q.state ≠ .restarting) : NotRestarting id (w'.insert env k q) := by
  intro p hp
  rw [insert_processes, AssocMap.lookup_reorder, AssocMap.lookup_insert_eq, hprocesses] at hp
  split_ifs at hp
  · exact Option.some.inj hp ▸ hq
  · exact h p hp

theorem NotRestarting.of_polled (h : NotRestarting id w)
    (hmap : AssocMap.Refines Process.Polled w.processes w'.processes) : NotRestarting id w' := by
  intro p' hp' hstate
  obtain ⟨p, hp, rfl | ⟨_, s, hs, rfl⟩⟩ := hmap id p' hp'
  · exact h p' hp hstate
  · rcases hs with hs | hs <;> rw [show s = .restarting from hstate] at hs <;> cases hs

/-- Only Phase 3 puts a process into `Restarting`. -/
theorem notRestarting_move (h : NotRestarting id w) (hmove : Move env C w w') : NotRestarting id w' := by
  have hkept : ∀ {w₁ w₂ : World} {S : Set ℕ} {P : KillCall → Prop}, NotRestarting id w₁ →
      MapStep Kept S P w₁ w₂ → NotRestarting id w₂ := by
    intro w₁ w₂ S P h₁ hstep p hp
    obtain ⟨q, hq, rfl⟩ := hstep.processes id p hp
    exact h₁ p hq
  cases hmove with
  | frame hstep => exact hkept h hstep
  | count => exact h
  | poll hp => exact h.of_polled (mapStep_pollEntry (P := fun _ => True) hp).processes
  | @stop i _ _ _ _ _ hstep =>
    exact hkept (hkept h (MapStep.remove (S := ∅) (P := fun _ => True) i w)) (.of_osStep kept_refl hstep)
  | batch _ hstep =>
    intro p hp
    obtain ⟨q, hq, ⟨_, rfl⟩ | ⟨rfl, _⟩⟩ := hstep.processes id p hp
    · exact h p hq
    · simp
  | signal _ _ _ hstep => exact hkept h (.of_osStep kept_refl hstep)
  | @adjust i r r' _ hr hadjust =>
    intro p hp
    rw [put_processes, AssocMap.lookup_replace] at hp
    split_ifs at hp with hi
    · rw [hr, Option.map_some, Option.some.injEq] at hp
      rw [← hp, hadjust.state]
      exact h r (hi ▸ hr)
    · exact h p hp
  | @reset i r _ w₁ hr hstate hstep =>
    intro p hp
    rw [put_processes, AssocMap.lookup_replace, hstep.processes] at hp
    split_ifs at hp with hi
    · exact absurd hstate (h r (hi ▸ hr))
    · exact h p hp
  | spawn hp _ hspawn hrespawned => exact h.put hspawn.processes (by simp [hrespawned.state])
  | insert _ hspawn _ _ _ hstate => exact h.insert hspawn.processes (by simp [hstate])
  | insertWaiting _ _ _ _ hstate => exact h.insert rfl (by simp [hstate])
  | toWaiting _ _ _ _ _ hstate => exact h.put rfl (by simp [hstate])
  | timeout => exact h.put rfl (by simp)
  | failFast _ _ _ hstep => exact hkept h hstep

theorem notRestarting_moves (h : NotRestarting id w) (hmoves : Moves env C w w') : NotRestarting id w' :=
  hmoves.invariant (fun _ _ => notRestarting_move) h

/-! ### Phase 4 -/

/-- `perform_restart` takes its own process out of `Restarting`. -/
theorem notRestarting_performRestart (env : Env) (id : ProcessId) (w : World) :
    NotRestarting id (w.performRestart env id) := by
  have hrespawn : ∀ (r : Process) (w₁ : World), NotRestarting id (w₁.respawn env id r) := by
    intro r w₁ p hp
    obtain ⟨w₂, _, heq⟩ | ⟨w₂, _, hspawn, heq⟩ := respawn_cases (P := fun _ => True) env id r w₁ <;> rw [heq] at hp
    · rw [failSpawn_lookup, if_pos rfl] at hp
      cases hp
    · rw [unlock_processes, put_processes, AssocMap.lookup_replace, if_pos rfl] at hp
      obtain ⟨_, _, rfl⟩ := Option.map_eq_some_iff.mp hp
      simp
  have hwaiting : ∀ (r : Process) (deps : List ProcessId) (w₁ : World),
      NotRestarting id (w₁.restartToWaiting env id r deps) := by
    intro r deps w₁ p hp
    rw [restartToWaiting, unlock_processes, put_processes, AssocMap.lookup_replace, if_pos rfl] at hp
    obtain ⟨_, _, rfl⟩ := Option.map_eq_some_iff.mp hp
    simp
  obtain ⟨hnone, heq⟩ | ⟨p, hp, ⟨_, heq⟩ | ⟨w₁, resolved, rfl, _, ⟨_, _, heq⟩ | heq | heq⟩⟩ :=
    performRestart_cases env id w <;> rw [heq]
  · intro p hp
    rw [unlock_processes, lock_processes, hnone] at hp
    cases hp
  · exact hrespawn _ _
  · exact hrespawn _ _
  · exact hwaiting _ _ _
  · exact hwaiting _ _ _

theorem NotRestarting.performRestart (h : NotRestarting id w) (env : Env) (k : ProcessId) :
    NotRestarting id (w.performRestart env k) := by
  by_cases hk : id = k
  · rw [← hk]
    exact notRestarting_performRestart env id w
  · intro p' hp' hstate
    obtain ⟨p, hp, rfl | ⟨_, s, hs, rfl⟩⟩ := performRestart_other hk hp'
    · exact h p' hp hstate
    · rcases hs with hs | hs <;> rw [show s = .restarting from hstate] at hs <;> cases hs

/-- What Phase 4 finds due is restarted, queued or given up. -/
theorem notRestarting_phase4 (env : Env) (hdue : id ∈ w.restartIds now) : NotRestarting id (w.phase4 env now) := by
  obtain ⟨before, after, hids⟩ := List.append_of_mem hdue
  rw [phase4, hids, List.foldl_append, List.foldl_cons]
  exact Fold.foldl_invariant (I := NotRestarting id) (notRestarting_performRestart env id _)
    fun w' k _ hw' => hw'.performRestart env k

/-- A process that is in `Restarting` after a pass was not due when the pass read the clock, and
is as Phase 3 left it. -/
theorem restarting_of_reaperPass (hr : (w.reaperPass env pollInterval).reaper = .running)
    (hp : (w.reaperPass env pollInterval).processes.lookup id = some p) (hstate : p.state = .restarting) :
    restartDue (w.awake env pollInterval).clock p = false ∧
      (w.afterPhase3 env pollInterval).processes.lookup id = some p := by
  have hmoves : Moves env (fun _ _ _ => True) (w.afterPhase3 env pollInterval) (w.reaperPass env pollInterval) :=
    moves_afterPhase3 pollInterval w
  have hrunning := running_of_moves hmoves hr
  have hlater : NotRestarting id (w.beforePhase5 env pollInterval) → False := fun h => by
    have h5 := ifRunning_invariant (f := phase5 env) h fun _ =>
      notRestarting_moves h (moves_phase5 (C := fun _ _ _ => True) _)
    have h6 := ifRunning_invariant (f := phase6 env) h5 fun _ =>
      notRestarting_moves h5 (moves_phase6 (C := fun _ _ _ => True) _)
    exact h6 p hp hstate
  have h4 : w.beforePhase5 env pollInterval =
      (w.afterPhase3 env pollInterval).phase4 env (w.awake env pollInterval).clock := if_pos hrunning
  obtain ⟨q, hq, hq'⟩ : ∃ q, (w.afterPhase3 env pollInterval).processes.lookup id = some q ∧
      q.state = .restarting := by
    by_contra hnone
    rw [not_exists] at hnone
    have hmoves4 : Moves env (fun _ _ _ => True) (w.afterPhase3 env pollInterval)
      (w.beforePhase5 env pollInterval) := moves_beforePhase5 pollInterval w
    exact hlater (notRestarting_moves (fun q hq hq' => hnone q ⟨hq, hq'⟩) hmoves4)
  cases hdue : restartDue (w.awake env pollInterval).clock q with
  | true =>
    refine (hlater ?_).elim
    rw [h4]
    exact notRestarting_phase4 env (AssocMap.mem_keysWhere.mpr ⟨q, hq, hdue⟩)
  | false =>
    have hq4 : (w.beforePhase5 env pollInterval).processes.lookup id = some q := by
      rw [h4]
      exact lookup_phase4_restarting hq hq' hdue
    have hq6 : (w.reaperPass env pollInterval).processes.lookup id = some q :=
      lookup_laterPhases_restarting hq4 hq'
    obtain rfl : p = q := Option.some.inj (hp.symm.trans hq6)
    exact ⟨hdue, hq⟩

/-! ### The spawn -/

end World

/-- The executable is found whenever it is looked for, and no spawn of it fails. -/
def Env.Spawns (env : Env) (config : ProcessConfig) : Prop :=
  ∀ n, (World.resolveExecutable (env.which n) config).isSome = true ∧ env.spawnFails n = false

namespace World

theorem spawns_of_move (h : Move env C w w') : Grows (fun _ => True) w.spawns w'.spawns := by
  have hrevives : Revives ⟨0⟩ w w' := revives_move h
  exact hrevives.spawns

theorem grows_of_moves (h : Moves env C w w') : Grows (fun _ => True) w.spawns w'.spawns :=
  h.invariant (I := fun w' : World => Grows (fun _ => True) w.spawns w'.spawns)
    (fun _ _ hw hmove => hw.trans (spawns_of_move hmove)) (.refl _)

theorem spawnError_of_spawns {config : ProcessConfig} (h : env.Spawns config) (w : World) :
    w.spawnError env config = none := by
  obtain ⟨hresolved, hfails⟩ := h w.ticks
  obtain ⟨program, hprogram⟩ := Option.isSome_iff_exists.mp hresolved
  simp [spawnError, hprogram, hfails]

/-- A call that spawns a child for `id` when its restart is due. -/
def RestartCall (id : ProcessId) (k : SpawnCall) : Prop := k.site = .performRestart ∧ k.id = id

/-- `perform_restart` spawns a process without dependencies. -/
theorem gains_performRestart (hspawns : env.Spawns p.config) (hdeps : p.config.dependsOn = [])
    (hp : w.processes.lookup id = some p) :
    Gains (RestartCall id) w.spawns (w.performRestart env id).spawns := by
  have hok : (w.lock .exclusive id).spawnError env p.config = none := spawnError_of_spawns hspawns _
  obtain ⟨program, hnew⟩ := (Spawned.of_ok .performRestart id p.resolvedDeps hok).spawns
  simp only [performRestart, lock_processes, hp, hdeps, ↓reduceIte, respawn, hok]
  have hlogged : Gains (RestartCall id) w.spawns
      ((w.lock .exclusive id).spawnProcess env .performRestart id p.config p.resolvedDeps).spawns := by
    rw [hnew]
    exact .cons _ ⟨rfl, rfl⟩
  split_ifs <;> exact hlogged

/-! ### What becomes of a restart that is due -/

/-- A child is spawned for the process, or it waits for its dependencies, or it is given up, and
whoever listens is told that it has failed. -/
def Handled (id : ProcessId) (w w' : World) : Prop :=
  Gains (RestartCall id) w.spawns w'.spawns ∨
  (∃ p, w'.processes.lookup id = some p ∧ p.state = .waiting) ∨
  (id ∉ w'.processes ∧ (w'.receiverAlive = true → ∃ s, w.sentFor id w' = [s] ∧ s.event.state = .failed))

/-- `perform_restart` spawns a child, sends the process to the dependency wait or removes it. -/
theorem performRestart_outcome (env : Env) (hp : w.processes.lookup id = some p) :
    Gains (RestartCall id) w.spawns (w.performRestart env id).spawns ∨
      (∃ q, (w.performRestart env id).processes.lookup id = some q ∧ q.state = .waiting) ∨
      (w.performRestart env id).processes.lookup id = none := by
  have hrespawn : ∀ (r : Process) (w₁ : World), w₁.spawns = w.spawns →
      Gains (RestartCall id) w.spawns (w₁.respawn env id r).spawns ∨
        (∃ q, (w₁.respawn env id r).processes.lookup id = some q ∧ q.state = .waiting) ∨
        (w₁.respawn env id r).processes.lookup id = none := by
    intro r w₁ hsame
    obtain ⟨w₂, _, heq⟩ | ⟨w₂, _, hspawn, heq⟩ := respawn_cases (P := fun _ => True) env id r w₁ <;> rw [heq]
    · exact .inr (.inr (by rw [failSpawn_lookup, if_pos rfl]))
    · obtain ⟨program, hnew⟩ := hspawn.spawns
      rw [hsame] at hnew
      refine .inl ?_
      show Gains (RestartCall id) w.spawns w₂.spawns
      rw [hnew]
      exact .cons _ ⟨rfl, rfl⟩
  by_cases hdeps : p.config.dependsOn = []
  · simp only [performRestart, lock_processes, hp, hdeps, ↓reduceIte]
    exact hrespawn p _ rfl
  · have htracked : ∃ q, (w.performAt id p).processes.lookup id = some q := ⟨p, hp⟩
    rw [performRestart_of_deps hp hdeps]
    extract_lets resolved polled
    split_ifs
    · exact hrespawn _ _ (mapStep_allDepsRunning (P := fun _ => True) env resolved _).spawns
    · exact .inr (.inl (leftWaiting_restartToWaiting env p resolved (tracked_allDepsRunning resolved htracked)).2)
    · exact .inr (.inl (leftWaiting_restartToWaiting env p resolved htracked).2)

/-- What the restarts of other processes leave as it is. -/
structure LeavesIdle (id : ProcessId) (w w' : World) : Prop where
  spawns : Grows (fun _ => True) w.spawns w'.spawns
  idle : ∀ p, w.processes.lookup id = some p → p.state = .restarting ∨ p.state = .waiting →
    w'.processes.lookup id = some p
  gone : w.processes.lookup id = none → w'.processes.lookup id = none

theorem LeavesIdle.refl (id : ProcessId) (w : World) : LeavesIdle id w w := ⟨.refl _, fun _ h _ => h, fun h => h⟩

theorem LeavesIdle.trans (h : LeavesIdle id w w') (h' : LeavesIdle id w' w'') : LeavesIdle id w w'' where
  spawns := h.spawns.trans h'.spawns
  idle p hp hstate := h'.idle p (h.idle p hp hstate) hstate
  gone hnone := h'.gone (h.gone hnone)

theorem leavesIdle_performRestart (env : Env) (hk : k ≠ id) (w : World) : LeavesIdle id w (w.performRestart env k) where
  spawns := (evolves_performRestart env k w).spawns.mono fun _ _ => trivial
  idle p hp hstate := by
    obtain ⟨p', hp', rfl | ⟨hs, _⟩, _⟩ := checked_performRestart env hk.symm hp
    · exact hp'
    · rcases hstate with hstate | hstate <;> simp [hstate] at hs
  gone hnone := by
    refine Option.eq_none_iff_forall_ne_some.mpr fun q hq => ?_
    obtain ⟨p, hp, _⟩ := performRestart_other hk.symm hq
    rw [hnone] at hp
    cases hp

/-- Up to its turn in Phase 4 a process is left as it is, and what its turn leaves behind stays. -/
theorem leavesIdle_around (env : Env) (hp : w.processes.lookup id = some p) (hdue : restartDue now p = true) :
    ∃ w', LeavesIdle id w w' ∧ LeavesIdle id (w'.performRestart env id) (w.phase4 env now) := by
  have hmem : id ∈ w.restartIds now := AssocMap.mem_keysWhere.mpr ⟨p, hp, hdue⟩
  obtain ⟨hbefore, hafter⟩ := Fold.foldl_around (r := LeavesIdle id) (f := fun w k => w.performRestart env k) (.refl id)
    (fun _ _ _ => .trans) (fun w' k hk => leavesIdle_performRestart env hk w') (AssocMap.nodup_keysWhere _ _) hmem
    (w.touch .shared w.processes.keys)
  exact ⟨_, ⟨hbefore.spawns, hbefore.idle, hbefore.gone⟩, hafter⟩

theorem gains_phase4 (hspawns : env.Spawns p.config) (hdeps : p.config.dependsOn = [])
    (hp : w.processes.lookup id = some p) (hstate : p.state = .restarting) (hdue : restartDue now p = true) :
    Gains (RestartCall id) w.spawns (w.phase4 env now).spawns := by
  obtain ⟨w', hbefore, hafter⟩ := leavesIdle_around env hp hdue
  have hturn := gains_performRestart hspawns hdeps (hbefore.idle p hp (.inl hstate))
  exact (hturn.before hafter.spawns).after hbefore.spawns

/-- Phase 4 handles every restart that is due. -/
theorem handled_phase4 (env : Env) (hp : w.processes.lookup id = some p) (hdue : restartDue now p = true) :
    Handled id w (w.phase4 env now) := by
  have hstate : p.state = .restarting := by
    by_contra hne
    simp [restartDue, hne] at hdue
  obtain ⟨w', hbefore, hafter⟩ := leavesIdle_around env hp hdue
  obtain hspawned | ⟨q, hq, hwaiting⟩ | hgone := performRestart_outcome env (hbefore.idle p hp (.inl hstate))
  · exact .inl ((hspawned.before hafter.spawns).after hbefore.spawns)
  · exact .inr (.inl ⟨q, hafter.idle q hq (.inr hwaiting), hwaiting⟩)
  · have hnone : id ∉ (w.phase4 env now).processes := AList.lookup_eq_none.mp (hafter.gone hgone)
    refine .inr (.inr ⟨hnone, fun halive => ?_⟩)
    have hends : Ends id w (w.phase4 env now) := ends_phase4 now w
    obtain ⟨hiff, _⟩ | ⟨_, _, s, hs, hfailure⟩ := hends.outcome halive
    · exact absurd (hiff.mpr (mem_of_lookup hp)) hnone
    · exact ⟨s, hs, hfailure.state⟩

/-! ### The schedule -/

/-- Entries track restarts as their configuration asks. -/
def Tracks (w : World) : Prop :=
  ∀ i q, w.processes.lookup i = some q → q.restartState.isSome = q.config.restartOnExit

theorem Tracks.of_same {w w' : World} (h : w.Tracks) (hmap : ∀ i q', w'.processes.lookup i = some q' →
    q'.restartState.isSome = q'.config.restartOnExit ∨ ∃ q, w.processes.lookup i = some q ∧
      q'.config = q.config ∧ q'.restartState.isSome = q.restartState.isSome) : w'.Tracks := by
  intro i q' hq'
  obtain htracks | ⟨q, hq, hconfig, htracks⟩ := hmap i q' hq'
  · exact htracks
  · rw [htracks, hconfig, h i q hq]

theorem Tracks.put (h : w.Tracks) (hprocesses : w'.processes = w.processes)
    (hp : w.processes.lookup k = some p) (hsame : p.Same q) : (w'.put k q).Tracks := by
  refine h.of_same fun i q' hq' => .inr ?_
  rw [put_processes, AssocMap.lookup_replace, hprocesses] at hq'
  split_ifs at hq' with hi
  · rw [hp, Option.map_some, Option.some.injEq] at hq'
    subst hi hq'
    exact ⟨p, hp, hsame.config, hsame.tracks⟩
  · exact ⟨q', hq', rfl, rfl⟩

theorem Tracks.insert (h : w.Tracks) (hprocesses : w'.processes = w.processes) (hfresh : p.Fresh k) :
    (w'.insert env k p).Tracks := by
  refine h.of_same fun i q' hq' => ?_
  rw [insert_processes, AssocMap.lookup_reorder, AssocMap.lookup_insert_eq, hprocesses] at hq'
  split_ifs at hq'
  · exact .inl (Option.some.inj hq' ▸ hfresh.tracks)
  · exact .inr ⟨q', hq', rfl, rfl⟩

theorem tracks_move (h : w.Tracks) (hmove : Move env C w w') : w'.Tracks := by
  have hkept : ∀ {w₁ w₂ : World} {S : Set ℕ} {P : KillCall → Prop}, w₁.Tracks → MapStep Kept S P w₁ w₂ →
      w₂.Tracks := fun h₁ hstep => h₁.of_same fun i q' hq' => by
    obtain ⟨q, hq, rfl⟩ := hstep.processes i q' hq'
    exact .inr ⟨q', hq, rfl, rfl⟩
  cases hmove with
  | frame hstep => exact hkept h hstep
  | count => exact h
  | poll hp =>
    refine h.of_same fun i q' hq' => .inr ?_
    obtain ⟨q, hq, rfl | ⟨_, s, _, rfl⟩⟩ := (mapStep_pollEntry (P := fun _ => True) hp).processes i q' hq'
    · exact ⟨q', hq, rfl, rfl⟩
    · exact ⟨q, hq, rfl, rfl⟩
  | @stop i _ _ _ _ _ hstep =>
    exact hkept (hkept h (MapStep.remove (S := ∅) (P := fun _ => True) i w)) (.of_osStep kept_refl hstep)
  | batch _ hstep =>
    refine h.of_same fun i q' hq' => .inr ?_
    obtain ⟨q, hq, ⟨_, rfl⟩ | ⟨rfl, _⟩⟩ := hstep.processes i q' hq'
    · exact ⟨q', hq, rfl, rfl⟩
    · exact ⟨q, hq, rfl, rfl⟩
  | signal _ _ _ hstep => exact hkept h (.of_osStep kept_refl hstep)
  | adjust hp hadjust => exact h.put rfl hp hadjust.toSame
  | reset hp _ hstep =>
    exact h.put hstep.processes hp (.of_map rfl rfl rfl fun _ => Nat.zero_le _)
  | spawn hp _ hspawn hrespawned => exact h.put hspawn.processes hp hrespawned.toSame
  | insert _ hspawn hfresh => exact h.insert hspawn.processes hfresh
  | insertWaiting _ hfresh => exact h.insert rfl hfresh
  | toWaiting hp _ hsame => exact h.put rfl hp hsame
  | timeout hp => exact h.put rfl hp (.of_eq rfl rfl rfl)
  | failFast _ _ _ hstep => exact hkept h hstep

theorem tracks_afterPhase3 (hkey : ∀ i q, w.processes.lookup i = some q → q.id = i) (h : w.Tracks) :
    (w.afterPhase3 env pollInterval).Tracks :=
  h.of_same fun i q' hq' => by
    obtain ⟨q, hq, hsettles⟩ := settles_afterPhase3 hkey i q' hq'
    exact .inr ⟨q, hq, hsettles.config, hsettles.tracks⟩

/-- How long after the pass that finds an exit the process is restarted. -/
def restartNanos (config : ProcessConfig) (rs : RestartState) : ℕ :=
  match getBackoffConfig config with
  | some b => b.cappedNanos rs.recordRestart.exponent
  | none => 0

theorem nextEligible_eq {config : ProcessConfig} (h : scheduleState env now config rs = some rs') :
    rs'.nextEligibleRestart = some (now + restartNanos config rs) := by
  unfold restartNanos
  split
  · next b hb => exact nextEligible_of_scheduleState hb h
  · next hb =>
    simp only [scheduleState, hb, Option.some.injEq] at h
    rw [← h]
    rfl

/-- If the reaper survives Phase 3, every exit that leads to a restart is scheduled. -/
theorem scheduled_phase3 {exited : List ExitedProcess} {config : ProcessConfig} {label : Label}
    (hnodup : (exited.map ExitedProcess.id).Nodup) (he : e ∈ exited)
    (hconfig : e.restartConfig = some (config, label)) (hq : w.processes.lookup e.id = some q)
    (hrs : q.restartState = some rs) (hr : (w.phase3 env now exited).reaper = .running) :
    ∃ rs', scheduleState env now config rs = some rs' ∧ (w.phase3 env now exited).processes.lookup e.id =
      some { q with child := none, restartState := some rs', state := .restarting } := by
  obtain ⟨before, after, rfl⟩ := List.append_of_mem he
  rw [List.map_append, List.map_cons] at hnodup
  have hbefore : ∀ f ∈ before, f.id ≠ e.id := fun f hf heq =>
    List.disjoint_of_nodup_append hnodup (List.mem_map_of_mem hf) (heq ▸ List.mem_cons_self)
  have hafter : ∀ f ∈ after, f.id ≠ e.id := fun f hf heq =>
    (List.nodup_cons.mp (List.nodup_append.mp hnodup).2.1).1 (heq ▸ List.mem_map_of_mem hf)
  set w₁ := w.phase3 env now before with hw₁
  have hq' : w₁.processes.lookup e.id = some q := by rw [hw₁, lookup_phase3 hbefore, hq]
  have hsplit : w.phase3 env now (before ++ e :: after) =
      (w₁.ifRunning (scheduleEntry env now e)).phase3 env now after := by
    simp only [hw₁, phase3, List.foldl_append, List.foldl_cons]
  rw [hsplit] at hr ⊢
  -- the thread did not end on the way, so this exit was not the one that made it panic
  have hturn : (w₁.ifRunning (scheduleEntry env now e)).reaper = .running := by
    have hkeep : KeepStep (w₁.ifRunning (scheduleEntry env now e))
        ((w₁.ifRunning (scheduleEntry env now e)).phase3 env now after) := keepStep_phase3 after _
    obtain heq | hended := hkeep.reaper
    · rw [← heq, hr]
    · rcases hended with hended | hended <;> rw [hr] at hended <;> cases hended
  obtain ⟨_, heq⟩ := running_of_ifRunning hturn
  rw [heq] at hturn
  rw [lookup_phase3 hafter, heq]
  obtain ⟨_, hnone⟩ | ⟨_, hnone⟩ | ⟨config', label', q', w', hconfig', hq'', hstep, hcases⟩ :=
    scheduleEntry_cases (P := fun _ => True) env now e w₁
  · rw [hconfig] at hnone
    cases hnone
  · rw [hq'] at hnone
    cases hnone
  · obtain rfl : q = q' := Option.some.inj (hq'.symm.trans hq'')
    obtain ⟨rfl, rfl⟩ : config = config' ∧ label = label' := by
      rw [hconfig, Option.some.injEq, Prod.mk.injEq] at hconfig'
      exact hconfig'
    obtain ⟨hnone, _⟩ | ⟨rs₁, rs', hrs₁, hschedule, heq'⟩ | ⟨_, _, _, heq'⟩ := hcases
    · rw [hrs] at hnone
      cases hnone
    · obtain rfl : rs = rs₁ := Option.some.inj (hrs.symm.trans hrs₁)
      refine ⟨rs', hschedule, ?_⟩
      rw [heq', unlock_processes, put_processes, AssocMap.lookup_replace, if_pos rfl, hstep.processes,
        lock_processes, hq', Option.map_some]
    · rw [heq'] at hturn
      cases hturn

/-- The entry that Phase 3 makes of an exit that leads to a restart. -/
theorem scheduled_afterPhase3 (hkey : ∀ i q, w.processes.lookup i = some q → q.id = i) (hidle : Idle w)
    (htracks : w.Tracks) (hr : (w.afterPhase3 env pollInterval).reaper = .running)
    (he : e ∈ (w.detect env pollInterval).1.exited) (hrestart : e.restartConfig.isSome = true)
    (hp : w.processes.lookup e.id = some p) :
    ∃ rs q rs', (p.stableUptime (w.awake env pollInterval).clock).restartState = some rs ∧
      (w.afterPhase3 env pollInterval).processes.lookup e.id = some q ∧ q.state = .restarting ∧
      q.config = p.config ∧ q.restartState = some rs' ∧
      rs'.nextEligibleRestart = some ((w.awake env pollInterval).clock + restartNanos p.config rs) := by
  obtain ⟨⟨config, label⟩, hconfig⟩ := Option.isSome_iff_exists.mp hrestart
  have hphase := phase1State_detect env pollInterval hkey
  obtain ⟨p', status, hp', hafter, hrecord⟩ := hphase.recorded e he
  obtain rfl : p = p' := Option.some.inj (hp.symm.trans hp')
  have hrecorded := hrecord.record ▸ hconfig
  have hon : p.config.restartOnExit = true := by
    rw [← Process.stableUptime_config (w.awake env pollInterval).clock p]
    exact (Process.restartConfig_record hrecorded).2
  obtain ⟨rs, hrs⟩ : ∃ rs, (p.stableUptime (w.awake env pollInterval).clock).restartState = some rs := by
    rw [← Option.isSome_iff_exists, (Process.same_stableUptime _ p).tracks, htracks e.id p hp, hon]
  -- Phase 2 leaves the entry, since it is to be restarted
  obtain ⟨q, hq⟩ : ∃ q, (w.passDetect env pollInterval).2.2.processes.lookup e.id = some q := by
    have hkept : e.id ∉ (w.detect env pollInterval).1.toRemove := by
      intro hmem
      obtain ⟨f, hf, hnone⟩ := (mem_toRemove_iff env pollInterval w e.id).mp hmem
      obtain ⟨hf, hid⟩ := List.mem_filter.mp hf
      obtain rfl : f = e := List.inj_on_of_nodup_map hphase.exited_nodup hf he (by simpa using hid)
      rw [hconfig] at hnone
      cases hnone
    rw [passDetect_eq, lookup_phase2 hkept, cascade, (killed_phase1b env _ _).lookup e.id, hafter, Option.map_some]
    exact ⟨_, rfl⟩
  obtain ⟨hsame, hrestart, _⟩ := passDetect_of_exited hkey hidle he hp hq
  obtain rfl : config = p.config := hsame config label hconfig
  have heq : w.afterPhase3 env pollInterval = (w.passDetect env pollInterval).2.2.phase3 env
      (w.awake env pollInterval).clock (w.detect env pollInterval).1.exited := (running_of_ifRunning hr).2
  rw [heq] at hr ⊢
  obtain ⟨rs', hschedule, hlookup⟩ := scheduled_phase3 hphase.exited_nodup he hconfig hq (hrestart.trans hrs) hr
  refine ⟨rs, _, rs', hrs, hlookup, rfl, ?_, rfl, nextEligible_eq hschedule⟩
  obtain ⟨r, hr, hkept⟩ := (mapStep_passDetect (P := fun _ => True) env pollInterval w).processes e.id q hq
  obtain ⟨r', hr', hsettles⟩ := settles_cascade hkey e.id r hr
  obtain rfl : p = r' := Option.some.inj (hp.symm.trans hr')
  rw [← hsettles.config, show q = r from hkept]

/-! ### Passes -/

theorem restartDue_of_le {t : Instant} (hstate : p.state = .restarting) (hrs : p.restartState = some rs)
    (ht : rs.nextEligibleRestart = some t) (hnow : t ≤ now) : restartDue now p = true := by
  simp [restartDue, hstate, hrs, RestartState.isEligibleForRestart, ht, hnow]

/-- A restart that is due in Phase 4 of a pass which the reaper survives is a spawn. -/
theorem gains_reaperPass (hr : (w.reaperPass env pollInterval).reaper = .running)
    (hspawns : env.Spawns q.config) (hdeps : q.config.dependsOn = [])
    (hq : (w.afterPhase3 env pollInterval).processes.lookup id = some q) (hstate : q.state = .restarting)
    (hdue : restartDue (w.awake env pollInterval).clock q = true) :
    Gains (RestartCall id) w.spawns (w.reaperPass env pollInterval).spawns := by
  have hmoves : Moves env (fun _ _ _ => True) (w.afterPhase3 env pollInterval) (w.reaperPass env pollInterval) :=
    moves_afterPhase3 pollInterval w
  have hrunning := running_of_moves hmoves hr
  have h4 : w.beforePhase5 env pollInterval =
      (w.afterPhase3 env pollInterval).phase4 env (w.awake env pollInterval).clock := if_pos hrunning
  have hgains : Gains (RestartCall id) w.spawns (w.beforePhase5 env pollInterval).spawns := by
    rw [h4, ← (keepStep_toPhase3 env pollInterval w).spawns]
    exact gains_phase4 hspawns hdeps hq hstate hdue
  have h5 : Moves env (fun _ _ _ => True) (w.beforePhase5 env pollInterval)
      ((w.beforePhase5 env pollInterval).ifRunning (phase5 env)) :=
    ifRunning_invariant .refl fun _ => moves_phase5 _
  have h6 : Moves env (fun _ _ _ => True) (w.beforePhase5 env pollInterval) (w.reaperPass env pollInterval) :=
    ifRunning_invariant (f := phase6 env) h5 fun _ => h5.trans (moves_phase6 _)
  exact hgains.before (grows_of_moves h6)

theorem lookup_afterPhase3_restarting (h : w.Regular) (hp : w.processes.lookup id = some p)
    (hstate : p.state = .restarting) : (w.afterPhase3 env pollInterval).processes.lookup id = some p := by
  rw [lookup_afterPhase3 (exitsOf_of_childless pollInterval h.sound.key hp (h.idle id p hp (.inr hstate)))]
  exact lookup_cascade_of_not_active (lookup_detect_restarting hp hstate) (by simp [hstate]) (by simp [hstate])

theorem running_of_passes {n m : ℕ} (hnm : n ≤ m) (hr : (passes env pollInterval m w).reaper = .running) :
    (passes env pollInterval n w).reaper = .running := by
  induction m, hnm using Nat.le_induction with
  | base => exact hr
  | succ m _ ih =>
    rw [passes_succ] at hr
    exact ih (running_of_ifRunning hr).1

/-- A process that a pass has put into `Restarting` until `t` is left alone by the passes before
`t`, and the first pass from `t` on spawns its child. -/
theorem respawned_when_due (h : w.Regular) {t : Instant}
    (hq : (w.afterPhase3 env pollInterval).processes.lookup id = some q) (hstate : q.state = .restarting)
    (hrs : q.restartState = some rs) (ht : rs.nextEligibleRestart = some t) (hspawns : env.Spawns q.config)
    (hdeps : q.config.dependsOn = []) {n : ℕ} (hr : (passes env pollInterval (n + 1) w).reaper = .running)
    (hearly : ∀ k < n, ((passes env pollInterval k w).awake env pollInterval).clock < t)
    (hlate : t ≤ ((passes env pollInterval n w).awake env pollInterval).clock) :
    (∀ k < n, (passes env pollInterval (k + 1) w).processes.lookup id = some q) ∧
      Gains (RestartCall id) (passes env pollInterval n w).spawns
        (passes env pollInterval (n + 1) w).spawns := by
  have hw : w.reaper = .running := running_of_passes (n := 0) (Nat.zero_le _) hr
  have hheld : ∀ k < n, (passes env pollInterval (k + 1) w).processes.lookup id = some q := fun k hk =>
    lookup_passes h hw hq hstate hrs ht k fun j hj => hearly j (hj.trans_lt hk)
  refine ⟨hheld, ?_⟩
  have hdue := restartDue_of_le hstate hrs ht hlate
  rw [passes_succ] at hr ⊢
  obtain ⟨_, heq⟩ := running_of_ifRunning hr
  rw [heq] at hr ⊢
  refine gains_reaperPass hr hspawns hdeps ?_ hstate hdue
  cases n with
  | zero => exact hq
  | succ n => exact lookup_afterPhase3_restarting (h.passes (n + 1)) (hheld n n.lt_succ_self) hstate

end World

/-! ### Runs -/

namespace System

variable (env : Env) (pollInterval : ℕ)

theorem tracks_run {s : System} (hs : s.Initial) (actions : List Action) :
    (s.run env pollInterval actions).world.Tracks := by
  have hempty : s.world.processes = ∅ := by
    rcases hs with rfl | rfl <;> rfl
  have hinit : s.world.Tracks := by simp [World.Tracks, hempty]
  exact later_invariant env pollInterval (fun _ _ => World.tracks_move) (fun _ hw => World.tracks_afterPhase3 hw.key)
    (sound_run env pollInterval hs []) hinit actions

/-- No pass that ends, with the reaper thread still running, leaves a process in `Restarting` whose
restart was due when the pass read the clock: Phase 4 handles each of them. -/
theorem nothing_overdue {σ : Type*} [DecidableEq σ] {shard : ProcessId → σ} {s s' : System}
    (hpass : step? shard env pollInterval s .pass = some s') (hr : s'.world.reaper = .running) (id : ProcessId) :
    (∀ p, s'.world.processes.lookup id = some p → p.state = .restarting →
      World.restartDue (s.world.awake env pollInterval).clock p = false) ∧
    ∀ p, (s.world.afterPhase3 env pollInterval).processes.lookup id = some p →
      World.restartDue (s.world.awake env pollInterval).clock p = true →
        World.Handled id (s.world.afterPhase3 env pollInterval) (s.world.beforePhase5 env pollInterval) := by
  obtain ⟨_, rfl⟩ := step?_eq_some_iff.mp hpass
  have hstep : (step env pollInterval s .pass).world = s.world.ifRunning (World.reaperPass env pollInterval) := rfl
  rw [hstep] at hr ⊢
  obtain ⟨_, heq⟩ := World.running_of_ifRunning hr
  rw [heq] at hr ⊢
  refine ⟨fun p hp hstate => (World.restarting_of_reaperPass hr hp hstate).1, fun p hp hdue => ?_⟩
  have hmoves : World.Moves env (fun _ _ _ => True) (s.world.afterPhase3 env pollInterval)
      (s.world.reaperPass env pollInterval) := World.moves_afterPhase3 pollInterval s.world
  have h4 : s.world.beforePhase5 env pollInterval =
      (s.world.afterPhase3 env pollInterval).phase4 env (s.world.awake env pollInterval).clock :=
    if_pos (World.running_of_moves hmoves hr)
  rw [h4]
  exact World.handled_phase4 env hp hdue

/-- The pass that finds the crash of this process also restarts it. -/
def briefCrash : System := withReaper.run webCrashes 0 [.start ⟨"web"⟩ brief]

theorem nothing_overdue_briefCrash : ∃ p, (briefCrash.world.afterPhase3 webCrashes 0).processes.lookup ⟨1⟩ = some p ∧
    World.restartDue (briefCrash.world.awake webCrashes 0).clock p = true ∧
    World.Handled ⟨1⟩ (briefCrash.world.afterPhase3 webCrashes 0) (briefCrash.world.beforePhase5 webCrashes 0) := by
  have hentry : ((briefCrash.world.afterPhase3 webCrashes 0).processes.lookup ⟨1⟩).map
      (World.restartDue (briefCrash.world.awake webCrashes 0).clock) = some true := by decide +kernel
  obtain ⟨p, hp, hdue⟩ := Option.map_eq_some_iff.mp hentry
  have hpass : step? ProcessId.raw webCrashes 0 briefCrash .pass = some (briefCrash.step webCrashes 0 .pass) :=
    step?_eq_some_iff.mpr ⟨by decide +kernel, rfl⟩
  exact ⟨p, hp, hdue, (nothing_overdue webCrashes 0 hpass (by decide +kernel) ⟨1⟩).2 p hp hdue⟩

theorem run_passes (n : ℕ) (s : System) :
    (s.run env pollInterval (List.replicate n .pass)).world = World.passes env pollInterval n s.world := by
  induction n with
  | zero => rfl
  | succ n ih =>
    rw [List.replicate_succ', run, List.foldl_append, World.passes_succ, ← ih]
    rfl

/-- The pass leaves `id` in `Restarting` until `t`. As long as only passes follow, those before `t` leave
the entry as it is, and the first one from `t` on spawns a child, if it ends with the reaper thread
running. -/
def RespawnsAt {σ : Type*} [DecidableEq σ] (shard : ProcessId → σ) (env : Env) (pollInterval : ℕ) (id : ProcessId)
    (t : Instant) (s : System) : Prop :=
  ∃ q, (s.world.afterPhase3 env pollInterval).processes.lookup id = some q ∧ q.state = .restarting ∧
    ∀ n s', run? shard env pollInterval (List.replicate (n + 1) .pass) s = some s' → s'.world.reaper = .running →
      (∀ k < n, ((World.passes env pollInterval k s.world).awake env pollInterval).clock < t) →
        (((World.passes env pollInterval n s.world).awake env pollInterval).clock < t →
          s'.world.processes.lookup id = some q) ∧
        (t ≤ ((World.passes env pollInterval n s.world).awake env pollInterval).clock →
          Gains (World.RestartCall id) (World.passes env pollInterval n s.world).spawns s'.world.spawns)

/-- The pass that follows finds the exit of a tracked child, unless `try_wait` fails. -/
theorem exists_exited_detect {w : World} (h : w.Regular) (hp : w.processes.lookup id = some p) (hstate : p.state ≠ .restarting)
    {c : ℕ} {ch : OsChild} (hc : p.child = some c) (hch : w.children[c]? = some ch) (hexited : ch.isRunning = false)
    (hwaits : ∀ n, env.waitFails n = false) : ∃ e ∈ (w.detect env pollInterval).1.exited, e.id = id := by
  have hawake := World.osStep_awake (S := ∅) (P := fun _ => False) env pollInterval w
  obtain ⟨ch', hch', hage⟩ := hawake.children c ch hch
  have hexited' : ch'.isRunning = false := by
    by_contra hrunning
    rw [hage.running (by simpa using hrunning)] at hexited
    cases hexited
  exact exists_exited (w.awake env pollInterval).clock (hawake.processes ▸ h.sound.key) (hawake.processes ▸ hp)
    hstate hc hch' hexited' hwaits

variable {env pollInterval} in
theorem respawnsAt_of_scheduled {σ : Type*} [DecidableEq σ] {shard : ProcessId → σ} {s : System} (h : s.world.Regular)
    {t : Instant} (hq : (s.world.afterPhase3 env pollInterval).processes.lookup id = some q) (hstate : q.state = .restarting)
    (hrs : q.restartState = some rs) (ht : rs.nextEligibleRestart = some t) (hspawns : env.Spawns q.config)
    (hdeps : q.config.dependsOn = []) : s.RespawnsAt shard env pollInterval id t := by
  refine ⟨q, hq, hstate, fun n s' hrun hr hearly => ?_⟩
  obtain ⟨_, rfl⟩ := run?_eq_some_iff.mp hrun
  rw [run_passes] at hr ⊢
  have hw : s.world.reaper = .running := World.running_of_passes (n := 0) (Nat.zero_le _) hr
  refine ⟨fun hnow => ?_, fun hlate => (World.respawned_when_due h hq hstate hrs ht hspawns hdeps hr hearly hlate).2⟩
  refine World.lookup_passes h hw hq hstate hrs ht n fun k hk => ?_
  obtain hlt | rfl := hk.lt_or_eq
  · exact hearly k hlt
  · exact hnow

/-- In every state of a run, the pass that follows finds the exit of a tracked child. If the exit
leads to a restart, the passes that follow leave a process without dependencies alone until its delay
has passed, and the first one that is not too early spawns a child. -/
theorem crash_respawned {σ : Type*} [DecidableEq σ] {shard : ProcessId → σ} {s s' : System} (hs : s.Initial)
    {actions : List Action} (hrun : run? shard env pollInterval actions s = some s') {id : ProcessId} {p : Process}
    {c : ℕ} {ch : OsChild} (hp : s'.world.processes.lookup id = some p) (hc : p.child = some c)
    (hch : s'.world.children[c]? = some ch) (hexited : ch.isRunning = false) (hwaits : ∀ n, env.waitFails n = false) :
    ∃ e ∈ (s'.world.detect env pollInterval).1.exited, e.id = id ∧
      (e.restartConfig.isSome = true → p.config.dependsOn = [] → env.Spawns p.config →
        (s'.world.afterPhase3 env pollInterval).reaper = .running →
          ∃ rs, (p.stableUptime (s'.world.awake env pollInterval).clock).restartState = some rs ∧
            s'.RespawnsAt shard env pollInterval id
              ((s'.world.awake env pollInterval).clock + World.restartNanos p.config rs)) := by
  obtain ⟨_, rfl⟩ := run?_eq_some_iff.mp hrun
  have hregular := regular_run env pollInterval hs actions
  have htracks := tracks_run env pollInterval hs actions
  have hstate : p.state ≠ .restarting := fun hstate => by
    rw [hregular.idle id p hp (.inr hstate)] at hc
    cases hc
  obtain ⟨e, he, rfl⟩ := exists_exited_detect env pollInterval hregular hp hstate hc hch hexited hwaits
  refine ⟨e, he, rfl, fun hrestart hdeps hspawns hr => ?_⟩
  obtain ⟨rs, q, rs', hrs, hq, hq', hconfig, hrs', ht⟩ :=
    World.scheduled_afterPhase3 hregular.sound.key hregular.idle htracks hr he hrestart hp
  exact ⟨rs, hrs, respawnsAt_of_scheduled hregular hq hq' hrs' ht (hconfig ▸ hspawns) (hconfig ▸ hdeps)⟩

/-- The child has crashed before the first pass. -/
def earlyCrash : Env := .exitsAt [(1, ⟨0, .code 1, 0⟩)]

/-- A process that is restarted one second after each crash. -/
def everySecond : ProcessConfig := { brief with restartPolicy := .backoff constant }

def crashed : System := withReaper.run earlyCrash (10 ^ 9) [.start ⟨"web"⟩ everySecond]

/-- The first pass finds the crash, and the second, one second later, spawns a child. -/
theorem crash_respawned_everySecond :
    Gains (World.RestartCall ⟨1⟩) (World.passes earlyCrash (10 ^ 9) 1 crashed.world).spawns
      (crashed.run earlyCrash (10 ^ 9) (List.replicate 2 .pass)).world.spawns := by
  have hentry : (crashed.world.processes.lookup ⟨1⟩).map (fun p => (p.child, p.config)) =
      some (some 0, everySecond) := by decide +kernel
  have hspawns : earlyCrash.Spawns everySecond := by
    have hresolved : (World.resolveExecutable some everySecond).isSome = true := by decide
    exact fun _ => ⟨hresolved, rfl⟩
  have hchild : crashed.world.children[0]? = some ⟨1, .exited (.code 1) 0⟩ := by decide +kernel
  have hrecord : (crashed.world.detect earlyCrash (10 ^ 9)).1.exited.map (fun e => e.restartConfig.isSome) = [true] := by
    decide +kernel
  have hdelay : (crashed.world.processes.lookup ⟨1⟩).map (fun p => (p.stableUptime
      (crashed.world.awake earlyCrash (10 ^ 9)).clock).restartState.map (World.restartNanos p.config)) =
        some (some (10 ^ 9)) := by decide +kernel
  have hrun : run? ProcessId.raw earlyCrash (10 ^ 9) [.start ⟨"web"⟩ everySecond] withReaper = some crashed :=
    run?_of_apart (by decide +kernel)
  have hpasses : run? ProcessId.raw earlyCrash (10 ^ 9) (List.replicate 2 .pass) crashed =
      some (crashed.run earlyCrash (10 ^ 9) (List.replicate 2 .pass)) := run?_of_apart (by decide +kernel)
  obtain ⟨p, hp, hpair⟩ := Option.map_eq_some_iff.mp hentry
  rw [Prod.mk.injEq] at hpair
  obtain ⟨hc, hconfig⟩ := hpair
  obtain ⟨e, he, hid, hrespawned⟩ := crash_respawned earlyCrash (10 ^ 9) (.inr rfl) hrun hp hc hchild (by decide) fun _ => rfl
  have hrestart : e.restartConfig.isSome = true := by
    have hmem := List.mem_map_of_mem (f := fun e : ExitedProcess => e.restartConfig.isSome) he
    exact List.mem_singleton.mp (hrecord ▸ hmem)
  obtain ⟨rs, hrs, q, _, _, hlater⟩ := hrespawned hrestart (by rw [hconfig]; rfl) (hconfig ▸ hspawns) (by decide +kernel)
  rw [hp, Option.map_some, hrs, Option.map_some, Option.some.injEq, Option.some.injEq] at hdelay
  rw [hdelay] at hlater
  refine (hlater 1 _ hpasses (by decide +kernel) fun k hk => ?_).2 (by decide +kernel)
  obtain rfl : k = 0 := by omega
  decide +kernel

end System

end ProcessManager
