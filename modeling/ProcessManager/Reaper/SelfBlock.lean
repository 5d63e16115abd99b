import ProcessManager.Reaper.Loop

/-! Which guards a reaper pass holds when it requests another one. Every section of the
pass is entered and left without guards. Only `perform_restart` requests guards on other
keys under an exclusive guard: on the keys its label searches visit and on the
dependencies it polls. -/

namespace ProcessManager

open Guards

variable {σ : Type*} {shard : ProcessId → σ}

namespace World

variable {env : Env} {now : Instant} {id : ProcessId} {p : Process} {w : World}

/-! ### Sections without nested guards -/

theorem section_phase1Visit (x : Exits) (w : World) :
    Section shard w.locks (phase1Visit env now id (x, w)).2.locks := by
  simp only [phase1Visit, lock_processes]
  split
  · exact .guard _ _ _
  · split_ifs
    · exact .guard _ _ _
    all_goals
      split <;> simp only [unlock_locks, put_locks, Process.tryWaitExit_locks, lock_locks] <;>
        exact .guard _ _ _

theorem section_cascadeKill (id : ProcessId) (w : World) :
    Section shard w.locks (w.cascadeKill env id).locks := by
  obtain ⟨_, heq⟩ | ⟨p, _, _, heq⟩ := cascadeKill_cases env id w <;> rw [heq] <;>
    exact .guard _ _ _

theorem section_sendOrReturn (event : ProcessExitEvent) (w : World) :
    Section shard w.locks (w.sendOrReturn env event).locks := by
  refine .of_eq ?_
  simp only [sendOrReturn]
  split_ifs <;> exact send_locks env event w

theorem section_removeEntry (id : ProcessId) (w : World) :
    Section shard w.locks (w.removeEntry id).locks := .guard _ _ _

theorem section_ifRunning {f : World → World} (h : Section shard w.locks (f w).locks) :
    Section shard w.locks (w.ifRunning f).locks := by
  unfold ifRunning
  split_ifs
  · exact h
  · exact .refl _

theorem section_scheduleEntry (e : ExitedProcess) (w : World) :
    Section shard w.locks (scheduleEntry env now e w).locks := by
  simp only [scheduleEntry, lock_processes]
  split
  · exact .refl _
  · split
    · exact .guard _ _ _
    · split
      · simp only [unlock_locks, put_locks, Process.release_locks, lock_locks]
        exact .guard _ _ _
      · split <;> simp only [unlock_locks, put_locks, Process.release_locks, lock_locks] <;>
          exact .guard _ _ _

theorem section_failWaiting (id : ProcessId) (w : World) :
    Section shard w.locks (w.failWaiting env id).locks := by
  simp only [failWaiting, lock_processes]
  split
  · exact .guard _ _ _
  · refine .trans ?_ (section_sendOrReturn _ _)
    exact .trans (.guard .exclusive id w.locks) (.guard .exclusive id _)

/-- The spawn of an entry that stays locked, and the removal after a failed one. -/
theorem section_failSpawn (log : List (Event ProcessId)) (h : w.locks = .acquire .exclusive id :: log) :
    Section shard log (w.failSpawn env id p).locks := by
  have hlocks : (w.failSpawn env id p).locks = .release .exclusive id :: .acquire .exclusive id ::
      .release .exclusive id :: w.locks := send_locks ..
  rw [hlocks, h]
  exact .trans (.guard _ _ _) (.guard _ _ _)

theorem section_spawnWaitingProcess (id : ProcessId) (w : World) :
    Section shard w.locks (w.spawnWaitingProcess env id).locks := by
  simp only [spawnWaitingProcess, lock_processes]
  split
  · exact .guard _ _ _
  · next p hp =>
    split
    · exact section_failSpawn w.locks (spawnProcess_locks ..)
    · have hlocks : ∀ b : Bool, (if b then (spawnProcess env .spawnWaiting id p.config p.resolvedDeps
          (w.lock .exclusive id)).tick env else spawnProcess env .spawnWaiting id p.config
            p.resolvedDeps (w.lock .exclusive id)).locks = .acquire .exclusive id :: w.locks := by
        intro b
        cases b <;> exact spawnProcess_locks ..
      simp only [unlock_locks, put_locks, hlocks]
      exact .guard _ _ _

/-! ### Sections with shared guards under a shared guard -/

theorem section_examine (id : ProcessId) (v : Verdicts) (w : World) :
    Section shard w.locks (examine env id (v, w)).2.locks := by
  have hread : ∀ p, ((w.lock .shared id).readElapsed env p).locks = .acquire .shared id :: w.locks := by
    intro p
    unfold readElapsed
    split_ifs <;> rfl
  simp only [examine, lock_processes]
  split
  · exact .guard _ _ _
  · next p hp =>
    split_ifs
    · simp only [unlock_locks, hread]
      exact .guard _ _ _
    · simp only [resolveMore]
      split_ifs
      · rw [(failIfTerminal_spec _ _ _ _).2]
        simp only [touch_locks, unlock_locks, hread]
        exact .trans (.nested _ _ _) (.trans (.touch _ _ _) (.touch _ _ _))
      · simp only [spawnIfReady_snd, unlock_locks, touch_locks, lock_locks, put_locks, hread]
        exact .trans (.nested _ _ _) (.trans (.touch _ _ _) (.trans (.guard _ _ _) (.nested _ _ _)))
    · simp only [checkResolved]
      split_ifs
      · simp only [unlock_locks, touch_locks, hread]
        exact .nested _ _ _
      · rw [(failIfTerminal_spec _ _ _ _).2]
        simp only [unlock_locks, touch_locks, hread, ← touch_append]
        exact .nested _ _ _

theorem section_failRunning (id : ProcessId) (p : Process) (w : World) :
    Section shard w.locks (w.failRunning env id p).locks := by
  refine .trans ?_ (section_sendOrReturn _ _)
  refine .trans ?_ (section_removeEntry _ _)
  simp only [unlock_locks, lock_processes]
  split
  · exact .guard _ _ _
  · split_ifs <;> simp only [Process.sendSignal_locks, put_locks, lock_locks] <;> exact .guard _ _ _

theorem section_failFast (id : ProcessId) (w : World) :
    Section shard w.locks (w.failFast env id).locks := by
  simp only [failFast, lock_processes]
  split
  · exact .guard _ _ _
  · split_ifs
    · refine .trans ?_ (section_failRunning _ _ _)
      exact .nested _ _ _
    · exact .nested _ _ _

/-! ### The restart of one process -/

variable (env) in
/-- The dependencies that `all_deps_running` polls: all up to the first that is not
`Running`. -/
def polledDeps : List ProcessId → World → List ProcessId
  | [], _ => []
  | dep :: deps, w =>
    let w := w.lock .exclusive dep
    dep :: match w.processes.lookup dep with
      | none => []
      | some p =>
        if p.state = .waiting then []
        else if (p.pollState env w).1.state = .running then
          polledDeps deps ((w.pollEntry env dep p).unlock .exclusive dep)
        else []

theorem allDepsRunning_locks (deps : List ProcessId) (w : World) :
    (w.allDepsRunning env deps).2.locks = Guards.touch .exclusive (polledDeps env deps w) w.locks := by
  induction deps generalizing w with
  | nil => rfl
  | cons dep deps ih =>
    cases hp : w.processes.lookup dep with
    | none =>
      simp only [allDepsRunning, polledDeps, lock_processes, hp]
      rfl
    | some p =>
      have hpoll : ((w.lock .exclusive dep).pollEntry env dep p).locks =
          .acquire .exclusive dep :: w.locks := Process.pollState_locks env p _
      simp only [allDepsRunning, polledDeps, lock_processes, hp]
      split_ifs
      · rfl
      · rw [ih, unlock_locks, hpoll]
        rfl
      · simp only [unlock_locks, hpoll]
        rfl

variable (env) (shard) in
/-- No key that `perform_restart` visits under its guard on `id` shares the shard of `id`. -/
def RestartUnblocked (id : ProcessId) (w : World) : Prop :=
  ∀ p, w.processes.lookup id = some p →
    let deps := p.config.dependsOn
    let resolved := resolvedOrDefault w.processes deps
    (∀ k ∈ resolveVisits w.processes deps, shard k ≠ shard id) ∧
      (resolved.length = deps.length → ∀ k ∈ polledDeps env resolved
        ((w.lock .exclusive id).touch .shared (resolveVisits w.processes deps)), shard k ≠ shard id)

instance [DecidableEq σ] (shard : ProcessId → σ) (env : Env) (id : ProcessId) (w : World) :
    Decidable (RestartUnblocked shard env id w) :=
  inferInstanceAs (Decidable (∀ p ∈ w.processes.lookup id, _ ∧ (_ → _)))

variable (env) (shard) in
/-- A `perform_restart` that returns: one that does not wait for a guard of its own thread. -/
def performRestart? [DecidableEq σ] (id : ProcessId) (w : World) : Option World :=
  if RestartUnblocked shard env id w then some (w.performRestart env id) else none

/-- Guards on other keys block under an exclusive guard on `id` exactly when a key shares
its shard. -/
theorem noSelfBlock_touch_exclusive {log : List (Event ProcessId)} (h : held log = [(.exclusive, id)])
    (m : Mode) (ks : List ProcessId) :
    NoSelfBlock shard (Guards.touch m ks log) ↔
      NoSelfBlock shard log ∧ ∀ k ∈ ks, shard k ≠ shard id := by
  rw [noSelfBlock_touch, h]
  simp only [conflict_singleton, or_true, and_true, ne_eq, eq_comm]

/-- What follows a section under an exclusive guard on `id`: the guard is dropped. -/
def Closes (shard : ProcessId → σ) (id : ProcessId) (log log' : List (Event ProcessId)) : Prop :=
  held log = [(.exclusive, id)] →
    held log' = [] ∧ (NoSelfBlock shard log' ↔ NoSelfBlock shard log)

theorem closes_release (log : List (Event ProcessId)) :
    Closes shard id log (.release .exclusive id :: log) := by
  intro h
  simp [held, h, NoSelfBlock]

theorem closes_respawn (shard : ProcessId → σ) (env : Env) (p : Process) (w : World) :
    Closes shard id w.locks (w.respawn env id p).locks := by
  intro h
  simp only [respawn]
  split
  · obtain ⟨hheld, hblock⟩ := (closes_release w.locks : Closes shard id _ _) h
    have hlocks : ((w.spawnProcess env .performRestart id p.config p.resolvedDeps).failSpawn env id
        p).locks = .release .exclusive id :: .acquire .exclusive id :: .release .exclusive id ::
          w.locks := by
      rw [← spawnProcess_locks env .performRestart id p.config p.resolvedDeps w]
      exact send_locks ..
    obtain ⟨hheld', hblock'⟩ := (Section.guard .exclusive id _ : Section shard _ _) hheld
    rw [hlocks]
    exact ⟨hheld', hblock'.trans hblock⟩
  · have hlocks : ∀ b : Bool, (if b then (w.spawnProcess env .performRestart id p.config
        p.resolvedDeps).tick env else w.spawnProcess env .performRestart id p.config
          p.resolvedDeps).locks = w.locks := by
      intro b
      cases b <;> exact spawnProcess_locks ..
    simp only [unlock_locks, put_locks, hlocks]
    exact closes_release w.locks h

theorem closes_restartToWaiting (shard : ProcessId → σ) (env : Env) (p : Process) (resolved : List ProcessId) (w : World) :
    Closes shard id w.locks (w.restartToWaiting env id p resolved).locks :=
  closes_release w.locks

/-- The guards that `perform_restart` requests under its guard on `id` decide. -/
theorem noSelfBlock_performRestart (shard : ProcessId → σ) (env : Env) (id : ProcessId) (w : World) (h : held w.locks = []) :
    held (w.performRestart env id).locks = [] ∧
      (NoSelfBlock shard (w.performRestart env id).locks ↔
        NoSelfBlock shard w.locks ∧ RestartUnblocked shard env id w) := by
  have hheld : held (w.lock .exclusive id).locks = [(.exclusive, id)] := by simp [held, h]
  have hlocked : NoSelfBlock shard (w.lock .exclusive id).locks ↔ NoSelfBlock shard w.locks := by
    simp [NoSelfBlock, h, not_conflict_nil]
  cases hp : w.processes.lookup id with
  | none =>
    obtain ⟨hheld', hblock⟩ := (Section.guard .exclusive id w.locks : Section shard _ _) h
    simp only [performRestart, lock_processes, hp]
    refine ⟨hheld', hblock.trans (and_iff_left ?_).symm⟩
    simp [RestartUnblocked, hp]
  | some p =>
    have hcond : RestartUnblocked shard env id w ↔ _ :=
      ⟨fun hr => hr p hp, fun hr q hq => Option.some.inj (hp.symm.trans hq) ▸ hr⟩
    rw [hcond]
    simp only [performRestart, lock_processes, hp]
    generalize hw₁ : (w.lock .exclusive id).touch .shared
      (resolveVisits w.processes p.config.dependsOn) = w₁
    have hvisits : held w₁.locks = [(.exclusive, id)] ∧ (NoSelfBlock shard w₁.locks ↔
        NoSelfBlock shard w.locks ∧
          ∀ k ∈ resolveVisits w.processes p.config.dependsOn, shard k ≠ shard id) := by
      rw [← hw₁, touch_locks, held_touch, noSelfBlock_touch_exclusive hheld, hlocked]
      exact ⟨hheld, Iff.rfl⟩
    generalize hresolved : resolvedOrDefault w.processes p.config.dependsOn = resolved
    have hpolls : held (w₁.allDepsRunning env resolved).2.locks = [(.exclusive, id)] ∧
        (NoSelfBlock shard (w₁.allDepsRunning env resolved).2.locks ↔
          NoSelfBlock shard w₁.locks ∧ ∀ k ∈ polledDeps env resolved w₁, shard k ≠ shard id) := by
      rw [allDepsRunning_locks, held_touch, noSelfBlock_touch_exclusive hvisits.1]
      exact ⟨hvisits.1, Iff.rfl⟩
    split_ifs with hdeps hlength hrunning
    · obtain ⟨hclosed, hblock⟩ := closes_respawn shard env p _ hheld
      refine ⟨hclosed, (hblock.trans hlocked).trans (and_iff_left ?_).symm⟩
      rw [hdeps] at hresolved ⊢
      simp [resolveVisits, ← hresolved, resolvedOrDefault, resolveDependencies, polledDeps]
    · obtain ⟨hclosed, hblock⟩ := closes_respawn shard env { p with resolvedDeps := resolved } _
        hpolls.1
      refine ⟨hclosed, hblock.trans ?_⟩
      rw [hpolls.2, hvisits.2, and_assoc, imp_iff_right hlength]
    · obtain ⟨hclosed, hblock⟩ := closes_restartToWaiting shard env p resolved _ hpolls.1
      refine ⟨hclosed, hblock.trans ?_⟩
      rw [hpolls.2, hvisits.2, and_assoc, imp_iff_right hlength]
    · obtain ⟨hclosed, hblock⟩ := closes_restartToWaiting shard env p resolved _ hvisits.1
      refine ⟨hclosed, hblock.trans (hvisits.2.trans (and_congr_right fun _ => ?_))⟩
      exact (and_iff_left fun hl => absurd hl hlength).symm

/-! ### A whole pass -/

/-- Sections in a row are a section. -/
theorem section_foldl {α : Type*} {f : World → α → World}
    (h : ∀ w a, Section shard w.locks (f w a).locks) (as : List α) (w : World) :
    Section shard w.locks (as.foldl f w).locks :=
  Fold.foldl_rel (r := fun w w' : World => Section shard w.locks w'.locks) (fun _ => .refl _)
    (fun _ _ _ => .trans) h as w

theorem section_phase1 (now : Instant) (w : World) :
    Section shard w.locks (w.phase1 env now).2.locks :=
  Fold.foldl_rel (r := fun x y : Exits × World => Section shard x.2.locks y.2.locks)
    (f := fun x id => phase1Visit env now id x) (fun _ => .refl _) (fun _ _ _ => .trans)
    (fun x _ => section_phase1Visit x.1 x.2) w.processes.keys (.empty, w)

theorem section_phase1b (origins : List CascadeOrigin) (w : World) :
    Section shard w.locks (w.phase1b env origins).locks := by
  have htouch : Section shard w.locks
      (origins.foldl (fun w _ => w.touch .shared w.processes.keys) w).locks :=
    section_foldl (fun _ _ => .touch _ _ _) origins w
  exact htouch.trans (section_foldl (fun w id => section_cascadeKill id w) _ _)

theorem section_phase2 (x : Exits) (w : World) : Section shard w.locks (w.phase2 env x).locks := by
  have hremove : Section shard w.locks (x.toRemove.foldl (fun w id => w.removeEntry id) w).locks :=
    section_foldl (fun w id => section_removeEntry id w) x.toRemove w
  exact hremove.trans
    (section_foldl (fun w (e : ExitedProcess) => section_ifRunning (section_sendOrReturn e.event w)) _ _)

theorem section_passDetect (pollInterval : ℕ) (w : World) :
    Section shard w.locks (w.passDetect env pollInterval).2.2.locks :=
  (section_phase1 _ ((w.sleep env pollInterval).tick env)).trans
    ((section_phase1b _ _).trans (section_phase2 _ _))

theorem section_phase5 (w : World) : Section shard w.locks (w.phase5 env).locks := by
  have hverdicts : Section shard w.locks (w.verdicts env).2.locks := by
    refine .trans (.touch .shared w.processes.keys w.locks) ?_
    exact Fold.foldl_rel (r := fun x y : Verdicts × World => Section shard x.2.locks y.2.locks)
      (f := fun x id => examine env id x) (fun _ => .refl _) (fun _ _ _ => .trans)
      (fun x id => section_examine id x.1 x.2) w.waitingIds
      (⟨[], []⟩, w.touch .shared w.processes.keys)
  refine .trans hverdicts (.trans (section_foldl ?_ _ _) (section_foldl ?_ _ _))
  · exact fun w id => section_spawnWaitingProcess id w
  · exact fun w id => section_ifRunning (section_failWaiting id w)

theorem section_phase6 (w : World) : Section shard w.locks (w.phase6 env).locks :=
  .trans (.touch .shared w.processes.keys w.locks)
    (section_foldl (fun w id => section_ifRunning (section_failFast id w)) w.runningWithDeps
      (w.touch .shared w.processes.keys))

/-- Phase 4 blocks on itself exactly when one of its restarts does. -/
theorem noSelfBlock_restarts (shard : ProcessId → σ) (env : Env) (ids : List ProcessId) (w : World)
    (h : held w.locks = []) :
    held (ids.foldl (fun w id => w.performRestart env id) w).locks = [] ∧
      (NoSelfBlock shard (ids.foldl (fun w id => w.performRestart env id) w).locks ↔
        NoSelfBlock shard w.locks ∧ Fold.Meets (fun w id => RestartUnblocked shard env id w)
          (fun w id => w.performRestart env id) ids w) := by
  induction ids generalizing w with
  | nil => exact ⟨h, (and_iff_left trivial).symm⟩
  | cons id ids ih =>
    obtain ⟨hheld, hblock⟩ := noSelfBlock_performRestart shard env id w h
    obtain ⟨hheld', hblock'⟩ := ih (w.performRestart env id) hheld
    exact ⟨hheld', hblock'.trans ((and_congr_left' hblock).trans and_assoc)⟩

/-- The world in which Phase 4 starts, and `now`. -/
def beforePhase4 (env : Env) (pollInterval : ℕ) (w : World) : Instant × World :=
  let r := w.passDetect env pollInterval
  (r.1, r.2.2.ifRunning fun w => phase3 env r.1 r.2.1.exited w)

/-- Every `perform_restart` of the pass is unblocked. -/
def RestartsUnblocked (shard : ProcessId → σ) (env : Env) (pollInterval : ℕ) (w : World) : Prop :=
  let r := w.beforePhase4 env pollInterval
  r.2.reaper = .running →
    Fold.Meets (fun w id => RestartUnblocked shard env id w) (fun w id => w.performRestart env id)
      (r.2.restartIds r.1) (r.2.touch .shared r.2.processes.keys)

/-- A pass blocks on itself exactly when one of its restarts does. -/
theorem noSelfBlock_reaperPass (shard : ProcessId → σ) (env : Env) (pollInterval : ℕ) (w : World)
    (h : held w.locks = []) :
    NoSelfBlock shard (w.reaperPass env pollInterval).locks ↔
      NoSelfBlock shard w.locks ∧ RestartsUnblocked shard env pollInterval w := by
  have hbefore : Section shard w.locks (w.beforePhase4 env pollInterval).2.locks :=
    .trans (section_passDetect pollInterval w) (section_ifRunning
      (section_foldl (fun w e => section_ifRunning (section_scheduleEntry e w)) _ _))
  obtain ⟨hheld, hblock⟩ := hbefore h
  have hafter : ∀ w' : World, Section shard w'.locks ((w'.ifRunning (phase5 env)).ifRunning (phase6 env)).locks :=
    fun w' => .trans (section_ifRunning (section_phase5 w')) (section_ifRunning (section_phase6 _))
  have hpass : w.reaperPass env pollInterval =
      (((w.beforePhase4 env pollInterval).2.ifRunning
        (phase4 env (w.beforePhase4 env pollInterval).1)).ifRunning (phase5 env)).ifRunning
          (phase6 env) := rfl
  rw [hpass, RestartsUnblocked]
  generalize w.beforePhase4 env pollInterval = r at hheld hblock ⊢
  by_cases hr : r.2.reaper = .running
  · obtain ⟨hheld', hblock'⟩ := (Section.touch .shared r.2.processes.keys r.2.locks :
      Section shard _ _) hheld
    obtain ⟨hheld'', hblock''⟩ := noSelfBlock_restarts shard env
      (r.2.restartIds r.1) (r.2.touch .shared r.2.processes.keys) hheld'
    have hphase4 : r.2.ifRunning (phase4 env r.1) = (r.2.restartIds r.1).foldl
        (fun w id => w.performRestart env id) (r.2.touch .shared r.2.processes.keys) := if_pos hr
    rw [hphase4, (hafter _ hheld'').2, imp_iff_right hr]
    exact hblock''.trans (and_congr_left' (hblock'.trans hblock))
  · have hphase4 : r.2.ifRunning (phase4 env r.1) = r.2 := if_neg hr
    rw [hphase4, (hafter _ hheld).2, hblock]
    exact (and_iff_left fun hr' => absurd hr' hr).symm

end World

end ProcessManager
