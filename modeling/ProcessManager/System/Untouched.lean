import ProcessManager.Reaper.ExitsFound
import ProcessManager.System.WaitersRun

/-! What the phases of a pass leave of an entry that they do not act on: Phase 2 removes and
Phase 3 schedules only what Phase 1 found, Phase 4 restarts what is due and polls
dependencies, Phase 5 acts on `Waiting` and Phase 6 on `Running` processes. -/

namespace ProcessManager

variable {env : Env} {now : Instant} {pollInterval : ℕ} {w : World} {id k : ProcessId} {p p' p'' : Process}

namespace Process

/-- A poll of a dependency check: it never writes `Failed`. -/
structure Checked (p p' : Process) : Prop where
  polled : Polled p.id p p'
  failed : p'.state = .failed → p.state = .failed

theorem Checked.refl (p : Process) : p.Checked p := ⟨.refl _ p, fun h => h⟩

theorem Checked.trans (h : p.Checked p') (h' : p'.Checked p'') : p.Checked p'' where
  polled := h.polled.trans h'.polled
  failed hfailed := h.failed (h'.failed hfailed)

theorem checked_pollState (env : Env) (p : Process) (w : World) : p.Checked (p.pollState env w).1 := by
  refine ⟨polled_pollState p.id, fun hfailed => ?_⟩
  obtain heq | ⟨_, ⟨_, heq⟩ | ⟨c, _, heq⟩⟩ := pollState_cases env p w <;> rw [heq] at hfailed
  · exact hfailed
  · cases hfailed
  · cases hresult : w.waitResult env c with
    | exited status =>
      rw [hresult] at hfailed
      simp only [World.WaitResult.state] at hfailed
      split at hfailed <;> cases hfailed
    | running => simp [hresult, World.WaitResult.state] at hfailed
    | error => simp [hresult, World.WaitResult.state] at hfailed

end Process

namespace World

theorem lookup_ifRunning {f : World → World} {o : Option Process} (hw : w.processes.lookup id = o)
    (h : w.reaper = .running → (f w).processes.lookup id = o) :
    (w.ifRunning f).processes.lookup id = o :=
  ifRunning_invariant (I := fun w' : World => w'.processes.lookup id = o) hw h

/-! ### Phases 1 to 3 -/

theorem lookup_phase2 {x : Exits} (h : id ∉ x.toRemove) :
    (w.phase2 env x).processes.lookup id = w.processes.lookup id := by
  have hremoved : (x.toRemove.foldl (fun w id => w.removeEntry id) w).processes.lookup id =
      w.processes.lookup id := by
    refine Fold.foldl_invariant (I := fun w' : World =>
      w'.processes.lookup id = w.processes.lookup id) rfl fun w' i hi hw' => ?_
    rw [removeEntry_lookup, if_neg (by rintro rfl; exact h hi), hw']
  rw [phase2, sendAll_processes, hremoved]

theorem lookup_phase3 {exited : List ExitedProcess} (h : ∀ e ∈ exited, e.id ≠ id) :
    (w.phase3 env now exited).processes.lookup id = w.processes.lookup id := by
  refine Fold.foldl_invariant (I := fun w' : World =>
    w'.processes.lookup id = w.processes.lookup id) rfl fun w' e he hw' => ?_
  exact lookup_ifRunning hw' fun _ =>
    (scheduleEntry_lookup env now (Ne.symm (h e he)) w').trans hw'

theorem lookup_phase1Visit_restarting (hp : w.processes.lookup id = some p) (hstate : p.state = .restarting)
    (x : Exits) (k : ProcessId) : (phase1Visit env now k (x, w)).2.processes.lookup id = some p := by
  by_cases hk : id = k
  · subst hk
    obtain ⟨_, heq⟩ | ⟨q, _, hq, hne, _⟩ := phase1Visit_cases env now id x w
    · rw [heq]
      exact hp
    · obtain rfl : p = q := Option.some.inj (hp.symm.trans hq)
      exact absurd hstate hne
  · rw [phase1Visit_lookup hk, hp]

theorem lookup_detect_restarting (hp : w.processes.lookup id = some p) (hstate : p.state = .restarting) :
    (w.detect env pollInterval).2.processes.lookup id = some p := by
  have hstart := osStep_awake (S := ∅) (P := fun _ => True) env pollInterval w
  refine Fold.foldl_invariant (I := fun x : Exits × World => x.2.processes.lookup id = some p) ?_
    fun x k _ hx => lookup_phase1Visit_restarting hx hstate x.1 k
  rw [hstart.processes, hp]

/-- No cascade targets a process that is neither `Starting` nor `Running`. -/
theorem lookup_cascade_of_not_active (hp : (w.detect env pollInterval).2.processes.lookup id = some p)
    (hstate : p.state ≠ .starting) (hstate' : p.state ≠ .running) :
    (w.cascade env pollInterval).processes.lookup id = some p := by
  have hspared : id ∉ (w.detect env pollInterval).2.cascadeTargets
      (w.detect env pollInterval).1.cascadeOrigins := by
    intro htarget
    obtain ⟨o, _, hid⟩ := List.mem_flatMap.mp htarget
    obtain ⟨q, hq, hselected⟩ := AssocMap.mem_keysWhere.mp hid
    obtain rfl : p = q := Option.some.inj (hp.symm.trans hq)
    simp [cascadeSelects, hstate, hstate'] at hselected
  rw [cascade, (killed_phase1b env _ _).lookup id, hp]
  simp [hspared]

/-- Phases 2 and 3 leave an entry alone whose exit was not found. -/
theorem lookup_afterPhase3 (hexits : w.exitsOf env pollInterval id = []) :
    (w.afterPhase3 env pollInterval).processes.lookup id =
      (w.cascade env pollInterval).processes.lookup id := by
  have hnot : ∀ e ∈ (w.detect env pollInterval).1.exited, e.id ≠ id := by
    intro e he hid
    have hmem : e ∈ w.exitsOf env pollInterval id := List.mem_filter.mpr ⟨he, by simp [hid]⟩
    rw [hexits] at hmem
    cases hmem
  have hphase2 : (w.passDetect env pollInterval).2.2.processes.lookup id =
      (w.cascade env pollInterval).processes.lookup id := by
    rw [passDetect_eq]
    refine lookup_phase2 fun hmem => ?_
    obtain ⟨e, he, _⟩ := (mem_toRemove_iff env pollInterval w id).mp hmem
    rw [hexits] at he
    cases he
  exact lookup_ifRunning hphase2 fun _ => (lookup_phase3 hnot).trans hphase2

/-! ### Phase 4 -/

theorem lookup_pollEntry (env : Env) {q : Process} (hq : w.processes.lookup k = some q)
    (hp : w.processes.lookup id = some p) :
    ∃ p', (w.pollEntry env k q).processes.lookup id = some p' ∧ p.Checked p' := by
  rw [pollEntry_processes, AssocMap.lookup_replace]
  split_ifs with hid
  · subst hid
    obtain rfl : p = q := Option.some.inj (hp.symm.trans hq)
    exact ⟨_, by rw [hp, Option.map_some], Process.checked_pollState env p w⟩
  · exact ⟨p, hp, .refl p⟩

theorem checked_allDepsRunning (env : Env) (deps : List ProcessId) (hp : w.processes.lookup id = some p) :
    ∃ p', (w.allDepsRunning env deps).2.processes.lookup id = some p' ∧ p.Checked p' := by
  refine allDepsRunning_invariant (I := fun w' : World =>
    ∃ p', w'.processes.lookup id = some p' ∧ p.Checked p') (fun _ _ h => h) (fun _ _ h => h) ?_
    deps ⟨p, hp, .refl p⟩
  rintro i q w' ⟨p', hp', hchecked⟩ hq
  obtain ⟨p'', hp'', hchecked'⟩ := lookup_pollEntry env hq hp'
  exact ⟨p'', hp'', hchecked.trans hchecked'⟩

theorem checked_performRestart (env : Env) (hk : id ≠ k) (hp : w.processes.lookup id = some p) :
    ∃ p', (w.performRestart env k).processes.lookup id = some p' ∧ p.Checked p' := by
  obtain ⟨_, heq⟩ | ⟨q, _, ⟨_, heq⟩ | ⟨w₁, resolved, rfl, _, hcases⟩⟩ := performRestart_cases env k w
  · rw [heq]
    exact ⟨p, hp, .refl p⟩
  · rw [heq, respawn_lookup hk]
    exact ⟨p, hp, .refl p⟩
  · have hchecked := checked_allDepsRunning env resolved (w := (w.lock .exclusive k).touch .shared
      (resolveVisits w.processes q.config.dependsOn)) hp
    obtain ⟨_, _, heq⟩ | heq | heq := hcases <;> rw [heq]
    · rwa [respawn_lookup hk]
    · rwa [restartToWaiting_lookup hk]
    · rw [restartToWaiting_lookup hk]
      exact ⟨p, hp, .refl p⟩

/-- Phase 4 can only check a process whose restart is not due. -/
theorem checked_phase4 (env : Env) (hdue : id ∉ w.restartIds now) (hp : w.processes.lookup id = some p) :
    ∃ p', (w.phase4 env now).processes.lookup id = some p' ∧ p.Checked p' := by
  refine Fold.foldl_invariant (I := fun w' : World =>
    ∃ p', w'.processes.lookup id = some p' ∧ p.Checked p') ⟨p, hp, .refl p⟩ ?_
  rintro w' i hi ⟨p', hp', hchecked⟩
  obtain ⟨p'', hp'', hchecked'⟩ := checked_performRestart env
    (by rintro rfl; exact hdue hi : id ≠ i) hp'
  exact ⟨p'', hp'', hchecked.trans hchecked'⟩

/-! ### Phases 5 and 6 -/

theorem failWaiting_lookup (hk : id ≠ k) (w : World) :
    (w.failWaiting env k).processes.lookup id = w.processes.lookup id := by
  simp only [failWaiting, lock_processes]
  split
  · rfl
  · rw [sendOrReturn_processes, removeEntry_lookup, if_neg hk, unlock_processes, put_processes,
      AssocMap.lookup_replace, if_neg hk, lock_processes]

theorem lookup_phase5 (hid : id ∉ w.waitingIds) :
    (w.phase5 env).processes.lookup id = w.processes.lookup id := by
  obtain ⟨hspawn, hfail, _⟩ := disjointly_verdicts env w
  have hverdicts : (w.verdicts env).2.processes.lookup id = w.processes.lookup id :=
    lookup_examineAll hid _
  have hspawned : ((w.verdicts env).1.toSpawn.foldl (fun w id => w.spawnWaitingProcess env id)
      (w.verdicts env).2).processes.lookup id = w.processes.lookup id := by
    refine Fold.foldl_invariant (I := fun w' : World =>
      w'.processes.lookup id = w.processes.lookup id) hverdicts fun w' i hi hw' => ?_
    rw [spawnWaitingProcess_lookup (by rintro rfl; exact hid (hspawn hi)), hw']
  refine Fold.foldl_invariant (I := fun w' : World =>
    w'.processes.lookup id = w.processes.lookup id) hspawned fun w' i hi hw' => ?_
  refine lookup_ifRunning hw' fun _ => ?_
  rw [failWaiting_lookup (by rintro rfl; exact hid (hfail.subset hi)), hw']

theorem failRunning_lookup (hk : id ≠ k) (q : Process) (w : World) :
    (w.failRunning env k q).processes.lookup id = w.processes.lookup id := by
  simp only [failRunning, sendOrReturn_processes, removeEntry_lookup, if_neg hk, unlock_processes,
    lock_processes]
  split
  · rfl
  · next r hr =>
    have hput : ((w.lock .exclusive k).put k { r with state := .failed }).processes.lookup id =
        w.processes.lookup id := by
      rw [put_processes, AssocMap.lookup_replace, if_neg hk, lock_processes]
    split_ifs
    · rw [Process.osStep_sendSignal.processes, hput]
    · exact hput

theorem failFast_lookup (hk : id ≠ k) (w : World) :
    (w.failFast env k).processes.lookup id = w.processes.lookup id := by
  simp only [failFast, lock_processes]
  split
  · rfl
  · split_ifs
    · rw [failRunning_lookup hk]
      rfl
    · rfl

theorem lookup_failFastAll {ids : List ProcessId} (hid : id ∉ ids) (w : World) :
    (ids.foldl (fun w k => w.ifRunning (failFast env k)) w).processes.lookup id = w.processes.lookup id := by
  refine Fold.foldl_invariant (I := fun w' : World =>
    w'.processes.lookup id = w.processes.lookup id) rfl fun w' i hi hw' => ?_
  refine lookup_ifRunning hw' fun _ => ?_
  rw [failFast_lookup (by rintro rfl; exact hid hi), hw']

theorem lookup_phase6 (hid : id ∉ w.runningWithDeps) :
    (w.phase6 env).processes.lookup id = w.processes.lookup id :=
  lookup_failFastAll hid (w.touch .shared w.processes.keys)

/-! ### The pass -/

/-- Phase 4 leaves a process in `Restarting` alone whose restart is not due. -/
theorem lookup_phase4_restarting (hp : w.processes.lookup id = some p) (hstate : p.state = .restarting)
    (hdue : restartDue now p = false) : (w.phase4 env now).processes.lookup id = some p := by
  have hnot : id ∉ w.restartIds now := by
    intro hid
    obtain ⟨q, hq, hdue'⟩ := AssocMap.mem_keysWhere.mp hid
    obtain rfl : p = q := Option.some.inj (hp.symm.trans hq)
    rw [hdue] at hdue'
    cases hdue'
  obtain ⟨p', hp', rfl | ⟨hs, _⟩, _⟩ := checked_phase4 env hnot hp
  · exact hp'
  · simp [hstate] at hs

theorem lookup_laterPhases_restarting (hp : w.processes.lookup id = some p) (hstate : p.state = .restarting) :
    ((w.ifRunning (phase5 env)).ifRunning (phase6 env)).processes.lookup id = some p := by
  have hnot : ∀ (f : Process → Bool) (w' : World), w'.processes.lookup id = some p → f p = false →
      id ∉ w'.processes.keysWhere f := by
    intro f w' hp' hf hid
    obtain ⟨q, hq, hf'⟩ := AssocMap.mem_keysWhere.mp hid
    obtain rfl : p = q := Option.some.inj (hp'.symm.trans hq)
    rw [hf] at hf'
    cases hf'
  have h5 := lookup_ifRunning (f := phase5 env) hp fun _ => (lookup_phase5 (hnot _ w hp (by simp [hstate]))).trans hp
  exact lookup_ifRunning h5 fun _ => (lookup_phase6 (hnot _ _ h5 (by simp [hstate]))).trans h5

/-- A pass leaves a process in `Restarting` alone until its restart is due. -/
theorem lookup_reaperPass_restarting (hkey : ∀ i q, w.processes.lookup i = some q → q.id = i)
    (hidle : Idle w) (hp : w.processes.lookup id = some p) (hstate : p.state = .restarting)
    (hdue : restartDue (w.awake env pollInterval).clock p = false) :
    (w.reaperPass env pollInterval).processes.lookup id = some p := by
  have hcascade : (w.cascade env pollInterval).processes.lookup id = some p :=
    lookup_cascade_of_not_active (lookup_detect_restarting hp hstate) (by simp [hstate]) (by simp [hstate])
  have hexits : w.exitsOf env pollInterval id = [] :=
    exitsOf_of_childless pollInterval hkey hp (hidle id p hp (.inr hstate))
  have h3 : (w.afterPhase3 env pollInterval).processes.lookup id = some p := by
    rw [lookup_afterPhase3 hexits, hcascade]
  have h4 : (w.beforePhase5 env pollInterval).processes.lookup id = some p :=
    lookup_ifRunning h3 fun _ => lookup_phase4_restarting h3 hstate hdue
  exact lookup_laterPhases_restarting h4 hstate

/-- What every pass keeps. -/
structure Regular (w : World) : Prop where
  sound : Sound w
  idle : Idle w

theorem Regular.pass (h : w.Regular) : (w.ifRunning (reaperPass env pollInterval)).Regular := by
  refine ifRunning_invariant h fun _ => ⟨h.sound.reaperPass, ?_⟩
  have hidle : Idle (w.afterPhase3 env pollInterval) := idle_afterPhase3 pollInterval h.sound.key h.idle
  exact (moves_afterPhase3 (C := fun _ _ _ => True) pollInterval w).invariant (fun _ _ => idle_move) hidle

end World

namespace System

theorem regular_run (env : Env) (pollInterval : ℕ) {s : System} (hs : s.Initial) (actions : List Action) :
    (s.run env pollInterval actions).world.Regular := by
  refine Fold.foldl_invariant (I := fun s : System => s.world.Regular) ?_ fun s a _ h =>
    ⟨sound_step env pollInterval s a h.sound, idle_step h.sound h.idle a⟩
  refine ⟨sound_run env pollInterval hs [], ?_⟩
  rcases hs with rfl | rfl <;> simp [World.Idle, new, withReaper, World.withReaper, World.new]

end System

end ProcessManager
