import ProcessManager.System.Accounting
import ProcessManager.System.Blocking
import ProcessManager.System.EntryInvariant
import ProcessManager.System.EvolutionRun
import ProcessManager.System.FailFast

/-! What keeps the reaper thread alive. It returns when nobody listens, and Phase 3 panics
when a backoff delay or the time of the restart is out of range. Both bounds follow from the
configurations: a counter that stays within its limit leads to finitely many delays. -/

namespace ProcessManager

variable {env : Env} {now : Instant} {pollInterval : ℕ} {w w' : World} {id : ProcessId} {p p' : Process}

/-! ### Delays in range -/

/-- Every delay up to the limit of restarts is in range, without the cast of the counter. -/
def BackoffConfig.Bounded (b : BackoffConfig) : Prop :=
  b.maxRestarts.toNat < 2 ^ 31 ∧ ∀ e ≤ b.maxRestarts.toNat, b.InRange e

instance (b : BackoffConfig) : Decidable b.Bounded :=
  inferInstanceAs (Decidable (_ ∧ ∀ e ≤ b.maxRestarts.toNat, b.InRange e))

/-- A restart that is due after the longest delay has an `Instant`. -/
def Process.Affords (env : Env) (now : Instant) (p : Process) : Prop :=
  ∀ b, getBackoffConfig p.config = some b → b.Bounded ∧ now + b.maxDelay.nanos ≤ env.instantMax

instance (env : Env) (now : Instant) (p : Process) : Decidable (p.Affords env now) :=
  inferInstanceAs (Decidable (∀ b ∈ getBackoffConfig p.config, _))

/-- The next delay of a counter below the limit. -/
theorem RestartState.currentDelay_of_bounded {rs : RestartState} {b : BackoffConfig} (hb : b.Bounded)
    (hlt : rs.restartCount.toNat < b.maxRestarts.toNat) :
    ∃ d, rs.recordRestart.currentDelay b = some d ∧ d.nanos ≤ b.maxDelay.nanos := by
  obtain ⟨hcast, hrange⟩ := hb
  have hcount : rs.recordRestart.restartCount.toNat = rs.restartCount.toNat + 1 := by
    have hadd : (rs.restartCount + 1).toNat = (rs.restartCount.toNat + 1) % 2 ^ 32 := UInt32.toNat_add _ 1
    exact hadd.trans (Nat.mod_eq_of_lt (by omega))
  have hexponent : rs.recordRestart.exponent = (rs.restartCount.toNat + 1 : ℕ) := by
    rw [rs.recordRestart.exponent_of_lt (by omega), hcount]
  have hin : b.InRange rs.recordRestart.exponent := hexponent ▸ hrange _ (by omega)
  obtain ⟨d, hd, hnanos⟩ := (rs.recordRestart.currentDelay_eq_some_iff b _).mpr ⟨hin, rfl⟩
  exact ⟨d, hd, hnanos ▸ min_le_right _ _⟩

namespace World

theorem scheduleState_of_affords {rs : RestartState} (hp : p.Affords env now) (hlimit : p.rateLimited = false)
    (hrs : p.restartState = some rs) : scheduleState env now p.config rs ≠ none := by
  cases hb : getBackoffConfig p.config with
  | none => simp [scheduleState, hb]
  | some b =>
    obtain ⟨hbounded, hfits⟩ := hp b hb
    have hlt := Process.rateLimited_eq_false_iff.mp hlimit rs b hrs hb
    obtain ⟨d, hd, hle⟩ := RestartState.currentDelay_of_bounded hbounded hlt
    exact (scheduleState_ne_none_iff hb).mpr ⟨d, hd, (Nat.add_le_add_left hle now).trans hfits⟩

/-! ### Phases 2 and 3 -/

theorem endsUnheard_phase2 (x : Exits) (hr : w.reaper = .running) : (w.phase2 env x).EndsUnheard := by
  have hremoved : (x.toRemove.foldl (fun w id => w.removeEntry id) w).reaper = .running :=
    Fold.foldl_invariant (I := fun w' : World => w'.reaper = .running) hr fun _ _ _ h => h
  refine Fold.foldl_invariant (I := EndsUnheard) (.inl hremoved) fun w' e _ hw' => ?_
  exact ifRunning_invariant (I := EndsUnheard) hw' endsUnheard_sendOrReturn

theorem reaper_scheduleEntry_of_pending {e : ExitedProcess} (h : Pending env now e w) :
    (scheduleEntry env now e w).reaper = w.reaper := by
  obtain ⟨heq, _⟩ | ⟨heq, _⟩ | ⟨config, label, p, w', hconfig, hp, hstep, hcases⟩ :=
    scheduleEntry_cases (P := fun _ => True) env now e w
  · rw [heq]
  · rw [heq]
    rfl
  · obtain ⟨_, heq⟩ | ⟨rs, rs', _, _, heq⟩ | ⟨rs, hrs, hnone, _⟩ := hcases
    · exact heq ▸ hstep.reaper
    · exact heq ▸ hstep.reaper
    · have hsome := h.2 config label p hconfig hp rs hrs
      rw [hnone] at hsome
      cases hsome

theorem reaper_phase3 {exited : List ExitedProcess} (h : Remaining (Pending env now) exited w) :
    (w.phase3 env now exited).reaper = w.reaper := by
  refine (Fold.foldl_suffix (I := fun rest w' => w'.reaper = w.reaper ∧ Remaining (Pending env now) rest w') ?_ _ _ ⟨rfl, h⟩).1
  rintro e rest w' ⟨hreaper, hrest⟩
  refine ⟨?_, hrest.step fun _ _ _ h hsame => h.of_lookup hsame⟩
  refine ifRunning_invariant (I := fun w' : World => w'.reaper = w.reaper) hreaper fun _ => ?_
  exact (reaper_scheduleEntry_of_pending (hrest.2 e List.mem_cons_self)).trans hreaper

/-- Every tracked process can be restarted after its longest delay. -/
def Affordable (env : Env) (pollInterval : ℕ) (w : World) : Prop :=
  ∀ id p, w.processes.lookup id = some p → p.Affords env (w.awake env pollInterval).clock

instance (env : Env) (pollInterval : ℕ) (w : World) : Decidable (w.Affordable env pollInterval) :=
  AssocMap.decidableForall (Q := fun _ (p : Process) => p.Affords env (w.awake env pollInterval).clock) w.processes

theorem pending_passDetect (pollInterval : ℕ) (hkey : ∀ i q, w.processes.lookup i = some q → q.id = i)
    (hlimit : w.CascadesBelowLimit) (h : w.Affordable env pollInterval) :
    Remaining (Pending env (w.awake env pollInterval).clock) (w.passDetect env pollInterval).2.1.exited
      (w.passDetect env pollInterval).2.2 := by
  refine ⟨(phase1State_detect env pollInterval hkey).exited_nodup, fun e he => ⟨wanted_passDetect hkey he, ?_⟩⟩
  intro config label p hconfig hp rs hrs
  obtain ⟨q, status, hq, hrecord, hsame, _⟩ := recorded_passDetect hkey he hp
  have hrestart : e.restartConfig.isSome = true := by
    rw [hconfig]
    rfl
  have hlimited := belowLimit_passDetect env pollInterval hkey he (hlimit e.id) hrestart p hp
  rw [hrecord] at hconfig
  obtain ⟨rfl, _⟩ := Process.restartConfig_record hconfig
  rw [Process.stableUptime_config, ← hsame, Option.isSome_iff_ne_none]
  have haffords : p.Affords env (w.awake env pollInterval).clock := fun b hb => h e.id q hq b (hsame ▸ hb)
  exact scheduleState_of_affords haffords hlimited hrs

/-! ### A pass -/

theorem endsUnheard_afterPhase3 (pollInterval : ℕ) (hkey : ∀ i q, w.processes.lookup i = some q → q.id = i)
    (hlimit : w.CascadesBelowLimit) (h : w.Affordable env pollInterval) (hr : w.reaper = .running) :
    (w.afterPhase3 env pollInterval).EndsUnheard := by
  have hcascade : (w.cascade env pollInterval).reaper = .running := (reaper_cascade env pollInterval w).trans hr
  have hphase2 : (w.passDetect env pollInterval).2.2.EndsUnheard := endsUnheard_phase2 _ hcascade
  refine ifRunning_invariant (I := EndsUnheard) hphase2 fun hr₂ => .inl ?_
  exact (reaper_phase3 (pending_passDetect pollInterval hkey hlimit h)).trans hr₂

theorem reaper_phase4 (env : Env) (now : Instant) (w : World) : (w.phase4 env now).reaper = w.reaper :=
  Fold.foldl_invariant (I := fun w' : World => w'.reaper = w.reaper) rfl fun w' i _ hw' =>
    (reaper_performRestart env i w').trans hw'

theorem endsUnheard_phase5 (env : Env) (hr : w.reaper = .running) : (w.phase5 env).EndsUnheard := by
  rw [phase5_eq]
  exact endsUnheard_foldl (f := failWaiting env) (fun _ _ => endsUnheard_failWaiting) _
    (.inl ((reaper_afterSpawns env w).trans hr))

theorem endsUnheard_phase6 (env : Env) (hr : w.reaper = .running) : (w.phase6 env).EndsUnheard :=
  endsUnheard_foldl (f := failFast env) (fun _ _ => endsUnheard_failFast) _ (.inl hr)

theorem endsUnheard_reaperPass (pollInterval : ℕ) (hkey : ∀ i q, w.processes.lookup i = some q → q.id = i)
    (hlimit : w.CascadesBelowLimit) (h : w.Affordable env pollInterval) (hr : w.reaper = .running) :
    (w.reaperPass env pollInterval).EndsUnheard := by
  have h3 := endsUnheard_afterPhase3 pollInterval hkey hlimit h hr
  have h4 : (w.beforePhase5 env pollInterval).EndsUnheard :=
    ifRunning_invariant (I := EndsUnheard) h3 fun hr₃ => .inl ((reaper_phase4 env _ _).trans hr₃)
  have h5 : ((w.beforePhase5 env pollInterval).ifRunning (phase5 env)).EndsUnheard :=
    ifRunning_invariant (I := EndsUnheard) h4 (endsUnheard_phase5 env)
  exact ifRunning_invariant (I := EndsUnheard) h5 (endsUnheard_phase6 env)

/-! ### The calls -/

theorem reaper_spawnProcess (env : Env) (site : SpawnSite) (i : ProcessId) (config : ProcessConfig)
    (deps : List ProcessId) (w : World) : (w.spawnProcess env site i config deps).reaper = w.reaper := by
  unfold spawnProcess
  split
  · rfl
  · split_ifs <;> rfl

theorem reaper_markStartedEntry (env : Env) (i : ProcessId) (w : World) :
    (w.markStartedEntry env i).reaper = w.reaper := by
  unfold markStartedEntry
  split
  · split <;> rfl
  · rfl

theorem reaper_start (env : Env) (label : Label) (config : ProcessConfig) (w : World) :
    (w.start env label config).2.reaper = w.reaper := by
  have hnow : ∀ i deps (w₁ : World), (w₁.startNow env i label config deps).2.reaper = w₁.reaper := by
    intro i deps w₁
    simp only [startNow]
    split
    · exact reaper_spawnProcess env ..
    · exact (reaper_markStartedEntry env i _).trans (reaper_spawnProcess env ..)
  obtain heq | heq | ⟨w₁, rfl, resolved, _, hcases⟩ := start_cases env label config w
  · rw [heq]
  · rw [heq]
  · obtain ⟨_, _, heq⟩ | heq | heq := hcases <;> rw [heq]
    · exact (hnow _ _ _).trans (reaper_allDepsRunning env resolved _)
    · exact reaper_allDepsRunning env resolved _
    · rfl

theorem reaper_depsPoll (env : Env) (i : ProcessId) (config : ProcessConfig) (deadline : Instant) (w : World) :
    (w.depsPoll env i config deadline).2.reaper = w.reaper := by
  simp only [depsPoll]
  split_ifs
  · simp only
    split <;> rfl
  · split
    · split <;> rfl
    · rfl

theorem reaper_stop (env : Env) (i : ProcessId) (w : World) : (w.stop env i).2.reaper = w.reaper := by
  refine stop_invariant_of_forall (I := fun w' : World => w'.reaper = w.reaper) (fun j w' hw' => ?_) i rfl
  cases hp : w'.processes.lookup j with
  | none => rwa [stopOne_of_untracked hp]
  | some p => exact (osStep_stopOne hp).reaper.trans hw'

theorem reaper_stopMany (env : Env) (ids : List ProcessId) (w : World) :
    (w.stopMany env ids).2.reaper = w.reaper := by
  rw [stopMany, stopManyReinsert_eq]
  exact (osStep_stopManyKill env ids w).reaper.trans (stopManyTake_unchanged env ids w).2

theorem reaper_restart (env : Env) (i : ProcessId) (w : World) : (w.restart env i).2.reaper = w.reaper := by
  obtain ⟨_, heq⟩ | ⟨p, hp, ⟨_, heq⟩ | ⟨_, heq | heq⟩⟩ := restart_cases env i w <;> rw [heq]
  · have hrelease : OsStep p.handles (fun _ => False) w (p.release env w) := Process.osStep_release
    have hreset : (w.restartReset env i).reaper = w.reaper := by
      simp only [restartReset, hp]
      exact hrelease.reaper
    have hspawn := (reaper_spawnProcess env .restart i p.config p.resolvedDeps (w.restartReset env i)).trans hreset
    simp only [restartInPlace]
    split
    · exact hspawn
    · simp only [restartStore]
      split
      · exact hspawn
      · split_ifs <;> exact hspawn
  · exact reaper_stop env i w
  · have hspawn := (reaper_spawnProcess env .restart i p.config [] (w.stop env i).2).trans (reaper_stop env i w)
    simp only [restartInsert]
    split
    · exact hspawn
    · exact (reaper_markStartedEntry env i _).trans hspawn

end World

namespace System

/-- Only the reaper thread ends itself. -/
theorem reaper_step (env : Env) (pollInterval : ℕ) (s : System) {a : Action} (ha : a ≠ .pass) :
    (s.step env pollInterval a).world.reaper = s.world.reaper := by
  have hstopMany : ∀ ids, (s.world.stopMany env ids).2.reaper = s.world.reaper := fun ids =>
    World.reaper_stopMany env ids s.world
  cases a with
  | start label config => exact World.reaper_start env label config s.world
  | startWithDeps label config =>
    have hdeps : OsStep ∅ (fun _ => True) (s.world.start env label config).2
      (s.world.startWithDeps env label config).2 := World.startWithDeps_world label config s.world
    have hreaper := hdeps.reaper.trans (World.reaper_start env label config s.world)
    simp only [step]
    split <;> exact hreaper
  | depsPoll n =>
    simp only [step]
    split
    · rfl
    · exact World.reaper_depsPoll env _ _ _ s.world
  | stop i => exact World.reaper_stop env i s.world
  | stopLabel label => exact hstopMany _
  | stopAll => exact hstopMany _
  | stopTerminateOnExit => exact hstopMany _
  | restart i => exact World.reaper_restart env i s.world
  | restartLabel label =>
    exact World.restartAll_invariant (I := fun w : World => w.reaper = s.world.reaper) (C := fun _ _ => True)
      (fun i w hw _ => (World.reaper_restart env i w).trans hw) _ s.world rfl
      (World.restartsMeet_of_forall (fun _ _ => trivial) _ s.world)
  | sendSignal i signal => exact (World.osStep_sendSignal i signal s.world).reaper
  | sendSignalLabel label signal =>
    exact Fold.foldl_invariant (I := fun w : World => w.reaper = s.world.reaper) rfl fun w i _ hw =>
      (World.osStep_sendSignal i signal w).reaper.trans hw
  | query i =>
    have hquery : ∀ w : World, (w.query env i).reaper = w.reaper := by
      intro w
      unfold World.query
      split
      · next p _ =>
        have hpoll : OsStep p.handles (fun _ => True) w (p.pollState env w).2 := Process.osStep_pollState
        exact hpoll.reaper
      · rfl
    exact hquery s.world
  | pass => exact absurd rfl ha

variable (env : Env) (pollInterval : ℕ)

/-- When a pass begins, no process that a cascade has flagged has reached its limit, and every
process can be restarted after its longest delay. -/
def Sustained (s : System) (a : Action) : Prop :=
  a = .pass → s.world.reaper = .running → s.world.CascadesBelowLimit ∧ s.world.Affordable env pollInterval

instance (s : System) (a : Action) : Decidable (Sustained env pollInterval s a) :=
  inferInstanceAs (Decidable (_ → _ → _))

/-- Every run in which the passes begin so, and no restart of a pass visits a key on the shard of the
process it restarts, gets to its end, with the reaper thread running as long as somebody listens for
its events. -/
theorem reaper_survives {σ : Type*} [DecidableEq σ] (shard : ProcessId → σ) (actions : List Action)
    (h : Fold.Meets (Sustained env pollInterval) (step env pollInterval) actions withReaper)
    (hapart : Fold.Meets (PassRestartsApart shard env pollInterval) (step env pollInterval) actions withReaper) :
    ∃ s', run? shard env pollInterval actions withReaper = some s' ∧
      (s'.world.receiverAlive = true → s'.world.reaper = .running) := by
  refine ⟨_, run?_of_apart hapart, fun hlistens => ?_⟩
  have hinv := Fold.invariant (I := fun s : System => Sound s.world ∧ s.world.EndsUnheard) ?_ actions withReaper
    ⟨sound_run env pollInterval (.inr rfl) [], .inl rfl⟩ h
  · obtain hr | hdeaf := hinv.2
    · exact hr
    · exact absurd (hdeaf.symm.trans hlistens) Bool.false_ne_true
  · rintro s a ⟨hsound, hunheard⟩ hsustained
    refine ⟨sound_step env pollInterval s a hsound, ?_⟩
    by_cases ha : a = .pass
    · subst ha
      refine World.ifRunning_invariant (I := World.EndsUnheard) hunheard fun hr => ?_
      obtain ⟨hlimit, haffordable⟩ := hsustained rfl hr
      exact World.endsUnheard_reaperPass pollInterval hsound.key hlimit haffordable hr
    · obtain hr | hdeaf := hunheard
      · exact .inl ((reaper_step env pollInterval s ha).trans hr)
      · refine .inr (Bool.eq_false_iff.mpr fun hlistens => ?_)
        exact absurd (hdeaf.symm.trans (receiver_step hsound a hlistens)) Bool.false_ne_true

/-- Two crashes of a process that may be restarted once. -/
theorem reaper_survives_twice :
    ∃ s', run? ProcessId.raw twoCrashes 0 [.start ⟨"web"⟩ (web 1), .pass, .pass] withReaper = some s' ∧
      (s'.world.receiverAlive = true → s'.world.reaper = .running) :=
  reaper_survives twoCrashes 0 ProcessId.raw _ (by decide +kernel) (by decide +kernel)

end System

end ProcessManager
