import ProcessManager.System.Backoff
import ProcessManager.System.EntryInvariant
import ProcessManager.System.Untouched

/-! When the reaper restarts a process. Phase 3 raises the counter before it computes the
delay, so the `N`-th consecutive restart waits for the delay documented for the one after
it; the two agree where the cap or the factor makes them equal. -/

namespace ProcessManager

variable {env : Env} {now : Instant} {pollInterval : ℕ} {w w' : World} {id : ProcessId} {p q : Process}
  {e : ExitedProcess} {b : BackoffConfig} {rs rs' : RestartState}

namespace World

/-! ### What Phase 3 schedules -/

/-- Scheduling computes the capped delay for the counter that was just raised. -/
theorem nextEligible_of_scheduleState {config : ProcessConfig} (hb : getBackoffConfig config = some b)
    (h : scheduleState env now config rs = some rs') :
    rs'.nextEligibleRestart = some (now + b.cappedNanos rs.recordRestart.exponent) := by
  simp only [scheduleState, hb] at h
  cases hdelay : rs.recordRestart.currentDelay b with
  | none => simp [hdelay] at h
  | some d =>
    simp only [hdelay] at h
    split_ifs at h
    cases h
    have hnanos := ((rs.recordRestart.currentDelay_eq_some_iff b d.nanos).mp ⟨d, hdelay, rfl⟩).2
    rw [hnanos]
    rfl

/-- What Phase 3 makes of the entry of an exit: it leaves the state, or schedules a restart. -/
def MayBeScheduled (env : Env) (now : Instant) (e : ExitedProcess) (q q' : Process) : Prop :=
  q'.state = q.state ∨ q.restartState = none ∨ ∃ config label rs rs', e.restartConfig = some (config, label) ∧
    q.restartState = some rs ∧ scheduleState env now config rs = some rs' ∧ q'.restartState = some rs'

theorem mayBeScheduled_scheduleEntry (hq : w.processes.lookup e.id = some q) :
    ∃ q', (scheduleEntry env now e w).processes.lookup e.id = some q' ∧ MayBeScheduled env now e q q' := by
  obtain ⟨heq, _⟩ | ⟨heq, _⟩ | ⟨config, label, q₁, w', hconfig, hq₁, hstep, hcases⟩ :=
    scheduleEntry_cases (P := fun _ => True) env now e w
  · exact ⟨q, by rw [heq, hq], .inl rfl⟩
  · exact ⟨q, by rw [heq]; exact hq, .inl rfl⟩
  · obtain rfl : q = q₁ := Option.some.inj (hq.symm.trans hq₁)
    have hput : ∀ (r : Process) (w₁ : World), w₁.processes = (w'.put e.id r).processes →
        w₁.processes.lookup e.id = some r := by
      intro r w₁ hw₁
      rw [hw₁, put_processes, AssocMap.lookup_replace, if_pos rfl, hstep.processes, lock_processes, hq,
        Option.map_some]
    obtain ⟨hnone, heq⟩ | ⟨rs, rs', hrs, hschedule, heq⟩ | ⟨rs, _, _, heq⟩ := hcases <;> rw [heq]
    · exact ⟨_, hput _ _ rfl, .inr (.inl hnone)⟩
    · exact ⟨_, hput _ _ rfl, .inr (.inr ⟨config, label, rs, rs', hconfig, hrs, hschedule, rfl⟩)⟩
    · exact ⟨_, hput _ _ rfl, .inl rfl⟩

theorem mayBeScheduled_phase3 {exited : List ExitedProcess} (hnodup : (exited.map ExitedProcess.id).Nodup)
    (he : e ∈ exited) (hq : w.processes.lookup e.id = some q) :
    ∃ q', (w.phase3 env now exited).processes.lookup e.id = some q' ∧ MayBeScheduled env now e q q' := by
  obtain ⟨before, after, rfl⟩ := List.append_of_mem he
  rw [List.map_append, List.map_cons] at hnodup
  have hbefore : ∀ f ∈ before, f.id ≠ e.id := fun f hf heq =>
    List.disjoint_of_nodup_append hnodup (List.mem_map_of_mem hf) (heq ▸ List.mem_cons_self)
  have hafter : ∀ f ∈ after, f.id ≠ e.id := fun f hf heq =>
    (List.nodup_cons.mp (List.nodup_append.mp hnodup).2.1).1 (heq ▸ List.mem_map_of_mem hf)
  have hq' : (w.phase3 env now before).processes.lookup e.id = some q := by rw [lookup_phase3 hbefore, hq]
  have hsplit : w.phase3 env now (before ++ e :: after) =
      ((w.phase3 env now before).ifRunning (scheduleEntry env now e)).phase3 env now after := by
    simp only [phase3, List.foldl_append, List.foldl_cons]
  rw [hsplit, lookup_phase3 hafter]
  exact ifRunning_invariant (I := fun w' : World => ∃ q', w'.processes.lookup e.id = some q' ∧
    MayBeScheduled env now e q q') ⟨q, hq', .inl rfl⟩ fun _ => mayBeScheduled_scheduleEntry hq'

/-- The entry that Phase 3 finds for an exit: the one Phase 1 left, perhaps killed. -/
theorem passDetect_of_exited (hkey : ∀ i q, w.processes.lookup i = some q → q.id = i) (hidle : Idle w)
    (he : e ∈ (w.detect env pollInterval).1.exited) (hp : w.processes.lookup e.id = some p)
    (hq : (w.passDetect env pollInterval).2.2.processes.lookup e.id = some q) :
    (∀ config label, e.restartConfig = some (config, label) → config = p.config) ∧
      q.restartState = (p.stableUptime (w.awake env pollInterval).clock).restartState ∧
      q.state ≠ .restarting := by
  obtain ⟨p', status, hp', hafter, hrecord⟩ := (phase1State_detect env pollInterval hkey).recorded e he
  obtain rfl : p = p' := Option.some.inj (hp.symm.trans hp')
  have hexits : e ∈ w.exitsOf env pollInterval e.id := List.mem_filter.mpr ⟨he, by simp⟩
  -- an entry without a child has no exit to be found
  have hstate : p.state ≠ .restarting := by
    intro hrestarting
    have hnone : w.exitsOf env pollInterval e.id = [] :=
      exitsOf_of_childless pollInterval hkey hp (hidle e.id p hp (.inr hrestarting))
    rw [hnone] at hexits
    cases hexits
  refine ⟨fun config label hconfig => ?_, ?_⟩
  · rw [hrecord.record] at hconfig
    rw [(Process.restartConfig_record hconfig).1, Process.stableUptime_config]
  · obtain ⟨q', hq', rfl⟩ :=
      (mapStep_passDetect (P := fun _ => True) env pollInterval w).processes _ _ hq
    rw [cascade, (killed_phase1b env _ _).lookup e.id, hafter, Option.map_some] at hq'
    rw [← Option.some.inj hq']
    split_ifs
    · exact ⟨rfl, by simp⟩
    · exact ⟨rfl, by rwa [Process.afterExit, Process.stableUptime_state]⟩

/-- The next restart time of a process whose exit leads to a restart. -/
theorem nextEligible_afterPhase3 (hkey : ∀ i q, w.processes.lookup i = some q → q.id = i) (hidle : Idle w)
    (he : e ∈ (w.detect env pollInterval).1.exited) (hp : w.processes.lookup e.id = some p)
    (hb : getBackoffConfig p.config = some b)
    (hrs : (p.stableUptime (w.awake env pollInterval).clock).restartState = some rs)
    (hq : (w.afterPhase3 env pollInterval).processes.lookup e.id = some q) (hstate : q.state = .restarting) :
    ∃ rs', q.restartState = some rs' ∧ rs'.nextEligibleRestart =
      some ((w.awake env pollInterval).clock + b.cappedNanos rs.recordRestart.exponent) := by
  have hkeep : KeepStep (w.passDetect env pollInterval).2.2 (w.afterPhase3 env pollInterval) :=
    mapStep_ifRunning KeepsHandle.refl (keepStep_phase3 _ _)
  obtain ⟨q₂, hq₂, _⟩ := hkeep.processes e.id q hq
  obtain ⟨hconfig, hrestart, hnot⟩ := passDetect_of_exited hkey hidle he hp hq₂
  obtain ⟨q', hq', hscheduled⟩ : ∃ q', (w.afterPhase3 env pollInterval).processes.lookup e.id = some q' ∧
      MayBeScheduled env (w.awake env pollInterval).clock e q₂ q' := by
    refine ifRunning_invariant (I := fun w' : World => ∃ q', w'.processes.lookup e.id = some q' ∧
      MayBeScheduled env (w.awake env pollInterval).clock e q₂ q') ⟨q₂, hq₂, .inl rfl⟩ fun _ => ?_
    exact mayBeScheduled_phase3 (phase1State_detect env pollInterval hkey).exited_nodup he hq₂
  obtain rfl : q = q' := Option.some.inj (hq.symm.trans hq')
  obtain hsame | hnone | ⟨config, label, rs₀, rs', hrecord, hrs₀, hschedule, hrs'⟩ := hscheduled
  · exact absurd (hsame ▸ hstate) hnot
  · rw [hrestart, hrs] at hnone
    cases hnone
  · obtain rfl : rs = rs₀ := Option.some.inj (hrs.symm.trans (hrestart ▸ hrs₀))
    rw [hconfig config label hrecord] at hschedule
    exact ⟨rs', hrs', nextEligible_of_scheduleState hb hschedule⟩

/-! ### The restart -/

/-- The next `n` passes. -/
def passes (env : Env) (pollInterval n : ℕ) : World → World := (ifRunning (reaperPass env pollInterval))^[n]

/-- The pass schedules the restart of `id` for `t`, and no pass before `t` performs it: the
entry stays as Phase 3 left it. -/
structure RestartsAfter (env : Env) (pollInterval : ℕ) (w : World) (id : ProcessId) (t : Instant) : Prop where
  scheduled : ∃ p rs, (w.afterPhase3 env pollInterval).processes.lookup id = some p ∧
    p.restartState = some rs ∧ rs.nextEligibleRestart = some t
  held : ∀ n, (∀ k ≤ n, ((passes env pollInterval k w).awake env pollInterval).clock < t) →
    (passes env pollInterval (n + 1) w).processes.lookup id =
      (w.afterPhase3 env pollInterval).processes.lookup id

theorem passes_succ (env : Env) (pollInterval n : ℕ) (w : World) : passes env pollInterval (n + 1) w =
    (passes env pollInterval n w).ifRunning (reaperPass env pollInterval) :=
  Function.iterate_succ_apply' _ n w

theorem restartDue_of_lt {t : Instant} (hrs : p.restartState = some rs)
    (ht : rs.nextEligibleRestart = some t) (hnow : now < t) : restartDue now p = false := by
  simp [restartDue, hrs, RestartState.isEligibleForRestart, ht, Nat.not_le.mpr hnow]

theorem Regular.passes (h : w.Regular) (n : ℕ) : (passes env pollInterval n w).Regular := by
  induction n with
  | zero => exact h
  | succ n ih =>
    rw [passes_succ]
    exact ih.pass

/-- No pass before `t` performs the restart that is scheduled for `t`. -/
theorem lookup_passes (h : w.Regular) (hr : w.reaper = .running) {t : Instant}
    (hq : (w.afterPhase3 env pollInterval).processes.lookup id = some q) (hstate : q.state = .restarting)
    (hrs : q.restartState = some rs) (ht : rs.nextEligibleRestart = some t) (n : ℕ)
    (hnow : ∀ k ≤ n, ((passes env pollInterval k w).awake env pollInterval).clock < t) :
    (passes env pollInterval (n + 1) w).processes.lookup id = some q := by
  induction n with
  | zero =>
    have h4 : (w.beforePhase5 env pollInterval).processes.lookup id = some q :=
      lookup_ifRunning hq fun _ => lookup_phase4_restarting hq hstate
        (restartDue_of_lt hrs ht (hnow 0 le_rfl))
    have hpass : (w.reaperPass env pollInterval).processes.lookup id = some q :=
      lookup_laterPhases_restarting h4 hstate
    rw [passes_succ]
    show (w.ifRunning (reaperPass env pollInterval)).processes.lookup id = some q
    unfold ifRunning
    rwa [if_pos hr]
  | succ n ih =>
    have hbefore := ih fun k hk => hnow k (by omega)
    have hregular : (passes env pollInterval (n + 1) w).Regular := h.passes (n + 1)
    rw [passes_succ]
    exact lookup_ifRunning hbefore fun _ => lookup_reaperPass_restarting hregular.sound.key hregular.idle
      hbefore hstate (restartDue_of_lt hrs ht (hnow (n + 1) le_rfl))

/-- Exactly when a restart waits for `t`. -/
theorem restartsAfter_iff (h : w.Regular) (hr : w.reaper = .running) {t t' : Instant}
    (hq : (w.afterPhase3 env pollInterval).processes.lookup id = some q) (hstate : q.state = .restarting)
    (hrs : q.restartState = some rs) (ht : rs.nextEligibleRestart = some t) :
    RestartsAfter env pollInterval w id t' ↔ t = t' := by
  constructor
  · rintro ⟨⟨q', rs', hq', hrs', ht'⟩, _⟩
    obtain rfl : q = q' := Option.some.inj (hq.symm.trans hq')
    obtain rfl : rs = rs' := Option.some.inj (hrs.symm.trans hrs')
    exact Option.some.inj (ht.symm.trans ht')
  · rintro rfl
    exact ⟨⟨q, rs, hq, hrs, ht⟩, fun n hnow => (lookup_passes h hr hq hstate hrs ht n hnow).trans hq.symm⟩

end World

/-! ### Runs -/

namespace System

/-- An exit that leads to restart number `restart_count + 1` in a row is restarted after the
documented delay exactly when this is also the delay for one restart more. -/
theorem delay_honoured_iff (env : Env) (pollInterval : ℕ) {s : System} (hs : s.Initial)
    (actions : List Action) {w : World} (hw : (s.run env pollInterval actions).world = w)
    (hr : w.reaper = .running) {e : ExitedProcess} (he : e ∈ (w.detect env pollInterval).1.exited)
    {p q : Process} {b : BackoffConfig} {rs : RestartState} (hp : w.processes.lookup e.id = some p)
    (hb : getBackoffConfig p.config = some b)
    (hrs : (p.stableUptime (w.awake env pollInterval).clock).restartState = some rs)
    (hq : (w.afterPhase3 env pollInterval).processes.lookup e.id = some q) (hstate : q.state = .restarting) :
    w.RestartsAfter env pollInterval e.id
        ((w.awake env pollInterval).clock + b.cappedNanos rs.restartCount.toNat) ↔
      b.cappedNanos rs.recordRestart.exponent = b.cappedNanos rs.restartCount.toNat := by
  subst hw
  have h := regular_run env pollInterval hs actions
  obtain ⟨rs', hrs', hnext⟩ := World.nextEligible_afterPhase3 h.sound.key h.idle he hp hb hrs hq hstate
  rw [World.restartsAfter_iff h hr hq hstate hrs' hnext]
  exact Nat.add_left_cancel_iff

/-- The defaults of `BackoffConfig`: one second, doubled up to one minute. -/
def doubling : BackoffConfig where
  initialDelay := ⟨10 ^ 9, Duration.second_lt⟩
  multiplier := 20
  maxDelay := ⟨60 * 10 ^ 9, Duration.minute_lt⟩
  maxRestarts := 3
  minUptime := ⟨10 * 10 ^ 9, Duration.tenSeconds_lt⟩

def constant : BackoffConfig := { doubling with multiplier := 10 }

/-- A process before the pass that finds its first crash. -/
def crashing (b : BackoffConfig) : System :=
  withReaper.run .firstCrash 0
    [.start ⟨"web"⟩ { command := "/bin/web", restartOnExit := true, restartPolicy := .backoff b }]

theorem delay_honoured_iff_constant : ∃ e ∈ ((crashing constant).world.detect .firstCrash 0).1.exited,
    (crashing constant).world.RestartsAfter .firstCrash 0 e.id
      (((crashing constant).world.awake .firstCrash 0).clock + constant.cappedNanos 0) := by
  have hexit : ((crashing constant).world.detect .firstCrash 0).1.exited.map ExitedProcess.id = [⟨1⟩] := by
    decide +kernel
  obtain ⟨e, he, hid⟩ := List.mem_map.mp (hexit ▸ List.mem_singleton_self (⟨1⟩ : ProcessId))
  have hbefore : ((crashing constant).world.processes.lookup ⟨1⟩).map (fun p => (getBackoffConfig p.config,
      (p.stableUptime ((crashing constant).world.awake .firstCrash 0).clock).restartState)) =
        some (some constant, some ⟨0, some 0, none⟩) := by decide +kernel
  have hafter : (((crashing constant).world.afterPhase3 .firstCrash 0).processes.lookup ⟨1⟩).map
      Process.state = some .restarting := by decide +kernel
  obtain ⟨p, hp, hpair⟩ := Option.map_eq_some_iff.mp hbefore
  obtain ⟨q, hq, hstate⟩ := Option.map_eq_some_iff.mp hafter
  rw [Prod.mk.injEq] at hpair
  exact ⟨e, he, (delay_honoured_iff .firstCrash 0 (.inr rfl) _ rfl (by decide +kernel) he (hid ▸ hp)
    hpair.1 hpair.2 (hid ▸ hq) hstate).mpr (by decide +kernel)⟩

/-- With the default policy the first restart waits for two seconds and not for one. -/
theorem not_delay_honoured :
    doubling.cappedNanos 0 = 10 ^ 9 ∧ ¬ (crashing doubling).world.RestartsAfter .firstCrash 0 ⟨1⟩
      (((crashing doubling).world.awake .firstCrash 0).clock + doubling.cappedNanos 0) := by
  refine ⟨by decide +kernel, ?_⟩
  rintro ⟨⟨p, rs, hp, hrs, ht⟩, _⟩
  have hnext : (((crashing doubling).world.afterPhase3 .firstCrash 0).processes.lookup ⟨1⟩).bind
      (fun p => p.restartState.bind RestartState.nextEligibleRestart) = some (2 * 10 ^ 9) := by
    decide +kernel
  rw [hp, Option.bind_some, hrs, Option.bind_some, ht] at hnext
  exact absurd hnext (by decide +kernel)

end System

end ProcessManager
