import ProcessManager.Reaper.ExitsFound
import ProcessManager.System.Alive
import ProcessManager.System.RateLimit

/-! Resets of the restart counter. Phase 1 looks at the stored state and the time of the pass
before it looks at the child, so a child that exited early counts as stable when the pass
that finds its exit comes late enough. -/

namespace ProcessManager

variable {env : Env} {now : Instant} {pollInterval : ℕ} {w : World} {id : ProcessId} {p p' : Process}
  {rs rs' : RestartState}

/-- The child runs, or ran until `t` at least. -/
def OsChild.RanUntil (t : Instant) (ch : OsChild) : Prop :=
  match ch.status with
  | .running => True
  | .exited _ time => t ≤ time
  | .reaped _ time => t ≤ time

instance (t : Instant) (ch : OsChild) : Decidable (ch.RanUntil t) := by
  unfold OsChild.RanUntil
  cases ch.status <;> infer_instance

/-! ### What resets the counter -/

theorem RestartState.checkStableUptime_eq_zero_iff {b : BackoffConfig} (hpos : 0 < rs.restartCount) :
    (rs.checkStableUptime b now).restartCount = 0 ↔
      ∃ startedAt, rs.lastStartedAt = some startedAt ∧ b.minUptime.nanos ≤ now - startedAt := by
  have hne : rs.restartCount ≠ 0 := fun h => absurd (h ▸ hpos) (by decide)
  unfold checkStableUptime
  cases rs.lastStartedAt with
  | none => simp [hne]
  | some startedAt =>
    by_cases hstable : b.minUptime.nanos ≤ now - startedAt
    · simp [hstable, hpos]
    · simp [hstable, hne]

/-- The counter of a running process with backoff is reset `min_uptime` after its start. -/
theorem Process.stableUptime_eq_zero_iff (hrs : p.restartState = some rs) (hpos : 0 < rs.restartCount)
    (hrs' : (p.stableUptime now).restartState = some rs') :
    rs'.restartCount = 0 ↔ p.state = .running ∧ ∃ b startedAt, getBackoffConfig p.config = some b ∧
      rs.lastStartedAt = some startedAt ∧ b.minUptime.nanos ≤ now - startedAt := by
  have hne : rs.restartCount ≠ 0 := fun h => absurd (h ▸ hpos) (by decide)
  unfold stableUptime at hrs'
  split_ifs at hrs' with hrunning
  · cases hb : getBackoffConfig p.config with
    | none =>
      simp only [hrs, hb, Option.some.injEq] at hrs'
      subst hrs'
      simp [hne]
    | some b =>
      simp only [hrs, hb, Option.some.injEq] at hrs'
      subst hrs'
      rw [RestartState.checkStableUptime_eq_zero_iff hpos]
      simp [hrunning]
  · obtain rfl : rs = rs' := Option.some.inj (hrs.symm.trans hrs')
    simp [hne, hrunning]

@[simp] theorem Process.afterExit_restartState (now : Instant) (p : Process) :
    (p.afterExit now).restartState = (p.stableUptime now).restartState := rfl

@[simp] theorem Process.afterPoll_restartState (now : Instant) (p : Process) :
    (p.afterPoll now).restartState = (p.stableUptime now).restartState := by
  unfold afterPoll
  split_ifs <;> rfl

namespace World

/-- The pass resets counters only of processes whose child runs, or ran until `min_uptime`
after its start at least. -/
def ResetsStable (env : Env) (pollInterval : ℕ) (w : World) : Prop :=
  ∀ id p p' rs rs', w.processes.lookup id = some p →
    (w.detect env pollInterval).2.processes.lookup id = some p' →
    p.restartState = some rs → p'.restartState = some rs' → 0 < rs.restartCount → rs'.restartCount = 0 →
    ∃ b startedAt c ch, getBackoffConfig p.config = some b ∧ rs.lastStartedAt = some startedAt ∧
      p.child = some c ∧ (w.awake env pollInterval).children[c]? = some ch ∧
      ch.RanUntil (startedAt + b.minUptime.nanos)

/-- `p` is not a running process with a raised counter whose child exited before
`min_uptime`, `min_uptime` or more before `now`. -/
def NoLateExit (now : Instant) (children : List OsChild) (p : Process) : Prop :=
  p.state = .running → ∀ b ∈ getBackoffConfig p.config, ∀ rs ∈ p.restartState,
    ∀ startedAt ∈ rs.lastStartedAt, ∀ c ∈ p.child, ∀ ch ∈ children[c]?,
      0 < rs.restartCount → b.minUptime.nanos ≤ now - startedAt →
        ch.RanUntil (startedAt + b.minUptime.nanos)

instance (children : List OsChild) : Decidable (NoLateExit now children p) :=
  inferInstanceAs (Decidable (_ → _))

/-- The pass comes before `min_uptime` is over, or no exit came before. -/
def ExitsInTime (env : Env) (pollInterval : ℕ) (w : World) : Prop :=
  ∀ id ∈ w.processes.keys, ∀ p ∈ w.processes.lookup id,
    NoLateExit (w.awake env pollInterval).clock (w.awake env pollInterval).children p

instance (w : World) : Decidable (w.ExitsInTime env pollInterval) :=
  inferInstanceAs (Decidable (∀ id ∈ w.processes.keys, ∀ p ∈ w.processes.lookup id, _))

/-- A running process still has its child when the pass wakes up. -/
theorem ActiveHeld.child_awake (env : Env) (pollInterval : ℕ) (h : w.ActiveHeld) (hr : w.reaper = .running)
    (hp : w.processes.lookup id = some p) (hrunning : p.state = .running) :
    ∃ c ch, p.child = some c ∧ (w.awake env pollInterval).children[c]? = some ch := by
  have hstart := osStep_awake (S := ∅) (P := fun _ => True) env pollInterval w
  obtain ⟨c, ch, hc, hch, _⟩ :=
    (h.uncollected hr hp (.inr hrunning)).ages hstart.children (Set.disjoint_empty _)
  exact ⟨c, ch, hc, hch⟩

/-- Exactly when a pass resets no counter too early. -/
theorem resetsStable_iff (hkey : ∀ i q, w.processes.lookup i = some q → q.id = i) (h : w.ActiveHeld)
    (hr : w.reaper = .running) : w.ResetsStable env pollInterval ↔ w.ExitsInTime env pollInterval := by
  constructor
  · intro hresets id _ p hp hrunning b hb rs hrs startedAt hstarted c hc ch hch hpos hlate
    obtain ⟨p', hp', hvisited⟩ := visited_of_tracked env pollInterval hp (by simp [hrunning])
    have hrs' : p'.restartState = some (rs.checkStableUptime b (w.awake env pollInterval).clock) := by
      have heq : p'.restartState = (p.stableUptime (w.awake env pollInterval).clock).restartState := by
        rcases hvisited with rfl | rfl
        · exact Process.afterExit_restartState _ p
        · exact Process.afterPoll_restartState _ p
      rw [heq, Process.stableUptime, if_pos hrunning, Option.mem_def.mp hrs, Option.mem_def.mp hb]
    have hzero := (RestartState.checkStableUptime_eq_zero_iff hpos).mpr ⟨startedAt, hstarted, hlate⟩
    obtain ⟨b', startedAt', c', ch', hb', hstarted', hc', hch', hran⟩ :=
      hresets id p p' rs _ hp hp' hrs hrs' hpos hzero
    obtain rfl : b = b' := Option.some.inj (Eq.trans (Eq.symm hb) hb')
    obtain rfl : startedAt = startedAt' := Option.some.inj (Eq.trans (Eq.symm hstarted) hstarted')
    obtain rfl : c = c' := Option.some.inj (Eq.trans (Eq.symm hc) hc')
    obtain rfl : ch = ch' := Option.some.inj (Eq.trans (Eq.symm hch) hch')
    exact hran
  · intro htime id p p' rs rs' hp hp' hrs hrs' hpos hzero
    obtain ⟨q, hq, hvisited⟩ := (phase1State_detect env pollInterval hkey).visited id p' hp'
    obtain rfl : p = q := Option.some.inj (hp.symm.trans hq)
    have hstable : (p.stableUptime (w.awake env pollInterval).clock).restartState = some rs' := by
      rcases hvisited with rfl | rfl | rfl
      · -- an entry that Phase 1 skips keeps its counter
        obtain rfl : rs = rs' := Option.some.inj (hrs.symm.trans hrs')
        exact absurd (hzero ▸ hpos) (by decide)
      · rwa [Process.afterExit_restartState] at hrs'
      · rwa [Process.afterPoll_restartState] at hrs'
    obtain ⟨hrunning, b, startedAt, hb, hstarted, hlate⟩ :=
      (Process.stableUptime_eq_zero_iff hrs hpos hstable).mp hzero
    obtain ⟨c, ch, hc, hch⟩ := h.child_awake env pollInterval hr hp hrunning
    exact ⟨b, startedAt, c, ch, hb, hstarted, hc, hch, htime id (AssocMap.mem_of_lookup hp) p hp
      hrunning b hb rs hrs startedAt hstarted c hc ch hch hpos hlate⟩

end World

/-! ### Runs -/

namespace System

/-- A pass resets counters of stable processes only. -/
def ResetsStable (env : Env) (pollInterval : ℕ) (s : System) (a : Action) : Prop :=
  a = .pass → s.world.reaper = .running → s.world.ResetsStable env pollInterval

/-- No pass of the run finds an early exit late. -/
def ExitsInTime (env : Env) (pollInterval : ℕ) (s : System) (a : Action) : Prop :=
  a = .pass → s.world.reaper = .running → s.world.ExitsInTime env pollInterval

instance (s : System) (a : Action) : Decidable (ExitsInTime env pollInterval s a) :=
  inferInstanceAs (Decidable (_ → _ → _))

/-- A run resets counters of stable processes only exactly when none of its passes finds an
early exit late. -/
theorem resets_stable_iff (env : Env) (pollInterval : ℕ) {s : System} (hs : s.Initial)
    (actions : List Action) :
    Fold.Meets (ResetsStable env pollInterval) (step env pollInterval) actions s ↔
      Fold.Meets (ExitsInTime env pollInterval) (step env pollInterval) actions s := by
  refine meets_iff_of_run env pollInterval (fun before a => ?_) actions
  refine forall_congr' fun _ => forall_congr' fun hr => ?_
  exact World.resetsStable_iff (sound_run env pollInterval hs before).key
    (activeHeld_run env pollInterval hs before) hr

def sixSeconds : ℕ := 6 * 10 ^ 9

/-- A process crashes once and is then stable for longer than its `min_uptime`. -/
theorem resets_stable_iff_stable :
    Fold.Meets (ResetsStable (.exitsAt [(2, ⟨0, .code 1, 0⟩)]) sixSeconds)
      (step (.exitsAt [(2, ⟨0, .code 1, 0⟩)]) sixSeconds)
      [.start ⟨"web"⟩ (web 1), .pass, .pass, .pass] withReaper :=
  (resets_stable_iff (.exitsAt [(2, ⟨0, .code 1, 0⟩)]) sixSeconds (.inr rfl) _).mpr (by decide +kernel)

/-- The second child exits six seconds after its start, and its exit is found after twelve. -/
def lateCrash : Env := .exitsAt [(2, ⟨0, .code 1, 0⟩), (13, ⟨1, .code 1, 0⟩)]

def restartedOnce : System :=
  withReaper.run lateCrash sixSeconds [.start ⟨"web"⟩ (web 1), .pass, .pass]

/-- The counter is reset although `min_uptime` is ten seconds, so the process that may be
restarted once is restarted again. -/
theorem not_resets_stable :
    ((restartedOnce.step lateCrash sixSeconds .pass).world.processes.lookup ⟨1⟩).map Process.state =
        some .starting ∧
      ¬ restartedOnce.world.ResetsStable lateCrash sixSeconds := by
  refine ⟨by decide +kernel, fun h => ?_⟩
  have htime : restartedOnce.world.ExitsInTime lateCrash sixSeconds :=
    (World.resetsStable_iff (sound_run lateCrash sixSeconds (.inr rfl) _).key
      (activeHeld_run lateCrash sixSeconds (.inr rfl) _) (by decide +kernel)).mp h
  exact absurd htime (by decide +kernel)

end System

end ProcessManager
