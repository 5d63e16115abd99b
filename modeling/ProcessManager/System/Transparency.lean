import ProcessManager.System.StableUptime
import ProcessManager.System.Survival
import ProcessManager.System.WatchedPass
import ProcessManager.System.WatchedStart

/-! Whether observing the manager changes what it does. Two runs make the same starts and passes
at the same times, and in the second one the states of processes are queried in between. What the
passes do is the same as long as no pass and no start depends on a state that only a query has
brought up to date: the state decides whether a restart counter is reset, which processes a cascade
selects, and which processes a label finds. -/

namespace ProcessManager

variable {env : Env} {pollInterval : ℕ} {w w' : World}

/-! ### What a pass does -/

/-- What others can see of a pass. -/
structure PassEffects where
  events : List ProcessExitEvent
  removed : List ProcessId
  /-- The processes signalled by the cascade. -/
  killed : List (ProcessId × ℕ × Signal)
  /-- The restarts scheduled by Phase 3, and when they are due. -/
  scheduled : List (ProcessId × Option Instant)
  deriving DecidableEq

namespace World

/-- The restart of `id`, if it is pending, and when it is due. -/
def pendingRestart (id : ProcessId) (w : World) : Option (ProcessId × Option Instant) :=
  match w.processes.lookup id with
  | some p => if p.state = .restarting then some (id, p.restartState.bind RestartState.nextEligibleRestart) else none
  | none => none

def passEffects (env : Env) (pollInterval : ℕ) (w : World) : PassEffects :=
  let w' := w.reaperPass env pollInterval
  let kills := (w'.kills.take (w'.kills.length - w.kills.length)).filter fun k => k.site = .cascade
  { events := w'.events.take (w'.events.length - w.events.length)
    removed := w.processes.keys.filter fun id => id ∉ w'.processes.keys
    killed := kills.map fun k => (k.id, k.pid, k.signal)
    scheduled := (w.detect env pollInterval).1.exited.filterMap fun e =>
      (w.afterPhase3 env pollInterval).pendingRestart e.id }

theorem Alike.pendingRestart {C : OsChild → OsChild → Prop} (h : Alike (fun _ => Process.Watched) C w w')
    (id : ProcessId) : w'.pendingRestart id = w.pendingRestart id := by
  rcases h.processes.lookup_cases id with ⟨hp, hp'⟩ | ⟨p, p', hp, hp', hwatched⟩
  · simp only [World.pendingRestart, hp, hp']
  · have hdue : p'.restartState.bind RestartState.nextEligibleRestart =
        p.restartState.bind RestartState.nextEligibleRestart := by
      have hbind : ∀ rs : Option RestartState, rs.bind RestartState.nextEligibleRestart =
          (rs.map RestartState.times).bind Prod.snd := by
        intro rs
        cases rs <;> rfl
      rw [hbind, hbind, hwatched.times]
    have hstate : p'.state = .restarting ↔ p.state = .restarting :=
      hwatched.state_iff (by decide) (by decide) rfl
    simp only [World.pendingRestart, hp, hp', hdue, hstate]

/-- Where both passes handle their exits alike, others see the same of them. -/
theorem Watched.passEffects (h : Watched w w') (hkey : ∀ i q, w.processes.lookup i = some q → q.id = i)
    (hkey' : ∀ i q, w'.processes.lookup i = some q → q.id = i) (howned : Owned w')
    (hagree : PassesAgree env pollInterval w w') :
    w'.passEffects env pollInterval = w.passEffects env pollInterval := by
  obtain ⟨hpass, _⟩ := h.reaperPass hkey hkey' howned hagree
  have hscheduled := (h.afterPhase3 hkey hkey' howned hagree).alike.pendingRestart
  simp only [World.passEffects, hpass.events, h.alike.events, hpass.kills, h.alike.kills, h.alike.processes.keys,
    hpass.processes.keys, (h.detect hkey' howned hagree).1, hscheduled]

theorem reaper_idle (env : Env) (n : ℕ) (w : World) : (w.idle env n).reaper = w.reaper := by
  induction n generalizing w with
  | zero => rfl
  | succ n ih => exact ih (w.tick env)

end World

/-! ### Two runs -/

/-- The same run without and with queries. -/
structure Twins where
  plain : System
  watched : System

namespace Twins

inductive Action where
  | start (label : Label) (config : ProcessConfig)
  /-- `state`, `is_running` or `get_info`, in the second run only. -/
  | query (id : ProcessId)
  | pass
  deriving DecidableEq

def Action.toAction : Action → ProcessManager.Action
  | .start label config => .start label config
  | .query id => .query id
  | .pass => .pass

/-- The first run does nothing for as long as a query takes. -/
def step (env : Env) (pollInterval : ℕ) (t : Twins) (a : Action) : Twins where
  plain := match a with
    | .query id =>
      t.plain.onWorld (World.idle env ((t.watched.world.query env id).ticks - t.watched.world.ticks))
    | a => t.plain.step env pollInterval a.toAction
  watched := t.watched.step env pollInterval a.toAction

/-- A pass does the same in both runs, and waits for a guard of its own thread in both or in neither. -/
def PassAgrees {σ : Type*} (shard : ProcessId → σ) (env : Env) (pollInterval : ℕ) (t : Twins) (a : Action) : Prop :=
  a = .pass → t.watched.world.reaper = t.plain.world.reaper ∧ (t.plain.world.reaper = .running →
    (World.RestartsUnblocked shard env pollInterval t.watched.world ↔
        World.RestartsUnblocked shard env pollInterval t.plain.world) ∧
      t.watched.world.passEffects env pollInterval = t.plain.world.passEffects env pollInterval)

/-- The action does not depend on a state that only a query has brought up to date. -/
def Unaffected (env : Env) (pollInterval : ℕ) (t : Twins) (a : Action) : Prop :=
  t.plain.world.reaper = .running → match a with
    | .start label config => config.validate = true → t.plain.world.startCycle label config = none →
        World.StartAgrees env config t.plain.world t.watched.world
    | .query id => World.QueryWorks env id t.watched.world
    | .pass => World.PassesAgree env pollInterval t.plain.world t.watched.world

instance (t : Twins) : ∀ a : Action, Decidable (Unaffected env pollInterval t a)
  | .start _ _ => inferInstanceAs (Decidable (_ → _ → _ → World.StartAgrees _ _ _ _))
  | .query _ => inferInstanceAs (Decidable (_ → World.QueryWorks _ _ _))
  | .pass => inferInstanceAs (Decidable (_ → World.PassesAgree _ _ _ _))

/-- The second run is a run of the manager, and while its reaper runs, the first is the same without
the queries. -/
structure Paired (env : Env) (pollInterval : ℕ) (s : System) (t : Twins) : Prop where
  reached : System.Reaches env pollInterval s t.watched
  reaper : t.watched.world.reaper = t.plain.world.reaper
  watched : t.plain.world.reaper = .running → World.Watched t.plain.world t.watched.world

namespace Paired

variable {s : System} {t : Twins}

theorem start (env : Env) (pollInterval : ℕ) (s : System) : Paired env pollInterval s ⟨s, s⟩ where
  reached := ⟨[], rfl⟩
  reaper := rfl
  watched _ := World.Mirrors.watched (.refl (fun _ p => .refl p) (fun _ => rfl) s.world)

theorem sound (hs : s.Initial) (h : Paired env pollInterval s t) : Sound t.watched.world := by
  obtain ⟨before, heq⟩ := h.reached
  exact heq ▸ System.sound_run env pollInterval hs before

theorem activeHeld (hs : s.Initial) (h : Paired env pollInterval s t) : t.watched.world.ActiveHeld := by
  obtain ⟨before, heq⟩ := h.reached
  exact heq ▸ System.activeHeld_run env pollInterval hs before

/-- The entries of the first run are filed under their ids, as those of the second are. -/
theorem key (hs : s.Initial) (h : Paired env pollInterval s t) (hr : t.plain.world.reaper = .running) :
    ∀ i q, t.plain.world.processes.lookup i = some q → q.id = i := by
  intro i q hq
  have hwatched := (h.watched hr).alike.processes
  rcases hwatched.lookup_cases i with ⟨hnone, _⟩ | ⟨p, p', hp, hp', hentry⟩
  · exact absurd (hnone.symm.trans hq) (by simp)
  · obtain rfl : p = q := Option.some.inj (hp.symm.trans hq)
    exact hentry.id.symm.trans ((h.sound hs).key i p' hp')

theorem step_start (hs : s.Initial) {label : Label} {config : ProcessConfig} (h : Paired env pollInterval s t)
    (hunaffected : Unaffected env pollInterval t (.start label config)) :
    Paired env pollInterval s (t.step env pollInterval (.start label config)) where
  reached := h.reached.step (.start label config)
  reaper := by
    have hreaper : ∀ u : System, (u.step env pollInterval (.start label config)).world.reaper = u.world.reaper :=
      fun u => System.reaper_step env pollInterval u (by simp)
    exact (hreaper t.watched).trans (h.reaper.trans (hreaper t.plain).symm)
  watched hr := by
    have hr : t.plain.world.reaper = .running :=
      (System.reaper_step env pollInterval t.plain (a := .start label config) (by simp)).symm.trans hr
    exact (h.watched hr).start (h.sound hs) (h.activeHeld hs).owned (hunaffected hr)

theorem step_query (hs : s.Initial) {id : ProcessId} (h : Paired env pollInterval s t)
    (hunaffected : Unaffected env pollInterval t (.query id)) :
    Paired env pollInterval s (t.step env pollInterval (.query id)) where
  reached := h.reached.step (.query id)
  reaper := by
    have hreaper : (t.watched.step env pollInterval (.query id)).world.reaper = t.watched.world.reaper :=
      System.reaper_step env pollInterval t.watched (by simp)
    exact hreaper.trans (h.reaper.trans (World.reaper_idle env _ t.plain.world).symm)
  watched hr := by
    have hr : t.plain.world.reaper = .running := (World.reaper_idle env _ t.plain.world).symm.trans hr
    exact (h.watched hr).query (h.activeHeld hs) (h.reaper.trans hr) (hunaffected hr)

theorem step_pass (hs : s.Initial) (h : Paired env pollInterval s t)
    (hunaffected : Unaffected env pollInterval t .pass) :
    Paired env pollInterval s (t.step env pollInterval .pass) := by
  have hreached := h.reached.step .pass
  by_cases hr : t.plain.world.reaper = .running
  · have hplain : (t.step env pollInterval .pass).plain.world = t.plain.world.reaperPass env pollInterval := if_pos hr
    have hwatched : (t.step env pollInterval .pass).watched.world = t.watched.world.reaperPass env pollInterval :=
      if_pos (h.reaper.trans hr)
    obtain ⟨halike, hmirrors⟩ := (h.watched hr).reaperPass (h.key hs hr) (h.sound hs).key (h.activeHeld hs).owned
      (hunaffected hr)
    refine ⟨hreached, ?_, ?_⟩ <;> rw [hplain, hwatched]
    · exact halike.reaper
    · exact fun hrunning => (hmirrors hrunning).watched
  · have hplain : (t.step env pollInterval .pass).plain.world = t.plain.world := if_neg hr
    have hwatched : (t.step env pollInterval .pass).watched.world = t.watched.world :=
      if_neg fun hr' => hr (h.reaper.symm.trans hr')
    refine ⟨hreached, ?_, ?_⟩ <;> rw [hplain]
    · rw [hwatched, h.reaper]
    · exact fun hrunning => absurd hrunning hr

/-- One action in both runs. -/
theorem step (hs : s.Initial) (h : Paired env pollInterval s t) :
    ∀ {a : Action}, Unaffected env pollInterval t a → Paired env pollInterval s (t.step env pollInterval a)
  | .start _ _, hunaffected => h.step_start hs hunaffected
  | .query _, hunaffected => h.step_query hs hunaffected
  | .pass, hunaffected => h.step_pass hs hunaffected

theorem passAgrees {σ : Type*} (shard : ProcessId → σ) (hs : s.Initial) {a : Action} (h : Paired env pollInterval s t)
    (hunaffected : Unaffected env pollInterval t a) : PassAgrees shard env pollInterval t a := by
  rintro rfl
  refine ⟨h.reaper, fun hr => ?_⟩
  have hkey := h.key hs hr
  have hkey' := (h.sound hs).key
  have howned := (h.activeHeld hs).owned
  exact ⟨(h.watched hr).restartsUnblocked hkey hkey' howned (hunaffected hr),
    (h.watched hr).passEffects hkey hkey' howned (hunaffected hr)⟩

end Paired

/-- In every run whose actions are unaffected by queries, every pass does what it does in the same run
without queries. -/
theorem observation_transparent {σ : Type*} (shard : ProcessId → σ) (env : Env) (pollInterval : ℕ) {s : System}
    (hs : s.Initial) (actions : List Action)
    (h : Fold.Meets (Unaffected env pollInterval) (step env pollInterval) actions ⟨s, s⟩) :
    Fold.Meets (PassAgrees shard env pollInterval) (step env pollInterval) actions ⟨s, s⟩ :=
  Fold.meets_of_invariant (I := Paired env pollInterval s) (fun _ _ ht hc => ht.passAgrees shard hs hc)
    (fun _ _ ht hc => ht.step hs hc) actions _ (.start env pollInterval s) h

/-- A query sees the first exit before the pass that schedules the restart. -/
theorem observation_transparent_crash :
    Fold.Meets (PassAgrees ProcessId.raw System.lateCrash System.sixSeconds)
      (step System.lateCrash System.sixSeconds)
      [.start ⟨"web"⟩ (System.web 1), .query ⟨1⟩, .pass] ⟨System.withReaper, System.withReaper⟩ :=
  observation_transparent ProcessId.raw System.lateCrash System.sixSeconds (.inr rfl) _ (by decide +kernel)

/-- A process that may be restarted once is restarted, and queried after its second child has exited. -/
def queriesLate : List Action := [.start ⟨"web"⟩ (System.web 1), .pass, .pass, .query ⟨1⟩]

def queriedLate : Twins :=
  queriesLate.foldl (step System.lateCrash System.sixSeconds) ⟨System.withReaper, System.withReaper⟩

/-- The pass that finds the exit resets the counter and schedules a restart, unless the query has
already written `Crashed`: then the process has failed and is removed. -/
theorem not_observation_transparent :
    (queriedLate.watched.world.children.map OsChild.reap = queriedLate.plain.world.children.map OsChild.reap ∧
      queriedLate.watched.world.clock = queriedLate.plain.world.clock) ∧
    ((queriedLate.plain.world.passEffects System.lateCrash System.sixSeconds).events.map (·.state) = [.crashed] ∧
      (queriedLate.plain.world.passEffects System.lateCrash System.sixSeconds).removed = []) ∧
    ((queriedLate.watched.world.passEffects System.lateCrash System.sixSeconds).events.map (·.state) = [.failed] ∧
      (queriedLate.watched.world.passEffects System.lateCrash System.sixSeconds).removed = [⟨1⟩]) ∧
    ¬ Fold.Meets (PassAgrees ProcessId.raw System.lateCrash System.sixSeconds)
      (step System.lateCrash System.sixSeconds) (queriesLate ++ [.pass]) ⟨System.withReaper, System.withReaper⟩ := by
  have hplain : (queriedLate.plain.world.passEffects System.lateCrash System.sixSeconds).events.map (·.state) =
      [.crashed] := by decide +kernel
  have hwatched : (queriedLate.watched.world.passEffects System.lateCrash System.sixSeconds).events.map (·.state) =
      [.failed] := by decide +kernel
  refine ⟨by decide +kernel, ⟨hplain, by decide +kernel⟩, ⟨hwatched, by decide +kernel⟩, fun h => ?_⟩
  have hlast : PassAgrees ProcessId.raw System.lateCrash System.sixSeconds queriedLate .pass := h.last
  have heffects := ((hlast rfl).2 (by decide +kernel)).2
  rw [heffects, hplain] at hwatched
  cases hwatched

end Twins

end ProcessManager
