import ProcessManager.Manager.Restart
import ProcessManager.Reaper.Loop
import ProcessManager.Library.Fold

/-! Runs of the whole system: API calls and reaper passes, one at a time. A call of
`start_with_deps` that has to wait polls once per `depsPoll` action, so that passes and
other calls can happen between its polls. -/

namespace ProcessManager

/-- A `start_with_deps` call that is still waiting. -/
structure DepsCall where
  id : ProcessId
  config : ProcessConfig
  deadline : Instant

structure System where
  world : World
  calls : List DepsCall

inductive Action where
  | start (label : Label) (config : ProcessConfig)
  | startWithDeps (label : Label) (config : ProcessConfig)
  /-- One polling iteration of the `n`-th waiting call. -/
  | depsPoll (n : ℕ)
  | stop (id : ProcessId)
  | stopLabel (label : Label)
  | stopAll
  | stopTerminateOnExit
  | restart (id : ProcessId)
  | restartLabel (label : Label)
  | sendSignal (id : ProcessId) (signal : Signal)
  | sendSignalLabel (label : Label) (signal : Signal)
  /-- `state`, `is_running` or `get_info`. -/
  | query (id : ProcessId)
  | pass
  deriving DecidableEq

namespace System

variable (env : Env) (pollInterval : ℕ)

/-- An action that only concerns the world. -/
def onWorld (f : World → World) (s : System) : System := { s with world := f s.world }

def step (s : System) : Action → System
  | .start label config => s.onWorld fun w => (w.start env label config).2
  | .startWithDeps label config =>
    let r := s.world.startWithDeps env label config
    match r.1 with
    | .ok (id, some deadline) => ⟨r.2, s.calls ++ [⟨id, config, deadline⟩]⟩
    | _ => ⟨r.2, s.calls⟩
  | .depsPoll n =>
    match s.calls[n]? with
    | none => s
    | some c =>
      let r := s.world.depsPoll env c.id c.config c.deadline
      ⟨r.2, if r.1.isSome then s.calls.eraseIdx n else s.calls⟩
  | .stop id => s.onWorld fun w => (w.stop env id).2
  | .stopLabel label => s.onWorld fun w => (w.stopLabel env label).2
  | .stopAll => s.onWorld (World.stopAll env)
  | .stopTerminateOnExit => s.onWorld (World.stopTerminateOnExit env)
  | .restart id => s.onWorld fun w => (w.restart env id).2
  | .restartLabel label => s.onWorld fun w => (w.restartLabel env label).2
  | .sendSignal id signal => s.onWorld fun w => (w.sendSignal env id signal).2
  | .sendSignalLabel label signal => s.onWorld (World.sendSignalLabel env label signal)
  | .query id => s.onWorld (World.query env id)
  | .pass => s.onWorld (World.ifRunning (World.reaperPass env pollInterval))

def run (actions : List Action) (s : System) : System := actions.foldl (step env pollInterval) s

/-- Some actions lead from `s` to `s'`. -/
def Reaches (s s' : System) : Prop := ∃ actions, s' = s.run env pollInterval actions

theorem Reaches.step {env : Env} {pollInterval : ℕ} {s s' : System} (h : Reaches env pollInterval s s') (a : Action) :
    Reaches env pollInterval s (s'.step env pollInterval a) := by
  obtain ⟨actions, rfl⟩ := h
  exact ⟨actions ++ [a], by simp only [run, List.foldl_append, List.foldl_cons, List.foldl_nil]⟩

/-- Two conditions agree along a run if they agree in all states it can reach. -/
theorem meets_iff_of_run {c d : System → Action → Prop} {s : System}
    (h : ∀ actions a, c (s.run env pollInterval actions) a ↔ d (s.run env pollInterval actions) a)
    (actions : List Action) : Fold.Meets c (step env pollInterval) actions s ↔
      Fold.Meets d (step env pollInterval) actions s := by
  refine Fold.meets_iff_of_invariant (I := fun _ => Reaches env pollInterval s) ?_ ?_ actions s ⟨[], rfl⟩
  · rintro a _ _ ⟨before, rfl⟩
    exact h before a
  · rintro a _ _ hreached _
    exact hreached.step a

/-- A manager without a reaper. -/
def new : System := ⟨.new, []⟩

/-- A manager with a reaper. -/
def withReaper : System := ⟨.withReaper, []⟩

/-- A freshly constructed manager. -/
def Initial (s : System) : Prop := s = new ∨ s = withReaper

end System

end ProcessManager
