import ProcessManager.Reaper.SelfBlock
import ProcessManager.System.Run

/-! Reaper passes that block on themselves. `perform_restart` holds an exclusive guard on
the entry it restarts while it searches labels and polls dependencies, so the pass hangs
as soon as one of the keys it visits lies on the same shard. -/

namespace ProcessManager

namespace System

variable {σ : Type*} (shard : ProcessId → σ) (env : Env) (pollInterval : ℕ)

/-- The guards that a pass takes, newest first. Irreducible, so that nobody runs the pass
just to look at the shape of a statement about it. -/
@[irreducible]
def passLog (w : World) : List (Guards.Event ProcessId) :=
  (World.reaperPass env pollInterval { w with locks := [] }).locks

/-- If the action is a pass, it requests no guard that a guard of its own thread excludes. -/
def PassUnblocked (s : System) : Action → Prop
  | .pass => s.world.reaper = .running → Guards.NoSelfBlock shard (passLog env pollInterval s.world)
  | _ => True

theorem passUnblocked_pass (s : System) :
    PassUnblocked shard env pollInterval s .pass ↔
      (s.world.reaper = .running → Guards.NoSelfBlock shard (passLog env pollInterval s.world)) :=
  Iff.rfl

/-- If the action is a pass, none of its restarts visits a key on the shard it has locked. -/
def PassRestartsApart (s : System) : Action → Prop
  | .pass => s.world.reaper = .running →
      World.RestartsUnblocked shard env pollInterval { s.world with locks := [] }
  | _ => True

theorem passUnblocked_iff (s : System) (a : Action) :
    PassUnblocked shard env pollInterval s a ↔ PassRestartsApart shard env pollInterval s a := by
  cases a with
  | pass =>
    refine imp_congr_right fun _ => ?_
    rw [passLog, World.noSelfBlock_reaperPass shard env pollInterval _ rfl]
    exact and_iff_right trivial
  | _ => exact Iff.rfl

/-- The passes of a run never block on themselves exactly when none of their restarts
visits a key on the shard of the process it restarts. -/
theorem passesUnblocked_iff (actions : List Action) (s : System) :
    Fold.Meets (PassUnblocked shard env pollInterval) (step env pollInterval) actions s ↔
      Fold.Meets (PassRestartsApart shard env pollInterval) (step env pollInterval) actions s :=
  Fold.meets_congr (passUnblocked_iff shard env pollInterval) actions s

/-- The second child crashes as soon as it was spawned. -/
def secondCrashes : Env := { Env.calm with exits := fun _ => [⟨1, .code 1, 0⟩] }

/-- The first pass spawns `web`, which waited for `db`. -/
def webBehindDb : List Action :=
  [.start ⟨"web"⟩ { command := "/bin/web", restartOnExit := true, dependsOn := [.label ⟨"db"⟩] },
    .start ⟨"db"⟩ { command := "/bin/db" }, .pass]

/-- Even if every id has a shard of its own, the label search of the restart meets the
entry that is restarted, which the pass has locked. -/
theorem not_passesUnblocked :
    ¬ ∀ (shard : ProcessId → ℕ) (env : Env) (pollInterval : ℕ) (s : System) (actions : List Action),
      s.Initial → Fold.Meets (PassUnblocked shard env pollInterval) (step env pollInterval) actions s := by
  intro h
  have hmeets := h ProcessId.raw secondCrashes 0 withReaper (webBehindDb ++ [.pass]) (.inr rfl)
  -- the next pass finds the crash and restarts `web` at once
  have hpass := (passUnblocked_pass _ _ _ _).mp hmeets.last
  have hreaper : (webBehindDb.foldl (step secondCrashes 0) withReaper).world.reaper = .running := by
    decide +kernel
  have hblock : ¬ Guards.NoSelfBlock ProcessId.raw (passLog secondCrashes 0
      (webBehindDb.foldl (step secondCrashes 0) withReaper).world) := by
    decide +kernel
  exact hblock (hpass hreaper)

/-! ### Runs that get on -/

section

variable [DecidableEq σ]

instance (s : System) (a : Action) : Decidable (PassUnblocked shard env pollInterval s a) :=
  decidable_of_iff (a = .pass → s.world.reaper = .running → Guards.NoSelfBlock shard (passLog env pollInterval s.world))
    (by cases a <;> simp [PassUnblocked])

instance (s : System) (a : Action) : Decidable (PassRestartsApart shard env pollInterval s a) :=
  decidable_of_iff _ (passUnblocked_iff shard env pollInterval s a)

/-- A step that ends. A pass that requests a guard its own thread excludes waits for ever, and with it
the reaper thread. -/
def step? (s : System) (a : Action) : Option System :=
  if PassUnblocked shard env pollInterval s a then some (step env pollInterval s a) else none

/-- A run whose steps all end. -/
def run? (actions : List Action) (s : System) : Option System := actions.foldlM (step? shard env pollInterval) s

variable {shard env pollInterval} {s s' : System} {actions : List Action}

theorem step?_eq_some_iff {a : Action} : step? shard env pollInterval s a = some s' ↔
    PassUnblocked shard env pollInterval s a ∧ step env pollInterval s a = s' := by
  unfold step?
  split_ifs with h <;> simp [h]

theorem run?_eq_some_iff : run? shard env pollInterval actions s = some s' ↔
    Fold.Meets (PassUnblocked shard env pollInterval) (step env pollInterval) actions s ∧ s.run env pollInterval actions = s' :=
  Fold.foldlM_eq_some_iff

/-- A run ends with all its steps if no restart of a pass visits a key on the shard of its process. -/
theorem run?_of_apart (h : Fold.Meets (PassRestartsApart shard env pollInterval) (step env pollInterval) actions s) :
    run? shard env pollInterval actions s = some (s.run env pollInterval actions) :=
  run?_eq_some_iff.mpr ⟨(Fold.meets_congr (passUnblocked_iff shard env pollInterval) actions s).mpr h, rfl⟩

end

end System

end ProcessManager
