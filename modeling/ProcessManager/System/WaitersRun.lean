import ProcessManager.System.Waiters
import ProcessManager.Reaper.Cascade

/-! What a pass does to processes in `Waiting`, and runs in which every process that stops
waiting is announced. -/

namespace ProcessManager

variable {env : Env} {C : Point → World → Process → Prop} {pollInterval : ℕ} {now : Instant}
  {w w' : World} {id : ProcessId} {p : Process}

/-- Waiting for dependencies or for the end of a backoff. -/
def Process.Between (p : Process) : Prop := p.state = .waiting ∨ p.state = .restarting

theorem Process.Visited.between {q : Process} (h : p.Visited now q) (hbetween : q.Between) :
    p.Between ∧ q.child = p.child := by
  obtain rfl | rfl | rfl := h
  · exact ⟨hbetween, rfl⟩
  · exact ⟨by simpa [Process.Between, Process.afterExit] using hbetween, by simp [Process.afterExit]⟩
  · unfold Process.afterPoll at hbetween ⊢
    split_ifs at hbetween ⊢
    · rcases hbetween with h | h <;> cases h
    · exact ⟨by simpa [Process.Between] using hbetween, by simp⟩

namespace World

/-! ### Processes between two children -/

/-- A process between two children holds none. -/
def Idle (w : World) : Prop :=
  ∀ id p, w.processes.lookup id = some p → p.Between → p.child = none

theorem Idle.of_refines {R : ProcessId → Process → Process → Prop} (h : Idle w)
    (hmap : AssocMap.Refines R w.processes w'.processes)
    (hR : ∀ i q q', R i q q' → q'.Between → q'.child = none ∨ q.Between ∧ q'.child = q.child) :
    Idle w' := by
  intro i q' hq' hbetween
  obtain ⟨q, hq, hr⟩ := hmap i q' hq'
  obtain hnone | ⟨hbetween', hchild⟩ := hR i q q' hr hbetween
  · exact hnone
  · rw [hchild]
    exact h i q hq hbetween'

theorem Idle.kept (h : Idle w) (hmap : AssocMap.Refines Kept w.processes w'.processes) : Idle w' :=
  h.of_refines hmap fun _ _ _ heq hbetween => .inr ⟨heq ▸ hbetween, by rw [heq]⟩

theorem Idle.of_processes (h : Idle w) (hmap : w'.processes = w.processes) : Idle w' := by
  unfold Idle
  rwa [hmap]

theorem Idle.put (h : Idle w) (hmap : w'.processes = w.processes)
    (hp : p.Between → p.child = none) : Idle (w'.put id p) :=
  AssocMap.forall_replace (h.of_processes hmap) hp

theorem Idle.insert (h : Idle w) (hmap : w'.processes = w.processes)
    (hp : p.Between → p.child = none) : Idle (w'.insert env id p) := by
  intro i q hq
  rw [insert_processes, AssocMap.lookup_reorder] at hq
  exact AssocMap.forall_insert (h.of_processes hmap) hp i q hq

theorem idle_move (h : Idle w) (hmove : Move env C w w') : Idle w' := by
  cases hmove with
  | frame hstep => exact h.kept hstep.processes
  | poll hp =>
    refine h.of_refines (mapStep_pollEntry (P := fun _ => True) hp).processes ?_
    rintro i q q' (rfl | ⟨_, s, hs, rfl⟩) hbetween
    · exact .inr ⟨hbetween, rfl⟩
    · rcases hs with rfl | hs
      · rcases hbetween with h | h <;> cases h
      · rcases hbetween with h | h <;> · rw [show s = _ from h] at hs; cases hs
  | stop hp _ hstep =>
    exact h.kept (hstep.processes ▸ (MapStep.remove (S := ∅) (P := fun _ => True) _ _).processes)
  | batch _ hstep =>
    refine h.of_refines hstep.processes ?_
    rintro i q q' (⟨_, rfl⟩ | ⟨rfl, _⟩) hbetween
    · exact .inr ⟨hbetween, rfl⟩
    · rcases hbetween with h | h <;> cases h
  | signal _ _ _ hstep => exact h.of_processes hstep.processes
  | adjust hp hadjust =>
    refine h.put rfl fun hbetween => ?_
    rw [hadjust.child]
    exact h _ _ hp (by unfold Process.Between at hbetween ⊢; rwa [← hadjust.state])
  | reset _ _ hstep => exact h.put hstep.processes fun _ => rfl
  | spawn hp _ hspawn hrespawned =>
    refine h.put hspawn.processes ?_
    rintro (hstate | hstate) <;> rw [hrespawned.state] at hstate <;> cases hstate
  | insert _ hspawn _ _ _ hstate =>
    refine h.insert hspawn.processes ?_
    rintro (hstate' | hstate') <;> rw [hstate] at hstate' <;> cases hstate'
  | insertWaiting _ _ hchild => exact h.insert rfl fun _ => hchild
  | toWaiting hp hstate _ hchild =>
    exact h.put rfl fun _ => hchild.trans (h _ _ hp (.inr hstate))
  | timeout =>
    refine h.put rfl ?_
    rintro (hstate | hstate) <;> cases hstate
  | failFast _ _ _ hstep => exact h.kept hstep.processes
  | count => exact h.of_processes rfl

theorem idle_passDetect (pollInterval : ℕ) (hkey : ∀ i q, w.processes.lookup i = some q → q.id = i)
    (h : Idle w) : Idle (w.passDetect env pollInterval).2.2 := by
  have hdetect : Idle (w.detect env pollInterval).2 := by
    intro i q hq hbetween
    obtain ⟨p, hp, hvisited⟩ := (phase1State_detect env pollInterval hkey).visited i q hq
    obtain ⟨hbetween', hchild⟩ := hvisited.between hbetween
    exact hchild.trans (h i p hp hbetween')
  have hcascade : Idle (w.cascade env pollInterval) := by
    intro i q hq hbetween
    rw [cascade, (killed_phase1b env _ _).lookup i, Option.map_eq_some_iff] at hq
    obtain ⟨p, hp, rfl⟩ := hq
    split_ifs at hbetween ⊢
    · rcases hbetween with h | h <;> cases h
    · exact hdetect i p hp hbetween
  exact hcascade.kept (mapStep_passDetect (P := fun _ => True) env pollInterval w).processes

theorem idle_scheduleEntry (h : Idle w) (e : ExitedProcess) : Idle (scheduleEntry env now e w) := by
  obtain ⟨heq, _⟩ | ⟨heq, _⟩ | ⟨config, label, p, w', _, hp, hstep, hcases⟩ :=
    scheduleEntry_cases (P := fun _ => True) env now e w
  · rwa [heq]
  · rw [heq]; exact h.of_processes rfl
  · obtain ⟨_, heq⟩ | ⟨rs, rs', _, _, heq⟩ | ⟨rs, _, _, heq⟩ := hcases <;> rw [heq] <;>
      exact h.put hstep.processes fun _ => rfl

theorem idle_afterPhase3 (pollInterval : ℕ) (hkey : ∀ i q, w.processes.lookup i = some q → q.id = i)
    (h : Idle w) : Idle (w.afterPhase3 env pollInterval) := by
  have hdetect : Idle (w.passDetect env pollInterval).2.2 := idle_passDetect pollInterval hkey h
  refine ifRunning_invariant hdetect fun _ => ?_
  exact Fold.foldl_invariant (I := Idle) hdetect fun w' e _ hw' =>
    ifRunning_invariant hw' fun _ => idle_scheduleEntry hw' e

/-! ### Phases 1 to 3 -/

/-- A process without a child is not found to have exited. -/
theorem exitsOf_of_childless (pollInterval : ℕ) (hkey : ∀ i q, w.processes.lookup i = some q → q.id = i)
    (hp : w.processes.lookup id = some p) (hchild : p.child = none) :
    w.exitsOf env pollInterval id = [] := by
  refine List.filter_eq_nil_iff.mpr fun e he hid => ?_
  have hid : e.id = id := by simpa using hid
  obtain ⟨q, c, _, _, _, hq, hc, _⟩ := collected_detect env pollInterval hkey e he
  obtain ⟨p', hp', hvisited⟩ := (phase1State_detect env pollInterval hkey).visited e.id q hq
  obtain rfl : p = p' := Option.some.inj (hp.symm.trans (hid ▸ hp'))
  have hsame : q.child = p.child := by
    obtain rfl | rfl | rfl := hvisited
    · rfl
    · simp [Process.afterExit]
    · unfold Process.afterPoll
      split_ifs <;> simp
  rw [hsame, hchild] at hc
  cases hc

theorem exitsOf_of_waits (pollInterval : ℕ) (hkey : ∀ i q, w.processes.lookup i = some q → q.id = i)
    (hidle : Idle w) (h : w.Waits id) : w.exitsOf env pollInterval id = [] := by
  obtain ⟨p, hp, hstate⟩ := h
  exact exitsOf_of_childless pollInterval hkey hp (hidle id p hp (.inl hstate))

end World

/-! ### Runs -/

namespace System

theorem idle_step {s : System} (hs : Sound s.world) (h : World.Idle s.world) (a : Action) :
    World.Idle (s.step env pollInterval a).world := by
  by_cases ha : a = .pass
  · subst ha
    refine World.ifRunning_invariant h fun _ => ?_
    exact (World.moves_afterPhase3 (C := fun _ _ _ => True) pollInterval s.world).invariant
      (fun _ _ => World.idle_move) (World.idle_afterPhase3 pollInterval hs.key h)
  · exact (moves_step (fun _ _ => trivial) ha hs stepMeets_true).invariant
      (fun _ _ => World.idle_move) h

theorem continues_step {s : System} (hs : Sound s.world) (a : Action) :
    World.Continues s.world (s.step env pollInterval a).world := by
  by_cases ha : a = .pass
  · subst ha
    refine World.ifRunning_invariant (.refl _) fun _ => ?_
    exact ((World.Continues.of_mapStep (World.keepStep_awakeDetect env pollInterval s.world)).trans
      (.of_mapStep (World.keepStep_afterPhase3 env pollInterval s.world))).trans
        (.moves (World.moves_afterPhase3 (C := fun _ _ _ => True) pollInterval s.world))
  · exact .moves (moves_step (fun _ _ => trivial) ha hs stepMeets_true)

/-- The manager has a reaper, and somebody listens until `rest` has run. -/
structure Listened (env : Env) (pollInterval : ℕ) (rest : List Action) (s : System) : Prop where
  sound : Sound s.world
  idle : World.Idle s.world
  reaper : s.world.reaper ≠ .absent
  receiver : (s.run env pollInterval rest).world.receiverAlive = true

theorem Listened.step {a : Action} {rest : List Action} {s : System} (h : Listened env pollInterval (a :: rest) s) :
    Listened env pollInterval rest (s.step env pollInterval a) :=
  ⟨sound_step env pollInterval s a h.sound, idle_step h.sound h.idle a, (continues_step h.sound a).reaper h.reaper,
    h.receiver⟩

/-- Waits for a process that is never started, and not for long. -/
def waitsForDb : ProcessConfig :=
  { command := "/bin/web", dependsOn := [.label ⟨"db"⟩], dependencyTimeoutMs := 0 }

end System

end ProcessManager
