import ProcessManager.Library.Threads
import ProcessManager.System.Shifts

/-! Calls of `start_with_deps` beside the reaper thread and beside other calls. Callers and
the reaper take one section at a time, in any order: between the two halves of a poll, or
between two sections of a pass, anything can happen. -/

namespace ProcessManager

/-! ### The threads -/

/-- Where a call of `start_with_deps` is. -/
inductive DepsPc where
  | called (label : Label) (config : ProcessConfig)
  /-- `start` has returned the id. -/
  | started (id : ProcessId) (config : ProcessConfig)
  /-- About to compare the clock with the deadline. -/
  | polling (id : ProcessId) (config : ProcessConfig) (deadline : Instant)
  /-- The deadline is reached; the process is about to be failed. -/
  | expired (id : ProcessId) (config : ProcessConfig)
  /-- About to read the state. -/
  | looking (id : ProcessId) (config : ProcessConfig) (deadline : Instant)
  | returned (result : Except ManagerError ProcessId)

namespace DepsPc

/-- The next section of the call. -/
def next (env : Env) : DepsPc → World → DepsPc × World
  | .called label config, w =>
    let r := w.start env label config
    (match r.1 with
      | .ok id => .started id config
      | .error e => .returned (.error e), r.2)
  | .started id config, w =>
    let wait := (DepsPc.polling id config ((w.tick env).clock + millis config.dependencyTimeoutMs), w.tick env)
    match w.processes.lookup id with
    | some p => if p.state = .waiting then wait else (.returned (.ok id), w)
    | none => wait
  | .polling id config deadline, w =>
    let w := w.tick env
    (if deadline ≤ w.clock then .expired id config else .looking id config deadline, w)
  | .expired id config, w =>
    (.returned (.error (.dependencyTimeout id config.dependsOn.head?)),
      match w.processes.lookup id with
      | some p => w.put id { p with state := .failed }
      | none => w)
  | .looking id config deadline, w =>
    match w.processes.lookup id with
    | some p =>
      match p.state with
      | .failed => (.returned (.error (.dependencyTimeout id config.dependsOn.head?)), w)
      | .waiting => (.polling id config deadline, w.sleep env (millis 50))
      | _ => (.returned (.ok id), w)
    | none => (.returned (.error (.notFound id)), w)
  | .returned result, w => (.returned result, w)

/-- What the call has returned. -/
def result : DepsPc → Option (Except ManagerError ProcessId)
  | .returned r => some r
  | _ => none

/-- The process that the call has started and not seen run. -/
def waitsFor : DepsPc → Option ProcessId
  | .started id _ | .polling id _ _ | .expired id _ | .looking id _ _
  | .returned (.error (.dependencyTimeout id _)) => some id
  | _ => none

variable {env : Env} {w : World} {id : ProcessId} {config : ProcessConfig} {deadline : Instant}

/-- Two sections make up one polling iteration. -/
theorem next_next_polling (env : Env) (id : ProcessId) (config : ProcessConfig) (deadline : Instant) (w : World) :
    let s := (DepsPc.polling id config deadline).next env w
    let t := s.1.next env s.2
    w.depsPoll env id config deadline = (t.1.result, t.2) := by
  simp only [next, World.depsPoll, World.tick_processes]
  split_ifs with hdeadline
  · rfl
  · simp only [World.tick_processes]
    cases w.processes.lookup id with
    | none => rfl
    | some p =>
      simp only
      generalize p.state = state
      cases state <;> rfl

/-- The sections up to the first poll make up `startWithDeps`. -/
theorem next_next_called (env : Env) (label : Label) (config : ProcessConfig) (w : World) :
    let s := (DepsPc.called label config).next env w
    let t := s.1.next env s.2
    (w.startWithDeps env label config).2 = t.2 ∧
      (∀ id, (w.startWithDeps env label config).1 = .ok (id, none) ↔ t.1 = .returned (.ok id)) ∧
      ∀ id deadline, (w.startWithDeps env label config).1 = .ok (id, some deadline) ↔
        t.1 = .polling id config deadline := by
  simp only [next, World.startWithDeps]
  obtain ⟨e | new, w'⟩ := w.start env label config
  · exact ⟨rfl, by simp, by simp⟩
  · simp only
    cases w'.processes.lookup new with
    | none => simp
    | some p =>
      simp only
      split_ifs <;> simp

end DepsPc

/-- The threads of one manager. -/
inductive DepsThread where
  | reaper (pc : ReaperPc)
  | caller (pc : DepsPc)
  /-- Another call, made as a whole. -/
  | call (a : Option Action)

namespace DepsThread

variable (env : Env) (pollInterval : ℕ)

def next : DepsThread → World → DepsThread × World
  | .reaper pc, w =>
    let r := ReaperPc.step env pollInterval (pc, w)
    (.reaper r.1, r.2)
  | .caller pc, w =>
    let r := pc.next env w
    (.caller r.1, r.2)
  | .call (some a), w => (.call none, (System.step env pollInterval ⟨w, []⟩ a).world)
  | .call none, w => (.call none, w)

/-- A thread that has done nothing yet. -/
def Fresh : DepsThread → Prop
  | .reaper pc => pc = .asleep
  | .caller pc => ∃ label config, pc = .called label config
  | .call a => a ≠ some .pass

/-- What the code leaves to chance: the first check does not find a failed process, a poll
past its deadline finds its process in `Waiting`, or without a child, no poll finds it
failed with a child, and the reaper finds what it collected. -/
def InTime : DepsThread → World → Prop
  | .reaper pc, w => w.reaper = .running → pc.UpToDate w
  | .caller (.started id _), w => ∀ p, w.processes.lookup id = some p → p.state ≠ .failed
  | .caller (.expired id _), w =>
    (∀ p, w.processes.lookup id = some p → p.state = .waiting ∨ (p.state = .failed ∧ p.child = none)) ∧
      (w.processes.lookup id = none → ¬ Spawns id w)
  | .caller (.looking id _ _), w => ∀ p, w.processes.lookup id = some p → p.state = .failed → p.child = none
  | _, _ => True

instance (c : ℕ) (w : World) : Decidable (Gone c w) :=
  match h : w.children[c]? with
  | some ch => decidable_of_iff (ch.isReaped = true) (by simp [Gone, h])
  | none => .isFalse (by simp [Gone, h])

/-- A child of `id` was spawned and has not been collected. -/
def HasChild (id : ProcessId) (w : World) : Prop := ∃ s ∈ w.spawns, s.id = id ∧ ¬ Gone s.child w

instance (id : ProcessId) (w : World) : Decidable (HasChild id w) :=
  inferInstanceAs (Decidable (∃ s ∈ w.spawns, s.id = id ∧ ¬ Gone s.child w))

theorem HasChild.of_same {id : ProcessId} {w w' : World} (h : HasChild id w')
    (hspawns : w'.spawns = w.spawns) (hchildren : w'.children = w.children) : HasChild id w := by
  obtain ⟨s, hs, hid, hlive⟩ := h
  refine ⟨s, hspawns ▸ hs, hid, fun ⟨ch, hch, hreaped⟩ => hlive ⟨ch, ?_, hreaped⟩⟩
  rw [hchildren, hch]

/-- Calls of `restart` take ids in `R` only. -/
def RestartsIn (R : Set ProcessId) : DepsThread → World → Prop
  | .call (some (.restart id)), _ => id ∈ R
  | .call (some (.restartLabel label)), w => ∀ id ∈ w.labelMembers label, id ∈ R
  | _, _ => True

instance (R : Set ProcessId) [DecidablePred (· ∈ R)] (t : DepsThread) (w : World) :
    Decidable (t.RestartsIn R w) :=
  match t with
  | .call (some (.restart id)) => inferInstanceAs (Decidable (id ∈ R))
  | .call (some (.restartLabel label)) => List.decidableBAll (· ∈ R) (w.labelMembers label)
  | .call (some (.start ..)) | .call (some (.startWithDeps ..)) | .call (some (.depsPoll _))
  | .call (some (.stop _)) | .call (some (.stopLabel _)) | .call (some .stopAll)
  | .call (some .stopTerminateOnExit) | .call (some (.sendSignal ..)) | .call (some (.sendSignalLabel ..))
  | .call (some (.query _)) | .call (some .pass) | .call none | .reaper _ | .caller _ => .isTrue trivial

/-- A property of the entry under an id, if there is one. -/
local instance decidableEntry (o : Option Process) (Q : Process → Prop) [DecidablePred Q] :
    Decidable (∀ p, o = some p → Q p) :=
  match o with
  | some q => decidable_of_iff (Q q) (by simp)
  | none => .isTrue fun _ h => absurd h.symm (Option.some_ne_none _)

instance (pc : ReaperPc) (w : World) : Decidable (pc.UpToDate w) :=
  match pc with
  | .restart (id :: _) => inferInstanceAs (Decidable (∀ p, w.processes.lookup id = some p → p.state = .restarting))
  | .spawn (id :: _) _ => inferInstanceAs (Decidable (∀ p, w.processes.lookup id = some p → p.state = .waiting))
  | .restart [] | .spawn [] _ | .asleep | .detect .. | .search .. | .collect .. | .cascade .. | .remove ..
  | .report .. | .schedule .. | .examine .. | .resolve .. | .extend .. | .recheck .. | .fail .. | .failFast ..
  | .failRunning .. | .discard .. => .isTrue trivial

instance (t : DepsThread) (w : World) : Decidable (t.InTime w) :=
  match t with
  | .reaper pc => inferInstanceAs (Decidable (w.reaper = .running → pc.UpToDate w))
  | .caller (.started id _) =>
    inferInstanceAs (Decidable (∀ p, w.processes.lookup id = some p → p.state ≠ .failed))
  | .caller (.expired id _) =>
    inferInstanceAs (Decidable ((∀ p, w.processes.lookup id = some p →
      p.state = .waiting ∨ (p.state = .failed ∧ p.child = none)) ∧
        (w.processes.lookup id = none → ¬ Spawns id w)))
  | .caller (.looking id _ _) =>
    inferInstanceAs (Decidable (∀ p, w.processes.lookup id = some p → p.state = .failed → p.child = none))
  | .caller (.called ..) | .caller (.polling ..) | .caller (.returned ..) | .call _ => .isTrue trivial

end DepsThread

end ProcessManager
