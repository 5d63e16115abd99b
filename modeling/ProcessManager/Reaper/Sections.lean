import ProcessManager.Reaper.Loop
import Mathlib.Logic.Relation

/-! `reaper_loop` one section at a time, so that other threads can act in the middle of a
pass. A section ends where the loop drops the guard on the entry it works on; reads of
other entries belong to the section whose decision they lead to. An iteration of the map
visits the entries that are tracked when it begins. Sections that nothing interrupts make
up `reaperPass`. -/

namespace ProcessManager

/-! ### Sections that end in the middle of a function -/

namespace World

variable (env : Env)

/-- `respawn` up to the drop of its guard, and the event a failed spawn has yet to send. -/
def respawnHeld (id : ProcessId) (p : Process) (w : World) : Option ProcessExitEvent × World :=
  match w.spawnError env p.config with
  | some _ =>
    (some (p.endEvent id .failed),
      ((w.spawnProcess env .performRestart id p.config p.resolvedDeps).put id
        { p with state := .failed }).unlock .exclusive id)
  | none => (none, w.respawn env id p)

/-- `perform_restart` up to the drop of its guard. -/
def performRestartHeld (id : ProcessId) (w : World) : Option ProcessExitEvent × World :=
  let w := w.lock .exclusive id
  match w.processes.lookup id with
  | none => (none, w.unlock .exclusive id)
  | some p =>
    let deps := p.config.dependsOn
    if deps = [] then w.respawnHeld env id p
    else
      let resolved := resolvedOrDefault w.processes deps
      let w := w.touch .shared (resolveVisits w.processes deps)
      if resolved.length = deps.length then
        let r := w.allDepsRunning env resolved
        if r.1 then r.2.respawnHeld env id { p with resolvedDeps := resolved }
        else (none, r.2.restartToWaiting env id p resolved)
      else (none, w.restartToWaiting env id p resolved)

/-- `spawn_waiting_process` up to the drop of its guard. -/
def spawnWaitingHeld (id : ProcessId) (w : World) : Option ProcessExitEvent × World :=
  let w' := w.lock .exclusive id
  match w.processes.lookup id with
  | none => (none, w'.unlock .exclusive id)
  | some p =>
    match w'.spawnError env p.config with
    | some _ =>
      (some (p.endEvent id .failed),
        ((w'.spawnProcess env .spawnWaiting id p.config p.resolvedDeps).put id
          { p with state := .failed }).unlock .exclusive id)
    | none => (none, w.spawnWaitingProcess env id)

/-- The Phase 5 loop body while it holds the guard on `id`. An entry with unresolved
dependencies is handed on together with them. -/
def examineHeld (id : ProcessId) (v : Verdicts) (w : World) :
    Verdicts × Option (Process × List DependencyRef) × World :=
  let w := w.lock .shared id
  match w.processes.lookup id with
  | none => (v, none, w.unlock .shared id)
  | some p =>
    let w' := w.readElapsed env p
    if w.timedOut env p then ({ v with toFail := v.toFail ++ [id] }, none, w'.unlock .shared id)
    else if p.resolvedDeps.length ≠ p.config.dependsOn.length then
      (v, some (p, depsToResolve w'.processes p),
        (w'.touch .shared (boundVisits w'.processes p)).unlock .shared id)
    else
      let r := w'.checkResolved id p v
      (r.1, none, r.2)

/-- The searches for unresolved dependencies, without a guard on `id`. -/
def searchDeps (id : ProcessId) (p : Process) (deps : List DependencyRef) (v : Verdicts) (w : World) :
    Verdicts × List ProcessId × World :=
  let new := newlyResolved w.processes deps
  let w := w.touch .shared (searchVisits w.processes deps)
  if new = [] then
    let r := w.failIfTerminal id p.resolvedDeps v
    (r.1, [], r.2)
  else (v, new, w)

/-- `resolved_deps.extend(newly_resolved)` through `get_mut`. -/
def extendEntry (id : ProcessId) (new : List ProcessId) (w : World) : World :=
  let w := w.lock .exclusive id
  match w.processes.lookup id with
  | none => w.unlock .exclusive id
  | some p => (w.put id (p.extend new)).unlock .exclusive id

/-- The re-check after new ids were bound. -/
def recheck (id : ProcessId) (v : Verdicts) (w : World) : Verdicts × World :=
  let w := w.lock .shared id
  match w.processes.lookup id with
  | none => (v, w.unlock .shared id)
  | some p =>
    let r := w.spawnIfReady id p v
    (r.1, r.2.unlock .shared id)

/-- The first half of a Phase 5 failure: the entry is `Failed`, and its event is ready. -/
def failWaitingHeld (id : ProcessId) (w : World) : Option ProcessExitEvent × World :=
  let w := w.lock .exclusive id
  match w.processes.lookup id with
  | none => (none, w.unlock .exclusive id)
  | some p =>
    (some (p.endEvent id .failed), (w.put id { p with state := .failed }).unlock .exclusive id)

/-- The check of Phase 6: the entry, if one of its dependencies is terminal. -/
def failFastCheck (id : ProcessId) (w : World) : Option Process × World :=
  let w := w.lock .shared id
  match w.processes.lookup id with
  | none => (none, w.unlock .shared id)
  | some p =>
    let w' := w.touch .shared (p.resolvedDeps.visitedUntil (isTerminalDep w.processes))
    (if p.resolvedDeps.any (isTerminalDep w.processes) then some p else none, w'.unlock .shared id)

/-- `failRunning` up to the drop of its guard. -/
def failRunningHeld (id : ProcessId) (p : Process) (w : World) : World :=
  let w := w.lock .exclusive id
  let w := match w.processes.lookup id with
    | none => w
    | some q =>
      let w := w.put id { q with state := .failed }
      if 0 < p.pid then (q.sendSignal env .failFast q.config.killSignal w).2 else w
  w.unlock .exclusive id

/-- Remove a failed entry and send its event; a closed channel ends the thread only where
the loop itself sends. -/
def discard (event : ProcessExitEvent) (inLoop : Bool) (w : World) : World :=
  let w := w.removeEntry event.id
  if inLoop then w.sendOrReturn env event else w.send env event

/-- One visit of an iteration that collects ids. -/
def collectVisit (f : Process → Bool) (id : ProcessId) (found : List ProcessId) (w : World) :
    List ProcessId :=
  match w.processes.lookup id with
  | some p => if f p then found ++ [id] else found
  | none => found

end World

/-! ### The state machine -/

/-- The iterations that collect ids for a later loop. -/
inductive Collecting where
  /-- The targets of the cascade of `o`; more origins follow. -/
  | targets (now : Instant) (x : Exits) (o : CascadeOrigin) (origins : List CascadeOrigin)
      (found : List ProcessId)
  | due (now : Instant)
  | waiting
  | running

def Collecting.selects : Collecting → Process → Bool
  | .targets _ _ o _ _, p => World.cascadeSelects o p
  | .due now, p => World.restartDue now p
  | .waiting, p => p.state = .waiting
  | .running, p => p.state = .running && !p.resolvedDeps.isEmpty

/-- Where the reaper thread is, with the lists it has built and not used up yet. -/
inductive ReaperPc where
  | asleep
  | detect (now : Instant) (ids : List ProcessId) (x : Exits)
  | search (now : Instant) (x : Exits) (origins : List CascadeOrigin) (targets : List ProcessId)
  | collect (c : Collecting) (ids found : List ProcessId)
  | cascade (now : Instant) (x : Exits) (targets : List ProcessId)
  | remove (now : Instant) (exited : List ExitedProcess) (ids : List ProcessId)
  | report (now : Instant) (exited pending : List ExitedProcess)
  | schedule (now : Instant) (exited : List ExitedProcess)
  | restart (ids : List ProcessId)
  | examine (ids : List ProcessId) (v : Verdicts)
  | resolve (id : ProcessId) (p : Process) (deps : List DependencyRef) (ids : List ProcessId) (v : Verdicts)
  | extend (id : ProcessId) (new ids : List ProcessId) (v : Verdicts)
  | recheck (id : ProcessId) (ids : List ProcessId) (v : Verdicts)
  | spawn (ids toFail : List ProcessId)
  | fail (ids : List ProcessId)
  | failFast (ids : List ProcessId)
  | failRunning (id : ProcessId) (p : Process) (ids : List ProcessId)
  /-- An entry was set to `Failed` and is about to be removed. -/
  | discard (event : ProcessExitEvent) (inLoop : Bool) (rest : ReaperPc)

namespace ReaperPc

/-- What follows an iteration. -/
def collected : Collecting → List ProcessId → ReaperPc
  | .targets now x _ origins targets, found => .search now x origins (targets ++ found)
  | .due _, found => .restart found
  | .waiting, found => .examine found ⟨[], []⟩
  | .running, found => .failFast found

/-- A section that may have failed its entry. -/
def after (inLoop : Bool) (rest : ReaperPc) : Option ProcessExitEvent → ReaperPc
  | some event => .discard event inLoop rest
  | none => rest

variable (env : Env) (pollInterval : ℕ)

/-- The next section. -/
def next : ReaperPc → World → ReaperPc × World
  | .asleep, w =>
    let w := (w.sleep env pollInterval).tick env
    (.detect w.clock w.processes.keys .empty, w)
  | .detect now [] x, w => (.search now x x.cascadeOrigins [], w)
  | .detect now (id :: ids) x, w =>
    let r := World.phase1Visit env now id (x, w)
    (.detect now ids r.1, r.2)
  | .search now x [] targets, w => (.cascade now x targets, w)
  | .search now x (o :: origins) targets, w =>
    (.collect (.targets now x o origins targets) w.processes.keys [], w)
  | .collect c [] found, w => (collected c found, w)
  | .collect c (id :: ids) found, w =>
    (.collect c ids (w.collectVisit c.selects id found), w.touch .shared [id])
  | .cascade now x [], w => (.remove now x.exited x.toRemove, w)
  | .cascade now x (id :: ids), w => (.cascade now x ids, w.cascadeKill env id)
  | .remove now exited [], w => (.report now exited exited, w)
  | .remove now exited (id :: ids), w => (.remove now exited ids, w.removeEntry id)
  | .report now exited [], w => (.schedule now exited, w)
  | .report now exited (e :: es), w => (.report now exited es, w.sendOrReturn env e.event)
  | .schedule now [], w => (.collect (.due now) w.processes.keys [], w)
  | .schedule now (e :: es), w => (.schedule now es, World.scheduleEntry env now e w)
  | .restart [], w => (.collect .waiting w.processes.keys [], w)
  | .restart (id :: ids), w =>
    let r := w.performRestartHeld env id
    (after false (.restart ids) r.1, r.2)
  | .examine [] v, w => (.spawn v.toSpawn v.toFail, w)
  | .examine (id :: ids) v, w =>
    let r := w.examineHeld env id v
    match r.2.1 with
    | some (p, deps) => (.resolve id p deps ids r.1, r.2.2)
    | none => (.examine ids r.1, r.2.2)
  | .resolve id p deps ids v, w =>
    let r := w.searchDeps id p deps v
    if r.2.1 = [] then (.examine ids r.1, r.2.2) else (.extend id r.2.1 ids r.1, r.2.2)
  | .extend id new ids v, w => (.recheck id ids v, w.extendEntry id new)
  | .recheck id ids v, w =>
    let r := w.recheck id v
    (.examine ids r.1, r.2)
  | .spawn [] toFail, w => (.fail toFail, w)
  | .spawn (id :: ids) toFail, w =>
    let r := w.spawnWaitingHeld env id
    (after false (.spawn ids toFail) r.1, r.2)
  | .fail [], w => (.collect .running w.processes.keys [], w)
  | .fail (id :: ids), w =>
    let r := w.failWaitingHeld id
    (after true (.fail ids) r.1, r.2)
  | .failFast [], w => (.asleep, w)
  | .failFast (id :: ids), w =>
    let r := w.failFastCheck id
    match r.1 with
    | some p => (.failRunning id p ids, r.2)
    | none => (.failFast ids, r.2)
  | .failRunning id p ids, w =>
    (.discard (p.endEvent id .failed) true (.failFast ids), w.failRunningHeld env id p)
  | .discard event inLoop rest, w => (rest, w.discard env event inLoop)

/-- The next section of a thread that has not ended. -/
def step (s : ReaperPc × World) : ReaperPc × World :=
  if s.2.reaper = .running then next env pollInterval s.1 s.2 else s

end ReaperPc

/-! ### Sections make up functions -/

namespace World

variable {env : Env} {id : ProcessId} {p : Process} {v : Verdicts} {w : World}

/-- What is left to do once the guard is dropped. -/
def finish (env : Env) (inLoop : Bool) (r : Option ProcessExitEvent × World) : World :=
  match r.1 with
  | some event => r.2.discard env event inLoop
  | none => r.2

theorem finish_respawnHeld (env : Env) (id : ProcessId) (p : Process) (w : World) :
    finish env false (w.respawnHeld env id p) = w.respawn env id p := by
  unfold respawnHeld
  split
  · next e he => simp only [finish, discard, respawn, he, failSpawn, Process.endEvent,
      Bool.false_eq_true, ↓reduceIte]
  · rfl

theorem finish_performRestartHeld (env : Env) (id : ProcessId) (w : World) :
    finish env false (w.performRestartHeld env id) = w.performRestart env id := by
  simp only [performRestartHeld, performRestart, lock_processes]
  cases w.processes.lookup id with
  | none => rfl
  | some p =>
    simp only
    split_ifs
    · exact finish_respawnHeld env id p _
    · exact finish_respawnHeld env id _ _
    · rfl
    · rfl

theorem finish_spawnWaitingHeld (env : Env) (id : ProcessId) (w : World) :
    finish env false (w.spawnWaitingHeld env id) = w.spawnWaitingProcess env id := by
  simp only [spawnWaitingHeld]
  split
  · next h => simp only [finish, spawnWaitingProcess, lock_processes, h]
  · next p hp =>
    split
    · next e he => simp only [finish, discard, spawnWaitingProcess, lock_processes, hp, he, failSpawn,
        Process.endEvent, Bool.false_eq_true, ↓reduceIte]
    · rfl

theorem finish_failWaitingHeld (env : Env) (id : ProcessId) (w : World) :
    finish env true (w.failWaitingHeld id) = w.failWaiting env id := by
  simp only [failWaitingHeld, failWaiting, lock_processes]
  cases w.processes.lookup id <;> rfl

/-- A closed channel does not end the thread outside the loop. -/
theorem reaper_finish (env : Env) (r : Option ProcessExitEvent × World) :
    (finish env false r).reaper = r.2.reaper := by
  obtain ⟨_ | event, w⟩ := r
  · rfl
  · exact (osStep_send (S := ∅) (P := fun _ => True) env event (w.removeEntry event.id)).reaper

theorem reaper_performRestartHeld (env : Env) (id : ProcessId) (w : World) :
    (w.performRestartHeld env id).2.reaper = w.reaper := by
  rw [← reaper_finish env, finish_performRestartHeld, reaper_performRestart]

theorem reaper_spawnWaitingHeld (env : Env) (id : ProcessId) (w : World) :
    (w.spawnWaitingHeld env id).2.reaper = w.reaper := by
  rw [← reaper_finish env, finish_spawnWaitingHeld, reaper_spawnWaitingProcess]

theorem reaper_failWaitingHeld (id : ProcessId) (w : World) :
    (w.failWaitingHeld id).2.reaper = w.reaper := by
  simp only [failWaitingHeld]
  split <;> rfl

theorem reaper_failFastCheck (id : ProcessId) (w : World) :
    (w.failFastCheck id).2.reaper = w.reaper := by
  simp only [failFastCheck]
  split <;> rfl

theorem reaper_failRunningHeld (env : Env) (id : ProcessId) (p : Process) (w : World) :
    (w.failRunningHeld env id p).reaper = w.reaper := by
  simp only [failRunningHeld, lock_processes]
  cases w.processes.lookup id with
  | none => rfl
  | some q =>
    simp only
    split_ifs
    · exact Process.osStep_sendSignal.reaper
    · rfl

theorem osStep_examineHeld (env : Env) (id : ProcessId) (v : Verdicts) (w : World) :
    OsStep ∅ (fun _ => False) w (w.examineHeld env id v).2.2 := by
  simp only [examineHeld, lock_processes]
  split
  · exact (OsStep.lock _ _ _).trans (.unlock _ _ _)
  · next p _ =>
    have hread : OsStep ∅ (fun _ => False) w ((w.lock .shared id).readElapsed env p) :=
      (OsStep.lock _ _ _).trans (osStep_readElapsed p)
    split_ifs
    · exact hread.trans (.unlock _ _ _)
    · exact hread.trans ((OsStep.touch _ _ _).trans (.unlock _ _ _))
    · exact hread.trans osStep_checkResolved

theorem osStep_searchDeps (id : ProcessId) (p : Process) (deps : List DependencyRef) (v : Verdicts)
    (w : World) : OsStep ∅ (fun _ => False) w (w.searchDeps id p deps v).2.2 := by
  simp only [searchDeps]
  split_ifs
  · exact (OsStep.touch _ _ _).trans (osStep_failIfTerminal _)
  · exact .touch _ _ _

theorem osStep_recheck (id : ProcessId) (v : Verdicts) (w : World) :
    OsStep ∅ (fun _ => False) w (w.recheck id v).2 := by
  simp only [recheck, lock_processes]
  split
  · exact (OsStep.lock _ _ _).trans (.unlock _ _ _)
  · rw [spawnIfReady_snd]
    exact (OsStep.lock _ _ _).trans ((OsStep.touch _ _ _).trans (.unlock _ _ _))

theorem osStep_failFastCheck (id : ProcessId) (w : World) :
    OsStep ∅ (fun _ => False) w (w.failFastCheck id).2 := by
  simp only [failFastCheck, lock_processes]
  split
  · exact (OsStep.lock _ _ _).trans (.unlock _ _ _)
  · exact (OsStep.lock _ _ _).trans ((OsStep.touch _ _ _).trans (.unlock _ _ _))

theorem recheck_extendEntry {new : List ProcessId} (hp : w.processes.lookup id = some p) :
    (w.extendEntry id new).recheck id v =
      (let w := ((w.lock .exclusive id).put id (p.extend new)).unlock .exclusive id
       let r := (w.lock .shared id).spawnIfReady id (p.extend new) v
       (r.1, r.2.unlock .shared id)) := by
  have hq : (w.processes.replace id (p.extend new)).lookup id = some (p.extend new) := by
    rw [AssocMap.lookup_replace, if_pos rfl, hp, Option.map_some]
  simp only [extendEntry, recheck, lock_processes, hp, unlock_processes, put_processes, hq]

theorem foldl_collectVisit (f : Process → Bool) (w : World) :
    w.processes.keys.foldl (fun found id => w.collectVisit f id found) [] = w.processes.keysWhere f := by
  have hvisit : ∀ (l : List (Sigma fun _ : ProcessId => Process)) (found : List ProcessId),
      (∀ e ∈ l, w.processes.lookup e.1 = some e.2) →
      (l.map Sigma.fst).foldl (fun found id => w.collectVisit f id found) found =
        found ++ (l.filter fun e => f e.2).map Sigma.fst := by
    intro l
    induction l with
    | nil => exact fun found _ => (List.append_nil found).symm
    | cons e l ih =>
      intro found hl
      rw [List.map_cons, List.foldl_cons, ih _ fun e' he' => hl e' (List.mem_cons_of_mem _ he')]
      simp only [collectVisit, hl e List.mem_cons_self, List.filter_cons]
      split_ifs with hf
      · rw [List.map_cons, List.append_assoc, List.singleton_append]
      · rfl
  exact (hvisit _ [] fun e he => AList.mem_lookup_iff.mpr he).trans (List.nil_append _)

end World

/-! ### Sections make up passes -/

namespace ReaperPc

open Relation

variable {env : Env} {pollInterval : ℕ} {s t : ReaperPc × World} {pc pc' : ReaperPc} {w w' : World}
  {α β : Type}

/-- The thread alone gets from `s` to `pc` with the world `w`, or ends in that world. -/
def Runs (env : Env) (pollInterval : ℕ) (s : ReaperPc × World) (pc : ReaperPc) (w : World) : Prop :=
  ∃ pc', ReflTransGen (fun s t => step env pollInterval s = t) s (pc', w) ∧
    (w.reaper = .running → pc' = pc)

namespace Runs

theorem refl (pc : ReaperPc) (w : World) : Runs env pollInterval (pc, w) pc w :=
  ⟨pc, .refl, fun _ => rfl⟩

theorem head (hs : s.2.reaper = .running) (hnext : next env pollInterval s.1 s.2 = t)
    (h : Runs env pollInterval t pc w) : Runs env pollInterval s pc w := by
  obtain ⟨pc', hsteps, hpc'⟩ := h
  have hstep : step env pollInterval s = t := by rw [step, if_pos hs, hnext]
  exact ⟨pc', .head hstep hsteps, hpc'⟩

/-- One section. -/
theorem single (hs : w.reaper = .running) (hnext : next env pollInterval pc w = (pc', w')) :
    Runs env pollInterval (pc, w) pc' w' := head hs hnext (refl pc' w')

theorem trans (h : Runs env pollInterval s pc w)
    (h' : w.reaper = .running → Runs env pollInterval (pc, w) pc' w')
    (hended : w.reaper ≠ .running → w' = w) : Runs env pollInterval s pc' w' := by
  obtain ⟨pc₁, hsteps, hpc₁⟩ := h
  by_cases hr : w.reaper = .running
  · obtain ⟨pc₂, hsteps', hpc₂⟩ := h' hr
    obtain rfl := hpc₁ hr
    exact ⟨pc₂, hsteps.trans hsteps', hpc₂⟩
  · obtain rfl := hended hr
    exact ⟨pc₁, hsteps, fun hr' => absurd hr' hr⟩

theorem ifRunning {f : World → World} (h : Runs env pollInterval s pc w)
    (h' : w.reaper = .running → Runs env pollInterval (pc, w) pc' (f w)) :
    Runs env pollInterval s pc' (w.ifRunning f) := by
  unfold World.ifRunning
  split_ifs with hr
  · exact h.trans h' fun hr' => absurd hr hr'
  · exact h.trans (fun hr' => absurd hr' hr) fun _ => rfl

/-- A loop whose body cannot end the thread. -/
theorem fold (env : Env) (pollInterval : ℕ) (at_ : List α → β → ReaperPc) {f : β × World → α → β × World}
    (hbody : ∀ a as b w, w.reaper = .running →
      Runs env pollInterval (at_ (a :: as) b, w) (at_ as (f (b, w) a).1) (f (b, w) a).2)
    (hkeep : ∀ a b w, (f (b, w) a).2.reaper = w.reaper) (as : List α) (b : β) (w : World)
    (hr : w.reaper = .running) :
    Runs env pollInterval (at_ as b, w) (at_ [] (as.foldl f (b, w)).1) (as.foldl f (b, w)).2 ∧
      (as.foldl f (b, w)).2.reaper = .running := by
  induction as generalizing b w with
  | nil => exact ⟨refl _ _, hr⟩
  | cons a as ih =>
    have hr' := (hkeep a b w).trans hr
    obtain ⟨hrest, hend⟩ := ih (f (b, w) a).1 (f (b, w) a).2 hr'
    exact ⟨(hbody a as b w hr).trans (fun _ => hrest) fun hn => absurd hr' hn, hend⟩

/-- The same for a loop that builds no list. -/
theorem each (env : Env) (pollInterval : ℕ) (at_ : List α → ReaperPc) {f : World → α → World}
    (hbody : ∀ a as w, w.reaper = .running →
      Runs env pollInterval (at_ (a :: as), w) (at_ as) (f w a))
    (hkeep : ∀ a w, (f w a).reaper = w.reaper) (as : List α) (hr : w.reaper = .running) :
    Runs env pollInterval (at_ as, w) (at_ []) (as.foldl f w) ∧ (as.foldl f w).reaper = .running := by
  induction as generalizing w with
  | nil => exact ⟨refl _ _, hr⟩
  | cons a as ih =>
    have hr' := (hkeep a w).trans hr
    obtain ⟨hrest, hend⟩ := ih hr'
    exact ⟨(hbody a as w hr).trans (fun _ => hrest) fun hn => absurd hr' hn, hend⟩

theorem foldl_ended {f : α → World → World} (as : List α) (hr : w.reaper ≠ .running) :
    as.foldl (fun w a => w.ifRunning (f a)) w = w := by
  induction as with
  | nil => rfl
  | cons a as ih => rw [List.foldl_cons, World.ifRunning, if_neg hr, ih]

/-- A loop whose body may end the thread. -/
theorem loop (env : Env) (pollInterval : ℕ) (at_ : List α → ReaperPc) {f : α → World → World}
    (hbody : ∀ a as w, w.reaper = .running →
      Runs env pollInterval (at_ (a :: as), w) (at_ as) (f a w)) (as : List α) (w : World) :
    Runs env pollInterval (at_ as, w) (at_ []) (as.foldl (fun w a => w.ifRunning (f a)) w) := by
  by_cases hr : w.reaper = .running
  · induction as generalizing w with
    | nil => exact refl _ _
    | cons a as ih =>
      rw [List.foldl_cons, World.ifRunning, if_pos hr]
      by_cases hr' : (f a w).reaper = .running
      · exact (hbody a as w hr).trans (fun _ => ih _ hr') fun hn => absurd hr' hn
      · exact (hbody a as w hr).trans (fun h => absurd h hr') fun _ => foldl_ended as hr'
  · exact ⟨at_ as, by rw [foldl_ended as hr], fun h => absurd (foldl_ended (f := f) as hr ▸ h) hr⟩

/-- The rest of a section that may have failed its entry. -/
theorem after {inLoop : Bool} {r : Option ProcessExitEvent × World} (hr : r.2.reaper = .running) :
    Runs env pollInterval (ReaperPc.after inLoop pc r.1, r.2) pc (World.finish env inLoop r) := by
  obtain ⟨_ | event, w'⟩ := r
  · exact refl pc w'
  · exact single hr rfl

theorem collect (env : Env) (pollInterval : ℕ) (c : Collecting) (hr : w.reaper = .running) :
    Runs env pollInterval (.collect c w.processes.keys [], w) (collected c (w.processes.keysWhere c.selects))
      (w.touch .shared w.processes.keys) := by
  have hfold : ∀ (ids found : List ProcessId) (w' : World), w'.processes = w.processes →
      w'.reaper = .running → Runs env pollInterval (.collect c ids found, w')
        (collected c (ids.foldl (fun found id => w.collectVisit c.selects id found) found))
        (w'.touch .shared ids) := by
    intro ids
    induction ids with
    | nil => exact fun found w' _ hr' => single hr' rfl
    | cons id ids ih =>
      intro found w' hw' hr'
      have hvisit : w'.collectVisit c.selects id found = w.collectVisit c.selects id found := by
        simp only [World.collectVisit, hw']
      refine head hr' (t := (.collect c ids (w.collectVisit c.selects id found),
        w'.touch .shared [id])) ?_ (ih _ _ hw' hr')
      rw [next, hvisit]
  rw [← World.foldl_collectVisit]
  exact hfold w.processes.keys [] w rfl hr

theorem search (env : Env) (pollInterval : ℕ) (now : Instant) (x : Exits)
    (origins : List CascadeOrigin) (hr : w.reaper = .running) :
    Runs env pollInterval (.search now x origins [], w) (.search now x [] (w.cascadeTargets origins))
      (origins.foldl (fun w _ => w.touch .shared w.processes.keys) w) := by
  have hfold : ∀ (origins : List CascadeOrigin) (targets : List ProcessId) (w' : World),
      w'.processes = w.processes → w'.reaper = .running →
      Runs env pollInterval (.search now x origins targets, w')
        (.search now x [] (targets ++ w.cascadeTargets origins))
        (origins.foldl (fun w _ => w.touch .shared w.processes.keys) w') := by
    intro origins
    induction origins with
    | nil =>
      intro targets w' _ hr'
      rw [World.cascadeTargets, List.flatMap_nil, List.append_nil]
      exact refl _ w'
    | cons o origins ih =>
      intro targets w' hw' hr'
      have hone : Runs env pollInterval (.search now x (o :: origins) targets, w')
          (.search now x origins (targets ++ w'.processes.keysWhere (World.cascadeSelects o)))
          (w'.touch .shared w'.processes.keys) :=
        head hr' rfl (collect env pollInterval (.targets now x o origins targets) hr')
      refine hone.trans (fun _ => ?_) fun hn => absurd hr' hn
      have hrest := ih (targets ++ w'.processes.keysWhere (World.cascadeSelects o))
        (w'.touch .shared w'.processes.keys) hw' hr'
      rw [List.append_assoc, hw'] at hrest
      rwa [List.foldl_cons, World.cascadeTargets, List.flatMap_cons, ← World.cascadeTargets, hw']
  exact hfold origins [] w rfl hr

/-- Phase 1 up to the events. -/
theorem detect (env : Env) (pollInterval : ℕ) (hr : w.reaper = .running) :
    Runs env pollInterval (.asleep, w)
      (.report (w.passDetect env pollInterval).1 (w.passDetect env pollInterval).2.1.exited [])
      (w.passDetect env pollInterval).2.2 := by
  set w₁ := (w.sleep env pollInterval).tick env with hw₁
  have hr₁ : w₁.reaper = .running := hr
  obtain ⟨hdetect, hr₂⟩ := fold env pollInterval (.detect w₁.clock)
    (f := fun x id => World.phase1Visit env w₁.clock id x) (fun _ _ _ _ h => single h rfl)
    (fun id x w' => World.reaper_phase1Visit env w₁.clock id (x, w')) w₁.processes.keys .empty w₁ hr₁
  set x := w₁.phase1 env w₁.clock with hx
  have hsearch := search env pollInterval w₁.clock x.1 x.1.cascadeOrigins hr₂
  set w₃ := x.1.cascadeOrigins.foldl (fun w _ => w.touch .shared w.processes.keys) x.2 with hw₃
  have hr₃ : w₃.reaper = .running :=
    Fold.foldl_invariant (I := fun w' : World => w'.reaper = .running) hr₂ fun _ _ _ h => h
  obtain ⟨hcascade, hr₄⟩ := each env pollInterval (.cascade w₁.clock x.1)
    (f := fun w id => w.cascadeKill env id) (fun _ _ _ h => single h rfl)
    (fun id w' => World.reaper_cascadeKill env id w') (x.2.cascadeTargets x.1.cascadeOrigins) hr₃
  set w₄ := x.2.phase1b env x.1.cascadeOrigins with hw₄
  obtain ⟨hremove, hr₅⟩ := each env pollInterval (.remove w₁.clock x.1.exited)
    (f := fun w id => w.removeEntry id) (fun _ _ _ h => single h rfl) (fun _ _ => rfl) x.1.toRemove hr₄
  set w₅ := x.1.toRemove.foldl (fun w id => w.removeEntry id) w₄ with hw₅
  have hreport := loop env pollInterval (.report w₁.clock x.1.exited)
    (f := fun (e : ExitedProcess) w => w.sendOrReturn env e.event) (fun _ _ _ h => single h rfl)
    x.1.exited w₅
  have hawake : Runs env pollInterval (.asleep, w) (.detect w₁.clock w₁.processes.keys .empty) w₁ :=
    single hr rfl
  have h₂ := hawake.trans (fun _ => hdetect) fun hn => absurd hr₁ hn
  have h₃ := h₂.trans (fun _ => head hr₂ rfl hsearch) fun hn => absurd hr₂ hn
  have h₄ := h₃.trans (fun _ => head hr₃ rfl hcascade) fun hn => absurd hr₃ hn
  have h₅ := h₄.trans (fun _ => head hr₄ rfl hremove) fun hn => absurd hr₄ hn
  exact h₅.trans (fun _ => head hr₅ rfl hreport) fun hn => absurd hr₅ hn

/-- Phase 4, once the exits are scheduled. -/
theorem phase4 (now : Instant) (hr : w.reaper = .running) :
    Runs env pollInterval (.schedule now [], w) (.restart []) (w.phase4 env now) := by
  have hcollect := head (s := (.schedule now [], w)) hr rfl
    (collect env pollInterval (.due now) hr)
  refine hcollect.trans (fun hr' => (each env pollInterval .restart ?_ ?_ _ hr').1) fun hn => absurd hr hn
  · intro id ids w' hr'
    rw [← World.finish_performRestartHeld]
    exact head hr' rfl (after ((World.reaper_performRestartHeld env id w').trans hr'))
  · exact fun id w' => World.reaper_performRestart env id w'

/-- What follows the guard of the Phase 5 loop body when dependencies are unresolved. -/
theorem resolve {id : ProcessId} {p : Process} (ids : List ProcessId) (v : Verdicts)
    (hp : w.processes.lookup id = some p) (hr : w.reaper = .running) :
    Runs env pollInterval (.resolve id p (depsToResolve w.processes p) ids v,
        (w.touch .shared (boundVisits w.processes p)).unlock .shared id)
      (.examine ids (w.resolveMore id p v).1) (w.resolveMore id p v).2 := by
  set w₁ := (w.touch .shared (boundVisits w.processes p)).unlock .shared id with hw₁
  set w₂ := w₁.touch .shared (searchVisits w.processes (depsToResolve w.processes p)) with hw₂
  by_cases hnew : newlyResolved w.processes (depsToResolve w.processes p) = []
  · have hsearch : w₁.searchDeps id p (depsToResolve w.processes p) v =
        ((w₂.failIfTerminal id p.resolvedDeps v).1, [], (w₂.failIfTerminal id p.resolvedDeps v).2) := by
      simp only [World.searchDeps, hw₁, World.unlock_processes, World.touch_processes, hnew, ↓reduceIte]
      rfl
    have hmore : w.resolveMore id p v = w₂.failIfTerminal id p.resolvedDeps v := by
      simp only [World.resolveMore, World.unlock_processes, World.touch_processes, hnew, ↓reduceIte]
      rfl
    rw [hmore]
    refine single hr ?_
    simp only [next, hsearch, ↓reduceIte]
  · set new := newlyResolved w.processes (depsToResolve w.processes p) with hnew'
    have hsearch : w₁.searchDeps id p (depsToResolve w.processes p) v = (v, new, w₂) := by
      simp only [World.searchDeps, hw₁, World.unlock_processes, World.touch_processes, ← hnew', hnew,
        ↓reduceIte]
      rfl
    have hmore : w.resolveMore id p v = (w₂.extendEntry id new).recheck id v := by
      rw [World.recheck_extendEntry (w := w₂) hp]
      simp only [World.resolveMore, World.unlock_processes, World.touch_processes, ← hnew', hnew,
        ↓reduceIte]
      rfl
    have hextend : (w₂.extendEntry id new).reaper = .running := by
      have hp₂ : w₂.processes.lookup id = some p := hp
      simp only [World.extendEntry, World.lock_processes, hp₂]
      exact hr
    rw [hmore]
    refine head (t := (.extend id new ids v, w₂)) hr ?_ (head hr rfl (single hextend rfl))
    simp only [next, hsearch, hnew, ↓reduceIte]

/-- The body of the Phase 5 loop. -/
theorem examine (id : ProcessId) (ids : List ProcessId) (v : Verdicts) (hr : w.reaper = .running) :
    Runs env pollInterval (.examine (id :: ids) v, w) (.examine ids (World.examine env id (v, w)).1)
      (World.examine env id (v, w)).2 := by
  cases hp : w.processes.lookup id with
  | none =>
    refine single hr ?_
    simp only [next, World.examineHeld, World.examine, World.lock_processes, hp]
  | some p =>
    set w₁ := (w.lock .shared id).readElapsed env p with hw₁
    have hr₁ : w₁.reaper = .running :=
      (World.osStep_readElapsed (P := fun _ => True) (S := ∅) p).reaper.trans hr
    have hp₁ : w₁.processes.lookup id = some p := by
      rw [hw₁, World.readElapsed_processes]
      exact hp
    by_cases htimeout : (w.lock .shared id).timedOut env p = true
    · refine single hr ?_
      simp only [next, World.examineHeld, World.examine, World.lock_processes, hp, htimeout, ↓reduceIte]
    · by_cases hlength : p.resolvedDeps.length ≠ p.config.dependsOn.length
      · have hexamine : World.examine env id (v, w) = w₁.resolveMore id p v := by
          simp only [World.examine, World.lock_processes, hp, htimeout, Bool.false_eq_true, ↓reduceIte,
            ne_eq, hlength, ← hw₁, not_false_eq_true]
        rw [hexamine]
        refine head (t := (.resolve id p (depsToResolve w₁.processes p) ids v,
          (w₁.touch .shared (boundVisits w₁.processes p)).unlock .shared id)) hr ?_
          (resolve ids v hp₁ hr₁)
        simp only [next, World.examineHeld, World.lock_processes, hp, htimeout, Bool.false_eq_true,
          ↓reduceIte, ne_eq, hlength, ← hw₁, not_false_eq_true]
      · refine single hr ?_
        simp only [next, World.examineHeld, World.examine, World.lock_processes, hp, htimeout,
          Bool.false_eq_true, ↓reduceIte, hlength]

/-- Phase 5. -/
theorem phase5 (hr : w.reaper = .running) :
    Runs env pollInterval (.restart [], w) (.fail []) (w.phase5 env) := by
  have hcollect := head (s := (.restart [], w)) hr rfl
    (collect env pollInterval .waiting hr)
  obtain ⟨hexamine, hr₁⟩ := fold env pollInterval .examine
    (f := fun x id => World.examine env id x) (fun id ids v w' h => examine id ids v h)
    (fun id v w' => World.reaper_examine env id (v, w'))
    w.waitingIds ⟨[], []⟩ (w.touch .shared w.processes.keys) hr
  have h₁ := hcollect.trans (fun _ => hexamine) fun hn => absurd hr hn
  set r := w.verdicts env with hverdicts
  obtain ⟨hspawn, hr₂⟩ := each env pollInterval
    (fun ids => .spawn ids r.1.toFail) (f := fun w id => w.spawnWaitingProcess env id)
    (fun id ids w' hr' => by
      rw [← World.finish_spawnWaitingHeld]
      exact head hr' rfl (after ((World.reaper_spawnWaitingHeld env id w').trans hr')))
    (fun id w' => World.reaper_spawnWaitingProcess env id w') r.1.toSpawn hr₁
  have h₂ := h₁.trans (fun _ => head hr₁ rfl hspawn) fun hn => absurd hr₁ hn
  have hfail := loop env pollInterval .fail
    (f := fun id w => w.failWaiting env id)
    (fun id ids w' hr' => by
      rw [← World.finish_failWaitingHeld]
      exact head hr' rfl (after ((World.reaper_failWaitingHeld id w').trans hr')))
    r.1.toFail (r.1.toSpawn.foldl (fun w id => w.spawnWaitingProcess env id) r.2)
  exact h₂.trans (fun _ => head hr₂ rfl hfail) fun hn => absurd hr₂ hn

/-- Phase 6. -/
theorem phase6 (hr : w.reaper = .running) :
    Runs env pollInterval (.fail [], w) (.failFast []) (w.phase6 env) := by
  have hcollect := head (s := (.fail [], w)) hr rfl
    (collect env pollInterval .running hr)
  refine hcollect.trans (fun _ => loop env pollInterval .failFast (f := fun id w => w.failFast env id) ?_ _ _)
    fun hn => absurd hr hn
  intro id ids w' hr'
  have hcheck : (w'.failFastCheck id).2.reaper = .running := (World.reaper_failFastCheck id w').trans hr'
  have hnext : next env pollInterval (.failFast (id :: ids)) w' =
      (match (w'.failFastCheck id).1 with
        | some p => .failRunning id p ids
        | none => .failFast ids, (w'.failFastCheck id).2) := by
    simp only [next]
    split <;> rfl
  refine head hr' hnext ?_
  simp only [World.failFast, World.failFastCheck, World.lock_processes] at hcheck ⊢
  cases hp : w'.processes.lookup id with
  | none => exact refl _ _
  | some p =>
    simp only [hp] at hcheck ⊢
    split_ifs
    · have hmark := (World.reaper_failRunningHeld env id p _).trans hcheck
      exact head hcheck rfl (single hmark rfl)
    · exact refl _ _

end Runs

/-- Sections that nothing interrupts make up a pass. -/
theorem runs_reaperPass (env : Env) (pollInterval : ℕ) (hr : w.reaper = .running) :
    Runs env pollInterval (.asleep, w) .asleep (w.reaperPass env pollInterval) := by
  have hdetect := Runs.detect env pollInterval hr
  set r := w.passDetect env pollInterval
  have hschedule : Runs env pollInterval (.asleep, w) (.schedule r.1 [])
      (r.2.2.ifRunning fun w => World.phase3 env r.1 r.2.1.exited w) :=
    hdetect.ifRunning fun hr' => .head hr' rfl
      (.loop env pollInterval (.schedule r.1) (f := World.scheduleEntry env r.1) (fun _ _ _ h => .single h rfl) _ _)
  have hrestart := hschedule.ifRunning (f := World.phase4 env r.1) fun hr' => .phase4 r.1 hr'
  have hwaiting := hrestart.ifRunning (f := World.phase5 env) fun hr' => .phase5 hr'
  have hrunning : Runs env pollInterval (.asleep, w) (.failFast []) (w.reaperPass env pollInterval) :=
    hwaiting.ifRunning (f := World.phase6 env) fun hr' => .phase6 hr'
  obtain ⟨pc, hsteps, hpc⟩ := hrunning
  by_cases hr' : (w.reaperPass env pollInterval).reaper = .running
  · obtain rfl := hpc hr'
    have hlast : step env pollInterval (.failFast [], w.reaperPass env pollInterval) =
        (.asleep, w.reaperPass env pollInterval) := by
      simp only [step, if_pos hr', next]
    exact ⟨.asleep, hsteps.tail hlast, fun _ => rfl⟩
  · exact ⟨pc, hsteps, fun h => absurd h hr'⟩

end ReaperPc

end ProcessManager
