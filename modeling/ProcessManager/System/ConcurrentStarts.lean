import ProcessManager.Library.Threads
import ProcessManager.System.StartOrder

/-! Concurrent calls of `start`. Between the cycle check and the insertion of one call,
others insert their entries; the check of one call does not see them. -/

namespace ProcessManager

open Relation

/-- How far a call of `start` is. The atomic steps are its accesses to the map: the snapshot
of the cycle check, the resolution, each poll of a dependency, the insertion of the entry
and `mark_started`. -/
inductive StartPc where
  | called
  | allocated (id : ProcessId)
  | checked (id : ProcessId)
  | polling (id : ProcessId) (resolved deps : List ProcessId)
  | ready (id : ProcessId) (resolved : List ProcessId)
  | notReady (id : ProcessId) (resolved : List ProcessId)
  | inserted (id : ProcessId)
  | returned (result : Except ManagerError ProcessId)

/-- The id of a call that has not inserted its entry yet. -/
def StartPc.pending : StartPc → Option ProcessId
  | .allocated id | .checked id | .polling id _ _ | .ready id _ | .notReady id _ => some id
  | _ => none

/-- The id of the entry that a call has inserted. -/
def StartPc.tracked : StartPc → Option ProcessId
  | .inserted id | .returned (.ok id) => some id
  | _ => none

structure StartThread where
  label : Label
  config : ProcessConfig
  pc : StartPc

namespace StartThread

variable {env : Env} {t u : StartThread} {w w' : World} {id : ProcessId} {label : Label}
  {config : ProcessConfig} {resolved : List ProcessId}

/-- A call with its arguments. -/
def call (c : Label × ProcessConfig) : StartThread := ⟨c.1, c.2, .called⟩

def goto (t : StartThread) (pc : StartPc) : StartThread := { t with pc := pc }

/-- The next atomic step of a call. -/
def next (env : Env) (t : StartThread) (w : World) : StartThread × World :=
  match t.pc with
  | .called =>
    if t.config.validate = false then (t.goto (.returned (.error .configError)), w)
    else (t.goto (.allocated ⟨w.nextId⟩), { w with nextId := w.nextId + 1 })
  | .allocated id =>
    match w.startCycle t.label t.config with
    | some cycle => (t.goto (.returned (.error (.dependencyCycle cycle))), w)
    | none => (t.goto (.checked id), w)
  | .checked id =>
    let resolved := resolvedOrDefault w.processes t.config.dependsOn
    if resolved.length = t.config.dependsOn.length then (t.goto (.polling id resolved resolved), w)
    else (t.goto (.notReady id resolved), w)
  | .polling id resolved [] => (t.goto (.ready id resolved), w)
  | .polling id resolved (dep :: deps) =>
    let r := w.allDepsRunning env [dep]
    if r.1 then (t.goto (.polling id resolved deps), r.2) else (t.goto (.notReady id resolved), r.2)
  | .ready id resolved =>
    let w' := w.spawnProcess env .start id t.config resolved
    match w.spawnError env t.config with
    | some e => (t.goto (.returned (.error (e.toManagerError t.config.command))), w')
    | none => (t.goto (.inserted id), w'.bumpSequence.insert env id
        (w.spawnedProcess env id t.label t.config resolved))
  | .notReady id resolved =>
    (t.goto (.returned (.ok id)), w.startWaiting env id t.label t.config resolved)
  | .inserted id => (t.goto (.returned (.ok id)), w.markStartedEntry env id)
  | .returned _ => (t, w)

theorem next_of_cycle {cycle : List DependencyRef}
    (h : w.startCycle label config = some cycle) : next env ⟨label, config, .allocated id⟩ w =
      (⟨label, config, .returned (.error (.dependencyCycle cycle))⟩, w) := by
  simp only [next, goto, h]

theorem next_of_no_cycle (h : w.startCycle label config = none) :
    next env ⟨label, config, .allocated id⟩ w = (⟨label, config, .checked id⟩, w) := by
  simp only [next, goto, h]

theorem next_of_spawnError {e : SpawnError} (h : w.spawnError env config = some e) :
    next env ⟨label, config, .ready id resolved⟩ w =
      (⟨label, config, .returned (.error (e.toManagerError config.command))⟩,
        w.spawnProcess env .start id config resolved) := by
  simp only [next, goto, h]

theorem next_of_spawn (h : w.spawnError env config = none) :
    next env ⟨label, config, .ready id resolved⟩ w =
      (⟨label, config, .inserted id⟩,
        (w.spawnProcess env .start id config resolved).bumpSequence.insert env id
          (w.spawnedProcess env id label config resolved)) := by
  simp only [next, goto, h]

/-! ### A call that runs alone -/

/-- A call takes a number of steps that no other call interrupts. -/
def Leads (env : Env) (t : StartThread) (w : World) (t' : StartThread) (w' : World) : Prop :=
  ∃ n, (fun s : StartThread × World => next env s.1 s.2)^[n] (t, w) = (t', w')

theorem Leads.refl (t : StartThread) (w : World) : Leads env t w t w := ⟨0, rfl⟩

theorem Leads.trans {t' t'' : StartThread} {w'' : World} (h : Leads env t w t' w')
    (h' : Leads env t' w' t'' w'') : Leads env t w t'' w'' := by
  obtain ⟨n, hn⟩ := h
  obtain ⟨m, hm⟩ := h'
  exact ⟨m + n, by rw [Function.iterate_add_apply, hn, hm]⟩

theorem Leads.step {t' t'' : StartThread} {w'' : World} (hnext : next env t w = (t', w'))
    (h : Leads env t' w' t'' w'') : Leads env t w t'' w'' := by
  obtain ⟨n, hn⟩ := h
  exact ⟨n + 1, by rw [Function.iterate_succ_apply, hnext, hn]⟩

theorem allDepsRunning_cons (dep : ProcessId) (deps : List ProcessId) (w : World) :
    w.allDepsRunning env (dep :: deps) =
      if (w.allDepsRunning env [dep]).1 then (w.allDepsRunning env [dep]).2.allDepsRunning env deps
      else (false, (w.allDepsRunning env [dep]).2) := by
  simp only [World.allDepsRunning, World.lock_processes]
  cases w.processes.lookup dep with
  | none => rfl
  | some p =>
    simp only
    split_ifs <;> simp_all

/-- The polls of the resolved dependencies end as `all_deps_running` does. -/
theorem leads_polling (resolved deps : List ProcessId) (t : StartThread) (w : World) :
    Leads env (t.goto (.polling id resolved deps)) w
      (t.goto (if (w.allDepsRunning env deps).1 then .ready id resolved else .notReady id resolved))
      (w.allDepsRunning env deps).2 := by
  induction deps generalizing w with
  | nil => exact .step rfl (.refl _ _)
  | cons dep deps ih =>
    rw [allDepsRunning_cons]
    by_cases hrun : (w.allDepsRunning env [dep]).1 = true
    · rw [if_pos hrun]
      exact .step (if_pos hrun) (ih _)
    · rw [if_neg hrun]
      exact .step (if_neg hrun) (.refl _ _)

/-- A call that no other call interrupts is `start`. -/
theorem leads_start (label : Label) (config : ProcessConfig) (w : World) :
    Leads env (call (label, config)) w
      ⟨label, config, .returned (w.start env label config).1⟩ (w.start env label config).2 := by
  by_cases hvalid : config.validate = false
  · refine .step (if_pos hvalid) ?_
    rw [World.start, if_pos hvalid]
    exact .refl _ _
  · set w₁ : World := { w with nextId := w.nextId + 1 } with hw₁
    refine .step (if_neg hvalid) ?_
    rw [World.start, if_neg hvalid]
    simp only [← hw₁]
    cases hcycle : w₁.startCycle label config with
    | some cycle => exact .step (next_of_cycle hcycle) (.refl _ _)
    | none =>
      refine .step (next_of_no_cycle hcycle) ?_
      set resolved := resolvedOrDefault w₁.processes config.dependsOn with hresolved
      by_cases hlength : resolved.length = config.dependsOn.length
      · refine .step (if_pos hlength) ((leads_polling resolved resolved _ w₁).trans ?_)
        simp only [goto, hlength, if_true]
        by_cases hrunning : (w₁.allDepsRunning env resolved).1 = true
        · simp only [hrunning, if_true, World.startNow]
          cases herror : (w₁.allDepsRunning env resolved).2.spawnError env config with
          | some e => exact .step (next_of_spawnError herror) (.refl _ _)
          | none => exact .step (next_of_spawn herror) (.step rfl (.refl _ _))
        · simp only [hrunning]
          exact .step rfl (.refl _ _)
      · refine .step (if_neg hlength) ?_
        rw [if_neg hlength]
        exact .step rfl (.refl _ _)

/-! ### What an atomic step changes -/

/-- The entry that the next step inserts. -/
def Inserts (env : Env) (t : StartThread) (w : World) (id : ProcessId) : Prop :=
  (∃ resolved, t.pc = .ready id resolved ∧ w.spawnError env t.config = none) ∨
    ∃ resolved, t.pc = .notReady id resolved

/-- The effects of a step on the ids and the nodes: none, a new id, or a new entry. -/
inductive Effect (env : Env) (t : StartThread) (w : World) : Prop
  | quiet (nodes : (next env t w).2.nodes = w.nodes) (nextId : (next env t w).2.nextId = w.nextId)
      (pending : ∀ id, (next env t w).1.pc.pending = some id → t.pc.pending = some id)
      (tracked : (next env t w).1.pc.tracked = t.pc.tracked) (inserts : ∀ id, ¬ t.Inserts env w id)
  | allocates (nodes : (next env t w).2.nodes = w.nodes)
      (nextId : (next env t w).2.nextId = w.nextId + 1)
      (pending : (next env t w).1.pc.pending = some ⟨w.nextId⟩)
      (tracked : (next env t w).1.pc.tracked = none) (before : t.pc = .called)
  | inserts (id : ProcessId) (inserts : t.Inserts env w id)
      (nodes : (next env t w).2.nodes = w.nodesWith id t.label t.config)
      (nextId : (next env t w).2.nextId = w.nextId) (before : t.pc.pending = some id)
      (pending : (next env t w).1.pc.pending = none)
      (tracked : (next env t w).1.pc.tracked = some id)

theorem next_arguments (env : Env) (t : StartThread) (w : World) :
    (next env t w).1.label = t.label ∧ (next env t w).1.config = t.config := by
  unfold next
  split <;> first
    | exact ⟨rfl, rfl⟩
    | (split <;> exact ⟨rfl, rfl⟩)
    | (simp only; split <;> exact ⟨rfl, rfl⟩)

open World in
/-- Every step has one of the effects. -/
theorem effect (env : Env) (t : StartThread) (w : World) : Effect env t w := by
  obtain ⟨label, config, pc⟩ := t
  cases pc with
  | called =>
    by_cases hvalid : config.validate = false
    · have hnext : next env ⟨label, config, .called⟩ w = _ := if_pos hvalid
      exact .quiet (hnext ▸ rfl) (hnext ▸ rfl) (hnext ▸ nofun) (hnext ▸ rfl) nofun
    · have hnext : next env ⟨label, config, .called⟩ w = _ := if_neg hvalid
      exact .allocates (hnext ▸ rfl) (hnext ▸ rfl) (hnext ▸ rfl) (hnext ▸ rfl) rfl
  | allocated id =>
    cases hcycle : w.startCycle label config with
    | some cycle =>
      have hnext : next env ⟨label, config, .allocated id⟩ w = _ := next_of_cycle hcycle
      exact .quiet (hnext ▸ rfl) (hnext ▸ rfl) (hnext ▸ nofun) (hnext ▸ rfl) nofun
    | none =>
      have hnext : next env ⟨label, config, .allocated id⟩ w = _ := next_of_no_cycle hcycle
      exact .quiet (hnext ▸ rfl) (hnext ▸ rfl) (hnext ▸ fun _ h => h) (hnext ▸ rfl) nofun
  | checked id =>
    by_cases hlength : (resolvedOrDefault w.processes config.dependsOn).length = config.dependsOn.length
    · have hnext : next env ⟨label, config, .checked id⟩ w = _ := if_pos hlength
      exact .quiet (hnext ▸ rfl) (hnext ▸ rfl) (hnext ▸ fun _ h => h) (hnext ▸ rfl) nofun
    · have hnext : next env ⟨label, config, .checked id⟩ w = _ := if_neg hlength
      exact .quiet (hnext ▸ rfl) (hnext ▸ rfl) (hnext ▸ fun _ h => h) (hnext ▸ rfl) nofun
  | polling id resolved deps =>
    cases deps with
    | nil => exact .quiet rfl rfl (fun _ h => h) rfl nofun
    | cons dep deps =>
      have hnodes := nodes_allDepsRunning env [dep] w
      have hnextId := (mapStep_allDepsRunning env (P := fun _ => True) [dep] w).nextId
      by_cases hrunning : (w.allDepsRunning env [dep]).1 = true
      · have hnext : next env ⟨label, config, .polling id resolved (dep :: deps)⟩ w = _ :=
          if_pos hrunning
        exact .quiet (hnext ▸ hnodes) (hnext ▸ hnextId) (hnext ▸ fun _ h => h) (hnext ▸ rfl) nofun
      · have hnext : next env ⟨label, config, .polling id resolved (dep :: deps)⟩ w = _ :=
          if_neg hrunning
        exact .quiet (hnext ▸ hnodes) (hnext ▸ hnextId) (hnext ▸ fun _ h => h) (hnext ▸ rfl) nofun
  | ready id resolved =>
    cases herror : w.spawnError env config with
    | some e =>
      have hnext : next env ⟨label, config, .ready id resolved⟩ w = _ := next_of_spawnError herror
      have hstep : OsStep ∅ (fun _ => True) w (w.spawnProcess env .start id config resolved) :=
        osStep_spawnProcess herror
      exact .quiet (hnext ▸ nodes_of_processes hstep.processes) (hnext ▸ hstep.nextId)
        (hnext ▸ nofun) (hnext ▸ rfl) (by rintro i (⟨_, _, h⟩ | ⟨_, h⟩) <;> simp_all)
    | none =>
      have hnext : next env ⟨label, config, .ready id resolved⟩ w = _ := next_of_spawn herror
      have hspawn : Spawned env .start id config resolved w _ := .of_ok .start id resolved herror
      refine .inserts id (.inl ⟨resolved, rfl, herror⟩) ?_ ?_ rfl (hnext ▸ rfl) (hnext ▸ rfl)
      · rw [hnext, nodes_insert]
        exact congrArg (Function.update · id _) (nodes_of_processes hspawn.processes)
      · rw [hnext]
        exact hspawn.nextId
  | notReady id resolved =>
    exact .inserts id (.inr ⟨resolved, rfl⟩) (nodes_startWaiting id resolved w) rfl rfl rfl rfl
  | inserted id =>
    exact .quiet (nodes_markStartedEntry id w)
      (mapStep_markStartedEntry (P := fun _ => True) id w).nextId nofun rfl nofun
  | returned result => exact .quiet rfl rfl (fun _ h => h) rfl nofun

/-! ### All interleavings -/

/-- The state of the map between two steps. -/
structure Tidy (w : World) : Prop where
  fresh : ∀ id, w.nextId ≤ id.raw → w.nodes id = none
  distinct : Distinct w.nodes

/-- The part of a call: its label is its own, and it inserts its entry once. -/
structure Part (t : StartThread) (w : World) : Prop where
  unused : t.pc.tracked = none → Unused w.nodes t.label
  pending : ∀ id, t.pc.pending = some id → id.raw < w.nextId ∧ w.nodes id = none
  tracked : ∀ id, t.pc.tracked = some id → w.nodes id = some (t.label, t.config.dependsOn)

/-- Two calls have different labels and ids. -/
structure Apart (t u : StartThread) : Prop where
  label : t.label ≠ u.label
  pending : ∀ id, t.pc.pending = some id → u.pc.pending ≠ some id

theorem Apart.symm (h : Apart t u) : Apart u t :=
  ⟨h.label.symm, fun id hu ht => h.pending id ht hu⟩

/-- A call never has an id twice. -/
theorem tracked_of_pending (pc : StartPc) (h : pc.pending = some id) : pc.tracked = none := by
  cases pc <;> first | rfl | cases h

/-- The step of a call keeps its own part. -/
theorem Tidy.next (hw : Tidy w) (ht : Part t w) :
    Tidy (next env t w).2 ∧ Part (next env t w).1 (next env t w).2 := by
  obtain ⟨hlabel, hconfig⟩ := next_arguments env t w
  cases effect env t w with
  | quiet hnodes hnextId hpending htracked _ =>
    refine ⟨⟨?_, ?_⟩, ?_, ?_, ?_⟩
    · rw [hnodes, hnextId]
      exact hw.fresh
    · rw [hnodes]
      exact hw.distinct
    · rw [htracked, hnodes, hlabel]
      exact ht.unused
    · rw [hnodes, hnextId]
      exact fun id h => ht.pending id (hpending id h)
    · rw [htracked, hnodes, hlabel, hconfig]
      exact ht.tracked
  | allocates hnodes hnextId hpending htracked hbefore =>
    refine ⟨⟨?_, ?_⟩, ?_, ?_, ?_⟩
    · rw [hnodes, hnextId]
      exact fun id h => hw.fresh id (by omega)
    · rw [hnodes]
      exact hw.distinct
    · rw [hnodes, hlabel]
      exact fun _ => ht.unused (hbefore ▸ rfl)
    · rw [hnodes, hnextId, hpending]
      intro id hid
      obtain rfl := Option.some.inj hid
      exact ⟨Nat.lt_succ_self _, hw.fresh _ le_rfl⟩
    · rw [htracked]
      rintro id ⟨⟩
  | inserts id _ hnodes hnextId hbefore hpending htracked =>
    obtain ⟨hbelow, hfree⟩ := ht.pending id hbefore
    have hunused := ht.unused (tracked_of_pending _ hbefore)
    refine ⟨⟨?_, ?_⟩, ?_, ?_, ?_⟩
    · rw [hnodes, hnextId]
      intro i hi
      rw [World.nodesWith, Function.update_of_ne (by rintro rfl; omega)]
      exact hw.fresh i hi
    · rw [hnodes]
      exact hw.distinct.update hunused
    · rw [htracked]
      rintro ⟨⟩
    · rw [hpending]
      rintro i ⟨⟩
    · rw [htracked, hnodes, hlabel, hconfig]
      intro i hi
      obtain rfl := Option.some.inj hi
      exact Function.update_self ..

/-- The step of a call keeps the part of another. -/
theorem Part.next_other (ht : Part t w) (hu : Part u w) (h : Apart t u) : Part u (next env t w).2 := by
  cases effect env t w with
  | quiet hnodes hnextId _ _ _ =>
    exact ⟨hnodes ▸ hu.unused, hnextId ▸ hnodes ▸ hu.pending, hnodes ▸ hu.tracked⟩
  | allocates hnodes hnextId _ _ _ =>
    refine ⟨hnodes ▸ hu.unused, fun id hid => ?_, hnodes ▸ hu.tracked⟩
    rw [hnodes, hnextId]
    exact ⟨Nat.lt_succ_of_lt (hu.pending id hid).1, (hu.pending id hid).2⟩
  | inserts id _ hnodes hnextId hbefore _ _ =>
    have hfree := (ht.pending id hbefore).2
    refine ⟨fun h' => ?_, fun i hi => ?_, fun i hi => ?_⟩
    · rw [hnodes]
      exact (hu.unused h').update h.label.symm
    · have hne : i ≠ id := by
        rintro rfl
        exact h.pending i hbefore hi
      rw [hnodes, hnextId, World.nodesWith, Function.update_of_ne hne]
      exact hu.pending i hi
    · have hne : i ≠ id := by
        rintro rfl
        exact Option.some_ne_none _ ((hu.tracked i hi).symm.trans hfree)
      rw [hnodes, World.nodesWith, Function.update_of_ne hne]
      exact hu.tracked i hi

theorem Apart.next (h : Apart t u) (hu : Part u w) : Apart (next env t w).1 u := by
  refine ⟨(next_arguments env t w).1 ▸ h.label, fun id hid => ?_⟩
  cases effect env t w with
  | quiet _ _ hpending _ _ => exact h.pending id (hpending id hid)
  | allocates _ _ hpending _ _ =>
    rw [hpending, Option.some.injEq] at hid
    subst hid
    exact fun h' => lt_irrefl _ (hu.pending _ h').1
  | inserts _ _ _ _ _ hpending _ =>
    rw [hpending] at hid
    cases hid

/-- A label cycle stays. -/
theorem acyclic_of_next (ht : Part t w) (h : Acyclic (LabelEdge (next env t w).2.nodes)) :
    Acyclic (LabelEdge w.nodes) := by
  cases effect env t w with
  | quiet hnodes _ _ _ _ => rwa [hnodes] at h
  | allocates hnodes _ _ _ _ => rwa [hnodes] at h
  | inserts id _ hnodes _ hbefore _ _ =>
    rw [hnodes] at h
    exact h.mono fun a b hab => (labelEdge_update_iff (ht.pending id hbefore).2).mpr (.inl hab)

/-- If the step inserts the entry, the cycle check would still pass. -/
def CheckHolds (env : Env) (t : StartThread) (w : World) : Prop :=
  (∃ id, t.Inserts env w id) → w.startCycle t.label t.config = none

/-- Whether the next step inserts the entry. -/
def inserting (env : Env) (t : StartThread) (w : World) : Bool :=
  match t.pc with
  | .ready _ _ => (w.spawnError env t.config).isNone
  | .notReady _ _ => true
  | _ => false

theorem inserting_iff : inserting env t w = true ↔ ∃ id, t.Inserts env w id := by
  unfold inserting Inserts
  split <;> simp_all

instance (t : StartThread) (w : World) : Decidable (CheckHolds env t w) :=
  decidable_of_iff (inserting env t w = true → w.startCycle t.label t.config = none) (by
    rw [inserting_iff, CheckHolds])

/-- The step closes no label cycle if and only if the check would still pass. -/
theorem acyclic_next_iff (hw : Tidy w) (ht : Part t w) (h : Acyclic (LabelEdge w.nodes)) :
    Acyclic (LabelEdge (next env t w).2.nodes) ↔ CheckHolds env t w := by
  cases effect env t w with
  | quiet hnodes _ _ _ hinserts => exact iff_of_true (hnodes ▸ h) fun ⟨id, hid⟩ => absurd hid (hinserts id)
  | allocates hnodes _ _ _ hbefore =>
    refine iff_of_true (hnodes ▸ h) fun ⟨id, hid⟩ => ?_
    rcases hid with ⟨_, hpc, _⟩ | ⟨_, hpc⟩ <;> rw [hbefore] at hpc <;> cases hpc
  | inserts id hinserts hnodes _ hbefore _ _ =>
    rw [hnodes]
    rw [← World.startCycle_eq_none_iff hw.distinct (ht.unused (tracked_of_pending _ hbefore))
      (ht.pending id hbefore).2 h]
    exact ⟨fun hcheck _ => hcheck, fun hcheck => hcheck ⟨id, hinserts⟩⟩

end StartThread

namespace System

open StartThread

variable {env : Env} {w : World} {calls : List (Label × ProcessConfig)}

/-- Calls with distinct new labels, before their first step. -/
structure StartsTogether (calls : List (Label × ProcessConfig)) (w : World) : Prop where
  nodup : (calls.map Prod.fst).Nodup
  unused : ∀ c ∈ calls, Unused w.nodes c.1
  tidy : Tidy w
  acyclic : Acyclic (LabelEdge w.nodes)

/-- The calls and the world they share. -/
abbrev Starts := Threads StartThread World

def starts (calls : List (Label × ProcessConfig)) (w : World) : Starts := ⟨calls.map call, w⟩

/-- Of two calls that name each other at most one has returned `Ok`. -/
def OneOfTwo (s : Starts) : Prop :=
  ∀ (i j : ℕ) (t u : StartThread), i ≠ j → s.threads[i]? = some t → s.threads[j]? = some u →
    .label u.label ∈ t.config.dependsOn → .label t.label ∈ u.config.dependsOn →
    ∀ id id', t.pc = .returned (.ok id) → u.pc ≠ .returned (.ok id')

theorem StartsTogether.inv (h : StartsTogether calls w) : Threads.Inv Tidy Part Apart (starts calls w) := by
  refine ⟨h.tidy, ?_, ?_⟩
  · intro t ht
    obtain ⟨c, hc, rfl⟩ := List.mem_map.mp ht
    exact ⟨fun _ => h.unused c hc, nofun, nofun⟩
  · intro i j t u hij ht hu
    simp only [starts, List.getElem?_map, Option.map_eq_some_iff] at ht hu
    obtain ⟨c, hc, rfl⟩ := ht
    obtain ⟨d, hd, rfl⟩ := hu
    refine ⟨fun hlabel => hij ?_, nofun⟩
    have hci : (calls.map Prod.fst)[i]? = some c.1 := by rw [List.getElem?_map, hc, Option.map_some]
    have hdj : (calls.map Prod.fst)[j]? = some c.1 := by
      rw [List.getElem?_map, hd, Option.map_some]
      exact congrArg some hlabel.symm
    exact (List.getElem?_inj (List.getElem?_eq_some_iff.mp hci).1 h.nodup).mp (hci.trans hdj.symm)

theorem inv_step {s : Starts} (h : Threads.Inv Tidy Part Apart s) (k : ℕ) :
    Threads.Inv Tidy Part Apart (Threads.step (next env) s k) :=
  h.step (c := fun _ _ => True) (fun _ _ => Apart.symm) (fun _ _ hw ht _ => hw.next ht)
    (fun _ _ _ h _ ht hu _ => ht.next_other hu h) (fun _ _ _ h _ _ hu _ => h.next hu) fun _ _ => trivial

/-- A label cycle stays until the end. -/
theorem acyclic_of_run (schedule : List ℕ) {s : Starts} (h : Threads.Inv Tidy Part Apart s)
    (hend : Acyclic (LabelEdge (Threads.run (next env) schedule s).shared.nodes)) :
    Acyclic (LabelEdge s.shared.nodes) := by
  induction schedule generalizing s with
  | nil => exact hend
  | cons k schedule ih =>
    have hnext := ih (inv_step h k) hend
    cases hk : s.threads[k]? with
    | none => rwa [Threads.step_of_none hk] at hnext
    | some t =>
      rw [Threads.step_of_some hk] at hnext
      exact acyclic_of_next (h.thread t (List.mem_of_getElem? hk)) hnext

theorem acyclic_step_iff {s : Starts} (h : Threads.Inv Tidy Part Apart s)
    (hacyclic : Acyclic (LabelEdge s.shared.nodes)) (k : ℕ) :
    Acyclic (LabelEdge (Threads.step (next env) s k).shared.nodes) ↔
      Threads.AtStep (CheckHolds env) s k := by
  cases hk : s.threads[k]? with
  | none =>
    rw [Threads.step_of_none hk]
    exact iff_of_true hacyclic fun t ht => by rw [hk] at ht; cases ht
  | some t =>
    rw [Threads.step_of_some hk, acyclic_next_iff h.shared (h.thread t (List.mem_of_getElem? hk)) hacyclic]
    refine ⟨fun hcheck u hu => ?_, fun hcheck => hcheck t hk⟩
    rw [hk, Option.some.injEq] at hu
    exact hu ▸ hcheck

theorem acyclic_run_iff (schedule : List ℕ) {s : Starts} (h : Threads.Inv Tidy Part Apart s)
    (hacyclic : Acyclic (LabelEdge s.shared.nodes)) :
    Acyclic (LabelEdge (Threads.run (next env) schedule s).shared.nodes) ↔
      Fold.Meets (Threads.AtStep (CheckHolds env)) (Threads.step (next env)) schedule s := by
  induction schedule generalizing s with
  | nil => exact iff_of_true hacyclic trivial
  | cons k schedule ih =>
    have hstep : Acyclic (LabelEdge (Threads.step (next env) s k).shared.nodes) ↔ _ :=
      acyclic_step_iff h hacyclic k
    constructor
    · intro hend
      have hnext := acyclic_of_run schedule (inv_step h k) hend
      exact ⟨hstep.mp hnext, (ih (inv_step h k) hnext).mp hend⟩
    · rintro ⟨hcheck, hrest⟩
      exact (ih (inv_step h k) (hstep.mpr hcheck)).mpr hrest

/-- The entries of two calls that name each other make a cycle. -/
theorem oneOfTwo_of_acyclic {s : Starts} (h : Threads.Inv Tidy Part Apart s)
    (hacyclic : Acyclic (LabelEdge s.shared.nodes)) : OneOfTwo s := by
  intro i j t u _ ht hu htu hut id id' hok hok'
  have hnode := (h.thread t (List.mem_of_getElem? ht)).tracked id (by rw [hok]; rfl)
  have hnode' := (h.thread u (List.mem_of_getElem? hu)).tracked id' (by rw [hok']; rfl)
  exact hacyclic t.label (.head ⟨_, _, hnode, htu⟩ (.single ⟨_, _, hnode', hut⟩))

/-- Under every interleaving the label graph stays acyclic, and of two calls that name each
other at most one returns `Ok`, if and only if each entry is inserted while the cycle check
would still pass. -/
theorem concurrentStarts_acyclic_iff (env : Env) (h : StartsTogether calls w) (schedule : List ℕ) :
    (Acyclic (LabelEdge (Threads.run (next env) schedule (starts calls w)).shared.nodes) ∧
        OneOfTwo (Threads.run (next env) schedule (starts calls w))) ↔
      Fold.Meets (Threads.AtStep (CheckHolds env)) (Threads.step (next env)) schedule
        (starts calls w) := by
  rw [← acyclic_run_iff schedule h.inv h.acyclic, and_iff_left_iff_imp]
  exact oneOfTwo_of_acyclic (Fold.foldl_invariant h.inv fun s k _ hs => inv_step hs k)

/-- Each call depends on the label of the other. -/
def mutualCalls : List (Label × ProcessConfig) :=
  [(⟨"a"⟩, { command := "/bin/a", dependsOn := [.label ⟨"b"⟩] }),
    (⟨"b"⟩, { command := "/bin/b", dependsOn := [.label ⟨"a"⟩] })]

theorem startsTogether_mutualCalls : StartsTogether mutualCalls .withReaper := by
  have hempty : ∀ i, World.withReaper.nodes i = none := fun _ => rfl
  refine ⟨by decide, ?_, ⟨fun _ _ => rfl, ?_⟩, ?_⟩
  · intro c _ i deps hi
    rw [hempty] at hi
    cases hi
  · intro i j l deps deps' hi
    rw [hempty] at hi
    cases hi
  · intro a ha
    obtain ⟨b, ⟨i, deps, hi, _⟩, _⟩ := TransGen.head'_iff.mp ha
    rw [hempty] at hi
    cases hi

/-- When one call runs after the other, the second is rejected. -/
theorem concurrentStarts_sequential :
    Acyclic (LabelEdge (Threads.run (next .calm) [0, 0, 0, 0, 1, 1, 1, 1]
        (starts mutualCalls .withReaper)).shared.nodes) ∧
      OneOfTwo (Threads.run (next .calm) [0, 0, 0, 0, 1, 1, 1, 1] (starts mutualCalls .withReaper)) :=
  (concurrentStarts_acyclic_iff .calm startsTogether_mutualCalls [0, 0, 0, 0, 1, 1, 1, 1]).mpr
    (by decide +kernel)

/-- Both calls check before either inserts: both return `Ok`, and the labels form a cycle. -/
theorem not_concurrentStarts_acyclic :
    ¬ (Acyclic (LabelEdge (Threads.run (next .calm) [0, 0, 1, 1, 0, 0, 1, 1]
        (starts mutualCalls .withReaper)).shared.nodes) ∧
      OneOfTwo (Threads.run (next .calm) [0, 0, 1, 1, 0, 0, 1, 1] (starts mutualCalls .withReaper))) := by
  rintro ⟨_, hone⟩
  exact hone 0 1 _ _ (by decide) rfl rfl (by decide) (by decide) ⟨1⟩ ⟨2⟩ rfl rfl

end System

end ProcessManager
