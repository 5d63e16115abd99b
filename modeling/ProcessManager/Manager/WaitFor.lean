import ProcessManager.Manager.CycleCheck

/-! Which process waits for which. The cycle check follows labels only, so it keeps the
wait-for relation acyclic as long as no cycle needs an `Id` entry. -/

namespace ProcessManager

open Relation

/-! ### The wait-for relation -/

/-- The label and the dependencies of each tracked process. -/
abbrev Nodes := ProcessId → Option (Label × List DependencyRef)

/-- `i` waits for `j`, which it names by id or label. -/
def WaitsFor (n : Nodes) (i j : ProcessId) : Prop :=
  ∃ l deps m deps', n i = some (l, deps) ∧ n j = some (m, deps') ∧ (.label m ∈ deps ∨ .id j ∈ deps)

/-- `i` waits for `j` because of its label. -/
def WaitsForLabel (n : Nodes) (i j : ProcessId) : Prop :=
  ∃ l deps m deps', n i = some (l, deps) ∧ n j = some (m, deps') ∧ .label m ∈ deps

/-- A process labelled `a` depends on the label `b`. -/
def LabelEdge (n : Nodes) (a b : Label) : Prop := ∃ i deps, n i = some (a, deps) ∧ .label b ∈ deps

/-- No label is carried twice. -/
def Distinct (n : Nodes) : Prop :=
  ∀ i j l deps deps', n i = some (l, deps) → n j = some (l, deps') → i = j

/-- No process carries the label. -/
def Unused (n : Nodes) (l : Label) : Prop := ∀ i deps, n i ≠ some (l, deps)

variable {n : Nodes} {i j id : ProcessId} {a b l label : Label} {deps deps' : List DependencyRef}

theorem WaitsForLabel.waitsFor (h : WaitsForLabel n i j) : WaitsFor n i j := by
  obtain ⟨l, deps, m, deps', hi, hj, hm⟩ := h
  exact ⟨l, deps, m, deps', hi, hj, .inl hm⟩

/-- A path of labels is a path of the processes that carry them. -/
theorem transGen_waitsForLabel (hn : Distinct n) (h : TransGen (LabelEdge n) a b)
    (hi : n i = some (a, deps)) (hj : n j = some (b, deps')) : TransGen (WaitsForLabel n) i j := by
  have hedge : ∀ {a b i j deps deps'}, LabelEdge n a b → n i = some (a, deps) →
      n j = some (b, deps') → WaitsForLabel n i j := by
    rintro a b i j deps deps' ⟨k, deps₁, hk, hb⟩ hi hj
    obtain rfl := hn i k a deps deps₁ hi hk
    exact ⟨a, deps₁, b, deps', hk, hj, hb⟩
  induction h generalizing j deps' with
  | single hab => exact .single (hedge hab hi hj)
  | tail _ hbc ih =>
    obtain ⟨k, deps₁, hk, hb⟩ := hbc
    exact (ih hk).tail (hedge ⟨k, deps₁, hk, hb⟩ hk hj)

theorem transGen_labelEdge (h : TransGen (WaitsForLabel n) i j) (hi : n i = some (a, deps))
    (hj : n j = some (b, deps')) : TransGen (LabelEdge n) a b := by
  induction h generalizing b deps' with
  | single hij =>
    obtain ⟨l, deps₁, m, deps₂, hi', hj', hm⟩ := hij
    rw [hi, Option.some.injEq, Prod.mk.injEq] at hi'
    rw [hj, Option.some.injEq, Prod.mk.injEq] at hj'
    obtain ⟨rfl, rfl⟩ := hi'
    obtain ⟨rfl, rfl⟩ := hj'
    exact .single ⟨_, _, hi, hm⟩
  | tail _ hjk ih =>
    obtain ⟨l, deps₁, m, deps₂, hj', hk', hm⟩ := hjk
    rw [hj, Option.some.injEq, Prod.mk.injEq] at hk'
    obtain ⟨rfl, rfl⟩ := hk'
    exact (ih hj').tail ⟨_, _, hj', hm⟩

theorem acyclic_waitsForLabel_iff (hn : Distinct n) :
    Acyclic (WaitsForLabel n) ↔ Acyclic (LabelEdge n) := by
  constructor
  · intro h a ha
    obtain ⟨b, ⟨i, deps, hi, _⟩, _⟩ := TransGen.head'_iff.mp ha
    exact h i (transGen_waitsForLabel hn ha hi hi)
  · intro h i hi
    obtain ⟨j, ⟨l, deps, _, _, hl, _⟩, _⟩ := TransGen.head'_iff.mp hi
    exact h l (transGen_labelEdge hi hl hl)

/-! ### A new process -/

/-- The new process adds edges that leave its label. -/
theorem labelEdge_update_iff (hid : n id = none) :
    LabelEdge (Function.update n id (some (label, deps))) a b ↔
      LabelEdge n a b ∨ (a = label ∧ .label b ∈ deps) := by
  constructor
  · rintro ⟨i, deps', hi, hb⟩
    rw [Function.update_apply] at hi
    split_ifs at hi
    · rw [Option.some.injEq, Prod.mk.injEq] at hi
      obtain ⟨rfl, rfl⟩ := hi
      exact .inr ⟨rfl, hb⟩
    · exact .inl ⟨i, deps', hi, hb⟩
  · rintro (⟨i, deps', hi, hb⟩ | ⟨rfl, hb⟩)
    · refine ⟨i, deps', ?_, hb⟩
      rw [Function.update_of_ne (by rintro rfl; rw [hid] at hi; cases hi), hi]
    · exact ⟨id, deps, Function.update_self .., hb⟩

theorem Distinct.update (hn : Distinct n) (hl : Unused n label) :
    Distinct (Function.update n id (some (label, deps))) := by
  intro i j l deps₁ deps₂ hi hj
  rw [Function.update_apply] at hi hj
  split_ifs at hi hj with h h' h'
  · exact h.trans h'.symm
  · rw [Option.some.injEq, Prod.mk.injEq] at hi
    exact absurd (hi.1 ▸ hj) (hl j deps₂)
  · rw [Option.some.injEq, Prod.mk.injEq] at hj
    exact absurd (hj.1 ▸ hi) (hl i deps₁)
  · exact hn i j l deps₁ deps₂ hi hj

theorem Unused.update (hl : Unused n l) (hne : l ≠ label) :
    Unused (Function.update n id (some (label, deps))) l := by
  intro i deps' hi
  rw [Function.update_apply] at hi
  split_ifs at hi
  · rw [Option.some.injEq, Prod.mk.injEq] at hi
    exact hne hi.1.symm
  · exact hl i deps' hi

namespace World

variable {env : Env} {w w' : World} {config : ProcessConfig} {p : Process}

/-- The nodes of the tracked processes. -/
def nodes (w : World) : Nodes := fun i =>
  (w.processes.lookup i).map fun p => (p.label, p.config.dependsOn)

/-- The nodes as they are with a new process. -/
def nodesWith (w : World) (id : ProcessId) (label : Label) (config : ProcessConfig) : Nodes :=
  Function.update w.nodes id (some (label, config.dependsOn))

theorem nodes_eq_some : w.nodes i = some (l, deps) ↔
    ∃ p, w.processes.lookup i = some p ∧ p.label = l ∧ p.config.dependsOn = deps := by
  simp only [nodes, Option.map_eq_some_iff, Prod.mk.injEq]

/-- With one process per label the snapshot is the label graph. -/
theorem edge_iff_labelEdge (hn : Distinct w.nodes) (hl : Unused w.nodes label) (hid : w.nodes id = none) :
    (buildDependencySnapshot w.processes label config.dependsOn).Edge a b ↔
      LabelEdge (w.nodesWith id label config) a b := by
  have hpick : ∀ l e, lastWithLabel w.processes l = some e → lastPick w.processes l = e.1 :=
    fun l e => lastPick_eq
  rw [edge_iff_pickEdge (.refl _) hpick, nodesWith, labelEdge_update_iff hid, or_comm]
  refine or_congr Iff.rfl ⟨?_, ?_⟩
  · rintro ⟨_, p, hp, rfl, hb⟩
    exact ⟨_, _, nodes_eq_some.mpr ⟨p, hp, rfl, rfl⟩, hb⟩
  · rintro ⟨i, deps, hi, hb⟩
    obtain ⟨p, hp, rfl, rfl⟩ := nodes_eq_some.mp hi
    refine ⟨by rintro rfl; exact hl i _ hi, ?_⟩
    obtain ⟨q, hq, hlabel⟩ := isChoice_lastPick (.refl w.processes.entries) i p hp
    obtain rfl := hn i _ _ _ _ hi (nodes_eq_some.mpr ⟨q, hq, hlabel, rfl⟩)
    exact ⟨p, hp, rfl, hb⟩

/-- With one process per label the check finds exactly the label cycles that the new process
closes. -/
theorem startCycle_eq_none_iff (hn : Distinct w.nodes) (hl : Unused w.nodes label)
    (hid : w.nodes id = none) (h : Acyclic (LabelEdge w.nodes)) :
    w.startCycle label config = none ↔ Acyclic (LabelEdge (w.nodesWith id label config)) := by
  have hnew : ∀ a b, LabelEdge (w.nodesWith id label config) a b → LabelEdge w.nodes a b ∨ a = label :=
    fun a b hab => ((labelEdge_update_iff hid).mp hab).imp_right And.left
  have hedge : (buildDependencySnapshot w.processes label config.dependsOn).Edge =
      LabelEdge (w.nodesWith id label config) := by
    funext a b
    exact propext (edge_iff_labelEdge hn hl hid)
  rw [h.acyclic_iff hnew, ← hedge, ← startCycle_ne_none_iff, not_not]

/-! ### What a start adds -/

theorem nodes_of_processes (h : w'.processes = w.processes) : w'.nodes = w.nodes := by
  unfold nodes
  rw [h]

/-- An entry is written back with its label and configuration. -/
theorem nodes_put {p' : Process} (hp : w.processes.lookup id = some p)
    (hlabel : p'.label = p.label) (hconfig : p'.config = p.config) : (w.put id p').nodes = w.nodes := by
  funext i
  unfold nodes
  rw [put_processes, AssocMap.lookup_replace]
  split_ifs with hi
  · rw [hi, hp]
    simp only [Option.map_some, hlabel, hconfig]
  · rfl

theorem nodes_insert : (w.insert env id p).nodes =
    Function.update w.nodes id (some (p.label, p.config.dependsOn)) := by
  funext i
  unfold nodes
  rw [insert_processes, AssocMap.lookup_reorder, AssocMap.lookup_insert_eq, Function.update_apply]
  split_ifs <;> rfl

theorem nodes_allDepsRunning (env : Env) (deps : List ProcessId) (w : World) :
    (w.allDepsRunning env deps).2.nodes = w.nodes := by
  refine allDepsRunning_invariant (I := fun w' => w'.nodes = w.nodes) (fun _ _ h => h)
    (fun _ _ h => h) ?_ deps rfl
  intro id p w' hw' hp
  have hstep : OsStep p.handles (fun _ => True) w' (p.pollState env w').2 := Process.osStep_pollState
  calc (w'.pollEntry env id p).nodes = (p.pollState env w').2.nodes := by
        refine nodes_put (w := (p.pollState env w').2) (p := p) (hstep.processes ▸ hp) ?_ ?_ <;>
          rw [Process.pollState_fst]
    _ = w'.nodes := nodes_of_processes hstep.processes
    _ = w.nodes := hw'

theorem nodes_markStartedEntry (id : ProcessId) (w : World) :
    (w.markStartedEntry env id).nodes = w.nodes := by
  unfold markStartedEntry
  split
  · next p hp =>
    split
    · exact Eq.trans (nodes_put (w := w.tick env) (p := p) hp rfl rfl) rfl
    · rfl
  · rfl

theorem nodes_startNow (env : Env) (label : Label) (config : ProcessConfig) (id : ProcessId)
    (resolved : List ProcessId) (w : World) :
    (∀ new, (w.startNow env id label config resolved).1 = .ok new → new = id ∧
        (w.startNow env id label config resolved).2.nodes = w.nodesWith id label config) ∧
      (∀ e, (w.startNow env id label config resolved).1 = .error e →
        (w.startNow env id label config resolved).2.nodes = w.nodes) := by
  unfold startNow
  split
  · next e he =>
    refine ⟨nofun, fun _ _ => ?_⟩
    exact nodes_of_processes (osStep_spawnProcess (S := ∅) (P := fun _ => True) he).processes
  · next hok =>
    refine ⟨fun new h => ⟨(Except.ok.inj h).symm, ?_⟩, nofun⟩
    have hspawn : Spawned env .start id config resolved w _ := .of_ok .start id resolved hok
    rw [nodes_markStartedEntry, nodes_insert]
    exact congrArg (Function.update · id _) (nodes_of_processes hspawn.processes)

theorem nodes_startWaiting (id : ProcessId) (resolved : List ProcessId) (w : World) :
    (w.startWaiting env id label config resolved).nodes = w.nodesWith id label config :=
  nodes_insert

/-- A start tracks the new process under the next id, or nothing new. -/
theorem nodes_start (env : Env) (label : Label) (config : ProcessConfig) (w : World) :
    (∀ id, (w.start env label config).1 = .ok id → id = ⟨w.nextId⟩ ∧ w.startCycle label config = none ∧
        (w.start env label config).2.nodes = w.nodesWith ⟨w.nextId⟩ label config) ∧
      (∀ e, (w.start env label config).1 = .error e → (w.start env label config).2.nodes = w.nodes) := by
  unfold start
  split_ifs with hvalid
  · exact ⟨nofun, fun _ _ => rfl⟩
  · simp only
    split
    · exact ⟨nofun, fun _ _ => rfl⟩
    · next hcycle =>
      set w₁ : World := { w with nextId := w.nextId + 1 }
      have hcycle' : w.startCycle label config = none := hcycle
      split_ifs with hlength hrunning
      · obtain ⟨hok, herror⟩ := nodes_startNow env label config ⟨w.nextId⟩
          (resolvedOrDefault w₁.processes config.dependsOn)
          (w₁.allDepsRunning env (resolvedOrDefault w₁.processes config.dependsOn)).2
        have hnodes := nodes_allDepsRunning env (resolvedOrDefault w₁.processes config.dependsOn) w₁
        refine ⟨fun id h => ⟨(hok id h).1, hcycle', (hok id h).2.trans ?_⟩,
          fun e h => (herror e h).trans hnodes⟩
        exact congrArg (Function.update · _ _) hnodes
      · refine ⟨fun id h => ⟨(Except.ok.inj h).symm, hcycle', (nodes_startWaiting _ _ _).trans ?_⟩,
          nofun⟩
        exact congrArg (Function.update · _ _) (nodes_allDepsRunning env _ w₁)
      · exact ⟨fun id h => ⟨(Except.ok.inj h).symm, hcycle', nodes_startWaiting _ _ _⟩,
          nofun⟩

end World

end ProcessManager
