import ProcessManager.Process.Process

/-! Dependency resolution and cycle detection (`manager/dependency.rs`). -/

namespace ProcessManager

/-! ### Cycle detection -/

/-- `DepGraph`: one list of dependencies per label. -/
abbrev DepGraph := AssocMap Label (List DependencyRef)

/-- `build_dependency_snapshot`: a later entry replaces an earlier one of the same label. -/
def buildDependencySnapshot (processes : AssocMap ProcessId Process) (newLabel : Label)
    (newDependsOn : List DependencyRef) : DepGraph :=
  let graph := processes.entries.foldl
    (fun (g : DepGraph) e => g.insert e.2.label e.2.config.dependsOn) ∅
  graph.insert newLabel newDependsOn

structure DfsState where
  visited : List Label
  path : List DependencyRef
  pathLabels : List Label
  deriving DecidableEq

/-- `dfs_cycle`: the error is the path to the repeated label. Every nested call descends
to a label of the graph that is not on the path, so the number of labels bounds the depth. -/
def dfsCycle (graph : DepGraph) : ℕ → Label → List DependencyRef → DfsState →
    Except (List DependencyRef) DfsState
  | 0, _, _, st => .ok st
  | fuel + 1, current, dependsOn, st => do
    let st := { st with pathLabels := current :: st.pathLabels }
    let st ← dependsOn.foldlM (fun (st : DfsState) dep =>
      match dep with
      | .label target =>
        if target ∈ st.pathLabels then .error (st.path ++ [dep])
        else if target ∈ st.visited then .ok st
        else do
          let st := { st with path := st.path ++ [dep] }
          let st ← match graph.lookup target with
            | some targetDeps => dfsCycle graph fuel target targetDeps st
            | none => .ok st
          .ok { st with path := st.path.dropLast }
      | .id _ => .ok st) st
    .ok { st with
      pathLabels := st.pathLabels.filter (· ≠ current)
      visited := current :: st.visited }

/-- `detect_cycle`: `none` if no cycle was found, else the reported path. -/
def detectCycle (graph : DepGraph) (startLabel : Label) (startDependsOn : List DependencyRef) :
    Option (List DependencyRef) :=
  match dfsCycle graph (graph.keys.length + 1) startLabel startDependsOn ⟨[], [], []⟩ with
  | .ok _ => none
  | .error cycle => some cycle

/-! ### Resolution -/

/-- What `resolve_dependencies` accepts for a label: `Running` or `Starting`. -/
def isResolvable (l : Label) (p : Process) : Bool :=
  p.label = l && (p.state = .running || p.state = .starting)

/-- `resolve_dependencies`: the error is the label that matches no process. -/
def resolveDependencies (processes : AssocMap ProcessId Process) :
    List DependencyRef → Except DependencyRef (List ProcessId)
  | [] => .ok []
  | .label l :: deps =>
    match processes.findKey (isResolvable l) with
    | some found => (found :: ·) <$> resolveDependencies processes deps
    | none => .error (.label l)
  | .id i :: deps => (i :: ·) <$> resolveDependencies processes deps

/-- The keys whose shards the label searches of `resolve_dependencies` visit, in order. -/
def resolveVisits (processes : AssocMap ProcessId Process) : List DependencyRef → List ProcessId
  | [] => []
  | .label l :: deps =>
    processes.visitedKeys (isResolvable l) ++
      match processes.findKey (isResolvable l) with
      | some _ => resolveVisits processes deps
      | none => []
  | .id _ :: deps => resolveVisits processes deps

/-- `resolve_dependencies(..).unwrap_or_default()` -/
def resolvedOrDefault (processes : AssocMap ProcessId Process) (deps : List DependencyRef) :
    List ProcessId :=
  match resolveDependencies processes deps with
  | .ok ids => ids
  | .error _ => []

namespace World

variable (env : Env)

/-- `Process::state` through a guard of the map. -/
def pollEntry (id : ProcessId) (p : Process) (w : World) : World :=
  (p.pollState env w).2.put id (p.pollState env w).1

/-- `all_deps_running`: polls each dependency in turn until one is not `Running`. -/
def allDepsRunning : List ProcessId → World → Bool × World
  | [], w => (true, w)
  | dep :: deps, w =>
    let w := w.lock .exclusive dep
    match w.processes.lookup dep with
    | none => (false, w.unlock .exclusive dep)
    | some p =>
      if p.state = .waiting then (false, w.unlock .exclusive dep)
      else if (p.pollState env w).1.state = .running then
        allDepsRunning deps ((w.pollEntry env dep p).unlock .exclusive dep)
      else (false, (w.pollEntry env dep p).unlock .exclusive dep)

/-! ### What polling and resolution guarantee -/

variable {env}

/-- What locks and polls of tracked entries keep, `all_deps_running` keeps. -/
theorem allDepsRunning_invariant {I : World → Prop}
    (hlock : ∀ id w, I w → I (w.lock .exclusive id))
    (hunlock : ∀ id w, I w → I (w.unlock .exclusive id))
    (hpoll : ∀ id p w, I w → w.processes.lookup id = some p → I (w.pollEntry env id p))
    (deps : List ProcessId) {w : World} (hw : I w) : I (w.allDepsRunning env deps).2 := by
  induction deps generalizing w with
  | nil => exact hw
  | cons dep deps ih =>
    have hlocked := hlock dep w hw
    simp only [allDepsRunning, lock_processes]
    split
    · exact hunlock dep _ hlocked
    · next p hp =>
      have hpolled := hpoll dep p _ hlocked hp
      split_ifs
      · exact hunlock dep _ hlocked
      · exact ih (hunlock dep _ hpolled)
      · exact hunlock dep _ hpolled

/-- The entry `id` is tracked and `Running`. -/
def IsRunning (id : ProcessId) (w : World) : Prop :=
  ∃ p, w.processes.lookup id = some p ∧ p.state = .running

theorem pollEntry_processes (id : ProcessId) (p : Process) (w : World) :
    (w.pollEntry env id p).processes = w.processes.replace id (p.pollState env w).1 := by
  rw [pollEntry, put_processes, (Process.osStep_pollState (P := fun _ => True)).processes]

theorem mapStep_pollEntry {id : ProcessId} {p : Process} {w : World} {P : KillCall → Prop}
    (hp : w.processes.lookup id = some p) :
    MapStep Process.Polled p.handles P w (w.pollEntry env id p) :=
  .put Process.Polled.refl Process.osStep_pollState hp (Process.polled_pollState id)

theorem mapStep_allDepsRunning (env : Env) {P : KillCall → Prop} (deps : List ProcessId) (w : World) :
    MapStep Process.Polled Set.univ P w (w.allDepsRunning env deps).2 := by
  have htrans : ∀ {w₁ w₂ w₃ : World}, MapStep Process.Polled Set.univ P w₁ w₂ →
      MapStep Process.Polled Set.univ P w₂ w₃ → MapStep Process.Polled Set.univ P w₁ w₃ :=
    MapStep.trans fun _ _ _ _ => .trans
  refine allDepsRunning_invariant ?_ ?_ ?_ deps
    (.of_osStep Process.Polled.refl (.refl w) : MapStep Process.Polled Set.univ P w w)
  · exact fun id w' hw' => htrans hw' (.lock Process.Polled.refl _ _ _)
  · exact fun id w' hw' => htrans hw' (.unlock Process.Polled.refl _ _ _)
  · exact fun id p w' hw' hp => htrans hw' ((mapStep_pollEntry hp).mono (fun _ _ _ h => h)
      (Set.subset_univ _) fun _ h => h)

/-- `true` means that each dependency was found `Running` and still is. -/
theorem allDepsRunning_true {deps : List ProcessId} {w : World}
    (h : (w.allDepsRunning env deps).1 = true) :
    (∀ d ∈ deps, IsRunning d (w.allDepsRunning env deps).2) ∧
      ∀ d, IsRunning d w → IsRunning d (w.allDepsRunning env deps).2 := by
  induction deps generalizing w with
  | nil => exact ⟨by simp, fun d hd => hd⟩
  | cons dep deps ih =>
    simp only [allDepsRunning, lock_processes] at h ⊢
    split at h
    · cases h
    · next p hp =>
      split_ifs at h ⊢ with hwaiting hrunning
      obtain ⟨hdeps, hkeep⟩ := ih h
      have hself : IsRunning dep (((w.lock .exclusive dep).pollEntry env dep p).unlock .exclusive dep) := by
        refine ⟨_, ?_, hrunning⟩
        rw [unlock_processes, pollEntry_processes, AssocMap.lookup_replace, lock_processes, hp]
        simp
      have hother : ∀ d, IsRunning d w →
          IsRunning d (((w.lock .exclusive dep).pollEntry env dep p).unlock .exclusive dep) := by
        intro d hd
        by_cases hdep : d = dep
        · rw [hdep]; exact hself
        · obtain ⟨q, hq, hs⟩ := hd
          refine ⟨q, ?_, hs⟩
          rw [unlock_processes, pollEntry_processes, AssocMap.lookup_replace, if_neg hdep,
            lock_processes, hq]
      refine ⟨fun d hd => ?_, fun d hd => hkeep d (hother d hd)⟩
      rcases List.mem_cons.mp hd with rfl | hd
      · exact hkeep d hself
      · exact hdeps d hd

end World

/-- The ids bound to a list of dependencies, one each. -/
def Binds (processes : AssocMap ProcessId Process) : DependencyRef → ProcessId → Prop
  | .label l, i => ∃ p, processes.lookup i = some p ∧ p.label = l
  | .id j, i => i = j

theorem resolveDependencies_forall₂ {processes : AssocMap ProcessId Process} :
    ∀ {deps : List DependencyRef} {ids : List ProcessId},
      resolveDependencies processes deps = .ok ids → List.Forall₂ (Binds processes) deps ids
  | [], ids, h => by
    cases h
    exact .nil
  | .label l :: deps, ids, h => by
    simp only [resolveDependencies] at h
    split at h
    · next found hfound =>
      obtain ⟨p, hp, hl⟩ := AssocMap.findKey_eq_some hfound
      cases hrest : resolveDependencies processes deps with
      | error e => rw [hrest] at h; cases h
      | ok rest =>
        rw [hrest] at h
        cases h
        simp only [isResolvable, Bool.and_eq_true, decide_eq_true_eq] at hl
        exact .cons ⟨p, hp, hl.1⟩ (resolveDependencies_forall₂ hrest)
    · cases h
  | .id i :: deps, ids, h => by
    simp only [resolveDependencies] at h
    cases hrest : resolveDependencies processes deps with
    | error e => rw [hrest] at h; cases h
    | ok rest =>
      rw [hrest] at h
      cases h
      exact .cons rfl (resolveDependencies_forall₂ hrest)

theorem exists_binds {processes : AssocMap ProcessId Process} {deps : List DependencyRef}
    {ids : List ProcessId} (h : List.Forall₂ (Binds processes) deps ids) {dep : DependencyRef}
    (hdep : dep ∈ deps) : ∃ i ∈ ids, Binds processes dep i := by
  induction h with
  | nil => simp at hdep
  | cons hbinds _ ih =>
    rcases List.mem_cons.mp hdep with rfl | hdep
    · exact ⟨_, by simp, hbinds⟩
    · obtain ⟨i, hi, hb⟩ := ih hdep
      exact ⟨i, by simp [hi], hb⟩

/-- A resolution binds every dependency or none. -/
theorem resolvedOrDefault_cases (processes : AssocMap ProcessId Process)
    (deps : List DependencyRef) :
    resolvedOrDefault processes deps = [] ∨
      List.Forall₂ (Binds processes) deps (resolvedOrDefault processes deps) := by
  unfold resolvedOrDefault
  cases h : resolveDependencies processes deps with
  | ok ids => exact .inr (resolveDependencies_forall₂ h)
  | error e => exact .inl rfl

end ProcessManager
