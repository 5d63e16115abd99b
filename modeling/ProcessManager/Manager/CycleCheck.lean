import ProcessManager.Library.Cycle
import ProcessManager.Manager.Start

/-! What the cycle check of `start` decides. The search reports a cycle exactly when one can
be reached from the new label in the snapshot, which keeps one list of dependencies per
label. -/

namespace ProcessManager

open Relation

variable {graph : DepGraph} {a b current target : Label} {deps : List DependencyRef}
  {st st' : DfsState} {fuel : ℕ}

/-! ### The search -/

/-- `a` depends on the label `b`. -/
def DepGraph.Edge (graph : DepGraph) (a b : Label) : Prop :=
  ∃ deps, graph.lookup a = some deps ∧ .label b ∈ deps

/-- The body of the loop in `dfs_cycle`. -/
def dfsVisit (graph : DepGraph) (fuel : ℕ) (st : DfsState) (dep : DependencyRef) :
    Except (List DependencyRef) DfsState :=
  match dep with
  | .label target =>
    if target ∈ st.pathLabels then .error (st.path ++ [dep])
    else if target ∈ st.visited then .ok st
    else do
      let st := { st with path := st.path ++ [dep] }
      let st ← match graph.lookup target with
        | some targetDeps => dfsCycle graph fuel target targetDeps st
        | none => .ok st
      .ok { st with path := st.path.dropLast }
  | .id _ => .ok st

theorem dfsCycle_succ (graph : DepGraph) (fuel : ℕ) (current : Label) (deps : List DependencyRef)
    (st : DfsState) : dfsCycle graph (fuel + 1) current deps st = (do
      let st ← deps.foldlM (dfsVisit graph fuel) { st with pathLabels := current :: st.pathLabels }
      .ok { st with
        pathLabels := st.pathLabels.filter (· ≠ current)
        visited := current :: st.visited }) := rfl

/-- The path is a path of the graph, and no cycle is reached from a visited label. -/
structure DfsInv (graph : DepGraph) (st : DfsState) : Prop where
  nodup : st.pathLabels.Nodup
  keys : st.pathLabels ⊆ graph.keys
  visited : ∀ l ∈ st.visited, Acc (Function.swap graph.Edge) l

/-- The labels on the path lead to `l`. -/
def LeadsTo (graph : DepGraph) (st : DfsState) (l : Label) : Prop :=
  ∀ q ∈ st.pathLabels, ReflTransGen graph.Edge q l

/-- The search from `l` returned as it should: it found a cycle, or ended where `P` holds. -/
def Explored (graph : DepGraph) (l : Label) (P : DfsState → Prop) :
    Except (List DependencyRef) DfsState → Prop
  | .ok st => P st
  | .error _ => ReachesCycle graph.Edge l

theorem acc_of_lookup_eq_none (h : graph.lookup a = none) : Acc (Function.swap graph.Edge) a := by
  refine .intro a fun b hb => ?_
  obtain ⟨deps, hdeps, _⟩ := hb
  rw [h] at hdeps
  cases hdeps

/-- A label of the graph that is not on the path leaves room on it. -/
theorem DfsInv.length_lt (h : DfsInv graph st) (hlookup : graph.lookup a = some deps)
    (hfresh : a ∉ st.pathLabels) : st.pathLabels.length < graph.keys.length := by
  have hnodup : (a :: st.pathLabels).Nodup := List.nodup_cons.mpr ⟨hfresh, h.nodup⟩
  have hsub : a :: st.pathLabels ⊆ graph.keys :=
    List.cons_subset.mpr ⟨AssocMap.mem_of_lookup hlookup, h.keys⟩
  exact (List.subperm_of_subset hnodup hsub).length_le

/-- What a nested call guarantees. -/
def Explores (graph : DepGraph) (fuel : ℕ) : Prop :=
  ∀ (l : Label) (deps : List DependencyRef) (st : DfsState), graph.lookup l = some deps →
    l ∉ st.pathLabels → DfsInv graph st → LeadsTo graph st l →
    graph.keys.length ≤ fuel + st.pathLabels.length →
    Explored graph l (fun st' => st'.pathLabels = st.pathLabels ∧ DfsInv graph st' ∧
      l ∈ st'.visited) (dfsCycle graph fuel l deps st)

/-- One dependency of `current`. -/
theorem explored_dfsVisit (ih : Explores graph fuel) (hedge : ∀ b, .label b ∈ deps → graph.Edge current b)
    {dep : DependencyRef} (hdep : dep ∈ deps)
    (hinv : DfsInv graph st) (hleads : LeadsTo graph st current)
    (hfuel : graph.keys.length ≤ fuel + st.pathLabels.length) :
    Explored graph current (fun st' => st'.pathLabels = st.pathLabels ∧ DfsInv graph st' ∧
      ∀ b, dep = .label b → Acc (Function.swap graph.Edge) b) (dfsVisit graph fuel st dep) := by
  cases dep with
  | id i => exact ⟨rfl, hinv, fun b hb => by cases hb⟩
  | label target =>
    have htarget : graph.Edge current target := hedge target hdep
    simp only [dfsVisit]
    split_ifs with honpath hvisited
    · -- a back edge closes the cycle
      exact .of_transGen (.head' htarget (hleads target honpath))
    · exact ⟨rfl, hinv, fun b hb => by cases hb; exact hinv.visited target hvisited⟩
    · have hleads' : LeadsTo graph { st with path := st.path ++ [.label target] } target :=
        fun q hq => (hleads q hq).tail htarget
      cases hlookup : graph.lookup target with
      | none => exact ⟨rfl, ⟨hinv.nodup, hinv.keys, hinv.visited⟩, fun b hb => by
          cases hb; exact acc_of_lookup_eq_none hlookup⟩
      | some targetDeps =>
        have hnested := ih target targetDeps { st with path := st.path ++ [.label target] } hlookup
          honpath ⟨hinv.nodup, hinv.keys, hinv.visited⟩ hleads' hfuel
        cases hresult : dfsCycle graph fuel target targetDeps
            { st with path := st.path ++ [.label target] } with
        | error cycle =>
          rw [hresult] at hnested
          simp only [hresult]
          exact ReachesCycle.head htarget hnested
        | ok st' =>
          rw [hresult] at hnested
          obtain ⟨hsame, hinv', hmem⟩ := hnested
          simp only [hresult]
          exact ⟨hsame, ⟨hinv'.nodup, hinv'.keys, hinv'.visited⟩, fun b hb => by
            cases hb; exact hinv'.visited target hmem⟩

/-- The loop over the dependencies of `current`. -/
theorem explored_foldlM (ih : Explores graph fuel) (hedge : ∀ b, .label b ∈ deps → graph.Edge current b)
    {rest : List DependencyRef} (hrest : rest ⊆ deps)
    (hinv : DfsInv graph st) (hleads : LeadsTo graph st current)
    (hfuel : graph.keys.length ≤ fuel + st.pathLabels.length) :
    Explored graph current (fun st' => st'.pathLabels = st.pathLabels ∧ DfsInv graph st' ∧
      ∀ b, .label b ∈ rest → Acc (Function.swap graph.Edge) b)
      (rest.foldlM (dfsVisit graph fuel) st) := by
  induction rest generalizing st with
  | nil => exact ⟨rfl, hinv, fun b hb => absurd hb List.not_mem_nil⟩
  | cons dep rest ihrest =>
    obtain ⟨hdep, hrest⟩ := List.cons_subset.mp hrest
    have hvisit := explored_dfsVisit ih hedge hdep hinv hleads hfuel
    rw [List.foldlM_cons]
    cases hresult : dfsVisit graph fuel st dep with
    | error cycle => rw [hresult] at hvisit; exact hvisit
    | ok st₁ =>
      rw [hresult] at hvisit
      obtain ⟨hsame, hinv₁, hacc⟩ := hvisit
      have hloop := ihrest hrest hinv₁
        (fun q hq => hleads q (hsame ▸ hq)) (hsame ▸ hfuel)
      change Explored graph current _ (rest.foldlM (dfsVisit graph fuel) st₁)
      cases hresult' : rest.foldlM (dfsVisit graph fuel) st₁ with
      | error cycle => rw [hresult'] at hloop; exact hloop
      | ok st₂ =>
        rw [hresult'] at hloop
        obtain ⟨hsame', hinv₂, hacc'⟩ := hloop
        refine ⟨hsame'.trans hsame, hinv₂, fun b hb => ?_⟩
        rcases List.mem_cons.mp hb with hb | hb
        · exact hacc b hb.symm
        · exact hacc' b hb

/-- The search is right, and its fuel suffices: the path holds distinct labels of the graph. -/
theorem explores (graph : DepGraph) (fuel : ℕ) : Explores graph fuel := by
  induction fuel with
  | zero =>
    intro l deps st hlookup hfresh hinv _ hfuel
    have hlength := hinv.length_lt hlookup hfresh
    omega
  | succ fuel ih =>
    intro l deps st hlookup hfresh hinv hleads hfuel
    have hedge : ∀ b, .label b ∈ deps → graph.Edge l b := fun b hb => ⟨deps, hlookup, hb⟩
    have hinv' : DfsInv graph { st with pathLabels := l :: st.pathLabels } :=
      ⟨List.nodup_cons.mpr ⟨hfresh, hinv.nodup⟩,
        List.cons_subset.mpr ⟨AssocMap.mem_of_lookup hlookup, hinv.keys⟩, hinv.visited⟩
    have hloop := explored_foldlM ih hedge (List.Subset.refl deps) hinv'
      (List.forall_mem_cons.mpr ⟨.refl, hleads⟩) (by rw [List.length_cons]; omega)
    rw [dfsCycle_succ]
    cases hresult : deps.foldlM (dfsVisit graph fuel) { st with pathLabels := l :: st.pathLabels } with
    | error cycle => rw [hresult] at hloop; exact hloop
    | ok st' =>
      rw [hresult] at hloop
      obtain ⟨hsame, hinv', hacc⟩ := hloop
      have hrestored : st'.pathLabels.filter (· ≠ l) = st.pathLabels := by
        rw [hsame, List.filter_cons_of_neg (by simp), List.filter_eq_self]
        intro q hq
        simpa using ne_of_mem_of_not_mem hq hfresh
      have hself : Acc (Function.swap graph.Edge) l := by
        refine .intro l fun b hb => ?_
        obtain ⟨deps', hdeps', hb⟩ := hb
        obtain rfl : deps = deps' := Option.some.inj (hlookup.symm.trans hdeps')
        exact hacc b hb
      refine ⟨hrestored, ⟨?_, ?_, List.forall_mem_cons.mpr ⟨hself, hinv'.visited⟩⟩, List.mem_cons_self⟩
      · exact hrestored.symm ▸ hinv.nodup
      · exact hrestored.symm ▸ hinv.keys

theorem detectCycle_ne_none_iff (h : graph.lookup a = some deps) :
    detectCycle graph a deps ≠ none ↔ ReachesCycle graph.Edge a := by
  have hsearch := explores graph (graph.keys.length + 1) a deps ⟨[], [], []⟩ h List.not_mem_nil
    ⟨List.nodup_nil, List.nil_subset _, fun l hl => absurd hl List.not_mem_nil⟩
    (fun q hq => absurd hq List.not_mem_nil) (by simp)
  unfold detectCycle
  cases hresult : dfsCycle graph (graph.keys.length + 1) a deps ⟨[], [], []⟩ with
  | error cycle =>
    rw [hresult] at hsearch
    exact ⟨fun _ => hsearch, fun _ => by simp⟩
  | ok st =>
    rw [hresult] at hsearch
    obtain ⟨_, hinv, hmem⟩ := hsearch
    refine ⟨fun hne => absurd rfl hne, fun hcycle => ?_⟩
    exact absurd hcycle (not_reachesCycle_of_acc (hinv.visited a hmem))

/-! ### The snapshot -/

variable {processes m : AssocMap ProcessId Process} {label : Label} {config : ProcessConfig}

/-- The process of label `l` that the iteration visits last. -/
def lastWithLabel (processes : AssocMap ProcessId Process) (l : Label) :
    Option (Sigma fun _ : ProcessId => Process) :=
  processes.entries.reverse.find? fun e => e.2.label = l

theorem lookup_foldl_insert (l : Label) (entries : List (Sigma fun _ : ProcessId => Process))
    (g : DepGraph) :
    (entries.foldl (fun (g : DepGraph) e => g.insert e.2.label e.2.config.dependsOn) g).lookup l =
      match entries.reverse.find? fun e => e.2.label = l with
      | some e => some e.2.config.dependsOn
      | none => g.lookup l := by
  induction entries generalizing g with
  | nil => rfl
  | cons e entries ih =>
    rw [List.foldl_cons, ih, List.reverse_cons, List.find?_append]
    cases hlast : entries.reverse.find? fun e => decide (e.2.label = l) with
    | some e' => simp
    | none =>
      rw [Option.none_or, List.find?_singleton, AssocMap.lookup_insert_eq]
      by_cases hl : e.2.label = l
      · simp [hl]
      · simp [hl, Ne.symm hl]

theorem lookup_buildDependencySnapshot (l : Label) :
    (buildDependencySnapshot processes label deps).lookup l =
      if l = label then some deps
      else (lastWithLabel processes l).map fun e => e.2.config.dependsOn := by
  simp only [buildDependencySnapshot]
  rw [AssocMap.lookup_insert_eq, lookup_foldl_insert]
  split_ifs
  · rfl
  · unfold lastWithLabel
    split
    · next e he => rw [he]; rfl
    · next hnone => rw [hnone]; rfl

/-! ### Groups of processes under one label -/

/-- `a` depends on `b`: the new process, or any tracked one. -/
def UnionEdge (processes : AssocMap ProcessId Process) (label : Label) (deps : List DependencyRef)
    (a b : Label) : Prop :=
  (a = label ∧ .label b ∈ deps) ∨
    ∃ i p, processes.lookup i = some p ∧ p.label = a ∧ .label b ∈ p.config.dependsOn

/-- `pick` chooses one of the tracked processes of each label. -/
def IsChoice (processes : AssocMap ProcessId Process) (pick : Label → ProcessId) : Prop :=
  ∀ i p, processes.lookup i = some p → ∃ q, processes.lookup (pick p.label) = some q ∧ q.label = p.label

/-- `a` depends on `b`: the new process under its own label, and elsewhere the chosen one. -/
def PickEdge (processes : AssocMap ProcessId Process) (pick : Label → ProcessId) (label : Label)
    (deps : List DependencyRef) (a b : Label) : Prop :=
  (a = label ∧ .label b ∈ deps) ∨ (a ≠ label ∧
    ∃ p, processes.lookup (pick a) = some p ∧ p.label = a ∧ .label b ∈ p.config.dependsOn)

theorem PickEdge.union {pick : Label → ProcessId} (h : PickEdge processes pick label deps a b) :
    UnionEdge processes label deps a b :=
  h.imp_right fun ⟨_, p, hp, hlabel, hb⟩ => ⟨_, p, hp, hlabel, hb⟩

/-- The snapshot picks the process that the iteration visits last. -/
theorem edge_iff_pickEdge {pick : Label → ProcessId} (hm : m.entries.Perm processes.entries)
    (hpick : ∀ l e, lastWithLabel m l = some e → pick l = e.1) :
    (buildDependencySnapshot m label deps).Edge a b ↔ PickEdge processes pick label deps a b := by
  have hlookup : ∀ i, processes.lookup i = m.lookup i := fun i => (AList.perm_lookup hm).symm
  unfold DepGraph.Edge PickEdge
  rw [lookup_buildDependencySnapshot]
  by_cases ha : a = label
  · simp [ha]
  · simp only [ha, ↓reduceIte, false_and, false_or, ne_eq, not_false_eq_true, true_and]
    constructor
    · rintro ⟨_, hlast, hb⟩
      obtain ⟨e, he, rfl⟩ := Option.map_eq_some_iff.mp hlast
      have hmem : e ∈ m.entries := List.mem_reverse.mp (List.mem_of_find?_eq_some he)
      refine ⟨e.2, ?_, by simpa using List.find?_some he, hb⟩
      rw [hpick a e he, hlookup]
      exact AList.mem_lookup_iff.mpr hmem
    · rintro ⟨p, hp, hlabel, hb⟩
      have hmem := AList.mem_lookup_iff.mp (hlookup (pick a) ▸ hp)
      cases hlast : lastWithLabel m a with
      | none =>
        have hnone := List.find?_eq_none.mp hlast _ (List.mem_reverse.mpr hmem)
        simp [hlabel] at hnone
      | some e =>
        have he : e ∈ m.entries := List.mem_reverse.mp (List.mem_of_find?_eq_some hlast)
        have hsame : m.lookup e.1 = some e.2 := AList.mem_lookup_iff.mpr he
        rw [hpick a e hlast, hlookup, hsame, Option.some.injEq] at hp
        exact ⟨_, rfl, by simpa [hp] using hb⟩

/-- The choice that an iteration order makes. -/
def lastPick (processes : AssocMap ProcessId Process) (l : Label) : ProcessId :=
  match lastWithLabel processes l with
  | some e => e.1
  | none => ⟨0⟩

theorem lastPick_eq {l : Label} {e : Sigma fun _ : ProcessId => Process}
    (h : lastWithLabel processes l = some e) : lastPick processes l = e.1 := by
  rw [lastPick, h]

theorem isChoice_lastPick (hm : m.entries.Perm processes.entries) : IsChoice processes (lastPick m) := by
  intro i p hp
  have hlookup : ∀ i, m.lookup i = processes.lookup i := fun i => AList.perm_lookup hm
  have hmem := AList.mem_lookup_iff.mp ((hlookup i).trans hp)
  cases hlast : lastWithLabel m p.label with
  | none =>
    have hnone := List.find?_eq_none.mp hlast _ (List.mem_reverse.mpr hmem)
    simp at hnone
  | some e =>
    have he : e ∈ m.entries := List.mem_reverse.mp (List.mem_of_find?_eq_some hlast)
    rw [lastPick_eq hlast, ← hlookup]
    exact ⟨e.2, AList.mem_lookup_iff.mpr he, by simpa using List.find?_some hlast⟩

/-- An iteration order that visits the chosen processes last. -/
def chosenLast (processes : AssocMap ProcessId Process) (pick : Label → ProcessId) :
    AssocMap ProcessId Process where
  entries := processes.entries.filter (fun e => !decide (pick e.2.label = e.1)) ++
    processes.entries.filter fun e => pick e.2.label = e.1
  nodupKeys := by
    refine (List.perm_nodupKeys (List.perm_append_comm.trans ?_)).mpr processes.nodupKeys
    exact List.filter_append_perm _ _

theorem perm_chosenLast (processes : AssocMap ProcessId Process) (pick : Label → ProcessId) :
    (chosenLast processes pick).entries.Perm processes.entries :=
  List.perm_append_comm.trans (List.filter_append_perm _ _)

theorem lastWithLabel_chosenLast {pick : Label → ProcessId} (hpick : IsChoice processes pick) (l : Label)
    (e : Sigma fun _ : ProcessId => Process) (he : lastWithLabel (chosenLast processes pick) l = some e) :
    pick l = e.1 := by
  have hmem : e ∈ processes.entries := (perm_chosenLast processes pick).subset
    (List.mem_reverse.mp (List.mem_of_find?_eq_some he))
  have hlabel : e.2.label = l := by simpa using List.find?_some he
  obtain ⟨q, hq, hqlabel⟩ := hpick e.1 e.2 (AList.mem_lookup_iff.mpr hmem)
  unfold lastWithLabel chosenLast at he
  rw [List.reverse_append, List.find?_append] at he
  cases hfound : (processes.entries.filter fun e => decide (pick e.2.label = e.1)).reverse.find?
      fun e => decide (e.2.label = l) with
  | some e' =>
    rw [hfound, Option.some_or, Option.some.injEq] at he
    obtain rfl := he
    have hchosen := (List.mem_filter.mp (List.mem_reverse.mp (List.mem_of_find?_eq_some hfound))).2
    rw [hlabel] at hchosen
    simpa using hchosen
  | none =>
    have hchosen : (⟨pick e.2.label, q⟩ : Sigma fun _ : ProcessId => Process) ∈
        (processes.entries.filter fun e => decide (pick e.2.label = e.1)).reverse :=
      List.mem_reverse.mpr (List.mem_filter.mpr ⟨AList.mem_lookup_iff.mp hq, by simp [hqlabel]⟩)
    have hnone := List.find?_eq_none.mp hfound _ hchosen
    simp [hqlabel, hlabel] at hnone

/-! ### The verdict of `start` -/

namespace World

variable {env : Env} {w : World}

theorem startCycle_ne_none_iff : w.startCycle label config ≠ none ↔
    ReachesCycle (buildDependencySnapshot w.processes label config.dependsOn).Edge label := by
  have hself : (buildDependencySnapshot w.processes label config.dependsOn).lookup label =
      some config.dependsOn := by rw [lookup_buildDependencySnapshot, if_pos rfl]
  rw [← detectCycle_ne_none_iff hself, startCycle]
  split_ifs with hdeps
  · -- without dependencies the search ends at once
    rw [hdeps]
    simp [detectCycle, dfsCycle]
  · rfl

/-- `start` returns `DependencyCycle`. -/
def RejectsCycle (env : Env) (label : Label) (config : ProcessConfig) (w : World) : Prop :=
  ∃ cycle, (w.start env label config).1 = .error (.dependencyCycle cycle)

theorem rejectsCycle_iff : w.RejectsCycle env label config ↔
    config.validate = true ∧ w.startCycle label config ≠ none := by
  have hspawn : ∀ (w : World) (id : ProcessId) (resolved cycle),
      (w.startNow env id label config resolved).1 ≠ .error (.dependencyCycle cycle) := by
    intro w id resolved cycle
    unfold startNow
    split
    · next e _ => cases e <;> simp [SpawnError.toManagerError]
    · simp
  unfold RejectsCycle start
  cases hvalid : config.validate with
  | false => simp
  | true =>
    simp only [Bool.true_eq_false, ↓reduceIte, true_and]
    cases hcycle : startCycle label config { w with nextId := w.nextId + 1 } with
    | some cycle => simp [show w.startCycle label config = some cycle from hcycle]
    | none =>
      rw [show w.startCycle label config = none from hcycle]
      simp only [ne_eq, not_true_eq_false, iff_false, not_exists]
      intro cycle
      split_ifs
      · exact hspawn _ _ _ cycle
      · simp
      · simp

/-- Whatever the iteration order, `start` rejects exactly the cycles of the union graph, if
and only if no such cycle hangs on the choice of one process per label. -/
theorem rejectsCycle_iff_union (env : Env) (processes : AssocMap ProcessId Process) (label : Label)
    (config : ProcessConfig) :
    (∀ w : World, w.processes.entries.Perm processes.entries →
      (w.RejectsCycle env label config ↔
        ReachesCycle (UnionEdge processes label config.dependsOn) label)) ↔
      (ReachesCycle (UnionEdge processes label config.dependsOn) label →
        config.validate = true ∧ ∀ pick, IsChoice processes pick →
          ReachesCycle (PickEdge processes pick label config.dependsOn) label) := by
  constructor
  · intro h hunion
    have hrejects : ∀ m : AssocMap ProcessId Process, m.entries.Perm processes.entries →
        RejectsCycle env label config { World.new with processes := m } := fun m hm => (h _ hm).mpr hunion
    refine ⟨(rejectsCycle_iff.mp (hrejects processes (.refl _))).1, fun pick hpick => ?_⟩
    have hm := perm_chosenLast processes pick
    have hcycle := startCycle_ne_none_iff.mp (rejectsCycle_iff.mp (hrejects _ hm)).2
    exact hcycle.mono fun a b hab =>
      (edge_iff_pickEdge hm (lastWithLabel_chosenLast hpick)).mp hab
  · intro h w hw
    have hpick : ∀ l e, lastWithLabel w.processes l = some e → lastPick w.processes l = e.1 :=
      fun l e => lastPick_eq
    rw [rejectsCycle_iff, startCycle_ne_none_iff]
    constructor
    · rintro ⟨_, hcycle⟩
      exact hcycle.mono fun a b hab => ((edge_iff_pickEdge hw hpick).mp hab).union
    · intro hunion
      obtain ⟨hvalid, hchoice⟩ := h hunion
      refine ⟨hvalid, (hchoice _ (isChoice_lastPick hw)).mono fun a b hab => ?_⟩
      exact (edge_iff_pickEdge hw hpick).mpr hab

/-- Two processes under one label, of which only the first has a dependency. -/
def groupOfTwo : AssocMap ProcessId Process :=
  ((World.new.start .calm ⟨"a"⟩ { command := "/bin/a", dependsOn := [.label ⟨"b"⟩] }).2.start .calm
    ⟨"a"⟩ { command := "/bin/a" }).2.processes

/-- A process that would wait for the group. -/
def dependsOnGroup : ProcessConfig := { command := "/bin/b", dependsOn := [.label ⟨"a"⟩] }

/-- The verdict hangs on the order in which the two are visited. -/
theorem not_rejectsCycle_iff_union :
    ¬ (∀ w : World, w.processes.entries.Perm groupOfTwo.entries →
      (w.RejectsCycle .calm ⟨"b"⟩ dependsOnGroup ↔
        ReachesCycle (UnionEdge groupOfTwo ⟨"b"⟩ dependsOnGroup.dependsOn) ⟨"b"⟩)) := by
  intro h
  have hunion : ReachesCycle (UnionEdge groupOfTwo ⟨"b"⟩ dependsOnGroup.dependsOn) ⟨"b"⟩ := by
    have hab : UnionEdge groupOfTwo ⟨"b"⟩ dependsOnGroup.dependsOn ⟨"a"⟩ ⟨"b"⟩ := by
      refine .inr ⟨⟨1⟩, World.new.waitingProcess .calm ⟨1⟩ ⟨"a"⟩
        { command := "/bin/a", dependsOn := [.label ⟨"b"⟩] } [], ?_, rfl, List.mem_cons_self⟩
      decide +kernel
    exact .of_transGen (.head (.inl ⟨rfl, List.mem_cons_self⟩) (.single hab))
  have hverdict := (h { World.new with processes := groupOfTwo } (.refl _)).mpr hunion
  have hmissed : startCycle ⟨"b"⟩ dependsOnGroup { World.new with processes := groupOfTwo } = none := by
    decide +kernel
  exact (rejectsCycle_iff.mp hverdict).2 hmissed

end World

end ProcessManager
