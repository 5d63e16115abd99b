import Mathlib.Data.List.Chain
import ProcessManager.Manager.CycleCheck

/-! What the cycle check reports, and that it ends: the error is a walk from the new label
that comes back to one of its own labels, and no search runs out of fuel. -/

namespace ProcessManager

open Relation

variable {graph : DepGraph} {start current target : Label} {deps rest : List DependencyRef}
  {labels : List Label} {st st' : DfsState} {fuel : ℕ}

/-! ### The reported path -/

/-- A walk along labels from `start` that ends at a label it has met before. -/
def DepGraph.IsWalk (graph : DepGraph) (start : Label) (cycle : List DependencyRef) : Prop :=
  ∃ labels last, cycle = (labels ++ [last]).map .label ∧
    List.IsChain graph.Edge (start :: (labels ++ [last])) ∧ last ∈ start :: labels

/-- The search stands at `current`, at the end of the walk `labels`. -/
structure AtEnd (graph : DepGraph) (start current : Label) (labels : List Label) (st : DfsState) : Prop where
  chain : List.IsChain graph.Edge (start :: labels)
  last : (start :: labels).getLast (List.cons_ne_nil _ _) = current
  path : st.path = labels.map .label
  pathLabels : ∀ q ∈ st.pathLabels, q ∈ start :: labels

theorem AtEnd.mem (h : AtEnd graph start current labels st) : current ∈ start :: labels := by
  rw [← h.last]
  exact List.getLast_mem _

/-- The walk goes on to a dependency of `current`. -/
theorem AtEnd.chain_append (h : AtEnd graph start current labels st) (hedge : graph.Edge current target) :
    List.IsChain graph.Edge (start :: (labels ++ [target])) := by
  rw [← List.cons_append, List.isChain_append]
  refine ⟨h.chain, List.isChain_singleton _, fun x hx y hy => ?_⟩
  rw [List.getLast?_eq_some_getLast (List.cons_ne_nil _ _), Option.mem_some_iff, h.last] at hx
  rw [List.head?_cons, Option.mem_some_iff] at hy
  exact hx ▸ hy ▸ hedge

theorem AtEnd.push (h : AtEnd graph start current labels st) (hedge : graph.Edge current target) :
    AtEnd graph start target (labels ++ [target]) { st with path := st.path ++ [.label target] } where
  chain := h.chain_append hedge
  last := by simp
  path := by simp [h.path]
  pathLabels q hq := by
    rw [← List.cons_append]
    exact List.mem_append_left _ (h.pathLabels q hq)

/-- What a search reports: an error is a walk, and otherwise `P` holds at the end. -/
def Reported (graph : DepGraph) (start : Label) (P : DfsState → Prop) :
    Except (List DependencyRef) DfsState → Prop
  | .ok st => P st
  | .error cycle => graph.IsWalk start cycle

/-- What a nested call reports. -/
def Reports (graph : DepGraph) (start : Label) (fuel : ℕ) : Prop :=
  ∀ (l : Label) (deps : List DependencyRef) (labels : List Label) (st : DfsState),
    graph.lookup l = some deps → AtEnd graph start l labels st →
    Reported graph start (fun st' => st'.path = st.path ∧ ∀ q ∈ st'.pathLabels, q ∈ start :: labels ∧ q ≠ l ∨
      q ∈ st.pathLabels) (dfsCycle graph fuel l deps st)

/-- One dependency of `current`. -/
theorem reported_dfsVisit (ih : Reports graph start fuel) (hedge : ∀ b, .label b ∈ deps → graph.Edge current b)
    {dep : DependencyRef} (hdep : dep ∈ deps) (hend : AtEnd graph start current labels st) :
    Reported graph start (AtEnd graph start current labels) (dfsVisit graph fuel st dep) := by
  cases dep with
  | id i => exact hend
  | label target =>
    have htarget := hedge target hdep
    simp only [dfsVisit]
    split_ifs with honpath hvisited
    · -- the last label is already on the walk
      refine ⟨labels, target, ?_, hend.chain_append htarget, hend.pathLabels target honpath⟩
      rw [hend.path, List.map_append, List.map_singleton]
    · exact hend
    · have hpush := hend.push htarget
      have hback : ∀ st' : DfsState, st'.path = st.path ++ [.label target] →
          (∀ q ∈ st'.pathLabels, q ∈ start :: labels) →
          AtEnd graph start current labels { st' with path := st'.path.dropLast } := by
        intro st' hpath hlabels
        refine ⟨hend.chain, hend.last, ?_, hlabels⟩
        show st'.path.dropLast = labels.map .label
        rw [hpath, List.dropLast_concat, hend.path]
      cases hlookup : graph.lookup target with
      | none => exact hback _ rfl hend.pathLabels
      | some targetDeps =>
        have hnested := ih target targetDeps _ _ hlookup hpush
        cases hresult : dfsCycle graph fuel target targetDeps
            { st with path := st.path ++ [.label target] } with
        | error cycle =>
          rw [hresult] at hnested
          simp only [hresult]
          exact hnested
        | ok st' =>
          rw [hresult] at hnested
          obtain ⟨hpath, hlabels⟩ := hnested
          simp only [hresult]
          refine hback st' hpath fun q hq => ?_
          rcases hlabels q hq with ⟨hmem, hne⟩ | hmem
          · rw [← List.cons_append, List.mem_append, List.mem_singleton] at hmem
            exact hmem.resolve_right hne
          · exact hend.pathLabels q hmem

/-- The loop over the dependencies of `current`. -/
theorem reported_foldlM (ih : Reports graph start fuel) (hedge : ∀ b, .label b ∈ deps → graph.Edge current b)
    (hrest : rest ⊆ deps) (hend : AtEnd graph start current labels st) :
    Reported graph start (AtEnd graph start current labels) (rest.foldlM (dfsVisit graph fuel) st) := by
  induction rest generalizing st with
  | nil => exact hend
  | cons dep rest ihrest =>
    obtain ⟨hdep, hrest⟩ := List.cons_subset.mp hrest
    have hvisit := reported_dfsVisit ih hedge hdep hend
    rw [List.foldlM_cons]
    cases hresult : dfsVisit graph fuel st dep with
    | error cycle => rw [hresult] at hvisit; exact hvisit
    | ok st₁ => rw [hresult] at hvisit; exact ihrest hrest hvisit

theorem reports (graph : DepGraph) (start : Label) (fuel : ℕ) : Reports graph start fuel := by
  induction fuel with
  | zero => exact fun l deps labels st _ _ => ⟨rfl, fun q hq => .inr hq⟩
  | succ fuel ih =>
    intro l deps labels st hlookup hend
    have hedge : ∀ b, .label b ∈ deps → graph.Edge l b := fun b hb => ⟨deps, hlookup, hb⟩
    have hend' : AtEnd graph start l labels { st with pathLabels := l :: st.pathLabels } :=
      ⟨hend.chain, hend.last, hend.path, List.forall_mem_cons.mpr ⟨hend.mem, hend.pathLabels⟩⟩
    have hloop := reported_foldlM ih hedge (List.Subset.refl deps) hend'
    rw [dfsCycle_succ]
    cases hresult : deps.foldlM (dfsVisit graph fuel) { st with pathLabels := l :: st.pathLabels } with
    | error cycle => rw [hresult] at hloop; exact hloop
    | ok st' =>
      rw [hresult] at hloop
      refine ⟨hloop.path.trans hend.path.symm, fun q hq => .inl ?_⟩
      obtain ⟨hmem, hne⟩ := List.mem_filter.mp hq
      exact ⟨hloop.pathLabels q hmem, by simpa using hne⟩

/-! ### Fuel -/

/-- Where the search may stop early: the labels on the path are distinct labels of the graph,
and the fuel covers the others. -/
structure Fuelled (graph : DepGraph) (fuel : ℕ) (st : DfsState) : Prop where
  inv : DfsInv graph st
  enough : graph.keys.length ≤ fuel + st.pathLabels.length

/-- A search with enough fuel does not notice more. -/
def FuelSuffices (graph : DepGraph) (fuel : ℕ) : Prop :=
  ∀ (l : Label) (deps : List DependencyRef) (st : DfsState), graph.lookup l = some deps →
    l ∉ st.pathLabels → LeadsTo graph st l → Fuelled graph fuel st →
    dfsCycle graph (fuel + 1) l deps st = dfsCycle graph fuel l deps st

theorem fuelSuffices_visit (ih : FuelSuffices graph fuel)
    (hedge : ∀ b, .label b ∈ deps → graph.Edge current b) {dep : DependencyRef} (hdep : dep ∈ deps)
    (hleads : LeadsTo graph st current) (hfuel : Fuelled graph fuel st) :
    dfsVisit graph (fuel + 1) st dep = dfsVisit graph fuel st dep := by
  cases dep with
  | id i => rfl
  | label target =>
    simp only [dfsVisit]
    split_ifs with honpath hvisited
    · rfl
    · rfl
    · cases hlookup : graph.lookup target with
      | none => rfl
      | some targetDeps =>
        have hsame := ih target targetDeps { st with path := st.path ++ [.label target] } hlookup honpath
          (fun q hq => (hleads q hq).tail (hedge target hdep))
          ⟨⟨hfuel.inv.nodup, hfuel.inv.keys, hfuel.inv.visited⟩, hfuel.enough⟩
        simp only [hsame]

theorem fuelSuffices_foldlM (ih : FuelSuffices graph fuel)
    (hedge : ∀ b, .label b ∈ deps → graph.Edge current b) (hrest : rest ⊆ deps)
    (hleads : LeadsTo graph st current) (hfuel : Fuelled graph fuel st) :
    rest.foldlM (dfsVisit graph (fuel + 1)) st = rest.foldlM (dfsVisit graph fuel) st := by
  induction rest generalizing st with
  | nil => rfl
  | cons dep rest ihrest =>
    obtain ⟨hdep, hrest⟩ := List.cons_subset.mp hrest
    have hvisit := explored_dfsVisit (explores graph fuel) hedge hdep hfuel.inv hleads hfuel.enough
    rw [List.foldlM_cons, List.foldlM_cons, fuelSuffices_visit ih hedge hdep hleads hfuel]
    cases hresult : dfsVisit graph fuel st dep with
    | error cycle => rfl
    | ok st₁ =>
      rw [hresult] at hvisit
      obtain ⟨hsame, hinv, _⟩ := hvisit
      exact ihrest hrest (fun q hq => hleads q (hsame ▸ hq)) ⟨hinv, hsame ▸ hfuel.enough⟩

theorem fuelSuffices (graph : DepGraph) (fuel : ℕ) : FuelSuffices graph fuel := by
  induction fuel with
  | zero =>
    intro l deps st hlookup hfresh _ hfuel
    have hlength := hfuel.inv.length_lt hlookup hfresh
    have hle := hfuel.enough
    omega
  | succ fuel ih =>
    intro l deps st hlookup hfresh hleads hfuel
    have hloop : deps.foldlM (dfsVisit graph (fuel + 1)) { st with pathLabels := l :: st.pathLabels } =
        deps.foldlM (dfsVisit graph fuel) { st with pathLabels := l :: st.pathLabels } := by
      refine fuelSuffices_foldlM ih (fun b hb => ⟨deps, hlookup, hb⟩) (List.Subset.refl deps)
        (List.forall_mem_cons.mpr ⟨.refl, hleads⟩) ⟨⟨?_, ?_, hfuel.inv.visited⟩, ?_⟩
      · exact List.nodup_cons.mpr ⟨hfresh, hfuel.inv.nodup⟩
      · exact List.cons_subset.mpr ⟨AssocMap.mem_of_lookup hlookup, hfuel.inv.keys⟩
      · have hle := hfuel.enough
        rw [List.length_cons]
        omega
    rw [dfsCycle_succ, dfsCycle_succ, hloop]

/-- The bound of `detectCycle` is enough. -/
theorem dfsCycle_fuel (h : graph.lookup start = some deps) (fuel : ℕ) (hfuel : graph.keys.length ≤ fuel) :
    dfsCycle graph fuel start deps ⟨[], [], []⟩ =
      dfsCycle graph (graph.keys.length + 1) start deps ⟨[], [], []⟩ := by
  have hinv : DfsInv graph ⟨[], [], []⟩ :=
    ⟨List.nodup_nil, List.nil_subset _, fun l hl => absurd hl List.not_mem_nil⟩
  have hstep : ∀ n, graph.keys.length ≤ n → dfsCycle graph (n + 1) start deps ⟨[], [], []⟩ =
      dfsCycle graph n start deps ⟨[], [], []⟩ := fun n hn =>
    fuelSuffices graph n start deps ⟨[], [], []⟩ h List.not_mem_nil
      (fun q hq => absurd hq List.not_mem_nil) ⟨hinv, hn⟩
  induction fuel, hfuel using Nat.le_induction with
  | base => exact (hstep _ le_rfl).symm
  | succ n hn ih => exact (hstep n hn).trans ih

/-- The cycle check ends on every finite graph; it reports a cycle exactly when one can be
reached from the new label; and what it reports is a walk that comes back to itself. -/
theorem detectCycle_spec (h : graph.lookup start = some deps) :
    (∀ fuel, graph.keys.length ≤ fuel → dfsCycle graph fuel start deps ⟨[], [], []⟩ =
        dfsCycle graph (graph.keys.length + 1) start deps ⟨[], [], []⟩) ∧
      (detectCycle graph start deps ≠ none ↔ ReachesCycle graph.Edge start) ∧
      ∀ cycle, detectCycle graph start deps = some cycle → graph.IsWalk start cycle := by
  refine ⟨dfsCycle_fuel h, detectCycle_ne_none_iff h, fun cycle hcycle => ?_⟩
  have hend : AtEnd graph start start [] ⟨[], [], []⟩ :=
    ⟨List.isChain_singleton _, rfl, rfl, fun q hq => absurd hq List.not_mem_nil⟩
  have hreport := reports graph start (graph.keys.length + 1) start deps [] ⟨[], [], []⟩ h hend
  unfold detectCycle at hcycle
  split at hcycle
  · cases hcycle
  · next hresult =>
    cases hcycle
    rw [hresult] at hreport
    exact hreport

/-- `a` needs `b`, which needs a missing label, an id, and itself through `c`. -/
def cyclicGraph : DepGraph where
  entries := [⟨⟨"a"⟩, [.label ⟨"b"⟩]⟩, ⟨⟨"b"⟩, [.label ⟨"none"⟩, .id ⟨7⟩, .label ⟨"c"⟩]⟩, ⟨⟨"c"⟩, [.label ⟨"b"⟩]⟩]
  nodupKeys := by unfold List.NodupKeys; decide

theorem detectCycle_spec_cyclicGraph :
    (∀ fuel, 3 ≤ fuel → dfsCycle cyclicGraph fuel ⟨"a"⟩ [.label ⟨"b"⟩] ⟨[], [], []⟩ =
        dfsCycle cyclicGraph 4 ⟨"a"⟩ [.label ⟨"b"⟩] ⟨[], [], []⟩) ∧
      ReachesCycle cyclicGraph.Edge ⟨"a"⟩ ∧
      cyclicGraph.IsWalk ⟨"a"⟩ [.label ⟨"b"⟩, .label ⟨"c"⟩, .label ⟨"b"⟩] := by
  have hstart : cyclicGraph.lookup ⟨"a"⟩ = some [.label ⟨"b"⟩] := by decide +kernel
  have hresult : detectCycle cyclicGraph ⟨"a"⟩ [.label ⟨"b"⟩] =
      some [.label ⟨"b"⟩, .label ⟨"c"⟩, .label ⟨"b"⟩] := by decide +kernel
  obtain ⟨hfuel, hreaches, hwalk⟩ := detectCycle_spec hstart
  exact ⟨hfuel, hreaches.mp (by rw [hresult]; exact nofun), hwalk _ hresult⟩

end ProcessManager
