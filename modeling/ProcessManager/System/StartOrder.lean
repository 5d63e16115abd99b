import ProcessManager.Manager.WaitFor
import ProcessManager.System.Readiness

/-! Sequences of starts, and whether the processes they track wait for each other. -/

namespace ProcessManager

open Relation

variable {env : Env} {w : World} {label : Label} {config : ProcessConfig}

namespace World

/-- A call of `start`, on the world only. -/
def startCall (env : Env) (w : World) (call : Label × ProcessConfig) : World :=
  (w.start env call.1 call.2).2

/-- After an `Ok` no process waits for itself, and a valid call that would make one do so is
rejected as a cycle. -/
def StartsAcyclic (env : Env) (w : World) (call : Label × ProcessConfig) : Prop :=
  ((∃ id, (w.start env call.1 call.2).1 = .ok id) → Acyclic (WaitsFor (w.startCall env call).nodes)) ∧
    (call.2.validate = true → ¬ Acyclic (WaitsFor (w.nodesWith ⟨w.nextId⟩ call.1 call.2)) →
      w.RejectsCycle env call.1 call.2)

/-- If the new process closes a cycle, `Label` entries alone close one. -/
def ClosesByLabel (w : World) (call : Label × ProcessConfig) : Prop :=
  call.2.validate = true → ¬ Acyclic (WaitsFor (w.nodesWith ⟨w.nextId⟩ call.1 call.2)) →
    ¬ Acyclic (WaitsForLabel (w.nodesWith ⟨w.nextId⟩ call.1 call.2))

/-- Calls with the given labels can follow. -/
structure StartsFrom (labels : List Label) (w : World) : Prop where
  nodup : labels.Nodup
  unused : ∀ l ∈ labels, Unused w.nodes l
  distinct : Distinct w.nodes
  sound : Sound w
  acyclic : Acyclic (WaitsFor w.nodes)

theorem StartsFrom.fresh {labels : List Label} (h : StartsFrom labels w) : w.nodes ⟨w.nextId⟩ = none := by
  by_contra hsome
  obtain ⟨⟨l, deps⟩, hnode⟩ := Option.ne_none_iff_exists'.mp hsome
  obtain ⟨p, hp, _⟩ := nodes_eq_some.mp hnode
  exact lt_irrefl _ (h.sound.below _ p hp)

/-- The check passes exactly when `Label` entries alone close no cycle. -/
theorem StartsFrom.startCycle_eq_none_iff {labels : List Label} (h : StartsFrom (label :: labels) w) :
    w.startCycle label config = none ↔ Acyclic (WaitsForLabel (w.nodesWith ⟨w.nextId⟩ label config)) := by
  have hunused := h.unused label List.mem_cons_self
  have hold : Acyclic (LabelEdge w.nodes) :=
    (acyclic_waitsForLabel_iff h.distinct).mp (h.acyclic.mono fun _ _ => WaitsForLabel.waitsFor)
  rw [World.startCycle_eq_none_iff h.distinct hunused h.fresh hold]
  exact (acyclic_waitsForLabel_iff (h.distinct.update hunused)).symm

theorem StartsFrom.startsAcyclic_iff {labels : List Label} {call : Label × ProcessConfig}
    (h : StartsFrom (call.1 :: labels) w) : w.StartsAcyclic env call ↔ w.ClosesByLabel call := by
  obtain ⟨label, config⟩ := call
  have hcheck : w.startCycle label config = none ↔ _ := h.startCycle_eq_none_iff
  constructor
  · rintro ⟨_, hreject⟩ hvalid hcycle
    have hrejected := rejectsCycle_iff.mp (hreject hvalid hcycle)
    exact fun hlabels => hrejected.2 (hcheck.mpr hlabels)
  · intro hclose
    refine ⟨fun ⟨id, hok⟩ => ?_, fun hvalid hcycle => ?_⟩
    · obtain ⟨rfl, hpassed, hnodes⟩ := (nodes_start env label config w).1 id hok
      have hvalid : config.validate = true := by
        by_contra hinvalid
        rw [start, if_pos (by simpa using hinvalid)] at hok
        cases hok
      by_contra hcycle
      unfold startCall at hcycle
      rw [hnodes] at hcycle
      exact hclose hvalid hcycle (hcheck.mp hpassed)
    · exact rejectsCycle_iff.mpr ⟨hvalid, fun hpassed => hclose hvalid hcycle (hcheck.mp hpassed)⟩

/-- A start keeps the labels apart; the rest is what it promises. -/
theorem StartsFrom.next {labels : List Label} {call : Label × ProcessConfig}
    (h : StartsFrom (call.1 :: labels) w) (hstart : w.StartsAcyclic env call) :
    StartsFrom labels (w.startCall env call) := by
  obtain ⟨label, config⟩ := call
  obtain ⟨hfresh, hnodup⟩ := List.nodup_cons.mp h.nodup
  have hunused : ∀ l ∈ labels, Unused w.nodes l := fun l hl => h.unused l (List.mem_cons_of_mem _ hl)
  cases hresult : (w.start env label config).1 with
  | error e =>
    have hnodes : (w.startCall env (label, config)).nodes = w.nodes := (nodes_start env label config w).2 e hresult
    exact {
      nodup := hnodup
      unused := hnodes ▸ hunused
      distinct := hnodes ▸ h.distinct
      sound := h.sound.start
      acyclic := hnodes ▸ h.acyclic }
  | ok id =>
    obtain ⟨_, _, hnodes⟩ := (nodes_start env label config w).1 id hresult
    have hnodes' : (w.startCall env (label, config)).nodes = w.nodesWith ⟨w.nextId⟩ label config := hnodes
    exact {
      nodup := hnodup
      unused := fun l hl => hnodes' ▸ (hunused l hl).update (by rintro rfl; exact hfresh hl)
      distinct := hnodes' ▸ h.distinct.update (h.unused label List.mem_cons_self)
      sound := h.sound.start
      acyclic := hstart.1 ⟨id, hresult⟩ }

/-- From a new manager on, starts of distinct labels keep the wait-for relation acyclic, and
reject what would close a cycle, if and only if no cycle needs an `Id` entry. -/
theorem starts_acyclic_iff (env : Env) (hw : w = .new ∨ w = .withReaper)
    (calls : List (Label × ProcessConfig)) (hlabels : (calls.map Prod.fst).Nodup) :
    Fold.Meets (StartsAcyclic env) (startCall env) calls w ↔
      Fold.Meets ClosesByLabel (startCall env) calls w := by
  refine Fold.meets_iff_of_invariant (I := fun calls w => StartsFrom (calls.map Prod.fst) w)
    (fun call calls w h => h.startsAcyclic_iff) (fun call calls w h hstart => h.next hstart) calls w ?_
  have hempty : w.nodes = fun _ => none := by rcases hw with rfl | rfl <;> rfl
  refine ⟨hlabels, ?_, ?_, ?_, ?_⟩
  · intro l _ i deps hi
    rw [hempty] at hi
    cases hi
  · intro i j l deps deps' hi
    rw [hempty] at hi
    cases hi
  · rcases hw with rfl | rfl
    · exact System.sound_run env 0 (.inl rfl) []
    · exact System.sound_run env 0 (.inr rfl) []
  · intro i hi
    obtain ⟨j, ⟨l, deps, _, _, hl, _⟩, _⟩ := TransGen.head'_iff.mp hi
    rw [hempty] at hl
    cases hl

/-- Each of two processes names the other by its label. -/
def labelCycle : List (Label × ProcessConfig) :=
  [(⟨"a"⟩, { command := "/bin/a", dependsOn := [.label ⟨"b"⟩] }),
    (⟨"b"⟩, { command := "/bin/b", dependsOn := [.label ⟨"a"⟩] })]

theorem starts_acyclic_labelCycle : Fold.Meets (StartsAcyclic .calm) (startCall .calm) labelCycle .withReaper := by
  refine (starts_acyclic_iff .calm (.inr rfl) labelCycle (by decide)).mpr ⟨?_, ?_, trivial⟩
  · intro _ hcycle
    refine absurd (fun i hi => ?_) hcycle
    obtain ⟨j, ⟨l, deps, m, deps', hi', hj, hwaits⟩, _⟩ := TransGen.head'_iff.mp hi
    have hempty : ∀ k, withReaper.nodes k = none := fun _ => rfl
    simp only [nodesWith, Function.update_apply, hempty] at hi' hj
    split_ifs at hi' hj
    cases hi'
    cases hj
    simp at hwaits
  · intro _ _ hacyclic
    refine hacyclic ⟨1⟩ (.head (b := ⟨2⟩) ?_ (.single ?_)) <;>
      exact ⟨_, _, _, _, rfl, rfl, List.mem_cons_self⟩

/-- The second process names the first by its id, and the first the second by its label. -/
def idCycle : List (Label × ProcessConfig) :=
  [(⟨"a"⟩, { command := "/bin/a", dependsOn := [.label ⟨"b"⟩] }),
    (⟨"b"⟩, { command := "/bin/b", dependsOn := [.id ⟨1⟩] })]

/-- Both starts succeed, and the processes wait for each other. -/
theorem not_starts_acyclic_idCycle :
    ¬ Fold.Meets (StartsAcyclic .calm) (startCall .calm) idCycle .withReaper := by
  rintro ⟨_, ⟨hacyclic, _⟩, _⟩
  refine hacyclic ⟨⟨2⟩, rfl⟩ ⟨1⟩ (.head (b := ⟨2⟩) ?_ (.single ?_))
  · exact ⟨_, _, _, _, rfl, rfl, .inl List.mem_cons_self⟩
  · exact ⟨_, _, _, _, rfl, rfl, .inr List.mem_cons_self⟩

end World

end ProcessManager
