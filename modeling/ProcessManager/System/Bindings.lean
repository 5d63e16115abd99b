import ProcessManager.System.Accounting
import ProcessManager.Reaper.Cascade

/-! What each section of the code does to the bound ids of an entry. A process keeps them,
and no second process is bound to a label that was bound before, as long as the bound processes
are still the first ones of their labels when `perform_restart` searches, and the search of Phase 5
has no label to look for whose process is gone. -/

namespace ProcessManager

variable {env : Env} {pollInterval : ℕ} {now : Instant} {names : ProcessId → Label → Prop}
  {w w' w'' : World} {id : ProcessId} {p p' p'' : Process}

/-! ### The bound ids of one entry -/

namespace Process

/-- Nothing is bound yet, or every dependency by id is. -/
def IdsBound (p : Process) : Prop :=
  p.resolvedDeps = [] ∨ ∀ j, .id j ∈ p.config.dependsOn → j ∈ p.resolvedDeps

/-- The bound ids stay, and no other id of a label that was bound is added; `names` are
the labels that ids are known to have. -/
structure Keeps (names : ProcessId → Label → Prop) (p p' : Process) : Prop where
  config : p'.config = p.config
  label : p'.label = p.label
  ids : p.IdsBound → p'.IdsBound
  kept : p.resolvedDeps ⊆ p'.resolvedDeps
  unique : ∀ l, .label l ∈ p.config.dependsOn → ∀ i ∈ p.resolvedDeps, names i l →
    ∀ j ∈ p'.resolvedDeps, names j l → j ∈ p.resolvedDeps

namespace Keeps

/-- A change that leaves the bound ids as they are. -/
theorem of_eq (hconfig : p'.config = p.config) (hlabel : p'.label = p.label)
    (hdeps : p'.resolvedDeps = p.resolvedDeps) : p.Keeps names p' where
  config := hconfig
  label := hlabel
  ids h := by
    unfold IdsBound
    rwa [hdeps, hconfig]
  kept := hdeps ▸ List.Subset.refl _
  unique _ _ _ _ _ j hj _ := hdeps ▸ hj

theorem refl (p : Process) : p.Keeps names p := of_eq rfl rfl rfl

theorem trans (h : p.Keeps names p') (h' : p'.Keeps names p'') : p.Keeps names p'' where
  config := h'.config.trans h.config
  label := h'.label.trans h.label
  ids hp := h'.ids (h.ids hp)
  kept := List.Subset.trans h.kept h'.kept
  unique l hl i hi hil j hj hjl :=
    h.unique l hl i hi hil j (h'.unique l (h.config.symm ▸ hl) i (h.kept hi) hil j hj hjl) hjl

theorem of_polled (h : Polled id p p') : p.Keeps names p' := by
  obtain rfl | ⟨_, s, _, rfl⟩ := h
  · exact .refl p'
  · exact .of_eq rfl rfl rfl

theorem of_kept (h : Kept id p p') : p.Keeps names p' := by
  obtain rfl := h
  exact .refl p'

theorem of_visited (h : p.Visited now p') : p.Keeps names p' := by
  obtain rfl | rfl | rfl := h
  · exact .refl p'
  · exact .of_eq (by simp [afterExit]) (by simp [afterExit]) (by simp [afterExit])
  · unfold afterPoll
    split_ifs <;> exact .of_eq (by simp) (by simp) (by simp)

/-- Nothing was bound, or the same ids are. -/
theorem rebind {resolved : List ProcessId} (h : p.resolvedDeps ≠ [] → ∀ i, i ∈ resolved ↔ i ∈ p.resolvedDeps)
    (hids : resolved = [] ∨ ∀ j, .id j ∈ p.config.dependsOn → j ∈ resolved) :
    p.Keeps names { p with resolvedDeps := resolved } where
  config := rfl
  label := rfl
  ids _ := hids
  kept i hi := (h (List.ne_nil_of_mem hi) i).mpr hi
  unique _ _ _ hi _ j hj _ := (h (List.ne_nil_of_mem hi) j).mp hj

end Keeps

end Process

/-! ### What a dependency stands for -/

namespace DependencyRef

/-- The process of the id, or the first one with the label that is `Running` or `Starting`. -/
def StandsFor (m : AssocMap ProcessId Process) : DependencyRef → ProcessId → Prop
  | .id j, i => j = i
  | .label l, i => m.IsFirst (isResolvable l) i

instance (m : AssocMap ProcessId Process) : ∀ (dep : DependencyRef) (i : ProcessId), Decidable (dep.StandsFor m i)
  | .id j, i => inferInstanceAs (Decidable (j = i))
  | .label l, i => inferInstanceAs (Decidable (m.IsFirst (isResolvable l) i))

theorem StandsFor.unique {m : AssocMap ProcessId Process} {dep : DependencyRef} {i j : ProcessId}
    (hi : dep.StandsFor m i) (hj : dep.StandsFor m j) : i = j := by
  cases dep with
  | id k => exact Eq.trans (Eq.symm hi) hj
  | label l => exact Option.some.inj (hi.findKey.symm.trans hj.findKey)

end DependencyRef

theorem resolveDependencies_of_standsFor {m : AssocMap ProcessId Process} {deps : List DependencyRef}
    (h : ∀ dep ∈ deps, ∃ i, dep.StandsFor m i) : ∃ ids, resolveDependencies m deps = .ok ids ∧
      ∀ i, i ∈ ids ↔ ∃ dep ∈ deps, dep.StandsFor m i := by
  induction deps with
  | nil => exact ⟨[], rfl, by simp⟩
  | cons dep deps ih =>
    obtain ⟨ids, hids, hmem⟩ := ih fun d hd => h d (List.mem_cons_of_mem _ hd)
    obtain ⟨j, hj⟩ := h dep List.mem_cons_self
    have hstands : ∀ i, dep.StandsFor m i ↔ i = j := fun i => ⟨fun hi => hi.unique hj, fun hi => hi ▸ hj⟩
    refine ⟨j :: ids, ?_, fun i => by simp [hmem, hstands]⟩
    cases dep with
    | id k =>
      obtain rfl : k = j := hj
      simp [resolveDependencies, hids]
    | label l => simp [resolveDependencies, hj.findKey, hids]

/-- Where the bound processes stand for the dependencies, the search finds them. -/
theorem mem_resolvedOrDefault {m : AssocMap ProcessId Process} {deps : List DependencyRef} {bound : List ProcessId}
    (hdeps : ∀ dep ∈ deps, ∃ i ∈ bound, dep.StandsFor m i) (hbound : ∀ i ∈ bound, ∃ dep ∈ deps, dep.StandsFor m i)
    (i : ProcessId) : i ∈ resolvedOrDefault m deps ↔ i ∈ bound := by
  obtain ⟨ids, hids, hmem⟩ := resolveDependencies_of_standsFor fun dep hdep => (hdeps dep hdep).imp fun _ h => h.2
  rw [resolvedOrDefault, hids, hmem]
  refine ⟨fun ⟨dep, hdep, hi⟩ => ?_, hbound i⟩
  obtain ⟨j, hj, hstands⟩ := hdeps dep hdep
  exact hi.unique hstands ▸ hj

namespace World

/-- Every entry was there before and keeps its bindings. -/
abbrev Carries (names : ProcessId → Label → Prop) (w w' : World) : Prop :=
  AssocMap.Refines (fun _ => Process.Keeps names) w.processes w'.processes

namespace Carries

theorem refl (w : World) : Carries names w w := AssocMap.Refines.refl (fun _ p => .refl p) _

theorem trans (h : Carries names w w') (h' : Carries names w' w'') : Carries names w w'' :=
  AssocMap.Refines.trans (fun _ _ _ _ => .trans) h h'

theorem of_refines {R : ProcessId → Process → Process → Prop}
    (h : AssocMap.Refines R w.processes w'.processes) (hR : ∀ i q q', R i q q' → q.Keeps names q') :
    Carries names w w' := h.mono hR

theorem of_processes (h : w'.processes = w.processes) : Carries names w w' := by
  unfold Carries
  rw [h]
  exact refl w

theorem put (hmap : w'.processes = w.processes)
    (h : ∀ q, w.processes.lookup id = some q → q.Keeps names p) : Carries names w (w'.put id p) := by
  rw [Carries, put_processes, hmap]
  exact .replace_of (fun _ q => .refl q) h

theorem put_lookup (hp : w.processes.lookup id = some p) (hmap : w'.processes = w.processes)
    (h : p.Keeps names p') : Carries names w (w'.put id p') :=
  put hmap fun _ hq => Option.some.inj (hp.symm.trans hq) ▸ h

theorem foldl {α : Type*} {f : World → α → World} (h : ∀ w a, Carries names w (f w a)) (l : List α)
    (w : World) : Carries names w (l.foldl f w) :=
  Fold.foldl_rel .refl (fun _ _ _ => .trans) h l w

theorem ifRunning {f : World → World} (h : ∀ w, Carries names w (f w)) (w : World) :
    Carries names w (w.ifRunning f) :=
  ifRunning_invariant (.refl w) fun _ => h w

end Carries

/-! ### Phases 1 to 3 -/

theorem carries_passDetect (pollInterval : ℕ) (hkey : ∀ i q, w.processes.lookup i = some q → q.id = i) :
    Carries names w (w.passDetect env pollInterval).2.2 := by
  have hdetect : Carries names w (w.detect env pollInterval).2 := by
    intro i q hq
    obtain ⟨p, hp, hvisited⟩ := (phase1State_detect env pollInterval hkey).visited i q hq
    exact ⟨p, hp, .of_visited hvisited⟩
  have hcascade : Carries names (w.detect env pollInterval).2 (w.cascade env pollInterval) := by
    intro i q hq
    rw [cascade, (killed_phase1b env _ _).lookup i, Option.map_eq_some_iff] at hq
    obtain ⟨p, hp, rfl⟩ := hq
    refine ⟨p, hp, ?_⟩
    split_ifs
    · exact .of_eq rfl rfl rfl
    · exact .refl p
  exact (hdetect.trans hcascade).trans (.of_refines
    (mapStep_passDetect (P := fun _ => True) env pollInterval w).processes fun _ _ _ => .of_kept)

theorem carries_scheduleEntry (e : ExitedProcess) (w : World) :
    Carries names w (scheduleEntry env now e w) := by
  obtain ⟨heq, _⟩ | ⟨heq, _⟩ | ⟨config, label, p, w', _, hp, hstep, hcases⟩ :=
    scheduleEntry_cases (P := fun _ => True) env now e w
  · rw [heq]; exact .refl w
  · rw [heq]; exact .of_processes rfl
  · obtain ⟨_, heq⟩ | ⟨rs, rs', _, _, heq⟩ | ⟨rs, _, _, heq⟩ := hcases <;> rw [heq] <;>
      exact .put_lookup hp hstep.processes (.of_eq rfl rfl rfl)

theorem carries_afterPhase3 (pollInterval : ℕ) (hkey : ∀ i q, w.processes.lookup i = some q → q.id = i) :
    Carries names w (w.afterPhase3 env pollInterval) :=
  (carries_passDetect pollInterval hkey).trans
    (.ifRunning (fun w' => .foldl (fun w e => .ifRunning (carries_scheduleEntry e) w) _ w') _)

/-! ### Phase 4 -/

/-- The bound processes still stand for the dependencies of the process, if any are bound: every
dependency by id is bound, and of every label the bound process is the first one in the map, in
iteration order, that is `Running` or `Starting`. -/
def RestartKeeps (id : ProcessId) (w : World) : Prop :=
  ∀ p, w.processes.lookup id = some p → p.resolvedDeps ≠ [] →
    (∀ dep ∈ p.config.dependsOn, ∃ i ∈ p.resolvedDeps, dep.StandsFor w.processes i) ∧
      ∀ i ∈ p.resolvedDeps, ∃ dep ∈ p.config.dependsOn, dep.StandsFor w.processes i

instance (id : ProcessId) (w : World) : Decidable (RestartKeeps id w) :=
  inferInstanceAs (Decidable (∀ p ∈ w.processes.lookup id, p.resolvedDeps ≠ [] → _ ∧ _))

theorem idsBound_resolved (processes : AssocMap ProcessId Process) (deps : List DependencyRef) :
    resolvedOrDefault processes deps = [] ∨
      ∀ j, .id j ∈ deps → j ∈ resolvedOrDefault processes deps := by
  refine (resolvedOrDefault_cases processes deps).imp_right fun hbinds j hj => ?_
  obtain ⟨i, hi, hb⟩ := exists_binds hbinds hj
  cases hb
  exact hi

theorem carries_failSpawn (id : ProcessId) (p : Process) (w : World) :
    Carries names w (w.failSpawn env id p) :=
  .of_refines (mapStep_failSpawn (P := fun _ => True) id p w).processes fun _ _ _ => .of_kept

theorem carries_respawn (h : ∀ q, w.processes.lookup id = some q → q.Keeps names p) :
    Carries names w (w.respawn env id p) := by
  obtain ⟨w', hstep, heq⟩ | ⟨w', now, hspawn, heq⟩ :=
    respawn_cases (P := fun _ => True) env id p w <;> rw [heq]
  · exact (Carries.of_processes hstep.processes).trans (carries_failSpawn id p w')
  · exact .put hspawn.processes fun q hq => (h q hq).trans (.of_eq rfl rfl rfl)

theorem carries_restartToWaiting {resolved : List ProcessId}
    (h : ∀ q, w.processes.lookup id = some q → q.Keeps names { p with resolvedDeps := resolved }) :
    Carries names w (w.restartToWaiting env id p resolved) :=
  .put rfl fun q hq => (h q hq).trans (.of_eq rfl rfl rfl)

theorem carries_allDepsRunning (deps : List ProcessId) (w : World) :
    Carries names w (w.allDepsRunning env deps).2 :=
  .of_refines (mapStep_allDepsRunning env (P := fun _ => True) deps w).processes fun _ _ _ => .of_polled

theorem carries_performRestart (h : RestartKeeps id w) : Carries names w (w.performRestart env id) := by
  obtain ⟨_, heq⟩ | ⟨p, hp, ⟨_, heq⟩ | ⟨w₁, resolved, rfl, rfl, hcases⟩⟩ := performRestart_cases env id w
  · rw [heq]; exact .of_processes rfl
  · rw [heq]
    exact carries_respawn (w := w.lock .exclusive id) fun q hq =>
      Option.some.inj (hp.symm.trans hq) ▸ .refl p
  · set resolved := resolvedOrDefault w.processes p.config.dependsOn
    have hrebind : ∀ q, w.processes.lookup id = some q →
        q.Keeps names { p with resolvedDeps := resolved } := by
      intro q hq
      obtain rfl : p = q := Option.some.inj (hp.symm.trans hq)
      refine .rebind (fun hne => ?_) (idsBound_resolved w.processes p.config.dependsOn)
      obtain ⟨hdeps, hbound⟩ := h p hp hne
      exact mem_resolvedOrDefault hdeps hbound
    set w₁ := (w.lock .exclusive id).touch .shared (resolveVisits w.processes p.config.dependsOn)
    have hpolled := mapStep_allDepsRunning env (P := fun _ => True) resolved w₁
    -- polling changes nothing but states
    have hrebind' : ∀ q, (w₁.allDepsRunning env resolved).2.processes.lookup id = some q →
        q.Keeps names { p with resolvedDeps := resolved } := by
      intro q hq
      obtain ⟨q₀, hq₀, hpoll⟩ := hpolled.processes id q hq
      have hkeeps := hrebind q₀ hq₀
      obtain rfl | ⟨_, s, _, rfl⟩ := hpoll
      · exact hkeeps
      · exact { hkeeps with }
    have hcarries : Carries names w (w₁.allDepsRunning env resolved).2 := carries_allDepsRunning resolved w₁
    obtain ⟨_, _, heq⟩ | heq | heq := hcases <;> rw [heq]
    · exact hcarries.trans (carries_respawn hrebind')
    · exact hcarries.trans (carries_restartToWaiting hrebind')
    · exact carries_restartToWaiting (w := w₁) hrebind

/-- The bound processes stand for the dependencies at every restart of Phase 4. -/
def RestartsKeep (env : Env) (now : Instant) (w : World) : Prop :=
  Fold.Meets (fun w id => RestartKeeps id w) (fun w id => w.performRestart env id) (w.restartIds now)
    (w.touch .shared w.processes.keys)

instance (env : Env) (now : Instant) (w : World) : Decidable (RestartsKeep env now w) :=
  Fold.decidableMeets _ _

theorem carries_phase4 (h : RestartsKeep env now w) : Carries names w (w.phase4 env now) :=
  Fold.invariant (I := fun w' => Carries names w w')
    (fun _ _ hw hkeeps => hw.trans (carries_performRestart hkeeps)) _ _ (.refl w) h

/-! ### Phases 5 and 6 -/

/-- A tracked id has the label it is known for. -/
def Agrees (names : ProcessId → Label → Prop) (m : AssocMap ProcessId Process) : Prop :=
  ∀ i q l, m.lookup i = some q → names i l → q.label = l

theorem Agrees.carries (h : Agrees names w.processes) (hcarries : Carries names w w') :
    Agrees names w'.processes := by
  intro i q' l hq' hl
  obtain ⟨q, hq, hkeeps⟩ := hcarries i q' hq'
  exact hkeeps.label.trans (h i q l hq hl)

/-- No `Running` process has a label that the process waits for and whose bound process is
gone. -/
def ExamineKeeps (names : ProcessId → Label → Prop) (p : Process) (m : AssocMap ProcessId Process) : Prop :=
  p.resolvedDeps.length ≠ p.config.dependsOn.length →
    ∀ l, .label l ∈ p.config.dependsOn → ∀ i ∈ p.resolvedDeps, m.lookup i = none → names i l →
      m.findKey (isRunningLabel l) = none

/-- The search of Phase 5 adds no second process for a label. -/
theorem keeps_extend {m : AssocMap ProcessId Process} (hnames : Agrees names m) (hids : p.IdsBound)
    (hlength : p.resolvedDeps.length ≠ p.config.dependsOn.length) (h : ExamineKeeps names p m) :
    p.Keeps names (p.extend (newlyResolved m (depsToResolve m p))) := by
  have hnew : ∀ j, j ∈ newlyResolved m (depsToResolve m p) ↔ ∃ dep ∈ p.config.dependsOn,
      isBound m p.resolvedDeps dep = false ∧ newlyResolvedId m dep = some j := by
    intro j
    simp [newlyResolved, depsToResolve, and_assoc]
  refine ⟨rfl, rfl, fun _ => .inr fun j hj => ?_, List.subset_append_left _ _,
    fun l hl i hi hil j hj hjl => ?_⟩
  · cases hbound : isBound m p.resolvedDeps (.id j) with
    | true => exact List.mem_append_left _ (by simpa [isBound] using hbound)
    | false => exact List.mem_append_right _ ((hnew j).mpr ⟨_, hj, hbound, rfl⟩)
  · refine (List.mem_append.mp hj).elim (fun hj => hj) fun hj => ?_
    obtain ⟨dep, hdep, hbound, hfound⟩ := (hnew j).mp hj
    cases dep with
    | id k =>
      -- all of these were bound together with the first label
      cases hfound
      exact hids.resolve_left (List.ne_nil_of_mem hi) j hdep
    | label l' =>
      obtain ⟨q, hq, hlabel⟩ := AssocMap.findKey_eq_some hfound
      simp only [isRunningLabel, Bool.and_eq_true, decide_eq_true_eq] at hlabel
      obtain rfl : l' = l := hlabel.1.symm.trans (hnames j q l hq hjl)
      cases hlookup : m.lookup i with
      | none =>
        have hnone := h hlength l' hl i hi hlookup hil
        cases hnone.symm.trans hfound
      | some r =>
        have hlabel' : hasLabel m l' i = true := by simp [hasLabel, hlookup, hnames i r l' hlookup hil]
        have : isBound m p.resolvedDeps (.label l') = true := List.any_eq_true.mpr ⟨i, hi, hlabel'⟩
        rw [hbound] at this
        cases this

theorem lookup_none_of_view {m m' : AssocMap ProcessId Process} (h : view m' = view m) (i : ProcessId) :
    m'.lookup i = none ↔ m.lookup i = none := by
  have hi := congrFun h i
  simp only [view] at hi
  rw [← Option.map_eq_none_iff, hi, Option.map_eq_none_iff]

theorem findKey_none_of_view {m m' : AssocMap ProcessId Process} (h : view m' = view m) (l : Label) :
    m'.findKey (isRunningLabel l) = none ↔ m.findKey (isRunningLabel l) = none := by
  have hle : ∀ m m' : AssocMap ProcessId Process, view m' = view m →
      m.findKey (isRunningLabel l) = none → m'.findKey (isRunningLabel l) = none := by
    intro m m' h hnone
    rw [AssocMap.findKey_eq_none] at hnone ⊢
    intro i q' hq'
    have hi := congrFun h i
    simp only [view, hq', Option.map_some] at hi
    obtain ⟨q, hq, hsame⟩ := Option.map_eq_some_iff.mp hi.symm
    have hrunning := hnone i q hq
    simp only [Prod.mk.injEq] at hsame
    simp only [isRunningLabel, hsame] at hrunning ⊢
    exact hrunning
  exact ⟨hle m' m h.symm, hle m m' h⟩

theorem ExamineKeeps.view {m m' : AssocMap ProcessId Process} (h : ExamineKeeps names p m)
    (hview : view m' = view m) : ExamineKeeps names p m' := by
  intro hlength l hl i hi hnone hil
  rw [findKey_none_of_view hview]
  exact h hlength l hl i hi ((lookup_none_of_view hview i).mp hnone) hil

/-- `Waiting` processes are examined in a state that satisfies the condition. -/
def ExaminesKeep (names : ProcessId → Label → Prop) (w : World) : Prop :=
  ∀ id ∈ w.waitingIds, ∀ p, w.processes.lookup id = some p → ExamineKeeps names p w.processes

/-- The entries of a map bind their dependencies by id all at once. -/
def AllIdsBound (m : AssocMap ProcessId Process) : Prop := ∀ i q, m.lookup i = some q → q.IdsBound

theorem AllIdsBound.carries (h : AllIdsBound w.processes) (hcarries : Carries names w w') :
    AllIdsBound w'.processes := by
  intro i q' hq'
  obtain ⟨q, hq, hkeeps⟩ := hcarries i q' hq'
  exact hkeeps.ids (h i q hq)

/-- Phase 5 has still to examine `rest`: their entries are as they were, and the searches find what they found. -/
structure Examining (names : ProcessId → Label → Prop) (w : World) (rest : List ProcessId) (w' : World) : Prop where
  carries : Carries names w w'
  view : view w'.processes = view w.processes
  nodup : rest.Nodup
  waiting : rest ⊆ w.waitingIds
  lookup : ∀ i ∈ rest, w'.processes.lookup i = w.processes.lookup i

theorem Examining.examine {i : ProcessId} {rest : List ProcessId} (hnames : Agrees names w.processes)
    (hids : AllIdsBound w.processes) (h : ExaminesKeep names w) (v : Verdicts) (hw : Examining names w (i :: rest) w') :
    Examining names w rest (examine env i (v, w')).2 := by
  obtain ⟨hfresh, hnodup⟩ := List.nodup_cons.mp hw.nodup
  refine ⟨hw.carries.trans ?_, (view_examine i v w').trans hw.view, hnodup,
    fun k hk => hw.waiting (List.mem_cons_of_mem _ hk), fun k hk => ?_⟩
  · obtain heq | ⟨p, hp, hlength, heq⟩ := (examine_outcome env i v w').1
    · exact .of_processes heq
    · have hp' : w.processes.lookup i = some p := (hw.lookup i List.mem_cons_self).symm.trans hp
      have hkeeps := (h i (hw.waiting List.mem_cons_self) p hp').view hw.view
      have hput : Carries names w' (w'.put i _) := .put_lookup hp rfl
        (keeps_extend (hnames.carries hw.carries) (hids.carries hw.carries i p hp) hlength hkeeps)
      exact hput.trans (.of_processes heq)
  · rw [lookup_examine (by rintro rfl; exact hfresh hk)]
    exact hw.lookup k (List.mem_cons_of_mem _ hk)

theorem carries_verdicts (hnames : Agrees names w.processes) (hids : AllIdsBound w.processes)
    (h : ExaminesKeep names w) : Carries names w (w.verdicts env).2 := by
  have hinit : Examining names w w.waitingIds (w.touch .shared w.processes.keys) :=
    ⟨.refl w, rfl, AssocMap.nodup_keysWhere _ _, fun _ h => h, fun _ _ => rfl⟩
  exact (Fold.foldl_suffix (I := fun rest (x : Verdicts × World) => Examining names w rest x.2)
    (fun _ _ x hx => hx.examine hnames hids h x.1) _ (⟨[], []⟩, w.touch .shared w.processes.keys) hinit).carries

theorem carries_spawnWaitingProcess (id : ProcessId) (w : World) :
    Carries names w (w.spawnWaitingProcess env id) := by
  obtain ⟨_, heq⟩ | ⟨p, hp, ⟨w', hstep, heq⟩ | ⟨w', now, hspawn, heq⟩⟩ :=
    spawnWaitingProcess_cases (P := fun _ => True) env id w <;> rw [heq]
  · exact .of_processes rfl
  · exact (Carries.of_processes hstep.processes).trans (carries_failSpawn id p w')
  · exact .put_lookup hp hspawn.processes (.of_eq rfl rfl rfl)

theorem carries_phase5 (hnames : Agrees names w.processes) (hids : AllIdsBound w.processes)
    (h : ExaminesKeep names w) : Carries names w (w.phase5 env) :=
  ((carries_verdicts hnames hids h).trans (.foldl (fun w i => carries_spawnWaitingProcess i w) _ _)).trans
    (.foldl (fun w i => .ifRunning (fun w => .of_refines
      (mapStep_failWaiting (P := fun _ => True) i w).processes fun _ _ _ => .of_kept) w) _ _)

theorem carries_phase6 (w : World) : Carries names w (w.phase6 env) := by
  have htouch : Carries names w (w.touch .shared w.processes.keys) := .of_processes rfl
  exact htouch.trans (.foldl (fun w i => .ifRunning (fun w => .of_refines
    (mapStep_failFast i w).processes fun _ _ _ => .of_kept) w) _ _)

/-! ### The pass -/

/-- The condition on a pass. -/
structure PassKeeps (env : Env) (pollInterval : ℕ) (names : ProcessId → Label → Prop) (w : World) :
    Prop where
  restarts : (w.afterPhase3 env pollInterval).reaper = .running →
    RestartsKeep env (w.passDetect env pollInterval).1 (w.afterPhase3 env pollInterval)
  examines : (w.beforePhase5 env pollInterval).reaper = .running →
    ExaminesKeep names (w.beforePhase5 env pollInterval)

theorem carries_reaperPass (hkey : ∀ i q, w.processes.lookup i = some q → q.id = i)
    (hnames : Agrees names w.processes) (hids : AllIdsBound w.processes)
    (h : PassKeeps env pollInterval names w) : Carries names w (w.reaperPass env pollInterval) := by
  have h3 : Carries names w (w.afterPhase3 env pollInterval) := carries_afterPhase3 pollInterval hkey
  have h4 : Carries names w (w.beforePhase5 env pollInterval) :=
    h3.trans (ifRunning_invariant (I := Carries names (w.afterPhase3 env pollInterval)) (.refl _)
      fun hr => carries_phase4 (h.restarts hr))
  have h5 : Carries names (w.beforePhase5 env pollInterval)
      ((w.beforePhase5 env pollInterval).ifRunning (phase5 env)) :=
    ifRunning_invariant (.refl _) fun hr =>
      carries_phase5 (hnames.carries h4) (hids.carries h4) (h.examines hr)
  exact (h4.trans h5).trans (.ifRunning carries_phase6 _)

end World

end ProcessManager
