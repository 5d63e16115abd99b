import ProcessManager.Reaper.Waiting

/-! What Phase 5 decides about a `Waiting` process, one visit at a time and over all
visits of a pass. -/

namespace ProcessManager

/-! ### What the searches look at -/

/-- The part of the map that resolution depends on: label and state of each entry. -/
def view (processes : AssocMap ProcessId Process) (id : ProcessId) : Option (ProcessState × Label) :=
  (processes.lookup id).map fun p => (p.state, p.label)

section View

variable {m m' : AssocMap ProcessId Process}

theorem isRunningDep_congr (h : view m' = view m) : isRunningDep m' = isRunningDep m := by
  have hview : ∀ m : AssocMap ProcessId Process, isRunningDep m = fun id =>
      ((view m id).map Prod.fst).any (· = .running) := by
    intro m
    funext id
    unfold isRunningDep view
    cases m.lookup id <;> rfl
  rw [hview, hview, h]

theorem hasLabel_congr (h : view m' = view m) (l : Label) : hasLabel m' l = hasLabel m l := by
  have hview : ∀ m : AssocMap ProcessId Process, hasLabel m l = fun id =>
      ((view m id).map Prod.snd).any (· = l) := by
    intro m
    funext id
    unfold hasLabel view
    cases m.lookup id <;> rfl
  rw [hview, hview, h]

theorem isBound_congr (h : view m' = view m) (resolved : List ProcessId) :
    isBound m' resolved = isBound m resolved := by
  funext dep
  cases dep with
  | label l => rw [isBound, isBound, hasLabel_congr h]
  | id i => rfl

theorem view_replace {id : ProcessId} {p p' : Process} (hp : m.lookup id = some p)
    (hstate : p'.state = p.state) (hlabel : p'.label = p.label) :
    view (m.replace id p') = view m := by
  funext k
  unfold view
  rw [AssocMap.lookup_replace]
  split_ifs with hk
  · rw [hk, hp]
    simp [hstate, hlabel]
  · rfl

end View

/-- Some process can be bound to the dependency: the named one is `Running`, or one with
the label is. -/
def Available (processes : AssocMap ProcessId Process) : DependencyRef → Prop
  | .label l => ∃ i, view processes i = some (.running, l)
  | .id i => isRunningDep processes i = true

theorem available_congr {m m' : AssocMap ProcessId Process} (h : view m' = view m)
    (dep : DependencyRef) : Available m' dep ↔ Available m dep := by
  cases dep with
  | label l => rw [Available, Available, h]
  | id i => rw [Available, Available, isRunningDep_congr h]

theorem isRunningDep_iff {processes : AssocMap ProcessId Process} {i : ProcessId} :
    isRunningDep processes i = true ↔ ∃ l, view processes i = some (.running, l) := by
  unfold isRunningDep view
  cases processes.lookup i <;> simp

theorem findKey_isRunningLabel {processes : AssocMap ProcessId Process} {l : Label} :
    (processes.findKey (isRunningLabel l)).isSome = true ↔
      ∃ i, view processes i = some (.running, l) := by
  cases hfind : processes.findKey (isRunningLabel l) with
  | none =>
    simp only [Option.isSome_none, Bool.false_eq_true, false_iff, not_exists]
    intro i hi
    obtain ⟨p, hp, hview⟩ := Option.map_eq_some_iff.mp hi
    have hnot := AssocMap.findKey_eq_none.mp hfind i p hp
    simp only [Prod.mk.injEq] at hview
    simp [isRunningLabel, hview] at hnot
  | some j =>
    obtain ⟨p, hp, hl⟩ := AssocMap.findKey_eq_some hfind
    simp only [isRunningLabel, Bool.and_eq_true, decide_eq_true_eq] at hl
    simp only [Option.isSome_some, true_iff]
    exact ⟨j, by simp [view, hp, hl]⟩

instance decidableAvailable (processes : AssocMap ProcessId Process) :
    DecidablePred (Available processes)
  | .label _ => decidable_of_iff _ findKey_isRunningLabel
  | .id i => inferInstanceAs (Decidable (isRunningDep processes i = true))

/-- An available dependency is resolved to a `Running` process. -/
theorem newlyResolvedId_of_available {processes : AssocMap ProcessId Process} {dep : DependencyRef}
    (h : Available processes dep) :
    ∃ i, newlyResolvedId processes dep = some i ∧ isRunningDep processes i = true := by
  cases dep with
  | id i => exact ⟨i, rfl, h⟩
  | label l =>
    obtain ⟨j, hfind⟩ := Option.isSome_iff_exists.mp (findKey_isRunningLabel.mpr h)
    obtain ⟨p, hp, hl⟩ := AssocMap.findKey_eq_some hfind
    simp only [isRunningLabel, Bool.and_eq_true, decide_eq_true_eq] at hl
    refine ⟨j, hfind, isRunningDep_iff.mpr ⟨l, ?_⟩⟩
    simp [view, hp, hl]

theorem newlyResolved_of_available (processes : AssocMap ProcessId Process)
    (deps : List DependencyRef) (h : ∀ dep ∈ deps, Available processes dep) :
    (newlyResolved processes deps).length = deps.length ∧
      ∀ i ∈ newlyResolved processes deps, isRunningDep processes i = true := by
  induction deps with
  | nil => exact ⟨rfl, by simp [newlyResolved]⟩
  | cons dep deps ih =>
    obtain ⟨i, hi, hrunning⟩ := newlyResolvedId_of_available (h dep (by simp))
    obtain ⟨hlength, hall⟩ := ih fun d hd => h d (by simp [hd])
    have hcons : newlyResolved processes (dep :: deps) = i :: newlyResolved processes deps := by
      simp [newlyResolved, hi]
    rw [hcons]
    exact ⟨by simp [hlength], by simpa [hrunning] using hall⟩

namespace World

variable {env : Env} {id : ProcessId} {w : World}

/-! ### One visit -/

/-- A visit may extend its own entry while its count is short, and it decides to spawn
it only if it is complete. -/
theorem examine_outcome (env : Env) (id : ProcessId) (v : Verdicts) (w : World) :
    ((examine env id (v, w)).2.processes = w.processes ∨
      ∃ p, w.processes.lookup id = some p ∧
        p.resolvedDeps.length ≠ p.config.dependsOn.length ∧
        (examine env id (v, w)).2.processes = w.processes.replace id
          (p.extend (newlyResolved w.processes (depsToResolve w.processes p)))) ∧
    ((examine env id (v, w)).1.toSpawn = v.toSpawn ∨
      (examine env id (v, w)).1.toSpawn = v.toSpawn ++ [id] ∧
        ∃ p, (examine env id (v, w)).2.processes.lookup id = some p ∧
          Complete (examine env id (v, w)).2.processes p) := by
  cases hp : w.processes.lookup id with
  | none => rw [examine_untracked hp]; exact ⟨.inl rfl, .inl rfl⟩
  | some p =>
    cases htimeout : w.timedOut env p with
    | true =>
      obtain ⟨hverdict, hmap⟩ := examine_timedOut (v := v) hp htimeout
      exact ⟨.inl hmap, .inl (by rw [hverdict])⟩
    | false =>
      by_cases hlength : p.resolvedDeps.length = p.config.dependsOn.length
      · obtain ⟨hspawn, hnot, hmap⟩ := examine_resolved (v := v) hp htimeout hlength
        refine ⟨.inl hmap, ?_⟩
        by_cases hrunning : AllRunning w.processes p.resolvedDeps
        · rw [hspawn hrunning, hmap]
          exact .inr ⟨rfl, p, hp, hlength, hrunning⟩
        · exact .inl (hnot hrunning)
      · obtain ⟨new, hnew⟩ : ∃ new, newlyResolved w.processes (depsToResolve w.processes p) = new :=
          ⟨_, rfl⟩
        by_cases hnil : new = []
        · obtain ⟨hverdict, hmap⟩ := examine_stuck (v := v) hp htimeout hlength (hnew.trans hnil)
          exact ⟨.inl hmap, .inl hverdict⟩
        · obtain ⟨hspawn, hnot, hmap⟩ := examine_extended (v := v) hp htimeout hlength hnew hnil
          refine ⟨.inr ⟨p, rfl, hlength, by rw [hmap, hnew]⟩, ?_⟩
          by_cases hcomplete : Complete (w.processes.replace id (p.extend new)) (p.extend new)
          · rw [hspawn hcomplete, hmap]
            exact .inr ⟨rfl, p.extend new, by simp [AssocMap.lookup_replace, hp], hcomplete⟩
          · exact .inl (by rw [hnot hcomplete])

/-- A visit changes no state and no label. -/
theorem view_examine (id : ProcessId) (v : Verdicts) (w : World) :
    view (examine env id (v, w)).2.processes = view w.processes := by
  obtain h | ⟨p, hp, _, h⟩ := (examine_outcome env id v w).1 <;> rw [h]
  exact view_replace hp rfl rfl

/-- A visit changes its own entry only. -/
theorem lookup_examine {k : ProcessId} (hk : k ≠ id) (v : Verdicts) (w : World) :
    (examine env id (v, w)).2.processes.lookup k = w.processes.lookup k := by
  obtain h | ⟨p, hp, _, h⟩ := (examine_outcome env id v w).1 <;> rw [h]
  rw [AssocMap.lookup_replace, if_neg hk]

/-! ### All visits -/

/-- The visits of `ids` in order. -/
def examineAll (env : Env) (ids : List ProcessId) (x : Verdicts × World) : Verdicts × World :=
  ids.foldl (fun x id => examine env id x) x

theorem view_examineAll (ids : List ProcessId) (x : Verdicts × World) :
    view (examineAll env ids x).2.processes = view x.2.processes :=
  Fold.foldl_invariant (I := fun y : Verdicts × World => view y.2.processes = view x.2.processes) rfl
    fun y i _ hy => (view_examine i y.1 y.2).trans hy

theorem lookup_examineAll {ids : List ProcessId} (hid : id ∉ ids) (x : Verdicts × World) :
    (examineAll env ids x).2.processes.lookup id = x.2.processes.lookup id := by
  refine Fold.foldl_invariant (I := fun y : Verdicts × World =>
    y.2.processes.lookup id = x.2.processes.lookup id) rfl fun y i hi hy => ?_
  exact (lookup_examine (by rintro rfl; exact hid hi) y.1 y.2).trans hy

theorem mem_toSpawn_examineAll {ids : List ProcessId} (hid : id ∉ ids) (x : Verdicts × World) :
    id ∈ (examineAll env ids x).1.toSpawn ↔ id ∈ x.1.toSpawn := by
  refine Fold.foldl_invariant (I := fun y : Verdicts × World =>
    (id ∈ y.1.toSpawn ↔ id ∈ x.1.toSpawn)) Iff.rfl fun y i hi hy => ?_
  have hne : id ≠ i := by rintro rfl; exact hid hi
  obtain h | ⟨h, _⟩ := (examine_outcome env i y.1 y.2).2
  · rw [h, hy]
  · rw [h, List.mem_append, hy]
    simp [hne]

theorem verdicts_eq (w : World) :
    w.verdicts env = examineAll env w.waitingIds (⟨[], []⟩, w.touch .shared w.processes.keys) := rfl

/-- Each visit decides to spawn its own entry at most, so nothing is spawned twice. -/
theorem toSpawn_sublist (env : Env) (w : World) :
    (w.verdicts env).1.toSpawn.Sublist w.waitingIds := by
  refine Fold.foldl_visited (I := fun visited (x : Verdicts × World) => x.1.toSpawn.Sublist visited)
    (List.Sublist.refl _) ?_
  rintro visited id ⟨v, w'⟩ - hsub
  obtain h | ⟨h, _⟩ := (examine_outcome env id v w').2 <;> rw [h]
  · exact hsub.trans (List.sublist_append_left visited [id])
  · exact hsub.append_right [id]

/-- A visit gives at most one verdict, on its own entry. -/
theorem examine_verdict (env : Env) (id : ProcessId) (v : Verdicts) (w : World) :
    (examine env id (v, w)).1 = v ∨ (examine env id (v, w)).1 = { v with toSpawn := v.toSpawn ++ [id] } ∨
      (examine env id (v, w)).1 = { v with toFail := v.toFail ++ [id] } := by
  have hfail : ∀ deps w', (World.failIfTerminal id deps v w').1 = v ∨
      (World.failIfTerminal id deps v w').1 = { v with toFail := v.toFail ++ [id] } := by
    intro deps w'
    simp only [failIfTerminal]
    split_ifs
    · exact .inr rfl
    · exact .inl rfl
  simp only [examine, lock_processes]
  split
  · exact .inl rfl
  · split_ifs
    · exact .inr (.inr rfl)
    · simp only [resolveMore, spawnIfReady]
      split_ifs
      · exact (hfail _ _).imp_right .inr
      · exact .inr (.inl rfl)
      · exact .inl rfl
    · simp only [checkResolved]
      split_ifs
      · exact .inr (.inl rfl)
      · exact (hfail _ _).imp_right .inr

/-- Phase 5 spawns and fails different processes, all of them `Waiting`. -/
structure Disjointly (v : Verdicts) (ids : List ProcessId) : Prop where
  toSpawn : v.toSpawn ⊆ ids
  toFail : v.toFail.Sublist ids
  disjoint : ∀ i ∈ v.toFail, i ∉ v.toSpawn

theorem disjointly_verdicts (env : Env) (w : World) : Disjointly (w.verdicts env).1 w.waitingIds := by
  have hnodup : w.waitingIds.Nodup := AssocMap.nodup_keysWhere _ _
  refine Fold.foldl_visited (I := fun visited (x : Verdicts × World) => Disjointly x.1 visited)
    ⟨List.nil_subset _, List.Sublist.refl _, fun _ hi => absurd hi List.not_mem_nil⟩ ?_
  rintro visited id ⟨v, w'⟩ hturn hsub
  have hfresh : id ∉ visited := fun hid =>
    List.disjoint_of_nodup_append (hturn.sublist.nodup hnodup) hid (List.mem_singleton_self id)
  obtain h | h | h := examine_verdict env id v w' <;> rw [h]
  · exact ⟨fun i hi => List.mem_append_left _ (hsub.toSpawn hi),
      hsub.toFail.trans (List.sublist_append_left visited [id]), hsub.disjoint⟩
  · refine ⟨?_, hsub.toFail.trans (List.sublist_append_left visited [id]), fun i hi hmem => ?_⟩
    · exact List.append_subset.mpr ⟨fun i hi => List.mem_append_left _ (hsub.toSpawn hi),
        List.subset_append_right _ _⟩
    · rcases List.mem_append.mp hmem with hmem | hmem
      · exact hsub.disjoint i hi hmem
      · exact hfresh (List.mem_singleton.mp hmem ▸ hsub.toFail.subset hi)
  · refine ⟨fun i hi => List.mem_append_left _ (hsub.toSpawn hi), hsub.toFail.append_right [id],
      fun i hi hmem => ?_⟩
    rcases List.mem_append.mp hi with hi | hi
    · exact hsub.disjoint i hi hmem
    · exact hfresh (hsub.toSpawn (List.mem_singleton.mp hi ▸ hmem))

/-! ### The verdict on a process whose dependencies are available -/

/-- The world in which Phase 5 visits `id`. -/
def visitedIn (env : Env) (id : ProcessId) (w : World) : World :=
  (examineAll env (w.waitingIds.takeWhile (· ≠ id))
    (⟨[], []⟩, w.touch .shared w.processes.keys)).2

/-- A `Waiting` process within its timeout whose bound ids are `Running` and whose
dependencies are all available when Phase 5 starts. -/
structure Ready (env : Env) (id : ProcessId) (p : Process) (w : World) : Prop where
  tracked : w.processes.lookup id = some p
  waiting : p.state = .waiting
  inTime : (w.visitedIn env id).timedOut env p = false
  bound : AllRunning w.processes p.resolvedDeps
  available : ∀ dep ∈ p.config.dependsOn, Available w.processes dep

/-- Every bound id accounts for exactly one dependency, or there are as many bound ids as
dependencies. -/
def CountsMatch (processes : AssocMap ProcessId Process) (p : Process) : Prop :=
  p.resolvedDeps.length = p.config.dependsOn.countP (isBound processes p.resolvedDeps) ∨
    p.resolvedDeps.length = p.config.dependsOn.length

/-- The visit of a process whose dependencies are available. -/
theorem mem_toSpawn_examine {p : Process} {v : Verdicts} (hp : w.processes.lookup id = some p)
    (htime : w.timedOut env p = false) (hbound : AllRunning w.processes p.resolvedDeps)
    (havailable : ∀ dep ∈ p.config.dependsOn, Available w.processes dep) (hv : id ∉ v.toSpawn) :
    id ∈ (examine env id (v, w)).1.toSpawn ↔ CountsMatch w.processes p := by
  unfold CountsMatch
  by_cases hlength : p.resolvedDeps.length = p.config.dependsOn.length
  · rw [(examine_resolved hp htime hlength).1 hbound]
    simp [hlength]
  · have hcount : (depsToResolve w.processes p).length +
        p.config.dependsOn.countP (isBound w.processes p.resolvedDeps) =
          p.config.dependsOn.length := by
      have hsplit := p.config.dependsOn.length_eq_countP_add_countP
        (p := isBound w.processes p.resolvedDeps)
      have hnot : (depsToResolve w.processes p).length = p.config.dependsOn.countP
          fun dep => decide ¬ isBound w.processes p.resolvedDeps dep = true := by
        rw [depsToResolve, ← List.countP_eq_length_filter]
        simp
      omega
    obtain ⟨hnew, hrunning⟩ := newlyResolved_of_available w.processes
      (depsToResolve w.processes p) fun dep hdep => havailable dep (List.mem_of_mem_filter hdep)
    obtain ⟨new, hdef⟩ : ∃ new, newlyResolved w.processes (depsToResolve w.processes p) = new :=
      ⟨_, rfl⟩
    rw [hdef] at hnew hrunning
    by_cases hnil : new = []
    · rw [(examine_stuck hp htime hlength (hdef.trans hnil)).1]
      have hzero : new.length = 0 := by rw [hnil]; rfl
      refine ⟨fun h => absurd h hv, fun h => ?_⟩
      omega
    · have hview : view (w.processes.replace id (p.extend new)) = view w.processes :=
        view_replace hp rfl rfl
      have hall : AllRunning (w.processes.replace id (p.extend new)) (p.extend new).resolvedDeps := by
        intro d hd
        rw [isRunningDep_congr hview]
        rcases List.mem_append.mp hd with hd | hd
        · exact hbound d hd
        · exact hrunning d hd
      have hcomplete : Complete (w.processes.replace id (p.extend new)) (p.extend new) ↔
          p.resolvedDeps.length = p.config.dependsOn.countP (isBound w.processes p.resolvedDeps) := by
        rw [Complete, and_iff_left hall]
        show (p.resolvedDeps ++ new).length = p.config.dependsOn.length ↔ _
        rw [List.length_append]
        omega
      obtain ⟨hspawn, hnot, -⟩ := examine_extended (v := v) hp htime hlength hdef hnil
      rw [or_iff_left hlength, ← hcomplete]
      by_cases hc : Complete (w.processes.replace id (p.extend new)) (p.extend new)
      · rw [hspawn hc]
        simp [hc]
      · rw [hnot hc]
        simp [hc, hv]

end World

end ProcessManager
