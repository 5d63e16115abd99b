import ProcessManager.Manager.GracePeriod
import ProcessManager.Manager.StopCascade

/-! A `stop` ends, whatever the graph of dependents looks like: each nested call that finds
an entry removes it, so there are no more of them than entries. -/

namespace ProcessManager

open Relation

namespace World

variable (env : Env)

/-- The nested calls of a `stop` that find an entry, in order. -/
def stopFound : ℕ → ProcessId → World → List ProcessId
  | 0, _, _ => []
  | fuel + 1, id, w =>
    match w.processes.lookup id with
    | none => []
    | some _ =>
      let r := w.stopOne env id
      if r.1.cascade then
        id :: ((r.2.dependents id).foldl (fun (x : List ProcessId × World) dep =>
          (x.1 ++ stopFound fuel dep x.2, (stopFuel env fuel dep x.2).2)) ([], r.2)).1
      else [id]

/-- A stop of `i`, which has `cascade_stop`, is passed on to `j`. -/
def PassesOn (w : World) (i j : ProcessId) : Prop :=
  ∃ p q, w.processes.lookup i = some p ∧ p.config.cascadeStop = true ∧
    w.processes.lookup j = some q ∧ i ∈ q.resolvedDeps

/-- The entries `found` of `w` are removed, one after the other, and no other. -/
structure Removes (w₀ : World) (id : ProcessId) (w w' : World) (found : List ProcessId) : Prop where
  nodup : found.Nodup
  subset : ∀ j ∈ found, j ∈ w.tracked
  lookup : ∀ j, w'.processes.lookup j = if j ∈ found then none else w.processes.lookup j
  chain : ∀ j ∈ found, ReflTransGen w₀.PassesOn id j

variable {env} {w w' w'' w₀ : World} {id i d : ProcessId} {found found' : List ProcessId} {p : Process}

namespace Removes

theorem nil (w₀ : World) (id : ProcessId) (w : World) : Removes w₀ id w w [] :=
  ⟨List.nodup_nil, nofun, fun _ => rfl, nofun⟩

theorem tracked_iff (h : Removes w₀ id w w' found) (j : ProcessId) :
    j ∈ w'.tracked ↔ j ∈ w.tracked ∧ j ∉ found := by
  rw [World.tracked, Set.mem_ofPred_eq, h.lookup]
  split_ifs with hj <;> simp [World.tracked, hj]

theorem restOf (h : Removes w₀ id w w' found) (hrest : RestOf w₀ w) : RestOf w₀ w' := by
  intro j q hq
  rw [h.lookup] at hq
  split_ifs at hq
  exact hrest j q hq

theorem trans (h : Removes w₀ id w w' found) (h' : Removes w₀ id w' w'' found') :
    Removes w₀ id w w'' (found ++ found') where
  nodup := List.nodup_append'.mpr ⟨h.nodup, h'.nodup, fun j hj hj' =>
    ((h.tracked_iff j).mp (h'.subset j hj')).2 hj⟩
  subset j hj := (List.mem_append.mp hj).elim (h.subset j) fun hj =>
    ((h.tracked_iff j).mp (h'.subset j hj)).1
  lookup j := by
    rw [h'.lookup, h.lookup]
    by_cases hj : j ∈ found <;> by_cases hj' : j ∈ found' <;> simp [hj, hj']
  chain j hj := (List.mem_append.mp hj).elim (h.chain j) (h'.chain j)

/-- A removal on behalf of a process that `i` passes its stop on to. -/
theorem head (h : Removes w₀ d w w' found) (hpass : ReflTransGen w₀.PassesOn i d) :
    Removes w₀ i w w' found :=
  { h with chain := fun j hj => hpass.trans (h.chain j hj) }

/-- No process is removed twice, so there are at most as many removals as entries. -/
theorem length_le (h : Removes w₀ id w w' found) : found.length ≤ w.processes.keys.length := by
  have hsub : found ⊆ w.processes.keys := fun j hj =>
    AssocMap.mem_of_lookup (mem_tracked.mp (h.subset j hj)).choose_spec
  exact (List.subperm_of_subset h.nodup hsub).length_le

end Removes

theorem removes_stopOne (env : Env) (w₀ : World) (hp : w.processes.lookup id = some p) :
    Removes w₀ id w (w.stopOne env id).2 [id] where
  nodup := List.nodup_singleton id
  subset j hj := by
    rw [List.mem_singleton.mp hj]
    exact mem_tracked.mpr ⟨p, hp⟩
  lookup j := by
    rw [stopOne_lookup hp]
    simp
  chain j hj := by
    rw [List.mem_singleton.mp hj]

/-- What a stop removes, with or without enough fuel. -/
theorem removes_stopFuel (env : Env) (w₀ : World) (fuel : ℕ) (id : ProcessId) (hrest : RestOf w₀ w) :
    Removes w₀ id w (w.stopFuel env fuel id).2 (w.stopFound env fuel id) := by
  induction fuel generalizing id w with
  | zero => exact .nil w₀ id w
  | succ fuel ih =>
    cases hp : w.processes.lookup id with
    | none =>
      simp only [stopFuel, stopFound, hp, stopOne_of_untracked hp]
      exact .nil w₀ id w
    | some p =>
      have hone := removes_stopOne env w₀ hp
      simp only [stopFuel, stopFound, hp]
      split_ifs with hcascade
      · obtain ⟨_, hstop⟩ := stopOne_of_cascade hp hcascade
        -- the dependents are those of the map without `id`
        have hdependents : ∀ d ∈ (w.stopOne env id).2.dependents id, w₀.PassesOn id d := by
          intro d hd
          simp only [dependents, AssocMap.mem_keysWhere, decide_eq_true_eq] at hd
          obtain ⟨q, hq, hdep⟩ := hd
          exact ⟨p, q, hrest id p hp, hstop, hone.restOf hrest d q hq, hdep⟩
        have hfold : ∀ (ds : List ProcessId) (found : List ProcessId) (w₁ : World),
            (∀ d ∈ ds, w₀.PassesOn id d) → Removes w₀ id w w₁ (id :: found) →
            Removes w₀ id w (ds.foldl (fun w dep => (stopFuel env fuel dep w).2) w₁)
              (id :: (ds.foldl (fun (x : List ProcessId × World) dep =>
                (x.1 ++ stopFound env fuel dep x.2, (stopFuel env fuel dep x.2).2)) (found, w₁)).1) := by
          intro ds
          induction ds with
          | nil => exact fun _ _ _ h => h
          | cons d ds ihds =>
            intro found w₁ hds hw₁
            have hd := (ih d (hw₁.restOf hrest)).head (.single (hds d List.mem_cons_self))
            exact ihds _ _ (fun e he => hds e (List.mem_cons_of_mem _ he)) (hw₁.trans hd)
        exact hfold _ [] _ hdependents hone
      · exact hone

/-- More fuel than entries does not change a stop. -/
theorem stopFuel_succ (env : Env) (fuel : ℕ) (id : ProcessId) (hfuel : w.tracked.ncard < fuel) :
    w.stopFuel env (fuel + 1) id = w.stopFuel env fuel id := by
  induction fuel generalizing id w with
  | zero => exact absurd hfuel (Nat.not_lt_zero _)
  | succ fuel ih =>
    rw [stopFuel, stopFuel]
    cases hp : w.processes.lookup id with
    | none =>
      rw [stopOne_of_untracked hp]
      rfl
    | some p =>
      have hfewer : (w.stopOne env id).2.tracked.ncard < fuel := by
        rw [tracked_stopOne env hp]
        have hlt : (w.tracked \ {id}).ncard < w.tracked.ncard :=
          Set.ncard_sdiff_singleton_lt_of_mem (mem_tracked.mpr ⟨p, hp⟩) w.finite_tracked
        omega
      have hfold : ∀ (ds : List ProcessId) (w₁ : World), w₁.tracked.ncard < fuel →
          ds.foldl (fun w dep => (stopFuel env (fuel + 1) dep w).2) w₁ =
            ds.foldl (fun w dep => (stopFuel env fuel dep w).2) w₁ := by
        intro ds
        induction ds with
        | nil => exact fun _ _ => rfl
        | cons d ds ihds =>
          intro w₁ hw₁
          rw [List.foldl_cons, List.foldl_cons, ih d hw₁]
          refine ihds _ (lt_of_le_of_lt ?_ hw₁)
          have hrest : RestOf w₁ (w₁.stopFuel env fuel d).2 := RestOf.stopFuel (fun _ _ h => h) fuel d
          exact Set.ncard_le_ncard hrest.tracked w₁.finite_tracked
      simp only [hfold _ _ hfewer]

theorem stopFuel_eq_stop (env : Env) (id : ProcessId) (w : World) (k : ℕ) :
    w.stopFuel env (w.processes.keys.length + 1 + k) id = w.stop env id := by
  induction k with
  | zero => rfl
  | succ k ih =>
    refine (stopFuel_succ env _ id ?_).trans ih
    have hle := w.ncard_tracked_le
    show w.tracked.ncard < w.processes.keys.length + 1 + k
    omega

/-- A `stop` ends on every graph of dependents and whatever its signals and children do: its
loops do not run out of fuel, its nested calls remove one process each, none twice, all of
them reached along `cascade_stop`; every other entry stays. -/
theorem stop_ends (env : Env) (id : ProcessId) (w : World) :
    (∀ k, w.stopFuel env (w.processes.keys.length + 1 + k) id = w.stop env id) ∧
      (∀ k timeout p w', graceLoop env (w'.clock + millis timeout) (loopFuel timeout 50 + k) p w' =
        graceLoop env (w'.clock + millis timeout) (loopFuel timeout 50) p w') ∧
      (∀ k p w', reapLoop env (w'.clock + millis 500) (loopFuel 500 10 + k) p w' =
        reapLoop env (w'.clock + millis 500) (loopFuel 500 10) p w') ∧
      ∃ found, found = w.stopFound env (w.processes.keys.length + 1) id ∧
        found.length ≤ w.processes.keys.length ∧ found.Nodup ∧
        (∀ j ∈ found, ReflTransGen w.PassesOn id j) ∧
        ∀ j, (w.stop env id).2.processes.lookup j = if j ∈ found then none else w.processes.lookup j := by
  have hremoves := removes_stopFuel env w (w.processes.keys.length + 1) id (fun _ _ h => h)
  exact ⟨stopFuel_eq_stop env id w, fun k timeout p w' => graceLoop_loopFuel timeout k p w',
    fun k p w' => reapLoop_loopFuel k p w', _, rfl, hremoves.length_le, hremoves.nodup, hremoves.chain,
    hremoves.lookup⟩

end World

end ProcessManager
