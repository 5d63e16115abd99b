import ProcessManager.Manager.StopCascade
import ProcessManager.Manager.StopMany

/-! Stopping a group as a batch against stopping its members one by one. The batch removes its
members and nobody else; a single `stop` also removes the dependents of a member with
`cascade_stop`, whether they belong to the group or not. -/

namespace ProcessManager

namespace World

/-- `stop` for one id after the other; an id that a cascade has removed is skipped. -/
def stopEach (env : Env) : List ProcessId → World → World
  | [], w => w
  | id :: ids, w =>
    match w.processes.lookup id with
    | none => stopEach env ids w
    | some _ => stopEach env ids (w.stop env id).2

/-- If no `kill` fails, `stop_label` leaves the processes that single stops of the members leave,
in whatever order they are made. -/
def LabelAgrees (label : Label) (w : World) : Prop :=
  ∀ env : Env, env.KillsSucceed → ∀ order : List ProcessId, order.Perm (w.labelMembers label) →
    (w.stopLabel env label).2.tracked = (w.stopEach env order).tracked

/-- The same for `stop_all` and the whole map. -/
def AllAgrees (w : World) : Prop :=
  ∀ env : Env, env.KillsSucceed → ∀ order : List ProcessId, order.Perm w.processes.keys →
    (w.stopAll env).tracked = (w.stopEach env order).tracked

/-- A process of another label is bound to a member with `cascade_stop` whose stop can go on. -/
def CascadesOut (label : Label) (w : World) : Prop :=
  ∃ i p j q, w.processes.lookup i = some p ∧ p.label = label ∧ p.config.cascadeStop = true ∧
    p.GoesOn [] ∧ w.processes.lookup j = some q ∧ q.label ≠ label ∧ i ∈ q.resolvedDeps

variable {env : Env} {w w' w₀ : World} {p : Process} {id i j : ProcessId} {ids order : List ProcessId}
  {S : Set ProcessId}

/-! ### The batch -/

theorem forceKill_eq (henv : env.KillsSucceed) (site : KillSite) (p : Process) (w : World) :
    (p.forceKill env site w).1 = none ∨ (p.forceKill env site w).1 = some .esrch := by
  unfold Process.forceKill Process.sendSignal
  split_ifs
  · exact .inr rfl
  · exact killError_eq henv p.pid w

/-- Nothing is kept for re-insertion. -/
theorem toReinsert_eq_nil (henv : env.KillsSucceed) (entries : List Process) (w : World) :
    (w.stopManyEscalate env entries).1.toReinsert = [] := by
  induction entries generalizing w with
  | nil => rfl
  | cons p entries ih =>
    simp only [stopManyEscalate]
    rcases forceKill_eq henv .stopManyEscalation p w with hkill | hkill <;> rw [hkill]
    · exact ih _
    · exact ih _

/-- The batch removes what it was given. -/
theorem tracked_stopMany (henv : env.KillsSucceed) (ids : List ProcessId) (w : World) :
    (w.stopMany env ids).2.tracked = w.tracked \ {i | i ∈ ids} := by
  obtain ⟨_, hlookup, _⟩ := stopManyKill_spec env ids w
  have hnone : (w.stopManyKill env ids).1.toReinsert = [] := by
    rw [stopManyKill]
    exact toReinsert_eq_nil henv _ _
  have hmany : (w.stopMany env ids).2 = (w.stopManyKill env ids).2 := by
    rw [stopMany, hnone, stopManyReinsert, List.foldl_nil]
  ext j
  rw [hmany, tracked, Set.mem_ofPred_eq, hlookup]
  split_ifs with hj <;> simp [tracked, hj]

/-! ### Single stops -/

theorem RestOf.lookup_none (h : RestOf w w') (hi : w.processes.lookup i = none) :
    w'.processes.lookup i = none := by
  by_contra hsome
  obtain ⟨p, hp⟩ := Option.ne_none_iff_exists'.mp hsome
  exact Option.some_ne_none p ((h i p hp).symm.trans hi)

theorem restOf_dependents (env : Env) (fuel : ℕ) (ds : List ProcessId) (w : World) :
    RestOf w (ds.foldl (fun w dep => (stopFuel env fuel dep w).2) w) :=
  Fold.foldl_rel (r := RestOf) (fun _ _ _ h => h) (fun _ _ _ h h' i p hp => h i p (h' i p hp))
    (fun _ d => RestOf.stopFuel (fun _ _ h => h) fuel d) ds w

theorem restOf_stopFuel (env : Env) (fuel : ℕ) (id : ProcessId) (w : World) :
    RestOf w (w.stopFuel env fuel id).2 := RestOf.stopFuel (fun _ _ h => h) fuel id

/-- A stopped process is not tracked any more. -/
theorem lookup_stopFuel_self (env : Env) (fuel : ℕ) (id : ProcessId) (w : World) :
    (w.stopFuel env (fuel + 1) id).2.processes.lookup id = none := by
  have hone : (w.stopOne env id).2.processes.lookup id = none := by
    cases hp : w.processes.lookup id with
    | none => rw [stopOne_of_untracked hp, hp]
    | some p => rw [stopOne_lookup hp, if_pos rfl]
  simp only [stopFuel]
  split_ifs
  · exact (restOf_dependents env fuel _ _).lookup_none hone
  · exact hone

theorem stopFuel_of_cascade (fuel : ℕ) (h : (w.stopOne env i).1.cascade = true) :
    (w.stopFuel env (fuel + 1) i).2 = ((w.stopOne env i).2.dependents i).foldl
      (fun w dep => (stopFuel env fuel dep w).2) (w.stopOne env i).2 := by
  simp only [stopFuel, h, ↓reduceIte]

/-- A stop that goes on leaves no dependent. -/
theorem lookup_stop_dependent (hcascade : (w.stopOne env i).1.cascade = true)
    (hj : j ∈ (w.stopOne env i).2.dependents i) : (w.stop env i).2.processes.lookup j = none := by
  obtain ⟨before, after, hsplit⟩ := List.append_of_mem hj
  -- the cascade has fuel left, since the first call has found an entry
  obtain ⟨n, hn⟩ : ∃ n, w.processes.keys.length = n + 1 := by
    have hfound : w.processes.lookup i ≠ none := by
      intro hnone
      rw [stopOne_of_untracked hnone] at hcascade
      cases hcascade
    obtain ⟨p, hp⟩ := Option.ne_none_iff_exists'.mp hfound
    exact Nat.exists_eq_succ_of_ne_zero (List.length_pos_of_mem (AssocMap.mem_of_lookup hp)).ne'
  rw [stop, stopFuel_of_cascade _ hcascade, hn, hsplit, List.foldl_append, List.foldl_cons]
  exact (restOf_dependents env _ after _).lookup_none (lookup_stopFuel_self env n j _)

theorem sendSignal_eq (henv : ∀ n, env.killError n = none) (hpid : p.pid ≠ 0) (site : KillSite)
    (signal : KillSignal) (w : World) :
    p.sendSignal env site signal w = (none, w.kill env site p signal.toSignal) := by
  have hkill : w.killError env p.pid = none := by
    unfold killError
    split_ifs
    · rfl
    · exact henv _
  rw [Process.sendSignal, if_neg hpid, hkill]

theorem cascade_stopEscalate (henv : ∀ n, env.killError n = none) (hpid : p.pid ≠ 0) (w : World) :
    (w.stopEscalate env p).1.cascade = p.config.cascadeStop := by
  have hforce : p.forceKill env .stopEscalation w =
      (none, w.kill env .stopEscalation p KillSignal.sigkill.toSignal) := sendSignal_eq henv hpid _ _ w
  simp only [stopEscalate, hforce]

theorem cascade_stopGrace (henv : ∀ n, env.killError n = none) (hp : p.state = .stopping)
    (hpid : p.pid ≠ 0) (w : World) : (w.stopGrace env p).1.cascade = p.config.cascadeStop := by
  obtain ⟨hfst, hentry, _⟩ := graceLoop_of_stopping (w := w.tick env) (P := fun _ => False) env hp
    ((w.tick env).clock + millis p.config.terminateTimeoutMs)
    (loopFuel p.config.terminateTimeoutMs 50)
  simp only [stopGrace, hfst, Bool.false_eq_true, ↓reduceIte, hentry]
  exact cascade_stopEscalate henv hpid _

/-- If every `kill` succeeds, a stop goes on whenever it can. -/
theorem cascade_stopOne (henv : ∀ n, env.killError n = none) (hp : w.processes.lookup i = some p)
    (hgoes : p.GoesOn []) : (w.stopOne env i).1.cascade = p.config.cascadeStop := by
  simp only [stopOne, hp]
  rcases hgoes with hwaiting | ⟨hrestarting, hpid, _⟩
  · rw [hwaiting, if_neg (by decide), if_pos rfl]
  · rw [if_neg hrestarting]
    split_ifs
    · rfl
    · have hmarked : p.markStopping.pid ≠ 0 := hpid
      simp only [stopTaken, sendSignal_eq henv hmarked]
      exact cascade_stopGrace henv rfl hmarked _

/-! ### Stops inside a closed set -/

/-- If no stop in `S` goes on to a process outside `S`, all nested calls are in `S`. -/
theorem stopMeets_of_closed (hclosed : ∀ i ∈ S, ∀ w : World, RestOf w₀ w → (w.stopOne env i).1.cascade = true →
      ∀ d ∈ (w.stopOne env i).2.dependents i, d ∈ S)
    (fuel : ℕ) (hid : id ∈ S) (hrest : RestOf w₀ w) : StopMeets env (fun i _ => i ∈ S) fuel id w := by
  induction fuel generalizing id w with
  | zero => trivial
  | succ fuel ih =>
    refine ⟨hid, fun hcascade => ?_⟩
    have hfold : ∀ (ds : List ProcessId) (w₁ : World), (∀ d ∈ ds, d ∈ S) → RestOf w₀ w₁ →
        Fold.Meets (fun w dep => StopMeets env (fun i _ => i ∈ S) fuel dep w)
          (fun w dep => (stopFuel env fuel dep w).2) ds w₁ := by
      intro ds
      induction ds with
      | nil => exact fun _ _ _ => trivial
      | cons d ds ihds =>
        intro w₁ hds hw₁
        exact ⟨ih (hds d List.mem_cons_self) hw₁,
          ihds _ (fun e he => hds e (List.mem_cons_of_mem _ he)) (hw₁.stopFuel fuel d)⟩
    exact hfold _ _ (hclosed id hid w hrest hcascade) (hrest.stopOne id)

/-- Whom a stop goes on to: bound to an entry with `cascade_stop`. -/
theorem dependents_of_cascade (hcascade : (w.stopOne env i).1.cascade = true)
    (hd : j ∈ (w.stopOne env i).2.dependents i) :
    ∃ p q, w.processes.lookup i = some p ∧ p.config.cascadeStop = true ∧
      w.processes.lookup j = some q ∧ i ∈ q.resolvedDeps := by
  obtain ⟨q, hq, hdep⟩ := AssocMap.mem_keysWhere.mp hd
  cases hp : w.processes.lookup i with
  | none =>
    rw [stopOne_of_untracked hp] at hcascade
    cases hcascade
  | some p =>
    have hbefore : w.processes.lookup j = some q := RestOf.stopOne (fun _ _ h => h) i j q hq
    exact ⟨p, q, rfl, (stopOne_of_cascade hp hcascade).2, hbefore, of_decide_eq_true hdep⟩

/-- No stop of a process of `S` can go on to a process outside `S`. -/
def CascadesWithin (S : Set ProcessId) (w : World) : Prop :=
  ∀ i p j q, w.processes.lookup i = some p → i ∈ S → p.config.cascadeStop = true → p.GoesOn [] →
    w.processes.lookup j = some q → i ∈ q.resolvedDeps → j ∈ S

theorem stopMeets_within (henv : env.KillsSucceed) (hwithin : w₀.CascadesWithin S) (fuel : ℕ)
    (hid : id ∈ S) (hrest : RestOf w₀ w) : StopMeets env (fun i _ => i ∈ S) fuel id w := by
  refine stopMeets_of_closed (fun i hi w hrest hcascade d hd => ?_) fuel hid hrest
  obtain ⟨p, q, hp, hstop, hq, hdep⟩ := dependents_of_cascade hcascade hd
  obtain ⟨calls, _, _, _, hiff⟩ := stopOne_outcome henv hp
  have hcan : p.GoesOn [] := (hiff.mp hcascade).2.imp_right fun h => ⟨h.1, h.2.1, nofun⟩
  exact hwithin i p d q (hrest i p hp) hi hstop hcan (hrest d q hq) hdep

/-- A stop inside `S` does not touch the entries outside. -/
theorem lookup_stop_outside (henv : env.KillsSucceed) (hwithin : w₀.CascadesWithin S) (hid : id ∈ S)
    (hrest : RestOf w₀ w) (hj : j ∉ S) :
    (w.stop env id).2.processes.lookup j = w.processes.lookup j := by
  refine stop_invariant (I := fun w' => w'.processes.lookup j = w.processes.lookup j)
    (C := fun i _ => i ∈ S) ?_ rfl (stopMeets_within henv hwithin _ hid hrest)
  intro i w' hw' hi
  cases hp : w'.processes.lookup i with
  | none => rw [stopOne_of_untracked hp, hw']
  | some p =>
    have hne : j ≠ i := fun heq => hj (heq ▸ hi)
    rw [stopOne_lookup hp, if_neg hne, hw']

theorem restOf_stopEach (env : Env) (order : List ProcessId) (w : World) :
    RestOf w (w.stopEach env order) := by
  induction order generalizing w with
  | nil => exact fun _ _ h => h
  | cons id order ih =>
    unfold stopEach
    split
    · exact ih w
    · exact fun i p hp => restOf_stopFuel env _ id w i p (ih _ i p hp)

/-- Stopping members of a closed set one by one leaves none of them and all others. -/
theorem tracked_stopEach (henv : env.KillsSucceed) (hwithin : w₀.CascadesWithin S)
    (horder : ∀ i ∈ order, i ∈ S) (hrest : RestOf w₀ w) (hall : ∀ i ∈ S, i ∈ w.tracked → i ∈ order) :
    (w.stopEach env order).tracked = w.tracked \ S := by
  have hmembers : ∀ i ∈ order, (w.stopEach env order).processes.lookup i = none := by
    clear horder hall hrest hwithin
    induction order generalizing w with
    | nil => exact fun i hi => absurd hi List.not_mem_nil
    | cons id order ih =>
      intro i hi
      unfold stopEach
      split
      · next hnone =>
        rcases List.mem_cons.mp hi with rfl | hi
        · exact (restOf_stopEach env order w).lookup_none hnone
        · exact ih i hi
      · rcases List.mem_cons.mp hi with rfl | hi
        · exact (restOf_stopEach env order _).lookup_none (lookup_stopFuel_self env _ i w)
        · exact ih i hi
  have houtside : ∀ j, j ∉ S → (w.stopEach env order).processes.lookup j = w.processes.lookup j := by
    intro j hj
    clear hall hmembers
    induction order generalizing w with
    | nil => rfl
    | cons id order ih =>
      have hlater : ∀ i ∈ order, i ∈ S := fun i hi => horder i (List.mem_cons_of_mem _ hi)
      unfold stopEach
      split
      · exact ih hlater hrest
      · have hstopped : RestOf w₀ (w.stop env id).2 := hrest.stopFuel _ id
        rw [ih hlater hstopped, lookup_stop_outside henv hwithin (horder id List.mem_cons_self) hrest hj]
  ext j
  by_cases hj : j ∈ S
  · simp only [Set.mem_sdiff, hj, not_true_eq_false, and_false, iff_false]
    intro htracked
    have hbefore : j ∈ w.tracked := (restOf_stopEach env order w).tracked htracked
    exact htracked (hmembers j (hall j hj hbefore))
  · simp only [Set.mem_sdiff, hj, not_false_eq_true, and_true]
    rw [tracked, Set.mem_ofPred_eq, houtside j hj]
    rfl

/-! ### When they agree -/

/-- Batch and single stops leave the same processes if and only if no cascade leaves the group;
for the whole map they always do. -/
theorem stops_agree_iff (label : Label) (w : World) :
    (w.LabelAgrees label ↔ ¬ w.CascadesOut label) ∧ w.AllAgrees := by
  refine ⟨⟨?_, ?_⟩, ?_⟩
  · rintro hagrees ⟨i, p, j, q, hp, hlabel, hstop, hgoes, hq, hother, hdep⟩
    have hi : i ∈ w.labelMembers label := mem_labelMembers.mpr ⟨p, hp, hlabel⟩
    have hj : j ∉ w.labelMembers label := by
      intro hmem
      obtain ⟨q', hq', hlabel'⟩ := mem_labelMembers.mp hmem
      obtain rfl : q = q' := Option.some.inj (hq.symm.trans hq')
      exact hother hlabel'
    have hne : j ≠ i := fun heq => hj (heq ▸ hi)
    -- stop `i` first, while every signal succeeds
    have hcalm : Env.calm.KillsSucceed := fun _ => .inl rfl
    have heq := hagrees .calm hcalm _ (List.perm_cons_erase hi).symm
    have hbatch : j ∈ (w.stopLabel .calm label).2.tracked := by
      rw [stopLabel, tracked_stopMany hcalm]
      exact ⟨mem_tracked.mpr ⟨q, hq⟩, hj⟩
    rw [heq] at hbatch
    simp only [stopEach, hp] at hbatch
    have hcascade : (w.stopOne .calm i).1.cascade = true := by
      rw [cascade_stopOne (fun _ => rfl) hp hgoes, hstop]
    have hdependent : j ∈ (w.stopOne .calm i).2.dependents i := by
      refine AssocMap.mem_keysWhere.mpr ⟨q, ?_, decide_eq_true hdep⟩
      rw [stopOne_lookup hp, if_neg hne, hq]
    exact hbatch ((restOf_stopEach .calm _ _).lookup_none (lookup_stop_dependent hcascade hdependent))
  · intro hinside env henv order horder
    have hwithin : w.CascadesWithin {i | i ∈ w.labelMembers label} := by
      intro i p j q hp hi hstop hgoes hq hdep
      obtain ⟨p', hp', hlabel⟩ := mem_labelMembers.mp hi
      obtain rfl : p = p' := Option.some.inj (hp.symm.trans hp')
      by_contra hj
      refine hinside ⟨i, p, j, q, hp, hlabel, hstop, hgoes, hq, fun hsame => ?_, hdep⟩
      exact hj (mem_labelMembers.mpr ⟨q, hq, hsame⟩)
    rw [stopLabel, tracked_stopMany henv, tracked_stopEach henv hwithin
      (fun i hi => horder.mem_iff.mp hi) (fun _ _ h => h) (fun i hi _ => horder.mem_iff.mpr hi)]
  · intro env henv order horder
    have hkeys : ∀ i, i ∈ w.tracked → i ∈ w.processes.keys := fun i hi =>
      AssocMap.mem_of_lookup (mem_tracked.mp hi).choose_spec
    have hwithin : w.CascadesWithin {i | i ∈ w.processes.keys} :=
      fun _ _ j q _ _ _ _ hq _ => AssocMap.mem_of_lookup hq
    rw [stopAll, tracked_stopMany henv, tracked_stopEach henv hwithin
      (fun i hi => horder.mem_iff.mp hi) (fun _ _ h => h) (fun i hi _ => horder.mem_iff.mpr hi)]

/-- The label of a database that has `cascade_stop` is stopped: the batch leaves its dependent, a
single stop takes it along. -/
theorem not_stops_agree :
    (chain.stopLabel .calm ⟨"db"⟩).2.processes.keys = [⟨2⟩] ∧
      (chain.stopEach .calm (chain.labelMembers ⟨"db"⟩)).processes.keys = [] ∧
      ¬ chain.LabelAgrees ⟨"db"⟩ := by
  have hbatch : (chain.stopLabel .calm ⟨"db"⟩).2.processes.keys = [⟨2⟩] := by decide +kernel
  have heach : (chain.stopEach .calm (chain.labelMembers ⟨"db"⟩)).processes.keys = [] := by decide +kernel
  refine ⟨hbatch, heach, fun hagrees => ?_⟩
  have hkept : ((chain.stopLabel .calm ⟨"db"⟩).2.processes.lookup ⟨2⟩).isSome = true :=
    AList.lookup_isSome.mpr (AList.mem_keys.mpr (hbatch ▸ List.mem_singleton_self _))
  have hgone : (chain.stopEach .calm (chain.labelMembers ⟨"db"⟩)).processes.lookup ⟨2⟩ = none :=
    AList.lookup_eq_none.mpr fun hmem => List.not_mem_nil (heach ▸ AList.mem_keys.mp hmem)
  have heq := hagrees .calm (fun _ => .inl rfl) _ (.refl _)
  have hmem : (⟨2⟩ : ProcessId) ∈ (chain.stopLabel .calm ⟨"db"⟩).2.tracked :=
    mem_tracked.mpr (Option.isSome_iff_exists.mp hkept)
  have hnone : (⟨2⟩ : ProcessId) ∉ (chain.stopEach .calm (chain.labelMembers ⟨"db"⟩)).tracked :=
    fun h => h hgone
  exact hnone (heq ▸ hmem)

end World

end ProcessManager
