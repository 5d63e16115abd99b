import Mathlib.Data.Set.Card
import ProcessManager.Library.Sweep
import ProcessManager.Manager.Stop

/-! Which processes a `stop` removes: the one it names and, as long as every stop on the way
goes on to its dependents, all that depend on a removed one. -/

namespace ProcessManager

open Relation

/-- Every `kill` call succeeds or reports that there is no such process. -/
def Env.KillsSucceed (env : Env) : Prop :=
  ∀ n, env.killError n = none ∨ env.killError n = some .esrch

/-- Given the calls that were made, the stop of `p` goes on to its dependents if `cascade_stop`
is set: it is `Waiting`, or it has a child to signal and no signal missed it. -/
def Process.GoesOn (calls : List KillCall) (p : Process) : Prop :=
  p.state = .waiting ∨
    p.state ≠ .restarting ∧ p.pid ≠ 0 ∧ ∀ k ∈ calls, k.id = p.id → k.error ≠ some .esrch

instance (calls : List KillCall) (p : Process) : Decidable (p.GoesOn calls) :=
  inferInstanceAs (Decidable (_ ∨ _))

namespace World

variable {env : Env} {w w' w₀ : World} {p q : Process} {id i j : ProcessId} {G : ProcessId → Prop}

/-! ### Whether one stop goes on -/

theorem killError_eq (henv : env.KillsSucceed) (pid : ℕ) (w : World) :
    w.killError env pid = none ∨ w.killError env pid = some .esrch := by
  unfold killError
  split_ifs
  · exact .inl rfl
  · exact henv _

/-- A stop ends without an error, and goes on unless one of its calls missed. -/
structure Signals (p : Process) (w : World) (r : StopOutcome × World) (calls : List KillCall) : Prop where
  kills : r.2.kills = calls ++ w.kills
  id : ∀ k ∈ calls, k.id = p.id
  ok : r.1.result = .ok ()
  cascade : r.1.cascade = true ↔ p.config.cascadeStop = true ∧ ∀ k ∈ calls, k.error ≠ some .esrch

theorem kills_kill (env : Env) (site : KillSite) (p : Process) (signal : Signal) (w : World) :
    ∃ k : KillCall, (w.kill env site p signal).kills = k :: w.kills ∧ k.id = p.id ∧
      k.error = w.killError env p.pid := ⟨_, rfl, rfl, rfl⟩

theorem signals_stopEscalate (henv : env.KillsSucceed) (hpid : p.pid ≠ 0) (w : World) :
    ∃ calls, Signals p w (w.stopEscalate env p) calls := by
  set w₁ := w.kill env .stopEscalation p KillSignal.sigkill.toSignal with hw₁
  have hforce : p.forceKill env .stopEscalation w = (w.killError env p.pid, w₁) := if_neg hpid
  have hawait : OsStep p.handles (fun _ => False) w₁ (w₁.awaitKill env p) := osStep_awaitKill
  obtain ⟨k, hk, hid, herror⟩ := kills_kill env .stopEscalation p KillSignal.sigkill.toSignal w
  simp only [stopEscalate, hforce]
  rcases killError_eq henv p.pid w with hresult | hresult <;> rw [hresult] at herror ⊢
  · exact ⟨[k], hawait.kills.eq_of_none.trans hk, by simpa using hid, rfl, by simp [herror]⟩
  · exact ⟨[k], hk, by simpa using hid, rfl, by simp [herror]⟩

/-- The grace period makes no calls and always ends in the escalation. -/
theorem signals_stopGrace (henv : env.KillsSucceed) (hp : p.state = .stopping) (hpid : p.pid ≠ 0)
    (w : World) : ∃ calls, Signals p w (w.stopGrace env p) calls := by
  obtain ⟨hfst, hentry, hstep⟩ := graceLoop_of_stopping (w := w.tick env)
    (P := fun _ => False) env hp ((w.tick env).clock + millis p.config.terminateTimeoutMs)
    (loopFuel p.config.terminateTimeoutMs 50)
  simp only [stopGrace, hfst, Bool.false_eq_true, ↓reduceIte, hentry]
  obtain ⟨calls, hcalls⟩ := signals_stopEscalate henv hpid
    ((w.tick env).graceLoop env ((w.tick env).clock + millis p.config.terminateTimeoutMs)
      (loopFuel p.config.terminateTimeoutMs 50) p).2.2
  exact ⟨calls, { hcalls with kills := hcalls.kills.trans (congrArg _ hstep.kills.eq_of_none) }⟩

theorem signals_stopTaken (henv : env.KillsSucceed) (hpid : p.pid ≠ 0) (w : World) :
    ∃ calls, Signals p w (w.stopTaken env p) calls := by
  set q := p.markStopping with hq
  set w₁ := w.kill env .stop q p.config.killSignal.toSignal with hw₁
  have hsend : q.sendSignal env .stop q.config.killSignal w = (w.killError env p.pid, w₁) := if_neg hpid
  obtain ⟨k, hk, hid, herror⟩ := kills_kill env .stop q p.config.killSignal.toSignal w
  replace hid : k.id = p.id := hid
  simp only [stopTaken, ← hq, hsend]
  rcases killError_eq henv p.pid w with hresult | hresult
  · obtain ⟨calls, hcalls⟩ := signals_stopGrace henv (p := q) rfl hpid w₁
    have herror' : k.error ≠ some .esrch := by
      rw [herror, show w.killError env q.pid = none from hresult]
      simp
    rw [hresult]
    refine ⟨calls ++ [k], ?_, ?_, hcalls.ok, hcalls.cascade.trans ?_⟩
    · rw [hcalls.kills, List.append_assoc]
      exact congrArg _ hk
    · exact List.forall_mem_append.mpr ⟨hcalls.id, by simpa using hid⟩
    · simp only [List.forall_mem_append, List.forall_mem_singleton, herror', ne_eq, not_false_eq_true,
        and_true]
      rfl
  · have herror' : k.error = some .esrch := herror.trans hresult
    rw [hresult]
    exact ⟨[k], hk, by simpa using hid, rfl, by simp [herror']⟩

/-- A stop that finds an entry, up to its cascade. -/
theorem stopOne_outcome (henv : env.KillsSucceed) (hp : w.processes.lookup id = some p) :
    ∃ calls, (w.stopOne env id).2.kills = calls ++ w.kills ∧ (∀ k ∈ calls, k.id = p.id) ∧
      (w.stopOne env id).1.result = .ok () ∧
        ((w.stopOne env id).1.cascade = true ↔ p.config.cascadeStop = true ∧ p.GoesOn calls) := by
  simp only [stopOne, hp, Process.GoesOn]
  split_ifs with hrestarting hwaiting
  · exact ⟨[], rfl, by simp, rfl, by simp [hrestarting]⟩
  · have hsend : OsStep ∅ (fun _ => False) (w.remove id)
        ((w.remove id).sendFromHandle env (p.endEvent id .stopped)) := osStep_sendFromHandle _
    exact ⟨[], hsend.kills.eq_of_none, by simp, rfl, by simp [hwaiting]⟩
  · by_cases hpid : p.pid = 0
    · have hmissed : (w.remove id).stopTaken env p =
          (⟨.ok (), false⟩, p.markStopping.joinReaders env (w.remove id)) := by
        have hsend : p.markStopping.sendSignal env .stop p.markStopping.config.killSignal (w.remove id) =
            (some .esrch, w.remove id) := if_pos hpid
        simp only [stopTaken, hsend]
      rw [hmissed]
      exact ⟨[], rfl, by simp, rfl, by simp [hwaiting, hpid]⟩
    · obtain ⟨calls, hcalls⟩ := signals_stopTaken henv hpid (w.remove id)
      refine ⟨calls, hcalls.kills, hcalls.id, hcalls.ok, hcalls.cascade.trans ?_⟩
      simp only [hwaiting, hrestarting, hpid, ne_eq, not_false_eq_true, true_and, false_or]
      exact and_congr_right fun _ => forall₂_congr fun k hk => by simp [hcalls.id k hk]

/-! ### What the whole cascade removes -/

/-- The ids of the tracked processes. -/
def tracked (w : World) : Set ProcessId := {i | w.processes.lookup i ≠ none}

/-- A stop of `i` that goes on also stops `j`. -/
def Propagates (w : World) (G : ProcessId → Prop) (i j : ProcessId) : Prop :=
  ∃ p q, w.processes.lookup i = some p ∧ p.config.cascadeStop = true ∧ G i ∧
    w.processes.lookup j = some q ∧ i ∈ q.resolvedDeps

/-- The stop of `i` goes on exactly if `cascade_stop` is set and `G` says so. -/
def Decides (env : Env) (G : ProcessId → Prop) (i : ProcessId) (w : World) : Prop :=
  ∀ p, w.processes.lookup i = some p →
    ((w.stopOne env i).1.cascade = true ↔ p.config.cascadeStop = true ∧ G i)

theorem mem_tracked : i ∈ w.tracked ↔ ∃ p, w.processes.lookup i = some p := Option.ne_none_iff_exists'

theorem finite_tracked (w : World) : w.tracked.Finite :=
  (List.finite_toSet w.processes.keys).subset fun _ hi =>
    AssocMap.mem_of_lookup (mem_tracked.mp hi).choose_spec

theorem ncard_tracked_le (w : World) : w.tracked.ncard ≤ w.processes.keys.length := by
  have hsub : w.tracked ⊆ (w.processes.keys.toFinset : Set ProcessId) := fun i hi => by
    simpa using AssocMap.mem_of_lookup (mem_tracked.mp hi).choose_spec
  calc w.tracked.ncard ≤ (w.processes.keys.toFinset : Set ProcessId).ncard :=
        Set.ncard_le_ncard hsub (Finset.finite_toSet _)
    _ = w.processes.keys.toFinset.card := Set.ncard_coe_finset _
    _ ≤ w.processes.keys.length := List.toFinset_card_le _

theorem tracked_stopOne (env : Env) (hp : w.processes.lookup i = some p) :
    (w.stopOne env i).2.tracked = w.tracked \ {i} := by
  ext j
  rw [tracked, Set.mem_ofPred_eq, stopOne_lookup hp]
  split_ifs with hj <;> simp [tracked, hj]

/-- Each entry of `w` is the entry of `w₀`. -/
def RestOf (w₀ w : World) : Prop :=
  ∀ i p, w.processes.lookup i = some p → w₀.processes.lookup i = some p

theorem RestOf.stopOne (h : RestOf w₀ w) (i : ProcessId) : RestOf w₀ (w.stopOne env i).2 := by
  intro j q hq
  cases hp : w.processes.lookup i with
  | none =>
    rw [stopOne_of_untracked hp] at hq
    exact h j q hq
  | some p =>
    rw [stopOne_lookup hp] at hq
    split_ifs at hq
    exact h j q hq

theorem RestOf.stopFuel (h : RestOf w₀ w) (fuel : ℕ) (i : ProcessId) :
    RestOf w₀ (w.stopFuel env fuel i).2 :=
  stopFuel_invariant (C := fun _ _ => True) (fun i _ hw _ => hw.stopOne i) fuel i w h
    (stopMeets_of_forall (fun _ _ => trivial) fuel i w)

/-- A stop removes what it reaches. -/
theorem tracked_stopFuel (fuel : ℕ) (hsub : RestOf w₀ w) (hfuel : w.tracked.ncard < fuel)
    (hdecides : StopMeets env (Decides env G) fuel id w) :
    (w.stopFuel env fuel id).2.tracked = sweep (w₀.Propagates G) w.tracked id := by
  induction fuel generalizing id w with
  | zero => exact absurd hfuel (Nat.not_lt_zero _)
  | succ fuel ih =>
    obtain ⟨hone, hrest⟩ := hdecides
    simp only [stopFuel]
    cases hp : w.processes.lookup id with
    | none =>
      rw [stopOne_of_untracked hp, sweep_of_not_mem (by simp [tracked, hp])]
      rfl
    | some p =>
      have hid : id ∈ w.tracked := mem_tracked.mpr ⟨p, hp⟩
      have htracked := tracked_stopOne env hp
      have hfewer : (w.stopOne env id).2.tracked.ncard < fuel := by
        rw [htracked]
        have hlt : (w.tracked \ {id}).ncard < w.tracked.ncard :=
          Set.ncard_sdiff_singleton_lt_of_mem hid w.finite_tracked
        omega
      split_ifs with hcascade
      · -- the dependents that are still tracked are stopped in turn
        have hfold : ∀ (ds : List ProcessId) (w' : World), RestOf w₀ w' → w'.tracked.ncard < fuel →
            Fold.Meets (fun w dep => StopMeets env (Decides env G) fuel dep w)
              (fun w dep => (stopFuel env fuel dep w).2) ds w' →
            (ds.foldl (fun w dep => (stopFuel env fuel dep w).2) w').tracked =
              ds.foldl (sweep (w₀.Propagates G)) w'.tracked := by
          intro ds
          induction ds with
          | nil => exact fun _ _ _ _ => rfl
          | cons d ds ihds =>
            rintro w' hsub' hfuel' ⟨hd, hds⟩
            have hnext := ih hsub' hfuel' hd
            rw [List.foldl_cons, List.foldl_cons, ← hnext]
            refine ihds _ (hsub'.stopFuel fuel d) (lt_of_le_of_lt ?_ hfuel') hds
            rw [hnext]
            exact Set.ncard_le_ncard (fun _ h => h.1) w'.finite_tracked
        rw [hfold _ _ (hsub.stopOne id) hfewer (hrest hcascade), htracked]
        refine (sweep_of_mem _ hid fun d => ?_).symm
        obtain ⟨hstop, hG⟩ := (hone p hp).mp hcascade
        simp only [dependents, AssocMap.mem_keysWhere, decide_eq_true_eq, stopOne_lookup hp]
        constructor
        · rintro ⟨q, hq, hdep⟩
          split_ifs at hq with hd
          exact ⟨⟨mem_tracked.mpr ⟨q, hq⟩, hd⟩, p, q, hsub id p hp, hstop, hG, hsub d q hq, hdep⟩
        · rintro ⟨⟨hd, hne⟩, _, q, _, _, _, hq, hdep⟩
          obtain ⟨q', hq'⟩ := mem_tracked.mp hd
          obtain rfl : q = q' := Option.some.inj (hq.symm.trans (hsub d q' hq'))
          exact ⟨q, by rw [if_neg (by simpa using hne), hq'], hdep⟩
      · rw [htracked]
        refine (sweep_of_mem [] hid fun d => ?_).symm
        simp only [List.not_mem_nil, false_iff, not_and]
        rintro - ⟨p', _, hp', hstop, hG, _⟩
        obtain rfl : p = p' := Option.some.inj ((hsub id p hp).symm.trans hp')
        exact hcascade ((hone p hp).mpr ⟨hstop, hG⟩)

/-! ### The calls of the whole cascade -/

/-- The entries of `w'` are entries of `w`, and the calls since `w` are for removed ones. -/
structure Calls (w w' : World) : Prop where
  rest : RestOf w w'
  kills : Grows (fun k => k.id ∈ w.tracked ∧ k.id ∉ w'.tracked) w.kills w'.kills

theorem RestOf.tracked (h : RestOf w w') : w'.tracked ⊆ w.tracked := fun i hi => by
  obtain ⟨p, hp⟩ := mem_tracked.mp hi
  exact mem_tracked.mpr ⟨p, h i p hp⟩

theorem Calls.refl (w : World) : Calls w w := ⟨fun _ _ h => h, .refl _⟩

theorem Calls.trans {w'' : World} (h : Calls w w') (h' : Calls w' w'') : Calls w w'' where
  rest i p hp := h.rest i p (h'.rest i p hp)
  kills := (h.kills.mono fun _ hk => ⟨hk.1, fun hmem => hk.2 (h'.rest.tracked hmem)⟩).trans
    (h'.kills.mono fun _ hk => ⟨h.rest.tracked hk.1, hk.2⟩)

/-- Every entry lies under its own id. -/
def Keyed (w : World) : Prop := ∀ i p, w.processes.lookup i = some p → p.id = i

theorem Calls.keyed (hkey : w.Keyed) (h : Calls w w') : w'.Keyed :=
  fun i p hp => hkey i p (h.rest i p hp)

theorem calls_stopOne (env : Env) (hkey : w.Keyed) (i : ProcessId) : Calls w (w.stopOne env i).2 := by
  refine ⟨RestOf.stopOne (fun _ _ h => h) i, ?_⟩
  cases hp : w.processes.lookup i with
  | none =>
    rw [stopOne_of_untracked hp]
    exact .refl _
  | some p =>
    have hstep : OsStep p.handles _ (w.remove i) (w.stopOne env i).2 := osStep_stopOne hp
    refine hstep.kills.mono fun k hk => ?_
    rw [hk.1.id, hkey i p hp, tracked_stopOne env hp]
    exact ⟨mem_tracked.mpr ⟨p, hp⟩, by simp⟩

theorem calls_stopFuel (env : Env) (hkey : w.Keyed) (fuel : ℕ) (i : ProcessId) :
    Calls w (w.stopFuel env fuel i).2 :=
  stopFuel_invariant (C := fun _ _ => True)
    (fun i _ hw _ => hw.trans (calls_stopOne env (hw.keyed hkey) i)) fuel i w (.refl w)
    (stopMeets_of_forall (fun _ _ => trivial) fuel i w)

theorem calls_dependents (env : Env) (hkey : w.Keyed) (fuel : ℕ) (ds : List ProcessId) :
    Calls w (ds.foldl (fun w dep => (stopFuel env fuel dep w).2) w) :=
  Fold.foldl_invariant (I := Calls w) (.refl w) fun _ d _ hw =>
    hw.trans (calls_stopFuel env (hw.keyed hkey) fuel d)

/-- The calls made since `w`. -/
def callsSince (w w' : World) : List KillCall := w'.kills.take (w'.kills.length - w.kills.length)

theorem callsSince_eq {calls : List KillCall} (h : w'.kills = calls ++ w.kills) :
    callsSince w w' = calls := by
  rw [callsSince, h, List.length_append, Nat.add_sub_cancel, List.take_left]

/-- The process `i` of `w` is stopped so that the stop goes on, in a call that ends in `w'`. -/
def StopGoesOn (w w' : World) (i : ProcessId) : Prop :=
  ∃ p, w.processes.lookup i = some p ∧ p.GoesOn (callsSince w w')

/-- The calls for a process are made when it is stopped, so the log of the whole call tells
which of its stops go on. -/
theorem stopMeets_decides (henv : env.KillsSucceed) (hkey : w₀.Keyed) (fuel : ℕ) (id : ProcessId)
    (hbefore : Calls w₀ w) (hafter : Calls (w.stopFuel env fuel id).2 w') :
    StopMeets env (Decides env (StopGoesOn w₀ w')) fuel id w := by
  induction fuel generalizing id w with
  | zero => trivial
  | succ fuel ih =>
    have hone := calls_stopOne env (hbefore.keyed hkey) id
    refine ⟨fun p hp => ?_, fun hcascade => ?_⟩
    · have hlater : Calls (w.stopOne env id).2 w' := by
        refine .trans ?_ hafter
        simp only [stopFuel]
        split_ifs
        · exact calls_dependents env ((hbefore.trans hone).keyed hkey) fuel _
        · exact .refl _
      obtain ⟨calls, hcalls, hids, _, hgoes⟩ := stopOne_outcome henv hp
      obtain ⟨old, hold, hforeign⟩ := hbefore.kills
      obtain ⟨new, hnew, hforeign'⟩ := hlater.kills
      have hall : callsSince w₀ w' = new ++ (calls ++ old) := by
        refine callsSince_eq ?_
        rw [hnew, hcalls, hold, List.append_assoc, List.append_assoc]
      have hid : p.id = id := hbefore.keyed hkey id p hp
      -- the other calls of the log are for other processes
      have hsame : p.GoesOn (new ++ (calls ++ old)) ↔ p.GoesOn calls := by
        refine or_congr Iff.rfl (and_congr_right fun _ => and_congr_right fun _ => ?_)
        refine ⟨fun h k hk => h k (by simp [hk]), fun h k hk hkid => ?_⟩
        rcases List.mem_append.mp hk with hk | hk
        · have hmem := (hforeign' k hk).1
          rw [hkid, hid, tracked_stopOne env hp] at hmem
          exact absurd rfl hmem.2
        · rcases List.mem_append.mp hk with hk | hk
          · exact h k hk hkid
          · refine absurd ?_ (hforeign k hk).2
            rw [hkid, hid]
            exact mem_tracked.mpr ⟨p, hp⟩
      rw [hgoes, StopGoesOn, hall]
      refine and_congr_right fun _ => ⟨fun h => ⟨p, hbefore.rest id p hp, hsame.mpr h⟩, ?_⟩
      rintro ⟨p', hp', hgoes'⟩
      obtain rfl : p' = p := Option.some.inj (hp'.symm.trans (hbefore.rest id p hp))
      exact hsame.mp hgoes'
    · have hfold : ∀ (ds : List ProcessId) (w₁ : World), Calls w₀ w₁ →
          Calls (ds.foldl (fun w dep => (stopFuel env fuel dep w).2) w₁) w' →
          Fold.Meets (fun w dep => StopMeets env (Decides env (StopGoesOn w₀ w')) fuel dep w)
            (fun w dep => (stopFuel env fuel dep w).2) ds w₁ := by
        intro ds
        induction ds with
        | nil => exact fun _ _ _ => trivial
        | cons d ds ihds =>
          intro w₁ hw₁ hend
          have hnext := hw₁.trans (calls_stopFuel env (hw₁.keyed hkey) fuel d)
          exact ⟨ih d hw₁ ((calls_dependents env (hnext.keyed hkey) fuel ds).trans hend),
            ihds _ hnext hend⟩
      refine hfold _ _ (hbefore.trans hone) ?_
      simp only [stopFuel, hcascade, ↓reduceIte] at hafter
      exact hafter

/-! ### The cascade is complete -/

/-- After an `Ok` no tracked process is bound to the stopped one, or to a process with
`cascade_stop` that the call has removed. -/
def CascadeComplete (env : Env) (id : ProcessId) (w : World) : Prop :=
  (w.stop env id).1 = .ok () → ∀ i p, w.processes.lookup i = some p →
    (i = id ∨ p.config.cascadeStop = true ∧ (w.stop env id).2.processes.lookup i = none) →
      ∀ j q, (w.stop env id).2.processes.lookup j = some q → i ∉ q.resolvedDeps

/-- Stops that go on lead from `id` to `j`. -/
def StopReaches (env : Env) (id : ProcessId) (w : World) : ProcessId → Prop :=
  Within w.tracked (w.Propagates (StopGoesOn w (w.stop env id).2)) id

/-- The dependents of a process with `cascade_stop` whose stop does not go on are reached
another way. -/
def DeadEndsHarmless (env : Env) (id : ProcessId) (w : World) : Prop :=
  ∀ i p, w.StopReaches env id i → w.processes.lookup i = some p → p.config.cascadeStop = true →
    ¬ StopGoesOn w (w.stop env id).2 i →
      ∀ j q, w.processes.lookup j = some q → i ∈ q.resolvedDeps → w.StopReaches env id j

/-- A stop removes exactly what it reaches. -/
theorem stop_lookup (henv : env.KillsSucceed) (hkey : w.Keyed) (id j : ProcessId) :
    (w.stop env id).2.processes.lookup j = none ↔
      w.processes.lookup j = none ∨ w.StopReaches env id j := by
  have hdecides : StopMeets env (Decides env (StopGoesOn w (w.stop env id).2)) _ id w :=
    stopMeets_decides henv hkey (w.processes.keys.length + 1) id (.refl w) (.refl _)
  have htracked := tracked_stopFuel _ (fun _ _ h => h) (Nat.lt_succ_of_le w.ncard_tracked_le) hdecides
  have hmem : j ∈ (w.stop env id).2.tracked ↔ j ∈ w.tracked ∧ ¬ w.StopReaches env id j := by
    rw [stop, htracked]
    rfl
  rw [← not_iff_not, not_or]
  exact hmem

theorem stop_ok (henv : env.KillsSucceed) (hp : w.processes.lookup id = some p) :
    (w.stop env id).1 = .ok () := by
  obtain ⟨_, _, _, hok, _⟩ := stopOne_outcome henv hp
  simp only [stop, stopFuel]
  split_ifs <;> exact hok

/-- The chain of dependents is stopped if and only if no stop that ends early leaves a
dependent behind. -/
theorem cascadeComplete_iff (henv : env.KillsSucceed) (hkey : w.Keyed)
    (hp : w.processes.lookup id = some p) (hcascade : p.config.cascadeStop = true) :
    w.CascadeComplete env id ↔ w.DeadEndsHarmless env id := by
  have hself : w.StopReaches env id id := .refl
  have hrest : RestOf w (w.stop env id).2 := (calls_stopFuel env hkey _ id).rest
  constructor
  · intro hcomplete i r hi hr hstop _ j q hq hdep
    by_contra hj
    have hremoved := (stop_lookup henv hkey id i).mpr (.inr hi)
    obtain ⟨q', hq'⟩ : ∃ q', (w.stop env id).2.processes.lookup j = some q' := by
      refine Option.ne_none_iff_exists'.mp fun hnone => ?_
      rcases (stop_lookup henv hkey id j).mp hnone with hnone | hreach
      · exact Option.some_ne_none q (hq.symm.trans hnone)
      · exact hj hreach
    obtain rfl : q = q' := Option.some.inj (hq.symm.trans (hrest j q' hq'))
    exact hcomplete (stop_ok henv hp) i r hr (.inr ⟨hstop, hremoved⟩) j q hq' hdep
  · intro hharmless _ i r hr hi j q hq hdep
    have hreached : w.StopReaches env id i ∧ r.config.cascadeStop = true := by
      rcases hi with rfl | ⟨hstop, hremoved⟩
      · obtain rfl : p = r := Option.some.inj (hp.symm.trans hr)
        exact ⟨hself, hcascade⟩
      · rcases (stop_lookup henv hkey id i).mp hremoved with hnone | hreach
        · exact absurd (hr.symm.trans hnone) (Option.some_ne_none r)
        · exact ⟨hreach, hstop⟩
    have hj : w.StopReaches env id j := by
      by_cases hgoes : StopGoesOn w (w.stop env id).2 i
      · exact hreached.1.tail ⟨mem_tracked.mpr ⟨r, hr⟩, mem_tracked.mpr ⟨q, hrest j q hq⟩, r, q, hr,
          hreached.2, hgoes, hrest j q hq, hdep⟩
      · exact hharmless i r hreached.1 hr hreached.2 hgoes j q (hrest j q hq) hdep
    have hgone := (stop_lookup henv hkey id j).mpr (.inr hj)
    exact Option.some_ne_none q (hq.symm.trans hgone)

/-- A database and a process that depends on it. -/
def chain : World :=
  ((World.withReaper.start .calm ⟨"db"⟩ { command := "/bin/db", cascadeStop := true }).2.start .calm
    ⟨"web"⟩ { command := "/bin/web", dependsOn := [.id ⟨1⟩] }).2

theorem keyed_chain : chain.Keyed := by
  have hkey : ∀ e ∈ chain.processes.entries, e.2.id = e.1 := by decide +kernel
  exact fun i q hq => hkey ⟨i, q⟩ (AList.mem_lookup_iff.mp hq)

/-- Both are stopped while their children run. -/
theorem cascadeComplete_chain :
    (chain.processes.lookup ⟨2⟩).map Process.resolvedDeps = some [⟨1⟩] ∧
      chain.CascadeComplete .calm ⟨1⟩ := by
  have hstop : (chain.processes.lookup ⟨1⟩).map (fun p => p.config.cascadeStop) = some true := by
    decide +kernel
  obtain ⟨p, hp, hstop⟩ := Option.map_eq_some_iff.mp hstop
  have hgoes : ∀ e ∈ chain.processes.entries, e.2.GoesOn (callsSince chain (chain.stop .calm ⟨1⟩).2) := by
    decide +kernel
  refine ⟨by decide +kernel, (cascadeComplete_iff (fun _ => .inl rfl) keyed_chain hp hstop).mpr ?_⟩
  intro i r _ hr _ hends
  exact absurd ⟨r, hr, hgoes ⟨i, r⟩ (AList.mem_lookup_iff.mp hr)⟩ hends

/-- A `kill` reports a process that is gone, and the database ends before its next poll. -/
def databaseEnds : Env := { Env.exitsAt [(3, ⟨0, .code 1, 0⟩)] with killError := fun _ => some .esrch }

/-- The end of the database was seen by `state`. -/
def crashedChain : World := chain.query databaseEnds ⟨1⟩

/-- Its stop returns at once, and its dependent stays. -/
theorem not_cascadeComplete_crashed :
    databaseEnds.KillsSucceed ∧
      (crashedChain.processes.lookup ⟨1⟩).map (fun p => (p.state, p.config.cascadeStop)) =
        some (.crashed, true) ∧
      ¬ crashedChain.CascadeComplete databaseEnds ⟨1⟩ := by
  refine ⟨fun _ => .inr rfl, by decide +kernel, fun hcomplete => ?_⟩
  have hdb : (crashedChain.processes.lookup ⟨1⟩).map Process.state = some .crashed := by decide +kernel
  have hweb : ((crashedChain.stop databaseEnds ⟨1⟩).2.processes.lookup ⟨2⟩).map Process.resolvedDeps =
      some [⟨1⟩] := by decide +kernel
  obtain ⟨p, hp, _⟩ := Option.map_eq_some_iff.mp hdb
  obtain ⟨q, hq, hdep⟩ := Option.map_eq_some_iff.mp hweb
  refine hcomplete (stop_ok (fun _ => .inr rfl) hp) ⟨1⟩ p hp (.inl rfl) ⟨2⟩ q hq ?_
  rw [hdep]
  exact List.mem_singleton_self _

end World

end ProcessManager
