import ProcessManager.Manager.Sends
import ProcessManager.Manager.StopEnds
import ProcessManager.Manager.StopRefused

/-! The two ends of a `restart`. A process found in `Restarting` keeps its entry and gets a new
child; any other one is stopped, which removes its entry, and gets a new entry under its id. -/

namespace ProcessManager

open Relation

namespace World

variable {env : Env} {w w' w₀ : World} {id i j : ProcessId} {p q : Process} {e : SpawnError}

/-! ### In place -/

theorem restartReset_lookup (env : Env) (hp : w.processes.lookup id = some p) :
    (w.restartReset env id).processes.lookup id =
      some { p with child := none, restartState := p.restartState.map .reset } := by
  obtain ⟨w₁, hstep, heq⟩ := restartReset_eq (P := fun _ => True) env hp
  rw [heq, put_processes, AssocMap.lookup_replace, if_pos rfl, hstep.processes, hp, Option.map_some]

theorem restartInPlace_of_error (he : (w.restartReset env id).spawnError env p.config = some e) :
    w.restartInPlace env id p = (.error (e.toManagerError p.config.command),
      (w.restartReset env id).spawnProcess env .restart id p.config p.resolvedDeps) := by
  simp only [restartInPlace, he]

/-- The entry after a successful spawn in place. -/
theorem restartInPlace_of_ok (hp : w.processes.lookup id = some p)
    (hok : (w.restartReset env id).spawnError env p.config = none) :
    (w.restartInPlace env id p).1 = .ok id ∧
      ∃ now, (w.restartInPlace env id p).2.processes.lookup id = some { p with
        pid := (w.restartReset env id).nextPid env
        child := some (w.restartReset env id).nextChild
        state := .starting
        restartState := p.restartState.map fun rs => rs.reset.markStarted now } := by
  set w₁ := w.restartReset env id with hw₁
  set w₂ := (w₁.spawnProcess env .restart id p.config p.resolvedDeps).bumpSequence with hw₂
  have hentry : w₂.processes.lookup id =
      some { p with child := none, restartState := p.restartState.map .reset } := by
    have hspawn : w₂.processes = w₁.processes := spawnProcess_processes ..
    rw [hspawn, hw₁, restartReset_lookup env hp]
  have heq : w.restartInPlace env id p = w₂.restartStore env id w₁.nextChild (w₁.nextPid env) := by
    simp only [restartInPlace, ← hw₁, hok, ← hw₂]
  obtain ⟨w₃, now, hstep, hstore⟩ := restartStore_eq (P := fun _ => True) env w₁.nextChild
    (w₁.nextPid env) hentry
  rw [heq]
  refine ⟨by simp only [restartStore, hentry], now, ?_⟩
  rw [hstore, put_processes, AssocMap.lookup_replace, if_pos rfl, hstep.processes, hentry,
    Option.map_some, Option.map_map]
  rfl

/-! ### After a stop -/

theorem restartInsert_of_error (he : w.spawnError env p.config = some e) :
    w.restartInsert env id p = (.error (e.toManagerError p.config.command),
      w.spawnProcess env .restart id p.config []) := by
  simp only [restartInsert, he]

theorem restartInsert_eq (hok : w.spawnError env p.config = none) :
    w.restartInsert env id p = (.ok id,
      ((w.spawnProcess env .restart id p.config []).bumpSequence.insert env id
        (w.spawnedProcess env id p.label p.config [])).markStartedEntry env id) := by
  simp only [restartInsert, hok]

theorem markStartedEntry_self (env : Env) (hp : w.processes.lookup id = some p) :
    ∃ now, (w.markStartedEntry env id).processes.lookup id =
      some { p with restartState := p.restartState.map (·.markStarted now) } := by
  cases hrs : p.restartState with
  | none =>
    refine ⟨0, ?_⟩
    simp only [markStartedEntry, hp, hrs, Option.map_none]
    rw [← hrs]
  | some rs =>
    refine ⟨(w.tick env).clock, ?_⟩
    simp only [markStartedEntry, hp, hrs, Option.map_some]
    rw [put_processes, AssocMap.lookup_replace, if_pos rfl, tick_processes, hp, Option.map_some]

/-- The entry after a successful spawn under the old id. -/
theorem restartInsert_of_ok (id : ProcessId) (hok : w.spawnError env p.config = none) :
    (w.restartInsert env id p).1 = .ok id ∧
      ∃ now, (w.restartInsert env id p).2.processes.lookup id =
        some { w.spawnedProcess env id p.label p.config [] with
          restartState := (w.spawnedProcess env id p.label p.config []).restartState.map
            (·.markStarted now) } := by
  rw [restartInsert_eq hok]
  refine ⟨rfl, markStartedEntry_self env ?_⟩
  rw [insert_processes, AssocMap.lookup_reorder, AssocMap.lookup_insert_eq, if_pos rfl]

theorem restartInsert_lookup (env : Env) (hi : i ≠ id) (p : Process) (w : World) :
    (w.restartInsert env id p).2.processes.lookup i = w.processes.lookup i := by
  cases hspawn : w.spawnError env p.config with
  | some e =>
    rw [restartInsert_of_error hspawn]
    exact congrArg (AList.lookup i) (spawnProcess_processes ..)
  | none =>
    rw [restartInsert_eq hspawn, markStartedEntry_lookup env hi, insert_processes,
      AssocMap.lookup_reorder, AssocMap.lookup_insert_eq, if_neg hi]
    exact congrArg (AList.lookup i) (spawnProcess_processes ..)

/-! ### The stop before it -/

/-- A stop of a tracked process succeeds unless a signal is refused. -/
theorem stopOne_result (env : Env) (hp : w.processes.lookup id = some p) :
    (w.stopOne env id).1.result = .ok () ∨ (w.stopOne env id).1.Failed := by
  have hescalate : ∀ (q : Process) (w : World),
      (w.stopEscalate env q).1.result = .ok () ∨ (w.stopEscalate env q).1.Failed := by
    intro q w
    simp only [stopEscalate]
    split
    · exact .inl rfl
    · exact .inr ⟨_, _, rfl⟩
    · exact .inl rfl
  have hgrace : ∀ (q : Process) (w : World),
      (w.stopGrace env q).1.result = .ok () ∨ (w.stopGrace env q).1.Failed := by
    intro q w
    simp only [stopGrace]
    split_ifs
    · exact .inl rfl
    · exact hescalate _ _
  simp only [stopOne, hp]
  split_ifs
  · exact .inl rfl
  · exact .inl rfl
  · simp only [stopTaken]
    split
    · exact .inl rfl
    · exact .inr ⟨_, _, rfl⟩
    · exact hgrace _ _

theorem stop_ok_iff (env : Env) (hp : w.processes.lookup id = some p) :
    (w.stop env id).1 = .ok () ↔ ¬ w.SignalsRefused env id := by
  rw [← stop_failed_iff, stop_result]
  constructor
  · rintro hok ⟨pid, e, hfailed⟩
    rw [hok] at hfailed
    cases hfailed
  · intro hnot
    exact (stopOne_result env hp).resolve_right hnot

/-! ### The events of a stop -/

/-- The stop of this process sends its event: it is `Waiting`, and a reaper passes events on to
somebody who listens. -/
def ReportsWaiting (env : Env) (p : Process) (w : World) : Prop :=
  p.state = .waiting ∧ w.reaper ≠ .absent ∧ w.sendOk env = true

/-- The stop of one process sends its own event or none. -/
theorem sends_stopOne (env : Env) (id : ProcessId) (w : World) :
    (∃ p s, w.processes.lookup id = some p ∧ w.ReportsWaiting env p ∧ s.event.id = id ∧
      (w.stopOne env id).2.sends = s :: w.sends) ∨
    (∀ p, w.processes.lookup id = some p → ¬ w.ReportsWaiting env p) ∧
      (w.stopOne env id).2.sends = w.sends := by
  by_cases hwaiting : ∃ p, w.processes.lookup id = some p ∧ p.state = .waiting
  · obtain ⟨p, hp, hstate⟩ := hwaiting
    rw [stopOne_of_waiting hp hstate]
    obtain ⟨hreaper, hok, hsends⟩ | ⟨hnot, hsends⟩ :=
      sends_sendFromHandle env (p.endEvent id .stopped) (w.remove id)
    · exact .inl ⟨p, _, hp, ⟨hstate, hreaper, hok⟩, rfl, hsends⟩
    · refine .inr ⟨fun p' hp' hreports => hnot hreports.2, hsends⟩
  · have hnone : ∀ p, w.processes.lookup id = some p → p.state ≠ .waiting :=
      fun p hp hstate => hwaiting ⟨p, hp, hstate⟩
    exact .inr ⟨fun p hp hreports => hnone p hp hreports.1, stopOne_sends env hnone⟩

theorem suffix_stopOne (env : Env) (id : ProcessId) (w : World) :
    w.sends <:+ (w.stopOne env id).2.sends := by
  obtain ⟨_, s, _, _, _, hsends⟩ | ⟨_, hsends⟩ := sends_stopOne env id w
  · exact hsends ▸ List.suffix_cons _ _
  · exact hsends ▸ List.suffix_rfl

/-- A stop of `j` sends nothing for another process. -/
theorem sentFor_stopOne (env : Env) (hij : i ≠ j) (w : World) : w.sentFor i (w.stopOne env j).2 = [] := by
  obtain ⟨_, s, _, _, hid, hsends⟩ | ⟨_, hsends⟩ := sends_stopOne env j w
  · rw [sentFor_cons hsends, if_neg]
    rw [hid]
    exact Ne.symm hij
  · exact sentFor_of_eq hsends

/-- Nothing about `i` has changed, and nothing was sent for it. -/
structure Untouched (i : ProcessId) (w w' : World) : Prop where
  lookup : w'.processes.lookup i = w.processes.lookup i
  sends : w.sends <:+ w'.sends
  silent : w.sentFor i w' = []

theorem Untouched.refl (i : ProcessId) (w : World) : Untouched i w w :=
  ⟨rfl, List.suffix_rfl, sentFor_of_eq rfl⟩

theorem Untouched.trans {w'' : World} (h : Untouched i w w') (h' : Untouched i w' w'') : Untouched i w w'' where
  lookup := h'.lookup.trans h.lookup
  sends := h.sends.trans h'.sends
  silent := by rw [sentFor_trans i h.sends h'.sends, h.silent, h'.silent, List.append_nil]

theorem Untouched.of_sends_eq (hlookup : w'.processes.lookup i = w.processes.lookup i)
    (hsends : w'.sends = w.sends) : Untouched i w w' :=
  ⟨hlookup, hsends ▸ List.suffix_rfl, sentFor_of_eq hsends⟩

theorem untouched_stopOne (env : Env) (hij : i ≠ j) (w : World) : Untouched i w (w.stopOne env j).2 where
  lookup := by
    cases hp : w.processes.lookup j with
    | none => rw [stopOne_of_untracked hp]
    | some p => rw [stopOne_lookup hp, if_neg hij]
  sends := suffix_stopOne env j w
  silent := sentFor_stopOne env hij w

/-- Whoever is not tracked is not touched. -/
theorem untouched_stopFuel_of_none (env : Env) (fuel : ℕ) (hi : w.processes.lookup i = none) (j : ProcessId) :
    Untouched i w (w.stopFuel env fuel j).2 := by
  refine stopFuel_invariant (I := Untouched i w) (C := fun _ _ => True) ?_ fuel j w (.refl i w)
    (stopMeets_of_forall (fun _ _ => trivial) fuel j w)
  intro k w' hw' _
  by_cases hk : i = k
  · subst hk
    rw [stopOne_of_untracked (hw'.lookup.trans hi)]
    exact hw'
  · exact hw'.trans (untouched_stopOne env hk w')

/-- A stop touches only whom it can reach along `cascade_stop`. -/
theorem untouched_stop (env : Env) (h : ¬ ReflTransGen w.PassesOn j i) : Untouched i w (w.stop env j).2 := by
  have hclosed : ∀ k ∈ {k | ReflTransGen w.PassesOn j k}, ∀ w' : World, RestOf w w' →
      (w'.stopOne env k).1.cascade = true →
        ∀ d ∈ (w'.stopOne env k).2.dependents k, d ∈ {k | ReflTransGen w.PassesOn j k} := by
    intro k hk w' hrest hcascade d hd
    obtain ⟨p, q, hp, hstop, hq, hdep⟩ := dependents_of_cascade hcascade hd
    exact ReflTransGen.tail hk ⟨p, q, hrest k p hp, hstop, hrest d q hq, hdep⟩
  refine stop_invariant (I := Untouched i w) (C := fun k _ => ReflTransGen w.PassesOn j k) ?_ (.refl i w)
    (stopMeets_of_closed hclosed _ ReflTransGen.refl fun _ _ hp => hp)
  intro k w' hw' hk
  have hne : i ≠ k := by
    rintro rfl
    exact h hk
  exact hw'.trans (untouched_stopOne env hne w')

/-- The stop of a process removes it, with its event if it is `Waiting` and somebody listens. -/
theorem stop_spec (env : Env) (hp : w.processes.lookup id = some p) :
    (w.stop env id).2.processes.lookup id = none ∧ w.sends <:+ (w.stop env id).2.sends ∧
      ((w.sentFor id (w.stop env id).2).length = 1 ∧ w.ReportsWaiting env p ∨
        w.sentFor id (w.stop env id).2 = [] ∧ ¬ w.ReportsWaiting env p) := by
  have hgone : (w.stopOne env id).2.processes.lookup id = none := by rw [stopOne_lookup hp, if_pos rfl]
  have hrest : Untouched id (w.stopOne env id).2 (w.stop env id).2 := by
    simp only [stop, stopFuel]
    split_ifs
    · refine Fold.foldl_invariant (I := Untouched id (w.stopOne env id).2) (.refl id _) ?_
      intro w' d _ hw'
      exact hw'.trans (untouched_stopFuel_of_none env _ (hw'.lookup.trans hgone) d)
    · exact .refl id _
  have hsuffix := suffix_stopOne env id w
  refine ⟨hrest.lookup.trans hgone, hsuffix.trans hrest.sends, ?_⟩
  rw [sentFor_trans id hsuffix hrest.sends, hrest.silent, List.append_nil]
  obtain ⟨p', s, hp', hreports, hid, hsends⟩ | ⟨hnot, hsends⟩ := sends_stopOne env id w
  · obtain rfl : p = p' := Option.some.inj (hp.symm.trans hp')
    rw [sentFor_cons hsends, if_pos hid]
    exact .inl ⟨rfl, hreports⟩
  · exact .inr ⟨sentFor_of_eq hsends, hnot p hp⟩

end World

end ProcessManager
