import ProcessManager.Manager.StopMany
import ProcessManager.Os.Sends

/-! `ProcessManager::restart` and `restart_label`, in the sections between which the
source holds no guard. -/

namespace ProcessManager

namespace World

variable (env : Env)

/-- Cancel the backoff: drop the old child and reset the restart state. The state
stays `Restarting`. -/
def restartReset (id : ProcessId) (w : World) : World :=
  match w.processes.lookup id with
  | none => w
  | some p =>
    (p.release env w).put id { p with
      child := none
      restartState := p.restartState.map .reset }

/-- Overwrite the entry of a `Restarting` process with the new child. -/
def restartStore (id : ProcessId) (child pid : ℕ) (w : World) : Except ManagerError ProcessId × World :=
  match w.processes.lookup id with
  | none => (.error (.notFound id), w)
  | some p =>
    let w' := if p.restartState.isSome then w.tick env else w
    (.ok id, w'.put id { p with
      pid := pid
      child := some child
      state := .starting
      restartState := p.restartState.map (·.markStarted w'.clock) })

/-- Respawn a process found in `Restarting`. -/
def restartInPlace (id : ProcessId) (p : Process) (w : World) : Except ManagerError ProcessId × World :=
  let w := w.restartReset env id
  let w' := w.spawnProcess env .restart id p.config p.resolvedDeps
  match w.spawnError env p.config with
  | some e => (.error (e.toManagerError p.config.command), w')
  | none => w'.bumpSequence.restartStore env id w.nextChild (w.nextPid env)

/-- Respawn a process that `stop` removed: a fresh entry under the old id. -/
def restartInsert (id : ProcessId) (p : Process) (w : World) : Except ManagerError ProcessId × World :=
  let w' := w.spawnProcess env .restart id p.config []
  match w.spawnError env p.config with
  | some e => (.error (e.toManagerError p.config.command), w')
  | none =>
    (.ok id, (w'.bumpSequence.insert env id
      (w.spawnedProcess env id p.label p.config [])).markStartedEntry env id)

/-- `ProcessManager::restart` -/
def restart (id : ProcessId) (w : World) : Except ManagerError ProcessId × World :=
  match w.processes.lookup id with
  | none => (.error (.notFound id), w)
  | some p =>
    if p.state = .restarting then w.restartInPlace env id p
    else
      let r := w.stop env id
      match r.1 with
      | .error e => (.error e, r.2)
      | .ok _ => r.2.restartInsert env id p

/-- `restart_label` over the ids found first: it stops at the first error. -/
def restartAll : List ProcessId → World → Except ManagerError (List ProcessId) × World
  | [], w => (.ok [], w)
  | id :: ids, w =>
    let r := w.restart env id
    match r.1 with
    | .error e => (.error e, r.2)
    | .ok new =>
      let s := restartAll ids r.2
      (s.1.map (new :: ·), s.2)

def restartLabel (label : Label) (w : World) : Except ManagerError (List ProcessId) × World :=
  w.restartAll env (w.labelMembers label)

/-! ### What a restart changes -/

variable {env} {id k : ProcessId} {p : Process} {w : World} {P : KillCall → Prop}

theorem restartReset_eq (env : Env) (hp : w.processes.lookup id = some p) :
    ∃ w', OsStep p.handles P w w' ∧ w.restartReset env id =
      w'.put id { p with child := none, restartState := p.restartState.map .reset } := by
  simp only [restartReset, hp]
  exact ⟨_, Process.osStep_release, rfl⟩

theorem restartStore_eq (env : Env) (child pid : ℕ) (hp : w.processes.lookup id = some p) :
    ∃ w' now, OsStep ∅ P w w' ∧ (w.restartStore env id child pid).2 =
      w'.put id { p with
        pid := pid
        child := some child
        state := .starting
        restartState := p.restartState.map (·.markStarted now) } := by
  simp only [restartStore, hp]
  refine ⟨_, _, ?_, rfl⟩
  split_ifs
  · exact w.osStep_tick env
  · exact .refl w

theorem restartInPlace_lookup (env : Env) (hid : id ≠ k) (hp : w.processes.lookup k = some p) :
    (w.restartInPlace env k p).2.processes.lookup id = w.processes.lookup id := by
  obtain ⟨w₁, hstep, heq⟩ := restartReset_eq (P := fun _ => True) env hp
  have hreset : (w.restartReset env k).processes.lookup id = w.processes.lookup id := by
    rw [heq, put_processes, AssocMap.lookup_replace, if_neg hid, hstep.processes]
  simp only [restartInPlace]
  split
  · rw [spawnProcess_processes, hreset]
  · unfold restartStore
    split
    · exact (congrArg (AList.lookup id) (spawnProcess_processes env _ _ _ _ _)).trans hreset
    · split_ifs <;> rw [put_processes, AssocMap.lookup_replace, if_neg hid] <;>
        exact (congrArg (AList.lookup id) (spawnProcess_processes env _ _ _ _ _)).trans hreset

theorem markStartedEntry_lookup (env : Env) (hid : id ≠ k) (w : World) :
    (w.markStartedEntry env k).processes.lookup id = w.processes.lookup id := by
  unfold markStartedEntry
  split
  · split
    · rw [put_processes, AssocMap.lookup_replace, if_neg hid, tick_processes]
    · rfl
  · rfl

theorem restart_cases (env : Env) (id : ProcessId) (w : World) :
    (w.processes.lookup id = none ∧ (w.restart env id).2 = w) ∨
    ∃ p, w.processes.lookup id = some p ∧
      ((p.state = .restarting ∧ (w.restart env id).2 = (w.restartInPlace env id p).2) ∨
        (p.state ≠ .restarting ∧ ((w.restart env id).2 = (w.stop env id).2 ∨
          (w.restart env id).2 = ((w.stop env id).2.restartInsert env id p).2))) := by
  simp only [restart]
  split
  · next h => exact .inl ⟨h, rfl⟩
  · next p hp =>
    refine .inr ⟨p, hp, ?_⟩
    split_ifs with hstate
    · exact .inl ⟨hstate, rfl⟩
    · refine .inr ⟨hstate, ?_⟩
      split
      · exact .inl rfl
      · exact .inr rfl

/-- `C` holds at every call of `restart` that `restart_label` makes. -/
def RestartsMeet (env : Env) (C : ProcessId → World → Prop) : List ProcessId → World → Prop
  | [], _ => True
  | id :: ids, w => C id w ∧
      ((w.restart env id).1.isOk = true → RestartsMeet env C ids (w.restart env id).2)

theorem restartAll_invariant {I : World → Prop} {C : ProcessId → World → Prop}
    (hstep : ∀ id w, I w → C id w → I (w.restart env id).2) :
    ∀ ids w, I w → RestartsMeet env C ids w → I (w.restartAll env ids).2 := by
  intro ids
  induction ids with
  | nil => exact fun _ hw _ => hw
  | cons id ids ih =>
    intro w hw hmeets
    have hone : I (w.restart env id).2 := hstep id w hw hmeets.1
    simp only [restartAll]
    split
    · exact hone
    · next new hnew => exact ih _ hone (hmeets.2 (by rw [hnew]; rfl))

theorem restartsMeet_of_forall {C : ProcessId → World → Prop} (h : ∀ id w, C id w) :
    ∀ ids w, RestartsMeet env C ids w
  | [], _ => trivial
  | id :: ids, w => ⟨h id w, fun _ => restartsMeet_of_forall h ids _⟩

/-- Where each restart keeps `I` exactly if it meets the condition and loses it for good otherwise, so
does `restart_label`. -/
theorem restartAll_meets_or_lost {I L : World → Prop} {C : ProcessId → World → Prop} {ids : List ProcessId}
    (hkeep : ∀ id ∈ ids, ∀ w, I w → C id w → I (w.restart env id).2)
    (hlose : ∀ id ∈ ids, ∀ w, I w → ¬ C id w → L (w.restart env id).2) (hlost : ∀ id w, L w → L (w.restart env id).2)
    (hw : I w) : (RestartsMeet env C ids w ∧ I (w.restartAll env ids).2) ∨
      (¬ RestartsMeet env C ids w ∧ L (w.restartAll env ids).2) := by
  induction ids generalizing w with
  | nil => exact .inl ⟨trivial, hw⟩
  | cons id ids ih =>
    simp only [RestartsMeet, restartAll]
    by_cases hC : C id w
    · have hone : I (w.restart env id).2 := hkeep id List.mem_cons_self w hw hC
      split
      · next e he => exact .inl ⟨⟨hC, fun h => by rw [he] at h; cases h⟩, hone⟩
      · next new hnew =>
        have hok : (w.restart env id).1.isOk = true := by rw [hnew]; rfl
        have hrest := ih (fun i hi => hkeep i (List.mem_cons_of_mem _ hi)) (fun i hi => hlose i (List.mem_cons_of_mem _ hi)) hone
        exact hrest.imp (fun h => ⟨⟨hC, fun _ => h.1⟩, h.2⟩) fun h => ⟨fun hmeets => h.1 (hmeets.2 hok), h.2⟩
    · have hone : L (w.restart env id).2 := hlose id List.mem_cons_self w hw hC
      refine .inr ⟨fun hmeets => hC hmeets.1, ?_⟩
      split
      · exact hone
      · exact restartAll_invariant (C := fun _ _ => True) (fun id w hw _ => hlost id w hw) ids _ hone
          (restartsMeet_of_forall (fun _ _ => trivial) ids _)

end World

end ProcessManager
