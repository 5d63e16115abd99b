import ProcessManager.Manager.BatchOutcome
import ProcessManager.Reaper.Cascade
import ProcessManager.Reaper.ExitsFound
import ProcessManager.System.Moves

/-! How long a process stays `Failed`. Every call and the later phases of a pass leave such
an entry in its state or remove it. Phase 1 does not look at the stored state: a `Failed`
entry that still holds its child is found to exit like any other, and restarted if its
configuration says so. -/

namespace ProcessManager

variable {env : Env} {pollInterval : ℕ} {w w' : World} {id : ProcessId} {p : Process}

/-- The exit of a `Failed` process does not restart it. -/
def StaysFailed (now : Instant) (p : Process) (status : ExitStatus) : Prop :=
  p.state = .failed → ((p.stableUptime now).record status).restartConfig.isNone = true

instance (now : Instant) (p : Process) (status : ExitStatus) : Decidable (StaysFailed now p status) :=
  inferInstanceAs (Decidable (_ → _))

theorem Process.Visited.failed {q : Process} {now : Instant} (h : p.Visited now q) (hp : p.state = .failed) :
    q.state = .failed := by
  obtain rfl | rfl | rfl := h
  · exact hp
  · exact (Process.stableUptime_state now p).trans hp
  · simp [Process.afterPoll, hp]

namespace World

/-- No exit that Phase 1 of the next pass finds restarts a `Failed` process. -/
def FailedStay (env : Env) (pollInterval : ℕ) (w : World) : Prop :=
  w.ExitsMeet env pollInterval (StaysFailed (w.awake env pollInterval).clock)

instance (w : World) : Decidable (w.FailedStay env pollInterval) :=
  inferInstanceAs (Decidable (w.ExitsMeet env pollInterval (StaysFailed _)))

/-- As long as `id` is tracked it is `Failed`. -/
def FailedAt (id : ProcessId) (w : World) : Prop :=
  ∀ p, w.processes.lookup id = some p → p.state = .failed

theorem FailedAt.of_refines {R : ProcessId → Process → Process → Prop} (h : w.FailedAt id)
    (hmap : AssocMap.Refines R w.processes w'.processes)
    (hR : ∀ q q', R id q q' → q.state = .failed → q'.state = .failed) : w'.FailedAt id := by
  intro q' hq'
  obtain ⟨q, hq, hr⟩ := hmap id q' hq'
  exact hR q q' hr (h q hq)

theorem FailedAt.kept (h : w.FailedAt id) (hmap : AssocMap.Refines Kept w.processes w'.processes) :
    w'.FailedAt id :=
  h.of_refines hmap fun _ _ heq hp => (congrArg Process.state heq).trans hp

theorem FailedAt.of_processes (h : w.FailedAt id) (hmap : w'.processes = w.processes) :
    w'.FailedAt id := by
  unfold FailedAt
  rwa [hmap]

/-- An entry is written back. -/
theorem FailedAt.put {i : ProcessId} (h : w.FailedAt id) (hmap : w'.processes = w.processes)
    (hp : i = id → p.state = .failed) : (w'.put i p).FailedAt id := by
  intro q hq
  rw [put_processes, hmap, AssocMap.lookup_replace] at hq
  split_ifs at hq with hi
  · obtain ⟨_, _, rfl⟩ := Option.map_eq_some_iff.mp hq
    exact hp hi.symm
  · exact h q hq

theorem FailedAt.insert {i : ProcessId} (h : w.FailedAt id) (hmap : w'.processes = w.processes)
    (hi : i ≠ id) : (w'.insert env i p).FailedAt id := by
  intro q hq
  rw [insert_processes, AssocMap.lookup_reorder, hmap, AssocMap.lookup_insert_eq, if_neg hi.symm] at hq
  exact h q hq

/-- A new entry is not one for `id`. -/
def NotStarted (id : ProcessId) : Point → World → Process → Prop :=
  fun point _ p => point = .start → p.id ≠ id

/-- No move takes a process out of `Failed`. -/
theorem failedAt_move (h : w.FailedAt id) (hmove : Move env (NotStarted id) w w') : w'.FailedAt id := by
  -- an entry in another state is not the one under `id`
  have hother : ∀ {i q}, w.processes.lookup i = some q → q.state ≠ .failed → i ≠ id := by
    rintro i q hq hstate rfl
    exact hstate (h q hq)
  cases hmove with
  | frame hstep => exact h.kept hstep.processes
  | count => exact h.of_processes rfl
  | poll hp =>
    refine h.of_refines (mapStep_pollEntry (P := fun _ => True) hp).processes ?_
    rintro q q' (rfl | ⟨hstate, _⟩) hq
    · exact hq
    · rcases hstate with hstate | hstate <;> rw [hq] at hstate <;> cases hstate
  | stop hp _ hstep =>
    exact h.kept (hstep.processes ▸ (MapStep.remove (S := ∅) (P := fun _ => True) _ _).processes)
  | batch _ hstep =>
    refine h.of_refines hstep.processes ?_
    rintro q q' (⟨_, rfl⟩ | ⟨rfl, _⟩) hq
    · exact hq
    · rfl
  | signal _ _ _ hstep => exact h.of_processes hstep.processes
  | adjust hp hadjust =>
    refine h.put rfl ?_
    rintro rfl
    exact hadjust.state.trans (h _ hp)
  | reset hp hstate hstep =>
    exact h.put hstep.processes fun hi => absurd hi (hother hp (by simp [hstate]))
  | spawn hp hstate hspawn =>
    refine h.put hspawn.processes fun hi => absurd hi (hother hp ?_)
    rcases hstate with hstate | hstate <;> simp [hstate]
  | insert hC hspawn hfresh => exact h.insert hspawn.processes (hfresh.id ▸ hC rfl)
  | insertWaiting hC hfresh => exact h.insert rfl (hfresh.id ▸ hC rfl)
  | toWaiting hp hstate => exact h.put rfl fun hi => absurd hi (hother hp (by simp [hstate]))
  | timeout => exact h.put rfl fun _ => rfl
  | failFast _ _ _ hstep => exact h.kept hstep.processes

/-! ### Phases 1 to 3 -/

theorem failedAt_afterPhase3 (hkey : ∀ i q, w.processes.lookup i = some q → q.id = i)
    (h : w.FailedAt id) (hstay : w.FailedStay env pollInterval) :
    (w.afterPhase3 env pollInterval).FailedAt id := by
  have hdetect : (w.detect env pollInterval).2.FailedAt id := by
    intro q hq
    obtain ⟨p, hp, hvisited⟩ := (phase1State_detect env pollInterval hkey).visited id q hq
    exact hvisited.failed (h p hp)
  -- no cascade targets a process in `Failed`
  have hcascade : (w.cascade env pollInterval).FailedAt id := by
    intro q hq
    rw [cascade, (killed_phase1b env _ _).lookup id, Option.map_eq_some_iff] at hq
    obtain ⟨p, hp, rfl⟩ := hq
    have hfailed := hdetect p hp
    split_ifs with htarget
    · obtain ⟨o, _, hid⟩ := List.mem_flatMap.mp htarget.1
      obtain ⟨p', hp', hselected⟩ := AssocMap.mem_keysWhere.mp hid
      obtain rfl : p = p' := Option.some.inj (hp.symm.trans hp')
      simp [cascadeSelects, hfailed] at hselected
    · exact hfailed
  have hphase2 : (w.passDetect env pollInterval).2.2.FailedAt id :=
    hcascade.kept (mapStep_passDetect (P := fun _ => True) env pollInterval w).processes
  refine ifRunning_invariant hphase2 fun _ => ?_
  -- an entry that is scheduled was recorded for a restart
  refine Fold.foldl_invariant (I := FailedAt id) hphase2 fun w' e he hw' => ?_
  refine ifRunning_invariant hw' fun _ => ?_
  by_cases hid : id = e.id
  · obtain ⟨p, status, hp, hfailed, hrecord⟩ := recordMeets_detect hkey hstay e he
    have hnone : e.restartConfig = none := by
      rw [hrecord]
      exact Option.isNone_iff_eq_none.mp (hfailed (h p (hid ▸ hp)))
    simpa only [scheduleEntry, hnone] using hw'
  · intro q hq
    rw [scheduleEntry_lookup env _ hid] at hq
    exact hw' q hq

/-- Phases 1 to 3 give out no ids. -/
theorem nextId_afterPhase3 (env : Env) (pollInterval : ℕ) (w : World) :
    (w.afterPhase3 env pollInterval).nextId = w.nextId := by
  have hdetect : (w.detect env pollInterval).2.nextId = w.nextId := by
    refine Fold.foldl_invariant (I := fun x : Exits × World => x.2.nextId = w.nextId) rfl ?_
    rintro ⟨x, w'⟩ id - (hw' : w'.nextId = w.nextId)
    obtain ⟨_, heq⟩ | ⟨p, w₁, _, _, ⟨c, status, _, _, rfl, heq⟩ | ⟨hstep, _, heq⟩⟩ :=
      phase1Visit_cases env (w.awake env pollInterval).clock id x w' <;> rw [heq]
    · exact hw'
    · have htry := osStep_tryWait (P := fun _ => True) env (Set.mem_univ c) (w'.lock .exclusive id)
      exact htry.nextId.trans hw'
    · exact hstep.nextId.trans hw'
  have hcascade : (w.cascade env pollInterval).nextId = w.nextId := by
    refine Fold.foldl_invariant (I := fun w' : World => w'.nextId = w.nextId) ?_ fun w' id _ hw' => ?_
    · exact Fold.foldl_invariant (I := fun w' : World => w'.nextId = w.nextId) hdetect
        fun _ _ _ hw' => hw'
    · obtain ⟨_, heq⟩ | ⟨p, _, _, heq⟩ := cascadeKill_cases env id w' <;> rw [heq] <;> exact hw'
  have hphase2 : (w.passDetect env pollInterval).2.2.nextId = w.nextId :=
    (mapStep_passDetect (P := fun _ => True) env pollInterval w).nextId.trans hcascade
  refine ifRunning_invariant (I := fun w' : World => w'.nextId = w.nextId) hphase2 fun _ => ?_
  refine Fold.foldl_invariant (I := fun w' : World => w'.nextId = w.nextId) hphase2 fun w' e _ hw' => ?_
  refine ifRunning_invariant (I := fun w' : World => w'.nextId = w.nextId) hw' fun _ => ?_
  obtain ⟨heq, _⟩ | ⟨heq, _⟩ | ⟨config, label, p, w₁, _, hp, hstep, hcases⟩ :=
    scheduleEntry_cases (P := fun _ => True) env (w.passDetect env pollInterval).1 e w'
  · rwa [heq]
  · rwa [heq]
  · obtain ⟨_, heq⟩ | ⟨rs, rs', _, _, heq⟩ | ⟨rs, _, _, heq⟩ := hcases <;> rw [heq] <;>
      exact hstep.nextId.trans hw'

end World

/-! ### Runs -/

namespace System

/-- The action calls `restart` for `id`. -/
def Restarts (id : ProcessId) (s : System) (a : Action) : Prop :=
  a = .restart id ∨ ∃ label, a = .restartLabel label ∧ id ∈ s.world.labelMembers label

/-- The exits that a pass finds restart no `Failed` process. -/
def FailedStay (env : Env) (pollInterval : ℕ) (s : System) (a : Action) : Prop :=
  a = .pass → s.world.reaper = .running → s.world.FailedStay env pollInterval

instance (s : System) (a : Action) : Decidable (FailedStay env pollInterval s a) :=
  inferInstanceAs (Decidable (_ → _ → _))

/-- `id` is not a new id, and `Failed` while it is tracked. -/
structure HasFailed (id : ProcessId) (w : World) : Prop where
  sound : Sound w
  below : id.raw < w.nextId
  failed : w.FailedAt id

/-- No action but a `restart` of the process inserts an entry under an id that was given out. -/
theorem moves_step_notStarted {s : System} {a : Action} (hsound : Sound s.world)
    (hbelow : id.raw < s.world.nextId) (hrestart : ¬ s.Restarts id a) (ha : a ≠ .pass) :
    World.Moves env (World.NotStarted id) s.world (s.step env pollInterval a).world := by
  have hnew : ∀ w' p, Inserts s.world a w' p.id → World.NotStarted id .start w' p := by
    rintro w' p hinserts - rfl
    cases a with
    | start label config =>
      have hid : p.id = ⟨s.world.nextId⟩ := hinserts.2
      rw [hid] at hbelow
      exact absurd hbelow (lt_irrefl _)
    | startWithDeps label config =>
      have hid : p.id = ⟨s.world.nextId⟩ := hinserts.2
      rw [hid] at hbelow
      exact absurd hbelow (lt_irrefl _)
    | restart i => exact hrestart (.inl (congrArg Action.restart (show p.id = i from hinserts).symm))
    | restartLabel label => exact hrestart (.inr ⟨label, rfl, hinserts⟩)
    | _ => exact hinserts
  have hpoints : ∀ point w p, point ≠ .start → World.NotStarted id point w p :=
    fun point w p hpoint hstart => absurd hstart hpoint
  exact moves_step_of (D := fun _ => True) hnew ha hsound.key
    (stepMeets_of hpoints fun _ _ => trivial)

theorem hasFailed_step {s : System} {a : Action} (h : HasFailed id s.world)
    (hrestart : ¬ s.Restarts id a) (hstay : FailedStay env pollInterval s a) :
    HasFailed id (s.step env pollInterval a).world := by
  have hmoves : ∀ {w w' : World}, w.FailedAt id → World.Moves env (World.NotStarted id) w w' →
      w.nextId ≤ w'.nextId ∧ w'.FailedAt id := by
    intro w w' hw hmoves
    exact hmoves.invariant (I := fun w' => w.nextId ≤ w'.nextId ∧ w'.FailedAt id)
      (fun _ _ hw hmove => ⟨hw.1.trans (World.nextId_move hmove), World.failedAt_move hw.2 hmove⟩)
      ⟨le_rfl, hw⟩
  by_cases ha : a = .pass
  · subst ha
    refine World.ifRunning_invariant (I := HasFailed id) h fun hr => ?_
    have hphase3 := World.failedAt_afterPhase3 h.sound.key h.failed (hstay rfl hr)
    obtain ⟨hn, hfailed⟩ := hmoves hphase3 (World.moves_afterPhase3 pollInterval s.world)
    rw [World.nextId_afterPhase3] at hn
    exact ⟨h.sound.reaperPass, h.below.trans_le hn, hfailed⟩
  · obtain ⟨hn, hfailed⟩ := hmoves h.failed (moves_step_notStarted h.sound h.below hrestart ha)
    exact ⟨sound_step env pollInterval s a h.sound, h.below.trans_le hn, hfailed⟩

/-- In every run whose passes restart no `Failed` process on an exit, a process that has
`Failed` stays so until it is removed or `restart` is called for it. -/
theorem failed_stays (env : Env) (pollInterval : ℕ) {s : System} (hs : s.Initial)
    (before after : List Action) {id : ProcessId} {p : Process}
    (hp : (s.run env pollInterval before).world.processes.lookup id = some p)
    (hfailed : p.state = .failed)
    (hrestart : Fold.Meets (fun s a => ¬ Restarts id s a) (step env pollInterval) after
      (s.run env pollInterval before))
    (hstay : Fold.Meets (FailedStay env pollInterval) (step env pollInterval) after
      (s.run env pollInterval before)) :
    ∀ q, (s.run env pollInterval (before ++ after)).world.processes.lookup id = some q →
      q.state = .failed := by
  have hsound := sound_run env pollInterval hs before
  have hinit : HasFailed id (s.run env pollInterval before).world :=
    ⟨hsound, hsound.below id p hp, fun q hq => Option.some.inj (hp.symm.trans hq) ▸ hfailed⟩
  rw [run, List.foldl_append]
  exact (Fold.invariant (I := fun s : System => HasFailed id s.world)
    (fun _ _ h hc => hasFailed_step h hc.1 hc.2) after _ hinit (Fold.meets_and hrestart hstay)).failed

/-! ### A `Failed` process whose child exits later -/

/-- A process that is restarted on every crash and gets no time to obey a signal. -/
def impatient : ProcessConfig := { command := "/bin/web", restartOnExit := true, terminateTimeoutMs := 0 }

/-- No `kill` is allowed, and the child crashes after the second one. -/
def refusedThenCrash : Env := { Env.exitsAt [(6, ⟨0, .code 1, 0⟩)] with killError := fun _ => some .eperm }

/-- `stop_all` could not kill the process. -/
def unkilled (env : Env) : System := withReaper.run env 0 [.start ⟨"web"⟩ impatient, .stopAll]

def unkilledEntry : Process :=
  ((unkilled World.refused).world.processes.lookup ⟨1⟩).get (by decide +kernel)

/-- Its child stays alive, and it stays `Failed`. -/
theorem failed_stays_unkilled :
    ∃ q, (withReaper.run World.refused 0
        ([.start ⟨"web"⟩ impatient, .stopAll] ++ [.pass, .pass])).world.processes.lookup ⟨1⟩ = some q ∧
      q.state = .failed := by
  have hpass : ∀ s : System, ¬ s.Restarts ⟨1⟩ .pass := by
    rintro s (h | ⟨_, h, _⟩) <;> cases h
  have hentry : (unkilled World.refused).world.processes.lookup ⟨1⟩ = some unkilledEntry :=
    (Option.some_get _).symm
  have htracked : ((withReaper.run World.refused 0
      ([.start ⟨"web"⟩ impatient, .stopAll] ++ [.pass, .pass])).world.processes.lookup ⟨1⟩).isSome = true := by
    decide +kernel
  obtain ⟨q, hq⟩ := Option.isSome_iff_exists.mp htracked
  exact ⟨q, hq, failed_stays World.refused 0 (.inr rfl) _ [.pass, .pass] hentry (by decide +kernel)
    ⟨hpass _, hpass _, trivial⟩ (by decide +kernel) q hq⟩

/-- The child crashes, and the next pass restarts the process. -/
theorem not_failed_stays :
    ((unkilled refusedThenCrash).world.processes.lookup ⟨1⟩).map Process.state = some .failed ∧
      ¬ (unkilled refusedThenCrash).Restarts ⟨1⟩ .pass ∧
      (((unkilled refusedThenCrash).step refusedThenCrash 0 .pass).world.processes.lookup ⟨1⟩).map
        Process.state = some .starting := by
  refine ⟨by decide +kernel, ?_, by decide +kernel⟩
  rintro (h | ⟨_, h, _⟩) <;> cases h

end System

end ProcessManager
