import ProcessManager.System.Blocking
import ProcessManager.System.Clock
import ProcessManager.System.FailFast
import ProcessManager.System.Supervision

/-! How long a process waits for its dependencies. Phase 5 compares the clock with the timeout
before it looks at a dependency, so the first pass after the end of the wait fails the process. -/

namespace ProcessManager

variable {env : Env} {now t : Instant} {pollInterval : ℕ} {w w' : World} {id : ProcessId} {p : Process}

/-- The time from which on a process in `Waiting` has waited for too long. -/
def Process.waitEnds (p : Process) : Option Instant := p.waitingSince.map (· + millis p.config.dependencyTimeoutMs)

namespace World

/-- The process waits until `t`. -/
def WaitsUntil (id : ProcessId) (t : Instant) (w : World) : Prop :=
  ∃ p, w.processes.lookup id = some p ∧ p.state = .waiting ∧ p.waitEnds = some t

/-! ### Before Phase 5 -/

theorem waitsUntil_afterPhase3 (pollInterval : ℕ) (hkey : ∀ i q, w.processes.lookup i = some q → q.id = i)
    (hidle : Idle w) (h : w.WaitsUntil id t) : (w.afterPhase3 env pollInterval).WaitsUntil id t := by
  obtain ⟨p, hp, hstate, hends⟩ := h
  obtain ⟨q, hq, hvisited⟩ := visited_detect env pollInterval hkey hp
  have hsame : q.state = .waiting ∧ q.waitEnds = some t := by
    rw [← hends]
    obtain rfl | rfl | rfl := hvisited
    · exact ⟨hstate, rfl⟩
    · simp [Process.afterExit, Process.stableUptime, hstate, Process.waitEnds]
    · simp [Process.afterPoll, Process.stableUptime, hstate, Process.waitEnds]
  refine ⟨q, ?_, hsame⟩
  rw [lookup_afterPhase3 (exitsOf_of_childless pollInterval hkey hp (hidle id p hp (.inl hstate)))]
  exact lookup_cascade_of_not_active hq (by simp [hsame.1]) (by simp [hsame.1])

theorem waitsUntil_phase4 (h : w.WaitsUntil id t) : (w.phase4 env now).WaitsUntil id t := by
  obtain ⟨p, hp, hstate, hends⟩ := h
  have hnot : id ∉ w.restartIds now := by
    intro hid
    obtain ⟨q, hq, hdue⟩ := AssocMap.mem_keysWhere.mp hid
    obtain rfl : p = q := Option.some.inj (hp.symm.trans hq)
    simp [restartDue, hstate] at hdue
  obtain ⟨p', hp', rfl | ⟨hs, _⟩, _⟩ := checked_phase4 env hnot hp
  · exact ⟨p', hp', hstate, hends⟩
  · simp [hstate] at hs

/-! ### The verdict of Phase 5 -/

theorem lookup_visitedIn (env : Env) (hid : id ∈ w.waitingIds) :
    (w.visitedIn env id).processes.lookup id = w.processes.lookup id :=
  lookup_examineAll (Fold.exists_takeWhile_ne hid).1 _

theorem clock_le_visitedIn (env : Env) (id : ProcessId) (w : World) : w.clock ≤ (w.visitedIn env id).clock :=
  Fold.foldl_rel (r := fun x y : Verdicts × World => x.2.clock ≤ y.2.clock) (fun _ => le_rfl)
    (fun _ _ _ h h' => h.trans h') (fun x i => clock_le_examine env i x) _ (⟨[], []⟩, w.touch .shared w.processes.keys)

theorem timedOut_of_le (hends : p.waitEnds = some t) (ht : t ≤ w.clock) : w.timedOut env p = true := by
  obtain ⟨since, hsince, rfl⟩ := Option.map_eq_some_iff.mp hends
  simp only [timedOut, hsince, decide_eq_true_eq]
  exact Nat.le_sub_of_add_le (Nat.add_comm _ _ ▸ ht.trans (w.clock_le_tick env))

theorem mem_waitingIds (hp : w.processes.lookup id = some p) (hstate : p.state = .waiting) : id ∈ w.waitingIds :=
  AssocMap.mem_keysWhere.mpr ⟨p, hp, decide_eq_true hstate⟩

/-- A wait that has lasted for its timeout when Phase 5 starts is to be failed. -/
theorem mem_toFail_of_late (env : Env) (h : w.WaitsUntil id t) (ht : t ≤ w.clock) : id ∈ (w.verdicts env).1.toFail := by
  obtain ⟨p, hp, hstate, hends⟩ := h
  have hid := mem_waitingIds hp hstate
  refine (mem_toFail_iff env hid).mpr ⟨p, (lookup_visitedIn env hid).trans hp, .inl ?_⟩
  exact timedOut_of_le hends (ht.trans (clock_le_visitedIn env id w))

theorem running_of_mapStep {R : ProcessId → Process → Process → Prop} {S : Set ℕ} {P : KillCall → Prop}
    (h : MapStep R S P w w') (hr : w'.reaper = .running) : w.reaper = .running := by
  obtain heq | hended := h.reaper
  · rw [← heq, hr]
  · rcases hended with hended | hended <;> rw [hr] at hended <;> cases hended

/-- The thread is not started again, and `id` is not tracked again. -/
structure Fades (id : ProcessId) (w w' : World) : Prop where
  running : w'.reaper = .running → w.reaper = .running
  untracked : w.processes.lookup id = none → w'.processes.lookup id = none

theorem Fades.trans (h : Fades id w w') (h' : Fades id w' w'') : Fades id w w'' :=
  ⟨fun hr => h.running (h'.running hr), fun hnone => h'.untracked (h.untracked hnone)⟩

theorem fades_failWaiting (k : ProcessId) (w : World) : Fades id w (w.ifRunning (failWaiting env k)) := by
  refine ifRunning_invariant (I := Fades id w) ⟨fun h => h, fun h => h⟩ fun _ => ?_
  have hfail : MapStep Kept ∅ (fun _ => True) w (w.failWaiting env k) := mapStep_failWaiting k w
  exact ⟨running_of_mapStep hfail, fun h => untracked_of_refines h hfail.processes⟩

/-- What Phase 5 decides to fail is gone after it, if the thread gets to its end. -/
theorem lookup_phase5_of_toFail (hid : id ∈ (w.verdicts env).1.toFail) (hr : (w.phase5 env).reaper = .running) :
    (w.phase5 env).processes.lookup id = none := by
  have hnodup : (w.verdicts env).1.toFail.Nodup :=
    (disjointly_verdicts env w).toFail.nodup (AssocMap.nodup_keysWhere _ _)
  obtain ⟨_, hafter⟩ := Fold.foldl_around (r := Fades id) (fun _ => ⟨fun h => h, fun h => h⟩) (fun _ _ _ => .trans)
    (fun w' k _ => fades_failWaiting k w') hnodup hid (w.afterSpawns env)
  rw [← phase5_eq] at hafter
  refine hafter.untracked ?_
  obtain ⟨_, heq⟩ := running_of_ifRunning (hafter.running hr)
  rw [heq]
  cases hq : (w.failedIn env id).processes.lookup id with
  | none => exact untracked_of_refines hq (mapStep_failWaiting (P := fun _ => True) id (w.failedIn env id)).processes
  | some q => exact AList.lookup_eq_none.mpr (fell_failWaiting env hq).gone

/-! ### The pass -/

/-- Before Phase 5 nothing is sent for a process that waits. -/
theorem sentFor_beforePhase5 (h : w.Regular) (hw : w.reaper = .running) (hwaits : w.Waits id)
    (htracked : id ∈ (w.beforePhase5 env pollInterval).processes)
    (halive : (w.beforePhase5 env pollInterval).receiverAlive = true) :
    w.sends <:+ (w.beforePhase5 env pollInterval).sends ∧ w.sentFor id (w.beforePhase5 env pollInterval) = [] := by
  have hsilent : Silent (w.passDetect env pollInterval).2.2 (w.afterPhase3 env pollInterval) :=
    .ifRunning (silent_phase3 _) _
  have hends : Ends id (w.afterPhase3 env pollInterval) (w.beforePhase5 env pollInterval) :=
    .ifRunning (ends_phase4 _) _
  have halive' := hsilent.receiver (hends.receiver halive)
  have hdetect : w.sends <:+ (w.afterPhase3 env pollInterval).sends :=
    hsilent.sends ▸ ⟨_, (passDetect_sends env pollInterval hw halive').symm⟩
  have hnone : w.sentFor id (w.afterPhase3 env pollInterval) = [] := by
    have hexits := sentFor_passDetect env pollInterval hw halive' id
    rw [exitsOf_of_waits pollInterval h.sound.key h.idle hwaits] at hexits
    unfold sentFor at hexits ⊢
    rwa [hsilent.sends]
  obtain ⟨_, hnone'⟩ | ⟨_, hgone, _⟩ := hends.outcome halive
  · exact ⟨hdetect.trans hends.sends, by rw [sentFor_trans id hdetect hends.sends, hnone, hnone', List.append_nil]⟩
  · exact absurd htracked hgone

/-- A pass whose clock has reached the end of a wait fails the process, if it is survived and
somebody listens. -/
theorem failedBetween_of_late (h : w.Regular) (hw : w.reaper = .running) (hwaits : w.WaitsUntil id t)
    (hlate : t ≤ (w.awake env pollInterval).clock) (hr : (w.reaperPass env pollInterval).reaper = .running)
    (halive : (w.reaperPass env pollInterval).receiverAlive = true) :
    FailedBetween id w (w.reaperPass env pollInterval) := by
  have h4 : (w.beforePhase5 env pollInterval).WaitsUntil id t :=
    ifRunning_invariant (I := WaitsUntil id t) (waitsUntil_afterPhase3 pollInterval h.sound.key h.idle hwaits)
      fun _ => waitsUntil_phase4 (waitsUntil_afterPhase3 pollInterval h.sound.key h.idle hwaits)
  have hfail := mem_toFail_of_late env h4 (hlate.trans (clock_le_beforePhase5 env pollInterval w))
  have hr5 : ((w.beforePhase5 env pollInterval).afterPhase5 env).reaper = .running := (running_of_ifRunning hr).1
  have hgone : id ∉ ((w.beforePhase5 env pollInterval).afterPhase5 env).processes := by
    obtain ⟨_, heq⟩ := running_of_ifRunning hr5
    rw [afterPhase5, heq] at hr5 ⊢
    exact AList.lookup_eq_none.mp (lookup_phase5_of_toFail hfail hr5)
  have hends5 : Ends id (w.beforePhase5 env pollInterval) ((w.beforePhase5 env pollInterval).afterPhase5 env) :=
    .ifRunning ends_phase5 _
  have hends6 : Ends id ((w.beforePhase5 env pollInterval).afterPhase5 env) (w.reaperPass env pollInterval) :=
    .ifRunning ends_phase6 _
  obtain ⟨p, hp, hstate, _⟩ := h4
  have hmem := mem_of_lookup hp
  obtain ⟨q, hq, hwaiting, _⟩ := hwaits
  obtain ⟨hsends, hnone⟩ := sentFor_beforePhase5 h hw ⟨q, hq, hwaiting⟩ hmem (hends5.receiver (hends6.receiver halive))
  obtain ⟨hiff, _⟩ | ⟨_, _, s, hs, hfailure⟩ := hends5.outcome (hends6.receiver halive)
  · exact absurd (hiff.mpr hmem) hgone
  · obtain ⟨hiff, hnone'⟩ | ⟨hback, _⟩ := hends6.outcome halive
    · refine ⟨fun hin => hgone (hiff.mp hin), s, ?_, hfailure.state⟩
      rw [sentFor_trans id hsends (hends5.sends.trans hends6.sends), sentFor_trans id hends5.sends hends6.sends,
        hnone, hs, hnone', List.nil_append, List.append_nil]
    · exact absurd hback hgone

end World

/-! ### Runs -/

namespace System

variable (env : Env) (pollInterval : ℕ)

/-- In every run, the first pass that reads a time at which the wait of a process has lasted for its
timeout removes the process with one `Failed` event, if the pass gets to its end: it does not wait for
a guard of its own, and the reaper thread is still running. -/
theorem wait_expires {σ : Type*} [DecidableEq σ] {shard : ProcessId → σ} {s s' s'' : System} (hs : s.Initial)
    {actions : List Action} (hbefore : run? shard env pollInterval actions s = some s')
    (hpass : step? shard env pollInterval s' .pass = some s'') (hr : s''.world.reaper = .running)
    (halive : s''.world.receiverAlive = true) :
    ∀ id p t, s'.world.processes.lookup id = some p → p.state = .waiting → p.waitEnds = some t →
      t ≤ (s'.world.awake env pollInterval).clock → World.FailedBetween id s'.world s''.world := by
  obtain ⟨_, rfl⟩ := run?_eq_some_iff.mp hbefore
  obtain ⟨_, rfl⟩ := step?_eq_some_iff.mp hpass
  have hstep : (step env pollInterval (s.run env pollInterval actions) .pass).world =
      (s.run env pollInterval actions).world.ifRunning (World.reaperPass env pollInterval) := rfl
  rw [hstep] at hr halive ⊢
  obtain ⟨hw, heq⟩ := World.running_of_ifRunning hr
  rw [heq] at hr halive ⊢
  intro id p t hp hstate hends hlate
  exact World.failedBetween_of_late (regular_run env pollInterval hs actions) hw ⟨p, hp, hstate, hends⟩ hlate hr halive

/-- `web` waits 100 ms for `db`, which nobody starts. -/
def waitsBriefly : ProcessConfig := { waitsForDb with dependencyTimeoutMs := 100 }

def alone : System := withReaper.run .calm (millis 100) [.start ⟨"web"⟩ waitsBriefly]

/-- The first pass comes after the timeout. -/
theorem wait_expires_alone :
    World.FailedBetween ⟨1⟩ alone.world (alone.step .calm (millis 100) .pass).world := by
  have hentry : (alone.world.processes.lookup ⟨1⟩).map (fun p => (p.state, p.waitEnds.any fun t =>
      decide (t ≤ (alone.world.awake .calm (millis 100)).clock))) = some (.waiting, true) := by decide +kernel
  obtain ⟨p, hp, hpair⟩ := Option.map_eq_some_iff.mp hentry
  rw [Prod.mk.injEq, Option.any_eq_true] at hpair
  obtain ⟨hstate, t, hends, hlate⟩ := hpair
  have hbefore : run? ProcessId.raw .calm (millis 100) [.start ⟨"web"⟩ waitsBriefly] withReaper = some alone :=
    run?_of_apart (by decide +kernel)
  have hpass : step? ProcessId.raw .calm (millis 100) alone .pass = some (alone.step .calm (millis 100) .pass) :=
    step?_eq_some_iff.mpr ⟨by decide +kernel, rfl⟩
  exact wait_expires .calm (millis 100) (.inr rfl) hbefore hpass (by decide +kernel) (by decide +kernel)
    ⟨1⟩ p t hp hstate hends (of_decide_eq_true hlate)

end System

end ProcessManager
