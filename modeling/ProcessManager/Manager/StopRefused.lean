import ProcessManager.Manager.BatchOutcome
import ProcessManager.Manager.StopEach

/-! What a `stop` that reports a failed signal leaves. The entry is removed before the first
signal and no error path puts it back, so the caller has nothing left to retry with; `stop_many`
puts it back. -/

namespace ProcessManager

namespace World

/-- A `stop` that fails with `SignalFailed` leaves the entry with its child handle. -/
def KeepsOnFailure (env : Env) (id : ProcessId) (w : World) : Prop :=
  ∀ pid e, (w.stop env id).1 = .error (.signalFailed pid e) → ∀ p, w.processes.lookup id = some p →
    ∃ p', (w.stop env id).2.processes.lookup id = some p' ∧ p'.child = p.child

/-- A signal for `pid` fails now, and not since there is no such process. -/
def Refuses (env : Env) (pid : ℕ) (w : World) : Prop := ∃ e, w.killError env pid = some e ∧ e ≠ .esrch

/-- The grace period of `p` when it begins in `w`: it ends in the last component. -/
def gracePeriod (env : Env) (p : Process) (w : World) : Bool × Process × World :=
  let w := w.tick env
  w.graceLoop env (w.clock + millis p.config.terminateTimeoutMs) (loopFuel p.config.terminateTimeoutMs 50) p

/-- `kill` refuses to signal `p`: the first signal fails, or it succeeds and the `SIGKILL` at the
end of the grace period fails. -/
def RefusesStop (env : Env) (p : Process) (w : World) : Prop :=
  w.Refuses env p.pid ∨ w.killError env p.pid = none ∧
    ((w.kill env .stop p p.config.killSignal.toSignal).gracePeriod env p).2.2.Refuses env p.pid

/-- `stop` signals the process, since it has a pid and is neither `Restarting` nor `Waiting`, and
`kill` refuses it. -/
def SignalsRefused (env : Env) (id : ProcessId) (w : World) : Prop :=
  ∃ p, w.processes.lookup id = some p ∧ p.state ≠ .restarting ∧ p.state ≠ .waiting ∧ p.pid ≠ 0 ∧
    (w.remove id).RefusesStop env p.markStopping

/-- The pid and the error of a failed signal. -/
def failedSignal : Except ManagerError Unit → Option (ℕ × Errno)
  | .error (.signalFailed pid e) => some (pid, e)
  | _ => none

/-- The outcome is a failed signal. -/
def StopOutcome.Failed (r : StopOutcome) : Prop := ∃ pid e, r.result = .error (.signalFailed pid e)

variable {env : Env} {w : World} {p : Process} {id : ProcessId}

theorem eq_of_failedSignal {r : Except ManagerError Unit} {pid : ℕ} {e : Errno}
    (h : failedSignal r = some (pid, e)) : r = .error (.signalFailed pid e) := by
  unfold failedSignal at h
  split at h
  · cases h
    rfl
  · cases h

theorem sendSignal_of_pid (hpid : p.pid ≠ 0) (site : KillSite) (signal : KillSignal) (w : World) :
    p.sendSignal env site signal w =
      (w.killError env p.pid, w.kill env site p signal.toSignal) := if_neg hpid

theorem stopEscalate_failed_iff (hpid : p.pid ≠ 0) (w : World) :
    (w.stopEscalate env p).1.Failed ↔ w.Refuses env p.pid := by
  have hforce : p.forceKill env .stopEscalation w = (w.killError env p.pid, _) :=
    sendSignal_of_pid hpid .stopEscalation .sigkill w
  simp only [stopEscalate, hforce]
  cases hresult : w.killError env p.pid with
  | none =>
    simp only [Refuses, hresult]
    constructor
    · rintro ⟨_, _, hfailed⟩
      cases hfailed
    · rintro ⟨_, hrefused, _⟩
      cases hrefused
  | some e =>
    cases e with
    | esrch =>
      simp only [Refuses, hresult]
      constructor
      · rintro ⟨_, _, hfailed⟩
        cases hfailed
      · rintro ⟨e, hrefused, hgone⟩
        exact absurd (Option.some.inj hrefused).symm hgone
    | eperm => exact ⟨fun _ => ⟨_, hresult, by decide⟩, fun _ => ⟨_, _, rfl⟩⟩

/-- The grace period is never cut short. -/
theorem stopGrace_eq (hp : p.state = .stopping) (w : World) :
    w.stopGrace env p = (w.gracePeriod env p).2.2.stopEscalate env p := by
  obtain ⟨hfst, hentry, _⟩ := graceLoop_of_stopping (w := w.tick env) (P := fun _ => False) env hp
    ((w.tick env).clock + millis p.config.terminateTimeoutMs)
    (loopFuel p.config.terminateTimeoutMs 50)
  simp only [stopGrace, gracePeriod, hfst, Bool.false_eq_true, ↓reduceIte, hentry]

theorem stopTaken_failed_iff (hpid : p.pid ≠ 0) (w : World) :
    (w.stopTaken env p).1.Failed ↔ w.RefusesStop env p.markStopping := by
  simp only [stopTaken, RefusesStop]
  generalize hq : p.markStopping = q
  have hqpid : q.pid ≠ 0 := by
    rw [← hq]
    exact hpid
  have hstate : q.state = .stopping := by
    rw [← hq]
    rfl
  rw [sendSignal_of_pid hqpid]
  cases hresult : w.killError env q.pid with
  | none =>
    have hfirst : ¬ w.Refuses env q.pid := by
      rintro ⟨e, he, _⟩
      rw [hresult] at he
      cases he
    simp only [hfirst, false_or, true_and]
    rw [stopGrace_eq hstate]
    exact stopEscalate_failed_iff hqpid _
  | some e =>
    cases e with
    | esrch =>
      simp only [Refuses, hresult, reduceCtorEq, false_and, or_false]
      constructor
      · rintro ⟨_, _, hfailed⟩
        cases hfailed
      · rintro ⟨e, hrefused, hgone⟩
        exact absurd (Option.some.inj hrefused).symm hgone
    | eperm => exact ⟨fun _ => .inl ⟨_, hresult, by decide⟩, fun _ => ⟨_, _, rfl⟩⟩

/-- A cascade comes after the signals and does not change the result. -/
theorem stop_result (env : Env) (id : ProcessId) (w : World) :
    (w.stop env id).1 = (w.stopOne env id).1.result := by
  simp only [stop, stopFuel]
  split_ifs <;> rfl

theorem stop_failed_iff (env : Env) (id : ProcessId) (w : World) :
    (∃ pid e, (w.stop env id).1 = .error (.signalFailed pid e)) ↔ w.SignalsRefused env id := by
  rw [stop_result]
  change (w.stopOne env id).1.Failed ↔ _
  cases hp : w.processes.lookup id with
  | none =>
    rw [stopOne_of_untracked hp]
    constructor
    · rintro ⟨_, _, hfailed⟩
      cases hfailed
    · rintro ⟨p, hp', _⟩
      exact absurd (hp.symm.trans hp') nofun
  | some p =>
    have hsame : w.SignalsRefused env id ↔ p.state ≠ .restarting ∧ p.state ≠ .waiting ∧ p.pid ≠ 0 ∧
        (w.remove id).RefusesStop env p.markStopping := by
      constructor
      · rintro ⟨p', hp', h⟩
        obtain rfl : p = p' := Option.some.inj (hp.symm.trans hp')
        exact h
      · exact fun h => ⟨p, hp, h⟩
    simp only [stopOne, hp]
    rw [hsame]
    split_ifs with hrestarting hwaiting
    · constructor
      · rintro ⟨_, _, hfailed⟩
        cases hfailed
      · exact fun h => absurd hrestarting h.1
    · constructor
      · rintro ⟨_, _, hfailed⟩
        cases hfailed
      · exact fun h => absurd hwaiting h.2.1
    · by_cases hpid : p.pid = 0
      · have hmissed : p.markStopping.sendSignal env .stop p.markStopping.config.killSignal (w.remove id) =
            (some .esrch, w.remove id) := if_pos hpid
        simp only [stopTaken, hmissed]
        constructor
        · rintro ⟨_, _, hfailed⟩
          cases hfailed
        · exact fun h => absurd hpid h.2.2.1
      · rw [stopTaken_failed_iff hpid]
        exact ⟨fun h => ⟨hrestarting, hwaiting, hpid, h⟩, fun h => h.2.2.2⟩

/-- No failing `stop` keeps the entry: it does what a retry needs exactly when no signal is refused. -/
theorem keepsOnFailure_iff (env : Env) (id : ProcessId) (w : World) :
    w.KeepsOnFailure env id ↔ ¬ w.SignalsRefused env id := by
  constructor
  · intro hkeeps hrefused
    obtain ⟨pid, e, hfailed⟩ := (stop_failed_iff env id w).mpr hrefused
    obtain ⟨p, hp, _⟩ := hrefused
    obtain ⟨p', hp', _⟩ := hkeeps pid e hfailed p hp
    have hgone : (w.stop env id).2.processes.lookup id = none := lookup_stopFuel_self env _ id w
    exact absurd (hgone.symm.trans hp') nofun
  · intro hallowed pid e hfailed
    exact absurd ((stop_failed_iff env id w).mp ⟨pid, e, hfailed⟩) hallowed

/-- A `kill` is refused to both: `stop` forgets the process, `stop_many` puts it back. -/
theorem not_keepsOnFailure :
    failedSignal (chain.stop refused ⟨2⟩).1 = some (3, .eperm) ∧
      (chain.stop refused ⟨2⟩).2.processes.keys = [⟨1⟩] ∧
      ((chain.stopLabel refused ⟨"web"⟩).2.processes.lookup ⟨2⟩).map Process.child = some (some 1) ∧
      ¬ chain.KeepsOnFailure refused ⟨2⟩ := by
  have hfailed : failedSignal (chain.stop refused ⟨2⟩).1 = some (3, .eperm) := by decide +kernel
  have hkeys : (chain.stop refused ⟨2⟩).2.processes.keys = [⟨1⟩] := by decide +kernel
  have htracked : (chain.processes.lookup ⟨2⟩).isSome = true := by decide +kernel
  refine ⟨hfailed, hkeys, by decide +kernel, fun hkeeps => ?_⟩
  obtain ⟨p, hp⟩ := Option.isSome_iff_exists.mp htracked
  obtain ⟨p', hp', _⟩ := hkeeps 3 .eperm (eq_of_failedSignal hfailed) p hp
  have hmem := AssocMap.mem_of_lookup hp'
  rw [hkeys] at hmem
  exact absurd hmem (by decide)

end World

end ProcessManager
