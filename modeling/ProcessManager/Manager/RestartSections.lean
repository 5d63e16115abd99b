import ProcessManager.Manager.GracePeriod
import ProcessManager.Manager.Restart
import ProcessManager.Manager.StopCascade
import Mathlib.Logic.Relation

/-! `stop` and `restart` one section at a time. Between two sections the source holds no
guard of the map, so that other threads can act there. Sections that nothing interrupts make
up `stop` and `restart`. -/

namespace ProcessManager

open Relation

/-! ### The stop -/

/-- How far the stop of one process is. From `report` and `signal` on, its entry is gone. -/
inductive StopStage where
  | check
  | dropRestarting
  | dropWaiting (p : Process)
  | report (p : Process)
  | take
  | signal (p : Process)
  | grace (p : Process) (deadline : Instant)
  | escalate (p : Process)
  | reap (p : Process) (deadline : Instant)
  | join (p : Process)
  | cascade

/-- Where a call of `stop` is: in the stop of `id`, its own or that of a dependent, with the
dependents that are still to be stopped. -/
inductive StopPc where
  | stopping (id : ProcessId) (stage : StopStage) (nested : Bool) (pending : List ProcessId)
  | returned (result : Except ManagerError Unit)

namespace StopPc

def call (id : ProcessId) : StopPc := .stopping id .check false []

/-- The stop of one process ends. An error of a dependent is only logged. -/
def ends : Bool → List ProcessId → Except ManagerError Unit → StopPc
  | false, _, .error e => .returned (.error e)
  | _, [], _ => .returned (.ok ())
  | _, id :: pending, _ => .stopping id .check true pending

/-- The stop of one process succeeds and goes on to its dependents, if it is told to. -/
def goesOn (id : ProcessId) (p : Process) (nested : Bool) (pending : List ProcessId) : StopPc :=
  if p.config.cascadeStop then .stopping id .cascade nested pending else ends nested pending (.ok ())

/-- The next section. -/
def next (env : Env) : StopPc → World → StopPc × World
  | .returned result, w => (.returned result, w)
  | .stopping id .check nested pending, w =>
    match w.processes.lookup id with
    | none => (ends nested pending (.error (.notFound id)), w)
    | some p =>
      if p.state = .restarting then (.stopping id .dropRestarting nested pending, w)
      else if p.state = .waiting then (.stopping id (.dropWaiting p) nested pending, w)
      else (.stopping id .take nested pending, w)
  | .stopping id .dropRestarting nested pending, w => (ends nested pending (.ok ()), w.remove id)
  | .stopping id (.dropWaiting p) nested pending, w => (.stopping id (.report p) nested pending, w.remove id)
  | .stopping id (.report p) nested pending, w =>
    (goesOn id p nested pending, w.sendFromHandle env (p.endEvent id .stopped))
  | .stopping id .take nested pending, w =>
    match w.processes.lookup id with
    | none => (ends nested pending (.error (.notFound id)), w)
    | some p => (.stopping id (.signal p.markStopping) nested pending, w.remove id)
  | .stopping id (.signal p) nested pending, w =>
    let r := p.sendSignal env .stop p.config.killSignal w
    match r.1 with
    | some .esrch => (ends nested pending (.ok ()), p.joinReaders env r.2)
    | some e => (ends nested pending (.error (.signalFailed p.pid e)), r.2)
    | none =>
      let w := r.2.tick env
      (.stopping id (.grace p (w.clock + millis p.config.terminateTimeoutMs)) nested pending, w)
  | .stopping id (.grace p deadline) nested pending, w =>
    let w := w.tick env
    if w.clock < deadline then
      let r := p.pollState env w
      if p.isRunning env w then (.stopping id (.grace r.1 deadline) nested pending, r.2.sleep env (millis 50))
      else (ends nested pending (.ok ()), r.1.joinReaders env r.2)
    else (.stopping id (.escalate p) nested pending, w)
  | .stopping id (.escalate p) nested pending, w =>
    let r := p.forceKill env .stopEscalation w
    match r.1 with
    | some .esrch => (ends nested pending (.ok ()), p.joinReaders env r.2)
    | some e => (ends nested pending (.error (.signalFailed p.pid e)), r.2)
    | none =>
      let w := r.2.tick env
      (.stopping id (.reap p (w.clock + millis 500)) nested pending, w)
  | .stopping id (.reap p deadline) nested pending, w =>
    let w := w.tick env
    if w.clock < deadline then
      let r := p.tryWaitExit env w
      if r.1.isSome then (.stopping id (.join p) nested pending, r.2)
      else (.stopping id (.reap p deadline) nested pending, r.2.sleep env (millis 10))
    else (.stopping id (.join p) nested pending, w)
  | .stopping id (.join p) nested pending, w =>
    (goesOn id p nested pending, p.joinReaders env (p.tryWaitExit env w).2)
  | .stopping id .cascade nested pending, w => (ends nested (w.dependents id ++ pending) (.ok ()), w)

end StopPc

/-! ### The restart -/

/-- Where a call of `restart` is. `p` is the entry it read first. -/
inductive RestartPc where
  | called
  | reset (p : Process)
  | stopping (p : Process) (s : StopPc)
  | respawn (p : Process) (inPlace : Bool)
  | store (child pid : ℕ)
  | insert (q : Process)
  | inserted
  | returned (result : Except ManagerError ProcessId)

namespace RestartPc

/-- The next section of `restart` for `id`. -/
def next (env : Env) (id : ProcessId) : RestartPc → World → RestartPc × World
  | .called, w =>
    match w.processes.lookup id with
    | none => (.returned (.error (.notFound id)), w)
    | some p => if p.state = .restarting then (.reset p, w) else (.stopping p (.call id), w)
  | .reset p, w =>
    match w.processes.lookup id with
    | none => (.returned (.error (.notFound id)), w)
    | some _ => (.respawn p true, w.restartReset env id)
  | .stopping _ (.returned (.error e)), w => (.returned (.error e), w)
  | .stopping p (.returned (.ok _)), w => (.respawn p false, w)
  | .stopping p s, w =>
    let r := s.next env w
    (.stopping p r.1, r.2)
  | .respawn p inPlace, w =>
    let w' := w.spawnProcess env .restart id p.config (if inPlace then p.resolvedDeps else [])
    match w.spawnError env p.config with
    | some e => (.returned (.error (e.toManagerError p.config.command)), w')
    | none =>
      if inPlace then (.store w.nextChild (w.nextPid env), w'.bumpSequence)
      else (.insert (w.spawnedProcess env id p.label p.config []), w'.bumpSequence)
  | .store child pid, w =>
    let r := w.restartStore env id child pid
    (.returned r.1, r.2)
  | .insert q, w => (.inserted, w.insert env id q)
  | .inserted, w => (.returned (.ok id), w.markStartedEntry env id)
  | .returned result, w => (.returned result, w)

end RestartPc

/-! ### Sections make up calls -/

variable {env : Env} {w w' : World} {id : ProcessId} {p : Process} {nested : Bool} {pending : List ProcessId}

namespace StopPc

/-- A call takes a number of sections that nothing interrupts. -/
abbrev Leads (env : Env) : StopPc × World → StopPc × World → Prop :=
  ReflTransGen fun s t => next env s.1 s.2 = t

theorem ends_ok (nested : Bool) (pending : List ProcessId) (result : Except ManagerError Unit) :
    ends true pending result = ends nested pending (.ok ()) := by
  cases nested <;> cases pending <;> rfl

/-- The grace period of a process in `Stopping`. -/
theorem leads_grace (hp : p.state = .stopping) {deadline : Instant} {n : ℕ}
    (h : deadline ≤ w.clock + n * millis 50) :
    Leads env (.stopping id (.grace p deadline) nested pending, w)
      (.stopping id (.escalate p) nested pending, (w.graceLoop env deadline (n + 1) p).2.2) := by
  have hrunning : ∀ w' : World, p.isRunning env w' = true := fun w' => World.isRunning_of_stopping hp
  have hpoll : ∀ w' : World, p.pollState env w' = (p, w') :=
    fun w' => Process.pollState_of_settled (by simp [hp]) (by simp [hp])
  induction n generalizing w with
  | zero =>
    have hlate : ¬ (w.tick env).clock < deadline := by
      rw [not_lt]
      exact h.trans (by simpa using w.clock_le_tick env)
    refine .single ?_
    simp only [next, World.graceLoop, hlate, ↓reduceIte]
  | succ n ih =>
    rw [World.graceLoop]
    by_cases hearly : (w.tick env).clock < deadline
    · simp only [hearly, ↓reduceIte, hrunning, hpoll]
      refine .head ?_ (ih (w := (w.tick env).sleep env (millis 50)) ?_)
      · simp only [next, hearly, ↓reduceIte, hrunning, hpoll]
      · exact World.deadline_le h (w.clock_le_tick env) ((w.tick env).le_clock_sleep env (millis 50))
    · refine .single ?_
      simp only [next, hearly, ↓reduceIte]

/-- The wait for `SIGKILL` to take effect. -/
theorem leads_reap {deadline : Instant} {n : ℕ} (h : deadline ≤ w.clock + n * millis 10) :
    Leads env (.stopping id (.reap p deadline) nested pending, w)
      (.stopping id (.join p) nested pending, w.reapLoop env deadline (n + 1) p) := by
  induction n generalizing w with
  | zero =>
    have hlate : ¬ (w.tick env).clock < deadline := by
      rw [not_lt]
      exact h.trans (by simpa using w.clock_le_tick env)
    refine .single ?_
    simp only [next, World.reapLoop, hlate, ↓reduceIte]
  | succ n ih =>
    rw [World.reapLoop]
    by_cases hearly : (w.tick env).clock < deadline
    · simp only [hearly, ↓reduceIte]
      by_cases hexited : (p.tryWaitExit env (w.tick env)).1.isSome = true
      · refine .single ?_
        simp only [next, hearly, ↓reduceIte, hexited]
      · simp only [hexited, Bool.false_eq_true, ↓reduceIte]
        refine .head ?_ (ih (w := (p.tryWaitExit env (w.tick env)).2.sleep env (millis 10)) ?_)
        · simp only [next, hearly, ↓reduceIte, hexited, Bool.false_eq_true]
        · exact World.deadline_le h ((w.clock_le_tick env).trans (p.clock_le_tryWaitExit env (w.tick env)))
            ((p.tryWaitExit env (w.tick env)).2.le_clock_sleep env (millis 10))
    · refine .single ?_
      simp only [next, hearly, ↓reduceIte]

/-- What follows the stop of one process. -/
def after (id : ProcessId) (nested : Bool) (pending : List ProcessId) (o : World.StopOutcome) : StopPc :=
  if o.cascade then .stopping id .cascade nested pending else ends nested pending o.result

theorem leads_escalate (env : Env) (p : Process) (w : World) :
    Leads env (.stopping id (.escalate p) nested pending, w)
      (after id nested pending (w.stopEscalate env p).1, (w.stopEscalate env p).2) := by
  simp only [World.stopEscalate]
  cases hkill : (p.forceKill env .stopEscalation w).1 with
  | none =>
    set w₁ := ((p.forceKill env .stopEscalation w).2).tick env
    have hreap : Leads env (.stopping id (.reap p (w₁.clock + millis 500)) nested pending, w₁)
        (.stopping id (.join p) nested pending, w₁.reapLoop env (w₁.clock + millis 500) (World.loopFuel 500 10) p) :=
      leads_reap (Nat.add_le_add_left (World.millis_le_loopFuel (by omega) le_rfl) _)
    refine .head ?_ (hreap.tail ?_)
    · simp only [next, hkill]
      rfl
    · rfl
  | some e =>
    cases e with
    | esrch =>
      refine .single ?_
      simp only [next, hkill]
      rfl
    | eperm =>
      refine .single ?_
      simp only [next, hkill]
      rfl

theorem leads_taken (env : Env) (p : Process) (w : World) :
    Leads env (.stopping id (.signal p.markStopping) nested pending, w)
      (after id nested pending (w.stopTaken env p).1, (w.stopTaken env p).2) := by
  simp only [World.stopTaken]
  generalize hq : p.markStopping = q
  have hstate : q.state = .stopping := by rw [← hq]; rfl
  cases hkill : (q.sendSignal env .stop q.config.killSignal w).1 with
  | none =>
    set w₁ := ((q.sendSignal env .stop q.config.killSignal w).2).tick env with hw₁
    obtain ⟨hfst, hentry, _⟩ := World.graceLoop_of_stopping (w := w₁) (P := fun _ => False) env hstate
      (w₁.clock + millis q.config.terminateTimeoutMs) (World.loopFuel q.config.terminateTimeoutMs 50)
    have hgrace : Leads env
        (.stopping id (.grace q (w₁.clock + millis q.config.terminateTimeoutMs)) nested pending, w₁)
        (.stopping id (.escalate q) nested pending, (w₁.graceLoop env
          (w₁.clock + millis q.config.terminateTimeoutMs) (World.loopFuel q.config.terminateTimeoutMs 50) q).2.2) :=
      leads_grace hstate (Nat.add_le_add_left (World.millis_le_loopFuel (by omega) le_rfl) _)
    have hstart : next env (.stopping id (.signal q) nested pending) w =
        (.stopping id (.grace q (w₁.clock + millis q.config.terminateTimeoutMs)) nested pending, w₁) := by
      simp only [next, hkill, ← hw₁]
    simp only [World.stopGrace, ← hw₁, hfst, Bool.false_eq_true, ↓reduceIte, hentry]
    exact .head hstart (hgrace.trans (leads_escalate env q _))
  | some e =>
    cases e with
    | esrch =>
      refine .single ?_
      simp only [next, hkill]
      rfl
    | eperm =>
      refine .single ?_
      simp only [next, hkill]
      rfl

theorem leads_stopOne (env : Env) (id : ProcessId) (nested : Bool) (pending : List ProcessId) (w : World) :
    Leads env (.stopping id .check nested pending, w)
      (after id nested pending (w.stopOne env id).1, (w.stopOne env id).2) := by
  simp only [World.stopOne]
  cases hp : w.processes.lookup id with
  | none =>
    refine .single ?_
    simp only [next, hp]
    rfl
  | some p =>
    simp only
    split_ifs with hrestarting hwaiting
    · refine .head (b := (.stopping id .dropRestarting nested pending, w)) ?_ (.single rfl)
      simp only [next, hp, hrestarting, ↓reduceIte]
    · refine .head (b := (.stopping id (.dropWaiting p) nested pending, w)) ?_ (.head rfl (.single ?_))
      · simp only [next, hp, if_neg hrestarting, if_pos hwaiting]
      · simp only [next]
        rfl
    · refine .head (b := (.stopping id .take nested pending, w)) ?_ (.head ?_ (leads_taken env p (w.remove id)))
      · simp only [next, hp, if_neg hrestarting, if_neg hwaiting]
      · simp only [next, hp]

/-- A stop with its cascade, as long as the fuel covers what is tracked. -/
theorem leads_stopFuel (env : Env) (fuel : ℕ) (id : ProcessId) (nested : Bool) (pending : List ProcessId)
    (w : World) (hfuel : w.tracked.ncard < fuel) :
    Leads env (.stopping id .check nested pending, w)
      (ends nested pending (w.stopFuel env fuel id).1, (w.stopFuel env fuel id).2) := by
  induction fuel generalizing id nested pending w with
  | zero => exact absurd hfuel (Nat.not_lt_zero _)
  | succ fuel ih =>
    have hone := leads_stopOne env id nested pending w
    simp only [World.stopFuel]
    split_ifs with hcascade
    · obtain ⟨p, hp⟩ : ∃ p, w.processes.lookup id = some p := by
        refine Option.ne_none_iff_exists'.mp fun hnone => ?_
        rw [World.stopOne_of_untracked hnone] at hcascade
        cases hcascade
      obtain ⟨hresult, _⟩ := World.stopOne_of_cascade hp hcascade
      have hfewer : (w.stopOne env id).2.tracked.ncard < fuel := by
        rw [World.tracked_stopOne env hp]
        have hlt : (w.tracked \ {id}).ncard < w.tracked.ncard :=
          Set.ncard_sdiff_singleton_lt_of_mem (World.mem_tracked.mpr ⟨p, hp⟩) w.finite_tracked
        omega
      have hfold : ∀ (ds : List ProcessId) (w' : World), w'.tracked.ncard < fuel →
          Leads env (ends nested (ds ++ pending) (.ok ()), w')
            (ends nested pending (.ok ()), ds.foldl (fun w dep => (w.stopFuel env fuel dep).2) w') := by
        intro ds
        induction ds with
        | nil => exact fun w' _ => .refl
        | cons d ds ihds =>
          intro w' hfuel'
          have hnext := ih d true (ds ++ pending) w' hfuel'
          rw [ends_ok nested] at hnext
          have hstart : ends nested (d :: ds ++ pending) (.ok ()) = .stopping d .check true (ds ++ pending) := by
            cases nested <;> rfl
          rw [hstart]
          refine hnext.trans (ihds _ (lt_of_le_of_lt ?_ hfuel'))
          have hsub : (w'.stopFuel env fuel d).2.tracked ⊆ w'.tracked :=
            World.RestOf.tracked (World.RestOf.stopFuel (fun _ _ h => h) fuel d)
          exact Set.ncard_le_ncard hsub w'.finite_tracked
      rw [after, if_pos hcascade] at hone
      rw [hresult]
      exact hone.trans (.head rfl (hfold _ _ hfewer))
    · rw [after, if_neg hcascade] at hone
      exact hone

/-- The sections of a call of `stop` that nothing interrupts. -/
theorem leads_stop (env : Env) (id : ProcessId) (w : World) :
    Leads env (call id, w) (ends false [] (w.stop env id).1, (w.stop env id).2) :=
  leads_stopFuel env _ id false [] w (Nat.lt_succ_of_le w.ncard_tracked_le)

end StopPc

namespace RestartPc

/-- A call takes a number of sections that nothing interrupts. -/
abbrev Leads (env : Env) (id : ProcessId) : RestartPc × World → RestartPc × World → Prop :=
  ReflTransGen fun s t => next env id s.1 s.2 = t

theorem leads_stopping {s t : StopPc × World} (h : StopPc.Leads env s t) :
    Leads env id (.stopping p s.1, s.2) (.stopping p t.1, t.2) := by
  induction h with
  | refl => exact .refl
  | @tail b c _ hstep ih =>
    obtain ⟨s', w'⟩ := b
    cases s' with
    | returned result =>
      subst hstep
      exact ih
    | stopping d stage nested pending =>
      refine ih.tail ?_
      simp only [next, ← hstep]

theorem leads_restartInPlace (env : Env) {q : Process} (hq : w.processes.lookup id = some q) :
    Leads env id (.reset p, w) (.returned (w.restartInPlace env id p).1, (w.restartInPlace env id p).2) := by
  have hreset : next env id (.reset p) w = (.respawn p true, w.restartReset env id) := by
    simp only [next, hq]
  refine .head hreset ?_
  simp only [World.restartInPlace]
  cases hspawn : (w.restartReset env id).spawnError env p.config with
  | some e =>
    refine .single ?_
    simp only [next, hspawn, ↓reduceIte]
  | none =>
    have hspawned : next env id (.respawn p true) (w.restartReset env id) =
        (.store (w.restartReset env id).nextChild ((w.restartReset env id).nextPid env),
          ((w.restartReset env id).spawnProcess env .restart id p.config p.resolvedDeps).bumpSequence) := by
      simp only [next, hspawn, ↓reduceIte]
    exact .head hspawned (.single rfl)

theorem leads_restartInsert (env : Env) (id : ProcessId) (p : Process) (w : World) :
    Leads env id (.respawn p false, w) (.returned (w.restartInsert env id p).1, (w.restartInsert env id p).2) := by
  simp only [World.restartInsert]
  cases hspawn : w.spawnError env p.config with
  | some e =>
    refine .single ?_
    simp only [next, hspawn, Bool.false_eq_true, ↓reduceIte]
  | none =>
    have hspawned : next env id (.respawn p false) w = (.insert (w.spawnedProcess env id p.label p.config []),
        (w.spawnProcess env .restart id p.config []).bumpSequence) := by
      simp only [next, hspawn, Bool.false_eq_true, ↓reduceIte]
    exact .head hspawned (.head rfl (.single rfl))

/-- The sections of a call of `restart` that nothing interrupts. -/
theorem leads_restart (env : Env) (id : ProcessId) (w : World) :
    Leads env id (.called, w) (.returned (w.restart env id).1, (w.restart env id).2) := by
  simp only [World.restart]
  cases hp : w.processes.lookup id with
  | none =>
    refine .single ?_
    simp only [next, hp]
  | some p =>
    simp only
    split_ifs with hrestarting
    · refine .head ?_ (leads_restartInPlace env hp)
      simp only [next, hp, if_pos hrestarting]
    · have hstop : Leads env id (.stopping p (.call id), w)
          (.stopping p (StopPc.ends false [] (w.stop env id).1), (w.stop env id).2) :=
        leads_stopping (StopPc.leads_stop env id w)
      have hcalled : next env id .called w = (.stopping p (.call id), w) := by
        simp only [next, hp, if_neg hrestarting]
      refine .head hcalled (hstop.trans ?_)
      cases (w.stop env id).1 with
      | error e => exact .single rfl
      | ok _ => exact .head rfl (leads_restartInsert env id p _)

end RestartPc

end ProcessManager
