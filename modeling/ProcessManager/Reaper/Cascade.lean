import ProcessManager.Manager.Start
import ProcessManager.Reaper.Exits

/-! Which processes the supervisor cascade of a pass signals. The source collects an origin
for every exit that triggers a restart, a clean one included. -/

namespace ProcessManager

variable {env : Env} {now : Instant} {w w' : World} {id : ProcessId} {p q : Process} {pollInterval : ℕ}

namespace Process

/-- The strategy of `o` covers `p`. -/
def Covers (o p : Process) : Prop :=
  p.label = o.label ∧ (p.state = .running ∨ p.state = .starting) ∧
    (o.config.supervisorStrategy = .oneForAll ∨
      o.config.supervisorStrategy = .restForOne ∧ o.spawnSequence < p.spawnSequence)

/-- An exit triggers a restart within the limit. -/
theorem willRestart_iff (p : Process) (status : ExitStatus) :
    p.willRestart status = true ↔ p.restartTriggered status = true ∧ p.rateLimited = false := by
  unfold willRestart exitState exitBase
  cases p.restartTriggered status <;> cases p.rateLimited <;> cases status.success <;> simp

/-- Phase 1 leaves what the target search looks at, up to `Starting` and `Running`. -/
theorem Visited.cascadeSelects (h : p.Visited now q) (o : CascadeOrigin) :
    World.cascadeSelects o q = World.cascadeSelects o p := by
  obtain rfl | rfl | rfl := h
  · rfl
  · simp [World.cascadeSelects, afterExit]
  · unfold afterPoll
    split_ifs with hstarting
    · simp [World.cascadeSelects, hstarting]
    · simp [World.cascadeSelects]

theorem Visited.pid_eq (h : p.Visited now q) : q.pid = p.pid := by
  obtain rfl | rfl | rfl := h
  · rfl
  · exact stableUptime_pid now p
  · unfold afterPoll
    split_ifs <;> exact stableUptime_pid now p

theorem Visited.config_eq (h : p.Visited now q) : q.config = p.config := by
  obtain rfl | rfl | rfl := h
  · rfl
  · exact stableUptime_config now p
  · unfold afterPoll
    split_ifs <;> exact stableUptime_config now p

/-- The target search of the origin of `o` finds what its strategy covers. -/
theorem cascadeSelects_iff (o p : Process) : World.cascadeSelects o.cascadeOrigin p = true ↔
    p.id ≠ o.id ∧ o.Covers p := by
  unfold World.cascadeSelects Covers cascadeOrigin
  cases o.config.supervisorStrategy <;> simp [and_assoc]

end Process

namespace Exits

theorem mem_cascadeOrigins_add {x : Exits} {p : Process} {status : ExitStatus} {o : CascadeOrigin} :
    o ∈ (x.add p status).cascadeOrigins ↔ o ∈ x.cascadeOrigins ∨
      (p.cascadeFlag = false ∧ p.willRestart status = true ∧
        p.config.supervisorStrategy ≠ .oneForOne ∧ o = p.cascadeOrigin) := by
  unfold add
  cases hflag : p.cascadeFlag with
  | true => simp
  | false =>
    simp only [Bool.false_eq_true, ↓reduceIte]
    split_ifs with h
    · simp only [Bool.and_eq_true, decide_eq_true_eq] at h
      simp [h]
    · simp only [Bool.and_eq_true, decide_eq_true_eq] at h
      simp only [true_and, iff_self_or]
      exact fun hor => absurd ⟨hor.1, hor.2.1⟩ h

end Exits

/-! ### The origins -/

/-- The origin `o` comes from a recorded exit. -/
def OriginatesIn (w : World) (now : Instant) (x : Exits) (o : CascadeOrigin) : Prop :=
  ∃ e ∈ x.exited, ∃ p status, w.processes.lookup e.id = some p ∧
    e = (p.stableUptime now).record status ∧ o ∈ (Exits.empty.add (p.stableUptime now) status).cascadeOrigins

/-- Every origin comes from a recorded exit. -/
theorem exists_of_mem_cascadeOrigins (env : Env) (now : Instant)
    (hkey : ∀ i q, w.processes.lookup i = some q → q.id = i) :
    ∀ o ∈ (w.phase1 env now).1.cascadeOrigins, OriginatesIn w now (w.phase1 env now).1 o := by
  refine phase1_invariant (I := fun _ x => ∀ o ∈ x.1.cascadeOrigins, OriginatesIn w now x.1 o) hkey
    (fun o ho => absurd ho List.not_mem_nil) ?_
  intro id rest x w' hphase (horigins : ∀ o ∈ x.cascadeOrigins, OriginatesIn w now x o)
  obtain ⟨_, heq⟩ | ⟨p, w₁, hp, _, ⟨c, status, _, _, rfl, heq⟩ | ⟨_, _, heq⟩⟩ :=
    World.phase1Visit_cases env now id x w' <;> rw [heq]
  · exact horigins
  · intro o ho
    unfold OriginatesIn
    rw [Exits.add_exited]
    rcases Exits.mem_cascadeOrigins_add.mp ho with ho | ho
    · obtain ⟨e, he, hrecord⟩ := horigins o ho
      exact ⟨e, List.mem_append_left _ he, hrecord⟩
    · have hp' : w.processes.lookup id = some p := (hphase.rest_lookup id (by simp)).symm.trans hp
      refine ⟨_, List.mem_append_right _ (List.mem_singleton_self _), p, status, ?_, rfl,
        Exits.mem_cascadeOrigins_add.mpr (.inr ho)⟩
      rw [Process.record_id, Process.stableUptime_id, hkey id p hp', hp']
  · exact horigins

/-- Phase 1 keeps the keys. -/
theorem tracked_phase1 (env : Env) (now : Instant) (w : World) (id : ProcessId) :
    (w.phase1 env now).2.processes.lookup id = none ↔ w.processes.lookup id = none := by
  refine Fold.foldl_invariant (I := fun x : Exits × World =>
    (x.2.processes.lookup id = none ↔ w.processes.lookup id = none)) Iff.rfl ?_
  rintro ⟨x, w'⟩ i - (hw' : w'.processes.lookup id = none ↔ _)
  have hput : ∀ (w₁ : World) (q : Process), w₁.processes = w'.processes →
      (((w₁.put i q).unlock .exclusive i).processes.lookup id = none ↔
        w.processes.lookup id = none) := by
    intro w₁ q hw₁
    rw [World.unlock_processes, World.put_processes, hw₁, AssocMap.lookup_replace, ← hw']
    split_ifs with hi
    · rw [Option.map_eq_none_iff, hi]
    · rfl
  obtain ⟨_, heq⟩ | ⟨p, w₁, _, _, ⟨c, status, _, _, rfl, heq⟩ | ⟨hstep, _, heq⟩⟩ :=
    World.phase1Visit_cases env now i x w' <;> rw [heq]
  · exact hw'
  · exact hput _ _ (World.osStep_tryWait (P := fun _ => True) env (Set.mem_univ c) _).processes
  · exact hput _ _ hstep.processes

namespace World

/-! ### The kills -/

/-- A call of the cascade for `p`. -/
def CascadeCall (p : Process) (k : KillCall) : Prop :=
  k.site = .cascade ∧ k.id = p.id ∧ k.pid = p.pid ∧ k.signal = p.config.killSignal.toSignal

/-- The world after the kills of `done`, which started in `w`. -/
structure Killed (w : World) (done : List ProcessId) (w' : World) : Prop where
  lookup : ∀ i, w'.processes.lookup i = (w.processes.lookup i).map fun q =>
    if i ∈ done ∧ q.pid ≠ 0 then { q with cascadeFlag := true, state := .stopping } else q
  kills : Grows (fun k => ∃ i ∈ done, ∃ q, w.processes.lookup i = some q ∧ q.pid ≠ 0 ∧ CascadeCall q k)
    w.kills w'.kills
  killed : ∀ i ∈ done, ∀ q, w.processes.lookup i = some q → q.pid ≠ 0 →
    Gains (CascadeCall q) w.kills w'.kills

theorem Killed.cascadeKill {done : List ProcessId} (env : Env) (h : Killed w done w') (id : ProcessId) :
    Killed w (done ++ [id]) (w'.cascadeKill env id) := by
  have hmem : ∀ i, i ∈ done ++ [id] ↔ i ∈ done ∨ i = id := fun i => by simp
  -- a kill of an entry that is killed already changes nothing but the log
  have hpid : ∀ q, w.processes.lookup id = some q → ∃ p, w'.processes.lookup id = some p ∧
      p.pid = q.pid ∧ p.id = q.id ∧ p.config = q.config ∧
        ({ p with cascadeFlag := true, state := .stopping } : Process) =
          { q with cascadeFlag := true, state := .stopping } := by
    intro q hq
    rw [h.lookup id, hq, Option.map_some]
    refine ⟨_, rfl, ?_⟩
    split_ifs <;> exact ⟨rfl, rfl, rfl, rfl⟩
  obtain ⟨hnone, heq⟩ | ⟨p, hp, hp0, heq⟩ := cascadeKill_cases env id w' <;> rw [heq]
  · have hzero : ∀ q, w.processes.lookup id = some q → q.pid = 0 := by
      intro q hq
      obtain ⟨p, hp, hpq, _⟩ := hpid q hq
      exact hpq ▸ hnone p hp
    refine ⟨fun i => ?_, ?_, fun i hi q hq hq0 => ?_⟩
    · rw [unlock_processes, lock_processes, h.lookup i]
      refine Option.map_congr fun q hq => ?_
      by_cases hi : i = id
      · simp only [hzero q (hi ▸ hq), ne_eq, not_true_eq_false, and_false]
      · simp only [hmem, hi, or_false]
    · exact h.kills.mono fun k ⟨i, hi, hk⟩ => ⟨i, List.mem_append_left _ hi, hk⟩
    · rcases (hmem i).mp hi with hi | rfl
      · exact h.killed i hi q hq hq0
      · exact absurd (hzero q hq) hq0
  · obtain ⟨q, hq⟩ : ∃ q, w.processes.lookup id = some q := by
      rw [h.lookup id, Option.map_eq_some_iff] at hp
      exact ⟨_, hp.choose_spec.1⟩
    obtain ⟨p', hp', hpq, hidq, hconfig, hsame⟩ := hpid q hq
    obtain rfl : p = p' := Option.some.inj (hp.symm.trans hp')
    have hq0 : q.pid ≠ 0 := hpq ▸ hp0
    have hcall : ∀ k, CascadeCall p k → CascadeCall q k := fun k ⟨hsite, hk, hkpid, hsignal⟩ =>
      ⟨hsite, hk.trans hidq, hkpid.trans hpq,
        hsignal.trans (congrArg (fun c : ProcessConfig => c.killSignal.toSignal) hconfig)⟩
    refine ⟨fun i => ?_, ?_, fun i hi r hr hr0 => ?_⟩
    · rw [unlock_processes, put_processes, kill_processes, tick_processes, lock_processes,
        AssocMap.lookup_replace, hsame]
      split_ifs with hi
      · subst hi
        rw [hp, hq]
        simp [hq0]
      · rw [h.lookup i]
        simp only [hmem, hi, or_false]
    · refine (h.kills.mono fun k ⟨i, hi, hk⟩ => ⟨i, List.mem_append_left _ hi, hk⟩).trans ?_
      exact .cons _ ⟨id, (hmem id).mpr (.inr rfl), q, hq, hq0, hcall _ ⟨rfl, rfl, rfl, rfl⟩⟩
    · rcases (hmem i).mp hi with hi | rfl
      · exact (h.killed i hi r hr hr0).before (.cons _ trivial : Grows (fun _ => True) _ _)
      · obtain rfl : q = r := Option.some.inj (hq.symm.trans hr)
        exact .after h.kills (.cons _ (hcall _ ⟨rfl, rfl, rfl, rfl⟩))

theorem killed_phase1b (env : Env) (origins : List CascadeOrigin) (w : World) :
    Killed w (w.cascadeTargets origins) (w.phase1b env origins) := by
  have hsame : ∀ origins : List CascadeOrigin, Killed w []
      (origins.foldl (fun w _ => w.touch .shared w.processes.keys) w) := by
    intro origins
    have hinit : Killed w [] w := ⟨fun i => by simp, .refl _, fun i hi => absurd hi List.not_mem_nil⟩
    refine Fold.foldl_invariant (I := Killed w []) hinit fun w' _ _ h => ?_
    exact ⟨h.lookup, h.kills, h.killed⟩
  have hfold : ∀ (ids done : List ProcessId) (w' : World), Killed w done w' →
      Killed w (done ++ ids) (ids.foldl (fun w id => w.cascadeKill env id) w') := by
    intro ids
    induction ids with
    | nil => exact fun done w' h => by rwa [List.append_nil]
    | cons id ids ih =>
      intro done w' h
      have hnext := ih (done ++ [id]) _ (h.cascadeKill env id)
      rwa [List.append_assoc, List.singleton_append] at hnext
  exact hfold _ [] _ (hsame origins)

/-! ### Who is selected -/

/-- The pass finds that `o`, which no cascade stopped, has exited with the status, and a
restart within the limit is triggered. -/
def RestartedExit (env : Env) (pollInterval : ℕ) (w : World) (i : ProcessId) (o : Process)
    (status : ExitStatus) : Prop :=
  w.processes.lookup i = some o ∧
    (∃ e ∈ (w.detect env pollInterval).1.exited, e.id = i ∧ e.exitStatus = some status) ∧
    o.cascadeFlag = false ∧
    (o.stableUptime (w.awake env pollInterval).clock).restartTriggered status = true ∧
    (o.stableUptime (w.awake env pollInterval).clock).rateLimited = false

/-- Another process exited like that, with a successful status or not, and its strategy
covers `p`. -/
def SelectedBy (success : Bool) (env : Env) (pollInterval : ℕ) (w : World) (id : ProcessId)
    (p : Process) : Prop :=
  ∃ i o status, w.RestartedExit env pollInterval i o status ∧ status.success = success ∧ i ≠ id ∧
    o.Covers p

/-- The cascade has flagged `p` and sent it its kill signal. -/
def CascadeHits (env : Env) (pollInterval : ℕ) (w : World) (id : ProcessId) (p : Process) : Prop :=
  (∃ q, (w.cascade env pollInterval).processes.lookup id = some q ∧ q.cascadeFlag = true ∧
      q.state = .stopping) ∧
    Gains (CascadeCall p) (w.detect env pollInterval).2.kills (w.cascade env pollInterval).kills

/-- The pass has found no exit of the process. -/
def NotExited (env : Env) (pollInterval : ℕ) (w : World) (id : ProcessId) : Prop :=
  ∀ e ∈ (w.detect env pollInterval).1.exited, e.id ≠ id

/-- The cascade hits exactly the processes that a crash selects, and leaves the others as
Phase 1 left them. -/
def CascadeSelective (env : Env) (pollInterval : ℕ) (w : World) : Prop :=
  ∀ id p, w.processes.lookup id = some p → w.NotExited env pollInterval id →
    (w.CascadeHits env pollInterval id p ↔ w.SelectedBy false env pollInterval id p) ∧
      (¬ w.SelectedBy false env pollInterval id p →
        (w.cascade env pollInterval).processes.lookup id =
          (w.detect env pollInterval).2.processes.lookup id)

/-- What a clean exit selects was never spawned or is selected by a crash as well, and what a
crash selects was spawned. -/
def CleanExitsSelectNothing (env : Env) (pollInterval : ℕ) (w : World) : Prop :=
  ∀ id p, w.processes.lookup id = some p → w.NotExited env pollInterval id →
    (w.SelectedBy true env pollInterval id p → p.pid ≠ 0 → w.SelectedBy false env pollInterval id p) ∧
      (w.SelectedBy false env pollInterval id p → p.pid ≠ 0)

/-- A tracked process is still tracked after Phase 1. -/
theorem visited_detect (env : Env) (pollInterval : ℕ)
    (hkey : ∀ i q, w.processes.lookup i = some q → q.id = i) (hp : w.processes.lookup id = some p) :
    ∃ q, (w.detect env pollInterval).2.processes.lookup id = some q ∧
      p.Visited (w.awake env pollInterval).clock q := by
  obtain ⟨q, hq⟩ : ∃ q, (w.detect env pollInterval).2.processes.lookup id = some q := by
    refine Option.ne_none_iff_exists'.mp fun hnone => ?_
    have hgone := (tracked_phase1 env _ (w.awake env pollInterval) id).mp hnone
    exact Option.some_ne_none p (hp.symm.trans hgone)
  obtain ⟨p', hp', hvisited⟩ := (phase1State_detect env pollInterval hkey).visited id q hq
  obtain rfl : p = p' := Option.some.inj (hp.symm.trans hp')
  exact ⟨q, hq, hvisited⟩

/-- The targets of the code: any exit that is restarted selects. -/
theorem mem_targets_iff (env : Env) (pollInterval : ℕ)
    (hkey : ∀ i q, w.processes.lookup i = some q → q.id = i) (hp : w.processes.lookup id = some p) :
    id ∈ (w.detect env pollInterval).2.cascadeTargets (w.detect env pollInterval).1.cascadeOrigins ↔
      ∃ success, w.SelectedBy success env pollInterval id p := by
  set now := (w.awake env pollInterval).clock with hnow
  have hphase := phase1State_detect env pollInterval hkey
  have horigin : ∀ o : Process, (o.stableUptime now).cascadeOrigin = o.cascadeOrigin := fun o => by
    simp [Process.cascadeOrigin]
  obtain ⟨q, hq, hvisited⟩ := visited_detect env pollInterval hkey hp
  have hselects : ∀ o, cascadeSelects o q = cascadeSelects o p := hvisited.cascadeSelects
  rw [cascadeTargets, List.mem_flatMap]
  constructor
  · rintro ⟨o, ho, hid⟩
    obtain ⟨q', hq', hselected⟩ := AssocMap.mem_keysWhere.mp hid
    obtain rfl : q = q' := Option.some.inj (hq.symm.trans hq')
    obtain ⟨e, he, r, status, hr, hrecord, hadd⟩ :=
      exists_of_mem_cascadeOrigins (w := w.awake env pollInterval) env now hkey o ho
    obtain ⟨hflag, hwill, _, rfl⟩ := (Exits.mem_cascadeOrigins_add.mp hadd).resolve_left List.not_mem_nil
    rw [Process.stableUptime_cascadeFlag] at hflag
    rw [Process.willRestart_iff] at hwill
    rw [hselects, horigin, Process.cascadeSelects_iff, hkey id p hp, hkey e.id r hr] at hselected
    refine ⟨status.success, e.id, r, status, ⟨hr, ⟨e, he, rfl, ?_⟩, hflag, hwill⟩, rfl,
      hselected.1.symm, hselected.2⟩
    rw [hrecord, Process.record, Process.stableUptime_cascadeFlag, hflag]
    rfl
  · rintro ⟨_, i, o, status, ⟨ho, ⟨e, he, rfl, hstatus⟩, hflag, htriggered, hlimit⟩, -, hne, hcovers⟩
    obtain ⟨o', status', ho', _, hrecord⟩ := hphase.recorded e he
    obtain rfl : o = o' := Option.some.inj (ho.symm.trans ho')
    have hflag' : (o.stableUptime now).cascadeFlag = false := by rw [Process.stableUptime_cascadeFlag, hflag]
    obtain rfl : status = status' := by
      rw [hrecord.record, Process.record, hflag'] at hstatus
      exact (Option.some.inj hstatus).symm
    have hstrategy : (o.stableUptime now).config.supervisorStrategy ≠ .oneForOne := by
      rw [Process.stableUptime_config]
      rcases hcovers.2.2 with h | ⟨h, _⟩ <;> simp [h]
    refine ⟨o.cascadeOrigin, hrecord.consequences.cascadeOrigins ?_, AssocMap.mem_keysWhere.mpr ⟨q, hq, ?_⟩⟩
    · refine Exits.mem_cascadeOrigins_add.mpr (.inr ⟨hflag', ?_, hstrategy, (horigin o).symm⟩)
      exact (Process.willRestart_iff _ _).mpr ⟨htriggered, hlimit⟩
    · rw [hselects, Process.cascadeSelects_iff, hkey id p hp, hkey e.id o ho]
      exact ⟨hne.symm, hcovers⟩

/-- What the cascade does to a process that has not exited. -/
theorem cascade_outcome (env : Env) (pollInterval : ℕ)
    (hkey : ∀ i q, w.processes.lookup i = some q → q.id = i) (hp : w.processes.lookup id = some p) :
    (w.CascadeHits env pollInterval id p ↔
        (∃ success, w.SelectedBy success env pollInterval id p) ∧ p.pid ≠ 0) ∧
      (¬ ((∃ success, w.SelectedBy success env pollInterval id p) ∧ p.pid ≠ 0) →
        (w.cascade env pollInterval).processes.lookup id =
          (w.detect env pollInterval).2.processes.lookup id) := by
  have hphase := phase1State_detect env pollInterval hkey
  obtain ⟨q, hq, hvisited⟩ := visited_detect env pollInterval hkey hp
  have hcall : CascadeCall q = CascadeCall p := by
    funext k
    unfold CascadeCall
    rw [hvisited.id_eq, hvisited.pid_eq, hvisited.config_eq]
  have hkilled : Killed _ _ (w.cascade env pollInterval) :=
    killed_phase1b env (w.detect env pollInterval).1.cascadeOrigins (w.detect env pollInterval).2
  rw [← mem_targets_iff env pollInterval hkey hp, ← hvisited.pid_eq]
  have hlookup := hkilled.lookup id
  rw [hq, Option.map_some] at hlookup
  refine ⟨⟨?_, fun ⟨hmem, hpid⟩ => ?_⟩, fun hnot => ?_⟩
  · rintro ⟨_, hgains⟩
    obtain ⟨k, hcallk, i, hi, r, hr, hr0, hcallr⟩ := hgains.exists_and hkilled.kills
    -- the id of a call names its entry
    obtain ⟨r', hr', hvisited'⟩ := hphase.visited i r hr
    have hik : i = id := by
      rw [← hkey i r' hr', ← hvisited'.id_eq, ← hcallr.2.1, hcallk.2.1, hkey id p hp]
    subst hik
    obtain rfl : q = r := Option.some.inj (hq.symm.trans hr)
    exact ⟨hi, hr0⟩
  · have hgains := hkilled.killed id hmem q hq hpid
    rw [hcall] at hgains
    refine ⟨⟨_, hlookup, ?_⟩, hgains⟩
    simp only [hmem, hpid, ne_eq, not_false_eq_true, and_self, ↓reduceIte]
  · rw [hlookup, hq, if_neg hnot]

/-- A pass hits exactly what crashes select if and only if clean exits select nothing more. -/
theorem cascadeSelective_iff (env : Env) (pollInterval : ℕ)
    (hkey : ∀ i q, w.processes.lookup i = some q → q.id = i) :
    w.CascadeSelective env pollInterval ↔ w.CleanExitsSelectNothing env pollInterval := by
  refine forall₄_congr fun id p hp _ => ?_
  obtain ⟨hhits, hkeeps⟩ := cascade_outcome env pollInterval hkey hp
  constructor
  · rintro ⟨hiff, _⟩
    refine ⟨fun hclean hpid => hiff.mp (hhits.mpr ⟨⟨true, hclean⟩, hpid⟩), fun hcrash => ?_⟩
    exact (hhits.mp (hiff.mpr hcrash)).2
  · rintro ⟨hclean, hpid⟩
    have hselected : ((∃ success, w.SelectedBy success env pollInterval id p) ∧ p.pid ≠ 0) ↔
        w.SelectedBy false env pollInterval id p := by
      refine ⟨fun ⟨⟨success, h⟩, h0⟩ => ?_, fun h => ⟨⟨false, h⟩, hpid h⟩⟩
      cases success with
      | false => exact h
      | true => exact hclean h h0
    exact ⟨hhits.trans hselected, fun hnot => hkeeps (hselected.not.mpr hnot)⟩

/-- Two members of a group that is restarted as a whole, after any exit. -/
def alwaysRestarted : World :=
  let config : ProcessConfig :=
    { command := "/bin/web", restartOnExit := true, restartTrigger := .always,
      supervisorStrategy := .oneForAll }
  ((World.withReaper.start .calm ⟨"web"⟩ config).2.start .calm ⟨"web"⟩ config).2

/-- The first member ends before the pass. -/
def firstEnds (status : ExitStatus) : Env := .exitsAt [(4, ⟨0, status, 0⟩)]

theorem key_alwaysRestarted : ∀ i q, alwaysRestarted.processes.lookup i = some q → q.id = i := by
  have hkey : ∀ e ∈ alwaysRestarted.processes.entries, e.2.id = e.1 := by decide +kernel
  exact fun i q hq => hkey ⟨i, q⟩ (AList.mem_lookup_iff.mp hq)

/-- A crash of the first member selects the second. -/
theorem cascadeSelective_crash :
    ((alwaysRestarted.detect (firstEnds (.code 1)) 0).1.exited.map ExitedProcess.exitStatus =
        [some (.code 1)]) ∧
      alwaysRestarted.CascadeSelective (firstEnds (.code 1)) 0 := by
  have hexited : (alwaysRestarted.detect (firstEnds (.code 1)) 0).1.exited.map ExitedProcess.exitStatus =
      [some (.code 1)] := by decide +kernel
  have hpid : ∀ e ∈ alwaysRestarted.processes.entries, e.2.pid ≠ 0 := by decide +kernel
  refine ⟨hexited, (cascadeSelective_iff _ 0 key_alwaysRestarted).mpr ?_⟩
  intro id p hp _
  constructor
  · rintro ⟨_, _, status, ⟨_, ⟨e, he, _, hstatus⟩, _⟩, hsuccess, _⟩
    have hmem : some status ∈ [some (ExitStatus.code 1)] :=
      hexited ▸ hstatus ▸ List.mem_map_of_mem he
    obtain rfl : status = .code 1 := by simpa using hmem
    cases hsuccess
  · exact fun _ => hpid ⟨id, p⟩ (AList.mem_lookup_iff.mp hp)

/-- The first member ends with status 0, and the cascade kills the second. -/
theorem not_cascadeSelective_cleanExit :
    ¬ alwaysRestarted.CascadeSelective (firstEnds (.code 0)) 0 := by
  intro h
  have hexited : (alwaysRestarted.detect (firstEnds (.code 0)) 0).1.exited.map
      (fun e => (e.id, e.exitStatus)) = [(⟨1⟩, some (.code 0))] := by decide +kernel
  have hclean : ∀ e ∈ (alwaysRestarted.detect (firstEnds (.code 0)) 0).1.exited,
      e.id = ⟨1⟩ ∧ e.exitStatus = some (.code 0) := by
    intro e he
    have hmem : (e.id, e.exitStatus) ∈ [((⟨1⟩ : ProcessId), some (ExitStatus.code 0))] :=
      hexited ▸ List.mem_map_of_mem he
    simpa using hmem
  have hentry : (alwaysRestarted.processes.lookup ⟨2⟩).map
      (fun p => (p.id, p.pid, p.config.killSignal)) = some (⟨2⟩, 3, .sigterm) := by decide +kernel
  have hflagged : ((alwaysRestarted.cascade (firstEnds (.code 0)) 0).processes.lookup ⟨2⟩).map
      (fun q => (q.cascadeFlag, q.state)) = some (true, .stopping) := by decide +kernel
  have hbefore : (alwaysRestarted.detect (firstEnds (.code 0)) 0).2.kills.map KillCall.pid = [] := by
    decide +kernel
  have hcalls : (alwaysRestarted.cascade (firstEnds (.code 0)) 0).kills.map
      (fun k => (k.site, k.id, k.pid, k.signal)) = [(.cascade, ⟨2⟩, 3, .sigterm)] := by decide +kernel
  obtain ⟨p, hp, hpid⟩ := Option.map_eq_some_iff.mp hentry
  obtain ⟨q, hq, hflag⟩ := Option.map_eq_some_iff.mp hflagged
  obtain ⟨k, hk, hcall⟩ := List.mem_map.mp (hcalls ▸ List.mem_singleton_self _)
  simp only [Prod.mk.injEq] at hpid hflag hcall
  have hgains : Gains (CascadeCall p) (alwaysRestarted.detect (firstEnds (.code 0)) 0).2.kills
      (alwaysRestarted.cascade (firstEnds (.code 0)) 0).kills := by
    rw [List.map_eq_nil_iff] at hbefore
    refine ⟨_, by rw [hbefore, List.append_nil], k, hk, ?_⟩
    obtain ⟨hsite, hid, hkpid, hsignal⟩ := hcall
    refine ⟨hsite, hid.trans hpid.1.symm, hkpid.trans hpid.2.1.symm, ?_⟩
    rw [hsignal, hpid.2.2]
    rfl
  have hnot : alwaysRestarted.NotExited (firstEnds (.code 0)) 0 ⟨2⟩ := fun e he hid => by
    rw [(hclean e he).1] at hid
    cases hid
  obtain ⟨i, o, status, ⟨_, ⟨e, he, _, hstatus⟩, _⟩, hcrash, _⟩ :=
    (h ⟨2⟩ p hp hnot).1.mp ⟨⟨q, hq, hflag⟩, hgains⟩
  rw [(hclean e he).2] at hstatus
  cases hstatus
  cases hcrash

end World

end ProcessManager
