import ProcessManager.System.CascadeFlag
import ProcessManager.System.Supervision

/-! Restarts of whole groups. A member that a cascade has stopped stays flagged and `Stopping`
until a pass finds its exit; this exit is no crash, and it leads to a restart whatever the
trigger and the limit of the member say. -/

namespace ProcessManager

variable {env : Env} {now : Instant} {pollInterval : ℕ} {w w' : World} {id k : ProcessId} {p q : Process} {c n : ℕ}

namespace World

/-! ### Passes that do not find the exit -/

/-- Once `id` is visited and has no record, its entry is what a poll leaves. -/
def PolledOrExited (p : Process) (now : Instant) (id : ProcessId) (rest : List ProcessId) (x : Exits × World) : Prop :=
  id ∉ rest → (∀ e ∈ x.1.exited, e.id ≠ id) → x.2.processes.lookup id = some (p.afterPoll now)

/-- A process whose exit is not found is left as a poll leaves it. -/
theorem lookup_detect_of_notExited (hkey : ∀ i q, w.processes.lookup i = some q → q.id = i)
    (hp : w.processes.lookup id = some p) (hstate : p.state ≠ .restarting) (hnot : w.NotExited env pollInterval id) :
    (w.detect env pollInterval).2.processes.lookup id = some (p.afterPoll (w.awake env pollInterval).clock) := by
  have hawake : (w.awake env pollInterval).processes = w.processes :=
    (osStep_awake (S := ∅) (P := fun _ => True) env pollInterval w).processes
  have hinit : PolledOrExited p (w.awake env pollInterval).clock id (w.awake env pollInterval).processes.keys
      (.empty, w.awake env pollInterval) := fun hid => absurd (AssocMap.mem_of_lookup (hawake ▸ hp)) hid
  refine phase1_invariant (I := PolledOrExited p (w.awake env pollInterval).clock id) (hawake ▸ hkey) hinit ?_
    List.not_mem_nil hnot
  intro k rest x w' hphase hdone hid hexited
  by_cases hk : id = k
  · subst hk
    have hp' : w'.processes.lookup id = some p := (hphase.rest_lookup id (by simp)).trans (hawake ▸ hp)
    obtain ⟨hrestarting, _⟩ | ⟨q, w₁, hq, _, ⟨_, status, _, _, _, heq⟩ | ⟨hstep, _, heq⟩⟩ :=
      phase1Visit_cases env (w.awake env pollInterval).clock id x w'
    · exact absurd (hrestarting p hp') hstate
    · obtain rfl : p = q := Option.some.inj (hp'.symm.trans hq)
      rw [heq, Exits.add_exited] at hexited
      exact absurd (hkey id p hp) (by simpa using hexited _ (List.mem_append_right _ (List.mem_singleton_self _)))
    · obtain rfl : p = q := Option.some.inj (hp'.symm.trans hq)
      rw [heq, unlock_processes, put_processes, AssocMap.lookup_replace, if_pos rfl, hstep.processes, lock_processes,
        hp', Option.map_some]
      rfl
  · rw [phase1Visit_lookup hk]
    refine hdone (by simp [hk, hid]) fun e he => hexited e ?_
    exact (phase1Visit_grows env _ k x w').1 he

theorem exitsOf_of_notExited (hnot : w.NotExited env pollInterval id) : w.exitsOf env pollInterval id = [] :=
  List.filter_eq_nil_iff.mpr fun e he => by simpa using hnot e he

theorem not_mem_keysWhere {f : Process → Bool} (hp : w.processes.lookup id = some p) (hf : f p = false) :
    id ∉ w.processes.keysWhere f := by
  intro hid
  obtain ⟨q, hq, hf'⟩ := AssocMap.mem_keysWhere.mp hid
  obtain rfl : p = q := Option.some.inj (hp.symm.trans hq)
  rw [hf] at hf'
  cases hf'

theorem lookup_phase4_stopping (hp : w.processes.lookup id = some p) (hstate : p.state = .stopping) :
    (w.phase4 env now).processes.lookup id = some p := by
  have hnot : id ∉ w.restartIds now := not_mem_keysWhere hp (by simp [restartDue, hstate])
  obtain ⟨p', hp', rfl | ⟨hs, _⟩, _⟩ := checked_phase4 env hnot hp
  · exact hp'
  · simp [hstate] at hs

/-- After Phase 3 a pass does nothing to a process in `Stopping`. -/
theorem lookup_reaperPass_of_stopping (hp : (w.afterPhase3 env pollInterval).processes.lookup id = some p)
    (hstate : p.state = .stopping) : (w.reaperPass env pollInterval).processes.lookup id = some p := by
  have h4 : (w.beforePhase5 env pollInterval).processes.lookup id = some p :=
    lookup_ifRunning hp fun _ => lookup_phase4_stopping hp hstate
  have h5 := lookup_ifRunning (f := phase5 env) h4 fun _ =>
    (lookup_phase5 (not_mem_keysWhere h4 (by simp [hstate]))).trans h4
  exact lookup_ifRunning h5 fun _ => (lookup_phase6 (not_mem_keysWhere h5 (by simp [hstate]))).trans h5

/-- A pass leaves a process in `Stopping` alone whose exit it does not find. -/
theorem lookup_reaperPass_stopping (hkey : ∀ i q, w.processes.lookup i = some q → q.id = i)
    (hp : w.processes.lookup id = some p) (hstate : p.state = .stopping) (hnot : w.NotExited env pollInterval id) :
    (w.reaperPass env pollInterval).processes.lookup id = some p := by
  have hpoll : p.afterPoll (w.awake env pollInterval).clock = p := by
    simp [Process.afterPoll, Process.stableUptime, hstate]
  have hdetect := lookup_detect_of_notExited hkey hp (by simp [hstate]) hnot
  rw [hpoll] at hdetect
  refine lookup_reaperPass_of_stopping ?_ hstate
  rw [lookup_afterPhase3 (exitsOf_of_notExited hnot)]
  exact lookup_cascade_of_not_active hdetect (by simp [hstate]) (by simp [hstate])

/-- The entry of a process that the cascade of a pass hits. -/
theorem CascadeHits.lookup_reaperPass (hkey : ∀ i q, w.processes.lookup i = some q → q.id = i)
    (hp : w.processes.lookup id = some p) (hnot : w.NotExited env pollInterval id)
    (hhit : w.CascadeHits env pollInterval id p) :
    ∃ q, (w.reaperPass env pollInterval).processes.lookup id = some q ∧ q.cascadeFlag = true ∧ q.state = .stopping ∧
      q.child = p.child ∧ q.config = p.config ∧
      q.restartState = (p.stableUptime (w.awake env pollInterval).clock).restartState := by
  obtain ⟨⟨q, hq, hflag, hstopping⟩, _⟩ := hhit
  have hactive : p.state ≠ .restarting := by
    intro hstate
    have hdetect : (w.detect env pollInterval).2.processes.lookup id = some p := lookup_detect_restarting hp hstate
    have hkept := lookup_cascade_of_not_active hdetect (by simp [hstate]) (by simp [hstate])
    obtain rfl : q = p := Option.some.inj (hq.symm.trans hkept)
    rw [hstate] at hstopping
    cases hstopping
  have hentry := (killed_phase1b env (w.detect env pollInterval).1.cascadeOrigins (w.detect env pollInterval).2).lookup id
  rw [lookup_detect_of_notExited hkey hp hactive hnot, Option.map_some] at hentry
  have hsame : q.child = p.child ∧ q.config = p.config ∧
      q.restartState = (p.stableUptime (w.awake env pollInterval).clock).restartState := by
    rw [Option.some.inj (hq.symm.trans hentry)]
    unfold Process.afterPoll
    split_ifs <;> simp
  refine ⟨q, lookup_reaperPass_of_stopping ?_ hstopping, hflag, hstopping, hsame⟩
  rw [lookup_afterPhase3 (exitsOf_of_notExited hnot), hq]

/-- From the pass that hits it on, the entry stays as it is until a pass finds the exit. -/
theorem lookup_passes_stopping (h : w.Regular) (hw : w.reaper = .running)
    (hq : (w.reaperPass env pollInterval).processes.lookup id = some q) (hstate : q.state = .stopping) (hn : 0 < n)
    (hearly : ∀ k < n, (passes env pollInterval k w).NotExited env pollInterval id) :
    (passes env pollInterval n w).processes.lookup id = some q := by
  induction n, hn using Nat.le_induction with
  | base =>
    rw [passes_succ, passes, Function.iterate_zero, id_eq, ifRunning, if_pos hw]
    exact hq
  | succ n _ ih =>
    have hheld := ih fun k hk => hearly k (hk.trans n.lt_succ_self)
    rw [passes_succ]
    exact lookup_ifRunning hheld fun _ =>
      lookup_reaperPass_stopping (h.passes n).sound.key hheld hstate (hearly n n.lt_succ_self)

/-- The exit of a flagged process is a stop, and restarted whenever `restart_on_exit` is set. -/
theorem recorded_of_flagged (hkey : ∀ i q, w.processes.lookup i = some q → q.id = i)
    (hq : w.processes.lookup id = some q) (hflag : q.cascadeFlag = true) {e : ExitedProcess}
    (he : e ∈ (w.detect env pollInterval).1.exited) (hid : e.id = id) :
    e.state = .stopped ∧ e.restartConfig.isSome = q.config.restartOnExit := by
  obtain ⟨q', status, hq', _, hrecord⟩ := (phase1State_detect env pollInterval hkey).recorded e he
  obtain rfl : q = q' := Option.some.inj (hq.symm.trans (hid ▸ hq'))
  have hflag' : (q.stableUptime (w.awake env pollInterval).clock).cascadeFlag = true := by
    rw [Process.stableUptime_cascadeFlag, hflag]
  rw [hrecord.record, Process.record, if_pos hflag']
  refine ⟨rfl, ?_⟩
  rw [Process.cascadeRecord, Process.stableUptime_config]
  cases q.config.restartOnExit <;> rfl

end World

/-! ### Runs -/

namespace System

variable (env : Env) (pollInterval : ℕ)

/-- In every run, a process that the cascade of a pass hits is flagged and `Stopping`, with its child,
as long as only passes follow and none of them finds its exit. The first pass after its child has
exited reports the exit as `Stopped` and, whatever the trigger and the limit of the process, restarts
it if it is to be restarted at all: without dependencies it is respawned by the first pass that is not
before its time. -/
theorem group_respawned {σ : Type*} [DecidableEq σ] {shard : ProcessId → σ} {s s' s'' : System} (hs : s.Initial)
    {actions : List Action} (hrun : run? shard env pollInterval actions s = some s') {id : ProcessId} {p : Process}
    {c : ℕ} (hp : s'.world.processes.lookup id = some p) (hc : p.child = some c)
    (hhit : s'.world.CascadeHits env pollInterval id p) (hr : s'.world.reaper = .running)
    (hwaits : ∀ n, env.waitFails n = false) {n : ℕ} (hn : 0 < n)
    (hpasses : run? shard env pollInterval (List.replicate n .pass) s' = some s'')
    (hearly : ∀ k < n, (World.passes env pollInterval k s'.world).NotExited env pollInterval id) :
    (∃ q, s''.world.processes.lookup id = some q ∧ q.cascadeFlag = true ∧ q.state = .stopping ∧ q.child = some c) ∧
      ∀ ch, s''.world.children[c]? = some ch → ch.isRunning = false →
        ∃ e ∈ (s''.world.detect env pollInterval).1.exited, e.id = id ∧ e.state = .stopped ∧
          e.restartConfig.isSome = p.config.restartOnExit ∧
          (p.config.restartOnExit = true → p.config.dependsOn = [] → env.Spawns p.config →
            (s''.world.afterPhase3 env pollInterval).reaper = .running →
              ∃ rs, (p.stableUptime (s'.world.awake env pollInterval).clock).restartState = some rs ∧
                s''.RespawnsAt shard env pollInterval id
                  ((s''.world.awake env pollInterval).clock + World.restartNanos p.config rs)) := by
  obtain ⟨_, rfl⟩ := run?_eq_some_iff.mp hrun
  obtain ⟨_, rfl⟩ := run?_eq_some_iff.mp hpasses
  have hrun' : (s.run env pollInterval actions).run env pollInterval (List.replicate n .pass) =
      s.run env pollInterval (actions ++ List.replicate n .pass) := List.foldl_append.symm
  have hregular : (s.run env pollInterval actions).world.Regular := regular_run env pollInterval hs actions
  have hregular' := regular_run env pollInterval hs (actions ++ List.replicate n .pass)
  have htracks := tracks_run env pollInterval hs (actions ++ List.replicate n .pass)
  rw [← hrun'] at hregular' htracks
  obtain ⟨q, hq, hflag, hstopping, hchild, hconfig, hrs⟩ :=
    hhit.lookup_reaperPass hregular.sound.key hp (hearly 0 hn)
  have hq' := World.lookup_passes_stopping hregular hr hq hstopping hn hearly
  rw [← run_passes] at hq'
  rw [hc] at hchild
  refine ⟨⟨q, hq', hflag, hstopping, hchild⟩, fun ch hch hexited => ?_⟩
  obtain ⟨e, he, hid⟩ := exists_exited_detect env pollInterval hregular' hq' (by simp [hstopping]) hchild hch hexited hwaits
  obtain ⟨hstate, hrestart⟩ := World.recorded_of_flagged hregular'.sound.key hq' hflag he hid
  rw [hconfig] at hrestart
  refine ⟨e, he, hid, hstate, hrestart, fun hon hdeps hspawns hr' => ?_⟩
  subst hid
  obtain ⟨rs, q', rs', hrs', hlookup, hstate', hconfig', hrs₁, ht⟩ := World.scheduled_afterPhase3 hregular'.sound.key
    hregular'.idle htracks hr' he (hrestart.trans hon) hq'
  have hsame : ∀ now, (q.stableUptime now).restartState = q.restartState := fun now => by
    simp [Process.stableUptime, hstopping]
  rw [hsame, hrs] at hrs'
  rw [hconfig] at hconfig' ht
  exact ⟨rs, hrs', respawnsAt_of_scheduled hregular' hlookup hstate' hrs₁ ht (hconfig' ▸ hspawns) (hconfig' ▸ hdeps)⟩

/-- One of two members crashes before the first pass, and the other one exits before the second. -/
def staggered : Env := .exitsAt [(6, ⟨0, .code 1, 0⟩), (12, ⟨1, .code 1, 0⟩)]

def halfCrashed : System := withReaper.run staggered 0 startGroup

/-- The first pass has stopped the second member, and its child has exited. -/
def halfStopped : System := halfCrashed.run staggered 0 (List.replicate 1 .pass)

/-- The next pass brings the second member back. -/
theorem group_respawned_staggered :
    Gains (World.RestartCall ⟨2⟩) halfStopped.world.spawns
      (halfStopped.run staggered 0 (List.replicate 1 .pass)).world.spawns := by
  have hentry : (halfCrashed.world.processes.lookup ⟨2⟩).map (fun p => (p.child, p.pid, p.config)) =
      some (some 1, 3, groupMember) := by decide +kernel
  have hdelay : (halfCrashed.world.processes.lookup ⟨2⟩).map (fun p => (p.stableUptime
      (halfCrashed.world.awake staggered 0).clock).restartState.map (World.restartNanos p.config)) = some (some 0) := by
    decide +kernel
  have hchild : halfStopped.world.children[1]? = some ⟨3, .exited (.code 1) 0⟩ := by decide +kernel
  have hspawns : staggered.Spawns groupMember := by
    have hresolved : (World.resolveExecutable some groupMember).isSome = true := by decide
    exact fun _ => ⟨hresolved, rfl⟩
  have hrun : run? ProcessId.raw staggered 0 startGroup withReaper = some halfCrashed := run?_of_apart (by decide +kernel)
  have hpass : run? ProcessId.raw staggered 0 (List.replicate 1 .pass) halfCrashed = some halfStopped :=
    run?_of_apart (by decide +kernel)
  have hnext : run? ProcessId.raw staggered 0 (List.replicate 1 .pass) halfStopped =
      some (halfStopped.run staggered 0 (List.replicate 1 .pass)) := run?_of_apart (by decide +kernel)
  obtain ⟨p, hp, hfields⟩ := Option.map_eq_some_iff.mp hentry
  simp only [Prod.mk.injEq] at hfields
  obtain ⟨hc, hpid, hconfig⟩ := hfields
  have hhit : halfCrashed.world.CascadeHits staggered 0 ⟨2⟩ p := by
    have hkey := (sound_run staggered 0 (.inr rfl) startGroup).key
    refine (World.cascade_outcome staggered 0 hkey hp).1.mpr ⟨(World.mem_targets_iff staggered 0 hkey hp).mp ?_, ?_⟩
    · decide +kernel
    · omega
  have hearly : ∀ k < 1, (World.passes staggered 0 k halfCrashed.world).NotExited staggered 0 ⟨2⟩ := by
    intro k hk
    obtain rfl : k = 0 := by omega
    unfold World.NotExited
    decide +kernel
  obtain ⟨_, hrespawned⟩ := group_respawned staggered 0 (.inr rfl) hrun hp hc hhit (by decide +kernel) (fun _ => rfl)
    Nat.one_pos hpass hearly
  obtain ⟨e, _, _, _, _, hrespawned⟩ := hrespawned _ hchild rfl
  obtain ⟨rs, hrs, q, _, _, hlater⟩ := hrespawned (by rw [hconfig]; rfl) (by rw [hconfig]; rfl) (hconfig ▸ hspawns)
    (by decide +kernel)
  rw [hp, Option.map_some, hrs, Option.map_some, Option.some.injEq, Option.some.injEq] at hdelay
  rw [hdelay] at hlater
  have hearlier : ∀ k < 0, ((World.passes staggered 0 k halfStopped.world).awake staggered 0).clock <
      (halfStopped.world.awake staggered 0).clock + 0 := fun k hk => absurd hk k.not_lt_zero
  have hgains := (hlater 0 _ hnext (by decide +kernel) hearlier).2 (by decide +kernel)
  rwa [World.passes, Function.iterate_zero, id_eq] at hgains

end System

end ProcessManager
