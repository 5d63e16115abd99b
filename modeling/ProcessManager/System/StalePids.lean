import ProcessManager.System.Ownership

/-! Signals and collected children. The stored pid is never cleared, so every path that
signals trusts it. It is the pid of an uncollected child as long as the process is
`Starting`, `Running` or `Stopping` and the reaper has not ended in the middle of a pass;
in the other states the exit may have been collected long ago. -/

namespace ProcessManager

/-- The call targets a child of the manager whose exit was not collected. -/
def KillCall.Targeted (k : KillCall) : Prop :=
  ∃ c ch, k.child = some c ∧ k.children[c]? = some ch ∧ ch.pid = k.pid ∧ ch.isReaped = false

/-- The states of a process that has not been seen to end. -/
def Process.Live (p : Process) : Prop :=
  p.state = .starting ∨ p.state = .running ∨ p.state = .stopping

instance (p : Process) : Decidable p.Live := inferInstanceAs (Decidable (_ ∨ _ ∨ _))

theorem lively_live : Lively Process.Live where
  live _ h := h
  congr p p' hstate _ h := by
    unfold Process.Live at h ⊢
    rwa [hstate] at h
  polled _ h _ := .inl h

namespace World

variable {env : Env} {w w' : World} {id : ProcessId} {p : Process}

instance (w : World) : Decidable w.ReaperEnded := inferInstanceAs (Decidable (_ ∨ _))

/-- The process can be signalled: it is live and the reaper thread has not ended, it has
no pid, or its exit was not collected yet. -/
def PidFresh (w : World) (p : Process) : Prop :=
  (p.Live ∧ ¬ w.ReaperEnded) ∨ p.pid = 0 ∨ p.Uncollected w.children

/-- The condition on what calls find: `stop` does not signal in `Restarting` and `Waiting`. -/
def FreshAt : Point → World → Process → Prop
  | .stop, w, p => p.state = .restarting ∨ p.state = .waiting ∨ w.PidFresh p
  | .batch, w, p => w.PidFresh p
  | .signal, w, p => w.PidFresh p
  | _, _, _ => True

/-- No process is selected for a cascade in the pass that finds its own exit. -/
def CascadesFresh (env : Env) (pollInterval : ℕ) (w : World) : Prop :=
  ∀ id ∈ (w.detect env pollInterval).2.cascadeTargets (w.detect env pollInterval).1.cascadeOrigins,
    id ∉ (w.detect env pollInterval).1.exited.map ExitedProcess.id

/-- The invariant: owned handles, live processes with uncollected children unless the
reaper ended in between, and calls that reached such children. -/
structure PidsFresh (w : World) : Prop where
  owned : Owned w
  live : ¬ w.ReaperEnded → Guarded Process.Live w
  kills : ∀ k ∈ w.kills, k.pid ≠ 0 → k.Targeted

theorem targeted_of_killsFrom {k : KillCall} (hk : KillsFrom p w k) (hp : p.Uncollected w.children) :
    k.Targeted := by
  obtain ⟨c, ch, hc, hch, hpid, hr⟩ := hp.ages hk.children (Set.disjoint_empty _)
  exact ⟨c, ch, hk.child.trans hc, hch, hpid.trans hk.pid.symm, hr⟩

/-- A call for a process that can be signalled. -/
theorem PidsFresh.targeted {k : KillCall} (h : w.PidsFresh) (hp : w.processes.lookup id = some p)
    (hfresh : w.PidFresh p) (hk : KillsFrom p w k) : k.Targeted := by
  rcases hfresh with ⟨hlive, hended⟩ | hpid | hcollected
  · exact targeted_of_killsFrom hk ((h.live hended id p hp hlive).resolve_left List.not_mem_nil)
  · exact absurd hpid hk.pid_ne
  · exact targeted_of_killsFrom hk hcollected

/-- The calls of one move reach uncollected children. -/
theorem kills_move (h : w.PidsFresh) (hmove : Move env FreshAt w w') :
    Grows (fun k => k.pid ≠ 0 → k.Targeted) w.kills w'.kills := by
  cases hmove with
  | frame hstep => exact hstep.kills.mono fun _ hk => hk.elim
  | poll => exact (Process.osStep_pollState (P := fun k => k.pid ≠ 0 → k.Targeted)).kills
  | stop hp hC hstep =>
    refine hstep.kills.mono fun k ⟨hk, hrestarting, hwaiting⟩ _ => h.targeted hp ?_ { hk with }
    exact (hC.resolve_left hrestarting).resolve_left hwaiting
  | batch hC hstep =>
    refine hstep.kills.mono ?_
    rintro k ⟨i, hi, q, hq, hk⟩ _
    exact h.targeted hq (hC i hi q hq) hk
  | signal hp _ hC hstep => exact hstep.kills.mono fun k hk hpid => h.targeted hp hC (hk hpid)
  | reset _ _ hstep => exact hstep.kills.mono fun _ hk => hk.elim
  | spawn _ _ hspawn => exact .of_eq hspawn.kills
  | insert _ hspawn => exact .of_eq hspawn.kills
  | failFast hp hstate hr hstep =>
    refine hstep.kills.mono fun k hk _ => h.targeted hp (.inl ⟨.inr (.inl hstate), ?_⟩) hk
    rintro (hr' | hr') <;> rw [hr] at hr' <;> cases hr'
  | count | adjust | insertWaiting | toWaiting | timeout => exact .refl _

theorem pidsFresh_move (h : w.PidsFresh) (hmove : Move env FreshAt w w') : w'.PidsFresh where
  owned := owned_move h.owned hmove
  live hended := by
    exact guarded_move lively_live h.owned (h.live fun hw => hended (hw.step (reaper_move hmove))) hmove
  kills := (kills_move h hmove).forall_mem h.kills

/-! ### Phases 1 to 3 -/

/-- A cascade target is `Running` or `Starting`. -/
theorem live_of_mem_cascadeTargets {origins : List CascadeOrigin}
    (h : id ∈ w.cascadeTargets origins) (hp : w.processes.lookup id = some p) : p.Live := by
  obtain ⟨o, _, hid⟩ := List.mem_flatMap.mp h
  obtain ⟨q, hq, hselects⟩ := AssocMap.mem_keysWhere.mp hid
  obtain rfl : p = q := Option.some.inj (hp.symm.trans hq)
  simp only [cascadeSelects, Bool.and_eq_true, Bool.or_eq_true, decide_eq_true_eq] at hselects
  rcases hselects.1.2 with hs | hs
  · exact .inr (.inl hs)
  · exact .inl hs

/-- What holds from Phase 1b on: the exits found by Phase 1 are the only exceptions. -/
structure FreshBut (ids : List ProcessId) (w : World) : Prop where
  owned : Owned w
  live : GuardedBut ids Process.Live w
  kills : ∀ k ∈ w.kills, k.pid ≠ 0 → k.Targeted

theorem freshBut_cascadeKill {ids : List ProcessId} (h : w.FreshBut ids) (hid : id ∉ ids)
    (hlive : ∀ p, w.processes.lookup id = some p → p.Live) : (w.cascadeKill env id).FreshBut ids where
  owned := owned_cascadeKill h.owned
  live := guardedBut_cascadeKill h.live h.owned fun p hp _ => h.live id p hp (hlive p hp)
  kills := by
    obtain ⟨_, heq⟩ | ⟨p, hp, hpid, heq⟩ := cascadeKill_cases env id w <;> rw [heq]
    · exact h.kills
    · have hkill := h.live id p hp (hlive p hp)
      refine (Grows.cons w.kills ?_ : Grows (fun k => k.pid ≠ 0 → k.Targeted) _ _).forall_mem h.kills
      exact fun _ => targeted_of_killsFrom ⟨rfl, rfl, hpid, rfl, w.ages_tick env⟩
        (hkill.resolve_left hid)

/-- As `FreshBut`, and the targets of the cascade have been spawned. -/
structure TargetsLive (ids targets : List ProcessId) (w : World) : Prop where
  fresh : w.FreshBut ids
  live : ∀ id ∈ targets, ∀ p, w.processes.lookup id = some p → p.Live

theorem TargetsLive.touch {ids targets : List ProcessId} (h : TargetsLive ids targets w) (visited : List ProcessId) :
    TargetsLive ids targets (w.touch .shared visited) :=
  ⟨⟨{ h.fresh.owned with }, h.fresh.live, h.fresh.kills⟩, h.live⟩

theorem TargetsLive.cascadeKill {ids targets : List ProcessId} (h : TargetsLive ids targets w)
    (hid : id ∈ targets) (hfresh : id ∉ ids) : TargetsLive ids targets (w.cascadeKill env id) := by
  refine ⟨freshBut_cascadeKill h.fresh hfresh (h.live id hid), fun k hk p hp => ?_⟩
  obtain ⟨_, heq⟩ | ⟨q, hq, _, heq⟩ := cascadeKill_cases env id w <;> rw [heq] at hp
  · exact h.live k hk p hp
  · rw [unlock_processes, put_processes, AssocMap.lookup_replace] at hp
    split_ifs at hp with hki
    · obtain ⟨_, _, rfl⟩ := Option.map_eq_some_iff.mp hp
      exact .inr (.inr rfl)
    · exact h.live k hk p hp

theorem freshBut_phase1b {ids : List ProcessId} {origins : List CascadeOrigin} (h : w.FreshBut ids)
    (htargets : ∀ id ∈ w.cascadeTargets origins, id ∉ ids) : (w.phase1b env origins).FreshBut ids := by
  have hinit : TargetsLive ids (w.cascadeTargets origins) w :=
    ⟨h, fun id hid p hp => live_of_mem_cascadeTargets hid hp⟩
  refine (Fold.foldl_invariant (I := TargetsLive ids (w.cascadeTargets origins)) ?_ fun w' id hid hw' =>
    hw'.cascadeKill hid (htargets id hid)).fresh
  exact Fold.foldl_invariant (I := TargetsLive ids _) hinit fun w' _ _ hw' => hw'.touch _

theorem pidsFresh_phase3 {now : Instant} {exited : List ExitedProcess} (hr : w.reaper = .running)
    (h : w.FreshBut (restartsOf exited)) : (w.phase3 env now exited).PidsFresh := by
  have hpresent : (w.phase3 env now exited).reaper ≠ .absent := by
    refine Fold.foldl_invariant (I := fun w' : World => w'.reaper ≠ .absent) (by simp [hr]) fun w' e _ hw' => ?_
    refine ifRunning_invariant (I := fun w' : World => w'.reaper ≠ .absent) hw' fun hr => ?_
    rcases reaper_scheduleEntry env now e w' with h | h <;> simp [h, hr]
  have hkills : ∀ k ∈ (w.phase3 env now exited).kills, k.pid ≠ 0 → k.Targeted :=
    kills_phase3 env now exited w ▸ h.kills
  refine ⟨owned_phase3 h.owned, fun hended => guarded_phase3 lively_live h.owned h.live ?_, hkills⟩
  unfold ReaperEnded at hended
  cases hreaper : (World.phase3 env now exited w).reaper with
  | running => rfl
  | absent => exact absurd hreaper hpresent
  | returned => exact absurd (.inl hreaper) hended
  | panicked => exact absurd (.inr hreaper) hended

theorem freshBut_passDetect (pollInterval : ℕ) (hkey : ∀ i q, w.processes.lookup i = some q → q.id = i)
    (h : w.PidsFresh) (hended : ¬ w.ReaperEnded) (hcascade : w.CascadesFresh env pollInterval) :
    (w.passDetect env pollInterval).2.2.FreshBut
      (restartsOf (w.passDetect env pollInterval).2.1.exited) := by
  have hstart : OsStep ∅ (fun _ => False) w (w.awake env pollInterval) := osStep_awake env pollInterval w
  have hmove : Move env FreshAt w (w.awake env pollInterval) := .frame (.of_osStep kept_refl hstart)
  have hawake : (w.awake env pollInterval).PidsFresh := pidsFresh_move h hmove
  have hlive : Guarded Process.Live (w.awake env pollInterval) :=
    hawake.live fun he => hended (by unfold ReaperEnded at he ⊢; rwa [hstart.reaper] at he)
  have hdetected : Detected Process.Live (w.detect env pollInterval).1 (w.detect env pollInterval).2 :=
    detected_phase1 lively_live _ ⟨hkey, hawake.owned, hlive⟩
  have hphase1 : FreshBut _ (w.detect env pollInterval).2 :=
    ⟨hdetected.owned, hdetected.guarded,
      ((kills_phase1 env _ _).mono fun _ hk => hk.elim).forall_mem hawake.kills⟩
  have hphase1b : FreshBut _ (w.cascade env pollInterval) := freshBut_phase1b hphase1 hcascade
  have hphase2 := mapStep_passDetect (P := fun _ => False) env pollInterval w
  refine ⟨hphase1b.owned.of_refines hphase2.children (hphase2.processes.mono KeepsHandle.of_kept),
    guardedBut_passDetect hkey hphase1b.live,
    (hphase2.kills.mono fun _ hk => hk.elim).forall_mem hphase1b.kills⟩

theorem pidsFresh_afterPhase3 (pollInterval : ℕ)
    (hkey : ∀ i q, w.processes.lookup i = some q → q.id = i) (h : w.PidsFresh)
    (hr : w.reaper = .running) (hcascade : w.CascadesFresh env pollInterval) :
    (w.afterPhase3 env pollInterval).PidsFresh := by
  have hended : ¬ w.ReaperEnded := by simp [ReaperEnded, hr]
  have hdetect := freshBut_passDetect pollInterval hkey h hended hcascade
  have hreaper := (mapStep_passDetect (P := fun _ => True) env pollInterval w).reaper
  rw [reaper_cascade, hr] at hreaper
  unfold afterPhase3 ifRunning
  split_ifs with hrunning
  · exact pidsFresh_phase3 hrunning hdetect
  · exact ⟨hdetect.owned, fun hend => absurd (hreaper.resolve_right hend) hrunning, hdetect.kills⟩

end World

/-! ### Runs -/

namespace System

/-- Every signal of the run finds a process that can be signalled, and no cascade selects
a process whose exit the same pass has found. -/
def SignalsFresh (env : Env) (pollInterval : ℕ) : System → Action → Prop :=
  StepMeets env World.FreshAt (World.CascadesFresh env pollInterval)

/-- No signal reaches a pid whose child was collected. -/
theorem kills_targeted (env : Env) (pollInterval : ℕ) {s : System} (hs : s.Initial)
    (actions : List Action)
    (h : Fold.Meets (SignalsFresh env pollInterval) (step env pollInterval) actions s) :
    ∀ k ∈ (s.run env pollInterval actions).world.kills, k.pid ≠ 0 → k.Targeted := by
  refine (run_invariant (I := World.PidsFresh) (fun _ _ => trivial) ?_
    (fun _ _ => World.pidsFresh_move) ?_ hs actions h).kills
  · rintro s (rfl | rfl) <;> refine ⟨⟨?_, ?_⟩, ?_, ?_⟩ <;>
      simp [new, withReaper, World.new, World.withReaper, Guarded, GuardedBut]
  · exact fun w hsound hw hD hr => World.pidsFresh_afterPhase3 pollInterval hsound.key hw hr hD

/-- A process with default settings, started, seen to run and signalled. -/
def signalled : List Action := [.start ⟨"web"⟩ { command := "/bin/web" }, .pass, .sendSignal ⟨1⟩ .sigterm]

theorem kills_targeted_signalled :
    (withReaper.run .calm 0 signalled).world.kills.map (·.pid) = [1] ∧
      ∀ k ∈ (withReaper.run .calm 0 signalled).world.kills, k.pid ≠ 0 → k.Targeted := by
  refine ⟨by decide +kernel, kills_targeted .calm 0 (.inr rfl) _ ⟨trivial, fun _ => ?_, ?_, trivial⟩⟩
  · unfold World.CascadesFresh
    decide +kernel
  · intro p hp _
    have hrunning : ((withReaper.run .calm 0 (signalled.take 2)).world.processes.lookup ⟨1⟩).map
        Process.state = some .running := by decide +kernel
    have hstate : p.state = .running := by
      rw [show ((withReaper.run .calm 0 (signalled.take 2)).world.processes.lookup ⟨1⟩) = some p from hp]
        at hrunning
      exact Option.some.inj hrunning
    exact .inl ⟨.inr (.inl hstate), by decide +kernel⟩

/-- A restart policy with a delay of one minute. -/
def oneMinute : RestartPolicy := .backoff
  { initialDelay := ⟨60 * 10 ^ 9, Duration.minute_lt⟩
    multiplier := 10
    maxDelay := ⟨60 * 10 ^ 9, Duration.minute_lt⟩
    maxRestarts := 3
    minUptime := ⟨10 * 10 ^ 9, Duration.tenSeconds_lt⟩ }

/-- A process crashes, and everything is stopped while it waits for its restart. -/
def stoppedInBackoff : System :=
  withReaper.run (.exitsAt [(2, ⟨0, .code 1, 0⟩)]) 0
    [.start ⟨"web"⟩ { command := "/bin/web", restartOnExit := true, restartPolicy := oneMinute },
      .pass, .stopAll]

/-- Its old pid is signalled, although its exit was collected and its handle dropped. -/
theorem not_kills_targeted : ¬ ∀ k ∈ stoppedInBackoff.world.kills, k.pid ≠ 0 → k.Targeted := by
  intro h
  have hstale : ∃ k ∈ stoppedInBackoff.world.kills, k.pid ≠ 0 ∧ k.child = none := by
    have hany : (stoppedInBackoff.world.kills.any fun k => k.pid ≠ 0 && k.child.isNone) = true := by
      decide +kernel
    simpa using hany
  obtain ⟨k, hk, hpid, hchild⟩ := hstale
  obtain ⟨c, _, hc, _⟩ := h k hk hpid
  rw [hchild] at hc
  cases hc

end System

end ProcessManager
