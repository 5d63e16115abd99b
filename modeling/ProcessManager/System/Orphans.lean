import ProcessManager.System.Alive
import ProcessManager.System.Shifts
import ProcessManager.System.Untouched

/-! Children that a pass loses. Phase 2 removes entries whose exit was collected, Phase 3
waits for a child before it drops the handle, and Phases 4 and 5 only remove processes
between two children. Phase 6 removes `Running` processes, and drops their children with
them. -/

namespace ProcessManager

variable {env : Env} {now : Instant} {pollInterval : ℕ} {w w' w'' : World} {id : ProcessId} {p p' : Process}
  {c : ℕ}

/-- Some entry holds the handle of the child. -/
def Holds (c : ℕ) (w : World) : Prop := ∃ id p, w.processes.lookup id = some p ∧ p.child = some c

/-- Every child that is held before or spawned in between is held afterwards, or its exit was
collected. -/
structure Retains (w w' : World) : Prop where
  ages : Ages Set.univ w.children w'.children
  held : ∀ c, Holds c w → Holds c w' ∨ Gone c w'
  fresh : ∀ c, w.children.length ≤ c → c < w'.children.length → Holds c w' ∨ Gone c w'

namespace Retains

theorem refl (w : World) : Retains w w :=
  ⟨.refl _, fun _ h => .inl h, fun _ h h' => absurd h' (Nat.not_lt.mpr h)⟩

theorem trans (h : Retains w w') (h' : Retains w' w'') : Retains w w'' where
  ages := h.ages.trans h'.ages
  held c hc := by
    rcases h.held c hc with hc | hc
    · exact h'.held c hc
    · exact .inr (hc.ages h'.ages)
  fresh c hc hlt := by
    rcases Nat.lt_or_ge c w'.children.length with hlt' | hge
    · rcases h.fresh c hc hlt' with hc | hc
      · exact h'.held c hc
      · exact .inr (hc.ages h'.ages)
    · exact h'.fresh c hge hlt

/-- Nothing is spawned, and every handle stays where it is unless its child was collected. -/
theorem of_map {S : Set ℕ} (hages : Ages S w.children w'.children)
    (hlength : w'.children.length = w.children.length)
    (hmap : ∀ i q c, w.processes.lookup i = some q → q.child = some c →
      (∃ q', w'.processes.lookup i = some q' ∧ q'.child = some c) ∨ Gone c w') : Retains w w' where
  ages := hages.mono (Set.subset_univ S)
  held c := by
    rintro ⟨i, q, hq, hc⟩
    exact (hmap i q c hq hc).imp_left fun ⟨q', hq', hc'⟩ => ⟨i, q', hq', hc'⟩
  fresh c hc hlt := absurd hlt (Nat.not_lt.mpr (hlength.trans_le hc))

theorem os {S : Set ℕ} {P : KillCall → Prop} (h : OsStep S P w w') : Retains w w' :=
  of_map h.children h.length fun _ q _ hq hc => .inl ⟨q, by rw [h.processes, hq], hc⟩

theorem lock (m : Guards.Mode) (id : ProcessId) (w : World) : Retains w (w.lock m id) :=
  os (.lock _ _ _ : OsStep ∅ (fun _ => True) _ _)

theorem unlock (m : Guards.Mode) (id : ProcessId) (w : World) : Retains w (w.unlock m id) :=
  os (.unlock _ _ _ : OsStep ∅ (fun _ => True) _ _)

theorem touch (m : Guards.Mode) (ids : List ProcessId) (w : World) : Retains w (w.touch m ids) :=
  os (.touch _ _ _ : OsStep ∅ (fun _ => True) _ _)

/-- An entry is written back, with its handle or without the handle of a collected child. -/
theorem put {S : Set ℕ} {P : KillCall → Prop} (h : OsStep S P w w') (hp : w.processes.lookup id = some p)
    (hchild : p'.child = p.child ∨ ∀ c, p.child = some c → Gone c w') : Retains w (w'.put id p') := by
  refine of_map (show Ages S w.children (w'.put id p').children from h.children) h.length
    fun i q c hq hc => ?_
  rw [World.put_processes, h.processes, AssocMap.lookup_replace]
  by_cases hi : i = id
  · subst hi
    obtain rfl : p = q := Option.some.inj (hp.symm.trans hq)
    rcases hchild with hsame | hgone
    · exact .inl ⟨p', by rw [if_pos rfl, hp, Option.map_some], hsame.trans hc⟩
    · exact .inr (hgone c hc)
  · exact .inl ⟨q, by rw [if_neg hi, hq], hc⟩

/-- A child is spawned for an entry that holds none. -/
theorem spawned {site : SpawnSite} {config : ProcessConfig} {deps : List ProcessId}
    (h : Spawned env site id config deps w w') (hp : w.processes.lookup id = some p) (hnone : p.child = none)
    (hchild : p'.child = some w.nextChild) : Retains w (w'.put id p') where
  ages := h.children.mono (Set.subset_univ _)
  held c := by
    rintro ⟨i, q, hq, hc⟩
    have hi : i ≠ id := by
      rintro rfl
      rw [Option.some.inj (hp.symm.trans hq), hc] at hnone
      cases hnone
    exact .inl ⟨i, q, by rw [World.put_processes, h.processes, AssocMap.lookup_replace, if_neg hi, hq], hc⟩
  fresh c hc hlt := by
    have hlt : c < w.children.length + 1 := h.length ▸ hlt
    obtain rfl : c = w.nextChild := by unfold World.nextChild; omega
    refine .inl ⟨id, p', ?_, hchild⟩
    rw [World.put_processes, h.processes, AssocMap.lookup_replace, if_pos rfl, hp, Option.map_some]

/-- Entries are removed whose children were collected. -/
theorem kept {S : Set ℕ} {P : KillCall → Prop} (h : MapStep Kept S P w w')
    (hgone : ∀ i q, w.processes.lookup i = some q → w'.processes.lookup i = none →
      ∀ c, q.child = some c → Gone c w') : Retains w w' := by
  refine of_map h.children h.length fun i q c hq hc => ?_
  cases hq' : w'.processes.lookup i with
  | none => exact .inr (hgone i q hq hq' c hc)
  | some q' =>
    obtain ⟨q₀, hq₀, rfl⟩ := h.processes i q' hq'
    obtain rfl : q = q' := Option.some.inj (hq.symm.trans hq₀)
    exact .inl ⟨q, rfl, hc⟩

theorem ifRunning {f : World → World} (h : w.reaper = .running → Retains w (f w)) :
    Retains w (w.ifRunning f) :=
  World.ifRunning_invariant (I := Retains w) (refl w) h

end Retains

namespace World

/-! ### Phases 1 to 3 -/

theorem retains_phase1Visit (id : ProcessId) (x : Exits × World) :
    Retains x.2 (phase1Visit env now id x).2 := by
  have hlock : OsStep Set.univ (fun _ => False) x.2 (x.2.lock .exclusive id) := .lock _ _ _
  obtain ⟨_, heq⟩ | ⟨p, w', hp, _, ⟨c, status, _, _, rfl, heq⟩ | ⟨hstep, _, heq⟩⟩ :=
    phase1Visit_cases env now id x.1 x.2 <;> rw [heq]
  · exact .os (hlock.trans (.unlock _ _ _))
  · refine (Retains.put (hlock.trans (osStep_tryWait env (Set.mem_univ c) _)) hp (.inl ?_)).trans
      (.unlock _ _ _)
    exact Process.stableUptime_child _ p
  · refine (Retains.put (hlock.trans (hstep.mono (Set.empty_subset _) fun _ h => h)) hp (.inl ?_)).trans
      (.unlock _ _ _)
    split_ifs <;> exact Process.stableUptime_child _ p

theorem retains_cascadeKill (id : ProcessId) (w : World) : Retains w (w.cascadeKill env id) := by
  obtain ⟨_, heq⟩ | ⟨p, hp, _, heq⟩ := cascadeKill_cases env id w <;> rw [heq]
  · exact .os ((OsStep.lock (P := fun _ => True) (S := ∅) _ _ _).trans (.unlock _ _ _))
  · have hkill : OsStep ∅ (fun _ => True) w ((w.lock .exclusive id).kill env .cascade
        { p with cascadeFlag := true, state := .stopping } p.config.killSignal.toSignal) :=
      (OsStep.lock _ _ _).trans (osStep_kill env trivial)
    have hput : Retains w (((w.lock .exclusive id).kill env .cascade
        { p with cascadeFlag := true, state := .stopping } p.config.killSignal.toSignal).put id
          { p with cascadeFlag := true, state := .stopping }) := .put hkill hp (.inl rfl)
    exact hput.trans (.unlock _ _ _)

theorem retains_cascade (pollInterval : ℕ) (w : World) : Retains w (w.cascade env pollInterval) := by
  have hdetect : Retains w (w.detect env pollInterval).2 :=
    Fold.foldl_invariant (I := fun x : Exits × World => Retains w x.2)
      (.os (osStep_awake (S := ∅) (P := fun _ => True) env pollInterval w))
      fun x id _ hx => hx.trans (retains_phase1Visit id x)
  refine Fold.foldl_invariant (I := Retains w) ?_ fun w' id _ hw' => hw'.trans (retains_cascadeKill id w')
  exact Fold.foldl_invariant (I := Retains w) hdetect fun w' _ _ hw' =>
    hw'.trans (.touch _ _ _)

/-- Phase 2 removes entries whose exit Phase 1 collected. -/
theorem retains_phase2 (hkey : ∀ i q, w.processes.lookup i = some q → q.id = i) :
    Retains (w.cascade env pollInterval) (w.passDetect env pollInterval).2.2 := by
  have hstep := mapStep_passDetect (P := fun _ => True) env pollInterval w
  refine .kept hstep fun i q hq hnone c hc => ?_
  have hremoved : i ∈ (w.detect env pollInterval).1.toRemove := by
    by_contra hnot
    have hkept : (w.passDetect env pollInterval).2.2.processes.lookup i =
        (w.cascade env pollInterval).processes.lookup i := lookup_phase2 hnot
    rw [hkept, hq] at hnone
    cases hnone
  obtain ⟨e, he, _⟩ := (mem_toRemove_iff env pollInterval w i).mp hremoved
  obtain ⟨hfound, hid⟩ := List.mem_filter.mp he
  obtain rfl : e.id = i := by simpa using hid
  obtain ⟨q₀, c₀, ch, status, t, hq₀, hc₀, hch, hstatus, _⟩ := collected_detect env pollInterval hkey e hfound
  -- the handle is the one Phase 1 found
  have hsame : q.child = q₀.child := by
    rw [cascade, (killed_phase1b env _ _).lookup e.id, hq₀, Option.map_some] at hq
    rw [← Option.some.inj hq]
    split_ifs <;> rfl
  obtain rfl : c = c₀ := Option.some.inj (hc.symm.trans (hsame.trans hc₀))
  have hgone : Gone c (w.detect env pollInterval).2 := ⟨ch, hch, by simp [OsChild.isReaped, hstatus]⟩
  exact (hgone.ages (keepStep_phase1b _ _).children).ages hstep.children

/-- Phase 3 waits for the child whose handle it drops. -/
theorem retains_scheduleEntry (howned : Owned w) (e : ExitedProcess) :
    Retains w (scheduleEntry env now e w) := by
  have hlock : OsStep Set.univ (fun _ => False) w (w.lock .exclusive e.id) := .lock _ _ _
  cases hconfig : e.restartConfig with
  | none =>
    simp only [scheduleEntry, hconfig]
    exact .refl w
  | some r =>
    cases hp : w.processes.lookup e.id with
    | none =>
      simp only [scheduleEntry, hconfig, lock_processes, hp]
      exact .os (hlock.trans (.unlock _ _ _))
    | some p =>
      have hstep : OsStep Set.univ (fun _ => False) w (p.release env (w.lock .exclusive e.id)) :=
        hlock.trans (Process.osStep_release.mono (Set.subset_univ _) fun _ h => h)
      have hput : ∀ q : Process, Retains w ((p.release env (w.lock .exclusive e.id)).put e.id q) := fun q =>
        .put hstep hp (.inr fun c hc => gone_release (w := w.lock .exclusive e.id) hc (howned.child_lt hp hc))
      simp only [scheduleEntry, hconfig, lock_processes, hp]
      split
      · exact (hput _).trans (.unlock _ _ _)
      · split
        · exact (hput _).trans (.unlock _ _ _)
        · exact { hput _ with }

/-- No child of the world before is lost, and the children that are held have one holder. -/
structure OwnedRetains (w w' : World) : Prop where
  owned : Owned w'
  retains : Retains w w'

theorem OwnedRetains.schedule (h : OwnedRetains w w') (e : ExitedProcess) :
    OwnedRetains w (w'.ifRunning (scheduleEntry env now e)) :=
  ifRunning_invariant h fun _ => ⟨owned_scheduleEntry h.owned, h.retains.trans (retains_scheduleEntry h.owned e)⟩

theorem retains_afterPhase3 (hkey : ∀ i q, w.processes.lookup i = some q → q.id = i) (howned : Owned w) :
    Retains w (w.afterPhase3 env pollInterval) := by
  have hphase2 : Owned (w.passDetect env pollInterval).2.2 := owned_passDetect hkey howned
  refine ((retains_cascade pollInterval w).trans (retains_phase2 hkey)).trans (.ifRunning fun _ => ?_)
  have hinit : OwnedRetains (w.passDetect env pollInterval).2.2 (w.passDetect env pollInterval).2.2 := ⟨hphase2, .refl _⟩
  exact (Fold.foldl_invariant (I := OwnedRetains (w.passDetect env pollInterval).2.2) hinit
    fun w' e _ hw' => hw'.schedule e).retains

/-! ### Phase 4 -/

theorem retains_pollEntry {q : Process} (hq : w.processes.lookup id = some q) : Retains w (w.pollEntry env id q) := by
  have hchild : (q.pollState env w).1.child = q.child := by rw [Process.pollState_fst]
  exact .put (Process.osStep_pollState (P := fun _ => True)) hq (.inl hchild)

theorem retains_allDepsRunning (env : Env) (deps : List ProcessId) (w : World) :
    Retains w (w.allDepsRunning env deps).2 := by
  refine allDepsRunning_invariant (I := Retains w) ?_ ?_ ?_ deps (.refl w)
  · exact fun id w' h => h.trans (.lock _ _ _)
  · exact fun id w' h => h.trans (.unlock _ _ _)
  · exact fun id p w' h hp => h.trans (retains_pollEntry hp)

/-- A failed spawn removes an entry without a child. -/
theorem retains_failSpawn {q : Process} (hp : w.processes.lookup id = some p) (hnone : p.child = none) :
    Retains w (w.failSpawn env id q) := by
  refine .kept (mapStep_failSpawn (P := fun _ => True) id q w) fun i r hr hgone c hc => ?_
  rw [failSpawn_lookup] at hgone
  by_cases hi : i = id
  · subst hi
    rw [Option.some.inj (hp.symm.trans hr), hc] at hnone
    cases hnone
  · rw [if_neg hi, hr] at hgone
    cases hgone

theorem retains_respawn (hp : w.processes.lookup id = some p) (hnone : p.child = none)
    (resolved : List ProcessId) : Retains w (w.respawn env id { p with resolvedDeps := resolved }) := by
  obtain ⟨w', hstep, heq⟩ | ⟨w', now, hspawn, heq⟩ :=
    respawn_cases (P := fun _ => True) env id { p with resolvedDeps := resolved } w <;> rw [heq]
  · have hp' : w'.processes.lookup id = some p := by rw [hstep.processes, hp]
    exact (Retains.os hstep).trans (retains_failSpawn hp' hnone)
  · exact (Retains.spawned hspawn hp hnone rfl).trans (.unlock _ _ _)

theorem retains_restartToWaiting (hp : w.processes.lookup id = some p) (resolved : List ProcessId) :
    Retains w (w.restartToWaiting env id p resolved) := by
  have hput : Retains w ((w.tick env).put id { p with
      state := .waiting
      waitingSince := some (w.tick env).clock
      resolvedDeps := resolved
      cascadeFlag := false }) := .put (osStep_tick (P := fun _ => True) (S := ∅) env w) hp (.inl rfl)
  exact hput.trans (.unlock _ _ _)

theorem retains_performRestart (hidle : Idle w)
    (h : ∀ p, w.processes.lookup id = some p → p.state = .restarting) :
    Retains w (w.performRestart env id) := by
  have hlock : Retains w (w.lock .exclusive id) := .lock _ _ _
  obtain ⟨_, heq⟩ | ⟨p, hp, ⟨_, heq⟩ | ⟨w₁, resolved, rfl, _, hcases⟩⟩ :=
    performRestart_cases env id w
  · rw [heq]
    exact hlock.trans (.unlock _ _ _)
  · rw [heq]
    exact hlock.trans (retains_respawn (w := w.lock .exclusive id) hp (hidle id p hp (.inr (h p hp)))
      p.resolvedDeps)
  · have hnone := hidle id p hp (.inr (h p hp))
    have hvisit : Retains w ((w.lock .exclusive id).touch .shared
        (resolveVisits w.processes p.config.dependsOn)) :=
      hlock.trans (.touch _ _ _)
    have hpolled := hvisit.trans (retains_allDepsRunning env resolved _)
    have hp' := lookup_allDepsRunning env (w := (w.lock .exclusive id).touch .shared
      (resolveVisits w.processes p.config.dependsOn)) hp (h p hp) resolved
    obtain ⟨_, _, heq⟩ | heq | heq := hcases <;> rw [heq]
    · exact hpolled.trans (retains_respawn hp' hnone resolved)
    · exact hpolled.trans (retains_restartToWaiting hp' resolved)
    · exact hvisit.trans (retains_restartToWaiting (w := (w.lock .exclusive id).touch .shared _) hp resolved)

/-- Phase 4 removes processes in `Restarting` only. -/
theorem retains_phase4 (hidle : Idle w) (now : Instant) : Retains w (w.phase4 env now) := by
  refine (phase4_invariant (I := fun w' => Retains w w' ∧ Idle w') ⟨.touch _ _ _, hidle⟩ ?_).1
  rintro id w' hdue ⟨hretains, hidle⟩
  have hmoves : Moves env (fun _ _ _ => True) w' (w'.performRestart env id) := moves_performRestart hdue
  exact ⟨hretains.trans (retains_performRestart hidle hdue), hmoves.invariant (fun _ _ => idle_move) hidle⟩

/-! ### Phase 5 -/

theorem retains_examine (id : ProcessId) (x : Verdicts × World) : Retains x.2 (examine env id x).2 := by
  have hstep := mapStep_examine env (P := fun _ => True) id x.1 x.2
  refine .of_map hstep.children hstep.length fun i q c hq hc => ?_
  obtain heq | ⟨p, hp, _, heq⟩ := (examine_outcome env id x.1 x.2).1 <;> rw [heq]
  · exact .inl ⟨q, hq, hc⟩
  · rw [AssocMap.lookup_replace]
    by_cases hi : i = id
    · subst hi
      obtain rfl : q = p := Option.some.inj (hq.symm.trans hp)
      exact .inl ⟨q.extend (newlyResolved x.2.processes (depsToResolve x.2.processes q)),
        by rw [if_pos rfl, hq, Option.map_some], hc⟩
    · exact .inl ⟨q, by rw [if_neg hi, hq], hc⟩

theorem retains_spawnWaitingProcess (hidle : Idle w)
    (h : ∀ p, w.processes.lookup id = some p → p.state = .waiting) :
    Retains w (w.spawnWaitingProcess env id) := by
  have hlock : Retains w (w.lock .exclusive id) := .lock _ _ _
  obtain ⟨_, heq⟩ | ⟨p, hp, ⟨w', hstep, heq⟩ | ⟨w', now, hspawn, heq⟩⟩ :=
    spawnWaitingProcess_cases (P := fun _ => True) env id w <;> rw [heq]
  · exact hlock.trans (.unlock _ _ _)
  · have hp' : w'.processes.lookup id = some p := by rw [hstep.processes, lock_processes, hp]
    exact (hlock.trans (.os hstep)).trans (retains_failSpawn hp' (hidle id p hp (.inl (h p hp))))
  · exact (hlock.trans (.spawned hspawn hp (hidle id p hp (.inl (h p hp))) rfl)).trans
      (.unlock _ _ _)

theorem retains_failWaiting (hidle : Idle w)
    (h : ∀ p, w.processes.lookup id = some p → p.state = .waiting) : Retains w (w.failWaiting env id) := by
  refine .kept (mapStep_failWaiting (P := fun _ => True) id w) fun i q hq hgone c hc => ?_
  by_cases hi : i = id
  · subst hi
    rw [hidle i q hq (.inl (h q hq))] at hc
    cases hc
  · rw [failWaiting_lookup hi, hq] at hgone
    cases hgone

/-- Phase 5 removes processes in `Waiting` only. -/
theorem retains_phase5 (hidle : Idle w) : Retains w (w.phase5 env) := by
  have hverdicts : Retains w (w.verdicts env).2 ∧ Idle (w.verdicts env).2 := by
    refine Fold.foldl_invariant (I := fun x : Verdicts × World => Retains w x.2 ∧ Idle x.2) ?_ ?_
    · exact ⟨.touch _ _ _, hidle⟩
    · intro x id _ hx
      have hmoves : Moves env (fun _ _ _ => True) x.2 (examine env id x).2 := moves_examine id x.1 x.2
      exact ⟨hx.1.trans (retains_examine id x), hmoves.invariant (fun _ _ => idle_move) hx.2⟩
  refine (phase5_invariant (I := fun w' => Retains w w' ∧ Idle w') hverdicts ?_ ?_).1
  · rintro id w' hwaiting ⟨hretains, hidle⟩
    have hmoves : Moves env (fun _ _ _ => True) w' (w'.spawnWaitingProcess env id) :=
      moves_spawnWaitingProcess hwaiting
    exact ⟨hretains.trans (retains_spawnWaitingProcess hidle hwaiting),
      hmoves.invariant (fun _ _ => idle_move) hidle⟩
  · rintro id w' hwaiting ⟨hretains, hidle⟩
    have hstep : MapStep Kept ∅ (fun _ => True) w' (w'.failWaiting env id) := mapStep_failWaiting id w'
    exact ⟨hretains.trans (retains_failWaiting hidle hwaiting), hidle.kept hstep.processes⟩

/-- The world when Phase 6 gets its turn. -/
def beforePhase6 (env : Env) (pollInterval : ℕ) (w : World) : World :=
  (w.beforePhase5 env pollInterval).ifRunning (phase5 env)

theorem reaperPass_eq (env : Env) (pollInterval : ℕ) (w : World) : w.reaperPass env pollInterval =
    (w.beforePhase6 env pollInterval).ifRunning (phase6 env) := rfl

theorem moves_beforePhase6 {C : Point → World → Process → Prop} (pollInterval : ℕ) (w : World) :
    Moves env C (w.afterPhase3 env pollInterval) (w.beforePhase6 env pollInterval) :=
  ifRunning_invariant (moves_beforePhase5 pollInterval w) fun _ =>
    (moves_beforePhase5 pollInterval w).trans (moves_phase5 _)

/-- Up to Phase 5 a pass loses no child. -/
theorem retains_beforePhase6 (hkey : ∀ i q, w.processes.lookup i = some q → q.id = i) (howned : Owned w)
    (hidle : Idle w) : Retains w (w.beforePhase6 env pollInterval) := by
  have hidle3 : Idle (w.afterPhase3 env pollInterval) := idle_afterPhase3 pollInterval hkey hidle
  have h4 : Retains w (w.beforePhase5 env pollInterval) :=
    (retains_afterPhase3 hkey howned).trans (.ifRunning fun _ => retains_phase4 hidle3 _)
  have hmoves : Moves env (fun _ _ _ => True) (w.afterPhase3 env pollInterval)
      (w.beforePhase5 env pollInterval) := moves_beforePhase5 pollInterval w
  exact h4.trans (.ifRunning fun _ => retains_phase5 (hmoves.invariant (fun _ _ => idle_move) hidle3))

/-! ### Phase 6 -/

/-- A bound id of the process is terminal. -/
def Doomed (id : ProcessId) (w : World) : Prop :=
  (w.processes.lookup id).any (fun p => p.resolvedDeps.any (isTerminalDep w.processes)) = true

instance (id : ProcessId) (w : World) : Decidable (Doomed id w) := inferInstanceAs (Decidable (_ = true))

/-- Some `Running` process has a terminal dependency. -/
def FailsFast (w : World) : Prop := ∃ id ∈ w.runningWithDeps, Doomed id w

instance (w : World) : Decidable w.FailsFast :=
  inferInstanceAs (Decidable (∃ id ∈ w.runningWithDeps, Doomed id w))

theorem doomed_iff : Doomed id w ↔
    ∃ p, w.processes.lookup id = some p ∧ p.resolvedDeps.any (isTerminalDep w.processes) = true :=
  Option.any_eq_true _ _

theorem Doomed.congr (h : w'.processes = w.processes) : Doomed id w' ↔ Doomed id w := by
  unfold Doomed
  rw [h]

theorem osStep_failFast (env : Env) (h : ¬ Doomed id w) : OsStep ∅ (fun _ => False) w (w.failFast env id) := by
  simp only [failFast, lock_processes]
  cases hp : w.processes.lookup id with
  | none => exact (OsStep.lock _ _ _).trans (.unlock _ _ _)
  | some p =>
    simp only
    rw [if_neg fun hany => h (doomed_iff.mpr ⟨p, hp, hany⟩)]
    exact ((OsStep.lock _ _ _).trans (.touch _ _ _)).trans (.unlock _ _ _)

theorem failFast_removes (h : Doomed id w) : (w.failFast env id).processes.lookup id = none := by
  obtain ⟨p, hp, hany⟩ := doomed_iff.mp h
  simp only [failFast, lock_processes, hp, hany, ↓reduceIte]
  simp only [failRunning, sendOrReturn_processes, removeEntry_lookup, ↓reduceIte]

theorem mapStep_failFastAll (env : Env) (ids : List ProcessId) (w : World) : MapStep Kept ∅ (fun _ => True) w
    (ids.foldl (fun w id => w.ifRunning (failFast env id)) w) := by
  have htrans : ∀ w₁ w₂ w₃, MapStep Kept ∅ (fun _ => True) w₁ w₂ → MapStep Kept ∅ (fun _ => True) w₂ w₃ →
      MapStep Kept ∅ (fun _ => True) w₁ w₃ := fun _ _ _ => .trans kept_trans
  refine Fold.foldl_rel (fun w => .of_osStep kept_refl (.refl w)) htrans
    (fun w id => mapStep_ifRunning kept_refl ?_) ids w
  exact (mapStep_failFast id w).mono (fun _ _ _ h => h) subset_rfl fun _ _ => trivial

/-- Phase 6 does nothing unless it finds a doomed process. -/
theorem osStep_failFastAll {ids : List ProcessId} (h : ∀ id ∈ ids, ¬ Doomed id w) :
    OsStep ∅ (fun _ => False) w (ids.foldl (fun w id => w.ifRunning (failFast env id)) w) := by
  refine Fold.foldl_invariant (I := OsStep ∅ (fun _ => False) w) (.refl w) fun w' id hid hw' => ?_
  refine ifRunning_invariant (I := OsStep ∅ (fun _ => False) w) hw' fun _ => hw'.trans (osStep_failFast env ?_)
  rw [Doomed.congr hw'.processes]
  exact h id hid

/-- The first doomed process is removed. -/
theorem failFastAll_removes (env : Env) {ids : List ProcessId} (hr : w.reaper = .running) (h : ∃ id ∈ ids, Doomed id w) :
    ∃ id ∈ ids, Doomed id w ∧
      (ids.foldl (fun w id => w.ifRunning (failFast env id)) w).processes.lookup id = none := by
  induction ids generalizing w with
  | nil =>
    obtain ⟨_, hid, _⟩ := h
    cases hid
  | cons k ids ih =>
    have hrun : w.ifRunning (failFast env k) = w.failFast env k := if_pos hr
    rw [List.foldl_cons, hrun]
    by_cases hk : Doomed k w
    · refine ⟨k, List.mem_cons_self, hk, ?_⟩
      have hlater := mapStep_failFastAll env ids (w.failFast env k)
      refine Option.eq_none_iff_forall_ne_some.mpr fun q hq => ?_
      obtain ⟨_, hq', _⟩ := hlater.processes k q hq
      rw [failFast_removes hk] at hq'
      cases hq'
    · have hstep := osStep_failFast env hk
      obtain ⟨id, hid, hdoomed⟩ := h
      have hid : id ∈ ids := (List.mem_cons.mp hid).resolve_left fun heq => hk (heq ▸ hdoomed)
      obtain ⟨i, hi, hdoomed', hgone⟩ := ih (hstep.reaper.trans hr)
        ⟨id, hid, (Doomed.congr hstep.processes).mpr hdoomed⟩
      exact ⟨i, List.mem_cons_of_mem _ hi, (Doomed.congr hstep.processes).mp hdoomed', hgone⟩

/-- Phase 6 keeps every child exactly when it has nothing to do. -/
theorem retains_phase6_iff (env : Env) (h : w.ActiveHeld) (hr : w.reaper = .running) :
    Retains w (w.phase6 env) ↔ ¬ w.FailsFast := by
  set w₁ := w.touch .shared w.processes.keys with hw₁
  have htouch : OsStep ∅ (fun _ => False) w w₁ := .touch _ _ _
  constructor
  · rintro hretains ⟨k, hk, hdoomed⟩
    obtain ⟨id, hid, _, hgone⟩ := failFastAll_removes env (w := w₁) hr ⟨k, hk, hdoomed⟩
    obtain ⟨p, hp, hrunning⟩ := AssocMap.mem_keysWhere.mp hid
    simp only [Bool.and_eq_true, decide_eq_true_eq] at hrunning
    obtain ⟨c, ch, hc, hch, _, hr⟩ := h.uncollected hr hp (.inr hrunning.1)
    have hstep : MapStep Kept ∅ (fun _ => True) w₁ (w.phase6 env) := mapStep_failFastAll env w.runningWithDeps w₁
    rcases hretains.held c ⟨id, p, hp, hc⟩ with ⟨i, q, hq, hc'⟩ | ⟨ch', hch', hreaped⟩
    · -- no other entry holds the handle
      obtain ⟨q', hq', rfl⟩ := hstep.processes i q hq
      obtain rfl : i = id := h.owned.unique i id q p hq' hp c hc' hc
      rw [phase6, hgone] at hq
      cases hq
    · obtain ⟨ch₁, hch₁, hage⟩ := hstep.children c ch hch
      obtain rfl : ch' = ch₁ := Option.some.inj (Eq.trans (Eq.symm hch') hch₁)
      rcases hage.reaped hreaped with hr' | hr'
      · rw [hr] at hr'
        cases hr'
      · exact hr'
  · intro hnot
    have hquiet : OsStep ∅ (fun _ => False) w₁ (w.phase6 env) := osStep_failFastAll fun id hid hdoomed =>
      hnot ⟨id, hid, hdoomed⟩
    exact .os (htouch.trans hquiet)

/-! ### The pass -/

/-- The children that are held were held before, or are spawned in between. -/
structure HoldsBack (w w' : World) : Prop where
  length : w.children.length ≤ w'.children.length
  holds : ∀ c, Holds c w' → Holds c w ∨ w.children.length ≤ c

theorem HoldsBack.move {C : Point → World → Process → Prop} (h : HoldsBack w w') (hmove : Move env C w' w'') :
    HoldsBack w w'' := by
  obtain ⟨k, hages, hmap⟩ := hands_move hmove
  refine ⟨h.length.trans hages.length_le, ?_⟩
  rintro c ⟨i, q, hq, hc⟩
  obtain ⟨q₀, hq₀, hkeeps⟩ | ⟨_, hnew⟩ := hmap i q hq
  · exact h.holds c ⟨i, q₀, hq₀, (hkeeps.child hc).1⟩
  · exact .inr (h.length.trans_eq (hnew c hc).1.symm)

theorem holdsBack_beforePhase6 (env : Env) (pollInterval : ℕ) (w : World) :
    HoldsBack w (w.beforePhase6 env pollInterval) := by
  have hdetect : KeepStep w (w.detect env pollInterval).2 := keepStep_awakeDetect env pollInterval w
  have hphase3 : KeepStep w (w.afterPhase3 env pollInterval) :=
    keepStep_trans _ _ _ hdetect (keepStep_afterPhase3 env pollInterval w)
  have hmoves : Moves env (fun _ _ _ => True) (w.afterPhase3 env pollInterval)
      (w.beforePhase6 env pollInterval) := moves_beforePhase6 pollInterval w
  refine hmoves.invariant (I := HoldsBack w) (fun _ _ h hmove => h.move hmove) ⟨hphase3.length.ge, ?_⟩
  rintro c ⟨i, q, hq, hc⟩
  obtain ⟨q₀, hq₀, hkeeps⟩ := hphase3.processes i q hq
  exact .inl ⟨i, q₀, hq₀, (hkeeps.child hc).1⟩

theorem activeHeld_beforePhase6 (hkey : ∀ i q, w.processes.lookup i = some q → q.id = i)
    (h : w.ActiveHeld) (hr : w.reaper = .running) : (w.beforePhase6 env pollInterval).ActiveHeld := by
  have h3 : (w.afterPhase3 env pollInterval).ActiveHeld := activeHeld_afterPhase3 hkey h hr
  have hmoves : Moves env (fun _ _ _ => True) (w.afterPhase3 env pollInterval)
      (w.beforePhase6 env pollInterval) := moves_beforePhase6 pollInterval w
  exact hmoves.invariant (fun _ _ => activeHeld_move) h3

/-- A pass loses no child exactly when Phase 6 finds no doomed process. -/
theorem retains_reaperPass_iff (hkey : ∀ i q, w.processes.lookup i = some q → q.id = i)
    (hidle : Idle w) (h : w.ActiveHeld) (hr : w.reaper = .running) :
    Retains w (w.reaperPass env pollInterval) ↔
      ((w.beforePhase6 env pollInterval).reaper = .running →
        ¬ (w.beforePhase6 env pollInterval).FailsFast) := by
  have hbefore : Retains w (w.beforePhase6 env pollInterval) := retains_beforePhase6 hkey h.owned hidle
  have hheld : (w.beforePhase6 env pollInterval).ActiveHeld := activeHeld_beforePhase6 hkey h hr
  rw [reaperPass_eq]
  constructor
  · intro hretains hr'
    rw [ifRunning, if_pos hr'] at hretains
    have hstep : MapStep Kept ∅ (fun _ => True) _ ((w.beforePhase6 env pollInterval).phase6 env) :=
      (MapStep.of_osStep kept_refl (.touch _ _ _)).trans kept_trans (mapStep_failFastAll env _ _)
    refine (retains_phase6_iff env hheld hr').mp ⟨hstep.children.mono (Set.empty_subset _), ?_, ?_⟩
    · intro c hc
      obtain ⟨i, q, hq, hchild⟩ := hc
      rcases (holdsBack_beforePhase6 env pollInterval w).holds c ⟨i, q, hq, hchild⟩ with hc | hge
      · exact hretains.held c hc
      · exact hretains.fresh c hge ((hheld.owned.child_lt hq hchild).trans_eq hstep.length.symm)
    · exact fun c hge hlt => absurd hlt (Nat.not_lt.mpr (hstep.length.trans_le hge))
  · intro hnot
    exact hbefore.trans (.ifRunning fun hr' => (retains_phase6_iff env hheld hr').mpr (hnot hr'))

end World

/-! ### Runs -/

namespace System

/-- A pass loses no child: what it drops was collected. -/
def PassRetains (env : Env) (pollInterval : ℕ) (s : System) (a : Action) : Prop :=
  a = .pass → s.world.reaper = .running → Retains s.world (s.world.reaperPass env pollInterval)

/-- When Phase 6 gets its turn, no `Running` process has a terminal dependency. -/
def NoFailFast (env : Env) (pollInterval : ℕ) (s : System) (a : Action) : Prop :=
  a = .pass → s.world.reaper = .running → (s.world.beforePhase6 env pollInterval).reaper = .running →
    ¬ (s.world.beforePhase6 env pollInterval).FailsFast

instance (s : System) (a : Action) : Decidable (NoFailFast env pollInterval s a) :=
  inferInstanceAs (Decidable (_ → _ → _ → ¬ _))

/-- The passes of a run lose no child exactly when none of them fails a `Running` process. -/
theorem passes_retain_iff (env : Env) (pollInterval : ℕ) {s : System} (hs : s.Initial)
    (actions : List Action) :
    Fold.Meets (PassRetains env pollInterval) (step env pollInterval) actions s ↔
      Fold.Meets (NoFailFast env pollInterval) (step env pollInterval) actions s := by
  refine meets_iff_of_run env pollInterval (fun before a => ?_) actions
  refine forall_congr' fun _ => forall_congr' fun hr => ?_
  have hregular := regular_run env pollInterval hs before
  exact World.retains_reaperPass_iff hregular.sound.key hregular.idle
    (activeHeld_run env pollInterval hs before) hr

/-- A running process and one that depends on it. -/
def startPair (db : ProcessConfig) : List Action :=
  [.start ⟨"db"⟩ db, .pass, .start ⟨"web"⟩ { command := "/bin/web", dependsOn := [.label ⟨"db"⟩] }, .pass]

/-- The dependency crashes before the third pass. -/
def dbCrash : Env := .exitsAt [(10, ⟨0, .code 1, 0⟩)]

theorem passes_retain_iff_restarts :
    Fold.Meets (PassRetains dbCrash 0) (step dbCrash 0)
      (startPair { command := "/bin/db", restartOnExit := true } ++ [.pass]) withReaper :=
  (passes_retain_iff dbCrash 0 (.inr rfl) _).mpr (by decide +kernel)

def runningPair : System := withReaper.run dbCrash 0 (startPair { command := "/bin/db" })

/-- The pass that removes the dependency also removes its dependent, whose child goes on
running without an entry. -/
theorem not_passes_retain :
    (runningPair.step dbCrash 0 .pass).world.processes.keys = [] ∧
      (runningPair.step dbCrash 0 .pass).world.children[1]?.map OsChild.isRunning = some true ∧
        ¬ PassRetains dbCrash 0 runningPair .pass := by
  have hgone : (runningPair.step dbCrash 0 .pass).world.processes.keys = [] := by decide +kernel
  have hrunning : (runningPair.step dbCrash 0 .pass).world.children[1]?.map OsChild.isRunning = some true := by
    decide +kernel
  have hr : runningPair.world.reaper = .running := by decide +kernel
  refine ⟨hgone, hrunning, fun h => ?_⟩
  have hheld : (runningPair.world.processes.lookup ⟨2⟩).map Process.child = some (some 1) := by decide +kernel
  obtain ⟨p, hp, hc⟩ := Option.map_eq_some_iff.mp hheld
  simp only [step, onWorld, World.ifRunning, hr, ↓reduceIte] at hgone hrunning
  rcases (h rfl hr).held 1 ⟨⟨2⟩, p, hp, hc⟩ with ⟨i, q, hq, _⟩ | ⟨ch, hch, hreaped⟩
  · have hmem := AssocMap.mem_of_lookup hq
    rw [hgone] at hmem
    cases hmem
  · rw [hch, Option.map_some, Option.some.injEq] at hrunning
    rw [OsChild.isReaped_of_isRunning hrunning] at hreaped
    cases hreaped

end System

end ProcessManager
