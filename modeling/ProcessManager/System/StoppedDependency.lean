import ProcessManager.System.FailedFinal
import ProcessManager.System.Orphans

/-! What a stopped dependency means for its dependents. Without `cascade_stop`, `stop` leaves
them alone. But the id it removes is never tracked again, and a `Running` process with an
untracked dependency is failed as soon as Phase 6 comes to it. -/

namespace ProcessManager

variable {env : Env} {now : Instant} {pollInterval : ℕ} {w w' : World} {id d : ProcessId} {p p' p'' q : Process}

namespace Process

/-- A call of Phase 6 for `p`. -/
def FailFastCall (p : Process) (k : KillCall) : Prop :=
  k.site = .failFast ∧ k.id = p.id ∧ k.pid = p.pid ∧ k.signal = p.config.killSignal.toSignal

/-- `p'` is `p` with the same child and the same bindings, and was not failed or taken back. -/
structure Endures (p p' : Process) : Prop where
  id : p'.id = p.id
  config : p'.config = p.config
  pid : p'.pid = p.pid
  child : p'.child = p.child
  resolvedDeps : p'.resolvedDeps = p.resolvedDeps
  state : p'.state = p.state ∨ (p'.state ≠ .failed ∧ p'.state ≠ .waiting ∧ p'.state ≠ .restarting)

namespace Endures

theorem trans (h : p.Endures p') (h' : p'.Endures p'') : p.Endures p'' where
  id := h'.id.trans h.id
  config := h'.config.trans h.config
  pid := h'.pid.trans h.pid
  child := h'.child.trans h.child
  resolvedDeps := h'.resolvedDeps.trans h.resolvedDeps
  state := by
    rcases h'.state with hs | hs
    · rw [hs]
      exact h.state
    · exact .inr hs

theorem state_ne {s : ProcessState} (h : p.Endures p') (hs : s = .failed ∨ s = .waiting ∨ s = .restarting)
    (hp : p.state ≠ s) : p'.state ≠ s := by
  rcases h.state with heq | hne
  · rwa [heq]
  · rcases hs with rfl | rfl | rfl
    · exact hne.1
    · exact hne.2.1
    · exact hne.2.2

theorem of_visited (h : p' = p.afterExit now ∨ p' = p.afterPoll now) : p.Endures p' := by
  obtain rfl | rfl := h
  · constructor <;> simp [afterExit]
  · unfold afterPoll
    split_ifs with hstarting
    · constructor <;> simp
    · constructor <;> simp

theorem of_checked (h : p.Checked p') : p.Endures p' := by
  obtain ⟨rfl | ⟨hactive, s, hs, rfl⟩, hfailed⟩ := h
  · exact ⟨rfl, rfl, rfl, rfl, rfl, .inl rfl⟩
  · refine ⟨rfl, rfl, rfl, rfl, rfl, .inr ?_⟩
    rcases hs with rfl | hs
    · simp
    · refine ⟨fun hs' => ?_, ?_, ?_⟩
      · rcases hactive with hactive | hactive <;> rw [hfailed hs'] at hactive <;> cases hactive
      · rintro rfl
        cases hs
      · rintro rfl
        cases hs

end Endures

end Process

namespace World

/-! ### Ids that are gone -/

theorem untracked_of_refines {R : ProcessId → Process → Process → Prop} (h : w.processes.lookup id = none)
    (hmap : AssocMap.Refines R w.processes w'.processes) : w'.processes.lookup id = none := by
  refine Option.eq_none_iff_forall_ne_some.mpr fun q hq => ?_
  obtain ⟨q', hq', _⟩ := hmap id q hq
  rw [h] at hq'
  cases hq'

theorem untracked_put {i : ProcessId} (h : w.processes.lookup id = none) (hmap : w'.processes = w.processes) :
    (w'.put i p).processes.lookup id = none := by
  rw [put_processes, hmap, AssocMap.lookup_replace]
  split_ifs with hi
  · rw [← hi, h, Option.map_none]
  · exact h

theorem untracked_insert {i : ProcessId} (h : w.processes.lookup id = none)
    (hmap : w'.processes = w.processes) (hi : i ≠ id) : (w'.insert env i p).processes.lookup id = none := by
  rw [insert_processes, AssocMap.lookup_reorder, hmap, AssocMap.lookup_insert_eq, if_neg hi.symm, h]

/-- No move brings an id back. -/
theorem untracked_move (h : w.processes.lookup id = none) (hmove : Move env (NotStarted id) w w') :
    w'.processes.lookup id = none := by
  cases hmove with
  | frame hstep => exact untracked_of_refines h hstep.processes
  | count => exact h
  | poll hp => exact untracked_of_refines h (mapStep_pollEntry (P := fun _ => True) hp).processes
  | stop hp _ hstep =>
    rw [hstep.processes]
    exact untracked_of_refines h (MapStep.remove (S := ∅) (P := fun _ => True) _ _).processes
  | batch _ hstep => exact untracked_of_refines h hstep.processes
  | signal _ _ _ hstep => exact hstep.processes ▸ h
  | adjust => exact untracked_put h rfl
  | reset _ _ hstep => exact untracked_put h hstep.processes
  | spawn _ _ hspawn => exact untracked_put h hspawn.processes
  | insert hC hspawn hfresh => exact untracked_insert h hspawn.processes (hfresh.id ▸ hC rfl)
  | insertWaiting hC hfresh => exact untracked_insert h rfl (hfresh.id ▸ hC rfl)
  | toWaiting => exact untracked_put h rfl
  | timeout => exact untracked_put h rfl
  | failFast _ _ _ hstep => exact untracked_of_refines h hstep.processes

theorem untracked_beforePhase6 (h : w.processes.lookup id = none) :
    (w.beforePhase6 env pollInterval).processes.lookup id = none := by
  have hphase3 : KeepStep w (w.afterPhase3 env pollInterval) :=
    keepStep_trans _ _ _ (keepStep_awakeDetect env pollInterval w) (keepStep_afterPhase3 env pollInterval w)
  have hmoves : Moves env (NotStarted id) (w.afterPhase3 env pollInterval)
      (w.beforePhase6 env pollInterval) := moves_beforePhase6 pollInterval w
  exact hmoves.invariant (I := fun w' => w'.processes.lookup id = none) (fun _ _ => untracked_move)
    (untracked_of_refines h hphase3.processes)

/-! ### A pass up to Phase 6 -/

/-- Whose child is alive at the end of the pass was not found to exit. -/
theorem exitsOf_of_alive {c : ℕ} (hkey : ∀ i q, w.processes.lookup i = some q → q.id = i)
    (hp : w.processes.lookup id = some p) (hc : p.child = some c)
    (halive : (w.reaperPass env pollInterval).children[c]?.map OsChild.isRunning = some true) :
    w.exitsOf env pollInterval id = [] := by
  refine List.eq_nil_iff_forall_not_mem.mpr fun e he => ?_
  obtain ⟨hfound, hid⟩ := List.mem_filter.mp he
  obtain rfl : e.id = id := by simpa using hid
  obtain ⟨q, c', ch, status, t, hq, hc', hch, hstatus, _⟩ := collected_detect env pollInterval hkey e hfound
  -- the handle is the one the entry had when the pass began
  obtain ⟨p', hp', hvisited⟩ := (phase1State_detect env pollInterval hkey).visited e.id q hq
  obtain rfl : p = p' := Option.some.inj (hp.symm.trans hp')
  have hchild : q.child = p.child := by
    obtain rfl | rfl | rfl := hvisited
    · rfl
    · exact (Process.Endures.of_visited (.inl rfl)).child
    · exact (Process.Endures.of_visited (.inr rfl)).child
  obtain rfl : c' = c := Option.some.inj (hc'.symm.trans (hchild.trans hc))
  have hgone : Gone c' (w.detect env pollInterval).2 := ⟨ch, hch, by simp [OsChild.isReaped, hstatus]⟩
  have hmoves : Moves env (fun _ _ _ => True) (w.afterPhase3 env pollInterval)
      (w.reaperPass env pollInterval) := moves_afterPhase3 pollInterval w
  obtain ⟨ch', hch', hreaped⟩ : Gone c' (w.reaperPass env pollInterval) := by
    refine hmoves.invariant (I := Gone c') (fun _ _ hw hmove => ?_)
      (hgone.ages (keepStep_afterPhase3 env pollInterval w).children)
    obtain ⟨_, hages, _⟩ := hands_move hmove
    exact hw.ages hages
  rw [hch', Option.map_some, Option.some.injEq] at halive
  rw [OsChild.isReaped_of_isRunning halive] at hreaped
  cases hreaped

/-- A process that keeps its child through the pass is tracked when Phase 6 gets its turn. -/
theorem endures_beforePhase6 {c : ℕ} (hkey : ∀ i q, w.processes.lookup i = some q → q.id = i) (hidle : Idle w)
    (hp : w.processes.lookup id = some p) (hc : p.child = some c)
    (halive : (w.reaperPass env pollInterval).children[c]?.map OsChild.isRunning = some true) :
    ∃ p', (w.beforePhase6 env pollInterval).processes.lookup id = some p' ∧ p.Endures p' := by
  have hstate : ∀ s, s = .waiting ∨ s = .restarting → p.state ≠ s := by
    rintro s hs rfl
    rw [hidle id p hp hs] at hc
    cases hc
  -- Phases 1 to 3
  obtain ⟨p₁, hp₁, hvisited⟩ := visited_of_tracked env pollInterval hp (hstate _ (.inr rfl))
  have h₁ : p.Endures p₁ := .of_visited hvisited
  obtain ⟨p₂, hp₂, h₂⟩ : ∃ p₂, (w.afterPhase3 env pollInterval).processes.lookup id = some p₂ ∧
      p.Endures p₂ := by
    rw [lookup_afterPhase3 (exitsOf_of_alive hkey hp hc halive), cascade, (killed_phase1b env _ _).lookup id,
      hp₁, Option.map_some]
    refine ⟨_, rfl, ?_⟩
    split_ifs
    · exact { h₁ with state := .inr (by simp) }
    · exact h₁
  -- Phase 4 may poll it as a dependency
  obtain ⟨p₃, hp₃, h₃⟩ : ∃ p₃, (w.beforePhase5 env pollInterval).processes.lookup id = some p₃ ∧
      p.Endures p₃ := by
    refine ifRunning_invariant (I := fun w' : World => ∃ p₃, w'.processes.lookup id = some p₃ ∧ p.Endures p₃)
      ⟨p₂, hp₂, h₂⟩ fun _ => ?_
    have hdue : id ∉ (w.afterPhase3 env pollInterval).restartIds (w.passDetect env pollInterval).1 := by
      intro hid
      obtain ⟨q, hq, hdue⟩ := AssocMap.mem_keysWhere.mp hid
      obtain rfl : p₂ = q := Option.some.inj (hp₂.symm.trans hq)
      simp [restartDue, h₂.state_ne (.inr (.inr rfl)) (hstate _ (.inr rfl))] at hdue
    obtain ⟨p₃, hp₃, hchecked⟩ := checked_phase4 env hdue hp₂
    exact ⟨p₃, hp₃, h₂.trans (.of_checked hchecked)⟩
  have hwaiting : id ∉ (w.beforePhase5 env pollInterval).waitingIds := by
    intro hid
    obtain ⟨q, hq, hwaiting⟩ := AssocMap.mem_keysWhere.mp hid
    obtain rfl : p₃ = q := Option.some.inj (hp₃.symm.trans hq)
    exact h₃.state_ne (.inr (.inl rfl)) (hstate _ (.inl rfl)) (by simpa using hwaiting)
  exact ⟨p₃, lookup_ifRunning hp₃ fun _ => (lookup_phase5 hwaiting).trans hp₃, h₃⟩

theorem sound_beforePhase6 (h : Sound w) : Sound (w.beforePhase6 env pollInterval) := by
  have hawake : Sound (w.awake env pollInterval) :=
    h.osStep (osStep_awake (S := ∅) (P := fun _ => True) env pollInterval w)
  have hdetect : Sound (w.passDetect env pollInterval).2.2 :=
    hawake.phase1.phase1b.kept (mapStep_phase2 (P := fun _ => True) _ _)
  have hphase3 : Sound (w.afterPhase3 env pollInterval) := ifRunning_invariant hdetect fun _ => hdetect.phase3
  have hphase4 : Sound (w.beforePhase5 env pollInterval) := ifRunning_invariant hphase3 fun _ => hphase3.phase4
  exact ifRunning_invariant hphase4 fun _ => hphase4.phase5

/-! ### Signals of a pass -/

/-- A cascade of the pass selects the process. -/
def IsTarget (env : Env) (pollInterval : ℕ) (id : ProcessId) (w : World) : Prop :=
  id ∈ (w.detect env pollInterval).2.cascadeTargets (w.detect env pollInterval).1.cascadeOrigins ∧
    (w.processes.lookup id).any (fun p => p.pid ≠ 0) = true

instance (w : World) : Decidable (w.IsTarget env pollInterval id) := inferInstanceAs (Decidable (_ ∧ _))

theorem kills_detect (env : Env) (pollInterval : ℕ) (w : World) :
    (w.detect env pollInterval).2.kills = w.kills := by
  have hawake := (osStep_awake (S := ∅) (P := fun _ => False) env pollInterval w).kills.eq_of_none
  exact (kills_phase1 env _ (w.awake env pollInterval)).eq_of_none.trans hawake

theorem kills_ifRunning {f : World → World} (h : (f w).kills = w.kills) : (w.ifRunning f).kills = w.kills :=
  ifRunning_invariant (I := fun w' => w'.kills = w.kills) rfl fun _ => h

/-- Before Phase 6 only cascades send signals. -/
theorem kills_beforePhase6 (env : Env) (pollInterval : ℕ) (w : World) :
    (w.beforePhase6 env pollInterval).kills = (w.cascade env pollInterval).kills := calc
  (w.beforePhase6 env pollInterval).kills
    = (w.beforePhase5 env pollInterval).kills := kills_ifRunning (kills_phase5 env _)
  _ = (w.afterPhase3 env pollInterval).kills := kills_ifRunning (kills_phase4 env _ _)
  _ = (w.passDetect env pollInterval).2.2.kills := kills_ifRunning (kills_phase3 env _ _ _)
  _ = (w.cascade env pollInterval).kills :=
    (mapStep_passDetect (P := fun _ => False) env pollInterval w).kills.eq_of_none

theorem kills_cascade_iff (env : Env) (pollInterval : ℕ) (hkey : ∀ i q, w.processes.lookup i = some q → q.id = i)
    (hp : w.processes.lookup id = some p) :
    Grows (fun k => k.id ≠ id) w.kills (w.cascade env pollInterval).kills ↔
      ¬ w.IsTarget env pollInterval id := by
  have hphase := phase1State_detect env pollInterval hkey
  have hkey' : ∀ i q, (w.detect env pollInterval).2.processes.lookup i = some q → q.id = i := by
    intro i q hq
    obtain ⟨q', hq', hvisited⟩ := hphase.visited i q hq
    rw [hvisited.id_eq, hkey i q' hq']
  obtain ⟨q, hq, hvisited⟩ := visited_detect env pollInterval hkey hp
  have hkilled : Killed _ _ (w.cascade env pollInterval) :=
    killed_phase1b env (w.detect env pollInterval).1.cascadeOrigins (w.detect env pollInterval).2
  have hpid : (w.processes.lookup id).any (fun p => p.pid ≠ 0) = true ↔ q.pid ≠ 0 := by
    rw [hp, hvisited.pid_eq]
    simp
  rw [IsTarget, hpid, ← kills_detect env pollInterval w]
  constructor
  · rintro hgrows ⟨htarget, hq0⟩
    obtain ⟨k, hcall, hk⟩ := (hkilled.killed id htarget q hq hq0).exists_and hgrows
    exact hk (hcall.2.1.trans (hkey' id q hq))
  · intro hnot
    refine hkilled.kills.mono ?_
    rintro k ⟨i, hi, r, hr, hr0, hcall⟩ hk
    obtain rfl : i = id := by rw [← hkey' i r hr, ← hcall.2.1, hk]
    obtain rfl : q = r := Option.some.inj (hq.symm.trans hr)
    exact hnot ⟨hi, hr0⟩

/-! ### Phase 6 -/

/-- The reaper is still running when Phase 6 comes to the process. -/
def ComesTo (env : Env) (id : ProcessId) (w : World) : Prop :=
  id ∈ w.runningWithDeps ∧
    ((w.runningWithDeps.takeWhile (· ≠ id)).foldl (fun w k => w.ifRunning (failFast env k))
      (w.touch .shared w.processes.keys)).reaper = .running

instance (w : World) : Decidable (ComesTo env id w) := inferInstanceAs (Decidable (_ ∧ _))

theorem failFastAll_of_ended (env : Env) (ids : List ProcessId) (hr : w.reaper ≠ .running) :
    ids.foldl (fun w k => w.ifRunning (failFast env k)) w = w := by
  refine Fold.foldl_invariant (I := fun w' => w' = w) rfl ?_
  rintro w' k - rfl
  exact if_neg hr

theorem ComesTo.reaper (h : ComesTo env id w) : w.reaper = .running := by
  by_contra hr
  have hended := failFastAll_of_ended env (w.runningWithDeps.takeWhile (· ≠ id))
    (w := w.touch .shared w.processes.keys) hr
  exact hr ((congrArg World.reaper hended).symm.trans h.2)

/-- Phase 6 signals the processes it comes to. -/
theorem kills_failFastAll {ids : List ProcessId} (hkey : ∀ i q, w.processes.lookup i = some q → q.id = i)
    (hid : id ∉ ids) : Grows (fun k => k.id ≠ id) w.kills
      (ids.foldl (fun w k => w.ifRunning (failFast env k)) w).kills := by
  have hinit : MapStep Kept ∅ (fun k => k.id ≠ id) w w := .of_osStep kept_refl (.refl w)
  refine (Fold.foldl_invariant (I := MapStep Kept ∅ _ w) hinit fun w' i hi hw' => ?_).kills
  refine ifRunning_invariant (I := MapStep Kept ∅ _ w) hw' fun _ => hw'.trans kept_trans ?_
  refine (mapStep_failFast i w').mono (fun _ _ _ h => h) subset_rfl ?_
  rintro k ⟨p, hp, hkills⟩ hk
  obtain ⟨q, hq, rfl⟩ := hw'.processes i p hp
  refine hid (hk ▸ ?_)
  rw [hkills.id, hkey i p hq]
  exact hi

/-- A doomed process is signalled, if it was ever spawned. -/
theorem failFast_signals (env : Env) (hp : w.processes.lookup id = some p) (hdoomed : Doomed id w)
    (hpid : p.pid ≠ 0) : Gains p.FailFastCall w.kills (w.failFast env id).kills := by
  obtain ⟨p', hp', hany⟩ := doomed_iff.mp hdoomed
  obtain rfl : p = p' := Option.some.inj (hp.symm.trans hp')
  have hsend : ∀ (event : ProcessExitEvent) (w' : World), (w'.sendOrReturn env event).kills = w'.kills :=
    fun event w' => (mapStep_sendOrReturn (P := fun _ => False) event w').kills.eq_of_none
  simp only [failFast, lock_processes, hp, hany, ↓reduceIte, failRunning, hsend, unlock_processes,
    touch_processes, Nat.pos_of_ne_zero hpid, Process.sendSignal, hpid]
  exact .cons _ ⟨rfl, rfl, rfl, rfl⟩

/-- When Phase 6 comes to a process with an untracked dependency, it signals and removes it. -/
theorem phase6_of_comesTo (hp : w.processes.lookup id = some p) (hbound : d ∈ p.resolvedDeps)
    (hd : w.processes.lookup d = none) (hcomes : ComesTo env id w) :
    (w.phase6 env).processes.lookup id = none ∧
      (p.pid ≠ 0 → Gains p.FailFastCall w.kills (w.phase6 env).kills) := by
  obtain ⟨hid, hr⟩ := hcomes
  obtain ⟨hfresh, after, hids⟩ := Fold.exists_takeWhile_ne hid
  set before := w.runningWithDeps.takeWhile (· ≠ id)
  rw [phase6, hids, List.foldl_append, List.foldl_cons]
  set w₁ := before.foldl (fun w k => w.ifRunning (failFast env k)) (w.touch .shared w.processes.keys)
  have hbefore : MapStep Kept ∅ (fun _ => True) (w.touch .shared w.processes.keys) w₁ :=
    mapStep_failFastAll env before _
  have hp₁ : w₁.processes.lookup id = some p := (lookup_failFastAll hfresh _).trans hp
  have hdoomed : Doomed id w₁ := doomed_iff.mpr ⟨p, hp₁, List.any_eq_true.mpr ⟨d, hbound, by
    simp only [isTerminalDep, untracked_of_refines hd hbefore.processes]⟩⟩
  have hafter := mapStep_failFastAll env after (w₁.failFast env id)
  rw [ifRunning, if_pos hr]
  refine ⟨untracked_of_refines (failFast_removes hdoomed) hafter.processes, fun hpid => ?_⟩
  exact .after hbefore.kills ((failFast_signals env hp₁ hdoomed hpid).before hafter.kills)

/-- Otherwise it leaves the process alone. -/
theorem phase6_of_not_comesTo (hkey : ∀ i q, w.processes.lookup i = some q → q.id = i)
    (hnot : ¬ ComesTo env id w) : (w.phase6 env).processes.lookup id = w.processes.lookup id ∧
      Grows (fun k => k.id ≠ id) w.kills (w.phase6 env).kills := by
  by_cases hid : id ∈ w.runningWithDeps
  · obtain ⟨hfresh, after, hids⟩ := Fold.exists_takeWhile_ne hid
    have hr := fun hr => hnot ⟨hid, hr⟩
    set before := w.runningWithDeps.takeWhile (· ≠ id)
    rw [phase6, hids, List.foldl_append, failFastAll_of_ended env _ hr]
    exact ⟨lookup_failFastAll hfresh _, kills_failFastAll (w := w.touch .shared w.processes.keys) hkey hfresh⟩
  · exact ⟨lookup_phase6 hid, kills_failFastAll (w := w.touch .shared w.processes.keys) hkey hid⟩

/-! ### The pass -/

/-- The process is tracked as before, not `Failed`, and was not signalled. -/
structure Spared (id : ProcessId) (p : Process) (w w' : World) : Prop where
  tracked : ∃ p', w'.processes.lookup id = some p' ∧ p.Endures p' ∧ p'.state ≠ .failed
  kills : Grows (fun k => k.id ≠ id) w.kills w'.kills

/-- The process was signalled, if it was ever spawned, and is no longer tracked. -/
structure FailedFast (id : ProcessId) (p : Process) (w w' : World) : Prop where
  untracked : w'.processes.lookup id = none
  signalled : p.pid ≠ 0 → Gains p.FailFastCall w.kills w'.kills

/-- The child of the process stays alive, and its dependencies other than `d` stay `Running`. -/
structure Undisturbed (d : ProcessId) (p : Process) (w w' : World) : Prop where
  child : ∃ c, p.child = some c ∧ w'.children[c]?.map OsChild.isRunning = some true
  before : ∀ i ∈ p.resolvedDeps, i ≠ d → isRunningDep w.processes i = true
  after : ∀ i ∈ p.resolvedDeps, i ≠ d → isRunningDep w'.processes i = true

/-- A pass spares a process unless a cascade selects it or Phase 6 comes to it. -/
structure PassOutcome (env : Env) (pollInterval : ℕ) (id : ProcessId) (p : Process) (w : World) : Prop where
  spared_iff : Spared id p w (w.reaperPass env pollInterval) ↔
    ¬ w.IsTarget env pollInterval id ∧ ¬ ComesTo env id (w.beforePhase6 env pollInterval)
  failed : ComesTo env id (w.beforePhase6 env pollInterval) →
    FailedFast id p w (w.reaperPass env pollInterval)

theorem passOutcome (env : Env) (pollInterval : ℕ) (hw : w.Regular) (hp : w.processes.lookup id = some p)
    (hstate : p.state ≠ .failed) (hbound : d ∈ p.resolvedDeps) (hd : w.processes.lookup d = none)
    (hchild : ∃ c, p.child = some c ∧
      (w.reaperPass env pollInterval).children[c]?.map OsChild.isRunning = some true) :
    w.PassOutcome env pollInterval id p := by
  have hkey := hw.sound.key
  obtain ⟨c, hc, halive⟩ := hchild
  obtain ⟨p', hp', hendures⟩ := endures_beforePhase6 hkey hw.idle hp hc halive
  have hcascade : Grows (fun _ => True) w.kills (w.beforePhase6 env pollInterval).kills := by
    rw [kills_beforePhase6, ← kills_detect env pollInterval w]
    exact (killed_phase1b env _ _).kills.mono fun _ _ => trivial
  have hspared := kills_cascade_iff env pollInterval hkey hp
  rw [← kills_beforePhase6] at hspared
  by_cases hcomes : ComesTo env id (w.beforePhase6 env pollInterval)
  · have hpass : w.reaperPass env pollInterval = (w.beforePhase6 env pollInterval).phase6 env := by
      rw [reaperPass_eq, ifRunning, if_pos hcomes.reaper]
    have hcall : p'.FailFastCall = p.FailFastCall := by
      funext k
      unfold Process.FailFastCall
      rw [hendures.id, hendures.pid, hendures.config]
    obtain ⟨hgone, hsignalled⟩ := phase6_of_comesTo hp' (hendures.resolvedDeps ▸ hbound)
      (untracked_beforePhase6 hd) hcomes
    rw [hcall, hendures.pid, ← hpass] at hsignalled
    rw [← hpass] at hgone
    refine ⟨⟨?_, fun hnot => absurd hcomes hnot.2⟩, fun _ => ⟨hgone, fun hpid => ?_⟩⟩
    · rintro ⟨⟨q, hq, _⟩, _⟩
      rw [hgone] at hq
      cases hq
    · exact .after hcascade (hsignalled hpid)
  · have hphase6 : (w.reaperPass env pollInterval).processes.lookup id = some p' ∧
        Grows (fun k => k.id ≠ id) (w.beforePhase6 env pollInterval).kills
          (w.reaperPass env pollInterval).kills := by
      rw [reaperPass_eq]
      refine ifRunning_invariant (I := fun w' : World => w'.processes.lookup id = some p' ∧
        Grows (fun k => k.id ≠ id) (w.beforePhase6 env pollInterval).kills w'.kills) ⟨hp', .refl _⟩ fun _ => ?_
      obtain ⟨hlookup, hkills⟩ := phase6_of_not_comesTo (sound_beforePhase6 hw.sound).key hcomes
      exact ⟨hlookup.trans hp', hkills⟩
    refine ⟨⟨fun hkept => ⟨hspared.mp ?_, hcomes⟩, fun hnot => ⟨⟨p', hphase6.1, hendures, ?_⟩, ?_⟩⟩,
      fun h => absurd h hcomes⟩
    · exact hkept.kills.restrict hcascade (hphase6.2.mono fun _ _ => trivial)
    · exact hendures.state_ne (.inl rfl) hstate
    · exact (hspared.mpr hnot.1).trans hphase6.2

/-! ### The stop -/

/-- Only with `cascade_stop` does a stop go on to the dependents. -/
theorem stop_of_not_cascadeStop (env : Env) (hq : w.processes.lookup d = some q)
    (hcascade : q.config.cascadeStop = false) : (w.stop env d).2 = (w.stopOne env d).2 := by
  have hends : ¬ (w.stopOne env d).1.cascade = true := by
    intro h
    obtain ⟨_, hflag⟩ := stopOne_of_cascade hq h
    rw [hcascade] at hflag
    cases hflag
  simp only [stop, stopFuel, if_neg hends]

/-- A stop signals the process it stops. -/
theorem kills_stopOne (env : Env) (hkey : ∀ i q, w.processes.lookup i = some q → q.id = i)
    (hq : w.processes.lookup d = some q) :
    Grows (fun k => k.id = d) w.kills (w.stopOne env d).2.kills :=
  (osStep_stopOne hq).kills.mono fun _ hk => hk.1.id.trans (hkey d q hq)

end World

/-! ### Runs -/

namespace System

/-- The id was given out and is not tracked. -/
structure Lost (d : ProcessId) (w : World) : Prop where
  regular : w.Regular
  below : d.raw < w.nextId
  untracked : w.processes.lookup d = none

/-- Ids only grow, and `d` is not tracked. -/
structure Unseen (d : ProcessId) (w w' : World) : Prop where
  nextId : w.nextId ≤ w'.nextId
  untracked : w'.processes.lookup d = none

theorem Unseen.moves {w w₁ w₂ : World} (h : Unseen d w w₁) (hmoves : World.Moves env (World.NotStarted d) w₁ w₂) :
    Unseen d w w₂ :=
  hmoves.invariant (I := Unseen d w) (fun _ _ hw hmove =>
    ⟨hw.nextId.trans (World.nextId_move hmove), World.untracked_move hw.untracked hmove⟩) h

/-- No action brings a lost id back. -/
theorem lost_step {s : System} (h : Lost d s.world) (a : Action) :
    Lost d (s.step env pollInterval a).world := by
  have hregular : (s.step env pollInterval a).world.Regular :=
    ⟨sound_step env pollInterval s a h.regular.sound, idle_step h.regular.sound h.regular.idle a⟩
  have hself : Unseen d s.world s.world := ⟨le_rfl, h.untracked⟩
  have hunseen : Unseen d s.world (s.step env pollInterval a).world := by
    by_cases hpass : a = .pass
    · subst hpass
      refine World.ifRunning_invariant (I := Unseen d s.world) hself fun _ => ?_
      have hphase3 : World.KeepStep s.world (s.world.afterPhase3 env pollInterval) :=
        World.keepStep_trans _ _ _ (World.keepStep_awakeDetect env pollInterval _)
          (World.keepStep_afterPhase3 env pollInterval _)
      have hafter : Unseen d s.world (s.world.afterPhase3 env pollInterval) :=
        ⟨hphase3.nextId.ge, World.untracked_of_refines h.untracked hphase3.processes⟩
      exact hafter.moves (World.moves_afterPhase3 pollInterval s.world)
    · by_cases hrestart : s.Restarts d a
      · rcases hrestart with rfl | ⟨label, rfl, hmember⟩
        · obtain ⟨_, heq⟩ | ⟨p, hp, _⟩ := World.restart_cases env d s.world
          · simp only [step, onWorld, heq]
            exact hself
          · rw [h.untracked] at hp
            cases hp
        · obtain ⟨p, hp, _⟩ := AssocMap.mem_keysWhere.mp hmember
          rw [h.untracked] at hp
          cases hp
      · exact hself.moves (moves_step_notStarted h.regular.sound h.below hrestart hpass)
  exact ⟨hregular, h.below.trans_le hunseen.nextId, hunseen.untracked⟩

/-- A pass has the stated outcome for every process that has lost `d` and is not disturbed
otherwise. -/
def DependentsOutcome (env : Env) (pollInterval : ℕ) (d : ProcessId) (s : System) (a : Action) : Prop :=
  a = .pass → s.world.reaper = .running → ∀ id p, s.world.processes.lookup id = some p → p.state ≠ .failed →
    d ∈ p.resolvedDeps → World.Undisturbed d p s.world (s.world.reaperPass env pollInterval) →
      s.world.PassOutcome env pollInterval id p

/-- Without `cascade_stop` a stop leaves every other process as it is and signals none. In each
later pass, a process that was bound to the stopped one is spared unless a cascade selects it
or Phase 6 comes to it, which fails it. -/
theorem stopped_dependency (env : Env) (pollInterval : ℕ) {s : System} (hs : s.Initial) (before later : List Action)
    {d : ProcessId} {q : Process} (hq : (s.run env pollInterval before).world.processes.lookup d = some q)
    (hcascade : q.config.cascadeStop = false) :
    (∀ id, id ≠ d → (s.run env pollInterval (before ++ [.stop d])).world.processes.lookup id =
        (s.run env pollInterval before).world.processes.lookup id) ∧
      Grows (fun k => k.id = d) (s.run env pollInterval before).world.kills
        (s.run env pollInterval (before ++ [.stop d])).world.kills ∧
      Fold.Meets (DependentsOutcome env pollInterval d) (step env pollInterval) later
        (s.run env pollInterval (before ++ [.stop d])) := by
  have hregular := regular_run env pollInterval hs before
  have hstop : (s.run env pollInterval (before ++ [.stop d])).world =
      ((s.run env pollInterval before).world.stopOne env d).2 := by
    rw [← World.stop_of_not_cascadeStop env hq hcascade, run, List.foldl_append]
    rfl
  refine ⟨fun id hid => ?_, ?_, ?_⟩
  · rw [hstop, World.stopOne_lookup hq, if_neg hid]
  · rw [hstop]
    exact World.kills_stopOne env hregular.sound.key hq
  · have hlost : Lost d (s.run env pollInterval (before ++ [.stop d])).world := by
      refine ⟨regular_run env pollInterval hs _, ?_, ?_⟩
      · have hmap := World.mapStep_stop env d (s.run env pollInterval before).world
        rw [hstop, ← World.stop_of_not_cascadeStop env hq hcascade, hmap.nextId]
        exact hregular.sound.below d q hq
      · rw [hstop, World.stopOne_lookup hq, if_pos rfl]
    refine Fold.meets_of_invariant (c := fun _ _ => True) (I := fun s : System => Lost d s.world)
      (fun s a h _ _ _ id p hp hstate hbound hundisturbed => ?_) (fun s a h _ => lost_step h a) later _ hlost
      (Fold.meets_of_forall (fun _ _ => trivial) _ _)
    exact World.passOutcome env pollInterval h.regular hp hstate hbound h.untracked hundisturbed.child

/-- A running process and one that depends on it, both without configuration of their own. -/
def calmPair : System := withReaper.run .calm 0 (startPair { command := "/bin/db" })

def dbEntry : Process := (calmPair.world.processes.lookup ⟨1⟩).get (by decide +kernel)

theorem stopped_dependency_calm :
    let stopped := withReaper.run .calm 0 (startPair { command := "/bin/db" } ++ [.stop ⟨1⟩])
    (∀ id, id ≠ ⟨1⟩ → stopped.world.processes.lookup id = calmPair.world.processes.lookup id) ∧
      Grows (fun k => k.id = ⟨1⟩) calmPair.world.kills stopped.world.kills ∧
      Fold.Meets (DependentsOutcome .calm 0 ⟨1⟩) (step .calm 0) [.pass, .pass] stopped := by
  have hentry : calmPair.world.processes.lookup ⟨1⟩ = some dbEntry := (Option.some_get _).symm
  exact stopped_dependency .calm 0 (.inr rfl) _ [.pass, .pass] hentry (by decide +kernel)

/-- The dependency is stopped without `cascade_stop`. -/
def stoppedDb : System := calmPair.step .calm 0 (.stop ⟨1⟩)

/-- The stop succeeds and leaves the dependent `Running`. The next pass sends it `SIGTERM` and
removes it, while its child is alive. -/
theorem not_spared_after_stop :
    (calmPair.world.stop .calm ⟨1⟩).1.isOk = true ∧ dbEntry.config.cascadeStop = false ∧
      (stoppedDb.world.processes.lookup ⟨2⟩).map (fun p => (p.state, p.resolvedDeps, p.child)) =
        some (.running, [⟨1⟩], some 1) ∧
      (stoppedDb.step .calm 0 .pass).world.children[1]?.map OsChild.isRunning = some true ∧
      (stoppedDb.step .calm 0 .pass).world.processes.lookup ⟨2⟩ = none ∧
      (stoppedDb.step .calm 0 .pass).world.kills.head?.map (fun k => (k.site, k.id, k.signal)) =
        some (.failFast, ⟨2⟩, .sigterm) := by
  have hgone : ((stoppedDb.step .calm 0 .pass).world.processes.lookup ⟨2⟩).isNone = true := by
    decide +kernel
  exact ⟨by decide +kernel, by decide +kernel, by decide +kernel, by decide +kernel,
    Option.isNone_iff_eq_none.mp hgone, by decide +kernel⟩

end System

end ProcessManager
