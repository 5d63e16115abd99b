import ProcessManager.Reaper.Exits
import ProcessManager.System.Moves

/-! The restart limit. Phase 3 is the only place that raises a counter, once for each exit
that Phase 1 recorded for a restart. Phase 1 looks at the limit when no cascade caused the
exit, so the counter stays within the limit as long as no flagged process has reached it. -/

namespace ProcessManager

namespace Process

variable {p p' : Process} {now : Instant}

/-- The counter has not passed the limit of the backoff policy. -/
def WithinLimit (p : Process) : Prop :=
  ∀ rs b, p.restartState = some rs → getBackoffConfig p.config = some b →
    rs.restartCount.toNat ≤ b.maxRestarts.toNat

/-- The process was restarted as often as its backoff policy allows. -/
def AtLimit (p : Process) : Prop :=
  ∃ rs b, p.restartState = some rs ∧ getBackoffConfig p.config = some b ∧
    rs.restartCount = b.maxRestarts

theorem AtLimit.rateLimited (h : p.AtLimit) : p.rateLimited = true := by
  obtain ⟨rs, b, hrs, hb, hcount⟩ := h
  simp [Process.rateLimited, hrs, hb, RestartState.isRateLimited, hcount]

theorem rateLimited_eq_false_iff : p.rateLimited = false ↔
    ∀ rs b, p.restartState = some rs → getBackoffConfig p.config = some b →
      rs.restartCount.toNat < b.maxRestarts.toNat := by
  unfold rateLimited
  split
  · next rs b hrs hb =>
    simp only [RestartState.isRateLimited, decide_eq_false_iff_not, UInt32.le_iff_toNat_le, not_le,
      hrs, hb, Option.some.injEq]
    exact ⟨by rintro h _ _ rfl rfl; exact h, fun h => h rs b rfl rfl⟩
  · next h =>
    exact ⟨fun _ rs b hrs hb => absurd hb (h rs b hrs), fun _ => rfl⟩

theorem Same.withinLimit (h : p.Same p') (hp : p.WithinLimit) : p'.WithinLimit := by
  intro rs' b hrs' hb
  obtain ⟨rs, hrs, hle⟩ := h.count rs' hrs'
  exact hle.trans (hp rs b hrs (h.config ▸ hb))

theorem Same.rateLimited (h : p.Same p') (hp : p.rateLimited = false) : p'.rateLimited = false := by
  rw [rateLimited_eq_false_iff] at hp ⊢
  intro rs' b hrs' hb
  obtain ⟨rs, hrs, hle⟩ := h.count rs' hrs'
  exact hle.trans_lt (hp rs b hrs (h.config ▸ hb))

theorem Same.of_kept (id : ProcessId) (p p' : Process) (h : Kept id p p') : p.Same p' := by
  rw [show p' = p from h]
  exact .refl p

theorem Same.trans {p'' : Process} (h : p.Same p') (h' : p'.Same p'') : p.Same p'' where
  id := h'.id.trans h.id
  config := h'.config.trans h.config
  tracks := h'.tracks.trans h.tracks
  count rs'' hrs'' := by
    obtain ⟨rs', hrs', hle'⟩ := h'.count rs'' hrs''
    obtain ⟨rs, hrs, hle⟩ := h.count rs' hrs'
    exact ⟨rs, hrs, hle'.trans hle⟩

theorem Fresh.withinLimit {id : ProcessId} (h : p.Fresh id) : p.WithinLimit := by
  intro rs b hrs _
  rw [h.count rs hrs]
  exact Nat.zero_le _

/-- One more restart of a process below its limit. -/
theorem withinLimit_recordRestart {rs rs' : RestartState} (hp : p.rateLimited = false)
    (hrs : p.restartState = some rs) (hconfig : p'.config = p.config)
    (hrs' : p'.restartState = some rs') (hcount : rs'.restartCount = rs.restartCount + 1) :
    p'.WithinLimit := by
  intro rs₁ b hrs₁ hb
  obtain rfl : rs' = rs₁ := Option.some.inj (hrs'.symm.trans hrs₁)
  have hlt := rateLimited_eq_false_iff.mp hp rs b hrs (hconfig ▸ hb)
  have hadd : (rs.restartCount + 1).toNat ≤ rs.restartCount.toNat + 1 :=
    (UInt32.toNat_add rs.restartCount 1).trans_le (Nat.mod_le _ _)
  rw [hcount]
  omega

/-! ### Phase 1 -/

theorem same_stableUptime (now : Instant) (p : Process) : p.Same (p.stableUptime now) where
  id := stableUptime_id now p
  config := stableUptime_config now p
  tracks := by
    unfold stableUptime
    split_ifs
    · split
      · next rs b hrs hb => rw [hrs]; rfl
      · rfl
    · rfl
  count rs' hrs' := by
    unfold stableUptime at hrs'
    split_ifs at hrs'
    · split at hrs'
      · next rs b hrs hb =>
        refine ⟨rs, hrs, ?_⟩
        obtain rfl := Option.some.inj hrs'
        obtain h | h := rs.checkStableUptime_restartCount b now <;> rw [h]
        exact Nat.zero_le _
      · exact ⟨rs', hrs', le_rfl⟩
    · exact ⟨rs', hrs', le_rfl⟩

theorem same_afterExit (now : Instant) (p : Process) : p.Same (p.afterExit now) :=
  (same_stableUptime now p).trans (.of_eq rfl rfl rfl)

theorem Visited.same (h : p.Visited now p') : p.Same p' := by
  obtain rfl | rfl | rfl := h
  · exact .refl p'
  · exact same_afterExit now p
  · refine (same_stableUptime now p).trans ?_
    unfold afterPoll
    split_ifs <;> exact .of_eq rfl rfl rfl

/-- A recorded restart means that the limit was not reached. -/
theorem rateLimited_of_record (status : ExitStatus) (hcascade : p.cascadeFlag = true → p.rateLimited = false)
    (h : (p.record status).restartConfig.isSome = true) : p.rateLimited = false := by
  unfold record at h
  split_ifs at h with hflag
  · exact hcascade hflag
  · simp only [exitRecord, willRestart, exitState] at h
    by_contra hlimited
    cases htriggered : p.restartTriggered status <;> simp_all

end Process

namespace World

variable {env : Env} {C : Point → World → Process → Prop} {w w' : World} {now : Instant}

def WithinLimits (w : World) : Prop :=
  ∀ id p, w.processes.lookup id = some p → p.WithinLimit

/-- The process with this id, if it is tracked, has not passed its limit. -/
def WithinLimitAt (id : ProcessId) (w : World) : Prop := ∀ p, w.processes.lookup id = some p → p.WithinLimit

/-- If a cascade has flagged the process, it has not reached its limit. -/
def CascadeBelowLimit (id : ProcessId) (w : World) : Prop :=
  ∀ p, w.processes.lookup id = some p → p.cascadeFlag = true → p.rateLimited = false

instance (id : ProcessId) (w : World) : Decidable (CascadeBelowLimit id w) :=
  inferInstanceAs (Decidable (∀ p ∈ w.processes.lookup id, _))

/-- No process that a cascade has flagged has reached its limit. -/
def CascadesBelowLimit (w : World) : Prop :=
  ∀ id p, w.processes.lookup id = some p → p.cascadeFlag = true → p.rateLimited = false

instance (w : World) : Decidable w.CascadesBelowLimit :=
  AssocMap.decidableForall (Q := fun _ (p : Process) => p.cascadeFlag = true → p.rateLimited = false)
    w.processes

variable {id k : ProcessId} {p p' : Process}

theorem WithinLimitAt.of_refines (h : w.WithinLimitAt id)
    (hsame : AssocMap.Refines (fun _ p p' => p.Same p') w.processes w'.processes) : w'.WithinLimitAt id := by
  intro p' hp'
  obtain ⟨p, hp, hs⟩ := hsame id p' hp'
  exact hs.withinLimit (h p hp)

theorem WithinLimitAt.put (h : w.WithinLimitAt id) (hp : w.processes.lookup k = some p) (hsame : p.Same p')
    {w₁ : World} (hw₁ : w₁.processes = w.processes) : (w₁.put k p').WithinLimitAt id := by
  intro q hq
  rw [put_processes, AssocMap.lookup_replace, hw₁] at hq
  split_ifs at hq with hid
  · rw [hp, Option.map_some, Option.some.injEq] at hq
    exact hq ▸ hsame.withinLimit (h p (hid ▸ hp))
  · exact h q hq

theorem WithinLimitAt.insert (h : w.WithinLimitAt id) (hp : p.WithinLimit) {w₁ : World}
    (hw₁ : w₁.processes = w.processes) : (w₁.insert env k p).WithinLimitAt id := by
  intro q hq
  rw [insert_processes, AssocMap.lookup_reorder, AssocMap.lookup_insert_eq, hw₁] at hq
  split_ifs at hq
  · exact Option.some.inj hq ▸ hp
  · exact h q hq

/-- No move raises a counter. -/
theorem withinLimitAt_move (h : w.WithinLimitAt id) (hmove : Move env C w w') : w'.WithinLimitAt id := by
  cases hmove with
  | frame hstep => exact h.of_refines (hstep.processes.mono Process.Same.of_kept)
  | count => exact h
  | poll hp =>
    refine h.put hp ?_ (Process.osStep_pollState (P := fun _ => True)).processes
    rw [Process.pollState_fst]
    exact .of_eq rfl rfl rfl
  | stop hp _ hstep =>
    refine h.of_refines ?_
    rw [hstep.processes]
    exact .erase (fun _ p => .refl p) _ _
  | batch _ hstep =>
    refine h.of_refines (hstep.processes.mono ?_)
    rintro _ p p' (⟨_, rfl⟩ | ⟨rfl, _⟩)
    · exact .refl p'
    · exact .of_eq rfl rfl rfl
  | signal _ _ _ hstep => exact h.of_refines (hstep.processes ▸ .refl (fun _ p => .refl p) _)
  | adjust hp hadjust => exact h.put hp hadjust.toSame rfl
  | reset hp _ hstep =>
    refine h.put hp ?_ hstep.processes
    exact .of_map rfl rfl rfl fun _ => Nat.zero_le _
  | spawn hp _ hspawn hrespawned => exact h.put hp hrespawned.toSame hspawn.processes
  | insert _ hspawn hfresh => exact h.insert hfresh.withinLimit hspawn.processes
  | insertWaiting _ hfresh => exact h.insert hfresh.withinLimit rfl
  | toWaiting hp _ hsame => exact h.put hp hsame rfl
  | timeout hp =>
    refine h.put hp ?_ rfl
    exact .of_eq rfl rfl rfl
  | failFast _ _ _ hstep => exact h.of_refines (hstep.processes.mono Process.Same.of_kept)

/-! ### Phases 1 to 3 -/

theorem refines_phase1b (env : Env) (origins : List CascadeOrigin) (w : World) :
    AssocMap.Refines (fun _ p p' => p.Same p') w.processes (w.phase1b env origins).processes := by
  have hrefl : ∀ w : World, AssocMap.Refines (fun _ p p' => p.Same p') w.processes w.processes :=
    fun w => .refl (fun _ p => .refl p) _
  have htouch : (origins.foldl (fun w _ => w.touch .shared w.processes.keys) w).processes =
      w.processes :=
    Fold.foldl_invariant (I := fun w' : World => w'.processes = w.processes) rfl
      fun w' _ _ hw' => hw'
  rw [phase1b, ← htouch]
  refine Fold.foldl_rel (r := fun w w' : World =>
    AssocMap.Refines (fun _ p p' => p.Same p') w.processes w'.processes) hrefl
    (fun _ _ _ => .trans fun _ _ _ _ => .trans) (fun w id => ?_) _ _
  obtain ⟨_, heq⟩ | ⟨p, hp, _, heq⟩ := cascadeKill_cases env id w <;> rw [heq]
  · exact hrefl w
  · exact .replace (fun _ p => .refl p) hp (.of_eq rfl rfl rfl)

/-- A process that is to be scheduled is below its limit. -/
def BelowLimit (e : ExitedProcess) (w : World) : Prop :=
  e.restartConfig.isSome = true → ∀ p, w.processes.lookup e.id = some p → p.rateLimited = false

theorem BelowLimit.of_lookup {e : ExitedProcess} (h : BelowLimit e w)
    (hlookup : w'.processes.lookup e.id = w.processes.lookup e.id) : BelowLimit e w' := by
  unfold BelowLimit
  rwa [hlookup]

theorem belowLimit_passDetect (env : Env) (pollInterval : ℕ)
    (hkey : ∀ i q, w.processes.lookup i = some q → q.id = i) {e : ExitedProcess}
    (he : e ∈ (w.passDetect env pollInterval).2.1.exited) (h : CascadeBelowLimit e.id w) :
    BelowLimit e (w.passDetect env pollInterval).2.2 := by
  intro hrestart p hp
  obtain ⟨q, status, hq, hq', hrecord⟩ := (phase1State_detect env pollInterval hkey).recorded e he
  obtain ⟨q₂, hq₂, rfl⟩ := (mapStep_passDetect (P := fun _ => True) env pollInterval w).processes _ _ hp
  obtain ⟨q₁, hq₁, hsame⟩ := refines_phase1b env _ _ _ _ hq₂
  obtain rfl := Option.some.inj (hq₁.symm.trans hq')
  have hstable : (q.stableUptime (w.awake env pollInterval).clock).rateLimited = false := by
    refine Process.rateLimited_of_record status (fun hflag => ?_) (hrecord.record ▸ hrestart)
    exact (Process.same_stableUptime _ q).rateLimited (h q hq (by simpa using hflag))
  have hexit : (q.stableUptime (w.awake env pollInterval).clock).Same
      (q.afterExit (w.awake env pollInterval).clock) := .of_eq rfl rfl rfl
  exact hsame.rateLimited (hexit.rateLimited hstable)

/-- Scheduling raises the counter by one, panic or not. -/
theorem scheduleState_count {config : ProcessConfig} {rs rs' : RestartState}
    (h : scheduleState env now config rs = some rs') : rs'.restartCount = rs.restartCount + 1 := by
  unfold scheduleState at h
  simp only at h
  split at h
  · split at h
    · split_ifs at h
      cases h
      rfl
    · cases h
  · cases h
    rfl

theorem withinLimitAt_scheduleEntry {e : ExitedProcess} (h : w.WithinLimitAt id) (hbelow : e.id = id → BelowLimit e w) :
    (scheduleEntry env now e w).WithinLimitAt id := by
  by_cases hid : e.id = id
  swap
  · intro p hp
    rw [scheduleEntry_lookup env now (Ne.symm hid)] at hp
    exact h p hp
  subst hid
  obtain ⟨heq, _⟩ | ⟨heq, _⟩ | ⟨config, label, p, w', hrestart, hp, hstep, hcases⟩ :=
    scheduleEntry_cases (P := fun _ => True) env now e w
  · rw [heq]; exact h
  · rw [heq]; exact h
  · have hlimit := hbelow rfl (by simp [hrestart]) p hp
    have hput : ∀ q : Process, q.WithinLimit → (w'.put e.id q).WithinLimitAt e.id := by
      intro q hq r hr
      rw [put_processes, AssocMap.lookup_replace, if_pos rfl] at hr
      obtain ⟨_, _, rfl⟩ := Option.map_eq_some_iff.mp hr
      exact hq
    obtain ⟨hrs, heq⟩ | ⟨rs, rs', hrs, hschedule, heq⟩ | ⟨rs, hrs, _, heq⟩ := hcases <;> rw [heq]
    · exact hput _ fun rs b hrs' => by simp [hrs] at hrs'
    · exact hput _ (Process.withinLimit_recordRestart hlimit hrs rfl rfl (scheduleState_count hschedule))
    · exact hput _ (Process.withinLimit_recordRestart hlimit hrs rfl rfl rfl)

/-- The exits that are still to be scheduled have one id each, and are as `Q` says. -/
def Remaining (Q : ExitedProcess → World → Prop) (rest : List ExitedProcess) (w : World) : Prop :=
  (rest.map ExitedProcess.id).Nodup ∧ ∀ e ∈ rest, Q e w

/-- The schedule of one exit leaves the others as they are. -/
theorem Remaining.step {Q : ExitedProcess → World → Prop} {e : ExitedProcess} {rest : List ExitedProcess}
    (hlookup : ∀ f w w', Q f w → w'.processes.lookup f.id = w.processes.lookup f.id → Q f w')
    (h : Remaining Q (e :: rest) w) : Remaining Q rest (w.ifRunning (scheduleEntry env now e)) := by
  obtain ⟨hfresh, hnodup⟩ := List.nodup_cons.mp h.1
  refine ⟨hnodup, fun f hf => ?_⟩
  have hbefore : Q f w := h.2 f (List.mem_cons_of_mem _ hf)
  have hne : f.id ≠ e.id := fun heq => hfresh (heq ▸ List.mem_map_of_mem hf)
  refine ifRunning_invariant (I := Q f) hbefore fun _ => ?_
  exact hlookup f w _ hbefore (scheduleEntry_lookup env now hne w)

theorem withinLimitAt_phase3 {exited : List ExitedProcess} (h : w.WithinLimitAt id)
    (hbelow : Remaining (fun e w => e.id = id → BelowLimit e w) exited w) : (w.phase3 env now exited).WithinLimitAt id := by
  refine (Fold.foldl_suffix (I := fun rest w' => WithinLimitAt id w' ∧
    Remaining (fun e w => e.id = id → BelowLimit e w) rest w') ?_ _ _ ⟨h, hbelow⟩).1
  rintro e rest w' ⟨hlimit, hrest⟩
  refine ⟨?_, hrest.step fun _ _ _ h hsame hid => (h hid).of_lookup hsame⟩
  exact ifRunning_invariant hlimit fun _ => withinLimitAt_scheduleEntry hlimit (hrest.2 e List.mem_cons_self)

theorem withinLimitAt_afterPhase3 (pollInterval : ℕ)
    (hkey : ∀ i q, w.processes.lookup i = some q → q.id = i) (h : w.WithinLimitAt id)
    (hcascade : CascadeBelowLimit id w) : (w.afterPhase3 env pollInterval).WithinLimitAt id := by
  have hphase1 := phase1State_detect env pollInterval hkey
  have h₁ : (w.detect env pollInterval).2.WithinLimitAt id := h.of_refines fun i q' hq' =>
    (hphase1.visited i q' hq').imp fun q hq => ⟨hq.1, hq.2.same⟩
  have h₂ : (w.cascade env pollInterval).WithinLimitAt id := h₁.of_refines (refines_phase1b env _ _)
  have h₃ : (w.passDetect env pollInterval).2.2.WithinLimitAt id := h₂.of_refines
    ((mapStep_passDetect (P := fun _ => True) env pollInterval w).processes.mono Process.Same.of_kept)
  refine ifRunning_invariant h₃ fun _ => withinLimitAt_phase3 h₃ ⟨hphase1.exited_nodup, fun e he hid => ?_⟩
  exact belowLimit_passDetect env pollInterval hkey he (hid ▸ hcascade)

/-! ### After the limit -/

/-- The moves of a pass. -/
theorem later_move (h : Move env (fun _ _ _ => False) w w') : Later w w' := by
  cases h with
  | frame hstep => exact .of_mapStep hstep
  | count => exact ⟨fun _ h => h, fun h => h, .refl _⟩
  | poll hp => exact .of_mapStep (mapStep_pollEntry (P := fun _ => True) hp)
  | stop _ hC => exact hC.elim
  | batch _ hstep =>
    exact .of_mapStep hstep
  | signal _ _ _ hstep => exact .of_osStep hstep
  | adjust => exact (Later.refl w).of_put _ _
  | reset _ _ hstep => exact (Later.of_osStep hstep).of_put _ _
  | spawn _ _ hspawn => exact (Later.of_spawned hspawn).of_put _ _
  | insert hC => exact hC.elim
  | insertWaiting hC => exact hC.elim
  | toWaiting => exact (Later.refl w).of_put _ _
  | timeout => exact (Later.refl w).of_put _ _
  | failFast _ _ _ hstep => exact .of_mapStep hstep

theorem later_phase3 (exited : List ExitedProcess) (w : World) : Later w (w.phase3 env now exited) := by
  refine Fold.foldl_rel Later.refl (fun _ _ _ => .trans) (fun w e => ?_) exited w
  refine ifRunning_invariant (.refl w) fun _ => ?_
  obtain ⟨heq, _⟩ | ⟨heq, _⟩ | ⟨config, label, p, w', _, hp, hstep, hcases⟩ :=
    scheduleEntry_cases (P := fun _ => True) env now e w
  · rw [heq]; exact .refl w
  · rw [heq]; exact ⟨fun _ h => h, fun h => h, .refl _⟩
  · have hput : ∀ q, Later w (w'.put e.id q) :=
      (Later.of_osStep ((OsStep.lock .exclusive e.id w).trans hstep)).of_put e.id
    obtain ⟨_, heq⟩ | ⟨rs, rs', _, _, heq⟩ | ⟨rs, _, _, heq⟩ := hcases <;> rw [heq] <;>
      exact { hput _ with }

theorem later_passDetect (pollInterval : ℕ) (w : World) :
    Later (w.passDetect env pollInterval).2.2 (w.reaperPass env pollInterval) := by
  have h3 : Later (w.passDetect env pollInterval).2.2 (w.afterPhase3 env pollInterval) :=
    ifRunning_invariant (.refl _) fun _ => later_phase3 _ _
  exact h3.trans ((moves_afterPhase3 pollInterval w).invariant (I := Later _)
    (fun _ _ h hmove => h.trans (later_move hmove)) (.refl _))

/-- The exit of an unflagged process that was restarted as often as its policy allows, and
whose trigger applies, is reported as `Failed` and ends the process. -/
def FailsAtLimit (env : Env) (pollInterval : ℕ) (w : World) : Prop :=
  ∀ id p, w.processes.lookup id = some p → p.cascadeFlag = false →
    (p.stableUptime (w.passDetect env pollInterval).1).AtLimit →
    ∀ e ∈ (w.passDetect env pollInterval).2.1.exited, e.id = id →
    ∀ status, e.exitStatus = some status → p.restartTriggered status = true →
      e.state = .failed ∧ (w.reaperPass env pollInterval).processes.lookup id = none ∧
        ((w.reaperPass env pollInterval).receiverAlive = true →
          e.event ∈ (w.reaperPass env pollInterval).events)

/-- A pass records the exit of every process whose child is not running when it begins. -/
def HandlesExits (env : Env) (pollInterval : ℕ) (w : World) : Prop :=
  (∀ n, env.waitFails n = false) → ∀ id p c ch, w.processes.lookup id = some p →
    p.state ≠ .restarting → p.child = some c → w.children[c]? = some ch → ch.isRunning = false →
      ∃ e ∈ (w.passDetect env pollInterval).2.1.exited, e.id = id

theorem failsAtLimit (env : Env) (pollInterval : ℕ)
    (hkey : ∀ i q, w.processes.lookup i = some q → q.id = i) (hrunning : w.reaper = .running) :
    w.FailsAtLimit env pollInterval := by
  intro id p hp hflag hlimit e he hid status hstatus htriggered
  rw [passDetect_eq] at hlimit he
  obtain ⟨q, status', hq, _, hrecord⟩ := (phase1State_detect env pollInterval hkey).recorded e he
  obtain rfl : p = q := Option.some.inj (hp.symm.trans (hid ▸ hq))
  set p' := p.stableUptime (w.awake env pollInterval).clock with hp'
  have hflag' : p'.cascadeFlag = false := by rw [hp', Process.stableUptime_cascadeFlag, hflag]
  have hexit : e = p'.exitRecord status' := by
    rw [hrecord.record, Process.record, hflag']
    rfl
  obtain rfl : status' = status := by simpa [hexit, Process.exitRecord] using hstatus
  have hfailed : p'.exitState status' = .failed := by
    have htriggered' : p'.restartTriggered status' = true := by
      simpa [Process.restartTriggered, hp'] using htriggered
    simp [Process.exitState, htriggered', hlimit.rateLimited]
  have hremove : id ∈ (w.detect env pollInterval).1.toRemove := by
    have hmem := hrecord.consequences.toRemove (Exits.mem_toRemove_add .empty hflag' hfailed)
    rwa [Process.stableUptime_id, hkey id p hp] at hmem
  have hlater : Later ((w.cascade env pollInterval).phase2 env (w.detect env pollInterval).1)
      (w.reaperPass env pollInterval) := later_passDetect pollInterval w
  refine ⟨by rw [hexit]; exact hfailed, hlater.untracked id (phase2_lookup hremove), fun halive => ?_⟩
  exact hlater.events.mem_of_mem (phase2_events ((reaper_cascade env pollInterval w).trans hrunning)
    (hlater.receiver halive) e he)

theorem handlesExits (env : Env) (pollInterval : ℕ)
    (hkey : ∀ i q, w.processes.lookup i = some q → q.id = i) : w.HandlesExits env pollInterval := by
  intro hwait id p c ch hp hstate hc hch hexited
  have hstart : OsStep ∅ (fun _ => True) w (w.awake env pollInterval) := osStep_awake env pollInterval w
  obtain ⟨ch', hch', hage⟩ := hstart.children c ch hch
  refine exists_exited _ (hstart.processes ▸ hkey) (hstart.processes ▸ hp) hstate hc hch' ?_ hwait
  by_contra hr
  rw [hage.running (by simpa using hr)] at hexited
  cases hexited

end World

namespace System

/-- No pass begins where a cascade has flagged the process and it has reached its limit. -/
def CascadeBelowLimit (id : ProcessId) (s : System) (a : Action) : Prop :=
  a = .pass → s.world.reaper = .running → World.CascadeBelowLimit id s.world

instance (id : ProcessId) (s : System) (a : Action) : Decidable (CascadeBelowLimit id s a) :=
  inferInstanceAs (Decidable (_ → _ → _))

/-- The reaper never counts past the limit of a process that no cascade restarts at its limit, and an
exit at the limit is the last one. -/
theorem restart_limit (env : Env) (pollInterval : ℕ) {s : System} (hs : s.Initial)
    (actions : List Action) :
    (∀ id, Fold.Meets (CascadeBelowLimit id) (step env pollInterval) actions s →
      (s.run env pollInterval actions).world.WithinLimitAt id) ∧
      ((s.run env pollInterval actions).world.reaper = .running →
        (s.run env pollInterval actions).world.FailsAtLimit env pollInterval) ∧
      (s.run env pollInterval actions).world.HandlesExits env pollInterval := by
  have hkey := (sound_run env pollInterval hs actions).key
  refine ⟨fun id h => ?_, World.failsAtLimit env pollInterval hkey, World.handlesExits env pollInterval hkey⟩
  refine run_invariant (C := fun _ _ _ => True) (D := World.CascadeBelowLimit id) (fun _ _ => trivial)
    ?_ (fun _ _ => World.withinLimitAt_move) ?_ hs actions ?_
  · rintro s (rfl | rfl) <;> intro p hp <;> simp [new, withReaper, World.new, World.withReaper] at hp
  · exact fun w hsound hw hD _ => World.withinLimitAt_afterPhase3 pollInterval hsound.key hw hD
  · exact Fold.meets_mono (fun _ _ => stepMeets_of_pass) actions s h

/-- A restart policy without delays. -/
def noDelay (maxRestarts : UInt32) : RestartPolicy := .backoff
  { initialDelay := ⟨0, by decide⟩
    multiplier := 10
    maxDelay := ⟨0, by decide⟩
    maxRestarts := maxRestarts
    minUptime := ⟨10 * 10 ^ 9, Duration.tenSeconds_lt⟩ }

def web (maxRestarts : UInt32) : ProcessConfig where
  command := "/bin/web"
  restartOnExit := true
  restartPolicy := noDelay maxRestarts

/-- Both children of a process that may be restarted once crash. -/
def twoCrashes : Env := .exitsAt [(2, ⟨0, .code 1, 0⟩), (9, ⟨1, .code 1, 0⟩)]

def crashedOnce : System :=
  withReaper.run twoCrashes 0 [.start ⟨"web"⟩ (web 1), .pass]

theorem restart_limit_twice :
    (crashedOnce.step twoCrashes 0 .pass).world.events.map (·.state) = [.failed, .crashed] ∧
      crashedOnce.world.WithinLimitAt ⟨1⟩ ∧
      (crashedOnce.world.reaper = .running → crashedOnce.world.FailsAtLimit twoCrashes 0) ∧
      crashedOnce.world.HandlesExits twoCrashes 0 := by
  obtain ⟨hlimit, hrest⟩ := restart_limit twoCrashes 0 (.inr rfl) [.start ⟨"web"⟩ (web 1), .pass]
  exact ⟨by decide +kernel, hlimit ⟨1⟩ (by decide +kernel), hrest⟩

/-- A process that must not be restarted, in a group with one whose crash stops it. -/
def cascadedWeb : System :=
  withReaper.run (.exitsAt [(6, ⟨0, .code 1, 0⟩), (14, ⟨1, .signal 15, 0⟩)]) 0
    [.start ⟨"group"⟩
        { command := "/bin/db", restartOnExit := true, supervisorStrategy := .oneForAll },
      .start ⟨"group"⟩ (web 0), .pass, .pass]

def cascadedEntry : Process :=
  (cascadedWeb.world.processes.lookup ⟨2⟩).get (by decide +kernel)

/-- A cascade restarts a process past its limit; and a clean exit after the last restart
of a process that restarts on crashes only is `Stopped`. -/
theorem not_restart_limit :
    ¬ cascadedWeb.world.WithinLimits ∧
      (withReaper.run (.exitsAt [(2, ⟨0, .code 1, 0⟩), (9, ⟨1, .code 0, 0⟩)]) 0
        [.start ⟨"web"⟩ (web 1), .pass, .pass]).world.events.map (·.state) = [.stopped, .crashed] := by
  refine ⟨fun h => ?_, by decide +kernel⟩
  have hentry : cascadedWeb.world.processes.lookup ⟨2⟩ = some cascadedEntry := (Option.some_get _).symm
  have hover : ∃ rs b, cascadedEntry.restartState = some rs ∧
      getBackoffConfig cascadedEntry.config = some b ∧ ¬ rs.restartCount.toNat ≤ b.maxRestarts.toNat :=
    ⟨cascadedEntry.restartState.get (by decide +kernel),
      (getBackoffConfig cascadedEntry.config).get (by decide +kernel),
      (Option.some_get _).symm, (Option.some_get _).symm, by decide +kernel⟩
  obtain ⟨rs, b, hrs, hb, hlt⟩ := hover
  exact hlt (h ⟨2⟩ cascadedEntry hentry rs b hrs hb)

end System

end ProcessManager
