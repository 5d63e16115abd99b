import ProcessManager.Reaper.ExitsFound
import ProcessManager.System.Alive
import ProcessManager.System.RateLimit
import ProcessManager.System.Backoff
import ProcessManager.System.WaitersRun

/-! The fields of an entry fit its state: what has been spawned and not restarted holds its
child, what waits holds none and has the timestamps that the reaper needs. Each move keeps
this, and so do Phases 1 to 3 unless Phase 3 panics: then the child is gone, but not the
state it was stored in. -/

namespace ProcessManager

variable {env : Env} {C : Point → World → Process → Prop} {pollInterval : ℕ} {now : Instant}
  {w w' : World} {id : ProcessId} {p p' : Process}

/-- The states of a process whose last child was not given up. -/
def ProcessState.holdsChild : ProcessState → Bool
  | .starting | .running | .stopping | .stopped | .crashed => true
  | .restarting | .failed | .waiting => false

/-- What an entry says about itself. -/
structure Process.Fits (p : Process) : Prop where
  tracks : p.restartState.isSome = p.config.restartOnExit
  pid : p.child ≠ none → p.pid ≠ 0
  child : p.state.holdsChild = true → p.child ≠ none
  since : p.state = .waiting → p.waitingSince.isSome = true
  restarts : p.state = .restarting → p.config.restartOnExit = true

namespace Process.Fits

/-- Only the state changes, to one in which the child is still held or does not matter. -/
theorem set_state {s : ProcessState} (h : p.Fits) (hchild : s.holdsChild = true → p.child ≠ none)
    (hwaiting : s ≠ .waiting) (hrestarting : s ≠ .restarting) : ({ p with state := s } : Process).Fits where
  tracks := h.tracks
  pid := h.pid
  child := hchild
  since hs := absurd hs hwaiting
  restarts hs := absurd hs hrestarting

theorem fail (h : p.Fits) : ({ p with state := .failed } : Process).Fits :=
  h.set_state nofun nofun nofun

theorem adjust (h : p.Fits) (hadjust : p.Adjusted p') : p'.Fits where
  tracks := by rw [hadjust.tracks, h.tracks, hadjust.config]
  pid := by rw [hadjust.child, hadjust.pid]; exact h.pid
  child := by rw [hadjust.child, hadjust.state]; exact h.child
  since := by rw [hadjust.state, hadjust.waitingSince]; exact h.since
  restarts := by rw [hadjust.state, hadjust.config]; exact h.restarts

/-- An entry without a child. -/
theorem of_childless (htracks : p.restartState.isSome = p.config.restartOnExit) (hchild : p.child = none)
    (hstate : p.state.holdsChild = false) (hsince : p.state = .waiting → p.waitingSince.isSome = true)
    (hrestarts : p.state = .restarting → p.config.restartOnExit = true) : p.Fits where
  tracks := htracks
  pid h := absurd hchild h
  child h := absurd (hstate.symm.trans h) nofun
  since := hsince
  restarts := hrestarts

/-- An entry with a new child. -/
theorem of_spawned (htracks : p.restartState.isSome = p.config.restartOnExit) (hchild : p.child ≠ none)
    (hpid : p.pid ≠ 0) (hstate : p.state = .starting) : p.Fits where
  tracks := htracks
  pid _ := hpid
  child _ := hchild
  since h := absurd (hstate.symm.trans h) nofun
  restarts h := absurd (hstate.symm.trans h) nofun

end Process.Fits

namespace World

/-- All entries fit their state. -/
def AllFit (w : World) : Prop := ∀ id p, w.processes.lookup id = some p → p.Fits

theorem AllFit.of_refines {R : ProcessId → Process → Process → Prop} (h : w.AllFit)
    (hmap : AssocMap.Refines R w.processes w'.processes) (hR : ∀ i q q', R i q q' → q.Fits → q'.Fits) :
    w'.AllFit :=
  hmap.forall_entry hR h

theorem AllFit.kept (h : w.AllFit) (hmap : AssocMap.Refines Kept w.processes w'.processes) : w'.AllFit :=
  h.of_refines hmap fun _ _ _ heq hq => heq ▸ hq

theorem AllFit.of_processes (h : w.AllFit) (hmap : w'.processes = w.processes) : w'.AllFit := by
  unfold AllFit
  rwa [hmap]

theorem AllFit.put (h : w.AllFit) (hmap : w'.processes = w.processes) (hp : p.Fits) :
    (w'.put id p).AllFit :=
  AssocMap.forall_replace (Q := fun _ (p : Process) => p.Fits) (h.of_processes hmap) hp

theorem AllFit.insert (h : w.AllFit) (hmap : w'.processes = w.processes) (hp : p.Fits) :
    (w'.insert env id p).AllFit := by
  intro i q hq
  rw [insert_processes, AssocMap.lookup_reorder] at hq
  exact AssocMap.forall_insert (Q := fun _ (p : Process) => p.Fits) (h.of_processes hmap) hp i q hq

theorem allFit_move (h : w.AllFit) (hmove : Move env C w w') : w'.AllFit := by
  cases hmove with
  | frame hstep => exact h.kept hstep.processes
  | count => exact h.of_processes rfl
  | poll hp =>
    refine h.of_refines (mapStep_pollEntry (P := fun _ => True) hp).processes ?_
    rintro i q q' (rfl | ⟨hstate, s, hs, rfl⟩) hq
    · exact hq
    · have hchild : q.child ≠ none := hq.child (by rcases hstate with hstate | hstate <;> rw [hstate] <;> rfl)
      refine hq.set_state (fun _ => hchild) ?_ ?_ <;> rintro rfl <;>
        rcases hs with hs | hs <;> cases hs
  | stop hp _ hstep =>
    exact h.kept (hstep.processes ▸ (MapStep.remove (S := ∅) (P := fun _ => True) _ _).processes)
  | batch _ hstep =>
    refine h.of_refines hstep.processes ?_
    rintro i q q' (⟨_, rfl⟩ | ⟨rfl, _⟩) hq
    · exact hq
    · exact hq.fail
  | signal _ _ _ hstep => exact h.of_processes hstep.processes
  | adjust hp hadjust => exact h.put rfl ((h _ _ hp).adjust hadjust)
  | reset hp hstate hstep =>
    have hfits := h _ _ hp
    refine h.put hstep.processes (.of_childless ?_ rfl (by rw [hstate]; rfl) ?_ hfits.restarts)
    · rw [Option.isSome_map, hfits.tracks]
    · exact fun hwaiting => absurd (hstate.symm.trans hwaiting) nofun
  | spawn hp _ hspawn hrespawned =>
    refine h.put hspawn.processes (.of_spawned ?_ ?_ ?_ hrespawned.state)
    · rw [hrespawned.tracks, (h _ _ hp).tracks, hrespawned.config]
    · rw [hrespawned.child]; nofun
    · rw [hrespawned.pid]; exact nextPid_ne_zero _
  | insert _ hspawn hfresh hchild hpid hstate =>
    refine h.insert hspawn.processes (.of_spawned hfresh.tracks ?_ ?_ hstate)
    · rw [hchild]; nofun
    · rw [hpid]; exact nextPid_ne_zero _
  | insertWaiting _ hfresh hchild _ hstate hsince =>
    refine h.insert rfl (.of_childless hfresh.tracks hchild (by rw [hstate]; rfl) (fun _ => hsince) ?_)
    exact fun hrestarting => absurd (hstate.symm.trans hrestarting) nofun
  | toWaiting hp hstate hsame hchild hpid hstate' _ hsince =>
    have hfits := h _ _ hp
    refine h.put rfl ⟨?_, ?_, ?_, fun _ => hsince, ?_⟩
    · rw [hsame.tracks, hfits.tracks, hsame.config]
    · rw [hchild, hpid]; exact hfits.pid
    · exact fun hholds => absurd (hstate' ▸ hholds) nofun
    · exact fun hrestarting => absurd (hstate'.symm.trans hrestarting) nofun
  | timeout hp => exact h.put rfl (h _ _ hp).fail
  | failFast _ _ _ hstep => exact h.kept hstep.processes

end World

/-! ### Phases 1 to 3 -/

namespace Process.Fits

theorem stableUptime (h : p.Fits) (now : Instant) : (p.stableUptime now).Fits := by
  have hsame := same_stableUptime now p
  have hsince : (p.stableUptime now).waitingSince = p.waitingSince := by rw [stableUptime_eq]
  constructor
  · rw [hsame.tracks, hsame.config, h.tracks]
  · rw [stableUptime_child, stableUptime_pid]; exact h.pid
  · rw [stableUptime_child, stableUptime_state]; exact h.child
  · rw [hsince, stableUptime_state]; exact h.since
  · rw [hsame.config, stableUptime_state]; exact h.restarts

theorem afterExit (h : p.Fits) (now : Instant) : (p.afterExit now).Fits :=
  { h.stableUptime now with }

theorem visited (h : p.Fits) (hvisited : p.Visited now p') : p'.Fits := by
  obtain rfl | rfl | rfl := hvisited
  · exact h
  · exact h.afterExit now
  · unfold Process.afterPoll
    split_ifs with hstarting
    · refine (h.stableUptime now).set_state (fun _ => ?_) nofun nofun
      rw [stableUptime_child]
      exact h.child (by rw [hstarting]; rfl)
    · exact h.stableUptime now

end Process.Fits

/-- An exit that leads to a restart can be scheduled: its delay is computed and fits. -/
def Reschedules (env : Env) (now : Instant) (p : Process) (status : ExitStatus) : Prop :=
  ((p.stableUptime now).record status).restartConfig.isSome = true →
    ∀ rs ∈ (p.stableUptime now).restartState, (World.scheduleState env now p.config rs).isSome = true

instance (p : Process) (status : ExitStatus) : Decidable (Reschedules env now p status) :=
  inferInstanceAs (Decidable (_ → _))

/-- A recorded restart is one of a process with `restart_on_exit`, with its configuration. -/
theorem Process.restartConfig_record {status : ExitStatus} {config : ProcessConfig} {label : Label}
    (h : (p.record status).restartConfig = some (config, label)) :
    config = p.config ∧ p.config.restartOnExit = true := by
  unfold record cascadeRecord exitRecord at h
  split_ifs at h with _ hconfig hrestart
  · cases h
    exact ⟨rfl, hconfig⟩
  · cases h
    simp only [willRestart, restartTriggered, Bool.and_eq_true] at hrestart
    exact ⟨rfl, hrestart.1.1⟩

namespace World

/-- Every exit that the next pass finds and restarts can be scheduled. -/
def ExitsReschedule (env : Env) (pollInterval : ℕ) (w : World) : Prop :=
  w.ExitsMeet env pollInterval (Reschedules env (w.awake env pollInterval).clock)

instance (w : World) : Decidable (w.ExitsReschedule env pollInterval) :=
  inferInstanceAs (Decidable (w.ExitsMeet env pollInterval (Reschedules env _)))

/-- Phase 3 finds the process of an exit that it has to schedule with `restart_on_exit`. -/
def Wanted (e : ExitedProcess) (w : World) : Prop :=
  ∀ config label p, e.restartConfig = some (config, label) → w.processes.lookup e.id = some p →
    p.config.restartOnExit = true

/-- What Phase 3 has to schedule for the exit has a delay and a time. -/
def DelayFits (env : Env) (now : Instant) (e : ExitedProcess) (w : World) : Prop :=
  ∀ config label p, e.restartConfig = some (config, label) → w.processes.lookup e.id = some p →
    ∀ rs, p.restartState = some rs → (scheduleState env now config rs).isSome = true

/-- What Phase 3 finds of an exit it has to schedule. -/
def Pending (env : Env) (now : Instant) (e : ExitedProcess) (w : World) : Prop :=
  Wanted e w ∧ DelayFits env now e w

theorem Wanted.of_lookup {e : ExitedProcess} (h : Wanted e w)
    (hlookup : w'.processes.lookup e.id = w.processes.lookup e.id) : Wanted e w' := by
  unfold Wanted
  rwa [hlookup]

theorem Pending.of_lookup {e : ExitedProcess} (h : Pending env now e w)
    (hlookup : w'.processes.lookup e.id = w.processes.lookup e.id) : Pending env now e w' := by
  refine ⟨h.1.of_lookup hlookup, ?_⟩
  unfold DelayFits
  rw [hlookup]
  exact h.2

/-- An exit is scheduled with its entry as it should be, or Phase 3 panics. -/
theorem allFit_or_ended_scheduleEntry {e : ExitedProcess} (h : w.AllFit) (hwanted : Wanted e w) :
    (scheduleEntry env now e w).AllFit ∨
      ((scheduleEntry env now e w).ReaperEnded ∧ ¬ DelayFits env now e w) := by
  obtain ⟨heq, _⟩ | ⟨heq, _⟩ | ⟨config, label, p, w₁, hconfig, hp, hstep, hcases⟩ :=
    scheduleEntry_cases (P := fun _ => True) env now e w
  · rw [heq]
    exact .inl h
  · rw [heq]
    exact .inl (h.of_processes rfl)
  · have hrestart := hwanted config label p hconfig hp
    have hfits := h _ _ hp
    obtain ⟨hrs, heq⟩ | ⟨rs, rs', hrs, _, heq⟩ | ⟨rs, hrs, hnone, heq⟩ := hcases
    · rw [heq]
      exact .inl (h.put hstep.processes (.of_childless hfits.tracks rfl rfl nofun fun _ => hrestart))
    · rw [heq]
      exact .inl (h.put hstep.processes (.of_childless hrestart.symm rfl rfl nofun fun _ => hrestart))
    · refine .inr ⟨heq ▸ .inr rfl, fun hschedule => ?_⟩
      have hsome := hschedule config label p hconfig hp rs hrs
      rw [hnone] at hsome
      cases hsome

theorem allFit_scheduleEntry {e : ExitedProcess} (h : w.AllFit) (hpending : Pending env now e w) :
    (scheduleEntry env now e w).AllFit :=
  (allFit_or_ended_scheduleEntry h hpending.1).resolve_right fun hended => hended.2 hpending.2

theorem allFit_phase3 {exited : List ExitedProcess} (h : w.AllFit) (hpending : Remaining (Pending env now) exited w) :
    (w.phase3 env now exited).AllFit := by
  refine (Fold.foldl_suffix (I := fun rest w' => AllFit w' ∧ Remaining (Pending env now) rest w') ?_ _ _ ⟨h, hpending⟩).1
  rintro e rest w' ⟨hfit, hrest⟩
  refine ⟨?_, hrest.step fun _ _ _ h hsame => h.of_lookup hsame⟩
  exact ifRunning_invariant hfit fun _ => allFit_scheduleEntry hfit (hrest.2 e List.mem_cons_self)

/-- The entries fit, or the reaper thread has ended. -/
def FitOrEnded (w : World) : Prop := w.AllFit ∨ w.ReaperEnded

theorem fitOrEnded_phase3 {exited : List ExitedProcess} (h : w.FitOrEnded) (hwanted : Remaining Wanted exited w) :
    (w.phase3 env now exited).FitOrEnded := by
  refine (Fold.foldl_suffix (I := fun rest w' => FitOrEnded w' ∧ Remaining Wanted rest w') ?_ _ _ ⟨h, hwanted⟩).1
  rintro e rest w' ⟨hfit, hrest⟩
  refine ⟨?_, hrest.step fun _ _ _ h hsame => h.of_lookup hsame⟩
  refine ifRunning_invariant hfit fun hr => ?_
  obtain hfit | hended := hfit
  · exact (allFit_or_ended_scheduleEntry hfit (hrest.2 e List.mem_cons_self)).imp_right And.left
  · rcases hended with hended | hended <;> rw [hr] at hended <;> cases hended

theorem fitOrEnded_move (h : w.FitOrEnded) (hmove : Move env C w w') : w'.FitOrEnded :=
  h.imp (fun hfit => allFit_move hfit hmove) fun hended => hended.step (reaper_move hmove)

theorem allFit_cascade (hkey : ∀ i q, w.processes.lookup i = some q → q.id = i) (h : w.AllFit) :
    (w.cascade env pollInterval).AllFit := by
  have hdetect : (w.detect env pollInterval).2.AllFit := by
    intro i q hq
    obtain ⟨p, hp, hvisited⟩ := (phase1State_detect env pollInterval hkey).visited i q hq
    exact (h i p hp).visited hvisited
  intro i q hq
  rw [cascade, (killed_phase1b env _ _).lookup i, Option.map_eq_some_iff] at hq
  obtain ⟨p, hp, rfl⟩ := hq
  split_ifs with htarget
  · -- a target is `Starting` or `Running`, so it holds its child
    obtain ⟨o, _, hid⟩ := List.mem_flatMap.mp htarget.1
    obtain ⟨p', hp', hselected⟩ := AssocMap.mem_keysWhere.mp hid
    obtain rfl : p = p' := Option.some.inj (hp.symm.trans hp')
    have hfits := hdetect i p hp
    simp only [cascadeSelects, Bool.and_eq_true, Bool.or_eq_true, decide_eq_true_eq] at hselected
    have hholds : p.state.holdsChild = true := by
      rcases hselected.1.2 with hs | hs <;> rw [hs] <;> rfl
    have hstopping := hfits.set_state (s := .stopping) (fun _ => hfits.child hholds) (by simp) (by simp)
    exact { hstopping with }
  · exact hdetect i p hp

/-- The entry of a recorded exit is the one Phase 1 has left, perhaps killed by a cascade. -/
theorem recorded_passDetect (hkey : ∀ i q, w.processes.lookup i = some q → q.id = i) {e : ExitedProcess}
    (he : e ∈ (w.detect env pollInterval).1.exited)
    (hp : (w.passDetect env pollInterval).2.2.processes.lookup e.id = some p) :
    ∃ q status, w.processes.lookup e.id = some q ∧
      e = (q.stableUptime (w.awake env pollInterval).clock).record status ∧ p.config = q.config ∧
      p.restartState = (q.stableUptime (w.awake env pollInterval).clock).restartState := by
  obtain ⟨q, status, hq, hafter, hrecord⟩ := (phase1State_detect env pollInterval hkey).recorded e he
  obtain ⟨p₂, hp₂, rfl⟩ := (mapStep_passDetect (P := fun _ => True) env pollInterval w).processes _ _ hp
  rw [cascade, (killed_phase1b env _ _).lookup e.id, hafter, Option.map_some] at hp₂
  refine ⟨q, status, hq, hrecord.record, ?_⟩
  rw [← Option.some.inj hp₂]
  split_ifs <;> exact ⟨Process.stableUptime_config _ q, rfl⟩

theorem wanted_passDetect (hkey : ∀ i q, w.processes.lookup i = some q → q.id = i) {e : ExitedProcess}
    (he : e ∈ (w.detect env pollInterval).1.exited) : Wanted e (w.passDetect env pollInterval).2.2 := by
  intro config label p hconfig hp
  obtain ⟨q, status, _, hrecord, hsame, _⟩ := recorded_passDetect hkey he hp
  rw [hrecord] at hconfig
  have hrestart := (Process.restartConfig_record hconfig).2
  rwa [hsame, ← Process.stableUptime_config (w.awake env pollInterval).clock q]

theorem delayFits_passDetect (hkey : ∀ i q, w.processes.lookup i = some q → q.id = i)
    (hexits : w.ExitsReschedule env pollInterval) {e : ExitedProcess} (he : e ∈ (w.detect env pollInterval).1.exited) :
    DelayFits env (w.awake env pollInterval).clock e (w.passDetect env pollInterval).2.2 := by
  intro config label p hconfig hp rs hrs
  obtain ⟨q, status, hq, hmeets, hrecord⟩ := recordMeets_detect hkey hexits e he
  obtain ⟨q', _, hq', _, _, hsame⟩ := recorded_passDetect hkey he hp
  obtain rfl : q = q' := Option.some.inj (hq.symm.trans hq')
  rw [hrecord] at hconfig
  obtain ⟨rfl, _⟩ := Process.restartConfig_record hconfig
  rw [Process.stableUptime_config]
  exact hmeets (by rw [hconfig]; rfl) rs (hsame ▸ hrs)

theorem allFit_passDetect (hkey : ∀ i q, w.processes.lookup i = some q → q.id = i) (h : w.AllFit) :
    (w.passDetect env pollInterval).2.2.AllFit :=
  (allFit_cascade hkey h).kept (mapStep_passDetect (P := fun _ => True) env pollInterval w).processes

theorem allFit_afterPhase3 (hkey : ∀ i q, w.processes.lookup i = some q → q.id = i) (h : w.AllFit)
    (hexits : w.ExitsReschedule env pollInterval) : (w.afterPhase3 env pollInterval).AllFit := by
  have hphase2 : (w.passDetect env pollInterval).2.2.AllFit := allFit_passDetect hkey h
  refine ifRunning_invariant hphase2 fun _ => allFit_phase3 hphase2 ⟨(phase1State_detect env pollInterval hkey).exited_nodup, ?_⟩
  exact fun e he => ⟨wanted_passDetect hkey he, delayFits_passDetect hkey hexits he⟩

theorem fitOrEnded_afterPhase3 (hkey : ∀ i q, w.processes.lookup i = some q → q.id = i) (h : w.FitOrEnded) :
    (w.afterPhase3 env pollInterval).FitOrEnded := by
  have hphase2 : (w.passDetect env pollInterval).2.2.FitOrEnded := by
    refine h.imp (allFit_passDetect hkey) fun hended => ?_
    exact (hended.step (.inl (reaper_cascade env pollInterval w))).step
      (mapStep_passDetect (P := fun _ => True) env pollInterval w).reaper
  refine ifRunning_invariant hphase2 fun _ => ?_
  exact fitOrEnded_phase3 hphase2 ⟨(phase1State_detect env pollInterval hkey).exited_nodup, fun e he => wanted_passDetect hkey he⟩

/-! ### The entry invariant -/

/-- What holds of the entry `p` under the key `id`. -/
structure EntryInvariant (w : World) (id : ProcessId) (p : Process) : Prop where
  key : p.id = id
  tracks : p.restartState.isSome = p.config.restartOnExit
  alive : p.state = .starting ∨ p.state = .running →
    ∃ c ch, p.child = some c ∧ w.children[c]? = some ch ∧ p.pid = ch.pid ∧ p.pid ≠ 0
  ended : p.state = .stopping ∨ p.state = .stopped ∨ p.state = .crashed → p.child.isSome = true
  waiting : p.state = .waiting → p.child = none ∧ p.waitingSince.isSome = true
  restarting : p.state = .restarting → p.child = none ∧ p.restartState.isSome = true
  /-- Phase 4 picks the process up as soon as it is late enough. -/
  due : p.state = .restarting → ∃ t, ∀ now, t ≤ now → restartDue now p = true
  /-- Polling never takes the branch for an entry without a child. -/
  polled : p.state = .starting ∨ p.state = .running → p.child ≠ none

/-- The invariant of runs behind it. -/
structure EntriesFit (w : World) : Prop where
  fit : w.AllFit
  idle : Idle w
  owned : Owned w

theorem EntriesFit.of_empty (hw : w.processes = ∅) : w.EntriesFit := by
  have hnone : ∀ i q, w.processes.lookup i ≠ some q := by simp [hw]
  constructor
  · exact fun i q hq => absurd hq (hnone i q)
  · exact fun i q hq => absurd hq (hnone i q)
  · constructor
    · exact fun i q hq => absurd hq (hnone i q)
    · exact fun i _ q _ hq => absurd hq (hnone i q)

theorem restartDue_of_isSome (hstate : p.state = .restarting) (hrs : p.restartState.isSome = true) :
    ∃ t, ∀ now, t ≤ now → restartDue now p = true := by
  obtain ⟨rs, hrs⟩ := Option.isSome_iff_exists.mp hrs
  cases hnext : rs.nextEligibleRestart with
  | none => exact ⟨0, fun now _ => by simp [restartDue, hstate, hrs, RestartState.isEligibleForRestart, hnext]⟩
  | some t =>
    refine ⟨t, fun now hnow => ?_⟩
    simp [restartDue, hstate, hrs, RestartState.isEligibleForRestart, hnext, hnow]

theorem EntriesFit.entryInvariant (hkey : ∀ i q, w.processes.lookup i = some q → q.id = i)
    (h : w.EntriesFit) (hp : w.processes.lookup id = some p) : w.EntryInvariant id p := by
  have hfits := h.fit id p hp
  have halive : p.state = .starting ∨ p.state = .running → p.child ≠ none := by
    rintro (hs | hs) <;> exact hfits.child (by rw [hs]; rfl)
  have hrestarting : p.state = .restarting → p.restartState.isSome = true :=
    fun hs => hfits.tracks.trans (hfits.restarts hs)
  refine ⟨hkey id p hp, hfits.tracks, fun hs => ?_, ?_, ?_, ?_, ?_, halive⟩
  · obtain ⟨c, hc⟩ := Option.ne_none_iff_exists'.mp (halive hs)
    obtain ⟨ch, hch, hpid⟩ := h.owned.handle id p hp c hc
    exact ⟨c, ch, hc, hch, hpid.symm, hfits.pid (halive hs)⟩
  · rintro (hs | hs | hs) <;> exact Option.isSome_iff_ne_none.mpr (hfits.child (by rw [hs]; rfl))
  · exact fun hs => ⟨h.idle id p hp (.inl hs), hfits.since hs⟩
  · exact fun hs => ⟨h.idle id p hp (.inr hs), hrestarting hs⟩
  · exact fun hs => restartDue_of_isSome hs (hrestarting hs)

end World

namespace System

/-- The exits that a pass finds and restarts can be scheduled. -/
def ExitsReschedule (env : Env) (pollInterval : ℕ) (s : System) (a : Action) : Prop :=
  a = .pass → s.world.reaper = .running → s.world.ExitsReschedule env pollInterval

instance (s : System) (a : Action) : Decidable (ExitsReschedule env pollInterval s a) :=
  inferInstanceAs (Decidable (_ → _ → _))

/-- In every run in which the reaper can schedule what it restarts, the fields of every
entry fit its state. -/
theorem entry_invariant (env : Env) (pollInterval : ℕ) {s : System} (hs : s.Initial)
    (actions : List Action)
    (h : Fold.Meets (ExitsReschedule env pollInterval) (step env pollInterval) actions s) :
    ∀ id p, (s.run env pollInterval actions).world.processes.lookup id = some p →
      (s.run env pollInterval actions).world.EntryInvariant id p := by
  have hfit : (s.run env pollInterval actions).world.EntriesFit := by
    refine run_invariant (C := fun _ _ _ => True) (D := World.ExitsReschedule env pollInterval)
      (fun _ _ => trivial) ?_ ?_ ?_ hs actions ?_
    · rintro s (rfl | rfl) <;> exact .of_empty rfl
    · rintro w w' ⟨hfit, hidle, howned⟩ hmove
      exact ⟨World.allFit_move hfit hmove, World.idle_move hidle hmove, owned_move howned hmove⟩
    · rintro w hsound ⟨hfit, hidle, howned⟩ hexits -
      exact ⟨World.allFit_afterPhase3 hsound.key hfit hexits,
        World.idle_afterPhase3 pollInterval hsound.key hidle, World.owned_afterPhase3 hsound.key howned⟩
    · exact Fold.meets_mono (fun _ _ => stepMeets_of_pass) actions s h
  exact fun id p hp => hfit.entryInvariant (sound_run env pollInterval hs actions).key hp

/-- A process that crashes and is restarted at once. -/
def crashedWeb : System := withReaper.run twoCrashes 0 [.start ⟨"web"⟩ (web 1), .pass]

theorem entry_invariant_crash :
    ∃ p, crashedWeb.world.processes.lookup ⟨1⟩ = some p ∧ crashedWeb.world.EntryInvariant ⟨1⟩ p := by
  have hentry : (crashedWeb.world.processes.lookup ⟨1⟩).isSome = true := by decide +kernel
  obtain ⟨p, hp⟩ := Option.isSome_iff_exists.mp hentry
  exact ⟨p, hp, entry_invariant twoCrashes 0 (.inr rfl) [.start ⟨"web"⟩ (web 1), .pass] (by decide +kernel) ⟨1⟩ p hp⟩

/-- A process whose first delay cannot be computed. -/
def panicked : System :=
  withReaper.run .firstCrash 0
    [.start ⟨"web"⟩
      { command := "/bin/web", restartOnExit := true, restartPolicy := .backoff .hugeDelay }, .pass]

/-- Phase 3 panics and leaves the process `Starting` without a child. -/
theorem not_entry_invariant :
    (panicked.world.processes.lookup ⟨1⟩).map (fun p => (p.state, p.child)) = some (.starting, none) ∧
      ¬ ∀ id p, panicked.world.processes.lookup id = some p → panicked.world.EntryInvariant id p := by
  have hentry : (panicked.world.processes.lookup ⟨1⟩).map (fun p => (p.state, p.child)) =
      some (.starting, none) := by decide +kernel
  refine ⟨hentry, fun h => ?_⟩
  obtain ⟨p, hp, hpair⟩ := Option.map_eq_some_iff.mp hentry
  rw [Prod.mk.injEq] at hpair
  exact (h ⟨1⟩ p hp).polled (.inl hpair.1) hpair.2

end System

end ProcessManager
