import ProcessManager.System.Ownership
import ProcessManager.Reaper.Sends

/-! The accounts of a run: which exits its passes detect, and which events it sends. A
detected exit is that of a child whose handle is given up in the same pass, so it is not
detected again. -/

namespace ProcessManager

/-- An exit that a pass detects, with the child that exited and its event. -/
structure Detection where
  child : Option ℕ
  event : ProcessExitEvent

variable {env : Env} {C : Point → World → Process → Prop} {pollInterval : ℕ} {now : Instant}
  {w w' : World} {id : ProcessId} {p : Process} {ds : List Detection}

namespace World

/-- The exits that a pass detects. -/
def detections (env : Env) (pollInterval : ℕ) (w : World) : List Detection :=
  (w.detect env pollInterval).1.exited.map fun e =>
    ⟨((w.detect env pollInterval).2.processes.lookup e.id).bind Process.child, e.event⟩

/-! ### Handles in Phases 1 to 3 -/

/-- Entries keep their handles or give them up. -/
abbrev KeepStep : World → World → Prop := MapStep KeepsHandle Set.univ fun _ => True

theorem KeepsHandle.trans (id : ProcessId) (p p' p'' : Process) (h : KeepsHandle id p p')
    (h' : KeepsHandle id p' p'') : KeepsHandle id p p'' := by
  rcases h' with h' | ⟨hchild, hpid⟩
  · exact .inl h'
  · rw [KeepsHandle, hchild, hpid]
    exact h

theorem keepStep_refl (w : World) : KeepStep w w := .of_osStep KeepsHandle.refl (.refl w)

theorem keepStep_trans (w₁ w₂ w₃ : World) (h : KeepStep w₁ w₂) (h' : KeepStep w₂ w₃) : KeepStep w₁ w₃ :=
  MapStep.trans KeepsHandle.trans h h'

theorem keepStep_put {q : Process} (hstep : OsStep Set.univ (fun _ => True) w w')
    (hp : w.processes.lookup id = some p) (hq : KeepsHandle id p q) :
    KeepStep w ((w'.put id q).unlock .exclusive id) :=
  keepStep_trans _ _ _ (.put KeepsHandle.refl hstep hp hq) (.unlock KeepsHandle.refl _ _ _)

theorem keepStep_phase1 (now : Instant) (w : World) : KeepStep w (w.phase1 env now).2 := by
  refine Fold.foldl_invariant (I := fun x : Exits × World => KeepStep w x.2) (keepStep_refl w) ?_
  rintro ⟨x, w'⟩ k - hw'
  refine keepStep_trans _ _ _ hw' ?_
  obtain ⟨_, heq⟩ | ⟨p, w₁, hp, _, ⟨c, status, _, _, rfl, heq⟩ | ⟨hstep, _, heq⟩⟩ :=
    phase1Visit_cases env now k x w' <;> rw [heq]
  · exact .of_osStep KeepsHandle.refl ((OsStep.lock _ _ _).trans (.unlock _ _ _))
  · exact keepStep_put ((OsStep.lock _ _ _).trans (osStep_tryWait env (Set.mem_univ c) _)) hp
      (.inr ⟨Process.stableUptime_child now p, Process.stableUptime_pid now p⟩)
  · refine keepStep_put ((OsStep.lock _ _ _).trans hstep.weaken) hp ?_
    split_ifs <;> exact .inr ⟨Process.stableUptime_child now p, Process.stableUptime_pid now p⟩

theorem keepStep_phase1b (origins : List CascadeOrigin) (w : World) :
    KeepStep w (w.phase1b env origins) := by
  have htouch : KeepStep w (origins.foldl (fun w _ => w.touch .shared w.processes.keys) w) :=
    Fold.foldl_rel (f := fun (w : World) (_ : CascadeOrigin) => w.touch .shared w.processes.keys)
      keepStep_refl keepStep_trans (fun w _ => .of_osStep KeepsHandle.refl (.touch _ _ w)) origins w
  refine keepStep_trans _ _ _ htouch
    (Fold.foldl_rel keepStep_refl keepStep_trans (fun w k => ?_) _ _)
  obtain ⟨_, heq⟩ | ⟨p, hp, _, heq⟩ := cascadeKill_cases env k w <;> rw [heq]
  · exact .of_osStep KeepsHandle.refl ((OsStep.lock _ _ _).trans (.unlock _ _ _))
  · exact keepStep_put ((OsStep.lock .exclusive k w).trans (osStep_kill env trivial)) hp (.inr ⟨rfl, rfl⟩)

theorem keepStep_scheduleEntry (e : ExitedProcess) (w : World) :
    KeepStep w (scheduleEntry env now e w) := by
  obtain ⟨heq, _⟩ | ⟨heq, _⟩ | ⟨config, label, p, w', _, hp, hstep, hcases⟩ :=
    scheduleEntry_cases (P := fun _ => True) env now e w
  · rw [heq]; exact keepStep_refl w
  · rw [heq]; exact .of_osStep KeepsHandle.refl ((OsStep.lock _ _ _).trans (.unlock _ _ _))
  · have hstep' : OsStep Set.univ (fun _ => True) w w' :=
      (OsStep.lock _ _ _).trans (hstep.mono (Set.subset_univ _) fun _ h => h)
    obtain ⟨_, heq⟩ | ⟨rs, rs', _, _, heq⟩ | ⟨rs, _, _, heq⟩ := hcases <;> rw [heq]
    · exact keepStep_put hstep' hp (.inl rfl)
    · exact keepStep_put hstep' hp (.inl rfl)
    · have hput : KeepStep w ((w'.put e.id { p with
          child := none, restartState := some rs.recordRestart }).unlock .exclusive e.id) :=
        keepStep_put hstep' hp (.inl rfl)
      exact { hput with reaper := .inr (.inr rfl) }

/-- From the detection on to the end of Phase 3. -/
theorem keepStep_detect (env : Env) (pollInterval : ℕ) (w : World) :
    KeepStep (w.detect env pollInterval).2 (w.passDetect env pollInterval).2.2 :=
  keepStep_trans _ _ _ (keepStep_phase1b _ _) ((mapStep_phase2 _ _).mono KeepsHandle.of_kept
    (Set.empty_subset _) fun _ h => h)

theorem keepStep_phase3 (exited : List ExitedProcess) (w : World) :
    KeepStep w (w.phase3 env now exited) :=
  Fold.foldl_rel keepStep_refl keepStep_trans (fun w e =>
    mapStep_ifRunning KeepsHandle.refl (keepStep_scheduleEntry e w)) exited w

theorem keepStep_awakeDetect (env : Env) (pollInterval : ℕ) (w : World) :
    KeepStep w (w.detect env pollInterval).2 :=
  keepStep_trans _ _ _ (.of_osStep KeepsHandle.refl (osStep_awake env pollInterval w)) (keepStep_phase1 _ _)

theorem keepStep_afterPhase3 (env : Env) (pollInterval : ℕ) (w : World) :
    KeepStep (w.detect env pollInterval).2 (w.afterPhase3 env pollInterval) :=
  keepStep_trans _ _ _ (keepStep_detect env pollInterval w)
    (mapStep_ifRunning KeepsHandle.refl (keepStep_phase3 _ _))

/-- While the reaper runs, the entries of these exits that are restarted have no handle. -/
def HandlesDropped (exited : List ExitedProcess) (w : World) : Prop :=
  w.reaper = .running → ∀ e ∈ exited, e.restartConfig ≠ none →
    ∀ p, w.processes.lookup e.id = some p → p.child = none

theorem HandlesDropped.schedule {exited : List ExitedProcess} (h : HandlesDropped exited w) (e : ExitedProcess) :
    HandlesDropped (exited ++ [e]) (w.ifRunning (scheduleEntry env now e)) := by
  unfold ifRunning
  split_ifs with hrunning <;> intro hr'
  · intro f hf hrestart p hp
    obtain ⟨q, hq, hkeeps⟩ := (keepStep_scheduleEntry e w).processes f.id p hp
    rcases List.mem_append.mp hf with hf | hf
    · rcases hkeeps with hnone | ⟨hchild, _⟩
      · exact hnone
      · rw [hchild]
        exact h hrunning f hf hrestart q hq
    · obtain rfl := List.mem_singleton.mp hf
      obtain ⟨_, hnone⟩ | ⟨_, hnone⟩ | ⟨config, label, q', w₁, _, hq', hstep, hcases⟩ :=
        scheduleEntry_cases (P := fun _ => True) env now f w
      · exact absurd hnone hrestart
      · rw [hnone] at hq
        cases hq
      · obtain ⟨_, heq⟩ | ⟨rs, rs', _, _, heq⟩ | ⟨rs, _, _, heq⟩ := hcases <;> rw [heq] at hp <;>
          simp only [unlock_processes, put_processes, AssocMap.lookup_replace, ↓reduceIte] at hp <;>
          obtain ⟨_, _, rfl⟩ := Option.map_eq_some_iff.mp hp <;> rfl
  · exact absurd hr' hrunning

/-- Unless it panics, Phase 3 drops the handle of every entry that it restarts. -/
theorem phase3_child {exited : List ExitedProcess} (hr : (w.phase3 env now exited).reaper = .running) :
    ∀ e ∈ exited, e.restartConfig ≠ none →
      ∀ p, (w.phase3 env now exited).processes.lookup e.id = some p → p.child = none := by
  have hinit : HandlesDropped [] w := fun _ _ he => absurd he List.not_mem_nil
  have hdropped : HandlesDropped exited (w.phase3 env now exited) :=
    Fold.foldl_visited hinit fun _ e _ _ h => h.schedule e
  exact hdropped hr

end World

/-! ### Detected exits -/

/-- The exits were collected, each from a child of its own, and while the reaper runs
nobody holds the handle of one of these children. -/
structure Spent (ds : List Detection) (w : World) : Prop where
  owned : Owned w
  nodup : (ds.map Detection.child).Nodup
  collected : ∀ d ∈ ds, ∃ c ch status t, d.child = some c ∧ w.children[c]? = some ch ∧
    ch.status = .reaped status t ∧ d.event.exitStatus = some status
  released : w.reaper = .running → ∀ d ∈ ds, ∀ i p, w.processes.lookup i = some p → p.child ≠ d.child

namespace Spent

theorem hands (h : Spent ds w) (hands : Hands w w')
    (hreaper : w'.reaper = .running → w.reaper = .running) : Spent ds w' where
  owned := h.owned.hands hands
  nodup := h.nodup
  collected d hd := by
    obtain ⟨id, hages, _⟩ := hands
    obtain ⟨c, ch, status, t, hc, hch, hstatus, hevent⟩ := h.collected d hd
    obtain ⟨ch', hch', hage⟩ := hages c ch hch
    obtain rfl := hage.final (by simp [OsChild.isReaped, hstatus])
    exact ⟨c, ch', status, t, hc, hch', hstatus, hevent⟩
  released hr d hd i p hp hchild := by
    obtain ⟨id, _, hmap⟩ := hands
    obtain ⟨c, ch, _, _, hc, hch, _⟩ := h.collected d hd
    rw [hc] at hchild
    obtain ⟨q, hq, hkeeps⟩ | ⟨_, hnew⟩ := hmap i p hp
    · exact h.released (hreaper hr) d hd i q hq ((hkeeps.child hchild).1.trans hc.symm)
    · -- the new child is none of the old ones
      have hlt := (List.getElem?_eq_some_iff.mp hch).1
      rw [(hnew c hchild).1, World.nextChild] at hlt
      omega

theorem move (h : Spent ds w) (hmove : World.Move env C w w') : Spent ds w' := by
  refine h.hands (hands_move hmove) fun hr => ?_
  rcases World.reaper_move hmove with heq | hended | hended
  · exact heq ▸ hr
  · rw [hr] at hended; cases hended
  · rw [hr] at hended; cases hended

theorem keepStep (h : Spent ds w) (hstep : World.KeepStep w w') : Spent ds w' := by
  refine h.hands (.of_refines hstep.children hstep.processes) fun hr => ?_
  rcases hstep.reaper with heq | hended | hended
  · exact heq ▸ hr
  · rw [hr] at hended; cases hended
  · rw [hr] at hended; cases hended

end Spent

namespace World

/-- A detected exit is that of the child its entry holds. -/
theorem exists_of_mem_detections (hkey : ∀ i q, w.processes.lookup i = some q → q.id = i)
    {d : Detection} (hd : d ∈ w.detections env pollInterval) :
    ∃ e ∈ (w.detect env pollInterval).1.exited, ∃ p c ch status t, d.event = e.event ∧
      (w.detect env pollInterval).2.processes.lookup e.id = some p ∧ p.child = some c ∧
      d.child = some c ∧ (w.detect env pollInterval).2.children[c]? = some ch ∧
      ch.status = .reaped status t ∧ e.exitStatus = some status := by
  obtain ⟨e, he, rfl⟩ := List.mem_map.mp hd
  obtain ⟨p, c, ch, status, t, hp, hc, hch, hstatus, hexit⟩ := collected_detect env pollInterval hkey e he
  exact ⟨e, he, p, c, ch, status, t, rfl, hp, hc, by rw [hp]; exact hc, hch, hstatus, hexit⟩

theorem nodup_detections (hkey : ∀ i q, w.processes.lookup i = some q → q.id = i)
    (howned : Owned (w.detect env pollInterval).2) :
    ((w.detections env pollInterval).map Detection.child).Nodup := by
  have hnodup := (phase1State_detect env pollInterval hkey).exited_nodup
  rw [detections, List.map_map]
  refine (List.Nodup.of_map _ hnodup).map_on fun e he f hf heq => ?_
  obtain ⟨p, c, _, _, _, hp, hc, _⟩ := collected_detect env pollInterval hkey e he
  obtain ⟨q, c', _, _, _, hq, hc', _⟩ := collected_detect env pollInterval hkey f hf
  simp only [Function.comp_apply, hp, hq, Option.bind_some, hc, hc', Option.some.injEq] at heq
  exact List.inj_on_of_nodup_map hnodup he hf (howned.unique _ _ p q hp hq c hc (heq ▸ hc'))

/-- After Phase 3 an entry that exited is gone or has dropped its handle. -/
theorem afterPhase3_child {e : ExitedProcess} (hr : (w.afterPhase3 env pollInterval).reaper = .running)
    (he : e ∈ (w.detect env pollInterval).1.exited)
    (hp : (w.afterPhase3 env pollInterval).processes.lookup e.id = some p) : p.child = none := by
  have hmem : e.id ∈ (w.passDetect env pollInterval).2.2.processes :=
    ((Silent.ifRunning (silent_phase3 _) _).mem e.id).mp (mem_of_lookup hp)
  have hrestart := ((mem_passDetect env pollInterval w e.id).mp hmem).2 e
    (List.mem_filter.mpr ⟨he, by simp⟩)
  unfold afterPhase3 ifRunning at hr hp
  split_ifs at hr hp with hrunning
  · exact phase3_child hr e he hrestart p hp
  · exact absurd hr hrunning

/-- What Phase 1 detects was not detected before, and its handles are gone after Phase 3. -/
theorem spent_afterPhase3 (hkey : ∀ i q, w.processes.lookup i = some q → q.id = i) (h : Spent ds w)
    (hr : w.reaper = .running) :
    Spent (ds ++ w.detections env pollInterval) (w.afterPhase3 env pollInterval) := by
  have hawake := keepStep_awakeDetect env pollInterval w
  have hkeep := keepStep_afterPhase3 env pollInterval w
  have hdetect := h.keepStep hawake
  have hold := hdetect.keepStep hkeep
  refine ⟨hold.owned, ?_, fun d hd => ?_, fun hr' d hd i p' hp' hchild => ?_⟩
  · rw [List.map_append]
    refine h.nodup.append (nodup_detections hkey hdetect.owned) (List.disjoint_left.mpr ?_)
    intro c hc hc'
    obtain ⟨d, hd, rfl⟩ := List.mem_map.mp hc
    obtain ⟨d', hd', heq⟩ := List.mem_map.mp hc'
    obtain ⟨e, _, p, c, _, _, _, _, hp, hpc, hd'c, _⟩ := exists_of_mem_detections hkey hd'
    obtain ⟨q, hq, hkeeps⟩ := hawake.processes e.id p hp
    exact h.released hr d hd e.id q hq ((hkeeps.child hpc).1.trans (hd'c.symm.trans heq))
  · rcases List.mem_append.mp hd with hd | hd
    · exact hold.collected d hd
    · obtain ⟨e, _, p, c, ch, status, t, hevent, _, _, hdc, hch, hstatus, hexit⟩ :=
        exists_of_mem_detections hkey hd
      obtain ⟨ch', hch', hage⟩ := hkeep.children c ch hch
      obtain rfl := hage.final (by simp [OsChild.isReaped, hstatus])
      exact ⟨c, ch', status, t, hdc, hch', hstatus, hevent ▸ hexit⟩
  · rcases List.mem_append.mp hd with hd | hd
    · obtain ⟨q, hq, hkeeps⟩ := hawake.trans KeepsHandle.trans hkeep |>.processes i p' hp'
      obtain ⟨c, _, _, _, hc, _⟩ := h.collected d hd
      exact h.released hr d hd i q hq ((hkeeps.child (hchild.trans hc)).1.trans hc.symm)
    · obtain ⟨e, he, p, c, _, _, _, _, hp, hpc, hdc, _⟩ := exists_of_mem_detections hkey hd
      -- the child was held by the entry that exited only
      obtain ⟨q, hq, hkeeps⟩ := hkeep.processes i p' hp'
      obtain rfl := hdetect.owned.unique i e.id q p hq hp c (hkeeps.child (hchild.trans hdc)).1 hpc
      rw [afterPhase3_child hr' he hp', hdc] at hchild
      cases hchild

/-! ### Events with an exit status -/

/-- The events that report an exit, oldest first. -/
def exitEvents (w : World) : List ProcessExitEvent := w.events.reverse.filter fun e => e.exitStatus.isSome

/-- Only events without an exit status are sent. -/
abbrev ReportsNoExit (w w' : World) : Prop := Grows (fun s => s.event.exitStatus = none) w.sends w'.sends

theorem exitEvents_eq (h : ReportsNoExit w w') : w'.exitEvents = w.exitEvents := by
  obtain ⟨new, hnew, hnone⟩ := h
  have hfilter : (new.map SendCall.event).reverse.filter (fun e => e.exitStatus.isSome) = [] := by
    rw [List.filter_eq_nil_iff]
    intro e he
    obtain ⟨s, hs, rfl⟩ := List.mem_map.mp (List.mem_reverse.mp he)
    simp [hnone s hs]
  simp only [exitEvents, events, hnew, List.map_append, List.reverse_append, List.filter_append, hfilter,
    List.append_nil]

theorem reportsNoExit_stop (id : ProcessId) (w : World) : ReportsNoExit w (w.stop env id).2 := by
  refine stop_invariant_of_forall (I := fun w' => ReportsNoExit w w') ?_ id (.refl _)
  intro i w' hw'
  refine hw'.trans ?_
  by_cases hwaiting : ∃ p, w'.processes.lookup i = some p ∧ p.state = .waiting
  · obtain ⟨p, hp, hstate⟩ := hwaiting
    rw [stopOne_of_waiting hp hstate]
    obtain ⟨_, _, hsends⟩ | ⟨_, hsends⟩ :=
      sends_sendFromHandle env (p.endEvent i .stopped) (w'.remove i)
    · exact ⟨[_], hsends, by simp [Process.endEvent]⟩
    · exact .of_eq hsends
  · exact .of_eq (stopOne_sends env fun p hp hstate => hwaiting ⟨p, hp, hstate⟩)

theorem reportsNoExit_restart (id : ProcessId) (w : World) : ReportsNoExit w (w.restart env id).2 := by
  obtain ⟨_, heq⟩ | ⟨p, _, ⟨_, heq⟩ | ⟨_, heq | heq⟩⟩ := restart_cases env id w <;>
    rw [heq]
  · exact .refl _
  · exact .of_eq (restartInPlace_sends env id p w)
  · exact reportsNoExit_stop id w
  · exact (reportsNoExit_stop id w).trans (.of_eq (restartInsert_sends env id p _))

/-- What follows Phase 2 reports failures only. -/
theorem reportsNoExit_of_ends (h : ∀ id, Ends id w w') (halive : w'.receiverAlive = true) :
    ReportsNoExit w w' := by
  obtain ⟨new, hnew⟩ := (h ⟨0⟩).sends
  refine ⟨new, hnew.symm, fun s hs => ?_⟩
  have hsent : s ∈ w.sentFor s.event.id w' := by
    rw [sentFor, ← hnew, gained_append]
    exact List.mem_filter.mpr ⟨List.mem_reverse.mpr hs, by simp⟩
  obtain ⟨_, hnone⟩ | ⟨_, _, t, ht, hfail⟩ := (h s.event.id).outcome halive
  · simp [hnone] at hsent
  · rw [ht, List.mem_singleton] at hsent
    exact hsent ▸ hfail.status

/-- A pass reports what it detects. -/
theorem exitEvents_reaperPass (env : Env) (pollInterval : ℕ)
    (hkey : ∀ i q, w.processes.lookup i = some q → q.id = i) (hr : w.reaper = .running)
    (halive : (w.reaperPass env pollInterval).receiverAlive = true) :
    (w.reaperPass env pollInterval).exitEvents =
      w.exitEvents ++ (w.detections env pollInterval).map Detection.event := by
  have hends := fun id => ends_passDetect env pollInterval id w
  have halive' := (hends ⟨0⟩).receiver halive
  rw [exitEvents_eq (reportsNoExit_of_ends hends halive), exitEvents, events,
    passDetect_sends env pollInterval hr halive', List.map_append, List.reverse_append,
    List.filter_append, List.map_reverse, List.reverse_reverse, List.map_map, detections, List.map_map]
  refine congrArg (w.exitEvents ++ ·) (List.filter_eq_self.mpr fun e he => ?_)
  obtain ⟨x, hx, rfl⟩ := List.mem_map.mp he
  obtain ⟨_, _, _, status, _, _, _, _, _, hexit⟩ := collected_detect env pollInterval hkey x hx
  simp [ExitedProcess.event, hexit]

end World

/-! ### Runs -/

namespace System

variable (env pollInterval)

/-- The exits that an action detects. -/
def detected (s : System) (a : Action) : List Detection :=
  if a = .pass ∧ s.world.reaper = .running then s.world.detections env pollInterval else []

/-- The exits that the passes of a run detect, in order. -/
def detections : List Action → System → List Detection
  | [], _ => []
  | a :: actions, s => detected env pollInterval s a ++ detections actions (s.step env pollInterval a)

/-- A pass, if the action is one, accounts for its events. -/
def PassAccounted (s : System) (a : Action) : Prop :=
  a = .pass → s.world.reaper = .running → s.world.Accounted env pollInterval

variable {env pollInterval}

/-- No call of the manager reports an exit. -/
theorem reportsNoExit_step {s : System} {a : Action} (ha : a ≠ .pass) :
    World.ReportsNoExit s.world (s.step env pollInterval a).world := by
  cases a with
  | start label config => exact .of_eq (World.start_sends ..)
  | startWithDeps label config =>
    simp only [step]
    split <;> exact .of_eq (World.startWithDeps_sends ..)
  | depsPoll n =>
    simp only [step]
    split
    · exact .refl _
    · exact .of_eq (World.depsPoll_sends ..)
  | stop id => exact World.reportsNoExit_stop id s.world
  | stopLabel label => exact .of_eq (World.stopMany_sends ..)
  | stopAll => exact .of_eq (World.stopMany_sends ..)
  | stopTerminateOnExit => exact .of_eq (World.stopMany_sends ..)
  | restart id => exact World.reportsNoExit_restart id s.world
  | restartLabel label =>
    exact World.restartAll_invariant (I := World.ReportsNoExit s.world) (C := fun _ _ => True)
      (fun id w hw _ => hw.trans (World.reportsNoExit_restart id w)) _ _ (.refl _)
      (World.restartsMeet_of_forall (fun _ _ => trivial) _ _)
  | sendSignal id signal => exact .of_eq (World.sendSignal_sends ..)
  | sendSignalLabel label signal => exact .of_eq (World.sendSignalLabel_sends ..)
  | query id => exact .of_eq (World.query_sends ..)
  | pass => exact absurd rfl ha

theorem stepMeets_true {s : System} {a : Action} :
    s.StepMeets env (fun _ _ _ => True) (fun _ => True) a := stepMeets_of_pass fun _ _ => trivial

/-- A closed channel stays closed. -/
theorem receiver_step {s : System} (hs : Sound s.world) (a : Action)
    (h : (s.step env pollInterval a).world.receiverAlive = true) : s.world.receiverAlive = true := by
  by_cases ha : a = .pass
  · subst ha
    revert h
    refine World.ifRunning_invariant (I := fun w => w.receiverAlive = true → s.world.receiverAlive = true)
      (fun h => h) fun _ halive => ?_
    have hlater := (World.ends_passDetect env pollInterval ⟨0⟩ s.world).receiver halive
    exact (World.keepStep_awakeDetect env pollInterval s.world).receiver
      ((World.keepStep_detect env pollInterval s.world).receiver hlater)
  · exact (moves_step (fun _ _ => trivial) ha hs stepMeets_true).invariant
      (I := fun w => w.receiverAlive = true → s.world.receiverAlive = true)
      (fun _ _ hw hmove halive => hw (World.receiver_move hmove halive)) (fun h => h) h

theorem receiver_run (actions : List Action) {s : System} (hs : Sound s.world)
    (h : (s.run env pollInterval actions).world.receiverAlive = true) : s.world.receiverAlive = true := by
  induction actions generalizing s with
  | nil => exact h
  | cons a actions ih => exact receiver_step hs a (ih (sound_step env pollInterval s a hs) h)

theorem spent_step {s : System} (hs : Sound s.world) (h : Spent ds s.world) (a : Action) :
    Spent (ds ++ detected env pollInterval s a) (s.step env pollInterval a).world := by
  unfold detected
  by_cases ha : a = .pass
  · subst ha
    by_cases hr : s.world.reaper = .running
    · rw [if_pos ⟨rfl, hr⟩]
      have hpass : (s.step env pollInterval .pass).world = s.world.reaperPass env pollInterval :=
        if_pos hr
      rw [hpass]
      exact (World.moves_afterPhase3 (C := fun _ _ _ => True) pollInterval s.world).invariant
        (fun _ _ => Spent.move) (World.spent_afterPhase3 hs.key h hr)
    · have hpass : (s.step env pollInterval .pass).world = s.world := if_neg hr
      rw [if_neg (by simp [hr]), hpass, List.append_nil]
      exact h
  · rw [if_neg (by simp [ha]), List.append_nil]
    exact (moves_step (fun _ _ => trivial) ha hs stepMeets_true).invariant (fun _ _ => Spent.move) h

theorem exitEvents_step {s : System} (hs : Sound s.world) (a : Action)
    (halive : (s.step env pollInterval a).world.receiverAlive = true) :
    (s.step env pollInterval a).world.exitEvents =
      s.world.exitEvents ++ (detected env pollInterval s a).map Detection.event := by
  unfold detected
  by_cases ha : a = .pass
  · subst ha
    by_cases hr : s.world.reaper = .running
    · have hpass : (s.step env pollInterval .pass).world = s.world.reaperPass env pollInterval :=
        if_pos hr
      rw [if_pos ⟨rfl, hr⟩]
      rw [hpass] at halive ⊢
      exact World.exitEvents_reaperPass env pollInterval hs.key hr halive
    · have hpass : (s.step env pollInterval .pass).world = s.world := if_neg hr
      rw [if_neg (by simp [hr]), hpass, List.map_nil, List.append_nil]
  · rw [if_neg (by simp [ha]), List.map_nil, List.append_nil]
    exact World.exitEvents_eq (reportsNoExit_step ha)

theorem passAccounted {s : System} (hs : Sound s.world) (a : Action)
    (halive : (s.step env pollInterval a).world.receiverAlive = true) :
    PassAccounted env pollInterval s a := by
  rintro rfl hr
  have hpass : (s.step env pollInterval .pass).world = s.world.reaperPass env pollInterval := if_pos hr
  exact World.accounted env pollInterval hs.key hr (hpass ▸ halive)

/-- The accounts of a run that continues from `s`, where `ds` was detected before. -/
theorem accounts_run (actions : List Action) {s : System} (hs : Sound s.world) (h : Spent ds s.world)
    (hevents : s.world.exitEvents = ds.map Detection.event)
    (halive : (s.run env pollInterval actions).world.receiverAlive = true) :
    Spent (ds ++ detections env pollInterval actions s) (s.run env pollInterval actions).world ∧
      (s.run env pollInterval actions).world.exitEvents =
        (ds ++ detections env pollInterval actions s).map Detection.event ∧
      Fold.Meets (PassAccounted env pollInterval) (step env pollInterval) actions s := by
  induction actions generalizing s ds with
  | nil =>
    rw [detections, List.append_nil]
    exact ⟨h, hevents, trivial⟩
  | cons a actions ih =>
    have hs' := sound_step env pollInterval s a hs
    have halive' := receiver_run actions hs' halive
    obtain ⟨hspent, hall, hmeets⟩ := ih hs' (spent_step hs h a)
      (by rw [exitEvents_step hs a halive', hevents, List.map_append]) halive
    rw [detections, ← List.append_assoc]
    exact ⟨hspent, hall, passAccounted hs a halive', hmeets⟩

/-- As long as somebody listens, the exits that the passes detect are reported once each,
in order and with the status that was collected; they are the exits of different children;
and every pass accounts for its other events by its removals. -/
theorem events_accounted (env : Env) (pollInterval : ℕ) {s : System} (hs : s.Initial)
    (actions : List Action) (halive : (s.run env pollInterval actions).world.receiverAlive = true) :
    (s.run env pollInterval actions).world.exitEvents =
        (detections env pollInterval actions s).map Detection.event ∧
      ((detections env pollInterval actions s).map Detection.child).Nodup ∧
      (∀ d ∈ detections env pollInterval actions s, ∃ c ch status t, d.child = some c ∧
        (s.run env pollInterval actions).world.children[c]? = some ch ∧
        ch.status = .reaped status t ∧ d.event.exitStatus = some status) ∧
      Fold.Meets (PassAccounted env pollInterval) (step env pollInterval) actions s := by
  have hsound : Sound s.world := sound_run env pollInterval hs []
  have hspent : Spent [] s.world := by
    refine ⟨⟨?_, ?_⟩, List.nodup_nil, nofun, fun _ => nofun⟩ <;> rcases hs with rfl | rfl <;>
      simp [new, withReaper, World.new, World.withReaper]
  have hevents : s.world.exitEvents = [] := by rcases hs with rfl | rfl <;> rfl
  obtain ⟨hspent', hall, hmeets⟩ := accounts_run actions hsound hspent hevents halive
  exact ⟨hall, hspent'.nodup, hspent'.collected, hmeets⟩

/-- The first child crashes, and no spawn succeeds afterwards. -/
def respawnFails : Env := { Env.exitsAt [(2, ⟨0, .code 1, 0⟩)] with spawnFails := fun n => 4 ≤ n }

def crashingWeb : List Action := [.start ⟨"web"⟩ { command := "/bin/web", restartOnExit := true }, .pass]

theorem events_accounted_crashingWeb :
    (withReaper.run respawnFails 0 crashingWeb).world.events.map (fun e => (e.state, e.exitStatus)) =
        [(.failed, none), (.crashed, some (.code 1))] ∧
      (withReaper.run respawnFails 0 crashingWeb).world.exitEvents =
        (detections respawnFails 0 crashingWeb withReaper).map Detection.event ∧
      Fold.Meets (PassAccounted respawnFails 0) (step respawnFails 0) crashingWeb withReaper := by
  obtain ⟨hevents, _, _, hmeets⟩ :=
    events_accounted respawnFails 0 (.inr rfl) crashingWeb (by decide +kernel)
  exact ⟨by decide +kernel, hevents, hmeets⟩

end System

end ProcessManager
