import ProcessManager.Reaper.Cascade
import ProcessManager.Reaper.Sends
import ProcessManager.System.WatchedExits

/-! One pass in two worlds of which the second has seen more queries. The exits found by
Phase 1 are handled alike, and when Phase 3 is over every entry in which the worlds differed
is gone or `Restarting`. -/

namespace ProcessManager

variable {env : Env} {now : Instant} {pollInterval : ℕ} {w w' : World} {id : ProcessId} {p p' : Process}
  {exited : List ExitedProcess}

namespace World

/-! ### Phases 1b and 2 -/

/-- The entries differ at most where an exit was found. -/
abbrev DifferAt (exited : List ExitedProcess) (w w' : World) : Prop := Alike (Process.Midway [] exited) Eq w w'

theorem differAt_of_midway {exits : Exits} (h : Midway [] exits w w') : DifferAt exits.exited w w' := by
  refine h.alike.mono (fun _ _ _ _ _ hmid => hmid) fun c ch ch' hch hch' _ => ?_
  have heq : w'.children[c]? = w.children[c]? := by
    by_contra hne
    obtain ⟨k, _, _, hk, _⟩ := h.collected.holder c hne
    cases hk
  rw [hch, hch'] at heq
  exact (Option.some.inj heq).symm

/-- A target of a cascade is in the same state in both worlds. -/
theorem DifferAt.cascadeKill (h : DifferAt exited w w') (env : Env) (id : ProcessId) :
    DifferAt exited (w.cascadeKill env id) (w'.cascadeKill env id) := by
  have hlocked : DifferAt exited (w.lock .exclusive id) (w'.lock .exclusive id) := h.lock _ _ id id
  rcases h.processes.lookup_cases id with ⟨hp, hp'⟩ | ⟨p, p', hp, hp', hmid⟩
  · simp only [World.cascadeKill, lock_processes, hp, hp']
    exact hlocked.unlock _ _ id id
  · have hpid' : p'.pid = p.pid := hmid.watched.pid
    by_cases hpid : p.pid = 0
    · simp only [World.cascadeKill, lock_processes, hp, hp', hpid', hpid, ↓reduceIte]
      exact hlocked.unlock _ _ id id
    · have hentry : Process.Midway [] exited id { p with cascadeFlag := true, state := .stopping }
          { p' with cascadeFlag := true, state := .stopping } :=
        ⟨hmid.key, { hmid.watched.toCopy with cascadeFlag := rfl, state := .inl rfl },
          fun _ => ⟨.inl rfl, (hmid.settled List.not_mem_nil).counter⟩⟩
      have hsignal : p'.config.killSignal = p.config.killSignal := by rw [hmid.watched.config]
      have hkilled := Alike.kill hlocked env .cascade p.config.killSignal.toSignal hentry.watched.toCopy
      have hspawned : p'.pid ≠ 0 := hpid' ▸ hpid
      simp only [World.cascadeKill, Process.sendSignal, lock_processes, hp, hp', hspawned, hpid, ↓reduceIte, hsignal]
      exact (hkilled.put hentry).unlock _ _ id id

/-- No cascade of the pass selects a process whose exit only a query has seen. -/
def TargetsAgree (env : Env) (pollInterval : ℕ) (w w' : World) : Prop :=
  ∀ o ∈ (w.detect env pollInterval).1.cascadeOrigins, ∀ id ∈ w.processes.keys, ∀ p ∈ w.processes.lookup id,
    ∀ p' ∈ w'.processes.lookup id, p.Active → p'.state.isTerminated = true → cascadeSelects o p = false

instance (w w' : World) : Decidable (TargetsAgree env pollInterval w w') :=
  inferInstanceAs (Decidable (∀ o ∈ (w.detect env pollInterval).1.cascadeOrigins, ∀ id ∈ w.processes.keys,
    ∀ p ∈ w.processes.lookup id, ∀ p' ∈ w'.processes.lookup id, _ → _ → _))

/-- The filter looks at the state only to see whether the process is alive. -/
theorem cascadeSelects_eq (o : CascadeOrigin) (h : p.Watched p')
    (halive : p.Active → p'.state.isTerminated = true → cascadeSelects o p = false) :
    cascadeSelects o p' = cascadeSelects o p := by
  have hactive : (p'.state = .running || p'.state = .starting) = (p.state = .running || p.state = .starting) →
      cascadeSelects o p' = cascadeSelects o p := by
    intro heq
    unfold cascadeSelects
    rw [h.id, h.label, h.spawnSequence, heq]
  obtain heq | ⟨hactive', hrunning | hterminated⟩ := h.state
  · exact hactive (by rw [heq])
  · refine hactive ?_
    obtain hstate | hstate := hactive' <;> simp [hstate, hrunning]
  · rw [halive hactive' hterminated]
    have hdead : (p'.state = .running || p'.state = .starting) = false := by
      cases hstate : p'.state <;> rw [hstate] at hterminated <;> first | rfl | cases hterminated
    unfold cascadeSelects
    rw [hdead, Bool.and_false, Bool.false_and]

theorem DifferAt.phase1b (h : DifferAt exited w w') (env : Env) (origins : List CascadeOrigin)
    (htargets : ∀ o ∈ origins, ∀ id p p', w.processes.lookup id = some p → w'.processes.lookup id = some p' →
      cascadeSelects o p' = cascadeSelects o p) :
    DifferAt exited (w.phase1b env origins) (w'.phase1b env origins) := by
  have hsame : w'.cascadeTargets origins = w.cascadeTargets origins :=
    List.flatMap_congr fun o ho => h.processes.keysWhere_eq (htargets o ho)
  have htouched := List.foldl_rel (r := DifferAt exited) (l := origins) h
    (f := fun w _ => w.touch .shared w.processes.keys) (g := fun w _ => w.touch .shared w.processes.keys)
    fun _ _ _ _ h => h.touch _ _ _ _
  simp only [World.phase1b, hsame]
  exact List.foldl_rel (r := DifferAt exited) htouched fun id _ _ _ h => h.cascadeKill env id

theorem DifferAt.phase2 (h : DifferAt exited w w') (env : Env) (x : Exits) :
    DifferAt exited (w.phase2 env x) (w'.phase2 env x) := by
  have hremoved := List.foldl_rel (r := DifferAt exited) (l := x.toRemove) h
    (f := fun w id => w.removeEntry id) (g := fun w id => w.removeEntry id) fun id _ _ _ h => h.removeEntry id
  exact List.foldl_rel (r := DifferAt exited) hremoved fun e _ _ _ h =>
    Alike.ifRunning h fun _ => Alike.sendOrReturn h OsChild.stable_eq env e.event

/-! ### Phase 3 -/

end World

/-- The states differ only where a restart is still to be scheduled, and then the counters agree. -/
structure Process.Pending (rest : List ExitedProcess) (id : ProcessId) (p p' : Process) : Prop where
  state : p'.state = p.state ∨ ∃ e ∈ rest, e.id = id ∧ e.restartConfig ≠ none
  counter : ∀ e ∈ rest, e.id = id → e.restartConfig ≠ none → p'.restartState = p.restartState

variable {e : ExitedProcess} {rest : List ExitedProcess} {v v' : World} {q q' : Process}

theorem Process.Pending.of_eq (hstate : p'.state = p.state) (hcounter : p'.restartState = p.restartState) :
    Process.Pending rest id p p' := ⟨.inl hstate, fun _ _ _ _ => hcounter⟩

/-- The first exit concerns another entry, or asks for no restart. -/
theorem Process.Pending.drop (h : Process.Pending (e :: rest) id p p') (he : e.id = id → e.restartConfig = none) :
    Process.Pending rest id p p' := by
  refine ⟨?_, fun e' he' => h.counter e' (List.mem_cons_of_mem _ he')⟩
  obtain hstate | ⟨e', he', heq, hrestart⟩ := h.state
  · exact .inl hstate
  · rcases List.mem_cons.mp he' with rfl | he'
    · exact absurd (he heq) hrestart
    · exact .inr ⟨e', he', heq, hrestart⟩

namespace World

/-- As long as the reaper runs, what differs is still pending. -/
structure Scheduling (rest : List ExitedProcess) (w w' : World) : Prop where
  alike : Alike (fun _ => Process.Watched) Eq w w'
  pending : w.reaper = .running → ∀ id p p', w.processes.lookup id = some p → w'.processes.lookup id = some p' →
    Process.Pending rest id p p'

/-- Exits without a restart have been removed. -/
theorem DifferAt.scheduling (h : DifferAt exited w w')
    (hremoved : ∀ e ∈ exited, e.restartConfig = none → w.processes.lookup e.id = none) : Scheduling exited w w' where
  alike := Alike.mono h (fun _ _ _ _ _ hmid => hmid.watched) fun _ _ _ _ _ hch => hch
  pending _ id p p' hp hp' := by
    have hsettled := (h.processes.entry id p p' hp hp').settled List.not_mem_nil
    refine ⟨?_, hsettled.counter⟩
    obtain hstate | ⟨e, he, rfl⟩ := hsettled.state
    · exact .inl hstate
    · refine .inr ⟨e, he, rfl, fun hnone => ?_⟩
      rw [hremoved e he hnone] at hp
      cases hp

theorem Alike.release {E : ProcessId → Process → Process → Prop} (h : Alike E Eq w w') (env : Env)
    (hchild : p'.child = p.child) : Alike E Eq (p.release env w) (p'.release env w') := by
  unfold Process.release Process.joinReaders
  rw [hchild]
  cases p.child with
  | none => exact h.tick OsChild.stable_eq env
  | some c => exact (h.wait env c).tick OsChild.stable_eq env

theorem Alike.panicked {E : ProcessId → Process → Process → Prop} {C : OsChild → OsChild → Prop}
    (h : Alike E C w w') : Alike E C { w with reaper := .panicked } { w' with reaper := .panicked } :=
  { h with reaper := rfl }

/-- Both write the entry of `e`, which is the same in both afterwards. -/
theorem Scheduling.write (h : Scheduling (e :: rest) w w') (hr : w.reaper = .running)
    (hv : Alike (fun _ => Process.Watched) Eq v v') (hmap : v.processes = w.processes)
    (hmap' : v'.processes = w'.processes) (hq : q.Watched q') (hstate : q'.state = q.state)
    (hcounter : q'.restartState = q.restartState) : Scheduling rest (v.put e.id q) (v'.put e.id q') where
  alike := hv.put hq
  pending _ id p p' hp hp' := by
    rw [put_processes, hmap, AssocMap.lookup_replace] at hp
    rw [put_processes, hmap', AssocMap.lookup_replace] at hp'
    split_ifs at hp hp' with hid
    · obtain ⟨_, _, rfl⟩ := Option.map_eq_some_iff.mp hp
      obtain ⟨_, _, rfl⟩ := Option.map_eq_some_iff.mp hp'
      exact .of_eq hstate hcounter
    · exact (h.pending hr id p p' hp hp').drop fun heq => absurd heq.symm hid

theorem Scheduling.unlock (m : Guards.Mode) (id : ProcessId) (h : Scheduling rest w w') :
    Scheduling rest (w.unlock m id) (w'.unlock m id) := ⟨h.alike.unlock _ _ id id, h.pending⟩

/-- A tracked process whose restart is scheduled ends up the same in both worlds. -/
theorem Scheduling.schedule {config : ProcessConfig} {label : Label} (h : Scheduling (e :: rest) w w') (env : Env)
    (now : Instant) (hr : w.reaper = .running) (hconfig : e.restartConfig = some (config, label))
    (hp : w.processes.lookup e.id = some p) (hp' : w'.processes.lookup e.id = some p') :
    Scheduling rest (scheduleEntry env now e w) (scheduleEntry env now e w') := by
  have hwatched := h.alike.processes.entry _ p p' hp hp'
  have hcounter : p'.restartState = p.restartState :=
    (h.pending hr _ p p' hp hp').counter e List.mem_cons_self rfl (by simp [hconfig])
  have hreleased := (h.alike.lock .exclusive .exclusive e.id e.id).release env hwatched.child
  have hos : OsStep p.handles (fun _ => True) (w.lock .exclusive e.id) (p.release env (w.lock .exclusive e.id)) :=
    Process.osStep_release
  have hos' : OsStep p'.handles (fun _ => True) (w'.lock .exclusive e.id)
      (p'.release env (w'.lock .exclusive e.id)) := Process.osStep_release
  have hentry : ∀ rs : Option RestartState,
      Process.Watched { p with child := none, restartState := rs, state := .restarting }
        { p' with child := none, restartState := rs, state := .restarting } := fun rs =>
    { hwatched with child := rfl, times := rfl, state := .inl rfl }
  simp only [scheduleEntry, hconfig, lock_processes, hp, hp', hcounter]
  cases hrs : p.restartState with
  | none => exact (h.write hr hreleased hos.processes hos'.processes (hentry none) rfl rfl).unlock .exclusive e.id
  | some rs =>
    cases hschedule : scheduleState env now config rs with
    | some rs' =>
      simp only [hschedule]
      exact (h.write hr hreleased hos.processes hos'.processes (hentry rs') rfl rfl).unlock .exclusive e.id
    | none =>
      -- the thread has ended: nothing more is promised
      have hcounted : Process.Watched { p with child := none, restartState := some rs.recordRestart }
          { p' with child := none, restartState := some rs.recordRestart } :=
        { hwatched with child := rfl, times := rfl }
      simp only [hschedule]
      refine ⟨Alike.panicked (Alike.unlock _ _ _ _ (hreleased.put hcounted)), fun hrunning => ?_⟩
      cases hrunning

/-- One section of Phase 3 in each world. -/
theorem Scheduling.step (h : Scheduling (e :: rest) w w') (env : Env) (now : Instant) :
    Scheduling rest (w.ifRunning (scheduleEntry env now e)) (w'.ifRunning (scheduleEntry env now e)) := by
  by_cases hr : w.reaper = .running
  · have hr' : w'.reaper = .running := h.alike.reaper.trans hr
    simp only [ifRunning, hr, hr', ↓reduceIte]
    cases hconfig : e.restartConfig with
    | none =>
      simp only [scheduleEntry, hconfig]
      exact ⟨h.alike, fun hr id p p' hp hp' => (h.pending hr id p p' hp hp').drop fun _ => hconfig⟩
    | some r =>
      obtain ⟨config, label⟩ := r
      rcases h.alike.processes.lookup_cases e.id with ⟨hp, hp'⟩ | ⟨p, p', hp, hp', _⟩
      · simp only [scheduleEntry, hconfig, lock_processes, hp, hp']
        refine ⟨(h.alike.lock _ _ e.id e.id).unlock _ _ e.id e.id, fun hr id p p' hq hq' => ?_⟩
        refine (h.pending hr id p p' hq hq').drop fun hid => ?_
        subst hid
        exact absurd (hp.symm.trans hq) (by simp)
      · exact h.schedule env now hr hconfig hp hp'
  · have hr' : w'.reaper ≠ .running := fun hr' => hr (h.alike.reaper.symm.trans hr')
    simp only [ifRunning, hr, hr', ↓reduceIte]
    exact ⟨h.alike, fun hrunning => absurd hrunning hr⟩

theorem Scheduling.phase3 (env : Env) (now : Instant) : ∀ (exited : List ExitedProcess) (w w' : World),
    Scheduling exited w w' → Scheduling [] (w.phase3 env now exited) (w'.phase3 env now exited)
  | [], _, _, h => h
  | _ :: exited, _, _, h => Scheduling.phase3 env now exited _ _ (h.step env now)

/-- When Phase 3 is over, the worlds agree. -/
theorem Scheduling.mirrors (h : Scheduling [] w w') (hr : w.reaper = .running) : Mirrors w w' := by
  refine h.alike.mono (fun id p p' hp hp' hwatched => ⟨hwatched.toCopy, ?_⟩) fun _ _ _ _ _ hch => hch
  obtain hstate | ⟨e, he, _⟩ := (h.pending hr id p p' hp hp').state
  · exact hstate
  · cases he

/-! ### The pass -/

theorem Watched.sleep (h : Watched w w') (env : Env) (ns : ℕ) : Watched (w.sleep env ns) (w'.sleep env ns) :=
  ⟨h.alike.sleep OsChild.stable_watched env ns, { (h.tick env).exits with }⟩

theorem Watched.awake (h : Watched w w') (env : Env) (pollInterval : ℕ) :
    Watched (w.awake env pollInterval) (w'.awake env pollInterval) := (h.sleep env pollInterval).tick env

/-- The exits found in a pass are handled alike in both worlds. -/
def PassesAgree (env : Env) (pollInterval : ℕ) (w w' : World) : Prop :=
  ExitsAgree env (w.awake env pollInterval).clock (w.awake env pollInterval) (w'.awake env pollInterval) ∧
    TargetsAgree env pollInterval w w'

instance (w w' : World) : Decidable (PassesAgree env pollInterval w w') := inferInstanceAs (Decidable (_ ∧ _))

theorem Watched.detect (h : Watched w w') (hkey : ∀ i q, w'.processes.lookup i = some q → q.id = i)
    (howned : Owned w') (hagree : PassesAgree env pollInterval w w') :
    (w'.detect env pollInterval).1 = (w.detect env pollInterval).1 ∧
      DifferAt (w.detect env pollInterval).1.exited (w.detect env pollInterval).2 (w'.detect env pollInterval).2 := by
  have hawake := h.awake env pollInterval
  have hstart := osStep_awake (S := ∅) (P := fun _ => True) env pollInterval w'
  obtain ⟨hexits, hmid⟩ := hawake.phase1 (hstart.processes ▸ hkey) (owned_awake howned) hagree.1
  unfold World.detect
  rw [hawake.alike.clock]
  exact ⟨hexits, differAt_of_midway hmid⟩

/-- The cascades of both passes select the same processes. -/
theorem Watched.selects (h : Watched w w') (hkey : ∀ i q, w.processes.lookup i = some q → q.id = i)
    (hkey' : ∀ i q, w'.processes.lookup i = some q → q.id = i) (hagree : PassesAgree env pollInterval w w')
    {o : CascadeOrigin} (ho : o ∈ (w.detect env pollInterval).1.cascadeOrigins) {q q' : Process}
    (hq : (w.detect env pollInterval).2.processes.lookup id = some q)
    (hq' : (w'.detect env pollInterval).2.processes.lookup id = some q') :
    cascadeSelects o q' = cascadeSelects o q := by
  obtain ⟨p, hp, hvisited⟩ := (phase1State_detect env pollInterval hkey).visited id q hq
  obtain ⟨p', hp', hvisited'⟩ := (phase1State_detect env pollInterval hkey').visited id q' hq'
  calc cascadeSelects o q' = cascadeSelects o p' := Process.Visited.cascadeSelects hvisited' o
    _ = cascadeSelects o p := cascadeSelects_eq o (h.alike.processes.entry id p p' hp hp')
        (hagree.2 o ho id (AssocMap.mem_of_lookup hp) p hp p' hp')
    _ = cascadeSelects o q := (Process.Visited.cascadeSelects hvisited o).symm

theorem Watched.afterPhase3 (h : Watched w w') (hkey : ∀ i q, w.processes.lookup i = some q → q.id = i)
    (hkey' : ∀ i q, w'.processes.lookup i = some q → q.id = i) (howned : Owned w')
    (hagree : PassesAgree env pollInterval w w') :
    Scheduling [] (w.afterPhase3 env pollInterval) (w'.afterPhase3 env pollInterval) := by
  obtain ⟨hexits, hdiffer⟩ := h.detect hkey' howned hagree
  have hcascade : DifferAt (w.detect env pollInterval).1.exited (w.cascade env pollInterval)
      (w'.cascade env pollInterval) := by
    unfold World.cascade
    rw [hexits]
    exact hdiffer.phase1b env _ fun o ho id q q' hq hq' => h.selects hkey hkey' hagree ho hq hq'
  have hreported := hcascade.phase2 env (w.detect env pollInterval).1
  have hscheduling := hreported.scheduling fun e he hnone => by
    refine phase2_lookup ?_
    rw [toRemove_detect]
    exact List.mem_map_of_mem (List.mem_filter.mpr ⟨he, by simp [hnone]⟩)
  have hclock := (h.awake env pollInterval).alike.clock
  have hreaper := hscheduling.alike.reaper
  unfold World.afterPhase3
  by_cases hr : ((w.cascade env pollInterval).phase2 env (w.detect env pollInterval).1).reaper = .running
  · simp only [passDetect_eq, hexits, hclock, ifRunning, hreaper, hr, ↓reduceIte]
    exact Scheduling.phase3 env _ _ _ _ hscheduling
  · simp only [passDetect_eq, hexits, ifRunning, hreaper, hr, ↓reduceIte]
    exact ⟨hscheduling.alike, fun hrunning => absurd hrunning hr⟩

/-- A pass waits for a guard of its own thread in both worlds or in neither. -/
theorem Watched.restartsUnblocked {σ : Type*} {shard : ProcessId → σ} (h : Watched w w')
    (hkey : ∀ i q, w.processes.lookup i = some q → q.id = i) (hkey' : ∀ i q, w'.processes.lookup i = some q → q.id = i)
    (howned : Owned w') (hagree : PassesAgree env pollInterval w w') :
    RestartsUnblocked shard env pollInterval w' ↔ RestartsUnblocked shard env pollInterval w := by
  have hafter := h.afterPhase3 hkey hkey' howned hagree
  have hclock := (h.awake env pollInterval).alike.clock
  have hbefore : ∀ v : World, v.beforePhase4 env pollInterval =
      ((v.awake env pollInterval).clock, v.afterPhase3 env pollInterval) := fun _ => rfl
  simp only [RestartsUnblocked, hbefore, hclock, hafter.alike.reaper]
  refine imp_congr_right fun hr => ?_
  have hmirrors := hafter.mirrors hr
  rw [hmirrors.restartIds]
  exact Mirrors.restartsUnblocked (hmirrors.touch _ _ _ _) env _

/-- A pass in each world. Where the reaper goes on, the worlds agree afterwards. -/
theorem Watched.reaperPass (h : Watched w w') (hkey : ∀ i q, w.processes.lookup i = some q → q.id = i)
    (hkey' : ∀ i q, w'.processes.lookup i = some q → q.id = i) (howned : Owned w')
    (hagree : PassesAgree env pollInterval w w') :
    Alike (fun _ => Process.Watched) Eq (w.reaperPass env pollInterval) (w'.reaperPass env pollInterval) ∧
      ((w.reaperPass env pollInterval).reaper = .running →
        Mirrors (w.reaperPass env pollInterval) (w'.reaperPass env pollInterval)) := by
  have hafter := h.afterPhase3 hkey hkey' howned hagree
  have hclock := (h.awake env pollInterval).alike.clock
  have heq : ∀ v : World, v.reaperPass env pollInterval =
      (((v.afterPhase3 env pollInterval).ifRunning (phase4 env (v.awake env pollInterval).clock)).ifRunning
        (phase5 env)).ifRunning (phase6 env) := fun _ => rfl
  have hended : ∀ (v : World) (f : World → World), v.reaper ≠ .running → v.ifRunning f = v := fun v f hr => if_neg hr
  rw [heq w, heq w', hclock]
  by_cases hr : (w.afterPhase3 env pollInterval).reaper = .running
  · have h4 := Alike.ifRunning (hafter.mirrors hr) fun _ => Mirrors.phase4 (hafter.mirrors hr) env (w.awake env pollInterval).clock
    have h5 := Alike.ifRunning h4 fun _ => Mirrors.phase5 h4 env
    have h6 := Alike.ifRunning h5 fun _ => Mirrors.phase6 h5 env
    exact ⟨Alike.mono h6 (fun _ _ _ _ _ hp => hp.watched) fun _ _ _ _ _ hch => hch, fun _ => h6⟩
  · have hr' : (w'.afterPhase3 env pollInterval).reaper ≠ .running := fun hr' => hr (hafter.alike.reaper.symm.trans hr')
    simp only [hended _ _ hr, hended _ _ hr']
    exact ⟨hafter.alike, fun hrunning => absurd hrunning hr⟩

end World

end ProcessManager
