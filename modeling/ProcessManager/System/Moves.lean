import ProcessManager.System.Readiness

/-! Every call of the manager and the later phases of a pass, cut into moves: one change
of an entry at a time, with what the code knows about the entry when it changes it. To be
an invariant of all runs, a property has to survive each kind of move and Phases 1 to 3. -/

namespace ProcessManager

/-! ### Changes of one entry -/

/-- The same process, with a counter that was not raised. -/
structure Process.Same (p p' : Process) : Prop where
  id : p'.id = p.id
  config : p'.config = p.config
  tracks : p'.restartState.isSome = p.restartState.isSome
  count : ∀ rs', p'.restartState = some rs' →
    ∃ rs, p.restartState = some rs ∧ rs'.restartCount.toNat ≤ rs.restartCount.toNat

/-- A change of bookkeeping fields only. -/
structure Process.Adjusted (p p' : Process) : Prop extends Process.Same p p' where
  child : p'.child = p.child
  pid : p'.pid = p.pid
  state : p'.state = p.state
  cascadeFlag : p'.cascadeFlag = p.cascadeFlag
  waitingSince : p'.waitingSince = p.waitingSince

/-- A new child for an entry without one. -/
structure Process.Respawned (child pid : ℕ) (p p' : Process) : Prop extends Process.Same p p' where
  child : p'.child = some child
  pid : p'.pid = pid
  state : p'.state = .starting
  cascadeFlag : p'.cascadeFlag = p.cascadeFlag

/-- A new entry. -/
structure Process.Fresh (id : ProcessId) (p : Process) : Prop where
  id : p.id = id
  cascadeFlag : p.cascadeFlag = false
  tracks : p.restartState.isSome = p.config.restartOnExit
  count : ∀ rs, p.restartState = some rs → rs.restartCount = 0

theorem Process.Same.refl (p : Process) : p.Same p := ⟨rfl, rfl, rfl, fun rs h => ⟨rs, h, le_rfl⟩⟩

theorem Process.Same.of_eq {p p' : Process} (hid : p'.id = p.id) (hconfig : p'.config = p.config)
    (h : p'.restartState = p.restartState) : p.Same p' :=
  ⟨hid, hconfig, by rw [h], fun rs hrs => ⟨rs, h ▸ hrs, le_rfl⟩⟩

/-- The restart state is rewritten without touching the counter. -/
theorem Process.Same.of_map {p p' : Process} {f : RestartState → RestartState}
    (hid : p'.id = p.id) (hconfig : p'.config = p.config)
    (h : p'.restartState = p.restartState.map f)
    (hf : ∀ rs, (f rs).restartCount.toNat ≤ rs.restartCount.toNat) : p.Same p' where
  id := hid
  config := hconfig
  tracks := by rw [h, Option.isSome_map]
  count rs' hrs' := by
    obtain ⟨rs, hrs, rfl⟩ := Option.map_eq_some_iff.mp (h ▸ hrs')
    exact ⟨rs, hrs, hf rs⟩

/-- The places where a call adds an entry, or acts on one whatever state it is in. -/
inductive Point where
  | start | stop | batch | reinsert | signal | timeout
  deriving DecidableEq

namespace World

open Relation

/-- What a batch leaves: entries outside stay, members are gone or back as `Failed`. -/
def Returned (C : Point → World → Process → Prop) (ids : List ProcessId) (w : World) (id : ProcessId)
    (p p' : Process) : Prop :=
  (id ∉ ids ∧ p' = p) ∨ (p' = { p with state := .failed } ∧ C .reinsert w p)

/-- One move. `C` holds of every entry that is acted on at one of the points. -/
inductive Move (env : Env) (C : Point → World → Process → Prop) : World → World → Prop
  /-- Time passes, events are sent, guards are taken and entries removed. -/
  | frame {w w'} (h : MapStep Kept ∅ (fun _ => False) w w') : Move env C w w'
  | count {w} (n m : ℕ) : Move env C w
      { w with nextId := w.nextId + n, nextSpawnSequence := w.nextSpawnSequence + m }
  | poll {id p w} (hp : w.processes.lookup id = some p) : Move env C w (w.pollEntry env id p)
  /-- `stop`: the entry is removed, signalled and waited for. -/
  | stop {id p w w'} (hp : w.processes.lookup id = some p) (hC : C .stop w p)
      (h : OsStep p.handles (fun k => KillsFrom p w k ∧ p.state ≠ .restarting ∧ p.state ≠ .waiting)
        (w.remove id) w') : Move env C w w'
  | batch {ids w w'} (hC : ∀ id ∈ ids, ∀ p, w.processes.lookup id = some p → C .batch w p)
      (h : MapStep (Returned C ids w) (w.batchHandles ids) (w.KillsBatch ids) w w') : Move env C w w'
  | signal {id p w w'} (hp : w.processes.lookup id = some p) (hstate : p.state ≠ .restarting)
      (hC : C .signal w p)
      (h : OsStep ∅ (fun k => k.pid ≠ 0 → KillsFrom p w k) w w') : Move env C w w'
  | adjust {id p p' w} (hp : w.processes.lookup id = some p) (hadjust : p.Adjusted p') :
      Move env C w (w.put id p')
  /-- `restart` drops the old child of a process in `Restarting`. -/
  | reset {id p w w'} (hp : w.processes.lookup id = some p) (hstate : p.state = .restarting)
      (h : OsStep p.handles (fun _ => False) w w') : Move env C w (w'.put id
        { p with child := none, restartState := p.restartState.map .reset })
  /-- A new child for a process that is due. -/
  | spawn {id p p' site deps w w'} (hp : w.processes.lookup id = some p)
      (hstate : p.state = .restarting ∨ p.state = .waiting)
      (h : Spawned env site id p.config deps w w')
      (hspawn : p.Respawned w.nextChild (w.nextPid env) p') : Move env C w (w'.put id p')
  | insert {id p site deps w w'} (hC : C .start w p) (h : Spawned env site id p.config deps w w')
      (hfresh : p.Fresh id) (hchild : p.child = some w.nextChild) (hpid : p.pid = w.nextPid env)
      (hstate : p.state = .starting) : Move env C w (w'.insert env id p)
  | insertWaiting {id p w} (hC : C .start w p) (hfresh : p.Fresh id) (hchild : p.child = none)
      (hpid : p.pid = 0) (hstate : p.state = .waiting) (hsince : p.waitingSince.isSome = true) :
      Move env C w (w.insert env id p)
  /-- `perform_restart` finds dependencies that are not `Running`. -/
  | toWaiting {id p p' w} (hp : w.processes.lookup id = some p) (hstate : p.state = .restarting)
      (hsame : p.Same p') (hchild : p'.child = p.child) (hpid : p'.pid = p.pid)
      (hstate' : p'.state = .waiting) (hflag : p'.cascadeFlag = false)
      (hsince : p'.waitingSince.isSome = true) : Move env C w (w.put id p')
  | timeout {id p w} (hp : w.processes.lookup id = some p) (hC : C .timeout w p) :
      Move env C w (w.put id { p with state := .failed })
  /-- Phase 6 removes and signals a `Running` process. -/
  | failFast {id p w w'} (hp : w.processes.lookup id = some p) (hstate : p.state = .running)
      (hr : w.reaper = .running) (h : MapStep Kept ∅ (KillsFrom p w) w w') : Move env C w w'

/-- Any number of moves. -/
abbrev Moves (env : Env) (C : Point → World → Process → Prop) : World → World → Prop :=
  ReflTransGen (Move env C)

variable {env : Env} {C : Point → World → Process → Prop} {w w' w'' : World} {id : ProcessId}
  {p : Process}

/-- The rule for invariants. -/
theorem Moves.invariant {I : World → Prop} (hstep : ∀ w w', I w → Move env C w w' → I w')
    (h : Moves env C w w') (hw : I w) : I w' := by
  induction h with
  | refl => exact hw
  | tail _ hmove ih => exact hstep _ _ ih hmove

theorem Moves.os (h : OsStep ∅ (fun _ => False) w w') : Moves env C w w' :=
  .single (.frame (.of_osStep kept_refl h))

theorem Moves.kept (h : MapStep Kept ∅ (fun _ => False) w w') : Moves env C w w' :=
  .single (.frame h)

theorem reaper_move (h : Move env C w w') :
    w'.reaper = w.reaper ∨ w'.ReaperEnded := by
  cases h with
  | frame hstep => exact hstep.reaper
  | poll => exact .inl (Process.osStep_pollState (P := fun _ => True)).reaper
  | stop _ _ hstep => exact .inl hstep.reaper
  | batch _ hstep => exact hstep.reaper
  | signal _ _ _ hstep => exact .inl hstep.reaper
  | reset _ _ hstep => exact .inl hstep.reaper
  | spawn _ _ hspawn => exact .inl hspawn.reaper
  | insert _ hspawn => exact .inl hspawn.reaper
  | failFast _ _ _ hstep => exact hstep.reaper
  | count | adjust | insertWaiting | toWaiting | timeout => exact .inl rfl

theorem receiver_move (h : Move env C w w') : w'.receiverAlive = true → w.receiverAlive = true := by
  cases h with
  | frame hstep => exact hstep.receiver
  | poll => exact (Process.osStep_pollState (P := fun _ => True)).receiver
  | stop _ _ hstep => exact hstep.receiver
  | batch _ hstep => exact hstep.receiver
  | signal _ _ _ hstep => exact hstep.receiver
  | reset _ _ hstep => exact hstep.receiver
  | spawn _ _ hspawn => exact hspawn.receiver
  | insert _ hspawn => exact hspawn.receiver
  | failFast _ _ _ hstep => exact hstep.receiver
  | count | adjust | insertWaiting | toWaiting | timeout => exact fun h => h

theorem nextId_move (h : Move env C w w') : w.nextId ≤ w'.nextId := by
  cases h with
  | frame hstep => exact hstep.nextId.ge
  | count n m => exact Nat.le_add_right _ _
  | poll => exact (Process.osStep_pollState (P := fun _ => True)).nextId.ge
  | stop _ _ hstep => exact hstep.nextId.ge
  | batch _ hstep => exact hstep.nextId.ge
  | signal _ _ _ hstep => exact hstep.nextId.ge
  | reset _ _ hstep => exact hstep.nextId.ge
  | spawn _ _ hspawn => exact hspawn.nextId.ge
  | insert _ hspawn => exact hspawn.nextId.ge
  | failFast _ _ _ hstep => exact hstep.nextId.ge
  | adjust | insertWaiting | toWaiting | timeout => exact le_rfl

/-! ### Queries, signals and stops -/

theorem moves_allDepsRunning (deps : List ProcessId) (w : World) :
    Moves env C w (w.allDepsRunning env deps).2 := by
  refine allDepsRunning_invariant (I := Moves env C w) ?_ ?_ ?_ deps .refl
  · exact fun id w' h => h.trans (Moves.os (.lock _ _ _))
  · exact fun id w' h => h.trans (Moves.os (.unlock _ _ _))
  · exact fun id p w' h hp => h.tail (.poll hp)

theorem moves_query (id : ProcessId) (w : World) : Moves env C w (w.query env id) := by
  unfold query
  split
  · next p hp => exact .single (.poll hp)
  · exact .refl

/-- The condition on a `send_signal`. -/
def SignalMeets (C : Point → World → Process → Prop) (id : ProcessId) (w : World) : Prop :=
  ∀ p, w.processes.lookup id = some p → p.state ≠ .restarting → C .signal w p

theorem moves_sendSignal {signal : Signal} (h : SignalMeets C id w) :
    Moves env C w (w.sendSignal env id signal).2 := by
  unfold sendSignal
  split
  · exact .refl
  · next p hp =>
    split_ifs with hstate
    · exact .refl
    · have hkill : OsStep ∅ (fun k => k.pid ≠ 0 → KillsFrom p w k) w (w.kill env .sendSignal p signal) :=
        osStep_kill env fun hpid => ⟨rfl, rfl, hpid, rfl, ages_tick env w⟩
      split <;> exact .single (.signal hp hstate (h p hp hstate) hkill)

/-- The condition on a single `stop`. -/
def StopMeetsAt (C : Point → World → Process → Prop) (id : ProcessId) (w : World) : Prop :=
  ∀ p, w.processes.lookup id = some p → C .stop w p

theorem moves_stop (h : StopCalls env (StopMeetsAt C) id w) : Moves env C w (w.stop env id).2 := by
  refine stop_invariant (I := Moves env C w) ?_ .refl h
  intro id' w' hw' hC
  cases hp : w'.processes.lookup id' with
  | none => rw [stopOne_of_untracked hp]; exact hw'
  | some p => exact hw'.tail (.stop hp (hC p hp) (osStep_stopOne hp))

/-- The condition on a batch. -/
def BatchMeets (env : Env) (C : Point → World → Process → Prop) (ids : List ProcessId) (w : World) :
    Prop :=
  ∀ id ∈ ids, ∀ p, w.processes.lookup id = some p →
    C .batch w p ∧ (p.markStopping ∈ (w.stopManyKill env ids).1.toReinsert → C .reinsert w p)

theorem moves_stopMany {ids : List ProcessId} (hkey : ∀ i q, w.processes.lookup i = some q → q.id = i)
    (h : BatchMeets env C ids w) : Moves env C w (w.stopMany env ids).2 := by
  have hstep : MapStep (BatchLeft env ids w) _ _ w _ := mapStep_stopMany hkey ids
  refine .single (.batch (fun id hid p hp => (h id hid p hp).1) { hstep with processes := ?_ })
  intro i q' hq'
  obtain ⟨q, hq, ⟨hi, rfl⟩ | ⟨hi, rfl, hback⟩⟩ := hstep.processes i q' hq'
  · exact ⟨q', hq, .inl ⟨hi, rfl⟩⟩
  · exact ⟨q, hq, .inr ⟨rfl, (h i hi q hq).2 hback⟩⟩

/-! ### Starts and restarts -/

theorem moves_markStartedEntry (id : ProcessId) (w : World) :
    Moves env C w (w.markStartedEntry env id) := by
  unfold markStartedEntry
  split
  · next p hp =>
    split
    · next rs hrs =>
      refine (Moves.os (osStep_tick env w)).tail (.adjust hp {
        toSame := .of_map (f := fun rs => rs.markStarted (w.tick env).clock) rfl rfl ?_ fun _ => le_rfl
        child := rfl, pid := rfl, state := rfl, cascadeFlag := rfl, waitingSince := rfl })
      rw [hrs, Option.map_some]
    · exact .refl
  · exact .refl

theorem fresh_spawnedProcess (id : ProcessId) (label : Label) (config : ProcessConfig)
    (deps : List ProcessId) (w : World) : (w.spawnedProcess env id label config deps).Fresh id where
  id := rfl
  cascadeFlag := rfl
  tracks := by
    simp only [spawnedProcess]
    split_ifs with h <;> simp [h]
  count rs hrs := by
    simp only [spawnedProcess] at hrs
    split_ifs at hrs
    cases hrs
    rfl

theorem fresh_waitingProcess (id : ProcessId) (label : Label) (config : ProcessConfig)
    (deps : List ProcessId) (w : World) : (w.waitingProcess env id label config deps).Fresh id where
  id := rfl
  cascadeFlag := rfl
  tracks := by
    simp only [waitingProcess]
    split_ifs with h <;> simp [h]
  count rs hrs := by
    simp only [waitingProcess] at hrs
    split_ifs at hrs
    cases hrs
    rfl

/-- Spawn and insert, as `start` and `restart` do it. -/
theorem moves_insert {site : SpawnSite} {label : Label} {config : ProcessConfig}
    (hC : ∀ p, p.id = id → C .start w p) (deps : List ProcessId) (hok : w.spawnError env config = none) :
    Moves env C w (((w.spawnProcess env site id config deps).bumpSequence.insert env id
      (w.spawnedProcess env id label config deps)).markStartedEntry env id) := by
  have hspawn := Spawned.of_ok site id deps hok
  have hbump : Spawned env site id config deps w (w.spawnProcess env site id config deps).bumpSequence :=
    { hspawn with }
  exact (ReflTransGen.single (.insert (p := w.spawnedProcess env id label config deps) (hC _ rfl) hbump
    (fresh_spawnedProcess ..) rfl rfl rfl)).trans (moves_markStartedEntry _ _)

theorem moves_startWaiting (hC : ∀ p, p.id = id → C .start (w.tick env).bumpSequence p) (label : Label)
    (config : ProcessConfig) (deps : List ProcessId) :
    Moves env C w (w.startWaiting env id label config deps) := by
  have hbump : Moves env C w (w.tick env).bumpSequence :=
    (Moves.os (osStep_tick env w)).tail (.count 0 1)
  exact hbump.tail (.insertWaiting (hC _ rfl) (fresh_waitingProcess ..) rfl rfl rfl rfl)

/-- A world in which `start` may insert its entry. -/
structure Starting (w w' : World) : Prop where
  nextId : w'.nextId = w.nextId + 1
  spawns : w'.spawns = w.spawns

/-- `start` inserts under the next id. -/
theorem moves_start (hC : ∀ w', Starting w w' → ∀ p, p.id = ⟨w.nextId⟩ → C .start w' p)
    (label : Label) (config : ProcessConfig) :
    Moves env C w (w.start env label config).2 := by
  have hnext : Moves env C w { w with nextId := w.nextId + 1 } := .single (.count 1 0)
  obtain heq | heq | ⟨w₁, rfl, resolved, _, hcases⟩ := start_cases env label config w
  · rw [heq]
  · rw [heq]; exact hnext
  · have hpolled := hnext.trans (moves_allDepsRunning resolved _)
    have hmap : MapStep _ _ _ _ _ := mapStep_allDepsRunning env (P := fun _ => True) resolved
      { w with nextId := w.nextId + 1 }
    obtain ⟨_, _, heq⟩ | heq | heq := hcases <;> rw [heq]
    · simp only [startNow]
      split
      · exact hpolled.trans (Moves.os (osStep_spawnProcess (by assumption)))
      · next hok => exact hpolled.trans (moves_insert (hC _ ⟨hmap.nextId, hmap.spawns⟩) _ hok)
    · exact hpolled.trans (moves_startWaiting (hC _ ⟨hmap.nextId, hmap.spawns⟩) ..)
    · have hstarting : Starting w (({ w with nextId := w.nextId + 1 } : World).tick env).bumpSequence :=
        ⟨rfl, rfl⟩
      exact hnext.trans (moves_startWaiting (hC _ hstarting) ..)

theorem moves_restartInPlace (hp : w.processes.lookup id = some p) (hstate : p.state = .restarting) :
    Moves env C w (w.restartInPlace env id p).2 := by
  obtain ⟨w₁, hstep, heq⟩ := restartReset_eq (P := fun _ => False) env hp
  set q : Process := { p with child := none, restartState := p.restartState.map .reset } with hq
  have hreset : Moves env C w (w.restartReset env id) := heq ▸ .single (.reset hp hstate hstep)
  have hlookup : (w.restartReset env id).processes.lookup id = some q := by
    rw [heq, put_processes, hstep.processes, AssocMap.lookup_replace, if_pos rfl, hp, Option.map_some]
  simp only [restartInPlace]
  split
  · next e he => exact hreset.trans (Moves.os (osStep_spawnProcess he))
  · next hok =>
    have hspawn := Spawned.of_ok .restart id p.resolvedDeps hok
    set w₂ := (World.spawnProcess env .restart id p.config p.resolvedDeps
      (w.restartReset env id)).bumpSequence with hw₂
    have hbump : Spawned env .restart id q.config p.resolvedDeps (w.restartReset env id) w₂ :=
      { hspawn with }
    have hlookup₂ : w₂.processes.lookup id = some q := by rw [hbump.processes, hlookup]
    simp only [restartStore, hlookup₂]
    exact hreset.tail (.spawn hlookup (.inl hstate) (hbump.tick_if _)
      { toSame := .of_map (f := fun rs => rs.markStarted _) rfl rfl rfl fun _ => le_rfl
        child := rfl, pid := rfl, state := rfl, cascadeFlag := rfl })

/-- The condition on a `restart`: its stop, if it makes one. -/
def RestartMeets (env : Env) (C : Point → World → Process → Prop) (id : ProcessId) (w : World) : Prop :=
  ∀ p, w.processes.lookup id = some p → p.state ≠ .restarting → StopCalls env (StopMeetsAt C) id w

theorem moves_restart (hC : ∀ w p, p.id = id → C .start w p) (h : RestartMeets env C id w) :
    Moves env C w (w.restart env id).2 := by
  obtain ⟨_, heq⟩ | ⟨p, hp, ⟨hstate, heq⟩ | ⟨hstate, heq | heq⟩⟩ := restart_cases env id w <;> rw [heq]
  · exact moves_restartInPlace hp hstate
  · exact moves_stop (h p hp hstate)
  · have hstop := moves_stop (h p hp hstate)
    simp only [restartInsert]
    split
    · next e he => exact hstop.trans (Moves.os (osStep_spawnProcess he))
    · next hok => exact hstop.trans (moves_insert (hC _) _ hok)

theorem moves_restartAll {ids : List ProcessId} (hC : ∀ w p, p.id ∈ ids → C .start w p)
    (h : RestartsMeet env (RestartMeets env C) ids w) : Moves env C w (w.restartAll env ids).2 := by
  induction ids generalizing w with
  | nil => exact .refl
  | cons id ids ih =>
    have hone : Moves env C w (w.restart env id).2 :=
      moves_restart (fun w p hp => hC w p (hp ▸ List.mem_cons_self)) h.1
    simp only [restartAll]
    split
    · exact hone
    · next new hnew =>
      exact hone.trans (ih (fun w p hp => hC w p (List.mem_cons_of_mem _ hp)) (h.2 (by rw [hnew]; rfl)))

theorem moves_depsPoll {config : ProcessConfig} {deadline : Instant}
    (h : deadline ≤ (w.tick env).clock → ∀ p, w.processes.lookup id = some p → C .timeout w p) :
    Moves env C w (w.depsPoll env id config deadline).2 := by
  have htick : Moves env C w (w.tick env) := .os (osStep_tick env w)
  have hsleep : Moves env C w ((w.tick env).sleep env (millis 50)) :=
    htick.trans (Moves.os (osStep_sleep env _ _))
  simp only [depsPoll, tick_processes]
  split_ifs with hdeadline
  · simp only
    split
    · next p hp =>
      have htimeout : Moves env C w (w.put id { p with state := .failed }) :=
        .single (.timeout hp (h hdeadline p hp))
      exact htimeout.trans (Moves.os (osStep_tick env _))
    · exact htick
  · split
    · split
      · exact htick
      · exact hsleep
      · exact htick
    · exact htick

/-! ### Phase 4 -/

/-- Polling leaves an entry in `Restarting` alone. -/
theorem lookup_allDepsRunning (env : Env) (hp : w.processes.lookup id = some p) (hstate : p.state = .restarting)
    (deps : List ProcessId) : (w.allDepsRunning env deps).2.processes.lookup id = some p := by
  refine allDepsRunning_invariant (I := fun w => w.processes.lookup id = some p)
    (fun _ _ h => h) (fun _ _ h => h) ?_ deps hp
  intro i q w' h hq
  rw [pollEntry_processes, AssocMap.lookup_replace]
  split_ifs with hi
  · obtain rfl : p = q := Option.some.inj ((hi ▸ h).symm.trans hq)
    rw [Process.pollState_of_settled (by simp [hstate]) (by simp [hstate]), ← hi, h, Option.map_some]
  · exact h

theorem moves_respawn (resolved : List ProcessId) (hp : w.processes.lookup id = some p)
    (hstate : p.state = .restarting) :
    Moves env C w (w.respawn env id { p with resolvedDeps := resolved }) := by
  obtain ⟨w', hstep, heq⟩ | ⟨w', now, hspawn, heq⟩ :=
    respawn_cases (P := fun _ => False) env id { p with resolvedDeps := resolved } w <;> rw [heq]
  · exact (Moves.os hstep).trans (Moves.kept (mapStep_failSpawn _ _ _))
  · refine (ReflTransGen.single (.spawn hp (.inl hstate) hspawn ?_)).trans (Moves.os (.unlock _ _ _))
    exact {
      toSame := .of_map (f := fun rs => (rs.markStarted now).cancelPendingRestart) rfl rfl rfl
        fun _ => le_rfl
      child := rfl, pid := rfl, state := rfl, cascadeFlag := rfl }

theorem moves_restartToWaiting {resolved : List ProcessId} (hp : w.processes.lookup id = some p)
    (hstate : p.state = .restarting) : Moves env C w (w.restartToWaiting env id p resolved) := by
  let q : Process := { p with
    state := .waiting
    waitingSince := some (w.tick env).clock
    resolvedDeps := resolved
    cascadeFlag := false }
  have hput : Moves env C w ((w.tick env).put id q) :=
    (Moves.os (osStep_tick env w)).tail
      (.toWaiting hp hstate (.of_eq rfl rfl rfl) rfl rfl rfl rfl rfl)
  exact hput.trans (Moves.os (.unlock _ _ _))

/-- `perform_restart` of an entry that is still in `Restarting`. -/
theorem moves_performRestart (h : ∀ p, w.processes.lookup id = some p → p.state = .restarting) :
    Moves env C w (w.performRestart env id) := by
  have hlock : Moves env C w (w.lock .exclusive id) := .os (.lock _ _ _)
  obtain ⟨_, heq⟩ | ⟨p, hp, ⟨_, heq⟩ | ⟨w₁, resolved, rfl, _, hcases⟩⟩ :=
    performRestart_cases env id w
  · rw [heq]; exact hlock.trans (Moves.os (.unlock _ _ _))
  · rw [heq]; exact hlock.trans (moves_respawn p.resolvedDeps hp (h p hp))
  · have hvisit := hlock.trans (Moves.os (.touch .shared
      (resolveVisits w.processes p.config.dependsOn) (w.lock .exclusive id)))
    have hpolled := hvisit.trans (moves_allDepsRunning resolved _)
    have hp' := lookup_allDepsRunning env (w := (w.lock .exclusive id).touch .shared
      (resolveVisits w.processes p.config.dependsOn)) hp (h p hp) resolved
    obtain ⟨_, _, heq⟩ | heq | heq := hcases <;> rw [heq]
    · exact hpolled.trans (moves_respawn resolved hp' (h p hp))
    · exact hpolled.trans (moves_restartToWaiting hp' (h p hp))
    · exact hvisit.trans (moves_restartToWaiting hp (h p hp))

theorem respawn_lookup {k : ProcessId} (hk : k ≠ id) (p : Process) (w : World) :
    (w.respawn env id p).processes.lookup k = w.processes.lookup k := by
  obtain ⟨w', hstep, heq⟩ | ⟨w', now, hspawn, heq⟩ :=
    respawn_cases (P := fun _ => True) env id p w <;> rw [heq]
  · rw [failSpawn_lookup, if_neg hk, hstep.processes]
  · rw [unlock_processes, put_processes, AssocMap.lookup_replace, if_neg hk, hspawn.processes]

theorem restartToWaiting_lookup {k : ProcessId} (hk : k ≠ id) (p : Process)
    (resolved : List ProcessId) (w : World) :
    (w.restartToWaiting env id p resolved).processes.lookup k = w.processes.lookup k := by
  rw [restartToWaiting, unlock_processes, put_processes, AssocMap.lookup_replace, if_neg hk,
    tick_processes]

/-- `perform_restart` can only poll the other entries. -/
theorem performRestart_other {k : ProcessId} {p' : Process} (hk : k ≠ id)
    (h : (w.performRestart env id).processes.lookup k = some p') :
    ∃ p, w.processes.lookup k = some p ∧ Process.Polled k p p' := by
  obtain ⟨_, heq⟩ | ⟨p, hp, ⟨_, heq⟩ | ⟨w₁, resolved, rfl, _, hcases⟩⟩ :=
    performRestart_cases env id w
  · rw [heq] at h; exact ⟨p', h, .refl k p'⟩
  · rw [heq, respawn_lookup hk] at h; exact ⟨p', h, .refl k p'⟩
  · have hpolled := (mapStep_allDepsRunning env (P := fun _ => True) resolved
      ((w.lock .exclusive id).touch .shared (resolveVisits w.processes p.config.dependsOn))).processes
    obtain ⟨_, _, heq⟩ | heq | heq := hcases <;> rw [heq] at h
    · exact hpolled k p' (respawn_lookup hk _ _ ▸ h)
    · exact hpolled k p' (restartToWaiting_lookup hk _ _ _ ▸ h)
    · rw [restartToWaiting_lookup hk] at h; exact ⟨p', h, .refl k p'⟩

/-- The tracked ones among `ids` are in state `s`. -/
def AllIn (s : ProcessState) (ids : List ProcessId) (w : World) : Prop :=
  ∀ id ∈ ids, ∀ p, w.processes.lookup id = some p → p.state = s

theorem allIn_restartIds (now : Instant) (w : World) : AllIn .restarting (w.restartIds now) w := by
  intro id hid p hp
  obtain ⟨q, hq, hdue⟩ := AssocMap.mem_keysWhere.mp hid
  obtain rfl : p = q := Option.some.inj (hp.symm.trans hq)
  simp only [restartDue, Bool.and_eq_true, decide_eq_true_eq] at hdue
  exact hdue.1

theorem AllIn.performRestart {pending : List ProcessId} (h : AllIn .restarting (id :: pending) w)
    (hfresh : id ∉ pending) : AllIn .restarting pending (w.performRestart env id) := by
  intro k hk p' hp'
  obtain ⟨p, hp, hpolled⟩ := performRestart_other (by rintro rfl; exact hfresh hk) hp'
  have hstate := h k (List.mem_cons_of_mem _ hk) p hp
  obtain rfl | ⟨hs, _⟩ := hpolled
  · exact hstate
  · simp [hstate] at hs

/-- `I` holds, and the ids still to come differ and are in state `s`. -/
structure Upcoming (I : World → Prop) (s : ProcessState) (ids : List ProcessId) (w : World) : Prop where
  holds : I w
  nodup : ids.Nodup
  allIn : AllIn s ids w

/-- What the restarts of Phase 4 keep holds after it. An entry that is due stays in `Restarting` until its turn. -/
theorem phase4_invariant {I : World → Prop} {now : Instant} (hinit : I (w.touch .shared w.processes.keys))
    (hrestart : ∀ id w', (∀ p, w'.processes.lookup id = some p → p.state = .restarting) → I w' →
      I (w'.performRestart env id)) : I (w.phase4 env now) := by
  have hstep : ∀ id ids w', Upcoming I .restarting (id :: ids) w' →
      Upcoming I .restarting ids (w'.performRestart env id) := by
    rintro id ids w' ⟨hI, hnodup, hdue⟩
    obtain ⟨hfresh, hnodup⟩ := List.nodup_cons.mp hnodup
    exact ⟨hrestart id w' (hdue id List.mem_cons_self) hI, hnodup, hdue.performRestart hfresh⟩
  have hstart : Upcoming I .restarting (w.restartIds now) (w.touch .shared w.processes.keys) :=
    ⟨hinit, AssocMap.nodup_keysWhere _ _, allIn_restartIds now w⟩
  exact (Fold.foldl_suffix hstep _ _ hstart).holds

theorem moves_phase4 (now : Instant) (w : World) : Moves env C w (w.phase4 env now) :=
  phase4_invariant (I := Moves env C w) (.os (.touch _ _ _))
    fun _ _ hdue hmoves => hmoves.trans (moves_performRestart hdue)

/-! ### Phases 5 and 6 -/

theorem moves_examine (id : ProcessId) (v : Verdicts) (w : World) :
    Moves env C w (examine env id (v, w)).2 := by
  have hstep := mapStep_examine env (P := fun _ => False) id v w
  obtain heq | ⟨p, hp, _, heq⟩ := (examine_outcome env id v w).1
  · refine .kept { hstep with processes := ?_ }
    rw [heq]
    exact .refl kept_refl _
  · set q := p.extend (newlyResolved w.processes (depsToResolve w.processes p))
    have hput : Moves env C w (w.put id q) :=
      .single (.adjust hp {
        toSame := .of_eq rfl rfl rfl
        child := rfl, pid := rfl, state := rfl, cascadeFlag := rfl, waitingSince := rfl })
    have hframe : MapStep Kept ∅ (fun _ => False) (w.put id q) (examine env id (v, w)).2 := by
      refine { hstep with processes := ?_ }
      rw [heq]
      exact .refl kept_refl _
    exact hput.trans (Moves.kept hframe)

theorem moves_spawnWaitingProcess (h : ∀ p, w.processes.lookup id = some p → p.state = .waiting) :
    Moves env C w (w.spawnWaitingProcess env id) := by
  have hlock : Moves env C w (w.lock .exclusive id) := .os (.lock _ _ _)
  obtain ⟨_, heq⟩ | ⟨p, hp, ⟨w', hstep, heq⟩ | ⟨w', now, hspawn, heq⟩⟩ :=
    spawnWaitingProcess_cases (P := fun _ => False) env id w <;> rw [heq]
  · exact hlock.trans (Moves.os (.unlock _ _ _))
  · exact (hlock.trans (Moves.os hstep)).trans (Moves.kept (mapStep_failSpawn _ _ _))
  · refine (hlock.tail (.spawn hp (.inr (h p hp)) hspawn ?_)).trans (Moves.os (.unlock _ _ _))
    exact {
      toSame := .of_map (f := fun rs => rs.markStarted now) rfl rfl rfl fun _ => le_rfl
      child := rfl, pid := rfl, state := rfl, cascadeFlag := rfl }

theorem spawnWaitingProcess_lookup {k : ProcessId} (hk : k ≠ id) (w : World) :
    (w.spawnWaitingProcess env id).processes.lookup k = w.processes.lookup k := by
  obtain ⟨_, heq⟩ | ⟨p, hp, ⟨w', hstep, heq⟩ | ⟨w', now, hspawn, heq⟩⟩ :=
    spawnWaitingProcess_cases (P := fun _ => True) env id w <;> rw [heq]
  · rfl
  · rw [failSpawn_lookup, if_neg hk, hstep.processes, lock_processes]
  · rw [unlock_processes, put_processes, AssocMap.lookup_replace, if_neg hk, hspawn.processes,
      lock_processes]

theorem AllIn.spawnWaitingProcess {s : ProcessState} {pending : List ProcessId} (h : AllIn s (id :: pending) w)
    (hfresh : id ∉ pending) : AllIn s pending (w.spawnWaitingProcess env id) := by
  intro k hk p hp
  rw [spawnWaitingProcess_lookup (by rintro rfl; exact hfresh hk)] at hp
  exact h k (List.mem_cons_of_mem _ hk) p hp

/-- What Phase 5 found `Waiting` is so after its last verdict. -/
theorem allIn_verdicts {ids : List ProcessId} (hids : ids ⊆ w.waitingIds) :
    AllIn .waiting ids (w.verdicts env).2 := by
  intro id hid p hp
  obtain ⟨q, hq, hstate⟩ := AssocMap.mem_keysWhere.mp (hids hid)
  have hview : view (w.verdicts env).2.processes id = view w.processes id :=
    congrFun (view_examineAll w.waitingIds _) id
  simp only [view, hp, hq, Option.map_some, Option.some.injEq, Prod.mk.injEq] at hview
  rw [hview.1]
  simpa using hstate

/-- `I` holds, and what is to fail still waits and is not to be spawned. -/
structure Undecided (I : World → Prop) (toFail toSpawn : List ProcessId) (w : World) : Prop where
  holds : I w
  allIn : AllIn .waiting toFail w
  other : ∀ i ∈ toFail, i ∉ toSpawn

/-- What the spawns and failures of Phase 5 keep holds after it. -/
theorem phase5_invariant {I : World → Prop} (hverdicts : I (w.verdicts env).2)
    (hspawn : ∀ id w', (∀ p, w'.processes.lookup id = some p → p.state = .waiting) → I w' →
      I (w'.spawnWaitingProcess env id))
    (hfail : ∀ id w', (∀ p, w'.processes.lookup id = some p → p.state = .waiting) → I w' →
      I (w'.failWaiting env id)) : I (w.phase5 env) := by
  obtain ⟨hspawns, hfails, hdisjoint⟩ := disjointly_verdicts env w
  have hstep : ∀ id ids w', Upcoming (Undecided I (w.verdicts env).1.toFail (id :: ids)) .waiting (id :: ids) w' →
      Upcoming (Undecided I (w.verdicts env).1.toFail ids) .waiting ids (w'.spawnWaitingProcess env id) := by
    rintro id ids w' ⟨⟨hI, hwaiting, hother⟩, hnodup, hdue⟩
    obtain ⟨hfresh, hnodup⟩ := List.nodup_cons.mp hnodup
    refine ⟨⟨hspawn id w' (hdue id List.mem_cons_self) hI, fun k hk p hp => ?_,
      fun i hi hmem => hother i hi (List.mem_cons_of_mem _ hmem)⟩, hnodup, hdue.spawnWaitingProcess hfresh⟩
    have hne : k ≠ id := fun heq => hother k hk (heq ▸ List.mem_cons_self)
    rw [spawnWaitingProcess_lookup hne] at hp
    exact hwaiting k hk p hp
  have hstart : Upcoming (Undecided I (w.verdicts env).1.toFail (w.verdicts env).1.toSpawn) .waiting
      (w.verdicts env).1.toSpawn (w.verdicts env).2 :=
    ⟨⟨hverdicts, allIn_verdicts hfails.subset, hdisjoint⟩,
      (toSpawn_sublist env w).nodup (AssocMap.nodup_keysWhere _ _), allIn_verdicts hspawns⟩
  obtain ⟨⟨hI, hwaiting, _⟩, _, _⟩ := Fold.foldl_suffix (I := fun ids =>
    Upcoming (Undecided I (w.verdicts env).1.toFail ids) .waiting ids) hstep _ _ hstart
  have hnodup : (w.verdicts env).1.toFail.Nodup := hfails.nodup (AssocMap.nodup_keysWhere _ _)
  refine (Fold.foldl_invariant (I := Upcoming I .waiting (w.verdicts env).1.toFail) ⟨hI, hnodup, hwaiting⟩
    fun w' id hid hw' => ?_).holds
  refine ifRunning_invariant (I := Upcoming I .waiting (w.verdicts env).1.toFail) hw' fun _ =>
    ⟨hfail id w' (hw'.allIn id hid) hw'.holds, hnodup, fun k hk p hp => ?_⟩
  obtain ⟨q, hq, rfl⟩ := (mapStep_failWaiting (P := fun _ => True) id w').processes k p hp
  exact hw'.allIn k hk p hq

theorem moves_verdicts (w : World) : Moves env C w (w.verdicts env).2 :=
  Fold.foldl_invariant (I := fun x : Verdicts × World => Moves env C w x.2) (.os (.touch _ _ _))
    fun x id _ hx => hx.trans (moves_examine id x.1 x.2)

theorem moves_phase5 (w : World) : Moves env C w (w.phase5 env) :=
  phase5_invariant (I := Moves env C w) (moves_verdicts w)
    (fun _ _ hwaiting hmoves => hmoves.trans (moves_spawnWaitingProcess hwaiting))
    fun id w' _ hmoves => hmoves.trans (Moves.kept (mapStep_failWaiting id w'))

/-- What Phase 6 keeps holds after it. An entry that it looks at stays `Running` until its turn. -/
theorem phase6_invariant {I : World → Prop} (hinit : I (w.touch .shared w.processes.keys))
    (hfail : ∀ id w', w'.reaper = .running → (∀ p, w'.processes.lookup id = some p → p.state = .running) → I w' →
      I (w'.failFast env id)) : I (w.phase6 env) := by
  have hrunning : AllIn .running w.runningWithDeps (w.touch .shared w.processes.keys) := by
    intro id hid p hp
    obtain ⟨q, hq, hrunning⟩ := AssocMap.mem_keysWhere.mp hid
    obtain rfl : p = q := Option.some.inj (hp.symm.trans hq)
    simp only [Bool.and_eq_true, decide_eq_true_eq] at hrunning
    exact hrunning.1
  have hnodup : w.runningWithDeps.Nodup := AssocMap.nodup_keysWhere _ _
  refine (Fold.foldl_invariant (I := Upcoming I .running w.runningWithDeps) ⟨hinit, hnodup, hrunning⟩
    fun w' id hid hw' => ?_).holds
  refine ifRunning_invariant (I := Upcoming I .running w.runningWithDeps) hw' fun hr =>
    ⟨hfail id w' hr (hw'.allIn id hid) hw'.holds, hnodup, fun k hk p hp => ?_⟩
  obtain ⟨q, hq, rfl⟩ := (mapStep_failFast id w').processes k p hp
  exact hw'.allIn k hk p hq

theorem moves_failFast (hr : w.reaper = .running)
    (h : ∀ p, w.processes.lookup id = some p → p.state = .running) :
    Moves env C w (w.failFast env id) := by
  have hstep : MapStep Kept ∅ _ w (w.failFast env id) := mapStep_failFast id w
  cases hp : w.processes.lookup id with
  | none =>
    refine .kept (hstep.mono (fun _ _ _ h => h) subset_rfl ?_)
    rintro k ⟨p, hp', _⟩
    rw [hp] at hp'
    cases hp'
  | some p =>
    refine .single (.failFast hp (h p hp) hr (hstep.mono (fun _ _ _ h => h) subset_rfl ?_))
    rintro k ⟨q, hq, hk⟩
    exact Option.some.inj (hp.symm.trans hq) ▸ hk

theorem moves_phase6 (w : World) : Moves env C w (w.phase6 env) :=
  phase6_invariant (I := Moves env C w) (.os (.touch _ _ _))
    fun _ _ hr hrunning hmoves => hmoves.trans (moves_failFast hr hrunning)

/-! ### The pass -/

/-- The world after Phases 1 to 3. -/
def afterPhase3 (env : Env) (pollInterval : ℕ) (w : World) : World :=
  (w.passDetect env pollInterval).2.2.ifRunning fun w' =>
    phase3 env (w.passDetect env pollInterval).1 (w.passDetect env pollInterval).2.1.exited w'

theorem moves_beforePhase5 (pollInterval : ℕ) (w : World) :
    Moves env C (w.afterPhase3 env pollInterval) (w.beforePhase5 env pollInterval) :=
  ifRunning_invariant .refl fun _ => moves_phase4 _ _

/-- What follows Phase 3 is made of moves. -/
theorem moves_afterPhase3 (pollInterval : ℕ) (w : World) :
    Moves env C (w.afterPhase3 env pollInterval) (w.reaperPass env pollInterval) := by
  have h4 : Moves env C (w.afterPhase3 env pollInterval) (w.beforePhase5 env pollInterval) :=
    moves_beforePhase5 pollInterval w
  have h5 := ifRunning_invariant (f := phase5 env) h4 fun _ => h4.trans (moves_phase5 _)
  exact ifRunning_invariant (f := phase6 env) h5 fun _ => h5.trans (moves_phase6 _)

end World

/-! ### Runs -/

namespace System

variable {env : Env} {pollInterval : ℕ} {C : Point → World → Process → Prop} {D : World → Prop}

/-- `C` holds of every entry that an action takes at one of the points, and `D` when a
pass begins. -/
def StepMeets (env : Env) (C : Point → World → Process → Prop) (D : World → Prop) (s : System) :
    Action → Prop
  | .stop id => World.StopCalls env (World.StopMeetsAt C) id s.world
  | .stopLabel label => World.BatchMeets env C (s.world.labelMembers label) s.world
  | .stopAll => World.BatchMeets env C s.world.processes.keys s.world
  | .stopTerminateOnExit =>
    World.BatchMeets env C (s.world.processes.keysWhere fun p => p.terminateOnExit) s.world
  | .restart id => World.RestartMeets env C id s.world
  | .restartLabel label =>
    World.RestartsMeet env (World.RestartMeets env C) (s.world.labelMembers label) s.world
  | .sendSignal id _ => World.SignalMeets C id s.world
  | .sendSignalLabel label signal =>
    Fold.Meets (fun w id => World.SignalMeets C id w) (fun w id => (w.sendSignal env id signal).2)
      (s.world.labelMembers label) s.world
  | .depsPoll n => ∀ c, s.calls[n]? = some c → c.deadline ≤ (s.world.tick env).clock →
      ∀ p, s.world.processes.lookup c.id = some p → C .timeout s.world p
  | .pass => s.world.reaper = .running → D s.world
  | _ => True

/-- Only insertions and passes are restricted. -/
theorem stepMeets_of {s : System} {a : Action} (hC : ∀ point w p, point ≠ .start → C point w p)
    (h : a = .pass → s.world.reaper = .running → D s.world) : s.StepMeets env C D a := by
  have hstop : ∀ id w, World.StopCalls env (World.StopMeetsAt C) id w :=
    fun id w => World.stopMeets_of_forall (fun _ w p _ => hC .stop w p nofun) _ id w
  cases a with
  | stop id => exact hstop id s.world
  | stopLabel label => exact fun _ _ p _ => ⟨hC .batch _ p nofun, fun _ => hC .reinsert _ p nofun⟩
  | stopAll => exact fun _ _ p _ => ⟨hC .batch _ p nofun, fun _ => hC .reinsert _ p nofun⟩
  | stopTerminateOnExit => exact fun _ _ p _ => ⟨hC .batch _ p nofun, fun _ => hC .reinsert _ p nofun⟩
  | restart id => exact fun _ _ _ => hstop id s.world
  | restartLabel label =>
    exact World.restartsMeet_of_forall (fun id w _ _ _ => hstop id w) _ s.world
  | sendSignal id signal => exact fun p _ _ => hC .signal _ p nofun
  | sendSignalLabel label signal =>
    exact Fold.meets_of_forall (fun w _ p _ _ => hC .signal w p nofun) _ _
  | depsPoll n => exact fun _ _ _ p _ => hC .timeout _ p nofun
  | pass => exact h rfl
  | _ => trivial

/-- Nothing is asked of the other actions. -/
theorem stepMeets_of_pass {s : System} {a : Action}
    (h : a = .pass → s.world.reaper = .running → D s.world) :
    s.StepMeets env (fun _ _ _ => True) D a :=
  stepMeets_of (fun _ _ _ _ => trivial) h

/-- The entries that an action may insert, in the world where it does. -/
def Inserts (w : World) (a : Action) (w' : World) (id : ProcessId) : Prop :=
  match a with
  | .start _ _ | .startWithDeps _ _ => World.Starting w w' ∧ id = ⟨w.nextId⟩
  | .restart i => id = i
  | .restartLabel label => id ∈ w.labelMembers label
  | _ => False

/-- An action other than a pass is made of moves. -/
theorem moves_step_of {s : System} {a : Action} (hC : ∀ w' p, Inserts s.world a w' p.id → C .start w' p)
    (ha : a ≠ .pass) (hkey : ∀ i q, s.world.processes.lookup i = some q → q.id = i)
    (h : s.StepMeets env C D a) : World.Moves env C s.world (s.step env pollInterval a).world := by
  cases a with
  | start label config =>
    exact World.moves_start (fun w' hw' p hp => hC w' p ⟨hw', hp⟩) label config
  | startWithDeps label config =>
    have hstart : World.Moves env C s.world (s.world.startWithDeps env label config).2 :=
      (World.moves_start (fun w' hw' p hp => hC w' p ⟨hw', hp⟩) label config).trans
        (World.Moves.os (World.startWithDeps_world (P := fun _ => False) label config s.world))
    simp only [step]
    split <;> exact hstart
  | depsPoll n =>
    simp only [step]
    split
    · exact .refl
    · next c hc => exact World.moves_depsPoll (h c hc)
  | stop id => exact World.moves_stop h
  | stopLabel label => exact World.moves_stopMany hkey h
  | stopAll => exact World.moves_stopMany hkey h
  | stopTerminateOnExit => exact World.moves_stopMany hkey h
  | restart id => exact World.moves_restart hC h
  | restartLabel label =>
    exact World.moves_restartAll hC h
  | sendSignal id signal => exact World.moves_sendSignal h
  | sendSignalLabel label signal =>
    exact Fold.invariant (I := World.Moves env C s.world)
      (fun _ _ hw hC => hw.trans (World.moves_sendSignal hC)) _ _ .refl h
  | query id => exact World.moves_query id s.world
  | pass => exact absurd rfl ha

theorem moves_step (hC : ∀ w p, C .start w p) {s : System} {a : Action} (ha : a ≠ .pass) (hs : Sound s.world)
    (h : s.StepMeets env C D a) : World.Moves env C s.world (s.step env pollInterval a).world :=
  moves_step_of (fun w p _ => hC w p) ha hs.key h

/-- The rule for runs: `I` survives every move, and Phases 1 to 3 of a pass that begins
where `D` holds. -/
theorem run_invariant {I : World → Prop} (hC : ∀ w p, C .start w p)
    (hinit : ∀ s : System, s.Initial → I s.world)
    (hmove : ∀ w w', I w → World.Move env C w w' → I w')
    (hpass : ∀ w, Sound w → I w → D w → w.reaper = .running → I (w.afterPhase3 env pollInterval))
    {s : System} (hs : s.Initial) (actions : List Action)
    (h : Fold.Meets (StepMeets env C D) (step env pollInterval) actions s) :
    I (s.run env pollInterval actions).world := by
  have hstep : ∀ (s : System) (a : Action), Sound s.world ∧ I s.world → s.StepMeets env C D a →
      Sound (s.step env pollInterval a).world ∧ I (s.step env pollInterval a).world := by
    rintro s a ⟨hsound, hI⟩ hmeets
    refine ⟨sound_step env pollInterval s a hsound, ?_⟩
    by_cases ha : a = .pass
    · subst ha
      refine World.ifRunning_invariant hI fun hr => ?_
      exact (World.moves_afterPhase3 pollInterval s.world).invariant hmove
        (hpass s.world hsound hI (hmeets hr) hr)
    · exact (moves_step hC ha hsound hmeets).invariant hmove hI
  exact (Fold.invariant (I := fun s : System => Sound s.world ∧ I s.world) hstep actions s
    ⟨sound_run env pollInterval hs [], hinit s hs⟩ h).2

end System

end ProcessManager
