import ProcessManager.Manager.Dependency

/-! `ProcessManager::start`, `start_with_deps`, the queries and `send_signal`. -/

namespace ProcessManager

/-- `ProcessManagerError`. `stopMany` carries the errors of a batch. -/
inductive ManagerError where
  | notFound (id : ProcessId)
  | executableNotFound (command : String)
  | spawnFailed
  | signalFailed (pid : ℕ) (error : Errno)
  | processInRestartingState (id : ProcessId)
  | configError
  | stopMany (errors : List ManagerError)
  | dependencyTimeout (id : ProcessId) (dependency : Option DependencyRef)
  | dependencyCycle (cycle : List DependencyRef)

def SpawnError.toManagerError (command : String) : SpawnError → ManagerError
  | .executableNotFound => .executableNotFound command
  | .spawnFailed => .spawnFailed

namespace World

variable (env : Env)

/-! ### Starting -/

/-- The entry of a child that was just spawned by `start` or `restart`. -/
def spawnedProcess (id : ProcessId) (label : Label) (config : ProcessConfig)
    (resolvedDeps : List ProcessId) (w : World) : Process where
  id := id
  pid := w.nextPid env
  label := label
  terminateOnExit := config.terminateOnExit
  config := config
  child := some w.nextChild
  state := .starting
  restartState := if config.restartOnExit then some .new else none
  spawnSequence := w.nextSpawnSequence
  cascadeFlag := false
  resolvedDeps := resolvedDeps
  waitingSince := none

/-- The placeholder of a process whose dependencies are not ready. -/
def waitingProcess (id : ProcessId) (label : Label) (config : ProcessConfig)
    (resolvedDeps : List ProcessId) (w : World) : Process where
  id := id
  pid := 0
  label := label
  terminateOnExit := config.terminateOnExit
  config := config
  child := none
  state := .waiting
  restartState := if config.restartOnExit then some .new else none
  spawnSequence := w.nextSpawnSequence
  cascadeFlag := false
  resolvedDeps := resolvedDeps
  waitingSince := some (w.tick env).clock

/-- `mark_started` of the entry, if it tracks restarts. -/
def markStartedEntry (id : ProcessId) (w : World) : World :=
  match w.processes.lookup id with
  | some p =>
    match p.restartState with
    | some rs =>
      let w := w.tick env
      w.put id { p with restartState := some (rs.markStarted w.clock) }
    | none => w
  | none => w

def bumpSequence (w : World) : World := { w with nextSpawnSequence := w.nextSpawnSequence + 1 }

/-- Spawn at once and insert the entry. -/
def startNow (id : ProcessId) (label : Label) (config : ProcessConfig)
    (resolvedDeps : List ProcessId) (w : World) : Except ManagerError ProcessId × World :=
  let w' := w.spawnProcess env .start id config resolvedDeps
  match w.spawnError env config with
  | some e => (.error (e.toManagerError config.command), w')
  | none =>
    (.ok id, (w'.bumpSequence.insert env id
      (w.spawnedProcess env id label config resolvedDeps)).markStartedEntry env id)

/-- Insert a `Waiting` placeholder. -/
def startWaiting (id : ProcessId) (label : Label) (config : ProcessConfig)
    (resolvedDeps : List ProcessId) (w : World) : World :=
  (w.tick env).bumpSequence.insert env id (w.waitingProcess env id label config resolvedDeps)

/-- The cycle check of `start`; processes without dependencies skip it. -/
def startCycle (label : Label) (config : ProcessConfig) (w : World) :
    Option (List DependencyRef) :=
  if config.dependsOn = [] then none
  else detectCycle (buildDependencySnapshot w.processes label config.dependsOn) label config.dependsOn

/-- `ProcessManager::start` -/
def start (label : Label) (config : ProcessConfig) (w : World) :
    Except ManagerError ProcessId × World :=
  if config.validate = false then (.error .configError, w)
  else
    let id : ProcessId := ⟨w.nextId⟩
    let w := { w with nextId := w.nextId + 1 }
    match w.startCycle label config with
    | some cycle => (.error (.dependencyCycle cycle), w)
    | none =>
      let resolved := resolvedOrDefault w.processes config.dependsOn
      if resolved.length = config.dependsOn.length then
        let r := w.allDepsRunning env resolved
        if r.1 then r.2.startNow env id label config resolved
        else (.ok id, r.2.startWaiting env id label config resolved)
      else (.ok id, w.startWaiting env id label config resolved)

/-! ### Waiting for dependencies in the caller's thread -/

/-- One iteration of the loop of `start_with_deps`; `none` when it goes on. -/
def depsPoll (id : ProcessId) (config : ProcessConfig) (deadline : Instant) (w : World) :
    Option (Except ManagerError ProcessId) × World :=
  let w := w.tick env
  let timeout : ManagerError := .dependencyTimeout id config.dependsOn.head?
  if deadline ≤ w.clock then
    (some (.error timeout),
      match w.processes.lookup id with
      | some p => w.put id { p with state := .failed }
      | none => w)
  else
    match w.processes.lookup id with
    | some p =>
      match p.state with
      | .failed => (some (.error timeout), w)
      | .waiting => (none, w.sleep env (millis 50))
      | _ => (some (.ok id), w)
    | none => (some (.error (.notFound id)), w)

/-- The start of `start_with_deps`: a deadline when the caller has to wait for `id`. -/
def startWithDeps (label : Label) (config : ProcessConfig) (w : World) :
    Except ManagerError (ProcessId × Option Instant) × World :=
  match w.start env label config with
  | (.error e, w) => (.error e, w)
  | (.ok id, w) =>
    let wait := (Except.ok (id, some ((w.tick env).clock + millis config.dependencyTimeoutMs)), w.tick env)
    match w.processes.lookup id with
    | some p => if p.state = .waiting then wait else (.ok (id, none), w)
    | none => wait

/-! ### Queries and signals -/

/-- `state`, `is_running` and `get_info` update the entry's state. -/
def query (id : ProcessId) (w : World) : World :=
  match w.processes.lookup id with
  | some p => w.pollEntry env id p
  | none => w

/-- `ProcessManager::send_signal` -/
def sendSignal (id : ProcessId) (signal : Signal) (w : World) : Except ManagerError Unit × World :=
  match w.processes.lookup id with
  | none => (.error (.notFound id), w)
  | some p =>
    if p.state = .restarting then (.error (.processInRestartingState id), w)
    else
      match w.killError env p.pid with
      | some e => (.error (.signalFailed p.pid e), w.kill env .sendSignal p signal)
      | none => (.ok (), w.kill env .sendSignal p signal)

def labelMembers (label : Label) (w : World) : List ProcessId :=
  w.processes.keysWhere fun p => p.label = label

/-- `ProcessManager::send_signal_label`; every member is tried. -/
def sendSignalLabel (label : Label) (signal : Signal) (w : World) : World :=
  (w.labelMembers label).foldl (fun w id => (w.sendSignal env id signal).2) w

/-! ### What these calls change -/

variable {env} {id : ProcessId} {label : Label} {config : ProcessConfig} {w : World}
  {P : KillCall → Prop}

theorem mem_labelMembers : id ∈ w.labelMembers label ↔ ∃ p, w.processes.lookup id = some p ∧ p.label = label := by
  rw [labelMembers, AssocMap.mem_keysWhere]
  simp only [decide_eq_true_eq]

/-- Only the restart state of an entry changes, and its counter does not. -/
def Marked (_ : ProcessId) (p p' : Process) : Prop :=
  p' = p ∨ ∃ rs now, p.restartState = some rs ∧
    p' = { p with restartState := some (rs.markStarted now) }

theorem mapStep_markStartedEntry (id : ProcessId) (w : World) :
    MapStep Marked ∅ P w (w.markStartedEntry env id) := by
  have hrefl : ∀ id p, Marked id p p := fun _ _ => .inl rfl
  unfold markStartedEntry
  split
  · next p hp =>
    split
    · next rs hrs =>
      exact .put hrefl (w.osStep_tick env) hp (.inr ⟨rs, _, hrs, rfl⟩)
    · exact .of_osStep hrefl (.refl w)
  · exact .of_osStep hrefl (.refl w)

/-- The possible ends of a `start`: a rejected configuration, a cycle, a process spawned
at once because its dependencies are all `Running`, and a placeholder. -/
theorem start_cases (env : Env) (label : Label) (config : ProcessConfig) (w : World) :
    (w.start env label config).2 = w ∨
    (w.start env label config).2 = { w with nextId := w.nextId + 1 } ∨
    ∃ w₁ : World, ({ w with nextId := w.nextId + 1 } : World) = w₁ ∧
      ∃ resolved, resolvedOrDefault w.processes config.dependsOn = resolved ∧
        ((resolved.length = config.dependsOn.length ∧ (w₁.allDepsRunning env resolved).1 = true ∧
            (w.start env label config).2 =
              ((w₁.allDepsRunning env resolved).2.startNow env ⟨w.nextId⟩ label config resolved).2) ∨
          (w.start env label config).2 =
            (w₁.allDepsRunning env resolved).2.startWaiting env ⟨w.nextId⟩ label config resolved ∨
          (w.start env label config).2 = w₁.startWaiting env ⟨w.nextId⟩ label config resolved) := by
  unfold start
  split_ifs with hvalidate
  · exact .inl rfl
  · simp only
    split
    · exact .inr (.inl rfl)
    · refine .inr (.inr ⟨_, rfl, _, rfl, ?_⟩)
      split_ifs with hlength hrunning
      · exact .inl ⟨hlength, hrunning, rfl⟩
      · exact .inr (.inl rfl)
      · exact .inr (.inr rfl)

theorem startNow_ok {id new : ProcessId} {label : Label} {config : ProcessConfig} {resolved : List ProcessId}
    (h : (w.startNow env id label config resolved).1 = .ok new) :
    new = id ∧ (w.startNow env id label config resolved).2.nextId = w.nextId := by
  unfold startNow at h ⊢
  split at h
  · cases h
  · next hok =>
    have hspawn : Spawned env .start id config resolved w _ := .of_ok .start id resolved hok
    refine ⟨(Except.ok.inj h).symm, ?_⟩
    have hmark : MapStep Marked ∅ (fun _ => True) _ (markStartedEntry env id _) :=
      mapStep_markStartedEntry id ((w.spawnProcess env .start id config resolved).bumpSequence.insert env id
        (w.spawnedProcess env id label config resolved))
    exact hmark.nextId.trans hspawn.nextId

/-- A start that returns `Ok` has used the next id. -/
theorem start_ok {id : ProcessId} (env : Env) (label : Label) (config : ProcessConfig) (w : World)
    (h : (w.start env label config).1 = .ok id) :
    id = ⟨w.nextId⟩ ∧ (w.start env label config).2.nextId = w.nextId + 1 := by
  have hpolled : ∀ resolved, (({ w with nextId := w.nextId + 1 } : World).allDepsRunning env
      resolved).2.nextId = w.nextId + 1 :=
    fun resolved => (mapStep_allDepsRunning env (P := fun _ => True) resolved _).nextId
  unfold start at h ⊢
  split_ifs at h ⊢ with hvalidate
  simp only at h ⊢
  split at h
  · cases h
  · split_ifs at h ⊢ with hlength hrunning
    · obtain ⟨hid, hnext⟩ := startNow_ok h
      exact ⟨hid, hnext.trans (hpolled _)⟩
    · exact ⟨(Except.ok.inj h).symm, hpolled _⟩
    · exact ⟨(Except.ok.inj h).symm, rfl⟩

/-- `start` itself never waits. -/
theorem start_ne_dependencyTimeout {id : ProcessId} {dep : Option DependencyRef} (env : Env) (label : Label)
    (config : ProcessConfig) (w : World) :
    (w.start env label config).1 ≠ .error (.dependencyTimeout id dep) := by
  unfold start startNow
  split_ifs
  · exact nofun
  · simp only
    split
    · exact nofun
    · split_ifs
      · split
        · next e _ => cases e <;> exact nofun
        · exact nofun
      · exact nofun
      · exact nofun

/-- A failed poll of `start_with_deps`. -/
def TimedOut (_ : ProcessId) (p p' : Process) : Prop := p' = p ∨ p' = { p with state := .failed }

theorem mapStep_depsPoll (id : ProcessId) (config : ProcessConfig) (deadline : Instant) (w : World) :
    MapStep TimedOut ∅ P w (w.depsPoll env id config deadline).2 := by
  have hrefl : ∀ id p, TimedOut id p p := fun _ _ => .inl rfl
  have htick : MapStep TimedOut ∅ P w (w.tick env) := .of_osStep hrefl (w.osStep_tick env)
  have hsleep : MapStep TimedOut ∅ P w ((w.tick env).sleep env (millis 50)) :=
    .of_osStep hrefl ((w.osStep_tick env).trans (osStep_sleep env _ _))
  simp only [depsPoll, tick_processes]
  split_ifs
  · simp only
    split
    · next p hp => exact .put hrefl (w.osStep_tick env) hp (.inr rfl)
    · exact htick
  · split
    · split
      · exact htick
      · exact hsleep
      · exact htick
    · exact htick

theorem startWithDeps_world (label : Label) (config : ProcessConfig) (w : World) :
    OsStep ∅ P (w.start env label config).2 (w.startWithDeps env label config).2 := by
  unfold startWithDeps
  split
  · next e w' h => rw [h]; exact .refl _
  · next id w' h =>
    rw [h]
    simp only
    split
    · split_ifs
      · exact osStep_tick env _
      · exact .refl _
    · exact osStep_tick env _

theorem mapStep_query (id : ProcessId) (w : World) :
    MapStep Process.Polled Set.univ P w (w.query env id) := by
  unfold query
  split
  · next p hp => exact (mapStep_pollEntry hp).mono (fun _ _ _ h => h) (Set.subset_univ _) fun _ h => h
  · exact .of_osStep Process.Polled.refl (.refl w)

theorem osStep_sendSignal (id : ProcessId) (signal : Signal) (w : World) :
    OsStep ∅ (fun _ => True) w (w.sendSignal env id signal).2 := by
  unfold sendSignal
  split
  · exact .refl w
  · split_ifs
    · exact .refl w
    · split <;> exact osStep_kill env trivial

end World

end ProcessManager
