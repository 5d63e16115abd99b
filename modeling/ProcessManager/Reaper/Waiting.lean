import ProcessManager.Reaper.Phases

/-! Phases 5 and 6 of a reaper pass: `Waiting` processes are resolved, spawned, failed
or timed out, and `Running` processes fail fast on a terminal dependency. -/

namespace ProcessManager

/-! ### Dependencies of a waiting process -/

/-- A bound id that will not come back: untracked, `Failed`, or `Stopped` without restart. -/
def isTerminalDep (processes : AssocMap ProcessId Process) (dep : ProcessId) : Bool :=
  match processes.lookup dep with
  | some p => p.state = .failed || (p.state = .stopped && !p.config.restartOnExit)
  | none => true

def isRunningDep (processes : AssocMap ProcessId Process) (dep : ProcessId) : Bool :=
  match processes.lookup dep with
  | some p => p.state = .running
  | none => false

def hasLabel (processes : AssocMap ProcessId Process) (l : Label) (dep : ProcessId) : Bool :=
  match processes.lookup dep with
  | some p => p.label = l
  | none => false

/-- The dependency already counts as bound: some bound id carries the label, or the id
itself is bound. -/
def isBound (processes : AssocMap ProcessId Process) (resolved : List ProcessId) :
    DependencyRef → Bool
  | .label l => resolved.any (hasLabel processes l)
  | .id i => resolved.contains i

/-- `deps_to_resolve` -/
def depsToResolve (processes : AssocMap ProcessId Process) (p : Process) : List DependencyRef :=
  p.config.dependsOn.filter fun dep => !isBound processes p.resolvedDeps dep

/-- What the label search of Phase 5 accepts: `Running` only. -/
def isRunningLabel (l : Label) (p : Process) : Bool := p.label = l && p.state = .running

/-- The id Phase 5 binds for one unresolved dependency. -/
def newlyResolvedId (processes : AssocMap ProcessId Process) : DependencyRef → Option ProcessId
  | .label l => processes.findKey (isRunningLabel l)
  | .id i => some i

def newlyResolved (processes : AssocMap ProcessId Process) (deps : List DependencyRef) :
    List ProcessId :=
  deps.filterMap (newlyResolvedId processes)

/-- `resolved_deps.extend(newly_resolved)` -/
def Process.extend (p : Process) (new : List ProcessId) : Process :=
  { p with resolvedDeps := p.resolvedDeps ++ new }

/-- The keys that computing `deps_to_resolve` visits. -/
def boundVisits (processes : AssocMap ProcessId Process) (p : Process) : List ProcessId :=
  p.config.dependsOn.flatMap fun
    | .label l => p.resolvedDeps.visitedUntil (hasLabel processes l)
    | .id _ => []

/-- The keys that the label searches of Phase 5 visit. -/
def searchVisits (processes : AssocMap ProcessId Process) (deps : List DependencyRef) :
    List ProcessId :=
  deps.flatMap fun
    | .label l => processes.visitedKeys (isRunningLabel l)
    | .id _ => []

/-- The two lists that Phase 5 fills. -/
structure Verdicts where
  toSpawn : List ProcessId
  toFail : List ProcessId

namespace World

variable (env : Env)

/-! ### Phase 5: examine -/

def timedOut (p : Process) (w : World) : Bool :=
  match p.waitingSince with
  | some since => millis p.config.dependencyTimeoutMs ≤ (w.tick env).clock - since
  | none => false

/-- `since.elapsed()` reads the clock when there is a timestamp. -/
def readElapsed (p : Process) (w : World) : World :=
  if p.waitingSince.isSome then w.tick env else w

/-- Fail `id` if one of `deps` is terminal. -/
def failIfTerminal (id : ProcessId) (deps : List ProcessId) (v : Verdicts) (w : World) :
    Verdicts × World :=
  let w' := w.touch .shared (deps.visitedUntil (isTerminalDep w.processes))
  if deps.any (isTerminalDep w.processes) then ({ v with toFail := v.toFail ++ [id] }, w') else (v, w')

/-- The re-check after new ids were bound: spawn `id` if all dependencies are bound and
`Running`. -/
def spawnIfReady (id : ProcessId) (p : Process) (v : Verdicts) (w : World) : Verdicts × World :=
  let w' := w.touch .shared (p.resolvedDeps.visitedUntil fun d => !isRunningDep w.processes d)
  if p.resolvedDeps.length = p.config.dependsOn.length ∧ p.resolvedDeps.all (isRunningDep w.processes)
  then ({ v with toSpawn := v.toSpawn ++ [id] }, w') else (v, w')

/-- Bind further ids to a process with unresolved dependencies. The guard on `id` is
dropped before the searches. -/
def resolveMore (id : ProcessId) (p : Process) (v : Verdicts) (w : World) : Verdicts × World :=
  let deps := depsToResolve w.processes p
  let w := (w.touch .shared (boundVisits w.processes p)).unlock .shared id
  let new := newlyResolved w.processes deps
  let w := w.touch .shared (searchVisits w.processes deps)
  if new = [] then w.failIfTerminal id p.resolvedDeps v
  else
    let p := p.extend new
    let w := ((w.lock .exclusive id).put id p).unlock .exclusive id
    let r := (w.lock .shared id).spawnIfReady id p v
    (r.1, r.2.unlock .shared id)

/-- A process whose dependencies are all bound: spawn it when they are all `Running`,
fail it when one is terminal. Bound ids are never searched for again. -/
def checkResolved (id : ProcessId) (p : Process) (v : Verdicts) (w : World) : Verdicts × World :=
  let w' := w.touch .shared (p.resolvedDeps.visitedUntil fun d => !isRunningDep w.processes d)
  if p.resolvedDeps.all (isRunningDep w.processes) then
    ({ v with toSpawn := v.toSpawn ++ [id] }, w'.unlock .shared id)
  else
    let r := w'.failIfTerminal id p.resolvedDeps v
    (r.1, r.2.unlock .shared id)

/-- The body of the Phase 5 loop. -/
def examine (id : ProcessId) (x : Verdicts × World) : Verdicts × World :=
  let w := x.2.lock .shared id
  match w.processes.lookup id with
  | none => (x.1, w.unlock .shared id)
  | some p =>
    let w' := w.readElapsed env p
    if w.timedOut env p then
      ({ x.1 with toFail := x.1.toFail ++ [id] }, w'.unlock .shared id)
    else if p.resolvedDeps.length ≠ p.config.dependsOn.length then w'.resolveMore id p x.1
    else w'.checkResolved id p x.1

def waitingIds (w : World) : List ProcessId :=
  w.processes.keysWhere fun p => p.state = .waiting

/-- All verdicts of one pass. -/
def verdicts (w : World) : Verdicts × World :=
  w.waitingIds.foldl (fun x id => examine env id x) (⟨[], []⟩, w.touch .shared w.processes.keys)

/-! ### Phase 5: act -/

/-- `spawn_waiting_process` -/
def spawnWaitingProcess (id : ProcessId) (w : World) : World :=
  let w := w.lock .exclusive id
  match w.processes.lookup id with
  | none => w.unlock .exclusive id
  | some p =>
    let w' := w.spawnProcess env .spawnWaiting id p.config p.resolvedDeps
    match w.spawnError env p.config with
    | some _ => w'.failSpawn env id p
    | none =>
      let w'' := if p.restartState.isSome then w'.tick env else w'
      (w''.put id { p with
        child := some w.nextChild
        pid := w.nextPid env
        state := .starting
        waitingSince := none
        restartState := p.restartState.map (·.markStarted w''.clock) }).unlock .exclusive id

/-- Fail one `Waiting` process: remove it and send its event. -/
def failWaiting (id : ProcessId) (w : World) : World :=
  let w := w.lock .exclusive id
  match w.processes.lookup id with
  | none => w.unlock .exclusive id
  | some p =>
    (((w.put id { p with state := .failed }).unlock .exclusive id).removeEntry id).sendOrReturn env
      (p.endEvent id .failed)

def phase5 (w : World) : World :=
  let r := w.verdicts env
  let w := r.1.toSpawn.foldl (fun w id => w.spawnWaitingProcess env id) r.2
  r.1.toFail.foldl (fun w id => w.ifRunning (failWaiting env id)) w

/-! ### Phase 6: fail fast -/

def runningWithDeps (w : World) : List ProcessId :=
  w.processes.keysWhere fun p => p.state = .running && !p.resolvedDeps.isEmpty

/-- Kill and remove a process with a terminal dependency. -/
def failRunning (id : ProcessId) (p : Process) (w : World) : World :=
  let w := w.lock .exclusive id
  let w := match w.processes.lookup id with
    | none => w
    | some q =>
      let w := w.put id { q with state := .failed }
      if 0 < p.pid then (q.sendSignal env .failFast q.config.killSignal w).2 else w
  ((w.unlock .exclusive id).removeEntry id).sendOrReturn env (p.endEvent id .failed)

/-- The body of the Phase 6 loop. -/
def failFast (id : ProcessId) (w : World) : World :=
  let w := w.lock .shared id
  match w.processes.lookup id with
  | none => w.unlock .shared id
  | some p =>
    let w' := w.touch .shared (p.resolvedDeps.visitedUntil (isTerminalDep w.processes))
    if p.resolvedDeps.any (isTerminalDep w.processes) then (w'.unlock .shared id).failRunning env id p
    else w'.unlock .shared id

def phase6 (w : World) : World :=
  w.runningWithDeps.foldl (fun w id => w.ifRunning (failFast env id)) (w.touch .shared w.processes.keys)

/-! ### What Phase 5 decides

One lemma for each way through the loop body: the verdict on `id` and the new map. -/

variable {env} {id : ProcessId} {p : Process} {v : Verdicts} {w : World} {P : KillCall → Prop}

/-- All bound ids are `Running`. -/
def AllRunning (processes : AssocMap ProcessId Process) (deps : List ProcessId) : Prop :=
  ∀ d ∈ deps, isRunningDep processes d = true

instance (processes : AssocMap ProcessId Process) (deps : List ProcessId) :
    Decidable (AllRunning processes deps) :=
  inferInstanceAs (Decidable (∀ d ∈ deps, isRunningDep processes d = true))

theorem all_isRunningDep (processes : AssocMap ProcessId Process) (deps : List ProcessId) :
    (deps.all (isRunningDep processes) = true) = AllRunning processes deps := by
  rw [List.all_eq_true]
  rfl

/-- Every dependency has a bound id and all bound ids are `Running`. -/
def Complete (processes : AssocMap ProcessId Process) (p : Process) : Prop :=
  p.resolvedDeps.length = p.config.dependsOn.length ∧ AllRunning processes p.resolvedDeps

instance (processes : AssocMap ProcessId Process) (p : Process) : Decidable (Complete processes p) :=
  inferInstanceAs (Decidable (_ ∧ _))

theorem examine_untracked (h : w.processes.lookup id = none) :
    examine env id (v, w) = (v, (w.lock .shared id).unlock .shared id) := by
  simp only [examine, lock_processes, h]

theorem examine_timedOut (hp : w.processes.lookup id = some p) (h : w.timedOut env p = true) :
    (examine env id (v, w)).1 = { v with toFail := v.toFail ++ [id] } ∧
      (examine env id (v, w)).2.processes = w.processes := by
  have h' : (w.lock .shared id).timedOut env p = true := h
  simp only [examine, lock_processes, hp, h', ↓reduceIte, readElapsed]
  refine ⟨trivial, ?_⟩
  split_ifs <;> rfl

theorem readElapsed_processes (p : Process) (w : World) :
    (w.readElapsed env p).processes = w.processes := by
  unfold readElapsed
  split_ifs <;> rfl

theorem failIfTerminal_spec (id : ProcessId) (deps : List ProcessId) (v : Verdicts) (w : World) :
    (w.failIfTerminal id deps v).1.toSpawn = v.toSpawn ∧
      (w.failIfTerminal id deps v).2 =
        w.touch .shared (deps.visitedUntil (isTerminalDep w.processes)) := by
  simp only [failIfTerminal]
  split_ifs <;> exact ⟨rfl, rfl⟩

theorem spawnIfReady_snd (id : ProcessId) (p : Process) (v : Verdicts) (w : World) :
    (w.spawnIfReady id p v).2 =
      w.touch .shared (p.resolvedDeps.visitedUntil fun d => !isRunningDep w.processes d) := by
  simp only [spawnIfReady]
  split_ifs <;> rfl

theorem examine_resolved (hp : w.processes.lookup id = some p) (h : w.timedOut env p = false)
    (hlength : p.resolvedDeps.length = p.config.dependsOn.length) :
    (AllRunning w.processes p.resolvedDeps →
        (examine env id (v, w)).1 = { v with toSpawn := v.toSpawn ++ [id] }) ∧
      (¬ AllRunning w.processes p.resolvedDeps → (examine env id (v, w)).1.toSpawn = v.toSpawn) ∧
      (examine env id (v, w)).2.processes = w.processes := by
  have h' : (w.lock .shared id).timedOut env p = false := h
  simp only [examine, lock_processes, hp, h', Bool.false_eq_true, ↓reduceIte, hlength, ne_eq,
    not_true_eq_false, checkResolved, readElapsed_processes, all_isRunningDep]
  split_ifs with hrunning
  · exact ⟨fun _ => rfl, fun hn => absurd hrunning hn, readElapsed_processes p _⟩
  · obtain ⟨hspawn, hworld⟩ := failIfTerminal_spec id p.resolvedDeps v
      (((w.lock .shared id).readElapsed env p).touch .shared
        (p.resolvedDeps.visitedUntil fun d => !isRunningDep w.processes d))
    refine ⟨fun hr => absurd hr hrunning, fun _ => hspawn, ?_⟩
    simp only [hworld, touch_processes, unlock_processes, readElapsed_processes, lock_processes]

/-- Nothing new to bind: the entry stays as it is, or fails. -/
theorem examine_stuck (hp : w.processes.lookup id = some p) (h : w.timedOut env p = false)
    (hlength : p.resolvedDeps.length ≠ p.config.dependsOn.length)
    (hnew : newlyResolved w.processes (depsToResolve w.processes p) = []) :
    (examine env id (v, w)).1.toSpawn = v.toSpawn ∧
      (examine env id (v, w)).2.processes = w.processes := by
  have h' : (w.lock .shared id).timedOut env p = false := h
  simp only [examine, lock_processes, hp, h', Bool.false_eq_true, ↓reduceIte, ne_eq, hlength,
    not_false_eq_true, resolveMore, readElapsed_processes, touch_processes, unlock_processes, hnew]
  obtain ⟨hspawn, hworld⟩ := failIfTerminal_spec id p.resolvedDeps v
    (((((w.lock .shared id).readElapsed env p).touch .shared (boundVisits w.processes p)).unlock
      .shared id).touch .shared (searchVisits w.processes (depsToResolve w.processes p)))
  refine ⟨hspawn, ?_⟩
  simp only [hworld, touch_processes, unlock_processes, readElapsed_processes, lock_processes]

/-- New ids are bound, and the entry is spawned if that completes it. -/
theorem examine_extended {new : List ProcessId} (hp : w.processes.lookup id = some p)
    (h : w.timedOut env p = false)
    (hlength : p.resolvedDeps.length ≠ p.config.dependsOn.length)
    (hnew : newlyResolved w.processes (depsToResolve w.processes p) = new) (hne : new ≠ []) :
    (Complete (w.processes.replace id (p.extend new)) (p.extend new) →
        (examine env id (v, w)).1 = { v with toSpawn := v.toSpawn ++ [id] }) ∧
      (¬ Complete (w.processes.replace id (p.extend new)) (p.extend new) →
        (examine env id (v, w)).1 = v) ∧
      (examine env id (v, w)).2.processes = w.processes.replace id (p.extend new) := by
  have h' : (w.lock .shared id).timedOut env p = false := h
  simp only [examine, lock_processes, hp, h', Bool.false_eq_true, ↓reduceIte, ne_eq, hlength,
    not_false_eq_true, resolveMore, readElapsed_processes, touch_processes, unlock_processes, hnew,
    hne, spawnIfReady, put_processes, all_isRunningDep, Complete]
  split_ifs with hready
  · refine ⟨fun _ => rfl, fun hn => absurd hready hn, ?_⟩
    simp only [unlock_processes, touch_processes, lock_processes, put_processes,
      readElapsed_processes]
  · refine ⟨fun hr => absurd hr hready, fun _ => rfl, ?_⟩
    simp only [unlock_processes, touch_processes, lock_processes, put_processes,
      readElapsed_processes]

/-! ### What Phases 5 and 6 change -/

/-- Further ids are bound. -/
def Extended (_ : ProcessId) (p p' : Process) : Prop :=
  ∃ new, p' = p.extend new

theorem Extended.refl (id : ProcessId) (p : Process) : Extended id p p :=
  ⟨[], by simp [Process.extend]⟩

theorem Extended.trans (id : ProcessId) (p p' p'' : Process) (h : Extended id p p')
    (h' : Extended id p' p'') : Extended id p p'' := by
  obtain ⟨new, rfl⟩ := h
  obtain ⟨new', rfl⟩ := h'
  exact ⟨new ++ new', by simp [Process.extend]⟩

theorem osStep_failIfTerminal {S : Set ℕ} (deps : List ProcessId) :
    OsStep S P w (w.failIfTerminal id deps v).2 := by
  rw [(failIfTerminal_spec id deps v w).2]
  exact .touch _ _ _

theorem osStep_readElapsed {S : Set ℕ} (p : Process) : OsStep S P w (w.readElapsed env p) := by
  unfold readElapsed
  split_ifs
  · exact osStep_tick env _
  · exact .refl _

theorem mapStep_resolveMore (hp : w.processes.lookup id = some p) :
    MapStep Extended ∅ P w (w.resolveMore id p v).2 := by
  have hsearch : ∀ bound search, OsStep ∅ P w
      (((w.touch .shared bound).unlock .shared id).touch .shared search) :=
    fun bound search => (OsStep.touch _ _ _).trans ((OsStep.unlock _ _ _).trans (.touch _ _ _))
  simp only [resolveMore, spawnIfReady_snd]
  split_ifs
  · exact .of_osStep .refl ((hsearch _ _).trans (osStep_failIfTerminal _))
  · have hput : ∀ bound search new, MapStep Extended ∅ P w
        (((((w.touch .shared bound).unlock .shared id).touch .shared search).lock .exclusive id).put id
          (p.extend new)) :=
      fun bound search new => .put .refl ((hsearch bound search).trans (.lock _ _ _)) hp ⟨new, rfl⟩
    exact (hput _ _ _).trans Extended.trans (.of_osStep .refl ((OsStep.unlock _ _ _).trans
      ((OsStep.lock _ _ _).trans ((OsStep.touch _ _ _).trans (.unlock _ _ _)))))

theorem osStep_checkResolved : OsStep ∅ P w (w.checkResolved id p v).2 := by
  simp only [checkResolved]
  split_ifs
  · exact (OsStep.touch _ _ _).trans (.unlock _ _ _)
  · exact (OsStep.touch _ _ _).trans ((osStep_failIfTerminal _).trans (.unlock _ _ _))

theorem mapStep_examine (env : Env) (id : ProcessId) (v : Verdicts) (w : World) :
    MapStep Extended ∅ P w (examine env id (v, w)).2 := by
  cases hp : w.processes.lookup id with
  | none =>
    rw [examine_untracked hp]
    exact .of_osStep .refl ((OsStep.lock _ _ _).trans (.unlock _ _ _))
  | some p =>
    have hread : OsStep ∅ P w ((w.lock .shared id).readElapsed env p) :=
      (OsStep.lock _ _ _).trans (osStep_readElapsed p)
    have hp' : ((w.lock .shared id).readElapsed env p).processes.lookup id = some p := by
      rw [hread.processes, hp]
    simp only [examine, lock_processes, hp]
    split_ifs
    · exact .of_osStep .refl (hread.trans (.unlock _ _ _))
    · exact (MapStep.of_osStep Extended.refl hread).trans Extended.trans (mapStep_resolveMore hp')
    · exact .of_osStep .refl (hread.trans osStep_checkResolved)

theorem reaper_examine (env : Env) (id : ProcessId) (x : Verdicts × World) :
    (examine env id x).2.reaper = x.2.reaper := by
  have hfail : ∀ (deps : List ProcessId) (w : World),
      (w.failIfTerminal id deps x.1).2.reaper = w.reaper :=
    fun deps w => (osStep_failIfTerminal (P := fun _ => True) (S := ∅) deps).reaper
  have hread : ∀ p, ((x.2.lock .shared id).readElapsed env p).reaper = x.2.reaper :=
    fun p => (osStep_readElapsed (P := fun _ => True) (S := ∅) p).reaper
  simp only [examine, lock_processes]
  split
  · rfl
  · next p _ =>
    split_ifs
    · exact hread p
    · simp only [resolveMore]
      split_ifs
      · exact (hfail _ _).trans (hread p)
      · simp only [spawnIfReady_snd, lock_reaper, unlock_reaper, touch_reaper, put_reaper]
        exact hread p
    · simp only [checkResolved]
      split_ifs
      · exact hread p
      · exact (hfail _ _).trans (hread p)

theorem spawnWaitingProcess_cases (env : Env) (id : ProcessId) (w : World) :
    (w.processes.lookup id = none ∧
        w.spawnWaitingProcess env id = (w.lock .exclusive id).unlock .exclusive id) ∨
      ∃ p, w.processes.lookup id = some p ∧
        ((∃ w', OsStep ∅ P (w.lock .exclusive id) w' ∧
            w.spawnWaitingProcess env id = w'.failSpawn env id p) ∨
          ∃ w' now, Spawned env .spawnWaiting id p.config p.resolvedDeps (w.lock .exclusive id) w' ∧
            w.spawnWaitingProcess env id = (w'.put id { p with
              child := some w.nextChild
              pid := (w.lock .exclusive id).nextPid env
              state := .starting
              waitingSince := none
              restartState := p.restartState.map (·.markStarted now) }).unlock .exclusive id) := by
  simp only [spawnWaitingProcess, lock_processes]
  split
  · next h => exact .inl ⟨h, rfl⟩
  · next p hp =>
    refine .inr ⟨p, hp, ?_⟩
    split
    · next e he => exact .inl ⟨_, osStep_spawnProcess he, rfl⟩
    · next hok => exact .inr ⟨_, _, (Spawned.of_ok _ _ _ hok).tick_if _, rfl⟩

/-- An entry changed and then removed leaves the others as they were. -/
theorem mapStep_put_remove {w₁ w₂ : World} {S : Set ℕ} {id : ProcessId} {p : Process}
    (h₁ : OsStep S P w w₁) (h₂ : OsStep S P (w₁.put id p) w₂) :
    MapStep Kept S P w (w₂.removeEntry id) := by
  have hremove : MapStep Kept S P w₂ (w₂.removeEntry id) :=
    (mapStep_removeEntry id w₂).mono (fun _ _ _ h => h) (Set.empty_subset S) fun _ h => h
  refine ⟨?_, h₂.nextId.trans h₁.nextId, .inl (h₂.reaper.trans h₁.reaper), h₂.spawns.trans h₁.spawns,
    h₂.length.trans h₁.length, h₁.children.trans h₂.children, h₁.kills.trans h₂.kills,
    fun hr => h₁.receiver (h₂.receiver hr), h₁.events.trans h₂.events⟩
  intro k q hq
  rw [removeEntry_lookup] at hq
  split_ifs at hq with hk
  rw [h₂.processes, put_processes, AssocMap.lookup_replace, if_neg hk, h₁.processes] at hq
  exact ⟨q, hq, rfl⟩

theorem mapStep_failWaiting (id : ProcessId) (w : World) :
    MapStep Kept ∅ P w (w.failWaiting env id) := by
  simp only [failWaiting, lock_processes]
  split
  · exact .of_osStep kept_refl ((OsStep.lock _ _ _).trans (.unlock _ _ _))
  · exact (mapStep_put_remove (.lock _ _ _) (.unlock _ _ _)).trans kept_trans
      (mapStep_sendOrReturn _ _)

theorem mapStep_failRunning (hp : w.processes.lookup id = some p) :
    MapStep Kept ∅ (KillsFrom p w) w (w.failRunning env id p) := by
  simp only [failRunning, lock_processes, hp]
  have hsignal : ∀ w', Ages ∅ w.children w'.children → OsStep ∅ (KillsFrom p w) w'
      ((if 0 < p.pid then (p.sendSignal env .failFast p.config.killSignal w').2 else w').unlock
        .exclusive id) := by
    intro w' hw'
    split_ifs
    · exact (Process.osStep_sendSignal.mono subset_rfl fun k hk => hk.earlier hw').trans
        (.unlock _ _ _)
    · exact .unlock _ _ _
  exact (mapStep_put_remove (.lock .exclusive id w) (hsignal _ (.refl _))).trans kept_trans
    (mapStep_sendOrReturn _ _)

/-- Phase 6 removes the entry it signals. -/
theorem mapStep_failFast (id : ProcessId) (w : World) :
    MapStep Kept ∅ (fun k => ∃ p, w.processes.lookup id = some p ∧ KillsFrom p w k) w
      (w.failFast env id) := by
  simp only [failFast, lock_processes]
  split
  · exact .of_osStep kept_refl ((OsStep.lock _ _ _).trans (.unlock _ _ _))
  · next p hp =>
    have hbefore : ∀ ids, OsStep ∅ (fun k => ∃ p, w.processes.lookup id = some p ∧ KillsFrom p w k) w
        (((w.lock .shared id).touch .shared ids).unlock .shared id) :=
      fun ids => (OsStep.lock _ _ _).trans ((OsStep.touch _ _ _).trans (.unlock _ _ _))
    split_ifs
    · refine (MapStep.of_osStep kept_refl (hbefore _)).trans kept_trans
        (.mono (fun _ _ _ h => h) subset_rfl ?_ (mapStep_failRunning ?_))
      · exact fun k hk => ⟨p, hp, { hk with }⟩
      · exact hp
    · exact .of_osStep kept_refl (hbefore _)

theorem reaper_spawnWaitingProcess (env : Env) (id : ProcessId) (w : World) :
    (w.spawnWaitingProcess env id).reaper = w.reaper := by
  obtain ⟨_, heq⟩ | ⟨p, _, ⟨w', hstep, heq⟩ | ⟨w', now, hspawn, heq⟩⟩ :=
    spawnWaitingProcess_cases (P := fun _ => True) env id w <;> rw [heq]
  · rfl
  · exact (reaper_failSpawn env id p w').trans hstep.reaper
  · exact hspawn.reaper

/-! ### Sections that signal nobody -/

theorem kills_scheduleEntry (env : Env) (now : Instant) (e : ExitedProcess) (w : World) :
    (scheduleEntry env now e w).kills = w.kills := by
  obtain ⟨heq, _⟩ | ⟨heq, _⟩ | ⟨config, label, p, w', _, _, hstep, hcases⟩ :=
    scheduleEntry_cases (P := fun _ => False) env now e w
  · rw [heq]
  · rw [heq]
    rfl
  · have hkills : w'.kills = w.kills := hstep.kills.eq_of_none
    obtain ⟨_, heq⟩ | ⟨rs, rs', _, _, heq⟩ | ⟨rs, _, _, heq⟩ := hcases <;> rw [heq] <;> exact hkills

theorem kills_phase3 (env : Env) (now : Instant) (exited : List ExitedProcess) (w : World) :
    (w.phase3 env now exited).kills = w.kills :=
  Fold.foldl_invariant (I := fun w' : World => w'.kills = w.kills) rfl fun w' e _ hw' =>
    ifRunning_invariant (I := fun w' : World => w'.kills = w.kills) hw' fun _ =>
      (kills_scheduleEntry env now e w').trans hw'

theorem kills_failSpawn (env : Env) (id : ProcessId) (p : Process) (w : World) :
    (w.failSpawn env id p).kills = w.kills :=
  (mapStep_failSpawn (P := fun _ => False) id p w).kills.eq_of_none

theorem kills_allDepsRunning (env : Env) (deps : List ProcessId) (w : World) :
    (w.allDepsRunning env deps).2.kills = w.kills :=
  (mapStep_allDepsRunning (P := fun _ => False) _ deps w).kills.eq_of_none

theorem kills_respawn (env : Env) (id : ProcessId) (p : Process) (w : World) :
    (w.respawn env id p).kills = w.kills := by
  obtain ⟨w', hstep, heq⟩ | ⟨w', now, hspawn, heq⟩ :=
    respawn_cases (P := fun _ => False) env id p w <;> rw [heq]
  · exact (kills_failSpawn env id p w').trans hstep.kills.eq_of_none
  · exact hspawn.kills

theorem kills_performRestart (env : Env) (id : ProcessId) (w : World) :
    (w.performRestart env id).kills = w.kills := by
  obtain ⟨_, heq⟩ | ⟨p, _, ⟨_, heq⟩ | ⟨w₁, resolved, rfl, _, hcases⟩⟩ := performRestart_cases env id w
  · rw [heq]
    rfl
  · rw [heq]
    exact kills_respawn env id p _
  · obtain ⟨_, _, heq⟩ | heq | heq := hcases <;> rw [heq]
    · exact (kills_respawn env id _ _).trans (kills_allDepsRunning env resolved _)
    · exact kills_allDepsRunning env resolved _
    · rfl

theorem kills_phase4 (env : Env) (now : Instant) (w : World) : (w.phase4 env now).kills = w.kills :=
  Fold.foldl_invariant (I := fun w' : World => w'.kills = w.kills) rfl fun w' id _ hw' =>
    (kills_performRestart env id w').trans hw'

theorem kills_spawnWaitingProcess (env : Env) (id : ProcessId) (w : World) :
    (w.spawnWaitingProcess env id).kills = w.kills := by
  obtain ⟨_, heq⟩ | ⟨p, _, ⟨w', hstep, heq⟩ | ⟨w', now, hspawn, heq⟩⟩ :=
    spawnWaitingProcess_cases (P := fun _ => False) env id w <;> rw [heq]
  · rfl
  · exact (kills_failSpawn env id p w').trans hstep.kills.eq_of_none
  · exact hspawn.kills

theorem kills_phase5 (env : Env) (w : World) : (w.phase5 env).kills = w.kills := by
  have hverdicts : (w.verdicts env).2.kills = w.kills :=
    Fold.foldl_invariant (I := fun x : Verdicts × World => x.2.kills = w.kills) rfl fun x id _ hx =>
      (mapStep_examine (P := fun _ => False) env id x.1 x.2).kills.eq_of_none.trans hx
  have hspawn : ((w.verdicts env).1.toSpawn.foldl (fun w id => w.spawnWaitingProcess env id)
      (w.verdicts env).2).kills = w.kills :=
    Fold.foldl_invariant (I := fun w' : World => w'.kills = w.kills) hverdicts fun w' id _ hw' =>
      (kills_spawnWaitingProcess env id w').trans hw'
  exact Fold.foldl_invariant (I := fun w' : World => w'.kills = w.kills) hspawn fun w' id _ hw' =>
    ifRunning_invariant (I := fun w' : World => w'.kills = w.kills) hw' fun _ =>
      (mapStep_failWaiting (P := fun _ => False) id w').kills.eq_of_none.trans hw'

end World

end ProcessManager
