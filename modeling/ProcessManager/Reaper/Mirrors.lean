import ProcessManager.Process.Alike
import ProcessManager.Reaper.SelfBlock

/-! Phases 4 to 6 in two worlds that differ in restart counters only. No decision of these
phases depends on a counter, so the worlds stay as they are to each other. -/

namespace ProcessManager

variable {env : Env} {E : ProcessId → Process → Process → Prop} {C : OsChild → OsChild → Prop} {w w' : World}
  {id : ProcessId} {p p' : Process}

/-! ### Rules -/

theorem resolveDependencies_congr {s t : AssocMap ProcessId Process} (deps : List DependencyRef)
    (h : ∀ l, t.findKey (isResolvable l) = s.findKey (isResolvable l)) :
    resolveDependencies t deps = resolveDependencies s deps := by
  induction deps with
  | nil => rfl
  | cons dep deps ih =>
    cases dep with
    | label l => simp only [resolveDependencies, h l, ih]
    | id i => simp only [resolveDependencies, ih]

namespace World

theorem Alike.ifRunning {f f' : World → World} (h : Alike E C w w')
    (hf : w.reaper = .running → Alike E C (f w) (f' w')) : Alike E C (w.ifRunning f) (w'.ifRunning f') := by
  unfold World.ifRunning
  rw [h.reaper]
  split_ifs with hr
  · exact hf hr
  · exact h

theorem Alike.removeEntry (h : Alike E C w w') (id : ProcessId) :
    Alike E C (w.removeEntry id) (w'.removeEntry id) :=
  ((h.lock _ _ id id).remove id).unlock _ _ id id

theorem Alike.sendOrReturn (h : Alike E C w w') (hC : OsChild.Stable C) (env : Env) (event : ProcessExitEvent) :
    Alike E C (w.sendOrReturn env event) (w'.sendOrReturn env event) := by
  have hsend := h.send hC env event
  simp only [World.sendOrReturn, h.sendOk env]
  split_ifs
  · exact hsend
  · exact { hsend with reaper := rfl }

/-- What two polls of each dependency keep, `all_deps_running` keeps, with the same answer. -/
theorem allDepsRunning_rel {J : World → World → Prop} (hlock : ∀ id w w', J w w' → J (w.lock .exclusive id) (w'.lock .exclusive id))
    (hunlock : ∀ id w w', J w w' → J (w.unlock .exclusive id) (w'.unlock .exclusive id)) {deps : List ProcessId}
    (hpoll : ∀ id ∈ deps, ∀ w w', J w w' → (w.processes.lookup id = none ∧ w'.processes.lookup id = none) ∨
      ∃ p p', w.processes.lookup id = some p ∧ w'.processes.lookup id = some p' ∧
        (p'.state = .waiting ↔ p.state = .waiting) ∧
        (p'.pollState env w').1.state = (p.pollState env w).1.state ∧
        J (w.pollEntry env id p) (w'.pollEntry env id p')) (h : J w w') :
    (w'.allDepsRunning env deps).1 = (w.allDepsRunning env deps).1 ∧
      J (w.allDepsRunning env deps).2 (w'.allDepsRunning env deps).2 := by
  induction deps generalizing w w' with
  | nil => exact ⟨rfl, h⟩
  | cons dep deps ih =>
    have hlocked := hlock dep w w' h
    obtain ⟨hp, hp'⟩ | ⟨p, p', hp, hp', hwaiting, hstate, hpolled⟩ := hpoll dep List.mem_cons_self _ _ hlocked
    · rw [lock_processes] at hp hp'
      simp only [allDepsRunning, lock_processes, hp, hp']
      exact ⟨trivial, hunlock dep _ _ hlocked⟩
    · rw [lock_processes] at hp hp'
      simp only [allDepsRunning, lock_processes, hp, hp', hwaiting, hstate]
      split_ifs
      · exact ⟨rfl, hunlock dep _ _ hlocked⟩
      · exact ih (fun id hid => hpoll id (List.mem_cons_of_mem dep hid)) (hunlock dep _ _ hpolled)
      · exact ⟨rfl, hunlock dep _ _ hpolled⟩

/-! ### Mirrored worlds -/

/-- The worlds agree in all but their logs and restart counters. -/
abbrev Mirrors (w w' : World) : Prop := Alike (fun _ => Process.Mirrors) Eq w w'

namespace Mirrors

theorem tick (h : Mirrors w w') (env : Env) : Mirrors (w.tick env) (w'.tick env) := Alike.tick h OsChild.stable_eq env

theorem send (h : Mirrors w w') (env : Env) (event : ProcessExitEvent) :
    Mirrors (w.send env event) (w'.send env event) := Alike.send h OsChild.stable_eq env event

theorem sendOrReturn (h : Mirrors w w') (env : Env) (event : ProcessExitEvent) :
    Mirrors (w.sendOrReturn env event) (w'.sendOrReturn env event) :=
  Alike.sendOrReturn h OsChild.stable_eq env event

theorem pollEntry (h : Mirrors w w') (env : Env) (id : ProcessId) (hp : p.Mirrors p') :
    (p'.pollState env w').1.state = (p.pollState env w).1.state ∧
      Mirrors (w.pollEntry env id p) (w'.pollEntry env id p') := by
  obtain ⟨s, heq, heq', hworld, _⟩ := Alike.pollState h OsChild.stable_eq (fun _ _ h => by rw [h]) env hp.child
    (.inl hp.state) fun _ _ => by rw [h.children_eq]
  refine ⟨by rw [heq, heq'], ?_⟩
  unfold World.pollEntry
  rw [heq, heq']
  exact Alike.put hworld { hp with state := rfl }

theorem allDepsRunning (h : Mirrors w w') (env : Env) (deps : List ProcessId) :
    (w'.allDepsRunning env deps).1 = (w.allDepsRunning env deps).1 ∧
      Mirrors (w.allDepsRunning env deps).2 (w'.allDepsRunning env deps).2 := by
  refine allDepsRunning_rel (J := Mirrors) (fun id _ _ h => h.lock _ _ id id) (fun id _ _ h => h.unlock _ _ id id)
    (fun id _ w w' h => ?_) h
  rcases h.processes.lookup_cases id with hnone | ⟨p, p', hp, hp', hmirrors⟩
  · exact .inl hnone
  · obtain ⟨hstate, hpolled⟩ := h.pollEntry env id hmirrors
    exact .inr ⟨p, p', hp, hp', by rw [hmirrors.state], hstate, hpolled⟩

theorem findKey (h : Mirrors w w') {f : Process → Bool} (hf : ∀ p p', p.Mirrors p' → f p' = f p) :
    w'.processes.findKey f = w.processes.findKey f :=
  h.processes.findKey_eq fun a b c hb hc => hf b c (h.processes.entry a b c hb hc)

theorem keysWhere (h : Mirrors w w') {f : Process → Bool} (hf : ∀ p p', p.Mirrors p' → f p' = f p) :
    w'.processes.keysWhere f = w.processes.keysWhere f :=
  h.processes.keysWhere_eq fun a b c hb hc => hf b c (h.processes.entry a b c hb hc)

theorem resolvedOrDefault (h : Mirrors w w') (deps : List DependencyRef) :
    resolvedOrDefault w'.processes deps = resolvedOrDefault w.processes deps := by
  have hresolve := resolveDependencies_congr deps fun l =>
    h.findKey (f := isResolvable l) fun p p' hp => by rw [isResolvable, isResolvable, hp.label, hp.state]
  rw [ProcessManager.resolvedOrDefault, ProcessManager.resolvedOrDefault, hresolve]

theorem spawnProcess (h : Mirrors w w') (env : Env) (site : SpawnSite) (id : ProcessId) (config : ProcessConfig)
    (deps : List ProcessId) :
    Mirrors (w.spawnProcess env site id config deps) (w'.spawnProcess env site id config deps) :=
  Alike.spawnProcess h OsChild.stable_eq (fun _ => rfl) env site id config deps (h.nextPid env)

/-! ### Phase 4 -/

theorem failSpawn (h : Mirrors w w') (env : Env) (id : ProcessId) (hp : p.Mirrors p') :
    Mirrors (w.failSpawn env id p) (w'.failSpawn env id p') := by
  unfold World.failSpawn
  rw [hp.endEvent]
  have hput : Mirrors (w.put id { p with state := .failed }) (w'.put id { p' with state := .failed }) :=
    Alike.put h { hp with state := rfl }
  exact send ((hput.unlock _ _ id id).removeEntry id) env _

/-- Both reset their clocks at the same time, or neither tracks restarts. -/
theorem tick_if (h : Mirrors w w') (env : Env) (b : Bool) :
    Mirrors (if b then w.tick env else w) (if b then w'.tick env else w') := by
  split_ifs
  · exact h.tick env
  · exact h

theorem respawn (h : Mirrors w w') (env : Env) (id : ProcessId) (hp : p.Mirrors p') :
    Mirrors (w.respawn env id p) (w'.respawn env id p') := by
  have hspawn := h.spawnProcess env .performRestart id p.config p.resolvedDeps
  simp only [World.respawn, hp.config, hp.resolvedDeps, h.spawnError env, hp.isSome, h.nextChild, h.nextPid env]
  split
  · exact hspawn.failSpawn env id hp
  · have hticked := hspawn.tick_if env p.restartState.isSome
    refine (Alike.put hticked ?_).unlock _ _ id id
    rw [hticked.clock]
    exact {
      hp with
      pid := rfl
      config := rfl
      child := rfl
      times := hp.times_map (g := fun _ => (some _, none)) fun _ => rfl
      resolvedDeps := rfl
      state := rfl }

theorem restartToWaiting (h : Mirrors w w') (env : Env) (id : ProcessId) (hp : p.Mirrors p')
    (resolved : List ProcessId) :
    Mirrors (w.restartToWaiting env id p resolved) (w'.restartToWaiting env id p' resolved) := by
  have htick := h.tick env
  simp only [World.restartToWaiting]
  refine (Alike.put htick ?_).unlock _ _ id id
  exact { hp with
    cascadeFlag := rfl
    resolvedDeps := rfl
    waitingSince := by rw [htick.clock]
    state := rfl }

theorem performRestart (h : Mirrors w w') (env : Env) (id : ProcessId) :
    Mirrors (w.performRestart env id) (w'.performRestart env id) := by
  have hlocked : Mirrors (w.lock .exclusive id) (w'.lock .exclusive id) := h.lock _ _ id id
  rcases h.processes.lookup_cases id with ⟨hp, hp'⟩ | ⟨p, p', hp, hp', hmirrors⟩
  · simp only [World.performRestart, lock_processes, hp, hp']
    exact hlocked.unlock _ _ id id
  · simp only [World.performRestart, lock_processes, hp, hp', hmirrors.config, h.resolvedOrDefault]
    have htouched : Mirrors ((w.lock .exclusive id).touch .shared (resolveVisits w.processes p.config.dependsOn))
        ((w'.lock .exclusive id).touch .shared (resolveVisits w'.processes p.config.dependsOn)) :=
      hlocked.touch _ _ _ _
    obtain ⟨hready, hpolled⟩ := htouched.allDepsRunning env
      (ProcessManager.resolvedOrDefault w.processes p.config.dependsOn)
    rw [hready]
    split_ifs
    · exact hlocked.respawn env id hmirrors
    · exact hpolled.respawn env id { hmirrors with config := rfl, resolvedDeps := rfl }
    · exact hpolled.restartToWaiting env id hmirrors _
    · exact htouched.restartToWaiting env id hmirrors _

theorem restartDue_eq (now : Instant) (hp : p.Mirrors p') : restartDue now p' = restartDue now p := by
  have htimes := hp.times
  unfold restartDue
  rw [hp.state]
  cases hrs : p.restartState with
  | none =>
    rw [hrs, Option.map_none, Option.map_eq_none_iff] at htimes
    rw [htimes]
  | some rs =>
    rw [hrs, Option.map_some, Option.map_eq_some_iff] at htimes
    obtain ⟨rs', hrs', htimes⟩ := htimes
    have hdue : rs'.nextEligibleRestart = rs.nextEligibleRestart := congrArg Prod.snd htimes
    simp only [hrs', RestartState.isEligibleForRestart, hdue]

theorem restartIds (h : Mirrors w w') (now : Instant) : w'.restartIds now = w.restartIds now :=
  h.keysWhere fun _ _ => restartDue_eq now

theorem phase4 (h : Mirrors w w') (env : Env) (now : Instant) : Mirrors (w.phase4 env now) (w'.phase4 env now) := by
  unfold World.phase4
  rw [h.restartIds]
  exact List.foldl_rel (r := Mirrors) (h.touch _ _ _ _) fun id _ _ _ h => h.performRestart env id

/-! ### Guards in Phase 4 -/

theorem polledDeps (h : Mirrors w w') (env : Env) (deps : List ProcessId) :
    polledDeps env deps w' = polledDeps env deps w := by
  induction deps generalizing w w' with
  | nil => rfl
  | cons dep deps ih =>
    have hlocked : Mirrors (w.lock .exclusive dep) (w'.lock .exclusive dep) := h.lock _ _ dep dep
    rcases h.processes.lookup_cases dep with ⟨hp, hp'⟩ | ⟨p, p', hp, hp', hmirrors⟩
    · simp only [World.polledDeps, lock_processes, hp, hp']
    · obtain ⟨hstate, hpolled⟩ := hlocked.pollEntry env dep hmirrors
      have hrest := ih (hpolled.unlock .exclusive .exclusive dep dep)
      simp only [World.polledDeps, lock_processes, hp, hp', hmirrors.state, hstate, hrest]

theorem resolveVisits (h : Mirrors w w') (deps : List DependencyRef) :
    resolveVisits w'.processes deps = resolveVisits w.processes deps := by
  have hresolvable : ∀ (l : Label) a p p', w.processes.lookup a = some p → w'.processes.lookup a = some p' →
      isResolvable l p' = isResolvable l p := by
    intro l a p p' hp hp'
    have hmirrors := h.processes.entry a p p' hp hp'
    rw [isResolvable, isResolvable, hmirrors.label, hmirrors.state]
  induction deps with
  | nil => rfl
  | cons dep deps ih =>
    cases dep with
    | label l =>
      simp only [ProcessManager.resolveVisits, h.processes.visitedKeys_eq (hresolvable l),
        h.processes.findKey_eq (hresolvable l), ih]
    | id i => exact ih

/-- A restart waits for a guard of its own thread in both worlds or in neither. -/
theorem restartUnblocked {σ : Type*} {shard : ProcessId → σ} (h : Mirrors w w') (env : Env) (id : ProcessId) :
    RestartUnblocked shard env id w' ↔ RestartUnblocked shard env id w := by
  unfold RestartUnblocked
  rcases h.processes.lookup_cases id with ⟨hp, hp'⟩ | ⟨p, p', hp, hp', hmirrors⟩
  · simp only [hp, hp', reduceCtorEq, IsEmpty.forall_iff, implies_true]
  · have hlocked : ∀ ids, Mirrors ((w.lock .exclusive id).touch .shared ids) ((w'.lock .exclusive id).touch .shared ids) :=
      fun ids => (h.lock _ _ id id).touch _ _ ids ids
    simp only [hp, hp', Option.some.injEq, forall_eq', hmirrors.config, h.resolveVisits, h.resolvedOrDefault,
      (hlocked _).polledDeps]

theorem restartsUnblocked {σ : Type*} {shard : ProcessId → σ} (h : Mirrors w w') (env : Env) (ids : List ProcessId) :
    Fold.Meets (fun w id => RestartUnblocked shard env id w) (fun w id => w.performRestart env id) ids w' ↔
      Fold.Meets (fun w id => RestartUnblocked shard env id w) (fun w id => w.performRestart env id) ids w := by
  induction ids generalizing w w' with
  | nil => exact Iff.rfl
  | cons id ids ih => exact and_congr (h.restartUnblocked env id) (ih (h.performRestart env id))

/-! ### Phase 5 -/

theorem isTerminalDep (h : Mirrors w w') : isTerminalDep w'.processes = isTerminalDep w.processes := by
  funext dep
  unfold ProcessManager.isTerminalDep
  rcases h.processes.lookup_cases dep with ⟨hp, hp'⟩ | ⟨p, p', hp, hp', hmirrors⟩ <;> rw [hp, hp']
  simp only [hmirrors.state, hmirrors.config]

theorem isRunningDep (h : Mirrors w w') : isRunningDep w'.processes = isRunningDep w.processes := by
  funext dep
  unfold ProcessManager.isRunningDep
  rcases h.processes.lookup_cases dep with ⟨hp, hp'⟩ | ⟨p, p', hp, hp', hmirrors⟩ <;> rw [hp, hp']
  simp only [hmirrors.state]

theorem hasLabel (h : Mirrors w w') (l : Label) : hasLabel w'.processes l = hasLabel w.processes l := by
  funext dep
  unfold ProcessManager.hasLabel
  rcases h.processes.lookup_cases dep with ⟨hp, hp'⟩ | ⟨p, p', hp, hp', hmirrors⟩ <;> rw [hp, hp']
  simp only [hmirrors.label]

theorem depsToResolve (h : Mirrors w w') (hp : p.Mirrors p') :
    depsToResolve w'.processes p' = depsToResolve w.processes p := by
  have hbound : ∀ dep, isBound w'.processes p.resolvedDeps dep = isBound w.processes p.resolvedDeps dep := by
    intro dep
    cases dep with
    | label l => rw [isBound, isBound, h.hasLabel l]
    | id i => rfl
  unfold ProcessManager.depsToResolve
  simp only [hp.config, hp.resolvedDeps, hbound]

theorem newlyResolved (h : Mirrors w w') (deps : List DependencyRef) :
    newlyResolved w'.processes deps = newlyResolved w.processes deps := by
  refine List.filterMap_congr fun dep _ => ?_
  cases dep with
  | label l =>
    exact h.findKey (f := isRunningLabel l) fun p p' hp => by rw [isRunningLabel, isRunningLabel, hp.label, hp.state]
  | id i => rfl

/-- The same verdicts in mirrored worlds. -/
def Verdict (x x' : Verdicts × World) : Prop := x'.1 = x.1 ∧ Mirrors x.2 x'.2

theorem failIfTerminal (h : Mirrors w w') (id : ProcessId) (deps : List ProcessId) (v : Verdicts) :
    Verdict (w.failIfTerminal id deps v) (w'.failIfTerminal id deps v) := by
  simp only [World.failIfTerminal, h.isTerminalDep]
  split_ifs <;> exact ⟨rfl, h.touch _ _ _ _⟩

theorem spawnIfReady (h : Mirrors w w') (id : ProcessId) (hp : p.Mirrors p') (v : Verdicts) :
    Verdict (w.spawnIfReady id p v) (w'.spawnIfReady id p' v) := by
  simp only [World.spawnIfReady, h.isRunningDep, hp.resolvedDeps, hp.config]
  split_ifs <;> exact ⟨rfl, h.touch _ _ _ _⟩

theorem checkResolved (h : Mirrors w w') (id : ProcessId) (hp : p.Mirrors p') (v : Verdicts) :
    Verdict (w.checkResolved id p v) (w'.checkResolved id p' v) := by
  have htouched : ∀ ids ids', Mirrors (w.touch .shared ids) (w'.touch .shared ids') := fun _ _ => h.touch _ _ _ _
  simp only [World.checkResolved, h.isRunningDep, hp.resolvedDeps]
  split_ifs
  · exact ⟨rfl, (htouched _ _).unlock _ _ id id⟩
  · obtain ⟨hverdict, hworld⟩ := (htouched _ _).failIfTerminal id p.resolvedDeps v
    exact ⟨hverdict, hworld.unlock _ _ id id⟩

theorem resolveMore (h : Mirrors w w') (id : ProcessId) (hp : p.Mirrors p') (v : Verdicts) :
    Verdict (w.resolveMore id p v) (w'.resolveMore id p' v) := by
  have hsearched : ∀ bound bound' found found',
      Mirrors (((w.touch .shared bound).unlock .shared id).touch .shared found)
        (((w'.touch .shared bound').unlock .shared id).touch .shared found') :=
    fun bound bound' found found' => ((h.touch _ _ bound bound').unlock _ _ id id).touch _ _ found found'
  simp only [World.resolveMore, touch_processes, unlock_processes, h.depsToResolve hp, h.newlyResolved,
    hp.resolvedDeps]
  split_ifs
  · exact (hsearched _ _ _ _).failIfTerminal id p.resolvedDeps v
  · have hextended : ∀ new, (p.extend new).Mirrors (p'.extend new) := fun new =>
      { hp with resolvedDeps := congrArg (· ++ new) hp.resolvedDeps }
    have hput : ∀ {u u' : World} (new : List ProcessId), Mirrors u u' →
        Mirrors ((((u.lock .exclusive id).put id (p.extend new)).unlock .exclusive id).lock .shared id)
          ((((u'.lock .exclusive id).put id (p'.extend new)).unlock .exclusive id).lock .shared id) :=
      fun new hu => ((Alike.put (hu.lock _ _ id id) (hextended new)).unlock _ _ id id).lock _ _ id id
    obtain ⟨hverdict, hworld⟩ := (hput _ (hsearched _ _ _ _)).spawnIfReady id (hextended _) v
    exact ⟨hverdict, hworld.unlock _ _ id id⟩

theorem examine (env : Env) (id : ProcessId) {x x' : Verdicts × World} (h : Verdict x x') :
    Verdict (World.examine env id x) (World.examine env id x') := by
  obtain ⟨v, w⟩ := x
  obtain ⟨v', w'⟩ := x'
  obtain ⟨rfl, h⟩ : v' = v ∧ Mirrors w w' := h
  have hlocked : Mirrors (w.lock .shared id) (w'.lock .shared id) := h.lock _ _ id id
  rcases h.processes.lookup_cases id with ⟨hp, hp'⟩ | ⟨p, p', hp, hp', hmirrors⟩
  · simp only [World.examine, lock_processes, hp, hp']
    exact ⟨rfl, hlocked.unlock _ _ id id⟩
  · have htimeout : (w'.lock .shared id).timedOut env p' = (w.lock .shared id).timedOut env p := by
      unfold timedOut
      rw [hmirrors.waitingSince, hmirrors.config, (hlocked.tick env).clock]
    have hread : Mirrors ((w.lock .shared id).readElapsed env p) ((w'.lock .shared id).readElapsed env p') := by
      unfold readElapsed
      rw [hmirrors.waitingSince]
      exact hlocked.tick_if env _
    simp only [World.examine, lock_processes, hp, hp', htimeout, hmirrors.resolvedDeps, hmirrors.config]
    split_ifs
    · exact ⟨rfl, hread.unlock _ _ id id⟩
    · exact hread.resolveMore id hmirrors v'
    · exact hread.checkResolved id hmirrors v'

theorem spawnWaitingProcess (h : Mirrors w w') (env : Env) (id : ProcessId) :
    Mirrors (w.spawnWaitingProcess env id) (w'.spawnWaitingProcess env id) := by
  have hlocked : Mirrors (w.lock .exclusive id) (w'.lock .exclusive id) := h.lock _ _ id id
  rcases h.processes.lookup_cases id with ⟨hp, hp'⟩ | ⟨p, p', hp, hp', hmirrors⟩
  · simp only [World.spawnWaitingProcess, lock_processes, hp, hp']
    exact hlocked.unlock _ _ id id
  · have hspawn := hlocked.spawnProcess env .spawnWaiting id p.config p.resolvedDeps
    simp only [World.spawnWaitingProcess, lock_processes, hp, hp', hmirrors.config, hmirrors.resolvedDeps,
      hlocked.spawnError env, hmirrors.isSome, hlocked.nextChild, hlocked.nextPid env]
    split
    · exact hspawn.failSpawn env id hmirrors
    · have hticked := hspawn.tick_if env p.restartState.isSome
      refine (Alike.put hticked ?_).unlock _ _ id id
      rw [hticked.clock]
      exact {
        hmirrors with
        pid := rfl
        config := rfl
        child := rfl
        times := hmirrors.times_map (g := fun t => (some _, t.2)) fun _ => rfl
        resolvedDeps := rfl
        waitingSince := rfl
        state := rfl }

theorem failWaiting (h : Mirrors w w') (env : Env) (id : ProcessId) :
    Mirrors (w.failWaiting env id) (w'.failWaiting env id) := by
  have hlocked : Mirrors (w.lock .exclusive id) (w'.lock .exclusive id) := h.lock _ _ id id
  rcases h.processes.lookup_cases id with ⟨hp, hp'⟩ | ⟨p, p', hp, hp', hmirrors⟩
  · simp only [World.failWaiting, lock_processes, hp, hp']
    exact hlocked.unlock _ _ id id
  · simp only [World.failWaiting, lock_processes, hp, hp', hmirrors.endEvent]
    have hput : Mirrors ((w.lock .exclusive id).put id { p with state := .failed })
        ((w'.lock .exclusive id).put id { p' with state := .failed }) :=
      Alike.put hlocked { hmirrors with state := rfl }
    exact sendOrReturn ((hput.unlock _ _ id id).removeEntry id) env _

theorem phase5 (h : Mirrors w w') (env : Env) : Mirrors (w.phase5 env) (w'.phase5 env) := by
  have hids : w'.waitingIds = w.waitingIds := h.keysWhere fun _ _ hp => by rw [hp.state]
  have hverdicts : Verdict (w.verdicts env) (w'.verdicts env) := by
    unfold verdicts
    rw [hids]
    exact List.foldl_rel (r := Verdict) ⟨rfl, h.touch _ _ _ _⟩ fun id _ _ _ h => examine env id h
  simp only [World.phase5, hverdicts.1]
  have hspawned := List.foldl_rel (r := Mirrors) (l := (w.verdicts env).1.toSpawn) hverdicts.2
    fun id _ _ _ h => h.spawnWaitingProcess env id
  exact List.foldl_rel (r := Mirrors) hspawned fun id _ _ _ h => Alike.ifRunning h fun _ => failWaiting h env id

/-! ### Phase 6 -/

theorem sendSignal (h : Mirrors w w') (env : Env) (site : KillSite) (hp : p.Mirrors p') :
    Mirrors (p.sendSignal env site p.config.killSignal w).2 (p'.sendSignal env site p'.config.killSignal w').2 := by
  unfold Process.sendSignal
  rw [hp.pid, hp.config]
  split_ifs
  · exact h
  · exact Alike.kill h env site _ hp.toCopy

theorem failRunning (h : Mirrors w w') (env : Env) (id : ProcessId) (hp : p.Mirrors p') :
    Mirrors (w.failRunning env id p) (w'.failRunning env id p') := by
  have hlocked : Mirrors (w.lock .exclusive id) (w'.lock .exclusive id) := h.lock _ _ id id
  simp only [World.failRunning, hp.endEvent, hp.pid]
  refine sendOrReturn (Alike.removeEntry (Alike.unlock _ _ id id ?_) id) env _
  rcases h.processes.lookup_cases id with ⟨hq, hq'⟩ | ⟨q, q', hq, hq', hmirrors⟩
  · simp only [lock_processes, hq, hq']
    exact hlocked
  · simp only [lock_processes, hq, hq']
    have hput : Mirrors ((w.lock .exclusive id).put id { q with state := .failed })
        ((w'.lock .exclusive id).put id { q' with state := .failed }) :=
      Alike.put hlocked { hmirrors with state := rfl }
    split_ifs
    · exact hput.sendSignal env .failFast hmirrors
    · exact hput

theorem failFast (h : Mirrors w w') (env : Env) (id : ProcessId) :
    Mirrors (w.failFast env id) (w'.failFast env id) := by
  have hlocked : Mirrors (w.lock .shared id) (w'.lock .shared id) := h.lock _ _ id id
  rcases h.processes.lookup_cases id with ⟨hp, hp'⟩ | ⟨p, p', hp, hp', hmirrors⟩
  · simp only [World.failFast, lock_processes, hp, hp']
    exact hlocked.unlock _ _ id id
  · simp only [World.failFast, lock_processes, hp, hp', h.isTerminalDep, hmirrors.resolvedDeps]
    have hchecked : ∀ ids ids', Mirrors (((w.lock .shared id).touch .shared ids).unlock .shared id)
        (((w'.lock .shared id).touch .shared ids').unlock .shared id) :=
      fun ids ids' => (hlocked.touch _ _ ids ids').unlock _ _ id id
    split_ifs
    · exact (hchecked _ _).failRunning env id hmirrors
    · exact hchecked _ _

theorem phase6 (h : Mirrors w w') (env : Env) : Mirrors (w.phase6 env) (w'.phase6 env) := by
  have hids : w'.runningWithDeps = w.runningWithDeps :=
    h.keysWhere fun _ _ hp => by rw [hp.state, hp.resolvedDeps]
  unfold World.phase6
  rw [hids]
  exact List.foldl_rel (r := Mirrors) (h.touch _ _ _ _) fun id _ _ _ h => Alike.ifRunning h fun _ => failFast h env id

end Mirrors

end World

end ProcessManager
