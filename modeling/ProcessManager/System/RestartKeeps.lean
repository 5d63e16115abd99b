import ProcessManager.Manager.RestartFails
import ProcessManager.System.Run

/-! What a successful `restart` keeps of the entry. In place it keeps everything; a process that
had to be stopped comes back with the next spawn sequence and without its bindings, which the
strategies and the dependents of others rely on. -/

namespace ProcessManager

/-- What a restart has no reason to change. -/
structure Standing where
  id : ProcessId
  label : Label
  config : ProcessConfig
  terminateOnExit : Bool
  spawnSequence : ℕ
  resolvedDeps : List ProcessId

def Process.standing (p : Process) : Standing :=
  ⟨p.id, p.label, p.config, p.terminateOnExit, p.spawnSequence, p.resolvedDeps⟩

namespace World

/-- A `restart` that returns `Ok` keeps the standing of the process. -/
def KeepsStanding (env : Env) (id : ProcessId) (w : World) : Prop :=
  ∀ p new, w.processes.lookup id = some p → (w.restart env id).1 = .ok new →
    ((w.restart env id).2.processes.lookup id).map Process.standing = some p.standing

/-- The standing that a new entry gets under the id of `p`. -/
def newStanding (id : ProcessId) (p : Process) (w : World) : Standing :=
  ⟨id, p.label, p.config, p.config.terminateOnExit, w.nextSpawnSequence, []⟩

/-- The process is `Restarting`, or its restart fails, or its entry already looks like the one that
replaces it: bound to nothing, with the sequence number that is handed out next. -/
def RestartInPlace (env : Env) (id : ProcessId) (w : World) : Prop :=
  ∀ p, w.processes.lookup id = some p → p.state = .restarting ∨ w.SignalsRefused env id ∨
    (w.respawnAt env id p).spawnError env p.config ≠ none ∨ p.standing = w.newStanding id p

/-- One `restart` after the other. -/
def restarts (env : Env) (ids : List ProcessId) (w : World) : World :=
  ids.foldl (fun w id => (w.restart env id).2) w

/-- The spawn sequence orders the processes of a group as before, and every process bound to `d` is
still a dependent of `d`. -/
structure GroupsKept (w w' : World) : Prop where
  order : ∀ i j p q p' q', w.processes.lookup i = some p → w.processes.lookup j = some q →
    w'.processes.lookup i = some p' → w'.processes.lookup j = some q' → p.label = q.label →
    (p'.spawnSequence < q'.spawnSequence ↔ p.spawnSequence < q.spawnSequence)
  dependents : ∀ d i, i ∈ w.dependents d → i ∈ w'.dependents d

/-- The same of the processes that are still tracked. -/
structure RemainingKept (w w' : World) : Prop where
  order : ∀ i j p q p' q', w.processes.lookup i = some p → w.processes.lookup j = some q →
    w'.processes.lookup i = some p' → w'.processes.lookup j = some q' → p.label = q.label →
    (p'.spawnSequence < q'.spawnSequence ↔ p.spawnSequence < q.spawnSequence)
  dependents : ∀ d i p', i ∈ w.dependents d → w'.processes.lookup i = some p' → i ∈ w'.dependents d

/-- If the process is tracked, it is `Restarting`. -/
def OnlyRestarting (w : World) (id : ProcessId) : Prop :=
  ∀ p, w.processes.lookup id = some p → p.state = .restarting

variable {env : Env} {w w' : World} {id i j : ProcessId} {p q : Process} {ids : List ProcessId}

/-! ### The standing of one process -/

theorem standing_restartReset (hp : w.processes.lookup id = some p) :
    ((w.restartReset env id).processes.lookup id).map Process.standing = some p.standing := by
  rw [restartReset_lookup env hp]
  rfl

theorem standing_restartInPlace (env : Env) (hp : w.processes.lookup id = some p) :
    ((w.restartInPlace env id p).2.processes.lookup id).map Process.standing = some p.standing := by
  cases hspawn : (w.restartReset env id).spawnError env p.config with
  | some e =>
    rw [restartInPlace_of_error hspawn, spawnProcess_processes]
    exact standing_restartReset hp
  | none =>
    obtain ⟨_, now, hentry⟩ := restartInPlace_of_ok hp hspawn
    rw [hentry]
    rfl

theorem nextSpawnSequence_stop (env : Env) (id : ProcessId) (w : World) :
    (w.stop env id).2.nextSpawnSequence = w.nextSpawnSequence := by
  refine stop_invariant_of_forall (I := fun w' => w'.nextSpawnSequence = w.nextSpawnSequence) ?_ id rfl
  intro i w' hw'
  cases hp : w'.processes.lookup i with
  | none => rw [stopOne_of_untracked hp, hw']
  | some p =>
    have hstep : OsStep p.handles _ (w'.remove i) (w'.stopOne env i).2 := osStep_stopOne hp
    exact hstep.nextSpawnSequence.trans hw'

/-- The new entry of a process that was stopped. -/
theorem standing_restartInsert (id : ProcessId)
    (hok : (w.stop env id).2.spawnError env p.config = none) :
    (((w.stop env id).2.restartInsert env id p).2.processes.lookup id).map Process.standing =
      some (w.newStanding id p) := by
  obtain ⟨_, now, hentry⟩ := restartInsert_of_ok id hok
  rw [hentry, newStanding, ← nextSpawnSequence_stop env id w]
  rfl

/-- A restart keeps the standing exactly where it happens in place, fails, or has nothing to lose. -/
theorem restartKeeps_iff_inPlace (env : Env) (id : ProcessId) (w : World) :
    w.KeepsStanding env id ↔ w.RestartInPlace env id := by
  unfold KeepsStanding RestartInPlace
  refine forall_congr' fun p => ?_
  by_cases hp : w.processes.lookup id = some p
  swap
  · exact ⟨fun _ h => absurd h hp, fun _ _ h => absurd h hp⟩
  by_cases hstate : p.state = .restarting
  · refine ⟨fun _ _ => .inl hstate, fun _ new _ _ => ?_⟩
    rw [restart_of_restarting hp hstate]
    exact standing_restartInPlace env hp
  · rw [respawnAt, if_neg hstate]
    obtain ⟨hrefused, ⟨pid, errno, herror⟩, _⟩ | ⟨hallowed, hrestart⟩ := restart_of_stopped env hp hstate
    · refine ⟨fun _ _ => .inr (.inl hrefused), fun _ new _ hok => ?_⟩
      rw [herror] at hok
      cases hok
    · rw [hrestart]
      cases hspawn : (w.stop env id).2.spawnError env p.config with
      | some e =>
        refine ⟨fun _ _ => .inr (.inr (.inl (by simp))), fun _ new _ hok => ?_⟩
        rw [restartInsert_of_error hspawn] at hok
        cases hok
      | none =>
        rw [standing_restartInsert id hspawn]
        constructor
        · intro hkeeps _
          have hsame := hkeeps id hp (restartInsert_of_ok id hspawn).1
          exact .inr (.inr (.inr (Option.some.inj hsame).symm))
        · intro h new _ _
          obtain hrestarting | hrefused | hfails | hsame := h hp
          · exact absurd hrestarting hstate
          · exact absurd hrefused hallowed
          · exact absurd rfl hfails
          · rw [hsame]

/-! ### Histories of restarts -/

/-- No standing has changed. -/
def SameStandings (w w' : World) : Prop :=
  ∀ i, (w'.processes.lookup i).map Process.standing = (w.processes.lookup i).map Process.standing

theorem sameStandings_restart (env : Env) (h : OnlyRestarting w id) : SameStandings w (w.restart env id).2 := by
  intro i
  obtain ⟨_, heq⟩ | ⟨p, hp, ⟨_, heq⟩ | ⟨hstate, _⟩⟩ := restart_cases env id w
  · rw [heq]
  · rw [heq]
    by_cases hi : i = id
    · subst hi
      rw [standing_restartInPlace env hp, hp, Option.map_some]
    · rw [restartInPlace_lookup env hi hp]
  · exact absurd (h p hp) hstate

theorem sameStandings_restarts (env : Env) (ids : List ProcessId)
    (h : Fold.Meets OnlyRestarting (fun w id => (w.restart env id).2) ids w) :
    SameStandings w (w.restarts env ids) := by
  refine Fold.invariant (I := SameStandings w) ?_ ids w (fun _ => rfl) h
  intro w' id hw' hid i
  rw [sameStandings_restart env hid i, hw' i]

/-- Every process that is tracked was so before, with the same standing. -/
def Stands (w w' : World) : Prop :=
  ∀ i p', w'.processes.lookup i = some p' → ∃ p, w.processes.lookup i = some p ∧ p'.standing = p.standing

theorem Stands.remainingKept (h : Stands w w') : RemainingKept w w' where
  order := by
    intro i j p q p' q' hp hq hp' hq' _
    obtain ⟨p₁, hp₁, hsameP⟩ := h i p' hp'
    obtain ⟨q₁, hq₁, hsameQ⟩ := h j q' hq'
    obtain rfl : p = p₁ := Option.some.inj (hp.symm.trans hp₁)
    obtain rfl : q = q₁ := Option.some.inj (hq.symm.trans hq₁)
    have hseqP : p'.spawnSequence = p.spawnSequence := congrArg Standing.spawnSequence hsameP
    have hseqQ : q'.spawnSequence = q.spawnSequence := congrArg Standing.spawnSequence hsameQ
    rw [hseqP, hseqQ]
  dependents := by
    intro d i p' hi hp'
    obtain ⟨p, hp, hdep⟩ := AssocMap.mem_keysWhere.mp hi
    obtain ⟨p₁, hp₁, hsame⟩ := h i p' hp'
    obtain rfl : p = p₁ := Option.some.inj (hp.symm.trans hp₁)
    have hdeps : p'.resolvedDeps = p.resolvedDeps := congrArg Standing.resolvedDeps hsame
    exact AssocMap.mem_keysWhere.mpr ⟨p', hp', by rwa [hdeps]⟩

theorem SameStandings.stands (h : SameStandings w w') : Stands w w' := by
  intro i p' hp'
  have hsame := h i
  rw [hp', Option.map_some] at hsame
  obtain ⟨p, hp, hstanding⟩ := Option.map_eq_some_iff.mp hsame.symm
  exact ⟨p, hp, hstanding.symm⟩

theorem SameStandings.groupsKept (h : SameStandings w w') : GroupsKept w w' where
  order := h.stands.remainingKept.order
  dependents := by
    intro d i hi
    obtain ⟨p, hp, _⟩ := AssocMap.mem_keysWhere.mp hi
    have hsame := h i
    rw [hp, Option.map_some, Option.map_eq_some_iff] at hsame
    obtain ⟨p', hp', _⟩ := hsame
    exact h.stands.remainingKept.dependents d i p' hi hp'

/-- A stop removes entries and changes none. -/
theorem stands_stop (env : Env) (id : ProcessId) (w : World) : Stands w (w.stop env id).2 := by
  have hkept : ∀ i p', (w.stop env id).2.processes.lookup i = some p' → w.processes.lookup i = some p' := by
    refine stop_invariant_of_forall
      (I := fun w' => ∀ i p', w'.processes.lookup i = some p' → w.processes.lookup i = some p') ?_ id fun _ _ h => h
    intro j w' hw' i p' hp'
    cases hq : w'.processes.lookup j with
    | none =>
      rw [stopOne_of_untracked hq] at hp'
      exact hw' i p' hp'
    | some q =>
      rw [stopOne_lookup hq] at hp'
      split_ifs at hp'
      exact hw' i p' hp'
  exact fun i p' hp' => ⟨p', hkept i p' hp', rfl⟩

/-- A restart in place, a failed one and one with nothing to lose keep what remains as it stands. -/
theorem stands_restart (h : w.RestartInPlace env id) : Stands w (w.restart env id).2 := by
  cases hp : w.processes.lookup id with
  | none =>
    have hsame : (w.restart env id).2 = w := by simp only [restart, hp]
    rw [hsame]
    exact fun i p' hp' => ⟨p', hp', rfl⟩
  | some p =>
    by_cases hstate : p.state = .restarting
    · refine (sameStandings_restart env fun q hq => ?_).stands
      obtain rfl : p = q := Option.some.inj (hp.symm.trans hq)
      exact hstate
    · obtain ⟨_, _, hrestart⟩ | ⟨hallowed, hrestart⟩ := restart_of_stopped env hp hstate
      · rw [hrestart]
        exact stands_stop env id w
      · rw [hrestart]
        cases hspawn : (w.stop env id).2.spawnError env p.config with
        | some e =>
          rw [restartInsert_of_error hspawn]
          intro i p' hp'
          rw [spawnProcess_processes] at hp'
          exact stands_stop env id w i p' hp'
        | none =>
          -- the new entry stands where the old one did
          have hnew : p.standing = w.newStanding id p := by
            obtain hrestarting | hrefused | hfails | hsame := h p hp
            · exact absurd hrestarting hstate
            · exact absurd hrefused hallowed
            · rw [respawnAt, if_neg hstate] at hfails
              exact absurd hspawn hfails
            · exact hsame
          intro i p' hp'
          by_cases hi : i = id
          · subst hi
            have hstanding := standing_restartInsert (p := p) i hspawn
            rw [hp', Option.map_some, Option.some.injEq] at hstanding
            exact ⟨p, hp, hstanding.trans hnew.symm⟩
          · rw [restartInsert_lookup env hi] at hp'
            exact stands_stop env id w i p' hp'

theorem stands_restarts (env : Env) (ids : List ProcessId)
    (h : Fold.Meets (fun w id => RestartInPlace env id w) (fun w id => (w.restart env id).2) ids w) :
    Stands w (w.restarts env ids) := by
  refine Fold.invariant (I := Stands w) ?_ ids w (fun i p hp => ⟨p, hp, rfl⟩) h
  intro w' id hw' hid i p' hp'
  obtain ⟨q, hq, hsame⟩ := stands_restart hid i p' hp'
  obtain ⟨p, hp, hsame'⟩ := hw' i q hq
  exact ⟨p, hp, hsame.trans hsame'⟩

/-- A restart keeps the standing of its process exactly in place. A history of restarts that are all
in place keeps the start order of the groups and the dependents; where some fail or have nothing to
lose, it keeps those of the processes that remain. -/
theorem restarts_keep_iff (env : Env) (id : ProcessId) (ids : List ProcessId) (w : World) :
    (w.KeepsStanding env id ↔ w.RestartInPlace env id) ∧
      (Fold.Meets OnlyRestarting (fun w id => (w.restart env id).2) ids w →
        GroupsKept w (w.restarts env ids)) ∧
      (Fold.Meets (fun w id => RestartInPlace env id w) (fun w id => (w.restart env id).2) ids w →
        RemainingKept w (w.restarts env ids)) :=
  ⟨restartKeeps_iff_inPlace env id w, fun h => (sameStandings_restarts env ids h).groupsKept,
    fun h => (stands_restarts env ids h).remainingKept⟩

/-- A database in its backoff, and a process of its group that is bound to it. -/
def backoffPair : World :=
  let second : Duration := ⟨10 ^ 9, Duration.second_lt⟩
  let backoff : BackoffConfig := ⟨second, 20, second, 5, second⟩
  (System.withReaper.run (.exitsAt [(4, ⟨0, .code 1, 0⟩)]) 0
    [.start ⟨"app"⟩ { command := "/bin/db", restartOnExit := true, restartPolicy := .backoff backoff },
      .start ⟨"app"⟩ { command := "/bin/web", dependsOn := [.id ⟨1⟩] }, .pass]).world

/-- The database is restarted in its backoff, and somebody restarts an unknown id. -/
theorem restarts_keep_backoff :
    backoffPair.dependents ⟨1⟩ = [⟨2⟩] ∧ GroupsKept backoffPair (backoffPair.restarts .calm [⟨1⟩, ⟨7⟩]) := by
  have hstate : (backoffPair.processes.lookup ⟨1⟩).map Process.state = some .restarting := by decide +kernel
  have hother : (backoffPair.restart .calm ⟨1⟩).2.processes.lookup ⟨7⟩ = none := by decide +kernel
  refine ⟨by decide +kernel, (restarts_keep_iff .calm ⟨1⟩ [⟨1⟩, ⟨7⟩] backoffPair).2.1 ⟨?_, ?_, trivial⟩⟩
  · intro p hp
    rw [hp, Option.map_some, Option.some.injEq] at hstate
    exact hstate
  · intro p hp
    exact absurd (hother.symm.trans hp) nofun

/-- A running process that is bound to a database is restarted: it comes last, and the database
has no dependents any more. -/
theorem not_restarts_keep :
    chain.dependents ⟨1⟩ = [⟨2⟩] ∧ (chain.restart .calm ⟨2⟩).1.isOk = true ∧
      ((chain.restart .calm ⟨2⟩).2.processes.lookup ⟨2⟩).map
        (fun p => (p.state, p.spawnSequence, p.resolvedDeps)) = some (.starting, 3, []) ∧
      ¬ chain.KeepsStanding .calm ⟨2⟩ := by
  have hdeps : (chain.processes.lookup ⟨2⟩).map Process.resolvedDeps = some [⟨1⟩] := by decide +kernel
  have hok : (chain.restart .calm ⟨2⟩).1.isOk = true := by decide +kernel
  have hafter : ((chain.restart .calm ⟨2⟩).2.processes.lookup ⟨2⟩).map
      (fun p => (p.state, p.spawnSequence, p.resolvedDeps)) = some (.starting, 3, []) := by decide +kernel
  refine ⟨by decide +kernel, hok, hafter, fun hkeeps => ?_⟩
  obtain ⟨p, hp, hdeps⟩ := Option.map_eq_some_iff.mp hdeps
  obtain ⟨q, hq, hnew⟩ := Option.map_eq_some_iff.mp hafter
  cases hresult : (chain.restart .calm ⟨2⟩).1 with
  | error e =>
    rw [hresult] at hok
    cases hok
  | ok new =>
    have hsame := hkeeps p new hp hresult
    rw [hq, Option.map_some, Option.some.injEq] at hsame
    have hbound : q.resolvedDeps = p.resolvedDeps := congrArg Standing.resolvedDeps hsame
    have hlost : q.resolvedDeps = [] := congrArg (fun x => x.2.2) hnew
    rw [hdeps, hlost] at hbound
    cases hbound

end World

end ProcessManager
