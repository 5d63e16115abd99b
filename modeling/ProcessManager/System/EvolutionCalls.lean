import ProcessManager.System.Evolution

/-! Calls of the manager evolve its state. An entry is inserted for an id that was not given out before,
or for one that was tracked when the call began. -/

namespace ProcessManager

variable {env : Env} {w w' : World} {id i : ProcessId} {p p' q : Process}

namespace World

/-! ### Starts and queries -/

theorem nextSpawnSequence_spawnProcess (env : Env) (site : SpawnSite) (i : ProcessId) (config : ProcessConfig)
    (deps : List ProcessId) (w : World) :
    (w.spawnProcess env site i config deps).nextSpawnSequence = w.nextSpawnSequence := by
  unfold spawnProcess
  split
  · rfl
  · split_ifs <;> rfl

theorem nextSpawnSequence_pollEntry (env : Env) (i : ProcessId) (q : Process) (w : World) :
    (w.pollEntry env i q).nextSpawnSequence = w.nextSpawnSequence := by
  have hpoll : OsStep q.handles (fun _ => True) w (q.pollState env w).2 := Process.osStep_pollState
  exact hpoll.nextSpawnSequence

theorem evolves_pollEntry (env : Env) (hq : w.processes.lookup i = some q) :
    Evolves w (w.pollEntry env i q) :=
  .of_mapStep (fun _ _ _ => .of_polled) (fun _ => False.elim) (mapStep_pollEntry hq)
    (nextSpawnSequence_pollEntry env i q w) (pollEntry_sends env i q w)

theorem evolves_allDepsRunning (env : Env) (deps : List ProcessId) (w : World) :
    Evolves w (w.allDepsRunning env deps).2 := by
  refine allDepsRunning_invariant (I := Evolves w) ?_ ?_ ?_ deps (.refl w)
  · exact fun i w' h => h.trans (.lock _ i w')
  · exact fun i w' h => h.trans (.unlock _ i w')
  · exact fun i q w' h hq => h.trans (evolves_pollEntry env hq)

theorem evolves_query (env : Env) (i : ProcessId) (w : World) : Evolves w (w.query env i) := by
  unfold query
  split
  · next q hq => exact evolves_pollEntry env hq
  · exact .refl w

theorem evolves_markStartedEntry (env : Env) (i : ProcessId) (w : World) : Evolves w (w.markStartedEntry env i) := by
  unfold markStartedEntry
  split
  · next q hq =>
    split
    · exact (Evolves.tick env w).trans (.put (w := w.tick env) hq ⟨⟨rfl, rfl, rfl, rfl⟩, rfl⟩)
    · exact .refl w
  · exact .refl w

/-- A new id has no past. -/
theorem concerns_nextId (w : World) (Q : Process → Prop) : w.Concerns ⟨w.nextId⟩ Q := .inr le_rfl

theorem evolves_startNow {label : Label} {config : ProcessConfig} (h : Evolves w w') (deps : List ProcessId) :
    Evolves w (w'.startNow env ⟨w.nextId⟩ label config deps).2 := by
  have hspawn : Evolves w (w'.spawnProcess env .start ⟨w.nextId⟩ config deps) :=
    h.spawnProcess .start deps (concerns_nextId w _)
  simp only [startNow]
  split
  · exact hspawn
  · have hinsert : Evolves w ((w'.spawnProcess env .start ⟨w.nextId⟩ config deps).bumpSequence.insert env
        ⟨w.nextId⟩ (w'.spawnedProcess env ⟨w.nextId⟩ label config deps)) :=
      hspawn.insertNext ⟨rfl, rfl⟩ (concerns_nextId w _) (nextSpawnSequence_spawnProcess env ..).symm
    exact hinsert.trans (evolves_markStartedEntry env _ _)

theorem evolves_startWaiting {label : Label} {config : ProcessConfig} (h : Evolves w w') (deps : List ProcessId) :
    Evolves w (w'.startWaiting env ⟨w.nextId⟩ label config deps) :=
  (h.trans (.tick env w')).insertNext ⟨rfl, rfl⟩ (concerns_nextId w _) rfl

theorem evolves_start (env : Env) (label : Label) (config : ProcessConfig) (w : World) :
    Evolves w (w.start env label config).2 := by
  have hnext : Evolves w { w with nextId := w.nextId + 1 } :=
    { Evolves.refl w with nextId := Nat.le_succ _, ordered := fun h => ⟨h.below, h.unique⟩ }
  obtain heq | heq | ⟨w₁, rfl, resolved, _, hcases⟩ := start_cases env label config w
  · rw [heq]
    exact .refl w
  · rw [heq]
    exact hnext
  · have hpolled := hnext.trans (evolves_allDepsRunning env resolved _)
    obtain ⟨_, _, heq⟩ | heq | heq := hcases <;> rw [heq]
    · exact evolves_startNow hpolled resolved
    · exact evolves_startWaiting hpolled resolved
    · exact evolves_startWaiting hnext resolved

theorem evolves_startWithDeps (env : Env) (label : Label) (config : ProcessConfig) (w : World) :
    Evolves w (w.startWithDeps env label config).2 :=
  (evolves_start env label config w).trans (.os (startWithDeps_world label config w)
    ((startWithDeps_sends env label config w).trans (start_sends env label config w).symm))

theorem evolves_depsPoll (env : Env) (i : ProcessId) (config : ProcessConfig) (deadline : Instant) (w : World) :
    Evolves w (w.depsPoll env i config deadline).2 := by
  have htick := Evolves.tick env w
  simp only [depsPoll]
  split_ifs
  · simp only
    split
    · next p hp => exact htick.trans (.put hp ⟨⟨rfl, rfl, rfl, rfl⟩, rfl⟩)
    · exact htick
  · split
    · split
      · exact htick
      · exact htick.trans (.sleep env _ _)
      · exact htick
    · exact htick

/-! ### Signals and stops -/

theorem concerns_of_kill {k : KillCall} (hfiled : w.Filed) (hp : w.processes.lookup i = some p)
    (h : KillsFrom p w' k) : w.Concerns k.id fun _ => True := by
  rw [h.id, (hfiled i p hp).1]
  exact .of_lookup hp trivial

theorem evolves_sendSignal (env : Env) (hfiled : w.Filed) (i : ProcessId) (signal : Signal) :
    Evolves w (w.sendSignal env i signal).2 := by
  unfold sendSignal
  split
  · exact .refl w
  · next p hp =>
    have hkill : Evolves w (w.kill env .sendSignal p signal) := by
      refine (Evolves.refl w).after_os (S := ∅) (P := fun k => k.id = i) (osStep_kill env (hfiled i p hp).1) ?_ (.refl _)
      rintro k rfl
      exact .of_lookup hp trivial
    split_ifs
    · exact .refl w
    · split <;> exact hkill

/-- What each step of a fold does to a world whose entries are filed. -/
theorem Evolves.foldl_filed {α : Type*} {f : World → α → World} (hfiled : w.Filed)
    (h : ∀ w a, w.Filed → Evolves w (f w a)) (l : List α) : Evolves w (l.foldl f w) :=
  Fold.foldl_invariant (I := Evolves w) (.refl w) fun w' a _ hw' => hw'.trans (h w' a (hw'.filed hfiled))

theorem evolves_sendSignalLabel (env : Env) (hfiled : w.Filed) (label : Label) (signal : Signal) :
    Evolves w (w.sendSignalLabel env label signal) :=
  .foldl_filed hfiled (fun _ i h => evolves_sendSignal env h i signal) _

theorem evolves_stopOne (env : Env) (hfiled : w.Filed) (i : ProcessId) : Evolves w (w.stopOne env i).2 := by
  cases hp : w.processes.lookup i with
  | none =>
    rw [stopOne_of_untracked hp]
    exact .refl w
  | some p =>
    refine (Evolves.remove i w).after_os (osStep_stopOne hp) ?_ ?_
    · exact fun k hk => concerns_of_kill hfiled hp hk.1
    · by_cases hstate : p.state = .waiting
      · rw [stopOne_of_waiting hp hstate]
        obtain ⟨_, _, hsends⟩ | ⟨_, hsends⟩ :=
          sends_sendFromHandle env (p.endEvent i .stopped) (w.remove i) <;> rw [hsends]
        · exact .cons _ (.of_lookup hp (p.describes_endEvent i rfl))
        · exact .refl _
      · refine .of_eq (stopOne_sends env fun q hq => ?_)
        rwa [Option.some.inj (hq.symm.trans hp)]

theorem evolves_stop (env : Env) (hfiled : w.Filed) (i : ProcessId) : Evolves w (w.stop env i).2 :=
  stop_invariant_of_forall (I := Evolves w) (fun j _ hw' => hw'.trans (evolves_stopOne env (hw'.filed hfiled) j)) i
    (.refl w)

/-- After the entries were taken, a batch changes the children only. -/
theorem osStep_stopManyKill (env : Env) (ids : List ProcessId) (w : World) :
    OsStep Set.univ (fun _ => True) (w.stopManyTake env ids).2 (w.stopManyKill env ids).2 := by
  have hany : ∀ {S : Set ℕ} {P : KillCall → Prop} {w₁ w₂ : World}, OsStep S P w₁ w₂ →
      OsStep Set.univ (fun _ => True) w₁ w₂ := fun h => h.mono (Set.subset_univ _) fun _ _ => trivial
  have hstate : ∀ e ∈ ((w.stopManyTake env ids).2.stopManySignal env (w.stopManyTake env ids).1).1,
      e.1.state = .stopping := by
    rw [map_stopManySignal]
    intro e he
    obtain ⟨_, _, rfl⟩ := List.mem_map.mp he
    rfl
  have hsignal : OsStep Set.univ (fun _ => True) (w.stopManyTake env ids).2
      ((w.stopManyTake env ids).2.stopManySignal env (w.stopManyTake env ids).1).2 := hany (osStep_stopManySignal _ _)
  set signalled := (w.stopManyTake env ids).2.stopManySignal env (w.stopManyTake env ids).1
  have hpoll := hany (stopManyPoll_of_stopping env (P := fun _ => True) (batchFuel signalled.1) hstate signalled.2).2
  have hescalate := hany (osStep_stopManyEscalate env (signalled.2.stopManyPoll env (batchFuel signalled.1) signalled.1).1
    (signalled.2.stopManyPoll env (batchFuel signalled.1) signalled.1).2)
  exact ((hsignal.trans hpoll).trans hescalate).trans (hany (osStep_awaitAll (P := fun _ => True) _ _))

/-- Taking the entries of a batch changes neither the numbers nor the thread. -/
theorem stopManyTake_unchanged (env : Env) (ids : List ProcessId) (w : World) :
    (w.stopManyTake env ids).2.nextSpawnSequence = w.nextSpawnSequence ∧
      (w.stopManyTake env ids).2.reaper = w.reaper := by
  induction ids generalizing w with
  | nil => exact ⟨rfl, rfl⟩
  | cons i ids ih =>
    simp only [stopManyTake]
    split
    · exact ih w
    · split_ifs
      · exact ih _
      · exact ih _

theorem nextSpawnSequence_stopMany (env : Env) (ids : List ProcessId) (w : World) :
    (w.stopMany env ids).2.nextSpawnSequence = w.nextSpawnSequence := by
  rw [stopMany, stopManyReinsert_eq]
  exact (osStep_stopManyKill env ids w).nextSpawnSequence.trans (stopManyTake_unchanged env ids w).1

theorem evolves_stopMany (env : Env) (hfiled : w.Filed) (ids : List ProcessId) :
    Evolves w (w.stopMany env ids).2 := by
  refine .of_mapStep ?_ ?_ (mapStep_stopMany (fun i q hq => (hfiled i q hq).1) ids) (nextSpawnSequence_stopMany env ids w)
    (stopMany_sends env ids w)
  · rintro i p p' (⟨_, rfl⟩ | ⟨_, rfl, _⟩)
    · exact .refl p'
    · exact ⟨⟨rfl, rfl, rfl, rfl⟩, rfl⟩
  · rintro k ⟨i, _, p, hp, hk⟩
    exact concerns_of_kill hfiled hp hk

/-! ### Restarts -/

theorem evolves_restartInPlace (env : Env) (hp : w.processes.lookup i = some p) :
    Evolves w (w.restartInPlace env i p).2 := by
  have hreset : Evolves w (w.restartReset env i) := by
    simp only [restartReset, hp]
    have hrelease : OsStep p.handles (fun _ => False) w (p.release env w) := Process.osStep_release
    have hp' : (p.release env w).processes.lookup i = some p := hrelease.processes ▸ hp
    exact (Evolves.os hrelease (Process.release_sends env p w)).trans (.put hp' ⟨⟨rfl, rfl, rfl, rfl⟩, rfl⟩)
  have hspawn : Evolves w ((w.restartReset env i).spawnProcess env .restart i p.config p.resolvedDeps) :=
    hreset.spawnProcess .restart p.resolvedDeps (.of_lookup hp rfl)
  simp only [restartInPlace]
  split
  · exact hspawn
  · refine (hspawn.trans (.bumpSequence _)).trans ?_
    simp only [restartStore]
    split
    · exact .refl _
    · next q hq =>
      refine (Evolves.tick_if env q.restartState.isSome _).trans (.put_of fun q' hq' => ?_)
      have hsame : q' = q := by
        split_ifs at hq' <;> exact Option.some.inj (hq'.symm.trans hq)
      exact hsame ▸ ⟨⟨rfl, rfl, rfl, rfl⟩, rfl⟩

/-- A process that was stopped for a restart is put back under its id. -/
theorem evolves_restartInsert (env : Env) (hfiled : w.Filed) (hp : w.processes.lookup i = some p) (h : Evolves w w') :
    Evolves w (w'.restartInsert env i p).2 := by
  have hspawn : Evolves w (w'.spawnProcess env .restart i p.config []) :=
    h.spawnProcess .restart [] (.of_lookup hp rfl)
  simp only [restartInsert]
  split
  · exact hspawn
  · have hinsert : Evolves w ((w'.spawnProcess env .restart i p.config []).bumpSequence.insert env i
        (w'.spawnedProcess env i p.label p.config [])) :=
      hspawn.insertNext ⟨rfl, rfl⟩ (.of_lookup hp ⟨(hfiled i p hp).1.symm, rfl, rfl, (hfiled i p hp).2.symm⟩)
        (nextSpawnSequence_spawnProcess env ..).symm
    exact hinsert.trans (evolves_markStartedEntry env _ _)

theorem evolves_restart (env : Env) (hfiled : w.Filed) (i : ProcessId) : Evolves w (w.restart env i).2 := by
  obtain ⟨_, heq⟩ | ⟨p, hp, ⟨_, heq⟩ | ⟨_, heq | heq⟩⟩ := restart_cases env i w <;> rw [heq]
  · exact .refl w
  · exact evolves_restartInPlace env hp
  · exact evolves_stop env hfiled i
  · exact evolves_restartInsert env hfiled hp (evolves_stop env hfiled i)

theorem evolves_restartAll (env : Env) (hfiled : w.Filed) (ids : List ProcessId) :
    Evolves w (w.restartAll env ids).2 :=
  restartAll_invariant (I := Evolves w) (C := fun _ _ => True)
    (fun i _ hw' _ => hw'.trans (evolves_restart env (hw'.filed hfiled) i)) ids w (.refl w)
    (restartsMeet_of_forall (fun _ _ => trivial) ids w)

end World

end ProcessManager
