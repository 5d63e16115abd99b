import ProcessManager.System.Readiness
import ProcessManager.System.Watched

/-! `start` in two worlds of which the second has seen more queries. It makes the same calls
in both as long as it meets no process whose exit only a query has seen. -/

namespace ProcessManager

namespace World

variable {env : Env} {w w' : World} {id : ProcessId} {p p' : Process} {label : Label} {config : ProcessConfig}

/-! ### What a start depends on -/

/-- The world in which `start` spawns its child, if its dependencies are all `Running`. -/
def spawnPoint (env : Env) (config : ProcessConfig) (w : World) : Option World :=
  let w := { w with nextId := w.nextId + 1 }
  let resolved := resolvedOrDefault w.processes config.dependsOn
  let r := w.allDepsRunning env resolved
  if resolved.length = config.dependsOn.length ∧ r.1 then some r.2 else none

/-- `start` resolves its dependencies to the same processes, polls none whose exit only a query
has seen, and the operating system gives both children the same pid. -/
def StartAgrees (env : Env) (config : ProcessConfig) (w w' : World) : Prop :=
  resolvedOrDefault w'.processes config.dependsOn = resolvedOrDefault w.processes config.dependsOn ∧
    NoneOutlived (resolvedOrDefault w.processes config.dependsOn) w w' ∧
    ∀ v ∈ w.spawnPoint env config, ∀ v' ∈ w'.spawnPoint env config, v'.nextPid env = v.nextPid env

instance (ids : List ProcessId) (w w' : World) : Decidable (NoneOutlived ids w w') :=
  inferInstanceAs (Decidable (∀ id ∈ ids, ∀ p ∈ w.processes.lookup id, ∀ p' ∈ w'.processes.lookup id,
    ¬ (p.Active ∧ p'.state.isTerminated = true)))

instance (config : ProcessConfig) (w w' : World) : Decidable (StartAgrees env config w w') :=
  inferInstanceAs (Decidable (_ ∧ _ ∧ ∀ v ∈ w.spawnPoint env config, ∀ v' ∈ w'.spawnPoint env config, _))

/-! ### The two starts -/

theorem Watched.startCycle (h : Watched w w') (label : Label) (config : ProcessConfig) :
    w'.startCycle label config = w.startCycle label config := by
  have hgraph : ∀ s : AssocMap ProcessId Process, buildDependencySnapshot s label config.dependsOn =
      ((AssocMap.Pointwise.view (fun p : Process => (p.label, p.config.dependsOn)) s).foldl
        (fun (g : DepGraph) e => g.insert e.2.1 e.2.2) ∅).insert label config.dependsOn := by
    intro s
    rw [AssocMap.Pointwise.view, List.foldl_map]
    rfl
  have hview := h.alike.processes.view_eq (g := fun p : Process => (p.label, p.config.dependsOn)) fun i q q' hq hq' => by
    have hwatched := h.alike.processes.entry i q q' hq hq'
    rw [hwatched.label, hwatched.config]
  rw [World.startCycle, World.startCycle, hgraph, hgraph, hview]

/-- A new entry that is the same in both. -/
theorem Watched.insert (h : Watched w w') (env : Env) (hfresh : w.processes.lookup id = none)
    (p : Process) : Watched (w.insert env id p) (w'.insert env id p) where
  alike := h.alike.insert env (Process.Mirrors.refl p).watched
  exits := by
    have hlookup : ∀ (u : World) k, (u.insert env id p).processes.lookup k =
        if k = id then some p else u.processes.lookup k := by
      intro u k
      rw [insert_processes, AssocMap.lookup_reorder, AssocMap.lookup_insert_eq]
    constructor
    · intro k q q' hk hq hq' houtlived
      rw [hlookup] at hq hq'
      split_ifs at hq hq' with hkid
      · cases hq
        cases hq'
        exact absurd houtlived (not_outlived_of_state rfl)
      · exact h.exits.collected k q q' hk hq hq' houtlived
    · intro c hc
      obtain ⟨k, q, q', hk, hq, hq', hrest⟩ := h.exits.holder c hc
      have hne : k ≠ id := by
        rintro rfl
        rw [hfresh] at hq
        cases hq
      exact ⟨k, q, q', hk, by rw [hlookup, if_neg hne, hq], by rw [hlookup, if_neg hne, hq'], hrest⟩

/-- Both worlds write the same state. -/
theorem Watched.put (h : Watched w w') (hp : w.processes.lookup id = some p) (hp' : w'.processes.lookup id = some p')
    {q q' : Process} (hq : q.Mirrors q') (hnot : ¬ p.Outlived p') : Watched (w.put id q) (w'.put id q') where
  alike := h.alike.put hq.watched
  exits := h.exits.of_put_both hp hp' rfl rfl (fun _ hk => hk) (fun _ _ hk => hk)
    (fun _ => not_outlived_of_state hq.state) (fun _ hk => hk.resolve_right fun houtlived => hnot houtlived.1)
    fun _ _ hch _ => hch

theorem Watched.markStartedEntry (h : Watched w w') (env : Env) (hp : w.processes.lookup id = some p)
    (hp' : w'.processes.lookup id = some p) :
    Watched (w.markStartedEntry env id) (w'.markStartedEntry env id) := by
  unfold World.markStartedEntry
  simp only [hp, hp']
  split
  · next rs hrs =>
    have htick := h.tick env
    have hclock : (w'.tick env).clock = (w.tick env).clock := htick.alike.clock
    rw [hclock]
    exact htick.put hp hp' (Process.Mirrors.refl _) (not_outlived_of_state rfl)
  · exact h

/-- A spawn adds the same child to both. -/
theorem Watched.spawnProcess (h : Watched w w') (env : Env) (site : SpawnSite) (id : ProcessId) (config : ProcessConfig)
    (deps : List ProcessId) (hpid : w'.nextPid env = w.nextPid env) :
    Watched (w.spawnProcess env site id config deps) (w'.spawnProcess env site id config deps) where
  alike := h.alike.spawnProcess OsChild.stable_watched OsChild.Watched.refl env site id config deps hpid
  exits := by
    have htick := h.tick env
    simp only [World.spawnProcess, h.alike.ticks, hpid]
    split
    · exact htick.exits
    · split_ifs
      · exact htick.exits
      · refine ⟨fun k q q' hk hq hq' houtlived => ?_, fun c hc => ?_⟩
        · obtain ⟨c, ch, hqc, hch, hreaped⟩ := htick.exits.collected k q q' hk hq hq' houtlived
          have hlt := (List.getElem?_eq_some_iff.mp hch).1
          exact ⟨c, ch, hqc, by rw [List.getElem?_append_left hlt, hch], hreaped⟩
        · refine htick.exits.holder c fun heq => hc ?_
          rw [List.getElem?_append, List.getElem?_append, htick.alike.length, heq]

theorem Watched.startNow (h : Watched w w') (env : Env) (hfresh : w.processes.lookup id = none) (label : Label)
    (config : ProcessConfig) (resolved : List ProcessId) (hpid : w'.nextPid env = w.nextPid env) :
    Watched (w.startNow env id label config resolved).2 (w'.startNow env id label config resolved).2 := by
  have hspawn := h.spawnProcess env .start id config resolved hpid
  have hentry : w'.spawnedProcess env id label config resolved = w.spawnedProcess env id label config resolved := by
    rw [spawnedProcess, spawnedProcess, hpid, h.alike.nextChild, h.alike.nextSpawnSequence]
  unfold World.startNow
  rw [h.alike.spawnError env]
  split
  · exact hspawn
  · next hok =>
    have hmap := (Spawned.of_ok .start id resolved hok).processes
    have hbumped : Watched (w.spawnProcess env .start id config resolved).bumpSequence
        (w'.spawnProcess env .start id config resolved).bumpSequence :=
      ⟨{ hspawn.alike with nextSpawnSequence := congrArg (· + 1) hspawn.alike.nextSpawnSequence },
        { hspawn.exits with }⟩
    have hfresh' : (w.spawnProcess env .start id config resolved).bumpSequence.processes.lookup id = none := by
      rw [bumpSequence, hmap, hfresh]
    rw [hentry]
    have hinserted := hbumped.insert env hfresh' (w.spawnedProcess env id label config resolved)
    have hlookup : ∀ (u : World) (q : Process), (u.insert env id q).processes.lookup id = some q := by
      intro u q
      rw [insert_processes, AssocMap.lookup_reorder, AssocMap.lookup_insert_eq, if_pos rfl]
    exact hinserted.markStartedEntry env (hlookup _ _) (hlookup _ _)

theorem Watched.startWaiting (h : Watched w w') (env : Env) (hfresh : w.processes.lookup id = none) (label : Label)
    (config : ProcessConfig) (resolved : List ProcessId) :
    Watched (w.startWaiting env id label config resolved) (w'.startWaiting env id label config resolved) := by
  have htick := h.tick env
  have hentry : w'.waitingProcess env id label config resolved = w.waitingProcess env id label config resolved := by
    rw [waitingProcess, waitingProcess, h.alike.nextSpawnSequence, htick.alike.clock]
  have hbumped : Watched (w.tick env).bumpSequence (w'.tick env).bumpSequence :=
    ⟨{ htick.alike with nextSpawnSequence := congrArg (· + 1) htick.alike.nextSpawnSequence },
      { htick.exits with }⟩
  unfold World.startWaiting
  rw [hentry]
  exact hbumped.insert env hfresh _

/-- A start that meets no outlived process does the same in both worlds. -/
theorem Watched.start (h : Watched w w') (hsound : Sound w') (howned : Owned w')
    (hagrees : config.validate = true → w.startCycle label config = none → StartAgrees env config w w') :
    Watched (w.start env label config).2 (w'.start env label config).2 := by
  have hnumbered : Watched { w with nextId := w.nextId + 1 } { w' with nextId := w.nextId + 1 } :=
    ⟨{ h.alike with nextId := rfl }, { h.exits with }⟩
  have hfresh : w.processes.lookup ⟨w.nextId⟩ = none := by
    rcases h.alike.processes.lookup_cases ⟨w.nextId⟩ with ⟨hnone, _⟩ | ⟨_, q', _, hq', _⟩
    · exact hnone
    · have hlt := hsound.below _ q' hq'
      rw [h.alike.nextId] at hlt
      exact absurd hlt (lt_irrefl _)
  unfold World.start
  rw [h.alike.nextId]
  split_ifs with hvalidate
  · exact h
  · have hcycle := hnumbered.startCycle label config
    simp only [hcycle]
    split
    · exact hnumbered
    · next hnone =>
      obtain ⟨hresolved, halive, hpid⟩ := hagrees (by simpa using hvalidate) hnone
      rw [hresolved]
      have hpolling : Polling (resolvedOrDefault w.processes config.dependsOn) { w with nextId := w.nextId + 1 }
          { w' with nextId := w.nextId + 1 } := ⟨hnumbered, { howned with }, halive⟩
      obtain ⟨hready, hpolled⟩ := hpolling.allDepsRunning env
      rw [hready]
      have hfresh' : (World.allDepsRunning env (resolvedOrDefault w.processes config.dependsOn)
          { w with nextId := w.nextId + 1 }).2.processes.lookup ⟨w.nextId⟩ = none := by
        have hstep := mapStep_allDepsRunning env (P := fun _ => True)
          (resolvedOrDefault w.processes config.dependsOn) { w with nextId := w.nextId + 1 }
        by_contra htracked
        obtain ⟨q, hq⟩ := Option.ne_none_iff_exists'.mp htracked
        obtain ⟨q₀, hq₀, _⟩ := hstep.processes _ q hq
        exact absurd (hfresh.symm.trans hq₀) (by simp)
      split_ifs with hlength hrunning
      · refine hpolled.watched.startNow env hfresh' label config _ (hpid _ ?_ _ ?_)
        · simp only [spawnPoint, hlength, hrunning, and_self, ↓reduceIte, Option.mem_def]
        · simp only [spawnPoint, h.alike.nextId, hresolved, hready, hlength, hrunning, and_self, ↓reduceIte,
            Option.mem_def]
      · exact hpolled.watched.startWaiting env hfresh' label config _
      · exact hnumbered.startWaiting env hfresh label config _

end World

end ProcessManager
