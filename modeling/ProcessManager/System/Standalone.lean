import ProcessManager.System.CustodyCalls

/-! Processes without dependencies. None of them ever waits for another one, so the later phases
of a pass have nothing to do, and one in `Restarting` has no child. -/

namespace ProcessManager

variable {env : Env} {now : Instant} {w w' w₁ w₂ : World} {id i : ProcessId} {p p' q : Process} {k : Handle}
  {S : Set ℕ} {P : KillCall → Prop}

/-! ### Valid handles -/

/-- The handle of a child that was spawned with this pid. -/
structure World.Valid (k : Handle) (w : World) : Prop where
  genuine : w.Genuine k
  pid : k.pid ≠ 0

theorem Spawned.valid {site : SpawnSite} {config : ProcessConfig} {deps : List ProcessId}
    (h : Spawned env site id config deps w w') : w'.Valid ⟨w.nextChild, w.nextPid env⟩ := by
  obtain ⟨ch, hch, hpid, _⟩ := h.child
  exact ⟨(Option.any_eq_true _ _).mpr ⟨ch, hch, by simpa using hpid⟩, w.nextPid_ne_zero⟩

namespace World

theorem Valid.ages (h : w.Valid k) (hages : Ages S w.children w'.children) : w'.Valid k :=
  ⟨h.genuine.ages hages, h.pid⟩

/-- `ESRCH` for a valid handle: its child was waited for. -/
theorem Valid.not_runs (h : w.Valid k) (he : w.killError env k.pid = some .esrch) : ¬ (w.tick env).ChildRuns k.child := by
  intro hruns
  obtain ⟨ch, hch, hr⟩ := childRuns_iff.mp hruns
  have hstep : OsStep ∅ (fun _ => True) w (w.tick env) := w.osStep_tick env
  obtain ⟨ch', hch', hpid⟩ := (Option.any_eq_true _ _).mp (h.genuine.ages hstep.children)
  obtain rfl : ch = ch' := Option.some.inj (hch.symm.trans hch')
  have huse : pidInUse (w.tick env).children k.pid = true := by
    refine List.any_eq_true.mpr ⟨ch, List.mem_of_getElem? hch, ?_⟩
    rw [hpid, OsChild.isReaped_of_isRunning hr]
    rfl
  unfold killError at he
  rw [huse] at he
  split_ifs at he with hesrch
  · rw [he] at hesrch
    exact hesrch rfl

/-- A refused signal apart, a valid handle without a signal is that of a child that has exited. -/
theorem Valid.not_runs_of_sendSignal {site : KillSite} {signal : KillSignal} (h : w.Valid k) (hk : p.handle = some k)
    (he : (p.sendSignal env site signal w).1 = some .esrch) : ¬ (p.sendSignal env site signal w).2.ChildRuns k.child := by
  obtain ⟨_, hpid⟩ := Process.handle_eq.mp hk
  unfold Process.sendSignal at he ⊢
  rw [if_neg (hpid ▸ h.pid)] at he ⊢
  rw [hpid] at he
  exact h.not_runs he

end World

/-! ### Entries that wait for nobody -/

/-- The entry under `i` of a process without dependencies. -/
structure Process.Standalone (i : ProcessId) (w : World) (p : Process) : Prop where
  id : p.id = i
  dependsOn : p.config.dependsOn = []
  resolvedDeps : p.resolvedDeps = []
  state : p.state ≠ .waiting
  childless : p.state = .restarting → p.child = none
  valid : ∀ k ∈ p.handle, w.Valid k

/-- The same process, with its child or without one, and put into `Restarting` only without. -/
structure Process.Stays (p p' : Process) : Prop where
  id : p'.id = p.id
  config : p'.config = p.config
  resolvedDeps : p'.resolvedDeps = p.resolvedDeps
  waiting : p'.state = .waiting → p.state = .waiting
  restarting : p'.state = .restarting → p.state = .restarting ∨ p'.child = none
  handle : p'.handle = p.handle ∨ p'.child = none

theorem Process.Stays.refl (p : Process) : p.Stays p := ⟨rfl, rfl, rfl, fun h => h, .inl, .inl rfl⟩

/-- What an entry without its old child has is no handle. -/
theorem Process.handle_none (h : p.child = none) : p.handle = none := by rw [Process.handle, h, Option.map_none]

/-- An entry with the child that was spawned for it. -/
theorem Spawned.standalone {site : SpawnSite} {config : ProcessConfig} {deps : List ProcessId}
    (h : Spawned env site id config deps w w') (hid : p'.id = id) (hdepends : p'.config.dependsOn = [])
    (hdeps : p'.resolvedDeps = []) (hstate : p'.state = .starting)
    (hhandle : p'.handle = some ⟨w.nextChild, w.nextPid env⟩) : p'.Standalone id w' where
  id := hid
  dependsOn := hdepends
  resolvedDeps := hdeps
  state hwaiting := by rw [hstate] at hwaiting; cases hwaiting
  childless hrestarting := by rw [hstate] at hrestarting; cases hrestarting
  valid k hk := by
    rw [hhandle] at hk
    cases hk
    exact h.valid

theorem Process.Standalone.stays (h : p.Standalone i w) (hstays : p.Stays p') (hages : Ages S w.children w'.children) :
    p'.Standalone i w' where
  id := hstays.id.trans h.id
  dependsOn := hstays.config ▸ h.dependsOn
  resolvedDeps := hstays.resolvedDeps.trans h.resolvedDeps
  state hwaiting := h.state (hstays.waiting hwaiting)
  childless hrestarting := by
    rcases hstays.restarting hrestarting with hold | hnone
    · rcases hstays.handle with hhandle | hnone
      · rw [Process.handle, Process.handle, h.childless hold, Option.map_none] at hhandle
        exact Option.map_eq_none_iff.mp hhandle
      · exact hnone
    · exact hnone
  valid k hk := by
    rcases hstays.handle with hhandle | hnone
    · exact (h.valid k (hhandle ▸ hk)).ages hages
    · rw [Process.handle_none hnone] at hk
      cases hk

namespace World

/-- All processes are without dependencies. -/
def Standalone (w : World) : Prop := ∀ i p, w.processes.lookup i = some p → p.Standalone i w

/-- Entries stay or are removed. -/
structure Rests (w w' : World) : Prop where
  nextId : w'.nextId = w.nextId
  length : w'.children.length = w.children.length
  ages : Ages Set.univ w.children w'.children
  entry : ∀ i p', w'.processes.lookup i = some p' → ∃ p, w.processes.lookup i = some p ∧ p.Stays p'

namespace Rests

theorem of_mapStep (h : MapStep Kept S P w w') : Rests w w' where
  nextId := h.nextId
  length := h.length
  ages := h.children.mono (Set.subset_univ S)
  entry i p' hp' := by
    obtain ⟨p, hp, rfl⟩ := h.processes i p' hp'
    exact ⟨_, hp, .refl _⟩

theorem os (h : OsStep S P w w') : Rests w w' := of_mapStep (.of_osStep kept_refl h)

theorem refl (w : World) : Rests w w := os (.refl w : OsStep ∅ (fun _ => True) w w)

/-- An entry is written back. -/
theorem put (h : OsStep S P w w') (hp : w.processes.lookup id = some p) (hstays : p.Stays p') :
    Rests w (w'.put id p') where
  nextId := h.nextId
  length := h.length
  ages := h.children.mono (Set.subset_univ S)
  entry i q' hq' := by
    rw [put_processes, AssocMap.lookup_replace, h.processes] at hq'
    split_ifs at hq' with hi
    · rw [hp, Option.map_some] at hq'
      cases hq'
      exact ⟨p, hi ▸ hp, hstays⟩
    · exact ⟨q', hq', .refl q'⟩

theorem unlock (h : Rests w w') (m : Guards.Mode) (id : ProcessId) : Rests w (w'.unlock m id) := { h with }

theorem standalone (h : Rests w w') (hw : w.Standalone) : w'.Standalone := by
  intro i p' hp'
  obtain ⟨p, hp, hstays⟩ := h.entry i p' hp'
  exact (hw i p hp).stays hstays h.ages

/-- An entry without a running child gets none. -/
theorem vacant (h : Rests w w') (hvacant : w.Vacant i) : w'.Vacant i := by
  intro p' hp' c hc hruns
  obtain ⟨p, hp, hstays⟩ := h.entry i p' hp'
  rcases hstays.handle with hhandle | hnone
  · have hk : p.handle = some ⟨c, p'.pid⟩ := hhandle ▸ Process.handle_eq.mpr ⟨hc, rfl⟩
    exact hvacant p hp c (Process.handle_eq.mp hk).1 (hruns.before h.ages (h.length ▸ hruns.lt))
  · rw [hnone] at hc
    cases hc

theorem trans_os (h : Rests w w₁) (hos : OsStep S P w₁ w') : Rests w w' where
  nextId := hos.nextId.trans h.nextId
  length := hos.length.trans h.length
  ages := h.ages.trans (hos.children.mono (Set.subset_univ S))
  entry i p' hp' := h.entry i p' (hos.processes ▸ hp')

end Rests

/-! ### Sections that respawn nothing -/

theorem stays_stableUptime (now : Instant) (p : Process) : p.Stays { p.stableUptime now with cascadeFlag := false } where
  id := p.stableUptime_id now
  config := p.stableUptime_config now
  resolvedDeps := p.stableUptime_resolvedDeps now
  waiting h := (p.stableUptime_state now).symm.trans h
  restarting h := .inl ((p.stableUptime_state now).symm.trans h)
  handle := .inl (Process.handle_congr (p.stableUptime_child now) (p.stableUptime_pid now))

theorem rests_phase1Visit (env : Env) (now : Instant) (id : ProcessId) (x : Exits) (w : World) :
    Rests w (phase1Visit env now id (x, w)).2 := by
  have hlock : OsStep Set.univ (fun _ => False) w (w.lock .exclusive id) := .lock _ _ _
  have hsame := stays_stableUptime now
  obtain ⟨_, heq⟩ | ⟨p, w', hp, _, ⟨c, status, _, _, rfl, heq⟩ | ⟨hstep, _, heq⟩⟩ :=
    phase1Visit_cases env now id x w <;> rw [heq]
  · exact (Rests.os hlock).unlock _ _
  · exact (Rests.put (hlock.trans (osStep_tryWait env (Set.mem_univ c) _)) hp (hsame p)).unlock _ _
  · refine (Rests.put (hlock.trans (hstep.mono (Set.empty_subset _) fun _ h => h)) hp ?_).unlock _ _
    split_ifs
    · exact { hsame p with waiting := fun h => (by cases h), restarting := fun h => (by cases h) }
    · exact { hsame p with }

theorem rests_cascadeKill (env : Env) (id : ProcessId) (w : World) : Rests w (w.cascadeKill env id) := by
  obtain ⟨_, heq⟩ | ⟨p, hp, _, heq⟩ := cascadeKill_cases env id w <;> rw [heq]
  · exact (Rests.os (.lock .exclusive id w : OsStep ∅ (fun _ => True) _ _)).unlock _ _
  · have hkill : OsStep ∅ (fun _ => True) w ((w.lock .exclusive id).kill env .cascade
        { p with cascadeFlag := true, state := .stopping } p.config.killSignal.toSignal) :=
      (OsStep.lock _ _ _).trans (osStep_kill env trivial)
    have hstays : p.Stays { p with cascadeFlag := true, state := .stopping } :=
      ⟨rfl, rfl, rfl, fun h => (by cases h), fun h => (by cases h), .inl rfl⟩
    exact (Rests.put hkill hp hstays).unlock _ _

theorem rests_scheduleEntry (env : Env) (now : Instant) (e : ExitedProcess) (w : World) :
    Rests w (scheduleEntry env now e w) := by
  have hlock : OsStep ∅ (fun _ => False) w (w.lock .exclusive e.id) := .lock _ _ _
  cases hconfig : e.restartConfig with
  | none =>
    simp only [scheduleEntry, hconfig]
    exact .refl w
  | some r =>
    cases hp : w.processes.lookup e.id with
    | none =>
      simp only [scheduleEntry, hconfig, lock_processes, hp]
      exact (Rests.os hlock).unlock _ _
    | some p =>
      have hstep : OsStep p.handles (fun _ => False) w (p.release env (w.lock .exclusive e.id)) :=
        (OsStep.lock _ _ _).trans Process.osStep_release
      have hstays : ∀ rs, p.Stays { p with child := none, restartState := rs, state := .restarting } := fun rs =>
        ⟨rfl, rfl, rfl, fun h => (by cases h), fun _ => .inr rfl, .inr rfl⟩
      simp only [scheduleEntry, hconfig, lock_processes, hp]
      split
      · exact (Rests.put hstep hp (hstays p.restartState)).unlock .exclusive e.id
      · next rs _ =>
        split
        · exact (Rests.put hstep hp (hstays _)).unlock .exclusive e.id
        · -- a panic leaves the state
          have hpanic : p.Stays { p with child := none, restartState := some rs.recordRestart } :=
            ⟨rfl, rfl, rfl, fun h => h, .inl, .inr rfl⟩
          exact { (Rests.put hstep hp hpanic).unlock .exclusive e.id with }

theorem rests_discard (env : Env) (event : ProcessExitEvent) (inLoop : Bool) (w : World) :
    Rests w (w.discard env event inLoop) := by
  have hremove : MapStep Kept ∅ (fun _ => True) w (w.removeEntry event.id) := mapStep_removeEntry event.id w
  simp only [discard]
  split_ifs
  · exact .of_mapStep (hremove.trans kept_trans (mapStep_sendOrReturn event _))
  · exact (Rests.of_mapStep hremove).trans_os (osStep_send (S := ∅) (P := fun _ => True) env event _)

theorem rests_restartReset (env : Env) (id : ProcessId) (w : World) : Rests w (w.restartReset env id) := by
  simp only [restartReset]
  cases hp : w.processes.lookup id with
  | none => exact .refl w
  | some p =>
    exact .put (Process.osStep_release (P := fun _ => True)) hp ⟨rfl, rfl, rfl, fun h => h, .inl, .inr rfl⟩

theorem rests_markStartedEntry (env : Env) (id : ProcessId) (w : World) : Rests w (w.markStartedEntry env id) := by
  unfold markStartedEntry
  split
  · next p hp =>
    split
    · exact .put (osStep_tick (S := ∅) (P := fun _ => True) env w) hp ⟨rfl, rfl, rfl, fun h => h, .inl, .inl rfl⟩
    · exact .refl w
  · exact .refl w

/-! ### Sections that write one entry -/

/-- At most the entry of `id` gets a child. -/
structure Mends (id : ProcessId) (w w' : World) : Prop where
  standalone : w'.Standalone
  vacant : ∀ i, i ≠ id → w.Vacant i → w'.Vacant i

theorem Rests.mends (h : Rests w w') (hw : w.Standalone) : Mends id w w' :=
  ⟨h.standalone hw, fun _ _ hvacant => h.vacant hvacant⟩

theorem Mends.trans (h : Mends id w w₁) (h' : Mends id w₁ w') : Mends id w w' :=
  ⟨h'.standalone, fun i hi hvacant => h'.vacant i hi (h.vacant i hi hvacant)⟩

theorem Mends.rests (h : Mends id w w₁) (h' : Rests w₁ w') : Mends id w w' :=
  ⟨h'.standalone h.standalone, fun i hi hvacant => h'.vacant (h.vacant i hi hvacant)⟩

theorem Valid.lt (h : w.Valid k) : k.child < w.children.length := by
  obtain ⟨ch, hch, _⟩ := (Option.any_eq_true _ _).mp h.genuine
  exact (List.getElem?_eq_some_iff.mp hch).1

theorem Mends.of_entries (hw : w.Standalone) (hages : Ages S w.children w'.children)
    (hother : ∀ i q, i ≠ id → w'.processes.lookup i = some q → w.processes.lookup i = some q)
    (hself : ∀ q, w'.processes.lookup id = some q → q.Standalone id w') : Mends id w w' where
  standalone i q hq := by
    by_cases hi : i = id
    · exact hi ▸ hself q (hi ▸ hq)
    · exact (hw i q (hother i q hi hq)).stays (.refl q) hages
  vacant i hi hvacant q hq c hc hruns := by
    have hold := hother i q hi hq
    have hlt := ((hw i q hold).valid ⟨c, q.pid⟩ (Process.handle_eq.mpr ⟨hc, rfl⟩)).lt
    exact hvacant q hold c hc (hruns.before hages hlt)

theorem Mends.put (hw : w.Standalone) (hmap : w₁.processes = w.processes) (hages : Ages S w.children w₁.children)
    (hp' : p'.Standalone id w₁) : Mends id w (w₁.put id p') := by
  refine .of_entries hw hages (fun i q hi hq => ?_) fun q hq => ?_
  · rwa [put_processes, AssocMap.lookup_replace, if_neg hi, hmap] at hq
  · rw [put_processes, AssocMap.lookup_replace, if_pos rfl, Option.map_eq_some_iff] at hq
    obtain ⟨_, _, rfl⟩ := hq
    exact hp'.stays (.refl _) (.refl w₁.children : Ages ∅ _ _)

theorem Mends.insert (env : Env) (hw : w.Standalone) (hp' : p'.Standalone id w) : Mends id w (w.insert env id p') := by
  have hlookup : ∀ i, (w.insert env id p').processes.lookup i = if i = id then some p' else w.processes.lookup i := by
    intro i
    rw [insert_processes, AssocMap.lookup_reorder, AssocMap.lookup_insert_eq]
  refine .of_entries (S := ∅) hw (.refl _) (fun i q hi hq => ?_) fun q hq => ?_
  · rwa [hlookup, if_neg hi] at hq
  · rw [hlookup, if_pos rfl, Option.some.injEq] at hq
    exact hq ▸ hp'.stays (.refl p') (.refl w.children : Ages ∅ _ _)

/-- A restart by the reaper: the event of a failed one is about the process, which then has the
child it had before. -/
theorem mends_performRestartHeld (env : Env) (hw : w.Standalone) (id : ProcessId) :
    Mends id w (w.performRestartHeld env id).2 ∧ ∀ event ∈ (w.performRestartHeld env id).1,
      event.id = id ∧ (∃ p, w.processes.lookup id = some p) ∧ Rests w (w.performRestartHeld env id).2 := by
  have hlock : OsStep ∅ (fun _ => False) w (w.lock .exclusive id) := .lock _ _ _
  cases hp : w.processes.lookup id with
  | none =>
    simp only [performRestartHeld, lock_processes, hp]
    exact ⟨((Rests.os hlock).unlock _ _).mends hw, fun event he => by cases he⟩
  | some p =>
    have hplain := hw id p hp
    simp only [performRestartHeld, lock_processes, hp, hplain.dependsOn, ↓reduceIte, respawnHeld, respawn]
    cases hspawn : (w.lock .exclusive id).spawnError env p.config <;> dsimp only
    case some e =>
      have hstays : p.Stays { p with state := .failed } :=
        ⟨rfl, rfl, rfl, fun h => (by cases h), fun h => (by cases h), .inl rfl⟩
      have hrests : Rests w (((w.lock .exclusive id).spawnProcess env .performRestart id p.config p.resolvedDeps).put id
          { p with state := .failed }) :=
        .put (hlock.trans (osStep_spawnProcess (P := fun _ => False) (S := ∅) hspawn)) hp hstays
      refine ⟨(hrests.unlock .exclusive id).mends hw, fun event he => ?_⟩
      obtain rfl : p.endEvent id .failed = event := Option.some.inj he
      exact ⟨rfl, ⟨p, rfl⟩, hrests.unlock .exclusive id⟩
    case none =>
      have hspawned := (Spawned.of_ok .performRestart id p.resolvedDeps hspawn).tick_if p.restartState.isSome
      generalize (if p.restartState.isSome = true then _ else _ : World) = w₂ at hspawned
      have hself : ∀ rs, ({ p with
          child := some (w.lock .exclusive id).nextChild
          pid := (w.lock .exclusive id).nextPid env
          state := .starting
          restartState := rs } : Process).Standalone id w₂ := fun rs =>
        hspawned.standalone hplain.id hplain.dependsOn hplain.resolvedDeps rfl rfl
      have hmends := fun rs => Mends.put hw (hspawned.processes.trans hlock.processes)
        (hlock.children.trans hspawned.children) (hself rs)
      exact ⟨(hmends _).rests (.os (.unlock .exclusive id _ : OsStep ∅ (fun _ => True) _ _)),
        fun event he => by cases he⟩

theorem mends_restartStore (env : Env) (hw : w.Standalone) {child pid : ℕ} (hk : w.Valid ⟨child, pid⟩) :
    Mends id w (w.restartStore env id child pid).2 := by
  cases hp : w.processes.lookup id with
  | none =>
    simp only [restartStore, hp]
    exact (Rests.refl w).mends hw
  | some p =>
    obtain ⟨w', now, hstep, heq⟩ := restartStore_eq (P := fun _ => False) env child pid hp
    have hplain := hw id p hp
    rw [heq]
    refine .put hw hstep.processes hstep.children ⟨hplain.id, hplain.dependsOn, hplain.resolvedDeps, ?_, ?_, ?_⟩
    · intro h; cases h
    · intro h; cases h
    · intro k hk'
      obtain rfl : (⟨child, pid⟩ : Handle) = k := Option.some.inj hk'
      exact hk.ages hstep.children

/-- A spawn alone changes no entry. -/
theorem mends_spawn (site : SpawnSite) (id : ProcessId) {config : ProcessConfig} (deps : List ProcessId)
    (hw : w.Standalone) (hspawn : w.spawnError env config = none) :
    Mends i w (w.spawnProcess env site id config deps).bumpSequence := by
  have hspawned : Spawned env site id config deps w _ := .of_ok site id deps hspawn
  have hmap : (w.spawnProcess env site id config deps).bumpSequence.processes = w.processes := hspawned.processes
  refine .of_entries hw hspawned.children (fun _ q _ hq => hmap ▸ hq) fun q hq => ?_
  rw [hmap] at hq
  exact (hw i q hq).stays (.refl q) hspawned.children

theorem standalone_spawnedProcess (site : SpawnSite) {config : ProcessConfig} {label : Label}
    (hspawn : w.spawnError env config = none) (hdepends : config.dependsOn = []) :
    (w.spawnedProcess env id label config []).Standalone id (w.spawnProcess env site id config []).bumpSequence := by
  have hspawned : Spawned env site id config [] w _ := .of_ok site id [] hspawn
  have hself : (w.spawnedProcess env id label config []).Standalone id _ := hspawned.standalone rfl hdepends rfl rfl rfl
  exact hself.stays (.refl _) (.refl _ : Ages ∅ _ _)

/-- Without dependencies there is nothing to wait for. -/
theorem start_of_standalone (env : Env) (label : Label) {config : ProcessConfig} (hdepends : config.dependsOn = []) (w : World) :
    (w.start env label config).2 = w ∨
      (w.start env label config).2 =
        (({ w with nextId := w.nextId + 1 } : World).startNow env ⟨w.nextId⟩ label config []).2 := by
  unfold start
  split_ifs with hvalidate
  · exact .inl rfl
  · refine .inr ?_
    simp only [startCycle, hdepends, ↓reduceIte]
    rfl

theorem mends_start (env : Env) (hw : w.Standalone) (label : Label) {config : ProcessConfig}
    (hdepends : config.dependsOn = []) : Mends ⟨w.nextId⟩ w (w.start env label config).2 := by
  obtain heq | heq := start_of_standalone env label hdepends w <;> rw [heq]
  · exact (Rests.refl w).mends hw
  · set w₁ : World := { w with nextId := w.nextId + 1 } with hw₁
    have hw₁ : w₁.Standalone := fun i p hp => (hw i p hp).stays (.refl p) (.refl w.children : Ages ∅ _ _)
    simp only [startNow]
    cases hspawn : w₁.spawnError env config with
    | some e =>
      have hrests : Rests w₁ (w₁.spawnProcess env .start ⟨w.nextId⟩ config []) :=
        .os (osStep_spawnProcess (S := ∅) (P := fun _ => True) hspawn)
      exact ⟨hrests.standalone hw₁, fun i _ hvacant => hrests.vacant hvacant⟩
    | none =>
      have hmends : Mends ⟨w.nextId⟩ w₁ _ := mends_spawn .start ⟨w.nextId⟩ [] hw₁ hspawn
      have hself : (w₁.spawnedProcess env ⟨w.nextId⟩ label config []).Standalone ⟨w.nextId⟩
          (w₁.spawnProcess env .start ⟨w.nextId⟩ config []).bumpSequence :=
        standalone_spawnedProcess .start hspawn hdepends
      have hinserted := (hmends.trans (.insert env hmends.standalone hself)).rests (rests_markStartedEntry env ⟨w.nextId⟩ _)
      exact ⟨hinserted.standalone, hinserted.vacant⟩

/-- What a start adds: at most an entry with a fresh id, which has the child. -/
theorem started_of_standalone (env : Env) (label : Label) {config : ProcessConfig} (hdepends : config.dependsOn = [])
    (w : World) : Ages Set.univ w.children (w.start env label config).2.children ∧
      (∀ i, i ≠ ⟨w.nextId⟩ → (w.start env label config).2.processes.lookup i = w.processes.lookup i) ∧
      ∀ r ∈ (w.start env label config).2.spawns, r ∈ w.spawns ∨ (r.id = ⟨w.nextId⟩ ∧
        ((w.start env label config).2.ChildRuns r.child →
          ∃ k : Handle, k.child = r.child ∧ (w.start env label config).2.HeldBy r.id k)) := by
  obtain heq | heq := start_of_standalone env label hdepends w <;> rw [heq]
  · exact ⟨.refl _, fun i _ => rfl, fun r hr => .inl hr⟩
  · set w₁ : World := { w with nextId := w.nextId + 1 } with hw₁
    set id : ProcessId := ⟨w.nextId⟩
    simp only [startNow]
    cases hspawn : w₁.spawnError env config with
    | some e =>
      have hstep : OsStep ∅ (fun _ => True) w₁ (w₁.spawnProcess env .start id config []) := osStep_spawnProcess hspawn
      exact ⟨hstep.children.mono (Set.empty_subset _), fun i _ => by rw [hstep.processes], fun r hr => .inl (hstep.spawns ▸ hr)⟩
    | none =>
      have hspawned : Spawned env .start id config [] w₁ (w₁.spawnProcess env .start id config []) := .of_ok _ _ _ hspawn
      obtain ⟨program, hspawns⟩ := hspawned.spawns
      set w₂ := (w₁.spawnProcess env .start id config []).bumpSequence
      have hmarked := tends_markStartedEntry env id (w₂.insert env id (w₁.spawnedProcess env id label config []))
      have hlookup : ∀ i, (w₂.insert env id (w₁.spawnedProcess env id label config [])).processes.lookup i =
          if i = id then some (w₁.spawnedProcess env id label config []) else w₂.processes.lookup i := fun i => by
        rw [insert_processes, AssocMap.lookup_reorder, AssocMap.lookup_insert_eq]
      refine ⟨?_, fun i hi => ?_, fun r hr => ?_⟩
      · have hages : Ages Set.univ w₂.children _ := hmarked.ages
        exact (hspawned.children.mono (Set.empty_subset _)).trans hages
      · rw [markStartedEntry_lookup env hi, hlookup, if_neg hi]
        exact congrArg (AList.lookup i) hspawned.processes
      · have hr : r ∈ (w₁.spawnProcess env .start id config []).spawns := hmarked.spawns ▸ hr
        rw [hspawns] at hr
        rcases List.mem_cons.mp hr with rfl | hr
        · have hheld : (w₂.insert env id (w₁.spawnedProcess env id label config [])).HeldBy id
              ⟨w₁.nextChild, w₁.nextPid env⟩ := ⟨w₁.spawnedProcess env id label config [], by simp, rfl⟩
          exact .inr ⟨rfl, fun hruns => ⟨_, rfl, hmarked.held id _ hheld hruns⟩⟩
        · exact .inl hr

end World

/-! ### The reaper -/

theorem World.not_childRuns_of_exited {c : ℕ} {status : ExitStatus} (h : w.waitResult env c = .exited status) :
    ¬ (w.tryWait env c).ChildRuns c := by
  obtain ⟨ch, t, hch, hstatus⟩ := Process.waitResult_exited h
  intro hruns
  obtain ⟨ch', hch', hr⟩ := childRuns_iff.mp hruns
  obtain rfl : ch = ch' := Option.some.inj (hch.symm.trans hch')
  simp [OsChild.isRunning, hstatus] at hr

/-- What a visit of Phase 1 adds to the ids to remove: its own, if it has found the exit. -/
theorem World.mem_toRemove_phase1Visit (env : Env) (now : Instant) {x : Exits} (hw : w.Standalone)
    (hi : i ∈ (phase1Visit env now id (x, w)).1.toRemove) : i ∈ x.toRemove ∨
      (i = id ∧ (phase1Visit env now id (x, w)).2.Vacant id ∧ ∃ p, w.processes.lookup id = some p) := by
  obtain ⟨_, heq⟩ | ⟨p, w', hp, _, ⟨c, status, hc, hresult, rfl, heq⟩ | ⟨_, _, heq⟩⟩ :=
    phase1Visit_cases env now id x w <;> rw [heq] at hi ⊢
  · exact .inl hi
  · rw [Exits.toRemove_add, List.mem_append] at hi
    refine hi.imp_right fun hi => ?_
    have hid : i = id := by
      split_ifs at hi
      · rw [List.mem_singleton.mp hi, Process.stableUptime_id, (hw id p hp).id]
      · cases hi
    refine ⟨hid, fun q hq c' hc' => ?_, p, hp⟩
    rw [unlock_processes, put_processes, AssocMap.lookup_replace, if_pos rfl, Option.mem_def, Option.map_eq_some_iff] at hq
    obtain ⟨_, _, rfl⟩ := hq
    obtain rfl : c' = c := by
      rw [Process.stableUptime_child, hc] at hc'
      exact (Option.some.inj hc').symm
    exact not_childRuns_of_exited hresult
  · exact .inl hi

namespace ReaperPc

/-- The lists of the later phases are empty. -/
def Unburdened : ReaperPc → Prop
  | .collect .waiting _ found | .collect .running _ found => found = []
  | .examine ids v => ids = [] ∧ v = ⟨[], []⟩
  | .spawn ids failing => ids = [] ∧ failing = []
  | .fail ids | .failFast ids => ids = []
  | .resolve .. | .extend .. | .recheck .. | .failRunning .. => False
  | .discard _ _ rest => ∃ ids, rest = .restart ids
  | _ => True

/-- The processes that the reaper removes next, whatever becomes of them until then. -/
def removing : ReaperPc → List ProcessId
  | .detect _ _ x | .search _ x _ _ | .collect (.targets _ x _ _ _) _ _ | .cascade _ x _ => x.toRemove
  | .remove _ _ ids => ids
  | .discard event _ _ => [event.id]
  | _ => []

/-- After a section of the reaper that finds processes without dependencies: they have none, the
later phases have nothing to do, and what is removed next was tracked and has no running child. -/
structure StandsAlone (pc : ReaperPc) (w : World) (pc' : ReaperPc) (w' : World) : Prop where
  standalone : w'.Standalone
  unburdened : pc'.Unburdened
  removing : ∀ i ∈ pc'.removing, w'.Vacant i ∧ (i ∈ pc.removing ∨ ∃ p, w.processes.lookup i = some p)

/-- A section that spawns nothing and has nothing more to remove. -/
theorem StandsAlone.of_rests {pc pc' : ReaperPc} (hw : w.Standalone) (hvacant : ∀ i ∈ pc.removing, w.Vacant i)
    (h : World.Rests w w') (hpc : pc'.Unburdened) (hsub : pc'.removing ⊆ pc.removing) : StandsAlone pc w pc' w' :=
  ⟨h.standalone hw, hpc, fun i hi => ⟨h.vacant (hvacant i (hsub hi)), .inl (hsub hi)⟩⟩

/-- Phase 1 is going to remove the processes whose exit it collects. -/
theorem standsAlone_detect (env : Env) (pollInterval : ℕ) {now : Instant} {ids : List ProcessId} {x : Exits}
    (hw : w.Standalone) (hvacant : ∀ i ∈ x.toRemove, w.Vacant i) :
    StandsAlone (.detect now (id :: ids) x) w (next env pollInterval (.detect now (id :: ids) x) w).1
      (next env pollInterval (.detect now (id :: ids) x) w).2 := by
  have hvisit := World.rests_phase1Visit env now id x w
  refine ⟨hvisit.standalone hw, trivial, fun i hi => ?_⟩
  obtain hold | ⟨rfl, hnew, htracked⟩ := World.mem_toRemove_phase1Visit env now hw hi
  · exact ⟨hvisit.vacant (hvacant i hold), .inl hold⟩
  · exact ⟨hnew, .inr htracked⟩

/-- No process waits or has bound ids. -/
theorem collectVisit_eq_nil (hw : w.Standalone) {c : Collecting} (hc : c = .waiting ∨ c = .running) :
    w.collectVisit c.selects id [] = [] := by
  unfold World.collectVisit
  split
  · next p hp =>
    have hp := hw id p hp
    rcases hc with rfl | rfl <;> simp [Collecting.selects, hp.state, hp.resolvedDeps]
  · rfl

theorem standsAlone_collect (env : Env) (pollInterval : ℕ) {c : Collecting} {ids found : List ProcessId}
    (hw : w.Standalone) (hpc : (collect c ids found).Unburdened)
    (hvacant : ∀ i ∈ (collect c ids found).removing, w.Vacant i) :
    StandsAlone (.collect c ids found) w (next env pollInterval (.collect c ids found) w).1
      (next env pollInterval (.collect c ids found) w).2 := by
  have hrefl : World.Rests w w := .refl w
  have hnil := List.nil_subset (collect c ids found).removing
  cases ids with
  | nil =>
    cases c with
    | targets | due => exact .of_rests hw hvacant hrefl trivial fun _ h => h
    | waiting => exact .of_rests hw hvacant hrefl ⟨hpc, rfl⟩ hnil
    | running => exact .of_rests hw hvacant hrefl hpc hnil
  | cons id ids =>
    have htouch : World.Rests w (w.touch .shared [id]) := .os (.touch _ _ _ : OsStep ∅ (fun _ => True) _ _)
    cases c with
    | targets | due => exact .of_rests hw hvacant htouch trivial fun _ h => h
    | waiting =>
      obtain rfl : found = [] := hpc
      exact .of_rests hw hvacant htouch (collectVisit_eq_nil hw (.inl rfl)) hnil
    | running =>
      obtain rfl : found = [] := hpc
      exact .of_rests hw hvacant htouch (collectVisit_eq_nil hw (.inr rfl)) hnil

/-- Phase 4 is going to remove the process that it could not spawn. -/
theorem standsAlone_restart (env : Env) (pollInterval : ℕ) {ids : List ProcessId} (hw : w.Standalone)
    (hid : w.Vacant id) :
    StandsAlone (.restart (id :: ids)) w (next env pollInterval (.restart (id :: ids)) w).1
      (next env pollInterval (.restart (id :: ids)) w).2 := by
  obtain ⟨hmends, hevent⟩ := World.mends_performRestartHeld env hw id
  have hoff : (after false (.restart ids) (w.performRestartHeld env id).1).Unburdened ∧
      ∀ i ∈ (after false (.restart ids) (w.performRestartHeld env id).1).removing,
        (w.performRestartHeld env id).2.Vacant i ∧ (i ∈ [] ∨ ∃ p, w.processes.lookup i = some p) := by
    cases he : (w.performRestartHeld env id).1 with
    | none => exact ⟨trivial, fun i hi => absurd hi List.not_mem_nil⟩
    | some event =>
      obtain ⟨hevent, htracked, hrests⟩ := hevent event he
      refine ⟨⟨ids, rfl⟩, fun i hi => ?_⟩
      obtain rfl : i = event.id := List.mem_singleton.mp hi
      exact ⟨hrests.vacant (hevent ▸ hid), .inr (hevent ▸ htracked)⟩
  exact ⟨hmends.standalone, hoff.1, hoff.2⟩

/-- What a section of the reaper does to processes without dependencies: Phase 4 aside, no entry
gets a child, and what is removed later has no running one now. -/
theorem standsAlone_next (env : Env) (pollInterval : ℕ) {pc : ReaperPc} (hw : w.Standalone) (hpc : pc.Unburdened)
    (hrestart : ∀ id ids, pc = .restart (id :: ids) → w.Vacant id) (hvacant : ∀ i ∈ pc.removing, w.Vacant i) :
    StandsAlone pc w (next env pollInterval pc w).1 (next env pollInterval pc w).2 := by
  have hrefl : World.Rests w w := .refl w
  have hnil := List.nil_subset pc.removing
  cases pc with
  | asleep =>
    have hslept : OsStep ∅ (fun _ => True) w ((w.sleep env pollInterval).tick env) :=
      (World.osStep_sleep env _ w).trans (World.osStep_tick env _)
    exact .of_rests hw hvacant (.os hslept) trivial hnil
  | detect now ids x =>
    cases ids with
    | nil => exact .of_rests hw hvacant hrefl trivial fun _ h => h
    | cons id ids => exact standsAlone_detect env pollInterval hw hvacant
  | search now x origins targets => cases origins <;> exact .of_rests hw hvacant hrefl trivial fun _ h => h
  | collect c ids found => exact standsAlone_collect env pollInterval hw hpc hvacant
  | cascade now x targets =>
    cases targets with
    | nil => exact .of_rests hw hvacant hrefl trivial fun _ h => h
    | cons id ids => exact .of_rests hw hvacant (World.rests_cascadeKill env id w) trivial fun _ h => h
  | remove now exited ids =>
    cases ids with
    | nil => exact .of_rests hw hvacant hrefl trivial hnil
    | cons id ids =>
      have hremoved : MapStep Kept ∅ (fun _ => True) w (w.removeEntry id) := World.mapStep_removeEntry id w
      exact .of_rests hw hvacant (.of_mapStep hremoved) trivial (List.subset_cons_self id ids)
  | report now exited pending =>
    cases pending with
    | nil => exact .of_rests hw hvacant hrefl trivial hnil
    | cons e es =>
      have hsent : MapStep Kept ∅ (fun _ => True) w (w.sendOrReturn env e.event) := World.mapStep_sendOrReturn _ w
      exact .of_rests hw hvacant (.of_mapStep hsent) trivial hnil
  | schedule now exited =>
    cases exited with
    | nil => exact .of_rests hw hvacant hrefl trivial hnil
    | cons e es => exact .of_rests hw hvacant (World.rests_scheduleEntry env now e w) trivial hnil
  | restart ids =>
    cases ids with
    | nil => exact .of_rests hw hvacant hrefl rfl hnil
    | cons id ids => exact standsAlone_restart env pollInterval hw (hrestart id ids rfl)
  | examine ids v =>
    obtain ⟨rfl, rfl⟩ := hpc
    exact .of_rests hw hvacant hrefl ⟨rfl, rfl⟩ hnil
  | spawn ids failing =>
    obtain ⟨rfl, rfl⟩ := hpc
    exact .of_rests hw hvacant hrefl rfl hnil
  | fail ids =>
    obtain rfl : ids = [] := hpc
    exact .of_rests hw hvacant hrefl rfl hnil
  | failFast ids =>
    obtain rfl : ids = [] := hpc
    exact .of_rests hw hvacant hrefl trivial hnil
  | resolve | extend | recheck | failRunning => exact hpc.elim
  | discard event inLoop rest =>
    obtain ⟨ids, rfl⟩ := hpc
    exact .of_rests hw hvacant (World.rests_discard env event inLoop w) trivial hnil

end ReaperPc

end ProcessManager
