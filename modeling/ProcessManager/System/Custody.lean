import ProcessManager.System.RestartFrame

/-! Who has the handle of a running child: the entry of its process, a call of `stop` that
took the entry out of the map, or a call of `restart` that is about to put one in. -/

namespace ProcessManager

variable {env : Env} {now : Instant} {pollInterval : ℕ} {w w' w₁ w₂ : World} {id : ProcessId} {p p' : Process}
  {c : ℕ} {S : Set ℕ} {P : KillCall → Prop}

/-! ### Handles -/

/-- A child with the pid that belongs to it. -/
structure Handle where
  child : ℕ
  pid : ℕ
  deriving DecidableEq

def Process.handle (p : Process) : Option Handle := p.child.map (⟨·, p.pid⟩)

theorem Process.handle_eq {h : Handle} : p.handle = some h ↔ p.child = some h.child ∧ p.pid = h.pid := by
  obtain ⟨c, pid⟩ := h
  cases hc : p.child <;> simp [handle, hc]

theorem Process.handle_congr (hchild : p'.child = p.child) (hpid : p'.pid = p.pid) : p'.handle = p.handle := by
  rw [handle, handle, hchild, hpid]

namespace World

def ChildRuns (c : ℕ) (w : World) : Prop := (w.children[c]?).any OsChild.isRunning = true

instance (c : ℕ) (w : World) : Decidable (w.ChildRuns c) := inferInstanceAs (Decidable (_ = true))

theorem childRuns_iff : w.ChildRuns c ↔ ∃ ch, w.children[c]? = some ch ∧ ch.isRunning = true :=
  Option.any_eq_true _ _

theorem ChildRuns.lt (h : w.ChildRuns c) : c < w.children.length := by
  obtain ⟨ch, hch, _⟩ := childRuns_iff.mp h
  exact (List.getElem?_eq_some_iff.mp hch).1

/-- What runs later was running before. -/
theorem ChildRuns.before (h : w'.ChildRuns c) (hages : Ages S w.children w'.children)
    (hlt : c < w.children.length) : w.ChildRuns c := by
  obtain ⟨ch', hch', hr⟩ := childRuns_iff.mp h
  obtain ⟨ch₁, hch₁, hage⟩ := hages c _ (List.getElem?_eq_getElem hlt)
  obtain rfl : ch₁ = ch' := Option.some.inj (hch₁.symm.trans hch')
  exact childRuns_iff.mpr ⟨_, List.getElem?_eq_getElem hlt, hage.running hr⟩

theorem not_childRuns_wait (env : Env) (c : ℕ) (w : World) : ¬ (w.wait env c).ChildRuns c := by
  intro h
  obtain ⟨ch, hch, hr⟩ := childRuns_iff.mp h
  simp only [wait, List.getElem?_modify, ↓reduceIte, Option.map_eq_map, Option.map_eq_some_iff] at hch
  obtain ⟨ch₀, _, rfl⟩ := hch
  cases hs : ch₀.status <;> simp [OsChild.isRunning, OsChild.reap, OsChild.exit, hs] at hr

/-- The child of a released process has exited. -/
theorem not_childRuns_release (env : Env) (hc : p.child = some c) (w : World) :
    ¬ (p.release env w).ChildRuns c := by
  intro h
  simp only [Process.release, hc] at h
  have hstep : OsStep ∅ (fun _ => True) (w.wait env c) (p.joinReaders env (w.wait env c)) :=
    Process.osStep_joinReaders env p
  exact not_childRuns_wait env c w (h.before hstep.children (hstep.length ▸ h.lt))

/-- The pid of the handle is the pid of its child. -/
def Genuine (h : Handle) (w : World) : Prop := (w.children[h.child]?).any (·.pid = h.pid) = true

theorem Genuine.ages {h : Handle} (hg : w.Genuine h) (hages : Ages S w.children w'.children) : w'.Genuine h := by
  obtain ⟨ch, hch, hpid⟩ := (Option.any_eq_true _ _).mp hg
  obtain ⟨ch', hch', hage⟩ := hages _ ch hch
  refine (Option.any_eq_true _ _).mpr ⟨ch', hch', ?_⟩
  simpa [hage.pid] using hpid

/-- The entry of the process has the handle. -/
def HeldBy (id : ProcessId) (h : Handle) (w : World) : Prop := ∃ p ∈ w.processes.lookup id, p.handle = some h

/-- A stop has signalled the child. -/
def StopSignalled (h : Handle) (w : World) : Prop :=
  ∃ k ∈ w.kills, (k.site = .stop ∨ k.site = .stopEscalation) ∧ k.child = some h.child ∧ k.pid = h.pid ∧ k.error = none

theorem StopSignalled.grows {h : Handle} (hs : w.StopSignalled h) (hkills : Grows P w.kills w'.kills) :
    w'.StopSignalled h := by
  obtain ⟨k, hk, hsite⟩ := hs
  exact ⟨k, hkills.mem_of_mem hk, hsite⟩

/-- The entry of the process, if there is one, has no running child. -/
def Vacant (id : ProcessId) (w : World) : Prop := ∀ p ∈ w.processes.lookup id, ∀ c ∈ p.child, ¬ w.ChildRuns c

/-- No child of the process is running. -/
def NoneRuns (id : ProcessId) (w : World) : Prop := ∀ r ∈ w.spawns, r.id = id → ¬ w.ChildRuns r.child

instance (id : ProcessId) (h : Handle) (w : World) : Decidable (w.HeldBy id h) :=
  inferInstanceAs (Decidable (∃ p ∈ w.processes.lookup id, _))

instance (h : Handle) (w : World) : Decidable (w.StopSignalled h) :=
  inferInstanceAs (Decidable (∃ k ∈ w.kills, _))

instance (id : ProcessId) (w : World) : Decidable (w.Vacant id) :=
  inferInstanceAs (Decidable (∀ p ∈ w.processes.lookup id, ∀ c ∈ p.child, _))

instance (id : ProcessId) (w : World) : Decidable (w.NoneRuns id) :=
  inferInstanceAs (Decidable (∀ r ∈ w.spawns, r.id = id → _))

theorem Vacant.not_runs {h : Handle} (hv : w.Vacant id) (hh : w.HeldBy id h) : ¬ w.ChildRuns h.child := by
  obtain ⟨p, hp, hhandle⟩ := hh
  exact hv p hp h.child (Process.handle_eq.mp hhandle).1

/-! ### Sections that leave every handle where it is -/

/-- Nothing is spawned, and every entry keeps the handle of its child while the child runs. -/
structure Tends (w w' : World) : Prop where
  nextId : w'.nextId = w.nextId
  spawns : w'.spawns = w.spawns
  length : w'.children.length = w.children.length
  ages : Ages Set.univ w.children w'.children
  kills : Grows (fun _ => True) w.kills w'.kills
  tracked : ∀ i p', w'.processes.lookup i = some p' → ∃ p, w.processes.lookup i = some p
  held : ∀ i h, w.HeldBy i h → w'.ChildRuns h.child → w'.HeldBy i h

namespace Tends

theorem runs (h : Tends w w') (hr : w'.ChildRuns c) : w.ChildRuns c := hr.before h.ages (h.length ▸ hr.lt)

theorem trans (h : Tends w w₁) (h' : Tends w₁ w') : Tends w w' where
  nextId := h'.nextId.trans h.nextId
  spawns := h'.spawns.trans h.spawns
  length := h'.length.trans h.length
  ages := h.ages.trans h'.ages
  kills := h.kills.trans h'.kills
  tracked i p' hp' := by
    obtain ⟨p₁, hp₁⟩ := h'.tracked i p' hp'
    exact h.tracked i p₁ hp₁
  held i k hk hr := h'.held i k (h.held i k hk (h'.runs hr)) hr

theorem of_mapStep {R : ProcessId → Process → Process → Prop} (h : MapStep R S P w w')
    (hheld : ∀ i k, w.HeldBy i k → w'.ChildRuns k.child → w'.HeldBy i k) : Tends w w' where
  nextId := h.nextId
  spawns := h.spawns
  length := h.length
  ages := h.children.mono (Set.subset_univ S)
  kills := h.kills.mono fun _ _ => trivial
  tracked i p' hp' := by
    obtain ⟨p, hp, _⟩ := h.processes i p' hp'
    exact ⟨p, hp⟩
  held := hheld

theorem os (h : OsStep S P w w') : Tends w w' :=
  of_mapStep (.of_osStep kept_refl h) fun _ _ ⟨p, hp, hk⟩ _ => ⟨p, h.processes ▸ hp, hk⟩

theorem refl (w : World) : Tends w w := os (.refl w : OsStep ∅ (fun _ => True) w w)

theorem lock (m : Guards.Mode) (id : ProcessId) (w : World) : Tends w (w.lock m id) :=
  os (.lock _ _ _ : OsStep ∅ (fun _ => True) _ _)

theorem unlock (m : Guards.Mode) (id : ProcessId) (w : World) : Tends w (w.unlock m id) :=
  os (.unlock _ _ _ : OsStep ∅ (fun _ => True) _ _)

theorem touch (m : Guards.Mode) (ids : List ProcessId) (w : World) : Tends w (w.touch m ids) :=
  os (.touch _ _ _ : OsStep ∅ (fun _ => True) _ _)

/-- An entry is written back, with its handle or without that of a child that has exited. -/
theorem put (h : OsStep S P w w') (hp : ∀ q, w.processes.lookup id = some q → ∀ k ∈ q.handle,
    w'.ChildRuns k.child → p'.handle = some k) : Tends w (w'.put id p') := by
  have hstep : MapStep (fun _ _ _ => True) S P w (w'.put id p') := .put_of (fun _ _ => trivial) h fun _ _ => trivial
  refine of_mapStep hstep fun i k ⟨q, hq, hk⟩ hr => ?_
  have hq : w.processes.lookup i = some q := hq
  by_cases hi : i = id
  · subst hi
    refine ⟨p', ?_, hp q hq k hk hr⟩
    show (w'.processes.replace i p').lookup i = some p'
    rw [AssocMap.lookup_replace, if_pos rfl, h.processes, hq, Option.map_some]
  · refine ⟨q, ?_, hk⟩
    show (w'.processes.replace id p').lookup i = some q
    rw [AssocMap.lookup_replace, if_neg hi, h.processes, hq]

/-- An entry is written back with its handle. -/
theorem put_same (h : OsStep S P w w') (hp : w.processes.lookup id = some p) (hhandle : p'.handle = p.handle) :
    Tends w (w'.put id p') := by
  refine put h fun q hq k hk _ => ?_
  obtain rfl : p = q := Option.some.inj (hp.symm.trans hq)
  rw [hhandle, hk]

/-- An entry is removed whose child is not running. -/
theorem remove (h : w.Vacant id) : Tends w (w.remove id) := by
  refine of_mapStep (.remove (S := ∅) (P := fun _ => True) id w) fun i k hk hr => ?_
  by_cases hi : i = id
  · subst hi
    exact absurd hr (h.not_runs hk)
  · obtain ⟨q, hq, hhandle⟩ := hk
    refine ⟨q, ?_, hhandle⟩
    show (w.processes.erase id).lookup i = some q
    rw [AssocMap.lookup_erase_eq, if_neg hi]
    exact hq

end Tends

/-! ### The sections of the reaper -/

theorem tends_phase1Visit (env : Env) (now : Instant) (id : ProcessId) (x : Exits) (w : World) :
    Tends w (phase1Visit env now id (x, w)).2 := by
  have hlock : OsStep Set.univ (fun _ => False) w (w.lock .exclusive id) := .lock _ _ _
  obtain ⟨_, heq⟩ | ⟨p, w', hp, _, ⟨c, status, _, _, rfl, heq⟩ | ⟨hstep, _, heq⟩⟩ :=
    phase1Visit_cases env now id x w <;> rw [heq]
  · exact (Tends.lock _ _ _).trans (.unlock _ _ _)
  · refine (Tends.put_same (hlock.trans (osStep_tryWait env (Set.mem_univ c) _)) hp ?_).trans (.unlock _ _ _)
    exact Process.handle_congr (Process.stableUptime_child now p) (Process.stableUptime_pid now p)
  · refine (Tends.put_same (hlock.trans (hstep.mono (Set.empty_subset _) fun _ h => h)) hp ?_).trans (.unlock _ _ _)
    split_ifs
    · exact Process.handle_congr (Process.stableUptime_child now p) (Process.stableUptime_pid now p)
    · exact Process.handle_congr (Process.stableUptime_child now p) (Process.stableUptime_pid now p)

theorem tends_cascadeKill (env : Env) (id : ProcessId) (w : World) : Tends w (w.cascadeKill env id) := by
  obtain ⟨_, heq⟩ | ⟨p, hp, _, heq⟩ := cascadeKill_cases env id w <;> rw [heq]
  · exact (Tends.lock _ _ _).trans (.unlock _ _ _)
  · have hkill : OsStep ∅ (fun _ => True) w ((w.lock .exclusive id).kill env .cascade
        { p with cascadeFlag := true, state := .stopping } p.config.killSignal.toSignal) :=
      (OsStep.lock _ _ _).trans (osStep_kill env trivial)
    have hput : Tends w (((w.lock .exclusive id).kill env .cascade
        { p with cascadeFlag := true, state := .stopping } p.config.killSignal.toSignal).put id
          { p with cascadeFlag := true, state := .stopping }) := .put_same hkill hp rfl
    exact hput.trans (.unlock _ _ _)

/-- Phase 3 drops a handle after it has waited for the child. -/
theorem tends_scheduleEntry (env : Env) (now : Instant) (e : ExitedProcess) (w : World) :
    Tends w (scheduleEntry env now e w) := by
  cases hconfig : e.restartConfig with
  | none =>
    simp only [scheduleEntry, hconfig]
    exact .refl w
  | some r =>
    cases hp : w.processes.lookup e.id with
    | none =>
      simp only [scheduleEntry, hconfig, lock_processes, hp]
      exact (Tends.lock _ _ _).trans (.unlock _ _ _)
    | some p =>
      have hstep : OsStep p.handles (fun _ => False) w (p.release env (w.lock .exclusive e.id)) :=
        (OsStep.lock _ _ _).trans Process.osStep_release
      have hput : ∀ q : Process, Tends w ((p.release env (w.lock .exclusive e.id)).put e.id q) := by
        refine fun q => .put hstep fun p₀ hp₀ k hk hr => ?_
        obtain rfl : p = p₀ := Option.some.inj (hp.symm.trans hp₀)
        exact absurd hr (not_childRuns_release env (Process.handle_eq.mp hk).1 _)
      simp only [scheduleEntry, hconfig, lock_processes, hp]
      split
      · exact (hput _).trans (.unlock _ _ _)
      · split
        · exact (hput _).trans (.unlock _ _ _)
        · exact { hput _ with }

theorem tends_removeEntry (h : w.Vacant id) : Tends w (w.removeEntry id) :=
  (Tends.lock .exclusive id w).trans ((Tends.remove (w := w.lock .exclusive id) h).trans (.unlock _ _ _))

theorem tends_sendOrReturn (env : Env) (event : ProcessExitEvent) (w : World) : Tends w (w.sendOrReturn env event) := by
  refine .of_mapStep (mapStep_sendOrReturn (P := fun _ => True) event w) fun i k ⟨p, hp, hk⟩ _ => ⟨p, ?_, hk⟩
  rw [sendOrReturn_processes]
  exact hp

theorem tends_discard (env : Env) {event : ProcessExitEvent} (h : w.Vacant event.id) (inLoop : Bool) :
    Tends w (w.discard env event inLoop) := by
  simp only [discard]
  split_ifs
  · exact (tends_removeEntry h).trans (tends_sendOrReturn env event _)
  · exact (tends_removeEntry h).trans (.os (osStep_send (S := ∅) (P := fun _ => True) env event _))

theorem tends_extendEntry (id : ProcessId) (new : List ProcessId) (w : World) : Tends w (w.extendEntry id new) := by
  simp only [extendEntry, lock_processes]
  cases hp : w.processes.lookup id with
  | none => exact (Tends.lock _ _ _).trans (.unlock _ _ _)
  | some p =>
    have hput : Tends (w.lock .exclusive id) ((w.lock .exclusive id).put id (p.extend new)) :=
      .put_same (.refl _ : OsStep ∅ (fun _ => True) _ _) hp rfl
    exact (Tends.lock _ _ _).trans (hput.trans (.unlock _ _ _))

theorem tends_failWaitingHeld (id : ProcessId) (w : World) : Tends w (w.failWaitingHeld id).2 := by
  simp only [failWaitingHeld, lock_processes]
  cases hp : w.processes.lookup id with
  | none => exact (Tends.lock _ _ _).trans (.unlock _ _ _)
  | some p =>
    have hput : Tends (w.lock .exclusive id) ((w.lock .exclusive id).put id { p with state := .failed }) :=
      .put_same (.refl _ : OsStep ∅ (fun _ => True) _ _) hp rfl
    exact (Tends.lock _ _ _).trans (hput.trans (.unlock _ _ _))

theorem tends_failRunningHeld (env : Env) (id : ProcessId) (p : Process) (w : World) :
    Tends w (w.failRunningHeld env id p) := by
  simp only [failRunningHeld, lock_processes]
  refine (Tends.lock .exclusive id w).trans (.trans ?_ (.unlock _ _ _))
  cases hq : w.processes.lookup id with
  | none => exact .refl _
  | some q =>
    have hput : Tends (w.lock .exclusive id) ((w.lock .exclusive id).put id { q with state := .failed }) :=
      .put_same (.refl _ : OsStep ∅ (fun _ => True) _ _) hq rfl
    simp only
    split_ifs
    · exact hput.trans (.os Process.osStep_sendSignal)
    · exact hput

theorem tends_pollEntry (env : Env) (hp : w.processes.lookup id = some p) : Tends w (w.pollEntry env id p) := by
  have hpolled : (p.pollState env w).1.handle = p.handle := by
    rw [Process.pollState_fst]
    rfl
  exact .put_same (Process.osStep_pollState (P := fun _ => True)) hp hpolled

theorem tends_allDepsRunning (env : Env) (deps : List ProcessId) (w : World) : Tends w (w.allDepsRunning env deps).2 := by
  refine allDepsRunning_invariant (I := Tends w) ?_ ?_ ?_ deps (.refl w)
  · exact fun id w' h => h.trans (.lock _ _ _)
  · exact fun id w' h => h.trans (.unlock _ _ _)
  · exact fun id p w' h hp => h.trans (tends_pollEntry env hp)

/-- Polling changes no handle. -/
theorem handle_allDepsRunning (env : Env) (hp : w.processes.lookup id = some p) (deps : List ProcessId) :
    ∃ q, (w.allDepsRunning env deps).2.processes.lookup id = some q ∧ q.handle = p.handle := by
  refine allDepsRunning_invariant (I := fun w' => ∃ q, w'.processes.lookup id = some q ∧ q.handle = p.handle)
    (fun _ _ h => h) (fun _ _ h => h) ?_ deps ⟨p, hp, rfl⟩
  rintro d q w' ⟨q', hq', hhandle⟩ hq
  show ∃ q₁, (w'.pollEntry env d q).processes.lookup id = some q₁ ∧ q₁.handle = p.handle
  rw [pollEntry_processes, AssocMap.lookup_replace]
  split_ifs with hd
  · subst hd
    obtain rfl : q = q' := Option.some.inj (hq.symm.trans hq')
    refine ⟨(q.pollState env w').1, by rw [hq, Option.map_some], ?_⟩
    rw [Process.pollState_fst]
    exact hhandle
  · exact ⟨q', hq', hhandle⟩

theorem tends_restartToWaiting (env : Env) {q : Process} (hq : w.processes.lookup id = some q)
    (h : q.handle = p.handle) (resolved : List ProcessId) : Tends w (w.restartToWaiting env id p resolved) := by
  have hput : Tends w ((w.tick env).put id { p with
      state := .waiting
      waitingSince := some (w.tick env).clock
      resolvedDeps := resolved
      cascadeFlag := false }) := .put_same (osStep_tick (P := fun _ => True) (S := ∅) env w) hq h.symm
  exact hput.trans (.unlock _ _ _)

/-! ### What a section hands over -/

/-- A child that the section spawned is the only one of its process that runs. Its handle goes
to the entry or to the call. -/
structure Born (held' : Option (ProcessId × Handle)) (w w' : World) (r : SpawnCall) : Prop where
  known : (∃ p, w.processes.lookup r.id = some p) ∨ r.id.raw < w.nextId
  child : r.child = w.children.length
  lt : r.child < w'.children.length
  only : w.NoneRuns r.id
  held : ∃ h : Handle, h.child = r.child ∧ w'.Genuine h ∧ (w'.HeldBy r.id h ∨ held' = some (r.id, h))

/-- A section of a call that has the handle `held` before and `held'` after it. -/
structure Passes (held held' : Option (ProcessId × Handle)) (w w' : World) : Prop where
  nextId : w'.nextId = w.nextId
  ages : Ages Set.univ w.children w'.children
  kills : Grows (fun _ => True) w.kills w'.kills
  tracked : ∀ i p', w'.processes.lookup i = some p' → (∃ p, w.processes.lookup i = some p) ∨ i.raw < w.nextId
  spawns : Grows (Born held' w w') w.spawns w'.spawns
  entry : ∀ r ∈ w.spawns, ∀ h : Handle, h.child = r.child → w.HeldBy r.id h → w'.ChildRuns r.child →
    w'.HeldBy r.id h ∨ held' = some (r.id, h)
  call : ∀ i h, held = some (i, h) → w'.ChildRuns h.child →
    w'.HeldBy i h ∨ held' = some (i, h) ∨ w'.StopSignalled h

/-- The children that were spawned are those in the table. -/
def SpawnsBelow (w : World) : Prop := ∀ r ∈ w.spawns, r.child < w.children.length

namespace Passes

variable {held held' : Option (ProcessId × Handle)}

theorem of_tends (h : Tends w w') (hcall : ∀ i k, held = some (i, k) → w'.ChildRuns k.child →
    w'.HeldBy i k ∨ held' = some (i, k) ∨ w'.StopSignalled k) : Passes held held' w w' where
  nextId := h.nextId
  ages := h.ages
  kills := h.kills
  tracked i p' hp' := .inl (h.tracked i p' hp')
  spawns := .of_eq h.spawns
  entry r _ k hk hheld hr := .inl (h.held r.id k hheld (hk ▸ hr))
  call := hcall

/-- The call keeps its handle. -/
theorem keep (h : Tends w w') : Passes held held w w' := of_tends h fun _ _ hk _ => .inr (.inl hk)

theorem of_spawned {site : SpawnSite} {config : ProcessConfig} {deps : List ProcessId} (hbelow : w.SpawnsBelow)
    (h₀ : Tends w w₁) (hs : Spawned env site id config deps w₁ w₂) (hrest : MapStep (fun _ _ _ => True) S P w₂ w')
    (hknown : (∃ p, w.processes.lookup id = some p) ∨ id.raw < w.nextId) (hnone : w.NoneRuns id)
    (hothers : ∀ i k, i ≠ id → w₂.HeldBy i k → w'.HeldBy i k)
    (hnew : w'.HeldBy id ⟨w₁.nextChild, w₁.nextPid env⟩ ∨
      held' = some (id, ⟨w₁.nextChild, w₁.nextPid env⟩)) : Passes none held' w w' := by
  obtain ⟨program, hspawns⟩ := hs.spawns
  have hages : Ages Set.univ w₁.children w'.children :=
    (hs.children.mono (Set.empty_subset _)).trans (hrest.children.mono (Set.subset_univ S))
  refine {
    nextId := hrest.nextId.trans (hs.nextId.trans h₀.nextId)
    ages := h₀.ages.trans hages
    kills := h₀.kills.trans (hs.kills ▸ hrest.kills.mono fun _ _ => trivial)
    tracked := fun i p' hp' => ?_
    spawns := ?_
    entry := fun r hr k hk hheld hruns => ?_
    call := fun i k hk => nomatch hk }
  · obtain ⟨p₂, hp₂, _⟩ := hrest.processes i p' hp'
    exact .inl (h₀.tracked i p₂ (hs.processes ▸ hp₂))
  · rw [hrest.spawns, hspawns, h₀.spawns]
    refine .cons _ {
      known := hknown
      child := h₀.length
      lt := ?_
      only := hnone
      held := ⟨⟨w₁.nextChild, w₁.nextPid env⟩, rfl, ?_, hnew⟩ }
    · rw [hrest.length, hs.length]
      exact Nat.lt_succ_self _
    · obtain ⟨ch, hch, hpid, _⟩ := hs.child
      have hgenuine : w₂.Genuine ⟨w₁.nextChild, w₁.nextPid env⟩ :=
        (Option.any_eq_true _ _).mpr ⟨ch, hch, by simpa using hpid⟩
      exact hgenuine.ages hrest.children
  · by_cases hid : r.id = id
    · exact absurd (hruns.before (h₀.ages.trans hages) (hbelow r hr)) (hnone r hr hid)
    · have hruns₁ : w₁.ChildRuns r.child := hruns.before hages (h₀.length ▸ hbelow r hr)
      obtain ⟨p, hp, hhandle⟩ := h₀.held r.id k hheld (hk ▸ hruns₁)
      exact .inl (hothers r.id k hid ⟨p, hs.processes ▸ hp, hhandle⟩)

/-- The handle of an entry goes to the call that removes it. -/
theorem take (hp : w.processes.lookup id = some p) (hhandle : p'.handle = p.handle) :
    Passes none (p'.handle.map (id, ·)) w (w.remove id) where
  nextId := rfl
  ages := .refl _
  kills := .refl _
  tracked i q hq := by
    obtain ⟨q', hq', _⟩ := (MapStep.remove (S := ∅) (P := fun _ => True) id w).processes i q hq
    exact .inl ⟨q', hq'⟩
  spawns := .refl _
  entry r _ k _ hheld _ := by
    obtain ⟨q, hq, hk⟩ := hheld
    have hq : w.processes.lookup r.id = some q := hq
    by_cases hid : r.id = id
    · rw [hid] at hq
      obtain rfl : p = q := Option.some.inj (hp.symm.trans hq)
      rw [hhandle, hk, hid]
      exact .inr rfl
    · refine .inl ⟨q, ?_, hk⟩
      show (w.processes.erase id).lookup r.id = some q
      rw [AssocMap.lookup_erase_eq, if_neg hid, hq]
  call i k hk := nomatch hk

/-- The handle of the call goes to an entry without a running child. -/
theorem put_held {S : Set ℕ} {P : KillCall → Prop} (h : OsStep S P w w₁) (hp : w.processes.lookup id = some p)
    (hvacant : w.Vacant id) (p' : Process) : Passes (p'.handle.map (id, ·)) none w (w₁.put id p') := by
  have hput : Tends w (w₁.put id p') := .put h fun q hq k hk hr =>
    absurd (hr.before h.children (h.length ▸ hr.lt)) (hvacant.not_runs ⟨q, hq, hk⟩)
  refine of_tends hput fun i k hk _ => .inl ⟨p', ?_, ?_⟩
  · obtain ⟨_, _, heq⟩ := Option.map_eq_some_iff.mp hk
    cases heq
    show (w₁.processes.replace id p').lookup id = some p'
    rw [AssocMap.lookup_replace, if_pos rfl, h.processes, hp, Option.map_some]
  · obtain ⟨_, hhandle, heq⟩ := Option.map_eq_some_iff.mp hk
    cases heq
    exact hhandle

/-- The handle of the call goes into the map, in the place of an entry without a running child. -/
theorem insert (env : Env) (hvacant : w.Vacant id) (hid : id.raw < w.nextId) :
    Passes (p.handle.map (id, ·)) none w (w.insert env id p) := by
  have hlookup : ∀ i, (w.insert env id p).processes.lookup i = if i = id then some p else w.processes.lookup i := by
    intro i
    rw [insert_processes, AssocMap.lookup_reorder, AssocMap.lookup_insert_eq]
  refine {
    nextId := rfl
    ages := .refl _
    kills := .refl _
    tracked := fun i q hq => ?_
    spawns := .refl _
    entry := fun r _ k hk hheld hr => ?_
    call := fun i k hk _ => ?_ }
  · rw [hlookup] at hq
    split_ifs at hq with hi
    · exact .inr (hi ▸ hid)
    · exact .inl ⟨q, hq⟩
  · by_cases hi : r.id = id
    · have hr : w.ChildRuns r.child := hr
      exact absurd (hk ▸ hr) (hvacant.not_runs (hi ▸ hheld))
    · obtain ⟨q, hq, hhandle⟩ := hheld
      refine .inl ⟨q, ?_, hhandle⟩
      show (w.insert env id p).processes.lookup r.id = some q
      rw [hlookup, if_neg hi]
      exact hq
  · obtain ⟨_, hhandle, heq⟩ := Option.map_eq_some_iff.mp hk
    cases heq
    refine .inl ⟨p, ?_, hhandle⟩
    show (w.insert env id p).processes.lookup id = some p
    rw [hlookup, if_pos rfl]

/-- The new handle goes to the entry. -/
theorem put_spawned {site : SpawnSite} {config : ProcessConfig} {deps : List ProcessId} {q : Process}
    (hbelow : w.SpawnsBelow) (h₀ : Tends w w₁) (hs : Spawned env site id config deps w₁ w₂)
    (hq : w₁.processes.lookup id = some q) (hnone : w.NoneRuns id)
    (hhandle : p'.handle = some ⟨w₁.nextChild, w₁.nextPid env⟩) :
    Passes none none w ((w₂.put id p').unlock .exclusive id) := by
  have hput : MapStep (fun _ _ _ => True) ∅ (fun _ => True) w₂ (w₂.put id p') :=
    .put_of (fun _ _ => trivial) (.refl w₂) fun _ _ => trivial
  have hrest : MapStep (fun _ _ _ => True) ∅ (fun _ => True) w₂ ((w₂.put id p').unlock .exclusive id) :=
    { hput with }
  refine of_spawned hbelow h₀ hs hrest (.inl (h₀.tracked id q hq)) hnone (fun i k hi hk => ?_) (.inl ⟨p', ?_, hhandle⟩)
  · obtain ⟨r, hr, hk⟩ := hk
    refine ⟨r, ?_, hk⟩
    show (w₂.processes.replace id p').lookup i = some r
    rw [AssocMap.lookup_replace, if_neg hi]
    exact hr
  · show (w₂.processes.replace id p').lookup id = some p'
    rw [AssocMap.lookup_replace, if_pos rfl, hs.processes, hq, Option.map_some]

end Passes

theorem passes_respawnHeld (env : Env) {q : Process} (hbelow : w.SpawnsBelow) (h : Tends w w₁)
    (hq : w₁.processes.lookup id = some q) (hhandle : q.handle = p.handle) (hnone : w.NoneRuns id) :
    Passes none none w (w₁.respawnHeld env id p).2 := by
  simp only [respawnHeld, respawn]
  cases hspawn : w₁.spawnError env p.config with
  | some e =>
    have hput : Tends w₁ ((w₁.spawnProcess env .performRestart id p.config p.resolvedDeps).put id
        { p with state := .failed }) :=
      .put_same (osStep_spawnProcess (P := fun _ => True) (S := ∅) hspawn) hq hhandle.symm
    exact .keep (h.trans (hput.trans (.unlock _ _ _)))
  | none =>
    have hspawned := (Spawned.of_ok .performRestart id p.resolvedDeps hspawn).tick_if p.restartState.isSome
    exact .put_spawned hbelow h hspawned hq hnone rfl

/-- Phase 4 respawns whatever entry it finds. -/
theorem passes_performRestartHeld (env : Env) (hbelow : w.SpawnsBelow)
    (hnone : ∀ p ∈ w.processes.lookup id, w.NoneRuns id) : Passes none none w (w.performRestartHeld env id).2 := by
  have hlock : Tends w (w.lock .exclusive id) := .lock _ _ _
  simp only [performRestartHeld, lock_processes]
  cases hp : w.processes.lookup id with
  | none => exact .keep (hlock.trans (.unlock _ _ _))
  | some p =>
    have hnone := hnone p hp
    simp only
    set resolved := resolvedOrDefault w.processes p.config.dependsOn
    set w₁ := (w.lock .exclusive id).touch .shared (resolveVisits w.processes p.config.dependsOn)
    have hvisits : Tends w w₁ := hlock.trans (.touch _ _ _)
    have hpolls : Tends w (w₁.allDepsRunning env resolved).2 := hvisits.trans (tends_allDepsRunning env resolved w₁)
    obtain ⟨q, hq, hhandle⟩ := handle_allDepsRunning env (w := w₁) hp resolved
    split_ifs
    · exact passes_respawnHeld env hbelow hlock hp rfl hnone
    · exact passes_respawnHeld env hbelow hpolls hq hhandle hnone
    · exact .keep (hpolls.trans (tends_restartToWaiting env hq hhandle resolved))
    · exact .keep (hvisits.trans (tends_restartToWaiting env (w := w₁) hp rfl resolved))

theorem passes_spawnWaitingHeld (env : Env) (hbelow : w.SpawnsBelow)
    (hnone : ∀ p ∈ w.processes.lookup id, w.NoneRuns id) : Passes none none w (w.spawnWaitingHeld env id).2 := by
  have hlock : Tends w (w.lock .exclusive id) := .lock _ _ _
  simp only [spawnWaitingHeld, spawnWaitingProcess, lock_processes]
  cases hp : w.processes.lookup id with
  | none => exact .keep (hlock.trans (.unlock _ _ _))
  | some p =>
    simp only
    cases hspawn : (w.lock .exclusive id).spawnError env p.config with
    | some e =>
      have hput : Tends (w.lock .exclusive id) (((w.lock .exclusive id).spawnProcess env .spawnWaiting id p.config
          p.resolvedDeps).put id { p with state := .failed }) :=
        .put_same (osStep_spawnProcess (P := fun _ => True) (S := ∅) hspawn) hp rfl
      exact .keep (hlock.trans (hput.trans (.unlock _ _ _)))
    | none =>
      have hspawned := (Spawned.of_ok .spawnWaiting id p.resolvedDeps hspawn).tick_if p.restartState.isSome
      exact .put_spawned hbelow hlock hspawned hp (hnone p hp) rfl

end World

/-! ### The threads -/

namespace ReaperPc

/-- The section does not remove an entry whose child is running, nor respawn a process of which
a child is running. -/
def Harmless : ReaperPc → World → Prop
  | .remove _ _ (id :: _), w => w.Vacant id
  | .discard event _ _, w => w.Vacant event.id
  | .restart (id :: _), w | .spawn (id :: _) _, w => ∀ p ∈ w.processes.lookup id, w.NoneRuns id
  | _, _ => True

theorem passes_next (env : Env) (pollInterval : ℕ) {pc : ReaperPc} (h : pc.Harmless w) (hbelow : w.SpawnsBelow) :
    World.Passes none none w (next env pollInterval pc w).2 := by
  have hos : ∀ {T : Set ℕ} {w' : World}, OsStep T (fun _ => False) w w' → World.Passes none none w w' :=
    fun hstep => .keep (.os hstep)
  have hrefl : World.Passes none none w w := .keep (.refl w)
  cases pc with
  | asleep => exact hos ((World.osStep_sleep (S := ∅) env _ w).trans (World.osStep_tick env _))
  | detect now ids x =>
    cases ids with
    | nil => exact hrefl
    | cons id ids => exact .keep (World.tends_phase1Visit env now id x w)
  | search now x origins targets => cases origins <;> exact hrefl
  | collect c ids found =>
    cases ids with
    | nil => exact hrefl
    | cons id ids => exact .keep (.touch _ _ _)
  | cascade now x targets =>
    cases targets with
    | nil => exact hrefl
    | cons id ids => exact .keep (World.tends_cascadeKill env id w)
  | remove now exited ids =>
    cases ids with
    | nil => exact hrefl
    | cons id ids => exact .keep (World.tends_removeEntry h)
  | report now exited pending =>
    cases pending with
    | nil => exact hrefl
    | cons e es => exact .keep (World.tends_sendOrReturn env e.event w)
  | schedule now exited =>
    cases exited with
    | nil => exact hrefl
    | cons e es => exact .keep (World.tends_scheduleEntry env now e w)
  | restart ids =>
    cases ids with
    | nil => exact hrefl
    | cons id ids => exact World.passes_performRestartHeld env hbelow h
  | examine ids v =>
    cases ids with
    | nil => exact hrefl
    | cons id ids =>
      have hstep := hos (World.osStep_examineHeld env id v w)
      simp only [next]
      split <;> exact hstep
  | resolve id p deps ids v =>
    have hstep := hos (World.osStep_searchDeps id p deps v w)
    simp only [next]
    split_ifs <;> exact hstep
  | extend id new ids v => exact .keep (World.tends_extendEntry id new w)
  | recheck id ids v => exact hos (World.osStep_recheck id v w)
  | spawn ids failing =>
    cases ids with
    | nil => exact hrefl
    | cons id ids => exact World.passes_spawnWaitingHeld env hbelow h
  | fail ids =>
    cases ids with
    | nil => exact hrefl
    | cons id ids => exact .keep (World.tends_failWaitingHeld id w)
  | failFast ids =>
    cases ids with
    | nil => exact hrefl
    | cons id ids =>
      have hstep := hos (World.osStep_failFastCheck id w)
      simp only [next]
      split <;> exact hstep
  | failRunning id p ids => exact .keep (World.tends_failRunningHeld env id p w)
  | discard event inLoop rest => exact .keep (World.tends_discard env h inLoop)

end ReaperPc

end ProcessManager
