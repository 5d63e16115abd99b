import ProcessManager.Library.Log
import ProcessManager.Library.Fold
import ProcessManager.Os.World
import Mathlib.Data.Set.BooleanAlgebra
import Mathlib.Order.CompletePartialOrder

/-! What the operating system can do between two states of the world: children exit,
some are collected, `kill` calls are made, and the manager's own data stays as it is. -/

namespace ProcessManager

/-! ### Children age -/

/-- A child keeps its pid, never runs again once it has exited, and is collected only
if `collect` allows it. -/
structure OsChild.Ages (collect : Prop) (ch ch' : OsChild) : Prop where
  pid : ch'.pid = ch.pid
  running : ch'.isRunning = true → ch.isRunning = true
  reaped : ch'.isReaped = true → ch.isReaped = true ∨ collect
  final : ch.isReaped = true → ch' = ch

namespace OsChild.Ages

variable {c d : Prop} {ch ch' ch'' : OsChild}

theorem refl (ch : OsChild) : Ages c ch ch := ⟨rfl, id, .inl, fun _ => rfl⟩

theorem trans (h : Ages c ch ch') (h' : Ages c ch' ch'') : Ages c ch ch'' where
  pid := h'.pid.trans h.pid
  running hr := h.running (h'.running hr)
  reaped hr := (h'.reaped hr).elim h.reaped .inr
  final hr := by
    have hc := h.final hr
    rw [hc] at h'
    exact h'.final hr

theorem mono (hcd : c → d) (h : Ages c ch ch') : Ages d ch ch' :=
  ⟨h.pid, h.running, fun hr => (h.reaped hr).imp_right hcd, h.final⟩

theorem exit (status : ExitStatus) (time : Instant) (ch : OsChild) :
    Ages False ch (ch.exit status time) := by
  obtain ⟨pid, st⟩ := ch
  cases st <;> constructor <;> simp [OsChild.exit, OsChild.isRunning, OsChild.isReaped]

theorem reap (ch : OsChild) : Ages True ch ch.reap := by
  obtain ⟨pid, st⟩ := ch
  cases st <;> constructor <;> simp [OsChild.reap, OsChild.isRunning, OsChild.isReaped]

end OsChild.Ages

/-- Every child ages, only those in `S` are collected, and new ones may be added. -/
def Ages (S : Set ℕ) (cs cs' : List OsChild) : Prop :=
  ∀ (c : ℕ) (ch : OsChild), cs[c]? = some ch → ∃ ch', cs'[c]? = some ch' ∧ ch.Ages (c ∈ S) ch'

namespace Ages

variable {S T : Set ℕ} {cs cs' cs'' : List OsChild} {c : ℕ}

theorem refl (cs : List OsChild) : Ages S cs cs := fun _ ch h => ⟨ch, h, .refl ch⟩

theorem trans (h : Ages S cs cs') (h' : Ages S cs' cs'') : Ages S cs cs'' := by
  intro c ch hc
  obtain ⟨ch', hc', hage⟩ := h c ch hc
  obtain ⟨ch'', hc'', hage'⟩ := h' c ch' hc'
  exact ⟨ch'', hc'', hage.trans hage'⟩

theorem mono (hST : S ⊆ T) (h : Ages S cs cs') : Ages T cs cs' := by
  intro c ch hc
  obtain ⟨ch', hc', hage⟩ := h c ch hc
  exact ⟨ch', hc', hage.mono (@hST c)⟩

theorem of_empty (h : Ages ∅ cs cs') : Ages S cs cs' := h.mono (Set.empty_subset S)

theorem length_le (h : Ages S cs cs') : cs.length ≤ cs'.length := by
  by_contra hlt
  obtain ⟨ch', hc', _⟩ := h (cs.length - 1) _ (List.getElem?_eq_getElem (by omega))
  have := (List.getElem?_eq_some_iff.mp hc').1
  omega

theorem modify {f : OsChild → OsChild} (hf : ∀ ch : OsChild, ch.Ages (c ∈ S) (f ch)) (cs : List OsChild) :
    Ages S cs (cs.modify c f) := by
  intro k ch hk
  rw [List.getElem?_modify, hk]
  by_cases hkc : c = k
  · subst hkc
    exact ⟨f ch, by simp, hf ch⟩
  · exact ⟨ch, by simp [hkc], .refl ch⟩

theorem append (cs new : List OsChild) : Ages S cs (cs ++ new) := by
  intro c ch hc
  have hlt := (List.getElem?_eq_some_iff.mp hc).1
  exact ⟨ch, by rw [List.getElem?_append_left hlt, hc], .refl ch⟩

end Ages

/-! ### Frames -/

/-- The manager took guards, waited for children in `S` and made `kill` calls that
satisfy `P`, but its own data is as before. -/
structure OsStep (S : Set ℕ) (P : KillCall → Prop) (w w' : World) : Prop where
  processes : w'.processes = w.processes
  nextId : w'.nextId = w.nextId
  nextSpawnSequence : w'.nextSpawnSequence = w.nextSpawnSequence
  reaper : w'.reaper = w.reaper
  spawns : w'.spawns = w.spawns
  length : w'.children.length = w.children.length
  children : Ages S w.children w'.children
  kills : Grows P w.kills w'.kills
  receiver : w'.receiverAlive = true → w.receiverAlive = true
  events : Grows (fun _ => True) w.events w'.events

namespace OsStep

variable {S T : Set ℕ} {P Q : KillCall → Prop} {w w' w'' : World}

theorem refl (w : World) : OsStep S P w w :=
  ⟨rfl, rfl, rfl, rfl, rfl, rfl, .refl _, .refl _, fun h => h, .refl _⟩

theorem trans (h : OsStep S P w w') (h' : OsStep S P w' w'') : OsStep S P w w'' where
  processes := h'.processes.trans h.processes
  nextId := h'.nextId.trans h.nextId
  nextSpawnSequence := h'.nextSpawnSequence.trans h.nextSpawnSequence
  reaper := h'.reaper.trans h.reaper
  spawns := h'.spawns.trans h.spawns
  length := h'.length.trans h.length
  children := h.children.trans h'.children
  kills := h.kills.trans h'.kills
  receiver hr := h.receiver (h'.receiver hr)
  events := h.events.trans h'.events

theorem mono (hST : S ⊆ T) (hPQ : ∀ k, P k → Q k) (h : OsStep S P w w') : OsStep T Q w w' :=
  { h with children := h.children.mono hST, kills := h.kills.mono hPQ }

theorem lock (m : Guards.Mode) (id : ProcessId) (w : World) : OsStep S P w (w.lock m id) :=
  ⟨rfl, rfl, rfl, rfl, rfl, rfl, .refl _, .refl _, fun h => h, .refl _⟩

theorem unlock (m : Guards.Mode) (id : ProcessId) (w : World) : OsStep S P w (w.unlock m id) :=
  ⟨rfl, rfl, rfl, rfl, rfl, rfl, .refl _, .refl _, fun h => h, .refl _⟩

theorem touch (m : Guards.Mode) (ids : List ProcessId) (w : World) : OsStep S P w (w.touch m ids) :=
  ⟨rfl, rfl, rfl, rfl, rfl, rfl, .refl _, .refl _, fun h => h, .refl _⟩

/-- A step without `kill` calls and collections fits every frame. -/
theorem weaken (h : OsStep ∅ (fun _ => False) w w') : OsStep S P w w' :=
  h.mono (Set.empty_subset S) (by simp)

end OsStep

/-- The reaper thread has returned or panicked. -/
def World.ReaperEnded (w : World) : Prop := w.reaper = .returned ∨ w.reaper = .panicked

/-- A thread that has ended stays so. -/
theorem World.ReaperEnded.step {w w' : World} (hended : w.ReaperEnded)
    (h : w'.reaper = w.reaper ∨ w'.ReaperEnded) : w'.ReaperEnded := by
  obtain heq | hended' := h
  · unfold ReaperEnded
    rwa [heq]
  · exact hended'

/-- As `OsStep`, but entries may also be removed or changed according to `R`, and the
reaper thread may end. -/
structure MapStep (R : ProcessId → Process → Process → Prop) (S : Set ℕ) (P : KillCall → Prop)
    (w w' : World) : Prop where
  processes : AssocMap.Refines R w.processes w'.processes
  nextId : w'.nextId = w.nextId
  reaper : w'.reaper = w.reaper ∨ w'.ReaperEnded
  spawns : w'.spawns = w.spawns
  length : w'.children.length = w.children.length
  children : Ages S w.children w'.children
  kills : Grows P w.kills w'.kills
  receiver : w'.receiverAlive = true → w.receiverAlive = true
  events : Grows (fun _ => True) w.events w'.events

/-- Entries are kept or removed. -/
abbrev Kept : ProcessId → Process → Process → Prop := fun _ p p' => p' = p

theorem kept_refl (id : ProcessId) (p : Process) : Kept id p p := rfl

theorem kept_trans (id : ProcessId) (p p' p'' : Process) (h : Kept id p p') (h' : Kept id p' p'') :
    Kept id p p'' := h'.trans h

namespace MapStep

variable {R Q : ProcessId → Process → Process → Prop} {S T : Set ℕ} {P U : KillCall → Prop}
  {w w' w'' : World}

theorem of_osStep (hR : ∀ id p, R id p p) (h : OsStep S P w w') : MapStep R S P w w' :=
  { h with
    processes := h.processes ▸ .refl hR _
    reaper := .inl h.reaper }

theorem trans (hR : ∀ id p p' p'', R id p p' → R id p' p'' → R id p p'')
    (h : MapStep R S P w w') (h' : MapStep R S P w' w'') : MapStep R S P w w'' where
  processes := h.processes.trans hR h'.processes
  nextId := h'.nextId.trans h.nextId
  reaper := by
    rcases h'.reaper with hr' | hr'
    · unfold World.ReaperEnded
      rw [hr']
      exact h.reaper
    · exact .inr hr'
  spawns := h'.spawns.trans h.spawns
  length := h'.length.trans h.length
  children := h.children.trans h'.children
  kills := h.kills.trans h'.kills
  receiver hr := h.receiver (h'.receiver hr)
  events := h.events.trans h'.events

theorem mono (hRQ : ∀ id p p', R id p p' → Q id p p') (hST : S ⊆ T) (hPU : ∀ k, P k → U k)
    (h : MapStep R S P w w') : MapStep Q T U w w' :=
  { h with
    processes := h.processes.mono hRQ
    children := h.children.mono hST
    kills := h.kills.mono hPU }

theorem remove (id : ProcessId) (w : World) : MapStep Kept S P w (w.remove id) where
  processes := .erase (R := Kept) (fun _ _ => rfl) _ id
  nextId := rfl
  reaper := .inl rfl
  spawns := rfl
  length := rfl
  children := .refl _
  kills := .refl _
  receiver := fun h => h
  events := .refl _

/-- An entry is written back; if it is gone, nothing changes. -/
theorem put_of (hR : ∀ id p, R id p p) {id : ProcessId} {p' : Process} (h : OsStep S P w w')
    (hp : ∀ p, w.processes.lookup id = some p → R id p p') : MapStep R S P w (w'.put id p') where
  processes := by
    rw [World.put_processes, h.processes]
    exact .replace_of hR hp
  nextId := h.nextId
  reaper := .inl h.reaper
  spawns := h.spawns
  length := h.length
  children := h.children
  kills := h.kills
  receiver := h.receiver
  events := h.events

/-- An entry is written back through its guard. -/
theorem put (hR : ∀ id p, R id p p) {id : ProcessId} {p p' : Process} (h : OsStep S P w w')
    (hp : w.processes.lookup id = some p) (hp' : R id p p') : MapStep R S P w (w'.put id p') :=
  put_of hR h fun _ hq => Option.some.inj (hp.symm.trans hq) ▸ hp'

theorem lock (hR : ∀ id p, R id p p) (m : Guards.Mode) (id : ProcessId) (w : World) :
    MapStep R S P w (w.lock m id) := .of_osStep hR (.lock m id w)

theorem unlock (hR : ∀ id p, R id p p) (m : Guards.Mode) (id : ProcessId) (w : World) :
    MapStep R S P w (w.unlock m id) := .of_osStep hR (.unlock m id w)

end MapStep

/-- The children a process holds a handle of. -/
def Process.handles (p : Process) : Set ℕ := {c | p.child = some c}

/-- The process holds the handle of its own child, and the exit of that child has not
been collected. -/
def Process.Uncollected (p : Process) (cs : List OsChild) : Prop :=
  ∃ c ch, p.child = some c ∧ cs[c]? = some ch ∧ ch.pid = p.pid ∧ ch.isReaped = false

theorem Process.Uncollected.ages {p : Process} {S : Set ℕ} {cs cs' : List OsChild}
    (h : p.Uncollected cs) (hcs : Ages S cs cs') (hS : Disjoint p.handles S) :
    p.Uncollected cs' := by
  obtain ⟨c, ch, hp, hc, hpid, hr⟩ := h
  obtain ⟨ch', hc', hage⟩ := hcs c ch hc
  refine ⟨c, ch', hp, hc', hage.pid.trans hpid, ?_⟩
  have hcS : c ∉ S := Set.disjoint_left.mp hS hp
  by_contra hr'
  rcases hage.reaped (by simpa using hr') with h | h
  · simp [hr] at h
  · exact hcS h

/-- A `kill` call for the process `p`, made after `w` while no child was collected. -/
structure KillsFrom (p : Process) (w : World) (k : KillCall) : Prop where
  id : k.id = p.id
  pid : k.pid = p.pid
  pid_ne : p.pid ≠ 0
  child : k.child = p.child
  children : Ages ∅ w.children k.children

theorem KillsFrom.earlier {p : Process} {w w' : World} {k : KillCall} (h : KillsFrom p w' k)
    (hw : Ages ∅ w.children w'.children) : KillsFrom p w k :=
  { h with children := hw.trans h.children }

theorem handles_markStopping (p : Process) : p.markStopping.handles = p.handles := rfl

/-- Only the id, the pid and the handle of the process matter. -/
theorem killsFrom_markStopping (p : Process) (w : World) :
    KillsFrom p.markStopping w = KillsFrom p w := by
  funext k
  exact propext ⟨fun h => { h with }, fun h => { h with }⟩

namespace World

variable (env : Env) {S : Set ℕ} {P : KillCall → Prop}

theorem ages_tick (w : World) : Ages ∅ w.children (w.tick env).children :=
  Fold.foldl_rel (fun cs => Ages.refl cs) (fun _ _ _ h h' => h.trans h')
    (fun cs e => Ages.modify (fun ch => (OsChild.Ages.exit _ _ ch).mono (by simp)) cs) _ _

theorem length_tick (w : World) : (w.tick env).children.length = w.children.length :=
  Fold.foldl_invariant (I := fun cs : List OsChild => cs.length = w.children.length) rfl
    fun cs e _ h => by rw [List.length_modify, h]

theorem osStep_tick (w : World) : OsStep S P w (w.tick env) where
  processes := rfl
  nextId := rfl
  nextSpawnSequence := rfl
  reaper := rfl
  spawns := rfl
  length := length_tick env w
  children := (ages_tick env w).of_empty
  kills := .of_eq rfl
  receiver hr := (Bool.and_eq_true_iff.mp hr).1
  events := .refl _

theorem osStep_sleep (ns : ℕ) (w : World) : OsStep S P w (w.sleep env ns) :=
  { osStep_tick (P := P) env w with
    kills := .of_eq rfl
    events := .refl _ }

/-- Replacing one child by an aged one. -/
theorem osStep_modify {c : ℕ} {f : OsChild → OsChild} (hf : ∀ ch : OsChild, ch.Ages (c ∈ S) (f ch))
    (w : World) : OsStep S P w { w with children := w.children.modify c f } where
  processes := rfl
  nextId := rfl
  nextSpawnSequence := rfl
  reaper := rfl
  spawns := rfl
  length := List.length_modify ..
  children := Ages.modify hf w.children
  kills := .of_eq rfl
  receiver := fun h => h
  events := .refl _

theorem osStep_tryWait {c : ℕ} (hc : c ∈ S) (w : World) : OsStep S P w (w.tryWait env c) := by
  unfold tryWait
  cases w.waitResult env c with
  | running => exact osStep_tick env w
  | error => exact osStep_tick env w
  | exited s =>
    exact (osStep_tick env w).trans
      (osStep_modify (fun ch => (OsChild.Ages.reap ch).mono fun _ => hc) _)

theorem osStep_wait {c : ℕ} (hc : c ∈ S) (w : World) : OsStep S P w (w.wait env c) :=
  (osStep_tick env w).trans (osStep_modify (fun ch => ((OsChild.Ages.exit _ _ ch).mono
    (by simp)).trans ((OsChild.Ages.reap _).mono fun _ => hc)) _)

theorem osStep_kill {site : KillSite} {p : Process} {signal : Signal} {w : World}
    (hk : P ⟨site, p.id, p.pid, signal, p.child, w.killError env p.pid, (w.tick env).children⟩) :
    OsStep S P w (w.kill env site p signal) :=
  { osStep_tick (P := P) env w with kills := .cons _ hk }

theorem osStep_send (event : ProcessExitEvent) (w : World) : OsStep S P w (w.send env event) := by
  unfold send
  split_ifs
  · exact { osStep_tick (P := P) env w with
      kills := .of_eq rfl
      events := .cons _ trivial }
  · exact osStep_tick env w

/-! ### Time -/

theorem clock_le_tick (w : World) : w.clock ≤ (w.tick env).clock := Nat.le_add_right _ _

theorem le_clock_sleep (ns : ℕ) (w : World) : w.clock + ns ≤ (w.sleep env ns).clock :=
  Nat.add_le_add_right (clock_le_tick env w) ns

theorem clock_tryWait (c : ℕ) (w : World) : (w.tryWait env c).clock = (w.tick env).clock := by
  unfold tryWait
  cases w.waitResult env c <;> rfl

/-! ### Guards

No system call takes one. -/

@[simp] theorem tryWait_locks (c : ℕ) (w : World) : (w.tryWait env c).locks = w.locks := by
  unfold tryWait
  cases w.waitResult env c <;> rfl

@[simp] theorem send_locks (event : ProcessExitEvent) (w : World) :
    (w.send env event).locks = w.locks := by
  unfold send
  split_ifs <;> rfl

@[simp] theorem spawnProcess_locks (site : SpawnSite) (id : ProcessId) (config : ProcessConfig)
    (deps : List ProcessId) (w : World) :
    (w.spawnProcess env site id config deps).locks = w.locks := by
  unfold spawnProcess
  split
  · rfl
  · split_ifs <;> rfl

/-! ### Spawning -/

variable {env} {site : SpawnSite} {id : ProcessId} {config : ProcessConfig}
  {deps : List ProcessId} {w : World}

theorem osStep_spawnProcess {e : SpawnError} (h : w.spawnError env config = some e) :
    OsStep S P w (w.spawnProcess env site id config deps) := by
  unfold spawnError at h
  unfold spawnProcess
  split at h
  · exact osStep_tick env w
  · split_ifs at h with hfails
    simp only [hfails, ↓reduceIte]
    exact osStep_tick env w

/-- A successful spawn adds one child with a new pid and is logged. -/
theorem spawnProcess_of_ok (site : SpawnSite) (id : ProcessId) (deps : List ProcessId)
    (h : w.spawnError env config = none) :
    ∃ program, w.spawnProcess env site id config deps =
      { w.tick env with
        children := (w.tick env).children ++ [⟨w.nextPid env, .running⟩]
        spawns := ⟨site, id, w.nextChild, program, config, deps, w.processes⟩ :: w.spawns } := by
  unfold spawnError at h
  unfold spawnProcess
  split at h
  · cases h
  · next program _ =>
    split_ifs at h with hfails
    refine ⟨program, ?_⟩
    simp only [hfails, Bool.false_eq_true, ↓reduceIte]
    rfl

theorem nextPid_ne_zero (w : World) : w.nextPid env ≠ 0 := by
  unfold nextPid freePid
  split_ifs with h
  · exact h.1
  · omega

end World

/-- One successful spawn, logged, with the new child uncollected at the end of the list. -/
structure Spawned (env : Env) (site : SpawnSite) (id : ProcessId) (config : ProcessConfig)
    (deps : List ProcessId) (w w' : World) : Prop where
  processes : w'.processes = w.processes
  nextId : w'.nextId = w.nextId
  reaper : w'.reaper = w.reaper
  receiver : w'.receiverAlive = true → w.receiverAlive = true
  events : w'.events = w.events
  kills : w'.kills = w.kills
  length : w'.children.length = w.children.length + 1
  children : Ages ∅ w.children w'.children
  child : ∃ ch, w'.children[w.nextChild]? = some ch ∧ ch.pid = w.nextPid env ∧ ch.isReaped = false
  spawns : ∃ program, w'.spawns =
    ⟨site, id, w.nextChild, program, config, deps, w.processes⟩ :: w.spawns

namespace Spawned

variable {env : Env} {site : SpawnSite} {id : ProcessId} {config : ProcessConfig}
  {deps : List ProcessId} {w w' : World}

theorem of_ok (site : SpawnSite) (id : ProcessId) (deps : List ProcessId)
    (h : w.spawnError env config = none) :
    Spawned env site id config deps w (w.spawnProcess env site id config deps) := by
  obtain ⟨program, heq⟩ := World.spawnProcess_of_ok site id deps h
  have hlength : (w.tick env).children.length = w.children.length := w.length_tick env
  rw [heq]
  exact {
    processes := rfl
    nextId := rfl
    reaper := rfl
    receiver := fun hr => (Bool.and_eq_true_iff.mp hr).1
    events := rfl
    kills := rfl
    length := by simp [hlength]
    children := (w.ages_tick env).trans (.append _ _)
    child := ⟨⟨w.nextPid env, .running⟩, by simp [World.nextChild, ← hlength], rfl, rfl⟩
    spawns := ⟨program, rfl⟩ }

/-- Time passes after the spawn. -/
theorem tick (h : Spawned env site id config deps w w') :
    Spawned env site id config deps w (w'.tick env) := by
  obtain ⟨ch, hch, hpid, hr⟩ := h.child
  obtain ⟨ch', hch', hage⟩ := w'.ages_tick env _ ch hch
  refine { h with
    receiver := fun hr => h.receiver (Bool.and_eq_true_iff.mp hr).1
    length := (w'.length_tick env).trans h.length
    children := h.children.trans (w'.ages_tick env)
    child := ⟨ch', hch', hage.pid.trans hpid, ?_⟩ }
  by_contra hr'
  rcases hage.reaped (by simpa using hr') with h | h
  · simp [hr] at h
  · exact h

theorem tick_if (h : Spawned env site id config deps w w') (b : Bool) :
    Spawned env site id config deps w (if b then w'.tick env else w') := by
  cases b
  · exact h
  · exact h.tick

end Spawned

end ProcessManager
