import ProcessManager.Library.Pointwise
import ProcessManager.Process.Process

/-! Two worlds side by side. They have made the same calls at the same times, and their
entries and children are related one by one; each system call keeps this. -/

namespace ProcessManager

/-! ### Entries -/

/-- When the process was started and when its restart is due. -/
def RestartState.times (rs : RestartState) : Option Instant × Option Instant :=
  (rs.lastStartedAt, rs.nextEligibleRestart)

/-- The entries agree in all but their states and restart counters. -/
structure Process.Copy (p p' : Process) : Prop where
  id : p'.id = p.id
  pid : p'.pid = p.pid
  label : p'.label = p.label
  terminateOnExit : p'.terminateOnExit = p.terminateOnExit
  config : p'.config = p.config
  child : p'.child = p.child
  times : p'.restartState.map RestartState.times = p.restartState.map RestartState.times
  spawnSequence : p'.spawnSequence = p.spawnSequence
  cascadeFlag : p'.cascadeFlag = p.cascadeFlag
  resolvedDeps : p'.resolvedDeps = p.resolvedDeps
  waitingSince : p'.waitingSince = p.waitingSince

/-- The entries agree in all but their restart counters. -/
structure Process.Mirrors (p p' : Process) : Prop extends Process.Copy p p' where
  state : p'.state = p.state

namespace Process

variable {p p' : Process}

theorem Copy.refl (p : Process) : p.Copy p := ⟨rfl, rfl, rfl, rfl, rfl, rfl, rfl, rfl, rfl, rfl, rfl⟩

theorem Mirrors.refl (p : Process) : p.Mirrors p := ⟨.refl p, rfl⟩

theorem Copy.isSome (h : p.Copy p') : p'.restartState.isSome = p.restartState.isSome := by
  simpa only [Option.isSome_map] using congrArg Option.isSome h.times

theorem Copy.endEvent (h : p.Copy p') (id : ProcessId) (s : ProcessState) : p'.endEvent id s = p.endEvent id s := by
  rw [Process.endEvent, Process.endEvent, h.label, h.pid, h.config]

theorem Copy.times_map (h : p.Copy p') {f : RestartState → RestartState}
    {g : Option Instant × Option Instant → Option Instant × Option Instant} (hf : ∀ rs, (f rs).times = g rs.times) :
    (p'.restartState.map f).map RestartState.times = (p.restartState.map f).map RestartState.times := by
  have hcomp : RestartState.times ∘ f = g ∘ RestartState.times := funext hf
  rw [Option.map_map, Option.map_map, hcomp, ← Option.map_map, ← Option.map_map, h.times]

end Process

/-! ### Children -/

/-- An exit leaves related children related. -/
def OsChild.Stable (C : OsChild → OsChild → Prop) : Prop :=
  ∀ s t ch ch', C ch ch' → C (ch.exit s t) (ch'.exit s t)

theorem OsChild.stable_eq : OsChild.Stable Eq := fun _ _ _ _ h => by rw [h]

namespace World

variable {env : Env} {E F : ProcessId → Process → Process → Prop} {C D : OsChild → OsChild → Prop}
  {w w' : World} {id : ProcessId} {p p' : Process}

/-- The child `c` after the exits of the next tick. -/
def aged (env : Env) (w : World) (c : ℕ) (ch : OsChild) : OsChild :=
  (env.exits w.ticks).foldl (fun ch e =>
    if e.child = c then ch.exit e.status (w.clock + min e.delay (env.elapsed w.ticks)) else ch) ch

theorem tick_child (env : Env) (w : World) (c : ℕ) :
    (w.tick env).children[c]? = w.children[c]?.map (w.aged env c) := by
  have hfold : ∀ (es : List OsExit) (f : OsExit → OsChild → OsChild) (cs : List OsChild),
      (es.foldl (fun cs e => cs.modify e.child (f e)) cs)[c]? =
        cs[c]?.map fun ch => es.foldl (fun ch e => if e.child = c then f e ch else ch) ch := by
    intro es f
    induction es with
    | nil => exact fun cs => by simp
    | cons e es ih =>
      intro cs
      rw [List.foldl_cons, ih, List.getElem?_modify]
      cases cs[c]? with
      | none => rfl
      | some ch => by_cases he : e.child = c <;> simp [he]
  exact hfold _ _ _

theorem stable_aged (hC : OsChild.Stable C) (env : Env) (w : World) (c : ℕ) {ch ch' : OsChild} (h : C ch ch') :
    C (w.aged env c ch) (w.aged env c ch') := by
  refine List.foldl_rel (r := C) h fun e _ ch ch' h => ?_
  split_ifs
  · exact hC _ _ _ _ h
  · exact h

/-! ### Worlds -/

/-- The same calls at the same times, with the same results so far. -/
structure Alike (E : ProcessId → Process → Process → Prop) (C : OsChild → OsChild → Prop) (w w' : World) : Prop where
  processes : AssocMap.Pointwise E w.processes w'.processes
  nextId : w'.nextId = w.nextId
  nextSpawnSequence : w'.nextSpawnSequence = w.nextSpawnSequence
  reaper : w'.reaper = w.reaper
  receiverAlive : w'.receiverAlive = w.receiverAlive
  length : w'.children.length = w.children.length
  child : ∀ (c : ℕ) ch ch', w.children[c]? = some ch → w'.children[c]? = some ch' → C ch ch'
  clock : w'.clock = w.clock
  ticks : w'.ticks = w.ticks
  kills : w'.kills = w.kills
  events : w'.events = w.events

namespace Alike

theorem refl (hE : ∀ id p, E id p p) (hC : ∀ ch, C ch ch) (w : World) : Alike E C w w where
  processes := .refl hE _
  nextId := rfl
  nextSpawnSequence := rfl
  reaper := rfl
  receiverAlive := rfl
  length := rfl
  child _ ch _ hch hch' := Option.some.inj (hch.symm.trans hch') ▸ hC ch
  clock := rfl
  ticks := rfl
  kills := rfl
  events := rfl

/-- The relations may be weakened. -/
theorem mono (h : Alike E C w w') (hEF : ∀ id p p', w.processes.lookup id = some p →
    w'.processes.lookup id = some p' → E id p p' → F id p p') (hCD : ∀ (c : ℕ) ch ch', w.children[c]? = some ch →
      w'.children[c]? = some ch' → C ch ch' → D ch ch') : Alike F D w w' :=
  { h with
    processes := h.processes.mono_lookup hEF
    child := fun c ch ch' hch hch' => hCD c ch ch' hch hch' (h.child c ch ch' hch hch') }

theorem children_eq (h : Alike E Eq w w') : w'.children = w.children := by
  refine List.ext_getElem h.length fun c hc hc' => ?_
  exact (h.child c _ _ (List.getElem?_eq_getElem hc') (List.getElem?_eq_getElem hc)).symm

/-- Only the map counts. -/
theorem of_processes (h : Alike E C w w') (processes processes' : AssocMap ProcessId Process)
    (hF : AssocMap.Pointwise F processes processes') :
    Alike F C { w with processes := processes } { w' with processes := processes' } :=
  { h with processes := hF }

theorem lock (m m' : Guards.Mode) (id id' : ProcessId) (h : Alike E C w w') :
    Alike E C (w.lock m id) (w'.lock m' id') := { h with }

theorem unlock (m m' : Guards.Mode) (id id' : ProcessId) (h : Alike E C w w') :
    Alike E C (w.unlock m id) (w'.unlock m' id') := { h with }

theorem touch (m m' : Guards.Mode) (ids ids' : List ProcessId) (h : Alike E C w w') :
    Alike E C (w.touch m ids) (w'.touch m' ids') := { h with }

theorem put_of (h : Alike E C w w') (hother : ∀ k x y, k ≠ id → E k x y → F k x y) (hself : F id p p') :
    Alike F C (w.put id p) (w'.put id p') := h.of_processes _ _ (h.processes.replace_of hother hself)

theorem put (h : Alike E C w w') (hself : E id p p') : Alike E C (w.put id p) (w'.put id p') :=
  h.put_of (fun _ _ _ _ hE => hE) hself

theorem put_right (h : Alike E C w w') (hself : ∀ p, w.processes.lookup id = some p → E id p p') :
    Alike E C w (w'.put id p') := { h with processes := h.processes.replace_right hself }

theorem remove (h : Alike E C w w') (id : ProcessId) : Alike E C (w.remove id) (w'.remove id) :=
  h.of_processes _ _ (h.processes.erase id)

theorem insert (h : Alike E C w w') (env : Env) (hself : E id p p') :
    Alike E C (w.insert env id p) (w'.insert env id p') := by
  have hmap := (h.processes.insert hself).reorder (env.rank w.ticks)
  have hrank : env.rank w'.ticks = env.rank w.ticks := by rw [h.ticks]
  exact h.of_processes _ _ (hrank.symm ▸ hmap)

/-! ### System calls -/

theorem aged (h : Alike E C w w') (env : Env) : w'.aged env = w.aged env := by
  unfold World.aged
  rw [h.ticks, h.clock]

theorem tick (h : Alike E C w w') (hC : OsChild.Stable C) (env : Env) : Alike E C (w.tick env) (w'.tick env) where
  processes := h.processes
  nextId := h.nextId
  nextSpawnSequence := h.nextSpawnSequence
  reaper := h.reaper
  receiverAlive := by simp only [World.tick, h.receiverAlive, h.ticks]
  length := by rw [length_tick, length_tick, h.length]
  child c ch ch' hch hch' := by
    rw [tick_child] at hch hch'
    obtain ⟨ch₀, hch₀, rfl⟩ := Option.map_eq_some_iff.mp hch
    obtain ⟨ch₁, hch₁, rfl⟩ := Option.map_eq_some_iff.mp hch'
    rw [h.aged env]
    exact stable_aged hC env w c (h.child c ch₀ ch₁ hch₀ hch₁)
  clock := by simp only [World.tick, h.clock, h.ticks]
  ticks := congrArg (· + 1) h.ticks
  kills := h.kills
  events := h.events

theorem sleep (h : Alike E C w w') (hC : OsChild.Stable C) (env : Env) (ns : ℕ) :
    Alike E C (w.sleep env ns) (w'.sleep env ns) :=
  { h.tick hC env with clock := congrArg (· + ns) (h.tick hC env).clock }

theorem sendOk (h : Alike E C w w') (env : Env) : w'.sendOk env = w.sendOk env := by
  simp only [World.sendOk, World.tick, h.receiverAlive, h.ticks]

theorem send (h : Alike E C w w') (hC : OsChild.Stable C) (env : Env) (event : ProcessExitEvent) :
    Alike E C (w.send env event) (w'.send env event) := by
  have htick := h.tick hC env
  simp only [World.send, h.sendOk env]
  split_ifs
  · exact { htick with events := congrArg (event :: ·) htick.events }
  · exact htick

/-- Signals have the same effect where the children agree. -/
theorem kill (h : Alike E Eq w w') (env : Env) (site : KillSite) (signal : Signal) (hp : p.Copy p') :
    Alike E Eq (w.kill env site p signal) (w'.kill env site p' signal) := by
  have htick := h.tick OsChild.stable_eq env
  have herror : w'.killError env p'.pid = w.killError env p.pid := by
    rw [World.killError, World.killError, htick.children_eq, hp.pid, h.ticks]
  refine { htick with kills := ?_ }
  have hcall : (⟨site, p'.id, p'.pid, signal, p'.child, w'.killError env p'.pid, (w'.tick env).children⟩ : KillCall) =
      ⟨site, p.id, p.pid, signal, p.child, w.killError env p.pid, (w.tick env).children⟩ := by
    rw [herror, hp.id, hp.pid, hp.child, htick.children_eq]
  exact congrArg₂ List.cons hcall htick.kills

theorem wait (h : Alike E Eq w w') (env : Env) (c : ℕ) : Alike E Eq (w.wait env c) (w'.wait env c) := by
  have htick := h.tick OsChild.stable_eq env
  have hchildren : (w'.wait env c).children = (w.wait env c).children := by
    simp only [World.wait, htick.children_eq, htick.clock, h.ticks]
  refine { htick with length := by rw [hchildren], child := fun k ch ch' hch hch' => ?_ }
  rw [hchildren] at hch'
  exact Option.some.inj (hch.symm.trans hch')

theorem spawnError (h : Alike E C w w') (env : Env) (config : ProcessConfig) :
    w'.spawnError env config = w.spawnError env config := by
  rw [World.spawnError, World.spawnError, h.ticks]

theorem nextPid (h : Alike E Eq w w') (env : Env) : w'.nextPid env = w.nextPid env := by
  rw [World.nextPid, World.nextPid, (h.tick OsChild.stable_eq env).children_eq, h.ticks]

theorem nextChild (h : Alike E C w w') : w'.nextChild = w.nextChild := h.length

/-- A spawn adds the same child to both. -/
theorem spawnProcess (h : Alike E C w w') (hC : OsChild.Stable C) (hrefl : ∀ ch, C ch ch) (env : Env) (site : SpawnSite)
    (id : ProcessId) (config : ProcessConfig) (deps : List ProcessId)
    (hpid : w'.nextPid env = w.nextPid env) :
    Alike E C (w.spawnProcess env site id config deps) (w'.spawnProcess env site id config deps) := by
  have htick := h.tick hC env
  simp only [World.spawnProcess, h.ticks, hpid]
  split
  · exact htick
  · split_ifs
    · exact htick
    · refine { htick with length := ?_, child := fun c ch ch' hch hch' => ?_ }
      · rw [List.length_append, List.length_append, htick.length]
      · rw [List.getElem?_append] at hch hch'
        rw [htick.length] at hch'
        split_ifs at hch hch'
        · exact htick.child c ch ch' hch hch'
        · exact Option.some.inj (hch.symm.trans hch') ▸ hrefl ch

/-! ### Polling -/

/-- Where the child is the same, `try_wait` finds the same. -/
theorem waitResult (h : Alike E C w w') (env : Env) {c : ℕ} (hchild : w'.children[c]? = w.children[c]?) :
    w'.waitResult env c = w.waitResult env c := by
  unfold World.waitResult
  rw [tick_child, tick_child, hchild, h.aged env, h.ticks]

/-- Where the children agree, they agree after the next tick. -/
theorem tick_child_eq (h : Alike E C w w') (env : Env) {c : ℕ} (hc : w'.children[c]? = w.children[c]?) :
    (w'.tick env).children[c]? = (w.tick env).children[c]? := by
  rw [tick_child, tick_child, hc, h.aged env]

theorem tryWait_child_eq (h : Alike E C w w') {c k : ℕ} (hresult : w'.waitResult env c = w.waitResult env c)
    (hk : w'.children[k]? = w.children[k]?) : (w'.tryWait env c).children[k]? = (w.tryWait env c).children[k]? := by
  have htick := h.tick_child_eq env hk
  unfold World.tryWait
  rw [hresult]
  cases w.waitResult env c with
  | running => exact htick
  | error => exact htick
  | exited status => simp only [List.getElem?_modify, htick]

theorem tryWait (h : Alike E C w w') (hC : OsChild.Stable C) (hreap : ∀ ch ch', C ch ch' → C ch.reap ch'.reap)
    (env : Env) {c : ℕ} (hresult : w'.waitResult env c = w.waitResult env c) :
    Alike E C (w.tryWait env c) (w'.tryWait env c) := by
  have htick := h.tick hC env
  unfold World.tryWait
  rw [hresult]
  cases w.waitResult env c with
  | running => exact htick
  | error => exact htick
  | exited status =>
    refine { htick with length := ?_, child := fun k ch ch' hch hch' => ?_ }
    · simp only [List.length_modify, htick.length]
    · rw [List.getElem?_modify] at hch hch'
      obtain ⟨ch₀, hch₀, rfl⟩ := Option.map_eq_some_iff.mp hch
      obtain ⟨ch₁, hch₁, rfl⟩ := Option.map_eq_some_iff.mp hch'
      have hrelated := htick.child k ch₀ ch₁ hch₀ hch₁
      split_ifs
      · exact hreap ch₀ ch₁ hrelated
      · exact hrelated

/-- Polling two entries that both look at the same child, or both at none, gives them one state,
and no child changes in one world only. -/
theorem pollState (h : Alike E C w w') (hC : OsChild.Stable C) (hreap : ∀ ch ch', C ch ch' → C ch.reap ch'.reap)
    (env : Env) (hchild : p'.child = p.child) (hstate : p'.state = p.state ∨
      (p.state = .starting ∨ p.state = .running) ∧ (p'.state = .starting ∨ p'.state = .running))
    (hsame : ∀ c, p.child = some c → w'.children[c]? = w.children[c]?) :
    ∃ s, (p.pollState env w).1 = { p with state := s } ∧ (p'.pollState env w').1 = { p' with state := s } ∧
      Alike E C (p.pollState env w).2 (p'.pollState env w').2 ∧ ∀ k : ℕ, w'.children[k]? = w.children[k]? →
        (p'.pollState env w').2.children[k]? = (p.pollState env w).2.children[k]? := by
  by_cases hactive : p.state = .starting ∨ p.state = .running
  · have hactive' : p'.state = .starting ∨ p'.state = .running :=
      hstate.elim (fun heq => heq ▸ hactive) fun hboth => hboth.2
    rcases Option.eq_none_or_eq_some p.child with hc | ⟨c, hc⟩
    · rw [Process.pollState_of_no_child hactive hc, Process.pollState_of_no_child hactive' (hchild.trans hc)]
      exact ⟨.stopped, rfl, rfl, h, fun _ hk => hk⟩
    · have hresult := h.waitResult env (hsame c hc)
      rw [Process.pollState_of_child hactive hc, Process.pollState_of_child hactive' (hchild.trans hc)]
      exact ⟨(w.waitResult env c).state, rfl, by rw [hresult], h.tryWait hC hreap env hresult,
        fun k hk => h.tryWait_child_eq hresult hk⟩
  · obtain heq | hboth := hstate
    · rw [not_or] at hactive
      rw [Process.pollState_of_settled hactive.1 hactive.2,
        Process.pollState_of_settled (heq ▸ hactive.1) (heq ▸ hactive.2)]
      exact ⟨p.state, rfl, by rw [← heq], h, fun _ hk => hk⟩
    · exact absurd hboth.1 hactive

end Alike

end World

end ProcessManager
