import ProcessManager.System.Bindings
import ProcessManager.System.Blocking
import ProcessManager.System.StalePids

/-! Bound ids over whole runs. The calls of the manager bind ids to new processes only,
except that `restart` outside `Restarting` replaces the entry by one without bound ids. -/

namespace ProcessManager

variable {env : Env} {pollInterval : ℕ} {names : ProcessId → Label → Prop}
  {w w' w'' : World} {id : ProcessId} {p p' : Process}

namespace World

/-- Every entry is new, or it was there before and keeps its bindings. -/
def Inherits (names : ProcessId → Label → Prop) (w w' : World) : Prop :=
  w.nextId ≤ w'.nextId ∧ ∀ i p', w'.processes.lookup i = some p' →
    (w.nextId ≤ i.raw ∧ p'.IdsBound) ∨ ∃ p, w.processes.lookup i = some p ∧ p.Keeps names p'

namespace Inherits

theorem of_carries (h : Carries names w w') (hn : w.nextId ≤ w'.nextId) : Inherits names w w' :=
  ⟨hn, fun i p' hp' => .inr (h i p' hp')⟩

theorem trans (h : Inherits names w w') (h' : Inherits names w' w'') : Inherits names w w'' := by
  refine ⟨h.1.trans h'.1, fun i p'' hp'' => ?_⟩
  obtain ⟨hfresh, hids⟩ | ⟨p', hp', hkeeps'⟩ := h'.2 i p'' hp''
  · exact .inl ⟨h.1.trans hfresh, hids⟩
  · obtain ⟨hfresh, hids⟩ | ⟨p, hp, hkeeps⟩ := h.2 i p' hp'
    · exact .inl ⟨hfresh, hkeeps'.ids hids⟩
    · exact .inr ⟨p, hp, hkeeps.trans hkeeps'⟩

theorem of_mapStep {R : ProcessId → Process → Process → Prop} {S : Set ℕ} {P : KillCall → Prop}
    (h : MapStep R S P w w') (hR : ∀ i q q', R i q q' → q.Keeps names q') : Inherits names w w' :=
  of_carries (.of_refines h.processes hR) h.nextId.ge

theorem of_osStep {S : Set ℕ} {P : KillCall → Prop} (h : OsStep S P w w') : Inherits names w w' :=
  of_carries (.of_processes h.processes) h.nextId.ge

/-- A new entry, or one that replaces an entry with the same bindings. -/
theorem insert (h : Inherits names w w')
    (hp : (w.nextId ≤ id.raw ∧ p'.IdsBound) ∨ ∃ p, w.processes.lookup id = some p ∧ p.Keeps names p') :
    Inherits names w (w'.insert env id p') := by
  refine ⟨h.1, fun i q hq => ?_⟩
  rw [insert_processes, AssocMap.lookup_reorder, AssocMap.lookup_insert_eq] at hq
  split_ifs at hq with hi
  · cases hq
    exact hi ▸ hp
  · exact h.2 i q hq

end Inherits

theorem inherits_markStartedEntry (id : ProcessId) (w : World) :
    Inherits names w (w.markStartedEntry env id) := by
  refine .of_mapStep (P := fun _ => True) (mapStep_markStartedEntry id w) ?_
  rintro i q q' (rfl | ⟨rs, now, _, rfl⟩)
  · exact .refl q'
  · exact .of_eq rfl rfl rfl

theorem inherits_spawned {site : SpawnSite} {config : ProcessConfig} {deps : List ProcessId}
    (h : Spawned env site id config deps w w') : Inherits names w w' :=
  .of_carries (.of_processes h.processes) h.nextId.ge

/-- Spawn and insert, as `start` and `restart` do it. -/
theorem inherits_insert {site : SpawnSite} {config : ProcessConfig} {deps : List ProcessId}
    (h : Inherits names w w') (hok : w'.spawnError env config = none)
    (hp : (w.nextId ≤ id.raw ∧ p'.IdsBound) ∨ ∃ p, w.processes.lookup id = some p ∧ p.Keeps names p') :
    Inherits names w (((w'.spawnProcess env site id config deps).bumpSequence.insert env id
      p').markStartedEntry env id) := by
  have hspawned : Inherits names w (w'.spawnProcess env site id config deps) :=
    h.trans (inherits_spawned (.of_ok site id deps hok))
  have hbump : Inherits names w (w'.spawnProcess env site id config deps).bumpSequence := hspawned
  exact (hbump.insert hp).trans (inherits_markStartedEntry _ _)

/-! ### Starts and restarts -/

theorem inherits_allDepsRunning (deps : List ProcessId) (w : World) :
    Inherits names w (w.allDepsRunning env deps).2 :=
  .of_mapStep (mapStep_allDepsRunning env (P := fun _ => True) deps w) fun _ _ _ => .of_polled

theorem inherits_start (label : Label) (config : ProcessConfig) (w : World) :
    Inherits names w (w.start env label config).2 := by
  have hnext : Inherits names w { w with nextId := w.nextId + 1 } :=
    .of_carries (.of_processes rfl) (Nat.le_succ _)
  obtain heq | heq | ⟨w₁, rfl, resolved, rfl, hcases⟩ := start_cases env label config w
  · rw [heq]
    exact .of_carries (.refl w) le_rfl
  · rw [heq]
    exact hnext
  · have hids := idsBound_resolved w.processes config.dependsOn
    set resolved := resolvedOrDefault w.processes config.dependsOn
    set w₁ : World := { w with nextId := w.nextId + 1 }
    have hpolled : Inherits names w (w₁.allDepsRunning env resolved).2 :=
      hnext.trans (inherits_allDepsRunning resolved w₁)
    obtain ⟨_, _, heq⟩ | heq | heq := hcases <;> rw [heq]
    · simp only [startNow]
      split
      · next e he =>
        exact hpolled.trans (.of_osStep (osStep_spawnProcess (S := ∅) (P := fun _ => True) he))
      · next hok => exact inherits_insert hpolled hok (.inl ⟨le_rfl, hids⟩)
    · exact Inherits.insert hpolled (.inl ⟨le_rfl, hids⟩)
    · exact Inherits.insert hnext (.inl ⟨le_rfl, hids⟩)

theorem inherits_stop (id : ProcessId) (w : World) : Inherits names w (w.stop env id).2 :=
  .of_mapStep (mapStep_stop env id w) fun _ _ _ => .of_kept

/-- The process has bound ids and does not wait for the end of a backoff, so that `restart`
replaces its entry. -/
def RestartForgets (id : ProcessId) (w : World) : Prop :=
  ∃ p, w.processes.lookup id = some p ∧ p.state ≠ .restarting ∧ p.resolvedDeps ≠ []

theorem inherits_restartInPlace (hp : w.processes.lookup id = some p) :
    Inherits names w (w.restartInPlace env id p).2 := by
  obtain ⟨w₁, hstep, heq⟩ := restartReset_eq (P := fun _ => True) env hp
  have hreset : Inherits names w (w.restartReset env id) := by
    rw [heq]
    exact .of_carries (.put_lookup hp hstep.processes (.of_eq rfl rfl rfl)) hstep.nextId.ge
  simp only [restartInPlace]
  split
  · next e he => exact hreset.trans (.of_osStep (osStep_spawnProcess (S := ∅) (P := fun _ => True) he))
  · next hok =>
    set w₂ := (World.spawnProcess env .restart id p.config p.resolvedDeps
      (w.restartReset env id)).bumpSequence
    have hspawned : Inherits names (w.restartReset env id) w₂ :=
      inherits_spawned { Spawned.of_ok .restart id p.resolvedDeps hok with }
    refine hreset.trans (hspawned.trans ?_)
    unfold restartStore
    split
    · exact .of_carries (.refl _) le_rfl
    · next q hq =>
      split_ifs <;> exact .of_carries (.put_lookup hq rfl (.of_eq rfl rfl rfl)) le_rfl

theorem inherits_restart (h : ¬ RestartForgets id w) : Inherits names w (w.restart env id).2 := by
  obtain ⟨_, heq⟩ | ⟨p, hp, ⟨_, heq⟩ | ⟨hstate, heq | heq⟩⟩ := restart_cases env id w <;> rw [heq]
  · exact .of_carries (.refl w) le_rfl
  · exact inherits_restartInPlace hp
  · exact inherits_stop id w
  · have hempty : p.resolvedDeps = [] := by
      by_contra hne
      exact h ⟨p, hp, hstate, hne⟩
    simp only [restartInsert]
    split
    · next e he =>
      exact (inherits_stop id w).trans (.of_osStep (osStep_spawnProcess (S := ∅) (P := fun _ => True) he))
    · next hok =>
      exact inherits_insert (inherits_stop id w) hok (.inr ⟨p, hp, .of_eq rfl rfl hempty.symm⟩)

end World

/-! ### Runs -/

/-- A system with the labels that its ids have had so far. -/
structure Chronicle where
  system : System
  names : ProcessId → Label → Prop

namespace Chronicle

variable (env pollInterval)

/-- The labels of the tracked ids. -/
def labels (w : World) (i : ProcessId) (l : Label) : Prop := ∃ p, w.processes.lookup i = some p ∧ p.label = l

def start (s : System) : Chronicle := ⟨s, labels s.world⟩

def step (c : Chronicle) (a : Action) : Chronicle where
  system := c.system.step env pollInterval a
  names i l := c.names i l ∨ labels (c.system.step env pollInterval a).world i l

/-- After the action every process that is still tracked has the bound ids it had before,
and no other id of a label that was bound. -/
def BindingsPersist (c : Chronicle) (a : Action) : Prop :=
  ∀ id p p', c.system.world.processes.lookup id = some p →
    (c.system.step env pollInterval a).world.processes.lookup id = some p' →
      p.resolvedDeps ⊆ p'.resolvedDeps ∧
        ∀ l, .label l ∈ p.config.dependsOn → ∀ i ∈ p.resolvedDeps, c.names i l →
          ∀ j ∈ p'.resolvedDeps, (c.step env pollInterval a).names j l → j ∈ p.resolvedDeps

/-- No `restart` outside `Restarting` meets a process with bound ids, and in a pass the processes
that are bound still stand for the dependencies of whatever is restarted, and no search of Phase 5
finds another process for a label whose bound process is gone. -/
def KeepsBindings (c : Chronicle) : Action → Prop
  | .restart id => ¬ World.RestartForgets id c.system.world
  | .restartLabel label => World.RestartsMeet env (fun id w => ¬ World.RestartForgets id w)
      (c.system.world.labelMembers label) c.system.world
  | .pass => c.system.world.reaper = .running → World.PassKeeps env pollInterval c.names c.system.world
  | _ => True

variable {env pollInterval} {c : Chronicle} {a : Action}

/-- What is known of the labels and the bound ids in every state of a run. -/
structure Known (c : Chronicle) : Prop where
  sound : Sound c.system.world
  bounded : ∀ i l, c.names i l → i.raw < c.system.world.nextId
  agrees : World.Agrees c.names c.system.world.processes
  tracked : ∀ i l, labels c.system.world i l → c.names i l
  ids : World.AllIdsBound c.system.world.processes

/-- A call of the manager, whatever the labels are. -/
theorem inherits_step (ha : a ≠ .pass) (hs : Sound c.system.world) (h : c.KeepsBindings env pollInterval a) :
    World.Inherits names c.system.world (c.system.step env pollInterval a).world := by
  have hos : ∀ {w w' : World}, OsStep ∅ (fun _ => True) w w' → World.Inherits names w w' :=
    World.Inherits.of_osStep
  have hbatch : ∀ ids, World.Inherits names c.system.world (c.system.world.stopMany env ids).2 := by
    refine fun ids => .of_mapStep (World.mapStep_stopMany hs.key ids) ?_
    rintro i q q' (⟨_, rfl⟩ | ⟨_, rfl, _⟩)
    · exact .refl q'
    · exact .of_eq rfl rfl rfl
  cases a with
  | start label config => exact World.inherits_start label config c.system.world
  | startWithDeps label config =>
    have hstart : World.Inherits names c.system.world (c.system.world.startWithDeps env label config).2 :=
      (World.inherits_start label config c.system.world).trans
        (hos (World.startWithDeps_world label config c.system.world))
    simp only [System.step]
    split <;> exact hstart
  | depsPoll n =>
    simp only [System.step]
    split
    · exact .of_carries (.refl _) le_rfl
    · next d hd =>
      refine .of_mapStep (World.mapStep_depsPoll (P := fun _ => True) d.id d.config d.deadline _) ?_
      rintro i q q' (rfl | rfl)
      · exact .refl q'
      · exact .of_eq rfl rfl rfl
  | stop id => exact World.inherits_stop id c.system.world
  | stopLabel label => exact hbatch _
  | stopAll => exact hbatch _
  | stopTerminateOnExit => exact hbatch _
  | restart id => exact World.inherits_restart h
  | restartLabel label =>
    exact World.restartAll_invariant (I := World.Inherits names c.system.world)
      (fun _ _ hw hforgets => hw.trans (World.inherits_restart hforgets)) _ _
      (.of_carries (.refl _) le_rfl) h
  | sendSignal id signal => exact hos (World.osStep_sendSignal id signal c.system.world)
  | sendSignalLabel label signal =>
    exact Fold.foldl_invariant (I := World.Inherits names c.system.world) (.of_carries (.refl _) le_rfl)
      fun w i _ hw => hw.trans (hos (World.osStep_sendSignal i signal w))
  | query id => exact .of_mapStep (World.mapStep_query (P := fun _ => True) id _) fun _ _ _ => .of_polled
  | pass => exact absurd rfl ha

theorem inherits_pass (hknown : c.Known) (h : c.KeepsBindings env pollInterval .pass) :
    World.Carries c.names c.system.world (c.system.step env pollInterval .pass).world ∧
      c.system.world.nextId ≤ (c.system.step env pollInterval .pass).world.nextId := by
  refine ⟨World.ifRunning_invariant (.refl _) fun hr =>
      World.carries_reaperPass hknown.sound.key hknown.agrees hknown.ids (h hr),
    World.ifRunning_invariant (I := fun w => c.system.world.nextId ≤ w.nextId) le_rfl fun _ => ?_⟩
  have h3 : c.system.world.nextId ≤ (c.system.world.afterPhase3 env pollInterval).nextId :=
    ((World.keepStep_afterPhase3 env pollInterval _).nextId.trans
      (World.keepStep_awakeDetect env pollInterval _).nextId).ge
  exact (World.moves_afterPhase3 (C := fun _ _ _ => True) pollInterval c.system.world).invariant
    (I := fun w => c.system.world.nextId ≤ w.nextId)
    (fun _ _ hw hmove => hw.trans (World.nextId_move hmove)) h3

theorem known_of_inherits (hknown : c.Known)
    (h : World.Inherits c.names c.system.world (c.system.step env pollInterval a).world) :
    (c.step env pollInterval a).Known := by
  obtain ⟨hn, hmap⟩ := h
  have hsound := System.sound_step env pollInterval c.system a hknown.sound
  refine ⟨hsound, ?_, ?_, fun i l hl => .inr hl, fun i q' hq' => ?_⟩
  · rintro i l (hil | ⟨q, hq, _⟩)
    · exact (hknown.bounded i l hil).trans_le hn
    · exact hsound.below i q hq
  · rintro i q' l hq' (hil | ⟨q, hq, rfl⟩)
    · obtain ⟨hfresh, _⟩ | ⟨q, hq, hkeeps⟩ := hmap i q' hq'
      · exact absurd (hknown.bounded i l hil) (by omega)
      · exact hkeeps.label.trans (hknown.agrees i q l hq hil)
    · exact congrArg Process.label (Option.some.inj (hq'.symm.trans hq))
  · obtain ⟨_, hids⟩ | ⟨q, hq, hkeeps⟩ := hmap i q' hq'
    · exact hids
    · exact hkeeps.ids (hknown.ids i q hq)

theorem known_step (hknown : c.Known) (h : c.KeepsBindings env pollInterval a) :
    (c.step env pollInterval a).Known := by
  by_cases ha : a = .pass
  · subst ha
    obtain ⟨hcarries, hn⟩ := inherits_pass hknown h
    exact known_of_inherits hknown (.of_carries hcarries hn)
  · exact known_of_inherits hknown (inherits_step ha hknown.sound h)

theorem bindingsPersist_step (hknown : c.Known) (h : c.KeepsBindings env pollInterval a) :
    c.BindingsPersist env pollInterval a := by
  intro id p p' hp hp'
  by_cases ha : a = .pass
  · subst ha
    obtain ⟨hcarries, _⟩ := inherits_pass hknown h
    obtain ⟨q, hq, hkeeps⟩ := hcarries id p' hp'
    obtain rfl : p = q := Option.some.inj (hp.symm.trans hq)
    refine ⟨hkeeps.kept, fun l hl i hi hil j hj hjl => hkeeps.unique l hl i hi hil j hj ?_⟩
    -- a pass starts no process, so the label was known before
    obtain hjl | ⟨r', hr', rfl⟩ := hjl
    · exact hjl
    · obtain ⟨r, hr, hkeeps'⟩ := hcarries j r' hr'
      exact hknown.tracked j _ ⟨r, hr, hkeeps'.label.symm⟩
  · have hinherits : World.Inherits (c.step env pollInterval a).names c.system.world
        (c.system.step env pollInterval a).world := inherits_step ha hknown.sound h
    obtain ⟨hn, hmap⟩ := hinherits
    obtain ⟨hfresh, _⟩ | ⟨q, hq, hkeeps⟩ := hmap id p' hp'
    · exact absurd (hknown.sound.below id p hp) (by omega)
    · obtain rfl : p = q := Option.some.inj (hp.symm.trans hq)
      exact ⟨hkeeps.kept, fun l hl i hi hil j hj hjl => hkeeps.unique l hl i hi (.inl hil) j hj hjl⟩

/-- A run in which no restart forgets or rebinds, and Phase 5 never replaces a process that
is gone, keeps every binding. -/
theorem bindings_persist (env : Env) (pollInterval : ℕ) {s : System} (hs : s.Initial)
    (actions : List Action)
    (h : Fold.Meets (KeepsBindings env pollInterval) (step env pollInterval) actions (start s)) :
    Fold.Meets (BindingsPersist env pollInterval) (step env pollInterval) actions (start s) := by
  refine Fold.meets_of_invariant (I := Known) (fun _ _ => bindingsPersist_step) (fun _ _ => known_step)
    actions (start s) ?_ h
  have hsound : Sound s.world := System.sound_run env pollInterval hs []
  have hempty : ∀ i, s.world.processes.lookup i = none := by
    rcases hs with rfl | rfl <;> simp [System.new, System.withReaper, World.new, World.withReaper]
  refine ⟨hsound, ?_, ?_, fun i l h => h, fun i q hq => ?_⟩
  · rintro i l ⟨q, hq, _⟩
    exact hsound.below i q hq
  · rintro i q l hq -
    cases (hempty i).symm.trans hq
  · cases (hempty i).symm.trans hq

/-! ### A process and the one it waits for -/

def db : ProcessConfig := { command := "/bin/db", restartOnExit := true, restartPolicy := System.oneMinute }

def web : ProcessConfig := { command := "/bin/web", dependsOn := [.label ⟨"db"⟩], restartOnExit := true }

def webStarts : List Action := [.start ⟨"db"⟩ db, .pass, .start ⟨"web"⟩ web]

/-- `web` crashes while `db` is `Running`, and is restarted with the same binding. -/
def webCrashes : Env := .exitsAt [(9, ⟨1, .code 1, 0⟩)]

theorem bindings_persist_webCrashes :
    Fold.Meets (BindingsPersist webCrashes 0) (step webCrashes 0) (webStarts ++ [.pass])
        (start System.withReaper) ∧
      ((System.withReaper.run webCrashes 0 (webStarts ++ [.pass])).world.processes.lookup ⟨2⟩).map
        (fun p => (p.child, p.resolvedDeps)) = some (some 2, [⟨1⟩]) := by
  have hpass : ∀ c : Chronicle,
      World.RestartsKeep webCrashes (c.system.world.passDetect webCrashes 0).1
        (c.system.world.afterPhase3 webCrashes 0) →
      (c.system.world.beforePhase5 webCrashes 0).waitingIds = [] → c.KeepsBindings webCrashes 0 .pass :=
    fun c hrestarts hwaiting _ => ⟨fun _ => hrestarts, fun _ i hi => absurd (hwaiting ▸ hi) List.not_mem_nil⟩
  refine ⟨bindings_persist webCrashes 0 (.inr rfl) _
    ⟨trivial, hpass _ ?_ ?_, trivial, hpass _ ?_ ?_, trivial⟩, ?_⟩ <;> decide +kernel

/-- A second `db` comes first in the map. -/
def secondDb : List Action := webStarts ++ [.start ⟨"db"⟩ db]

/-- `web` crashes while both are running. -/
def webRebound : Env := { Env.exitsAt [(12, ⟨1, .code 1, 0⟩)] with rank := fun _ id => 3 - id.raw }

/-- Waits for two processes, of which only the first is ever started. -/
def webAndCache : ProcessConfig :=
  { command := "/bin/web", dependsOn := [.label ⟨"db"⟩, .label ⟨"cache"⟩] }

def dbReplaced : List Action :=
  [.start ⟨"db"⟩ db, .pass, .start ⟨"web"⟩ webAndCache, .pass, .start ⟨"db"⟩ db, .stop ⟨1⟩]

/-- The bound `db` was stopped, another one runs, and `web` still waits. -/
def dbGone : Chronicle := dbReplaced.foldl (step .calm 0) (start System.withReaper)

theorem names_foldl {i : ProcessId} {l : Label} (actions : List Action) (h : c.names i l) :
    (actions.foldl (step env pollInterval) c).names i l :=
  Fold.foldl_invariant (I := fun c : Chronicle => c.names i l) h fun _ _ _ h => .inl h

/-- `restart` forgets the binding; an automatic restart, in a pass that does not block, binds the
process that comes first in the map instead; and Phase 5 binds another process when the bound one
is gone. -/
theorem not_bindings_persist :
    ¬ Fold.Meets (BindingsPersist .calm 0) (step .calm 0) (webStarts ++ [.restart ⟨2⟩])
        (start System.withReaper) ∧
      (Guards.NoSelfBlock ProcessId.raw (System.passLog webRebound 0 (System.withReaper.run webRebound 0 secondDb).world) ∧
        ¬ Fold.Meets (BindingsPersist webRebound 0) (step webRebound 0) (secondDb ++ [.pass])
          (start System.withReaper)) ∧
      ¬ Fold.Meets (BindingsPersist .calm 0) (step .calm 0) (dbReplaced ++ [.pass])
        (start System.withReaper) := by
  have hentry : ∀ {w : World} {deps : List ProcessId},
      (w.processes.lookup ⟨2⟩).map Process.resolvedDeps = some deps →
        ∃ p, w.processes.lookup ⟨2⟩ = some p ∧ p.resolvedDeps = deps := Option.map_eq_some_iff.mp
  have hlost : ∀ (env : Env) (c : Chronicle) (a : Action) (deps : List ProcessId), ⟨1⟩ ∉ deps →
      (c.system.world.processes.lookup ⟨2⟩).map Process.resolvedDeps = some [⟨1⟩] →
      ((c.system.step env 0 a).world.processes.lookup ⟨2⟩).map Process.resolvedDeps = some deps →
        ¬ c.BindingsPersist env 0 a := by
    intro env c a deps hdeps₀ hbefore hafter hpersist
    obtain ⟨p, hp, hdeps⟩ := hentry hbefore
    obtain ⟨p', hp', hdeps'⟩ := hentry hafter
    have hkept := (hpersist ⟨2⟩ p p' hp hp').1
    rw [hdeps, hdeps'] at hkept
    exact hdeps₀ (hkept (List.mem_singleton_self _))
  refine ⟨fun h => ?_, ⟨by decide +kernel, fun h => ?_⟩, fun h => ?_⟩ <;> have hlast := Fold.Meets.last h
  · exact hlost _ _ _ [] List.not_mem_nil (by decide +kernel) (by decide +kernel) hlast
  · exact hlost _ _ _ [⟨3⟩] (by decide) (by decide +kernel) (by decide +kernel) hlast
  have hpersist : dbGone.BindingsPersist .calm 0 .pass := hlast
  have hwaits : (dbGone.system.world.processes.lookup ⟨2⟩).map (fun p => (p.resolvedDeps, p.config.dependsOn)) =
      some ([⟨1⟩], [.label ⟨"db"⟩, .label ⟨"cache"⟩]) := by decide +kernel
  have hbound : ((dbGone.system.step .calm 0 .pass).world.processes.lookup ⟨2⟩).map Process.resolvedDeps =
      some [⟨1⟩, ⟨3⟩] := by decide +kernel
  have hfirst : ((System.withReaper.step .calm 0 (.start ⟨"db"⟩ db)).world.processes.lookup ⟨1⟩).map
      Process.label = some ⟨"db"⟩ := by decide +kernel
  have hsecond : ((dbGone.system.step .calm 0 .pass).world.processes.lookup ⟨3⟩).map Process.label =
      some ⟨"db"⟩ := by decide +kernel
  obtain ⟨p, hp, heq⟩ := Option.map_eq_some_iff.mp hwaits
  obtain ⟨hdeps, hconfig⟩ := Prod.mk.inj heq
  obtain ⟨p', hp', hdeps'⟩ := hentry hbound
  have hnamed : ((start System.withReaper).step .calm 0 (.start ⟨"db"⟩ db)).names ⟨1⟩ ⟨"db"⟩ :=
    .inr (Option.map_eq_some_iff.mp hfirst)
  have hold : dbGone.names ⟨1⟩ ⟨"db"⟩ := by
    rw [dbGone, dbReplaced, List.foldl_cons]
    exact names_foldl _ hnamed
  have hmem := (hpersist ⟨2⟩ p p' hp hp').2 ⟨"db"⟩ (by simp [hconfig]) ⟨1⟩ (by simp [hdeps]) hold ⟨3⟩
    (by simp [hdeps']) (.inr (Option.map_eq_some_iff.mp hsecond))
  simp [hdeps] at hmem

end Chronicle

end ProcessManager
