import ProcessManager.Reaper.Sections
import ProcessManager.System.Moves

/-! What a step of any thread can do to an entry and its child, moves and the sections of
Phases 1 to 3 alike, and what follows for every interleaving: an entry that was never
spawned is `Waiting` or `Failed`, one without a child to run holds no handle, and no child
is lost unless its process is restarted by a call. -/

namespace ProcessManager

open Relation

variable {env : Env} {w w' w'' : World} {id : ProcessId} {p p' : Process}

/-- A child was spawned for `id`. -/
def Spawns (id : ProcessId) (w : World) : Prop := ∃ s ∈ w.spawns, s.id = id

/-- The exit of the child was collected. -/
def Gone (c : ℕ) (w : World) : Prop := ∃ ch, w.children[c]? = some ch ∧ ch.isReaped = true

instance (id : ProcessId) (w : World) : Decidable (Spawns id w) :=
  inferInstanceAs (Decidable (∃ s ∈ w.spawns, s.id = id))

/-- The ids that calls of `restart` take, those that a step may insert, and those that it
may kill or schedule in a supervisor cascade or after an exit. -/
structure Scope where
  restarted : Set ProcessId
  inserted : Set ProcessId
  killed : Set ProcessId := ∅
  scheduled : Set ProcessId := ∅

variable {S : Scope}

/-- An entry under `id` may be inserted. -/
def Scope.Admits (S : Scope) (w : World) (id : ProcessId) : Prop :=
  id ∈ S.inserted ∧ (id ∈ S.restarted ∨ (id.raw < w.nextId ∧ ¬ Spawns id w))

/-- The states that keep a process as it is, fail it, poll it or kill it. -/
def StateStays (S : Scope) (i : ProcessId) (p p' : Process) : Prop :=
  p'.state = p.state ∨ p'.state = .failed ∨
    ((p.state = .starting ∨ p.state = .running) ∧ (p'.state = .running ∨ p'.state.isTerminated = true)) ∨
    (i ∈ S.killed ∧ p.pid ≠ 0 ∧ p'.state = .stopping)

/-- What a step may do to the entry under `i`. -/
inductive Alters (S : Scope) (w w' : World) (i : ProcessId) (p p' : Process) : Prop
  | stay (hid : p'.id = p.id) (hchild : p'.child = p.child) (hpid : p'.pid = p.pid)
      (hstate : StateStays S i p p')
  /-- Back to `Waiting`. -/
  | defer (hid : p'.id = p.id) (hchild : p'.child = p.child) (hold : p.state = .restarting)
      (hstate : p'.state = .waiting)
  /-- `restart` drops the old child. -/
  | reset (hid : p'.id = p.id) (hchild : p'.child = none) (hold : p.state = .restarting)
      (hstate : p'.state = .restarting)
  /-- Phase 3 waits for the old child; a panic leaves the state. -/
  | schedule (hid : p'.id = p.id) (hchild : p'.child = none) (hscheduled : i ∈ S.scheduled)
      (hgone : ∀ c, p.child = some c → c < w.children.length → Gone c w')
      (hstate : p'.state = .restarting ∨ (p'.state = p.state ∧ w'.reaper ≠ .running))
  | spawn (hid : p'.id = p.id) (hchild : p'.child = some w.nextChild)
      (hold : p.state = .restarting ∨ p.state = .waiting) (hstate : p'.state = .starting)
      (hspawn : Spawns i w')

/-- A new entry, `Waiting` or with its child. -/
structure Enters (S : Scope) (w w' : World) (i : ProcessId) (p' : Process) : Prop where
  admitted : S.Admits w i
  id : p'.id = i
  kind : (p'.child = none ∧ p'.pid = 0 ∧ p'.state = .waiting ∧ w'.spawns = w.spawns) ∨
    (p'.child = some w.nextChild ∧ p'.state = .starting ∧ Spawns i w')

/-- The spawn of a step. -/
structure SpawnsOne (S : Scope) (w w' : World) (s : SpawnCall) : Prop where
  spawns : w'.spawns = s :: w.spawns
  child : s.child = w.nextChild
  length : w'.children.length = w.children.length + 1
  held : ∀ p', w'.processes.lookup s.id = some p' → p'.child = some s.child
  source : (∃ p, w.processes.lookup s.id = some p ∧ (p.state = .restarting ∨ p.state = .waiting)) ∨
    S.Admits w s.id

/-- One small step of any thread. -/
structure Shift (S : Scope) (w w' : World) : Prop where
  nextId : w.nextId ≤ w'.nextId
  reaper : w'.reaper = .running → w.reaper = .running
  children : Ages Set.univ w.children w'.children
  spawns : w'.spawns = w.spawns ∨ ∃ s, SpawnsOne S w w' s
  entry : ∀ i p', w'.processes.lookup i = some p' →
    (∃ p, w.processes.lookup i = some p ∧ Alters S w w' i p p') ∨ Enters S w w' i p'

/-- Any number of small steps. -/
abbrev Shifts (S : Scope) : World → World → Prop := ReflTransGen (Shift S)

/-! ### Facts that stay -/

theorem Gone.ages {T : Set ℕ} {c : ℕ} (h : Gone c w) (hages : Ages T w.children w'.children) : Gone c w' := by
  obtain ⟨ch, hch, hreaped⟩ := h
  obtain ⟨ch', hch', hage⟩ := hages c ch hch
  exact ⟨ch', hch', by rw [hage.final hreaped, hreaped]⟩

theorem Spawns.shift (h : Spawns id w) (hs : Shift S w w') : Spawns id w' := by
  obtain ⟨s, hmem, hid⟩ := h
  rcases hs.spawns with heq | ⟨s', hone⟩
  · exact ⟨s, heq ▸ hmem, hid⟩
  · exact ⟨s, hone.spawns ▸ List.mem_cons_of_mem _ hmem, hid⟩

theorem Spawns.shifts (h : Spawns id w) (hs : Shifts S w w') : Spawns id w' := by
  induction hs with
  | refl => exact h
  | tail _ hone ih => exact ih.shift hone

theorem Shifts.nextId (hs : Shifts S w w') : w.nextId ≤ w'.nextId := by
  induction hs with
  | refl => exact le_rfl
  | tail _ hone ih => exact ih.trans hone.nextId

theorem Shifts.reaper (hs : Shifts S w w') : w'.reaper = .running → w.reaper = .running := by
  induction hs with
  | refl => exact fun h => h
  | tail _ hone ih => exact fun h => ih (hone.reaper h)

/-! ### The steady state -/

/-- What holds in every interleaving. `R` are the ids that calls of `restart` take. -/
structure Steady (R : Set ProcessId) (w : World) : Prop where
  key : ∀ i p, w.processes.lookup i = some p → p.id = i
  below : ∀ i p, w.processes.lookup i = some p → i ∉ R → i.raw < w.nextId
  spawnId : ∀ s ∈ w.spawns, s.id ∉ R → s.id.raw < w.nextId
  spawnChild : ∀ s ∈ w.spawns, s.child < w.children.length
  unspawned : ∀ i p, w.processes.lookup i = some p → ¬ Spawns i w →
    (p.state = .waiting ∨ p.state = .failed) ∧ p.pid = 0 ∧ p.child = none
  childless : ∀ i p, w.processes.lookup i = some p → p.state = .waiting ∨ p.state = .restarting →
    p.child = none
  alive : w.reaper = .running → ∀ i p, w.processes.lookup i = some p →
    p.state = .starting ∨ p.state = .running → p.child ≠ none
  /-- A child that was not collected is held by its entry. -/
  kept : ∀ i p, w.processes.lookup i = some p → i ∉ R → ∀ s ∈ w.spawns, s.id = i →
    Gone s.child w ∨ p.child = some s.child

namespace Steady

theorem new (R : Set ProcessId) (hw : w.processes = ∅) (hs : w.spawns = []) : Steady R w := by
  constructor <;> simp [hw, hs]

theorem spawns_of_state {R : Set ProcessId} (h : Steady R w) (hp : w.processes.lookup id = some p)
    (hstate : p.state ≠ .waiting) (hstate' : p.state ≠ .failed) : Spawns id w := by
  by_contra hn
  rcases (h.unspawned id p hp hn).1 with hs | hs
  · exact hstate hs
  · exact hstate' hs

theorem spawns_of_child {R : Set ProcessId} (h : Steady R w) (hp : w.processes.lookup id = some p)
    (hchild : p.child ≠ none) : Spawns id w := by
  by_contra hn
  exact hchild (h.unspawned id p hp hn).2.2

variable {R : Set ProcessId}

theorem unspawned_shift (h : Steady S.restarted w) (hs : Shift S w w')
    (hscheduled : ∀ i ∈ S.scheduled, Spawns i w) (i : ProcessId) (p' : Process)
    (hp' : w'.processes.lookup i = some p') (hn : ¬ Spawns i w') :
    (p'.state = .waiting ∨ p'.state = .failed) ∧ p'.pid = 0 ∧ p'.child = none := by
  have hn' : ¬ Spawns i w := fun hspawns => hn (hspawns.shift hs)
  rcases hs.entry i p' hp' with ⟨p, hp, halters⟩ | ⟨_, _, ⟨hchild, hpid, hstate, _⟩ | ⟨_, _, hspawn⟩⟩
  · obtain ⟨hold, hzero, hnone⟩ := h.unspawned i p hp hn'
    cases halters with
    | stay _ hchild hpid hstate =>
      refine ⟨?_, hpid.trans hzero, hchild.trans hnone⟩
      rcases hstate with hstate | hstate | ⟨hstate, _⟩ | ⟨_, hpid', _⟩
      · exact hstate ▸ hold
      · exact .inr hstate
      · rcases hold with hold | hold <;> simp [hold] at hstate
      · exact absurd hzero hpid'
    | defer _ _ hrestarting => rcases hold with hold | hold <;> simp [hold] at hrestarting
    | reset _ _ hrestarting => rcases hold with hold | hold <;> simp [hold] at hrestarting
    | schedule _ _ hi => exact absurd (hscheduled i hi) hn'
    | spawn _ _ _ _ hspawn => exact absurd hspawn hn
  · exact ⟨.inl hstate, hpid, hchild⟩
  · exact absurd hspawn hn

theorem childless_shift (h : Steady S.restarted w) (hs : Shift S w w') (i : ProcessId) (p' : Process)
    (hp' : w'.processes.lookup i = some p') (hstate' : p'.state = .waiting ∨ p'.state = .restarting) :
    p'.child = none := by
  rcases hs.entry i p' hp' with ⟨p, hp, halters⟩ | ⟨_, _, ⟨hchild, _⟩ | ⟨_, hstarting, _⟩⟩
  · cases halters with
    | stay _ hchild _ hstate =>
      rw [hchild]
      rcases hstate with hstate | hstate | ⟨_, hstate | hstate⟩ | ⟨_, _, hstate⟩
      · exact h.childless i p hp (hstate ▸ hstate')
      · rw [hstate] at hstate'; simp at hstate'
      · rw [hstate] at hstate'; simp at hstate'
      · rcases hstate' with hs' | hs' <;> simp [hs', ProcessState.isTerminated] at hstate
      · rw [hstate] at hstate'; simp at hstate'
    | defer _ hchild hold => exact hchild.trans (h.childless i p hp (.inr hold))
    | reset _ hchild => exact hchild
    | schedule _ hchild => exact hchild
    | spawn _ _ _ hstate => rw [hstate] at hstate'; simp at hstate'
  · exact hchild
  · rw [hstarting] at hstate'; simp at hstate'

theorem alive_shift (h : Steady S.restarted w) (hs : Shift S w w') (hr : w'.reaper = .running)
    (i : ProcessId) (p' : Process) (hp' : w'.processes.lookup i = some p')
    (hstate' : p'.state = .starting ∨ p'.state = .running) : p'.child ≠ none := by
  rcases hs.entry i p' hp' with ⟨p, hp, halters⟩ | ⟨_, _, ⟨_, _, hwaiting, _⟩ | ⟨hchild, _⟩⟩
  · have halive := h.alive (hs.reaper hr) i p hp
    cases halters with
    | stay _ hchild _ hstate =>
      rw [hchild]
      rcases hstate with hstate | hstate | ⟨hold, _⟩ | ⟨_, _, hstate⟩
      · exact halive (hstate ▸ hstate')
      · rw [hstate] at hstate'; simp at hstate'
      · exact halive hold
      · rw [hstate] at hstate'; simp at hstate'
    | defer _ _ _ hstate => rw [hstate] at hstate'; simp at hstate'
    | reset _ _ _ hstate => rw [hstate] at hstate'; simp at hstate'
    | schedule _ _ _ _ hstate =>
      rcases hstate with hstate | ⟨_, hended⟩
      · rw [hstate] at hstate'; simp at hstate'
      · exact absurd hr hended
    | spawn _ hchild => rw [hchild]; exact nofun
  · rw [hwaiting] at hstate'; simp at hstate'
  · rw [hchild]; exact nofun

theorem kept_shift (h : Steady S.restarted w) (hs : Shift S w w') (i : ProcessId) (p' : Process)
    (hp' : w'.processes.lookup i = some p') (hi : i ∉ S.restarted) (s : SpawnCall) (hmem : s ∈ w'.spawns)
    (hid : s.id = i) : Gone s.child w' ∨ p'.child = some s.child := by
  -- the new spawn is held; an old one was collected, or its handle stays
  have hcases : p'.child = some s.child ∨ s ∈ w.spawns := by
    rcases hs.spawns with heq | ⟨s', hone⟩
    · exact .inr (heq ▸ hmem)
    · rw [hone.spawns] at hmem
      rcases List.mem_cons.mp hmem with rfl | hmem
      · exact .inl (hone.held p' (hid ▸ hp'))
      · exact .inr hmem
  rcases hcases with hheld | hold
  · exact .inr hheld
  · rcases hs.entry i p' hp' with ⟨p, hp, halters⟩ | ⟨⟨_, hrestarted | ⟨_, hnever⟩⟩, _, _⟩
    · rcases h.kept i p hp hi s hold hid with hgone | hchild
      · exact .inl (hgone.ages hs.children)
      · cases halters with
        | stay _ hsame => exact .inr (hsame.trans hchild)
        | defer _ hsame => exact .inr (hsame.trans hchild)
        | reset _ _ hrestarting =>
          rw [h.childless i p hp (.inr hrestarting)] at hchild
          cases hchild
        | schedule _ _ _ hgone => exact .inl (hgone s.child hchild (h.spawnChild s hold))
        | spawn _ _ hwaits =>
          rw [h.childless i p hp hwaits.symm] at hchild
          cases hchild
    · exact absurd hrestarted hi
    · exact absurd ⟨s, hold, hid⟩ hnever

theorem shift (h : Steady S.restarted w) (hs : Shift S w w') (hscheduled : ∀ i ∈ S.scheduled, Spawns i w) :
    Steady S.restarted w' where
  key i p' hp' := by
    rcases hs.entry i p' hp' with ⟨p, hp, halters⟩ | hnew
    · have hid : p'.id = p.id := by cases halters <;> assumption
      exact hid.trans (h.key i p hp)
    · exact hnew.id
  below i p' hp' hi := by
    rcases hs.entry i p' hp' with ⟨p, hp, _⟩ | hnew
    · exact (h.below i p hp hi).trans_le hs.nextId
    · rcases hnew.admitted.2 with hrestarted | ⟨hlt, _⟩
      · exact absurd hrestarted hi
      · exact hlt.trans_le hs.nextId
  spawnId s hmem hi := by
    rcases hs.spawns with heq | ⟨s', hone⟩
    · exact (h.spawnId s (heq ▸ hmem) hi).trans_le hs.nextId
    · rw [hone.spawns] at hmem
      rcases List.mem_cons.mp hmem with rfl | hmem
      · rcases hone.source with ⟨p, hp, _⟩ | ⟨_, hrestarted | ⟨hlt, _⟩⟩
        · exact (h.below _ p hp hi).trans_le hs.nextId
        · exact absurd hrestarted hi
        · exact hlt.trans_le hs.nextId
      · exact (h.spawnId s hmem hi).trans_le hs.nextId
  spawnChild s hmem := by
    rcases hs.spawns with heq | ⟨s', hone⟩
    · exact (h.spawnChild s (heq ▸ hmem)).trans_le hs.children.length_le
    · rw [hone.spawns] at hmem
      rcases List.mem_cons.mp hmem with rfl | hmem
      · rw [hone.child, hone.length]
        exact Nat.lt_succ_self _
      · exact (h.spawnChild s hmem).trans_le hs.children.length_le
  unspawned := h.unspawned_shift hs hscheduled
  childless := h.childless_shift hs
  alive := h.alive_shift hs
  kept := h.kept_shift hs

theorem shifts (h : Steady S.restarted w) (hs : Shifts S w w') (hscheduled : ∀ i ∈ S.scheduled, Spawns i w) :
    Steady S.restarted w' := by
  induction hs with
  | refl => exact h
  | tail hbefore hone ih => exact ih.shift hone fun i hi => (hscheduled i hi).shifts hbefore

end Steady

/-! ### A process that holds its handle -/

/-- If `id` is tracked, its entry has a child. -/
def HasHandle (id : ProcessId) (w : World) : Prop :=
  ∀ p, w.processes.lookup id = some p → p.child ≠ none

theorem HasHandle.shift (h : HasHandle id w) (hsteady : Steady S.restarted w) (hs : Shift S w w')
    (hi : id ∉ S.restarted) (hscheduled : id ∉ S.scheduled) (hspawns : Spawns id w) : HasHandle id w' := by
  intro p' hp'
  rcases hs.entry id p' hp' with ⟨p, hp, halters⟩ | ⟨⟨_, hrestarted | ⟨_, hnever⟩⟩, _, _⟩
  · have hchild := h p hp
    cases halters with
    | stay _ hsame => rwa [hsame]
    | defer _ hsame => rwa [hsame]
    | reset _ _ hold => exact absurd (hsteady.childless id p hp (.inr hold)) hchild
    | schedule _ _ hmem => exact absurd hmem hscheduled
    | spawn _ hsome => rw [hsome]; exact nofun
  · exact absurd hrestarted hi
  · exact absurd hspawns hnever

theorem HasHandle.shifts (h : HasHandle id w) (hsteady : Steady S.restarted w) (hs : Shifts S w w')
    (hi : id ∉ S.restarted) (hscheduled : id ∉ S.scheduled) (hspawns : Spawns id w)
    (hall : ∀ i ∈ S.scheduled, Spawns i w) : HasHandle id w' := by
  induction hs with
  | refl => exact h
  | tail hbefore hone ih =>
    exact ih.shift (hsteady.shifts hbefore hall) hone hi hscheduled (hspawns.shifts hbefore)

/-! ### A process that stays failed -/

/-- If `id` is tracked, its entry is `Failed` and has no child. -/
def Finished (id : ProcessId) (w : World) : Prop :=
  ∀ p, w.processes.lookup id = some p → p.state = .failed ∧ p.child = none

/-- A finished process stays so, and is not spawned. -/
theorem Finished.shift (h : Finished id w) (hs : Shift S w w') (hinserted : id ∉ S.inserted)
    (hkilled : id ∉ S.killed) (hscheduled : id ∉ S.scheduled) :
    Finished id w' ∧ ∀ s ∈ w'.spawns, s.id = id → s ∈ w.spawns := by
  constructor
  · intro p' hp'
    rcases hs.entry id p' hp' with ⟨p, hp, halters⟩ | hnew
    · obtain ⟨hfailed, hnone⟩ := h p hp
      cases halters with
      | stay _ hchild _ hstate =>
        refine ⟨?_, hchild.trans hnone⟩
        rcases hstate with hstate | hstate | ⟨hold, _⟩ | ⟨hmem, _⟩
        · exact hstate.trans hfailed
        · exact hstate
        · simp [hfailed] at hold
        · exact absurd hmem hkilled
      | defer _ _ hold => simp [hfailed] at hold
      | reset _ _ hold => simp [hfailed] at hold
      | schedule _ _ hmem => exact absurd hmem hscheduled
      | spawn _ _ hold => simp [hfailed] at hold
    · exact absurd hnew.admitted.1 hinserted
  · intro s hmem hid
    rcases hs.spawns with heq | ⟨s', hone⟩
    · exact heq ▸ hmem
    · rw [hone.spawns] at hmem
      rcases List.mem_cons.mp hmem with rfl | hmem
      · rcases hone.source with ⟨p, hp, hold⟩ | hadmits
        · rw [(h p (hid ▸ hp)).1] at hold
          simp at hold
        · exact absurd (hid ▸ hadmits.1) hinserted
      · exact hmem

theorem Finished.shifts (h : Finished id w) (hs : Shifts S w w') (hinserted : id ∉ S.inserted)
    (hkilled : id ∉ S.killed) (hscheduled : id ∉ S.scheduled) :
    Finished id w' ∧ ∀ s ∈ w'.spawns, s.id = id → s ∈ w.spawns := by
  induction hs with
  | refl => exact ⟨h, fun _ hmem _ => hmem⟩
  | tail _ hone ih =>
    obtain ⟨hfinished, hold⟩ := ih
    obtain ⟨hfinished', hold'⟩ := hfinished.shift hone hinserted hkilled hscheduled
    exact ⟨hfinished', fun s hmem hid => hold s (hold' s hmem hid) hid⟩

/-! ### Moves are small steps -/

theorem Alters.refl (S : Scope) (w w' : World) (i : ProcessId) (p : Process) : Alters S w w' i p p :=
  .stay rfl rfl rfl (.inl rfl)

namespace Shift

theorem of_mapStep {Q : ProcessId → Process → Process → Prop} {T : Set ℕ} {P : KillCall → Prop}
    (h : MapStep Q T P w w') (hQ : ∀ i p p', Q i p p' → Alters S w w' i p p') : Shift S w w' where
  nextId := h.nextId.ge
  reaper hr := by
    rcases h.reaper with heq | hended | hended
    · exact heq ▸ hr
    · rw [hended] at hr; cases hr
    · rw [hended] at hr; cases hr
  children := h.children.mono (Set.subset_univ T)
  spawns := .inl h.spawns
  entry i p' hp' := by
    obtain ⟨p, hp, hq⟩ := h.processes i p' hp'
    exact .inl ⟨p, hp, hQ i p p' hq⟩

theorem of_osStep {T : Set ℕ} {P : KillCall → Prop} (h : OsStep T P w w') : Shift S w w' :=
  of_mapStep (.of_osStep kept_refl h) fun i p _ heq => heq ▸ .refl S w w' i p

/-- An entry is written back. -/
theorem write {T : Set ℕ} (hp : w.processes.lookup id = some p)
    (hmap : w'.processes = w.processes.replace id p') (hnextId : w'.nextId = w.nextId)
    (hreaper : w'.reaper = .running → w.reaper = .running) (hchildren : Ages T w.children w'.children)
    (hspawns : w'.spawns = w.spawns) (halters : Alters S w w' id p p') : Shift S w w' where
  nextId := hnextId.ge
  reaper := hreaper
  children := hchildren.mono (Set.subset_univ T)
  spawns := .inl hspawns
  entry i q' hq' := by
    rw [hmap, AssocMap.lookup_replace] at hq'
    split_ifs at hq' with hi
    · rw [hp] at hq'
      cases hq'
      exact .inl ⟨p, hi ▸ hp, hi ▸ halters⟩
    · exact .inl ⟨q', hq', .refl S w _ i q'⟩

/-- An entry is written back after a step of the operating system. -/
theorem put {T : Set ℕ} {P : KillCall → Prop} (h : OsStep T P w w') (hp : w.processes.lookup id = some p)
    (halters : Alters S w (w'.put id p') id p p') : Shift S w (w'.put id p') :=
  write hp (by rw [World.put_processes, h.processes]) h.nextId (fun hr => h.reaper ▸ hr) h.children
    h.spawns halters

/-- An entry is written back with a new child. -/
theorem put_spawned {site : SpawnSite} {config : ProcessConfig} {deps : List ProcessId}
    (h : Spawned env site id config deps w w') (hp : w.processes.lookup id = some p)
    (hold : p.state = .restarting ∨ p.state = .waiting) (hid : p'.id = p.id)
    (hchild : p'.child = some w.nextChild) (hstate : p'.state = .starting) : Shift S w (w'.put id p') := by
  obtain ⟨program, hspawns⟩ := h.spawns
  have hmem : Spawns id w' := ⟨_, hspawns ▸ List.mem_cons_self, rfl⟩
  refine ⟨h.nextId.ge, fun hr => h.reaper ▸ hr, h.children.mono (Set.empty_subset _),
    .inr ⟨_, hspawns, rfl, h.length, ?_, .inl ⟨p, hp, hold⟩⟩, ?_⟩
  · intro q' hq'
    rw [World.put_processes, h.processes, AssocMap.lookup_replace, if_pos rfl, hp] at hq'
    cases hq'
    exact hchild
  · intro i q' hq'
    rw [World.put_processes, h.processes, AssocMap.lookup_replace] at hq'
    split_ifs at hq' with hi
    · rw [hp] at hq'
      cases hq'
      exact .inl ⟨p, hi ▸ hp, .spawn hid hchild hold hstate (hi ▸ hmem)⟩
    · exact .inl ⟨q', hq', .refl S w _ i q'⟩

theorem insert_spawned {site : SpawnSite} {config : ProcessConfig} {deps : List ProcessId}
    (h : Spawned env site id config deps w w') (hadmits : S.Admits w id) (hid : p.id = id)
    (hchild : p.child = some w.nextChild) (hstate : p.state = .starting) : Shift S w (w'.insert env id p) := by
  obtain ⟨program, hspawns⟩ := h.spawns
  have hmem : Spawns id w' := ⟨_, hspawns ▸ List.mem_cons_self, rfl⟩
  refine ⟨h.nextId.ge, fun hr => h.reaper ▸ hr, h.children.mono (Set.empty_subset _),
    .inr ⟨_, hspawns, rfl, h.length, ?_, .inr hadmits⟩, ?_⟩
  · intro q' hq'
    rw [World.insert_processes, AssocMap.lookup_reorder, h.processes, AssocMap.lookup_insert_eq,
      if_pos rfl] at hq'
    cases hq'
    exact hchild
  · intro i q' hq'
    rw [World.insert_processes, AssocMap.lookup_reorder, h.processes, AssocMap.lookup_insert_eq] at hq'
    split_ifs at hq' with hi
    · cases hq'
      exact .inr ⟨hi ▸ hadmits, hid.trans hi.symm, .inr ⟨hchild, hstate, hi ▸ hmem⟩⟩
    · exact .inl ⟨q', hq', .refl S w _ i q'⟩

theorem insert_waiting (hadmits : S.Admits w id) (hid : p.id = id) (hchild : p.child = none)
    (hpid : p.pid = 0) (hstate : p.state = .waiting) : Shift S w (w.insert env id p) := by
  refine ⟨le_rfl, fun hr => hr, .refl _, .inl rfl, fun i q' hq' => ?_⟩
  rw [World.insert_processes, AssocMap.lookup_reorder, AssocMap.lookup_insert_eq] at hq'
  split_ifs at hq' with hi
  · cases hq'
    exact .inr ⟨hi ▸ hadmits, hid.trans hi.symm, .inl ⟨hchild, hpid, hstate, rfl⟩⟩
  · exact .inl ⟨q', hq', .refl S w _ i q'⟩

end Shift

/-- The condition on moves: entries are inserted where the scope admits it. -/
def Scope.Moving (S : Scope) (point : Point) (w : World) (p : Process) : Prop :=
  point = .start → S.Admits w p.id

theorem StateStays.of_polled {i : ProcessId} (h : Process.Polled i p p') : StateStays S i p p' := by
  obtain rfl | ⟨hold, s, hs, rfl⟩ := h
  · exact .inl rfl
  · exact .inr (.inr (.inl ⟨hold, hs⟩))

theorem Alters.of_polled {i : ProcessId} (h : Process.Polled i p p') : Alters S w w' i p p' := by
  have hstate : StateStays S i p p' := .of_polled h
  obtain rfl | ⟨_, s, _, rfl⟩ := h
  · exact .refl S w w' i p'
  · exact .stay rfl rfl rfl hstate

theorem shift_move (h : World.Move env S.Moving w w') : Shift S w w' := by
  cases h with
  | frame hstep => exact .of_mapStep hstep fun i p _ heq => heq ▸ .refl S w w' i p
  | count n m =>
    exact ⟨Nat.le_add_right _ _, fun hr => hr, .refl _, .inl rfl,
      fun i p' hp' => .inl ⟨p', hp', .refl S w _ i p'⟩⟩
  | @poll i q _ hp =>
    have hstep : MapStep Process.Polled q.handles (fun _ => True) w (w.pollEntry env i q) :=
      World.mapStep_pollEntry hp
    exact .of_mapStep hstep fun i p p' hpolled => .of_polled hpolled
  | stop hp _ hstep =>
    refine ⟨hstep.nextId.ge, fun hr => hstep.reaper ▸ hr, hstep.children.mono (Set.subset_univ _),
      .inl hstep.spawns, fun i p' hp' => .inl ?_⟩
    rw [hstep.processes, World.remove_processes, AssocMap.lookup_erase_eq] at hp'
    split_ifs at hp'
    exact ⟨p', hp', .refl S w w' i p'⟩
  | batch _ hstep =>
    refine .of_mapStep hstep ?_
    rintro i p p' (⟨_, rfl⟩ | ⟨rfl, _⟩)
    · exact .refl S w w' i p'
    · exact .stay rfl rfl rfl (.inr (.inl rfl))
  | signal _ _ _ hstep => exact .of_osStep hstep
  | adjust hp hadjust =>
    exact .put (.refl w : OsStep ∅ (fun _ => False) w w) hp
      (.stay hadjust.id hadjust.child hadjust.pid (.inl hadjust.state))
  | reset hp hstate hstep => exact .put hstep hp (.reset rfl rfl hstate hstate)
  | spawn hp hstate hspawn hrespawned =>
    exact .put_spawned hspawn hp hstate hrespawned.id hrespawned.child hrespawned.state
  | insert hC hspawn hfresh hchild _ hstate =>
    exact .insert_spawned hspawn (hfresh.id ▸ hC rfl) hfresh.id hchild hstate
  | insertWaiting hC hfresh hchild hpid hstate =>
    exact .insert_waiting (hfresh.id ▸ hC rfl) hfresh.id hchild hpid hstate
  | toWaiting hp hstate hsame hchild _ hwaiting =>
    exact .put (.refl w : OsStep ∅ (fun _ => False) w w) hp (.defer hsame.id hchild hstate hwaiting)
  | timeout hp =>
    exact .put (.refl w : OsStep ∅ (fun _ => False) w w) hp (.stay rfl rfl rfl (.inr (.inl rfl)))
  | failFast _ _ _ hstep => exact .of_mapStep hstep fun i p _ heq => heq ▸ .refl S w w' i p

theorem shifts_moves (h : World.Moves env S.Moving w w') : Shifts S w w' :=
  ReflTransGen.mono (fun _ _ => shift_move) _ _ h

/-! ### Sections are small steps -/

namespace World

variable {x : Exits} {now : Instant}

theorem shifts_os {T : Set ℕ} {P : KillCall → Prop} (h : OsStep T P w w') : Shifts S w w' :=
  .single (.of_osStep h)

/-- An entry is written back, and its guard is dropped. -/
theorem shifts_put {T : Set ℕ} {P : KillCall → Prop} (h : OsStep T P w w')
    (hp : w.processes.lookup id = some p) (halters : Alters S w (w'.put id p') id p p') :
    Shifts S w ((w'.put id p').unlock .exclusive id) :=
  (ReflTransGen.single (Shift.put h hp halters)).trans
    (shifts_os (.unlock _ _ _ : OsStep ∅ (fun _ => False) _ _))

theorem shifts_phase1Visit (env : Env) (now : Instant) (id : ProcessId) (x : Exits) (w : World) :
    Shifts S w (phase1Visit env now id (x, w)).2 := by
  have hlock : OsStep Set.univ (fun _ => False) w (w.lock .exclusive id) := .lock _ _ _
  obtain ⟨_, heq⟩ | ⟨p, w', hp, _, ⟨c, status, hc, _, rfl, heq⟩ | ⟨hstep, _, heq⟩⟩ :=
    phase1Visit_cases env now id x w <;> rw [heq]
  · exact shifts_os (hlock.trans (.unlock _ _ _))
  · refine shifts_put (hlock.trans (osStep_tryWait env (Set.mem_univ c) _)) hp (.stay ?_ ?_ ?_ (.inl ?_))
      <;> simp
  · refine shifts_put (hlock.trans (hstep.mono (Set.empty_subset _) fun _ h => h)) hp ?_
    split_ifs with hstarting
    · exact .stay (by simp) (by simp) (by simp) (.inr (.inr (.inl ⟨.inl hstarting, .inl rfl⟩)))
    · exact .stay (by simp) (by simp) (by simp) (.inl (by simp))

theorem shifts_cascadeKill (env : Env) (hkilled : id ∈ S.killed) (w : World) :
    Shifts S w (w.cascadeKill env id) := by
  obtain ⟨_, heq⟩ | ⟨p, hp, hpid, heq⟩ := cascadeKill_cases env id w <;> rw [heq]
  · exact shifts_os ((OsStep.lock (P := fun _ => False) (S := ∅) _ _ _).trans (.unlock _ _ _))
  · have hkill : OsStep ∅ (fun _ => True) w ((w.lock .exclusive id).kill env .cascade
        { p with cascadeFlag := true, state := .stopping } p.config.killSignal.toSignal) :=
      (OsStep.lock _ _ _).trans (osStep_kill env trivial)
    exact shifts_put hkill hp (.stay rfl rfl rfl (.inr (.inr (.inr ⟨hkilled, hpid, rfl⟩))))

/-- Waiting for the child collects its exit. -/
theorem gone_release {c : ℕ} (hchild : p.child = some c) (hc : c < w.children.length) :
    Gone c (p.release env w) := by
  have hlength : c < (w.tick env).children.length := (w.length_tick env).symm ▸ hc
  have hwait : Gone c (w.wait env c) := by
    refine ⟨_, by rw [wait, List.getElem?_modify, List.getElem?_eq_getElem hlength]; rfl, ?_⟩
    obtain ⟨pid, status⟩ := (w.tick env).children[c]
    cases status <;> simp [OsChild.exit, OsChild.reap, OsChild.isReaped]
  have hrelease : p.release env w = (w.wait env c).tick env := by
    rw [Process.release, hchild]
    rfl
  rw [hrelease]
  exact hwait.ages (ages_tick env _)

theorem shifts_scheduleEntry (env : Env) (now : Instant) {e : ExitedProcess}
    (hscheduled : e.restartConfig ≠ none → e.id ∈ S.scheduled) (w : World) :
    Shifts S w (scheduleEntry env now e w) := by
  have hlock : OsStep Set.univ (fun _ => False) w (w.lock .exclusive e.id) := .lock _ _ _
  cases hconfig : e.restartConfig with
  | none =>
    simp only [scheduleEntry, hconfig]
    exact .refl
  | some r =>
    have hmem := hscheduled (by simp [hconfig])
    cases hp : w.processes.lookup e.id with
    | none =>
      simp only [scheduleEntry, hconfig, lock_processes, hp]
      exact shifts_os (hlock.trans (.unlock _ _ _))
    | some p =>
      have hstep : OsStep Set.univ (fun _ => False) w (p.release env (w.lock .exclusive e.id)) :=
        hlock.trans (Process.osStep_release.mono (Set.subset_univ _) fun _ h => h)
      have hgone : ∀ c, p.child = some c → c < w.children.length →
          Gone c (p.release env (w.lock .exclusive e.id)) :=
        fun c hc hlt => gone_release (w := w.lock .exclusive e.id) hc hlt
      simp only [scheduleEntry, hconfig, lock_processes, hp]
      split
      · exact shifts_put hstep hp (.schedule rfl rfl hmem hgone (.inl rfl))
      · split
        · exact shifts_put hstep hp (.schedule rfl rfl hmem hgone (.inl rfl))
        · refine .single (.write hp (congrArg (AList.replace e.id _) hstep.processes) hstep.nextId (by simp)
            hstep.children hstep.spawns ?_)
          exact .schedule rfl rfl hmem hgone (.inr ⟨rfl, by simp⟩)

theorem shifts_kept {T : Set ℕ} {P : KillCall → Prop} (h : MapStep Kept T P w w') : Shifts S w w' :=
  .single (.of_mapStep h fun i p _ heq => heq ▸ .refl S w w' i p)

theorem shifts_discard (env : Env) (event : ProcessExitEvent) (inLoop : Bool) (w : World) :
    Shifts S w (w.discard env event inLoop) := by
  have hremove : Shifts S w (w.removeEntry event.id) :=
    shifts_kept (mapStep_removeEntry (P := fun _ => False) event.id w)
  simp only [discard]
  split_ifs
  · exact hremove.trans (shifts_kept (mapStep_sendOrReturn (P := fun _ => False) event _))
  · exact hremove.trans (shifts_os (osStep_send (S := ∅) (P := fun _ => False) env event _))

/-- `Failed` is set on an entry whose dependencies may have been resolved again. -/
theorem shifts_fail {T : Set ℕ} {P : KillCall → Prop} (h : OsStep T P w w')
    (hp : w.processes.lookup id = some p) (deps : List ProcessId) :
    Shifts S w ((w'.put id { p with resolvedDeps := deps, state := .failed }).unlock .exclusive id) :=
  shifts_put h hp (.stay rfl rfl rfl (.inr (.inl rfl)))

theorem shifts_respawnHeld (resolved : List ProcessId) (hp : w.processes.lookup id = some p)
    (hstate : p.state = .restarting) :
    Shifts S w (w.respawnHeld env id { p with resolvedDeps := resolved }).2 := by
  simp only [respawnHeld]
  split
  · next e he => exact shifts_fail (osStep_spawnProcess (S := ∅) (P := fun _ => False) he) hp resolved
  · exact shifts_moves (moves_respawn resolved hp hstate)

theorem shifts_performRestartHeld (h : ∀ p, w.processes.lookup id = some p → p.state = .restarting) :
    Shifts S w (w.performRestartHeld env id).2 := by
  have hlock : Shifts S w (w.lock .exclusive id) :=
    shifts_os (.lock _ _ _ : OsStep ∅ (fun _ => False) _ _)
  simp only [performRestartHeld, lock_processes]
  cases hp : w.processes.lookup id with
  | none => exact hlock.trans (shifts_os (.unlock _ _ _ : OsStep ∅ (fun _ => False) _ _))
  | some p =>
    have hstate := h p hp
    have hvisit : Shifts S w ((w.lock .exclusive id).touch .shared
        (resolveVisits w.processes p.config.dependsOn)) :=
      hlock.trans (shifts_os (.touch _ _ _ : OsStep ∅ (fun _ => False) _ _))
    set resolved := resolvedOrDefault w.processes p.config.dependsOn
    set w₁ := (w.lock .exclusive id).touch .shared (resolveVisits w.processes p.config.dependsOn)
    have hpolled : Shifts S w (w₁.allDepsRunning env resolved).2 :=
      hvisit.trans (shifts_moves (moves_allDepsRunning resolved w₁))
    have hp₁ := lookup_allDepsRunning env (w := w₁) hp hstate resolved
    simp only
    split_ifs
    · exact hlock.trans (shifts_respawnHeld p.resolvedDeps hp hstate)
    · exact hpolled.trans (shifts_respawnHeld resolved hp₁ hstate)
    · exact hpolled.trans (shifts_moves (moves_restartToWaiting hp₁ hstate : Moves env S.Moving _ _))
    · exact hvisit.trans (shifts_moves (moves_restartToWaiting hp hstate : Moves env S.Moving w₁ _))

theorem shifts_spawnWaitingHeld (h : ∀ p, w.processes.lookup id = some p → p.state = .waiting) :
    Shifts S w (w.spawnWaitingHeld env id).2 := by
  have hlock : OsStep ∅ (fun _ => False) w (w.lock .exclusive id) := .lock _ _ _
  simp only [spawnWaitingHeld]
  split
  · exact shifts_os (hlock.trans (.unlock _ _ _))
  · next p hp =>
    split
    · next e he => exact shifts_fail (hlock.trans (osStep_spawnProcess he)) hp p.resolvedDeps
    · exact shifts_moves (moves_spawnWaitingProcess h)

theorem shifts_extendEntry (id : ProcessId) (new : List ProcessId) (w : World) :
    Shifts S w (w.extendEntry id new) := by
  have hlock : OsStep ∅ (fun _ => False) w (w.lock .exclusive id) := .lock _ _ _
  simp only [extendEntry, lock_processes]
  split
  · exact shifts_os (hlock.trans (.unlock _ _ _))
  · next p hp => exact shifts_put hlock hp (.stay rfl rfl rfl (.inl rfl))

theorem shifts_failWaitingHeld (id : ProcessId) (w : World) : Shifts S w (w.failWaitingHeld id).2 := by
  have hlock : OsStep ∅ (fun _ => False) w (w.lock .exclusive id) := .lock _ _ _
  simp only [failWaitingHeld, lock_processes]
  split
  · exact shifts_os (hlock.trans (.unlock _ _ _))
  · next p hp => exact shifts_fail hlock hp p.resolvedDeps

theorem shifts_failRunningHeld (env : Env) (id : ProcessId) (p : Process) (w : World) :
    Shifts S w (w.failRunningHeld env id p) := by
  have hlock : OsStep ∅ (fun _ => False) w (w.lock .exclusive id) := .lock _ _ _
  simp only [failRunningHeld, lock_processes]
  cases hq : w.processes.lookup id with
  | none => exact shifts_os (hlock.trans (.unlock _ _ _))
  | some q =>
    have hput : Shifts S w ((w.lock .exclusive id).put id { q with state := .failed }) :=
      .single (.put hlock hq (.stay rfl rfl rfl (.inr (.inl rfl))))
    simp only
    split_ifs
    · exact hput.trans ((shifts_os Process.osStep_sendSignal).trans
        (shifts_os (.unlock _ _ _ : OsStep ∅ (fun _ => False) _ _)))
    · exact hput.trans (shifts_os (.unlock _ _ _ : OsStep ∅ (fun _ => False) _ _))

end World

namespace ReaperPc

/-- The ids whose entry the next section may kill or schedule. -/
def scope (R : Set ProcessId) : ReaperPc → Scope
  | .cascade _ _ (id :: _) => { restarted := R, inserted := ∅, killed := {id} }
  | .schedule _ (e :: _) =>
    { restarted := R, inserted := ∅, scheduled := {i | i = e.id ∧ e.restartConfig ≠ none} }
  | _ => { restarted := R, inserted := ∅ }

/-- The next section finds its process in the state in which it was collected. -/
def UpToDate : ReaperPc → World → Prop
  | .restart (id :: _), w => ∀ p, w.processes.lookup id = some p → p.state = .restarting
  | .spawn (id :: _) _, w => ∀ p, w.processes.lookup id = some p → p.state = .waiting
  | _, _ => True

/-- Every section is made of small steps. -/
theorem shifts_next (R : Set ProcessId) (env : Env) (pollInterval : ℕ) {pc : ReaperPc} (h : pc.UpToDate w) :
    Shifts (pc.scope R) w (next env pollInterval pc w).2 := by
  cases pc with
  | asleep => exact World.shifts_os ((World.osStep_sleep (S := ∅) (P := fun _ => False) env _ w).trans
      (World.osStep_tick env _))
  | detect now ids x =>
    cases ids with
    | nil => exact .refl
    | cons id ids => exact World.shifts_phase1Visit env now id x w
  | search now x origins targets => cases origins <;> exact .refl
  | collect c ids found =>
    cases ids with
    | nil => exact .refl
    | cons id ids => exact World.shifts_os (.touch _ _ _ : OsStep ∅ (fun _ => False) _ _)
  | cascade now x targets =>
    cases targets with
    | nil => exact .refl
    | cons id ids => exact World.shifts_cascadeKill env rfl w
  | remove now exited ids =>
    cases ids with
    | nil => exact .refl
    | cons id ids => exact World.shifts_kept (World.mapStep_removeEntry (P := fun _ => False) id w)
  | report now exited pending =>
    cases pending with
    | nil => exact .refl
    | cons e es => exact World.shifts_kept (World.mapStep_sendOrReturn (P := fun _ => False) e.event w)
  | schedule now exited =>
    cases exited with
    | nil => exact .refl
    | cons e es =>
      have hmem : e.restartConfig ≠ none → e.id ∈ (scope R (.schedule now (e :: es))).scheduled :=
        fun hne => ⟨rfl, hne⟩
      exact World.shifts_scheduleEntry env now hmem w
  | restart ids =>
    cases ids with
    | nil => exact .refl
    | cons id ids => exact World.shifts_performRestartHeld h
  | examine ids v =>
    cases ids with
    | nil => exact .refl
    | cons id ids =>
      have hstep := World.shifts_os (S := scope R (.examine (id :: ids) v))
        (World.osStep_examineHeld env id v w)
      simp only [next]
      split <;> exact hstep
  | resolve id p deps ids v =>
    have hstep := World.shifts_os (S := scope R (.resolve id p deps ids v))
      (World.osStep_searchDeps id p deps v w)
    simp only [next]
    split_ifs <;> exact hstep
  | extend id new ids v => exact World.shifts_extendEntry id new w
  | recheck id ids v => exact World.shifts_os (World.osStep_recheck id v w)
  | spawn ids toFail =>
    cases ids with
    | nil => exact .refl
    | cons id ids => exact World.shifts_spawnWaitingHeld h
  | fail ids =>
    cases ids with
    | nil => exact .refl
    | cons id ids => exact World.shifts_failWaitingHeld id w
  | failFast ids =>
    cases ids with
    | nil => exact .refl
    | cons id ids =>
      have hstep := World.shifts_os (S := scope R (.failFast (id :: ids))) (World.osStep_failFastCheck id w)
      simp only [next]
      split <;> exact hstep
  | failRunning id p ids => exact World.shifts_failRunningHeld env id p w
  | discard event inLoop rest => exact World.shifts_discard env event inLoop w

end ReaperPc

end ProcessManager
