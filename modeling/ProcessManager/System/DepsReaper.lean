import ProcessManager.System.DepsCalls

/-! What the reaper relies on beside calls of `start_with_deps`: the processes that it is going to
signal or schedule have been spawned, and it still holds their children. -/

namespace ProcessManager

namespace ReaperPc

variable {R : Set ProcessId} {w w' : World} {id : ProcessId} {env : Env} {pollInterval : ℕ}

/-- The exits that are not scheduled yet. -/
def exits : ReaperPc → List ExitedProcess
  | .detect _ _ x | .search _ x _ _ | .cascade _ x _ | .collect (.targets _ x _ _ _) _ _ => x.exited
  | .remove _ exited _ | .report _ exited _ | .schedule _ exited => exited
  | .discard _ _ rest => rest.exits
  | _ => []

/-- The processes a cascade is going to kill. -/
def targets : ReaperPc → List ProcessId
  | .search _ _ _ targets | .cascade _ _ targets => targets
  | .collect (.targets _ _ _ _ targets) _ found => targets ++ found
  | .discard _ _ rest => rest.targets
  | _ => []

/-- The entries Phase 1 has yet to visit. -/
def unvisited : ReaperPc → List ProcessId
  | .detect _ ids _ => ids
  | .discard _ _ rest => rest.unvisited
  | _ => []

/-- The reaper is going to change the entry under `id` whatever its state. -/
def Marks (pc : ReaperPc) (id : ProcessId) : Prop := (∃ e ∈ pc.exits, e.id = id) ∨ id ∈ pc.targets

/-- The marked processes have been spawned and hold their handle, and none has exited twice. -/
structure Tracks (R : Set ProcessId) (pc : ReaperPc) (w : World) : Prop where
  spawned : ∀ id, pc.Marks id → Spawns id w
  handle : ∀ id, pc.Marks id → id ∉ R → HasHandle id w
  nodup : (pc.exits.map (·.id) ++ pc.unvisited).Nodup

/-- `id` is tracked with a child. -/
def HoldsChild (id : ProcessId) (w : World) : Prop := ∃ p, w.processes.lookup id = some p ∧ p.child ≠ none

theorem HoldsChild.hasHandle (h : HoldsChild id w) : HasHandle id w := by
  obtain ⟨p, hp, hchild⟩ := h
  intro q hq
  rw [hp] at hq
  cases hq
  exact hchild

theorem marks_of_scope {i : ProcessId} {pc : ReaperPc} (h : i ∈ (pc.scope R).killed ∨ i ∈ (pc.scope R).scheduled) :
    pc.Marks i := by
  cases pc with
  | cascade now x targets =>
    cases targets with
    | nil => simp [scope] at h
    | cons id ids =>
      simp only [scope, Set.mem_singleton_iff, Set.mem_empty_iff_false, or_false] at h
      exact .inr (h ▸ List.mem_cons_self)
  | schedule now exited =>
    cases exited with
    | nil => simp [scope] at h
    | cons e es =>
      simp only [scope, Set.mem_empty_iff_false, false_or] at h
      exact .inl ⟨e, List.mem_cons_self, h.1.symm⟩
  | _ => simp [scope] at h

theorem scope_restarted (R : Set ProcessId) (pc : ReaperPc) : (pc.scope R).restarted = R := by
  unfold scope
  split <;> rfl

theorem scope_inserted (R : Set ProcessId) (pc : ReaperPc) : (pc.scope R).inserted = ∅ := by
  unfold scope
  split <;> rfl

theorem exited_add (x : Exits) (p : Process) (status : ExitStatus) :
    ∃ e, (x.add p status).exited = x.exited ++ [e] ∧ e.id = p.id := by
  simp only [Exits.add]
  split
  · exact ⟨_, rfl, rfl⟩
  · exact ⟨_, rfl, rfl⟩

/-- A visit of Phase 1 records an exit of its own entry at most. -/
theorem phase1Visit_exited (hkey : ∀ i p, w.processes.lookup i = some p → p.id = i) (env : Env)
    (now : Instant) (id : ProcessId) (x : Exits) :
    (World.phase1Visit env now id (x, w)).1.exited = x.exited ∨
      ∃ e p, (World.phase1Visit env now id (x, w)).1.exited = x.exited ++ [e] ∧ e.id = id ∧
        w.processes.lookup id = some p ∧ p.child ≠ none := by
  obtain ⟨_, heq⟩ | ⟨p, w', hp, _, ⟨c, status, hc, _, _, heq⟩ | ⟨_, _, heq⟩⟩ :=
    World.phase1Visit_cases env now id x w <;> rw [heq]
  · exact .inl rfl
  · obtain ⟨e, hexited, hid⟩ := exited_add x (p.stableUptime now) status
    refine .inr ⟨e, p, hexited, ?_, hp, by simp [hc]⟩
    exact hid.trans ((Process.stableUptime_id now p).trans (hkey id p hp))
  · exact .inl rfl

/-- `pc'` marks what `pc` marks or what holds a child, and nothing that `pc` schedules. -/
structure MarksFrom (R : Set ProcessId) (pc pc' : ReaperPc) (w : World) : Prop where
  nodup : (pc'.exits.map (·.id) ++ pc'.unvisited).Nodup
  marks : ∀ id, pc'.Marks id → pc.Marks id ∨ HoldsChild id w
  unscheduled : ∀ id, pc'.Marks id → id ∉ (pc.scope R).scheduled

/-- A section that schedules nothing. -/
theorem MarksFrom.of_idle {pc pc' : ReaperPc} (hnone : (pc.scope R).scheduled = ∅)
    (hnodup : (pc'.exits.map (·.id) ++ pc'.unvisited).Nodup)
    (hmarks : ∀ id, pc'.Marks id → pc.Marks id ∨ HoldsChild id w) : MarksFrom R pc pc' w :=
  ⟨hnodup, hmarks, fun id _ => by rw [hnone]; exact Set.notMem_empty id⟩

/-- A section after which nothing is marked. -/
theorem MarksFrom.of_unmarked {pc pc' : ReaperPc} (h : pc'.exits = [] ∧ pc'.targets = [] ∧ pc'.unvisited = []) :
    MarksFrom R pc pc' w := by
  obtain ⟨hexits, htargets, hunvisited⟩ := h
  have hmarks : ∀ id, ¬ pc'.Marks id := by simp [Marks, hexits, htargets]
  exact ⟨by simp [hexits, hunvisited], fun id hid => absurd hid (hmarks id), fun id hid => absurd hid (hmarks id)⟩

/-- A visit of Phase 1 marks its own process, if it finds an exit. -/
theorem marksFrom_detect (env : Env) (pollInterval : ℕ) {now : Instant} {ids : List ProcessId} {x : Exits}
    (hkey : ∀ i p, w.processes.lookup i = some p → p.id = i)
    (h : (x.exited.map ExitedProcess.id ++ id :: ids).Nodup) :
    MarksFrom R (.detect now (id :: ids) x) (ReaperPc.next env pollInterval (.detect now (id :: ids) x) w).1 w := by
  obtain hsame | ⟨e, p, hexited, hid, hp, hchild⟩ := phase1Visit_exited hkey env now id x
  · refine .of_idle rfl ?_ fun i hi => .inl ?_
    · simp only [List.nodup_middle, List.nodup_cons] at h
      simpa only [ReaperPc.next, exits, unvisited, hsame] using h.2
    · simpa only [Marks, ReaperPc.next, exits, ReaperPc.targets, hsame] using hi
  · refine .of_idle rfl ?_ fun i hi => ?_
    · simpa [ReaperPc.next, exits, unvisited, hexited, hid] using h
    · rcases hi with ⟨e', he', rfl⟩ | hi
      · simp only [ReaperPc.next, exits, hexited, List.mem_append, List.mem_singleton] at he'
        rcases he' with he' | rfl
        · exact .inl (.inl ⟨e', he', rfl⟩)
        · exact .inr ⟨p, hid ▸ hp, hchild⟩
      · cases hi

/-- What a cascade is going to kill holds its child when it is selected. -/
theorem marksFrom_targets (env : Env) (pollInterval : ℕ) {now : Instant} {x : Exits} {o : CascadeOrigin}
    {origins : List CascadeOrigin} {targets ids found : List ProcessId} (hsteady : Steady R w) (hr : w.reaper = .running)
    (h : (x.exited.map ExitedProcess.id ++ []).Nodup) :
    MarksFrom R (.collect (.targets now x o origins targets) ids found)
      (ReaperPc.next env pollInterval (.collect (.targets now x o origins targets) ids found) w).1 w := by
  cases ids with
  | nil => exact .of_idle rfl h fun _ hid => .inl hid
  | cons id ids =>
    refine .of_idle rfl h fun i hi => ?_
    rcases hi with hi | hi
    · exact .inl (.inl hi)
    · simp only [ReaperPc.next, ReaperPc.targets, World.collectVisit] at hi
      split at hi
      · next p hp =>
        split_ifs at hi with hselects
        · rw [← List.append_assoc, List.mem_append, List.mem_singleton] at hi
          rcases hi with hi | rfl
          · exact .inl (.inr hi)
          · have hstate : p.state = .starting ∨ p.state = .running := by
              simp only [Collecting.selects, World.cascadeSelects, Bool.and_eq_true, Bool.or_eq_true,
                decide_eq_true_eq] at hselects
              exact hselects.1.2.symm
            exact .inr ⟨p, hp, hsteady.alive hr i p hp hstate⟩
        · exact .inl (.inr hi)
      · exact .inl (.inr hi)

/-- Phase 3 forgets the exit that it schedules. -/
theorem marksFrom_schedule (env : Env) (pollInterval : ℕ) {now : Instant} {e : ExitedProcess} {exited : List ExitedProcess}
    (h : ((e :: exited).map ExitedProcess.id).Nodup) :
    MarksFrom R (.schedule now (e :: exited)) (ReaperPc.next env pollInterval (.schedule now (e :: exited)) w).1 w := by
  simp only [List.map_cons, List.nodup_cons, List.mem_map] at h
  refine ⟨by simpa [ReaperPc.next, exits, unvisited] using h.2, ?_, ?_⟩ <;> rintro id (⟨e', he', rfl⟩ | hid)
  · exact .inl (.inl ⟨e', List.mem_cons_of_mem _ he', rfl⟩)
  · cases hid
  · exact fun hid => h.1 ⟨e', he', hid.1⟩
  · cases hid

/-- Phase 3 is over. -/
def PastPhase3 : ReaperPc → Prop
  | .restart _ | .examine _ _ | .resolve _ _ _ _ _ | .extend _ _ _ _ | .recheck _ _ _ | .spawn _ _ | .fail _ |
    .failFast _ | .failRunning _ _ _ => True
  | .collect (.targets _ _ _ _ _) _ _ => False
  | .collect _ _ _ => True
  | _ => False

/-- After Phase 3 nothing is marked. -/
theorem unmarked_next (env : Env) (pollInterval : ℕ) {pc : ReaperPc} (h : pc.PastPhase3) (w : World) :
    (ReaperPc.next env pollInterval pc w).1.exits = [] ∧ (ReaperPc.next env pollInterval pc w).1.targets = [] ∧
      (ReaperPc.next env pollInterval pc w).1.unvisited = [] := by
  cases pc with
  | collect c ids found =>
    cases c with
    | targets => exact h.elim
    | _ => cases ids <;> exact ⟨rfl, rfl, rfl⟩
  | restart ids | spawn ids toFail | fail ids =>
    cases ids with
    | nil => exact ⟨rfl, rfl, rfl⟩
    | cons id ids =>
      simp only [ReaperPc.next, after]
      split <;> exact ⟨rfl, rfl, rfl⟩
  | examine ids v | failFast ids =>
    cases ids with
    | nil => exact ⟨rfl, rfl, rfl⟩
    | cons id ids =>
      simp only [ReaperPc.next]
      split <;> exact ⟨rfl, rfl, rfl⟩
  | resolve id p deps ids v =>
    simp only [ReaperPc.next]
    split_ifs <;> exact ⟨rfl, rfl, rfl⟩
  | extend id new ids v => exact ⟨rfl, rfl, rfl⟩
  | recheck id ids v => exact ⟨rfl, rfl, rfl⟩
  | failRunning id p ids => exact ⟨rfl, rfl, rfl⟩
  | _ => exact h.elim

/-- The next section marks processes that hold a child, and none that it schedules. -/
theorem next_marks (env : Env) (pollInterval : ℕ) {pc : ReaperPc} (hsteady : Steady R w) (hr : w.reaper = .running)
    (h : (pc.exits.map (·.id) ++ pc.unvisited).Nodup) : MarksFrom R pc (ReaperPc.next env pollInterval pc w).1 w := by
  cases pc with
  | asleep =>
    refine .of_idle rfl ?_ fun id hid => ?_
    · simpa [ReaperPc.next, exits, unvisited, Exits.empty] using AList.keys_nodup _
    · simp [Marks, ReaperPc.next, exits, targets, Exits.empty] at hid
  | detect now ids x =>
    cases ids with
    | nil => exact .of_idle rfl h fun _ hid => .inl hid
    | cons id ids => exact marksFrom_detect env pollInterval hsteady.key h
  | search now x origins targets =>
    cases origins with
    | nil => exact .of_idle rfl h fun _ hid => .inl hid
    | cons o origins =>
      refine .of_idle rfl h fun id hid => .inl ?_
      simpa [Marks, ReaperPc.next, exits, ReaperPc.targets] using hid
  | collect c ids found =>
    cases c with
    | targets now x o origins targets => exact marksFrom_targets env pollInterval hsteady hr h
    | _ =>
      refine .of_unmarked (unmarked_next env pollInterval ?_ w)
      trivial
  | cascade now x targets =>
    cases targets with
    | nil => exact .of_idle rfl h fun _ hid => .inl (hid.imp_right fun hid => absurd hid List.not_mem_nil)
    | cons id ids => exact .of_idle rfl h fun _ hid => .inl (hid.imp_right (List.mem_cons_of_mem _))
  | remove now exited ids =>
    cases ids <;> exact .of_idle rfl h fun _ hid => .inl hid
  | report now exited pending =>
    cases pending <;> exact .of_idle rfl h fun _ hid => .inl hid
  | schedule now exited =>
    cases exited with
    | nil => exact .of_unmarked ⟨rfl, rfl, rfl⟩
    | cons e es => exact marksFrom_schedule env pollInterval (by simpa [exits, unvisited] using h)
  | discard event inLoop rest => exact .of_idle rfl h fun _ hid => .inl hid
  | _ =>
    refine .of_unmarked (unmarked_next env pollInterval ?_ w)
    trivial

theorem Tracks.scheduled {pc : ReaperPc} (h : pc.Tracks R w) : ∀ i ∈ (pc.scope R).scheduled, Spawns i w :=
  fun i hi => h.spawned i (marks_of_scope (.inr hi))

/-- The next section keeps what the reaper relies on. -/
theorem Tracks.next {pc : ReaperPc} (h : pc.Tracks R w) (hsteady : Steady R w) (hr : w.reaper = .running)
    (hup : pc.UpToDate w) :
    (ReaperPc.next env pollInterval pc w).1.Tracks R (ReaperPc.next env pollInterval pc w).2 := by
  have hs := shifts_next R env pollInterval hup
  have hR := scope_restarted R pc
  have hmarks : MarksFrom R pc _ w := next_marks env pollInterval hsteady hr h.nodup
  have hspawned : ∀ id, (ReaperPc.next env pollInterval pc w).1.Marks id → Spawns id w := fun id hid =>
    (hmarks.marks id hid).elim (h.spawned id) fun ⟨_, hp, hchild⟩ => hsteady.spawns_of_child hp hchild
  refine ⟨fun id hid => (hspawned id hid).shifts hs, fun id hid hi => ?_, hmarks.nodup⟩
  have hhandle : HasHandle id w := (hmarks.marks id hid).elim (fun hmark => h.handle id hmark hi) HoldsChild.hasHandle
  exact hhandle.shifts (hR.symm ▸ hsteady) hs (hR.symm ▸ hi) (hmarks.unscheduled id hid) (hspawned id hid) h.scheduled

end ReaperPc

end ProcessManager
