import ProcessManager.System.Ownership

/-! The children of processes that are `Starting` or `Running`. As long as the reaper runs,
each of them is held by its entry and was not collected: whoever collects a child writes
another state, and only a panic in the middle of a pass leaves the old state behind. -/

namespace ProcessManager

variable {env : Env} {pollInterval : ℕ} {C : Point → World → Process → Prop} {w w' : World}
  {id : ProcessId} {p : Process} {ids : List ProcessId}

/-- The states in which polling looks at the child. -/
def Process.Active (p : Process) : Prop := p.state = .starting ∨ p.state = .running

instance (p : Process) : Decidable p.Active := inferInstanceAs (Decidable (_ ∨ _))

theorem lively_active : Lively Process.Active where
  live _ h := h.imp_right .inl
  congr p p' hstate _ h := by
    unfold Process.Active at h ⊢
    rwa [hstate] at h
  polled _ h _ := .inl h

namespace World

/-! ### Handles in Phases 1 to 3 -/

theorem lively_never : Lively fun _ => False where
  live _ h := h.elim
  congr _ _ _ _ h := h
  polled _ _ h := h

theorem owned_awake (h : Owned w) : Owned (w.awake env pollInterval) := by
  have hstart := osStep_awake (S := ∅) (P := fun _ => True) env pollInterval w
  exact h.of_refines hstart.children (hstart.processes ▸ .refl KeepsHandle.refl _)

theorem owned_detect (hkey : ∀ i q, w.processes.lookup i = some q → q.id = i) (h : Owned w) :
    Owned (w.detect env pollInterval).2 := by
  have hstart := osStep_awake (S := ∅) (P := fun _ => True) env pollInterval w
  refine (detected_phase1 lively_never _ ⟨?_, owned_awake h, fun _ _ _ hG => hG.elim⟩).owned
  rw [hstart.processes]
  exact hkey

theorem owned_passDetect (hkey : ∀ i q, w.processes.lookup i = some q → q.id = i) (h : Owned w) :
    Owned (w.passDetect env pollInterval).2.2 := by
  have hcascade : Owned (w.cascade env pollInterval) := by
    refine Fold.foldl_invariant (I := Owned) ?_ fun _ _ _ hw' => owned_cascadeKill hw'
    exact Fold.foldl_invariant (I := Owned) (owned_detect hkey h) fun _ _ _ hw' => { hw' with }
  have hstep := mapStep_passDetect (P := fun _ => True) env pollInterval w
  exact hcascade.of_refines hstep.children (hstep.processes.mono KeepsHandle.of_kept)

theorem owned_afterPhase3 (hkey : ∀ i q, w.processes.lookup i = some q → q.id = i) (h : Owned w) :
    Owned (w.afterPhase3 env pollInterval) :=
  ifRunning_invariant (owned_passDetect hkey h) fun _ => owned_phase3 (owned_passDetect hkey h)

/-! ### Active processes -/

/-- Owned handles, and active processes with uncollected children unless the reaper ended. -/
structure ActiveHeld (w : World) : Prop where
  owned : Owned w
  held : w.reaper = .running → Guarded Process.Active w

theorem ActiveHeld.uncollected (h : w.ActiveHeld) (hr : w.reaper = .running)
    (hp : w.processes.lookup id = some p) (hactive : p.Active) : p.Uncollected w.children :=
  (h.held hr id p hp hactive).resolve_left List.not_mem_nil

theorem activeHeld_move (h : w.ActiveHeld) (hmove : Move env C w w') : w'.ActiveHeld where
  owned := owned_move h.owned hmove
  held hr := by
    refine guarded_move lively_active h.owned (h.held ?_) hmove
    rcases reaper_move hmove with heq | hended
    · rw [← heq, hr]
    · rcases hended with hended | hended <;> rw [hr] at hended <;> cases hended

/-- A target of a cascade is no longer active. -/
theorem activeBut_cascadeKill (h : GuardedBut ids Process.Active w) (howned : Owned w) :
    GuardedBut ids Process.Active (w.cascadeKill env id) := by
  obtain ⟨_, heq⟩ | ⟨p, hp, _, heq⟩ := cascadeKill_cases env id w <;> rw [heq]
  · exact h
  · have hput : GuardedBut ids Process.Active
        ((w.tick env).put id { p with cascadeFlag := true, state := .stopping }) := by
      refine GuardedBut.put h howned hp (w.ages_tick env).of_empty rfl ?_
      rintro (hstate | hstate) <;> cases hstate
    exact hput

/-- Active entries other than `ids` hold a child, and no two entries share one. -/
structure ActiveBut (ids : List ProcessId) (w : World) : Prop where
  owned : Owned w
  active : GuardedBut ids Process.Active w

/-- Phases 1 and 1b: the exits found are the only exceptions. -/
theorem activeBut_cascade (hkey : ∀ i q, w.processes.lookup i = some q → q.id = i) (h : w.ActiveHeld)
    (hr : w.reaper = .running) :
    GuardedBut ((w.detect env pollInterval).1.exited.map ExitedProcess.id) Process.Active
      (w.cascade env pollInterval) := by
  have hstart : OsStep ∅ (fun _ => False) w (w.awake env pollInterval) := osStep_awake env pollInterval w
  have hmove : Move env (fun _ _ _ => True) w (w.awake env pollInterval) :=
    .frame (.of_osStep kept_refl hstart)
  have hawake := activeHeld_move h hmove
  have hkey' : ∀ i q, (w.awake env pollInterval).processes.lookup i = some q → q.id = i :=
    hstart.processes ▸ hkey
  have hdetected : Detected Process.Active (w.detect env pollInterval).1 (w.detect env pollInterval).2 :=
    detected_phase1 lively_active _ ⟨hkey', hawake.owned, hawake.held (hstart.reaper.trans hr)⟩
  have hinit : ActiveBut _ (w.detect env pollInterval).2 := ⟨hdetected.owned, hdetected.guarded⟩
  refine (Fold.foldl_invariant (I := ActiveBut _) ?_ fun w' id _ hw' =>
    ⟨owned_cascadeKill hw'.owned, activeBut_cascadeKill hw'.active hw'.owned⟩).active
  exact Fold.foldl_invariant (I := ActiveBut _) hinit fun w' _ _ hw' => ⟨{ hw'.owned with }, hw'.active⟩

theorem activeHeld_afterPhase3 (hkey : ∀ i q, w.processes.lookup i = some q → q.id = i)
    (h : w.ActiveHeld) (hr : w.reaper = .running) : (w.afterPhase3 env pollInterval).ActiveHeld := by
  refine ⟨owned_afterPhase3 hkey h.owned, fun hr' => ?_⟩
  have hexcept : GuardedBut _ Process.Active (w.passDetect env pollInterval).2.2 :=
    guardedBut_passDetect hkey (activeBut_cascade hkey h hr)
  unfold afterPhase3 ifRunning at hr' ⊢
  split_ifs at hr' ⊢ with hrunning
  · exact guarded_phase3 lively_active (owned_passDetect hkey h.owned) hexcept hr'
  · exact absurd hr' hrunning

end World

namespace System

theorem activeHeld_run (env : Env) (pollInterval : ℕ) {s : System} (hs : s.Initial)
    (actions : List Action) : (s.run env pollInterval actions).world.ActiveHeld := by
  refine run_invariant (C := fun _ _ _ => True) (D := fun _ => True) (fun _ _ => trivial) ?_
    (fun _ _ => World.activeHeld_move) ?_ hs actions ?_
  · rintro s (rfl | rfl) <;> refine ⟨⟨?_, ?_⟩, fun _ => ?_⟩ <;>
      simp [new, withReaper, World.new, World.withReaper, Guarded, GuardedBut]
  · exact fun w hsound hw _ hr => World.activeHeld_afterPhase3 hsound.key hw hr
  · exact Fold.meets_of_forall (fun _ _ => stepMeets_of_pass fun _ _ => trivial) actions s

end System

end ProcessManager
