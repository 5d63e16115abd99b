import ProcessManager.System.EvolutionRun

/-! What an id and a number of an entry mean over whole runs: an id that was given out
belongs to one process for good, also after that process is removed, and the numbers tell
`RestForOne` which members of a group were started after the one that ended. -/

namespace ProcessManager

variable {env : Env} {w w' : World} {id : ProcessId} {p p' : Process}

namespace World

/-! ### Ids -/

/-- The id was given out, and its process is no longer tracked. -/
def Retired (w : World) (id : ProcessId) : Prop :=
  id.raw < w.nextId ∧ w.processes.lookup id = none

instance (w : World) (id : ProcessId) : Decidable (w.Retired id) := inferInstanceAs (Decidable (_ ∧ _))

theorem Retired.not_concerns {Q : Process → Prop} (h : w.Retired id) : ¬ w.Concerns id Q := by
  rintro (⟨p, hp, _⟩ | hnew)
  · rw [h.2] at hp
    cases hp
  · exact hnew.not_gt h.1

theorem Retired.evolves (h : w.Retired id) (hevolves : w.Evolves w') : w'.Retired id := by
  refine ⟨h.1.trans_le hevolves.nextId, Option.eq_none_iff_forall_ne_some.mpr fun p' hp' => ?_⟩
  exact h.not_concerns (hevolves.entries id p' hp')

/-- What concerns a process that was tracked is what its entry then says. -/
theorem Concerns.of_tracked {Q : Process → Prop} (hp : w.processes.lookup id = some p)
    (hid : id.raw < w.nextId) (h : w.Concerns id Q) : Q p := by
  obtain ⟨q, hq, hQ⟩ | hnew := h
  · obtain rfl : p = q := Option.some.inj (hp.symm.trans hq)
    exact hQ
  · exact absurd hid hnew.not_gt

/-! ### The first origin of a group -/

end World

namespace System

variable (env : Env) (pollInterval : ℕ)

/-- An id is given to one process only: after that process was removed, nothing that the
manager does in any run concerns the id again. -/
theorem retired_stays {s : System} (hs : s.Initial) (before later : List Action)
    (hid : (s.run env pollInterval before).world.Retired id) :
    (s.run env pollInterval (before ++ later)).world.processes.lookup id = none ∧
      Grows (fun k => k.id ≠ id) (s.run env pollInterval before).world.spawns
        (s.run env pollInterval (before ++ later)).world.spawns ∧
      Grows (fun k => k.id ≠ id) (s.run env pollInterval before).world.kills
        (s.run env pollInterval (before ++ later)).world.kills ∧
      Grows (fun k => k.event.id ≠ id) (s.run env pollInterval before).world.sends
        (s.run env pollInterval (before ++ later)).world.sends := by
  have h := evolves_between env pollInterval hs before later
  refine ⟨(hid.evolves h).2, h.spawns.mono ?_, h.kills.mono ?_, h.sends.mono ?_⟩ <;>
    · rintro k hk rfl
      exact hid.not_concerns hk

/-- A process that is restarted on every crash and killed at once when it is stopped. -/
def brief : ProcessConfig := { command := "/bin/web", restartOnExit := true, terminateTimeoutMs := 0 }

/-- A process is stopped, and its label is started again. -/
theorem retired_stays_stop :
    (withReaper.run .calm 0 [.start ⟨"web"⟩ brief, .stop ⟨1⟩]).world.Retired ⟨1⟩ ∧
      (withReaper.run .calm 0 ([.start ⟨"web"⟩ brief, .stop ⟨1⟩] ++
        [.start ⟨"web"⟩ brief, .pass])).world.processes.lookup ⟨1⟩ = none := by
  have hretired : (withReaper.run .calm 0 [.start ⟨"web"⟩ brief, .stop ⟨1⟩]).world.Retired ⟨1⟩ := by
    decide +kernel
  exact ⟨hretired, (retired_stays .calm 0 (.inr rfl) [.start ⟨"web"⟩ brief, .stop ⟨1⟩] _ hretired).1⟩

/-- As long as an id is tracked in a run, also across `restart`, it stands for the same label
and configuration. Whatever is spawned for it is spawned from that configuration, and every
event for it names the label and reports an end. -/
theorem identity_kept {s : System} (hs : s.Initial) (before later : List Action)
    (hp : (s.run env pollInterval before).world.processes.lookup id = some p) :
    (p.id = id ∧ p.terminateOnExit = p.config.terminateOnExit) ∧
      (∀ p', (s.run env pollInterval (before ++ later)).world.processes.lookup id = some p' →
        p.Alike p') ∧
      Grows (fun k => k.id = id → k.config = p.config) (s.run env pollInterval before).world.spawns
        (s.run env pollInterval (before ++ later)).world.spawns ∧
      Grows (fun k => k.event.id = id → k.event.Describes p) (s.run env pollInterval before).world.sends
        (s.run env pollInterval (before ++ later)).world.sends := by
  have h := evolves_between env pollInterval hs before later
  have hfiled := (evolves_run env pollInterval before (filed_of_initial hs)).filed (filed_of_initial hs)
  have hid : id.raw < (s.run env pollInterval before).world.nextId :=
    (sound_run env pollInterval hs before).below id p hp
  refine ⟨hfiled id p hp, fun p' hp' => ?_, h.spawns.mono ?_, h.sends.mono ?_⟩
  · exact World.Concerns.of_tracked (Q := (·.Alike p')) hp hid (h.entries id p' hp')
  · rintro k hk rfl
    exact hk.of_tracked hp hid
  · rintro k hk rfl
    exact hk.of_tracked hp hid

/-- The first child crashes while the reaper sleeps. -/
def webCrashes : Env := .exitsAt [(2, ⟨0, .code 1, 0⟩)]

/-- The process crashes, a pass respawns it, and `restart` puts it back. -/
theorem identity_kept_restart :
    ∃ p p', (withReaper.run webCrashes 0 [.start ⟨"web"⟩ brief]).world.processes.lookup ⟨1⟩ = some p ∧
      (withReaper.run webCrashes 0 ([.start ⟨"web"⟩ brief] ++ [.pass, .restart ⟨1⟩])).world.processes.lookup
        ⟨1⟩ = some p' ∧ p.spawnSequence ≠ p'.spawnSequence ∧ p.Alike p' := by
  have hbefore : (((withReaper.run webCrashes 0 [.start ⟨"web"⟩ brief]).world.processes.lookup ⟨1⟩).map
      Process.spawnSequence) = some 1 := by decide +kernel
  have hafter : (((withReaper.run webCrashes 0 ([.start ⟨"web"⟩ brief] ++
      [.pass, .restart ⟨1⟩])).world.processes.lookup ⟨1⟩).map Process.spawnSequence) = some 2 := by
    decide +kernel
  obtain ⟨p, hp, hn⟩ := Option.map_eq_some_iff.mp hbefore
  obtain ⟨p', hp', hn'⟩ := Option.map_eq_some_iff.mp hafter
  refine ⟨p, p', hp, hp', by rw [hn, hn']; decide, ?_⟩
  exact (identity_kept webCrashes 0 (.inr rfl) [.start ⟨"web"⟩ brief] _ hp).2.1 p' hp'

/-! ### Numbers -/

end System

end ProcessManager
