import ProcessManager.Reaper.Verdicts
import ProcessManager.System.Run

/-! Processes that wait although nothing is missing. A `Waiting` process whose dependencies
are all available is spawned in the same pass exactly when its bound ids and its covered
dependencies are equal in number. An id that covers two dependencies at once, such as one
that is named by its id and found by its label, keeps the count short, and the process
waits until it times out. -/

namespace ProcessManager

namespace System

/-- Waits for `db`, which it finds by its label. -/
def once : ProcessConfig := { command := "/bin/web", dependsOn := [.label ⟨"db"⟩] }

/-- Waits for `db`, which it finds by its label and also names by its id. -/
def twice : ProcessConfig := { once with dependsOn := [.label ⟨"db"⟩, .id ⟨2⟩] }

/-- The second pass reaches Phase 5 with `web` in `Waiting` and `db` in `Running`. -/
def afterDb (config : ProcessConfig) : World :=
  (withReaper.run .calm 0 [.start ⟨"web"⟩ config, .pass,
    .start ⟨"db"⟩ { command := "/bin/db" }]).world.beforePhase5 .calm 0

end System

namespace World

variable {env : Env} {id : ProcessId} {w : World}

/-- Phase 5 attempts to spawn a ready process exactly when its counts match. -/
theorem mem_toSpawn_iff {p : Process} (h : Ready env id p w) :
    id ∈ (w.verdicts env).1.toSpawn ↔ CountsMatch w.processes p := by
  have hmem : id ∈ w.waitingIds :=
    AssocMap.mem_keysWhere.mpr ⟨p, h.tracked, by simpa using h.waiting⟩
  obtain ⟨pre, post, hids, hpre⟩ := List.eq_append_cons_of_mem hmem
  have hnodup : (pre ++ id :: post).Nodup := hids ▸ AssocMap.nodup_keysWhere _ _
  have hpost : id ∉ post := (List.nodup_cons.mp hnodup.of_append_right).1
  have htake : w.waitingIds.takeWhile (· ≠ id) = pre := by
    have hne : ∀ i ∈ pre, decide (i ≠ id) = true := by
      intro i hi
      simp only [ne_eq, decide_not, Bool.not_eq_true', decide_eq_false_iff_not]
      rintro rfl
      exact hpre hi
    rw [hids, List.takeWhile_append_of_pos hne]
    simp
  have hin := h.inTime
  rw [visitedIn, htake] at hin
  rw [verdicts_eq, hids]
  generalize hstart : ((⟨[], []⟩ : Verdicts), w.touch .shared w.processes.keys) = start at hin ⊢
  have hview : view (examineAll env pre start).2.processes = view w.processes := by
    rw [view_examineAll, ← hstart]
    rfl
  have hlookup : (examineAll env pre start).2.processes.lookup id = some p := by
    rw [lookup_examineAll hpre, ← hstart]
    exact h.tracked
  have hnone : id ∉ (examineAll env pre start).1.toSpawn := by
    rw [mem_toSpawn_examineAll hpre, ← hstart]
    simp
  have hvisit := mem_toSpawn_examine (v := (examineAll env pre start).1) hlookup hin
    (by unfold AllRunning; rw [isRunningDep_congr hview]; exact h.bound)
    (fun dep hdep => (available_congr hview dep).mpr (h.available dep hdep)) hnone
  have hfold : examineAll env (pre ++ id :: post) start =
      examineAll env post (examine env id (examineAll env pre start)) := by
    simp [examineAll]
  rw [hfold, mem_toSpawn_examineAll hpost, hvisit, CountsMatch, isBound_congr hview]
  rfl

/-- A process that names `db` once is spawned by the pass that first finds it `Running`. -/
theorem mem_toSpawn_once :
    (⟨1⟩ : ProcessId) ∈ ((System.afterDb System.once).verdicts .calm).1.toSpawn :=
  (mem_toSpawn_iff
    { tracked := (Option.some_get (by decide +kernel :
        ((System.afterDb System.once).processes.lookup ⟨1⟩).isSome)).symm
      waiting := by decide +kernel
      inTime := by decide +kernel
      bound := by decide +kernel
      available := by decide +kernel }).mpr (by unfold CountsMatch; decide +kernel)

/-- A process that names `db` twice is left in `Waiting`. -/
theorem not_mem_toSpawn_twice :
    ∃ p, Ready .calm ⟨1⟩ p (System.afterDb System.twice) ∧
      ⟨1⟩ ∉ ((System.afterDb System.twice).verdicts .calm).1.toSpawn :=
  ⟨_, { tracked := (Option.some_get (by decide +kernel :
          ((System.afterDb System.twice).processes.lookup ⟨1⟩).isSome)).symm
        waiting := by decide +kernel
        inTime := by decide +kernel
        bound := by decide +kernel
        available := by decide +kernel }, by decide +kernel⟩

end World

end ProcessManager
