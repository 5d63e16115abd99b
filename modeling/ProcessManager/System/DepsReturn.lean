import ProcessManager.System.Clock

/-! How long a call of `start_with_deps` takes. Between two looks at its process it sleeps, so
the clock brings every deadline closer by as much, whatever other threads do in between. -/

namespace ProcessManager

variable {c c' : Instant} {env : Env} {w : World}

namespace DepsPc

theorem clock_le_next (env : Env) (pc : DepsPc) (w : World) : w.clock ≤ (pc.next env w).2.clock := by
  cases pc with
  | called label config => exact World.clock_le_start env label config w
  | started id config =>
    simp only [next]
    split
    · split_ifs
      · exact w.clock_le_tick env
      · exact le_rfl
    · exact w.clock_le_tick env
  | polling id config deadline => exact w.clock_le_tick env
  | expired id config =>
    simp only [next]
    split <;> exact le_rfl
  | looking id config deadline =>
    simp only [next]
    split
    · split
      · exact le_rfl
      · exact (Nat.le_add_right _ _).trans (w.le_clock_sleep env (millis 50))
      · exact le_rfl
    · exact le_rfl
  | returned r => exact le_rfl

/-- The polls that can start before the deadline, with pauses of `pause`. -/
def polls (pause remaining : ℕ) : ℕ := (remaining + (pause - 1)) / pause

/-- The sections that the call has left at most, when the clock shows `c`. -/
def left (pause : ℕ) (c : Instant) : DepsPc → ℕ
  | .called _ config => 2 * polls pause (millis config.dependencyTimeoutMs) + 4
  | .started _ config => 2 * polls pause (millis config.dependencyTimeoutMs) + 3
  | .polling _ _ deadline => 2 * polls pause (deadline - c) + 2
  | .expired _ _ => 1
  | .looking _ _ deadline => 2 * polls pause (deadline - (c + pause)) + 3
  | .returned _ => 0

theorem polls_millis (n : ℕ) : polls (millis 50) (millis n) = (n + 49) / 50 := by
  simp only [polls, millis]
  omega

theorem polls_mono {a b : ℕ} (pause : ℕ) (h : a ≤ b) : polls pause a ≤ polls pause b :=
  Nat.div_le_div_right (Nat.add_le_add_right h _)

theorem left_anti (pause : ℕ) (h : c ≤ c') (pc : DepsPc) : pc.left pause c' ≤ pc.left pause c := by
  cases pc with
  | called | started | expired | returned => exact le_rfl
  | polling id config deadline =>
    have hpolls := polls_mono pause (Nat.sub_le_sub_left h deadline)
    exact Nat.add_le_add_right (Nat.mul_le_mul_left 2 hpolls) 2
  | looking id config deadline =>
    have hpolls := polls_mono pause (Nat.sub_le_sub_left (Nat.add_le_add_right h pause) deadline)
    exact Nat.add_le_add_right (Nat.mul_le_mul_left 2 hpolls) 3

/-- A poll before the deadline leaves one less. -/
theorem polls_sleep {pause now deadline : ℕ} (hpause : 0 < pause) (h : now < deadline) :
    polls pause (deadline - (now + pause)) + 1 ≤ polls pause (deadline - now) := by
  unfold polls
  by_cases hlast : deadline ≤ now + pause
  · rw [Nat.sub_eq_zero_of_le hlast, Nat.div_eq_of_lt (by omega)]
    exact Nat.div_pos (by omega) hpause
  · rw [← Nat.add_div_right _ hpause]
    exact Nat.div_le_div_right (by omega)

theorem left_started (pause : ℕ) (c c' : Instant) (label : Label) (id : ProcessId) (config : ProcessConfig) :
    left pause c' (.started id config) ≤ left pause c (.called label config) - 1 := by
  simp only [left]
  generalize polls pause (millis config.dependencyTimeoutMs) = n
  omega

theorem left_polling (pause : ℕ) (c c' : Instant) (id : ProcessId) (config : ProcessConfig) :
    left pause c' (.polling id config (c' + millis config.dependencyTimeoutMs)) ≤
      left pause c (.started id config) - 1 := by
  simp only [left]
  rw [Nat.add_sub_cancel_left]
  generalize polls pause (millis config.dependencyTimeoutMs) = n
  omega

/-- Each section of the call uses one up. -/
theorem left_next {pause : ℕ} (hpause : millis 50 = pause) (env : Env) (pc : DepsPc) (w : World) :
    (pc.next env w).1.left pause (pc.next env w).2.clock ≤ pc.left pause w.clock - 1 := by
  have hpos : 0 < pause := hpause ▸ by decide
  cases pc with
  | called label config =>
    simp only [next]
    cases (w.start env label config).1 with
    | ok id => exact left_started pause _ _ label id config
    | error e => exact Nat.zero_le _
  | started id config =>
    have hwait := left_polling pause w.clock (w.tick env).clock id config
    simp only [next]
    split
    · split_ifs
      · exact hwait
      · exact Nat.zero_le _
    · exact hwait
  | polling id config deadline =>
    have htick := polls_mono pause (Nat.sub_le_sub_left (w.clock_le_tick env) deadline)
    simp only [next]
    split_ifs with hdeadline
    · simp [left]
    · have hsleep := polls_sleep hpos (not_le.mp hdeadline)
      simp only [left]
      omega
  | expired id config => exact le_rfl
  | looking id config deadline =>
    have hsleep := left_anti pause (w.le_clock_sleep env pause) (.polling id config deadline)
    simp only [next, hpause]
    split
    · split
      · exact Nat.zero_le _
      · exact hsleep
      · exact Nat.zero_le _
    · exact Nat.zero_le _
  | returned r => exact le_rfl

theorem left_eq_zero {pause : ℕ} {pc : DepsPc} (h : pc.left pause c = 0) : ∃ r, pc = .returned r := by
  cases pc with
  | returned r => exact ⟨r, rfl⟩
  | _ => simp [left] at h

end DepsPc

namespace DepsThread

theorem clock_le_next (env : Env) (pollInterval : ℕ) (t : DepsThread) (w : World) :
    w.clock ≤ (t.next env pollInterval w).2.clock := by
  cases t with
  | reaper pc => exact ReaperPc.clock_le_step env pollInterval (pc, w)
  | caller pc => exact pc.clock_le_next env w
  | call a =>
    cases a with
    | none => exact le_rfl
    | some a => exact System.clock_le_step env pollInterval ⟨w, []⟩ a

/-- The sections that a call of `start_with_deps` has left at most. -/
def left : DepsThread → World → ℕ
  | .caller pc, w => pc.left (millis 50) w.clock
  | _, _ => 0

/-- The thread is a call of `start_with_deps`. -/
def IsCaller (t : DepsThread) : Prop := ∃ pc, t = .caller pc

end DepsThread

namespace System

/-- A call of `start_with_deps` has returned after two of its own sections for each 50 ms of its timeout
and four more, whatever sections of other threads run in between. That a section may wait for a guard
is not counted. -/
theorem startWithDeps_returns (env : Env) (pollInterval : ℕ) {s : Threads DepsThread World} {k : ℕ} {label : Label}
    {config : ProcessConfig} (hk : s.threads[k]? = some (.caller (.called label config))) (schedule : List ℕ)
    (hcount : 2 * ((config.dependencyTimeoutMs + 49) / 50) + 4 ≤ schedule.count k) :
    ∃ r, (Threads.run (DepsThread.next env pollInterval) schedule s).threads[k]? = some (.caller (.returned r)) := by
  have hself : ∀ (t : DepsThread) (w : World), t.IsCaller → (t.next env pollInterval w).1.IsCaller ∧
      (t.next env pollInterval w).1.left (t.next env pollInterval w).2 ≤ t.left w - 1 := by
    rintro _ w ⟨pc, rfl⟩
    exact ⟨⟨_, rfl⟩, DepsPc.left_next rfl env pc w⟩
  have hother : ∀ (t u : DepsThread) (w : World), u.IsCaller → u.left (t.next env pollInterval w).2 ≤ u.left w := by
    rintro t _ w ⟨pc, rfl⟩
    exact DepsPc.left_anti (millis 50) (t.clock_le_next env pollInterval w) pc
  obtain ⟨_, hk', ⟨pc, rfl⟩, hleft⟩ := Threads.countdown (P := DepsThread.IsCaller) DepsThread.left hself hother schedule hk ⟨_, rfl⟩
  have htotal : DepsThread.left (.caller (.called label config)) s.shared ≤ schedule.count k := by
    rw [DepsThread.left, DepsPc.left, DepsPc.polls_millis]
    exact hcount
  have hnone := Nat.le_zero.mp (hleft.trans_eq (Nat.sub_eq_zero_of_le htotal))
  obtain ⟨r, rfl⟩ := DepsPc.left_eq_zero hnone
  exact ⟨r, hk'⟩

/-- A call with a timeout of 100 ms has returned after eight sections. -/
theorem startWithDeps_returns_webWaits :
    ∃ r, (Threads.run (DepsThread.next .calm (millis 50)) (spawnDue ++ [1, 1, 0, 1, 1, 0, 1, 1])
      webWaits).threads[1]? = some (.caller (.returned r)) := by
  have hcount : 2 * ((100 + 49) / 50) + 4 ≤ (spawnDue ++ [1, 1, 0, 1, 1, 0, 1, 1]).count 1 := by decide
  exact startWithDeps_returns .calm (millis 50) rfl _ hcount

end System

end ProcessManager
