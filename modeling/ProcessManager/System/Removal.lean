import ProcessManager.System.CustodyRun
import ProcessManager.System.Retirement

/-! Removal while other threads are at work. Between the sections of the reaper and of other
calls nothing brings a removed process back; only a call of `restart` for the same id does,
which inserts a new entry at its end. -/

namespace ProcessManager

variable {env : Env} {pollInterval : ℕ} {w w' : World} {id i : ProcessId} {p : Process}

namespace CallsRun

/-- Every id that is tracked, or that a call works on, was given out. -/
structure Known (s : CallsRun) : Prop where
  given : ∀ i, s.shared.Given i
  found : ∀ c ∈ s.threads, c.Found s.shared

/-- No call is restarting `id`. -/
def Quiet (id : ProcessId) (s : CallsRun) : Prop := ∀ c ∈ s.threads, ¬ c.Restarts id

variable {s : CallsRun}

theorem nextId_step (env : Env) (pollInterval : ℕ) (s : CallsRun) (t : Turn) :
    s.shared.nextId ≤ (s.step env pollInterval t).shared.nextId := by
  cases t with
  | start label config => exact (World.evolves_start env label config s.shared).nextId
  | stop i => exact le_rfl
  | restart i => exact le_rfl
  | call n =>
    cases hn : s.threads[n]? with
    | none => rw [step, Threads.step_of_none hn]
    | some c =>
      rw [step, Threads.step_of_some hn]
      exact (c.nextId_next env s.shared).ge
  | reaper =>
    simp only [step, ReaperPc.step]
    split_ifs
    · have h : World.Buries ⟨0⟩ _ _ := ReaperPc.buries_next env pollInterval s.reaper s.shared
      exact h.nextId
    · exact le_rfl

theorem Known.step (env : Env) (pollInterval : ℕ) (h : s.Known) (t : Turn) : (s.step env pollInterval t).Known := by
  have hle := nextId_step env pollInterval s t
  have hothers : ∀ c ∈ s.threads, c.Found (s.step env pollInterval t).shared := fun c hc => (h.found c hc).mono hle
  cases t with
  | start label config => exact ⟨fun i => (World.Buries.start env label config s.shared).given (h.given i), hothers⟩
  | stop i =>
    refine ⟨h.given, fun c hc => ?_⟩
    rcases List.mem_append.mp hc with hc | hc
    · exact hothers c hc
    · obtain rfl := List.mem_singleton.mp hc
      trivial
  | restart i =>
    refine ⟨h.given, fun c hc => ?_⟩
    rcases List.mem_append.mp hc with hc | hc
    · exact hothers c hc
    · obtain rfl := List.mem_singleton.mp hc
      trivial
  | call n =>
    cases hn : s.threads[n]? with
    | none =>
      rw [CallsRun.step, Threads.step_of_none hn]
      exact h
    | some c =>
      have hfound := h.found c (List.mem_of_getElem? hn)
      rw [CallsRun.step, Threads.step_of_some hn] at hothers ⊢
      refine ⟨fun i => c.given_next env hfound (h.given i), fun c' hc' => ?_⟩
      rcases List.mem_or_eq_of_mem_set hc' with hc' | rfl
      · exact hothers c' hc'
      · exact hfound.next env h.given (c.nextId_next env s.shared)
  | reaper =>
    refine ⟨fun i => ?_, hothers⟩
    simp only [CallsRun.step, ReaperPc.step]
    split_ifs
    · exact (s.reaper.buries_next env pollInterval s.shared).given (h.given i)
    · exact h.given i

/-- As long as nobody restarts `id`, every turn buries it. -/
theorem Quiet.buries (env : Env) (pollInterval : ℕ) (h : s.Quiet id) (t : Turn) :
    World.Buries id s.shared (s.step env pollInterval t).shared := by
  cases t with
  | start label config => exact .start env label config s.shared
  | stop i | restart i => exact .refl id s.shared
  | call n =>
    cases hn : s.threads[n]? with
    | none =>
      rw [step, Threads.step_of_none hn]
      exact .refl id s.shared
    | some c =>
      rw [step, Threads.step_of_some hn]
      exact Call.buries_next env (h c (List.mem_of_getElem? hn)) s.shared
  | reaper =>
    simp only [step, ReaperPc.step]
    split_ifs
    · exact s.reaper.buries_next env pollInterval s.shared
    · exact .refl id s.shared

theorem Quiet.step (env : Env) (pollInterval : ℕ) (h : s.Quiet id) {t : Turn} (ht : t ≠ .restart id) :
    (s.step env pollInterval t).Quiet id := by
  cases t with
  | start label config | reaper => exact h
  | stop i =>
    intro c hc
    rcases List.mem_append.mp hc with hc | hc
    · exact h c hc
    · obtain rfl := List.mem_singleton.mp hc
      exact not_false
  | restart i =>
    intro c hc hrestarts
    rcases List.mem_append.mp hc with hc | hc
    · exact h c hc hrestarts
    · obtain rfl := List.mem_singleton.mp hc
      exact ht (hrestarts.eq ▸ rfl)
  | call n =>
    cases hn : s.threads[n]? with
    | none =>
      rw [CallsRun.step, Threads.step_of_none hn]
      exact h
    | some c =>
      rw [CallsRun.step, Threads.step_of_some hn]
      intro c' hc' hrestarts
      rcases List.mem_or_eq_of_mem_set hc' with hc' | rfl
      · exact h c' hc' hrestarts
      · exact h c (List.mem_of_getElem? hn) hrestarts.of_next

/-- From `s` to `s'` nobody restarts the retired `id`, and nothing is spawned for it. -/
structure Resting (id : ProcessId) (s s' : CallsRun) : Prop where
  quiet : s'.Quiet id
  retired : s'.shared.Retired id
  spawns : Grows (fun k => k.id ≠ id) s.shared.spawns s'.shared.spawns

theorem Resting.step {s' : CallsRun} (env : Env) (pollInterval : ℕ) (h : Resting id s s') {t : Turn}
    (ht : t ≠ .restart id) : Resting id s (s'.step env pollInterval t) := by
  have hburies := h.quiet.buries env pollInterval t
  exact ⟨h.quiet.step env pollInterval ht, hburies.retired h.retired, h.spawns.trans (hburies.spawns h.retired)⟩

theorem Quiet.run (env : Env) (pollInterval : ℕ) (hid : s.Quiet id ∧ s.shared.Retired id) {turns : List Turn}
    (hturns : Turn.restart id ∉ turns) : (run env pollInterval turns s).shared.Retired id ∧
      Grows (fun k => k.id ≠ id) s.shared.spawns (run env pollInterval turns s).shared.spawns := by
  have hrun : Resting id s (CallsRun.run env pollInterval turns s) :=
    Fold.foldl_invariant (I := Resting id s) ⟨hid.1, hid.2, .refl _⟩ fun _ _ ht h =>
      h.step env pollInterval (ne_of_mem_of_not_mem ht hturns)
  exact ⟨hrun.retired, hrun.spawns⟩

/-- The `n`-th call stops `id`, and nobody restarts it. -/
structure Ending (id : ProcessId) (n : ℕ) (s : CallsRun) : Prop where
  known : s.Known
  quiet : s.Quiet id
  stop : ∃ pc, s.threads[n]? = some (.stop pc) ∧ pc.Retires id s.shared

theorem Ending.step (env : Env) (pollInterval : ℕ) {n : ℕ} (h : s.Ending id n) {t : Turn} (ht : t ≠ .restart id) :
    (s.step env pollInterval t).Ending id n := by
  refine ⟨h.known.step env pollInterval t, h.quiet.step env pollInterval ht, ?_⟩
  have hburies := h.quiet.buries env pollInterval t
  obtain ⟨pc, hpc, hretires⟩ := h.stop
  have hlt : n < s.threads.length := (List.getElem?_eq_some_iff.mp hpc).1
  cases t with
  | start label config | reaper => exact ⟨pc, hpc, hretires.mono hburies⟩
  | stop i | restart i => exact ⟨pc, (List.getElem?_append_left hlt).trans hpc, hretires.mono hburies⟩
  | call m =>
    cases hm : s.threads[m]? with
    | none =>
      rw [CallsRun.step, Threads.step_of_none hm]
      exact ⟨pc, hpc, hretires⟩
    | some c =>
      rw [CallsRun.step, Threads.step_of_some hm] at hburies ⊢
      by_cases hmn : m = n
      · subst hmn
        obtain rfl : Call.stop pc = c := Option.some.inj (hpc.symm.trans hm)
        exact ⟨_, List.getElem?_set_self hlt, hretires.next env (h.known.given id)⟩
      · exact ⟨pc, (List.getElem?_set_ne hmn).trans hpc, hretires.mono hburies⟩

theorem known_run (env : Env) (pollInterval : ℕ) (turns : List Turn) : (run env pollInterval turns initial).Known := by
  refine Fold.foldl_invariant (I := Known) ⟨fun i p hp => ?_, fun c hc => ?_⟩ fun s t _ h => h.step env pollInterval t
  · exact absurd ((AList.lookup_empty i).symm.trans hp) nofun
  · exact absurd hc List.not_mem_nil

/-- In every interleaving of the reaper with calls, once a call of `stop` has returned `Ok`, its
process is not tracked again and no child is spawned for it, unless a call restarts it. -/
theorem stop_final (env : Env) (pollInterval : ℕ) {id : ProcessId} (before during later : List Turn)
    (hquiet : (run env pollInterval before initial).Quiet id) (hturns : Turn.restart id ∉ during ++ later)
    (hstopped : ((run env pollInterval (before ++ .stop id :: during) initial).threads[
      (run env pollInterval before initial).threads.length]?).any Call.stopped = true) :
    (run env pollInterval (before ++ .stop id :: during ++ later) initial).shared.processes.lookup id = none ∧
      Grows (fun k => k.id ≠ id) (run env pollInterval (before ++ .stop id :: during) initial).shared.spawns
        (run env pollInterval (before ++ .stop id :: during ++ later) initial).shared.spawns := by
  set s := run env pollInterval before initial with hs
  set n := s.threads.length
  rw [List.mem_append, not_or] at hturns
  have hbegun : (s.step env pollInterval (.stop id)).Ending id n := by
    refine ⟨(known_run env pollInterval before).step env pollInterval _, hquiet.step env pollInterval ?_, ?_⟩
    · exact Turn.noConfusion
    · exact ⟨.call id, List.getElem?_concat_length, StopPc.retires_call id _⟩
  have hending : (run env pollInterval (before ++ .stop id :: during) initial).Ending id n := by
    rw [run, List.foldl_append, List.foldl_cons]
    exact Fold.foldl_invariant (I := Ending id n) hbegun fun s' t ht h =>
      h.step env pollInterval (ne_of_mem_of_not_mem ht hturns.1)
  obtain ⟨pc, hpc, hretires⟩ := hending.stop
  rw [hpc, Option.any_some] at hstopped
  have hgap : pc.inGap = true := by
    cases pc with
    | stopping d stage nested pending => cases hstopped
    | returned result =>
      cases result with
      | error e => cases hstopped
      | ok _ => rfl
  have hlater := Quiet.run env pollInterval ⟨hending.quiet, hretires.retired hgap⟩ hturns.2
  have hsplit : run env pollInterval (before ++ .stop id :: during ++ later) initial =
      run env pollInterval later (run env pollInterval (before ++ .stop id :: during) initial) := List.foldl_append
  rw [hsplit]
  exact ⟨hlater.1.2, hlater.2⟩

/-- The child ends when it is signalled. -/
def obeys : Env := .exitsAt [(5, ⟨0, .signal 15, 0⟩)]

/-- The reaper takes a section after each one of the stop. -/
def alternating : List Turn := (List.replicate 12 [.call 0, .reaper]).flatten

theorem stop_final_alternating :
    (run obeys 0 ([.start ⟨"web"⟩ System.brief] ++ .stop ⟨1⟩ :: alternating ++ List.replicate 30 .reaper)
      initial).shared.processes.lookup ⟨1⟩ = none := by
  have hquiet : (run obeys 0 [.start ⟨"web"⟩ System.brief] initial).Quiet ⟨1⟩ :=
    fun c hc => absurd hc List.not_mem_nil
  have hturns : Turn.restart ⟨1⟩ ∉ alternating ++ List.replicate 30 .reaper := by simp [alternating]
  exact (stop_final obeys 0 _ _ _ hquiet hturns (by decide +kernel)).1

end CallsRun

end ProcessManager
