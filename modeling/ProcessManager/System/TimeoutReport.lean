import ProcessManager.System.DepsWait

/-! The dependency that a `DependencyTimeout` names. A call of `start_with_deps` looks at the state
of its own process only; when it gives up it names the first entry of `depends_on`. -/

namespace ProcessManager

namespace DepsPc

/-- The configuration of a call that has not returned. -/
def config : DepsPc → Option ProcessConfig
  | .called _ config | .started _ config | .polling _ config _ | .expired _ config | .looking _ config _ => some config
  | .returned _ => none

/-- The next section ends the call with a timeout: a poll has found its deadline reached, or the
process is `Failed`. -/
def GivesUp : DepsPc → World → Prop
  | .expired _ _, _ => True
  | .looking id _ _, w => (w.processes.lookup id).any (fun p => p.state = .failed) = true
  | _, _ => False

variable {env : Env} {w : World} {pc : DepsPc} {config : ProcessConfig} {id : ProcessId} {dep : Option DependencyRef}

/-- A section keeps the configuration or is the last one. -/
theorem next_config (env : Env) (w : World) (h : pc.config = some config) :
    (pc.next env w).1.config = some config ∨ ∃ r, (pc.next env w).1 = .returned r := by
  cases pc with
  | called label c =>
    simp only [next]
    cases (w.start env label c).1 with
    | ok id => exact .inl h
    | error e => exact .inr ⟨_, rfl⟩
  | started id c =>
    simp only [next]
    split
    · split_ifs
      · exact .inl h
      · exact .inr ⟨_, rfl⟩
    · exact .inl h
  | polling id c deadline =>
    simp only [next]
    split_ifs <;> exact .inl h
  | expired id c => exact .inr ⟨_, rfl⟩
  | looking id c deadline =>
    simp only [next]
    split
    · split
      · exact .inr ⟨_, rfl⟩
      · exact .inl h
      · exact .inr ⟨_, rfl⟩
    · exact .inr ⟨_, rfl⟩
  | returned r => cases h

/-- A call that gives up names the first dependency, and no other call reports a timeout. -/
theorem next_timeout (env : Env) (w : World) (h : pc.config = some config) :
    (∃ id, (pc.next env w).1 = .returned (.error (.dependencyTimeout id dep))) ↔
      pc.GivesUp w ∧ dep = config.dependsOn.head? := by
  cases pc with
  | called label c =>
    have hstart : ∀ id, (w.start env label c).1 ≠ .error (.dependencyTimeout id dep) :=
      fun id => World.start_ne_dependencyTimeout env label c w
    simp only [next, GivesUp, false_and, iff_false, not_exists]
    intro id hid
    cases hresult : (w.start env label c).1 with
    | ok new => simp [hresult] at hid
    | error e =>
      rw [hresult] at hid
      exact hstart id (hresult.trans (congrArg _ (Except.error.inj (DepsPc.returned.inj hid))))
  | started id c =>
    simp only [next, GivesUp, false_and, iff_false, not_exists]
    intro i
    split
    · split_ifs <;> simp
    · simp
  | polling id c deadline =>
    simp only [next, GivesUp, false_and, iff_false, not_exists]
    intro i
    split_ifs <;> simp
  | expired id c =>
    cases h
    simp [next, GivesUp, eq_comm]
  | looking id c deadline =>
    cases h
    simp only [next, GivesUp]
    cases w.processes.lookup id with
    | none => simp
    | some p =>
      simp only [Option.any_some, decide_eq_true_eq]
      generalize p.state = state
      cases state <;> simp [eq_comm]
  | returned r => cases h

end DepsPc

namespace System

open DepsThread

/-- The next step of the `k`-th thread gives up its call. -/
def GivesUp (k : ℕ) (s : Threads DepsThread World) : Prop :=
  ∃ pc, s.threads[k]? = some (.caller pc) ∧ pc.GivesUp s.shared

/-- After the first `n` steps of the schedule a dependency is missing: no process satisfies it. -/
def MissingAfter (env : Env) (pollInterval : ℕ) (s : Threads DepsThread World) (schedule : List ℕ)
    (dep : DependencyRef) (n : ℕ) : Prop :=
  ¬ Available (depsRun env pollInterval (schedule.take n) s).shared.processes dep

/-- A timeout that the `k`-th thread reports after the schedule names a dependency of its call that
was missing at some moment of the call. -/
def NamesMissing (env : Env) (pollInterval : ℕ) (k : ℕ) (schedule : List ℕ) (s : Threads DepsThread World) : Prop :=
  ∀ label config, s.threads[k]? = some (.caller (.called label config)) → ∀ id dep,
    Answers env (depsRun env pollInterval schedule s) k (.error (.dependencyTimeout id (some dep))) →
      dep ∈ config.dependsOn ∧ ∃ n, MissingAfter env pollInterval s (schedule ++ [k]) dep n

/-- If the call gives up, its first dependency was missing at some moment. -/
def FirstMissing (env : Env) (pollInterval : ℕ) (k : ℕ) (schedule : List ℕ) (s : Threads DepsThread World) : Prop :=
  ∀ label config, s.threads[k]? = some (.caller (.called label config)) →
    GivesUp k (depsRun env pollInterval schedule s) → ∀ dep, config.dependsOn.head? = some dep →
      ∃ n, MissingAfter env pollInterval s (schedule ++ [k]) dep n

variable {env : Env} {pollInterval : ℕ} {s : Threads DepsThread World} {k j : ℕ} {config : ProcessConfig}
  {label : Label} {schedule : List ℕ}

/-- The thread is a call that was made with this configuration, or one that has returned. -/
def CallsWith (k : ℕ) (config : ProcessConfig) (s : Threads DepsThread World) : Prop :=
  ∃ pc, s.threads[k]? = some (.caller pc) ∧ (pc.config = some config ∨ ∃ r, pc = .returned r)

theorem callsWith_step (env : Env) (pollInterval : ℕ) (h : CallsWith k config s) (j : ℕ) :
    CallsWith k config (Threads.step (DepsThread.next env pollInterval) s j) := by
  obtain ⟨pc, hk, hpc⟩ := h
  cases hj : s.threads[j]? with
  | none =>
    rw [Threads.step_of_none hj]
    exact ⟨pc, hk, hpc⟩
  | some t =>
    rw [Threads.step_of_some hj]
    by_cases hjk : j = k
    · subst hjk
      obtain rfl : t = .caller pc := Option.some.inj (hj.symm.trans hk)
      refine ⟨(pc.next env s.shared).1, ?_, ?_⟩
      · exact List.getElem?_set_self (List.getElem?_eq_some_iff.mp hk).1
      · obtain hconfig | ⟨r, rfl⟩ := hpc
        · exact DepsPc.next_config env s.shared hconfig
        · exact .inr ⟨r, rfl⟩
    · exact ⟨pc, (List.getElem?_set_ne hjk).trans hk, hpc⟩

theorem callsWith_run (env : Env) (pollInterval : ℕ) (h : CallsWith k config s) (schedule : List ℕ) :
    CallsWith k config (depsRun env pollInterval schedule s) :=
  Fold.foldl_invariant (I := CallsWith k config) h fun _ j _ hs => callsWith_step env pollInterval hs j

/-- In any interleaving a timeout names the first dependency of the call. -/
theorem answers_timeout_iff {dep : Option DependencyRef} (h : s.threads[k]? = some (.caller (.called label config))) :
    (∃ id, Answers env (depsRun env pollInterval schedule s) k (.error (.dependencyTimeout id dep))) ↔
      GivesUp k (depsRun env pollInterval schedule s) ∧ dep = config.dependsOn.head? := by
  obtain ⟨pc, hk, hpc⟩ := callsWith_run env pollInterval ⟨_, h, .inl rfl⟩ schedule
  have hgives : GivesUp k (depsRun env pollInterval schedule s) ↔
      pc.GivesUp (depsRun env pollInterval schedule s).shared := by
    simp only [GivesUp, hk, Option.some.injEq, DepsThread.caller.injEq, exists_eq_left']
  have hanswers : ∀ r, Answers env (depsRun env pollInterval schedule s) k r ↔
      pc.result = none ∧ (pc.next env (depsRun env pollInterval schedule s).shared).1 = .returned r := by
    intro r
    simp only [Answers, hk, Option.some.injEq, DepsThread.caller.injEq, exists_eq_left']
  simp only [hgives, hanswers]
  obtain hconfig | ⟨r, rfl⟩ := hpc
  · have hresult : pc.result = none := by
      cases pc with
      | returned r => cases hconfig
      | _ => rfl
    simp only [hresult, true_and]
    exact DepsPc.next_timeout env _ hconfig
  · simp [DepsPc.result, DepsPc.GivesUp]

/-- The report of a call is right exactly when the first dependency was missing at some moment, or
the call does not give up. -/
theorem namesMissing_iff (env : Env) (pollInterval : ℕ) (k : ℕ) (schedule : List ℕ) (s : Threads DepsThread World) :
    NamesMissing env pollInterval k schedule s ↔ FirstMissing env pollInterval k schedule s := by
  refine forall_congr' fun label => forall_congr' fun config => imp_congr_right fun hk => ?_
  constructor
  · intro h hgives dep hdep
    obtain ⟨id, hid⟩ := (answers_timeout_iff hk).mpr ⟨hgives, hdep.symm⟩
    exact (h id dep hid).2
  · intro h id dep hid
    obtain ⟨hgives, hdep⟩ := (answers_timeout_iff hk).mp ⟨id, hid⟩
    exact ⟨List.mem_of_mem_head? hdep.symm, h hgives dep hdep.symm⟩

/-- A database that runs, and a call that waits 100 ms for it and for a cache that nobody starts. -/
def cacheMissing : Threads DepsThread World :=
  depsRun .calm 0 [0, 1]
    ⟨[.call (some (.start ⟨"db"⟩ { command := "/bin/db" })), .call (some (.query ⟨1⟩)),
      .caller (.called ⟨"web"⟩
        { command := "/bin/web", dependsOn := [.label ⟨"db"⟩, .label ⟨"cache"⟩], dependencyTimeoutMs := 100 })], .new⟩

/-- The dependency that the `k`-th thread would name next. -/
def namedNext (env : Env) (k : ℕ) (s : Threads DepsThread World) : Option DependencyRef :=
  match s.threads[k]? with
  | some (.caller pc) =>
    match pc.result, (pc.next env s.shared).1 with
    | none, .returned (.error (.dependencyTimeout _ dep)) => dep
    | _, _ => none
  | _ => none

theorem answers_of_namedNext {dep : DependencyRef} (h : namedNext env k s = some dep) :
    ∃ id, Answers env s k (.error (.dependencyTimeout id (some dep))) := by
  unfold namedNext at h
  split at h
  · next pc hk =>
    split at h
    · next id _ hresult hnext =>
      subst h
      exact ⟨id, pc, hk, hresult, hnext⟩
    · cases h
  · cases h

/-- The database runs throughout the call, and the call reports that the database was not ready. -/
theorem not_namesMissing :
    namedNext .calm 2 (depsRun .calm 0 (.replicate 7 2) cacheMissing) = some (.label ⟨"db"⟩) ∧
      (∀ n, ¬ MissingAfter .calm 0 cacheMissing (.replicate 7 2 ++ [2]) (.label ⟨"db"⟩) n) ∧
      ¬ NamesMissing .calm 0 2 (.replicate 7 2) cacheMissing := by
  have hnamed : namedNext .calm 2 (depsRun .calm 0 (.replicate 7 2) cacheMissing) = some (.label ⟨"db"⟩) := by
    decide +kernel
  have hmoments : ∀ m < 9, Available (depsRun .calm 0 (.replicate m 2) cacheMissing).shared.processes
      (.label ⟨"db"⟩) := by decide +kernel
  have hpresent : ∀ n, ¬ MissingAfter .calm 0 cacheMissing (.replicate 7 2 ++ [2]) (.label ⟨"db"⟩) n := by
    intro n hmissing
    apply hmissing
    rw [show List.replicate 7 2 ++ [2] = List.replicate 8 2 from rfl, List.take_replicate]
    exact hmoments _ (by omega)
  refine ⟨hnamed, hpresent, fun h => ?_⟩
  obtain ⟨id, hid⟩ := answers_of_namedNext hnamed
  obtain ⟨n, hn⟩ := (h ⟨"web"⟩ { command := "/bin/web", dependsOn := [.label ⟨"db"⟩, .label ⟨"cache"⟩], dependencyTimeoutMs := 100 }
    rfl id _ hid).2
  exact hpresent n hn

end System

end ProcessManager
