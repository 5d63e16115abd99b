import ProcessManager.System.DepsSteps

/-! Every interleaving of calls of `start_with_deps` with the reaper and with other calls: what a
caller is told is true when it is told. -/

namespace ProcessManager

namespace System

open DepsThread

variable {env : Env} {pollInterval : ℕ} {R : Set ProcessId} {s : Threads DepsThread World} {k : ℕ}
  {id : ProcessId}

/-- The threads of a new manager, with one reaper at most. -/
structure DepsStart (s : Threads DepsThread World) : Prop where
  world : s.shared = .new ∨ s.shared = .withReaper
  fresh : ∀ t ∈ s.threads, t.Fresh
  only : ∀ (i j : ℕ) (t u : DepsThread), i ≠ j → s.threads[i]? = some t → s.threads[j]? = some u →
    ∀ pc pc', t = .reaper pc → u ≠ .reaper pc'

/-- A run of the threads. -/
abbrev depsRun (env : Env) (pollInterval : ℕ) (schedule : List ℕ) (s : Threads DepsThread World) :
    Threads DepsThread World :=
  Threads.run (DepsThread.next env pollInterval) schedule s

/-- The condition on a step. -/
def DepsMeets (env : Env) (pollInterval : ℕ) (R : Set ProcessId) (schedule : List ℕ)
    (s : Threads DepsThread World) : Prop :=
  Fold.Meets (Threads.AtStep fun t w => t.InTime w ∧ t.RestartsIn R w)
    (Threads.step (DepsThread.next env pollInterval)) schedule s

/-- The `k`-th thread is a call, and its next section returns `r`. -/
def Answers (env : Env) (s : Threads DepsThread World) (k : ℕ) (r : Except ManagerError ProcessId) : Prop :=
  ∃ pc, s.threads[k]? = some (.caller pc) ∧ pc.result = none ∧ (pc.next env s.shared).1 = .returned r

/-- The `k`-th thread is a call whose next section sets the state of `id` to `Failed`. -/
def Fails (s : Threads DepsThread World) (k : ℕ) (id : ProcessId) (p : Process) : Prop :=
  ∃ config, s.threads[k]? = some (.caller (.expired id config)) ∧ s.shared.processes.lookup id = some p

/-- What `start_with_deps` says with the step of the `k`-th thread is true, and stays so
while the others go on. -/
structure AnswersRight (env : Env) (pollInterval : ℕ) (R : Set ProcessId) (s : Threads DepsThread World)
    (k : ℕ) (later : List ℕ) : Prop where
  ok : ∀ id, Answers env s k (.ok id) → Spawns id (depsRun env pollInterval [k] s).shared
  timeout : ∀ id dep, Answers env s k (.error (.dependencyTimeout id dep)) → id ∉ R →
    ¬ HasChild id (depsRun env pollInterval [k] s).shared ∧
      ∀ c ∈ (depsRun env pollInterval (k :: later) s).shared.spawns, c.id = id →
        c ∈ (depsRun env pollInterval [k] s).shared.spawns
  fails : ∀ id p, Fails s k id p → p.child = none ∧ (id ∉ R → ¬ HasChild id s.shared)

/-- The invariant of the threads. -/
abbrev DepsInv (R : Set ProcessId) : Threads DepsThread World → Prop :=
  Threads.Inv (Steady R) (Holds R) (Apart R)

theorem DepsStart.inv (h : DepsStart s) : DepsInv R s := by
  have hclear : ∀ (i j : ℕ) (t u : DepsThread), i ≠ j → s.threads[i]? = some t → s.threads[j]? = some u →
      Clear R t u := by
    intro i j t u hij ht hu
    refine ⟨h.only i j t u hij ht hu, fun pc id hpc hout => ?_⟩
    have hfresh := h.fresh u (List.mem_of_getElem? hu)
    obtain ⟨pc', rfl⟩ : ∃ pc', u = .caller pc' := by
      cases u with
      | caller pc' => exact ⟨pc', rfl⟩
      | _ => cases hout
    obtain ⟨label, config, rfl⟩ := hfresh
    cases hout
  refine ⟨?_, fun t ht => ?_, fun i j t u hij ht hu => ⟨hclear i j t u hij ht hu, hclear j i u t hij.symm hu ht⟩⟩
  · rcases h.world with hw | hw <;> rw [hw] <;> exact .new R rfl rfl
  · have hfresh := h.fresh t ht
    cases t with
    | reaper pc =>
      cases hfresh
      exact ⟨by simp [ReaperPc.Marks, ReaperPc.exits, ReaperPc.targets],
        by simp [ReaperPc.Marks, ReaperPc.exits, ReaperPc.targets],
        by simp [ReaperPc.exits, ReaperPc.unvisited]⟩
    | caller pc =>
      obtain ⟨label, config, rfl⟩ := hfresh
      exact ⟨fun _ hwaits => (by cases hwaits), fun _ hout => (by cases hout)⟩
    | call a => exact hfresh

theorem depsInv_run (env : Env) (pollInterval : ℕ) (schedule : List ℕ) (h : DepsInv R s)
    (hmeets : DepsMeets env pollInterval R schedule s) :
    DepsInv R (depsRun env pollInterval schedule s) := by
  refine Threads.Inv.run (fun _ _ => Apart.symm) ?_ ?_ ?_ schedule h hmeets
  · exact fun t w hw ht hc => ⟨steady_next hw ht hc.1 hc.2, holds_next hw ht hc.1 hc.2⟩
  · exact fun t u w hpair hw ht hu hc => holds_other hpair hw ht hu hc.1 hc.2
  · exact fun t u w hpair hw ht hu hc => apart_next hpair hw ht hu hc.1

/-- A process whose timeout was reported is not spawned later. -/
theorem no_spawn_run {pc : DepsPc} (schedule : List ℕ) (h : DepsInv R s)
    (hmeets : DepsMeets env pollInterval R schedule s) (hk : s.threads[k]? = some (.caller pc))
    (hout : TimedOut id (.caller pc)) (hi : id ∉ R) :
    ∀ c ∈ (depsRun env pollInterval schedule s).shared.spawns, c.id = id → c ∈ s.shared.spawns := by
  induction schedule generalizing s with
  | nil => exact fun c hc _ => hc
  | cons j schedule ih =>
    have hinv := depsInv_run env pollInterval [j] h ⟨hmeets.1, trivial⟩
    cases hj : s.threads[j]? with
    | none =>
      have hstep : Threads.step (DepsThread.next env pollInterval) s j = s := Threads.step_of_none hj
      have hrest : DepsMeets env pollInterval R schedule s := hstep ▸ hmeets.2
      intro c hc hid
      refine ih h hrest hk c ?_ hid
      simpa only [depsRun, Threads.run, List.foldl_cons, hstep] using hc
    | some t =>
      have hstep : Threads.step (DepsThread.next env pollInterval) s j = _ := Threads.step_of_some hj
      have hcond := hmeets.1 t hj
      have ht := h.thread t (List.mem_of_getElem? hj)
      have hu := h.thread _ (List.mem_of_getElem? hk)
      -- the caller has returned, and stays where it is
      have hk' : (Threads.step (DepsThread.next env pollInterval) s j).threads[k]? = some (.caller pc) := by
        rw [hstep, List.getElem?_set]
        split_ifs with hjk hlt
        · subst hjk
          rw [hj] at hk
          cases hk
          obtain ⟨dep, rfl⟩ := timedOut_iff.mp hout
          rfl
        · subst hjk
          exact absurd (List.getElem?_eq_some_iff.mp hk).1 hlt
        · exact hk
      have hone : ∀ c ∈ (Threads.step (DepsThread.next env pollInterval) s j).shared.spawns, c.id = id →
          c ∈ s.shared.spawns := by
        rw [hstep]
        by_cases hjk : j = k
        · subst hjk
          rw [hj] at hk
          cases hk
          obtain ⟨dep, rfl⟩ := timedOut_iff.mp hout
          exact fun c hc _ => hc
        · obtain ⟨hinserted, hkilled, hscheduled⟩ := spares (h.pair j k t _ hjk hj hk).1 hu hout hi
          have hs := shifts_next env pollInterval h.shared ht.ne_pass hcond.1 hcond.2
          exact ((hu.2 id hout hi).shifts hs hinserted hkilled hscheduled).2
      intro c hc hid
      exact hone c (ih hinv hmeets.2 hk' c hc hid) hid

/-- In every interleaving of calls of `start_with_deps` with the sections of the reaper and
with other calls, each answer is right and no live process is failed, as long as the polls
come in time. -/
theorem startWithDeps_answers (env : Env) (pollInterval : ℕ) (R : Set ProcessId) (h : DepsStart s)
    (before : List ℕ) (k : ℕ) (later : List ℕ)
    (hmeets : DepsMeets env pollInterval R (before ++ k :: later) s) :
    AnswersRight env pollInterval R (depsRun env pollInterval before s) k later := by
  obtain ⟨hbefore, hstep, hlater⟩ := Fold.meets_append.mp hmeets
  have hinv := depsInv_run env pollInterval before h.inv hbefore
  have hinv' := depsInv_run env pollInterval [k] hinv ⟨hstep, trivial⟩
  set u := depsRun env pollInterval before s
  have hnext : ∀ {pc}, u.threads[k]? = some (.caller pc) → depsRun env pollInterval [k] u =
      ⟨u.threads.set k (.caller (pc.next env u.shared).1), (pc.next env u.shared).2⟩ :=
    fun hk => Threads.step_of_some hk
  constructor
  · rintro id ⟨pc, hk, hresult, hok⟩
    obtain ⟨hspawns, hsame⟩ := ok_cases hinv.shared (hstep _ hk).1 hresult hok
    rw [hnext hk]
    exact hsame.symm ▸ hspawns
  · rintro id dep ⟨pc, hk, hresult, htimeout⟩ hi
    obtain hout | ⟨hchildless, _, hspawns, hchildren⟩ := timeout_cases hinv.shared (hstep _ hk).1 htimeout
    · obtain ⟨dep', rfl⟩ := timedOut_iff.mp hout
      cases hresult
    · constructor
      · rw [hnext hk]
        exact fun hchild => hchildless.not_hasChild hinv.shared hi (hchild.of_same hspawns hchildren)
      · have hk' : (depsRun env pollInterval [k] u).threads[k]? =
            some (.caller (pc.next env u.shared).1) := by
          rw [hnext hk, List.getElem?_set_self (List.getElem?_eq_some_iff.mp hk).1]
        exact no_spawn_run later hinv' hlater hk' (timedOut_iff.mpr ⟨dep, htimeout⟩) hi
  · rintro id p ⟨config, hk, hp⟩
    obtain ⟨htracked, huntracked⟩ := (hstep _ hk).1
    have hchildless : Childless id u.shared := by
      refine ⟨fun q hq => ?_, huntracked⟩
      rcases htracked q hq with hwaiting | ⟨_, hnone⟩
      · exact hinv.shared.childless id q hq (.inl hwaiting)
      · exact hnone
    exact ⟨hchildless.1 p hp, hchildless.not_hasChild hinv.shared⟩

/-- `web` waits 100 ms for `dep`, which is started beside it. -/
def webWaits : Threads DepsThread World :=
  ⟨[.reaper .asleep, .caller (.called ⟨"web"⟩ { command := "/bin/web", dependsOn := [.label ⟨"dep"⟩], dependencyTimeoutMs := 100 }),
    .call (some (.start ⟨"dep"⟩ { command := "/bin/dep" }))], .withReaper⟩

/-- The calls start, and the reaper comes to the spawn of `web`. -/
def spawnDue : List ℕ := [1, 1, 2] ++ List.replicate 21 0

theorem depsStart_webWaits : DepsStart webWaits := by
  refine ⟨.inr rfl, ?_, ?_⟩
  · simp [webWaits, Fresh]
  · intro i j t u hij ht hu pc pc' ht' hu'
    have hfirst : ∀ (n : ℕ) (v : DepsThread) (c : ReaperPc), webWaits.threads[n]? = some v → v = .reaper c → n = 0 := by
      rintro n v c hv rfl
      match n with
      | 0 => rfl
      | 1 | 2 => cases hv
      | n + 3 => cases hv
    exact hij ((hfirst i t pc ht ht').trans (hfirst j u pc' hu hu').symm)

/-- The id and the kind of the answer that the `k`-th thread gives next. -/
def nextAnswer (env : Env) (s : Threads DepsThread World) (k : ℕ) : Option (ProcessId × Bool) :=
  match s.threads[k]? with
  | some (.caller pc) =>
    match pc.result, (pc.next env s.shared).1 with
    | none, .returned (.ok id) => some (id, true)
    | none, .returned (.error (.dependencyTimeout id _)) => some (id, false)
    | _, _ => none
  | _ => none

theorem answers_of_nextAnswer {b : Bool} (h : nextAnswer env s k = some (id, b)) :
    (b = true ∧ Answers env s k (.ok id)) ∨
      (b = false ∧ ∃ dep, Answers env s k (.error (.dependencyTimeout id dep))) := by
  unfold nextAnswer at h
  split at h
  · next pc hk =>
    split at h
    · next hresult hnext =>
      cases h
      exact .inl ⟨rfl, pc, hk, hresult, hnext⟩
    · next dep hresult hnext =>
      cases h
      exact .inr ⟨rfl, dep, pc, hk, hresult, hnext⟩
    · cases h
  · cases h

theorem startWithDeps_answers_webWaits :
    nextAnswer .calm (depsRun .calm (millis 50) (spawnDue ++ [0, 1]) webWaits) 1 = some (⟨1⟩, true) ∧
      AnswersRight .calm (millis 50) ∅ (depsRun .calm (millis 50) (spawnDue ++ [0, 1]) webWaits) 1 [0, 0] :=
  ⟨by decide +kernel, startWithDeps_answers .calm (millis 50) ∅ depsStart_webWaits (spawnDue ++ [0, 1]) 1 [0, 0]
    (by unfold DepsMeets; decide +kernel)⟩

/-- The reaper spawns `web` at the deadline, between the last look of the call and the poll
that ends it: the call fails the new process and reports a timeout, and its child runs on. -/
theorem not_startWithDeps_answers :
    (∃ ch, (depsRun .calm (millis 50) (spawnDue ++ [1, 1, 0, 1, 1]) webWaits).shared.children[1]? = some ch ∧
        ch.isRunning = true) ∧
      ¬ AnswersRight .calm (millis 50) ∅ (depsRun .calm (millis 50) (spawnDue ++ [1, 1, 0, 1]) webWaits) 1 [] := by
  refine ⟨by decide +kernel, fun h => ?_⟩
  have hnext : nextAnswer .calm (depsRun .calm (millis 50) (spawnDue ++ [1, 1, 0, 1]) webWaits) 1 =
    some (⟨1⟩, false) := by decide +kernel
  obtain ⟨hfalse, _⟩ | ⟨_, dep, htimeout⟩ := answers_of_nextAnswer hnext
  · cases hfalse
  · exact (h.timeout ⟨1⟩ dep htimeout (Set.notMem_empty _)).1 (by decide +kernel)

end System

end ProcessManager
