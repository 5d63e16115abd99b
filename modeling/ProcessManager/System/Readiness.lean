import ProcessManager.System.Coverage
import ProcessManager.System.Run

/-! A child is spawned for a process only while the dependencies of the process are met:
by `start` and `perform_restart` because they poll every bound id first, by Phase 5
because of the coverage invariant. An explicit `restart` does not look at dependencies. -/

namespace ProcessManager

/-- Entries under their own id, ids below the counter, covered `Waiting` entries, and
spawns that were ready. -/
structure Sound (w : World) : Prop where
  key : ∀ i q, w.processes.lookup i = some q → q.id = i
  below : ∀ i q, w.processes.lookup i = some q → i.raw < w.nextId
  counted : ∀ i q, w.processes.lookup i = some q → q.state = .waiting →
    Counted w.processes w.nextId q
  ready : ∀ k ∈ w.spawns, k.site ≠ .restart → k.Ready

namespace Sound

variable {env : Env} {w w' : World} {id : ProcessId} {p p' : Process}
  {R : ProcessId → Process → Process → Prop} {S : Set ℕ} {P : KillCall → Prop}

/-- The general step: ids are new or keep their label, and what is in `Waiting` was so
before or is covered now. -/
theorem step (h : Sound w) (hn : w.nextId ≤ w'.nextId)
    (hkey : ∀ i q', w'.processes.lookup i = some q' → q'.id = i)
    (hrelabels : Relabels w.nextId w'.nextId w.processes w'.processes)
    (hwaiting : ∀ i q', w'.processes.lookup i = some q' → q'.state = .waiting →
      (∃ q, w.processes.lookup i = some q ∧ q.state = .waiting ∧
        q'.resolvedDeps = q.resolvedDeps ∧ q'.config = q.config) ∨
      Counted w'.processes w'.nextId q')
    (hspawns : Grows (fun k => k.site ≠ .restart → k.Ready) w.spawns w'.spawns) : Sound w' where
  key := hkey
  below i q' hq' := by
    rcases hrelabels i q' hq' with ⟨_, hlt⟩ | ⟨q, hq, _⟩
    · exact hlt
    · exact (h.below i q hq).trans_le hn
  counted i q' hq' hstate := by
    rcases hwaiting i q' hq' hstate with ⟨q, hq, hw, hdeps, hconfig⟩ | hcounted
    · have hcounted := counted_of_relabels hrelabels hn h.below (h.counted i q hq hw)
      unfold Counted at hcounted ⊢
      rw [hdeps, hconfig]
      exact hcounted
    · exact hcounted
  ready := hspawns.forall_mem h.ready

/-- Steps that change entries one at a time. -/
theorem mapStep (hR : ∀ i q q', R i q q' → KeepsDeps i q q') (hstep : MapStep R S P w w')
    (h : Sound w) : Sound w' := by
  refine h.step hstep.nextId.ge ?_ ?_ ?_ (.of_eq hstep.spawns) <;> intro i q' hq' <;>
    obtain ⟨q, hq, hr⟩ := hstep.processes i q' hq'
  · exact (hR i q q' hr).id.trans (h.key i q hq)
  · exact .inr ⟨q, hq, (hR i q q' hr).label.symm⟩
  · exact fun hw => .inl ⟨q, hq, (hR i q q' hr).waiting hw⟩

theorem osStep (hstep : OsStep S P w w') (h : Sound w) : Sound w' :=
  h.mapStep (fun _ _ _ hr => hr) (.of_osStep KeepsDeps.refl hstep)

theorem kept (hstep : MapStep Kept S P w w') (h : Sound w) : Sound w' :=
  h.mapStep (fun i q q' (hr : q' = q) => by rw [hr]; exact KeepsDeps.refl i q) hstep

/-- An entry is written back through its guard. -/
theorem put (hstep : OsStep S P w w') (hp : w.processes.lookup id = some p)
    (hkeeps : KeepsDeps id p p') (h : Sound w) : Sound (w'.put id p') :=
  h.mapStep (fun _ _ _ hr => hr) (.put KeepsDeps.refl hstep hp hkeeps)

theorem unlock {m : Guards.Mode} (h : Sound w) : Sound (w.unlock m id) := { h with }

theorem lock {m : Guards.Mode} (h : Sound w) : Sound (w.lock m id) := { h with }

theorem touch {m : Guards.Mode} {ids : List ProcessId} (h : Sound w) : Sound (w.touch m ids) :=
  { h with }

theorem bumpSequence (h : Sound w) : Sound w.bumpSequence := { h with }

/-- A spawn that was ready. -/
theorem spawned {site : SpawnSite} {config : ProcessConfig} {deps : List ProcessId}
    (hspawn : Spawned env site id config deps w w')
    (hready : site ≠ .restart → Satisfied w.processes config.dependsOn deps) (h : Sound w) :
    Sound w' := by
  obtain ⟨program, hspawns⟩ := hspawn.spawns
  refine h.step hspawn.nextId.ge ?_ ?_ ?_ ?_
  · exact fun i q hq => h.key i q (hspawn.processes ▸ hq)
  · exact fun i q hq => .inr ⟨q, hspawn.processes ▸ hq, rfl⟩
  · exact fun i q hq hw => .inl ⟨q, hspawn.processes ▸ hq, hw, rfl, rfl⟩
  · rw [hspawns]
    exact .cons _ hready

/-! ### Phases 1 to 3 -/

theorem phase1 {now : Instant} (h : Sound w) : Sound (w.phase1 env now).2 := by
  refine Fold.foldl_invariant (I := fun x : Exits × World => Sound x.2) h ?_
  rintro ⟨x, w⟩ id - (h : Sound w)
  obtain ⟨_, heq⟩ | ⟨p, w', hp, _, ⟨c, status, hc, _, rfl, heq⟩ | ⟨hstep, _, heq⟩⟩ :=
    World.phase1Visit_cases env now id x w <;> rw [heq]
  · exact h.lock.unlock
  · have htry := (w.lock .exclusive id).osStep_tryWait (S := {c}) (P := fun _ => True) env rfl
    exact .unlock (.put htry hp ⟨by simp, by simp, fun hw => ⟨by simpa using hw, by simp, by simp⟩⟩ h.lock)
  · refine .unlock (.put hstep hp ?_ h.lock)
    split_ifs
    · exact .of_not_waiting (by simp) (by simp) (by simp)
    · exact ⟨by simp, by simp, fun hw => ⟨by simpa using hw, by simp, by simp⟩⟩

theorem phase1b {origins : List CascadeOrigin} (h : Sound w) : Sound (w.phase1b env origins) := by
  refine Fold.foldl_invariant (I := Sound) (Fold.foldl_invariant (I := Sound) h ?_) ?_
  · exact fun w o _ h => h.touch
  · intro w id _ h
    obtain ⟨_, heq⟩ | ⟨p, hp, hpid, heq⟩ := World.cascadeKill_cases env id w <;> rw [heq]
    · exact h.lock.unlock
    · exact .unlock (.put (S := ∅) (P := fun _ => True) (World.osStep_kill env trivial) hp
        (.of_not_waiting rfl rfl (by simp)) h.lock)

theorem phase3 {now : Instant} {exited : List ExitedProcess} (h : Sound w) :
    Sound (w.phase3 env now exited) := by
  refine Fold.foldl_invariant (I := Sound) h fun w e _ h => World.ifRunning_invariant h fun _ => ?_
  obtain ⟨heq, _⟩ | ⟨heq, _⟩ | ⟨config, label, p, w', _, hp, hstep, hcases⟩ :=
    World.scheduleEntry_cases (P := fun _ => True) env now e w
  · rw [heq]; exact h
  · rw [heq]; exact h.lock.unlock
  · obtain ⟨_, heq⟩ | ⟨rs, rs', _, _, heq⟩ | ⟨rs, _, _, heq⟩ := hcases <;> rw [heq]
    · exact .unlock (.put hstep hp (.of_not_waiting rfl rfl (by simp)) h.lock)
    · exact .unlock (.put hstep hp (.of_not_waiting rfl rfl (by simp)) h.lock)
    · have hput : Sound (w'.put e.id
          { p with child := none, restartState := some rs.recordRestart }) :=
        .put hstep hp ⟨rfl, rfl, fun hw => ⟨hw, rfl, rfl⟩⟩ h.lock
      exact { hput with }

/-! ### Phase 4 -/

/-- Whatever entry a respawn finds, it only has to be the same process. -/
theorem respawn (hsame : ∀ q, w.processes.lookup id = some q → p.id = q.id ∧ p.label = q.label)
    (hready : Satisfied w.processes p.config.dependsOn p.resolvedDeps) (h : Sound w) :
    Sound (w.respawn env id p) := by
  obtain ⟨w', hstep, heq⟩ | ⟨w', now, hspawn, heq⟩ := World.respawn_cases (P := fun _ => True) env id p w <;> rw [heq]
  · exact (h.osStep hstep).kept (S := ∅) (P := fun _ => True) (World.mapStep_failSpawn _ _ _)
  · refine .unlock ((h.spawned hspawn fun _ => hready).mapStep (fun _ _ _ hr => hr)
      (.put_of (S := ∅) (P := fun _ => True) KeepsDeps.refl (.refl w') fun q hq => ?_))
    obtain ⟨hid, hlabel⟩ := hsame q (hspawn.processes ▸ hq)
    exact .of_not_waiting hid hlabel (by simp)

end Sound

/-- What `all_deps_running` polled last still holds when the child is spawned. -/
theorem satisfied_of_allDepsRunning {env : Env} {w : World} {deps : List DependencyRef}
    {resolved : List ProcessId} (hresolved : resolvedOrDefault w.processes deps = resolved)
    (hlength : resolved.length = deps.length) (h : (w.allDepsRunning env resolved).1 = true) :
    Satisfied (w.allDepsRunning env resolved).2.processes deps resolved := by
  obtain ⟨hrunning, _⟩ := World.allDepsRunning_true h
  have hpolled := (World.mapStep_allDepsRunning env (P := fun _ => True) resolved w).processes
  rcases resolvedOrDefault_cases w.processes deps with hnil | hbinds
  · rw [hresolved] at hnil
    obtain rfl : deps = [] := by simpa [hnil] using hlength.symm
    simp [Satisfied]
  · rw [hresolved] at hbinds
    intro dep hdep
    obtain ⟨i, hi, hb⟩ := exists_binds hbinds hdep
    obtain ⟨q, hq, hstate⟩ := hrunning i hi
    cases dep with
    | id j => cases hb; exact ⟨q, hq, hstate⟩
    | label l =>
      obtain ⟨q₀, hq₀, hl⟩ := hb
      obtain ⟨q₁, hq₁, hpoll⟩ := hpolled i q hq
      rw [hq₀] at hq₁
      cases hq₁
      exact ⟨i, hi, q, hq, (KeepsDeps.of_polled hpoll).label.trans hl, hstate⟩

namespace Sound

variable {env : Env} {w w' : World} {id : ProcessId} {p : Process} {S : Set ℕ} {P : KillCall → Prop}

theorem restartToWaiting {resolved : List ProcessId} (hstep : MapStep Process.Polled S P w w')
    (hp : w.processes.lookup id = some p)
    (hresolved : resolvedOrDefault w.processes p.config.dependsOn = resolved) (h : Sound w) :
    Sound (w'.restartToWaiting env id p resolved) := by
  have hlookup : ∀ i q', (w'.restartToWaiting env id p resolved).processes.lookup i = some q' →
      (i = id ∧ q'.id = p.id ∧ q'.label = p.label ∧ q'.resolvedDeps = resolved ∧ q'.config = p.config) ∨
        ∃ q, w.processes.lookup i = some q ∧ Process.Polled i q q' := by
    intro i q' hq'
    simp only [World.restartToWaiting, World.unlock_processes, World.put_processes,
      World.tick_processes, AssocMap.lookup_replace] at hq'
    split_ifs at hq' with hi
    · obtain ⟨q, _, rfl⟩ := Option.map_eq_some_iff.mp hq'
      exact .inl ⟨hi, rfl, rfl, rfl, rfl⟩
    · exact .inr (hstep.processes i q' hq')
  have hrelabels : Relabels w.nextId w'.nextId w.processes
      (w'.restartToWaiting env id p resolved).processes := by
    intro i q' hq'
    rcases hlookup i q' hq' with ⟨rfl, _, hlabel, _⟩ | ⟨q, hq, hpoll⟩
    · exact .inr ⟨p, hp, hlabel.symm⟩
    · exact .inr ⟨q, hq, (KeepsDeps.of_polled hpoll).label.symm⟩
  refine h.step hstep.nextId.ge ?_ hrelabels ?_ (.of_eq hstep.spawns) <;> intro i q' hq' <;>
    rcases hlookup i q' hq' with ⟨rfl, hid, _, hdeps, hconfig⟩ | ⟨q, hq, hpoll⟩
  · exact hid.trans (h.key _ p hp)
  · exact (KeepsDeps.of_polled hpoll).id.trans (h.key i q hq)
  · intro hw
    refine .inr (counted_of_relabels hrelabels hstep.nextId.ge h.below (counted_of_resolved ?_))
    rw [hdeps, hconfig, hresolved]
  · exact fun hw => .inl ⟨q, hq, (KeepsDeps.of_polled hpoll).waiting hw⟩

theorem performRestart (h : Sound w) : Sound (w.performRestart env id) := by
  obtain ⟨_, heq⟩ | ⟨p, hp, ⟨hdeps, heq⟩ | ⟨w₁, resolved, rfl, hresolved, hcases⟩⟩ :=
    World.performRestart_cases env id w
  · rw [heq]; exact h.lock.unlock
  · rw [heq]
    refine h.lock.respawn (fun q hq => ?_) (by simp [Satisfied, hdeps])
    rw [Option.some.inj (hp.symm.trans hq)]
    exact ⟨rfl, rfl⟩
  · have hpoll := World.mapStep_allDepsRunning env (P := fun _ => True) resolved
      ((w.lock .exclusive id).touch .shared (resolveVisits w.processes p.config.dependsOn))
    obtain ⟨hlength, hrunning, heq⟩ | heq | heq := hcases <;> rw [heq]
    · refine Sound.respawn (fun q hq => ?_) (satisfied_of_allDepsRunning hresolved hlength hrunning)
        (h.lock.touch.mapStep ?_ hpoll)
      · obtain ⟨q₀, hq₀, hpolled⟩ := hpoll.processes id q hq
        obtain rfl : p = q₀ := Option.some.inj (hp.symm.trans hq₀)
        exact ⟨(KeepsDeps.of_polled hpolled).id.symm, (KeepsDeps.of_polled hpolled).label.symm⟩
      · exact fun _ _ _ => .of_polled
    · exact h.lock.touch.restartToWaiting hpoll hp hresolved
    · exact h.lock.touch.restartToWaiting (S := ∅) (P := fun _ => True)
        (.of_osStep Process.Polled.refl (.refl _)) hp hresolved

theorem phase4 {now : Instant} (h : Sound w) : Sound (w.phase4 env now) :=
  Fold.foldl_invariant (I := Sound) h.touch fun _ _ _ h => h.performRestart

/-! ### Phases 5 and 6 -/

theorem examine {v : Verdicts} (h : Sound w) : Sound (World.examine env id (v, w)).2 := by
  have hstep := World.mapStep_examine env (P := fun _ => True) id v w
  obtain heq | ⟨p, hp, _, heq⟩ := (World.examine_outcome env id v w).1
  · refine h.step hstep.nextId.ge ?_ ?_ ?_ (.of_eq hstep.spawns) <;> rw [heq]
    · exact h.key
    · exact fun i q hq => .inr ⟨q, hq, rfl⟩
    · exact fun i q hq hw => .inl ⟨q, hq, hw, rfl, rfl⟩
  · refine h.step hstep.nextId.ge ?_ ?_ ?_ (.of_eq hstep.spawns) <;> rw [heq] <;> intro i q' hq'
    · obtain ⟨q, hq, new, rfl⟩ := hstep.processes i q' (heq ▸ hq')
      exact h.key i q hq
    · obtain ⟨q, hq, new, rfl⟩ := hstep.processes i q' (heq ▸ hq')
      exact .inr ⟨q, hq, rfl⟩
    · intro hw
      rw [AssocMap.lookup_replace] at hq'
      split_ifs at hq' with hi
      · rw [hp] at hq'
        cases hq'
        rw [hstep.nextId]
        exact .inr (counted_extend hp (h.counted id p hp hw))
      · exact .inl ⟨q', hq', hw, rfl, rfl⟩

/-- The processes to be spawned were in `Waiting` and are complete. -/
def VerdictsSound (w : World) (x : Verdicts × World) : Prop :=
  Sound x.2 ∧ view x.2.processes = view w.processes ∧ ∀ id ∈ x.1.toSpawn,
    id ∈ w.waitingIds ∧ ∃ p, x.2.processes.lookup id = some p ∧ World.Complete x.2.processes p

theorem verdicts_step {w₀ : World} {v : Verdicts} (hid : id ∈ w₀.waitingIds)
    (h : VerdictsSound w₀ (v, w)) : VerdictsSound w₀ (World.examine env id (v, w)) := by
  obtain ⟨hsound, hview, hcomplete⟩ := h
  refine ⟨hsound.examine, (World.view_examine id v w).trans hview, fun k hk => ?_⟩
  obtain ⟨hmap, hspawn⟩ := World.examine_outcome env id v w
  -- a complete entry is not extended again
  have hold : k ∈ v.toSpawn → k ∈ w₀.waitingIds ∧
      ∃ p, (World.examine env id (v, w)).2.processes.lookup k = some p ∧
        World.Complete (World.examine env id (v, w)).2.processes p := by
    intro hk
    obtain ⟨hwaiting, p, hp, hc⟩ := hcomplete k hk
    refine ⟨hwaiting, p, ?_, hc.1, ?_⟩
    · obtain heq | ⟨p₀, hp₀, hne, heq⟩ := hmap <;> rw [heq]
      · exact hp
      · rw [AssocMap.lookup_replace, if_neg]
        · exact hp
        · rintro rfl
          exact hne (Option.some.inj (hp₀.symm.trans hp) ▸ hc.1)
    · unfold World.AllRunning
      rw [isRunningDep_congr (World.view_examine id v w)]
      exact hc.2
  obtain heq | ⟨heq, p, hp, hc⟩ := hspawn
  · exact hold (heq ▸ hk)
  · rw [heq, List.mem_append, List.mem_singleton] at hk
    rcases hk with hk | rfl
    · exact hold hk
    · exact ⟨hid, p, hp, hc⟩

theorem verdicts (h : Sound w) : VerdictsSound w (w.verdicts env) := by
  refine Fold.foldl_invariant (I := VerdictsSound w) ⟨h.touch, rfl, by simp⟩ ?_
  exact fun x id hid hx => verdicts_step hid hx

/-- Every tracked process of the list can be spawned, and no dependency waits for it. -/
def SpawnsReady (ids : List ProcessId) (w : World) : Prop :=
  ∀ id ∈ ids, ∀ p, w.processes.lookup id = some p →
    p.state ≠ .running ∧ Satisfied w.processes p.config.dependsOn p.resolvedDeps

theorem spawnsReady_verdicts {x : Verdicts × World} (h : VerdictsSound w x) :
    SpawnsReady x.1.toSpawn x.2 := by
  obtain ⟨hsound, hview, hcomplete⟩ := h
  intro id hid p hp
  obtain ⟨hwaiting, p', hp', hc⟩ := hcomplete id hid
  obtain rfl : p = p' := Option.some.inj (hp.symm.trans hp')
  obtain ⟨q, hq, hstate⟩ := AssocMap.mem_keysWhere.mp hwaiting
  have hsame : p.state = q.state := by
    have hid := congrFun hview id
    simp only [view, hp, hq, Option.map_some, Option.some.injEq, Prod.mk.injEq] at hid
    exact hid.1
  have hw : p.state = .waiting := by rw [hsame]; simpa using hstate
  exact ⟨by simp [hw], satisfied_of_complete (hsound.counted id p hp hw) hc⟩

/-- A spawn only touches its own entry, which no dependency is bound to while it is not
`Running`. -/
theorem spawnsReady_of_lookup {ids : List ProcessId} (hid : id ∈ ids)
    (hother : ∀ i, i ≠ id → w'.processes.lookup i = w.processes.lookup i)
    (hself : ∀ q, w'.processes.lookup id = some q → ∃ p, w.processes.lookup id = some p ∧
      q.state ≠ .running ∧ q.config = p.config ∧ q.resolvedDeps = p.resolvedDeps)
    (h : SpawnsReady ids w) : SpawnsReady ids w' := by
  have hrunning : ∀ i q, w.processes.lookup i = some q → q.state = .running →
      w'.processes.lookup i = some q := by
    intro i q hq hstate
    rw [hother i, hq]
    rintro rfl
    exact (h i hid q hq).1 hstate
  intro k hk q hq
  by_cases hki : k = id
  · subst hki
    obtain ⟨p, hp, hstate, hconfig, hdeps⟩ := hself q hq
    rw [hconfig, hdeps]
    exact ⟨hstate, satisfied_of_running hrunning (h k hk p hp).2⟩
  · rw [hother k hki] at hq
    obtain ⟨hstate, hsatisfied⟩ := h k hk q hq
    exact ⟨hstate, satisfied_of_running hrunning hsatisfied⟩

theorem spawnWaitingProcess {ids : List ProcessId} (hid : id ∈ ids)
    (h : Sound w ∧ SpawnsReady ids w) :
    Sound (w.spawnWaitingProcess env id) ∧ SpawnsReady ids (w.spawnWaitingProcess env id) := by
  obtain ⟨hsound, hready⟩ := h
  obtain ⟨_, heq⟩ | ⟨p, hp, ⟨w', hstep, heq⟩ | ⟨w', now, hspawn, heq⟩⟩ :=
    World.spawnWaitingProcess_cases (P := fun _ => True) env id w <;> rw [heq]
  · exact ⟨hsound.lock.unlock, hready⟩
  · refine ⟨(hsound.lock.osStep hstep).kept (S := ∅) (P := fun _ => True)
      (World.mapStep_failSpawn _ _ _), spawnsReady_of_lookup hid ?_ ?_ hready⟩
    · intro i hi
      rw [World.failSpawn_lookup, if_neg hi, hstep.processes, World.lock_processes]
    · intro q hq
      rw [World.failSpawn_lookup, if_pos rfl] at hq
      cases hq
  · have hp' : w'.processes.lookup id = some p := by rw [hspawn.processes, World.lock_processes, hp]
    refine ⟨.unlock (.put (.refl w' : OsStep ∅ (fun _ => True) w' w') hp'
      (.of_not_waiting rfl rfl (by simp)) (hsound.lock.spawned hspawn fun _ => (hready id hid p hp).2)),
      spawnsReady_of_lookup hid ?_ ?_ hready⟩
    · intro i hi
      rw [World.unlock_processes, World.put_processes, AssocMap.lookup_replace, if_neg hi,
        hspawn.processes, World.lock_processes]
    · intro q hq
      rw [World.unlock_processes, World.put_processes, AssocMap.lookup_replace, if_pos rfl, hp'] at hq
      cases hq
      exact ⟨p, hp, by simp, rfl, rfl⟩

theorem phase5 (h : Sound w) : Sound (w.phase5 env) := by
  have hspawns := Fold.foldl_invariant (f := fun w id => World.spawnWaitingProcess env id w)
    (I := fun w' => Sound w' ∧ SpawnsReady (w.verdicts env).1.toSpawn w')
    ⟨h.verdicts.1, spawnsReady_verdicts h.verdicts⟩ fun _ _ hid h => spawnWaitingProcess hid h
  exact Fold.foldl_invariant (I := Sound) hspawns.1 fun w id _ h =>
    World.ifRunning_invariant h fun _ =>
      h.kept (World.mapStep_failWaiting (P := fun _ => True) id w)

theorem phase6 (h : Sound w) : Sound (w.phase6 env) :=
  Fold.foldl_invariant (I := Sound) h.touch fun w id _ h =>
    World.ifRunning_invariant h fun _ => h.kept (World.mapStep_failFast id w)

theorem reaperPass {pollInterval : ℕ} (h : Sound w) : Sound (w.reaperPass env pollInterval) := by
  have hstart : Sound ((w.sleep env pollInterval).tick env) :=
    h.osStep (S := ∅) (P := fun _ => True)
      ((w.osStep_sleep env pollInterval).trans (World.osStep_tick env _))
  have hdetect : Sound (w.passDetect env pollInterval).2.2 :=
    hstart.phase1.phase1b.kept (World.mapStep_phase2 (P := fun _ => True) _ _)
  refine World.reaperPass_invariant (I := Sound) hdetect ?_ ?_ ?_ ?_ ?_
  · exact fun _ h _ => h
  · rintro _ rfl _
    exact hdetect.phase3
  · exact fun _ _ h _ => h.phase4
  · exact fun _ h _ => h.phase5
  · exact fun _ h _ => h.phase6

/-! ### The calls of the manager -/

/-- An entry is inserted under a new id, or put back under the id and label it had. -/
theorem insert (w' : World) (h : Sound w) (hn : w.nextId ≤ w'.nextId)
    (hmap : AssocMap.Refines KeepsDeps w.processes w'.processes)
    (hkey : p.id = id) (hid : w.nextId ≤ id.raw ∧ id.raw < w'.nextId ∨
      ∃ q, w.processes.lookup id = some q ∧ q.label = p.label)
    (hstate : p.state = .waiting → p.resolvedDeps = resolvedOrDefault w.processes p.config.dependsOn)
    (hspawns : Grows (fun k => k.site ≠ .restart → k.Ready) w.spawns w'.spawns) :
    Sound (w'.insert env id p) := by
  have hlookup : ∀ i q', (w'.insert env id p).processes.lookup i = some q' →
      (i = id ∧ q' = p) ∨ ∃ q, w.processes.lookup i = some q ∧ KeepsDeps i q q' := by
    intro i q' hq'
    rw [World.insert_processes, AssocMap.lookup_reorder, AssocMap.lookup_insert_eq] at hq'
    split_ifs at hq' with hi
    · exact .inl ⟨hi, (Option.some.inj hq').symm⟩
    · exact .inr (hmap i q' hq')
  have hrelabels : Relabels w.nextId w'.nextId w.processes (w'.insert env id p).processes := by
    intro i q' hq'
    rcases hlookup i q' hq' with ⟨rfl, rfl⟩ | ⟨q, hq, hkeeps⟩
    · exact hid
    · exact .inr ⟨q, hq, hkeeps.label.symm⟩
  refine h.step hn ?_ hrelabels ?_ hspawns <;> intro i q' hq' <;>
    rcases hlookup i q' hq' with ⟨rfl, rfl⟩ | ⟨q, hq, hkeeps⟩
  · exact hkey
  · exact hkeeps.id.trans (h.key i q hq)
  · exact fun hw =>
      .inr (counted_of_relabels hrelabels hn h.below (counted_of_resolved (hstate hw)))
  · exact fun hw => .inl ⟨q, hq, hkeeps.waiting hw⟩

theorem markStartedEntry (h : Sound w) : Sound (w.markStartedEntry env id) := by
  refine h.mapStep ?_ (World.mapStep_markStartedEntry (P := fun _ => True) id w)
  rintro i q q' (rfl | ⟨rs, now, _, rfl⟩)
  · exact .refl i q'
  · exact ⟨rfl, rfl, fun hw => ⟨hw, rfl, rfl⟩⟩

theorem start {label : Label} {config : ProcessConfig} (h : Sound w) :
    Sound (w.start env label config).2 := by
  have hnext : Sound { w with nextId := w.nextId + 1 } :=
    h.step (Nat.le_succ _) h.key (fun i q hq => .inr ⟨q, hq, rfl⟩)
      (fun i q hq hw => .inl ⟨q, hq, hw, rfl, rfl⟩) (.refl _)
  obtain heq | heq | ⟨w₁, rfl, resolved, hresolved, hcases⟩ := World.start_cases env label config w
  · rw [heq]; exact h
  · rw [heq]; exact hnext
  · have hpoll := World.mapStep_allDepsRunning env (P := fun _ => True) resolved
      { w with nextId := w.nextId + 1 }
    have hmap := hpoll.processes.mono fun i q q' => KeepsDeps.of_polled
    have hn : ∀ n, n = w.nextId + 1 → w.nextId ≤ n := by omega
    have hwaiting : ∀ w₂ : World, w₂.nextId = w.nextId + 1 →
        AssocMap.Refines KeepsDeps w.processes w₂.processes → w₂.spawns = w.spawns →
        Sound (w₂.startWaiting env ⟨w.nextId⟩ label config resolved) := by
      intro w₂ hnext' hmap' hspawns'
      exact h.insert (w₂.tick env).bumpSequence (hn _ hnext') hmap' rfl
        (.inl ⟨le_rfl, hnext' ▸ Nat.lt_succ_self _⟩) (fun _ => hresolved.symm) (.of_eq hspawns')
    obtain ⟨hlength, hrunning, heq⟩ | heq | heq := hcases <;> rw [heq]
    · simp only [World.startNow]
      split
      · exact (hnext.mapStep (fun _ _ _ => .of_polled) hpoll).osStep (S := ∅) (P := fun _ => True)
          (World.osStep_spawnProcess (by assumption))
      · next hok =>
        have hspawn := Spawned.of_ok .start ⟨w.nextId⟩ resolved hok
        obtain ⟨program, hspawns⟩ := hspawn.spawns
        refine .markStartedEntry (h.insert (World.bumpSequence _) ?_ ?_ rfl (.inl ⟨le_rfl, ?_⟩) ?_ ?_)
        · exact hn _ (hspawn.nextId.trans hpoll.nextId)
        · exact hspawn.processes ▸ hmap
        · exact (hspawn.nextId.trans hpoll.nextId) ▸ Nat.lt_succ_self _
        · exact fun hw => absurd hw (by simp [World.spawnedProcess])
        · show Grows _ w.spawns (World.spawnProcess env _ _ _ _ _).spawns
          rw [hspawns, hpoll.spawns]
          exact .cons _ fun _ => satisfied_of_allDepsRunning hresolved hlength hrunning
    · exact hwaiting _ hpoll.nextId hmap hpoll.spawns
    · exact hwaiting _ rfl (.refl KeepsDeps.refl _) rfl

theorem stop (h : Sound w) : Sound (w.stop env id).2 := h.kept (World.mapStep_stop env id w)

theorem stopMany {ids : List ProcessId} (h : Sound w) : Sound (w.stopMany env ids).2 := by
  refine h.mapStep ?_ (World.mapStep_stopMany h.key ids)
  rintro i q q' (⟨_, rfl⟩ | ⟨_, rfl, _⟩)
  · exact .refl i q'
  · exact .of_not_waiting rfl rfl (by simp)

theorem sendSignal {signal : Signal} (h : Sound w) : Sound (w.sendSignal env id signal).2 :=
  h.osStep (World.osStep_sendSignal id signal w)

theorem sendSignalLabel {label : Label} {signal : Signal} (h : Sound w) :
    Sound (w.sendSignalLabel env label signal) :=
  Fold.foldl_invariant (I := Sound) h fun _ _ _ h => h.sendSignal

theorem query (h : Sound w) : Sound (w.query env id) :=
  h.mapStep (fun _ _ _ => .of_polled) (World.mapStep_query (P := fun _ => True) id w)

theorem depsPoll {config : ProcessConfig} {deadline : Instant} (h : Sound w) :
    Sound (w.depsPoll env id config deadline).2 := by
  refine h.mapStep ?_ (World.mapStep_depsPoll (P := fun _ => True) id config deadline w)
  rintro i q q' (rfl | rfl)
  · exact .refl i q'
  · exact .of_not_waiting rfl rfl (by simp)

/-- Spawned in place of a process found in `Restarting`. -/
theorem restartInPlace (hp : w.processes.lookup id = some p) (h : Sound w) : Sound (w.restartInPlace env id p).2 := by
  obtain ⟨w', hstep, heq⟩ := World.restartReset_eq (P := fun _ => True) env hp
  have hreset : Sound (w.restartReset env id) := by
    rw [heq]
    exact .put hstep hp ⟨rfl, rfl, fun hw => ⟨hw, rfl, rfl⟩⟩ h
  simp only [World.restartInPlace]
  split
  · next e he =>
    exact hreset.osStep (S := ∅) (P := fun _ => True) (World.osStep_spawnProcess he)
  · next hok =>
    have hspawn := Spawned.of_ok .restart id p.resolvedDeps hok
    have hspawned := (hreset.spawned hspawn fun hne => absurd rfl hne).bumpSequence
    cases hq : (World.spawnProcess env .restart id p.config p.resolvedDeps
        (w.restartReset env id)).bumpSequence.processes.lookup id with
    | none => rw [World.restartStore, hq]; exact hspawned
    | some q =>
      obtain ⟨w'', now, hstep', heq'⟩ := World.restartStore_eq env (P := fun _ => True) _ _ hq
      rw [heq']
      exact .put hstep' hq (.of_not_waiting rfl rfl (by simp)) hspawned

/-- Spawned anew after a stop: the entry comes back under its old id and label. -/
theorem restartInsert (hp : w.processes.lookup id = some p) (h : Sound w) :
    Sound ((w.stop env id).2.restartInsert env id p).2 := by
  have hstop := World.mapStep_stop env id w
  simp only [World.restartInsert]
  split
  · next e he =>
    exact h.stop.osStep (S := ∅) (P := fun _ => True) (World.osStep_spawnProcess he)
  · next hok =>
    have hspawn := Spawned.of_ok .restart id [] hok
    obtain ⟨program, hspawns⟩ := hspawn.spawns
    refine .markStartedEntry (h.insert (World.bumpSequence _) ?_ ?_ ?_ (.inr ⟨p, hp, rfl⟩) ?_ ?_)
    · exact (hspawn.nextId.trans hstop.nextId).ge
    · refine hspawn.processes ▸ hstop.processes.mono ?_
      rintro i q q' rfl
      exact .refl i q'
    · rfl
    · exact fun hw => absurd hw (by simp [World.spawnedProcess])
    · show Grows _ w.spawns (World.spawnProcess env _ _ _ _ _).spawns
      rw [hspawns, hstop.spawns]
      exact .cons _ fun hne => absurd rfl hne

theorem restart (h : Sound w) : Sound (w.restart env id).2 := by
  obtain ⟨_, heq⟩ | ⟨p, hp, ⟨_, heq⟩ | ⟨_, heq | heq⟩⟩ := World.restart_cases env id w <;> rw [heq]
  · exact h
  · exact h.restartInPlace hp
  · exact h.stop
  · exact h.restartInsert hp

theorem restartAll {ids : List ProcessId} (h : Sound w) : Sound (w.restartAll env ids).2 :=
  World.restartAll_invariant (C := fun _ _ => True) (fun _ _ h _ => h.restart) ids w h
    (World.restartsMeet_of_forall (fun _ _ => trivial) ids w)

end Sound

/-! ### Runs -/

namespace System

variable (env : Env) (pollInterval : ℕ)

theorem sound_step (s : System) (a : Action) (h : Sound s.world) :
    Sound (s.step env pollInterval a).world := by
  cases a with
  | start label config => exact h.start
  | startWithDeps label config =>
    have hstart : Sound (s.world.startWithDeps env label config).2 :=
      h.start.osStep (World.startWithDeps_world (P := fun _ => True) label config s.world)
    simp only [step]
    split <;> exact hstart
  | depsPoll n =>
    simp only [step]
    split
    · exact h
    · exact h.depsPoll
  | stop id => exact h.stop
  | stopLabel label => exact h.stopMany
  | stopAll => exact h.stopMany
  | stopTerminateOnExit => exact h.stopMany
  | restart id => exact h.restart
  | restartLabel label => exact h.restartAll
  | sendSignal id signal => exact h.sendSignal
  | sendSignalLabel label signal => exact h.sendSignalLabel
  | query id => exact h.query
  | pass => exact World.ifRunning_invariant h fun _ => h.reaperPass

theorem sound_run {s : System} (hs : s.Initial) (actions : List Action) :
    Sound (s.run env pollInterval actions).world := by
  have hinit : Sound s.world := by
    rcases hs with rfl | rfl <;>
      exact ⟨fun i q hq => absurd hq (by simp [new, withReaper, World.new, World.withReaper]),
        fun i q hq => absurd hq (by simp [new, withReaper, World.new, World.withReaper]),
        fun i q hq => absurd hq (by simp [new, withReaper, World.new, World.withReaper]),
        fun k hk => absurd hk (by simp [new, withReaper, World.new, World.withReaper])⟩
  exact Fold.foldl_invariant (I := fun s : System => Sound s.world) hinit
    fun s a _ h => sound_step env pollInterval s a h

/-- In every run, each child that `start`, `perform_restart` or `spawn_waiting_process`
spawned was spawned while its dependencies were met. -/
theorem spawns_ready {s : System} (hs : s.Initial) (actions : List Action) :
    ∀ k ∈ (s.run env pollInterval actions).world.spawns, k.site ≠ .restart → k.Ready :=
  (sound_run env pollInterval hs actions).ready

/-- A process that waits for a label is the second one to be spawned. -/
theorem spawns_ready_label :
    (withReaper.run .calm 0 [.start ⟨"web"⟩ { command := "/bin/web", dependsOn := [.label ⟨"db"⟩] },
        .start ⟨"db"⟩ { command := "/bin/db" }, .pass]).world.spawns.map SpawnCall.id = [⟨1⟩, ⟨2⟩] ∧
      ∀ k ∈ (withReaper.run .calm 0
          [.start ⟨"web"⟩ { command := "/bin/web", dependsOn := [.label ⟨"db"⟩] },
            .start ⟨"db"⟩ { command := "/bin/db" }, .pass]).world.spawns,
        k.site ≠ .restart → k.Ready :=
  ⟨by decide +kernel, spawns_ready .calm 0 (.inr rfl) _⟩

end System

end ProcessManager
