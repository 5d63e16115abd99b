import ProcessManager.Manager.WaitFor
import ProcessManager.System.CustodyCalls
import ProcessManager.System.Identity

/-! What is removed stays away. No section of the reaper or of a call brings a removed process
back but the insertion by a call of `restart` for the same id. -/

namespace ProcessManager

variable {env : Env} {pollInterval : ℕ} {w w' w₁ w₂ : World} {id i : ProcessId} {p p' : Process}

namespace World

/-- `id` is tracked afterwards only if it was tracked before or has been given out in between,
and nothing is spawned for it once it is retired. -/
structure Buries (id : ProcessId) (w w' : World) : Prop where
  nextId : w.nextId ≤ w'.nextId
  entry : ∀ p', w'.processes.lookup id = some p' → (∃ p, w.processes.lookup id = some p) ∨
    (w.nextId ≤ id.raw ∧ id.raw < w'.nextId)
  spawns : w.Retired id → Grows (fun k => k.id ≠ id) w.spawns w'.spawns

/-- A tracked id was given out. -/
def Given (id : ProcessId) (w : World) : Prop := ∀ p, w.processes.lookup id = some p → id.raw < w.nextId

namespace Buries

theorem retired (h : Buries id w w') (hid : w.Retired id) : w'.Retired id := by
  refine ⟨hid.1.trans_le h.nextId, Option.eq_none_iff_forall_ne_some.mpr fun p' hp' => ?_⟩
  obtain ⟨p, hp⟩ | ⟨hnew, _⟩ := h.entry p' hp'
  · rw [hid.2] at hp
    cases hp
  · exact hnew.not_gt hid.1

theorem given (h : Buries id w w') (hid : w.Given id) : w'.Given id := by
  intro p' hp'
  obtain ⟨p, hp⟩ | ⟨_, hlt⟩ := h.entry p' hp'
  · exact (hid p hp).trans_le h.nextId
  · exact hlt

theorem trans (h : Buries id w w₁) (h' : Buries id w₁ w') : Buries id w w' where
  nextId := h.nextId.trans h'.nextId
  entry p' hp' := by
    obtain ⟨p₁, hp₁⟩ | ⟨hle, hlt⟩ := h'.entry p' hp'
    · exact (h.entry p₁ hp₁).imp_right fun hnew => ⟨hnew.1, hnew.2.trans_le h'.nextId⟩
    · exact .inr ⟨h.nextId.trans hle, hlt⟩
  spawns hid := (h.spawns hid).trans (h'.spawns (h.retired hid))

/-- Entries are at most changed or removed. -/
theorem of_tracked (hnextId : w'.nextId = w.nextId) (hspawns : w'.spawns = w.spawns)
    (htracked : ∀ i p', w'.processes.lookup i = some p' → ∃ p, w.processes.lookup i = some p) :
    Buries id w w' where
  nextId := hnextId.ge
  entry p' hp' := .inl (htracked id p' hp')
  spawns _ := .of_eq hspawns

theorem of_mapStep {R : ProcessId → Process → Process → Prop} {S : Set ℕ} {P : KillCall → Prop}
    (h : MapStep R S P w w') : Buries id w w' := by
  refine of_tracked h.nextId h.spawns fun i p' hp' => ?_
  obtain ⟨p, hp, _⟩ := h.processes i p' hp'
  exact ⟨p, hp⟩

theorem os {S : Set ℕ} {P : KillCall → Prop} (h : OsStep S P w w') : Buries id w w' :=
  of_mapStep (.of_osStep kept_refl h)

theorem refl (id : ProcessId) (w : World) : Buries id w w :=
  os (.refl w : OsStep ∅ (fun _ => True) w w)

theorem of_tends (h : Tends w w') : Buries id w w' := of_tracked h.nextId h.spawns h.tracked

/-- `start` uses a new id. -/
theorem start (env : Env) (label : Label) (config : ProcessConfig) (w : World) :
    Buries id w (w.start env label config).2 where
  nextId := (evolves_start env label config w).nextId
  entry p' hp' := by
    obtain ⟨hok, herror⟩ := nodes_start env label config w
    have hnode' : (w.start env label config).2.nodes id = some (p'.label, p'.config.dependsOn) :=
      nodes_eq_some.mpr ⟨p', hp', rfl, rfl⟩
    have htracked : w.nodes id = some (p'.label, p'.config.dependsOn) → ∃ p, w.processes.lookup id = some p :=
      fun hnode => (nodes_eq_some.mp hnode).imp fun _ hp => hp.1
    cases hstart : (w.start env label config).1 with
    | error e => exact .inl (htracked (herror e hstart ▸ hnode'))
    | ok new =>
      rw [(hok new hstart).2.2, nodesWith, Function.update_apply] at hnode'
      split_ifs at hnode' with hid
      · subst hid
        exact .inr ⟨le_rfl, (start_ok env label config w hstart).2 ▸ Nat.lt_succ_self _⟩
      · exact .inl (htracked hnode')
  spawns hid := (evolves_start env label config w).spawns.mono fun k hk => by
    rintro rfl
    exact hid.not_concerns hk

/-- An entry is written back, wherever it comes from. -/
theorem put {S : Set ℕ} {P : KillCall → Prop} (h : OsStep S P w w') (i : ProcessId) (p' : Process) :
    Buries id w (w'.put i p') := by
  have hput : MapStep (fun _ _ _ => True) S P w (w'.put i p') := .put_of (fun _ _ => trivial) h fun _ _ => trivial
  exact of_mapStep hput

/-- A child is spawned for another process. -/
theorem of_spawned {site : SpawnSite} {config : ProcessConfig} {deps : List ProcessId}
    (h : Spawned env site i config deps w w') (hne : w.Retired id → i ≠ id) : Buries id w w' where
  nextId := h.nextId.ge
  entry p' hp' := .inl ⟨p', h.processes ▸ hp'⟩
  spawns hid := by
    obtain ⟨program, hspawns⟩ := h.spawns
    exact hspawns ▸ .cons _ (hne hid)

/-- A tracked process gets a new child. -/
theorem put_spawned {site : SpawnSite} {config : ProcessConfig} {deps : List ProcessId}
    (h : Spawned env site i config deps w w') (hp : w.processes.lookup i = some p) (p' : Process) :
    Buries id w ((w'.put i p').unlock .exclusive i) := by
  have hne : w.Retired id → i ≠ id := by
    rintro hid rfl
    rw [hid.2] at hp
    cases hp
  have hput : Buries id w' (w'.put i p') := put (.refl w' : OsStep ∅ (fun _ => True) w' w') i p'
  exact (of_spawned h hne).trans (hput.trans (.of_tends (.unlock _ _ _)))

/-- The spawn fails, and the entry is written back. -/
theorem put_failed {site : SpawnSite} {config : ProcessConfig} {deps : List ProcessId} {e : SpawnError}
    (h : w.spawnError env config = some e) (p' : Process) :
    Buries id w (((w.spawnProcess env site i config deps).put i p').unlock .exclusive i) := by
  have hfailed : OsStep ∅ (fun _ => False) w (w.spawnProcess env site i config deps) := osStep_spawnProcess h
  exact (put hfailed i p').trans (.of_tends (.unlock _ _ _))

end Buries

/-! ### The sections of the reaper -/

theorem buries_respawnHeld (env : Env) (p : Process) {q : Process} (hq : w.processes.lookup i = some q) :
    Buries id w (w.respawnHeld env i p).2 := by
  simp only [respawnHeld, respawn]
  cases hspawn : w.spawnError env p.config with
  | some e => exact .put_failed hspawn _
  | none =>
    have hspawned := (Spawned.of_ok .performRestart i p.resolvedDeps hspawn).tick_if p.restartState.isSome
    exact .put_spawned hspawned hq _

theorem buries_performRestartHeld (env : Env) (i : ProcessId) (w : World) :
    Buries id w (w.performRestartHeld env i).2 := by
  have hlock : Tends w (w.lock .exclusive i) := .lock _ _ _
  simp only [performRestartHeld, lock_processes]
  cases hp : w.processes.lookup i with
  | none => exact .of_tends (hlock.trans (.unlock _ _ _))
  | some p =>
    set resolved := resolvedOrDefault w.processes p.config.dependsOn
    set w₁ := (w.lock .exclusive i).touch .shared (resolveVisits w.processes p.config.dependsOn)
    have hvisits : Tends w w₁ := hlock.trans (.touch _ _ _)
    have hpolls : Tends w (w₁.allDepsRunning env resolved).2 := hvisits.trans (tends_allDepsRunning env resolved w₁)
    obtain ⟨q, hq, hhandle⟩ := handle_allDepsRunning env (w := w₁) hp resolved
    simp only
    split_ifs
    · exact (Buries.of_tends hlock).trans (buries_respawnHeld env p hp)
    · exact (Buries.of_tends hpolls).trans (buries_respawnHeld env _ hq)
    · exact .of_tends (hpolls.trans (tends_restartToWaiting env hq hhandle resolved))
    · exact .of_tends (hvisits.trans (tends_restartToWaiting env (w := w₁) hp rfl resolved))

theorem buries_spawnWaitingHeld (env : Env) (i : ProcessId) (w : World) :
    Buries id w (w.spawnWaitingHeld env i).2 := by
  have hlock : Tends w (w.lock .exclusive i) := .lock _ _ _
  simp only [spawnWaitingHeld, spawnWaitingProcess, lock_processes]
  cases hp : w.processes.lookup i with
  | none => exact .of_tends (hlock.trans (.unlock _ _ _))
  | some p =>
    simp only
    cases hspawn : (w.lock .exclusive i).spawnError env p.config with
    | some e => exact (Buries.of_tends hlock).trans (.put_failed hspawn _)
    | none =>
      have hspawned := (Spawned.of_ok .spawnWaiting i p.resolvedDeps hspawn).tick_if p.restartState.isSome
      exact (Buries.of_tends hlock).trans (.put_spawned hspawned hp _)

end World

/-! ### The threads -/

theorem ReaperPc.buries_next (env : Env) (pollInterval : ℕ) (pc : ReaperPc) (w : World) :
    World.Buries id w (next env pollInterval pc w).2 := by
  have hos : ∀ {T : Set ℕ} {w' : World}, OsStep T (fun _ => False) w w' → World.Buries id w w' := World.Buries.os
  have hrefl : World.Buries id w w := .refl id w
  cases pc with
  | asleep => exact hos ((World.osStep_sleep (S := ∅) env _ w).trans (World.osStep_tick env _))
  | detect now ids x =>
    cases ids with
    | nil => exact hrefl
    | cons i ids => exact .of_tends (World.tends_phase1Visit env now i x w)
  | search now x origins targets => cases origins <;> exact hrefl
  | collect c ids found =>
    cases ids with
    | nil => exact hrefl
    | cons i ids => exact .of_tends (.touch _ _ _)
  | cascade now x targets =>
    cases targets with
    | nil => exact hrefl
    | cons i ids => exact .of_tends (World.tends_cascadeKill env i w)
  | remove now exited ids =>
    cases ids with
    | nil => exact hrefl
    | cons i ids => exact .of_mapStep (World.mapStep_removeEntry (P := fun _ => False) i w)
  | report now exited pending =>
    cases pending with
    | nil => exact hrefl
    | cons e es => exact .of_tends (World.tends_sendOrReturn env e.event w)
  | schedule now exited =>
    cases exited with
    | nil => exact hrefl
    | cons e es => exact .of_tends (World.tends_scheduleEntry env now e w)
  | restart ids =>
    cases ids with
    | nil => exact hrefl
    | cons i ids => exact World.buries_performRestartHeld env i w
  | examine ids v =>
    cases ids with
    | nil => exact hrefl
    | cons i ids =>
      have hstep := hos (World.osStep_examineHeld env i v w)
      simp only [next]
      split <;> exact hstep
  | resolve i p deps ids v =>
    have hstep := hos (World.osStep_searchDeps i p deps v w)
    simp only [next]
    split_ifs <;> exact hstep
  | extend i new ids v => exact .of_tends (World.tends_extendEntry i new w)
  | recheck i ids v => exact hos (World.osStep_recheck i v w)
  | spawn ids failing =>
    cases ids with
    | nil => exact hrefl
    | cons i ids => exact World.buries_spawnWaitingHeld env i w
  | fail ids =>
    cases ids with
    | nil => exact hrefl
    | cons i ids => exact .of_tends (World.tends_failWaitingHeld i w)
  | failFast ids =>
    cases ids with
    | nil => exact hrefl
    | cons i ids =>
      have hstep := hos (World.osStep_failFastCheck i w)
      simp only [next]
      split <;> exact hstep
  | failRunning i p ids => exact .of_tends (World.tends_failRunningHeld env i p w)
  | discard event inLoop rest =>
    have hremoved : World.Buries id w (w.removeEntry event.id) :=
      .of_mapStep (World.mapStep_removeEntry (P := fun _ => False) event.id w)
    simp only [next, World.discard]
    split_ifs
    · exact hremoved.trans (.of_tends (World.tends_sendOrReturn env event _))
    · exact hremoved.trans (.os (World.osStep_send (S := ∅) (P := fun _ => True) env event _))

namespace StopPc

/-- The own stop of the call is for `id`. -/
def Self (id : ProcessId) : StopPc → Prop
  | .stopping d _ nested _ => nested = false → d = id
  | .returned _ => True

theorem self_ends {nested : Bool} (pending : List ProcessId) (result : Except ManagerError Unit) :
    (ends nested pending result).Self id := by
  cases nested <;> cases pending <;> cases result <;> first | trivial | exact nofun

theorem self_next (env : Env) {s : StopPc} (h : s.Self id) (w : World) : (s.next env w).1.Self id := by
  cases s with
  | returned result => trivial
  | stopping d stage nested pending =>
    have hgoesOn : ∀ p, (goesOn d p nested pending).Self id := fun p => by
      unfold goesOn
      split_ifs
      · exact h
      · exact self_ends pending _
    cases stage with
    | check =>
      simp only [next]
      split
      · exact self_ends pending _
      · split_ifs <;> exact h
    | dropRestarting => exact self_ends pending _
    | dropWaiting p => exact h
    | report p => exact hgoesOn p
    | take =>
      simp only [next]
      split
      · exact self_ends pending _
      · exact h
    | signal p | escalate p =>
      simp only [next]
      split
      · exact self_ends pending _
      · exact self_ends pending _
      · exact h
    | grace p deadline =>
      simp only [next]
      split_ifs
      · exact h
      · exact self_ends pending _
      · exact h
    | reap p deadline =>
      simp only [next]
      split_ifs <;> exact h
    | join p => exact hgoesOn p
    | cascade => exact self_ends _ _

/-- Once the own stop of the call has removed `id`, it is retired. -/
structure Retires (id : ProcessId) (w : World) (s : StopPc) : Prop where
  self : s.Self id
  given : s.removes.isSome = true ∨ s.inGap = true → id.raw < w.nextId
  gone : s.inGap = true → w.processes.lookup id = none

/-- The stop has not removed anything yet. -/
theorem Retires.of_before {s : StopPc} (hself : s.Self id) (hgap : s.inGap = false)
    (hgiven : s.removes.isSome = true → id.raw < w.nextId) : s.Retires id w where
  self := hself
  given hs := hs.elim hgiven fun h => by
    rw [hgap] at h
    cases h
  gone h := by
    rw [hgap] at h
    cases h

theorem retires_call (id : ProcessId) (w : World) : (call id).Retires id w :=
  .of_before (fun _ => rfl) rfl fun h => by cases h

theorem Retires.retired {s : StopPc} (h : s.Retires id w) (hgap : s.inGap = true) : w.Retired id :=
  ⟨h.given (.inr hgap), h.gone hgap⟩

theorem Retires.mono {s : StopPc} (h : s.Retires id w) (hburies : World.Buries id w w') : s.Retires id w' where
  self := h.self
  given hs := (h.given hs).trans_le hburies.nextId
  gone hgap := (hburies.retired (h.retired hgap)).2

theorem Retires.of_retired {s : StopPc} (hself : s.Self id) (hid : w.Retired id) : s.Retires id w :=
  ⟨hself, fun _ => hid.1, fun _ => hid.2⟩

/-- The stop ends with an error before it has removed anything. -/
theorem retires_error (id : ProcessId) (pending : List ProcessId) (e : ManagerError) (w : World) :
    (ends false pending (.error e)).Retires id w := by
  cases pending <;> exact .of_before trivial rfl fun h => by cases h

theorem Retires.next (env : Env) {s : StopPc} (h : s.Retires id w) (hgiven : w.Given id) :
    (s.next env w).1.Retires id (s.next env w).2 := by
  have hself := self_next env h.self w
  by_cases hgap : s.inGap = true
  · have hburies : World.Buries id w (s.next env w).2 := .of_mapStep (mapStep_next env s w)
    exact .of_retired hself (hburies.retired (h.retired hgap))
  · have hremoved : s.removes.isSome = true → (w.remove id).Retired id := by
      refine fun hs => ⟨h.given (.inl hs), ?_⟩
      rw [World.remove_processes, AssocMap.lookup_erase_eq, if_pos rfl]
    cases s with
    | returned result =>
      cases result with
      | error e => exact h
      | ok _ => exact absurd rfl hgap
    | stopping d stage nested pending =>
      cases nested with
      | true => exact absurd (by cases stage <;> rfl) hgap
      | false =>
        obtain rfl : d = id := h.self rfl
        cases stage with
        | check =>
          simp only [StopPc.next]
          cases hp : w.processes.lookup d with
          | none => exact retires_error d pending _ w
          | some p =>
            have hlt := hgiven p hp
            simp only
            split_ifs <;> exact .of_before (fun _ => rfl) rfl fun _ => hlt
        | dropRestarting => exact .of_retired hself (hremoved rfl)
        | dropWaiting p => exact .of_retired hself (hremoved rfl)
        | take =>
          simp only [StopPc.next] at hself ⊢
          cases hp : w.processes.lookup d with
          | none => exact retires_error d pending _ w
          | some p => exact .of_retired (fun _ => rfl) (hremoved rfl)
        | report | signal | grace | escalate | reap | join | cascade => exact absurd rfl hgap

end StopPc

/-! ### Calls -/

namespace RestartPc

/-- What a section of a restart of `i` does to the map and the spawns. -/
structure ActsFor (i : ProcessId) (c : RestartPc) (w w' : World) : Prop where
  nextId : w'.nextId = w.nextId
  entry : ∀ k p', w'.processes.lookup k = some p' →
    (∃ p, w.processes.lookup k = some p) ∨ (k = i ∧ ∃ q, c = .insert q)
  spawns : Grows (fun s => s.id = i) w.spawns w'.spawns

theorem ActsFor.of_mapStep {c : RestartPc} {R : ProcessId → Process → Process → Prop} {S : Set ℕ}
    {P : KillCall → Prop} (h : MapStep R S P w w') : ActsFor i c w w' where
  nextId := h.nextId
  entry k p' hp' := by
    obtain ⟨p, hp, _⟩ := h.processes k p' hp'
    exact .inl ⟨p, hp⟩
  spawns := .of_eq h.spawns

theorem ActsFor.of_tends {c : RestartPc} (h : World.Tends w w') : ActsFor i c w w' where
  nextId := h.nextId
  entry k p' hp' := .inl (h.tracked k p' hp')
  spawns := .of_eq h.spawns

theorem actsFor_next (env : Env) (i : ProcessId) (c : RestartPc) (w : World) :
    c.ActsFor i w (c.next env i w).2 := by
  have hrefl : c.ActsFor i w w := .of_tends (.refl w)
  cases c with
  | called =>
    simp only [next]
    split
    · exact hrefl
    · split_ifs <;> exact hrefl
  | reset p =>
    simp only [next]
    split
    · exact hrefl
    · exact .of_tends (World.tends_restartReset env i w)
  | stopping p s =>
    cases s with
    | returned result => cases result <;> exact hrefl
    | stopping d stage nested pending => exact .of_mapStep (StopPc.mapStep_next env (.stopping d stage nested pending) w)
  | respawn p inPlace =>
    have hspawns : (respawn p inPlace).ActsFor i w
        (w.spawnProcess env .restart i p.config (if inPlace then p.resolvedDeps else [])) := by
      cases hspawn : w.spawnError env p.config with
      | some e => exact .of_tends (.os (World.osStep_spawnProcess (S := ∅) (P := fun _ => True) hspawn))
      | none =>
        have hspawned := Spawned.of_ok .restart i (if inPlace then p.resolvedDeps else []) hspawn
        obtain ⟨program, hnew⟩ := hspawned.spawns
        refine ⟨hspawned.nextId, fun k p' hp' => .inl ⟨p', hspawned.processes ▸ hp'⟩, ?_⟩
        exact hnew ▸ .cons _ rfl
    have hbumped : (respawn p inPlace).ActsFor i w
        (w.spawnProcess env .restart i p.config (if inPlace then p.resolvedDeps else [])).bumpSequence := { hspawns with }
    simp only [next]
    split
    · exact hspawns
    · split_ifs at hbumped ⊢ <;> exact hbumped
  | store child pid =>
    cases hp : w.processes.lookup i with
    | none =>
      simp only [next, World.restartStore, hp]
      exact hrefl
    | some q =>
      obtain ⟨w', now, hstep, heq⟩ := World.restartStore_eq (P := fun _ => False) env child pid hp
      have hput : MapStep (fun _ _ _ => True) ∅ (fun _ => False) w (w.restartStore env i child pid).2 :=
        heq ▸ .put_of (fun _ _ => trivial) hstep fun _ _ => trivial
      exact .of_mapStep hput
  | insert q =>
    refine ⟨rfl, fun k p' hp' => ?_, .refl _⟩
    simp only [next, World.insert_processes, AssocMap.lookup_reorder, AssocMap.lookup_insert_eq] at hp'
    split_ifs at hp' with hk
    · exact .inr ⟨hk, q, rfl⟩
    · exact .inl ⟨p', hp'⟩
  | inserted => exact .of_tends (World.tends_markStartedEntry env i w)
  | returned result => exact hrefl

theorem ActsFor.buries {c : RestartPc} (h : c.ActsFor i w w') (hne : i ≠ id) : World.Buries id w w' where
  nextId := h.nextId.ge
  entry p' hp' := (h.entry id p' hp').imp_right fun hid => absurd hid.1.symm hne
  spawns _ := h.spawns.mono fun _ hs hid => hne (hs.symm.trans hid)

/-- An id that the call inserts was given out. -/
theorem ActsFor.given {c : RestartPc} (h : c.ActsFor i w w') (hfound : c.Found i w) (hid : w.Given id) :
    w'.Given id := by
  intro p' hp'
  rw [h.nextId]
  obtain ⟨p, hp⟩ | ⟨rfl, q, rfl⟩ := h.entry id p' hp'
  · exact hid p hp
  · exact hfound

end RestartPc

namespace Call

/-- The call is restarting `id`. -/
def Restarts (id : ProcessId) : Call → Prop
  | .stop _ | .restart _ (.returned _) => False
  | .restart i _ => i = id

/-- A call of `stop` that has returned `Ok`. -/
def stopped : Call → Bool
  | .stop (.returned (.ok _)) => true
  | _ => false

theorem nextId_next (env : Env) (c : Call) (w : World) : (c.next env w).2.nextId = w.nextId := by
  cases c with
  | stop s => exact (s.mapStep_next env w).nextId
  | restart i c => exact (c.actsFor_next env i w).nextId

theorem buries_next (env : Env) {c : Call} (h : ¬ c.Restarts id) (w : World) :
    World.Buries id w (c.next env w).2 := by
  cases c with
  | stop s => exact .of_mapStep (s.mapStep_next env w)
  | restart i c =>
    cases c with
    | returned result => exact .refl id w
    | called | reset | stopping | respawn | store | insert | inserted =>
      exact (RestartPc.actsFor_next env i _ w).buries h

theorem given_next (env : Env) {c : Call} (hfound : c.Found w) (hid : w.Given id) : (c.next env w).2.Given id := by
  cases c with
  | stop s => exact (World.Buries.of_mapStep (s.mapStep_next env w)).given hid
  | restart i c => exact (c.actsFor_next env i w).given hfound hid

theorem Restarts.eq {c : RestartPc} (h : (Call.restart i c).Restarts id) : i = id := by
  cases c with
  | returned result => exact h.elim
  | called | reset | stopping | respawn | store | insert | inserted => exact h

theorem Restarts.of_next (env : Env) {c : Call} (h : (c.next env w).1.Restarts id) : c.Restarts id := by
  cases c with
  | stop s => exact h
  | restart i c =>
    have hi : i = id := h.eq
    cases c with
    | returned result => exact h
    | called | reset | stopping | respawn | store | insert | inserted => exact hi

theorem Found.mono {c : Call} (h : c.Found w) (hnextId : w.nextId ≤ w'.nextId) : c.Found w' := by
  cases c with
  | stop s => trivial
  | restart i c =>
    cases c with
    | called | returned => trivial
    | reset | stopping | respawn | store | insert | inserted => exact Nat.lt_of_lt_of_le h hnextId

end Call

end ProcessManager
