import ProcessManager.System.Retirement
import ProcessManager.System.Standalone

/-! Which call may put a process back. A call that has taken a process without dependencies out of
the map claims it until it has ended or has inserted it again; nobody else claims it, and nobody
spawns for it, in the meantime. -/

namespace ProcessManager

variable {env : Env} {pollInterval : ℕ} {w w' : World} {id i : ProcessId} {p : Process} {k : Handle}

/-! ### The stop of a process without dependencies -/

/-- The stage is one of the stop of a process in `Waiting`. -/
def StopStage.waits : StopStage → Bool
  | .dropWaiting _ | .report _ => true
  | _ => false

namespace StopPc

/-- A stop that goes on to no dependents, with the valid handle of the process it has taken. -/
def Simple (id : ProcessId) (w : World) : StopPc → Prop
  | .stopping d stage nested pending => d = id ∧ nested = false ∧ pending = [] ∧ stage.waits = false ∧
      ∀ p ∈ stage.held, p.state = .stopping ∧ ∀ k ∈ p.handle, w.Valid k
  | .returned _ => True

/-- The process that the stop has taken. -/
def held : StopPc → Option Process
  | .stopping _ stage _ _ => stage.held
  | .returned _ => none

theorem simple_call (id : ProcessId) (w : World) : (call id).Simple id w :=
  ⟨rfl, rfl, rfl, rfl, fun p hp => by cases hp⟩

theorem Simple.ages {S : Set ℕ} {s : StopPc} (h : s.Simple id w) (hages : Ages S w.children w'.children) : s.Simple id w' := by
  cases s with
  | returned result => trivial
  | stopping d stage nested pending =>
    obtain ⟨hd, hnested, hpending, hwaits, hheld⟩ := h
    exact ⟨hd, hnested, hpending, hwaits, fun p hp => ⟨(hheld p hp).1, fun k hk => ((hheld p hp).2 k hk).ages hages⟩⟩

/-- The stop of the process itself, at a stage that has to do with nobody else. -/
theorem Simple.of_stage {stage : StopStage} (hwaits : stage.waits = false)
    (hheld : ∀ p ∈ stage.held, p.state = .stopping ∧ ∀ k ∈ p.handle, w.Valid k) :
    (StopPc.stopping id stage false []).Simple id w := ⟨rfl, rfl, rfl, hwaits, hheld⟩

theorem simple_goesOn (id : ProcessId) (p : Process) (w : World) : (goesOn id p false []).Simple id w := by
  unfold goesOn
  split_ifs
  · exact .of_stage rfl fun q hq => by cases hq
  · trivial

theorem dependents_of_standalone (hw : w.Standalone) (id : ProcessId) : w.dependents id = [] := by
  refine List.eq_nil_iff_forall_not_mem.mpr fun i hi => ?_
  obtain ⟨p, hp, hmem⟩ := AssocMap.mem_keysWhere.mp hi
  rw [(hw i p hp).resolvedDeps] at hmem
  simp at hmem

theorem simple_next (env : Env) {s : StopPc} (h : s.Simple id w) (hw : w.Standalone) :
    (s.next env w).1.Simple id (s.next env w).2 := by
  cases s with
  | returned result => trivial
  | stopping d stage nested pending =>
    obtain ⟨rfl, rfl, rfl, hwaits, hheld⟩ := h
    have hages : Ages Set.univ w.children ((StopPc.stopping d stage false []).next env w).2.children :=
      (mapStep_next env _ w).children
    have hnone : ∀ {q : Process} {P : Prop}, q ∈ (none : Option Process) → P := fun hq => by cases hq
    -- the next stage has the same process
    have hsame : ∀ {p}, stage.held = some p → ∀ {stage' : StopStage}, stage'.waits = false → stage'.held = some p →
        (StopPc.stopping d stage' false []).Simple d ((StopPc.stopping d stage false []).next env w).2 := by
      intro p hp stage' hwaits' hp'
      refine .of_stage hwaits' fun q hq => ?_
      obtain rfl : p = q := Option.some.inj (hp'.symm.trans hq)
      exact ⟨(hheld p hp).1, fun k hk => ((hheld p hp).2 k hk).ages hages⟩
    cases stage with
    | check =>
      simp only [next]
      split
      · trivial
      · next p hp =>
        rw [if_neg (hw d p hp).state]
        split_ifs <;> exact .of_stage rfl fun q hq => hnone hq
    | dropRestarting => trivial
    | dropWaiting | report => cases hwaits
    | take =>
      simp only [next]
      split
      · trivial
      · next p hp =>
        refine .of_stage rfl fun q hq => ?_
        obtain rfl : p.markStopping = q := Option.some.inj hq
        have hstays : p.Stays p.markStopping :=
          ⟨rfl, rfl, rfl, fun h => (by cases h), fun h => (by cases h), .inl rfl⟩
        have hvalid := ((hw d p hp).stays hstays (.refl w.children : Ages ∅ _ _)).valid
        exact ⟨rfl, fun k hk => (hvalid k hk).ages (.refl w.children : Ages ∅ _ _)⟩
    | signal p =>
      simp only [next] at hsame ⊢
      split
      · trivial
      · trivial
      · next he =>
        simp only [he] at hsame
        exact hsame rfl rfl rfl
    | grace p deadline =>
      obtain ⟨hstate, _⟩ := hheld p rfl
      have hpoll : ∀ w' : World, p.pollState env w' = (p, w') :=
        fun w' => Process.pollState_of_settled (by simp [hstate]) (by simp [hstate])
      simp only [next, hpoll, World.isRunning_of_stopping hstate, ↓reduceIte] at hsame ⊢
      split_ifs with hearly <;> simp only [hearly, ↓reduceIte] at hsame <;> exact hsame rfl rfl rfl
    | escalate p =>
      simp only [next] at hsame ⊢
      split
      · trivial
      · trivial
      · next he =>
        simp only [he] at hsame
        exact hsame rfl rfl rfl
    | reap p deadline =>
      simp only [next] at hsame ⊢
      split_ifs with hearly hexited <;> simp only [hearly, ↓reduceIte] at hsame
      · simp only [hexited, ↓reduceIte] at hsame
        exact hsame rfl rfl rfl
      · simp only [hexited, Bool.false_eq_true, ↓reduceIte] at hsame
        exact hsame rfl rfl rfl
      · exact hsame rfl rfl rfl
    | join p => exact simple_goesOn ..
    | cascade =>
      simp only [next, dependents_of_standalone hw]
      trivial

/-! ### What a stop takes, and what it lets go of -/

/-- What a stop does next agrees with what it has found: its shortcut finds an entry in `Restarting`,
if it finds one, and its signal is not refused. -/
def UpToDate (env : Env) : StopPc → World → Prop
  | .stopping id .dropRestarting _ _, w => ∀ p ∈ w.processes.lookup id, p.state = .restarting
  | .stopping _ (.signal p) _ _, w => w.killError env p.pid ≠ some .eperm
  | _, _ => True

/-- The stop that is part of a restart removes the entry itself, and finds that the child has exited. -/
def Clears (env : Env) : StopPc → World → Prop
  | .stopping id .dropRestarting _ _, w => (w.processes.lookup id).isSome = true
  | .stopping _ (.join p) _ _, w => p.child.isSome = true → (p.tryWaitExit env w).1.isSome = true
  | _, _ => True

instance (env : Env) : ∀ (s : StopPc) (w : World), Decidable (s.UpToDate env w)
  | .stopping id .dropRestarting _ _, w => inferInstanceAs (Decidable (∀ p ∈ w.processes.lookup id, p.state = .restarting))
  | .stopping _ (.signal p) _ _, w => inferInstanceAs (Decidable (w.killError env p.pid ≠ some .eperm))
  | .returned _, _ | .stopping _ .check _ _, _ | .stopping _ (.dropWaiting _) _ _, _ | .stopping _ (.report _) _ _, _
  | .stopping _ .take _ _, _ | .stopping _ (.grace _ _) _ _, _ | .stopping _ (.escalate _) _ _, _
  | .stopping _ (.reap _ _) _ _, _ | .stopping _ (.join _) _ _, _ | .stopping _ .cascade _ _, _ => .isTrue trivial

instance (env : Env) : ∀ (s : StopPc) (w : World), Decidable (s.Clears env w)
  | .stopping id .dropRestarting _ _, w => inferInstanceAs (Decidable ((w.processes.lookup id).isSome = true))
  | .stopping _ (.join p) _ _, w =>
    inferInstanceAs (Decidable (p.child.isSome = true → (p.tryWaitExit env w).1.isSome = true))
  | .returned _, _ | .stopping _ .check _ _, _ | .stopping _ (.dropWaiting _) _ _, _ | .stopping _ (.report _) _ _, _
  | .stopping _ .take _ _, _ | .stopping _ (.grace _ _) _ _, _ | .stopping _ (.escalate _) _ _, _
  | .stopping _ (.reap _ _) _ _, _ | .stopping _ (.signal _) _ _, _ | .stopping _ .cascade _ _, _ => .isTrue trivial

/-- Up to date, a stop without dependents is not in the way of a running child. -/
theorem harmless_of_upToDate {s : StopPc} (h : s.Simple id w) (hw : w.Standalone) (hup : s.UpToDate env w) :
    s.Harmless env w := by
  cases s with
  | returned result => trivial
  | stopping d stage nested pending =>
    obtain ⟨rfl, rfl, rfl, hwaits, hheld⟩ := h
    cases stage with
    | dropRestarting =>
      intro p hp c hc
      rw [(hw d p hp).childless (hup p hp)] at hc
      cases hc
    | dropWaiting p => cases hwaits
    | signal p =>
      intro c hc hruns
      have hk : p.handle = some ⟨c, p.pid⟩ := Process.handle_eq.mpr ⟨hc, rfl⟩
      have hvalid := (hheld p rfl).2 _ hk
      cases he : (p.sendSignal env .stop p.config.killSignal w).1 with
      | none => rfl
      | some e =>
        cases e with
        | esrch => exact absurd hruns (hvalid.not_runs_of_sendSignal hk he)
        | eperm =>
          rw [Process.sendSignal, if_neg hvalid.pid] at he
          exact absurd he hup
    | check | report | take | grace | escalate | reap | join | cascade => trivial

/-- The own stop of a restart gets past the removal only by the removal. -/
theorem gap_next {s : StopPc} (h : s.Simple id w) (hclears : s.Clears env w) (hgap : (s.next env w).1.inGap = true) :
    s.inGap = true ∨ ((∃ p, w.processes.lookup id = some p) ∧ (s.next env w).2.processes.lookup id = none) := by
  cases s with
  | returned result => exact .inl hgap
  | stopping d stage nested pending =>
    obtain ⟨rfl, rfl, rfl, hwaits, _⟩ := h
    cases stage with
    | check =>
      simp only [next] at hgap
      split at hgap
      · cases hgap
      · split_ifs at hgap <;> cases hgap
    | dropRestarting =>
      refine .inr ⟨Option.isSome_iff_exists.mp hclears, ?_⟩
      show (w.processes.erase d).lookup d = none
      rw [AssocMap.lookup_erase_eq, if_pos rfl]
    | take =>
      simp only [next] at hgap ⊢
      cases hp : w.processes.lookup d with
      | none =>
        rw [hp] at hgap
        cases hgap
      | some p =>
        refine .inr ⟨⟨p, rfl⟩, ?_⟩
        show (w.processes.erase d).lookup d = none
        rw [AssocMap.lookup_erase_eq, if_pos rfl]
    | dropWaiting => cases hwaits
    | report | signal | grace | escalate | reap | join | cascade => exact .inl rfl

theorem held_ends (nested : Bool) (pending : List ProcessId) (result : Except ManagerError Unit) :
    (ends nested pending result).held = none := by
  cases nested <;> cases pending <;> cases result <;> rfl

theorem inGap_of_held {s : StopPc} (h : s.held = some p) : s.inGap = true := by
  cases s with
  | returned result => cases h
  | stopping d stage nested pending => cases nested <;> cases stage <;> first | rfl | cases h

/-- A child that was waited for. -/
theorem not_childRuns_of_tryWaitExit {c : ℕ} (hc : p.child = some c) (h : (p.tryWaitExit env w).1.isSome = true) :
    ¬ (p.tryWaitExit env w).2.ChildRuns c := by
  rw [Process.tryWaitExit_of_child hc] at h ⊢
  cases hresult : w.waitResult env c with
  | exited status => exact World.not_childRuns_of_exited hresult
  | running | error =>
    rw [hresult] at h
    cases h

/-- A stop keeps what it has taken, or it is done with it: then the child is not running, unless the
stop fails or gives up. -/
theorem held_next {s : StopPc} (h : s.Simple id w) (hp : s.held = some p) :
    (s.next env w).1.held = some p ∨ ((s.next env w).1.held = none ∧ ((s.next env w).1.inGap = true →
      s.Clears env w → ∀ c ∈ p.child, ¬ (s.next env w).2.ChildRuns c)) := by
  cases s with
  | returned result => cases hp
  | stopping d stage nested pending =>
    obtain ⟨rfl, rfl, rfl, _, hheld⟩ := h
    obtain ⟨hstate, hvalid⟩ := hheld p hp
    have hjoined : ∀ {w' : World} {c : ℕ}, ¬ w'.ChildRuns c → ¬ (p.joinReaders env w').ChildRuns c :=
      fun hnot hruns => hnot ((tends_joinReaders env p _).runs hruns)
    have hfreed : ∀ {signal : KillSignal} {site : KillSite} {c : ℕ}, p.child = some c →
        (p.sendSignal env site signal w).1 = some .esrch →
          ¬ (p.joinReaders env (p.sendSignal env site signal w).2).ChildRuns c := by
      intro signal site c hc he
      have hk : p.handle = some ⟨c, p.pid⟩ := Process.handle_eq.mpr ⟨hc, rfl⟩
      exact hjoined ((hvalid _ hk).not_runs_of_sendSignal hk he)
    cases stage with
    | check | dropRestarting | dropWaiting | report | take | cascade => cases hp
    | signal q =>
      obtain rfl : q = p := Option.some.inj hp
      simp only [next]
      split
      · next he => exact .inr ⟨rfl, fun _ _ c hc => hfreed hc he⟩
      · exact .inr ⟨rfl, fun hgap => by cases hgap⟩
      · exact .inl rfl
    | grace q deadline =>
      obtain rfl : q = p := Option.some.inj hp
      have hpoll : ∀ w' : World, q.pollState env w' = (q, w') :=
        fun w' => Process.pollState_of_settled (by simp [hstate]) (by simp [hstate])
      simp only [next, hpoll, World.isRunning_of_stopping hstate, ↓reduceIte]
      split_ifs <;> exact .inl rfl
    | escalate q =>
      obtain rfl : q = p := Option.some.inj hp
      simp only [next]
      split
      · next he => exact .inr ⟨rfl, fun _ _ c hc => hfreed hc he⟩
      · exact .inr ⟨rfl, fun hgap => by cases hgap⟩
      · exact .inl rfl
    | reap q deadline =>
      obtain rfl : q = p := Option.some.inj hp
      simp only [next]
      split_ifs <;> exact .inl rfl
    | join q =>
      obtain rfl : q = p := Option.some.inj hp
      refine .inr ⟨?_, fun _ hclears c hc => ?_⟩
      · show (goesOn d q false []).held = none
        unfold goesOn
        split_ifs <;> rfl
      · exact hjoined (not_childRuns_of_tryWaitExit hc (hclears (Option.isSome_iff_exists.mpr ⟨c, hc⟩)))

theorem holds_iff {s : StopPc} (h : s.Simple id w) :
    s.holds = some (i, k) ↔ i = id ∧ ∃ p, s.held = some p ∧ p.handle = some k := by
  cases s with
  | returned result => simp [holds, held]
  | stopping d stage nested pending =>
    obtain ⟨rfl, _⟩ := h
    cases hp : stage.held <;> simp [holds, held, hp, eq_comm, and_comm]

/-- A stop drops the handle of a running child only if it ends with an error, or gives up. -/
theorem drops_next {s : StopPc} (h : s.Simple id w) (hw : w.Standalone) (hk : s.holds = some (i, k))
    (hruns : (s.next env w).2.ChildRuns k.child) : (s.next env w).1.holds = some (i, k) ∨
      ((s.next env w).1.held = none ∧ ((s.next env w).1.inGap = true → ¬ s.Clears env w)) := by
  obtain ⟨rfl, p, hp, hhandle⟩ := (holds_iff h).mp hk
  obtain hp' | ⟨hnone, hends⟩ := held_next h hp
  · exact .inl ((holds_iff (simple_next env h hw)).mpr ⟨rfl, p, hp', hhandle⟩)
  · exact .inr ⟨hnone, fun hgap hclears => hends hgap hclears _ (Process.handle_eq.mp hhandle).1 hruns⟩

/-- What a stop has taken stays out of the map. -/
theorem untracked_next (env : Env) (s : StopPc) (h : w.processes.lookup i = none) :
    (s.next env w).2.processes.lookup i = none := by
  refine Option.eq_none_iff_forall_ne_some.mpr fun p hp => ?_
  obtain ⟨q, hq, _⟩ := (s.mapStep_next env w).processes i p hp
  rw [h] at hq
  cases hq

/-- A stop takes an entry by its removal. -/
theorem taken_next {s : StopPc} (h : s.Simple id w) (hp : (s.next env w).1.held = some p) (hnone : s.held = none) :
    (∃ q, w.processes.lookup id = some q) ∧ (s.next env w).2.processes.lookup id = none := by
  cases s with
  | returned result => cases hp
  | stopping d stage nested pending =>
    obtain ⟨rfl, rfl, rfl, hwaits, _⟩ := h
    cases stage with
    | check =>
      simp only [next] at hp
      split at hp
      · cases hp
      · split_ifs at hp <;> cases hp
    | dropRestarting => cases hp
    | cascade => cases (held_ends false _ (.ok ())).symm.trans hp
    | take =>
      simp only [next] at hp ⊢
      cases hq : w.processes.lookup d with
      | none =>
        rw [hq] at hp
        cases hp
      | some q =>
        refine ⟨⟨q, rfl⟩, ?_⟩
        show (w.processes.erase d).lookup d = none
        rw [AssocMap.lookup_erase_eq, if_pos rfl]
    | dropWaiting | report => cases hwaits
    | signal | grace | escalate | reap | join => cases hnone

end StopPc

/-! ### The restart of a process without dependencies -/

namespace RestartPc

/-- What the call carries along is of a process without dependencies. -/
def Simple (id : ProcessId) (w : World) : RestartPc → Prop
  | .stopping p s => p.config.dependsOn = [] ∧ s.Simple id w
  | .reset p | .respawn p _ => p.config.dependsOn = []
  | .store child pid => w.Valid ⟨child, pid⟩
  | .insert q => q.Standalone id w
  | .called | .inserted | .returned _ => True

/-- The next section puts a child into the map. -/
def places : RestartPc → Bool
  | .store .. | .insert _ => true
  | _ => false

theorem Simple.ages {S : Set ℕ} {c : RestartPc} (h : c.Simple id w) (hages : Ages S w.children w'.children) :
    c.Simple id w' := by
  cases c with
  | stopping p s => exact ⟨h.1, h.2.ages hages⟩
  | store child pid => exact World.Valid.ages h hages
  | insert q => exact Process.Standalone.stays h (.refl q) hages
  | called | reset | respawn | inserted | returned => exact h

theorem mends_next (env : Env) {c : RestartPc} (h : c.Simple id w) (hw : w.Standalone) (hi : c.places = true → i = id) :
    World.Mends i w (c.next env id w).2 := by
  have hrefl : World.Mends i w w := (World.Rests.refl w).mends hw
  cases c with
  | called =>
    simp only [next]
    split
    · exact hrefl
    · split_ifs <;> exact hrefl
  | reset p =>
    simp only [next]
    split
    · exact hrefl
    · exact (World.rests_restartReset env id w).mends hw
  | stopping p s =>
    cases s with
    | returned result => cases result <;> exact hrefl
    | stopping d stage nested pending =>
      have hstep := StopPc.mapStep_next env (.stopping d stage nested pending) w
      exact (World.Rests.of_mapStep hstep).mends hw
  | respawn p inPlace =>
    simp only [next]
    cases hspawn : w.spawnError env p.config with
    | some e => exact (World.Rests.os (World.osStep_spawnProcess (S := ∅) (P := fun _ => True) hspawn)).mends hw
    | none => cases inPlace <;> exact World.mends_spawn .restart id _ hw hspawn
  | store child pid =>
    obtain rfl := hi rfl
    exact World.mends_restartStore env hw h
  | insert q =>
    obtain rfl := hi rfl
    exact .insert env hw h
  | inserted => exact (World.rests_markStartedEntry env id w).mends hw
  | returned result => exact hrefl

theorem simple_next (env : Env) {c : RestartPc} (h : c.Simple id w) (hw : w.Standalone) :
    (c.next env id w).1.Simple id (c.next env id w).2 := by
  cases c with
  | called =>
    simp only [next]
    split
    · trivial
    · next p hp =>
      split_ifs
      · exact (hw id p hp).dependsOn
      · exact ⟨(hw id p hp).dependsOn, StopPc.simple_call id w⟩
  | reset p =>
    simp only [next]
    split
    · trivial
    · exact h
  | stopping p s =>
    cases s with
    | returned result =>
      cases result with
      | error e => trivial
      | ok _ => exact h.1
    | stopping d stage nested pending => exact ⟨h.1, StopPc.simple_next env h.2 hw⟩
  | respawn p inPlace =>
    simp only [next]
    cases hspawn : w.spawnError env p.config with
    | some e => trivial
    | none =>
      cases inPlace with
      | true =>
        have hspawned : Spawned env .restart id p.config p.resolvedDeps w _ := .of_ok _ _ _ hspawn
        exact ⟨hspawned.valid.genuine, hspawned.valid.pid⟩
      | false => exact World.standalone_spawnedProcess .restart hspawn h
  | store | insert | inserted | returned => trivial

theorem gap_next {c : RestartPc} (h : c.Simple id w) (hclears : ∀ p s, c = .stopping p s → s.Clears env w)
    (hgap : (c.next env id w).1.inGap = true) : c.inGap = true ∨
      ((∃ p, w.processes.lookup id = some p) ∧ (c.next env id w).2.processes.lookup id = none) := by
  cases c with
  | called =>
    simp only [next] at hgap
    split at hgap
    · cases hgap
    · split_ifs at hgap <;> cases hgap
  | reset p =>
    simp only [next] at hgap
    split at hgap <;> cases hgap
  | stopping p s =>
    cases s with
    | returned result =>
      cases result with
      | error e => cases hgap
      | ok _ => exact .inl rfl
    | stopping d stage nested pending => exact StopPc.gap_next h.2 (hclears _ _ rfl) hgap
  | respawn p inPlace =>
    cases inPlace with
    | false => exact .inl rfl
    | true =>
      simp only [next] at hgap
      split at hgap <;> cases hgap
  | insert => exact .inl rfl
  | store | inserted | returned => cases hgap

end RestartPc

end ProcessManager
