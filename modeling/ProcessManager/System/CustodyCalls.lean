import ProcessManager.System.Custody

/-! The sections of `stop` and `restart`, and the handle that a call has in the meantime. Between a
check of the map and the section that acts on it, another thread can put a running child in
the way; a section that finds none in its way loses none. -/

namespace ProcessManager

variable {env : Env} {w w' : World} {id : ProcessId} {p : Process}

/-! ### The sections of a stop -/

/-- The process that the stop has signalled. -/
def StopStage.signalled : StopStage → Option Process
  | .grace p _ | .escalate p | .reap p _ | .join p => some p
  | _ => none

theorem StopStage.held_of_signalled {stage : StopStage} (h : stage.signalled = some p) : stage.held = some p := by
  cases stage with
  | grace | escalate | reap | join => exact h
  | check | dropRestarting | dropWaiting | report | take | signal | cascade => cases h

/-- A stop that was not refused has signalled the process. -/
theorem World.stopSignalled_sendSignal {site : KillSite} {signal : KillSignal} {k : Handle}
    (hsite : site = .stop ∨ site = .stopEscalation) (hk : p.handle = some k)
    (h : (p.sendSignal env site signal w).1 = none) : (p.sendSignal env site signal w).2.StopSignalled k := by
  obtain ⟨hchild, hpid⟩ := Process.handle_eq.mp hk
  unfold Process.sendSignal at h ⊢
  split_ifs at h ⊢ with hzero
  exact ⟨_, List.mem_cons_self, hsite, hchild, hpid, h⟩

namespace StopPc

/-- A section of a stop removes an entry or leaves the map as it is. -/
theorem mapStep_next (env : Env) (s : StopPc) (w : World) :
    MapStep Kept Set.univ (fun _ => True) w (s.next env w).2 := by
  have hos : ∀ {T : Set ℕ} {P : KillCall → Prop} {w' : World}, OsStep T P w w' →
      MapStep Kept Set.univ (fun _ => True) w w' := fun hstep =>
    .of_osStep kept_refl (hstep.mono (Set.subset_univ _) fun _ _ => trivial)
  have hrefl : MapStep Kept Set.univ (fun _ => True) w w := .of_osStep kept_refl (.refl w)
  cases s with
  | returned result => exact hrefl
  | stopping d stage nested pending =>
    have htick : OsStep Set.univ (fun _ => True) w (w.tick env) := w.osStep_tick env
    cases stage with
    | check =>
      simp only [next]
      split
      · exact hrefl
      · split_ifs <;> exact hrefl
    | dropRestarting => exact .remove d w
    | dropWaiting p => exact .remove d w
    | report p => exact hos (World.osStep_sendFromHandle (P := fun _ => True) _)
    | take =>
      simp only [next]
      split
      · exact hrefl
      · exact .remove d w
    | signal p =>
      have hsignal : OsStep Set.univ (fun _ => True) w (p.sendSignal env .stop p.config.killSignal w).2 :=
        Process.osStep_sendSignal.mono (Set.empty_subset _) fun _ _ => trivial
      simp only [next]
      split
      · exact hos (hsignal.trans (Process.osStep_joinReaders env p))
      · exact hos hsignal
      · exact hos (hsignal.trans (World.osStep_tick env _))
    | grace p deadline =>
      have hpoll : OsStep Set.univ (fun _ => True) w (p.pollState env (w.tick env)).2 :=
        htick.trans (Process.osStep_pollState.mono (Set.subset_univ _) fun _ h => h)
      simp only [next]
      split_ifs
      · exact hos (hpoll.trans (World.osStep_sleep env _ _))
      · exact hos (hpoll.trans (Process.osStep_joinReaders env (p.pollState env (w.tick env)).1))
      · exact hos htick
    | escalate p =>
      have hkill : OsStep Set.univ (fun _ => True) w (p.forceKill env .stopEscalation w).2 :=
        Process.osStep_forceKill.mono (Set.empty_subset _) fun _ _ => trivial
      simp only [next]
      split
      · exact hos (hkill.trans (Process.osStep_joinReaders env p))
      · exact hos hkill
      · exact hos (hkill.trans (World.osStep_tick env _))
    | reap p deadline =>
      have htry : OsStep Set.univ (fun _ => True) w (p.tryWaitExit env (w.tick env)).2 :=
        htick.trans (Process.osStep_tryWaitExit.mono (Set.subset_univ _) fun _ h => h)
      simp only [next]
      split_ifs
      · exact hos htry
      · exact hos (htry.trans (World.osStep_sleep env _ _))
      · exact hos htick
    | join p =>
      have htry : OsStep Set.univ (fun _ => True) w (p.tryWaitExit env w).2 :=
        Process.osStep_tryWaitExit.mono (Set.subset_univ _) fun _ h => h
      exact hos (htry.trans (Process.osStep_joinReaders env p))
    | cascade => exact hrefl

/-- The handle that the stop has, with the process it belongs to. -/
def holds : StopPc → Option (ProcessId × Handle)
  | .stopping id stage _ _ => (stage.held.bind Process.handle).map (id, ·)
  | .returned _ => none

/-- What the stop has signalled. -/
def Warned (w : World) : StopPc → Prop
  | .stopping _ stage _ _ => ∀ p ∈ stage.signalled, ∀ k ∈ p.handle, w.StopSignalled k
  | .returned _ => True

/-- The section does not remove an entry unsignalled whose child is running, and is not refused
to signal one. -/
def Harmless (env : Env) : StopPc → World → Prop
  | .stopping id .dropRestarting _ _, w | .stopping id (.dropWaiting _) _ _, w => w.Vacant id
  | .stopping _ (.signal p) _ _, w =>
    ∀ c ∈ p.child, (p.sendSignal env .stop p.config.killSignal w).2.ChildRuns c →
      (p.sendSignal env .stop p.config.killSignal w).1 = none
  | _, _ => True

theorem holds_ends (nested : Bool) (pending : List ProcessId) (result : Except ManagerError Unit) :
    (ends nested pending result).holds = none := by
  cases nested <;> cases pending <;> cases result <;> rfl

theorem holds_goesOn (id : ProcessId) (p : Process) (nested : Bool) (pending : List ProcessId) :
    (goesOn id p nested pending).holds = none := by
  unfold goesOn
  split_ifs
  · rfl
  · exact holds_ends nested pending _

theorem Warned.of_holds {s : StopPc} (h : s.holds = none) : s.Warned w := by
  cases s with
  | returned result => trivial
  | stopping id stage nested pending =>
    intro p hp k hk
    have hholds : (stage.held.bind Process.handle).map (id, ·) = some (id, k) := by
      rw [StopStage.held_of_signalled hp, Option.bind_some, hk, Option.map_some]
    exact absurd (h.symm.trans hholds) nofun

/-- The stop lets go of what it has. -/
theorem passes_end {held : Option (ProcessId × Handle)} {s : StopPc} (hs : s.holds = none) (h : w.Tends w')
    (hheld : ∀ i k, held = some (i, k) → w'.ChildRuns k.child → w'.StopSignalled k) :
    World.Passes held s.holds w w' ∧ s.Warned w' :=
  ⟨.of_tends h fun i k hk hr => .inr (.inr (hheld i k hk hr)), .of_holds hs⟩

/-- A stop that has nothing goes on with nothing. -/
theorem passes_empty {s : StopPc} (hs : s.holds = none) (h : w.Tends w') :
    World.Passes none s.holds w w' ∧ s.Warned w' :=
  passes_end hs h nofun

theorem holds_stopping {stage : StopStage} {i : ProcessId} {k : Handle} {nested : Bool} {pending : List ProcessId}
    (hheld : stage.held = some p) :
    (StopPc.stopping id stage nested pending).holds = some (i, k) ↔ i = id ∧ p.handle = some k := by
  rw [holds, hheld, Option.bind_some]
  cases p.handle <;> simp [eq_comm]

/-- The stop goes on with the process that it has signalled. -/
theorem passes_on {p' : Process} {stage stage' : StopStage} {nested : Bool} {pending : List ProcessId}
    (hheld : stage.held = some p) (hsignalled : stage'.signalled = some p') (hhandle : p'.handle = p.handle)
    (h : w.Tends w') (hwarned : ∀ k, p.handle = some k → w'.StopSignalled k) :
    World.Passes (StopPc.stopping id stage nested pending).holds
        (StopPc.stopping id stage' nested pending).holds w w' ∧
      (StopPc.stopping id stage' nested pending).Warned w' := by
  refine ⟨.of_tends h fun i k hk _ => .inr (.inl ?_), fun q hq k hk => ?_⟩
  · rw [holds_stopping hheld] at hk
    rwa [holds_stopping (StopStage.held_of_signalled hsignalled), hhandle]
  · obtain rfl : p' = q := Option.some.inj (hsignalled.symm.trans hq)
    exact hwarned k (hhandle ▸ hk)

/-- What the next section hands over, and what the stop knows afterwards. -/
def HandsOver (env : Env) (s : StopPc) (w : World) : Prop :=
  World.Passes s.holds (s.next env w).1.holds w (s.next env w).2 ∧ (s.next env w).1.Warned (s.next env w).2

section Sections

variable {d : ProcessId} {stage : StopStage} {nested : Bool} {pending : List ProcessId} {deadline : Instant}

theorem tends_tick (env : Env) (w : World) : w.Tends (w.tick env) :=
  .os (w.osStep_tick (S := ∅) (P := fun _ => True) env)

theorem tends_joinReaders (env : Env) (p : Process) (w : World) : w.Tends (p.joinReaders env w) :=
  .os (Process.osStep_joinReaders env (S := ∅) (P := fun _ => True) p)

theorem tends_sendSignal (env : Env) (site : KillSite) (p : Process) (signal : KillSignal) (w : World) :
    w.Tends (p.sendSignal env site signal w).2 :=
  have hstep : OsStep ∅ (KillsFrom p w) w (p.sendSignal env site signal w).2 := Process.osStep_sendSignal
  .os hstep

/-- What was signalled stays signalled. -/
theorem Warned.kept (h : (StopPc.stopping d stage nested pending).Warned w) (hp : stage.signalled = some p)
    (hw : w.Tends w') : ∀ k, p.handle = some k → w'.StopSignalled k := fun k hk => (h _ hp k hk).grows hw.kills

/-- The stop may let go of what it has signalled. -/
theorem Warned.freed (h : (StopPc.stopping d stage nested pending).Warned w) (hp : stage.signalled = some p)
    (hw : w.Tends w') : ∀ i k, (StopPc.stopping d stage nested pending).holds = some (i, k) →
      w'.ChildRuns k.child → w'.StopSignalled k := fun _ k hk _ =>
  h.kept hp hw k ((holds_stopping (StopStage.held_of_signalled hp)).mp hk).2

theorem handsOver_take (env : Env) (w : World) : (StopPc.stopping d .take nested pending).HandsOver env w := by
  simp only [HandsOver, next]
  cases hp : w.processes.lookup d with
  | none => exact passes_empty (holds_ends ..) (.refl w)
  | some p =>
    have htake : World.Passes none (p.markStopping.handle.map (d, ·)) w (w.remove d) := .take hp rfl
    refine ⟨htake, ?_⟩
    rintro q ⟨⟩

/-- A refusal is harmless if the child is not running. -/
theorem handsOver_signal (h : (StopPc.stopping d (.signal p) nested pending).Harmless env w) :
    (StopPc.stopping d (.signal p) nested pending).HandsOver env w := by
  have hsignal := tends_sendSignal env .stop p p.config.killSignal w
  have hticked := hsignal.trans (tends_tick env _)
  have hjoined := tends_joinReaders env p (p.sendSignal env .stop p.config.killSignal w).2
  have hrefused : (p.sendSignal env .stop p.config.killSignal w).1 ≠ none →
      ∀ {w'}, World.Tends (p.sendSignal env .stop p.config.killSignal w).2 w' → ∀ i k,
        (StopPc.stopping d (.signal p) nested pending).holds = some (i, k) → w'.ChildRuns k.child →
          w'.StopSignalled k := by
    intro hne w' hw' i k hk hr
    have hchild := (Process.handle_eq.mp ((holds_stopping rfl).mp hk).2).1
    exact absurd (h k.child hchild (hw'.runs hr)) hne
  simp only [HandsOver, next]
  cases he : (p.sendSignal env .stop p.config.killSignal w).1 with
  | none =>
    refine passes_on rfl rfl rfl hticked fun k hk => ?_
    exact (World.stopSignalled_sendSignal (.inl rfl) hk he).grows (tends_tick env _).kills
  | some e =>
    have hne : (p.sendSignal env .stop p.config.killSignal w).1 ≠ none := by simp [he]
    cases e with
    | esrch => exact passes_end (holds_ends ..) (hsignal.trans hjoined) (hrefused hne hjoined)
    | eperm => exact passes_end (holds_ends ..) hsignal (hrefused hne (.refl _))

theorem handsOver_grace (h : (StopPc.stopping d (.grace p deadline) nested pending).Warned w) :
    (StopPc.stopping d (.grace p deadline) nested pending).HandsOver env w := by
  have htick := tends_tick env w
  have hpoll : World.Tends w (p.pollState env (w.tick env)).2 :=
    htick.trans (.os (Process.osStep_pollState (P := fun _ => True)))
  have hpolled : (p.pollState env (w.tick env)).1.handle = p.handle := by
    rw [Process.pollState_fst]
    rfl
  have hslept := hpoll.trans (.os (World.osStep_sleep env (S := ∅) (P := fun _ => True) (millis 50) _))
  have hjoined := hpoll.trans (tends_joinReaders env (p.pollState env (w.tick env)).1 _)
  simp only [HandsOver, next]
  split_ifs
  · exact passes_on rfl rfl hpolled hslept (h.kept rfl hslept)
  · exact passes_end (holds_ends ..) hjoined (h.freed rfl hjoined)
  · exact passes_on rfl rfl rfl htick (h.kept rfl htick)

theorem handsOver_escalate (h : (StopPc.stopping d (.escalate p) nested pending).Warned w) :
    (StopPc.stopping d (.escalate p) nested pending).HandsOver env w := by
  have hkill : World.Tends w (p.forceKill env .stopEscalation w).2 := tends_sendSignal env .stopEscalation p .sigkill w
  have hjoined := hkill.trans (tends_joinReaders env p _)
  have hticked := hkill.trans (tends_tick env _)
  simp only [HandsOver, next]
  cases (p.forceKill env .stopEscalation w).1 with
  | none => exact passes_on rfl rfl rfl hticked (h.kept rfl hticked)
  | some e =>
    cases e with
    | esrch => exact passes_end (holds_ends ..) hjoined (h.freed rfl hjoined)
    | eperm => exact passes_end (holds_ends ..) hkill (h.freed rfl hkill)

theorem handsOver_reap (h : (StopPc.stopping d (.reap p deadline) nested pending).Warned w) :
    (StopPc.stopping d (.reap p deadline) nested pending).HandsOver env w := by
  have htick := tends_tick env w
  have htry : World.Tends w (p.tryWaitExit env (w.tick env)).2 :=
    htick.trans (.os (Process.osStep_tryWaitExit (P := fun _ => True)))
  have hslept := htry.trans (.os (World.osStep_sleep env (S := ∅) (P := fun _ => True) (millis 10) _))
  simp only [HandsOver, next]
  split_ifs
  · exact passes_on rfl rfl rfl htry (h.kept rfl htry)
  · exact passes_on rfl rfl rfl hslept (h.kept rfl hslept)
  · exact passes_on rfl rfl rfl htick (h.kept rfl htick)

theorem handsOver_join (h : (StopPc.stopping d (.join p) nested pending).Warned w) :
    (StopPc.stopping d (.join p) nested pending).HandsOver env w := by
  have hjoined : World.Tends w (p.joinReaders env (p.tryWaitExit env w).2) :=
    .trans (.os (Process.osStep_tryWaitExit (P := fun _ => True))) (tends_joinReaders env p _)
  exact passes_end (holds_goesOn ..) hjoined (h.freed rfl hjoined)

end Sections

/-- What a stop has taken it keeps until it has signalled it. -/
theorem passes_next (env : Env) {s : StopPc} (hwarned : s.Warned w) (h : s.Harmless env w) : s.HandsOver env w := by
  cases s with
  | returned result => exact ⟨.keep (.refl w), trivial⟩
  | stopping d stage nested pending =>
    have hends := holds_ends nested pending
    cases stage with
    | check =>
      simp only [HandsOver, next]
      split
      · exact passes_empty (hends _) (.refl w)
      · split_ifs <;> exact passes_empty rfl (.refl w)
    | dropRestarting => exact passes_empty (hends _) (.remove h)
    | dropWaiting p => exact passes_empty rfl (.remove h)
    | report p => exact passes_empty (holds_goesOn ..) (.os (World.osStep_sendFromHandle (P := fun _ => True) _))
    | take => exact handsOver_take env w
    | signal p => exact handsOver_signal h
    | grace p deadline => exact handsOver_grace hwarned
    | escalate p => exact handsOver_escalate hwarned
    | reap p deadline => exact handsOver_reap hwarned
    | join p => exact handsOver_join hwarned
    | cascade => exact passes_empty (holds_ends ..) (.refl w)

end StopPc

/-! ### The sections of a restart -/

namespace World

theorem tends_restartReset (env : Env) (id : ProcessId) (w : World) : Tends w (w.restartReset env id) := by
  simp only [restartReset]
  cases hp : w.processes.lookup id with
  | none => exact .refl w
  | some p =>
    refine .put (Process.osStep_release (P := fun _ => True)) fun q hq k hk hr => ?_
    obtain rfl : p = q := Option.some.inj (hp.symm.trans hq)
    exact absurd hr (not_childRuns_release env (Process.handle_eq.mp hk).1 w)

theorem tends_markStartedEntry (env : Env) (id : ProcessId) (w : World) : Tends w (w.markStartedEntry env id) := by
  unfold markStartedEntry
  split
  · next p hp =>
    split
    · exact .put_same (osStep_tick (S := ∅) (P := fun _ => True) env w) hp rfl
    · exact .refl w
  · exact .refl w

/-- The handle of a new child goes to the call that has spawned it. -/
theorem passes_spawn (site : SpawnSite) {config : ProcessConfig} (deps : List ProcessId) (hbelow : w.SpawnsBelow)
    (hspawn : w.spawnError env config = none) (hid : id.raw < w.nextId) (hnone : w.NoneRuns id) :
    Passes none (some (id, ⟨w.nextChild, w.nextPid env⟩)) w
      (w.spawnProcess env site id config deps).bumpSequence := by
  have hrest := MapStep.of_osStep (R := fun _ _ _ => True) (fun _ _ => trivial)
    (.refl (w.spawnProcess env site id config deps) : OsStep ∅ (fun _ => True) _ _)
  have hbumped : MapStep (fun _ _ _ => True) ∅ (fun _ => True) (w.spawnProcess env site id config deps)
      (w.spawnProcess env site id config deps).bumpSequence := { hrest with }
  exact .of_spawned hbelow (.refl w) (.of_ok site id deps hspawn) hbumped (.inr hid) hnone
    (fun _ _ _ hk => hk) (.inr rfl)

end World

namespace RestartPc

/-- The handle that the call has: that of its stop, or that of the child it has spawned. -/
def holds (id : ProcessId) : RestartPc → Option (ProcessId × Handle)
  | .stopping _ s => s.holds
  | .store child pid => some (id, ⟨child, pid⟩)
  | .insert q => q.handle.map (id, ·)
  | _ => none

def Warned (w : World) : RestartPc → Prop
  | .stopping _ s => s.Warned w
  | _ => True

/-- The call has found the process. -/
def Found (id : ProcessId) (w : World) : RestartPc → Prop
  | .called | .returned _ => True
  | _ => id.raw < w.nextId

/-- The section spawns only if no child of the process is running, and puts the new child into
an entry without a running one. -/
def Harmless (env : Env) (id : ProcessId) : RestartPc → World → Prop
  | .stopping _ s, w => s.Harmless env w
  | .respawn p _, w => w.spawnError env p.config = none → w.NoneRuns id
  | .store child _, w => w.Vacant id ∧ (w.processes.lookup id = none → ¬ w.ChildRuns child)
  | .insert _, w => w.Vacant id
  | _, _ => True

theorem passes_next (env : Env) {c : RestartPc} (hwarned : c.Warned w) (hfound : c.Found id w)
    (h : c.Harmless env id w) (hbelow : w.SpawnsBelow) :
    World.Passes (c.holds id) ((c.next env id w).1.holds id) w (c.next env id w).2 ∧
      (c.next env id w).1.Warned (c.next env id w).2 := by
  have hrefl : World.Passes none none w w := .keep (.refl w)
  cases c with
  | called =>
    simp only [next]
    split
    · exact ⟨hrefl, trivial⟩
    · split_ifs
      · exact ⟨hrefl, trivial⟩
      · have hcall : (StopPc.call id).Warned w := .of_holds rfl
        exact ⟨hrefl, hcall⟩
  | reset p =>
    simp only [next]
    split
    · exact ⟨hrefl, trivial⟩
    · exact ⟨.keep (World.tends_restartReset env id w), trivial⟩
  | stopping p s =>
    cases s with
    | returned result => cases result <;> exact ⟨hrefl, trivial⟩
    | stopping d stage nested pending =>
      have hwarned : (StopPc.stopping d stage nested pending).Warned w := hwarned
      exact StopPc.passes_next env hwarned h
  | respawn p inPlace =>
    simp only [next]
    cases hspawn : w.spawnError env p.config with
    | some e =>
      exact ⟨.keep (.os (World.osStep_spawnProcess (S := ∅) (P := fun _ => True) hspawn)), trivial⟩
    | none =>
      cases inPlace with
      | true => exact ⟨World.passes_spawn .restart _ hbelow hspawn hfound (h hspawn), trivial⟩
      | false => exact ⟨World.passes_spawn .restart _ hbelow hspawn hfound (h hspawn), trivial⟩
  | store child pid =>
    cases hp : w.processes.lookup id with
    | none =>
      simp only [next, World.restartStore, hp]
      refine ⟨.of_tends (.refl w) fun i k hk hr => ?_, trivial⟩
      cases hk
      exact absurd hr (h.2 hp)
    | some q =>
      obtain ⟨w', now, hstep, heq⟩ := World.restartStore_eq (P := fun _ => False) env _ _ hp
      have hput : World.Passes (some (id, ⟨child, pid⟩)) none w (w.restartStore env id child pid).2 := by
        rw [heq]
        have hstored := World.Passes.put_held hstep hp h.1 { q with
          pid := pid
          child := some child
          state := .starting
          restartState := q.restartState.map (·.markStarted now) }
        exact hstored
      exact ⟨hput, trivial⟩
  | insert q => exact ⟨.insert env h hfound, trivial⟩
  | inserted => exact ⟨.keep (World.tends_markStartedEntry env id w), trivial⟩
  | returned result => exact ⟨hrefl, trivial⟩

theorem found_next (env : Env) {c : RestartPc} (h : c.Found id w)
    (hknown : ∀ p, w.processes.lookup id = some p → id.raw < w.nextId)
    (hnextId : (c.next env id w).2.nextId = w.nextId) : (c.next env id w).1.Found id (c.next env id w).2 := by
  cases c with
  | called =>
    simp only [next]
    split
    · trivial
    · next p hp => split_ifs <;> exact hknown p hp
  | reset p =>
    simp only [next] at hnextId ⊢
    split
    · trivial
    · next q hq =>
      rw [hq] at hnextId
      exact h.trans_eq hnextId.symm
  | stopping p s =>
    cases s with
    | returned result =>
      cases result with
      | error e => trivial
      | ok _ => exact h
    | stopping d stage nested pending => exact h.trans_eq hnextId.symm
  | respawn p inPlace =>
    simp only [next] at hnextId ⊢
    cases hspawn : w.spawnError env p.config with
    | some e => trivial
    | none =>
      simp only [hspawn] at hnextId ⊢
      split_ifs at hnextId ⊢ <;> exact h.trans_eq hnextId.symm
  | store child pid => trivial
  | insert q => exact h.trans_eq hnextId.symm
  | inserted => trivial
  | returned result => trivial

end RestartPc

/-! ### Custody -/

/-- A call in the middle of its work. -/
inductive Call where
  | stop (s : StopPc)
  | restart (id : ProcessId) (c : RestartPc)

namespace Call

def next (env : Env) : Call → World → Call × World
  | .stop s, w =>
    let r := s.next env w
    (.stop r.1, r.2)
  | .restart id c, w =>
    let r := c.next env id w
    (.restart id r.1, r.2)

def holds : Call → Option (ProcessId × Handle)
  | .stop s => s.holds
  | .restart id c => c.holds id

def Harmless (env : Env) : Call → World → Prop
  | .stop s, w => s.Harmless env w
  | .restart id c, w => c.Harmless env id w

def Warned (w : World) : Call → Prop
  | .stop s => s.Warned w
  | .restart _ c => c.Warned w

def Found (w : World) : Call → Prop
  | .stop _ => True
  | .restart id c => c.Found id w

theorem passes_next (env : Env) {c : Call} (hwarned : c.Warned w) (hfound : c.Found w) (h : c.Harmless env w)
    (hbelow : w.SpawnsBelow) : World.Passes c.holds (c.next env w).1.holds w (c.next env w).2 ∧
      (c.next env w).1.Warned (c.next env w).2 := by
  cases c with
  | stop s => exact StopPc.passes_next env hwarned h
  | restart id c => exact RestartPc.passes_next env hwarned hfound h hbelow

theorem Warned.grows {c : Call} {P : KillCall → Prop} (h : c.Warned w) (hkills : Grows P w.kills w'.kills) :
    c.Warned w' := by
  have hstop : ∀ s : StopPc, s.Warned w → s.Warned w' := by
    intro s hs
    cases s with
    | returned result => trivial
    | stopping d stage nested pending => exact fun p hp k hk => (hs p hp k hk).grows hkills
  cases c with
  | stop s => exact hstop s h
  | restart id c =>
    cases c with
    | stopping p s => exact hstop s h
    | called | reset | respawn | store | insert | inserted | returned => trivial

theorem Found.congr {c : Call} (h : c.Found w) (hnextId : w'.nextId = w.nextId) : c.Found w' := by
  cases c with
  | stop s => trivial
  | restart id c =>
    cases c with
    | called | returned => trivial
    | reset | stopping | respawn | store | insert | inserted => exact Nat.lt_of_lt_of_eq h hnextId.symm

theorem Found.next (env : Env) {c : Call} (h : c.Found w)
    (hknown : ∀ i p, w.processes.lookup i = some p → i.raw < w.nextId)
    (hnextId : (c.next env w).2.nextId = w.nextId) : (c.next env w).1.Found (c.next env w).2 := by
  cases c with
  | stop s => trivial
  | restart id c => exact RestartPc.found_next env h (hknown id) hnextId

end Call

end ProcessManager
