import ProcessManager.Manager.RestartSections
import ProcessManager.Reaper.Decisions
import ProcessManager.System.StoppedDependency

/-! A call of `restart` while the reaper runs, section by section. The call removes the entry
of `id`, with the dependents if `cascade_stop` is set, and inserts a new one at its end; in
between, `id` is a terminal dependency for the reaper. -/

namespace ProcessManager

variable {env : Env} {pollInterval : ℕ} {w w' : World} {id k : ProcessId} {p : Process}

/-! ### The sections of the call -/

/-- The process that a stop has taken out of the map and signals. -/
def StopStage.held : StopStage → Option Process
  | .signal p | .grace p _ | .escalate p | .reap p _ | .join p => some p
  | _ => none

namespace StopPc

/-- The entry that the next section removes, if it is tracked. -/
def removes : StopPc → Option ProcessId
  | .stopping id .dropRestarting _ _ | .stopping id (.dropWaiting _) _ _ | .stopping id .take _ _ => some id
  | _ => none

/-- The own stop of the call is past the removal. -/
def inGap : StopPc → Bool
  | .stopping _ _ true _ => true
  | .stopping _ .check false _ | .stopping _ .dropRestarting false _ | .stopping _ (.dropWaiting _) false _
  | .stopping _ .take false _ => false
  | .stopping _ _ false _ => true
  | .returned (.ok _) => true
  | .returned (.error _) => false

/-- The stop belongs to a call for `id`, and what it holds is the process of `id`. -/
def Own (id : ProcessId) : StopPc → Prop
  | .stopping d stage nested _ => (nested = false → d = id) ∧ ∀ p ∈ stage.held, p.id = id
  | .returned _ => True

theorem own_ends (id : ProcessId) (nested : Bool) (pending : List ProcessId) (result : Except ManagerError Unit) :
    (ends nested pending result).Own id := by
  cases nested <;> cases pending <;> cases result <;> simp [ends, Own, StopStage.held]

theorem own_goesOn {d : ProcessId} {nested : Bool} (h : nested = false → d = id) (p : Process)
    (pending : List ProcessId) : (goesOn d p nested pending).Own id := by
  unfold goesOn
  split_ifs
  · exact ⟨h, by simp [StopStage.held]⟩
  · exact own_ends id nested pending _

/-- A section that removes nothing signals at most the process that the stop holds. -/
theorem osStep_next (env : Env) {s : StopPc} (h : s.removes = none) (hown : s.Own id) (w : World) :
    OsStep Set.univ (fun kill => kill.id = id) w (s.next env w).2 := by
  cases s with
  | returned result => exact .refl w
  | stopping d stage nested pending =>
    have hheld : ∀ p, stage.held = some p → ∀ w₁ w₂, OsStep ∅ (KillsFrom p w₁) w₁ w₂ →
        OsStep Set.univ (fun kill => kill.id = id) w₁ w₂ := fun p hp _ _ hstep =>
      hstep.mono (Set.empty_subset _) fun _ hk => hk.id.trans (hown.2 p hp)
    have hany : ∀ {T : Set ℕ} {w₁ w₂ : World}, OsStep T (fun kill => kill.id = id) w₁ w₂ →
        OsStep Set.univ (fun kill => kill.id = id) w₁ w₂ := fun hstep =>
      hstep.mono (Set.subset_univ _) fun _ hk => hk
    cases stage with
    | check =>
      simp only [next]
      split
      · exact .refl w
      · split_ifs <;> exact .refl w
    | dropRestarting => cases h
    | dropWaiting p => cases h
    | take => cases h
    | report p => exact hany (World.osStep_sendFromHandle _)
    | signal p =>
      have hsignal : OsStep Set.univ (fun kill => kill.id = id) w
          (p.sendSignal env .stop p.config.killSignal w).2 := hheld p rfl _ _ Process.osStep_sendSignal
      simp only [next]
      split
      · exact hsignal.trans (Process.osStep_joinReaders env p)
      · exact hsignal
      · exact hsignal.trans (World.osStep_tick env _)
    | grace p deadline =>
      have htick : OsStep Set.univ (fun kill => kill.id = id) w (w.tick env) := w.osStep_tick env
      have hpoll : OsStep Set.univ (fun kill => kill.id = id) w (p.pollState env (w.tick env)).2 :=
        htick.trans (hany Process.osStep_pollState)
      simp only [next]
      split_ifs
      · exact hpoll.trans (World.osStep_sleep env _ _)
      · exact hpoll.trans (Process.osStep_joinReaders env (p.pollState env (w.tick env)).1)
      · exact htick
    | escalate p =>
      have hkill : OsStep Set.univ (fun kill => kill.id = id) w (p.forceKill env .stopEscalation w).2 :=
        hheld p rfl _ _ Process.osStep_forceKill
      simp only [next]
      split
      · exact hkill.trans (Process.osStep_joinReaders env p)
      · exact hkill
      · exact hkill.trans (World.osStep_tick env _)
    | reap p deadline =>
      have htick : OsStep Set.univ (fun kill => kill.id = id) w (w.tick env) := w.osStep_tick env
      have htry : OsStep Set.univ (fun kill => kill.id = id) w (p.tryWaitExit env (w.tick env)).2 :=
        htick.trans (hany Process.osStep_tryWaitExit)
      simp only [next]
      split_ifs
      · exact htry
      · exact htry.trans (World.osStep_sleep env _ _)
      · exact htick
    | join p => exact (hany Process.osStep_tryWaitExit).trans (Process.osStep_joinReaders env p)
    | cascade => exact .refl w

theorem next_of_removes (env : Env) {s : StopPc} {d : ProcessId} (h : s.removes = some d) (w : World) :
    (s.next env w).2 = w.remove d ∨ (w.processes.lookup d = none ∧ (s.next env w).2 = w) := by
  unfold removes at h
  split at h <;> cases h
  · exact .inl rfl
  · exact .inl rfl
  · cases hp : w.processes.lookup d with
    | none => exact .inr ⟨rfl, by simp only [next, hp]⟩
    | some p => exact .inl (by simp only [next, hp])

/-- A section of a stop removes at most one entry. -/
theorem next_lookup (env : Env) {s : StopPc} (hown : s.Own id) (w : World) (k : ProcessId) :
    (s.next env w).2.processes.lookup k = if s.removes = some k then none else w.processes.lookup k := by
  cases h : s.removes with
  | none => rw [(osStep_next env h hown w).processes, if_neg nofun]
  | some d =>
    simp only [Option.some.injEq]
    obtain heq | ⟨hnone, heq⟩ := next_of_removes env h w <;> rw [heq]
    · rw [World.remove_processes, AssocMap.lookup_erase_eq]
      simp only [eq_comm]
    · split_ifs with hk
      · rw [← hk, hnone]
      · rfl

theorem next_kills (env : Env) {s : StopPc} (hown : s.Own id) (w : World) :
    Grows (fun kill => kill.id = id) w.kills (s.next env w).2.kills := by
  cases h : s.removes with
  | none => exact (osStep_next env h hown w).kills
  | some d =>
    obtain heq | ⟨_, heq⟩ := next_of_removes env h w <;> rw [heq]
    · exact .refl _
    · exact .refl _

/-- What a stop holds stays the process of `id`, unless a stop of the cascade takes another. -/
theorem own_next (env : Env) {s : StopPc} (hown : s.Own id)
    (hkey : ∀ i p, w.processes.lookup i = some p → p.id = i)
    (h : ∀ d ∈ s.removes, d ≠ id → w.processes.lookup d = none) : (s.next env w).1.Own id := by
  cases s with
  | returned result => trivial
  | stopping d stage nested pending =>
    obtain ⟨hself, hheld⟩ := hown
    have hends := own_ends id nested pending
    cases stage with
    | check =>
      simp only [next]
      split
      · exact hends _
      · split_ifs <;> exact ⟨hself, by simp [StopStage.held]⟩
    | dropRestarting => exact hends _
    | dropWaiting p => exact ⟨hself, by simp [StopStage.held]⟩
    | report p => exact own_goesOn hself p pending
    | take =>
      simp only [next]
      cases hp : w.processes.lookup d with
      | none => exact hends _
      | some p =>
        have hd : d = id := by
          by_contra hne
          rw [h d rfl hne] at hp
          cases hp
        refine ⟨fun _ => hd, fun q hq => ?_⟩
        obtain rfl : p.markStopping = q := Option.some.inj hq
        exact (hkey d p hp).trans hd
    | signal p =>
      simp only [next]
      split
      · exact hends _
      · exact hends _
      · exact ⟨hself, hheld⟩
    | grace p deadline =>
      have hpolled : (p.pollState env (w.tick env)).1.id = p.id := by rw [Process.pollState_fst]
      simp only [next]
      split_ifs
      · refine ⟨hself, fun q hq => ?_⟩
        obtain rfl : (p.pollState env (w.tick env)).1 = q := Option.some.inj hq
        exact hpolled.trans (hheld p rfl)
      · exact hends _
      · exact ⟨hself, hheld⟩
    | escalate p =>
      simp only [next]
      split
      · exact hends _
      · exact hends _
      · exact ⟨hself, hheld⟩
    | reap p deadline =>
      simp only [next]
      split_ifs
      · exact ⟨hself, hheld⟩
      · exact ⟨hself, hheld⟩
      · exact ⟨hself, hheld⟩
    | join p => exact own_goesOn hself p pending
    | cascade => exact own_ends ..

/-- The entry of `id` is removed in the section that enters the gap. -/
theorem inGap_next {s : StopPc} (hown : s.Own id) (h : (s.next env w).1.inGap = true) :
    s.inGap = true ∨ s.removes = some id := by
  cases s with
  | returned result => exact .inl h
  | stopping d stage nested pending =>
    cases nested with
    | true => exact .inl (by cases stage <;> rfl)
    | false =>
      obtain rfl : d = id := hown.1 rfl
      cases stage with
      | check =>
        simp only [next] at h
        split at h
        · cases h
        · split_ifs at h <;> cases h
      | dropRestarting => exact .inr rfl
      | dropWaiting p => exact .inr rfl
      | take => exact .inr rfl
      | report | signal | grace | escalate | reap | join | cascade => exact .inl rfl

end StopPc

/-- Every other entry stays, and no other process is signalled. -/
structure World.Spares (id : ProcessId) (w w' : World) : Prop where
  others : ∀ k, k ≠ id → w'.processes.lookup k = w.processes.lookup k
  kills : Grows (fun kill => kill.id = id) w.kills w'.kills

/-- An entry under `id` is its own. -/
def World.OwnEntry (id : ProcessId) (w : World) : Prop := ∀ p, w.processes.lookup id = some p → p.id = id

theorem World.spares_same (hentry : w.OwnEntry id) (hmap : w'.processes = w.processes) (hkills : w'.kills = w.kills) :
    Spares id w w' ∧ w'.OwnEntry id :=
  ⟨⟨fun k _ => by rw [hmap], .of_eq hkills⟩, fun q hq => hentry q (hmap ▸ hq)⟩

theorem World.spares_put (hmap : w'.processes = w.processes) (hkills : w'.kills = w.kills) (hid : p.id = id) :
    Spares id w (w'.put id p) ∧ (w'.put id p).OwnEntry id := by
  refine ⟨⟨fun k hk => ?_, .of_eq hkills⟩, fun q hq => ?_⟩
  · rw [put_processes, AssocMap.lookup_replace, if_neg hk, hmap]
  · rw [put_processes, AssocMap.lookup_replace, if_pos rfl] at hq
    obtain ⟨_, _, rfl⟩ := Option.map_eq_some_iff.mp hq
    exact hid

namespace RestartPc

def removes : RestartPc → Option ProcessId
  | .stopping _ s => s.removes
  | _ => none

/-- The call has removed the entry of `id` and not inserted it again. -/
def inGap : RestartPc → Bool
  | .stopping _ s => s.inGap
  | .respawn _ inPlace => !inPlace
  | .insert _ => true
  | _ => false

def Own (id : ProcessId) : RestartPc → Prop
  | .stopping _ s => s.Own id
  | .insert p => p.id = id
  | _ => True

theorem own_next (env : Env) {c : RestartPc} (hown : c.Own id)
    (hkey : ∀ i p, w.processes.lookup i = some p → p.id = i)
    (h : ∀ d ∈ c.removes, d ≠ id → w.processes.lookup d = none) : (c.next env id w).1.Own id := by
  cases c with
  | called =>
    simp only [next]
    split
    · trivial
    · split_ifs
      · trivial
      · exact ⟨fun _ => rfl, by simp [StopStage.held]⟩
  | reset p =>
    simp only [next]
    split <;> trivial
  | stopping p s =>
    cases s with
    | returned result => cases result <;> trivial
    | stopping d stage nested pending => exact StopPc.own_next env hown hkey h
  | respawn p inPlace =>
    simp only [next]
    split
    · trivial
    · split_ifs <;> trivial
  | store | insert | inserted | returned => trivial

theorem spares_reset (env : Env) (hentry : w.OwnEntry id) (p : Process) :
    World.Spares id w ((reset p).next env id w).2 ∧ ((reset p).next env id w).2.OwnEntry id := by
  simp only [next]
  cases hp : w.processes.lookup id with
  | none => exact World.spares_same hentry rfl rfl
  | some q =>
    obtain ⟨w', hstep, heq⟩ := World.restartReset_eq (P := fun _ => False) env hp
    simp only
    rw [heq]
    exact World.spares_put hstep.processes hstep.kills.eq_of_none (hentry q hp)

/-- The sections of `stop` remove their own entry, and entries that are gone already. -/
theorem spares_stop (env : Env) {s : StopPc} (hown : s.Own id) (hentry : w.OwnEntry id)
    (h : ∀ d ∈ s.removes, d ≠ id → w.processes.lookup d = none) :
    World.Spares id w (s.next env w).2 ∧ (s.next env w).2.OwnEntry id := by
  refine ⟨⟨fun k hk => ?_, StopPc.next_kills env hown w⟩, fun q hq => ?_⟩
  · refine (StopPc.next_lookup env hown w k).trans ?_
    split_ifs with hremoves
    · exact (h k hremoves hk).symm
    · rfl
  · have hq' := (StopPc.next_lookup env hown w id).symm.trans hq
    split_ifs at hq'
    exact hentry q hq'

theorem spares_respawn (env : Env) (hentry : w.OwnEntry id) (p : Process) (inPlace : Bool) :
    World.Spares id w ((respawn p inPlace).next env id w).2 ∧ ((respawn p inPlace).next env id w).2.OwnEntry id := by
  have hmap : ∀ deps, (w.spawnProcess env .restart id p.config deps).processes = w.processes :=
    fun deps => World.spawnProcess_processes env _ _ _ _ w
  have hkills : ∀ deps, (w.spawnProcess env .restart id p.config deps).kills = w.kills :=
    fun deps => World.spawnProcess_kills env _ _ _ _ w
  simp only [next]
  split
  · exact World.spares_same hentry (hmap _) (hkills _)
  · split_ifs <;> exact World.spares_same hentry (hmap _) (hkills _)

theorem spares_store (env : Env) (hentry : w.OwnEntry id) (child pid : ℕ) :
    World.Spares id w ((store child pid).next env id w).2 ∧ ((store child pid).next env id w).2.OwnEntry id := by
  simp only [next]
  cases hp : w.processes.lookup id with
  | none =>
    simp only [World.restartStore, hp]
    exact World.spares_same hentry rfl rfl
  | some q =>
    obtain ⟨w', now, hstep, heq⟩ := World.restartStore_eq (P := fun _ => False) env _ _ hp
    rw [heq]
    exact World.spares_put hstep.processes hstep.kills.eq_of_none (hentry q hp)

theorem spares_insert (env : Env) {q : Process} (hown : q.id = id) :
    World.Spares id w ((insert q).next env id w).2 ∧ ((insert q).next env id w).2.OwnEntry id := by
  refine ⟨⟨fun k hk => ?_, .refl _⟩, fun p hp => ?_⟩
  · simp only [next, World.insert_processes, AssocMap.lookup_reorder, AssocMap.lookup_insert_eq, if_neg hk]
  · simp only [next, World.insert_processes, AssocMap.lookup_reorder, AssocMap.lookup_insert_eq, ↓reduceIte,
      Option.some.injEq] at hp
    exact hp ▸ hown

theorem spares_inserted (env : Env) (hentry : w.OwnEntry id) :
    World.Spares id w (inserted.next env id w).2 ∧ (inserted.next env id w).2.OwnEntry id := by
  have hmap : MapStep World.Marked ∅ (fun _ => False) w (w.markStartedEntry env id) :=
    World.mapStep_markStartedEntry id w
  refine ⟨⟨fun k hk => World.markStartedEntry_lookup env hk w, .of_eq hmap.kills.eq_of_none⟩, fun p hp => ?_⟩
  obtain ⟨q, hq, rfl | ⟨rs, now, _, rfl⟩⟩ := hmap.processes id p hp
  · exact hentry p hq
  · exact hentry q hq

theorem spares_next (env : Env) {c : RestartPc} (hown : c.Own id) (hentry : w.OwnEntry id)
    (h : ∀ d ∈ c.removes, d ≠ id → w.processes.lookup d = none) :
    World.Spares id w (c.next env id w).2 ∧ (c.next env id w).2.OwnEntry id := by
  have hsame : World.Spares id w w ∧ w.OwnEntry id := World.spares_same hentry rfl rfl
  cases c with
  | called =>
    simp only [next]
    split
    · exact hsame
    · split_ifs <;> exact hsame
  | reset p => exact spares_reset env hentry p
  | stopping p s =>
    cases s with
    | returned result => cases result <;> exact hsame
    | stopping d stage nested pending => exact spares_stop env hown hentry h
  | respawn p inPlace => exact spares_respawn env hentry p inPlace
  | store child pid => exact spares_store env hentry child pid
  | insert q => exact spares_insert env hown
  | inserted => exact spares_inserted env hentry
  | returned result => exact hsame

/-- In the gap the id is untracked. -/
theorem gone_next {c : RestartPc} (hown : c.Own id) (hgone : c.inGap = true → w.processes.lookup id = none)
    (h : (c.next env id w).1.inGap = true) : (c.next env id w).2.processes.lookup id = none := by
  cases c with
  | called =>
    simp only [next] at h
    split at h
    · cases h
    · split_ifs at h <;> cases h
  | reset p =>
    simp only [next] at h
    split at h <;> cases h
  | stopping p s =>
    cases s with
    | returned result =>
      cases result with
      | error e => cases h
      | ok _ => exact hgone rfl
    | stopping d stage nested pending =>
      have hown : (StopPc.stopping d stage nested pending).Own id := hown
      refine (StopPc.next_lookup env hown w id).trans ?_
      rcases StopPc.inGap_next hown h with hbefore | hremoves
      · rw [hgone hbefore, ite_self]
      · exact if_pos hremoves
  | respawn p inPlace =>
    cases inPlace with
    | false =>
      have hmap := World.spawnProcess_processes env .restart id p.config [] w
      simp only [next, Bool.false_eq_true, ↓reduceIte] at h ⊢
      split at h
      · cases h
      · exact (congrArg (AList.lookup id) hmap).trans (hgone rfl)
    | true =>
      simp only [next, ↓reduceIte] at h
      split at h <;> cases h
  | store | insert | inserted | returned => cases h

end RestartPc

/-! ### Runs -/

/-- A call of `restart` and a reaper thread, each in the middle of its work. -/
structure RestartRun where
  call : RestartPc
  reaper : ReaperPc
  world : World

namespace RestartRun

/-- Who takes the next section. -/
inductive Turn where
  | call
  | reaper
  deriving DecidableEq

def step (env : Env) (pollInterval : ℕ) (id : ProcessId) (s : RestartRun) : Turn → RestartRun
  | .call =>
    let r := s.call.next env id s.world
    { s with call := r.1, world := r.2 }
  | .reaper =>
    let r := ReaperPc.step env pollInterval (s.reaper, s.world)
    { s with reaper := r.1, world := r.2 }

def run (env : Env) (pollInterval : ℕ) (id : ProcessId) (turns : List Turn) (s : RestartRun) : RestartRun :=
  turns.foldl (step env pollInterval id) s

/-- A dependency other than `id` is terminal. -/
def OtherTerminal (id : ProcessId) (p : Process) (w : World) : Prop :=
  ∃ dep ∈ p.resolvedDeps, dep ≠ id ∧ isTerminalDep w.processes dep = true

instance (id : ProcessId) (p : Process) (w : World) : Decidable (OtherTerminal id p w) :=
  inferInstanceAs (Decidable (∃ dep ∈ p.resolvedDeps, _))

/-- The reaper fails no other process because `id` is gone, and none loses its binding to `id`. -/
structure ReaperKeeps (env : Env) (id : ProcessId) (pc pc' : ReaperPc) (w w' : World) : Prop where
  fails : ∀ k, k ≠ id → pc'.toFail = pc.toFail ++ [k] →
    ∃ p, pc.decidesOn env w = some (k, p) ∧ (pc.timesOut env w p = true ∨ OtherTerminal id p w)
  bound : ∀ k p p', k ≠ id → w.processes.lookup k = some p → w'.processes.lookup k = some p' →
    id ∈ p.resolvedDeps → id ∈ p'.resolvedDeps

/-- The section leaves the other processes alone: those of the call do so at any time, those of
the reaper as far as the absence of `id` goes. -/
def Keeps (env : Env) (pollInterval : ℕ) (id : ProcessId) (s : RestartRun) : Turn → Prop
  | .call => World.Spares id s.world (s.step env pollInterval id .call).world
  | .reaper => s.call.inGap = true → ReaperKeeps env id s.reaper (s.step env pollInterval id .reaper).reaper
      s.world (s.step env pollInterval id .reaper).world

/-- A process bound to `id` that the reaper decides on is to be failed anyway, and one that it
resolves again still depends on `id`. -/
structure ReaperHarmless (env : Env) (id : ProcessId) (pc : ReaperPc) (w : World) : Prop where
  decides : ∀ x ∈ pc.decidesOn env w, x.1 ≠ id → id ∈ x.2.resolvedDeps →
    pc.timesOut env w x.2 = true ∨ OtherTerminal id x.2 w
  resolves : ∀ k ∈ pc.resolvesAgain, ∀ p ∈ w.processes.lookup k, id ∈ p.resolvedDeps → id ∈ w.boundAfter p

/-- The call is not about to remove the entry of another process, and while it keeps `id` out of
the map, the reaper does not come to a process that is bound to `id`. -/
def Harmless (env : Env) (id : ProcessId) (s : RestartRun) : Turn → Prop
  | .call => ∀ d ∈ s.call.removes, d ≠ id → s.world.processes.lookup d = none
  | .reaper => s.call.inGap = true → s.world.reaper = .running → ReaperHarmless env id s.reaper s.world

instance (env : Env) (id : ProcessId) (pc : ReaperPc) (w : World) : Decidable (ReaperHarmless env id pc w) :=
  decidable_of_iff ((∀ x ∈ pc.decidesOn env w, x.1 ≠ id → id ∈ x.2.resolvedDeps →
      pc.timesOut env w x.2 = true ∨ OtherTerminal id x.2 w) ∧
    ∀ k ∈ pc.resolvesAgain, ∀ p ∈ w.processes.lookup k, id ∈ p.resolvedDeps → id ∈ w.boundAfter p)
    ⟨fun h => ⟨h.1, h.2⟩, fun h => ⟨h.decides, h.resolves⟩⟩

instance (env : Env) (id : ProcessId) (s : RestartRun) : ∀ t, Decidable (Harmless env id s t)
  | .call => inferInstanceAs (Decidable (∀ d ∈ s.call.removes, d ≠ id → _))
  | .reaper => inferInstanceAs (Decidable (s.call.inGap = true → s.world.reaper = .running → _))

/-- What holds between the sections. -/
structure Inv (id : ProcessId) (s : RestartRun) : Prop where
  key : ∀ i p, s.world.processes.lookup i = some p → p.id = i
  own : s.call.Own id
  gone : s.call.inGap = true → s.world.processes.lookup id = none

variable {s : RestartRun}

theorem inv_step (hinv : Inv id s) (t : Turn) (h : Harmless env id s t) : Inv id (s.step env pollInterval id t) := by
  cases t with
  | call =>
    obtain ⟨hspares, hentry⟩ := RestartPc.spares_next env hinv.own (hinv.key id) h
    refine ⟨fun i p hp => ?_, RestartPc.own_next env hinv.own hinv.key h, RestartPc.gone_next hinv.own hinv.gone⟩
    by_cases hi : i = id
    · subst hi
      exact hentry p hp
    · exact hinv.key i p ((hspares.others i hi).symm.trans hp)
  | reaper =>
    by_cases hr : s.world.reaper = .running
    · have hstep : ReaperPc.step env pollInterval (s.reaper, s.world) = s.reaper.next env pollInterval s.world := by
        rw [ReaperPc.step, if_pos hr]
      have hrefines := ReaperPc.refines_next env pollInterval s.reaper s.world
      rw [← hstep] at hrefines
      refine ⟨hrefines.forall_entry (fun i p p' hR hid => hR.1.trans hid) hinv.key, hinv.own, fun hgap => ?_⟩
      exact World.untracked_of_refines (hinv.gone hgap) hrefines
    · have hstep : ReaperPc.step env pollInterval (s.reaper, s.world) = (s.reaper, s.world) := by
        rw [ReaperPc.step, if_neg hr]
      simp only [step, hstep]
      exact hinv

/-- A call of `restart` that begins now. -/
def calling (reaper : ReaperPc) (w : World) : RestartRun := ⟨.called, reaper, w⟩

/-- A call that nothing interrupts does what `restart` does. -/
theorem exists_run_call (env : Env) (pollInterval : ℕ) (id : ProcessId) (reaper : ReaperPc) (w : World) :
    ∃ n, run env pollInterval id (List.replicate n .call) (calling reaper w) =
      ⟨.returned (w.restart env id).1, reaper, (w.restart env id).2⟩ := by
  have hleads : ∀ t, RestartPc.Leads env id (.called, w) t →
      ∃ n, run env pollInterval id (List.replicate n .call) (calling reaper w) = ⟨t.1, reaper, t.2⟩ := by
    intro t h
    induction h with
    | refl => exact ⟨0, rfl⟩
    | @tail t t' _ hstep ih =>
      obtain ⟨n, hn⟩ := ih
      refine ⟨n + 1, ?_⟩
      unfold run at hn ⊢
      rw [List.replicate_succ', List.foldl_append, hn, ← hstep]
      rfl
  exact hleads _ (RestartPc.leads_restart env id w)

end RestartRun

end ProcessManager
