import ProcessManager.System.Accounting
import ProcessManager.System.Alive
import ProcessManager.System.EntryInvariant
import ProcessManager.System.Identity
import ProcessManager.System.RateLimit

/-! What the state of an entry tells. A process that was not active is shown as `Starting` or
`Running` only after a child was spawned for it, and `Stopped` and `Crashed` are shown for
children that ended in this way. -/

namespace ProcessManager

variable {env : Env} {pollInterval : ℕ} {C : Point → World → Process → Prop} {w w' w'' : World}
  {id : ProcessId} {p p' q : Process}

/-- The entry gives up its child or keeps it. It stays in its state, becomes `Running` or
`Stopping` if it was active, or waits without a child to be restarted. -/
structure Process.Settles (_ : ProcessId) (p p' : Process) : Prop where
  config : p'.config = p.config
  tracks : p'.restartState.isSome = p.restartState.isSome
  child : p'.child = none ∨ p'.child = p.child
  state : p'.state = p.state ∨ (p.Active ∧ (p'.state = .running ∨ p'.state = .stopping)) ∨
    (p'.state = .restarting ∧ p'.child = none)

namespace Process.Settles

theorem refl (id : ProcessId) (p : Process) : p.Settles id p :=
  ⟨rfl, rfl, .inr rfl, .inl rfl⟩

theorem trans (id : ProcessId) (p p' p'' : Process) (h : Settles id p p') (h' : Settles id p' p'') :
    Settles id p p'' := by
  obtain ⟨hconfig, htracks, hchild, hstate⟩ := h
  obtain ⟨hconfig', htracks', hchild', hstate'⟩ := h'
  have hgone : p'.child = none → p''.child = none := fun hnone => hchild'.elim (·) (·.trans hnone)
  refine ⟨hconfig'.trans hconfig, htracks'.trans htracks, hchild'.elim .inl fun h => ?_, ?_⟩
  · rw [h]
    exact hchild
  · obtain hsame | ⟨hactive, hnew⟩ | hrestarting := hstate'
    · rw [hsame]
      exact hstate.imp_right (.imp_right fun h => ⟨h.1, hgone h.2⟩)
    · obtain hsame | ⟨hactive', _⟩ | hrestarting := hstate
      · unfold Active at hactive
        rw [hsame] at hactive
        exact .inr (.inl ⟨hactive, hnew⟩)
      · exact .inr (.inl ⟨hactive', hnew⟩)
      · rcases hactive with h | h <;> rw [hrestarting.1] at h <;> cases h
    · exact .inr (.inr hrestarting)

theorem of_visited {now : Instant} (id : ProcessId) (h : p.Visited now p') : Settles id p p' := by
  have hsettles : Settles id p (p.stableUptime now) :=
    ⟨stableUptime_config now p, (same_stableUptime now p).tracks, .inr (stableUptime_child now p),
      .inl (stableUptime_state now p)⟩
  obtain rfl | rfl | rfl := h
  · exact refl id p'
  · exact { hsettles with }
  · unfold afterPoll
    split_ifs with hstarting
    · exact { hsettles with state := .inr (.inl ⟨.inl hstarting, .inl rfl⟩) }
    · exact hsettles

/-- An entry that is active afterwards was active before. -/
theorem active (h : Settles id p p') (hactive : p'.Active) : p.Active := by
  obtain hsame | ⟨hbefore, _⟩ | ⟨hrestarting, _⟩ := h.state
  · unfold Active at hactive ⊢
    rwa [hsame] at hactive
  · exact hbefore
  · rcases hactive with h | h <;> rw [hrestarting] at h <;> cases h

end Process.Settles

namespace World

/-! ### Phases 1 to 3 -/

theorem settles_cascade (hkey : ∀ i q, w.processes.lookup i = some q → q.id = i) :
    AssocMap.Refines Process.Settles w.processes (w.cascade env pollInterval).processes := by
  intro i q hq
  rw [cascade, (killed_phase1b env _ _).lookup i, Option.map_eq_some_iff] at hq
  obtain ⟨p', hp', rfl⟩ := hq
  obtain ⟨p, hp, hvisited⟩ := (phase1State_detect env pollInterval hkey).visited i p' hp'
  have hsettles : p.Settles i p' := .of_visited i hvisited
  refine ⟨p, hp, ?_⟩
  split_ifs with htarget
  · -- a target was `Starting` or `Running` when it was selected
    obtain ⟨o, _, hid⟩ := List.mem_flatMap.mp htarget.1
    obtain ⟨p'', hp'', hselected⟩ := AssocMap.mem_keysWhere.mp hid
    obtain rfl : p' = p'' := Option.some.inj (hp'.symm.trans hp'')
    simp only [cascadeSelects, Bool.and_eq_true, Bool.or_eq_true, decide_eq_true_eq] at hselected
    exact .trans i p p' _ hsettles ⟨rfl, rfl, .inr rfl, .inr (.inl ⟨hselected.1.2.symm, .inr rfl⟩)⟩
  · exact hsettles

theorem settles_scheduleEntry (now : Instant) (e : ExitedProcess) (w : World) :
    AssocMap.Refines Process.Settles w.processes (scheduleEntry env now e w).processes := by
  obtain ⟨heq, _⟩ | ⟨heq, _⟩ | ⟨config, label, p, w₁, hconfig, hp, hstep, hcases⟩ :=
    scheduleEntry_cases (P := fun _ => True) env now e w
  · rw [heq]
    exact .refl Process.Settles.refl _
  · rw [heq]
    exact .refl Process.Settles.refl _
  · have hput : ∀ q : Process, p.Settles e.id q → ∀ w₂ : World, w₂.processes = (w₁.put e.id q).processes →
        AssocMap.Refines Process.Settles w.processes w₂.processes := by
      intro q hq w₂ hw₂
      rw [hw₂, put_processes, hstep.processes, lock_processes]
      exact .replace_of Process.Settles.refl fun p' hp' => Option.some.inj (hp.symm.trans hp') ▸ hq
    obtain ⟨_, heq⟩ | ⟨rs, rs', hrs, _, heq⟩ | ⟨rs, hrs, _, heq⟩ := hcases <;> rw [heq]
    · exact hput { p with child := none, state := .restarting }
        ⟨rfl, rfl, .inl rfl, .inr (.inr ⟨rfl, rfl⟩)⟩ _ rfl
    · exact hput { p with child := none, state := .restarting, restartState := some rs' }
        ⟨rfl, by rw [hrs]; rfl, .inl rfl, .inr (.inr ⟨rfl, rfl⟩)⟩ _ rfl
    · exact hput { p with child := none, restartState := some rs.recordRestart }
        ⟨rfl, by rw [hrs]; rfl, .inl rfl, .inl rfl⟩ _ rfl

/-- Entries settle between the two worlds. -/
def Settling (w w' : World) : Prop := AssocMap.Refines Process.Settles w.processes w'.processes

theorem Settling.schedule (h : Settling w w') (e : ExitedProcess) :
    Settling w (w'.ifRunning (scheduleEntry env now e)) :=
  ifRunning_invariant h fun _ => h.trans Process.Settles.trans (settles_scheduleEntry now e w')

theorem settles_afterPhase3 (hkey : ∀ i q, w.processes.lookup i = some q → q.id = i) :
    Settling w (w.afterPhase3 env pollInterval) := by
  have hdetect : Settling w (w.passDetect env pollInterval).2.2 := by
    refine (settles_cascade hkey).trans Process.Settles.trans
      ((mapStep_passDetect (P := fun _ => True) env pollInterval w).processes.mono ?_)
    rintro i p p' rfl
    exact .refl i p'
  exact ifRunning_invariant hdetect fun _ =>
    Fold.foldl_invariant hdetect fun _ e _ h => h.schedule e

/-! ### Nobody is active again without a spawn -/

/-- An entry that is active in the later world was so in the earlier one, with the same child,
or got the child in between. -/
structure Revives (id : ProcessId) (w w' : World) : Prop where
  spawns : Grows (fun _ => True) w.spawns w'.spawns
  active : ∀ p', w'.processes.lookup id = some p' → p'.Active →
    (∃ p, w.processes.lookup id = some p ∧ p.Active ∧ (p'.child = none ∨ p'.child = p.child)) ∨
      Gains (fun k => k.id = id ∧ (p'.child = none ∨ p'.child = some k.child)) w.spawns w'.spawns

namespace Revives

theorem refl (id : ProcessId) (w : World) : Revives id w w :=
  ⟨.refl _, fun p hp hactive => .inl ⟨p, hp, hactive, .inr rfl⟩⟩

theorem trans (h : Revives id w w') (h' : Revives id w' w'') : Revives id w w'' where
  spawns := h.spawns.trans h'.spawns
  active p'' hp'' hactive := by
    obtain ⟨p', hp', hactive', hchild'⟩ | hgains := h'.active p'' hp'' hactive
    · have hkeeps : ∀ {c}, (p'.child = none ∨ p'.child = c) → p''.child = none ∨ p''.child = c := by
        rintro c (hc | hc)
        · exact .inl (hchild'.elim (·) (·.trans hc))
        · exact hchild'.imp_right (·.trans hc)
      obtain ⟨p, hp, hactive, hchild⟩ | ⟨new, hnew, k, hk, hid, hchild⟩ := h.active p' hp' hactive'
      · exact .inl ⟨p, hp, hactive, hkeeps hchild⟩
      · have hgains : Gains (fun k => k.id = id ∧ (p''.child = none ∨ p''.child = some k.child)) w.spawns
            w'.spawns := ⟨new, hnew, k, hk, hid, hkeeps hchild⟩
        exact .inr (hgains.before h'.spawns)
    · exact .inr (.after h.spawns hgains)

/-- Nothing is spawned. -/
theorem of_refines (hspawns : w'.spawns = w.spawns)
    (hmap : ∀ p', w'.processes.lookup id = some p' → p'.Active →
      ∃ p, w.processes.lookup id = some p ∧ p.Active ∧ (p'.child = none ∨ p'.child = p.child)) :
    Revives id w w' :=
  ⟨.of_eq hspawns, fun p' hp' hactive => .inl (hmap p' hp' hactive)⟩

theorem of_settles (hspawns : w'.spawns = w.spawns)
    (hmap : AssocMap.Refines Process.Settles w.processes w'.processes) : Revives id w w' :=
  of_refines hspawns fun p' hp' hactive => by
    obtain ⟨p, hp, hsettles⟩ := hmap id p' hp'
    exact ⟨p, hp, hsettles.active hactive, hsettles.child⟩

theorem of_kept {S : Set ℕ} {P : KillCall → Prop} (h : MapStep Kept S P w w') : Revives id w w' :=
  of_refines h.spawns fun p' hp' hactive => by
    obtain ⟨p, hp, rfl⟩ := h.processes id p' hp'
    exact ⟨p', hp, hactive, .inr rfl⟩

/-- An entry is written back that is not active or was so before. -/
theorem put {i : ProcessId} (hspawns : w'.spawns = w.spawns) (hprocesses : w'.processes = w.processes)
    (hp : w.processes.lookup i = some p)
    (h : p'.Active → p.Active ∧ (p'.child = none ∨ p'.child = p.child)) : Revives id w (w'.put i p') := by
  refine of_refines hspawns fun q hq hactive => ?_
  rw [put_processes, AssocMap.lookup_replace, hprocesses] at hq
  split_ifs at hq with hi
  · subst hi
    rw [hp, Option.map_some, Option.some.injEq] at hq
    subst hq
    exact ⟨p, hp, h hactive⟩
  · exact ⟨q, hq, hactive, .inr rfl⟩

/-- An entry is written that holds the child that was just spawned for it, or is not active. -/
theorem spawned {i : ProcessId} {site : SpawnSite} {config : ProcessConfig} {deps : List ProcessId}
    {w₁ : World} (h : Spawned env site i config deps w w') (hspawns : w₁.spawns = w'.spawns)
    (hlookup : ∀ k q, w₁.processes.lookup k = some q → (k = i ∧ q = p) ∨ w'.processes.lookup k = some q)
    (hp : p.child = some w.nextChild) : Revives id w w₁ := by
  obtain ⟨program, hnew⟩ := h.spawns
  rw [hnew] at hspawns
  refine ⟨hspawns ▸ .cons _ trivial, fun q hq hactive => ?_⟩
  obtain ⟨rfl, rfl⟩ | hq := hlookup id q hq
  · rw [hspawns]
    exact .inr (.cons _ ⟨rfl, .inr hp⟩)
  · rw [h.processes] at hq
    exact .inl ⟨q, hq, hactive, .inr rfl⟩

end Revives

theorem revives_move (h : Move env C w w') : Revives id w w' := by
  cases h with
  | frame hstep => exact .of_kept hstep
  | count => exact .of_refines rfl fun p hp hactive => ⟨p, hp, hactive, .inr rfl⟩
  | poll hp =>
    have hstep : MapStep Process.Polled _ (fun _ => True) w (w.pollEntry env _ _) := mapStep_pollEntry hp
    refine .of_refines hstep.spawns fun q' hq' hactive => ?_
    obtain ⟨q, hq, rfl | ⟨hbefore, s, _, rfl⟩⟩ := hstep.processes id q' hq'
    · exact ⟨q', hq, hactive, .inr rfl⟩
    · exact ⟨q, hq, hbefore, .inr rfl⟩
  | @stop i _ _ _ hp _ hstep =>
    exact .trans (.of_kept (MapStep.remove (S := ∅) (P := fun _ => True) i w))
      (.of_kept (.of_osStep kept_refl hstep))
  | batch _ hstep =>
    refine .of_refines hstep.spawns fun q' hq' hactive => ?_
    obtain ⟨q, hq, ⟨_, rfl⟩ | ⟨rfl, _⟩⟩ := hstep.processes id q' hq'
    · exact ⟨q', hq, hactive, .inr rfl⟩
    · rcases hactive with hs | hs <;> cases hs
  | signal _ _ _ hstep => exact .of_kept (.of_osStep kept_refl hstep)
  | adjust hp hadjust =>
    refine .put rfl rfl hp fun hactive => ⟨?_, .inr hadjust.child⟩
    unfold Process.Active at hactive ⊢
    rwa [hadjust.state] at hactive
  | reset hp hstate hstep =>
    refine .put hstep.spawns hstep.processes hp ?_
    rintro (hs | hs) <;> rw [hstate] at hs <;> cases hs
  | @spawn i p p' _ _ _ w₁ hp _ hspawn hrespawned =>
    have hlookup : ∀ k q, (w₁.put i p').processes.lookup k = some q →
        (k = i ∧ q = p') ∨ w₁.processes.lookup k = some q := by
      intro k q hq
      rw [put_processes, AssocMap.lookup_replace, hspawn.processes] at hq
      split_ifs at hq with hi
      · rw [hp, Option.map_some, Option.some.injEq] at hq
        exact .inl ⟨hi, hq.symm⟩
      · exact .inr (hspawn.processes ▸ hq)
    exact .spawned hspawn rfl hlookup hrespawned.child
  | @insert i p _ _ _ w₁ _ hspawn _ hchild =>
    have hlookup : ∀ k q, (w₁.insert env i p).processes.lookup k = some q →
        (k = i ∧ q = p) ∨ w₁.processes.lookup k = some q := by
      intro k q hq
      rw [insert_processes, AssocMap.lookup_reorder, AssocMap.lookup_insert_eq] at hq
      split_ifs at hq with hi
      · exact .inl ⟨hi, (Option.some.inj hq).symm⟩
      · exact .inr hq
    exact .spawned hspawn rfl hlookup hchild
  | @insertWaiting i p _ _ _ _ _ hstate =>
    refine .of_refines rfl fun q hq hactive => ?_
    rw [insert_processes, AssocMap.lookup_reorder, AssocMap.lookup_insert_eq] at hq
    split_ifs at hq with hi
    · obtain rfl := Option.some.inj hq
      rcases hactive with hs | hs <;> rw [hstate] at hs <;> cases hs
    · exact ⟨q, hq, hactive, .inr rfl⟩
  | toWaiting hp _ _ _ _ hstate =>
    refine .put rfl rfl hp ?_
    rintro (hs | hs) <;> rw [hstate] at hs <;> cases hs
  | timeout hp =>
    refine .put rfl rfl hp ?_
    rintro (hs | hs) <;> cases hs
  | failFast _ _ _ hstep => exact .of_kept hstep

/-! ### How a child ended -/

/-- The exit of the child was collected, and it was a successful one or not. -/
def EndedWith (w : World) (c : ℕ) (success : Bool) : Prop :=
  ∃ ch s t, w.children[c]? = some ch ∧ ch.status = .reaped s t ∧ s.success = success

/-- What a state says about the child of its entry. `try_wait` may have failed where an entry
is `Crashed`. -/
def Tells (env : Env) (w : World) (c : ℕ) : ProcessState → Prop
  | .stopped => w.EndedWith c true
  | .crashed => w.EndedWith c false ∨ ∃ n, env.waitFails n = true
  | _ => True

theorem EndedWith.ages {S : Set ℕ} {c : ℕ} {success : Bool} (hages : Ages S w.children w'.children)
    (h : w.EndedWith c success) : w'.EndedWith c success := by
  obtain ⟨ch, s, t, hch, hstatus, hs⟩ := h
  obtain ⟨ch', hch', hage⟩ := hages c ch hch
  have hreaped : ch.isReaped = true := by simp [OsChild.isReaped, hstatus]
  rw [hage.final hreaped] at hch'
  exact ⟨ch, s, t, hch', hstatus, hs⟩

theorem Tells.ages {S : Set ℕ} {c : ℕ} {state : ProcessState} (hages : Ages S w.children w'.children)
    (h : Tells env w c state) : Tells env w' c state := by
  cases state with
  | stopped => exact EndedWith.ages hages h
  | crashed => exact h.imp_left (EndedWith.ages hages)
  | _ => trivial

/-- What polling a spawned child shows is how it ended. -/
theorem tells_waitResult {c : ℕ} {ch : OsChild} (hch : w.children[c]? = some ch) :
    Tells env (w.tryWait env c) c (w.waitResult env c).state := by
  cases hresult : w.waitResult env c with
  | running => trivial
  | error =>
    refine .inr ⟨w.ticks, ?_⟩
    obtain ⟨ch', hch', _⟩ := w.ages_tick env c ch hch
    unfold waitResult at hresult
    rw [hch'] at hresult
    cases hstatus : ch'.status with
    | reaped s t => simp [hstatus] at hresult
    | exited s t => simpa [hstatus] using hresult
    | running => simpa [hstatus] using hresult
  | exited s =>
    obtain ⟨ch', t, hch', hstatus⟩ := Process.waitResult_exited hresult
    simp only [WaitResult.state]
    split_ifs with hs
    · exact ⟨ch', s, t, hch', hstatus, hs⟩
    · exact .inl ⟨ch', s, t, hch', hstatus, by simpa using hs⟩

/-- Every entry tells how its child ended. -/
structure Truthful (env : Env) (w : World) : Prop where
  owned : Owned w
  tells : ∀ i p c, w.processes.lookup i = some p → p.child = some c → Tells env w c p.state

/-- A state that says nothing about a child. -/
def Mute (s : ProcessState) : Prop := s ≠ .stopped ∧ s ≠ .crashed

theorem tells_of_mute {c : ℕ} {s : ProcessState} (h : Mute s) : Tells env w c s := by
  cases s with
  | stopped => exact absurd rfl h.1
  | crashed => exact absurd rfl h.2
  | _ => trivial

/-- Entries keep their state along with their child, or get a state that says nothing. -/
theorem tells_of_refines {S : Set ℕ} (h : w.Truthful env) (hages : Ages S w.children w'.children)
    (hmap : ∀ i p' c, w'.processes.lookup i = some p' → p'.child = some c → Mute p'.state ∨
      ∃ p, w.processes.lookup i = some p ∧ p.child = some c ∧ p.state = p'.state) :
    ∀ i p c, w'.processes.lookup i = some p → p.child = some c → Tells env w' c p.state := by
  intro i p' c hp' hc
  obtain hmute | ⟨p, hp, hchild, hstate⟩ := hmap i p' c hp' hc
  · exact tells_of_mute hmute
  · exact hstate ▸ (h.tells i p c hp hchild).ages hages

theorem tells_put {S : Set ℕ} {i : ProcessId} (h : w.Truthful env) (hages : Ages S w.children w'.children)
    (hprocesses : w'.processes = w.processes) (hp : w.processes.lookup i = some p)
    (hq : Mute q.state ∨ (q.child = p.child ∧ q.state = p.state)) :
    ∀ k r c, (w'.put i q).processes.lookup k = some r → r.child = some c → Tells env (w'.put i q) c r.state := by
  refine tells_of_refines h hages fun k r c hr hc => ?_
  rw [put_processes, AssocMap.lookup_replace, hprocesses] at hr
  split_ifs at hr with hi
  · subst hi
    rw [hp, Option.map_some, Option.some.injEq] at hr
    subst hr
    exact hq.imp_right fun ⟨hchild, hstate⟩ => ⟨p, hp, hchild ▸ hc, hstate.symm⟩
  · exact .inr ⟨r, hr, hc, rfl⟩

theorem truthful_move (h : w.Truthful env) (hmove : Move env C w w') : w'.Truthful env := by
  refine ⟨owned_move h.owned hmove, ?_⟩
  have hkept : ∀ {w₁ w₂ : World} {S : Set ℕ} {P : KillCall → Prop}, MapStep Kept S P w₁ w₂ → ∀ i p' c,
      w₂.processes.lookup i = some p' → p'.child = some c → Mute p'.state ∨
        ∃ p, w₁.processes.lookup i = some p ∧ p.child = some c ∧ p.state = p'.state := by
    intro w₁ w₂ S P hstep i p' c hp' hc
    obtain ⟨p, hp, rfl⟩ := hstep.processes i p' hp'
    exact .inr ⟨p', hp, hc, rfl⟩
  cases hmove with
  | frame hstep => exact tells_of_refines h hstep.children (hkept hstep)
  | count => exact h.tells
  | @poll i p _ hp =>
    obtain heq | ⟨_, ⟨hnone, heq⟩ | ⟨c, hc, heq⟩⟩ := Process.pollState_cases env p w <;> rw [pollEntry, heq]
    · exact tells_put h (.refl _ : Ages ∅ _ _) rfl hp (.inr ⟨rfl, rfl⟩)
    · refine tells_of_refines h (.refl _ : Ages ∅ _ _) fun k r c hr hc => ?_
      rw [put_processes, AssocMap.lookup_replace] at hr
      split_ifs at hr with hi
      · rw [hp, Option.map_some, Option.some.injEq] at hr
        rw [← hr, hnone] at hc
        cases hc
      · exact .inr ⟨r, hr, hc, rfl⟩
    · -- the child tells how it ended, and it belongs to no other entry
      have hstep : OsStep (Set.univ) (fun _ => False) w (w.tryWait env c) := w.osStep_tryWait env (Set.mem_univ c)
      obtain ⟨ch, hch, _⟩ := h.owned.handle i p hp c hc
      intro k r c' hr hc'
      rw [put_processes, AssocMap.lookup_replace, hstep.processes] at hr
      split_ifs at hr with hi
      · rw [hp, Option.map_some, Option.some.injEq] at hr
        subst hr
        obtain rfl : c = c' := Option.some.inj (hc.symm.trans hc')
        exact tells_waitResult hch
      · exact (h.tells k r c' hr hc').ages hstep.children
  | @stop i _ _ _ _ _ hstep =>
    refine tells_of_refines h hstep.children fun k r c hr hc => ?_
    rw [hstep.processes] at hr
    exact hkept (MapStep.remove (S := ∅) (P := fun _ => True) i w) k r c hr hc
  | batch _ hstep =>
    refine tells_of_refines h hstep.children fun k r c hr hc => ?_
    obtain ⟨q, hq, ⟨_, rfl⟩ | ⟨rfl, _⟩⟩ := hstep.processes k r hr
    · exact .inr ⟨r, hq, hc, rfl⟩
    · exact .inl ⟨by simp, by simp⟩
  | signal _ _ _ hstep =>
    exact tells_of_refines h hstep.children (hkept (.of_osStep kept_refl hstep))
  | adjust hp hadjust => exact tells_put h (.refl _ : Ages ∅ _ _) rfl hp (.inr ⟨hadjust.child, hadjust.state⟩)
  | reset hp hstate hstep =>
    exact tells_put h hstep.children hstep.processes hp (.inl (by simp [Mute, hstate]))
  | spawn hp _ hspawn hrespawned =>
    exact tells_put h hspawn.children hspawn.processes hp (.inl (by simp [Mute, hrespawned.state]))
  | @insert i p _ _ _ w₁ _ hspawn _ _ _ hstate =>
    refine tells_of_refines h hspawn.children fun k r c hr hc => ?_
    rw [insert_processes, AssocMap.lookup_reorder, AssocMap.lookup_insert_eq] at hr
    split_ifs at hr with hi
    · obtain rfl := Option.some.inj hr
      exact .inl (by simp [Mute, hstate])
    · exact .inr ⟨r, hspawn.processes ▸ hr, hc, rfl⟩
  | @insertWaiting i p _ _ _ _ _ hstate =>
    refine tells_of_refines h (.refl _ : Ages ∅ _ _) fun k r c hr hc => ?_
    rw [insert_processes, AssocMap.lookup_reorder, AssocMap.lookup_insert_eq] at hr
    split_ifs at hr with hi
    · obtain rfl := Option.some.inj hr
      exact .inl (by simp [Mute, hstate])
    · exact .inr ⟨r, hr, hc, rfl⟩
  | toWaiting hp _ _ _ _ hstate => exact tells_put h (.refl _ : Ages ∅ _ _) rfl hp (.inl (by simp [Mute, hstate]))
  | timeout hp => exact tells_put h (.refl _ : Ages ∅ _ _) rfl hp (.inl (by simp [Mute]))
  | failFast _ _ _ hstep => exact tells_of_refines h hstep.children (hkept hstep)

theorem keepStep_toPhase3 (env : Env) (pollInterval : ℕ) (w : World) :
    KeepStep w (w.afterPhase3 env pollInterval) :=
  keepStep_trans _ _ _ (keepStep_awakeDetect env pollInterval w) (keepStep_afterPhase3 env pollInterval w)

theorem truthful_afterPhase3 (hkey : ∀ i q, w.processes.lookup i = some q → q.id = i)
    (h : w.Truthful env) : (w.afterPhase3 env pollInterval).Truthful env := by
  refine ⟨owned_afterPhase3 hkey h.owned, ?_⟩
  refine tells_of_refines h (keepStep_toPhase3 env pollInterval w).children fun i p' c hp' hc => ?_
  obtain ⟨p, hp, _, _, hchild, hstate⟩ := settles_afterPhase3 hkey i p' hp'
  obtain hsame | ⟨_, hnew⟩ | ⟨hrestarting, _⟩ := hstate
  · obtain hnone | hchild := hchild
    · rw [hnone] at hc
      cases hc
    · exact .inr ⟨p, hp, hchild ▸ hc, hsame.symm⟩
  · rcases hnew with hnew | hnew <;> exact .inl (by simp [Mute, hnew])
  · exact .inl (by simp [Mute, hrestarting])

end World

/-! ### Runs -/

namespace System

variable (env : Env) (pollInterval : ℕ)

/-- The rule for the rest of a run: what survives every move and Phases 1 to 3 holds at its end. -/
theorem later_invariant {I : World → Prop}
    (hmove : ∀ w w', I w → World.Move env (fun _ _ _ => True) w w' → I w')
    (hpass : ∀ w, Sound w → I w → I (w.afterPhase3 env pollInterval))
    {s : System} (hsound : Sound s.world) (hI : I s.world) (actions : List Action) :
    I (s.run env pollInterval actions).world := by
  refine (Fold.foldl_invariant (I := fun s : System => Sound s.world ∧ I s.world) ⟨hsound, hI⟩ ?_).2
  rintro s a - ⟨hsound, hI⟩
  refine ⟨sound_step env pollInterval s a hsound, ?_⟩
  by_cases ha : a = .pass
  · subst ha
    exact World.ifRunning_invariant hI fun _ =>
      (World.moves_afterPhase3 pollInterval s.world).invariant hmove (hpass s.world hsound hI)
  · have hmoves : World.Moves env (fun _ _ _ => True) s.world (s.step env pollInterval a).world :=
      moves_step (D := fun _ => True) (fun _ _ => trivial) ha hsound (stepMeets_of_pass fun _ _ => trivial)
    exact hmoves.invariant hmove hI

theorem fitOrEnded_run {s : System} (hs : s.Initial) (actions : List Action) :
    (s.run env pollInterval actions).world.FitOrEnded := by
  have hinit : s.world.FitOrEnded := by
    refine .inl fun id p hp => ?_
    rcases hs with rfl | rfl <;> cases hp
  exact later_invariant env pollInterval (fun _ _ => World.fitOrEnded_move)
    (fun _ hw => World.fitOrEnded_afterPhase3 hw.key) (sound_run env pollInterval hs []) hinit actions

/-- Only a reaper thread that ends leaves an entry without the child that its state speaks of. -/
theorem child_or_ended {s : System} (hs : s.Initial) {actions : List Action} {id : ProcessId} {p : Process}
    (hp : (s.run env pollInterval actions).world.processes.lookup id = some p) (hholds : p.state.holdsChild = true) :
    (∃ c, p.child = some c) ∨ p.child = none ∧ (s.run env pollInterval actions).world.ReaperEnded := by
  cases hc : p.child with
  | some c => exact .inl ⟨c, rfl⟩
  | none =>
    obtain hfit | hended := fitOrEnded_run env pollInterval hs actions
    · exact absurd hc ((hfit id p hp).child hholds)
    · exact .inr ⟨rfl, hended⟩

/-- A process that is `Starting` or `Running` at a later point of a run holds a child, with which it was
so at the earlier point or which was spawned for it in between. Only a reaper thread that has ended
leaves one behind without a child. -/
theorem active_respawned {s : System} (hs : s.Initial) (before later : List Action) {id : ProcessId}
    {p' : Process} (hp' : (s.run env pollInterval (before ++ later)).world.processes.lookup id = some p')
    (hactive : p'.Active) :
    (∃ c, p'.child = some c ∧
      ((∃ p, (s.run env pollInterval before).world.processes.lookup id = some p ∧ p.Active ∧ p.child = some c) ∨
        Gains (fun k => k.id = id ∧ k.child = c) (s.run env pollInterval before).world.spawns
          (s.run env pollInterval (before ++ later)).world.spawns)) ∨
      p'.child = none ∧ (s.run env pollInterval (before ++ later)).world.ReaperEnded := by
  have hsound := sound_run env pollInterval hs before
  have hrevives : World.Revives id (s.run env pollInterval before).world
      (s.run env pollInterval (before ++ later)).world := by
    rw [run, run, List.foldl_append]
    refine later_invariant env pollInterval (fun _ _ h hmove => h.trans (World.revives_move hmove)) ?_
      hsound (.refl id _) later
    exact fun w hw h => h.trans (.of_settles (World.keepStep_toPhase3 env pollInterval w).spawns
      (World.settles_afterPhase3 hw.key))
  have hholds : p'.state.holdsChild = true := by
    rcases hactive with h | h <;> rw [h] <;> rfl
  refine (child_or_ended env pollInterval hs hp' hholds).imp_left ?_
  rintro ⟨c, hc⟩
  refine ⟨c, hc, ?_⟩
  have hrevived := hrevives.active p' hp' hactive
  simp only [hc, reduceCtorEq, Option.some.injEq, false_or, eq_comm (a := some c)] at hrevived
  exact hrevived

/-- A pass finds the crash and respawns the process. -/
theorem active_respawned_crash :
    Gains (fun k => k.id = ⟨1⟩ ∧ k.child = 1) (withReaper.run webCrashes 0 [.start ⟨"web"⟩ brief]).world.spawns
      (withReaper.run webCrashes 0 ([.start ⟨"web"⟩ brief] ++ [.pass])).world.spawns := by
  have hbefore : ((withReaper.run webCrashes 0 [.start ⟨"web"⟩ brief]).world.processes.lookup ⟨1⟩).map
      Process.child = some (some 0) := by decide +kernel
  have hafter : ((withReaper.run webCrashes 0 ([.start ⟨"web"⟩ brief] ++ [.pass])).world.processes.lookup
      ⟨1⟩).map (fun p => (p.state, p.child)) = some (.starting, some 1) := by decide +kernel
  obtain ⟨p', hp', hpair⟩ := Option.map_eq_some_iff.mp hafter
  rw [Prod.mk.injEq] at hpair
  obtain ⟨hstate, hchild⟩ := hpair
  obtain ⟨c, hc, ⟨p, hp, _, hkept⟩ | hspawned⟩ | ⟨hnone, _⟩ :=
    active_respawned webCrashes 0 (.inr rfl) [.start ⟨"web"⟩ brief] [.pass] hp' (.inl hstate)
  · rw [hp, Option.map_some, Option.some.injEq, hkept, ← hc, hchild] at hbefore
    exact absurd hbefore (by decide)
  · obtain rfl : 1 = c := Option.some.inj (hchild.symm.trans hc)
    exact hspawned
  · rw [hchild] at hnone
    cases hnone

/-- In every run, an entry that is `Stopped` holds a child that ended successfully, and an entry that
is `Crashed` one that did not, unless `try_wait` has failed. Only a reaper thread that has ended leaves
one behind without a child. -/
theorem state_truthful {s : System} (hs : s.Initial) (actions : List Action) {id : ProcessId}
    {p : Process} (hp : (s.run env pollInterval actions).world.processes.lookup id = some p)
    (hstate : p.state = .stopped ∨ p.state = .crashed) :
    (∃ c, p.child = some c ∧ (p.state = .stopped → (s.run env pollInterval actions).world.EndedWith c true) ∧
      (p.state = .crashed → (s.run env pollInterval actions).world.EndedWith c false ∨ ∃ n, env.waitFails n = true)) ∨
      p.child = none ∧ (s.run env pollInterval actions).world.ReaperEnded := by
  have hempty : s.world.processes = ∅ := by
    rcases hs with rfl | rfl <;> rfl
  have hinit : s.world.Truthful env :=
    ⟨⟨by simp [hempty], by simp [hempty]⟩, by simp [hempty]⟩
  have h := later_invariant env pollInterval (fun _ _ => World.truthful_move)
    (fun _ hw => World.truthful_afterPhase3 hw.key) (sound_run env pollInterval hs []) hinit actions
  have hholds : p.state.holdsChild = true := by
    rcases hstate with hstate | hstate <;> rw [hstate] <;> rfl
  refine (child_or_ended env pollInterval hs hp hholds).imp_left ?_
  rintro ⟨c, hc⟩
  have htells := h.tells id p c hp hc
  refine ⟨c, hc, ?_, ?_⟩ <;>
    · intro hstate
      rwa [hstate] at htells

/-- The child crashes, and a query shows it. -/
theorem state_truthful_crash : (new.run webCrashes 0 [.start ⟨"web"⟩ brief, .query ⟨1⟩]).world.EndedWith 0 false := by
  have hentry : ((new.run webCrashes 0 [.start ⟨"web"⟩ brief, .query ⟨1⟩]).world.processes.lookup ⟨1⟩).map
      (fun p => (p.state, p.child)) = some (.crashed, some 0) := by decide +kernel
  obtain ⟨p, hp, hpair⟩ := Option.map_eq_some_iff.mp hentry
  rw [Prod.mk.injEq] at hpair
  obtain ⟨hstate, hchild⟩ := hpair
  obtain ⟨c, hc, _, hcrashed⟩ | ⟨hnone, _⟩ := state_truthful webCrashes 0 (.inl rfl) _ hp (.inr hstate)
  · obtain rfl : 0 = c := Option.some.inj (hchild.symm.trans hc)
    refine (hcrashed hstate).resolve_right ?_
    rintro ⟨_, hfails⟩
    cases hfails
  · rw [hchild] at hnone
    cases hnone

end System

end ProcessManager
