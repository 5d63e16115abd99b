import ProcessManager.Manager.Respawn
import ProcessManager.Reaper.Decisions
import ProcessManager.System.StoppedDependency

/-! Fail-fast in one pass. Phase 5 looks at the bound ids of a `Waiting` process unless it binds
further ones in the same visit; Phase 6 looks at those of every `Running` process. -/

namespace ProcessManager

namespace World

/-- Phase 5, if the reaper thread gets there. -/
def afterPhase5 (env : Env) (w : World) : World := w.ifRunning (phase5 env)

/-- Phases 5 and 6. -/
def lastPhases (env : Env) (w : World) : World := (w.afterPhase5 env).ifRunning (phase6 env)

theorem reaperPass_lastPhases (env : Env) (pollInterval : ℕ) (w : World) :
    w.reaperPass env pollInterval = (w.beforePhase5 env pollInterval).lastPhases env := rfl

/-- The process was removed, with one `Failed` event. -/
def FailedBetween (id : ProcessId) (w w' : World) : Prop :=
  id ∉ w'.processes ∧ ∃ s, w.sentFor id w' = [s] ∧ s.event.state = .failed

/-- A `Waiting` process is failed if a bound id is terminal when Phase 5 examines it. -/
def FailsWaiting (env : Env) (id : ProcessId) (w : World) : Prop :=
  w.reaper = .running → id ∈ w.waitingIds → Doomed id (w.visitedIn env id) →
    FailedBetween id w (w.lastPhases env)

/-- A process that is `Running` with a terminal bound id when Phase 6 starts is failed. -/
def FailsRunning (env : Env) (id : ProcessId) (w : World) : Prop :=
  (w.afterPhase5 env).reaper = .running → id ∈ (w.afterPhase5 env).runningWithDeps →
    Doomed id (w.afterPhase5 env) → FailedBetween id (w.afterPhase5 env) (w.lastPhases env)

/-- Every visit of Phase 5 or 6 to a process with a terminal bound id fails it. -/
def FailsDoomed (env : Env) (w : World) : Prop := ∀ id, w.FailsWaiting env id ∧ w.FailsRunning env id

/-- The world after the spawns of Phase 5. -/
def afterSpawns (env : Env) (w : World) : World :=
  (w.verdicts env).1.toSpawn.foldl (fun w id => w.spawnWaitingProcess env id) (w.verdicts env).2

/-- The worlds in which Phase 5 spawns `id`, Phase 5 fails it, and Phase 6 checks it. -/
def spawnedIn (env : Env) (id : ProcessId) (w : World) : World :=
  ((w.verdicts env).1.toSpawn.takeWhile (· ≠ id)).foldl (fun w i => w.spawnWaitingProcess env i) (w.verdicts env).2

def failedIn (env : Env) (id : ProcessId) (w : World) : World :=
  ((w.verdicts env).1.toFail.takeWhile (· ≠ id)).foldl (fun w i => w.ifRunning (failWaiting env i)) (w.afterSpawns env)

def checkedIn (env : Env) (id : ProcessId) (w : World) : World :=
  (w.runningWithDeps.takeWhile (· ≠ id)).foldl (fun w i => w.ifRunning (failFast env i))
    (w.touch .shared w.processes.keys)

/-- The visit of a process in time binds a dependency that has no id yet. -/
def BindsMore (env : Env) (id : ProcessId) (w : World) : Prop :=
  ∃ p, w.processes.lookup id = some p ∧ w.timedOut env p = false ∧
    p.resolvedDeps.length ≠ p.config.dependsOn.length ∧
    ∃ dep ∈ depsToResolve w.processes p, newlyResolvedId w.processes dep ≠ none

/-- A doomed process is not bound further in its visit, and the receiver of the events is still
there when it is failed. -/
def Prompt (env : Env) (w : World) : Prop :=
  (∀ id, w.reaper = .running → id ∈ w.waitingIds → Doomed id (w.visitedIn env id) →
    ¬ (w.visitedIn env id).BindsMore env id ∧
      ((w.failedIn env id).ifRunning (failWaiting env id)).receiverAlive = true) ∧
  ∀ id, (w.afterPhase5 env).reaper = .running → id ∈ (w.afterPhase5 env).runningWithDeps →
    Doomed id (w.afterPhase5 env) →
    (((w.afterPhase5 env).checkedIn env id).ifRunning (failFast env id)).receiverAlive = true

/-- A process that Phases 5 and 6 remove or send an event for had waited for too long, or a bound
id was terminal when that was decided, or it could not be spawned. -/
def Justified (env : Env) (id : ProcessId) (w : World) : Prop :=
  id ∈ w.processes → (id ∉ (w.lastPhases env).processes ∨ w.sentFor id (w.lastPhases env) ≠ []) →
    (∃ p, (w.visitedIn env id).processes.lookup id = some p ∧ p.state = .waiting ∧
      ((w.visitedIn env id).timedOut env p = true ∨
        p.resolvedDeps.any (isTerminalDep (w.visitedIn env id).processes) = true)) ∨
    (∃ p, (w.spawnedIn env id).processes.lookup id = some p ∧ (w.spawnedIn env id).spawnError env p.config ≠ none) ∨
    ∃ p, ((w.afterPhase5 env).checkedIn env id).processes.lookup id = some p ∧ p.state = .running ∧
      p.resolvedDeps.any (isTerminalDep ((w.afterPhase5 env).checkedIn env id).processes) = true

variable {env : Env} {w w' w'' : World} {id k : ProcessId} {p q : Process} {v : Verdicts}

/-! ### Sections that leave a process alone -/

/-- The process is as tracked as before, and nothing was sent for it. -/
structure LeftAlone (id : ProcessId) (w w' : World) : Prop where
  mem : id ∈ w'.processes ↔ id ∈ w.processes
  sends : w.sends <:+ w'.sends
  silent : w.sentFor id w' = []

namespace LeftAlone

theorem trans (h : LeftAlone id w w') (h' : LeftAlone id w' w'') : LeftAlone id w w'' where
  mem := h'.mem.trans h.mem
  sends := h.sends.trans h'.sends
  silent := by rw [sentFor_trans id h.sends h'.sends, h.silent, h'.silent, List.append_nil]

theorem of_silent (h : Silent w w') : LeftAlone id w w' :=
  ⟨h.mem id, h.sends ▸ List.suffix_rfl, sentFor_of_eq h.sends⟩

theorem of_untouched (h : Untouched id w w') : LeftAlone id w w' where
  mem := by rw [← AList.lookup_isSome, h.lookup, AList.lookup_isSome]
  sends := h.sends
  silent := h.silent

end LeftAlone

/-- At most one event was sent, for `k`. -/
def SendsFor (k : ProcessId) (w w' : World) : Prop :=
  w'.sends = w.sends ∨ ∃ s, s.event.id = k ∧ w'.sends = s :: w.sends

theorem Untouched.of_sendsFor (hk : id ≠ k) (hlookup : w'.processes.lookup id = w.processes.lookup id)
    (h : SendsFor k w w') : Untouched id w w' := by
  obtain heq | ⟨s, hs, hsends⟩ := h
  · exact .of_sends_eq hlookup heq
  · refine ⟨hlookup, hsends ▸ List.suffix_cons _ _, ?_⟩
    rw [sentFor_cons hsends, if_neg (hs ▸ hk.symm)]

theorem sendsFor_send (event : ProcessExitEvent) (h : w'.sends = w.sends) :
    SendsFor event.id w (w'.send env event) := by
  obtain ⟨_, hsends⟩ | ⟨_, hsends⟩ := send_outcome env event w'
  · exact .inr ⟨⟨event, w'.processes⟩, rfl, hsends.trans (congrArg _ h)⟩
  · exact .inl (hsends.trans h)

theorem sendsFor_sendOrReturn (event : ProcessExitEvent) (h : w'.sends = w.sends) :
    SendsFor event.id w (w'.sendOrReturn env event) := by
  obtain ⟨_, hsends⟩ | ⟨_, hsends⟩ := sends_sendOrReturn env event w'
  · exact .inr ⟨⟨event, w'.processes⟩, rfl, hsends.trans (congrArg _ h)⟩
  · exact .inl (hsends.trans h)

theorem sendsFor_spawnWaitingProcess (k : ProcessId) (w : World) :
    SendsFor k w (w.spawnWaitingProcess env k) := by
  simp only [spawnWaitingProcess, lock_processes]
  split
  · exact .inl rfl
  · next p hp =>
    have hspawn := spawnProcess_sends env .spawnWaiting k p.config p.resolvedDeps (w.lock .exclusive k)
    split
    · exact sendsFor_send (p.endEvent k .failed) hspawn
    · refine .inl ?_
      split_ifs <;> exact hspawn

theorem sendsFor_failWaiting (k : ProcessId) (w : World) : SendsFor k w (w.failWaiting env k) := by
  simp only [failWaiting, lock_processes]
  split
  · exact .inl rfl
  · next p hp => exact sendsFor_sendOrReturn (p.endEvent k .failed) rfl

theorem sendsFor_failRunning (p : Process) (h : w'.sends = w.sends) : SendsFor k w (w'.failRunning env k p) := by
  have hsend : ∀ w₁ : World, w₁.sends = w.sends →
      SendsFor k w (((w₁.unlock .exclusive k).removeEntry k).sendOrReturn env (p.endEvent k .failed)) :=
    fun w₁ hw₁ => sendsFor_sendOrReturn (p.endEvent k .failed)
      (show ((w₁.unlock .exclusive k).removeEntry k).sends = w.sends from hw₁)
  simp only [failRunning, lock_processes]
  split
  · exact hsend _ h
  · next q hq =>
    split_ifs
    · exact hsend _ ((Process.sendSignal_sends env .failFast q q.config.killSignal _).trans h)
    · exact hsend _ h

theorem sendsFor_failFast (k : ProcessId) (w : World) : SendsFor k w (w.failFast env k) := by
  simp only [failFast, lock_processes]
  split
  · exact .inl rfl
  · next p hp =>
    split_ifs
    · exact sendsFor_failRunning p rfl
    · exact .inl rfl

theorem untouched_spawnWaitingProcess (hk : id ≠ k) (w : World) :
    Untouched id w (w.spawnWaitingProcess env k) :=
  .of_sendsFor hk (spawnWaitingProcess_lookup hk w) (sendsFor_spawnWaitingProcess k w)

theorem untouched_failWaiting (hk : id ≠ k) (w : World) : Untouched id w (w.failWaiting env k) :=
  .of_sendsFor hk (failWaiting_lookup hk w) (sendsFor_failWaiting k w)

theorem untouched_failFast (hk : id ≠ k) (w : World) : Untouched id w (w.failFast env k) :=
  .of_sendsFor hk (failFast_lookup hk w) (sendsFor_failFast k w)

theorem Untouched.ifRunning {f : World → World} (h : Untouched id w (f w)) : Untouched id w (w.ifRunning f) :=
  ifRunning_invariant (I := Untouched id w) (.refl id w) fun _ => h

/-- Steps for other processes leave a process alone. -/
theorem untouched_foldl {f : World → ProcessId → World} (hf : ∀ k w, id ≠ k → Untouched id w (f w k))
    {ids : List ProcessId} (hid : id ∉ ids) (w : World) : Untouched id w (ids.foldl f w) := by
  refine Fold.foldl_invariant (I := Untouched id w) (.refl id w) fun w' k hk hw' => ?_
  exact hw'.trans (hf k w' (by rintro rfl; exact hid hk))

/-! ### The verdict on one process -/

theorem newlyResolved_eq_nil {processes : AssocMap ProcessId Process} {deps : List DependencyRef} :
    newlyResolved processes deps = [] ↔ ¬ ∃ dep ∈ deps, newlyResolvedId processes dep ≠ none := by
  rw [newlyResolved, List.filterMap_eq_nil_iff]
  push Not
  rfl

/-- The visit fails the process: it has waited for too long, or it is doomed and there is nothing
to bind. -/
def FailedByVisit (env : Env) (id : ProcessId) (w : World) : Prop :=
  ∃ p, w.processes.lookup id = some p ∧
    (w.timedOut env p = true ∨ Doomed id w ∧ ¬ w.BindsMore env id)

theorem examine_toFail (env : Env) (id : ProcessId) (v : Verdicts) (w : World) :
    (w.FailedByVisit env id ∧ (examine env id (v, w)).1.toFail = v.toFail ++ [id]) ∨
      (¬ w.FailedByVisit env id ∧ (examine env id (v, w)).1.toFail = v.toFail) := by
  cases hp : w.processes.lookup id with
  | none =>
    rw [examine_untracked hp]
    exact .inr ⟨by simp [FailedByVisit, hp], rfl⟩
  | some p =>
    have hdoomed : Doomed id w ↔ p.resolvedDeps.any (isTerminalDep w.processes) = true := by
      rw [Doomed, hp, Option.any_some]
    have hvisit : w.FailedByVisit env id ↔ w.timedOut env p = true ∨
        p.resolvedDeps.any (isTerminalDep w.processes) = true ∧ ¬ w.BindsMore env id := by
      simp only [FailedByVisit, hp, Option.some.injEq, exists_eq_left', hdoomed]
    have hmore : w.BindsMore env id ↔ w.timedOut env p = false ∧
        p.resolvedDeps.length ≠ p.config.dependsOn.length ∧
        newlyResolved w.processes (depsToResolve w.processes p) ≠ [] := by
      simp only [BindsMore, hp, Option.some.injEq, exists_eq_left', ne_eq, newlyResolved_eq_nil, not_not]
    rw [hvisit, hmore]
    cases htimeout : w.timedOut env p with
    | true => exact .inl ⟨.inl rfl, by rw [(examine_timedOut hp htimeout).1]⟩
    | false =>
      have htime : (w.lock .shared id).timedOut env p = false := htimeout
      by_cases hlength : p.resolvedDeps.length = p.config.dependsOn.length
      · have hverdict : (examine env id (v, w)).1.toFail =
            if p.resolvedDeps.any (isTerminalDep w.processes) then v.toFail ++ [id] else v.toFail := by
          simp only [examine, lock_processes, hp, htime, Bool.false_eq_true, ↓reduceIte, ne_eq, hlength,
            not_true_eq_false, checkResolved_toFail, readElapsed_processes]
        rw [hverdict]
        split_ifs with hany <;> simp [hlength, hany]
      · by_cases hnew : newlyResolved w.processes (depsToResolve w.processes p) = []
        · have hverdict : (examine env id (v, w)).1.toFail =
              if p.resolvedDeps.any (isTerminalDep w.processes) then v.toFail ++ [id] else v.toFail := by
            simp only [examine, lock_processes, hp, htime, Bool.false_eq_true, ↓reduceIte, ne_eq, hlength,
              not_false_eq_true, resolveMore, touch_processes, unlock_processes, readElapsed_processes, hnew,
              failIfTerminal_toFail]
          rw [hverdict]
          split_ifs with hany <;> simp [hnew, hany]
        · have hverdict : (examine env id (v, w)).1.toFail = v.toFail := by
            simp only [examine, lock_processes, hp, htime, Bool.false_eq_true, ↓reduceIte, ne_eq, hlength,
              not_false_eq_true, resolveMore, touch_processes, unlock_processes, readElapsed_processes, hnew,
              spawnIfReady_toFail]
          exact .inr ⟨by simp [hlength, hnew], hverdict⟩

theorem isTerminalDep_not_running {processes : AssocMap ProcessId Process} {d : ProcessId}
    (h : isTerminalDep processes d = true) : isRunningDep processes d = false := by
  unfold isTerminalDep at h
  unfold isRunningDep
  cases hp : processes.lookup d with
  | none => rfl
  | some p =>
    rw [hp] at h
    simp only [Bool.or_eq_true, Bool.and_eq_true, decide_eq_true_eq] at h
    obtain h | ⟨h, _⟩ := h <;> simp [h]

/-- A doomed process is not spawned. -/
theorem examine_toSpawn_of_doomed (env : Env) (h : Doomed id w) (v : Verdicts) :
    (examine env id (v, w)).1.toSpawn = v.toSpawn := by
  obtain ⟨p, hp, hany⟩ := doomed_iff.mp h
  obtain ⟨d, hd, hterminal⟩ := List.any_eq_true.mp hany
  obtain ⟨hmap, hsame | ⟨_, q, hq, _, hrunning⟩⟩ := examine_outcome env id v w
  · exact hsame
  · have hbound : d ∈ q.resolvedDeps := by
      obtain heq | ⟨p', hp', _, heq⟩ := hmap
      · rw [heq, hp, Option.some.injEq] at hq
        exact hq ▸ hd
      · obtain rfl : p = p' := Option.some.inj (hp.symm.trans hp')
        rw [heq, AssocMap.lookup_replace, if_pos rfl, hp, Option.map_some, Option.some.injEq] at hq
        rw [← hq]
        exact List.mem_append_left _ hd
    have hrunning := hrunning d hbound
    rw [isRunningDep_congr (view_examine id v w), isTerminalDep_not_running hterminal] at hrunning
    cases hrunning

/-! ### The verdicts of a pass -/

theorem mem_toFail_examineAll {ids : List ProcessId} (hid : id ∉ ids) (x : Verdicts × World) :
    id ∈ (examineAll env ids x).1.toFail ↔ id ∈ x.1.toFail := by
  refine Fold.foldl_invariant (I := fun y : Verdicts × World => (id ∈ y.1.toFail ↔ id ∈ x.1.toFail))
    Iff.rfl fun y i hi hy => ?_
  have hne : id ≠ i := by
    rintro rfl
    exact hid hi
  obtain ⟨_, h⟩ | ⟨_, h⟩ := examine_toFail env i y.1 y.2 <;> rw [h]
  · rw [List.mem_append, List.mem_singleton, hy]
    simp [hne]
  · exact hy

/-- Who is examined in a pass, and when. -/
theorem verdicts_split (env : Env) (hid : id ∈ w.waitingIds) :
    ∃ (v : Verdicts) (after : List ProcessId), id ∉ after ∧ id ∉ v.toFail ∧ id ∉ v.toSpawn ∧
      w.verdicts env = examineAll env after (examine env id (v, w.visitedIn env id)) := by
  have hnodup : w.waitingIds.Nodup := AssocMap.nodup_keysWhere _ _
  obtain ⟨hfresh, after, hafter, hids⟩ := Fold.exists_takeWhile_ne_of_nodup hnodup hid
  set before := w.waitingIds.takeWhile (· ≠ id) with hbefore
  set x := examineAll env before (⟨[], []⟩, w.touch .shared w.processes.keys) with hx
  refine ⟨x.1, after, hafter, ?_, ?_, ?_⟩
  · rw [hx, mem_toFail_examineAll hfresh]
    exact List.not_mem_nil
  · rw [hx, mem_toSpawn_examineAll hfresh]
    exact List.not_mem_nil
  · rw [verdicts_eq, hids, examineAll, List.foldl_append, List.foldl_cons]
    rfl

/-- Phase 5 fails what it decides to fail in its visit. -/
theorem mem_toFail_iff (env : Env) (hid : id ∈ w.waitingIds) :
    id ∈ (w.verdicts env).1.toFail ↔ (w.visitedIn env id).FailedByVisit env id := by
  obtain ⟨v, after, hafter, hfresh, _, hverdicts⟩ := verdicts_split env hid
  rw [hverdicts, mem_toFail_examineAll hafter]
  obtain ⟨h, heq⟩ | ⟨h, heq⟩ := examine_toFail env id v (w.visitedIn env id) <;> rw [heq]
  · simp [h]
  · simp [h, hfresh]

theorem not_mem_toSpawn_of_doomed (env : Env) (hid : id ∈ w.waitingIds) (h : Doomed id (w.visitedIn env id)) :
    id ∉ (w.verdicts env).1.toSpawn := by
  obtain ⟨v, after, hafter, _, hfresh, hverdicts⟩ := verdicts_split env hid
  rw [hverdicts, mem_toSpawn_examineAll hafter, examine_toSpawn_of_doomed env h]
  exact hfresh

/-! ### The step that fails a process -/

/-- The process was removed, and its failure was sent if the receiver is still there. -/
structure Fell (id : ProcessId) (w w' : World) : Prop where
  gone : id ∉ w'.processes
  sends : w.sends <:+ w'.sends
  outcome : (w'.receiverAlive = true ∧ ∃ s, w.sentFor id w' = [s] ∧ s.event.state = .failed) ∨
    (w'.receiverAlive = false ∧ w.sentFor id w' = [])

/-- A process falls in exactly one step, and that is the one that has to be heard. -/
theorem failedBetween_iff {w₁ w₂ : World} (hbefore : LeftAlone id w w₁) (hfell : Fell id w₁ w₂)
    (hafter : LeftAlone id w₂ w') : FailedBetween id w w' ↔ w₂.receiverAlive = true := by
  have hgone : id ∉ w'.processes := fun h => hfell.gone (hafter.mem.mp h)
  have hsent : w.sentFor id w' = w₁.sentFor id w₂ := by
    rw [sentFor_trans id hbefore.sends (hfell.sends.trans hafter.sends), hbefore.silent,
      sentFor_trans id hfell.sends hafter.sends, hafter.silent, List.nil_append, List.append_nil]
  unfold FailedBetween
  rw [hsent]
  obtain ⟨halive, hevent⟩ | ⟨hdead, hnone⟩ := hfell.outcome
  · simp [hgone, halive, hevent]
  · simp [hdead, hnone]

theorem fell_sendOrReturn {event : ProcessExitEvent} (hsends : w'.sends = w.sends) (hid : event.id = id)
    (hstate : event.state = .failed) : Fell id w ((w'.removeEntry id).sendOrReturn env event) := by
  set w₁ := w'.removeEntry id with hw₁
  have hsends₁ : w₁.sends = w.sends := hsends
  have hgone : id ∉ (w₁.sendOrReturn env event).processes := by
    rw [sendOrReturn_processes]
    exact fun h => (AList.mem_erase.mp h).1 rfl
  have halive := receiverAlive_sendOrReturn env event w₁
  obtain ⟨hok, hsent⟩ | ⟨hclosed, hsent⟩ := sends_sendOrReturn env event w₁ <;> rw [hsends₁] at hsent
  · refine ⟨hgone, hsent ▸ List.suffix_cons _ _, .inl ⟨halive.trans hok, ⟨event, w₁.processes⟩, ?_, hstate⟩⟩
    rw [sentFor_cons hsent, if_pos hid]
  · exact ⟨hgone, hsent ▸ List.suffix_rfl, .inr ⟨halive.trans hclosed, sentFor_of_eq hsent⟩⟩

theorem fell_failWaiting (env : Env) (hp : w.processes.lookup id = some p) : Fell id w (w.failWaiting env id) := by
  simp only [failWaiting, lock_processes, hp]
  exact fell_sendOrReturn rfl rfl rfl

theorem fell_failFast (env : Env) (h : Doomed id w) : Fell id w (w.failFast env id) := by
  obtain ⟨p, hp, hany⟩ := doomed_iff.mp h
  simp only [failFast, lock_processes, hp, hany, ↓reduceIte, failRunning, unlock_processes, touch_processes]
  split_ifs
  · exact fell_sendOrReturn ((Process.sendSignal_sends env .failFast p p.config.killSignal _).trans rfl) rfl rfl
  · exact fell_sendOrReturn rfl rfl rfl

/-- The thread has not ended, or there was nobody to listen. -/
def EndsUnheard (w : World) : Prop := w.reaper = .running ∨ w.receiverAlive = false

theorem endsUnheard_sendOrReturn {event : ProcessExitEvent} (hr : w.reaper = .running) :
    (w.sendOrReturn env event).EndsUnheard := by
  have hreaper := (osStep_send (S := ∅) (P := fun _ => True) env event w).reaper
  obtain ⟨_, heq⟩ | ⟨hclosed, _⟩ := sendOrReturn_outcome env event w
  · exact .inl ((congrArg World.reaper heq).trans (hreaper.trans hr))
  · exact .inr ((receiverAlive_sendOrReturn env event w).trans hclosed)

theorem endsUnheard_failWaiting (hr : w.reaper = .running) : (w.failWaiting env k).EndsUnheard := by
  simp only [failWaiting, lock_processes]
  split
  · exact .inl hr
  · exact endsUnheard_sendOrReturn hr

theorem endsUnheard_failRunning (p : Process) (hr : w.reaper = .running) :
    (w.failRunning env k p).EndsUnheard := by
  have hsend : ∀ w₁ : World, w₁.reaper = .running →
      (((w₁.unlock .exclusive k).removeEntry k).sendOrReturn env (p.endEvent k .failed)).EndsUnheard :=
    fun _ h => endsUnheard_sendOrReturn h
  have hsignal : ∀ (q : Process) (w₁ : World), w₁.reaper = .running →
      (q.sendSignal env .failFast q.config.killSignal w₁).2.reaper = .running :=
    fun _ _ h => Process.osStep_sendSignal.reaper.trans h
  simp only [failRunning, lock_processes]
  split
  · exact hsend _ hr
  · next q hq =>
    split_ifs
    · exact hsend _ (hsignal q _ hr)
    · exact hsend _ hr

theorem endsUnheard_failFast (hr : w.reaper = .running) : (w.failFast env k).EndsUnheard := by
  simp only [failFast, lock_processes]
  split
  · exact .inl hr
  · split_ifs
    · exact endsUnheard_failRunning _ hr
    · exact .inl hr

theorem endsUnheard_foldl {f : ProcessId → World → World}
    (hf : ∀ k w, w.reaper = .running → (f k w).EndsUnheard) (ids : List ProcessId) (hw : w.EndsUnheard) :
    (ids.foldl (fun w k => w.ifRunning (f k)) w).EndsUnheard := by
  refine Fold.foldl_invariant (I := EndsUnheard) hw fun w' k _ hw' => ?_
  exact ifRunning_invariant (I := EndsUnheard) hw' fun hr => hf k w' hr

/-- A sweep comes to a process once, and leaves it alone before and after. -/
theorem untouched_around {f : World → ProcessId → World} (hf : ∀ k w, id ≠ k → Untouched id w (f w k))
    {ids : List ProcessId} (hnodup : ids.Nodup) (hid : id ∈ ids) (w : World) :
    Untouched id w ((ids.takeWhile (· ≠ id)).foldl f w) ∧
      Untouched id (f ((ids.takeWhile (· ≠ id)).foldl f w) id) (ids.foldl f w) :=
  Fold.foldl_around (r := Untouched id) (.refl id) (fun _ _ _ => .trans) (fun w k hk => hf k w hk.symm)
    hnodup hid w

/-- Where the thread has ended before the step of the process, nobody listens any more. -/
theorem failedBetween_iff_heard {w₁ : World} {f : World → World} (hbefore : LeftAlone id w w₁)
    (hunheard : w₁.EndsUnheard) (hmem : id ∈ w.processes) (hfell : Fell id w₁ (f w₁))
    (hafter : LeftAlone id (w₁.ifRunning f) w') :
    FailedBetween id w w' ↔ (w₁.ifRunning f).receiverAlive = true := by
  unfold ifRunning at hafter ⊢
  split_ifs at hafter ⊢ with hr
  · exact failedBetween_iff hbefore hfell hafter
  · have hkept : id ∈ w'.processes := (hbefore.trans hafter).mem.mpr hmem
    refine iff_of_false (fun h => h.1 hkept) ?_
    rw [hunheard.resolve_left hr]
    decide

/-! ### Phase 5 -/

/-- No visit of Phase 5 removes a `Waiting` process. -/
theorem lookup_examineAll_waiting (env : Env) (hid : id ∈ w.waitingIds) (ids : List ProcessId) :
    ∃ q, (examineAll env ids (⟨[], []⟩, w.touch .shared w.processes.keys)).2.processes.lookup id = some q ∧
      q.state = .waiting := by
  obtain ⟨p, hp, hstate⟩ := AssocMap.mem_keysWhere.mp hid
  have hview := congrFun (@view_examineAll env ids (⟨[], []⟩, w.touch .shared w.processes.keys)) id
  simp only [view, touch_processes, hp, Option.map_some] at hview
  obtain ⟨q, hq, heq⟩ := Option.map_eq_some_iff.mp hview
  exact ⟨q, hq, (congrArg Prod.fst heq).trans (of_decide_eq_true hstate)⟩

theorem reaper_afterSpawns (env : Env) (w : World) : (w.afterSpawns env).reaper = w.reaper := by
  have hverdicts : (w.verdicts env).2.reaper = w.reaper :=
    Fold.foldl_invariant (I := fun x : Verdicts × World => x.2.reaper = w.reaper) rfl
      fun x i _ hx => (reaper_examine env i x).trans hx
  refine Fold.foldl_invariant (I := fun w' : World => w'.reaper = w.reaper) hverdicts fun w' i _ hw' => ?_
  exact (reaper_spawnWaitingProcess env i w').trans hw'

theorem phase5_eq (env : Env) (w : World) : w.phase5 env =
    (w.verdicts env).1.toFail.foldl (fun w id => w.ifRunning (failWaiting env id)) (w.afterSpawns env) := rfl

/-- Up to the end of its spawns Phase 5 leaves a process alone that it does not spawn. -/
theorem untouched_afterSpawns (env : Env) (h : id ∉ (w.verdicts env).1.toSpawn) :
    Untouched id (w.verdicts env).2 (w.afterSpawns env) :=
  untouched_foldl (f := fun w i => w.spawnWaitingProcess env i) (fun _ w hk => untouched_spawnWaitingProcess hk w) h _

theorem untouched_failAll {ids : List ProcessId} (hid : id ∉ ids) (w : World) :
    Untouched id w (ids.foldl (fun w i => w.ifRunning (failWaiting env i)) w) :=
  untouched_foldl (f := fun w i => w.ifRunning (failWaiting env i))
    (fun _ w hk => (untouched_failWaiting hk w).ifRunning) hid w

/-- Phase 6 leaves a process alone that is not `Running`. -/
theorem untouched_phase6 (hid : id ∉ w.runningWithDeps) : Untouched id w (w.phase6 env) := by
  have htouch : Untouched id w (w.touch .shared w.processes.keys) := .of_sends_eq rfl rfl
  exact htouch.trans (untouched_foldl (f := fun w i => w.ifRunning (failFast env i))
    (fun _ w hk => (untouched_failFast hk w).ifRunning) hid _)

theorem untouched_lastPhases (hid : id ∉ (w.afterPhase5 env).runningWithDeps) :
    Untouched id (w.afterPhase5 env) (w.lastPhases env) :=
  (untouched_phase6 hid).ifRunning

theorem not_mem_runningWithDeps (h : ∀ q, w.processes.lookup id = some q → q.state ≠ .running) :
    id ∉ w.runningWithDeps := by
  intro hid
  obtain ⟨q, hq, hrunning⟩ := AssocMap.mem_keysWhere.mp hid
  simp only [Bool.and_eq_true, decide_eq_true_eq] at hrunning
  exact h q hq hrunning.1

/-- A process that Phase 5 neither spawns nor fails waits on. -/
theorem leftAlone_waiting (hr : w.reaper = .running) (hid : id ∈ w.waitingIds)
    (hspawn : id ∉ (w.verdicts env).1.toSpawn) (hfail : id ∉ (w.verdicts env).1.toFail) :
    LeftAlone id w (w.lastPhases env) := by
  obtain ⟨q, hq, hstate⟩ := lookup_examineAll_waiting env hid w.waitingIds
  rw [← verdicts_eq] at hq
  have hacts : Untouched id (w.verdicts env).2 (w.phase5 env) := by
    rw [phase5_eq]
    exact (untouched_afterSpawns env hspawn).trans (untouched_failAll hfail _)
  have hphase5 : w.afterPhase5 env = w.phase5 env := if_pos hr
  have hnot : id ∉ (w.afterPhase5 env).runningWithDeps := by
    refine not_mem_runningWithDeps fun q' hq' => ?_
    rw [hphase5, hacts.lookup, hq, Option.some.injEq] at hq'
    simp [← hq', hstate]
  have hlast : Untouched id (w.phase5 env) (w.lastPhases env) := hphase5 ▸ untouched_lastPhases hnot
  exact (LeftAlone.of_silent (silent_verdicts env w)).trans (.of_untouched (hacts.trans hlast))

/-- The step that fails a process leaves no other entry under its id. -/
theorem lookup_of_failWaiting (env : Env) (hp : w.processes.lookup id = some p)
    (hq : (w.ifRunning (failWaiting env id)).processes.lookup id = some q) : w.processes.lookup id = some q := by
  unfold ifRunning at hq
  split_ifs at hq with hr
  · exact absurd (mem_of_lookup hq) (fell_failWaiting env hp).gone
  · exact hq

/-- A process that Phase 5 decides to fail is failed if that is heard. -/
theorem failedBetween_of_toFail (hr : w.reaper = .running) (hid : id ∈ w.waitingIds)
    (hspawn : id ∉ (w.verdicts env).1.toSpawn) (hfail : id ∈ (w.verdicts env).1.toFail) :
    FailedBetween id w (w.lastPhases env) ↔
      ((w.failedIn env id).ifRunning (failWaiting env id)).receiverAlive = true := by
  obtain ⟨q, hq, hstate⟩ := lookup_examineAll_waiting env hid w.waitingIds
  rw [← verdicts_eq] at hq
  have hnodup : (w.verdicts env).1.toFail.Nodup :=
    (disjointly_verdicts env w).toFail.nodup (AssocMap.nodup_keysWhere _ _)
  obtain ⟨hbefore, hafter⟩ := untouched_around (f := fun w i => w.ifRunning (failWaiting env i))
    (fun _ w hk => (untouched_failWaiting hk w).ifRunning) hnodup hfail (w.afterSpawns env)
  rw [← phase5_eq] at hafter
  have hphase5 : w.afterPhase5 env = w.phase5 env := if_pos hr
  have hmoved : Untouched id (w.verdicts env).2 (w.failedIn env id) :=
    (untouched_afterSpawns env hspawn).trans hbefore
  have hentry : (w.failedIn env id).processes.lookup id = some q := hmoved.lookup.trans hq
  have hunheard : (w.failedIn env id).EndsUnheard :=
    endsUnheard_foldl (fun _ _ => endsUnheard_failWaiting) _ (.inl ((reaper_afterSpawns env w).trans hr))
  have hmem : id ∈ w.processes := mem_of_mem_keysWhere hid
  refine failedBetween_iff_heard ((LeftAlone.of_silent (silent_verdicts env w)).trans (.of_untouched hmoved))
    hunheard hmem (fell_failWaiting env hentry) (.of_untouched (hafter.trans ?_))
  rw [← hphase5]
  refine untouched_lastPhases (not_mem_runningWithDeps fun q' hq' => ?_)
  have hkept : (w.failedIn env id).processes.lookup id = some q' := by
    rw [hphase5, hafter.lookup] at hq'
    exact lookup_of_failWaiting env hentry hq'
  rw [← Option.some.inj (hentry.symm.trans hkept), hstate]
  decide

/-! ### Phase 6 -/

/-- What is terminal stays terminal while entries are only removed. -/
theorem isTerminalDep_of_kept {d : ProcessId} (h : AssocMap.Refines Kept w.processes w'.processes)
    (hd : isTerminalDep w.processes d = true) : isTerminalDep w'.processes d = true := by
  unfold isTerminalDep at hd ⊢
  cases hq : w'.processes.lookup d with
  | none => rfl
  | some q =>
    obtain ⟨q', hq', rfl⟩ := h d q hq
    rw [hq'] at hd
    exact hd

/-- Phase 6 comes to a process once, and leaves it alone before and after. -/
theorem untouched_checkedIn (env : Env) (hid : id ∈ w.runningWithDeps) :
    Untouched id w (w.checkedIn env id) ∧
      Untouched id ((w.checkedIn env id).ifRunning (failFast env id)) (w.phase6 env) := by
  have htouch : Untouched id w (w.touch .shared w.processes.keys) := .of_sends_eq rfl rfl
  obtain ⟨hbefore, hafter⟩ := untouched_around (f := fun w i => w.ifRunning (failFast env i))
    (fun _ w hk => (untouched_failFast hk w).ifRunning) (AssocMap.nodup_keysWhere _ _) hid
    (w.touch .shared w.processes.keys)
  exact ⟨htouch.trans hbefore, hafter⟩

/-- A process that Phase 6 finds doomed is failed if that is heard. -/
theorem failedBetween_of_doomed (hr : w.reaper = .running) (hid : id ∈ w.runningWithDeps) (hdoomed : Doomed id w) :
    FailedBetween id w (w.phase6 env) ↔
      ((w.checkedIn env id).ifRunning (failFast env id)).receiverAlive = true := by
  obtain ⟨hbefore, hafter⟩ := untouched_checkedIn env hid
  have hkept : AssocMap.Refines Kept w.processes (w.checkedIn env id).processes :=
    (mapStep_failFastAll env (w.runningWithDeps.takeWhile (· ≠ id)) (w.touch .shared w.processes.keys)).processes
  have hstill : Doomed id (w.checkedIn env id) := by
    obtain ⟨p, hp, hany⟩ := doomed_iff.mp hdoomed
    obtain ⟨d, hd, hterminal⟩ := List.any_eq_true.mp hany
    exact doomed_iff.mpr ⟨p, hbefore.lookup.trans hp,
      List.any_eq_true.mpr ⟨d, hd, isTerminalDep_of_kept hkept hterminal⟩⟩
  have hunheard : (w.checkedIn env id).EndsUnheard :=
    endsUnheard_foldl (fun _ _ => endsUnheard_failFast) _ (.inl hr)
  have hmem : id ∈ w.processes := mem_of_mem_keysWhere hid
  exact failedBetween_iff_heard (.of_untouched hbefore) hunheard hmem (fell_failFast env hstill)
    (.of_untouched hafter)

/-- A process that is not doomed when Phase 6 comes to it is left alone. -/
theorem leftAlone_failFast (env : Env) (h : ¬ Doomed id w) : LeftAlone id w (w.failFast env id) := by
  refine .of_untouched (.of_sends_eq ?_ ?_)
  · rw [(osStep_failFast env h).processes]
  · simp only [failFast, lock_processes]
    split
    · rfl
    · next p hp =>
      rw [if_neg fun hany => h (doomed_iff.mpr ⟨p, hp, hany⟩)]
      rfl

/-! ### The two phases -/

theorem failsWaiting_iff (env : Env) (id : ProcessId) (w : World) : w.FailsWaiting env id ↔
    (w.reaper = .running → id ∈ w.waitingIds → Doomed id (w.visitedIn env id) →
      ¬ (w.visitedIn env id).BindsMore env id ∧
        ((w.failedIn env id).ifRunning (failWaiting env id)).receiverAlive = true) := by
  refine imp_congr_right fun hr => imp_congr_right fun hid => imp_congr_right fun hdoomed => ?_
  have hspawn := not_mem_toSpawn_of_doomed env hid hdoomed
  by_cases hfail : id ∈ (w.verdicts env).1.toFail
  · have hnot : ¬ (w.visitedIn env id).BindsMore env id := by
      obtain ⟨p, hp, htime | ⟨_, hnot⟩⟩ := (mem_toFail_iff env hid).mp hfail
      · rintro ⟨q, hq, hintime, _⟩
        rw [← Option.some.inj (hp.symm.trans hq), htime] at hintime
        cases hintime
      · exact hnot
    rw [failedBetween_of_toFail hr hid hspawn hfail, and_iff_right hnot]
  · have hmore : (w.visitedIn env id).BindsMore env id := by
      by_contra hnot
      obtain ⟨p, hp, _⟩ := doomed_iff.mp hdoomed
      exact hfail ((mem_toFail_iff env hid).mpr ⟨p, hp, .inr ⟨hdoomed, hnot⟩⟩)
    have hmem : id ∈ w.processes := mem_of_mem_keysWhere hid
    refine iff_of_false (fun h => h.1 ((leftAlone_waiting hr hid hspawn hfail).mem.mpr hmem)) ?_
    exact fun h => h.1 hmore

theorem failsRunning_iff (env : Env) (id : ProcessId) (w : World) : w.FailsRunning env id ↔
    ((w.afterPhase5 env).reaper = .running → id ∈ (w.afterPhase5 env).runningWithDeps →
      Doomed id (w.afterPhase5 env) →
        (((w.afterPhase5 env).checkedIn env id).ifRunning (failFast env id)).receiverAlive = true) := by
  refine imp_congr_right fun hr => imp_congr_right fun hid => imp_congr_right fun hdoomed => ?_
  have hlast : w.lastPhases env = (w.afterPhase5 env).phase6 env := if_pos hr
  rw [hlast]
  exact failedBetween_of_doomed hr hid hdoomed

theorem failsDoomed_iff_prompt (env : Env) (w : World) : w.FailsDoomed env ↔ w.Prompt env := by
  unfold FailsDoomed Prompt
  simp only [failsWaiting_iff, failsRunning_iff, forall_and]

/-- A spawn that succeeds leaves the process tracked. -/
theorem leftAlone_spawnWaitingProcess (hp : w.processes.lookup id = some p) (h : w.spawnError env p.config = none) :
    LeftAlone id w (w.spawnWaitingProcess env id) := by
  have hlock := Silent.lock .exclusive id w
  have hspawn := hlock.trans
    (silent_spawnProcess env .spawnWaiting id p.config p.resolvedDeps (w.lock .exclusive id))
  have hok : (w.lock .exclusive id).spawnError env p.config = none := h
  simp only [spawnWaitingProcess, lock_processes, hp, hok]
  refine .of_silent ((Silent.put ?_ _ _).unlock _ _)
  split_ifs
  · exact hspawn.trans (.tick env _)
  · exact hspawn

/-- Phase 5 leaves a process alone that it has no reason to fail and that it can spawn. -/
theorem leftAlone_phase5 (hvisit : id ∈ w.waitingIds → ¬ (w.visitedIn env id).FailedByVisit env id)
    (hspawn : ∀ p, (w.spawnedIn env id).processes.lookup id = some p →
      (w.spawnedIn env id).spawnError env p.config = none) : LeftAlone id w (w.phase5 env) := by
  obtain ⟨htoSpawn, htoFail, _⟩ := disjointly_verdicts env w
  have hfail : id ∉ (w.verdicts env).1.toFail := fun h =>
    hvisit (htoFail.subset h) ((mem_toFail_iff env (htoFail.subset h)).mp h)
  have hspawned : LeftAlone id (w.verdicts env).2 (w.afterSpawns env) := by
    by_cases hid : id ∈ (w.verdicts env).1.toSpawn
    · obtain ⟨q, hq, _⟩ := lookup_examineAll_waiting env (htoSpawn hid) w.waitingIds
      rw [← verdicts_eq] at hq
      have hnodup : (w.verdicts env).1.toSpawn.Nodup :=
        (toSpawn_sublist env w).nodup (AssocMap.nodup_keysWhere _ _)
      obtain ⟨hbefore, hafter⟩ := untouched_around (f := fun w i => w.spawnWaitingProcess env i)
        (fun _ w hk => untouched_spawnWaitingProcess hk w) hnodup hid (w.verdicts env).2
      have hentry : (w.spawnedIn env id).processes.lookup id = some q := hbefore.lookup.trans hq
      exact ((LeftAlone.of_untouched hbefore).trans
        (leftAlone_spawnWaitingProcess hentry (hspawn q hentry))).trans (.of_untouched hafter)
    · exact .of_untouched (untouched_afterSpawns env hid)
  rw [phase5_eq]
  exact ((LeftAlone.of_silent (silent_verdicts env w)).trans hspawned).trans
    (.of_untouched (untouched_failAll hfail _))

/-- Phase 6 leaves a process alone that is not doomed. -/
theorem leftAlone_phase6 (h : id ∈ w.runningWithDeps → ¬ Doomed id (w.checkedIn env id)) :
    LeftAlone id w (w.phase6 env) := by
  by_cases hid : id ∈ w.runningWithDeps
  · obtain ⟨hbefore, hafter⟩ := untouched_checkedIn env hid
    have hstep : LeftAlone id (w.checkedIn env id) ((w.checkedIn env id).ifRunning (failFast env id)) :=
      ifRunning_invariant (I := LeftAlone id (w.checkedIn env id)) (.of_untouched (.refl id _))
        fun _ => leftAlone_failFast env (h hid)
    exact ((LeftAlone.of_untouched hbefore).trans hstep).trans (.of_untouched hafter)
  · exact .of_untouched (untouched_phase6 hid)

/-- The entry that Phase 6 checks is `Running`. -/
theorem checkedIn_running (env : Env) (hid : id ∈ w.runningWithDeps)
    (hp : (w.checkedIn env id).processes.lookup id = some p) : p.state = .running := by
  obtain ⟨hbefore, _⟩ := untouched_checkedIn env hid
  obtain ⟨q, hq, hrunning⟩ := AssocMap.mem_keysWhere.mp hid
  obtain rfl : q = p := Option.some.inj (hq.symm.trans (hbefore.lookup.symm.trans hp))
  simp only [Bool.and_eq_true, decide_eq_true_eq] at hrunning
  exact hrunning.1

theorem justified (env : Env) (id : ProcessId) (w : World) : w.Justified env id := by
  intro hmem hfailed
  by_contra hnot
  rw [not_or, not_or] at hnot
  obtain ⟨hwaiting, hspawning, hrunning⟩ := hnot
  have hphase5 : LeftAlone id w (w.afterPhase5 env) := by
    refine ifRunning_invariant (I := LeftAlone id w) (.of_untouched (.refl id w)) fun _ => leftAlone_phase5 ?_ ?_
    · rintro hid ⟨p, hp, hvisit⟩
      obtain ⟨q, hq, hstate⟩ := lookup_examineAll_waiting env hid (w.waitingIds.takeWhile (· ≠ id))
      obtain rfl : p = q := Option.some.inj (hp.symm.trans hq)
      refine hwaiting ⟨p, hp, hstate, hvisit.imp_right fun h => ?_⟩
      obtain ⟨p', hp', hany⟩ := doomed_iff.mp h.1
      exact Option.some.inj (hp.symm.trans hp') ▸ hany
    · intro p hp
      by_contra herror
      exact hspawning ⟨p, hp, herror⟩
  have hphase6 : LeftAlone id (w.afterPhase5 env) (w.lastPhases env) := by
    refine ifRunning_invariant (I := LeftAlone id (w.afterPhase5 env)) (.of_untouched (.refl id _)) fun _ => ?_
    refine leftAlone_phase6 fun hid hdoomed => ?_
    obtain ⟨p, hp, hany⟩ := doomed_iff.mp hdoomed
    exact hrunning ⟨p, hp, checkedIn_running env hid hp, hany⟩
  have hleft := hphase5.trans hphase6
  obtain hgone | hsent := hfailed
  · exact hgone (hleft.mem.mpr hmem)
  · exact hsent hleft.silent

/-- Phases 5 and 6 fail every doomed process that they come to if and only if Phase 5 binds none of
them further and all of them are heard of; and they fail no other. -/
theorem failsDoomed_iff (env : Env) (w : World) :
    (w.FailsDoomed env ↔ w.Prompt env) ∧ ∀ id, w.Justified env id :=
  ⟨failsDoomed_iff_prompt env w, fun id => justified env id w⟩

/-- A process that is bound to the first of its two dependencies, which was stopped since; the other
one has just come up when Phase 5 starts. -/
def halfBound : World :=
  (System.withReaper.run .calm 0
    [.start ⟨"db"⟩ { command := "db" },
      .start ⟨"web"⟩ { command := "web", dependsOn := [.label ⟨"db"⟩, .label ⟨"cache"⟩] }, .pass, .stop ⟨1⟩,
      .start ⟨"cache"⟩ { command := "cache" }]).world.beforePhase5 .calm 0

/-- It is bound to the second one too, and waits on. -/
theorem not_failsDoomed :
    halfBound.reaper = .running ∧ ⟨2⟩ ∈ halfBound.waitingIds ∧
      Doomed ⟨2⟩ (halfBound.visitedIn .calm ⟨2⟩) ∧
      ((halfBound.lastPhases .calm).processes.lookup ⟨2⟩).map (fun p => (p.state, p.resolvedDeps)) =
        some (.waiting, [⟨1⟩, ⟨3⟩]) ∧
      ¬ halfBound.FailsDoomed .calm := by
  have hrunning : halfBound.reaper = .running := by decide +kernel
  have hwaiting : ⟨2⟩ ∈ halfBound.waitingIds := by decide +kernel
  have hdoomed : Doomed ⟨2⟩ (halfBound.visitedIn .calm ⟨2⟩) := by decide +kernel
  have hafter : ((halfBound.lastPhases .calm).processes.lookup ⟨2⟩).map (fun p => (p.state, p.resolvedDeps)) =
      some (.waiting, [⟨1⟩, ⟨3⟩]) := by decide +kernel
  refine ⟨hrunning, hwaiting, hdoomed, hafter, fun h => ?_⟩
  obtain ⟨p, hp, _⟩ := Option.map_eq_some_iff.mp hafter
  exact ((h ⟨2⟩).1 hrunning hwaiting hdoomed).1 (mem_of_lookup hp)

end World

end ProcessManager
