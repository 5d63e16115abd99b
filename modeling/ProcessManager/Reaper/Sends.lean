import ProcessManager.Reaper.Exits
import ProcessManager.Reaper.Verdicts
import ProcessManager.Manager.Sends

/-! The events of one pass. Phase 2 sends one event for each exit that Phase 1 found; what
follows sends one event for each entry it removes, and no other. -/

namespace ProcessManager

variable {env : Env} {now : Instant} {w w' w'' : World} {id k : ProcessId} {p : Process}

/-! ### Sections that send nothing -/

/-- Nothing is sent, and the same processes are tracked. -/
structure Silent (w w' : World) : Prop where
  receiver : w'.receiverAlive = true → w.receiverAlive = true
  sends : w'.sends = w.sends
  mem : ∀ id, id ∈ w'.processes ↔ id ∈ w.processes

namespace Silent

theorem refl (w : World) : Silent w w := ⟨fun h => h, rfl, fun _ => Iff.rfl⟩

theorem trans (h : Silent w w') (h' : Silent w' w'') : Silent w w'' :=
  ⟨fun hr => h.receiver (h'.receiver hr), h'.sends.trans h.sends, fun i => (h'.mem i).trans (h.mem i)⟩

theorem of_osStep {S : Set ℕ} {P : KillCall → Prop} (h : OsStep S P w w') (hsends : w'.sends = w.sends) :
    Silent w w' :=
  ⟨h.receiver, hsends, fun _ => by rw [h.processes]⟩

theorem lock (m : Guards.Mode) (i : ProcessId) (w : World) : Silent w (w.lock m i) :=
  ⟨fun h => h, rfl, fun _ => Iff.rfl⟩

theorem touch (m : Guards.Mode) (ids : List ProcessId) (w : World) : Silent w (w.touch m ids) :=
  ⟨fun h => h, rfl, fun _ => Iff.rfl⟩

theorem unlock (h : Silent w w') (m : Guards.Mode) (i : ProcessId) : Silent w (w'.unlock m i) :=
  h.trans ⟨fun h => h, rfl, fun _ => Iff.rfl⟩

theorem put (h : Silent w w') (i : ProcessId) (p : Process) : Silent w (w'.put i p) :=
  h.trans ⟨fun h => h, rfl, fun _ => AList.mem_replace⟩

theorem ended (h : Silent w w') (r : ReaperStatus) : Silent w { w' with reaper := r } :=
  h.trans ⟨fun h => h, rfl, fun _ => Iff.rfl⟩

theorem tick (env : Env) (w : World) : Silent w (w.tick env) :=
  .of_osStep (w.osStep_tick (S := ∅) (P := fun _ => True) env) rfl

theorem foldl {α : Type*} {f : World → α → World} (h : ∀ w a, Silent w (f w a)) (l : List α) (w : World) :
    Silent w (l.foldl f w) :=
  Fold.foldl_rel .refl (fun _ _ _ => .trans) h l w

theorem ifRunning {f : World → World} (h : ∀ w, Silent w (f w)) (w : World) :
    Silent w (w.ifRunning f) :=
  World.ifRunning_invariant (.refl w) fun _ => h w

end Silent

namespace World

theorem mem_of_lookup (h : w.processes.lookup id = some p) : id ∈ w.processes :=
  AList.lookup_isSome.mp (by rw [h]; rfl)

theorem mem_of_mem_keysWhere {f : Process → Bool} (h : id ∈ w.processes.keysWhere f) : id ∈ w.processes := by
  obtain ⟨p, hp, _⟩ := AssocMap.mem_keysWhere.mp h
  exact mem_of_lookup hp

theorem silent_spawnProcess (env : Env) (site : SpawnSite) (i : ProcessId) (config : ProcessConfig)
    (deps : List ProcessId) (w : World) : Silent w (w.spawnProcess env site i config deps) where
  receiver := by
    cases herror : w.spawnError env config with
    | some e => exact (osStep_spawnProcess (S := ∅) (P := fun _ => True) herror).receiver
    | none => exact (Spawned.of_ok site i deps herror).receiver
  sends := spawnProcess_sends env site i config deps w
  mem _ := by rw [spawnProcess_processes]

theorem silent_allDepsRunning (env : Env) (deps : List ProcessId) (w : World) :
    Silent w (w.allDepsRunning env deps).2 := by
  refine allDepsRunning_invariant (I := Silent w) ?_ ?_ ?_ deps (.refl w)
  · exact fun i w' h => h.trans (.lock _ i w')
  · exact fun i w' h => h.unlock _ i
  · intro i q w' h _
    have hpoll : OsStep q.handles (fun _ => True) w' (q.pollState env w').2 := Process.osStep_pollState
    exact (h.trans (.of_osStep hpoll (Process.pollState_sends env q w'))).put i _

/-! ### Phases 1 and 1b -/

theorem silent_phase1 (now : Instant) (w : World) : Silent w (w.phase1 env now).2 := by
  refine Fold.foldl_invariant (I := fun x : Exits × World => Silent w x.2) (.refl w) ?_
  rintro ⟨x, w'⟩ k - hw'
  refine hw'.trans ?_
  simp only [phase1Visit, lock_processes]
  split
  · exact (Silent.lock _ k w').unlock _ _
  · next p hp =>
    have htry : Silent w' ((p.stableUptime now).tryWaitExit env (w'.lock .exclusive k)).2 :=
      (Silent.lock _ k w').trans (.of_osStep (Process.osStep_tryWaitExit (P := fun _ => True))
        (Process.tryWaitExit_sends ..))
    split_ifs
    · exact (Silent.lock _ k w').unlock _ _
    all_goals split <;> exact (htry.put _ _).unlock _ _

theorem silent_phase1b (origins : List CascadeOrigin) (w : World) :
    Silent w (w.phase1b env origins) := by
  have htouch : Silent w (origins.foldl (fun w _ => w.touch .shared w.processes.keys) w) :=
    Silent.foldl (f := fun w _ => w.touch .shared w.processes.keys) (fun w _ => .touch _ _ w) origins w
  refine htouch.trans (.foldl (fun w k => ?_) _ _)
  obtain ⟨_, heq⟩ | ⟨p, _, _, heq⟩ := cascadeKill_cases env k w <;> rw [heq]
  · exact (Silent.lock _ k w).unlock _ _
  · have hkill : ∀ q signal, Silent w ((w.lock .exclusive k).kill env .cascade q signal) :=
      fun q signal => ⟨(Silent.tick env w).receiver, rfl, fun _ => Iff.rfl⟩
    exact ((hkill _ _).put _ _).unlock _ _

theorem silent_cascade (env : Env) (pollInterval : ℕ) (w : World) :
    Silent w (w.cascade env pollInterval) := by
  have hawake : Silent w (w.awake env pollInterval) :=
    .of_osStep (osStep_awake (S := ∅) (P := fun _ => True) env pollInterval w) rfl
  exact (hawake.trans (silent_phase1 _ _)).trans (silent_phase1b _ _)

/-! ### Phase 2 -/

@[simp] theorem sendOrReturn_processes (env : Env) (event : ProcessExitEvent) (w : World) :
    (w.sendOrReturn env event).processes = w.processes := by
  simp only [sendOrReturn]
  split_ifs <;> exact send_processes env event w

theorem sendAll_processes (exited : List ExitedProcess) (w : World) :
    (exited.foldl (fun w e => w.ifRunning (sendOrReturn env e.event)) w).processes = w.processes := by
  refine Fold.foldl_invariant (I := fun w' : World => w'.processes = w.processes) rfl fun w' e _ hw' => ?_
  exact ifRunning_invariant (I := fun w' : World => w'.processes = w.processes) hw' fun _ =>
    (sendOrReturn_processes env e.event w').trans hw'

/-- A send that nobody receives ends the thread, and does nothing else. -/
theorem sendOrReturn_outcome (env : Env) (event : ProcessExitEvent) (w : World) :
    (w.sendOk env = true ∧ w.sendOrReturn env event = w.send env event) ∨
      (w.sendOk env = false ∧ w.sendOrReturn env event = { w.send env event with reaper := .returned }) := by
  unfold sendOrReturn
  split_ifs with hok
  · exact .inl ⟨hok, rfl⟩
  · exact .inr ⟨Bool.eq_false_iff.mpr hok, rfl⟩

theorem receiverAlive_sendOrReturn (env : Env) (event : ProcessExitEvent) (w : World) :
    (w.sendOrReturn env event).receiverAlive = w.sendOk env := by
  obtain ⟨_, heq⟩ | ⟨_, heq⟩ := sendOrReturn_outcome env event w <;> rw [heq]
  · exact receiverAlive_send env event w
  · exact receiverAlive_send env event w

theorem sends_sendOrReturn (env : Env) (event : ProcessExitEvent) (w : World) :
    (w.sendOk env = true ∧ (w.sendOrReturn env event).sends = ⟨event, w.processes⟩ :: w.sends) ∨
      (w.sendOk env = false ∧ (w.sendOrReturn env event).sends = w.sends) := by
  have hsends : (w.sendOrReturn env event).sends = (w.send env event).sends := by
    obtain ⟨_, heq⟩ | ⟨_, heq⟩ := sendOrReturn_outcome env event w <;> rw [heq]
  rw [hsends]
  exact send_outcome env event w

theorem receiver_sendOrReturn {event : ProcessExitEvent}
    (h : (w.sendOrReturn env event).receiverAlive = true) :
    w.sendOrReturn env event = w.send env event ∧ (w.send env event).receiverAlive = true := by
  rw [receiverAlive_sendOrReturn] at h
  obtain ⟨_, heq⟩ | ⟨hclosed, _⟩ := sendOrReturn_outcome env event w
  · exact ⟨heq, (receiverAlive_send env event w).trans h⟩
  · rw [h] at hclosed
    cases hclosed

/-- The exits were reported one after another with the map of `w₀`, if somebody listens. -/
structure SentAlong (w₀ : World) (exited : List ExitedProcess) (w : World) : Prop where
  processes : w.processes = w₀.processes
  sends : w.receiverAlive = true → w.reaper = .running ∧
    w.sends = (exited.map fun e => (⟨e.event, w₀.processes⟩ : SendCall)).reverse ++ w₀.sends

theorem SentAlong.send {w₀ : World} {exited : List ExitedProcess} (h : SentAlong w₀ exited w) (e : ExitedProcess) :
    SentAlong w₀ (exited ++ [e]) (w.ifRunning (sendOrReturn env e.event)) := by
  unfold ifRunning
  split_ifs with hr
  · refine ⟨(sendOrReturn_processes env e.event w).trans h.processes, fun halive => ?_⟩
    obtain ⟨heq, halive'⟩ := receiver_sendOrReturn halive
    have hreaper := (osStep_send (S := ∅) (P := fun _ => True) env e.event w).reaper
    refine ⟨heq ▸ hreaper.trans hr, ?_⟩
    rw [heq, send_sends env halive', (h.sends (receiver_send env halive')).2, h.processes]
    simp
  · exact ⟨h.processes, fun halive => absurd (h.sends halive).1 hr⟩

/-- Phase 2 removes what was marked and then reports the exits in order. -/
theorem phase2_sends {x : Exits} (hrunning : w.reaper = .running)
    (halive : (w.phase2 env x).receiverAlive = true) :
    (w.phase2 env x).sends =
      (x.exited.map fun e => ⟨e.event, (w.phase2 env x).processes⟩).reverse ++ w.sends := by
  set w₀ := x.toRemove.foldl (fun w id => w.removeEntry id) w
  obtain ⟨hreaper, hsends⟩ : w₀.reaper = .running ∧ w₀.sends = w.sends :=
    Fold.foldl_invariant (I := fun w' : World => w'.reaper = .running ∧ w'.sends = w.sends)
      ⟨hrunning, rfl⟩ fun _ _ _ h => h
  have hreported : SentAlong w₀ x.exited (w.phase2 env x) :=
    Fold.foldl_visited ⟨rfl, fun _ => ⟨hreaper, rfl⟩⟩ fun _ e _ _ h => h.send e
  rw [(hreported.sends halive).2, hreported.processes, hsends]

theorem mem_phase2 (x : Exits) (w : World) :
    id ∈ (w.phase2 env x).processes ↔ id ∈ w.processes ∧ id ∉ x.toRemove := by
  have hremoved : ∀ (ids : List ProcessId) (w : World),
      id ∈ (ids.foldl (fun w id => w.removeEntry id) w).processes ↔ id ∈ w.processes ∧ id ∉ ids := by
    intro ids
    induction ids with
    | nil => simp
    | cons i ids ih =>
      intro w
      have herase : id ∈ (w.removeEntry i).processes ↔ id ≠ i ∧ id ∈ w.processes := AList.mem_erase
      rw [List.foldl_cons, ih, herase, List.mem_cons, not_or]
      tauto
  rw [← hremoved]
  rw [phase2, sendAll_processes]

end World

/-! ### Sections that remove entries -/

/-- Sent for an entry that failed without an exit, after its removal. -/
structure SendCall.Failure (id : ProcessId) (s : SendCall) : Prop where
  status : s.event.exitStatus = none
  state : s.event.state = .failed
  removed : id ∉ s.processes

/-- The process `id` stays as tracked as it was and gets no event, or it is removed and
then gets one event for its failure; all this as long as somebody listens. -/
structure Ends (id : ProcessId) (w w' : World) : Prop where
  receiver : w'.receiverAlive = true → w.receiverAlive = true
  sends : w.sends <:+ w'.sends
  outcome : w'.receiverAlive = true →
    ((id ∈ w'.processes ↔ id ∈ w.processes) ∧ w.sentFor id w' = []) ∨
    (id ∈ w.processes ∧ id ∉ w'.processes ∧ ∃ s, w.sentFor id w' = [s] ∧ s.Failure id)

theorem Silent.ends (h : Silent w w') : Ends id w w' where
  receiver := h.receiver
  sends := h.sends ▸ List.suffix_rfl
  outcome _ := .inl ⟨h.mem id, World.sentFor_of_eq h.sends⟩

namespace Ends

theorem refl (w : World) : Ends id w w := (Silent.refl w).ends

theorem trans (h : Ends id w w') (h' : Ends id w' w'') : Ends id w w'' where
  receiver hr := h.receiver (h'.receiver hr)
  sends := h.sends.trans h'.sends
  outcome hr := by
    have hsent := World.sentFor_trans id h.sends h'.sends
    obtain ⟨hmem, hnone⟩ | ⟨hin, hout, s, hs, hfail⟩ := h.outcome (h'.receiver hr) <;>
      obtain ⟨hmem', hnone'⟩ | ⟨hin', hout', s', hs', hfail'⟩ := h'.outcome hr
    · exact .inl ⟨hmem'.trans hmem, by rw [hsent, hnone, hnone', List.append_nil]⟩
    · exact .inr ⟨hmem.mp hin', hout', s', by rw [hsent, hnone, hs', List.nil_append], hfail'⟩
    · refine .inr ⟨hin, fun h => hout (hmem'.mp h), s, ?_, hfail⟩
      rw [hsent, hs, hnone', List.append_nil]
    · exact absurd hin' hout

theorem foldl {α : Type*} {f : World → α → World} (h : ∀ w a, Ends id w (f w a)) (l : List α) (w : World) :
    Ends id w (l.foldl f w) :=
  Fold.foldl_rel .refl (fun _ _ _ => .trans) h l w

theorem ifRunning {f : World → World} (h : ∀ w, Ends id w (f w)) (w : World) :
    Ends id w (w.ifRunning f) :=
  World.ifRunning_invariant (.refl w) fun _ => h w

/-- An entry is removed and its failure sent. -/
theorem removeEntry {event : ProcessExitEvent} (hk : k ∈ w.processes) (hid : event.id = k)
    (hstatus : event.exitStatus = none) (hstate : event.state = .failed) :
    Ends id w ((w.removeEntry k).send env event) where
  receiver h := World.receiver_send (w := w.removeEntry k) env h
  sends := World.sends_send env event (w.removeEntry k)
  outcome hr := by
    have hsends : ((w.removeEntry k).send env event).sends = ⟨event, w.processes.erase k⟩ :: w.sends :=
      World.send_sends env hr
    have hmap : ((w.removeEntry k).send env event).processes = w.processes.erase k :=
      World.send_processes env event _
    rw [World.sentFor_cons hsends, hmap, AList.mem_erase, hid]
    split_ifs with heq
    · subst heq
      refine .inr ⟨hk, fun h => h.1 rfl, _, rfl, hstatus, hstate, fun h => ?_⟩
      exact (AList.mem_erase.mp h).1 rfl
    · exact .inl ⟨⟨fun h => h.2, fun h => ⟨Ne.symm heq, h⟩⟩, rfl⟩

theorem removeOrReturn {event : ProcessExitEvent} (hk : k ∈ w.processes) (hid : event.id = k)
    (hstatus : event.exitStatus = none) (hstate : event.state = .failed) :
    Ends id w ((w.removeEntry k).sendOrReturn env event) := by
  have hsend : Ends id w ((w.removeEntry k).send env event) := removeEntry hk hid hstatus hstate
  simp only [World.sendOrReturn]
  split_ifs
  · exact hsend
  · exact hsend.trans ((Silent.refl _).ended .returned).ends

end Ends

namespace World

/-! ### Phases 3 and 4 -/

theorem silent_scheduleEntry (e : ExitedProcess) (w : World) : Silent w (scheduleEntry env now e w) := by
  have hlock := Silent.lock .exclusive e.id w
  unfold scheduleEntry
  split
  · exact .refl w
  · simp only
    split
    · exact hlock.unlock _ _
    · next p hp =>
      have hrelease : Silent w (p.release env (w.lock .exclusive e.id)) :=
        hlock.trans (.of_osStep (Process.osStep_release (P := fun _ => True))
          (Process.release_sends env p _))
      split
      · exact (hrelease.put _ _).unlock _ _
      · split
        · exact (hrelease.put _ _).unlock _ _
        · exact ((hrelease.put _ _).unlock _ _).ended .panicked

theorem silent_phase3 (exited : List ExitedProcess) (w : World) : Silent w (w.phase3 env now exited) :=
  .foldl (fun w e => .ifRunning (silent_scheduleEntry e) w) exited w

theorem ends_failSpawn (hk : k ∈ w.processes) (p : Process) : Ends id w (w.failSpawn env k p) := by
  have hput : Silent w ((w.put k { p with state := .failed }).unlock .exclusive k) :=
    ((Silent.refl w).put _ _).unlock _ _
  exact hput.ends.trans (.removeEntry (AList.mem_replace.mpr hk) rfl rfl rfl)

theorem ends_respawn (hk : k ∈ w.processes) (p : Process) : Ends id w (w.respawn env k p) := by
  have hspawn := silent_spawnProcess env .performRestart k p.config p.resolvedDeps w
  simp only [respawn]
  split
  · exact hspawn.ends.trans (ends_failSpawn ((hspawn.mem k).mpr hk) p)
  · refine ((Silent.put ?_ _ _).unlock _ _).ends
    split_ifs
    · exact hspawn.trans (.tick env _)
    · exact hspawn

theorem silent_restartToWaiting (p : Process) (resolved : List ProcessId) (w : World) :
    Silent w (w.restartToWaiting env k p resolved) :=
  ((Silent.tick env w).put _ _).unlock _ _

theorem ends_performRestart (k : ProcessId) (w : World) : Ends id w (w.performRestart env k) := by
  have hlock := Silent.lock .exclusive k w
  obtain ⟨_, heq⟩ | ⟨p, hp, ⟨_, heq⟩ | ⟨w₁, resolved, rfl, _, hcases⟩⟩ := performRestart_cases env k w
  · rw [heq]
    exact (hlock.unlock _ _).ends
  · rw [heq]
    exact hlock.ends.trans (ends_respawn (w := w.lock .exclusive k) (mem_of_lookup hp) p)
  · have hvisit := hlock.trans (.touch .shared (resolveVisits w.processes p.config.dependsOn) _)
    have hpolled := hvisit.trans (silent_allDepsRunning env resolved _)
    obtain ⟨_, _, heq⟩ | heq | heq := hcases <;> rw [heq]
    · exact hpolled.ends.trans (ends_respawn ((hpolled.mem k).mpr (mem_of_lookup hp)) _)
    · exact (hpolled.trans (silent_restartToWaiting p resolved _)).ends
    · exact (hvisit.trans (silent_restartToWaiting p resolved _)).ends

theorem ends_phase4 (now : Instant) (w : World) : Ends id w (w.phase4 env now) :=
  (Silent.touch .shared w.processes.keys w).ends.trans (.foldl (fun w k => ends_performRestart k w) _ _)

/-! ### Phases 5 and 6 -/

theorem examine_sends (k : ProcessId) (v : Verdicts) (w : World) :
    (examine env k (v, w)).2.sends = w.sends := by
  have hread : ∀ (p : Process) (w : World), (w.readElapsed env p).sends = w.sends := by
    intro p w
    unfold readElapsed
    split_ifs <;> rfl
  simp only [examine]
  split
  · rfl
  · next p hp =>
    split_ifs
    · exact hread p _
    · simp only [resolveMore]
      split_ifs
      · simp only [(failIfTerminal_spec ..).2, touch_sends, unlock_sends, hread, lock_sends]
      · simp only [spawnIfReady_snd, put_sends, touch_sends, unlock_sends, hread, lock_sends]
    · simp only [checkResolved]
      split_ifs
      · exact hread p _
      · simp only [(failIfTerminal_spec ..).2, touch_sends, unlock_sends, hread, lock_sends]

theorem silent_examine (k : ProcessId) (v : Verdicts) (w : World) :
    Silent w (examine env k (v, w)).2 where
  receiver := (mapStep_examine env (P := fun _ => True) k v w).receiver
  sends := examine_sends k v w
  mem _ := by
    obtain heq | ⟨p, hp, _, heq⟩ := (examine_outcome env k v w).1 <;> rw [heq]
    exact AList.mem_replace

theorem silent_verdicts (env : Env) (w : World) : Silent w (w.verdicts env).2 :=
  Fold.foldl_invariant (I := fun x : Verdicts × World => Silent w x.2) (.touch _ _ w)
    fun x k _ h => h.trans (silent_examine k x.1 x.2)

theorem ends_spawnWaitingProcess (k : ProcessId) (w : World) :
    Ends id w (w.spawnWaitingProcess env k) := by
  have hlock := Silent.lock .exclusive k w
  simp only [spawnWaitingProcess, lock_processes]
  split
  · exact (hlock.unlock _ _).ends
  · next p hp =>
    have hspawn := hlock.trans
      (silent_spawnProcess env .spawnWaiting k p.config p.resolvedDeps (w.lock .exclusive k))
    split
    · exact hspawn.ends.trans (ends_failSpawn ((hspawn.mem k).mpr (mem_of_lookup hp)) p)
    · refine ((Silent.put ?_ _ _).unlock _ _).ends
      split_ifs
      · exact hspawn.trans (.tick env _)
      · exact hspawn

theorem ends_failWaiting (k : ProcessId) (w : World) : Ends id w (w.failWaiting env k) := by
  have hlock := Silent.lock .exclusive k w
  simp only [failWaiting, lock_processes]
  split
  · exact (hlock.unlock _ _).ends
  · next p hp =>
    have hput := (hlock.put k { p with state := .failed }).unlock .exclusive k
    exact hput.ends.trans (.removeOrReturn ((hput.mem k).mpr (mem_of_lookup hp)) rfl rfl rfl)

theorem ends_phase5 (w : World) : Ends id w (w.phase5 env) :=
  ((silent_verdicts env w).ends.trans (.foldl (fun w k => ends_spawnWaitingProcess k w) _ _)).trans
    (.foldl (fun w k => .ifRunning (ends_failWaiting k) w) _ _)

theorem ends_failRunning (hp : w.processes.lookup k = some p) (q : Process) :
    Ends id w (w.failRunning env k q) := by
  have hput := (Silent.lock .exclusive k w).put k { p with state := .failed }
  simp only [failRunning, lock_processes, hp]
  have hsignal : ∀ w', Silent w w' → Ends id w
      ((w'.unlock .exclusive k).removeEntry k |>.sendOrReturn env (q.endEvent k .failed)) := by
    intro w' h
    have hunlock := h.unlock .exclusive k
    exact hunlock.ends.trans (.removeOrReturn ((hunlock.mem k).mpr (mem_of_lookup hp)) rfl rfl rfl)
  split_ifs
  · exact hsignal _ (hput.trans (.of_osStep Process.osStep_sendSignal (Process.sendSignal_sends ..)))
  · exact hsignal _ hput

theorem ends_failFast (k : ProcessId) (w : World) : Ends id w (w.failFast env k) := by
  simp only [failFast, lock_processes]
  split
  · exact ((Silent.lock .shared k w).unlock _ _).ends
  · next p hp =>
    set w₁ := ((w.lock .shared k).touch .shared
      (p.resolvedDeps.visitedUntil (isTerminalDep w.processes))).unlock .shared k with hw₁
    have hvisit : Ends id w w₁ := (((Silent.lock .shared k w).trans (.touch _ _ _)).unlock _ _).ends
    have hp' : w₁.processes.lookup k = some p := hp
    split_ifs
    · exact hvisit.trans (ends_failRunning hp' p)
    · exact hvisit

theorem ends_phase6 (w : World) : Ends id w (w.phase6 env) :=
  (Silent.touch .shared w.processes.keys w).ends.trans
    (.foldl (fun w k => .ifRunning (ends_failFast k) w) _ _)

/-- What follows Phase 2 in a pass. -/
theorem ends_passDetect (env : Env) (pollInterval : ℕ) (id : ProcessId) (w : World) :
    Ends id (w.passDetect env pollInterval).2.2 (w.reaperPass env pollInterval) :=
  (((Silent.ifRunning (silent_phase3 _) _).ends.trans (.ifRunning (ends_phase4 _) _)).trans
    (.ifRunning ends_phase5 _)).trans (.ifRunning ends_phase6 _)

/-! ### What a pass sends -/

/-- The exits of `id` that a pass finds. -/
def exitsOf (env : Env) (pollInterval : ℕ) (id : ProcessId) (w : World) : List ExitedProcess :=
  (w.detect env pollInterval).1.exited.filter fun e => e.id = id

/-- The events of a pass that starts in `w`. -/
structure Accounted (env : Env) (pollInterval : ℕ) (w : World) : Prop where
  once : ∀ id, (w.exitsOf env pollInterval id).length ≤ 1
  /-- An entry that is not removed gets the event of its exit, or none if it did not exit. -/
  kept : ∀ id, (id ∈ w.processes → id ∈ (w.reaperPass env pollInterval).processes) →
    (w.sentFor id (w.reaperPass env pollInterval)).map SendCall.event =
      (w.exitsOf env pollInterval id).map ExitedProcess.event
  /-- The last event of an entry that is removed is sent after the removal. It is the event
  of an exit without restart, or it reports a failure; the only event before it is that of
  an exit with restart, sent while the entry was tracked. -/
  removed : ∀ id, id ∈ w.processes → id ∉ (w.reaperPass env pollInterval).processes →
    (∃ e s, w.exitsOf env pollInterval id = [e] ∧ e.restartConfig = none ∧
      w.sentFor id (w.reaperPass env pollInterval) = [s] ∧ s.event = e.event ∧ id ∉ s.processes) ∨
    ∃ earlier s, w.sentFor id (w.reaperPass env pollInterval) = earlier ++ [s] ∧ s.Failure id ∧
      earlier.map SendCall.event = (w.exitsOf env pollInterval id).map ExitedProcess.event ∧
      (∀ e ∈ w.exitsOf env pollInterval id, e.restartConfig ≠ none) ∧
      ∀ t ∈ earlier, id ∈ t.processes

theorem length_exitsOf_le (env : Env) (pollInterval : ℕ)
    (hkey : ∀ i q, w.processes.lookup i = some q → q.id = i) (id : ProcessId) :
    (w.exitsOf env pollInterval id).length ≤ 1 := by
  have hnodup := (phase1State_detect env pollInterval hkey).exited_nodup
  have hsub : ((w.exitsOf env pollInterval id).map ExitedProcess.id).Sublist
      ((w.detect env pollInterval).1.exited.map ExitedProcess.id) := List.filter_sublist.map _
  have hall : ∀ i ∈ (w.exitsOf env pollInterval id).map ExitedProcess.id, i = id := by
    intro i hi
    obtain ⟨e, he, rfl⟩ := List.mem_map.mp hi
    simpa [exitsOf] using (List.mem_filter.mp he).2
  rw [← List.length_map ExitedProcess.id, List.eq_replicate_of_mem hall, List.length_replicate]
  by_contra hlt
  have hdup := (hsub.nodup hnodup)
  rw [List.eq_replicate_of_mem hall, List.nodup_replicate] at hdup
  omega

theorem toRemove_detect (env : Env) (pollInterval : ℕ) (w : World) :
    (w.detect env pollInterval).1.toRemove =
      ((w.detect env pollInterval).1.exited.filter fun e => e.restartConfig.isNone).map
        ExitedProcess.id := by
  refine Fold.foldl_invariant (I := fun x : Exits × World =>
    x.1.toRemove = (x.1.exited.filter fun e => e.restartConfig.isNone).map ExitedProcess.id) rfl ?_
  rintro ⟨x, w'⟩ k - (h : x.toRemove = _)
  obtain ⟨_, heq⟩ | ⟨p, w₁, _, _, ⟨c, status, _, _, _, heq⟩ | ⟨_, _, heq⟩⟩ :=
    phase1Visit_cases env _ k x w' <;> rw [heq]
  · exact h
  · simp only [Exits.add_exited, Exits.toRemove_add, h, List.filter_append, List.map_append]
    congr 1
    cases hrestart : ((p.stableUptime (w.awake env pollInterval).clock).record status).restartConfig <;>
      simp [hrestart]
  · exact h

theorem mem_toRemove_iff (env : Env) (pollInterval : ℕ) (w : World) (id : ProcessId) :
    id ∈ (w.detect env pollInterval).1.toRemove ↔
      ∃ e ∈ w.exitsOf env pollInterval id, e.restartConfig = none := by
  rw [toRemove_detect]
  simp only [exitsOf, List.mem_map, List.mem_filter, Option.isNone_iff_eq_none, decide_eq_true_eq]
  constructor
  · rintro ⟨e, ⟨he, hnone⟩, rfl⟩
    exact ⟨e, ⟨he, rfl⟩, hnone⟩
  · rintro ⟨e, ⟨he, rfl⟩, hnone⟩
    exact ⟨e, ⟨he, hnone⟩, rfl⟩

/-- Up to Phase 2 a pass sends the exits it found. -/
theorem passDetect_sends (env : Env) (pollInterval : ℕ) (hrunning : w.reaper = .running)
    (halive : (w.passDetect env pollInterval).2.2.receiverAlive = true) :
    (w.passDetect env pollInterval).2.2.sends = ((w.detect env pollInterval).1.exited.map fun e =>
      ⟨e.event, (w.passDetect env pollInterval).2.2.processes⟩).reverse ++ w.sends := by
  rw [passDetect_eq] at halive ⊢
  rw [phase2_sends ((reaper_cascade env pollInterval w).trans hrunning) halive,
    (silent_cascade env pollInterval w).sends]

theorem sentFor_passDetect (env : Env) (pollInterval : ℕ) (hrunning : w.reaper = .running)
    (halive : (w.passDetect env pollInterval).2.2.receiverAlive = true) (id : ProcessId) :
    w.sentFor id (w.passDetect env pollInterval).2.2 = (w.exitsOf env pollInterval id).map fun e =>
      ⟨e.event, (w.passDetect env pollInterval).2.2.processes⟩ := by
  rw [sentFor, passDetect_sends env pollInterval hrunning halive, gained_append, List.reverse_reverse,
    List.filter_map]
  rfl

theorem mem_passDetect (env : Env) (pollInterval : ℕ) (w : World) (id : ProcessId) :
    id ∈ (w.passDetect env pollInterval).2.2.processes ↔
      id ∈ w.processes ∧ ∀ e ∈ w.exitsOf env pollInterval id, e.restartConfig ≠ none := by
  rw [passDetect_eq, mem_phase2, (silent_cascade env pollInterval w).mem, mem_toRemove_iff]
  simp only [not_exists, not_and, ne_eq]

theorem accounted (env : Env) (pollInterval : ℕ)
    (hkey : ∀ i q, w.processes.lookup i = some q → q.id = i) (hrunning : w.reaper = .running)
    (halive : (w.reaperPass env pollInterval).receiverAlive = true) :
    w.Accounted env pollInterval := by
  have honce := length_exitsOf_le env pollInterval hkey
  set d := (w.passDetect env pollInterval).2.2 with hd
  have hlater : ∀ id, Ends id d (w.reaperPass env pollInterval) := fun id =>
    ends_passDetect env pollInterval id w
  have hdetect := passDetect_sends env pollInterval hrunning ((hlater ⟨0⟩).receiver halive)
  have hexits := sentFor_passDetect env pollInterval hrunning ((hlater ⟨0⟩).receiver halive)
  have hsent : ∀ id, w.sentFor id (w.reaperPass env pollInterval) =
      w.sentFor id d ++ d.sentFor id (w.reaperPass env pollInterval) := fun id =>
    sentFor_trans id ⟨_, hdetect.symm⟩ (hlater id).sends
  refine ⟨honce, fun id hkept => ?_, fun id hin hout => ?_⟩
  · rw [hsent, hexits]
    obtain ⟨_, hnone⟩ | ⟨hmem, hout, _⟩ := (hlater id).outcome halive
    · simp [hnone]
    · exact absurd (hkept ((mem_passDetect env pollInterval w id).mp hmem).1) hout
  · have hmem := mem_passDetect env pollInterval w id
    rw [hsent, hexits]
    obtain ⟨hiff, hnone⟩ | ⟨hmem', _, s, hs, hfail⟩ := (hlater id).outcome halive
    · -- Phase 2 removed it
      have hgone : id ∉ d.processes := fun h => hout (hiff.mpr h)
      obtain ⟨e, he, hrestart⟩ : ∃ e ∈ w.exitsOf env pollInterval id, e.restartConfig = none := by
        by_contra h
        exact hgone (hmem.mpr ⟨hin, fun e he hrestart => h ⟨e, he, hrestart⟩⟩)
      have hone : w.exitsOf env pollInterval id = [e] := by
        obtain ⟨e', he'⟩ := List.length_eq_one_iff.mp
          (le_antisymm (honce id) (List.length_pos_of_mem he))
        rw [he', List.mem_singleton] at he
        rw [he', he]
      refine .inl ⟨e, ⟨e.event, d.processes⟩, hone, hrestart, ?_, rfl, hgone⟩
      rw [hone, hnone]
      rfl
    · refine .inr ⟨_, s, by rw [hs], hfail, ?_, (hmem.mp hmem').2, ?_⟩
      · simp
      · intro t ht
        obtain ⟨e, _, rfl⟩ := List.mem_map.mp ht
        exact hmem'

end World

end ProcessManager
