import ProcessManager.Manager.Start

/-! `ProcessManager::stop`: signal, grace period, escalation, cascade. Loops that poll
until a deadline carry a fuel that the deadline exhausts first. -/

namespace ProcessManager

namespace World

variable (env : Env)

/-! ### The loops of one stop -/

/-- Iterations of `step` ms that can start within `timeout` ms, and one more. -/
def loopFuel (timeout step : ℕ) : ℕ := timeout / step + 2

/-- Poll `is_running()` every 50 ms until the deadline; `true` if the exit was seen. -/
def graceLoop (deadline : Instant) : ℕ → Process → World → Bool × Process × World
  | 0, p, w => (false, p, w)
  | fuel + 1, p, w =>
    let w := w.tick env
    if w.clock < deadline then
      let r := p.pollState env w
      if p.isRunning env w then graceLoop deadline fuel r.1 (r.2.sleep env (millis 50))
      else (true, r.1, r.2)
    else (false, p, w)

/-- Poll `try_wait()` every 10 ms until the deadline. -/
def reapLoop (deadline : Instant) : ℕ → Process → World → World
  | 0, _, w => w
  | fuel + 1, p, w =>
    let w := w.tick env
    if w.clock < deadline then
      let r := p.tryWaitExit env w
      if r.1.isSome then r.2 else reapLoop deadline fuel p (r.2.sleep env (millis 10))
    else w

/-- Wait up to 500 ms for `SIGKILL` to take effect, then join the readers. -/
def awaitKill (p : Process) (w : World) : World :=
  let w := w.tick env
  let w := w.reapLoop env (w.clock + millis 500) (loopFuel 500 10) p
  p.joinReaders env (p.tryWaitExit env w).2

/-! ### One stop -/

/-- How a stop ends before its cascade, and whether it goes on to the dependents. -/
structure StopOutcome where
  result : Except ManagerError Unit
  cascade : Bool

/-- Escalation to `SIGKILL` after the grace period. -/
def stopEscalate (p : Process) (w : World) : StopOutcome × World :=
  let r := p.forceKill env .stopEscalation w
  match r.1 with
  | some .esrch => (⟨.ok (), false⟩, p.joinReaders env r.2)
  | some e => (⟨.error (.signalFailed p.pid e), false⟩, r.2)
  | none => (⟨.ok (), p.config.cascadeStop⟩, r.2.awaitKill env p)

/-- The grace period, entered after a successful first signal. -/
def stopGrace (p : Process) (w : World) : StopOutcome × World :=
  let w := w.tick env
  let timeout := p.config.terminateTimeoutMs
  let g := w.graceLoop env (w.clock + millis timeout) (loopFuel timeout 50) p
  if g.1 then (⟨.ok (), false⟩, g.2.1.joinReaders env g.2.2)
  else g.2.2.stopEscalate env g.2.1

/-- `stop` from the removal of the entry on. -/
def stopTaken (p : Process) (w : World) : StopOutcome × World :=
  let p := p.markStopping
  let r := p.sendSignal env .stop p.config.killSignal w
  match r.1 with
  | some .esrch => (⟨.ok (), false⟩, p.joinReaders env r.2)
  | some e => (⟨.error (.signalFailed p.pid e), false⟩, r.2)
  | none => r.2.stopGrace env p

/-- `try_send_exit_event` of the reaper handle, when there is one. -/
def sendFromHandle (event : ProcessExitEvent) (w : World) : World :=
  if w.reaper = .absent then w else w.send env event

/-- `stop` up to its cascade. -/
def stopOne (id : ProcessId) (w : World) : StopOutcome × World :=
  match w.processes.lookup id with
  | none => (⟨.error (.notFound id), false⟩, w)
  | some p =>
    if p.state = .restarting then (⟨.ok (), false⟩, w.remove id)
    else if p.state = .waiting then
      (⟨.ok (), p.config.cascadeStop⟩,
        (w.remove id).sendFromHandle env (p.endEvent id .stopped))
    else (w.remove id).stopTaken env p

/-! ### The cascade -/

/-- `ProcessManager::dependents` -/
def dependents (id : ProcessId) (w : World) : List ProcessId :=
  w.processes.keysWhere fun p => id ∈ p.resolvedDeps

/-- Nested calls that find an entry remove it, so the number of entries bounds the depth. -/
def stopFuel : ℕ → ProcessId → World → Except ManagerError Unit × World
  | 0, id, w => (.error (.notFound id), w)
  | fuel + 1, id, w =>
    let r := w.stopOne env id
    if r.1.cascade then
      (r.1.result, (r.2.dependents id).foldl (fun w dep => (stopFuel fuel dep w).2) r.2)
    else (r.1.result, r.2)

/-- `ProcessManager::stop` -/
def stop (id : ProcessId) (w : World) : Except ManagerError Unit × World :=
  w.stopFuel env (w.processes.keys.length + 1) id

/-! ### What a stop changes -/

variable {env} {p : Process} {w : World} {P : KillCall → Prop}

/-- A process in `Stopping` counts as running, whatever its child does. -/
theorem isRunning_of_stopping (hp : p.state = .stopping) : p.isRunning env w = true := by
  rw [Process.isRunning, Process.pollState_of_settled (by simp [hp]) (by simp [hp]), hp]
  rfl

/-- The grace loop of a process in `Stopping` never ends early and never polls. -/
theorem graceLoop_of_stopping (env : Env) (hp : p.state = .stopping) (deadline : Instant) (fuel : ℕ) :
    (w.graceLoop env deadline fuel p).1 = false ∧ (w.graceLoop env deadline fuel p).2.1 = p ∧
      OsStep ∅ P w (w.graceLoop env deadline fuel p).2.2 := by
  induction fuel generalizing w with
  | zero => exact ⟨rfl, rfl, .refl w⟩
  | succ fuel ih =>
    have htick : OsStep ∅ P w (w.tick env) := w.osStep_tick env
    have hpoll : p.pollState env (w.tick env) = (p, w.tick env) :=
      Process.pollState_of_settled (by simp [hp]) (by simp [hp])
    simp only [graceLoop, isRunning_of_stopping hp, hpoll, ↓reduceIte]
    split_ifs with hdeadline
    · obtain ⟨hfst, hp', hstep⟩ := ih (w := (w.tick env).sleep env (millis 50))
      exact ⟨hfst, hp', htick.trans (((w.tick env).osStep_sleep env _).trans hstep)⟩
    · exact ⟨rfl, rfl, htick⟩

theorem osStep_reapLoop (deadline : Instant) (fuel : ℕ) :
    OsStep p.handles P w (w.reapLoop env deadline fuel p) := by
  induction fuel generalizing w with
  | zero => exact .refl w
  | succ fuel ih =>
    have hpoll : OsStep p.handles P w (p.tryWaitExit env (w.tick env)).2 :=
      (w.osStep_tick env).trans Process.osStep_tryWaitExit
    simp only [reapLoop]
    split_ifs
    · exact hpoll
    · exact hpoll.trans ((World.osStep_sleep env _ _).trans ih)
    · exact w.osStep_tick env

theorem osStep_awaitKill : OsStep p.handles P w (w.awaitKill env p) := by
  have hloop : ∀ deadline fuel, OsStep p.handles P w ((w.tick env).reapLoop env deadline fuel p) :=
    fun deadline fuel => (w.osStep_tick env).trans (osStep_reapLoop deadline fuel)
  simp only [awaitKill]
  exact (hloop _ _).trans (Process.osStep_tryWaitExit.trans (Process.osStep_joinReaders env p))

theorem osStep_stopEscalate : OsStep p.handles (KillsFrom p w) w (w.stopEscalate env p).2 := by
  have hkill : OsStep p.handles (KillsFrom p w) w (p.forceKill env .stopEscalation w).2 :=
    Process.osStep_forceKill.mono (Set.empty_subset _) fun _ h => h
  simp only [stopEscalate]
  split
  · exact hkill.trans (Process.osStep_joinReaders env p)
  · exact hkill
  · exact hkill.trans osStep_awaitKill

theorem osStep_stopGrace (env : Env) (hp : p.state = .stopping) :
    OsStep p.handles (KillsFrom p w) w (w.stopGrace env p).2 := by
  obtain ⟨hfst, hentry, hstep⟩ := graceLoop_of_stopping (w := w.tick env)
    (P := fun _ => False) env hp ((w.tick env).clock + millis p.config.terminateTimeoutMs)
    (loopFuel p.config.terminateTimeoutMs 50)
  have hgone := (w.osStep_tick env).trans hstep
  simp only [stopGrace, hfst, Bool.false_eq_true, ↓reduceIte, hentry]
  exact hgone.weaken.trans (osStep_stopEscalate.mono subset_rfl fun k hk => hk.earlier hgone.children)

/-- A stop signals and waits for the process it removed, and for nothing else. -/
theorem osStep_stopTaken : OsStep p.handles (KillsFrom p w) w (w.stopTaken env p).2 := by
  rw [← killsFrom_markStopping, ← handles_markStopping]
  generalize hq : p.markStopping = q
  have hstate : q.state = .stopping := by rw [← hq]; rfl
  have hsignal : OsStep ∅ (KillsFrom q w) w (q.sendSignal env .stop q.config.killSignal w).2 :=
    Process.osStep_sendSignal
  have hsignal' := hsignal.mono (Set.empty_subset q.handles) fun _ h => h
  simp only [stopTaken, hq]
  split
  · exact hsignal'.trans (Process.osStep_joinReaders env q)
  · exact hsignal'
  · refine hsignal'.trans ((osStep_stopGrace env hstate).mono subset_rfl ?_)
    intro k hk
    exact hk.earlier hsignal.children

theorem osStep_sendFromHandle (event : ProcessExitEvent) :
    OsStep ∅ P w (w.sendFromHandle env event) := by
  unfold sendFromHandle
  split_ifs
  · exact .refl w
  · exact w.osStep_send env event

/-- `stop` up to its cascade removes the entry; it signals it unless it is in
`Restarting` or `Waiting`. -/
theorem osStep_stopOne {id : ProcessId} (hp : w.processes.lookup id = some p) :
    OsStep p.handles (fun k => KillsFrom p w k ∧ p.state ≠ .restarting ∧ p.state ≠ .waiting)
      (w.remove id) (w.stopOne env id).2 := by
  simp only [stopOne, hp]
  split_ifs with hrestarting hwaiting
  · exact .refl _
  · exact osStep_sendFromHandle _ |>.weaken
  · exact osStep_stopTaken.mono subset_rfl fun k hk => ⟨{ hk with }, hrestarting, hwaiting⟩

/-- A stop up to its cascade removes the entry and no other. -/
theorem stopOne_lookup {id : ProcessId} (hp : w.processes.lookup id = some p) (k : ProcessId) :
    (w.stopOne env id).2.processes.lookup k = if k = id then none else w.processes.lookup k := by
  have hstep : OsStep p.handles _ (w.remove id) (w.stopOne env id).2 := osStep_stopOne hp
  rw [hstep.processes, remove_processes, AssocMap.lookup_erase_eq]

theorem stopOne_of_untracked {id : ProcessId} (h : w.processes.lookup id = none) :
    w.stopOne env id = (⟨.error (.notFound id), false⟩, w) := by
  simp only [stopOne, h]

theorem stopEscalate_of_cascade (h : (w.stopEscalate env p).1.cascade = true) :
    (w.stopEscalate env p).1.result = .ok () ∧ p.config.cascadeStop = true := by
  simp only [stopEscalate] at h ⊢
  split at h
  · cases h
  · cases h
  · exact ⟨rfl, h⟩

/-- Only a process with `cascade_stop` takes others with it, and only when its own stop succeeds. -/
theorem stopOne_of_cascade {id : ProcessId} (hp : w.processes.lookup id = some p)
    (h : (w.stopOne env id).1.cascade = true) :
    (w.stopOne env id).1.result = .ok () ∧ p.config.cascadeStop = true := by
  simp only [stopOne, hp] at h ⊢
  split_ifs at h ⊢ with hrestarting hwaiting
  · exact ⟨rfl, h⟩
  · simp only [stopTaken] at h ⊢
    generalize hq : p.markStopping = q at h ⊢
    have hstate : q.state = .stopping := by rw [← hq]; rfl
    have hcascade : q.config.cascadeStop = p.config.cascadeStop := by rw [← hq]; rfl
    split at h
    · cases h
    · cases h
    · set w₁ := ((q.sendSignal env .stop q.config.killSignal (w.remove id)).2).tick env
      obtain ⟨hfst, hentry, _⟩ := graceLoop_of_stopping (w := w₁) (P := fun _ => False) env hstate
        (w₁.clock + millis q.config.terminateTimeoutMs) (loopFuel q.config.terminateTimeoutMs 50)
      simp only [stopGrace, w₁, hfst, Bool.false_eq_true, ↓reduceIte, hentry] at h ⊢
      rw [← hcascade]
      exact stopEscalate_of_cascade h

/-! ### Induction over the cascade -/

/-- `C` holds at every call of `stop` that a stop of `id` makes, itself included. -/
def StopMeets (env : Env) (C : ProcessId → World → Prop) : ℕ → ProcessId → World → Prop
  | 0, _, _ => True
  | fuel + 1, id, w =>
    C id w ∧ ((w.stopOne env id).1.cascade = true →
      Fold.Meets (fun w dep => StopMeets env C fuel dep w) (fun w dep => (stopFuel env fuel dep w).2)
        ((w.stopOne env id).2.dependents id) (w.stopOne env id).2)

/-- What each single stop keeps, the whole cascade keeps. -/
theorem stopFuel_invariant {I : World → Prop} {C : ProcessId → World → Prop}
    (hstep : ∀ id w, I w → C id w → I (w.stopOne env id).2) :
    ∀ fuel id w, I w → StopMeets env C fuel id w → I (w.stopFuel env fuel id).2 := by
  intro fuel
  induction fuel with
  | zero => exact fun _ _ hw _ => hw
  | succ fuel ih =>
    intro id w hw hmeets
    have hone : I (w.stopOne env id).2 := hstep id w hw hmeets.1
    simp only [stopFuel]
    split_ifs with hcascade
    · exact Fold.invariant (fun w dep hw hdep => ih dep w hw hdep) _ _ hone (hmeets.2 hcascade)
    · exact hone

theorem stopMeets_of_forall {C : ProcessId → World → Prop} (h : ∀ id w, C id w) (fuel : ℕ)
    (id : ProcessId) (w : World) : StopMeets env C fuel id w := by
  induction fuel generalizing id w with
  | zero => trivial
  | succ fuel ih => exact ⟨h id w, fun _ => Fold.meets_of_forall (fun w dep => ih dep w) _ _⟩

/-- The calls a `stop` of `id` makes all meet `C`. -/
def StopCalls (env : Env) (C : ProcessId → World → Prop) (id : ProcessId) (w : World) : Prop :=
  StopMeets env C (w.processes.keys.length + 1) id w

theorem stop_invariant {I : World → Prop} {C : ProcessId → World → Prop}
    (hstep : ∀ id w, I w → C id w → I (w.stopOne env id).2) {id : ProcessId} (hw : I w)
    (h : StopCalls env C id w) : I (w.stop env id).2 :=
  stopFuel_invariant hstep _ id w hw h

theorem stop_invariant_of_forall {I : World → Prop}
    (hstep : ∀ id w, I w → I (w.stopOne env id).2) (id : ProcessId) (hw : I w) :
    I (w.stop env id).2 :=
  stop_invariant (C := fun _ _ => True) (fun id w hw _ => hstep id w hw) hw
    (stopMeets_of_forall (fun _ _ => trivial) _ id w)

/-- Where each single stop keeps `I` exactly if it meets the condition and loses it for good otherwise,
so does the whole cascade. -/
theorem stopFuel_meets_or_lost {I L : World → Prop} {C : ProcessId → World → Prop}
    (hkeep : ∀ id w, I w → C id w → I (w.stopOne env id).2) (hlose : ∀ id w, I w → ¬ C id w → L (w.stopOne env id).2)
    (hlost : ∀ id w, L w → L (w.stopOne env id).2) (fuel : ℕ) (id : ProcessId) (w : World) (hw : I w) :
    (StopMeets env C fuel id w ∧ I (w.stopFuel env fuel id).2) ∨
      (¬ StopMeets env C fuel id w ∧ L (w.stopFuel env fuel id).2) := by
  have hlost' : ∀ fuel id w, L w → L (w.stopFuel env fuel id).2 := fun fuel id w hw =>
    stopFuel_invariant (C := fun _ _ => True) (fun id w hw _ => hlost id w hw) fuel id w hw
      (stopMeets_of_forall (fun _ _ => trivial) fuel id w)
  induction fuel generalizing id w with
  | zero => exact .inl ⟨trivial, hw⟩
  | succ fuel ih =>
    simp only [StopMeets, stopFuel]
    by_cases hC : C id w
    · have hone : I (w.stopOne env id).2 := hkeep id w hw hC
      split_ifs with hcascade
      · have hrest := Fold.meets_or_lost (c := fun w dep => StopMeets env C fuel dep w)
          (f := fun w dep => (stopFuel env fuel dep w).2) (fun w' dep hw' h => (ih dep w' hw').elim (·.2) fun h' => absurd h h'.1)
          (fun w' dep hw' h => (ih dep w' hw').elim (fun h' => absurd h'.1 h) (·.2)) (fun w' dep => hlost' fuel dep w')
          ((w.stopOne env id).2.dependents id) _ hone
        exact hrest.imp (fun h => ⟨⟨hC, fun _ => h.1⟩, h.2⟩) fun h => ⟨fun hmeets => h.1 (hmeets.2 hcascade), h.2⟩
      · exact .inl ⟨⟨hC, fun h => absurd h hcascade⟩, hone⟩
    · have hone : L (w.stopOne env id).2 := hlose id w hw hC
      refine .inr ⟨fun hmeets => hC hmeets.1, ?_⟩
      split_ifs
      · exact Fold.foldl_invariant hone fun w' dep _ hw' => hlost' fuel dep w' hw'
      · exact hone

theorem stop_meets_or_lost {I L : World → Prop} {C : ProcessId → World → Prop}
    (hkeep : ∀ id w, I w → C id w → I (w.stopOne env id).2) (hlose : ∀ id w, I w → ¬ C id w → L (w.stopOne env id).2)
    (hlost : ∀ id w, L w → L (w.stopOne env id).2) (id : ProcessId) (hw : I w) :
    (StopCalls env C id w ∧ I (w.stop env id).2) ∨ (¬ StopCalls env C id w ∧ L (w.stop env id).2) :=
  stopFuel_meets_or_lost hkeep hlose hlost _ id w hw

/-- A stop only removes entries. -/
theorem mapStep_stop (env : Env) (id : ProcessId) (w : World) :
    MapStep Kept Set.univ (fun _ => True) w (w.stop env id).2 := by
  refine stop_invariant_of_forall (I := MapStep Kept Set.univ (fun _ => True) w) ?_ id
    (.of_osStep kept_refl (.refl w))
  intro id' w' hw'
  refine hw'.trans kept_trans ?_
  cases hp : w'.processes.lookup id' with
  | none => rw [stopOne_of_untracked hp]; exact .of_osStep kept_refl (.refl w')
  | some p =>
    exact (MapStep.remove id' w').trans kept_trans (.of_osStep kept_refl
      ((osStep_stopOne hp).mono (Set.subset_univ _) fun _ _ => trivial))

end World

end ProcessManager
