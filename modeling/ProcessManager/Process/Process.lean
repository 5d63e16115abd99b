import ProcessManager.Os.Frame

/-! The methods of `Process`. Each works on an entry that its caller holds, either
through a guard of the map or as a local value after removal. -/

namespace ProcessManager

namespace Process

variable (env : Env)

/-- `Process::state`: the entry with its updated state. Only `Starting` and `Running`
entries poll their child. -/
def pollState (p : Process) (w : World) : Process × World :=
  if p.state.isTerminated || p.state = .stopping || p.state = .restarting || p.state = .waiting then
    (p, w)
  else
    match p.child with
    | some c =>
      match w.waitResult env c with
      | .exited s => ({ p with state := if s.success then .stopped else .crashed }, w.tryWait env c)
      | .running => ({ p with state := .running }, w.tryWait env c)
      | .error => ({ p with state := .crashed }, w.tryWait env c)
    | none => ({ p with state := .stopped }, w)

/-- `Process::is_running`, together with the update `state()` makes. -/
def isRunning (p : Process) (w : World) : Bool := (p.pollState env w).1.state.isAlive

/-- `Process::try_wait_exit` -/
def tryWaitExit (p : Process) (w : World) : Option ExitStatus × World :=
  match p.child with
  | some c =>
    match w.waitResult env c with
    | .exited s => (some s, w.tryWait env c)
    | _ => (none, w.tryWait env c)
  | none => (none, w)

/-- `Process::send_signal`: `ESRCH` without a system call for pid `0`. -/
def sendSignal (site : KillSite) (p : Process) (signal : KillSignal) (w : World) :
    Option Errno × World :=
  if p.pid = 0 then (some .esrch, w)
  else (w.killError env p.pid, w.kill env site p signal.toSignal)

/-- `Process::force_kill` -/
def forceKill (site : KillSite) (p : Process) (w : World) : Option Errno × World :=
  p.sendSignal env site .sigkill w

/-- `Process::join_readers`: time passes while the reader threads finish. -/
def joinReaders (_ : Process) (w : World) : World := w.tick env

/-- Wait for the child, if there is one, and join the readers: how an entry gives up its
resources before it is respawned. -/
def release (p : Process) (w : World) : World :=
  p.joinReaders env (match p.child with
    | some c => w.wait env c
    | none => w)

/-! ### What the methods change -/

variable {env} {p : Process} {w : World} {P : KillCall → Prop} {c : ℕ}

theorem pollState_of_settled (h : p.state ≠ .starting) (h' : p.state ≠ .running) :
    p.pollState env w = (p, w) := by
  unfold pollState
  cases hs : p.state <;> simp_all [ProcessState.isTerminated]

theorem pollState_of_child (hs : p.state = .starting ∨ p.state = .running)
    (hc : p.child = some c) :
    p.pollState env w = ({ p with state := (w.waitResult env c).state }, w.tryWait env c) := by
  have hskip : (p.state.isTerminated || p.state = .stopping || p.state = .restarting ||
      p.state = .waiting) = false := by
    rcases hs with hs | hs <;> rw [hs] <;> rfl
  simp only [pollState, hskip, hc, Bool.false_eq_true, ↓reduceIte]
  cases w.waitResult env c <;> rfl

theorem pollState_of_no_child (hs : p.state = .starting ∨ p.state = .running)
    (hc : p.child = none) : p.pollState env w = ({ p with state := .stopped }, w) := by
  rcases hs with hs | hs <;> simp [pollState, hs, hc, ProcessState.isTerminated]

/-- What `pollState` does, by cases on the stored state and the handle. -/
theorem pollState_cases (env : Env) (p : Process) (w : World) :
    p.pollState env w = (p, w) ∨
    (p.state = .starting ∨ p.state = .running) ∧
      ((p.child = none ∧ p.pollState env w = ({ p with state := .stopped }, w)) ∨
        ∃ c, p.child = some c ∧
          p.pollState env w = ({ p with state := (w.waitResult env c).state }, w.tryWait env c)) := by
  by_cases hs : p.state = .starting ∨ p.state = .running
  · refine .inr ⟨hs, ?_⟩
    rcases Option.eq_none_or_eq_some p.child with hc | ⟨c, hc⟩
    · exact .inl ⟨hc, pollState_of_no_child hs hc⟩
    · exact .inr ⟨c, hc, pollState_of_child hs hc⟩
  · rw [not_or] at hs
    exact .inl (pollState_of_settled hs.1 hs.2)

/-- Polling changes the state only. -/
theorem pollState_fst : (p.pollState env w).1 = { p with state := (p.pollState env w).1.state } := by
  obtain h | ⟨_, ⟨_, h⟩ | ⟨c, _, h⟩⟩ := pollState_cases env p w <;> rw [h]

/-- What polling can make of an entry. -/
def Polled (_ : ProcessId) (p p' : Process) : Prop :=
  p' = p ∨ (p.state = .starting ∨ p.state = .running) ∧
    ∃ s, (s = .running ∨ s.isTerminated = true) ∧ p' = { p with state := s }

theorem Polled.refl (id : ProcessId) (p : Process) : Polled id p p := .inl rfl

theorem Polled.trans {id : ProcessId} {p p' p'' : Process} (h : Polled id p p')
    (h' : Polled id p' p'') : Polled id p p'' := by
  obtain rfl | ⟨hs, s, hs', rfl⟩ := h
  · exact h'
  · obtain rfl | ⟨_, s', hs'', rfl⟩ := h'
    · exact .inr ⟨hs, s, hs', rfl⟩
    · exact .inr ⟨hs, s', hs'', rfl⟩

theorem polled_pollState (id : ProcessId) : Polled id p (p.pollState env w).1 := by
  obtain h | ⟨hs, ⟨_, h⟩ | ⟨c, _, h⟩⟩ := pollState_cases env p w <;> rw [h]
  · exact .inl rfl
  · exact .inr ⟨hs, _, .inr rfl, rfl⟩
  · exact .inr ⟨hs, _, World.WaitResult.state_eq_or _, rfl⟩

theorem osStep_pollState : OsStep p.handles P w (p.pollState env w).2 := by
  obtain h | ⟨_, ⟨_, h⟩ | ⟨c, hc, h⟩⟩ := pollState_cases env p w <;> rw [h]
  · exact .refl w
  · exact .refl w
  · exact w.osStep_tryWait env hc

theorem clock_le_pollState (env : Env) (p : Process) (w : World) :
    w.clock ≤ (p.pollState env w).2.clock := by
  obtain h | ⟨_, ⟨_, h⟩ | ⟨c, _, h⟩⟩ := pollState_cases env p w <;> rw [h]
  exact (w.clock_le_tick env).trans_eq (w.clock_tryWait env c).symm

/-- A result `running` collects nothing and finds the child alive. -/
theorem waitResult_running (h : w.waitResult env c = .running) :
    w.tryWait env c = w.tick env ∧
      ∃ ch, (w.tick env).children[c]? = some ch ∧ ch.isRunning = true := by
  refine ⟨by rw [World.tryWait, h], ?_⟩
  unfold World.waitResult at h
  split at h
  · cases h
  · next ch hc =>
    refine ⟨ch, hc, ?_⟩
    split at h
    · cases h
    · split_ifs at h
    · next hs => simp [OsChild.isRunning, hs]

/-- An error collects nothing, and the child was not collected before. -/
theorem waitResult_error (h : w.waitResult env c = .error) :
    w.tryWait env c = w.tick env ∧
      ∀ ch, (w.tick env).children[c]? = some ch → ch.isReaped = false := by
  refine ⟨by rw [World.tryWait, h], ?_⟩
  unfold World.waitResult at h
  intro ch hc
  rw [hc] at h
  cases hs : ch.status with
  | running => simp [OsChild.isReaped, hs]
  | exited s t => simp [OsChild.isReaped, hs]
  | reaped s t => simp [hs] at h

/-- A result `exited` collects the exit, or finds it collected. -/
theorem waitResult_exited {s : ExitStatus} (h : w.waitResult env c = .exited s) :
    ∃ ch t, (w.tryWait env c).children[c]? = some ch ∧ ch.status = .reaped s t := by
  have htry : (w.tryWait env c).children = (w.tick env).children.modify c OsChild.reap := by
    rw [World.tryWait, h]
  unfold World.waitResult at h
  split at h
  · cases h
  · next ch hc =>
    refine ⟨ch.reap, ?_⟩
    rw [htry, List.getElem?_modify, hc]
    cases hs : ch.status with
    | running => simp only [hs] at h; split_ifs at h
    | exited s' t =>
      simp only [hs] at h
      split_ifs at h
      cases h
      exact ⟨t, by simp, by simp [OsChild.reap, hs]⟩
    | reaped s' t =>
      simp only [hs] at h
      cases h
      exact ⟨t, by simp, by simp [OsChild.reap, hs]⟩

theorem tryWaitExit_of_child (hc : p.child = some c) :
    p.tryWaitExit env w = ((w.waitResult env c).status, w.tryWait env c) := by
  simp only [tryWaitExit, hc]
  cases w.waitResult env c <;> rfl

theorem tryWaitExit_of_no_child (hc : p.child = none) : p.tryWaitExit env w = (none, w) := by
  rw [tryWaitExit, hc]

theorem osStep_tryWaitExit : OsStep p.handles P w (p.tryWaitExit env w).2 := by
  cases hc : p.child with
  | none => rw [tryWaitExit_of_no_child hc]; exact .refl w
  | some c => rw [tryWaitExit_of_child hc]; exact w.osStep_tryWait env hc

theorem clock_le_tryWaitExit (env : Env) (p : Process) (w : World) :
    w.clock ≤ (p.tryWaitExit env w).2.clock := by
  cases hc : p.child with
  | none => rw [tryWaitExit_of_no_child hc]
  | some c =>
    rw [tryWaitExit_of_child hc]
    exact (w.clock_le_tick env).trans_eq (w.clock_tryWait env c).symm

theorem osStep_sendSignal {site : KillSite} {signal : KillSignal} :
    OsStep ∅ (KillsFrom p w) w (p.sendSignal env site signal w).2 := by
  unfold sendSignal
  split_ifs with hpid
  · exact .refl w
  · exact w.osStep_kill env ⟨rfl, rfl, hpid, rfl, w.ages_tick env⟩

theorem osStep_forceKill {site : KillSite} :
    OsStep ∅ (KillsFrom p w) w (p.forceKill env site w).2 := osStep_sendSignal

theorem osStep_joinReaders (env : Env) {S : Set ℕ} (p : Process) : OsStep S P w (p.joinReaders env w) :=
  w.osStep_tick env

theorem osStep_release : OsStep p.handles P w (p.release env w) := by
  unfold release
  cases hc : p.child with
  | none => exact osStep_joinReaders env p
  | some c => exact (w.osStep_wait env (c := c) hc).trans (osStep_joinReaders env p)

/-! ### Guards -/

@[simp] theorem pollState_locks (env : Env) (p : Process) (w : World) :
    (p.pollState env w).2.locks = w.locks := by
  obtain h | ⟨_, ⟨_, h⟩ | ⟨c, _, h⟩⟩ := pollState_cases env p w <;> rw [h]
  exact World.tryWait_locks env c w

@[simp] theorem tryWaitExit_locks (env : Env) (p : Process) (w : World) :
    (p.tryWaitExit env w).2.locks = w.locks := by
  cases hc : p.child with
  | none => rw [tryWaitExit_of_no_child hc]
  | some c => rw [tryWaitExit_of_child hc, World.tryWait_locks]

@[simp] theorem sendSignal_locks (site : KillSite) (signal : KillSignal) :
    (p.sendSignal env site signal w).2.locks = w.locks := by
  unfold sendSignal
  split_ifs <;> rfl

@[simp] theorem release_locks : (p.release env w).locks = w.locks := by
  unfold release
  cases p.child <;> rfl

end Process

end ProcessManager
