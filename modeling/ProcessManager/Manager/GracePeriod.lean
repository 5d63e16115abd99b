import ProcessManager.Manager.StopMany
import Mathlib.Algebra.Order.BigOperators.Group.List
import Mathlib.Algebra.Order.Group.Nat

/-! The grace periods of `stop` and `stop_many`. Both mark the entry as `Stopping` before
they poll it with `is_running()`, and `is_running()` does not look at the child of an
entry in `Stopping`. No exit is ever seen: every grace period lasts until its deadline,
and `SIGKILL` follows. -/

namespace ProcessManager

/-- The child has exited, collected or not. -/
def Exited (c : ℕ) (cs : List OsChild) : Bool := cs[c]?.any fun ch => !ch.isRunning

theorem exited_of_ages {c : ℕ} {S : Set ℕ} {cs cs' : List OsChild} (h : Exited c cs = true)
    (hcs : Ages S cs cs') : Exited c cs' = true := by
  simp only [Exited, Option.any_eq_true, Bool.not_eq_true'] at h ⊢
  obtain ⟨ch, hc, hexit⟩ := h
  obtain ⟨ch', hc', hage⟩ := hcs c ch hc
  refine ⟨ch', hc', ?_⟩
  by_contra hrunning
  simp [hage.running (by simpa using hrunning)] at hexit

/-- `SIGKILL` for the child `c` after its exit. -/
def KilledAfterExit (c : ℕ) (k : KillCall) : Prop :=
  k.signal = .sigkill ∧ k.child = some c ∧ Exited c k.children = true

instance (c : ℕ) : DecidablePred (KilledAfterExit c) := fun k => by
  unfold KilledAfterExit
  infer_instance

namespace World

variable {env : Env} {w : World} {p : Process} {c : ℕ} {P : KillCall → Prop}

/-! ### The loops end at their deadlines -/

/-- One iteration of `step` brings a deadline nearer. -/
theorem deadline_le {deadline start now next step n : ℕ} (h : deadline ≤ start + (n + 1) * step)
    (hnow : start ≤ now) (hnext : now + step ≤ next) : deadline ≤ next + n * step := by
  rw [Nat.succ_mul] at h
  omega

/-- The grace loop ends before its fuel does. -/
theorem graceLoop_fuel {deadline : Instant} {n : ℕ} (h : deadline ≤ w.clock + n * millis 50)
    (k : ℕ) : w.graceLoop env deadline (n + 1 + k) p = w.graceLoop env deadline (n + 1) p := by
  induction n generalizing w p with
  | zero =>
    have hlate : ¬ (w.tick env).clock < deadline := by
      rw [not_lt]
      exact h.trans (by simpa using w.clock_le_tick env)
    rw [Nat.add_right_comm, graceLoop, graceLoop, if_neg hlate, if_neg hlate]
  | succ n ih =>
    rw [Nat.add_right_comm (n + 1), graceLoop, graceLoop]
    split_ifs
    · have htick := w.clock_le_tick env
      have hpoll := p.clock_le_pollState env (w.tick env)
      have hsleep := (p.pollState env (w.tick env)).2.le_clock_sleep env (millis 50)
      exact ih (deadline_le h (htick.trans hpoll) hsleep)
    · rfl
    · rfl

/-- The reaping loop ends before its fuel does. -/
theorem reapLoop_fuel {deadline : Instant} {n : ℕ} (h : deadline ≤ w.clock + n * millis 10)
    (k : ℕ) : w.reapLoop env deadline (n + 1 + k) p = w.reapLoop env deadline (n + 1) p := by
  induction n generalizing w with
  | zero =>
    have hlate : ¬ (w.tick env).clock < deadline := by
      rw [not_lt]
      exact h.trans (by simpa using w.clock_le_tick env)
    rw [Nat.add_right_comm, reapLoop, reapLoop, if_neg hlate, if_neg hlate]
  | succ n ih =>
    rw [Nat.add_right_comm (n + 1), reapLoop, reapLoop]
    dsimp only
    split_ifs
    · rfl
    · have htick := w.clock_le_tick env
      have hwait := p.clock_le_tryWaitExit env (w.tick env)
      have hsleep := (p.tryWaitExit env (w.tick env)).2.le_clock_sleep env (millis 10)
      exact ih (deadline_le h (htick.trans hwait) hsleep)
    · rfl

/-- The polling loop of a batch in `Stopping` ends before its fuel does. -/
theorem stopManyPoll_fuel {entries : List (Process × Instant)} {n : ℕ}
    (hstate : ∀ e ∈ entries, e.1.state = .stopping)
    (h : ∀ e ∈ entries, e.2 ≤ w.clock + n * millis 50) (k : ℕ) :
    w.stopManyPoll env (n + 1 + k) entries = w.stopManyPoll env (n + 1) entries := by
  induction n generalizing w entries with
  | zero =>
    obtain ⟨hworld, _, hwaiting⟩ :=
      stopManySweep_of_stopping env (w.tick env).clock hstate (w.tick env)
    have hnone : entries.filter (fun e => (w.tick env).clock < e.2) = [] := by
      simp only [List.filter_eq_nil_iff, decide_eq_true_eq, not_lt]
      exact fun e he => (h e he).trans (by simpa using w.clock_le_tick env)
    rw [Nat.add_right_comm, stopManyPoll, stopManyPoll]
    simp only [hwaiting, hnone]
    cases 0 + k <;> rfl
  | succ n ih =>
    obtain ⟨hworld, _, hwaiting⟩ :=
      stopManySweep_of_stopping env (w.tick env).clock hstate (w.tick env)
    rw [Nat.add_right_comm (n + 1), stopManyPoll, stopManyPoll]
    simp only [hworld, hwaiting]
    generalize hrest : entries.filter (fun e => (w.tick env).clock < e.2) = rest
    have hmem : ∀ e ∈ rest, e ∈ entries := fun e he => List.mem_of_mem_filter (hrest ▸ he)
    split_ifs with hnil hdone
    · rfl
    · rw [hdone]
      cases n + 1 + k <;> rfl
    · rw [ih (fun e he => hstate e (hmem e he)) fun e he => ?_]
      exact deadline_le (h e (hmem e he)) (w.clock_le_tick env)
        ((w.tick env).le_clock_sleep env (millis 50))

/-- `loopFuel` iterations of `step` ms last longer than `timeout` ms. -/
theorem millis_le_loopFuel {timeout step n : ℕ} (hstep : 0 < step) (hn : timeout / step + 1 ≤ n) :
    millis timeout ≤ n * millis step := by
  have hlt : timeout < n * step := Nat.lt_mul_of_div_lt (by omega) hstep
  unfold millis
  calc timeout * 10 ^ 6 ≤ n * step * 10 ^ 6 := Nat.mul_le_mul_right _ hlt.le
    _ = n * (step * 10 ^ 6) := Nat.mul_assoc ..

/-- More fuel does not change a grace period. -/
theorem graceLoop_loopFuel (timeout k : ℕ) (p : Process) (w : World) :
    w.graceLoop env (w.clock + millis timeout) (loopFuel timeout 50 + k) p =
      w.graceLoop env (w.clock + millis timeout) (loopFuel timeout 50) p :=
  graceLoop_fuel (Nat.add_le_add_left (millis_le_loopFuel (by omega) le_rfl) _) k

/-- More fuel does not change the wait for `SIGKILL` to take effect. -/
theorem reapLoop_loopFuel (k : ℕ) (p : Process) (w : World) :
    w.reapLoop env (w.clock + millis 500) (loopFuel 500 10 + k) p =
      w.reapLoop env (w.clock + millis 500) (loopFuel 500 10) p :=
  reapLoop_fuel (Nat.add_le_add_left (millis_le_loopFuel (by omega) le_rfl) _) k

theorem clock_le_stopManyTake (ids : List ProcessId) (w : World) :
    w.clock ≤ (w.stopManyTake env ids).2.clock := by
  induction ids generalizing w with
  | nil => exact le_rfl
  | cons id ids ih =>
    cases hp : w.processes.lookup id with
    | none => simp only [stopManyTake, hp]; exact ih w
    | some p =>
      by_cases hpid : p.pid = 0 <;> simp only [stopManyTake, hp, hpid, ↓reduceIte]
      · exact ih (w.remove id)
      · exact ((w.remove id).clock_le_tick env).trans (ih _)

/-- The deadlines of a batch are counted from before its first signal. -/
theorem deadline_le_stopManyTake {ids : List ProcessId} {e : Process × Instant}
    (he : e ∈ (w.stopManyTake env ids).1) :
    e.2 ≤ (w.stopManyTake env ids).2.clock + millis e.1.config.terminateTimeoutMs := by
  induction ids generalizing w with
  | nil => simp [stopManyTake] at he
  | cons id ids ih =>
    cases hp : w.processes.lookup id with
    | none => simp only [stopManyTake, hp] at he ⊢; exact ih he
    | some p =>
      by_cases hpid : p.pid = 0 <;> simp only [stopManyTake, hp, hpid, ↓reduceIte] at he ⊢
      · exact ih he
      · rcases List.mem_cons.mp he with rfl | he
        · exact Nat.add_le_add_right (clock_le_stopManyTake ids _) _
        · exact ih he

theorem clock_le_sendSignal (site : KillSite) (p : Process) (signal : KillSignal) (w : World) :
    w.clock ≤ (p.sendSignal env site signal w).2.clock := by
  unfold Process.sendSignal
  split_ifs
  · exact le_rfl
  · exact w.clock_le_tick env

theorem clock_le_stopManySignal (entries : List (Process × Instant)) (w : World) :
    w.clock ≤ (w.stopManySignal env entries).2.clock := by
  induction entries generalizing w with
  | nil => exact le_rfl
  | cons e entries ih => exact (clock_le_sendSignal _ _ _ _).trans (ih _)

/-- More fuel does not change the grace period of a batch. -/
theorem stopManyPoll_batchFuel (ids : List ProcessId) (k : ℕ) (w : World) :
    let taken := w.stopManyTake env ids
    let signalled := taken.2.stopManySignal env taken.1
    signalled.2.stopManyPoll env (batchFuel signalled.1 + k) signalled.1 =
      signalled.2.stopManyPoll env (batchFuel signalled.1) signalled.1 := by
  intro taken signalled
  have hmem : ∀ e ∈ signalled.1, e.1.state = .stopping ∧
      e.2 ≤ taken.2.clock + millis e.1.config.terminateTimeoutMs := by
    intro e he
    rw [show signalled.1 = _ from map_stopManySignal taken.1 taken.2, List.mem_map] at he
    obtain ⟨e₀, he₀, rfl⟩ := he
    have hdeadline : e₀.2 ≤ taken.2.clock + millis e₀.1.config.terminateTimeoutMs :=
      deadline_le_stopManyTake he₀
    exact ⟨rfl, hdeadline⟩
  refine stopManyPoll_fuel (fun e he => (hmem e he).1) (fun e he => (hmem e he).2.trans ?_) k
  refine Nat.add_le_add (clock_le_stopManySignal taken.1 taken.2) (millis_le_loopFuel (by omega) ?_)
  -- the timeout of one entry is at most the sum that the fuel is computed from
  have hsum : e.1.config.terminateTimeoutMs ≤
      (signalled.1.map fun e => e.1.config.terminateTimeoutMs).sum :=
    List.le_sum_of_mem (List.mem_map_of_mem he)
  exact Nat.succ_le_succ (Nat.div_le_div_right hsum)

/-! ### The polling iterations -/

variable (env)

/-- The worlds in which the grace loop polls. -/
def gracePolls (deadline : Instant) : ℕ → Process → World → List World
  | 0, _, _ => []
  | fuel + 1, p, w =>
    let w := w.tick env
    if w.clock < deadline then
      let r := p.pollState env w
      w :: if p.isRunning env w then gracePolls deadline fuel r.1 (r.2.sleep env (millis 50)) else []
    else []

/-- The worlds in which the grace period of a `stop` polls. -/
def stopPolls (p : Process) (w : World) : List World :=
  let w := w.tick env
  let timeout := p.config.terminateTimeoutMs
  w.gracePolls env (w.clock + millis timeout) (loopFuel timeout 50) p

/-- The worlds in which the polling loop of a batch sweeps, with the entries it sweeps. -/
def batchPolls : ℕ → List (Process × Instant) → World → List (World × List (Process × Instant))
  | 0, _, _ => []
  | fuel + 1, entries, w =>
    if entries = [] then []
    else
      let w := w.tick env
      let s := w.stopManySweep env w.clock entries
      (w, entries) :: batchPolls fuel s.1.waiting
        (if s.1.waiting = [] then s.2 else s.2.sleep env (millis 50))

/-- The sweeps of one `stop_many`. -/
def stopManyPolls (ids : List ProcessId) (w : World) : List (World × List (Process × Instant)) :=
  let taken := w.stopManyTake env ids
  let signalled := taken.2.stopManySignal env taken.1
  signalled.2.batchPolls env (batchFuel signalled.1) signalled.1

/-- `stop` takes the entry, its first signal succeeds, and a polling iteration runs after
the exit of the child. -/
structure ExitsInGrace (id : ProcessId) (p : Process) (c : ℕ) (w : World) : Prop where
  tracked : w.processes.lookup id = some p
  active : p.state ≠ .restarting ∧ p.state ≠ .waiting
  child : p.child = some c
  signalled : (p.markStopping.sendSignal env .stop p.config.killSignal (w.remove id)).1 = none
  polled : ∃ w' ∈ stopPolls env p.markStopping
    (p.markStopping.sendSignal env .stop p.config.killSignal (w.remove id)).2,
      Exited c w'.children = true

/-- `stop_many` takes the entry, and a sweep before the deadline of the entry runs after
the exit of the child. -/
structure ExitsInBatch (ids : List ProcessId) (p : Process) (c : ℕ) (w : World) : Prop where
  child : p.child = some c
  polled : ∃ s ∈ w.stopManyPolls env ids, ∃ e ∈ s.2, e.1 = p.markStopping ∧
    s.1.clock < e.2 ∧ Exited c s.1.children = true

variable {env}

/-- Every polling iteration of a process in `Stopping` is followed by the end of the loop. -/
theorem osStep_gracePolls (hp : p.state = .stopping) {deadline : Instant} {fuel : ℕ} {w' : World}
    (hw' : w' ∈ w.gracePolls env deadline fuel p) :
    OsStep ∅ P w' (w.graceLoop env deadline fuel p).2.2 := by
  induction fuel generalizing w with
  | zero => simp [gracePolls] at hw'
  | succ fuel ih =>
    have hpoll : p.pollState env (w.tick env) = (p, w.tick env) :=
      Process.pollState_of_settled (by simp [hp]) (by simp [hp])
    simp only [gracePolls, graceLoop, isRunning_of_stopping hp, hpoll, ↓reduceIte] at hw' ⊢
    split_ifs at hw' ⊢ with hdeadline
    · rcases List.mem_cons.mp hw' with rfl | hw'
      · exact (osStep_sleep env _ _).trans (graceLoop_of_stopping env hp deadline fuel).2.2
      · exact ih hw'
    · simp at hw'

/-- Every sweep over a batch in `Stopping` is followed by the end of the loop, and it
sweeps entries of the batch. -/
theorem osStep_batchPolls {fuel : ℕ} {entries : List (Process × Instant)}
    (h : ∀ e ∈ entries, e.1.state = .stopping) {s : World × List (Process × Instant)}
    (hs : s ∈ w.batchPolls env fuel entries) :
    s.2 ⊆ entries ∧ OsStep ∅ P s.1 (w.stopManyPoll env fuel entries).2 := by
  induction fuel generalizing entries w with
  | zero => simp [batchPolls] at hs
  | succ fuel ih =>
    obtain ⟨hworld, _, hwaiting⟩ :=
      stopManySweep_of_stopping env (w.tick env).clock h (w.tick env)
    have hwait : ∀ e ∈ entries.filter fun e => (w.tick env).clock < e.2, e.1.state = .stopping :=
      fun e he => h e (List.mem_of_mem_filter he)
    unfold batchPolls at hs
    unfold stopManyPoll
    split_ifs at hs ⊢ with hnil
    · simp at hs
    · simp only [hworld, hwaiting] at hs ⊢
      rcases List.mem_cons.mp hs with rfl | hs
      · refine ⟨List.Subset.refl _, .trans ?_ (stopManyPoll_of_stopping env fuel hwait _).2⟩
        split_ifs
        · exact .refl _
        · exact osStep_sleep env _ _
      · obtain ⟨hsub, hstep⟩ := ih hwait hs
        exact ⟨List.Subset.trans hsub (List.filter_subset_self ..), hstep⟩

/-! ### `SIGKILL` after the exit -/

/-- `force_kill` does not look at the child either. -/
theorem gains_forceKill (env : Env) (site : KillSite) (hc : p.child = some c) (hpid : p.pid ≠ 0)
    (hexit : Exited c w.children = true) :
    Gains (KilledAfterExit c) w.kills (p.forceKill env site w).2.kills := by
  simp only [Process.forceKill, Process.sendSignal, hpid, ↓reduceIte]
  exact .cons _ ⟨rfl, hc, exited_of_ages hexit (w.ages_tick env)⟩

theorem gains_stopManyEscalate {entries : List Process} (hp : p ∈ entries) (hc : p.child = some c)
    (hpid : p.pid ≠ 0) (hexit : Exited c w.children = true) :
    Gains (KilledAfterExit c) w.kills (w.stopManyEscalate env entries).2.kills := by
  induction entries generalizing w with
  | nil => simp at hp
  | cons q entries ih =>
    have hrest := fun w' => (osStep_stopManyEscalate env entries w').kills
    have hkill : OsStep ∅ (KillsFrom q w) w (q.forceKill env .stopManyEscalation w).2 :=
      Process.osStep_forceKill
    rcases List.mem_cons.mp hp with rfl | hp
    · have hgain := gains_forceKill env .stopManyEscalation hc hpid hexit
      simp only [stopManyEscalate]
      split
      · exact hgain.before (hrest _)
      · exact hgain.before (hrest _)
      · exact hgain.before (hrest _)
    · have hage := exited_of_ages hexit hkill.children
      simp only [stopManyEscalate]
      split
      · exact .after hkill.kills (ih hp hage)
      · exact .after hkill.kills (ih hp (exited_of_ages hage (ages_tick env _)))
      · exact .after hkill.kills (ih hp hage)

theorem grows_stopOne (id : ProcessId) (w : World) :
    Grows (fun _ => True) w.kills (w.stopOne env id).2.kills := by
  cases hp : w.processes.lookup id with
  | none => rw [stopOne_of_untracked hp]; exact .refl _
  | some p => exact (osStep_stopOne hp).kills.mono fun _ _ => trivial

/-- The dependents are stopped after the process itself. -/
theorem grows_stop (id : ProcessId) (w : World) :
    Grows (fun _ => True) (w.stopOne env id).2.kills (w.stop env id).2.kills := by
  have hfuel : ∀ (fuel : ℕ) (i : ProcessId) (w' : World), Grows (fun _ => True) w'.kills (w'.stopFuel env fuel i).2.kills := by
    intro fuel i w'
    exact stopFuel_invariant (C := fun _ _ => True)
      (I := fun w'' => Grows (fun _ => True) w'.kills w''.kills)
      (fun i w'' hw _ => hw.trans (grows_stopOne i w'')) fuel i w' (.refl _)
      (stopMeets_of_forall (fun _ _ => trivial) fuel i w')
  simp only [stop, stopFuel]
  split_ifs
  · exact Fold.foldl_rel (r := fun w w' : World => Grows (fun _ => True) w.kills w'.kills)
      (fun w => .refl _) (fun _ _ _ h h' => h.trans h') (fun w dep => hfuel _ dep w) _ _
  · exact .refl _

/-- A stop whose grace period could have seen the exit kills the exited child. -/
theorem gains_stop {id : ProcessId} (h : ExitsInGrace env id p c w) :
    Gains (KilledAfterExit c) w.kills (w.stop env id).2.kills := by
  refine .before ?_ (grows_stop id w)
  have hsignalled := h.signalled
  obtain ⟨w', hw', hexit⟩ := h.polled
  have hpid : p.pid ≠ 0 := by
    intro hzero
    simp [Process.sendSignal, Process.markStopping, hzero] at hsignalled
  have hsignal : OsStep ∅ (KillsFrom p.markStopping (w.remove id)) (w.remove id)
      (p.markStopping.sendSignal env .stop p.config.killSignal (w.remove id)).2 :=
    Process.osStep_sendSignal
  simp only [stopOne, h.tracked, h.active.1, h.active.2, ↓reduceIte, stopTaken]
  generalize hq : p.markStopping = q at hsignalled hw' hsignal ⊢
  have hstate : q.state = .stopping := by rw [← hq]; rfl
  have hchild : q.child = some c := by rw [← hq]; exact h.child
  have hqpid : q.pid ≠ 0 := by rw [← hq]; exact hpid
  have hsig : q.config.killSignal = p.config.killSignal := by rw [← hq]; rfl
  rw [hsig]
  generalize q.sendSignal env .stop p.config.killSignal (w.remove id) = r at hsignalled hw' hsignal ⊢
  simp only [hsignalled]
  -- the whole grace period, up to its deadline
  obtain ⟨hfst, hentry, hloop⟩ := graceLoop_of_stopping (w := r.2.tick env) (P := fun _ => False)
    env hstate ((r.2.tick env).clock + millis q.config.terminateTimeoutMs)
    (loopFuel q.config.terminateTimeoutMs 50)
  have hafter := exited_of_ages hexit (osStep_gracePolls (P := fun _ => False) hstate hw').children
  have hbefore := (r.2.osStep_tick env).trans hloop
  simp only [stopGrace, hfst, Bool.false_eq_true, ↓reduceIte, hentry]
  refine .after hsignal.kills (.after hbefore.kills ?_)
  have hgain := gains_forceKill env .stopEscalation hchild hqpid hafter
  simp only [stopEscalate]
  split
  · exact hgain
  · exact hgain
  · exact hgain.before (osStep_awaitKill (P := fun _ => False)).kills

/-- A batch whose polling loop could have seen the exit kills the exited child. -/
theorem gains_stopMany {ids : List ProcessId} (h : ExitsInBatch env ids p c w) :
    Gains (KilledAfterExit c) w.kills (w.stopMany env ids).2.kills := by
  obtain ⟨s, hs, e, hmem, hp, -, hexit⟩ := h.polled
  let taken := w.stopManyTake env ids
  let signalled := taken.2.stopManySignal env taken.1
  let polled := signalled.2.stopManyPoll env (batchFuel signalled.1) signalled.1
  let escalated := polled.2.stopManyEscalate env polled.1
  have hmarked : ∀ e ∈ signalled.1, e.1.state = .stopping ∧ e.1.pid ≠ 0 := by
    intro e he
    rw [show signalled.1 = _ from map_stopManySignal taken.1 taken.2, List.mem_map] at he
    obtain ⟨e₀, he₀, rfl⟩ := he
    exact ⟨rfl, (mem_stopManyTake he₀).1⟩
  have hstopping : ∀ e ∈ signalled.1, e.1.state = .stopping := fun e he => (hmarked e he).1
  obtain ⟨hsub, hlater⟩ := osStep_batchPolls (P := fun _ => False) hstopping hs
  obtain ⟨hperm, hpoll⟩ := stopManyPoll_of_stopping env (P := fun _ => False)
    (batchFuel signalled.1) hstopping signalled.2
  have hentry : p.markStopping ∈ polled.1 :=
    hp ▸ hperm.mem_iff.mpr (List.mem_map_of_mem (hsub hmem))
  have htake : Grows (fun _ => False) w.kills taken.2.kills := (mapStep_stopManyTake ids w).kills
  have hsignal : OsStep ∅ _ taken.2 signalled.2 := osStep_stopManySignal taken.1 taken.2
  have hescalate : Gains (KilledAfterExit c) polled.2.kills escalated.2.kills :=
    gains_stopManyEscalate hentry h.child (hp ▸ (hmarked e (hsub hmem)).2)
      (exited_of_ages hexit hlater.children)
  have hawait : OsStep _ (fun _ => False) escalated.2 (w.stopManyKill env ids).2 :=
    osStep_awaitAll escalated.1.toReap escalated.2
  rw [stopMany_kills]
  exact .after htake (.after hsignal.kills (.after hpoll.kills (hescalate.before hawait.kills)))

/-- No grace period ever detects an exit: whenever a polling iteration of `stop` or of
`stop_many` runs between the exit of the child and the deadline, `SIGKILL` follows. -/
theorem killed_after_exit (env : Env) (p : Process) (c : ℕ) (w : World) :
    (∀ id, ExitsInGrace env id p c w → Gains (KilledAfterExit c) w.kills (w.stop env id).2.kills) ∧
      ∀ ids, ExitsInBatch env ids p c w → Gains (KilledAfterExit c) w.kills (w.stopMany env ids).2.kills :=
  ⟨fun _ h => gains_stop h, fun _ h => gains_stopMany h⟩

end World

/-! ### A child that exits at its first signal -/

/-- The first child ends by `SIGTERM` right after it was sent. -/
def Env.obedient : Env :=
  { Env.calm with exits := fun n => if n = 3 then [⟨0, .signal 15, 0⟩] else [] }

namespace World

/-- One process, with the default timeout of two seconds. -/
def single : World := (new.start .obedient ⟨"web"⟩ { command := "/bin/web" }).2

/-- The entry of the process. -/
def singleEntry : Process := (single.processes.lookup ⟨1⟩).get (by decide +kernel)

theorem exitsInGrace_single : ExitsInGrace .obedient ⟨1⟩ singleEntry 0 single where
  tracked := (Option.some_get _).symm
  active := by decide +kernel
  child := by decide +kernel
  signalled := by decide +kernel
  polled := by decide +kernel

theorem exitsInBatch_single : ExitsInBatch .obedient [⟨1⟩] singleEntry 0 single where
  child := by decide +kernel
  polled := by decide +kernel

/-- Both ways to stop the process kill it although it obeyed. -/
theorem killed_after_exit_single :
    Gains (KilledAfterExit 0) single.kills (single.stop .obedient ⟨1⟩).2.kills ∧
      Gains (KilledAfterExit 0) single.kills (single.stopMany .obedient [⟨1⟩]).2.kills :=
  ⟨(killed_after_exit _ _ 0 single).1 _ exitsInGrace_single,
    (killed_after_exit _ _ 0 single).2 _ exitsInBatch_single⟩

/-- Forty polls of `stop` come after the exit, and so does the `SIGKILL`. -/
theorem obedient_killed :
    (ExitsInGrace .obedient ⟨1⟩ singleEntry 0 single ∧
      ∃ k ∈ (single.stop .obedient ⟨1⟩).2.kills, KilledAfterExit 0 k) ∧
    (ExitsInBatch .obedient [⟨1⟩] singleEntry 0 single ∧
      ∃ k ∈ (single.stopMany .obedient [⟨1⟩]).2.kills, KilledAfterExit 0 k) :=
  ⟨⟨exitsInGrace_single, by decide +kernel⟩, ⟨exitsInBatch_single, by decide +kernel⟩⟩

end World

end ProcessManager
