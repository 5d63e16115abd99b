import ProcessManager.Manager.Stop

/-! `stop_many` and its callers: one polling loop for a whole batch, then escalation,
then re-insertion of what could not be killed. -/

namespace ProcessManager

namespace World

variable (env : Env)

/-- Remove the batch. Entries with a pid get a deadline; those without are dropped. -/
def stopManyTake : List ProcessId → World → List (Process × Instant) × World
  | [], w => ([], w)
  | id :: ids, w =>
    match w.processes.lookup id with
    | none => stopManyTake ids w
    | some p =>
      if p.pid = 0 then stopManyTake ids (w.remove id)
      else
        let w := (w.remove id).tick env
        let r := stopManyTake ids w
        ((p, w.clock + millis p.config.terminateTimeoutMs) :: r.1, r.2)

/-- Mark every entry as `Stopping` and signal it; failures are only logged. -/
def stopManySignal : List (Process × Instant) → World → List (Process × Instant) × World
  | [], w => ([], w)
  | (p, deadline) :: rest, w =>
    let p := p.markStopping
    let r := stopManySignal rest (p.sendSignal env .stopMany p.config.killSignal w).2
    ((p, deadline) :: r.1, r.2)

/-- The entries after one sweep of the polling loop. -/
structure Sweep where
  escalate : List Process
  waiting : List (Process × Instant)

/-- One sweep: exited entries are dropped, late ones escalate, the rest keep waiting. -/
def stopManySweep (now : Instant) : List (Process × Instant) → World → Sweep × World
  | [], w => (⟨[], []⟩, w)
  | (p, deadline) :: rest, w =>
    let r := p.pollState env w
    if p.isRunning env w then
      let s := stopManySweep now rest r.2
      if deadline ≤ now then (⟨r.1 :: s.1.escalate, s.1.waiting⟩, s.2)
      else (⟨s.1.escalate, (r.1, deadline) :: s.1.waiting⟩, s.2)
    else stopManySweep now rest (r.1.joinReaders env r.2)

/-- The polling loop; the result is the entries that have to be killed. -/
def stopManyPoll : ℕ → List (Process × Instant) → World → List Process × World
  | 0, entries, w => (entries.map Prod.fst, w)
  | fuel + 1, entries, w =>
    if entries = [] then ([], w)
    else
      let w := w.tick env
      let s := w.stopManySweep env w.clock entries
      let r := stopManyPoll fuel s.1.waiting
        (if s.1.waiting = [] then s.2 else s.2.sleep env (millis 50))
      (s.1.escalate ++ r.1, r.2)

structure Escalation where
  toReap : List Process
  toReinsert : List Process
  errors : List ManagerError

/-- `SIGKILL` for every entry in turn. -/
def stopManyEscalate : List Process → World → Escalation × World
  | [], w => (⟨[], [], []⟩, w)
  | p :: rest, w =>
    let r := p.forceKill env .stopManyEscalation w
    match r.1 with
    | none =>
      let s := stopManyEscalate rest r.2
      (⟨p :: s.1.toReap, s.1.toReinsert, s.1.errors⟩, s.2)
    | some .esrch =>
      let s := stopManyEscalate rest (p.joinReaders env r.2)
      (⟨p :: s.1.toReap, s.1.toReinsert, s.1.errors⟩, s.2)
    | some e =>
      let s := stopManyEscalate rest r.2
      (⟨s.1.toReap, p :: s.1.toReinsert, .signalFailed p.pid e :: s.1.errors⟩, s.2)

/-- Put the entries that could not be killed back as `Failed`. -/
def stopManyReinsert (entries : List Process) (w : World) : World :=
  entries.foldl (fun w p => w.insert env p.id { p with state := .failed }) w

def batchFuel (entries : List (Process × Instant)) : ℕ :=
  loopFuel (entries.map fun e => e.1.config.terminateTimeoutMs).sum 50

/-- `stop_many` up to the re-insertion. -/
def stopManyKill (ids : List ProcessId) (w : World) : Escalation × World :=
  let taken := w.stopManyTake env ids
  let signalled := taken.2.stopManySignal env taken.1
  let polled := signalled.2.stopManyPoll env (batchFuel signalled.1) signalled.1
  let escalated := polled.2.stopManyEscalate env polled.1
  (escalated.1, escalated.1.toReap.foldl (fun w p => w.awaitKill env p) escalated.2)

/-- `ProcessManager::stop_many` -/
def stopMany (ids : List ProcessId) (w : World) : Except ManagerError Unit × World :=
  let r := w.stopManyKill env ids
  (if r.1.errors.isEmpty then .ok () else .error (.stopMany r.1.errors),
    r.2.stopManyReinsert env r.1.toReinsert)

def stopLabel (label : Label) (w : World) : Except ManagerError Unit × World :=
  w.stopMany env (w.labelMembers label)

def stopTerminateOnExit (w : World) : World :=
  (w.stopMany env (w.processes.keysWhere fun p => p.terminateOnExit)).2

def stopAll (w : World) : World := (w.stopMany env w.processes.keys).2

/-- `Drop for ProcessManager`: the reaper is joined first. -/
def drop (w : World) : World :=
  stopTerminateOnExit env { w with reaper := if w.reaper = .absent then .absent else .returned }

/-! ### What a batch changes -/

variable {env} {w w₀ : World} {P : KillCall → Prop} {ids : List ProcessId} {Q : Process → Prop}

theorem stopManyTake_lookup (ids : List ProcessId) (w : World) (id : ProcessId) :
    (w.stopManyTake env ids).2.processes.lookup id =
      if id ∈ ids then none else w.processes.lookup id := by
  induction ids generalizing w with
  | nil => simp [stopManyTake]
  | cons i ids ih =>
    cases hp : w.processes.lookup i with
    | none =>
      simp only [stopManyTake, hp, ih]
      by_cases hi : id = i
      · subst hi; simp [hp]
      · simp [hi]
    | some p =>
      by_cases hpid : p.pid = 0 <;> simp only [stopManyTake, hp, hpid, ↓reduceIte, ih,
        tick_processes, remove_processes, AssocMap.lookup_erase_eq] <;>
      by_cases hi : id = i <;> simp [hi]

/-- The batch holds entries of `ids` that have a pid. -/
theorem mem_stopManyTake {e : Process × Instant} (he : e ∈ (w.stopManyTake env ids).1) :
    e.1.pid ≠ 0 ∧ ∃ id ∈ ids, w.processes.lookup id = some e.1 := by
  induction ids generalizing w with
  | nil => simp [stopManyTake] at he
  | cons i ids ih =>
    have hlift : ∀ w' : World, w'.processes = (w.remove i).processes →
        e ∈ (w'.stopManyTake env ids).1 →
        e.1.pid ≠ 0 ∧ ∃ id ∈ i :: ids, w.processes.lookup id = some e.1 := by
      intro w' hw' he'
      obtain ⟨hpid, id, hid, hlookup⟩ := ih he'
      rw [hw', remove_processes, AssocMap.lookup_erase_eq] at hlookup
      split_ifs at hlookup
      exact ⟨hpid, id, by simp [hid], hlookup⟩
    cases hp : w.processes.lookup i with
    | none =>
      simp only [stopManyTake, hp] at he
      obtain ⟨hpid, id, hid, hlookup⟩ := ih he
      exact ⟨hpid, id, by simp [hid], hlookup⟩
    | some p =>
      by_cases hpid : p.pid = 0 <;> simp only [stopManyTake, hp, hpid, ↓reduceIte] at he
      · exact hlift _ rfl he
      · rcases List.mem_cons.mp he with rfl | he
        · exact ⟨hpid, i, by simp, hp⟩
        · exact hlift ((w.remove i).tick env) rfl he

theorem mapStep_stopManyTake (ids : List ProcessId) (w : World) :
    MapStep Kept ∅ P w (w.stopManyTake env ids).2 := by
  have htrans : ∀ {w₁ w₂ w₃ : World}, MapStep Kept ∅ P w₁ w₂ → MapStep Kept ∅ P w₂ w₃ →
      MapStep Kept ∅ P w₁ w₃ := MapStep.trans fun _ _ _ _ h h' => h'.trans h
  induction ids generalizing w with
  | nil => exact .of_osStep (fun _ _ => rfl) (.refl w)
  | cons id ids ih =>
    cases hp : w.processes.lookup id with
    | none =>
      simp only [stopManyTake, hp]
      exact ih w
    | some p =>
      have hremove : MapStep Kept ∅ P w (w.remove id) := .remove id w
      by_cases hpid : p.pid = 0 <;> simp only [stopManyTake, hp, hpid, ↓reduceIte]
      · exact htrans hremove (ih _)
      · exact htrans hremove (htrans (.of_osStep (fun _ _ => rfl) (osStep_tick env _)) (ih _))

/-- The entries after signalling are those before it, marked. -/
theorem map_stopManySignal (entries : List (Process × Instant)) (w : World) :
    (w.stopManySignal env entries).1 = entries.map fun e => (e.1.markStopping, e.2) := by
  induction entries generalizing w with
  | nil => rfl
  | cons e entries ih => rw [stopManySignal, ih]; rfl

theorem osStep_stopManySignal (entries : List (Process × Instant)) (w : World) :
    OsStep ∅ (fun k => ∃ e ∈ entries, KillsFrom e.1 w k) w (w.stopManySignal env entries).2 := by
  induction entries generalizing w with
  | nil => exact .refl w
  | cons e entries ih =>
    have hsignal : OsStep ∅ (KillsFrom e.1 w) w
        (e.1.markStopping.sendSignal env .stopMany e.1.config.killSignal w).2 := by
      rw [← killsFrom_markStopping]
      exact Process.osStep_sendSignal
    refine (hsignal.mono subset_rfl fun k hk => ⟨e, by simp, hk⟩).trans ?_
    refine (ih _).mono subset_rfl ?_
    rintro k ⟨e', he', hk⟩
    exact ⟨e', by simp [he'], hk.earlier hsignal.children⟩

/-- A sweep over entries in `Stopping` polls nobody and loses nobody. -/
theorem stopManySweep_of_stopping (env : Env) (now : Instant) {entries : List (Process × Instant)}
    (h : ∀ e ∈ entries, e.1.state = .stopping) (w : World) :
    (w.stopManySweep env now entries).2 = w ∧
      (w.stopManySweep env now entries).1.escalate =
        (entries.filter fun e => e.2 ≤ now).map Prod.fst ∧
      (w.stopManySweep env now entries).1.waiting = entries.filter fun e => now < e.2 := by
  induction entries generalizing w with
  | nil => exact ⟨rfl, rfl, rfl⟩
  | cons e entries ih =>
    have hp : e.1.state = .stopping := h e (by simp)
    have hpoll : e.1.pollState env w = (e.1, w) :=
      Process.pollState_of_settled (by simp [hp]) (by simp [hp])
    obtain ⟨hw, hescalate, hwaiting⟩ := ih (fun e' he' => h e' (by simp [he'])) w
    simp only [stopManySweep, isRunning_of_stopping hp, hpoll, ↓reduceIte]
    split_ifs with hnow
    · exact ⟨hw, by simp [hescalate, hnow], by simp [hwaiting, hnow]⟩
    · exact ⟨hw, by simp [hescalate, hnow], by simp [hwaiting, not_le.mp hnow]⟩

/-- The polling loop of entries in `Stopping` never sees an exit: every one of them is
handed on to be killed. -/
theorem stopManyPoll_of_stopping (env : Env) (fuel : ℕ) {entries : List (Process × Instant)}
    (h : ∀ e ∈ entries, e.1.state = .stopping) (w : World) :
    (w.stopManyPoll env fuel entries).1.Perm (entries.map Prod.fst) ∧
      OsStep ∅ P w (w.stopManyPoll env fuel entries).2 := by
  induction fuel generalizing entries w with
  | zero => exact ⟨.refl _, .refl w⟩
  | succ fuel ih =>
    unfold stopManyPoll
    split_ifs with hnil
    · exact ⟨by simp [hnil], .refl w⟩
    · have htick : OsStep ∅ P w (w.tick env) := osStep_tick env w
      obtain ⟨hw, hescalate, hwaiting⟩ :=
        stopManySweep_of_stopping env (w.tick env).clock h (w.tick env)
      have hwait : ∀ e ∈ entries.filter fun e => (w.tick env).clock < e.2, e.1.state = .stopping :=
        fun e he => h e (List.mem_of_mem_filter he)
      have hperm : ((entries.filter fun e => e.2 ≤ (w.tick env).clock).map Prod.fst ++
          (entries.filter fun e => (w.tick env).clock < e.2).map Prod.fst).Perm
            (entries.map Prod.fst) := by
        rw [← List.map_append]
        have hnot : (fun e : Process × Instant => decide ((w.tick env).clock < e.2)) =
            fun e => !decide (e.2 ≤ (w.tick env).clock) := by
          funext e
          simp only [← decide_not, not_le]
        rw [hnot]
        exact (List.filter_append_perm _ entries).map _
      simp only [hw, hescalate, hwaiting]
      refine ⟨((ih hwait _).1.append_left _).trans hperm, htick.trans (.trans ?_ (ih hwait _).2)⟩
      split_ifs
      · exact .refl _
      · exact osStep_sleep env _ _

/-- What `SIGKILL` sorts an entry into. -/
theorem mem_stopManyEscalate {entries : List Process} {w : World} {p : Process}
    (hp : p ∈ (w.stopManyEscalate env entries).1.toReap ∨
      p ∈ (w.stopManyEscalate env entries).1.toReinsert) : p ∈ entries := by
  induction entries generalizing w with
  | nil => simp [stopManyEscalate] at hp
  | cons q entries ih =>
    simp only [stopManyEscalate] at hp
    split at hp <;> simp only [List.mem_cons] at hp ⊢
    · rcases hp with (hp | hp) | hp
      · exact .inl hp
      · exact .inr (ih (.inl hp))
      · exact .inr (ih (.inr hp))
    · rcases hp with (hp | hp) | hp
      · exact .inl hp
      · exact .inr (ih (.inl hp))
      · exact .inr (ih (.inr hp))
    · rcases hp with hp | hp | hp
      · exact .inr (ih (.inl hp))
      · exact .inl hp
      · exact .inr (ih (.inr hp))

theorem osStep_stopManyEscalate (env : Env) (entries : List Process) (w : World) :
    OsStep ∅ (fun k => ∃ p ∈ entries, KillsFrom p w k) w (w.stopManyEscalate env entries).2 := by
  induction entries generalizing w with
  | nil => exact .refl w
  | cons p entries ih =>
    have hkill : OsStep ∅ (KillsFrom p w) w (p.forceKill env .stopManyEscalation w).2 :=
      Process.osStep_forceKill
    have hhead : OsStep ∅ (fun k => ∃ q ∈ p :: entries, KillsFrom q w k) w
        (p.forceKill env .stopManyEscalation w).2 :=
      hkill.mono subset_rfl fun k hk => ⟨p, by simp, hk⟩
    have hrest : ∀ w', Ages ∅ w.children w'.children →
        OsStep ∅ (fun k => ∃ q ∈ p :: entries, KillsFrom q w k) w'
          (w'.stopManyEscalate env entries).2 := by
      intro w' hw'
      refine (ih w').mono subset_rfl ?_
      rintro k ⟨q, hq, hk⟩
      exact ⟨q, by simp [hq], hk.earlier hw'⟩
    simp only [stopManyEscalate]
    split
    · exact hhead.trans (hrest _ hkill.children)
    · have hjoin := hhead.trans (Process.osStep_joinReaders env p)
      exact hjoin.trans (hrest _ hjoin.children)
    · exact hhead.trans (hrest _ hkill.children)

theorem osStep_awaitAll (entries : List Process) (w : World) :
    OsStep {c | ∃ p ∈ entries, p.child = some c} P w
      (entries.foldl (fun w p => w.awaitKill env p) w) := by
  induction entries generalizing w with
  | nil => exact .refl w
  | cons p entries ih =>
    refine (osStep_awaitKill.mono ?_ fun _ h => h).trans ((ih _).mono ?_ fun _ h => h)
    · exact fun c hc => ⟨p, by simp, hc⟩
    · rintro c ⟨q, hq, hc⟩
      exact ⟨q, by simp [hq], hc⟩

theorem stopManyReinsert_lookup {entries : List Process} {w : World} {id : ProcessId} {p' : Process}
    (h : (w.stopManyReinsert env entries).processes.lookup id = some p') :
    w.processes.lookup id = some p' ∨
      ∃ p ∈ entries, p.id = id ∧ p' = { p with state := .failed } := by
  unfold stopManyReinsert at h
  induction entries generalizing w with
  | nil => exact .inl h
  | cons p entries ih =>
    rcases ih h with h | ⟨q, hq, hid, rfl⟩
    · rw [insert_processes, AssocMap.lookup_reorder, AssocMap.lookup_insert_eq] at h
      split_ifs at h with hid
      · exact .inr ⟨p, by simp, hid.symm, (Option.some.inj h).symm⟩
      · exact .inl h
    · exact .inr ⟨q, by simp [hq], hid, rfl⟩

theorem stopManyReinsert_eq (entries : List Process) (w : World) :
    w.stopManyReinsert env entries =
      { w with processes := (w.stopManyReinsert env entries).processes } := by
  unfold stopManyReinsert
  induction entries generalizing w with
  | nil => rfl
  | cons p entries ih => rw [List.foldl_cons, ih]; rfl

/-- The handles a batch takes over. -/
def batchHandles (ids : List ProcessId) (w : World) : Set ℕ :=
  {c | ∃ id ∈ ids, ∃ p, w.processes.lookup id = some p ∧ p.child = some c}

/-- A `kill` call for an entry of a batch. -/
def KillsBatch (ids : List ProcessId) (w : World) (k : KillCall) : Prop :=
  ∃ id ∈ ids, ∃ p, w.processes.lookup id = some p ∧ KillsFrom p w k

/-- The entries a batch signals: taken from `ids`, marked, with a pid. -/
def BatchEntry (ids : List ProcessId) (w : World) (q : Process) : Prop :=
  ∃ id ∈ ids, ∃ p, w.processes.lookup id = some p ∧ p.pid ≠ 0 ∧ q = p.markStopping

/-- `stop_many` up to the re-insertion: the batch is gone from the map, only its members
were signalled and waited for, and what comes back was a member. -/
theorem stopManyKill_spec (env : Env) (ids : List ProcessId) (w : World) :
    MapStep Kept (w.batchHandles ids) (w.KillsBatch ids) w (w.stopManyKill env ids).2 ∧
      (∀ id, (w.stopManyKill env ids).2.processes.lookup id =
        if id ∈ ids then none else w.processes.lookup id) ∧
      ∀ q ∈ (w.stopManyKill env ids).1.toReinsert, w.BatchEntry ids q := by
  let taken := w.stopManyTake env ids
  let signalled := taken.2.stopManySignal env taken.1
  let polled := signalled.2.stopManyPoll env (batchFuel signalled.1) signalled.1
  let escalated := polled.2.stopManyEscalate env polled.1
  have htake : MapStep Kept ∅ (w.KillsBatch ids) w taken.2 := mapStep_stopManyTake ids w
  have hmember : ∀ e ∈ signalled.1, w.BatchEntry ids e.1 ∧ e.1.state = .stopping := by
    intro e he
    rw [show signalled.1 = _ from map_stopManySignal taken.1 taken.2, List.mem_map] at he
    obtain ⟨e₀, he₀, rfl⟩ := he
    obtain ⟨hpid, id, hid, hlookup⟩ := mem_stopManyTake he₀
    exact ⟨⟨id, hid, e₀.1, hlookup, hpid, rfl⟩, rfl⟩
  have hsignal : OsStep ∅ (w.KillsBatch ids) taken.2 signalled.2 := by
    refine (osStep_stopManySignal taken.1 taken.2).mono subset_rfl ?_
    rintro k ⟨e, he, hk⟩
    obtain ⟨_, id, hid, hlookup⟩ := mem_stopManyTake he
    exact ⟨id, hid, e.1, hlookup, hk.earlier htake.children⟩
  have hpoll := stopManyPoll_of_stopping env (P := w.KillsBatch ids)
    (batchFuel signalled.1) (fun e he => (hmember e he).2) signalled.2
  have hpolled : ∀ q ∈ polled.1, w.BatchEntry ids q := by
    intro q hq
    obtain ⟨e, he, rfl⟩ := List.mem_map.mp (hpoll.1.mem_iff.mp hq)
    exact (hmember e he).1
  have hbefore : OsStep ∅ (w.KillsBatch ids) taken.2 polled.2 := hsignal.trans hpoll.2
  have hescalate : OsStep ∅ (w.KillsBatch ids) polled.2 escalated.2 := by
    refine (osStep_stopManyEscalate env polled.1 polled.2).mono subset_rfl ?_
    rintro k ⟨q, hq, hk⟩
    obtain ⟨id, hid, p, hlookup, _, rfl⟩ := hpolled q hq
    rw [killsFrom_markStopping] at hk
    exact ⟨id, hid, p, hlookup, hk.earlier (htake.children.trans hbefore.children)⟩
  have hreap : OsStep (w.batchHandles ids) (w.KillsBatch ids) escalated.2
      (escalated.1.toReap.foldl (fun w p => w.awaitKill env p) escalated.2) := by
    refine (osStep_awaitAll escalated.1.toReap escalated.2).mono ?_ fun _ h => h
    rintro c ⟨q, hq, hc⟩
    obtain ⟨id, hid, p, hlookup, _, rfl⟩ := hpolled q (mem_stopManyEscalate (.inl hq))
    exact ⟨id, hid, p, hlookup, hc⟩
  have hafter : OsStep (w.batchHandles ids) (w.KillsBatch ids) taken.2 (w.stopManyKill env ids).2 :=
    ((hbefore.trans hescalate).mono (Set.empty_subset _) fun _ h => h).trans hreap
  refine ⟨?_, ?_, ?_⟩
  · exact (htake.mono (fun _ _ _ h => h) (Set.empty_subset _) fun _ h => h).trans
      (fun _ _ _ _ h h' => h'.trans h) (.of_osStep (fun _ _ => rfl) hafter)
  · intro id
    rw [hafter.processes]
    exact stopManyTake_lookup ids w id
  · exact fun q hq => hpolled q (mem_stopManyEscalate (.inr hq))

theorem stopMany_kills (ids : List ProcessId) (w : World) :
    (w.stopMany env ids).2.kills = (w.stopManyKill env ids).2.kills := by
  rw [stopMany, stopManyReinsert_eq]

/-- What `stop_many` leaves of an entry: those outside the batch stay, and a member is
gone or back as `Failed`. -/
def BatchLeft (env : Env) (ids : List ProcessId) (w : World) (id : ProcessId) (p p' : Process) :
    Prop :=
  (id ∉ ids ∧ p' = p) ∨ (id ∈ ids ∧ p' = { p with state := .failed } ∧
    p.markStopping ∈ (w.stopManyKill env ids).1.toReinsert)

theorem mapStep_stopMany (hkey : ∀ id p, w.processes.lookup id = some p → p.id = id)
    (ids : List ProcessId) :
    MapStep (BatchLeft env ids w) (w.batchHandles ids) (w.KillsBatch ids) w (w.stopMany env ids).2 := by
  obtain ⟨hkill, hlookup, hback⟩ := stopManyKill_spec env ids w
  have heq : (w.stopMany env ids).2 = _ :=
    stopManyReinsert_eq (w.stopManyKill env ids).1.toReinsert (w.stopManyKill env ids).2
  have hprocesses : AssocMap.Refines (BatchLeft env ids w) w.processes
      ((w.stopManyKill env ids).2.stopManyReinsert env
        (w.stopManyKill env ids).1.toReinsert).processes := by
    intro id p' hp'
    rcases stopManyReinsert_lookup hp' with hp' | ⟨q, hq, hid, rfl⟩
    · rw [hlookup] at hp'
      split_ifs at hp' with hid
      exact ⟨p', hp', .inl ⟨hid, rfl⟩⟩
    · obtain ⟨id', hid', p, hp, _, rfl⟩ := hback q hq
      have hsame : id' = id := (hkey id' p hp).symm.trans hid
      subst hsame
      exact ⟨p, hp, .inr ⟨hid', rfl, hq⟩⟩
  rw [heq]
  exact { hkill with processes := hprocesses }

end World

end ProcessManager
