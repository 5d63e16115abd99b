import ProcessManager.Reaper.ExitsFound
import ProcessManager.System.Watched

/-! Phase 1 in two worlds of which the second has seen more queries. Both find the same
exits, and after it the entries whose exits were not found are the same again. -/

namespace ProcessManager

variable {env : Env} {now : Instant} {w w' : World} {id : ProcessId} {p p' : Process} {status : ExitStatus} {c : ℕ}

/-! ### One entry -/

namespace Process

/-- An exit after which the process is to be restarted, within its limit. -/
def asksRestart (p : Process) (status : ExitStatus) : Bool :=
  if p.cascadeFlag then p.config.restartOnExit else p.restartTriggered status

theorem Copy.stableUptime (h : p.Copy p') (now : Instant) : (p.stableUptime now).Copy (p'.stableUptime now) := by
  have htimes : ∀ q : Process, (q.stableUptime now).restartState.map RestartState.times =
      q.restartState.map RestartState.times := by
    intro q
    have hcheck : ∀ (rs : RestartState) (b : BackoffConfig), (rs.checkStableUptime b now).times = rs.times := by
      intro rs b
      unfold RestartState.checkStableUptime
      split
      · split_ifs <;> rfl
      · rfl
    unfold Process.stableUptime
    split_ifs
    · split
      · next rs b hrs _ => simp only [hrs, Option.map_some, hcheck]
      · rfl
    · rfl
  rw [stableUptime_eq now p, stableUptime_eq now p']
  exact { h with times := (htimes p').trans (h.times.trans (htimes p).symm) }

theorem Watched.stableUptime (h : p.Watched p') (now : Instant) :
    (p.stableUptime now).Watched (p'.stableUptime now) where
  toCopy := h.toCopy.stableUptime now
  state := by
    simp only [Process.stableUptime_state, Process.Active]
    exact h.state

theorem Copy.restartTriggered (h : p.Copy p') (status : ExitStatus) :
    p'.restartTriggered status = p.restartTriggered status := by
  rw [Process.restartTriggered, Process.restartTriggered, h.config]

theorem Copy.exitState (h : p.Copy p')
    (hcounter : p.restartTriggered status = true → p'.restartState = p.restartState) :
    p'.exitState status = p.exitState status := by
  unfold Process.exitState
  rw [h.restartTriggered]
  cases htriggered : p.restartTriggered status with
  | false => rfl
  | true => rw [rateLimited, rateLimited, hcounter htriggered, h.config]

theorem Watched.afterExit (h : p.Watched p') (now : Instant) : (p.afterExit now).Watched (p'.afterExit now) :=
  { h.stableUptime now with cascadeFlag := rfl }

theorem afterPoll_eq (now : Instant) (p : Process) : p.afterPoll now =
    { p.stableUptime now with state := if p.state = .starting then .running else p.state } := by
  unfold Process.afterPoll
  split_ifs
  · rfl
  · rw [← stableUptime_state now p]

/-- A poll that finds no exit gives a process that is not outlived the same state twice. -/
theorem Watched.afterPoll (h : p.Watched p') (hnot : ¬ p.Outlived p') (now : Instant) :
    (p.afterPoll now).Mirrors (p'.afterPoll now) where
  toCopy := by
    rw [afterPoll_eq, afterPoll_eq]
    exact { (h.stableUptime now).toCopy with }
  state := by
    rw [afterPoll_eq, afterPoll_eq]
    obtain heq | ⟨hactive, hrunning | hterminated⟩ := h.state
    · simp only [heq]
    · obtain hstate | hstate := hactive <;> simp [hstate, hrunning]
    · exact absurd ⟨hactive, hterminated⟩ hnot

theorem asksRestart_stableUptime (now : Instant) (p : Process) (status : ExitStatus) :
    (p.stableUptime now).asksRestart status = p.asksRestart status := by
  simp only [asksRestart, Process.restartTriggered, stableUptime_cascadeFlag, stableUptime_config]

/-- Only exits that ask for a restart are recorded as such. -/
theorem asksRestart_of_record (h : (p.record status).restartConfig ≠ none) : p.asksRestart status = true := by
  unfold Process.record at h
  unfold asksRestart
  split_ifs at h ⊢
  · by_contra hno
    exact h (by simp only [cascadeRecord, hno, Bool.false_eq_true, ↓reduceIte])
  · by_contra hno
    exact h (by simp only [exitRecord, willRestart, hno, Bool.false_and, Bool.false_eq_true, ↓reduceIte])

theorem Copy.record (h : p.Copy p') (hcounter : p.asksRestart status = true → p'.restartState = p.restartState) :
    p'.record status = p.record status := by
  unfold Process.record asksRestart at *
  rw [h.cascadeFlag]
  split_ifs at hcounter ⊢ with hflag
  · simp only [cascadeRecord, h.id, h.label, h.pid, h.config]
  · have hwill : p'.willRestart status = p.willRestart status := by
      rw [willRestart, willRestart, h.restartTriggered, h.exitState hcounter]
    simp only [exitRecord, hwill, h.exitState hcounter, h.id, h.label, h.pid, h.config]

end Process

/-- An exit has the same consequences where the counters that count agree. -/
theorem Exits.add_eq (x : Exits) (h : p.Copy p')
    (hcounter : p.asksRestart status = true → p'.restartState = p.restartState) :
    x.add p' status = x.add p status := by
  have hrecord := h.record hcounter
  unfold Process.record at hrecord
  unfold Process.asksRestart at hcounter
  unfold Exits.add
  rw [h.cascadeFlag] at hrecord ⊢
  by_cases hflag : p.cascadeFlag = true
  · rw [if_pos hflag, if_pos hflag] at hrecord
    rw [if_pos hflag, if_pos hflag, hrecord, h.config, h.id]
  · rw [if_neg hflag] at hcounter
    rw [if_neg hflag, if_neg hflag] at hrecord
    have hstate := h.exitState hcounter
    have hwill : p'.willRestart status = p.willRestart status := by
      rw [Process.willRestart, Process.willRestart, h.restartTriggered, hstate]
    have horigin : p'.cascadeOrigin = p.cascadeOrigin := by
      rw [Process.cascadeOrigin, Process.cascadeOrigin, h.id, h.label, h.spawnSequence, h.config]
    rw [if_neg hflag, if_neg hflag, hrecord, hstate, hwill, horigin, h.restartTriggered, h.config, h.id]

/-! ### One `try_wait` -/

namespace World

/-- The exit of this child was collected, and `try_wait` works in the world that did not do so. -/
def ReapedFirst (env : Env) (w w' : World) (c : ℕ) : Prop :=
  env.waitFails w.ticks = false ∧ ∃ ch, w'.children[c]? = some ch ∧ ch.isReaped = true

theorem exists_child {E : ProcessId → Process → Process → Prop} {C : OsChild → OsChild → Prop} {ch' : OsChild}
    (h : Alike E C w w') (hch' : w'.children[c]? = some ch') :
    ∃ ch, w.children[c]? = some ch ∧ C ch ch' := by
  have hlt : c < w.children.length := h.length ▸ (List.getElem?_eq_some_iff.mp hch').1
  exact ⟨_, List.getElem?_eq_getElem hlt, h.child c _ _ (List.getElem?_eq_getElem hlt) hch'⟩

/-- An exit that was collected is found again. -/
theorem waitResult_reaped {ch : OsChild} (env : Env) (hch : w.children[c]? = some ch) (hreaped : ch.isReaped = true) :
    ∃ status, w.waitResult env c = .exited status := by
  obtain ⟨ch', hch', hage⟩ := w.ages_tick env c ch hch
  obtain rfl : ch' = ch := hage.final hreaped
  unfold waitResult
  rw [hch']
  cases hstatus : ch'.status with
  | running => simp [OsChild.isReaped, hstatus] at hreaped
  | exited s t => simp [OsChild.isReaped, hstatus] at hreaped
  | reaped s t => exact ⟨s, by simp only [hstatus]⟩

/-- `try_wait` finds an exit that was collected in the second world. -/
theorem ReapedFirst.waitResult {E : ProcessId → Process → Process → Prop} (h : ReapedFirst env w w' c)
    (halike : Alike E OsChild.Watched w w') :
    ∃ status, w.waitResult env c = .exited status ∧ w'.waitResult env c = .exited status := by
  obtain ⟨hworks, ch₀, hch₀, hreaped₀⟩ := h
  obtain ⟨ch', hch', hage⟩ := w'.ages_tick env c ch₀ hch₀
  obtain rfl : ch' = ch₀ := hage.final hreaped₀
  obtain ⟨ch, hch, hwatched⟩ := exists_child (halike.tick OsChild.stable_watched env) hch'
  obtain ⟨pid', status'⟩ := ch'
  cases status' with
  | running => cases hreaped₀
  | exited s t => cases hreaped₀
  | reaped s t =>
    refine ⟨s, ?_, by simp only [World.waitResult, hch']⟩
    obtain heq | heq := hwatched
    · simp only [World.waitResult, hch, ← heq]
    · obtain ⟨pid, status⟩ := ch
      cases status with
      | running => cases heq
      | exited s' t' =>
        cases heq
        simp only [World.waitResult, hch, hworks, Bool.false_eq_true, ↓reduceIte]
      | reaped s' t' =>
        cases heq
        simp only [World.waitResult, hch]

/-- After `try_wait` has found an exit, the child is the same in both worlds. -/
theorem child_eq_of_exited {E : ProcessId → Process → Process → Prop} (halike : Alike E OsChild.Watched w w')
    (h : w.waitResult env c = .exited status) (h' : w'.waitResult env c = .exited status) :
    (w'.tryWait env c).children[c]? = (w.tryWait env c).children[c]? := by
  have htick := halike.tick OsChild.stable_watched env
  simp only [World.tryWait, h, h', List.getElem?_modify, ↓reduceIte]
  cases hch' : (w'.tick env).children[c]? with
  | none =>
    have hlt : (w'.tick env).children.length ≤ c := List.getElem?_eq_none_iff.mp hch'
    rw [List.getElem?_eq_none (htick.length ▸ hlt)]
  | some ch' =>
    obtain ⟨ch, hch, hwatched⟩ := exists_child htick hch'
    rw [hch, Option.map_eq_map, Option.map_some, Option.map_some, hwatched.reap_eq]

/-- Both worlds look at the child of related entries and find the same. -/
theorem Alike.tryWaitExit {E : ProcessId → Process → Process → Prop} (env : Env)
    (h : Alike E OsChild.Watched w w') (hchild : p'.child = p.child)
    (hsame : ∀ c, p.child = some c → w'.children[c]? = w.children[c]? ∨ ReapedFirst env w w' c) :
    (p'.tryWaitExit env w').1 = (p.tryWaitExit env w).1 ∧
      Alike E OsChild.Watched (p.tryWaitExit env w).2 (p'.tryWaitExit env w').2 ∧
      (∀ k : ℕ, w'.children[k]? = w.children[k]? ∨ p.child = some k →
        (p'.tryWaitExit env w').2.children[k]? = (p.tryWaitExit env w).2.children[k]?) ∧
      ∀ (c : ℕ) (ch : OsChild), p.child = some c → w'.children[c]? = some ch → ch.isReaped = true →
        (p.tryWaitExit env w).1 ≠ none := by
  rcases Option.eq_none_or_eq_some p.child with hc | ⟨c, hc⟩
  · rw [Process.tryWaitExit_of_no_child hc, Process.tryWaitExit_of_no_child (hchild.trans hc)]
    refine ⟨rfl, h, fun k hk => hk.resolve_right fun hk => ?_, fun c _ hc' => ?_⟩
    · rw [hc] at hk
      cases hk
    · rw [hc] at hc'
      cases hc'
  · have hresult : w'.waitResult env c = w.waitResult env c := by
      obtain heq | hreaped := hsame c hc
      · exact h.waitResult env heq
      · obtain ⟨status, hr, hr'⟩ := hreaped.waitResult h
        rw [hr, hr']
    rw [Process.tryWaitExit_of_child hc, Process.tryWaitExit_of_child (hchild.trans hc)]
    refine ⟨by rw [hresult], h.tryWait OsChild.stable_watched (fun _ _ h => h.reap) env hresult, fun k hk => ?_,
      fun k ch hk hch hreaped => ?_⟩
    · by_cases heq : w'.children[k]? = w.children[k]?
      · exact h.tryWait_child_eq hresult heq
      · obtain rfl : c = k := Option.some.inj (hc.symm.trans (hk.resolve_left heq))
        obtain ⟨status, hr, hr'⟩ := ((hsame c hc).resolve_left heq).waitResult h
        exact child_eq_of_exited h hr hr'
    · obtain rfl : c = k := Option.some.inj (hc.symm.trans hk)
      obtain ⟨status, hr⟩ := waitResult_reaped env hch hreaped
      rw [← hresult, hr]
      exact Option.some_ne_none status

/-- A visit of a tracked entry that is not `Restarting`. -/
theorem phase1Visit_eq (x : Exits) (hp : w.processes.lookup id = some p) (hstate : p.state ≠ .restarting) :
    phase1Visit env now id (x, w) = match (p.tryWaitExit env (w.lock .exclusive id)).1 with
      | some status => (x.add (p.stableUptime now) status,
          ((p.tryWaitExit env (w.lock .exclusive id)).2.put id (p.afterExit now)).unlock .exclusive id)
      | none => (x, ((p.tryWaitExit env (w.lock .exclusive id)).2.put id (p.afterPoll now)).unlock .exclusive id) := by
  have htry : (p.stableUptime now).tryWaitExit env (w.lock .exclusive id) =
      p.tryWaitExit env (w.lock .exclusive id) := by
    rw [Process.tryWaitExit, Process.tryWaitExit, Process.stableUptime_child]
  unfold phase1Visit
  cases hresult : (p.tryWaitExit env (w.lock .exclusive id)).1 <;>
    simp only [lock_processes, hp, hstate, ↓reduceIte, htry, hresult, Process.stableUptime_state,
      Process.afterExit, Process.afterPoll]

theorem exitFound_of_tracked (env : Env) (hp : w.processes.lookup id = some p) (hstate : p.state ≠ .restarting) :
    w.exitFound env id = (p.tryWaitExit env (w.lock .exclusive id)).1.map fun status => (p, status) := by
  simp only [exitFound, hp, hstate, ↓reduceIte]
  rcases Option.eq_none_or_eq_some p.child with hc | ⟨c, hc⟩
  · rw [hc, Process.tryWaitExit_of_no_child hc]
    rfl
  · rw [hc, Process.tryWaitExit_of_child hc]

/-! ### Both worlds -/

/-- `try_wait` does not fail on a child whose exit only a query has collected, and if the process
is to be restarted, the uptime check gives the same counter in both worlds. -/
def VisitAgrees (env : Env) (now : Instant) (w w' : World) (id : ProcessId) : Prop :=
  ∀ p ∈ w.processes.lookup id, ∀ p' ∈ w'.processes.lookup id,
    (∀ c ∈ p.child, env.waitFails w.ticks = true → w'.children[c]? = w.children[c]?) ∧
      ∀ r ∈ w.exitFound env id, p.asksRestart r.2 = true →
        (p'.stableUptime now).restartState = (p.stableUptime now).restartState

instance (w w' : World) (id : ProcessId) : Decidable (VisitAgrees env now w w' id) :=
  inferInstanceAs (Decidable (∀ p ∈ w.processes.lookup id, ∀ p' ∈ w'.processes.lookup id,
    (∀ c ∈ p.child, _ → _) ∧ ∀ r ∈ w.exitFound env id, _ → _))

end World

/-- The entries differ only where an exit was found, and then not in the counter if it is used. -/
structure Process.Settled (exited : List ExitedProcess) (id : ProcessId) (p p' : Process) : Prop where
  state : p'.state = p.state ∨ ∃ e ∈ exited, e.id = id
  counter : ∀ e ∈ exited, e.id = id → e.restartConfig ≠ none → p'.restartState = p.restartState

/-- An entry in the middle of Phase 1, with `rest` still to visit. -/
structure Process.Midway (rest : List ProcessId) (exited : List ExitedProcess) (id : ProcessId) (p p' : Process) :
    Prop where
  key : p'.id = id
  watched : p.Watched p'
  settled : id ∉ rest → Process.Settled exited id p p'

/-- Both worlds in the middle of Phase 1, with the same exits found. -/
structure Midway (rest : List ProcessId) (exits : Exits) (w w' : World) : Prop where
  alike : World.Alike (Process.Midway rest exits.exited) OsChild.Watched w w'
  collected : World.CollectedFor (· ∈ rest) w w'
  owned : Owned w'
  nodup : rest.Nodup
  fresh : ∀ e ∈ exits.exited, e.id ∉ rest

namespace Midway

variable {rest : List ProcessId} {exits exits' : Exits} {v v' : World} {q q' : Process}

theorem watched (h : Midway rest exits w w') : World.Alike (fun _ => Process.Watched) OsChild.Watched w w' :=
  h.alike.mono (fun _ _ _ _ _ hp => hp.watched) fun _ _ _ _ _ hch => hch

/-- Both see the same of the child. -/
theorem sees (h : Midway (id :: rest) exits w w') (hagrees : World.VisitAgrees env now w w' id)
    (hp : w.processes.lookup id = some p) (hp' : w'.processes.lookup id = some p') :
    ∀ c, p.child = some c → w'.children[c]? = w.children[c]? ∨ World.ReapedFirst env w w' c := by
  intro c hc
  by_cases heq : w'.children[c]? = w.children[c]?
  · exact .inl heq
  · have houtlived : p.Outlived p' := by
      by_contra hnot
      exact heq (h.collected.child_eq h.owned h.watched hp hp' hnot hc)
    obtain ⟨c', ch', hc', hch', hreaped⟩ := h.collected.collected id p p' List.mem_cons_self hp hp' houtlived
    obtain rfl : c = c' := Option.some.inj (hc.symm.trans hc')
    refine .inr ⟨?_, ch', hch', hreaped⟩
    by_contra hfails
    exact heq ((hagrees p hp p' hp').1 c hc (by simpa using hfails))

theorem lock (m : Guards.Mode) (id : ProcessId) (h : Midway rest exits w w') :
    Midway rest exits (w.lock m id) (w'.lock m id) :=
  ⟨h.alike.lock _ _ _ _, { h.collected with }, { h.owned with }, h.nodup, h.fresh⟩

theorem unlock (m : Guards.Mode) (id : ProcessId) (h : Midway rest exits w w') :
    Midway rest exits (w.unlock m id) (w'.unlock m id) :=
  ⟨h.alike.unlock _ _ _ _, { h.collected with }, { h.owned with }, h.nodup, h.fresh⟩

/-- An entry of which no exit was recorded is settled if the states agree. -/
theorem settled_of_state {exited : List ExitedProcess} (hstate : p'.state = p.state)
    (hfresh : ∀ e ∈ exited, e.id ≠ id) : Process.Settled exited id p p' :=
  ⟨.inl hstate, fun e he heq => absurd heq (hfresh e he)⟩

/-- Nothing is to be seen at `id`. -/
theorem skip (h : Midway (id :: rest) exits w w') (hstate : ∀ p p', w.processes.lookup id = some p →
    w'.processes.lookup id = some p' → p'.state = p.state) : Midway rest exits w w' where
  alike := by
    refine h.alike.mono (fun k q q' hq hq' hmid => ⟨hmid.key, hmid.watched, fun hk => ?_⟩) fun _ _ _ _ _ hch => hch
    by_cases hkid : k = id
    · subst hkid
      exact settled_of_state (hstate q q' hq hq') fun e he heq => h.fresh e he (heq ▸ List.mem_cons_self)
    · exact hmid.settled (List.not_mem_cons_of_ne_of_not_mem hkid hk)
  collected := by
    refine ⟨fun k q q' hk => h.collected.collected k q q' (List.mem_cons_of_mem _ hk), fun c hc => ?_⟩
    obtain ⟨k, q, q', hk, hq, hq', houtlived, hqc⟩ := h.collected.holder c hc
    refine ⟨k, q, q', (List.mem_cons.mp hk).resolve_left fun hkid => ?_, hq, hq', houtlived, hqc⟩
    subst hkid
    exact World.not_outlived_of_state (hstate q q' hq hq') houtlived
  owned := h.owned
  nodup := (List.nodup_cons.mp h.nodup).2
  fresh e he hmem := h.fresh e he (List.mem_cons_of_mem _ hmem)

/-- Both worlds have looked at the child of `p`. -/
structure Looked (rest : List ProcessId) (exits : Exits) (p : Process) (w w' v v' : World) : Prop where
  alike : World.Alike (Process.Midway rest exits.exited) OsChild.Watched v v'
  processes : v.processes = w.processes
  processes_watched : v'.processes = w'.processes
  ages : Ages Set.univ w'.children v'.children
  child_eq : ∀ k : ℕ, w'.children[k]? = w.children[k]? ∨ p.child = some k → v'.children[k]? = v.children[k]?

/-- Both write the entry of `id`. -/
theorem write (h : Midway (id :: rest) exits w w') (hp : w.processes.lookup id = some p)
    (hp' : w'.processes.lookup id = some p') (hlooked : Looked (id :: rest) exits p w w' v v')
    (hsub : exits.exited ⊆ exits'.exited) (hnew : ∀ e ∈ exits'.exited, e ∈ exits.exited ∨ e.id = id)
    (hkeeps : KeepsHandle id p' q') (hq : Process.Midway rest exits'.exited id q q') :
    Midway rest exits' (v.put id q) (v'.put id q') where
  alike := by
    refine hlooked.alike.put_of (fun k r r' hk hmid => ⟨hmid.key, hmid.watched, fun hrest => ?_⟩) hq
    have hsettled := hmid.settled (List.not_mem_cons_of_ne_of_not_mem hk hrest)
    refine ⟨hsettled.state.imp_right fun ⟨e, he, heq⟩ => ⟨e, hsub he, heq⟩, fun e he heq => ?_⟩
    exact hsettled.counter e ((hnew e he).resolve_right fun hid => hk (heq.symm.trans hid)) heq
  collected := by
    have hfresh := (List.nodup_cons.mp h.nodup).1
    have hput : (v.put id q).processes = w.processes.replace id q := by
      rw [World.put_processes, hlooked.processes]
    have hput' : (v'.put id q').processes = w'.processes.replace id q' := by
      rw [World.put_processes, hlooked.processes_watched]
    refine h.collected.of_put_both hp hp' hput hput'
      (fun _ hk => List.mem_cons_of_mem _ hk) (fun k hk hmem => (List.mem_cons.mp hmem).resolve_left hk)
      (fun hid => absurd hid hfresh) (fun k hk => hlooked.child_eq k (hk.imp_right fun hc => hc.2)) fun k ch hch hreaped => ?_
    obtain ⟨ch', hch', hage⟩ := hlooked.ages k ch hch
    rw [hage.final hreaped] at hch'
    exact hch'
  owned := h.owned.put hp' hlooked.ages hlooked.processes_watched (.inl hkeeps)
  nodup := (List.nodup_cons.mp h.nodup).2
  fresh e he hmem := by
    obtain hold | hid := hnew e he
    · exact h.fresh e hold (List.mem_cons_of_mem _ hmem)
    · exact (List.nodup_cons.mp h.nodup).1 (hid ▸ hmem)

/-- Both record the exit that they have found. -/
theorem write_exit (h : Midway (id :: rest) exits w w') (hp : w.processes.lookup id = some p)
    (hp' : w'.processes.lookup id = some p') (hlooked : Looked (id :: rest) exits p w w' v v')
    (hcounter : (p.stableUptime now).asksRestart status = true →
      (p'.stableUptime now).restartState = (p.stableUptime now).restartState) :
    Midway rest (exits.add (p.stableUptime now) status) (v.put id (p.afterExit now)) (v'.put id (p'.afterExit now)) := by
  have hmid := h.alike.processes.entry id p p' hp hp'
  have hrecord : ((p.stableUptime now).record status).id = id := by
    rw [Process.record_id, Process.stableUptime_id]
    exact hmid.watched.id.symm.trans hmid.key
  have hadded := exits.add_exited (p.stableUptime now) status
  refine h.write hp hp' hlooked ?_ ?_ ?_ ⟨?_, hmid.watched.afterExit now, fun _ => ⟨?_, ?_⟩⟩
  · rw [hadded]
    exact List.subset_append_left _ _
  · rw [hadded]
    intro e he
    rcases List.mem_append.mp he with he | he
    · exact .inl he
    · rw [List.mem_singleton.mp he]
      exact .inr hrecord
  · exact .inr ⟨Process.stableUptime_child now p', Process.stableUptime_pid now p'⟩
  · exact (Process.stableUptime_id now p').trans hmid.key
  · rw [hadded]
    exact .inr ⟨_, List.mem_append_right _ (List.mem_singleton_self _), hrecord⟩
  · rw [hadded]
    intro e he heq hrestart
    rcases List.mem_append.mp he with he | he
    · exact absurd (heq ▸ List.mem_cons_self) (h.fresh e he)
    · obtain rfl := List.mem_singleton.mp he
      exact hcounter (Process.asksRestart_of_record hrestart)

/-- Both have found no exit. -/
theorem write_poll (h : Midway (id :: rest) exits w w') (hp : w.processes.lookup id = some p)
    (hp' : w'.processes.lookup id = some p') (hlooked : Looked (id :: rest) exits p w w' v v')
    (hnot : ¬ p.Outlived p') :
    Midway rest exits (v.put id (p.afterPoll now)) (v'.put id (p'.afterPoll now)) := by
  have hmid := h.alike.processes.entry id p p' hp hp'
  have hpolled := hmid.watched.afterPoll hnot now
  refine h.write hp hp' hlooked (List.Subset.refl _) (fun e he => .inl he) ?_
    ⟨?_, hpolled.watched, fun _ => settled_of_state hpolled.state fun e he heq => ?_⟩
  · rw [Process.afterPoll_eq]
    exact .inr ⟨Process.stableUptime_child now p', Process.stableUptime_pid now p'⟩
  · rw [Process.afterPoll_eq]
    exact (Process.stableUptime_id now p').trans hmid.key
  · exact h.fresh e he (heq ▸ List.mem_cons_self)

/-- Both visit a tracked process that is not `Restarting`. -/
theorem examine (h : Midway (id :: rest) exits w w') (hagrees : World.VisitAgrees env now w w' id)
    (hp : w.processes.lookup id = some p) (hp' : w'.processes.lookup id = some p')
    (hstate : p.state ≠ .restarting) (hstate' : p'.state ≠ .restarting) :
    (World.phase1Visit env now id (exits, w')).1 = (World.phase1Visit env now id (exits, w)).1 ∧
      Midway rest (World.phase1Visit env now id (exits, w)).1 (World.phase1Visit env now id (exits, w)).2
        (World.phase1Visit env now id (exits, w')).2 := by
  have hwatched := (h.alike.processes.entry id p p' hp hp').watched
  obtain ⟨hfound, halike, hchildren, hexit⟩ := World.Alike.tryWaitExit env
    (h.alike.lock .exclusive .exclusive id id) hwatched.child (h.sees hagrees hp hp')
  have hos : OsStep p.handles (fun _ => True) (w.lock .exclusive id) (p.tryWaitExit env (w.lock .exclusive id)).2 :=
    Process.osStep_tryWaitExit
  have hos' : OsStep p'.handles (fun _ => True) (w'.lock .exclusive id)
      (p'.tryWaitExit env (w'.lock .exclusive id)).2 := Process.osStep_tryWaitExit
  have hlooked : Looked (id :: rest) exits p w w' (p.tryWaitExit env (w.lock .exclusive id)).2
      (p'.tryWaitExit env (w'.lock .exclusive id)).2 :=
    ⟨halike, hos.processes, hos'.processes, hos'.children.mono (Set.subset_univ _), hchildren⟩
  rw [World.phase1Visit_eq exits hp hstate, World.phase1Visit_eq exits hp' hstate', hfound]
  cases hresult : (p.tryWaitExit env (w.lock .exclusive id)).1 with
  | some status =>
    have hexitFound : w.exitFound env id = some (p, status) := by
      rw [World.exitFound_of_tracked env hp hstate, hresult, Option.map_some]
    have hcounter : (p.stableUptime now).asksRestart status = true →
        (p'.stableUptime now).restartState = (p.stableUptime now).restartState := fun hasks =>
      (hagrees p hp p' hp').2 _ hexitFound (by rwa [Process.asksRestart_stableUptime] at hasks)
    exact ⟨exits.add_eq (hwatched.stableUptime now).toCopy hcounter,
      (h.write_exit hp hp' hlooked hcounter).unlock .exclusive id⟩
  | none =>
    -- an exit that only the query has seen would have been found
    have hnot : ¬ p.Outlived p' := by
      intro houtlived
      obtain ⟨c, ch, hc, hch, hreaped⟩ := h.collected.collected id p p' List.mem_cons_self hp hp' houtlived
      exact hexit c ch hc hch hreaped hresult
    exact ⟨rfl, (h.write_poll hp hp' hlooked hnot).unlock .exclusive id⟩

/-- One visit in each world. -/
theorem visit (h : Midway (id :: rest) exits w w') (hagrees : World.VisitAgrees env now w w' id) :
    (World.phase1Visit env now id (exits, w')).1 = (World.phase1Visit env now id (exits, w)).1 ∧
      Midway rest (World.phase1Visit env now id (exits, w)).1 (World.phase1Visit env now id (exits, w)).2
        (World.phase1Visit env now id (exits, w')).2 := by
  have hguard : Midway (id :: rest) exits ((w.lock .exclusive id).unlock .exclusive id)
      ((w'.lock .exclusive id).unlock .exclusive id) := (h.lock .exclusive id).unlock .exclusive id
  rcases h.alike.processes.lookup_cases id with ⟨hp, hp'⟩ | ⟨p, p', hp, hp', hmid⟩
  · simp only [World.phase1Visit, World.lock_processes, hp, hp']
    refine ⟨trivial, hguard.skip fun q q' hq _ => ?_⟩
    exact absurd (hp.symm.trans hq) (by simp)
  · have hrestarting : p'.state = .restarting ↔ p.state = .restarting :=
      hmid.watched.state_iff (by decide) (by decide) rfl
    by_cases hstate : p.state = .restarting
    · have hstate' := hrestarting.mpr hstate
      simp only [World.phase1Visit, World.lock_processes, hp, hp', hstate, hstate', ↓reduceIte]
      refine ⟨trivial, hguard.skip fun q q' hq hq' => ?_⟩
      obtain rfl : p = q := Option.some.inj (hp.symm.trans hq)
      obtain rfl : p' = q' := Option.some.inj (hp'.symm.trans hq')
      rw [hstate, hstate']
    · exact h.examine hagrees hp hp' hstate fun hstate' => hstate (hrestarting.mp hstate')

end Midway

namespace World

/-- One visit in each world. -/
def visitBoth (env : Env) (now : Instant) (x : (Exits × World) × (Exits × World)) (id : ProcessId) :
    (Exits × World) × (Exits × World) :=
  (phase1Visit env now id x.1, phase1Visit env now id x.2)

/-- Both worlds may go through Phase 1 together. -/
def ExitsAgree (env : Env) (now : Instant) (w w' : World) : Prop :=
  Fold.Meets (fun x id => VisitAgrees env now x.1.2 x.2.2 id) (visitBoth env now) w.processes.keys
    ((.empty, w), (.empty, w'))

instance (w w' : World) : Decidable (ExitsAgree env now w w') := Fold.decidableMeets _ _

/-- Both worlds find the same exits. -/
theorem Watched.phase1 (h : Watched w w') (hkey : ∀ i q, w'.processes.lookup i = some q → q.id = i)
    (howned : Owned w') (hagree : ExitsAgree env now w w') :
    (w'.phase1 env now).1 = (w.phase1 env now).1 ∧
      Midway [] (w.phase1 env now).1 (w.phase1 env now).2 (w'.phase1 env now).2 := by
  have hinit : Midway w.processes.keys .empty w w' := by
    refine ⟨?_, ⟨fun k q q' _ => h.exits.collected k q q' trivial, fun c hc => ?_⟩, howned,
      w.processes.keys_nodup, fun e he => absurd he List.not_mem_nil⟩
    · refine h.alike.mono (fun k q q' hq hq' hwatched => ⟨hkey k q' hq', hwatched, fun hk => ?_⟩) fun _ _ _ _ _ hch => hch
      exact absurd (AssocMap.mem_of_lookup hq) hk
    · obtain ⟨k, q, q', _, hq, hrest⟩ := h.exits.holder c hc
      exact ⟨k, q, q', AssocMap.mem_of_lookup hq, hq, hrest⟩
  have hrun := Fold.foldl_both (f := fun x id => phase1Visit env now id x) (g := fun x id => phase1Visit env now id x)
    (d := fun x id => VisitAgrees env now x.1.2 x.2.2 id)
    (I := fun rest x x' => x'.1 = x.1 ∧ Midway rest x.1 x.2 x'.2) ?_ w.processes.keys (.empty, w) (.empty, w')
    ⟨rfl, hinit⟩ hagree
  · unfold World.phase1
    rw [h.alike.processes.keys]
    exact hrun
  · rintro id rest ⟨exits, v⟩ ⟨exits', v'⟩ ⟨rfl, hmid⟩ hagrees
    exact hmid.visit hagrees

end World

end ProcessManager
