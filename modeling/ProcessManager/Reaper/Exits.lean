import ProcessManager.Reaper.Loop

/-! What Phase 1 records. Every key is visited once, so each record describes the entry
as it was when the pass started, and no process is recorded twice. -/

namespace ProcessManager

variable {env : Env} {now : Instant} {w w' w'' : World} {id : ProcessId} {p p' : Process}

namespace Process

/-- The entry after its exit was recorded. -/
def afterExit (now : Instant) (p : Process) : Process := { p.stableUptime now with cascadeFlag := false }

/-- The entry after a poll that found no exit. -/
def afterPoll (now : Instant) (p : Process) : Process :=
  if p.state = .starting then { p.stableUptime now with state := .running } else p.stableUptime now

/-- How a visit of Phase 1 can leave an entry. -/
def Visited (now : Instant) (p p' : Process) : Prop :=
  p' = p ∨ p' = p.afterExit now ∨ p' = p.afterPoll now

/-- The record of an exit, with or without a cascade. -/
def record (p : Process) (status : ExitStatus) : ExitedProcess :=
  if p.cascadeFlag then p.cascadeRecord status else p.exitRecord status

theorem Visited.id_eq (h : Visited now p p') : p'.id = p.id := by
  obtain rfl | rfl | rfl := h
  · rfl
  · exact stableUptime_id now p
  · unfold afterPoll
    split_ifs <;> exact stableUptime_id now p

@[simp] theorem record_id (p : Process) (status : ExitStatus) : (p.record status).id = p.id := by
  unfold record
  split_ifs <;> rfl

end Process

namespace Exits

/-- Everything to remove and every cascade origin of `x` is also in `y`. -/
structure Le (x y : Exits) : Prop where
  toRemove : x.toRemove ⊆ y.toRemove
  cascadeOrigins : x.cascadeOrigins ⊆ y.cascadeOrigins

theorem Le.trans {x y z : Exits} (h : x.Le y) (h' : y.Le z) : x.Le z :=
  ⟨List.Subset.trans h.toRemove h'.toRemove, List.Subset.trans h.cascadeOrigins h'.cascadeOrigins⟩

theorem add_exited (x : Exits) (p : Process) (status : ExitStatus) :
    (x.add p status).exited = x.exited ++ [p.record status] := by
  unfold add Process.record
  split_ifs <;> rfl

theorem le_add (x : Exits) (p : Process) (status : ExitStatus) : x.Le (x.add p status) := by
  unfold add
  constructor <;> split_ifs <;> simp

/-- An exit has the same consequences whatever was recorded before. -/
theorem empty_add_le (x : Exits) (p : Process) (status : ExitStatus) :
    (empty.add p status).Le (x.add p status) := by
  unfold add empty
  constructor <;> split_ifs <;> simp

/-- What is not restarted is removed, and nothing else is. -/
theorem toRemove_add (x : Exits) (p : Process) (status : ExitStatus) :
    (x.add p status).toRemove =
      x.toRemove ++ if (p.record status).restartConfig.isNone then [p.id] else [] := by
  unfold add Process.record
  cases hflag : p.cascadeFlag with
  | true => cases hconfig : p.config.restartOnExit <;> simp [Process.cascadeRecord, hconfig]
  | false =>
    cases htriggered : p.restartTriggered status with
    | true =>
      by_cases hfailed : p.exitState status = .failed <;>
        simp [Process.exitRecord, Process.willRestart, htriggered, hfailed]
    | false => simp [Process.exitRecord, Process.willRestart, htriggered]

/-- An exit beyond the limit marks the entry for removal. -/
theorem mem_toRemove_add (x : Exits) {status : ExitStatus} (hflag : p.cascadeFlag = false)
    (hfailed : p.exitState status = .failed) : p.id ∈ (x.add p status).toRemove := by
  simp [add, hflag, hfailed]

/-- What is not restarted is removed. -/
theorem mem_toRemove_of_no_restart (x : Exits) {status : ExitStatus}
    (h : (p.record status).restartConfig = none) : p.id ∈ (x.add p status).toRemove := by
  unfold Process.record at h
  cases hflag : p.cascadeFlag with
  | true =>
    have hconfig : p.config.restartOnExit = false := by
      simpa [hflag, Process.cascadeRecord] using h
    simp [add, hflag, hconfig]
  | false =>
    have hno : p.restartTriggered status = true → p.exitState status = .failed := by
      simpa [hflag, Process.exitRecord, Process.willRestart] using h
    cases htriggered : p.restartTriggered status with
    | true => simp [add, hflag, hno htriggered]
    | false => simp [add, hflag, htriggered]

end Exits

/-- `e` records the exit of `p` with `status`, and its consequences are in `x`. -/
structure Records (now : Instant) (p : Process) (status : ExitStatus) (x : Exits)
    (e : ExitedProcess) : Prop where
  record : e = (p.stableUptime now).record status
  consequences : (Exits.empty.add (p.stableUptime now) status).Le x

/-- The state of Phase 1 that started in `w` and still has to visit `rest`. -/
structure Phase1State (w : World) (now : Instant) (rest : List ProcessId) (x : Exits)
    (w' : World) : Prop where
  rest_nodup : rest.Nodup
  rest_lookup : ∀ i ∈ rest, w'.processes.lookup i = w.processes.lookup i
  visited : ∀ i q', w'.processes.lookup i = some q' →
    ∃ q, w.processes.lookup i = some q ∧ q.Visited now q'
  exited_nodup : (x.exited.map ExitedProcess.id).Nodup
  exited_rest : ∀ e ∈ x.exited, e.id ∉ rest
  recorded : ∀ e ∈ x.exited, ∃ p status, w.processes.lookup e.id = some p ∧
    w'.processes.lookup e.id = some (p.afterExit now) ∧ Records now p status x e

namespace Phase1State

variable {rest : List ProcessId} {x x' : Exits}

theorem start : Phase1State w now w.processes.keys .empty w where
  rest_nodup := w.processes.keys_nodup
  rest_lookup _ _ := rfl
  visited _ q' hq' := ⟨q', hq', .inl rfl⟩
  exited_nodup := List.nodup_nil
  exited_rest e he := absurd he (by simp [Exits.empty])
  recorded e he := absurd he (by simp [Exits.empty])

/-- A visit that records nothing. -/
theorem quiet (h : Phase1State w now (id :: rest) x w')
    (hother : ∀ i, i ≠ id → w''.processes.lookup i = w'.processes.lookup i)
    (hself : ∀ q', w''.processes.lookup id = some q' →
      ∃ q, w.processes.lookup id = some q ∧ q.Visited now q') :
    Phase1State w now rest x w'' := by
  obtain ⟨hfresh, hrest⟩ := List.nodup_cons.mp h.rest_nodup
  refine {
    rest_nodup := hrest
    rest_lookup := fun i hi => ?_
    visited := fun i q' hq' => ?_
    exited_nodup := h.exited_nodup
    exited_rest := fun e he hin => h.exited_rest e he (List.mem_cons_of_mem _ hin)
    recorded := fun e he => ?_ }
  · rw [hother i (by rintro rfl; exact hfresh hi)]
    exact h.rest_lookup i (List.mem_cons_of_mem _ hi)
  · by_cases hi : i = id
    · exact hi ▸ hself q' (hi ▸ hq')
    · exact h.visited i q' (hother i hi ▸ hq')
  · have hne : e.id ≠ id := fun hid => h.exited_rest e he (hid ▸ List.mem_cons_self)
    obtain ⟨q, status, hq, hq', hrecord⟩ := h.recorded e he
    exact ⟨q, status, hq, (hother e.id hne).trans hq', hrecord⟩

/-- A visit that records an exit. -/
theorem exit {status : ExitStatus} (hkey : p.id = id) (h : Phase1State w now (id :: rest) x w')
    (hother : ∀ i, i ≠ id → w''.processes.lookup i = w'.processes.lookup i)
    (hp : w.processes.lookup id = some p)
    (hself : w''.processes.lookup id = some (p.afterExit now)) :
    Phase1State w now rest (x.add (p.stableUptime now) status) w'' := by
  have hquiet : Phase1State w now rest x w'' := by
    refine h.quiet hother fun q' hq' => ⟨p, hp, .inr (.inl ?_)⟩
    exact Option.some.inj (hq'.symm.trans hself)
  have hid : ((p.stableUptime now).record status).id = id := by simp [hkey]
  refine { hquiet with exited_nodup := ?_, exited_rest := ?_, recorded := ?_ } <;>
    rw [Exits.add_exited]
  · rw [List.map_append, List.map_singleton, hid]
    refine h.exited_nodup.append (List.nodup_singleton id) ?_
    rw [List.disjoint_singleton, List.mem_map]
    rintro ⟨e, he, heq⟩
    exact h.exited_rest e he (heq ▸ List.mem_cons_self)
  · intro e he
    rcases List.mem_append.mp he with he | he
    · exact hquiet.exited_rest e he
    · rw [List.mem_singleton.mp he, hid]
      exact (List.nodup_cons.mp h.rest_nodup).1
  · intro e he
    rcases List.mem_append.mp he with he | he
    · obtain ⟨q, status', hq, hq', hrecord⟩ := hquiet.recorded e he
      exact ⟨q, status', hq, hq', hrecord.record, hrecord.consequences.trans (x.le_add _ _)⟩
    · rw [List.mem_singleton.mp he, hid]
      exact ⟨p, status, hp, hself, rfl, x.empty_add_le _ _⟩

theorem visit (hkey : ∀ i q, w.processes.lookup i = some q → q.id = i)
    (h : Phase1State w now (id :: rest) x w') :
    Phase1State w now rest (World.phase1Visit env now id (x, w')).1
      (World.phase1Visit env now id (x, w')).2 := by
  have hlookup : w'.processes.lookup id = w.processes.lookup id := h.rest_lookup id (by simp)
  -- the entry under `id` is written back, the others stay
  have hput : ∀ (w₁ : World) (q : Process), w₁.processes = w'.processes →
      (∀ i, i ≠ id → ((w₁.put id q).unlock .exclusive id).processes.lookup i =
        w'.processes.lookup i) ∧
      ∀ q₀, w'.processes.lookup id = some q₀ →
        ((w₁.put id q).unlock .exclusive id).processes.lookup id = some q := by
    intro w₁ q hw₁
    rw [World.unlock_processes, World.put_processes, hw₁]
    refine ⟨fun i hi => by rw [AssocMap.lookup_replace, if_neg hi], fun q₀ hq₀ => ?_⟩
    rw [AssocMap.lookup_replace, if_pos rfl, hq₀, Option.map_some]
  obtain ⟨_, heq⟩ | ⟨p, w₁, hp, _, ⟨c, status, _, _, rfl, heq⟩ | ⟨hstep, _, heq⟩⟩ :=
    World.phase1Visit_cases env now id x w' <;> rw [heq]
  · exact h.quiet (fun _ _ => rfl) fun q hq => ⟨q, hlookup ▸ hq, .inl rfl⟩
  · have htry := (World.osStep_tryWait (S := {c}) (P := fun _ => True) env rfl
      (w'.lock .exclusive id)).processes
    obtain ⟨hother, hself⟩ := hput _ (p.afterExit now) htry
    have hp' : w.processes.lookup id = some p := hlookup ▸ hp
    exact h.exit (hkey id p hp') hother hp' (hself p hp)
  · obtain ⟨hother, hself⟩ := hput w₁ (p.afterPoll now) hstep.processes
    refine h.quiet hother fun q' hq' => ⟨p, hlookup ▸ hp, .inr (.inr ?_)⟩
    exact Option.some.inj (hq'.symm.trans (hself p hp))

end Phase1State

/-- What every visit keeps holds after Phase 1. -/
theorem phase1_invariant {I : List ProcessId → Exits × World → Prop}
    (hkey : ∀ i q, w.processes.lookup i = some q → q.id = i) (hinit : I w.processes.keys (.empty, w))
    (hvisit : ∀ id rest x w', Phase1State w now (id :: rest) x w' → I (id :: rest) (x, w') →
      I rest (World.phase1Visit env now id (x, w'))) : I [] (w.phase1 env now) := by
  have hstep : ∀ id rest (x : Exits × World), Phase1State w now (id :: rest) x.1 x.2 ∧ I (id :: rest) x →
      Phase1State w now rest (World.phase1Visit env now id x).1 (World.phase1Visit env now id x).2 ∧
        I rest (World.phase1Visit env now id x) :=
    fun id rest x h => ⟨h.1.visit hkey, hvisit id rest x.1 x.2 h.1 h.2⟩
  exact (Fold.foldl_suffix (I := fun rest (x : Exits × World) => Phase1State w now rest x.1 x.2 ∧ I rest x)
    hstep _ _ ⟨.start, hinit⟩).2

theorem phase1State (env : Env) (now : Instant)
    (hkey : ∀ i q, w.processes.lookup i = some q → q.id = i) :
    Phase1State w now [] (w.phase1 env now).1 (w.phase1 env now).2 :=
  phase1_invariant (I := fun rest x => Phase1State w now rest x.1 x.2) hkey .start
    fun _ _ _ _ h _ => h.visit hkey

/-! ### Exits are not missed -/

/-- `try_wait` collects the exit of a child that is not running, unless it fails. -/
theorem Process.waitResult_of_not_running {c : ℕ} {ch : OsChild} (hc : w.children[c]? = some ch)
    (h : ch.isRunning = false) (hfails : env.waitFails w.ticks = false) :
    ∃ status, w.waitResult env c = .exited status := by
  obtain ⟨ch', hc', hage⟩ := w.ages_tick env c ch hc
  have hexited : ch'.isRunning = false := by
    by_contra hr
    rw [hage.running (by simpa using hr)] at h
    cases h
  unfold World.waitResult
  rw [hc', hfails]
  cases hs : ch'.status with
  | running => simp [OsChild.isRunning, hs] at hexited
  | exited s t => exact ⟨s, by simp [hs]⟩
  | reaped s t => exact ⟨s, by simp [hs]⟩

theorem World.phase1Visit_of_exited {x : Exits} {c : ℕ} {status : ExitStatus}
    (hp : w.processes.lookup id = some p) (hstate : p.state ≠ .restarting) (hc : p.child = some c)
    (h : (w.lock .exclusive id).waitResult env c = .exited status) :
    (World.phase1Visit env now id (x, w)).1 = x.add (p.stableUptime now) status := by
  have htry : (p.stableUptime now).tryWaitExit env (w.lock .exclusive id) =
      (((w.lock .exclusive id).waitResult env c).status, (w.lock .exclusive id).tryWait env c) :=
    Process.tryWaitExit_of_child (by simp [hc])
  simp only [phase1Visit, lock_processes, hp, hstate, ↓reduceIte, htry, h, WaitResult.status]

/-- A visit keeps what is recorded and collects at most. -/
theorem World.phase1Visit_grows (env : Env) (now : Instant) (id : ProcessId) (x : Exits) (w : World) :
    x.exited ⊆ (phase1Visit env now id (x, w)).1.exited ∧
      Ages Set.univ w.children (phase1Visit env now id (x, w)).2.children := by
  obtain ⟨_, heq⟩ | ⟨p, w', _, _, ⟨c, status, _, _, rfl, heq⟩ | ⟨hstep, _, heq⟩⟩ :=
    phase1Visit_cases env now id x w <;> rw [heq]
  · exact ⟨List.Subset.refl _, .refl _⟩
  · refine ⟨by rw [Exits.add_exited]; exact List.subset_append_left _ _, ?_⟩
    exact (osStep_tryWait (P := fun _ => True) env (Set.mem_univ c) (w.lock .exclusive id)).children
  · exact ⟨List.Subset.refl _, hstep.children.of_empty⟩

/-- Children only age, and what is visited has a record. -/
def RecordedOnVisit (w : World) (id : ProcessId) (rest : List ProcessId) (x : Exits × World) : Prop :=
  Ages Set.univ w.children x.2.children ∧ (id ∉ rest → ∃ e ∈ x.1.exited, e.id = id)

/-- A child that is not running when Phase 1 begins is recorded, if `try_wait` works. -/
theorem exists_exited {c : ℕ} {ch : OsChild} (now : Instant)
    (hkey : ∀ i q, w.processes.lookup i = some q → q.id = i)
    (hp : w.processes.lookup id = some p) (hstate : p.state ≠ .restarting) (hc : p.child = some c)
    (hch : w.children[c]? = some ch) (hexited : ch.isRunning = false)
    (hwait : ∀ n, env.waitFails n = false) : ∃ e ∈ (w.phase1 env now).1.exited, e.id = id := by
  have hinit : RecordedOnVisit w id w.processes.keys (.empty, w) :=
    ⟨.refl _, fun hid => absurd (AssocMap.mem_of_lookup hp) hid⟩
  refine (phase1_invariant (I := RecordedOnVisit w id) hkey hinit ?_).2 List.not_mem_nil
  rintro k rest x w' hphase ⟨hages, hdone⟩
  obtain ⟨hgrows, hages'⟩ := World.phase1Visit_grows env now k x w'
  refine ⟨hages.trans hages', fun hid => ?_⟩
  by_cases hk : id = k
  · subst hk
    have hp' : w'.processes.lookup id = some p := (hphase.rest_lookup id (by simp)).trans hp
    obtain ⟨ch', hch', hage⟩ := hages c ch hch
    have hexited' : ch'.isRunning = false := by
      by_contra hr
      rw [hage.running (by simpa using hr)] at hexited
      cases hexited
    obtain ⟨status, hresult⟩ := Process.waitResult_of_not_running (w := w'.lock .exclusive id)
      hch' hexited' (hwait _)
    have hrecorded : (World.phase1Visit env now id (x, w')).1 = _ :=
      World.phase1Visit_of_exited hp' hstate hc hresult
    rw [hrecorded, Exits.add_exited]
    exact ⟨_, List.mem_append_right _ (List.mem_singleton_self _), by simp [hkey id p hp]⟩
  · obtain ⟨e, he, heq⟩ := hdone (by simp [hk, hid])
    exact ⟨e, hgrows he, heq⟩

/-! ### What Phase 1 collects -/

/-- `e` reports the exit status that was collected from the child of its entry. -/
def World.Collected (w : World) (e : ExitedProcess) : Prop :=
  ∃ p c ch status t, w.processes.lookup e.id = some p ∧ p.child = some c ∧
    w.children[c]? = some ch ∧ ch.status = .reaped status t ∧ e.exitStatus = some status

/-- The entry stays and a collected status is final. -/
theorem World.Collected.ages {S : Set ℕ} {e : ExitedProcess} (h : w.Collected e)
    (hages : Ages S w.children w'.children)
    (hlookup : w'.processes.lookup e.id = w.processes.lookup e.id) : w'.Collected e := by
  obtain ⟨p, c, ch, status, t, hp, hc, hch, hstatus, he⟩ := h
  obtain ⟨ch', hch', hage⟩ := hages c ch hch
  obtain rfl := hage.final (by simp [OsChild.isReaped, hstatus])
  exact ⟨p, c, ch', status, t, hlookup.trans hp, hc, hch', hstatus, he⟩

theorem collected_phase1 (env : Env) (now : Instant)
    (hkey : ∀ i q, w.processes.lookup i = some q → q.id = i) :
    ∀ e ∈ (w.phase1 env now).1.exited, (w.phase1 env now).2.Collected e := by
  refine phase1_invariant (I := fun _ x => ∀ e ∈ x.1.exited, x.2.Collected e) hkey
    (fun e he => absurd he (by simp [Exits.empty])) ?_
  intro id rest x w' hphase (hcollected : ∀ e ∈ x.exited, w'.Collected e)
  -- what was recorded before is the exit of another entry
  have hother : ∀ e ∈ x.exited, e.id ≠ id := fun e he hid =>
    hphase.exited_rest e he (hid ▸ List.mem_cons_self)
  obtain ⟨_, heq⟩ | ⟨p, w₁, hp, _, ⟨c, status, hc, hresult, rfl, heq⟩ | ⟨hstep, _, heq⟩⟩ :=
    World.phase1Visit_cases env now id x w' <;> rw [heq]
  · exact fun e he => (hcollected e he).ages (.refl _ : Ages ∅ _ _) rfl
  · have htry := World.osStep_tryWait (P := fun _ => True) env (Set.mem_univ c) (w'.lock .exclusive id)
    intro e he
    rw [Exits.add_exited] at he
    rcases List.mem_append.mp he with he | he
    · refine (hcollected e he).ages htry.children ?_
      rw [World.unlock_processes, World.put_processes, htry.processes, AssocMap.lookup_replace,
        if_neg (hother e he), World.lock_processes]
    · obtain ⟨ch, t, hch, hstatus⟩ := Process.waitResult_exited hresult
      have hid : e.id = id := by
        rw [List.mem_singleton.mp he, Process.record_id, Process.stableUptime_id]
        exact hkey id p ((hphase.rest_lookup id (by simp)).symm.trans hp)
      refine ⟨p.afterExit now, c, ch, status, t, ?_, ?_, hch, hstatus, ?_⟩
      · rw [World.unlock_processes, World.put_processes, htry.processes, AssocMap.lookup_replace,
          if_pos hid, World.lock_processes, hp]
        rfl
      · exact (Process.stableUptime_child now p).trans hc
      · rw [List.mem_singleton.mp he]
        unfold Process.record
        split_ifs <;> rfl
  · intro e he
    refine (hcollected e he).ages hstep.children ?_
    rw [World.unlock_processes, World.put_processes, hstep.processes, AssocMap.lookup_replace,
      if_neg (hother e he), World.lock_processes]

/-- Phase 1 makes no calls. -/
theorem World.kills_phase1 (env : Env) (now : Instant) (w : World) :
    Grows (fun _ => False) w.kills (w.phase1 env now).2.kills := by
  refine Fold.foldl_invariant (I := fun x : Exits × World => Grows (fun _ => False) w.kills x.2.kills)
    (.refl _) ?_
  rintro ⟨x, w'⟩ id - (hw' : Grows _ w.kills w'.kills)
  obtain ⟨_, heq⟩ | ⟨p, w₁, _, _, ⟨c, status, _, _, rfl, heq⟩ | ⟨hstep, _, heq⟩⟩ :=
    World.phase1Visit_cases env now id x w' <;> rw [heq]
  · exact hw'
  · exact hw'.trans (World.osStep_tryWait env (Set.mem_univ c) _).kills
  · exact hw'.trans hstep.kills

/-! ### Phase 1 in a pass -/

namespace World

/-- The world in which Phase 1 of a pass begins. -/
def awake (env : Env) (pollInterval : ℕ) (w : World) : World := (w.sleep env pollInterval).tick env

/-- Phase 1 of a pass. -/
def detect (env : Env) (pollInterval : ℕ) (w : World) : Exits × World :=
  (w.awake env pollInterval).phase1 env (w.awake env pollInterval).clock

/-- Phases 1 and 1b of a pass. -/
def cascade (env : Env) (pollInterval : ℕ) (w : World) : World :=
  (w.detect env pollInterval).2.phase1b env (w.detect env pollInterval).1.cascadeOrigins

theorem passDetect_eq (env : Env) (pollInterval : ℕ) (w : World) :
    w.passDetect env pollInterval = ((w.awake env pollInterval).clock, (w.detect env pollInterval).1,
      (w.cascade env pollInterval).phase2 env (w.detect env pollInterval).1) := rfl

theorem osStep_awake {S : Set ℕ} {P : KillCall → Prop} (env : Env) (pollInterval : ℕ) (w : World) :
    OsStep S P w (w.awake env pollInterval) :=
  (osStep_sleep env _ _).trans (osStep_tick env _)

/-- The thread does not end before Phase 2. -/
theorem reaper_phase1b (now : Instant) (w : World) :
    ((w.phase1 env now).2.phase1b env (w.phase1 env now).1.cascadeOrigins).reaper = w.reaper := by
  have h1 : (w.phase1 env now).2.reaper = w.reaper := by
    refine Fold.foldl_invariant (I := fun x : Exits × World => x.2.reaper = w.reaper) rfl ?_
    exact fun x id _ hx => (reaper_phase1Visit env now id x).trans hx
  have htouch : ∀ (origins : List CascadeOrigin) (w : World),
      (origins.foldl (fun w _ => w.touch .shared w.processes.keys) w).reaper = w.reaper :=
    fun origins w => Fold.foldl_invariant (I := fun w' : World => w'.reaper = w.reaper) rfl
      fun _ _ _ h => h
  refine Fold.foldl_invariant (I := fun w' : World => w'.reaper = w.reaper) ((htouch _ _).trans h1) ?_
  exact fun w' id _ hw' => (reaper_cascadeKill env id w').trans hw'

theorem phase1State_detect (env : Env) (pollInterval : ℕ)
    (hkey : ∀ i q, w.processes.lookup i = some q → q.id = i) :
    Phase1State w (w.awake env pollInterval).clock [] (w.detect env pollInterval).1
      (w.detect env pollInterval).2 :=
  { phase1State env (w.awake env pollInterval).clock (w := w.awake env pollInterval) hkey with }

theorem collected_detect (env : Env) (pollInterval : ℕ)
    (hkey : ∀ i q, w.processes.lookup i = some q → q.id = i) :
    ∀ e ∈ (w.detect env pollInterval).1.exited, (w.detect env pollInterval).2.Collected e :=
  collected_phase1 (w := w.awake env pollInterval) env _ hkey

theorem reaper_cascade (env : Env) (pollInterval : ℕ) (w : World) :
    (w.cascade env pollInterval).reaper = w.reaper := reaper_phase1b _ _

/-- Phase 2 removes entries and sends events. -/
theorem mapStep_passDetect {P : KillCall → Prop} (env : Env) (pollInterval : ℕ) (w : World) :
    MapStep Kept ∅ P (w.cascade env pollInterval) (w.passDetect env pollInterval).2.2 :=
  mapStep_phase2 _ _

/-! ### Phase 2 -/

/-- No entry is added, a closed channel stays closed, and events are not lost. -/
structure Later (w w' : World) : Prop where
  untracked : ∀ id, w.processes.lookup id = none → w'.processes.lookup id = none
  receiver : w'.receiverAlive = true → w.receiverAlive = true
  events : Grows (fun _ => True) w.events w'.events

namespace Later

variable {R : ProcessId → Process → Process → Prop} {S : Set ℕ} {P : KillCall → Prop}

theorem refl (w : World) : Later w w := ⟨fun _ h => h, fun h => h, .refl _⟩

theorem trans (h : Later w w') (h' : Later w' w'') : Later w w'' :=
  ⟨fun id hid => h'.untracked id (h.untracked id hid), fun hr => h.receiver (h'.receiver hr),
    h.events.trans h'.events⟩

theorem of_mapStep (h : MapStep R S P w w') : Later w w' where
  untracked id hid := by
    by_contra hsome
    obtain ⟨p', hp'⟩ := Option.ne_none_iff_exists'.mp hsome
    obtain ⟨p, hp, _⟩ := h.processes id p' hp'
    rw [hid] at hp
    cases hp
  receiver := h.receiver
  events := h.events

theorem of_osStep (h : OsStep S P w w') : Later w w' := of_mapStep (.of_osStep kept_refl h)

theorem of_put (h : Later w w') (id : ProcessId) (p : Process) : Later w (w'.put id p) where
  untracked k hk := by
    rw [put_processes, AssocMap.lookup_replace, h.untracked k hk]
    split_ifs with hki
    · rw [← hki, h.untracked k hk]
      rfl
    · rfl
  receiver := h.receiver
  events := h.events

theorem of_spawned {site : SpawnSite} {id : ProcessId} {config : ProcessConfig}
    {deps : List ProcessId} (h : Spawned env site id config deps w w') : Later w w' where
  untracked _ hid := h.processes ▸ hid
  receiver := h.receiver
  events := .of_eq h.events

end Later

/-- Phase 2 removes what Phase 1 marked. -/
theorem phase2_lookup {x : Exits} {id : ProcessId} (h : id ∈ x.toRemove) :
    (w.phase2 env x).processes.lookup id = none := by
  have hremoved : ∀ (ids : List ProcessId) (w : World), id ∈ ids ∨ w.processes.lookup id = none →
      (ids.foldl (fun w id => w.removeEntry id) w).processes.lookup id = none := by
    intro ids
    induction ids with
    | nil => exact fun w h => h.resolve_left List.not_mem_nil
    | cons i ids ih =>
      intro w h
      refine ih _ ?_
      rw [removeEntry_lookup, List.mem_cons] at *
      split_ifs with hi
      · exact .inr rfl
      · exact h.imp_left fun h => h.resolve_left hi
  refine (Fold.foldl_invariant (I := Later _) (.refl _) fun w' (e : ExitedProcess) _ h => ?_).untracked id
    (hremoved x.toRemove w (.inl h))
  exact ifRunning_invariant h fun _ =>
    h.trans (.of_mapStep (mapStep_sendOrReturn (P := fun _ => True) e.event w'))

/-- A send that nobody receives ends the thread. -/
theorem sendOrReturn_alive {event : ProcessExitEvent}
    (h : (w.sendOrReturn env event).receiverAlive = true) :
    (w.sendOrReturn env event).reaper = w.reaper ∧ event ∈ (w.sendOrReturn env event).events := by
  have hok : w.sendOk env = true := by
    unfold sendOrReturn send at h
    by_contra hclosed
    simp only [hclosed, ↓reduceIte] at h
    exact hclosed h
  simp only [sendOrReturn, send, hok, ↓reduceIte]
  exact ⟨rfl, List.mem_cons_self⟩

/-- The events of these exits have arrived, if somebody listens. -/
def Arrived (exited : List ExitedProcess) (w : World) : Prop :=
  w.receiverAlive = true → w.reaper = .running ∧ ∀ e ∈ exited, e.event ∈ w.events

theorem Arrived.send {exited : List ExitedProcess} (h : Arrived exited w) (e : ExitedProcess) :
    Arrived (exited ++ [e]) (w.ifRunning (sendOrReturn env e.event)) := by
  unfold ifRunning
  split_ifs with hr <;> intro halive
  · have hlater : Later w (w.sendOrReturn env e.event) :=
      .of_mapStep (mapStep_sendOrReturn (P := fun _ => True) e.event w)
    obtain ⟨hreaper, hsent⟩ := sendOrReturn_alive halive
    refine ⟨hreaper.trans hr, fun f hf => ?_⟩
    rcases List.mem_append.mp hf with hf | hf
    · exact hlater.events.mem_of_mem ((h (hlater.receiver halive)).2 f hf)
    · rw [List.mem_singleton.mp hf]
      exact hsent
  · exact absurd (h halive).1 hr

/-- The events of Phase 2 arrive as long as somebody listens. -/
theorem phase2_events {x : Exits} (hrunning : w.reaper = .running)
    (halive : (w.phase2 env x).receiverAlive = true) :
    ∀ e ∈ x.exited, e.event ∈ (w.phase2 env x).events := by
  have hinit : Arrived [] (x.toRemove.foldl (fun w id => w.removeEntry id) w) := by
    refine fun _ => ⟨?_, by simp⟩
    exact Fold.foldl_invariant (I := fun w' : World => w'.reaper = .running) hrunning fun _ _ _ h => h
  have hsent : Arrived x.exited (w.phase2 env x) := Fold.foldl_visited hinit fun _ e _ _ h => h.send e
  exact (hsent halive).2

end World

end ProcessManager
