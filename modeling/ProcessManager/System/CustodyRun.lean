import ProcessManager.Library.Threads
import ProcessManager.System.CustodyCalls

/-! The reaper and any number of calls of `stop` and `restart`, section by section. As long as no
section is in the way of a running child, every running child has somebody who is responsible
for it. -/

namespace ProcessManager

variable {env : Env} {pollInterval : ℕ} {w w' : World} {id : ProcessId} {p : Process}

/-- One of the calls has the handle. -/
def HeldByCall (calls : List Call) (id : ProcessId) (h : Handle) : Prop := ∃ c ∈ calls, c.holds = some (id, h)

/-- Somebody has the handle of the spawned child, or a stop has signalled it. -/
def InCustody (calls : List Call) (w : World) (r : SpawnCall) : Prop :=
  ∃ h : Handle, h.child = r.child ∧ w.Genuine h ∧ (w.HeldBy r.id h ∨ HeldByCall calls r.id h ∨ w.StopSignalled h)

/-- A process has at most one running child, and no running child is lost. -/
structure Safe (calls : List Call) (w : World) : Prop where
  one : ∀ r ∈ w.spawns, ∀ r' ∈ w.spawns, r.id = r'.id → w.ChildRuns r.child → w.ChildRuns r'.child →
    r.child = r'.child
  held : ∀ r ∈ w.spawns, w.ChildRuns r.child → InCustody calls w r

/-- The invariant of the interleavings. -/
structure Attended (calls : List Call) (w : World) : Prop extends Safe calls w where
  below : w.SpawnsBelow
  known : ∀ i p, w.processes.lookup i = some p → i.raw < w.nextId
  spawned : ∀ r ∈ w.spawns, r.id.raw < w.nextId
  calls : ∀ c ∈ calls, c.Warned w ∧ c.Found w

namespace Attended

variable {calls calls' : List Call} {held held' : Option (ProcessId × Handle)}

/-- A section of one of the calls, or of the reaper. -/
theorem passes (h : Attended calls w) (hp : World.Passes held held' w w')
    (hkeeps : ∀ i k, HeldByCall calls i k → held = some (i, k) ∨ HeldByCall calls' i k)
    (hgets : ∀ i k, held' = some (i, k) → HeldByCall calls' i k)
    (hcalls : ∀ c ∈ calls', c.Warned w' ∧ c.Found w') : Attended calls' w' := by
  have hbefore : ∀ r ∈ w.spawns, w'.ChildRuns r.child → w.ChildRuns r.child := fun r hr hruns =>
    hruns.before hp.ages (h.below r hr)
  have hknown : ∀ i, (∃ p, w.processes.lookup i = some p) ∨ i.raw < w.nextId → i.raw < w'.nextId := by
    rw [hp.nextId]
    rintro i (⟨p, hp⟩ | hlt)
    · exact h.known i p hp
    · exact hlt
  refine {
    one := fun r hr r' hr' hid hruns hruns' => ?_
    held := fun r hr hruns => ?_
    below := fun r hr => ?_
    known := fun i p hp' => hknown i (hp.tracked i p hp')
    spawned := fun r hr => ?_
    calls := hcalls }
  · rcases hp.spawns.mem_or hr with hold | hborn <;> rcases hp.spawns.mem_or hr' with hold' | hborn'
    · exact h.one r hold r' hold' hid (hbefore r hold hruns) (hbefore r' hold' hruns')
    · exact absurd (hbefore r hold hruns) (hborn'.only r hold hid)
    · exact absurd (hbefore r' hold' hruns') (hborn.only r' hold' hid.symm)
    · exact hborn.child.trans hborn'.child.symm
  · rcases hp.spawns.mem_or hr with hold | hborn
    · obtain ⟨k, hk, hgenuine, hheld⟩ := h.held r hold (hbefore r hold hruns)
      refine ⟨k, hk, hgenuine.ages hp.ages, ?_⟩
      rcases hheld with hheld | hheld | hsignalled
      · rcases hp.entry r hold k hk hheld hruns with hheld | hgot
        · exact .inl hheld
        · exact .inr (.inl (hgets r.id k hgot))
      · rcases hkeeps r.id k hheld with hgiven | hheld
        · rcases hp.call r.id k hgiven (hk ▸ hruns) with hheld | hgot | hsignalled
          · exact .inl hheld
          · exact .inr (.inl (hgets r.id k hgot))
          · exact .inr (.inr hsignalled)
        · exact .inr (.inl hheld)
      · exact .inr (.inr (hsignalled.grows hp.kills))
    · obtain ⟨k, hk, hgenuine, hheld | hgot⟩ := hborn.held
      · exact ⟨k, hk, hgenuine, .inl hheld⟩
      · exact ⟨k, hk, hgenuine, .inr (.inl (hgets r.id k hgot))⟩
  · rcases hp.spawns.mem_or hr with hold | hborn
    · exact (h.below r hold).trans_le hp.ages.length_le
    · exact hborn.lt
  · rcases hp.spawns.mem_or hr with hold | hborn
    · exact (h.spawned r hold).trans_eq hp.nextId.symm
    · exact hknown r.id hborn.known

/-- What the calls know stays true. -/
theorem calls_passes (h : Attended calls w) (hp : World.Passes held held' w w') :
    ∀ c ∈ calls, c.Warned w' ∧ c.Found w' := fun c hc =>
  ⟨(h.calls c hc).1.grows hp.kills, (h.calls c hc).2.congr hp.nextId⟩

/-- A section of the reaper. -/
theorem passes_none (h : Attended calls w) (hp : World.Passes none none w w') : Attended calls w' :=
  h.passes hp (fun _ _ hk => .inr hk) nofun (h.calls_passes hp)

theorem tends (h : Attended calls w) (ht : World.Tends w w') : Attended calls w' := h.passes_none (.keep ht)

end Attended

/-! ### Starts -/

/-- Neither tracked nor spawned so far. -/
structure World.Unused (id : ProcessId) (w : World) : Prop where
  untracked : w.processes.lookup id = none
  unspawned : ∀ r ∈ w.spawns, r.id ≠ id

theorem World.Unused.tends (h : w.Unused id) (ht : Tends w w') : w'.Unused id where
  untracked := by
    refine Option.eq_none_iff_forall_ne_some.mpr fun p' hp' => ?_
    obtain ⟨p, hp⟩ := ht.tracked id p' hp'
    exact absurd (h.untracked.symm.trans hp) nofun
  unspawned := ht.spawns ▸ h.unspawned

namespace Attended

variable {calls : List Call} {label : Label} {config : ProcessConfig}

theorem startWaiting (env : Env) (h : Attended calls w) (hid : id.raw < w.nextId) (hunused : w.Unused id)
    (deps : List ProcessId) : Attended calls (w.startWaiting env id label config deps) := by
  have htick : World.Tends w (w.tick env) := .os (w.osStep_tick (S := ∅) (P := fun _ => True) env)
  have hbump : World.Tends w (w.tick env).bumpSequence := { htick with }
  have hvacant : (w.tick env).bumpSequence.Vacant id := fun p hp =>
    absurd ((hunused.tends hbump).untracked.symm.trans hp) nofun
  exact (h.tends hbump).passes_none (.insert (p := w.waitingProcess env id label config deps) env hvacant hid)

/-- The child is spawned for an id that nobody knows, and its handle goes into the map. -/
theorem startNow (h : Attended calls w) (hid : id.raw < w.nextId) (hunused : w.Unused id)
    (deps : List ProcessId) : Attended calls (w.startNow env id label config deps).2 := by
  simp only [World.startNow]
  cases hspawn : w.spawnError env config with
  | some e => exact h.tends (.os (World.osStep_spawnProcess (S := ∅) (P := fun _ => True) hspawn))
  | none =>
    have hborn := World.passes_spawn .start deps h.below hspawn hid fun r hr hrid =>
      absurd hrid (hunused.unspawned r hr)
    set q := w.spawnedProcess env id label config deps with hq
    set w₁ := (w.spawnProcess env .start id config deps).bumpSequence
    have hid₁ : id.raw < w₁.nextId := hid.trans_eq hborn.nextId.symm
    -- until it is inserted, the entry is held as a call of `restart` holds its own
    have hspawned : Attended (.restart id (.insert q) :: calls) w₁ := by
      refine h.passes hborn ?_ (fun i k hk => ⟨_, List.mem_cons_self, hk⟩) fun c hc => ?_
      · rintro i k ⟨c, hc, hk⟩
        exact .inr ⟨c, List.mem_cons_of_mem _ hc, hk⟩
      · rcases List.mem_cons.mp hc with rfl | hc
        · exact ⟨trivial, hid₁⟩
        · exact h.calls_passes hborn c hc
    have hvacant : w₁.Vacant id := by
      intro p hp
      have hmap : w₁.processes = w.processes := World.spawnProcess_processes env _ _ _ _ w
      have hp : w₁.processes.lookup id = some p := hp
      rw [hmap, hunused.untracked] at hp
      cases hp
    have hinsert : World.Passes (q.handle.map (id, ·)) none w₁ (w₁.insert env id q) := .insert env hvacant hid₁
    have hinserted : Attended calls (w₁.insert env id q) := by
      refine hspawned.passes hinsert ?_ (by simp) fun c hc =>
        hspawned.calls_passes hinsert c (List.mem_cons_of_mem _ hc)
      rintro i k ⟨c, hc, hk⟩
      rcases List.mem_cons.mp hc with rfl | hc
      · exact .inl hk
      · exact .inr ⟨c, hc, hk⟩
    exact hinserted.tends (World.tends_markStartedEntry env id _)

theorem start (env : Env) (h : Attended calls w) (label : Label) (config : ProcessConfig) :
    Attended calls (w.start env label config).2 := by
  have hnext : Attended calls { w with nextId := w.nextId + 1 } := {
    one := h.one
    held := h.held
    below := h.below
    known := fun i p hp => (h.known i p hp).trans (Nat.lt_succ_self _)
    spawned := fun r hr => (h.spawned r hr).trans (Nat.lt_succ_self _)
    calls := fun c hc => ⟨(h.calls c hc).1.grows (P := fun _ => True) (.refl _), ?_⟩ }
  · have hunused : ({ w with nextId := w.nextId + 1 } : World).Unused ⟨w.nextId⟩ := {
      untracked := Option.eq_none_iff_forall_ne_some.mpr fun p hp => (h.known _ p hp).false
      unspawned := fun r hr hrid => by
        have hlt := h.spawned r hr
        rw [hrid] at hlt
        exact hlt.false }
    have hlt : (⟨w.nextId⟩ : ProcessId).raw < w.nextId + 1 := Nat.lt_succ_self _
    obtain heq | heq | ⟨w₁, hw₁, resolved, _, hcases⟩ := World.start_cases env label config w
    · rw [heq]; exact h
    · rw [heq]; exact hnext
    · rw [hw₁] at hnext hunused
      have hpolls := World.tends_allDepsRunning env resolved w₁
      have hlt₁ : (⟨w.nextId⟩ : ProcessId).raw < w₁.nextId := hw₁ ▸ hlt
      have hlt₂ := hlt₁.trans_eq hpolls.nextId.symm
      obtain ⟨_, _, heq⟩ | heq | heq := hcases <;> rw [heq]
      · exact (hnext.tends hpolls).startNow hlt₂ (hunused.tends hpolls) resolved
      · exact (hnext.tends hpolls).startWaiting env hlt₂ (hunused.tends hpolls) resolved
      · exact hnext.startWaiting env hlt₁ hunused resolved
  · have hfound := (h.calls c hc).2
    cases c with
    | stop s => trivial
    | restart id c =>
      cases c with
      | called | returned => trivial
      | reset | stopping | respawn | store | insert | inserted => exact Nat.lt_succ_of_lt hfound

end Attended

/-! ### Runs -/

/-- Calls of `stop` and `restart` and a reaper thread, each in the middle of its work. -/
structure CallsRun extends Threads Call World where
  reaper : ReaperPc

namespace CallsRun

/-- A process is started, a call begins, or one of the calls or the reaper takes its next section. -/
inductive Turn where
  | start (label : Label) (config : ProcessConfig)
  | stop (id : ProcessId)
  | restart (id : ProcessId)
  | call (n : ℕ)
  | reaper

def step (env : Env) (pollInterval : ℕ) (s : CallsRun) : Turn → CallsRun
  | .start label config => { s with shared := (s.shared.start env label config).2 }
  | .stop id => { s with threads := s.threads ++ [.stop (.call id)] }
  | .restart id => { s with threads := s.threads ++ [.restart id .called] }
  | .call n => { s with toThreads := s.toThreads.step (Call.next env) n }
  | .reaper =>
    let r := ReaperPc.step env pollInterval (s.reaper, s.shared)
    { s with shared := r.2, reaper := r.1 }

def run (env : Env) (pollInterval : ℕ) (turns : List Turn) (s : CallsRun) : CallsRun :=
  turns.foldl (step env pollInterval) s

/-- A new manager with its reaper thread. -/
def initial : CallsRun := ⟨⟨[], .withReaper⟩, .asleep⟩

/-- Nobody has put a running child in the way of the section, and no signal is refused. -/
def Harmless (env : Env) (s : CallsRun) : Turn → Prop
  | .call n => s.toThreads.AtStep (Call.Harmless env) n
  | .reaper => s.shared.reaper = .running → s.reaper.Harmless s.shared
  | _ => True

/-- The next section of the `n`-th call. -/
theorem attended_call {s : Threads Call World} {n : ℕ} (hs : Attended s.threads s.shared)
    (h : s.AtStep (Call.Harmless env) n) :
    Attended (s.step (Call.next env) n).threads (s.step (Call.next env) n).shared := by
  cases hn : s.threads[n]? with
  | none => rwa [Threads.step_of_none hn]
  | some c =>
    have hmem : c ∈ s.threads := List.mem_of_getElem? hn
    obtain ⟨hwarned, hfound⟩ := hs.calls c hmem
    obtain ⟨hpasses, hwarned'⟩ := Call.passes_next env hwarned hfound (h c hn) hs.below
    have hfound' : (c.next env s.shared).1.Found (c.next env s.shared).2 :=
      hfound.next env (hs.known) hpasses.nextId
    rw [Threads.step_of_some hn]
    have hlt : n < s.threads.length := (List.getElem?_eq_some_iff.mp hn).1
    refine hs.passes hpasses ?_ (fun i k hk => ⟨_, List.mem_set hlt _, hk⟩) fun c' hc' => ?_
    · rintro i k ⟨c', hc', hk⟩
      obtain ⟨j, hj⟩ := List.mem_iff_getElem?.mp hc'
      by_cases hjn : n = j
      · subst hjn
        obtain rfl : c = c' := Option.some.inj (hn.symm.trans hj)
        exact .inl hk
      · refine .inr ⟨c', List.mem_of_getElem? (i := j) ?_, hk⟩
        rw [List.getElem?_set_ne hjn, hj]
    · rcases List.mem_or_eq_of_mem_set hc' with hc' | rfl
      · exact hs.calls_passes hpasses c' hc'
      · exact ⟨hwarned', hfound'⟩

theorem attended_step (env : Env) (pollInterval : ℕ) {s : CallsRun} (hs : Attended s.threads s.shared) (t : Turn)
    (h : Harmless env s t) :
    Attended (s.step env pollInterval t).threads (s.step env pollInterval t).shared := by
  have hbegin : ∀ c : Call, c.holds = none → c.Warned s.shared → c.Found s.shared →
      Attended (s.threads ++ [c]) s.shared := by
    intro c hc hwarned hfound
    refine hs.passes (.keep (.refl s.shared) : World.Passes none none _ _)
      (fun i k ⟨c, hc, hk⟩ => .inr ⟨c, List.mem_append_left _ hc, hk⟩) nofun fun c' hc' => ?_
    rcases List.mem_append.mp hc' with hc' | hc'
    · exact hs.calls c' hc'
    · obtain rfl := List.mem_singleton.mp hc'
      exact ⟨hwarned, hfound⟩
  cases t with
  | start label config => exact hs.start env label config
  | stop id =>
    have hwarned : (StopPc.call id).Warned s.shared := .of_holds rfl
    exact hbegin _ rfl hwarned trivial
  | restart id => exact hbegin _ rfl trivial trivial
  | call n => exact attended_call hs h
  | reaper =>
    by_cases hr : s.shared.reaper = .running
    · have hstep : ReaperPc.step env pollInterval (s.reaper, s.shared) = s.reaper.next env pollInterval s.shared := by
        rw [ReaperPc.step, if_pos hr]
      simp only [step, hstep]
      exact hs.passes_none (ReaperPc.passes_next env pollInterval (h hr) hs.below)
    · have hstep : ReaperPc.step env pollInterval (s.reaper, s.shared) = (s.reaper, s.shared) := by
        rw [ReaperPc.step, if_neg hr]
      simp only [step, hstep]
      exact hs

theorem attended_initial : Attended initial.threads initial.shared where
  one _ hr := absurd hr List.not_mem_nil
  held _ hr := absurd hr List.not_mem_nil
  below _ hr := absurd hr List.not_mem_nil
  known i _ hp := absurd ((AList.lookup_empty i).symm.trans hp) nofun
  spawned _ hr := absurd hr List.not_mem_nil
  calls _ hc := absurd hc List.not_mem_nil

end CallsRun

end ProcessManager
