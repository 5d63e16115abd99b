import ProcessManager.System.OrderlyCalls

/-! Acting on what was found. `stop`, `restart` and the reaper check an entry in one section and act
on it in another. As long as the entry is then what it was, no child of a process without
dependencies is lost or doubled, however the sections are interleaved. -/

namespace ProcessManager

variable {env : Env} {pollInterval : ℕ} {w w' : World} {id i : ProcessId} {p : Process} {k : Handle}

/-! ### The reaper -/

/-- The reaper finds the entry that it respawns still in `Restarting`, and no call has spawned for it. -/
def ReaperPc.AsCollected (calls : List Call) : ReaperPc → World → Prop
  | .restart (id :: _), w => ∀ p ∈ w.processes.lookup id, p.state = .restarting ∧ Unstored calls id
  | _, _ => True

instance (calls : List Call) : ∀ (pc : ReaperPc) (w : World), Decidable (pc.AsCollected calls w)
  | .restart (id :: _), w =>
    inferInstanceAs (Decidable (∀ p ∈ w.processes.lookup id, p.state = .restarting ∧ Unstored calls id))
  | .asleep, _ | .detect .., _ | .search .., _ | .collect .., _ | .cascade .., _ | .remove .., _ | .report .., _
  | .schedule .., _ | .restart [], _ | .examine .., _ | .resolve .., _ | .extend .., _ | .recheck .., _
  | .spawn .., _ | .fail _, _ | .failFast _, _ | .failRunning .., _ | .discard .., _ => .isTrue trivial

/-! ### Runs -/

namespace CallsRun

/-- The threads act on what they have found. -/
structure InOrder (s : CallsRun) : Prop where
  attended : Attended s.threads s.shared
  orderly : Orderly s.threads s.shared
  reaper : s.reaper.Unburdened
  removing : ∀ i ∈ s.reaper.removing, i.raw < s.shared.nextId ∧ s.shared.Vacant i

/-- What the next section acts on is what its thread has found. -/
def UpToDate (env : Env) (s : CallsRun) : Turn → Prop
  | .call n => s.toThreads.AtStep (Call.UpToDate env s.threads s.reaper.removing) n
  | .reaper => s.shared.reaper = .running → s.reaper.AsCollected s.threads s.shared
  | _ => True

instance (env : Env) (s : CallsRun) : ∀ t, Decidable (UpToDate env s t)
  | .call n => inferInstanceAs (Decidable (s.toThreads.AtStep (Call.UpToDate env s.threads s.reaper.removing) n))
  | .reaper => inferInstanceAs (Decidable (s.shared.reaper = .running → s.reaper.AsCollected s.threads s.shared))
  | .start _ _ | .stop _ | .restart _ => .isTrue trivial

namespace InOrder

variable {s : CallsRun} {t : Turn}

theorem harmless_reaper (h : InOrder s) (hup : s.reaper.AsCollected s.threads s.shared) : s.reaper.Harmless s.shared := by
  have hreaper := h.reaper
  have hremoving := h.removing
  cases hpc : s.reaper with
  | remove now exited ids =>
    cases ids with
    | nil => trivial
    | cons id ids =>
      rw [hpc] at hremoving
      exact (hremoving id List.mem_cons_self).2
  | discard event inLoop rest =>
    rw [hpc] at hremoving
    exact (hremoving event.id List.mem_cons_self).2
  | restart ids =>
    cases ids with
    | nil => trivial
    | cons id ids =>
      rw [hpc] at hup
      intro p hp
      obtain ⟨hrestarting, hstores⟩ := hup p hp
      exact h.orderly.noneRuns_of_awaits ⟨p, hp, hrestarting⟩ hstores
  | spawn ids failing =>
    rw [hpc] at hreaper
    obtain ⟨rfl, _⟩ := hreaper
    trivial
  | asleep | detect | search | collect | cascade | report | schedule | examine | resolve | extend | recheck | fail
  | failFast | failRunning => trivial

theorem harmless (h : InOrder s) (hup : UpToDate env s t) : Harmless env s t := by
  cases t with
  | call n => exact fun c hn => h.orderly.harmless_call hn (hup c hn)
  | reaper => exact fun hrunning => h.harmless_reaper (hup hrunning)
  | start | stop | restart => trivial

theorem call (h : InOrder s) {n : ℕ} (hup : UpToDate env s (.call n)) : InOrder (s.step env pollInterval (.call n)) := by
  cases hn : s.threads[n]? with
  | none =>
    simp only [step, Threads.step_of_none hn]
    exact h
  | some c =>
    have hc : c ∈ s.threads := List.mem_of_getElem? hn
    obtain ⟨hwarned, hfound⟩ := h.attended.calls c hc
    have hpasses := (Call.passes_next env hwarned hfound (h.harmless hup c hn) h.attended.below).1
    have hattended := attended_call h.attended (h.harmless hup)
    have hplaces : ∀ i ∈ s.reaper.removing, c.places ≠ some i := fun i hi hplaces =>
      Call.not_mem_removing (hup c hn) hplaces hi
    rw [Threads.step_of_some hn] at hattended
    simp only [step, Threads.step_of_some hn]
    exact {
      attended := hattended
      orderly := h.orderly.call hn (hup c hn) h.attended.below h.attended.known hpasses
      reaper := h.reaper
      removing := fun i hi => ⟨hpasses.nextId ▸ (h.removing i hi).1,
        Call.vacant_next (h.orderly.simple c hc) h.orderly.standalone (hplaces i hi) (h.removing i hi).2⟩ }

theorem reaper_next (h : InOrder s) (hrunning : s.shared.reaper = .running) (hup : UpToDate env s .reaper) :
    InOrder (s.step env pollInterval .reaper) := by
  have hstep : ReaperPc.step env pollInterval (s.reaper, s.shared) = s.reaper.next env pollInterval s.shared := by
    rw [ReaperPc.step, if_pos hrunning]
  have hpasses := ReaperPc.passes_next env pollInterval (h.harmless hup hrunning) h.attended.below
  have hrestart : ∀ id ids, s.reaper = .restart (id :: ids) → s.shared.Vacant id := by
    intro id ids hpc p hp c hc
    have hfound := hup hrunning
    rw [hpc] at hfound
    rw [(h.orderly.standalone id p hp).childless (hfound p hp).1] at hc
    cases hc
  obtain ⟨hstandalone, hreaper, hremoving⟩ :=
    ReaperPc.standsAlone_next env pollInterval h.orderly.standalone h.reaper hrestart fun i hi => (h.removing i hi).2
  have htracked : ∀ i p', (s.reaper.next env pollInterval s.shared).2.processes.lookup i = some p' →
      ∃ p, s.shared.processes.lookup i = some p := by
    intro i p' hp'
    have hburies : World.Buries i s.shared (s.reaper.next env pollInterval s.shared).2 :=
      s.reaper.buries_next env pollInterval s.shared
    obtain hold | ⟨hge, hlt⟩ := hburies.entry p' hp'
    · exact hold
    · exact absurd (hlt.trans_eq hpasses.nextId) hge.not_gt
  simp only [step, hstep]
  exact {
    attended := h.attended.passes_none hpasses
    orderly := h.orderly.passes_none hstandalone h.attended.below hpasses htracked
    reaper := hreaper
    removing := fun i hi => by
      obtain ⟨hvacant, hold⟩ := hremoving i hi
      refine ⟨hpasses.nextId ▸ ?_, hvacant⟩
      rcases hold with hold | ⟨p, hp⟩
      · exact (h.removing i hold).1
      · exact h.attended.known i p hp }

theorem start (env : Env) (pollInterval : ℕ) (h : InOrder s) (label : Label) {config : ProcessConfig}
    (hdepends : config.dependsOn = []) : InOrder (s.step env pollInterval (.start label config)) where
  attended := h.attended.start env label config
  orderly := h.orderly.start env h.attended.spawned h.attended.below label hdepends
  reaper := h.reaper
  removing i hi := by
    obtain ⟨hid, hvacant⟩ := h.removing i hi
    have hne : i ≠ ⟨s.shared.nextId⟩ := fun heq => by
      rw [heq] at hid
      exact hid.false
    exact ⟨hid.trans_le (World.evolves_start env label config s.shared).nextId,
      (World.mends_start env h.orderly.standalone label hdepends).vacant i hne hvacant⟩

theorem begin (h : InOrder s) {c : Call} (hsimple : c.Simple s.shared) (hclaims : c.claims = none)
    (hattended : Attended (s.threads ++ [c]) s.shared) :
    InOrder { s with threads := s.threads ++ [c] } where
  attended := hattended
  orderly := h.orderly.begin hsimple hclaims
  reaper := h.reaper
  removing := h.removing

end InOrder

/-- A process that is started has no dependencies. -/
def Turn.Plain : Turn → Prop
  | .start _ config => config.dependsOn = []
  | _ => True

instance : ∀ t : Turn, Decidable t.Plain
  | .start _ config => inferInstanceAs (Decidable (config.dependsOn = []))
  | .stop _ | .restart _ | .call _ | .reaper => .isTrue trivial

theorem InOrder.step {s : CallsRun} {t : Turn} (h : InOrder s) (hplain : t.Plain) (hup : UpToDate env s t) :
    InOrder (s.step env pollInterval t) := by
  have hattended := attended_step env pollInterval h.attended t (h.harmless hup)
  cases t with
  | start label config => exact h.start env pollInterval label hplain
  | stop id => exact h.begin ⟨id, StopPc.simple_call id _⟩ rfl hattended
  | restart id => exact h.begin trivial rfl hattended
  | call n => exact h.call hup
  | reaper =>
    by_cases hrunning : s.shared.reaper = .running
    · exact h.reaper_next hrunning hup
    · have hstep : ReaperPc.step env pollInterval (s.reaper, s.shared) = (s.reaper, s.shared) := by
        rw [ReaperPc.step, if_neg hrunning]
      simp only [CallsRun.step, hstep]
      exact h

theorem inOrder_initial : InOrder initial where
  attended := attended_initial
  orderly := {
    standalone := fun i p hp => absurd ((AList.lookup_empty i).symm.trans hp) (Option.some_ne_none p).symm
    simple := fun c hc => absurd hc List.not_mem_nil
    retired := fun c hc => absurd hc List.not_mem_nil
    sole := fun m n c c' i hm => by cases hm
    settled := fun r hr => absurd hr List.not_mem_nil }
  reaper := trivial
  removing i hi := absurd hi List.not_mem_nil

/-- In every interleaving of the reaper with calls of `stop` and `restart` on processes without
dependencies, a process has at most one running child, and somebody has its handle until a stop has
signalled it, as long as each section acts on what its thread has found. -/
theorem children_in_custody (env : Env) (pollInterval : ℕ) (turns : List Turn) (hplain : ∀ t ∈ turns, t.Plain)
    (h : Fold.Meets (UpToDate env) (step env pollInterval) turns initial) :
    Safe (run env pollInterval turns initial).threads (run env pollInterval turns initial).shared := by
  have hmeets := Fold.meets_and h (Fold.meets_of_mem (c := fun _ t => Turn.Plain t) (fun t ht _ => hplain t ht) initial)
  have hinv : InOrder (run env pollInterval turns initial) :=
    Fold.invariant (fun _ _ hs ht => hs.step ht.2 ht.1) turns initial inOrder_initial hmeets
  exact hinv.attended.toSafe

/-- A process that exits is about to be restarted by the reaper. -/
def due : List Turn :=
  .start ⟨"web"⟩ { command := "/bin/web", restartOnExit := true } :: List.replicate 12 .reaper

/-- The first child crashes, and the second one exits after the signal of a stop. -/
def crashes : Env := .exitsAt [(3, ⟨0, .code 1, 0⟩), (30, ⟨1, .signal 15, 0⟩)]

/-- The reaper restarts the process, and a call of `restart` does so again during the next pass. -/
def restartAgain : List Turn :=
  due ++ List.replicate 10 .reaper ++ .restart ⟨1⟩ :: List.replicate 4 (.call 0) ++ List.replicate 12 .reaper ++
    List.replicate 62 (.call 0)

theorem children_in_custody_again :
    (run crashes 0 restartAgain initial).shared.spawns.length = 3 ∧
      Safe (run crashes 0 restartAgain initial).threads (run crashes 0 restartAgain initial).shared :=
  ⟨by decide +kernel, children_in_custody crashes 0 restartAgain (by decide) (by decide +kernel)⟩

/-- `restart` has cancelled the backoff and spawned when the reaper comes to the id it has collected. -/
def restartTwice : List Turn := due ++ [.restart ⟨1⟩, .call 0, .call 0, .call 0, .reaper, .call 0]

/-- `stop` has found the process in `Restarting` when the reaper respawns it. -/
def stopLate : List Turn := due ++ [.stop ⟨1⟩, .call 0, .reaper, .call 0]

/-- Two children of the process are running, of which the entry has one, or it has one that
no entry has. -/
theorem not_children_in_custody :
    (run crashes 0 restartTwice initial).shared.children.map OsChild.isRunning = [false, true, true] ∧
      ¬ Safe (run crashes 0 restartTwice initial).threads (run crashes 0 restartTwice initial).shared ∧
      (run crashes 0 stopLate initial).shared.processes.keys = [] ∧
      (run crashes 0 stopLate initial).shared.children.map OsChild.isRunning = [false, true] ∧
      ¬ Safe (run crashes 0 stopLate initial).threads (run crashes 0 stopLate initial).shared := by
  refine ⟨by decide +kernel, fun hsafe => ?_, by decide +kernel, by decide +kernel, fun hsafe => ?_⟩
  · have htwo : ∃ r ∈ (run crashes 0 restartTwice initial).shared.spawns,
        ∃ r' ∈ (run crashes 0 restartTwice initial).shared.spawns, r.id = r'.id ∧ r.child ≠ r'.child ∧
          (run crashes 0 restartTwice initial).shared.ChildRuns r.child ∧
          (run crashes 0 restartTwice initial).shared.ChildRuns r'.child := by decide +kernel
    obtain ⟨r, hr, r', hr', hid, hne, hruns, hruns'⟩ := htwo
    exact hne (hsafe.one r hr r' hr' hid hruns hruns')
  · have hlost : ∃ r ∈ (run crashes 0 stopLate initial).shared.spawns,
        (run crashes 0 stopLate initial).shared.ChildRuns r.child ∧
        (run crashes 0 stopLate initial).shared.processes.lookup r.id = none := by decide +kernel
    have hcalls : ∀ c ∈ (run crashes 0 stopLate initial).threads, c.holds = none := by decide +kernel
    have hkills : (run crashes 0 stopLate initial).shared.kills.length = 0 := by decide +kernel
    obtain ⟨r, hr, hruns, hnone⟩ := hlost
    obtain ⟨k, _, _, ⟨p, hp, _⟩ | ⟨c, hc, hk⟩ | ⟨kill, hkill, _⟩⟩ := hsafe.held r hr hruns
    · exact absurd (hnone.symm.trans hp) nofun
    · exact absurd ((hcalls c hc).symm.trans hk) nofun
    · rw [List.length_eq_zero_iff.mp hkills] at hkill
      cases hkill

end CallsRun

end ProcessManager
