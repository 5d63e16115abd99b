import ProcessManager.System.StalePids

/-! The cascade flag. Phase 1b sets it together with `Stopping`, and Phase 1 clears it when
it finds the exit. As long as a cascade only signals children that are still running, and
no call changes the state of a flagged process, the flag always means an exit that is
still to be handled and that the cascade may have caused. -/

namespace ProcessManager

variable {env : Env} {w w' : World} {id : ProcessId} {p p' : Process}

/-- Stopped by a cascade. -/
def Process.Flagged (p : Process) : Prop := p.cascadeFlag = true ∧ p.state = .stopping

theorem lively_flagged : Lively Process.Flagged where
  live _ h := .inr (.inr h.2)
  congr _ _ hstate hflag h := ⟨hflag ▸ h.1, hstate ▸ h.2⟩
  polled _ _ h := absurd h.2 (by simp)

/-- The call is a cascade signal to the child of the process, made while it was running. -/
def KillCall.Cascades (k : KillCall) (p : Process) : Prop :=
  k.site = .cascade ∧ k.child = p.child ∧
    ∃ c ch, p.child = some c ∧ k.children[c]? = some ch ∧ ch.isRunning = true

namespace World

/-- The process was signalled by a cascade while its child was running. -/
def Cascaded (w : World) (p : Process) : Prop := ∃ k ∈ w.kills, k.Cascades p

/-- The condition on what calls find: neither the re-insertion of a batch nor the timeout of
`start_with_deps` meets a flagged process. -/
def UnflaggedAt : Point → World → Process → Prop
  | .reinsert, _, p => p.cascadeFlag = false
  | .timeout, _, p => p.cascadeFlag = false
  | _, _, _ => True

/-- The cascade signal to `id` finds a flagged process or a running child. -/
def KillHitsRunning (env : Env) (w : World) (id : ProcessId) : Prop :=
  ∀ p ∈ w.processes.lookup id, p.pid ≠ 0 → p.cascadeFlag = true ∨
    ∃ c, c ∈ p.child ∧ ∃ ch, ch ∈ (w.tick env).children[c]? ∧ ch.isRunning = true

instance (env : Env) (w : World) (id : ProcessId) : Decidable (KillHitsRunning env w id) :=
  inferInstanceAs (Decidable (∀ p ∈ w.processes.lookup id, p.pid ≠ 0 → p.cascadeFlag = true ∨
    ∃ c, c ∈ p.child ∧ ∃ ch, ch ∈ (w.tick env).children[c]? ∧ ch.isRunning = true))

/-- All cascade signals of a pass do. -/
def CascadesHitRunning (env : Env) (pollInterval : ℕ) (w : World) : Prop :=
  Fold.Meets (KillHitsRunning env) (fun w id => w.cascadeKill env id)
    ((w.detect env pollInterval).2.cascadeTargets (w.detect env pollInterval).1.cascadeOrigins)
    ((w.detect env pollInterval).1.cascadeOrigins.foldl (fun w _ => w.touch .shared w.processes.keys)
      (w.detect env pollInterval).2)

/-- The invariant. -/
structure FlagsSound (w : World) : Prop where
  owned : Owned w
  stopping : ∀ i q, w.processes.lookup i = some q → q.cascadeFlag = true → q.state = .stopping
  held : Guarded Process.Flagged w
  cascaded : ∀ i q, w.processes.lookup i = some q → q.cascadeFlag = true → w.Cascaded q

theorem Cascaded.mono {P : KillCall → Prop} (h : w.Cascaded p) (hkills : Grows P w.kills w'.kills)
    (hchild : p'.child = p.child) : w'.Cascaded p' := by
  obtain ⟨k, hk, hsite, hkchild, hrunning⟩ := h
  exact ⟨k, hkills.mem_of_mem hk, hsite, hkchild.trans hchild.symm, hchild ▸ hrunning⟩

/-- A flagged entry of `m'` was flagged before, with the same state and child. -/
def FlagsKept (m m' : AssocMap ProcessId Process) : Prop :=
  ∀ i q', m'.lookup i = some q' → q'.cascadeFlag = true → ∃ q, m.lookup i = some q ∧
    q.cascadeFlag = true ∧ q'.state = q.state ∧ q'.child = q.child

theorem FlagsKept.refl (m : AssocMap ProcessId Process) : FlagsKept m m :=
  fun _ q' hq' hflag => ⟨q', hq', hflag, rfl, rfl⟩

theorem FlagsKept.of_kept {m m' : AssocMap ProcessId Process} (h : AssocMap.Refines Kept m m') :
    FlagsKept m m' := by
  intro i q' hq' hflag
  obtain ⟨q, hq, rfl⟩ := h i q' hq'
  exact ⟨q', hq, hflag, rfl, rfl⟩

/-- An entry is written back with its state and child if it is flagged. -/
theorem FlagsKept.put {m : AssocMap ProcessId Process} (hp : m.lookup id = some p)
    (hp' : p'.cascadeFlag = true → p.cascadeFlag = true ∧ p'.state = p.state ∧ p'.child = p.child) :
    FlagsKept m (m.replace id p') := by
  intro i q' hq' hflag
  rw [AssocMap.lookup_replace] at hq'
  split_ifs at hq' with hi
  · subst hi
    rw [hp] at hq'
    cases hq'
    obtain ⟨hflag, hstate, hchild⟩ := hp' hflag
    exact ⟨p, hp, hflag, hstate, hchild⟩
  · exact ⟨q', hq', hflag, rfl, rfl⟩

/-- A new entry is not flagged. -/
theorem FlagsKept.insert {m : AssocMap ProcessId Process} (hp : p.cascadeFlag = false) :
    FlagsKept m (AssocMap.reorder (env.rank w.ticks) (m.insert id p)) := by
  intro i q' hq' hflag
  rw [AssocMap.lookup_reorder, AssocMap.lookup_insert_eq] at hq'
  split_ifs at hq' with hi
  · cases hq'
    rw [hp] at hflag
    cases hflag
  · exact ⟨q', hq', hflag, rfl, rfl⟩

theorem grows_move {C : Point → World → Process → Prop} (h : Move env C w w') :
    Grows (fun _ => True) w.kills w'.kills := by
  cases h with
  | frame hstep => exact hstep.kills.mono fun _ _ => trivial
  | poll => exact (Process.osStep_pollState (P := fun _ => True)).kills
  | stop _ _ hstep => exact hstep.kills.mono fun _ _ => trivial
  | batch _ hstep => exact hstep.kills.mono fun _ _ => trivial
  | signal _ _ _ hstep => exact hstep.kills.mono fun _ _ => trivial
  | reset _ _ hstep => exact hstep.kills.mono fun _ _ => trivial
  | spawn _ _ hspawn => exact .of_eq hspawn.kills
  | insert _ hspawn => exact .of_eq hspawn.kills
  | failFast _ _ _ hstep => exact hstep.kills.mono fun _ _ => trivial
  | count | adjust | insertWaiting | toWaiting | timeout => exact .refl _

/-- No move flags a process, and none changes a flagged one. -/
theorem flagsKept_move (h : ∀ i q, w.processes.lookup i = some q → q.cascadeFlag = true → q.state = .stopping)
    (hmove : Move env UnflaggedAt w w') : FlagsKept w.processes w'.processes := by
  have hno : ∀ {i q}, w.processes.lookup i = some q → q.state ≠ .stopping → q.cascadeFlag ≠ true :=
    fun hq hstate hflag => hstate (h _ _ hq hflag)
  cases hmove with
  | frame hstep => exact .of_kept hstep.processes
  | count => exact .refl _
  | @poll i q _ hp =>
    rw [pollEntry_processes]
    refine .put hp fun hflag => ?_
    have hflag' : q.cascadeFlag = true := by rwa [Process.pollState_fst] at hflag
    have hstate := h i q hp hflag'
    rw [Process.pollState_of_settled (by simp [hstate]) (by simp [hstate])]
    exact ⟨hflag', rfl, rfl⟩
  | stop _ _ hstep =>
    rw [hstep.processes]
    exact .of_kept (.erase kept_refl _ _)
  | batch _ hstep =>
    intro i q' hq' hflag
    obtain ⟨q, hq, ⟨_, rfl⟩ | ⟨rfl, hC⟩⟩ := hstep.processes i q' hq'
    · exact ⟨q', hq, hflag, rfl, rfl⟩
    · exact absurd (hC.symm.trans hflag) (by simp)
  | signal _ _ _ hstep => exact .of_kept (hstep.processes ▸ .refl kept_refl _)
  | adjust hp hadjust =>
    exact .put hp fun hflag => ⟨hadjust.cascadeFlag ▸ hflag, hadjust.state, hadjust.child⟩
  | @reset i q _ _ hp hstate hstep =>
    have hflag : q.cascadeFlag ≠ true := hno hp (by simp [hstate])
    rw [put_processes, hstep.processes]
    exact .put hp fun hflag' => absurd hflag' hflag
  | @spawn i q _ _ _ _ _ hp hstate hspawn hrespawned =>
    have hflag : q.cascadeFlag ≠ true := by
      apply hno hp
      rcases hstate with hstate | hstate <;> simp [hstate]
    rw [put_processes, hspawn.processes]
    exact .put hp fun hflag' => absurd (hrespawned.cascadeFlag.symm.trans hflag') hflag
  | insert _ hspawn hfresh =>
    rw [insert_processes, hspawn.processes]
    exact .insert hfresh.cascadeFlag
  | insertWaiting _ hfresh => exact .insert hfresh.cascadeFlag
  | toWaiting hp _ _ _ _ _ hflag' => exact .put hp fun hflag => absurd (hflag'.symm.trans hflag) (by simp)
  | timeout hp hC => exact .put hp fun hflag => absurd (Eq.trans (Eq.symm hC) hflag) (by simp)
  | failFast _ _ _ hstep => exact .of_kept hstep.processes

/-- What keeps the flags keeps the invariant, if the children are still held. -/
theorem FlagsSound.of_kept {P : KillCall → Prop} (h : w.FlagsSound) (howned : Owned w')
    (hheld : Guarded Process.Flagged w') (hflags : FlagsKept w.processes w'.processes)
    (hkills : Grows P w.kills w'.kills) : w'.FlagsSound where
  owned := howned
  stopping i q' hq' hflag := by
    obtain ⟨q, hq, hflag', hstate, _⟩ := hflags i q' hq' hflag
    exact hstate.trans (h.stopping i q hq hflag')
  held := hheld
  cascaded i q' hq' hflag := by
    obtain ⟨q, hq, hflag', _, hchild⟩ := hflags i q' hq' hflag
    exact (h.cascaded i q hq hflag').mono hkills hchild

theorem flagsSound_move (h : w.FlagsSound) (hmove : Move env UnflaggedAt w w') : w'.FlagsSound :=
  h.of_kept (owned_move h.owned hmove) (guarded_move lively_flagged h.owned h.held hmove)
    (flagsKept_move h.stopping hmove) (grows_move hmove)

/-! ### Phases 1 to 3 -/

/-- The entries under `ids` are not flagged, and their children have exited. -/
def Exited (ids : List ProcessId) (w : World) : Prop :=
  ∀ id ∈ ids, ∀ p, w.processes.lookup id = some p → p.cascadeFlag = false ∧
    ∀ c ch, p.child = some c → w.children[c]? = some ch → ch.isRunning = false

theorem Exited.step {S : Set ℕ} {ids : List ProcessId} (h : w.Exited ids) (howned : Owned w)
    (hages : Ages S w.children w'.children)
    (hmap : ∀ id ∈ ids, ∀ p', w'.processes.lookup id = some p' → w.processes.lookup id = some p') :
    w'.Exited ids := by
  intro id hid p hp
  have hp' := hmap id hid p hp
  obtain ⟨hflag, hexited⟩ := h id hid p hp'
  refine ⟨hflag, fun c ch hc hch => ?_⟩
  obtain ⟨ch₀, hch₀, _⟩ := howned.handle id p hp' c hc
  obtain ⟨ch', hch', hage⟩ := hages c ch₀ hch₀
  obtain rfl : ch = ch' := Option.some.inj (hch.symm.trans hch')
  by_contra hr
  have hrunning := hage.running (by simpa using hr)
  rw [hexited c ch₀ hc hch₀] at hrunning
  cases hrunning

/-- Phase 1 flags nothing, and takes the flag from what it records. -/
theorem flagsSound_detect (env : Env) (pollInterval : ℕ)
    (hkey : ∀ i q, w.processes.lookup i = some q → q.id = i) (h : w.FlagsSound) :
    (w.detect env pollInterval).2.FlagsSound ∧ (w.detect env pollInterval).2.Exited
      ((w.detect env pollInterval).1.exited.map ExitedProcess.id) := by
  have hstart : OsStep ∅ (fun _ => False) w (w.awake env pollInterval) := osStep_awake env pollInterval w
  have hmove : Move env UnflaggedAt w (w.awake env pollInterval) := .frame (.of_osStep kept_refl hstart)
  have hawake : (w.awake env pollInterval).FlagsSound := flagsSound_move h hmove
  have hdetected : Detected Process.Flagged (w.detect env pollInterval).1 (w.detect env pollInterval).2 :=
    detected_phase1 lively_flagged _ ⟨hkey, hawake.owned, hawake.held⟩
  have hphase := phase1State_detect env pollInterval hkey
  have hunflagged : ∀ e ∈ (w.detect env pollInterval).1.exited, ∀ p,
      (w.detect env pollInterval).2.processes.lookup e.id = some p → p.cascadeFlag = false := by
    intro e he p hp
    obtain ⟨_, _, _, hp', _⟩ := hphase.recorded e he
    rw [hp'] at hp
    cases hp
    rfl
  have hflags : FlagsKept w.processes (w.detect env pollInterval).2.processes := by
    intro i q' hq' hflag
    obtain ⟨q, hq, rfl | rfl | rfl⟩ := hphase.visited i q' hq'
    · exact ⟨q', hq, hflag, rfl, rfl⟩
    · cases hflag
    · unfold Process.afterPoll at hflag ⊢
      have hflag' : q.cascadeFlag = true := by
        split_ifs at hflag <;> exact (Process.stableUptime_cascadeFlag _ q).symm.trans hflag
      rw [if_neg (by simp [h.stopping i q hq hflag'])]
      exact ⟨q, hq, hflag', Process.stableUptime_state _ q, Process.stableUptime_child _ q⟩
  refine ⟨hawake.of_kept hdetected.owned ?_ hflags (kills_phase1 env _ _), ?_⟩
  · intro i q hq hflagged
    refine (hdetected.guarded i q hq hflagged).imp_left fun hi => ?_
    obtain ⟨e, he, rfl⟩ := List.mem_map.mp hi
    exact absurd hflagged.1 (by simp [hunflagged e he q hq])
  · intro i hi p hp
    obtain ⟨e, he, rfl⟩ := List.mem_map.mp hi
    refine ⟨hunflagged e he p hp, fun c ch hc hch => ?_⟩
    obtain ⟨q, d, ch', _, _, hq, hd, hch', hstatus, _⟩ := collected_detect env pollInterval hkey e he
    obtain rfl : p = q := Option.some.inj (hp.symm.trans hq)
    obtain rfl : c = d := Option.some.inj (hc.symm.trans hd)
    obtain rfl : ch = ch' := Option.some.inj (hch.symm.trans hch')
    simp [OsChild.isRunning, hstatus]

/-- A signal to a running child is logged with it. -/
theorem flagsSound_cascadeKill {ids : List ProcessId} (h : w.FlagsSound) (hexited : w.Exited ids)
    (hhits : KillHitsRunning env w id) :
    (w.cascadeKill env id).FlagsSound ∧ (w.cascadeKill env id).Exited ids := by
  -- the child of the target was not collected yet
  have hheld : ∀ p, w.processes.lookup id = some p → p.pid ≠ 0 → id ∈ [] ∨ p.Uncollected w.children := by
    intro p hp hpid
    rcases hhits p hp hpid with hflag | ⟨c, hc, ch', hch', hrunning⟩
    · exact h.held id p hp ⟨hflag, h.stopping id p hp hflag⟩
    · obtain ⟨ch, hch, heq⟩ := h.owned.handle id p hp c hc
      obtain ⟨ch₁, hch₁, hage⟩ := w.ages_tick env c ch hch
      obtain rfl : ch' = ch₁ := Option.some.inj (Eq.trans (Eq.symm hch') hch₁)
      exact .inr ⟨c, ch, hc, hch, heq, OsChild.isReaped_of_isRunning (hage.running hrunning)⟩
  have howned : Owned (w.cascadeKill env id) := owned_cascadeKill h.owned
  have hguarded : Guarded Process.Flagged (w.cascadeKill env id) :=
    guardedBut_cascadeKill h.held h.owned hheld
  obtain ⟨_, heq⟩ | ⟨p, hp, hpid, heq⟩ := cascadeKill_cases env id w <;> rw [heq] at howned hguarded ⊢
  · exact ⟨h.of_kept howned hguarded (.refl _) (.refl _ : Grows (fun _ => True) _ _), hexited⟩
  · set w₁ := ((w.lock .exclusive id).kill env .cascade { p with cascadeFlag := true, state := .stopping }
      p.config.killSignal.toSignal) with hw₁
    have hgrows : Grows (fun _ => True) w.kills w₁.kills := .cons _ trivial
    have hlookup : ∀ i q', ((w₁.put id { p with cascadeFlag := true, state := .stopping }).unlock
        .exclusive id).processes.lookup i = some q' → (i = id ∧ q' = { p with
          cascadeFlag := true, state := .stopping }) ∨ (i ≠ id ∧ w.processes.lookup i = some q') := by
      intro i q' hq'
      rw [unlock_processes, put_processes, AssocMap.lookup_replace] at hq'
      split_ifs at hq' with hi
      · obtain ⟨_, _, rfl⟩ := Option.map_eq_some_iff.mp hq'
        exact .inl ⟨hi, rfl⟩
      · exact .inr ⟨hi, hq'⟩
    refine ⟨⟨howned, fun i q' hq' hflag => ?_, hguarded, fun i q' hq' hflag => ?_⟩, ?_⟩
    · obtain ⟨_, rfl⟩ | ⟨_, hq⟩ := hlookup i q' hq'
      · rfl
      · exact h.stopping i q' hq hflag
    · obtain ⟨rfl, rfl⟩ | ⟨_, hq⟩ := hlookup i q' hq'
      · rcases hhits p hp hpid with hflag | ⟨c, hc, ch, hch, hrunning⟩
        · exact (h.cascaded i p hp hflag).mono hgrows rfl
        · exact ⟨_, List.mem_cons_self, rfl, rfl, c, ch, hc, hch, hrunning⟩
      · exact (h.cascaded i q' hq hflag).mono hgrows rfl
    · refine hexited.step h.owned (w.ages_tick env) fun i hi q' hq' => ?_
      obtain ⟨rfl, _⟩ | ⟨_, hq⟩ := hlookup i q' hq'
      · -- a recorded exit is not a target
        obtain ⟨hflag, hnot⟩ := hexited i hi p hp
        rcases hhits p hp hpid with hflag' | ⟨c, hc, ch', hch', hrunning⟩
        · rw [hflag] at hflag'
          cases hflag'
        · obtain ⟨ch, hch, _⟩ := h.owned.handle i p hp c hc
          obtain ⟨ch₁, hch₁, hage⟩ := w.ages_tick env c ch hch
          obtain rfl : ch' = ch₁ := Option.some.inj (Eq.trans (Eq.symm hch') hch₁)
          have hr := hage.running hrunning
          rw [hnot c ch hc hch] at hr
          cases hr
      · exact hq

/-- The flags are sound, and the entries of these exits are not flagged. -/
structure Unflagged (exited : List ExitedProcess) (w : World) : Prop where
  flags : w.FlagsSound
  unflagged : ∀ e ∈ exited, ∀ p, w.processes.lookup e.id = some p → p.cascadeFlag = false

theorem Unflagged.schedule {now : Instant} {exited : List ExitedProcess} {e : ExitedProcess} (h : Unflagged exited w)
    (he : e ∈ exited) : Unflagged exited (scheduleEntry env now e w) := by
  have hflags : FlagsKept w.processes (scheduleEntry env now e w).processes := by
    obtain ⟨heq, _⟩ | ⟨heq, _⟩ | ⟨config, label, p, w₁, _, hp, hstep, hcases⟩ :=
      scheduleEntry_cases (P := fun _ => False) env now e w <;> try rw [heq]
    · exact .refl _
    · exact .refl _
    · have hput : ∀ q : Process, q.cascadeFlag = p.cascadeFlag →
          FlagsKept w.processes (w₁.put e.id q).processes := by
        intro q hq
        rw [put_processes, hstep.processes]
        refine .put hp fun hflag => ?_
        rw [hq, h.unflagged e he p hp] at hflag
        cases hflag
      obtain ⟨_, heq⟩ | ⟨rs, rs', _, _, heq⟩ | ⟨rs, _, _, heq⟩ := hcases <;> rw [heq] <;>
        exact hput _ rfl
  have hkills : Grows (fun _ => False) w.kills (scheduleEntry env now e w).kills :=
    .of_eq (kills_scheduleEntry env now e w)
  refine ⟨h.flags.of_kept (owned_scheduleEntry h.flags.owned) ?_ hflags hkills, fun f hf p hp => ?_⟩
  · refine guardedBut_scheduleEntry lively_flagged h.flags.held h.flags.owned fun _ p hp hflagged => ?_
    exact absurd hflagged.1 (by simp [h.unflagged e he p hp])
  · by_contra hflag
    obtain ⟨q, hq, hflag', _⟩ := hflags f.id p hp (by simpa using hflag)
    rw [h.unflagged f hf q hq] at hflag'
    cases hflag'

theorem flagsSound_phase3 {now : Instant} {exited : List ExitedProcess} (h : w.FlagsSound)
    (hexited : w.Exited (exited.map ExitedProcess.id)) : (w.phase3 env now exited).FlagsSound := by
  have hinit : Unflagged exited w := ⟨h, fun e he p hp => (hexited e.id (List.mem_map_of_mem he) p hp).1⟩
  exact (Fold.foldl_invariant (I := Unflagged exited) hinit fun _ _ he hw' =>
    ifRunning_invariant hw' fun _ => hw'.schedule he).flags

theorem flagsSound_afterPhase3 (pollInterval : ℕ)
    (hkey : ∀ i q, w.processes.lookup i = some q → q.id = i) (h : w.FlagsSound)
    (hhits : w.CascadesHitRunning env pollInterval) : (w.afterPhase3 env pollInterval).FlagsSound := by
  obtain ⟨hdetect, hexited⟩ := flagsSound_detect env pollInterval hkey h
  set ids := (w.detect env pollInterval).1.exited.map ExitedProcess.id
  obtain ⟨hcascade, hexited⟩ : (w.cascade env pollInterval).FlagsSound ∧
      (w.cascade env pollInterval).Exited ids := by
    refine Fold.invariant (I := fun w' : World => w'.FlagsSound ∧ w'.Exited ids)
      (fun w' id hw' hC => flagsSound_cascadeKill hw'.1 hw'.2 hC) _ _ ?_ hhits
    refine Fold.foldl_invariant (I := fun w' : World => w'.FlagsSound ∧ w'.Exited ids)
      ⟨hdetect, hexited⟩ fun w' _ _ hw' => ⟨?_, hw'.2⟩
    exact ⟨{ hw'.1.owned with }, hw'.1.stopping, hw'.1.held, hw'.1.cascaded⟩
  have hphase2 := mapStep_passDetect (P := fun _ => False) env pollInterval w
  have hmove : Move env UnflaggedAt (w.cascade env pollInterval) _ := .frame hphase2
  have hremoved : (w.passDetect env pollInterval).2.2.FlagsSound := flagsSound_move hcascade hmove
  have hexited₂ : (w.passDetect env pollInterval).2.2.Exited ids := by
    refine hexited.step hcascade.owned hphase2.children fun i _ q' hq' => ?_
    obtain ⟨q, hq, rfl⟩ := hphase2.processes i q' hq'
    exact hq
  exact ifRunning_invariant hremoved fun _ => flagsSound_phase3 hremoved hexited₂

/-! ### What the flag promises -/

/-- A flagged process is `Stopping`, and its exit is still to be collected. -/
def FlagsPending (w : World) : Prop :=
  ∀ id p, w.processes.lookup id = some p → p.cascadeFlag = true →
    p.state = .stopping ∧ p.Uncollected w.children

/-- `e` reports the exit of `p` for what it is, and a restart has the consequences that the
strategy of `p` asks for. -/
structure ReportsOwn (now : Instant) (p : Process) (status : ExitStatus) (x : Exits)
    (e : ExitedProcess) : Prop where
  record : e = (p.stableUptime now).exitRecord status
  cascade : (p.stableUptime now).willRestart status = true → p.config.supervisorStrategy ≠ .oneForOne →
    (p.stableUptime now).cascadeOrigin ∈ x.cascadeOrigins

/-- Every exit that the next pass finds, and that no cascade caused, is handled as such,
with the status that was collected from the child. -/
def CrashesReported (env : Env) (pollInterval : ℕ) (w : World) : Prop :=
  ∀ e ∈ (w.detect env pollInterval).1.exited, (w.detect env pollInterval).2.Collected e ∧
    (w.reaper = .running → (w.passDetect env pollInterval).2.2.receiverAlive = true →
      e.event ∈ (w.passDetect env pollInterval).2.2.events) ∧
    ∃ p status, w.processes.lookup e.id = some p ∧ (¬ w.Cascaded p →
      ReportsOwn (w.awake env pollInterval).clock p status (w.detect env pollInterval).1 e)

theorem FlagsSound.pending (h : w.FlagsSound) : w.FlagsPending := fun id p hp hflag =>
  ⟨h.stopping id p hp hflag, (h.held id p hp ⟨hflag, h.stopping id p hp hflag⟩).resolve_left
    List.not_mem_nil⟩

theorem FlagsSound.crashesReported (pollInterval : ℕ)
    (hkey : ∀ i q, w.processes.lookup i = some q → q.id = i) (h : w.FlagsSound) :
    w.CrashesReported env pollInterval := by
  intro e he
  obtain ⟨p, status, hp, _, hrecord⟩ := (phase1State_detect env pollInterval hkey).recorded e he
  refine ⟨collected_detect env pollInterval hkey e he, fun hr halive => ?_, p, status, hp, fun hno => ?_⟩
  · exact phase2_events ((reaper_cascade env pollInterval w).trans hr) halive e he
  · have hflag : p.cascadeFlag = false :=
      eq_false_of_ne_true fun hflag => hno (h.cascaded e.id p hp hflag)
    refine ⟨?_, fun hrestart hstrategy => hrecord.consequences.cascadeOrigins ?_⟩
    · rw [hrecord.record, Process.record, if_neg (by simp [hflag])]
    · simp [Exits.add, Exits.empty, hflag, hrestart, hstrategy]

end World

/-! ### Runs -/

namespace System

/-- No re-insertion and no timeout of the run meets a flagged process, and every cascade
signal finds a flagged process or a running child. -/
def CascadesClean (env : Env) (pollInterval : ℕ) : System → Action → Prop :=
  StepMeets env World.UnflaggedAt (World.CascadesHitRunning env pollInterval)

/-- The flag only marks processes that a cascade stops, and the exits of all others are
reported and handled as their own. -/
theorem flags_pending_and_crashes_reported (env : Env) (pollInterval : ℕ) {s : System} (hs : s.Initial)
    (actions : List Action)
    (h : Fold.Meets (CascadesClean env pollInterval) (step env pollInterval) actions s) :
    (s.run env pollInterval actions).world.FlagsPending ∧
      (s.run env pollInterval actions).world.CrashesReported env pollInterval := by
  have hsound : (s.run env pollInterval actions).world.FlagsSound := by
    refine run_invariant (I := World.FlagsSound) (fun _ _ => trivial) ?_
      (fun _ _ => World.flagsSound_move) ?_ hs actions h
    · rintro s (rfl | rfl) <;> refine ⟨⟨?_, ?_⟩, ?_, ?_, ?_⟩ <;>
        simp [new, withReaper, World.new, World.withReaper, Guarded, GuardedBut]
    · exact fun w hw hI hD _ => World.flagsSound_afterPhase3 pollInterval hw.key hI hD
  exact ⟨hsound.pending, hsound.crashesReported pollInterval (sound_run env pollInterval hs actions).key⟩

/-- A member of a group that is restarted as a whole. -/
def groupMember : ProcessConfig :=
  { command := "/bin/web", restartOnExit := true, supervisorStrategy := .oneForAll }

def startGroup : List Action := [.start ⟨"web"⟩ groupMember, .start ⟨"web"⟩ groupMember]

/-- One of two members crashes before the pass. -/
def oneCrash : System := withReaper.run (.exitsAt [(6, ⟨0, .code 1, 0⟩)]) 0 (startGroup ++ [.pass])

theorem flags_pending_and_crashes_reported_group :
    (oneCrash.world.processes.lookup ⟨2⟩).map (fun p => (p.state, p.cascadeFlag)) =
        some (.stopping, true) ∧
      oneCrash.world.FlagsPending ∧
        oneCrash.world.CrashesReported (.exitsAt [(6, ⟨0, .code 1, 0⟩)]) 0 := by
  refine ⟨by decide +kernel, flags_pending_and_crashes_reported _ 0 (.inr rfl) _
    ⟨trivial, trivial, fun _ => ?_, trivial⟩⟩
  unfold World.CascadesHitRunning
  decide +kernel

/-- Both members crash before the first pass, and one of them again before the third. -/
def bothCrash : Env := .exitsAt [(6, ⟨0, .code 1, 0⟩), (6, ⟨1, .code 1, 0⟩), (25, ⟨2, .code 1, 0⟩)]

def restartedGroup : System := withReaper.run bothCrash 0 (startGroup ++ [.pass])

def runningGroup : System := withReaper.run bothCrash 0 (startGroup ++ [.pass, .pass])

/-- Each crash selects the other member, whose exit is already recorded: both come back with
the flag set, and the next crash is reported as `Stopped`. -/
theorem not_flags_pending_and_crashes_reported :
    ¬ restartedGroup.world.FlagsPending ∧ ¬ runningGroup.world.CrashesReported bothCrash 0 := by
  constructor
  · intro h
    have hflagged : (restartedGroup.world.processes.lookup ⟨1⟩).map
        (fun p => (p.state, p.cascadeFlag)) = some (.starting, true) := by decide +kernel
    obtain ⟨p, hp, hmap⟩ := Option.map_eq_some_iff.mp hflagged
    obtain ⟨hstate, hflag⟩ := Prod.mk.inj hmap
    rw [(h ⟨1⟩ p hp hflag).1] at hstate
    cases hstate
  · intro h
    have hfound : ((runningGroup.world.detect bothCrash 0).1.exited.map
        fun e => (e.id, e.exitStatus, e.state)) = [(⟨1⟩, some (.code 1), .stopped)] := by
      decide +kernel
    obtain ⟨e, he, hmap⟩ := List.mem_map.mp (hfound ▸ List.mem_singleton_self _)
    simp only [Prod.mk.injEq] at hmap
    obtain ⟨hid, hexit, hstate⟩ := hmap
    obtain ⟨_, _, p, status, hp, hreports⟩ := h e he
    have hchild : (runningGroup.world.processes.lookup ⟨1⟩).map Process.child = some (some 2) := by
      decide +kernel
    have hsignalled : ∀ k ∈ runningGroup.world.kills, k.child ≠ some 2 := by decide +kernel
    rw [hid] at hp
    rw [hp, Option.map_some, Option.some.injEq] at hchild
    have hrecord := (hreports fun ⟨k, hk, _, hkchild, _⟩ =>
      hsignalled k hk (hkchild.trans hchild)).record
    rw [hrecord] at hexit hstate
    obtain rfl : status = .code 1 := Option.some.inj hexit
    simp only [Process.exitRecord, Process.exitState] at hstate
    split_ifs at hstate
    cases hstate

end System

end ProcessManager
