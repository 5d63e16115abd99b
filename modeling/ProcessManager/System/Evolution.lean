import ProcessManager.System.Moves
import ProcessManager.Reaper.Cascade
import ProcessManager.Reaper.Sends

/-! What an id stands for. Whatever the manager does, an entry keeps the id, label and
configuration it was started with, a spawn, a signal or an event is only ever for an entry
that is tracked or for an id that was not given out before, and entries are numbered in the
order in which they were inserted. -/

namespace ProcessManager

variable {env : Env} {w w' w'' : World} {id i : ProcessId} {p p' p'' q : Process}

/-! ### Entries -/

/-- What an entry keeps for good, also when `restart` puts it back. -/
structure Process.Alike (p p' : Process) : Prop where
  id : p'.id = p.id
  label : p'.label = p.label
  config : p'.config = p.config
  terminateOnExit : p'.terminateOnExit = p.terminateOnExit

/-- What an entry keeps as long as it is not put back. -/
structure Process.Continues (p p' : Process) : Prop extends Process.Alike p p' where
  spawnSequence : p'.spawnSequence = p.spawnSequence

theorem Process.Alike.refl (p : Process) : p.Alike p := ⟨rfl, rfl, rfl, rfl⟩

theorem Process.Alike.trans (h : p.Alike p') (h' : p'.Alike p'') : p.Alike p'' :=
  ⟨h'.id.trans h.id, h'.label.trans h.label, h'.config.trans h.config,
    h'.terminateOnExit.trans h.terminateOnExit⟩

theorem Process.Continues.refl (p : Process) : p.Continues p := ⟨.refl p, rfl⟩

theorem Process.Continues.trans (h : p.Continues p') (h' : p'.Continues p'') : p.Continues p'' :=
  ⟨h.toAlike.trans h'.toAlike, h'.spawnSequence.trans h.spawnSequence⟩

theorem Process.Continues.symm (h : p.Continues p') : p'.Continues p :=
  ⟨⟨h.id.symm, h.label.symm, h.config.symm, h.terminateOnExit.symm⟩, h.spawnSequence.symm⟩

theorem Process.Continues.of_polled (h : Process.Polled id p p') : p.Continues p' := by
  obtain rfl | ⟨_, _, _, rfl⟩ := h
  · exact .refl p'
  · exact ⟨⟨rfl, rfl, rfl, rfl⟩, rfl⟩

theorem Process.Continues.stableUptime (now : Instant) (p : Process) : p.Continues (p.stableUptime now) := by
  rw [Process.stableUptime_eq]
  exact ⟨⟨rfl, rfl, rfl, rfl⟩, rfl⟩

/-- The event names the process by its label, and reports that it ended. -/
structure ProcessExitEvent.Describes (e : ProcessExitEvent) (p : Process) : Prop where
  label : e.label = p.label
  restartOnExit : e.restartOnExit = p.config.restartOnExit
  state : e.state.isTerminated = true

theorem ProcessExitEvent.Describes.of_alike {e : ProcessExitEvent} (h : p.Alike p') (he : e.Describes p') :
    e.Describes p :=
  ⟨he.label.trans h.label, he.restartOnExit.trans (congrArg ProcessConfig.restartOnExit h.config), he.state⟩

theorem Process.describes_endEvent (id : ProcessId) (p : Process) {s : ProcessState}
    (hs : s.isTerminated = true) : (p.endEvent id s).Describes p := ⟨rfl, rfl, hs⟩

theorem Process.describes_record (p : Process) (status : ExitStatus) :
    (p.record status).event.Describes p := by
  unfold Process.record
  split_ifs
  · exact ⟨rfl, rfl, rfl⟩
  · refine ⟨rfl, rfl, ?_⟩
    show (p.exitState status).isTerminated = true
    unfold Process.exitState Process.exitBase
    split_ifs <;> rfl

namespace World

/-! ### Worlds -/

/-- Every entry is under its own id, with the flag its configuration asks for. -/
def Filed (w : World) : Prop :=
  ∀ i q, w.processes.lookup i = some q → q.id = i ∧ q.terminateOnExit = q.config.terminateOnExit

/-- The id is tracked and its entry satisfies `Q`, or the id was not given out yet. -/
def Concerns (w : World) (id : ProcessId) (Q : Process → Prop) : Prop :=
  (∃ p, w.processes.lookup id = some p ∧ Q p) ∨ w.nextId ≤ id.raw

/-- Entries are numbered in the order of their insertion, without repetition. -/
structure Ordered (w : World) : Prop where
  below : ∀ i p, w.processes.lookup i = some p → p.spawnSequence < w.nextSpawnSequence
  unique : ∀ i j p q, w.processes.lookup i = some p → w.processes.lookup j = some q →
    p.spawnSequence = q.spawnSequence → i = j

theorem Ordered.of_refines (h : w.Ordered) (hn : w.nextSpawnSequence ≤ w'.nextSpawnSequence)
    (hmap : AssocMap.Refines (fun _ => Process.Continues) w.processes w'.processes) : w'.Ordered where
  below i p' hp' := by
    obtain ⟨p, hp, hsame⟩ := hmap i p' hp'
    rw [hsame.spawnSequence]
    exact (h.below i p hp).trans_le hn
  unique i j p' q' hp' hq' heq := by
    obtain ⟨p, hp, hsame⟩ := hmap i p' hp'
    obtain ⟨q, hq, hsame'⟩ := hmap j q' hq'
    exact h.unique i j p q hp hq (by rw [← hsame.spawnSequence, ← hsame'.spawnSequence, heq])

/-- What happened between two worlds is about processes tracked in the first or about new ones. -/
structure Evolves (w w' : World) : Prop where
  nextId : w.nextId ≤ w'.nextId
  entries : ∀ id p', w'.processes.lookup id = some p' → w.Concerns id (·.Alike p')
  spawns : Grows (fun k => w.Concerns k.id fun p => k.config = p.config) w.spawns w'.spawns
  kills : Grows (fun k => w.Concerns k.id fun _ => True) w.kills w'.kills
  sends : Grows (fun k => w.Concerns k.event.id k.event.Describes) w.sends w'.sends
  ordered : w.Ordered → w'.Ordered
  filed : w.Filed → w'.Filed

theorem Concerns.of_lookup {Q : Process → Prop} (hp : w.processes.lookup id = some p) (h : Q p) :
    w.Concerns id Q := .inl ⟨p, hp, h⟩

namespace Evolves

theorem refl (w : World) : Evolves w w where
  nextId := le_rfl
  entries _ p hp := .of_lookup hp (.refl p)
  spawns := .refl _
  kills := .refl _
  sends := .refl _
  ordered h := h
  filed h := h

/-- What concerns a later world concerns an earlier one. -/
theorem concerns {Q Q' : Process → Prop} (h : Evolves w w') (hQ : ∀ p p', p.Alike p' → Q' p' → Q p)
    (hconcerns : w'.Concerns id Q') : w.Concerns id Q := by
  obtain ⟨p', hp', hQ'⟩ | hnew := hconcerns
  · obtain ⟨p, hp, halike⟩ | hnew := h.entries id p' hp'
    · exact .of_lookup hp (hQ p p' halike hQ')
    · exact .inr hnew
  · exact .inr (h.nextId.trans hnew)

theorem trans (h : Evolves w w') (h' : Evolves w' w'') : Evolves w w'' where
  nextId := h.nextId.trans h'.nextId
  entries id p' hp' := h.concerns (fun _ _ => Process.Alike.trans) (h'.entries id p' hp')
  spawns := h.spawns.trans (h'.spawns.mono fun _ =>
    h.concerns fun _ _ halike heq => heq.trans halike.config)
  kills := h.kills.trans (h'.kills.mono fun _ => h.concerns fun _ _ _ _ => trivial)
  sends := h.sends.trans (h'.sends.mono fun _ => h.concerns fun _ _ => .of_alike)
  ordered ho := h'.ordered (h.ordered ho)
  filed hf := h'.filed (h.filed hf)

theorem foldl {α : Type*} {f : World → α → World} (h : ∀ w a, Evolves w (f w a)) (l : List α) (w : World) :
    Evolves w (l.foldl f w) :=
  Fold.foldl_rel .refl (fun _ _ _ => .trans) h l w

/-- Entries change one at a time; nothing is spawned or sent. -/
theorem of_refines (hmap : AssocMap.Refines (fun _ => Process.Continues) w.processes w'.processes)
    (hid : w'.nextId = w.nextId) (hn : w'.nextSpawnSequence = w.nextSpawnSequence)
    (hspawns : w'.spawns = w.spawns) (hsends : w'.sends = w.sends)
    (hkills : Grows (fun k => w.Concerns k.id fun _ => True) w.kills w'.kills) : Evolves w w' where
  nextId := hid.ge
  entries i q hq := by
    obtain ⟨p, hp, hsame⟩ := hmap i q hq
    exact .of_lookup hp hsame.toAlike
  spawns := .of_eq hspawns
  kills := hkills
  sends := .of_eq hsends
  ordered h := h.of_refines hn.ge hmap
  filed h i q hq := by
    obtain ⟨p, hp, hsame⟩ := hmap i q hq
    obtain ⟨hid, hflag⟩ := h i p hp
    exact ⟨hsame.id.trans hid, by rw [hsame.terminateOnExit, hflag, hsame.config]⟩

theorem of_mapStep {R : ProcessId → Process → Process → Prop} {S : Set ℕ} {P : KillCall → Prop}
    (hR : ∀ i p p', R i p p' → p.Continues p') (hP : ∀ k, P k → w.Concerns k.id fun _ => True)
    (h : MapStep R S P w w') (hn : w'.nextSpawnSequence = w.nextSpawnSequence)
    (hsends : w'.sends = w.sends) : Evolves w w' :=
  of_refines (h.processes.mono hR) h.nextId hn h.spawns hsends (h.kills.mono hP)

/-- Time passes, children are waited for and guards are taken. -/
theorem os {S : Set ℕ} (h : OsStep S (fun _ => False) w w') (hsends : w'.sends = w.sends) : Evolves w w' :=
  of_refines (h.processes ▸ .refl (fun _ => .refl) _) h.nextId h.nextSpawnSequence h.spawns hsends
    (h.kills.mono fun _ => False.elim)

theorem tick (env : Env) (w : World) : Evolves w (w.tick env) := os (S := ∅) (w.osStep_tick env) rfl

theorem sleep (env : Env) (ns : ℕ) (w : World) : Evolves w (w.sleep env ns) :=
  os (S := ∅) (w.osStep_sleep env ns) rfl

theorem lock (m : Guards.Mode) (i : ProcessId) (w : World) : Evolves w (w.lock m i) := os (S := ∅) (.lock ..) rfl

theorem unlock (m : Guards.Mode) (i : ProcessId) (w : World) : Evolves w (w.unlock m i) :=
  os (S := ∅) (.unlock ..) rfl

theorem touch (m : Guards.Mode) (ids : List ProcessId) (w : World) : Evolves w (w.touch m ids) :=
  os (S := ∅) (.touch ..) rfl

theorem tick_if (env : Env) (b : Bool) (w : World) : Evolves w (if b then w.tick env else w) := by
  cases b
  · exact refl w
  · exact tick env w

/-- The reaper thread ends. -/
theorem ended (r : ReaperStatus) (w : World) : Evolves w { w with reaper := r } :=
  of_refines (.refl (fun _ => .refl) _) rfl rfl rfl rfl (.refl _)

theorem put_of (h : ∀ p, w.processes.lookup i = some p → p.Continues q) : Evolves w (w.put i q) :=
  of_refines (.replace_of (fun _ => .refl) h) rfl rfl rfl rfl (.refl _)

theorem put (hp : w.processes.lookup i = some p) (h : p.Continues q) : Evolves w (w.put i q) :=
  put_of fun _ hp' => Option.some.inj (hp.symm.trans hp') ▸ h

theorem remove (i : ProcessId) (w : World) : Evolves w (w.remove i) :=
  of_refines (.erase (fun _ => .refl) _ i) rfl rfl rfl rfl (.refl _)

theorem removeEntry (i : ProcessId) (w : World) : Evolves w (w.removeEntry i) :=
  ((lock _ i w).trans (remove i _)).trans (unlock _ i _)

theorem ifRunning {f : World → World} (h : ∀ w, Evolves w (f w)) (w : World) : Evolves w (w.ifRunning f) :=
  ifRunning_invariant (.refl w) fun _ => h w

/-- System calls for what the first world tracks: signals, waiting and events. -/
theorem after_os {S : Set ℕ} {P : KillCall → Prop} (h : Evolves w w') (hstep : OsStep S P w' w'')
    (hP : ∀ k, P k → w.Concerns k.id fun _ => True)
    (hsends : Grows (fun k => w.Concerns k.event.id k.event.Describes) w'.sends w''.sends) : Evolves w w'' where
  nextId := h.nextId.trans_eq hstep.nextId.symm
  entries i q hq := h.entries i q (hstep.processes ▸ hq)
  spawns := h.spawns.trans (.of_eq hstep.spawns)
  kills := h.kills.trans (hstep.kills.mono hP)
  sends := h.sends.trans hsends
  ordered ho := (h.ordered ho).of_refines hstep.nextSpawnSequence.ge
    (hstep.processes ▸ .refl (fun _ => .refl) _)
  filed hf i q hq := h.filed hf i q (hstep.processes ▸ hq)

theorem send {event : ProcessExitEvent} (h : Evolves w w') (hevent : w.Concerns event.id event.Describes) :
    Evolves w (w'.send env event) := by
  refine h.after_os (S := ∅) (P := fun _ => False) (osStep_send env event w') (fun _ => False.elim) ?_
  obtain ⟨_, hsends⟩ | ⟨_, hsends⟩ := send_outcome env event w' <;> rw [hsends]
  · exact .cons _ hevent
  · exact .refl _

theorem sendOrReturn {event : ProcessExitEvent} (h : Evolves w w') (hevent : w.Concerns event.id event.Describes) :
    Evolves w (w'.sendOrReturn env event) := by
  have hsend : Evolves w (w'.send env event) := h.send hevent
  unfold World.sendOrReturn
  split_ifs
  · exact hsend
  · exact hsend.trans (ended _ _)

/-- A spawn for an entry of the first world, or for a new id. -/
theorem spawnProcess {config : ProcessConfig} (h : Evolves w w') (site : SpawnSite) (deps : List ProcessId)
    (hconfig : w.Concerns id fun p => config = p.config) :
    Evolves w (w'.spawnProcess env site id config deps) := by
  cases herror : w'.spawnError env config with
  | some e =>
    exact h.trans (os (S := ∅) (osStep_spawnProcess herror) (spawnProcess_sends env site id config deps w'))
  | none =>
    obtain ⟨program, heq⟩ := spawnProcess_of_ok site id deps herror
    rw [heq]
    have htick := h.trans (tick env w')
    exact { htick with
      spawns := h.spawns.trans (.cons _ hconfig)
      ordered := fun ho => (htick.ordered ho).of_refines le_rfl (.refl (fun _ => .refl) _) }

theorem bumpSequence (w : World) : Evolves w w.bumpSequence where
  nextId := le_rfl
  entries := (refl w).entries
  spawns := .refl _
  kills := .refl _
  sends := .refl _
  ordered h := h.of_refines (Nat.le_succ _) (.refl (fun _ => .refl) _)
  filed h := h

/-- An entry with the next number is inserted, for a process of the first world or a new id. -/
theorem insertNext (h : Evolves w w') (hid : p.id = id ∧ p.terminateOnExit = p.config.terminateOnExit)
    (hp : w.Concerns id (·.Alike p))
    (hnumber : p.spawnSequence = w'.nextSpawnSequence) :
    Evolves w (w'.bumpSequence.insert env id p) := by
  have hlookup : ∀ {i q}, (w'.bumpSequence.insert env id p).processes.lookup i = some q →
      (i = id ∧ q = p) ∨ w'.processes.lookup i = some q := by
    intro i q hq
    rw [insert_processes, AssocMap.lookup_reorder, AssocMap.lookup_insert_eq] at hq
    split_ifs at hq with hi
    · exact .inl ⟨hi, (Option.some.inj hq).symm⟩
    · exact .inr hq
  refine { h with entries := fun i q hq => ?_, ordered := fun ho => ?_, filed := fun hf i q hq => ?_ }
  · obtain ⟨rfl, rfl⟩ | hq := hlookup hq
    · exact hp
    · exact h.entries i q hq
  · have hbelow : ∀ i q, w'.processes.lookup i = some q → q.spawnSequence < p.spawnSequence := by
      rw [hnumber]
      exact (h.ordered ho).below
    refine ⟨fun i q hq => Nat.lt_succ_of_le ?_, fun i j r q hr hq heq => ?_⟩
    · rw [← hnumber]
      obtain ⟨_, rfl⟩ | hq := hlookup hq
      · exact le_rfl
      · exact (hbelow i q hq).le
    · obtain ⟨rfl, rfl⟩ | hr' := hlookup hr <;> obtain ⟨rfl, rfl⟩ | hq' := hlookup hq
      · rfl
      · exact absurd heq (hbelow j q hq').ne'
      · exact absurd heq (hbelow i r hr').ne
      · exact (h.ordered ho).unique i j r q hr' hq' heq
  · obtain ⟨rfl, rfl⟩ | hq := hlookup hq
    · exact hid
    · exact h.filed hf i q hq

end Evolves

end World

end ProcessManager
