import ProcessManager.Reaper.Exits
import ProcessManager.System.Moves

/-! Who holds the handle of which child. No handle is held by two entries, so waiting for
the child of one process never collects the child of another, and a process that is alive
keeps its uncollected child until something acts on its own entry. -/

namespace ProcessManager

variable {env : Env} {C : Point → World → Process → Prop} {w w' : World} {S : Set ℕ}
  {id : ProcessId} {p p' : Process} {G : Process → Prop}

/-- The handles in the map belong to spawned children, and no two entries share one. -/
structure Owned (w : World) : Prop where
  handle : ∀ i q, w.processes.lookup i = some q → ∀ c, q.child = some c →
    ∃ ch, w.children[c]? = some ch ∧ ch.pid = q.pid
  unique : ∀ i j q q', w.processes.lookup i = some q → w.processes.lookup j = some q' →
    ∀ c, q.child = some c → q'.child = some c → i = j

/-- An entry keeps its handle or gives it up. -/
def KeepsHandle (_ : ProcessId) (p p' : Process) : Prop :=
  p'.child = none ∨ (p'.child = p.child ∧ p'.pid = p.pid)

theorem KeepsHandle.refl (id : ProcessId) (p : Process) : KeepsHandle id p p := .inr ⟨rfl, rfl⟩

theorem KeepsHandle.of_kept (id : ProcessId) (p p' : Process) (h : Kept id p p') :
    KeepsHandle id p p' := by
  rw [show p' = p from h]
  exact .refl id p

theorem KeepsHandle.child {c : ℕ} (h : KeepsHandle id p p') (hc : p'.child = some c) :
    p.child = some c ∧ p'.pid = p.pid := by
  rcases h with h | ⟨h, hpid⟩
  · rw [h] at hc
    cases hc
  · exact ⟨h ▸ hc, hpid⟩

namespace Owned

theorem disjoint {i j : ProcessId} {q q' : Process} (h : Owned w) (hij : i ≠ j)
    (hq : w.processes.lookup i = some q) (hq' : w.processes.lookup j = some q') :
    Disjoint q.handles q'.handles :=
  Set.disjoint_left.mpr fun c hc hc' => hij (h.unique i j q q' hq hq' c hc hc')

end Owned

/-- Children age, and entries keep their handles or give them up, except that `id` may get
the next child. -/
structure HandsTo (id : ProcessId) (w w' : World) : Prop where
  ages : Ages Set.univ w.children w'.children
  map : ∀ i q', w'.processes.lookup i = some q' →
    (∃ q, w.processes.lookup i = some q ∧ KeepsHandle i q q') ∨
    (i = id ∧ ∀ c, q'.child = some c → c = w.nextChild ∧
      ∃ ch, w'.children[c]? = some ch ∧ ch.pid = q'.pid)

/-- As `HandsTo`, for some process. -/
def Hands (w w' : World) : Prop := ∃ id, HandsTo id w w'

namespace Hands

theorem of_refines (hages : Ages S w.children w'.children)
    (hmap : AssocMap.Refines KeepsHandle w.processes w'.processes) : Hands w w' :=
  ⟨⟨0⟩, hages.mono (Set.subset_univ S), fun i q' hq' => .inl (hmap i q' hq')⟩

/-- An entry is written back, perhaps with a new child. -/
theorem put (hp : w.processes.lookup id = some p) (hages : Ages S w.children w'.children)
    (hmap : w'.processes = w.processes) (hp' : KeepsHandle id p p' ∨ ∀ c, p'.child = some c →
      c = w.nextChild ∧ ∃ ch, w'.children[c]? = some ch ∧ ch.pid = p'.pid) :
    Hands w (w'.put id p') := by
  refine ⟨id, hages.mono (Set.subset_univ S), fun i q' hq' => ?_⟩
  rw [World.put_processes, hmap, AssocMap.lookup_replace] at hq'
  split_ifs at hq' with hi
  · subst hi
    rw [hp] at hq'
    cases hq'
    exact hp'.imp (fun hkeeps => ⟨p, hp, hkeeps⟩) fun hnew => ⟨rfl, hnew⟩
  · exact .inl ⟨q', hq', .refl i q'⟩

theorem insert (hages : Ages S w.children w'.children) (hmap : w'.processes = w.processes)
    (hp : ∀ c, p.child = some c → c = w.nextChild ∧ ∃ ch, w'.children[c]? = some ch ∧ ch.pid = p.pid) :
    Hands w (w'.insert env id p) := by
  refine ⟨id, hages.mono (Set.subset_univ S), fun i q' hq' => ?_⟩
  rw [World.insert_processes, AssocMap.lookup_reorder, hmap, AssocMap.lookup_insert_eq] at hq'
  split_ifs at hq' with hi
  · cases hq'
    exact .inr ⟨hi, hp⟩
  · exact .inl ⟨q', hq', .refl i q'⟩

/-- The child that was just spawned. -/
theorem newChild {site : SpawnSite} {config : ProcessConfig} {deps : List ProcessId}
    (hspawn : Spawned env site id config deps w w') (hchild : p.child = some w.nextChild)
    (hpid : p.pid = w.nextPid env) (c : ℕ) (hc : p.child = some c) :
    c = w.nextChild ∧ ∃ ch, w'.children[c]? = some ch ∧ ch.pid = p.pid := by
  obtain rfl : w.nextChild = c := Option.some.inj (hchild.symm.trans hc)
  obtain ⟨ch, hch, heq, _⟩ := hspawn.child
  exact ⟨rfl, ch, hch, heq.trans hpid.symm⟩

end Hands

theorem hands_move (hmove : World.Move env C w w') : Hands w w' := by
  cases hmove with
  | frame hstep => exact .of_refines hstep.children (hstep.processes.mono KeepsHandle.of_kept)
  | count => exact .of_refines (.refl _ : Ages ∅ _ _) (.refl KeepsHandle.refl _)
  | @poll i q _ hp =>
    have hstep : MapStep Process.Polled _ _ w (w.pollEntry env i q) :=
      World.mapStep_pollEntry (P := fun _ => True) hp
    refine .of_refines hstep.children (hstep.processes.mono ?_)
    rintro i q q' (rfl | ⟨_, s, _, rfl⟩) <;> exact .refl i _
  | stop hp _ hstep =>
    refine .of_refines hstep.children ?_
    rw [hstep.processes]
    exact .erase KeepsHandle.refl _ _
  | batch _ hstep =>
    refine .of_refines hstep.children (hstep.processes.mono ?_)
    rintro i q q' (⟨_, rfl⟩ | ⟨rfl, _⟩)
    · exact .refl i q'
    · exact .inr ⟨rfl, rfl⟩
  | signal _ _ _ hstep => exact .of_refines hstep.children (hstep.processes ▸ .refl KeepsHandle.refl _)
  | adjust hp hadjust =>
    exact .put hp (.refl _ : Ages ∅ _ _) rfl (.inl (.inr ⟨hadjust.child, hadjust.pid⟩))
  | reset hp _ hstep => exact .put hp hstep.children hstep.processes (.inl (.inl rfl))
  | spawn hp _ hspawn hrespawned =>
    exact .put hp hspawn.children hspawn.processes
      (.inr (Hands.newChild hspawn hrespawned.child hrespawned.pid))
  | insert _ hspawn _ hchild hpid =>
    exact .insert hspawn.children hspawn.processes (Hands.newChild hspawn hchild hpid)
  | insertWaiting _ _ hchild =>
    refine .insert (.refl _ : Ages ∅ _ _) rfl fun c hc => ?_
    rw [hchild] at hc
    cases hc
  | toWaiting hp _ _ hchild hpid =>
    exact .put hp (.refl _ : Ages ∅ _ _) rfl (.inl (.inr ⟨hchild, hpid⟩))
  | timeout hp => exact .put hp (.refl _ : Ages ∅ _ _) rfl (.inl (.inr ⟨rfl, rfl⟩))
  | failFast _ _ _ hstep => exact .of_refines hstep.children (hstep.processes.mono KeepsHandle.of_kept)

namespace Owned

theorem child_lt (h : Owned w) (hp : w.processes.lookup id = some p) {c : ℕ} (hc : p.child = some c) :
    c < w.nextChild := by
  obtain ⟨ch, hch, _⟩ := h.handle id p hp c hc
  exact (List.getElem?_eq_some_iff.mp hch).1

theorem hands (h : Owned w) (hands : Hands w w') : Owned w' := by
  obtain ⟨id, hages, hmap⟩ := hands
  constructor
  · intro i q' hq' c hc
    obtain ⟨q, hq, hkeeps⟩ | ⟨_, hnew⟩ := hmap i q' hq'
    · obtain ⟨hc, hpid⟩ := hkeeps.child hc
      obtain ⟨ch, hch, heq⟩ := h.handle i q hq c hc
      obtain ⟨ch', hch', hage⟩ := hages c ch hch
      exact ⟨ch', hch', hage.pid.trans (heq.trans hpid.symm)⟩
    · exact (hnew c hc).2
  · intro i j q' q'' hq' hq'' c hc hc'
    -- the next child was held by nobody
    obtain ⟨q, hq, hkeeps⟩ | ⟨rfl, hnew⟩ := hmap i q' hq' <;>
      obtain ⟨r, hr, hkeeps'⟩ | ⟨rfl, hnew'⟩ := hmap j q'' hq''
    · exact h.unique i j q r hq hr c (hkeeps.child hc).1 (hkeeps'.child hc').1
    · exact absurd (hnew' c hc').1 (h.child_lt hq (hkeeps.child hc).1).ne
    · exact absurd (hnew c hc).1 (h.child_lt hr (hkeeps'.child hc').1).ne
    · rfl

theorem of_refines (h : Owned w) (hages : Ages S w.children w'.children)
    (hmap : AssocMap.Refines KeepsHandle w.processes w'.processes) : Owned w' :=
  h.hands (.of_refines hages hmap)

/-- An entry is written back, perhaps with a new child. -/
theorem put (h : Owned w) (hp : w.processes.lookup id = some p) (hages : Ages S w.children w'.children)
    (hmap : w'.processes = w.processes) (hp' : KeepsHandle id p p' ∨ ∀ c, p'.child = some c →
      c = w.nextChild ∧ ∃ ch, w'.children[c]? = some ch ∧ ch.pid = p'.pid) :
    Owned (w'.put id p') :=
  h.hands (.put hp hages hmap hp')

end Owned

theorem owned_move (h : Owned w) (hmove : World.Move env C w w') : Owned w' :=
  h.hands (hands_move hmove)

/-! ### Uncollected children -/

/-- A property of live processes that is read off the state and the flag. -/
structure Lively (G : Process → Prop) : Prop where
  live : ∀ p, G p → p.state = .starting ∨ p.state = .running ∨ p.state = .stopping
  congr : ∀ p p', p'.state = p.state → p'.cascadeFlag = p.cascadeFlag → G p' → G p
  polled : ∀ p, p.state = .starting → G { p with state := .running } → G p

/-- Every entry with `G`, except those in `ids`, holds its uncollected child. -/
def GuardedBut (ids : List ProcessId) (G : Process → Prop) (w : World) : Prop :=
  ∀ i q, w.processes.lookup i = some q → G q → i ∈ ids ∨ q.Uncollected w.children

/-- Every entry with `G` holds its uncollected child. -/
def Guarded (G : Process → Prop) (w : World) : Prop := GuardedBut [] G w

theorem Lively.not_of_state (hG : Lively G) (hstate : p.state ≠ .starting)
    (hstate' : p.state ≠ .running) (hstate'' : p.state ≠ .stopping) : ¬ G p := by
  intro h
  rcases hG.live p h with h | h | h
  · exact hstate h
  · exact hstate' h
  · exact hstate'' h

namespace GuardedBut

variable {ids : List ProcessId}

/-- What was not collected stays so, and entries change in ways that matter only where
they get a fresh child. -/
theorem step (w' : World) (h : GuardedBut ids G w) (hages : Ages S w.children w'.children)
    (hmap : ∀ i q', w'.processes.lookup i = some q' → G q' →
      (∃ q, w.processes.lookup i = some q ∧ G q ∧ q'.child = q.child ∧ q'.pid = q.pid ∧
        (i ∉ ids → Disjoint q.handles S)) ∨ i ∈ ids ∨ q'.Uncollected w'.children) :
    GuardedBut ids G w' := by
  intro i q' hq' hG'
  obtain ⟨q, hq, hG, hchild, hpid, hdisjoint⟩ | h' := hmap i q' hq' hG'
  · by_cases hi : i ∈ ids
    · exact .inl hi
    · obtain ⟨c, ch, hc, hch, heq, hr⟩ :=
        ((h i q hq hG).resolve_left hi).ages hages (hdisjoint hi)
      exact .inr ⟨c, ch, hchild ▸ hc, hch, heq.trans hpid.symm, hr⟩
  · exact h'

/-- Nothing is collected, and every entry is an old one. -/
theorem of_kept (h : GuardedBut ids G w) (hages : Ages ∅ w.children w'.children)
    (hmap : AssocMap.Refines Kept w.processes w'.processes) : GuardedBut ids G w' := by
  refine h.step w' hages fun i q' hq' hG' => ?_
  obtain ⟨q, hq, rfl⟩ := hmap i q' hq'
  exact .inl ⟨q', hq, hG', rfl, rfl, fun _ => Set.disjoint_empty _⟩

/-- One entry is written back, and only its own child may be collected. -/
theorem put (h : GuardedBut ids G w) (howned : Owned w) (hp : w.processes.lookup id = some p)
    (hages : Ages p.handles w.children w'.children) (hmap : w'.processes = w.processes)
    (hself : G p' → id ∈ ids ∨ p'.Uncollected w'.children) : GuardedBut ids G (w'.put id p') := by
  refine h.step (w'.put id p') hages fun i q' hq' hG' => ?_
  rw [World.put_processes, hmap, AssocMap.lookup_replace] at hq'
  split_ifs at hq' with hi
  · rw [hp] at hq'
    cases hq'
    exact .inr (hi ▸ hself hG')
  · exact .inl ⟨q', hq', hG', rfl, rfl, fun _ => howned.disjoint hi hq' hp⟩

theorem insert (h : GuardedBut ids G w) (hages : Ages ∅ w.children w'.children)
    (hmap : w'.processes = w.processes) (hself : G p → p.Uncollected w'.children) :
    GuardedBut ids G (w'.insert env id p) := by
  refine h.step (w'.insert env id p) hages fun i q' hq' hG' => ?_
  rw [World.insert_processes, AssocMap.lookup_reorder, hmap, AssocMap.lookup_insert_eq] at hq'
  split_ifs at hq' with hi
  · cases hq'
    exact .inr (.inr (hself hG'))
  · exact .inl ⟨q', hq', hG', rfl, rfl, fun _ => Set.disjoint_empty _⟩

end GuardedBut

/-- Polling keeps a live process only while its child was not collected. -/
theorem uncollected_pollState (hG : Lively G) (hp : G p → p.Uncollected w.children)
    (hG' : G (p.pollState env w).1) :
    (p.pollState env w).1.Uncollected (p.pollState env w).2.children := by
  obtain heq | ⟨hstate, ⟨_, heq⟩ | ⟨c, _, heq⟩⟩ := Process.pollState_cases env p w <;> rw [heq] at hG' ⊢
  · exact hp hG'
  · exact absurd hG' (hG.not_of_state (by simp) (by simp) (by simp))
  · cases hresult : w.waitResult env c with
    | error =>
      rw [hresult] at hG'
      exact absurd hG' (hG.not_of_state (by simp [World.WaitResult.state])
        (by simp [World.WaitResult.state]) (by simp [World.WaitResult.state]))
    | exited status =>
      rw [hresult] at hG'
      refine absurd hG' (hG.not_of_state ?_ ?_ ?_) <;>
        simp only [World.WaitResult.state] <;> split_ifs <;> simp
    | running =>
      rw [hresult] at hG'
      have hbefore : G p := by
        rcases hstate with hs | hs
        · exact hG.polled p hs hG'
        · exact hG.congr p { p with state := .running } hs.symm rfl hG'
      rw [(Process.waitResult_running hresult).1]
      exact (hp hbefore).ages (w.ages_tick env) (Set.disjoint_empty _)

theorem uncollected_of_spawned {site : SpawnSite} {config : ProcessConfig} {deps : List ProcessId}
    (hspawn : Spawned env site id config deps w w') (hchild : p.child = some w.nextChild)
    (hpid : p.pid = w.nextPid env) : p.Uncollected w'.children := by
  obtain ⟨ch, hch, heq, hr⟩ := hspawn.child
  exact ⟨w.nextChild, ch, hchild, hch, heq.trans hpid.symm, hr⟩

theorem guarded_move (hG : Lively G) (howned : Owned w) (h : Guarded G w)
    (hmove : World.Move env C w w') : Guarded G w' := by
  have hself : ∀ {i q}, w.processes.lookup i = some q → G q → q.Uncollected w.children :=
    fun hq hGq => (h _ _ hq hGq).resolve_left List.not_mem_nil
  cases hmove with
  | frame hstep => exact h.of_kept hstep.children hstep.processes
  | count => exact h
  | @poll i q _ hp =>
    have hstep : OsStep q.handles (fun _ => True) w (q.pollState env w).2 := Process.osStep_pollState
    refine GuardedBut.put h howned hp hstep.children hstep.processes fun hG' => .inr ?_
    exact uncollected_pollState hG (hself hp) hG'
  | @stop i q _ _ hp _ hstep =>
    refine GuardedBut.step _ h hstep.children fun j q' hq' hG' => .inl ?_
    rw [hstep.processes, World.remove_processes, AssocMap.lookup_erase_eq] at hq'
    split_ifs at hq' with hj
    exact ⟨q', hq', hG', rfl, rfl, fun _ => howned.disjoint hj hq' hp⟩
  | batch _ hstep =>
    refine GuardedBut.step _ h hstep.children fun j q' hq' hG' => .inl ?_
    obtain ⟨q, hq, ⟨hj, rfl⟩ | ⟨rfl, _⟩⟩ := hstep.processes j q' hq'
    · refine ⟨q', hq, hG', rfl, rfl, fun _ => Set.disjoint_left.mpr ?_⟩
      rintro c hc ⟨k, hk, r, hr, hc'⟩
      exact hj (howned.unique j k q' r hq hr c hc hc' ▸ hk)
    · exact absurd hG' (hG.not_of_state (by simp) (by simp) (by simp))
  | signal _ _ _ hstep => exact h.of_kept hstep.children (hstep.processes ▸ .refl kept_refl _)
  | adjust hp hadjust =>
    refine GuardedBut.put h howned hp (.refl _) rfl fun hG' => .inr ?_
    obtain ⟨c, ch, hc, hrest⟩ := hself hp (hG.congr _ _ hadjust.state hadjust.cascadeFlag hG')
    exact ⟨c, ch, hadjust.child.trans hc, hadjust.pid ▸ hrest⟩
  | reset hp hstate hstep =>
    refine GuardedBut.put h howned hp hstep.children hstep.processes fun hG' => ?_
    exact absurd hG' (hG.not_of_state (by simp [hstate]) (by simp [hstate]) (by simp [hstate]))
  | spawn hp _ hspawn hrespawned =>
    exact GuardedBut.put h howned hp hspawn.children.of_empty hspawn.processes
      fun _ => .inr (uncollected_of_spawned hspawn hrespawned.child hrespawned.pid)
  | insert _ hspawn _ hchild hpid =>
    exact GuardedBut.insert h hspawn.children hspawn.processes
      fun _ => uncollected_of_spawned hspawn hchild hpid
  | insertWaiting _ _ _ _ hstate =>
    refine GuardedBut.insert h (.refl _) rfl fun hG' => ?_
    exact absurd hG' (hG.not_of_state (by simp [hstate]) (by simp [hstate]) (by simp [hstate]))
  | toWaiting hp _ _ _ _ hstate =>
    refine GuardedBut.put h howned hp (.refl _) rfl fun hG' => ?_
    exact absurd hG' (hG.not_of_state (by simp [hstate]) (by simp [hstate]) (by simp [hstate]))
  | timeout hp =>
    refine GuardedBut.put h howned hp (.refl _) rfl fun hG' => ?_
    exact absurd hG' (hG.not_of_state (by simp) (by simp) (by simp))
  | failFast _ _ _ hstep => exact h.of_kept hstep.children hstep.processes

/-! ### Phases 1 to 3 -/

theorem GuardedBut.mono {ids ids' : List ProcessId} (h : GuardedBut ids G w) (hids : ids ⊆ ids') :
    GuardedBut ids' G w :=
  fun i q hq hG => (h i q hq hG).imp_left fun hi => hids hi

/-- An exception that no longer has `G`, or is gone. -/
theorem GuardedBut.drop {ids : List ProcessId} (h : GuardedBut (id :: ids) G w)
    (hid : ∀ q, w.processes.lookup id = some q → ¬ G q) : GuardedBut ids G w := by
  intro i q hq hG
  refine (h i q hq hG).imp_left fun hi => (List.mem_cons.mp hi).resolve_left ?_
  rintro rfl
  exact hid q hq hG

theorem Lively.of_afterPoll {now : Instant} (hG : Lively G) (h : G (p.afterPoll now)) : G p := by
  unfold Process.afterPoll at h
  split_ifs at h with hstarting
  · refine hG.polled p hstarting (hG.congr _ _ ?_ ?_ h)
    · rfl
    · exact Process.stableUptime_cascadeFlag now p
  · exact hG.congr _ _ (by simp) (by simp) h

/-- The handles and keys are in order, and every entry with `G` holds its uncollected
child, except those whose exit was recorded. -/
structure Detected (G : Process → Prop) (x : Exits) (w : World) : Prop where
  key : ∀ i q, w.processes.lookup i = some q → q.id = i
  owned : Owned w
  guarded : GuardedBut (x.exited.map ExitedProcess.id) G w

theorem Detected.unlock {x : Exits} {m : Guards.Mode} (h : Detected G x w) :
    Detected G x (w.unlock m id) := ⟨h.key, { h.owned with }, h.guarded⟩

theorem detected_phase1 (hG : Lively G) (now : Instant) (h : Detected G .empty w) :
    Detected G (w.phase1 env now).1 (w.phase1 env now).2 := by
  refine Fold.foldl_invariant (I := fun x : Exits × World => Detected G x.1 x.2) h ?_
  rintro ⟨x, w'⟩ id - (h : Detected G x w')
  obtain ⟨_, heq⟩ | ⟨p, w₁, hp, _, ⟨c, status, hc, _, rfl, heq⟩ | ⟨hstep, _, heq⟩⟩ :=
    World.phase1Visit_cases env now id x w' <;> rw [heq]
  · exact Detected.unlock ⟨h.key, { h.owned with }, h.guarded⟩
  · have hstep : OsStep p.handles (fun _ => True) w' ((w'.lock .exclusive id).tryWait env c) :=
      (OsStep.lock _ _ _).trans (World.osStep_tryWait env hc _)
    have hput : Detected G (x.add (p.stableUptime now) status)
        (((w'.lock .exclusive id).tryWait env c).put id (p.afterExit now)) := by
      refine ⟨?_, ?_, ?_⟩
      · rw [World.put_processes, hstep.processes]
        exact AssocMap.forall_replace (Q := fun i (q : Process) => q.id = i) h.key
          ((Process.stableUptime_id now p).trans (h.key id p hp))
      · exact h.owned.put hp hstep.children hstep.processes (.inl (.inr
          ⟨Process.stableUptime_child now p, Process.stableUptime_pid now p⟩))
      · rw [Exits.add_exited, List.map_append]
        refine (h.guarded.mono (List.subset_append_left _ _)).put h.owned hp hstep.children
          hstep.processes fun _ => .inl (List.mem_append_right _ ?_)
        simp [h.key id p hp]
    exact hput.unlock
  · have hstep' : OsStep ∅ (fun _ => False) w' w₁ := (OsStep.lock _ _ _).trans hstep
    have hsame : (p.afterPoll now).id = p.id ∧ (p.afterPoll now).child = p.child ∧
        (p.afterPoll now).pid = p.pid := by
      unfold Process.afterPoll
      split_ifs <;> exact ⟨Process.stableUptime_id now p, Process.stableUptime_child now p,
        Process.stableUptime_pid now p⟩
    have hput : Detected G x (w₁.put id (p.afterPoll now)) := by
      refine ⟨?_, ?_, ?_⟩
      · rw [World.put_processes, hstep'.processes]
        exact AssocMap.forall_replace (Q := fun i (q : Process) => q.id = i) h.key
          (hsame.1.trans (h.key id p hp))
      · exact h.owned.put hp hstep'.children hstep'.processes (.inl (.inr hsame.2))
      · refine h.guarded.put h.owned hp hstep'.children.of_empty hstep'.processes fun hG' => ?_
        refine (h.guarded id p hp (hG.of_afterPoll hG')).imp_right fun hlive => ?_
        obtain ⟨c, ch, hc, hch, heq, hr⟩ := hlive.ages hstep'.children (Set.disjoint_empty _)
        exact ⟨c, ch, hsame.2.1.trans hc, hch, heq.trans hsame.2.2.symm, hr⟩
    exact hput.unlock

theorem owned_cascadeKill (h : Owned w) : Owned (w.cascadeKill env id) := by
  obtain ⟨_, heq⟩ | ⟨p, hp, _, heq⟩ := World.cascadeKill_cases env id w <;> rw [heq]
  · exact { h with }
  · have hput := h.put hp (w.ages_tick env) (w.osStep_tick (P := fun _ => True) (S := ∅) env).processes
      (.inl (.inr ⟨rfl, rfl⟩) : KeepsHandle id p { p with cascadeFlag := true, state := .stopping } ∨ _)
    exact { hput with }

/-- A target whose child was not collected stays with it. -/
theorem guardedBut_cascadeKill {ids : List ProcessId} (h : GuardedBut ids G w) (howned : Owned w)
    (htarget : ∀ p, w.processes.lookup id = some p → p.pid ≠ 0 →
      id ∈ ids ∨ p.Uncollected w.children) : GuardedBut ids G (w.cascadeKill env id) := by
  obtain ⟨_, heq⟩ | ⟨p, hp, hpid, heq⟩ := World.cascadeKill_cases env id w <;> rw [heq]
  · exact h
  · have hput : GuardedBut ids G ((w.tick env).put id { p with cascadeFlag := true, state := .stopping }) :=
      GuardedBut.put h howned hp (w.ages_tick env).of_empty rfl fun _ =>
        (htarget p hp hpid).imp_right fun hlive => hlive.ages (w.ages_tick env) (Set.disjoint_empty _)
    exact hput

theorem owned_scheduleEntry {now : Instant} {e : ExitedProcess} (h : Owned w) :
    Owned (World.scheduleEntry env now e w) := by
  obtain ⟨heq, _⟩ | ⟨heq, _⟩ | ⟨config, label, p, w', _, hp, hstep, hcases⟩ :=
    World.scheduleEntry_cases (P := fun _ => True) env now e w
  · rw [heq]; exact h
  · rw [heq]; exact { h with }
  · have hput : ∀ q : Process, q.child = none → Owned (w'.put e.id q) := fun q hq =>
      h.put hp (hstep.children : Ages _ w.children _) hstep.processes (.inl (.inl hq))
    obtain ⟨_, heq⟩ | ⟨rs, rs', _, _, heq⟩ | ⟨rs, _, _, heq⟩ := hcases <;> rw [heq] <;>
      exact { hput _ rfl with }

/-- Scheduling collects the child of its own entry only. -/
theorem guardedBut_scheduleEntry {now : Instant} {e : ExitedProcess} {ids : List ProcessId}
    (hG : Lively G) (h : GuardedBut ids G w) (howned : Owned w)
    (hself : e.restartConfig.isSome = true → ∀ p, w.processes.lookup e.id = some p → G p → e.id ∈ ids) :
    GuardedBut ids G (World.scheduleEntry env now e w) := by
  obtain ⟨heq, _⟩ | ⟨heq, _⟩ | ⟨config, label, p, w', hrestart, hp, hstep, hcases⟩ :=
    World.scheduleEntry_cases (P := fun _ => True) env now e w
  · rw [heq]; exact h
  · rw [heq]; exact h
  · have hput : ∀ q : Process, (G q → e.id ∈ ids) → GuardedBut ids G (w'.put e.id q) := fun q hq =>
      h.put howned hp hstep.children hstep.processes fun hGq => .inl (hq hGq)
    obtain ⟨_, heq⟩ | ⟨rs, rs', _, _, heq⟩ | ⟨rs, _, _, heq⟩ := hcases <;> rw [heq]
    · exact hput _ fun hGq => absurd hGq (hG.not_of_state (by simp) (by simp) (by simp))
    · exact hput _ fun hGq => absurd hGq (hG.not_of_state (by simp) (by simp) (by simp))
    · refine hput _ fun hGq => hself (by simp [hrestart]) p hp ?_
      refine hG.congr p _ ?_ ?_ hGq <;> rfl

/-- Unless it panics, Phase 3 leaves an entry that it restarts in `Restarting`. -/
theorem scheduleEntry_settled {now : Instant} {e : ExitedProcess} {q : Process}
    (hrestart : e.restartConfig.isSome = true) (hr : (World.scheduleEntry env now e w).reaper = .running)
    (hq : (World.scheduleEntry env now e w).processes.lookup e.id = some q) : q.state = .restarting := by
  obtain ⟨_, hnone⟩ | ⟨heq, hnone⟩ | ⟨config, label, p, w', _, hp, hstep, hcases⟩ :=
    World.scheduleEntry_cases (P := fun _ => True) env now e w
  · simp [hnone] at hrestart
  · rw [heq, World.unlock_processes, World.lock_processes, hnone] at hq
    cases hq
  · obtain ⟨_, heq⟩ | ⟨rs, rs', _, _, heq⟩ | ⟨rs, _, _, heq⟩ := hcases <;> rw [heq] at hq hr
    · rw [World.unlock_processes, World.put_processes, AssocMap.lookup_replace, if_pos rfl] at hq
      obtain ⟨_, _, rfl⟩ := Option.map_eq_some_iff.mp hq
      rfl
    · rw [World.unlock_processes, World.put_processes, AssocMap.lookup_replace, if_pos rfl] at hq
      obtain ⟨_, _, rfl⟩ := Option.map_eq_some_iff.mp hq
      rfl
    · cases hr

namespace World

/-- The processes that Phase 3 still has to put into `Restarting`. -/
def restartsOf (exited : List ExitedProcess) : List ProcessId :=
  (exited.filter fun e => e.restartConfig.isSome).map ExitedProcess.id

theorem restartsOf_cons (e : ExitedProcess) (pending : List ExitedProcess) :
    restartsOf (e :: pending) =
      if e.restartConfig.isSome then e.id :: restartsOf pending else restartsOf pending := by
  unfold restartsOf
  rw [List.filter_cons]
  split_ifs <;> rfl

/-- After scheduling, the thread goes on or panics. -/
theorem reaper_scheduleEntry (env : Env) (now : Instant) (e : ExitedProcess) (w : World) :
    (scheduleEntry env now e w).reaper = w.reaper ∨ (scheduleEntry env now e w).reaper = .panicked := by
  obtain ⟨heq, _⟩ | ⟨heq, _⟩ | ⟨config, label, p, w', _, hp, hstep, hcases⟩ :=
    scheduleEntry_cases (P := fun _ => False) env now e w
  · exact .inl (by rw [heq])
  · exact .inl (by rw [heq]; rfl)
  · obtain ⟨_, heq⟩ | ⟨rs, rs', _, _, heq⟩ | ⟨rs, _, _, heq⟩ := hcases <;> rw [heq]
    · exact .inl hstep.reaper
    · exact .inl hstep.reaper
    · exact .inr rfl

theorem owned_phase3 {now : Instant} {exited : List ExitedProcess} (h : Owned w) :
    Owned (w.phase3 env now exited) :=
  Fold.foldl_invariant (I := Owned) h fun _ _ _ hw' => ifRunning_invariant hw' fun _ => owned_scheduleEntry hw'

/-- While the reaper runs, the restarts still to be scheduled are the only exceptions. -/
structure Unscheduled (G : Process → Prop) (pending : List ExitedProcess) (w : World) : Prop where
  owned : Owned w
  guarded : w.reaper = .running → GuardedBut (restartsOf pending) G w

theorem Unscheduled.schedule {now : Instant} {e : ExitedProcess} {pending : List ExitedProcess} (hG : Lively G)
    (h : Unscheduled G (e :: pending) w) : Unscheduled G pending (w.ifRunning (scheduleEntry env now e)) := by
  unfold ifRunning
  split_ifs with hr
  · refine ⟨owned_scheduleEntry h.owned, fun hr' => ?_⟩
    have hguarded := h.guarded hr
    rw [restartsOf_cons] at hguarded
    cases hrestart : e.restartConfig.isSome with
    | false =>
      simp only [hrestart, Bool.false_eq_true, ↓reduceIte] at hguarded
      exact guardedBut_scheduleEntry hG hguarded h.owned (by simp [hrestart])
    | true =>
      simp only [hrestart, ↓reduceIte] at hguarded
      have hscheduled : GuardedBut _ G (scheduleEntry env now e w) :=
        guardedBut_scheduleEntry hG hguarded h.owned fun _ _ _ _ => List.mem_cons_self
      refine hscheduled.drop fun q hq => hG.not_of_state ?_ ?_ ?_ <;>
        simp [scheduleEntry_settled hrestart hr' hq]
  · exact ⟨h.owned, fun hr' => absurd hr' hr⟩

/-- Unless it panics, Phase 3 leaves no exceptions. -/
theorem guarded_phase3 {now : Instant} {exited : List ExitedProcess} (hG : Lively G) (howned : Owned w)
    (h : GuardedBut (restartsOf exited) G w) (hr : (w.phase3 env now exited).reaper = .running) :
    Guarded G (w.phase3 env now exited) :=
  (Fold.foldl_suffix (I := Unscheduled G) (fun _ _ _ h => h.schedule hG) exited w ⟨howned, fun _ => h⟩).guarded hr

/-- What is not to be restarted is removed in Phase 2. -/
theorem guardedBut_passDetect {pollInterval : ℕ} (hkey : ∀ i q, w.processes.lookup i = some q → q.id = i)
    (h : GuardedBut ((w.detect env pollInterval).1.exited.map ExitedProcess.id) G
      (w.cascade env pollInterval)) :
    GuardedBut (restartsOf (w.passDetect env pollInterval).2.1.exited) G
      (w.passDetect env pollInterval).2.2 := by
  have hphase2 := mapStep_passDetect (P := fun _ => False) env pollInterval w
  intro i q hq hG
  refine (h.of_kept hphase2.children hphase2.processes i q hq hG).imp_left fun hi => ?_
  obtain ⟨e, he, rfl⟩ := List.mem_map.mp hi
  refine List.mem_map_of_mem (List.mem_filter.mpr ⟨he, ?_⟩)
  by_contra hrestart
  obtain ⟨p, status, hp, _, hrecord⟩ := (phase1State_detect env pollInterval hkey).recorded e he
  have hremove := hrecord.consequences.toRemove (Exits.mem_toRemove_of_no_restart .empty
    (hrecord.record ▸ by simpa using hrestart))
  rw [Process.stableUptime_id, hkey _ p hp] at hremove
  have hgone : (w.passDetect env pollInterval).2.2.processes.lookup e.id = none := phase2_lookup hremove
  rw [hgone] at hq
  cases hq

end World

end ProcessManager
