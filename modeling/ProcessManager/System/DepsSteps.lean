import ProcessManager.System.DepsReaper

/-! What one step of a caller, of the reaper or of another call keeps for itself and for the other
threads. -/

namespace ProcessManager

namespace DepsThread

variable {R : Set ProcessId} {w w' : World} {id : ProcessId} {env : Env} {pollInterval : ℕ}

/-- What the next step of a thread may insert, kill and schedule. -/
def scope (R : Set ProcessId) : DepsThread → World → Scope
  | .reaper pc, _ => pc.scope R
  | _, w => { restarted := R, inserted := R ∪ {⟨w.nextId⟩} }

theorem scope_restarted (R : Set ProcessId) (t : DepsThread) (w : World) : (t.scope R w).restarted = R := by
  cases t with
  | reaper pc => exact pc.scope_restarted R
  | _ => rfl

theorem admits_start {S : Scope} (h : Steady R w) (hR : S.restarted = R) (hmem : ⟨w.nextId⟩ ∈ S.inserted)
    (hstart : World.Starting w w') : S.Admits w' ⟨w.nextId⟩ := by
  subst hR
  refine ⟨hmem, or_iff_not_imp_left.mpr fun hR => ⟨?_, ?_⟩⟩
  · rw [hstart.nextId]
    exact Nat.lt_succ_self _
  · rintro ⟨s, hs, hid⟩
    rw [hstart.spawns] at hs
    have hlt := h.spawnId s hs (hid ▸ hR)
    rw [hid] at hlt
    exact absurd hlt (lt_irrefl _)

/-- Every step but the reaper's is made of small steps. -/
theorem shifts_caller {S : Scope} (h : Steady R w) (hR : S.restarted = R) (hmem : ⟨w.nextId⟩ ∈ S.inserted)
    (env : Env) (pc : DepsPc) : Shifts S w (pc.next env w).2 := by
  cases pc with
  | called label config =>
    refine shifts_moves (World.moves_start ?_ label config)
    exact fun w' hw' p hp _ => hp ▸ admits_start h hR hmem hw'
  | started id config =>
    have htick : Shifts S w (w.tick env) :=
      World.shifts_os (w.osStep_tick env : OsStep ∅ (fun _ => False) _ _)
    simp only [DepsPc.next]
    split
    · split_ifs
      · exact htick
      · exact .refl
    · exact htick
  | polling id config deadline =>
    exact World.shifts_os (w.osStep_tick env : OsStep ∅ (fun _ => False) _ _)
  | expired id config =>
    simp only [DepsPc.next]
    split
    · next p hp =>
      exact .single (.put (.refl w : OsStep ∅ (fun _ => False) w w) hp
        (.stay rfl rfl rfl (.inr (.inl rfl))))
    · exact .refl
  | looking id config deadline =>
    simp only [DepsPc.next]
    split
    · split
      · exact .refl
      · exact World.shifts_os (w.osStep_sleep env (millis 50) : OsStep ∅ (fun _ => False) _ _)
      · exact .refl
    · exact .refl
  | returned result => exact .refl

theorem shifts_call {S : Scope} {a : Action} (h : Steady R w) (hR : S.restarted = R)
    (hmem : ⟨w.nextId⟩ ∈ S.inserted) (hsub : R ⊆ S.inserted) (ha : a ≠ .pass)
    (hrestarts : RestartsIn R (.call (some a)) w) :
    Shifts S w (System.step env pollInterval ⟨w, []⟩ a).world := by
  have hmeets : System.StepMeets env S.Moving (fun _ => True) ⟨w, []⟩ a :=
    System.stepMeets_of (fun _ _ _ hpoint hstart => absurd hstart hpoint) fun _ _ => trivial
  refine shifts_moves (System.moves_step_of (fun w' p hinserts _ => ?_) ha h.key hmeets)
  have hrestarted : ∀ i ∈ R, S.Admits w' i := fun i hi => ⟨hsub hi, .inl (hR ▸ hi)⟩
  cases a with
  | start label config => exact hinserts.2 ▸ admits_start h hR hmem hinserts.1
  | startWithDeps label config => exact hinserts.2 ▸ admits_start h hR hmem hinserts.1
  | restart id => exact hrestarted _ (hinserts ▸ hrestarts)
  | restartLabel label => exact hrestarted _ (hrestarts _ hinserts)
  | _ => exact absurd hinserts (by simp [System.Inserts])

/-- Every step of a thread is made of small steps. -/
theorem shifts_next (env : Env) (pollInterval : ℕ) {t : DepsThread} (h : Steady R w) (ht : t ≠ .call (some .pass)) (hin : t.InTime w)
    (hrestarts : t.RestartsIn R w) : Shifts (t.scope R w) w (t.next env pollInterval w).2 := by
  cases t with
  | reaper pc =>
    simp only [next, ReaperPc.step]
    split_ifs with hr
    · exact ReaperPc.shifts_next R env pollInterval (hin hr)
    · exact .refl
  | caller pc => exact shifts_caller (S := scope R (.caller pc) w) h rfl (.inr rfl) env pc
  | call a =>
    cases a with
    | none => exact .refl
    | some a =>
      exact shifts_call (S := scope R (.call (some a)) w) h rfl (.inr rfl) Set.subset_union_left
        (fun ha => ht (ha ▸ rfl)) hrestarts

/-- The thread has reported that the dependencies of `id` timed out. -/
def TimedOut (id : ProcessId) : DepsThread → Prop
  | .caller (.returned (.error (.dependencyTimeout i _))) => i = id
  | _ => False

/-- What a thread relies on. -/
def Holds (R : Set ProcessId) : DepsThread → World → Prop
  | .reaper pc, w => pc.Tracks R w
  | .caller pc, w => (∀ id, pc.waitsFor = some id → id.raw < w.nextId) ∧
      ∀ id, TimedOut id (.caller pc) → id ∉ R → Finished id w
  | .call a, _ => a ≠ some .pass

/-- The reaper is the only one, and has nothing in hand for a process that timed out. -/
structure Clear (R : Set ProcessId) (t u : DepsThread) : Prop where
  only : ∀ pc pc', t = .reaper pc → u ≠ .reaper pc'
  unmarked : ∀ pc id, t = .reaper pc → u.TimedOut id → id ∉ R → ¬ pc.Marks id

def Apart (R : Set ProcessId) (t u : DepsThread) : Prop := Clear R t u ∧ Clear R u t

theorem Apart.symm {t u : DepsThread} (h : Apart R t u) : Apart R u t := ⟨h.2, h.1⟩

/-- No child of `id` is left: its entry holds none, or there never was one. -/
def Childless (id : ProcessId) (w : World) : Prop :=
  (∀ p, w.processes.lookup id = some p → p.child = none) ∧ (w.processes.lookup id = none → ¬ Spawns id w)

theorem Childless.not_hasHandle (h : Childless id w) (hspawns : Spawns id w) : ¬ HasHandle id w := by
  intro hhandle
  cases hp : w.processes.lookup id with
  | none => exact h.2 hp hspawns
  | some p => exact hhandle p hp (h.1 p hp)

theorem Childless.not_hasChild (h : Childless id w) (hsteady : Steady R w) (hi : id ∉ R) :
    ¬ HasChild id w := by
  rintro ⟨s, hs, hid, hlive⟩
  cases hp : w.processes.lookup id with
  | none => exact h.2 hp ⟨s, hs, hid⟩
  | some p =>
    obtain hgone | hchild := hsteady.kept id p hp hi s hs hid
    · exact hlive hgone
    · rw [h.1 p hp] at hchild
      cases hchild

/-- A check in time that finds a process which runs, or ran, has returned its id. -/
theorem ok_cases {pc : DepsPc} (hsteady : Steady R w) (hin : (caller pc).InTime w) (hresult : pc.result = none)
    (h : (pc.next env w).1 = .returned (.ok id)) : Spawns id w ∧ (pc.next env w).2 = w := by
  cases pc with
  | called label config =>
    simp only [DepsPc.next] at h
    split at h <;> cases h
  | started i config =>
    cases hp : w.processes.lookup i with
    | none =>
      simp only [DepsPc.next, hp] at h
      cases h
    | some p =>
      simp only [DepsPc.next, hp] at h ⊢
      split_ifs at h ⊢ with hwaiting
      cases h
      exact ⟨hsteady.spawns_of_state hp hwaiting (hin p hp), rfl⟩
  | polling i config deadline =>
    simp only [DepsPc.next] at h
    split_ifs at h
  | expired i config => cases h
  | looking i config deadline =>
    cases hp : w.processes.lookup i with
    | none =>
      simp only [DepsPc.next, hp] at h
      cases h
    | some p =>
      simp only [DepsPc.next, hp] at h ⊢
      generalize hstate : p.state = state at h ⊢
      cases state with
      | failed => cases h
      | waiting => cases h
      | _ =>
        cases h
        exact ⟨hsteady.spawns_of_state hp (by simp [hstate]) (by simp [hstate]), rfl⟩
  | returned result => cases hresult

/-- A poll in time that ends in a timeout leaves a failed process without a child. -/
theorem timeout_cases {pc : DepsPc} {dep : Option DependencyRef} (hsteady : Steady R w)
    (hin : (caller pc).InTime w)
    (h : (pc.next env w).1 = .returned (.error (.dependencyTimeout id dep))) :
    (caller pc).TimedOut id ∨ (Childless id w ∧ Finished id (pc.next env w).2 ∧
      (pc.next env w).2.spawns = w.spawns ∧ (pc.next env w).2.children = w.children) := by
  cases pc with
  | called label config =>
    simp only [DepsPc.next] at h
    split at h
    · cases h
    · next e he =>
      cases h
      exact absurd he (World.start_ne_dependencyTimeout env label config w)
  | started i config =>
    simp only [DepsPc.next] at h
    split at h
    · split_ifs at h
      cases h
    · cases h
  | polling i config deadline =>
    simp only [DepsPc.next] at h
    split_ifs at h
  | expired i config =>
    right
    obtain ⟨htracked, huntracked⟩ := hin
    simp only [DepsPc.next, DepsPc.returned.injEq, Except.error.injEq, ManagerError.dependencyTimeout.injEq]
      at h ⊢
    obtain ⟨rfl, _⟩ := h
    have hnone : ∀ p, w.processes.lookup i = some p → p.child = none := by
      intro p hp
      rcases htracked p hp with hwaiting | ⟨_, hnone⟩
      · exact hsteady.childless i p hp (.inl hwaiting)
      · exact hnone
    refine ⟨⟨hnone, huntracked⟩, ?_⟩
    split
    · next p hp =>
      refine ⟨fun q hq => ?_, rfl, rfl⟩
      rw [World.put_processes, AssocMap.lookup_replace, if_pos rfl, hp] at hq
      cases hq
      exact ⟨rfl, hnone p hp⟩
    · next hp =>
      refine ⟨fun q hq => ?_, rfl, rfl⟩
      rw [hp] at hq
      cases hq
  | looking i config deadline =>
    right
    cases hp : w.processes.lookup i with
    | none =>
      simp only [DepsPc.next, hp] at h
      cases h
    | some p =>
      simp only [DepsPc.next, hp] at h ⊢
      generalize hstate : p.state = state at h ⊢
      cases state with
      | failed =>
        cases h
        have hnone : ∀ q, w.processes.lookup id = some q → q.state = .failed ∧ q.child = none := by
          intro q hq
          rw [hp] at hq
          cases hq
          exact ⟨hstate, hin p hp hstate⟩
        refine ⟨⟨fun q hq => (hnone q hq).2, fun h => ?_⟩, hnone, rfl, rfl⟩
        rw [hp] at h
        cases h
      | _ => cases h
  | returned result =>
    cases h
    exact .inl rfl

theorem timedOut_iff {pc : DepsPc} :
    (caller pc).TimedOut id ↔ ∃ dep, pc = .returned (.error (.dependencyTimeout id dep)) := by
  constructor
  · intro h
    unfold TimedOut at h
    split at h
    · next i dep heq => exact ⟨dep, by injection heq with heq; rw [heq, h]⟩
    · cases h
  · rintro ⟨dep, rfl⟩
    rfl

theorem timedOut_next {t : DepsThread} (h : (t.next env pollInterval w).1.TimedOut id) :
    ∃ pc dep, t = .caller pc ∧ (pc.next env w).1 = .returned (.error (.dependencyTimeout id dep)) := by
  cases t with
  | reaper pc => cases h
  | caller pc =>
    obtain ⟨dep, hdep⟩ := timedOut_iff.mp h
    exact ⟨pc, dep, rfl, hdep⟩
  | call a => cases a <;> cases h

/-- A thread that knows its place, beside a caller that has timed out, leaves its process alone. -/
theorem spares {t u : DepsThread} (h : Clear R t u) (hu : u.Holds R w) (hout : u.TimedOut id) (hi : id ∉ R) :
    id ∉ (t.scope R w).inserted ∧ id ∉ (t.scope R w).killed ∧ id ∉ (t.scope R w).scheduled := by
  have hlt : id.raw < w.nextId := by
    cases u with
    | caller pc =>
      obtain ⟨dep, rfl⟩ := timedOut_iff.mp hout
      exact hu.1 id rfl
    | _ => cases hout
  have hother : id ∉ R ∪ {⟨w.nextId⟩} := by
    rintro (hi' | rfl)
    · exact hi hi'
    · exact lt_irrefl _ hlt
  cases t with
  | reaper pc =>
    have hmark := h.unmarked pc id rfl hout hi
    refine ⟨?_, fun hmem => hmark (ReaperPc.marks_of_scope (.inl hmem)),
      fun hmem => hmark (ReaperPc.marks_of_scope (.inr hmem))⟩
    rw [scope, ReaperPc.scope_inserted]
    exact Set.notMem_empty id
  | _ => exact ⟨hother, Set.notMem_empty id, Set.notMem_empty id⟩

theorem scheduled_spawned {t : DepsThread} (ht : t.Holds R w) : ∀ i ∈ (t.scope R w).scheduled, Spawns i w := by
  cases t with
  | reaper pc => exact ht.scheduled
  | _ => exact fun i hi => absurd hi (Set.notMem_empty i)

theorem Holds.ne_pass {t : DepsThread} (h : t.Holds R w) : t ≠ .call (some .pass) := by
  rintro rfl
  exact h rfl

theorem steady_next {t : DepsThread} (hw : Steady R w) (ht : t.Holds R w) (hin : t.InTime w)
    (hrestarts : t.RestartsIn R w) : Steady R (t.next env pollInterval w).2 := by
  have hR := t.scope_restarted R w
  have hsteady : Steady (t.scope R w).restarted (t.next env pollInterval w).2 :=
    Steady.shifts (hR.symm ▸ hw) (shifts_next env pollInterval hw ht.ne_pass hin hrestarts) (scheduled_spawned ht)
  rwa [hR] at hsteady

theorem waitsFor_next {pc : DepsPc} (h : ∀ i, pc.waitsFor = some i → i.raw < w.nextId)
    (hnext : w.nextId ≤ (pc.next env w).2.nextId) (i : ProcessId)
    (hi : (pc.next env w).1.waitsFor = some i) : i.raw < (pc.next env w).2.nextId := by
  cases pc with
  | called label config =>
    simp only [DepsPc.next] at hi ⊢
    split at hi
    · next id hok =>
      obtain ⟨rfl, hnextId⟩ := World.start_ok env label config w hok
      cases hi
      rw [hnextId]
      exact Nat.lt_succ_self _
    · next e he =>
      cases e with
      | dependencyTimeout => exact absurd he (World.start_ne_dependencyTimeout env label config w)
      | _ => cases hi
  | started id config =>
    refine (h i ?_).trans_le hnext
    simp only [DepsPc.next] at hi
    split at hi
    · split_ifs at hi
      · exact hi
      · cases hi
    · exact hi
  | polling id config deadline =>
    refine (h i ?_).trans_le hnext
    simp only [DepsPc.next] at hi
    split_ifs at hi <;> exact hi
  | expired id config => exact (h i hi).trans_le hnext
  | looking id config deadline =>
    refine (h i ?_).trans_le hnext
    simp only [DepsPc.next] at hi
    split at hi
    · split at hi
      · exact hi
      · exact hi
      · cases hi
    · cases hi
  | returned result => exact (h i hi).trans_le hnext

theorem holds_next {t : DepsThread} (hw : Steady R w) (ht : t.Holds R w) (hin : t.InTime w)
    (hrestarts : t.RestartsIn R w) :
    (t.next env pollInterval w).1.Holds R (t.next env pollInterval w).2 := by
  have hs := shifts_next env pollInterval hw ht.ne_pass hin hrestarts
  cases t with
  | reaper pc =>
    simp only [next, ReaperPc.step]
    split_ifs with hr
    · exact ReaperPc.Tracks.next ht hw hr (hin hr)
    · exact ht
  | caller pc =>
    refine ⟨waitsFor_next ht.1 hs.nextId, fun i hi hiR => ?_⟩
    obtain ⟨dep, hdep⟩ := timedOut_iff.mp hi
    obtain hout | ⟨_, hfinished, _⟩ := timeout_cases hw hin hdep
    · obtain ⟨dep', rfl⟩ := timedOut_iff.mp hout
      exact ht.2 i hout hiR
    · exact hfinished
  | call a => cases a <;> simp [next, Holds]

theorem holds_other {t u : DepsThread} (h : Apart R t u) (hw : Steady R w) (ht : t.Holds R w)
    (hu : u.Holds R w) (hin : t.InTime w) (hrestarts : t.RestartsIn R w) :
    u.Holds R (t.next env pollInterval w).2 := by
  have hs := shifts_next env pollInterval hw ht.ne_pass hin hrestarts
  have hR := t.scope_restarted R w
  cases u with
  | reaper pc =>
    have hnone : (t.scope R w).scheduled = ∅ := by
      cases t with
      | reaper pc' => exact absurd rfl (h.2.only pc pc' rfl)
      | _ => rfl
    refine ⟨fun i hi => (hu.spawned i hi).shifts hs, fun i hi hiR => ?_, hu.nodup⟩
    refine (hu.handle i hi hiR).shifts (hR.symm ▸ hw) hs (hR.symm ▸ hiR) ?_ (hu.spawned i hi)
      (scheduled_spawned ht)
    rw [hnone]
    exact Set.notMem_empty i
  | caller pc =>
    refine ⟨fun i hi => (hu.1 i hi).trans_le hs.nextId, fun i hi hiR => ?_⟩
    obtain ⟨hinserted, hkilled, hscheduled⟩ := spares h.1 hu hi hiR
    exact ((hu.2 i hi hiR).shifts hs hinserted hkilled hscheduled).1
  | call a => exact hu

theorem apart_next {t u : DepsThread} (h : Apart R t u) (hw : Steady R w) (ht : t.Holds R w)
    (hu : u.Holds R w) (hin : t.InTime w) : Apart R (t.next env pollInterval w).1 u := by
  have hreaper : ∀ pc, (t.next env pollInterval w).1 = .reaper pc → ∃ pc', t = .reaper pc' := by
    intro pc hpc
    cases t with
    | reaper pc' => exact ⟨pc', rfl⟩
    | caller pc' => cases hpc
    | call a => cases a <;> cases hpc
  refine ⟨⟨fun pc pc' hpc => ?_, fun pc i hpc hout hi hmark => ?_⟩,
    fun pc pc' hpc hpc' => ?_, fun pc i hpc hout hi hmark => ?_⟩
  · obtain ⟨pc₀, rfl⟩ := hreaper pc hpc
    exact h.1.only pc₀ pc' rfl
  · obtain ⟨pc₀, rfl⟩ := hreaper pc hpc
    simp only [next, ReaperPc.step] at hpc
    split_ifs at hpc with hr
    · cases hpc
      have hmarks : ReaperPc.MarksFrom R pc₀ _ w := ReaperPc.next_marks env pollInterval hw hr ht.nodup
      obtain hmark | ⟨p, hp, hchild⟩ := hmarks.marks i hmark
      · exact h.1.unmarked pc₀ i rfl hout hi hmark
      · cases u with
        | caller pc' => exact hchild (hu.2 i hout hi p hp).2
        | _ => cases hout
    · cases hpc
      exact h.1.unmarked pc₀ i rfl hout hi hmark
  · obtain ⟨pc₀, rfl⟩ := hreaper pc' hpc'
    exact h.2.only pc pc₀ hpc rfl
  · subst hpc
    obtain ⟨pc', dep, rfl, hdep⟩ := timedOut_next hout
    obtain hbefore | ⟨hchildless, _⟩ := timeout_cases hw hin hdep
    · exact h.2.unmarked pc i rfl hbefore hi hmark
    · exact hchildless.not_hasHandle (hu.spawned i hmark) (hu.handle i hmark hi)

end DepsThread

end ProcessManager
