import ProcessManager.Reaper.Exits

/-! Conditions on the exits that one pass finds. What `try_wait` answers at each visit of
Phase 1 decides which processes exit in the pass; a condition on all of these answers holds
of every exit that is recorded. -/

namespace ProcessManager

variable {env : Env} {now : Instant} {pollInterval : ℕ} {w w' : World} {id : ProcessId} {p : Process}
  {Q : Process → ExitStatus → Prop}

namespace World

/-- The exit that `try_wait` reports when Phase 1 looks at the entry under `id`. -/
def exitFound (env : Env) (id : ProcessId) (w : World) : Option (Process × ExitStatus) :=
  match w.processes.lookup id with
  | none => none
  | some p =>
    match if p.state = .restarting then none else p.child with
    | none => none
    | some c => ((w.lock .exclusive id).waitResult env c).status.map fun status => (p, status)

theorem exitFound_eq {c : ℕ} {status : ExitStatus} (hp : w.processes.lookup id = some p)
    (hstate : p.state ≠ .restarting) (hc : p.child = some c)
    (h : (w.lock .exclusive id).waitResult env c = .exited status) :
    w.exitFound env id = some (p, status) := by
  simp only [exitFound, hp, hstate, ↓reduceIte, hc, h, WaitResult.status, Option.map_some]

/-- `Q` holds of the exit that the visit of `id` finds, if it finds one. -/
def ExitMeets (env : Env) (Q : Process → ExitStatus → Prop) (x : Exits × World) (id : ProcessId) : Prop :=
  ∀ r ∈ x.2.exitFound env id, Q r.1 r.2

instance [∀ p status, Decidable (Q p status)] (x : Exits × World) (id : ProcessId) :
    Decidable (ExitMeets env Q x id) :=
  inferInstanceAs (Decidable (∀ r ∈ x.2.exitFound env id, Q r.1 r.2))

/-- `Q` holds of every exit that Phase 1 of the next pass finds. -/
def ExitsMeet (env : Env) (pollInterval : ℕ) (Q : Process → ExitStatus → Prop) (w : World) : Prop :=
  Fold.Meets (ExitMeets env Q)
    (fun x id => phase1Visit env (w.awake env pollInterval).clock id x) w.processes.keys
    (.empty, w.awake env pollInterval)

instance [∀ p status, Decidable (Q p status)] (w : World) :
    Decidable (w.ExitsMeet env pollInterval Q) :=
  Fold.decidableMeets _ _

end World

/-- `e` records the exit of an entry that satisfies `Q` with the status found. -/
def RecordMeets (Q : Process → ExitStatus → Prop) (w : World) (now : Instant) (e : ExitedProcess) : Prop :=
  ∃ p status, w.processes.lookup e.id = some p ∧ Q p status ∧ e = (p.stableUptime now).record status

/-- The exits recorded meet `Q`, and so do those that are found from `x` on. -/
def RecordsMeet (Q : Process → ExitStatus → Prop) (w : World) (env : Env) (now : Instant) (rest : List ProcessId)
    (x : Exits × World) : Prop :=
  (∀ e ∈ x.1.exited, RecordMeets Q w now e) ∧
    Fold.Meets (World.ExitMeets env Q) (fun x id => World.phase1Visit env now id x) rest x

/-- A condition on all exits found holds of all exits recorded. -/
theorem recordMeets_detect (hkey : ∀ i q, w.processes.lookup i = some q → q.id = i)
    (h : w.ExitsMeet env pollInterval Q) :
    ∀ e ∈ (w.detect env pollInterval).1.exited, RecordMeets Q w (w.awake env pollInterval).clock e := by
  have hstart := World.osStep_awake (S := ∅) (P := fun _ => True) env pollInterval w
  unfold World.detect
  unfold World.ExitsMeet at h
  generalize w.awake env pollInterval = w₀ at hstart h ⊢
  have hkeys : w₀.processes.keys = w.processes.keys := by rw [hstart.processes]
  have hkey₀ : ∀ i q, w₀.processes.lookup i = some q → q.id = i := hstart.processes ▸ hkey
  have hinit : RecordsMeet Q w env w₀.clock w₀.processes.keys (.empty, w₀) :=
    ⟨fun e he => absurd he List.not_mem_nil, hkeys ▸ h⟩
  refine (phase1_invariant (I := RecordsMeet Q w env w₀.clock) hkey₀ hinit ?_).1
  rintro id rest x w' hphase ⟨hrecords, hfound, hrest⟩
  refine ⟨?_, hrest⟩
  obtain ⟨_, heq⟩ | ⟨p, w₁, hp, hstate, ⟨c, status, hc, hresult, rfl, heq⟩ | ⟨_, _, heq⟩⟩ :=
    World.phase1Visit_cases env w₀.clock id x w' <;> rw [heq]
  · exact hrecords
  · intro e he
    rw [Exits.add_exited] at he
    rcases List.mem_append.mp he with he | he
    · exact hrecords e he
    · obtain rfl := List.mem_singleton.mp he
      have hp₀ : w.processes.lookup id = some p := by
        rw [← hstart.processes, ← hphase.rest_lookup id List.mem_cons_self, hp]
      refine ⟨p, status, ?_, hfound _ (World.exitFound_eq hp hstate hc hresult), rfl⟩
      rw [Process.record_id, Process.stableUptime_id, hkey id p hp₀, hp₀]
  · exact hrecords

/-! ### What Phase 1 writes -/

theorem World.phase1Visit_lookup {k : ProcessId} (hk : k ≠ id) (x : Exits) (w : World) :
    (World.phase1Visit env now id (x, w)).2.processes.lookup k = w.processes.lookup k := by
  obtain ⟨_, heq⟩ | ⟨p, w₁, hp, _, ⟨c, status, hc, _, rfl, heq⟩ | ⟨hstep, _, heq⟩⟩ :=
    World.phase1Visit_cases env now id x w <;> rw [heq]
  · rfl
  · have htry := World.osStep_tryWait (P := fun _ => True) env (Set.mem_univ c) (w.lock .exclusive id)
    rw [unlock_processes, put_processes, AssocMap.lookup_replace, if_neg hk, htry.processes,
      lock_processes]
  · rw [unlock_processes, put_processes, AssocMap.lookup_replace, if_neg hk, hstep.processes,
      lock_processes]

/-- The entry of `id` is written once, when it is visited. -/
structure WrittenOnVisit (p : Process) (now : Instant) (id : ProcessId) (rest : List ProcessId)
    (x : Exits × World) : Prop where
  nodup : rest.Nodup
  todo : id ∈ rest → x.2.processes.lookup id = some p
  done : id ∉ rest → ∃ p', x.2.processes.lookup id = some p' ∧ (p' = p.afterExit now ∨ p' = p.afterPoll now)

theorem WrittenOnVisit.visit {k : ProcessId} {rest : List ProcessId} {x : Exits × World}
    (hstate : p.state ≠ .restarting) (h : WrittenOnVisit p now id (k :: rest) x) :
    WrittenOnVisit p now id rest (World.phase1Visit env now k x) := by
  obtain ⟨x, w'⟩ := x
  obtain ⟨hnodup, htodo, hdone⟩ := h
  obtain ⟨hfresh, hnodup⟩ := List.nodup_cons.mp hnodup
  refine ⟨hnodup, fun hid => ?_, fun hid => ?_⟩
  · rw [World.phase1Visit_lookup (ne_of_mem_of_not_mem hid hfresh)]
    exact htodo (List.mem_cons_of_mem _ hid)
  · by_cases hk : id = k
    · subst hk
      have hp' : w'.processes.lookup id = some p := htodo List.mem_cons_self
      obtain ⟨hskip, _⟩ | ⟨q, w₁, hq, _, ⟨c, status, hc, _, rfl, heq⟩ | ⟨hos, _, heq⟩⟩ :=
        World.phase1Visit_cases env now id x w'
      · exact absurd (hskip p hp') hstate
      · obtain rfl : p = q := Option.some.inj (hp'.symm.trans hq)
        have htry := World.osStep_tryWait (P := fun _ => True) env (Set.mem_univ c)
          (w'.lock .exclusive id)
        refine ⟨_, ?_, .inl rfl⟩
        rw [heq, World.unlock_processes, World.put_processes, AssocMap.lookup_replace, if_pos rfl,
          htry.processes, World.lock_processes, hp', Option.map_some]
        rfl
      · obtain rfl : p = q := Option.some.inj (hp'.symm.trans hq)
        refine ⟨_, ?_, .inr rfl⟩
        rw [heq, World.unlock_processes, World.put_processes, AssocMap.lookup_replace, if_pos rfl,
          hos.processes, World.lock_processes, hp', Option.map_some]
        rfl
    · rw [World.phase1Visit_lookup hk]
      exact hdone (List.not_mem_cons_of_ne_of_not_mem hk hid)

/-- Phase 1 visits every entry that is not `Restarting`. -/
theorem visited_of_tracked (env : Env) (pollInterval : ℕ) (hp : w.processes.lookup id = some p)
    (hstate : p.state ≠ .restarting) : ∃ p', (w.detect env pollInterval).2.processes.lookup id = some p' ∧
      (p' = p.afterExit (w.awake env pollInterval).clock ∨
        p' = p.afterPoll (w.awake env pollInterval).clock) := by
  have hstart := World.osStep_awake (S := ∅) (P := fun _ => True) env pollInterval w
  have hp₀ : (w.awake env pollInterval).processes.lookup id = some p := by rw [hstart.processes, hp]
  have hinit : WrittenOnVisit p (w.awake env pollInterval).clock id (w.awake env pollInterval).processes.keys
      (.empty, w.awake env pollInterval) :=
    ⟨(w.awake env pollInterval).processes.keys_nodup, fun _ => hp₀, fun hid => absurd (AssocMap.mem_of_lookup hp₀) hid⟩
  have hlast : WrittenOnVisit p (w.awake env pollInterval).clock id [] (w.detect env pollInterval) :=
    Fold.foldl_suffix (fun _ _ _ h => h.visit hstate) _ _ hinit
  exact hlast.done List.not_mem_nil

end ProcessManager
