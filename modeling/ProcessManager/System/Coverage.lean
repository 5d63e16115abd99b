import ProcessManager.Reaper.Verdicts
import ProcessManager.Manager.Restart

/-! Bound ids and the dependencies they cover. Readiness is decided by comparing lengths:
a `Waiting` process is spawned when it has as many bound ids as dependencies and all of
them are `Running`. The invariant behind it: as long as the bound ids of a `Waiting`
process are tracked, they cover at least as many dependencies as there are of them. -/

namespace ProcessManager

/-- Each dependency is met by a `Running` process: the named one, or a bound one with the
label. -/
def Satisfied (processes : AssocMap ProcessId Process) (deps : List DependencyRef)
    (resolved : List ProcessId) : Prop :=
  ∀ dep ∈ deps, match dep with
    | .id i => ∃ q, processes.lookup i = some q ∧ q.state = .running
    | .label l => ∃ i ∈ resolved, ∃ q, processes.lookup i = some q ∧ q.label = l ∧ q.state = .running

/-- The child was spawned while its dependencies were met. -/
def SpawnCall.Ready (k : SpawnCall) : Prop :=
  Satisfied k.processes k.config.dependsOn k.resolvedDeps

/-- Every bound id that was handed out is tracked. -/
def AllTracked (processes : AssocMap ProcessId Process) (nextId : ℕ) (resolved : List ProcessId) :
    Prop :=
  ∀ i ∈ resolved, i.raw < nextId → ∃ q, processes.lookup i = some q

/-- The bound ids cover as many dependencies as there are of them, or one is gone. -/
def Counted (processes : AssocMap ProcessId Process) (nextId : ℕ) (p : Process) : Prop :=
  AllTracked processes nextId p.resolvedDeps →
    p.resolvedDeps.length ≤ p.config.dependsOn.countP (isBound processes p.resolvedDeps)

/-- The id and the label of an entry stay, and if it is in `Waiting` afterwards, it was so
before, with the same bound ids. -/
structure KeepsDeps (_ : ProcessId) (p p' : Process) : Prop where
  id : p'.id = p.id
  label : p'.label = p.label
  waiting : p'.state = .waiting →
    p.state = .waiting ∧ p'.resolvedDeps = p.resolvedDeps ∧ p'.config = p.config

namespace KeepsDeps

variable {id : ProcessId} {p p' p'' : Process}

theorem refl (id : ProcessId) (p : Process) : KeepsDeps id p p :=
  ⟨rfl, rfl, fun h => ⟨h, rfl, rfl⟩⟩

/-- An entry that leaves `Waiting`, or was never in it. -/
theorem of_not_waiting (hid : p'.id = p.id) (hlabel : p'.label = p.label)
    (hstate : p'.state ≠ .waiting) : KeepsDeps id p p' :=
  ⟨hid, hlabel, fun h => absurd h hstate⟩

theorem of_polled (h : Process.Polled id p p') : KeepsDeps id p p' := by
  obtain rfl | ⟨_, s, hs, rfl⟩ := h
  · exact .refl id p'
  · refine .of_not_waiting rfl rfl ?_
    rintro (rfl : s = .waiting)
    rcases hs with hs | hs <;> cases hs

end KeepsDeps

/-! ### Coverage under changes of the map -/

section Maps

variable {m m' : AssocMap ProcessId Process} {n n' : ℕ}

/-- Every tracked id is new or had the same label before. -/
def Relabels (n n' : ℕ) (m m' : AssocMap ProcessId Process) : Prop :=
  ∀ i q', m'.lookup i = some q' →
    (n ≤ i.raw ∧ i.raw < n') ∨ ∃ q, m.lookup i = some q ∧ q.label = q'.label

/-- A bound id keeps its label while it is tracked. -/
theorem hasLabel_of_relabels (h : Relabels n n' m m') {i : ProcessId} {l : Label}
    (htracked : i.raw < n' → ∃ q, m'.lookup i = some q) (hin : i.raw < n)
    (hn : n ≤ n') (hl : hasLabel m l i = true) : hasLabel m' l i = true := by
  obtain ⟨q', hq'⟩ := htracked (hin.trans_le hn)
  rcases h i q' hq' with ⟨hnew, _⟩ | ⟨q, hq, hlabel⟩
  · omega
  · simp only [hasLabel, hq, hq'] at hl ⊢
    rw [← hlabel]
    exact hl

theorem counted_of_relabels {p : Process} (h : Relabels n n' m m') (hn : n ≤ n')
    (hm : ∀ i q, m.lookup i = some q → i.raw < n) (hp : Counted m n p) : Counted m' n' p := by
  intro htracked
  have hbefore : AllTracked m n p.resolvedDeps := by
    intro i hi hlt
    obtain ⟨q', hq'⟩ := htracked i hi (hlt.trans_le hn)
    rcases h i q' hq' with ⟨hnew, _⟩ | ⟨q, hq, _⟩
    · omega
    · exact ⟨q, hq⟩
  refine (hp hbefore).trans (List.countP_mono_left fun dep _ hbound => ?_)
  cases dep with
  | id i => exact hbound
  | label l =>
    simp only [isBound, List.any_eq_true] at hbound ⊢
    obtain ⟨i, hi, hl⟩ := hbound
    have hlt : i.raw < n := by
      unfold hasLabel at hl
      split at hl
      · next q hq => exact hm i q hq
      · cases hl
    exact ⟨i, hi, hasLabel_of_relabels h (htracked i hi) hlt hn hl⟩

/-- A resolution covers every dependency or binds none. -/
theorem counted_of_resolved {p : Process} (hp : p.resolvedDeps = resolvedOrDefault m p.config.dependsOn) :
    Counted m n p := by
  intro _
  rw [hp]
  rcases resolvedOrDefault_cases m p.config.dependsOn with hnil | hbinds
  · simp [hnil]
  · rw [← hbinds.length_eq, List.countP_eq_length.mpr]
    intro dep hdep
    obtain ⟨i, hi, hb⟩ := exists_binds hbinds hdep
    cases dep with
    | id j => cases hb; simpa [isBound] using hi
    | label l =>
      obtain ⟨q, hq, hl⟩ := hb
      exact List.any_eq_true.mpr ⟨i, hi, by simp [hasLabel, hq, hl]⟩

/-! ### Coverage in Phase 5 -/

/-- The dependencies that were covered or that the search finds an id for. -/
theorem length_newlyResolved (deps : List DependencyRef) (b : DependencyRef → Bool)
    (f : DependencyRef → Option ProcessId) :
    deps.countP b + ((deps.filter fun dep => !b dep).filterMap f).length =
      deps.countP fun dep => b dep || (f dep).isSome := by
  induction deps with
  | nil => rfl
  | cons dep deps ih =>
    cases hb : b dep with
    | true => simp [hb, ← ih]; omega
    | false => cases hf : f dep <;> simp [hb, hf, ← ih]; omega

/-- Binding the ids that the search found keeps the count. -/
theorem counted_extend {id : ProcessId} {p : Process} (hp : m.lookup id = some p)
    (h : Counted m n p) :
    Counted (m.replace id (p.extend (newlyResolved m (depsToResolve m p)))) n
      (p.extend (newlyResolved m (depsToResolve m p))) := by
  set new := newlyResolved m (depsToResolve m p) with hnew
  have hview : view (m.replace id (p.extend new)) = view m := view_replace hp rfl rfl
  intro htracked
  have hbefore : AllTracked m n p.resolvedDeps := by
    intro i hi hlt
    obtain ⟨q, hq⟩ := htracked i (List.mem_append_left _ hi) hlt
    rw [AssocMap.lookup_replace] at hq
    split_ifs at hq with hk
    · exact ⟨p, hk ▸ hp⟩
    · exact ⟨q, hq⟩
  have hcount := length_newlyResolved p.config.dependsOn (isBound m p.resolvedDeps)
    (newlyResolvedId m)
  have hlength : (p.extend new).resolvedDeps.length = p.resolvedDeps.length + new.length :=
    List.length_append
  rw [hlength, isBound_congr hview]
  -- what was covered is still covered, and each new id covers the dependency it was found for
  calc p.resolvedDeps.length + new.length
      ≤ p.config.dependsOn.countP (isBound m p.resolvedDeps) + new.length :=
        Nat.add_le_add_right (h hbefore) _
    _ = p.config.dependsOn.countP
          fun dep => isBound m p.resolvedDeps dep || (newlyResolvedId m dep).isSome := hcount
    _ ≤ p.config.dependsOn.countP (isBound m (p.resolvedDeps ++ new)) :=
        List.countP_mono_left fun dep hdep hor => ?_
  by_cases hb : isBound m p.resolvedDeps dep = true
  · cases dep with
    | id i => simp_all [isBound]
    | label l =>
      simp only [isBound, List.any_append, Bool.or_eq_true] at hb ⊢
      exact .inl hb
  · obtain ⟨i, hi⟩ : ∃ i, newlyResolvedId m dep = some i := by
      simpa [hb, Option.isSome_iff_exists] using hor
    have hmem : i ∈ new := List.mem_filterMap.mpr
      ⟨dep, List.mem_filter.mpr ⟨hdep, by simp [hb]⟩, hi⟩
    cases dep with
    | id j => cases hi; simp [isBound, hmem]
    | label l =>
      obtain ⟨q, hq, hl⟩ := AssocMap.findKey_eq_some hi
      simp only [isRunningLabel, Bool.and_eq_true, decide_eq_true_eq] at hl
      exact List.any_eq_true.mpr ⟨i, by simp [hmem], by simp [hasLabel, hq, hl.1]⟩

/-- A complete process is satisfied. -/
theorem satisfied_of_complete {p : Process} (h : Counted m n p) (hcomplete : World.Complete m p) :
    Satisfied m p.config.dependsOn p.resolvedDeps := by
  obtain ⟨hlength, hrunning⟩ := hcomplete
  have hlookup : ∀ i ∈ p.resolvedDeps, ∃ q, m.lookup i = some q ∧ q.state = .running := by
    intro i hi
    have hr := hrunning i hi
    unfold isRunningDep at hr
    split at hr
    · next q hq => exact ⟨q, hq, by simpa using hr⟩
    · cases hr
  have hall : p.config.dependsOn.countP (isBound m p.resolvedDeps) = p.config.dependsOn.length := by
    refine le_antisymm List.countP_le_length ?_
    rw [← hlength]
    exact h fun i hi _ => (hlookup i hi).imp fun q hq => hq.1
  intro dep hdep
  have hbound := List.countP_eq_length.mp hall dep hdep
  cases dep with
  | id i => exact hlookup i (by simpa [isBound] using hbound)
  | label l =>
    obtain ⟨i, hi, hl⟩ := List.any_eq_true.mp hbound
    obtain ⟨q, hq, hstate⟩ := hlookup i hi
    exact ⟨i, hi, q, hq, by simpa [hasLabel, hq] using hl, hstate⟩

/-- Entries that are not `Running` do not matter. -/
theorem satisfied_of_running {deps : List DependencyRef} {resolved : List ProcessId}
    (hm : ∀ i q, m.lookup i = some q → q.state = .running → m'.lookup i = some q)
    (h : Satisfied m deps resolved) : Satisfied m' deps resolved := by
  intro dep hdep
  have hmet := h dep hdep
  cases dep with
  | id i =>
    obtain ⟨q, hq, hstate⟩ := hmet
    exact ⟨q, hm i q hq hstate, hstate⟩
  | label l =>
    obtain ⟨i, hi, q, hq, hl, hstate⟩ := hmet
    exact ⟨i, hi, q, hm i q hq hstate, hl, hstate⟩

end Maps

end ProcessManager
