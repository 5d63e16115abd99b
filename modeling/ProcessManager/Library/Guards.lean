import Mathlib.Data.List.Basic

/-! Guards that one thread holds on a sharded map. A log, newest event first, records
every guard the thread requests and releases; `held` is what it holds afterwards. The
locks are not reentrant: a request that meets a guard of the same thread on the same
shard blocks forever when either of the two is exclusive. -/

namespace Guards

inductive Mode where
  | shared | exclusive
  deriving DecidableEq, Repr

inductive Event (κ : Type*) where
  | acquire (mode : Mode) (key : κ)
  | release (mode : Mode) (key : κ)
  deriving DecidableEq

variable {κ σ : Type*} [DecidableEq κ]

/-- The guards held after a log. -/
def held : List (Event κ) → List (Mode × κ)
  | [] => []
  | .acquire m k :: log => (m, k) :: held log
  | .release m k :: log => (held log).erase (m, k)

/-- A request for `k` in mode `m` meets a guard that excludes it. -/
def Conflict (shard : κ → σ) (guards : List (Mode × κ)) (m : Mode) (k : κ) : Prop :=
  ∃ g ∈ guards, shard g.2 = shard k ∧ (m = .exclusive ∨ g.1 = .exclusive)

/-- No request in the log met a guard of its own thread. -/
def NoSelfBlock (shard : κ → σ) : List (Event κ) → Prop
  | [] => True
  | .acquire m k :: log => ¬ Conflict shard (held log) m k ∧ NoSelfBlock shard log
  | .release _ _ :: log => NoSelfBlock shard log

instance [DecidableEq σ] (shard : κ → σ) (guards : List (Mode × κ)) (m : Mode) (k : κ) :
    Decidable (Conflict shard guards m k) := by
  unfold Conflict
  infer_instance

instance decidableNoSelfBlock [DecidableEq σ] (shard : κ → σ) : DecidablePred (NoSelfBlock shard)
  | [] => isTrue trivial
  | .acquire _ _ :: log =>
    haveI := decidableNoSelfBlock shard log
    inferInstanceAs (Decidable (_ ∧ _))
  | .release _ _ :: log => decidableNoSelfBlock shard log

variable {shard : κ → σ}

omit [DecidableEq κ] in
theorem not_conflict_nil (m : Mode) (k : κ) : ¬ Conflict shard [] m k := by
  rintro ⟨g, hg, _⟩
  exact absurd hg (by simp)

omit [DecidableEq κ] in
/-- Against a single guard, only that guard can conflict. -/
theorem conflict_singleton (m n : Mode) (k x : κ) :
    Conflict shard [(n, x)] m k ↔ shard x = shard k ∧ (m = .exclusive ∨ n = .exclusive) := by
  simp [Conflict]

omit [DecidableEq κ] in
/-- Shared requests never conflict with shared guards. -/
theorem not_conflict_of_shared {guards : List (Mode × κ)} (h : ∀ g ∈ guards, g.1 = .shared) (k : κ) :
    ¬ Conflict shard guards .shared k := by
  rintro ⟨g, hg, _, hm⟩
  rcases hm with hm | hm
  · cases hm
  · rw [h g hg] at hm
    cases hm

/-! ### Guards taken and dropped one at a time -/

/-- Request and drop a guard on each key in turn. -/
def touch (m : Mode) : List κ → List (Event κ) → List (Event κ)
  | [], log => log
  | k :: ks, log => touch m ks (.release m k :: .acquire m k :: log)

@[simp] theorem held_touch (m : Mode) (ks : List κ) (log : List (Event κ)) :
    held (touch m ks log) = held log := by
  induction ks generalizing log with
  | nil => rfl
  | cons k ks ih => rw [touch, ih]; simp [held]

/-- A run of short guards blocks exactly when one of them meets a guard held before it. -/
theorem noSelfBlock_touch (m : Mode) (ks : List κ) (log : List (Event κ)) :
    NoSelfBlock shard (touch m ks log) ↔
      NoSelfBlock shard log ∧ ∀ k ∈ ks, ¬ Conflict shard (held log) m k := by
  induction ks generalizing log with
  | nil => simp [touch]
  | cons k ks ih =>
    rw [touch, ih]
    simp only [NoSelfBlock, held, List.erase_cons_head, List.forall_mem_cons]
    tauto

omit [DecidableEq κ] in
theorem touch_append (m : Mode) (ks ks' : List κ) (log : List (Event κ)) :
    touch m (ks ++ ks') log = touch m ks' (touch m ks log) := by
  induction ks generalizing log with
  | nil => rfl
  | cons k ks ih => exact ih _

/-! ### Sections

A section is entered and left without guards, and none of its requests blocks. -/

def Section (shard : κ → σ) (log log' : List (Event κ)) : Prop :=
  held log = [] → held log' = [] ∧ (NoSelfBlock shard log' ↔ NoSelfBlock shard log)

namespace Section

variable {log log' log'' : List (Event κ)}

theorem refl (log : List (Event κ)) : Section shard log log := fun h => ⟨h, Iff.rfl⟩

theorem of_eq (h : log' = log) : Section shard log log' := by rw [h]; exact refl log

theorem trans (h : Section shard log log') (h' : Section shard log' log'') :
    Section shard log log'' := by
  intro hheld
  obtain ⟨hheld', hblock⟩ := h hheld
  obtain ⟨hheld'', hblock'⟩ := h' hheld'
  exact ⟨hheld'', hblock'.trans hblock⟩

protected theorem touch (m : Mode) (ks : List κ) (log : List (Event κ)) :
    Section shard log (touch m ks log) := by
  intro hheld
  rw [held_touch, noSelfBlock_touch, hheld]
  exact ⟨rfl, and_iff_left fun k _ => not_conflict_nil m k⟩

/-- One guard, taken and dropped. -/
theorem guard (m : Mode) (k : κ) (log : List (Event κ)) :
    Section shard log (.release m k :: .acquire m k :: log) := .touch m [k] log

/-- Shared guards under a shared guard. -/
theorem nested (k : κ) (ks : List κ) (log : List (Event κ)) :
    Section shard log (.release .shared k :: touch .shared ks (.acquire .shared k :: log)) := by
  intro hheld
  have hshared : ∀ g ∈ held (.acquire .shared k :: log), g.1 = .shared := by simp [held, hheld]
  simp only [NoSelfBlock, held, held_touch, List.erase_cons_head, noSelfBlock_touch, hheld]
  refine ⟨trivial, ?_⟩
  rw [and_iff_left, and_iff_right (not_conflict_nil _ _)]
  rw [← hheld]
  exact fun x _ => not_conflict_of_shared hshared x

end Section

end Guards
