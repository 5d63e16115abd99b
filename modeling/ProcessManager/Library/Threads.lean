import ProcessManager.Library.Fold

/-! Threads that take atomic steps on a shared state, in any order. An invariant of all
interleavings consists of a part for the shared state, an assertion for each thread that
the other threads do not disturb, and a relation between any two threads. -/

/-- Threads with their local states, and the state they share. -/
structure Threads (τ σ : Type*) where
  threads : List τ
  shared : σ

namespace Threads

variable {τ σ : Type*} {next : τ → σ → τ × σ} {s : Threads τ σ} {k : ℕ} {t u : τ}

/-- The `k`-th thread takes its next atomic step. -/
def step (next : τ → σ → τ × σ) (s : Threads τ σ) (k : ℕ) : Threads τ σ :=
  match s.threads[k]? with
  | some t => ⟨s.threads.set k (next t s.shared).1, (next t s.shared).2⟩
  | none => s

/-- The threads take steps in the order of the schedule. -/
def run (next : τ → σ → τ × σ) (schedule : List ℕ) (s : Threads τ σ) : Threads τ σ :=
  schedule.foldl (step next) s

theorem step_of_some (h : s.threads[k]? = some t) :
    step next s k = ⟨s.threads.set k (next t s.shared).1, (next t s.shared).2⟩ := by
  rw [step, h]

theorem step_of_none (h : s.threads[k]? = none) : step next s k = s := by
  rw [step, h]

/-- A condition on the thread that takes a step. -/
def AtStep (c : τ → σ → Prop) (s : Threads τ σ) (k : ℕ) : Prop :=
  ∀ t, s.threads[k]? = some t → c t s.shared

instance {c : τ → σ → Prop} [∀ t s, Decidable (c t s)] : Decidable (AtStep c s k) :=
  match h : s.threads[k]? with
  | some t => decidable_of_iff (c t s.shared) (by simp [AtStep, h])
  | none => .isTrue fun t ht => by simp [h] at ht

/-- The shape of an invariant. -/
structure Inv {τ σ : Type*} (J : σ → Prop) (A : τ → σ → Prop) (B : τ → τ → Prop)
    (s : Threads τ σ) : Prop where
  shared : J s.shared
  thread : ∀ t ∈ s.threads, A t s.shared
  pair : ∀ (i j : ℕ) (t u : τ), i ≠ j → s.threads[i]? = some t → s.threads[j]? = some u → B t u

variable {J : σ → Prop} {A : τ → σ → Prop} {B : τ → τ → Prop} {c : τ → σ → Prop}

theorem Inv.step (hsymm : ∀ t u, B t u → B u t)
    (hself : ∀ t s, J s → A t s → c t s → J (next t s).2 ∧ A (next t s).1 (next t s).2)
    (hother : ∀ t u s, B t u → J s → A t s → A u s → c t s → A u (next t s).2)
    (hpair : ∀ t u s, B t u → J s → A t s → A u s → c t s → B (next t s).1 u)
    (h : Inv J A B s) (hc : AtStep c s k) : Inv J A B (step next s k) := by
  cases hk : s.threads[k]? with
  | none => rwa [step_of_none hk]
  | some t =>
    have ht := h.thread t (List.mem_of_getElem? hk)
    have hcond := hc t hk
    obtain ⟨hJ, hA⟩ := hself t s.shared h.shared ht hcond
    -- the others are where they were
    have hcases : ∀ i v, (s.threads.set k (next t s.shared).1)[i]? = some v →
        (i = k ∧ v = (next t s.shared).1) ∨ (i ≠ k ∧ s.threads[i]? = some v) := by
      intro i v hv
      rw [List.getElem?_set] at hv
      split_ifs at hv with hik hlt
      · exact .inl ⟨hik.symm, (Option.some.inj hv).symm⟩
      · exact .inr ⟨Ne.symm hik, hv⟩
    have hfrom : ∀ j v, j ≠ k → s.threads[j]? = some v → B t v := fun j v hj hv =>
      h.pair k j t v (Ne.symm hj) hk hv
    rw [step_of_some hk]
    refine ⟨hJ, fun v hv => ?_, fun i j v v' hij hv hv' => ?_⟩
    · obtain ⟨i, hi⟩ := List.mem_iff_getElem?.mp hv
      obtain ⟨_, rfl⟩ | ⟨hik, hv⟩ := hcases i v hi
      · exact hA
      · exact hother t v s.shared (hfrom i v hik hv) h.shared ht
          (h.thread v (List.mem_of_getElem? hv)) hcond
    · have hstep : ∀ j v, j ≠ k → s.threads[j]? = some v → B (next t s.shared).1 v :=
        fun j v hj hv => hpair t v s.shared (hfrom j v hj hv) h.shared ht (h.thread v (List.mem_of_getElem? hv)) hcond
      obtain ⟨hik, hvk⟩ | ⟨hik, hvk⟩ := hcases i v hv <;>
        obtain ⟨hjk, hvk'⟩ | ⟨hjk, hvk'⟩ := hcases j v' hv'
      · exact absurd (hik.trans hjk.symm) hij
      · exact hvk ▸ hstep j v' hjk hvk'
      · exact hvk' ▸ hsymm _ _ (hstep i v hik hvk)
      · exact h.pair i j v v' hij hvk hvk'

/-- The rule for interleavings. -/
theorem Inv.run (hsymm : ∀ t u, B t u → B u t)
    (hself : ∀ t s, J s → A t s → c t s → J (next t s).2 ∧ A (next t s).1 (next t s).2)
    (hother : ∀ t u s, B t u → J s → A t s → A u s → c t s → A u (next t s).2)
    (hpair : ∀ t u s, B t u → J s → A t s → A u s → c t s → B (next t s).1 u)
    (schedule : List ℕ) (h : Inv J A B s)
    (hc : Fold.Meets (AtStep c) (Threads.step next) schedule s) :
    Inv J A B (Threads.run next schedule s) :=
  Fold.invariant (fun _ _ hs hcond => Inv.step hsymm hself hother hpair hs hcond) schedule s h hc

/-- The rule for termination: a measure that each step of its own thread lowers, and that the steps
of other threads do not raise. -/
theorem countdown {P : τ → Prop} (m : τ → σ → ℕ)
    (hself : ∀ t s, P t → P (next t s).1 ∧ m (next t s).1 (next t s).2 ≤ m t s - 1)
    (hother : ∀ t u s, P u → m u (next t s).2 ≤ m u s) (schedule : List ℕ) (hk : s.threads[k]? = some t)
    (ht : P t) : ∃ t', (run next schedule s).threads[k]? = some t' ∧ P t' ∧
      m t' (run next schedule s).shared ≤ m t s.shared - schedule.count k := by
  induction schedule generalizing s t with
  | nil => exact ⟨t, hk, ht, Nat.le_refl _⟩
  | cons i schedule ih =>
    obtain ⟨t₁, hk₁, ht₁, hle⟩ : ∃ t₁, (step next s i).threads[k]? = some t₁ ∧ P t₁ ∧
        m t₁ (step next s i).shared ≤ m t s.shared - [i].count k := by
      by_cases hi : i = k
      · subst hi
        obtain ⟨hP, hm⟩ := hself t s.shared ht
        rw [step_of_some hk]
        exact ⟨_, List.getElem?_set_self (List.getElem?_eq_some_iff.mp hk).1, hP, by simpa using hm⟩
      · cases hu : s.threads[i]? with
        | none => exact ⟨t, by rwa [step_of_none hu], ht, by simp [step_of_none hu, hi]⟩
        | some u =>
          rw [step_of_some hu]
          exact ⟨t, by rwa [List.getElem?_set_ne hi], ht, by simpa [hi] using hother u t s.shared ht⟩
    obtain ⟨t', hk', ht', hle'⟩ := ih hk₁ ht₁
    refine ⟨t', hk', ht', Nat.le_trans hle' ?_⟩
    calc m t₁ (step next s i).shared - schedule.count k
        ≤ m t s.shared - [i].count k - schedule.count k := Nat.sub_le_sub_right hle _
      _ = m t s.shared - (i :: schedule).count k := by
        rw [Nat.sub_sub, ← List.count_append, List.singleton_append]

end Threads
