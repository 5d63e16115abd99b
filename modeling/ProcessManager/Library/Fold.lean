import Mathlib.Data.List.Basic

/-! Conditions on the steps of a fold. `Meets c f xs s` says that every step of
`xs.foldl f s` starts in a state that satisfies `c` for the element it consumes; an
invariant that each such step keeps holds at the end. -/

namespace Fold

variable {σ α : Type*} {f : σ → α → σ} {c : σ → α → Prop}

/-- Each step of the fold starts where `c` holds. -/
def Meets (c : σ → α → Prop) (f : σ → α → σ) : List α → σ → Prop
  | [], _ => True
  | x :: xs, s => c s x ∧ Meets c f xs (f s x)

instance decidableMeets [∀ s x, Decidable (c s x)] :
    ∀ (xs : List α) (s : σ), Decidable (Meets c f xs s)
  | [], _ => .isTrue trivial
  | x :: xs, s => @instDecidableAnd _ _ _ (decidableMeets xs (f s x))

theorem invariant {I : σ → Prop} (hstep : ∀ s x, I s → c s x → I (f s x)) :
    ∀ (xs : List α) (s : σ), I s → Meets c f xs s → I (xs.foldl f s)
  | [], _, hs, _ => hs
  | x :: xs, s, hs, h => invariant hstep xs (f s x) (hstep s x hs h.1) h.2

/-- The unconditional rule. -/
theorem foldl_invariant {I : σ → Prop} {xs : List α} {s : σ} (hs : I s)
    (hstep : ∀ s, ∀ x ∈ xs, I s → I (f s x)) : I (xs.foldl f s) := by
  induction xs generalizing s with
  | nil => exact hs
  | cons x xs ih =>
    exact ih (hstep s x (by simp) hs) fun s y hy => hstep s y (by simp [hy])

/-- An invariant that also knows which elements are still to come. -/
theorem foldl_suffix {I : List α → σ → Prop} (hstep : ∀ x xs s, I (x :: xs) s → I xs (f s x)) :
    ∀ (xs : List α) (s : σ), I xs s → I [] (xs.foldl f s)
  | [], _, h => h
  | x :: xs, s, h => foldl_suffix hstep xs (f s x) (hstep x xs s h)

/-- An invariant that knows which elements have had their turn. -/
theorem foldl_visited {I : List α → σ → Prop} {xs : List α} {s : σ} (hs : I [] s)
    (hstep : ∀ visited x s, visited ++ [x] <+: xs → I visited s → I (visited ++ [x]) (f s x)) : I xs (xs.foldl f s) := by
  have hrest : ∀ (rest visited : List α) (s : σ), visited ++ rest = xs → I visited s → I xs (rest.foldl f s) := by
    intro rest
    induction rest with
    | nil => exact fun visited s hxs h => by rwa [← hxs, List.append_nil]
    | cons x rest ih =>
      intro visited s hxs h
      have hturn : visited ++ [x] <+: xs := ⟨rest, by rw [← hxs, List.append_assoc, List.singleton_append]⟩
      exact ih (visited ++ [x]) (f s x) (by rw [← hxs, List.append_assoc, List.singleton_append])
        (hstep visited x s hturn h)
  exact hrest xs [] s (List.nil_append xs) hs

/-- Two folds over the same elements, with a condition on both at every step. -/
theorem foldl_both {τ : Type*} {g : τ → α → τ} {d : σ × τ → α → Prop} {I : List α → σ → τ → Prop}
    (hstep : ∀ x xs s t, I (x :: xs) s t → d (s, t) x → I xs (f s x) (g t x)) :
    ∀ (xs : List α) (s : σ) (t : τ), I xs s t → Meets d (fun st x => (f st.1 x, g st.2 x)) xs (s, t) →
      I [] (xs.foldl f s) (xs.foldl g t)
  | [], _, _, h, _ => h
  | x :: xs, s, t, h, hmeets =>
    foldl_both hstep xs (f s x) (g t x) (hstep x xs s t h hmeets.1) hmeets.2

/-- A reflexive, transitive relation that every step respects relates start and end. -/
theorem foldl_rel {r : σ → σ → Prop} (hrefl : ∀ s, r s s) (htrans : ∀ s t u, r s t → r t u → r s u)
    (hstep : ∀ s x, r s (f s x)) (xs : List α) (s : σ) : r s (xs.foldl f s) := by
  induction xs generalizing s with
  | nil => exact hrefl s
  | cons x xs ih => exact htrans _ _ _ (hstep s x) (ih (f s x))

/-- Where each step keeps `I` exactly if it meets the condition and loses it for good otherwise, `I`
holds at the end exactly if all steps meet it. -/
theorem meets_or_lost {I L : σ → Prop} (hkeep : ∀ s x, I s → c s x → I (f s x)) (hlose : ∀ s x, I s → ¬ c s x → L (f s x))
    (hlost : ∀ s x, L s → L (f s x)) (xs : List α) (s : σ) (hs : I s) :
    (Meets c f xs s ∧ I (xs.foldl f s)) ∨ (¬ Meets c f xs s ∧ L (xs.foldl f s)) := by
  induction xs generalizing s with
  | nil => exact .inl ⟨trivial, hs⟩
  | cons x xs ih =>
    by_cases hc : c s x
    · exact (ih (f s x) (hkeep s x hs hc)).imp (fun h => ⟨⟨hc, h.1⟩, h.2⟩) fun h => ⟨fun hmeets => h.1 hmeets.2, h.2⟩
    · have hrest : L (xs.foldl f (f s x)) := foldl_invariant (hlose s x hs hc) fun t y _ ht => hlost t y ht
      exact .inr ⟨fun hmeets => hc hmeets.1, hrest⟩

/-- The last step starts where the others end. -/
theorem Meets.last {xs : List α} {x : α} {s : σ} (h : Meets c f (xs ++ [x]) s) :
    c (xs.foldl f s) x := by
  induction xs generalizing s with
  | nil => exact h.1
  | cons y xs ih => exact ih h.2

theorem meets_append {xs ys : List α} {s : σ} :
    Meets c f (xs ++ ys) s ↔ Meets c f xs s ∧ Meets c f ys (xs.foldl f s) := by
  induction xs generalizing s with
  | nil => simp [Meets]
  | cons x xs ih =>
    calc c s x ∧ Meets c f (xs ++ ys) (f s x)
        ↔ c s x ∧ Meets c f xs (f s x) ∧ Meets c f ys (xs.foldl f (f s x)) := and_congr_right fun _ => ih
      _ ↔ (c s x ∧ Meets c f xs (f s x)) ∧ Meets c f ys (xs.foldl f (f s x)) := and_assoc.symm

theorem meets_congr {d : σ → α → Prop} (h : ∀ s x, c s x ↔ d s x) (xs : List α) (s : σ) :
    Meets c f xs s ↔ Meets d f xs s := by
  induction xs generalizing s with
  | nil => exact Iff.rfl
  | cons x xs ih => exact and_congr (h s x) (ih _)

theorem meets_mono {d : σ → α → Prop} (h : ∀ s x, c s x → d s x) :
    ∀ (xs : List α) (s : σ), Meets c f xs s → Meets d f xs s
  | [], _, _ => trivial
  | x :: xs, s, hc => ⟨h s x hc.1, meets_mono h xs (f s x) hc.2⟩

theorem meets_and {d : σ → α → Prop} : ∀ {xs : List α} {s : σ}, Meets c f xs s → Meets d f xs s →
    Meets (fun s x => c s x ∧ d s x) f xs s
  | [], _, _, _ => trivial
  | _ :: _, _, hc, hd => ⟨⟨hc.1, hd.1⟩, meets_and hc.2 hd.2⟩

/-- A condition follows from another along a fold if it does wherever an invariant holds
that the steps keep. -/
theorem meets_of_invariant {d : σ → α → Prop} {I : σ → Prop} (h : ∀ s x, I s → c s x → d s x)
    (hstep : ∀ s x, I s → c s x → I (f s x)) :
    ∀ (xs : List α) (s : σ), I s → Meets c f xs s → Meets d f xs s
  | [], _, _, _ => trivial
  | x :: xs, s, hs, hc => ⟨h s x hs hc.1, meets_of_invariant h hstep xs (f s x) (hstep s x hs hc.1) hc.2⟩

/-- Two conditions agree along a fold if they agree wherever an invariant holds that the
steps keep. -/
theorem meets_iff_of_invariant {d : σ → α → Prop} {I : List α → σ → Prop}
    (hiff : ∀ x xs s, I (x :: xs) s → (c s x ↔ d s x))
    (hstep : ∀ x xs s, I (x :: xs) s → c s x → I xs (f s x)) :
    ∀ (xs : List α) (s : σ), I xs s → (Meets c f xs s ↔ Meets d f xs s)
  | [], _, _ => Iff.rfl
  | x :: xs, s, hs =>
    calc (c s x ∧ Meets c f xs (f s x)) ↔ (c s x ∧ Meets d f xs (f s x)) :=
          and_congr_right fun hc => meets_iff_of_invariant hiff hstep xs (f s x) (hstep x xs s hs hc)
      _ ↔ (d s x ∧ Meets d f xs (f s x)) := and_congr_left fun _ => hiff x xs s hs

theorem meets_of_mem {xs : List α} (h : ∀ x ∈ xs, ∀ s, c s x) (s : σ) : Meets c f xs s := by
  induction xs generalizing s with
  | nil => trivial
  | cons x xs ih => exact ⟨h x List.mem_cons_self s, ih (fun y hy => h y (List.mem_cons_of_mem x hy)) _⟩

theorem meets_of_forall (h : ∀ s x, c s x) (xs : List α) (s : σ) : Meets c f xs s :=
  meets_of_mem (fun x _ s => h s x) s

/-- A fold in which a step fails where it does not meet the condition. -/
theorem foldlM_eq_some_iff [∀ s x, Decidable (c s x)] {xs : List α} {s t : σ} :
    xs.foldlM (fun s x => if c s x then some (f s x) else none) s = some t ↔ Meets c f xs s ∧ xs.foldl f s = t := by
  induction xs generalizing s with
  | nil => simp [Meets]
  | cons x xs ih =>
    rw [List.foldlM_cons, List.foldl_cons, Meets, and_assoc, ← ih]
    by_cases hc : c s x
    · simp [hc]
    · simp [hc]

/-! ### A fold seen from one of its elements -/

variable [DecidableEq α] {x : α} {xs : List α}

/-- A list up to the first occurrence of a member, and what follows. -/
theorem exists_takeWhile_ne (hx : x ∈ xs) :
    x ∉ xs.takeWhile (· ≠ x) ∧ ∃ after, xs = xs.takeWhile (· ≠ x) ++ x :: after := by
  obtain ⟨before, after, rfl, hfresh⟩ := List.eq_append_cons_of_mem hx
  have htake : (before ++ x :: after).takeWhile (· ≠ x) = before := by
    rw [List.takeWhile_append_of_pos, List.takeWhile_cons_of_neg, List.append_nil]
    · simp
    · exact fun y hy => by simpa using ne_of_mem_of_not_mem hy hfresh
  rw [htake]
  exact ⟨hfresh, after, rfl⟩

/-- Without duplicates the member does not occur again. -/
theorem exists_takeWhile_ne_of_nodup (hnodup : xs.Nodup) (hx : x ∈ xs) :
    x ∉ xs.takeWhile (· ≠ x) ∧ ∃ after, x ∉ after ∧ xs = xs.takeWhile (· ≠ x) ++ x :: after := by
  obtain ⟨hfresh, after, hxs⟩ := exists_takeWhile_ne hx
  refine ⟨hfresh, after, ?_, hxs⟩
  rw [hxs] at hnodup
  exact (List.nodup_cons.mp (List.nodup_append.mp hnodup).2.1).1

/-- A relation that the steps of all other elements respect holds up to the step of a member and
from there on. -/
theorem foldl_around {r : σ → σ → Prop} (hrefl : ∀ s, r s s) (htrans : ∀ s t u, r s t → r t u → r s u)
    (hstep : ∀ s y, y ≠ x → r s (f s y)) (hnodup : xs.Nodup) (hx : x ∈ xs) (s : σ) :
    r s ((xs.takeWhile (· ≠ x)).foldl f s) ∧ r (f ((xs.takeWhile (· ≠ x)).foldl f s) x) (xs.foldl f s) := by
  have hothers : ∀ ys : List α, x ∉ ys → ∀ s, r s (ys.foldl f s) := fun ys hys s =>
    foldl_invariant (I := r s) (hrefl s) fun t y hy ht =>
      htrans _ _ _ ht (hstep t y (ne_of_mem_of_not_mem hy hys))
  obtain ⟨hfresh, after, hafter, hxs⟩ := exists_takeWhile_ne_of_nodup hnodup hx
  have hfold : xs.foldl f s = after.foldl f (f ((xs.takeWhile (· ≠ x)).foldl f s) x) := by
    conv_lhs => rw [hxs]
    rw [List.foldl_append, List.foldl_cons]
  rw [hfold]
  exact ⟨hothers _ hfresh s, hothers _ hafter _⟩

end Fold
