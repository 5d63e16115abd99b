import Mathlib.Data.Set.Insert
import Mathlib.Logic.Relation

/-! Removing a node of a graph and all that is reachable from it. A recursion that removes a
node and then visits its successors one after the other, in whatever order and with shared
descendants, removes exactly the reachable nodes. -/

namespace Relation

variable {α : Type*} {r : α → α → Prop} {A B S : Set α} {x j : α}

/-- `j` is reached from `x` by edges inside `A`. -/
def Within (A : Set α) (r : α → α → Prop) : α → α → Prop :=
  ReflTransGen fun u v => u ∈ A ∧ v ∈ A ∧ r u v

theorem Within.mono (hAB : A ⊆ B) (h : Within A r x j) : Within B r x j :=
  ReflTransGen.mono (fun _ _ ⟨hu, hv, huv⟩ => ⟨hAB hu, hAB hv, huv⟩) _ _ h

/-- A path enters a closed set for good, or avoids it. -/
theorem Within.enters_or_avoids (hS : ∀ u ∈ S, u ∈ A → ∀ v ∈ A, r u v → v ∈ S) (h : Within A r x j) :
    j ∈ S ∨ Within (A \ S) r x j := by
  induction h with
  | refl => exact .inr .refl
  | @tail u v _ huv ih =>
    obtain ⟨hu, hv, huv⟩ := huv
    by_cases huS : u ∈ S
    · exact .inl (hS u huS hu v hv huv)
    · by_cases hvS : v ∈ S
      · exact .inl hvS
      · exact .inr ((ih.resolve_left huS).tail ⟨⟨hu, huS⟩, ⟨hv, hvS⟩, huv⟩)

/-- The first step of a path that does not come back to `x`. -/
theorem within_iff_of_mem (hx : x ∈ A) :
    Within A r x j ↔ j = x ∨ ∃ d, (d ∈ A \ {x} ∧ r x d) ∧ Within (A \ {x}) r d j := by
  constructor
  · intro h
    induction h with
    | refl => exact .inl rfl
    | @tail u v _ huv ih =>
      obtain ⟨hu, hv, huv⟩ := huv
      by_cases hvx : v = x
      · exact .inl hvx
      · by_cases hux : u = x
        · exact .inr ⟨v, ⟨⟨hv, hvx⟩, hux ▸ huv⟩, .refl⟩
        · obtain ⟨d, hd, hpath⟩ := ih.resolve_left hux
          exact .inr ⟨d, hd, hpath.tail ⟨⟨hu, hux⟩, ⟨hv, hvx⟩, huv⟩⟩
  · rintro (rfl | ⟨d, ⟨hd, hxd⟩, hpath⟩)
    · exact .refl
    · exact .head ⟨hx, hd.1, hxd⟩ (hpath.mono fun _ h => h.1)

/-- What is left of `A` without the nodes reachable from `x`. -/
def sweep (r : α → α → Prop) (A : Set α) (x : α) : Set α := A \ {j | Within A r x j}

theorem sweep_of_not_mem (hx : x ∉ A) : sweep r A x = A := by
  ext j
  refine ⟨And.left, fun hj => ⟨hj, fun hpath => ?_⟩⟩
  rcases ReflTransGen.cases_head hpath with rfl | ⟨_, ⟨hx', _⟩, _⟩
  · exact hx hj
  · exact hx hx'

/-- Sweeping from several nodes in turn removes what any of them reaches. -/
theorem foldl_sweep (ds : List α) (A : Set α) :
    ds.foldl (sweep r) A = A \ {j | ∃ d ∈ ds, Within A r d j} := by
  induction ds generalizing A with
  | nil =>
    ext j
    simp
  | cons d ds ih =>
    rw [List.foldl_cons, ih]
    have hclosed : ∀ u ∈ {j | Within A r d j}, u ∈ A → ∀ v ∈ A, r u v → v ∈ {j | Within A r d j} :=
      fun u hu huA v hv huv => ReflTransGen.tail hu ⟨huA, hv, huv⟩
    ext j
    simp only [sweep, Set.mem_sdiff, Set.mem_ofPred_eq, List.mem_cons, not_exists, not_and]
    constructor
    · rintro ⟨⟨hj, hd⟩, hrest⟩
      refine ⟨hj, fun e he hpath => ?_⟩
      rcases he with rfl | he
      · exact hd hpath
      · exact hrest e he ((hpath.enters_or_avoids hclosed).resolve_left hd)
    · rintro ⟨hj, hnone⟩
      exact ⟨⟨hj, hnone d (.inl rfl)⟩, fun e he hpath =>
        hnone e (.inr he) (hpath.mono fun _ h => h.1)⟩

/-- The recursion: remove `x`, then sweep from each of its successors. -/
theorem sweep_of_mem (ds : List α) (hx : x ∈ A) (hds : ∀ d, d ∈ ds ↔ d ∈ A \ {x} ∧ r x d) :
    sweep r A x = ds.foldl (sweep r) (A \ {x}) := by
  rw [foldl_sweep]
  ext j
  simp only [sweep, Set.mem_sdiff, Set.mem_ofPred_eq, within_iff_of_mem hx, hds, Set.mem_singleton_iff,
    not_or, and_assoc]

end Relation
