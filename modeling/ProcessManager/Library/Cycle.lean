import Mathlib.Logic.Relation

/-! Cycles of a relation, and how a new node closes one. -/

namespace Relation

variable {α : Type*} {r s : α → α → Prop} {a b x y : α}

/-- Following `r` from `a` can lead into a cycle. -/
def ReachesCycle (r : α → α → Prop) (a : α) : Prop :=
  ∃ b, ReflTransGen r a b ∧ TransGen r b b

/-- No cycle anywhere. -/
def Acyclic (r : α → α → Prop) : Prop := ∀ a, ¬ TransGen r a a

theorem ReachesCycle.of_transGen (h : TransGen r a a) : ReachesCycle r a := ⟨a, .refl, h⟩

theorem ReachesCycle.head (hab : r a b) (h : ReachesCycle r b) : ReachesCycle r a := by
  obtain ⟨c, hbc, hc⟩ := h
  exact ⟨c, .head hab hbc, hc⟩

theorem ReachesCycle.mono (hrs : ∀ x y, r x y → s x y) (h : ReachesCycle r a) : ReachesCycle s a := by
  obtain ⟨b, hab, hb⟩ := h
  exact ⟨b, ReflTransGen.mono hrs _ _ hab, TransGen.mono hrs _ _ hb⟩

theorem Acyclic.mono (hrs : ∀ x y, r x y → s x y) (h : Acyclic s) : Acyclic r :=
  fun a ha => h a (TransGen.mono hrs _ _ ha)

theorem Acyclic.not_reachesCycle (h : Acyclic r) (a : α) : ¬ ReachesCycle r a :=
  fun ⟨b, _, hb⟩ => h b hb

/-- Where every descent ends, no cycle is reached. -/
theorem not_reachesCycle_of_acc (h : Acc (Function.swap r) a) : ¬ ReachesCycle r a := by
  induction h with
  | intro a _ ih =>
    rintro ⟨b, hab, hb⟩
    rcases ReflTransGen.cases_head hab with rfl | ⟨c, hac, hcb⟩
    · obtain ⟨c, hac, hca⟩ := TransGen.head'_iff.mp hb
      exact ih c hac ⟨a, hca, hb⟩
    · exact ih c hac ⟨b, hcb, hb⟩

/-- A path that uses more than `r` passes through `a`. -/
theorem transGen_or_through (h : ∀ x y, s x y → r x y ∨ x = a) (hxy : TransGen s x y) :
    TransGen r x y ∨ (ReflTransGen s x a ∧ TransGen s a y) := by
  induction hxy with
  | single hxy =>
    rcases h _ _ hxy with hr | rfl
    · exact .inl (.single hr)
    · exact .inr ⟨.refl, .single hxy⟩
  | tail hxb hbc ih =>
    rcases ih with hr | ⟨hxa, hab⟩
    · rcases h _ _ hbc with hr' | rfl
      · exact .inl (hr.tail hr')
      · exact .inr ⟨hxb.to_reflTransGen, .single hbc⟩
    · exact .inr ⟨hxa, hab.tail hbc⟩

/-- When all new edges leave one node, every new cycle passes through it. -/
theorem Acyclic.through (hr : Acyclic r) (h : ∀ x y, s x y → r x y ∨ x = a) (hx : TransGen s x x) :
    TransGen s a a := by
  rcases transGen_or_through h hx with hx' | ⟨hxa, hax⟩
  · exact absurd hx' (hr x)
  · exact hax.trans_left hxa

theorem Acyclic.acyclic_iff (hr : Acyclic r) (h : ∀ x y, s x y → r x y ∨ x = a) :
    Acyclic s ↔ ¬ ReachesCycle s a := by
  refine ⟨fun hs => hs.not_reachesCycle a, fun ha x hx => ha (.of_transGen (hr.through h hx))⟩

end Relation
