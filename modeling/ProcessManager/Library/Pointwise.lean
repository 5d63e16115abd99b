import ProcessManager.Library.AssocList

/-! Two maps with the same keys in the same order, compared entry by entry. -/

theorem List.visitedUntil_map {α β : Type*} (f : β → Bool) (g : α → β) (l : List α) :
    (l.map g).visitedUntil f = (l.visitedUntil (f ∘ g)).map g := by
  induction l with
  | nil => rfl
  | cons a l ih =>
    simp only [List.map_cons, List.visitedUntil, ih, Function.comp_apply]
    split_ifs <;> rfl

namespace AssocMap

variable {α β γ : Type*} [DecidableEq α] {R Q : α → β → β → Prop} {s t : AssocMap α β} {a : α} {b c : β}

/-- The keys agree, and `R` relates the two entries under each. -/
structure Pointwise (R : α → β → β → Prop) (s t : AssocMap α β) : Prop where
  keys : t.keys = s.keys
  entry : ∀ a b c, s.lookup a = some b → t.lookup a = some c → R a b c

namespace Pointwise

theorem refl (hR : ∀ a b, R a b b) (s : AssocMap α β) : Pointwise R s s where
  keys := rfl
  entry a b c hb hc := by
    obtain rfl : b = c := Option.some.inj (hb.symm.trans hc)
    exact hR a b

/-- A key is tracked on both sides or on neither. -/
theorem lookup_cases (h : Pointwise R s t) (a : α) : (s.lookup a = none ∧ t.lookup a = none) ∨
    ∃ b c, s.lookup a = some b ∧ t.lookup a = some c ∧ R a b c := by
  have hmem : (t.lookup a).isSome = (s.lookup a).isSome := by
    rw [Bool.eq_iff_iff, AList.lookup_isSome, AList.lookup_isSome, AList.mem_keys, AList.mem_keys, h.keys]
  cases hb : s.lookup a with
  | none =>
    rw [hb, Option.isSome_none, Option.isSome_eq_false_iff, Option.isNone_iff_eq_none] at hmem
    exact .inl ⟨rfl, hmem⟩
  | some b =>
    rw [hb, Option.isSome_some] at hmem
    obtain ⟨c, hc⟩ := Option.isSome_iff_exists.mp hmem
    exact .inr ⟨b, c, rfl, hc, h.entry a b c hb hc⟩

/-- The relation may be weakened at tracked keys. -/
theorem mono_lookup (h : Pointwise R s t)
    (hRQ : ∀ a b c, s.lookup a = some b → t.lookup a = some c → R a b c → Q a b c) : Pointwise Q s t :=
  ⟨h.keys, fun a b c hb hc => hRQ a b c hb hc (h.entry a b c hb hc)⟩

/-! ### Operations -/

/-- Both sides replace an entry; the relation may change elsewhere too. -/
theorem replace_of (h : Pointwise R s t) (hother : ∀ k x y, k ≠ a → R k x y → Q k x y) (hself : Q a b c) :
    Pointwise Q (s.replace a b) (t.replace a c) where
  keys := by rw [AList.keys_replace, AList.keys_replace, h.keys]
  entry k x y hx hy := by
    rw [lookup_replace] at hx hy
    split_ifs at hx hy with hk
    · obtain ⟨_, _, rfl⟩ := Option.map_eq_some_iff.mp hx
      obtain ⟨_, _, rfl⟩ := Option.map_eq_some_iff.mp hy
      rwa [hk]
    · exact hother k x y hk (h.entry k x y hx hy)

/-- Only the second side replaces an entry. -/
theorem replace_right (h : Pointwise R s t) (hself : ∀ b, s.lookup a = some b → R a b c) :
    Pointwise R s (t.replace a c) where
  keys := by rw [AList.keys_replace, h.keys]
  entry k x y hx hy := by
    rw [lookup_replace] at hy
    split_ifs at hy with hk
    · obtain ⟨_, _, rfl⟩ := Option.map_eq_some_iff.mp hy
      subst hk
      exact hself x hx
    · exact h.entry k x y hx hy

theorem erase (h : Pointwise R s t) (a : α) : Pointwise R (s.erase a) (t.erase a) where
  keys := by rw [AList.keys_erase, AList.keys_erase, h.keys]
  entry k x y hx hy := by
    rw [lookup_erase_eq] at hx hy
    split_ifs at hx hy
    exact h.entry k x y hx hy

theorem insert (h : Pointwise R s t) (hself : R a b c) : Pointwise R (s.insert a b) (t.insert a c) where
  keys := by rw [AList.keys_insert, AList.keys_insert, h.keys]
  entry k x y hx hy := by
    rw [lookup_insert_eq] at hx hy
    split_ifs at hx hy with hk
    · cases hx
      cases hy
      rwa [hk]
    · exact h.entry k x y hx hy

omit [DecidableEq α] in
theorem keys_reorder (rank : α → ℕ) (s : AssocMap α β) :
    (s.reorder rank).keys = s.keys.insertionSort fun a b => rank a ≤ rank b :=
  List.map_insertionSort _ _ Sigma.fst s.entries fun _ _ _ _ => Iff.rfl

theorem reorder (h : Pointwise R s t) (rank : α → ℕ) : Pointwise R (s.reorder rank) (t.reorder rank) where
  keys := by rw [keys_reorder, keys_reorder, h.keys]
  entry k x y hx hy := by
    rw [lookup_reorder] at hx hy
    exact h.entry k x y hx hy

/-! ### Searches -/

/-- The entries, as far as `g` sees them. -/
def view (g : β → γ) (s : AssocMap α β) : List (α × γ) := s.entries.map fun e => (e.1, g e.2)

theorem map_some_view (g : β → γ) (s : AssocMap α β) :
    (view g s).map (Prod.map id some) = s.keys.map fun a => (a, (s.lookup a).map g) := by
  rw [view, AList.keys, List.keys, List.map_map, List.map_map]
  refine List.map_congr_left fun e he => ?_
  have hlookup : s.lookup e.1 = some e.2 := AList.mem_lookup_iff.mpr he
  simp only [Function.comp_apply, Prod.map_apply, id_eq, hlookup, Option.map_some]

/-- What is the same in related entries is the same in the two lists. -/
theorem view_eq (h : Pointwise R s t) {g : β → γ}
    (hg : ∀ a b c, s.lookup a = some b → t.lookup a = some c → g c = g b) : view g t = view g s := by
  have hinj : Function.Injective (List.map (Prod.map (id : α → α) (some : γ → Option γ))) :=
    List.map_injective_iff.mpr (Function.injective_id.prodMap (Option.some_injective γ))
  refine hinj ?_
  rw [map_some_view, map_some_view, h.keys]
  refine List.map_congr_left fun a _ => ?_
  rcases h.lookup_cases a with ⟨hb, hc⟩ | ⟨b, c, hb, hc, _⟩
  · rw [hb, hc]
  · rw [hb, hc, Option.map_some, Option.map_some, hg a b c hb hc]

theorem keysWhere_eq (h : Pointwise R s t) {f : β → Bool}
    (hf : ∀ a b c, s.lookup a = some b → t.lookup a = some c → f c = f b) : t.keysWhere f = s.keysWhere f := by
  have hview : ∀ u : AssocMap α β, u.keysWhere f = ((view f u).filter Prod.snd).map Prod.fst := by
    intro u
    rw [view, List.filter_map, List.map_map]
    rfl
  rw [hview, hview, h.view_eq hf]

theorem findKey_eq (h : Pointwise R s t) {f : β → Bool}
    (hf : ∀ a b c, s.lookup a = some b → t.lookup a = some c → f c = f b) : t.findKey f = s.findKey f := by
  have hview : ∀ u : AssocMap α β, u.findKey f = ((view f u).find? Prod.snd).map Prod.fst := by
    intro u
    rw [view, List.find?_map, Option.map_map]
    rfl
  rw [hview, hview, h.view_eq hf]

theorem visitedKeys_eq (h : Pointwise R s t) {f : β → Bool}
    (hf : ∀ a b c, s.lookup a = some b → t.lookup a = some c → f c = f b) : t.visitedKeys f = s.visitedKeys f := by
  have hview : ∀ u : AssocMap α β, u.visitedKeys f = ((view f u).visitedUntil Prod.snd).map Prod.fst := by
    intro u
    rw [view, List.visitedUntil_map, List.map_map]
    rfl
  rw [hview, hview, h.view_eq hf]

end Pointwise

end AssocMap
