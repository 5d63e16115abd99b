import Mathlib.Data.List.AList
import Mathlib.Data.List.Sort

/-! Association lists read as a map with an iteration order: lookup after an in-place
replacement, reordering by an arbitrary rank, and the keys a search visits until it
finds what it looks for. -/

/-- A map with unique keys, iterated in the order of its entries. -/
abbrev AssocMap (α β : Type*) := AList fun _ : α => β

/-- The elements a left-to-right search looks at: all up to the first that satisfies `f`. -/
def List.visitedUntil {α : Type*} (f : α → Bool) : List α → List α
  | [] => []
  | a :: l => if f a then [a] else a :: visitedUntil f l

namespace AssocMap

variable {α β : Type*}

/-! ### Iteration order -/

/-- The same map, iterated by increasing rank. -/
def reorder (rank : α → ℕ) (s : AssocMap α β) : AssocMap α β where
  entries := s.entries.insertionSort fun e f => rank e.1 ≤ rank f.1
  nodupKeys := (List.perm_nodupKeys (List.perm_insertionSort _ _)).mpr s.nodupKeys

/-- The keys of the entries that satisfy `f`, in iteration order. -/
def keysWhere (f : β → Bool) (s : AssocMap α β) : List α :=
  (s.entries.filter fun e => f e.2).map Sigma.fst

theorem nodup_keysWhere (f : β → Bool) (s : AssocMap α β) : (s.keysWhere f).Nodup := by
  have hsub : (s.keysWhere f).Sublist s.keys := List.filter_sublist.map _
  exact s.keys_nodup.sublist hsub

/-- The first key whose entry satisfies `f`. -/
def findKey (f : β → Bool) (s : AssocMap α β) : Option α :=
  (s.entries.find? fun e => f e.2).map Sigma.fst

/-- The keys a search for `f` visits. -/
def visitedKeys (f : β → Bool) (s : AssocMap α β) : List α :=
  (s.entries.visitedUntil fun e => f e.2).map Sigma.fst

/-! ### Lookup -/

variable [DecidableEq α]

@[simp] theorem lookup_reorder (rank : α → ℕ) (s : AssocMap α β) (a : α) :
    (s.reorder rank).lookup a = s.lookup a :=
  AList.perm_lookup (List.perm_insertionSort _ _)

theorem mem_keysWhere {f : β → Bool} {s : AssocMap α β} {a : α} :
    a ∈ s.keysWhere f ↔ ∃ b, s.lookup a = some b ∧ f b = true := by
  simp only [keysWhere, List.mem_map, List.mem_filter]
  constructor
  · rintro ⟨⟨x, b⟩, ⟨he, hf⟩, rfl⟩
    exact ⟨b, AList.mem_lookup_iff.mpr he, hf⟩
  · rintro ⟨b, hb, hf⟩
    exact ⟨⟨a, b⟩, ⟨AList.mem_lookup_iff.mp hb, hf⟩, rfl⟩

theorem findKey_eq_some {f : β → Bool} {s : AssocMap α β} {a : α} (h : s.findKey f = some a) :
    ∃ b, s.lookup a = some b ∧ f b = true := by
  obtain ⟨e, he, rfl⟩ := Option.map_eq_some_iff.mp h
  exact ⟨e.2, AList.mem_lookup_iff.mpr (List.mem_of_find?_eq_some he),
    List.find?_some (p := fun e : Sigma fun _ : α => β => f e.2) he⟩

theorem findKey_eq_none {f : β → Bool} {s : AssocMap α β} :
    s.findKey f = none ↔ ∀ a b, s.lookup a = some b → f b = false := by
  rw [findKey, Option.map_eq_none_iff, List.find?_eq_none]
  constructor
  · intro h a b hb
    simpa using h ⟨a, b⟩ (AList.mem_lookup_iff.mp hb)
  · rintro h ⟨a, b⟩ he
    simpa using h a b (AList.mem_lookup_iff.mpr he)

/-- The entry of `a` satisfies `f`, and none before it in iteration order does. -/
def IsFirst (f : β → Bool) (s : AssocMap α β) (a : α) : Prop :=
  (∃ b ∈ s.lookup a, f b = true) ∧ ∀ k ∈ s.keys.takeWhile (· ≠ a), ∀ b ∈ s.lookup k, f b = false

instance (f : β → Bool) (s : AssocMap α β) (a : α) : Decidable (s.IsFirst f a) :=
  inferInstanceAs (Decidable ((∃ b ∈ s.lookup a, f b = true) ∧ ∀ k ∈ s.keys.takeWhile (· ≠ a), ∀ b ∈ s.lookup k, f b = false))

theorem IsFirst.findKey {f : β → Bool} {s : AssocMap α β} {a : α} (h : s.IsFirst f a) : s.findKey f = some a := by
  obtain ⟨⟨b, hb, hf⟩, hbefore⟩ := h
  obtain ⟨before, after, hentries⟩ := List.append_of_mem (AList.mem_lookup_iff.mp hb)
  have hkeys : s.keys = before.map Sigma.fst ++ a :: after.map Sigma.fst := by
    rw [AList.keys, List.keys, hentries, List.map_append, List.map_cons]
  have hfresh : ∀ k ∈ before.map Sigma.fst, k ≠ a := by
    intro k hk
    have hnodup := s.keys_nodup
    rw [hkeys] at hnodup
    exact (List.nodup_append.mp hnodup).2.2 k hk a List.mem_cons_self
  have htake : s.keys.takeWhile (· ≠ a) = before.map Sigma.fst := by
    rw [hkeys, List.takeWhile_append_of_pos fun k hk => by simpa using hfresh k hk]
    simp
  refine Option.map_eq_some_iff.mpr ⟨⟨a, b⟩, List.find?_eq_some_iff_append.mpr ⟨hf, before, after, hentries, ?_⟩, rfl⟩
  intro e he
  have hlookup : e.2 ∈ s.lookup e.1 := AList.mem_lookup_iff.mpr (hentries ▸ List.mem_append_left _ he)
  simp [hbefore e.1 (htake ▸ List.mem_map_of_mem he) e.2 hlookup]

/-- Statements about all entries are decided entry by entry. -/
def decidableForall {Q : α → β → Prop} [∀ a b, Decidable (Q a b)] (s : AssocMap α β) :
    Decidable (∀ a b, s.lookup a = some b → Q a b) :=
  decidable_of_iff (∀ e ∈ s.entries, Q e.1 e.2)
    ⟨fun h a b hb => h ⟨a, b⟩ (AList.mem_lookup_iff.mp hb),
      fun h e he => h e.1 e.2 (AList.mem_lookup_iff.mpr he)⟩

theorem mem_of_lookup {a : α} {b : β} {s : AssocMap α β} (h : s.lookup a = some b) : a ∈ s.keys :=
  AList.mem_keys.mp (AList.lookup_isSome.mp (by simp [h]))

/-! ### Replacing, erasing, inserting -/

theorem dlookup_kreplace (a : α) (b : β) (k : α) (l : List (Sigma fun _ : α => β)) :
    (List.kreplace a b l).dlookup k =
      if k = a then (l.dlookup a).map fun _ => b else l.dlookup k := by
  induction l with
  | nil => simp [List.kreplace]
  | cons e l ih =>
    obtain ⟨x, y⟩ := e
    unfold List.kreplace at ih ⊢
    by_cases hx : a = x
    · subst hx
      rw [List.lookmap_cons_some (b := ⟨a, b⟩) _ _ (by simp)]
      by_cases hk : k = a
      · subst hk; simp
      · rw [List.dlookup_cons_ne (β := fun _ => β) l ⟨a, b⟩ hk, if_neg hk,
          List.dlookup_cons_ne (β := fun _ => β) l ⟨a, y⟩ hk]
    · rw [List.lookmap_cons_none _ _ (by simp [hx])]
      by_cases hk : k = x
      · subst hk; simp [Ne.symm hx]
      · rw [List.dlookup_cons_ne (β := fun _ => β) _ ⟨x, y⟩ hk,
          List.dlookup_cons_ne (β := fun _ => β) l ⟨x, y⟩ hx, ih,
          List.dlookup_cons_ne (β := fun _ => β) l ⟨x, y⟩ hk]

theorem lookup_replace (a k : α) (b : β) (s : AssocMap α β) :
    (s.replace a b).lookup k = if k = a then (s.lookup a).map fun _ => b else s.lookup k :=
  dlookup_kreplace a b k s.entries

theorem lookup_erase_eq (a k : α) (s : AssocMap α β) :
    (s.erase a).lookup k = if k = a then none else s.lookup k := by
  split_ifs with h
  · subst h; exact AList.lookup_erase k s
  · exact AList.lookup_erase_ne h

theorem lookup_insert_eq (a k : α) (b : β) (s : AssocMap α β) :
    (s.insert a b).lookup k = if k = a then some b else s.lookup k := by
  split_ifs with h
  · subst h; exact AList.lookup_insert s
  · exact AList.lookup_insert_ne h

/-- What holds of every entry survives a replacement by an entry of which it holds. -/
theorem forall_replace {Q : α → β → Prop} {s : AssocMap α β} {a : α} {b : β}
    (h : ∀ k c, s.lookup k = some c → Q k c) (hb : Q a b) (k : α) (c : β)
    (hc : (s.replace a b).lookup k = some c) : Q k c := by
  rw [lookup_replace] at hc
  split_ifs at hc with hk
  · subst hk
    obtain ⟨_, _, rfl⟩ := Option.map_eq_some_iff.mp hc
    exact hb
  · exact h k c hc

theorem forall_insert {Q : α → β → Prop} {s : AssocMap α β} {a : α} {b : β}
    (h : ∀ k c, s.lookup k = some c → Q k c) (hb : Q a b) (k : α) (c : β)
    (hc : (s.insert a b).lookup k = some c) : Q k c := by
  rw [lookup_insert_eq] at hc
  split_ifs at hc with hk
  · rw [hk, ← Option.some.inj hc]
    exact hb
  · exact h k c hc

/-! ### Refinement

`Refines R s t`: every entry of `t` is an entry of `s` under the same key, changed
according to `R`. Keys may be lost but not gained. -/

def Refines (R : α → β → β → Prop) (s t : AssocMap α β) : Prop :=
  ∀ a b', t.lookup a = some b' → ∃ b, s.lookup a = some b ∧ R a b b'

namespace Refines

variable {R : α → β → β → Prop} {s t u : AssocMap α β}

theorem refl (hR : ∀ a b, R a b b) (s : AssocMap α β) : Refines R s s :=
  fun a b h => ⟨b, h, hR a b⟩

theorem trans (hR : ∀ a b c d, R a b c → R a c d → R a b d) (h : Refines R s t)
    (h' : Refines R t u) : Refines R s u := by
  intro a d hd
  obtain ⟨c, hc, hcd⟩ := h' a d hd
  obtain ⟨b, hb, hbc⟩ := h a c hc
  exact ⟨b, hb, hR a b c d hbc hcd⟩

theorem mono {Q : α → β → β → Prop} (hQ : ∀ a b c, R a b c → Q a b c) (h : Refines R s t) :
    Refines Q s t := by
  intro a c hc
  obtain ⟨b, hb, hbc⟩ := h a c hc
  exact ⟨b, hb, hQ a b c hbc⟩

/-- What the change of an entry preserves, the refinement preserves. -/
theorem forall_entry {Q : α → β → Prop} (h : Refines R s t)
    (hR : ∀ a b b', R a b b' → Q a b → Q a b') (hs : ∀ a b, s.lookup a = some b → Q a b) (a : α)
    (b : β) (hb : t.lookup a = some b) : Q a b := by
  obtain ⟨b₀, hb₀, hR₀⟩ := h a b hb
  exact hR a b₀ b hR₀ (hs a b₀ hb₀)

theorem erase (hR : ∀ a b, R a b b) (s : AssocMap α β) (a : α) : Refines R s (s.erase a) := by
  intro k b hb
  rw [lookup_erase_eq] at hb
  split_ifs at hb with hk
  exact ⟨b, hb, hR k b⟩

/-- The key may be missing; then nothing changes. -/
theorem replace_of (hR : ∀ a b, R a b b) {a : α} {b' : β} (h : ∀ b, s.lookup a = some b → R a b b') :
    Refines R s (s.replace a b') := by
  intro k c hc
  rw [lookup_replace] at hc
  split_ifs at hc with hk
  · subst hk
    obtain ⟨b, hb, rfl⟩ := Option.map_eq_some_iff.mp hc
    exact ⟨b, hb, h b hb⟩
  · exact ⟨c, hc, hR k c⟩

theorem replace (hR : ∀ a b, R a b b) {a : α} {b b' : β} (hb : s.lookup a = some b)
    (h : R a b b') : Refines R s (s.replace a b') :=
  replace_of hR fun _ hc => Option.some.inj (hb.symm.trans hc) ▸ h

end Refines

end AssocMap
