import Mathlib.Data.List.Basic

/-! Append-only logs, newest entry first. -/

/-- `l'` is `l` with new entries in front, all of which satisfy `P`. -/
def Grows {α : Type*} (P : α → Prop) (l l' : List α) : Prop :=
  ∃ new, l' = new ++ l ∧ ∀ a ∈ new, P a

namespace Grows

variable {α : Type*} {P Q : α → Prop} {l l' l'' : List α} {a : α}

theorem refl (l : List α) : Grows P l l := ⟨[], rfl, by simp⟩

theorem of_eq (h : l' = l) : Grows P l l' := by rw [h]; exact refl l

theorem cons (l : List α) (h : P a) : Grows P l (a :: l) := ⟨[a], rfl, by simpa using h⟩

theorem trans (h : Grows P l l') (h' : Grows P l' l'') : Grows P l l'' := by
  obtain ⟨new, rfl, hnew⟩ := h
  obtain ⟨new', rfl, hnew'⟩ := h'
  refine ⟨new' ++ new, by simp, fun a ha => ?_⟩
  rcases List.mem_append.mp ha with ha | ha
  · exact hnew' a ha
  · exact hnew a ha

theorem mono (hPQ : ∀ a, P a → Q a) (h : Grows P l l') : Grows Q l l' := by
  obtain ⟨new, rfl, hnew⟩ := h
  exact ⟨new, rfl, fun a ha => hPQ a (hnew a ha)⟩

/-- What holds of every old and every new entry holds of the whole log. -/
theorem forall_mem (h : Grows P l l') (hl : ∀ a ∈ l, P a) : ∀ a ∈ l', P a := by
  obtain ⟨new, rfl, hnew⟩ := h
  intro a ha
  rcases List.mem_append.mp ha with ha | ha
  · exact hnew a ha
  · exact hl a ha

/-- An entry of the grown log is old or satisfies `P`. -/
theorem mem_or (h : Grows P l l') (ha : a ∈ l') : a ∈ l ∨ P a := by
  obtain ⟨new, rfl, hnew⟩ := h
  rcases List.mem_append.mp ha with ha | ha
  · exact .inr (hnew a ha)
  · exact .inl ha

/-- Nothing is logged. -/
theorem eq_of_none (h : Grows (fun _ => False) l l') : l' = l := by
  obtain ⟨new, rfl, hnew⟩ := h
  cases new with
  | nil => rfl
  | cons a new => exact (hnew a List.mem_cons_self).elim

theorem mem_of_mem (h : Grows P l l') (ha : a ∈ l) : a ∈ l' := by
  obtain ⟨new, rfl, _⟩ := h
  exact List.mem_append_right new ha

/-- What all new entries satisfy, those up to a point satisfy. -/
theorem restrict (h : Grows P l l'') (h' : Grows Q l l') (h'' : Grows Q l' l'') : Grows P l l' := by
  obtain ⟨new, rfl, _⟩ := h'
  obtain ⟨new', rfl, _⟩ := h''
  obtain ⟨all, hall, hP⟩ := h
  obtain rfl : new' ++ new = all := List.append_cancel_right ((List.append_assoc _ _ _).trans hall)
  exact ⟨new, rfl, fun a ha => hP a (List.mem_append_right new' ha)⟩

end Grows

/-- `l'` is `l` with new entries in front, one of which satisfies `P`. -/
def Gains {α : Type*} (P : α → Prop) (l l' : List α) : Prop :=
  ∃ new, l' = new ++ l ∧ ∃ a ∈ new, P a

namespace Gains

variable {α : Type*} {P Q : α → Prop} {l l' l'' : List α} {a : α}

theorem cons (l : List α) (h : P a) : Gains P l (a :: l) := ⟨[a], rfl, a, by simp, h⟩

theorem after (hl : Grows Q l l') (h : Gains P l' l'') : Gains P l l'' := by
  obtain ⟨new, rfl, _⟩ := hl
  obtain ⟨new', rfl, a, ha, hP⟩ := h
  exact ⟨new' ++ new, by simp, a, by simp [ha], hP⟩

theorem before (h : Gains P l l') (hl : Grows Q l' l'') : Gains P l l'' := by
  obtain ⟨new, rfl, a, ha, hP⟩ := h
  obtain ⟨new', rfl, _⟩ := hl
  exact ⟨new' ++ new, by simp, a, by simp [ha], hP⟩

/-- One of the new entries satisfies both. -/
theorem exists_and (h : Gains P l l') (h' : Grows Q l l') : ∃ a, P a ∧ Q a := by
  obtain ⟨new, hnew, a, ha, hP⟩ := h
  obtain ⟨new', hnew', hQ⟩ := h'
  obtain rfl : new = new' := List.append_cancel_right (hnew.symm.trans hnew')
  exact ⟨a, hP, hQ a ha⟩

end Gains

/-! ### What was appended -/

/-- The entries that `l'` has in front of `l`, oldest first. -/
def gained {α : Type*} (l l' : List α) : List α := (l'.take (l'.length - l.length)).reverse

section gained

variable {α : Type*} {l l' l'' : List α}

@[simp] theorem gained_append (new l : List α) : gained l (new ++ l) = new.reverse := by
  simp [gained]

@[simp] theorem gained_self (l : List α) : gained l l = [] := gained_append [] l

@[simp] theorem gained_cons (a : α) (l : List α) : gained l (a :: l) = [a] := gained_append [a] l

theorem gained_trans (h : l <:+ l') (h' : l' <:+ l'') :
    gained l l'' = gained l l' ++ gained l' l'' := by
  obtain ⟨new, rfl⟩ := h
  obtain ⟨new', rfl⟩ := h'
  rw [← List.append_assoc, gained_append, gained_append, List.append_assoc, gained_append,
    List.reverse_append]

end gained
