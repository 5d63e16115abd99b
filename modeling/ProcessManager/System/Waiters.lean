import ProcessManager.System.Accounting

/-! How processes stop waiting. A process in `Waiting` that is removed by `stop` or by the
reaper is announced by one event; a batch and the timeout of `start_with_deps` end it
without one. -/

namespace ProcessManager

variable {env : Env} {C : Point → World → Process → Prop} {pollInterval : ℕ} {w w' w'' : World}
  {id k : ProcessId} {p : Process}

namespace World

/-- The process is in `Waiting`. -/
def Waits (id : ProcessId) (w : World) : Prop :=
  ∃ p, w.processes.lookup id = some p ∧ p.state = .waiting

/-- A child was spawned for `id` between the two states. -/
def SpawnedSince (id : ProcessId) (w w' : World) : Prop := ∃ s ∈ gained w.spawns w'.spawns, s.id = id

/-- Exactly one event was sent for `id`, and it reports its end. -/
def Announced (id : ProcessId) (w w' : World) : Prop :=
  ∃ s, w.sentFor id w' = [s] ∧ (s.event.state = .stopped ∨ s.event.state = .failed)

/-- A closed channel stays closed, a reaper stays present and no spawn is forgotten. -/
structure Continues (w w' : World) : Prop where
  receiver : w'.receiverAlive = true → w.receiverAlive = true
  reaper : w.reaper ≠ .absent → w'.reaper ≠ .absent
  spawns : w.spawns <:+ w'.spawns

namespace Continues

theorem refl (w : World) : Continues w w := ⟨fun h => h, fun h => h, List.suffix_rfl⟩

theorem trans (h : Continues w w') (h' : Continues w' w'') : Continues w w'' :=
  ⟨fun hr => h.receiver (h'.receiver hr), fun hr => h'.reaper (h.reaper hr), h.spawns.trans h'.spawns⟩

theorem of_mapStep {R : ProcessId → Process → Process → Prop} {S : Set ℕ} {P : KillCall → Prop}
    (h : MapStep R S P w w') : Continues w w' where
  receiver := h.receiver
  reaper hr := by
    rcases h.reaper with heq | heq | heq
    · exact heq ▸ hr
    · simp [heq]
    · simp [heq]
  spawns := h.spawns ▸ List.suffix_rfl

theorem move (h : Move env C w w') : Continues w w' where
  receiver := receiver_move h
  reaper hr := by
    rcases reaper_move h with heq | heq | heq
    · exact heq ▸ hr
    · simp [heq]
    · simp [heq]
  spawns := by
    cases h with
    | frame hstep => exact hstep.spawns ▸ List.suffix_rfl
    | poll => exact (Process.osStep_pollState (P := fun _ => True)).spawns ▸ List.suffix_rfl
    | stop _ _ hstep => exact hstep.spawns ▸ List.suffix_rfl
    | batch _ hstep => exact hstep.spawns ▸ List.suffix_rfl
    | signal _ _ _ hstep => exact hstep.spawns ▸ List.suffix_rfl
    | reset _ _ hstep => exact hstep.spawns ▸ List.suffix_rfl
    | spawn _ _ hspawn => exact hspawn.spawns.choose_spec ▸ List.suffix_cons _ _
    | insert _ hspawn => exact hspawn.spawns.choose_spec ▸ List.suffix_cons _ _
    | failFast _ _ _ hstep => exact hstep.spawns ▸ List.suffix_rfl
    | count | adjust | insertWaiting | toWaiting | timeout => exact List.suffix_rfl

theorem moves (h : Moves env C w w') : Continues w w' :=
  h.invariant (I := Continues w) (fun _ _ hw hmove => hw.trans (.move hmove)) (.refl w)

end Continues

theorem SpawnedSince.after (h : SpawnedSince id w' w'') (hw : w.spawns <:+ w'.spawns)
    (hw' : w'.spawns <:+ w''.spawns) : SpawnedSince id w w'' := by
  obtain ⟨s, hs, hid⟩ := h
  exact ⟨s, gained_trans hw hw' ▸ List.mem_append_right _ hs, hid⟩

theorem SpawnedSince.before (h : SpawnedSince id w w') (hw : w.spawns <:+ w'.spawns)
    (hw' : w'.spawns <:+ w''.spawns) : SpawnedSince id w w'' := by
  obtain ⟨s, hs, hid⟩ := h
  exact ⟨s, gained_trans hw hw' ▸ List.mem_append_left _ hs, hid⟩

theorem SpawnedSince.of_eq (h : w'.spawns = w.spawns) : ¬ SpawnedSince id w w' := by
  rintro ⟨s, hs, _⟩
  rw [h, gained_self] at hs
  exact absurd hs List.not_mem_nil

theorem waits_of_lookup (h : w'.processes.lookup id = w.processes.lookup id) (hwaits : w.Waits id) :
    w'.Waits id := by
  unfold Waits
  rwa [h]

/-! ### Stops and restarts -/

/-- A process that is not tracked stays so and gets no event; one that waits goes on
waiting without an event, or is removed with one. -/
structure Settles (id : ProcessId) (w w' : World) : Prop where
  untracked : id ∉ w.processes → id ∉ w'.processes ∧ w.sentFor id w' = []
  waiting : w.Waits id → (w'.Waits id ∧ w.sentFor id w' = []) ∨ (id ∉ w'.processes ∧ Announced id w w')

/-- As long as somebody listens, the process is settled or a child is spawned for it. -/
structure Leaves (id : ProcessId) (w w' : World) : Prop where
  continues : Continues w w'
  sends : w.sends <:+ w'.sends
  outcome : w'.receiverAlive = true → SpawnedSince id w w' ∨ Settles id w w'

theorem Settles.trans (h : Settles id w w') (h' : Settles id w' w'') (hsends : w.sends <:+ w'.sends)
    (hsends' : w'.sends <:+ w''.sends) : Settles id w w'' := by
  have hsent : w.sentFor id w'' = w.sentFor id w' ++ w'.sentFor id w'' := sentFor_trans id hsends hsends'
  refine ⟨fun hid => ?_, fun hwaits => ?_⟩
  · obtain ⟨hid', hnone⟩ := h.untracked hid
    obtain ⟨hid'', hnone'⟩ := h'.untracked hid'
    exact ⟨hid'', by rw [hsent, hnone, hnone', List.append_nil]⟩
  · obtain ⟨hwaits', hnone⟩ | ⟨hid, s, hs, hstate⟩ := h.waiting hwaits
    · obtain ⟨hwaits'', hnone'⟩ | ⟨hid, s, hs, hstate⟩ := h'.waiting hwaits'
      · exact .inl ⟨hwaits'', by rw [hsent, hnone, hnone', List.append_nil]⟩
      · exact .inr ⟨hid, s, by rw [hsent, hnone, hs, List.nil_append], hstate⟩
    · obtain ⟨hid', hnone⟩ := h'.untracked hid
      exact .inr ⟨hid', s, by rw [hsent, hs, hnone, List.append_nil], hstate⟩

namespace Leaves

/-- Nothing is sent for `id`, and it stays as it is. -/
theorem of_lookup (hcontinues : Continues w w') (hsends : w.sends <:+ w'.sends)
    (hnone : w.sentFor id w' = []) (hlookup : w'.processes.lookup id = w.processes.lookup id) :
    Leaves id w w' where
  continues := hcontinues
  sends := hsends
  outcome _ := by
    refine .inr ⟨fun h => ⟨fun hin => h ?_, hnone⟩, fun h => .inl ⟨waits_of_lookup hlookup h, hnone⟩⟩
    rw [← AList.lookup_isSome] at hin ⊢
    rwa [← hlookup]

/-- The same without any event. -/
theorem of_sends_eq (hcontinues : Continues w w') (hsends : w'.sends = w.sends)
    (hlookup : w'.processes.lookup id = w.processes.lookup id) : Leaves id w w' :=
  of_lookup hcontinues (hsends ▸ List.suffix_rfl) (sentFor_of_eq hsends) hlookup

theorem refl (w : World) : Leaves id w w := of_sends_eq (.refl w) rfl rfl

/-- A process that is tracked and does not wait. -/
theorem of_not_waiting (hcontinues : Continues w w') (hsends : w.sends <:+ w'.sends)
    (hp : w.processes.lookup id = some p) (hstate : p.state ≠ .waiting) : Leaves id w w' where
  continues := hcontinues
  sends := hsends
  outcome _ := by
    refine .inr ⟨fun h => absurd (mem_of_lookup hp) h, ?_⟩
    rintro ⟨q, hq, hwaiting⟩
    obtain rfl : p = q := Option.some.inj (hp.symm.trans hq)
    exact absurd hwaiting hstate

theorem trans (h : Leaves id w w') (h' : Leaves id w' w'') : Leaves id w w'' where
  continues := h.continues.trans h'.continues
  sends := h.sends.trans h'.sends
  outcome hr := by
    obtain hspawned | hsettles := h.outcome (h'.continues.receiver hr)
    · exact .inl (hspawned.before h.continues.spawns h'.continues.spawns)
    · obtain hspawned | hsettles' := h'.outcome hr
      · exact .inl (hspawned.after h.continues.spawns h'.continues.spawns)
      · exact .inr (hsettles.trans hsettles' h.sends h'.sends)

end Leaves

end World

end ProcessManager
