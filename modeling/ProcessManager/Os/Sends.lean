import ProcessManager.Os.Frame

/-! Which system calls log a sent event, and what was sent between two states. -/

namespace ProcessManager

namespace World

variable (env : Env) {w w' w'' : World} {id : ProcessId}

@[simp] theorem tryWait_sends (c : ℕ) (w : World) : (w.tryWait env c).sends = w.sends := by
  unfold tryWait
  cases w.waitResult env c <;> rfl

@[simp] theorem spawnProcess_sends (site : SpawnSite) (id : ProcessId) (config : ProcessConfig)
    (deps : List ProcessId) (w : World) :
    (w.spawnProcess env site id config deps).sends = w.sends := by
  unfold spawnProcess
  split
  · rfl
  · split_ifs <;> rfl

@[simp] theorem spawnProcess_processes (site : SpawnSite) (id : ProcessId) (config : ProcessConfig)
    (deps : List ProcessId) (w : World) :
    (w.spawnProcess env site id config deps).processes = w.processes := by
  unfold spawnProcess
  split
  · rfl
  · split_ifs <;> rfl

@[simp] theorem spawnProcess_kills (site : SpawnSite) (id : ProcessId) (config : ProcessConfig)
    (deps : List ProcessId) (w : World) : (w.spawnProcess env site id config deps).kills = w.kills := by
  unfold spawnProcess
  split
  · rfl
  · split_ifs <;> rfl

theorem receiverAlive_send (event : ProcessExitEvent) (w : World) :
    (w.send env event).receiverAlive = w.sendOk env := by
  unfold send
  split_ifs <;> rfl

/-- An event that somebody receives is logged, with the map as it was, and no other. -/
theorem send_outcome (event : ProcessExitEvent) (w : World) :
    (w.sendOk env = true ∧ (w.send env event).sends = ⟨event, w.processes⟩ :: w.sends) ∨
      (w.sendOk env = false ∧ (w.send env event).sends = w.sends) := by
  unfold send
  split_ifs with hok
  · exact .inl ⟨hok, rfl⟩
  · exact .inr ⟨Bool.eq_false_iff.mpr hok, rfl⟩

theorem send_sends {event : ProcessExitEvent} (h : (w.send env event).receiverAlive = true) :
    (w.send env event).sends = ⟨event, w.processes⟩ :: w.sends := by
  rw [receiverAlive_send] at h
  obtain ⟨_, hsends⟩ | ⟨hclosed, _⟩ := send_outcome env event w
  · exact hsends
  · rw [h] at hclosed
    cases hclosed

theorem sends_send (event : ProcessExitEvent) (w : World) : w.sends <:+ (w.send env event).sends := by
  obtain ⟨_, hsends⟩ | ⟨_, hsends⟩ := send_outcome env event w
  · exact hsends ▸ List.suffix_cons _ _
  · exact hsends ▸ List.suffix_rfl

@[simp] theorem send_processes (event : ProcessExitEvent) (w : World) :
    (w.send env event).processes = w.processes := by
  unfold send
  split_ifs <;> rfl

theorem receiver_send {event : ProcessExitEvent} (h : (w.send env event).receiverAlive = true) :
    w.receiverAlive = true :=
  (osStep_send (S := ∅) (P := fun _ => True) env event w).receiver h

/-- The sends for `id` between two states, oldest first. -/
def sentFor (id : ProcessId) (w w' : World) : List SendCall :=
  (gained w.sends w'.sends).filter fun k => k.event.id = id

theorem sentFor_of_eq (h : w'.sends = w.sends) : sentFor id w w' = [] := by
  rw [sentFor, h, gained_self, List.filter_nil]

theorem sentFor_cons {k : SendCall} (h : w'.sends = k :: w.sends) :
    sentFor id w w' = if k.event.id = id then [k] else [] := by
  rw [sentFor, h, gained_cons, List.filter_singleton]
  by_cases hk : k.event.id = id <;> simp [hk]

theorem sentFor_trans (id : ProcessId) (h : w.sends <:+ w'.sends) (h' : w'.sends <:+ w''.sends) :
    sentFor id w w'' = sentFor id w w' ++ sentFor id w' w'' := by
  rw [sentFor, gained_trans h h', List.filter_append]
  rfl

end World

end ProcessManager
