import ProcessManager.Manager.RestartFails

/-! `restart_label` restarts the processes of a label in turn, up to the first restart that fails. A
process is lost where its own restart finds it with a counter, or cannot respawn it, and no event
tells of it, and where the stop of another one takes it along untold. What is lost stays lost. -/

namespace ProcessManager

namespace World

/-- A `restart_label` that fails accounts for every process of the label. -/
def LabelAccounts (env : Env) (label : Label) (w : World) : Prop :=
  ∀ e, (w.restartLabel env label).1 = .error e → ∀ i p, w.processes.lookup i = some p → p.label = label →
    AccountedFor i p w (w.restartLabel env label).2

/-- The replacement of `p` can be spawned. -/
def Respawns (env : Env) (id : ProcessId) (p : Process) (w : World) : Prop :=
  ¬ w.SignalsRefused env id ∧ (w.respawnAt env id p).spawnError env p.config = none

/-- The restart finds the process and respawns it. -/
def RestartSucceeds (env : Env) (id : ProcessId) (w : World) : Prop :=
  ∃ p, w.processes.lookup id = some p ∧ w.Respawns env id p

/-- An event for `i` was sent since `w₀`, or the stop of its process sends one. -/
def Announces (env : Env) (i : ProcessId) (p : Process) (w w₀ : World) : Prop :=
  w₀.sentFor i w ≠ [] ∨ w.ReportsWaiting env p

/-- A stop within the restart of `id` that reaches another process of the label tells of it. -/
def AnnouncesOther (env : Env) (label : Label) (w₀ : World) (id i : ProcessId) (w : World) : Prop :=
  i ≠ id → ∀ p, w₀.processes.lookup i = some p → p.label = label →
    ∀ q, w.processes.lookup i = some q → w.Announces env i q w₀

/-- The process, if it is tracked, has not been restarted and can be respawned in place or after its
stop, or its end is told; and the stop takes no other process of the label along untold. -/
def RestartSafe (env : Env) (label : Label) (w₀ : World) (id : ProcessId) (w : World) : Prop :=
  ∀ p, w.processes.lookup id = some p →
    (w.Announces env id p w₀ ∨ p.restarts = 0 ∧ (p.state = .restarting ∨ w.Respawns env id p)) ∧
    (p.state ≠ .restarting → StopCalls env (AnnouncesOther env label w₀ id) id w)

variable {env : Env} {w w' w₀ : World} {id i j : ProcessId} {p q : Process} {e : SpawnError} {label : Label}

/-! ### Whether a process is kept or lost -/

theorem Reported.ne_nil (h : Reported i w₀ w) : w₀.sentFor i w ≠ [] := fun heq => by
  rw [Reported, heq] at h
  cases h

/-- One event tells of the process, and no other will, or it is still tracked as it was. -/
def Keeps (w₀ : World) (i : ProcessId) (p : Process) (w : World) : Prop :=
  (Reported i w₀ w ∧ ∀ q, w.processes.lookup i = some q → q.state ≠ .waiting) ∨
    (w₀.sentFor i w = [] ∧ w.StillTracked i p)

/-- The process is gone, or its counter is, and no event will tell of it. -/
def Loses (w₀ : World) (i : ProcessId) (p : Process) (w : World) : Prop :=
  w₀.sentFor i w = [] ∧ ∀ q, w.processes.lookup i = some q → q.state ≠ .waiting ∧ q.restarts = 0 ∧ p.restarts ≠ 0

theorem Keeps.accounted (h : Keeps w₀ i p w) : AccountedFor i p w₀ w :=
  h.elim (fun h => .inr h.1) fun h => .inl h.2

theorem Loses.not_accounted (h : Loses w₀ i p w) : ¬ AccountedFor i p w₀ w := by
  rintro (⟨q, hq, _, _, hcount⟩ | hreported)
  · obtain ⟨_, hzero, hne⟩ := h.2 q hq
    exact hne (hcount ▸ hzero)
  · rw [Reported, h.1] at hreported
    cases hreported

theorem sentFor_untouched (hsends : w₀.sends <:+ w.sends) (h : Untouched i w w') : w₀.sentFor i w' = w₀.sentFor i w := by
  rw [sentFor_trans i hsends h.sends, h.silent, List.append_nil]

theorem Keeps.untouched (h : Keeps w₀ i p w) (hsends : w₀.sends <:+ w.sends) (h' : Untouched i w w') : Keeps w₀ i p w' := by
  unfold Keeps Reported StillTracked
  rw [sentFor_untouched hsends h', h'.lookup]
  exact h

theorem Loses.untouched (h : Loses w₀ i p w) (hsends : w₀.sends <:+ w.sends) (h' : Untouched i w w') : Loses w₀ i p w' := by
  unfold Loses
  rw [sentFor_untouched hsends h', h'.lookup]
  exact h

/-- What a section leaves of a process that it removes. -/
theorem keeps_or_loses_of_gone (hsends : w₀.sends <:+ w.sends) (hsends' : w.sends <:+ w'.sends)
    (hgone : w'.processes.lookup i = none) (hq : w.processes.lookup i = some q)
    (hsent : (w.sentFor i w').length = 1 ∧ w.ReportsWaiting env q ∨ w.sentFor i w' = [] ∧ ¬ w.ReportsWaiting env q)
    (h : Keeps w₀ i p w) : (w.Announces env i q w₀ ∧ Keeps w₀ i p w') ∨ (¬ w.Announces env i q w₀ ∧ Loses w₀ i p w') := by
  have hnone : ∀ {P : Process → Prop} q, w'.processes.lookup i = some q → P q := fun q hq => by
    rw [hgone] at hq
    cases hq
  have htotal := sentFor_trans i hsends hsends'
  obtain ⟨hreported, hstate⟩ | ⟨hsilent, _⟩ := h
  · obtain ⟨_, hreports⟩ | ⟨hnil, _⟩ := hsent
    · exact absurd hreports.1 (hstate q hq)
    · rw [hnil, List.append_nil] at htotal
      exact .inl ⟨.inl hreported.ne_nil, .inl ⟨by rwa [Reported, htotal], hnone⟩⟩
  · rw [hsilent, List.nil_append] at htotal
    obtain ⟨hone, hreports⟩ | ⟨hnil, hnot⟩ := hsent
    · exact .inl ⟨.inr hreports, .inl ⟨by rwa [Reported, htotal], hnone⟩⟩
    · exact .inr ⟨fun hannounces => hannounces.elim (fun hne => hne hsilent) hnot, htotal.trans hnil, hnone⟩

/-- Each of the processes is kept. -/
structure KeepsAll (R : ProcessId → Process → Prop) (w₀ w : World) : Prop where
  sends : w₀.sends <:+ w.sends
  kept : ∀ i p, R i p → Keeps w₀ i p w

/-- One of the processes is lost. -/
structure LosesOne (R : ProcessId → Process → Prop) (w₀ w : World) : Prop where
  sends : w₀.sends <:+ w.sends
  lost : ∃ i p, R i p ∧ Loses w₀ i p w

/-! ### The stops of one restart -/

/-- A process of the label at the start, apart from `id`. -/
def Others (label : Label) (w₀ : World) (id i : ProcessId) (p : Process) : Prop :=
  i ≠ id ∧ w₀.processes.lookup i = some p ∧ p.label = label

theorem sent_stopOne (env : Env) (hq : w.processes.lookup i = some q) :
    (w.sentFor i (w.stopOne env i).2).length = 1 ∧ w.ReportsWaiting env q ∨
      w.sentFor i (w.stopOne env i).2 = [] ∧ ¬ w.ReportsWaiting env q := by
  obtain ⟨q', s, hq', hreports, hid, hsends⟩ | ⟨hnot, hsends⟩ := sends_stopOne env i w
  · obtain rfl : q = q' := Option.some.inj (hq.symm.trans hq')
    rw [sentFor_cons hsends, if_pos hid]
    exact .inl ⟨rfl, hreports⟩
  · exact .inr ⟨sentFor_of_eq hsends, hnot q hq⟩

theorem loses_stopOne (env : Env) (hsends : w₀.sends <:+ w.sends) (h : Loses w₀ i p w) (j : ProcessId) :
    Loses w₀ i p (w.stopOne env j).2 := by
  by_cases hij : i = j
  · subst hij
    cases hq : w.processes.lookup i with
    | none => rwa [stopOne_of_untracked hq]
    | some q =>
      have hgone : (w.stopOne env i).2.processes.lookup i = none := by rw [stopOne_lookup hq, if_pos rfl]
      refine ⟨?_, fun q' hq' => by rw [hgone] at hq'; cases hq'⟩
      obtain ⟨_, hreports⟩ | ⟨hnil, _⟩ := sent_stopOne env hq
      · exact absurd hreports.1 (h.2 q hq).1
      · rw [sentFor_trans i hsends (suffix_stopOne env i w), h.1, hnil, List.append_nil]
  · exact h.untouched hsends (untouched_stopOne env hij w)

/-- The stop of a tracked process keeps it exactly if it announces that. -/
theorem keeps_or_loses_stopOne (env : Env) (hsends : w₀.sends <:+ w.sends) (hq : w.processes.lookup i = some q)
    (h : Keeps w₀ i p w) : (w.Announces env i q w₀ ∧ Keeps w₀ i p (w.stopOne env i).2) ∨
      (¬ w.Announces env i q w₀ ∧ Loses w₀ i p (w.stopOne env i).2) := by
  have hgone : (w.stopOne env i).2.processes.lookup i = none := by rw [stopOne_lookup hq, if_pos rfl]
  exact keeps_or_loses_of_gone hsends (suffix_stopOne env i w) hgone hq (sent_stopOne env hq) h

theorem KeepsAll.stopOne (h : KeepsAll (Others label w₀ id) w₀ w) (hannounces : AnnouncesOther env label w₀ id j w) :
    KeepsAll (Others label w₀ id) w₀ (w.stopOne env j).2 := by
  refine ⟨h.sends.trans (suffix_stopOne env j w), fun i p hi => ?_⟩
  by_cases hij : i = j
  · subst hij
    cases hq : w.processes.lookup i with
    | none =>
      rw [stopOne_of_untracked hq]
      exact h.kept i p hi
    | some q =>
      obtain ⟨_, hkept⟩ | ⟨hnot, _⟩ := keeps_or_loses_stopOne env h.sends hq (h.kept i p hi)
      · exact hkept
      · exact absurd (hannounces hi.1 p hi.2.1 hi.2.2 q hq) hnot
  · exact (h.kept i p hi).untouched h.sends (untouched_stopOne env hij w)

theorem KeepsAll.loses_stopOne (h : KeepsAll (Others label w₀ id) w₀ w) (hannounces : ¬ AnnouncesOther env label w₀ id j w) :
    LosesOne (Others label w₀ id) w₀ (w.stopOne env j).2 := by
  unfold AnnouncesOther at hannounces
  push Not at hannounces
  obtain ⟨hj, p, hp, hlabel, q, hq, hnot⟩ := hannounces
  have hother : Others label w₀ id j p := ⟨hj, hp, hlabel⟩
  obtain ⟨hannounces, _⟩ | ⟨_, hlost⟩ := keeps_or_loses_stopOne env h.sends hq (h.kept j p hother)
  · exact absurd hannounces hnot
  · exact ⟨h.sends.trans (suffix_stopOne env j w), j, p, hother, hlost⟩

theorem LosesOne.stopOne {R : ProcessId → Process → Prop} (h : LosesOne R w₀ w) (env : Env) (j : ProcessId) :
    LosesOne R w₀ (w.stopOne env j).2 := by
  obtain ⟨hsends, i, p, hi, hlost⟩ := h
  exact ⟨hsends.trans (suffix_stopOne env j w), i, p, hi, World.loses_stopOne env hsends hlost j⟩

/-- The cascade of a stop keeps the others of the label exactly if it tells of those that it takes along. -/
theorem KeepsAll.stop (h : KeepsAll (Others label w₀ id) w₀ w) (env : Env) :
    (StopCalls env (AnnouncesOther env label w₀ id) id w ∧ KeepsAll (Others label w₀ id) w₀ (w.stop env id).2) ∨
      (¬ StopCalls env (AnnouncesOther env label w₀ id) id w ∧ LosesOne (Others label w₀ id) w₀ (w.stop env id).2) :=
  stop_meets_or_lost (fun _ _ => KeepsAll.stopOne) (fun _ _ => KeepsAll.loses_stopOne) (fun j _ h => h.stopOne env j) id h

/-! ### One restart -/

theorem sentFor_same (h : w'.sends = w.sends) : w₀.sentFor i w' = w₀.sentFor i w := by
  unfold sentFor
  rw [h]

/-- A process that comes back untold and without a counter is kept exactly if it had none. -/
theorem keeps_or_loses_of_back {r : Process} (hsilent : w₀.sentFor i w' = []) (hq : w.processes.lookup i = some q)
    (htracked : w.StillTracked i p) (hr : w'.processes.lookup i = some r) (hlabel : r.label = q.label)
    (hconfig : r.config = q.config) (hcount : r.restarts = 0) (hwaiting : r.state ≠ .waiting) :
    (q.restarts = 0 ∧ Keeps w₀ i p w') ∨ (q.restarts ≠ 0 ∧ Loses w₀ i p w') := by
  obtain ⟨q', hq', hlabel', hconfig', hcount'⟩ := htracked
  obtain rfl : q = q' := Option.some.inj (hq.symm.trans hq')
  by_cases hzero : q.restarts = 0
  · exact .inl ⟨hzero, .inr ⟨hsilent, r, hr, hlabel.trans hlabel', hconfig.trans hconfig',
      hcount.trans (hzero.symm.trans hcount')⟩⟩
  · refine .inr ⟨hzero, hsilent, fun r' hr' => ?_⟩
    obtain rfl : r = r' := Option.some.inj (hr.symm.trans hr')
    exact ⟨hwaiting, hcount, hcount' ▸ hzero⟩

theorem keeps_or_loses_inPlace (env : Env) (hq : w.processes.lookup id = some q) (hstate : q.state = .restarting)
    (h : Keeps w₀ id p w) :
    ((w.Announces env id q w₀ ∨ q.restarts = 0) ∧ Keeps w₀ id p (w.restartInPlace env id q).2) ∨
    (¬ (w.Announces env id q w₀ ∨ q.restarts = 0) ∧ Loses w₀ id p (w.restartInPlace env id q).2) := by
  obtain ⟨r, hr, hlabel, hconfig, hcount, hwaiting⟩ := restartInPlace_keeps env hq
  have hsame : w₀.sentFor id (w.restartInPlace env id q).2 = w₀.sentFor id w :=
    sentFor_same (restartInPlace_sends env id q w)
  obtain ⟨hreported, _⟩ | ⟨hsilent, htracked⟩ := h
  · refine .inl ⟨.inl (.inl hreported.ne_nil), .inl ⟨by rwa [Reported, hsame], fun r' hr' => ?_⟩⟩
    obtain rfl : r = r' := Option.some.inj (hr.symm.trans hr')
    exact hwaiting hstate
  · obtain ⟨hzero, hkept⟩ | ⟨hcounted, hlost⟩ := keeps_or_loses_of_back (hsame.trans hsilent) hq htracked hr hlabel hconfig
      hcount (hwaiting hstate)
    · exact .inl ⟨.inr hzero, hkept⟩
    · refine .inr ⟨?_, hlost⟩
      rintro ((hne | hreports) | hzero)
      · exact hne hsilent
      · exact not_reportsWaiting_of_restarting hstate hreports
      · exact hcounted hzero

theorem keeps_or_loses_stop (env : Env) (hsends : w₀.sends <:+ w.sends) (hq : w.processes.lookup id = some q)
    (h : Keeps w₀ id p w) : (w.Announces env id q w₀ ∧ Keeps w₀ id p (w.stop env id).2) ∨
      (¬ w.Announces env id q w₀ ∧ Loses w₀ id p (w.stop env id).2) := by
  obtain ⟨hgone, hsuffix, hsent⟩ := stop_spec env hq
  exact keeps_or_loses_of_gone hsends hsuffix hgone hq hsent h

theorem keeps_or_loses_insert (env : Env) (hsends : w₀.sends <:+ w.sends) (hq : w.processes.lookup id = some q)
    (hspawn : (w.stop env id).2.spawnError env q.config = none) (h : Keeps w₀ id p w) :
    ((w.Announces env id q w₀ ∨ q.restarts = 0) ∧ Keeps w₀ id p ((w.stop env id).2.restartInsert env id q).2) ∨
    (¬ (w.Announces env id q w₀ ∨ q.restarts = 0) ∧ Loses w₀ id p ((w.stop env id).2.restartInsert env id q).2) := by
  obtain ⟨r, hr, hlabel, hconfig, hcount, hwaiting⟩ := restartInsert_keeps id hspawn
  have hsame : w₀.sentFor id ((w.stop env id).2.restartInsert env id q).2 = w₀.sentFor id (w.stop env id).2 :=
    sentFor_same (restartInsert_sends env id q _)
  obtain ⟨hannounces, hstopped⟩ | ⟨hnot, hsilent, _⟩ := keeps_or_loses_stop env hsends hq h
  · obtain ⟨hreported, _⟩ | ⟨_, r', hr', _⟩ := hstopped
    · refine .inl ⟨.inl hannounces, .inl ⟨by rwa [Reported, hsame], fun r' hr' => ?_⟩⟩
      obtain rfl : r = r' := Option.some.inj (hr.symm.trans hr')
      exact hwaiting
    · rw [(stop_spec env hq).1] at hr'
      cases hr'
  · obtain ⟨hreported, _⟩ | ⟨_, htracked⟩ := h
    · exact absurd (Or.inl hreported.ne_nil) hnot
    · exact (keeps_or_loses_of_back (hsame.trans hsilent) hq htracked hr hlabel hconfig hcount hwaiting).imp
        (fun h => ⟨.inr h.1, h.2⟩) fun h => ⟨fun hor => hor.elim hnot h.1, h.2⟩

/-- A restart keeps its own process exactly if the entry comes back as it was, or the stop tells of it. -/
theorem keeps_or_loses_restart (env : Env) (hsends : w₀.sends <:+ w.sends) (hq : w.processes.lookup id = some q)
    (h : Keeps w₀ id p w) :
    ((w.Announces env id q w₀ ∨ q.restarts = 0 ∧ (q.state = .restarting ∨ w.Respawns env id q)) ∧
      Keeps w₀ id p (w.restart env id).2) ∨
    (¬ (w.Announces env id q w₀ ∨ q.restarts = 0 ∧ (q.state = .restarting ∨ w.Respawns env id q)) ∧
      Loses w₀ id p (w.restart env id).2) := by
  by_cases hstate : q.state = .restarting
  · rw [restart_of_restarting hq hstate]
    simpa only [hstate, true_or, and_true] using keeps_or_loses_inPlace env hq hstate h
  · have hstopped := keeps_or_loses_stop env hsends hq h
    obtain ⟨hrefused, _, hrestart⟩ | ⟨hallowed, hrestart⟩ := restart_of_stopped env hq hstate
    · have hnot : ¬ w.Respawns env id q := fun h => h.1 hrefused
      simpa only [hrestart, hstate, hnot, or_self, and_false, or_false] using hstopped
    · rw [hrestart]
      cases hspawn : (w.stop env id).2.spawnError env q.config with
      | some e =>
        -- without a replacement it is up to the stop
        have hnot : ¬ w.Respawns env id q := by
          rintro ⟨_, hnone⟩
          rw [respawnAt, if_neg hstate, hspawn] at hnone
          cases hnone
        have hafter := untouched_restartInsert_of_error id id hspawn
        have hsuffix := hsends.trans (stop_spec env hq).2.1
        simp only [hstate, hnot, or_self, and_false, or_false]
        exact hstopped.imp (fun h => ⟨h.1, h.2.untouched hsuffix hafter⟩) fun h => ⟨h.1, h.2.untouched hsuffix hafter⟩
      | none =>
        have hrespawns : w.Respawns env id q := ⟨hallowed, by rwa [respawnAt, if_neg hstate]⟩
        simpa only [hrespawns, or_true, and_true] using keeps_or_loses_insert env hsends hq hspawn h

/-- What is lost stays lost through every further restart. -/
theorem loses_restart (env : Env) (hsends : w₀.sends <:+ w.sends) (h : Loses w₀ i p w) (j : ProcessId) :
    Loses w₀ i p (w.restart env j).2 := by
  have hstop : Loses w₀ i p (w.stop env j).2 :=
    (stop_invariant_of_forall (I := fun w => w₀.sends <:+ w.sends ∧ Loses w₀ i p w)
      (fun k w h => ⟨h.1.trans (suffix_stopOne env k w), loses_stopOne env h.1 h.2 k⟩) j ⟨hsends, h⟩).2
  obtain ⟨_, heq⟩ | ⟨q, hq, ⟨hstate, heq⟩ | ⟨hstate, heq | heq⟩⟩ := restart_cases env j w <;> rw [heq]
  · exact h
  · by_cases hij : i = j
    · subst hij
      obtain ⟨r, hr, _, _, hcount, hwaiting⟩ := restartInPlace_keeps env hq
      refine ⟨(sentFor_same (restartInPlace_sends env i q w)).trans h.1, fun r' hr' => ?_⟩
      obtain rfl : r = r' := Option.some.inj (hr.symm.trans hr')
      exact ⟨hwaiting hstate, hcount, (h.2 q hq).2.2⟩
    · exact h.untouched hsends (.of_sends_eq (restartInPlace_lookup env hij hq) (restartInPlace_sends env j q w))
  · exact hstop
  · have hsuffix := hsends.trans (stop_spec env hq).2.1
    by_cases hij : i = j
    · subst hij
      cases hspawn : (w.stop env i).2.spawnError env q.config with
      | some e => exact hstop.untouched hsuffix (untouched_restartInsert_of_error i i hspawn)
      | none =>
        obtain ⟨r, hr, _, _, hcount, hwaiting⟩ := restartInsert_keeps i hspawn
        refine ⟨(sentFor_same (restartInsert_sends env i q _)).trans hstop.1, fun r' hr' => ?_⟩
        obtain rfl : r = r' := Option.some.inj (hr.symm.trans hr')
        exact ⟨hwaiting, hcount, (h.2 q hq).2.2⟩
    · exact hstop.untouched hsuffix (.of_sends_eq (restartInsert_lookup env hij q _) (restartInsert_sends env j q _))

theorem suffix_restart (env : Env) (id : ProcessId) (w : World) : w.sends <:+ (w.restart env id).2.sends := by
  obtain ⟨_, heq⟩ | ⟨p, hp, ⟨_, heq⟩ | ⟨_, heq | heq⟩⟩ := restart_cases env id w <;> rw [heq]
  · rw [restartInPlace_sends]
  · exact (stop_spec env hp).2.1
  · rw [restartInsert_sends]
    exact (stop_spec env hp).2.1

theorem LosesOne.restart {R : ProcessId → Process → Prop} (h : LosesOne R w₀ w) (env : Env) (j : ProcessId) :
    LosesOne R w₀ (w.restart env j).2 := by
  obtain ⟨hsends, i, p, hi, hlost⟩ := h
  exact ⟨hsends.trans (suffix_restart env j w), i, p, hi, loses_restart env hsends hlost j⟩

theorem KeepsAll.untouched (h : KeepsAll (Others label w₀ id) w₀ w) (hsends : w.sends <:+ w'.sends)
    (huntouched : ∀ i, i ≠ id → Untouched i w w') : KeepsAll (Others label w₀ id) w₀ w' :=
  ⟨h.sends.trans hsends, fun i p hi => (h.kept i p hi).untouched h.sends (huntouched i hi.1)⟩

theorem LosesOne.untouched (h : LosesOne (Others label w₀ id) w₀ w) (hsends : w.sends <:+ w'.sends)
    (huntouched : ∀ i, i ≠ id → Untouched i w w') : LosesOne (Others label w₀ id) w₀ w' := by
  obtain ⟨hbefore, i, p, hi, hlost⟩ := h
  exact ⟨hbefore.trans hsends, i, p, hi, hlost.untouched hbefore (huntouched i hi.1)⟩

/-- Of the others a restart takes along what its stop takes along: the respawn touches nobody else. -/
theorem KeepsAll.others_restart (h : KeepsAll (Others label w₀ id) w₀ w) (env : Env) (hq : w.processes.lookup id = some q) :
    ((q.state ≠ .restarting → StopCalls env (AnnouncesOther env label w₀ id) id w) ∧
      KeepsAll (Others label w₀ id) w₀ (w.restart env id).2) ∨
    (¬ (q.state ≠ .restarting → StopCalls env (AnnouncesOther env label w₀ id) id w) ∧
      LosesOne (Others label w₀ id) w₀ (w.restart env id).2) := by
  by_cases hstate : q.state = .restarting
  · refine .inl ⟨fun hne => absurd hstate hne, h.untouched (suffix_restart env id w) fun i hi => ?_⟩
    rw [restart_of_restarting hq hstate]
    exact .of_sends_eq (restartInPlace_lookup env hi hq) (restartInPlace_sends env id q w)
  · have hafter : ((w.stop env id).2.sends <:+ (w.restart env id).2.sends) ∧
        ∀ i, i ≠ id → Untouched i (w.stop env id).2 (w.restart env id).2 := by
      obtain ⟨_, _, heq⟩ | ⟨_, heq⟩ := restart_of_stopped env hq hstate <;> rw [heq]
      · exact ⟨List.suffix_rfl, fun i _ => .refl i _⟩
      · refine ⟨by rw [restartInsert_sends], fun i hi => ?_⟩
        exact .of_sends_eq (restartInsert_lookup env hi q _) (restartInsert_sends env id q _)
    rw [ne_eq, forall_prop_of_true hstate]
    exact (h.stop env).imp (fun h => ⟨h.1, h.2.untouched hafter.1 hafter.2⟩)
      fun h => ⟨h.1, h.2.untouched hafter.1 hafter.2⟩

/-! ### The restarts of a label -/

/-- A process of the label at the start. -/
def Members (label : Label) (w₀ : World) (i : ProcessId) (p : Process) : Prop :=
  w₀.processes.lookup i = some p ∧ p.label = label

/-- A restart keeps every process of the label exactly if it is safe. -/
theorem KeepsAll.restart (h : KeepsAll (Members label w₀) w₀ w) (env : Env) (hid : Members label w₀ id p) :
    (RestartSafe env label w₀ id w ∧ KeepsAll (Members label w₀) w₀ (w.restart env id).2) ∨
      (¬ RestartSafe env label w₀ id w ∧ LosesOne (Members label w₀) w₀ (w.restart env id).2) := by
  cases hq : w.processes.lookup id with
  | none =>
    have hsame : (w.restart env id).2 = w := by simp only [World.restart, hq]
    have hvacuous : RestartSafe env label w₀ id w := fun q hq' => by
      rw [hq] at hq'
      cases hq'
    rw [hsame]
    exact .inl ⟨hvacuous, h⟩
  | some q =>
    have hsafe : RestartSafe env label w₀ id w ↔
        (w.Announces env id q w₀ ∨ q.restarts = 0 ∧ (q.state = .restarting ∨ w.Respawns env id q)) ∧
        (q.state ≠ .restarting → StopCalls env (AnnouncesOther env label w₀ id) id w) := by
      simp only [RestartSafe, hq, Option.some.injEq, forall_eq']
    rw [hsafe]
    have hsuffix := h.sends.trans (suffix_restart env id w)
    have hothers : KeepsAll (Others label w₀ id) w₀ w := ⟨h.sends, fun i p hi => h.kept i p hi.2⟩
    obtain ⟨hself, hkept⟩ | ⟨hself, hlost⟩ := keeps_or_loses_restart env h.sends hq (h.kept id p hid)
    · obtain ⟨hstop, hrest⟩ | ⟨hstop, _, i, p', hi, hlost⟩ := hothers.others_restart env hq
      · refine .inl ⟨⟨hself, hstop⟩, hsuffix, fun i p' hi => ?_⟩
        by_cases hij : i = id
        · subst hij
          obtain rfl : p = p' := Option.some.inj (hid.1.symm.trans hi.1)
          exact hkept
        · exact hrest.kept i p' ⟨hij, hi⟩
      · exact .inr ⟨fun h => hstop h.2, hsuffix, i, p', hi.2, hlost⟩
    · exact .inr ⟨fun h => hself h.1, hsuffix, id, p, hid, hlost⟩

/-- A restart succeeds where no signal of its stop is refused and the spawn goes well. -/
theorem isOk_restart_iff (env : Env) (id : ProcessId) (w : World) :
    (w.restart env id).1.isOk = true ↔ w.RestartSucceeds env id := by
  unfold RestartSucceeds Respawns
  cases hp : w.processes.lookup id with
  | none => simp [World.restart, hp, Except.isOk, Except.toBool]
  | some p =>
    simp only [Option.some.injEq, exists_eq_left']
    by_cases hstate : p.state = .restarting
    · rw [restart_of_restarting hp hstate, respawnAt, if_pos hstate,
        and_iff_right (not_signalsRefused_of_restarting hp hstate)]
      cases hspawn : (w.restartReset env id).spawnError env p.config with
      | some e => simp [restartInPlace_of_error hspawn, Except.isOk, Except.toBool]
      | none => simp [(restartInPlace_of_ok hp hspawn).1, Except.isOk, Except.toBool]
    · rw [respawnAt, if_neg hstate]
      obtain ⟨hrefused, ⟨pid, errno, herror⟩, _⟩ | ⟨hallowed, hrestart⟩ := restart_of_stopped env hp hstate
      · simp [herror, hrefused, Except.isOk, Except.toBool]
      · rw [hrestart, and_iff_right hallowed]
        cases hspawn : (w.stop env id).2.spawnError env p.config with
        | some e => simp [restartInsert_of_error hspawn, Except.isOk, Except.toBool]
        | none => simp [(restartInsert_of_ok id hspawn).1, Except.isOk, Except.toBool]

theorem isOk_restartAll_iff (env : Env) (ids : List ProcessId) (w : World) :
    (w.restartAll env ids).1.isOk = true ↔ RestartsMeet env (RestartSucceeds env) ids w := by
  induction ids generalizing w with
  | nil => exact ⟨fun _ => trivial, fun _ => rfl⟩
  | cons id ids ih =>
    simp only [RestartsMeet, restartAll, ← isOk_restart_iff, ← ih]
    split
    · next e he => simp [he, Except.isOk, Except.toBool]
    · next new hnew =>
      have hok : (w.restart env id).1.isOk = true := by rw [hnew]; rfl
      rw [and_iff_right hok, imp_iff_right hok]
      cases (restartAll env ids (w.restart env id).2).1 <;> rfl

/-- A failed `restart_label` accounts for the processes of the label exactly where each restart that it
makes is safe. -/
theorem labelAccounts_iff (env : Env) (label : Label) (w : World) :
    w.LabelAccounts env label ↔ RestartsMeet env (RestartSucceeds env) (w.labelMembers label) w ∨
      RestartsMeet env (RestartSafe env label w) (w.labelMembers label) w := by
  have hstart : KeepsAll (Members label w) w w :=
    ⟨List.suffix_rfl, fun i p hi => .inr ⟨sentFor_of_eq rfl, p, hi.1, rfl, rfl, rfl⟩⟩
  have hstep : ∀ id ∈ w.labelMembers label, ∀ w', KeepsAll (Members label w) w w' →
      (RestartSafe env label w id w' ∧ KeepsAll (Members label w) w (w'.restart env id).2) ∨
        (¬ RestartSafe env label w id w' ∧ LosesOne (Members label w) w (w'.restart env id).2) := by
    intro id hid w' h
    obtain ⟨p, hp⟩ := mem_labelMembers.mp hid
    exact h.restart env hp
  have hrun := restartAll_meets_or_lost (fun id hid w' h hsafe => ((hstep id hid w' h).resolve_right fun h => h.1 hsafe).2)
    (fun id hid w' h hsafe => ((hstep id hid w' h).resolve_left fun h => hsafe h.1).2)
    (fun id _ h => h.restart env id) hstart
  rw [← isOk_restartAll_iff]
  cases hresult : (w.restartAll env (w.labelMembers label)).1 with
  | ok ids =>
    refine iff_of_true (fun e he => ?_) (.inl rfl)
    rw [restartLabel, hresult] at he
    cases he
  | error e =>
    have hnot : ¬ (Except.error e : Except ManagerError (List ProcessId)).isOk = true := nofun
    rw [or_iff_right hnot]
    obtain ⟨hmeets, hkept⟩ | ⟨hmeets, _, i, p, hi, hlost⟩ := hrun
    · exact iff_of_true (fun _ _ i p hp hlabel => (hkept.kept i p ⟨hp, hlabel⟩).accounted) hmeets
    · exact iff_of_false (fun haccounts => hlost.not_accounted (haccounts e hresult i p hi.1 hi.2)) hmeets

/-- A `restart` accounts for its process exactly where it is harmless, and a `restart_label` for every
process of the label exactly where all its restarts succeed, or each one that it makes is safe. -/
theorem restarts_account_iff (env : Env) (id : ProcessId) (label : Label) (w : World) :
    (w.RestartAccounts env id ↔ w.RestartHarmless env id) ∧
      (w.LabelAccounts env label ↔ RestartsMeet env (RestartSucceeds env) (w.labelMembers label) w ∨
        RestartsMeet env (RestartSafe env label w) (w.labelMembers label) w) :=
  ⟨restartAccounts_iff_harmless env id w, labelAccounts_iff env label w⟩

end World

end ProcessManager
