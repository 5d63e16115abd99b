import ProcessManager.Manager.StopCascade
import ProcessManager.Manager.StopMany

/-! What `stop_many` leaves and what it reports. The last stage of a batch is a relation
between the entries, their `SIGKILL` calls, the entries kept for re-insertion and the errors;
no entry gets lost or doubled on the way to it. -/

namespace ProcessManager

/-- The `SIGKILL` of `stop_many` for `p`. -/
structure KillCall.Escalates (k : KillCall) (p : Process) : Prop where
  site : k.site = .stopManyEscalation
  id : k.id = p.id
  pid : k.pid = p.pid
  signal : k.signal = KillSignal.sigkill.toSignal

/-- The error of a call that did not find the process gone. -/
def KillCall.Fails (k : KillCall) (e : Errno) : Prop := k.error = some e ∧ e ≠ .esrch

/-- One `SIGKILL` for each entry, in order; those whose call fails are kept, with one error each. -/
inductive Escalated : List Process → List KillCall → List Process → List ManagerError → Prop
  | nil : Escalated [] [] [] []
  | killed {p k entries calls kept errors} (hk : k.Escalates p) (hdone : ∀ e, ¬ k.Fails e)
      (rest : Escalated entries calls kept errors) :
      Escalated (p :: entries) (k :: calls) kept errors
  | failed {p k e entries calls kept errors} (hk : k.Escalates p) (hfail : k.Fails e)
      (rest : Escalated entries calls kept errors) :
      Escalated (p :: entries) (k :: calls) (p :: kept) (.signalFailed p.pid e :: errors)

/-- One of the calls is the failed `SIGKILL` of `p`. -/
def Process.KillFailed (calls : List KillCall) (p : Process) (e : Errno) : Prop :=
  ∃ k ∈ calls, k.Escalates p ∧ k.Fails e

/-- The error names `p` and why its `SIGKILL` failed. -/
def ReportedBy (calls : List KillCall) (p : Process) (error : ManagerError) : Prop :=
  ∃ e, p.KillFailed calls e ∧ error = .signalFailed p.pid e

namespace Escalated

variable {entries kept : List Process} {calls : List KillCall} {errors : List ManagerError}

theorem sublist (h : Escalated entries calls kept errors) : kept.Sublist entries := by
  induction h with
  | nil => exact .slnil
  | killed _ _ _ ih => exact ih.cons _
  | failed _ _ _ ih => exact ih.cons_cons _

/-- Every call is one for an entry. -/
theorem exists_entry (h : Escalated entries calls kept errors) {k : KillCall} (hk : k ∈ calls) :
    ∃ p ∈ entries, k.Escalates p := by
  induction h with
  | nil => exact absurd hk List.not_mem_nil
  | @killed p k₀ _ _ _ _ hk₀ _ _ ih =>
    rcases List.mem_cons.mp hk with rfl | hk
    · exact ⟨p, List.mem_cons_self, hk₀⟩
    · obtain ⟨q, hq, hkq⟩ := ih hk
      exact ⟨q, List.mem_cons_of_mem _ hq, hkq⟩
  | @failed p k₀ _ _ _ _ _ hk₀ _ _ ih =>
    rcases List.mem_cons.mp hk with rfl | hk
    · exact ⟨p, List.mem_cons_self, hk₀⟩
    · obtain ⟨q, hq, hkq⟩ := ih hk
      exact ⟨q, List.mem_cons_of_mem _ hq, hkq⟩

/-- The errors are those of the kept entries, one for each. -/
theorem forall₂ (h : Escalated entries calls kept errors) :
    List.Forall₂ (ReportedBy calls) kept errors := by
  have hlater : ∀ {k : KillCall} {calls : List KillCall} {kept errors},
      List.Forall₂ (ReportedBy calls) kept errors →
      List.Forall₂ (ReportedBy (k :: calls)) kept errors := by
    intro k calls kept errors h
    refine h.imp ?_
    rintro p e ⟨errno, ⟨k', hk', hfail⟩, rfl⟩
    exact ⟨errno, ⟨k', List.mem_cons_of_mem _ hk', hfail⟩, rfl⟩
  induction h with
  | nil => exact .nil
  | killed _ _ _ ih => exact hlater ih
  | failed hk hfail _ ih => exact .cons ⟨_, ⟨_, List.mem_cons_self, hk, hfail⟩, rfl⟩ (hlater ih)

/-- With one entry for each id, the kept ones are those whose `SIGKILL` failed. -/
theorem mem_kept_iff (h : Escalated entries calls kept errors)
    (hnodup : (entries.map Process.id).Nodup) (p : Process) :
    p ∈ kept ↔ p ∈ entries ∧ ∃ e, p.KillFailed calls e := by
  induction h with
  | nil => simp
  | @killed p₀ k₀ entries calls kept errors hk₀ hdone hrest ih =>
    rw [List.map_cons, List.nodup_cons] at hnodup
    rw [ih hnodup.2]
    constructor
    · rintro ⟨hp, e, k, hk, hfail⟩
      exact ⟨List.mem_cons_of_mem _ hp, e, k, List.mem_cons_of_mem _ hk, hfail⟩
    · rintro ⟨hp, e, k, hk, hkp, hfail⟩
      rcases List.mem_cons.mp hk with rfl | hk
      · exact absurd hfail (hdone e)
      · obtain ⟨q, hq, hkq⟩ := hrest.exists_entry hk
        rcases List.mem_cons.mp hp with rfl | hp
        · have hid : p.id = q.id := hkp.id.symm.trans hkq.id
          exact absurd (hid ▸ List.mem_map_of_mem hq) hnodup.1
        · exact ⟨hp, e, k, hk, hkp, hfail⟩
  | @failed p₀ k₀ e₀ entries calls kept errors hk₀ hfail₀ hrest ih =>
    rw [List.map_cons, List.nodup_cons] at hnodup
    rw [List.mem_cons, ih hnodup.2]
    constructor
    · rintro (rfl | ⟨hp, e, k, hk, hfail⟩)
      · exact ⟨List.mem_cons_self, e₀, k₀, List.mem_cons_self, hk₀, hfail₀⟩
      · exact ⟨List.mem_cons_of_mem _ hp, e, k, List.mem_cons_of_mem _ hk, hfail⟩
    · rintro ⟨hp, e, k, hk, hkp, hfail⟩
      rcases List.mem_cons.mp hp with rfl | hp
      · exact .inl rfl
      · rcases List.mem_cons.mp hk with rfl | hk
        · have hid : p.id = p₀.id := hkp.id.symm.trans hk₀.id
          exact absurd (hid ▸ List.mem_map_of_mem hp) hnodup.1
        · exact .inr ⟨hp, e, k, hk, hkp, hfail⟩

end Escalated

namespace World

variable {env : Env} {w : World} {ids : List ProcessId} {id : ProcessId} {p : Process}

/-! ### The stages of a batch -/

/-- A requested entry with a pid is in the batch. -/
theorem exists_mem_stopManyTake (env : Env) (hid : id ∈ ids) (hp : w.processes.lookup id = some p)
    (hpid : p.pid ≠ 0) : ∃ e ∈ (w.stopManyTake env ids).1, e.1 = p := by
  induction ids generalizing w with
  | nil => exact absurd hid List.not_mem_nil
  | cons i ids ih =>
    by_cases hi : id = i
    · subst hi
      simp only [stopManyTake, hp, hpid, ↓reduceIte]
      exact ⟨_, List.mem_cons_self, rfl⟩
    · have hid' : id ∈ ids := (List.mem_cons.mp hid).resolve_left hi
      cases hq : w.processes.lookup i with
      | none =>
        simp only [stopManyTake, hq]
        exact ih hid' hp
      | some q =>
        have hremove : (w.remove i).processes.lookup id = some p := by
          rw [remove_processes, AssocMap.lookup_erase_eq, if_neg hi, hp]
        by_cases hqpid : q.pid = 0 <;> simp only [stopManyTake, hq, hqpid, ↓reduceIte]
        · exact ih hid' hremove
        · obtain ⟨e, he, rfl⟩ := ih (w := (w.remove i).tick env) hid' hremove
          exact ⟨e, List.mem_cons_of_mem _ he, rfl⟩

/-- Every id is in the batch at most once, also if it was requested twice. -/
theorem nodup_stopManyTake (hkey : w.Keyed) (ids : List ProcessId) :
    ((w.stopManyTake env ids).1.map fun e => e.1.id).Nodup := by
  induction ids generalizing w with
  | nil => exact List.nodup_nil
  | cons i ids ih =>
    have hrest : ∀ {w' : World}, w'.processes = w.processes.erase i → w'.Keyed ∧
        i ∉ (w'.stopManyTake env ids).1.map fun e => e.1.id := by
      intro w' hw'
      have hkey' : w'.Keyed := by
        intro j q hq
        rw [hw', AssocMap.lookup_erase_eq] at hq
        split_ifs at hq
        exact hkey j q hq
      refine ⟨hkey', fun hi => ?_⟩
      obtain ⟨e, he, hid⟩ := List.mem_map.mp hi
      obtain ⟨_, j, _, hj⟩ := mem_stopManyTake he
      rw [← hkey' j e.1 hj, hid, hw', AssocMap.lookup_erase_eq, if_pos rfl] at hj
      cases hj
    cases hp : w.processes.lookup i with
    | none =>
      simp only [stopManyTake, hp]
      exact ih hkey
    | some p =>
      by_cases hpid : p.pid = 0 <;> simp only [stopManyTake, hp, hpid, ↓reduceIte]
      · exact ih (hrest rfl).1
      · rw [List.map_cons, hkey i p hp]
        exact List.nodup_cons.mpr ⟨(hrest rfl).2, ih (hrest rfl).1⟩

theorem grows_stopManySignal (env : Env) (entries : List (Process × Instant)) (w : World) :
    Grows (fun k => k.site = .stopMany) w.kills (w.stopManySignal env entries).2.kills := by
  induction entries generalizing w with
  | nil => exact .refl _
  | cons e entries ih =>
    refine Grows.trans ?_ (ih _)
    unfold Process.sendSignal
    split_ifs
    · exact .refl _
    · exact .cons _ rfl

/-- The escalation makes one call for each entry. -/
theorem escalated_stopManyEscalate (env : Env) {entries : List Process}
    (hpid : ∀ p ∈ entries, p.pid ≠ 0) (w : World) :
    ∃ calls, (w.stopManyEscalate env entries).2.kills = calls.reverse ++ w.kills ∧
      Escalated entries calls (w.stopManyEscalate env entries).1.toReinsert
        (w.stopManyEscalate env entries).1.errors := by
  induction entries generalizing w with
  | nil => exact ⟨[], rfl, .nil⟩
  | cons p entries ih =>
    have hne : p.pid ≠ 0 := hpid p List.mem_cons_self
    have hkill : p.forceKill env .stopManyEscalation w =
        (w.killError env p.pid, w.kill env .stopManyEscalation p KillSignal.sigkill.toSignal) := by
      rw [Process.forceKill, Process.sendSignal, if_neg hne]
    obtain ⟨k, hk, herror, hlog⟩ : ∃ k : KillCall, k.Escalates p ∧ k.error = w.killError env p.pid ∧
        (w.kill env .stopManyEscalation p KillSignal.sigkill.toSignal).kills = k :: w.kills := by
      refine ⟨_, ?_, ?_, kill_kills env .stopManyEscalation p _ w⟩
      · exact ⟨rfl, rfl, rfl, rfl⟩
      · rfl
    have hrest : ∀ w' : World, w'.kills = k :: w.kills →
        ∃ calls, (w'.stopManyEscalate env entries).2.kills = (k :: calls).reverse ++ w.kills ∧
          Escalated entries calls (w'.stopManyEscalate env entries).1.toReinsert
            (w'.stopManyEscalate env entries).1.errors := by
      intro w' hw'
      obtain ⟨calls, hkills, hrest⟩ := ih (fun q hq => hpid q (List.mem_cons_of_mem _ hq)) w'
      exact ⟨calls, by rw [hkills, hw', List.reverse_cons, List.append_assoc, List.singleton_append],
        hrest⟩
    simp only [stopManyEscalate, hkill]
    split
    · next hnone =>
      obtain ⟨calls, hkills, hrest⟩ := hrest _ hlog
      refine ⟨k :: calls, hkills, .killed hk ?_ hrest⟩
      rintro e ⟨he, _⟩
      rw [herror, hnone] at he
      cases he
    · next hesrch =>
      obtain ⟨calls, hkills, hrest⟩ := hrest (p.joinReaders env
        (w.kill env .stopManyEscalation p KillSignal.sigkill.toSignal)) hlog
      refine ⟨k :: calls, hkills, .killed hk ?_ hrest⟩
      rintro e ⟨he, hgone⟩
      rw [herror, hesrch] at he
      exact hgone (Option.some.inj he).symm
    · next e hnot he =>
      obtain ⟨calls, hkills, hrest⟩ := hrest _ hlog
      exact ⟨k :: calls, hkills, .failed hk ⟨herror.trans he, hnot⟩ hrest⟩

/-- The re-insertion writes every kept entry back, and nothing else. -/
theorem lookup_stopManyReinsert (env : Env) {entries : List Process} (hnodup : (entries.map Process.id).Nodup)
    (w : World) :
    (∀ p ∈ entries, (w.stopManyReinsert env entries).processes.lookup p.id =
      some { p with state := .failed }) ∧
    ∀ id, id ∉ entries.map Process.id →
      (w.stopManyReinsert env entries).processes.lookup id = w.processes.lookup id := by
  induction entries generalizing w with
  | nil => exact ⟨fun p hp => absurd hp List.not_mem_nil, fun id _ => by rw [stopManyReinsert, List.foldl_nil]⟩
  | cons p entries ih =>
    rw [List.map_cons, List.nodup_cons] at hnodup
    have hinsert : ∀ id, (w.insert env p.id { p with state := .failed }).processes.lookup id =
        if id = p.id then some { p with state := .failed } else w.processes.lookup id := by
      intro id
      rw [insert_processes, AssocMap.lookup_reorder, AssocMap.lookup_insert_eq]
    rw [show w.stopManyReinsert env (p :: entries) =
      (w.insert env p.id { p with state := .failed }).stopManyReinsert env entries from rfl]
    generalize w.insert env p.id { p with state := .failed } = w' at hinsert
    obtain ⟨hback, hother⟩ := ih hnodup.2 w'
    refine ⟨fun q hq => ?_, fun id hid => ?_⟩
    · rcases List.mem_cons.mp hq with rfl | hq
      · rw [hother _ hnodup.1, hinsert, if_pos rfl]
      · exact hback q hq
    · rw [List.map_cons, List.mem_cons, not_or] at hid
      rw [hother id hid.2, hinsert, if_neg hid.1]

/-- The stages of a batch put together: one entry for each requested process with a pid, and
of all calls only the last ones are those of the escalation. -/
theorem stopMany_stages (env : Env) (hkey : w.Keyed) (ids : List ProcessId) :
    ∃ entries calls others, (entries.map Process.id).Nodup ∧
      (∀ q, q ∈ entries ↔ w.BatchEntry ids q) ∧
      Escalated entries calls (w.stopManyKill env ids).1.toReinsert (w.stopManyKill env ids).1.errors ∧
      callsSince w (w.stopMany env ids).2 = calls.reverse ++ others ∧
      ∀ k ∈ others, k.site = .stopMany := by
  let taken := w.stopManyTake env ids
  let signalled := taken.2.stopManySignal env taken.1
  let polled := signalled.2.stopManyPoll env (batchFuel signalled.1) signalled.1
  let escalated := polled.2.stopManyEscalate env polled.1
  have hsignalled : signalled.1 = taken.1.map fun e => (e.1.markStopping, e.2) :=
    map_stopManySignal taken.1 taken.2
  have hstopping : ∀ e ∈ signalled.1, e.1.state = .stopping := by
    intro e he
    rw [hsignalled, List.mem_map] at he
    obtain ⟨e₀, _, rfl⟩ := he
    rfl
  obtain ⟨hperm, hpoll⟩ := stopManyPoll_of_stopping env (P := fun _ => False) (batchFuel signalled.1)
    hstopping signalled.2
  have hentries : polled.1.Perm (taken.1.map fun e => e.1.markStopping) := by
    refine hperm.trans (.of_eq ?_)
    rw [hsignalled, List.map_map]
    rfl
  have hmem : ∀ q, q ∈ polled.1 ↔ w.BatchEntry ids q := by
    intro q
    rw [hentries.mem_iff, List.mem_map]
    constructor
    · rintro ⟨e, he, rfl⟩
      obtain ⟨hpid, id, hid, hp⟩ := mem_stopManyTake he
      exact ⟨id, hid, e.1, hp, hpid, rfl⟩
    · rintro ⟨id, hid, p, hp, hpid, rfl⟩
      obtain ⟨e, he, rfl⟩ := exists_mem_stopManyTake env hid hp hpid
      exact ⟨e, he, rfl⟩
  have hnodup : (polled.1.map Process.id).Nodup := by
    rw [(hentries.map Process.id).nodup_iff, List.map_map]
    exact nodup_stopManyTake hkey ids
  have hpid : ∀ q ∈ polled.1, q.pid ≠ 0 := by
    intro q hq
    obtain ⟨_, _, p, _, hpid, rfl⟩ := (hmem q).mp hq
    exact hpid
  obtain ⟨calls, hcalls, hescalated⟩ := escalated_stopManyEscalate env hpid polled.2
  obtain ⟨others, hothers, hsite⟩ := grows_stopManySignal env taken.1 taken.2
  -- only the signals and the escalation call `kill`
  have htake : MapStep Kept ∅ (fun _ => False) w taken.2 := mapStep_stopManyTake ids w
  have hreap : (w.stopManyKill env ids).2.kills = escalated.2.kills :=
    (osStep_awaitAll (P := fun _ => False) escalated.1.toReap escalated.2).kills.eq_of_none
  have hkills : (w.stopMany env ids).2.kills = (calls.reverse ++ others) ++ w.kills := by
    rw [stopMany_kills, hreap, hcalls, show polled.2.kills = signalled.2.kills from
      hpoll.kills.eq_of_none, show signalled.2.kills = _ from hothers, htake.kills.eq_of_none, List.append_assoc]
  exact ⟨polled.1, calls, others, hnodup, hmem, hescalated, callsSince_eq hkills, hsite⟩

/-! ### The whole batch -/

/-- How a batch ends: the requested entries are gone except for those whose `SIGKILL` failed,
which are back as `Failed` and otherwise unchanged, with one error for each. -/
structure BatchOutcome (ids : List ProcessId) (w w' : World) (result : Except ManagerError Unit) :
    Prop where
  others : ∀ id, id ∉ ids → w'.processes.lookup id = w.processes.lookup id
  back : ∀ id ∈ ids, ∀ p, w.processes.lookup id = some p →
    (∃ e, p.KillFailed (callsSince w w') e) →
    w'.processes.lookup id = some { p with state := .failed }
  gone : ∀ id ∈ ids, (∀ p, w.processes.lookup id = some p →
    ¬ ∃ e, p.KillFailed (callsSince w w') e) → w'.processes.lookup id = none
  errors : ∃ (failed : List ProcessId) (errors : List ManagerError), failed.Nodup ∧
    (∀ id, id ∈ failed ↔ id ∈ ids ∧ ∃ p, w.processes.lookup id = some p ∧
      ∃ e, p.KillFailed (callsSince w w') e) ∧
    List.Forall₂ (fun id error => ∃ p, w.processes.lookup id = some p ∧
      ReportedBy (callsSince w w') p error) failed errors ∧
    result = if failed = [] then .ok () else .error (.stopMany errors)

/-- The calls of the signals are none of the escalation. -/
theorem killFailed_append {calls others : List KillCall} (hothers : ∀ k ∈ others, k.site = .stopMany)
    (p : Process) (e : Errno) :
    p.KillFailed (calls.reverse ++ others) e ↔ p.markStopping.KillFailed calls e := by
  constructor
  · rintro ⟨k, hk, hkp, hfail⟩
    rcases List.mem_append.mp hk with hk | hk
    · exact ⟨k, List.mem_reverse.mp hk, { hkp with }, hfail⟩
    · exact absurd (hkp.site.symm.trans (hothers k hk)) (by decide)
  · rintro ⟨k, hk, hkp, hfail⟩
    exact ⟨k, List.mem_append_left _ (List.mem_reverse.mpr hk), { hkp with }, hfail⟩

/-- The entries kept for re-insertion are the requested ones whose `SIGKILL` failed. -/
theorem mem_toReinsert (env : Env) (hkey : w.Keyed) (ids : List ProcessId) (q : Process) :
    q ∈ (w.stopManyKill env ids).1.toReinsert ↔ ∃ id ∈ ids, ∃ p, w.processes.lookup id = some p ∧
      q = p.markStopping ∧ ∃ e, p.KillFailed (callsSince w (w.stopMany env ids).2) e := by
  obtain ⟨entries, calls, others, hnodup, hmem, hescalated, hcalls, hothers⟩ :=
    stopMany_stages env hkey ids
  rw [hescalated.mem_kept_iff hnodup, hmem, hcalls]
  simp only [killFailed_append hothers]
  constructor
  · rintro ⟨⟨id, hid, p, hp, _, rfl⟩, hfailed⟩
    exact ⟨id, hid, p, hp, rfl, hfailed⟩
  · rintro ⟨id, hid, p, hp, rfl, e, k, hk, hkp, hfail⟩
    refine ⟨⟨id, hid, p, hp, ?_, rfl⟩, e, k, hk, hkp, hfail⟩
    -- a process without a pid is not in the batch, so there is no call for it
    obtain ⟨q, hq, hkq⟩ := hescalated.exists_entry hk
    obtain ⟨_, _, p', _, hpid', rfl⟩ := (hmem q).mp hq
    have hpid : p.pid = p'.pid := hkp.pid.symm.trans hkq.pid
    rwa [hpid]

/-- Stopping a batch loses and doubles no entry: those not requested stay, those requested are
gone unless their `SIGKILL` failed, and the error lists exactly the latter. -/
theorem stopMany_outcome (env : Env) (hkey : w.Keyed) (ids : List ProcessId) :
    BatchOutcome ids w (w.stopMany env ids).2 (w.stopMany env ids).1 := by
  obtain ⟨entries, calls, others, hnodup, _, hescalated, hcalls, hothers⟩ :=
    stopMany_stages env hkey ids
  have hmem := mem_toReinsert env hkey ids
  have hkept := hnodup.sublist (hescalated.sublist.map Process.id)
  obtain ⟨_, hkill, _⟩ := stopManyKill_spec env ids w
  have hid : ∀ id, id ∈ (w.stopManyKill env ids).1.toReinsert.map Process.id ↔
      id ∈ ids ∧ ∃ p, w.processes.lookup id = some p ∧
        ∃ e, p.KillFailed (callsSince w (w.stopMany env ids).2) e := by
    intro id
    rw [List.mem_map]
    constructor
    · rintro ⟨q, hq, rfl⟩
      obtain ⟨id, hid, p, hp, rfl, hfailed⟩ := (hmem q).mp hq
      have hkeyed : p.markStopping.id = id := hkey id p hp
      exact hkeyed ▸ ⟨hid, p, hp, hfailed⟩
    · rintro ⟨hid, p, hp, hfailed⟩
      exact ⟨p.markStopping, (hmem _).mpr ⟨id, hid, p, hp, rfl, hfailed⟩, hkey id p hp⟩
  obtain ⟨hback, hother⟩ := lookup_stopManyReinsert env hkept (w.stopManyKill env ids).2
  constructor
  case others =>
    intro id hnot
    have hgone := (hid id).not.mpr fun h => hnot h.1
    exact (hother id hgone).trans ((hkill id).trans (if_neg hnot))
  case back =>
    intro id hin p hp hfailed
    have hentry := hback _ ((hmem p.markStopping).mpr ⟨id, hin, p, hp, rfl, hfailed⟩)
    have hkeyed : p.markStopping.id = id := hkey id p hp
    subst hkeyed
    exact hentry
  case gone =>
    intro id hin hnone
    have hgone := (hid id).not.mpr fun ⟨_, p, hp, hfailed⟩ => hnone p hp hfailed
    exact (hother id hgone).trans ((hkill id).trans (if_pos hin))
  case errors =>
    have hall := (List.forall₂_and_left _ _).mpr ⟨fun q hq => (hmem q).mp hq, hescalated.forall₂⟩
    refine ⟨_, (w.stopManyKill env ids).1.errors, hkept, hid, ?_, ?_⟩
    · rw [List.forall₂_map_left_iff]
      refine hall.imp ?_
      rintro q error ⟨⟨id, _, p, hp, rfl, _⟩, e, hfailed, herror⟩
      have hkeyed : p.markStopping.id = id := hkey id p hp
      refine ⟨p, by rw [hkeyed, hp], e, ?_, herror⟩
      rw [hcalls, killFailed_append hothers]
      exact hfailed
    · have hlength := hescalated.forall₂.length_eq
      have hnil : (w.stopManyKill env ids).1.errors.isEmpty = true ↔
          (w.stopManyKill env ids).1.toReinsert.map Process.id = [] := by
        rw [List.isEmpty_iff, ← List.length_eq_zero_iff, ← hlength, List.map_eq_nil_iff,
          List.length_eq_zero_iff]
      rw [stopMany]
      exact if_congr hnil rfl rfl

/-- Every `kill` is refused. -/
def refused : Env := { Env.calm with killError := fun _ => some .eperm }

/-- A process requested twice is back once, beside an id that is not tracked. -/
theorem stopMany_outcome_chain :
    BatchOutcome [⟨1⟩, ⟨1⟩, ⟨7⟩] chain (chain.stopMany refused [⟨1⟩, ⟨1⟩, ⟨7⟩]).2
        (chain.stopMany refused [⟨1⟩, ⟨1⟩, ⟨7⟩]).1 ∧
      ((chain.stopMany refused [⟨1⟩, ⟨1⟩, ⟨7⟩]).2.processes.lookup ⟨1⟩).map Process.state =
        some .failed :=
  ⟨stopMany_outcome refused keyed_chain [⟨1⟩, ⟨1⟩, ⟨7⟩], by decide +kernel⟩

end World

end ProcessManager
