import ProcessManager.System.Claims
import ProcessManager.System.CustodyRun

/-! Calls of `stop` and `restart` that act on what they have found. Beside each other they keep this in
order: an id that a call has removed is its own, and an entry in `Restarting` leaves no child behind. -/

namespace ProcessManager

variable {env : Env} {pollInterval : ℕ} {w w' : World} {id i : ProcessId} {p : Process} {k : Handle}

/-! ### Claims -/

namespace Call

/-- What the call carries along is of processes without dependencies. -/
def Simple (w : World) : Call → Prop
  | .stop s => ∃ id, s.Simple id w
  | .restart id c => c.Simple id w

/-- The process that the call has taken out of the map and may still put back. -/
def claims : Call → Option ProcessId
  | .stop (.stopping id stage _ _) => stage.held.map fun _ => id
  | .stop (.returned _) => none
  | .restart id c => if c.inGap then some id else none

/-- The process whose entry is about to get the child that the call has spawned. -/
def stores : Call → Option ProcessId
  | .restart id (.store ..) => some id
  | _ => none

/-- The process that the next section puts into the map with a child. -/
def places : Call → Option ProcessId
  | .restart id c => if c.places then some id else none
  | .stop _ => none

end Call

/-- No call has spawned for an entry of the process. -/
def Unstored (calls : List Call) (id : ProcessId) : Prop := ∀ c ∈ calls, c.stores ≠ some id

instance (calls : List Call) (id : ProcessId) : Decidable (Unstored calls id) :=
  inferInstanceAs (Decidable (∀ c ∈ calls, c.stores ≠ some id))

/-- The process is tracked and waits for its restart. -/
def World.Awaits (id : ProcessId) (w : World) : Prop := ∃ p ∈ w.processes.lookup id, p.state = .restarting

instance (id : ProcessId) (w : World) : Decidable (w.Awaits id) :=
  inferInstanceAs (Decidable (∃ p ∈ w.processes.lookup id, p.state = .restarting))

/-- What a restart does next agrees with what it has found: its stop has removed the entry and seen
the end of the child; when it spawns for an entry and when it stores the child there, the entry is
still in `Restarting`; no other call has spawned for it; and the reaper is not about to remove the
entry that it puts in. -/
def RestartPc.UpToDate (env : Env) (calls : List Call) (removing : List ProcessId) (id : ProcessId) :
    RestartPc → World → Prop
  | .stopping _ s, w => s.UpToDate env w ∧ s.Clears env w
  | .respawn p inPlace, w => w.spawnError env p.config = none → (inPlace = true → w.Awaits id) ∧ Unstored calls id
  | .store .., w => w.Awaits id ∧ id ∉ removing
  | .insert _, _ => id ∉ removing
  | _, _ => True

instance (env : Env) (calls : List Call) (removing : List ProcessId) (id : ProcessId) :
    ∀ (c : RestartPc) (w : World), Decidable (c.UpToDate env calls removing id w)
  | .stopping _ s, w => inferInstanceAs (Decidable (s.UpToDate env w ∧ s.Clears env w))
  | .respawn p inPlace, w =>
    inferInstanceAs (Decidable (w.spawnError env p.config = none → (inPlace = true → w.Awaits id) ∧ Unstored calls id))
  | .store .., w => inferInstanceAs (Decidable (w.Awaits id ∧ id ∉ removing))
  | .insert _, _ => inferInstanceAs (Decidable (id ∉ removing))
  | .called, _ | .reset _, _ | .inserted, _ | .returned _, _ => .isTrue trivial

namespace Call

def UpToDate (env : Env) (calls : List Call) (removing : List ProcessId) : Call → World → Prop
  | .stop s, w => s.UpToDate env w
  | .restart id c, w => c.UpToDate env calls removing id w

instance (env : Env) (calls : List Call) (removing : List ProcessId) :
    ∀ (c : Call) (w : World), Decidable (c.UpToDate env calls removing w)
  | .stop s, w => inferInstanceAs (Decidable (s.UpToDate env w))
  | .restart id c, w => inferInstanceAs (Decidable (c.UpToDate env calls removing id w))

theorem Simple.ages {S : Set ℕ} {c : Call} (h : c.Simple w) (hages : Ages S w.children w'.children) : c.Simple w' := by
  cases c with
  | stop s =>
    obtain ⟨id, hs⟩ := h
    exact ⟨id, hs.ages hages⟩
  | restart id c => exact RestartPc.Simple.ages h hages

theorem simple_next (env : Env) {c : Call} (h : c.Simple w) (hw : w.Standalone) :
    (c.next env w).1.Simple (c.next env w).2 := by
  cases c with
  | stop s =>
    obtain ⟨id, hs⟩ := h
    exact ⟨id, s.simple_next env hs hw⟩
  | restart id c => exact c.simple_next env h hw

theorem claims_stop {s : StopPc} (h : s.Simple id w) : (Call.stop s).claims = s.held.map fun _ => id := by
  cases s with
  | returned result => rfl
  | stopping d stage nested pending =>
    obtain ⟨rfl, _⟩ := h
    rfl

theorem claims_restart {c : RestartPc} : (Call.restart id c).claims = some i ↔ c.inGap = true ∧ i = id := by
  rw [claims]
  split_ifs with hgap
  · simp [hgap, eq_comm]
  · simp [hgap]

/-- What the map does not have of a handle, a call has taken out of it or is about to put in. -/
theorem holds_cases {c : Call} (h : c.Simple w) (hk : c.holds = some (i, k)) : c.claims = some i ∨ c.stores = some i := by
  cases c with
  | stop s =>
    obtain ⟨id, hs⟩ := h
    obtain ⟨rfl, p, hp, _⟩ := (StopPc.holds_iff hs).mp hk
    rw [claims_stop hs, hp]
    exact .inl rfl
  | restart id c =>
    cases c with
    | stopping p s =>
      obtain ⟨rfl, q, hq, _⟩ := (StopPc.holds_iff h.2).mp hk
      exact .inl (claims_restart.mpr ⟨StopPc.inGap_of_held hq, rfl⟩)
    | store child pid =>
      cases hk
      exact .inr rfl
    | insert q =>
      obtain ⟨_, _, heq⟩ := Option.map_eq_some_iff.mp hk
      cases heq
      exact .inl (claims_restart.mpr ⟨rfl, rfl⟩)
    | called | reset | respawn | inserted | returned => cases hk

section Next

variable {calls : List Call} {removing : List ProcessId} {c : Call}

/-- A section claims only what it takes out of the map. -/
theorem claims_next (h : c.Simple w) (hw : w.Standalone) (hup : c.UpToDate env calls removing w)
    (hi : (c.next env w).1.claims = some i) : c.claims = some i ∨
      ((∃ p, w.processes.lookup i = some p) ∧ (c.next env w).2.processes.lookup i = none) := by
  cases c with
  | stop s =>
    obtain ⟨id, hs⟩ := h
    obtain ⟨p, hp, rfl⟩ := Option.map_eq_some_iff.mp ((claims_stop (s.simple_next env hs hw)).symm.trans hi)
    cases hq : s.held with
    | none => exact .inr (StopPc.taken_next hs hp hq)
    | some q =>
      rw [claims_stop hs, hq]
      exact .inl rfl
  | restart id c =>
    obtain ⟨hgap, rfl⟩ := claims_restart.mp hi
    refine (RestartPc.gap_next h ?_ hgap).imp_left fun hold => claims_restart.mpr ⟨hold, rfl⟩
    rintro p s rfl
    exact hup.2

/-- A section puts only what it claims into the map, and gives up its claim. -/
theorem entry_next (hp : (c.next env w).2.processes.lookup i = some p) :
    (∃ q, w.processes.lookup i = some q) ∨ (c.claims = some i ∧ (c.next env w).1.claims = none) := by
  cases c with
  | stop s =>
    obtain ⟨q, hq, _⟩ := (s.mapStep_next env w).processes i p hp
    exact .inl ⟨q, hq⟩
  | restart id c =>
    refine ((c.actsFor_next env id w).entry i p hp).imp_right ?_
    rintro ⟨rfl, q, rfl⟩
    exact ⟨claims_restart.mpr ⟨rfl, rfl⟩, rfl⟩

/-- What is gone stays away, but for the call that claims it. -/
theorem gone_next (hnone : w.processes.lookup i = none) (hi : c.claims = some i → (c.next env w).1.claims ≠ none) :
    (c.next env w).2.processes.lookup i = none := by
  refine Option.eq_none_iff_forall_ne_some.mpr fun p' hp' => ?_
  obtain ⟨p, hp⟩ | ⟨hclaims, hfree⟩ := entry_next hp'
  · rw [hnone] at hp
    cases hp
  · exact hi hclaims hfree

/-- A claimed process is retired. -/
theorem retired_next (h : c.Simple w) (hw : w.Standalone) (hup : c.UpToDate env calls removing w)
    (hretired : ∀ i, c.claims = some i → w.Retired i) (hgiven : ∀ i, w.Given i)
    (hi : (c.next env w).1.claims = some i) : (c.next env w).2.Retired i := by
  have hnextId := c.nextId_next env w
  obtain hold | ⟨⟨p, hp⟩, hnone⟩ := claims_next h hw hup hi
  · obtain ⟨hid, hnone⟩ := hretired i hold
    exact ⟨hnextId ▸ hid, gone_next hnone fun _ hfree => Option.some_ne_none i (hi.symm.trans hfree)⟩
  · exact ⟨hnextId ▸ hgiven i p hp, hnone⟩

/-- The reaper is not about to remove an entry that the section puts in. -/
theorem not_mem_removing (hup : c.UpToDate env calls removing w) (hi : c.places = some i) : i ∉ removing := by
  cases c with
  | stop s => cases hi
  | restart id c =>
    cases c with
    | store child pid =>
      cases hi
      exact hup.2
    | insert q =>
      cases hi
      exact hup
    | called | reset | stopping | respawn | inserted | returned => cases hi

/-- The handle of a running child is dropped only together with the claim. -/
theorem drops_next (h : c.Simple w) (hw : w.Standalone) (hup : c.UpToDate env calls removing w)
    (hclaims : ∀ j, c.claims = some j → w.processes.lookup j = none) (hk : c.holds = some (i, k))
    (hruns : (c.next env w).2.ChildRuns k.child) : (c.next env w).2.HeldBy i k ∨ (c.next env w).1.holds = some (i, k) ∨
      (c.claims = some i ∧ (c.next env w).2.processes.lookup i = none ∧ (c.next env w).1.claims = none) := by
  cases c with
  | stop s =>
    obtain ⟨id, hs⟩ := h
    obtain ⟨rfl, p, hp, _⟩ := (StopPc.holds_iff hs).mp hk
    have hclaim : (Call.stop s).claims = some i := by rw [claims_stop hs, hp, Option.map_some]
    refine .inr ((s.drops_next hs hw hk hruns).imp_right fun ⟨hnone, _⟩ => ⟨hclaim, ?_, ?_⟩)
    · exact s.untracked_next env (hclaims i hclaim)
    · exact (claims_stop (s.simple_next env hs hw)).trans (by rw [hnone]; rfl)
  | restart id c =>
    cases c with
    | stopping p s =>
      obtain ⟨rfl, q, hq, _⟩ := (StopPc.holds_iff h.2).mp hk
      cases s with
      | returned result => cases hq
      | stopping d stage nested pending =>
        have hclaim : (Call.restart i (.stopping p (.stopping d stage nested pending))).claims = some i :=
          claims_restart.mpr ⟨StopPc.inGap_of_held hq, rfl⟩
        refine .inr ((StopPc.drops_next h.2 hw hk hruns).imp_right fun ⟨_, hends⟩ => ⟨hclaim, ?_, ?_⟩)
        · exact StopPc.untracked_next env _ (hclaims i hclaim)
        · refine Option.eq_none_iff_forall_ne_some.mpr fun j hj => ?_
          exact hends (claims_restart.mp hj).1 hup.2
    | store child pid =>
      cases hk
      obtain ⟨q, hq, _⟩ := hup.1
      obtain ⟨w', now, hstep, heq⟩ := World.restartStore_eq (P := fun _ => False) env child pid hq
      refine .inl ?_
      show (w.restartStore env i child pid).2.HeldBy i ⟨child, pid⟩
      rw [heq]
      refine ⟨{ q with
        pid := pid
        child := some child
        state := .starting
        restartState := q.restartState.map (·.markStarted now) }, ?_, rfl⟩
      rw [Option.mem_def, World.put_processes, AssocMap.lookup_replace, if_pos rfl, hstep.processes, Option.mem_def.mp hq]
      rfl
    | insert q =>
      obtain ⟨_, hhandle, heq⟩ := Option.map_eq_some_iff.mp hk
      cases heq
      refine .inl ⟨q, ?_, hhandle⟩
      show (w.insert env i q).processes.lookup i = some q
      rw [World.insert_processes, AssocMap.lookup_reorder, AssocMap.lookup_insert_eq, if_pos rfl]
    | called | reset | respawn | inserted | returned => cases hk

/-- A section that puts no child under `i` keeps its entry vacant. -/
theorem vacant_next (h : c.Simple w) (hw : w.Standalone) (hi : c.places ≠ some i) (hvacant : w.Vacant i) :
    (c.next env w).2.Vacant i := by
  cases c with
  | stop s => exact (World.Rests.of_mapStep (s.mapStep_next env w)).vacant hvacant
  | restart id c =>
    by_cases hid : i = id
    · subst hid
      have hplaces : c.places ≠ true := fun htrue => hi (by rw [places, if_pos htrue])
      have hother : i ≠ ⟨i.raw + 1⟩ := fun heq => by simpa using congrArg ProcessId.raw heq
      exact (c.mends_next env h hw fun htrue => absurd htrue hplaces).vacant i hother hvacant
    · exact (c.mends_next env h hw fun _ => rfl).vacant i hid hvacant

theorem standalone_next (env : Env) (h : c.Simple w) (hw : w.Standalone) : (c.next env w).2.Standalone := by
  cases c with
  | stop s => exact (World.Rests.of_mapStep (s.mapStep_next env w)).standalone hw
  | restart id c => exact (c.mends_next env h hw fun _ => rfl).standalone

end Next

end Call

/-! ### All calls -/

/-- The handle of the spawned child is in the map or with a call, or the process is gone for good. -/
def Settled (calls : List Call) (w : World) (r : SpawnCall) : Prop :=
  (∃ k : Handle, k.child = r.child ∧ (w.HeldBy r.id k ∨ HeldByCall calls r.id k)) ∨
    (w.processes.lookup r.id = none ∧ ∀ c ∈ calls, c.claims ≠ some r.id)

/-- What a call claims is gone, and no other call claims it. -/
structure Orderly (calls : List Call) (w : World) : Prop where
  standalone : w.Standalone
  simple : ∀ c ∈ calls, c.Simple w
  retired : ∀ c ∈ calls, ∀ i, c.claims = some i → w.Retired i
  sole : ∀ (m n : ℕ) (c c' : Call) (i : ProcessId), calls[m]? = some c → calls[n]? = some c' → c.claims = some i →
    c'.claims = some i → m = n
  settled : ∀ r ∈ w.spawns, w.ChildRuns r.child → Settled calls w r

namespace Orderly

variable {calls : List Call} {removing : List ProcessId}

/-- Nothing runs for a process that waits for its restart. -/
theorem noneRuns_of_awaits (h : Orderly calls w) (hid : w.Awaits id) (hstores : Unstored calls id) : w.NoneRuns id := by
  obtain ⟨p, hp, hrestarting⟩ := hid
  have hp : w.processes.lookup id = some p := hp
  rintro r hr rfl hruns
  obtain ⟨k, _, ⟨q, hq, hk⟩ | ⟨c, hc, hk⟩⟩ | ⟨hnone, _⟩ := h.settled r hr hruns
  · obtain rfl : p = q := Option.some.inj (hp.symm.trans hq)
    rw [Process.handle_none ((h.standalone _ p hp).childless hrestarting)] at hk
    cases hk
  · rcases Call.holds_cases (h.simple c hc) hk with hclaims | hstored
    · rw [(h.retired c hc _ hclaims).2] at hp
      cases hp
    · exact hstores c hc hstored
  · rw [hnone] at hp
    cases hp

/-- Nothing runs for a process that a call claims without a handle of it. -/
theorem noneRuns_of_claims (h : Orderly calls w) {n : ℕ} {c : Call} (hn : calls[n]? = some c) (hclaims : c.claims = some id)
    (hholds : c.holds = none) (hstores : Unstored calls id) : w.NoneRuns id := by
  have hc : c ∈ calls := List.mem_of_getElem? hn
  rintro r hr rfl hruns
  obtain ⟨k, _, ⟨q, hq, _⟩ | ⟨c', hc', hk⟩⟩ | ⟨_, hnone⟩ := h.settled r hr hruns
  · have hq : w.processes.lookup r.id = some q := hq
    rw [(h.retired c hc _ hclaims).2] at hq
    cases hq
  · rcases Call.holds_cases (h.simple c' hc') hk with hclaims' | hstored
    · obtain ⟨m, hm⟩ := List.mem_iff_getElem?.mp hc'
      obtain rfl := h.sole m n c' c _ hm hn hclaims' hclaims
      obtain rfl : c' = c := Option.some.inj (hm.symm.trans hn)
      rw [hholds] at hk
      cases hk
    · exact hstores c' hc' hstored
  · exact hnone c hc hclaims

theorem harmless_call (h : Orderly calls w) {n : ℕ} {c : Call} (hn : calls[n]? = some c)
    (hup : c.UpToDate env calls removing w) : c.Harmless env w := by
  have hc : c ∈ calls := List.mem_of_getElem? hn
  have hsimple := h.simple c hc
  cases c with
  | stop s =>
    obtain ⟨id, hs⟩ := hsimple
    exact s.harmless_of_upToDate hs h.standalone hup
  | restart id c =>
    cases c with
    | stopping p s => exact s.harmless_of_upToDate hsimple.2 h.standalone hup.1
    | respawn p inPlace =>
      intro hspawn
      obtain ⟨hawaits, hstores⟩ := hup hspawn
      cases inPlace with
      | true => exact h.noneRuns_of_awaits (hawaits rfl) hstores
      | false => exact h.noneRuns_of_claims hn (Call.claims_restart.mpr ⟨rfl, rfl⟩) rfl hstores
    | store child pid =>
      obtain ⟨⟨p, hp, hrestarting⟩, _⟩ := hup
      have hp : w.processes.lookup id = some p := hp
      refine ⟨fun q hq c hc => ?_, fun hnone => ?_⟩
      · obtain rfl : p = q := Option.some.inj (hp.symm.trans hq)
        rw [(h.standalone id p hp).childless hrestarting] at hc
        cases hc
      · rw [hp] at hnone
        cases hnone
    | insert q =>
      have hgone := (h.retired _ hc id (Call.claims_restart.mpr ⟨rfl, rfl⟩)).2
      intro p hp
      have hp : w.processes.lookup id = some p := hp
      rw [hgone] at hp
      cases hp
    | called | reset | inserted | returned => trivial

/-- A section of the reaper, which brings no process back. -/
theorem passes_none (h : Orderly calls w) (hw : w'.Standalone) (hbelow : w.SpawnsBelow) (hp : World.Passes none none w w')
    (htracked : ∀ i p', w'.processes.lookup i = some p' → ∃ p, w.processes.lookup i = some p) : Orderly calls w' where
  standalone := hw
  simple c hc := (h.simple c hc).ages hp.ages
  retired c hc i hi := by
    obtain ⟨hlt, hnone⟩ := h.retired c hc i hi
    refine ⟨hp.nextId ▸ hlt, Option.eq_none_iff_forall_ne_some.mpr fun p' hp' => ?_⟩
    obtain ⟨p, hp⟩ := htracked i p' hp'
    rw [hnone] at hp
    cases hp
  sole := h.sole
  settled r hr hruns := by
    rcases hp.spawns.mem_or hr with hold | hborn
    · obtain ⟨k, hk, hheld | hheld⟩ | ⟨hnone, hclaims⟩ := h.settled r hold (hruns.before hp.ages (hbelow r hold))
      · obtain hheld' | hgot := hp.entry r hold k hk hheld hruns
        · exact .inl ⟨k, hk, .inl hheld'⟩
        · cases hgot
      · exact .inl ⟨k, hk, .inr hheld⟩
      · refine .inr ⟨Option.eq_none_iff_forall_ne_some.mpr fun p' hp' => ?_, hclaims⟩
        obtain ⟨p, hp⟩ := htracked r.id p' hp'
        rw [hnone] at hp
        cases hp
    · obtain ⟨k, hk, _, hheld | hgot⟩ := hborn.held
      · exact .inl ⟨k, hk, .inl hheld⟩
      · cases hgot

/-! ### A section of one of the calls -/

section Section

variable {m n : ℕ} {c c' : Call}

/-- The calls after the section. -/
theorem cases_set (hm : (calls.set n c)[m]? = some c') : (m = n ∧ c' = c) ∨ (m ≠ n ∧ calls[m]? = some c') := by
  rw [List.getElem?_set] at hm
  split_ifs at hm with hmn
  · exact .inl ⟨hmn.symm, (Option.some.inj hm).symm⟩
  · exact .inr ⟨Ne.symm hmn, hm⟩

theorem heldByCall_set (hn : n < calls.length) (hk : c.holds = some (id, k)) : HeldByCall (calls.set n c) id k :=
  ⟨c, List.mem_set hn c, hk⟩

/-- Nobody else claims what the call does. -/
theorem unclaimed (h : Orderly calls w) (hn : calls[n]? = some c) (hmn : m ≠ n) (hm : calls[m]? = some c')
    (hi : c'.claims = some i) : c.claims ≠ some i := fun hi' => hmn (h.sole m n c' c i hm hn hi hi')

theorem unclaimed_next (h : Orderly calls w) (hn : calls[n]? = some c) (hup : c.UpToDate env calls removing w)
    (hmn : m ≠ n) (hm : calls[m]? = some c') (hi : c'.claims = some i) : (c.next env w).1.claims ≠ some i := by
  intro hi'
  obtain hold | ⟨⟨p, hp⟩, _⟩ := Call.claims_next (h.simple c (List.mem_of_getElem? hn)) h.standalone hup hi'
  · exact h.unclaimed hn hmn hm hi hold
  · rw [(h.retired c' (List.mem_of_getElem? hm) i hi).2] at hp
    cases hp

/-- A child that had been spawned before. -/
theorem settled_next (h : Orderly calls w) (hn : calls[n]? = some c) (hup : c.UpToDate env calls removing w)
    (hp : World.Passes c.holds (c.next env w).1.holds w (c.next env w).2) {r : SpawnCall} (hr : r ∈ w.spawns)
    (hsettled : Settled calls w r) (hruns : (c.next env w).2.ChildRuns r.child) :
    Settled (calls.set n (c.next env w).1) (c.next env w).2 r := by
  have hc : c ∈ calls := List.mem_of_getElem? hn
  have hlt : n < calls.length := (List.getElem?_eq_some_iff.mp hn).1
  have hsimple := h.simple c hc
  obtain ⟨k, hk, hheld | ⟨c', hc', hheld⟩⟩ | ⟨hnone, hclaims⟩ := hsettled
  · obtain hheld' | hgot := hp.entry r hr k hk hheld hruns
    · exact .inl ⟨k, hk, .inl hheld'⟩
    · exact .inl ⟨k, hk, .inr (heldByCall_set hlt hgot)⟩
  · obtain ⟨m, hm⟩ := List.mem_iff_getElem?.mp hc'
    by_cases hmn : m = n
    · subst hmn
      obtain rfl : c' = c := Option.some.inj (hm.symm.trans hn)
      obtain hheld' | hgot | ⟨hold, hnone, hfree⟩ := Call.drops_next hsimple h.standalone hup
        (fun j hj => (h.retired c' hc j hj).2) hheld (hk ▸ hruns)
      · exact .inl ⟨k, hk, .inl hheld'⟩
      · exact .inl ⟨k, hk, .inr (heldByCall_set hlt hgot)⟩
      · refine .inr ⟨hnone, fun c₁ hc₁ hi => ?_⟩
        obtain ⟨m', hm'⟩ := List.mem_iff_getElem?.mp hc₁
        obtain ⟨_, rfl⟩ | ⟨hne, hm'⟩ := cases_set hm'
        · rw [hfree] at hi
          cases hi
        · exact h.unclaimed hn hne hm' hi hold
    · refine .inl ⟨k, hk, .inr ⟨c', List.mem_of_getElem? (i := m) ?_, hheld⟩⟩
      rw [List.getElem?_set_ne (Ne.symm hmn), hm]
  · refine .inr ⟨Call.gone_next hnone fun hi => absurd hi (hclaims c hc), fun c' hc' hi => ?_⟩
    rcases List.mem_or_eq_of_mem_set hc' with hc' | rfl
    · exact hclaims c' hc' hi
    · obtain hold | ⟨⟨p, hp⟩, _⟩ := Call.claims_next hsimple h.standalone hup hi
      · exact hclaims c hc hold
      · rw [hnone] at hp
        cases hp

theorem call (h : Orderly calls w) (hn : calls[n]? = some c) (hup : c.UpToDate env calls removing w)
    (hbelow : w.SpawnsBelow) (hgiven : ∀ i, w.Given i)
    (hp : World.Passes c.holds (c.next env w).1.holds w (c.next env w).2) :
    Orderly (calls.set n (c.next env w).1) (c.next env w).2 := by
  have hc : c ∈ calls := List.mem_of_getElem? hn
  have hsimple := h.simple c hc
  refine {
    standalone := Call.standalone_next env hsimple h.standalone
    simple := fun c' hc' => ?_
    retired := fun c' hc' i hi => ?_
    sole := fun m m' c₁ c₂ i hm hm' hi hi' => ?_
    settled := fun r hr hruns => ?_ }
  · rcases List.mem_or_eq_of_mem_set hc' with hc' | rfl
    · exact (h.simple c' hc').ages hp.ages
    · exact c.simple_next env hsimple h.standalone
  · obtain ⟨m, hm⟩ := List.mem_iff_getElem?.mp hc'
    obtain ⟨_, rfl⟩ | ⟨hmn, hm⟩ := cases_set hm
    · exact Call.retired_next hsimple h.standalone hup (h.retired c hc) hgiven hi
    · obtain ⟨hid, hnone⟩ := h.retired c' (List.mem_of_getElem? hm) i hi
      exact ⟨hp.nextId ▸ hid, Call.gone_next hnone fun hi' => absurd hi' (h.unclaimed hn hmn hm hi)⟩
  · obtain ⟨hmn, rfl⟩ | ⟨hmn, hm⟩ := cases_set hm <;> obtain ⟨hmn', rfl⟩ | ⟨hmn', hm'⟩ := cases_set hm'
    · exact hmn.trans hmn'.symm
    · exact absurd hi (h.unclaimed_next hn hup hmn' hm' hi')
    · exact absurd hi' (h.unclaimed_next hn hup hmn hm hi)
    · exact h.sole m m' c₁ c₂ i hm hm' hi hi'
  · rcases hp.spawns.mem_or hr with hold | hborn
    · exact h.settled_next hn hup hp hold (h.settled r hold (hruns.before hp.ages (hbelow r hold))) hruns
    · obtain ⟨k, hk, _, hheld | hgot⟩ := hborn.held
      · exact .inl ⟨k, hk, .inl hheld⟩
      · exact .inl ⟨k, hk, .inr (heldByCall_set (List.getElem?_eq_some_iff.mp hn).1 hgot)⟩

end Section

/-- A start uses an id that nobody claims. -/
theorem start (env : Env) (h : Orderly calls w) (hspawned : ∀ r ∈ w.spawns, r.id.raw < w.nextId)
    (hbelow : w.SpawnsBelow) (label : Label) {config : ProcessConfig} (hdepends : config.dependsOn = []) :
    Orderly calls (w.start env label config).2 := by
  obtain ⟨hages, hlookup, hspawns⟩ := World.started_of_standalone env label hdepends w
  have hfresh : ∀ {i : ProcessId}, i.raw < w.nextId → i ≠ ⟨w.nextId⟩ := fun hlt heq => by
    rw [heq] at hlt
    exact hlt.false
  refine {
    standalone := (World.mends_start env h.standalone label hdepends).standalone
    simple := fun c hc => (h.simple c hc).ages hages
    retired := fun c hc i hi => ?_
    sole := h.sole
    settled := fun r hr hruns => ?_ }
  · obtain ⟨hid, hnone⟩ := h.retired c hc i hi
    exact ⟨hid.trans_le (World.evolves_start env label config w).nextId, by rw [hlookup i (hfresh hid), hnone]⟩
  · rcases hspawns r hr with hold | ⟨_, hnew⟩
    · have hid := hfresh (hspawned r hold)
      obtain ⟨k, hk, ⟨p, hp, hhandle⟩ | hheld⟩ | ⟨hnone, hclaims⟩ :=
        h.settled r hold (hruns.before hages (hbelow r hold))
      · exact .inl ⟨k, hk, .inl ⟨p, by rwa [Option.mem_def, hlookup r.id hid], hhandle⟩⟩
      · exact .inl ⟨k, hk, .inr hheld⟩
      · exact .inr ⟨by rw [hlookup r.id hid, hnone], hclaims⟩
    · obtain ⟨k, hk, hheld⟩ := hnew hruns
      exact .inl ⟨k, hk, .inl hheld⟩

/-- A call begins. -/
theorem begin (h : Orderly calls w) {c : Call} (hsimple : c.Simple w) (hclaims : c.claims = none) :
    Orderly (calls ++ [c]) w := by
  have hnext : ∀ {m : ℕ} {c' : Call} {i : ProcessId}, (calls ++ [c])[m]? = some c' → c'.claims = some i →
      calls[m]? = some c' := by
    intro m c' i hm hi
    rw [List.getElem?_append] at hm
    split_ifs at hm with hlt
    · exact hm
    · obtain rfl := List.mem_singleton.mp (List.mem_of_getElem? hm)
      rw [hclaims] at hi
      cases hi
  refine {
    standalone := h.standalone
    simple := fun c' hc' => ?_
    retired := fun c' hc' i hi => ?_
    sole := fun m n c₁ c₂ i hm hn hi hi' => h.sole m n c₁ c₂ i (hnext hm hi) (hnext hn hi') hi hi'
    settled := fun r hr hruns => ?_ }
  · rcases List.mem_append.mp hc' with hc' | hc'
    · exact h.simple c' hc'
    · exact List.mem_singleton.mp hc' ▸ hsimple
  · obtain ⟨m, hm⟩ := List.mem_iff_getElem?.mp hc'
    exact h.retired c' (List.mem_of_getElem? (hnext hm hi)) i hi
  · obtain ⟨k, hk, hheld | ⟨c', hc', hheld⟩⟩ | ⟨hnone, hfree⟩ := h.settled r hr hruns
    · exact .inl ⟨k, hk, .inl hheld⟩
    · exact .inl ⟨k, hk, .inr ⟨c', List.mem_append_left _ hc', hheld⟩⟩
    · refine .inr ⟨hnone, fun c' hc' hi => ?_⟩
      obtain ⟨m, hm⟩ := List.mem_iff_getElem?.mp hc'
      exact hfree c' (List.mem_of_getElem? (hnext hm hi)) hi

end Orderly

end ProcessManager
