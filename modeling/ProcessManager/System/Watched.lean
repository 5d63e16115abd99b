import ProcessManager.Manager.Start
import ProcessManager.Reaper.Mirrors
import ProcessManager.System.Alive

/-! A world beside the same world with some more queries. A query collects the exit of a
child and writes the state it finds, so the second world may be ahead of the first in the
states of processes whose exit no pass has found yet. -/

namespace ProcessManager

variable {env : Env} {w w' : World} {id : ProcessId} {p p' : Process} {ch ch' : OsChild} {c : ℕ}

/-! ### What queries change -/

/-- The same child, perhaps with its exit collected. -/
def OsChild.Watched (ch ch' : OsChild) : Prop := ch' = ch ∨ ch' = ch.reap

/-- The same entry, perhaps in the state that a query wrote. -/
structure Process.Watched (p p' : Process) : Prop extends Process.Copy p p' where
  state : p'.state = p.state ∨ p.Active ∧ (p'.state = .running ∨ p'.state.isTerminated = true)

/-- Only the second entry knows that the process is gone. -/
def Process.Outlived (p p' : Process) : Prop := p.Active ∧ p'.state.isTerminated = true

theorem Process.Active.not_terminated (h : p.Active) : p.state.isTerminated = false := by
  obtain h | h := h <;> rw [h] <;> rfl

theorem Process.Watched.active (h : p.Watched p') (hactive : p'.Active) : p.Active := by
  obtain hstate | ⟨hactive', _⟩ := h.state
  · unfold Process.Active at hactive ⊢
    rwa [hstate] at hactive
  · exact hactive'

/-- Queries write `Running` and terminal states only, and only over `Starting` and `Running`. -/
theorem Process.Watched.state_iff {s : ProcessState} (h : p.Watched p') (hstarting : s ≠ .starting)
    (hrunning : s ≠ .running) (hlive : s.isTerminated = false) : p'.state = s ↔ p.state = s := by
  obtain heq | ⟨hactive, hstate⟩ := h.state
  · rw [heq]
  · constructor <;> rintro rfl
    · obtain hstate | hstate := hstate
      · exact absurd hstate hrunning
      · exact absurd (hlive.symm.trans hstate) (by decide)
    · obtain hactive | hactive := hactive
      · exact absurd hactive hstarting
      · exact absurd hactive hrunning

theorem OsChild.Watched.refl (ch : OsChild) : ch.Watched ch := .inl rfl

theorem OsChild.reap_reap (ch : OsChild) : ch.reap.reap = ch.reap := by
  obtain ⟨pid, status⟩ := ch
  cases status <;> rfl

theorem OsChild.Watched.reap_eq (h : ch.Watched ch') : ch'.reap = ch.reap := by
  obtain rfl | rfl := h
  · rfl
  · exact ch.reap_reap

theorem OsChild.Watched.reap (h : ch.Watched ch') : ch.reap.Watched ch'.reap := .inl h.reap_eq

theorem OsChild.stable_watched : OsChild.Stable OsChild.Watched := by
  rintro s t ch ch' (rfl | rfl)
  · exact .refl _
  · obtain ⟨pid, status⟩ := ch
    cases status with
    | running => exact .refl _
    | exited s' t' => exact .inr rfl
    | reaped s' t' => exact .inl rfl

theorem Process.Mirrors.watched (h : p.Mirrors p') : p.Watched p' := { h with state := .inl h.state }

namespace World

/-- The children whose exits were collected in the second world only are those of outlived
processes among `ids`. -/
structure CollectedFor (ids : ProcessId → Prop) (w w' : World) : Prop where
  collected : ∀ id p p', ids id → w.processes.lookup id = some p → w'.processes.lookup id = some p' → p.Outlived p' →
    ∃ c ch', p.child = some c ∧ w'.children[c]? = some ch' ∧ ch'.isReaped = true
  holder : ∀ c, w'.children[c]? ≠ w.children[c]? → ∃ id p p', ids id ∧ w.processes.lookup id = some p ∧
    w'.processes.lookup id = some p' ∧ p.Outlived p' ∧ p.child = some c

/-- `w'` is `w` with some more queries. -/
structure Watched (w w' : World) : Prop where
  alike : Alike (fun _ => Process.Watched) OsChild.Watched w w'
  exits : CollectedFor (fun _ => True) w w'

theorem Mirrors.watched (h : Mirrors w w') : Watched w w' where
  alike := Alike.mono h (fun _ _ _ _ _ hp => hp.watched) fun _ ch ch' _ _ heq => .inl heq.symm
  exits := by
    refine ⟨fun id p p' _ hp hp' houtlived => ?_, fun c hc => absurd (by rw [h.children_eq]) hc⟩
    have hstate := (h.processes.entry id p p' hp hp').state
    obtain ⟨hactive | hactive, hterminated⟩ := houtlived <;> rw [hstate, hactive] at hterminated <;>
      cases hterminated

/-- The next tick is the same for both. -/
theorem CollectedFor.tick {E : ProcessId → Process → Process → Prop} {C : OsChild → OsChild → Prop}
    {ids : ProcessId → Prop} (h : CollectedFor ids w w') (halike : Alike E C w w') (env : Env) :
    CollectedFor ids (w.tick env) (w'.tick env) where
  collected id p p' hid hp hp' houtlived := by
    obtain ⟨c, ch, hc, hch, hreaped⟩ := h.collected id p p' hid hp hp' houtlived
    obtain ⟨ch', hch', hage⟩ := w'.ages_tick env c ch hch
    exact ⟨c, ch', hc, hch', by rw [hage.final hreaped, hreaped]⟩
  holder c hc := h.holder c fun heq => hc (halike.tick_child_eq env heq)

theorem Watched.tick (h : Watched w w') (env : Env) : Watched (w.tick env) (w'.tick env) :=
  ⟨h.alike.tick OsChild.stable_watched env, h.exits.tick h.alike env⟩

/-! ### Queries -/

/-- Time passes while the manager makes no call. -/
def idle (env : Env) (n : ℕ) (w : World) : World := (World.tick env)^[n] w

/-- The `try_wait` of a query of `id`, if it makes one, does not fail. -/
def QueryWorks (env : Env) (id : ProcessId) (w : World) : Prop :=
  ∀ p ∈ w.processes.lookup id, p.Active → env.waitFails w.ticks = false

instance (id : ProcessId) (w : World) : Decidable (w.QueryWorks env id) :=
  inferInstanceAs (Decidable (∀ p ∈ w.processes.lookup id, _))

theorem ticks_tryWait (env : Env) (c : ℕ) (w : World) : (w.tryWait env c).ticks = w.ticks + 1 := by
  unfold tryWait
  cases w.waitResult env c <;> rfl

theorem tryWait_child_ne {k : ℕ} (hk : k ≠ c) (env : Env) (w : World) :
    (w.tryWait env c).children[k]? = (w.tick env).children[k]? := by
  unfold tryWait
  cases w.waitResult env c with
  | running => rfl
  | error => rfl
  | exited status => simp [hk.symm]

/-- What was collected stays as it is. -/
theorem tryWait_reaped {k : ℕ} (env : Env) (c : ℕ) (hch : (w.tick env).children[k]? = some ch)
    (hreaped : ch.isReaped = true) : (w.tryWait env c).children[k]? = some ch := by
  have hsame : ch.reap = ch := by
    obtain ⟨pid, status⟩ := ch
    cases status with
    | running => cases hreaped
    | exited s t => cases hreaped
    | reaped s t => rfl
  unfold tryWait
  cases w.waitResult env c with
  | running => exact hch
  | error => exact hch
  | exited status =>
    simp only [List.getElem?_modify, hch, Option.map_eq_map, Option.map_some]
    split_ifs
    · rw [hsame]
    · rfl

/-- A `try_wait` that does not fail finds the child running, or collects its exit. -/
theorem tryWait_works (hworks : env.waitFails w.ticks = false) (hch : w.children[c]? = some ch) :
    ((w.waitResult env c).state = .running ∧ (w.tryWait env c).children[c]? = (w.tick env).children[c]?) ∨
      ((w.waitResult env c).state.isTerminated = true ∧
        ∃ ch', (w.tryWait env c).children[c]? = some ch' ∧ ch'.isReaped = true) := by
  cases hresult : w.waitResult env c with
  | running => exact .inl ⟨rfl, by rw [(Process.waitResult_running hresult).1]⟩
  | error =>
    obtain ⟨ch', hch', _⟩ := w.ages_tick env c ch hch
    unfold waitResult at hresult
    rw [hch', hworks] at hresult
    cases hstatus : ch'.status <;> simp [hstatus] at hresult
  | exited status =>
    obtain ⟨ch', t, hch', hreaped⟩ := Process.waitResult_exited hresult
    refine .inr ⟨?_, ch', hch', by simp [OsChild.isReaped, hreaped]⟩
    simp only [WaitResult.state]
    split_ifs <;> rfl

theorem CollectedFor.of_lookup {ids : ProcessId → Prop} {v : World} (h : CollectedFor ids w w')
    (hmap : ∀ k, v.processes.lookup k = w'.processes.lookup k) (hchildren : v.children = w'.children) :
    CollectedFor ids w v where
  collected k p p' hk hp hp' houtlived := by
    rw [hchildren]
    exact h.collected k p p' hk hp (hmap k ▸ hp') houtlived
  holder c hc := by
    obtain ⟨k, p, p', hk, hp, hp', hrest⟩ := h.holder c (hchildren ▸ hc)
    exact ⟨k, p, p', hk, hp, (hmap k).trans hp', hrest⟩

/-- Only the second map is written, at an entry that is not outlived. -/
theorem CollectedFor.of_put {ids : ProcessId → Prop} {v : World} (h : CollectedFor ids w w')
    (hp : w.processes.lookup id = some p) (hp' : w'.processes.lookup id = some p') (hactive : ¬ p.Outlived p')
    {q' : Process} (hmap : v.processes = w'.processes.replace id q')
    (hother : ∀ k, p.child ≠ some k → v.children[k]? = w'.children[k]?)
    (hreaped : ∀ (k : ℕ) (ch : OsChild), w'.children[k]? = some ch → ch.isReaped = true →
      ∃ ch', v.children[k]? = some ch' ∧ ch'.isReaped = true)
    (hself : (q'.state.isTerminated = false ∧ ∀ k, p.child = some k → v.children[k]? = w'.children[k]?) ∨
      p.Outlived q' ∧ ids id ∧ ∃ c ch, p.child = some c ∧ v.children[c]? = some ch ∧ ch.isReaped = true) :
    CollectedFor ids w v where
  collected k q r hk hq hr houtlived := by
    rw [hmap, AssocMap.lookup_replace] at hr
    split_ifs at hr with hkid
    · subst hkid
      obtain rfl : p = q := Option.some.inj (hp.symm.trans hq)
      rw [hp', Option.map_some, Option.some.injEq] at hr
      subst hr
      obtain ⟨hstate, _⟩ | ⟨_, _, hcollected⟩ := hself
      · rw [houtlived.2] at hstate
        cases hstate
      · exact hcollected
    · obtain ⟨c, ch, hc, hch, hr'⟩ := h.collected k q r hk hq hr houtlived
      obtain ⟨ch', hch', hr''⟩ := hreaped c ch hch hr'
      exact ⟨c, ch', hc, hch', hr''⟩
  holder k hk := by
    have hkeep : w'.children[k]? ≠ w.children[k]? → ∃ id q r, ids id ∧ w.processes.lookup id = some q ∧
        v.processes.lookup id = some r ∧ q.Outlived r ∧ q.child = some k := by
      intro hne
      obtain ⟨i, q, r, hi, hq, hr, houtlived, hc⟩ := h.holder k hne
      have hne : i ≠ id := by
        rintro rfl
        obtain rfl : p = q := Option.some.inj (hp.symm.trans hq)
        obtain rfl : p' = r := Option.some.inj (hp'.symm.trans hr)
        exact hactive houtlived
      refine ⟨i, q, r, hi, hq, ?_, houtlived, hc⟩
      rw [hmap, AssocMap.lookup_replace, if_neg hne, hr]
    by_cases hc : p.child = some k
    · obtain ⟨_, hsame⟩ | ⟨houtlived, hid, _⟩ := hself
      · exact hkeep fun heq => hk ((hsame k hc).trans heq)
      · refine ⟨id, p, q', hid, hp, ?_, houtlived, hc⟩
        rw [hmap, AssocMap.lookup_replace, if_pos rfl, hp', Option.map_some]
    · exact hkeep fun heq => hk ((hother k hc).trans heq)

/-- `try_wait` may collect an exit in the second world. -/
theorem Alike.tryWait_right {E : ProcessId → Process → Process → Prop} (h : Alike E OsChild.Watched w w') (env : Env)
    (c : ℕ) : Alike E OsChild.Watched (w.tick env) (w'.tryWait env c) := by
  have htick := h.tick OsChild.stable_watched env
  unfold World.tryWait
  cases w'.waitResult env c with
  | running => exact htick
  | error => exact htick
  | exited status =>
    refine { htick with length := ?_, child := fun k ch ch' hch hch' => ?_ }
    · simp only [List.length_modify, htick.length]
    · rw [List.getElem?_modify] at hch'
      obtain ⟨ch₁, hch₁, rfl⟩ := Option.map_eq_some_iff.mp hch'
      have hrelated := htick.child k ch ch₁ hch hch₁
      split_ifs
      · exact .inr hrelated.reap_eq
      · exact hrelated

/-- The query finds the child running, or its exit. -/
theorem Watched.query_child (h : Watched w w') (env : Env) (hp : w.processes.lookup id = some p)
    (hp' : w'.processes.lookup id = some p') (hwatched : p.Watched p') (hactive : p'.Active) (hc : p.child = some c)
    (hfound : ((w'.waitResult env c).state = .running ∧
        (w'.tryWait env c).children[c]? = (w'.tick env).children[c]?) ∨
      ((w'.waitResult env c).state.isTerminated = true ∧
        ∃ ch', (w'.tryWait env c).children[c]? = some ch' ∧ ch'.isReaped = true)) :
    Watched (w.tick env) ((w'.tryWait env c).put id { p' with state := (w'.waitResult env c).state }) := by
  have hp₀ : (w.tick env).processes.lookup id = some p := hp
  have hp₀' : (w'.tick env).processes.lookup id = some p' := hp'
  have hkept : ¬ p.Outlived p' := fun houtlived => by
    have hstate := houtlived.2
    rw [hactive.not_terminated] at hstate
    cases hstate
  have hstep := osStep_tryWait (P := fun _ => True) env (Set.mem_univ c) w'
  refine ⟨(h.alike.tryWait_right env c).put_right fun q hq => ?_, ?_⟩
  · obtain rfl : p = q := Option.some.inj (hp.symm.trans hq)
    exact { hwatched with
      state := .inr ⟨hwatched.active hactive, hfound.imp (fun hrunning => hrunning.1) fun hexited => hexited.1⟩ }
  · have hput : ((w'.tryWait env c).put id { p' with state := (w'.waitResult env c).state }).processes =
        w'.processes.replace id { p' with state := (w'.waitResult env c).state } :=
      congrArg (AList.replace id _) hstep.processes
    refine (h.tick env).exits.of_put hp₀ hp₀' hkept hput (fun k hk => ?_)
      (fun k ch hch hreaped => ⟨ch, tryWait_reaped env c hch hreaped, hreaped⟩) ?_
    · have hne : k ≠ c := by
        rintro rfl
        exact hk hc
      exact tryWait_child_ne hne env w'
    · obtain ⟨hrunning, hsame⟩ | ⟨hexited, hcollected⟩ := hfound
      · refine .inl ⟨by rw [hrunning]; rfl, fun k hk => ?_⟩
        obtain rfl : c = k := Option.some.inj (hc.symm.trans hk)
        exact hsame
      · exact .inr ⟨⟨hwatched.active hactive, hexited⟩, trivial, c, hcollected.choose, hc, hcollected.choose_spec⟩

/-- A query that works, beside a world that does nothing in the meantime. -/
theorem Watched.query (h : Watched w w') (hheld : w'.ActiveHeld) (hr : w'.reaper = .running)
    (hworks : w'.QueryWorks env id) :
    Watched (w.idle env ((w'.query env id).ticks - w'.ticks)) (w'.query env id) := by
  rcases h.alike.processes.lookup_cases id with ⟨_, hp'⟩ | ⟨p, p', hp, hp', hwatched⟩
  · simp only [World.query, hp', Nat.sub_self, idle, Function.iterate_zero, id_eq]
    exact h
  · simp only [World.query, hp', pollEntry]
    obtain heq | ⟨hactive, ⟨hc, _⟩ | ⟨c, hc, heq⟩⟩ := Process.pollState_cases env p' w'
    · -- the state is settled: the entry is written back as it is
      have hmap : ∀ k, (w'.put id p').processes.lookup k = w'.processes.lookup k := by
        intro k
        rw [put_processes, AssocMap.lookup_replace]
        split_ifs with hk
        · rw [hk, hp', Option.map_some]
        · rfl
      rw [heq, put_ticks, Nat.sub_self, idle, Function.iterate_zero, id_eq]
      refine ⟨h.alike.put_right fun q hq => ?_, h.exits.of_lookup hmap rfl⟩
      exact Option.some.inj (hp.symm.trans hq) ▸ hwatched
    · obtain ⟨c, _, hc', _⟩ := hheld.uncollected hr hp' hactive
      rw [hc] at hc'
      cases hc'
    · obtain ⟨c', ch, hc', hch, _⟩ := hheld.uncollected hr hp' hactive
      obtain rfl : c = c' := Option.some.inj (hc.symm.trans hc')
      have hpc : p.child = some c := hwatched.child ▸ hc
      rw [heq, put_ticks, ticks_tryWait, Nat.add_sub_cancel_left, idle, Function.iterate_one]
      exact h.query_child env hp hp' hwatched hactive hpc (tryWait_works (hworks p' hp' hactive) hch)

/-! ### Calls that both make -/

/-- Both maps are written at `id`, where nobody is outlived afterwards. -/
theorem CollectedFor.of_put_both {ids ids' : ProcessId → Prop} {v v' : World} {q q' : Process}
    (h : CollectedFor ids w w') (hp : w.processes.lookup id = some p) (hp' : w'.processes.lookup id = some p')
    (hmap : v.processes = w.processes.replace id q) (hmap' : v'.processes = w'.processes.replace id q')
    (hids : ∀ k, ids' k → ids k) (hids' : ∀ k, k ≠ id → ids k → ids' k) (hself : ids' id → ¬ q.Outlived q')
    (hchildren : ∀ k : ℕ, w'.children[k]? = w.children[k]? ∨ p.Outlived p' ∧ p.child = some k →
      v'.children[k]? = v.children[k]?)
    (hreaped : ∀ (k : ℕ) (ch : OsChild), w'.children[k]? = some ch → ch.isReaped = true →
      v'.children[k]? = some ch) :
    CollectedFor ids' v v' where
  collected k r r' hk hr hr' houtlived := by
    rw [hmap, AssocMap.lookup_replace] at hr
    rw [hmap', AssocMap.lookup_replace] at hr'
    split_ifs at hr hr' with hkid
    · subst hkid
      rw [hp, Option.map_some, Option.some.injEq] at hr
      rw [hp', Option.map_some, Option.some.injEq] at hr'
      subst hr hr'
      exact absurd houtlived (hself hk)
    · obtain ⟨c, ch, hc, hch, hch'⟩ := h.collected k r r' (hids k hk) hr hr' houtlived
      exact ⟨c, ch, hc, hreaped c ch hch hch', hch'⟩
  holder k hk := by
    have hbefore : w'.children[k]? ≠ w.children[k]? := fun heq => hk (hchildren k (.inl heq))
    obtain ⟨i, r, r', hi, hr, hr', houtlived, hc⟩ := h.holder k hbefore
    have hne : i ≠ id := by
      rintro rfl
      obtain rfl : p = r := Option.some.inj (hp.symm.trans hr)
      obtain rfl : p' = r' := Option.some.inj (hp'.symm.trans hr')
      exact hk (hchildren k (.inr ⟨houtlived, hc⟩))
    refine ⟨i, r, r', hids' i hne hi, ?_, ?_, houtlived, hc⟩
    · rw [hmap, AssocMap.lookup_replace, if_neg hne, hr]
    · rw [hmap', AssocMap.lookup_replace, if_neg hne, hr']

/-- A child that only the second world has collected belongs to an outlived process. -/
theorem CollectedFor.child_eq {ids : ProcessId → Prop} (h : CollectedFor ids w w') (howned : Owned w')
    (halike : Alike (fun _ => Process.Watched) OsChild.Watched w w')
    (hp : w.processes.lookup id = some p) (hp' : w'.processes.lookup id = some p') (hnot : ¬ p.Outlived p')
    (hc : p.child = some c) : w'.children[c]? = w.children[c]? := by
  by_contra hne
  obtain ⟨i, q, q', _, hq, hq', houtlived, hqc⟩ := h.holder c hne
  have hwatched := halike.processes.entry id p p' hp hp'
  have hwatched' := halike.processes.entry i q q' hq hq'
  obtain rfl : i = id := howned.unique i id q' p' hq' hp' c (hwatched'.child.trans hqc) (hwatched.child.trans hc)
  obtain rfl : p = q := Option.some.inj (hp.symm.trans hq)
  obtain rfl : p' = q' := Option.some.inj (hp'.symm.trans hq')
  exact hnot houtlived

theorem not_outlived_of_state (hstate : p'.state = p.state) : ¬ p.Outlived p' := by
  rintro ⟨hactive, hterminated⟩
  rw [hstate, hactive.not_terminated] at hterminated
  cases hterminated

/-- No query has seen the exits of these processes. -/
def NoneOutlived (ids : List ProcessId) (w w' : World) : Prop :=
  ∀ id ∈ ids, ∀ p ∈ w.processes.lookup id, ∀ p' ∈ w'.processes.lookup id, ¬ p.Outlived p'

/-- Both runs poll the same dependencies. -/
structure Polling (deps : List ProcessId) (w w' : World) : Prop where
  watched : Watched w w'
  owned : Owned w'
  alive : NoneOutlived deps w w'

theorem Polling.pollEntry {deps : List ProcessId} (h : Polling deps w w') (env : Env) (hid : id ∈ deps)
    (hp : w.processes.lookup id = some p) (hp' : w'.processes.lookup id = some p') :
    (p'.pollState env w').1.state = (p.pollState env w).1.state ∧
      Polling deps (w.pollEntry env id p) (w'.pollEntry env id p') := by
  have hwatched := h.watched.alike.processes.entry id p p' hp hp'
  have hnot : ¬ p.Outlived p' := h.alive id hid p hp p' hp'
  have hstate : p'.state = p.state ∨ p.Active ∧ p'.Active := by
    obtain heq | ⟨hactive, hrunning | hterminated⟩ := hwatched.state
    · exact .inl heq
    · exact .inr ⟨hactive, .inr hrunning⟩
    · exact absurd ⟨hactive, hterminated⟩ hnot
  obtain ⟨s, heq, heq', halike, hchildren⟩ := h.watched.alike.pollState OsChild.stable_watched
    (fun _ _ h => h.reap) env hwatched.child hstate fun c hc =>
      h.watched.exits.child_eq h.owned h.watched.alike hp hp' hnot hc
  have hmap : ∀ {u : World} {r : Process}, (u.pollEntry env id r).processes =
      u.processes.replace id (r.pollState env u).1 := pollEntry_processes id _ _
  refine ⟨by rw [heq, heq'], ⟨?_, ?_⟩, ?_, ?_⟩
  · unfold World.pollEntry
    rw [heq, heq']
    exact halike.put { hwatched with state := .inl rfl }
  · refine h.watched.exits.of_put_both hp hp' hmap hmap (fun _ hk => hk) (fun _ _ hk => hk) (fun _ => ?_)
      (fun k hk => ?_) fun k ch hch hreaped => ?_
    · exact not_outlived_of_state (by rw [heq, heq'])
    · exact hchildren k (hk.resolve_right fun houtlived => hnot houtlived.1)
    · obtain ⟨ch', hch', hage⟩ := (Process.osStep_pollState (P := fun _ => True)).children k ch hch
      rw [hage.final hreaped] at hch'
      exact hch'
  · exact owned_move h.owned (.poll (C := fun _ _ _ => True) hp')
  · intro i hi q hq q' hq'
    rw [hmap, AssocMap.lookup_replace] at hq hq'
    split_ifs at hq hq' with hii
    · rw [hp, Option.map_some, Option.mem_def, Option.some.injEq] at hq
      rw [hp', Option.map_some, Option.mem_def, Option.some.injEq] at hq'
      subst hq hq'
      exact not_outlived_of_state (by rw [heq, heq'])
    · exact h.alive i hi q hq q' hq'

theorem Polling.allDepsRunning {deps : List ProcessId} (h : Polling deps w w') (env : Env) :
    (w'.allDepsRunning env deps).1 = (w.allDepsRunning env deps).1 ∧
      Polling deps (w.allDepsRunning env deps).2 (w'.allDepsRunning env deps).2 := by
  refine allDepsRunning_rel (J := Polling deps) (fun id _ _ h => ?_) (fun id _ _ h => ?_) (fun id hid w w' h => ?_) h
  · exact ⟨⟨h.watched.alike.lock _ _ id id, { h.watched.exits with }⟩, { h.owned with }, h.alive⟩
  · exact ⟨⟨h.watched.alike.unlock _ _ id id, { h.watched.exits with }⟩, { h.owned with }, h.alive⟩
  · rcases h.watched.alike.processes.lookup_cases id with hnone | ⟨p, p', hp, hp', hwatched⟩
    · exact .inl hnone
    · obtain ⟨hstate, hpolled⟩ := h.pollEntry env hid hp hp'
      refine .inr ⟨p, p', hp, hp', ?_, hstate, hpolled⟩
      exact (hwatched.state_iff (by decide) (by decide) rfl)

end World

end ProcessManager
