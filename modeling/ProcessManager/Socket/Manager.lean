import ProcessManager.Library.AssocList
import ProcessManager.Library.Fold

/-! Sockets by name. `SocketBuilder` looks for a path at which there is no file; `SocketManager`
registers the socket, and no file comes into being. -/

namespace ProcessManager

/-- `XDG_RUNTIME_DIR`, if it is set, and the files that exist. -/
structure Host where
  xdgRuntimeDir : Option String
  fileExists : String → Bool

/-- `PathBuf::join` -/
def joinPath (dir name : String) : String :=
  if name.toList.head? = some '/' then name
  else if dir = "" ∨ dir.toList.getLast? = some '/' then dir ++ name
  else dir ++ "/" ++ name

structure Socket where
  path : String
  deriving DecidableEq

inductive SocketBuilderError where
  | socketAlreadyExists
  | xdgRuntimeDirNotSet
  | generateUniqueSocketNameFailed

namespace SocketBuilder

variable (host : Host)

def checkSocketExists (socketName : String) : Except SocketBuilderError Unit :=
  match host.xdgRuntimeDir with
  | none => .error .xdgRuntimeDirNotSet
  | some dir => if host.fileExists (joinPath dir socketName) then .error .socketAlreadyExists else .ok ()

/-- `{base_name}-{counter}` -/
def candidate (baseName : String) (counter : ℕ) : String := baseName ++ "-" ++ toString counter

/-- The loop of `generate_unique_socket_name`, with the number of candidates left. -/
def firstFree (dir baseName : String) : ℕ → ℕ → Except SocketBuilderError String
  | 0, _ => .error .generateUniqueSocketNameFailed
  | left + 1, counter =>
    if host.fileExists (joinPath dir (candidate baseName counter)) then firstFree dir baseName left (counter + 1)
    else .ok (candidate baseName counter)

/-- The counter runs from `0` to `10000`. -/
def generateUniqueSocketName (baseName : String) : Except SocketBuilderError String :=
  match host.xdgRuntimeDir with
  | none => .error .xdgRuntimeDirNotSet
  | some dir => firstFree host dir baseName 10001 0

def buildSocketPath (socketName : String) : Except SocketBuilderError Socket :=
  match host.xdgRuntimeDir with
  | none => .error .xdgRuntimeDirNotSet
  | some dir => .ok ⟨joinPath dir socketName⟩

def build (socketName : Option String) : Except SocketBuilderError Socket := do
  let name ← match socketName with
    | some socket => do
      checkSocketExists host socket
      pure socket
    | none => generateUniqueSocketName host "smearor-wrot"
  buildSocketPath host name

end SocketBuilder

inductive SocketManagerError where
  | alreadyRegistered (name : String)
  | builderError (e : SocketBuilderError)

/-- The sockets by name. -/
abbrev SocketManager := AssocMap String Socket

namespace SocketManager

def register (name : String) (socket : Socket) (m : SocketManager) : Except SocketManagerError Unit × SocketManager :=
  match m.lookup name with
  | some _ => (.error (.alreadyRegistered name), m)
  | none => (.ok (), m.insert name socket)

def create (host : Host) (name : String) (socketNameHint : Option String) (m : SocketManager) :
    Except SocketManagerError Socket × SocketManager :=
  match SocketBuilder.build host socketNameHint with
  | .error e => (.error (.builderError e), m)
  | .ok socket =>
    match m.register name socket with
    | (.error e, m) => (.error e, m)
    | (.ok (), m) => (.ok socket, m)

def remove (name : String) (m : SocketManager) : Option Socket × SocketManager :=
  (m.lookup name, m.erase name)

/-! ### Runs -/

/-- A call of the manager; sockets are created without a hint. -/
inductive Call where
  | create (name : String)
  | remove (name : String)

def step (host : Host) (m : SocketManager) : Call → SocketManager
  | .create name => (m.create host name none).2
  | .remove name => (m.remove name).2

def run (host : Host) (calls : List Call) (m : SocketManager) : SocketManager := calls.foldl (step host) m

/-- Any two registered sockets have different paths. -/
def PathsDiffer (m : SocketManager) : Prop :=
  ∀ name name' socket socket', m.lookup name = some socket → m.lookup name' = some socket' → name ≠ name' →
    socket.path ≠ socket'.path

/-- No generated name can be used: there is no directory, or all candidates exist in it. -/
def NoFreeName (host : Host) : Prop :=
  ∀ dir, host.xdgRuntimeDir = some dir →
    ∀ counter ≤ 10000, host.fileExists (joinPath dir (SocketBuilder.candidate "smearor-wrot" counter)) = true

/-- A `create` finds no free name, or its own name registered, or no socket at all. -/
def Alone (host : Host) (m : SocketManager) : Call → Prop
  | .create name => NoFreeName host ∨ name ∈ m ∨ ∀ other, other ∉ m
  | .remove _ => True

/-- After each call, any two registered sockets have different paths. -/
def AlwaysDiffer (host : Host) (calls : List Call) : Prop :=
  ∀ before, before <+: calls → PathsDiffer (run host before ∅)

/-- All registered sockets are the one that a `create` would build now. -/
def Alike (host : Host) (m : SocketManager) : Prop :=
  ∀ name socket, m.lookup name = some socket → SocketBuilder.build host none = .ok socket

variable {host : Host} {m : SocketManager} {name : String} {socket : Socket} {calls : List Call}

theorem firstFree_error_iff (dir baseName : String) (left counter : ℕ) :
    (∃ e, SocketBuilder.firstFree host dir baseName left counter = .error e) ↔
      ∀ c, counter ≤ c → c < counter + left →
        host.fileExists (joinPath dir (SocketBuilder.candidate baseName c)) = true := by
  induction left generalizing counter with
  | zero =>
    constructor
    · intro _ c hle hlt
      omega
    · exact fun _ => ⟨_, rfl⟩
  | succ left ih =>
    rw [SocketBuilder.firstFree]
    split_ifs with hfile
    · rw [ih]
      constructor
      · intro h c hle hlt
        by_cases hc : c = counter
        · rw [hc]
          exact hfile
        · exact h c (by omega) (by omega)
      · exact fun h c hle hlt => h c (by omega) (by omega)
    · constructor
      · exact fun ⟨_, h⟩ => nomatch h
      · exact fun h => absurd (h counter le_rfl (by omega)) hfile

/-- A socket is built unless there is no free name. -/
theorem build_none_cases (host : Host) :
    (NoFreeName host ∧ ∃ e, SocketBuilder.build host none = .error e) ∨
      (¬ NoFreeName host ∧ ∃ socket, SocketBuilder.build host none = .ok socket) := by
  cases hdir : host.xdgRuntimeDir with
  | none =>
    refine .inl ⟨fun dir h => ?_, .xdgRuntimeDirNotSet, ?_⟩
    · rw [hdir] at h
      cases h
    · simp [SocketBuilder.build, SocketBuilder.generateUniqueSocketName, hdir, bind, Except.bind]
  | some dir =>
    have hfree : NoFreeName host ↔ ∃ e, SocketBuilder.firstFree host dir "smearor-wrot" 10001 0 = .error e := by
      simp only [NoFreeName, hdir, Option.some.injEq, forall_eq', firstFree_error_iff, Nat.zero_le, forall_const,
        Nat.zero_add, Nat.lt_succ_iff]
    have hbuild : SocketBuilder.build host none =
        (SocketBuilder.firstFree host dir "smearor-wrot" 10001 0).map fun name => ⟨joinPath dir name⟩ := by
      simp only [SocketBuilder.build, SocketBuilder.generateUniqueSocketName, SocketBuilder.buildSocketPath, hdir]
      cases SocketBuilder.firstFree host dir "smearor-wrot" 10001 0 <;> rfl
    rw [hfree, hbuild]
    cases SocketBuilder.firstFree host dir "smearor-wrot" 10001 0 with
    | error e => exact .inl ⟨⟨e, rfl⟩, e, rfl⟩
    | ok name => exact .inr ⟨nofun, _, rfl⟩

/-! ### Calls -/

theorem create_of_error {e : SocketBuilderError} (h : SocketBuilder.build host none = .error e) :
    step host m (.create name) = m := by
  simp only [step, create, h]

theorem create_of_ok (h : SocketBuilder.build host none = .ok socket) :
    step host m (.create name) = if name ∈ m then m else m.insert name socket := by
  simp only [step, create, h, register]
  cases hname : m.lookup name with
  | some s =>
    rw [if_pos (AList.lookup_isSome.mp (by rw [hname]; rfl))]
  | none =>
    rw [if_neg (AList.lookup_eq_none.mp hname)]

/-- A new socket is like all others. -/
theorem alike_step (h : Alike host m) (call : Call) : Alike host (step host m call) := by
  cases call with
  | create name =>
    cases hbuild : SocketBuilder.build host none with
    | error e =>
      rw [create_of_error hbuild]
      exact h
    | ok socket =>
      rw [create_of_ok hbuild]
      split_ifs
      · exact h
      · exact AssocMap.forall_insert (Q := fun _ s => SocketBuilder.build host none = .ok s) h hbuild
  | remove name =>
    intro other s hs
    rw [step, remove, AssocMap.lookup_erase_eq] at hs
    split_ifs at hs
    exact h other s hs

/-- So the paths still differ after a call only if it has left no two sockets. -/
theorem pathsDiffer_step_iff (halike : Alike host m) (h : PathsDiffer m) (call : Call) :
    PathsDiffer (step host m call) ↔ Alone host m call := by
  cases call with
  | create name =>
    obtain ⟨hfree, e, hbuild⟩ | ⟨hfree, socket, hbuild⟩ := build_none_cases host
    · rw [create_of_error hbuild]
      exact iff_of_true h (.inl hfree)
    · rw [create_of_ok hbuild]
      split_ifs with hname
      · exact iff_of_true h (.inr (.inl hname))
      · constructor
        · intro hdiffer
          refine .inr (.inr fun other hother => ?_)
          obtain ⟨s, hs⟩ := Option.isSome_iff_exists.mp (AList.lookup_isSome.mpr hother)
          have hne : other ≠ name := fun heq => hname (heq ▸ hother)
          have hsame : socket = s := Except.ok.inj (hbuild.symm.trans (halike other s hs))
          refine hdiffer other name s socket ?_ ?_ hne (by rw [hsame])
          · rw [AssocMap.lookup_insert_eq, if_neg hne, hs]
          · rw [AssocMap.lookup_insert_eq, if_pos rfl]
        · rintro (hno | hin | hempty)
          · exact absurd hno hfree
          · exact absurd hin hname
          · have honly : ∀ other s, (m.insert name socket).lookup other = some s → other = name := by
              intro other s hs
              by_contra hne
              rw [AssocMap.lookup_insert_eq, if_neg hne] at hs
              exact hempty other (AList.lookup_isSome.mp (by rw [hs]; rfl))
            intro n n' s s' hs hs' hne
            exact absurd ((honly n s hs).trans (honly n' s' hs').symm) hne
  | remove name =>
    refine iff_of_true ?_ trivial
    intro n n' s s' hs hs' hne
    rw [step, remove, AssocMap.lookup_erase_eq] at hs hs'
    split_ifs at hs hs'
    exact h n n' s s' hs hs' hne

/-! ### Runs -/

theorem pathsDiffer_run_iff (calls : List Call) (halike : Alike host m) (h : PathsDiffer m) :
    (∀ before, before <+: calls → PathsDiffer (run host before m)) ↔
      Fold.Meets (Alone host) (step host) calls m := by
  induction calls generalizing m with
  | nil =>
    refine iff_of_true ?_ trivial
    intro before hbefore
    rw [List.prefix_nil.mp hbefore]
    exact h
  | cons call calls ih =>
    have hstep := pathsDiffer_step_iff halike h call
    constructor
    · intro hall
      have hfirst : PathsDiffer (step host m call) := hall [call] ⟨calls, rfl⟩
      refine ⟨hstep.mp hfirst, (ih (alike_step halike call) hfirst).mp fun before hbefore => ?_⟩
      exact hall (call :: before) (List.cons_prefix_cons.mpr ⟨rfl, hbefore⟩)
    · rintro ⟨halone, hrest⟩ before hbefore
      cases before with
      | nil => exact h
      | cons c before =>
        obtain ⟨rfl, htail⟩ := List.cons_prefix_cons.mp hbefore
        exact (ih (alike_step halike c) (hstep.mpr halone)).mpr hrest before htail

/-- The registered sockets always have different paths if and only if no `create` builds a socket
beside another one. -/
theorem alwaysDiffer_iff (host : Host) (calls : List Call) :
    AlwaysDiffer host calls ↔ Fold.Meets (Alone host) (step host) calls ∅ :=
  pathsDiffer_run_iff calls (fun _ _ h => nomatch h) fun _ _ _ _ h => nomatch h

/-- Two creates in an empty directory: both get the first path. -/
theorem not_alwaysDiffer :
    let host : Host := ⟨some "/run/user/1000", fun _ => false⟩
    let m := run host [.create "left", .create "right"] ∅
    m.lookup "left" = some ⟨"/run/user/1000/smearor-wrot-0"⟩ ∧
      m.lookup "right" = some ⟨"/run/user/1000/smearor-wrot-0"⟩ ∧
      ¬ AlwaysDiffer host [.create "left", .create "right"] := by
  intro host m
  have hleft : m.lookup "left" = some ⟨"/run/user/1000/smearor-wrot-0"⟩ := by decide +kernel
  have hright : m.lookup "right" = some ⟨"/run/user/1000/smearor-wrot-0"⟩ := by decide +kernel
  exact ⟨hleft, hright, fun h => h _ List.prefix_rfl "left" "right" _ _ hleft hright (by decide) rfl⟩

end SocketManager

end ProcessManager
