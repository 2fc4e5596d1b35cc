import Sshd4a.App.Format
import Sshd4a.Auth.Privilege

/-!
# A session while the app edits the file

The app rewrites `authorized_users` while a session is open, so the system here is the session
together with the file: its events are complete calls of `writeAuthorizedUser` and requests,
in any order.

The role a login gets should be the role of the line that let it in. The code reads the role
when the first username is accepted and the hash when a password comes, and throws away the
role that this second read finds, so an edit between the two separates them:
`removed_root_stays_root` is a session that keeps root's home and shell after the last root
entry was removed. What does hold is `roles_agree`: along every run in which the file gives the
session's user at each attempt the role it gave at the start of the session, every login has
the role of the line that let it in.
-/

namespace Sshd4a

open Text Machine

/-- One session and the file both sides use. -/
structure Server where
  session : Session
  file : Option Bytes

inductive Event
  /-- The app completes a call of `writeAuthorizedUser`. -/
  | rewrite (call : UserUpdate)
  /-- The session handles a request. -/
  | request (payload : Bytes) (pubkey : PubkeyCheck)

def Server.init (cfg : Config) (start : SessionStart) : Server :=
  ⟨Session.init cfg start, start.authorizedUsers⟩

def serverStep (sha : Sha512) (cfg : Config) (s : Server) : Event → Option Server
  | .rewrite call => some { s with file := writeAuthorizedUser sha s.file call }
  | .request payload pubkey =>
    (step sha cfg s.session ⟨payload, s.file, pubkey⟩).map fun session => { s with session }

/-- A password login has the role of the line whose hash was verified, and the plain user role
    when the file has no hash for the user and it was the session's own string that matched. -/
def RoleOfLine (sha : Sha512) (cfg : Config) (s : Server) (e : Event) : Prop :=
  ∀ payload pubkey header s', e = .request payload pubkey → serverStep sha cfg s e = some s' →
    readHeader payload = .ok header → header.methodname = authMethodPassword →
    s.session.authstate.authdone = false → s'.session.authstate.authdone = true →
    ∃ u b, s'.session.authstate.username = some u ∧ LoggedInAs cfg b s'.session ∧
      ((∃ line hash, sshd4aFindUser s.file (some u) = .ok (some line) ∧
          line.password = some hash ∧ b = branchOf line.role) ∨
        (passwordField s.file u = none ∧ b = .user))

/-- When a password is checked, the session has a username, and the file gives it the role that
    `fill_passwd` found for it, if that was in an earlier request. -/
def RoleUnchanged (cfg : Config) (s : Server) (e : Event) : Prop :=
  ∀ payload pubkey header auth password, e = .request payload pubkey →
    Attempt cfg ⟨payload, s.file, pubkey⟩ s.session header auth password →
    ∃ u, s.session.usernameFor header = some u ∧
      ∀ b, s.session.authstate.branch = some b → b = branchOf (sshd4aGetRoleForUser s.file u)

section
variable {sha : Sha512} {cfg : Config} {start : SessionStart} {s s' : Server} {e : Event}

theorem serverStep_credentials (h : Credentials cfg start s.session.authstate)
    (hs : serverStep sha cfg s e = some s') : Credentials cfg start s'.session.authstate := by
  cases e with
  | rewrite call =>
    cases hs
    exact h
  | request payload pubkey =>
    obtain ⟨session, hstep, rfl⟩ := Option.map_eq_some_iff.mp hs
    exact h.step hstep

theorem branchOf_role (users : Option Bytes) (u : Bytes) :
    (∃ line hash, sshd4aFindUser users (some u) = .ok (some line) ∧ line.password = some hash ∧
        branchOf (sshd4aGetRoleForUser users u) = branchOf line.role) ∨
      (passwordField users u = none ∧ branchOf (sshd4aGetRoleForUser users u) = .user) := by
  rw [sshd4aFindUser_some, sshd4aGetRoleForUser_eq, passwordField]
  cases hf : findUser users u with
  | none => exact Or.inr ⟨rfl, rfl⟩
  | some found =>
    cases hp : found.password with
    | none =>
      refine Or.inr ⟨hp, ?_⟩
      rw [Option.map_some, Option.getD_some, findUser_role_of_no_password hf hp]
      rfl
    | some hash => exact Or.inl ⟨found, hash, rfl, hp, rfl⟩

theorem roleOfLine_of_unchanged (h : Credentials cfg start s.session.authstate)
    (hok : RoleUnchanged cfg s e) : RoleOfLine sha cfg s e := by
  rintro payload pubkey header s' rfl hs hread hm hfresh hdone
  obtain ⟨session, hstep, rfl⟩ := Option.map_eq_some_iff.mp hs
  obtain ⟨auth, password, ha, rfl⟩ :=
    (step_effect hstep).attempt_of_success h hread hm hfresh hdone
  obtain ⟨u, hu, hsame⟩ := hok payload pubkey header auth password rfl ha
  have hname := (ha.username h).trans hu
  -- Set now or earlier, the role is the one the file gives now.
  have hrole : auth.branch = some (branchOf (sshd4aGetRoleForUser s.file u)) := by
    obtain ⟨valid, checked⟩ := ha.checked
    rcases checkusername_role h checked.name with ⟨hsame', hbranch⟩ | ⟨-, hset, hbranch⟩
    · obtain ⟨-, -, -, -, b, -, hb, -⟩ := h.named u (hsame'.symm.trans hname)
      rw [hbranch, hb, hsame b hb]
    · rw [hbranch, Option.some.inj (hset.symm.trans hname)]
  obtain ⟨n, d, hstate, hd⟩ := ha.outcome_named sha h hu
  have haccepts : Accepts sha s.file u s.session.heldPasswd password := by
    rw [hstate] at hdone
    exact hd.mp hdone
  refine ⟨u, branchOf (sshd4aGetRoleForUser s.file u), ?_,
    (ha.loggedInAs_iff sha h hu hrole _).mpr ⟨haccepts, rfl⟩, branchOf_role s.file u⟩
  rw [hstate]
  exact hname

/-- **Role and credential belong together** in every run that does not change the role of the
    session's user between the start of the session and an attempt. -/
theorem roles_agree (sha : Sha512) (cfg : Config) (start : SessionStart) (events : List Event)
    (h : Along (serverStep sha cfg) (RoleUnchanged cfg) (Server.init cfg start) events) :
    Along (serverStep sha cfg) (RoleOfLine sha cfg) (Server.init cfg start) events :=
  h.imp (I := fun s => Credentials cfg start s.session.authstate)
    (fun _ _ _ hi _ hs => serverStep_credentials hi hs)
    (fun _ _ hi hok => roleOfLine_of_unchanged hi hok) Credentials.init

end

/-- The app gives the shell role to bob; then alice logs in. -/
def aliceAfterBob : List Event :=
  [.rewrite ⟨roleShell, some ['b', 'o', 'b'], true, some ['p', 'w']⟩,
    .request (passwordPayload aliceName secretPassword) .unknownAlgorithm]

def aliceStart : SessionStart := ⟨some aliceRootLine, none, Vector.replicate 8 0⟩

theorem roles_agree_alice :
    Along (serverStep (Sha512.const secretDigest) (appConfig false))
      (RoleOfLine (Sha512.const secretDigest) (appConfig false))
      (Server.init (appConfig false) aliceStart) aliceAfterBob := by
  refine roles_agree (Sha512.const secretDigest) (appConfig false) aliceStart aliceAfterBob
    ⟨fun payload pubkey header auth password he => (by cases he), fun s' hs => ?_⟩
  cases hs
  refine ⟨fun payload pubkey header auth password he ha => ?_, fun _ _ => trivial⟩
  cases he
  obtain ⟨valid, checked⟩ := ha.checked
  have hheader : header = passwordHeader aliceName secretPassword :=
    Except.ok.inj (checked.read.symm.trans (readHeader_passwordPayload_short (by decide) _))
  subst hheader
  refine ⟨aliceName, by decide, fun b hb => ?_⟩
  -- No role was set before this request.
  exact absurd (hb.symm.trans (Credentials.init.unnamed username_init).2.2) (by simp)

/-- A request of the method `none`, which every client starts with. -/
def nonePayload (username : Bytes) : Bytes :=
  sshString username ++ (sshString sshServiceConnection ++ sshString authMethodNone)

/-- `alice:x:root` -/
def rootText : JString := ['a', 'l', 'i', 'c', 'e', ':', 'x', ':', 'r', 'o', 'o', 't']

def rootStart : SessionStart := ⟨some (utf8 rootText), none, Vector.replicate 8 0⟩

/-- Alice connects as a root user, the app removes the root entry, and alice logs in with the
    single-use password. -/
def rootRemoved : List Event :=
  [.request (nonePayload aliceName) .unknownAlgorithm,
    .rewrite ⟨roleRoot, none, false, none⟩,
    .request (passwordPayload aliceName rootStart.genPass) .unknownAlgorithm]

/-- The session keeps root's home directory and shell. -/
theorem removed_root_stays_root :
    ¬ Along (serverStep (Sha512.const secretDigest) (appConfig true))
        (RoleOfLine (Sha512.const secretDigest) (appConfig true))
        (Server.init (appConfig true) rootStart) rootRemoved := by
  intro h
  have hremoved : writeAuthorizedUser (Sha512.const secretDigest) (some (utf8 rootText))
      ⟨roleRoot, none, false, none⟩ = none := by
    unfold writeAuthorizedUser
    rw [readAll_utf8]
    decide +kernel
  have hlast := (((h.2 _ rfl).2 _ rfl).1 : RoleOfLine _ _ ⟨_, writeAuthorizedUser _ _ _⟩ _)
  simp only [Server.init, rootStart, hremoved] at hlast
  obtain ⟨u, b, -, hlogged, ⟨line, hash, hfind, -⟩ | ⟨-, hb⟩⟩ :=
    hlast _ _ (passwordHeader aliceName rootStart.genPass) _ rfl rfl
      (readHeader_passwordPayload_short (by decide) _) rfl (by decide +kernel) (by decide +kernel)
  · cases hfind
  · have hroot := hlogged.branch
    rw [hb] at hroot
    exact absurd hroot (by decide +kernel)

end Sshd4a
