import Mathlib.Data.List.Perm.Subperm
import Sshd4a.Auth.Soundness

/-!
# Which logins are privileged

The role of a session is read once, by `fill_passwd` when the first username is accepted, and
the hash is read again at every attempt. `Effect.role` says what a request does to the role,
and everything here follows from it and from the specification of the check.

While the file does not change, the two reads agree, and a login with the home directory and
shell of `root` or `shell` is one whose hash was verified on a line that names this role
(`privileged_login_iff`). The line in question is the first one **with a colon** for the
username: the reader skips lines without one before it looks at the name. `firstLineFor` says
it in terms of the text alone.
-/

namespace Sshd4a

open Text Machine

/-! ## The role in force -/

/-- The role that names an arm of `fill_passwd`. -/
def Branch.role : Branch → Bytes
  | .user => sshd4aRoleUser
  | .root => sshd4aRoleRoot
  | .shell => sshd4aRoleShell

theorem branchOf_eq {role : Bytes} {b : Branch} (hb : b ≠ .user) :
    branchOf role = b ↔ role = b.role := by
  unfold branchOf
  by_cases hroot : role = sshd4aRoleRoot
  · rw [if_pos hroot, hroot]
    cases b with
    | user => exact absurd rfl hb
    | root => decide
    | shell => decide
  · rw [if_neg hroot]
    by_cases hshell : role = sshd4aRoleShell
    · rw [if_pos hshell, hshell]
      cases b with
      | user => exact absurd rfl hb
      | root => decide
      | shell => decide
    · rw [if_neg hshell]
      cases b with
      | user => exact absurd rfl hb
      | root => exact ⟨fun h => absurd h (by decide), fun h => absurd h hroot⟩
      | shell => exact ⟨fun h => absurd h (by decide), fun h => absurd h hshell⟩

/-- The session is authenticated, with the home directory and login shell of this arm. -/
structure LoggedInAs (cfg : Config) (b : Branch) (s : Session) : Prop where
  authdone : s.authstate.authdone = true
  branch : s.authstate.branch = some b
  pwDir : s.authstate.pwDir = some (b.pwDir cfg)
  pwShell : s.authstate.pwShell = some (b.pwShell cfg)

section
variable {sha : Sha512} {cfg : Config} {start : SessionStart} {req : Request} {s s' : Session}

theorem Credentials.loggedInAs (h : Credentials cfg start s.authstate) {b : Branch}
    (hd : s.authstate.authdone = true) (hb : s.authstate.branch = some b) : LoggedInAs cfg b s := by
  cases hu : s.authstate.username with
  | none => exact absurd ((h.unnamed hu).2.2.symm.trans hb) (by simp)
  | some u =>
    obtain ⟨-, -, -, p, b', -, hb', hdir, hshell⟩ := h.named u hu
    cases hb.symm.trans hb'
    exact ⟨hd, hb, hdir, hshell⟩

theorem checkusername_role {users : Option Bytes} {username : Bytes} {a auth : AuthState}
    {valid : Bool} (h : Credentials cfg start a)
    (hc : checkusername cfg users username a = .ok (valid, auth)) :
    (auth.username = a.username ∧ auth.branch = a.branch) ∨
    (a.username = none ∧ auth.username = some username ∧
      auth.branch = some (branchOf (sshd4aGetRoleForUser users username))) := by
  rcases checkusername_ok h hc with ⟨-, -, rfl⟩ | ⟨-, -, -, -, ⟨hn, rfl⟩ | ⟨-, rfl⟩⟩
  · exact Or.inl ⟨rfl, rfl⟩
  · exact Or.inr ⟨hn, rfl, rfl⟩
  · exact Or.inl ⟨rfl, rfl⟩

/-- **A request leaves username and role alone, or it is the one that sets both.** -/
theorem Effect.role (heff : Effect sha cfg req s s') (h : Credentials cfg start s.authstate) :
    (s'.authstate.username = s.authstate.username ∧ s'.authstate.branch = s.authstate.branch) ∨
    ∃ u, s.authstate.username = none ∧ s'.authstate.username = some u ∧
      s'.authstate.branch = some (branchOf (sshd4aGetRoleForUser req.users u)) := by
  cases heff with
  | idle => exact Or.inl ⟨rfl, rfl⟩
  | refused state => rw [state]; exact Or.inl ⟨rfl, rfl⟩
  | answered checked state =>
    rw [state]
    exact (checkusername_role h checked.name).imp_right fun hr => ⟨_, hr⟩
  | keyVerified checked _ state =>
    rw [state]
    exact (checkusername_role h checked.name).imp_right fun hr => ⟨_, hr⟩
  | @attempted header auth password attempt =>
    obtain ⟨valid, checked⟩ := attempt.checked
    have hrole : (auth.username = s.authstate.username ∧ auth.branch = s.authstate.branch) ∨
        ∃ u, s.authstate.username = none ∧ auth.username = some u ∧
          auth.branch = some (branchOf (sshd4aGetRoleForUser req.users u)) :=
      (checkusername_role h checked.name).imp_right fun hr => ⟨_, hr⟩
    cases hu : s.usernameFor header with
    | none =>
      obtain ⟨n, d, hstate, -⟩ := attempt.outcome_unnamed sha h hu
      rw [hstate]
      exact hrole
    | some u =>
      obtain ⟨n, d, hstate, -⟩ := attempt.outcome_named sha h hu
      rw [hstate]
      exact hrole

/-- The role an attempt runs with, when the session's role is the one the file gives. -/
theorem Attempt.loggedInAs_iff (sha : Sha512) (h : Credentials cfg start s.authstate)
    {header : Header} {auth : AuthState} {password u : Bytes}
    (ha : Attempt cfg req s header auth password) (hu : s.usernameFor header = some u)
    {now : Branch} (hnow : auth.branch = some now) (b : Branch) :
    LoggedInAs cfg b (tryPassword sha cfg.svrOpts req.users password (s.atCheck auth)) ↔
      Accepts sha req.users u s.heldPasswd password ∧ now = b := by
  obtain ⟨n, d, hstate, hd⟩ := ha.outcome_named sha h hu
  constructor
  · intro hl
    have hdone := hl.authdone
    have hbranch := hl.branch
    rw [hstate] at hdone hbranch
    exact ⟨hd.mp hdone, Option.some.inj (hnow.symm.trans hbranch)⟩
  · rintro ⟨hacc, rfl⟩
    have hcred : Credentials cfg start
        (tryPassword sha cfg.svrOpts req.users password (s.atCheck auth)).authstate :=
      (Effect.attempted ha).credentials h
    refine hcred.loggedInAs ?_ ?_
    · rw [hstate]
      exact hd.mpr hacc
    · rw [hstate]
      exact hnow

/-! ## A file that does not change -/

/-- The role of the session is the one the file gives its username. -/
def RoleFrom (users : Option Bytes) (s : Session) : Prop :=
  ∀ u, s.authstate.username = some u →
    s.authstate.branch = some (branchOf (sshd4aGetRoleForUser users u))

theorem RoleFrom.step (hs : step sha cfg s req = some s') (h : Credentials cfg start s.authstate)
    (hr : RoleFrom req.users s) : RoleFrom req.users s' := by
  intro u hu
  rcases (step_effect hs).role h with ⟨hname, hbranch⟩ | ⟨v, -, hname, hbranch⟩
  · rw [hbranch]
    exact hr u (hname.symm.trans hu)
  · cases hname.symm.trans hu
    exact hbranch

theorem Attempt.branch_of_roleFrom (h : Credentials cfg start s.authstate)
    (hr : RoleFrom req.users s) {header : Header} {auth : AuthState} {password u : Bytes}
    (ha : Attempt cfg req s header auth password) (hu : s.usernameFor header = some u) :
    auth.branch = some (branchOf (sshd4aGetRoleForUser req.users u)) := by
  obtain ⟨valid, checked⟩ := ha.checked
  have hname := (ha.username h).trans hu
  rcases checkusername_role h checked.name with ⟨hsame, hbranch⟩ | ⟨-, hset, hbranch⟩
  · rw [hbranch]
    exact hr u (hsame.symm.trans hname)
  · rw [hbranch, Option.some.inj (hset.symm.trans hname)]

theorem Attempt.not_loggedInAs (sha : Sha512) (h : Credentials cfg start s.authstate)
    {header : Header} {auth : AuthState} {password : Bytes}
    (ha : Attempt cfg req s header auth password) (hu : s.usernameFor header = none) (b : Branch) :
    ¬ LoggedInAs cfg b (tryPassword sha cfg.svrOpts req.users password (s.atCheck auth)) := by
  intro hlogged
  obtain ⟨n, d, hstate, -⟩ := ha.outcome_unnamed sha h hu
  have hbranch := hlogged.branch
  rw [hstate] at hbranch
  have hnone := ((ha.credentials h).unnamed ((ha.username h).trans hu)).2.2
  exact absurd (hnone.symm.trans hbranch) (by simp)

theorem RoleFrom.init {users : Option Bytes} : RoleFrom users (Session.init cfg start) := by
  intro u hu
  rw [username_init] at hu
  exact absurd hu (by simp)

theorem RoleFrom.run {users : Option Bytes} {reqs : List Request}
    (hreqs : ∀ r ∈ reqs, r.users = users)
    (hrun : run (Sshd4a.step sha cfg) (Session.init cfg start) reqs = some s) :
    Credentials cfg start s.authstate ∧ RoleFrom users s := by
  refine (Along.of_forall hreqs _).invariant
    (I := fun s => Credentials cfg start s.authstate ∧ RoleFrom users s) ?_
    ⟨Credentials.init, RoleFrom.init⟩ hrun
  intro s req s' hi husers hs
  exact ⟨hi.1.step hs, husers ▸ RoleFrom.step hs hi.1 (husers ▸ hi.2)⟩

/-! ## The line that decides -/

def hasColon (line : Bytes) : Bool := line.any isColon

/-- The non-empty fields of a line, after stripping trailing CR and LF. -/
def textFields (line : Bytes) : List Bytes := tokens isColon (line.rdropWhile isEol)

/-- The fields of the first line with a colon whose first field is the username. -/
def firstLineFor (content u : Bytes) : Option (List Bytes) :=
  (((content.splitOnP isNewline).filter hasColon).map textFields).find?
    (fun fields => fields.head? = some u)

/-- What fields two and three mean. -/
def fieldsEntry (fields : List Bytes) : UserLine := ⟨fields[1]?, fields[2]?.getD sshd4aRoleUser⟩

theorem any_isColon_rdropWhile (line : Bytes) :
    (line.rdropWhile isEol).any isColon = line.any isColon := by
  induction line using List.reverseRecOn with
  | nil => rfl
  | append_singleton line x ih =>
    by_cases hx : isEol x = true
    · have hcolon : isColon x = false := by
        simp only [isEol, Bool.or_eq_true, beq_iff_eq] at hx
        rcases hx with rfl | rfl <;> decide
      rw [List.rdropWhile_concat_pos _ _ _ hx, ih]
      simp [hcolon]
    · rw [List.rdropWhile_concat_neg _ _ _ hx]

theorem lineEntry_eq_textFields {line : Bytes} (hnul : 0 ∉ line) :
    lineEntry line = if hasColon line then
        (textFields line).head?.map (fun u => (u, fieldsEntry (textFields line)))
      else none := by
  have hcstr : cstr (line.rdropWhile isEol) = line.rdropWhile isEol :=
    cstr_eq_self.mpr fun hm => hnul ((List.rdropWhile_prefix _ _).subset hm)
  rw [lineEntry, lineFields_eq_tokens, hcstr, any_isColon_rdropWhile, textFields, ← hasColon]
  by_cases hany : hasColon line = true
  · rw [if_pos hany, if_pos hany]
    cases tokens isColon (line.rdropWhile isEol) with
    | nil => rfl
    | cons u rest => rfl
  · rw [if_neg hany, if_neg hany]
    rfl

/-- **The reader answers with the line that decides.** -/
theorem findUser_eq_firstLineFor {content : Bytes} (hnul : 0 ∉ content) (u : Bytes) :
    findUser (some content) u = (firstLineFor content u).map fieldsEntry := by
  have hlines : ∀ lines : List Bytes, (∀ line ∈ lines, 0 ∉ line) →
      ((lines.filterMap lineEntry).find? (fun e => e.1 = u)).map Prod.snd
        = (((lines.filter hasColon).map textFields).find?
            (fun fields => fields.head? = some u)).map fieldsEntry := by
    intro lines hl
    induction lines with
    | nil => rfl
    | cons line lines ih =>
      have ih' := ih fun l hm => hl l (List.mem_cons_of_mem _ hm)
      have hentry := lineEntry_eq_textFields (hl line (by simp))
      by_cases hany : hasColon line = true
      · rw [if_pos hany] at hentry
        rw [List.filter_cons_of_pos hany, List.map_cons]
        cases hhead : (textFields line).head? with
        | none =>
          rw [hhead, Option.map_none] at hentry
          rw [List.filterMap_cons_none hentry, ih', List.find?_cons_of_neg (by simp [hhead])]
        | some v =>
          rw [hhead, Option.map_some] at hentry
          rw [List.filterMap_cons_some hentry]
          by_cases hv : v = u
          · rw [List.find?_cons_of_pos (by simpa using hv),
              List.find?_cons_of_pos (by simp [hhead, hv])]
            rfl
          · rw [List.find?_cons_of_neg (by simpa using hv),
              List.find?_cons_of_neg (by simpa [hhead] using hv), ih']
      · rw [if_neg hany] at hentry
        rw [List.filterMap_cons_none hentry, List.filter_cons_of_neg hany, ih']
  exact hlines _ fun line hm h0 => hnul (mem_of_mem_splitOnP hm 0 h0)

theorem Branch.role_ne {b : Branch} (hb : b ≠ .user) : b.role ≠ sshd4aRoleUser := by
  cases b with
  | user => exact absurd rfl hb
  | root => decide
  | shell => decide

/-- The deciding line and the reader's answer say the same about a privileged role. -/
theorem firstLineFor_iff_findUser {content u hash : Bytes} (hnul : 0 ∉ content) {b : Branch}
    (hb : b ≠ .user) :
    (∃ fields, firstLineFor content u = some fields ∧ fields[2]? = some b.role ∧
        fields[1]? = some hash) ↔
      ∃ found, findUser (some content) u = some found ∧ found.role = b.role ∧
        found.password = some hash := by
  rw [findUser_eq_firstLineFor hnul]
  constructor
  · rintro ⟨fields, hf, hrole, hpass⟩
    exact ⟨fieldsEntry fields, by rw [hf]; rfl, by simp [fieldsEntry, hrole], hpass⟩
  · rintro ⟨found, hf, hrole, hpass⟩
    obtain ⟨fields, hfields, rfl⟩ := Option.map_eq_some_iff.mp hf
    refine ⟨fields, hfields, ?_, hpass⟩
    cases h2 : fields[2]? with
    | none =>
      simp only [fieldsEntry, h2, Option.getD_none] at hrole
      exact absurd hrole.symm (Branch.role_ne hb)
    | some role =>
      simp only [fieldsEntry, h2, Option.getD_some] at hrole
      rw [hrole]

/-- Whoever is accepted with a privileged role has a hash, and it is the one that matched. -/
theorem privileged_found {users : Option Bytes} {u held password : Bytes} {b : Branch}
    (hb : b ≠ .user) (hrole : sshd4aGetRoleForUser users u = b.role)
    (hmatch : match passwordField users u with
      | some hash => sha.base64 password = hash
      | none => password = held) :
    ∃ found, findUser users u = some found ∧ found.role = b.role ∧
      found.password = some (sha.base64 password) := by
  rw [sshd4aGetRoleForUser_eq] at hrole
  cases hf : findUser users u with
  | none =>
    rw [hf] at hrole
    exact absurd hrole.symm (Branch.role_ne hb)
  | some found =>
    rw [hf] at hrole
    refine ⟨found, rfl, hrole, ?_⟩
    rw [passwordField, hf, Option.bind_some] at hmatch
    cases hp : found.password with
    | none =>
      exact absurd (hrole.symm.trans (findUser_role_of_no_password hf hp)) (Branch.role_ne hb)
    | some hash =>
      rw [hp] at hmatch
      rw [hmatch]

theorem mem_of_findUser {content u : Bytes} {found : UserLine} (hnul : 0 ∉ content)
    (h : findUser (some content) u = some found) :
    ∃ fields, fieldsEntry fields = found ∧ ∀ field ∈ fields, ∀ y ∈ field, y ∈ content := by
  rw [findUser_eq_firstLineFor hnul] at h
  obtain ⟨fields, hfields, rfl⟩ := Option.map_eq_some_iff.mp h
  unfold firstLineFor at hfields
  refine ⟨fields, rfl, fun field hf y hy => ?_⟩
  obtain ⟨line, hline, rfl⟩ := List.mem_map.mp (List.mem_of_find?_eq_some hfields)
  have hy' : y ∈ line := (List.rdropWhile_prefix _ _).subset (mem_of_mem_tokens hf y hy)
  exact mem_of_mem_splitOnP (List.mem_filter.mp hline).1 y hy'

/-- A file in which some line names a privileged role enables the password method. -/
theorem configFileExists_of_role {content u : Bytes} {found : UserLine} {b : Branch}
    (hnul : 0 ∉ content) (hb : b ≠ .user) (h : findUser (some content) u = some found)
    (hr : found.role = b.role) : configFileExists (some content) 3 = true := by
  obtain ⟨fields, rfl, hmem⟩ := mem_of_findUser hnul h
  have hrole : b.role ∈ fields := by
    cases h2 : fields[2]? with
    | none =>
      simp only [fieldsEntry, h2, Option.getD_none] at hr
      exact absurd hr.symm (Branch.role_ne hb)
    | some role =>
      simp only [fieldsEntry, h2, Option.getD_some] at hr
      exact hr ▸ List.mem_of_getElem? h2
  -- Three different letters of the role are in the file.
  have hthree : ∀ letters : Bytes, letters.Nodup → letters.length = 3 →
      (∀ y ∈ letters, y ∈ b.role) → configFileExists (some content) 3 = true := by
    intro letters hnd hlen hsub
    have hle := (List.subperm_of_subset hnd fun y hy => hmem _ hrole y (hsub y hy)).length_le
    simpa [configFileExists, hlen] using hle
  cases b with
  | user => exact absurd rfl hb
  | root =>
    exact hthree (['r', 'o', 't'].map byte) (by decide) rfl (by simp [Branch.role, sshd4aRoleRoot])
  | shell =>
    exact hthree (['s', 'h', 'e'].map byte) (by decide) rfl (by simp [Branch.role, sshd4aRoleShell])

theorem password_enabled (h : Credentials cfg start s.authstate) {content : Bytes}
    (hstart : start.authorizedUsers = some content)
    (hexists : configFileExists (some content) 3 = true) :
    s.authstate.authtypes.password = true := by
  rw [h.types, svrAuthinitialise, sshd4aSvrAuthinitialise, hstart, if_pos hexists]
  split <;> rfl

theorem checkusername_accepts (h : Credentials cfg start s.authstate) (users : Option Bytes)
    {u : Bytes} (hu : ∀ v, s.authstate.username = some v → v = u)
    (hlen : u.length ≤ maxUsernameLen) (hnul : 0 ∉ u) :
    ∃ auth, checkusername cfg users u s.authstate = .ok (true, auth) ∧
      auth.authtypes = s.authstate.authtypes := by
  cases hn : s.authstate.username with
  | none => exact ⟨_, checkusername_first hlen hnul hn h.notFailed, rfl⟩
  | some v =>
    have hv := hu v hn
    subst hv
    exact ⟨_, checkusername_again h hn, rfl⟩

/-- **Privileged logins are the hash-verified ones.** -/
theorem privileged_login_iff (sha : Sha512) (cfg : Config) (start : SessionStart)
    (content : Bytes) (hcontent : 0 ∉ content) (hstart : start.authorizedUsers = some content)
    (reqs : List Request) (hreqs : ∀ r ∈ reqs, r.users = some content) (s : Session)
    (hrun : run (step sha cfg) (Session.init cfg start) reqs = some s)
    (hlive : s.ended = none) (hfresh : s.authstate.authdone = false)
    (req : Request) (husers : req.users = some content) (header : Header)
    (hread : readHeader req.payload = .ok header)
    (hservice : header.servicename = sshServiceConnection)
    (hmethod : header.methodname = authMethodPassword)
    (hname : ∀ v, s.authstate.username = some v → v = header.username)
    (hlen : header.username.length ≤ maxUsernameLen)
    (password : Bytes) (hpass : readPassword header.rest = some password) (hnul : 0 ∉ password)
    (b : Branch) (hb : b ≠ .user) :
    (∃ s', step sha cfg s req = some s' ∧ LoggedInAs cfg b s') ↔
      ∃ fields, firstLineFor content header.username = some fields ∧
        fields[2]? = some b.role ∧ fields[1]? = some (sha.base64 password) := by
  obtain ⟨hcred, hrole⟩ := RoleFrom.run hreqs hrun
  have hfor : s.usernameFor header = some header.username := if_neg (Nat.not_lt.mpr hlen)
  rw [firstLineFor_iff_findUser hcontent hb]
  constructor
  · rintro ⟨s', hs, hlogged⟩
    obtain ⟨auth, password', ha, rfl⟩ :=
      (step_effect hs).attempt_of_success hcred hread hmethod hfresh hlogged.authdone
    have hpw : password' = password := Option.some.inj (ha.password.symm.trans hpass)
    subst hpw
    have hbranch := ha.branch_of_roleFrom hcred (husers ▸ hrole) hfor
    obtain ⟨⟨-, hmatch⟩, hb'⟩ := (ha.loggedInAs_iff sha hcred hfor hbranch b).mp hlogged
    rw [husers] at hmatch hb'
    exact privileged_found hb ((branchOf_eq hb).mp hb') hmatch
  · rintro ⟨found, hfound, hfrole, hfpass⟩
    have hu0 : 0 ∉ header.username := (findUser_name hfound).2.2
    obtain ⟨auth, hcheck, htypes⟩ :=
      checkusername_accepts hcred req.users hname hlen hu0
    have hen : auth.authtypes.password = true := by
      rw [htypes]
      exact password_enabled hcred hstart (configFileExists_of_role hcontent hb hfound hfrole)
    have ha : Attempt cfg req s header auth password :=
      ⟨⟨true, hfresh, hread, hservice, hcheck⟩, hmethod, hpass, hen⟩
    refine ⟨_, step_of_live hlive, ?_⟩
    rw [ha.recv]
    refine (ha.loggedInAs_iff sha hcred hfor
      (ha.branch_of_roleFrom hcred (husers ▸ hrole) hfor) b).mpr ⟨⟨hnul, ?_⟩, ?_⟩
    · rw [husers, passwordField, hfound, Option.bind_some, hfpass]
    · rw [husers, sshd4aGetRoleForUser_eq, hfound]
      exact (branchOf_eq hb).mpr hfrole

end

/-- SHA-512 of `"secret"`. -/
def secretDigest : Vector UInt8 64 :=
  #v[189, 43, 26, 175, 126, 244, 240, 155, 233, 245, 44, 226, 216, 213, 153, 103,
     77, 129, 170, 157, 106, 68, 33, 105, 109, 196, 217, 61, 208, 97, 157, 104,
     44, 229, 107, 77, 100, 169, 239, 9, 119, 97, 206, 217, 158, 15, 103, 38,
     91, 95, 118, 8, 94, 91, 14, 231, 202, 70, 150, 178, 173, 111, 226, 178]

def secretPassword : Bytes := ['s', 'e', 'c', 'r', 'e', 't'].map byte

/-- A line `alice:HASH:root` whose hash is that of the password `secret`. -/
def aliceRootLine : Bytes :=
  aliceName ++ byte ':' :: base64Encode secretDigest.toList ++ byte ':' :: sshd4aRoleRoot

/-- Alice sends `secret` to a server with this file. -/
def secretRequest (content : Bytes) : Request where
  payload := passwordPayload aliceName secretPassword
  users := some content
  pubkey := .unknownAlgorithm

theorem privileged_login_alice :
    ∃ s', step (Sha512.const secretDigest) (appConfig false)
        (Session.init (appConfig false) ⟨some aliceRootLine, none, Vector.replicate 8 0⟩)
        (secretRequest aliceRootLine) = some s' ∧ LoggedInAs (appConfig false) .root s' := by
  refine (privileged_login_iff (Sha512.const secretDigest) (appConfig false)
    ⟨some aliceRootLine, none, Vector.replicate 8 0⟩ aliceRootLine (by decide +kernel) rfl []
    (by simp) _ rfl rfl (by decide) (secretRequest aliceRootLine) rfl
    (passwordHeader aliceName secretPassword) (readHeader_passwordPayload_short (by decide) _) rfl rfl
    ?_ (by decide) secretPassword (readPassword_sshString_short (by decide)) (by decide) .root
    (by decide)).mpr ?_
  · intro v hv
    rw [username_init] at hv
    exact absurd hv (by simp)
  · exact ⟨[aliceName, base64Encode secretDigest.toList, sshd4aRoleRoot], by decide +kernel, rfl,
      rfl⟩

/-- The deciding line without the condition that it has a colon. -/
def firstLineByName (content u : Bytes) : Option (List Bytes) :=
  ((content.splitOnP isNewline).map textFields).find? (fun fields => fields.head? = some u)

/-- A line that is the bare username is the first line by name, and the reader skips it: alice
    gets root from the second line. -/
theorem bare_name_skipped :
    ¬ ((∃ s', step (Sha512.const secretDigest) (appConfig false)
          (Session.init (appConfig false)
            ⟨some (aliceName ++ byte '\n' :: aliceRootLine), none, Vector.replicate 8 0⟩)
          (secretRequest (aliceName ++ byte '\n' :: aliceRootLine)) = some s' ∧
          LoggedInAs (appConfig false) .root s') ↔
        ∃ fields, firstLineByName (aliceName ++ byte '\n' :: aliceRootLine) aliceName = some fields ∧
          fields[2]? = some Branch.root.role ∧
          fields[1]? = some ((Sha512.const secretDigest).base64 secretPassword)) := by
  intro h
  have hlogin : LoggedInAs (appConfig false) .root (recvMsgUserauthRequest (Sha512.const secretDigest)
      (appConfig false) (secretRequest (aliceName ++ byte '\n' :: aliceRootLine))
      (Session.init (appConfig false)
        ⟨some (aliceName ++ byte '\n' :: aliceRootLine), none, Vector.replicate 8 0⟩)) :=
    ⟨by decide +kernel, by decide +kernel, by decide +kernel, by decide +kernel⟩
  obtain ⟨fields, hfields, hrole, -⟩ := h.mp ⟨_, rfl, hlogin⟩
  have hfirst : firstLineByName (aliceName ++ byte '\n' :: aliceRootLine) aliceName
      = some [aliceName] := by decide +kernel
  rw [hfirst, Option.some.injEq] at hfields
  rw [← hfields] at hrole
  exact absurd hrole (by decide)

end Sshd4a
