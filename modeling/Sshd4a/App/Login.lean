import Sshd4a.App.Format
import Sshd4a.Auth.Privilege

/-!
# Logging in with what the Settings screen stored

A username and a password typed into the Settings screen go through `putString` and
`storeCredentials` into the file, and a client then presents them to the native side. Nothing
on the way in checks what the way out needs, so a credential can be stored and be of no use.
`usable_iff` says exactly which ones can be used: the username has nothing in it that ends a
field, a line or a C string, both strings fit, and no line written before it is for the same
username with another hash or role.
-/

namespace Sshd4a

open Text Machine

/-! ## Storing -/

/-- The role, as the app spells it, of each pair of fields on the Settings screen. -/
def Branch.roleString : Branch → JString
  | .user => roleUser
  | .root => roleRoot
  | .shell => roleShell

/-- The store behind each pair of fields. -/
def storeFor : Branch → Option Bytes → UserPassStorage
  | .user => userPassDataStore
  | .root => rootPassDataStore
  | .shell => shellPassDataStore

/-- Both fields of a role are filled in and the screen is left: the file afterwards, if
    `putString` does not throw. -/
def enterCredentials (sha : Sha512) (b : Branch) (file : Option Bytes)
    (username password : JString) : Option (Option Bytes) :=
  let storage := storeFor b file
  match storage.putString storage.usernameKey (some username) with
  | none => none
  | some storage' =>
    match storage'.putString storage.passwordKey (some password) with
    | none => none
    | some storage'' => some (storage''.storeCredentials sha file)

theorem utf8_roleString (b : Branch) : utf8 b.roleString = b.role := by
  cases b <;> decide

/-- Two non-blank strings are always accepted, and become the entry of the role. -/
theorem enterCredentials_eq (sha : Sha512) (b : Branch) (file : Option Bytes) {u p : JString}
    (hu : isBlank u = false) (hp : isBlank p = false) :
    enterCredentials sha b file u p = some (writeAllAuthorizedUsers
      ((readAllAuthorizedUsers file).put b.roleString ⟨u, hash sha p⟩)) := by
  have hstore : ∀ storage : UserPassStorage, storage.usernameKey ≠ storage.passwordKey →
      (match storage.putString storage.usernameKey (some u) with
        | none => none
        | some storage' =>
          match storage'.putString storage.passwordKey (some p) with
          | none => none
          | some storage'' => some (storage''.storeCredentials sha file))
      = some (writeAuthorizedUser sha file ⟨storage.role, some u, true, some p⟩) := by
    intro storage hkeys
    simp [UserPassStorage.putString, hkeys.symm, UserPassStorage.storeCredentials,
      UserPassStorage.update]
  have hwrite : ∀ role, writeAuthorizedUser sha file ⟨role, some u, true, some p⟩
      = writeAllAuthorizedUsers ((readAllAuthorizedUsers file).put role ⟨u, hash sha p⟩) := by
    intro role
    simp [writeAuthorizedUser, updateAuthorizedUser, hu, hp]
  have hnew : ∀ role k k', (UserPassStorage.new file role k k').role = role ∧
      (UserPassStorage.new file role k k').usernameKey = k ∧
      (UserPassStorage.new file role k k').passwordKey = k' := by
    intro role k k'
    unfold UserPassStorage.new
    cases readAuthorizedUser file role <;> exact ⟨rfl, rfl, rfl⟩
  unfold enterCredentials
  cases b with
  | user =>
    obtain ⟨hrole, hk, hk'⟩ := hnew roleUser .sshdAuthUsername .sshdAuthPassword
    exact (hstore (userPassDataStore file) (by rw [userPassDataStore, hk, hk']; decide)).trans
      (congrArg some ((hwrite _).trans (by rw [userPassDataStore, hrole]; rfl)))
  | root =>
    obtain ⟨hrole, hk, hk'⟩ := hnew roleRoot .sshdAuthRootUsername .sshdAuthRootPassword
    exact (hstore (rootPassDataStore file) (by rw [rootPassDataStore, hk, hk']; decide)).trans
      (congrArg some ((hwrite _).trans (by rw [rootPassDataStore, hrole]; rfl)))
  | shell =>
    obtain ⟨hrole, hk, hk'⟩ := hnew roleShell .sshdAuthShellUsername .sshdAuthShellPassword
    exact (hstore (shellPassDataStore file) (by rw [shellPassDataStore, hk, hk']; decide)).trans
      (congrArg some ((hwrite _).trans (by rw [shellPassDataStore, hrole]; rfl)))

/-! ## The file afterwards -/

/-- The entries that are written before the one of a role. -/
def entriesBefore (b : Branch) (file : Option Bytes) : List (JString × UserPass) :=
  (readAllAuthorizedUsers file).entries.takeWhile (fun e => e.1 ≠ b.roleString)

theorem utf8_hash (sha : Sha512) (p : JString) : utf8 (hash sha p) = sha.base64 (utf8 p) :=
  utf8_latin1 fun b hb => by
    have := base64Encode_all (q := fun x => decide (x.toNat < 0x80)) (by decide) _ b hb
    simpa using this

theorem hash_ne_nil (sha : Sha512) (p : JString) : hash sha p ≠ [] := by
  rw [ne_eq, ← utf8_eq_nil, utf8_hash, Sha512.base64, base64Encode_eq_nil]
  intro h
  have := sha.hashsize (utf8 p)
  simp [h] at this

theorem not_mem_hash (sha : Sha512) (p : JString) {c : Char} (hc : c.toNat < 0x80)
    (h : byte c ∉ base64Pad :: codesBase64) : c ∉ hash sha p := by
  intro hm
  have hm' := (mem_utf8 hc).mpr hm
  rw [utf8_hash] at hm'
  exact h (mem_base64Encode _ hm')

section
variable {sha : Sha512} {b : Branch} {file : Option Bytes} {u p : JString}

theorem writable_new (hblank : isBlank u = false) (hcolon : ':' ∉ u) (hnl : '\n' ∉ u)
    (hnul : Char.ofNat 0 ∉ u) : Writable (b.roleString, ⟨u, hash sha p⟩) where
  username := ⟨hblank, hcolon, hnl, hnul⟩
  hash := ⟨hash_ne_nil sha p, not_mem_hash sha p (by decide) (by decide),
    not_mem_hash sha p (by decide) (by decide), not_mem_hash sha p (by decide) (by decide),
    not_mem_hash sha p (by decide) (by decide)⟩
  role := by
    have hrole : isBlank b.roleString = false ∧ ':' ∉ b.roleString ∧ '\r' ∉ b.roleString ∧
        '\n' ∉ b.roleString ∧ Char.ofNat 0 ∉ b.roleString := by cases b <;> decide
    exact hrole

/-- The native reader finds the new entry, unless an earlier line is for the same name. -/
theorem findUser_stored (hw : Writable (b.roleString, ⟨u, hash sha p⟩)) :
    findUser (writeAllAuthorizedUsers
        ((readAllAuthorizedUsers file).put b.roleString ⟨u, hash sha p⟩)) (utf8 u)
      = (findUser (some (utf8 ((entriesBefore b file).flatMap writtenLine))) (utf8 u)).or
          (some ⟨some (sha.base64 (utf8 p)), b.role⟩) := by
  obtain ⟨after, hput, hafter⟩ :=
    (readAllAuthorizedUsers file).entries_put b.roleString ⟨u, hash sha p⟩
  have hbefore : ∀ e ∈ entriesBefore b file, '\n' ∉ authorizedLine e.1 e.2 := fun e he =>
    (readable_readAll e ((List.takeWhile_prefix _).subset he)).newline
  have hall : ∀ e ∈ ((readAllAuthorizedUsers file).put b.roleString ⟨u, hash sha p⟩).entries,
      '\n' ∉ authorizedLine e.1 e.2 := by
    intro e he
    rw [hput] at he
    rcases List.mem_append.mp he with he | he
    · exact hbefore e he
    · rcases List.mem_cons.mp he with rfl | he
      · exact hw.newline
      · exact (readable_readAll e (hafter e he)).newline
  have hnew := nativeEntry_of_writable hw
  simp only [utf8_hash, utf8_roleString] at hnew
  rw [findUser, userEntries_writeAll hall, hput, findUser, userEntries_written hbefore,
    List.filterMap_append, List.filterMap_cons_some hnew, List.find?_append, ← entriesBefore]
  cases ((entriesBefore b file).filterMap nativeEntry).find? (fun e => e.1 = utf8 u) with
  | none => simp
  | some e => simp

theorem configFileExists_stored (hblank : isBlank u = false) :
    configFileExists (writeAllAuthorizedUsers
      ((readAllAuthorizedUsers file).put b.roleString ⟨u, hash sha p⟩)) 3 = true := by
  obtain ⟨after, hput, -⟩ :=
    (readAllAuthorizedUsers file).entries_put b.roleString ⟨u, hash sha p⟩
  have hne : ((readAllAuthorizedUsers file).put b.roleString ⟨u, hash sha p⟩).isEmpty = false := by
    rw [LinkedMap.isEmpty, hput]
    simp
  have hu : 1 ≤ (utf8 u).length := List.length_pos_iff.mpr fun h =>
    ne_nil_of_isBlank_false hblank (utf8_eq_nil.mp h)
  have hp : 1 ≤ (utf8 (hash sha p)).length := List.length_pos_iff.mpr fun h =>
    hash_ne_nil sha p (utf8_eq_nil.mp h)
  have hline : 3 ≤ (utf8 (writtenLine (b.roleString, ⟨u, hash sha p⟩))).length := by
    unfold writtenLine authorizedLine
    split <;>
      simp only [utf8_append, utf8_cons_ascii (show ':'.toNat < 0x80 by decide),
        List.length_append, List.length_cons] <;>
      omega
  rw [writeAllAuthorizedUsers, hne, hput]
  simp only [Bool.false_eq_true, if_false, configFileExists, List.flatMap_append,
    List.flatMap_cons, utf8_append, List.length_append, decide_eq_true_eq]
  omega

end

/-! ## A fresh session -/

/-- A client can send these strings, and this is what it sends. -/
structure SendsPassword (payload username password : Bytes) : Prop where
  payload : payload = passwordPayload username password
  username : username.length < 0x100000000
  password : password.length < 0x100000000

section
variable {sha : Sha512} {cfg : Config} {start : SessionStart} {req : Request} {u p : Bytes}

theorem usernameFor_init :
    (Session.init cfg start).usernameFor (passwordHeader u p)
      = if maxUsernameLen < u.length then none else some u := by
  rw [Session.usernameFor, username_init]
  rfl

theorem attempt_of_fresh_login (hsend : SendsPassword req.payload u p) {s' : Session}
    (hs : step sha cfg (Session.init cfg start) req = some s')
    (hdone : s'.authstate.authdone = true) :
    p.length ≤ dropbearMaxPasswordLen ∧
      ∃ auth, Attempt cfg req (Session.init cfg start) (passwordHeader u p) auth p ∧
        s' = tryPassword sha cfg.svrOpts req.users p ((Session.init cfg start).atCheck auth) := by
  have hheader := readHeader_passwordPayload hsend.username p
  rw [← hsend.payload] at hheader
  by_cases hlong : maxStringLen < u.length
  · -- `buf_getstring` exits before anything is looked at.
    rw [if_pos hlong] at hheader
    rw [step_of_live rfl, Option.some.injEq, recvMsgUserauthRequest,
      if_neg (by simp [authdone_init]), hheader] at hs
    rw [← hs] at hdone
    exact absurd hdone (by simp [Session.stop, authdone_init])
  · rw [if_neg hlong] at hheader
    obtain ⟨auth, password, ha, hs'⟩ :=
      (step_effect hs).attempt_of_success Credentials.init hheader rfl authdone_init hdone
    have hread := ha.password
    rw [passwordHeader, readPassword_sshString hsend.password] at hread
    split at hread
    · exact absurd hread (by simp)
    · next hplen =>
      cases hread
      exact ⟨Nat.le_of_not_lt hplen, auth, ha, hs'⟩

/-- **One password request in a fresh session**: when it logs in, and as what. -/
theorem fresh_login_iff (hsend : SendsPassword req.payload u p) (b : Branch)
    (hen : (Session.init cfg start).authstate.authtypes.password = true) :
    (∃ s', step sha cfg (Session.init cfg start) req = some s' ∧ LoggedInAs cfg b s') ↔
      u.length ≤ maxUsernameLen ∧ 0 ∉ u ∧ p.length ≤ dropbearMaxPasswordLen ∧
      Accepts sha req.users u (Session.init cfg start).heldPasswd p ∧
      branchOf (sshd4aGetRoleForUser req.users u) = b := by
  have hcred : Credentials cfg start (Session.init cfg start).authstate := Credentials.init
  constructor
  · rintro ⟨s', hs, hlogged⟩
    obtain ⟨hplen, auth, ha, rfl⟩ := attempt_of_fresh_login hsend hs hlogged.authdone
    by_cases hulen : maxUsernameLen < u.length
    · exact absurd hlogged (ha.not_loggedInAs sha hcred (usernameFor_init.trans (if_pos hulen)) b)
    · have hfor : (Session.init cfg start).usernameFor (passwordHeader u p) = some u :=
        usernameFor_init.trans (if_neg hulen)
      obtain ⟨-, hnul, -⟩ := (ha.credentials hcred).named u ((ha.username hcred).trans hfor)
      exact ⟨Nat.le_of_not_lt hulen, hnul, hplen, (ha.loggedInAs_iff sha hcred hfor
        (ha.branch_of_roleFrom hcred RoleFrom.init hfor) b).mp hlogged⟩
  · rintro ⟨hulen, hnul, hplen, haccepts⟩
    have ha : Attempt cfg req (Session.init cfg start) (passwordHeader u p)
        (firstRequest cfg req.users u (Session.init cfg start).authstate) p :=
      attempt_passwordPayload hsend.payload authdone_init (Nat.le_trans hulen (by decide)) hplen
        (checkusername_first hulen hnul username_init hcred.notFailed) hen
    have hfor : (Session.init cfg start).usernameFor (passwordHeader u p) = some u :=
      usernameFor_init.trans (if_neg (Nat.not_lt.mpr hulen))
    refine ⟨_, step_of_live rfl, ?_⟩
    rw [ha.recv]
    exact (ha.loggedInAs_iff sha hcred hfor (ha.branch_of_roleFrom hcred RoleFrom.init hfor) b).mpr
      haccepts

end

theorem exists_genPass_ne (q : Bytes) :
    ∃ random, sshd4aGenerateSingleUsePassword random ≠ q := by
  by_cases h : sshd4aGenerateSingleUsePassword (Vector.replicate 8 0) = q
  · refine ⟨Vector.replicate 8 1, fun h' => ?_⟩
    exact absurd (h.trans h'.symm) (by decide)
  · exact ⟨_, h⟩

/-! ## Which credentials can be used -/

/-- A credential that was entered logs its user in with the role it was entered for, whatever
    the configuration of the server. -/
def Usable (sha : Sha512) (b : Branch) (file : Option Bytes) (u p : JString) : Prop :=
  ∀ file', enterCredentials sha b file u p = some file' →
    ∀ cfg authorizedKeys random pubkey, ∃ payload, SendsPassword payload (utf8 u) (utf8 p) ∧
      ∃ s', step sha cfg (Session.init cfg ⟨file', authorizedKeys, random⟩)
        ⟨payload, file', pubkey⟩ = some s' ∧ LoggedInAs cfg b s'

/-- The username has nothing in it that ends a field, a line or a C string, both strings are
    short enough, the password has no NUL, and what the file keeps of the roles before its own
    says nothing else about the username. -/
structure FitsNative (sha : Sha512) (b : Branch) (file : Option Bytes) (u p : JString) : Prop where
  username : ':' ∉ u ∧ '\n' ∉ u ∧ Char.ofNat 0 ∉ u
  usernameLen : (utf8 u).length ≤ maxUsernameLen
  password : Char.ofNat 0 ∉ p
  passwordLen : (utf8 p).length ≤ dropbearMaxPasswordLen
  first : ∀ e found, KeptFirst file (utf8 u) e found → e.1 ∈ rolesBefore file b.roleString →
    found.password = some (sha.base64 (utf8 p)) ∧ branchOf found.role = b

theorem branchOf_branch_role (b : Branch) : branchOf b.role = b := by
  cases b <;> decide

section
variable {sha : Sha512} {b : Branch} {file : Option Bytes} {u p : JString}

/-- What the reader must answer for the login to work, in terms of what it finds before. -/
theorem stored_answer_iff (hw : Writable (b.roleString, ⟨u, hash sha p⟩)) :
    (∃ found, findUser (writeAllAuthorizedUsers
          ((readAllAuthorizedUsers file).put b.roleString ⟨u, hash sha p⟩)) (utf8 u) = some found ∧
        found.password = some (sha.base64 (utf8 p)) ∧ branchOf found.role = b) ↔
      ∀ e found, KeptFirst file (utf8 u) e found → e.1 ∈ rolesBefore file b.roleString →
        found.password = some (sha.base64 (utf8 p)) ∧ branchOf found.role = b := by
  have hbefore : ∀ {found}, findUser (some (utf8 ((entriesBefore b file).flatMap writtenLine)))
      (utf8 u) = some found ↔
        ∃ e, KeptFirst file (utf8 u) e found ∧ e.1 ∈ rolesBefore file b.roleString :=
    findUser_rewritten_before
  rw [findUser_stored hw]
  cases hf : findUser (some (utf8 ((entriesBefore b file).flatMap writtenLine))) (utf8 u) with
  | none =>
    rw [Option.none_or]
    refine ⟨fun _ e found hkept hrole => ?_, fun _ => ⟨_, rfl, rfl, branchOf_branch_role b⟩⟩
    exact absurd (hf.symm.trans (hbefore.mpr ⟨e, hkept, hrole⟩)) (by simp)
  | some found =>
    rw [Option.some_or]
    constructor
    · rintro ⟨found', heq, hsame⟩ e found'' hkept hrole
      cases heq
      cases hf.symm.trans (hbefore.mpr ⟨e, hkept, hrole⟩)
      exact hsame
    · intro h
      obtain ⟨e, hkept, hrole⟩ := hbefore.mp hf
      exact ⟨found, rfl, h e found hkept hrole⟩

end

section
variable {sha : Sha512} {b : Branch} {file : Option Bytes} {u p : JString}

/-- The stored file enables the password method in every session that starts with it. -/
theorem enabled_stored (hu : isBlank u = false) (cfg : Config) (authorizedKeys : Option Bytes)
    (random : Vector UInt8 8) :
    (Session.init cfg ⟨writeAllAuthorizedUsers
      ((readAllAuthorizedUsers file).put b.roleString ⟨u, hash sha p⟩), authorizedKeys,
      random⟩).authstate.authtypes.password = true := by
  have hexists : configFileExists (writeAllAuthorizedUsers
      ((readAllAuthorizedUsers file).put b.roleString ⟨u, hash sha p⟩)) 3 = true :=
    configFileExists_stored hu
  cases hfile : writeAllAuthorizedUsers
      ((readAllAuthorizedUsers file).put b.roleString ⟨u, hash sha p⟩) with
  | none =>
    rw [hfile] at hexists
    exact absurd hexists (by decide)
  | some content =>
    rw [hfile] at hexists
    exact password_enabled Credentials.init rfl hexists

theorem fitsNative_of_usable (hu : isBlank u = false) (hp : isBlank p = false)
    (huse : Usable sha b file u p) : FitsNative sha b file u p := by
  -- A server whose own string is not the password.
  obtain ⟨random, hrandom⟩ := exists_genPass_ne (utf8 p)
  obtain ⟨payload, hsend, hlogin⟩ :=
    huse _ (enterCredentials_eq sha b file hu hp) (appConfig true) none random .unknownAlgorithm
  obtain ⟨hulen, -, hplen, ⟨hpnul, hmatch⟩, hbranch⟩ :=
    (fresh_login_iff hsend b (enabled_stored hu _ _ _)).mp hlogin
  simp only at hmatch hbranch
  rw [sshd4aGetRoleForUser_eq] at hbranch
  have hfound : ∃ found, findUser (writeAllAuthorizedUsers
        ((readAllAuthorizedUsers file).put b.roleString ⟨u, hash sha p⟩)) (utf8 u) = some found ∧
      found.password = some (sha.base64 (utf8 p)) ∧ branchOf found.role = b := by
    cases hfield : passwordField (writeAllAuthorizedUsers
        ((readAllAuthorizedUsers file).put b.roleString ⟨u, hash sha p⟩)) (utf8 u) with
    | none =>
      rw [hfield] at hmatch
      exact absurd hmatch.symm hrandom
    | some hash' =>
      obtain ⟨found, hf, hpass⟩ := Option.bind_eq_some_iff.mp hfield
      rw [hf] at hbranch
      rw [hfield] at hmatch
      exact ⟨found, hf, by rw [hpass, hmatch], hbranch⟩
  obtain ⟨found, hf, hsays⟩ := hfound
  obtain ⟨hcolon, hnl, hnul⟩ := findUser_name hf
  rw [mem_utf8 (by decide)] at hcolon hnl
  rw [nul_free] at hnul hpnul
  exact ⟨⟨hcolon, hnl, hnul⟩, hulen, hpnul, hplen,
    (stored_answer_iff (writable_new hu hcolon hnl hnul)).mp ⟨found, hf, hsays⟩⟩

theorem usable_of_fitsNative (hu : isBlank u = false) (hp : isBlank p = false)
    (hfits : FitsNative sha b file u p) : Usable sha b file u p := by
  intro file' hstored cfg authorizedKeys random pubkey
  cases (enterCredentials_eq sha b file hu hp).symm.trans hstored
  obtain ⟨hcolon, hnl, hnul⟩ := hfits.username
  obtain ⟨found, hf, hpass, hbranch⟩ :=
    (stored_answer_iff (writable_new hu hcolon hnl hnul)).mpr hfits.first
  have hsend : SendsPassword (passwordPayload (utf8 u) (utf8 p)) (utf8 u) (utf8 p) :=
    ⟨rfl, Nat.lt_of_le_of_lt hfits.usernameLen (by decide),
      Nat.lt_of_le_of_lt hfits.passwordLen (by decide)⟩
  refine ⟨_, hsend, (fresh_login_iff hsend b (enabled_stored hu _ _ _)).mpr
    ⟨hfits.usernameLen, nul_free.mpr hnul, hfits.passwordLen,
      ⟨nul_free.mpr hfits.password, ?_⟩, ?_⟩⟩
  · rw [passwordField, hf, Option.bind_some, hpass]
  · rw [sshd4aGetRoleForUser_eq, hf]
    exact hbranch

end

/-- **The credentials that can be used are the ones that fit the native side.** -/
theorem usable_iff (sha : Sha512) (b : Branch) (file : Option Bytes) (u p : JString)
    (hu : isBlank u = false) (hp : isBlank p = false) :
    Usable sha b file u p ↔ FitsNative sha b file u p :=
  ⟨fitsNative_of_usable hu hp, usable_of_fitsNative hu hp⟩

/-- A root user on an empty device. -/
theorem usable_alice :
    Usable (Sha512.const secretDigest) .root none ['a', 'l', 'i', 'c', 'e']
      ['s', 'e', 'c', 'r', 'e', 't'] := by
  refine (usable_iff (Sha512.const secretDigest) .root none _ _ (by decide) (by decide)).mpr
    ⟨by decide, by decide, by decide, by decide, fun e found _ hrole => ?_⟩
  -- There is no role before it.
  exact absurd hrole (by simp [rolesBefore, acceptedLines])

/-- A username with a colon is accepted and stored, and cannot log in. -/
theorem colon_name_unusable :
    ¬ Usable (Sha512.const secretDigest) .root none ['a', 'l', ':', 'i', 'c', 'e']
      ['s', 'e', 'c', 'r', 'e', 't'] := by
  intro h
  have hfits := fitsNative_of_usable (by decide) (by decide) h
  exact hfits.username.1 (by decide)

end Sshd4a
