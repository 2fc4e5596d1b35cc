import Sshd4a.Auth.Request

/-!
# The password check

One specification for `svr_auth_password` from the point where a password was read:
`comparePassword_spec` for the comparison, `tryPassword_named` and `tryPassword_unnamed` for
the whole check in the two phases of a session, and on top of them `Attempted`, what an attempt
does seen from the state **before** the request.

Everything a session remembers of its secret is one string, `heldPasswd`: what `pw_passwd`
points to, or the placeholder that `fill_passwd` is about to put there.
-/

namespace Sshd4a

open Text

/-- The password field the file has for a username. -/
def passwordField (users : Option Bytes) (u : Bytes) : Option Bytes :=
  (findUser users u).bind UserLine.password

/-- The string a session compares with when the file has no password field. -/
def Session.heldPasswd (s : Session) : Bytes := s.authstate.pwPasswd.getD passwdPlaceholder

/-- The username a session has once the name in a request was checked: a name that is too long
    is ignored. -/
def Session.usernameFor (s : Session) (header : Header) : Option Bytes :=
  if maxUsernameLen < header.username.length then s.authstate.username else some header.username

/-- The check accepts a password: it has no NUL, and it is the preimage of the password field
    of the file or, without such a field, the string the session holds. -/
def Accepts (sha : Sha512) (users : Option Bytes) (u held password : Bytes) : Prop :=
  0 ∉ password ∧
    match passwordField users u with
    | some hash => sha.base64 password = hash
    | none => password = held

section
variable {sha : Sha512} {cfg : Config} {start : SessionStart}

theorem passwordField_ne_nil {users : Option Bytes} {u hash : Bytes}
    (h : passwordField users u = some hash) : hash ≠ [] := by
  obtain ⟨found, hf, hp⟩ := Option.bind_eq_some_iff.mp h
  exact findUser_password_ne_nil hf hp

/-! ## The comparison -/

/-- The comparison changes nothing but `failcount` and `authdone`, and sets the latter exactly
    when the two strings are there, not empty, and equal. -/
theorem comparePassword_spec (opts : SvrOpts) (crypt test : Option Bytes) (s : Session) :
    ∃ n d, (comparePassword opts crypt test s).authstate
        = { s.authstate with failcount := n, authdone := d } ∧
      (d = true ↔ s.authstate.authdone = true ∨ ∃ c, crypt = some c ∧ c ≠ [] ∧ test = some c) ∧
      SameEntries s (comparePassword opts crypt test s) := by
  have hmulti := opts.passwordFlags.2.2.2
  have hsame : SameEntries s s := fun u p => Iff.rfl
  -- Every refusal is the same failure message.
  have hfail : ∀ (h : ¬ ∃ c, crypt = some c ∧ c ≠ [] ∧ test = some c),
      ∃ n d, (sendMsgUserauthFailure opts false true s).authstate
          = { s.authstate with failcount := n, authdone := d } ∧
        (d = true ↔ s.authstate.authdone = true ∨ ∃ c, crypt = some c ∧ c ≠ [] ∧ test = some c) ∧
        SameEntries s (sendMsgUserauthFailure opts false true s) := by
    intro h
    refine ⟨_, s.authstate.authdone, authstate_sendMsgUserauthFailure .., ?_, ?_⟩
    · exact ⟨Or.inl, fun hd => hd.resolve_right h⟩
    · exact hsame.append (log_sendMsgUserauthFailure ..) (by simp)
  unfold comparePassword
  cases test with
  | none => exact hfail (by simp)
  | some test =>
    cases crypt with
    | none =>
      refine ⟨s.authstate.failcount, s.authstate.authdone, rfl, ?_, hsame⟩
      simp
    | some crypt =>
      cases crypt with
      | nil => exact hfail (by simp)
      | cons c cs =>
        simp only [hmulti, Bool.false_and, Bool.false_eq_true, if_false]
        by_cases heq : constantTimeStrcmp test (c :: cs) = 0
        · rw [if_pos heq]
          have htest := constantTimeStrcmp_eq_zero.mp heq
          refine ⟨s.authstate.failcount, true, rfl, ?_, ?_⟩
          · simp [htest]
          · exact hsame.append (log_sendMsgUserauthSuccess s) (by simp)
        · rw [if_neg heq]
          apply hfail
          rintro ⟨d, hd, -, ht⟩
          rw [Option.some.injEq] at hd ht
          exact heq (constantTimeStrcmp_eq_zero.mpr (ht.trans hd.symm))

/-! ## The check -/

/-- What `sshd4a_svr_auth_password` hands back for a session that has a username. -/
theorem sshd4aSvrAuthPassword_named {users : Option Bytes} {password u : Bytes} {a : AuthState}
    (hu : a.username = some u) :
    sshd4aSvrAuthPassword sha users password a
      = .ok (match passwordField users u with
        | some hash => (some hash, if 0 ∉ password then some (sha.base64 password) else none,
            { a with pwPasswd := some hash })
        | none => (a.pwPasswd, if 0 ∉ password then some password else none, a)) := by
  have hlen : (password.length = (cstr password).length) ↔ 0 ∉ password := by
    rw [eq_comm, length_cstr]
  unfold sshd4aSvrAuthPassword
  rw [hu, sshd4aFindUser_some]
  simp only [hlen]
  cases hf : passwordField users u with
  | none =>
    rw [passwordField] at hf
    rw [hf]
    by_cases hnul : 0 ∈ password
    · simp [hnul]
    · simp [hnul, cstr_eq_self.mpr hnul]
  | some hash =>
    have hne := passwordField_ne_nil hf
    rw [passwordField] at hf
    rw [hf]
    cases hash with
    | nil => exact absurd rfl hne
    | cons c cs => rfl

/-- Of the state, `sshd4a_svr_auth_password` writes `pw_passwd` only. -/
theorem sshd4aSvrAuthPassword_state {users : Option Bytes} {password : Bytes}
    {a a' : AuthState} {crypt test : Option Bytes}
    (h : sshd4aSvrAuthPassword sha users password a = .ok (crypt, test, a')) :
    ∃ p, a' = { a with pwPasswd := p } := by
  unfold sshd4aSvrAuthPassword at h
  split at h
  · cases h
  · dsimp only at h
    split at h
    · cases h
      exact ⟨_, rfl⟩
    · cases h
      exact ⟨_, rfl⟩

theorem tryPassword_named (sha : Sha512) (opts : SvrOpts) (users : Option Bytes)
    (password : Bytes) {u held : Bytes} {s : Session} (hu : s.authstate.username = some u)
    (hp : s.authstate.pwPasswd = some held) (hne : held ≠ []) :
    ∃ n d, (tryPassword sha opts users password s).authstate
        = { s.authstate with
            failcount := n, authdone := d
            pwPasswd := some ((passwordField users u).getD held) } ∧
      (d = true ↔ s.authstate.authdone = true ∨ Accepts sha users u held password) := by
  simp only [tryPassword, Session.act]
  rw [sshd4aSvrAuthPassword_named hu]
  unfold Accepts
  cases hf : passwordField users u with
  | some hash =>
    simp only
    obtain ⟨n, d, hstate, hdone, -⟩ := comparePassword_spec opts (some hash)
      (if 0 ∉ password then some (sha.base64 password) else none)
      { s.act (.authPassword s.authstate.username s.authstate.pwPasswd) with
        authstate := { s.authstate with pwPasswd := some hash } }
    refine ⟨n, d, hstate, hdone.trans ?_⟩
    by_cases hnul : 0 ∈ password
    · simp [hnul]
    · simp [hnul, passwordField_ne_nil hf]
  | none =>
    simp only
    obtain ⟨n, d, hstate, hdone, -⟩ := comparePassword_spec opts s.authstate.pwPasswd
      (if 0 ∉ password then some password else none)
      { s.act (.authPassword s.authstate.username s.authstate.pwPasswd) with
        authstate := s.authstate }
    refine ⟨n, d, ?_, hdone.trans ?_⟩
    · rw [hp] at hstate ⊢
      rw [show some ((none : Option Bytes).getD held) = s.authstate.pwPasswd from hp.symm]
      exact hstate
    · by_cases hnul : 0 ∈ password
      · simp [hnul]
      · simp [hnul, hp, hne]

/-- The check in a session that has none: it runs into the NULL unless no line of the file
    gets as far as the comparison, and then the password is compared with what initialisation
    left. -/
theorem tryPassword_unnamed (sha : Sha512) (opts : SvrOpts) (users : Option Bytes)
    (password : Bytes) {s : Session} (hu : s.authstate.username = none) :
    ∃ n d, (tryPassword sha opts users password s).authstate
        = { s.authstate with failcount := n, authdone := d } ∧
      (d = true → s.authstate.authdone = true ∨ s.authstate.pwPasswd = some password) := by
  have hfind : sshd4aFindUser users s.authstate.username
      = if userEntries users = [] then .ok none else .error .segv := by
    rw [hu, sshd4aFindUser_none]
  simp only [tryPassword, Session.act, sshd4aSvrAuthPassword]
  rw [hfind]
  by_cases he : userEntries users = []
  · rw [if_pos he]
    obtain ⟨n, d, hstate, hdone, -⟩ := comparePassword_spec opts s.authstate.pwPasswd
      (if password.length = (cstr password).length then some (cstr password) else none)
      (s.act (.authPassword s.authstate.username s.authstate.pwPasswd))
    refine ⟨n, d, hstate, fun hd => (hdone.mp hd).imp_right ?_⟩
    rintro ⟨c, hc, -, ht⟩
    by_cases hlen : password.length = (cstr password).length
    · rw [if_pos hlen, Option.some.injEq, cstr_eq_self.mpr (length_cstr.mp hlen.symm)] at ht
      rw [hc, ht]
    · rw [if_neg hlen] at ht
      exact absurd ht (by simp)
  · rw [if_neg he]
    exact ⟨s.authstate.failcount, s.authstate.authdone, rfl, Or.inl⟩

/-- Entering the check is recorded, with the pointers it was entered with. -/
theorem mem_log_tryPassword (opts : SvrOpts) {users : Option Bytes} {password : Bytes}
    {s : Session} {u p : Option Bytes} :
    .authPassword u p ∈ (tryPassword sha opts users password s).log ↔
      .authPassword u p ∈ s.log ∨ (u = s.authstate.username ∧ p = s.authstate.pwPasswd) := by
  have hentry : .authPassword u p
        ∈ (s.act (.authPassword s.authstate.username s.authstate.pwPasswd)).log ↔
      .authPassword u p ∈ s.log ∨ (u = s.authstate.username ∧ p = s.authstate.pwPasswd) := by
    simp [Session.act]
  unfold tryPassword
  simp only
  split
  · exact hentry
  · next crypt test auth _ =>
    obtain ⟨-, -, -, -, hsame⟩ := comparePassword_spec opts crypt test
      { s.act (.authPassword s.authstate.username s.authstate.pwPasswd) with authstate := auth }
    exact (hsame u p).trans hentry

/-! ## An attempt, seen from the state before the request -/

variable {req : Request} {s s' : Session} {header : Header} {auth : AuthState}
  {password u : Bytes}

theorem Attempt.cases (h : Credentials cfg start s.authstate)
    (ha : Attempt cfg req s header auth password) :
    (maxUsernameLen < header.username.length ∧ auth = s.authstate) ∨
    (header.username.length ≤ maxUsernameLen ∧ auth.username = some header.username ∧
      ((s.authstate.username = none ∧
          auth = firstRequest cfg req.users header.username s.authstate) ∨
        (s.authstate.username = some header.username ∧ auth = s.authstate))) := by
  obtain ⟨valid, hc⟩ := ha.checked
  rcases checkusername_ok h hc.name with ⟨-, hlen, heq⟩ | ⟨-, hlen, -, hu, hcase⟩
  · exact Or.inl ⟨hlen, heq⟩
  · exact Or.inr ⟨hlen, hu, hcase⟩

theorem Attempt.credentials (h : Credentials cfg start s.authstate)
    (ha : Attempt cfg req s header auth password) : Credentials cfg start auth := by
  obtain ⟨valid, hc⟩ := ha.checked
  exact h.checked hc.name

theorem Attempt.username (h : Credentials cfg start s.authstate)
    (ha : Attempt cfg req s header auth password) : auth.username = s.usernameFor header := by
  unfold Session.usernameFor
  rcases ha.cases h with ⟨hlen, rfl⟩ | ⟨hlen, hu, -⟩
  · rw [if_pos hlen]
  · rw [if_neg (Nat.not_lt.mpr hlen), hu]

theorem Attempt.held (h : Credentials cfg start s.authstate)
    (ha : Attempt cfg req s header auth password) (hu : s.usernameFor header = some u) :
    auth.pwPasswd = some s.heldPasswd := by
  have hknown : ∀ v, s.authstate.username = some v → s.authstate.pwPasswd = some s.heldPasswd := by
    intro v hv
    obtain ⟨-, -, -, p, -, hp, -⟩ := h.named v hv
    rw [Session.heldPasswd, hp, Option.getD_some]
  rw [← ha.username h] at hu
  rcases ha.cases h with ⟨-, rfl⟩ | ⟨-, -, ⟨-, rfl⟩ | ⟨hv, rfl⟩⟩
  · exact hknown u hu
  · rfl
  · exact hknown _ hv

theorem Attempt.authdone (h : Credentials cfg start s.authstate)
    (ha : Attempt cfg req s header auth password) : auth.authdone = false := by
  obtain ⟨valid, hc⟩ := ha.checked
  rcases ha.cases h with ⟨-, rfl⟩ | ⟨-, -, ⟨-, rfl⟩ | ⟨-, rfl⟩⟩ <;> exact hc.fresh

theorem Attempt.recv (ha : Attempt cfg req s header auth password) :
    recvMsgUserauthRequest sha cfg req s
      = tryPassword sha cfg.svrOpts req.users password (s.atCheck auth) := by
  obtain ⟨valid, hc⟩ := ha.checked
  have hpk : decide (authMethodPassword = authMethodPubkey) = false := by decide
  have hnone : ¬ (authMethodPassword = authMethodNone) := by decide
  have hread : svrAuthPassword sha cfg.svrOpts req.users true header.rest (s.atCheck auth)
      = tryPassword sha cfg.svrOpts req.users password (s.atCheck auth) := by
    have hp := ha.password
    unfold readPassword at hp
    unfold svrAuthPassword
    cases hb : bufGetbool header.rest with
    | error stop => simp [hb] at hp
    | ok r =>
      obtain ⟨changepw, rest⟩ := r
      simp only [hb] at hp ⊢
      cases changepw with
      | true => simp at hp
      | false =>
        simp only [Bool.false_eq_true, if_false] at hp ⊢
        cases hg : bufGetstring rest with
        | error stop => simp [hg] at hp
        | ok r =>
          obtain ⟨password', rest'⟩ := r
          simp only [hg] at hp ⊢
          by_cases hlen : dropbearMaxPasswordLen < password'.length
          · simp [hlen] at hp
          · rw [if_neg hlen, Option.some.injEq] at hp
            subst hp
            rw [if_neg (by simpa using hlen)]
  unfold recvMsgUserauthRequest
  rw [if_neg (by simp [hc.fresh])]
  simp only [hc.read]
  rw [if_neg (not_not.mpr hc.service), authstate_sendBanner, hc.name]
  simp only [dispatchMethod, ha.method, hpk, if_neg hnone, ha.enabled, decide_true,
    Bool.and_false, Bool.and_true, Bool.false_eq_true, if_false, if_true]
  exact hread

/-- **What an attempt does in a session that has, or now gets, a username.** -/
theorem Attempt.outcome_named (sha : Sha512) (h : Credentials cfg start s.authstate)
    (ha : Attempt cfg req s header auth password) (hu : s.usernameFor header = some u) :
    ∃ n d, (tryPassword sha cfg.svrOpts req.users password (s.atCheck auth)).authstate
        = { auth with
            failcount := n, authdone := d
            pwPasswd := some ((passwordField req.users u).getD s.heldPasswd) } ∧
      (d = true ↔ Accepts sha req.users u s.heldPasswd password) := by
  have hheld := ha.held h hu
  have hname : (s.atCheck auth).authstate.username = some u := (ha.username h).trans hu
  have hne := (ha.credentials h).passwdNe _ hheld
  obtain ⟨n, d, hstate, hdone⟩ :=
    tryPassword_named sha cfg.svrOpts req.users password hname hheld hne
  refine ⟨n, d, hstate, hdone.trans ?_⟩
  rw [show (s.atCheck auth).authstate.authdone = false from ha.authdone h]
  simp

/-- **What an attempt does in a session without one**: only the single-use password that
    initialisation put in `pw_passwd` can be accepted. -/
theorem Attempt.outcome_unnamed (sha : Sha512) (h : Credentials cfg start s.authstate)
    (ha : Attempt cfg req s header auth password) (hu : s.usernameFor header = none) :
    ∃ n d, (tryPassword sha cfg.svrOpts req.users password (s.atCheck auth)).authstate
        = { auth with failcount := n, authdone := d } ∧
      (d = true → cfg.enableSingleUsePasswords = true ∧ password = start.genPass) := by
  have hname : (s.atCheck auth).authstate.username = none := (ha.username h).trans hu
  obtain ⟨n, d, hstate, hdone⟩ := tryPassword_unnamed sha cfg.svrOpts req.users password hname
  refine ⟨n, d, hstate, fun hd => ?_⟩
  have hp : auth.pwPasswd = some password := by
    refine (hdone hd).resolve_left ?_
    rw [show (s.atCheck auth).authstate.authdone = false from ha.authdone h]
    simp
  rw [((ha.credentials h).unnamed hname).1, pwPasswd_svrAuthinitialise] at hp
  split at hp
  · next hsingle => exact ⟨hsingle, (Option.some.inj hp).symm⟩
  · exact absurd hp (by simp)

/-! ## The invariant along a run -/

theorem Credentials.pwPasswd {a : AuthState} (h : Credentials cfg start a) {p : Bytes}
    (hne : p ≠ []) (hu : a.username ≠ none) :
    Credentials cfg start { a with pwPasswd := some p } where
  notFailed := h.notFailed
  types := h.types
  passwdNe := fun q hq => Option.some.inj hq ▸ hne
  unnamed := fun hn => absurd hn hu
  named := by
    intro u hu
    obtain ⟨hlen, hnul, hname, -, b, -, hb⟩ := h.named u hu
    exact ⟨hlen, hnul, hname, p, b, rfl, hb⟩

theorem Credentials.answer {a : AuthState} (h : Credentials cfg start a) (n : UInt32) (d : Bool) :
    Credentials cfg start { a with failcount := n, authdone := d } :=
  ⟨h.notFailed, h.types, h.passwdNe, h.unnamed, h.named⟩

theorem Effect.credentials (heff : Effect sha cfg req s s')
    (h : Credentials cfg start s.authstate) : Credentials cfg start s'.authstate := by
  cases heff with
  | idle => exact h
  | refused state => rw [state]; exact h
  | answered checked state => rw [state]; exact (h.checked checked.name).counters _ _
  | keyVerified checked _ state => rw [state]; exact (h.checked checked.name).authdone
  | @attempted header auth password attempt =>
    have hauth := attempt.credentials h
    cases hu : s.usernameFor header with
    | none =>
      obtain ⟨n, d, hstate, -⟩ := attempt.outcome_unnamed sha h hu
      rw [hstate]
      exact hauth.answer n d
    | some u =>
      obtain ⟨n, d, hstate, -⟩ := attempt.outcome_named sha h hu
      rw [hstate]
      have hne : (passwordField req.users u).getD s.heldPasswd ≠ [] := by
        cases hf : passwordField req.users u with
        | none => exact hauth.passwdNe _ (attempt.held h hu)
        | some hash => exact passwordField_ne_nil hf
      have hname : auth.username ≠ none := by
        rw [attempt.username h, hu]
        simp
      exact (hauth.pwPasswd hne hname).answer n d

theorem step_effect (h : step sha cfg s req = some s') : Effect sha cfg req s s' := by
  unfold step at h
  split at h
  · exact absurd h (by simp)
  · rw [← Option.some.inj h]
    exact recvMsgUserauthRequest_effect

theorem Credentials.step (h : Credentials cfg start s.authstate)
    (hs : step sha cfg s req = some s') : Credentials cfg start s'.authstate :=
  (step_effect hs).credentials h

end

end Sshd4a
