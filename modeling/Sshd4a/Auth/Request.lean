import Mathlib.Data.List.TakeWhile
import Sshd4a.Native.Userauth

/-!
# What one request can do to a session

Everything proved about runs of userauth requests goes through this file, which says **once**
what handling a request can come to (`Effect`): nothing, because the session is authenticated;
a refusal that ends the process before any state changed; an answer that leaves the credentials
alone; a verified key; or an attempt at a password, and then the resulting session is exactly
`tryPassword` of the state `checkusername` left.

`Credentials` is the invariant that goes with it. It pins down which pointers of `authstate`
are set in which phase: before a username was accepted, everything `fill_passwd` writes is
still NULL and `pw_passwd` is what initialisation put there; afterwards nothing is NULL.
-/

namespace Sshd4a

open Text

/-! ## C strings -/

theorem length_cstr {b : Bytes} : (cstr b).length = b.length ↔ 0 ∉ b := by
  rw [← cstr_eq_self]
  exact ⟨fun h => (List.takeWhile_prefix _).eq_of_length h, fun h => by rw [h]⟩

theorem constantTimeMemcmp_eq_zero {a b : Bytes} (h : a.length = b.length) :
    constantTimeMemcmp a b = 0 ↔ a = b := by
  -- The accumulator collects the differences, so the fold is zero when it and they are.
  have hfold : ∀ (a b : Bytes) (c : UInt8), a.length = b.length →
      ((a.zip b).foldl (fun c e => c ||| (e.1 ^^^ e.2)) c = 0 ↔ c = 0 ∧ a = b) := by
    intro a
    induction a with
    | nil =>
      intro b c hl
      have : b = [] := List.length_eq_zero_iff.mp hl.symm
      simp [this]
    | cons x xs ih =>
      intro b c hl
      cases b with
      | nil => simp at hl
      | cons y ys =>
        rw [List.zip_cons_cons, List.foldl_cons, ih ys _ (by simpa using hl),
          UInt8.or_eq_zero_iff, UInt8.xor_eq_zero_iff, List.cons.injEq, and_assoc]
  rw [show constantTimeMemcmp a b = 0 ↔ (0 : UInt8) = 0 ∧ a = b from hfold a b 0 h]
  simp

theorem constantTimeStrcmp_eq_zero {a b : Bytes} : constantTimeStrcmp a b = 0 ↔ a = b := by
  unfold constantTimeStrcmp
  by_cases h : a.length = b.length
  · rw [if_neg (by simpa using h), constantTimeMemcmp_eq_zero h]
  · rw [if_pos h]
    exact ⟨fun hq => absurd hq (by decide), fun hq => absurd (congrArg List.length hq) h⟩

/-! ## Replies -/

theorem authstate_sendMsgUserauthFailure (opts : SvrOpts) (pt incr : Bool) (s : Session) :
    (sendMsgUserauthFailure opts pt incr s).authstate
      = { s.authstate with
          failcount := if incr then s.authstate.failcount + 1 else s.authstate.failcount } := by
  cases incr <;>
    simp only [sendMsgUserauthFailure, Session.act, Session.stop, if_true, Bool.false_eq_true,
      if_false] <;>
    split <;> rfl

theorem log_sendMsgUserauthFailure (opts : SvrOpts) (pt incr : Bool) (s : Session) :
    (sendMsgUserauthFailure opts pt incr s).log
      = s.log ++ [.userauthFailure s.authstate.authtypes.methods pt] := by
  cases incr <;>
    simp only [sendMsgUserauthFailure, Session.act, Session.stop, if_true, Bool.false_eq_true,
      if_false] <;>
    split <;> rfl

theorem log_sendMsgUserauthSuccess (s : Session) :
    (sendMsgUserauthSuccess s).log = s.log ++ [.userauthSuccess] := rfl

@[simp] theorem authstate_sendBanner (s : Session) :
    (sendBanner s).authstate = s.authstate := by
  cases hb : s.banner <;> simp [sendBanner, hb, Session.act]

theorem mem_log_sendBanner {s : Session} {u p : Option Bytes} :
    .authPassword u p ∈ (sendBanner s).log ↔ .authPassword u p ∈ s.log := by
  cases hb : s.banner <;> simp [sendBanner, hb, Session.act]

/-- The log holds no other entries into the password check. -/
def SameEntries (s s' : Session) : Prop :=
  ∀ u p, .authPassword u p ∈ s'.log ↔ .authPassword u p ∈ s.log

theorem SameEntries.append {s s' t : Session} (h : SameEntries s s') {a : Act}
    (hlog : t.log = s'.log ++ [a]) (ha : ∀ u p, a ≠ .authPassword u p) : SameEntries s t := by
  intro u p
  rw [hlog, List.mem_append, List.mem_singleton, h u p]
  exact ⟨fun hm => hm.resolve_right fun hq => ha u p hq.symm, Or.inl⟩

/-! ## `checkusername` -/

/-- The state after the first request of a session with an acceptable username. -/
def firstRequest (cfg : Config) (users : Option Bytes) (username : Bytes) (auth : AuthState) :
    AuthState :=
  { fillPasswd cfg users username auth with username := some username }

/-- **Which fields of `authstate` are set.** -/
structure Credentials (cfg : Config) (start : SessionStart) (a : AuthState) : Prop where
  notFailed : a.checkusernameFailed = false
  types : a.authtypes = (svrAuthinitialise cfg start).authtypes
  passwdNe : ∀ p, a.pwPasswd = some p → p ≠ []
  unnamed : a.username = none →
    a.pwPasswd = (svrAuthinitialise cfg start).pwPasswd ∧ a.pwName = none ∧ a.branch = none
  named : ∀ u, a.username = some u → u.length ≤ maxUsernameLen ∧ 0 ∉ u ∧ a.pwName = some u ∧
    ∃ p b, a.pwPasswd = some p ∧ a.branch = some b ∧ a.pwDir = some (b.pwDir cfg) ∧
      a.pwShell = some (b.pwShell cfg)

section
variable {cfg : Config} {start : SessionStart}

theorem genPass_ne_nil (start : SessionStart) : start.genPass ≠ [] := by
  intro h
  have := congrArg List.length h
  simp [SessionStart.genPass, sshd4aGenerateSingleUsePassword] at this

theorem pwPasswd_svrAuthinitialise :
    (svrAuthinitialise cfg start).pwPasswd
      = if cfg.enableSingleUsePasswords then some start.genPass else none := by
  simp only [svrAuthinitialise, sshd4aSvrAuthinitialise]
  split <;> split <;> rfl

theorem password_svrAuthinitialise (cfg : Config) (start : SessionStart) :
    (svrAuthinitialise cfg start).authtypes.password =
      (cfg.enableSingleUsePasswords || configFileExists start.authorizedUsers 3) := by
  unfold svrAuthinitialise sshd4aSvrAuthinitialise
  cases cfg.enableSingleUsePasswords with
  | true => rfl
  | false =>
    cases configFileExists start.authorizedUsers 3 with
    | true => rfl
    | false => rfl

theorem username_init : (Session.init cfg start).authstate.username = none := by
  simp only [Session.init, svrAuthinitialise, sshd4aSvrAuthinitialise]
  split <;> split <;> rfl

theorem authdone_init : (Session.init cfg start).authstate.authdone = false := by
  simp only [Session.init, svrAuthinitialise, sshd4aSvrAuthinitialise]
  split <;> split <;> rfl

theorem Credentials.init : Credentials cfg start (Session.init cfg start).authstate where
  notFailed := by
    simp only [Session.init, svrAuthinitialise, sshd4aSvrAuthinitialise]
    split <;> split <;> rfl
  types := rfl
  passwdNe := by
    intro p hp
    simp only [Session.init, pwPasswd_svrAuthinitialise] at hp
    split at hp
    · rw [← Option.some.inj hp]
      exact genPass_ne_nil start
    · exact absurd hp (by simp)
  unnamed := by
    intro _
    refine ⟨rfl, ?_, ?_⟩ <;>
      (simp only [Session.init, svrAuthinitialise, sshd4aSvrAuthinitialise]; split <;> split <;> rfl)
  named := by
    intro u hu
    rw [username_init] at hu
    exact absurd hu (by simp)

theorem Credentials.firstRequest {a : AuthState} (h : Credentials cfg start a)
    {users : Option Bytes} {username : Bytes} (hlen : username.length ≤ maxUsernameLen)
    (hnul : 0 ∉ username) : Credentials cfg start (firstRequest cfg users username a) where
  notFailed := h.notFailed
  types := h.types
  passwdNe := by
    intro p hp
    simp only [Sshd4a.firstRequest, fillPasswd, Option.some.injEq] at hp
    cases ha : a.pwPasswd with
    | none => rw [← hp, ha]; simp [passwdPlaceholder]
    | some q =>
      rw [← hp, ha]
      exact h.passwdNe q ha
  unnamed := fun hn => absurd hn (by simp [Sshd4a.firstRequest])
  named := by
    intro u hu
    simp only [Sshd4a.firstRequest, Option.some.injEq] at hu
    subst hu
    exact ⟨hlen, hnul, rfl, _, _, rfl, rfl, rfl, rfl⟩

/-- **What `checkusername` does**: reject a long name and touch nothing, or accept the name
    and have it, and everything that goes with it, in the state. -/
theorem checkusername_ok {users : Option Bytes} {username : Bytes} {a auth : AuthState}
    {valid : Bool} (h : Credentials cfg start a)
    (hc : checkusername cfg users username a = .ok (valid, auth)) :
    (valid = false ∧ maxUsernameLen < username.length ∧ auth = a) ∨
    (valid = true ∧ username.length ≤ maxUsernameLen ∧ 0 ∉ username ∧
      auth.username = some username ∧
      ((a.username = none ∧ auth = firstRequest cfg users username a) ∨
        (a.username = some username ∧ auth = a))) := by
  unfold checkusername at hc
  by_cases hlen : maxUsernameLen < username.length
  · rw [if_pos hlen] at hc
    cases hc
    exact Or.inl ⟨rfl, hlen, rfl⟩
  · rw [if_neg hlen] at hc
    by_cases hnul : (cstr username).length ≠ username.length
    · rw [if_pos hnul] at hc
      cases hc
    · rw [if_neg hnul] at hc
      have hnul' : 0 ∉ username := length_cstr.mp (not_not.mp hnul)
      refine Or.inr ?_
      cases hu : a.username with
      | none =>
        simp only [hu] at hc
        rw [if_neg (by simp [fillPasswd, h.notFailed]), if_neg (by simp [fillPasswd])] at hc
        cases hc
        exact ⟨rfl, Nat.le_of_not_lt hlen, hnul', rfl, Or.inl ⟨rfl, rfl⟩⟩
      | some known =>
        simp only [hu] at hc
        by_cases hk : username ≠ known
        · rw [if_pos hk] at hc
          cases hc
        · rw [if_neg hk] at hc
          have hk' : username = known := not_not.mp hk
          subst hk'
          obtain ⟨-, -, hname, -⟩ := h.named username hu
          simp only [h.notFailed, hname, Bool.false_eq_true, if_false, Option.isNone_some] at hc
          cases hc
          exact ⟨rfl, Nat.le_of_not_lt hlen, hnul', hu, Or.inr ⟨rfl, rfl⟩⟩

theorem Credentials.checked {users : Option Bytes} {username : Bytes} {a auth : AuthState}
    {valid : Bool} (h : Credentials cfg start a)
    (hc : checkusername cfg users username a = .ok (valid, auth)) :
    Credentials cfg start auth := by
  rcases checkusername_ok h hc with ⟨-, -, rfl⟩ | ⟨-, hlen, hnul, -, ⟨-, rfl⟩ | ⟨-, rfl⟩⟩
  · exact h
  · exact h.firstRequest hlen hnul
  · exact h

theorem Credentials.counters {a : AuthState} (h : Credentials cfg start a) (n q : UInt32) :
    Credentials cfg start { a with failcount := n, servPubkeyQueryCount := q } :=
  ⟨h.notFailed, h.types, h.passwdNe, h.unnamed, h.named⟩

theorem Credentials.authdone {a : AuthState} (h : Credentials cfg start a) :
    Credentials cfg start { a with authdone := true } :=
  ⟨h.notFailed, h.types, h.passwdNe, h.unnamed, h.named⟩

end

/-! ## The effect of a request -/

/-- The password a request carries, when it reaches the check: no change is requested, the
    string is complete and not too long. -/
def readPassword (rest : Bytes) : Option Bytes :=
  match bufGetbool rest with
  | .error _ => none
  | .ok (changepw, rest) =>
    if changepw then none
    else
      match bufGetstring rest with
      | .error _ => none
      | .ok (password, _) =>
        if dropbearMaxPasswordLen < password.length then none else some password

/-- The request passed the checks common to all methods and `checkusername` left `auth`. -/
structure Checked (cfg : Config) (req : Request) (s : Session) (header : Header) (valid : Bool)
    (auth : AuthState) : Prop where
  fresh : s.authstate.authdone = false
  read : readHeader req.payload = .ok header
  service : header.servicename = sshServiceConnection
  name : checkusername cfg req.users header.username s.authstate = .ok (valid, auth)

/-- The request reaches `sshd4a_svr_auth_password`, with this state and this password. -/
structure Attempt (cfg : Config) (req : Request) (s : Session) (header : Header)
    (auth : AuthState) (password : Bytes) : Prop where
  checked : ∃ valid, Checked cfg req s header valid auth
  method : header.methodname = authMethodPassword
  password : readPassword header.rest = some password
  enabled : auth.authtypes.password = true

/-- The session the password check starts from. -/
def Session.atCheck (s : Session) (auth : AuthState) : Session :=
  { sendBanner s with authstate := auth }

inductive Effect (sha : Sha512) (cfg : Config) (req : Request) (s : Session) : Session → Prop
  | idle (done : s.authstate.authdone = true) : Effect sha cfg req s s
  | refused {s' : Session} (state : s'.authstate = s.authstate) (same : SameEntries s s') :
      Effect sha cfg req s s'
  | answered {s' : Session} {header : Header} {valid : Bool} {auth : AuthState} {n q : UInt32}
      (checked : Checked cfg req s header valid auth)
      (state : s'.authstate = { auth with failcount := n, servPubkeyQueryCount := q })
      (same : SameEntries s s') : Effect sha cfg req s s'
  | keyVerified {s' : Session} {header : Header} {auth : AuthState}
      (checked : Checked cfg req s header true auth)
      (method : header.methodname = authMethodPubkey)
      (state : s'.authstate = { auth with authdone := true })
      (same : SameEntries s s') : Effect sha cfg req s s'
  | attempted {header : Header} {auth : AuthState} {password : Bytes}
      (attempt : Attempt cfg req s header auth password) :
      Effect sha cfg req s
        (tryPassword sha cfg.svrOpts req.users password (s.atCheck auth))

section
variable {sha : Sha512} {cfg : Config} {start : SessionStart} {req : Request} {s : Session}

theorem SameEntries.atCheck (auth : AuthState) : SameEntries s (s.atCheck auth) := by
  intro u p
  exact mem_log_sendBanner

theorem Effect.failure {header : Header} {valid pt incr : Bool} {auth : AuthState}
    (hc : Checked cfg req s header valid auth) :
    Effect sha cfg req s (sendMsgUserauthFailure cfg.svrOpts pt incr (s.atCheck auth)) :=
  .answered hc (authstate_sendMsgUserauthFailure ..)
    ((SameEntries.atCheck auth).append (log_sendMsgUserauthFailure ..) (by simp))

theorem effect_svrAuthPubkey {header : Header} {valid : Bool} {auth : AuthState}
    (hc : Checked cfg req s header valid auth) (hm : header.methodname = authMethodPubkey) :
    Effect sha cfg req s (svrAuthPubkey cfg.svrOpts valid req.pubkey (s.atCheck auth)) := by
  have hmulti := cfg.svrOpts.passwordFlags.2.2.2
  cases hv : valid with
  | false =>
    subst hv
    cases req.pubkey with
    | malformed reason => exact .answered hc rfl (SameEntries.atCheck auth)
    | _ => exact .failure hc
  | true =>
    subst hv
    cases req.pubkey with
    | malformed reason => exact .answered hc rfl (SameEntries.atCheck auth)
    | unknownAlgorithm => exact .failure hc
    | keyRefused =>
      simp only [svrAuthPubkey, Bool.not_true, Bool.false_eq_true, if_false]
      split
      · exact .failure hc
      · exact .answered hc (by rw [authstate_sendMsgUserauthFailure]; rfl)
          ((SameEntries.atCheck auth).append (log_sendMsgUserauthFailure ..) (by simp))
    | keyOk =>
      exact .answered hc rfl
        ((SameEntries.atCheck auth).append (t := (s.atCheck auth).act .userauthPkOk) rfl (by simp))
    | badKey => exact .failure hc
    | badSignature => exact .failure hc
    | verified =>
      simp only [svrAuthPubkey, hmulti, Bool.not_true, Bool.false_and, Bool.false_eq_true,
        if_false]
      exact .keyVerified hc hm rfl
        ((SameEntries.atCheck auth).append (log_sendMsgUserauthSuccess _) (by simp))

theorem effect_svrAuthPassword {header : Header} {valid : Bool} {auth : AuthState}
    (hc : Checked cfg req s header valid auth) (hm : header.methodname = authMethodPassword)
    (hp : auth.authtypes.password = true) :
    Effect sha cfg req s
      (svrAuthPassword sha cfg.svrOpts req.users true header.rest (s.atCheck auth)) := by
  unfold svrAuthPassword
  cases hb : bufGetbool header.rest with
  | error stop => exact .answered hc rfl (SameEntries.atCheck auth)
  | ok r =>
    obtain ⟨changepw, rest⟩ := r
    cases changepw with
    | true => exact .failure hc
    | false =>
      simp only [Bool.false_eq_true, if_false]
      cases hg : bufGetstring rest with
      | error stop => exact .answered hc rfl (SameEntries.atCheck auth)
      | ok r =>
        obtain ⟨password, rest'⟩ := r
        simp only [Bool.not_true, Bool.false_or]
        by_cases hlen : dropbearMaxPasswordLen < password.length
        · rw [if_pos (by simpa using hlen)]
          exact .failure hc
        · rw [if_neg (by simpa using hlen)]
          exact .attempted ⟨⟨valid, hc⟩, hm, by simp [readPassword, hb, hg, hlen], hp⟩

theorem effect_dispatchMethod {header : Header} {valid : Bool} {auth : AuthState}
    (hc : Checked cfg req s header valid auth) :
    Effect sha cfg req s (dispatchMethod sha cfg req header valid (s.atCheck auth)) := by
  have hblank := cfg.svrOpts.passwordFlags.2.2.1
  simp only [dispatchMethod, hblank, Bool.and_false, Bool.false_and, Bool.false_eq_true, if_false]
  split
  · exact .failure hc
  · split
    · next hm =>
      simp only [Bool.and_eq_true, decide_eq_true_eq] at hm
      exact effect_svrAuthPubkey hc hm.2
    · split
      · next hm =>
        simp only [Bool.and_eq_true, decide_eq_true_eq] at hm
        exact effect_svrAuthPassword hc hm.2 hm.1
      · exact .failure hc

/-- **Everything a request can do.** -/
theorem recvMsgUserauthRequest_effect :
    Effect sha cfg req s (recvMsgUserauthRequest sha cfg req s) := by
  unfold recvMsgUserauthRequest
  by_cases hd : s.authstate.authdone = true
  · rw [if_pos hd]
    exact .idle hd
  · rw [if_neg hd]
    have hstop : ∀ why, Effect sha cfg req s ((sendBanner s).stop why) := fun why =>
      .refused (authstate_sendBanner s) fun u p => mem_log_sendBanner
    cases hr : readHeader req.payload with
    | error stop => exact hstop stop
    | ok header =>
      simp only
      by_cases hs : header.servicename ≠ sshServiceConnection
      · rw [if_pos hs]
        exact hstop _
      · rw [if_neg hs, authstate_sendBanner]
        cases hn : checkusername cfg req.users header.username s.authstate with
        | error stop => exact hstop stop
        | ok r =>
          obtain ⟨valid, auth⟩ := r
          exact effect_dispatchMethod ⟨by simpa using hd, hr, not_not.mp hs, hn⟩

/-! ## Requests that reach the password check -/

/-- What `readHeader` makes of `passwordPayload`. -/
def passwordHeader (username password : Bytes) : Header :=
  ⟨username, sshServiceConnection, authMethodPassword, 0 :: sshString password⟩

theorem readHeader_passwordPayload {username : Bytes} (h : username.length < 0x100000000)
    (password : Bytes) :
    readHeader (passwordPayload username password)
      = if maxStringLen < username.length then .error (.exit .stringTooLong)
        else .ok (passwordHeader username password) := by
  unfold readHeader passwordPayload
  rw [bufGetstring_sshString h]
  by_cases hlong : maxStringLen < username.length
  · rw [if_pos hlong, if_pos hlong]
  · rw [if_neg hlong, if_neg hlong]
    simp only [bufGetstring_sshString_short (b := sshServiceConnection) (by decide),
      bufGetstring_sshString_short (b := authMethodPassword) (by decide)]
    rfl

theorem readHeader_passwordPayload_short {username : Bytes} (h : username.length ≤ maxStringLen)
    (password : Bytes) :
    readHeader (passwordPayload username password) = .ok (passwordHeader username password) := by
  rw [readHeader_passwordPayload (Nat.lt_of_le_of_lt h (by decide)), if_neg (Nat.not_lt.mpr h)]

theorem readPassword_sshString {password : Bytes} (h : password.length < 0x100000000) :
    readPassword (0 :: sshString password)
      = if dropbearMaxPasswordLen < password.length then none else some password := by
  have hg : bufGetstring (sshString password)
      = if maxStringLen < password.length then .error (.exit .stringTooLong)
        else .ok (password, []) := by
    simpa using bufGetstring_sshString h []
  simp only [readPassword, bufGetbool, bufGetbyte, bne_self_eq_false, Bool.false_eq_true, if_false,
    hg]
  by_cases hlong : maxStringLen < password.length
  · have hmax : dropbearMaxPasswordLen < password.length := Nat.lt_trans (by decide) hlong
    rw [if_pos hlong, if_pos hmax]
  · rw [if_neg hlong]

theorem readPassword_sshString_short {password : Bytes}
    (h : password.length ≤ dropbearMaxPasswordLen) :
    readPassword (0 :: sshString password) = some password := by
  rw [readPassword_sshString (Nat.lt_of_le_of_lt h (by decide)), if_neg (Nat.not_lt.mpr h)]

theorem checkusername_first {users : Option Bytes} {username : Bytes} {a : AuthState}
    (hlen : username.length ≤ maxUsernameLen) (hnul : 0 ∉ username)
    (hn : a.username = none) (hf : a.checkusernameFailed = false) :
    checkusername cfg users username a = .ok (true, firstRequest cfg users username a) := by
  unfold checkusername
  rw [if_neg (Nat.not_lt.mpr hlen), if_neg (not_not.mpr (length_cstr.mpr hnul))]
  simp only [hn]
  rw [if_neg (by simp [fillPasswd, hf]), if_neg (by simp [fillPasswd])]
  rfl

theorem checkusername_again {users : Option Bytes} {username : Bytes} {a : AuthState}
    (h : Credentials cfg start a) (hu : a.username = some username) :
    checkusername cfg users username a = .ok (true, a) := by
  obtain ⟨hlen, hnul, hname, -⟩ := h.named username hu
  unfold checkusername
  rw [if_neg (Nat.not_lt.mpr hlen), if_neg (not_not.mpr (length_cstr.mpr hnul))]
  simp [hu, h.notFailed, hname]

theorem checkusername_long {users : Option Bytes} {username : Bytes} {a : AuthState}
    (hlen : maxUsernameLen < username.length) :
    checkusername cfg users username a = .ok (false, a) := by
  unfold checkusername
  rw [if_pos hlen]

theorem attempt_passwordPayload {username password : Bytes} {valid : Bool} {auth : AuthState}
    (hreq : req.payload = passwordPayload username password)
    (hfresh : s.authstate.authdone = false) (hu : username.length ≤ maxStringLen)
    (hp : password.length ≤ dropbearMaxPasswordLen)
    (hname : checkusername cfg req.users username s.authstate = .ok (valid, auth))
    (hen : auth.authtypes.password = true) :
    Attempt cfg req s (passwordHeader username password) auth password where
  checked := by
    refine ⟨valid, hfresh, ?_, rfl, hname⟩
    rw [hreq]
    exact readHeader_passwordPayload_short hu password
  method := rfl
  password := readPassword_sshString_short hp
  enabled := hen

end

end Sshd4a
