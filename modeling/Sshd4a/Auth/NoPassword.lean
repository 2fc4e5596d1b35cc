import Sshd4a.Auth.Edits
import Sshd4a.Native.SvrOpts

/-!
# The option that disables passwords

`-s` is `noauthpass`. In `svr_getopts` it is set under `DROPBEAR_SVR_PASSWORD_AUTH`, which this
build has at 0: the option is accepted, and nothing is remembered of it. The three places that ask
for `noauthpass` are the blank password, the bit in `svr_authinitialise` and the first of the two
password blocks; the block that is compiled into this build, and the bits that
`sshd4a_svr_authinitialise` sets, do not ask for it.

So whether passwords are disabled is decided by what a session starts from, with `-s` or without:
`passwords_disabled_iff`. The failure messages are part of it, because a session never changes the
methods it lists.
-/

namespace Sshd4a

open Text Runopts

def isComma (b : UInt8) : Bool := b == byte ','

/-- No password request of a session ends in a success, and no failure message lists the
    password method. -/
structure PasswordsDisabled (sha : Sha512) (cfg : Config) (start : SessionStart) : Prop where
  refused : ∀ reqs s req s' header,
    Machine.run (step sha cfg) (Session.init cfg start) reqs = some s →
    step sha cfg s req = some s' → readHeader req.payload = .ok header →
    header.methodname = authMethodPassword → s.authstate.authdone = false →
    s'.authstate.authdone = false
  unlisted : ∀ reqs s methods partialSuccess,
    Machine.run (step sha cfg) (Session.init cfg start) reqs = some s →
    .userauthFailure methods partialSuccess ∈ s.log →
    authMethodPassword ∉ methods.splitOnP isComma

theorem mem_methods {types : AuthTypes} :
    authMethodPassword ∈ types.methods.splitOnP isComma ↔ types.password = true := by
  obtain ⟨pubkey, password⟩ := types
  cases pubkey with
  | false =>
    cases password with
    | false => decide
    | true => decide
  | true =>
    cases password with
    | false => decide
    | true => decide

/-! ## What a session lists -/

/-- A session has the methods it was initialised with, and every failure message listed them. -/
structure Lists (types : AuthTypes) (s : Session) : Prop where
  authtypes : s.authstate.authtypes = types
  failures : ∀ methods partialSuccess, .userauthFailure methods partialSuccess ∈ s.log →
    methods = types.methods

section
variable {sha : Sha512} {cfg : Config} {start : SessionStart} {opts : SvrOpts} {types : AuthTypes}
  {req : Request} {s s' : Session}

theorem Lists.init : Lists (svrAuthinitialise cfg start).authtypes (Session.init cfg start) where
  authtypes := rfl
  failures := by
    intro methods pt hmem
    cases hmem

/-- A session with the same log and the same methods. -/
theorem Lists.congr (h : Lists types s) (htypes : s'.authstate.authtypes = s.authstate.authtypes)
    (hlog : s'.log = s.log) : Lists types s' where
  authtypes := htypes.trans h.authtypes
  failures := by
    rw [hlog]
    exact h.failures

theorem Lists.act (h : Lists types s) {a : Act}
    (ha : ∀ methods pt, a = .userauthFailure methods pt → methods = types.methods) :
    Lists types (s.act a) where
  authtypes := h.authtypes
  failures := by
    intro methods pt hmem
    rcases List.mem_append.mp hmem with hmem | hmem
    · exact h.failures methods pt hmem
    · exact ha methods pt (List.mem_singleton.mp hmem).symm

theorem Lists.sendBanner (h : Lists types s) : Lists types (sendBanner s) := by
  cases hb : s.banner with
  | none =>
    rw [Sshd4a.sendBanner, hb]
    exact h
  | some text =>
    have hact : Lists types (s.act (.banner text)) := h.act (fun methods pt heq => by cases heq)
    rw [Sshd4a.sendBanner, hb]
    exact hact.congr rfl rfl

theorem Lists.failure (h : Lists types s) (pt incr : Bool) :
    Lists types (sendMsgUserauthFailure opts pt incr s) where
  authtypes := by
    rw [authstate_sendMsgUserauthFailure]
    exact h.authtypes
  failures := by
    intro methods pt' hmem
    rw [log_sendMsgUserauthFailure] at hmem
    rcases List.mem_append.mp hmem with hmem | hmem
    · exact h.failures methods pt' hmem
    · cases List.mem_singleton.mp hmem
      rw [h.authtypes]

theorem Lists.success (h : Lists types s) : Lists types (sendMsgUserauthSuccess s) := by
  have hact : Lists types (s.act .userauthSuccess) := h.act (fun methods pt heq => by cases heq)
  exact hact.congr rfl rfl

theorem Lists.comparePassword (h : Lists types s) (passwdcrypt testcrypt : Option Bytes) :
    Lists types (comparePassword opts passwdcrypt testcrypt s) := by
  have hmulti := opts.passwordFlags.2.2.2
  unfold Sshd4a.comparePassword
  cases testcrypt with
  | none => exact h.failure false true
  | some test =>
    cases passwdcrypt with
    | none => exact h.congr rfl rfl
    | some crypt =>
      cases crypt with
      | nil => exact h.failure false true
      | cons c cs =>
        simp only [hmulti, Bool.false_and, Bool.false_eq_true, if_false]
        split
        · exact h.success
        · exact h.failure false true

theorem Lists.tryPassword (h : Lists types s) (users : Option Bytes) (password : Bytes) :
    Lists types (tryPassword sha opts users password s) := by
  have hentered : Lists types (s.act (.authPassword s.authstate.username s.authstate.pwPasswd)) :=
    h.act (fun methods pt heq => by cases heq)
  unfold Sshd4a.tryPassword
  dsimp only
  split
  · exact hentered.congr rfl rfl
  · rename_i crypt test auth hauth
    refine Lists.comparePassword ?_ crypt test
    obtain ⟨p, rfl⟩ := sshd4aSvrAuthPassword_state hauth
    exact hentered.congr rfl rfl

theorem Lists.svrAuthPassword (h : Lists types s) (users : Option Bytes) (validUser : Bool)
    (payload : Bytes) : Lists types (svrAuthPassword sha opts users validUser payload s) := by
  unfold Sshd4a.svrAuthPassword
  split
  · exact h.congr rfl rfl
  · split
    · exact h.failure false true
    · split
      · exact h.congr rfl rfl
      · split
        · exact h.failure false true
        · exact h.tryPassword users _

theorem Lists.svrAuthPubkey (h : Lists types s) (validUser : Bool) (check : PubkeyCheck) :
    Lists types (svrAuthPubkey opts validUser check s) := by
  have hmulti := opts.passwordFlags.2.2.2
  cases validUser with
  | false =>
    cases check with
    | malformed reason => exact h.congr rfl rfl
    | _ => exact h.failure false false
  | true =>
    cases check with
    | malformed reason => exact h.congr rfl rfl
    | unknownAlgorithm => exact h.failure false false
    | keyRefused =>
      simp only [Sshd4a.svrAuthPubkey, Bool.not_true, Bool.false_eq_true, if_false]
      split
      · exact h.failure false _
      · exact (h.failure false _).congr rfl rfl
    | keyOk => exact h.act (fun methods pt heq => by cases heq)
    | badKey => exact h.failure false true
    | badSignature => exact h.failure false true
    | verified =>
      simp only [Sshd4a.svrAuthPubkey, hmulti, Bool.not_true, Bool.false_and, Bool.false_eq_true,
        if_false]
      exact h.success

theorem Lists.dispatchMethod (h : Lists types s) (sha : Sha512) (cfg : Config) (req : Request)
    (header : Header) (validUser : Bool) :
    Lists types (dispatchMethod sha cfg req header validUser s) := by
  have hblank := cfg.svrOpts.passwordFlags.2.2.1
  simp only [Sshd4a.dispatchMethod, hblank, Bool.and_false, Bool.false_and, Bool.false_eq_true,
    if_false]
  split
  · exact h.failure false false
  · split
    · exact h.svrAuthPubkey validUser req.pubkey
    · split
      · exact h.svrAuthPassword req.users true header.rest
      · exact h.failure false true

/-- A request is answered with the methods the session was initialised with. -/
theorem Lists.step (h : Lists (svrAuthinitialise cfg start).authtypes s)
    (hcred : Credentials cfg start s.authstate) (hs : step sha cfg s req = some s') :
    Lists (svrAuthinitialise cfg start).authtypes s' := by
  unfold Sshd4a.step at hs
  split at hs
  · cases hs
  · rw [Option.some.injEq] at hs
    subst hs
    unfold recvMsgUserauthRequest
    split
    · exact h
    · dsimp only
      split
      · exact h.sendBanner.congr rfl rfl
      · split
        · exact h.sendBanner.congr rfl rfl
        · split
          · exact h.sendBanner.congr rfl rfl
          · rename_i valid auth hname
            rw [authstate_sendBanner] at hname
            refine Lists.dispatchMethod ?_ sha cfg req _ valid
            refine h.sendBanner.congr ?_ rfl
            rw [authstate_sendBanner, h.authtypes]
            exact (hcred.checked hname).types

theorem Lists.run {reqs : List Request}
    (h : Machine.run (Sshd4a.step sha cfg) (Session.init cfg start) reqs = some s) :
    Credentials cfg start s.authstate ∧ Lists (svrAuthinitialise cfg start).authtypes s := by
  refine (Machine.Along.of_forall (P := fun _ => True) (fun _ _ => trivial) _).invariant
    (I := fun s => Credentials cfg start s.authstate ∧
      Lists (svrAuthinitialise cfg start).authtypes s) ?_ ⟨Credentials.init, Lists.init⟩ h
  intro s req s' hs _ hstep
  exact ⟨hs.1.step hstep, hs.2.step hs.1 hstep⟩

/-! ## What a session starts from -/

/-- Where the method is not enabled, a password request is one of an unknown method. -/
theorem passwordsDisabled (hoff : (svrAuthinitialise cfg start).authtypes.password = false) :
    PasswordsDisabled sha cfg start where
  refused := by
    intro reqs s req s' header hrun hs hread hmethod hfresh
    obtain ⟨hcred, -⟩ := Lists.run hrun
    by_contra hdone
    obtain ⟨auth, password, ha, -⟩ := (step_effect hs).attempt_of_success hcred hread hmethod hfresh
      (by simpa using hdone)
    have htypes := (ha.credentials hcred).types
    have hon := ha.enabled
    rw [htypes, hoff] at hon
    cases hon
  unlisted := by
    intro reqs s methods pt hrun hmem
    obtain ⟨-, hlists⟩ := Lists.run hrun
    rw [hlists.failures methods pt hmem, mem_methods, hoff]
    exact Bool.false_ne_true

def aliceNone : Request where
  payload := nonePayload aliceName
  users := none
  pubkey := .unknownAlgorithm

/-- Whoever asks is told the methods of the session. -/
theorem log_aliceNone :
    .userauthFailure (svrAuthinitialise cfg start).authtypes.methods false ∈
      (recvMsgUserauthRequest sha cfg aliceNone (Session.init cfg start)).log := by
  have hblank := cfg.svrOpts.passwordFlags.2.2.1
  have hread : readHeader aliceNone.payload
      = .ok ⟨aliceName, sshServiceConnection, authMethodNone, []⟩ := by rfl
  have hname : checkusername cfg aliceNone.users aliceName (Session.init cfg start).authstate
      = .ok (true, firstRequest cfg aliceNone.users aliceName (Session.init cfg start).authstate) :=
    checkusername_first (by decide) (by decide) username_init Credentials.init.notFailed
  unfold recvMsgUserauthRequest
  rw [if_neg (by rw [authdone_init]; exact Bool.false_ne_true)]
  simp only [hread, authstate_sendBanner, hname, dispatchMethod, hblank, ne_eq, not_true_eq_false,
    if_false, if_true, Bool.and_false, Bool.false_and, Bool.false_eq_true]
  rw [log_sendMsgUserauthFailure]
  exact List.mem_append.mpr (Or.inr (List.mem_singleton.mpr rfl))

theorem not_passwordsDisabled (hon : (svrAuthinitialise cfg start).authtypes.password = true) :
    ¬ PasswordsDisabled sha cfg start := by
  intro h
  have hstep : step sha cfg (Session.init cfg start) aliceNone
      = some (recvMsgUserauthRequest sha cfg aliceNone (Session.init cfg start)) := step_of_live rfl
  have hrun : Machine.run (Sshd4a.step sha cfg) (Session.init cfg start) [aliceNone]
      = some (recvMsgUserauthRequest sha cfg aliceNone (Session.init cfg start)) := by
    rw [Machine.run_cons hstep]
    rfl
  exact h.unlisted _ _ _ _ hrun log_aliceNone (mem_methods.mpr hon)

end

/-- **With `-s`, passwords are disabled exactly if nothing enables them**: there is no single-use
    password, and `authorized_users` has less than three bytes when the session starts. -/
theorem passwords_disabled_iff (platform : Platform) (past : Past) (argv : List Arg)
    (opts : RunOpts) (_haccepted : (svrGetopts platform.toLibc past argv).outcome = .ok opts)
    (_hflag : 's' ∈ opts.flags) (sha : Sha512) (cfg : Config)
    (_hcfg : cfg.svrOpts = platform.svrOpts opts) (start : SessionStart) :
    PasswordsDisabled sha cfg start ↔
      cfg.enableSingleUsePasswords = false ∧
        ∀ content, start.authorizedUsers = some content → content.length < 3 := by
  have hpassword := password_svrAuthinitialise cfg start
  have hfile : configFileExists start.authorizedUsers 3 = false ↔
      ∀ content, start.authorizedUsers = some content → content.length < 3 := by
    cases start.authorizedUsers with
    | none => simp [configFileExists]
    | some content => simp [configFileExists]
  rw [← hfile]
  constructor
  · intro h
    cases hon : (svrAuthinitialise cfg start).authtypes.password with
    | true => exact absurd h (not_passwordsDisabled hon)
    | false =>
      rw [hon] at hpassword
      exact Bool.or_eq_false_iff.mp hpassword.symm
  · rintro ⟨hsingle, hshort⟩
    exact passwordsDisabled (by rw [hpassword, hsingle, hshort]; rfl)

/-- `sshd -Rs`. -/
def disablePasswords : List Arg := [['s', 's', 'h', 'd'], ['-', 'R', 's']]

/-- The app's server, started with `-Rs`. -/
def disabledConfig : Config :=
  { appConfig false with svrOpts := arm64.svrOpts { flags := ['R', 's'] } }

theorem passwords_disabled_noFile :
    (svrGetopts arm64.toLibc .null disablePasswords).outcome
        = .ok { flags := ['R', 's'], defport := true } ∧
      PasswordsDisabled (Sha512.const (Vector.replicate 64 0)) disabledConfig
        ⟨none, none, Vector.replicate 8 0⟩ := by
  refine ⟨rfl, ?_⟩
  refine (passwords_disabled_iff arm64 .null disablePasswords
    { flags := ['R', 's'], defport := true } rfl (by decide) _ disabledConfig rfl _).mpr ⟨rfl, ?_⟩
  intro content h
  cases h

/-- Bob's line in `authorized_users` enables passwords, whatever `-s` says. -/
theorem passwords_enabled_bobFile :
    ∃ opts, (svrGetopts arm64.toLibc .null disablePasswords).outcome = .ok opts ∧ 's' ∈ opts.flags ∧
      ¬ PasswordsDisabled (Sha512.const (Vector.replicate 64 0))
        { appConfig false with svrOpts := arm64.svrOpts opts } bobStart := by
  refine ⟨{ flags := ['R', 's'], defport := true }, rfl, by decide, ?_⟩
  exact not_passwordsDisabled (by decide)

end Sshd4a
