import Sshd4a.Auth.Password
import Sshd4a.Native.AuthTimeout

/-!
# How often a client can guess

A session lets a client try passwords until `failcount` is over `maxauthtries`. The counter is
raised in `send_msg_userauth_failure`, if its caller asks for that, and compared there, so the
bound rests on every way through the password method: each call of `sshd4a_svr_auth_password`
has to end in a counted failure, in a success, or in the end of the process.

The counter is a machine integer, so the bound also rests on its not wrapping around. If the limit
is the largest number it can hold, no count is over it, and only the clock ends the guessing: a
counted failure takes a quarter of a second, and a session has five minutes to authenticate. A run
is therefore one of turns in time.

`Tally` is what a request does to the counters, `Budget` what that comes to while a session goes on.
-/

namespace Sshd4a

open Text

/-! ## Counting -/

/-- A call of `sshd4a_svr_auth_password`. -/
def Act.isGuess : Act → Bool
  | .authPassword _ _ => true
  | _ => false

def Session.guesses (s : Session) : Nat := s.log.countP Act.isGuess

/-- The number of calls is bounded in every run, and none is made once a session is
    authenticated. -/
structure GuessesBounded (sha : Sha512) (cfg : Config) : Prop where
  bounded : ∀ start now turns t,
    Machine.run (turn sha cfg) (TimedSession.init cfg start now) turns = some t →
    t.session.guesses ≤ cfg.svrOpts.maxauthtries.toNat + 1
  noneAfter : ∀ start now turns turns' t t',
    Machine.run (turn sha cfg) (TimedSession.init cfg start now) turns = some t →
    t.session.authstate.authdone = true → Machine.run (turn sha cfg) t turns' = some t' →
    t'.session.guesses = t.session.guesses

/-- What a request does to the counters: nothing; a failure that is counted, with or without a
    guess, and ends the session over the limit; or a guess that ends the guessing. -/
inductive Tally (opts : SvrOpts) (s s' : Session) : Prop
  | quiet (guesses : s'.guesses = s.guesses)
      (failcount : s'.authstate.failcount = s.authstate.failcount)
  | failed (guesses : s'.guesses ≤ s.guesses + 1)
      (failcount : s'.authstate.failcount = s.authstate.failcount + 1)
      (limit : opts.maxauthtries < s.authstate.failcount + 1 → s'.ended.isSome)
  | final (guesses : s'.guesses ≤ s.guesses + 1)
      (last : s'.ended.isSome ∨ s'.authstate.authdone = true)

section
variable {opts : SvrOpts} {s t : Session}

@[simp] theorem guesses_act (s : Session) (a : Act) :
    (s.act a).guesses = s.guesses + if a.isGuess then 1 else 0 := by
  unfold Session.guesses Session.act
  rw [List.countP_append, List.countP_singleton]

@[simp] theorem guesses_sendBanner (s : Session) : (sendBanner s).guesses = s.guesses := by
  cases hb : s.banner with
  | none => simp [sendBanner, hb]
  | some text => simp [sendBanner, hb, Session.guesses, Session.act, Act.isGuess]

theorem guesses_sendMsgUserauthFailure (opts : SvrOpts) (pt incr : Bool) (s : Session) :
    (sendMsgUserauthFailure opts pt incr s).guesses = s.guesses := by
  unfold Session.guesses
  rw [log_sendMsgUserauthFailure, List.countP_append, List.countP_singleton]
  rfl

theorem guesses_sendMsgUserauthSuccess (s : Session) :
    (sendMsgUserauthSuccess s).guesses = s.guesses := by
  unfold Session.guesses
  rw [log_sendMsgUserauthSuccess, List.countP_append, List.countP_singleton]
  rfl

theorem ended_sendMsgUserauthFailure (opts : SvrOpts) (pt : Bool) (s : Session) :
    (sendMsgUserauthFailure opts pt true s).ended =
      if opts.maxauthtries < s.authstate.failcount + 1 then
        some (.exit (.maxAuthTries
          (s.authstate.pwName.getD (['i', 's', ' ', 'i', 'n', 'v', 'a', 'l', 'i', 'd'].map byte))))
      else s.ended := by
  simp only [sendMsgUserauthFailure, Session.act, Session.stop, if_true]
  split <;> rfl

/-! ## The functions that answer a request -/

/-- A failure that is not counted changes no counter. -/
theorem Tally.uncounted (pt : Bool) (hguesses : t.guesses = s.guesses)
    (hcount : t.authstate.failcount = s.authstate.failcount) :
    Tally opts s (sendMsgUserauthFailure opts pt false t) := by
  refine .quiet ?_ ?_
  · rw [guesses_sendMsgUserauthFailure, hguesses]
  · rw [authstate_sendMsgUserauthFailure]
    exact hcount

/-- A failure that is counted ends the session over the limit. -/
theorem Tally.counted (pt : Bool) (hguesses : t.guesses ≤ s.guesses + 1)
    (hcount : t.authstate.failcount = s.authstate.failcount) :
    Tally opts s (sendMsgUserauthFailure opts pt true t) := by
  refine .failed ?_ ?_ ?_
  · rw [guesses_sendMsgUserauthFailure]
    exact hguesses
  · rw [authstate_sendMsgUserauthFailure]
    show t.authstate.failcount + 1 = _
    rw [hcount]
  · intro hover
    rw [ended_sendMsgUserauthFailure, hcount, if_pos hover]
    rfl

theorem Tally.stopped (why : Stop) (hguesses : t.guesses ≤ s.guesses + 1) :
    Tally opts s (t.stop why) :=
  .final hguesses (Or.inl rfl)

theorem Tally.succeeded (hguesses : t.guesses ≤ s.guesses + 1) :
    Tally opts s (sendMsgUserauthSuccess t) :=
  .final (by rw [guesses_sendMsgUserauthSuccess]; exact hguesses) (Or.inr rfl)

/-- A comparison is a counted failure, a success, or the end. -/
theorem tally_comparePassword (passwdcrypt testcrypt : Option Bytes)
    (hguesses : t.guesses ≤ s.guesses + 1)
    (hcount : t.authstate.failcount = s.authstate.failcount) :
    Tally opts s (comparePassword opts passwdcrypt testcrypt t) := by
  have hmulti := opts.passwordFlags.2.2.2
  unfold comparePassword
  cases testcrypt with
  | none => exact .counted false hguesses hcount
  | some test =>
    cases passwdcrypt with
    | none => exact .stopped .segv hguesses
    | some crypt =>
      cases crypt with
      | nil => exact .counted false hguesses hcount
      | cons c cs =>
        simp only [hmulti, Bool.false_and, Bool.false_eq_true, if_false]
        split
        · exact .succeeded hguesses
        · exact .counted false hguesses hcount

theorem tally_tryPassword (sha : Sha512) (users : Option Bytes) (password : Bytes)
    (hguesses : t.guesses = s.guesses)
    (hcount : t.authstate.failcount = s.authstate.failcount) :
    Tally opts s (tryPassword sha opts users password t) := by
  have hone : (t.act (.authPassword t.authstate.username t.authstate.pwPasswd)).guesses
      = s.guesses + 1 := by
    rw [guesses_act, hguesses]
    rfl
  unfold tryPassword
  dsimp only
  split
  · exact .stopped _ (Nat.le_of_eq hone)
  · rename_i crypt test auth hauth
    obtain ⟨p, rfl⟩ := sshd4aSvrAuthPassword_state hauth
    exact tally_comparePassword crypt test (Nat.le_of_eq hone) hcount

theorem tally_svrAuthPassword (sha : Sha512) (users : Option Bytes) (validUser : Bool)
    (payload : Bytes) (hguesses : t.guesses = s.guesses)
    (hcount : t.authstate.failcount = s.authstate.failcount) :
    Tally opts s (svrAuthPassword sha opts users validUser payload t) := by
  have hle : t.guesses ≤ s.guesses + 1 := by omega
  unfold svrAuthPassword
  split
  · exact .stopped _ hle
  · split
    · exact .counted false hle hcount
    · split
      · exact .stopped _ hle
      · split
        · exact .counted false hle hcount
        · exact tally_tryPassword sha users _ hguesses hcount

theorem tally_svrAuthPubkey (validUser : Bool) (check : PubkeyCheck)
    (hguesses : t.guesses = s.guesses)
    (hcount : t.authstate.failcount = s.authstate.failcount) :
    Tally opts s (svrAuthPubkey opts validUser check t) := by
  have hmulti := opts.passwordFlags.2.2.2
  have hle : t.guesses ≤ s.guesses + 1 := by omega
  cases validUser with
  | false =>
    cases check with
    | malformed reason => exact .stopped _ hle
    | _ => exact .uncounted false hguesses hcount
  | true =>
    cases check with
    | malformed reason => exact .stopped _ hle
    | unknownAlgorithm => exact .uncounted false hguesses hcount
    | keyRefused =>
      simp only [svrAuthPubkey, Bool.not_true, Bool.false_eq_true, if_false]
      -- the number of free queries does not matter: both kinds of failure are in order
      generalize decide (max 0 ((maxPubkeyQueries : Int) - opts.maxauthtries.toBitVec.toInt) ≤
        t.authstate.servPubkeyQueryCount.toNat) = incr
      have hfail : Tally opts s (sendMsgUserauthFailure opts false incr t) := by
        cases incr with
        | false => exact .uncounted false hguesses hcount
        | true => exact .counted false hle hcount
      split
      · exact hfail
      · cases hfail with
        | quiet hg hf => exact .quiet hg hf
        | failed hg hf hover => exact .failed hg hf hover
        | final hg hlast => exact .final hg hlast
    | keyOk =>
      refine .quiet ?_ hcount
      show (t.act .userauthPkOk).guesses = _
      rw [guesses_act, hguesses]
      rfl
    | badKey => exact .counted false hle hcount
    | badSignature => exact .counted false hle hcount
    | verified =>
      simp only [svrAuthPubkey, hmulti, Bool.not_true, Bool.false_and, Bool.false_eq_true, if_false]
      exact .succeeded hle

theorem failcount_checkusername {cfg : Config} {users : Option Bytes} {username : Bytes}
    {a auth : AuthState} {valid : Bool}
    (h : checkusername cfg users username a = .ok (valid, auth)) : auth.failcount = a.failcount := by
  unfold checkusername at h
  split at h
  · cases h
    rfl
  · split at h
    · cases h
    · -- what is checked has the counter of before
      have hchecked : ∀ checked : AuthState, checked.failcount = a.failcount →
          (if checked.checkusernameFailed then (.ok (false, checked) : Except Stop (Bool × AuthState))
            else if checked.pwName.isNone then .ok (false, { checked with checkusernameFailed := true })
            else .ok (true, checked)) = .ok (valid, auth) → auth.failcount = a.failcount := by
        intro checked hcount hok
        split at hok
        · cases hok
          exact hcount
        · split at hok
          · cases hok
            exact hcount
          · cases hok
            exact hcount
      cases hu : a.username with
      | none =>
        simp only [hu] at h
        exact hchecked (firstRequest cfg users username a) rfl h
      | some known =>
        simp only [hu] at h
        by_cases hk : username ≠ known
        · rw [if_pos hk] at h
          cases h
        · rw [if_neg hk] at h
          exact hchecked a rfl h

theorem tally_dispatchMethod (sha : Sha512) (cfg : Config) (req : Request) (header : Header)
    (validUser : Bool) (hguesses : t.guesses = s.guesses)
    (hcount : t.authstate.failcount = s.authstate.failcount) :
    Tally cfg.svrOpts s (dispatchMethod sha cfg req header validUser t) := by
  have hblank := cfg.svrOpts.passwordFlags.2.2.1
  simp only [dispatchMethod, hblank, Bool.and_false, Bool.false_and, Bool.false_eq_true, if_false]
  split
  · exact .uncounted false hguesses hcount
  · split
    · exact tally_svrAuthPubkey validUser req.pubkey hguesses hcount
    · split
      · exact tally_svrAuthPassword sha req.users true header.rest hguesses hcount
      · exact .counted false (by omega) hcount

/-- **What a request does to the counters.** -/
theorem tally_recvMsgUserauthRequest (sha : Sha512) (cfg : Config) (req : Request) (s : Session) :
    Tally cfg.svrOpts s (recvMsgUserauthRequest sha cfg req s) := by
  have hstop : ∀ why, Tally cfg.svrOpts s ((sendBanner s).stop why) := by
    intro why
    refine .stopped why ?_
    rw [guesses_sendBanner]
    exact Nat.le_succ _
  unfold recvMsgUserauthRequest
  split
  · exact .quiet rfl rfl
  · dsimp only
    split
    · exact hstop _
    · split
      · exact hstop _
      · split
        · exact hstop _
        · rename_i valid auth hname
          refine tally_dispatchMethod sha cfg req _ valid (guesses_sendBanner s) ?_
          rw [authstate_sendBanner] at hname
          exact failcount_checkusername hname

end

/-! ## The bound -/

section
variable {sha : Sha512} {cfg : Config} {start : SessionStart} {t t' : TimedSession} {u : Turn}

/-- The failures that fit into `AUTH_TIMEOUT`. -/
def maxFailures : Nat := 1201

/-- While a session goes on, there were no more guesses than counted failures, and no more of
    those than the limit and the clock allow. -/
structure Budget (max : UInt32) (t : TimedSession) : Prop where
  going : t.session.ended = none → t.session.authstate.authdone = false →
    t.session.guesses ≤ t.session.authstate.failcount.toNat ∧
    t.session.authstate.failcount.toNat ≤ max.toNat ∧
    t.connectTime * nanos + t.session.authstate.failcount.toNat * 250000000 ≤ t.now
  total : t.session.guesses ≤ max.toNat + 1
  soon : t.session.guesses ≤ maxFailures

theorem failcount_init : (Session.init cfg start).authstate.failcount = 0 := by
  simp only [Session.init, svrAuthinitialise, sshd4aSvrAuthinitialise]
  split <;> split <;> rfl

theorem Budget.init (now : Nat) :
    Budget cfg.svrOpts.maxauthtries (TimedSession.init cfg start now) where
  going := by
    intro _ _
    simp only [TimedSession.init, failcount_init, monotonicNow]
    refine ⟨Nat.le_refl 0, Nat.zero_le _, ?_⟩
    rw [UInt32.toNat_zero, Nat.zero_mul, Nat.add_zero]
    exact Nat.div_mul_le_self now nanos
  total := Nat.zero_le _
  soon := Nat.zero_le _

theorem toNat_succ {n : UInt32} (h : n.toNat < 1200) : (n + 1).toNat = n.toNat + 1 := by
  rw [UInt32.toNat_add, show (1 : UInt32).toNat = 1 from rfl]
  omega

/-- Time is up before the counter wraps around, so a turn keeps the budget. -/
theorem Budget.step (h : Budget cfg.svrOpts.maxauthtries t) (hs : turn sha cfg t u = some t') :
    Budget cfg.svrOpts.maxauthtries t' := by
  rcases turn_cases hs with ⟨hsession, hconnect, hnow⟩ |
    ⟨req, started, -, hended, hle, hearly, hsession, hconnect, hnow⟩
  · refine ⟨fun hlive hfresh => ?_, ?_, ?_⟩
    · rw [hsession] at hlive hfresh ⊢
      obtain ⟨hguesses, hcount, htime⟩ := h.going hlive hfresh
      refine ⟨hguesses, hcount, ?_⟩
      rw [hconnect]
      exact Nat.le_trans htime hnow
    · rw [hsession]
      exact h.total
    · rw [hsession]
      exact h.soon
  · by_cases hdone : t.session.authstate.authdone = true
    · have hsame : t'.session = t.session := by
        rw [hsession, recvMsgUserauthRequest, if_pos hdone]
      refine ⟨fun _ hfresh => ?_, ?_, ?_⟩
      · rw [hsame, hdone] at hfresh
        cases hfresh
      · rw [hsame]
        exact h.total
      · rw [hsame]
        exact h.soon
    · have hfresh : t.session.authstate.authdone = false := by simpa using hdone
      obtain ⟨hguesses, hcount, htime⟩ := h.going hended hfresh
      have hfew : t.session.authstate.failcount.toNat < 1200 := by
        have hlt := hearly hfresh
        unfold nanos at htime hlt
        omega
      have hsoon : t.session.guesses + 1 ≤ maxFailures := by
        unfold maxFailures
        omega
      have htally := tally_recvMsgUserauthRequest sha cfg req t.session
      rw [← hsession] at htally
      cases htally with
      | quiet hg hf =>
        refine ⟨fun _ _ => ?_, ?_, ?_⟩
        · rw [hg, hf, hconnect]
          exact ⟨hguesses, hcount, by omega⟩
        · rw [hg]
          exact h.total
        · rw [hg]
          exact h.soon
      | failed hg hf hover =>
        have hsucc := toNat_succ hfew
        refine ⟨fun hlive _ => ?_, by omega, by omega⟩
        have hcounted : t'.session.authstate.failcount ≠ t.session.authstate.failcount := by
          intro heq
          have := congrArg UInt32.toNat (hf.symm.trans heq)
          omega
        have hslept := u.le_handling started hcounted
        rw [hf, hsucc, hconnect, hnow, Nat.add_mul, Nat.one_mul, ← Nat.add_assoc]
        refine ⟨by omega, ?_, Nat.add_le_add (Nat.le_trans htime hle) hslept⟩
        by_contra hgt
        have hlt : cfg.svrOpts.maxauthtries < t.session.authstate.failcount + 1 := by
          rw [UInt32.lt_iff_toNat_lt, hsucc]
          omega
        have := hover hlt
        rw [hlive] at this
        cases this
      | final hg hlast =>
        refine ⟨fun hlive hfresh => ?_, by omega, by omega⟩
        rcases hlast with hlast | hlast
        · rw [hlive] at hlast
          cases hlast
        · rw [hfresh] at hlast
          cases hlast

theorem Budget.run {now : Nat} {turns : List Turn}
    (h : Machine.run (turn sha cfg) (TimedSession.init cfg start now) turns = some t) :
    Budget cfg.svrOpts.maxauthtries t :=
  Machine.run_invariant (fun _ _ _ hs hstep => hs.step hstep) (Budget.init now) h

/-- Nothing is tried in an authenticated session. -/
theorem run_of_authdone {s s' : Session} (hdone : s.authstate.authdone = true)
    {reqs : List Request} (h : Machine.run (Sshd4a.step sha cfg) s reqs = some s') : s' = s := by
  refine Machine.run_invariant (I := fun s' => s' = s) ?_ rfl h
  rintro s₁ req s₂ rfl hs
  unfold Sshd4a.step at hs
  split at hs
  · cases hs
  · rw [recvMsgUserauthRequest, if_pos hdone] at hs
    exact (Option.some.inj hs).symm

/-- Whatever the limit is, a session is over after as many guesses as fit into its time. -/
theorem guesses_le_maxFailures {now : Nat} {turns : List Turn}
    (h : Machine.run (turn sha cfg) (TimedSession.init cfg start now) turns = some t) :
    t.session.guesses ≤ maxFailures :=
  (Budget.run h).soon

end

/-- **Guessing is bounded, whatever the limit is**: the largest one included, since the clock ends
    the session before the counter wraps around. -/
theorem guesses_bounded (sha : Sha512) (cfg : Config) : GuessesBounded sha cfg where
  bounded := by
    intro start now turns t hrun
    exact (Budget.run hrun).total
  noneAfter := by
    intro start now turns turns' t t' _ hdone hrun
    obtain ⟨reqs, hreqs⟩ := session_run hrun
    rw [run_of_authdone hdone hreqs]

end Sshd4a
