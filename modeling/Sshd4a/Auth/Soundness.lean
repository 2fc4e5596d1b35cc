import Sshd4a.Auth.Password

/-!
# What a run of requests accepts, and from which state

Two properties of whole sessions, both over every sequence of requests and every content the
file has at each of them.

The first is soundness of the password method: a success is owed to a hash in the file read by
that very request, or to the single-use password. It fails on the code, because a session
always holds *some* string to compare with: `fill_passwd` puts `"!!"` where it has none, and an
attempt leaves the hash text it found in `pw_passwd`. `password_sound_iff` says that these are
the only ways it fails: a run is sound exactly when no request without a password field in the
file sends the string the session holds, unless that string is the single-use password.

The second is that nothing is NULL where it is used. It fails when the first username is too
long: `checkusername` returns before it fills anything in, and the password branch goes on
regardless. `defined_iff` says that this is the only way.
-/

namespace Sshd4a

open Text Machine

/-- A digest that does not depend on its input, for evaluating the model at one password. -/
def Sha512.const (digest : Vector UInt8 64) : Sha512 where
  digest := fun _ => digest.toList
  hashsize := fun _ => by simp

/-! ## Soundness of the password method -/

/-- A password that is accepted in this step is the preimage of the password field of the
    session's user in the file read now, or the single-use password. -/
def SoundStep (sha : Sha512) (cfg : Config) (start : SessionStart) (s : Session) (req : Request) :
    Prop :=
  ∀ header s', step sha cfg s req = some s' →
    readHeader req.payload = .ok header → header.methodname = authMethodPassword →
    s.authstate.authdone = false → s'.authstate.authdone = true →
    ∃ password, readPassword header.rest = some password ∧
      ((∃ u line hash, s'.authstate.username = some u ∧
          sshd4aFindUser req.users (some u) = .ok (some line) ∧ line.password = some hash ∧
          hash ≠ [] ∧ hash = sha.base64 password) ∨
        (cfg.enableSingleUsePasswords = true ∧ password = start.genPass))

/-- A live session is not sent the string it holds while the file has no password field for its
    user, unless that string is the single-use password. -/
def HeldStringNotSent (cfg : Config) (start : SessionStart) (s : Session) (req : Request) : Prop :=
  ∀ header auth u password, s.ended = none → Attempt cfg req s header auth password →
    s.usernameFor header = some u → passwordField req.users u = none → 0 ∉ password →
    password = s.heldPasswd → cfg.enableSingleUsePasswords = true ∧ password = start.genPass

section
variable {sha : Sha512} {cfg : Config} {start : SessionStart} {req : Request} {s s' : Session}

theorem passwordField_eq_some {users : Option Bytes} {u hash : Bytes} :
    passwordField users u = some hash ↔
      ∃ line, sshd4aFindUser users (some u) = .ok (some line) ∧ line.password = some hash := by
  rw [passwordField, Option.bind_eq_some_iff, sshd4aFindUser_some]
  simp

theorem Checked.authdone {header : Header} {valid : Bool} {auth : AuthState}
    (hc : Checked cfg req s header valid auth) (h : Credentials cfg start s.authstate) :
    auth.authdone = false := by
  rcases checkusername_ok h hc.name with ⟨-, -, rfl⟩ | ⟨-, -, -, -, ⟨-, rfl⟩ | ⟨-, rfl⟩⟩ <;>
    exact hc.fresh

theorem Effect.attempt_of_success (heff : Effect sha cfg req s s')
    (h : Credentials cfg start s.authstate) {header : Header}
    (hread : readHeader req.payload = .ok header)
    (hm : header.methodname = authMethodPassword) (hfresh : s.authstate.authdone = false)
    (hdone : s'.authstate.authdone = true) :
    ∃ auth password, Attempt cfg req s header auth password ∧
      s' = tryPassword sha cfg.svrOpts req.users password (s.atCheck auth) := by
  cases heff with
  | idle done => exact absurd done (by simp [hfresh])
  | refused state =>
    rw [state] at hdone
    exact absurd hdone (by simp [hfresh])
  | answered checked state =>
    rw [state] at hdone
    exact absurd hdone (by simp [checked.authdone h])
  | keyVerified checked method =>
    cases hread.symm.trans checked.read
    exact absurd (hm.symm.trans method) (by decide)
  | attempted attempt =>
    obtain ⟨valid, checked⟩ := attempt.checked
    cases hread.symm.trans checked.read
    exact ⟨_, _, attempt, rfl⟩

theorem step_of_live (hl : s.ended = none) :
    step sha cfg s req = some (recvMsgUserauthRequest sha cfg req s) := by
  unfold step
  rw [if_neg (by simp [hl])]

theorem soundStep_iff (h : Credentials cfg start s.authstate) :
    SoundStep sha cfg start s req ↔ HeldStringNotSent cfg start s req := by
  constructor
  · intro hsound header auth u password hlive ha hu hnone hnul hheld
    obtain ⟨valid, hc⟩ := ha.checked
    obtain ⟨n, d, hstate, hdone⟩ := ha.outcome_named sha h hu
    have hacc : Accepts sha req.users u s.heldPasswd password := by
      refine ⟨hnul, ?_⟩
      rw [hnone]
      exact hheld
    obtain ⟨password', hp', hcase⟩ := hsound header _ (step_of_live hlive) hc.read ha.method hc.fresh
      (by rw [ha.recv, hstate]; exact hdone.mpr hacc)
    have hpw : password' = password := Option.some.inj (hp'.symm.trans ha.password)
    subst hpw
    rcases hcase with ⟨v, line, hash, hv, hfind, hline, -⟩ | hsingle
    · rw [ha.recv, hstate] at hv
      have hvu : u = v := Option.some.inj (hu.symm.trans ((ha.username h).symm.trans hv))
      subst hvu
      rw [passwordField_eq_some.mpr ⟨line, hfind, hline⟩] at hnone
      exact absurd hnone (by simp)
    · exact hsingle
  · intro hcond header s' hs hread hm hfresh hdone
    have hlive : s.ended = none := by
      cases hl : s.ended with
      | none => rfl
      | some why => simp [step, hl] at hs
    obtain ⟨auth, password, ha, rfl⟩ :=
      (step_effect hs).attempt_of_success h hread hm hfresh hdone
    refine ⟨password, ha.password, ?_⟩
    cases hu : s.usernameFor header with
    | none =>
      obtain ⟨n, d, hstate, hd⟩ := ha.outcome_unnamed sha h hu
      rw [hstate] at hdone
      exact Or.inr (hd hdone)
    | some u =>
      obtain ⟨n, d, hstate, hd⟩ := ha.outcome_named sha h hu
      rw [hstate] at hdone
      obtain ⟨hnul, hmatch⟩ := hd.mp hdone
      cases hf : passwordField req.users u with
      | none =>
        rw [hf] at hmatch
        exact Or.inr (hcond header auth u password hlive ha hu hf hnul hmatch)
      | some hash =>
        rw [hf] at hmatch
        obtain ⟨line, hfind, hline⟩ := passwordField_eq_some.mp hf
        refine Or.inl ⟨u, line, hash, ?_, hfind, hline, passwordField_ne_nil hf, hmatch.symm⟩
        rw [hstate]
        exact (ha.username h).trans hu

/-- **A session is sound exactly when it is never sent the string it holds in a place where
    only the single-use password belongs.** -/
theorem password_sound_iff (sha : Sha512) (cfg : Config) (start : SessionStart)
    (reqs : List Request) :
    Along (step sha cfg) (SoundStep sha cfg start) (Session.init cfg start) reqs ↔
      Along (step sha cfg) (HeldStringNotSent cfg start) (Session.init cfg start) reqs :=
  Along.congr (I := fun s => Credentials cfg start s.authstate)
    (fun _ _ _ h hs => h.step hs) (fun _ _ h => soundStep_iff h) Credentials.init reqs

end

/-- SHA-512 of `"!!"`. -/
def placeholderDigest : Vector UInt8 64 :=
  #v[45, 208, 202, 118, 135, 49, 112, 172, 92, 111, 65, 23, 55, 230, 117, 39,
     247, 34, 40, 41, 140, 194, 51, 143, 235, 47, 99, 133, 74, 29, 121, 213,
     254, 108, 87, 64, 206, 157, 23, 49, 150, 189, 163, 157, 88, 25, 40, 197,
     153, 74, 12, 77, 164, 204, 183, 175, 229, 162, 82, 66, 111, 195, 241, 136]

def aliceName : Bytes := ['a', 'l', 'i', 'c', 'e'].map byte

/-- `bob:x`: somebody else's line. -/
def bobFile : Bytes := ['b', 'o', 'b', ':', 'x', '\n'].map byte

def bobStart : SessionStart := ⟨some bobFile, none, Vector.replicate 8 0⟩

/-- Alice, whom the file does not know, sends `!!`. -/
def placeholderRequest : Request where
  payload := passwordPayload aliceName passwdPlaceholder
  users := some bobFile
  pubkey := .unknownAlgorithm

/-- The placeholder opens the session of a user the file does not know. -/
theorem placeholder_accepted :
    ¬ Along (step (Sha512.const placeholderDigest) (appConfig false))
        (SoundStep (Sha512.const placeholderDigest) (appConfig false) bobStart)
        (Session.init (appConfig false) bobStart) [placeholderRequest] := by
  intro h
  obtain ⟨password, -, ⟨u, line, hash, hu, hfind, -⟩ | ⟨hsingle, -⟩⟩ :=
    h.1 (passwordHeader aliceName passwdPlaceholder) _ rfl
      (readHeader_passwordPayload_short (by decide) _) rfl (by decide) (by decide)
  · have hname : u = aliceName := by
      rw [← Option.some.inj hu]
      decide
    have hnone : sshd4aFindUser placeholderRequest.users (some aliceName) = .ok none := by decide
    rw [hname, hnone] at hfind
    cases hfind
  · exact absurd hsingle (by decide)

/-! ## Nothing is NULL where it is used -/

/-- The pointers the password path and a login follow are set. -/
structure Defined (s : Session) : Prop where
  entered : ∀ u p, .authPassword u p ∈ s.log → u ≠ none ∧ p ≠ none
  loggedIn : s.authstate.authdone = true → s.authstate.username ≠ none ∧
    s.authstate.pwName ≠ none ∧ s.authstate.pwDir ≠ none ∧ s.authstate.pwShell ≠ none

/-- A live session that has no username yet is not sent a password with a name that is too
    long. -/
def FirstNameFits (cfg : Config) (s : Session) (req : Request) : Prop :=
  ∀ header auth password, s.ended = none → Attempt cfg req s header auth password →
    s.authstate.username = none → header.username.length ≤ maxUsernameLen

section
variable {sha : Sha512} {cfg : Config} {start : SessionStart} {req : Request} {s s' : Session}

theorem Defined.init : Defined (Session.init cfg start) where
  entered := fun u p hm => absurd hm (by simp [Session.init])
  loggedIn := by
    intro hd
    rw [authdone_init] at hd
    exact absurd hd (by simp)

theorem Credentials.defined {a : AuthState} (h : Credentials cfg start a) {u : Bytes}
    (hu : a.username = some u) :
    a.username ≠ none ∧ a.pwName ≠ none ∧ a.pwDir ≠ none ∧ a.pwShell ≠ none := by
  obtain ⟨-, -, hname, p, b, -, -, hdir, hshell⟩ := h.named u hu
  simp [hu, hname, hdir, hshell]

theorem Session.usernameFor_eq_none {header : Header} :
    s.usernameFor header = none ↔
      s.authstate.username = none ∧ maxUsernameLen < header.username.length := by
  unfold Session.usernameFor
  by_cases hlen : maxUsernameLen < header.username.length
  · rw [if_pos hlen]
    simp [hlen]
  · rw [if_neg hlen]
    simp [hlen]

theorem Defined.step (hs : step sha cfg s req = some s') (h : Credentials cfg start s.authstate)
    (hd : Defined s) (hfit : FirstNameFits cfg s req) : Defined s' := by
  have hlive : s.ended = none := by
    cases hl : s.ended with
    | none => rfl
    | some why => simp [Sshd4a.step, hl] at hs
  have hsame : SameEntries s s' → ∀ u p, .authPassword u p ∈ s'.log → u ≠ none ∧ p ≠ none :=
    fun same u p hm => hd.entered u p ((same u p).mp hm)
  have hcred := h.step hs
  cases step_effect hs with
  | idle => exact hd
  | refused state same => exact ⟨hsame same, by rw [state]; exact hd.loggedIn⟩
  | answered checked state same =>
    refine ⟨hsame same, fun hdone => ?_⟩
    rw [state] at hdone
    exact absurd hdone (by simp [checked.authdone h])
  | keyVerified checked method state same =>
    refine ⟨hsame same, fun _ => ?_⟩
    -- A verified key needs a valid user, so the name was accepted.
    rcases checkusername_ok h checked.name with ⟨hv, -⟩ | ⟨-, -, -, hu, -⟩
    · exact absurd hv (by simp)
    · exact hcred.defined (by rw [state]; exact hu)
  | @attempted header auth password attempt =>
    have hname : s.usernameFor header ≠ none := by
      intro hn
      obtain ⟨hn, hlong⟩ := Session.usernameFor_eq_none.mp hn
      exact absurd (hfit header auth password hlive attempt hn) (Nat.not_le.mpr hlong)
    obtain ⟨u, hu⟩ := Option.ne_none_iff_exists'.mp hname
    refine ⟨fun v p hm => ?_, fun _ => ?_⟩
    · rcases (mem_log_tryPassword cfg.svrOpts).mp hm with hm | ⟨hv, hp⟩
      · exact hd.entered v p (mem_log_sendBanner.mp hm)
      · have hv' : v = some u := hv.trans ((attempt.username h).trans hu)
        have hp' : p = some s.heldPasswd := hp.trans (attempt.held h hu)
        simp [hv', hp']
    · obtain ⟨n, d, hstate, -⟩ := attempt.outcome_named sha h hu
      refine hcred.defined (u := u) ?_
      rw [hstate]
      exact (attempt.username h).trans hu

theorem firstNameFits_of_defined (h : Credentials cfg start s.authstate)
    (hok : ∀ s', step sha cfg s req = some s' → Defined s') : FirstNameFits cfg s req := by
  intro header auth password hlive ha hn
  by_contra hlong
  have hname : s.usernameFor header = none :=
    Session.usernameFor_eq_none.mpr ⟨hn, Nat.lt_of_not_le hlong⟩
  have hentered := (hok _ (step_of_live hlive)).entered none auth.pwPasswd (by
    rw [ha.recv]
    exact (mem_log_tryPassword cfg.svrOpts).mpr
      (Or.inr ⟨((ha.username h).trans hname).symm, rfl⟩))
  exact hentered.1 rfl

/-- **Everything stays defined exactly when no session without a username is sent a password
    with a name that is too long.** -/
theorem defined_iff (sha : Sha512) (cfg : Config) (start : SessionStart) (reqs : List Request) :
    Along (step sha cfg) (fun s req => ∀ s', step sha cfg s req = some s' → Defined s')
        (Session.init cfg start) reqs ↔
      Along (step sha cfg) (FirstNameFits cfg) (Session.init cfg start) reqs := by
  constructor
  · intro h
    exact h.imp (I := fun s => Credentials cfg start s.authstate)
      (fun _ _ _ hc _ hs => hc.step hs) (fun _ _ hc hok => firstNameFits_of_defined hc hok)
      Credentials.init
  · intro h
    exact h.imp (I := fun s => Credentials cfg start s.authstate ∧ Defined s)
      (fun _ _ _ hi hfit hs => ⟨hi.1.step hs, hi.2.step hs hi.1 hfit⟩)
      (fun _ _ hi hfit _ hs => hi.2.step hs hi.1 hfit) ⟨Credentials.init, Defined.init⟩

end

/-- A password request whose username has 101 bytes. -/
def longNameRequest : Request where
  payload := passwordPayload (List.replicate 101 (byte 'a')) passwdPlaceholder
  users := some bobFile
  pubkey := .unknownAlgorithm

/-- The lookup is entered with a NULL username. -/
theorem longName_undefined :
    ¬ Along (step (Sha512.const placeholderDigest) (appConfig false))
        (fun s req => ∀ s', step (Sha512.const placeholderDigest) (appConfig false) s req = some s' →
          Defined s')
        (Session.init (appConfig false) bobStart) [longNameRequest] := by
  intro h
  have hlen : maxUsernameLen < (List.replicate 101 (byte 'a')).length := by
    rw [List.length_replicate]
    decide
  have hattempt : Attempt (appConfig false) longNameRequest (Session.init (appConfig false) bobStart)
      (passwordHeader (List.replicate 101 (byte 'a')) passwdPlaceholder)
      (Session.init (appConfig false) bobStart).authstate passwdPlaceholder := by
    refine attempt_passwordPayload rfl (by decide) ?_ (by decide) (checkusername_long hlen)
      (by decide)
    rw [List.length_replicate]
    decide
  have hfits := firstNameFits_of_defined Credentials.init h.1 _ _ _ rfl hattempt (by decide)
  exact absurd hfits (Nat.not_le.mpr hlen)

end Sshd4a
