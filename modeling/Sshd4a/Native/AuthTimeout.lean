import Sshd4a.Lib.Machine
import Sshd4a.Native.Userauth

/-!
# The time a session has to authenticate (`common-session.c`, `svr-auth.c`)

Two clocks limit what a client can try. `session_loop` calls `checktimeouts` in every turn, which
closes a session that is not authenticated `AUTH_TIMEOUT` seconds after it began, and a turn
processes one packet at most. `send_msg_userauth_failure` sleeps before it counts a failure, so
that a counted request takes a quarter of a second at least from `auth_starttime` on.

Time is `CLOCK_MONOTONIC` in nanoseconds. What a turn takes is its label, so that a run is any
division of the time the world may choose. The other timeouts of `checktimeouts` (idle, duration)
can only close a session earlier and are left out, as are the turns of a key exchange: a turn here
may lack a request.
-/

namespace Sshd4a

/-! ## Clock readings -/

/-- `struct timespec`. -/
structure Timespec where
  tvSec : Int
  tvNsec : Int
deriving DecidableEq, Repr

/-- Nanoseconds in a second. -/
def nanos : Nat := 1000000000

/-- `gettime_wrapper` at a time of the clock. -/
def gettimeWrapper (now : Nat) : Timespec := ⟨(now / nanos : Nat), (now % nanos : Nat)⟩

/-- `monotonic_now`, in seconds. -/
def monotonicNow (now : Nat) : Nat := now / nanos

def elapsed (now prev : Nat) : Nat := now - prev

/-- `AUTH_TIMEOUT`. -/
def authTimeout : Nat := 300

/-! ## The delay of a failure -/

def mindelay : UInt32 := 250000000

def vardelay : UInt32 := 100000000

/-- The carry of a difference of two readings. -/
def carry (sec nsec : Int) : Timespec :=
  if nsec < 0 then ⟨sec - 1, nsec + nanos⟩ else ⟨sec, nsec⟩

/-- The delay `send_msg_userauth_failure` sleeps for, from `auth_starttime`, the time at which it
    asks, and what `genrandom` delivers. -/
def failureDelay (authStarttime now : Timespec) (genrandom : UInt32) : Timespec :=
  let delay := carry (now.tvSec - authStarttime.tvSec) (now.tvNsec - authStarttime.tvNsec)
  let randDelay : Int := (mindelay + genrandom % vardelay).toNat
  if delay.tvSec = 0 ∧ delay.tvNsec ≤ randDelay then
    { delay with tvNsec := randDelay - delay.tvNsec }
  else ⟨0, randDelay⟩

def Timespec.total (t : Timespec) : Nat := (t.tvSec * nanos + t.tvNsec).toNat

/-- `while (nanosleep(&delay, &delay) == -1 && errno == EINTR)`: the time it takes if signals
    interrupt the calls after these times. An interrupted call leaves the rest in `delay`. -/
def sleepThrough (delay : Nat) : List Nat → Nat
  | [] => delay
  | nap :: naps => if nap < delay then nap + sleepThrough (delay - nap) naps else delay

/-! ## A session in time -/

structure TimedSession where
  session : Session
  now : Nat
  /-- `ses.connect_time`. -/
  connectTime : Nat
  /-- `dropbear_close("Timeout before auth")`. -/
  timedOut : Bool

/-- A session that begins at this time. -/
def TimedSession.init (cfg : Config) (start : SessionStart) (now : Nat) : TimedSession where
  session := Session.init cfg start
  now := now
  connectTime := monotonicNow now
  timedOut := false

/-- A turn of `session_loop`, with the time that passes in each part of it. -/
structure Turn where
  /-- Until `checktimeouts` asks for the time: the end of the last turn and `select`. -/
  waiting : Nat
  /-- The request `process_packet` dispatches in this turn, if it does. -/
  request : Option Request
  /-- From there to `auth_starttime`. -/
  reading : Nat
  /-- From there to the failure, if there is one. -/
  checking : Nat
  genrandom : UInt32
  /-- The interruptions of `nanosleep`, and how much longer than asked for it slept. -/
  naps : List Nat
  late : Nat

def checktimeouts (t : TimedSession) : TimedSession :=
  if t.session.authstate.authdone = false ∧
      authTimeout ≤ elapsed (monotonicNow t.now) t.connectTime then { t with timedOut := true }
  else t

/-- The time a request takes from `auth_starttime` on. It slept exactly if it counted a failure:
    `failcount++` is the statement after the sleep, and there is no other. -/
def Turn.handling (u : Turn) (authStarttime : Nat) (s s' : Session) : Nat :=
  if s'.authstate.failcount = s.authstate.failcount then u.checking
  else
    u.checking + u.late + sleepThrough
      (failureDelay (gettimeWrapper authStarttime) (gettimeWrapper (authStarttime + u.checking))
        u.genrandom).total u.naps

/-- A turn of `session_loop` of a session that goes on. -/
def turn (sha : Sha512) (cfg : Config) (t : TimedSession) (u : Turn) : Option TimedSession :=
  if t.timedOut ∨ t.session.ended.isSome then none
  else
    let t := checktimeouts { t with now := t.now + u.waiting }
    if t.timedOut then some t
    else
      match u.request with
      | none => some t
      | some req =>
        let authStarttime := t.now + u.reading
        let s' := recvMsgUserauthRequest sha cfg req t.session
        some { t with
          session := s'
          now := authStarttime + u.handling authStarttime t.session s' }

/-! ## What the clocks guarantee -/

theorem sleepThrough_eq (delay : Nat) (naps : List Nat) : sleepThrough delay naps = delay := by
  induction naps generalizing delay with
  | nil => rfl
  | cons nap naps ih =>
    rw [sleepThrough, ih]
    split
    · omega
    · rfl

theorem carry_eq (sec nsec : Int) :
    (carry sec nsec).tvSec * nanos + (carry sec nsec).tvNsec = sec * nanos + nsec := by
  unfold carry nanos
  split
  · show (sec - 1) * _ + (nsec + _) = _
    omega
  · rfl

/-- The delay makes up for the time since `auth_starttime`, up to the least delay. -/
theorem le_failureDelay (started checking : Nat) (genrandom : UInt32) :
    250000000 ≤ checking + (failureDelay (gettimeWrapper started)
      (gettimeWrapper (started + checking)) genrandom).total := by
  have hrand : 250000000 ≤ (mindelay + genrandom % vardelay).toNat := by
    have hmod : (genrandom % vardelay).toNat < 100000000 := by
      rw [UInt32.toNat_mod]
      exact Nat.mod_lt _ (by decide)
    rw [UInt32.toNat_add, show mindelay.toNat = 250000000 from rfl]
    omega
  have hpassed := carry_eq
    ((gettimeWrapper (started + checking)).tvSec - (gettimeWrapper started).tvSec)
    ((gettimeWrapper (started + checking)).tvNsec - (gettimeWrapper started).tvNsec)
  have hclock : ((gettimeWrapper (started + checking)).tvSec - (gettimeWrapper started).tvSec)
      * nanos + ((gettimeWrapper (started + checking)).tvNsec - (gettimeWrapper started).tvNsec)
      = checking := by
    simp only [gettimeWrapper, nanos]
    omega
  rw [hclock] at hpassed
  unfold failureDelay
  dsimp only
  split
  · -- what is left of the delay, after the time since then
    simp only [Timespec.total, nanos] at hpassed ⊢
    omega
  · simp only [Timespec.total, nanos]
    omega

/-- **A counted failure takes a quarter of a second.** -/
theorem Turn.le_handling (u : Turn) (started : Nat) {s s' : Session}
    (h : s'.authstate.failcount ≠ s.authstate.failcount) :
    250000000 ≤ u.handling started s s' := by
  have hdelay := le_failureDelay started u.checking u.genrandom
  rw [Turn.handling, if_neg h, sleepThrough_eq]
  omega

section
variable {sha : Sha512} {cfg : Config} {start : SessionStart} {t t' : TimedSession} {u : Turn}

/-- **What a turn does**: it closes the session, or only time passes, or a request is answered
    before the time to authenticate was up. -/
theorem turn_cases (h : turn sha cfg t u = some t') :
    (t'.session = t.session ∧ t'.connectTime = t.connectTime ∧ t.now ≤ t'.now) ∨
    ∃ req started, u.request = some req ∧ t.session.ended = none ∧ t.now ≤ started ∧
      (t.session.authstate.authdone = false → t.now < (t.connectTime + 300) * nanos) ∧
      t'.session = recvMsgUserauthRequest sha cfg req t.session ∧
      t'.connectTime = t.connectTime ∧
      t'.now = started + u.handling started t.session t'.session := by
  unfold turn at h
  split at h
  · cases h
  · rename_i hgoing
    obtain ⟨-, hended⟩ := not_or.mp hgoing
    have hended : t.session.ended = none := by simpa using hended
    by_cases hover : t.session.authstate.authdone = false ∧
        authTimeout ≤ elapsed (monotonicNow (t.now + u.waiting)) t.connectTime
    · simp only [checktimeouts, if_pos hover, if_true] at h
      cases h
      exact Or.inl ⟨rfl, rfl, Nat.le_add_right _ _⟩
    · simp only [checktimeouts, if_neg hover] at h
      split at h
      · cases h
        exact Or.inl ⟨rfl, rfl, Nat.le_add_right _ _⟩
      · split at h
        · cases h
          exact Or.inl ⟨rfl, rfl, Nat.le_add_right _ _⟩
        · rename_i req hreq
          cases h
          refine Or.inr ⟨req, t.now + u.waiting + u.reading, hreq, hended, by omega, ?_, rfl, rfl,
            rfl⟩
          intro hfresh
          have hearly : elapsed (monotonicNow (t.now + u.waiting)) t.connectTime < 300 :=
            Nat.lt_of_not_le fun hle => hover ⟨hfresh, hle⟩
          simp only [elapsed, monotonicNow, nanos] at hearly ⊢
          omega

/-- A session in time is a session: its requests are those of the turns, as far as they were
    received. -/
theorem session_run {us : List Turn} (h : Machine.run (turn sha cfg) t us = some t') :
    ∃ reqs, Machine.run (step sha cfg) t.session reqs = some t'.session := by
  refine Machine.run_invariant (I := fun t' => ∃ reqs,
    Machine.run (step sha cfg) t.session reqs = some t'.session) ?_ ⟨[], rfl⟩ h
  rintro t₁ u t₂ ⟨reqs, hrun⟩ hturn
  rcases turn_cases hturn with ⟨hsame, -, -⟩ | ⟨req, _, -, hended, -, -, hs, -, -⟩
  · exact ⟨reqs, by rw [hsame]; exact hrun⟩
  · refine ⟨reqs ++ [req], ?_⟩
    have hstep : step sha cfg t₁.session req = some t₂.session := by
      rw [step, hended, hs]
      rfl
    rw [Machine.run_append, hrun, Option.bind_some, Machine.run_cons hstep, Machine.run_nil]

end

end Sshd4a
