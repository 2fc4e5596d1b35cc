import Mathlib.Data.Finset.Basic
import Sshd4a.Lib.Machine

/-!
# The service and its server process (`SshdService.java`)

Two threads take part: the main thread runs `onStartCommand` and `onDestroy`, and the executor
runs one watchdog task at a time. Both call `startSshd`. The steps are the `synchronized`
blocks and the native calls, so a call of `startSshd` is three of them: the block of `stopSshd`
that forgets and kills the old process, the fork, and the block that publishes the new pid.
`kill` is called inside the first block and belongs to it; handing the watchdog to the executor
belongs to the last. The child may die at any time, and everything the environment decides (the
pid, the clocks, who moves next) is in the label.

The lock is held for single blocks only, so two calls can interleave: each stops what is
published, both fork, and one process is never published. In the same way a restart that was
decided before `onDestroy` starts a server after it. `one_server` says what the code does
guarantee: along every run in which the calls do not overlap and `onDestroy` does not fall into
a restart, there is one server and none after shutdown.
-/

namespace Sshd4a

open Machine

/-! ## States -/

inductive Thread
  | main
  | watchdog
deriving DecidableEq, Repr

/-- How far a call of `startSshd` is. -/
inductive Call
  | stopped
  /-- `start_sshd` has returned; `none` is -1. -/
  | forked (pid : Option Nat)
deriving DecidableEq, Repr

/-- The executor thread. -/
inductive Watchdog
  | idle
  /-- In `waitpid`. -/
  | waiting (pid : Nat)
  /-- `waitpid` has returned. -/
  | waited (pid : Nat)
  /-- Decided to restart, `startSshd` not entered yet. -/
  | restart
  | starting (call : Call)
deriving DecidableEq, Repr

structure Service where
  sshdPid : Nat := 0
  sshdStartTime : Int := 0
  sshdDuration : Int := 0
  /-- The processes `start_sshd` returned that are alive and not killed. -/
  alive : Finset Nat := ∅
  /-- Those nobody has waited for yet; their pids cannot be given out again. -/
  unreaped : Finset Nat := ∅
  main : Option Call := none
  watchdog : Watchdog := .idle
  /-- The pids of the queued watchdog tasks. -/
  queue : List Nat := []
  /-- `onDestroy` has returned and no `onStartCommand` has come since. -/
  destroyed : Bool := false

/-- A service after `onCreate`. -/
def Service.init : Service := {}

inductive Label
  /-- `startSshd` is entered: the block of `stopSshd`. On the main thread this is
      `onStartCommand`. -/
  | stop (thread : Thread)
  /-- `start_sshd` returns. -/
  | fork (thread : Thread) (pid : Option Nat)
  /-- The pid is published and a watchdog queued: `startSshd` returns. -/
  | publish (thread : Thread)
  /-- `onDestroy`. -/
  | destroy
  /-- A watchdog task starts; its first block reads the clock. -/
  | begin (nanoTime : Int)
  /-- `waitpid` returns. -/
  | wait
  /-- The second block of the watchdog. -/
  | decide (currentTimeMillis : Int)
  | die (pid : Nat)
deriving DecidableEq, Repr

/-! ## Steps -/

def minDurationMs : Int := 10000

/-- A difference of two `long`s. -/
def longSub (a b : Int) : Int := (a - b).bmod 0x10000000000000000

/-- The block of `stopSshd`. -/
def Service.stopSshd (s : Service) : Service :=
  { s with sshdPid := 0, alive := if 0 < s.sshdPid then s.alive.erase s.sshdPid else s.alive }

/-- The call of `startSshd` a thread is in. -/
def Service.call (s : Service) : Thread → Option Call
  | .main => s.main
  | .watchdog =>
    match s.watchdog with
    | .starting call => some call
    | _ => none

def Service.setCall (s : Service) (call : Option Call) : Thread → Service
  | .main => { s with main := call }
  | .watchdog =>
    { s with watchdog := match call with
        | some call => .starting call
        | none => .idle }

/-- The condition for a restart, once the process is known to have died on its own. -/
def Service.restarts (s : Service) (currentTimeMillis : Int) : Bool :=
  s.sshdDuration == 0 || minDurationMs ≤ s.sshdDuration ||
    minDurationMs ≤ longSub currentTimeMillis s.sshdStartTime

def serviceStep (s : Service) : Label → Option Service
  | .stop .main =>
    if s.main = none then some { s.stopSshd with main := some .stopped, destroyed := false }
    else none
  | .stop .watchdog =>
    if s.watchdog = .restart then some { s.stopSshd with watchdog := .starting .stopped }
    else none
  | .fork thread pid =>
    if s.call thread = some .stopped then
      match pid with
      | none => some (s.setCall (some (.forked none)) thread)
      | some p =>
        if 0 < p ∧ p ∉ s.unreaped then
          some { s.setCall (some (.forked (some p))) thread with
            alive := insert p s.alive, unreaped := insert p s.unreaped }
        else none
    else none
  | .publish thread =>
    match s.call thread with
    | some (.forked none) => some { s.setCall none thread with sshdPid := 0 }
    | some (.forked (some p)) =>
      some { s.setCall none thread with sshdPid := p, queue := s.queue ++ [p] }
    | _ => none
  | .destroy => if s.main = none then some { s.stopSshd with destroyed := true } else none
  | .begin nanoTime =>
    match s.watchdog, s.queue with
    | .idle, pid :: queue =>
      some { s with
        sshdDuration := if s.sshdStartTime = 0 then 0 else longSub nanoTime s.sshdStartTime
        sshdStartTime := nanoTime
        watchdog := .waiting pid
        queue := queue }
    | _, _ => none
  | .wait =>
    match s.watchdog with
    | .waiting pid =>
      if pid ∈ s.alive then none
      else some { s with watchdog := .waited pid, unreaped := s.unreaped.erase pid }
    | _ => none
  | .decide currentTimeMillis =>
    match s.watchdog with
    | .waited pid =>
      if s.sshdPid = pid then
        some { s with
          sshdPid := 0
          watchdog := if s.restarts currentTimeMillis then .restart else .idle }
      -- The process was stopped by request
      else some { s with watchdog := .idle }
    | _ => none
  | .die pid => if pid ∈ s.alive then some { s with alive := s.alive.erase pid } else none

/-- All a step can do, with the guard it was taken under. -/
inductive Service.Moves (s : Service) : Label → Service → Prop
  | stopMain (hmain : s.main = none) :
    s.Moves (.stop .main) { s.stopSshd with main := some .stopped, destroyed := false }
  | stopWatchdog (hrestart : s.watchdog = .restart) :
    s.Moves (.stop .watchdog) { s.stopSshd with watchdog := .starting .stopped }
  | forkFails (t : Thread) (hcall : s.call t = some .stopped) :
    s.Moves (.fork t none) (s.setCall (some (.forked none)) t)
  | fork (t : Thread) (p : Nat) (hcall : s.call t = some .stopped)
    (hpid : 0 < p ∧ p ∉ s.unreaped) :
    s.Moves (.fork t (some p)) { s.setCall (some (.forked (some p))) t with
      alive := insert p s.alive, unreaped := insert p s.unreaped }
  | publishNone (t : Thread) (hcall : s.call t = some (.forked none)) :
    s.Moves (.publish t) { s.setCall none t with sshdPid := 0 }
  | publish (t : Thread) (p : Nat) (hcall : s.call t = some (.forked (some p))) :
    s.Moves (.publish t) { s.setCall none t with sshdPid := p, queue := s.queue ++ [p] }
  | destroy (hmain : s.main = none) : s.Moves .destroy { s.stopSshd with destroyed := true }
  | begin (nanoTime : Int) (pid : Nat) (queue : List Nat) (hidle : s.watchdog = .idle)
    (hqueue : s.queue = pid :: queue) :
    s.Moves (.begin nanoTime) { s with
      sshdDuration := if s.sshdStartTime = 0 then 0 else longSub nanoTime s.sshdStartTime
      sshdStartTime := nanoTime
      watchdog := .waiting pid
      queue := queue }
  | wait (pid : Nat) (hwaiting : s.watchdog = .waiting pid) (hdead : pid ∉ s.alive) :
    s.Moves .wait { s with watchdog := .waited pid, unreaped := s.unreaped.erase pid }
  | decideFailed (currentTimeMillis : Int) (hwaited : s.watchdog = .waited s.sshdPid) :
    s.Moves (.decide currentTimeMillis) { s with
      sshdPid := 0
      watchdog := if s.restarts currentTimeMillis then .restart else .idle }
  | decideStopped (currentTimeMillis : Int) (pid : Nat) (hwaited : s.watchdog = .waited pid)
    (hpid : s.sshdPid ≠ pid) :
    s.Moves (.decide currentTimeMillis) { s with watchdog := .idle }
  | die (pid : Nat) (halive : pid ∈ s.alive) :
    s.Moves (.die pid) { s with alive := s.alive.erase pid }

theorem serviceStep_moves {s s' : Service} {l : Label} (h : serviceStep s l = some s') :
    s.Moves l s' := by
  cases l with
  | stop t =>
    cases t with
    | main =>
      simp only [serviceStep] at h
      split at h <;> cases h
      exact .stopMain ‹_›
    | watchdog =>
      simp only [serviceStep] at h
      split at h <;> cases h
      exact .stopWatchdog ‹_›
  | fork t pid =>
    simp only [serviceStep] at h
    split at h
    · rename_i hcall
      cases pid with
      | none =>
        cases h
        exact .forkFails t hcall
      | some p =>
        simp only at h
        split at h <;> cases h
        exact .fork t p hcall ‹_›
    · cases h
  | publish t =>
    simp only [serviceStep] at h
    split at h <;> cases h
    · exact .publishNone t ‹_›
    · exact .publish t _ ‹_›
  | destroy =>
    simp only [serviceStep] at h
    split at h <;> cases h
    exact .destroy ‹_›
  | begin nanoTime =>
    simp only [serviceStep] at h
    split at h <;> cases h
    exact .begin nanoTime _ _ ‹_› ‹_›
  | wait =>
    simp only [serviceStep] at h
    split at h
    · split at h <;> cases h
      exact .wait _ ‹_› ‹_›
    · cases h
  | decide currentTimeMillis =>
    simp only [serviceStep] at h
    split at h
    · rename_i pid hwaited
      split at h <;> rename_i hpid <;> cases h
      · exact .decideFailed currentTimeMillis (hpid ▸ hwaited)
      · exact .decideStopped currentTimeMillis pid hwaited hpid
    · cases h
  | die pid =>
    simp only [serviceStep] at h
    split at h <;> cases h
    exact .die pid ‹_›

/-! ## One server, none after shutdown -/

/-- The executor is inside `startSshd`. -/
def Watchdog.isStarting : Watchdog → Bool
  | .starting _ => true
  | _ => false

structure OneServer (s : Service) : Prop where
  published : s.main = none → s.watchdog.isStarting = false → ∀ p ∈ s.alive, p = s.sshdPid
  shutdown : s.destroyed = true → s.watchdog ≠ .restart → s.watchdog.isStarting = false →
    s.alive = ∅

/-- Calls of `startSshd` do not overlap, `onDestroy` does not come between the decision to
    restart and the end of the restart, and a new process does not get the pid of one whose
    watchdog is about to look at it. -/
def NoOverlap (s : Service) : Label → Prop
  | .stop .main => s.watchdog.isStarting = false
  | .stop .watchdog => s.main = none
  | .destroy => s.watchdog ≠ .restart ∧ s.watchdog.isStarting = false
  | .fork _ (some p) => s.watchdog ≠ .waited p
  | _ => True

instance (s : Service) : ∀ l, Decidable (NoOverlap s l)
  | .stop .main => inferInstanceAs (Decidable (_ = _))
  | .stop .watchdog => inferInstanceAs (Decidable (_ = _))
  | .destroy => inferInstanceAs (Decidable (_ ∧ _))
  | .fork _ (some _) => inferInstanceAs (Decidable (_ ≠ _))
  | .fork _ none => isTrue trivial
  | .publish _ => isTrue trivial
  | .begin _ => isTrue trivial
  | .wait => isTrue trivial
  | .decide _ => isTrue trivial
  | .die _ => isTrue trivial

/-! ## The invariant -/

/-- What holds between any two steps when calls do not overlap. -/
structure Service.Inv (s : Service) : Prop where
  exclusive : ∀ t t', s.call t ≠ none → s.call t' ≠ none → t = t'
  /-- A live process is published, or about to be. -/
  owned : ∀ p ∈ s.alive, 0 < p ∧ (p = s.sshdPid ∨ ∃ t, s.call t = some (.forked (some p)))
  cleared : ∀ t c, s.call t = some c → s.sshdPid = 0
  forkedPos : ∀ t p, s.call t = some (.forked (some p)) → 0 < p
  queuePos : ∀ p ∈ s.queue, 0 < p
  watchedPos : ∀ p, s.watchdog = .waiting p ∨ s.watchdog = .waited p → 0 < p
  waitedDead : ∀ p, s.watchdog = .waited p → p ∉ s.alive
  reapedDead : s.alive ⊆ s.unreaped
  shut : s.destroyed = true →
    s.main = none ∧ s.sshdPid = 0 ∧ s.watchdog ≠ .restart ∧ s.watchdog.isStarting = false

section
variable {s s' : Service} {l : Label}

theorem Service.call_watchdog_none (hw : s.watchdog.isStarting = false) :
    s.call .watchdog = none := by
  unfold Service.call
  cases hd : s.watchdog with
  | starting call =>
    rw [hd] at hw
    exact absurd hw (by simp [Watchdog.isStarting])
  | _ => rfl

theorem Service.call_eq_none (hm : s.main = none) (hw : s.watchdog.isStarting = false)
    (t : Thread) : s.call t = none := by
  cases t with
  | main => exact hm
  | watchdog => exact Service.call_watchdog_none hw

theorem Service.call_watchdog {c : Call} :
    s.call .watchdog = some c ↔ s.watchdog = .starting c := by
  unfold Service.call
  cases hd : s.watchdog with
  | starting call => simp
  | _ => simp

theorem Service.Inv.init : Service.init.Inv where
  exclusive := fun t t' h => absurd (by cases t <;> rfl) h
  owned := by simp [Service.init]
  cleared := fun t c h => by cases t <;> cases h
  forkedPos := fun t p h => by cases t <;> cases h
  queuePos := by simp [Service.init]
  watchedPos := by simp [Service.init]
  waitedDead := by simp [Service.init]
  reapedDead := by simp [Service.init]
  shut := by simp [Service.init]

theorem Service.Inv.published (h : s.Inv) (hm : s.main = none)
    (hw : s.watchdog.isStarting = false) : ∀ p ∈ s.alive, p = s.sshdPid := by
  intro p hp
  rcases (h.owned p hp).2 with heq | ⟨t, ht⟩
  · exact heq
  · rw [Service.call_eq_none hm hw t] at ht
    exact absurd ht (by simp)

/-- **The invariant says that there is one server**, and none after shutdown. -/
theorem Service.Inv.oneServer (h : s.Inv) : OneServer s where
  published := h.published
  shutdown := by
    intro hd hr hw
    obtain ⟨hm, hpid, -, -⟩ := h.shut hd
    refine Finset.eq_empty_of_forall_notMem fun p hp => ?_
    have hpos := (h.owned p hp).1
    rw [h.published hm hw p hp, hpid] at hpos
    exact absurd hpos (by simp)

theorem Service.Inv.alive_stopSshd (h : s.Inv) (hm : s.main = none)
    (hw : s.watchdog.isStarting = false) : s.stopSshd.alive = ∅ := by
  refine Finset.eq_empty_of_forall_notMem fun p hp => ?_
  unfold Service.stopSshd at hp
  simp only at hp
  split at hp
  · exact (Finset.mem_erase.mp hp).1 (h.published hm hw p (Finset.mem_erase.mp hp).2)
  · next hpid =>
    have hpos := (h.owned p hp).1
    rw [h.published hm hw p hp] at hpos
    exact hpid hpos

/-- The state after a `stopSshd` outside of any call, whoever made it. -/
theorem Service.Inv.stop (h : s.Inv) (hw : s.watchdog.isStarting = false)
    (hempty : s'.alive = ∅) (hpid : s'.sshdPid = 0) (hqueue : s'.queue = s.queue)
    (hdog : s'.watchdog = s.watchdog ∨ s'.watchdog = .starting .stopped)
    (hmain : s'.main = none ∨ s'.main = some .stopped)
    (hone : s'.call .main = none ∨ s'.call .watchdog = none)
    (hshut : s'.destroyed = true →
      s'.main = none ∧ s'.watchdog ≠ .restart ∧ s'.watchdog.isStarting = false) : s'.Inv where
  exclusive := by
    intro t t' ht ht'
    cases t with
    | main =>
      cases t' with
      | main => rfl
      | watchdog => exact absurd hone (not_or.mpr ⟨ht, ht'⟩)
    | watchdog =>
      cases t' with
      | main => exact absurd hone (not_or.mpr ⟨ht', ht⟩)
      | watchdog => rfl
  owned := by simp [hempty]
  cleared := fun _ _ _ => hpid
  forkedPos := by
    intro t p ht
    cases t with
    | main =>
      rcases hmain with hmain | hmain
      · exact absurd (hmain.symm.trans ht) (by simp)
      · exact absurd (hmain.symm.trans ht) (by simp)
    | watchdog =>
      rw [Service.call_watchdog] at ht
      rcases hdog with hdog | hdog
      · rw [hdog] at ht
        rw [ht] at hw
        exact absurd hw (by simp [Watchdog.isStarting])
      · exact absurd (hdog.symm.trans ht) (by simp)
  queuePos := by
    rw [hqueue]
    exact h.queuePos
  watchedPos := by
    intro p hp
    rcases hdog with hdog | hdog
    · rw [hdog] at hp
      exact h.watchedPos p hp
    · rw [hdog] at hp
      exact absurd hp (by simp)
  waitedDead := by simp [hempty]
  reapedDead := by simp [hempty]
  shut := fun hd => ⟨(hshut hd).1, hpid, (hshut hd).2⟩

theorem Service.Inv.stopMain (h : s.Inv) (hok : NoOverlap s (.stop .main))
    (hm : s.main = none) :
    Service.Inv { s.stopSshd with main := some .stopped, destroyed := false } :=
  h.stop hok (h.alive_stopSshd hm hok) rfl rfl (Or.inl rfl) (Or.inr rfl)
    (Or.inr (Service.call_eq_none hm hok .watchdog)) (fun hd => absurd hd (by simp))

theorem Service.Inv.stopWatchdog (h : s.Inv) (hok : NoOverlap s (.stop .watchdog))
    (hrestart : s.watchdog = .restart) :
    Service.Inv { s.stopSshd with watchdog := .starting .stopped } := by
  have hw : s.watchdog.isStarting = false := by
    rw [hrestart]
    rfl
  refine h.stop hw (h.alive_stopSshd hok hw) rfl rfl (Or.inr rfl) (Or.inl hok) (Or.inl hok) ?_
  -- After shutdown nothing is restarted.
  intro hd
  exact absurd hrestart (h.shut hd).2.2.1

theorem Service.Inv.destroy (h : s.Inv) (hok : NoOverlap s .destroy) (hm : s.main = none) :
    Service.Inv { s.stopSshd with destroyed := true } :=
  h.stop hok.2 (h.alive_stopSshd hm hok.2) rfl rfl (Or.inl rfl) (Or.inl hm) (Or.inl hm)
    (fun _ => ⟨hm, hok⟩)

theorem Service.call_setCall (c : Option Call) (t t' : Thread) :
    (s.setCall c t).call t' = if t' = t then c else s.call t' := by
  cases t <;> cases t' <;> cases c <;> rfl

theorem Service.Inv.alive_in_call (h : s.Inv) {t : Thread} {c : Call} (ht : s.call t = some c) :
    ∀ p ∈ s.alive, c = .forked (some p) := by
  intro p hp
  obtain ⟨hpos, hpid | ⟨t', ht'⟩⟩ := h.owned p hp
  · rw [h.cleared t c ht] at hpid
    exact absurd hpid (Nat.ne_of_gt hpos)
  · have heq : t = t' := h.exclusive t t' (by simp [ht]) (by simp [ht'])
    subst heq
    exact Option.some.inj (ht.symm.trans ht')

theorem Service.watchdog_setCall (c : Option Call) (t : Thread) {w : Watchdog}
    (hw : (s.setCall c t).watchdog = w) (hidle : w ≠ .idle) (hstart : w.isStarting = false) :
    t = .main ∧ s.watchdog = w := by
  cases t with
  | main => exact ⟨rfl, hw⟩
  | watchdog =>
    cases c with
    | none => exact absurd hw.symm hidle
    | some c =>
      rw [← hw] at hstart
      exact absurd hstart (by simp [Service.setCall, Watchdog.isStarting])

/-- Moving on in a call: what has to be checked of the new process, pid and queue. -/
theorem Service.Inv.move (h : s.Inv) {t : Thread} {c : Call} (ht : s.call t = some c)
    (c' : Option Call) (alive unreaped : Finset Nat) (sshdPid : Nat) (queue : List Nat)
    (howned : ∀ p ∈ alive, 0 < p ∧ (p = sshdPid ∨ c' = some (.forked (some p))))
    (hcleared : ∀ d, c' = some d → sshdPid = 0)
    (hpos : ∀ p, c' = some (.forked (some p)) → 0 < p) (hqueue : ∀ p ∈ queue, 0 < p)
    (hwaited : ∀ p, s.watchdog = .waited p → p ∉ alive) (hreaped : alive ⊆ unreaped) :
    Service.Inv { s.setCall c' t with
      alive := alive, unreaped := unreaped, sshdPid := sshdPid, queue := queue } := by
  have hcall : ∀ t', Service.call { s.setCall c' t with
      alive := alive, unreaped := unreaped, sshdPid := sshdPid, queue := queue } t'
      = if t' = t then c' else none := by
    intro t'
    refine (Service.call_setCall c' t t').trans ?_
    by_cases heq : t' = t
    · rw [if_pos heq, if_pos heq]
    · rw [if_neg heq, if_neg heq]
      by_contra hne
      exact heq (h.exclusive t' t hne (by simp [ht]))
  constructor
  case exclusive =>
    intro t₁ t₂ h₁ h₂
    rw [hcall] at h₁ h₂
    have heq₁ : t₁ = t := by
      by_contra hne
      exact h₁ (if_neg hne)
    have heq₂ : t₂ = t := by
      by_contra hne
      exact h₂ (if_neg hne)
    rw [heq₁, heq₂]
  case owned =>
    intro p hp
    obtain ⟨hp0, hcase⟩ := howned p hp
    refine ⟨hp0, hcase.imp_right fun hc => ⟨t, ?_⟩⟩
    rw [hcall, if_pos rfl]
    exact hc
  case cleared =>
    intro t' d hd
    rw [hcall] at hd
    split at hd
    · exact hcleared d hd
    · exact absurd hd (by simp)
  case forkedPos =>
    intro t' p hd
    rw [hcall] at hd
    split at hd
    · exact hpos p hd
    · exact absurd hd (by simp)
  case queuePos => exact hqueue
  case watchedPos =>
    intro p hp
    rcases hp with hp | hp
    · exact h.watchedPos p (Or.inl (Service.watchdog_setCall c' t hp (by simp) rfl).2)
    · exact h.watchedPos p (Or.inr (Service.watchdog_setCall c' t hp (by simp) rfl).2)
  case waitedDead =>
    intro p hp
    exact hwaited p (Service.watchdog_setCall c' t hp (by simp) rfl).2
  case reapedDead => exact hreaped
  case shut =>
    -- A service that was shut down is in no call.
    intro hd
    have hdestroyed : s.destroyed = true := by
      cases t <;> exact hd
    obtain ⟨hm, -, -, hw⟩ := h.shut hdestroyed
    exact absurd (Service.call_eq_none hm hw t) (by simp [ht])

/-- Before a call has forked, and when it could not, nobody is alive. -/
theorem Service.Inv.alive_before_fork (h : s.Inv) {t : Thread} {c : Call}
    (ht : s.call t = some c) (hc : ∀ p, c ≠ .forked (some p)) : ∀ p, p ∉ s.alive := by
  intro p hp
  exact hc p (h.alive_in_call ht p hp)

theorem Service.Inv.forkFails (h : s.Inv) {t : Thread} (ht : s.call t = some .stopped) :
    (s.setCall (some (.forked none)) t).Inv := by
  have hempty := h.alive_before_fork ht (by simp)
  have hmove := h.move ht (some (.forked none)) s.alive s.unreaped s.sshdPid s.queue
    (fun p hp => absurd hp (hempty p)) (fun _ _ => h.cleared t _ ht) (by simp) h.queuePos
    (fun p _ => hempty p) h.reapedDead
  cases t <;> exact hmove

theorem Service.Inv.fork (h : s.Inv) {t : Thread} {p : Nat} (hok : NoOverlap s (.fork t (some p)))
    (ht : s.call t = some .stopped) (hp : 0 < p) :
    Service.Inv { s.setCall (some (.forked (some p))) t with
      alive := insert p s.alive, unreaped := insert p s.unreaped } := by
  have hempty := h.alive_before_fork ht (by simp)
  have hnew : ∀ q ∈ insert p s.alive, q = p := fun q hq =>
    (Finset.mem_insert.mp hq).resolve_right (hempty q)
  have hmove := h.move ht (some (.forked (some p))) (insert p s.alive)
    (insert p s.unreaped) s.sshdPid s.queue ?_ (fun _ _ => h.cleared t _ ht)
    (fun q hq => by cases hq; exact hp) h.queuePos
    (fun q hq hmem => hok (hnew q hmem ▸ hq))
    (Finset.insert_subset_insert p h.reapedDead)
  · cases t <;> exact hmove
  · intro q hq
    rw [hnew q hq]
    exact ⟨hp, Or.inr rfl⟩

theorem Service.Inv.publishNone (h : s.Inv) {t : Thread}
    (ht : s.call t = some (.forked none)) :
    Service.Inv { s.setCall none t with sshdPid := 0 } := by
  have hempty := h.alive_before_fork ht (by simp)
  have hmove := h.move ht none s.alive s.unreaped 0 s.queue
    (fun p hp => absurd hp (hempty p)) (by simp) (by simp) h.queuePos (fun p _ => hempty p)
    h.reapedDead
  cases t <;> exact hmove

theorem Service.Inv.publish (h : s.Inv) {t : Thread} {p : Nat}
    (ht : s.call t = some (.forked (some p))) :
    Service.Inv { s.setCall none t with sshdPid := p, queue := s.queue ++ [p] } := by
  have hone : ∀ q ∈ s.alive, q = p := by
    intro q hq
    have hforked := h.alive_in_call ht q hq
    cases hforked
    rfl
  have hmove := h.move ht none s.alive s.unreaped p (s.queue ++ [p])
    (fun q hq => ⟨(h.owned q hq).1, Or.inl (hone q hq)⟩) (by simp) (by simp) ?_
    h.waitedDead h.reapedDead
  · cases t <;> exact hmove
  · intro q hq
    rcases List.mem_append.mp hq with hq | hq
    · exact h.queuePos q hq
    · rw [List.mem_singleton.mp hq]
      exact h.forkedPos t p ht

/-- A watchdog that moves on outside of `startSshd`. -/
theorem Service.Inv.watch (h : s.Inv) (hw : s.watchdog.isStarting = false)
    (hw' : s'.watchdog.isStarting = false) (hmain : s'.main = s.main)
    (halive : s'.alive = s.alive) (hreaped : s'.alive ⊆ s'.unreaped)
    (hpid : s'.sshdPid = s.sshdPid ∨ (s'.sshdPid = 0 ∧ s.sshdPid ∉ s.alive))
    (hqueue : ∀ p ∈ s'.queue, p ∈ s.queue)
    (hpos : ∀ p, s'.watchdog = .waiting p ∨ s'.watchdog = .waited p → 0 < p)
    (hwaited : ∀ p, s'.watchdog = .waited p → p ∉ s.alive)
    (hshut : s'.destroyed = true → s.destroyed = true ∧ s'.watchdog ≠ .restart) : s'.Inv := by
  have hcall : ∀ t, s'.call t = s.call t := by
    intro t
    cases t with
    | main => exact hmain
    | watchdog => rw [Service.call_watchdog_none hw, Service.call_watchdog_none hw']
  constructor
  case exclusive =>
    intro t t' ht ht'
    rw [hcall] at ht ht'
    exact h.exclusive t t' ht ht'
  case owned =>
    intro p hp
    rw [halive] at hp
    obtain ⟨hp0, hcase⟩ := h.owned p hp
    refine ⟨hp0, ?_⟩
    rcases hcase with heq | ⟨t, ht⟩
    · rcases hpid with hpid | ⟨-, hdead⟩
      · exact Or.inl (heq.trans hpid.symm)
      · exact absurd (heq ▸ hp) hdead
    · exact Or.inr ⟨t, (hcall t).trans ht⟩
  case cleared =>
    intro t c hc
    rw [hcall] at hc
    rcases hpid with hpid | ⟨hpid, -⟩
    · rw [hpid]
      exact h.cleared t c hc
    · exact hpid
  case forkedPos =>
    intro t p hc
    rw [hcall] at hc
    exact h.forkedPos t p hc
  case queuePos => exact fun p hp => h.queuePos p (hqueue p hp)
  case watchedPos => exact hpos
  case waitedDead =>
    intro p hp
    rw [halive]
    exact hwaited p hp
  case reapedDead => exact hreaped
  case shut =>
    intro hd
    obtain ⟨hd', hr⟩ := hshut hd
    obtain ⟨hm, hpid0, -, -⟩ := h.shut hd'
    refine ⟨hmain.trans hm, ?_, hr, hw'⟩
    rcases hpid with hpid | ⟨hpid, -⟩
    · exact hpid.trans hpid0
    · exact hpid

theorem Service.Inv.begin (h : s.Inv) {pid : Nat} {queue : List Nat} (duration start : Int)
    (hidle : s.watchdog = .idle) (hqueue : s.queue = pid :: queue) :
    Service.Inv { s with
      sshdDuration := duration, sshdStartTime := start, watchdog := .waiting pid,
      queue := queue } := by
  have hmem : ∀ p ∈ pid :: queue, 0 < p := by
    rw [← hqueue]
    exact h.queuePos
  refine h.watch (by rw [hidle]; rfl) rfl rfl rfl h.reapedDead (Or.inl rfl) ?_ ?_ (by simp) ?_
  · intro p hp
    rw [hqueue]
    exact List.mem_cons_of_mem pid hp
  · intro p hp
    have hpid : pid = p := by simpa using hp
    rw [← hpid]
    exact hmem pid (by simp)
  · intro hd
    exact ⟨hd, by simp⟩

/-- `waitpid` returns: the process is dead, and stays so until its watchdog has looked. -/
theorem Service.Inv.wait (h : s.Inv) {pid : Nat} (hwaiting : s.watchdog = .waiting pid)
    (hdead : pid ∉ s.alive) :
    Service.Inv { s with watchdog := .waited pid, unreaped := s.unreaped.erase pid } := by
  refine h.watch (by rw [hwaiting]; rfl) rfl rfl rfl ?_ (Or.inl rfl) (fun _ hp => hp) ?_ ?_ ?_
  · intro p hp
    have hne : p ≠ pid := by
      intro heq
      exact hdead (heq ▸ hp)
    exact Finset.mem_erase.mpr ⟨hne, h.reapedDead hp⟩
  · intro p hp
    have hpid : pid = p := by simpa using hp
    rw [← hpid]
    exact h.watchedPos pid (Or.inl hwaiting)
  · intro p hp
    have hpid : pid = p := by simpa using hp
    rw [← hpid]
    exact hdead
  · intro hd
    exact ⟨hd, by simp⟩

theorem Service.Inv.decideFailed (h : s.Inv) (hwaited : s.watchdog = .waited s.sshdPid)
    (restart : Bool) :
    Service.Inv { s with
      sshdPid := 0, watchdog := if restart then .restart else .idle } := by
  have hrunning : s.destroyed ≠ true := by
    intro hd
    have hpos := h.watchedPos s.sshdPid (Or.inr hwaited)
    rw [(h.shut hd).2.1] at hpos
    exact absurd hpos (by simp)
  refine h.watch (by rw [hwaited]; rfl) ?_ rfl rfl h.reapedDead
    (Or.inr ⟨rfl, h.waitedDead s.sshdPid hwaited⟩) (fun _ hp => hp) ?_ ?_ ?_
  · cases restart <;> rfl
  · intro p hp
    cases restart <;> simp at hp
  · intro p hp
    cases restart <;> simp at hp
  · intro hd
    exact absurd hd hrunning

theorem Service.Inv.decideStopped (h : s.Inv) {pid : Nat} (hwaited : s.watchdog = .waited pid) :
    Service.Inv { s with watchdog := .idle } := by
  refine h.watch (by rw [hwaited]; rfl) rfl rfl rfl h.reapedDead (Or.inl rfl) (fun _ hp => hp)
    (by simp) (by simp) ?_
  intro hd
  exact ⟨hd, by simp⟩

theorem Service.Inv.die (h : s.Inv) (pid : Nat) :
    Service.Inv { s with alive := s.alive.erase pid } := by
  have hsub : ∀ p, p ∈ s.alive.erase pid → p ∈ s.alive := fun p hp => Finset.mem_of_mem_erase hp
  exact { h with
    owned := fun p hp => h.owned p (hsub p hp)
    waitedDead := fun p hp hmem => h.waitedDead p hp (hsub p hmem)
    reapedDead := fun p hp => h.reapedDead (hsub p hp) }

/-- **Every step that does not overlap keeps the invariant.** -/
theorem Service.Inv.step (h : s.Inv) (hok : NoOverlap s l) (hs : serviceStep s l = some s') :
    s'.Inv := by
  cases serviceStep_moves hs with
  | stopMain hmain => exact h.stopMain hok hmain
  | stopWatchdog hrestart => exact h.stopWatchdog hok hrestart
  | forkFails t hcall => exact h.forkFails hcall
  | fork t p hcall hpid => exact h.fork hok hcall hpid.1
  | publishNone t hcall => exact h.publishNone hcall
  | publish t p hcall => exact h.publish hcall
  | destroy hmain => exact h.destroy hok hmain
  | begin nanoTime pid queue hidle hqueue => exact h.begin _ _ hidle hqueue
  | wait pid hwaiting hdead => exact h.wait hwaiting hdead
  | decideFailed currentTimeMillis hwaited => exact h.decideFailed hwaited _
  | decideStopped currentTimeMillis pid hwaited hpid => exact h.decideStopped hwaited
  | die pid halive => exact h.die pid

end

/-! ## Whole runs -/

/-- **One server process per service, none after shutdown**, along every run in which calls of
    `startSshd` do not overlap and `onDestroy` does not fall into a restart. -/
theorem one_server {ls : List Label} {s : Service}
    (h : Along serviceStep NoOverlap Service.init ls)
    (hr : run serviceStep Service.init ls = some s) : OneServer s := by
  apply Service.Inv.oneServer
  apply Along.invariant (I := Service.Inv) ?_ h Service.Inv.init hr
  intro s l s' hi hok hs
  exact hi.step hok hs

/-- A server that dies, is restarted by its watchdog and stopped by `onDestroy`. -/
def restartRun : List Label :=
  [.stop .main, .fork .main (some 7), .publish .main, .begin 1, .die 7, .wait, .decide 0,
    .stop .watchdog, .fork .watchdog (some 8), .publish .watchdog, .destroy]

theorem one_server_restart :
    Along serviceStep NoOverlap Service.init restartRun ∧
      ∃ s, run serviceStep Service.init restartRun = some s ∧ OneServer s := by
  have hok : Along serviceStep NoOverlap Service.init restartRun := by decide
  obtain ⟨s, hs⟩ := Option.isSome_iff_exists.mp
    (show (run serviceStep Service.init restartRun).isSome = true by decide)
  exact ⟨hok, s, hs, one_server hok hs⟩

/-- The restart of the watchdog and an `onStartCommand`, one inside the other. -/
def overlapRun : List Label :=
  [.stop .main, .fork .main (some 7), .publish .main, .begin 1, .die 7, .wait, .decide 0,
    .stop .watchdog, .stop .main, .fork .watchdog (some 8), .fork .main (some 9),
    .publish .watchdog, .publish .main]

/-- `onDestroy` after the watchdog has decided to restart. -/
def lateRun : List Label :=
  [.stop .main, .fork .main (some 7), .publish .main, .begin 1, .die 7, .wait, .decide 0,
    .destroy, .stop .watchdog, .fork .watchdog (some 8), .publish .watchdog]

theorem lock_not_enough :
    (¬ ∀ s, run serviceStep Service.init overlapRun = some s → OneServer s) ∧
      ¬ ∀ s, run serviceStep Service.init lateRun = some s → OneServer s := by
  constructor
  · intro h
    have h8 := (h _ rfl).published rfl rfl 8 (by decide)
    exact absurd h8 (by decide)
  · intro h
    have hnone := (h _ rfl).shutdown rfl (by decide) rfl
    exact absurd hnone (by decide)

end Sshd4a
