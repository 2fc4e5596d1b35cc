import Sshd4a.App.Service

/-!
# The restart throttle (`SshdService.java`)

The watchdog of a process that died on its own starts another one, unless the process and the
one before it both died within `MIN_DURATION_MS`. It decides that by three readings: two of
`System.nanoTime`, at the beginning of its own task and of the task before, and one of
`System.currentTimeMillis`. All three are compared with the same number of milliseconds.

How long the processes ran is what matters, and the service never sees it. So the runs of
`App.Service` get a clock here and a record of every process, which no step reads: when it was
started and ended, how it ended, and which one it was started to replace. `throttled_iff` says
for which readings the decision is the one that the record asks for.
-/

namespace Sshd4a

open Machine

/-! ## The record of a run -/

/-- When a process ended, in nanoseconds, and whether `stopSshd` did it. -/
inductive ProcessEnd
  | died (time : Int)
  | killed (time : Int)
deriving DecidableEq, Repr

structure Process where
  startedAt : Int
  /-- The process the watchdog started this one for. -/
  replaces : Option Nat
  ending : Option ProcessEnd := none
deriving DecidableEq, Repr

structure Timed where
  service : Service := .init
  /-- `System.nanoTime` at the last step. -/
  now : Int
  /-- The processes in the order they were started in. -/
  processes : List Process := []
  /-- The last process with a pid, as its place in that order. -/
  owner : Nat → Nat := fun _ => 0
  /-- The process of the watchdog task that began last. -/
  watched : Nat := 0
  /-- The readings at the beginning of that task and of the one before. -/
  lastBegin : Option Int := none
  previousBegin : Option Int := none

/-- A new service; the origin of the clock is arbitrary. -/
def Timed.init (origin : Int) : Timed := { now := origin }

def Timed.endProcess (s : Timed) (pid : Nat) (ending : ProcessEnd) : Timed :=
  { s with processes := s.processes.modify (s.owner pid) fun p => { p with ending := some ending } }

/-- `kill` in `stopSshd`, which finds a process that is still alive or does nothing. -/
def Timed.killPublished (s : Timed) (time : Int) : Timed :=
  if 0 < s.service.sshdPid ∧ s.service.sshdPid ∈ s.service.alive then
    s.endProcess s.service.sshdPid (.killed time)
  else s

/-- What a step adds to the record. -/
def Timed.observe (s : Timed) (time : Int) : Label → Timed
  | .stop _ | .destroy => s.killPublished time
  | .fork thread (some pid) =>
    { s with
      processes := s.processes ++ [{
        startedAt := time
        replaces := if thread = .watchdog then some s.watched else none }]
      owner := fun p => if p = pid then s.processes.length else s.owner p }
  | .begin nanoTime =>
    { s with
      watched := s.owner (s.service.queue.headD 0)
      lastBegin := some nanoTime
      previousBegin := s.lastBegin }
  | .die pid => s.endProcess pid (.died time)
  | _ => s

/-- A step of the service at a time. -/
structure Tick where
  time : Int
  label : Label
deriving DecidableEq, Repr

/-- The clock does not go back, and what the watchdog reads is its time. -/
def Timed.Clocked (s : Timed) (tick : Tick) : Prop :=
  s.now ≤ tick.time ∧ ∀ nanoTime, tick.label = .begin nanoTime → nanoTime = tick.time

instance (s : Timed) (tick : Tick) : Decidable (s.Clocked tick) :=
  match h : tick.label with
  | .begin nanoTime =>
    decidable_of_iff (s.now ≤ tick.time ∧ nanoTime = tick.time) (by simp [Timed.Clocked, h])
  | .stop _ | .fork _ _ | .publish _ | .destroy | .wait | .decide _ | .die _ =>
    decidable_of_iff (s.now ≤ tick.time) (by simp [Timed.Clocked, h])

def timedStep (s : Timed) (tick : Tick) : Option Timed :=
  if s.Clocked tick then
    (serviceStep s.service tick.label).map fun service =>
      { s.observe tick.time tick.label with service := service, now := tick.time }
  else none

/-! ## Quick and long processes -/

/-- `MIN_DURATION_MS` in nanoseconds. -/
def minDuration : Int := minDurationMs * 1000000

def Process.diedOnItsOwn (p : Process) : Bool :=
  match p.ending with
  | some (.died _) => true
  | _ => false

/-- How long it ran. -/
def Process.ran (p : Process) : Option Int :=
  p.ending.map fun
    | .died time => time - p.startedAt
    | .killed time => time - p.startedAt

def Process.quick (p : Process) : Bool := p.ran.any (· < minDuration)

def Process.long (p : Process) : Bool := p.ran.any (minDuration ≤ ·)

/-- The process that the watchdog looks at died early on its own, and so did the one it was
    started to replace. -/
def Timed.quickTwice (s : Timed) : Bool :=
  s.processes[s.watched]?.any fun q => q.diedOnItsOwn && q.quick &&
    (q.replaces.bind (s.processes[·]?)).any fun p => p.diedOnItsOwn && p.quick

/-- It died on its own, and it is the first one, or it or the one before ran long enough. -/
def Timed.mustRestart (s : Timed) : Bool :=
  s.processes[s.watched]?.any fun q => q.diedOnItsOwn &&
    (s.watched == 0 || q.long || (s.processes[s.watched - 1]?.any Process.long))

/-- The throttle: what the second block of a watchdog decides. -/
def Throttled (s : Timed) (tick : Tick) : Prop :=
  ∀ currentTimeMillis, tick.label = .decide currentTimeMillis → ∀ t, timedStep s tick = some t →
    (s.quickTwice = true → t.service.watchdog ≠ .restart) ∧
      (s.mustRestart = true → t.service.watchdog = .restart)

/-! ## The readings -/

/-- The two tasks began less than 10000 nanoseconds apart, though not at once, and the reading of
    the other clock is less than 10000 above that of this one, all as `long`s. A reading of 0 is
    taken for that of no task. -/
def Timed.Close (s : Timed) (currentTimeMillis : Int) : Prop :=
  ∃ a b, s.previousBegin = some a ∧ s.lastBegin = some b ∧ a ≠ 0 ∧ longSub b a ≠ 0 ∧
    longSub b a < minDurationMs ∧ longSub currentTimeMillis b < minDurationMs

/-- The process that the watchdog looks at is the published one. -/
def Timed.Published (s : Timed) : Prop := s.service.watchdog = .waited s.service.sshdPid

/-- The readings at a decision are close after two quick deaths, unless somebody else has stopped
    or started a process since, and they are not where the process has to be replaced, which then
    has to be the published one still. -/
def FitReadings (s : Timed) (tick : Tick) : Prop :=
  ∀ currentTimeMillis, tick.label = .decide currentTimeMillis → timedStep s tick ≠ none →
    (s.quickTwice = true → s.Published → s.Close currentTimeMillis) ∧
      (s.mustRestart = true → s.Published ∧ ¬ s.Close currentTimeMillis)

/-! ## What the fields hold -/

/-- The time between the readings of two tasks, as the first block computes it. -/
def sinceLast : Option Int → Option Int → Int
  | some a, some b => if a = 0 then 0 else longSub b a
  | _, _ => 0

structure Timed.Inv (s : Timed) : Prop where
  startTime : s.service.sshdStartTime = s.lastBegin.getD 0
  duration : s.service.sshdDuration = sinceLast s.previousBegin s.lastBegin

variable {s t : Timed} {tick : Tick}

theorem timedStep_eq_some (h : timedStep s tick = some t) :
    ∃ service, serviceStep s.service tick.label = some service ∧
      t = { s.observe tick.time tick.label with service := service, now := tick.time } := by
  unfold timedStep at h
  split at h
  · obtain ⟨service, hservice, heq⟩ := Option.map_eq_some_iff.mp h
    exact ⟨service, hservice, heq.symm⟩
  · cases h

/-- The first block is the only one that writes the two fields. -/
theorem clocks_serviceStep {service service' : Service} {label : Label}
    (h : serviceStep service label = some service')
    (hlabel : ∀ nanoTime, label ≠ .begin nanoTime) :
    service'.sshdStartTime = service.sshdStartTime ∧
      service'.sshdDuration = service.sshdDuration := by
  have hcall : ∀ call thread, (service.setCall call thread).sshdStartTime = service.sshdStartTime ∧
      (service.setCall call thread).sshdDuration = service.sshdDuration := by
    intro call thread
    cases thread with
    | main => exact ⟨rfl, rfl⟩
    | watchdog => exact ⟨rfl, rfl⟩
  cases serviceStep_moves h with
  | begin nanoTime pid queue hidle hqueue => exact absurd rfl (hlabel nanoTime)
  | forkFails thread => exact hcall _ thread
  | fork thread => exact hcall _ thread
  | publishNone thread => exact hcall _ thread
  | publish thread => exact hcall _ thread
  | _ => exact ⟨rfl, rfl⟩

theorem begins_observe (s : Timed) (time : Int) {label : Label}
    (hlabel : ∀ nanoTime, label ≠ .begin nanoTime) :
    (s.observe time label).lastBegin = s.lastBegin ∧
      (s.observe time label).previousBegin = s.previousBegin := by
  have hkill : (s.killPublished time).lastBegin = s.lastBegin ∧
      (s.killPublished time).previousBegin = s.previousBegin := by
    unfold Timed.killPublished
    split <;> exact ⟨rfl, rfl⟩
  cases label with
  | stop thread => exact hkill
  | destroy => exact hkill
  | begin nanoTime => exact absurd rfl (hlabel nanoTime)
  | fork thread pid => cases pid <;> exact ⟨rfl, rfl⟩
  | _ => exact ⟨rfl, rfl⟩

theorem serviceStep_begin {service service' : Service} {nanoTime : Int}
    (h : serviceStep service (.begin nanoTime) = some service') :
    service'.sshdStartTime = nanoTime ∧
      service'.sshdDuration
        = if service.sshdStartTime = 0 then 0 else longSub nanoTime service.sshdStartTime := by
  cases serviceStep_moves h with
  | begin _ pid queue hidle hqueue => exact ⟨rfl, rfl⟩

theorem sinceLast_begin (last : Option Int) (nanoTime : Int) :
    (if last.getD 0 = 0 then 0 else longSub nanoTime (last.getD 0))
      = sinceLast last (some nanoTime) := by
  cases last with
  | none => rfl
  | some a => rfl

theorem Timed.Inv.init (origin : Int) : (Timed.init origin).Inv := ⟨rfl, rfl⟩

theorem Timed.Inv.step (h : s.Inv) (hstep : timedStep s tick = some t) : t.Inv := by
  obtain ⟨service, hservice, rfl⟩ := timedStep_eq_some hstep
  by_cases hlabel : ∃ nanoTime, tick.label = .begin nanoTime
  · obtain ⟨nanoTime, hlabel⟩ := hlabel
    rw [hlabel] at hservice ⊢
    obtain ⟨hstart, hduration⟩ := serviceStep_begin hservice
    refine ⟨hstart, hduration.trans ?_⟩
    rw [h.startTime]
    exact sinceLast_begin s.lastBegin nanoTime
  · have hlabel : ∀ nanoTime, tick.label ≠ .begin nanoTime := fun n hn => hlabel ⟨n, hn⟩
    obtain ⟨hstart, hduration⟩ := clocks_serviceStep hservice hlabel
    obtain ⟨hlast, hprevious⟩ := begins_observe s tick.time hlabel
    refine ⟨hstart.trans ?_, hduration.trans ?_⟩
    · rw [h.startTime]
      exact congrArg (Option.getD · 0) hlast.symm
    · rw [h.duration]
      exact (congrArg₂ sinceLast hprevious hlast).symm

/-! ## The decision -/

/-- The test of the second block, in terms of the readings. -/
theorem Timed.Inv.restarts_iff (h : s.Inv) (currentTimeMillis : Int) :
    s.service.restarts currentTimeMillis = true ↔ ¬ s.Close currentTimeMillis := by
  simp only [Service.restarts, h.startTime, h.duration, Bool.or_eq_true, beq_iff_eq,
    decide_eq_true_eq]
  constructor
  · intro htest ⟨a, b, hprevious, hlast, ha, hab, hapart, hmillis⟩
    simp only [hprevious, hlast, sinceLast, if_neg ha, Option.getD_some] at htest
    omega
  · intro hclose
    cases hprevious : s.previousBegin with
    | none => exact Or.inl (Or.inl rfl)
    | some a =>
      cases hlast : s.lastBegin with
      | none => exact Or.inl (Or.inl rfl)
      | some b =>
        by_cases ha : a = 0
        · exact Or.inl (Or.inl (if_pos ha))
        · simp only [sinceLast, if_neg ha, Option.getD_some]
          by_contra htest
          refine hclose ⟨a, b, hprevious, hlast, ha, ?_, ?_, ?_⟩ <;> omega

theorem watchdog_decide {currentTimeMillis : Int} (hlabel : tick.label = .decide currentTimeMillis)
    (hstep : timedStep s tick = some t) :
    t.service.watchdog = .restart ↔
      s.Published ∧ s.service.restarts currentTimeMillis = true := by
  obtain ⟨service, hservice, rfl⟩ := timedStep_eq_some hstep
  rw [hlabel] at hservice
  cases serviceStep_moves hservice with
  | decideFailed _ hwaited =>
    show (if s.service.restarts currentTimeMillis = true then _ else _) = Watchdog.restart ↔ _
    cases s.service.restarts currentTimeMillis with
    | true => exact iff_of_true rfl ⟨hwaited, rfl⟩
    | false => simp
  | decideStopped _ pid hwaited hpid =>
    refine iff_of_false (by simp) ?_
    intro ⟨hpublished, _⟩
    rw [Timed.Published, hwaited, Watchdog.waited.injEq] at hpublished
    exact hpid hpublished.symm

/-- **The throttle in terms of its readings.** Every decision of a run is the one that the time
    the processes ran asks for, exactly if the readings at every decision fit. -/
theorem throttled_iff (origin : Int) (ticks : List Tick) :
    Along timedStep Throttled (Timed.init origin) ticks ↔
      Along timedStep FitReadings (Timed.init origin) ticks := by
  refine Along.congr (I := Timed.Inv) (fun s tick t hs hstep => hs.step hstep) ?_
    (Timed.Inv.init origin) ticks
  intro s tick hs
  constructor
  · intro h currentTimeMillis hlabel hstep
    obtain ⟨t, ht⟩ := Option.ne_none_iff_exists'.mp hstep
    obtain ⟨hquick, hmust⟩ := h currentTimeMillis hlabel t ht
    rw [ne_eq, watchdog_decide hlabel ht, hs.restarts_iff] at hquick
    rw [watchdog_decide hlabel ht, hs.restarts_iff] at hmust
    refine ⟨?_, hmust⟩
    intro htwice hpublished
    by_contra hclose
    exact hquick htwice ⟨hpublished, hclose⟩
  · intro h currentTimeMillis hlabel t ht
    obtain ⟨hquick, hmust⟩ := h currentTimeMillis hlabel (by rw [ht]; simp)
    rw [ne_eq, watchdog_decide hlabel ht, hs.restarts_iff]
    refine ⟨?_, hmust⟩
    intro htwice ⟨hpublished, hclose⟩
    exact hclose (hquick htwice hpublished)

/-- Two processes that each die after a second, up to the second decision. -/
def quickRun : List Tick :=
  [⟨5000000000, .stop .main⟩, ⟨5000000000, .fork .main (some 7)⟩, ⟨5000000000, .publish .main⟩,
    ⟨5000000000, .begin 5000000000⟩, ⟨6000000000, .die 7⟩, ⟨6000000000, .wait⟩,
    ⟨6000000000, .decide 1700000000000⟩, ⟨6000000000, .stop .watchdog⟩,
    ⟨6000000000, .fork .watchdog (some 8)⟩, ⟨6000000000, .publish .watchdog⟩,
    ⟨6000000000, .begin 6000000000⟩, ⟨7000000000, .die 8⟩, ⟨7000000000, .wait⟩]

/-- A second is far more than 10000 nanoseconds: the process is started a third time. -/
theorem throttled_quickRun :
    ¬ Along timedStep Throttled (Timed.init 4000000000)
      (quickRun ++ [⟨7000000000, .decide 1700000001000⟩]) := by
  intro h
  obtain ⟨t, ht⟩ := Option.isSome_iff_exists.mp
    (show (run timedStep (Timed.init 4000000000) quickRun).isSome = true by decide)
  have hdecide := h.at_run ht 1700000001000 rfl
  have htwice : (run timedStep (Timed.init 4000000000) quickRun).any Timed.quickTwice = true := by
    decide
  have hrestart : ((run timedStep (Timed.init 4000000000) quickRun).bind fun t =>
      timedStep t ⟨7000000000, .decide 1700000001000⟩).any
        (fun u => u.service.watchdog == .restart) = true := by
    decide
  rw [ht, Option.any_some] at htwice
  rw [ht, Option.bind_some, Option.any_eq_true] at hrestart
  obtain ⟨u, hu, hwatchdog⟩ := hrestart
  exact (hdecide u hu).1 htwice (by simpa using hwatchdog)

end Sshd4a
