import Sshd4a.Native.ChannelEvents

/-!
# Two ends of a channel

A channel has an end on each side of the connection, and this code is both of them: the server's,
and that of a client built from the same sources. Here the two ends run against each other. Each
keeps the list of everything it has sent, in order, and the number of the other's messages it has
handled; what is between the two numbers is in flight. Reading, writing, closing, exiting, window
changes and delivering happen in any order.

The invariant has three parts, for each direction. What one end has sent is in order, and the other
has handled a beginning of it (`Flow.phase`). The window the one end may use, what it has in flight
and the adjustments on their way back add up to the window of the other end, but for the bytes the
other end had nowhere to put (`Flow.window`). And what the program at the other end got is what was
sent to it, from the moment there was a program (`Flow.stream`). From the second the two ends are
never stuck. From the first two there is one message only that can stop a session, and it does:
a client that changes the size of its window after its CLOSE says so to a server that may have
forgotten the channel (`link_stops`).
-/

namespace Sshd4a

open Text Fallible

/-! ## The system -/

/-- One end with its history. -/
structure Party where
  endpoint : Endpoint
  channel : Channel
  removed : Bool := false
  /-- Everything it sent. -/
  sent : List ChanMsg := []
  /-- How many messages of the other end it has handled. -/
  received : Nat := 0
  /-- What `writefd` took. -/
  wrote : Bytes := []
  /-- The data that came before there was a program. -/
  early : Nat := 0
  /-- The data that had nowhere to go. -/
  dropped : Nat := 0
  stopped : Option ChanStop := none

/-- An end when its channel is new. -/
def Party.opened (endpoint : Endpoint) (channel : Channel) : Party where
  endpoint := endpoint
  channel := channel
  sent := endpoint.opening

def Party.sendPhase (p : Party) : Phase := if p.removed then .closed else p.channel.sendPhase

def Party.recvPhase (p : Party) : Phase := if p.removed then .closed else p.channel.recvPhase

def Party.after (p : Party) : Except ChanStop Reaction → Party
  | .error stop => { p with stopped := some stop }
  | .ok r =>
    { p with
      channel := r.channel
      removed := r.removed
      sent := p.sent ++ r.sent
      wrote := p.wrote ++ r.bytes }

/-- A message arrives. `getchannel` ends the session if the channel is gone; the answers to
    requests are not looked up, nor is extended data by a server. -/
def Party.deliver (recvWindow : Nat) (p : Party) (env : Surroundings) (msg : ChanMsg) : Party :=
  if p.removed then
    match msg with
    | .success => { p with received := p.received + 1 }
    | .failure => { p with received := p.received + 1 }
    | .extendedData _ =>
      if p.endpoint.isServer then { p with received := p.received + 1 }
      else { p with stopped := some .unknownChannel }
    | _ => { p with stopped := some .unknownChannel }
  else
    { p.after (p.channel.recv recvWindow env msg) with
      received := p.received + 1
      early := p.early + (if p.channel.writefd = .uninit then msg.bytes.length else 0)
      dropped := p.dropped + (if p.channel.takes msg then 0 else msg.datalen) }

/-- `cli_chansess_winchange`, for one of the channels. -/
def Party.winchange (p : Party) : Party := { p with sent := p.sent ++ [.request false false] }

inductive PartyEvent
  | deliver (env : Surroundings)
  | act (event : LocalEvent)
  | winchange

def Party.step (recvWindow : Nat) (p : Party) (incoming : List ChanMsg) :
    PartyEvent → Option Party
  | .deliver env =>
    match p.stopped, incoming[p.received]? with
    | none, some msg => some (p.deliver recvWindow env msg)
    | _, _ => none
  | .act event =>
    if p.stopped.isNone && !p.removed && event.enabled p.channel then
      some (p.after (p.channel.act recvWindow event))
    else none
  | .winchange =>
    if p.stopped.isNone && !p.removed && p.endpoint.isCliSession then some p.winchange else none

structure Link where
  a : Party
  b : Party

/-- An event at the one end or at the other; each end has a receive window of its own. -/
def linkStep (windowA windowB : Nat) (l : Link) : Bool × PartyEvent → Option Link
  | (true, event) => (l.a.step windowA l.b.sent event).map fun a => { l with a := a }
  | (false, event) => (l.b.step windowB l.a.sent event).map fun b => { l with b := b }

/-- The two ends when the channel is open: each knows the other's window from `CHANNEL_OPEN` and
    its confirmation, and a largest packet. -/
def openLink (windowA windowB packetA packetB : Nat) (endA endB : Endpoint) :
    Except ChanStop Link := do
  let a ← newchannel windowA windowB packetB endA
  let b ← newchannel windowB windowA packetA endB
  return { a := .opened endA a, b := .opened endB b }

/-! ## The invariant -/

/-- The data for `writefd` in a list of messages. -/
def bytesOf (msgs : List ChanMsg) : Bytes := (msgs.map ChanMsg.bytes).flatten

@[simp] theorem bytesOf_append (msgs msgs' : List ChanMsg) :
    bytesOf (msgs ++ msgs') = bytesOf msgs ++ bytesOf msgs' := by
  simp [bytesOf]

/-- What holds of each end. -/
structure Party.Good (recvWindow : Nat) (p : Party) : Prop where
  ok : p.channel.Ok recvWindow
  held : p.channel.held ≤ recvWindow
  full : p.channel.Receiving → p.channel.held = recvWindow
  low : p.channel.Low recvWindow
  sends : Machine.run (Phase.take p.endpoint.isCliSession) .opened p.sent = some p.sendPhase

/-- What holds of the direction from `p` to `q`. -/
structure Flow (p q : Party) : Prop where
  received : q.received ≤ p.sent.length
  phase : Machine.run (Phase.take p.endpoint.isCliSession) .opened (p.sent.take q.received)
    = some q.recvPhase
  ptys : ptyReqs (p.sent.drop q.received) + q.channel.ptys ≤ 1
  window : p.channel.transwindow + datalen (p.sent.drop q.received)
    + incrs (q.sent.drop p.received) + q.dropped = q.channel.recvwindow
  attached : q.endpoint ≠ .svrSession → q.channel.writefd ≠ .uninit ∧ q.early = 0
  early : q.early ≤ (bytesOf (p.sent.take q.received)).length
  uninit : q.channel.writefd = .uninit → q.early = (bytesOf (p.sent.take q.received)).length
  stream : q.wrote <+: (bytesOf (p.sent.take q.received)).drop q.early
  kept : q.channel.writefd ≠ .closed →
    q.wrote ++ q.channel.contents .out = (bytesOf (p.sent.take q.received)).drop q.early

variable {recvWindow : Nat} {p p' q : Party}

/-- What the sender does to its direction. -/
theorem Flow.of_sends (h : Flow p q) {out : List ChanMsg} (hend : p'.endpoint = p.endpoint)
    (hsent : p'.sent = p.sent ++ out) (hptys : ptyReqs out = 0)
    (hwindow : p'.channel.transwindow + datalen out + incrs (q.sent.drop p'.received)
      = p.channel.transwindow + incrs (q.sent.drop p.received)) : Flow p' q := by
  have htake : p'.sent.take q.received = p.sent.take q.received := by
    rw [hsent, List.take_append_of_le_length h.received]
  constructor
  case received =>
    rw [hsent, List.length_append]
    exact Nat.le_trans h.received (Nat.le_add_right _ _)
  case phase => rw [htake, hend, h.phase]
  case ptys =>
    have hone := h.ptys
    rw [hsent, List.drop_append_of_le_length h.received, ptyReqs_append, hptys]
    exact hone
  case window =>
    have hsum := h.window
    rw [hsent, List.drop_append_of_le_length h.received, datalen_append]
    omega
  case attached => exact h.attached
  case early => rw [htake]; exact h.early
  case uninit => rw [htake]; exact h.uninit
  case stream => rw [htake]; exact h.stream
  case kept => rw [htake]; exact h.kept

/-- What the receiver does to its direction: it handles `ms`, a message or nothing, and reacts. -/
theorem Flow.of_reacts (h : Flow p q) {q' : Party} (ms : List ChanMsg) {taken : Nat} {r : Reaction}
    (hr : Channel.Reacts recvWindow q.channel (incrs ms) taken
      (if q.channel.writefd.isOpen then bytesOf ms else []) r)
    (hhandled : q'.received = q.received + ms.length)
    (hms : ms <+: p.sent.drop q.received) (hp : p.received ≤ q.sent.length)
    (hphase : Machine.run (Phase.take p.endpoint.isCliSession) q.recvPhase ms = some q'.recvPhase)
    (hptys : r.channel.ptys ≤ q.channel.ptys + ptyReqs ms)
    (hend : q'.endpoint = q.endpoint) (hchannel : q'.channel = r.channel)
    (hsent : q'.sent = q.sent ++ r.sent)
    (hwrote : q'.wrote = q.wrote ++ r.bytes)
    (hearly : q'.early
      = q.early + (if q.channel.writefd = .uninit then (bytesOf ms).length else 0))
    (hdropped : q'.dropped + taken = q.dropped + datalen ms) : Flow p q' := by
  obtain ⟨rest, hrest⟩ := hms
  have htake : p.sent.take q'.received = p.sent.take q.received ++ ms := by
    rw [hhandled, List.take_add, ← hrest, List.take_left]
  have hdrop : p.sent.drop q'.received = rest := by
    rw [hhandled, ← List.drop_drop, ← hrest, List.drop_left]
  have hbytes : bytesOf (p.sent.take q'.received)
      = bytesOf (p.sent.take q.received) ++ bytesOf ms := by
    rw [htake, bytesOf_append]
  have hkeep := h.early
  -- what the program got, what waits and what comes now is what was sent to the program
  have hall : q.channel.writefd ≠ .closed →
      q.wrote ++ (q.channel.contents .out ++ (if q.channel.writefd.isOpen then bytesOf ms else []))
        = (bytesOf (p.sent.take q'.received)).drop q'.early := by
    intro hne
    rw [hbytes, hearly, ← List.append_assoc, h.kept hne]
    cases hfd : q.channel.writefd with
    | closed => exact absurd hfd hne
    | uninit =>
      rw [if_neg (by simp [ChanFd.isOpen]), if_pos rfl, h.uninit hfd, List.drop_length,
        List.append_nil, List.drop_of_length_le (by rw [List.length_append])]
    | fd n =>
      rw [if_pos (by rfl : (ChanFd.fd n).isOpen = true), if_neg (by simp), Nat.add_zero,
        List.drop_append_of_le_length hkeep]
  constructor
  case received =>
    have hlen := congrArg List.length hrest
    rw [List.length_append, List.length_drop] at hlen
    have hle := h.received
    omega
  case phase => rw [htake, Machine.run_append, h.phase, Option.bind_some, hphase]
  case ptys =>
    have hone := h.ptys
    rw [← hrest, ptyReqs_append] at hone
    rw [hdrop, hchannel]
    omega
  case window =>
    have hsum := h.window
    have hrecv := hr.recvwindow
    rw [hdrop, hsent, List.drop_append_of_le_length hp, incrs_append, hchannel]
    rw [← hrest, datalen_append] at hsum
    omega
  case attached =>
    intro hne
    rw [hend] at hne
    obtain ⟨hwrite, hzero⟩ := h.attached hne
    rw [hchannel, hearly, if_neg hwrite]
    exact ⟨fun huninit => hwrite (hr.uninit huninit), hzero⟩
  case early =>
    rw [hbytes, List.length_append, hearly]
    split <;> omega
  case uninit =>
    intro huninit
    rw [hchannel] at huninit
    have hbefore := hr.uninit huninit
    have heq := h.uninit hbefore
    rw [hbytes, List.length_append, hearly, if_pos hbefore]
    omega
  case stream =>
    rw [hwrote]
    by_cases hclosed : q.channel.writefd = .closed
    · rw [(hr.closed hclosed).2, List.append_nil, hbytes, hearly, hclosed, if_neg (by simp),
        Nat.add_zero, List.drop_append_of_le_length hkeep]
      exact h.stream.trans (List.prefix_append _ _)
    · rw [← hall hclosed]
      exact (List.prefix_append_right_inj _).mpr hr.stream
  case kept =>
    intro hne
    rw [hchannel] at hne ⊢
    have hbefore : q.channel.writefd ≠ .closed := fun hclosed => hne (hr.closed hclosed).1
    rw [← hall hbefore, hwrote, List.append_assoc, hr.kept hne]

/-- What a reaction does to the end itself. -/
theorem Party.Good.of_reacts (h : p.Good recvWindow) (hremoved : p.removed = false)
    {incr taken : Nat} {new : Bytes} {r : Reaction}
    (hr : Channel.Reacts recvWindow p.channel incr taken new r)
    (hend : p'.endpoint = p.endpoint) (hchannel : p'.channel = r.channel)
    (hgone : p'.removed = r.removed) (hsent : p'.sent = p.sent ++ r.sent) :
    p'.Good recvWindow := by
  have hbefore : p.sendPhase = p.channel.sendPhase := by rw [Party.sendPhase, hremoved]; rfl
  have hafter : p'.sendPhase = r.sendPhase := by
    rw [Party.sendPhase, Reaction.sendPhase, hgone, hchannel]
  constructor
  case ok => rw [hchannel]; exact hr.ok
  case held => rw [hchannel]; exact Nat.le_trans hr.held h.held
  case full =>
    rw [hchannel]
    intro hrec
    obtain ⟨hrec', heq⟩ := hr.receiving hrec
    exact heq.trans (h.full hrec')
  case low => rw [hchannel]; exact hr.low h.low
  case sends =>
    have hrun := run_take_of_run hr.sends p.endpoint.isCliSession
    rw [hend, hsent, Machine.run_append, h.sends, Option.bind_some, hbefore, hrun, hafter]

/-- An end has stopped only at a window change that came when the channel was gone. -/
def Party.Halted (p q : Party) : Prop :=
  ∀ stop, p.stopped = some stop →
    stop = .unknownChannel ∧ p.removed = true ∧ q.sent[p.received]? = some (.request false false)

theorem Party.Halted.of_running (h : p.stopped = none) : p.Halted q := by
  intro stop hstop
  rw [h] at hstop
  cases hstop

/-- What the other end sends later does not matter. -/
theorem Party.Halted.of_sends (h : q.Halted p) {out : List ChanMsg}
    (hsent : p'.sent = p.sent ++ out) : q.Halted p' := by
  intro stop hstop
  obtain ⟨hunknown, hgone, hmsg⟩ := h stop hstop
  obtain ⟨hlt, -⟩ := List.getElem?_eq_some_iff.mp hmsg
  refine ⟨hunknown, hgone, ?_⟩
  rw [hsent, List.getElem?_append_left hlt, hmsg]

/-- The invariant, for an end `p` with its peer `q`. -/
structure Paired (window peerWindow : Nat) (p q : Party) : Prop where
  good : p.Good window
  peer : q.Good peerWindow
  out : Flow p q
  back : Flow q p
  halted : p.Halted q
  peerHalted : q.Halted p

theorem Paired.symm {window peerWindow : Nat} (h : Paired window peerWindow p q) :
    Paired peerWindow window q p :=
  ⟨h.peer, h.good, h.back, h.out, h.peerHalted, h.halted⟩

theorem drop_received {msg : ChanMsg} (hmsg : q.sent[p.received]? = some msg) :
    q.sent.drop p.received = msg :: q.sent.drop (p.received + 1) := by
  obtain ⟨hlt, heq⟩ := List.getElem?_eq_some_iff.mp hmsg
  rw [List.drop_eq_getElem_cons hlt, heq]

/-- **The next message in flight comes in its phase.** -/
theorem Paired.next {window peerWindow : Nat} (h : Paired window peerWindow p q) {msg : ChanMsg}
    (hmsg : q.sent[p.received]? = some msg) :
    ∃ phase, p.recvPhase.take q.endpoint.isCliSession msg = some phase := by
  have hall := h.peer.sends
  rw [← List.take_append_drop p.received q.sent, Machine.run_append, h.back.phase,
    Option.bind_some, drop_received hmsg] at hall
  cases hnext : p.recvPhase.take q.endpoint.isCliSession msg with
  | none => simp [Machine.run, hnext] at hall
  | some phase => exact ⟨phase, rfl⟩

/-- An end that acts keeps the invariant. -/
theorem Paired.act {window peerWindow : Nat} (h : Paired window peerWindow p q)
    (hrunning : p.stopped = none) (hremoved : p.removed = false) {event : LocalEvent}
    (henabled : event.enabled p.channel = true) :
    Paired window peerWindow (p.after (p.channel.act window event)) q := by
  obtain ⟨r, hact, hr, hphase, hptys⟩ := h.good.ok.act h.good.held henabled
  rw [hact]
  have hback : Channel.Reacts window p.channel (incrs []) 0
      (if p.channel.writefd.isOpen then bytesOf [] else []) r := by
    rw [show (if p.channel.writefd.isOpen then bytesOf [] else []) = [] from ite_self _]
    exact hr
  refine ⟨h.good.of_reacts hremoved hr rfl rfl rfl rfl, h.peer, ?_, ?_, .of_running hrunning,
    h.peerHalted.of_sends rfl⟩
  · refine h.out.of_sends rfl rfl (ptyReqs_of_run hr.sends) ?_
    have hwindow := hr.transwindow
    dsimp only [Party.after]
    omega
  · refine h.back.of_reacts [] hback rfl List.nil_prefix h.out.received ?_ (Nat.le_of_eq hptys) rfl
      rfl rfl rfl ?_ rfl
    · have hsame : (p.after (.ok r)).recvPhase = p.recvPhase := by
        rw [Party.recvPhase, Party.recvPhase, hremoved]
        exact hphase
      rw [hsame, Machine.run_nil]
    · simp [Party.after, bytesOf]

/-- An end that handles a message keeps the invariant. -/
theorem Paired.handle {window peerWindow : Nat} (hsmall : peerWindow < 2 ^ 32)
    (h : Paired window peerWindow p q) (hrunning : p.stopped = none) (hremoved : p.removed = false)
    {msg : ChanMsg} (hmsg : q.sent[p.received]? = some msg) (env : Surroundings) :
    Paired window peerWindow (p.deliver window env msg) q := by
  obtain ⟨phase, hnext⟩ := h.next hmsg
  have hflight := drop_received hmsg
  have hphase : p.recvPhase = p.channel.recvPhase := by rw [Party.recvPhase, hremoved]; rfl
  -- the message fits into the window, and an adjustment does not overflow the other one
  have hdata : p.channel.takes msg = true → msg.datalen ≤ p.channel.recvwindow := by
    intro _
    have hsum := h.back.window
    rw [hflight] at hsum
    simp only [datalen, List.map_cons, List.sum_cons] at hsum
    omega
  have hincr : p.channel.transwindow + msg.incr < 2 ^ 32 := by
    have hsum := h.out.window
    have hheld := h.peer.held
    rw [hflight] at hsum
    simp only [incrs, List.map_cons, List.sum_cons] at hsum
    simp only [Channel.held] at hheld
    omega
  -- a second `pty-req` is not in flight
  have hpty : msg.isPtyReq = true → p.channel.ptys = 0 := by
    intro hreq
    have hone := h.back.ptys
    rw [hflight, ptyReqs, List.countP_cons, if_pos hreq] at hone
    omega
  rw [hphase] at hnext
  obtain ⟨r, hrecv, hr, hafter, hptys⟩ := h.good.ok.recv h.good.held hnext hdata hincr hpty env
  have hdeliver : p.deliver window env msg = { p.after (.ok r) with
      received := p.received + 1
      early := p.early + (if p.channel.writefd = .uninit then msg.bytes.length else 0)
      dropped := p.dropped + (if p.channel.takes msg then 0 else msg.datalen) } := by
    unfold Party.deliver
    rw [if_neg (by simp [hremoved]), hrecv]
  rw [hdeliver]
  have hnew : (if p.channel.takes msg then msg.bytes else [])
      = if p.channel.writefd.isOpen then bytesOf [msg] else [] := by
    cases msg <;> simp [Channel.takes, Channel.takesSide, Channel.sideFd, Channel.buf, bytesOf,
      ChanMsg.bytes]
  rw [hnew] at hr
  refine ⟨h.good.of_reacts hremoved hr rfl rfl rfl rfl, h.peer, ?_, ?_, .of_running hrunning,
    h.peerHalted.of_sends rfl⟩
  · refine h.out.of_sends rfl rfl (ptyReqs_of_run hr.sends) ?_
    have hwindow := hr.transwindow
    dsimp only [Party.after]
    rw [hflight]
    simp only [incrs, List.map_cons, List.sum_cons]
    omega
  · have hone : msg.incr = incrs [msg] := by simp [incrs]
    rw [hone] at hr
    refine h.back.of_reacts [msg] hr rfl ⟨_, hflight.symm⟩ h.out.received ?_ hptys rfl rfl rfl
      rfl ?_ ?_
    · rw [hphase, Machine.run_cons hnext, Machine.run_nil, ← hafter]
      rfl
    · simp [bytesOf]
    · simp only [datalen, List.map_cons, List.map_nil, List.sum_cons, List.sum_nil]
      split <;> omega

theorem Phase.take_closed {client : Bool} {msg : ChanMsg} {mid : Phase}
    (h : Phase.closed.take client msg = some mid) :
    mid = .closed ∧ client = true ∧ msg = .request false false := by
  cases msg with
  | request command wantreply =>
    cases command <;> cases wantreply <;> simp_all [Phase.take, Phase.next]
  | _ => simp [Phase.take, Phase.next] at h

/-- An end whose channel is gone stops at the next message, which is a window change. -/
theorem Paired.halt {window peerWindow : Nat} (h : Paired window peerWindow p q)
    (hremoved : p.removed = true) {msg : ChanMsg} (hmsg : q.sent[p.received]? = some msg)
    (env : Surroundings) : Paired window peerWindow (p.deliver window env msg) q := by
  obtain ⟨phase, hnext⟩ := h.next hmsg
  rw [Party.recvPhase, if_pos hremoved] at hnext
  obtain ⟨-, -, rfl⟩ := Phase.take_closed hnext
  have hdeliver : p.deliver window env (.request false false)
      = { p with stopped := some .unknownChannel } := by
    unfold Party.deliver
    rw [if_pos hremoved]
  rw [hdeliver]
  obtain ⟨hgood, hpeer, hout, hback, -, hpeerHalted⟩ := h
  refine ⟨⟨hgood.1, hgood.2, hgood.3, hgood.4, hgood.5⟩, hpeer,
    ⟨hout.1, hout.2, hout.3, hout.4, hout.5, hout.6, hout.7, hout.8, hout.9⟩,
    ⟨hback.1, hback.2, hback.3, hback.4, hback.5, hback.6, hback.7, hback.8, hback.9⟩, ?_,
    hpeerHalted⟩
  intro stop hstop
  cases hstop
  exact ⟨rfl, hremoved, hmsg⟩

/-- **A message that arrives keeps the invariant.** -/
theorem Paired.deliver {window peerWindow : Nat} (hsmall : peerWindow < 2 ^ 32)
    (h : Paired window peerWindow p q) (hrunning : p.stopped = none) {msg : ChanMsg}
    (hmsg : q.sent[p.received]? = some msg) (env : Surroundings) :
    Paired window peerWindow (p.deliver window env msg) q := by
  cases hremoved : p.removed with
  | false => exact h.handle hsmall hrunning hremoved hmsg env
  | true => exact h.halt hremoved hmsg env

/-- A window change keeps the invariant, after CLOSE too. -/
theorem Paired.winchange {window peerWindow : Nat} (h : Paired window peerWindow p q)
    (hrunning : p.stopped = none) (hclient : p.endpoint.isCliSession = true) :
    Paired window peerWindow p.winchange q := by
  obtain ⟨hgood, hpeer, hout, hback, -, hpeerHalted⟩ := h
  refine ⟨⟨hgood.ok, hgood.held, hgood.full, hgood.low, ?_⟩, hpeer, hout.of_sends rfl rfl rfl rfl,
    ⟨hback.received, hback.phase, hback.ptys, ?_, hback.attached, hback.early, hback.uninit,
      hback.stream, hback.kept⟩, .of_running hrunning, hpeerHalted.of_sends rfl⟩
  · have hsends := hgood.sends
    rw [hclient] at hsends
    dsimp only [Party.winchange]
    rw [hclient, Machine.run_append, hsends, Option.bind_some,
      Machine.run_cons (Phase.take_winchange _), Machine.run_nil]
    rfl
  · have hsum := hback.window
    dsimp only [Party.winchange]
    rw [List.drop_append_of_le_length hout.received, incrs_append]
    exact hsum

theorem after_endpoint (p : Party) (result : Except ChanStop Reaction) :
    (p.after result).endpoint = p.endpoint := by
  cases result <;> rfl

theorem step_endpoint {incoming : List ChanMsg} {event : PartyEvent}
    (hstep : p.step recvWindow incoming event = some p') : p'.endpoint = p.endpoint := by
  cases event with
  | deliver env =>
    simp only [Party.step] at hstep
    split at hstep
    next msg _ _ =>
      rw [← Option.some.inj hstep]
      unfold Party.deliver
      split
      · cases msg with
        | extendedData bytes => dsimp only; split <;> rfl
        | _ => rfl
      · exact after_endpoint _ _
    next => exact absurd hstep (by simp)
  | act event =>
    simp only [Party.step] at hstep
    split at hstep
    next =>
      rw [← Option.some.inj hstep]
      exact after_endpoint _ _
    next => exact absurd hstep (by simp)
  | winchange =>
    simp only [Party.step] at hstep
    split at hstep
    next =>
      rw [← Option.some.inj hstep]
      rfl
    next => exact absurd hstep (by simp)

theorem Paired.step {window peerWindow : Nat} (hsmall : peerWindow < 2 ^ 32)
    (h : Paired window peerWindow p q) {event : PartyEvent}
    (hstep : p.step window q.sent event = some p') : Paired window peerWindow p' q := by
  cases event with
  | deliver env =>
    cases hrunning : p.stopped with
    | some stop => simp [Party.step, hrunning] at hstep
    | none =>
      rw [Party.step, hrunning] at hstep
      cases hmsg : q.sent[p.received]? with
      | none => simp [hmsg] at hstep
      | some msg =>
        simp only [hmsg, Option.some.injEq] at hstep
        rw [← hstep]
        exact h.deliver hsmall hrunning hmsg env
  | act event =>
    rw [Party.step] at hstep
    split at hstep
    next henabled =>
      simp only [Bool.and_eq_true, Bool.not_eq_true', Option.isNone_iff_eq_none] at henabled
      rw [Option.some.injEq] at hstep
      rw [← hstep]
      exact h.act henabled.1.1 henabled.1.2 henabled.2
    next => exact absurd hstep (by simp)
  | winchange =>
    rw [Party.step] at hstep
    split at hstep
    next henabled =>
      simp only [Bool.and_eq_true, Bool.not_eq_true', Option.isNone_iff_eq_none] at henabled
      rw [Option.some.injEq] at hstep
      rw [← hstep]
      exact h.winchange henabled.1.1 henabled.2
    next => exact absurd hstep (by simp)

/-! ## What is in order -/

theorem Phase.of_take {client : Bool} {phase mid : Phase} {msg : ChanMsg}
    (h : phase.take client msg = some mid) :
    (msg = .close → mid = .closed) ∧ (msg = .eof → mid ≠ .opened) ∧
      (phase ≠ .opened → mid ≠ .opened) ∧ (mid = .closed → phase = .closed ∨ msg = .close) := by
  cases msg with
  | request command wantreply =>
    cases phase <;> cases command <;> cases wantreply <;> cases mid <;>
      simp_all [Phase.take, Phase.next]
  | _ => cases phase <;> cases mid <;> simp_all [Phase.take, Phase.next]

/-- What the phase after a list of messages says about the list. -/
theorem phase_of_run {client : Bool} {phase phase' : Phase} {msgs : List ChanMsg}
    (hrun : Machine.run (Phase.take client) phase msgs = some phase') :
    (.close ∈ msgs → phase' = .closed) ∧ (.eof ∈ msgs → phase' ≠ .opened) ∧
      (phase ≠ .opened → phase' ≠ .opened) ∧ (phase' = .closed → phase = .closed ∨ .close ∈ msgs) ∧
      (phase = .closed → phase' = .closed ∧
        ∀ msg ∈ msgs, client = true ∧ msg = .request false false) := by
  induction msgs generalizing phase with
  | nil =>
    rw [Machine.run_nil, Option.some.injEq] at hrun
    subst hrun
    simp
  | cons msg msgs ih =>
    obtain ⟨mid, hnext, hrest⟩ := Machine.run_cons_eq_some.mp hrun
    obtain ⟨hclose, heof, hleft, hcame, hstays⟩ := ih hrest
    obtain ⟨hmidClose, hmidEof, hmidLeft, hmidCame⟩ := Phase.of_take hnext
    refine ⟨?_, ?_, fun hne => hleft (hmidLeft hne), ?_, ?_⟩
    · intro hmem
      obtain heq | hmem := List.mem_cons.mp hmem
      · exact (hstays (hmidClose heq.symm)).1
      · exact hclose hmem
    · intro hmem
      obtain heq | hmem := List.mem_cons.mp hmem
      · exact hleft (hmidEof heq.symm)
      · exact heof hmem
    · intro hclosed
      obtain heq | hmem := hcame hclosed
      · exact (hmidCame heq).imp_right fun hmsg => List.mem_cons.mpr (.inl hmsg.symm)
      · exact .inr (List.mem_cons_of_mem _ hmem)
    · rintro rfl
      obtain ⟨hmid, hclient, hmsg⟩ := Phase.take_closed hnext
      obtain ⟨hend, hall⟩ := hstays hmid
      refine ⟨hend, ?_⟩
      intro other hother
      obtain rfl | hmem := List.mem_cons.mp hother
      · exact ⟨hclient, hmsg⟩
      · exact hall other hmem

/-- What may not come after EOF. -/
def ChanMsg.beforeEof : ChanMsg → Bool
  | .data _ => true
  | .extendedData _ => true
  | .eof => true
  | .request command _ => command
  | .ptyReq _ _ _ => true
  | _ => false

theorem Phase.take_ended {client : Bool} {phase mid : Phase} {msg : ChanMsg}
    (h : phase.take client msg = some mid) (hne : phase ≠ .opened) : msg.beforeEof = false := by
  cases msg with
  | request command wantreply =>
    cases phase <;> cases command <;> simp_all [Phase.take, Phase.next, ChanMsg.beforeEof]
  | _ => cases phase <;> simp_all [Phase.take, Phase.next, ChanMsg.beforeEof]

/-- An end that is gone has said so, was told so, and nothing is left in flight to it but the window
    changes of a client. -/
theorem Paired.removed {window peerWindow : Nat} (h : Paired window peerWindow p q)
    (hgone : p.removed = true) :
    .close ∈ p.sent ∧ .close ∈ q.sent.take p.received ∧
      ∀ msg ∈ q.sent.drop p.received,
        q.endpoint.isCliSession = true ∧ msg = .request false false := by
  have hsends := h.good.sends
  have hrecvs := h.back.phase
  rw [Party.sendPhase, if_pos hgone] at hsends
  rw [Party.recvPhase, if_pos hgone] at hrecvs
  have hown := (phase_of_run hsends).2.2.2.1 rfl
  have hpeer := (phase_of_run hrecvs).2.2.2.1 rfl
  refine ⟨hown.resolve_left (by simp), hpeer.resolve_left (by simp), ?_⟩
  have hall := h.peer.sends
  rw [← List.take_append_drop p.received q.sent, Machine.run_append, hrecvs, Option.bind_some] at hall
  exact ((phase_of_run hall).2.2.2.2 rfl).2

/-- The channel of `p` is gone, and the next message for it is a window change that the client at
    the other end has sent after its CLOSE. -/
def Outlived (p q : Party) : Prop :=
  p.removed = true ∧ q.endpoint.isCliSession = true ∧ .close ∈ q.sent.take p.received ∧
    q.sent[p.received]? = some (.request false false)

theorem Paired.halted_outlived {window peerWindow : Nat} (h : Paired window peerWindow p q)
    {stop : ChanStop} (hstop : p.stopped = some stop) : stop = .unknownChannel ∧ Outlived p q := by
  obtain ⟨hunknown, hgone, hmsg⟩ := h.halted stop hstop
  obtain ⟨-, hclose, hrest⟩ := h.removed hgone
  rw [drop_received hmsg] at hrest
  exact ⟨hunknown, hgone, (hrest _ List.mem_cons_self).1, hclose, hmsg⟩

/-! ## The start -/

theorem walkTermmodes_putTermcodes (modes : List TermMode) :
    walkTermmodes (putTermcodes modes) = .ok () := by
  induction modes with
  | nil => rfl
  | cons mode modes ih =>
    obtain ⟨v₀, v₁, v₂, v₃, hcons⟩ : ∃ v₀ v₁ v₂ v₃, putTermcodes (mode :: modes)
        = UInt8.ofNat mode.sshcode :: v₀ :: v₁ :: v₂ :: v₃ :: putTermcodes modes :=
      ⟨_, _, _, _, rfl⟩
    rw [hcons, walkTermmodes]
    split
    next => rfl
    next => exact ih

/-- A server can read the modes of a client. -/
theorem getTermmodes_putTermcodes (modes : List TermMode) :
    getTermmodes (putTermcodes modes).length (putTermcodes modes) = .ok () := by
  have hne : (putTermcodes modes).length ≠ 0 := by simp [putTermcodes]
  simp [getTermmodes, hne, walkTermmodes_putTermcodes]

theorem run_opening (endpoint : Endpoint) :
    Machine.run (Phase.take endpoint.isCliSession) .opened endpoint.opening = some .opened := by
  cases endpoint with
  | cliSession writefd readfd errfd wantpty =>
    cases wantpty with
    | none => rfl
    | some modes =>
      apply Machine.run_cons
      simp [Phase.take, Endpoint.isCliSession, getTermmodes_putTermcodes, Except.isOk,
        Except.toBool]
  | _ => rfl

theorem opening_quiet (endpoint : Endpoint) :
    bytesOf endpoint.opening = [] ∧ datalen endpoint.opening = 0 ∧ incrs endpoint.opening = 0 ∧
      ptyReqs endpoint.opening ≤ 1 := by
  cases endpoint with
  | cliSession writefd readfd errfd wantpty =>
    cases wantpty with
    | none => exact ⟨rfl, rfl, rfl, Nat.zero_le _⟩
    | some modes => exact ⟨rfl, rfl, rfl, Nat.le_refl _⟩
  | _ => exact ⟨rfl, rfl, rfl, Nat.zero_le _⟩

/-- A new channel, whatever it is connected to. -/
theorem newchannel_good {window : Nat} (hpos : 0 < window) (hmax : window ≤ maxRecvWindow)
    (transwindow packet : Nat) (endpoint : Endpoint) :
    ∃ channel, newchannel window transwindow packet endpoint = .ok channel ∧
      Party.Good window (.opened endpoint channel) ∧ channel.transwindow = transwindow ∧
      channel.recvwindow = window ∧ channel.contents .out = [] ∧ channel.recvPhase = .opened ∧
      channel.ptys = 0 ∧ (channel.writefd = .uninit ↔ endpoint = .svrSession) := by
  have hnew : cbufNew window = .ok { size := window } := by
    rw [cbufNew, if_neg]
    simp only [maxRecvWindow] at hmax
    simp only [maxCbufSize]
    omega
  -- both buffers are new ones, if there are two
  have hbufs : ∀ channel : Channel, channel.writebuf = { size := window } →
      (∀ cbuf ∈ channel.extrabuf, cbuf = { size := window }) →
      ∀ side, ∀ cbuf ∈ channel.buf side, cbuf.Valid ∧ cbuf.size = window := by
    intro channel hwrite hextra side cbuf hcbuf
    have hsame : cbuf = { size := window } := by
      cases side with
      | out => exact (Option.some.inj hcbuf).symm.trans hwrite
      | err => exact hextra cbuf hcbuf
    rw [hsame]
    exact ⟨CircBuffer.valid_new hpos, rfl⟩
  -- nothing waits, and the whole window is the peer's
  have hgood : ∀ channel : Channel, channel.Ok window → channel.recvwindow = window →
      channel.recvdonelen = 0 → channel.contents .out = [] → channel.contents .err = [] →
      channel.sendPhase = .opened → Party.Good window (.opened endpoint channel) := by
    intro channel hok hrecv hdone hout herr hphase
    have hheld : channel.held = window := by
      rw [Channel.held, hrecv, hdone, hout, herr]
      rfl
    refine ⟨hok, Nat.le_of_eq hheld, fun _ => hheld, .inl hdone, ?_⟩
    exact (run_opening endpoint).trans (congrArg some hphase.symm)
  simp only [newchannel, hnew, ok_bind]
  cases endpoint with
  | svrSession =>
    refine ⟨_, rfl, hgood _ ⟨hbufs _ rfl (by simp), ?_, ?_, ?_, ?_, ?_, ?_⟩ rfl rfl rfl rfl rfl, rfl,
      rfl, rfl, rfl, rfl, by simp⟩
    all_goals simp
  | cliSession writefd readfd errfd wantpty =>
    refine ⟨_, rfl, hgood _ ⟨hbufs _ rfl (by simp), ?_, ?_, ?_, ?_, ?_, ?_⟩ rfl rfl rfl rfl rfl, rfl,
      rfl, rfl, rfl, rfl, by simp⟩
    all_goals simp [Channel.Fresh]
  | socket fd server =>
    refine ⟨_, rfl, hgood _ ⟨hbufs _ rfl (by simp), ?_, ?_, ?_, ?_, ?_, ?_⟩ rfl rfl rfl rfl rfl, rfl,
      rfl, rfl, rfl, rfl, by simp⟩
    all_goals simp [Channel.Fresh]

/-- Nothing has arrived yet. -/
theorem Flow.start (hp : p.sent = p.endpoint.opening) (hq : q.sent = q.endpoint.opening)
    (hpreceived : p.received = 0) (hreceived : q.received = 0)
    (hwrote : q.wrote = []) (hearly : q.early = 0) (hdropped : q.dropped = 0)
    (hremoved : q.removed = false) (hwindow : p.channel.transwindow = q.channel.recvwindow)
    (hout : q.channel.contents .out = []) (hphase : q.channel.recvPhase = .opened)
    (hptys : q.channel.ptys = 0)
    (huninit : q.channel.writefd = .uninit ↔ q.endpoint = .svrSession) : Flow p q := by
  obtain ⟨-, hdata, -, hone⟩ := opening_quiet p.endpoint
  obtain ⟨-, -, hincr, -⟩ := opening_quiet q.endpoint
  have hnone : bytesOf (p.sent.take q.received) = [] := by
    rw [hreceived, List.take_zero]
    rfl
  constructor
  case received =>
    rw [hreceived]
    exact Nat.zero_le _
  case phase =>
    rw [hreceived, List.take_zero, Party.recvPhase, hremoved, Machine.run_nil, ← hphase]
    rfl
  case ptys =>
    rw [hreceived, hptys, List.drop_zero, hp]
    exact hone
  case window =>
    rw [hp, hq, hpreceived, hreceived, hdropped, hwindow, List.drop_zero, List.drop_zero, hdata,
      hincr]
    rfl
  case attached => exact fun hne => ⟨fun heq => hne (huninit.mp heq), hearly⟩
  case early =>
    rw [hearly]
    exact Nat.zero_le _
  case uninit =>
    intro _
    rw [hearly, hnone]
    rfl
  case stream =>
    rw [hwrote]
    exact List.nil_prefix
  case kept =>
    intro _
    rw [hwrote, hout, hnone, List.drop_nil]
    rfl

theorem openLink_paired {windowA windowB : Nat} (hA : 0 < windowA) (hA' : windowA ≤ maxRecvWindow)
    (hB : 0 < windowB) (hB' : windowB ≤ maxRecvWindow) {packetA packetB : Nat}
    {endA endB : Endpoint} {l : Link}
    (hopen : openLink windowA windowB packetA packetB endA endB = .ok l) :
    Paired windowA windowB l.a l.b ∧ l.a.endpoint = endA ∧ l.b.endpoint = endB := by
  obtain ⟨a, ha, hgoodA, htransA, hrecvA, houtA, hphaseA, hptysA, huninitA⟩ :=
    newchannel_good hA hA' windowB packetB endA
  obtain ⟨b, hb, hgoodB, htransB, hrecvB, houtB, hphaseB, hptysB, huninitB⟩ :=
    newchannel_good hB hB' windowA packetA endB
  rw [openLink, ha, ok_bind, hb, ok_bind] at hopen
  cases hopen
  refine ⟨⟨hgoodA, hgoodB, ?_, ?_, .of_running rfl, .of_running rfl⟩, rfl, rfl⟩
  · exact .start rfl rfl rfl rfl rfl rfl rfl rfl (htransA.trans hrecvB.symm) houtB hphaseB hptysB
      huninitB
  · exact .start rfl rfl rfl rfl rfl rfl rfl rfl (htransB.trans hrecvA.symm) houtA hphaseA hptysA
      huninitA

/-! ## Runs -/

section Runs

variable {windowA windowB packetA packetB : Nat} {endA endB : Endpoint} {l l' : Link}
  {events : List (Bool × PartyEvent)}

/-- A link whose two ends are connected like this. -/
def Sound (windowA windowB : Nat) (endA endB : Endpoint) (l : Link) : Prop :=
  Paired windowA windowB l.a l.b ∧ l.a.endpoint = endA ∧ l.b.endpoint = endB

theorem linkStep_sound (hA : windowA ≤ maxRecvWindow) (hB : windowB ≤ maxRecvWindow)
    {event : Bool × PartyEvent} (h : Sound windowA windowB endA endB l)
    (hstep : linkStep windowA windowB l event = some l') : Sound windowA windowB endA endB l' := by
  have hmax : maxRecvWindow < 2 ^ 32 := by decide
  obtain ⟨hpaired, ha, hb⟩ := h
  obtain ⟨who, event⟩ := event
  cases who with
  | true =>
    obtain ⟨a, hact, rfl⟩ := Option.map_eq_some_iff.mp hstep
    exact ⟨hpaired.step (Nat.lt_of_le_of_lt hB hmax) hact, (step_endpoint hact).trans ha, hb⟩
  | false =>
    obtain ⟨b, hact, rfl⟩ := Option.map_eq_some_iff.mp hstep
    exact ⟨(hpaired.symm.step (Nat.lt_of_le_of_lt hA hmax) hact).symm, ha,
      (step_endpoint hact).trans hb⟩

/-- The invariant holds after every run. -/
theorem link_run_sound (hA : 0 < windowA) (hA' : windowA ≤ maxRecvWindow) (hB : 0 < windowB)
    (hB' : windowB ≤ maxRecvWindow)
    (hopen : openLink windowA windowB packetA packetB endA endB = .ok l)
    (hrun : Machine.run (linkStep windowA windowB) l events = some l') :
    Sound windowA windowB endA endB l' :=
  Machine.run_invariant (fun _ _ _ hi hstep => linkStep_sound hA' hB' hi hstep)
    (openLink_paired hA hA' hB hB' hopen) hrun

def noPty : PtyResult := ⟨false, false, false⟩

/-- A server with a client, small windows. -/
def sessionLink : Link where
  a :=
    { endpoint := .svrSession
      channel :=
        { recvwindow := 6, transwindow := 4, transmaxpacket := 100, writebuf := { size := 6 },
          chansess := some {} } }
  b :=
    { endpoint := .cliSession 1 0 2 none
      channel :=
        { recvwindow := 4, transwindow := 6, transmaxpacket := 100, writefd := .fd 1,
          readfd := .fd 0, errfd := .fd 2, writebuf := { size := 4 },
          extrabuf := some { size := 4 } } }

/-- The client asks for a command and gives it more than the window; the command takes some of it,
    writes to its standard error and exits. -/
def sessionEvents : List (Bool × PartyEvent) :=
  [(false, .act (.sendRequest true true)),
    (true, .deliver ⟨.again, ⟨true, true⟩, .spawned 7 8 (some 9), noPty⟩),
    (false, .act (.readFd false (.bytes [1, 2, 3, 4, 5, 6, 7]))),
    (true, .deliver ⟨.written 4, ⟨true, true⟩, .answered true, noPty⟩),
    (true, .act (.readFd true (.bytes [8, 9]))),
    (false, .deliver ⟨.again, ⟨true, true⟩, .answered true, noPty⟩),
    (true, .act (.exited true)),
    (true, .act (.checkClose ⟨false, false⟩))]

/-- The client is at the end of its input; the command exits and the server closes the channel. The
    size of the client's window changes after its CLOSE. -/
def winchangeEvents : List (Bool × PartyEvent) :=
  [(false, .act (.sendRequest true false)),
    (true, .deliver ⟨.again, ⟨true, true⟩, .spawned 7 8 (some 9), noPty⟩),
    (false, .act (.readFd false .ended)),
    (false, .act (.checkClose ⟨true, true⟩)),
    (true, .act (.exited false)),
    (true, .act (.checkClose ⟨false, false⟩)),
    (false, .deliver ⟨.again, ⟨true, true⟩, .answered true, noPty⟩),
    (false, .winchange),
    (true, .deliver ⟨.again, ⟨true, true⟩, .answered true, noPty⟩),
    (true, .deliver ⟨.again, ⟨true, true⟩, .answered true, noPty⟩),
    (true, .deliver ⟨.again, ⟨true, true⟩, .answered true, noPty⟩)]

/-- Everything that was sent to the program at `q`, while it can take it: got, waiting or in
    flight. -/
theorem Flow.conserves (h : Flow p q) (hne : q.channel.writefd ≠ .closed) :
    q.wrote ++ q.channel.contents .out ++ bytesOf (p.sent.drop q.received)
      = (bytesOf p.sent).drop q.early := by
  have hall : bytesOf p.sent = bytesOf (p.sent.take q.received) ++ bytesOf (p.sent.drop q.received) := by
    rw [← bytesOf_append, List.take_append_drop]
  rw [h.kept hne, hall, List.drop_append_of_le_length h.early]

theorem Flow.prefix_sent (h : Flow p q) : q.wrote <+: (bytesOf p.sent).drop q.early := by
  have hall : bytesOf p.sent = bytesOf (p.sent.take q.received) ++ bytesOf (p.sent.drop q.received) := by
    rw [← bytesOf_append, List.take_append_drop]
  rw [hall, List.drop_append_of_le_length h.early]
  exact h.stream.trans (List.prefix_append _ _)

/-- **The bytes arrive in order, none twice and none lost.** What the program at the one end got is
    always a beginning of what the other end sent, and as long as its descriptor was not closed the
    rest is waiting in the buffer or in flight. Only what comes before a server has started its
    command does not count (`early`). -/
theorem link_streams (hA : 0 < windowA) (hA' : windowA ≤ maxRecvWindow) (hB : 0 < windowB)
    (hB' : windowB ≤ maxRecvWindow)
    (hopen : openLink windowA windowB packetA packetB endA endB = .ok l)
    (hrun : Machine.run (linkStep windowA windowB) l events = some l') :
    l'.b.wrote <+: (bytesOf l'.a.sent).drop l'.b.early ∧
      (l'.b.channel.writefd ≠ .closed →
        l'.b.wrote ++ l'.b.channel.contents .out ++ bytesOf (l'.a.sent.drop l'.b.received)
          = (bytesOf l'.a.sent).drop l'.b.early) ∧
      (endB ≠ .svrSession → l'.b.early = 0) := by
  obtain ⟨h, -, hend⟩ := link_run_sound hA hA' hB hB' hopen hrun
  refine ⟨h.out.prefix_sent, h.out.conserves, ?_⟩
  rw [← hend]
  exact fun hne => (h.out.attached hne).2

theorem link_streams_session :
    ∃ l', Machine.run (linkStep 4 6) ⟨sessionLink.b, sessionLink.a⟩
        (sessionEvents.map fun e => (!e.1, e.2)) = some l' ∧
      l'.b.wrote <+: (bytesOf l'.a.sent).drop l'.b.early := by
  have hsome : (Machine.run (linkStep 4 6) ⟨sessionLink.b, sessionLink.a⟩
      (sessionEvents.map fun e => (!e.1, e.2))).isSome = true := by
    decide +kernel
  obtain ⟨l', hrun⟩ := Option.isSome_iff_exists.mp hsome
  have hopen : openLink 4 6 100 100 (.cliSession 1 0 2 none) .svrSession
      = .ok ⟨sessionLink.b, sessionLink.a⟩ := by rfl
  exact ⟨l', hrun,
    (link_streams (by decide) (by decide) (by decide) (by decide) hopen hrun).1⟩

/-- **The two ends are never stuck.** When nothing is in flight and nothing waits at the receiving
    end, which has dropped nothing and can still write, the other end may send. -/
theorem link_never_stuck (hA : 0 < windowA) (hA' : windowA ≤ maxRecvWindow) (hB : 0 < windowB)
    (hB' : windowB ≤ maxRecvWindow)
    (hopen : openLink windowA windowB packetA packetB endA endB = .ok l)
    (hrun : Machine.run (linkStep windowA windowB) l events = some l')
    (hout : l'.b.received = l'.a.sent.length) (hback : l'.a.received = l'.b.sent.length)
    (hwaits : ∀ side, l'.b.channel.contents side = []) (hdropped : l'.b.dropped = 0)
    (hreceiving : l'.b.channel.Receiving) : 0 < l'.a.channel.transwindow := by
  obtain ⟨h, -, -⟩ := link_run_sound hA hA' hB hB' hopen hrun
  have hwindow := h.out.window
  have hheld := h.peer.full hreceiving
  have hlow := h.peer.low
  rw [hout, hback, List.drop_length, List.drop_length, hdropped] at hwindow
  simp only [datalen, incrs, List.map_nil, List.sum_nil] at hwindow
  simp only [Channel.held, hwaits, List.length_nil] at hheld
  simp only [Channel.Low, recvWindowextend] at hlow
  omega

/-- The client fills the window of the server. -/
def fillEvents : List (Bool × PartyEvent) :=
  [(true, .act (.sendRequest true false)),
    (false, .deliver ⟨.again, ⟨true, true⟩, .spawned 7 8 (some 9), noPty⟩),
    (true, .act (.readFd false (.bytes [1, 2, 3, 4, 5, 6, 7])))]

/-- The command takes what the client has sent, in two parts, and the window is given back. -/
def drainEvents : List (Bool × PartyEvent) :=
  [(false, .deliver ⟨.written 4, ⟨true, true⟩, .answered true, noPty⟩),
    (false, .act (.writeFd .out (.written 2))),
    (true, .deliver ⟨.again, ⟨true, true⟩, .answered true, noPty⟩),
    (true, .deliver ⟨.again, ⟨true, true⟩, .answered true, noPty⟩)]

/-- What `link_never_stuck` asks of a state, for a receiver that is a server. -/
def drained (l : Link) : Bool :=
  decide (l.b.received = l.a.sent.length) && decide (l.a.received = l.b.sent.length) &&
    decide (l.b.channel.contents .out = []) && decide (l.b.channel.contents .err = []) &&
    decide (l.b.dropped = 0) && l.b.channel.extrabuf.isNone && l.b.channel.writefd.isOpen

theorem link_never_stuck_session :
    ∃ full l', Machine.run (linkStep 4 6) ⟨sessionLink.b, sessionLink.a⟩ fillEvents = some full ∧
      full.a.channel.transwindow = 0 ∧
      Machine.run (linkStep 4 6) ⟨sessionLink.b, sessionLink.a⟩ (fillEvents ++ drainEvents)
        = some l' ∧
      0 < l'.a.channel.transwindow := by
  have hfull : ((Machine.run (linkStep 4 6) ⟨sessionLink.b, sessionLink.a⟩ fillEvents).map
      (·.a.channel.transwindow)) = some 0 := by
    decide +kernel
  have hdrained : ((Machine.run (linkStep 4 6) ⟨sessionLink.b, sessionLink.a⟩
      (fillEvents ++ drainEvents)).map drained) = some true := by
    decide +kernel
  obtain ⟨full, hfill, hzero⟩ := Option.map_eq_some_iff.mp hfull
  obtain ⟨l', hrun, hl'⟩ := Option.map_eq_some_iff.mp hdrained
  have hopen : openLink 4 6 100 100 (.cliSession 1 0 2 none) .svrSession
      = .ok ⟨sessionLink.b, sessionLink.a⟩ := by rfl
  simp only [drained, Bool.and_eq_true, decide_eq_true_eq, Option.isNone_iff_eq_none] at hl'
  obtain ⟨⟨⟨⟨⟨⟨hout, hback⟩, hwaits⟩, hwaitsErr⟩, hdropped⟩, hextra⟩, hopened⟩ := hl'
  refine ⟨full, l', hfill, hzero, hrun, link_never_stuck (by decide) (by decide) (by decide)
    (by decide) hopen hrun hout hback ?_ hdropped ?_⟩
  · intro side
    cases side with
    | out => exact hwaits
    | err => exact hwaitsErr
  · intro side hsome hclosed
    cases side with
    | out =>
      rw [show l'.b.channel.writefd = .closed from hclosed] at hopened
      cases hopened
    | err =>
      rw [Channel.buf, hextra] at hsome
      cases hsome

/-- **The messages of each end come in order**: no data, command, `pty-req` or second EOF after EOF,
    and nothing after CLOSE but the window changes of a client. A channel is removed only after both
    ends have sent CLOSE, and then only such window changes are left in flight to it. -/
theorem link_order (hA : 0 < windowA) (hA' : windowA ≤ maxRecvWindow) (hB : 0 < windowB)
    (hB' : windowB ≤ maxRecvWindow)
    (hopen : openLink windowA windowB packetA packetB endA endB = .ok l)
    (hrun : Machine.run (linkStep windowA windowB) l events = some l') :
    (∀ before msg after, l'.a.sent = before ++ msg :: after →
        (.close ∈ before → endA.isCliSession = true ∧ msg = .request false false) ∧
        (.eof ∈ before → msg.beforeEof = false)) ∧
      (l'.a.removed = true →
        .close ∈ l'.a.sent ∧ .close ∈ l'.b.sent ∧
          ∀ msg ∈ l'.b.sent.drop l'.a.received,
            endB.isCliSession = true ∧ msg = .request false false) := by
  obtain ⟨h, hendA, hendB⟩ := link_run_sound hA hA' hB hB' hopen hrun
  constructor
  · intro before msg after hsent
    have hall := h.good.sends
    rw [hsent, Machine.run_append, hendA] at hall
    obtain ⟨phase, hbefore, hafter⟩ := Option.bind_eq_some_iff.mp hall
    obtain ⟨mid, hnext, -⟩ := Machine.run_cons_eq_some.mp hafter
    obtain ⟨hclose, heof, -⟩ := phase_of_run hbefore
    refine ⟨?_, fun hmem => Phase.take_ended hnext (heof hmem)⟩
    intro hmem
    rw [hclose hmem] at hnext
    exact (Phase.take_closed hnext).2
  · intro hgone
    obtain ⟨hown, hpeer, hrest⟩ := h.removed hgone
    rw [hendB] at hrest
    exact ⟨hown, List.mem_of_mem_take hpeer, hrest⟩

theorem link_order_session :
    ∃ l', Machine.run (linkStep 6 4) sessionLink winchangeEvents = some l' ∧
      l'.a.removed = true ∧
      (∀ before msg after, l'.a.sent = before ++ msg :: after →
        .close ∈ before → Endpoint.svrSession.isCliSession = true ∧ msg = .request false false) ∧
      .close ∈ l'.a.sent ∧ .close ∈ l'.b.sent := by
  have hgone : ((Machine.run (linkStep 6 4) sessionLink winchangeEvents).map (·.a.removed))
      = some true := by
    decide +kernel
  obtain ⟨l', hrun, hremoved⟩ := Option.map_eq_some_iff.mp hgone
  have hopen : openLink 6 4 100 100 .svrSession (.cliSession 1 0 2 none) = .ok sessionLink := by rfl
  have horder := link_order (by decide) (by decide) (by decide) (by decide) hopen hrun
  refine ⟨l', hrun, hremoved, ?_, (horder.2 hremoved).1, (horder.2 hremoved).2.1⟩
  exact fun before msg after hsent => (horder.1 before msg after hsent).1

end Runs

end Sshd4a
