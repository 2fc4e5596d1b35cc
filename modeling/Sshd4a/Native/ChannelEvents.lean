import Sshd4a.Native.ChannelData

/-!
# The events of a channel

A channel handles the messages of its peer, and what its own side does: descriptors that can be
read or written, a command that exits, requests it sends. `Reacts` says what one event does to
everything that matters for the two ends together: the windows, the phase of what is sent, the
bytes for the program. There is one lemma per kind of event, and `Channel.Ok.recv` and
`Channel.Ok.act` sum them up: nothing in here stops a session whose peer keeps to the phases, to
the window and to one `pty-req`, as long as the channel is there.

A client sends the request for its command before its EOF: `cli_initchansess` sends it when the
channel is opened. The phases ask that of both ends, and it is needed: a server session that is told
EOF before it has a command closes its end, and a command that is started after that meets the
assertion at the beginning of `send_msg_channel_data`. The keepalives of both ends are requests too,
and `send_msg_keepalive` leaves out a channel that has sent EOF. Not so the window changes of a
client: `cli_chansess_winchange` goes through the channels of the session and asks none of them what
it has sent. They are no event of a channel here, but one of the party that has it.
-/

namespace Sshd4a

open Text Fallible

/-! ## Handling an event -/

/-- What handling an event leaves. A channel that was removed is kept as it was. -/
structure Reaction where
  channel : Channel
  removed : Bool := false
  sent : List ChanMsg := []
  /-- The bytes `writefd` took. -/
  bytes : Bytes := []

/-- The result of `check_close`. -/
def Reaction.ofClose (channel : Channel) (result : Option Channel × List ChanMsg) : Reaction where
  channel := result.1.getD channel
  removed := result.1.isNone
  sent := result.2

/-- What the environment decides while a message is handled. -/
structure Surroundings where
  write : WriteResult
  pending : ReadPending
  request : RequestResult
  pty : PtyResult

/-- The handlers of the messages. Extended data is for the session of a client only: any other
    channel of a client ignores it (`recv_msg_channel_extended_data`), and a server answers that it
    does not know the message. -/
def Channel.recv (recvWindow : Nat) (channel : Channel) (env : Surroundings) :
    ChanMsg → Except ChanStop Reaction
  | .data bytes => do
    let wrote ← commonRecvMsgChannelData recvWindow channel .out bytes env.write
    return { channel := wrote.channel, sent := wrote.sent, bytes := wrote.bytes }
  | .extendedData bytes => do
    if channel.extrabuf.isNone then return { channel := channel }
    let wrote ← commonRecvMsgChannelData recvWindow channel .err bytes env.write
    return { channel := wrote.channel, sent := wrote.sent }
  | .windowAdjust incr => return { channel := recvMsgChannelWindowAdjust channel incr }
  | .eof =>
    return .ofClose { channel with recvEof := true } (recvMsgChannelEof channel env.pending)
  | .close =>
    return .ofClose { channel with recvEof := true, recvClose := true }
      (recvMsgChannelClose channel env.pending)
  | .request command wantreply =>
    let result := recvMsgChannelRequest channel command wantreply env.request
    return { channel := result.1, sent := result.2 }
  | .ptyReq wantreply len modes => do
    let result ← recvMsgChannelPtyReq channel wantreply len modes env.pty
    return { channel := result.1, sent := result.2 }
  -- `ignore_recv_response`
  | .success => return { channel := channel }
  | .failure => return { channel := channel }
  -- `await_open` is 0
  | .openReply => throw .unexpectedReply

/-- What one end does by itself. -/
inductive LocalEvent
  | readFd (isextended : Bool) (result : ReadResult)
  | writeFd (side : Side) (result : WriteResult)
  | checkClose (pending : ReadPending)
  /-- The command has exited, with a message for how or without. -/
  | exited (message : Bool)
  | sendRequest (command wantreply : Bool)
deriving DecidableEq, Repr

/-- When `channelio` and the rest of the session do it. -/
def LocalEvent.enabled (channel : Channel) : LocalEvent → Bool
  | .readFd isextended _ =>
    (channel.sourceFd isextended).isOpen && (!isextended || channel.errfdIsRead)
  | .writeFd side _ => (channel.sideFd side).isOpen && (channel.buf side).isSome
  | .checkClose _ => true
  | .exited _ => channel.chansess.any fun chansess => chansess.started && chansess.exited.isNone
  -- the request for a command, a keepalive, an agent request
  | .sendRequest command _ => !channel.sentClose && (!command || !channel.sentEof)

def Channel.act (recvWindow : Nat) (channel : Channel) : LocalEvent → Except ChanStop Reaction
  | .readFd isextended result => do
    let (channel, sent) ← sendMsgChannelData channel isextended result
    return { channel := channel, sent := sent }
  | .writeFd side result => do
    let wrote ← writechannel recvWindow channel side none result
    return {
      channel := wrote.channel
      sent := wrote.sent
      bytes := match side with | .out => wrote.bytes | .err => [] }
  | .checkClose pending => return .ofClose channel (checkClose channel pending)
  | .exited message =>
    return { channel :=
      { channel with
        chansess := channel.chansess.map fun chansess => { chansess with exited := some message } } }
  | .sendRequest command wantreply =>
    return { channel := channel, sent := [.request command wantreply] }

/-- A `pty-req` that `sessionpty` does not survive: it is the second, or its modes cannot be read. -/
def ptyStops (chansess : ChanChild) (result : PtyResult) (len : Nat) (modes : Bytes) : Bool :=
  result.allowed &&
    (chansess.pty || result.allocated && result.attributes && !(getTermmodes len modes).isOk)

/-- The message makes the server start a command. -/
def Channel.starts (channel : Channel) (env : Surroundings) : ChanMsg → Bool
  | .request true _ =>
    match channel.chansess, env.request with
    | some chansess, .spawned _ _ _ => !chansess.started
    | _, _ => false
  | _ => false

/-! ## What a reaction is -/

def Reaction.sendPhase (r : Reaction) : Phase := if r.removed then .closed else r.channel.sendPhase

def Reaction.recvPhase (r : Reaction) : Phase := if r.removed then .closed else r.channel.recvPhase

/-- The data for `writefd` in a message. -/
def ChanMsg.bytes : ChanMsg → Bytes
  | .data bytes => bytes
  | _ => []

/-- Whether data has somewhere to go. -/
def Channel.takesSide (channel : Channel) (side : Side) : Bool :=
  (channel.sideFd side).isOpen && (channel.buf side).isSome

/-- Whether the data of a message has. -/
def Channel.takes (channel : Channel) : ChanMsg → Bool
  | .data _ => channel.takesSide .out
  | .extendedData _ => channel.takesSide .err
  | _ => true

namespace Channel

/-- Every buffer has somewhere to go. -/
def Receiving (channel : Channel) : Prop :=
  ∀ side, (channel.buf side).isSome = true → channel.sideFd side ≠ .closed

/-- Less than a third of the window waits to be given back. -/
def Low (recvWindow : Nat) (channel : Channel) : Prop :=
  channel.recvdonelen = 0 ∨ channel.recvdonelen < recvWindowextend recvWindow

/-- What handling an event does, if it brings `incr` bytes of window, takes `taken` bytes of the
    own window, and brings `new` for the program. -/
structure Reacts (recvWindow : Nat) (channel : Channel) (incr taken : Nat) (new : Bytes)
    (r : Reaction) : Prop where
  ok : r.channel.Ok recvWindow
  sends : Machine.run Phase.next channel.sendPhase r.sent = some r.sendPhase
  transwindow : r.channel.transwindow + datalen r.sent = channel.transwindow + incr
  recvwindow : r.channel.recvwindow + taken = channel.recvwindow + incrs r.sent
  held : r.channel.held ≤ channel.held
  receiving : r.channel.Receiving → channel.Receiving ∧ r.channel.held = channel.held
  low : channel.Low recvWindow → r.channel.Low recvWindow
  stream : r.bytes <+: channel.contents .out ++ new
  kept : r.channel.writefd ≠ .closed →
    r.bytes ++ r.channel.contents .out = channel.contents .out ++ new
  closed : channel.writefd = .closed → r.channel.writefd = .closed ∧ r.bytes = []
  uninit : r.channel.writefd = .uninit → channel.writefd = .uninit

variable {recvWindow : Nat} {channel channel' : Channel} {msgs : List ChanMsg}

/-- If no descriptor that data goes to was opened, the ones that are not closed were not before. -/
theorem Receiving.of_fds (hbuf : ∀ side, (channel.buf side).isSome = (channel'.buf side).isSome)
    (hfds : ∀ side, (channel.buf side).isSome = true →
      channel'.sideFd side = channel.sideFd side ∨ channel'.sideFd side = .closed)
    (h : channel'.Receiving) : channel.Receiving := by
  intro side hsome
  obtain heq | heq := hfds side hsome
  · rw [← heq]
    exact h side (hbuf side ▸ hsome)
  · exact absurd heq (h side (hbuf side ▸ hsome))

/-- Nothing but descriptors and what was said about the end changed. -/
theorem Reacts.of_advances (h : Advances recvWindow channel channel' msgs) :
    Reacts recvWindow channel 0 0 [] { channel := channel', sent := msgs } := by
  obtain ⟨hdata, hincr⟩ := h.quiet
  constructor
  case ok => exact h.ok
  case sends => exact h.phase
  case transwindow =>
    dsimp only
    rw [hdata, h.same.transwindow]
  case recvwindow =>
    dsimp only
    rw [hincr, h.same.recvwindow]
  case held => exact Nat.le_of_eq h.same.held
  case receiving =>
    intro hrec
    refine ⟨Receiving.of_fds (fun side => by rw [h.same.buf]) ?_ hrec, h.same.held⟩
    intro side _
    cases side with
    | out => exact h.writefd
    | err => exact h.errfd
  case low =>
    intro hlow
    rw [Low, h.same.recvdonelen]
    exact hlow
  case stream => exact List.nil_prefix
  case kept =>
    intro _
    dsimp only
    rw [h.same.contents, List.append_nil, List.nil_append]
  case closed =>
    intro hclosed
    exact ⟨h.writefd.elim (·.trans hclosed) id, rfl⟩
  case uninit =>
    intro huninit
    dsimp only at huninit
    obtain heq | heq := h.writefd
    · exact heq ▸ huninit
    · rw [heq] at huninit
      exact absurd huninit (by simp)

/-- The channel was removed. -/
theorem Reacts.of_removed (h : channel.Ok recvWindow)
    (hphase : Machine.run Phase.next channel.sendPhase msgs = some .closed)
    (hquiet : datalen msgs = 0 ∧ incrs msgs = 0) :
    Reacts recvWindow channel 0 0 [] { channel := channel, removed := true, sent := msgs } := by
  obtain ⟨hdata, hincr⟩ := hquiet
  constructor
  case ok => exact h
  case sends => exact hphase
  case transwindow =>
    dsimp only
    rw [hdata]
  case recvwindow =>
    dsimp only
    rw [hincr]
  case held => exact Nat.le_refl _
  case receiving => exact fun hrec => ⟨hrec, rfl⟩
  case low => exact id
  case stream => exact List.nil_prefix
  case kept =>
    intro _
    rw [List.append_nil]
    rfl
  case closed => exact fun hclosed => ⟨hclosed, rfl⟩
  case uninit => exact id

/-- `check_close`, seen as a reaction. -/
theorem Ok.ofClose (h : channel.Ok recvWindow) (pending : ReadPending) :
    Reacts recvWindow channel 0 0 [] (.ofClose channel (Sshd4a.checkClose channel pending)) ∧
      (Reaction.ofClose channel (Sshd4a.checkClose channel pending)).recvPhase = channel.recvPhase ∧
      (Reaction.ofClose channel (Sshd4a.checkClose channel pending)).channel.ptys = channel.ptys := by
  have hclose := h.checkClose pending
  cases hresult : Sshd4a.checkClose channel pending with
  | mk after msgs =>
    rw [hresult] at hclose
    cases after with
    | some channel' =>
      refine ⟨.of_advances hclose, ?_, hclose.same.ptys⟩
      simp only [Reaction.ofClose, Reaction.recvPhase, Option.isNone_some, Option.getD_some,
        recvPhase, hclose.same.recvClose, hclose.same.recvEof]
      rfl
    | none =>
      obtain ⟨hrecv, hphase, hquiet⟩ := hclose
      refine ⟨.of_removed h hphase hquiet, ?_, rfl⟩
      simp only [Reaction.ofClose, Reaction.recvPhase, Option.isNone_none, recvPhase, hrecv,
        if_true]

/-- What was received does not matter for what a reaction is. -/
theorem Reacts.of_received {recvEof recvClose : Bool} {incr taken : Nat} {new : Bytes} {r : Reaction}
    (h : Reacts recvWindow { channel with recvEof := recvEof, recvClose := recvClose } incr taken
      new r) : Reacts recvWindow channel incr taken new r :=
  ⟨h.ok, h.sends, h.transwindow, h.recvwindow, h.held, h.receiving, h.low, h.stream, h.kept,
    h.closed, h.uninit⟩

theorem Ok.received (h : channel.Ok recvWindow) (recvClose : Bool) :
    Ok recvWindow { channel with recvEof := true, recvClose := recvClose } :=
  ⟨h.bufs, h.eof, h.close, fun _ => rfl, h.bidir,
    fun hfresh => absurd hfresh.2 (by simp), h.client⟩

theorem run_phase_adjust {sent : List ChanMsg} {phase : Phase} (hphase : phase ≠ .closed)
    (hsent : sent = [] ∨ ∃ incr, sent = [.windowAdjust incr]) :
    Machine.run Phase.next phase sent = some phase := by
  obtain rfl | ⟨incr, rfl⟩ := hsent
  · rfl
  · cases phase with
    | opened => rfl
    | ended => rfl
    | closed => exact absurd rfl hphase

theorem datalen_adjust {sent : List ChanMsg}
    (hsent : sent = [] ∨ ∃ incr, sent = [.windowAdjust incr]) : datalen sent = 0 := by
  obtain rfl | ⟨incr, rfl⟩ := hsent
  · rfl
  · rfl

theorem Ok.sendPhase_ne_closed (h : channel.Ok recvWindow) {side : Side}
    (hopen : (channel.sideFd side).isOpen = true) : channel.sendPhase ≠ .closed := by
  intro hphase
  have hclose : channel.sentClose = true := by
    by_contra hnot
    rw [sendPhase, if_neg hnot] at hphase
    split at hphase <;> exact absurd hphase (by simp)
  obtain ⟨-, hwrite, -, herr⟩ := h.close hclose
  cases side with
  | out => simp [sideFd, hwrite, ChanFd.isOpen] at hopen
  | err => simp [sideFd, herr, ChanFd.isOpen] at hopen

/-- Data that was taken, for the program at `side`. -/
theorem Takes.reacts {side : Side} {data : Bytes} {wrote : Wrote} (h : channel.Ok recvWindow)
    (hbuf : (channel.buf side).isSome = true) (hopen : (channel.sideFd side).isOpen = true)
    (ht : Takes recvWindow channel side data wrote) :
    Reacts recvWindow channel 0 data.length (if side = .out then data else [])
      { channel := wrote.channel, sent := wrote.sent
        bytes := if side = .out then wrote.bytes else [] } := by
  have hfds : ∀ side, wrote.channel.sideFd side = channel.sideFd side ∨
      wrote.channel.sideFd side = .closed := by
    intro side
    cases side with
    | out => exact ht.writefd
    | err => exact ht.errfd
  have hok : wrote.channel.sideFd side ≠ .closed → wrote.ok = true := by
    intro hne
    cases hok : wrote.ok with
    | true => rfl
    | false => exact absurd (ht.failed hok).2.2 hne
  constructor
  case ok => exact ht.ok
  case sends =>
    rw [run_phase_adjust (h.sendPhase_ne_closed hopen) ht.sent, ← ht.sendPhase]
    rfl
  case transwindow =>
    dsimp only
    rw [datalen_adjust ht.sent, ht.transwindow]
  case recvwindow => exact ht.recvwindow
  case held =>
    cases hwrote : wrote.ok with
    | true => exact Nat.le_of_eq (ht.kept hwrote).1
    | false => exact (ht.failed hwrote).1
  case receiving =>
    intro hrec
    refine ⟨Receiving.of_fds ?_ (fun other _ => hfds other) hrec, ?_⟩
    · intro other
      by_cases heq : other = side
      · rw [heq, hbuf]
        exact ht.isSome.symm
      · rw [ht.other other heq]
    · exact (ht.kept (hok (hrec side ht.isSome))).1
  case low => exact fun _ => ht.low
  case stream =>
    cases side with
    | out =>
      cases hwrote : wrote.ok with
      | true => exact ⟨_, (ht.kept hwrote).2.1⟩
      | false => exact (ht.failed hwrote).2.1
    | err => exact List.nil_prefix
  case kept =>
    intro hne
    cases side with
    | out => exact (ht.kept (hok hne)).2.1
    | err =>
      have hother : wrote.channel.contents .out = channel.contents .out := by
        rw [contents, ht.other .out (by simp), contents]
      simp only [reduceCtorEq, if_false, hother, List.nil_append, List.append_nil]
  case closed =>
    intro hclosed
    cases side with
    | out => simp [sideFd, hclosed, ChanFd.isOpen] at hopen
    | err => exact ⟨ht.writefd.elim (·.trans hclosed) id, rfl⟩
  case uninit =>
    intro huninit
    dsimp only at huninit
    obtain heq | heq := ht.writefd
    · exact heq ▸ huninit
    · rw [heq] at huninit
      exact absurd huninit (by simp)

/-- Nothing happens. -/
theorem Ok.reacts_nothing (h : channel.Ok recvWindow) :
    Reacts recvWindow channel 0 0 [] { channel := channel } :=
  .of_advances (.of_closes h (Closes.refl channel) fun _ => rfl)

theorem Ok.recvWindowAdjust (h : channel.Ok recvWindow) {incr : Nat}
    (hincr : channel.transwindow + incr < 2 ^ 32) :
    Reacts recvWindow channel incr 0 [] { channel := recvMsgChannelWindowAdjust channel incr } := by
  have hadjust : recvMsgChannelWindowAdjust channel incr
      = { channel with transwindow := channel.transwindow + incr } := by
    rw [recvMsgChannelWindowAdjust, Nat.mod_eq_of_lt hincr, if_neg (by omega)]
  rw [hadjust]
  have hnone := h.reacts_nothing
  refine ⟨⟨h.bufs, h.eof, h.close, h.recvClose, h.bidir,
    h.fresh, h.client⟩, hnone.sends, rfl, hnone.recvwindow, hnone.held, hnone.receiving, hnone.low,
    hnone.stream, hnone.kept, hnone.closed, hnone.uninit⟩

/-- A message that only says something, where it may be said. -/
theorem Reacts.say {msg : ChanMsg} {incr taken : Nat} {new : Bytes}
    (hr : Reacts recvWindow channel incr taken new { channel := channel' })
    (hphase : channel.sendPhase.next msg = some channel.sendPhase)
    (hquiet : msg.datalen = 0 ∧ msg.incr = 0) :
    Reacts recvWindow channel incr taken new { channel := channel', sent := [msg] } := by
  obtain ⟨hdata, hincr⟩ := hquiet
  refine ⟨hr.ok, ?_, ?_, ?_, hr.held, hr.receiving, hr.low, hr.stream, hr.kept, hr.closed,
    hr.uninit⟩
  · have hsame := hr.sends
    rw [Machine.run_nil, Option.some.injEq] at hsame
    rw [Machine.run_cons hphase, Machine.run_nil]
    exact congrArg some hsame
  · have hwindow := hr.transwindow
    simp only [datalen, List.map_cons, List.map_nil, List.sum_cons, List.sum_nil, hdata] at hwindow ⊢
    exact hwindow
  · have hwindow := hr.recvwindow
    simp only [incrs, List.map_cons, List.map_nil, List.sum_cons, List.sum_nil, hincr] at hwindow ⊢
    exact hwindow

/-- The answer to a request. -/
theorem Reacts.reply {incr taken : Nat} {new : Bytes}
    (hr : Reacts recvWindow channel incr taken new { channel := channel' })
    (hclose : channel'.sentClose = channel.sentClose) (wantreply success : Bool) :
    Reacts recvWindow channel incr taken new
      { channel := channel', sent := sendReply channel' wantreply success } := by
  rw [sendReply]
  by_cases hreply : (wantreply && !channel'.sentClose) = true
  · rw [if_pos hreply]
    simp only [Bool.and_eq_true, Bool.not_eq_true', hclose] at hreply
    apply Reacts.say hr
    · simp only [sendPhase, hreply.2]
      cases channel.sentEof <;> cases success <;> rfl
    · cases success <;> exact ⟨rfl, rfl⟩
  · rw [if_neg hreply]
    exact hr

/-- **A command is started**, on a session that can still be given one. -/
theorem Ok.spawn (h : channel.Ok recvWindow) {chansess : ChanChild}
    (hsess : channel.chansess = some chansess) (hfresh : channel.Fresh)
    (writefd readfd : Nat) (errfd : Option Nat) :
    Reacts recvWindow channel 0 0 []
      { channel := { channel with
          writefd := .fd writefd
          readfd := .fd readfd
          errfd := match errfd with | some errfd => .fd errfd | none => channel.errfd
          bidirFd := false
          chansess := some { chansess with started := true } } } := by
  obtain ⟨hwrite, hread, herr, hsent⟩ := h.fresh hfresh
  have hnone := h.reacts_nothing
  have hextra : channel.extrabuf = none := by
    cases hb : channel.extrabuf with
    | none => rfl
    | some extrabuf =>
      have hclient := h.client (by rw [hb]; rfl)
      rw [hsess] at hclient
      exact absurd hclient (by simp)
  refine ⟨⟨h.bufs, ?_, ?_, h.recvClose, ?_, ?_, ?_⟩,
    hnone.sends, rfl, rfl, Nat.le_refl _, ?_, hnone.low, List.nil_prefix, ?_, ?_, ?_⟩
  · intro heof
    exact absurd (hsent.symm.trans heof) (by simp)
  · intro hclose
    exact absurd (hsent.symm.trans (h.close hclose).1) (by simp)
  · intro hbidir
    exact absurd hbidir (by simp)
  · intro hstill
    obtain ⟨⟨sess, hsome, hstarted⟩, -⟩ := hstill
    cases hsome
    exact absurd hstarted (by simp)
  · intro hsome
    rw [hextra] at hsome
    exact absurd hsome (by simp)
  · intro _
    refine ⟨?_, rfl⟩
    intro side hsome
    cases side with
    | out => simp [sideFd, hwrite]
    | err => simp [buf, hextra] at hsome
  · intro _
    exact (List.append_nil _).symm
  · intro hclosed
    exact absurd (hwrite.symm.trans hclosed) (by simp)
  · intro huninit
    exact absurd huninit (by simp)

/-- `sessionpty` stops exactly there, and changes nothing but the pty. -/
theorem sessionpty_meets (chansess : ChanChild) (result : PtyResult) (len : Nat) (modes : Bytes) :
    Meets (sessionpty chansess result len modes)
      (fun after => (∃ pty, after.1 = { chansess with pty := pty }) ∧
        ptyStops chansess result len modes = false)
      (fun _ => ptyStops chansess result len modes = true) := by
  obtain ⟨allowed, allocated, attributes⟩ := result
  cases allowed with
  | false => exact ⟨⟨chansess.pty, rfl⟩, rfl⟩
  | true =>
    cases hpty : chansess.pty with
    | true => simp [sessionpty, ptyStops, hpty]
    | false =>
      cases allocated with
      | false =>
        have hsession : sessionpty chansess ⟨true, false, attributes⟩ len modes
            = .ok (chansess, false) := by simp [sessionpty, hpty]
        rw [hsession]
        exact ⟨⟨chansess.pty, rfl⟩, by simp [ptyStops, hpty]⟩
      | true =>
        cases attributes with
        | false =>
          have hsession : sessionpty chansess ⟨true, true, false⟩ len modes
              = .ok ({ chansess with pty := true }, true) := by simp [sessionpty, hpty]
          rw [hsession]
          exact ⟨⟨true, rfl⟩, by simp [ptyStops, hpty]⟩
        | true =>
          cases hmodes : getTermmodes len modes with
          | error stop => simp [sessionpty, ptyStops, hpty, hmodes, Except.isOk, Except.toBool]
          | ok _ => simp [sessionpty, ptyStops, hpty, hmodes, Except.isOk, Except.toBool]

/-- **A pty is allocated**, or not, for a session. -/
theorem Ok.setPty (h : channel.Ok recvWindow) {chansess : ChanChild}
    (hsess : channel.chansess = some chansess) (pty : Bool) :
    Reacts recvWindow channel 0 0 []
      { channel := { channel with chansess := some { chansess with pty := pty } } } := by
  have hnone := h.reacts_nothing
  refine ⟨⟨h.bufs, h.eof, h.close, h.recvClose, h.bidir, ?_, ?_⟩, hnone.sends, rfl, rfl,
    Nat.le_refl _, hnone.receiving, hnone.low, hnone.stream, hnone.kept, hnone.closed, hnone.uninit⟩
  · intro hfresh
    obtain ⟨⟨sess, hsome, hstarted⟩, heof⟩ := hfresh
    cases hsome
    exact h.fresh ⟨⟨chansess, hsess, hstarted⟩, heof⟩
  · intro hextra
    have hclient := h.client hextra
    rw [hsess] at hclient
    exact absurd hclient (by simp)

theorem recvPhase_opened (h : channel.recvPhase = .opened) :
    channel.recvEof = false ∧ channel.recvClose = false := by
  cases hclose : channel.recvClose <;> cases heof : channel.recvEof <;>
    simp_all [recvPhase]

/-- Data for a side that has somewhere to put it, or not. -/
theorem Ok.recvAnyData (h : channel.Ok recvWindow) (hheld : channel.held ≤ recvWindow)
    (heof : channel.recvEof = false) (side : Side) {data : Bytes}
    (hlen : channel.takesSide side = true → data.length ≤ channel.recvwindow)
    (result : WriteResult) :
    ∃ wrote, commonRecvMsgChannelData recvWindow channel side data result = .ok wrote ∧
      wrote.channel.recvPhase = channel.recvPhase ∧ wrote.channel.ptys = channel.ptys ∧
      Reacts recvWindow channel 0 (if channel.takesSide side then data.length else 0)
        (if side = .out then (if channel.takesSide side then data else []) else [])
        { channel := wrote.channel, sent := wrote.sent
          bytes := if side = .out then wrote.bytes else [] } := by
  cases htakes : channel.takesSide side with
  | true =>
    obtain ⟨hopen, hsome⟩ := Bool.and_eq_true_iff.mp htakes
    obtain ⟨cbuf, hbuf⟩ := Option.isSome_iff_exists.mp hsome
    obtain ⟨wrote, hrecv, hspec⟩ := h.recvData hheld heof hbuf hopen (hlen htakes) result
    exact ⟨wrote, hrecv, hspec.recvPhase, hspec.ptys, hspec.reacts h hsome hopen⟩
  | false =>
    refine ⟨{ channel := channel }, ?_, rfl, rfl, ?_⟩
    · rw [commonRecvMsgChannelData, if_neg (by simp [heof])]
      cases hbuf : channel.buf side with
      | none => rfl
      | some cbuf =>
        have hclosed : (channel.sideFd side).isOpen = false := by
          simpa [takesSide, hbuf] using htakes
        simp [hclosed]
    · cases side <;> exact h.reacts_nothing

theorem command_of_starts {env : Surroundings} {command wantreply : Bool}
    (h : channel.starts env (.request command wantreply) = true) : command = true := by
  cases command with
  | true => rfl
  | false => exact absurd h (by simp [starts])

/-- A request, which is for a command only before EOF. -/
theorem Ok.recvRequest (h : channel.Ok recvWindow) (env : Surroundings) (command wantreply : Bool)
    (hintime : channel.starts env (.request command wantreply) = true → channel.recvEof = false) :
    ∃ r, channel.recv recvWindow env (.request command wantreply) = .ok r ∧
      Reacts recvWindow channel 0 0 [] r ∧ r.recvPhase = channel.recvPhase ∧
      r.channel.ptys = channel.ptys := by
  refine ⟨_, rfl, ?_⟩
  cases hsess : channel.chansess with
  | none =>
    simp only [recvMsgChannelRequest, hsess]
    exact ⟨h.reacts_nothing.reply rfl wantreply false, rfl, trivial⟩
  | some chansess =>
    cases hrequest : env.request with
    | answered success =>
      simp only [recvMsgChannelRequest, hsess]
      exact ⟨h.reacts_nothing.reply rfl wantreply success, rfl, trivial⟩
    | spawned writefd readfd errfd =>
      simp only [recvMsgChannelRequest, hsess]
      by_cases hrefused : (!command || chansess.started) = true
      · rw [if_pos hrefused]
        exact ⟨h.reacts_nothing.reply rfl wantreply false, rfl, rfl⟩
      · rw [if_neg hrefused]
        simp only [Bool.or_eq_true, Bool.not_eq_true', not_or, Bool.not_eq_false,
          Bool.not_eq_true] at hrefused
        have hstarts : channel.starts env (.request command wantreply) = true := by
          rw [hrefused.1]
          simp [starts, hsess, hrequest, hrefused.2]
        have hfresh : channel.Fresh := ⟨⟨chansess, hsess, hrefused.2⟩, hintime hstarts⟩
        refine ⟨(h.spawn hsess hfresh writefd readfd errfd).reply rfl wantreply true, rfl, ?_⟩
        simp [ptys, hsess]

/-- A `pty-req` stops where `sessionpty` does. -/
theorem Ok.recvPtyReq (h : channel.Ok recvWindow) (env : Surroundings) (wantreply : Bool)
    (len : Nat) (modes : Bytes) :
    Meets (channel.recv recvWindow env (.ptyReq wantreply len modes))
      (fun r => (Reacts recvWindow channel 0 0 [] r ∧ r.recvPhase = channel.recvPhase ∧
          r.channel.ptys ≤ channel.ptys + 1) ∧
        (channel.chansess.any fun chansess => ptyStops chansess env.pty len modes) = false)
      (fun _ =>
        (channel.chansess.any fun chansess => ptyStops chansess env.pty len modes) = true) := by
  cases hsess : channel.chansess with
  | none =>
    rw [Channel.recv, recvMsgChannelPtyReq, hsess]
    exact ⟨⟨h.reacts_nothing.reply rfl wantreply false, rfl, Nat.le_succ _⟩, rfl⟩
  | some chansess =>
    have hmeets := sessionpty_meets chansess env.pty len modes
    rw [Channel.recv, recvMsgChannelPtyReq, hsess, Option.any_some]
    dsimp only
    cases hsession : sessionpty chansess env.pty len modes with
    | error stop =>
      rw [hsession] at hmeets
      exact hmeets
    | ok after =>
      rw [hsession] at hmeets
      obtain ⟨⟨pty, hafter⟩, hnot⟩ := hmeets
      refine ⟨⟨?_, rfl, ?_⟩, hnot⟩
      · dsimp only
        rw [hafter]
        exact (h.setPty hsess pty).reply rfl wantreply after.2
      · cases pty <;> simp [ptys, hafter]

/-- The first `pty-req` of a session, with modes that can be read. -/
theorem ptyStops_first {env : Surroundings} {len : Nat} {modes : Bytes} (hptys : channel.ptys = 0)
    (hmodes : (getTermmodes len modes).isOk = true) :
    (channel.chansess.any fun chansess => ptyStops chansess env.pty len modes) = false := by
  cases hsess : channel.chansess with
  | none => rfl
  | some chansess =>
    have hnone : chansess.pty = false := by simpa [ptys, hsess] using hptys
    simp [ptyStops, hnone, hmodes]

/-- **What a message does to the channel it is for**, if it comes in its phase, keeps to the
    window, and is no second `pty-req`. -/
theorem Ok.recv (h : channel.Ok recvWindow) (hheld : channel.held ≤ recvWindow) {msg : ChanMsg}
    {client : Bool} {phase : Phase} (hnext : channel.recvPhase.take client msg = some phase)
    (hdata : channel.takes msg = true → msg.datalen ≤ channel.recvwindow)
    (hincr : channel.transwindow + msg.incr < 2 ^ 32)
    (hpty : msg.isPtyReq = true → channel.ptys = 0) (env : Surroundings) :
    ∃ r, channel.recv recvWindow env msg = .ok r ∧
      Reacts recvWindow channel msg.incr (if channel.takes msg then msg.datalen else 0)
        (if channel.takes msg then msg.bytes else []) r ∧
      r.recvPhase = phase ∧ r.channel.ptys ≤ channel.ptys + ptyReqs [msg] := by
  have hphase := Phase.admits_of_take hnext
  cases msg with
  | data bytes =>
    obtain ⟨hopened, rfl⟩ := hphase
    obtain ⟨wrote, hwrote, hsame, hptys, hreacts⟩ :=
      h.recvAnyData hheld (recvPhase_opened hopened).1 .out hdata env.write
    exact ⟨_, by rw [Channel.recv, hwrote]; rfl, hreacts, hsame.trans hopened, Nat.le_of_eq hptys⟩
  | extendedData bytes =>
    obtain ⟨hopened, rfl⟩ := hphase
    cases hextra : channel.extrabuf with
    | none =>
      have htakes : channel.takes (.extendedData bytes) = false := by
        simp [takes, takesSide, buf, hextra]
      refine ⟨{ channel := channel }, ?_, ?_, hopened, Nat.le_add_right _ _⟩
      · simp [Channel.recv, hextra]
      · rw [htakes]
        exact h.reacts_nothing
    | some extrabuf =>
      obtain ⟨wrote, hwrote, hsame, hptys, hreacts⟩ :=
        h.recvAnyData hheld (recvPhase_opened hopened).1 .err hdata env.write
      refine ⟨{ channel := wrote.channel, sent := wrote.sent }, ?_, ?_, hsame.trans hopened,
        Nat.le_of_eq hptys⟩
      · simp [Channel.recv, hextra, hwrote]
      · simp only [ChanMsg.bytes, ite_self]
        exact hreacts
  | windowAdjust incr =>
    exact ⟨_, rfl, h.recvWindowAdjust hincr, hphase.symm, Nat.le_add_right _ _⟩
  | eof =>
    obtain ⟨hopened, rfl⟩ := hphase
    obtain ⟨heof, hclose⟩ := recvPhase_opened hopened
    obtain ⟨hreacts, hafter, hptys⟩ := (h.received channel.recvClose).ofClose env.pending
    refine ⟨_, rfl, hreacts.of_received, hafter.trans ?_, Nat.le_of_eq hptys⟩
    simp [recvPhase, hclose]
  | close =>
    obtain rfl := hphase
    obtain ⟨hreacts, hafter, hptys⟩ := (h.received true).ofClose env.pending
    exact ⟨_, rfl, hreacts.of_received, hafter, Nat.le_of_eq hptys⟩
  | request command wantreply =>
    obtain ⟨rfl, hopened⟩ := hphase
    obtain ⟨r, hr, hreacts, hafter, hptys⟩ := h.recvRequest env command wantreply
      fun hstarts => (recvPhase_opened (hopened (command_of_starts hstarts))).1
    exact ⟨r, hr, hreacts, hafter, Nat.le_of_eq hptys⟩
  | ptyReq wantreply len modes =>
    obtain ⟨rfl, hmodes⟩ := hphase
    have hmeets := h.recvPtyReq env wantreply len modes
    cases hr : channel.recv recvWindow env (.ptyReq wantreply len modes) with
    | error stop =>
      rw [hr, meets_error, ptyStops_first (hpty rfl) hmodes] at hmeets
      exact absurd hmeets (by simp)
    | ok r =>
      rw [hr] at hmeets
      obtain ⟨⟨hreacts, hafter, hptys⟩, -⟩ := hmeets
      exact ⟨r, rfl, hreacts, hafter, hptys⟩
  | success => exact ⟨_, rfl, h.reacts_nothing, hphase.symm, Nat.le_add_right _ _⟩
  | failure => exact ⟨_, rfl, h.reacts_nothing, hphase.symm, Nat.le_add_right _ _⟩
  | openReply => exact hphase.elim

/-- Writing what waits is taking an empty packet. -/
theorem Handles.takes_nil {side : Side} {wrote : Wrote} (h : Handles recvWindow channel side [] wrote)
    (hlow : wrote.channel.Low recvWindow) : Takes recvWindow channel side [] wrote := by
  have hheld : wrote.channel.held = channel.held := by
    have hsum := h.held
    simp only [List.length_nil] at hsum
    omega
  have hstream := h.stream
  rw [List.drop_nil, List.append_nil] at hstream
  refine ⟨h.ok, h.transwindow, h.sendPhase, h.recvPhase, h.ptys, h.sent, h.recvwindow, hlow, h.other,
    h.isSome, h.writefd, h.errfd, ?_, ?_⟩
  · exact fun hok => ⟨hheld, hstream, h.fds hok⟩
  · exact fun hfailed => ⟨Nat.le_of_eq hheld, ⟨_, hstream⟩, h.failed hfailed⟩

/-- Reading from the program, as far as the peer's window goes. -/
theorem Ok.readFd (h : channel.Ok recvWindow) {isextended : Bool}
    (hopen : (channel.sourceFd isextended).isOpen = true)
    (hread : isextended = true → channel.errfdIsRead = true) (result : ReadResult) :
    ∃ after, sendMsgChannelData channel isextended result = .ok after ∧
      Reacts recvWindow channel 0 0 [] { channel := after.1, sent := after.2 } ∧
      after.1.recvPhase = channel.recvPhase ∧ after.1.ptys = channel.ptys := by
  have hsent : channel.sentEof = false := by
    cases heof : channel.sentEof with
    | false => rfl
    | true =>
      have hsource := h.eof heof
      simp only [sourceClosed, Bool.and_eq_true, Bool.or_eq_true, Bool.not_eq_true', beq_iff_eq]
        at hsource
      cases isextended with
      | false => simp [sourceFd, hsource.1, ChanFd.isOpen] at hopen
      | true =>
        obtain hwrite | hclosed := hsource.2
        · rw [hread rfl] at hwrite
          exact absurd hwrite (by simp)
        · simp [sourceFd, hclosed, ChanFd.isOpen] at hopen
  have hclose : channel.sentClose = false := by
    cases hc : channel.sentClose with
    | false => rfl
    | true => exact absurd (hsent.symm.trans (h.close hc).1) (by simp)
  have hfresh : ¬channel.Fresh := by
    intro hfresh
    obtain ⟨-, huninit, herr, -⟩ := h.fresh hfresh
    cases isextended with
    | false => simp [sourceFd, huninit, ChanFd.isOpen] at hopen
    | true => simp [sourceFd, herr, ChanFd.isOpen] at hopen
  have hended : Reacts recvWindow channel 0 0 []
      { channel := closeChanFd channel (channel.sourceFd isextended) .rd } :=
    .of_advances (.of_closes h (closeChanFd_closes _ _ _) fun hf => absurd hf hfresh)
  have hcloses := closeChanFd_closes channel (channel.sourceFd isextended) .rd
  have hphase := (sendPhase_of_closes hcloses).2
  have hptys := (SameData.of_closes hcloses).ptys
  have hnot : (!channel.sentClose) = true := by rw [hclose]; rfl
  simp only [sendMsgChannelData, dropbearAssert]
  rw [if_pos hnot, ok_bind, if_pos hopen, ok_bind]
  split
  next => exact ⟨_, rfl, h.reacts_nothing, rfl, rfl⟩
  next =>
    cases result with
    | interrupted => exact ⟨_, rfl, h.reacts_nothing, rfl, rfl⟩
    | ended => exact ⟨_, rfl, hended, hphase, hptys⟩
    | bytes bytes =>
      dsimp only
      split
      next => exact ⟨_, rfl, hended, hphase, hptys⟩
      next =>
        have hlen : (bytes.take (channel.maxlen isextended)).length ≤ channel.transwindow := by
          rw [List.length_take, maxlen]
          omega
        have hnone := h.reacts_nothing
        refine ⟨_, rfl, ⟨⟨h.bufs, h.eof, h.close, h.recvClose, h.bidir, h.fresh, h.client⟩, ?_, ?_,
          ?_, hnone.held, hnone.receiving, hnone.low, hnone.stream, hnone.kept, hnone.closed,
          hnone.uninit⟩, rfl, rfl⟩
        · cases isextended <;>
            simp [Machine.run, Phase.next, Reaction.sendPhase, sendPhase, hclose, hsent]
        · cases isextended <;>
            simp only [datalen, List.map_cons, List.map_nil, List.sum_cons, List.sum_nil,
              ChanMsg.datalen, if_true, Bool.false_eq_true, if_false] <;> omega
        · cases isextended <;>
            simp [incrs, ChanMsg.incr]

/-- **What one end does by itself.** -/
theorem Ok.act (h : channel.Ok recvWindow) (hheld : channel.held ≤ recvWindow) {event : LocalEvent}
    (henabled : event.enabled channel = true) :
    ∃ r, channel.act recvWindow event = .ok r ∧ Reacts recvWindow channel 0 0 [] r ∧
      r.recvPhase = channel.recvPhase ∧ r.channel.ptys = channel.ptys := by
  cases event with
  | readFd isextended result =>
    simp only [LocalEvent.enabled, Bool.and_eq_true, Bool.or_eq_true, Bool.not_eq_true'] at henabled
    obtain ⟨after, hafter, hreacts, hsame⟩ := h.readFd henabled.1
      (fun hext => henabled.2.resolve_left (by simp [hext])) result
    exact ⟨_, by rw [Channel.act, hafter]; rfl, hreacts, hsame⟩
  | writeFd side result =>
    obtain ⟨hopen, hsome⟩ := Bool.and_eq_true_iff.mp henabled
    obtain ⟨cbuf, hbuf⟩ := Option.isSome_iff_exists.mp hsome
    obtain ⟨wrote, hwrote, hhandles, hlow⟩ := h.writechannel hbuf hopen none hheld result
    have htakes := Handles.takes_nil hhandles hlow
    have hreacts := htakes.reacts h hsome hopen
    refine ⟨_, by rw [Channel.act, hwrote]; rfl, ?_, ?_⟩
    · cases side <;> exact hreacts
    · exact ⟨htakes.recvPhase, htakes.ptys⟩
  | checkClose pending => exact ⟨_, rfl, h.ofClose pending⟩
  | exited message =>
    have hnone := h.reacts_nothing
    refine ⟨_, rfl, ⟨⟨h.bufs, h.eof, h.close, h.recvClose, h.bidir, ?_, ?_⟩, hnone.sends,
      hnone.transwindow, hnone.recvwindow, hnone.held, hnone.receiving, hnone.low, hnone.stream,
      hnone.kept, hnone.closed, hnone.uninit⟩, rfl, ?_⟩
    · intro hfresh
      obtain ⟨⟨sess, hmem, hstarted⟩, heof⟩ := hfresh
      obtain ⟨sess', hmem', rfl⟩ := Option.map_eq_some_iff.mp hmem
      exact h.fresh ⟨⟨sess', hmem', hstarted⟩, heof⟩
    · intro hextra
      dsimp only at hextra ⊢
      rw [h.client hextra, Option.map_none]
    · cases hsess : channel.chansess <;> simp [ptys, hsess]
  | sendRequest command wantreply =>
    refine ⟨_, rfl, h.reacts_nothing.say ?_ ⟨rfl, rfl⟩, rfl, rfl⟩
    simp only [LocalEvent.enabled, Bool.and_eq_true, Bool.or_eq_true, Bool.not_eq_true'] at henabled
    simp only [sendPhase, henabled.1]
    cases heof : channel.sentEof with
    | false => rfl
    | true =>
      obtain hcommand | hsent := henabled.2
      · rw [hcommand]
        rfl
      · exact absurd (hsent.symm.trans heof) (by simp)

end Channel

end Sshd4a
