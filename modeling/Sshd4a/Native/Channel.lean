import Mathlib.Algebra.Ring.Nat
import Sshd4a.Native.Buf
import Sshd4a.Native.CircBuffer

/-!
# One channel of a session (`common-channel.c`)

A channel carries bytes both ways between the wire and a local program. What comes from the wire
is written to `writefd`, and waits in `writebuf` as long as the program does not take it; what
the program writes is read from `readfd` and sent. Each side tells the other how much it may send
(`recvwindow`), counts what the other may still take (`transwindow`), and gives room back with a
window adjustment once a third of the window was written to the program (`RECV_WINDOWEXTEND`).
The way out is a small state machine of its own, `check_close`, which is called after every event
and decides from the file descriptors and four flags when to send EOF, when to send CLOSE and when
the channel is gone.

One function per function of the C. The environment chooses what `read` and `writev` return, and
whether bytes are waiting in a descriptor that is being flushed. The same code is the client's:
there `errfd` is written to and `extrabuf` is its buffer, on the server it is read from and
`extrabuf` is NULL.

There is one channel here, so the channel numbers of the messages are left out; so is what closing
a descriptor does outside the process. The packets are complete, as far as the fields go that every
message of its kind has, and no string in them is longer than `MAX_STRING_LEN`; the terminal modes of
a `pty-req` are the rest of its packet, whatever they are.
-/

namespace Sshd4a

open Text Fallible

/-- A file descriptor field: `FD_UNINIT`, `FD_CLOSED`, or a descriptor. -/
inductive ChanFd
  | uninit
  | closed
  | fd (n : Nat)
deriving DecidableEq, Repr

/-- `fd >= 0`. -/
def ChanFd.isOpen : ChanFd → Bool
  | .fd _ => true
  | _ => false

/-- `SHUT_RD`, `SHUT_WR`, `SHUT_RDWR`. -/
inductive Shut
  | rd
  | wr
  | rdwr
deriving DecidableEq, Repr

/-- The messages about an open channel, without the recipient's number. -/
inductive ChanMsg
  | data (bytes : Bytes)
  | extendedData (bytes : Bytes)
  | windowAdjust (incr : Nat)
  | eof
  | close
  /-- Whether it asks to run something (`shell`, `exec`, `subsystem`), and whether it wants an
      answer. -/
  | request (command wantreply : Bool)
  /-- `pty-req`, with the length it gives for the terminal modes and the rest of the packet. -/
  | ptyReq (wantreply : Bool) (len : Nat) (modes : Bytes)
  | success
  | failure
  /-- `CHANNEL_OPEN_CONFIRMATION` or `CHANNEL_OPEN_FAILURE`. -/
  | openReply
deriving DecidableEq, Repr

/-- What of `struct ChanSess` the channel code asks for. -/
structure ChanChild where
  /-- `master != -1` -/
  pty : Bool := false
  /-- `pid != 0` -/
  started : Bool := false
  /-- `exit.exitpid != -1`; then whether there is a message for how it ended. -/
  exited : Option Bool := none
deriving DecidableEq, Repr

structure Channel where
  recvwindow : Nat
  transwindow : Nat
  recvdonelen : Nat := 0
  transmaxpacket : Nat
  writefd : ChanFd := .uninit
  readfd : ChanFd := .uninit
  errfd : ChanFd := .closed
  bidirFd : Bool := false
  writebuf : CircBuffer
  extrabuf : Option CircBuffer := none
  sentClose : Bool := false
  recvClose : Bool := false
  recvEof : Bool := false
  sentEof : Bool := false
  flushing : Bool := false
  /-- `typedata` of a server session, whose type is the only one with a `check_close`. -/
  chansess : Option ChanChild := none
deriving DecidableEq, Repr

/-- `ERRFD_IS_READ`. -/
def Channel.errfdIsRead (channel : Channel) : Bool := channel.extrabuf.isNone

/-- The two ways from the wire to the program: `writefd` with `writebuf`, and on a client `errfd`
    with `extrabuf`. -/
inductive Side
  | out
  | err
deriving DecidableEq, Repr

def Channel.sideFd (channel : Channel) : Side → ChanFd
  | .out => channel.writefd
  | .err => channel.errfd

def Channel.buf (channel : Channel) : Side → Option CircBuffer
  | .out => some channel.writebuf
  | .err => channel.extrabuf

def Channel.setBuf (channel : Channel) (cbuf : CircBuffer) : Side → Channel
  | .out => { channel with writebuf := cbuf }
  | .err => { channel with extrabuf := some cbuf }

/-! ## Constants -/

/-- `MAX_RECV_WINDOW`. -/
def maxRecvWindow : Nat := 10 * 1024 * 1024

/-- `RECV_WINDOWEXTEND`, of `opts.recv_window`. -/
def recvWindowextend (recvWindow : Nat) : Nat := recvWindow / 3

/-! ## Descriptors -/

def closeChanFd (channel : Channel) (fd : ChanFd) (how : Shut) : Channel :=
  let closeout := !channel.bidirFd || how == .rd
  let closein := !channel.bidirFd || how != .rd
  let channel :=
    if closeout && fd == channel.readfd then { channel with readfd := .closed } else channel
  let channel :=
    if closeout && channel.errfdIsRead && fd == channel.errfd then
      { channel with errfd := .closed }
    else channel
  let channel :=
    if closein && fd == channel.writefd then { channel with writefd := .closed } else channel
  if closein && !channel.errfdIsRead && fd == channel.errfd then { channel with errfd := .closed }
  else channel

/-! ## From the wire to the program -/

/-- What `writev` does: it takes some of the bytes, or none for now, or fails. -/
inductive WriteResult
  | written (n : Nat)
  | again
  | failed
deriving DecidableEq, Repr

/-- What `writechannel` leaves: the channel, `*morelen`, whether it succeeded, the bytes the
    descriptor took and the messages it sent. -/
structure Wrote where
  channel : Channel
  consumed : Nat := 0
  ok : Bool := true
  bytes : Bytes := []
  sent : List ChanMsg := []

/-- `writechannel_writev`. `writev` never takes more than it is given. -/
def writechannelWritev (channel : Channel) (side : Side) (moredata : Option Bytes)
    (result : WriteResult) : Except ChanStop Wrote :=
  match channel.buf side with
  | none => throw .memory
  | some cbuf => do
    let queued ← cbufReadBytes cbuf
    -- `io_count == 0`
    if queued.isEmpty && moredata.isNone then return { channel := channel }
    match result with
    | .again => return { channel := channel }
    | .failed =>
      return { channel := closeChanFd channel (channel.sideFd side) .wr, ok := false }
    | .written n =>
      let iov := queued ++ moredata.getD []
      let written := min n iov.length
      let cbufWritten := min queued.length written
      let cbuf ← cbufIncrread cbuf cbufWritten
      return {
        channel :=
          { channel.setBuf cbuf side with recvdonelen := channel.recvdonelen + written }
        consumed := written - cbufWritten
        bytes := iov.take written }

/-- The window adjustment of `writechannel`. -/
def extendWindow (recvWindow : Nat) (channel : Channel) : Channel × List ChanMsg :=
  if recvWindowextend recvWindow ≤ channel.recvdonelen then
    ({ channel with
        recvwindow := channel.recvwindow + channel.recvdonelen
        recvdonelen := 0 },
      [.windowAdjust channel.recvdonelen])
  else (channel, [])

def writechannel (recvWindow : Nat) (channel : Channel) (side : Side) (moredata : Option Bytes)
    (result : WriteResult) : Except ChanStop Wrote := do
  let wrote ← writechannelWritev channel side moredata result
  let (channel, sent) := extendWindow recvWindow wrote.channel
  dropbearAssert (channel.recvwindow ≤ recvWindow)
  dropbearAssert (channel.recvwindow ≤ cbufGetavail channel.writebuf)
  dropbearAssert (channel.extrabuf.all fun extrabuf => channel.recvwindow ≤ cbufGetavail extrabuf)
  return { wrote with channel := channel, sent := sent }

/-- `common_recv_msg_channel_data`, of the string in the packet. -/
def commonRecvMsgChannelData (recvWindow : Nat) (channel : Channel) (side : Side) (data : Bytes)
    (result : WriteResult) : Except ChanStop Wrote := do
  if channel.recvEof then throw .dataAfterEof
  match channel.buf side with
  | none => return { channel := channel }
  | some cbuf =>
    -- a write has failed, the far side does not know yet
    if !(channel.sideFd side).isOpen then return { channel := channel }
    if cbufGetavail cbuf < data.length then throw .oversizedPacket
    dropbearAssert (data.length ≤ channel.recvwindow)
    let channel := { channel with recvwindow := channel.recvwindow - data.length }
    dropbearAssert (channel.recvwindow ≤ recvWindow)
    let wrote ← writechannel recvWindow channel side (some data) result
    if !wrote.ok then return wrote
    match wrote.channel.buf side with
    | none => throw .memory
    | some cbuf =>
      let rest := data.drop wrote.consumed
      let cbuf ← cbufFill (rest.length + 2) cbuf rest
      return { wrote with channel := wrote.channel.setBuf cbuf side }

/-! ## From the program to the wire -/

/-- What `read` does: it gives some bytes, or nothing for a signal, or it is at the end or fails. -/
inductive ReadResult
  | bytes (bytes : Bytes)
  | interrupted
  | ended
deriving DecidableEq, Repr

def Channel.sourceFd (channel : Channel) (isextended : Bool) : ChanFd :=
  if isextended then channel.errfd else channel.readfd

/-- `maxlen` of `send_msg_channel_data`. -/
def Channel.maxlen (channel : Channel) (isextended : Bool) : Nat :=
  min (min channel.transwindow channel.transmaxpacket)
    (transMaxPayloadLen - 1 - 4 - 4 - (if isextended then 4 else 0))

/-- `send_msg_channel_data`, with the bytes that go to the wire. `read` gives at most what it is
    asked for, and at least a byte unless it is at the end. -/
def sendMsgChannelData (channel : Channel) (isextended : Bool) (result : ReadResult) :
    Except ChanStop (Channel × List ChanMsg) := do
  dropbearAssert (!channel.sentClose)
  dropbearAssert (channel.sourceFd isextended).isOpen
  let maxlen := channel.maxlen isextended
  if maxlen = 0 then return (channel, [])
  match result with
  | .interrupted => return (channel, [])
  | .ended => return (closeChanFd channel (channel.sourceFd isextended) .rd, [])
  | .bytes bytes =>
    let bytes := bytes.take maxlen
    if bytes.isEmpty then return (closeChanFd channel (channel.sourceFd isextended) .rd, [])
    return ({ channel with transwindow := channel.transwindow - bytes.length },
      [if isextended then .extendedData bytes else .data bytes])

/-- `recv_msg_channel_window_adjust`, of 32-bit numbers. -/
def recvMsgChannelWindowAdjust (channel : Channel) (incr : Nat) : Channel :=
  let newwin := (channel.transwindow + incr) % 2 ^ 32
  { channel with transwindow := if newwin < channel.transwindow then 0xffffffff else newwin }

/-! ## EOF and close -/

/-- `write_pending`. -/
def writePending (channel : Channel) : Bool :=
  channel.writefd.isOpen && 0 < cbufGetused channel.writebuf ||
    channel.errfd.isOpen && channel.extrabuf.any fun extrabuf => 0 < cbufGetused extrabuf

/-- `send_msg_channel_close`, with the exit status or signal of `closechansess` before it. -/
def sendMsgChannelClose (channel : Channel) : Channel × List ChanMsg :=
  let exit :=
    match channel.chansess with
    | some { exited := some true, .. } => [.request false false]
    | _ => []
  let channel := { channel with sentEof := true, sentClose := true }
  let channel := closeChanFd channel channel.readfd .rd
  let channel := closeChanFd channel channel.errfd .rdwr
  (closeChanFd channel channel.writefd .wr, exit ++ [.close])

def sendMsgChannelEof (channel : Channel) : Channel × List ChanMsg :=
  ({ channel with sentEof := true }, [.eof])

/-- `close_allowed`, with the `flushing` that `sesscheckclose` sets. -/
def closeAllowed (channel : Channel) : Channel × Bool :=
  match channel.chansess with
  | none => (channel, true)
  | some chansess =>
    if channel.sentClose then (channel, true)
    else
      ({ channel with flushing := channel.flushing || chansess.exited.isSome },
        !chansess.started || chansess.exited.isSome)

/-- `fd_read_pending` of the two descriptors that are read. -/
structure ReadPending where
  readfd : Bool
  errfd : Bool
deriving DecidableEq, Repr

/-- The flushing part of `check_close`. -/
def flushFds (channel : Channel) (pending : ReadPending) : Channel :=
  if channel.flushing then
    let channel :=
      if channel.readfd.isOpen && !pending.readfd then closeChanFd channel channel.readfd .rd
      else channel
    if channel.errfdIsRead && channel.errfd.isOpen && !pending.errfd then
      closeChanFd channel channel.errfd .rd
    else channel
  else channel

/-- No more bytes will come from the program. -/
def Channel.sourceClosed (channel : Channel) : Bool :=
  channel.readfd == .closed && (!channel.errfdIsRead || channel.errfd == .closed)

/-- `check_close`: the channel afterwards, unless it is removed, and the messages it sends. -/
def checkClose (channel : Channel) (pending : ReadPending) : Option Channel × List ChanMsg :=
  let (channel, allowed) := closeAllowed channel
  let channel := flushFds channel pending
  if channel.recvClose && !writePending channel && allowed then
    -- removed, after an answer if there was none yet
    (none, if channel.sentClose then [] else (sendMsgChannelClose channel).2)
  else
    let channel :=
      if (channel.recvEof && !writePending channel) ||
          (channel.writefd != .uninit && channel.chansess.isSome && allowed) then
        closeChanFd channel channel.writefd .wr
      else channel
    let (channel, eof) :=
      if !channel.sentEof && channel.sourceClosed then sendMsgChannelEof channel
      else (channel, [])
    let (channel, close) :=
      if channel.sourceClosed && channel.writefd == .closed && !channel.sentClose && allowed
          && !writePending channel then
        sendMsgChannelClose channel
      else (channel, [])
    (some channel, eof ++ close)

def recvMsgChannelEof (channel : Channel) (pending : ReadPending) : Option Channel × List ChanMsg :=
  checkClose { channel with recvEof := true } pending

def recvMsgChannelClose (channel : Channel) (pending : ReadPending) :
    Option Channel × List ChanMsg :=
  checkClose { channel with recvEof := true, recvClose := true } pending

/-! ## Requests -/

/-- What a request comes to on a server: nothing that changes the channel, or a command that was
    started with these descriptors (`noptycommand`, or `ptycommand` without `errfd`). -/
inductive RequestResult
  | answered (success : Bool)
  | spawned (writefd readfd : Nat) (errfd : Option Nat)
deriving DecidableEq, Repr

/-- `send_msg_channel_success` and `send_msg_channel_failure`. -/
def sendReply (channel : Channel) (wantreply success : Bool) : List ChanMsg :=
  if wantreply && !channel.sentClose then [if success then .success else .failure] else []

/-- `recv_msg_channel_request` with `chansessionrequest` and `sessioncommand`: only one command
    can succeed. -/
def recvMsgChannelRequest (channel : Channel) (command wantreply : Bool) (result : RequestResult) :
    Channel × List ChanMsg :=
  match channel.chansess, result with
  | none, _ => (channel, sendReply channel wantreply false)
  | some _, .answered success => (channel, sendReply channel wantreply success)
  | some chansess, .spawned writefd readfd errfd =>
    if !command || chansess.started then (channel, sendReply channel wantreply false)
    else
      let channel :=
        { channel with
          writefd := .fd writefd
          readfd := .fd readfd
          errfd := match errfd with | some errfd => .fd errfd | none => channel.errfd
          bidirFd := false
          chansess := some { chansess with started := true } }
      (channel, sendReply channel wantreply true)

/-- The loop of `get_termmodes`: an opcode and a value of four bytes, up to an opcode that ends the
    modes. -/
def walkTermmodes : Bytes → Except ChanStop Unit
  | [] => throw .badBufGet
  | opcode :: rest =>
    if opcode = 0 ∨ 159 < opcode then return ()
    else
      match rest with
      | _ :: _ :: _ :: _ :: rest => walkTermmodes rest
      | _ => throw .badBufGet

/-- `get_termmodes`, once `tcgetattr` has succeeded. -/
def getTermmodes (len : Nat) (modes : Bytes) : Except ChanStop Unit := do
  if len ≠ modes.length then throw .badTermModes
  if len = 0 then return ()
  walkTermmodes modes

/-- What the environment says to a `pty-req`: `svr_pubkey_allows_pty` and a terminal whose name is
    not too long, `pty_allocate`, and `tcgetattr`. -/
structure PtyResult where
  allowed : Bool
  allocated : Bool
  attributes : Bool
deriving DecidableEq, Repr

/-- `sessionpty`: the session afterwards, and whether there is a pty now. -/
def sessionpty (chansess : ChanChild) (result : PtyResult) (len : Nat) (modes : Bytes) :
    Except ChanStop (ChanChild × Bool) := do
  if !result.allowed then return (chansess, false)
  if chansess.pty then throw .multiplePtyRequests
  if !result.allocated then return (chansess, false)
  if result.attributes then getTermmodes len modes
  return ({ chansess with pty := true }, true)

/-- `recv_msg_channel_request` with `chansessionrequest` and `sessionpty`. -/
def recvMsgChannelPtyReq (channel : Channel) (wantreply : Bool) (len : Nat) (modes : Bytes)
    (result : PtyResult) : Except ChanStop (Channel × List ChanMsg) :=
  match channel.chansess with
  | none => return (channel, sendReply channel wantreply false)
  | some chansess => do
    let (chansess, success) ← sessionpty chansess result len modes
    return ({ channel with chansess := some chansess }, sendReply channel wantreply success)

/-! ## A new channel -/

/-- `MAX_TERMCODE`. -/
def maxTermcode : Nat := 93

/-- An entry of the terminal modes of a client, with the number of its `termcodes`. -/
structure TermMode where
  sshcode : Nat
  value : Nat
  sshcode_pos : 0 < sshcode
  sshcode_lt : sshcode < maxTermcode
deriving DecidableEq, Repr

/-- `put_termcodes`, without the length. Where `tcgetattr` fails there is no entry. -/
def putTermcodes (modes : List TermMode) : Bytes :=
  modes.flatMap (fun mode => UInt8.ofNat mode.sshcode :: store32h mode.value) ++ [0]

/-- What a channel is connected to when it is opened: a command still to come (`newchansess`), the
    client's own descriptors, with the modes of its terminal if it wants a pty (`cli_initchansess`),
    or a socket, on a server or a client. -/
inductive Endpoint
  | svrSession
  | cliSession (writefd readfd errfd : Nat) (wantpty : Option (List TermMode))
  | socket (fd : Nat) (server : Bool)
deriving DecidableEq, Repr

/-- `channel->type == &clichansess` -/
def Endpoint.isCliSession : Endpoint → Bool
  | .cliSession _ _ _ _ => true
  | _ => false

/-- The session is that of a server, whose packet table has no `SSH_MSG_CHANNEL_EXTENDED_DATA`. -/
def Endpoint.isServer : Endpoint → Bool
  | .svrSession => true
  | .cliSession _ _ _ _ => false
  | .socket _ server => server

/-- What the `inithandler` sends: `send_chansess_pty_req`. -/
def Endpoint.opening : Endpoint → List ChanMsg
  | .cliSession _ _ _ (some modes) => [.ptyReq false (putTermcodes modes).length (putTermcodes modes)]
  | _ => []

/-- `newchannel`, then the `inithandler` of its type. -/
def newchannel (recvWindow transwindow transmaxpacket : Nat) (endpoint : Endpoint) :
    Except ChanStop Channel := do
  let writebuf ← cbufNew recvWindow
  let channel : Channel :=
    { recvwindow := recvWindow, transwindow := transwindow, transmaxpacket := transmaxpacket,
      writebuf := writebuf }
  match endpoint with
  | .svrSession => return { channel with chansess := some {} }
  | .cliSession writefd readfd errfd _ =>
    let extrabuf ← cbufNew recvWindow
    return { channel with
      writefd := .fd writefd, readfd := .fd readfd, errfd := .fd errfd, extrabuf := some extrabuf }
  | .socket fd _ => return { channel with writefd := .fd fd, readfd := .fd fd, bidirFd := true }

end Sshd4a
