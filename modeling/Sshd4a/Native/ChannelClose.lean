import Sshd4a.Native.Channel

/-!
# How a channel is closed

The descriptors of a channel are only ever closed, apart from the one moment when a server session
starts its command; `Closes` is that, and most of what `check_close` does to a channel is a
`Closes`. The rest are the two messages EOF and CLOSE.

What a channel sends comes in three phases: anything; no data and no command any more, after
EOF; nothing any more, after CLOSE. `Channel.Ok` is the invariant that makes `check_close` keep to
them. Its heart is that a side that has sent EOF can read nothing any more, and one that has sent
CLOSE has no descriptor left. Two messages do not come from the channel's own code and are not in
these phases: the `pty-req` a client begins with, and the window changes it sends at any time.
-/

namespace Sshd4a

open Text Fallible

/-! ## Closing descriptors -/

/-- Some descriptors were closed, and nothing else was changed. -/
structure Closes (channel channel' : Channel) : Prop where
  frame : channel' = { channel with
    writefd := channel'.writefd, readfd := channel'.readfd, errfd := channel'.errfd }
  writefd : channel'.writefd = channel.writefd ∨ channel'.writefd = .closed
  readfd : channel'.readfd = channel.readfd ∨ channel'.readfd = .closed
  errfd : channel'.errfd = channel.errfd ∨ channel'.errfd = .closed

namespace Closes

variable {channel channel' channel'' : Channel}

theorem refl (channel : Channel) : Closes channel channel :=
  ⟨rfl, .inl rfl, .inl rfl, .inl rfl⟩

theorem trans (h : Closes channel channel') (h' : Closes channel' channel'') :
    Closes channel channel'' where
  frame := by
    rw [h'.frame, h.frame]
  writefd := by
    obtain heq | heq := h'.writefd
    · rw [heq]
      exact h.writefd
    · exact .inr heq
  readfd := by
    obtain heq | heq := h'.readfd
    · rw [heq]
      exact h.readfd
    · exact .inr heq
  errfd := by
    obtain heq | heq := h'.errfd
    · rw [heq]
      exact h.errfd
    · exact .inr heq

theorem ite_writefd (channel : Channel) (b : Bool) :
    Closes channel (if b then { channel with writefd := .closed } else channel) := by
  cases b with
  | false => exact refl channel
  | true => exact ⟨rfl, .inr rfl, .inl rfl, .inl rfl⟩

theorem ite_readfd (channel : Channel) (b : Bool) :
    Closes channel (if b then { channel with readfd := .closed } else channel) := by
  cases b with
  | false => exact refl channel
  | true => exact ⟨rfl, .inl rfl, .inr rfl, .inl rfl⟩

theorem ite_errfd (channel : Channel) (b : Bool) :
    Closes channel (if b then { channel with errfd := .closed } else channel) := by
  cases b with
  | false => exact refl channel
  | true => exact ⟨rfl, .inl rfl, .inl rfl, .inr rfl⟩

/-- A closing that is made or not. -/
theorem ite (h : Closes channel channel') (b : Bool) :
    Closes channel (if b then channel' else channel) := by
  cases b with
  | false => exact refl channel
  | true => exact h

theorem sourceClosed (h : Closes channel channel') (hclosed : channel.sourceClosed = true) :
    channel'.sourceClosed = true := by
  have hextra : channel'.extrabuf = channel.extrabuf := by rw [h.frame]
  simp only [Channel.sourceClosed, Channel.errfdIsRead, Bool.and_eq_true, beq_iff_eq, hextra,
    Bool.or_eq_true] at hclosed ⊢
  refine ⟨?_, ?_⟩
  · obtain heq | heq := h.readfd
    · rw [heq]
      exact hclosed.1
    · exact heq
  · obtain hwrite | hread := hclosed.2
    · exact .inl hwrite
    · obtain heq | heq := h.errfd
      · exact .inr (heq.trans hread)
      · exact .inr heq

end Closes

theorem closeChanFd_closes (channel : Channel) (fd : ChanFd) (how : Shut) :
    Closes channel (closeChanFd channel fd how) :=
  (((Closes.ite_readfd _ _).trans (Closes.ite_errfd _ _)).trans (Closes.ite_writefd _ _)).trans
    (Closes.ite_errfd _ _)

theorem flushFds_closes (channel : Channel) (pending : ReadPending) :
    Closes channel (flushFds channel pending) := by
  apply Closes.ite
  exact ((closeChanFd_closes _ _ _).ite _).trans ((closeChanFd_closes _ _ _).ite _)

/-- A closed descriptor stays closed. -/
theorem Closes.closed {channel channel' : Channel} (h : Closes channel channel') :
    (channel.writefd = .closed → channel'.writefd = .closed) ∧
      (channel.readfd = .closed → channel'.readfd = .closed) ∧
      (channel.errfd = .closed → channel'.errfd = .closed) := by
  refine ⟨fun heq => ?_, fun heq => ?_, fun heq => ?_⟩
  · exact h.writefd.elim (·.trans heq) id
  · exact h.readfd.elim (·.trans heq) id
  · exact h.errfd.elim (·.trans heq) id

theorem closeChanFd_readfd (channel : Channel) :
    (closeChanFd channel channel.readfd .rd).readfd = .closed := by
  simp only [closeChanFd, beq_self_eq_true, Bool.or_true, Bool.true_and]
  split_ifs <;> rfl

theorem closeChanFd_writefd (channel : Channel) :
    (closeChanFd channel channel.writefd .wr).writefd = .closed := by
  simp only [closeChanFd, show (Shut.wr != Shut.rd) = true from rfl, Bool.or_true, Bool.true_and]
  split_ifs <;> simp_all

theorem closeChanFd_errfd {channel : Channel} (hbidir : channel.bidirFd = false) :
    (closeChanFd channel channel.errfd .rdwr).errfd = .closed := by
  simp only [closeChanFd, hbidir, Channel.errfdIsRead, Bool.not_false, Bool.true_or, Bool.true_and]
  split_ifs <;> simp_all

/-- After CLOSE was sent every descriptor is closed. A socket has no `errfd`. -/
theorem sendMsgChannelClose_fds {channel : Channel}
    (hbidir : channel.bidirFd = true → channel.errfd = .closed) :
    (sendMsgChannelClose channel).1.writefd = .closed ∧
      (sendMsgChannelClose channel).1.readfd = .closed ∧
      (sendMsgChannelClose channel).1.errfd = .closed := by
  have hread := closeChanFd_readfd { channel with sentEof := true, sentClose := true }
  have hfirst := closeChanFd_closes { channel with sentEof := true, sentClose := true }
    channel.readfd .rd
  simp only [sendMsgChannelClose]
  set first := closeChanFd { channel with sentEof := true, sentClose := true } channel.readfd .rd
    with hdef
  have hsecond := closeChanFd_closes first first.errfd .rdwr
  have hthird := closeChanFd_closes (closeChanFd first first.errfd .rdwr)
    (closeChanFd first first.errfd .rdwr).writefd .wr
  refine ⟨closeChanFd_writefd _, ?_, ?_⟩
  · exact (hsecond.trans hthird).closed.2.1 hread
  · apply hthird.closed.2.2
    cases hb : channel.bidirFd with
    | true => exact hsecond.closed.2.2 (hfirst.closed.2.2 (hbidir hb))
    | false =>
      apply closeChanFd_errfd
      rw [hfirst.frame]
      exact hb

/-! ## The order of the messages -/

/-- What a channel may still send: anything; no data and no command any more; nothing any more. -/
inductive Phase
  | opened
  | ended
  | closed
deriving DecidableEq, Repr

def Phase.next : Phase → ChanMsg → Option Phase
  | .opened, .eof => some .ended
  | .opened, .close => some .closed
  | .opened, .ptyReq _ _ _ => none
  | .opened, .openReply => none
  | .opened, _ => some .opened
  | .ended, .close => some .closed
  | .ended, .windowAdjust _ => some .ended
  | .ended, .request false _ => some .ended
  | .ended, .success => some .ended
  | .ended, .failure => some .ended
  | _, _ => none

/-- What the other end may send next. The session of a client begins with a `pty-req`, and
    `cli_chansess_winchange` does not look at `sent_close`. -/
def Phase.take (client : Bool) : Phase → ChanMsg → Option Phase
  | .opened, .ptyReq _ len modes =>
    if client && (getTermmodes len modes).isOk then some .opened else none
  | .closed, .request false false => if client then some .closed else none
  | phase, msg => phase.next msg

/-- The phase of what the channel sends. -/
def Channel.sendPhase (channel : Channel) : Phase :=
  if channel.sentClose then .closed else if channel.sentEof then .ended else .opened

/-- The phase of what it received. -/
def Channel.recvPhase (channel : Channel) : Phase :=
  if channel.recvClose then .closed else if channel.recvEof then .ended else .opened

/-- The bytes of the window a message takes, on a wire. -/
def ChanMsg.datalen : ChanMsg → Nat
  | .data bytes => bytes.length
  | .extendedData bytes => bytes.length
  | _ => 0

/-- The bytes of the window a message gives back. -/
def ChanMsg.incr : ChanMsg → Nat
  | .windowAdjust incr => incr
  | _ => 0

def ChanMsg.isPtyReq : ChanMsg → Bool
  | .ptyReq _ _ _ => true
  | _ => false

def datalen (msgs : List ChanMsg) : Nat := (msgs.map ChanMsg.datalen).sum

def incrs (msgs : List ChanMsg) : Nat := (msgs.map ChanMsg.incr).sum

def ptyReqs (msgs : List ChanMsg) : Nat := msgs.countP ChanMsg.isPtyReq

/-- The ptys of a session, of which there is at most one. -/
def Channel.ptys (channel : Channel) : Nat := if channel.chansess.any (·.pty) then 1 else 0

@[simp] theorem datalen_append (msgs msgs' : List ChanMsg) :
    datalen (msgs ++ msgs') = datalen msgs + datalen msgs' := by
  simp [datalen]

@[simp] theorem incrs_append (msgs msgs' : List ChanMsg) :
    incrs (msgs ++ msgs') = incrs msgs + incrs msgs' := by
  simp [incrs]

@[simp] theorem ptyReqs_append (msgs msgs' : List ChanMsg) :
    ptyReqs (msgs ++ msgs') = ptyReqs msgs + ptyReqs msgs' := List.countP_append

/-- The channel's own code sends no `pty-req`. -/
theorem ptyReqs_of_run {phase phase' : Phase} {msgs : List ChanMsg}
    (hrun : Machine.run Phase.next phase msgs = some phase') : ptyReqs msgs = 0 := by
  induction msgs generalizing phase with
  | nil => rfl
  | cons msg msgs ih =>
    obtain ⟨mid, hnext, hrest⟩ := Machine.run_cons_eq_some.mp hrun
    have hnot : msg.isPtyReq = false := by
      cases msg with
      | ptyReq wantreply len modes => cases phase <;> simp [Phase.next] at hnext
      | _ => rfl
    rw [ptyReqs, List.countP_cons, hnot]
    exact ih hrest

/-- What the channel's own code may send, the other end may take. -/
theorem Phase.take_of_next {phase mid : Phase} {msg : ChanMsg} (h : phase.next msg = some mid)
    (client : Bool) : phase.take client msg = some mid := by
  cases msg with
  | request command wantreply =>
    cases phase <;> cases command <;> cases wantreply <;> simp_all [Phase.next, Phase.take]
  | _ => cases phase <;> simp_all [Phase.next, Phase.take]

theorem run_take_of_run {phase phase' : Phase} {msgs : List ChanMsg}
    (hrun : Machine.run Phase.next phase msgs = some phase') (client : Bool) :
    Machine.run (Phase.take client) phase msgs = some phase' := by
  induction msgs generalizing phase with
  | nil => exact hrun
  | cons msg msgs ih =>
    obtain ⟨mid, hnext, hrest⟩ := Machine.run_cons_eq_some.mp hrun
    rw [Machine.run_cons (Phase.take_of_next hnext client)]
    exact ih hrest

/-- A window change may be sent at any time. -/
theorem Phase.take_winchange (phase : Phase) :
    phase.take true (.request false false) = some phase := by
  cases phase <;> rfl

/-- What the phases before and after a message say about it. -/
def Phase.Admits (phase mid : Phase) : ChanMsg → Prop
  | .data _ => phase = .opened ∧ mid = .opened
  | .extendedData _ => phase = .opened ∧ mid = .opened
  | .eof => phase = .opened ∧ mid = .ended
  | .close => mid = .closed
  | .request command _ => mid = phase ∧ (command = true → phase = .opened)
  | .ptyReq _ len modes => mid = phase ∧ (getTermmodes len modes).isOk = true
  | .openReply => False
  | _ => mid = phase

theorem Phase.admits_of_take {client : Bool} {phase mid : Phase} {msg : ChanMsg}
    (h : phase.take client msg = some mid) : phase.Admits mid msg := by
  cases msg with
  | request command wantreply =>
    cases phase <;> cases command <;> cases wantreply <;>
      simp_all [Phase.take, Phase.next, Phase.Admits]
  | _ => cases phase <;> simp_all [Phase.take, Phase.next, Phase.Admits]

/-! ## The invariant of a channel -/

namespace Channel

/-- A server session whose command was not started, and may still be. -/
def Fresh (channel : Channel) : Prop :=
  (∃ chansess ∈ channel.chansess, chansess.started = false) ∧ channel.recvEof = false

/-- What a channel is between two events. -/
structure Ok (recvWindow : Nat) (channel : Channel) : Prop where
  bufs : ∀ side, ∀ cbuf ∈ channel.buf side, cbuf.Valid ∧ cbuf.size = recvWindow
  eof : channel.sentEof = true → channel.sourceClosed = true
  close : channel.sentClose = true → channel.sentEof = true ∧ channel.writefd = .closed ∧
    channel.readfd = .closed ∧ channel.errfd = .closed
  recvClose : channel.recvClose = true → channel.recvEof = true
  bidir : channel.bidirFd = true → channel.errfd = .closed
  fresh : channel.Fresh → channel.writefd = .uninit ∧ channel.readfd = .uninit ∧
    channel.errfd = .closed ∧ channel.sentEof = false
  client : channel.extrabuf.isSome = true → channel.chansess = none

/-- The buffers, the windows, the pty and what was received are the same. -/
structure SameData (channel channel' : Channel) : Prop where
  recvwindow : channel'.recvwindow = channel.recvwindow
  transwindow : channel'.transwindow = channel.transwindow
  recvdonelen : channel'.recvdonelen = channel.recvdonelen
  buf : channel'.buf = channel.buf
  recvEof : channel'.recvEof = channel.recvEof
  recvClose : channel'.recvClose = channel.recvClose
  ptys : channel'.ptys = channel.ptys

/-- What the parts of `check_close` do: the invariant stays, the data is not touched, and the
    messages come in order. -/
structure Advances (recvWindow : Nat) (channel channel' : Channel) (msgs : List ChanMsg) : Prop where
  ok : channel'.Ok recvWindow
  same : SameData channel channel'
  writefd : channel'.writefd = channel.writefd ∨ channel'.writefd = .closed
  errfd : channel'.errfd = channel.errfd ∨ channel'.errfd = .closed
  phase : Machine.run Phase.next channel.sendPhase msgs = some channel'.sendPhase
  quiet : datalen msgs = 0 ∧ incrs msgs = 0

variable {recvWindow : Nat} {channel channel' channel'' : Channel} {msgs msgs' : List ChanMsg}

theorem SameData.of_closes (h : Closes channel channel') : SameData channel channel' := by
  rw [h.frame]
  exact ⟨rfl, rfl, rfl, by funext side; cases side <;> rfl, rfl, rfl, rfl⟩

theorem SameData.trans (h : SameData channel channel') (h' : SameData channel' channel'') :
    SameData channel channel'' where
  recvwindow := h'.recvwindow.trans h.recvwindow
  transwindow := h'.transwindow.trans h.transwindow
  recvdonelen := h'.recvdonelen.trans h.recvdonelen
  buf := h'.buf.trans h.buf
  recvEof := h'.recvEof.trans h.recvEof
  recvClose := h'.recvClose.trans h.recvClose
  ptys := h'.ptys.trans h.ptys

theorem Advances.trans (h : Advances recvWindow channel channel' msgs)
    (h' : Advances recvWindow channel' channel'' msgs') :
    Advances recvWindow channel channel'' (msgs ++ msgs') where
  ok := h'.ok
  same := h.same.trans h'.same
  writefd := by
    obtain heq | heq := h'.writefd
    · rw [heq]
      exact h.writefd
    · exact .inr heq
  errfd := by
    obtain heq | heq := h'.errfd
    · rw [heq]
      exact h.errfd
    · exact .inr heq
  phase := by rw [Machine.run_append, h.phase, Option.bind_some, h'.phase]
  quiet := by
    rw [datalen_append, incrs_append, h.quiet.1, h.quiet.2, h'.quiet.1, h'.quiet.2]
    exact ⟨rfl, rfl⟩

/-- Closing descriptors keeps the invariant, if it leaves a fresh session alone. -/
theorem Ok.closes (h : channel.Ok recvWindow) (hc : Closes channel channel')
    (hfresh : channel.Fresh → channel' = channel) : channel'.Ok recvWindow := by
  have hsame := SameData.of_closes hc
  obtain ⟨hw, hr, he⟩ := hc.closed
  have hflags : channel'.sentEof = channel.sentEof ∧ channel'.sentClose = channel.sentClose ∧
      channel'.bidirFd = channel.bidirFd ∧ channel'.chansess = channel.chansess ∧
      channel'.extrabuf = channel.extrabuf := by
    rw [hc.frame]
    exact ⟨rfl, rfl, rfl, rfl, rfl⟩
  obtain ⟨hsentEof, hsentClose, hbidir, hchansess, hextra⟩ := hflags
  constructor
  case bufs =>
    rw [hsame.buf]
    exact h.bufs
  case eof =>
    rw [hsentEof]
    exact fun heof => hc.sourceClosed (h.eof heof)
  case close =>
    rw [hsentEof, hsentClose]
    intro hclose
    obtain ⟨heof, hwrite, hread, herr⟩ := h.close hclose
    exact ⟨heof, hw hwrite, hr hread, he herr⟩
  case recvClose =>
    rw [hsame.recvClose, hsame.recvEof]
    exact h.recvClose
  case bidir =>
    rw [hbidir]
    exact fun hb => he (h.bidir hb)
  case fresh =>
    intro hf
    have hf' : channel.Fresh := by
      rw [Fresh, hchansess, hsame.recvEof] at hf
      exact hf
    rw [hfresh hf']
    exact h.fresh hf'
  case client =>
    rw [hextra, hchansess]
    exact h.client

theorem Advances.of_closes (h : channel.Ok recvWindow) (hc : Closes channel channel')
    (hfresh : channel.Fresh → channel' = channel) : Advances recvWindow channel channel' [] where
  ok := h.closes hc hfresh
  same := SameData.of_closes hc
  writefd := hc.writefd
  errfd := hc.errfd
  phase := by
    rw [hc.frame]
    rfl
  quiet := ⟨rfl, rfl⟩

/-- Sending EOF, when no more bytes can come from the program. -/
theorem Ok.sendEof (h : channel.Ok recvWindow) (hsource : channel.sourceClosed = true)
    (hsent : channel.sentEof = false) :
    Advances recvWindow channel (sendMsgChannelEof channel).1 (sendMsgChannelEof channel).2 where
  ok :=
    { bufs := h.bufs
      eof := fun _ => hsource
      close := fun hclose => ⟨rfl, (h.close hclose).2⟩
      recvClose := h.recvClose
      bidir := h.bidir
      fresh := by
        intro hfresh
        have huninit := (h.fresh hfresh).2.1
        simp only [sourceClosed, huninit] at hsource
        exact absurd hsource (by simp)
      client := h.client }
  same := ⟨rfl, rfl, rfl, by funext side; cases side <;> rfl, rfl, rfl, rfl⟩
  writefd := .inl rfl
  errfd := .inl rfl
  phase := by
    have hclose : channel.sentClose = false := by
      cases hc : channel.sentClose with
      | false => rfl
      | true => rw [(h.close hc).1] at hsent; exact absurd hsent (by simp)
    simp only [sendPhase, sendMsgChannelEof, hclose, hsent]
    rfl
  quiet := ⟨rfl, rfl⟩

theorem sendClose_closes (channel : Channel) :
    Closes { channel with sentEof := true, sentClose := true } (sendMsgChannelClose channel).1 :=
  ((closeChanFd_closes _ _ _).trans (closeChanFd_closes _ _ _)).trans (closeChanFd_closes _ _ _)

/-- Sending CLOSE, once. -/
theorem Ok.sendClose (h : channel.Ok recvWindow) (hsent : channel.sentClose = false)
    (hfresh : ¬channel.Fresh) :
    Advances recvWindow channel (sendMsgChannelClose channel).1 (sendMsgChannelClose channel).2 := by
  have hc := sendClose_closes channel
  obtain ⟨hwrite, hread, herr⟩ := sendMsgChannelClose_fds h.bidir
  set closed := (sendMsgChannelClose channel).1 with hclosed
  have hsame : SameData channel closed := by
    have hbuf := (SameData.of_closes hc)
    refine ⟨hbuf.1, hbuf.2, hbuf.3, hbuf.4.trans ?_, hbuf.5, hbuf.6, hbuf.7⟩
    funext side
    cases side <;> rfl
  have hflags : closed.sentEof = true ∧ closed.sentClose = true ∧
      closed.chansess = channel.chansess ∧ closed.extrabuf = channel.extrabuf := by
    rw [hc.frame]
    exact ⟨rfl, rfl, rfl, rfl⟩
  obtain ⟨hsentEof, hsentClose, hchansess, hextra⟩ := hflags
  have hphase : ∀ exit ∈ [[], [ChanMsg.request false false]],
      Machine.run Phase.next channel.sendPhase (exit ++ [.close]) = some .closed := by
    intro exit hexit
    simp only [List.mem_cons, List.not_mem_nil, or_false] at hexit
    simp only [sendPhase, hsent]
    obtain rfl | rfl := hexit
    · cases channel.sentEof <;> rfl
    · cases channel.sentEof <;> rfl
  have hexit : ∃ exit ∈ [[], [ChanMsg.request false false]],
      (sendMsgChannelClose channel).2 = exit ++ [.close] := by
    simp only [sendMsgChannelClose]
    split
    · exact ⟨_, by simp, rfl⟩
    · exact ⟨_, by simp, rfl⟩
  obtain ⟨exit, hmem, heq⟩ := hexit
  constructor
  case ok =>
    constructor
    case bufs =>
      rw [hsame.buf]
      exact h.bufs
    case eof =>
      intro _
      simp [sourceClosed, hread, herr]
    case close =>
      intro _
      exact ⟨hsentEof, hwrite, hread, herr⟩
    case recvClose =>
      rw [hsame.recvClose, hsame.recvEof]
      exact h.recvClose
    case bidir => exact fun _ => herr
    case fresh =>
      intro hf
      rw [Fresh, hchansess, hsame.recvEof] at hf
      exact absurd hf hfresh
    case client =>
      rw [hextra, hchansess]
      exact h.client
  case same => exact hsame
  case writefd => exact .inr hwrite
  case errfd => exact .inr herr
  case phase =>
    rw [heq, hphase exit hmem, sendPhase, if_pos hsentClose]
  case quiet =>
    rw [heq]
    simp only [List.mem_cons, List.not_mem_nil, or_false] at hmem
    obtain rfl | rfl := hmem
    · exact ⟨rfl, rfl⟩
    · exact ⟨rfl, rfl⟩

theorem Ok.closeAllowed (h : channel.Ok recvWindow) :
    Advances recvWindow channel (closeAllowed channel).1 [] := by
  have hframe : ∃ flushing, (Sshd4a.closeAllowed channel).1 = { channel with flushing := flushing } := by
    simp only [Sshd4a.closeAllowed]
    split
    · exact ⟨channel.flushing, rfl⟩
    · split
      · exact ⟨channel.flushing, rfl⟩
      · exact ⟨_, rfl⟩
  obtain ⟨flushing, hframe⟩ := hframe
  rw [hframe]
  exact ⟨⟨h.1, h.2, h.3, h.4, h.5, h.6, h.7⟩,
    ⟨rfl, rfl, rfl, by funext side; cases side <;> rfl, rfl, rfl, rfl⟩, .inl rfl, .inl rfl, rfl,
    ⟨rfl, rfl⟩⟩

theorem Ok.flushFds (h : channel.Ok recvWindow) (pending : ReadPending) :
    Advances recvWindow channel (flushFds channel pending) [] := by
  apply Advances.of_closes h (flushFds_closes channel pending)
  intro hfresh
  obtain ⟨-, hread, herr, -⟩ := h.fresh hfresh
  simp [Sshd4a.flushFds, hread, herr, ChanFd.isOpen]

theorem not_fresh_of_sourceClosed (h : channel.Ok recvWindow)
    (hsource : channel.sourceClosed = true) : ¬channel.Fresh := by
  intro hfresh
  simp [sourceClosed, (h.fresh hfresh).2.1] at hsource

/-- The second step of `check_close`. -/
theorem Ok.closeWritefd (h : channel.Ok recvWindow) (allowed : Bool) :
    Advances recvWindow channel
      (if ((channel.recvEof && !writePending channel) ||
          (channel.writefd != .uninit && channel.chansess.isSome && allowed)) = true then
        closeChanFd channel channel.writefd .wr
      else channel) [] := by
  apply Advances.of_closes h ((closeChanFd_closes _ _ _).ite _)
  intro hfresh
  apply if_neg
  simp [hfresh.2, (h.fresh hfresh).1]

/-- The third. -/
theorem Ok.eofStep (h : channel.Ok recvWindow) :
    Advances recvWindow channel
      (if (!channel.sentEof && channel.sourceClosed) = true then sendMsgChannelEof channel
        else (channel, [])).1
      (if (!channel.sentEof && channel.sourceClosed) = true then sendMsgChannelEof channel
        else (channel, [])).2 := by
  by_cases heof : (!channel.sentEof && channel.sourceClosed) = true
  · rw [if_pos heof]
    simp only [Bool.and_eq_true, Bool.not_eq_true'] at heof
    exact h.sendEof heof.2 heof.1
  · rw [if_neg heof]
    exact Advances.of_closes h (Closes.refl channel) fun _ => rfl

/-- The last. -/
theorem Ok.closeStep (h : channel.Ok recvWindow) (allowed : Bool) :
    Advances recvWindow channel
      (if (channel.sourceClosed && channel.writefd == .closed && !channel.sentClose && allowed
          && !writePending channel) = true then sendMsgChannelClose channel else (channel, [])).1
      (if (channel.sourceClosed && channel.writefd == .closed && !channel.sentClose && allowed
          && !writePending channel) = true then sendMsgChannelClose channel
        else (channel, [])).2 := by
  split
  next hclose =>
    simp only [Bool.and_eq_true, Bool.not_eq_true'] at hclose
    obtain ⟨⟨⟨⟨hsource, -⟩, hsent⟩, -⟩, -⟩ := hclose
    exact h.sendClose hsent (not_fresh_of_sourceClosed h hsource)
  next => exact Advances.of_closes h (Closes.refl channel) fun _ => rfl

/-- **What `check_close` does**: it sends EOF and CLOSE in order, or removes the channel after
    CLOSE was received. -/
theorem Ok.checkClose (h : channel.Ok recvWindow) (pending : ReadPending) :
    match checkClose channel pending with
    | (some channel', msgs) => Advances recvWindow channel channel' msgs
    | (none, msgs) => channel.recvClose = true ∧
        Machine.run Phase.next channel.sendPhase msgs = some .closed ∧
        datalen msgs = 0 ∧ incrs msgs = 0 := by
  have hstart := h.closeAllowed.trans ((h.closeAllowed).ok.flushFds pending)
  simp only [Sshd4a.checkClose]
  set allowed := (Sshd4a.closeAllowed channel).2
  set flushed := Sshd4a.flushFds (Sshd4a.closeAllowed channel).1 pending
  by_cases hremove : (flushed.recvClose && !writePending flushed && allowed) = true
  · rw [if_pos hremove]
    simp only [Bool.and_eq_true] at hremove
    have hrecv : flushed.recvClose = true := hremove.1.1
    have hphase : channel.sendPhase = flushed.sendPhase := Option.some.inj hstart.phase
    refine ⟨hstart.same.recvClose ▸ hrecv, ?_⟩
    rw [hphase]
    cases hsent : flushed.sentClose with
    | true =>
      rw [if_pos rfl, sendPhase, if_pos hsent]
      exact ⟨rfl, rfl, rfl⟩
    | false =>
      rw [if_neg (by simp)]
      have hnot : ¬flushed.Fresh := by
        intro hfresh
        have heof := hstart.ok.recvClose hrecv
        rw [hfresh.2] at heof
        exact absurd heof (by simp)
      have hclose := hstart.ok.sendClose hsent hnot
      have hend : (sendMsgChannelClose flushed).1.sendPhase = .closed := by
        have hsentClose : (sendMsgChannelClose flushed).1.sentClose = true := by
          rw [(sendClose_closes flushed).frame]
        rw [sendPhase, if_pos hsentClose]
      rw [← hend]
      exact ⟨hclose.phase, hclose.quiet⟩
  · rw [if_neg hremove]
    have hwrite := hstart.ok.closeWritefd allowed
    have heof := hwrite.ok.eofStep
    have hclose := heof.ok.closeStep allowed
    exact ((hstart.trans hwrite).trans heof).trans hclose

end Channel

end Sshd4a
