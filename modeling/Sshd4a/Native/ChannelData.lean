import Sshd4a.Native.ChannelClose

/-!
# What a channel does with its data

`Channel.held` counts the bytes of the receive window that are accounted for: those the peer may
still send, those that were written to the program and not given back yet, and those that wait in a
buffer. As long as the sum is at most the window, the assertions at the end of `writechannel` hold
and the buffer has room for every packet within the window. A packet moves bytes from the first
part to the last or the second, `writechannel` from the last to the second and from there back to
the first, and nothing is added.
-/

namespace Sshd4a

open Text Fallible

namespace Channel

variable {recvWindow : Nat} {channel channel' channel'' : Channel}

/-- The bytes that wait for the program. -/
def contents (channel : Channel) (side : Side) : Bytes :=
  ((channel.buf side).map CircBuffer.contents).getD []

/-- The bytes of the window that are accounted for: the peer may still send them, they were
    written and not given back yet, or they wait. -/
def held (channel : Channel) : Nat :=
  channel.recvwindow + channel.recvdonelen
    + ((channel.contents .out).length + (channel.contents .err).length)

theorem contents_of_buf {side : Side} {cbuf : CircBuffer} (h : channel.buf side = some cbuf) :
    channel.contents side = cbuf.contents := by
  rw [contents, h, Option.map_some, Option.getD_some]

theorem buf_setBuf_self (channel : Channel) (cbuf : CircBuffer) (side : Side) :
    (channel.setBuf cbuf side).buf side = some cbuf := by
  cases side <;> rfl

theorem buf_setBuf_of_ne {side other : Side} (h : other ≠ side) (channel : Channel)
    (cbuf : CircBuffer) : (channel.setBuf cbuf side).buf other = channel.buf other := by
  cases side <;> cases other <;> first | rfl | exact absurd rfl h

/-- Replacing one buffer changes what is accounted for by the difference of the two. -/
theorem held_setBuf {side : Side} {cbuf : CircBuffer} (cbuf' : CircBuffer)
    (h : channel.buf side = some cbuf) :
    (channel.setBuf cbuf' side).held + cbuf.contents.length
      = channel.held + cbuf'.contents.length := by
  cases side with
  | out =>
    cases h
    simp only [held, contents, setBuf, buf, Option.map_some, Option.getD_some]
    omega
  | err =>
    have herr : channel.extrabuf = some cbuf := h
    simp only [held, contents, setBuf, buf, herr, Option.map_some, Option.getD_some]
    omega

/-- What `writechannel` and its caller leave of `more`, which came with a packet. -/
structure Handles (recvWindow : Nat) (channel : Channel) (side : Side) (more : Bytes)
    (wrote : Wrote) : Prop where
  ok : wrote.channel.Ok recvWindow
  transwindow : wrote.channel.transwindow = channel.transwindow
  sendPhase : wrote.channel.sendPhase = channel.sendPhase
  recvPhase : wrote.channel.recvPhase = channel.recvPhase
  ptys : wrote.channel.ptys = channel.ptys
  sent : wrote.sent = [] ∨ ∃ incr, wrote.sent = [.windowAdjust incr]
  recvwindow : wrote.channel.recvwindow = channel.recvwindow + incrs wrote.sent
  consumed : wrote.consumed ≤ more.length
  held : wrote.channel.held + (more.length - wrote.consumed) = channel.held + more.length
  stream : wrote.bytes ++ (wrote.channel.contents side ++ more.drop wrote.consumed)
    = channel.contents side ++ more
  other : ∀ other ≠ side, wrote.channel.buf other = channel.buf other
  isSome : (wrote.channel.buf side).isSome
  writefd : wrote.channel.writefd = channel.writefd ∨ wrote.channel.writefd = .closed
  errfd : wrote.channel.errfd = channel.errfd ∨ wrote.channel.errfd = .closed
  fds : wrote.ok = true → wrote.channel.writefd = channel.writefd ∧
    wrote.channel.errfd = channel.errfd
  failed : wrote.ok = false → wrote.channel.sideFd side = .closed

variable {side : Side} {cbuf : CircBuffer} {more : Bytes} {wrote : Wrote}

theorem Ok.not_fresh (h : channel.Ok recvWindow) (hopen : (channel.sideFd side).isOpen = true) :
    ¬channel.Fresh := by
  intro hfresh
  obtain ⟨hwrite, -, herr, -⟩ := h.fresh hfresh
  cases side with
  | out => simp [sideFd, hwrite, ChanFd.isOpen] at hopen
  | err => simp [sideFd, herr, ChanFd.isOpen] at hopen

theorem SameData.contents (h : SameData channel channel') : channel'.contents = channel.contents := by
  funext side
  rw [Channel.contents, Channel.contents, h.buf]

theorem SameData.held (h : SameData channel channel') : channel'.held = channel.held := by
  rw [Channel.held, Channel.held, h.recvwindow, h.recvdonelen, h.contents]

theorem sendPhase_of_closes (h : Closes channel channel') :
    channel'.sendPhase = channel.sendPhase ∧ channel'.recvPhase = channel.recvPhase := by
  rw [h.frame]
  exact ⟨rfl, rfl⟩

/-- `writev` took nothing. -/
theorem Handles.of_closes (h : channel.Ok recvWindow) (hbuf : channel.buf side = some cbuf)
    (hopen : (channel.sideFd side).isOpen = true) (hc : Closes channel channel') {ok : Bool}
    (hfds : ok = true → channel' = channel) (hfailed : ok = false → channel'.sideFd side = .closed) :
    Handles recvWindow channel side more { channel := channel', ok := ok } := by
  have hsame := SameData.of_closes hc
  constructor
  case ok => exact h.closes hc fun hfresh => absurd hfresh (h.not_fresh hopen)
  case transwindow => exact hsame.transwindow
  case sendPhase => exact (sendPhase_of_closes hc).1
  case recvPhase => exact (sendPhase_of_closes hc).2
  case ptys => exact hsame.ptys
  case sent => exact .inl rfl
  case recvwindow => exact hsame.recvwindow
  case consumed => exact Nat.zero_le _
  case held =>
    dsimp only
    rw [hsame.held, Nat.sub_zero]
  case stream =>
    dsimp only
    rw [hsame.contents, List.nil_append, List.drop_zero]
  case other =>
    intro other _
    rw [hsame.buf]
  case isSome =>
    dsimp only
    rw [hsame.buf, hbuf]
    rfl
  case writefd => exact hc.writefd
  case errfd => exact hc.errfd
  case fds =>
    intro hok
    dsimp only at hok ⊢
    rw [hfds hok]
    exact ⟨rfl, rfl⟩
  case failed => exact hfailed

/-- The last test of `close_chan_fd`, when `errfd` is written to. -/
theorem closeErrfd_errfd (hc : Closes channel channel') (hwrite : channel.errfdIsRead = false)
    {closein : Bool} (hin : closein = true) :
    (if closein && !channel'.errfdIsRead && channel.errfd == channel'.errfd then
      { channel' with errfd := .closed } else channel').errfd = .closed := by
  have hwrite' : channel'.errfdIsRead = false := by
    rw [hc.frame]
    exact hwrite
  obtain heq | heq := hc.errfd
  · rw [if_pos (by simp [hin, hwrite', heq])]
  · split
    · rfl
    · exact heq

theorem closeChanFd_sideFd (hbuf : channel.buf side = some cbuf) :
    (closeChanFd channel (channel.sideFd side) .wr).sideFd side = .closed := by
  cases side with
  | out => exact closeChanFd_writefd channel
  | err =>
    have hextra : channel.extrabuf = some cbuf := hbuf
    have hwrite : channel.errfdIsRead = false := by rw [errfdIsRead, hextra]; rfl
    refine closeErrfd_errfd (((Closes.ite_readfd _ _).trans (Closes.ite_errfd _ _)).trans
      (Closes.ite_writefd _ _)) hwrite ?_
    cases channel.bidirFd <;> rfl

/-- A valid buffer in the place of another. -/
theorem Ok.setBuf (h : channel.Ok recvWindow) (hbuf : channel.buf side = some cbuf)
    {cbuf' : CircBuffer} (hvalid : cbuf'.Valid) (hsize : cbuf'.size = recvWindow) :
    (channel.setBuf cbuf' side).Ok recvWindow := by
  have hbufs : ∀ other, ∀ c ∈ (channel.setBuf cbuf' side).buf other, c.Valid ∧ c.size = recvWindow := by
    intro other c hc
    by_cases heq : other = side
    · subst heq
      rw [buf_setBuf_self, Option.mem_def, Option.some.injEq] at hc
      exact hc ▸ ⟨hvalid, hsize⟩
    · rw [buf_setBuf_of_ne heq] at hc
      exact h.bufs other c hc
  cases side with
  | out => exact ⟨hbufs, h.eof, h.close, h.recvClose, h.bidir, h.fresh, h.client⟩
  | err =>
    have hextra : channel.extrabuf = some cbuf := hbuf
    refine ⟨hbufs, ?_, h.close, h.recvClose, h.bidir, h.fresh, fun _ => h.client (by rw [hextra]; rfl)⟩
    intro heof
    have hsource := h.eof heof
    simp only [sourceClosed, errfdIsRead, hextra] at hsource
    exact hsource

theorem setBuf_frame (channel : Channel) (cbuf : CircBuffer) (side : Side) :
    (channel.setBuf cbuf side).transwindow = channel.transwindow ∧
      (channel.setBuf cbuf side).recvwindow = channel.recvwindow ∧
      (channel.setBuf cbuf side).recvdonelen = channel.recvdonelen ∧
      (channel.setBuf cbuf side).sendPhase = channel.sendPhase ∧
      (channel.setBuf cbuf side).recvPhase = channel.recvPhase ∧
      (channel.setBuf cbuf side).ptys = channel.ptys ∧
      (channel.setBuf cbuf side).writefd = channel.writefd ∧
      (channel.setBuf cbuf side).errfd = channel.errfd := by
  cases side <;> exact ⟨rfl, rfl, rfl, rfl, rfl, rfl, rfl, rfl⟩

/-- The three numbers of the receiving side do not matter for the invariant. -/
theorem Ok.setWindow (h : channel.Ok recvWindow) (recvwindow recvdonelen : Nat) :
    Ok recvWindow { channel with recvwindow := recvwindow, recvdonelen := recvdonelen } :=
  ⟨fun side cbuf hcbuf => h.bufs side cbuf (by cases side <;> exact hcbuf), h.eof, h.close,
    h.recvClose, h.bidir, h.fresh, h.client⟩

theorem contents_setWindow (channel : Channel) (recvwindow recvdonelen : Nat) :
    contents { channel with recvwindow := recvwindow, recvdonelen := recvdonelen }
      = channel.contents := by
  funext side
  cases side <;> rfl

/-- `writev` took `written` bytes, first of what waits and then of `more`. -/
theorem Handles.of_written (h : channel.Ok recvWindow) (hbuf : channel.buf side = some cbuf)
    {written : Nat} (hwritten : written ≤ cbuf.contents.length + more.length)
    {cbuf' : CircBuffer} (hvalid : cbuf'.Valid) (hsize : cbuf'.size = recvWindow)
    (hcontents : cbuf'.contents = cbuf.contents.drop (min cbuf.contents.length written)) :
    Handles recvWindow channel side more
      { channel :=
          { channel.setBuf cbuf' side with recvdonelen := channel.recvdonelen + written }
        consumed := written - min cbuf.contents.length written
        bytes := (cbuf.contents ++ more).take written } := by
  obtain ⟨htrans, hrecv, hdone, hsend, hphase, hptys, hwritefd, herrfd⟩ :=
    setBuf_frame channel cbuf' side
  have hself := contents_of_buf (buf_setBuf_self channel cbuf' side)
  have hlen : cbuf'.contents.length = cbuf.contents.length - min cbuf.contents.length written := by
    rw [hcontents, List.length_drop]
  have hbuf' : ∀ other, buf { channel.setBuf cbuf' side with
      recvdonelen := channel.recvdonelen + written } other = (channel.setBuf cbuf' side).buf other := by
    intro other
    cases other <;> rfl
  have hkept := contents_setWindow (channel.setBuf cbuf' side) (channel.setBuf cbuf' side).recvwindow
    (channel.recvdonelen + written)
  constructor
  case ok => exact (h.setBuf hbuf hvalid hsize).setWindow _ _
  case transwindow => exact htrans
  case sendPhase => exact hsend
  case recvPhase => exact hphase
  case ptys => exact hptys
  case sent => exact .inl rfl
  case recvwindow => exact hrecv
  case consumed =>
    dsimp only
    omega
  case held =>
    have hheld := held_setBuf cbuf' hbuf
    simp only [Channel.held, hkept] at hheld ⊢
    omega
  case stream =>
    dsimp only
    rw [hkept, hself, contents_of_buf hbuf, hcontents]
    by_cases hall : written ≤ cbuf.contents.length
    · rw [Nat.min_eq_right hall, Nat.sub_self, List.drop_zero, List.take_append_of_le_length hall,
        ← List.append_assoc, List.take_append_drop]
    · rw [Nat.min_eq_left (by omega), List.drop_length, List.nil_append, List.take_append,
        List.take_of_length_le (by omega), List.append_assoc, List.take_append_drop]
  case other =>
    intro other hne
    rw [hbuf', buf_setBuf_of_ne hne]
  case isSome =>
    rw [hbuf', buf_setBuf_self]
    rfl
  case writefd => exact .inl hwritefd
  case errfd => exact .inl herrfd
  case fds => exact fun _ => ⟨hwritefd, herrfd⟩
  case failed => exact fun hfalse => absurd hfalse (by simp)

/-- **`writechannel_writev`** does not stop, and what it does not write stays. -/
theorem Ok.writev (h : channel.Ok recvWindow) (hbuf : channel.buf side = some cbuf)
    (hopen : (channel.sideFd side).isOpen = true) (moredata : Option Bytes)
    (result : WriteResult) :
    ∃ wrote, writechannelWritev channel side moredata result = .ok wrote ∧
      Handles recvWindow channel side (moredata.getD []) wrote ∧ wrote.sent = [] := by
  obtain ⟨hvalid, hsize⟩ := h.bufs side cbuf hbuf
  have hnone : Handles recvWindow channel side (moredata.getD []) { channel := channel } :=
    .of_closes h hbuf hopen (Closes.refl channel) (fun _ => rfl) (by simp)
  simp only [writechannelWritev, hbuf, hvalid.readBytes, ok_bind]
  split
  next => exact ⟨_, rfl, hnone, rfl⟩
  next =>
    cases result with
    | again => exact ⟨_, rfl, hnone, rfl⟩
    | failed =>
      exact ⟨_, rfl, .of_closes h hbuf hopen (closeChanFd_closes _ _ _) (by simp)
        (fun _ => closeChanFd_sideFd hbuf), rfl⟩
    | written n =>
      have hwritten := Nat.min_le_right n (cbuf.contents ++ moredata.getD []).length
      dsimp only
      generalize min n (cbuf.contents ++ moredata.getD []).length = written at hwritten ⊢
      rw [List.length_append] at hwritten
      obtain ⟨cbuf', hread, hvalid', hsize', hcontents'⟩ :=
        hvalid.incrread (n := min cbuf.contents.length written)
          (by rw [hvalid.length_contents]; exact Nat.min_le_left _ _)
      rw [hread]
      exact ⟨_, rfl, .of_written h hbuf hwritten hvalid' (hsize'.trans hsize) hcontents', rfl⟩

/-- Giving the window back. -/
theorem Handles.extendWindow (h : Handles recvWindow channel side more wrote)
    (hsent : wrote.sent = []) :
    Handles recvWindow channel side more
      { wrote with
        channel := (extendWindow recvWindow wrote.channel).1
        sent := (extendWindow recvWindow wrote.channel).2 } := by
  have hwindow := h.recvwindow
  have hheld := h.held
  simp only [hsent, incrs, List.map_nil, List.sum_nil, Nat.add_zero] at hwindow
  rw [Sshd4a.extendWindow]
  split
  next =>
    have hkept := contents_setWindow wrote.channel
      (wrote.channel.recvwindow + wrote.channel.recvdonelen) 0
    refine ⟨h.ok.setWindow _ _, h.transwindow, h.sendPhase, h.recvPhase, h.ptys, .inr ⟨_, rfl⟩, ?_,
      h.consumed, ?_, ?_, ?_, ?_, h.writefd, h.errfd, h.fds, ?_⟩
    · simp [incrs, ChanMsg.incr, hwindow]
    · simp only [Channel.held, hkept] at hheld ⊢
      omega
    · dsimp only
      rw [hkept]
      exact h.stream
    · intro other hne
      rw [← h.other other hne]
      cases other <;> rfl
    · have hsome := h.isSome
      cases side <;> exact hsome
    · intro hfailed
      have hclosed := h.failed hfailed
      cases side <;> exact hclosed
  next =>
    refine ⟨h.ok, h.transwindow, h.sendPhase, h.recvPhase, h.ptys, .inl rfl, ?_, h.consumed, h.held,
      h.stream, h.other, h.isSome, h.writefd, h.errfd, h.fds, h.failed⟩
    simp [incrs, hwindow]

/-- Where a third of the window waits to be given back, it is given back. -/
theorem recvdonelen_extendWindow (recvWindow : Nat) (channel : Channel) :
    (extendWindow recvWindow channel).1.recvdonelen = 0 ∨
      (extendWindow recvWindow channel).1.recvdonelen < recvWindowextend recvWindow := by
  rw [extendWindow]
  split
  next => exact .inl rfl
  next hlt => exact .inr (Nat.lt_of_not_le hlt)

/-- The room of every buffer is at least the window. -/
theorem Ok.recvwindow_le (h : channel.Ok recvWindow) (side : Side)
    (hheld : channel.held ≤ recvWindow)
    (hbuf : channel.buf side = some cbuf) : channel.recvwindow ≤ cbufGetavail cbuf := by
  obtain ⟨hvalid, hsize⟩ := h.bufs side cbuf hbuf
  have hlen : (channel.contents side).length = cbuf.used := by
    rw [contents_of_buf hbuf, hvalid.length_contents]
  simp only [Channel.held, cbufGetavail] at hheld ⊢
  cases side <;> omega

/-- **The assertions of `writechannel` hold.** -/
theorem Ok.writechannel (h : channel.Ok recvWindow) (hbuf : channel.buf side = some cbuf)
    (hopen : (channel.sideFd side).isOpen = true) (moredata : Option Bytes)
    (hheld : channel.held + (moredata.getD []).length ≤ recvWindow) (result : WriteResult) :
    ∃ wrote, writechannel recvWindow channel side moredata result = .ok wrote ∧
      Handles recvWindow channel side (moredata.getD []) wrote ∧
      (wrote.channel.recvdonelen = 0 ∨
        wrote.channel.recvdonelen < recvWindowextend recvWindow) := by
  obtain ⟨wrote, hwritev, hhandles, hsent⟩ := h.writev hbuf hopen moredata result
  have hextended := hhandles.extendWindow hsent
  have hlow := recvdonelen_extendWindow recvWindow wrote.channel
  have hle : (extendWindow recvWindow wrote.channel).1.held ≤ recvWindow := by
    have hsum := hextended.held
    dsimp only at hsum
    omega
  set extended := (extendWindow recvWindow wrote.channel).1
  have hall : extended.recvwindow ≤ recvWindow := by
    simp only [Channel.held] at hle
    omega
  have hwritebuf : extended.recvwindow ≤ cbufGetavail extended.writebuf :=
    hextended.ok.recvwindow_le .out hle rfl
  have hextrabuf : (extended.extrabuf.all fun extrabuf =>
      extended.recvwindow ≤ cbufGetavail extrabuf) = true := by
    cases hextra : extended.extrabuf with
    | none => rfl
    | some extrabuf =>
      have hroom := hextended.ok.recvwindow_le .err hle hextra
      simpa using hroom
  refine ⟨_, ?_, hextended, hlow⟩
  simp only [Sshd4a.writechannel, hwritev, ok_bind, dropbearAssert]
  rw [if_pos (by simpa using hall), ok_bind, if_pos (by simpa using hwritebuf), ok_bind,
    if_pos hextrabuf, ok_bind]
  rfl

/-- What a data packet that fits into the window comes to. After a failed write what is left of
    it is thrown away. -/
structure Takes (recvWindow : Nat) (channel : Channel) (side : Side) (data : Bytes)
    (wrote : Wrote) : Prop where
  ok : wrote.channel.Ok recvWindow
  transwindow : wrote.channel.transwindow = channel.transwindow
  sendPhase : wrote.channel.sendPhase = channel.sendPhase
  recvPhase : wrote.channel.recvPhase = channel.recvPhase
  ptys : wrote.channel.ptys = channel.ptys
  sent : wrote.sent = [] ∨ ∃ incr, wrote.sent = [.windowAdjust incr]
  recvwindow : wrote.channel.recvwindow + data.length = channel.recvwindow + incrs wrote.sent
  low : wrote.channel.recvdonelen = 0 ∨ wrote.channel.recvdonelen < recvWindowextend recvWindow
  other : ∀ other ≠ side, wrote.channel.buf other = channel.buf other
  isSome : (wrote.channel.buf side).isSome
  writefd : wrote.channel.writefd = channel.writefd ∨ wrote.channel.writefd = .closed
  errfd : wrote.channel.errfd = channel.errfd ∨ wrote.channel.errfd = .closed
  kept : wrote.ok = true → wrote.channel.held = channel.held ∧
    wrote.bytes ++ wrote.channel.contents side = channel.contents side ++ data ∧
    wrote.channel.writefd = channel.writefd ∧ wrote.channel.errfd = channel.errfd
  failed : wrote.ok = false → wrote.channel.held ≤ channel.held ∧
    wrote.bytes <+: channel.contents side ++ data ∧ wrote.channel.sideFd side = .closed

/-- What is left of the packet goes into the buffer. -/
theorem Handles.takes {data : Bytes} (hlen : data.length ≤ channel.recvwindow)
    (h : Handles recvWindow
      { channel with recvwindow := channel.recvwindow - data.length } side data wrote)
    (hlow : wrote.channel.recvdonelen = 0 ∨
      wrote.channel.recvdonelen < recvWindowextend recvWindow)
    (hbuf : wrote.channel.buf side = some cbuf) {cbuf' : CircBuffer} (hvalid : cbuf'.Valid)
    (hsize : cbuf'.size = recvWindow)
    (hcontents : cbuf'.contents = cbuf.contents ++ data.drop wrote.consumed)
    (hok : wrote.ok = true) :
    Takes recvWindow channel side data
      { wrote with channel := wrote.channel.setBuf cbuf' side } := by
  obtain ⟨htrans, hrecv, hdone, hsend, hphase, hptys, hwritefd, herrfd⟩ :=
    setBuf_frame wrote.channel cbuf' side
  have hkept := contents_setWindow channel (channel.recvwindow - data.length) channel.recvdonelen
  have hbufs : ∀ other, buf { channel with recvwindow := channel.recvwindow - data.length } other
      = channel.buf other := by
    intro other
    cases other <;> rfl
  constructor
  case ok => exact h.ok.setBuf hbuf hvalid hsize
  case transwindow => exact htrans.trans h.transwindow
  case sendPhase => exact hsend.trans h.sendPhase
  case recvPhase => exact hphase.trans h.recvPhase
  case ptys => exact hptys.trans h.ptys
  case sent => exact h.sent
  case recvwindow =>
    have hwindow := h.recvwindow
    dsimp only at hwindow ⊢
    omega
  case low =>
    dsimp only
    rw [hdone]
    exact hlow
  case other =>
    intro other hne
    dsimp only
    rw [buf_setBuf_of_ne hne, h.other other hne, hbufs]
  case isSome =>
    dsimp only
    rw [buf_setBuf_self]
    rfl
  case writefd =>
    dsimp only
    rw [hwritefd]
    exact h.writefd
  case errfd =>
    dsimp only
    rw [herrfd]
    exact h.errfd
  case kept =>
    intro _
    obtain ⟨hw, he⟩ := h.fds hok
    refine ⟨?_, ?_, hwritefd.trans hw, herrfd.trans he⟩
    · have hheld := held_setBuf cbuf' hbuf
      have hsum := h.held
      have hconsumed := h.consumed
      have hdrop : (data.drop wrote.consumed).length = data.length - wrote.consumed :=
        List.length_drop
      rw [hcontents, List.length_append, hdrop] at hheld
      simp only [Channel.held, hkept] at hheld hsum ⊢
      omega
    · have hstream := h.stream
      rw [contents_of_buf hbuf, hkept] at hstream
      dsimp only
      rw [contents_of_buf (buf_setBuf_self _ _ _), hcontents]
      exact hstream
  case failed =>
    intro hfalse
    dsimp only at hfalse
    rw [hok] at hfalse
    exact absurd hfalse (by simp)

/-- A write that failed. -/
theorem Handles.discards {data : Bytes} (hlen : data.length ≤ channel.recvwindow)
    (h : Handles recvWindow
      { channel with recvwindow := channel.recvwindow - data.length } side data wrote)
    (hlow : wrote.channel.recvdonelen = 0 ∨
      wrote.channel.recvdonelen < recvWindowextend recvWindow)
    (hfailed : wrote.ok = false) : Takes recvWindow channel side data wrote := by
  have hkept := contents_setWindow channel (channel.recvwindow - data.length) channel.recvdonelen
  have hbufs : ∀ other, buf { channel with recvwindow := channel.recvwindow - data.length } other
      = channel.buf other := by
    intro other
    cases other <;> rfl
  refine ⟨h.ok, h.transwindow, h.sendPhase, h.recvPhase, h.ptys, h.sent, ?_, hlow, ?_, h.isSome,
    h.writefd, h.errfd, ?_, ?_⟩
  · have hwindow := h.recvwindow
    dsimp only at hwindow
    omega
  · intro other hne
    rw [h.other other hne, hbufs]
  · intro hok
    rw [hok] at hfailed
    exact absurd hfailed (by simp)
  · intro _
    refine ⟨?_, ?_, h.failed hfailed⟩
    · have hsum := h.held
      simp only [Channel.held, hkept] at hsum ⊢
      omega
    · have hstream := h.stream
      rw [hkept] at hstream
      exact ⟨_, hstream⟩

/-- **A data packet within the window** is taken. -/
theorem Ok.recvData {data : Bytes} (h : channel.Ok recvWindow) (hheld : channel.held ≤ recvWindow)
    (heof : channel.recvEof = false) (hbuf : channel.buf side = some cbuf)
    (hopen : (channel.sideFd side).isOpen = true) (hlen : data.length ≤ channel.recvwindow)
    (result : WriteResult) :
    ∃ wrote, commonRecvMsgChannelData recvWindow channel side data result = .ok wrote ∧
      Takes recvWindow channel side data wrote := by
  have hroom := h.recvwindow_le side hheld hbuf
  have hbuf₀ : buf { channel with recvwindow := channel.recvwindow - data.length } side = some cbuf := by
    rw [← hbuf]
    cases side <;> rfl
  have hopen₀ : (sideFd { channel with recvwindow := channel.recvwindow - data.length } side).isOpen
      = true := by
    rw [← hopen]
    cases side <;> rfl
  have hkept := contents_setWindow channel (channel.recvwindow - data.length) channel.recvdonelen
  obtain ⟨wrote, hwrote, hhandles, hlow⟩ :=
    (h.setWindow (channel.recvwindow - data.length) channel.recvdonelen).writechannel hbuf₀ hopen₀
      (some data) (by simp only [Channel.held, hkept, Option.getD_some] at hheld ⊢; omega) result
  rw [Option.getD_some] at hhandles
  have hall : channel.recvwindow - data.length ≤ recvWindow := by
    simp only [Channel.held] at hheld
    omega
  simp only [commonRecvMsgChannelData, hbuf, hopen, dropbearAssert]
  rw [if_neg (by simp [heof]), if_neg (by simp), if_neg (by omega), if_pos (by simpa using hlen), ok_bind,
    if_pos (by simpa using hall), ok_bind, hwrote, ok_bind]
  cases hok : wrote.ok with
  | false => exact ⟨wrote, rfl, hhandles.discards hlen hlow hok⟩
  | true =>
    obtain ⟨rest, hrest⟩ := Option.isSome_iff_exists.mp hhandles.isSome
    obtain ⟨hvalid, hsize⟩ := hhandles.ok.bufs side rest hrest
    have hfits : (data.drop wrote.consumed).length ≤ cbufGetavail rest := by
      have hsum := hhandles.held
      have hused : (wrote.channel.contents side).length = rest.used := by
        rw [contents_of_buf hrest, hvalid.length_contents]
      simp only [Channel.held, hkept] at hsum hheld
      rw [List.length_drop]
      simp only [cbufGetavail]
      cases side <;> omega
    obtain ⟨cbuf', hfill, hvalid', hsize', hcontents'⟩ :=
      hvalid.fill hfits (data.drop wrote.consumed).length
    refine ⟨_, ?_, hhandles.takes hlen hlow hrest hvalid' (hsize'.trans hsize) hcontents' hok⟩
    rw [if_neg (by simp), hrest]
    dsimp only
    rw [hfill, hok]
    rfl

end Channel

end Sshd4a
