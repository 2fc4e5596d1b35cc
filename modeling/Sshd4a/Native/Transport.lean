import Sshd4a.Lib.Machine
import Sshd4a.Native.PacketOpen

/-!
# One direction of a connection (`packet.c`, `common-kex.c`, `netio.c`)

The sender queues packets, defers some of them during a key exchange and changes its keys with
NEWKEYS. The socket takes what it wants of the queue. The receiver reads what it gets, puts packets
together and changes its keys when NEWKEYS comes. Nothing on the wire says under which keys or with
which number a packet was made: both ends count for themselves.

`schedule n` are the keys of the `n`-th exchange. That both ends have computed the same ones is what
the key exchange is for and is given here; when each of them takes them into use is not, and is what
the theorems are about. `strict` is `strict_kex`: the numbers start again with new keys. The theorems
are about connections on which no compression was agreed on (`KeyContext.Lawful`), so `authdone` does
not matter. With delayed compression it does: each end begins to compress when its own `authdone` is
set, and a packet that the one end sends after and the other reads before that is not understood.

`transport_delivers`: in every run the receiver gets the payloads that were queued, each once and in
order, and never exits; the sender exits only if too many replies are deferred.
-/

namespace Sshd4a

open Text Fallible

variable {σ : Type}

/-! ## The system -/

/-- `send_msg_kexinit`, for a payload with its lists of algorithms. -/
def sendMsgKexinit (random : Nat → UInt8) (lists : Bytes) (ses : Trans σ) :
    Except PacketExit (Trans σ) := do
  let ses ← encryptPacket random ses (sshMsgKexinit :: lists)
  return { ses with dataallowed := false }

/-- `send_msg_newkeys` with the `trans` half of `switch_keys`. -/
def sendMsgNewkeys (random : Nat → UInt8) (newkeys : KeyContext σ) (strict : Bool) (ses : Trans σ) :
    Except PacketExit (Trans σ) := do
  let ses ← encryptPacket random ses [sshMsgNewkeys]
  return { ses with
    dataallowed := true
    keys := newkeys
    transseq := if strict then 0 else ses.transseq }

/-- `recv_msg_newkeys` with the `recv` half of `switch_keys`. -/
def recvMsgNewkeys (newkeys : KeyContext σ) (strict : Bool) (ses : Recv σ) : Recv σ :=
  { ses with keys := newkeys, recvseq := if strict then 0 else ses.recvseq }

inductive TransportEvent
  | send (payload : Bytes) (random : Nat → UInt8)
  | kexinit (lists : Bytes) (random : Nat → UInt8)
  | newkeys (random : Nat → UInt8)
  | flush (random : Nat → UInt8)
  /-- The socket takes up to `n` bytes, or says `EAGAIN`. -/
  | write (n : Nat)
  /-- Each `read` of the call gives up to so many bytes of what has arrived. -/
  | read (sizes : List Nat)

/-- The two ends, the bytes between them, and what has gone in and come out: the payloads that
    `encrypt_packet` was called with, those that are in a packet, and those that were received. -/
structure Transport (σ : Type) where
  trans : Trans σ
  recv : Recv σ
  stream : Bytes := []
  transEpoch : Nat := 0
  recvEpoch : Nat := 0
  stopped : Option PacketExit := none
  requested : List Bytes := []
  queued : List Bytes := []
  delivered : List Bytes := []

/-- Whether a payload has to wait. -/
def Trans.defers (ses : Trans σ) (payload : Bytes) : Bool :=
  !ses.dataallowed && !(payload.head?.all packetIsOkayKex)

/-- A payload as the callers of `encrypt_packet` make it, other than for KEXINIT and NEWKEYS. -/
def ordinary (payload : Bytes) : Bool :=
  0 < payload.length && payload.length ≤ transMaxPayloadLen &&
    payload.head? != some sshMsgKexinit && payload.head? != some sshMsgNewkeys

/-- What the sender comes to, with the payloads it was asked for and those it has queued. -/
def Transport.sends (t : Transport σ) (result : Except PacketExit (Trans σ))
    (requested queued : List Bytes) : Transport σ :=
  match result with
  | .error why => { t with stopped := some why }
  | .ok trans =>
    { t with trans := trans, requested := t.requested ++ requested, queued := t.queued ++ queued }

/-- What comes out of `read_packet` is processed at once. -/
def Transport.receives (schedule : Nat → KeyContext σ) (strict : Bool) (t : Transport σ)
    (result : Except PacketExit (Option Buf × Recv σ × Sock)) : Transport σ :=
  match result with
  | .error why => { t with stopped := some why }
  | .ok (none, recv, sock) => { t with recv := recv, stream := sock.arrived }
  | .ok (some payload, recv, sock) =>
    if payload.unread.head? = some sshMsgNewkeys then
      { t with
        recv := recvMsgNewkeys (schedule (t.recvEpoch + 1)) strict recv
        recvEpoch := t.recvEpoch + 1
        stream := sock.arrived
        delivered := t.delivered ++ [payload.unread] }
    else { t with
      recv := recv
      stream := sock.arrived
      delivered := t.delivered ++ [payload.unread] }

def Transport.step (schedule : Nat → KeyContext σ) (strict : Bool) (t : Transport σ) :
    TransportEvent → Option (Transport σ)
  | .send payload random =>
    if t.stopped.isNone && ordinary payload then
      some (t.sends (encryptPacket random t.trans payload) [payload]
        (if t.trans.defers payload then [] else [payload]))
    else none
  | .kexinit lists random =>
    if t.stopped.isNone && t.trans.dataallowed && lists.length < transMaxPayloadLen then
      some (t.sends (sendMsgKexinit random lists t.trans) [sshMsgKexinit :: lists]
        [sshMsgKexinit :: lists])
    else none
  | .newkeys random =>
    if t.stopped.isNone && !t.trans.dataallowed then
      some { t.sends (sendMsgNewkeys random (schedule (t.transEpoch + 1)) strict t.trans)
          [[sshMsgNewkeys]] [[sshMsgNewkeys]] with
        transEpoch := t.transEpoch + 1 }
    else none
  | .flush random =>
    if t.stopped.isNone then
      some (t.sends (maybeFlushReplyQueue random t.trans) []
        (if t.trans.dataallowed then t.trans.replyQueue else []))
    else none
  | .write n =>
    if t.stopped.isNone && !t.trans.writequeue.isEmpty then
      match writePacket t.trans (if n = 0 then .again else .wrote n) with
      | .error why => some { t with stopped := some why }
      | .ok (bytes, trans) => some { t with trans := trans, stream := t.stream ++ bytes }
    else none
  | .read sizes =>
    if t.stopped.isNone then
      some (t.receives schedule strict
        (readPacket t.recv { arrived := t.stream, answers := sizes.map .upTo }))
    else none

/-- Both ends as `common_session_init` leaves them. -/
def Transport.start (schedule : Nat → KeyContext σ) : Transport σ where
  trans := { keys := schedule 0 }
  recv := { keys := schedule 0 }

/-! ## The write queue -/

/-- What is left to write. -/
def queueBytes (queue : List Buf) : Bytes := (queue.map Buf.unread).flatten

/-- Something is left of every buffer in the queue. -/
def Pending (queue : List Buf) : Prop := ∀ buf ∈ queue, buf.pos < buf.len

theorem Buf.length_unread (buf : Buf) : buf.unread.length = buf.len - buf.pos := by
  rw [Buf.unread, List.length_drop, Buf.length_contents]

theorem packetQueueToIovec_spec {queue : List Buf} (h : Pending queue) :
    packetQueueToIovec queue = .ok ((queue.take 50).map Buf.unread) := by
  have hone : ∀ buf ∈ queue, (if 0 < buf.len - buf.pos then buf.getptr (buf.len - buf.pos)
      else .error .failedAssertion) = .ok buf.unread := by
    intro buf hmem
    have hlt := h buf hmem
    have hlen := buf.len_le
    have hsize := buf.size_le
    have hshows : buf.Shows buf.contents buf.pos buf.size := ⟨rfl, rfl, rfl⟩
    rw [if_pos (by omega), hshows.getptr (by simp only [bufMaxSize] at hsize; simp only [bufMaxIncr]; omega)
      (by rw [Buf.length_contents]; omega), List.take_of_length_le]
    · rfl
    · rw [List.length_drop, Buf.length_contents]
  have hall : ∀ bufs : List Buf, (∀ buf ∈ bufs, buf ∈ queue) →
      (bufs.mapM fun writebuf => (if 0 < writebuf.len - writebuf.pos
        then writebuf.getptr (writebuf.len - writebuf.pos) else .error .failedAssertion))
        = (.ok (bufs.map Buf.unread) : Except PacketExit (List Bytes)) := by
    intro bufs
    induction bufs with
    | nil => intro _; rfl
    | cons buf rest ih =>
      intro hmem
      rw [List.mapM_cons, hone buf (hmem buf List.mem_cons_self), ok_bind,
        ih fun b hb => hmem b (List.mem_cons_of_mem _ hb), ok_bind]
      rfl
  exact hall _ fun buf hmem => List.mem_of_mem_take hmem

theorem packetQueueConsume_spec {queue : List Buf} (h : Pending queue) {written : Nat}
    (hle : written ≤ (queueBytes queue).length) :
    ∃ queue', packetQueueConsume queue written = .ok queue' ∧ Pending queue' ∧
      queueBytes queue' = (queueBytes queue).drop written := by
  induction queue generalizing written with
  | nil =>
    have hzero : written = 0 := Nat.le_zero.mp hle
    subst hzero
    exact ⟨[], rfl, h, rfl⟩
  | cons buf rest ih =>
    cases written with
    | zero => exact ⟨buf :: rest, rfl, h, rfl⟩
    | succ written =>
      have hlt := h buf List.mem_cons_self
      have hrest : Pending rest := fun b hb => h b (List.mem_cons_of_mem _ hb)
      have hbytes : queueBytes (buf :: rest) = buf.unread ++ queueBytes rest := rfl
      have hunread := buf.length_unread
      rw [hbytes, List.length_append, hunread] at hle
      by_cases hpart : written + 1 < buf.len - buf.pos
      · have hsize := buf.size_le
        have hlen := buf.len_le
        have hshows : buf.Shows buf.contents buf.pos buf.size := ⟨rfl, rfl, rfl⟩
        obtain ⟨buf', hincr, h'⟩ := hshows.incrpos (n := written + 1)
          (by simp only [bufMaxSize] at hsize; simp only [bufMaxIncr]; omega)
          (by rw [Buf.length_contents]; omega)
        refine ⟨buf' :: rest, ?_, ?_, ?_⟩
        · simp only [packetQueueConsume]
          rw [if_pos hpart, hincr]
          rfl
        · intro b hb
          rcases List.mem_cons.mp hb with rfl | hb
          · rw [h'.pos, h'.len, Buf.length_contents]
            omega
          · exact hrest b hb
        · rw [hbytes, List.drop_append_of_le_length (by omega), queueBytes, List.map_cons,
            List.flatten_cons, Buf.unread, h'.contents, h'.pos, ← List.drop_drop]
          rfl
      · obtain ⟨queue', hconsume, hpending, hleft⟩ := ih hrest
          (show written + 1 - (buf.len - buf.pos) ≤ (queueBytes rest).length by omega)
        refine ⟨queue', ?_, hpending, ?_⟩
        · simp only [packetQueueConsume]
          rw [if_neg hpart, hconsume]
        · have hfirst : buf.unread.drop (written + 1) = [] := List.drop_of_length_le (by omega)
          rw [hleft, hbytes, List.drop_append, hfirst, List.nil_append, hunread]

/-- **`write_packet`** moves bytes from the front of the queue to the socket. -/
theorem writePacket_spec {ses : Trans σ} (h : Pending ses.writequeue) (hne : ses.writequeue ≠ [])
    (hlen : ses.writequeueLen = (queueBytes ses.writequeue).length % 0x100000000) {n : Nat}
    (hn : n ≠ 0) :
    ∃ bytes queue', writePacket ses (.wrote n) = .ok (bytes, { ses with
        writequeue := queue'
        writequeueLen := (queueBytes queue').length % 0x100000000 }) ∧ Pending queue' ∧
      bytes ++ queueBytes queue' = queueBytes ses.writequeue := by
  have hiov : queueBytes ses.writequeue
      = ((ses.writequeue.take 50).map Buf.unread).flatten ++ queueBytes (ses.writequeue.drop 50) := by
    rw [queueBytes, queueBytes, ← List.flatten_append, ← List.map_append, List.take_append_drop]
  have hpos : 0 < ((ses.writequeue.take 50).map Buf.unread).flatten.length := by
    cases hqueue : ses.writequeue with
    | nil => exact absurd hqueue hne
    | cons buf rest =>
      have hlt := h buf (by rw [hqueue]; exact List.mem_cons_self)
      rw [List.take_succ_cons, List.map_cons, List.flatten_cons, List.length_append,
        Buf.length_unread]
      omega
  set iov := (ses.writequeue.take 50).map Buf.unread with hdef
  have hwritten : min n iov.flatten.length ≤ (queueBytes ses.writequeue).length := by
    rw [hiov, List.length_append]
    omega
  obtain ⟨queue', hconsume, hpending, hleft⟩ := packetQueueConsume_spec h hwritten
  refine ⟨iov.flatten.take (min n iov.flatten.length), queue', ?_, hpending, ?_⟩
  · have hsome : ¬ min n iov.flatten.length = 0 := by omega
    have hcount : (ses.writequeueLen
        + (0x100000000 - min n iov.flatten.length % 0x100000000)) % 0x100000000
        = (queueBytes queue').length % 0x100000000 := by
      rw [hlen, hleft, List.length_drop]
      generalize min n iov.flatten.length = written at hwritten ⊢
      omega
    rw [writePacket, if_neg hne, packetQueueToIovec_spec h, ok_bind]
    simp only [← hdef, hconsume, ok_bind, if_neg hsome, hcount]
    rfl
  · rw [hleft, hiov, List.drop_append_of_le_length (Nat.min_le_right _ _), ← List.append_assoc,
      List.take_append_drop]

/-! ## Packets in flight -/

/-- Where an end is in the sequence of packets. -/
structure Position (σ : Type) where
  keys : KeyContext σ
  seq : Nat
  epoch : Nat

variable (schedule : Nat → KeyContext σ) (strict : Bool)

/-- Where an end is after a packet, `keys'` being the keys with the cipher state after it. -/
def Position.next (p : Position σ) (payload : Bytes) (keys' : KeyContext σ) : Position σ :=
  if payload.head? = some sshMsgNewkeys then
    { keys := schedule (p.epoch + 1)
      seq := if strict then 0 else (p.seq + 1) % 0x100000000
      epoch := p.epoch + 1 }
  else { keys := keys', seq := (p.seq + 1) % 0x100000000, epoch := p.epoch }

/-- Payloads with their packets, each made where the one before it has led. -/
def Chain (p : Position σ) : List (Bytes × Bytes) → Position σ → Prop
  | [], q => p = q
  | (payload, wire) :: rest, q =>
    ∃ keys', Carries p.keys p.seq payload wire keys' ∧ Chain (p.next schedule strict payload keys') rest q

/-- What is between the ends: packets that are not yet complete at the receiver, with `c` bytes of
    the first of them read. -/
def InFlight (p : Position σ) (frames : List (Bytes × Bytes)) (q : Position σ) (c : Nat)
    (recv : Recv σ) : Prop :=
  match frames with
  | [] => p = q ∧ c = 0 ∧ Filling p.keys p.seq [] recv
  | (payload, wire) :: rest =>
    ∃ keys', Partly p.keys p.seq payload wire keys' c recv ∧
      Chain schedule strict (p.next schedule strict payload keys') rest q

variable {schedule strict} {p q : Position σ} {frames : List (Bytes × Bytes)} {c : Nat}
  {recv : Recv σ} {payload wire : Bytes} {keys' : KeyContext σ}

theorem Chain.snoc (h : Chain schedule strict p frames q)
    (hcarries : Carries q.keys q.seq payload wire keys') :
    Chain schedule strict p (frames ++ [(payload, wire)]) (q.next schedule strict payload keys') := by
  induction frames generalizing p with
  | nil =>
    cases h
    exact ⟨keys', hcarries, rfl⟩
  | cons frame rest ih =>
    obtain ⟨keys₁, hfirst, hrest⟩ := h
    exact ⟨keys₁, hfirst, ih hrest⟩

/-- A receiver that has nothing of the next packet. -/
theorem InFlight.of_chain (h : Chain schedule strict p frames q) (hfill : Filling p.keys p.seq [] recv) :
    InFlight schedule strict p frames q 0 recv := by
  cases frames with
  | nil => exact ⟨h, rfl, hfill⟩
  | cons frame rest =>
    obtain ⟨keys₁, hfirst, hrest⟩ := h
    have hpos := hfill.short
    have hblock := hfirst.block_le
    rw [List.length_nil] at hpos
    exact ⟨keys₁, ⟨hfirst, by omega, .inl hfill⟩, hrest⟩

theorem InFlight.snoc (h : InFlight schedule strict p frames q c recv)
    (hcarries : Carries q.keys q.seq payload wire keys') :
    InFlight schedule strict p (frames ++ [(payload, wire)]) (q.next schedule strict payload keys') c
      recv := by
  cases frames with
  | nil =>
    obtain ⟨rfl, rfl, hfill⟩ := h
    exact InFlight.of_chain ⟨keys', hcarries, rfl⟩ hfill
  | cons frame rest =>
    obtain ⟨keys₁, hpartly, hrest⟩ := h
    exact ⟨keys₁, hpartly, hrest.snoc hcarries⟩

/-! ## The invariant -/

def Transport.sender (t : Transport σ) : Position σ :=
  { keys := t.trans.keys, seq := t.trans.transseq, epoch := t.transEpoch }

/-- A payload that has to wait for the end of an exchange. -/
def deferrable (payload : Bytes) : Bool := !(payload.head?.all packetIsOkayKex)

variable (schedule strict) in
/-- The receiver is at `p` and has read `c` bytes of the packets in `frames`. -/
structure Transport.Sound (t : Transport σ) (p : Position σ) (frames : List (Bytes × Bytes))
    (c : Nat) : Prop where
  flight : InFlight schedule strict p frames t.sender c t.recv
  epoch : t.recvEpoch = p.epoch
  bytes : t.stream ++ queueBytes t.trans.writequeue = (frames.map Prod.snd).flatten.drop c
  payloads : t.queued = t.delivered ++ frames.map Prod.fst
  pending : Pending t.trans.writequeue
  queueLen : t.trans.writequeueLen = (queueBytes t.trans.writequeue).length % 0x100000000
  lawful : t.trans.keys.Lawful
  replies : ∀ payload ∈ t.trans.replyQueue, ordinary payload = true

variable {t : Transport σ}

theorem InFlight.le (h : InFlight schedule strict p frames q c recv) :
    c ≤ (frames.map Prod.snd).flatten.length := by
  cases frames with
  | nil => exact Nat.le_of_eq h.2.1
  | cons frame rest =>
    obtain ⟨keys₁, hpartly, -⟩ := h
    have hlt := hpartly.lt
    rw [List.map_cons, List.flatten_cons, List.length_append]
    omega

/-- One more packet in the queue. -/
theorem Transport.Sound.push (h : t.Sound schedule strict p frames c) (trans' : Trans σ)
    (epoch' : Nat) (requested' : List Bytes) {buf : Buf} {size : Nat} (hbuf : buf.Shows wire 0 size)
    (hcarries : Carries t.trans.keys t.trans.transseq payload wire keys')
    (hsender : Position.mk trans'.keys trans'.transseq epoch'
      = t.sender.next schedule strict payload keys')
    (hqueue : trans'.writequeue = t.trans.writequeue ++ [buf])
    (hlen : trans'.writequeueLen = (t.trans.writequeueLen + wire.length) % 0x100000000)
    (hlawful : trans'.keys.Lawful) (hreplies : trans'.replyQueue = t.trans.replyQueue) :
    Transport.Sound schedule strict { t with
      trans := trans'
      transEpoch := epoch'
      requested := requested'
      queued := t.queued ++ [payload] } p (frames ++ [(payload, wire)]) c := by
  have hunread : buf.unread = wire := by rw [Buf.unread, hbuf.contents, hbuf.pos, List.drop_zero]
  have hbytes : queueBytes trans'.writequeue = queueBytes t.trans.writequeue ++ wire := by
    rw [hqueue, queueBytes, List.map_append, List.flatten_append, List.map_singleton,
      List.flatten_singleton, hunread]
    rfl
  constructor
  case flight =>
    have hflight := h.flight.snoc hcarries
    rw [← hsender] at hflight
    exact hflight
  case epoch => exact h.epoch
  case bytes =>
    dsimp only
    rw [hbytes, ← List.append_assoc, h.bytes, List.map_append, List.flatten_append,
      List.drop_append_of_le_length h.flight.le, List.map_singleton, List.flatten_singleton]
  case payloads =>
    dsimp only
    rw [h.payloads, List.map_append, List.append_assoc]
    rfl
  case pending =>
    dsimp only
    rw [hqueue]
    intro b hb
    rcases List.mem_append.mp hb with hb | hb
    · exact h.pending b hb
    · have hblock := hcarries.lengths
      have hlaw := hcarries.lawful.block
      rw [List.mem_singleton.mp hb, hbuf.pos, hbuf.len]
      omega
  case queueLen =>
    dsimp only
    rw [hlen, hbytes, List.length_append, h.queueLen]
    omega
  case lawful => exact hlawful
  case replies =>
    dsimp only
    rw [hreplies]
    exact h.replies

/-- Only the counters of payloads and the deferred ones change. -/
theorem Transport.Sound.keep (h : t.Sound schedule strict p frames c) (replyQueue : List Bytes)
    (dataallowed : Bool) (requested' : List Bytes)
    (hreplies : ∀ payload ∈ replyQueue, ordinary payload = true) :
    Transport.Sound schedule strict { t with
      trans := { t.trans with replyQueue := replyQueue, dataallowed := dataallowed }
      requested := requested' } p frames c :=
  ⟨h.flight, h.epoch, h.bytes, h.payloads, h.pending, h.queueLen, h.lawful, hreplies⟩

theorem ordinary_spec (h : ordinary payload = true) :
    0 < payload.length ∧ payload.length ≤ transMaxPayloadLen ∧
      payload.head? ≠ some sshMsgKexinit ∧ payload.head? ≠ some sshMsgNewkeys := by
  simpa [ordinary, and_assoc] using h

/-- **What `encrypt_packet` does**: it queues a packet that carries the payload, or defers it. -/
theorem encryptPacket_cases {ses : Trans σ} (hkeys : ses.keys.Lawful) (random : Nat → UInt8)
    (payload : Bytes) (hpos : 0 < payload.length) (hmax : payload.length ≤ transMaxPayloadLen) :
    if ses.defers payload then encryptPacket random ses payload = enqueueReplyPacket ses payload
    else ∃ writebuf wire size keys', writebuf.Shows wire 0 size ∧
      Carries ses.keys ses.transseq payload wire keys' ∧
      encryptPacket random ses payload = .ok { ses with
        keys := keys'
        transseq := (ses.transseq + 1) % 0x100000000
        writequeue := ses.writequeue ++ [writebuf]
        writequeueLen := (ses.writequeueLen + wire.length) % 0x100000000 } := by
  cases payload with
  | nil => exact absurd hpos (Nat.lt_irrefl 0)
  | cons type rest =>
    have hhead : ses.defers (type :: rest) = (!ses.dataallowed && !packetIsOkayKex type) := rfl
    rw [hhead]
    split
    next hdefer => rw [encryptPacket, if_pos hdefer]
    next hsend => exact encryptPacket_spec hkeys random rfl hmax (by simpa using hsend)

/-! ## The steps -/

variable (schedule strict) in
/-- What holds in every run. -/
structure Transport.Good (t : Transport σ) : Prop where
  stops : t.stopped = none ∨
    (t.stopped = some .fullReplyQueue ∧ maxDeferReplyQueue < t.trans.replyQueue.length)
  sound : ∃ p frames c, t.Sound schedule strict p frames c

theorem Position.next_of_ne {payload : Bytes} (h : payload.head? ≠ some sshMsgNewkeys) :
    p.next schedule strict payload keys'
      = { keys := keys', seq := (p.seq + 1) % 0x100000000, epoch := p.epoch } := if_neg h

theorem Transport.sender_next {payload : Bytes} (h : payload.head? ≠ some sshMsgNewkeys) :
    Position.mk keys' ((t.trans.transseq + 1) % 0x100000000) t.transEpoch
      = t.sender.next schedule strict payload keys' := by
  rw [Position.next_of_ne h]
  rfl

theorem Transport.Good.send (h : t.Good schedule strict) (hrunning : t.stopped = none)
    (hpayload : ordinary payload = true) (random : Nat → UInt8) :
    Transport.Good schedule strict (t.sends (encryptPacket random t.trans payload) [payload]
      (if t.trans.defers payload then [] else [payload])) := by
  obtain ⟨p, frames, c, hsound⟩ := h.sound
  obtain ⟨hpos, hmax, -, hne⟩ := ordinary_spec hpayload
  have hcases := encryptPacket_cases hsound.lawful random payload hpos hmax
  split at hcases
  next hdefer =>
    rw [hcases, if_pos hdefer, enqueueReplyPacket]
    split
    next hfull => exact ⟨.inr ⟨rfl, hfull⟩, p, frames, c, hsound.flight, hsound.epoch, hsound.bytes,
      hsound.payloads, hsound.pending, hsound.queueLen, hsound.lawful, hsound.replies⟩
    next =>
      refine ⟨.inl hrunning, p, frames, c, ?_⟩
      simp only [Transport.sends, List.append_nil]
      apply hsound.keep
      intro reply hreply
      rcases List.mem_append.mp hreply with hreply | hreply
      · exact hsound.replies reply hreply
      · rw [List.mem_singleton.mp hreply]
        exact hpayload
  next hsend =>
    obtain ⟨buf, wire, size, keys', hbuf, hcarries, hencrypt⟩ := hcases
    rw [hencrypt, if_neg hsend]
    refine ⟨.inl hrunning, p, frames ++ [(payload, wire)], c, ?_⟩
    exact hsound.push _ _ _ hbuf hcarries (Transport.sender_next hne) rfl rfl hcarries.lawful' rfl

theorem Transport.Good.kexinit (h : t.Good schedule strict) (hrunning : t.stopped = none)
    (hallowed : t.trans.dataallowed = true) {lists : Bytes} (hmax : lists.length < transMaxPayloadLen)
    (random : Nat → UInt8) :
    Transport.Good schedule strict (t.sends (sendMsgKexinit random lists t.trans)
      [sshMsgKexinit :: lists] [sshMsgKexinit :: lists]) := by
  obtain ⟨p, frames, c, hsound⟩ := h.sound
  have hne : (sshMsgKexinit :: lists).head? ≠ some sshMsgNewkeys := by
    rw [List.head?_cons]
    decide
  have hcases := encryptPacket_cases hsound.lawful random (sshMsgKexinit :: lists)
    (Nat.succ_pos _) hmax
  rw [if_neg (by simp [Trans.defers, hallowed])] at hcases
  obtain ⟨buf, wire, size, keys', hbuf, hcarries, hencrypt⟩ := hcases
  refine ⟨?_, p, frames ++ [(sshMsgKexinit :: lists, wire)], c, ?_⟩
  · rw [sendMsgKexinit, hencrypt]
    exact .inl hrunning
  · rw [sendMsgKexinit, hencrypt, ok_bind, pure_eq_ok]
    exact hsound.push _ _ _ hbuf hcarries (Transport.sender_next hne) rfl rfl hcarries.lawful' rfl

theorem Transport.Good.newkeys (hkeys : ∀ n, (schedule n).Lawful) (h : t.Good schedule strict)
    (hrunning : t.stopped = none) (random : Nat → UInt8) :
    Transport.Good schedule strict { t.sends
        (sendMsgNewkeys random (schedule (t.transEpoch + 1)) strict t.trans) [[sshMsgNewkeys]]
        [[sshMsgNewkeys]] with
      transEpoch := t.transEpoch + 1 } := by
  obtain ⟨p, frames, c, hsound⟩ := h.sound
  have hcases := encryptPacket_cases hsound.lawful random [sshMsgNewkeys]
    (Nat.succ_pos _) (by decide)
  have hokay : t.trans.defers [sshMsgNewkeys] = false := by
    rw [Trans.defers, List.head?_cons, Option.all_some, show packetIsOkayKex sshMsgNewkeys = true by decide]
    exact Bool.and_false _
  rw [if_neg (by rw [hokay]; exact Bool.false_ne_true)] at hcases
  obtain ⟨buf, wire, size, keys', hbuf, hcarries, hencrypt⟩ := hcases
  refine ⟨?_, p, frames ++ [([sshMsgNewkeys], wire)], c, ?_⟩
  · rw [sendMsgNewkeys, hencrypt]
    exact .inl hrunning
  · rw [sendMsgNewkeys, hencrypt, ok_bind, pure_eq_ok]
    have hsender : Position.mk (schedule (t.transEpoch + 1))
        (if strict then 0 else (t.trans.transseq + 1) % 0x100000000) (t.transEpoch + 1)
        = t.sender.next schedule strict [sshMsgNewkeys] keys' := (if_pos rfl).symm
    exact hsound.push _ _ _ hbuf hcarries hsender rfl rfl (hkeys _) rfl

/-- The loop over the deferred payloads queues them all. -/
theorem Transport.Sound.flush (h : t.Sound schedule strict p frames c)
    (hallowed : t.trans.dataallowed = true) (random : Nat → UInt8) {replies : List Bytes}
    (hreplies : ∀ payload ∈ replies, ordinary payload = true) :
    ∃ trans' frames', flushReplies random t.trans replies = .ok trans' ∧
      trans'.dataallowed = true ∧
      Transport.Sound schedule strict { t with trans := trans', queued := t.queued ++ replies } p frames'
        c := by
  induction replies generalizing t frames with
  | nil =>
    refine ⟨t.trans, frames, rfl, hallowed, ?_⟩
    rw [List.append_nil]
    exact h
  | cons payload rest ih =>
    obtain ⟨hpos, hmax, -, hne⟩ := ordinary_spec (hreplies payload List.mem_cons_self)
    have hcases := encryptPacket_cases h.lawful random payload hpos hmax
    rw [if_neg (by simp [Trans.defers, hallowed])] at hcases
    obtain ⟨buf, wire, size, keys', hbuf, hcarries, hencrypt⟩ := hcases
    have hpushed := h.push { t.trans with
        keys := keys'
        transseq := (t.trans.transseq + 1) % 0x100000000
        writequeue := t.trans.writequeue ++ [buf]
        writequeueLen := (t.trans.writequeueLen + wire.length) % 0x100000000 } t.transEpoch t.requested
      hbuf hcarries (Transport.sender_next hne) rfl rfl hcarries.lawful' rfl
    obtain ⟨trans', frames', hflush, hallowed', hsound⟩ := ih hpushed hallowed
      fun payload hmem => hreplies payload (List.mem_cons_of_mem _ hmem)
    refine ⟨trans', frames', ?_, hallowed', ?_⟩
    · rw [flushReplies, hencrypt, ok_bind]
      exact hflush
    · rw [List.append_assoc] at hsound
      exact hsound

theorem Transport.Good.flush (h : t.Good schedule strict) (hrunning : t.stopped = none)
    (random : Nat → UInt8) :
    Transport.Good schedule strict (t.sends (maybeFlushReplyQueue random t.trans) []
      (if t.trans.dataallowed then t.trans.replyQueue else [])) := by
  obtain ⟨p, frames, c, hsound⟩ := h.sound
  rw [maybeFlushReplyQueue]
  split
  next hallowed =>
    obtain ⟨trans', frames', hflush, hallowed', hsound'⟩ :=
      hsound.flush hallowed random hsound.replies
    rw [hflush, ok_bind, pure_eq_ok]
    refine ⟨.inl hrunning, p, frames', c, ?_⟩
    exact hsound'.keep [] trans'.dataallowed (t.requested ++ [])
      fun payload hmem => absurd hmem List.not_mem_nil
  next =>
    refine ⟨.inl hrunning, p, frames, c, ?_⟩
    simp only [Transport.sends, List.append_nil]
    exact hsound

theorem Transport.Good.write (h : t.Good schedule strict) (hrunning : t.stopped = none)
    (hne : t.trans.writequeue ≠ []) (n : Nat) :
    ∃ bytes trans', writePacket t.trans (if n = 0 then .again else .wrote n) = .ok (bytes, trans') ∧
      Transport.Good schedule strict { t with trans := trans', stream := t.stream ++ bytes } := by
  obtain ⟨p, frames, c, hsound⟩ := h.sound
  by_cases hzero : n = 0
  · refine ⟨[], t.trans, ?_, .inl hrunning, p, frames, c, ?_⟩
    · rw [if_pos hzero, writePacket, if_neg hne, packetQueueToIovec_spec hsound.pending]
      rfl
    · rw [List.append_nil]
      exact hsound
  · obtain ⟨bytes, queue', hwrite, hpending, hbytes⟩ :=
      writePacket_spec hsound.pending hne hsound.queueLen hzero
    rw [if_neg hzero]
    refine ⟨bytes, _, hwrite, .inl hrunning, p, frames, c, hsound.flight, hsound.epoch, ?_,
      hsound.payloads, hpending, rfl, hsound.lawful, hsound.replies⟩
    rw [← hsound.bytes, ← hbytes, List.append_assoc]

/-- A receiver at the start of the next packet. -/
theorem filling_nil {keys : KeyContext σ} (hkeys : keys.Lawful) (seq : Nat) (authdone : Bool) :
    Filling keys seq [] { keys := keys, recvseq := seq, readbuf := none, authdone := authdone } := by
  refine ⟨rfl, rfl, ?_, .inl ⟨rfl, rfl⟩⟩
  rw [List.length_nil]
  rcases hkeys.block with hb | hb <;> omega

theorem Transport.Good.read (hkeys : ∀ n, (schedule n).Lawful) (h : t.Good schedule strict)
    (hrunning : t.stopped = none) (sizes : List Nat) :
    Transport.Good schedule strict (t.receives schedule strict
      (readPacket t.recv { arrived := t.stream, answers := sizes.map .upTo })) := by
  obtain ⟨p, frames, c, hsound⟩ := h.sound
  have hopen : Sock.Open { arrived := t.stream, answers := sizes.map .upTo } := by
    intro answer hmem
    obtain ⟨n, -, rfl⟩ := List.mem_map.mp hmem
    exact ⟨n, rfl⟩
  have hflight := hsound.flight
  have hbytes := hsound.bytes
  cases frames with
  | nil =>
    obtain ⟨hp, hc, hfill⟩ := hflight
    rw [List.map_nil, List.flatten_nil, List.drop_nil, List.append_eq_nil_iff] at hbytes
    have hlawful : p.keys.Lawful := by rw [hp]; exact hsound.lawful
    obtain ⟨recv', sock', hread, harrived, hfill'⟩ := hfill.readPacket_idle hlawful hopen hbytes.1
    rw [hread]
    refine ⟨.inl hrunning, p, [], 0, ⟨hp, rfl, hfill'⟩, hsound.epoch, ?_, hsound.payloads,
      hsound.pending, hsound.queueLen, hsound.lawful, hsound.replies⟩
    rw [Transport.receives, harrived, hbytes.2]
    rfl
  | cons frame rest =>
    obtain ⟨payload, wire⟩ := frame
    obtain ⟨keys', hpartly, hchain⟩ := hflight
    have hlt := hpartly.lt
    have hsplit : ((((payload, wire) :: rest).map Prod.snd).flatten).drop c
        = wire.drop c ++ (rest.map Prod.snd).flatten :=
      List.drop_append_of_le_length (Nat.le_of_lt hlt)
    rw [hsplit] at hbytes
    obtain ⟨k, out, recv', sock', hread, hle, harrived, hreached⟩ := hpartly.readPacket hopen hbytes
    have hleft : sock'.arrived ++ queueBytes t.trans.writequeue
        = (((payload, wire) :: rest).map Prod.snd).flatten.drop (c + k) := by
      rw [harrived, ← List.drop_append_of_le_length hle, hbytes, ← hsplit, List.drop_drop]
    rw [hread]
    cases hreached with
    | partly hpartly' =>
      exact ⟨.inl hrunning, p, (payload, wire) :: rest, c + k, ⟨keys', hpartly', hchain⟩, hsound.epoch, hleft,
        hsound.payloads, hsound.pending, hsound.queueLen, hsound.lawful, hsound.replies⟩
    | @whole out authdone hall hunread =>
      have hrest : sock'.arrived ++ queueBytes t.trans.writequeue
          = (rest.map Prod.snd).flatten.drop 0 := by
        rw [hleft, hall, List.map_cons, List.flatten_cons, List.drop_left, List.drop_zero]
      have hpayloads : t.queued = t.delivered ++ [out.unread] ++ rest.map Prod.fst := by
        rw [hsound.payloads, hunread, List.append_assoc]
        rfl
      have hflight' : ∀ recv' : Recv σ,
          Filling (p.next schedule strict payload keys').keys (p.next schedule strict payload keys').seq
            [] recv' →
          InFlight schedule strict (p.next schedule strict payload keys') rest t.sender 0 recv' :=
        fun recv' hfill => InFlight.of_chain hchain hfill
      rw [← hunread] at hflight'
      simp only [Transport.receives]
      split
      next hnewkeys =>
        refine ⟨.inl hrunning, p.next schedule strict out.unread keys', rest, 0, hflight' _ ?_, ?_,
          hrest, hpayloads, hsound.pending, hsound.queueLen, hsound.lawful, hsound.replies⟩
        · rw [Position.next, if_pos hnewkeys, hsound.epoch]
          exact filling_nil (hkeys _) _ _
        · rw [Position.next, if_pos hnewkeys]
          exact congrArg (· + 1) hsound.epoch
      next hother =>
        refine ⟨.inl hrunning, p.next schedule strict out.unread keys', rest, 0, hflight' _ ?_, ?_,
          hrest, hpayloads, hsound.pending, hsound.queueLen, hsound.lawful, hsound.replies⟩
        · rw [Position.next_of_ne hother]
          exact filling_nil hpartly.carries.lawful' _ _
        · rw [Position.next_of_ne hother]
          exact hsound.epoch

/-! ## Every run -/

theorem Transport.Good.step (hkeys : ∀ n, (schedule n).Lawful) (h : t.Good schedule strict)
    {event : TransportEvent} {t' : Transport σ} (hstep : t.step schedule strict event = some t') :
    t'.Good schedule strict := by
  cases event with
  | send payload random =>
    simp only [Transport.step, Option.ite_none_right_eq_some, Bool.and_eq_true,
      Option.isNone_iff_eq_none, Option.some.injEq] at hstep
    obtain ⟨⟨hrunning, hpayload⟩, rfl⟩ := hstep
    exact h.send hrunning hpayload random
  | kexinit lists random =>
    simp only [Transport.step, Option.ite_none_right_eq_some, Bool.and_eq_true, decide_eq_true_eq,
      Option.isNone_iff_eq_none, Option.some.injEq] at hstep
    obtain ⟨⟨⟨hrunning, hallowed⟩, hmax⟩, rfl⟩ := hstep
    exact h.kexinit hrunning hallowed hmax random
  | newkeys random =>
    simp only [Transport.step, Option.ite_none_right_eq_some, Bool.and_eq_true,
      Option.isNone_iff_eq_none, Option.some.injEq] at hstep
    obtain ⟨⟨hrunning, -⟩, rfl⟩ := hstep
    exact h.newkeys hkeys hrunning random
  | flush random =>
    simp only [Transport.step, Option.ite_none_right_eq_some, Option.isNone_iff_eq_none,
      Option.some.injEq] at hstep
    obtain ⟨hrunning, rfl⟩ := hstep
    exact h.flush hrunning random
  | write n =>
    simp only [Transport.step, Option.ite_none_right_eq_some, Bool.and_eq_true, Bool.not_eq_true',
      Option.isNone_iff_eq_none, List.isEmpty_eq_false_iff] at hstep
    obtain ⟨⟨hrunning, hne⟩, hwrites⟩ := hstep
    obtain ⟨bytes, trans', hwrite, hgood⟩ := h.write hrunning hne n
    rw [hwrite] at hwrites
    cases hwrites
    exact hgood
  | read sizes =>
    simp only [Transport.step, Option.ite_none_right_eq_some, Option.isNone_iff_eq_none,
      Option.some.injEq] at hstep
    obtain ⟨hrunning, rfl⟩ := hstep
    exact h.read hkeys hrunning sizes

theorem Transport.good_start (hkeys : ∀ n, (schedule n).Lawful) :
    (Transport.start schedule).Good schedule strict := by
  refine ⟨.inl rfl, { keys := schedule 0, seq := 0, epoch := 0 }, [], 0, ?_⟩
  refine ⟨⟨rfl, rfl, filling_nil (hkeys 0) 0 false⟩, rfl, rfl, rfl, ?_, rfl, hkeys 0, ?_⟩
  · exact fun buf hmem => absurd hmem List.not_mem_nil
  · exact fun payload hmem => absurd hmem List.not_mem_nil

theorem Transport.good_run (hkeys : ∀ n, (schedule n).Lawful) {events : List TransportEvent}
    (hrun : Machine.run (Transport.step schedule strict) (Transport.start schedule) events = some t) :
    t.Good schedule strict :=
  Machine.run_invariant (fun _ _ _ hgood hstep => hgood.step hkeys hstep)
    (Transport.good_start hkeys) hrun

theorem Transport.Good.delivers (h : t.Good schedule strict) :
    t.delivered <+: t.queued ∧
      (t.trans.writequeue = [] → t.stream = [] → t.delivered = t.queued) := by
  obtain ⟨-, p, frames, c, hsound⟩ := h
  refine ⟨⟨_, hsound.payloads.symm⟩, ?_⟩
  intro hqueue hstream
  have hbytes := hsound.bytes
  have hflight := hsound.flight
  rw [hqueue, hstream] at hbytes
  cases frames with
  | nil => rw [hsound.payloads, List.map_nil, List.append_nil]
  | cons frame rest =>
    -- a packet that is not complete has bytes left somewhere
    obtain ⟨keys', hpartly, -⟩ := hflight
    have hlt := hpartly.lt
    have hdrop : (frame.2 ++ (rest.map Prod.snd).flatten).drop c = [] := hbytes.symm
    rw [List.drop_eq_nil_iff, List.length_append] at hdrop
    omega

/-- **What is queued arrives.** In every run, however payloads are queued, keys are changed and
    bytes are written and read in pieces, the receiver does not exit and has got a beginning of the
    payloads that were queued: none changed, lost, doubled or out of order. When nothing is left in
    the queue and on the wire it has got them all. The sender exits only when it would defer a
    payload and more than 1000 are deferred already. -/
theorem transport_delivers (hkeys : ∀ n, (schedule n).Lawful) {events : List TransportEvent}
    (hrun : Machine.run (Transport.step schedule strict) (Transport.start schedule) events = some t) :
    (t.stopped = none ∨
      (t.stopped = some .fullReplyQueue ∧ maxDeferReplyQueue < t.trans.replyQueue.length)) ∧
      t.delivered <+: t.queued ∧
      (t.trans.writequeue = [] → t.stream = [] → t.delivered = t.queued) := by
  have hgood := Transport.good_run hkeys hrun
  exact ⟨hgood.stops, hgood.delivers⟩

/-- Keys with delayed compression, by a stream that only marks what went through it. -/
def delayedKeys : KeyContext CipherState :=
  { nocipherKeys with
    algoComp := .zlibDelay
    zstream := { run := fun _ input _ => some ⟨0x78 :: input, 0⟩ } }

-- USERAUTH_SUCCESS is deferred, and `authdone` set, between KEXINIT and KEXDH_REPLY
example : (do
    let t ← Machine.run (Transport.step (fun _ => delayedKeys) true)
      (Transport.start fun _ => delayedKeys)
      [.kexinit [1] UInt8.ofNat, .send [52] UInt8.ofNat, .write 100, .read [8, 100]]
    let t ← Machine.run (Transport.step (fun _ => delayedKeys) true)
      { t with trans := { t.trans with authdone := true } }
      [.send [31, 9] UInt8.ofNat, .write 100, .read [8, 100]]
    return (t.stopped, t.queued, t.delivered))
    = some (none, [[20, 1], [31, 9]], [[20, 1], [0x78, 31, 9]]) := by decide +kernel

/-- The first keys are none; then ChaCha20-Poly1305 with some keystreams and tags. -/
def exampleSchedule (n : Nat) : KeyContext CipherState :=
  if n = 0 then nocipherKeys
  else chachapolyKeys (fun seq _ i => UInt8.ofNat (n + i) + seq.getLastD 0)
    (fun seq block i => UInt8.ofNat (3 * n + block + 7 * i) + seq.getLastD 0)
    (fun key text => List.replicate 16 (key.headD 0 + text.foldl (· + ·) 0))

theorem exampleSchedule_lawful (n : Nat) : (exampleSchedule n).Lawful := by
  rw [exampleSchedule]
  split
  next => exact nocipherKeys_lawful
  next => exact chachapolyKeys_lawful _ _ _ fun _ _ => List.length_replicate

/-- A message, a key exchange with a deferred message, and reads in pieces. -/
def exampleExchange : List TransportEvent :=
  [.send [2, 7, 7] UInt8.ofNat, .write 5, .read [3], .kexinit [1, 2, 3] UInt8.ofNat,
    .send [94, 1, 2] UInt8.ofNat, .write 100, .read [5, 2], .read [100, 100], .newkeys UInt8.ofNat,
    .flush UInt8.ofNat, .write 1, .write 1000, .read [8, 50], .read [8, 50], .read [3, 0], .read [9, 9],
    .read [50]]

theorem transport_delivers_exchange :
    ∃ t, Machine.run (Transport.step exampleSchedule true) (Transport.start exampleSchedule)
        exampleExchange = some t ∧ t.delivered <+: t.queued := by
  have hsome : (Machine.run (Transport.step exampleSchedule true) (Transport.start exampleSchedule)
      exampleExchange).isSome = true := by decide +kernel
  obtain ⟨t, hrun⟩ := Option.isSome_iff_exists.mp hsome
  exact ⟨t, hrun, (transport_delivers exampleSchedule_lawful hrun).2.1⟩

end Sshd4a
