import Sshd4a.Native.Buf

/-!
# Packets (`packet.c`)

A payload becomes a packet in `encrypt_packet`: the length and the padding are put around it, it is
encrypted with its MAC, and the result waits in the write queue until `write_packet` has given all
of it to the socket. `read_packet` is the other direction. It is called when something has arrived,
however little that is, and puts a packet together over as many calls as it takes: first one
cipher block, because the length is in there, then the rest.

What the ciphers and zlib do is not part of this: a `KeyContext` has the two functions of its mode
and the one of its stream. Where `random` fills the padding is the only place where it is used. The
counters and times that only decide about new keys and timeouts are left out.
-/

namespace Sshd4a

open Text Fallible

def minPacketLen : Nat := 16

def packetPaddingOff : Nat := 4

def packetPayloadOff : Nat := 5

def initReadbuf : Nat := 128

def recvMaxPayloadLen : Nat := 131072

def recvMaxPacketLen : Nat := max 35000 (recvMaxPayloadLen + 100)

def zlibCompressExpansion : Nat := (recvMaxPayloadLen / 16384 + 1) * 5 + 6

/-- `MAX_CHANNELS` -/
def maxDeferReplyQueue : Nat := 1000

def maxMacLen : Nat := 64

def sshMsgServiceRequest : UInt8 := 5

def sshMsgServiceAccept : UInt8 := 6

def sshMsgKexinit : UInt8 := 20

def sshMsgNewkeys : UInt8 := 21

def sshMsgUserauthRequest : UInt8 := 50

/-- `struct dropbear_cipher_mode`: a mode with `aead_crypt` does not use `encrypt` and `decrypt`.
    `none` is any answer but `CRYPT_OK`. -/
inductive CipherMode (σ : Type)
  | plain (encrypt decrypt : σ → Bytes → Option (Bytes × σ))
  | aead (getlength : σ → Nat → Bytes → Option Nat)
      (encrypt decrypt : σ → Nat → Bytes → Option (Bytes × σ))

def CipherMode.isAead {σ : Type} : CipherMode σ → Bool
  | .plain .. => false
  | .aead .. => true

/-- `DROPBEAR_COMP_NONE`, `DROPBEAR_COMP_ZLIB`, `DROPBEAR_COMP_ZLIB_DELAY`. -/
inductive AlgoComp
  | none
  | zlib
  | zlibDelay
deriving DecidableEq, Repr

/-- What `deflate` or `inflate` leaves when it answers `Z_OK`. -/
structure ZResult where
  out : Bytes
  availIn : Nat

/-- A `zstream`: what it makes of an input and the room for the output, after the inputs before. It
    is `none` for any answer but `Z_OK`. -/
structure Zstream where
  run : List Bytes → Bytes → Nat → Option ZResult := fun _ _ _ => none
  inputs : List Bytes := []

/-- `struct key_context_directional`: cipher, mode, MAC, compression and the states of the two. -/
structure KeyContext (σ : Type) where
  blocksize : Nat
  hashsize : Nat
  mode : CipherMode σ
  hmac : Bytes → Bytes
  cipherState : σ
  algoComp : AlgoComp := .none
  zstream : Zstream := {}

/-- The sending half of `ses`. -/
structure Trans (σ : Type) where
  keys : KeyContext σ
  transseq : Nat := 0
  writequeue : List Buf := []
  writequeueLen : Nat := 0
  dataallowed : Bool := true
  replyQueue : List Bytes := []
  authdone : Bool := false

/-- The receiving half of `ses`. -/
structure Recv (σ : Type) where
  keys : KeyContext σ
  recvseq : Nat := 0
  readbuf : Option Buf := none
  authdone : Bool := false

variable {σ : Type}

/-! ## Compression -/

/-- Delayed compression begins when authentication is done. -/
def isCompress (authdone : Bool) (keys : KeyContext σ) : Bool :=
  keys.algoComp == .zlib || (authdone && keys.algoComp == .zlibDelay)

def isCompressTrans (ses : Trans σ) : Bool := isCompress ses.authdone ses.keys

def isCompressRecv (ses : Recv σ) : Bool := isCompress ses.authdone ses.keys

def Zstream.feed (zstream : Zstream) (input : Bytes) : Zstream :=
  { zstream with inputs := zstream.inputs ++ [input] }

/-- `buf_compress`, of the whole payload into the rest of `dest`. -/
def bufCompress (keys : KeyContext σ) (dest : Buf) (src : Bytes) :
    Except PacketExit (Buf × KeyContext σ) :=
  if dest.size - dest.pos < src.length + zlibCompressExpansion then .error .failedAssertion
  else do
    dest.getwriteptr (dest.size - dest.pos)
    match keys.zstream.run keys.zstream.inputs src (dest.size - dest.pos) with
    | none => throw .zlibError
    | some result =>
      let start := dest.pos
      let dest ← dest.store result.out
      let dest ← dest.setlen (start + result.out.length)
      let dest ← dest.setpos dest.len
      if result.availIn ≠ 0 then throw .failedAssertion
      return (dest, { keys with zstream := keys.zstream.feed src })

/-- `buf_decompress`, of the next `len` bytes. -/
def bufDecompress (keys : KeyContext σ) (buf : Buf) (len : Nat) :
    Except PacketExit (Buf × KeyContext σ) := do
  let ret ← Buf.new (recvMaxPayloadLen + 1)
  let input ← buf.getptr len
  match keys.zstream.run keys.zstream.inputs input ret.size with
  | none => throw .zlibError
  | some result =>
    let ret ← ret.store result.out
    let ret ← ret.setlen result.out.length
    if 0 < result.availIn ∨ recvMaxPayloadLen < ret.len then throw .oversizedDecompressed
    return (ret, { keys with zstream := keys.zstream.feed input })

/-! ## Sending -/

/-- Packets that may be sent during a key exchange. -/
def packetIsOkayKex (type : UInt8) : Bool :=
  if sshMsgUserauthRequest ≤ type then false
  else if type = sshMsgServiceRequest ∨ type = sshMsgServiceAccept then false
  else if type = sshMsgKexinit then false
  else true

def enqueueReplyPacket (ses : Trans σ) (writepayload : Bytes) : Except PacketExit (Trans σ) :=
  if maxDeferReplyQueue < ses.replyQueue.length then .error .fullReplyQueue
  else .ok { ses with replyQueue := ses.replyQueue ++ [writepayload] }

/-- `padlen`, an `unsigned char`, for `len` bytes of length fields and payload. -/
def paddingLen (keys : KeyContext σ) (writebufLen : Nat) : Nat :=
  let len := if keys.mode.isAead then writebufLen - 4 else writebufLen
  let padlen := keys.blocksize - len % keys.blocksize
  let padlen := if padlen < 4 then padlen + keys.blocksize else padlen
  (if writebufLen + padlen < minPacketLen then padlen + keys.blocksize else padlen) % 256

/-- The payload behind the place for the two lengths, compressed or as it is. -/
def putPayload (compress : Bool) (keys : KeyContext σ) (writepayload : Bytes) :
    Except PacketExit (Buf × KeyContext σ) := do
  let encryptBufSize := (writepayload.length + 4 + 1) + max minPacketLen keys.blocksize + 3
    + keys.hashsize + zlibCompressExpansion + 1
  let writebuf ← Buf.new encryptBufSize
  let writebuf ← writebuf.setlen packetPayloadOff
  let writebuf ← writebuf.setpos packetPayloadOff
  if compress then bufCompress keys writebuf writepayload
  else do
    let writebuf ← writebuf.putbytes writepayload
    return (writebuf, keys)

/-- The length without its own four bytes, and that of the padding. -/
def putLengths (padlen : Nat) (writebuf : Buf) : Except PacketExit Buf := do
  let writebuf ← writebuf.setpos 0
  let writebuf ← writebuf.putint (writebuf.len + padlen - 4)
  writebuf.putbyte (UInt8.ofNat padlen)

/-- `genrandom(buf_getptr(writebuf, padlen), padlen)` -/
def putPadding (random : Nat → UInt8) (padlen : Nat) (writebuf : Buf) : Except PacketExit Buf := do
  let writebuf ← writebuf.setpos writebuf.len
  let writebuf ← writebuf.incrlen padlen
  let _ ← writebuf.getptr padlen
  writebuf.store ((List.range padlen).map random)

/-- `encrypt_packet` up to the padding. -/
def layoutPacket (compress : Bool) (keys : KeyContext σ) (random : Nat → UInt8)
    (writepayload : Bytes) : Except PacketExit (Buf × KeyContext σ) := do
  let (writebuf, keys) ← putPayload compress keys writepayload
  let padlen := paddingLen keys writebuf.len
  let writebuf ← putLengths padlen writebuf
  let writebuf ← putPadding random padlen writebuf
  return (writebuf, keys)

/-- The first `hashsize` bytes of the HMAC of the sequence number and the clear text. -/
def makeMac (seqno : Nat) (keys : KeyContext σ) (clearBuf : Buf) (clearLen : Nat) :
    Except PacketExit Bytes :=
  if 0 < keys.hashsize then do
    let clearBuf ← clearBuf.setpos 0
    let clear ← clearBuf.getptr clearLen
    return (keys.hmac (store32h seqno ++ clear)).take keys.hashsize
  else return []

/-- `encrypt_packet` from the padding on. -/
def sealPacket (keys : KeyContext σ) (transseq : Nat) (writebuf : Buf) :
    Except PacketExit (Buf × KeyContext σ) :=
  match keys.mode with
  | .aead _ encrypt _ => do
    let writebuf ← writebuf.setpos 0
    let len := writebuf.len
    let writebuf ← writebuf.incrlen keys.hashsize
    let clear ← writebuf.getptr len
    writebuf.getwriteptr (len + keys.hashsize)
    match encrypt keys.cipherState transseq clear with
    | none => throw .errorEncrypting
    | some (cipher, state) =>
      let writebuf ← writebuf.store cipher
      let writebuf ← writebuf.incrpos (len + keys.hashsize)
      return (writebuf, { keys with cipherState := state })
  | .plain encrypt _ => do
    let macBytes ← makeMac transseq keys writebuf writebuf.len
    let writebuf ← writebuf.setpos 0
    let len := writebuf.len
    let clear ← writebuf.getptr len
    writebuf.getwriteptr len
    match encrypt keys.cipherState clear with
    | none => throw .errorEncrypting
    | some (cipher, state) =>
      let writebuf ← writebuf.store cipher
      let writebuf ← writebuf.incrpos len
      let writebuf ← writebuf.putbytes macBytes
      return (writebuf, { keys with cipherState := state })

def writebufEnqueue (ses : Trans σ) (writebuf : Buf) : Except PacketExit (Trans σ) := do
  let writebuf ← writebuf.setpos 0
  return { ses with
    writequeue := ses.writequeue ++ [writebuf]
    writequeueLen := (ses.writequeueLen + writebuf.len) % 0x100000000 }

def encryptPacket (random : Nat → UInt8) (ses : Trans σ) (writepayload : Bytes) :
    Except PacketExit (Trans σ) :=
  match writepayload with
  | [] => .error .badBufGetbyte
  | packetType :: _ =>
    if !ses.dataallowed && !packetIsOkayKex packetType then enqueueReplyPacket ses writepayload
    else do
      let (writebuf, keys) ← layoutPacket (isCompressTrans ses) ses.keys random writepayload
      let (writebuf, keys) ← sealPacket keys ses.transseq writebuf
      writebufEnqueue { ses with keys := keys, transseq := (ses.transseq + 1) % 0x100000000 } writebuf

/-- The loop of `maybe_flush_reply_queue`. -/
def flushReplies (random : Nat → UInt8) : Trans σ → List Bytes → Except PacketExit (Trans σ)
  | ses, [] => .ok ses
  | ses, payload :: rest => do
    let ses ← encryptPacket random ses payload
    flushReplies random ses rest

def maybeFlushReplyQueue (random : Nat → UInt8) (ses : Trans σ) : Except PacketExit (Trans σ) :=
  if ses.dataallowed then do
    let ses' ← flushReplies random ses ses.replyQueue
    return { ses' with replyQueue := [] }
  else .ok ses

/-- What a `writev` answers: that it took so many bytes, `EAGAIN`, or another error. -/
inductive SockWrite
  | wrote (n : Nat)
  | again
  | failed
deriving DecidableEq, Repr

/-- `packet_queue_to_iovec`: at most 50 buffers, each with something left to write. -/
def packetQueueToIovec (queue : List Buf) : Except PacketExit (List Bytes) :=
  (queue.take 50).mapM fun writebuf =>
    let len := writebuf.len - writebuf.pos
    if 0 < len then writebuf.getptr len else .error .failedAssertion

def packetQueueConsume : List Buf → Nat → Except PacketExit (List Buf)
  | queue, 0 => .ok queue
  | [], _ + 1 => .error .failedAssertion
  | writebuf :: rest, written + 1 =>
    let len := writebuf.len - writebuf.pos
    if written + 1 < len then do
      let writebuf ← writebuf.incrpos (written + 1)
      return writebuf :: rest
    else packetQueueConsume rest (written + 1 - len)

/-- `write_packet`: what the socket took, and what is left. -/
def writePacket (ses : Trans σ) (result : SockWrite) : Except PacketExit (Bytes × Trans σ) :=
  if ses.writequeue = [] then .error .failedAssertion
  else do
    let iov ← packetQueueToIovec ses.writequeue
    match result with
    | .again => return ([], ses)
    | .failed => throw .errorWriting
    | .wrote n =>
      let written := min n iov.flatten.length
      let writequeue ← packetQueueConsume ses.writequeue written
      if written = 0 then throw .remoteClosed
      return (iov.flatten.take written, { ses with
        writequeue := writequeue
        writequeueLen := (ses.writequeueLen + (0x100000000 - written % 0x100000000)) % 0x100000000 })

/-! ## Receiving -/

/-- What the next `read` will do: give at most so many bytes of what has arrived, find the
    connection closed, or fail. -/
inductive SockAnswer
  | upTo (n : Nat)
  | closed
  | failed
deriving DecidableEq, Repr

structure Sock where
  arrived : Bytes
  answers : List SockAnswer

/-- `read(ses.sock_in, .., maxlen)`; no bytes is `EAGAIN`. -/
def Sock.read (sock : Sock) (maxlen : Nat) : Except PacketExit (Option Bytes × Sock) :=
  match sock.answers with
  | [] => .ok (none, sock)
  | .closed :: _ => .error .remoteClosed
  | .failed :: _ => .error .errorReading
  | .upTo n :: answers =>
    let bytes := sock.arrived.take (min n maxlen)
    .ok (if bytes = [] then none else some bytes,
      { arrived := sock.arrived.drop (min n maxlen), answers := answers })

/-- `plen` and `len` of `read_packet_init`, with the first block decrypted unless the mode is AEAD.
    The sums are those of `unsigned int`. -/
def readLength (keys : KeyContext σ) (recvseq : Nat) (readbuf : Buf) :
    Except PacketExit (Nat × Nat × Buf × KeyContext σ) :=
  match keys.mode with
  | .aead getlength _ _ => do
    let block ← readbuf.getptr keys.blocksize
    match getlength keys.cipherState recvseq block with
    | none => throw .errorDecrypting
    | some plen => return (plen, (plen + 4 + keys.hashsize) % 0x100000000, readbuf, keys)
  | .plain _ decrypt => do
    let block ← readbuf.getptr keys.blocksize
    readbuf.getwriteptr keys.blocksize
    match decrypt keys.cipherState block with
    | none => throw .errorDecrypting
    | some (clear, state) =>
      let readbuf ← readbuf.store clear
      let (n, readbuf) ← readbuf.getint
      let plen := (n + 4) % 0x100000000
      return (plen, (plen + keys.hashsize) % 0x100000000, readbuf,
        { keys with cipherState := state })

/-- The buffer of a new packet. -/
def startReadbuf : Option Buf → Except PacketExit Buf
  | none => Buf.new initReadbuf
  | some readbuf => .ok readbuf

/-- `read_packet_init` once the first block is complete. -/
def expectPacket (keys : KeyContext σ) (recvseq : Nat) (readbuf : Buf) :
    Except PacketExit (Buf × KeyContext σ) := do
  let readbuf ← readbuf.setpos 0
  let (plen, len, readbuf, keys) ← readLength keys recvseq readbuf
  if recvMaxPacketLen < len ∨ recvMaxPacketLen < plen ∨ plen < keys.blocksize
      ∨ plen % keys.blocksize ≠ 0 then
    throw (.integrityErrorBadPacketSize plen)
  let readbuf ← (if readbuf.size < len then readbuf.resize len else .ok readbuf)
  let readbuf ← readbuf.setlen len
  let readbuf ← readbuf.setpos keys.blocksize
  return (readbuf, keys)

/-- Whether `DROPBEAR_SUCCESS`: the length is known. -/
def readPacketInit (ses : Recv σ) (sock : Sock) :
    Except PacketExit (Bool × Buf × KeyContext σ × Sock) := do
  let readbuf ← startReadbuf ses.readbuf
  let maxlen := ses.keys.blocksize - readbuf.pos
  readbuf.getwriteptr maxlen
  let (answer, sock) ← sock.read maxlen
  match answer with
  | none => return (false, readbuf, ses.keys, sock)
  | some bytes =>
    let readbuf ← readbuf.store bytes
    let readbuf ← readbuf.incrwritepos bytes.length
    if bytes.length ≠ maxlen then return (false, readbuf, ses.keys, sock)
    else
      let (readbuf, keys) ← expectPacket ses.keys ses.recvseq readbuf
      return (true, readbuf, keys, sock)

/-- Whether the MAC at the end is that of the contents. -/
def checkmac (keys : KeyContext σ) (recvseq : Nat) (readbuf : Buf) : Except PacketExit Bool := do
  let contentsLen := readbuf.len - keys.hashsize
  let readbuf ← readbuf.setpos 0
  let macBytes ← makeMac recvseq keys readbuf contentsLen
  let readbuf ← readbuf.setpos contentsLen
  let received ← readbuf.getptr keys.hashsize
  return macBytes = received

/-- `decrypt_packet` up to the padding. -/
def openPacket (keys : KeyContext σ) (recvseq : Nat) (readbuf : Buf) :
    Except PacketExit (Buf × KeyContext σ) :=
  match keys.mode with
  | .aead _ _ decrypt => do
    let readbuf ← readbuf.setpos 0
    let len := readbuf.len - keys.hashsize - readbuf.pos
    let cipher ← readbuf.getptr (len + keys.hashsize)
    readbuf.getwriteptr len
    match decrypt keys.cipherState recvseq cipher with
    | none => throw .errorDecrypting
    | some (clear, state) =>
      let readbuf ← readbuf.store clear
      let readbuf ← readbuf.incrpos len
      return (readbuf, { keys with cipherState := state })
  | .plain _ decrypt => do
    let readbuf ← readbuf.setpos keys.blocksize
    let len := readbuf.len - keys.hashsize - readbuf.pos
    let cipher ← readbuf.getptr len
    readbuf.getwriteptr len
    match decrypt keys.cipherState cipher with
    | none => throw .errorDecrypting
    | some (clear, state) =>
      let readbuf ← readbuf.store clear
      let readbuf ← readbuf.incrpos len
      let good ← checkmac keys recvseq readbuf
      if !good then throw .integrityError
      return (readbuf, { keys with cipherState := state })

/-- The length of the payload, in `unsigned int`: a padding that is longer than the packet gives a
    very large one. -/
def payloadLen (len padlen macsize : Nat) : Nat :=
  (len + 0x100000000 - (padlen + 4 + 1 + macsize)) % 0x100000000

/-- The payload, `ses.payload`. -/
def decryptPacket (compress : Bool) (keys : KeyContext σ) (recvseq : Nat) (readbuf : Buf) :
    Except PacketExit (Buf × KeyContext σ) := do
  let (readbuf, keys) ← openPacket keys recvseq readbuf
  let readbuf ← readbuf.setpos packetPaddingOff
  let (padlen, readbuf) ← readbuf.getbyte
  let len := payloadLen readbuf.len padlen.toNat keys.hashsize
  if recvMaxPayloadLen + zlibCompressExpansion < len ∨ len < 1 then throw (.badPacketSize len)
  let readbuf ← readbuf.setpos packetPayloadOff
  if compress then do
    let (payload, keys) ← bufDecompress keys readbuf len
    let payload ← payload.setpos 0
    return (payload, keys)
  else do
    let payload ← readbuf.setlen (readbuf.pos + len)
    return (payload, keys)

/-- `read_packet` once the length is known. -/
def readRest (ses : Recv σ) (readbuf : Buf) (sock : Sock) :
    Except PacketExit (Option Buf × Recv σ × Sock) := do
  let maxlen := readbuf.len - readbuf.pos
  let (bytes, readbuf, sock) ←
    if maxlen = 0 then pure (some [], readbuf, sock)
    else do
      let _ ← readbuf.getptr maxlen
      let (answer, sock) ← sock.read maxlen
      match answer with
      | none => pure (none, readbuf, sock)
      | some bytes =>
        let readbuf ← readbuf.store bytes
        let readbuf ← readbuf.incrpos bytes.length
        pure (some bytes, readbuf, sock)
  if bytes.map List.length = some maxlen then do
    let (payload, keys) ← decryptPacket (isCompressRecv ses) ses.keys ses.recvseq readbuf
    return (some payload,
      { ses with keys := keys, recvseq := (ses.recvseq + 1) % 0x100000000, readbuf := none }, sock)
  else return (none, { ses with readbuf := some readbuf }, sock)

/-- `read_packet`, with the payload if the packet is complete. -/
def readPacket (ses : Recv σ) (sock : Sock) : Except PacketExit (Option Buf × Recv σ × Sock) :=
  match ses.readbuf.filter (ses.keys.blocksize ≤ ·.len) with
  | some readbuf => readRest ses readbuf sock
  | none => do
    let (ready, readbuf, keys, sock) ← readPacketInit ses sock
    let ses := { ses with keys := keys, readbuf := some readbuf }
    if ready then readRest ses readbuf sock else return (none, ses, sock)

end Sshd4a
