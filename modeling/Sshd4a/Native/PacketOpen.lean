import Sshd4a.Native.PacketSeal

/-!
# What is received of a packet

A receiver is in one of three places with a packet: it has less than a block of it (`Filling`), it
knows the length and waits for the rest (`Waiting`), or it has all of it and hands out the payload.
`readPacket_spec` is the step between them: whatever part of the packet a call gets to read, the
receiver does not exit, and it moves on by just what it read.

Between the first block and the end of a packet the receiver's cipher state is not that of either
end of the packet. `Begun` keeps what matters of it: once the rest is there, `decrypt_packet` gives
the payload and the keys the sender has.
-/

namespace Sshd4a

open Text Fallible

variable {σ : Type} {keys keys' recvKeys : KeyContext σ} {payload clear wire first got : Bytes}
  {seq c : Nat} {recv : Recv σ} {sock : Sock}

/-- What is left to read in a buffer: for `ses.payload` the payload. -/
def Buf.unread (buf : Buf) : Bytes := buf.contents.drop buf.pos

/-- The first block is in, with `first` for it in the buffer. -/
structure Begun (keys : KeyContext σ) (seq : Nat) (payload wire : Bytes) (keys' : KeyContext σ)
    (first : Bytes) (recvKeys : KeyContext σ) : Prop where
  block : recvKeys.blocksize = keys.blocksize
  comp : recvKeys.algoComp = .none
  length : first.length = keys.blocksize
  decrypts : ∀ {buf : Buf} {pos size : Nat},
    buf.Shows (first ++ wire.drop keys.blocksize) pos size →
      ∃ out, decryptPacket false recvKeys seq buf = .ok (out, keys') ∧ out.unread = payload

theorem Begun.not_compress (h : Begun keys seq payload wire keys' first recv.keys) :
    isCompressRecv recv = false := by
  rw [isCompressRecv, isCompress, h.comp]
  cases recv.authdone <;> rfl

/-! ## Opening a packet -/

theorem Layout.announced (h : Layout keys payload clear) : load32h (clear.take 4) + 4 = clear.length := by
  obtain ⟨padding, hclear, hpad⟩ := h.shape
  have hmost := h.length_le
  have hlength : clear.length = 5 + payload.length + padding.length := by
    rw [hclear, List.length_append, Buf.length_store32h, List.length_cons, List.length_append]
    omega
  rw [hlength, hclear, List.take_left' (Buf.length_store32h _), Buf.load32h_store32h (by omega)]
  omega

/-- The end of `decrypt_packet`. -/
theorem decryptPacket_of_open (hlayout : Layout keys payload clear) {buf buf' : Buf} {tail : Bytes}
    {pos size : Nat} (hopen : openPacket recvKeys seq buf = .ok (buf', keys'))
    (h : buf'.Shows (clear ++ tail) pos size) (htail : tail.length = keys'.hashsize) :
    ∃ out, decryptPacket false recvKeys seq buf = .ok (out, keys') ∧ out.unread = payload := by
  obtain ⟨padding, hclear, hpad⟩ := hlayout.shape
  have hmost := hlayout.length_le
  have hpayload := hlayout.payload_pos
  have hlength : clear.length = 5 + payload.length + padding.length := by
    rw [hclear, List.length_append, Buf.length_store32h, List.length_cons, List.length_append]
    omega
  have hbehind : (clear ++ tail).drop 4
      = UInt8.ofNat padding.length :: (payload ++ padding ++ tail) := by
    rw [hclear, List.append_assoc, List.drop_left' (Buf.length_store32h _), List.cons_append]
  have hstart : (clear ++ tail).drop 5 = payload ++ padding ++ tail := by
    rw [← List.drop_drop (i := 1) (j := 4), hbehind]
    rfl
  have hall : (clear ++ tail).length = clear.length + keys'.hashsize := by
    rw [List.length_append, htail]
  obtain ⟨buf₁, hpos₁, h₁⟩ := h.setpos (n := packetPaddingOff) (by
    simp only [packetPaddingOff]
    omega)
  obtain ⟨buf₂, hbyte, h₂⟩ := h₁.getbyte hbehind
  obtain ⟨buf₃, hpos₃, h₃⟩ := h₂.setpos (n := packetPayloadOff) (by
    simp only [packetPayloadOff]
    omega)
  have hlen : payloadLen buf₂.len (UInt8.ofNat padding.length).toNat keys'.hashsize
      = payload.length := by
    rw [payloadLen, h₂.len, hall, UInt8.toNat_ofNat', Nat.mod_eq_of_lt hpad]
    omega
  obtain ⟨buf₄, hsetlen, h₄⟩ := h₃.setlen_shrink (n := buf₃.pos + payload.length)
    (by rw [h₃.pos, packetPayloadOff]; omega) (by rw [h₃.pos]; exact Nat.le_add_right _ _)
  refine ⟨buf₄, ?_, ?_⟩
  · have hmax : recvMaxPayloadLen = 131072 := rfl
    rw [decryptPacket, hopen, ok_bind]
    dsimp only
    rw [hpos₁, ok_bind, hbyte, ok_bind]
    dsimp only
    rw [if_neg (by rw [hlen]; omega), hpos₃, ok_bind, if_neg (by simp), hlen, hsetlen]
    rfl
  · rw [Buf.unread, h₄.contents, h₄.pos, h₃.pos, packetPayloadOff, List.drop_take,
      Nat.add_sub_cancel_left, hstart, List.append_assoc, List.take_left]

/-- The first block was decrypted alone; the rest follows, and the MAC is that of the whole. -/
theorem begun_plain (seq : Nat) (hkeys : keys.Lawful) (hlayout : Layout keys payload clear)
    {encrypt decrypt : σ → Bytes → Option (Bytes × σ)} (hmode : keys.mode = .plain encrypt decrypt)
    {cipher : Bytes} (hlength : cipher.length = clear.length) {mid state : σ}
    (hrest : decrypt mid (cipher.drop keys.blocksize) = some (clear.drop keys.blocksize, state)) :
    Begun keys seq payload (cipher ++ macOf keys seq clear) { keys with cipherState := state }
      (clear.take keys.blocksize) { keys with cipherState := mid } := by
  have hmost := hlayout.length_le
  have hleast : 16 ≤ clear.length := hlayout.least
  have hincr : bufMaxIncr = 1000000000 := rfl
  have hlong : keys.blocksize ≤ clear.length := by
    rcases hkeys.block with hb | hb <;> omega
  have hmac : (macOf keys seq clear).length = keys.hashsize :=
    length_macOf hkeys (by rw [hmode]; rfl)
  have hfirst : (clear.take keys.blocksize).length = keys.blocksize := by
    rw [List.length_take]
    exact Nat.min_eq_left hlong
  have hhash : keys.hashsize ≤ 64 := hkeys.hash
  refine ⟨rfl, hkeys.comp, hfirst, ?_⟩
  intro buf pos size h
  rw [List.drop_append_of_le_length (by omega)] at h
  have hdrop : (cipher.drop keys.blocksize).length = clear.length - keys.blocksize := by
    rw [List.length_drop, hlength]
  have hall : (clear.take keys.blocksize
      ++ (cipher.drop keys.blocksize ++ macOf keys seq clear)).length
      = clear.length + keys.hashsize := by
    rw [List.length_append, List.length_append, hfirst, hdrop, hmac]
    omega
  obtain ⟨buf₁, hpos₁, h₁⟩ := h.setpos (n := keys.blocksize) (by omega)
  have hlen : buf₁.len - keys.hashsize - buf₁.pos = clear.length - keys.blocksize := by
    rw [h₁.len, h₁.pos, hall, Nat.add_sub_cancel]
  have hcipher : buf₁.getptr (clear.length - keys.blocksize) = .ok (cipher.drop keys.blocksize) := by
    rw [h₁.getptr (by omega) (by omega), List.drop_left' hfirst, List.take_left' hdrop]
  obtain ⟨buf₂, hstore, h₂⟩ := h₁.store (clear.drop keys.blocksize) (by
    rw [List.length_drop]
    omega)
  rw [Ring.overwrite_middle hfirst (by rw [hdrop, List.length_drop]), ← List.append_assoc,
    List.take_append_drop] at h₂
  have hlen₂ : (clear ++ macOf keys seq clear).length = clear.length + keys.hashsize := by
    rw [List.length_append, hmac]
  obtain ⟨buf₃, hincrpos, h₃⟩ := h₂.incrpos (n := clear.length - keys.blocksize) (by omega) (by omega)
  obtain ⟨buf₄, hpos₄, h₄⟩ := h₃.setpos (n := 0) (Nat.zero_le _)
  have hcontents : buf₃.len - keys.hashsize = clear.length := by
    rw [h₃.len, hlen₂, Nat.add_sub_cancel]
  obtain ⟨buf₅, hpos₅, h₅⟩ := h₄.setpos (n := clear.length) (by omega)
  have hmake : makeMac seq { keys with cipherState := mid } buf₄ clear.length
      = .ok (macOf keys seq clear) := by
    rw [makeMac_spec h₄ (by omega) (by omega), List.take_left]
    rfl
  have hreceived : buf₅.getptr keys.hashsize = .ok (macOf keys seq clear) := by
    rw [h₅.getptr (by omega) (by omega), List.drop_left, List.take_of_length_le (Nat.le_of_eq hmac)]
  have hcheck : checkmac { keys with cipherState := mid } seq buf₃ = .ok true := by
    simp only [checkmac, hcontents, hpos₄, ok_bind, hmake, hpos₅, hreceived]
    simp
  have hfits := h₁.len_le
  have hwriteptr := h₁.getwriteptr (n := clear.length - keys.blocksize) (by omega) (by omega)
  have hopen : openPacket { keys with cipherState := mid } seq buf
      = .ok (buf₃, { keys with cipherState := state }) := by
    rw [hmode] at hcheck
    simp only [openPacket, hmode, hpos₁, ok_bind, hlen, hcipher, hwriteptr, hrest, hstore, hincrpos,
      hcheck]
    rfl
  exact decryptPacket_of_open hlayout hopen h₃ hmac

/-- With AEAD the first block is as it came. -/
theorem begun_aead (hkeys : keys.Lawful) (hlayout : Layout keys payload clear)
    {getlength : σ → Nat → Bytes → Option Nat}
    {encrypt decrypt : σ → Nat → Bytes → Option (Bytes × σ)}
    (hmode : keys.mode = .aead getlength encrypt decrypt)
    (hlength : wire.length = clear.length + keys.hashsize) {state : σ}
    (hall : decrypt keys.cipherState seq wire = some (clear, state)) :
    Begun keys seq payload wire { keys with cipherState := state } (wire.take keys.blocksize) keys := by
  have hmost := hlayout.length_le
  have hleast : 16 ≤ clear.length := hlayout.least
  have hincr : bufMaxIncr = 1000000000 := rfl
  have hhash : keys.hashsize ≤ 64 := hkeys.hash
  have hfirst : (wire.take keys.blocksize).length = keys.blocksize := by
    rw [List.length_take]
    rcases hkeys.block with hb | hb <;> omega
  refine ⟨rfl, hkeys.comp, hfirst, ?_⟩
  intro buf pos size h
  rw [List.take_append_drop] at h
  have hfits := h.len_le
  obtain ⟨buf₁, hpos₁, h₁⟩ := h.setpos (n := 0) (Nat.zero_le _)
  have hlen : buf₁.len - keys.hashsize - buf₁.pos = clear.length := by
    rw [h₁.len, h₁.pos, hlength, Nat.add_sub_cancel, Nat.sub_zero]
  have hcipher : buf₁.getptr (clear.length + keys.hashsize) = .ok wire := by
    rw [h₁.getptr (by omega) (by omega), List.drop_zero, ← hlength, List.take_length]
  obtain ⟨buf₂, hstore, h₂⟩ := h₁.store clear (by omega)
  have hparts : wire = wire.take clear.length ++ wire.drop clear.length :=
    (List.take_append_drop _ _).symm
  rw [hparts, Ring.overwrite_start (by rw [List.length_take]; omega)] at h₂
  have htail : (wire.drop clear.length).length = keys.hashsize := by
    rw [List.length_drop, hlength, Nat.add_sub_cancel_left]
  obtain ⟨buf₃, hincrpos, h₃⟩ := h₂.incrpos (n := clear.length) (by omega)
    (by rw [List.length_append]; omega)
  have hwriteptr := h₁.getwriteptr (n := clear.length) (by omega) (by omega)
  have hopen : openPacket keys seq buf = .ok (buf₃, { keys with cipherState := state }) := by
    simp only [openPacket, hmode, hpos₁, ok_bind, hlen, hcipher, hwriteptr, hall, hstore, hincrpos]
    rfl
  exact decryptPacket_of_open hlayout hopen h₃ htail

/-- A packet has at least a block and is far below the limit. -/
theorem Carries.lengths (h : Carries keys seq payload wire keys') :
    keys.blocksize ≤ wire.length ∧ wire.length ≤ 30000 := by
  obtain ⟨clear, state, hlayout, hopens, -⟩ := h.opens
  have hmost := hlayout.length_le
  have hleast : 16 ≤ clear.length := hlayout.least
  have hhash : keys.hashsize ≤ 64 := h.lawful.hash
  have hlen : wire.length = clear.length + keys.hashsize := by
    cases hopens with
    | plain hmode hwire hlength _ _ =>
      rw [hwire, List.length_append, hlength, length_macOf h.lawful (by rw [hmode]; rfl)]
    | aead _ hlength _ _ => exact hlength
  rcases h.lawful.block with hb | hb <;> omega

theorem Carries.block_le (h : Carries keys seq payload wire keys') : keys.blocksize ≤ wire.length :=
  h.lengths.1

theorem Carries.length_le (h : Carries keys seq payload wire keys') : wire.length ≤ 30000 :=
  h.lengths.2

/-- **The first block of a packet**: it tells the length, and the length passes the checks. -/
theorem Carries.readLength (h : Carries keys seq payload wire keys') {buf : Buf}
    (hbuf : buf.Shows (wire.take keys.blocksize) 0 initReadbuf) :
    ∃ plen buf' pos first recvKeys,
      readLength keys seq buf = .ok (plen, wire.length, buf', recvKeys) ∧
      buf'.Shows first pos initReadbuf ∧ Begun keys seq payload wire keys' first recvKeys ∧
      wire.length ≤ 30000 ∧ keys.blocksize ≤ wire.length ∧ plen ≤ recvMaxPacketLen ∧
      keys.blocksize ≤ plen ∧ plen % keys.blocksize = 0 := by
  obtain ⟨clear, state, hlayout, hopens, rfl⟩ := h.opens
  have hmost := hlayout.length_le
  have hleast : 16 ≤ clear.length := hlayout.least
  have hblocks := hlayout.blocks
  have hannounced := hlayout.announced
  have hhash : keys.hashsize ≤ 64 := h.lawful.hash
  have hsmall : keys.blocksize ≤ 16 := by rcases h.lawful.block with hb | hb <;> omega
  have hincr : bufMaxIncr = 1000000000 := rfl
  have hmax : 30000 ≤ recvMaxPacketLen := by decide
  have hfirst : (wire.take keys.blocksize).length = keys.blocksize →
      buf.getptr keys.blocksize = .ok (wire.take keys.blocksize) := by
    intro hlen
    rw [hbuf.getptr (by omega) (by omega), List.drop_zero, List.take_take, Nat.min_self]
  cases hopens with
  | @plain encrypt decrypt cipher mid hmode hwire hlength hdecrypt hrest =>
    have hmac : (macOf keys seq clear).length = keys.hashsize :=
      length_macOf h.lawful (by rw [hmode]; rfl)
    rw [hmode, CipherMode.isAead, if_neg (by simp)] at hblocks
    have hlen : wire.length = clear.length + keys.hashsize := by
      rw [hwire, List.length_append, hlength, hmac]
    have hblock : (wire.take keys.blocksize).length = keys.blocksize := by
      rw [List.length_take]
      omega
    have htake : wire.take keys.blocksize = cipher.take keys.blocksize := by
      rw [hwire, List.take_append_of_le_length (by omega)]
    have hclear : (clear.take keys.blocksize).length = keys.blocksize := by
      rw [List.length_take]
      omega
    obtain ⟨buf₁, hstore, h₁⟩ := hbuf.store (clear.take keys.blocksize) (by omega)
    rw [Ring.overwrite_all (by rw [hblock, hclear])] at h₁
    obtain ⟨buf₂, hgetint, h₂⟩ := h₁.getint (by rcases h.lawful.block with hb | hb <;> omega)
    have hfour : (clear.take keys.blocksize).take 4 = clear.take 4 := by
      rw [List.take_take]
      congr 1
      rcases h.lawful.block with hb | hb <;> omega
    have hbegun := begun_plain seq h.lawful hlayout hmode hlength hrest
    rw [← hwire] at hbegun
    refine ⟨clear.length, buf₂, _, _, { keys with cipherState := mid }, ?_, h₂, hbegun, by omega,
      by omega, by omega, by omega, hblocks⟩
    have hwriteptr := hbuf.getwriteptr (n := keys.blocksize) (by omega)
      (by simp only [initReadbuf]; omega)
    have hplen : (load32h (clear.take 4) + 4) % 0x100000000 = clear.length := by omega
    have hall : (clear.length + keys.hashsize) % 0x100000000 = wire.length := by omega
    simp only [Sshd4a.readLength, hmode, hfirst hblock, ok_bind, hwriteptr, htake, hdecrypt, hstore,
      hgetint, List.drop_zero, hfour, hplen, hall]
    rfl
  | @aead getlength encrypt decrypt hmode hlength hannounce hdecrypt =>
    rw [hmode, CipherMode.isAead, if_pos rfl] at hblocks
    have hblock : (wire.take keys.blocksize).length = keys.blocksize := by
      rw [List.length_take]
      omega
    have hplen : keys.blocksize ≤ load32h (clear.take 4) := by
      rcases h.lawful.block with hb | hb <;> rw [hb] at hblocks <;> omega
    refine ⟨load32h (clear.take 4), buf, _, _, keys, ?_, hbuf,
      begun_aead h.lawful hlayout hmode hlength hdecrypt, by omega, by omega, by omega, hplen, ?_⟩
    · have hall : (load32h (clear.take 4) + 4 + keys.hashsize) % 0x100000000 = wire.length := by omega
      simp only [Sshd4a.readLength, hmode, hfirst hblock, ok_bind, hannounce, hall]
      rfl
    · rw [← hannounced, Nat.add_sub_cancel] at hblocks
      exact hblocks

/-! ## Reading what has arrived -/

/-- The connection is there: every `read` gives some of what has arrived, or nothing yet. -/
def Sock.Open (sock : Sock) : Prop := ∀ answer ∈ sock.answers, ∃ n, answer = .upTo n

theorem Sock.Open.read (h : sock.Open) (maxlen : Nat) :
    ∃ k sock', k ≤ maxlen ∧ k ≤ sock.arrived.length ∧
      sock.read maxlen = .ok (if k = 0 then none else some (sock.arrived.take k), sock') ∧
      sock'.arrived = sock.arrived.drop k ∧ sock'.Open := by
  rw [Sock.read]
  cases hanswers : sock.answers with
  | nil => exact ⟨0, sock, Nat.zero_le _, Nat.zero_le _, rfl, rfl, h⟩
  | cons answer answers =>
    obtain ⟨n, rfl⟩ := h answer (by rw [hanswers]; exact List.mem_cons_self)
    have hopen : Sock.Open { arrived := sock.arrived.drop (min n maxlen), answers := answers } := by
      intro answer hmem
      exact h answer (by rw [hanswers]; exact List.mem_cons_of_mem _ hmem)
    refine ⟨min (min n maxlen) sock.arrived.length, _, by omega, Nat.min_le_right _ _, ?_, ?_, hopen⟩
    · dsimp only
      congr 2
      by_cases hnone : min (min n maxlen) sock.arrived.length = 0
      · rw [if_pos hnone, if_pos]
        apply List.length_eq_zero_iff.mp
        rw [List.length_take]
        exact hnone
      · rw [if_neg hnone, if_neg]
        · rw [← List.take_eq_take_min]
        · intro hnil
          apply hnone
          rw [← List.length_take, hnil]
          rfl
    · dsimp only
      rcases Nat.le_total (min n maxlen) sock.arrived.length with hle | hle
      · rw [Nat.min_eq_left hle]
      · rw [Nat.min_eq_right hle, List.drop_of_length_le hle, List.drop_length]

/-- Less than a block of a packet has been read. -/
structure Filling (keys : KeyContext σ) (seq : Nat) (got : Bytes) (recv : Recv σ) : Prop where
  keys_eq : recv.keys = keys
  seq_eq : recv.recvseq = seq
  short : got.length < keys.blocksize
  readbuf : (got = [] ∧ recv.readbuf = none) ∨
    ∃ buf, recv.readbuf = some buf ∧ buf.Shows got got.length initReadbuf

/-- The length is known, and `c` bytes have been read. -/
structure Waiting (keys : KeyContext σ) (seq : Nat) (payload wire : Bytes) (keys' : KeyContext σ)
    (c : Nat) (recv : Recv σ) : Prop where
  seq_eq : recv.recvseq = seq
  block_le : keys.blocksize ≤ c
  readbuf : ∃ buf first junk size, recv.readbuf = some buf ∧
    buf.Shows (first ++ ((wire.take c).drop keys.blocksize ++ junk)) c size ∧
    junk.length = wire.length - c ∧ Begun keys seq payload wire keys' first recv.keys

/-- `c` bytes of a packet have been read, and not all. -/
structure Partly (keys : KeyContext σ) (seq : Nat) (payload wire : Bytes) (keys' : KeyContext σ)
    (c : Nat) (recv : Recv σ) : Prop where
  carries : Carries keys seq payload wire keys'
  lt : c < wire.length
  held : Filling keys seq (wire.take c) recv ∨ Waiting keys seq payload wire keys' c recv

/-- What a call of `read_packet` leaves when `c` bytes of a packet have been read: a part of it, or
    the payload. -/
inductive Reached (keys : KeyContext σ) (seq : Nat) (payload wire : Bytes) (keys' : KeyContext σ)
    (c : Nat) : Option Buf → Recv σ → Prop
  | partly {recv : Recv σ} (h : Partly keys seq payload wire keys' c recv) :
      Reached keys seq payload wire keys' c none recv
  | whole {out : Buf} {authdone : Bool} (all : c = wire.length) (unread : out.unread = payload) :
      Reached keys seq payload wire keys' c (some out)
        { keys := keys', recvseq := (seq + 1) % 0x100000000, readbuf := none, authdone := authdone }

/-- What is read of a stream that goes on with the rest of the packet. -/
theorem take_arrived {arrived tail later : Bytes} {k : Nat} (hle : k ≤ arrived.length)
    (hc : c + k ≤ wire.length) (harrived : arrived ++ tail = wire.drop c ++ later) :
    arrived.take k = (wire.drop c).take k := by
  have htake := congrArg (List.take k) harrived
  rw [List.take_append_of_le_length hle, List.take_append_of_le_length] at htake
  · exact htake
  · rw [List.length_drop]
    omega

theorem Waiting.readRest (hcarries : Carries keys seq payload wire keys') {buf : Buf}
    {junk : Bytes} {size : Nat} (hseq : recv.recvseq = seq) (hblock : keys.blocksize ≤ c)
    (hc : c ≤ wire.length)
    (hbuf : buf.Shows (first ++ ((wire.take c).drop keys.blocksize ++ junk)) c size)
    (hjunk : junk.length = wire.length - c) (hbegun : Begun keys seq payload wire keys' first recv.keys)
    (hsmall : wire.length ≤ 30000) (hsock : sock.Open) {tail later : Bytes}
    (harrived : sock.arrived ++ tail = wire.drop c ++ later) :
    ∃ k out recv' sock', Sshd4a.readRest recv buf sock = .ok (out, recv', sock') ∧
      k ≤ sock.arrived.length ∧ sock'.arrived = sock.arrived.drop k ∧
      Reached keys seq payload wire keys' (c + k) out recv' := by
  have hincr : bufMaxIncr = 1000000000 := rfl
  have hread : ((wire.take c).drop keys.blocksize).length = c - keys.blocksize := by
    rw [List.length_drop, List.length_take, Nat.min_eq_left hc]
  have hfront : (first ++ (wire.take c).drop keys.blocksize).length = c := by
    rw [List.length_append, hbegun.length, hread]
    omega
  have hlength : (first ++ ((wire.take c).drop keys.blocksize ++ junk)).length = wire.length := by
    rw [← List.append_assoc, List.length_append, hfront, hjunk]
    omega
  have hmaxlen : buf.len - buf.pos = wire.length - c := by rw [hbuf.len, hbuf.pos, hlength]
  have hplain := hbegun.not_compress
  by_cases hnone : wire.length - c = 0
  · -- the first block was all of it
    have hall : c = wire.length := by omega
    have hempty : junk = [] := List.length_eq_zero_iff.mp (by omega)
    rw [hempty, List.append_nil, hall, List.take_length] at hbuf
    obtain ⟨out, hdecrypt, hunread⟩ := hbegun.decrypts hbuf
    refine ⟨0, some out,
      { recv with keys := keys', recvseq := (seq + 1) % 0x100000000, readbuf := none }, sock, ?_,
      Nat.zero_le _, rfl, .whole hall hunread⟩
    simp only [Sshd4a.readRest, hmaxlen, hnone, if_true, pure_eq_ok, ok_bind, Option.map_some,
      List.length_nil, hseq, hplain, hdecrypt]
  · obtain ⟨k, sock', hk, hle, hanswer, harrived', hopen'⟩ := hsock.read (wire.length - c)
    have hptr := hbuf.getptr (n := wire.length - c) (by omega) (by omega)
    by_cases hzero : k = 0
    · rw [hzero] at harrived' hanswer
      refine ⟨0, none, { recv with readbuf := some buf }, sock', ?_, Nat.zero_le _, harrived',
        .partly ⟨hcarries, by omega, .inr ⟨hseq, hblock, buf, first, junk, size, rfl, hbuf, hjunk,
          hbegun⟩⟩⟩
      simp only [Sshd4a.readRest, hmaxlen, if_neg hnone, hptr, ok_bind, hanswer, if_true, pure_eq_ok,
        Option.map_none]
      rfl
    · rw [if_neg hzero] at hanswer
      have hbytes := take_arrived hle (by omega) harrived
      have hlen : (sock.arrived.take k).length = k := by
        rw [List.length_take]
        exact Nat.min_eq_left hle
      obtain ⟨buf₁, hstore, h₁⟩ := hbuf.store (sock.arrived.take k) (by omega)
      -- the bytes go to where the junk begins
      have hparts : first ++ ((wire.take c).drop keys.blocksize ++ junk)
          = first ++ (wire.take c).drop keys.blocksize ++ (junk.take k ++ junk.drop k) := by
        rw [List.take_append_drop, List.append_assoc]
      rw [hparts, Ring.overwrite_middle hfront (by rw [hlen, List.length_take]; omega)] at h₁
      have hgot : first ++ (wire.take c).drop keys.blocksize ++ (sock.arrived.take k ++ junk.drop k)
          = first ++ ((wire.take (c + k)).drop keys.blocksize ++ junk.drop k) := by
        rw [List.append_assoc, ← List.append_assoc _ (sock.arrived.take k), hbytes, List.take_add,
          List.drop_append_of_le_length (by rw [List.length_take]; omega)]
      rw [hgot] at h₁
      have hlength₁ : (first ++ ((wire.take (c + k)).drop keys.blocksize ++ junk.drop k)).length
          = wire.length := by
        rw [← hgot, List.length_append, hfront, List.length_append, hlen, List.length_drop]
        omega
      obtain ⟨buf₂, hincrpos, h₂⟩ := h₁.incrpos (n := k) (by omega) (by omega)
      by_cases hall : k = wire.length - c
      · have hempty : junk.drop k = [] := List.drop_of_length_le (by omega)
        have hend : c + k = wire.length := by omega
        rw [hempty, List.append_nil, hend, List.take_length] at h₂
        obtain ⟨out, hdecrypt, hunread⟩ := hbegun.decrypts h₂
        refine ⟨k, some out,
          { recv with keys := keys', recvseq := (seq + 1) % 0x100000000, readbuf := none }, sock', ?_,
          hle, harrived', .whole hend hunread⟩
        simp only [Sshd4a.readRest, hmaxlen, if_neg hnone, hptr, ok_bind, hanswer, hstore, hlen,
          hincrpos, pure_eq_ok, Option.map_some, Option.some.injEq, if_pos hall, hseq, hplain, hdecrypt]
      · refine ⟨k, none, { recv with readbuf := some buf₂ }, sock', ?_, hle, harrived',
          .partly ⟨hcarries, by omega, .inr ⟨hseq, by omega, buf₂, first, junk.drop k, size, rfl, h₂,
            by rw [List.length_drop]; omega, hbegun⟩⟩⟩
        simp only [Sshd4a.readRest, hmaxlen, if_neg hnone, hptr, ok_bind, hanswer, hstore, hlen,
          hincrpos, pure_eq_ok, Option.map_some, Option.some.injEq, if_neg hall]

theorem Filling.buffer (h : Filling keys seq got recv) :
    ∃ buf, buf.Shows got got.length initReadbuf ∧ startReadbuf recv.readbuf = .ok buf := by
  obtain ⟨rfl, hnone⟩ | ⟨buf, hsome, hbuf⟩ := h.readbuf
  · obtain ⟨buf, hnew, hbuf⟩ := Buf.shows_new initReadbuf (by decide)
    exact ⟨buf, hbuf, by rw [hnone]; exact hnew⟩
  · exact ⟨buf, hbuf, by rw [hsome]; rfl⟩

theorem Filling.store (h : Filling keys seq got recv) (hblock : keys.blocksize ≤ 16) {buf : Buf}
    (hbuf : buf.Shows got got.length initReadbuf) (bytes : Bytes)
    (hlen : got.length + bytes.length ≤ keys.blocksize) :
    ∃ buf' buf'', buf.store bytes = .ok buf' ∧ buf'.incrwritepos bytes.length = .ok buf'' ∧
      buf''.Shows (got ++ bytes) (got ++ bytes).length initReadbuf := by
  have hshort := h.short
  have hincr : bufMaxIncr = 1000000000 := rfl
  have hroom : initReadbuf = 128 := rfl
  obtain ⟨buf₁, hput, h₁⟩ := hbuf.putbytes bytes (by omega) (by omega)
  rw [Ring.overwrite_end rfl, ← List.length_append] at h₁
  rw [Buf.putbytes, hbuf.getwriteptr (by omega) (by omega), ok_bind, bind_eq_ok] at hput
  obtain ⟨buf₂, hstore, hwrite⟩ := hput
  exact ⟨buf₂, buf₁, hstore, hwrite, h₁⟩

/-- Not yet a block. -/
theorem Filling.readPacketInit_short (h : Filling keys seq got recv) (hblock : keys.blocksize ≤ 16)
    {answer : Option Bytes} {sock' : Sock}
    (hread : sock.read (keys.blocksize - got.length) = .ok (answer, sock'))
    (hshort : got.length + (answer.getD []).length < keys.blocksize) :
    ∃ buf, readPacketInit recv sock = .ok (false, buf, keys, sock') ∧
      buf.Shows (got ++ answer.getD []) (got ++ answer.getD []).length initReadbuf := by
  have hincr : bufMaxIncr = 1000000000 := rfl
  have hroom : initReadbuf = 128 := rfl
  obtain ⟨buf, hbuf, hstart⟩ := h.buffer
  have hptr := hbuf.getwriteptr (n := keys.blocksize - got.length) (by omega) (by omega)
  cases answer with
  | none =>
    refine ⟨buf, ?_, ?_⟩
    · rw [readPacketInit, hstart, ok_bind]
      simp only [h.keys_eq, hbuf.pos, hptr, ok_bind, hread]
      rfl
    · rw [Option.getD_none, List.append_nil]
      exact hbuf
  | some bytes =>
    obtain ⟨buf₁, buf₂, hstore, hwrite, h₂⟩ := h.store hblock hbuf bytes (Nat.le_of_lt hshort)
    refine ⟨buf₂, ?_, h₂⟩
    rw [Option.getD_some] at hshort
    have hne : bytes.length ≠ keys.blocksize - got.length := by omega
    rw [readPacketInit, hstart, ok_bind]
    simp only [h.keys_eq, hbuf.pos, hptr, ok_bind, hread, hstore, hwrite, if_pos hne]
    rfl

/-- The first block is complete, and the buffer gets the size of the packet. -/
theorem Carries.expectPacket (h : Carries keys seq payload wire keys') {buf : Buf} {pos : Nat}
    (hbuf : buf.Shows (wire.take keys.blocksize) pos initReadbuf) :
    ∃ buf' first junk size recvKeys, Sshd4a.expectPacket keys seq buf = .ok (buf', recvKeys) ∧
      buf'.Shows (first ++ junk) keys.blocksize size ∧ junk.length = wire.length - keys.blocksize ∧
      Begun keys seq payload wire keys' first recvKeys ∧ wire.length ≤ 30000 ∧
      keys.blocksize ≤ wire.length := by
  obtain ⟨buf₁, hpos₁, h₁⟩ := hbuf.setpos (n := 0) (Nat.zero_le _)
  obtain ⟨plen, buf₂, pos, first, recvKeys, hlength, h₂, hbegun, hsmall, hlong, hplen, hleast,
    hblocks⟩ := h.readLength h₁
  -- the buffer is large enough or grows
  obtain ⟨buf₃, size, hresize, h₃, hfits⟩ : ∃ buf₃ size,
      (if buf₂.size < wire.length then buf₂.resize wire.length else .ok buf₂) = .ok buf₃ ∧
        buf₃.Shows first pos size ∧ wire.length ≤ size := by
    rw [h₂.size]
    split
    next hlt =>
      obtain ⟨buf₃, hresize, h₃⟩ := h₂.resize (Nat.le_of_lt hlt) (by simp only [bufMaxSize]; omega)
      exact ⟨buf₃, _, hresize, h₃, Nat.le_refl _⟩
    next hge => exact ⟨buf₂, _, rfl, h₂, Nat.le_of_not_lt hge⟩
  obtain ⟨buf₄, junk, hsetlen, hjunk, h₄⟩ := h₃.setlen (by rw [hbegun.length]; exact hlong) hfits
  rw [hbegun.length] at hjunk
  obtain ⟨buf₅, hpos₅, h₅⟩ := h₄.setpos (n := keys.blocksize) (by
    rw [List.length_append, hbegun.length]
    omega)
  refine ⟨buf₅, first, junk, size, recvKeys, ?_, h₅, hjunk, hbegun, hsmall, hlong⟩
  have hmax : 30000 ≤ recvMaxPacketLen := by decide
  rw [Sshd4a.expectPacket, hpos₁, ok_bind, hlength, ok_bind]
  dsimp only
  rw [hbegun.block, if_neg (by omega), hresize, ok_bind, hsetlen, ok_bind, hpos₅]
  rfl

theorem Filling.readPacketInit_full (h : Filling keys seq got recv)
    (hcarries : Carries keys seq payload wire keys') {bytes : Bytes} {sock' : Sock}
    (hread : sock.read (keys.blocksize - got.length) = .ok (some bytes, sock'))
    (hfull : bytes.length = keys.blocksize - got.length)
    (hgot : got ++ bytes = wire.take keys.blocksize) :
    ∃ buf first junk size recvKeys, readPacketInit recv sock = .ok (true, buf, recvKeys, sock') ∧
      buf.Shows (first ++ junk) keys.blocksize size ∧ junk.length = wire.length - keys.blocksize ∧
      Begun keys seq payload wire keys' first recvKeys ∧ wire.length ≤ 30000 ∧
      keys.blocksize ≤ wire.length := by
  have hshort := h.short
  have hblock : keys.blocksize ≤ 16 := by rcases hcarries.lawful.block with hb | hb <;> omega
  have hincr : bufMaxIncr = 1000000000 := rfl
  have hroom : initReadbuf = 128 := rfl
  obtain ⟨buf, hbuf, hstart⟩ := h.buffer
  have hptr := hbuf.getwriteptr (n := keys.blocksize - got.length) (by omega) (by omega)
  obtain ⟨buf₁, buf₂, hstore, hwrite, h₂⟩ := h.store hblock hbuf bytes (by omega)
  rw [hgot] at h₂
  obtain ⟨buf₃, first, junk, size, recvKeys, hexpect, h₃⟩ := hcarries.expectPacket h₂
  refine ⟨buf₃, first, junk, size, recvKeys, ?_, h₃⟩
  rw [readPacketInit, hstart, ok_bind]
  simp only [h.keys_eq, hbuf.pos, hptr, ok_bind, hread, hstore, hwrite, h.seq_eq]
  rw [if_neg (by simpa using hfull), hexpect]
  rfl

/-- A call that finds a receiver with less than a block. -/
theorem Filling.readPacket_eq (h : Filling keys seq got recv) (sock : Sock) :
    readPacket recv sock = (do
      let (ready, readbuf, keys, sock) ← readPacketInit recv sock
      let ses := { recv with keys := keys, readbuf := some readbuf }
      if ready then readRest ses readbuf sock else return (none, ses, sock)) := by
  have hnone : recv.readbuf.filter (recv.keys.blocksize ≤ ·.len) = none := by
    obtain ⟨-, hnone⟩ | ⟨buf, hsome, hbuf⟩ := h.readbuf
    · rw [hnone]
      rfl
    · have hshort := h.short
      rw [hsome, Option.filter_some, if_neg]
      rw [h.keys_eq, hbuf.len]
      simpa using hshort
  rw [readPacket, hnone]

/-- Nothing has come of the next packet yet. -/
theorem Filling.readPacket_idle (h : Filling keys seq [] recv) (hkeys : keys.Lawful)
    (hsock : sock.Open) (hnone : sock.arrived = []) :
    ∃ recv' sock', readPacket recv sock = .ok (none, recv', sock') ∧ sock'.arrived = [] ∧
      Filling keys seq [] recv' := by
  have hblock : keys.blocksize ≤ 16 := by rcases hkeys.block with hb | hb <;> omega
  obtain ⟨k, sock', -, hle, hread, harrived, -⟩ := hsock.read (keys.blocksize - [].length)
  have hzero : k = 0 := by
    rw [hnone] at hle
    exact Nat.le_zero.mp hle
  rw [if_pos hzero] at hread
  obtain ⟨buf, hinit, hbuf⟩ := h.readPacketInit_short hblock hread h.short
  refine ⟨{ recv with keys := keys, readbuf := some buf }, sock', ?_, ?_, ?_⟩
  · rw [h.readPacket_eq, hinit, ok_bind]
    rfl
  · rw [harrived, hnone, List.drop_nil]
  · exact ⟨rfl, h.seq_eq, h.short, .inr ⟨buf, rfl, hbuf⟩⟩

/-- **A call of `read_packet`**: whatever part of the packet it gets to read, it goes on by that
    part. -/
theorem Partly.readPacket (h : Partly keys seq payload wire keys' c recv) (hsock : sock.Open)
    {tail later : Bytes} (harrived : sock.arrived ++ tail = wire.drop c ++ later) :
    ∃ k out recv' sock', Sshd4a.readPacket recv sock = .ok (out, recv', sock') ∧
      k ≤ sock.arrived.length ∧ sock'.arrived = sock.arrived.drop k ∧
      Reached keys seq payload wire keys' (c + k) out recv' := by
  have hblock : keys.blocksize ≤ 16 := by rcases h.carries.lawful.block with hb | hb <;> omega
  have hlt := h.lt
  rcases h.held with hfill | hwait
  · have hgot : (wire.take c).length = c := by
      rw [List.length_take]
      exact Nat.min_eq_left (Nat.le_of_lt hlt)
    have hshort := hfill.short
    rw [hgot] at hshort
    obtain ⟨k, sock', hk, hle, hread, harrived', hopen'⟩ := hsock.read (keys.blocksize - c)
    have hlen : (sock.arrived.take k).length = k := by
      rw [List.length_take]
      exact Nat.min_eq_left hle
    have hbytes : c + k ≤ wire.length → wire.take c ++ sock.arrived.take k = wire.take (c + k) := by
      intro hc
      rw [take_arrived hle hc harrived, List.take_add]
    have hlong := h.carries.block_le
    rw [← hgot] at hread
    by_cases hfull : k = keys.blocksize - c
    · -- the call has the length now and goes on to the rest
      have hpos : k ≠ 0 := by omega
      rw [if_neg hpos] at hread
      have hblock' : c + k = keys.blocksize := by omega
      obtain ⟨buf, first, junk, size, recvKeys, hinit, hbuf, hjunk, hbegun, hsmall, -⟩ :=
        hfill.readPacketInit_full h.carries hread (by rw [hlen, hgot]; exact hfull)
          (by rw [hbytes (by omega), hblock'])
      have hshows : buf.Shows
          (first ++ ((wire.take keys.blocksize).drop keys.blocksize ++ junk)) keys.blocksize size := by
        rw [List.drop_of_length_le (by rw [List.length_take]; omega), List.nil_append]
        exact hbuf
      have hrest : sock'.arrived ++ tail = wire.drop keys.blocksize ++ later := by
        have hdrop := congrArg (List.drop k) harrived
        rw [List.drop_append_of_le_length hle, List.drop_append_of_le_length
          (by rw [List.length_drop]; omega), List.drop_drop, hblock'] at hdrop
        rw [harrived', hdrop]
      have hseq : Recv.recvseq { recv with keys := recvKeys, readbuf := some buf } = seq := hfill.seq_eq
      obtain ⟨k', out, recv', sock'', hreadRest, hle', harrived'', hreached⟩ := Waiting.readRest
        h.carries hseq (Nat.le_refl _) hlong hshows hjunk hbegun hsmall hopen' hrest
      refine ⟨k + k', out, recv', sock'', ?_, ?_, ?_, ?_⟩
      · rw [hfill.readPacket_eq, hinit, ok_bind]
        exact hreadRest
      · rw [harrived', List.length_drop] at hle'
        omega
      · rw [harrived'', harrived', List.drop_drop]
      · rw [← Nat.add_assoc, hblock']
        exact hreached
    · have hgetD : ((if k = 0 then none else some (sock.arrived.take k) : Option Bytes)).getD []
          = sock.arrived.take k := by
        split
        next hzero => rw [hzero]; rfl
        next => rfl
      obtain ⟨buf, hinit, hbuf⟩ := hfill.readPacketInit_short hblock hread (by
        rw [hgetD, hlen, hgot]
        omega)
      rw [hgetD, hbytes (by omega)] at hbuf
      refine ⟨k, none, { recv with keys := keys, readbuf := some buf }, sock', ?_, hle, harrived',
        .partly ⟨h.carries, by omega, .inl ⟨rfl, hfill.seq_eq, ?_, .inr ⟨buf, rfl, hbuf⟩⟩⟩⟩
      · rw [hfill.readPacket_eq, hinit, ok_bind]
        rfl
      · rw [List.length_take]
        omega
  · obtain ⟨buf, first, junk, size, hsome, hbuf, hjunk, hbegun⟩ := hwait.readbuf
    have hready : recv.readbuf.filter (recv.keys.blocksize ≤ ·.len) = some buf := by
      have hge := hwait.block_le
      rw [hsome, Option.filter_some, if_pos]
      rw [hbegun.block, hbuf.len, List.length_append, hbegun.length]
      simp
    obtain ⟨k, out, recv', sock', hreadRest, hreached⟩ := Waiting.readRest h.carries hwait.seq_eq
      hwait.block_le (Nat.le_of_lt hlt) hbuf hjunk hbegun h.carries.length_le hsock harrived
    refine ⟨k, out, recv', sock', ?_, hreached⟩
    rw [Sshd4a.readPacket, hready]
    exact hreadRest

end Sshd4a
