import Sshd4a.Native.Cipher
import Sshd4a.Native.Channel

/-!
# What is sent for a payload

`encrypt_packet` in two steps. `layoutPacket_spec`: the clear packet is the length, the length of
the padding, the payload and the padding, it is a whole number of blocks of at least 16 bytes, and
neither it nor the MAC leaves the buffer that was allocated for it. `sealPacket_spec`: what goes on
the wire is something a receiver with the same keys can open, `Carries`, and both have the same keys
again afterwards.

`Carries` is stated with what the receiver computes, because that is all the receiving side needs to
know of a packet.
-/

namespace Sshd4a

open Text Fallible

variable {σ : Type} {keys keys' : KeyContext σ} {payload clear wire : Bytes} {seq : Nat}

/-- The clear packet of a payload. -/
structure Layout (keys : KeyContext σ) (payload clear : Bytes) : Prop where
  shape : ∃ padding, clear = store32h (1 + payload.length + padding.length)
      ++ (UInt8.ofNat padding.length :: (payload ++ padding)) ∧ padding.length < 256
  blocks : (if keys.mode.isAead then clear.length - 4 else clear.length) % keys.blocksize = 0
  least : minPacketLen ≤ clear.length
  most : clear.length ≤ payload.length + 24
  payload_pos : 0 < payload.length
  payload_le : payload.length ≤ transMaxPayloadLen

theorem paddingLen_spec (hkeys : keys.Lawful) {len : Nat} (hlen : 5 ≤ len) :
    4 ≤ paddingLen keys len ∧ paddingLen keys len ≤ 19 ∧ minPacketLen ≤ len + paddingLen keys len ∧
      (if keys.mode.isAead then len + paddingLen keys len - 4 else len + paddingLen keys len)
        % keys.blocksize = 0 := by
  have hblock := hkeys.block
  simp only [paddingLen, minPacketLen]
  cases keys.mode.isAead with
  | false =>
    simp only [Bool.false_eq_true, if_false]
    rcases hblock with hb | hb <;> rw [hb] <;> (split <;> split <;> omega)
  | true =>
    simp only [if_true]
    rcases hblock with hb | hb <;> rw [hb] <;> (split <;> split <;> omega)

/-- The size of the buffer leaves room for the padding and the MAC. -/
theorem putPayload_spec (hkeys : keys.Lawful) (hmax : payload.length ≤ transMaxPayloadLen) :
    ∃ writebuf junk size, putPayload false keys payload = .ok (writebuf, keys) ∧ junk.length = 5 ∧
      writebuf.Shows (junk ++ payload) (5 + payload.length) size ∧
      payload.length + 24 + keys.hashsize ≤ size := by
  have hhash : keys.hashsize ≤ 64 := hkeys.hash
  have hblock : max minPacketLen keys.blocksize = 16 := by
    rcases hkeys.block with hb | hb <;> rw [hb] <;> rfl
  have hzlib : zlibCompressExpansion = 51 := rfl
  have hincr : bufMaxIncr = 1000000000 := rfl
  simp only [transMaxPayloadLen] at hmax
  simp only [putPayload, hblock, hzlib]
  obtain ⟨buf₀, hnew, h₀⟩ := Buf.shows_new
    (payload.length + 4 + 1 + 16 + 3 + keys.hashsize + 51 + 1) (by simp only [bufMaxSize]; omega)
  obtain ⟨buf₁, junk, hsetlen, hjunk, h₁⟩ := h₀.setlen (n := 5) (Nat.zero_le _) (by omega)
  obtain ⟨buf₂, hsetpos, h₂⟩ := h₁.setpos (n := 5) (by rw [List.nil_append, hjunk]; rfl)
  obtain ⟨buf₃, hput, h₃⟩ := h₂.putbytes payload (by omega) (by omega)
  rw [List.nil_append, Ring.overwrite_end (by rw [hjunk]; rfl)] at h₃
  refine ⟨buf₃, junk, _, ?_, hjunk, h₃, by omega⟩
  rw [hnew, ok_bind, packetPayloadOff, hsetlen, ok_bind, hsetpos, ok_bind, if_neg (by simp), hput]
  rfl

theorem putLengths_spec {writebuf : Buf} {junk : Bytes} {pos size : Nat} (padlen : Nat)
    (h : writebuf.Shows (junk ++ payload) pos size) (hjunk : junk.length = 5) :
    ∃ writebuf', putLengths padlen writebuf = .ok writebuf' ∧
      writebuf'.Shows (store32h (1 + payload.length + padlen) ++ ([UInt8.ofNat padlen] ++ payload)) 5
        size := by
  have hincr : bufMaxIncr = 1000000000 := rfl
  have hfits := h.len_le
  have hlength : (junk ++ payload).length = 5 + payload.length := by rw [List.length_append, hjunk]
  have hparts : junk ++ payload = junk.take 4 ++ (junk.drop 4 ++ payload) := by
    rw [← List.append_assoc, List.take_append_drop]
  obtain ⟨buf₁, hstart, h₁⟩ := h.setpos (n := 0) (Nat.zero_le _)
  have hlen : buf₁.len + padlen - 4 = 1 + payload.length + padlen := by
    rw [h₁.len, hlength]
    omega
  obtain ⟨buf₂, hputint, h₂⟩ := h₁.putbytes (store32h (1 + payload.length + padlen))
    (by rw [Buf.length_store32h]; omega) (by rw [Buf.length_store32h]; omega)
  rw [hparts, Ring.overwrite_start (by rw [List.length_take, hjunk]; rfl), Nat.zero_add,
    Buf.length_store32h] at h₂
  obtain ⟨buf₃, hputbyte, h₃⟩ := h₂.putbyte (UInt8.ofNat padlen) (by
    rw [List.length_append, Buf.length_store32h, List.length_append, List.length_drop, hjunk]
    omega)
  rw [Ring.overwrite_middle (Buf.length_store32h _) (by rw [List.length_drop, hjunk]; rfl)] at h₃
  refine ⟨buf₃, ?_, h₃⟩
  rw [putLengths, hstart, ok_bind, hlen, Buf.putint, hputint, ok_bind, hputbyte]

theorem putPadding_spec (random : Nat → UInt8) (padlen : Nat) {writebuf : Buf} {front : Bytes}
    {pos size : Nat} (h : writebuf.Shows front pos size) (hincr : padlen ≤ bufMaxIncr)
    (hroom : front.length + padlen ≤ size) :
    ∃ writebuf', putPadding random padlen writebuf = .ok writebuf' ∧
      writebuf'.Shows (front ++ (List.range padlen).map random) front.length size := by
  have hpad : ((List.range padlen).map random).length = padlen := by
    rw [List.length_map, List.length_range]
  obtain ⟨buf₁, hend, h₁⟩ := h.setpos (n := front.length) (Nat.le_refl _)
  obtain ⟨buf₂, junk, hincrlen, hjunk, h₂⟩ := h₁.incrlen hincr hroom
  have hgetptr := h₂.getptr hincr (by rw [List.length_append, hjunk])
  obtain ⟨buf₃, hstore, h₃⟩ := h₂.store ((List.range padlen).map random)
    (by rw [hpad, List.length_append, hjunk])
  rw [← List.append_nil junk, Ring.overwrite_middle rfl (by rw [hjunk, hpad]), List.append_nil] at h₃
  refine ⟨buf₃, ?_, h₃⟩
  rw [putPadding, h.len, hend, ok_bind, hincrlen, ok_bind, hgetptr, ok_bind, hstore]

theorem layoutPacket_spec (hkeys : keys.Lawful) (random : Nat → UInt8) (hpos : 0 < payload.length)
    (hmax : payload.length ≤ transMaxPayloadLen) :
    ∃ writebuf clear pos size, layoutPacket false keys random payload = .ok (writebuf, keys) ∧
      Layout keys payload clear ∧ writebuf.Shows clear pos size ∧
      clear.length + keys.hashsize ≤ size := by
  obtain ⟨buf₁, junk, size, hput, hjunk, h₁, hroom⟩ := putPayload_spec hkeys hmax
  obtain ⟨hleast, hmost, hmin, hblocks⟩ := paddingLen_spec hkeys (Nat.le_add_right 5 payload.length)
  have hlen : buf₁.len = 5 + payload.length := by rw [h₁.len, List.length_append, hjunk]
  set padlen := paddingLen keys (5 + payload.length) with hpadlen
  obtain ⟨buf₂, hlengths, h₂⟩ := putLengths_spec padlen h₁ hjunk
  have hfront : (store32h (1 + payload.length + padlen) ++ ([UInt8.ofNat padlen] ++ payload)).length
      = 5 + payload.length := by
    rw [List.length_append, Buf.length_store32h, List.length_append, List.length_singleton]
    omega
  obtain ⟨buf₃, hpadding, h₃⟩ := putPadding_spec random padlen h₂ (by simp only [bufMaxIncr]; omega)
    (by rw [hfront]; omega)
  have hpad : ((List.range padlen).map random).length = padlen := by
    rw [List.length_map, List.length_range]
  have hall : (store32h (1 + payload.length + padlen) ++ ([UInt8.ofNat padlen] ++ payload)
      ++ (List.range padlen).map random).length = 5 + payload.length + padlen := by
    rw [List.length_append, hfront, hpad]
  refine ⟨buf₃, _, _, size, ?_, ?_, h₃, by rw [hall]; omega⟩
  · rw [layoutPacket, hput, ok_bind]
    dsimp only
    rw [hlen, ← hpadlen, hlengths, ok_bind, hpadding]
    rfl
  · constructor
    case shape =>
      refine ⟨(List.range padlen).map random, ?_, by omega⟩
      rw [hpad, List.append_assoc, List.append_assoc]
      rfl
    case blocks => rw [hall]; exact hblocks
    case least => rw [hall]; exact hmin
    case most => rw [hall]; omega
    case payload_pos => exact hpos
    case payload_le => exact hmax

/-! ## On the wire -/

/-- The MAC of a clear packet. -/
def macOf (keys : KeyContext σ) (seq : Nat) (clear : Bytes) : Bytes :=
  (keys.hmac (store32h seq ++ clear)).take keys.hashsize

theorem makeMac_spec {buf : Buf} {contents : Bytes} {pos size n : Nat}
    (h : buf.Shows contents pos size) (hn : n ≤ contents.length) (hincr : n ≤ bufMaxIncr) :
    makeMac seq keys buf n = .ok (macOf keys seq (contents.take n)) := by
  rw [makeMac]
  split
  next =>
    obtain ⟨buf', hsetpos, h'⟩ := h.setpos (n := 0) (Nat.zero_le _)
    rw [hsetpos, ok_bind, h'.getptr hincr (by rw [Nat.zero_add]; exact hn), ok_bind, List.drop_zero]
    rfl
  next hzero =>
    rw [macOf, Nat.eq_zero_of_not_pos hzero, List.take_zero]
    rfl

theorem length_macOf (hkeys : keys.Lawful) (hplain : keys.mode.isAead = false) :
    (macOf keys seq clear).length = keys.hashsize := by
  rw [macOf, List.length_take]
  exact Nat.min_eq_left (hkeys.hmac hplain _)

/-- What is on the wire for a clear packet, by what the receiver gets out of it. -/
inductive Opens (keys : KeyContext σ) (seq : Nat) (clear wire : Bytes) (state : σ) : Prop
  | plain {encrypt decrypt : σ → Bytes → Option (Bytes × σ)} {cipher : Bytes} {mid : σ}
      (mode : keys.mode = .plain encrypt decrypt)
      (wire_eq : wire = cipher ++ macOf keys seq clear) (length : cipher.length = clear.length)
      (first : decrypt keys.cipherState (cipher.take keys.blocksize)
        = some (clear.take keys.blocksize, mid))
      (rest : decrypt mid (cipher.drop keys.blocksize) = some (clear.drop keys.blocksize, state))
  | aead {getlength : σ → Nat → Bytes → Option Nat}
      {encrypt decrypt : σ → Nat → Bytes → Option (Bytes × σ)}
      (mode : keys.mode = .aead getlength encrypt decrypt)
      (length : wire.length = clear.length + keys.hashsize)
      (announced : getlength keys.cipherState seq (wire.take keys.blocksize)
        = some (load32h (clear.take 4)))
      (all : decrypt keys.cipherState seq wire = some (clear, state))

/-- A packet that carries a payload, and the keys after it. -/
structure Carries (keys : KeyContext σ) (seq : Nat) (payload wire : Bytes) (keys' : KeyContext σ) :
    Prop where
  lawful : keys.Lawful
  opens : ∃ clear state, Layout keys payload clear ∧ Opens keys seq clear wire state ∧
    keys' = { keys with cipherState := state }
  lawful' : keys'.Lawful

theorem Layout.length_le (h : Layout keys payload clear) : clear.length ≤ 20000 := by
  have hmost := h.most
  have hle := h.payload_le
  simp only [transMaxPayloadLen] at hle
  omega

theorem sealPacket_spec (hkeys : keys.Lawful) {writebuf : Buf} {pos size : Nat}
    (hlayout : Layout keys payload clear) (h : writebuf.Shows clear pos size)
    (hroom : clear.length + keys.hashsize ≤ size) (seq : Nat) :
    ∃ sealed wire pos' keys', sealPacket keys seq writebuf = .ok (sealed, keys') ∧
      sealed.Shows wire pos' size ∧ Carries keys seq payload wire keys' := by
  have hsmall := hlayout.length_le
  have hincr : bufMaxIncr = 1000000000 := rfl
  have hhash : keys.hashsize ≤ 64 := hkeys.hash
  have hleast : 16 ≤ clear.length := hlayout.least
  obtain ⟨Valid, hvalid, hinverse⟩ := hkeys.inverse
  have hblocks := hlayout.blocks
  have hnext : ∀ state, Valid state → KeyContext.Lawful { keys with cipherState := state } :=
    fun state hstate => ⟨hkeys.block, hkeys.hash, hkeys.hmac, hkeys.comp, Valid, hstate, hinverse⟩
  cases hmode : keys.mode with
  | plain encrypt decrypt =>
    rw [hmode] at hinverse
    rw [hmode, CipherMode.isAead, if_neg (by simp)] at hblocks
    have hlong : keys.blocksize ≤ clear.length := by
      rcases hkeys.block with hb | hb <;> omega
    obtain ⟨cipher, state, mid, hencrypt, hlength, hfirst, hrest, hstate⟩ :=
      hinverse keys.cipherState clear hvalid hlong hblocks
    have hmac : (macOf keys seq clear).length = keys.hashsize :=
      length_macOf hkeys (by rw [hmode]; rfl)
    obtain ⟨buf₁, hsetpos, h₁⟩ := h.setpos (n := 0) (Nat.zero_le _)
    have hlen₁ : buf₁.len = clear.length := h₁.len
    obtain ⟨buf₂, hstore, h₂⟩ := h₁.store cipher (by omega)
    rw [Ring.overwrite_all hlength.symm] at h₂
    obtain ⟨buf₃, hincrpos, h₃⟩ := h₂.incrpos (n := clear.length) (by omega) (by omega)
    obtain ⟨buf₄, hput, h₄⟩ := h₃.putbytes (macOf keys seq clear) (by omega) (by omega)
    rw [Ring.overwrite_end (by omega)] at h₄
    refine ⟨buf₄, _, _, { keys with cipherState := state }, ?_, h₄, hkeys,
      ⟨clear, state, hlayout, .plain hmode rfl hlength hfirst hrest, rfl⟩, hnext state hstate⟩
    have hmake : makeMac seq keys writebuf writebuf.len = .ok (macOf keys seq clear) := by
      rw [makeMac_spec h (Nat.le_of_eq h.len) (by rw [h.len]; omega), h.len, List.take_length]
    have hclear : buf₁.getptr buf₁.len = .ok clear := by
      rw [h₁.getptr (by omega) (by omega), hlen₁, List.drop_zero, List.take_length]
    simp only [sealPacket, hmode, hmake, ok_bind, hsetpos, hclear,
      h₁.getwriteptr (n := buf₁.len) (by omega) (by omega), hencrypt, hstore]
    rw [hlen₁]
    simp only [hincrpos, ok_bind, hput]
    rfl
  | aead getlength encrypt decrypt =>
    rw [hmode] at hinverse
    obtain ⟨cipher, state, hencrypt, hlength, hgetlength, hdecrypt, hstate⟩ :=
      hinverse keys.cipherState seq clear hvalid (by omega)
    obtain ⟨buf₁, hsetpos, h₁⟩ := h.setpos (n := 0) (Nat.zero_le _)
    have hlen₁ : buf₁.len = clear.length := h₁.len
    obtain ⟨buf₂, junk, hincrlen, hjunk, h₂⟩ := h₁.incrlen (n := keys.hashsize) (by omega) (by omega)
    have hlen₂ : (clear ++ junk).length = clear.length + keys.hashsize := by
      rw [List.length_append, hjunk]
    obtain ⟨buf₃, hstore, h₃⟩ := h₂.store cipher (by omega)
    rw [Ring.overwrite_all (by omega)] at h₃
    obtain ⟨buf₄, hincrpos, h₄⟩ := h₃.incrpos (n := clear.length + keys.hashsize) (by omega) (by omega)
    refine ⟨buf₄, _, _, { keys with cipherState := state }, ?_, h₄, hkeys,
      ⟨clear, state, hlayout, .aead hmode hlength hgetlength hdecrypt, rfl⟩, hnext state hstate⟩
    have hclear : buf₂.getptr buf₁.len = .ok clear := by
      rw [h₂.getptr (by omega) (by omega), hlen₁, List.drop_zero, List.take_left]
    simp only [sealPacket, hmode, hsetpos, ok_bind, hincrlen, hclear, hencrypt,
      h₂.getwriteptr (n := buf₁.len + keys.hashsize) (by omega) (by omega), hstore]
    rw [hlen₁]
    simp only [hincrpos, ok_bind]
    rfl

/-- **What `encrypt_packet` queues** when it does not defer: one packet that carries the payload. -/
theorem encryptPacket_spec {ses : Trans σ} (hkeys : ses.keys.Lawful) (random : Nat → UInt8)
    {type : UInt8} {rest : Bytes} (hpayload : payload = type :: rest)
    (hmax : payload.length ≤ transMaxPayloadLen)
    (hsend : (!ses.dataallowed && !packetIsOkayKex type) = false) :
    ∃ writebuf wire size keys', writebuf.Shows wire 0 size ∧
      Carries ses.keys ses.transseq payload wire keys' ∧
      encryptPacket random ses payload = .ok { ses with
        keys := keys'
        transseq := (ses.transseq + 1) % 0x100000000
        writequeue := ses.writequeue ++ [writebuf]
        writequeueLen := (ses.writequeueLen + wire.length) % 0x100000000 } := by
  have hpos : 0 < payload.length := by rw [hpayload]; exact Nat.succ_pos _
  obtain ⟨buf₁, clear, pos, size, hlay, hlayout, h₁, hroom⟩ := layoutPacket_spec hkeys random hpos hmax
  obtain ⟨buf₂, wire, pos', keys', hseal, h₂, hcarries⟩ :=
    sealPacket_spec hkeys hlayout h₁ hroom ses.transseq
  obtain ⟨buf₃, hsetpos, h₃⟩ := h₂.setpos (n := 0) (Nat.zero_le _)
  refine ⟨buf₃, wire, size, keys', h₃, hcarries, ?_⟩
  subst hpayload
  have hplain : isCompressTrans ses = false := hkeys.not_compress ses.authdone
  rw [encryptPacket, if_neg (by simp [hsend]), hplain, hlay, ok_bind]
  dsimp only
  rw [hseal, ok_bind]
  simp only [writebufEnqueue, hsetpos, ok_bind, h₃.len]
  rfl

end Sshd4a
