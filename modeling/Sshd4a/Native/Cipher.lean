import Sshd4a.Native.Packet

/-!
# The cipher modes (`common-algo.c`, `gcm.c`, `chachapoly.c`, `ctr_encrypt.c`)

What `packet.c` needs of a mode is that the receiver gets back what the sender encrypted, and that
both are left with the same cipher state. `CipherMode.Inverse` says this in the way the packets are
read: without AEAD the first block is decrypted alone, because the length is in it, and the rest
later; with AEAD the length is asked for first and everything is decrypted at the end.

The four modes of the build have it, whatever the primitives compute: the block cipher, the
keystreams and the authenticators are arbitrary functions here, with only the lengths of the tags
given. Nothing about secrecy is said.
-/

namespace Sshd4a

open Text

variable {σ : Type}

/-- The receiver's functions undo the sender's, in states that are `Valid`. -/
def CipherMode.Inverse (blocksize hashsize : Nat) (Valid : σ → Prop) : CipherMode σ → Prop
  | .plain encrypt decrypt =>
    ∀ state clear, Valid state → blocksize ≤ clear.length → clear.length % blocksize = 0 →
      ∃ cipher state' mid, encrypt state clear = some (cipher, state') ∧
        cipher.length = clear.length ∧
        decrypt state (cipher.take blocksize) = some (clear.take blocksize, mid) ∧
        decrypt mid (cipher.drop blocksize) = some (clear.drop blocksize, state') ∧ Valid state'
  | .aead getlength encrypt decrypt =>
    ∀ state seq clear, Valid state → 4 ≤ clear.length →
      ∃ cipher state', encrypt state seq clear = some (cipher, state') ∧
        cipher.length = clear.length + hashsize ∧
        getlength state seq (cipher.take blocksize) = some (load32h (clear.take 4)) ∧
        decrypt state seq cipher = some (clear, state') ∧ Valid state'

/-- A context as the negotiation and `gen_new_keys` make it, where no compression was agreed on. -/
structure KeyContext.Lawful (keys : KeyContext σ) : Prop where
  block : keys.blocksize = 8 ∨ keys.blocksize = 16
  hash : keys.hashsize ≤ maxMacLen
  hmac : keys.mode.isAead = false → ∀ bytes, keys.hashsize ≤ (keys.hmac bytes).length
  comp : keys.algoComp = .none
  inverse : ∃ Valid : σ → Prop, Valid keys.cipherState ∧
    keys.mode.Inverse keys.blocksize keys.hashsize Valid

theorem KeyContext.Lawful.not_compress {keys : KeyContext σ} (h : keys.Lawful) (authdone : Bool) :
    isCompress authdone keys = false := by
  rw [isCompress, h.comp]
  cases authdone <;> rfl

/-! ## The states of the ciphers -/

/-- `symmetric_CTR`: the counter block and the pad made from it, of which `padlen` bytes are used. -/
structure SymmetricCtr where
  ctr : Bytes
  pad : Bytes
  padlen : Nat
deriving DecidableEq, Repr

/-- The union `cipher_state`. -/
inductive CipherState
  | unused
  | ctr (state : SymmetricCtr)
  | gcm (iv : Bytes)
  | chachapoly
deriving DecidableEq, Repr

/-- A counter with the least significant byte first. -/
def incrCounter : Bytes → Bytes
  | [] => []
  | b :: rest => if b + 1 = 0 then 0 :: incrCounter rest else (b + 1) :: rest

def incrBigEndian (counter : Bytes) : Bytes := (incrCounter counter.reverse).reverse

/-- `bytes` with a keystream. -/
def xorStream (keystream : Nat → UInt8) (bytes : Bytes) : Bytes :=
  bytes.mapIdx fun i b => b ^^^ keystream i

@[simp] theorem length_xorStream (keystream : Nat → UInt8) (bytes : Bytes) :
    (xorStream keystream bytes).length = bytes.length := List.length_mapIdx

theorem xor_cancel (a b : UInt8) : (a ^^^ b) ^^^ b = a := by
  rw [UInt8.xor_assoc, UInt8.xor_self, UInt8.xor_zero]

@[simp] theorem xorStream_xorStream (keystream : Nat → UInt8) (bytes : Bytes) :
    xorStream keystream (xorStream keystream bytes) = bytes := by
  apply List.ext_getElem
  · rw [length_xorStream, length_xorStream]
  · intro i _ _
    simp only [xorStream, List.getElem_mapIdx, xor_cancel]

/-! ## No cipher -/

/-- `void_cipher` -/
def voidCipher (state : CipherState) (bytes : Bytes) : Option (Bytes × CipherState) :=
  some (bytes, state)

/-- `dropbear_nocipher`, `dropbear_mode_none` and `dropbear_nohash`, what every session starts
    with. -/
def nocipherKeys : KeyContext CipherState where
  blocksize := 8
  hashsize := 0
  mode := .plain voidCipher voidCipher
  hmac := fun _ => []
  cipherState := .unused

theorem nocipherKeys_lawful : nocipherKeys.Lawful where
  block := .inl rfl
  hash := Nat.zero_le _
  hmac := fun _ _ => Nat.zero_le _
  comp := rfl
  inverse := by
    refine ⟨fun _ => True, trivial, ?_⟩
    intro state clear _ _ _
    exact ⟨clear, state, state, rfl, rfl, rfl, rfl, trivial⟩

/-! ## CTR -/

section Ctr

variable (ecbEncrypt : Bytes → Bytes) (blocklen : Nat)

/-- A new pad when the last one is used up. -/
def refill (state : SymmetricCtr) : SymmetricCtr :=
  if state.padlen = blocklen then
    { ctr := incrBigEndian state.ctr, pad := ecbEncrypt (incrBigEndian state.ctr), padlen := 0 }
  else state

/-- `_ctr_encrypt`, one byte at a time. -/
def ctrEncrypt : SymmetricCtr → Bytes → Bytes × SymmetricCtr
  | state, [] => ([], state)
  | state, b :: rest =>
    let state := refill ecbEncrypt blocklen state
    let (out, last) := ctrEncrypt { state with padlen := state.padlen + 1 } rest
    ((b ^^^ state.pad.getD state.padlen 0) :: out, last)

/-- The same function in both directions. -/
def ctrCrypt (state : CipherState) (bytes : Bytes) : Option (Bytes × CipherState) :=
  match state with
  | .ctr state =>
    let (out, last) := ctrEncrypt ecbEncrypt blocklen state bytes
    some (out, .ctr last)
  | _ => none

/-- An AES with its key in CTR mode, and an HMAC with its key. -/
def ctrKeys (state : SymmetricCtr) (hmac : Bytes → Bytes) (hashsize : Nat) : KeyContext CipherState where
  blocksize := blocklen
  hashsize := hashsize
  mode := .plain (ctrCrypt ecbEncrypt blocklen) (ctrCrypt ecbEncrypt blocklen)
  hmac := hmac
  cipherState := .ctr state

theorem length_ctrEncrypt (state : SymmetricCtr) (bytes : Bytes) :
    (ctrEncrypt ecbEncrypt blocklen state bytes).1.length = bytes.length := by
  induction bytes generalizing state with
  | nil => rfl
  | cons b rest ih => simp only [ctrEncrypt, List.length_cons, ih]

theorem ctrEncrypt_append (state : SymmetricCtr) (first second : Bytes) :
    ctrEncrypt ecbEncrypt blocklen state (first ++ second)
      = ((ctrEncrypt ecbEncrypt blocklen state first).1
          ++ (ctrEncrypt ecbEncrypt blocklen (ctrEncrypt ecbEncrypt blocklen state first).2 second).1,
        (ctrEncrypt ecbEncrypt blocklen (ctrEncrypt ecbEncrypt blocklen state first).2 second).2) := by
  induction first generalizing state with
  | nil => rfl
  | cons b rest ih => simp only [List.cons_append, ctrEncrypt, ih]

/-- Encrypting twice from the same state gives back the text and ends in the same state, because the
    pad does not depend on the text. -/
theorem ctrEncrypt_ctrEncrypt (state : SymmetricCtr) (bytes : Bytes) :
    ctrEncrypt ecbEncrypt blocklen state (ctrEncrypt ecbEncrypt blocklen state bytes).1
      = (bytes, (ctrEncrypt ecbEncrypt blocklen state bytes).2) := by
  induction bytes generalizing state with
  | nil => rfl
  | cons b rest ih => simp only [ctrEncrypt, ih, xor_cancel]

theorem ctrKeys_lawful (hblock : blocklen = 8 ∨ blocklen = 16) (state : SymmetricCtr)
    (hmac : Bytes → Bytes) {hashsize : Nat} (hhash : hashsize ≤ maxMacLen)
    (hlen : ∀ bytes, hashsize ≤ (hmac bytes).length) :
    (ctrKeys ecbEncrypt blocklen state hmac hashsize).Lawful where
  block := hblock
  hash := hhash
  hmac := fun _ => hlen
  comp := rfl
  inverse := by
    refine ⟨fun state => ∃ ctr, state = .ctr ctr, ⟨state, rfl⟩, ?_⟩
    intro union clear hvalid hlong _
    obtain ⟨ctr, rfl⟩ := hvalid
    have hblocks : (ctrEncrypt ecbEncrypt blocklen ctr (clear.take blocklen)).1.length = blocklen := by
      rw [length_ctrEncrypt, List.length_take]
      exact Nat.min_eq_left hlong
    -- the text in the two parts in which the receiver decrypts it
    have hwhole := ctrEncrypt_append ecbEncrypt blocklen ctr (clear.take blocklen) (clear.drop blocklen)
    rw [List.take_append_drop] at hwhole
    have hfirst : ((ctrEncrypt ecbEncrypt blocklen ctr clear).1).take blocklen
        = (ctrEncrypt ecbEncrypt blocklen ctr (clear.take blocklen)).1 := by
      rw [hwhole]
      exact List.take_left' hblocks
    have hrest : ((ctrEncrypt ecbEncrypt blocklen ctr clear).1).drop blocklen
        = (ctrEncrypt ecbEncrypt blocklen
            (ctrEncrypt ecbEncrypt blocklen ctr (clear.take blocklen)).2 (clear.drop blocklen)).1 := by
      rw [hwhole]
      exact List.drop_left' hblocks
    refine ⟨(ctrEncrypt ecbEncrypt blocklen ctr clear).1,
      .ctr (ctrEncrypt ecbEncrypt blocklen ctr clear).2,
      .ctr (ctrEncrypt ecbEncrypt blocklen ctr (clear.take blocklen)).2, rfl,
      length_ctrEncrypt ecbEncrypt blocklen ctr clear, ?_, ?_, ⟨_, rfl⟩⟩
    · simp only [ctrKeys, hfirst, ctrCrypt, ctrEncrypt_ctrEncrypt]
    · simp only [ctrKeys, hrest, ctrCrypt, ctrEncrypt_ctrEncrypt]
      rw [hwhole]

end Ctr

/-! ## GCM -/

section Gcm

variable (keystream : Bytes → Nat → UInt8) (tag : Bytes → Bytes → Bytes → Bytes)

def ghashLen : Nat := 16

/-- The invocation counter: the last eight bytes of the nonce. -/
def nextIv (iv : Bytes) : Bytes := iv.take 4 ++ incrBigEndian (iv.drop 4)

/-- `dropbear_gcm_crypt` with `LTC_ENCRYPT`: the length stays readable and is authenticated. -/
def gcmEncrypt (state : CipherState) (_seq : Nat) (input : Bytes) : Option (Bytes × CipherState) :=
  match state with
  | .gcm iv =>
    if input.length < 4 then none
    else
      let out := xorStream (keystream iv) (input.drop 4)
      some (input.take 4 ++ (out ++ tag iv (input.take 4) out), .gcm (nextIv iv))
  | _ => none

/-- The same with `LTC_DECRYPT`. -/
def gcmDecrypt (state : CipherState) (_seq : Nat) (input : Bytes) : Option (Bytes × CipherState) :=
  match state with
  | .gcm iv =>
    let len := input.length - ghashLen
    if len < 4 then none
    else
      let text := (input.take len).drop 4
      if input.drop len ≠ tag iv (input.take 4) text then none
      else some (input.take 4 ++ xorStream (keystream iv) text, .gcm (nextIv iv))
  | _ => none

def gcmGetlength (_state : CipherState) (_seq : Nat) (input : Bytes) : Option Nat :=
  if input.length < 4 then none else some (load32h (input.take 4))

/-- An AES with its key in GCM mode. -/
def gcmKeys (iv : Bytes) : KeyContext CipherState where
  blocksize := 16
  hashsize := ghashLen
  mode := .aead gcmGetlength (gcmEncrypt keystream tag) (gcmDecrypt keystream tag)
  hmac := fun _ => []
  cipherState := .gcm iv

theorem gcmKeys_lawful (htag : ∀ iv aad text, (tag iv aad text).length = ghashLen) (iv : Bytes) :
    (gcmKeys keystream tag iv).Lawful where
  block := .inr rfl
  hash := show ghashLen ≤ maxMacLen by decide
  hmac := by simp [gcmKeys, CipherMode.isAead]
  comp := rfl
  inverse := by
    refine ⟨fun state => ∃ iv, state = .gcm iv, ⟨iv, rfl⟩, ?_⟩
    intro union seq clear hvalid hlen
    obtain ⟨iv, rfl⟩ := hvalid
    have hfour : (clear.take 4).length = 4 := by
      rw [List.length_take]
      omega
    have hout : (xorStream (keystream iv) (clear.drop 4)).length = clear.length - 4 := by
      rw [length_xorStream, List.length_drop]
    have hbody : clear.take 4 ++ xorStream (keystream iv) (clear.drop 4)
        ++ tag iv (clear.take 4) (xorStream (keystream iv) (clear.drop 4))
        = clear.take 4 ++ (xorStream (keystream iv) (clear.drop 4)
          ++ tag iv (clear.take 4) (xorStream (keystream iv) (clear.drop 4))) := List.append_assoc _ _ _
    have hclear : (clear.take 4 ++ xorStream (keystream iv) (clear.drop 4)).length = clear.length := by
      rw [List.length_append, hfour, hout]
      omega
    refine ⟨_, _, if_neg (by omega), ?_, ?_, ?_, ⟨_, rfl⟩⟩
    · rw [← hbody, List.length_append, hclear, htag]
      rfl
    · -- the first block starts with the length
      change gcmGetlength _ seq (List.take 16 _) = _
      rw [gcmGetlength, if_neg, List.take_take, Nat.min_eq_left (show 4 ≤ 16 by decide), List.take_left' hfour]
      rw [List.length_take, ← hbody, List.length_append, hclear]
      omega
    · have hsplit : (clear.take 4 ++ (xorStream (keystream iv) (clear.drop 4)
          ++ tag iv (clear.take 4) (xorStream (keystream iv) (clear.drop 4)))).length - ghashLen
          = clear.length := by
        rw [← hbody, List.length_append, hclear, htag, Nat.add_sub_cancel]
      simp only [gcmDecrypt, hsplit]
      rw [if_neg (by omega), ← hbody, List.take_left' hclear, List.drop_left' hclear,
        List.drop_left' hfour, hbody, List.take_left' hfour, if_neg (by simp), xorStream_xorStream,
        List.take_append_drop]

end Gcm

/-! ## ChaCha20-Poly1305 -/

section Chachapoly

variable (header chacha : Bytes → Nat → Nat → UInt8) (poly1305 : Bytes → Bytes → Bytes)

def poly1305TagLen : Nat := 16

/-- `STORE64H` of the sequence number. -/
def seqbuf (seq : Nat) : Bytes := List.replicate 4 0 ++ store32h seq

/-- The one-time key of the authenticator: 32 bytes of the keystream at counter 0. -/
def poly1305Key (seq : Nat) : Bytes := (List.range 32).map (chacha (seqbuf seq) 0)

/-- The length with one key, the rest with the other from counter 1 on. -/
def chachaCrypt (seq : Nat) (bytes : Bytes) : Bytes :=
  xorStream (header (seqbuf seq) 0) (bytes.take 4) ++ xorStream (chacha (seqbuf seq) 1) (bytes.drop 4)

/-- `dropbear_chachapoly_crypt` with `LTC_ENCRYPT`. -/
def chachapolyEncrypt (state : CipherState) (seq : Nat) (input : Bytes) :
    Option (Bytes × CipherState) :=
  if input.length < 4 then none
  else
    let out := chachaCrypt header chacha seq input
    some (out ++ poly1305 (poly1305Key chacha seq) out, state)

/-- The same with `LTC_DECRYPT`. -/
def chachapolyDecrypt (state : CipherState) (seq : Nat) (input : Bytes) :
    Option (Bytes × CipherState) :=
  let len := input.length - poly1305TagLen
  if len < 4 then none
  else if input.drop len ≠ poly1305 (poly1305Key chacha seq) (input.take len) then none
  else some (chachaCrypt header chacha seq (input.take len), state)

def chachapolyGetlength (_state : CipherState) (seq : Nat) (input : Bytes) : Option Nat :=
  if input.length < 4 then none
  else some (load32h (xorStream (header (seqbuf seq) 0) (input.take 4)))

def chachapolyKeys : KeyContext CipherState where
  blocksize := 8
  hashsize := poly1305TagLen
  mode := .aead (chachapolyGetlength header) (chachapolyEncrypt header chacha poly1305)
    (chachapolyDecrypt header chacha poly1305)
  hmac := fun _ => []
  cipherState := .chachapoly

theorem length_chachaCrypt (seq : Nat) (bytes : Bytes) :
    (chachaCrypt header chacha seq bytes).length = bytes.length := by
  rw [chachaCrypt, List.length_append, length_xorStream, length_xorStream, ← List.length_append,
    List.take_append_drop]

theorem take_chachaCrypt (seq : Nat) {bytes : Bytes} (h : 4 ≤ bytes.length) :
    (chachaCrypt header chacha seq bytes).take 4
      = xorStream (header (seqbuf seq) 0) (bytes.take 4) := by
  apply List.take_left'
  rw [length_xorStream, List.length_take, Nat.min_eq_left h]

theorem chachaCrypt_chachaCrypt (seq : Nat) {bytes : Bytes} (h : 4 ≤ bytes.length) :
    chachaCrypt header chacha seq (chachaCrypt header chacha seq bytes) = bytes := by
  have hfour : (xorStream (header (seqbuf seq) 0) (bytes.take 4)).length = 4 := by
    rw [length_xorStream, List.length_take, Nat.min_eq_left h]
  rw [chachaCrypt, take_chachaCrypt header chacha seq h, xorStream_xorStream, chachaCrypt,
    List.drop_left' hfour, xorStream_xorStream, List.take_append_drop]

theorem chachapolyKeys_lawful (htag : ∀ key text, (poly1305 key text).length = poly1305TagLen) :
    (chachapolyKeys header chacha poly1305).Lawful where
  block := .inl rfl
  hash := show poly1305TagLen ≤ maxMacLen by decide
  hmac := by simp [chachapolyKeys, CipherMode.isAead]
  comp := rfl
  inverse := by
    refine ⟨fun _ => True, trivial, ?_⟩
    intro state seq clear _ hlen
    have hout := length_chachaCrypt header chacha seq clear
    refine ⟨_, _, if_neg (by omega), ?_, ?_, ?_, trivial⟩
    · rw [List.length_append, hout, htag]
      rfl
    · change chachapolyGetlength header _ seq (List.take 8 _) = _
      rw [chachapolyGetlength, if_neg, List.take_take, Nat.min_eq_left (show 4 ≤ 8 by decide),
        List.take_append_of_le_length (by omega), take_chachaCrypt header chacha seq hlen,
        xorStream_xorStream]
      rw [List.length_take, List.length_append, hout]
      omega
    · have hsplit : (chachaCrypt header chacha seq clear ++ poly1305 (poly1305Key chacha seq)
          (chachaCrypt header chacha seq clear)).length - poly1305TagLen = clear.length := by
        rw [List.length_append, hout, htag, Nat.add_sub_cancel]
      simp only [chachapolyDecrypt, hsplit]
      rw [if_neg (by omega), List.take_left' hout, List.drop_left' hout, if_neg (by simp),
        chachaCrypt_chachaCrypt header chacha seq hlen]

end Chachapoly

end Sshd4a
