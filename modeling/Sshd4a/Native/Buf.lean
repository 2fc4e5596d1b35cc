import Sshd4a.Lib.Fallible
import Sshd4a.Lib.Ring
import Sshd4a.Lib.Utf8

/-!
# Buffers (`buffer.c`)

A `buffer` is a block of bytes with a used length and a position in it. Every function checks its
arguments and ends the process when they do not fit, so the position never passes the length and
the length never passes the block: these are fields of `Buf` here, and so is the bound on the
block, because of which the sums of the C (`buf->pos + len`) do not wrap.

A write through a pointer the C got from `buf_getptr` or `buf_getwriteptr` is `store`. It has no
check of its own in C; a write outside of the block is `outOfBounds` here.

The proofs about the packets never look at a block. They use `Shows`, which says what the used part
of a buffer contains and where its position is, and one lemma for each function.
-/

namespace Sshd4a

open Text Fallible

/-- Why the process ends: the text of `dropbear_exit`, or a write outside of a block. -/
inductive PacketExit
  | bufTooBig
  | badBufSetlen
  | badBufIncrlen
  | badBufSetpos
  | badBufIncrwritepos
  | badBufIncrpos
  | badBufGetbyte
  | badBufGetptr
  | badBufGetwriteptr
  | outOfBounds
  | failedAssertion
  | errorWriting
  | errorReading
  | remoteClosed
  | errorEncrypting
  | errorDecrypting
  | integrityError
  | integrityErrorBadPacketSize (plen : Nat)
  | badPacketSize (len : Nat)
  | fullReplyQueue
  | zlibError
  | oversizedDecompressed
deriving DecidableEq, Repr

def bufMaxIncr : Nat := 1000000000

def bufMaxSize : Nat := 1000000000

/-- `TRANS_MAX_PAYLOAD_LEN`, the size of `ses.writepayload`. -/
def transMaxPayloadLen : Nat := 16384

/-- `STORE32H`: four bytes, most significant first. -/
def store32h (n : Nat) : Bytes :=
  [UInt8.ofNat (n / 0x1000000), UInt8.ofNat (n / 0x10000), UInt8.ofNat (n / 0x100), UInt8.ofNat n]

/-- `LOAD32H` -/
def load32h (bytes : Bytes) : Nat := bytes.foldl (fun n b => n * 256 + b.toNat) 0

structure Buf where
  data : Bytes
  len : Nat
  pos : Nat
  pos_le : pos ≤ len
  len_le : len ≤ data.length
  size_le : data.length ≤ bufMaxSize

namespace Buf

def size (buf : Buf) : Nat := buf.data.length

def new (size : Nat) : Except PacketExit Buf :=
  if h : size ≤ bufMaxSize then
    .ok {
      data := List.replicate size 0
      len := 0
      pos := 0
      pos_le := Nat.le_refl 0
      len_le := Nat.zero_le _
      size_le := by rw [List.length_replicate]; exact h }
  else .error .bufTooBig

/-- The bytes `m_realloc` adds are zero here; nothing reads them before they are written. -/
def resize (buf : Buf) (newsize : Nat) : Except PacketExit Buf :=
  if h : newsize ≤ bufMaxSize then
    have hdata : (buf.data.take newsize ++ List.replicate (newsize - buf.size) 0).length = newsize := by
      rw [List.length_append, List.length_take, List.length_replicate, size]
      omega
    .ok {
      data := buf.data.take newsize ++ List.replicate (newsize - buf.size) 0
      len := min newsize buf.len
      pos := min newsize buf.pos
      pos_le := by have := buf.pos_le; omega
      len_le := by rw [hdata]; exact Nat.min_le_left _ _
      size_le := by rw [hdata]; exact h }
  else .error .bufTooBig

def setlen (buf : Buf) (len : Nat) : Except PacketExit Buf :=
  if h : len ≤ buf.size then
    .ok { buf with len := len, pos := min buf.pos len, pos_le := Nat.min_le_right _ _, len_le := h }
  else .error .badBufSetlen

def incrlen (buf : Buf) (incr : Nat) : Except PacketExit Buf :=
  if h : incr ≤ bufMaxIncr ∧ buf.len + incr ≤ buf.size then
    .ok { buf with
      len := buf.len + incr
      pos_le := Nat.le_trans buf.pos_le (Nat.le_add_right _ _)
      len_le := h.2 }
  else .error .badBufIncrlen

def setpos (buf : Buf) (pos : Nat) : Except PacketExit Buf :=
  if h : pos ≤ buf.len then .ok { buf with pos := pos, pos_le := h } else .error .badBufSetpos

/-- The length follows the position. -/
def incrwritepos (buf : Buf) (incr : Nat) : Except PacketExit Buf :=
  if h : incr ≤ bufMaxIncr ∧ buf.pos + incr ≤ buf.size then
    .ok { buf with
      pos := buf.pos + incr
      len := max buf.len (buf.pos + incr)
      pos_le := Nat.le_max_right _ _
      len_le := Nat.max_le.mpr ⟨buf.len_le, h.2⟩ }
  else .error .badBufIncrwritepos

def incrpos (buf : Buf) (incr : Nat) : Except PacketExit Buf :=
  if h : incr ≤ bufMaxIncr ∧ buf.pos + incr ≤ buf.len then
    .ok { buf with pos := buf.pos + incr, pos_le := h.2 }
  else .error .badBufIncrpos

/-- What can be read through the pointer. -/
def getptr (buf : Buf) (len : Nat) : Except PacketExit Bytes :=
  if len ≤ bufMaxIncr ∧ buf.pos + len ≤ buf.len then .ok ((buf.data.drop buf.pos).take len)
  else .error .badBufGetptr

def getwriteptr (buf : Buf) (len : Nat) : Except PacketExit Unit :=
  if len ≤ bufMaxIncr ∧ buf.pos + len ≤ buf.size then .ok () else .error .badBufGetwriteptr

/-- A write through a pointer to the position. -/
def store (buf : Buf) (bytes : Bytes) : Except PacketExit Buf :=
  if h : buf.pos + bytes.length ≤ buf.size then
    .ok { buf with
      data := Ring.overwrite buf.data buf.pos bytes
      len_le := by rw [Ring.length_overwrite h]; exact buf.len_le
      size_le := by rw [Ring.length_overwrite h]; exact buf.size_le }
  else .error .outOfBounds

def getbyte (buf : Buf) : Except PacketExit (UInt8 × Buf) :=
  if h : buf.pos < buf.len then
    .ok (buf.data.getD buf.pos 0, { buf with pos := buf.pos + 1, pos_le := h })
  else .error .badBufGetbyte

def putbyte (buf : Buf) (val : UInt8) : Except PacketExit Buf := do
  let buf ← if buf.len ≤ buf.pos then buf.incrlen 1 else pure buf
  let buf ← buf.store [val]
  buf.incrpos 1

def getint (buf : Buf) : Except PacketExit (Nat × Buf) := do
  let bytes ← buf.getptr 4
  let buf ← buf.incrpos 4
  return (load32h bytes, buf)

def putbytes (buf : Buf) (bytes : Bytes) : Except PacketExit Buf := do
  buf.getwriteptr bytes.length
  let buf ← buf.store bytes
  buf.incrwritepos bytes.length

def putint (buf : Buf) (val : Nat) : Except PacketExit Buf := buf.putbytes (store32h val)

/-! ## What a buffer shows -/

/-- The used part. -/
def contents (buf : Buf) : Bytes := buf.data.take buf.len

structure Shows (buf : Buf) (contents : Bytes) (pos size : Nat) : Prop where
  contents : buf.contents = contents
  pos : buf.pos = pos
  size : buf.size = size

variable {buf : Buf} {contents : Bytes} {pos size n : Nat}

theorem length_contents (buf : Buf) : buf.contents.length = buf.len := by
  rw [Buf.contents, List.length_take, Nat.min_eq_left buf.len_le]

theorem Shows.len (h : buf.Shows contents pos size) : buf.len = contents.length := by
  rw [← h.contents, length_contents]

theorem Shows.pos_le (h : buf.Shows contents pos size) : pos ≤ contents.length := by
  rw [← h.pos, ← h.len]
  exact buf.pos_le

theorem Shows.len_le (h : buf.Shows contents pos size) : contents.length ≤ size := by
  rw [← h.size, ← h.len]
  exact buf.len_le

theorem shows_new (size : Nat) (h : size ≤ bufMaxSize) : ∃ buf, new size = .ok buf ∧ buf.Shows [] 0 size := by
  refine ⟨_, dif_pos h, rfl, rfl, ?_⟩
  exact List.length_replicate

theorem Shows.resize (h : buf.Shows contents pos size) (hgrows : size ≤ n) (hmax : n ≤ bufMaxSize) :
    ∃ buf', buf.resize n = .ok buf' ∧ buf'.Shows contents pos n := by
  have hsize := h.size
  have hlen := buf.len_le
  have hpos := buf.pos_le
  rw [Buf.size] at hsize
  refine ⟨_, dif_pos hmax, ?_, ?_, ?_⟩
  · rw [← h.contents]
    simp only [Buf.contents]
    rw [Nat.min_eq_right (by omega), List.take_append_of_le_length (by rw [List.length_take]; omega),
      List.take_take, Nat.min_eq_left (by omega)]
  · rw [← h.pos]
    exact Nat.min_eq_right (by omega)
  · simp only [Buf.size, List.length_append, List.length_take, List.length_replicate]
    omega

theorem Shows.setpos (h : buf.Shows contents pos size) (hn : n ≤ contents.length) :
    ∃ buf', buf.setpos n = .ok buf' ∧ buf'.Shows contents n size := by
  rw [← h.len] at hn
  exact ⟨_, dif_pos hn, h.contents, rfl, h.size⟩

theorem Shows.incrpos (h : buf.Shows contents pos size) (hincr : n ≤ bufMaxIncr)
    (hn : pos + n ≤ contents.length) :
    ∃ buf', buf.incrpos n = .ok buf' ∧ buf'.Shows contents (pos + n) size := by
  rw [← h.pos, ← h.len] at hn
  refine ⟨_, dif_pos ⟨hincr, hn⟩, h.contents, ?_, h.size⟩
  rw [← h.pos]

/-- Inside of the used part the length stays. -/
theorem Shows.incrwritepos (h : buf.Shows contents pos size) (hincr : n ≤ bufMaxIncr)
    (hn : pos + n ≤ contents.length) :
    ∃ buf', buf.incrwritepos n = .ok buf' ∧ buf'.Shows contents (pos + n) size := by
  have hfits := Nat.le_trans hn h.len_le
  rw [← h.pos, ← h.size] at hfits
  rw [← h.pos, ← h.len] at hn
  refine ⟨_, dif_pos ⟨hincr, hfits⟩, ?_, ?_, h.size⟩
  · rw [← h.contents]
    simp only [Buf.contents]
    rw [Nat.max_eq_left hn]
  · rw [← h.pos]

/-- A longer used part ends in bytes that nothing is known about. -/
theorem Shows.setlen (h : buf.Shows contents pos size) (hlen : contents.length ≤ n) (hn : n ≤ size) :
    ∃ buf' junk, buf.setlen n = .ok buf' ∧ junk.length = n - contents.length ∧
      buf'.Shows (contents ++ junk) pos size := by
  have hfits : n ≤ buf.size := by rw [h.size]; exact hn
  refine ⟨_, (buf.data.drop buf.len).take (n - buf.len), dif_pos hfits, ?_, ?_, ?_, h.size⟩
  · rw [List.length_take, List.length_drop, h.len]
    rw [Buf.size] at hfits
    omega
  · rw [← h.contents]
    simp only [Buf.contents]
    rw [← List.take_add, h.len, Nat.add_sub_cancel' hlen]
  · rw [← h.pos]
    exact Nat.min_eq_left (by rw [h.pos]; exact Nat.le_trans h.pos_le hlen)

theorem Shows.setlen_shrink (h : buf.Shows contents pos size) (hn : n ≤ contents.length)
    (hpos : pos ≤ n) :
    ∃ buf', buf.setlen n = .ok buf' ∧ buf'.Shows (contents.take n) pos size := by
  have hfits : n ≤ buf.size := by rw [h.size]; exact Nat.le_trans hn h.len_le
  refine ⟨_, dif_pos hfits, ?_, ?_, h.size⟩
  · rw [← h.contents]
    simp only [Buf.contents]
    rw [List.take_take, Nat.min_eq_left (by rw [h.len]; exact hn)]
  · rw [← h.pos] at hpos ⊢
    exact Nat.min_eq_left hpos

theorem Shows.incrlen (h : buf.Shows contents pos size) (hincr : n ≤ bufMaxIncr)
    (hn : contents.length + n ≤ size) :
    ∃ buf' junk, buf.incrlen n = .ok buf' ∧ junk.length = n ∧
      buf'.Shows (contents ++ junk) pos size := by
  have hfits : buf.len + n ≤ buf.size := by rw [h.len, h.size]; exact hn
  refine ⟨_, (buf.data.drop buf.len).take n, dif_pos ⟨hincr, hfits⟩, ?_, ?_, h.pos, h.size⟩
  · rw [List.length_take, List.length_drop]
    rw [Buf.size] at hfits
    omega
  · rw [← h.contents]
    simp only [Buf.contents]
    rw [← List.take_add]

theorem Shows.getptr (h : buf.Shows contents pos size) (hincr : n ≤ bufMaxIncr)
    (hn : pos + n ≤ contents.length) : buf.getptr n = .ok ((contents.drop pos).take n) := by
  rw [← h.pos, ← h.len] at hn
  rw [Buf.getptr, if_pos ⟨hincr, hn⟩, ← h.contents, ← h.pos, Buf.contents, List.drop_take,
    List.take_take, Nat.min_eq_left (by omega)]

theorem Shows.getwriteptr (h : buf.Shows contents pos size) (hincr : n ≤ bufMaxIncr)
    (hn : pos + n ≤ size) : buf.getwriteptr n = .ok () := by
  rw [Buf.getwriteptr, if_pos]
  rw [h.pos, h.size]
  exact ⟨hincr, hn⟩

/-- A write inside of the used part. -/
theorem Shows.store (h : buf.Shows contents pos size) (bytes : Bytes)
    (hn : pos + bytes.length ≤ contents.length) :
    ∃ buf', buf.store bytes = .ok buf' ∧
      buf'.Shows (Ring.overwrite contents pos bytes) pos size := by
  have hlen := h.len_le
  have hfits : buf.pos + bytes.length ≤ buf.size := by
    rw [h.pos, h.size]
    omega
  refine ⟨_, dif_pos hfits, ?_, h.pos, ?_⟩
  · have hinside : buf.pos + bytes.length ≤ buf.len := by
      rw [h.pos, h.len]
      exact hn
    rw [← h.contents, ← h.pos]
    refine Eq.trans ?_ (Ring.take_overwrite buf.pos_le buf.len_le)
    rw [Nat.max_eq_left hinside]
    rfl
  · rw [← h.size]
    exact Ring.length_overwrite hfits

/-- A write at the end of the used part, or across it, makes it longer. -/
theorem Shows.putbytes (h : buf.Shows contents pos size) (bytes : Bytes)
    (hincr : bytes.length ≤ bufMaxIncr) (hn : pos + bytes.length ≤ size) :
    ∃ buf', buf.putbytes bytes = .ok buf' ∧
      buf'.Shows (Ring.overwrite contents pos bytes) (pos + bytes.length) size := by
  have hfits : buf.pos + bytes.length ≤ buf.size := by
    rw [h.pos, h.size]
    exact hn
  have hstore : buf.store bytes = .ok _ := dif_pos hfits
  have hwrite : (Ring.overwrite buf.data buf.pos bytes).length = buf.size := Ring.length_overwrite hfits
  rw [Buf.putbytes, h.getwriteptr hincr hn, ok_bind, hstore, ok_bind, Buf.incrwritepos, dif_pos]
  · refine ⟨_, rfl, ?_, ?_, ?_⟩
    · rw [← h.contents, ← h.pos]
      exact Ring.take_overwrite buf.pos_le buf.len_le
    · rw [← h.pos]
    · rw [← h.size, ← hwrite]
      rfl
  · refine ⟨hincr, ?_⟩
    dsimp only [Buf.size]
    rw [hwrite]
    exact hfits

theorem length_store32h (n : Nat) : (store32h n).length = 4 := rfl

theorem load32h_store32h (h : n < 0x100000000) : load32h (store32h n) = n := by
  simp only [load32h, store32h, List.foldl_cons, List.foldl_nil, UInt8.toNat_ofNat']
  omega

theorem Shows.getint (h : buf.Shows contents pos size) (hn : pos + 4 ≤ contents.length) :
    ∃ buf', buf.getint = .ok (load32h ((contents.drop pos).take 4), buf') ∧
      buf'.Shows contents (pos + 4) size := by
  obtain ⟨buf', hincr, h'⟩ := h.incrpos (n := 4) (by decide) hn
  refine ⟨buf', ?_, h'⟩
  rw [Buf.getint, h.getptr (by decide) hn, ok_bind, hincr, ok_bind]
  rfl

theorem Shows.getbyte {b : UInt8} {rest : Bytes} (h : buf.Shows contents pos size)
    (hb : contents.drop pos = b :: rest) :
    ∃ buf', buf.getbyte = .ok (b, buf') ∧ buf'.Shows contents (pos + 1) size := by
  have hlt : pos < contents.length := by
    rcases Nat.lt_or_ge pos contents.length with hlt | hle
    · exact hlt
    · rw [List.drop_of_length_le hle] at hb
      exact absurd hb (by simp)
  rw [← h.pos, ← h.len] at hlt
  have hbyte : buf.data.getD buf.pos 0 = b := by
    rw [← h.contents, ← h.pos, Buf.contents, List.drop_take] at hb
    have hhead := congrArg List.head? hb
    rw [List.head?_take, if_neg (by omega), List.head?_drop, List.head?_cons] at hhead
    rw [List.getD_eq_getElem?_getD, hhead]
    rfl
  refine ⟨{ buf with pos := buf.pos + 1, pos_le := hlt }, ?_, h.contents, ?_, h.size⟩
  · rw [Buf.getbyte, dif_pos hlt, hbyte]
  · rw [← h.pos]

/-- A byte inside of the used part. -/
theorem Shows.putbyte (h : buf.Shows contents pos size) (b : UInt8) (hn : pos < contents.length) :
    ∃ buf', buf.putbyte b = .ok buf' ∧
      buf'.Shows (Ring.overwrite contents pos [b]) (pos + 1) size := by
  have hinside : ¬ buf.len ≤ buf.pos := by
    rw [h.len, h.pos]
    omega
  have hone : pos + [b].length ≤ contents.length := hn
  obtain ⟨buf₁, hstore, h₁⟩ := h.store [b] hone
  obtain ⟨buf₂, hincr, h₂⟩ := h₁.incrpos (n := 1) (by decide)
    (by rw [Ring.length_overwrite hone]; exact hn)
  refine ⟨buf₂, ?_, h₂⟩
  simp only [Buf.putbyte, if_neg hinside, pure_eq_ok, ok_bind, hstore, hincr]

/-! ## Writing at the end -/

/-- The writer adds these bytes at the end of a buffer, and ends the process if they do not fit. -/
def Appends (write : Buf → Except PacketExit Buf) (bytes : Bytes) : Prop :=
  ∀ (buf : Buf) (contents : Bytes) (size : Nat), buf.Shows contents contents.length size →
    Meets (write buf) (·.Shows (contents ++ bytes) (contents ++ bytes).length size)
      fun _ => size < contents.length + bytes.length

variable {write write' : Buf → Except PacketExit Buf} {bytes bytes' : Bytes}

theorem appends_nothing : Appends .ok [] := by
  intro buf contents size h
  rw [meets_ok, List.append_nil]
  exact h

theorem Appends.bind (h : Appends write bytes) (h' : Appends write' bytes') :
    Appends (fun buf => write buf >>= write') (bytes ++ bytes') := by
  intro buf contents size hshows
  beta_reduce
  have hfirst := h buf contents size hshows
  cases hwrite : write buf with
  | error why =>
    rw [hwrite, meets_error] at hfirst
    rw [error_bind, meets_error, List.length_append]
    omega
  | ok buf' =>
    rw [hwrite, meets_ok] at hfirst
    have hrest := h' buf' _ size hfirst
    have hlen : contents.length + (bytes ++ bytes').length
        = (contents ++ bytes).length + bytes'.length := by
      simp only [List.length_append]
      omega
    rw [ok_bind, hlen, ← List.append_assoc]
    exact hrest

/-- What a writer does to an empty buffer. -/
theorem Appends.run (h : Appends write bytes) (hclear : buf.Shows [] 0 size)
    (hfits : bytes.length ≤ size) :
    ∃ buf', write buf = .ok buf' ∧ buf'.Shows bytes bytes.length size := by
  have hwrite := h buf [] size hclear
  cases hbuf : write buf with
  | error why =>
    rw [hbuf, meets_error, List.length_nil] at hwrite
    omega
  | ok buf' =>
    rw [hbuf] at hwrite
    exact ⟨buf', rfl, hwrite⟩

/-- It answers exactly if the bytes fit. -/
theorem Appends.ok_iff (h : Appends write bytes) (hclear : buf.Shows [] 0 size) :
    (∃ buf', write buf = .ok buf') ↔ bytes.length ≤ size := by
  constructor
  · rintro ⟨buf', hbuf⟩
    have hwrite := h buf [] size hclear
    rw [hbuf] at hwrite
    exact hwrite.len_le
  · intro hfits
    obtain ⟨buf', hbuf, -⟩ := h.run hclear hfits
    exact ⟨buf', hbuf⟩

theorem appends_putbytes (bytes : Bytes) : Appends (putbytes · bytes) bytes := by
  intro buf contents size h
  beta_reduce
  rcases Nat.lt_or_ge size (contents.length + bytes.length) with hlong | hfits
  · have hno : buf.getwriteptr bytes.length = .error .badBufGetwriteptr := by
      rw [Buf.getwriteptr, if_neg]
      rw [h.pos, h.size]
      omega
    rw [Buf.putbytes, hno]
    exact hlong
  · have hsize := buf.size_le
    rw [← Buf.size, h.size] at hsize
    obtain ⟨buf', hbuf, h'⟩ := h.putbytes bytes (Nat.le_trans (by omega) hsize) hfits
    rw [Ring.overwrite_end rfl, ← List.length_append] at h'
    rw [hbuf]
    exact h'

theorem appends_putint (val : Nat) : Appends (putint · val) (store32h val) :=
  appends_putbytes (store32h val)

theorem appends_putbyte (val : UInt8) : Appends (putbyte · val) [val] := by
  intro buf contents size h
  have hend : buf.len ≤ buf.pos := by rw [h.len, h.pos]
  beta_reduce
  rw [Buf.putbyte, if_pos hend]
  rcases Nat.lt_or_ge size (contents.length + 1) with hlong | hfits
  · have hno : buf.incrlen 1 = .error .badBufIncrlen := by
      rw [Buf.incrlen, dif_neg]
      rw [h.len, h.size]
      omega
    rw [hno]
    exact hlong
  · obtain ⟨buf₁, junk, hincr, hjunk, h₁⟩ := h.incrlen (n := 1) (by decide) hfits
    obtain ⟨buf₂, hstore, h₂⟩ := h₁.store [val] (by simp [hjunk])
    have hover : Ring.overwrite (contents ++ junk) contents.length [val] = contents ++ [val] := by
      rw [← List.append_nil junk, Ring.overwrite_middle rfl hjunk, List.append_nil]
    rw [hover] at h₂
    obtain ⟨buf₃, hpos, h₃⟩ := h₂.incrpos (n := 1) (by decide) (by simp)
    simp only [hincr, ok_bind, hstore, hpos, meets_ok, List.length_append]
    exact h₃

end Buf

end Sshd4a
