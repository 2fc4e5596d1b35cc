import Sshd4a.Lib.Fallible
import Sshd4a.Lib.Machine
import Sshd4a.Lib.Ring
import Sshd4a.Lib.Utf8

/-!
# The circular buffer of a channel (`circbuffer.c`)

Data that arrives for a channel and cannot be written to its program at once waits in a
`circbuffer`. The buffer is a ring with two positions and a count, and the C checks with
`dropbear_assert`, before every write, that the three agree. The callers do the copying: they
ask for the place of the next write (`cbuf_writeptr`), copy as much as fits up to the end of the
block, and come back for the rest, which `common_recv_msg_channel_data` does in a loop whose
comment says that it may have to run twice.

What the buffer is for is a queue of bytes with a bound. `CircBuffer.Valid` is the invariant
under which it is one, and `CircBuffer.contents` is the queue. The lemmas below are the specs of
the operations in these words; no assertion fails and no copy leaves the block.

The sizes are `unsigned int` in the C. A buffer has at most `MAX_CBUF_SIZE` bytes, so that no sum
of the C comes near to 2³², and the differences in the C are of numbers the invariant keeps in
order.
-/

namespace Sshd4a

open Text Fallible

/-- How the code of the channels ends a session. -/
inductive ChanStop
  /-- `"Bad cbuf size"` -/
  | badCbufSize
  /-- `"Bad cbuf write"` -/
  | badCbufWrite
  /-- `"Failed assertion (%s:%d): …"` -/
  | failedAssertion
  /-- `"Received data after eof"` -/
  | dataAfterEof
  /-- `"Oversized packet"` -/
  | oversizedPacket
  /-- `"Unknown channel %d"` or `"%s for unknown channel %d"` -/
  | unknownChannel
  /-- `"Unexpected channel reply"` -/
  | unexpectedReply
  /-- `"Multiple pty requests"` -/
  | multiplePtyRequests
  /-- `"Bad term mode string"` -/
  | badTermModes
  /-- `"Bad buf_getbyte"` or `"Bad buf_getptr"` -/
  | badBufGet
  /-- An access outside the block of a buffer. -/
  | memory
  /-- A loop that makes no progress any more. -/
  | hang
deriving DecidableEq, Repr

/-- `MAX_CBUF_SIZE`. -/
def maxCbufSize : Nat := 100000000

structure CircBuffer where
  size : Nat
  used : Nat := 0
  readpos : Nat := 0
  writepos : Nat := 0
  /-- NULL until the first write. -/
  data : Option Bytes := none
deriving DecidableEq, Repr

def cbufNew (size : Nat) : Except ChanStop CircBuffer :=
  if maxCbufSize < size then .error .badCbufSize else .ok { size := size }

def cbufGetused (cbuf : CircBuffer) : Nat := cbuf.used

def cbufGetavail (cbuf : CircBuffer) : Nat := cbuf.size - cbuf.used

/-- `dropbear_assert`. -/
def dropbearAssert (condition : Bool) : Except ChanStop Unit :=
  if condition then .ok () else .error .failedAssertion

def cbufWritelen (cbuf : CircBuffer) : Except ChanStop Nat := do
  dropbearAssert (cbuf.used ≤ cbuf.size)
  dropbearAssert
    ((2 * cbuf.size + cbuf.writepos - cbuf.readpos) % cbuf.size == cbuf.used % cbuf.size)
  dropbearAssert
    ((2 * cbuf.size + cbuf.readpos - cbuf.writepos) % cbuf.size
      == (cbuf.size - cbuf.used) % cbuf.size)
  if cbuf.used = cbuf.size then return 0 -- full
  if cbuf.writepos < cbuf.readpos then return cbuf.readpos - cbuf.writepos
  return cbuf.size - cbuf.writepos

/-- The out-parameters of `cbuf_readptrs`, the pointers as offsets into the block. -/
structure ReadPtrs where
  p1 : Nat
  len1 : Nat
  p2 : Option Nat
  len2 : Nat
deriving DecidableEq, Repr

def cbufReadptrs (cbuf : CircBuffer) : ReadPtrs :=
  let len1 := min cbuf.used (cbuf.size - cbuf.readpos)
  if len1 < cbuf.used then
    { p1 := cbuf.readpos, len1 := len1, p2 := some 0, len2 := cbuf.used - len1 }
  else
    { p1 := cbuf.readpos, len1 := len1, p2 := none, len2 := 0 }

/-- The offset the pointer stands for, after the lazy allocation. `m_malloc` clears what it
    allocates. -/
def cbufWriteptr (cbuf : CircBuffer) (len : Nat) : Except ChanStop (CircBuffer × Nat) := do
  let writelen ← cbufWritelen cbuf
  if writelen < len then throw .badCbufWrite
  match cbuf.data with
  | none => return ({ cbuf with data := some (List.replicate cbuf.size 0) }, cbuf.writepos)
  | some _ => return (cbuf, cbuf.writepos)

def cbufIncrwrite (cbuf : CircBuffer) (len : Nat) : Except ChanStop CircBuffer := do
  let writelen ← cbufWritelen cbuf
  if writelen < len then throw .badCbufWrite
  dropbearAssert (cbuf.used + len ≤ cbuf.size)
  return { cbuf with
    used := cbuf.used + len
    writepos := (cbuf.writepos + len) % cbuf.size }

def cbufIncrread (cbuf : CircBuffer) (len : Nat) : Except ChanStop CircBuffer := do
  dropbearAssert (len ≤ cbuf.used)
  return { cbuf with
    used := cbuf.used - len
    readpos := (cbuf.readpos + len) % cbuf.size }

/-! ## What the callers do -/

/-- `memcpy` to an offset of the block. -/
def memcpyTo (cbuf : CircBuffer) (offset : Nat) (bytes : Bytes) : Except ChanStop CircBuffer :=
  match cbuf.data with
  | none => .error .memory
  | some block =>
    if offset + bytes.length ≤ block.length then
      .ok { cbuf with data := some (Ring.overwrite block offset bytes) }
    else .error .memory

/-- What an `iovec` of the block stands for. One of length zero is not followed. -/
def iovBytes (cbuf : CircBuffer) (base len : Nat) : Except ChanStop Bytes :=
  if len = 0 then .ok []
  else
    match cbuf.data with
    | none => .error .memory
    | some block =>
      if base + len ≤ block.length then .ok ((block.drop base).take len) else .error .memory

/-- The bytes the two pointers of `cbuf_readptrs` give, first the one then the other. -/
def cbufReadBytes (cbuf : CircBuffer) : Except ChanStop Bytes := do
  let ptrs := cbufReadptrs cbuf
  let first ← iovBytes cbuf ptrs.p1 ptrs.len1
  match ptrs.p2 with
  | none => return first
  | some p2 => return first ++ (← iovBytes cbuf p2 ptrs.len2)

/-- One turn of the copying loop, with `buflen` bytes. -/
def cbufCopy (cbuf : CircBuffer) (bytes : Bytes) : Except ChanStop CircBuffer := do
  let (cbuf, offset) ← cbufWriteptr cbuf bytes.length
  let cbuf ← memcpyTo cbuf offset bytes
  cbufIncrwrite cbuf bytes.length

/-- The `while (len > 0)` of `common_recv_msg_channel_data`, with a bound on its turns. -/
def cbufFill : Nat → CircBuffer → Bytes → Except ChanStop CircBuffer
  | turns, cbuf, bytes => do
    if bytes.isEmpty then return cbuf
    match turns with
    | 0 => throw .hang
    | turns + 1 =>
      let buflen := min (← cbufWritelen cbuf) bytes.length
      let cbuf ← cbufCopy cbuf (bytes.take buflen)
      cbufFill turns cbuf (bytes.drop buflen)

/-- The channel code as the user of one buffer: data that fits is put in, or the session ends;
    what was written of the bytes the pointers give is taken out. -/
def cbufStep : CircBuffer × Bytes → Fifo.Op UInt8 → Option (CircBuffer × Bytes)
  | (cbuf, out), .put bytes =>
    if cbufGetavail cbuf < bytes.length then none
    else
      match cbufFill (bytes.length + 2) cbuf bytes with
      | .error _ => none
      | .ok cbuf => some (cbuf, out)
  | (cbuf, out), .take written =>
    match cbufReadBytes cbuf, cbufIncrread cbuf written with
    | .ok bytes, .ok cbuf => some (cbuf, out ++ bytes.take written)
    | _, _ => none

/-! ## The invariant -/

namespace CircBuffer

/-- The positions and the count agree, and the block is there before it is needed. -/
structure Valid (cbuf : CircBuffer) : Prop where
  size_pos : 0 < cbuf.size
  used_le : cbuf.used ≤ cbuf.size
  readpos_lt : cbuf.readpos < cbuf.size
  writepos_eq : cbuf.writepos = (cbuf.readpos + cbuf.used) % cbuf.size
  block : ∀ block ∈ cbuf.data, block.length = cbuf.size
  lazy : cbuf.data = none → cbuf.used = 0

/-- The queue the ring contains. -/
def contents (cbuf : CircBuffer) : Bytes :=
  Ring.run (cbuf.data.getD []) cbuf.readpos cbuf.used

/-- The bytes that can be written before the end of the block. -/
def room (cbuf : CircBuffer) : Nat :=
  if cbuf.used = cbuf.size then 0
  else if cbuf.writepos < cbuf.readpos then cbuf.readpos - cbuf.writepos
  else cbuf.size - cbuf.writepos

variable {cbuf : CircBuffer} {bytes : Bytes} {n : Nat}

namespace Valid

/-- Either the queue ends before the block does, or it has gone round. -/
theorem writepos_cases (h : cbuf.Valid) :
    cbuf.readpos + cbuf.used < cbuf.size ∧ cbuf.writepos = cbuf.readpos + cbuf.used ∨
      cbuf.size ≤ cbuf.readpos + cbuf.used ∧
        cbuf.writepos + cbuf.size = cbuf.readpos + cbuf.used := by
  have hread := h.readpos_lt
  have hused := h.used_le
  rw [h.writepos_eq]
  by_cases hround : cbuf.readpos + cbuf.used < cbuf.size
  · exact .inl ⟨hround, Nat.mod_eq_of_lt hround⟩
  · have hge : cbuf.size ≤ cbuf.readpos + cbuf.used := Nat.le_of_not_lt hround
    refine .inr ⟨hge, ?_⟩
    rw [Nat.mod_eq_sub_mod hge, Nat.mod_eq_of_lt (by omega)]
    omega

/-- **The assertions of `cbuf_writelen` hold.** -/
theorem writelen (h : cbuf.Valid) : cbufWritelen cbuf = .ok cbuf.room := by
  have hused := h.used_le
  have hwrite : (2 * cbuf.size + cbuf.writepos - cbuf.readpos) % cbuf.size
      = cbuf.used % cbuf.size := by
    obtain ⟨-, hpos⟩ | ⟨-, hpos⟩ := h.writepos_cases
    · have heq : 2 * cbuf.size + cbuf.writepos - cbuf.readpos = cbuf.used + cbuf.size * 2 := by
        omega
      rw [heq, Nat.add_mul_mod_self_left]
    · have heq : 2 * cbuf.size + cbuf.writepos - cbuf.readpos = cbuf.used + cbuf.size * 1 := by
        omega
      rw [heq, Nat.add_mul_mod_self_left]
  have hread : (2 * cbuf.size + cbuf.readpos - cbuf.writepos) % cbuf.size
      = (cbuf.size - cbuf.used) % cbuf.size := by
    obtain ⟨-, hpos⟩ | ⟨-, hpos⟩ := h.writepos_cases
    · have heq : 2 * cbuf.size + cbuf.readpos - cbuf.writepos
          = cbuf.size - cbuf.used + cbuf.size * 1 := by omega
      rw [heq, Nat.add_mul_mod_self_left]
    · have heq : 2 * cbuf.size + cbuf.readpos - cbuf.writepos
          = cbuf.size - cbuf.used + cbuf.size * 2 := by omega
      rw [heq, Nat.add_mul_mod_self_left]
  simp only [cbufWritelen, dropbearAssert, hused, hwrite, hread, room, decide_true, beq_self_eq_true,
    if_true]
  split <;> [rfl; (split <;> rfl)]

theorem length_getD (h : cbuf.Valid) (hdata : cbuf.data ≠ none) :
    (cbuf.data.getD []).length = cbuf.size := by
  obtain ⟨block, hblock⟩ := Option.ne_none_iff_exists'.mp hdata
  rw [hblock]
  exact h.block block hblock

theorem length_contents (h : cbuf.Valid) : cbuf.contents.length = cbuf.used := by
  by_cases hdata : cbuf.data = none
  · rw [contents, h.lazy hdata, Ring.run_zero, List.length_nil]
  · apply Ring.length_run
    rw [h.length_getD hdata]
    exact h.used_le

/-- What can be written in one piece is all there is room for, or it ends with the block. -/
theorem room_cases (h : cbuf.Valid) :
    cbuf.room = cbufGetavail cbuf ∨
      cbuf.room ≤ cbufGetavail cbuf ∧ cbuf.writepos + cbuf.room = cbuf.size := by
  have hused := h.used_le
  have hread := h.readpos_lt
  simp only [room, cbufGetavail]
  by_cases hfull : cbuf.used = cbuf.size
  · rw [if_pos hfull, hfull, Nat.sub_self]
    exact .inl rfl
  · rw [if_neg hfull]
    obtain ⟨hlt, hpos⟩ | ⟨hge, hpos⟩ := h.writepos_cases
    · rw [if_neg (by omega)]
      exact .inr ⟨by omega, by omega⟩
    · rw [if_pos (by omega)]
      exact .inl (by omega)

theorem room_le (h : cbuf.Valid) : cbuf.room ≤ cbufGetavail cbuf := by
  obtain hroom | ⟨hroom, -⟩ := h.room_cases
  · exact Nat.le_of_eq hroom
  · exact hroom

theorem writepos_lt (h : cbuf.Valid) : cbuf.writepos < cbuf.size := by
  rw [h.writepos_eq]
  exact Nat.mod_lt _ h.size_pos

theorem writepos_add_room_le (h : cbuf.Valid) : cbuf.writepos + cbuf.room ≤ cbuf.size := by
  have hread := h.readpos_lt
  have hwrite := h.writepos_lt
  simp only [room]
  split
  · exact Nat.le_of_lt hwrite
  · split
    · omega
    · omega

/-- From the beginning of the block everything fits in one piece. -/
theorem room_of_writepos_zero (h : cbuf.Valid) (hzero : cbuf.writepos = 0) :
    cbuf.room = cbufGetavail cbuf := by
  have hused := h.used_le
  obtain hroom | ⟨hle, hroom⟩ := h.room_cases
  · exact hroom
  · simp only [cbufGetavail] at hle ⊢
    omega

/-! ### Writing -/

end Valid

/-- The block, once it is needed. -/
def allocated (cbuf : CircBuffer) : Bytes := cbuf.data.getD (List.replicate cbuf.size 0)

namespace Valid

theorem length_allocated (h : cbuf.Valid) : cbuf.allocated.length = cbuf.size := by
  cases hdata : cbuf.data with
  | none => rw [allocated, hdata, Option.getD_none, List.length_replicate]
  | some block =>
    rw [allocated, hdata]
    exact h.block block hdata

theorem run_allocated (h : cbuf.Valid) :
    Ring.run cbuf.allocated cbuf.readpos cbuf.used = cbuf.contents := by
  cases hdata : cbuf.data with
  | none => rw [contents, h.lazy hdata, Ring.run_zero, Ring.run_zero]
  | some block => rw [contents, allocated, hdata, Option.getD_some, Option.getD_some]

theorem writeptr (h : cbuf.Valid) (hroom : n ≤ cbuf.room) :
    cbufWriteptr cbuf n = .ok ({ cbuf with data := some cbuf.allocated }, cbuf.writepos) := by
  rw [cbufWriteptr, h.writelen]
  simp only [ok_bind, if_neg (Nat.not_lt.mpr hroom), pure_eq_ok]
  cases hdata : cbuf.data with
  | none => simp only [allocated, hdata, Option.getD_none]
  | some block =>
    have hsome : some cbuf.allocated = cbuf.data := by rw [allocated, hdata, Option.getD_some]
    rw [hsome]

/-- A ring after a write at its end. -/
theorem written (h : cbuf.Valid) (hroom : bytes.length ≤ cbuf.room) :
    ({ cbuf with
      data := some (Ring.overwrite cbuf.allocated cbuf.writepos bytes)
      used := cbuf.used + bytes.length
      writepos := (cbuf.writepos + bytes.length) % cbuf.size } : CircBuffer).Valid := by
  have havail := Nat.le_trans hroom h.room_le
  have hfits := Nat.le_trans (Nat.add_le_add_left hroom _) h.writepos_add_room_le
  have hused := h.used_le
  simp only [cbufGetavail] at havail
  constructor
  case size_pos => exact h.size_pos
  case used_le =>
    dsimp only
    omega
  case readpos_lt => exact h.readpos_lt
  case writepos_eq =>
    dsimp only
    rw [h.writepos_eq, Nat.mod_add_mod, Nat.add_assoc]
  case block =>
    intro block hblock
    rw [Option.mem_def, Option.some.injEq] at hblock
    rw [← hblock, Ring.length_overwrite (by rw [h.length_allocated]; exact hfits),
      h.length_allocated]
  case lazy =>
    intro hnone
    exact absurd hnone (Option.some_ne_none _)

/-- **One turn of the copying loop** puts what it copies at the end of the queue. -/
theorem copy (h : cbuf.Valid) (hroom : bytes.length ≤ cbuf.room) :
    ∃ cbuf', cbufCopy cbuf bytes = .ok cbuf' ∧ cbuf'.Valid ∧ cbuf'.size = cbuf.size ∧
      cbuf'.contents = cbuf.contents ++ bytes ∧
      cbuf'.writepos = (cbuf.writepos + bytes.length) % cbuf.size := by
  have havail := Nat.le_trans hroom h.room_le
  have hfits := Nat.le_trans (Nat.add_le_add_left hroom _) h.writepos_add_room_le
  have hused := h.used_le
  simp only [cbufGetavail] at havail
  refine ⟨_, ?_, h.written hroom, rfl, ?_, rfl⟩
  · have hmem : cbuf.writepos + bytes.length ≤ cbuf.allocated.length := by
      rw [h.length_allocated]
      exact hfits
    have hwritelen : cbufWritelen
        { cbuf with data := some (Ring.overwrite cbuf.allocated cbuf.writepos bytes) }
          = .ok cbuf.room := h.writelen
    rw [cbufCopy, h.writeptr hroom]
    simp only [ok_bind, memcpyTo, if_pos hmem, cbufIncrwrite, hwritelen,
      if_neg (Nat.not_lt.mpr hroom), dropbearAssert, pure_eq_ok]
    rw [if_pos (by simp; omega)]
    rfl
  · rw [contents, ← h.run_allocated]
    apply Ring.run_overwrite
    · rw [h.length_allocated]
      exact h.readpos_lt
    · rw [h.length_allocated]
      omega
    · rw [h.length_allocated]
      exact h.writepos_eq
    · rw [h.length_allocated]
      exact hfits

/-- **The copying loop is done after two turns**, whatever bound above that it has: the first
    ends with the data or with the block, the second begins at the beginning of the block. -/
theorem fill (h : cbuf.Valid) (hfits : bytes.length ≤ cbufGetavail cbuf) (turns : Nat) :
    ∃ cbuf', cbufFill (turns + 2) cbuf bytes = .ok cbuf' ∧ cbuf'.Valid ∧
      cbuf'.size = cbuf.size ∧ cbuf'.contents = cbuf.contents ++ bytes := by
  by_cases hempty : bytes = []
  · subst hempty
    exact ⟨cbuf, by simp [cbufFill], h, rfl, (List.append_nil _).symm⟩
  rw [cbufFill, if_neg (by simpa using hempty), h.writelen]
  simp only [ok_bind]
  have hlen : (bytes.take (min cbuf.room bytes.length)).length = min cbuf.room bytes.length := by
    rw [List.length_take]
    omega
  have hfirst : (bytes.take (min cbuf.room bytes.length)).length ≤ cbuf.room := by omega
  obtain ⟨cbuf₁, hcopy, h₁, hsize₁, hcontents₁, hpos₁⟩ := h.copy hfirst
  rw [hcopy, ok_bind]
  have hused₁ : cbuf₁.used = cbuf.used + min cbuf.room bytes.length := by
    rw [← h₁.length_contents, hcontents₁, List.length_append, h.length_contents, hlen]
  by_cases hrest : bytes.drop (min cbuf.room bytes.length) = []
  · rw [hrest]
    refine ⟨cbuf₁, by simp [cbufFill], h₁, hsize₁, ?_⟩
    rw [hcontents₁, List.take_of_length_le (List.drop_eq_nil_iff.mp hrest)]
  · -- something is left, so the first turn ended at the end of the block
    have hlt : cbuf.room < bytes.length := by
      rw [List.drop_eq_nil_iff] at hrest
      omega
    rw [Nat.min_eq_left (Nat.le_of_lt hlt)] at hrest hlen hused₁ hpos₁ hcontents₁ ⊢
    have hend : cbuf.writepos + cbuf.room = cbuf.size := by
      obtain hroom | ⟨-, hroom⟩ := h.room_cases
      · omega
      · exact hroom
    have hzero : cbuf₁.writepos = 0 := by rw [hpos₁, hlen, hend, Nat.mod_self]
    have hroom₁ : (bytes.drop cbuf.room).length ≤ cbuf₁.room := by
      rw [h₁.room_of_writepos_zero hzero, List.length_drop]
      simp only [cbufGetavail] at hfits ⊢
      omega
    rw [cbufFill, if_neg (by simpa using hrest), h₁.writelen]
    simp only [ok_bind]
    rw [Nat.min_eq_right hroom₁, List.take_length, List.drop_length]
    obtain ⟨cbuf₂, hcopy₂, h₂, hsize₂, hcontents₂, -⟩ := h₁.copy hroom₁
    rw [hcopy₂, ok_bind]
    refine ⟨cbuf₂, by cases turns <;> simp [cbufFill], h₂, hsize₂.trans hsize₁, ?_⟩
    rw [hcontents₂, hcontents₁, List.append_assoc, List.take_append_drop]

/-! ### Reading -/

theorem incrread (h : cbuf.Valid) (hn : n ≤ cbuf.used) :
    ∃ cbuf', cbufIncrread cbuf n = .ok cbuf' ∧ cbuf'.Valid ∧ cbuf'.size = cbuf.size ∧
      cbuf'.contents = cbuf.contents.drop n := by
  have hused := h.used_le
  refine ⟨{ cbuf with used := cbuf.used - n, readpos := (cbuf.readpos + n) % cbuf.size }, ?_, ?_,
    rfl, ?_⟩
  · rw [cbufIncrread, dropbearAssert, if_pos (by simpa using hn)]
    rfl
  · constructor
    case size_pos => exact h.size_pos
    case used_le => exact Nat.le_trans (Nat.sub_le _ _) hused
    case readpos_lt => exact Nat.mod_lt _ h.size_pos
    case writepos_eq =>
      dsimp only
      rw [h.writepos_eq, Nat.mod_add_mod]
      congr 1
      omega
    case block => exact h.block
    case lazy =>
      intro hnone
      dsimp only
      rw [h.lazy hnone, Nat.zero_sub]
  · by_cases hdata : cbuf.data = none
    · have hzero : cbuf.used = 0 := h.lazy hdata
      simp only [contents, hzero, Nat.zero_sub, Ring.run_zero, List.drop_nil]
    · have hblock := h.length_getD hdata
      simp only [contents]
      rw [← hblock]
      exact Ring.run_advance hn (by rw [hblock]; exact hused)

theorem iovBytes_eq {block : Bytes} (hdata : cbuf.data = some block) (base len : Nat)
    (hfits : base + len ≤ block.length) :
    iovBytes cbuf base len = .ok ((block.drop base).take len) := by
  rw [iovBytes, hdata]
  by_cases hzero : len = 0
  · rw [if_pos hzero, hzero, List.take_zero]
  · rw [if_neg hzero]
    exact if_pos hfits

/-- **The two pointers of `cbuf_readptrs` give the queue**, and both stay inside the block. -/
theorem readBytes (h : cbuf.Valid) : cbufReadBytes cbuf = .ok cbuf.contents := by
  have hused := h.used_le
  have hread := h.readpos_lt
  by_cases hdata : cbuf.data = none
  · have hzero : cbuf.used = 0 := h.lazy hdata
    simp [cbufReadBytes, cbufReadptrs, hzero, iovBytes, contents]
  · have hblock := h.length_getD hdata
    obtain ⟨block, hsome⟩ := Option.ne_none_iff_exists'.mp hdata
    rw [hsome, Option.getD_some] at hblock
    have hpieces : cbuf.contents = (block.drop cbuf.readpos).take
        (min cbuf.used (cbuf.size - cbuf.readpos))
          ++ block.take (cbuf.used - min cbuf.used (cbuf.size - cbuf.readpos)) := by
      rw [contents, hsome, Option.getD_some, ← hblock]
      apply Ring.run_pieces
      · omega
      · omega
    have hfirst := iovBytes_eq hsome cbuf.readpos
      (min cbuf.used (cbuf.size - cbuf.readpos)) (by omega)
    by_cases hround : min cbuf.used (cbuf.size - cbuf.readpos) < cbuf.used
    · have hsecond := iovBytes_eq hsome 0
        (cbuf.used - min cbuf.used (cbuf.size - cbuf.readpos)) (by omega)
      simp only [cbufReadBytes, cbufReadptrs, if_pos hround, hfirst, hsecond, ok_bind, pure_eq_ok,
        List.drop_zero, hpieces]
    · have hall : cbuf.used - min cbuf.used (cbuf.size - cbuf.readpos) = 0 := by omega
      simp only [cbufReadBytes, cbufReadptrs, if_neg hround, hfirst, ok_bind, pure_eq_ok,
        hpieces, hall, List.take_zero, List.append_nil]

end Valid

theorem valid_new {size : Nat} (hpos : 0 < size) : Valid { size := size } where
  size_pos := hpos
  used_le := Nat.zero_le _
  readpos_lt := hpos
  writepos_eq := by simp
  block := by simp
  lazy := fun _ => rfl

/-! ## The queue -/

/-- A step shows as the step of the queue. -/
theorem Valid.step (h : cbuf.Valid) (out : Bytes) (op : Fifo.Op UInt8) :
    (cbufStep (cbuf, out) op).map (fun s => (s.1.contents, s.2))
        = Fifo.step cbuf.size (cbuf.contents, out) op ∧
      ∀ s, cbufStep (cbuf, out) op = some s → s.1.Valid ∧ s.1.size = cbuf.size := by
  have hlen := h.length_contents
  have hused := h.used_le
  cases op with
  | put bytes =>
    simp only [cbufStep, Fifo.step]
    by_cases hfits : bytes.length ≤ cbufGetavail cbuf
    · obtain ⟨cbuf', hfill, h', hsize, hcontents⟩ := h.fill hfits bytes.length
      rw [if_neg (Nat.not_lt.mpr hfits), hfill]
      simp only [cbufGetavail] at hfits
      rw [if_pos (by omega)]
      refine ⟨by simp only [Option.map_some, hcontents], ?_⟩
      intro s hs
      cases hs
      exact ⟨h', hsize⟩
    · rw [if_pos (Nat.lt_of_not_le hfits)]
      simp only [cbufGetavail] at hfits
      rw [if_neg (by omega)]
      exact ⟨rfl, fun s hs => nomatch hs⟩
  | take n =>
    simp only [cbufStep, Fifo.step, h.readBytes]
    by_cases hn : n ≤ cbuf.used
    · obtain ⟨cbuf', hread, h', hsize, hcontents⟩ := h.incrread hn
      rw [if_pos (by omega), hread]
      refine ⟨by simp only [Option.map_some, hcontents], ?_⟩
      intro s hs
      cases hs
      exact ⟨h', hsize⟩
    · have hstop : cbufIncrread cbuf n = .error .failedAssertion := by
        rw [cbufIncrread, dropbearAssert, if_neg (by simpa using hn)]
        rfl
      rw [if_neg (by omega), hstop]
      exact ⟨rfl, fun s hs => nomatch hs⟩

end CircBuffer

/-- **A circular buffer is a queue with a bound.** Whatever is put into a new buffer and taken
    from it, in whatever order and amounts, what comes out and what is left are those of the
    queue, and the run goes on exactly as long as the queue's does. -/
theorem cbuf_run_eq_fifo_run {size : Nat} (hpos : 0 < size) (hmax : size ≤ maxCbufSize)
    (ops : List (Fifo.Op UInt8)) :
    ∃ cbuf, cbufNew size = .ok cbuf ∧
      (Machine.run cbufStep (cbuf, []) ops).map (fun s => (s.1.contents, s.2))
        = Machine.run (Fifo.step size) ([], []) ops := by
  refine ⟨{ size := size }, if_neg (Nat.not_lt.mpr hmax), ?_⟩
  apply Machine.run_refines (I := fun s => s.1.Valid ∧ s.1.size = size)
    (fun s : CircBuffer × Bytes => (s.1.contents, s.2)) ?_ ?_
    (s := ({ size := size }, [])) ⟨CircBuffer.valid_new hpos, rfl⟩ ops
  · intro s op s' h hs
    obtain ⟨h', hsize⟩ := (h.1.step s.2 op).2 s' hs
    exact ⟨h', hsize.trans h.2⟩
  · intro s op h
    have hview := (h.1.step s.2 op).1
    rw [h.2] at hview
    exact hview

theorem cbuf_run_eq_fifo_run_four :
    ∃ cbuf, cbufNew 4 = .ok cbuf ∧
      (Machine.run cbufStep (cbuf, []) [.put [1, 2, 3], .take 2, .put [4, 5, 6], .take 4]).map
        (fun s => (s.1.contents, s.2)) = some ([], [1, 2, 3, 4, 5, 6]) :=
  cbuf_run_eq_fifo_run (by decide) (by decide) _

end Sshd4a
