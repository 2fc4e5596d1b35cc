import Sshd4a.Native.Users

/-!
# Reading a packet payload (`buffer.c`)

A userauth request reaches the server as bytes, and every field is taken from the front of
what is left of the payload. Each reader below either answers the value with the rest, or ends
the session the way the C does: `buf_getptr` and `buf_getbyte` exit when the payload is too
short, `buf_getstring` exits when the announced length is over `MAX_STRING_LEN`.

The position arithmetic of the C (`pos + len > buf->len`) is the comparison with the length of
the rest. A packet is at most `RECV_MAX_PACKET_LEN` bytes, far below where `pos + len` could
wrap.
-/

namespace Sshd4a

open Text

def maxStringLen : Nat := 9000

abbrev Reader (β : Type) := Bytes → Except Stop (β × Bytes)

def bufGetbyte : Reader UInt8
  | [] => .error (.exit .badBufGetbyte)
  | b :: rest => .ok (b, rest)

def bufGetbool : Reader Bool := fun payload =>
  match bufGetbyte payload with
  | .error stop => .error stop
  | .ok (b, rest) => .ok (b != 0, rest)

/-- `buf_getptr(buf, len)` followed by the copy and `buf_incrpos`. -/
def bufGetptr (len : Nat) : Reader Bytes := fun payload =>
  if payload.length < len then .error (.exit .badBufGetptr)
  else .ok (payload.take len, payload.drop len)

/-- `LOAD32H`: four bytes, most significant first. -/
def bufGetint : Reader Nat := fun payload =>
  match bufGetptr 4 payload with
  | .error stop => .error stop
  | .ok (bytes, rest) => .ok (bytes.foldl (fun n b => n * 256 + b.toNat) 0, rest)

def bufGetstring : Reader Bytes := fun payload =>
  match bufGetint payload with
  | .error stop => .error stop
  | .ok (len, rest) =>
    if maxStringLen < len then .error (.exit .stringTooLong)
    else bufGetptr len rest

/-! ## The sender's side -/

/-- An SSH `string`: its length in four bytes, then the bytes. -/
def sshString (b : Bytes) : Bytes :=
  [UInt8.ofNat (b.length / 0x1000000), UInt8.ofNat (b.length / 0x10000),
    UInt8.ofNat (b.length / 0x100), UInt8.ofNat b.length] ++ b

theorem bufGetint_sshString {b : Bytes} (h : b.length < 0x100000000) (rest : Bytes) :
    bufGetint (sshString b ++ rest) = .ok (b.length, b ++ rest) := by
  simp only [bufGetint, bufGetptr, sshString, List.cons_append, List.nil_append,
    List.length_cons, List.take_succ_cons, List.take_zero, List.drop_succ_cons, List.drop_zero]
  rw [if_neg (by omega)]
  simp only [List.foldl_cons, List.foldl_nil, UInt8.toNat_ofNat', Except.ok.injEq,
    Prod.mk.injEq, and_true]
  omega

/-- **A string that was sent is the string that is read**, unless it is too long. -/
theorem bufGetstring_sshString {b : Bytes} (h : b.length < 0x100000000) (rest : Bytes) :
    bufGetstring (sshString b ++ rest)
      = if maxStringLen < b.length then .error (.exit .stringTooLong) else .ok (b, rest) := by
  simp only [bufGetstring, bufGetint_sshString h]
  by_cases hlong : maxStringLen < b.length
  · rw [if_pos hlong, if_pos hlong]
  · rw [if_neg hlong, if_neg hlong, bufGetptr, if_neg (by simp), List.take_left, List.drop_left]

theorem bufGetstring_sshString_short {b : Bytes} (h : b.length ≤ maxStringLen) (rest : Bytes) :
    bufGetstring (sshString b ++ rest) = .ok (b, rest) := by
  rw [bufGetstring_sshString (Nat.lt_of_le_of_lt h (by decide)), if_neg (Nat.not_lt.mpr h)]

end Sshd4a
