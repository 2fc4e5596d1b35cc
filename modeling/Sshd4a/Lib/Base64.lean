import Mathlib.Data.List.Basic
import Sshd4a.Lib.Utf8

/-!
# Base64 with padding

The encoder of RFC 4648 §4, groups of three bytes at a time, one or two `=` for a short last
group. Only facts about the *shape* of the output are needed here: it is made of the sixty-four
code characters and `=`, so it is ASCII and none of the characters a line format reserves can
occur in it, it is empty only for an empty input, and how long it is.
-/

namespace Text

/-- The code characters, in order of value. -/
def codesBase64 : Bytes :=
  ['A', 'B', 'C', 'D', 'E', 'F', 'G', 'H', 'I', 'J', 'K', 'L', 'M', 'N', 'O', 'P',
   'Q', 'R', 'S', 'T', 'U', 'V', 'W', 'X', 'Y', 'Z', 'a', 'b', 'c', 'd', 'e', 'f',
   'g', 'h', 'i', 'j', 'k', 'l', 'm', 'n', 'o', 'p', 'q', 'r', 's', 't', 'u', 'v',
   'w', 'x', 'y', 'z', '0', '1', '2', '3', '4', '5', '6', '7', '8', '9', '+', '/'].map byte

/-- `codes[x & 0x3F]`. -/
def base64Code (x : UInt8) : UInt8 := codesBase64.getD (x &&& 0x3F).toNat 0

/-- The padding character. -/
def base64Pad : UInt8 := byte '='

/-- Encode three bytes at a time; the last group is padded to four characters. -/
def base64Encode : Bytes → Bytes
  | a :: b :: c :: rest =>
    base64Code (a >>> 2) :: base64Code (((a &&& 3) <<< 4) + (b >>> 4)) ::
      base64Code (((b &&& 0xF) <<< 2) + (c >>> 6)) :: base64Code c :: base64Encode rest
  | [a, b] =>
    [base64Code (a >>> 2), base64Code (((a &&& 3) <<< 4) + (b >>> 4)),
      base64Code ((b &&& 0xF) <<< 2), base64Pad]
  | [a] => [base64Code (a >>> 2), base64Code ((a &&& 3) <<< 4), base64Pad, base64Pad]
  | [] => []

theorem base64Code_mem (x : UInt8) : base64Code x ∈ codesBase64 := by
  have hlen : (x &&& 0x3F).toNat < codesBase64.length := by
    have h : (x &&& 0x3F).toNat ≤ 0x3F := by
      rw [UInt8.toNat_and]
      exact Nat.and_le_right
    exact Nat.lt_of_le_of_lt h (by decide)
  have hget : base64Code x = codesBase64[(x &&& 0x3F).toNat] := by
    rw [base64Code, List.getD_eq_getElem?_getD, List.getElem?_eq_getElem hlen, Option.getD_some]
  rw [hget]
  exact List.getElem_mem hlen

theorem mem_base64Encode {bs : Bytes} : ∀ b ∈ base64Encode bs, b ∈ base64Pad :: codesBase64 := by
  have hcode : ∀ x, base64Code x ∈ base64Pad :: codesBase64 := fun x =>
    List.mem_cons_of_mem _ (base64Code_mem x)
  intro b hb
  induction bs using base64Encode.induct with
  | case1 x y z rest ih =>
    simp only [base64Encode, List.mem_cons] at hb
    rcases hb with rfl | rfl | rfl | rfl | hb
    · exact hcode _
    · exact hcode _
    · exact hcode _
    · exact hcode _
    · exact ih hb
  | case2 x y =>
    simp only [base64Encode, List.mem_cons, List.not_mem_nil, or_false] at hb
    rcases hb with rfl | rfl | rfl | rfl
    · exact hcode _
    · exact hcode _
    · exact hcode _
    · exact List.mem_cons_self
  | case3 x =>
    simp only [base64Encode, List.mem_cons, List.not_mem_nil, or_false] at hb
    rcases hb with rfl | rfl | rfl | rfl
    · exact hcode _
    · exact hcode _
    · exact List.mem_cons_self
    · exact List.mem_cons_self
  | case4 => simp [base64Encode] at hb

/-- Any property of the sixty-five characters holds of every byte of an encoding. -/
theorem base64Encode_all {q : UInt8 → Bool} (hq : (base64Pad :: codesBase64).all q = true)
    (bs : Bytes) : ∀ b ∈ base64Encode bs, q b = true := fun b hb =>
  List.all_eq_true.mp hq b (mem_base64Encode b hb)

theorem base64Encode_eq_nil {bs : Bytes} : base64Encode bs = [] ↔ bs = [] := by
  induction bs using base64Encode.induct <;> simp [base64Encode]

/-- Four characters for every three bytes, and for a short last group. -/
theorem length_base64Encode (bs : Bytes) :
    (base64Encode bs).length = 4 * ((bs.length + 2) / 3) := by
  induction bs using base64Encode.induct with
  | case1 a b c rest ih =>
    simp only [base64Encode, List.length_cons, ih]
    omega
  | case2 a b => simp [base64Encode]
  | case3 a => simp [base64Encode]
  | case4 => simp [base64Encode]

end Text
