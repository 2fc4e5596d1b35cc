import Mathlib.Data.List.Basic

/-!
# Characters and their UTF-8 bytes

One side of the system reads text as characters, the other as bytes. `utf8` and `decodeUtf8`
are the two directions; the strict decoder is the core library's, so a malformed sequence (an
overlong form, a surrogate, a stray continuation byte) has no decoding, and `decodeUtf8_iff`
says that the two are inverse to each other.

Every delimiter either side looks for is ASCII, and `mem_utf8` is the reason that the two
views agree about where delimiters are: a byte below 0x80 occurs in the encoding exactly
where its character occurs in the text.
-/

namespace Text

/-- A byte string. A C string is one without the terminating NUL. -/
abbrev Bytes := List UInt8

/-- The UTF-8 encoding of a sequence of Unicode scalar values. -/
def utf8 (cs : List Char) : Bytes := cs.flatMap String.utf8EncodeChar

/-- Strict UTF-8 decoding; `none` is a malformed input. -/
def decodeUtf8 (bs : Bytes) : Option (List Char) :=
  bs.toByteArray.utf8Decode?.map Array.toList

@[simp] theorem utf8_nil : utf8 [] = [] := rfl

@[simp] theorem utf8_append (a b : List Char) : utf8 (a ++ b) = utf8 a ++ utf8 b := by
  simp [utf8]

theorem utf8_cons (c : Char) (cs : List Char) :
    utf8 (c :: cs) = String.utf8EncodeChar c ++ utf8 cs := by
  simp [utf8]

@[simp] theorem utf8_eq_nil {cs : List Char} : utf8 cs = [] ↔ cs = [] := by
  cases cs with
  | nil => simp
  | cons c cs =>
    have : (String.utf8EncodeChar c).length ≠ 0 := by
      rw [String.length_utf8EncodeChar]
      exact Nat.ne_of_gt c.utf8Size_pos
    simp only [utf8_cons, List.append_eq_nil_iff, reduceCtorEq, iff_false, not_and]
    intro h
    rw [h] at this
    exact absurd rfl this

@[simp] theorem decodeUtf8_utf8 (cs : List Char) : decodeUtf8 (utf8 cs) = some cs := by
  have h : (utf8 cs).toByteArray = cs.utf8Encode := rfl
  simp [decodeUtf8, h]

theorem decodeUtf8_iff {bs : Bytes} {cs : List Char} :
    decodeUtf8 bs = some cs ↔ bs = utf8 cs := by
  refine ⟨fun h => ?_, fun h => by rw [h, decodeUtf8_utf8]⟩
  obtain ⟨a, ha, rfl⟩ := Option.map_eq_some_iff.mp h
  have hs : bs.toByteArray.utf8Decode?.isSome := by rw [ha]; rfl
  have he : (bs.toByteArray.utf8Decode?.get hs).toList.utf8Encode = bs.toByteArray :=
    ByteArray.utf8Encode_get_utf8Decode?
  have hg : bs.toByteArray.utf8Decode?.get hs = a := by simp [ha]
  rw [hg] at he
  have hl : (utf8 a.toList).toByteArray.data.toList = bs.toByteArray.data.toList := by
    rw [← he]
    rfl
  simpa using hl.symm

/-! ## ASCII -/

/-- The byte of an ASCII character. -/
def byte (c : Char) : UInt8 := UInt8.ofNat c.toNat

theorem utf8EncodeChar_ascii {c : Char} (h : c.toNat < 0x80) :
    String.utf8EncodeChar c = [byte c] := by
  have : c.val.toNat ≤ 0x7f := Nat.le_of_lt_succ h
  simp only [String.utf8EncodeChar, this, if_true]
  rfl

theorem utf8_cons_ascii {c : Char} (h : c.toNat < 0x80) (cs : List Char) :
    utf8 (c :: cs) = byte c :: utf8 cs := by
  rw [utf8_cons, utf8EncodeChar_ascii h, List.singleton_append]

theorem utf8EncodeChar_high {c : Char} (h : 0x80 ≤ c.toNat) :
    ∀ b ∈ String.utf8EncodeChar c, 0x80 ≤ b.toNat := by
  have hv : ¬ c.val.toNat ≤ 0x7f := Nat.not_le.mpr h
  intro b hb
  simp only [String.utf8EncodeChar, hv, if_false] at hb
  split at hb
  · simp only [List.mem_cons, List.not_mem_nil, or_false] at hb
    rcases hb with rfl | rfl <;> simp only [UInt8.toNat_ofNat'] <;> omega
  · split at hb
    · simp only [List.mem_cons, List.not_mem_nil, or_false] at hb
      rcases hb with rfl | rfl | rfl <;> simp only [UInt8.toNat_ofNat'] <;> omega
    · simp only [List.mem_cons, List.not_mem_nil, or_false] at hb
      rcases hb with rfl | rfl | rfl | rfl <;> simp only [UInt8.toNat_ofNat'] <;> omega

theorem byte_toNat {c : Char} (h : c.toNat < 0x80) : (byte c).toNat = c.toNat := by
  simp only [byte, UInt8.toNat_ofNat']
  omega

/-- **An ASCII byte occurs in the encoding exactly where its character occurs.** -/
theorem mem_utf8 {c : Char} (h : c.toNat < 0x80) {cs : List Char} :
    byte c ∈ utf8 cs ↔ c ∈ cs := by
  induction cs with
  | nil => simp
  | cons d ds ih =>
    rw [utf8_cons, List.mem_append, ih, List.mem_cons]
    refine or_congr_left ⟨fun hm => ?_, fun hm => ?_⟩
    · by_cases hd : d.toNat < 0x80
      · rw [utf8EncodeChar_ascii hd, List.mem_singleton] at hm
        have hn : c.toNat = d.toNat := by
          rw [← byte_toNat h, ← byte_toNat hd, hm]
        exact Char.toNat_inj.mp hn
      · have hge := utf8EncodeChar_high (Nat.le_of_not_lt hd) _ hm
        rw [byte_toNat h] at hge
        omega
    · subst hm
      rw [utf8EncodeChar_ascii h]
      simp

/-- The text whose characters are the given bytes, as a single-byte charset reads them. -/
def latin1 (bs : Bytes) : List Char := bs.map fun b => Char.ofNat b.toNat

theorem utf8_latin1 {bs : Bytes} (h : ∀ b ∈ bs, b.toNat < 0x80) : utf8 (latin1 bs) = bs := by
  induction bs with
  | nil => rfl
  | cons b bs ih =>
    have hb : b.toNat < 0x80 := h b (by simp)
    have hc : (Char.ofNat b.toNat).toNat = b.toNat := by
      have hvalid : b.toNat.isValidChar := Or.inl (by omega)
      have hof : Char.ofNat b.toNat = Char.ofNatAux b.toNat hvalid := dif_pos hvalid
      rw [hof]
      rfl
    have hbyte : byte (Char.ofNat b.toNat) = b := by simp [byte, hc]
    have hi := ih fun x hx => h x (by simp [hx])
    rw [latin1] at hi ⊢
    rw [List.map_cons, utf8_cons_ascii (by omega), hbyte, hi]

end Text
