import Sshd4a.Lib.Split
import Sshd4a.Lib.Utf8

/-!
# Splitting a text and splitting its bytes

A delimiter that is ASCII is at the same places in a text and in its UTF-8 encoding. So a reader
of bytes finds in the encoding what a reader of characters would find in the text: `AsciiDelim`
says that a predicate on bytes and one on characters mean the same delimiters, and the functions
of `Lib.Split` then commute with `utf8`.
-/

namespace Text

/-- The two predicates hold of the same ASCII characters, and of nothing else. -/
structure AsciiDelim (p : UInt8 → Bool) (q : Char → Bool) : Prop where
  byte : ∀ c, c.toNat < 0x80 → p (byte c) = q c
  char : ∀ c, q c = true → c.toNat < 0x80
  high : ∀ b : UInt8, p b = true → b.toNat < 0x80

theorem AsciiDelim.eq {d : Char} (hd : d.toNat < 0x80) :
    AsciiDelim (fun b => b == Text.byte d) (fun c => c == d) where
  byte := by
    intro c hc
    have hiff : Text.byte c = Text.byte d ↔ c = d := by
      rw [← UInt8.toNat_inj, byte_toNat hc, byte_toNat hd, Char.toNat_inj]
    simp [hiff]
  char := by
    intro c hc
    rw [beq_iff_eq.mp hc]
    exact hd
  high := by
    intro b hb
    rw [beq_iff_eq.mp hb, byte_toNat hd]
    exact hd

theorem AsciiDelim.or {p p' : UInt8 → Bool} {q q' : Char → Bool} (h : AsciiDelim p q)
    (h' : AsciiDelim p' q') : AsciiDelim (fun b => p b || p' b) (fun c => q c || q' c) where
  byte := fun c hc => by rw [h.byte c hc, h'.byte c hc]
  char := fun c hc => (Bool.or_eq_true_iff.mp hc).elim (h.char c) (h'.char c)
  high := fun b hb => (Bool.or_eq_true_iff.mp hb).elim (h.high b) (h'.high b)

theorem utf8_injective {s t : List Char} (h : utf8 s = utf8 t) : s = t := by
  have := congrArg decodeUtf8 h
  rwa [decodeUtf8_utf8, decodeUtf8_utf8, Option.some.injEq] at this

section
variable {p : UInt8 → Bool} {q : Char → Bool} (h : AsciiDelim p q)
include h

theorem AsciiDelim.encode_free {c : Char} (hc : q c = false) :
    ∀ b ∈ String.utf8EncodeChar c, p b = false := by
  intro b hb
  by_cases hascii : c.toNat < 0x80
  · rw [utf8EncodeChar_ascii hascii, List.mem_singleton] at hb
    rw [hb, h.byte c hascii]
    exact hc
  · by_contra hp
    have hlow := h.high b (by simpa using hp)
    have hhigh := utf8EncodeChar_high (Nat.le_of_not_lt hascii) b hb
    omega

theorem AsciiDelim.utf8_free {s : List Char} (hs : ∀ c ∈ s, q c = false) :
    ∀ b ∈ utf8 s, p b = false := by
  intro b hb
  obtain ⟨c, hc, hbc⟩ := List.mem_flatMap.mp hb
  exact h.encode_free (hs c hc) b hbc

/-- A text at a delimiter. -/
theorem AsciiDelim.utf8_append_cons {x : Char} (hx : q x = true) (a rest : List Char) :
    utf8 (a ++ x :: rest) = utf8 a ++ Text.byte x :: utf8 rest ∧ p (Text.byte x) = true := by
  have hascii := h.char x hx
  refine ⟨?_, by rw [h.byte x hascii, hx]⟩
  rw [utf8_append, utf8_cons_ascii hascii]

theorem AsciiDelim.splitOnP_utf8 (s : List Char) :
    (utf8 s).splitOnP p = (s.splitOnP q).map utf8 := by
  induction s using splitInduction q with
  | last l hl =>
    rw [List.splitOnP_eq_singleton (h.utf8_free hl), List.splitOnP_eq_singleton hl,
      List.map_singleton]
  | step a x rest ha hx ih =>
    obtain ⟨heq, hp⟩ := h.utf8_append_cons hx a rest
    rw [heq, List.splitOnP_append_cons_of_forall_mem (h.utf8_free ha) _ hp,
      List.splitOnP_append_cons_of_forall_mem ha x hx, List.map_cons, ih]

theorem AsciiDelim.tokens_utf8 (s : List Char) : tokens p (utf8 s) = (tokens q s).map utf8 := by
  unfold tokens
  rw [h.splitOnP_utf8, List.filter_map]
  congr 1
  refine List.filter_congr fun t _ => ?_
  cases t with
  | nil => rfl
  | cons c cs =>
    have hne : utf8 (c :: cs) ≠ [] := by simp
    simp [hne]

theorem AsciiDelim.takeWhile_utf8 (s : List Char) :
    (utf8 s).takeWhile (fun b => !p b) = utf8 (s.takeWhile fun c => !q c) := by
  induction s using splitInduction q with
  | last l hl =>
    rw [List.takeWhile_eq_self_iff.mpr fun b hb => by simp [h.utf8_free hl b hb],
      List.takeWhile_eq_self_iff.mpr fun c hc => by simp [hl c hc]]
  | step a x rest ha hx _ =>
    obtain ⟨heq, hp⟩ := h.utf8_append_cons hx a rest
    rw [heq, List.takeWhile_append_of_pos fun b hb => by simp [h.utf8_free ha b hb],
      List.takeWhile_append_of_pos fun c hc => by simp [ha c hc],
      List.takeWhile_cons_of_neg (by simp [hp]), List.takeWhile_cons_of_neg (by simp [hx]),
      List.append_nil, List.append_nil]

theorem AsciiDelim.any_utf8 (s : List Char) : (utf8 s).any p = s.any q := by
  induction s using splitInduction q with
  | last l hl =>
    rw [List.any_eq_false.mpr fun b hb => by simp [h.utf8_free hl b hb],
      List.any_eq_false.mpr fun c hc => by simp [hl c hc]]
  | step a x rest ha hx _ =>
    obtain ⟨heq, hp⟩ := h.utf8_append_cons hx a rest
    rw [heq]
    simp [hp, hx]

theorem AsciiDelim.rdropWhile_utf8 (s : List Char) :
    (utf8 s).rdropWhile p = utf8 (s.rdropWhile q) := by
  induction s using List.reverseRecOn with
  | nil => rfl
  | append_singleton s c ih =>
    by_cases hc : q c = true
    · obtain ⟨heq, hp⟩ := h.utf8_append_cons hc s []
      rw [heq, utf8_nil, List.rdropWhile_concat_pos _ _ _ hp, List.rdropWhile_concat_pos _ _ _ hc,
        ih]
    · have hfree := h.encode_free (by simpa using hc)
      rw [List.rdropWhile_concat_neg _ _ _ hc, utf8_append, utf8_cons, utf8_nil, List.append_nil,
        List.rdropWhile_eq_self_iff]
      intro hne
      have hlast : (utf8 s ++ String.utf8EncodeChar c).getLast hne ∈ String.utf8EncodeChar c := by
        have hchar : String.utf8EncodeChar c ≠ [] := by
          have := utf8_eq_nil.not.mpr (List.cons_ne_nil c [])
          rwa [utf8_cons, utf8_nil, List.append_nil] at this
        rw [List.getLast_append_of_ne_nil _ hchar]
        exact List.getLast_mem hchar
      rw [hfree _ hlast]
      exact Bool.false_ne_true

end

end Text
