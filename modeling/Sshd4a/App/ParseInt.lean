import Sshd4a.App.SshdSettings

/-!
# `Integer.parseInt`

The app reads two numbers with it, a port from a preference and a pid from a file. It takes the
digits of every script below U+10000, and a sign in front of them.
-/

namespace Sshd4a

/-- The code points below U+10000 that are the zero of ten decimal digits. -/
def digitZeros : List Nat :=
  [0x30, 0x660, 0x6F0, 0x7C0, 0x966, 0x9E6, 0xA66, 0xAE6, 0xB66, 0xBE6, 0xC66, 0xCE6, 0xD66,
    0xDE6, 0xE50, 0xED0, 0xF20, 0x1040, 0x1090, 0x17E0, 0x1810, 0x1946, 0x19D0, 0x1A80, 0x1A90,
    0x1B50, 0x1BB0, 0x1C40, 0x1C50, 0xA620, 0xA8D0, 0xA900, 0xA9D0, 0xA9F0, 0xAA50, 0xABF0,
    0xFF10]

/-- `Character.digit(c, 10)`. -/
def digit (c : Char) : Option Nat :=
  (digitZeros.find? fun z => z ≤ c.toNat && c.toNat < z + 10).map (c.toNat - ·)

def parseDigits : Nat → JString → Option Nat
  | n, [] => some n
  | n, c :: cs => (digit c).bind fun d => parseDigits (10 * n + d) cs

/-- `Integer.parseInt`, with `none` for a `NumberFormatException`. -/
def parseInt (s : JString) : Option Int :=
  let digits := if s.head? = some '-' ∨ s.head? = some '+' then s.tail else s
  let sign : Int := if s.head? = some '-' then -1 else 1
  if digits = [] then none
  else
    match parseDigits 0 digits with
    | none => none
    | some n =>
      if -0x80000000 ≤ sign * n ∧ sign * n < 0x80000000 then some (sign * n) else none

theorem digit_of_isDigit {c : Char} (h : c.isDigit = true) : digit c = some (c.toNat - 0x30) := by
  have hrange : 0x30 ≤ c.toNat ∧ c.toNat < 0x3A := by
    rw [Char.isDigit, Bool.and_eq_true, decide_eq_true_eq, decide_eq_true_eq] at h
    exact ⟨h.1, Nat.lt_succ_of_le h.2⟩
  rw [digit, digitZeros, List.find?_cons_of_pos (by simpa using hrange), Option.map_some]

theorem parseDigits_of_isDigit (n : Nat) {s : JString} (h : ∀ c ∈ s, c.isDigit = true) :
    parseDigits n s = some (Nat.ofDigitChars 10 s n) := by
  induction s generalizing n with
  | nil => rfl
  | cons c cs ih =>
    rw [parseDigits, digit_of_isDigit (h c List.mem_cons_self), Option.bind_some,
      ih _ fun c hc => h c (List.mem_cons_of_mem _ hc)]
    rfl

/-- ASCII digits are read as the number they are, if it fits. -/
theorem parseInt_of_isDigit {s : JString} (h : ∀ c ∈ s, c.isDigit = true) (hne : s ≠ [])
    (hlt : Nat.ofDigitChars 10 s 0 < 0x80000000) :
    parseInt s = some (Nat.ofDigitChars 10 s 0 : Int) := by
  have hhead : ∀ c, c.isDigit = false → s.head? ≠ some c := by
    intro c hc hhead
    rw [h c (List.mem_of_mem_head? hhead)] at hc
    cases hc
  have hminus := hhead '-' (by decide)
  have hplus := hhead '+' (by decide)
  have hfits : (-0x80000000 : Int) ≤ Nat.ofDigitChars 10 s 0 ∧
      (Nat.ofDigitChars 10 s 0 : Int) < 0x80000000 := by
    omega
  unfold parseInt
  simp only [hminus, hplus, or_self, if_false, hne, parseDigits_of_isDigit 0 h, Int.one_mul,
    if_pos hfits]

end Sshd4a
