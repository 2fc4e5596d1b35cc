import Sshd4a.Lib.Utf8

/-!
# Buffers of a fixed size

What a C program does with a buffer it allocated: writing to it, at an offset, and reading the
text in it. A buffer knows its size, and a write that does not fit has no result; nor has
reading a text that is not terminated inside the buffer, or a byte that was never written.

The functions of the C library that write a text write its terminating NUL too. Those that print
know the conversion `%s` and no other.
-/

namespace Text

/-- The bytes of a buffer; those that were not written yet have no value. -/
structure Buffer where
  cells : List (Option UInt8)
deriving DecidableEq, Repr

/-- `%s` takes the next argument. -/
def format : List Char → List Bytes → Option Bytes
  | [], _ => some []
  | '%' :: 's' :: fmt, arg :: args => (format fmt args).map (arg ++ ·)
  | '%' :: _, _ => none
  | c :: fmt, args => (format fmt args).map (byte c :: ·)

namespace Buffer

def size (b : Buffer) : Nat := b.cells.length

/-- `malloc(n)`. -/
def malloc (n : Nat) : Buffer := ⟨List.replicate n none⟩

/-- `calloc(1, n)`. -/
def calloc (n : Nat) : Buffer := ⟨List.replicate n (some 0)⟩

/-- Writing bytes at an offset. -/
def store (b : Buffer) (offset : Nat) (data : Bytes) : Option Buffer :=
  if offset + data.length ≤ b.size then
    some ⟨b.cells.take offset ++ (data.map some ++ b.cells.drop (offset + data.length))⟩
  else none

/-- Reading the first bytes. -/
def load (b : Buffer) (n : Nat) : Option Bytes :=
  if n ≤ b.size then (b.cells.take n).mapM id else none

def textFrom : List (Option UInt8) → Option Bytes
  | [] => none
  | none :: _ => none
  | some c :: cells => if c = 0 then some [] else (textFrom cells).map (c :: ·)

/-- The text up to the terminating NUL. -/
def text (b : Buffer) : Option Bytes := textFrom b.cells

/-- `strcpy`, of a text that is given without its NUL. -/
def strcpy (b : Buffer) (s : Bytes) : Option Buffer := b.store 0 (s ++ [0])

def sprintf (b : Buffer) (fmt : String) (args : List Bytes) : Option Buffer :=
  (format fmt.toList args).bind b.strcpy

/-- `snprintf`, with the length the whole text has. -/
def snprintf (b : Buffer) (n : Nat) (fmt : String) (args : List Bytes) : Option (Buffer × Nat) :=
  (format fmt.toList args).bind fun s =>
    if n = 0 then some (b, s.length)
    else (b.strcpy (s.take (n - 1))).map fun b => (b, s.length)

/-- Everything fitted, and the buffer has this text. -/
def Holds (result : Option Buffer) (s : Bytes) : Prop :=
  ∃ b, result = some b ∧ b.text = some s

/-- The same of `snprintf`, which cut nothing off: the length it returns is below the size. -/
def HoldsWhole (result : Option (Buffer × Nat)) (s : Bytes) : Prop :=
  ∃ b count, result = some (b, count) ∧ count < b.size ∧ b.text = some s

@[simp] theorem size_malloc (n : Nat) : (malloc n).size = n := List.length_replicate

@[simp] theorem size_calloc (n : Nat) : (calloc n).size = n := List.length_replicate

/-! ## Writing -/

section
variable {b : Buffer} {s : Bytes}

theorem store_zero (h : s.length ≤ b.size) :
    b.store 0 s = some ⟨s.map some ++ b.cells.drop s.length⟩ := by
  rw [store, if_pos (by omega), List.take_zero, List.nil_append, Nat.zero_add]

theorem textFrom_append (hs : 0 ∉ s) (rest : List (Option UInt8)) :
    textFrom (s.map some ++ some 0 :: rest) = some s := by
  induction s with
  | nil => rfl
  | cons c s ih =>
    obtain ⟨hc, hs⟩ := not_or.mp (mt List.mem_cons.mpr hs)
    rw [List.map_cons, List.cons_append, textFrom, if_neg (Ne.symm hc), ih hs]
    rfl

/-- **A text that fits with its NUL** is the text of the buffer afterwards. -/
theorem strcpy_text (hs : 0 ∉ s) (hfits : s.length < b.size) :
    ∃ b', b.strcpy s = some b' ∧ b'.size = b.size ∧ b'.text = some s := by
  have hlen : (s ++ [0]).length = s.length + 1 := by simp
  have hstore := store_zero (b := b) (s := s ++ [0]) (by omega)
  refine ⟨_, hstore, ?_, ?_⟩
  · simp only [size, List.length_append, List.length_map, List.length_drop, hlen] at hfits ⊢
    omega
  · rw [text, List.map_append, List.append_assoc]
    exact textFrom_append hs _

theorem strcpy_holds (hs : 0 ∉ s) (hfits : s.length < b.size) : Holds (b.strcpy s) s := by
  obtain ⟨b', hb', -, htext⟩ := strcpy_text hs hfits
  exact ⟨b', hb', htext⟩

theorem Holds.bind_text {result : Option Buffer} (h : Holds result s) :
    result.bind text = some s := by
  obtain ⟨b', rfl, htext⟩ := h
  exact htext

/-- The bytes of a text, and then its NUL. -/
theorem store_nul (hs : 0 ∉ s) (hsize : b.size = s.length + 1) :
    Holds ((b.store 0 s).bind fun b => b.store s.length [0]) s := by
  obtain ⟨c, hc⟩ : ∃ c, b.cells.drop s.length = [c] := by
    refine List.length_eq_one_iff.mp ?_
    rw [List.length_drop]
    simp only [size] at hsize
    omega
  have hmap : (s.map some).length = s.length := List.length_map _
  refine ⟨⟨s.map some ++ [some 0]⟩, ?_, textFrom_append hs []⟩
  rw [store_zero (by omega), hc, Option.bind_some, store, if_pos (by simp [size])]
  dsimp only
  rw [← hmap, List.take_left, List.drop_of_length_le (by simp), List.append_nil]
  rfl

theorem mapM_map_some (s : Bytes) : (s.map some).mapM id = some s := by
  induction s with
  | nil => rfl
  | cons c s ih =>
    rw [List.map_cons, List.mapM_cons, ih]
    rfl

/-- What was written to the whole buffer is read again. -/
theorem load_store (h : b.size = s.length) :
    (b.store 0 s).bind (fun b => b.load s.length) = some s := by
  have hsize : (Buffer.mk (s.map some)).size = s.length := List.length_map _
  have hrest : b.cells.drop s.length = [] := List.drop_of_length_le (Nat.le_of_eq h)
  rw [store_zero (Nat.le_of_eq h.symm), hrest, List.append_nil, Option.bind_some, load,
    if_pos (Nat.le_of_eq hsize.symm), List.take_of_length_le (Nat.le_of_eq hsize), mapM_map_some]

theorem sprintf_text {fmt : String} {args : List Bytes} (hfmt : format fmt.toList args = some s)
    (hs : 0 ∉ s) (hfits : s.length < b.size) : Holds (b.sprintf fmt args) s := by
  rw [sprintf, hfmt]
  exact strcpy_holds hs hfits

/-- What fits is not cut short. -/
theorem snprintf_text {fmt : String} {args : List Bytes} {n : Nat}
    (hfmt : format fmt.toList args = some s) (hs : 0 ∉ s) (hsize : b.size = n)
    (hfits : s.length < n) : HoldsWhole (b.snprintf n fmt args) s := by
  subst hsize
  obtain ⟨b', hb', hsize', htext⟩ := strcpy_text hs hfits
  refine ⟨b', s.length, ?_, hsize'.symm ▸ hfits, htext⟩
  rw [snprintf, hfmt, Option.bind_some, if_neg (by omega), List.take_of_length_le (by omega), hb']
  rfl

end

end Buffer

/-! ## Formats -/

theorem format_literal {lit : List Char} (h : '%' ∉ lit) (fmt : List Char) (args : List Bytes) :
    format (lit ++ fmt) args = (format fmt args).map (lit.map byte ++ ·) := by
  induction lit with
  | nil => simp
  | cons c lit ih =>
    obtain ⟨hc, hlit⟩ := not_or.mp (mt List.mem_cons.mpr h)
    rw [List.cons_append, format, ih hlit, Option.map_map]
    · rfl
    · intro heq
      exact absurd heq.symm hc
    · intro fmt' arg args' _ heq
      exact absurd heq.symm hc

/-- Two arguments with a text between them. -/
theorem format_two {fmt : List Char} (lit : List Char)
    (hfmt : fmt = '%' :: 's' :: (lit ++ ['%', 's'])) (hlit : '%' ∉ lit) (a b : Bytes) :
    format fmt [a, b] = some (a ++ (lit.map byte ++ b)) := by
  rw [hfmt, format, format_literal hlit]
  simp [format]

/-- One argument with a text behind it. -/
theorem format_one {fmt : List Char} (lit : List Char) (hfmt : fmt = '%' :: 's' :: lit)
    (hlit : '%' ∉ lit) (a : Bytes) : format fmt [a] = some (a ++ lit.map byte) := by
  have hrest := format_literal hlit [] []
  rw [List.append_nil] at hrest
  rw [hfmt, format, hrest]
  simp [format]

end Text
