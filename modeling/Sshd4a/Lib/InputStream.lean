import Mathlib.Data.PNat.Basic
import Mathlib.Data.List.Basic

/-!
# Streams that deliver their content in pieces

A reader asks a stream for up to `n` elements and gets as many as the stream likes, at least
one, until there are no more. Which cut the stream makes is not the reader's to choose: a
`Source` is the list of pieces it will hand out, each of them non-empty by its type, and how
it ends. A read that asks for less than the next piece gets a part of it and leaves the rest.

A `Pushback` stands in front of a source and holds what was read and given back. Its reads take
from the buffer first and from **one** read of the source for what is still missing.

The point of the file is `copy_written` with `copy_eq_none_iff`: a loop that reads until the
end delivers `content`, the concatenation of what is left, whatever the pieces and whatever the
sizes of the reads, and it fails only with the stream or with the sink. Everything a program
does before such a loop is then a question about `content` alone.
-/

namespace InputStream

variable {α : Type*}

/-- How a stream ends: with an end of file or with a read that throws. -/
inductive Ending
  | eof
  | failure
deriving DecidableEq, Repr

/-- What one read hands out. -/
abbrev Piece (α : Type*) := { piece : List α // piece ≠ [] }

/-- A stream, by what it will deliver. -/
structure Source (α : Type*) where
  pieces : List (Piece α)
  ending : Ending

/-- The result of one read, with the stream after it. -/
inductive ReadResult (α σ : Type*)
  | data (got : List α) (rest : σ)
  | eof
  | failure

namespace Source

/-- What is left in the stream. -/
def content (s : Source α) : List α := (s.pieces.map Subtype.val).flatten

/-- `read(buf, 0, n)` for a positive `n`. -/
def read (s : Source α) (n : ℕ+) : ReadResult α (Source α) :=
  match s.pieces with
  | [] =>
    match s.ending with
    | .eof => .eof
    | .failure => .failure
  | piece :: pieces =>
    if h : (n : ℕ) < piece.val.length then
      .data (piece.val.take n) { s with pieces :=
        ⟨piece.val.drop n, by simpa [List.drop_eq_nil_iff] using h⟩ :: pieces }
    else .data piece.val { s with pieces := pieces }

/-- All a read can do, the delivering case. -/
theorem read_data {s rest : Source α} {n : ℕ+} {got : List α} (h : s.read n = .data got rest) :
    got ≠ [] ∧ got.length ≤ n ∧ s.content = got ++ rest.content ∧ rest.ending = s.ending := by
  unfold read at h
  split at h
  · split at h <;> cases h
  · rename_i piece pieces hpieces
    split at h <;> cases h
    · refine ⟨?_, by simp, ?_, rfl⟩
      · intro hnil
        have hlen := congrArg List.length hnil
        rw [List.length_take, List.length_nil] at hlen
        have := n.pos
        omega
      · simp [content, hpieces, ← List.append_assoc]
    · exact ⟨piece.property, by omega, by simp [content, hpieces], rfl⟩

theorem read_eof {s : Source α} {n : ℕ+} (h : s.read n = .eof) :
    s.content = [] ∧ s.ending = .eof := by
  unfold read at h
  split at h
  · rename_i hpieces
    split at h
    · rename_i hend
      exact ⟨by simp [content, hpieces], hend⟩
    · cases h
  · split at h <;> cases h

theorem read_failure {s : Source α} {n : ℕ+} (h : s.read n = .failure) :
    s.content = [] ∧ s.ending = .failure := by
  unfold read at h
  split at h
  · rename_i hpieces
    split at h
    · cases h
    · rename_i hend
      exact ⟨by simp [content, hpieces], hend⟩
  · split at h <;> cases h

end Source

/-- A stream with room for `size` elements that were given back. -/
structure Pushback (α : Type*) where
  source : Source α
  size : ℕ
  buf : List α
  fits : buf.length ≤ size

namespace Pushback

/-- `new PushbackInputStream(in, size)`. -/
def new (source : Source α) (size : ℕ) : Pushback α :=
  { source, size, buf := [], fits := Nat.zero_le _ }

/-- What is left: what was given back, then what the source still has. -/
def content (s : Pushback α) : List α := s.buf ++ s.source.content

/-- `read(buf, 0, n)`: the buffer first; the source is asked once, and only for what the
    buffer does not have. An end of file counts only when the buffer gave nothing. -/
def read (s : Pushback α) (n : ℕ+) : ReadResult α (Pushback α) :=
  if h : (n : ℕ) ≤ s.buf.length then
    .data (s.buf.take n) { s with
      buf := s.buf.drop n
      fits := by rw [List.length_drop]; have := s.fits; omega }
  else
    match s.source.read ⟨n - s.buf.length, by omega⟩ with
    | .data got source =>
      .data (s.buf ++ got) { s with source := source, buf := [], fits := Nat.zero_le _ }
    | .eof =>
      if s.buf = [] then .eof
      else .data s.buf { s with buf := [], fits := Nat.zero_le _ }
    | .failure => .failure

/-- `unread`; `none` is the exception of a buffer that is full. -/
def unread (s : Pushback α) (back : List α) : Option (Pushback α) :=
  if h : back.length + s.buf.length ≤ s.size then
    some { s with buf := back ++ s.buf, fits := by simpa using h }
  else none

@[simp] theorem new_content (source : Source α) (size : ℕ) :
    (new source size).content = source.content := rfl

theorem unread_content {s t : Pushback α} {back : List α} (h : s.unread back = some t) :
    t.content = back ++ s.content ∧ t.source = s.source := by
  unfold unread at h
  split at h <;> cases h
  exact ⟨by simp [content], rfl⟩

/-- A read that delivers makes progress and takes from the front of the content. -/
theorem read_data {s rest : Pushback α} {n : ℕ+} {got : List α} (h : s.read n = .data got rest) :
    got ≠ [] ∧ s.content = got ++ rest.content ∧ rest.source.ending = s.source.ending := by
  unfold read at h
  split at h
  · rename_i hn
    cases h
    refine ⟨?_, by simp [content, ← List.append_assoc], rfl⟩
    intro hnil
    have hlen := congrArg List.length hnil
    rw [List.length_take, List.length_nil] at hlen
    have := n.pos
    omega
  · split at h
    · rename_i got' source' hread
      cases h
      obtain ⟨hgot, -, hcontent, hend⟩ := Source.read_data hread
      exact ⟨by simp [hgot], by simp [content, hcontent], hend⟩
    · split at h
      · cases h
      · rename_i hbuf
        cases h
        exact ⟨hbuf, by simp [content], rfl⟩
    · cases h

theorem read_eof {s : Pushback α} {n : ℕ+} (h : s.read n = .eof) :
    s.content = [] ∧ s.source.ending = .eof := by
  unfold read at h
  split at h
  · cases h
  · split at h
    · cases h
    · rename_i hread
      split at h
      · rename_i hbuf
        obtain ⟨hcontent, hend⟩ := Source.read_eof hread
        exact ⟨by simp [content, hbuf, hcontent], hend⟩
      · cases h
    · cases h

theorem read_failure {s : Pushback α} {n : ℕ+} (h : s.read n = .failure) :
    s.source.ending = .failure := by
  unfold read at h
  split at h
  · cases h
  · split at h
    · cases h
    · split at h <;> cases h
    · rename_i hread
      exact (Source.read_failure hread).2

/-! ## Reading to the end -/

/-- Why a copy stopped before the end. -/
inductive CopyError
  | read
  | write
deriving DecidableEq, Repr

/-- A sink with room for a number of elements, or for any number. -/
def Fits (room : Option ℕ) (n : ℕ) : Prop := ∀ r ∈ room, n ≤ r

instance (room : Option ℕ) (n : ℕ) : Decidable (Fits room n) :=
  inferInstanceAs (Decidable (∀ r ∈ room, n ≤ r))

theorem fits_none (n : ℕ) : Fits none n := by simp [Fits]

theorem Fits.mono {room : Option ℕ} {m n : ℕ} (h : Fits room n) (hle : m ≤ n) : Fits room m :=
  fun r hr => hle.trans (h r hr)

/-- The copy loop: read, write what was read, until the end of the file. The sizes of the
    buffer are the reader's, one for each read; a write that does not fit leaves the part that
    does and throws. -/
def copy (size : ℕ → ℕ+) (room : Option ℕ) (s : Pushback α) (k : ℕ) (written : List α) :
    List α × Option CopyError :=
  match _h : s.read (size k) with
  | .data got rest =>
    if Fits room (written.length + got.length) then
      copy size room rest (k + 1) (written ++ got)
    else (written ++ got.take (room.getD 0 - written.length), some .write)
  | .eof => (written, none)
  | .failure => (written, some .read)
termination_by s.content.length
decreasing_by
  obtain ⟨hgot, hcontent, -⟩ := read_data _h
  rw [hcontent, List.length_append]
  have := List.length_pos_of_ne_nil hgot
  omega

/-- What a copy that throws nothing has written: the content, however it was cut. -/
theorem copy_written (size : ℕ → ℕ+) (room : Option ℕ) (s : Pushback α) (k : ℕ)
    (written : List α) (h : (copy size room s k written).2 = none) :
    (copy size room s k written).1 = written ++ s.content := by
  fun_induction copy size room s k written with
  | case1 s k written got rest hread hfits ih =>
    obtain ⟨-, hcontent, -⟩ := read_data hread
    rw [ih h, hcontent, List.append_assoc]
  | case2 s k written got rest hread hfits => cases h
  | case3 s k written hread =>
    rw [(read_eof hread).1, List.append_nil]
  | case4 s k written hread => cases h

/-- **A copy throws nothing exactly when** the stream ends well and the sink has room for all
    of it. Neither the cut nor the sizes of the reads matter. -/
theorem copy_eq_none_iff (size : ℕ → ℕ+) (room : Option ℕ) (s : Pushback α) (k : ℕ)
    (written : List α) (hw : Fits room written.length) :
    (copy size room s k written).2 = none ↔
      s.source.ending = .eof ∧ Fits room (written ++ s.content).length := by
  fun_induction copy size room s k written with
  | case1 s k written got rest hread hfits ih =>
    obtain ⟨-, hcontent, hsame⟩ := read_data hread
    rw [ih (by simpa using hfits), hsame, hcontent, List.append_assoc]
  | case2 s k written got rest hread hfits =>
    obtain ⟨-, hcontent, -⟩ := read_data hread
    constructor
    · intro h
      cases h
    · intro h
      -- what does not fit already with this piece does not fit with the rest either
      refine absurd (h.2.mono ?_) hfits
      rw [hcontent, List.length_append, List.length_append]
      omega
  | case3 s k written hread =>
    obtain ⟨hcontent, hend⟩ := read_eof hread
    rw [hcontent, List.append_nil]
    exact ⟨fun _ => ⟨hend, hw⟩, fun _ => rfl⟩
  | case4 s k written hread =>
    rw [read_failure hread]
    constructor
    · intro h
      cases h
    · intro h
      cases h.1

/-- Reading to the end: a copy into a sink without a bound. -/
def readToEnd (size : ℕ → ℕ+) (s : Pushback α) : Except CopyError (List α) :=
  match copy size none s 0 [] with
  | (read, none) => .ok read
  | (_, some error) => .error error

theorem readToEnd_of_eof (size : ℕ → ℕ+) (s : Pushback α) (hend : s.source.ending = .eof) :
    readToEnd size s = .ok s.content := by
  have hnone : (copy size none s 0 []).2 = none :=
    (copy_eq_none_iff size none s 0 [] (fits_none _)).mpr ⟨hend, fits_none _⟩
  have hread : (copy size none s 0 []).1 = s.content := copy_written size none s 0 [] hnone
  unfold readToEnd
  split <;> rename_i heq <;> rw [heq] at hnone hread
  · rw [← hread]
  · cases hnone

end Pushback

end InputStream
