import Sshd4a.Lib.InputStream
import Sshd4a.Lib.Utf8
import Mathlib.Logic.Basic

/-!
# Importing `authorized_keys`

`SettingsViewModel.executeImport` copies a stream, from a file the user picked or from a URL,
to `authorized_keys.tmp` and renames that over `authorized_keys`. On the way the stream passes
through `checkForUtf8Bom`, which drops a byte order mark.

Two questions are asked of it here. The first is about the bytes: the mark is looked for in
**one** read of three bytes, and a stream may answer with fewer, so `readStripped_iff` says that
the mark is stripped for every cut of the stream but those whose first piece is shorter than
the mark it begins.

The second is about the outcome. The success is posted inside the `try` block, and the two
streams are closed on the way out of it, after the post; an exception of a close is caught by
the same `catch` and posted as a failure. `executeImport_atomic_iff` says that this is the one
way the task can contradict itself, over every failure of every operation it makes.
-/

namespace Sshd4a

open Text InputStream

/-! ## The byte order mark -/

/-- The exceptions the task can see. -/
inductive ImportError
  | openStream
  | streamClosed
  | read
  | pushbackFull
  | newOutputStream
  | write
  | closeOutput
  | close
  | fileRename
deriving DecidableEq, Repr

/-- The three bytes `checkForUtf8Bom` compares with. -/
def utf8Bom : Bytes := [0xEF, 0xBB, 0xBF]

/-- `checkForUtf8Bom`: one read of three bytes; what is not the mark is given back. -/
def checkForUtf8Bom (source : Source UInt8) : Except ImportError (Pushback UInt8) :=
  let pushbackStream := Pushback.new source 3
  match pushbackStream.read 3 with
  | .failure => .error .read
  | .eof => .ok pushbackStream
  | .data bom rest =>
    if bom = utf8Bom then .ok rest
    else
      match rest.unread bom with
      | some stream => .ok stream
      | none => .error .pushbackFull

/-- Reading the result of `checkForUtf8Bom` to the end, with any sizes of reads. -/
def readStripped (size : ℕ → ℕ+) (source : Source UInt8) : Except ImportError Bytes :=
  match checkForUtf8Bom source with
  | .error error => .error error
  | .ok is =>
    match is.readToEnd size with
    | .ok bytes => .ok bytes
    | .error _ => .error .read

/-- What stripping is for: the text without a mark in front. -/
def stripBom (bytes : Bytes) : Bytes :=
  if utf8Bom <+: bytes then bytes.drop utf8Bom.length else bytes

/-- The piece the first read of a stream takes from. -/
def firstPiece (source : Source UInt8) : Bytes :=
  (source.pieces.head?.map Subtype.val).getD []

/-- What the stream of `checkForUtf8Bom` delivers. -/
def delivered (source : Source UInt8) : Bytes :=
  if utf8Bom <+: firstPiece source then source.content.drop utf8Bom.length
  else source.content

/-- The first read of three bytes sees the beginning of the first piece. -/
theorem read_three (piece : Piece UInt8) (pieces : List (Piece UInt8)) (ending : Ending) :
    ∃ rest : Pushback UInt8,
      (Pushback.new ⟨piece :: pieces, ending⟩ 3).read 3 = .data (piece.val.take 3) rest ∧
        rest.buf = [] ∧ rest.size = 3 := by
  unfold Pushback.read Pushback.new Source.read
  by_cases hlen : 3 < piece.val.length
  · simp [hlen]
  · simp [hlen, List.take_of_length_le (Nat.le_of_not_lt hlen)]

theorem take_three_eq_bom_iff (piece : Bytes) : piece.take 3 = utf8Bom ↔ utf8Bom <+: piece := by
  rw [List.prefix_iff_eq_take]
  exact eq_comm

/-- Everything `checkForUtf8Bom` can do: throw with the source, or hand out a stream that ends
    as the source does and has `delivered` in it. -/
theorem checkForUtf8Bom_spec (source : Source UInt8) :
    (source.pieces = [] ∧ source.ending = .failure ∧ checkForUtf8Bom source = .error .read) ∨
    ∃ is, checkForUtf8Bom source = .ok is ∧ is.source.ending = source.ending ∧
      is.content = delivered source := by
  obtain ⟨pieces, ending⟩ := source
  cases pieces with
  | nil =>
    cases ending with
    | eof =>
      refine Or.inr ⟨Pushback.new ⟨[], .eof⟩ 3, rfl, rfl, ?_⟩
      rfl
    | failure => exact Or.inl ⟨rfl, rfl, rfl⟩
  | cons piece pieces =>
    right
    obtain ⟨rest, hread, hbuf, hsize⟩ := read_three piece pieces ending
    obtain ⟨-, hcontent, hend⟩ := Pushback.read_data hread
    rw [Pushback.new_content] at hcontent
    unfold checkForUtf8Bom delivered
    simp only [hread]
    by_cases hbom : utf8Bom <+: piece.val
    · have htake : piece.val.take 3 = utf8Bom := (take_three_eq_bom_iff _).mpr hbom
      refine ⟨rest, by rw [if_pos htake], hend, ?_⟩
      rw [if_pos (by exact hbom), hcontent, htake, List.drop_left]
    · have htake : piece.val.take 3 ≠ utf8Bom := fun h => hbom ((take_three_eq_bom_iff _).mp h)
      have hroom : (piece.val.take 3).length + rest.buf.length ≤ rest.size := by
        rw [hbuf, hsize, List.length_nil, List.length_take]
        omega
      -- three bytes were read from an empty buffer of three: the push-back has the room
      obtain ⟨stream, hunread⟩ : ∃ stream, rest.unread (piece.val.take 3) = some stream := by
        unfold Pushback.unread
        rw [dif_pos hroom]
        exact ⟨_, rfl⟩
      obtain ⟨hstream, hsource⟩ := Pushback.unread_content hunread
      refine ⟨stream, by rw [if_neg htake, hunread], by rw [hsource]; exact hend, ?_⟩
      rw [if_neg (by exact hbom), hstream, hcontent]

/-- A stream that ends well is read as `delivered`, whatever the sizes of the reads. -/
theorem readStripped_eq (size : ℕ → ℕ+) (source : Source UInt8) (hend : source.ending = .eof) :
    readStripped size source = .ok (delivered source) := by
  obtain ⟨-, hfail, -⟩ | ⟨is, hok, hsame, hcontent⟩ := checkForUtf8Bom_spec source
  · rw [hend] at hfail
    cases hfail
  · unfold readStripped
    rw [hok]
    simp only [Pushback.readToEnd_of_eof size is (hsame.trans hend), hcontent]

theorem firstPiece_leads (source : Source UInt8) : firstPiece source <+: source.content := by
  obtain ⟨pieces, ending⟩ := source
  cases pieces with
  | nil => exact List.nil_prefix
  | cons piece pieces => exact List.prefix_append piece.val _

theorem delivered_eq_stripBom_iff (source : Source UInt8) :
    delivered source = stripBom source.content ↔
      (utf8Bom <+: source.content → utf8Bom.length ≤ (firstPiece source).length) := by
  unfold delivered stripBom
  by_cases hfirst : utf8Bom <+: firstPiece source
  · have hall : utf8Bom <+: source.content := hfirst.trans (firstPiece_leads source)
    rw [if_pos hfirst, if_pos hall]
    exact ⟨fun _ _ => hfirst.length_le, fun _ => rfl⟩
  · rw [if_neg hfirst]
    by_cases hall : utf8Bom <+: source.content
    · rw [if_pos hall]
      constructor
      · -- the mark is in the text and nothing was dropped: the lengths differ
        intro heq
        have hlen := congrArg List.length heq
        rw [List.length_drop] at hlen
        have hle := hall.length_le
        have : utf8Bom.length = 3 := rfl
        omega
      · intro hlen
        refine absurd ?_ hfirst
        exact List.prefix_of_prefix_length_le hall (firstPiece_leads source) (hlen hall)
    · rw [if_neg hall]
      exact ⟨fun _ h => absurd h hall, fun _ => rfl⟩

/-- **The mark is stripped exactly when** the first piece of a stream that begins with it holds
    all of it. -/
theorem readStripped_iff (size : ℕ → ℕ+) (pieces : List (Piece UInt8)) :
    readStripped size ⟨pieces, .eof⟩ = .ok (stripBom (Source.content ⟨pieces, .eof⟩)) ↔
      (utf8Bom <+: Source.content ⟨pieces, .eof⟩ →
        utf8Bom.length ≤ (firstPiece ⟨pieces, .eof⟩).length) := by
  rw [readStripped_eq size ⟨pieces, .eof⟩ rfl, Except.ok.injEq]
  exact delivered_eq_stripBom_iff _

/-- A mark and a key, cut after the first byte. -/
def cutBom : List (Piece UInt8) := [⟨[0xEF], by simp⟩, ⟨[0xBB, 0xBF, 0x6B], by simp⟩]

/-- The first read answers with one byte, and the mark ends up in the text. -/
theorem readStripped_cutBom :
    readStripped (fun _ => 8192) ⟨cutBom, .eof⟩ = .ok [0xEF, 0xBB, 0xBF, 0x6B] ∧
      readStripped (fun _ => 8192) ⟨cutBom, .eof⟩ ≠
        .ok (stripBom (Source.content ⟨cutBom, .eof⟩)) := by
  rw [readStripped_eq _ _ rfl]
  exact ⟨rfl, by decide⟩

/-! ## The task -/

/-- What `provider.openStream()` does. -/
inductive Opened
  | throws
  | null
  | stream (source : Source UInt8)

/-- Everything the task does not control: what it is given to read, and which operations
    fail. -/
structure ImportEnv where
  opened : Opened
  /-- The buffer `Files.copy` uses, read by read. -/
  bufferSize : ℕ → ℕ+
  /-- `authorized_keys.tmp` cannot be created; the flag says if an old one was deleted by then. -/
  createThrows : Option Bool
  /-- The number of bytes that can be written before a write throws. -/
  room : Option ℕ
  closeOutputThrows : Bool
  renameTo : Bool
  /-- `is.close()`, which closes the stream below. -/
  closeThrows : Bool
  /-- `rawIs.close()`, the second close of that stream. -/
  closeRawThrows : Bool

/-- What is posted to the observers. -/
inductive Post
  | importDone
  | importFailed (error : ImportError)
  | importRunning (running : Bool)
deriving DecidableEq, Repr

/-- The two files, the local variable `error` and the posts so far. -/
structure ImportState where
  authorizedKeys : Option Bytes
  tmpFile : Option Bytes
  error : Bool
  posts : List Post

/-- `Files.copy(is, tmpFile, REPLACE_EXISTING)`: the file after it, and what it threw. -/
def filesCopy (env : ImportEnv) (is : Pushback UInt8) (tmpFile : Option Bytes) :
    Option Bytes × Option ImportError :=
  match env.createThrows with
  | some deleted => (if deleted then none else tmpFile, some .newOutputStream)
  | none =>
    match is.copy env.bufferSize env.room 0 [] with
    | (written, some .read) => (some written, some .read)
    | (written, some .write) => (some written, some .write)
    | (written, none) => (some written, if env.closeOutputThrows then some .closeOutput else none)

/-- The statements of the `try` block: the state they leave, and what they threw. -/
def importBlock (env : ImportEnv) (is : Pushback UInt8) (s : ImportState) :
    ImportState × Option ImportError :=
  match filesCopy env is s.tmpFile with
  | (tmpFile, some error) => ({ s with tmpFile := tmpFile }, some error)
  | (tmpFile, none) =>
    if env.renameTo then
      ({ authorizedKeys := tmpFile, tmpFile := none, error := false,
         posts := s.posts ++ [.importDone] }, none)
    else
      ({ s with tmpFile := tmpFile, posts := s.posts ++ [.importFailed .fileRename] }, none)

/-- The `try` with its two resources. An exception of a `close` is suppressed when the block
    threw one of its own, and leaves the statement otherwise. -/
def tryImport (env : ImportEnv) (s : ImportState) : ImportState × Option ImportError :=
  match env.opened with
  | .throws => (s, some .openStream)
  | .null => (s, some .streamClosed)
  | .stream source =>
    match checkForUtf8Bom source with
    | .error error => (s, some error)
    | .ok is =>
      let (s, thrown) := importBlock env is s
      (s, thrown <|> if env.closeThrows || env.closeRawThrows then some .close else none)

/-- The `catch` clause. -/
def catchImport (result : ImportState × Option ImportError) : ImportState :=
  match result with
  | (s, some error) => { s with posts := s.posts ++ [.importFailed error] }
  | (s, none) => s

/-- The `finally` clause. -/
def finallyImport (s : ImportState) : ImportState :=
  { s with
    tmpFile := if s.error then none else s.tmpFile
    posts := s.posts ++ [.importRunning false] }

/-- The task of `executeImport`, from the two files as it finds them. -/
def executeImport (env : ImportEnv) (authorizedKeys tmpFile : Option Bytes) : ImportState :=
  finallyImport (catchImport (tryImport env
    { authorizedKeys, tmpFile, error := true, posts := [] }))

/-! ## The outcome -/

/-- What the task promises: one outcome, and the files to go with it. -/
structure Atomic (env : ImportEnv) (authorizedKeys : Option Bytes) (after : ImportState) :
    Prop where
  oneOutcome : Xor (.importDone ∈ after.posts) (∃ error, .importFailed error ∈ after.posts)
  done : .importDone ∈ after.posts → ∃ source bytes, env.opened = .stream source ∧
    readStripped env.bufferSize source = .ok bytes ∧ after.authorizedKeys = some bytes
  failed : (∃ error, .importFailed error ∈ after.posts) → after.authorizedKeys = authorizedKeys
  noTmpFile : after.tmpFile = none
  notRunning : .importRunning false ∈ after.posts

/-- Every operation up to and including the rename succeeds. -/
def ImportEnv.Succeeds (env : ImportEnv) : Prop :=
  ∃ source, env.opened = .stream source ∧ source.ending = .eof ∧ env.createThrows = none ∧
    Pushback.Fits env.room (delivered source).length ∧ env.closeOutputThrows = false ∧
    env.renameTo = true

theorem filesCopy_eq_none_iff (env : ImportEnv) (is : Pushback UInt8) (tmpFile : Option Bytes) :
    (filesCopy env is tmpFile).2 = none ↔
      is.source.ending = .eof ∧ env.createThrows = none ∧
        Pushback.Fits env.room is.content.length ∧ env.closeOutputThrows = false := by
  have hcopy := Pushback.copy_eq_none_iff env.bufferSize env.room is 0 []
    (show Pushback.Fits env.room 0 from fun r _ => Nat.zero_le r)
  rw [List.nil_append] at hcopy
  unfold filesCopy
  cases hcreate : env.createThrows with
  | some deleted => simp
  | none =>
    dsimp only
    split <;> rename_i heq <;> rw [heq] at hcopy
    · simp only [reduceCtorEq, false_iff] at hcopy ⊢
      exact fun h => hcopy ⟨h.1, h.2.2.1⟩
    · simp only [reduceCtorEq, false_iff] at hcopy ⊢
      exact fun h => hcopy ⟨h.1, h.2.2.1⟩
    · obtain ⟨hend, hfits⟩ := hcopy.mp rfl
      simp [hend, hfits]

theorem filesCopy_written (env : ImportEnv) (is : Pushback UInt8) (tmpFile : Option Bytes)
    (h : (filesCopy env is tmpFile).2 = none) : (filesCopy env is tmpFile).1 = some is.content := by
  have hcopy := Pushback.copy_written env.bufferSize env.room is 0 []
  rw [List.nil_append] at hcopy
  unfold filesCopy at h ⊢
  cases hcreate : env.createThrows with
  | some deleted => simp [hcreate] at h
  | none =>
    rw [hcreate] at h
    dsimp only at h ⊢
    split at h <;> rename_i heq <;> rw [heq] at hcopy
    · cases h
    · cases h
    · exact congrArg some (hcopy rfl)

/-- **All the `try` statement can do.** It throws before the rename, or the rename fails, and
    then `authorized_keys` and `error` are as they were; or everything succeeds, the outcome is
    posted, and what is left to go wrong is a close. -/
theorem tryImport_cases (env : ImportEnv) (s : ImportState) :
    (¬ env.Succeeds ∧ ∃ tmpFile posts thrown,
      tryImport env s = ({ s with tmpFile := tmpFile, posts := s.posts ++ posts }, thrown) ∧
      ((posts = [] ∧ thrown.isSome) ∨ posts = [.importFailed .fileRename])) ∨
    (env.Succeeds ∧ ∃ source, env.opened = .stream source ∧ source.ending = .eof ∧
      tryImport env s =
        ({ authorizedKeys := some (delivered source), tmpFile := none, error := false,
           posts := s.posts ++ [.importDone] },
          if env.closeThrows || env.closeRawThrows then some .close else none)) := by
  unfold tryImport
  cases hopen : env.opened with
  | throws =>
    exact Or.inl ⟨by simp [ImportEnv.Succeeds, hopen], s.tmpFile, [], some .openStream, by simp,
      by simp⟩
  | null =>
    exact Or.inl ⟨by simp [ImportEnv.Succeeds, hopen], s.tmpFile, [], some .streamClosed, by simp,
      by simp⟩
  | stream source =>
    obtain ⟨-, hend, herror⟩ | ⟨is, hok, hsame, hcontent⟩ := checkForUtf8Bom_spec source
    · refine Or.inl ⟨by simp [ImportEnv.Succeeds, hopen, hend], s.tmpFile, [], some .read, ?_, ?_⟩
      · simp [herror]
      · simp
    · have hiff := filesCopy_eq_none_iff env is s.tmpFile
      rw [hsame, hcontent] at hiff
      simp only [hok]
      unfold importBlock
      split <;> rename_i hcopy
      · -- the copy throws
        rename_i tmpFile error
        rw [hcopy] at hiff
        simp only [reduceCtorEq, false_iff] at hiff
        refine Or.inl ⟨?_, tmpFile, [], some error, by simp, by simp⟩
        rintro ⟨source', hopen', hend, hcreate, hfits, hclose, -⟩
        cases hopen.symm.trans hopen'
        exact hiff ⟨hend, hcreate, hfits, hclose⟩
      · have hwritten := filesCopy_written env is s.tmpFile (by rw [hcopy])
        rw [hcopy] at hiff hwritten
        cases hrename : env.renameTo with
        | false =>
          exact Or.inl ⟨by simp [ImportEnv.Succeeds, hrename], _, [.importFailed .fileRename], _,
            rfl, Or.inr rfl⟩
        | true =>
          obtain ⟨hend, hcreate, hfits, hclose⟩ := hiff.mp rfl
          refine Or.inr ⟨⟨source, hopen, hend, hcreate, hfits, hclose, hrename⟩, source, rfl,
            hend, ?_⟩
          rw [← hcontent, ← hwritten]
          rfl

/-- A task that only ever posted failures, with `error` still set. -/
theorem atomic_of_failed {env : ImportEnv} {authorizedKeys : Option Bytes} {s : ImportState}
    (hkeys : s.authorizedKeys = authorizedKeys) (herror : s.error = true) (hne : s.posts ≠ [])
    (hposts : ∀ post ∈ s.posts, ∃ error, post = .importFailed error) :
    Atomic env authorizedKeys (finallyImport s) := by
  have hdone : Post.importDone ∉ (finallyImport s).posts := by
    intro h
    rcases List.mem_append.mp h with h | h
    · obtain ⟨error, heq⟩ := hposts _ h
      cases heq
    · simp at h
  obtain ⟨post, hpost⟩ := List.exists_mem_of_ne_nil _ hne
  obtain ⟨error, rfl⟩ := hposts post hpost
  constructor
  · exact Or.inr ⟨⟨error, List.mem_append_left _ hpost⟩, hdone⟩
  · intro h
    exact absurd h hdone
  · intro _
    exact hkeys
  · unfold finallyImport
    rw [herror]
    rfl
  · unfold finallyImport
    simp

/-- **The task is atomic and reports one outcome exactly when** it is not the case that all its
    work succeeds and closing a stream then throws. -/
theorem executeImport_atomic_iff (env : ImportEnv) (authorizedKeys tmpFile : Option Bytes) :
    Atomic env authorizedKeys (executeImport env authorizedKeys tmpFile) ↔
      ¬ (env.Succeeds ∧ (env.closeThrows = true ∨ env.closeRawThrows = true)) := by
  unfold executeImport
  obtain ⟨hfails, tmp, posts, thrown, htry, hposts⟩ | ⟨hsucceeds, source, hopen, hend, htry⟩ :=
    tryImport_cases env { authorizedKeys, tmpFile, error := true, posts := [] }
  · refine iff_of_true ?_ fun h => hfails h.1
    rw [htry]
    cases thrown with
    | none =>
      obtain ⟨-, hsome⟩ | rfl := hposts
      · cases hsome
      · apply atomic_of_failed <;> simp [catchImport]
    | some error =>
      obtain ⟨rfl, -⟩ | rfl := hposts <;> apply atomic_of_failed <;> simp [catchImport]
  · rw [htry]
    cases hclose : env.closeThrows || env.closeRawThrows with
    | false =>
      have hread := readStripped_eq env.bufferSize source hend
      rw [← Bool.or_eq_true, hclose]
      refine iff_of_true ?_ fun h => by cases h.2
      constructor
      · exact Or.inl ⟨by simp [catchImport, finallyImport], by simp [catchImport, finallyImport]⟩
      · intro _
        exact ⟨source, delivered source, hopen, hread, rfl⟩
      · simp [catchImport, finallyImport]
      · rfl
      · simp [catchImport, finallyImport]
    | true =>
      -- both outcomes are posted
      rw [← Bool.or_eq_true, hclose]
      refine iff_of_false (fun h => ?_) fun h => h ⟨hsucceeds, rfl⟩
      rcases h.oneOutcome with ⟨-, hnot⟩ | ⟨-, hnot⟩ <;>
        exact hnot (by simp [catchImport, finallyImport])

/-- A key that arrives, is renamed into place, and a connection that fails when it is closed. -/
def failingClose : ImportEnv where
  opened := .stream ⟨[⟨[0x6B], by simp⟩], .eof⟩
  bufferSize := fun _ => 8192
  createThrows := none
  room := none
  closeOutputThrows := false
  renameTo := true
  closeThrows := true
  closeRawThrows := false

/-- The new key is in place, and both outcomes are posted. -/
theorem executeImport_failingClose :
    (executeImport failingClose none none).authorizedKeys = some [0x6B] ∧
      (executeImport failingClose none none).posts =
        [.importDone, .importFailed .close, .importRunning false] ∧
      ¬ Atomic failingClose none (executeImport failingClose none none) := by
  have hopened : failingClose.opened = .stream ⟨[⟨[0x6B], by simp⟩], .eof⟩ := rfl
  have hsucceeds : failingClose.Succeeds :=
    ⟨_, hopened, rfl, rfl, Pushback.fits_none _, rfl, rfl⟩
  unfold executeImport
  obtain ⟨hfails, -⟩ | ⟨-, source, hopen, -, htry⟩ := tryImport_cases failingClose
    { authorizedKeys := none, tmpFile := none, error := true, posts := [] }
  · exact absurd hsucceeds hfails
  · cases hopened.symm.trans hopen
    rw [htry]
    refine ⟨rfl, rfl, fun h => ?_⟩
    cases h.failed ⟨.close, by simp [catchImport, finallyImport, failingClose]⟩

end Sshd4a
