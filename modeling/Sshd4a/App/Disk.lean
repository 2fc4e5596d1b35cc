import Sshd4a.App.Format
import Sshd4a.Auth.Soundness

/-!
# What is on the disk while the app writes

`writeAuthorizedUser` again, this time with every content the file goes through and with the
operations that can fail. The file is opened for writing in place, which empties it, and the
new text then arrives in as many pieces as the writer's buffer and the system make of it; a
process that is killed leaves whatever is there at that moment, and a native session that reads
sees it. Reading and deleting report nothing when they fail.

`Environment` is everything the code does not control: which operations fail, and how a text is
cut into pieces. `ioWriteAuthorizedUser_ok` ties this model to the plain one: when
nothing fails, what is there in the end is `writeAuthorizedUser`. `allOrNothing_iff` says when
an update is all or nothing, and the list is short: when it writes nothing, deletes
successfully, fails before the file is emptied, or fills an empty file in one piece.
-/

namespace Sshd4a

open Text

/-! ## Failures -/

/-- An operation on the file that can fail. -/
inductive IoOp
  | read
  | delete
  | createNewFile
  | newFileWriter
  | write
deriving DecidableEq, Repr

/-- Which operations fail, and how a text reaches the disk. -/
structure Environment where
  readFails : Bool := false
  deleteFails : Bool := false
  createFails : Bool := false
  openFails : Bool := false
  /-- The piece whose write fails, and whether the flush in `close` still gets it to the disk. -/
  writeFails : Option (Nat × Bool) := none
  pieces : Bytes → List Bytes
  flatten_pieces : ∀ text, (pieces text).flatten = text

/-- A run: the contents of the file in order, from the one it starts with, the operations that
    failed, and the one whose exception the caller sees. -/
structure IoRun where
  disk : List (Option Bytes)
  errors : List IoOp
  thrown : Option IoOp

def IoRun.final (r : IoRun) : Option Bytes := r.disk.getLastD none

/-! ## The calls -/

/-- `readAllAuthorizedUsers`, with the error it ignores. A file that is not there is no
    error. -/
def ioReadAll (env : Environment) (old : Option Bytes) : LinkedMap JString UserPass × List IoOp :=
  match old with
  | none => (.empty, [])
  | some content =>
    if env.readFails = true ∨ decodeUtf8 content = none then (.empty, [.read])
    else (readAllAuthorizedUsers old, [])

/-- The contents while pieces are appended. -/
def diskAfter (written : Bytes) : List Bytes → List (Option Bytes)
  | [] => []
  | piece :: pieces => some (written ++ piece) :: diskAfter (written ++ piece) pieces

/-- The pieces that reach the disk, and whether one of them failed. -/
def reached (writeFails : Option (Nat × Bool)) (pieces : List Bytes) : List Bytes × Bool :=
  match writeFails with
  | some (piece, retried) =>
    if piece < pieces.length then (pieces.take (if retried then piece + 1 else piece), true)
    else (pieces, false)
  | none => (pieces, false)

/-- `writeAllAuthorizedUsers`. -/
def ioWriteAll (env : Environment) (old : Option Bytes) (all : LinkedMap JString UserPass) :
    IoRun :=
  if all.isEmpty then
    match old with
    | none => ⟨[old], [], none⟩
    | some _ =>
      -- `file.delete()`, whose answer is ignored
      if env.deleteFails then ⟨[old], [.delete], none⟩ else ⟨[old, none], [], none⟩
  else if env.createFails then ⟨[old], [.createNewFile], some .createNewFile⟩
  else
    let created := some (old.getD [])
    if env.openFails then ⟨[old, created], [.newFileWriter], some .newFileWriter⟩
    else
      let (pieces, failed) :=
        reached env.writeFails (env.pieces (utf8 (all.entries.flatMap writtenLine)))
      ⟨old :: created :: some [] :: diskAfter [] pieces,
        if failed then [.write] else [], if failed then some .write else none⟩

/-- `writeAuthorizedUser`. -/
def ioWriteAuthorizedUser (sha : Sha512) (env : Environment) (old : Option Bytes)
    (call : UserUpdate) : IoRun :=
  let (all, errors) := ioReadAll env old
  match updateAuthorizedUser sha all call with
  | none => ⟨[old], errors, none⟩
  | some all' =>
    let r := ioWriteAll env old all'
    { r with errors := errors ++ r.errors }

/-! ## Pieces -/

theorem getLastD_diskAfter (written : Bytes) (pieces : List Bytes) :
    (diskAfter written pieces).getLastD (some written) = some (written ++ pieces.flatten) := by
  induction pieces generalizing written with
  | nil => simp [diskAfter]
  | cons piece pieces ih =>
    rw [diskAfter, List.getLastD_cons, ih, List.flatten_cons, List.append_assoc]

theorem diskAfter_of_empty {pieces : List Bytes} (h : pieces.flatten = []) (written : Bytes) :
    ∀ c ∈ diskAfter written pieces, c = some written := by
  induction pieces with
  | nil => simp [diskAfter]
  | cons piece pieces ih =>
    rw [List.flatten_cons, List.append_eq_nil_iff] at h
    intro c hc
    rw [diskAfter, h.1, List.append_nil, List.mem_cons] at hc
    rcases hc with rfl | hc
    · rfl
    · exact ih h.2 c hc

/-- A text appears whole, or not at all, exactly when it is one piece. -/
theorem diskAfter_whole {pieces : List Bytes} {text : Bytes} (hne : text ≠ [])
    (htext : pieces.flatten = text) :
    (∀ c ∈ diskAfter [] pieces, c.getD [] = [] ∨ c.getD [] = text) ↔ text ∈ pieces := by
  induction pieces with
  | nil => exact absurd htext.symm hne
  | cons piece pieces ih =>
    rw [diskAfter, List.nil_append]
    rw [List.flatten_cons] at htext
    by_cases hp : piece = []
    · subst hp
      rw [List.nil_append] at htext
      rw [List.forall_mem_cons, ih htext, List.mem_cons]
      exact ⟨fun h => Or.inr h.2, fun h => ⟨Or.inl rfl, h.resolve_left hne⟩⟩
    · constructor
      · intro h
        rcases h (some piece) (by simp) with hq | hq
        · exact absurd hq hp
        · exact List.mem_cons.mpr (Or.inl hq.symm)
      · intro h
        -- The rest is empty: the piece with the text in it leaves no room.
        have hrest : pieces.flatten = [] := by
          rcases List.mem_cons.mp h with rfl | hm
          · simpa using htext
          · have hle := (List.sublist_flatten_of_mem hm).length_le
            have hlen := congrArg List.length htext
            have hpos := List.length_pos_iff.mpr hp
            rw [List.length_append] at hlen
            omega
        rw [hrest, List.append_nil] at htext
        subst htext
        intro c hc
        rcases List.mem_cons.mp hc with rfl | hc
        · exact Or.inr rfl
        · rw [diskAfter_of_empty hrest _ c hc]
          exact Or.inr rfl

theorem reached_of_not_failed {writeFails : Option (Nat × Bool)} {pieces : List Bytes}
    (h : (reached writeFails pieces).2 = false) : (reached writeFails pieces).1 = pieces := by
  unfold reached at h ⊢
  cases writeFails with
  | none => rfl
  | some fails =>
    simp only at h ⊢
    split at h
    · exact absurd h (by simp)
    · next hlt => rw [if_neg hlt]

/-! ## All or nothing -/

/-- A missing file has the content of an empty one: the native reader cannot tell them apart. -/
def SameContent (a b : Option Bytes) : Prop := a.getD [] = b.getD []

/-- At every moment the content is the old one or the new one, and an operation that fails is
    reported and leaves the old one. -/
structure AllOrNothing (old new : Option Bytes) (r : IoRun) : Prop where
  content : ∀ c ∈ r.disk, SameContent c old ∨ SameContent c new
  errors : ∀ op ∈ r.errors, r.thrown = some op ∧ SameContent r.final old

/-- The file, if there is one, is UTF-8 and can be read. -/
def ReadsCleanly (env : Environment) (old : Option Bytes) : Prop :=
  ∀ content, old = some content → env.readFails = false ∧ decodeUtf8 content ≠ none

/-- Nothing is written; or the file is deleted and that works; or creating or opening fails; or
    an empty file is filled in one piece, or not at all. -/
def WritesSafely (sha : Sha512) (env : Environment) (old : Option Bytes) (call : UserUpdate) :
    Prop :=
  ∀ all, updateAuthorizedUser sha (readAllAuthorizedUsers old) call = some all →
    if all.isEmpty then old = none ∨ env.deleteFails = false
    else env.createFails = true ∨ env.openFails = true ∨
      (old.getD [] = [] ∧
        let text := utf8 (all.entries.flatMap writtenLine)
        if (reached env.writeFails (env.pieces text)).2
        then (reached env.writeFails (env.pieces text)).1.flatten = []
        else text ∈ env.pieces text)

section
variable {sha : Sha512} {env : Environment} {old : Option Bytes} {call : UserUpdate}
  {all : LinkedMap JString UserPass}

theorem ioReadAll_of_clean (h : ReadsCleanly env old) :
    ioReadAll env old = (readAllAuthorizedUsers old, []) := by
  cases old with
  | none => rfl
  | some content =>
    obtain ⟨hfault, hdecode⟩ := h content rfl
    simp [ioReadAll, hfault, hdecode]

theorem ioReadAll_of_not_clean (h : ¬ ReadsCleanly env old) : (ioReadAll env old).2 = [.read] := by
  cases old with
  | none => exact absurd (fun content hc => by cases hc) h
  | some content =>
    by_cases hbad : env.readFails = true ∨ decodeUtf8 content = none
    · simp [ioReadAll, hbad]
    · rw [not_or, Bool.not_eq_true] at hbad
      exact absurd (fun content' hc => by cases hc; exact hbad) h

theorem thrown_ne_read : (ioWriteAuthorizedUser sha env old call).thrown ≠ some .read := by
  unfold ioWriteAuthorizedUser
  simp only
  split
  · simp
  · unfold ioWriteAll
    split
    · cases old with
      | none => simp
      | some content => simp only; split <;> simp
    · split
      · simp
      · simp only
        split
        · simp
        · split <;> simp

theorem text_ne_nil (h : all.isEmpty = false) : utf8 (all.entries.flatMap writtenLine) ≠ [] := by
  unfold LinkedMap.isEmpty at h
  cases he : all.entries with
  | nil => simp [he] at h
  | cons e es =>
    rw [ne_eq, utf8_eq_nil, List.flatMap_cons, List.append_eq_nil_iff, writtenLine]
    simp

/-- The run once the file is open: it is emptied, and then the pieces arrive. -/
def writtenRun (old : Option Bytes) (pieces : List Bytes) (failed : Bool) : IoRun :=
  ⟨old :: some (old.getD []) :: some [] :: diskAfter [] pieces,
    if failed then [.write] else [], if failed then some .write else none⟩

section
variable {pieces : List Bytes} {failed : Bool} {text : Bytes}

theorem final_writtenRun : (writtenRun old pieces failed).final = some pieces.flatten := by
  unfold writtenRun IoRun.final
  simp only [List.getLastD_cons]
  rw [getLastD_diskAfter, List.nil_append]

/-- The emptied file is seen, so an update that is all or nothing found it empty. -/
theorem AllOrNothing.old_empty (hne : text ≠ [])
    (h : AllOrNothing old (some text) (writtenRun old pieces failed)) : old.getD [] = [] := by
  rcases h.content (some []) (by simp [writtenRun]) with hsame | hsame
  · exact hsame.symm
  · exact absurd hsame.symm hne

/-- Emptying an empty file shows nothing. -/
theorem mem_disk_writtenRun (hold : old.getD [] = []) {c : Option Bytes}
    (hc : c ∈ (writtenRun old pieces failed).disk) :
    SameContent c old ∨ c ∈ diskAfter [] pieces := by
  simp only [writtenRun, List.mem_cons] at hc
  rcases hc with rfl | rfl | rfl | hc
  · exact Or.inl rfl
  · exact Or.inl rfl
  · exact Or.inl hold.symm
  · exact Or.inr hc

/-- A write that fails must not have changed anything. -/
theorem allOrNothing_failed (hne : text ≠ []) :
    AllOrNothing old (some text) (writtenRun old pieces true) ↔
      old.getD [] = [] ∧ pieces.flatten = [] := by
  constructor
  · intro h
    have hold := h.old_empty hne
    have hstays := (h.errors .write (by simp [writtenRun])).2
    rw [final_writtenRun, SameContent, hold] at hstays
    exact ⟨hold, hstays⟩
  · intro ⟨hold, hpieces⟩
    refine ⟨fun c hc => Or.inl ?_, fun op hop => ?_⟩
    · rcases mem_disk_writtenRun hold hc with hsame | hc
      · exact hsame
      · rw [diskAfter_of_empty hpieces _ c hc]
        exact hold.symm
    · have hop' : op = .write := by simpa [writtenRun] using hop
      refine ⟨by rw [hop']; rfl, ?_⟩
      rw [final_writtenRun, hpieces]
      exact hold.symm

/-- A write that succeeds must not show a part of the text. -/
theorem allOrNothing_written (hne : text ≠ []) (htext : pieces.flatten = text) :
    AllOrNothing old (some text) (writtenRun old pieces false) ↔
      old.getD [] = [] ∧ text ∈ pieces := by
  constructor
  · intro h
    have hold := h.old_empty hne
    refine ⟨hold, (diskAfter_whole hne htext).mp fun c hc => ?_⟩
    exact (h.content c (by simp [writtenRun, hc])).imp_left fun hsame => hsame.trans hold
  · intro ⟨hold, hpieces⟩
    refine ⟨fun c hc => ?_, fun op hop => absurd hop (by simp [writtenRun])⟩
    rcases mem_disk_writtenRun hold hc with hsame | hc
    · exact Or.inl hsame
    · exact ((diskAfter_whole hne htext).mpr hpieces c hc).imp_left
        fun hsame => hsame.trans hold.symm

end

theorem allOrNothing_write (he : all.isEmpty = false) (hcreate : env.createFails = false)
    (hopen : env.openFails = false) :
    AllOrNothing old (writeAllAuthorizedUsers all) (ioWriteAll env old all) ↔
      old.getD [] = [] ∧
        if (reached env.writeFails (env.pieces (utf8 (all.entries.flatMap writtenLine)))).2
        then (reached env.writeFails (env.pieces (utf8 (all.entries.flatMap writtenLine)))).1.flatten
          = []
        else utf8 (all.entries.flatMap writtenLine)
          ∈ env.pieces (utf8 (all.entries.flatMap writtenLine)) := by
  have hne := text_ne_nil he
  generalize hgen : utf8 (all.entries.flatMap writtenLine) = text at hne
  have hnew : writeAllAuthorizedUsers all = some text := by
    rw [writeAllAuthorizedUsers, he, hgen]
    rfl
  have hrun : ioWriteAll env old all = writtenRun old (reached env.writeFails (env.pieces text)).1
      (reached env.writeFails (env.pieces text)).2 := by
    unfold ioWriteAll
    rw [if_neg (by simp [he]), if_neg (by simp [hcreate])]
    simp only [hopen, Bool.false_eq_true, if_false, hgen]
    rfl
  rw [hnew, hrun]
  cases hfailed : (reached env.writeFails (env.pieces text)).2 with
  | true =>
    rw [if_pos rfl]
    exact allOrNothing_failed hne
  | false =>
    rw [if_neg (by simp), reached_of_not_failed hfailed]
    exact allOrNothing_written hne (env.flatten_pieces text)

theorem allOrNothing_delete (he : all.isEmpty = true) :
    AllOrNothing old (writeAllAuthorizedUsers all) (ioWriteAll env old all) ↔
      old = none ∨ env.deleteFails = false := by
  have hnew : writeAllAuthorizedUsers all = none := by
    rw [writeAllAuthorizedUsers, if_pos he]
  rw [hnew]
  unfold ioWriteAll
  rw [if_pos he]
  cases old with
  | none => exact ⟨fun _ => Or.inl rfl, fun _ => ⟨by simp [SameContent], by simp⟩⟩
  | some content =>
    simp only
    cases hfails : env.deleteFails with
    | true =>
      rw [if_pos rfl]
      refine ⟨fun h => ?_, fun h => absurd (h.resolve_left (by simp)) (by simp)⟩
      exact absurd (h.errors .delete (by simp)).1 (by simp)
    | false =>
      rw [if_neg (by simp)]
      refine ⟨fun _ => Or.inr rfl, fun _ => ⟨fun c hc => ?_, by simp⟩⟩
      simp only [List.mem_cons, List.not_mem_nil, or_false] at hc
      rcases hc with rfl | rfl
      · exact Or.inl rfl
      · exact Or.inr rfl

theorem allOrNothing_ioWriteAll :
    AllOrNothing old (writeAllAuthorizedUsers all) (ioWriteAll env old all) ↔
      if all.isEmpty then old = none ∨ env.deleteFails = false
      else env.createFails = true ∨ env.openFails = true ∨
        (old.getD [] = [] ∧
          let text := utf8 (all.entries.flatMap writtenLine)
          if (reached env.writeFails (env.pieces text)).2
          then (reached env.writeFails (env.pieces text)).1.flatten = []
          else text ∈ env.pieces text) := by
  cases he : all.isEmpty with
  | true =>
    rw [if_pos rfl]
    exact allOrNothing_delete he
  | false =>
    rw [if_neg (by simp)]
    cases hcreate : env.createFails with
    | true =>
      refine ⟨fun _ => Or.inl rfl, fun _ => ?_⟩
      unfold ioWriteAll
      rw [if_neg (by simp [he]), if_pos hcreate]
      exact ⟨by simp [SameContent], by simp [SameContent, IoRun.final]⟩
    | false =>
      cases hopen : env.openFails with
      | true =>
        refine ⟨fun _ => Or.inr (Or.inl rfl), fun _ => ?_⟩
        unfold ioWriteAll
        rw [if_neg (by simp [he]), if_neg (by simp [hcreate])]
        simp only [if_pos hopen]
        exact ⟨by simp [SameContent], by simp [SameContent, IoRun.final]⟩
      | false =>
        rw [allOrNothing_write he hcreate hopen]
        exact ⟨fun h => Or.inr (Or.inr h),
          fun h => (h.resolve_left (by simp)).resolve_left (by simp)⟩

theorem ioWriteAuthorizedUser_row (hclean : ReadsCleanly env old)
    (hrow : updateAuthorizedUser sha (readAllAuthorizedUsers old) call = some all) :
    writeAuthorizedUser sha old call = writeAllAuthorizedUsers all ∧
      ioWriteAuthorizedUser sha env old call = ioWriteAll env old all := by
  unfold writeAuthorizedUser ioWriteAuthorizedUser
  rw [ioReadAll_of_clean hclean]
  simp only [hrow, List.nil_append, and_self]

theorem ioWriteAuthorizedUser_nop (hclean : ReadsCleanly env old)
    (hrow : updateAuthorizedUser sha (readAllAuthorizedUsers old) call = none) :
    writeAuthorizedUser sha old call = old ∧
      ioWriteAuthorizedUser sha env old call = ⟨[old], [], none⟩ := by
  unfold writeAuthorizedUser ioWriteAuthorizedUser
  rw [ioReadAll_of_clean hclean]
  simp only [hrow, and_self]

/-- **When nothing fails**, the update ends with the file of the plain model and no
    exception. -/
theorem ioWriteAuthorizedUser_ok (hclean : ReadsCleanly env old) (hdelete : env.deleteFails = false)
    (hcreate : env.createFails = false) (hopen : env.openFails = false)
    (hwrite : env.writeFails = none) :
    (ioWriteAuthorizedUser sha env old call).final = writeAuthorizedUser sha old call ∧
      (ioWriteAuthorizedUser sha env old call).errors = [] ∧
      (ioWriteAuthorizedUser sha env old call).thrown = none := by
  cases hrow : updateAuthorizedUser sha (readAllAuthorizedUsers old) call with
  | none =>
    obtain ⟨hnew, hrun⟩ := ioWriteAuthorizedUser_nop hclean hrow
    rw [hnew, hrun]
    exact ⟨rfl, rfl, rfl⟩
  | some all =>
    obtain ⟨hnew, hrun⟩ := ioWriteAuthorizedUser_row hclean hrow
    rw [hnew, hrun]
    unfold ioWriteAll writeAllAuthorizedUsers
    cases he : all.isEmpty with
    | true => cases old <;> simp [hdelete, IoRun.final]
    | false =>
      simp only [hcreate, hopen, hwrite, Bool.false_eq_true, if_false, reached, IoRun.final,
        List.getLastD_cons, and_self, and_true]
      rw [getLastD_diskAfter, List.nil_append, env.flatten_pieces]

theorem not_allOrNothing_of_not_clean (hclean : ¬ ReadsCleanly env old) {new : Option Bytes} :
    ¬ AllOrNothing old new (ioWriteAuthorizedUser sha env old call) := by
  intro h
  -- The failed read is among the errors, and nobody hears of it.
  have hread : IoOp.read ∈ (ioWriteAuthorizedUser sha env old call).errors := by
    unfold ioWriteAuthorizedUser
    simp only [ioReadAll_of_not_clean hclean]
    split <;> simp
  exact absurd (h.errors .read hread).1 thrown_ne_read

end

/-- **When an update is all or nothing.** -/
theorem allOrNothing_iff (sha : Sha512) (env : Environment) (old : Option Bytes)
    (call : UserUpdate) :
    AllOrNothing old (writeAuthorizedUser sha old call) (ioWriteAuthorizedUser sha env old call) ↔
      ReadsCleanly env old ∧ WritesSafely sha env old call := by
  by_cases hclean : ReadsCleanly env old
  · rw [and_iff_right hclean]
    unfold WritesSafely
    cases hrow : updateAuthorizedUser sha (readAllAuthorizedUsers old) call with
    | none =>
      obtain ⟨hnew, hrun⟩ := ioWriteAuthorizedUser_nop hclean hrow
      rw [hnew, hrun]
      exact ⟨fun _ all hall => absurd hall (by simp), fun _ => ⟨by simp [SameContent], by simp⟩⟩
    | some all =>
      obtain ⟨hnew, hrun⟩ := ioWriteAuthorizedUser_row hclean hrow
      rw [hnew, hrun]
      exact allOrNothing_ioWriteAll.trans
        ⟨fun h all' hall => Option.some.inj hall ▸ h, fun h => h all rfl⟩
  · exact ⟨fun h => absurd h (not_allOrNothing_of_not_clean hclean), fun h => absurd h.1 hclean⟩

/-- Nothing fails, and every text is written in one piece. -/
def undisturbed : Environment where
  pieces := fun text => [text]
  flatten_pieces := by simp

/-- `eve:y:root` -/
def eveFile : Bytes := utf8 ['e', 'v', 'e', ':', 'y', ':', 'r', 'o', 'o', 't', '\n']

/-- The app adds a plain user. -/
def addBob : UserUpdate := ⟨roleUser, some ['b', 'o', 'b'], true, some ['p', 'w']⟩

/-- Between opening the file and writing to it the root entry is gone and the new one is not
    there, whatever else goes well. -/
theorem emptied_file_seen :
    ¬ AllOrNothing (some eveFile)
        (writeAuthorizedUser (Sha512.const placeholderDigest) (some eveFile) addBob)
        (ioWriteAuthorizedUser (Sha512.const placeholderDigest) undisturbed (some eveFile)
          addBob) := by
  have hclean : ReadsCleanly undisturbed (some eveFile) := by
    rintro content ⟨⟩
    refine ⟨by decide, ?_⟩
    rw [eveFile, decodeUtf8_utf8]
    simp
  have hrow : updateAuthorizedUser (Sha512.const placeholderDigest)
      (readAllAuthorizedUsers (some eveFile)) addBob
      = some ((readAllAuthorizedUsers (some eveFile)).put roleUser
          ⟨['b', 'o', 'b'], hash (Sha512.const placeholderDigest) ['p', 'w']⟩) := rfl
  have hnonempty : ((readAllAuthorizedUsers (some eveFile)).put roleUser
      ⟨['b', 'o', 'b'], hash (Sha512.const placeholderDigest) ['p', 'w']⟩).isEmpty = false := by
    obtain ⟨after, hput, -⟩ := (readAllAuthorizedUsers (some eveFile)).entries_put roleUser
      ⟨['b', 'o', 'b'], hash (Sha512.const placeholderDigest) ['p', 'w']⟩
    rw [LinkedMap.isEmpty, hput]
    simp
  obtain ⟨hnew, hrun⟩ := ioWriteAuthorizedUser_row hclean hrow
  rw [hnew, hrun, allOrNothing_write hnonempty (by decide) (by decide)]
  rintro ⟨hempty, -⟩
  exact absurd hempty (by decide)

end Sshd4a
