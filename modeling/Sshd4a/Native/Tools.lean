import Sshd4a.Native.SuShell

/-!
# The bundled tools (`sshd4a_exe_to_lib`)

The tools of the app are installed under the names of shared libraries, so a command that
starts with the name of one of them has to be rewritten before a shell can run it. What a
reader expects of the rewriting is `bundledPath`: it goes by the first word of the command, and
keeps the rest as it is.

The source has a test of its own for each tool. Those for `scp` and `rsync` ask for a space
after the name, the one for `sftp-server` asks for nothing after the name and drops what is
there, and `busybox` has two tests that together do what all four are meant to do.
`exeToLib_iff` says what this comes to.

A command can be rewritten twice: the path of the `sftp` subsystem is a rewritten command, and
`run_shell_command` rewrites it again. That changes nothing, whatever the command, as long as
the directory is an absolute path.
-/

namespace Sshd4a

open Text

def notSpace (b : UInt8) : Bool := b != byte ' '

/-- The bytes before the first space. -/
def firstWord (cmd : Bytes) : Bytes := cmd.takeWhile notSpace

/-- The first space and what is behind it. -/
def afterWord (cmd : Bytes) : Bytes := cmd.dropWhile notSpace

/-- The names the app has a tool for. -/
def isTool (word : Bytes) : Bool :=
  word == ascii "scp" || word == ascii "rsync" || word == ascii "sftp-server" ||
    word == ascii "busybox"

/-- A command with the name of a tool in its first word replaced by the path of the tool. -/
def bundledPath (libPath cmd : Bytes) : Bytes :=
  if isTool (firstWord cmd) then
    libPath ++ (ascii "/lib" ++ (firstWord cmd ++ (ascii ".so" ++ afterWord cmd)))
  else cmd

/-- What the rewriting of a command is meant to do, once and when it is done again. -/
structure WordForWord (libPath cmd : Bytes) : Prop where
  rewritten : sshd4aExeToLib libPath cmd = bundledPath libPath cmd
  again : sshd4aExeToLib libPath (sshd4aExeToLib libPath cmd) = sshd4aExeToLib libPath cmd

/-! ## Words -/

theorem firstWord_append_afterWord (cmd : Bytes) : firstWord cmd ++ afterWord cmd = cmd :=
  List.takeWhile_append_dropWhile

theorem firstWord_word {word : Bytes} (hword : ∀ b ∈ word, notSpace b = true) (rest : Bytes) :
    firstWord (word ++ byte ' ' :: rest) = word ∧
      afterWord (word ++ byte ' ' :: rest) = byte ' ' :: rest :=
  span_stretch hword (by simp [notSpace])

theorem afterWord_cases (cmd : Bytes) :
    (cmd = firstWord cmd ∧ afterWord cmd = []) ∨
      ∃ rest, cmd = firstWord cmd ++ byte ' ' :: rest ∧ afterWord cmd = byte ' ' :: rest := by
  have happ := firstWord_append_afterWord cmd
  cases hafter : afterWord cmd with
  | nil =>
    rw [hafter, List.append_nil] at happ
    exact Or.inl ⟨happ.symm, rfl⟩
  | cons b rest =>
    have hb : notSpace b = false := head_of_dropWhile hafter
    have hspace : b = byte ' ' := by simpa [notSpace] using hb
    rw [hafter, hspace] at happ
    exact Or.inr ⟨rest, happ.symm, by rw [hspace]⟩

/-- The test of the source for a name with a space behind it. -/
theorem word_space_prefix_iff {word : Bytes} (cmd : Bytes) (hword : ∀ b ∈ word, notSpace b = true) :
    word ++ [byte ' '] <+: cmd ↔ firstWord cmd = word ∧ cmd ≠ word := by
  constructor
  · rintro ⟨rest, rfl⟩
    rw [List.append_assoc, List.singleton_append, (firstWord_word hword _).1]
    refine ⟨rfl, ?_⟩
    intro heq
    have hlen := congrArg List.length heq
    simp at hlen
  · rintro ⟨hfirst, hne⟩
    rcases afterWord_cases cmd with ⟨hcmd, -⟩ | ⟨rest, hcmd, -⟩
    · exact absurd (hcmd.trans hfirst) hne
    · rw [hcmd, hfirst]
      exact ⟨rest, by simp⟩

theorem drop_word_space {word cmd : Bytes} (h : firstWord cmd = word) (hne : cmd ≠ word) :
    byte ' ' :: cmd.drop (word.length + 1) = afterWord cmd := by
  rcases afterWord_cases cmd with ⟨hcmd, -⟩ | ⟨rest, hcmd, hafter⟩
  · exact absurd (hcmd.trans h) hne
  · rw [hafter, hcmd, h, List.drop_append, List.drop_of_length_le (Nat.le_succ _),
      List.nil_append]
    simp

/-! ## The rewriting -/

/-- The five branches of `sshd4a_exe_to_lib` over the first word and the rest. -/
theorem sshd4aExeToLib_eq (libPath cmd : Bytes) :
    sshd4aExeToLib libPath cmd =
      if firstWord cmd = ascii "scp" ∧ cmd ≠ ascii "scp" then
        libPath ++ (ascii "/libscp.so" ++ afterWord cmd)
      else if firstWord cmd = ascii "rsync" ∧ cmd ≠ ascii "rsync" then
        libPath ++ (ascii "/librsync.so" ++ afterWord cmd)
      else if ascii "sftp-server" <+: cmd then libPath ++ ascii "/libsftp-server.so"
      else if firstWord cmd = ascii "busybox" then
        libPath ++ (ascii "/libbusybox.so" ++ afterWord cmd)
      else cmd := by
  have hscp := word_space_prefix_iff cmd
    (show ∀ b ∈ ascii "scp", notSpace b = true from List.all_eq_true.mp rfl)
  have hrsync := word_space_prefix_iff cmd
    (show ∀ b ∈ ascii "rsync", notSpace b = true from List.all_eq_true.mp rfl)
  have hbusybox := word_space_prefix_iff cmd
    (show ∀ b ∈ ascii "busybox", notSpace b = true from List.all_eq_true.mp rfl)
  unfold sshd4aExeToLib
  rw [show ascii "scp " = ascii "scp" ++ [byte ' '] from rfl,
    show ascii "rsync " = ascii "rsync" ++ [byte ' '] from rfl,
    show ascii "busybox " = ascii "busybox" ++ [byte ' '] from rfl]
  simp only [hscp, hrsync, hbusybox]
  split
  · rename_i h
    rw [← drop_word_space h.1 h.2, List.append_assoc]
    rfl
  · split
    · rename_i h
      rw [← drop_word_space h.1 h.2, List.append_assoc]
      rfl
    · split
      · rfl
      · -- the two tests for `busybox`
        by_cases hcmd : cmd = ascii "busybox"
        · rw [hcmd]
          rfl
        · by_cases hfirst : firstWord cmd = ascii "busybox"
          · rw [if_pos ⟨hfirst, hcmd⟩, if_pos hfirst, ← drop_word_space hfirst hcmd,
              List.append_assoc]
            rfl
          · rw [if_neg fun h => hfirst h.1, if_neg hcmd, if_neg hfirst]

/-- A path is not a command of the app. -/
theorem sshd4aExeToLib_of_slash (libPath : Bytes) {cmd : Bytes}
    (h : cmd.head? = some (byte '/')) : sshd4aExeToLib libPath cmd = cmd := by
  have hfirst : ∀ name : Bytes, name ≠ [] ∧ name.head? ≠ some (byte '/') → ¬ name <+: cmd := by
    rintro name ⟨hne, hhead⟩ ⟨rest, rfl⟩
    cases name with
    | nil => exact hne rfl
    | cons b bs => exact hhead h
  have hbusybox : cmd ≠ ascii "busybox" := by
    rintro rfl
    exact absurd h (by decide)
  unfold sshd4aExeToLib
  rw [if_neg (hfirst _ (by decide)), if_neg (hfirst _ (by decide)),
    if_neg (hfirst _ (by decide)), if_neg (hfirst _ (by decide)), if_neg hbusybox]

theorem head_append {libPath : Bytes} (habs : libPath.head? = some (byte '/')) (rest : Bytes) :
    (libPath ++ rest).head? = some (byte '/') := by
  cases libPath with
  | nil => cases habs
  | cons b bs => exact habs

/-- **Rewriting again changes nothing.** -/
theorem sshd4aExeToLib_again {libPath : Bytes} (habs : libPath.head? = some (byte '/'))
    (cmd : Bytes) :
    sshd4aExeToLib libPath (sshd4aExeToLib libPath cmd) = sshd4aExeToLib libPath cmd := by
  have hcases : sshd4aExeToLib libPath cmd = cmd ∨
      ∃ rest, sshd4aExeToLib libPath cmd = libPath ++ rest := by
    rw [sshd4aExeToLib_eq]
    split
    · exact Or.inr ⟨_, rfl⟩
    · split
      · exact Or.inr ⟨_, rfl⟩
      · split
        · exact Or.inr ⟨_, rfl⟩
        · split
          · exact Or.inr ⟨_, rfl⟩
          · exact Or.inl rfl
  rcases hcases with hsame | ⟨rest, hpath⟩
  · rw [hsame, hsame]
  · rw [hpath, sshd4aExeToLib_of_slash libPath (head_append habs rest)]

theorem bundledPath_of_tool {libPath cmd : Bytes} (h : isTool (firstWord cmd) = true) :
    bundledPath libPath cmd =
      libPath ++ (ascii "/lib" ++ (firstWord cmd ++ (ascii ".so" ++ afterWord cmd))) := by
  rw [bundledPath, if_pos h]

theorem length_lt_bundledPath (libPath : Bytes) {cmd : Bytes}
    (h : isTool (firstWord cmd) = true) : cmd.length < (bundledPath libPath cmd).length := by
  rw [bundledPath_of_tool h]
  conv_lhs => rw [← firstWord_append_afterWord cmd]
  simp only [List.length_append]
  have hso : (ascii ".so").length = 3 := rfl
  omega

/-- The commands whose names have no test that fits: a bare `scp` or `rsync`, and anything
    behind `sftp-server`. -/
def MissedCommand (cmd : Bytes) : Prop :=
  cmd = ascii "scp" ∨ cmd = ascii "rsync" ∨
    (ascii "sftp-server" <+: cmd ∧ cmd ≠ ascii "sftp-server")

/-- Behind `sftp-server` there are arguments, or the word is a longer one. -/
theorem bundledPath_sftp {libPath cmd : Bytes} (habs : libPath.head? = some (byte '/'))
    (h : ascii "sftp-server" <+: cmd) :
    libPath ++ ascii "/libsftp-server.so" = bundledPath libPath cmd ↔
      cmd = ascii "sftp-server" := by
  constructor
  · intro heq
    by_cases htool : isTool (firstWord cmd) = true
    · rw [bundledPath_of_tool htool] at heq
      have heq := List.append_cancel_left heq
      obtain ⟨rest, rfl⟩ := h
      cases rest with
      | nil => rfl
      | cons b rest =>
        -- a tool that begins like this is `sftp-server` itself, and a space follows
        by_cases hb : notSpace b = true
        · have hlong : firstWord (ascii "sftp-server" ++ b :: rest)
              = ascii "sftp-server" ++ b :: firstWord rest := by
            rw [firstWord, List.takeWhile_append_of_pos (List.all_eq_true.mp rfl),
              List.takeWhile_cons_of_pos hb]
            rfl
          rw [hlong] at htool
          simp [isTool, ascii] at htool
        · have hspace : b = byte ' ' := by simpa [notSpace] using hb
          subst hspace
          obtain ⟨hfirst, hafter⟩ :=
            firstWord_word (show ∀ b ∈ ascii "sftp-server", notSpace b = true from
              List.all_eq_true.mp rfl) rest
          rw [hfirst, hafter] at heq
          have hlen := congrArg List.length heq
          simp [ascii] at hlen
    · rw [bundledPath, if_neg htool] at heq
      have hhead := congrArg List.head? heq
      rw [head_append habs] at hhead
      obtain ⟨rest, rfl⟩ := h
      simp [ascii, byte] at hhead
  · rintro rfl
    rfl

theorem firstWord_of_sftp {cmd : Bytes} (h : ascii "sftp-server" <+: cmd) :
    firstWord cmd ≠ ascii "scp" ∧ firstWord cmd ≠ ascii "rsync" := by
  obtain ⟨rest, rfl⟩ := h
  rw [firstWord, List.takeWhile_append_of_pos (List.all_eq_true.mp rfl)]
  simp [ascii]

theorem sftp_of_firstWord {cmd : Bytes} (h : firstWord cmd = ascii "sftp-server") :
    ascii "sftp-server" <+: cmd := by
  rw [← h]
  exact List.takeWhile_prefix _

theorem sshd4aExeToLib_missed {libPath cmd : Bytes} (habs : libPath.head? = some (byte '/'))
    (h : MissedCommand cmd) : sshd4aExeToLib libPath cmd ≠ bundledPath libPath cmd := by
  have hkept : sshd4aExeToLib libPath cmd = cmd → isTool (firstWord cmd) = true →
      sshd4aExeToLib libPath cmd ≠ bundledPath libPath cmd := by
    intro hsame htool heq
    have hlen := length_lt_bundledPath libPath htool
    rw [← heq, hsame] at hlen
    exact Nat.lt_irrefl _ hlen
  rcases h with rfl | rfl | ⟨hsftp, hne⟩
  · exact hkept (by rw [sshd4aExeToLib_eq]; rfl) (by decide)
  · exact hkept (by rw [sshd4aExeToLib_eq]; rfl) (by decide)
  · obtain ⟨hscp, hrsync⟩ := firstWord_of_sftp hsftp
    rw [sshd4aExeToLib_eq, if_neg fun h => hscp h.1, if_neg fun h => hrsync h.1, if_pos hsftp]
    exact fun heq => hne ((bundledPath_sftp habs hsftp).mp heq)

theorem sshd4aExeToLib_met {libPath cmd : Bytes} (habs : libPath.head? = some (byte '/'))
    (h : ¬ MissedCommand cmd) : sshd4aExeToLib libPath cmd = bundledPath libPath cmd := by
  rw [MissedCommand, not_or, not_or, not_and, not_not] at h
  obtain ⟨hscp, hrsync, hsftp⟩ := h
  have htool : ∀ word : Bytes, isTool word = true → firstWord cmd = word →
      bundledPath libPath cmd =
        libPath ++ (ascii "/lib" ++ (word ++ (ascii ".so" ++ afterWord cmd))) := by
    intro word hword hfirst
    rw [bundledPath_of_tool (by rw [hfirst]; exact hword), hfirst]
  rw [sshd4aExeToLib_eq]
  split
  · rename_i hword
    rw [htool _ (by decide) hword.1]
    rfl
  · split
    · rename_i hword
      rw [htool _ (by decide) hword.1]
      rfl
    · split
      · rename_i hprefix
        exact (bundledPath_sftp habs hprefix).mpr (hsftp hprefix)
      · split
        · rename_i hword
          rw [htool _ (by decide) hword]
          rfl
        · rename_i hnscp hnrsync hnsftp hnbusybox
          have hword : isTool (firstWord cmd) = false := by
            have h1 : firstWord cmd ≠ ascii "scp" := fun h => hnscp ⟨h, hscp⟩
            have h2 : firstWord cmd ≠ ascii "rsync" := fun h => hnrsync ⟨h, hrsync⟩
            have h3 : firstWord cmd ≠ ascii "sftp-server" := fun h => hnsftp (sftp_of_firstWord h)
            simp [isTool, h1, h2, h3, hnbusybox]
          rw [bundledPath, hword, if_neg Bool.false_ne_true]

/-- **Commands are rewritten word for word exactly when** they are none of those. -/
theorem exeToLib_iff (libPath cmd : Bytes) (habs : libPath.head? = some (byte '/')) :
    WordForWord libPath cmd ↔ ¬ MissedCommand cmd := by
  constructor
  · intro h hmissed
    exact sshd4aExeToLib_missed habs hmissed h.rewritten
  · intro h
    exact ⟨sshd4aExeToLib_met habs h, sshd4aExeToLib_again habs cmd⟩

theorem exeToLib_iff_busybox :
    WordForWord (ascii "/lib") (ascii "busybox") :=
  (exeToLib_iff (ascii "/lib") (ascii "busybox") (by decide)).mpr (by
    rintro (h | h | ⟨h, -⟩)
    · exact absurd h (by decide)
    · exact absurd h (by decide)
    · exact absurd h (by decide))

/-- The arguments of `sftp-server -e` are dropped, and `scp` alone is not found. -/
theorem exeToLib_sftpArguments :
    sshd4aExeToLib (ascii "/lib") (ascii "sftp-server -e") = ascii "/lib/libsftp-server.so" ∧
      ¬ WordForWord (ascii "/lib") (ascii "sftp-server -e") ∧
      ¬ WordForWord (ascii "/lib") (ascii "scp") := by
  refine ⟨by decide, fun h => ?_, fun h => ?_⟩
  · exact absurd h.rewritten (by decide)
  · exact absurd h.rewritten (by decide)

end Sshd4a
