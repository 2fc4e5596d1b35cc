import Sshd4a.App.SshdSettings
import Sshd4a.Lib.Shell

/-!
# The log file behind `su` (`FileLogger.java`)

When the log file cannot be written directly, `FileLogger.writeViaSu` writes a script to a root
shell: `mkdir -p` of the directory, a `cat` with the log line as its here-document, `exit`. The
directory and the path stand between single quotes, the line between the lines of a marker, and
none of the three is looked at before. The line can be anything: it carries usernames, commands
that other apps sent and their output.

`writesLine_iff` says which directories and lines are safe, and hence which are run by root.
-/

namespace Sshd4a

open Text Shell

def logFileName : JString := "sshd4a-debug.log".toList

/-- The end of the here-document. -/
def logMarker : JString := "SSHD4A_LOG_EOF".toList

/-- The line `log` puts together, without its newline. -/
def logText (ts tag message : JString) : JString :=
  ts ++ " [".toList ++ tag ++ "] ".toList ++ message

/-- `dir.endsWith("/") ? dir.substring(0, dir.length() - 1) : dir`. -/
def normalizedDir (dir : JString) : JString :=
  if dir.getLast? = some '/' then dir.dropLast else dir

def logPath (dir : JString) : JString := normalizedDir dir ++ '/' :: logFileName

/-- The script of `writeViaSu`. -/
def suScript (dir path line : JString) : JString :=
  "mkdir -p ".toList ++ quote :: (dir ++ quote :: '\n' ::
    ("cat >> ".toList ++ quote :: (path ++ quote :: (" <<".toList ++ quote :: (logMarker ++
      quote :: '\n' :: (line ++ (logMarker ++ '\n' :: "exit\n".toList)))))))

/-- The script for a directory and a message. -/
def logScript (dir ts tag message : JString) : JString :=
  suScript (normalizedDir dir) (logPath dir) (logText ts tag message ++ ['\n'])

theorem logText_append (ts tag message behind : JString) :
    logText ts tag (message ++ behind) = logText ts tag message ++ behind := by
  simp only [logText, List.append_assoc]

/-! ## What it is to do -/

/-- A path that names a directory as another one does: the same, or without the slash at its
    end. -/
def NamesDir (path dir : JString) : Prop := path ≠ [] ∧ (path = dir ∨ path ++ ['/'] = dir)

/-- What a utility takes for an operand and not for an option. -/
def IsOperand (arg : JString) : Prop := arg.head? = some '-' → arg = ['-']

instance (arg : JString) : Decidable (IsOperand arg) :=
  inferInstanceAs (Decidable (arg.head? = some '-' → arg = ['-']))

def mkdirCommand (dir : JString) : Command := { words := ["mkdir".toList, "-p".toList, dir] }

def appendCommand (path line : JString) : Command :=
  { words := ["cat".toList], appendTo := [path], input := [line] }

def exitCommand : Command := { words := ["exit".toList] }

/-- The three commands, and nothing else. -/
def WritesLine (dir text : JString) (r : List Command × Ending) : Prop :=
  ∃ path, NamesDir path dir ∧ IsOperand path ∧
    r = ([mkdirCommand path, appendCommand (path ++ '/' :: logFileName) (text ++ ['\n']),
      exitCommand], .exited)

/-! ## How the shell reads it -/

theorem logMarker_eq : logMarker
    = ['S', 'S', 'H', 'D', '4', 'A', '_', 'L', 'O', 'G', '_', 'E', 'O', 'F'] := by
  unfold logMarker
  rw [String.toList_ofList]

theorem quote_notMem_logMarker : quote ∉ logMarker := by
  rw [logMarker_eq]
  simp [quote]

theorem logMarker_noNewline : ∀ c ∈ logMarker, isNewlineChar c = false := by
  rw [logMarker_eq]
  simp [isNewlineChar]

theorem quote_notMem_logPath {dir : JString} (h : quote ∉ normalizedDir dir) :
    quote ∉ logPath dir := by
  unfold logPath logFileName
  rw [String.toList_ofList]
  simpa [quote] using h

/-- The first line: two plain words and a quoted one. -/
theorem lexLine_mkdir {dir : JString} (h : quote ∉ dir) (rest : JString) :
    lexLine none false ("mkdir -p ".toList ++ quote :: (dir ++ quote :: '\n' :: rest))
      = some ([.word "mkdir".toList false, .word "-p".toList false, .word dir true], rest) := by
  have hsplit : "mkdir -p ".toList ++ quote :: (dir ++ quote :: '\n' :: rest)
      = "mkdir".toList ++ ' ' :: ("-p".toList ++ ' ' :: quote :: (dir ++ quote :: '\n' :: rest)) :=
    by simp
  have hmkdir : ∀ c ∈ "mkdir".toList, isPlainChar c = true := by
    simp [isPlainChar, quote, isBlankChar, isSpecial]
  have hp : ∀ c ∈ "-p".toList, isPlainChar c = true := by
    simp [isPlainChar, quote, isBlankChar, isSpecial]
  rw [hsplit, lexLine_word (by simp) hmkdir, lexLine_space, lexLine_word (by simp) hp,
    lexLine_space, lexLine_openQuote]
  show Option.map _ (Option.map _ (lexLine (some ([], true)) true _)) = _
  rw [lexLine_quoted h, lexLine_newline]
  rfl

/-- The script without its first line. -/
def appendScript (path body : JString) : JString :=
  "cat >> ".toList ++ quote :: (path ++ quote :: (" <<".toList ++ quote :: (logMarker ++
    quote :: '\n' :: body)))

/-- The second: a plain word, and the two redirections with a quoted word each. -/
theorem lexLine_cat {path : JString} (h : quote ∉ path) (rest : JString) :
    lexLine none false (appendScript path rest)
      = some ([.word "cat".toList false, .append, .word path true, .hereDoc,
          .word logMarker true], rest) := by
  have hsplit : ∀ l : JString, "cat >> ".toList ++ l
      = "cat".toList ++ ' ' :: '>' :: '>' :: ' ' :: l := by simp
  have hdoc : ∀ l : JString, " <<".toList ++ l = ' ' :: '<' :: '<' :: l := by simp
  have hcat : ∀ c ∈ "cat".toList, isPlainChar c = true := by
    simp [isPlainChar, quote, isBlankChar, isSpecial]
  unfold appendScript
  rw [hsplit, hdoc, lexLine_word (by simp) hcat, lexLine_space, lexLine_append, lexLine_space,
    lexLine_openQuote]
  show Option.map _ (Option.map _ (Option.map _ (lexLine (some ([], true)) true _))) = _
  rw [lexLine_quoted h, lexLine_space, lexLine_hereDoc (by simp [quote]), lexLine_openQuote]
  show Option.map _ (Option.map _ (Option.map _ (Option.map _ (Option.map _
    (lexLine (some ([], true)) true _))))) = _
  rw [lexLine_quoted quote_notMem_logMarker, lexLine_newline]
  rfl

theorem nextCommand_mkdir {dir : JString} (h : quote ∉ dir) (rest : JString) :
    nextCommand ("mkdir -p ".toList ++ quote :: (dir ++ quote :: '\n' :: rest))
      = some (mkdirCommand dir, rest) := by
  unfold nextCommand
  rw [lexLine_mkdir h]
  rfl

theorem nextCommand_cat {path : JString} (h : quote ∉ path) (rest : JString) :
    nextCommand (appendScript path rest)
      = (readHereDoc logMarker [] rest).map fun r => (appendCommand path r.1, r.2) := by
  unfold nextCommand
  rw [lexLine_cat h]
  show Option.map _ (readHereDocs [logMarker] rest) = _
  rw [readHereDocs]
  cases readHereDoc logMarker [] rest with
  | none => rfl
  | some r => rfl

theorem nextCommand_exit : nextCommand ("exit".toList ++ ['\n']) = some (exitCommand, []) := by
  refine nextCommand_word (by simp) ?_ (by decide) []
  simp [isPlainChar, quote, isBlankChar, isSpecial]

theorem suScript_eq (dir path line : JString) :
    suScript dir path line = "mkdir -p ".toList ++ quote :: (dir ++ quote :: '\n' ::
      appendScript path (line ++ (logMarker ++ '\n' :: "exit\n".toList))) := rfl

theorem run_suScript {dir : JString} (h : quote ∉ dir) (path line : JString) :
    run (suScript dir path line)
      = (mkdirCommand dir ::
          (run (appendScript path (line ++ (logMarker ++ '\n' :: "exit\n".toList)))).1,
        (run (appendScript path (line ++ (logMarker ++ '\n' :: "exit\n".toList)))).2) := by
  rw [suScript_eq]
  refine run_command (by simp) (nextCommand_mkdir h _) ?_ ?_
  · simp [mkdirCommand]
  · simp [mkdirCommand]

theorem appendScript_ne_nil (path body : JString) : appendScript path body ≠ [] :=
  List.append_ne_nil_of_right_ne_nil _ (List.cons_ne_nil _ _)

theorem run_appendScript {path body line rest : JString} (h : quote ∉ path)
    (hdoc : readHereDoc logMarker [] body = some (line, rest)) :
    run (appendScript path body) = (appendCommand path line :: (run rest).1, (run rest).2) := by
  have hnext : nextCommand (appendScript path body) = some (appendCommand path line, rest) := by
    rw [nextCommand_cat h, hdoc, Option.map_some]
  refine run_command (appendScript_ne_nil path body) hnext ?_ ?_
  · simp [appendCommand]
  · simp [appendCommand]

theorem run_appendScript_none {path body : JString} (h : quote ∉ path)
    (hdoc : readHereDoc logMarker [] body = none) :
    run (appendScript path body) = ([], .other) := by
  refine run_none (appendScript_ne_nil path body) ?_
  rw [nextCommand_cat h, hdoc, Option.map_none]

theorem run_exitLine : run "exit\n".toList = ([exitCommand], .exited) :=
  run_exit (by simp) nextCommand_exit rfl

/-! ## When it does -/

theorem notMem_normalizedDir {c : Char} {dir path : JString}
    (hnames : NamesDir path dir) (h : c ∉ path) : c ∉ normalizedDir dir := by
  obtain ⟨-, rfl | rfl⟩ := hnames
  · unfold normalizedDir
    split
    · exact fun hmem => h (List.dropLast_subset _ hmem)
    · exact h
  · simpa [normalizedDir] using h

theorem namesDir_normalizedDir {dir : JString} (hne : normalizedDir dir ≠ []) :
    NamesDir (normalizedDir dir) dir := by
  refine ⟨hne, ?_⟩
  unfold normalizedDir
  split
  · rename_i hlast
    exact Or.inr (List.dropLast_append_getLast? '/' hlast)
  · exact Or.inl rfl

theorem nul_mem_logScript {dir ts tag message : JString} :
    Char.ofNat 0 ∈ logScript dir ts tag message
      ↔ Char.ofNat 0 ∈ normalizedDir dir ∨ Char.ofNat 0 ∈ logText ts tag message := by
  unfold logScript suScript logPath logFileName
  rw [logMarker_eq]
  simp [quote]

/-- The directory, the text and the rest of the script that runs if the text has no marker. -/
theorem runScript_logScript {dir ts tag message : JString} (hquote : quote ∉ normalizedDir dir)
    (hnul : Char.ofNat 0 ∉ logScript dir ts tag message) :
    runScript (logScript dir ts tag message) =
      (mkdirCommand (normalizedDir dir) ::
        (run (appendScript (logPath dir) (logText ts tag message ++ '\n' ::
          (logMarker ++ '\n' :: "exit\n".toList)))).1,
        (run (appendScript (logPath dir) (logText ts tag message ++ '\n' ::
          (logMarker ++ '\n' :: "exit\n".toList)))).2) := by
  rw [runScript_of_notMem hnul, logScript, run_suScript hquote, List.append_assoc,
    List.singleton_append]

/-- What has to be so for the script to do it, part by part. -/
theorem WritesLine.safe {dir ts tag message : JString}
    (h : WritesLine dir (logText ts tag message) (runScript (logScript dir ts tag message))) :
    quote ∉ normalizedDir dir ∧ Char.ofNat 0 ∉ logScript dir ts tag message ∧
      normalizedDir dir ≠ [] ∧ IsOperand (normalizedDir dir) ∧
      logMarker ∉ (logText ts tag message).splitOnP isNewlineChar := by
  obtain ⟨path, hnames, hoperand, hrun⟩ := h
  have hnul : Char.ofNat 0 ∉ logScript dir ts tag message := by
    intro hmem
    rw [runScript, if_pos hmem] at hrun
    cases hrun
  have hquote : quote ∉ normalizedDir dir := by
    apply notMem_normalizedDir hnames
    rw [runScript_of_notMem hnul] at hrun
    have hmkdir : mkdirCommand path ∈ (run (logScript dir ts tag message)).1 := by
      rw [hrun]
      exact List.mem_cons_self
    exact run_noQuote hmkdir (by simp [mkdirCommand])
  rw [runScript_logScript hquote hnul] at hrun
  obtain ⟨hcommands, hending⟩ := Prod.mk.inj hrun
  obtain ⟨hmkdir, happend⟩ := List.cons.inj hcommands
  obtain rfl : normalizedDir dir = path := by simpa [mkdirCommand] using hmkdir
  refine ⟨hquote, hnul, hnames.1, hoperand, ?_⟩
  cases hdoc : readHereDoc logMarker [] (logText ts tag message ++ '\n' ::
      (logMarker ++ '\n' :: "exit\n".toList)) with
  | none =>
    rw [run_appendScript_none (quote_notMem_logPath hquote) hdoc] at happend
    cases happend
  | some r =>
    obtain ⟨line, rest⟩ := r
    rw [run_appendScript (quote_notMem_logPath hquote) hdoc] at happend
    obtain ⟨hline, -⟩ := List.cons.inj happend
    obtain rfl : line = logText ts tag message ++ ['\n'] := by
      simpa [appendCommand] using congrArg Command.input hline
    exact readHereDoc_sound hdoc

/-- **The lines that are written and nothing else.** The script that is piped to the root shell
    makes the directory, appends the line and exits exactly if the directory stays inside its
    quotes and is an operand, no line of the text is the marker, and neither has a NUL. -/
theorem writesLine_iff (dir ts tag message : JString) :
    WritesLine dir (logText ts tag message) (runScript (logScript dir ts tag message)) ↔
      quote ∉ normalizedDir dir ∧ normalizedDir dir ≠ [] ∧ IsOperand (normalizedDir dir) ∧
      logMarker ∉ (logText ts tag message).splitOnP isNewlineChar ∧
      Char.ofNat 0 ∉ normalizedDir dir ∧ Char.ofNat 0 ∉ logText ts tag message := by
  constructor
  · intro h
    obtain ⟨hquote, hnul, hne, hoperand, hmarker⟩ := h.safe
    rw [nul_mem_logScript, not_or] at hnul
    exact ⟨hquote, hne, hoperand, hmarker, hnul⟩
  · intro ⟨hquote, hne, hoperand, hmarker, hnulDir, hnulText⟩
    have hnul : Char.ofNat 0 ∉ logScript dir ts tag message := by
      rw [nul_mem_logScript, not_or]
      exact ⟨hnulDir, hnulText⟩
    refine ⟨normalizedDir dir, namesDir_normalizedDir hne, hoperand, ?_⟩
    rw [runScript_logScript hquote hnul, run_appendScript (quote_notMem_logPath hquote)
      (readHereDoc_complete logMarker_noNewline hmarker _), run_exitLine]
    rfl

/-- A message with a marker on a line of its own and a word behind it. -/
def markerMessage (before word : JString) : JString :=
  before ++ '\n' :: (logMarker ++ '\n' :: word)

theorem not_writesLine_markerMessage (dir ts tag before word : JString) :
    ¬ WritesLine dir (logText ts tag (markerMessage before word))
      (runScript (logScript dir ts tag (markerMessage before word))) := by
  intro h
  apply h.safe.2.2.2.2
  rw [markerMessage, logText_append, List.splitOnP_append_cons _ _ rfl,
    List.splitOnP_append_cons_of_forall_mem logMarker_noNewline _ rfl]
  simp

/-- **What stands behind a marker is run by root.** The line of a message that follows it is the
    next command of the script. -/
theorem mem_runScript_markerMessage {dir ts tag before word : JString}
    (hquote : quote ∉ normalizedDir dir)
    (hnul : Char.ofNat 0 ∉ logScript dir ts tag (markerMessage before word))
    (hbefore : logMarker ∉ (logText ts tag before).splitOnP isNewlineChar) (hne : word ≠ [])
    (hplain : ∀ c ∈ word, isPlainChar c = true) (hreserved : reserved.contains word = false)
    (hexit : word ≠ "exit".toList) :
    ⟨[word], [], []⟩ ∈ (runScript (logScript dir ts tag (markerMessage before word))).1 := by
  have hnext := nextCommand_word hne hplain hreserved (logMarker ++ '\n' :: "exit\n".toList)
  have hscript : word ++ '\n' :: (logMarker ++ '\n' :: "exit\n".toList) ≠ [] :=
    List.append_ne_nil_of_left_ne_nil hne _
  rw [runScript_logScript hquote hnul, markerMessage, logText_append]
  simp only [List.append_assoc, List.cons_append]
  rw [run_appendScript (quote_notMem_logPath hquote)
    (readHereDoc_complete logMarker_noNewline hbefore _),
    run_command hscript hnext (by simpa using hexit) (by simp)]
  simp

/-- `ExecReceiver` logs the output of a command as it is. -/
theorem writesLine_execOutput :
    ¬ WritesLine "/data/log".toList
        (logText "12:00".toList "Exec".toList (markerMessage "output=".toList "id".toList))
        (runScript (logScript "/data/log".toList "12:00".toList "Exec".toList
          (markerMessage "output=".toList "id".toList))) ∧
      ⟨["id".toList], [], []⟩ ∈ (runScript (logScript "/data/log".toList "12:00".toList
        "Exec".toList (markerMessage "output=".toList "id".toList))).1 := by
  have hdir : normalizedDir "/data/log".toList = "/data/log".toList := by
    simp [normalizedDir]
  refine ⟨not_writesLine_markerMessage _ _ _ _ _, mem_runScript_markerMessage ?_ ?_ ?_ ?_ ?_ ?_ ?_⟩
  · rw [hdir]
    simp [quote]
  · rw [nul_mem_logScript, hdir, markerMessage, logMarker_eq]
    simp [logText]
  · rw [List.splitOnP_eq_singleton (by simp [logText, isNewlineChar]), logMarker_eq]
    simp [logText]
  · simp
  · simp [isPlainChar, quote, isBlankChar, isSpecial]
  · decide
  · simp

end Sshd4a
