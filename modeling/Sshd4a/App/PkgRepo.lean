import Sshd4a.App.Pkg
import Sshd4a.Lib.Lines

/-!
# Editing the list of repositories (`assets/pkg`, `RootProvisioner.java`)

`pkg repo add` is `grep -qxF "$2" "$REPOS_FILE" || echo "$2" >> "$REPOS_FILE"`, and `pkg repo
remove` writes what `grep -vxF "$2"` lets through into a new file and moves that into place. As
operations on a list of lines they add and remove an element, and that is how `Pkg.repoAdd` and
`Pkg.repoRemove` have them, up to a last line that is not ended. Here is what they are on the text of
the file, which the user may have edited.

Three things come between. `>>` goes on with a last line that is not ended. Neither command puts
`--` in front of the argument, so a word like `-v` is an option of `grep`, and the path of the list
becomes the pattern. And `echo` is free to expand a backslash.

What the tools then do is different from device to device, and so is what `grep` does with a file
that has a NUL in it. It is left open: a `Tools` says what they do there. `setOperations_iff` is
about all of them, so that its converse says in these cases only that nothing can be relied on.
-/

namespace Sshd4a.Pkg

open Text

/-! ## The commands -/

/-- The lines of `pkg-repos.list`, which may not be there. -/
def fileLines (file : Option (List Char)) : List Line := textLines '\n' (file.getD [])

def backslash : Char := Char.ofNat 0x5C

def isBinary (file : Option (List Char)) : Bool := (file.getD []).contains nul

/-- An argument of `pkg repo`. It is the part of a command line, so that it has no NUL. -/
structure RepoArg where
  text : Line
  nonempty : text ≠ []
  newline_free : '\n' ∉ text
  nul_free : nul ∉ text

/-- What `echo` and `grep` do where it depends on the device. -/
structure Tools where
  /-- `echo` of an option or a word with a backslash. -/
  oddEcho : Line → List Char
  /-- Whether `grep -qxF` with an option for a pattern, or on a binary file, finds something. -/
  oddGrepQuiet : Line → Option (List Char) → Bool
  /-- What `grep -vxF` then prints. -/
  oddGrepOthers : Line → Option (List Char) → List Char

/-- `echo "$2"`. -/
def Tools.echo (tools : Tools) (u : Line) : List Char :=
  if isOption u || u.contains backslash then tools.oddEcho u else u ++ ['\n']

/-- `grep -qxF "$2" "$REPOS_FILE" 2>/dev/null`. -/
def Tools.grepQuiet (tools : Tools) (u : Line) (file : Option (List Char)) : Bool :=
  if isOption u || isBinary file then tools.oddGrepQuiet u file else (fileLines file).contains u

/-- The output of `grep -vxF "$2" "$REPOS_FILE"`, which ends every line it prints. -/
def Tools.grepOthers (tools : Tools) (u : Line) (file : Option (List Char)) : List Char :=
  if isOption u || isBinary file then tools.oddGrepOthers u file
  else unlines '\n' ((fileLines file).filter (· ≠ u))

/-- `pkg repo add`; without an argument it prints the usage. -/
def Tools.cmdRepoAdd (tools : Tools) (file : Option (List Char)) (u : Line) :
    Option (List Char) :=
  if u = [] then file
  else if tools.grepQuiet u file then file
  else some (file.getD [] ++ tools.echo u)

/-- `pkg repo remove`: the output of `grep` is moved to the place of the list. -/
def Tools.cmdRepoRemove (tools : Tools) (file : Option (List Char)) (u : Line) :
    Option (List Char) :=
  if u = [] then file else some (tools.grepOthers u file)

/-- The commands are set operations on the lines of the list. -/
structure SetOperations (tools : Tools) (file : Option (List Char)) (u : Line) : Prop where
  added : fileLines (tools.cmdRepoAdd file u) =
    if u ∈ fileLines file then fileLines file else fileLines file ++ [u]
  addedTwice : fileLines (tools.cmdRepoAdd (tools.cmdRepoAdd file u) u) =
    fileLines (tools.cmdRepoAdd file u)
  removed : fileLines (tools.cmdRepoRemove file u) = (fileLines file).filter (· ≠ u)
  restored : u ∉ fileLines file →
    fileLines (tools.cmdRepoRemove (tools.cmdRepoAdd file u) u) = fileLines file

/-! ## On a text file and with an argument that is no option -/

section
variable {tools : Tools} {file : Option (List Char)} {u : Line}

theorem cmdRepoRemove_eq (hu : u ≠ []) (hoption : isOption u = false)
    (hbinary : isBinary file = false) :
    tools.cmdRepoRemove file u = some (unlines '\n' ((fileLines file).filter (· ≠ u))) := by
  rw [Tools.cmdRepoRemove, if_neg hu, Tools.grepOthers, hoption, hbinary]
  rfl

theorem cmdRepoRemove_lines (hu : u ≠ []) (hoption : isOption u = false)
    (hbinary : isBinary file = false) :
    fileLines (tools.cmdRepoRemove file u) = (fileLines file).filter (· ≠ u) := by
  rw [cmdRepoRemove_eq hu hoption hbinary]
  refine textLines_unlines ?_
  intro l hl
  exact notMem_of_mem_textLines (List.mem_of_mem_filter hl)

theorem cmdRepoAdd_listed (hoption : isOption u = false) (hbinary : isBinary file = false)
    (hlisted : u ∈ fileLines file) : tools.cmdRepoAdd file u = file := by
  have hgrep : tools.grepQuiet u file = true := by
    rw [Tools.grepQuiet, hoption, hbinary]
    exact List.contains_iff_mem.mpr hlisted
  rw [Tools.cmdRepoAdd, hgrep, if_pos rfl, ite_self]

theorem cmdRepoAdd_new (hu : u ≠ []) (hoption : isOption u = false)
    (hbinary : isBinary file = false) (hnew : u ∉ fileLines file) :
    tools.cmdRepoAdd file u = some (file.getD [] ++ tools.echo u) := by
  have hgrep : tools.grepQuiet u file = false := by
    rw [Tools.grepQuiet, hoption, hbinary]
    simpa using hnew
  rw [Tools.cmdRepoAdd, if_neg hu, hgrep, if_neg Bool.false_ne_true]

theorem echo_plain (hoption : isOption u = false) (hslash : backslash ∉ u) :
    tools.echo u = u ++ ['\n'] := by
  have hcontains : u.contains backslash = false := by simpa using hslash
  rw [Tools.echo, hoption, hcontains]
  rfl

/-- Behind an ended text the new line is the last one. -/
theorem cmdRepoAdd_appended (tools : Tools) (arg : RepoArg) (hoption : isOption arg.text = false)
    (hbinary : isBinary file = false) (hnew : arg.text ∉ fileLines file)
    (hslash : backslash ∉ arg.text) (hended : Terminated '\n' (file.getD [])) :
    fileLines (tools.cmdRepoAdd file arg.text) = fileLines file ++ [arg.text] ∧
      isBinary (tools.cmdRepoAdd file arg.text) = false := by
  rw [cmdRepoAdd_new arg.nonempty hoption hbinary hnew, echo_plain hoption hslash]
  constructor
  · rw [fileLines, Option.getD_some, textLines_append hended,
      textLines_append_cons arg.newline_free, textLines_nil]
    rfl
  · have hfile : nul ∉ file.getD [] := by simpa [isBinary] using hbinary
    have hnewline : nul ∉ ['\n'] := by decide
    simp only [isBinary, Option.getD_some, List.contains_eq_mem, List.mem_append, hfile,
      arg.nul_free, hnewline, or_self, decide_false]

/-- Behind any other it is not. -/
theorem cmdRepoAdd_merged (arg : RepoArg) (hoption : isOption arg.text = false)
    (hbinary : isBinary file = false) (hnew : arg.text ∉ fileLines file)
    (hslash : backslash ∉ arg.text) (hopen : ¬ Terminated '\n' (file.getD [])) :
    (fileLines (tools.cmdRepoAdd file arg.text)).length = (fileLines file).length := by
  rw [cmdRepoAdd_new arg.nonempty hoption hbinary hnew, echo_plain hoption hslash]
  exact length_textLines_append hopen arg.newline_free

theorem setOperations (arg : RepoArg) (hoption : isOption arg.text = false)
    (hbinary : isBinary file = false)
    (h : arg.text ∈ fileLines file ∨ (backslash ∉ arg.text ∧ Terminated '\n' (file.getD []))) :
    SetOperations tools file arg.text := by
  by_cases hlisted : arg.text ∈ fileLines file
  · have hadd : tools.cmdRepoAdd file arg.text = file := cmdRepoAdd_listed hoption hbinary hlisted
    refine ⟨?_, ?_, cmdRepoRemove_lines arg.nonempty hoption hbinary, ?_⟩
    · rw [hadd, if_pos hlisted]
    · rw [hadd, hadd]
    · intro hnew
      exact absurd hlisted hnew
  · obtain ⟨hslash, hended⟩ := h.resolve_left hlisted
    obtain ⟨hlines, hbinary'⟩ :=
      cmdRepoAdd_appended tools arg hoption hbinary hlisted hslash hended
    have hmem : arg.text ∈ fileLines (tools.cmdRepoAdd file arg.text) := by
      rw [hlines]
      exact List.mem_append_right _ (List.mem_singleton.mpr rfl)
    refine ⟨?_, ?_, cmdRepoRemove_lines arg.nonempty hoption hbinary, ?_⟩
    · rw [hlines, if_neg hlisted]
    · rw [cmdRepoAdd_listed hoption hbinary' hmem]
    · intro _
      rw [cmdRepoRemove_lines arg.nonempty hoption hbinary', hlines, List.filter_append]
      have hrest : (fileLines file).filter (· ≠ arg.text) = fileLines file := by
        rw [List.filter_eq_self]
        intro l hl
        simp only [ne_eq, decide_not, Bool.not_eq_true', decide_eq_false_iff_not]
        intro heq
        exact hlisted (heq ▸ hl)
      rw [hrest]
      simp

/-! ## Where it depends on the device -/

/-- Tools that lose what they are not sure of; where nothing is to be kept, `grep` prints a line of
    its standard input. No device need have them: what is done here is implementation-defined, and
    they stand for the worst that it allows. -/
def lossyTools (kept : List Line) : Tools where
  oddEcho := fun _ => []
  oddGrepQuiet := fun _ _ => false
  oddGrepOthers := fun _ _ => if kept = [] then ['x', '\n'] else []

theorem not_setOperations_odd (hu : u ≠ []) (hodd : (isOption u || isBinary file) = true) :
    ¬ SetOperations (lossyTools ((fileLines file).filter (· ≠ u))) file u := by
  intro h
  have hremoved := h.removed
  rw [Tools.cmdRepoRemove, if_neg hu, Tools.grepOthers, if_pos hodd] at hremoved
  by_cases hkept : (fileLines file).filter (· ≠ u) = []
  · rw [hkept] at hremoved
    cases hremoved
  · simp only [lossyTools, if_neg hkept] at hremoved
    exact hkept hremoved.symm

theorem not_setOperations_backslash (hu : u ≠ []) (hoption : isOption u = false)
    (hbinary : isBinary file = false) (hnew : u ∉ fileLines file) (hslash : backslash ∈ u)
    (kept : List Line) : ¬ SetOperations (lossyTools kept) file u := by
  intro h
  have hadded := h.added
  have hecho : (lossyTools kept).echo u = [] := by
    rw [Tools.echo, List.contains_iff_mem.mpr hslash, Bool.or_true]
    rfl
  rw [cmdRepoAdd_new hu hoption hbinary hnew, hecho, List.append_nil, if_neg hnew] at hadded
  have hlen := congrArg List.length hadded
  rw [List.length_append, List.length_singleton] at hlen
  exact absurd hlen (Nat.ne_of_lt (Nat.lt_succ_self _))

theorem not_setOperations_open (arg : RepoArg) (hoption : isOption arg.text = false)
    (hbinary : isBinary file = false) (hnew : arg.text ∉ fileLines file)
    (hslash : backslash ∉ arg.text) (hopen : ¬ Terminated '\n' (file.getD [])) :
    ¬ SetOperations tools file arg.text := by
  intro h
  have hlen := congrArg List.length h.added
  rw [cmdRepoAdd_merged arg hoption hbinary hnew hslash hopen, if_neg hnew, List.length_append,
    List.length_singleton] at hlen
  exact absurd hlen (Nat.ne_of_lt (Nat.lt_succ_self _))

end

/-- The file is the text of the list. -/
structure Holds (file : Option (List Char)) (s : State) : Prop where
  content : file.getD [] = unlines '\n' s.repos ++ s.rest
  ended : ∀ l ∈ s.repos, '\n' ∉ l
  rest : '\n' ∉ s.rest
  text : isBinary file = false

/-- What a command does to the file of the list. -/
def Tools.fileStep (tools : Tools) (file : Option (List Char)) : Command → Option (List Char)
  | .repoAdd url => tools.cmdRepoAdd file url.text
  | .repoRemove url => tools.cmdRepoRemove file url.text
  | .update _ => file

/-- `provisionIfNeeded`: a list that is not there gets one line. -/
def provisionRepos (defaultPkgRepo : Url) : Option (List Char) → Option (List Char)
  | none => some (defaultPkgRepo.text ++ ['\n'])
  | some content => some content

/-- A URL has nothing that the tools could take for something else. -/
def Url.repoArg (url : Url) : RepoArg where
  text := url.text
  nonempty := url.isUrl.1
  newline_free := by
    intro hmem
    exact absurd (url.isUrl.2.2 _ hmem).1 (by decide)
  nul_free := by
    intro hmem
    exact absurd (url.isUrl.2.2 _ hmem).1 (by decide)

theorem Url.isOption_text (url : Url) : isOption url.text = false := by
  have hdash := url.isUrl.2.1
  unfold isOption
  split
  · rename_i heq
    rw [heq] at hdash
    exact absurd rfl hdash
  · rfl

theorem Url.backslash_notMem (url : Url) : backslash ∉ url.text := by
  intro hmem
  exact (url.isUrl.2.2 _ hmem).2.2 rfl

theorem isBinary_unlines {ls : List Line} (h : ∀ l ∈ ls, nul ∉ l) :
    isBinary (some (unlines '\n' ls)) = false := by
  have hnewline : nul ≠ '\n' := by decide
  have hmem : nul ∉ unlines '\n' ls := by
    intro hmem
    obtain ⟨l, hl, hnul⟩ := List.mem_flatMap.mp hmem
    rcases List.mem_append.mp hnul with hnul | hnul
    · exact h l hl hnul
    · exact hnewline (List.mem_singleton.mp hnul)
  simpa [isBinary] using hmem

section
variable {tools : Tools} {file : Option (List Char)} {s s' : State} {d : Device}

theorem Holds.lines (h : Holds file s) : fileLines file = s.lines := by
  rw [fileLines, h.content, textLines_unlines_append h.ended, State.lines]
  split <;> rename_i hrest
  · rw [hrest, textLines_nil, List.append_nil]
  · rw [textLines_of_notMem h.rest hrest]

theorem Holds.nul_free (h : Holds file s) : nul ∉ unlines '\n' s.repos ++ s.rest := by
  rw [← h.content]
  simpa [isBinary] using h.text

theorem Holds.nul_notMem (h : Holds file s) {l : Line} (hl : l ∈ s.lines) : nul ∉ l := by
  intro hnul
  refine h.nul_free ?_
  rcases mem_lines.mp hl with hl | ⟨-, rfl⟩
  · exact List.mem_append_left _ (List.mem_flatMap.mpr ⟨l, hl, List.mem_append_left _ hnul⟩)
  · exact List.mem_append_right _ hnul

theorem Holds.newline_notMem (h : Holds file s) {l : Line} (hl : l ∈ s.lines) :
    '\n' ∉ l := by
  rcases mem_lines.mp hl with hl | ⟨-, rfl⟩
  · exact h.ended l hl
  · exact h.rest

/-- Every text is the text of a list. -/
theorem exists_holds (htext : isBinary file = false) :
    ∃ repos rest, Holds file (State.initial repos rest) := by
  obtain ⟨repos, rest, hcontent, hended, hrest⟩ := exists_unlines_append '\n' (file.getD [])
  exact ⟨repos, rest, hcontent, hended, hrest, htext⟩

theorem Holds.repoAdd (h : Holds file s) (url : Url) :
    Holds (tools.cmdRepoAdd file url.text) (Pkg.repoAdd s url.text) := by
  unfold Pkg.repoAdd
  by_cases hlisted : url.text ∈ fileLines file
  · rw [cmdRepoAdd_listed url.isOption_text h.text hlisted,
      if_pos (List.contains_iff_mem.mpr (h.lines ▸ hlisted))]
    exact h
  · have hcontains : s.lines.contains url.text = false := by
      rw [← h.lines]
      simpa using hlisted
    have hcontent : unlines '\n' s.repos ++ s.rest ++ (url.text ++ ['\n'])
        = unlines '\n' (s.repos ++ [s.rest ++ url.text]) := by
      simp [unlines, List.flatMap_append]
    rw [hcontains, if_neg Bool.false_ne_true,
      cmdRepoAdd_new url.isUrl.1 url.isOption_text h.text hlisted,
      echo_plain url.isOption_text url.backslash_notMem, h.content, hcontent]
    have hline : ∀ l ∈ s.repos ++ [s.rest ++ url.text], '\n' ∉ l ∧ nul ∉ l := by
      intro l hl
      rcases List.mem_append.mp hl with hl | hl
      · exact ⟨h.ended l hl, h.nul_notMem (mem_lines.mpr (Or.inl hl))⟩
      · rw [List.mem_singleton.mp hl, List.mem_append, List.mem_append, not_or, not_or]
        exact ⟨⟨h.rest, url.repoArg.newline_free⟩,
          fun hnul => h.nul_free (List.mem_append_right _ hnul), url.repoArg.nul_free⟩
    refine ⟨?_, fun l hl => (hline l hl).1, List.not_mem_nil,
      isBinary_unlines fun l hl => (hline l hl).2⟩
    rw [Option.getD_some, List.append_nil]

theorem Holds.repoRemove (h : Holds file s) (url : Url) :
    Holds (tools.cmdRepoRemove file url.text) (Pkg.repoRemove s url.text) := by
  rw [cmdRepoRemove_eq url.isUrl.1 url.isOption_text h.text, h.lines]
  refine ⟨?_, ?_, List.not_mem_nil, ?_⟩
  · rw [Option.getD_some]
    exact (List.append_nil _).symm
  · intro l hl
    exact h.newline_notMem (List.mem_of_mem_filter hl)
  · refine isBinary_unlines ?_
    intro l hl
    exact h.nul_notMem (List.mem_of_mem_filter hl)

theorem Holds.step (h : Holds file s) {c : Command} (hs : d.step s c = some s') :
    Holds (tools.fileStep file c) s' := by
  rcases step_cases hs with ⟨url, rfl, rfl⟩ | ⟨url, rfl, rfl⟩ | ⟨downloads, rfl, -, -, rfl⟩
  · exact h.repoAdd url
  · exact h.repoRemove url
  · refine ⟨?_, ?_, ?_, h.text⟩
    · rw [readRepos_repos, readRepos_rest]
      exact h.content
    · rw [readRepos_repos]
      exact h.ended
    · rw [readRepos_rest]
      exact h.rest

/-- **Along every run the file is the text of the list.** -/
theorem Holds.run (h : Holds file s) {commands : List Command}
    (hrun : Machine.run d.step s commands = some s') :
    Holds (commands.foldl tools.fileStep file) s' := by
  induction commands generalizing file s with
  | nil =>
    rw [Machine.run_nil, Option.some.injEq] at hrun
    exact hrun ▸ h
  | cons c commands ih =>
    cases hs : d.step s c with
    | none => simp [Machine.run, hs] at hrun
    | some t =>
      rw [Machine.run_cons hs] at hrun
      exact ih (h.step hs) hrun

/-- The list of the provisioner is a text of one line. -/
theorem holds_provisionRepos (url : Url) :
    Holds (provisionRepos url none) (State.initial [url.text] []) := by
  have htext : provisionRepos url none = some (unlines '\n' [url.text]) := by
    rw [provisionRepos, unlines_cons, unlines_nil]
  have hfree : ∀ l ∈ [url.text], '\n' ∉ l ∧ nul ∉ l := by
    intro l hl
    rw [List.mem_singleton.mp hl]
    exact ⟨url.repoArg.newline_free, url.repoArg.nul_free⟩
  rw [htext]
  refine ⟨?_, fun l hl => (hfree l hl).1, List.not_mem_nil,
    isBinary_unlines fun l hl => (hfree l hl).2⟩
  rw [Option.getD_some]
  exact (List.append_nil _).symm

end

end Sshd4a.Pkg
