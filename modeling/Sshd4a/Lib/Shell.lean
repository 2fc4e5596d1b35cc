import Sshd4a.Lib.Split

/-!
# A fragment of the POSIX shell

Enough of `sh` to read a script that is made of simple commands: words, single quotes, `>>` and
here-documents with a quoted delimiter. Nothing here expands anything. A character that starts
an expansion, an escape, another operator, a comment, or a first word the grammar or the shell
itself gives a meaning to, is outside: the run ends there with `other`, and whatever the shell
does from then on is not the literal reading of the text. A NUL is outside too, since a script
is a text.

What the fragment is for is the question whether a text that was pasted into a script stays a
text. There are two ways to paste: between single quotes, where only a quote matters
(`lexLine_quoted`, and `run_noQuote` for the converse: no word ever has one), and into a
here-document, where only a line that is the delimiter matters (`readHereDoc_complete`,
`readHereDoc_sound`).
-/

namespace Shell

open Text

/-- The single quote. -/
def quote : Char := Char.ofNat 0x27

def isBlankChar (c : Char) : Bool := c == ' ' || c == '\t'

/-- Characters with a meaning of their own outside quotes, apart from those of the fragment. -/
def isSpecial (c : Char) : Bool :=
  "|&;()$\\\"*?[]#~=%!^".toList.contains c || c == Char.ofNat 0x60 || c == Char.ofNat 0x7B ||
    c == Char.ofNat 0x7D

/-- First words that are not the names of commands to be looked up: the reserved words, and the
    built-ins that act on the shell itself. -/
def reserved : List (List Char) :=
  ["if", "then", "else", "elif", "fi", "do", "done", "case", "esac", "while", "until", "for", "in",
    "function", "select", "time", "break", "continue", "eval", "exec", "export", "readonly",
    "return", "set", "shift", "times", "trap", "unset", ":", ".", "source", "alias",
    "unalias"].map String.toList

inductive Token
  | word (value : List Char) (quoted : Bool)
  | append
  | hereDoc
deriving DecidableEq, Repr

/-- A word that is being read: its value so far, and whether a part of it was quoted. -/
abbrev Pending := Option (List Char × Bool)

def Pending.push (cur : Pending) (c : Char) : Pending :=
  some ((cur.getD ([], false)).1 ++ [c], (cur.getD ([], false)).2)

def Pending.openQuote (cur : Pending) : Pending := some ((cur.getD ([], false)).1, true)

def Pending.flush : Pending → List Token
  | none => []
  | some (value, quoted) => [.word value quoted]

/-- A number right before a redirection would be a file descriptor. -/
def Pending.isNumber : Pending → Bool
  | none => false
  | some (value, quoted) => !quoted && value.all Char.isDigit

/-- The tokens of a line, with the text behind its newline; `none` is a character outside the
    fragment. The flag says if the next character is inside quotes. -/
def lexLine : Pending → Bool → List Char → Option (List Token × List Char)
  | _, true, [] => none
  | cur, true, c :: cs =>
    if c = quote then lexLine cur false cs else lexLine (cur.push c) true cs
  | cur, false, [] => some (cur.flush, [])
  | cur, false, c :: cs =>
    if c = quote then lexLine cur.openQuote true cs
    else if c = '\n' then some (cur.flush, cs)
    else if isBlankChar c then (lexLine none false cs).map fun r => (cur.flush ++ r.1, r.2)
    else if c = '>' ∨ c = '<' then
      match cs with
      | [] => none
      | d :: rest =>
        if d ≠ c ∨ cur.isNumber ∨ (c = '<' ∧ rest.head? = some '-') then none
        else (lexLine none false rest).map fun r =>
          (cur.flush ++ (if c = '>' then .append else .hereDoc) :: r.1, r.2)
    else if isSpecial c then none
    else lexLine (cur.push c) false cs

/-- A simple command: its words, the files it appends to and the delimiters of its
    here-documents. -/
structure Simple where
  words : List (List Char) := []
  appendTo : List (List Char) := []
  delimiters : List (List Char) := []
deriving DecidableEq, Repr

def parse : List Token → Option Simple
  | [] => some {}
  | .word value _ :: ts => (parse ts).map fun s => { s with words := value :: s.words }
  | .append :: .word value _ :: ts =>
    (parse ts).map fun s => { s with appendTo := value :: s.appendTo }
  | .hereDoc :: .word value true :: ts =>
    (parse ts).map fun s => { s with delimiters := value :: s.delimiters }
  | _ => none

/-- The lines up to one that is the delimiter, and what is behind it. The second argument is the
    line that is being read. -/
def readHereDoc (delimiter : List Char) : List Char → List Char → Option (List Char × List Char)
  | _, [] => none
  | line, c :: rest =>
    if c = '\n' then
      if line = delimiter then some ([], rest)
      else (readHereDoc delimiter [] rest).map fun r => (line ++ '\n' :: r.1, r.2)
    else readHereDoc delimiter (line ++ [c]) rest

def readHereDocs : List (List Char) → List Char → Option (List (List Char) × List Char)
  | [], rest => some ([], rest)
  | delimiter :: delimiters, rest =>
    match readHereDoc delimiter [] rest with
    | none => none
    | some (body, rest) => (readHereDocs delimiters rest).map fun r => (body :: r.1, r.2)

/-- A command that was executed, with the texts it was given to read. -/
structure Command where
  words : List (List Char)
  appendTo : List (List Char) := []
  input : List (List Char) := []
deriving DecidableEq, Repr

inductive Ending
  | exited
  | eof
  | other
deriving DecidableEq, Repr

def startsReserved : List Token → Bool
  | .word value false :: _ => reserved.contains value
  | _ => false

/-- The next command of a script and the text behind it. -/
def nextCommand (script : List Char) : Option (Command × List Char) :=
  match lexLine none false script with
  | none => none
  | some (tokens, rest) =>
    if startsReserved tokens then none
    else
      match parse tokens with
      | none => none
      | some simple =>
        (readHereDocs simple.delimiters rest).map fun r =>
          (⟨simple.words, simple.appendTo, r.1⟩, r.2)

/-! ## Progress -/

theorem lexLine_length {cur : Pending} {quoted : Bool} {s rest : List Char} {ts : List Token}
    (h : lexLine cur quoted s = some (ts, rest)) : rest.length ≤ s.length - 1 := by
  fun_induction lexLine cur quoted s generalizing ts with
  | case1 => cases h
  | case2 cur cs ih =>
    have := ih h
    rw [List.length_cons]
    omega
  | case3 cur c cs hc ih =>
    have := ih h
    rw [List.length_cons]
    omega
  | case4 cur =>
    cases h
    exact Nat.zero_le _
  | case5 cur cs ih =>
    have := ih h
    rw [List.length_cons]
    omega
  | case6 cur cs hc =>
    cases h
    rw [List.length_cons]
    omega
  | case7 cur c cs hq hn hb ih =>
    obtain ⟨r, hr, heq⟩ := Option.map_eq_some_iff.mp h
    cases heq
    have := ih hr
    rw [List.length_cons]
    omega
  | case8 => cases h
  | case9 => cases h
  | case10 cur c hq hn hb hop d rest' hd ih =>
    obtain ⟨r, hr, heq⟩ := Option.map_eq_some_iff.mp h
    cases heq
    have := ih hr
    rw [List.length_cons, List.length_cons]
    omega
  | case11 => cases h
  | case12 cur c cs hq hn hb hop hs ih =>
    have := ih h
    rw [List.length_cons]
    omega

theorem readHereDoc_length {delimiter line s body rest : List Char}
    (h : readHereDoc delimiter line s = some (body, rest)) : rest.length ≤ s.length := by
  induction s generalizing line body with
  | nil => cases h
  | cons c s ih =>
    rw [readHereDoc] at h
    rw [List.length_cons]
    split at h
    · split at h
      · cases h
        omega
      · obtain ⟨r, hr, heq⟩ := Option.map_eq_some_iff.mp h
        cases heq
        have := ih hr
        omega
    · have := ih h
      omega

theorem readHereDocs_length {delimiters bodies : List (List Char)} {s rest : List Char}
    (h : readHereDocs delimiters s = some (bodies, rest)) : rest.length ≤ s.length := by
  induction delimiters generalizing s bodies with
  | nil =>
    cases h
    exact le_rfl
  | cons delimiter delimiters ih =>
    rw [readHereDocs] at h
    split at h
    · cases h
    · rename_i body rest' hbody
      obtain ⟨r, hr, heq⟩ := Option.map_eq_some_iff.mp h
      cases heq
      exact (ih hr).trans (readHereDoc_length hbody)

/-- All a command is made of: the tokens of a line and the texts behind it. -/
theorem nextCommand_eq_some {script rest : List Char} {command : Command}
    (h : nextCommand script = some (command, rest)) :
    ∃ tokens afterLine simple bodies, lexLine none false script = some (tokens, afterLine) ∧
      startsReserved tokens = false ∧ parse tokens = some simple ∧
      readHereDocs simple.delimiters afterLine = some (bodies, rest) ∧
      command = ⟨simple.words, simple.appendTo, bodies⟩ := by
  unfold nextCommand at h
  split at h
  · cases h
  · rename_i tokens afterLine hlex
    split at h
    · cases h
    · rename_i hres
      split at h
      · cases h
      · rename_i simple hparse
        obtain ⟨r, hr, heq⟩ := Option.map_eq_some_iff.mp h
        cases heq
        exact ⟨tokens, afterLine, simple, r.1, hlex, by simpa using hres, hparse, hr, rfl⟩

theorem nextCommand_length {c : Char} {cs rest : List Char} {command : Command}
    (h : nextCommand (c :: cs) = some (command, rest)) : rest.length < (c :: cs).length := by
  obtain ⟨tokens, afterLine, simple, bodies, hlex, -, -, hdocs, -⟩ := nextCommand_eq_some h
  have h1 := lexLine_length hlex
  have h2 := readHereDocs_length hdocs
  rw [List.length_cons] at h1 ⊢
  omega

/-! ## Runs -/

/-- The commands that are executed, one after the other, and how the script ends. -/
def run (script : List Char) : List Command × Ending :=
  match script with
  | [] => ([], .eof)
  | c :: cs =>
    match _h : nextCommand (c :: cs) with
    | none => ([], .other)
    | some (command, rest) =>
      if command.words.head? = some "exit".toList then ([command], .exited)
      else if command = ⟨[], [], []⟩ then run rest
      else (command :: (run rest).1, (run rest).2)
termination_by script.length
decreasing_by
  all_goals exact nextCommand_length _h

/-- A script, which has to be a text. -/
def runScript (script : List Char) : List Command × Ending :=
  if Char.ofNat 0 ∈ script then ([], .other) else run script

/-- One command of a run. -/
theorem run_of_nextCommand {script rest : List Char} {command : Command} (hne : script ≠ [])
    (h : nextCommand script = some (command, rest)) :
    run script =
      if command.words.head? = some "exit".toList then ([command], .exited)
      else if command = ⟨[], [], []⟩ then run rest
      else (command :: (run rest).1, (run rest).2) := by
  cases script with
  | nil => exact absurd rfl hne
  | cons c cs =>
    rw [run]
    split
    · rename_i heq
      rw [h] at heq
      cases heq
    · rename_i heq
      rw [h] at heq
      cases heq
      rfl

theorem run_command {script rest : List Char} {command : Command} (hne : script ≠ [])
    (h : nextCommand script = some (command, rest))
    (hexit : command.words.head? ≠ some "exit".toList) (hcommand : command ≠ ⟨[], [], []⟩) :
    run script = (command :: (run rest).1, (run rest).2) := by
  rw [run_of_nextCommand hne h, if_neg hexit, if_neg hcommand]

theorem run_exit {script rest : List Char} {command : Command} (hne : script ≠ [])
    (h : nextCommand script = some (command, rest))
    (hexit : command.words.head? = some "exit".toList) : run script = ([command], .exited) := by
  rw [run_of_nextCommand hne h, if_pos hexit]

theorem run_none {script : List Char} (hne : script ≠ []) (h : nextCommand script = none) :
    run script = ([], .other) := by
  cases script with
  | nil => exact absurd rfl hne
  | cons c cs =>
    rw [run]
    split
    · rfl
    · rename_i heq
      rw [h] at heq
      cases heq

theorem runScript_of_notMem {script : List Char} (h : Char.ofNat 0 ∉ script) :
    runScript script = run script := if_neg h

/-! ## Tokens one by one -/

/-- A character that is itself outside quotes too. -/
def isPlainChar (c : Char) : Bool :=
  !(c == quote || c == '\n' || isBlankChar c || c == '>' || c == '<' || isSpecial c)

theorem lexLine_plainChar (cur : Pending) {c : Char} (hc : isPlainChar c = true)
    (rest : List Char) : lexLine cur false (c :: rest) = lexLine (cur.push c) false rest := by
  simp only [isPlainChar, Bool.not_eq_true', Bool.or_eq_false_iff, beq_eq_false_iff_ne] at hc
  obtain ⟨⟨⟨⟨⟨hq, hn⟩, hb⟩, hg⟩, hl⟩, hs⟩ := hc
  rw [lexLine.eq_def]
  simp only [if_neg hq, if_neg hn, hb, hg, hl, hs, Bool.false_eq_true, or_self, if_false]

theorem lexLine_plain {value word : List Char} {flag : Bool}
    (h : ∀ c ∈ word, isPlainChar c = true) (rest : List Char) :
    lexLine (some (value, flag)) false (word ++ rest)
      = lexLine (some (value ++ word, flag)) false rest := by
  induction word generalizing value with
  | nil => rw [List.nil_append, List.append_nil]
  | cons c word ih =>
    rw [List.cons_append, lexLine_plainChar _ (h c List.mem_cons_self)]
    show lexLine (some (value ++ [c], flag)) false _ = _
    rw [ih fun d hd => h d (List.mem_cons_of_mem _ hd), List.append_assoc, List.singleton_append]

theorem lexLine_word {word : List Char} (hne : word ≠ []) (h : ∀ c ∈ word, isPlainChar c = true)
    (rest : List Char) :
    lexLine none false (word ++ rest) = lexLine (some (word, false)) false rest := by
  cases word with
  | nil => exact absurd rfl hne
  | cons c word =>
    rw [List.cons_append, lexLine_plainChar _ (h c List.mem_cons_self)]
    show lexLine (some ([c], false)) false _ = _
    rw [lexLine_plain fun d hd => h d (List.mem_cons_of_mem _ hd), List.singleton_append]

theorem lexLine_space (cur : Pending) (rest : List Char) :
    lexLine cur false (' ' :: rest)
      = (lexLine none false rest).map fun r => (cur.flush ++ r.1, r.2) := by
  rw [lexLine.eq_def]
  show ite _ _ _ = _
  rw [if_neg (by decide), if_neg (by decide), if_pos (by decide)]

theorem lexLine_newline (cur : Pending) (rest : List Char) :
    lexLine cur false ('\n' :: rest) = some (cur.flush, rest) := by
  rw [lexLine.eq_def]
  show ite _ _ _ = _
  rw [if_neg (by decide), if_pos rfl]

theorem lexLine_openQuote (cur : Pending) (rest : List Char) :
    lexLine cur false (quote :: rest) = lexLine cur.openQuote true rest := by
  rw [lexLine.eq_def]
  show ite _ _ _ = _
  rw [if_pos rfl]

theorem lexLine_append (rest : List Char) :
    lexLine none false ('>' :: '>' :: rest)
      = (lexLine none false rest).map fun r => (.append :: r.1, r.2) := by
  rw [lexLine, if_neg (by decide), if_neg (by decide), if_neg (by decide), if_pos (by decide)]
  rfl

theorem lexLine_hereDoc {rest : List Char} (h : rest.head? ≠ some '-') :
    lexLine none false ('<' :: '<' :: rest)
      = (lexLine none false rest).map fun r => (.hereDoc :: r.1, r.2) := by
  rw [lexLine, if_neg (by decide), if_neg (by decide), if_neg (by decide), if_pos (by decide)]
  simp only [ne_eq, not_true_eq_false, Pending.isNumber, Bool.false_eq_true, h, and_false,
    or_self, if_false]
  rfl

theorem nextCommand_word {word : List Char} (hne : word ≠ [])
    (h : ∀ c ∈ word, isPlainChar c = true) (hreserved : reserved.contains word = false)
    (rest : List Char) : nextCommand (word ++ '\n' :: rest) = some (⟨[word], [], []⟩, rest) := by
  unfold nextCommand
  rw [lexLine_word hne h, lexLine_newline]
  show (if reserved.contains word = true then none else _) = _
  rw [hreserved, if_neg Bool.false_ne_true]
  rfl

/-! ## Quoted text -/

/-- **Between single quotes** every character but the quote is itself. -/
theorem lexLine_quoted {value text : List Char} {flag : Bool} (h : quote ∉ text)
    (rest : List Char) :
    lexLine (some (value, flag)) true (text ++ quote :: rest)
      = lexLine (some (value ++ text, flag)) false rest := by
  induction text generalizing value with
  | nil =>
    rw [List.nil_append, List.append_nil, lexLine, if_pos rfl]
  | cons c text ih =>
    have hc : c ≠ quote := fun heq => h (by rw [heq]; exact List.mem_cons_self)
    rw [List.cons_append, lexLine, if_neg hc]
    show lexLine (some (value ++ [c], flag)) true _ = _
    rw [ih fun hmem => h (List.mem_cons_of_mem _ hmem), List.append_assoc, List.singleton_append]

/-- A pending word without a quote stays one. -/
def Pending.NoQuote (cur : Pending) : Prop := ∀ w ∈ cur, quote ∉ w.1

theorem Pending.NoQuote.push {cur : Pending} (h : cur.NoQuote) {c : Char} (hc : c ≠ quote) :
    (cur.push c).NoQuote := by
  intro w hw
  cases hw
  cases cur with
  | none => simpa using hc.symm
  | some v => simpa [hc.symm] using h v rfl

theorem Pending.NoQuote.openQuote {cur : Pending} (h : cur.NoQuote) : cur.openQuote.NoQuote := by
  intro w hw
  cases hw
  cases cur with
  | none => simp
  | some v => exact h v rfl

theorem Pending.NoQuote.flush {cur : Pending} (h : cur.NoQuote) {value : List Char} {flag : Bool}
    (hmem : .word value flag ∈ cur.flush) : quote ∉ value := by
  cases cur with
  | none => simp [Pending.flush] at hmem
  | some v =>
    obtain ⟨v, f⟩ := v
    simp only [Pending.flush, List.mem_singleton, Token.word.injEq] at hmem
    rw [hmem.1]
    exact h (v, f) rfl

/-- Conversely, no word of a line has a quote in it. -/
theorem lexLine_noQuote {cur : Pending} {quoted : Bool} {s rest : List Char} {ts : List Token}
    (hcur : cur.NoQuote) (h : lexLine cur quoted s = some (ts, rest)) {value : List Char}
    {flag : Bool} (hmem : .word value flag ∈ ts) : quote ∉ value := by
  have hnone : Pending.NoQuote none := by
    intro w hw
    cases hw
  fun_induction lexLine cur quoted s generalizing ts with
  | case1 => cases h
  | case2 cur cs ih => exact ih hcur h hmem
  | case3 cur c cs hc ih => exact ih (hcur.push hc) h hmem
  | case4 cur =>
    cases h
    exact hcur.flush hmem
  | case5 cur cs ih => exact ih hcur.openQuote h hmem
  | case6 cur cs hc =>
    cases h
    exact hcur.flush hmem
  | case7 cur c cs hq hn hb ih =>
    obtain ⟨r, hr, heq⟩ := Option.map_eq_some_iff.mp h
    cases heq
    rcases List.mem_append.mp hmem with hmem | hmem
    · exact hcur.flush hmem
    · exact ih hnone hr hmem
  | case8 => cases h
  | case9 => cases h
  | case10 cur c hq hn hb hop d rest' hd ih =>
    obtain ⟨r, hr, heq⟩ := Option.map_eq_some_iff.mp h
    cases heq
    rcases List.mem_append.mp hmem with hmem | hmem
    · exact hcur.flush hmem
    · rcases List.mem_cons.mp hmem with hmem | hmem
      · split at hmem <;> cases hmem
      · exact ih hnone hr hmem
  | case11 => cases h
  | case12 cur c cs hq hn hb hop hs ih => exact ih (hcur.push hq) h hmem

theorem mem_tokens_of_mem_words {ts : List Token} {simple : Simple} (h : parse ts = some simple)
    {value : List Char} (hmem : value ∈ simple.words) : ∃ flag, .word value flag ∈ ts := by
  fun_induction parse ts generalizing simple with
  | case1 =>
    cases h
    simp at hmem
  | case2 v flag ts ih =>
    obtain ⟨s, hs, rfl⟩ := Option.map_eq_some_iff.mp h
    rcases List.mem_cons.mp hmem with rfl | hmem
    · exact ⟨flag, List.mem_cons_self⟩
    · obtain ⟨f, hf⟩ := ih hs hmem
      exact ⟨f, List.mem_cons_of_mem _ hf⟩
  | case3 v flag ts ih =>
    obtain ⟨s, hs, rfl⟩ := Option.map_eq_some_iff.mp h
    obtain ⟨f, hf⟩ := ih hs hmem
    exact ⟨f, List.mem_cons_of_mem _ (List.mem_cons_of_mem _ hf)⟩
  | case4 v ts ih =>
    obtain ⟨s, hs, rfl⟩ := Option.map_eq_some_iff.mp h
    obtain ⟨f, hf⟩ := ih hs hmem
    exact ⟨f, List.mem_cons_of_mem _ (List.mem_cons_of_mem _ hf)⟩
  | case5 => cases h

theorem nextCommand_noQuote {script rest : List Char} {command : Command}
    (h : nextCommand script = some (command, rest)) {value : List Char}
    (hmem : value ∈ command.words) : quote ∉ value := by
  obtain ⟨tokens, afterLine, simple, bodies, hlex, -, hparse, -, rfl⟩ := nextCommand_eq_some h
  obtain ⟨flag, hword⟩ := mem_tokens_of_mem_words hparse hmem
  refine lexLine_noQuote ?_ hlex hword
  intro w hw
  cases hw

/-- **No word of a command that is executed has a quote in it.** -/
theorem run_noQuote {script : List Char} {command : Command} (hmem : command ∈ (run script).1)
    {value : List Char} (hvalue : value ∈ command.words) : quote ∉ value := by
  fun_induction run script with
  | case1 => simp at hmem
  | case2 => simp at hmem
  | case3 c cs cmd rest hnext hexit =>
    rw [List.mem_singleton.mp hmem] at hvalue
    exact nextCommand_noQuote hnext hvalue
  | case4 c cs rest hnext hexit ih => exact ih hmem
  | case5 c cs cmd rest hnext hexit hcmd ih =>
    rcases List.mem_cons.mp hmem with rfl | hmem
    · exact nextCommand_noQuote hnext hvalue
    · exact ih hmem

/-! ## Here-documents -/

def isNewlineChar (c : Char) : Bool := c == '\n'

theorem readHereDoc_line (delimiter : List Char) {line text : List Char}
    (h : ∀ c ∈ text, isNewlineChar c = false) (rest : List Char) :
    readHereDoc delimiter line (text ++ '\n' :: rest) =
      if line ++ text = delimiter then some ([], rest)
      else (readHereDoc delimiter [] rest).map fun r => (line ++ text ++ '\n' :: r.1, r.2) := by
  induction text generalizing line with
  | nil => rw [List.nil_append, List.append_nil, readHereDoc, if_pos rfl]
  | cons c text ih =>
    have hc : c ≠ '\n' := by
      have := h c List.mem_cons_self
      simpa [isNewlineChar] using this
    rw [List.cons_append, readHereDoc, if_neg hc,
      ih fun d hd => h d (List.mem_cons_of_mem _ hd), List.append_assoc, List.singleton_append]

/-- **A text without a line that is the delimiter** is the body of the document. -/
theorem readHereDoc_complete {delimiter text : List Char}
    (hdelimiter : ∀ c ∈ delimiter, isNewlineChar c = false)
    (h : delimiter ∉ text.splitOnP isNewlineChar) (rest : List Char) :
    readHereDoc delimiter [] (text ++ '\n' :: (delimiter ++ '\n' :: rest))
      = some (text ++ ['\n'], rest) := by
  induction text using splitInduction isNewlineChar with
  | last l hl =>
    rw [List.splitOnP_eq_singleton hl, List.mem_singleton] at h
    rw [readHereDoc_line delimiter hl, List.nil_append, if_neg (Ne.symm h),
      readHereDoc_line delimiter hdelimiter, List.nil_append, if_pos rfl]
    rfl
  | step a x text ha hx ih =>
    obtain rfl : x = '\n' := by simpa [isNewlineChar] using hx
    rw [List.splitOnP_append_cons_of_forall_mem ha _ hx, List.mem_cons, not_or] at h
    rw [List.append_assoc, List.cons_append, readHereDoc_line delimiter ha, List.nil_append,
      if_neg (Ne.symm h.1), ih h.2]
    simp

theorem readHereDoc_of_free (delimiter : List Char) {line text : List Char}
    (h : ∀ c ∈ text, isNewlineChar c = false) : readHereDoc delimiter line text = none := by
  induction text generalizing line with
  | nil => rfl
  | cons c text ih =>
    have hc : c ≠ '\n' := by
      have := h c List.mem_cons_self
      simpa [isNewlineChar] using this
    rw [readHereDoc, if_neg hc]
    exact ih fun d hd => h d (List.mem_cons_of_mem _ hd)

/-- Conversely, the body of a document has no line that is the delimiter. -/
theorem readHereDoc_sound {delimiter s text rest : List Char}
    (h : readHereDoc delimiter [] s = some (text ++ ['\n'], rest)) :
    delimiter ∉ text.splitOnP isNewlineChar := by
  induction s using splitInduction isNewlineChar generalizing text with
  | last l hl =>
    rw [readHereDoc_of_free delimiter hl] at h
    cases h
  | step a x s ha hx ih =>
    obtain rfl : x = '\n' := by simpa [isNewlineChar] using hx
    rw [readHereDoc_line delimiter ha, List.nil_append] at h
    split at h <;> rename_i hline
    · simp at h
    · obtain ⟨r, hr, heq⟩ := Option.map_eq_some_iff.mp h
      obtain ⟨body, rest'⟩ := r
      simp only [Prod.mk.injEq] at heq
      obtain ⟨hbody, rfl⟩ := heq
      rcases List.eq_nil_or_concat body with rfl | ⟨body, c, rfl⟩
      · obtain ⟨rfl, -⟩ := List.append_inj' hbody rfl
        rw [List.splitOnP_eq_singleton ha, List.mem_singleton]
        exact fun heq => hline heq.symm
      · rw [List.concat_eq_append] at hbody hr
        rw [← List.cons_append, ← List.append_assoc] at hbody
        obtain ⟨rfl, hc⟩ := List.append_inj' hbody rfl
        cases hc
        rw [List.splitOnP_append_cons_of_forall_mem ha _ hx, List.mem_cons, not_or]
        exact ⟨fun heq => hline heq.symm, ih hr⟩

end Shell
