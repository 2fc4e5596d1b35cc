import Mathlib.Logic.Function.Basic
import Sshd4a.Native.SuShell

/-!
# The environment of a command (`sshd4a_set_env`, `sshd4a_append_lib_to_path`)

The user can set environment variables for the commands of a session, as one text with a line
`NAME=value` for each. `sshd4a_set_env` reads it with a pointer that three inner loops move
forward: over a name, over a value if there is a `=`, and over line ends. Then the directory of
the configuration is added, and `sshd4a_append_lib_to_path` puts the directory of the tools at
the end of `PATH`.

The model keeps the loops. `readEnv` is what the text says, line by line, and
`runCommandEnv_eq` says that the two are the same for every text, and what the environment of a
command then is.
-/

namespace Sshd4a

open Text

/-- The variables of a process. -/
abbrev Environ := Bytes → Option Bytes

/-- `setenv(name, value, 1)`. -/
def setenv (name value : Bytes) (env : Environ) : Environ :=
  if name = [] ∨ byte '=' ∈ name then env else Function.update env name (some value)

/-! ## The scanner -/

def isEquals (b : UInt8) : Bool := b == byte '='

def isNameByte (b : UInt8) : Bool := !isEquals b && !isEol b

/-- What one round of the loop of `sshd4a_set_env` finds, and where it leaves `s`. -/
structure EnvPair where
  name : Bytes
  value : Bytes
  rest : Bytes
deriving DecidableEq, Repr

def scanPair (s : Bytes) : EnvPair :=
  let name := s.takeWhile isNameByte
  match s.dropWhile isNameByte with
  | [] => ⟨name, [], []⟩
  | b :: after =>
    if isEquals b then
      ⟨name, after.takeWhile (fun c => !isEol c),
        (after.dropWhile (fun c => !isEol c)).dropWhile isEol⟩
    else ⟨name, [], (b :: after).dropWhile isEol⟩

theorem length_dropWhile_le (p : UInt8 → Bool) (s : Bytes) : (s.dropWhile p).length ≤ s.length :=
  (List.dropWhile_suffix p).length_le

theorem scanPair_rest_lt (b : UInt8) (s : Bytes) :
    (scanPair (b :: s)).rest.length < (b :: s).length := by
  have hend := length_dropWhile_le isEol
  unfold scanPair
  by_cases hname : isNameByte b = true
  · -- the name has at least this byte
    rw [List.dropWhile_cons_of_pos hname]
    have hs := length_dropWhile_le isNameByte s
    cases hdrop : s.dropWhile isNameByte with
    | nil => simp
    | cons c after =>
      rw [hdrop, List.length_cons] at hs
      dsimp only
      split
      · have := hend (after.dropWhile fun c => !isEol c)
        have := length_dropWhile_le (fun c => !isEol c) after
        simp only [List.length_cons]
        omega
      · have := hend (c :: after)
        simp only [List.length_cons] at this ⊢
        omega
  · rw [List.dropWhile_cons_of_neg hname]
    dsimp only
    split
    · have := hend (s.dropWhile fun c => !isEol c)
      have := length_dropWhile_le (fun c => !isEol c) s
      simp only [List.length_cons]
      omega
    · have heol : isEol b = true := by simp_all [isNameByte]
      rw [List.dropWhile_cons_of_pos heol, List.length_cons]
      exact Nat.lt_succ_of_le (hend s)

/-- The loop of `sshd4a_set_env`. -/
def setEnvLoop (s : Bytes) (env : Environ) : Environ :=
  match s with
  | [] => env
  | b :: s =>
    let pair := scanPair (b :: s)
    setEnvLoop pair.rest (if pair.name = [] then env else setenv pair.name pair.value env)
termination_by s.length
decreasing_by exact scanPair_rest_lt b s

/-- `SSHD4A_CONF_DIR`. -/
def sshd4aConfDir : Bytes := ascii "SSHD4A_CONF_DIR"

/-- `sshd4a_set_env`; the list is NULL when there is none. -/
def sshd4aSetEnv (envVarList : Option Bytes) (confPath : Bytes) (env : Environ) : Environ :=
  match envVarList with
  | none => env
  | some s => setenv sshd4aConfDir confPath (setEnvLoop s env)

def pathName : Bytes := ascii "PATH"

/-- `sshd4a_append_lib_to_path`. -/
def sshd4aAppendLibToPath (libPath : Bytes) (env : Environ) : Environ :=
  let oldPath := (env pathName).getD []
  setenv pathName (if oldPath = [] then libPath else oldPath ++ byte ':' :: libPath) env

/-- The environment `run_command` leaves for `execv`. -/
def runCommandEnv (envVarList : Option Bytes) (confPath libPath : Bytes) (env : Environ) :
    Environ :=
  sshd4aAppendLibToPath libPath (sshd4aSetEnv envVarList confPath env)

/-! ## What the text says -/

/-- The text before the first `=` of a line. -/
def lineName (line : Bytes) : Bytes := line.takeWhile (fun b => !isEquals b)

/-- The text behind it. -/
def lineValue (line : Bytes) : Bytes := (line.dropWhile (fun b => !isEquals b)).drop 1

/-- A line is an assignment, unless it has no name. -/
def assignLine (env : Environ) (line : Bytes) : Environ :=
  if lineName line = [] then env else Function.update env (lineName line) (some (lineValue line))

/-- The assignments of a text, in their order: its non-empty lines between CRs and LFs. -/
def readEnv (text : Bytes) (env : Environ) : Environ := (tokens isEol text).foldl assignLine env

/-- `PATH` with a directory at its end. -/
def extendedPath (libPath : Bytes) (path : Option Bytes) : Bytes :=
  match path with
  | none => libPath
  | some [] => libPath
  | some path => path ++ byte ':' :: libPath

/-! ## One line -/

/-- A line has no `=`, or a name in front of the first one. -/
theorem line_cases (line : Bytes) :
    ((∀ b ∈ line, isEquals b = false) ∧ lineName line = line ∧ lineValue line = []) ∨
      ∃ name value, line = name ++ byte '=' :: value ∧ (∀ b ∈ name, isEquals b = false) ∧
        lineName line = name ∧ lineValue line = value := by
  have happ : lineName line ++ line.dropWhile (fun b => !isEquals b) = line :=
    List.takeWhile_append_dropWhile
  have hname : ∀ b ∈ lineName line, isEquals b = false := by
    intro b hb
    simpa using List.mem_takeWhile_imp hb
  cases hdrop : line.dropWhile (fun b => !isEquals b) with
  | nil =>
    rw [hdrop, List.append_nil] at happ
    rw [happ] at hname
    exact Or.inl ⟨hname, happ, by rw [lineValue, hdrop]; rfl⟩
  | cons b value =>
    have hb : b = byte '=' := by simpa [isEquals] using head_of_dropWhile hdrop
    subst hb
    rw [hdrop] at happ
    exact Or.inr ⟨lineName line, value, happ.symm, hname, rfl, by rw [lineValue, hdrop]; rfl⟩

/-- **One round of the loop reads one line.** -/
theorem scanPair_line {line rest : Bytes} (hline : ∀ b ∈ line, isEol b = false)
    (hrest : ∀ b ∈ rest.head?, isEol b = true) :
    scanPair (line ++ rest) = ⟨lineName line, lineValue line, rest.dropWhile isEol⟩ := by
  rcases line_cases line with ⟨hfree, hname, hvalue⟩ | ⟨name, value, rfl, hfree, hname, hvalue⟩
  · have hbyte : ∀ b ∈ line, isNameByte b = true := by
      intro b hb
      simp [isNameByte, hfree b hb, hline b hb]
    have hstop : ∀ b ∈ rest.head?, isNameByte b = false := by
      intro b hb
      simp [isNameByte, hrest b hb]
    obtain ⟨htake, hdrop⟩ := span_stretch hbyte hstop
    unfold scanPair
    rw [htake, hdrop, hname, hvalue]
    cases rest with
    | nil => rfl
    | cons b rest =>
      have hb : isEquals b = false := by
        have := hrest b rfl
        rw [isEquals, beq_eq_false_iff_ne]
        rintro rfl
        exact absurd this (by decide)
      simp only [hb, Bool.false_eq_true, if_false]
  · have hbyte : ∀ b ∈ name, isNameByte b = true := by
      intro b hb
      simp [isNameByte, hfree b hb, hline b (List.mem_append_left _ hb)]
    have hvalueFree : ∀ b ∈ value, (!isEol b) = true := by
      intro b hb
      rw [hline b (List.mem_append_right _ (List.mem_cons_of_mem _ hb))]
      rfl
    obtain ⟨htake, hdrop⟩ := span_stretch (q := isNameByte) (a := name)
      (r := byte '=' :: (value ++ rest)) hbyte (by simp [isNameByte, isEquals])
    obtain ⟨htake', hdrop'⟩ := span_stretch (q := fun c => !isEol c) (a := value)
      (r := rest) hvalueFree (fun b hb => by simp [hrest b hb])
    unfold scanPair
    rw [List.append_assoc, List.cons_append, htake, hdrop, hname, hvalue]
    simp only [isEquals, beq_self_eq_true, if_true, htake', hdrop']

theorem equals_notMem_lineName (line : Bytes) : byte '=' ∉ lineName line := by
  intro h
  have := List.mem_takeWhile_imp h
  simp [isEquals] at this

/-- What a round does to the environment is what its line says. -/
theorem setenv_line (line : Bytes) (env : Environ) :
    (if lineName line = [] then env else setenv (lineName line) (lineValue line) env)
      = assignLine env line := by
  unfold assignLine
  by_cases hname : lineName line = []
  · rw [if_pos hname, if_pos hname]
  · have hok : ¬ (lineName line = [] ∨ byte '=' ∈ lineName line) := by
      rw [not_or]
      exact ⟨hname, equals_notMem_lineName line⟩
    rw [if_neg hname, if_neg hname, setenv, if_neg hok]

/-- The lines of a text are its first stretch without line ends, if that is not empty, and the
    lines behind the line ends that follow. -/
theorem readEnv_line {line rest : Bytes} (hline : ∀ b ∈ line, isEol b = false)
    (hrest : ∀ b ∈ rest.head?, isEol b = true) (env : Environ) :
    readEnv (line ++ rest) env = readEnv (rest.dropWhile isEol) (assignLine env line) := by
  unfold readEnv
  rw [tokens_dropWhile]
  have htokens : tokens isEol (line ++ rest) = tokens isEol line ++ tokens isEol rest := by
    cases rest with
    | nil => rw [List.append_nil, tokens_nil, List.append_nil]
    | cons b rest =>
      rw [tokens_append_cons (hrest b rfl), tokens_cons_sep (hrest b rfl)]
  rw [htokens, List.foldl_append]
  cases line with
  | nil => rfl
  | cons b line => rw [tokens_of_free hline (by simp), List.foldl_cons, List.foldl_nil]

/-- **The loop makes the assignments of the text.** -/
theorem setEnvLoop_eq (s : Bytes) (env : Environ) : setEnvLoop s env = readEnv s env := by
  induction hn : s.length using Nat.strongRecOn generalizing s env with
  | ind n ih =>
    cases s with
    | nil =>
      rw [setEnvLoop]
      rfl
    | cons b s =>
      have happ : (b :: s).takeWhile (fun c => !isEol c) ++ (b :: s).dropWhile (fun c => !isEol c)
          = b :: s := List.takeWhile_append_dropWhile
      have hline : ∀ c ∈ (b :: s).takeWhile (fun c => !isEol c), isEol c = false := by
        intro c hc
        simpa using List.mem_takeWhile_imp hc
      have hrest : ∀ c ∈ ((b :: s).dropWhile (fun c => !isEol c)).head?, isEol c = true := by
        intro c hc
        have := List.head?_dropWhile_not (fun c => !isEol c) (b :: s)
        rw [hc] at this
        simpa using this
      have hlt := scanPair_rest_lt b s
      have hscan := scanPair_line hline hrest
      rw [happ] at hscan
      rw [setEnvLoop, ih _ (hn ▸ hlt) _ _ rfl, hscan, setenv_line, ← readEnv_line hline hrest, happ]

/-! ## The whole environment -/

/-- A text names a variable: some line of it is an assignment to it. -/
def Names (text name : Bytes) : Prop :=
  ∃ line ∈ tokens isEol text, lineName line = name ∧ name ≠ []

theorem readEnv_of_not_names {text name : Bytes} (h : ¬ Names text name) (env : Environ) :
    readEnv text env name = env name := by
  have hlines : ∀ line ∈ tokens isEol text, lineName line ≠ [] → name ≠ lineName line := by
    rintro line hline hne rfl
    exact h ⟨line, hline, rfl, hne⟩
  unfold readEnv
  generalize tokens isEol text = lines at hlines
  induction lines generalizing env with
  | nil => rfl
  | cons line lines ih =>
    rw [List.foldl_cons, ih _ fun l hl => hlines l (List.mem_cons_of_mem _ hl), assignLine]
    split
    · rfl
    · rename_i hname
      rw [Function.update_of_ne (hlines line List.mem_cons_self hname)]

/-- The environment of a command is the one before, with the assignments of the text, then the
    directory of the configuration, then the directory of the tools at the end of `PATH`. -/
structure EnvFollowsText (text confPath libPath : Bytes) (env result : Environ) : Prop where
  eq : result = Function.update
    (Function.update (readEnv text env) sshd4aConfDir (some confPath)) pathName
    (some (extendedPath libPath
      (Function.update (readEnv text env) sshd4aConfDir (some confPath) pathName)))
  unnamed : ∀ name, ¬ Names text name → name ≠ sshd4aConfDir → name ≠ pathName →
    result name = env name

theorem sshd4aAppendLibToPath_eq (libPath : Bytes) (env : Environ) :
    sshd4aAppendLibToPath libPath env
      = Function.update env pathName (some (extendedPath libPath (env pathName))) := by
  have hok : ¬ (pathName = [] ∨ byte '=' ∈ pathName) := by decide
  unfold sshd4aAppendLibToPath
  rw [setenv, if_neg hok]
  cases henv : env pathName with
  | none => rfl
  | some path =>
    cases path with
    | nil => rfl
    | cons b path => rfl

/-- **The text is parsed by its grammar**, for every text, environment and pair of directories. -/
theorem runCommandEnv_eq (text confPath libPath : Bytes) (env : Environ) :
    EnvFollowsText text confPath libPath env
      (runCommandEnv (some text) confPath libPath env) := by
  have hok : ¬ (sshd4aConfDir = [] ∨ byte '=' ∈ sshd4aConfDir) := by decide
  have heq : runCommandEnv (some text) confPath libPath env = Function.update
      (Function.update (readEnv text env) sshd4aConfDir (some confPath)) pathName
      (some (extendedPath libPath
        (Function.update (readEnv text env) sshd4aConfDir (some confPath) pathName))) := by
    rw [runCommandEnv, sshd4aAppendLibToPath_eq, sshd4aSetEnv, setEnvLoop_eq, setenv, if_neg hok]
  refine ⟨heq, ?_⟩
  intro name hname hconf hpath
  rw [heq, Function.update_of_ne hpath, Function.update_of_ne hconf, readEnv_of_not_names hname]

end Sshd4a
