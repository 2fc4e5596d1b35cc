import Mathlib.Data.List.DropRight
import Mathlib.Data.List.TakeWhile
import Mathlib.Logic.Function.Basic

/-!
# The option parser of the server (`svr-runopts.c`)

`svr_getopts` walks over `argv` with two nested loops: the outer one over the words, the inner
one over the letters of a word, which may bundle any number of flags and end with one option
that takes an argument. The argument is the rest of the word if there is one, and the next
element of `argv` otherwise. The only test on that next element is that it is not `NULL`; the
caller is to end the array with one, and `past` is what is behind the last element when it does
not.

Numbers are read by `m_str_to_uint`, which is `strtoul` with checks around it. It does not clear
`errno` first, so what an earlier call left there can make it refuse a zero or the largest
`unsigned long`.

Arguments are characters here. The parser compares bytes, but only with ASCII ones, and the
bytes of any other character, U+0000 in Java's encoding included, are over 0x7F.

`words` is the grammar of it, without the effects: which word is a bundle of flags, which takes
an argument and where that is. `loop_outcome` says that the loops do what the words say, one
after the other, and `loop_reads_iff` which elements of the array are read on the way.
-/

namespace Sshd4a

namespace Runopts

/-- An element of `argv`. -/
abbrev Arg := List Char

/-! ## Options -/

/-- The options that take an argument. -/
inductive ArgOption
  | port
  | keyfile
  | bannerfile
  | forcedCommand
  | authorizedKeysDir
  | reexecFd
  | pidfile
  | interface
  | restrictGroup
  | recvWindow
  | keepalive
  | idleTimeout
  | maxDuration
  | maxauthtries
  | algoPrint
deriving DecidableEq, Repr

/-- The ways `svr_getopts` does not return. -/
inductive Exit
  | invalidArgument
  | invalidOption (c : Char)
  | help
  | version
  | missingArgument
  | badPointer
  | badPortArgument
  | nullPort
  | badPort
  | tooManyHostkeys
  | noSuchGroup
  | badMaxauthtries
  | badKeepalive
  | badIdleTimeout
  | badMaxDuration
  | badReexecFd
  | badAuthorizedKeysDir
  | printAlgos
deriving DecidableEq, Repr

inductive OptKind
  | flag
  | takes (o : ArgOption)
  | exits (e : Exit)
deriving DecidableEq, Repr

/-- The `switch`, for the options this build has. -/
def optKind : Char → OptKind
  | 'b' => .takes .bannerfile
  | 'c' => .takes .forcedCommand
  | 'd' => .takes .keyfile
  | 'r' => .takes .keyfile
  | 'D' => .takes .authorizedKeysDir
  | 'R' => .flag
  | 'F' => .flag
  | 'e' => .flag
  | 'j' => .flag
  | 'k' => .flag
  | 'a' => .flag
  | '2' => .takes .reexecFd
  | 'p' => .takes .port
  | 'P' => .takes .pidfile
  | 'l' => .takes .interface
  | 'm' => .flag
  | 'w' => .flag
  | 'G' => .takes .restrictGroup
  | 'W' => .takes .recvWindow
  | 'K' => .takes .keepalive
  | 'I' => .takes .idleTimeout
  | 'M' => .takes .maxDuration
  | 'T' => .takes .maxauthtries
  | 's' => .flag
  | 'g' => .flag
  | 'Q' => .takes .algoPrint
  | 'h' => .exits .help
  | 'u' => .flag
  | 'V' => .exits .version
  | 'z' => .flag
  | c => .exits (.invalidOption c)

/-- A `-p` specification with the address and the port it is split into. -/
structure PortAddress where
  spec : Arg
  address : Arg
  port : Arg
deriving DecidableEq, Repr

/-- What the parser collects. `ports` is what `addportandaddress` registers; `defport` says that
    `DROPBEAR_DEFPORT` stands there instead. -/
structure RunOpts where
  flags : List Char := []
  ports : List PortAddress := []
  defport : Bool := false
  hostkeyFiles : List Arg := []
  arg : ArgOption → Option Arg := fun _ => none

def maxPorts : Nat := 10

def maxHostkeys : Nat := 6

/-- A part of a specification; `none` is `NULL`. -/
def nonempty (part : Arg) : Option Arg := if part = [] then none else some part

/-- `split_address_port`; the outer `none` is `DROPBEAR_FAILURE`. -/
def splitAddressPort : Arg → Option (Option Arg × Option Arg)
  | '[' :: addr =>
    match addr.dropWhile (fun c => c != ']') with
    | [] => none
    | [_] => some (nonempty (addr.takeWhile (fun c => c != ']')), none)
    | _ :: ':' :: port => some (nonempty (addr.takeWhile (fun c => c != ']')), some port)
    | _ :: _ :: _ => none
  | addr =>
    -- `strrchr`: the last colon
    if ':' ∈ addr then
      some (nonempty (addr.rdropWhile (fun c => c != ':')).dropLast,
        some (addr.rtakeWhile (fun c => c != ':')))
    else some (nonempty addr, none)

/-- The checks of `addportandaddress`. -/
def parseSpec (spec : Arg) : Except Exit PortAddress :=
  match splitAddressPort spec with
  | none => .error .badPortArgument
  | some (first, second) =>
    -- a bare port has no address in front of it
    match (match second with | none => first | some port => some port) with
    | none => .error .nullPort
    | some [] => .error .badPort
    | some port =>
      .ok ⟨spec, (match second with | none => [] | some _ => first.getD []), port⟩

def addportandaddress (opts : RunOpts) (spec : Arg) : Except Exit RunOpts :=
  if maxPorts ≤ opts.ports.length then .ok opts
  else
    match parseSpec spec with
    | .error e => .error e
    | .ok added => .ok { opts with ports := opts.ports ++ [added] }

def addhostkey (opts : RunOpts) (keyfile : Arg) : Except Exit RunOpts :=
  if maxHostkeys ≤ opts.hostkeyFiles.length then .error .tooManyHostkeys
  else .ok { opts with hostkeyFiles := opts.hostkeyFiles ++ [keyfile] }

/-- What is done with the argument of an option. -/
def take (opts : RunOpts) (o : ArgOption) (a : Arg) : Except Exit RunOpts :=
  match o with
  | .port => addportandaddress opts a
  | .keyfile => addhostkey opts a
  | o => .ok { opts with arg := Function.update opts.arg o (some a) }

/-! ## The two loops -/

/-- What the inner loop makes of a word. -/
inductive Scan
  | exits (e : Exit)
  | flags (cs : List Char)
  | takes (cs : List Char) (o : ArgOption) (rest : Arg)
deriving DecidableEq, Repr

/-- The inner loop, from its first letter. -/
def scanLetters : List Char → Scan
  | [] => .flags []
  | c :: rest =>
    match optKind c with
    | .exits e => .exits e
    | .takes o => .takes [] o rest
    | .flag =>
      match scanLetters rest with
      | .exits e => .exits e
      | .flags cs => .flags (c :: cs)
      | .takes cs o rest => .takes (c :: cs) o rest

/-- A word, with the test in front of the inner loop. -/
def scan : Arg → Scan
  | '-' :: c :: cs => scanLetters (c :: cs)
  | _ => .exits .invalidArgument

/-- What is at `argv[argc]`: a terminator, a pointer to a string, or nothing that can be
    followed. -/
inductive Past
  | null
  | string (a : Arg)
  | wild

/-- The elements of `argv` that were read, and how the loops ended. -/
structure Parse where
  reads : List Nat
  outcome : Except Exit RunOpts

/-- More reads in front. -/
def Parse.after (reads : List Nat) (p : Parse) : Parse := { p with reads := reads ++ p.reads }

/-- `printhelp` prints `argv[0]`. -/
def Exit.reads : Exit → List Nat
  | .help => [0]
  | .invalidOption _ => [0]
  | _ => []

/-- The outer loop from the element with index `i` on. -/
def loop (past : Past) : Nat → List Arg → RunOpts → Parse
  | _, [], opts => ⟨[], .ok opts⟩
  | i, t :: ts, opts =>
    match scan t with
    | .exits e => ⟨i :: e.reads, .error e⟩
    | .flags cs => (loop past (i + 1) ts { opts with flags := opts.flags ++ cs }).after [i]
    | .takes cs o rest =>
      let opts := { opts with flags := opts.flags ++ cs }
      if rest = [] then
        match ts with
        | a :: ts' =>
          match take opts o a with
          | .error e => ⟨[i, i + 1], .error e⟩
          | .ok opts => (loop past (i + 2) ts' opts).after [i, i + 1]
        | [] =>
          -- `argv[argc]`
          match past with
          | .null => ⟨[i, i + 1], .error .missingArgument⟩
          | .wild => ⟨[i, i + 1], .error .badPointer⟩
          | .string a => ⟨[i, i + 1], take opts o a⟩
      else
        match take opts o rest with
        | .error e => ⟨[i], .error e⟩
        | .ok opts => (loop past (i + 1) ts opts).after [i]

inductive Errno
  | einval
  | erange
  | other
deriving DecidableEq, Repr

/-- `isspace`. -/
def isCSpace (c : Char) : Bool := c == ' ' || ('\t' ≤ c && c ≤ '\r')

/-- `m_str_to_uint`, with `ULONG_MAX` of the platform and the `errno` it finds. -/
def mStrToUint (ulongMax : Nat) (errno : Errno) (str : Arg) : Option UInt32 :=
  let s := str.dropWhile isCSpace
  let digits := if s.head? = some '-' ∨ s.head? = some '+' then s.tail else s
  -- `endp == str || *endp != '\0'`
  if digits = [] ∨ digits.all Char.isDigit = false then none
  else
    let n := Nat.ofDigitChars 10 digits 0
    let l := if ulongMax < n then ulongMax
      else if s.head? = some '-' ∧ n ≠ 0 then ulongMax + 1 - n else n
    let errno := if ulongMax < n then .erange else errno
    if (l = 0 ∧ errno = .einval) ∨ (l = ulongMax ∧ errno = .erange) ∨ 0xFFFFFFFF < l then none
    else some (UInt32.ofNat l)

/-- What the checks after the loops ask of the platform. -/
structure Libc where
  getgrnam : Arg → Bool
  ulongMax : Nat
  /-- `errno` before an argument is read. -/
  errno : Arg → Errno

def Libc.mStrToUint (libc : Libc) (a : Arg) : Option UInt32 :=
  Runopts.mStrToUint libc.ulongMax (libc.errno a) a

/-- The tests on arguments behind the loops, in their order. A receive window that is no number is
    only logged, and `print_algos` does not return. -/
def checks (libc : Libc) : List (ArgOption × (Arg → Bool) × Exit) :=
  [(.restrictGroup, libc.getgrnam, .noSuchGroup),
   (.maxauthtries, fun a => (libc.mStrToUint a).isSome, .badMaxauthtries),
   (.keepalive, fun a => (libc.mStrToUint a).isSome, .badKeepalive),
   (.idleTimeout, fun a => (libc.mStrToUint a).isSome, .badIdleTimeout),
   (.maxDuration, fun a => (libc.mStrToUint a).isSome, .badMaxDuration),
   (.reexecFd, fun a => (libc.mStrToUint a).isSome, .badReexecFd),
   (.authorizedKeysDir, fun a => a != [], .badAuthorizedKeysDir),
   (.algoPrint, fun _ => false, .printAlgos)]

/-- An argument that was given and does not pass its test. -/
def failedCheck (opts : RunOpts) (check : ArgOption × (Arg → Bool) × Exit) : Option Exit :=
  match opts.arg check.1 with
  | some a => if check.2.1 a then none else some check.2.2
  | none => none

/-- The part of `svr_getopts` behind the loops. -/
def checkOpts (libc : Libc) (opts : RunOpts) : Except Exit RunOpts :=
  match (checks libc).findSome? (failedCheck opts) with
  | some e => .error e
  | none => .ok opts

/-- "Set up listening ports": the default one if none was registered. -/
def setUpPorts (opts : RunOpts) : RunOpts := { opts with defport := opts.ports.isEmpty }

/-- `svr_getopts(argc, argv)`: the elements it reads, and how it ends. -/
def svrGetopts (libc : Libc) (past : Past) (argv : List Arg) : Parse where
  reads := (loop past 1 argv.tail {}).reads
  outcome :=
    match (loop past 1 argv.tail {}).outcome with
    | .error e => .error e
    | .ok opts => checkOpts libc (setUpPorts opts)

/-! ## Words -/

/-- One round of the outer loop: a word with its letters, and the argument if it has one. -/
inductive Word
  | exits (e : Exit)
  | flags (t : Arg) (cs : List Char)
  | attached (t : Arg) (cs : List Char) (o : ArgOption) (a : Arg)
  | separate (t : Arg) (cs : List Char) (o : ArgOption) (a : Arg)
  /-- A last word that lacks its argument. -/
  | opened (t : Arg) (cs : List Char) (o : ArgOption)
deriving DecidableEq, Repr

/-- The rounds a list of arguments takes, as far as the first one that exits by its letters. -/
def words : List Arg → List Word
  | [] => []
  | t :: ts =>
    match scan t with
    | .exits e => [.exits e]
    | .flags cs => .flags t cs :: words ts
    | .takes cs o rest =>
      if rest = [] then
        match ts with
        | a :: ts' => .separate t cs o a :: words ts'
        | [] => [.opened t cs o]
      else .attached t cs o rest :: words ts

/-- The arguments a word is made of. -/
def Word.tokens : Word → List Arg
  | .exits _ => []
  | .flags t _ => [t]
  | .attached t _ _ _ => [t]
  | .separate t _ _ a => [t, a]
  | .opened t _ _ => [t]

/-- The effect of a word. -/
def Word.exec (past : Past) (opts : RunOpts) : Word → Except Exit RunOpts
  | .exits e => .error e
  | .flags _ cs => .ok { opts with flags := opts.flags ++ cs }
  | .attached _ cs o a => take { opts with flags := opts.flags ++ cs } o a
  | .separate _ cs o a => take { opts with flags := opts.flags ++ cs } o a
  | .opened _ cs o =>
    match past with
    | .null => .error .missingArgument
    | .wild => .error .badPointer
    | .string a => take { opts with flags := opts.flags ++ cs } o a

/-- The effects of words, up to the first exit. -/
def execWords (past : Past) : RunOpts → List Word → Except Exit RunOpts
  | opts, [] => .ok opts
  | opts, w :: ws =>
    match w.exec past opts with
    | .error e => .error e
    | .ok opts => execWords past opts ws

@[simp] theorem Parse.outcome_after (reads : List Nat) (p : Parse) :
    (p.after reads).outcome = p.outcome := rfl

@[simp] theorem Parse.reads_after (reads : List Nat) (p : Parse) :
    (p.after reads).reads = reads ++ p.reads := rfl

theorem words_exits {t : Arg} {ts : List Arg} {e : Exit} (h : scan t = .exits e) :
    words (t :: ts) = [.exits e] := by
  simp only [words, h]

theorem words_flags {t : Arg} {ts : List Arg} {cs : List Char} (h : scan t = .flags cs) :
    words (t :: ts) = .flags t cs :: words ts := by
  simp only [words, h]

theorem words_separate {t a : Arg} {ts : List Arg} {cs : List Char} {o : ArgOption}
    (h : scan t = .takes cs o []) : words (t :: a :: ts) = .separate t cs o a :: words ts := by
  simp only [words, h, if_true]

theorem words_opened {t : Arg} {cs : List Char} {o : ArgOption} (h : scan t = .takes cs o []) :
    words [t] = [.opened t cs o] := by
  simp only [words, h, if_true]

theorem words_attached {t rest : Arg} {ts : List Arg} {cs : List Char} {o : ArgOption}
    (h : scan t = .takes cs o rest) (hrest : rest ≠ []) :
    words (t :: ts) = .attached t cs o rest :: words ts := by
  simp only [words, h, hrest, if_false]

theorem execWords_cons_ok {past : Past} {opts opts' : RunOpts} {w : Word} {ws : List Word}
    (h : w.exec past opts = .ok opts') :
    execWords past opts (w :: ws) = execWords past opts' ws := by
  simp only [execWords, h]

theorem execWords_cons_error {past : Past} {opts : RunOpts} {w : Word} {ws : List Word} {e : Exit}
    (h : w.exec past opts = .error e) : execWords past opts (w :: ws) = .error e := by
  simp only [execWords, h]

theorem execWords_cons_eq_ok {past : Past} {opts opts' : RunOpts} {w : Word} {ws : List Word}
    (h : execWords past opts (w :: ws) = .ok opts') :
    ∃ opts'', w.exec past opts = .ok opts'' ∧ execWords past opts'' ws = .ok opts' := by
  cases hexec : w.exec past opts with
  | error e =>
    rw [execWords_cons_error hexec] at h
    cases h
  | ok opts'' =>
    rw [execWords_cons_ok hexec] at h
    exact ⟨opts'', rfl, h⟩

/-- **The loops do what the words say**, one after the other. -/
theorem loop_outcome (past : Past) (i : Nat) (ts : List Arg) (opts : RunOpts) :
    (loop past i ts opts).outcome = execWords past opts (words ts) := by
  fun_induction loop past i ts opts with
  | case1 => rfl
  | case2 i t ts opts e hscan =>
    rw [words_exits hscan]
    rfl
  | case3 i t ts opts cs hscan ih =>
    rw [words_flags hscan, Parse.outcome_after, ih]
    rfl
  | case4 i t opts cs o opts' a ts e htake hscan =>
    have hexec : (Word.separate t cs o a).exec past opts = .error e := htake
    rw [words_separate hscan, execWords_cons_error hexec]
  | case5 i t opts cs o opts' a ts opts'' htake hscan ih =>
    have hexec : (Word.separate t cs o a).exec past opts = .ok opts'' := htake
    rw [words_separate hscan, Parse.outcome_after, ih, execWords_cons_ok hexec]
  | case6 i t opts cs o hpast hscan =>
    rw [words_opened hscan, hpast]
    rfl
  | case7 i t opts cs o hpast hscan =>
    rw [words_opened hscan, hpast]
    rfl
  | case8 i t opts cs o opts' a hpast hscan =>
    rw [words_opened hscan, hpast]
    show take opts' o a = _
    cases htake : take opts' o a with
    | error e =>
      have hexec : (Word.opened t cs o).exec (.string a) opts = .error e := htake
      rw [execWords_cons_error hexec]
    | ok opts'' =>
      have hexec : (Word.opened t cs o).exec (.string a) opts = .ok opts'' := htake
      rw [execWords_cons_ok hexec, execWords]
  | case9 i t ts opts cs o rest hscan opts' hrest e htake =>
    have hexec : (Word.attached t cs o rest).exec past opts = .error e := htake
    rw [words_attached hscan hrest, execWords_cons_error hexec]
  | case10 i t ts opts cs o rest hscan opts' hrest opts'' htake ih =>
    have hexec : (Word.attached t cs o rest).exec past opts = .ok opts'' := htake
    rw [words_attached hscan hrest, Parse.outcome_after, ih, execWords_cons_ok hexec]

/-! ## What is read -/

/-- The words reach the end of the list with an option that lacks its argument, and nothing
    before it exits. -/
def ReachesOpened (past : Past) (opts : RunOpts) (ws : List Word) : Prop :=
  ∃ before t cs o opts', ws = before ++ [.opened t cs o] ∧
    execWords past opts before = .ok opts'

theorem reachesOpened_cons {past : Past} {opts opts' : RunOpts} {w : Word} {ws : List Word}
    (hw : ∀ t cs o, w ≠ .opened t cs o) (h : w.exec past opts = .ok opts') :
    ReachesOpened past opts (w :: ws) ↔ ReachesOpened past opts' ws := by
  constructor
  · rintro ⟨before, t, cs, o, opts'', hws, hok⟩
    cases before with
    | nil => exact absurd (List.cons.inj hws).1 (hw t cs o)
    | cons v before =>
      obtain ⟨rfl, rfl⟩ := List.cons.inj hws
      rw [execWords_cons_ok h] at hok
      exact ⟨before, t, cs, o, opts'', rfl, hok⟩
  · rintro ⟨before, t, cs, o, opts'', rfl, hok⟩
    exact ⟨w :: before, t, cs, o, opts'', rfl, by rwa [execWords_cons_ok h]⟩

theorem not_reachesOpened_cons {past : Past} {opts : RunOpts} {w : Word} {ws : List Word}
    {e : Exit} (hw : ∀ t cs o, w ≠ .opened t cs o) (h : w.exec past opts = .error e) :
    ¬ ReachesOpened past opts (w :: ws) := by
  rintro ⟨before, t, cs, o, opts'', hws, hok⟩
  cases before with
  | nil => exact absurd (List.cons.inj hws).1 (hw t cs o)
  | cons v before =>
    obtain ⟨rfl, rfl⟩ := List.cons.inj hws
    rw [execWords_cons_error h] at hok
    cases hok

theorem reachesOpened_opened (past : Past) (opts : RunOpts) (t : Arg) (cs : List Char)
    (o : ArgOption) : ReachesOpened past opts [.opened t cs o] :=
  ⟨[], t, cs, o, opts, rfl, rfl⟩

theorem forall_reads_append {front reads : List Nat} {bound bound' : Nat} (hbound : bound' = bound)
    (hfront : ∀ k ∈ front, k < bound) :
    (∀ k ∈ front ++ reads, k < bound) ↔ ∀ k ∈ reads, k < bound' := by
  rw [List.forall_mem_append, hbound]
  exact and_iff_right hfront

/-- **The loops stay inside the array exactly when** they do not reach an option at its end that
    lacks its argument. -/
theorem loop_reads_iff (past : Past) (i : Nat) (ts : List Arg) (opts : RunOpts) :
    (∀ k ∈ (loop past i ts opts).reads, k < i + ts.length) ↔
      ¬ ReachesOpened past opts (words ts) := by
  fun_induction loop past i ts opts with
  | case1 i opts =>
    refine iff_of_true (by simp) ?_
    rintro ⟨before, t, cs, o, -, hws, -⟩
    simp [words] at hws
  | case2 i t ts opts e hscan =>
    rw [words_exits hscan]
    refine iff_of_true ?_ (not_reachesOpened_cons (by simp) (e := e) rfl)
    intro k hk
    rw [List.length_cons]
    rcases List.mem_cons.mp hk with rfl | hk
    · omega
    · have : k = 0 := by cases e <;> simp [Exit.reads] at hk <;> exact hk
      omega
  | case3 i t ts opts cs hscan ih =>
    rw [words_flags hscan, reachesOpened_cons (by simp) rfl, ← ih, Parse.reads_after,
      List.length_cons]
    exact forall_reads_append (by omega) (by simp)
  | case4 i t opts cs o opts' a ts e htake hscan =>
    rw [words_separate hscan]
    refine iff_of_true ?_ (not_reachesOpened_cons (by simp) (e := e) htake)
    simp only [List.length_cons, List.mem_cons, List.not_mem_nil, or_false]
    omega
  | case5 i t opts cs o opts' a ts opts'' htake hscan ih =>
    have hexec : (Word.separate t cs o a).exec past opts = .ok opts'' := htake
    rw [words_separate hscan, reachesOpened_cons (by simp) hexec, ← ih, Parse.reads_after,
      List.length_cons, List.length_cons]
    refine forall_reads_append (by omega) ?_
    simp only [List.mem_cons, List.not_mem_nil, or_false]
    omega
  | case6 i t opts cs o hpast hscan =>
    rw [words_opened hscan]
    exact iff_of_false (by simp) (not_not.mpr (reachesOpened_opened past opts t cs o))
  | case7 i t opts cs o hpast hscan =>
    rw [words_opened hscan]
    exact iff_of_false (by simp) (not_not.mpr (reachesOpened_opened past opts t cs o))
  | case8 i t opts cs o opts' a hpast hscan =>
    rw [words_opened hscan]
    exact iff_of_false (by simp) (not_not.mpr (reachesOpened_opened past opts t cs o))
  | case9 i t ts opts cs o rest hscan opts' hrest e htake =>
    rw [words_attached hscan hrest]
    refine iff_of_true ?_ (not_reachesOpened_cons (by simp) (e := e) htake)
    simp
  | case10 i t ts opts cs o rest hscan opts' hrest opts'' htake ih =>
    have hexec : (Word.attached t cs o rest).exec past opts = .ok opts'' := htake
    rw [words_attached hscan hrest, reachesOpened_cons (by simp) hexec, ← ih, Parse.reads_after,
      List.length_cons]
    exact forall_reads_append (by omega) (by simp)

/-! ## What is accepted -/

/-- The argument a word gives to an option. -/
def Word.argOf (past : Past) (o : ArgOption) : Word → Option Arg
  | .attached _ _ o' a => if o' = o then some a else none
  | .separate _ _ o' a => if o' = o then some a else none
  | .opened _ _ o' =>
    match past with
    | .string a => if o' = o then some a else none
    | _ => none
  | _ => none

/-- The specifications of the port options, in their order. -/
def portSpecs (past : Past) (ws : List Word) : List Arg := ws.filterMap (Word.argOf past .port)

/-- The files of the host key options. -/
def keyfiles (past : Past) (ws : List Word) : List Arg := ws.filterMap (Word.argOf past .keyfile)

/-- `addportandaddress` has nothing to say against a specification. -/
def ValidSpec (spec : Arg) : Prop := ∃ added, parseSpec spec = .ok added

theorem parseSpec_spec {spec : Arg} {added : PortAddress} (h : parseSpec spec = .ok added) :
    added.spec = spec := by
  unfold parseSpec at h
  split at h
  · cases h
  · split at h <;> cases h
    rfl

/-- Everything the argument of an option can do. -/
theorem take_cases (opts : RunOpts) (o : ArgOption) (a : Arg) :
    (o = .port ∧ maxPorts ≤ opts.ports.length ∧ take opts o a = .ok opts) ∨
    (o = .port ∧ opts.ports.length < maxPorts ∧
      ((∃ added, parseSpec a = .ok added ∧
        take opts o a = .ok { opts with ports := opts.ports ++ [added] }) ∨
      (¬ ValidSpec a ∧ ∃ e, take opts o a = .error e))) ∨
    (o = .keyfile ∧ opts.hostkeyFiles.length < maxHostkeys ∧
      take opts o a = .ok { opts with hostkeyFiles := opts.hostkeyFiles ++ [a] }) ∨
    (o = .keyfile ∧ maxHostkeys ≤ opts.hostkeyFiles.length ∧
      take opts o a = .error .tooManyHostkeys) ∨
    (o ≠ .port ∧ o ≠ .keyfile ∧
      take opts o a = .ok { opts with arg := Function.update opts.arg o (some a) }) := by
  by_cases hport : o = .port
  · subst hport
    by_cases hfull : maxPorts ≤ opts.ports.length
    · exact Or.inl ⟨rfl, hfull, by simp [take, addportandaddress, hfull]⟩
    · refine Or.inr (Or.inl ⟨rfl, Nat.lt_of_not_le hfull, ?_⟩)
      cases hspec : parseSpec a with
      | ok added => exact Or.inl ⟨added, rfl, by simp [take, addportandaddress, hfull, hspec]⟩
      | error e =>
        refine Or.inr ⟨?_, e, by simp [take, addportandaddress, hfull, hspec]⟩
        rintro ⟨added, hok⟩
        cases hspec.symm.trans hok
  · by_cases hkey : o = .keyfile
    · subst hkey
      by_cases hfull : maxHostkeys ≤ opts.hostkeyFiles.length
      · exact Or.inr (Or.inr (Or.inr (Or.inl ⟨rfl, hfull, by simp [take, addhostkey, hfull]⟩)))
      · exact Or.inr (Or.inr (Or.inl ⟨rfl, Nat.lt_of_not_le hfull,
          by simp [take, addhostkey, hfull]⟩))
    · exact Or.inr (Or.inr (Or.inr (Or.inr ⟨hport, hkey, by
        cases o <;> first | exact absurd rfl hport | exact absurd rfl hkey | rfl⟩)))

/-- Nothing in the words makes the loops exit: every letter is an option, the specifications that
    are looked at are valid, and there are not too many host keys. -/
structure Accepted (past : Past) (opts : RunOpts) (ws : List Word) : Prop where
  letters : ∀ e, .exits e ∉ ws
  specs : ∀ spec ∈ (portSpecs past ws).take (maxPorts - opts.ports.length), ValidSpec spec
  keys : opts.hostkeyFiles.length + (keyfiles past ws).length ≤ maxHostkeys

theorem accepted_iff_and {past : Past} {opts : RunOpts} {ws : List Word} :
    Accepted past opts ws ↔ (∀ e, .exits e ∉ ws) ∧
      (∀ spec ∈ (portSpecs past ws).take (maxPorts - opts.ports.length), ValidSpec spec) ∧
      opts.hostkeyFiles.length + (keyfiles past ws).length ≤ maxHostkeys :=
  ⟨fun h => ⟨h.letters, h.specs, h.keys⟩, fun h => ⟨h.1, h.2.1, h.2.2⟩⟩

/-- The bounds of the two arrays. -/
structure RunOpts.Bounded (opts : RunOpts) : Prop where
  ports : opts.ports.length ≤ maxPorts
  hostkeyFiles : opts.hostkeyFiles.length ≤ maxHostkeys

/-- A word that hands an argument to an option. -/
structure Word.Gives (past : Past) (opts : RunOpts) (w : Word) (opts' : RunOpts) (o : ArgOption)
    (a : Arg) : Prop where
  exec : w.exec past opts = take opts' o a
  argOf : ∀ o', w.argOf past o' = if o = o' then some a else none
  ports : opts'.ports = opts.ports
  hostkeyFiles : opts'.hostkeyFiles = opts.hostkeyFiles
  letters : ∀ e, w ≠ .exits e

theorem gives_attached (past : Past) (opts : RunOpts) (t : Arg) (cs : List Char) (o : ArgOption)
    (a : Arg) : (Word.attached t cs o a).Gives past opts
      { opts with flags := opts.flags ++ cs } o a :=
  ⟨rfl, fun _ => rfl, rfl, rfl, by simp⟩

theorem gives_separate (past : Past) (opts : RunOpts) (t : Arg) (cs : List Char) (o : ArgOption)
    (a : Arg) : (Word.separate t cs o a).Gives past opts
      { opts with flags := opts.flags ++ cs } o a :=
  ⟨rfl, fun _ => rfl, rfl, rfl, by simp⟩

theorem gives_opened (opts : RunOpts) (t : Arg) (cs : List Char) (o : ArgOption)
    (a : Arg) : (Word.opened t cs o).Gives (.string a) opts
      { opts with flags := opts.flags ++ cs } o a :=
  ⟨rfl, fun _ => rfl, rfl, rfl, by simp⟩

section
variable {past : Past} {opts opts' : RunOpts} {w : Word} {ws : List Word} {o : ArgOption} {a : Arg}

theorem Word.Gives.portSpecs (h : w.Gives past opts opts' o a) :
    portSpecs past (w :: ws) = (if o = .port then [a] else []) ++ portSpecs past ws := by
  unfold Runopts.portSpecs
  rw [List.filterMap_cons, h.argOf]
  split <;> split <;> simp_all

theorem Word.Gives.keyfiles (h : w.Gives past opts opts' o a) :
    keyfiles past (w :: ws) = (if o = .keyfile then [a] else []) ++ keyfiles past ws := by
  unfold Runopts.keyfiles
  rw [List.filterMap_cons, h.argOf]
  split <;> split <;> simp_all

/-- A word with an argument is accepted or not, and then so are the words behind it. -/
theorem Word.Gives.accepted_iff (h : w.Gives past opts opts' o a) (hb : opts.Bounded)
    (ih : ∀ opts : RunOpts, opts.Bounded →
      ((∃ opts', execWords past opts ws = .ok opts') ↔ Accepted past opts ws)) :
    (∃ opts', execWords past opts (w :: ws) = .ok opts') ↔ Accepted past opts (w :: ws) := by
  have hletters : (∀ e, Word.exits e ∉ w :: ws) ↔ ∀ e, Word.exits e ∉ ws := by
    simp [fun e => (h.letters e).symm]
  rw [accepted_iff_and, hletters, h.portSpecs, h.keyfiles]
  have hports := h.ports
  have hkeys := h.hostkeyFiles
  obtain ⟨rfl, hfull, htake⟩ | ⟨rfl, hroom, ⟨added, hspec, htake⟩ | ⟨hbad, e, htake⟩⟩ |
    ⟨rfl, hroom, htake⟩ | ⟨rfl, hfull, htake⟩ | ⟨hport, hkey, htake⟩ := take_cases opts' o a <;>
    have hexec := h.exec.trans htake
  · -- the array is full: the specification is not looked at
    rw [execWords_cons_ok hexec, ih opts' ⟨hports ▸ hb.ports, hkeys ▸ hb.hostkeyFiles⟩,
      accepted_iff_and, hports, hkeys]
    rw [hports] at hfull
    simp [Nat.sub_eq_zero_of_le hfull]
  · rw [execWords_cons_ok hexec, ih, accepted_iff_and]
    · simp only [hports, hkeys, List.length_append, List.length_singleton, if_true, reduceCtorEq,
        if_false, List.nil_append, List.singleton_append]
      rw [hports] at hroom
      rw [show maxPorts - opts.ports.length = maxPorts - (opts.ports.length + 1) + 1 by omega,
        List.take_succ_cons]
      simp only [List.forall_mem_cons, show ValidSpec a from ⟨added, hspec⟩, true_and]
    · refine ⟨?_, hkeys ▸ hb.hostkeyFiles⟩
      rw [List.length_append, List.length_singleton]
      exact hroom
  · rw [execWords_cons_error hexec]
    refine iff_of_false (by simp) fun hacc => hbad (hacc.2.1 a ?_)
    rw [hports] at hroom
    rw [show maxPorts - opts.ports.length = maxPorts - (opts.ports.length + 1) + 1 by omega]
    simp
  · rw [execWords_cons_ok hexec, ih, accepted_iff_and]
    · simp only [hports, hkeys, List.length_append, List.length_cons, List.length_nil,
        Nat.zero_add, Nat.add_assoc, if_true, reduceCtorEq, if_false, List.nil_append]
    · refine ⟨hports ▸ hb.ports, ?_⟩
      rw [List.length_append, List.length_singleton]
      exact hroom
  · rw [execWords_cons_error hexec]
    refine iff_of_false (by simp) fun hacc => ?_
    have hle := hacc.2.2
    rw [hkeys] at hfull
    simp only [if_true, List.length_append, List.length_singleton] at hle
    omega
  · rw [execWords_cons_ok hexec, ih _ ⟨hports ▸ hb.ports, hkeys ▸ hb.hostkeyFiles⟩, accepted_iff_and]
    simp only [hports, hkeys, hport, hkey, if_false, List.nil_append]

end

/-- **The words run to their end exactly when** they are accepted. -/
theorem execWords_ok_iff {past : Past} {opts : RunOpts} {ws : List Word} (hb : opts.Bounded)
    (hopened : ∀ t cs o, .opened t cs o ∉ ws) :
    (∃ opts', execWords past opts ws = .ok opts') ↔ Accepted past opts ws := by
  induction ws generalizing opts with
  | nil => exact iff_of_true ⟨opts, rfl⟩ ⟨by simp, by simp [portSpecs], hb.hostkeyFiles⟩
  | cons w ws ih =>
    have ih' : ∀ opts : RunOpts, opts.Bounded →
        ((∃ opts', execWords past opts ws = .ok opts') ↔ Accepted past opts ws) :=
      fun opts hb => ih hb fun t cs o h => hopened t cs o (List.mem_cons_of_mem _ h)
    cases w with
    | exits e =>
      exact iff_of_false (by simp [execWords, Word.exec]) fun h => h.letters e (by simp)
    | flags t cs =>
      rw [execWords_cons_ok rfl,
        ih' { opts with flags := opts.flags ++ cs } ⟨hb.ports, hb.hostkeyFiles⟩,
        accepted_iff_and, accepted_iff_and,
        show portSpecs past (.flags t cs :: ws) = portSpecs past ws from rfl,
        show keyfiles past (.flags t cs :: ws) = keyfiles past ws from rfl]
      simp
    | attached t cs o a => exact (gives_attached past opts t cs o a).accepted_iff hb ih'
    | separate t cs o a => exact (gives_separate past opts t cs o a).accepted_iff hb ih'
    | opened t cs o => exact absurd (by simp) (hopened t cs o)

theorem opened_notMem_dropLast (ts : List Arg) (t : Arg) (cs : List Char) (o : ArgOption) :
    .opened t cs o ∉ (words ts).dropLast := by
  -- a word in front of others is none that lacks its argument
  have hcons : ∀ (w : Word) (ws : List Word), w ≠ .opened t cs o →
      .opened t cs o ∉ ws.dropLast → .opened t cs o ∉ (w :: ws).dropLast := by
    intro w ws hw hws hmem
    cases ws with
    | nil => simp at hmem
    | cons v ws =>
      rw [List.dropLast_cons_cons] at hmem
      rcases List.mem_cons.mp hmem with heq | hmem
      · exact hw heq.symm
      · exact hws hmem
  fun_induction words ts with
  | case1 => simp
  | case2 => simp
  | case3 t ts cs hscan ih => exact hcons _ _ (by simp) ih
  | case4 t cs o a ts hscan ih => exact hcons _ _ (by simp) ih
  | case5 => simp
  | case6 t ts cs o rest hscan hrest ih => exact hcons _ _ (by simp) ih

/-- The arguments end in an option that lacks its argument, and everything before it is
    accepted. -/
def EndsOpened (opts : RunOpts) (ts : List Arg) : Prop :=
  ∃ before t cs o, words ts = before ++ [.opened t cs o] ∧ Accepted .null opts before

/-- Words that have their arguments do not depend on what is behind the array. -/
theorem filterMap_argOf_congr {ws : List Word} (h : ∀ t cs o, .opened t cs o ∉ ws)
    (past past' : Past) (o : ArgOption) :
    ws.filterMap (Word.argOf past o) = ws.filterMap (Word.argOf past' o) := by
  apply List.filterMap_congr
  intro w hw
  cases w with
  | opened t cs o' => exact absurd hw (h t cs o')
  | exits e => rfl
  | flags t cs => rfl
  | attached t cs o' a => rfl
  | separate t cs o' a => rfl

theorem reachesOpened_iff {past : Past} {opts : RunOpts} (hb : opts.Bounded) (ts : List Arg) :
    ReachesOpened past opts (words ts) ↔ EndsOpened opts ts := by
  have hbefore : ∀ before t cs o, words ts = before ++ [.opened t cs o] →
      ((∃ opts', execWords past opts before = .ok opts') ↔ Accepted .null opts before) := by
    intro before t cs o hws
    have hopened : ∀ t cs o, .opened t cs o ∉ before := by
      intro t' cs' o'
      have hnot := opened_notMem_dropLast ts t' cs' o'
      rwa [hws, List.dropLast_concat] at hnot
    rw [execWords_ok_iff hb hopened, accepted_iff_and, accepted_iff_and]
    unfold portSpecs keyfiles
    rw [filterMap_argOf_congr hopened past .null, filterMap_argOf_congr hopened past .null]
  constructor
  · rintro ⟨before, t, cs, o, opts', hws, hok⟩
    exact ⟨before, t, cs, o, hws, (hbefore before t cs o hws).mp ⟨opts', hok⟩⟩
  · rintro ⟨before, t, cs, o, hws, hacc⟩
    obtain ⟨opts', hok⟩ := (hbefore before t cs o hws).mpr hacc
    exact ⟨before, t, cs, o, opts', hws, hok⟩

/-! ## The ports that are registered -/

/-- Cutting a list off before something is put behind it or after makes no difference. -/
theorem take_take_append {α : Type*} (n : Nat) (l r : List α) :
    (l.take n ++ r).take n = (l ++ r).take n := by
  by_cases h : l.length ≤ n
  · rw [List.take_of_length_le h]
  · have hlen : (l.take n).length = n := by
      rw [List.length_take]
      omega
    rw [List.take_append_of_le_length (by omega), List.take_append_of_le_length (by omega),
      List.take_take, Nat.min_self]

theorem Word.Gives.registered {past : Past} {opts opts' opts'' : RunOpts} {w : Word}
    {o : ArgOption} {a : Arg} (h : w.Gives past opts opts' o a) (hb : opts.ports.length ≤ maxPorts)
    (hexec : w.exec past opts = .ok opts'') :
    opts''.ports.map PortAddress.spec
        = (opts.ports.map PortAddress.spec ++ if o = .port then [a] else []).take maxPorts ∧
      opts''.ports.length ≤ maxPorts := by
  have hports := h.ports
  rw [h.exec] at hexec
  obtain ⟨rfl, hfull, htake⟩ | ⟨rfl, hroom, ⟨added, hspec, htake⟩ | ⟨hbad, e, htake⟩⟩ |
    ⟨rfl, hroom, htake⟩ | ⟨rfl, hfull, htake⟩ | ⟨hport, hkey, htake⟩ := take_cases opts' o a <;>
    rw [htake] at hexec <;> cases hexec
  · rw [hports] at hfull ⊢
    refine ⟨?_, hb⟩
    rw [List.take_append_of_le_length (by simpa using hfull),
      List.take_of_length_le (by simpa using hb)]
  · rw [hports] at hroom ⊢
    rw [List.map_append, List.map_singleton, parseSpec_spec hspec, if_pos rfl]
    refine ⟨(List.take_of_length_le ?_).symm, ?_⟩
    · rw [List.length_append, List.length_map, List.length_singleton]
      exact hroom
    · rw [List.length_append, List.length_singleton]
      exact hroom
  · rw [hports, if_neg (by simp), List.append_nil, List.take_of_length_le (by simpa using hb)]
    exact ⟨rfl, hb⟩
  · rw [hports, if_neg hport, List.append_nil, List.take_of_length_le (by simpa using hb)]
    exact ⟨rfl, hb⟩

/-- **What is registered**: the specifications of the port options in their order, up to the
    tenth. -/
theorem execWords_registered {past : Past} {opts opts' : RunOpts} {ws : List Word}
    (hb : opts.ports.length ≤ maxPorts) (hok : execWords past opts ws = .ok opts') :
    opts'.ports.map PortAddress.spec
      = (opts.ports.map PortAddress.spec ++ portSpecs past ws).take maxPorts := by
  induction ws generalizing opts with
  | nil =>
    cases hok
    rw [show portSpecs past [] = [] from rfl, List.append_nil,
      List.take_of_length_le (by simpa using hb)]
  | cons w ws ih =>
    obtain ⟨opts'', hexec, hok⟩ := execWords_cons_eq_ok hok
    -- a word with an argument adds it, if it is for a port; the others add nothing
    have hgives : ∀ {opts₁ : RunOpts} {o : ArgOption} {a : Arg}, w.Gives past opts opts₁ o a →
        opts'.ports.map PortAddress.spec
          = (opts.ports.map PortAddress.spec ++ portSpecs past (w :: ws)).take maxPorts := by
      intro opts₁ o a h
      obtain ⟨hreg, hb'⟩ := h.registered hb hexec
      rw [ih hb' hok, hreg, take_take_append, h.portSpecs, List.append_assoc]
    cases w with
    | exits e => cases hexec
    | flags t cs =>
      cases hexec
      exact @ih { opts with flags := opts.flags ++ cs } hb hok
    | attached t cs o a => exact hgives (gives_attached past opts t cs o a)
    | separate t cs o a => exact hgives (gives_separate past opts t cs o a)
    | opened t cs o =>
      cases past with
      | null => cases hexec
      | wild => cases hexec
      | string a => exact hgives (gives_opened opts t cs o a)

theorem flatMap_tokens_words {ts : List Arg} (h : ∀ e, .exits e ∉ words ts) :
    (words ts).flatMap Word.tokens = ts := by
  fun_induction words ts with
  | case1 => rfl
  | case2 t ts e hscan => exact absurd (by simp) (h e)
  | case3 t ts cs hscan ih =>
    rw [List.flatMap_cons, ih fun e he => h e (List.mem_cons_of_mem _ he)]
    rfl
  | case4 t cs o a ts hscan ih =>
    rw [List.flatMap_cons, ih fun e he => h e (List.mem_cons_of_mem _ he)]
    rfl
  | case5 t cs o hscan => rfl
  | case6 t ts cs o rest hscan hrest ih =>
    rw [List.flatMap_cons, ih fun e he => h e (List.mem_cons_of_mem _ he)]
    rfl

theorem exits_notMem_of_ok {past : Past} {opts opts' : RunOpts} {ws : List Word}
    (hok : execWords past opts ws = .ok opts') (e : Exit) : .exits e ∉ ws := by
  induction ws generalizing opts with
  | nil => simp
  | cons w ws ih =>
    obtain ⟨opts'', hexec, hok⟩ := execWords_cons_eq_ok hok
    intro hmem
    rcases List.mem_cons.mp hmem with rfl | hmem
    · cases hexec
    · exact ih hok hmem

/-! ## The whole of `svr_getopts` -/

theorem checkOpts_eq_ok {libc : Libc} {opts opts' : RunOpts} (h : checkOpts libc opts = .ok opts') :
    opts' = opts := by
  unfold checkOpts at h
  split at h <;> cases h
  rfl

theorem svrGetopts_eq_ok {libc : Libc} {past : Past} {argv : List Arg} {opts : RunOpts}
    (h : (svrGetopts libc past argv).outcome = .ok opts) :
    ∃ parsed, execWords past {} (words argv.tail) = .ok parsed ∧ opts = setUpPorts parsed := by
  rw [← loop_outcome past 1]
  unfold svrGetopts at h
  dsimp only at h
  split at h <;> rename_i hloop
  · cases h
  · exact ⟨_, hloop, checkOpts_eq_ok h⟩

theorem bounded_init : ({} : RunOpts).Bounded := ⟨Nat.zero_le _, Nat.zero_le _⟩

/-- **`svr_getopts` stays inside the array exactly when** the arguments do not end, after accepted
    ones, in an option that lacks its argument. -/
theorem svrGetopts_reads_iff (libc : Libc) (past : Past) (arg0 : Arg) (args : List Arg) :
    (∀ k ∈ (svrGetopts libc past (arg0 :: args)).reads, k < (arg0 :: args).length) ↔
      ¬ EndsOpened {} args := by
  rw [List.length_cons, Nat.add_comm, ← reachesOpened_iff bounded_init]
  exact loop_reads_iff past 1 args {}

end Runopts

end Sshd4a
