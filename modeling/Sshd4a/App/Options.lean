import Sshd4a.App.SshdSettings
import Sshd4a.Native.Runopts

/-!
# The command line options, on both sides

The user can add options to the server's command line, as one string. `Prefs.java` splits it,
`SshdService.startSshd` puts its own options in front, and `svr_getopts` parses the result in
another process. The app also looks into the options itself, to display the addresses the server
listens on: `getBindings` takes every token `-p` for a port option with the next token as its
argument, and nothing else.

The two readings differ where the native one is richer: `-p2222`, `-ap 2222`, an option that
takes a token `-p` for its argument, and an eleventh port. `getBindings_iff` compares them for
every string. `argv_reads_iff` is about the other end of the list: the array the JNI code builds
has no terminator, and `svr_getopts` looks for one.
-/

namespace Sshd4a

open Runopts

/-! ## `Prefs.java` -/

section
variable (space : Char → Bool)

/-- The second half of a quoted match, behind its opening quote: up to the closing quote, and
    then as far as there is no space. -/
def closeQuote (s : JString) : Option (JString × JString) :=
  match s.dropWhile (fun c => c != '"') with
  | [] => none
  | quote :: rest =>
    some (s.takeWhile (fun c => c != '"') ++ quote :: rest.takeWhile (fun c => !space c),
      rest.dropWhile (fun c => !space c))

/-- `\S*"([^"]*)"\S*` at the beginning of a string: what it matches, and the rest. The first
    `\S*` is greedy, so a longer one is tried before a shorter one. -/
def matchQuoted : JString → Option (JString × JString)
  | [] => none
  | c :: rest =>
    if space c then none
    else
      match matchQuoted rest with
      | some (token, after) => some (c :: token, after)
      | none =>
        if c == '"' then (closeQuote space rest).map fun m => (c :: m.1, m.2)
        else none

/-- `CMD_OPTIONS_PATTERN` at the beginning of a string that does not begin with a space. -/
def matchToken (s : JString) : JString × JString :=
  match matchQuoted space s with
  | some m => m
  | none => (s.takeWhile (fun c => !space c), s.dropWhile (fun c => !space c))

variable {space}

theorem closeQuote_append {s token after : JString}
    (h : closeQuote space s = some (token, after)) : token ++ after = s := by
  unfold closeQuote at h
  split at h
  · cases h
  · rename_i quote rest hrest
    cases h
    rw [List.append_assoc, List.cons_append, List.takeWhile_append_dropWhile, ← hrest,
      List.takeWhile_append_dropWhile]

theorem matchQuoted_append {s token after : JString}
    (h : matchQuoted space s = some (token, after)) : token ++ after = s ∧ token ≠ [] := by
  induction s generalizing token with
  | nil => cases h
  | cons c rest ih =>
    rw [matchQuoted] at h
    split at h
    · cases h
    · split at h
      · rename_i token' after' hrest
        cases h
        exact ⟨congrArg (c :: ·) (ih hrest).1, by simp⟩
      · split at h
        · obtain ⟨m, hm, heq⟩ := Option.map_eq_some_iff.mp h
          cases heq
          exact ⟨congrArg (c :: ·) (closeQuote_append hm), by simp⟩
        · cases h

theorem matchToken_append (c : Char) (s : JString) (hc : space c = false) :
    (matchToken space (c :: s)).1 ++ (matchToken space (c :: s)).2 = c :: s ∧
      (matchToken space (c :: s)).1 ≠ [] := by
  unfold matchToken
  split
  · rename_i m hm
    exact matchQuoted_append hm
  · refine ⟨List.takeWhile_append_dropWhile, ?_⟩
    simp [hc]

variable (space)

/-- `splitOptions`: the matches, one after the other. What `\s` is differs between the runtimes
    the app can have, so it is a parameter. -/
def splitOptions (options : JString) : List JString :=
  match _h : options.dropWhile space with
  | [] => []
  | c :: s => (matchToken space (c :: s)).1 :: splitOptions (matchToken space (c :: s)).2
termination_by options.length
decreasing_by
  have hc : space c = false := by
    have := List.head?_dropWhile_not space options
    rw [_h] at this
    simpa using this
  obtain ⟨happ, hne⟩ := matchToken_append c s hc
  have hlen := congrArg List.length happ
  have hdrop : (c :: s).length ≤ options.length := _h ▸ (List.dropWhile_suffix _).length_le
  have hpos := List.length_pos_of_ne_nil hne
  rw [List.length_append] at hlen
  omega

end

/-- The token `-p`. -/
def dashP : JString := ['-', 'p']

def collectBindings : List JString → List JString
  | [] => []
  | s :: rest =>
    if s = dashP then
      match rest with
      | [] => []
      | binding :: rest => binding :: collectBindings rest
    else collectBindings rest

/-- `String.valueOf(port)`. -/
def portString (port : Int) : JString := (toString port).toList

/-- `getBindings`, for the tokens of the options and the port of the settings. -/
def getBindings (userOptions : List JString) (port : Int) : List JString :=
  if dashP ∈ userOptions then collectBindings userOptions else ['*' :: ':' :: portString port]

/-- The argument list of `startSshd`. -/
def startSshdArgs (userOptions : List JString) (port : Int) : List JString :=
  ["sshd".toList, ['-', 'e'], ['-', 'R'], ['-', 'F']] ++
    (if dashP ∈ userOptions then [] else [dashP, portString port]) ++ userOptions

/-! ## The end of the array -/

/-- **The native parser stays inside the array that `startSshd`'s list becomes exactly when** the
    list does not end, after accepted arguments, in an option that lacks its own. -/
theorem argv_reads_iff (space : Char → Bool) (libc : Libc) (past : Past) (options : JString)
    (port : Int) :
    (∀ k ∈ (svrGetopts libc past (startSshdArgs (splitOptions space options) port)).reads,
        k < (startSshdArgs (splitOptions space options) port).length) ↔
      ¬ EndsOpened {} (startSshdArgs (splitOptions space options) port).tail :=
  svrGetopts_reads_iff libc past _ _

/-- `\s` as `Pattern` documents it. -/
def patternSpace (c : Char) : Bool :=
  c == ' ' || c == '\t' || c == '\n' || c == '\x0b' || c == '\x0c' || c == '\r'

/-- A platform with every group, on which nothing went wrong before. -/
def easyLibc : Libc where
  getgrnam := fun _ => true
  ulongMax := 0xFFFFFFFFFFFFFFFF
  errno := fun _ => .other

theorem splitOptions_nil (space : Char → Bool) : splitOptions space [] = [] := by
  rw [splitOptions]
  rfl

theorem splitOptions_space {space : Char → Bool} {c : Char} (hc : space c = true) (s : JString) :
    splitOptions space (c :: s) = splitOptions space s := by
  rw [splitOptions, splitOptions, List.dropWhile_cons_of_pos hc]

/-- A token without quotes. -/
structure PlainToken (space : Char → Bool) (token : JString) : Prop where
  nonempty : token ≠ []
  noSpace : ∀ c ∈ token, space c = false
  noQuote : '"' ∉ token

section
variable {space : Char → Bool} {token rest : JString}

theorem matchQuoted_plain (hspace : ∀ c ∈ token, space c = false) (hquote : '"' ∉ token)
    (hrest : ∀ c ∈ rest.head?, space c = true) : matchQuoted space (token ++ rest) = none := by
  induction token with
  | nil =>
    cases rest with
    | nil => rfl
    | cons c rest => rw [List.nil_append, matchQuoted, if_pos (hrest c rfl)]
  | cons c token ih =>
    have hc : (c == '"') = false := by
      rw [beq_eq_false_iff_ne]
      rintro rfl
      exact hquote (by simp)
    rw [List.cons_append, matchQuoted, ih (fun d hd => hspace d (List.mem_cons_of_mem _ hd))
      fun hs => hquote (List.mem_cons_of_mem _ hs), hc]
    split <;> rfl

theorem splitOptions_plain (htoken : PlainToken space token)
    (hrest : ∀ c ∈ rest.head?, space c = true) :
    splitOptions space (token ++ rest) = token :: splitOptions space rest := by
  have hall : ∀ c ∈ token, (!space c) = true := fun c hc => by rw [htoken.noSpace c hc]; rfl
  have hstop : rest.takeWhile (fun c => !space c) = [] ∧
      rest.dropWhile (fun c => !space c) = rest := by
    cases rest with
    | nil => exact ⟨rfl, rfl⟩
    | cons c rest =>
      have hc := hrest c rfl
      exact ⟨List.takeWhile_cons_of_neg (by simp [hc]), List.dropWhile_cons_of_neg (by simp [hc])⟩
  have hmatch : matchToken space (token ++ rest) = (token, rest) := by
    unfold matchToken
    rw [matchQuoted_plain htoken.noSpace htoken.noQuote hrest]
    simp only [List.takeWhile_append_of_pos hall, List.dropWhile_append_of_pos hall, hstop.1,
      hstop.2, List.append_nil]
  have hdrop : (token ++ rest).dropWhile space = token ++ rest := by
    cases token with
    | nil => exact absurd rfl htoken.nonempty
    | cons c token =>
      exact List.dropWhile_cons_of_neg (by simp [htoken.noSpace c (by simp)])
  rw [splitOptions]
  split <;> rename_i heq <;> rw [hdrop] at heq
  · exact absurd (List.append_eq_nil_iff.mp heq).1 htoken.nonempty
  · rw [← heq, hmatch]

theorem splitOptions_last (htoken : PlainToken space token) :
    splitOptions space token = [token] := by
  have h : splitOptions space (token ++ []) = token :: splitOptions space [] :=
    splitOptions_plain htoken (by simp)
  rwa [List.append_nil, splitOptions_nil] at h

end

theorem plainToken_dashP : PlainToken patternSpace dashP :=
  ⟨by decide, by simp [dashP, patternSpace], by decide⟩

theorem splitOptions_dashP : splitOptions patternSpace dashP = [dashP] :=
  splitOptions_last plainToken_dashP

/-- With the options `-p`, element 5 of the five is read. -/
theorem argv_reads_dashP :
    (startSshdArgs (splitOptions patternSpace dashP) 2222).length = 5 ∧
      5 ∈ (svrGetopts easyLibc .null (startSshdArgs (splitOptions patternSpace dashP) 2222)).reads := by
  rw [splitOptions_dashP]
  decide

/-! ## The bindings -/

/-- A word that is a port option. -/
def Runopts.Word.isPort : Word → Bool
  | .attached _ _ o _ => o = .port
  | .separate _ _ o _ => o = .port
  | .opened _ _ o => o = .port
  | _ => false

/-- A port option as the app knows it: the token `-p`, and its argument in the next one. -/
def Runopts.Word.isPlain : Word → Bool
  | .separate t _ _ _ => t = dashP
  | _ => false

/-- What the app takes for the binding of a port option. -/
def Runopts.Word.plainSpec : Word → Option JString
  | .separate t _ _ a => if t = dashP then some a else none
  | _ => none

/-- A word that takes the token `-p` for its argument, and is not `-p -p`. -/
def Runopts.Word.swallows : Word → Bool
  | .separate t _ _ a => t ≠ dashP ∧ a = dashP
  | _ => false

/-- A token `-p` is nobody's argument, but for the last one. -/
def NoneSwallowed : List Word → Prop
  | [] => True
  | w :: ws => (w.swallows = true → ws = []) ∧ NoneSwallowed ws

theorem scan_dashP : scan dashP = .takes [] .port [] := rfl

theorem ne_dashP_of_scan {t : Arg} (h : scan t ≠ .takes [] .port []) : t ≠ dashP := by
  rintro rfl
  exact h scan_dashP

theorem words_eq_nil {ts : List Arg} (h : words ts = []) : ts = [] := by
  cases ts with
  | nil => rfl
  | cons t ts =>
    rw [words] at h
    split at h
    · cases h
    · cases h
    · split at h
      · split at h <;> cases h
      · cases h

theorem dash_of_scan {t : Arg} (h : scan t ≠ .exits .invalidArgument) : t.head? = some '-' := by
  unfold scan at h
  split at h
  · rfl
  · exact absurd rfl h

theorem collectBindings_of_ne {t : JString} (ts : List JString) (h : t ≠ dashP) :
    collectBindings (t :: ts) = collectBindings ts := by
  cases ts with
  | nil => simp [collectBindings, h]
  | cons a ts => simp [collectBindings, h]

theorem collectBindings_dashP (a : JString) (ts : List JString) :
    collectBindings (dashP :: a :: ts) = a :: collectBindings ts := by
  simp only [collectBindings, if_true]

theorem collectBindings_singleton (t : JString) : collectBindings [t] = [] := by
  simp [collectBindings]

/-- **Where no `-p` is swallowed**, the app sees the plain port options. -/
theorem collectBindings_eq {ts : List Arg} (hexit : ∀ e, .exits e ∉ words ts)
    (h : NoneSwallowed (words ts)) :
    collectBindings ts = (words ts).filterMap Word.plainSpec := by
  fun_induction words ts with
  | case1 => rfl
  | case2 t ts e hscan => exact absurd (by simp) (hexit e)
  | case3 t ts cs hscan ih =>
    have hne : t ≠ dashP := ne_dashP_of_scan (by simp [hscan])
    rw [collectBindings_of_ne ts hne, ih (fun e he => hexit e (List.mem_cons_of_mem _ he)) h.2]
    rfl
  | case4 t cs o a ts hscan ih =>
    have ih := ih (fun e he => hexit e (List.mem_cons_of_mem _ he)) h.2
    by_cases hplain : t = dashP
    · subst hplain
      rw [collectBindings_dashP, ih]
      rfl
    · have hspec : (Word.separate t cs o a).plainSpec = none := by simp [Word.plainSpec, hplain]
      rw [collectBindings_of_ne _ hplain, List.filterMap_cons_none hspec, ← ih]
      by_cases ha : a = dashP
      · -- a swallowed `-p` is the last token
        have hts : ts = [] := words_eq_nil (h.1 (by simp [Word.swallows, hplain, ha]))
        rw [hts, collectBindings_singleton]
        rfl
      · exact collectBindings_of_ne ts ha
  | case5 t cs o hscan => exact collectBindings_singleton t
  | case6 t ts cs o rest hscan hrest ih =>
    have hne : t ≠ dashP := ne_dashP_of_scan (by simp [hscan, hrest])
    rw [collectBindings_of_ne ts hne, ih (fun e he => hexit e (List.mem_cons_of_mem _ he)) h.2]
    rfl

/-- Where the native parser accepts the letters of every word, a swallowed `-p` gives the app a
    binding that begins with a dash. -/
theorem noneSwallowed_of_bindings {ts : List Arg} (hexit : ∀ e, .exits e ∉ words ts)
    (h : ∀ binding ∈ collectBindings ts, binding.head? ≠ some '-') :
    NoneSwallowed (words ts) := by
  fun_induction words ts with
  | case1 => trivial
  | case2 t ts e hscan => exact absurd (by simp) (hexit e)
  | case3 t ts cs hscan ih =>
    have hne : t ≠ dashP := ne_dashP_of_scan (by simp [hscan])
    rw [collectBindings_of_ne ts hne] at h
    exact ⟨by simp [Word.swallows], ih (fun e he => hexit e (List.mem_cons_of_mem _ he)) h⟩
  | case4 t cs o a ts hscan ih =>
    have hexit' : ∀ e, .exits e ∉ words ts := fun e he => hexit e (List.mem_cons_of_mem _ he)
    by_cases hplain : t = dashP
    · subst hplain
      rw [collectBindings_dashP] at h
      exact ⟨by simp [Word.swallows],
        ih hexit' fun b hb => h b (List.mem_cons_of_mem _ hb)⟩
    · rw [collectBindings_of_ne _ hplain] at h
      by_cases ha : a = dashP
      · subst ha
        cases ts with
        | nil => exact ⟨fun _ => rfl, trivial⟩
        | cons t' ts' =>
          -- the app takes the next word for the binding
          rw [collectBindings_dashP] at h
          refine absurd (dash_of_scan fun hinv => ?_) (h t' (by simp))
          rw [words_exits hinv] at hexit'
          exact hexit' .invalidArgument (by simp)
      · rw [collectBindings_of_ne ts ha] at h
        exact ⟨by simp [Word.swallows, ha], ih hexit' h⟩
  | case5 t cs o hscan => exact ⟨by simp [Word.swallows], trivial⟩
  | case6 t ts cs o rest hscan hrest ih =>
    have hne : t ≠ dashP := ne_dashP_of_scan (by simp [hscan, hrest])
    rw [collectBindings_of_ne ts hne] at h
    exact ⟨by simp [Word.swallows], ih (fun e he => hexit e (List.mem_cons_of_mem _ he)) h⟩

/-- The port options among words. -/
def portWords (ws : List Word) : List Word := ws.filter Word.isPort

/-- The port options are spelled the way the app knows: each of the first ten as `-p` with its
    argument in the next token, none of the others like that, and no token `-p` is the argument
    of another option, but for the last one. -/
structure PlainPorts (userOptions : List JString) : Prop where
  first : ∀ w ∈ (portWords (words userOptions)).take maxPorts, w.isPlain = true
  others : ∀ w ∈ (portWords (words userOptions)).drop maxPorts, w.isPlain = false
  noneSwallowed : NoneSwallowed (words userOptions)

/-- The bindings in use: what `addportandaddress` registered, the one that `startSshd` added by
    itself as the app spells it. -/
def usedBindings (userOptions : List JString) (port : Int) (opts : RunOpts) : List JString :=
  match opts.ports.map PortAddress.spec with
  | [] => []
  | spec :: specs =>
    (if dashP ∈ userOptions then spec else '*' :: ':' :: portString port) :: specs

/-! ## Comparing the two -/

/-- A plain word of a command line is a port option, and the app reads its argument. -/
theorem plain_of_mem_words {ts : List Arg} {w : Word} (hw : w ∈ words ts)
    (hplain : w.isPlain = true) : ∃ a, w = .separate dashP [] .port a := by
  fun_induction words ts with
  | case1 => simp at hw
  | case2 t ts e hscan =>
    rw [List.mem_singleton.mp hw] at hplain
    cases hplain
  | case3 t ts cs hscan ih =>
    rcases List.mem_cons.mp hw with rfl | hw
    · cases hplain
    · exact ih hw
  | case4 t cs o a ts hscan ih =>
    rcases List.mem_cons.mp hw with rfl | hw
    · obtain rfl : t = dashP := by simpa [Word.isPlain] using hplain
      cases scan_dashP.symm.trans hscan
      exact ⟨a, rfl⟩
    · exact ih hw
  | case5 t cs o hscan =>
    rw [List.mem_singleton.mp hw] at hplain
    cases hplain
  | case6 t ts cs o rest hscan hrest ih =>
    rcases List.mem_cons.mp hw with rfl | hw
    · cases hplain
    · exact ih hw

theorem plainSpec_eq_none {w : Word} (h : w.isPlain = false) : w.plainSpec = none := by
  cases w with
  | separate t cs o a =>
    have : t ≠ dashP := by simpa [Word.isPlain] using h
    simp [Word.plainSpec, this]
  | exits e => rfl
  | flags t cs => rfl
  | attached t cs o a => rfl
  | opened t cs o => rfl

theorem argOf_port_eq_none {past : Past} {w : Word} (h : w.isPort = false) :
    w.argOf past .port = none := by
  cases w with
  | exits e => rfl
  | flags t cs => rfl
  | attached t cs o a => simpa [Word.argOf, Word.isPort] using h
  | separate t cs o a => simpa [Word.argOf, Word.isPort] using h
  | opened t cs o =>
    have : o ≠ .port := by simpa [Word.isPort] using h
    cases past <;> simp [Word.argOf, this]

theorem filterMap_filter_of_none {α β : Type} {f : α → Option β} {p : α → Bool} {l : List α}
    (h : ∀ x ∈ l, p x = false → f x = none) : (l.filter p).filterMap f = l.filterMap f := by
  induction l with
  | nil => rfl
  | cons x l ih =>
    have ih := ih fun y hy => h y (List.mem_cons_of_mem _ hy)
    by_cases hx : p x = true
    · rw [List.filter_cons_of_pos hx, List.filterMap_cons, List.filterMap_cons, ih]
    · have hnone := h x (by simp) (by simpa using hx)
      rw [List.filter_cons_of_neg hx, ih, List.filterMap_cons_none hnone]

/-- Where everything gives something, the first results are those of the first elements. -/
theorem take_filterMap_of_isSome {α β : Type} {f : α → Option β} {l : List α}
    (h : ∀ x ∈ l, (f x).isSome) (n : Nat) : (l.filterMap f).take n = (l.take n).filterMap f := by
  induction l generalizing n with
  | nil => simp
  | cons x l ih =>
    have ih := ih fun y hy => h y (List.mem_cons_of_mem _ hy)
    obtain ⟨y, hy⟩ := Option.isSome_iff_exists.mp (h x (by simp))
    cases n with
    | zero => rfl
    | succ n =>
      rw [List.filterMap_cons_some hy, List.take_succ_cons, List.take_succ_cons,
        List.filterMap_cons_some hy, ih]

theorem argOf_isSome_of_ok {past : Past} {opts opts' : RunOpts} {ws : List Word}
    (hok : execWords past opts ws = .ok opts') :
    ∀ w ∈ portWords ws, (w.argOf past .port).isSome := by
  induction ws generalizing opts with
  | nil => simp [portWords]
  | cons v ws ih =>
    obtain ⟨opts'', hexec, hok⟩ := execWords_cons_eq_ok hok
    intro w hw
    unfold portWords at hw
    obtain ⟨hw, hport⟩ := List.mem_filter.mp hw
    rcases List.mem_cons.mp hw with rfl | hw
    · cases w with
      | exits e => cases hport
      | flags t cs => cases hport
      | attached t cs o a => simp [Word.argOf, of_decide_eq_true hport]
      | separate t cs o a => simp [Word.argOf, of_decide_eq_true hport]
      | opened t cs o =>
        cases past with
        | null => cases hexec
        | wild => cases hexec
        | string a => simp [Word.argOf, of_decide_eq_true hport]
    · exact ih hok w (List.mem_filter.mpr ⟨hw, hport⟩)

section
variable {past : Past} {userOptions : List JString} {opts opts' : RunOpts}

/-- What the app collects, and what is registered, over the port options alone. -/
theorem filterMap_portWords (past : Past) (ts : List Arg) :
    (portWords (words ts)).filterMap Word.plainSpec = (words ts).filterMap Word.plainSpec ∧
      (portWords (words ts)).filterMap (Word.argOf past .port) = portSpecs past (words ts) := by
  refine ⟨filterMap_filter_of_none ?_, filterMap_filter_of_none ?_⟩
  · intro w hw hport
    apply plainSpec_eq_none
    by_contra hplain
    obtain ⟨a, rfl⟩ := plain_of_mem_words hw (by simpa using hplain)
    cases hport
  · intro w _ hport
    exact argOf_port_eq_none hport

theorem filterMap_plain {ws : List Word} (hmem : ∀ w ∈ ws, w ∈ words userOptions)
    (hplain : ∀ w ∈ ws, w.isPlain = true) :
    ws.filterMap Word.plainSpec = ws.filterMap (Word.argOf past .port) := by
  apply List.filterMap_congr
  intro w hw
  obtain ⟨a, rfl⟩ := plain_of_mem_words (hmem w hw) (hplain w hw)
  rfl

theorem mem_words_of_mem_portWords {ts : List Arg} {w : Word} (h : w ∈ portWords (words ts)) :
    w ∈ words ts := List.mem_of_mem_filter h

/-- Plain spelling makes the first ten specifications the ones the app collects. -/
theorem collectBindings_of_plain (hok : execWords past opts (words userOptions) = .ok opts')
    (h : PlainPorts userOptions) :
    collectBindings userOptions = (portSpecs past (words userOptions)).take maxPorts := by
  obtain ⟨hplain, hspecs⟩ := filterMap_portWords past userOptions
  have htake := fun w hw => mem_words_of_mem_portWords
    (List.mem_of_mem_take (i := maxPorts) (l := portWords (words userOptions)) (a := w) hw)
  have hnone : ((portWords (words userOptions)).drop maxPorts).filterMap Word.plainSpec = [] := by
    rw [List.filterMap_eq_nil_iff]
    intro w hw
    exact plainSpec_eq_none (h.others w hw)
  rw [collectBindings_eq (exits_notMem_of_ok hok) h.noneSwallowed, ← hplain, ← hspecs,
    take_filterMap_of_isSome (argOf_isSome_of_ok hok), ← filterMap_plain htake h.first]
  calc (portWords (words userOptions)).filterMap Word.plainSpec
      = ((portWords (words userOptions)).take maxPorts ++
          (portWords (words userOptions)).drop maxPorts).filterMap Word.plainSpec := by
        rw [List.take_append_drop]
    _ = _ := by rw [List.filterMap_append, hnone, List.append_nil]

/-- Conversely, where no binding begins with a dash and there are at most ten port options. -/
theorem plain_of_collectBindings (hok : execWords past opts (words userOptions) = .ok opts')
    (hdash : ∀ binding ∈ collectBindings userOptions, binding.head? ≠ some '-')
    (hten : (portWords (words userOptions)).length ≤ maxPorts)
    (h : collectBindings userOptions = (portSpecs past (words userOptions)).take maxPorts) :
    PlainPorts userOptions := by
  obtain ⟨hplain, hspecs⟩ := filterMap_portWords past userOptions
  have hnone := noneSwallowed_of_bindings (exits_notMem_of_ok hok) hdash
  have hsome := argOf_isSome_of_ok hok
  rw [collectBindings_eq (exits_notMem_of_ok hok) hnone, ← hplain, ← hspecs,
    take_filterMap_of_isSome hsome, List.take_of_length_le hten] at h
  -- as many bindings as port options, so every port option gives one
  have hlen : ((portWords (words userOptions)).filterMap Word.plainSpec).length
      = (portWords (words userOptions)).length := by
    rw [h]
    exact List.filterMap_length_eq_length.mpr hsome
  refine ⟨?_, ?_, hnone⟩
  · intro w hw
    by_contra hw'
    have := List.filterMap_length_eq_length.mp hlen w (List.mem_of_mem_take hw)
    rw [plainSpec_eq_none (by simpa using hw')] at this
    cases this
  · intro w hw
    rw [List.drop_of_length_le hten] at hw
    cases hw

theorem plainPorts_iff_of_notMem (hexit : ∀ e, .exits e ∉ words userOptions)
    (h : dashP ∉ userOptions) :
    PlainPorts userOptions ↔ portWords (words userOptions) = [] := by
  have hnot : ∀ w ∈ words userOptions, dashP ∉ w.tokens := by
    intro w hw hmem
    rw [← flatMap_tokens_words hexit] at h
    exact h (List.mem_flatMap.mpr ⟨w, hw, hmem⟩)
  constructor
  · intro hplain
    cases hport : portWords (words userOptions) with
    | nil => rfl
    | cons w ws =>
      have hw : w ∈ (portWords (words userOptions)).take maxPorts := by
        rw [hport]
        exact List.mem_cons_self
      have hmem := mem_words_of_mem_portWords (List.mem_of_mem_take hw)
      obtain ⟨a, rfl⟩ := plain_of_mem_words hmem (hplain.first w hw)
      exact absurd (List.mem_cons_self) (hnot _ hmem)
  · intro hnil
    refine ⟨by simp [hnil], by simp [hnil], ?_⟩
    have : ∀ ws : List Word, (∀ w ∈ ws, dashP ∉ w.tokens) → NoneSwallowed ws := by
      intro ws hws
      induction ws with
      | nil => trivial
      | cons w ws ih =>
        refine ⟨fun hsw => ?_, ih fun v hv => hws v (List.mem_cons_of_mem _ hv)⟩
        cases w with
        | separate t cs o a =>
          have ha : t ≠ dashP ∧ a = dashP := by simpa [Word.swallows] using hsw
          exact absurd (by simp [Word.tokens, ha.2]) (hws _ List.mem_cons_self)
        | exits e => cases hsw
        | flags t cs => cases hsw
        | attached t cs o a => cases hsw
        | opened t cs o => cases hsw
    exact this _ hnot

end

theorem words_startSshdArgs (userOptions : List JString) (port : Int) :
    words (startSshdArgs userOptions port).tail =
      .flags ['-', 'e'] ['e'] :: .flags ['-', 'R'] ['R'] :: .flags ['-', 'F'] ['F'] ::
        ((if dashP ∈ userOptions then [] else [.separate dashP [] .port (portString port)]) ++
          words userOptions) := by
  have hargs : (startSshdArgs userOptions port).tail = ['-', 'e'] :: ['-', 'R'] :: ['-', 'F'] ::
      ((if dashP ∈ userOptions then [] else [dashP, portString port]) ++ userOptions) := rfl
  rw [hargs, words_flags (show scan ['-', 'e'] = .flags ['e'] from rfl),
    words_flags (show scan ['-', 'R'] = .flags ['R'] from rfl),
    words_flags (show scan ['-', 'F'] = .flags ['F'] from rfl)]
  by_cases h : dashP ∈ userOptions
  · rw [if_pos h, if_pos h]
    rfl
  · rw [if_neg h, if_neg h, List.cons_append, List.cons_append, List.nil_append,
      words_separate scan_dashP]
    rfl

/-- What is registered when `svr_getopts` returns: the default, if it was added, and the
    specifications among the user's options. -/
theorem registered_of_ok {libc : Libc} {past : Past} {userOptions : List JString} {port : Int}
    {opts : RunOpts}
    (h : (svrGetopts libc past (startSshdArgs userOptions port)).outcome = .ok opts) :
    (∃ opts₁ opts₂, execWords past opts₁ (words userOptions) = .ok opts₂) ∧
      opts.ports.map PortAddress.spec =
        ((if dashP ∈ userOptions then [] else [portString port]) ++
          portSpecs past (words userOptions)).take maxPorts := by
  obtain ⟨parsed, hexec, rfl⟩ := svrGetopts_eq_ok h
  have hreg := execWords_registered (Nat.zero_le _) hexec
  dsimp only [setUpPorts]
  rw [words_startSshdArgs] at hexec hreg
  rw [execWords_cons_ok rfl, execWords_cons_ok rfl, execWords_cons_ok rfl] at hexec
  by_cases hmem : dashP ∈ userOptions
  · rw [if_pos hmem] at hexec hreg ⊢
    exact ⟨⟨_, _, hexec⟩, hreg⟩
  · rw [if_neg hmem] at hexec hreg ⊢
    refine ⟨?_, hreg⟩
    rw [List.singleton_append] at hexec
    obtain ⟨opts₁, -, hexec⟩ := execWords_cons_eq_ok hexec
    exact ⟨opts₁, parsed, hexec⟩

/-- The server falls back to its own default port exactly if a token `-p` kept the app from adding
    its, and is none to the parser. -/
theorem defport_iff {libc : Libc} {past : Past} {userOptions : List JString} {port : Int}
    {opts : RunOpts}
    (h : (svrGetopts libc past (startSshdArgs userOptions port)).outcome = .ok opts) :
    opts.defport = true ↔ dashP ∈ userOptions ∧ portSpecs past (words userOptions) = [] := by
  obtain ⟨-, hreg⟩ := registered_of_ok h
  obtain ⟨parsed, -, rfl⟩ := svrGetopts_eq_ok h
  dsimp only [setUpPorts] at hreg ⊢
  rw [List.isEmpty_iff, ← List.map_eq_nil_iff (f := PortAddress.spec), hreg, List.take_eq_nil_iff,
    List.append_eq_nil_iff]
  by_cases hmem : dashP ∈ userOptions
  · simp [hmem, maxPorts]
  · simp [hmem, maxPorts]

/-- **The displayed bindings are the ones in use** whenever the port options are spelled the way
    the app knows; and only then, unless a binding begins with a dash or there are more than ten
    port options, where the two lists can be equal by coincidence. -/
theorem getBindings_iff (space : Char → Bool) (libc : Libc) (past : Past) (options : JString)
    (port : Int) (opts : RunOpts)
    (h : (svrGetopts libc past (startSshdArgs (splitOptions space options) port)).outcome
      = .ok opts) :
    (PlainPorts (splitOptions space options) →
      getBindings (splitOptions space options) port
        = usedBindings (splitOptions space options) port opts) ∧
    ((dashP ∈ splitOptions space options →
        (∀ binding ∈ collectBindings (splitOptions space options), binding.head? ≠ some '-') ∧
        (portWords (words (splitOptions space options))).length ≤ maxPorts) →
      getBindings (splitOptions space options) port
        = usedBindings (splitOptions space options) port opts →
      PlainPorts (splitOptions space options)) := by
  generalize splitOptions space options = userOptions at h ⊢
  obtain ⟨⟨opts₁, opts₂, hok⟩, hreg⟩ := registered_of_ok h
  unfold getBindings usedBindings
  by_cases hmem : dashP ∈ userOptions
  · have hused : (match opts.ports.map PortAddress.spec with
        | [] => []
        | spec :: specs =>
          (if dashP ∈ userOptions then spec else '*' :: ':' :: portString port) :: specs)
        = (portSpecs past (words userOptions)).take maxPorts := by
      rw [if_pos hmem, List.nil_append] at hreg
      rw [← hreg]
      cases opts.ports.map PortAddress.spec with
      | nil => rfl
      | cons spec specs => simp [hmem]
    rw [hused, if_pos hmem]
    refine ⟨collectBindings_of_plain hok, ?_⟩
    intro hcond heq
    obtain ⟨hdash, hten⟩ := hcond hmem
    exact plain_of_collectBindings hok hdash hten heq
  · have hspecs := (filterMap_portWords past userOptions).2
    rw [if_neg hmem, List.singleton_append] at hreg
    rw [show maxPorts = 9 + 1 from rfl, List.take_succ_cons] at hreg
    rw [plainPorts_iff_of_notMem (exits_notMem_of_ok hok) hmem, if_neg hmem, hreg]
    simp only [if_neg hmem, List.cons.injEq, true_and]
    rw [← hspecs, take_filterMap_of_isSome (argOf_isSome_of_ok hok)]
    constructor
    · intro hnil
      rw [hnil]
      rfl
    · intro _ heq
      cases hport : portWords (words userOptions) with
      | nil => rfl
      | cons w ws =>
        -- a first port option has an argument, which is registered beside the default
        have hsome := argOf_isSome_of_ok hok w (by rw [hport]; exact List.mem_cons_self)
        obtain ⟨a, ha⟩ := Option.isSome_iff_exists.mp hsome
        rw [hport, List.take_succ_cons, List.filterMap_cons_some ha] at heq
        cases heq

theorem splitOptions_port : splitOptions patternSpace (dashP ++ [' ', '2', '2'])
    = [dashP, ['2', '2']] := by
  rw [splitOptions_plain plainToken_dashP (by simp [patternSpace]), splitOptions_space rfl,
    splitOptions_last ⟨by decide, by simp [patternSpace], by decide⟩]

theorem getBindings_iff_port :
    ∃ opts, (svrGetopts easyLibc .null (startSshdArgs
        (splitOptions patternSpace (dashP ++ [' ', '2', '2'])) 2222)).outcome = .ok opts ∧
      getBindings (splitOptions patternSpace (dashP ++ [' ', '2', '2'])) 2222
        = usedBindings (splitOptions patternSpace (dashP ++ [' ', '2', '2'])) 2222 opts := by
  have hout : (svrGetopts easyLibc .null (startSshdArgs [dashP, ['2', '2']] 2222)).outcome
      = .ok { flags := ['e', 'R', 'F'], ports := [⟨['2', '2'], [], ['2', '2']⟩] } := rfl
  rw [← splitOptions_port] at hout
  refine ⟨_, hout, (getBindings_iff patternSpace easyLibc .null _ 2222 _ hout).1 ?_⟩
  rw [splitOptions_port]
  exact ⟨by decide, by decide, by simp [NoneSwallowed, words, scan_dashP, Word.swallows]⟩

theorem splitOptions_attached : splitOptions patternSpace (dashP ++ ['2', '2'])
    = [dashP ++ ['2', '2']] :=
  splitOptions_last ⟨by decide, by simp [dashP, patternSpace], by decide⟩

/-- With them and the port 2222, the app displays `*:2222`, and the server listens on port 22
    too. -/
theorem getBindings_attached :
    ∃ opts, (svrGetopts easyLibc .null (startSshdArgs
        (splitOptions patternSpace (dashP ++ ['2', '2'])) 2222)).outcome = .ok opts ∧
      opts.ports.map PortAddress.spec = ["2222".toList, "22".toList] ∧
      getBindings (splitOptions patternSpace (dashP ++ ['2', '2'])) 2222
        ≠ usedBindings (splitOptions patternSpace (dashP ++ ['2', '2'])) 2222 opts := by
  rw [splitOptions_attached]
  refine ⟨{ flags := ['e', 'R', 'F'],
            ports := [⟨"2222".toList, [], "2222".toList⟩, ⟨['2', '2'], [], ['2', '2']⟩] }, ?_⟩
  exact ⟨rfl, by decide, by decide⟩

end Sshd4a
