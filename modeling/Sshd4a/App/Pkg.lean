import Mathlib.Data.Set.Function
import Sshd4a.Lib.LinkedMap
import Sshd4a.Lib.Machine

/-!
# The package manager (`assets/pkg`)

`pkg` keeps two files of its own: the list of repositories, which `pkg repo add` and `pkg repo
remove` edit, and a directory with the last index that `pkg update` fetched from each of them.
`pkg install` reads neither the list nor the names in the directory. It takes the first line
that matches from every file `*.list` that is there, so what is trusted is what the directory
holds, and nothing but the commands themselves keeps that in step with the list.

The list is a text that the user may have edited. What stands behind its last newline is a line to
`grep`, and none to the loop of `cmd_update`, which reads with `read`.

What is outside the script is a `Device`: the tools it finds, and what `md5sum`, `awk` and `echo`
make of a text. What `grep` prints of a file that it does not take for a text is left open. The
downloads of a run are recorded in a field that no command reads; "the most recently downloaded
index" is said in terms of it.
-/

namespace Sshd4a.Pkg

/-- A line of a file, without its newline. -/
abbrev Line := List Char

/-- An index that was downloaded, line by line. -/
abbrev Index := List Line

def isHexDigit (c : Char) : Bool := c.isDigit || ('a' ≤ c && c ≤ 'f')

def nul : Char := Char.ofNat 0

/-- A file of ASCII characters without a NUL, which is a text to every `grep`. -/
def isAsciiText (index : Index) : Bool := index.all (·.all fun c => c != nul && c ≤ '~')

/-- `-x` or longer; a lone `-` is not an option. -/
def isOption : Line → Bool
  | '-' :: _ :: _ => true
  | _ => false

structure Device where
  /-- There is a busybox; otherwise there is only curl. -/
  busybox : Bool
  /-- `getprop ro.product.cpu.abi`. -/
  arch : Line
  /-- `echo url | busybox md5sum | cut -c1-12`. -/
  md5 : Line → List Char
  md5_hex : ∀ url, (md5 url).length = 12 ∧ ∀ c ∈ md5 url, isHexDigit c = true
  /-- `==` of awk, which compares what looks like numbers as numbers. -/
  awkEq : Line → Line → Bool
  /-- `echo` of the shell, which may expand backslashes. -/
  echo : Line → Line
  /-- Whether `grep` takes a file for a text. -/
  isText : Index → Bool
  isText_ascii : ∀ index, isAsciiText index = true → isText index = true
  /-- What `grep -v '^#' | grep -v '^[[:space:]]*$'` prints if it does not. -/
  oddGrep : Index → List Line

/-- An argument of `pkg repo`: what a URL can be made of. It is neither an option of `grep` nor
    a text that `echo` changes. -/
structure Url where
  text : Line
  isUrl : text ≠ [] ∧ text.head? ≠ some '-' ∧
    ∀ c ∈ text, '!' ≤ c ∧ c ≤ '~' ∧ c ≠ Char.ofNat 0x5C

structure State where
  /-- The lines of `pkg-repos.list` that a newline ends. -/
  repos : List Line
  /-- What stands behind the last newline. -/
  rest : Line
  /-- The files of `pkg-cache`. The one a download goes to is moved or removed at once. -/
  cache : LinkedMap (List Char) Index
  /-- What was downloaded so far, the newest first. -/
  fetched : List (Line × Index)

/-- Before the first `pkg update`. -/
def State.initial (repos : List Line) (rest : Line) : State :=
  { repos := repos, rest := rest, cache := .empty, fetched := [] }

/-- The lines of `pkg-repos.list`, as `grep` reads them. -/
def State.lines (s : State) : List Line := if s.rest = [] then s.repos else s.repos ++ [s.rest]

/-! ## The script -/

/-- The lines of `pkg-repos.list` that are not skipped: `[ -z "$repo_url" ]` and `\#*`. -/
def isRepo (line : Line) : Bool := line != [] && line.head? != some '#'

/-- The name in the directory. Without a busybox there is no `md5sum` either. -/
def Device.cacheFileForRepo (d : Device) (url : Line) : List Char :=
  (if d.busybox then d.md5 url else []) ++ ".list".toList

/-- `download` and `mv "$cf.tmp" "$cf"`. -/
def Device.store (d : Device) (s : State) (url : Line) (index : Index) : State :=
  { s with
    cache := s.cache.put (d.cacheFileForRepo url) index
    fetched := (url, index) :: s.fetched }

/-- The loop of `cmd_update` over the lines that `read` delivers, with the outcome of each download,
    and its counter `failed`. -/
def Device.readRepos (d : Device) : List Line → List (Option Index) → State → State × Nat
  | [], _, s => (s, 0)
  | line :: lines, downloads, s =>
    if isRepo line then
      match downloads with
      | [] => (s, 0)
      | some index :: downloads => d.readRepos lines downloads (d.store s line index)
      | none :: downloads =>
        ((d.readRepos lines downloads s).1, (d.readRepos lines downloads s).2 + 1)
    else d.readRepos lines downloads s

/-- `cmd_update`, behind `[ ! -s "$REPOS_FILE" ]`. `read` fails at a line that is not ended. -/
def Device.cmdUpdate (d : Device) (s : State) (downloads : List (Option Index)) : State × Nat :=
  if s.lines = [] then (s, 0) else d.readRepos s.repos downloads s

/-- `grep -qxF "$2" "$REPOS_FILE" || echo "$2" >> "$REPOS_FILE"`. -/
def repoAdd (s : State) (url : Line) : State :=
  if s.lines.contains url then s
  else { s with repos := s.repos ++ [s.rest ++ url], rest := [] }

/-- `grep -vxF "$2" "$REPOS_FILE"`, moved back. -/
def repoRemove (s : State) (url : Line) : State :=
  { s with repos := s.lines.filter (· ≠ url), rest := [] }

/-- `[[:space:]]`. -/
def isSpaceChar (c : Char) : Bool :=
  c == ' ' || (Char.ofNat 9 ≤ c && c ≤ Char.ofNat 13)

/-- The lines that are neither comments nor blank. -/
def packageLines (index : Index) : List Line :=
  (index.filter (·.head? != some '#')).filter fun line => !line.all isSpaceChar

/-- `grep -v '^#' | grep -v '^[[:space:]]*$'`. -/
def Device.visibleLines (d : Device) (index : Index) : List Line :=
  if d.isText index then packageLines index else d.oddGrep index

/-- What `*.list` matches: no name that starts with a dot. -/
def globbed (name : List Char) : Bool :=
  name.head? != some '.' && ".list".toList.isSuffixOf name

/-- The order in which the shell expands a pattern. -/
def nameLe (a b : List Char) : Bool := !b.lex a fun c d => decide (c < d)

/-- `all_cache_lines`: the files in the order of their names. -/
def Device.allCacheLines (d : Device) (s : State) : List Line :=
  ((s.cache.entries.filter (globbed ·.1)).mergeSort fun e f => nameLe e.1 f.1).flatMap
    (d.visibleLines ·.2)

/-- `$1`, `$2` and so on, with `-F'|'`. -/
def field (line : Line) (n : Nat) : Line := (line.splitOnP (· == '|')).getD (n - 1) []

def Device.findPkgLine (d : Device) (s : State) (name : Line) : Option Line :=
  (d.allCacheLines s).find? fun line =>
    d.awkEq (field line 1) name && d.awkEq (field line 2) d.arch

/-- The URL and the checksum of `cmd_install`. -/
def Device.cmdInstall (d : Device) (s : State) (name : Line) : Option (Line × Line) :=
  (d.findPkgLine s name).map fun line => (field (d.echo line) 4, field (d.echo line) 5)

/-! ## Runs -/

inductive Command
  | repoAdd (url : Url)
  | repoRemove (url : Url)
  | update (downloads : List (Option Index))

/-- A command; an update comes with one outcome for each repository of the list. -/
def Device.step (d : Device) (s : State) : Command → Option State
  | .repoAdd url => some (Pkg.repoAdd s url.text)
  | .repoRemove url => some (Pkg.repoRemove s url.text)
  | .update downloads =>
    if downloads.length = (s.repos.filter isRepo).length then some (d.cmdUpdate s downloads).1
    else none

/-- The newest download of a URL. -/
def latest (fetched : List (Line × Index)) (url : Line) : Option Index :=
  (fetched.find? (·.1 = url)).map Prod.snd

def State.Listed (s : State) (url : Line) : Prop := url ∈ s.lines ∧ isRepo url = true

/-- The line is in the most recent index of a repository that is listed now. -/
def State.FromListed (s : State) (line : Line) : Prop :=
  ∃ url index, s.Listed url ∧ latest s.fetched url = some index ∧ line ∈ index

/-- Nothing else is found, and nothing else is installed. -/
def Device.Trusted (d : Device) (s : State) : Prop :=
  (∀ name line, d.findPkgLine s name = some line → s.FromListed line) ∧
    ∀ name url sha, d.cmdInstall s name = some (url, sha) →
      ∃ line, s.FromListed line ∧ url = field (d.echo line) 4 ∧ sha = field (d.echo line) 5

/-- Every listed repository was downloaded and all its lines are there to be found. -/
def Device.Complete (d : Device) (s : State) : Prop :=
  ∀ url, s.Listed url → ∃ index, latest s.fetched url = some index ∧
    ∀ line ∈ packageLines index, line ∈ d.allCacheLines s

/-- A command leaves only configured repositories trusted, and an update without failures all of
    them complete. -/
def Device.Keeps (d : Device) (s : State) (c : Command) : Prop :=
  ∀ t, d.step s c = some t → d.Trusted t ∧
    ∀ downloads, c = .update downloads → (d.cmdUpdate s downloads).2 = 0 → d.Complete t

/-- An update that reads every line of the list, and stores what can be read. -/
structure CarefulUpdate (d : Device) (s : State) (downloads : List (Option Index)) : Prop where
  /-- curl would take an option for one, and could then do anything to the directory. -/
  urls : d.busybox = false → ∀ url ∈ s.repos, isRepo url = true → isOption url = false
  text : d.busybox = true → ∀ index, some index ∈ downloads → d.isText index = true
  /-- Without a busybox nothing can be found. -/
  found : none ∉ downloads → d.busybox = false →
    ∀ index, some index ∈ downloads → packageLines index = []
  /-- The last line is ended, or it is none that counts. -/
  ended : none ∉ downloads → isRepo s.rest = true → s.rest ∈ s.repos

/-- A repository is removed only while none of its lines is cached, and an update is a careful
    one. -/
def Device.Careful (d : Device) (s : State) : Command → Prop
  | .repoAdd _ => True
  | .repoRemove url => d.busybox = true → ∀ index,
      s.cache.get? (d.cacheFileForRepo url.text) = some index → packageLines index = []
  | .update downloads => CarefulUpdate d s downloads

/-! ## Reading the directory -/

theorem mem_lines {s : State} {line : Line} :
    line ∈ s.lines ↔ line ∈ s.repos ∨ (s.rest ≠ [] ∧ line = s.rest) := by
  unfold State.lines
  by_cases h : s.rest = []
  · simp [h]
  · simp [h]

theorem lines_of_rest {s : State} (h : s.rest = []) : s.lines = s.repos := by
  rw [State.lines, if_pos h]

theorem mem_allCacheLines {d : Device} {s : State} {line : Line} :
    line ∈ d.allCacheLines s ↔ ∃ name index, s.cache.get? name = some index ∧
      globbed name = true ∧ line ∈ d.visibleLines index := by
  unfold Device.allCacheLines
  rw [List.mem_flatMap]
  constructor
  · intro ⟨e, he, hline⟩
    rw [List.mem_mergeSort, List.mem_filter] at he
    exact ⟨e.1, e.2, LinkedMap.get?_eq_some.mpr he.1, he.2, hline⟩
  · intro ⟨name, index, hget, hglob, hline⟩
    refine ⟨(name, index), ?_, hline⟩
    rw [List.mem_mergeSort, List.mem_filter]
    exact ⟨LinkedMap.get?_eq_some.mp hget, hglob⟩

theorem allCacheLines_singleton {d : Device} {s : State} {name : List Char} {index : Index}
    (h : s.cache.entries = [(name, index)]) :
    d.allCacheLines s = if globbed name then d.visibleLines index else [] := by
  unfold Device.allCacheLines
  rw [h]
  cases hglob : globbed name with
  | true => simp [hglob]
  | false => simp [hglob]

theorem visibleLines_of_isText {d : Device} {index : Index} (h : d.isText index = true) :
    d.visibleLines index = packageLines index := by
  rw [Device.visibleLines, if_pos h]

theorem mem_of_mem_packageLines {index : Index} {line : Line} (h : line ∈ packageLines index) :
    line ∈ index :=
  List.mem_of_mem_filter (List.mem_of_mem_filter h)

theorem cacheFileForRepo_busybox {d : Device} (h : d.busybox = true) (url : Line) :
    d.cacheFileForRepo url = d.md5 url ++ ".list".toList := by
  rw [Device.cacheFileForRepo, if_pos h]

theorem cacheFileForRepo_curl {d : Device} (h : d.busybox = false) (url : Line) :
    d.cacheFileForRepo url = ".list".toList := by
  rw [Device.cacheFileForRepo, h, if_neg Bool.false_ne_true, List.nil_append]

theorem globbed_cacheFileForRepo {d : Device} (h : d.busybox = true) (url : Line) :
    globbed (d.cacheFileForRepo url) = true := by
  rw [cacheFileForRepo_busybox h, globbed, Bool.and_eq_true]
  constructor
  · obtain ⟨hlen, hhex⟩ := d.md5_hex url
    cases hmd5 : d.md5 url with
    | nil => simp [hmd5] at hlen
    | cons c cs =>
      have hc := hhex c (by simp [hmd5])
      rw [List.cons_append, List.head?_cons, bne_iff_ne, ne_eq, Option.some.injEq]
      intro hdot
      rw [hdot] at hc
      simp [isHexDigit] at hc
  · rw [List.isSuffixOf_iff_suffix]
    exact List.suffix_append _ _

theorem globbed_curl : globbed ".list".toList = false := by
  simp [globbed]

theorem cacheFileForRepo_injOn {d : Device} (h : d.busybox = true) {urls : Set Line}
    (hinj : Set.InjOn d.md5 urls) : Set.InjOn d.cacheFileForRepo urls := by
  intro u hu v hv heq
  rw [cacheFileForRepo_busybox h, cacheFileForRepo_busybox h] at heq
  exact hinj hu hv (List.append_cancel_right heq)

theorem latest_cons (e : Line × Index) (fetched : List (Line × Index)) (url : Line) :
    latest (e :: fetched) url = if e.1 = url then some e.2 else latest fetched url := by
  unfold latest
  rw [List.find?_cons]
  by_cases h : e.1 = url
  · simp [h]
  · simp [h]

/-- All that is found is in a file that is read, so what holds of those lines is enough. -/
theorem trusted_of_mem {d : Device} {s : State}
    (h : ∀ line ∈ d.allCacheLines s, s.FromListed line) : d.Trusted s := by
  have hfind : ∀ name line, d.findPkgLine s name = some line → s.FromListed line := by
    intro name line hline
    exact h line (List.mem_of_find?_eq_some hline)
  refine ⟨hfind, ?_⟩
  intro name url sha hinstall
  obtain ⟨line, hline, heq⟩ := Option.map_eq_some_iff.mp hinstall
  obtain ⟨hurl, hsha⟩ := Prod.mk.inj heq
  exact ⟨line, hfind name line hline, hurl.symm, hsha.symm⟩

/-! ## The loop of an update -/

/-- What every download keeps is kept by the loop. -/
theorem readRepos_keeps {d : Device} {I : State → Prop} {lines : List Line}
    {downloads : List (Option Index)} {s : State} (hs : I s)
    (hstore : ∀ t url index, I t → url ∈ lines → isRepo url = true → some index ∈ downloads →
      I (d.store t url index)) : I (d.readRepos lines downloads s).1 := by
  fun_induction Device.readRepos d lines downloads s with
  | case1 => exact hs
  | case2 => exact hs
  | case3 line lines s hrepo index downloads ih =>
    refine ih (hstore s line index hs List.mem_cons_self hrepo List.mem_cons_self) ?_
    intro t url index' ht hurl hrepo' hmem
    exact hstore t url index' ht (List.mem_cons_of_mem _ hurl) hrepo' (List.mem_cons_of_mem _ hmem)
  | case4 line lines s hrepo downloads ih =>
    refine ih hs ?_
    intro t url index' ht hurl hrepo' hmem
    exact hstore t url index' ht (List.mem_cons_of_mem _ hurl) hrepo' (List.mem_cons_of_mem _ hmem)
  | case5 line lines downloads s hrepo ih =>
    refine ih hs ?_
    intro t url index' ht hurl hrepo' hmem
    exact hstore t url index' ht (List.mem_cons_of_mem _ hurl) hrepo' hmem

theorem readRepos_failed {d : Device} {lines : List Line} {downloads : List (Option Index)}
    {s : State} (hlen : downloads.length = (lines.filter isRepo).length) :
    (d.readRepos lines downloads s).2 = downloads.count none := by
  fun_induction Device.readRepos d lines downloads s with
  | case1 =>
    rw [List.filter_nil, List.length_nil, List.length_eq_zero_iff] at hlen
    rw [hlen, List.count_nil]
  | case2 => rfl
  | case3 line lines s hrepo index downloads ih =>
    rw [List.filter_cons_of_pos hrepo, List.length_cons, List.length_cons,
      Nat.add_right_cancel_iff] at hlen
    rw [ih hlen, List.count_cons_of_ne (by simp)]
  | case4 line lines s hrepo downloads ih =>
    rw [List.filter_cons_of_pos hrepo, List.length_cons, List.length_cons,
      Nat.add_right_cancel_iff] at hlen
    rw [ih hlen, List.count_cons_self]
  | case5 line lines downloads s hrepo ih =>
    rw [List.filter_cons_of_neg hrepo] at hlen
    exact ih hlen

/-- The newest index of a repository is one of this update if a download of it is. -/
theorem latest_readRepos {d : Device} {P : Index → Prop} {lines : List Line}
    {downloads : List (Option Index)} {s : State} (hP : ∀ index, some index ∈ downloads → P index)
    {url : Line} (hs : ∃ index, latest s.fetched url = some index ∧ P index) :
    ∃ index, latest (d.readRepos lines downloads s).1.fetched url = some index ∧ P index := by
  refine readRepos_keeps (I := fun t => ∃ index, latest t.fetched url = some index ∧ P index)
    hs ?_
  intro t url' index' ⟨index, hlatest, hindex⟩ _ _ hmem
  show ∃ index, latest ((url', index') :: t.fetched) url = some index ∧ P index
  rw [latest_cons]
  split
  · exact ⟨index', rfl, hP index' hmem⟩
  · exact ⟨index, hlatest, hindex⟩

theorem readRepos_complete {d : Device} {P : Index → Prop} {lines : List Line}
    {downloads : List (Option Index)} {s : State}
    (hlen : downloads.length = (lines.filter isRepo).length) (hfailed : none ∉ downloads)
    (hP : ∀ index, some index ∈ downloads → P index) {url : Line} (hurl : url ∈ lines)
    (hrepo : isRepo url = true) :
    ∃ index, latest (d.readRepos lines downloads s).1.fetched url = some index ∧ P index := by
  fun_induction Device.readRepos d lines downloads s with
  | case1 => cases hurl
  | case2 line lines s hline =>
    rw [List.filter_cons_of_pos hline] at hlen
    cases hlen
  | case3 line lines s hline index downloads ih =>
    rw [List.filter_cons_of_pos hline, List.length_cons, List.length_cons,
      Nat.add_right_cancel_iff] at hlen
    have hP' : ∀ index, some index ∈ downloads → P index :=
      fun i hi => hP i (List.mem_cons_of_mem _ hi)
    rcases List.mem_cons.mp hurl with rfl | hurl
    · refine latest_readRepos hP' ⟨index, ?_, hP index List.mem_cons_self⟩
      show latest ((url, index) :: s.fetched) url = some index
      rw [latest_cons, if_pos rfl]
    · exact ih hlen (fun hmem => hfailed (List.mem_cons_of_mem _ hmem)) hP' hurl
  | case4 line lines s hline downloads ih => exact absurd List.mem_cons_self hfailed
  | case5 line lines downloads s hline ih =>
    rw [List.filter_cons_of_neg hline] at hlen
    rcases List.mem_cons.mp hurl with rfl | hurl
    · exact absurd hrepo hline
    · exact ih hlen hfailed hP hurl

theorem readRepos_repos (d : Device) (lines : List Line) (downloads : List (Option Index))
    (s : State) : (d.readRepos lines downloads s).1.repos = s.repos :=
  readRepos_keeps (I := fun t => t.repos = s.repos) rfl fun _ _ _ ht _ _ _ => ht

theorem readRepos_rest (d : Device) (lines : List Line) (downloads : List (Option Index))
    (s : State) : (d.readRepos lines downloads s).1.rest = s.rest :=
  readRepos_keeps (I := fun t => t.rest = s.rest) rfl fun _ _ _ ht _ _ _ => ht

theorem readRepos_lines (d : Device) (lines : List Line) (downloads : List (Option Index))
    (s : State) : (d.readRepos lines downloads s).1.lines = s.lines := by
  rw [State.lines, readRepos_repos, readRepos_rest, State.lines]

/-- All a step can do. An update of an empty list is one without lines. -/
theorem step_cases {d : Device} {s t : State} {c : Command} (h : d.step s c = some t) :
    (∃ url, c = .repoAdd url ∧ t = repoAdd s url.text) ∨
    (∃ url, c = .repoRemove url ∧ t = repoRemove s url.text) ∨
    ∃ downloads, c = .update downloads ∧ downloads.length = (s.repos.filter isRepo).length ∧
      d.cmdUpdate s downloads = d.readRepos s.repos downloads s ∧
      t = (d.readRepos s.repos downloads s).1 := by
  cases c with
  | repoAdd url => exact Or.inl ⟨url, rfl, (Option.some.inj h).symm⟩
  | repoRemove url => exact Or.inr (Or.inl ⟨url, rfl, (Option.some.inj h).symm⟩)
  | update downloads =>
    rw [Device.step] at h
    split at h <;> rename_i hlen
    · have hupdate : d.cmdUpdate s downloads = d.readRepos s.repos downloads s := by
        unfold Device.cmdUpdate
        split <;> rename_i hlines
        · have hrepos : s.repos = [] := by
            rw [List.eq_nil_iff_forall_not_mem]
            intro line hline
            have hmem := mem_lines.mpr (Or.inl hline)
            rw [hlines] at hmem
            cases hmem
          rw [hrepos, Device.readRepos]
        · rfl
      rw [hupdate, Option.some.injEq] at h
      exact Or.inr (Or.inr ⟨downloads, rfl, hlen, hupdate, h.symm⟩)
    · cases h

/-- An update without failures has downloaded an index of every repository on a line of its own,
    and what holds of the downloads holds of those. -/
theorem latest_of_update {d : Device} {s t : State} {downloads : List (Option Index)}
    (hstep : d.step s (.update downloads) = some t)
    (hfailed : (d.cmdUpdate s downloads).2 = 0) :
    none ∉ downloads ∧ ∀ P : Index → Prop, (∀ index, some index ∈ downloads → P index) →
      ∀ url ∈ s.repos, isRepo url = true →
        ∃ index, latest t.fetched url = some index ∧ P index := by
  rcases step_cases hstep with ⟨url, hc, -⟩ | ⟨url, hc, -⟩ | ⟨_, hc, hlen, hupdate, rfl⟩
  · cases hc
  · cases hc
  · cases hc
    rw [hupdate, readRepos_failed hlen, List.count_eq_zero] at hfailed
    refine ⟨hfailed, ?_⟩
    intro P hP url hmem hrepo
    exact readRepos_complete hlen hfailed hP hmem hrepo

/-- What is listed after a careful update without failures has its newest index downloaded. -/
theorem latest_of_careful {d : Device} {s t : State} {downloads : List (Option Index)}
    (hstep : d.step s (.update downloads) = some t)
    (hfailed : (d.cmdUpdate s downloads).2 = 0) (hcareful : CarefulUpdate d s downloads) :
    none ∉ downloads ∧ ∀ P : Index → Prop, (∀ index, some index ∈ downloads → P index) →
      ∀ url, t.Listed url → ∃ index, latest t.fetched url = some index ∧ P index := by
  obtain ⟨hnone, hlatest⟩ := latest_of_update hstep hfailed
  refine ⟨hnone, ?_⟩
  intro P hP url ⟨hmem, hrepo⟩
  have hmem : url ∈ s.lines := by
    rcases step_cases hstep with ⟨_, hc, -⟩ | ⟨_, hc, -⟩ | ⟨_, -, -, -, rfl⟩
    · cases hc
    · cases hc
    · rwa [readRepos_lines] at hmem
  rcases mem_lines.mp hmem with hmem | ⟨-, rfl⟩
  · exact hlatest P hP url hmem hrepo
  · exact hlatest P hP _ (hcareful.ended hnone hrepo) hrepo

theorem mem_repos_repoAdd {s : State} {url url' : Line} (h : url' ∈ s.repos) :
    url' ∈ (repoAdd s url).repos := by
  unfold repoAdd
  split
  · exact h
  · exact List.mem_append_left _ h

theorem mem_lines_of_repoAdd {s : State} {url url' : Line} (h : url' ∈ (repoAdd s url).lines) :
    url' ∈ s.lines ∨ url' = s.rest ++ url := by
  unfold repoAdd at h
  split at h
  · exact Or.inl h
  · rw [lines_of_rest rfl] at h
    rcases List.mem_append.mp h with hmem | hmem
    · exact Or.inl (mem_lines.mpr (Or.inl hmem))
    · exact Or.inr (List.mem_singleton.mp hmem)

theorem rest_repoAdd (s : State) (url : Line) :
    (repoAdd s url).rest = s.rest ∨ (repoAdd s url).rest = [] := by
  unfold repoAdd
  split
  · exact Or.inl rfl
  · exact Or.inr rfl

/-! ## With a busybox -/

/-- The directory is what was downloaded last, and what can be found in it is listed. `rest` is
    what stood behind the last newline at the start: nothing else ever does. -/
structure Inv (d : Device) (urls : Set Line) (rest : Line) (s : State) : Prop where
  listed : ∀ url, s.Listed url → url ∈ urls
  rest : s.rest = rest ∨ s.rest = []
  cached : ∀ url ∈ urls, s.cache.get? (d.cacheFileForRepo url) = latest s.fetched url
  named : ∀ name index, s.cache.get? name = some index →
    ∃ url ∈ urls, name = d.cacheFileForRepo url
  text : ∀ name index, s.cache.get? name = some index → d.isText index = true
  found : ∀ url ∈ urls, ∀ index, latest s.fetched url = some index → packageLines index ≠ [] →
    url ∈ s.repos ∧ isRepo url = true

variable {d : Device} {urls : Set Line} {rest : Line} {s : State}

theorem inv_initial {repos : List Line}
    (h : ∀ url, (State.initial repos rest).Listed url → url ∈ urls) :
    Inv d urls rest (State.initial repos rest) where
  listed := h
  rest := Or.inl rfl
  cached := fun _ _ => rfl
  named := by
    intro name index hget
    cases hget
  text := by
    intro name index hget
    cases hget
  found := by
    intro url _ index hlatest
    cases hlatest

theorem Inv.repoAdd (h : Inv d urls rest s) {url : Line} (hurl : url ∈ urls)
    (hrest : rest ++ url ∈ urls) : Inv d urls rest (repoAdd s url) := by
  have hcache : (Pkg.repoAdd s url).cache = s.cache := by
    unfold Pkg.repoAdd
    split <;> rfl
  have hfetched : (Pkg.repoAdd s url).fetched = s.fetched := by
    unfold Pkg.repoAdd
    split <;> rfl
  refine ⟨?_, ?_, ?_, ?_, ?_, ?_⟩
  · rintro url' ⟨hmem, hrepo⟩
    rcases mem_lines_of_repoAdd hmem with hmem | rfl
    · exact h.listed url' ⟨hmem, hrepo⟩
    · rcases h.rest with hsame | hnil
      · rw [hsame]
        exact hrest
      · rw [hnil]
        exact hurl
  · rcases rest_repoAdd s url with hsame | hnil
    · rw [hsame]
      exact h.rest
    · exact Or.inr hnil
  · rw [hcache, hfetched]
    exact h.cached
  · rw [hcache]
    exact h.named
  · rw [hcache]
    exact h.text
  · rw [hfetched]
    intro url' hurl' index hlatest hvisible
    obtain ⟨hmem, hrepo⟩ := h.found url' hurl' index hlatest hvisible
    exact ⟨mem_repos_repoAdd hmem, hrepo⟩

/-- A repository that leaves the list takes no line with it that can be found. -/
theorem Inv.repoRemove (h : Inv d urls rest s) {url : Line}
    (hcareful : ∀ index, s.cache.get? (d.cacheFileForRepo url) = some index →
      packageLines index = []) : Inv d urls rest (repoRemove s url) where
  listed := by
    intro url' ⟨hmem, hrepo⟩
    rw [lines_of_rest rfl] at hmem
    exact h.listed url' ⟨List.mem_of_mem_filter hmem, hrepo⟩
  rest := Or.inr rfl
  cached := h.cached
  named := h.named
  text := h.text
  found := by
    intro url' hurl' index hlatest hvisible
    obtain ⟨hmem, hrepo⟩ := h.found url' hurl' index hlatest hvisible
    refine ⟨List.mem_filter.mpr ⟨mem_lines.mpr (Or.inl hmem), ?_⟩, hrepo⟩
    rw [decide_eq_true_eq]
    intro heq
    rw [heq] at hurl' hlatest
    exact hvisible (hcareful index ((h.cached url hurl').trans hlatest))

/-- A download replaces the file of its own repository and no other. -/
theorem Inv.store (hinj : Set.InjOn d.cacheFileForRepo urls) (h : Inv d urls rest s) {url : Line}
    (hmem : url ∈ s.repos) (hrepo : isRepo url = true) {index : Index}
    (htext : d.isText index = true) : Inv d urls rest (d.store s url index) where
  listed := h.listed
  rest := h.rest
  cached := by
    intro url' hurl'
    show (s.cache.put _ index).get? _ = latest ((url, index) :: s.fetched) url'
    rw [LinkedMap.get?_put, latest_cons]
    by_cases heq : url = url'
    · rw [if_pos (by rw [heq]), if_pos heq]
    · have hlisted := h.listed url ⟨mem_lines.mpr (Or.inl hmem), hrepo⟩
      have hfile : d.cacheFileForRepo url' ≠ d.cacheFileForRepo url :=
        fun hfile => heq (hinj hurl' hlisted hfile).symm
      rw [if_neg hfile, if_neg heq]
      exact h.cached url' hurl'
  named := by
    intro name index' hget
    have hget : (s.cache.put (d.cacheFileForRepo url) index).get? name = some index' := hget
    rw [LinkedMap.get?_put] at hget
    split at hget <;> rename_i hname
    · exact ⟨url, h.listed url ⟨mem_lines.mpr (Or.inl hmem), hrepo⟩, hname⟩
    · exact h.named name index' hget
  text := by
    intro name index' hget
    have hget : (s.cache.put (d.cacheFileForRepo url) index).get? name = some index' := hget
    rw [LinkedMap.get?_put] at hget
    split at hget
    · cases hget
      exact htext
    · exact h.text name index' hget
  found := by
    intro url' hurl' index' hlatest hvisible
    have hlatest : latest ((url, index) :: s.fetched) url' = some index' := hlatest
    rw [latest_cons] at hlatest
    split at hlatest <;> rename_i heq
    · rw [← show url = url' from heq]
      exact ⟨hmem, hrepo⟩
    · exact h.found url' hurl' index' hlatest hvisible

theorem Inv.readRepos (hinj : Set.InjOn d.cacheFileForRepo urls) (h : Inv d urls rest s)
    {downloads : List (Option Index)}
    (htext : ∀ index, some index ∈ downloads → d.isText index = true) :
    Inv d urls rest (d.readRepos s.repos downloads s).1 := by
  have hkeep : Inv d urls rest (d.readRepos s.repos downloads s).1 ∧
      (d.readRepos s.repos downloads s).1.repos = s.repos := by
    refine readRepos_keeps (I := fun t => Inv d urls rest t ∧ t.repos = s.repos) ⟨h, rfl⟩ ?_
    intro t url index ⟨ht, hrepos⟩ hmem hrepo hindex
    exact ⟨ht.store hinj (by rw [hrepos]; exact hmem) hrepo (htext index hindex), hrepos⟩
  exact hkeep.1

/-- **Only configured repositories** are read, in every state of this kind. -/
theorem Inv.trusted (h : Inv d urls rest s) : d.Trusted s := by
  apply trusted_of_mem
  intro line hline
  obtain ⟨name, index, hget, -, hvisible⟩ := mem_allCacheLines.mp hline
  rw [visibleLines_of_isText (h.text name index hget)] at hvisible
  obtain ⟨url, hurl, rfl⟩ := h.named name index hget
  rw [h.cached url hurl] at hget
  obtain ⟨hmem, hrepo⟩ := h.found url hurl index hget (List.ne_nil_of_mem hvisible)
  exact ⟨url, index, ⟨mem_lines.mpr (Or.inl hmem), hrepo⟩, hget, mem_of_mem_packageLines hvisible⟩

theorem Inv.complete (hbusybox : d.busybox = true) (h : Inv d urls rest s)
    (hlatest : ∀ url, s.Listed url → ∃ index, latest s.fetched url = some index) :
    d.Complete s := by
  intro url hlisted
  obtain ⟨index, hindex⟩ := hlatest url hlisted
  have hget : s.cache.get? (d.cacheFileForRepo url) = some index := by
    rw [h.cached url (h.listed url hlisted), hindex]
  refine ⟨index, hindex, ?_⟩
  intro line hline
  rw [mem_allCacheLines]
  refine ⟨_, index, hget, globbed_cacheFileForRepo hbusybox url, ?_⟩
  rw [visibleLines_of_isText (h.text _ index hget)]
  exact hline

/-- The line that a command can add to the list. -/
def Command.AddsTo (urls : Set Line) (rest : Line) : Command → Prop
  | .repoAdd url => url.text ∈ urls ∧ rest ++ url.text ∈ urls
  | _ => True

theorem Inv.step (hbusybox : d.busybox = true) (hinj : Set.InjOn d.cacheFileForRepo urls)
    {c : Command} {t : State} (h : Inv d urls rest s) (hcareful : d.Careful s c)
    (hurls : c.AddsTo urls rest) (hstep : d.step s c = some t) : Inv d urls rest t := by
  rcases step_cases hstep with ⟨url, rfl, rfl⟩ | ⟨url, rfl, rfl⟩ | ⟨downloads, rfl, -, -, rfl⟩
  · exact h.repoAdd hurls.1 hurls.2
  · exact h.repoRemove (hcareful hbusybox)
  · exact h.readRepos hinj (hcareful.text hbusybox)

theorem Inv.keeps (hbusybox : d.busybox = true) (hinj : Set.InjOn d.cacheFileForRepo urls)
    {c : Command} (h : Inv d urls rest s) (hcareful : d.Careful s c) (hurls : c.AddsTo urls rest) :
    d.Keeps s c := by
  intro t hstep
  have ht : Inv d urls rest t := h.step hbusybox hinj hcareful hurls hstep
  refine ⟨ht.trusted, ?_⟩
  rintro downloads rfl hfailed
  refine ht.complete hbusybox ?_
  intro url hlisted
  obtain ⟨-, hlatest⟩ := latest_of_careful hstep hfailed hcareful
  obtain ⟨index, hindex, -⟩ := hlatest (fun _ => True) (fun _ _ => trivial) url hlisted
  exact ⟨index, hindex⟩

/-! ## With curl only -/

/-- Every download went to the same file, which is not among those that are read. -/
def Hidden (s : State) : Prop :=
  ∀ name index, s.cache.get? name = some index → name = ".list".toList

theorem Hidden.allCacheLines (h : Hidden s) : d.allCacheLines s = [] := by
  rw [List.eq_nil_iff_forall_not_mem]
  intro line hline
  obtain ⟨name, index, hget, hglob, -⟩ := mem_allCacheLines.mp hline
  rw [h name index hget, globbed_curl] at hglob
  cases hglob

theorem Hidden.trusted (h : Hidden s) : d.Trusted s := by
  apply trusted_of_mem
  intro line hline
  rw [h.allCacheLines] at hline
  cases hline

theorem Hidden.step (hcurl : d.busybox = false) {c : Command} {t : State} (h : Hidden s)
    (hstep : d.step s c = some t) : Hidden t := by
  rcases step_cases hstep with ⟨url, -, rfl⟩ | ⟨url, -, rfl⟩ | ⟨downloads, -, -, -, rfl⟩
  · unfold Pkg.repoAdd
    split
    · exact h
    · exact h
  · exact h
  · refine readRepos_keeps (I := Hidden) h ?_
    intro t url index ht _ _ _ name index' hget
    have hget : (t.cache.put (d.cacheFileForRepo url) index).get? name = some index' := hget
    rw [LinkedMap.get?_put] at hget
    split at hget <;> rename_i hname
    · rw [hname, cacheFileForRepo_curl hcurl]
    · exact ht name index' hget

theorem Hidden.keeps (hcurl : d.busybox = false) {c : Command} (h : Hidden s)
    (hcareful : d.Careful s c) : d.Keeps s c := by
  intro t hstep
  have ht : Hidden t := h.step hcurl hstep
  refine ⟨ht.trusted, ?_⟩
  rintro downloads rfl hfailed
  have hcareful : CarefulUpdate d s downloads := hcareful
  obtain ⟨hnone, hlatest⟩ := latest_of_careful hstep hfailed hcareful
  have hempty := hcareful.found hnone hcurl
  intro url hlisted
  obtain ⟨index, hindex, hlines⟩ := hlatest _ hempty url hlisted
  refine ⟨index, hindex, ?_⟩
  intro line hline
  rw [hlines] at hline
  cases hline

/-! ## Whole runs -/

/-- The repositories of a run: those that are listed at its start and those it adds, which may go
    on with a last line that is not ended. -/
def repoUrls (repos : List Line) (rest : Line) (commands : List Command) : Set Line :=
  fun url => (State.initial repos rest).Listed url ∨
    ∃ u : Url, .repoAdd u ∈ commands ∧ (u.text = url ∨ rest ++ u.text = url)

theorem addsTo_repoUrls (repos : List Line) (rest : Line) (commands : List Command) :
    ∀ c ∈ commands, c.AddsTo (repoUrls repos rest commands) rest := by
  intro c hc
  cases c with
  | repoAdd url => exact ⟨Or.inr ⟨url, hc, Or.inl rfl⟩, Or.inr ⟨url, hc, Or.inr rfl⟩⟩
  | repoRemove url => trivial
  | update downloads => trivial

/-- The digests of two repositories. -/
def phoneMd5 (url : Line) : List Char :=
  if url = "http://a/i".toList then "fba38f1de665".toList else "ea8236de7fb1".toList

def phone (busybox : Bool) : Device where
  busybox := busybox
  arch := "arm64".toList
  md5 := phoneMd5
  md5_hex := by
    intro url
    unfold phoneMd5
    split
    · simp [isHexDigit]
    · simp [isHexDigit]
  awkEq := fun a b => a == b
  echo := id
  isText := isAsciiText
  isText_ascii := fun _ h => h
  oddGrep := fun _ => []

/-- An index with one package. -/
def onePackage : Index := ["jq|arm64|1.7|http://a/jq|00|jq".toList]

def otherRepo : Url := ⟨"http://b/i".toList, by simp⟩

theorem phoneMd5_ne : phoneMd5 "http://a/i".toList ≠ phoneMd5 "http://b/i".toList := by
  unfold phoneMd5
  rw [if_pos rfl, if_neg (by simp)]
  simp

theorem visibleLines_onePackage (busybox : Bool) :
    (phone busybox).visibleLines onePackage = onePackage := by
  rw [visibleLines_of_isText (show isAsciiText onePackage = true by decide)]
  decide

end Sshd4a.Pkg
