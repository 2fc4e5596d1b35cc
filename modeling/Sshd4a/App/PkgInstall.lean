import Sshd4a.App.PkgRepo
import Sshd4a.Lib.FileTree
import Sshd4a.Lib.Utf8

/-!
# Installing a package (`assets/pkg`)

`cmd_install` takes the fields of the index line that it finds, downloads to
`$BIN/.<install_name>.download`, compares checksums and moves the file to `$BIN/<install_name>`. The
line is not trusted, and three of its fields are used as they are. `install_name` is spliced into
two paths. `sha256` is compared with what `busybox sha256sum` printed, which is nothing if there is
no busybox, so that an empty field matches every file. And the URL is an argument of the downloader,
where curl would take an option, and where it looks for patterns: what a pattern in the URL stands
for replaces `#1` in the path of the output.

All fields go through `echo` and `awk` first. `echo` may expand a backslash, and to a text of more
than one line `awk` answers with more than one, so `awkPrint` and `gotSha` say what a `$( )` around
such a pipeline comes to.

Files carry a time next to their content. It tells a file from another one with the same bytes that
was put in its place.
-/

namespace Sshd4a.Pkg

open Text FileTree

/-! ## Files and tools -/

/-- A file: its bytes, and when it was written. -/
structure File where
  bytes : Bytes
  mtime : Nat
deriving DecidableEq, Repr

abbrev Disk := Volume File

/-- SHA-256, as the tool prints it. -/
structure Sha256 where
  hex : Bytes → List Char
  hex_digits : ∀ bytes, (hex bytes).length = 64 ∧ ∀ c ∈ hex bytes, isHexDigit c = true

/-- `$BIN`. -/
def bin : List Char := "/data/local/tmp/Sshd4a/bin".toList

/-- The place of `$BIN`. -/
def binPlace : Place :=
  ["bin".toList, "Sshd4a".toList, "tmp".toList, "local".toList, "data".toList]

/-- A place below `$BIN`. -/
def InBin (p : Place) : Prop := ∃ name names, p = name :: (names ++ binPlace)

/-- The lines that a pipeline prints, as `$( )` makes them into one text. -/
def commandSubstitution (printed : List Line) : Line :=
  (unlines '\n' printed).rdropWhile (· == '\n')

/-- `$(echo "$line" | awk -F'|' '{print $n}')`, for what `echo` prints. -/
def awkPrint (text : List Char) (n : Nat) : Line :=
  commandSubstitution ((textLines '\n' (text ++ ['\n'])).map (field · n))

/-- `$1` of awk, between blanks. -/
def firstField (line : Line) : Line :=
  (tokens (fun c => c == ' ' || c == '\t') line).headD []

/-- `$(busybox sha256sum "$tmp" | awk '{print $1}')`, for the bytes of a file at that path. -/
def Device.gotSha (d : Device) (sha : Sha256) (path : List Char) : Option Bytes → Line
  | none => []
  | some bytes =>
    if d.busybox then
      commandSubstitution
        ((textLines '\n' (sha.hex bytes ++ (' ' :: ' ' :: (path ++ ['\n'])))).map firstField)
    else []

/-- The bytes of the file that a path leads to. -/
def readFile (t : Disk) (path : List Char) : Option Bytes :=
  ((resolve t path).bind (contentAt t)).map File.bytes

/-! ## `cmd_install` -/

/-- The variables that `cmd_install` sets from the line it found. -/
structure Package where
  url : Line
  sha : Line
  installName : Line
deriving DecidableEq, Repr

def Device.package (d : Device) (line : Line) : Package where
  url := awkPrint (d.echo line) 4
  sha := awkPrint (d.echo line) 5
  installName := awkPrint (d.echo line) 6

/-- `$BIN/$install_name`. -/
def Package.path (pkg : Package) : List Char := bin ++ '/' :: pkg.installName

/-- `$tmp`. -/
def Package.tmp (pkg : Package) : List Char :=
  bin ++ '/' :: '.' :: (pkg.installName ++ ".download".toList)

/-- How a download goes. -/
inductive Outcome
  | done (bytes : Bytes) (now : Nat)
  /-- With the part that was written, if the output was opened. -/
  | failed (written : Option File)

/-- The characters of the patterns that curl looks for in a URL. -/
def isGlob (c : Char) : Bool := c == '{' || c == '}' || c == '[' || c == ']'

/-- curl: for which URLs and paths `"$1" -o "$2"` can make it do anything but to write that path. It
    does not if the URL is no option, and either has no pattern or finds no `#` in the path to put
    what that stands for. Otherwise it depends on what the option or the pattern is: `-K` can tell it
    to do anything, and nothing comes of `--`. -/
structure Curl where
  elsewhere : Line → List Char → Bool
  elsewhere_plain : ∀ url path, isOption url = false → url.any isGlob = false ∨ '#' ∉ path →
    elsewhere url path = false

/-- What the world does while a package is installed: the download, and what curl does where it is
    not bound to its output path. -/
structure World where
  outcome : Outcome
  anything : Disk × Bool

/-- `download "$url" "$tmp"`: the disk, and whether it succeeded. -/
def Device.download (d : Device) (curl : Curl) (t : Disk) (pkg : Package) (world : World) :
    Disk × Bool :=
  if !d.busybox && curl.elsewhere pkg.url pkg.tmp then world.anything
  -- there is no URL, and nothing is written
  else if isOption pkg.url then (t, false)
  else
    match resolve t pkg.tmp with
    | none => (t, false)
    | some p =>
      if isDir t p then (t, false)
      else
        match world.outcome with
        | .done bytes now => (write t p ⟨bytes, now⟩, true)
        | .failed (some file) => (write t p file, false)
        | .failed none => (t, false)

/-- `pkg_status` is `system:…`, and there is no `--force`. -/
def Package.skipped (t : Disk) (system : Line → Bool) (force : Bool) (pkg : Package) : Bool :=
  (match resolve t pkg.path with
    | none => true
    | some p => (t p).isNone) && system pkg.installName && !force

/-- The part of `cmd_install` behind the messages. -/
def Device.fetch (d : Device) (curl : Curl) (sha : Sha256) (t : Disk) (pkg : Package)
    (world : World) : Disk :=
  let (t, ok) := d.download curl t pkg world
  if ok && (d.gotSha sha pkg.tmp (readFile t pkg.tmp) == pkg.sha) then
    match resolve t pkg.tmp with
    | none => t
    | some p => move t p (resolve t pkg.path)
  else removeFile t (resolve t pkg.tmp)

/-- `cmd_install`, as far as it goes to the disk. `system` says for which names `command -v` finds
    something. -/
def Device.install (d : Device) (curl : Curl) (sha : Sha256) (system : Line → Bool) (force : Bool)
    (s : State) (t : Disk) (name : Line) (world : World) : Disk :=
  if name = [] then t
  else
    match d.findPkgLine s name with
    | none => t
    | some line =>
      if (d.package line).skipped t system force then t else d.fetch curl sha t (d.package line) world

/-! ## Containment, and when it holds -/

/-- An installation is contained and verified, however the download goes. -/
structure Contained (d : Device) (curl : Curl) (sha : Sha256) (system : Line → Bool) (force : Bool)
    (s : State) (t : Disk) (name : Line) : Prop where
  /-- Nothing changes outside `$BIN`, and nothing in it but the two files. -/
  changed : ∀ world p, d.install curl sha system force s t name world p ≠ t p →
    InBin p ∧ ∃ line, d.findPkgLine s name = some line ∧
      (resolve t (d.package line).path = some p ∨ resolve t (d.package line).tmp = some p)
  /-- The temporary file is gone. -/
  gone : ∀ world line p, d.findPkgLine s name = some line →
    resolve t (d.package line).tmp = some p →
    d.install curl sha system force s t name world p ≠ t p →
    d.install curl sha system force s t name world p = none
  /-- The installed file has the checksum of the index line. -/
  verified : ∀ world line p, d.findPkgLine s name = some line →
    resolve t (d.package line).path = some p →
    d.install curl sha system force s t name world p ≠ t p →
    ∃ bytes now, world.outcome = .done bytes now ∧ sha.hex bytes = field line 5

/-- What has to be true of a line, on a disk, for that. -/
structure Safe (d : Device) (curl : Curl) (sha : Sha256) (t : Disk) (line : Line) : Prop where
  /-- curl is bound to its output path. -/
  url : d.busybox = false → curl.elsewhere (d.package line).url (d.package line).tmp = false
  /-- If the temporary file can be written, it is in `$BIN`, or there was none. -/
  temporary : ∀ p, resolve t (d.package line).tmp = some p → isDir t p = false →
    InBin p ∨ t p = none
  /-- A file that passes has the checksum in the line, and can be put in its place. -/
  passed : ∀ p bytes, resolve t (d.package line).tmp = some p → isDir t p = false →
    isOption (d.package line).url = false →
    d.gotSha sha (d.package line).tmp (some bytes) = (d.package line).sha →
    sha.hex bytes = field line 5 ∧
      ∃ q, resolve t (d.package line).path = some q ∧ isDir t q = false ∧ InBin q

/-! ## What an installation can do to the disk -/

section
variable {d : Device} {curl : Curl} {sha : Sha256} {t : Disk} {pkg : Package} {world : World} {p q : Place}

/-- The temporary file is never the installed one: its name is longer. -/
theorem tmp_ne_path (hp : resolve t pkg.tmp = some p) (hfile : isDir t p = false)
    (hq : resolve t pkg.path = some q) : p ≠ q := by
  intro heq
  subst heq
  have hext : '/' ∉ ".download".toList := by decide
  obtain ⟨cs, c, hname, happ⟩ := components_append hext pkg.installName
  obtain ⟨cs', c', hcons, hc'⟩ := components_cons (by decide : '.' ≠ '/') happ
  have hlong := (resolve_last hcons hp).resolve_left (by rw [hfile]; exact Bool.false_ne_true)
  have hshort := (resolve_last hname hq).resolve_left (by rw [hfile]; exact Bool.false_ne_true)
  have hsame : c' = c := Option.some.inj (hlong.symm.trans hshort)
  have hlen := congrArg List.length hsame
  rcases hc' with hc' | hc'
  · rw [hc', List.length_append, show ".download".toList.length = 9 from rfl] at hlen
    omega
  · rw [hc', List.length_cons, List.length_append, show ".download".toList.length = 9 from rfl]
      at hlen
    omega

theorem readFile_write (hp : resolve t pkg.tmp = some p) (hfile : isDir t p = false) (file : File) :
    readFile (write t p file) pkg.tmp = some file.bytes := by
  rw [readFile, resolve_congr (isDir_write hfile file), hp, Option.bind_some, contentAt, write,
    Function.update_self]
  rfl

theorem removeFile_write (hfile : isDir t p = false) (file : File) :
    removeFile (write t p file) (some p) = removeFile t (some p) := by
  rw [removeFile_of_not_isDir hfile, removeFile_of_not_isDir ((isDir_write hfile file p).trans hfile),
    write, Function.update_idem]

/-- curl does nothing else than the other downloader. -/
theorem download_eq (hurl : d.busybox = false → curl.elsewhere pkg.url pkg.tmp = false) :
    d.download curl t pkg world =
      if isOption pkg.url then (t, false)
      else
        match resolve t pkg.tmp with
        | none => (t, false)
        | some p =>
          if isDir t p then (t, false)
          else
            match world.outcome with
            | .done bytes now => (write t p ⟨bytes, now⟩, true)
            | .failed (some file) => (write t p file, false)
            | .failed none => (t, false) := by
  have hbound : (!d.busybox && curl.elsewhere pkg.url pkg.tmp) = false := by
    cases hbusybox : d.busybox with
    | true => rfl
    | false =>
      rw [hurl hbusybox]
      rfl
  rw [Device.download, hbound, if_neg Bool.false_ne_true]

/-- All that `download` can do when curl is bound to its output path. -/
theorem download_cases (world : World)
    (hurl : d.busybox = false → curl.elsewhere pkg.url pkg.tmp = false) :
    d.download curl t pkg world = (t, false) ∨
      ∃ p file, resolve t pkg.tmp = some p ∧ isDir t p = false ∧ isOption pkg.url = false ∧
        (d.download curl t pkg world = (write t p file, false) ∨
          (world.outcome = .done file.bytes file.mtime ∧
            d.download curl t pkg world = (write t p file, true))) := by
  rw [download_eq hurl]
  cases hoption : isOption pkg.url with
  | true =>
    rw [if_pos rfl]
    exact Or.inl rfl
  | false =>
    rw [if_neg Bool.false_ne_true]
    cases hp : resolve t pkg.tmp with
    | none => exact Or.inl rfl
    | some p =>
      dsimp only
      cases hfile : isDir t p with
      | true =>
        rw [if_pos rfl]
        exact Or.inl rfl
      | false =>
        rw [if_neg Bool.false_ne_true]
        cases world.outcome with
        | done bytes now => exact Or.inr ⟨p, ⟨bytes, now⟩, rfl, hfile, rfl, Or.inr ⟨rfl, rfl⟩⟩
        | failed written =>
          cases written with
          | none => exact Or.inl rfl
          | some file => exact Or.inr ⟨p, file, rfl, hfile, rfl, Or.inl rfl⟩

/-- **All that an installation can do** when curl is bound to its output path: remove the temporary
    file, or move a file that passed. -/
theorem fetch_cases (sha : Sha256) (world : World)
    (hurl : d.busybox = false → curl.elsewhere pkg.url pkg.tmp = false) :
    d.fetch curl sha t pkg world = removeFile t (resolve t pkg.tmp) ∨
      ∃ p bytes now, resolve t pkg.tmp = some p ∧ isDir t p = false ∧ isOption pkg.url = false ∧
        world.outcome = .done bytes now ∧ d.gotSha sha pkg.tmp (some bytes) = pkg.sha ∧
        d.fetch curl sha t pkg world = move (write t p ⟨bytes, now⟩) p (resolve t pkg.path) := by
  unfold Device.fetch
  rcases download_cases world hurl with
    hdown | ⟨p, file, hp, hfile, hoption, hdown | ⟨hdone, hdown⟩⟩
  · rw [hdown]
    exact Or.inl rfl
  · rw [hdown]
    left
    show removeFile (write t p file) (resolve (write t p file) pkg.tmp) = _
    rw [resolve_congr (isDir_write hfile file), hp, removeFile_write hfile]
  · rw [hdown]
    dsimp only
    rw [readFile_write hp hfile, resolve_congr (isDir_write hfile file),
      resolve_congr (isDir_write hfile file), hp, Bool.true_and]
    by_cases hsha : d.gotSha sha pkg.tmp (some file.bytes) = pkg.sha
    · right
      refine ⟨p, file.bytes, file.mtime, rfl, hfile, hoption, hdone, hsha, ?_⟩
      rw [if_pos (beq_iff_eq.mpr hsha)]
    · left
      rw [if_neg (by simpa using hsha), removeFile_write hfile]

/-- A file that passes is moved. -/
theorem fetch_passed (hurl : d.busybox = false → curl.elsewhere pkg.url pkg.tmp = false)
    (hp : resolve t pkg.tmp = some p) (hfile : isDir t p = false)
    (hoption : isOption pkg.url = false) {bytes : Bytes} {now : Nat}
    (hdone : world.outcome = .done bytes now)
    (hsha : d.gotSha sha pkg.tmp (some bytes) = pkg.sha) :
    d.fetch curl sha t pkg world = move (write t p ⟨bytes, now⟩) p (resolve t pkg.path) := by
  have hdown : d.download curl t pkg world = (write t p ⟨bytes, now⟩, true) := by
    rw [download_eq hurl]
    simp only [hoption, hp, hfile, hdone, Bool.false_eq_true, if_false]
  unfold Device.fetch
  rw [hdown]
  dsimp only
  rw [readFile_write hp hfile, resolve_congr (isDir_write hfile _),
    resolve_congr (isDir_write hfile _), hp, Bool.true_and, if_pos (beq_iff_eq.mpr hsha)]

/-- A download that fails at once leaves no temporary file. -/
theorem fetch_failed (hurl : d.busybox = false → curl.elsewhere pkg.url pkg.tmp = false)
    (hfailed : world.outcome = .failed none) :
    d.fetch curl sha t pkg world = removeFile t (resolve t pkg.tmp) := by
  rcases fetch_cases sha world hurl with h | ⟨p, bytes, now, -, -, -, hdone, -⟩
  · exact h
  · rw [hfailed] at hdone
    cases hdone

/-- A file put in the place of nothing or of an older one. -/
theorem exists_now (x y : Option (Node File)) (bytes : Bytes) :
    ∃ now, x ≠ some (.file ⟨bytes, now⟩) ∧ y ≠ some (.file ⟨bytes, now⟩) := by
  have htime : ∀ z : Option (Node File), ∃ n, ∀ now, n < now → z ≠ some (.file ⟨bytes, now⟩) := by
    intro z
    cases z with
    | none => exact ⟨0, fun now _ h => by cases h⟩
    | some node =>
      cases node with
      | dir => exact ⟨0, fun now _ h => by cases h⟩
      | file old =>
        refine ⟨old.mtime, ?_⟩
        intro now hlt h
        cases h
        exact Nat.lt_irrefl _ hlt
  obtain ⟨n, hn⟩ := htime x
  obtain ⟨m, hm⟩ := htime y
  exact ⟨n + m + 1, hn _ (by omega), hm _ (by omega)⟩

theorem removeFile_changed {r : Place} (h : removeFile t (resolve t pkg.tmp) r ≠ t r) :
    resolve t pkg.tmp = some r ∧ isDir t r = false ∧ t r ≠ none ∧
      removeFile t (resolve t pkg.tmp) r = none := by
  cases hp : resolve t pkg.tmp with
  | none =>
    rw [hp] at h
    exact absurd rfl h
  | some p =>
    rw [hp] at h
    cases hdir : isDir t p with
    | true =>
      rw [removeFile_of_isDir hdir] at h
      exact absurd rfl h
    | false =>
      rw [removeFile_of_not_isDir hdir] at h ⊢
      by_cases hr : r = p
      · subst hr
        rw [Function.update_self] at h ⊢
        exact ⟨rfl, hdir, h.symm, rfl⟩
      · rw [Function.update_of_ne hr] at h
        exact absurd rfl h

/-- What a safe line changes: the temporary file, or the installed one once it is verified. -/
theorem Safe.changed {line : Line} (h : Safe d curl sha t line) (world : World) {r : Place}
    (hr : d.fetch curl sha t (d.package line) world r ≠ t r) :
    InBin r ∧
      ((resolve t (d.package line).tmp = some r ∧ resolve t (d.package line).path ≠ some r ∧
          d.fetch curl sha t (d.package line) world r = none) ∨
        (resolve t (d.package line).path = some r ∧ resolve t (d.package line).tmp ≠ some r ∧
          ∃ bytes now, world.outcome = .done bytes now ∧ sha.hex bytes = field line 5)) := by
  rcases fetch_cases sha world h.url with
    hfetch | ⟨p, bytes, now, hp, hfile, hoption, hdone, hsha, hfetch⟩
  · rw [hfetch] at hr ⊢
    obtain ⟨htmp, hdir, hsome, hnone⟩ := removeFile_changed hr
    refine ⟨(h.temporary r htmp hdir).resolve_right hsome, Or.inl ⟨htmp, ?_, hnone⟩⟩
    intro hpath
    exact tmp_ne_path htmp hdir hpath rfl
  · obtain ⟨hhex, q, hq, hqfile, hqbin⟩ := h.passed p bytes hp hfile hoption hsha
    have hpq : p ≠ q := tmp_ne_path hp hfile hq
    have hqfile' : isDir (write t p ⟨bytes, now⟩) q = false :=
      (isDir_write hfile _ q).trans hqfile
    rw [hfetch, hq, move_of_not_isDir hqfile' hpq.symm] at hr ⊢
    by_cases hrp : r = p
    · subst hrp
      rw [Function.update_self] at hr
      refine ⟨(h.temporary r hp hfile).resolve_right hr.symm, Or.inl ⟨hp, ?_, ?_⟩⟩
      · intro heq
        exact hpq (Option.some.inj heq).symm
      · rw [Function.update_self]
    · rw [Function.update_of_ne hrp] at hr
      by_cases hrq : r = q
      · subst hrq
        refine ⟨hqbin, Or.inr ⟨rfl, ?_, bytes, now, hdone, hhex⟩⟩
        intro heq
        exact hrp (Option.some.inj (hp.symm.trans heq)).symm
      · rw [Function.update_of_ne hrq, write, Function.update_of_ne hrp] at hr
        exact absurd rfl hr

/-! ## The condition -/

variable {system : Line → Bool} {force : Bool} {s : State} {name line : Line}

theorem install_eq_fetch (hname : name ≠ []) (hline : d.findPkgLine s name = some line)
    (hskip : (d.package line).skipped t system force = false) (world : World) :
    d.install curl sha system force s t name world = d.fetch curl sha t (d.package line) world := by
  rw [Device.install, if_neg hname, hline]
  dsimp only
  rw [hskip, if_neg Bool.false_ne_true]

/-- What an installation changes, it changes for a line that it did not skip. -/
theorem install_changed {r : Place} (h : d.install curl sha system force s t name world r ≠ t r) :
    ∃ line, name ≠ [] ∧ d.findPkgLine s name = some line ∧
      (d.package line).skipped t system force = false ∧
      d.install curl sha system force s t name world = d.fetch curl sha t (d.package line) world := by
  by_cases hname : name = []
  · rw [Device.install, if_pos hname] at h
    exact absurd rfl h
  · cases hline : d.findPkgLine s name with
    | none =>
      rw [Device.install, if_neg hname, hline] at h
      exact absurd rfl h
    | some line =>
      cases hskip : (d.package line).skipped t system force with
      | true =>
        rw [Device.install, if_neg hname, hline] at h
        dsimp only at h
        rw [hskip, if_pos rfl] at h
        exact absurd rfl h
      | false => exact ⟨line, hname, rfl, hskip, install_eq_fetch hname hline hskip world⟩

theorem install_changed_line {r : Place} (hline : d.findPkgLine s name = some line)
    (h : d.install curl sha system force s t name world r ≠ t r) :
    name ≠ [] ∧ (d.package line).skipped t system force = false ∧
      d.install curl sha system force s t name world = d.fetch curl sha t (d.package line) world := by
  obtain ⟨line', hname, hline', hskip, heq⟩ := install_changed h
  obtain rfl : line = line' := Option.some.inj (hline.symm.trans hline')
  exact ⟨hname, hskip, heq⟩

theorem contained_of_safe (h : ∀ line, name ≠ [] → d.findPkgLine s name = some line →
    (d.package line).skipped t system force = false → Safe d curl sha t line) :
    Contained d curl sha system force s t name where
  changed := by
    intro world r hr
    obtain ⟨line, hname, hline, hskip, heq⟩ := install_changed hr
    rw [heq] at hr
    obtain ⟨hbin, ⟨htmp, -⟩ | ⟨hpath, -⟩⟩ := (h line hname hline hskip).changed world hr
    · exact ⟨hbin, line, hline, Or.inr htmp⟩
    · exact ⟨hbin, line, hline, Or.inl hpath⟩
  gone := by
    intro world line r hline htmp hr
    obtain ⟨hname, hskip, heq⟩ := install_changed_line hline hr
    rw [heq] at hr ⊢
    obtain ⟨-, ⟨-, -, hnone⟩ | ⟨-, hne, -⟩⟩ := (h line hname hline hskip).changed world hr
    · exact hnone
    · exact absurd htmp hne
  verified := by
    intro world line r hline hpath hr
    obtain ⟨hname, hskip, heq⟩ := install_changed_line hline hr
    rw [heq] at hr
    obtain ⟨-, ⟨-, hne, -⟩ | ⟨-, -, hverified⟩⟩ := (h line hname hline hskip).changed world hr
    · exact absurd hpath hne
    · exact hverified

/-- A disk without a root, on which every path ends at once, and which is not `t`. -/
def rootless (t : Disk) : Disk :=
  Function.update (fun _ => none) [['x']] (if (t [['x']]).isNone then some .dir else none)

theorem rootless_ne (t : Disk) : rootless t [['x']] ≠ t [['x']] := by
  rw [rootless, Function.update_self]
  cases t [['x']] with
  | none => simp
  | some node => simp

theorem resolve_rootless (t : Disk) (pkg : Package) : resolve (rootless t) pkg.tmp = none := by
  have hroot : isDir (rootless t) [] = false := rfl
  rw [resolve, Package.tmp, components_append_slash]
  cases hbin : components bin with
  | nil => exact absurd hbin (List.splitOnP_ne_nil _ _)
  | cons c cs => rw [List.cons_append, walk, hroot, if_neg Bool.false_ne_true]

theorem length_of_inBin (h : InBin p) : 6 ≤ p.length := by
  obtain ⟨name, names, rfl⟩ := h
  rw [List.length_cons, List.length_append, show binPlace.length = 5 from rfl]
  omega

/-- A place that changes is one of the two of the line. -/
theorem Contained.place (h : Contained d curl sha system force s t name)
    (hline : d.findPkgLine s name = some line) {r : Place}
    (hr : d.install curl sha system force s t name world r ≠ t r) :
    resolve t (d.package line).path = some r ∨ resolve t (d.package line).tmp = some r := by
  obtain ⟨-, line', hline', hcase⟩ := h.changed world r hr
  rwa [Option.some.inj (hline.symm.trans hline')]

/-- curl made to do anything writes outside. -/
theorem Contained.url (h : Contained d curl sha system force s t name) (hname : name ≠ [])
    (hline : d.findPkgLine s name = some line)
    (hskip : (d.package line).skipped t system force = false) (hcurl : d.busybox = false) :
    curl.elsewhere (d.package line).url (d.package line).tmp = false := by
  by_contra helse
  rw [Bool.not_eq_false] at helse
  have hinstall : d.install curl sha system force s t name ⟨.failed none, (rootless t, false)⟩
      = rootless t := by
    rw [install_eq_fetch hname hline hskip]
    simp only [Device.fetch, Device.download, helse, hcurl, Bool.not_false, Bool.and_true, if_true,
      Bool.false_eq_true, if_false, Bool.false_and, resolve_rootless, removeFile]
  have hbin : InBin [['x']] := by
    refine (h.changed ⟨.failed none, (rootless t, false)⟩ [['x']] ?_).1
    rw [hinstall]
    exact rootless_ne t
  exact absurd (length_of_inBin hbin) (by decide)

theorem Contained.temporary (h : Contained d curl sha system force s t name) (hname : name ≠ [])
    (hline : d.findPkgLine s name = some line)
    (hskip : (d.package line).skipped t system force = false)
    (hp : resolve t (d.package line).tmp = some p) (hfile : isDir t p = false) :
    InBin p ∨ t p = none := by
  by_cases hnone : t p = none
  · exact Or.inr hnone
  · left
    have hremoved : d.install curl sha system force s t name ⟨.failed none, (t, false)⟩ p = none := by
      rw [install_eq_fetch hname hline hskip, fetch_failed (h.url hname hline hskip) rfl, hp,
        removeFile_of_not_isDir hfile, Function.update_self]
    refine (h.changed ⟨.failed none, (t, false)⟩ p ?_).1
    rw [hremoved]
    exact Ne.symm hnone

/-- A file that passes has to be verified, and to end up in its place. -/
theorem Contained.passed (h : Contained d curl sha system force s t name) (hname : name ≠ [])
    (hline : d.findPkgLine s name = some line)
    (hskip : (d.package line).skipped t system force = false)
    (hp : resolve t (d.package line).tmp = some p) (hfile : isDir t p = false)
    (hoption : isOption (d.package line).url = false) (bytes : Bytes)
    (hsha : d.gotSha sha (d.package line).tmp (some bytes) = (d.package line).sha) :
    sha.hex bytes = field line 5 ∧
      ∃ q, resolve t (d.package line).path = some q ∧ isDir t q = false ∧ InBin q := by
  -- a time at which the file is a new one, where it is written and where it is moved to
  obtain ⟨now, hfresh, hfresh'⟩ :=
    exists_now (t p) (t ((resolve t (d.package line).path).elim p (moveDest t p))) bytes
  let world : World := ⟨.done bytes now, (t, false)⟩
  have hwrite := isDir_write hfile (⟨bytes, now⟩ : File)
  have hinstall : d.install curl sha system force s t name world
      = move (write t p ⟨bytes, now⟩) p (resolve t (d.package line).path) := by
    rw [install_eq_fetch hname hline hskip]
    exact fetch_passed (h.url hname hline hskip) hp hfile hoption rfl hsha
  have hwritten : write t p ⟨bytes, now⟩ p = some (.file ⟨bytes, now⟩) := Function.update_self ..
  rcases move_cases (write t p ⟨bytes, now⟩) p (resolve t (d.package line).path) with
    hmove | ⟨q, hq, hdir, hne, hmove⟩ | ⟨q, hq, hdir, hne, hmove⟩
  · -- the temporary file stays
    rw [hmove] at hinstall
    have hstays : d.install curl sha system force s t name world p = some (.file ⟨bytes, now⟩) := by
      rw [hinstall, hwritten]
    have hgone := h.gone world line p hline hp (by rw [hstays]; exact hfresh.symm)
    rw [hstays] at hgone
    cases hgone
  · -- it goes into a directory
    rw [hmove] at hinstall
    rw [hwrite] at hdir
    rw [hq, Option.elim_some, moveDest, if_pos hdir] at hfresh'
    have hinto : d.install curl sha system force s t name world (p.headD [] :: q)
        = some (.file ⟨bytes, now⟩) := by
      rw [hinstall, Function.update_of_ne hne, Function.update_self, hwritten]
    have hchanged : d.install curl sha system force s t name world (p.headD [] :: q)
        ≠ t (p.headD [] :: q) := by
      rw [hinto]
      exact hfresh'.symm
    rcases h.place hline hchanged with hcase | hcase
    · have hlen := congrArg List.length (Option.some.inj (hq.symm.trans hcase))
      rw [List.length_cons] at hlen
      exact absurd hlen (Nat.ne_of_lt (Nat.lt_succ_self _))
    · exact absurd (Option.some.inj (hp.symm.trans hcase)).symm hne
  · -- it is put in its place
    rw [hmove] at hinstall
    rw [hwrite] at hdir
    rw [hq, Option.elim_some, moveDest, hdir, if_neg Bool.false_ne_true] at hfresh'
    have hput : d.install curl sha system force s t name world q = some (.file ⟨bytes, now⟩) := by
      rw [hinstall, Function.update_of_ne hne, Function.update_self, hwritten]
    have hchanged : d.install curl sha system force s t name world q ≠ t q := by
      rw [hput]
      exact hfresh'.symm
    obtain ⟨bytes', now', hdone, hhex⟩ := h.verified world line q hline hq hchanged
    cases hdone
    exact ⟨hhex, q, hq, hdir, (h.changed world q hchanged).1⟩

end

/-- **An installation is contained and verified exactly if** the line it finds, and does not skip,
    is safe on the disk there is. -/
theorem contained_iff (d : Device) (curl : Curl) (sha : Sha256) (system : Line → Bool)
    (force : Bool) (s : State) (t : Disk) (name : Line) :
    Contained d curl sha system force s t name ↔
      ∀ line, name ≠ [] → d.findPkgLine s name = some line →
        (d.package line).skipped t system force = false → Safe d curl sha t line := by
  constructor
  · intro h line hname hline hskip
    refine ⟨h.url hname hline hskip, ?_, ?_⟩
    · intro p hp hfile
      exact h.temporary hname hline hskip hp hfile
    · intro p bytes hp hfile hoption hsha
      exact h.passed hname hline hskip hp hfile hoption bytes hsha
  · exact contained_of_safe

/-! ## Ordinary lines -/

theorem commandSubstitution_singleton {line : Line} (h : '\n' ∉ line) :
    commandSubstitution [line] = line := by
  rw [commandSubstitution, unlines_cons, unlines_nil, List.rdropWhile_concat_pos _ _ _ (by simp)]
  induction line using List.reverseRecOn with
  | nil => rfl
  | append_singleton line c _ =>
    refine List.rdropWhile_concat_neg _ _ _ ?_
    rw [beq_iff_eq]
    intro hc
    exact h (List.mem_append_right _ (List.mem_singleton.mpr hc.symm))

theorem newline_notMem_field {line : Line} (h : '\n' ∉ line) (n : Nat) : '\n' ∉ field line n := by
  intro hmem
  unfold field at hmem
  rw [List.getD_eq_getElem?_getD] at hmem
  cases hget : (line.splitOnP (· == '|'))[n - 1]? with
  | none =>
    rw [hget] at hmem
    cases hmem
  | some part =>
    rw [hget] at hmem
    exact h (mem_of_mem_splitOnP (List.mem_of_getElem? hget) _ hmem)

/-- A line that `echo` prints as it is has the fields it has. -/
theorem awkPrint_line {line : Line} (h : '\n' ∉ line) (n : Nat) : awkPrint line n = field line n := by
  rw [awkPrint, textLines_append_cons h, textLines_nil]
  exact commandSubstitution_singleton (newline_notMem_field h n)

/-- What `Device.cmdInstall` answers are the variables of the script, if `echo` prints one line. -/
theorem cmdInstall_eq_package {d : Device} {s : State} {name line : Line}
    (hline : d.findPkgLine s name = some line) (hecho : '\n' ∉ d.echo line) :
    d.cmdInstall s name = some ((d.package line).url, (d.package line).sha) := by
  rw [Device.cmdInstall, hline, Option.map_some]
  simp only [Device.package, awkPrint_line hecho]

theorem gotSha_busybox {d : Device} {sha : Sha256} {path : List Char} (hbusybox : d.busybox = true)
    (hpath : '\n' ∉ path) (bytes : Bytes) : d.gotSha sha path (some bytes) = sha.hex bytes := by
  obtain ⟨hlen, hhex⟩ := sha.hex_digits bytes
  have hnewline : '\n' ∉ sha.hex bytes := fun hmem => absurd (hhex _ hmem) (by decide)
  have hblank : ∀ c ∈ sha.hex bytes, (c == ' ' || c == '\t') = false := by
    intro c hc
    by_contra hblank
    rw [Bool.not_eq_false, Bool.or_eq_true, beq_iff_eq, beq_iff_eq] at hblank
    rcases hblank with rfl | rfl
    · exact absurd (hhex _ hc) (by decide)
    · exact absurd (hhex _ hc) (by decide)
  have hne : sha.hex bytes ≠ [] := by
    intro hnil
    rw [hnil] at hlen
    cases hlen
  have hline : '\n' ∉ sha.hex bytes ++ (' ' :: ' ' :: path) := by
    simp [hnewline, hpath]
  have htext : sha.hex bytes ++ (' ' :: ' ' :: (path ++ ['\n']))
      = (sha.hex bytes ++ (' ' :: ' ' :: path)) ++ ['\n'] := by
    simp
  have hfirst : firstField (sha.hex bytes ++ (' ' :: ' ' :: path)) = sha.hex bytes := by
    rw [firstField, tokens_field_cons _ hblank hne rfl]
    rfl
  rw [Device.gotSha, if_pos hbusybox, htext, textLines_append_cons hline, textLines_nil,
    List.map_cons, hfirst]
  exact commandSubstitution_singleton hnewline

theorem resolve_bin {t : Disk} {p : Place} (h : resolve t bin = some p) : p = binPlace := by
  have hbin : components bin = [] :: binPlace.reverse := by decide
  rw [resolve, hbin, walk, if_pos (Or.inl rfl)] at h
  split at h
  · have hnames := walk_names (by decide) h
    rw [hnames, List.reverse_reverse, List.append_nil]
  · cases h

/-- An entry of `$BIN`. -/
theorem resolve_entry {t : Disk} {name : Name} (h : IsEntry name) {p : Place}
    (hp : resolve t (bin ++ '/' :: name) = some p) :
    p = name :: binPlace ∧ resolve t bin = some binPlace ∧ isDir t binPlace = true := by
  rw [resolve_append_slash] at hp
  obtain ⟨e, he, hwalk⟩ := Option.bind_eq_some_iff.mp hp
  obtain rfl := resolve_bin he
  rw [h.walk] at hwalk
  split at hwalk
  · exact ⟨(Option.some.inj hwalk).symm, he, by assumption⟩
  · cases hwalk

theorem inBin_entry (name : Name) : InBin (name :: binPlace) := ⟨name, [], rfl⟩

theorem isEntry_tmp {name : Name} (h : '/' ∉ name) :
    IsEntry ('.' :: (name ++ ".download".toList)) := by
  have hlen : ('.' :: (name ++ ".download".toList)).length = name.length + 10 := by
    rw [List.length_cons, List.length_append]
    rfl
  have hshort : ∀ short : Name, short.length < 10 → '.' :: (name ++ ".download".toList) ≠ short := by
    intro short hlt heq
    rw [heq] at hlen
    omega
  refine ⟨hshort _ (by decide), hshort _ (by decide), hshort _ (by decide), ?_⟩
  intro hmem
  rcases List.mem_cons.mp hmem with hdot | hmem
  · cases hdot
  · rcases List.mem_append.mp hmem with hmem | hmem
    · exact h hmem
    · exact absurd hmem (by decide)

theorem newline_notMem_tmp {pkg : Package} (h : '\n' ∉ pkg.installName) : '\n' ∉ pkg.tmp := by
  intro hmem
  rcases List.mem_append.mp hmem with hmem | hmem
  · exact absurd hmem (by decide)
  · rcases List.mem_cons.mp hmem with hslash | hmem
    · cases hslash
    · rcases List.mem_cons.mp hmem with hdot | hmem
      · cases hdot
      · rcases List.mem_append.mp hmem with hmem | hmem
        · exact h hmem
        · exact absurd hmem (by decide)

theorem hash_notMem_tmp {pkg : Package} (h : '#' ∉ pkg.installName) : '#' ∉ pkg.tmp := by
  have hbin : '#' ∉ bin := by decide
  have hext : '#' ∉ ".download".toList := by decide
  simp only [Package.tmp, List.mem_append, List.mem_cons, hbin, h, hext, or_false]
  decide

/-- **Ordinary lines are safe**: `echo` prints the line as it is, the install name is the name of an
    entry and not that of a directory in `$BIN`, and there is a busybox or else a checksum, no option
    for a URL, and no pattern in it that the name has a place for. -/
theorem safe_of_plain {d : Device} {curl : Curl} {sha : Sha256} {t : Disk} {line : Line}
    (hline : '\n' ∉ line) (hecho : d.echo line = line) (hname : IsEntry (field line 6))
    (hdir : isDir t (field line 6 :: binPlace) = false)
    (htools : d.busybox = true ∨ (field line 5 ≠ [] ∧ isOption (field line 4) = false ∧
      ((field line 4).any isGlob = false ∨ '#' ∉ field line 6))) :
    Safe d curl sha t line := by
  have hpackage : d.package line = ⟨field line 4, field line 5, field line 6⟩ := by
    simp only [Device.package, hecho, awkPrint_line hline]
  have htmp := isEntry_tmp hname.slash
  have hfree : '\n' ∉ (d.package line).tmp := by
    rw [hpackage]
    exact newline_notMem_tmp (newline_notMem_field hline 6)
  rw [hpackage] at hfree
  refine ⟨?_, ?_, ?_⟩
  · intro hcurl
    rw [hpackage]
    rw [hcurl] at htools
    obtain ⟨-, hoption, hglob⟩ := htools.resolve_left Bool.false_ne_true
    exact curl.elsewhere_plain _ _ hoption (hglob.imp_right hash_notMem_tmp)
  · intro p hp _
    rw [hpackage] at hp
    rw [(resolve_entry htmp hp).1]
    exact Or.inl (inBin_entry _)
  · intro p bytes hp _ _ hsha
    rw [hpackage] at hp hsha ⊢
    obtain ⟨-, hbin, hbindir⟩ := resolve_entry htmp hp
    refine ⟨?_, field line 6 :: binPlace, ?_, hdir, inBin_entry _⟩
    · cases hbusybox : d.busybox with
      | true =>
        rw [gotSha_busybox hbusybox hfree] at hsha
        exact hsha
      | false =>
        -- without a busybox the checksum is empty
        rw [hbusybox] at htools
        have hnonempty := (htools.resolve_left Bool.false_ne_true).1
        simp only [Device.gotSha, hbusybox, Bool.false_eq_true, if_false] at hsha
        exact absurd hsha.symm hnonempty
    · rw [Package.path, resolve_append_slash, hbin, Option.bind_some, hname.walk, if_pos hbindir]

/-! ## Lines that are not -/

/-- The directories down to `$BIN`, and nothing in it. -/
def emptyBin : Disk := fun p => if p <:+ binPlace then some .dir else none

/-- A cache with one index of one line. -/
def oneLine (line : Line) : State where
  repos := []
  rest := []
  cache := LinkedMap.empty.put "a.list".toList [line]
  fetched := []

def zeroSha : Sha256 where
  hex := fun _ => List.replicate 64 '0'
  hex_digits := by
    intro bytes
    refine ⟨List.length_replicate, ?_⟩
    intro c hc
    rw [List.eq_of_mem_replicate hc]
    rfl

/-- A curl for which every pattern can lead elsewhere. -/
def globbingCurl : Curl where
  elsewhere := fun url path => isOption url || (url.any isGlob && path.contains '#')
  elsewhere_plain := by
    rintro url path hoption (hglob | hhash)
    · rw [hoption, hglob]
      rfl
    · have hcontains : path.contains '#' = false := by simpa using hhash
      rw [hoption, hcontains, Bool.and_false]
      rfl

/-- A line without a checksum. -/
def uncheckedLine : Line := "jq|arm64|1.7|http://a/jq||jq".toList

/-- A line whose install name leads out of `$BIN`. -/
def escapingLine : Line :=
  "jq|arm64|1.7|http://a/jq|".toList ++ (List.replicate 64 '0' ++ "|/../jq".toList)

/-- A line whose URL has a pattern, for which there is a place in the install name. -/
def patternLine : Line :=
  ("jq|arm64|1.7|http://a/".toList ++ [Char.ofNat 0x7B]) ++
    ("/../x".toList ++ (Char.ofNat 0x7D :: "|00|#1".toList))

/-- Without a busybox a line without a checksum installs any file, with one a file that passes can
    be put outside of `$BIN`, and curl can write outside while it downloads. -/
theorem install_not_contained :
    ¬ Contained (phone false) globbingCurl zeroSha (fun _ => false) false (oneLine uncheckedLine)
        emptyBin "jq".toList ∧
      ¬ Contained (phone true) globbingCurl zeroSha (fun _ => false) false (oneLine escapingLine)
        emptyBin "jq".toList ∧
      ¬ Contained (phone false) globbingCurl zeroSha (fun _ => false) false (oneLine patternLine)
        emptyBin "jq".toList := by
  refine ⟨?_, ?_, ?_⟩
  · intro h
    have hline : (phone false).findPkgLine (oneLine uncheckedLine) "jq".toList
        = some uncheckedLine := by decide +kernel
    have hp : resolve emptyBin ((phone false).package uncheckedLine).tmp
        = some (".jq.download".toList :: binPlace) := by decide +kernel
    obtain ⟨hhex, -⟩ := h.passed (by decide) hline (by decide +kernel) hp (by decide +kernel)
      (by decide +kernel) [] (by decide +kernel)
    exact absurd hhex (by decide +kernel)
  · intro h
    have hline : (phone true).findPkgLine (oneLine escapingLine) "jq".toList
        = some escapingLine := by decide +kernel
    have hp : resolve emptyBin ((phone true).package escapingLine).tmp
        = some ("jq.download".toList :: binPlace.tail) := by decide +kernel
    have hq : resolve emptyBin ((phone true).package escapingLine).path
        = some ("jq".toList :: binPlace.tail) := by decide +kernel
    obtain ⟨-, q, hq', -, hbin⟩ := h.passed (by decide) hline (by decide +kernel) hp
      (by decide +kernel) (by decide +kernel) [] (by decide +kernel)
    obtain rfl := Option.some.inj (hq.symm.trans hq')
    exact absurd (length_of_inBin hbin) (by decide)
  · intro h
    have hline : (phone false).findPkgLine (oneLine patternLine) "jq".toList
        = some patternLine := by decide +kernel
    have hbound := h.url (by decide) hline (by decide +kernel) rfl
    exact absurd hbound (by decide +kernel)

end Sshd4a.Pkg
