import Sshd4a.Lib.LinkedMap
import Sshd4a.Lib.Split
import Sshd4a.Native.Session

/-!
# The app's side of `authorized_users` (`SshdSettings.java`, `UserPassStorage.java`)

The app reads the file as characters, line by line, into a map from role to username and hash,
and writes it by spelling that map. A file is `Option Bytes`: `none` when it does not exist.

Two library behaviours matter and are written out. `readAllLines` ends a line at LF, CR or CR
LF, with the same `skipLF` flag `BufferedReader` has; bytes that are not UTF-8 make it throw,
which `readAllAuthorizedUsers` takes for a missing file. `isBlank` is about Java's white space,
which is neither ASCII's nor Unicode's.

`writeAuthorizedUser` is split in two: `updateAuthorizedUser` is its truth table, answering the
map to write or `none` where the source returns without writing, and `writeAllAuthorizedUsers`
is the content the write leaves. What is on the disk *while* it writes is another module's
subject.
-/

namespace Sshd4a

open Text

/-! ## Java strings -/

/-- A Java string, as its code points. -/
abbrev JString := List Char

/-- `Character.isWhitespace`: separators that do not forbid a line break, and the control
    characters HT to CR and FS to US. -/
def isWhitespace (c : Char) : Bool :=
  let n := c.toNat
  (0x09 ≤ n && n ≤ 0x0D) || (0x1C ≤ n && n ≤ 0x20) || n == 0x1680 ||
    (0x2000 ≤ n && n ≤ 0x2006) || (0x2008 ≤ n && n ≤ 0x200A) || n == 0x2028 || n == 0x2029 ||
    n == 0x205F || n == 0x3000

def isBlank (s : JString) : Bool := s.all isWhitespace

/-- The loop of `BufferedReader.readLine`, from one line to the next. -/
def readAllLinesFrom (skipLF : Bool) (line : JString) : JString → List JString
  | [] => if line.isEmpty then [] else [line]
  | c :: rest =>
    if skipLF && c == '\n' then readAllLinesFrom false line rest
    else if c == '\n' then line :: readAllLinesFrom false [] rest
    else if c == '\r' then line :: readAllLinesFrom true [] rest
    else readAllLinesFrom false (line ++ [c]) rest

/-- `Files.readAllLines` on decoded text. -/
def readAllLines (text : JString) : List JString := readAllLinesFrom false [] text

def isJColon (c : Char) : Bool := c == ':'

def isLineEnd (c : Char) : Bool := c == '\n' || c == '\r'

/-! ## Reading -/

def roleUser : JString := ['u', 's', 'e', 'r']
def roleRoot : JString := ['r', 'o', 'o', 't']
def roleShell : JString := ['s', 'h', 'e', 'l', 'l']

/-- The `String[]` of a role: username and hash. -/
structure UserPass where
  username : JString
  hash : JString
deriving DecidableEq, Repr

/-- One line of the file, as the loop of `readAllAuthorizedUsers` takes it; `none` is
    `continue`. -/
def parseLine (line : JString) : Option (JString × UserPass) :=
  if isBlank line then none
  else
    match cut isJColon 2 line with
    | [] | [_] => none
    | username :: hash :: rest =>
      if isBlank username || isBlank hash then none
      else
        match rest with
        | [] => some (roleUser, ⟨username, hash⟩)
        | role :: _ => some (if isBlank role then roleUser else role, ⟨username, hash⟩)

def readAllAuthorizedUsers (file : Option Bytes) : LinkedMap JString UserPass :=
  match file.bind decodeUtf8 with
  -- `catch (IOException ignore)`
  | none => .empty
  | some text => .ofList ((readAllLines text).filterMap parseLine)

def readAuthorizedUser (file : Option Bytes) (role : JString) : Option UserPass :=
  (readAllAuthorizedUsers file).get? role

/-! ## Writing -/

/-- A line without its newline. -/
def authorizedLine (role : JString) (up : UserPass) : JString :=
  if role = roleUser then up.username ++ ':' :: up.hash
  else up.username ++ ':' :: (up.hash ++ ':' :: role)

/-- What one `fw.write` is handed. -/
def writtenLine (entry : JString × UserPass) : JString :=
  authorizedLine entry.1 entry.2 ++ ['\n']

/-- The file `writeAllAuthorizedUsers` leaves. -/
def writeAllAuthorizedUsers (all : LinkedMap JString UserPass) : Option Bytes :=
  if all.isEmpty then none else some (utf8 (all.entries.flatMap writtenLine))

def hash (sha : Sha512) (password : JString) : JString := latin1 (sha.base64 (utf8 password))

/-- A call of `writeAuthorizedUser`; `none` is `null`. -/
structure UserUpdate where
  role : JString
  username : Option JString
  passwordUpdated : Bool
  password : Option JString
deriving DecidableEq, Repr

/-- The truth table of `writeAuthorizedUser`; `none` is a row without a write. -/
def updateAuthorizedUser (sha : Sha512) (all : LinkedMap JString UserPass) (call : UserUpdate) :
    Option (LinkedMap JString UserPass) :=
  match call.username with
  | none => some (all.remove call.role)
  | some username =>
    if isBlank username then some (all.remove call.role)
    else if !call.passwordUpdated then
      match all.get? call.role with
      | none => none
      | some previous => some (all.put call.role ⟨username, previous.hash⟩)
    else
      match call.password with
      | none => if all.containsKey call.role then some (all.remove call.role) else none
      | some password =>
        if isBlank password then
          if all.containsKey call.role then some (all.remove call.role) else none
        else some (all.put call.role ⟨username, hash sha password⟩)

/-- `writeAuthorizedUser` when nothing fails: the file it leaves. -/
def writeAuthorizedUser (sha : Sha512) (file : Option Bytes) (call : UserUpdate) : Option Bytes :=
  match updateAuthorizedUser sha (readAllAuthorizedUsers file) call with
  | none => file
  | some all => writeAllAuthorizedUsers all

/-! ## `UserPassStorage` -/

/-- The preference keys of the three pairs of fields. -/
inductive PrefKey
  | sshdAuthUsername | sshdAuthPassword
  | sshdAuthRootUsername | sshdAuthRootPassword
  | sshdAuthShellUsername | sshdAuthShellPassword
deriving DecidableEq, Repr

structure UserPassStorage where
  role : JString
  usernameKey : PrefKey
  passwordKey : PrefKey
  currentUsername : Option JString := none
  currentPassword : Option JString := none
  passwordUpdated : Bool := false

/-- The constructor. -/
def UserPassStorage.new (file : Option Bytes) (role : JString) (usernameKey passwordKey : PrefKey) :
    UserPassStorage :=
  let storage : UserPassStorage := { role, usernameKey, passwordKey }
  match readAuthorizedUser file role with
  | none => storage
  | some up => { storage with currentUsername := some up.username, currentPassword := none }

/-- `putString`; `none` is `IllegalArgumentException`. -/
def UserPassStorage.putString (storage : UserPassStorage) (key : PrefKey) (value : Option JString) :
    Option UserPassStorage :=
  if key = storage.usernameKey then some { storage with currentUsername := value }
  else if key = storage.passwordKey then
    some { storage with currentPassword := value, passwordUpdated := true }
  else none

/-- The call `storeCredentials` makes. -/
def UserPassStorage.update (storage : UserPassStorage) : UserUpdate :=
  ⟨storage.role, storage.currentUsername, storage.passwordUpdated, storage.currentPassword⟩

def UserPassStorage.storeCredentials (sha : Sha512) (storage : UserPassStorage)
    (file : Option Bytes) : Option Bytes :=
  writeAuthorizedUser sha file storage.update

/-- The three stores of the Settings screen. -/
def userPassDataStore (file : Option Bytes) : UserPassStorage :=
  .new file roleUser .sshdAuthUsername .sshdAuthPassword
def rootPassDataStore (file : Option Bytes) : UserPassStorage :=
  .new file roleRoot .sshdAuthRootUsername .sshdAuthRootPassword
def shellPassDataStore (file : Option Bytes) : UserPassStorage :=
  .new file roleShell .sshdAuthShellUsername .sshdAuthShellPassword

/-- `handleOnBackPressed`, as far as the file goes. -/
def handleOnBackPressed (sha : Sha512) (user root shell : UserPassStorage) (file : Option Bytes) :
    Option Bytes :=
  shell.storeCredentials sha (root.storeCredentials sha (user.storeCredentials sha file))

/-! ## What the reader makes of a line -/

theorem ne_nil_of_isBlank_false {s : JString} (h : isBlank s = false) : s ≠ [] := by
  rintro rfl
  exact absurd h (by decide)

/-- Empty lines are skipped, so a CR LF may as well be two line ends. -/
theorem readAllLines_filterMap {β : Type} {f : JString → Option β} (hnil : f [] = none)
    (text : JString) : (readAllLines text).filterMap f = (text.splitOnP isLineEnd).filterMap f := by
  have hfrom : ∀ (text line : JString) (skipLF : Bool), (∀ c ∈ line, isLineEnd c = false) →
      (skipLF = true → line = []) →
      (readAllLinesFrom skipLF line text).filterMap f
        = ((line ++ text).splitOnP isLineEnd).filterMap f := by
    intro text
    induction text with
    | nil =>
      intro line skipLF hfree _
      rw [List.append_nil, List.splitOnP_eq_singleton hfree, readAllLinesFrom]
      cases line with
      | nil => simp [hnil]
      | cons c cs => rfl
    | cons c rest ih =>
      intro line skipLF hfree hskip
      have hempty : ∀ skip, (readAllLinesFrom skip [] rest).filterMap f
          = (rest.splitOnP isLineEnd).filterMap f := fun skip => ih [] skip (by simp) (fun _ => rfl)
      rw [readAllLinesFrom]
      by_cases hlf : c = '\n'
      · subst hlf
        rw [List.splitOnP_append_cons_of_forall_mem hfree '\n' rfl, List.filterMap_cons]
        cases skipLF with
        | true =>
          rw [hskip rfl, hnil]
          exact hempty false
        | false =>
          show (line :: readAllLinesFrom false [] rest).filterMap f = _
          rw [List.filterMap_cons, hempty]
      · by_cases hcr : c = '\r'
        · subst hcr
          rw [List.splitOnP_append_cons_of_forall_mem hfree '\r' rfl, List.filterMap_cons]
          have hline : (if (skipLF && '\r' == '\n') = true then readAllLinesFrom false line rest
              else if ('\r' == '\n') = true then line :: readAllLinesFrom false [] rest
              else if ('\r' == '\r') = true then line :: readAllLinesFrom true [] rest
              else readAllLinesFrom false (line ++ ['\r']) rest)
              = line :: readAllLinesFrom true [] rest := by cases skipLF <;> rfl
          rw [hline, List.filterMap_cons, hempty]
        · have hend : isLineEnd c = false := by simp [isLineEnd, hlf, hcr]
          rw [if_neg (by simp [hlf]), if_neg (by simp [hlf]), if_neg (by simp [hcr]),
            ih (line ++ [c]) false (by
              intro d hd
              rcases List.mem_append.mp hd with hd | hd
              · exact hfree d hd
              · rw [List.mem_singleton.mp hd]
                exact hend) (by simp), List.append_assoc, List.singleton_append]
  exact hfrom text [] false (by simp) (by simp)

end Sshd4a
