import Sshd4a.Lib.Split
import Sshd4a.Lib.Utf8

/-!
# The native reader of `authorized_users` (`jni-dropbear.c`)

`sshd4a_find_user` is the only place where the server side reads the file: `fill_passwd` asks
it for a role through `sshd4a_get_role_for_user`, `sshd4a_svr_auth_password` asks it for the
password field. The model keeps the shape of the C: `getline`, the loop that strips trailing
CR and LF, the `strstr` test for a colon, three `strtok_r` calls, first match wins.

C strings are byte lists without the terminator. A line comes from `getline`, so it *may* hold
NUL bytes, and everything after the stripping loop works on the part before the first of them
(`cstr`). The username parameter is a pointer: `none` is NULL, and reaching `strcmp` with it is
the one way this function can stop the process.

`findUser` is the same lookup in the form the proofs use: the lines between newlines, mapped
to what they say, first one for the username. `sshd4aFindUser_some` connects the two.
-/

namespace Sshd4a

open Text

/-! ## C strings and delimiters -/

/-- The C string a buffer holds: everything before its first NUL. -/
def cstr (b : Bytes) : Bytes := b.takeWhile (fun x => x != 0)

def isColon (b : UInt8) : Bool := b == byte ':'

def isNewline (b : UInt8) : Bool := b == byte '\n'

/-- What the stripping loop of `sshd4a_find_user` removes from the end of a line. -/
def isEol (b : UInt8) : Bool := b == byte '\n' || b == byte '\r'

/-! ## Ways a native function stops the process -/

/-- The texts handed to `dropbear_exit` on the modelled paths. -/
inductive ExitReason
  /-- `"Bad buf_getbyte"` -/
  | badBufGetbyte
  /-- `"Bad buf_getptr"` -/
  | badBufGetptr
  /-- `"String too long"` -/
  | stringTooLong
  /-- `"unknown service in auth"` -/
  | unknownService
  /-- `"Attempted username with a null byte"` -/
  | usernameNullByte
  /-- `"Client trying multiple usernames"` -/
  | multipleUsernames
  /-- `"Max auth tries reached - user '%s'"` -/
  | maxAuthTries (user : Bytes)
deriving DecidableEq, Repr

/-- A session ends by `dropbear_exit`, or by following a NULL pointer. -/
inductive Stop
  | exit (reason : ExitReason)
  | segv
deriving DecidableEq, Repr

/-! ## `sshd4a_find_user` -/

/-- `SSHD4A_ROLE_USER`. -/
def sshd4aRoleUser : Bytes := ['u', 's', 'e', 'r'].map byte
/-- `SSHD4A_ROLE_ROOT`. -/
def sshd4aRoleRoot : Bytes := ['r', 'o', 'o', 't'].map byte
/-- `SSHD4A_ROLE_SHELL`. -/
def sshd4aRoleShell : Bytes := ['s', 'h', 'e', 'l', 'l'].map byte

/-- What `sshd4a_find_user` leaves in its two out-parameters when it returns 1. The password
    pointer stays NULL when the line has one field only; the role is never NULL. -/
structure UserLine where
  password : Option Bytes
  role : Bytes
deriving DecidableEq, Repr

/-- One line as `getline` returned it, up to the comparison with the username: stripped, then
    skipped (`none`) when it is empty, has no colon, or has nothing but colons; otherwise its
    first, second and third token. -/
def lineFields (line : Bytes) : Option (Bytes × Option Bytes × Option Bytes) :=
  let stripped := line.rdropWhile isEol
  if stripped.isEmpty || !(cstr stripped).any isColon then none
  else
    match strtokR isColon (cstr stripped) with
    | none => none
    | some (user, rest) =>
      match strtokR isColon rest with
      | none => some (user, none, none)
      | some (pass, rest') => some (user, some pass, (strtokR isColon rest').map Prod.fst)

/-- The `while (getline …)` loop. -/
def sshd4aFindUserLoop (username : Option Bytes) : List Bytes → Except Stop (Option UserLine)
  | [] => .ok none
  | line :: lines =>
    match lineFields line with
    | none => sshd4aFindUserLoop username lines
    | some (user, pass, role) =>
      match username with
      -- `strcmp(field_user, NULL)`
      | none => .error .segv
      | some u =>
        if user = u then .ok (some ⟨pass, role.getD sshd4aRoleUser⟩)
        else sshd4aFindUserLoop username lines

/-- `sshd4a_find_user`. The file is `none` when `fopen` fails. -/
def sshd4aFindUser (users : Option Bytes) (username : Option Bytes) :
    Except Stop (Option UserLine) :=
  match users with
  | none => .ok none
  | some content => sshd4aFindUserLoop username (readLines isNewline content)

/-- `sshd4a_get_role_for_user`, which no caller hands a NULL. -/
def sshd4aGetRoleForUser (users : Option Bytes) (username : Bytes) : Bytes :=
  match sshd4aFindUser users (some username) with
  | .ok (some found) => found.role
  | _ => sshd4aRoleUser

/-! ## The same lookup over the lines of the file -/

/-- The username of a line and what the line says about it. -/
def lineEntry (line : Bytes) : Option (Bytes × UserLine) :=
  (lineFields line).map fun (user, pass, role) => (user, ⟨pass, role.getD sshd4aRoleUser⟩)

/-- Every entry the reader could answer with, in file order. -/
def userEntries (users : Option Bytes) : List (Bytes × UserLine) :=
  match users with
  | none => []
  | some content => (content.splitOnP isNewline).filterMap lineEntry

/-- The first entry for a username. -/
def findUser (users : Option Bytes) (username : Bytes) : Option UserLine :=
  ((userEntries users).find? (fun e => e.1 = username)).map Prod.snd

/-- Some line says this about a username, and no line before it says anything. -/
def DecidingLine (users : Option Bytes) (username : Bytes) (found : UserLine) : Prop :=
  ∃ content before line after, users = some content ∧
    content.splitOnP isNewline = before ++ line :: after ∧
    lineEntry line = some (username, found) ∧
    ∀ l ∈ before, ∀ found', lineEntry l ≠ some (username, found')

theorem findUser_eq_some {users : Option Bytes} {u : Bytes} {found : UserLine} :
    findUser users u = some found ↔ DecidingLine users u found := by
  cases users with
  | none =>
    constructor
    · intro h
      exact absurd h (by simp [findUser, userEntries])
    · rintro ⟨content, before, line, after, heq, -⟩
      cases heq
  | some content =>
    rw [findUser, userEntries, find?_filterMap_eq_some]
    constructor
    · rintro ⟨before, line, after, h⟩
      exact ⟨content, before, line, after, rfl, h⟩
    · rintro ⟨content', before, line, after, heq, h⟩
      cases heq
      exact ⟨before, line, after, h⟩

theorem lineFields_nil : lineFields [] = none := rfl

theorem lineFields_append_newline {x : UInt8} (line : Bytes) (hx : isNewline x = true) :
    lineFields (line ++ [x]) = lineFields line := by
  have hx' : isEol x = true := by
    simp only [isNewline] at hx
    simp [isEol, hx]
  have hstrip : (line ++ [x]).rdropWhile isEol = line.rdropWhile isEol :=
    List.rdropWhile_concat_pos _ _ _ hx'
  simp only [lineFields, hstrip]

/-- The lines `getline` delivers say what the lines between newlines say. -/
theorem readLines_lineEntry (content : Bytes) :
    (readLines isNewline content).filterMap lineEntry = userEntries (some content) :=
  readLines_filterMap (by simp [lineEntry, lineFields_nil])
    (fun a x hx => by simp [lineEntry, lineFields_append_newline a hx]) content

theorem sshd4aFindUserLoop_some (u : Bytes) (lines : List Bytes) :
    sshd4aFindUserLoop (some u) lines
      = .ok (((lines.filterMap lineEntry).find? (fun e => e.1 = u)).map Prod.snd) := by
  induction lines with
  | nil => rfl
  | cons line lines ih =>
    cases hf : lineFields line with
    | none => simp [sshd4aFindUserLoop, hf, lineEntry, ih]
    | some fields =>
      obtain ⟨user, pass, role⟩ := fields
      by_cases hu : user = u
      · simp [sshd4aFindUserLoop, hf, lineEntry, hu]
      · simp [sshd4aFindUserLoop, hf, lineEntry, hu, ih]

/-- **With a username in hand the C loop is the lookup `findUser`**, and it always returns. -/
theorem sshd4aFindUser_some (users : Option Bytes) (u : Bytes) :
    sshd4aFindUser users (some u) = .ok (findUser users u) := by
  cases users with
  | none => rfl
  | some content =>
    simp only [sshd4aFindUser, sshd4aFindUserLoop_some, readLines_lineEntry, findUser]

/-- Without one, it returns only when no line gets as far as the comparison. -/
theorem sshd4aFindUser_none (users : Option Bytes) :
    sshd4aFindUser users none = if userEntries users = [] then .ok none else .error .segv := by
  have hloop : ∀ lines : List Bytes, sshd4aFindUserLoop none lines
      = if lines.filterMap lineEntry = [] then .ok none else .error .segv := by
    intro lines
    induction lines with
    | nil => rfl
    | cons line lines ih =>
      cases hf : lineFields line with
      | none => simp [sshd4aFindUserLoop, hf, lineEntry, ih]
      | some fields => simp [sshd4aFindUserLoop, hf, lineEntry]
  cases users with
  | none => rfl
  | some content => simp only [sshd4aFindUser, hloop, readLines_lineEntry]

theorem sshd4aGetRoleForUser_eq (users : Option Bytes) (u : Bytes) :
    sshd4aGetRoleForUser users u = ((findUser users u).map UserLine.role).getD sshd4aRoleUser := by
  rw [sshd4aGetRoleForUser, sshd4aFindUser_some]
  cases findUser users u <;> rfl

/-! ## What a line says -/

/-- The tokens of a line, as the three `strtok_r` calls deliver them. -/
theorem lineFields_eq_tokens (line : Bytes) :
    lineFields line =
      if (cstr (line.rdropWhile isEol)).any isColon then
        match tokens isColon (cstr (line.rdropWhile isEol)) with
        | [] => none
        | user :: rest => some (user, rest[0]?, rest[1]?)
      else none := by
  set text := cstr (line.rdropWhile isEol) with htext
  by_cases hany : text.any isColon = true
  · have hne : (line.rdropWhile isEol).isEmpty = false := by
      cases hs : line.rdropWhile isEol with
      | nil => rw [htext, hs] at hany; simp [cstr] at hany
      | cons a as => rfl
    simp only [lineFields, ← htext, hne, hany, Bool.not_true, Bool.or_self, if_true,
      Bool.false_eq_true, if_false]
    rw [tokens_eq_strtokR text]
    cases h1 : strtokR isColon text with
    | none => rfl
    | some t1 =>
      obtain ⟨user, rest⟩ := t1
      simp only
      rw [tokens_eq_strtokR rest]
      cases h2 : strtokR isColon rest with
      | none => rfl
      | some t2 =>
        obtain ⟨pass, rest'⟩ := t2
        simp only
        rw [tokens_eq_strtokR rest']
        cases h3 : strtokR isColon rest' with
        | none => rfl
        | some t3 => rfl
  · simp only [Bool.not_eq_true] at hany
    simp [lineFields, ← htext, hany]

/-- **What a line says**, by its fields. -/
theorem lineEntry_eq_some {line u : Bytes} {found : UserLine} :
    lineEntry line = some (u, found) ↔
      (cstr (line.rdropWhile isEol)).any isColon = true ∧
      ∃ rest, tokens isColon (cstr (line.rdropWhile isEol)) = u :: rest ∧
        found = ⟨rest[0]?, rest[1]?.getD sshd4aRoleUser⟩ := by
  rw [lineEntry, lineFields_eq_tokens]
  by_cases hcolon : (cstr (line.rdropWhile isEol)).any isColon = true
  · rw [if_pos hcolon]
    cases tokens isColon (cstr (line.rdropWhile isEol)) with
    | nil => simp
    | cons v rest =>
      simp only [Option.map_some, Option.some.injEq, Prod.mk.injEq, hcolon, true_and,
        List.cons.injEq]
      constructor
      · rintro ⟨rfl, rfl⟩
        exact ⟨rest, ⟨rfl, rfl⟩, rfl⟩
      · rintro ⟨rest', ⟨rfl, rfl⟩, rfl⟩
        exact ⟨rfl, rfl⟩
  · rw [if_neg hcolon]
    simp [hcolon]

/-- A line without a password field says `user`: there is no third token without a second.
    So a line that names another role carries a password. -/
theorem lineEntry_role_of_no_password {line : Bytes} {u : Bytes} {found : UserLine}
    (h : lineEntry line = some (u, found)) (hp : found.password = none) :
    found.role = sshd4aRoleUser := by
  obtain ⟨-, rest, -, rfl⟩ := lineEntry_eq_some.mp h
  cases rest with
  | nil => rfl
  | cons pass rest => cases hp

theorem mem_cstr {b : Bytes} {y : UInt8} (h : y ∈ cstr b) : y ∈ b ∧ y ≠ 0 :=
  ⟨(List.takeWhile_prefix _).subset h, by simpa using List.mem_takeWhile_imp h⟩

theorem cstr_eq_self {b : Bytes} : cstr b = b ↔ 0 ∉ b := by
  rw [cstr, List.takeWhile_eq_self_iff]
  constructor
  · intro h hm
    exact absurd (h 0 hm) (by simp)
  · intro h x hx
    have : x ≠ 0 := fun hq => h (hq ▸ hx)
    simpa using this

/-- The username of a line is made of bytes of the line, without colons and NULs, and neither
    it nor the password field is empty. -/
theorem lineEntry_fields {line : Bytes} {u : Bytes} {found : UserLine}
    (h : lineEntry line = some (u, found)) :
    (u ≠ [] ∧ byte ':' ∉ u ∧ 0 ∉ u ∧ ∀ y ∈ u, y ∈ line) ∧
      ∀ pass, found.password = some pass → pass ≠ [] := by
  obtain ⟨-, rest, htok, rfl⟩ := lineEntry_eq_some.mp h
  have hmem : ∀ t ∈ u :: rest, t ≠ [] ∧ ∀ y ∈ t, isColon y = false := fun t ht =>
    not_sep_of_mem_tokens (htok ▸ ht)
  have htext : ∀ y ∈ u, y ∈ cstr (line.rdropWhile isEol) := fun y hy =>
    mem_of_mem_tokens (htok ▸ List.mem_cons_self) y hy
  refine ⟨⟨(hmem u (by simp)).1, fun hc => ?_, fun h0 => ?_, fun y hy => ?_⟩, fun q hq => ?_⟩
  · have := (hmem u (by simp)).2 _ hc
    simp [isColon] at this
  · exact (mem_cstr (htext 0 h0)).2 rfl
  · exact (List.rdropWhile_prefix _ _).subset (mem_cstr (htext y hy)).1
  · exact (hmem q (List.mem_cons_of_mem _ (List.mem_of_getElem? hq))).1

theorem mem_userEntries_of_findUser {users : Option Bytes} {u : Bytes} {found : UserLine}
    (h : findUser users u = some found) :
    ∃ line, lineEntry line = some (u, found) ∧ ∀ y ∈ line, isNewline y = false := by
  obtain ⟨content, before, line, after, rfl, hsplit, hline, -⟩ := findUser_eq_some.mp h
  exact ⟨line, hline, not_sep_of_mem_splitOnP (s := content) (by rw [hsplit]; simp)⟩

theorem findUser_name {users : Option Bytes} {u : Bytes} {found : UserLine}
    (h : findUser users u = some found) : byte ':' ∉ u ∧ byte '\n' ∉ u ∧ 0 ∉ u := by
  obtain ⟨line, hline, hfree⟩ := mem_userEntries_of_findUser h
  obtain ⟨⟨-, hcolon, hnul, hmem⟩, -⟩ := lineEntry_fields hline
  exact ⟨hcolon, fun hn => absurd (hfree _ (hmem _ hn)) (by decide), hnul⟩

theorem findUser_role_of_no_password {users : Option Bytes} {u : Bytes} {found : UserLine}
    (h : findUser users u = some found) (hp : found.password = none) :
    found.role = sshd4aRoleUser := by
  obtain ⟨line, hline, -⟩ := mem_userEntries_of_findUser h
  exact lineEntry_role_of_no_password hline hp

/-- A password field, when there is one, is not empty: the `*sshd4a_password` test of
    `sshd4a_svr_auth_password` never decides anything. -/
theorem findUser_password_ne_nil {users : Option Bytes} {u : Bytes} {found : UserLine}
    {pass : Bytes} (h : findUser users u = some found) (hp : found.password = some pass) :
    pass ≠ [] := by
  obtain ⟨line, hline, -⟩ := mem_userEntries_of_findUser h
  exact (lineEntry_fields hline).2 pass hp

end Sshd4a
