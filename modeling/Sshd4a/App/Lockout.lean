import Sshd4a.App.Format
import Sshd4a.App.Settings
import Sshd4a.Auth.Request

/-!
# The warning before one locks oneself out (`SettingsViewModel.java`, `jni-dropbear.c`)

The settings screen is not left without a warning if `hasAtLeastOneAuthMethod` finds no way to log
in. What a session really offers is decided by `sshd4a_svr_authinitialise` and by what
`sshd4a_find_user` answers. Both sides work on the same preferences and the same two files, and
each has its own evidence.

* Single-use passwords: both sides look at the preference only.
* Public keys: the app looks at the preference only, a session also wants ten bytes of
  `authorized_keys`.
* Passwords: the app wants a line that its map can hold, which is one with something that is not
  blank on both sides of the first colon, in a file that is UTF-8. The server wants a line with two
  fields that are not empty, wherever the colons are, and takes the first line that names the
  username.

`hasAtLeastOneAuthMethod_iff` puts that together. The three bytes that the password method wants
are no condition of their own: a line with a password has them.
-/

namespace Sshd4a

open Text

/-! ## The two sides -/

def isEnableSingleUsePasswordAuth (prefs : Settings.Store) : Bool :=
  (prefs.bools .enableSingleUsePasswords).getD true

def isEnablePublicKeyAuth (prefs : Settings.Store) : Bool :=
  (prefs.bools .enablePublicKeyLogin).getD true

def hasAtLeastOneAuthMethod (prefs : Settings.Store) (users : Option Bytes) : Bool :=
  if isEnableSingleUsePasswordAuth prefs || isEnablePublicKeyAuth prefs then true
  else !(readAllAuthorizedUsers users).isEmpty

/-- The configuration `startSshd` hands to the server. -/
def startConfig (prefs : Settings.Store) (cfg : Config) : Config :=
  { cfg with
    enableSingleUsePasswords := isEnableSingleUsePasswordAuth prefs
    enablePublicKeyAuth := isEnablePublicKeyAuth prefs }

/-- `sshd4a_enable_public_key_auth`. -/
def sshd4aEnablePublicKeyAuth (cfg : Config) (start : SessionStart) : Bool :=
  cfg.enablePublicKeyAuth && configFileExists start.authorizedKeys 10

/-- A session has a method under which a configured credential can be used. -/
def UsableMethod (cfg : Config) (start : SessionStart) : Prop :=
  sshd4aEnablePublicKeyAuth cfg start = true ∨ cfg.enableSingleUsePasswords = true ∨
    ((svrAuthinitialise cfg start).authtypes.password = true ∧
      ∃ u line hash, sshd4aFindUser start.authorizedUsers (some u) = .ok (some line) ∧
        line.password = some hash ∧ hash ≠ [])

/-- The app and the server agree on whether there is a way in. -/
def LockoutAgrees (prefs : Settings.Store) (cfg : Config) (start : SessionStart) : Prop :=
  hasAtLeastOneAuthMethod prefs start.authorizedUsers = true ↔
    UsableMethod (startConfig prefs cfg) start

/-! ## The lines that count -/

/-- The app counts a file: it is UTF-8, and in some line, up to CR or LF, neither the text before
    the first colon nor the text behind it, up to the next, is blank. -/
def AppCredential (users : Option Bytes) : Prop :=
  ∃ text line u p, users = some (utf8 text) ∧ line ∈ text.splitOnP isLineEnd ∧
    (isBlank u = false ∧ ':' ∉ u) ∧ (isBlank p = false ∧ ':' ∉ p) ∧
    (line = u ++ ':' :: p ∨ ∃ r, line = u ++ ':' :: (p ++ ':' :: r))

/-- The text of a line that the server looks at. -/
def lineText (line : Bytes) : Bytes := cstr (line.rdropWhile isEol)

/-- The server counts a file: some line has two fields that are not empty, and no line before it
    with a colon has the same first one. -/
def ServerCredential (users : Option Bytes) : Prop :=
  ∃ content before line after u p more, users = some content ∧
    content.splitOnP isNewline = before ++ line :: after ∧
    tokens isColon (lineText line) = u :: p :: more ∧
    ∀ l ∈ before, (lineText l).any isColon = true → (tokens isColon (lineText l)).head? ≠ some u

/-! ## The app's side -/

theorem appCredential_iff {users : Option Bytes} :
    AppCredential users ↔ (readAllAuthorizedUsers users).isEmpty = false := by
  constructor
  · rintro ⟨text, line, u, p, rfl, hline, hu, hp, hshape⟩
    -- the line is accepted, under one role or another
    have haccepted : ∃ e, parseLine line = some e := by
      rcases hshape with hshape | ⟨r, hshape⟩
      · exact ⟨_, parseLine_eq_some.mpr ⟨hu, hp, Or.inl ⟨hshape, rfl⟩⟩⟩
      · exact ⟨_, parseLine_eq_some.mpr ⟨hu, hp, Or.inr ⟨r, hshape, rfl⟩⟩⟩
    obtain ⟨⟨role, up⟩, he⟩ := haccepted
    have hkey : role ∈ ((readAllAuthorizedUsers (some (utf8 text))).entries).map Prod.fst := by
      rw [readAll_utf8, LinkedMap.mem_keys_ofList]
      exact List.mem_map.mpr ⟨_, List.mem_filterMap.mpr ⟨line, hline, he⟩, rfl⟩
    by_contra hempty
    rw [Bool.not_eq_false, LinkedMap.isEmpty_iff] at hempty
    rw [hempty] at hkey
    cases hkey
  · intro hsome
    cases hdecode : users.bind decodeUtf8 with
    | none =>
      rw [readAllAuthorizedUsers, hdecode] at hsome
      cases hsome
    | some text =>
      obtain ⟨content, rfl, htext⟩ := Option.bind_eq_some_iff.mp hdecode
      rw [decodeUtf8_iff] at htext
      subst htext
      cases hentries : (readAllAuthorizedUsers (some (utf8 text))).entries with
      | nil =>
        rw [LinkedMap.isEmpty, hentries] at hsome
        cases hsome
      | cons e es =>
        have hmem : e ∈ (readAllAuthorizedUsers (some (utf8 text))).entries := by
          rw [hentries]
          exact List.mem_cons_self
        rw [readAll_utf8] at hmem
        obtain ⟨line, hline, he⟩ := List.mem_filterMap.mp (LinkedMap.mem_entries_ofList hmem)
        obtain ⟨role, u, p⟩ := e
        obtain ⟨hu, hp, hshape⟩ := parseLine_eq_some.mp he
        refine ⟨text, line, u, p, rfl, hline, hu, hp, ?_⟩
        rcases hshape with ⟨hshape, -⟩ | ⟨r, hshape, -⟩
        · exact Or.inl hshape
        · exact Or.inr ⟨r, hshape⟩

/-! ## The server's side -/

/-- A line names a user by its first field. -/
theorem lineEntry_name {line u : Bytes} :
    (∃ found, lineEntry line = some (u, found)) ↔
      (lineText line).any isColon = true ∧ (tokens isColon (lineText line)).head? = some u := by
  constructor
  · rintro ⟨found, hentry⟩
    obtain ⟨hcolon, rest, htokens, -⟩ := lineEntry_eq_some.mp hentry
    refine ⟨hcolon, ?_⟩
    rw [lineText, htokens]
    rfl
  · rintro ⟨hcolon, hhead⟩
    obtain ⟨rest, htokens⟩ := List.head?_eq_some_iff.mp hhead
    exact ⟨_, lineEntry_eq_some.mpr ⟨hcolon, rest, htokens, rfl⟩⟩

theorem any_isColon_of_tokens {text u p : Bytes} {more : List Bytes}
    (h : tokens isColon text = u :: p :: more) : text.any isColon = true := by
  by_contra hnone
  have hfree : ∀ y ∈ text, isColon y = false := by
    intro y hy
    by_contra hc
    exact hnone (List.any_eq_true.mpr ⟨y, hy, by simpa using hc⟩)
  by_cases hnil : text = []
  · rw [hnil, tokens_nil] at h
    cases h
  · rw [tokens_of_free hfree hnil] at h
    cases h

/-- A line has a password if it has a second field. -/
theorem lineEntry_password {line u p : Bytes} :
    (∃ found, lineEntry line = some (u, found) ∧ found.password = some p) ↔
      ∃ more, tokens isColon (lineText line) = u :: p :: more := by
  constructor
  · rintro ⟨found, hentry, hpass⟩
    obtain ⟨-, rest, htokens, rfl⟩ := lineEntry_eq_some.mp hentry
    cases rest with
    | nil => cases hpass
    | cons q more =>
      cases hpass
      exact ⟨more, htokens⟩
  · rintro ⟨more, hmore⟩
    exact ⟨_, lineEntry_eq_some.mpr ⟨any_isColon_of_tokens hmore, _, hmore, rfl⟩, rfl⟩

theorem serverCredential_iff {users : Option Bytes} :
    ServerCredential users ↔
      ∃ u line hash, sshd4aFindUser users (some u) = .ok (some line) ∧
        line.password = some hash ∧ hash ≠ [] := by
  constructor
  · rintro ⟨content, before, line, after, u, p, more, rfl, hsplit, hfields, hfirst⟩
    obtain ⟨found, hentry, hpass⟩ := lineEntry_password.mpr ⟨more, hfields⟩
    have hfind : findUser (some content) u = some found := by
      refine findUser_eq_some.mpr ⟨content, before, line, after, rfl, hsplit, hentry, ?_⟩
      intro l hl found' hl'
      obtain ⟨hcolon, hhead⟩ := lineEntry_name.mp ⟨found', hl'⟩
      exact hfirst l hl hcolon hhead
    refine ⟨u, found, p, ?_, hpass, findUser_password_ne_nil hfind hpass⟩
    rw [sshd4aFindUser_some, hfind]
  · rintro ⟨u, found, p, hfind, hpass, -⟩
    rw [sshd4aFindUser_some, Except.ok.injEq] at hfind
    obtain ⟨content, before, line, after, rfl, hsplit, hentry, hfirst⟩ := findUser_eq_some.mp hfind
    obtain ⟨more, hfields⟩ := lineEntry_password.mp ⟨found, hentry, hpass⟩
    refine ⟨content, before, line, after, u, p, more, rfl, hsplit, hfields, ?_⟩
    intro l hl hcolon hhead
    obtain ⟨found', hl'⟩ := lineEntry_name.mpr ⟨hcolon, hhead⟩
    exact hfirst l hl found' hl'

/-- A file that counts is large enough for the password method. -/
theorem ServerCredential.configFileExists {users : Option Bytes} (h : ServerCredential users) :
    configFileExists users 3 = true := by
  obtain ⟨content, before, line, after, u, p, more, rfl, hsplit, hfields, -⟩ := h
  have hline : line.length ≤ content.length := by
    apply length_le_of_mem_splitOnP
    rw [hsplit]
    exact List.mem_append_right _ List.mem_cons_self
  have htext : (lineText line).length ≤ line.length := by
    calc (lineText line).length
        ≤ (line.rdropWhile isEol).length := (List.takeWhile_prefix _).length_le
      _ ≤ line.length := (List.rdropWhile_prefix _ _).length_le
  have hthree := length_of_two_tokens hfields
  simp only [Sshd4a.configFileExists, decide_eq_true_eq]
  omega

theorem usableMethod_iff (cfg : Config) (start : SessionStart) :
    UsableMethod cfg start ↔
      cfg.enableSingleUsePasswords = true ∨ sshd4aEnablePublicKeyAuth cfg start = true ∨
        ServerCredential start.authorizedUsers := by
  rw [UsableMethod, ← serverCredential_iff]
  constructor
  · rintro (hkey | hsingle | ⟨-, hserver⟩)
    · exact Or.inr (Or.inl hkey)
    · exact Or.inl hsingle
    · exact Or.inr (Or.inr hserver)
  · rintro (hsingle | hkey | hserver)
    · exact Or.inr (Or.inl hsingle)
    · exact Or.inl hkey
    · refine Or.inr (Or.inr ⟨?_, hserver⟩)
      rw [password_svrAuthinitialise, hserver.configFileExists, Bool.or_true]

/-! ## Agreement -/

/-- **When the warning agrees with the server.** -/
theorem hasAtLeastOneAuthMethod_iff (prefs : Settings.Store) (cfg : Config)
    (start : SessionStart) :
    LockoutAgrees prefs cfg start ↔
      isEnableSingleUsePasswordAuth prefs = true ∨
      (isEnablePublicKeyAuth prefs = true ∧
        ((∃ keys, start.authorizedKeys = some keys ∧ 10 ≤ keys.length) ∨
          ServerCredential start.authorizedUsers)) ∨
      (isEnablePublicKeyAuth prefs = false ∧
        (AppCredential start.authorizedUsers ↔ ServerCredential start.authorizedUsers)) := by
  have hkeys : configFileExists start.authorizedKeys 10 = true ↔
      ∃ keys, start.authorizedKeys = some keys ∧ 10 ≤ keys.length := by
    cases start.authorizedKeys with
    | none => simp [configFileExists]
    | some keys => simp [configFileExists]
  rw [LockoutAgrees, usableMethod_iff, ← hkeys, appCredential_iff]
  simp only [hasAtLeastOneAuthMethod, startConfig, sshd4aEnablePublicKeyAuth]
  cases isEnableSingleUsePasswordAuth prefs with
  | true => simp
  | false =>
    cases isEnablePublicKeyAuth prefs with
    | true => simp
    | false => simp

/-- Preferences in which single-use passwords are off and the rest was never touched. -/
def keysOnly : Settings.Store where
  bools
    | .enableSingleUsePasswords => some false
    | _ => none
  choices := fun _ => none
  texts := fun _ => none

/-- Public keys are allowed and there is none: the app sees a method, a session has none. -/
theorem lockout_keysOnly :
    ¬ LockoutAgrees keysOnly (appConfig false) ⟨none, none, Vector.replicate 8 0⟩ := by
  intro h
  have happ : hasAtLeastOneAuthMethod keysOnly none = true := rfl
  rcases h.mp happ with hkey | hsingle | ⟨hpassword, -⟩
  · cases hkey
  · cases hsingle
  · cases hpassword

end Sshd4a
