import Sshd4a.App.Login
import Sshd4a.Lib.AsciiSplit

/-!
# Two readers of one file

The native reader takes, for a username, the first line between newlines, split at runs of
colons; the app takes, for a role, the last line between line ends, split at the first two
colons. On what the app writes they agree; on an arbitrary file they need not, and this module
says exactly when they do.

`honoured_is_shown_iff` is about what the server honours and the app shows, and compares the two on
the text of the lines: a line that grants a user a privileged role, ahead of any other that names the
user, has to be spelled out somewhere with single colons and nothing else, and no line behind that
one may take the role.
`settings_neutral_iff` is about a visit to the Settings screen without an
edit, which rewrites the file from what the app keeps of it three times over: it changes no
login exactly when every deciding line is the last one of its role and no earlier role ends in
a line for the same username, and nothing is kept that the native reader did not honour.
-/

namespace Sshd4a

open Text

/-! ## What the server honours and the app shows -/

/-- Every privileged answer of the native reader is in the app's map, under its role. -/
def HonouredIsShown (text : JString) (u : Bytes) : Prop :=
  ∀ b h, b ≠ Branch.user →
    sshd4aFindUser (some (utf8 text)) (some u) = .ok (some ⟨some h, b.role⟩) →
    ∃ up, (readAllAuthorizedUsers (some (utf8 text))).get? b.roleString = some up ∧
      utf8 up.username = u ∧ utf8 up.hash = h

def isNul (c : Char) : Bool := c == Char.ofNat 0

def isLF (c : Char) : Bool := c == '\n'

/-- A line without the carriage returns at its end, up to a NUL. -/
def stem (line : JString) : JString := (line.rdropWhile isLineEnd).takeWhile fun c => !isNul c

/-- The fields between colons that are not empty. -/
def filled (line : JString) : List JString := tokens isJColon (stem line)

/-- A line with a colon, whose first field that is not empty is the name. -/
def NamesUser (line x : JString) : Prop := ':' ∈ stem line ∧ ∃ more, filled line = x :: more

/-- A line for a user with a role, however many colons there are between the fields, and whatever
    comes behind. -/
def Grants (line x y role : JString) : Prop := ∃ more, filled line = x :: y :: role :: more

/-- A line that is `x:y:role`, with nothing blank. -/
structure Spells (line role x y : JString) : Prop where
  text : line = x ++ ':' :: (y ++ ':' :: role)
  username : isBlank x = false ∧ ':' ∉ x
  hash : isBlank y = false ∧ ':' ∉ y

/-- A line of the text spells it, and no later line takes its role. -/
def SpelledLast (text role x y : JString) : Prop :=
  ∃ before line after, text.splitOnP isLineEnd = before ++ line :: after ∧
    Spells line role x y ∧ ∀ later ∈ after, ∀ x' y', ¬ Spells later role x' y'

/-- Whatever a line grants the user as `root` or `shell`, ahead of any other that names the user, is
    spelled out. -/
def GrantsSpelled (text : JString) (u : Bytes) : Prop :=
  ∀ before line after x y b, b ≠ Branch.user →
    text.splitOnP isLF = before ++ line :: after → utf8 x = u → Grants line x y b.roleString →
    (∀ l ∈ before, ¬ NamesUser l x) → SpelledLast text b.roleString x y

theorem asciiDelim_colon : AsciiDelim isColon isJColon := .eq (by decide)

theorem asciiDelim_newline : AsciiDelim isNewline isLF := .eq (by decide)

theorem asciiDelim_eol : AsciiDelim isEol isLineEnd := (AsciiDelim.eq (by decide)).or (.eq (by decide))

theorem asciiDelim_nul : AsciiDelim (fun b => b == 0) isNul := .eq (d := Char.ofNat 0) (by decide)

/-- The native reader looks at the stem of a line. -/
theorem cstr_utf8 (line : JString) : cstr ((utf8 line).rdropWhile isEol) = utf8 (stem line) := by
  rw [asciiDelim_eol.rdropWhile_utf8]
  exact asciiDelim_nul.takeWhile_utf8 _

/-- **What the native reader makes of a line**, on its characters. -/
theorem lineEntry_utf8 {line : JString} {u : Bytes} {found : UserLine} :
    lineEntry (utf8 line) = some (u, found) ↔
      ∃ x more, utf8 x = u ∧ ':' ∈ stem line ∧ filled line = x :: more ∧
        found = ⟨more[0]?.map utf8, (more[1]?.map utf8).getD sshd4aRoleUser⟩ := by
  have hcolon : (stem line).any isJColon = true ↔ ':' ∈ stem line := by
    simp [isJColon]
  rw [lineEntry_eq_some, cstr_utf8, asciiDelim_colon.any_utf8, asciiDelim_colon.tokens_utf8, hcolon]
  constructor
  · rintro ⟨hmem, rest, htokens, rfl⟩
    obtain ⟨x, more, hfilled, rfl, rfl⟩ := List.map_eq_cons_iff.mp htokens
    refine ⟨x, more, rfl, hmem, hfilled, ?_⟩
    rw [List.getElem?_map, List.getElem?_map]
  · rintro ⟨x, more, rfl, hmem, hfilled, rfl⟩
    refine ⟨hmem, more.map utf8, ?_, ?_⟩
    · rw [filled] at hfilled
      rw [hfilled, List.map_cons]
    · rw [List.getElem?_map, List.getElem?_map]

theorem lineEntry_names {line x : JString} :
    (∃ found, lineEntry (utf8 line) = some (utf8 x, found)) ↔ NamesUser line x := by
  constructor
  · rintro ⟨found, h⟩
    obtain ⟨x', more, hx, hmem, hfilled, -⟩ := lineEntry_utf8.mp h
    rw [utf8_injective hx] at hfilled
    exact ⟨hmem, more, hfilled⟩
  · rintro ⟨hmem, more, hfilled⟩
    exact ⟨_, lineEntry_utf8.mpr ⟨x, more, rfl, hmem, hfilled, rfl⟩⟩

/-- There are two fields only around a colon. -/
theorem colon_mem_stem {line x y : JString} {more : List JString}
    (h : filled line = x :: y :: more) : ':' ∈ stem line := by
  by_contra hmem
  have hfree := isJColon_false.mpr hmem
  rw [filled] at h
  by_cases hnil : stem line = []
  · rw [hnil, tokens_nil] at h
    cases h
  · rw [tokens_of_free hfree hnil] at h
    cases h

theorem lineEntry_grants {line : JString} {u h : Bytes} {b : Branch} (hb : b ≠ .user) :
    lineEntry (utf8 line) = some (u, ⟨some h, b.role⟩) ↔
      ∃ x y, utf8 x = u ∧ utf8 y = h ∧ Grants line x y b.roleString := by
  rw [lineEntry_utf8]
  constructor
  · rintro ⟨x, more, rfl, -, hfilled, hfound⟩
    obtain ⟨hpass, hrole⟩ := UserLine.mk.inj hfound
    cases more with
    | nil => cases hpass
    | cons y rest =>
      cases rest with
      | nil =>
        have hne : b.role ≠ sshd4aRoleUser := by
          cases b with
          | user => exact absurd rfl hb
          | root => decide
          | shell => decide
        exact absurd hrole hne
      | cons role more =>
        refine ⟨x, y, rfl, (Option.some.inj hpass).symm, more, ?_⟩
        rw [hfilled, utf8_injective (s := b.roleString) (t := role)]
        rw [utf8_roleString]
        exact hrole
  · rintro ⟨x, y, rfl, rfl, more, hfilled⟩
    refine ⟨x, y :: b.roleString :: more, rfl, colon_mem_stem hfilled, hfilled, ?_⟩
    rw [← utf8_roleString]
    rfl

/-- What the native reader answers for a privileged role, on the lines of the text. -/
theorem decidingLine_grants {text : JString} {u h : Bytes} {b : Branch} (hb : b ≠ .user) :
    DecidingLine (some (utf8 text)) u ⟨some h, b.role⟩ ↔
      ∃ before line after x y, text.splitOnP isLF = before ++ line :: after ∧ utf8 x = u ∧
        utf8 y = h ∧ Grants line x y b.roleString ∧ ∀ l ∈ before, ¬ NamesUser l x := by
  constructor
  · rintro ⟨content, before, line, after, hcontent, hsplit, hentry, hbefore⟩
    obtain rfl := Option.some.inj hcontent
    rw [asciiDelim_newline.splitOnP_utf8] at hsplit
    obtain ⟨before, rest, htext, rfl, hrest⟩ := List.map_eq_append_iff.mp hsplit
    obtain ⟨line, after, rfl, rfl, rfl⟩ := List.map_eq_cons_iff.mp hrest
    obtain ⟨x, y, rfl, hy, hgrants⟩ := (lineEntry_grants hb).mp hentry
    refine ⟨before, line, after, x, y, htext, rfl, hy, hgrants, ?_⟩
    intro l hl hnames
    obtain ⟨found', hfound⟩ := lineEntry_names.mpr hnames
    exact hbefore _ (List.mem_map_of_mem hl) found' hfound
  · rintro ⟨before, line, after, x, y, htext, rfl, hy, hgrants, hbefore⟩
    refine ⟨utf8 text, before.map utf8, utf8 line, after.map utf8, rfl, ?_,
      (lineEntry_grants hb).mpr ⟨x, y, rfl, hy, hgrants⟩, ?_⟩
    · rw [asciiDelim_newline.splitOnP_utf8, htext, List.map_append, List.map_cons]
    · intro l hl found' hfound
      obtain ⟨line', hline', rfl⟩ := List.mem_map.mp hl
      exact hbefore line' hline' (lineEntry_names.mp ⟨found', hfound⟩)

/-- The lines the app takes for a privileged role. -/
theorem parseLine_spells {line : JString} {b : Branch} (hb : b ≠ .user) {up : UserPass} :
    parseLine line = some (b.roleString, up) ↔ Spells line b.roleString up.username up.hash := by
  have hrole : b.roleString ≠ roleUser ∧ isBlank b.roleString = false := by
    cases b with
    | user => exact absurd rfl hb
    | root => decide
    | shell => decide
  rw [parseLine_eq_some]
  constructor
  · rintro ⟨hu, hh, ⟨-, hr⟩ | ⟨r, hline, hr⟩⟩
    · exact absurd hr hrole.1
    · by_cases hblank : isBlank r = true
      · rw [if_pos hblank] at hr
        exact absurd hr hrole.1
      · rw [if_neg hblank] at hr
        exact ⟨hr ▸ hline, hu, hh⟩
  · intro h
    refine ⟨h.username, h.hash, Or.inr ⟨b.roleString, h.text, ?_⟩⟩
    rw [if_neg (by simp [hrole.2])]

/-- **What the app has for a privileged role** is the last line that spells it. -/
theorem readAll_get?_privileged {text : JString} {b : Branch} (hb : b ≠ .user) {up : UserPass} :
    (readAllAuthorizedUsers (some (utf8 text))).get? b.roleString = some up ↔
      SpelledLast text b.roleString up.username up.hash := by
  have haccepted : acceptedLines (some (utf8 text))
      = (text.splitOnP isLineEnd).filterMap parseLine := by
    rw [acceptedLines, Option.bind_some, decodeUtf8_utf8]
    exact readAllLines_filterMap parseLine_nil text
  rw [LinkedMap.get?_eq_some, mem_entries_readAll, LastOfRole, haccepted]
  constructor
  · rintro ⟨before, after, heq, hafter⟩
    obtain ⟨lines, rest, hlines, -, hrest⟩ := List.filterMap_eq_append_iff.mp heq
    obtain ⟨skipped, line, later, hsplit, hskip, hparse, hlater⟩ :=
      List.filterMap_eq_cons_iff.mp hrest
    refine ⟨lines ++ skipped, line, later, by rw [hlines, hsplit, List.append_assoc], ?_, ?_⟩
    · exact (parseLine_spells hb).mp hparse
    · intro l hl x' y' hspells
      have hl' : (b.roleString, ⟨x', y'⟩) ∈ after := by
        rw [← hlater]
        exact List.mem_filterMap.mpr ⟨l, hl, (parseLine_spells hb).mpr hspells⟩
      exact hafter _ hl' rfl
  · rintro ⟨before, line, after, hlines, hspells, hafter⟩
    refine ⟨before.filterMap parseLine, after.filterMap parseLine, ?_, ?_⟩
    · rw [hlines, List.filterMap_append,
        List.filterMap_cons_some ((parseLine_spells hb).mpr hspells)]
    · rintro ⟨role, up'⟩ he rfl
      obtain ⟨l, hl, hparse⟩ := List.mem_filterMap.mp he
      exact hafter l hl _ _ ((parseLine_spells hb).mp hparse)

/-- **The server honours no more than the app shows exactly when every line that grants a privileged
    role, ahead of any other for the user, is spelled out by a line that no later one overrides.** -/
theorem honoured_is_shown_iff (text : JString) (u : Bytes) :
    HonouredIsShown text u ↔ GrantsSpelled text u := by
  have hfind : ∀ found, sshd4aFindUser (some (utf8 text)) (some u) = .ok (some found) ↔
      DecidingLine (some (utf8 text)) u found := by
    intro found
    rw [sshd4aFindUser_some, Except.ok.injEq]
    exact findUser_eq_some
  constructor
  · intro h before line after x y b hb htext hx hgrants hbefore
    have hanswer := (hfind _).mpr ((decidingLine_grants hb).mpr
      ⟨before, line, after, x, y, htext, hx, rfl, hgrants, hbefore⟩)
    obtain ⟨up, hget, hu, hh⟩ := h b (utf8 y) hb hanswer
    have hlast := (readAll_get?_privileged hb).mp hget
    rwa [utf8_injective (hu.trans hx.symm), utf8_injective hh] at hlast
  · intro h b hash hb hanswer
    obtain ⟨before, line, after, x, y, htext, hx, hy, hgrants, hbefore⟩ :=
      (decidingLine_grants hb).mp ((hfind _).mp hanswer)
    have hlast := h before line after x y b hb htext hx hgrants hbefore
    exact ⟨⟨x, y⟩, (readAll_get?_privileged hb).mpr hlast, hx, hy⟩

/-- An ordinary line spells what it grants: three fields with something in them, single colons, and
    neither a NUL nor a line end. -/
theorem Spells.grants {line role x y : JString} (h : Spells line role x y) (hrole : role ≠ [])
    (hcolon : ':' ∉ role) (hplain : ∀ c ∈ line, isLineEnd c = false ∧ isNul c = false) :
    Grants line x y role := by
  have hstem : stem line = line := by
    have hend : line.rdropWhile isLineEnd = line := by
      rw [List.rdropWhile_eq_self_iff]
      intro hne
      simp [(hplain _ (List.getLast_mem hne)).1]
    rw [stem, hend, List.takeWhile_eq_self_iff]
    intro c hc
    simp [(hplain c hc).2]
  refine ⟨[], ?_⟩
  rw [filled, hstem, h.text,
    tokens_field_cons _ (isJColon_false.mpr h.username.2) (ne_nil_of_isBlank_false h.username.1) rfl,
    tokens_field_cons _ (isJColon_false.mpr h.hash.2) (ne_nil_of_isBlank_false h.hash.1) rfl,
    tokens_of_free (isJColon_false.mpr hcolon) hrole]

/-- `alice::H:root` -/
def doubledColon : JString := ['a', 'l', 'i', 'c', 'e', ':', ':', 'H', ':', 'r', 'o', 'o', 't']

/-- The native reader skips the empty field and answers root; the app skips the line. -/
theorem doubledColon_not_shown : ¬ HonouredIsShown doubledColon aliceName := by
  intro h
  obtain ⟨up, hget, -⟩ := h .root [byte 'H'] (by decide) (by decide +kernel)
  have hnone : (readAllAuthorizedUsers (some (utf8 doubledColon))).get? roleRoot = none := by
    rw [readAll_utf8]
    decide +kernel
  rw [Branch.roleString, hnone] at hget
  exact absurd hget (by simp)

/-! ## A visit to the Settings screen -/

/-- The stores are set up from the file and the screen is left, without an edit. -/
def visitSettings (sha : Sha512) (file : Option Bytes) : Option Bytes :=
  handleOnBackPressed sha (userPassDataStore file) (rootPassDataStore file)
    (shellPassDataStore file) file

/-- A store that was not edited writes back what it read. -/
theorem storeCredentials_untouched (sha : Sha512) {file file' : Option Bytes}
    (hsame : readAllAuthorizedUsers file' = readAllAuthorizedUsers file) (role : JString)
    (k k' : PrefKey) :
    (UserPassStorage.new file role k k').storeCredentials sha file'
      = writeAllAuthorizedUsers (readAllAuthorizedUsers file) := by
  have hupdate : (UserPassStorage.new file role k k').update
      = ⟨role, ((readAllAuthorizedUsers file).get? role).map UserPass.username, false, none⟩ := by
    unfold UserPassStorage.new readAuthorizedUser
    cases (readAllAuthorizedUsers file).get? role <;> rfl
  have htable : updateAuthorizedUser sha (readAllAuthorizedUsers file)
      ⟨role, ((readAllAuthorizedUsers file).get? role).map UserPass.username, false, none⟩
      = some (readAllAuthorizedUsers file) := by
    unfold updateAuthorizedUser
    cases hget : (readAllAuthorizedUsers file).get? role with
    | none => exact congrArg some (LinkedMap.remove_of_get? hget)
    | some up =>
      have hblank : isBlank up.username = false :=
        (readable_readAll _ (LinkedMap.get?_eq_some.mp hget)).username.1
      simp only [Option.map_some, hblank, Bool.not_false, Bool.false_eq_true, if_true,
        if_false]
      exact congrArg some (LinkedMap.put_of_get? hget)
  rw [UserPassStorage.storeCredentials, hupdate, writeAuthorizedUser, hsame, htable]

/-- **Three passes are one**: the file afterwards spells what the app read at first. -/
theorem visitSettings_eq (sha : Sha512) (file : Option Bytes) :
    visitSettings sha file = writeAllAuthorizedUsers (readAllAuthorizedUsers file) := by
  have hback : readAllAuthorizedUsers (writeAllAuthorizedUsers (readAllAuthorizedUsers file))
      = readAllAuthorizedUsers file := readAll_writeAll readable_readAll
  unfold visitSettings handleOnBackPressed
  rw [show (userPassDataStore file).storeCredentials sha file = _ from
      storeCredentials_untouched sha rfl _ _ _,
    show (rootPassDataStore file).storeCredentials sha _ = _ from
      storeCredentials_untouched sha hback _ _ _]
  exact storeCredentials_untouched sha hback _ _ _

/-- The lines that decide a login are kept, ahead of any other for the username, and a line
    that is kept is for a username that had one. -/
structure KeepsLogins (file : Option Bytes) : Prop where
  survives : ∀ u found, DecidingLine file u found → ∃ e, KeptFirst file u e found
  noRevival : ∀ e u found, LastOfRole file e → nativeEntry e = some (u, found) →
    ∃ found', DecidingLine file u found'

/-- When a visit leaves what is said about every username as it was. -/
theorem findUser_visitSettings_iff (sha : Sha512) (file : Option Bytes) :
    (∀ u, findUser (visitSettings sha file) u = findUser file u) ↔ KeepsLogins file := by
  have hvisit : ∀ {u found}, findUser (visitSettings sha file) u = some found ↔
      ∃ e, KeptFirst file u e found := by
    intro u found
    rw [visitSettings_eq]
    exact findUser_rewritten
  constructor
  · intro h
    refine ⟨fun u found hd => ?_, fun e u found hlast hentry => ?_⟩
    · rw [← findUser_eq_some, ← h u] at hd
      exact hvisit.mp hd
    · -- The username is found after the visit, so it was before.
      have hmem : (u, found) ∈ userEntries (visitSettings sha file) := by
        rw [visitSettings_eq, userEntries_writeAll fun e he => (readable_readAll e he).newline]
        exact List.mem_filterMap.mpr ⟨e, mem_entries_readAll.mpr hlast, hentry⟩
      cases hf : findUser (visitSettings sha file) u with
      | some found' => exact ⟨found', findUser_eq_some.mp (h u ▸ hf)⟩
      | none =>
        rw [findUser, Option.map_eq_none_iff, List.find?_eq_none] at hf
        exact absurd (by simp) (hf (u, found) hmem)
  · intro h u
    cases hf : findUser file u with
    | some found => exact hvisit.mpr (h.survives u found (findUser_eq_some.mp hf))
    | none =>
      cases hv : findUser (visitSettings sha file) u with
      | none => rfl
      | some found =>
        obtain ⟨e, he⟩ := hvisit.mp hv
        obtain ⟨found', hd⟩ := h.noRevival e u found he.last he.entry
        exact absurd (hf.symm.trans (findUser_eq_some.mpr hd)) (by simp)

/-- **A visit without an edit changes no login exactly when the app keeps the lines that decide
    one, and no others.** -/
theorem settings_neutral_iff (sha : Sha512) (file : Option Bytes) :
    (∀ u, sshd4aFindUser (visitSettings sha file) (some u) = sshd4aFindUser file (some u)) ↔
      KeepsLogins file := by
  simp only [sshd4aFindUser_some, Except.ok.injEq]
  exact findUser_visitSettings_iff sha file

/-- `bob:x` and `eve:y`, two plain users. -/
def twoUsers : JString := ['b', 'o', 'b', ':', 'x', '\n', 'e', 'v', 'e', ':', 'y', '\n']

/-- The map is keyed by role, so of two users of one role only the last is left. -/
theorem twoUsers_lost :
    ¬ ∀ u, sshd4aFindUser (visitSettings (Sha512.const placeholderDigest) (some (utf8 twoUsers)))
        (some u) = sshd4aFindUser (some (utf8 twoUsers)) (some u) := by
  intro h
  have hafter : visitSettings (Sha512.const placeholderDigest) (some (utf8 twoUsers))
      = some (utf8 ['e', 'v', 'e', ':', 'y', '\n']) := by
    rw [visitSettings_eq, readAll_utf8]
    decide +kernel
  have hbob := h (['b', 'o', 'b'].map byte)
  rw [hafter] at hbob
  exact absurd hbob (by decide +kernel)

end Sshd4a
