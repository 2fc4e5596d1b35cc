import Sshd4a.App.SshdSettings
import Sshd4a.Auth.Request

/-!
# The written file, as both readers see it

The app spells a map of roles as one line per entry. Here is what the two readers make of such
a file: the native one finds the first entry for a username, with its hash and role
(`sshd4aFindUser_writeAll`), and the app's own one gets the map back, order included
(`readAll_writeAll`). From the two follows what the app makes of a file it did not write, when
it reads it and writes it back (`findUser_rewritten`).

The two need different things of an entry. For the native reader the fields must be free of
what ends a line or a field there (`Writable`); for the app's reader, of what ends a line or a
field *there* (`Readable`), and every entry it has ever read is of that kind.
-/

namespace Sshd4a

open Text

/-! ## Lines -/

theorem isNewline_iff {b : UInt8} : isNewline b = true ↔ b = byte '\n' := by
  simp [isNewline]

theorem newline_free {s : JString} (h : '\n' ∉ s) : ∀ b ∈ utf8 s, isNewline b = false := by
  intro b hb
  cases hn : isNewline b with
  | false => rfl
  | true =>
    rw [isNewline_iff] at hn
    exact absurd ((mem_utf8 (by decide)).mp (hn ▸ hb)) h

theorem colon_free {s : JString} (h : ':' ∉ s) : ∀ b ∈ utf8 s, isColon b = false := by
  intro b hb
  cases hc : isColon b with
  | false => rfl
  | true =>
    simp only [isColon, beq_iff_eq] at hc
    exact absurd ((mem_utf8 (by decide)).mp (hc ▸ hb)) h

theorem nul_free {s : JString} : 0 ∉ utf8 s ↔ Char.ofNat 0 ∉ s :=
  not_congr (mem_utf8 (c := Char.ofNat 0) (by decide))

theorem utf8_writtenLines (es : List (JString × UserPass)) :
    utf8 (es.flatMap writtenLine)
      = (es.map fun e => utf8 (authorizedLine e.1 e.2)).flatMap (fun l => l ++ [byte '\n']) := by
  induction es with
  | nil => rfl
  | cons e es ih =>
    rw [List.flatMap_cons, utf8_append, ih, List.map_cons, List.flatMap_cons, writtenLine,
      utf8_append, utf8_cons_ascii (by decide), utf8_nil]

/-- What the native reader makes of the line of an entry. -/
def nativeEntry (e : JString × UserPass) : Option (Bytes × UserLine) :=
  lineEntry (utf8 (authorizedLine e.1 e.2))

theorem userEntries_written {es : List (JString × UserPass)}
    (h : ∀ e ∈ es, '\n' ∉ authorizedLine e.1 e.2) :
    userEntries (some (utf8 (es.flatMap writtenLine)))
      = es.filterMap nativeEntry := by
  rw [userEntries, utf8_writtenLines, splitOnP_lines (by decide), List.filterMap_append,
    List.filterMap_map]
  · have hnil : [([] : Bytes)].filterMap lineEntry = [] := rfl
    rw [hnil, List.append_nil]
    rfl
  · intro l hl
    obtain ⟨e, he, rfl⟩ := List.mem_map.mp hl
    exact newline_free (h e he)

/-- A file that is not there and an empty one say the same to the native reader. -/
theorem userEntries_writeAll {all : LinkedMap JString UserPass}
    (h : ∀ e ∈ all.entries, '\n' ∉ authorizedLine e.1 e.2) :
    userEntries (writeAllAuthorizedUsers all)
      = all.entries.filterMap nativeEntry := by
  unfold writeAllAuthorizedUsers
  by_cases he : all.isEmpty = true
  · rw [if_pos he, LinkedMap.isEmpty_iff.mp he]
    rfl
  · rw [if_neg he]
    exact userEntries_written h

/-! ## What the native reader needs -/

/-- An entry whose fields hold nothing the native reader takes for a delimiter. The username
    may hold a carriage return: only the end of a line is stripped. -/
structure Writable (e : JString × UserPass) : Prop where
  username : isBlank e.2.username = false ∧ ':' ∉ e.2.username ∧ '\n' ∉ e.2.username ∧
    Char.ofNat 0 ∉ e.2.username
  hash : e.2.hash ≠ [] ∧ ':' ∉ e.2.hash ∧ '\r' ∉ e.2.hash ∧ '\n' ∉ e.2.hash ∧
    Char.ofNat 0 ∉ e.2.hash
  role : isBlank e.1 = false ∧ ':' ∉ e.1 ∧ '\r' ∉ e.1 ∧ '\n' ∉ e.1 ∧ Char.ofNat 0 ∉ e.1

theorem rdropWhile_isEol_append {l s : JString} (hne : s ≠ []) (hcr : '\r' ∉ s) (hlf : '\n' ∉ s) :
    (utf8 (l ++ s)).rdropWhile isEol = utf8 (l ++ s) := by
  rw [List.rdropWhile_eq_self_iff]
  intro hl heol
  have hlast : (utf8 (l ++ s)).getLast hl ∈ utf8 s := by
    have hs : utf8 s ≠ [] := fun h => hne (utf8_eq_nil.mp h)
    simp only [utf8_append, List.getLast_append_of_ne_nil _ hs]
    exact List.getLast_mem hs
  simp only [isEol, Bool.or_eq_true, beq_iff_eq] at heol
  rcases heol with heq | heq
  · exact hlf ((mem_utf8 (by decide)).mp (heq ▸ hlast))
  · exact hcr ((mem_utf8 (by decide)).mp (heq ▸ hlast))

theorem lineEntry_of_tokens {line : Bytes} (hstrip : line.rdropWhile isEol = line)
    (hnul : 0 ∉ line) (hcolon : byte ':' ∈ line) {user : Bytes} {rest : List Bytes}
    (htok : tokens isColon line = user :: rest) :
    lineEntry line = some (user, ⟨rest[0]?, rest[1]?.getD sshd4aRoleUser⟩) := by
  rw [lineEntry, lineFields_eq_tokens, hstrip, cstr_eq_self.mpr hnul,
    if_pos (List.any_eq_true.mpr ⟨byte ':', hcolon, by decide⟩), htok]
  rfl

/-- **A written line says what was written.** -/
theorem nativeEntry_of_writable {e : JString × UserPass} (h : Writable e) :
    nativeEntry e = some (utf8 e.2.username, ⟨some (utf8 e.2.hash), utf8 e.1⟩) := by
  obtain ⟨role, ⟨u, p⟩⟩ := e
  obtain ⟨⟨hub, huc, hun, hu0⟩, ⟨hpne, hpc, hpr, hpn, hp0⟩, ⟨hrb, hrc, hrr, hrn, hr0⟩⟩ := h
  simp only at hub huc hun hu0 hpne hpc hpr hpn hp0 hrb hrc hrr hrn hr0 ⊢
  have hune : utf8 u ≠ [] := fun hq => ne_nil_of_isBlank_false hub (utf8_eq_nil.mp hq)
  have hpne' : utf8 p ≠ [] := fun hq => hpne (utf8_eq_nil.mp hq)
  have hrne : utf8 role ≠ [] := fun hq => ne_nil_of_isBlank_false hrb (utf8_eq_nil.mp hq)
  have hcolon : isColon (byte ':') = true := by decide
  unfold nativeEntry authorizedLine
  simp only
  by_cases hr : role = roleUser
  · rw [if_pos hr]
    have hbytes : utf8 (u ++ ':' :: p) = utf8 u ++ byte ':' :: utf8 p := by
      rw [utf8_append, utf8_cons_ascii (by decide)]
    have hstrip := rdropWhile_isEol_append (l := u ++ [':']) hpne hpr hpn
    rw [List.append_assoc, List.singleton_append] at hstrip
    have htok : tokens isColon (utf8 (u ++ ':' :: p)) = [utf8 u, utf8 p] := by
      rw [hbytes, tokens_field_cons _ (colon_free huc) hune hcolon,
        tokens_of_free (colon_free hpc) hpne']
    rw [lineEntry_of_tokens hstrip (nul_free.mpr (by simp [hu0, hp0])) (by simp [hbytes]) htok, hr]
    rfl
  · rw [if_neg hr]
    have hbytes : utf8 (u ++ ':' :: (p ++ ':' :: role))
        = utf8 u ++ byte ':' :: (utf8 p ++ byte ':' :: utf8 role) := by
      rw [utf8_append, utf8_cons_ascii (by decide), utf8_append, utf8_cons_ascii (by decide)]
    have hstrip := rdropWhile_isEol_append (l := u ++ ':' :: (p ++ [':']))
      (ne_nil_of_isBlank_false hrb) hrr hrn
    rw [List.append_assoc, List.cons_append, List.append_assoc, List.singleton_append] at hstrip
    have htok : tokens isColon (utf8 (u ++ ':' :: (p ++ ':' :: role)))
        = [utf8 u, utf8 p, utf8 role] := by
      rw [hbytes, tokens_field_cons _ (colon_free huc) hune hcolon,
        tokens_field_cons _ (colon_free hpc) hpne' hcolon, tokens_of_free (colon_free hrc) hrne]
    rw [lineEntry_of_tokens hstrip (nul_free.mpr (by simp [hu0, hp0, hr0])) (by simp [hbytes]) htok]
    rfl

theorem Writable.newline {e : JString × UserPass} (h : Writable e) :
    '\n' ∉ authorizedLine e.1 e.2 := by
  unfold authorizedLine
  split
  · simp [h.username.2.2.1, h.hash.2.2.2.1]
  · simp [h.username.2.2.1, h.hash.2.2.2.1, h.role.2.2.2.1]

/-- **The writer and the native reader agree**: a username is found exactly when some entry
    has it, with hash and role of the first such entry, and every other one has the plain
    user role. -/
theorem sshd4aFindUser_writeAll (all : LinkedMap JString UserPass)
    (h : ∀ e ∈ all.entries, Writable e) (q : Bytes) :
    sshd4aFindUser (writeAllAuthorizedUsers all) (some q)
        = .ok ((all.entries.find? (fun e => utf8 e.2.username = q)).map
            (fun e => ⟨some (utf8 e.2.hash), utf8 e.1⟩)) ∧
      ((∀ e ∈ all.entries, utf8 e.2.username ≠ q) →
        sshd4aGetRoleForUser (writeAllAuthorizedUsers all) q = sshd4aRoleUser) := by
  have hfind : findUser (writeAllAuthorizedUsers all) q
      = (all.entries.find? (fun e => utf8 e.2.username = q)).map
          (fun e => ⟨some (utf8 e.2.hash), utf8 e.1⟩) := by
    have hentries : all.entries.filterMap nativeEntry
        = all.entries.map fun e => (utf8 e.2.username, ⟨some (utf8 e.2.hash), utf8 e.1⟩) := by
      rw [← List.filterMap_eq_map]
      exact List.filterMap_congr fun e he => nativeEntry_of_writable (h e he)
    rw [findUser, userEntries_writeAll fun e he => (h e he).newline, hentries, List.find?_map,
      Option.map_map]
    rfl
  refine ⟨by rw [sshd4aFindUser_some, hfind], fun hq => ?_⟩
  have hnone : all.entries.find? (fun e => utf8 e.2.username = q) = none :=
    List.find?_eq_none.mpr fun e he => by simpa using hq e he
  rw [sshd4aGetRoleForUser_eq, hfind, hnone]
  rfl

/-- A plain user and a root user. -/
def twoRoles : LinkedMap JString UserPass :=
  .ofList [(roleUser, ⟨['b', 'o', 'b'], ['a', 'A', '=', '=']⟩),
    (roleRoot, ⟨['e', 'v', 'e'], ['b', 'Q', '=', '=']⟩)]

theorem sshd4aFindUser_twoRoles :
    sshd4aFindUser (writeAllAuthorizedUsers twoRoles) (some (['e', 'v', 'e'].map byte))
      = .ok (some ⟨some (['b', 'Q', '=', '='].map byte), sshd4aRoleRoot⟩) := by
  have hentries : twoRoles.entries = [(roleUser, ⟨['b', 'o', 'b'], ['a', 'A', '=', '=']⟩),
    (roleRoot, ⟨['e', 'v', 'e'], ['b', 'Q', '=', '=']⟩)] := rfl
  have hwritable : ∀ e ∈ twoRoles.entries, Writable e := by
    intro e he
    rw [hentries, List.mem_cons, List.mem_singleton] at he
    rcases he with rfl | rfl
    · exact ⟨by decide, by decide, by decide⟩
    · exact ⟨by decide, by decide, by decide⟩
  exact (sshd4aFindUser_writeAll twoRoles hwritable (['e', 'v', 'e'].map byte)).1.trans (by decide)

/-! ## What the app's reader needs -/

theorem isJColon_false {s : JString} : (∀ c ∈ s, isJColon c = false) ↔ ':' ∉ s := by
  constructor
  · intro h hm
    exact absurd (h ':' hm) (by decide)
  · intro h c hc
    have hne : c ≠ ':' := fun hq => h (hq ▸ hc)
    simp [isJColon, hne]

theorem isBlank_append_false {a b : JString} (h : isBlank a = false) :
    isBlank (a ++ b) = false := by
  rw [isBlank, List.all_append, ← isBlank, h, Bool.false_and]

theorem fields_eq_some {a b r role u p : JString} :
    (if isBlank a || isBlank b then none else some (r, (⟨a, b⟩ : UserPass))) = some (role, ⟨u, p⟩) ↔
      isBlank a = false ∧ isBlank b = false ∧ r = role ∧ a = u ∧ b = p := by
  split
  · next hblank =>
    rw [Bool.or_eq_true] at hblank
    rcases hblank with hblank | hblank <;> simp [hblank]
  · next hblank =>
    simp only [Bool.or_eq_true, not_or, Bool.not_eq_true] at hblank
    simp [hblank]

/-- **The lines the app accepts**, and what it takes from them. -/
theorem parseLine_eq_some {line role u p : JString} :
    parseLine line = some (role, ⟨u, p⟩) ↔
      (isBlank u = false ∧ ':' ∉ u) ∧ (isBlank p = false ∧ ':' ∉ p) ∧
      ((line = u ++ ':' :: p ∧ role = roleUser) ∨
        ∃ r, line = u ++ ':' :: (p ++ ':' :: r) ∧ role = if isBlank r then roleUser else r) := by
  constructor
  · intro h
    unfold parseLine at h
    split at h
    · exact absurd h (by simp)
    · rcases cut_two_cases isJColon line with ⟨-, hcut⟩ |
        ⟨a, x, b, hline, hx, ha, hb, hcut⟩ | ⟨a, x, b, y, c, hline, hx, hy, ha, hb, hcut⟩
      · rw [hcut] at h
        exact absurd h (by simp)
      · rw [hcut] at h
        obtain ⟨hablank, hbblank, rfl, rfl, rfl⟩ := fields_eq_some.mp h
        simp only [isJColon, beq_iff_eq] at hx
        subst hx
        exact ⟨⟨hablank, isJColon_false.mp ha⟩, ⟨hbblank, isJColon_false.mp hb⟩,
          Or.inl ⟨hline, rfl⟩⟩
      · rw [hcut] at h
        obtain ⟨hablank, hbblank, rfl, rfl, rfl⟩ := fields_eq_some.mp h
        simp only [isJColon, beq_iff_eq] at hx hy
        subst hx hy
        exact ⟨⟨hablank, isJColon_false.mp ha⟩, ⟨hbblank, isJColon_false.mp hb⟩,
          Or.inr ⟨c, hline, rfl⟩⟩
  · rintro ⟨⟨hub, huc⟩, ⟨hpb, hpc⟩, ⟨rfl, rfl⟩ | ⟨r, rfl, rfl⟩⟩
    · unfold parseLine
      rw [if_neg (by simp [isBlank_append_false hub]),
        cut_field_cons p (isJColon_false.mpr huc) (by decide) 1,
        cut_of_free (isJColon_false.mpr hpc) 1]
      simp [hub, hpb]
    · unfold parseLine
      rw [if_neg (by simp [isBlank_append_false hub]),
        cut_field_cons _ (isJColon_false.mpr huc) (by decide) 1,
        cut_field_cons r (isJColon_false.mpr hpc) (by decide) 0, cut]
      simp [hub, hpb]

/-- An entry the app can have read: nothing blank, no line end, and a colon at most in the
    role. -/
structure Readable (e : JString × UserPass) : Prop where
  username : isBlank e.2.username = false ∧ ':' ∉ e.2.username ∧
    ∀ c ∈ e.2.username, isLineEnd c = false
  hash : isBlank e.2.hash = false ∧ ':' ∉ e.2.hash ∧ ∀ c ∈ e.2.hash, isLineEnd c = false
  role : isBlank e.1 = false ∧ ∀ c ∈ e.1, isLineEnd c = false

theorem parseLine_authorizedLine {e : JString × UserPass} (h : Readable e) :
    parseLine (authorizedLine e.1 e.2) = some e := by
  obtain ⟨role, ⟨u, p⟩⟩ := e
  obtain ⟨⟨hub, huc, -⟩, ⟨hpb, hpc, -⟩, ⟨hrb, -⟩⟩ := h
  refine parseLine_eq_some.mpr ⟨⟨hub, huc⟩, ⟨hpb, hpc⟩, ?_⟩
  unfold authorizedLine
  by_cases hr : role = roleUser
  · rw [if_pos hr]
    exact Or.inl ⟨rfl, hr⟩
  · rw [if_neg hr]
    refine Or.inr ⟨role, rfl, ?_⟩
    rw [if_neg (by simp [show isBlank role = false from hrb])]

theorem readable_of_parseLine {line : JString} {e : JString × UserPass}
    (hline : ∀ c ∈ line, isLineEnd c = false) (h : parseLine line = some e) : Readable e := by
  obtain ⟨role, ⟨u, p⟩⟩ := e
  obtain ⟨⟨hub, huc⟩, ⟨hpb, hpc⟩, hcase⟩ := parseLine_eq_some.mp h
  have huser : isBlank roleUser = false ∧ ∀ c ∈ roleUser, isLineEnd c = false :=
    ⟨by decide, by simp [roleUser, isLineEnd]⟩
  rcases hcase with ⟨rfl, rfl⟩ | ⟨r, rfl, rfl⟩
  · exact ⟨⟨hub, huc, fun c hc => hline c (by simp [hc])⟩,
      ⟨hpb, hpc, fun c hc => hline c (by simp [hc])⟩, huser⟩
  · refine ⟨⟨hub, huc, fun c hc => hline c (by simp [hc])⟩,
      ⟨hpb, hpc, fun c hc => hline c (by simp [hc])⟩, ?_⟩
    by_cases hr : isBlank r = true
    · simp only [hr, if_true]
      exact huser
    · simp only [hr, Bool.false_eq_true, if_false]
      exact ⟨by simp, fun c hc => hline c (by simp [hc])⟩

theorem parseLine_nil : parseLine [] = none := rfl

theorem readAll_utf8 (text : JString) :
    readAllAuthorizedUsers (some (utf8 text))
      = .ofList ((text.splitOnP isLineEnd).filterMap parseLine) := by
  rw [readAllAuthorizedUsers, Option.bind_some, decodeUtf8_utf8]
  exact congrArg LinkedMap.ofList (readAllLines_filterMap parseLine_nil text)

theorem readable_readAll {file : Option Bytes} :
    ∀ e ∈ (readAllAuthorizedUsers file).entries, Readable e := by
  intro e he
  cases hd : file.bind decodeUtf8 with
  | none =>
    simp [readAllAuthorizedUsers, hd] at he
  | some text =>
    obtain ⟨content, rfl, hc⟩ := Option.bind_eq_some_iff.mp hd
    rw [decodeUtf8_iff.mp hc, readAll_utf8] at he
    obtain ⟨line, hline, hparse⟩ := List.mem_filterMap.mp (LinkedMap.mem_entries_ofList he)
    exact readable_of_parseLine (not_sep_of_mem_splitOnP hline) hparse

theorem Readable.line {e : JString × UserPass} (h : Readable e) :
    ∀ c ∈ authorizedLine e.1 e.2, isLineEnd c = false := by
  have hcolon : isLineEnd ':' = false := by decide
  intro c hc
  unfold authorizedLine at hc
  split at hc
  · rcases List.mem_append.mp hc with hc | hc
    · exact h.username.2.2 c hc
    · rcases List.mem_cons.mp hc with rfl | hc
      · exact hcolon
      · exact h.hash.2.2 c hc
  · rcases List.mem_append.mp hc with hc | hc
    · exact h.username.2.2 c hc
    · rcases List.mem_cons.mp hc with rfl | hc
      · exact hcolon
      · rcases List.mem_append.mp hc with hc | hc
        · exact h.hash.2.2 c hc
        · rcases List.mem_cons.mp hc with rfl | hc
          · exact hcolon
          · exact h.role.2 c hc

theorem Readable.newline {e : JString × UserPass} (h : Readable e) :
    '\n' ∉ authorizedLine e.1 e.2 := fun hm => absurd (h.line '\n' hm) (by decide)

/-- **The app reads back what it wrote**, in the same order. -/
theorem readAll_writeAll {all : LinkedMap JString UserPass}
    (h : ∀ e ∈ all.entries, Readable e) :
    readAllAuthorizedUsers (writeAllAuthorizedUsers all) = all := by
  unfold writeAllAuthorizedUsers
  by_cases he : all.isEmpty = true
  · rw [if_pos he, LinkedMap.isEmpty_iff.mp he]
    rfl
  · rw [if_neg he, readAll_utf8]
    have hlines : all.entries.flatMap writtenLine
        = (all.entries.map fun e => authorizedLine e.1 e.2).flatMap (fun l => l ++ ['\n']) := by
      rw [List.flatMap_map]
      rfl
    have hfree : ∀ l ∈ all.entries.map (fun e => authorizedLine e.1 e.2),
        ∀ c ∈ l, isLineEnd c = false := by
      intro l hl
      obtain ⟨e, hm, rfl⟩ := List.mem_map.mp hl
      exact (h e hm).line
    rw [hlines, splitOnP_lines (by decide) hfree, List.filterMap_append, List.filterMap_map]
    have hentries : all.entries.filterMap (parseLine ∘ fun e => authorizedLine e.1 e.2)
        = all.entries :=
      (List.filterMap_congr fun e hm => parseLine_authorizedLine (h e hm)).trans
        List.filterMap_some
    have hlast : [([] : JString)].filterMap parseLine = [] := rfl
    rw [hentries, hlast, List.append_nil]
    exact LinkedMap.ofList_entries all

/-! ## What the app keeps of a file -/

/-- The lines of a file that the app accepts, in file order and under their roles. -/
def acceptedLines (file : Option Bytes) : List (JString × UserPass) :=
  match file.bind decodeUtf8 with
  | none => []
  | some text => (readAllLines text).filterMap parseLine

/-- A line after which no other of its role is accepted. -/
def LastOfRole (file : Option Bytes) (e : JString × UserPass) : Prop :=
  ∃ before after, acceptedLines file = before ++ e :: after ∧ ∀ x ∈ after, x.1 ≠ e.1

/-- The roles that occur before a role first does. -/
def rolesBefore (file : Option Bytes) (role : JString) : List JString :=
  ((acceptedLines file).map Prod.fst).takeWhile (fun r => r ≠ role)

/-- Spelled by the app, the line says this about a username to the native reader, and the last
    line of no earlier role says anything about it. -/
structure KeptFirst (file : Option Bytes) (u : Bytes) (e : JString × UserPass) (found : UserLine) :
    Prop where
  last : LastOfRole file e
  entry : nativeEntry e = some (u, found)
  first : ∀ x, LastOfRole file x → x.1 ∈ rolesBefore file e.1 →
    ∀ found', nativeEntry x ≠ some (u, found')

theorem readAll_eq_ofList (file : Option Bytes) :
    readAllAuthorizedUsers file = .ofList (acceptedLines file) := by
  unfold readAllAuthorizedUsers acceptedLines
  cases file.bind decodeUtf8 <;> rfl

theorem mem_entries_readAll {file : Option Bytes} {e : JString × UserPass} :
    e ∈ (readAllAuthorizedUsers file).entries ↔ LastOfRole file e := by
  rw [← LinkedMap.get?_eq_some, readAll_eq_ofList, LinkedMap.get?_ofList_eq_some]
  rfl

theorem mem_takeWhile_readAll {file : Option Bytes} {role : JString} {e : JString × UserPass} :
    e ∈ (readAllAuthorizedUsers file).entries.takeWhile (fun x => x.1 ≠ role) ↔
      LastOfRole file e ∧ e.1 ∈ rolesBefore file role := by
  rw [LinkedMap.mem_takeWhile, mem_entries_readAll, readAll_eq_ofList,
    LinkedMap.mem_takeWhile_keys_ofList]
  rfl

/-- **What a file says to the native reader after the app has read and written it.** -/
theorem findUser_rewritten {file : Option Bytes} {u : Bytes} {found : UserLine} :
    findUser (writeAllAuthorizedUsers (readAllAuthorizedUsers file)) u = some found ↔
      ∃ e, KeptFirst file u e found := by
  rw [findUser, userEntries_writeAll fun e he => (readable_readAll e he).newline,
    LinkedMap.find?_filterMap_entries]
  constructor
  · rintro ⟨e, hmem, hentry, hbefore⟩
    refine ⟨e, mem_entries_readAll.mp hmem, hentry, fun x hx hr => ?_⟩
    exact hbefore x (mem_takeWhile_readAll.mpr ⟨hx, hr⟩)
  · rintro ⟨e, h⟩
    refine ⟨e, mem_entries_readAll.mpr h.last, h.entry, fun x hx => ?_⟩
    obtain ⟨hlast, hr⟩ := mem_takeWhile_readAll.mp hx
    exact h.first x hlast hr

theorem findUser_rewritten_before {file : Option Bytes} {role : JString} {u : Bytes}
    {found : UserLine} :
    findUser (some (utf8 (((readAllAuthorizedUsers file).entries.takeWhile
        (fun x => x.1 ≠ role)).flatMap writtenLine))) u = some found ↔
      ∃ e, KeptFirst file u e found ∧ e.1 ∈ rolesBefore file role := by
  have hentries : (readAllAuthorizedUsers file).entries.takeWhile (fun x => x.1 ≠ role)
      ++ (readAllAuthorizedUsers file).entries.dropWhile (fun x => x.1 ≠ role)
      = (readAllAuthorizedUsers file).entries := List.takeWhile_append_dropWhile
  have hnewline : ∀ e ∈ (readAllAuthorizedUsers file).entries.takeWhile (fun x => x.1 ≠ role),
      '\n' ∉ authorizedLine e.1 e.2 := fun e he =>
    (readable_readAll e ((List.takeWhile_prefix _).subset he)).newline
  -- What is before an entry in the part is before it in the whole.
  have hbefore : ∀ {before e after},
      (readAllAuthorizedUsers file).entries.takeWhile (fun x => x.1 ≠ role) = before ++ e :: after →
      before = (readAllAuthorizedUsers file).entries.takeWhile (fun x => x.1 ≠ e.1) := by
    intro before e after hsplit
    rw [hsplit, List.append_assoc, List.cons_append] at hentries
    exact LinkedMap.before_eq_takeWhile hentries.symm
  rw [findUser, userEntries_written hnewline, find?_filterMap_eq_some]
  constructor
  · rintro ⟨before, e, after, hsplit, hentry, hfirst⟩
    obtain ⟨hlast, hrole⟩ := mem_takeWhile_readAll.mp (by rw [hsplit]; simp : e ∈ _)
    refine ⟨e, ⟨hlast, hentry, fun x hx hr => hfirst x ?_⟩, hrole⟩
    rw [hbefore hsplit]
    exact mem_takeWhile_readAll.mpr ⟨hx, hr⟩
  · rintro ⟨e, h, hrole⟩
    obtain ⟨before, after, hsplit⟩ :=
      List.append_of_mem (mem_takeWhile_readAll.mpr ⟨h.last, hrole⟩)
    refine ⟨before, e, after, hsplit, h.entry, fun x hx => ?_⟩
    rw [hbefore hsplit] at hx
    obtain ⟨hlast, hr⟩ := mem_takeWhile_readAll.mp hx
    exact h.first x hlast hr

end Sshd4a
