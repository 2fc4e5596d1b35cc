import Sshd4a.App.Login

/-!
# The truth table of `writeAuthorizedUser`

The comment over `writeAuthorizedUser` has a table: for each combination of a username that is
set or not, the flag, a password that is set or not and an entry that was there or not, what
happens to the entry of the role. `tableAction` is that table, row for row, and nothing else
here is taken from it.

`writeAuthorizedUser` gets there by reading a file, editing a map and spelling the map again,
so the table is a statement about the file only if both directions keep every entry they do not
mean to touch. That is what `readable_readAll` and `readAll_writeAll` are for: the entries the
reader can produce, roles with colons and roles nobody knows included, are the ones the writer
spells faithfully. `writeAuthorizedUser_table` is the result.
-/

namespace Sshd4a

open Text

/-! ## The table -/

/-- The last column of the table. -/
inductive TableAction
  | removeEntry
  | nop
  | updateUsername
  | writeBoth
deriving DecidableEq, Repr

/-- The rows: username set, `pwUpdated`, password set, role had entry. -/
def tableAction : Bool → Bool → Bool → Bool → TableAction
  | false, _, _, _ => .removeEntry
  | true, false, false, false => .nop
  | true, false, true, false => .nop
  | true, false, false, true => .updateUsername
  | true, false, true, true => .updateUsername
  | true, true, false, false => .nop
  | true, true, true, false => .writeBoth
  | true, true, false, true => .removeEntry
  | true, true, true, true => .writeBoth

/-- "set", as against "Not-set". -/
def isSet (s : Option JString) : Bool := s.any fun t => !isBlank t

/-- The row a call takes. -/
def UserUpdate.action (call : UserUpdate) (all : LinkedMap JString UserPass) : TableAction :=
  tableAction (isSet call.username) call.passwordUpdated (isSet call.password)
    (all.get? call.role).isSome

/-- What an action makes of the entry of the role. -/
def TableAction.entry (sha : Sha512) (call : UserUpdate) (old : Option UserPass) :
    TableAction → Option UserPass
  | .removeEntry => none
  | .nop => old
  | .updateUsername => old.map fun up => ⟨call.username.getD [], up.hash⟩
  | .writeBoth => some ⟨call.username.getD [], hash sha (call.password.getD [])⟩

/-- One map is another with the entry of one role changed as the table has it. -/
structure FollowsTable (sha : Sha512) (call : UserUpdate)
    (before after : LinkedMap JString UserPass) : Prop where
  entry : after.get? call.role = (call.action before).entry sha call (before.get? call.role)
  /-- The entries of the other roles, in their order. -/
  others : after.entries.filter (fun e => e.1 ≠ call.role)
    = before.entries.filter (fun e => e.1 ≠ call.role)
  /-- An entry that is kept keeps its place. -/
  place : (before.get? call.role).isSome → (after.get? call.role).isSome →
    after.entries.map Prod.fst = before.entries.map Prod.fst

/-! ## The map -/

/-- The map a call leaves: the one it writes, or the one it read. -/
def updatedUsers (sha : Sha512) (all : LinkedMap JString UserPass) (call : UserUpdate) :
    LinkedMap JString UserPass :=
  (updateAuthorizedUser sha all call).getD all

/-- **All an update can do**, by the row it takes. -/
theorem updateAuthorizedUser_cases (sha : Sha512) (all : LinkedMap JString UserPass)
    (call : UserUpdate) :
    (call.action all = .removeEntry ∧
      updateAuthorizedUser sha all call = some (all.remove call.role)) ∨
    (call.action all = .nop ∧ updateAuthorizedUser sha all call = none) ∨
    (call.action all = .updateUsername ∧ ∃ username previous, call.username = some username ∧
      isBlank username = false ∧ all.get? call.role = some previous ∧
      updateAuthorizedUser sha all call = some (all.put call.role ⟨username, previous.hash⟩)) ∨
    (call.action all = .writeBoth ∧ ∃ username password, call.username = some username ∧
      isBlank username = false ∧ call.password = some password ∧
      updateAuthorizedUser sha all call
        = some (all.put call.role ⟨username, hash sha password⟩)) := by
  obtain ⟨role, username, passwordUpdated, password⟩ := call
  unfold updateAuthorizedUser UserUpdate.action LinkedMap.containsKey
  cases username with
  | none => exact Or.inl ⟨rfl, rfl⟩
  | some username =>
    cases hu : isBlank username with
    | true => exact Or.inl ⟨by simp [isSet, hu, tableAction], by simp [hu]⟩
    | false =>
      have hset : isSet (some username) = true := by simp [isSet, hu]
      cases passwordUpdated with
      | false =>
        cases hold : all.get? role with
        | none => exact Or.inr (Or.inl ⟨by cases isSet password <;> simp [hset, tableAction], by
            simp [hu]⟩)
        | some previous =>
          refine Or.inr (Or.inr (Or.inl ⟨?_, username, previous, rfl, hu, rfl, by simp [hu]⟩))
          cases isSet password <;> simp [hset, tableAction]
      | true =>
        cases password with
        | none =>
          have hnone : isSet none = false := rfl
          cases hold : all.get? role with
          | none => exact Or.inr (Or.inl ⟨by simp [hset, hnone, tableAction], by simp [hu]⟩)
          | some previous => exact Or.inl ⟨by simp [hset, hnone, tableAction], by simp [hu]⟩
        | some password =>
          cases hp : isBlank password with
          | true =>
            have hnot : isSet (some password) = false := by simp [isSet, hp]
            cases hold : all.get? role with
            | none => exact Or.inr (Or.inl ⟨by simp [hset, hnot, tableAction], by simp [hu, hp]⟩)
            | some previous => exact Or.inl ⟨by simp [hset, hnot, tableAction], by simp [hu, hp]⟩
          | false =>
            have hpass : isSet (some password) = true := by simp [isSet, hp]
            refine Or.inr (Or.inr (Or.inr ⟨?_, username, password, rfl, hu, rfl, by simp [hu, hp]⟩))
            cases all.get? role <;> simp [hset, hpass, tableAction]

theorem updateAuthorizedUser_eq_none_iff (sha : Sha512) (all : LinkedMap JString UserPass)
    (call : UserUpdate) : updateAuthorizedUser sha all call = none ↔ call.action all = .nop := by
  obtain ⟨hact, hupd⟩ | ⟨hact, hupd⟩ | ⟨hact, _, _, -, -, -, hupd⟩ | ⟨hact, _, _, -, -, -, hupd⟩ :=
    updateAuthorizedUser_cases sha all call <;> simp [hact, hupd]

theorem updatedUsers_followsTable (sha : Sha512) (all : LinkedMap JString UserPass)
    (call : UserUpdate) : FollowsTable sha call all (updatedUsers sha all call) := by
  unfold updatedUsers
  obtain ⟨hact, hupd⟩ | ⟨hact, hupd⟩ | ⟨hact, username, previous, hname, -, hold, hupd⟩ |
    ⟨hact, username, password, hname, -, hpass, hupd⟩ := updateAuthorizedUser_cases sha all call <;>
    rw [hupd]
  · refine ⟨?_, all.filter_remove call.role, ?_⟩
    · rw [hact]
      exact all.get?_remove call.role
    · intro _ hkept
      rw [Option.getD_some, all.get?_remove] at hkept
      cases hkept
  · exact ⟨by rw [hact]; rfl, rfl, fun _ _ => rfl⟩
  · refine ⟨?_, all.filter_put call.role _, fun _ _ => ?_⟩
    · rw [hact, Option.getD_some, LinkedMap.get?_put, if_pos rfl, hold, TableAction.entry, hname]
      rfl
    · rw [Option.getD_some, LinkedMap.keys_put, if_pos (by rw [hold]; rfl)]
  · refine ⟨?_, all.filter_put call.role _, fun hold _ => ?_⟩
    · rw [hact, Option.getD_some, LinkedMap.get?_put, if_pos rfl, TableAction.entry, hname, hpass]
      rfl
    · rw [Option.getD_some, LinkedMap.keys_put, if_pos hold]

theorem action_writeBoth {call : UserUpdate} {all : LinkedMap JString UserPass}
    (h : call.action all = .writeBoth) (all' : LinkedMap JString UserPass) :
    call.action all' = .writeBoth := by
  revert h
  unfold UserUpdate.action
  generalize isSet call.username = u
  generalize isSet call.password = p
  generalize (all.get? call.role).isSome = old
  generalize (all'.get? call.role).isSome = old'
  generalize call.passwordUpdated = f
  revert u f p old old'
  decide

/-- The row depends on the map only through whether the role has an entry. -/
theorem action_congr (call : UserUpdate) {all all' : LinkedMap JString UserPass}
    (h : (all'.get? call.role).isSome = (all.get? call.role).isSome) :
    call.action all' = call.action all := by
  unfold UserUpdate.action
  rw [h]

/-- Repeating a call changes nothing: it takes the same row, or, after a removal, one that
    leaves a role without an entry as it is. -/
theorem updatedUsers_idem (sha : Sha512) (all : LinkedMap JString UserPass) (call : UserUpdate) :
    updatedUsers sha (updatedUsers sha all call) call = updatedUsers sha all call := by
  unfold updatedUsers
  obtain ⟨hact, hupd⟩ | ⟨-, hupd⟩ | ⟨hact, username, previous, hname, -, hold, hupd⟩ |
    ⟨hact, username, password, hname, -, hpass, hupd⟩ := updateAuthorizedUser_cases sha all call
  · rw [hupd, Option.getD_some]
    obtain ⟨-, hupd'⟩ | ⟨-, hupd'⟩ | ⟨-, _, _, -, -, hold', -⟩ | ⟨hact', -⟩ :=
      updateAuthorizedUser_cases sha (all.remove call.role) call
    · rw [hupd', Option.getD_some]
      exact LinkedMap.remove_of_get? (all.get?_remove call.role)
    · rw [hupd', Option.getD_none]
    · rw [all.get?_remove] at hold'
      cases hold'
    · rw [action_writeBoth hact' all] at hact
      cases hact
  · rw [hupd, Option.getD_none, hupd, Option.getD_none]
  · rw [hupd, Option.getD_some]
    have hget := all.get?_put call.role call.role ⟨username, previous.hash⟩
    rw [if_pos rfl] at hget
    have hact' := (action_congr call (by rw [hget, hold]; rfl)).trans hact
    obtain ⟨h, -⟩ | ⟨h, -⟩ | ⟨-, username', previous', hname', -, hold', hupd'⟩ | ⟨h, -⟩ :=
      updateAuthorizedUser_cases sha (all.put call.role ⟨username, previous.hash⟩) call
    · cases h.symm.trans hact'
    · cases h.symm.trans hact'
    · cases hname.symm.trans hname'
      cases hget.symm.trans hold'
      rw [hupd', Option.getD_some]
      exact LinkedMap.put_of_get? hget
    · cases h.symm.trans hact'
  · rw [hupd, Option.getD_some]
    have hget := all.get?_put call.role call.role ⟨username, hash sha password⟩
    rw [if_pos rfl] at hget
    have hact' := action_writeBoth hact (all.put call.role ⟨username, hash sha password⟩)
    obtain ⟨h, -⟩ | ⟨h, -⟩ | ⟨h, -⟩ | ⟨-, username', password', hname', -, hpass', hupd'⟩ :=
      updateAuthorizedUser_cases sha (all.put call.role ⟨username, hash sha password⟩) call
    · cases h.symm.trans hact'
    · cases h.symm.trans hact'
    · cases h.symm.trans hact'
    · cases hname.symm.trans hname'
      cases hpass.symm.trans hpass'
      rw [hupd', Option.getD_some]
      exact LinkedMap.put_of_get? hget

/-! ## The file -/

theorem isBlank_hash (sha : Sha512) (p : JString) : isBlank (hash sha p) = false := by
  have hall := base64Encode_all (q := fun b => !isWhitespace (Char.ofNat b.toNat)) (by decide)
    (sha.digest (utf8 p))
  cases hash' : hash sha p with
  | nil => exact absurd hash' (hash_ne_nil sha p)
  | cons c cs =>
    have hc : c ∈ hash sha p := by rw [hash']; simp
    obtain ⟨b, hb, rfl⟩ := List.mem_map.mp hc
    have := hall b hb
    simp only [Bool.not_eq_true'] at this
    simp [isBlank, this]

/-- The usernames the table is about: not given, blank, or something a line can hold. -/
def UserUpdate.WellFormed (call : UserUpdate) : Prop :=
  ∀ username ∈ call.username, isBlank username = true ∨
    (':' ∉ username ∧ '\r' ∉ username ∧ '\n' ∉ username)

theorem readable_entry {call : UserUpdate} {username : JString} {h : JString}
    (hrole : call.role ∈ [roleUser, roleRoot, roleShell]) (hcall : call.WellFormed)
    (hname : call.username = some username) (hblank : isBlank username = false)
    (hhash : isBlank h = false ∧ ':' ∉ h ∧ ∀ c ∈ h, isLineEnd c = false) :
    Readable (call.role, ⟨username, h⟩) := by
  obtain hb | ⟨hcolon, hcr, hlf⟩ := hcall username hname
  · rw [hblank] at hb
    cases hb
  · refine ⟨⟨hblank, hcolon, ?_⟩, hhash, ?_⟩
    · intro c hc
      have h1 : c ≠ '\n' := fun heq => hlf (heq ▸ hc)
      have h2 : c ≠ '\r' := fun heq => hcr (heq ▸ hc)
      simp [isLineEnd, h1, h2]
    · simp only [List.mem_cons, List.not_mem_nil, or_false] at hrole
      show isBlank call.role = false ∧ ∀ c ∈ call.role, isLineEnd c = false
      rcases hrole with h | h | h <;> rw [h] <;>
        exact ⟨by decide, by simp [roleUser, roleRoot, roleShell, isLineEnd]⟩

theorem readable_updatedUsers (sha : Sha512) (file : Option Bytes) {call : UserUpdate}
    (hrole : call.role ∈ [roleUser, roleRoot, roleShell]) (hcall : call.WellFormed) :
    ∀ e ∈ (updatedUsers sha (readAllAuthorizedUsers file) call).entries, Readable e := by
  -- a `put` has the new entry and, beside it, only old ones
  have hput : ∀ up : UserPass, Readable (call.role, up) →
      ∀ e ∈ ((readAllAuthorizedUsers file).put call.role up).entries, Readable e := by
    intro up hnew e he
    obtain ⟨after, hentries, hafter⟩ := (readAllAuthorizedUsers file).entries_put call.role up
    rw [hentries] at he
    rcases List.mem_append.mp he with he | he
    · exact readable_readAll e ((List.takeWhile_prefix _).subset he)
    · rcases List.mem_cons.mp he with rfl | he
      · exact hnew
      · exact readable_readAll e (hafter e he)
  unfold updatedUsers
  obtain ⟨-, hupd⟩ | ⟨-, hupd⟩ | ⟨-, username, previous, hname, hblank, hold, hupd⟩ |
    ⟨-, username, password, hname, hblank, -, hupd⟩ :=
      updateAuthorizedUser_cases sha (readAllAuthorizedUsers file) call <;> rw [hupd]
  · intro e he
    exact readable_readAll e (List.mem_of_mem_filter he)
  · exact readable_readAll
  · have hprev := readable_readAll _ (LinkedMap.get?_eq_some.mp hold)
    exact hput _ (readable_entry hrole hcall hname hblank hprev.hash)
  · refine hput _ (readable_entry hrole hcall hname hblank ⟨isBlank_hash sha password, ?_, ?_⟩)
    · exact not_mem_hash sha password (by decide) (by decide)
    · intro c hc
      have hlf : c ≠ '\n' := fun heq =>
        not_mem_hash sha password (by decide) (by decide) (heq ▸ hc)
      have hcr : c ≠ '\r' := fun heq =>
        not_mem_hash sha password (by decide) (by decide) (heq ▸ hc)
      simp [isLineEnd, hlf, hcr]

theorem readAll_writeAuthorizedUser (sha : Sha512) (file : Option Bytes) {call : UserUpdate}
    (hrole : call.role ∈ [roleUser, roleRoot, roleShell]) (hcall : call.WellFormed) :
    readAllAuthorizedUsers (writeAuthorizedUser sha file call)
      = updatedUsers sha (readAllAuthorizedUsers file) call := by
  have hread := readable_updatedUsers sha file hrole hcall
  unfold writeAuthorizedUser
  unfold updatedUsers at hread ⊢
  cases hupd : updateAuthorizedUser sha (readAllAuthorizedUsers file) call with
  | none => rfl
  | some all =>
    rw [hupd] at hread
    exact readAll_writeAll hread

/-- **`writeAuthorizedUser` implements its table**, on every file: the entry of the role becomes
    what the table says, everything else stays, a row without an action leaves the file alone,
    any other leaves no file exactly when it leaves no entry, and a second call adds nothing. -/
theorem writeAuthorizedUser_table (sha : Sha512) (file : Option Bytes) (call : UserUpdate)
    (hrole : call.role ∈ [roleUser, roleRoot, roleShell]) (hcall : call.WellFormed) :
    FollowsTable sha call (readAllAuthorizedUsers file)
      (readAllAuthorizedUsers (writeAuthorizedUser sha file call)) ∧
    (call.action (readAllAuthorizedUsers file) = .nop → writeAuthorizedUser sha file call = file) ∧
    (call.action (readAllAuthorizedUsers file) ≠ .nop →
      (writeAuthorizedUser sha file call = none ↔
        (readAllAuthorizedUsers (writeAuthorizedUser sha file call)).isEmpty = true)) ∧
    readAllAuthorizedUsers (writeAuthorizedUser sha (writeAuthorizedUser sha file call) call)
      = readAllAuthorizedUsers (writeAuthorizedUser sha file call) := by
  have hread := readAll_writeAuthorizedUser sha file hrole hcall
  refine ⟨?_, ?_, ?_, ?_⟩
  · rw [hread]
    exact updatedUsers_followsTable sha _ call
  · intro hnop
    unfold writeAuthorizedUser
    rw [(updateAuthorizedUser_eq_none_iff sha _ call).mpr hnop]
  · intro hnop
    rw [hread]
    unfold writeAuthorizedUser updatedUsers
    cases hupd : updateAuthorizedUser sha (readAllAuthorizedUsers file) call with
    | none => exact absurd ((updateAuthorizedUser_eq_none_iff sha _ call).mp hupd) hnop
    | some all =>
      show writeAllAuthorizedUsers all = none ↔ all.isEmpty = true
      unfold writeAllAuthorizedUsers
      split <;> rename_i hempty
      · exact ⟨fun _ => hempty, fun _ => rfl⟩
      · exact iff_of_false (by simp) hempty
  · rw [readAll_writeAuthorizedUser sha _ hrole hcall, hread]
    exact updatedUsers_idem sha _ call

/-- A role with a colon, a line that is no entry, and a user to be renamed. -/
def oddFile : Option Bytes := some (utf8 "a:h:x:y\n:\nbob:pw\n".toList)

/-- The user of `oddFile` gets another name. -/
def renameUser : UserUpdate := ⟨roleUser, some "eve".toList, false, none⟩

theorem writeAuthorizedUser_table_oddFile :
    FollowsTable (Sha512.const placeholderDigest) renameUser (readAllAuthorizedUsers oddFile)
      (readAllAuthorizedUsers
        (writeAuthorizedUser (Sha512.const placeholderDigest) oddFile renameUser)) :=
  (writeAuthorizedUser_table (Sha512.const placeholderDigest) oddFile renameUser
    (by simp [renameUser]) (by simp [UserUpdate.WellFormed, renameUser])).1

end Sshd4a
