import Sshd4a.Lib.Buffer
import Sshd4a.Native.Env
import Sshd4a.Native.Userauth

/-!
# The buffers of `jni-dropbear.c`

The native code builds its strings in buffers it allocates itself, each with a size of its own:
a sum of lengths and of a constant that has to go with the text that is printed next. Some of
the lengths are those of a command, of a password or of a text with variables.

The other modules are about the strings. Here the same functions are written once more with
their buffers and sizes, so that a write beyond the end has no result, and `buffers_fit` says
that there is always one, and that it is the string of the other modules. The sizes are numbers
without a bound, and a pointer to a string is the bytes in front of a NUL.
-/

namespace Sshd4a

open Text

def strlen (s : Bytes) : Nat := (cstr s).length

/-- `!strncmp(a, b, n)`. -/
def strncmpEq (a b : Bytes) (n : Nat) : Bool := (cstr a).take n == (cstr b).take n

/-- `m_malloc`, which is a `calloc`. -/
def mMalloc (n : Nat) : Buffer := .calloc n

/-! ## Paths -/

def sshd4aConfFile (confPath fn : Bytes) : Option Buffer :=
  (mMalloc (strlen confPath + strlen fn + 1 + 1)).sprintf "%s/%s" [cstr confPath, cstr fn]

/-- `sshd4a_lib_exe_path`, with the result of `snprintf`. -/
def sshd4aLibExePathBuffer (libPath name : Bytes) : Option (Buffer × Nat) :=
  let len := strlen libPath + 1 + strlen name + 1
  (Buffer.malloc len).snprintf len "%s/%s" [cstr libPath, cstr name]

/-- `new_path` of `sshd4a_append_lib_to_path`, with the result of `snprintf`. -/
def newPathBuffer (libPath : Bytes) (path : Option Bytes) : Option (Buffer × Nat) :=
  let oldPath := path.getD []
  let len := strlen oldPath + 1 + strlen libPath + 1
  -- `old_path[0]`, which is the NUL of an empty string
  if oldPath.headD 0 ≠ 0 then
    (Buffer.malloc len).snprintf len "%s:%s" [cstr oldPath, cstr libPath]
  else (Buffer.malloc len).snprintf len "%s" [cstr libPath]

/-- `sshd4a_exe_to_lib`: a new string, or `none` for the pointer it was called with. -/
def sshd4aExeToLibBuffer (libPath : Bytes) (cmd : Option Bytes) : Option (Option Buffer) :=
  match cmd with
  | none => some none
  | some cmd =>
    if strncmpEq cmd (ascii "scp ") 4 then
      ((mMalloc (strlen libPath + 11 + strlen cmd + 1)).sprintf "%s/libscp.so %s"
        [cstr libPath, cstr (cmd.drop 4)]).map some
    else if strncmpEq cmd (ascii "rsync ") 6 then
      ((mMalloc (strlen libPath + 13 + strlen cmd - 6 + 1)).sprintf "%s/librsync.so %s"
        [cstr libPath, cstr (cmd.drop 6)]).map some
    else if strncmpEq cmd (ascii "sftp-server") 11 then
      ((mMalloc (strlen libPath + 18 + 1)).sprintf "%s/libsftp-server.so" [cstr libPath]).map some
    else if strncmpEq cmd (ascii "busybox ") 8 then
      ((mMalloc (strlen libPath + strlen cmd + 32)).sprintf "%s/libbusybox.so %s"
        [cstr libPath, cstr (cmd.drop 8)]).map some
    else if cstr cmd = ascii "busybox" then
      ((mMalloc (strlen libPath + 32)).sprintf "%s/libbusybox.so" [cstr libPath]).map some
    else some none

/-- The string behind what `sshd4a_exe_to_lib` returned. -/
def returnedText (cmd : Bytes) : Option Buffer → Option Bytes
  | some t => t.text
  | none => some (cstr cmd)

/-! ## The environment -/

/-- `m_malloc(len + 1)`, `memcpy`, and a NUL behind it. -/
def copyText (s : Bytes) : Option Buffer :=
  ((mMalloc (s.length + 1)).store 0 s).bind fun b => b.store s.length [0]

/-- The loop of `sshd4a_set_env`, with the strings it hands to `setenv`. -/
def setEnvBuffers (s : Bytes) (env : Environ) : Option Environ :=
  match s with
  | [] => some env
  | b :: s =>
    let pair := scanPair (b :: s)
    if pair.name = [] then setEnvBuffers pair.rest env
    else
      match (copyText pair.name).bind Buffer.text, (copyText pair.value).bind Buffer.text with
      | some n, some v => setEnvBuffers pair.rest (setenv n v env)
      | _, _ => none
termination_by s.length
decreasing_by
  all_goals exact scanPair_rest_lt b s

def sshd4aSetEnvBuffers (envVarList : Option Bytes) (confPath : Bytes) (env : Environ) :
    Option Environ :=
  match envVarList with
  | none => some env
  | some s => (setEnvBuffers (cstr s) env).map (setenv sshd4aConfDir (cstr confPath))

/-! ## Passwords -/

/-- `m_strdup`. -/
def mStrdup (s : Bytes) : Option Buffer := (mMalloc (strlen s + 1)).store 0 (cstr s ++ [0])

/-- `base64_encode` of libtomcrypt; it writes nothing if `outlen` is too small. -/
def base64EncodeInto (input : Bytes) (out : Buffer) (outlen : Nat) : Option Buffer :=
  let len2 := 4 * ((input.length + 2) / 3)
  if outlen < len2 + 1 then some out else out.store 0 (base64Encode input ++ [0])

/-- `sha512_desc.hashsize`. -/
def sha512Hashsize : Nat := 64

/-- `testcrypt` for a user with a password hash. -/
def hashedTestcrypt (sha : Sha512) (password : Bytes) : Option Buffer :=
  let hashSize := sha512Hashsize
  (((mMalloc hashSize).store 0 (sha.digest password)).bind fun hash => hash.load hashSize).bind
    fun hashResult => base64EncodeInto hashResult (mMalloc (2 * hashSize)) (2 * hashSize)

/-- `testcrypt` for a single-use password. -/
def plainTestcrypt (password : Bytes) : Option Buffer :=
  (mMalloc (password.length + 1)).strcpy (cstr password)

/-- `sshd4a_svr_auth_password` with its buffers. A password of `passwordlen` bytes is followed
    by a NUL, so that `strlen` ends there at the latest. -/
def sshd4aSvrAuthPasswordBuffers (sha : Sha512) (users : Option Bytes) (password : Bytes)
    (auth : AuthState) : Except Stop (Option (Option Bytes × Option Bytes × AuthState)) :=
  match sshd4aFindUser users auth.username with
  | .error stop => .error stop
  | .ok found =>
    let complete := password.length = strlen password
    match found.bind UserLine.password with
    | some (c :: cs) =>
      .ok (((mStrdup (c :: cs)).bind Buffer.text).bind fun pwPasswd =>
        if complete then
          ((hashedTestcrypt sha password).bind Buffer.text).map fun testcrypt =>
            (some pwPasswd, some testcrypt, { auth with pwPasswd := some pwPasswd })
        else some (some pwPasswd, none, { auth with pwPasswd := some pwPasswd }))
    | _ =>
      .ok (
        if complete then
          ((plainTestcrypt password).bind Buffer.text).map fun testcrypt =>
            (auth.pwPasswd, some testcrypt, auth)
        else some (auth.pwPasswd, none, auth))

/-! ## C strings -/

section
variable {a b s lit : Bytes}

theorem nul_notMem_cstr (s : Bytes) : 0 ∉ cstr s := fun h => (mem_cstr h).2 rfl

theorem nul_notMem_append (ha : 0 ∉ a) (hb : 0 ∉ b) : 0 ∉ a ++ b := by
  intro h
  rcases List.mem_append.mp h with h | h
  · exact ha h
  · exact hb h

theorem cstr_cons {c : UInt8} (hc : c ≠ 0) (s : Bytes) : cstr (c :: s) = c :: cstr s :=
  List.takeWhile_cons_of_pos (bne_iff_ne.mpr hc)

/-- Moving a pointer forward inside its string. -/
theorem cstr_drop {n : Nat} (h : n ≤ strlen s) : cstr (s.drop n) = (cstr s).drop n := by
  induction n generalizing s with
  | zero => rfl
  | succ n ih =>
    cases s with
    | nil => cases h
    | cons c s =>
      have hc : c ≠ 0 := by
        rintro rfl
        cases h
      rw [strlen, cstr_cons hc] at h
      rw [cstr_cons hc, List.drop_succ_cons, List.drop_succ_cons,
        ih (Nat.le_of_succ_le_succ h)]

theorem strncmpEq_iff {n : Nat} (hlit : cstr lit = lit) (hlen : lit.length = n) :
    strncmpEq s lit n = true ↔ lit <+: cstr s := by
  rw [strncmpEq, beq_iff_eq, hlit, List.prefix_iff_eq_take, hlen,
    List.take_of_length_le (Nat.le_of_eq hlen), eq_comm]

end

/-! ## What is printed fits -/

section
variable {n : Nat} {fmt : String} (lit : List Char) (a b : Bytes)

/-- Two strings with a text between them. -/
theorem format_strings (hfmt : fmt.toList = '%' :: 's' :: (lit ++ ['%', 's']))
    (hlit : '%' ∉ lit ∧ 0 ∉ lit.map byte) :
    format fmt.toList [cstr a, cstr b] = some (cstr a ++ (lit.map byte ++ cstr b)) ∧
      0 ∉ cstr a ++ (lit.map byte ++ cstr b) ∧
      (cstr a ++ (lit.map byte ++ cstr b)).length = strlen a + lit.length + strlen b := by
  refine ⟨format_two lit hfmt hlit.1 _ _, ?_, ?_⟩
  · exact nul_notMem_append (nul_notMem_cstr a) (nul_notMem_append hlit.2 (nul_notMem_cstr b))
  · simp only [List.length_append, List.length_map, strlen]
    omega

/-- A string with a text behind it. -/
theorem format_string (hfmt : fmt.toList = '%' :: 's' :: lit)
    (hlit : '%' ∉ lit ∧ 0 ∉ lit.map byte) :
    format fmt.toList [cstr a] = some (cstr a ++ lit.map byte) ∧
      0 ∉ cstr a ++ lit.map byte ∧
      (cstr a ++ lit.map byte).length = strlen a + lit.length := by
  refine ⟨format_one lit hfmt hlit.1 _, nul_notMem_append (nul_notMem_cstr a) hlit.2, ?_⟩
  rw [List.length_append, List.length_map, strlen]

theorem sprintf_strings (hfmt : fmt.toList = '%' :: 's' :: (lit ++ ['%', 's']))
    (hlit : '%' ∉ lit ∧ 0 ∉ lit.map byte) (hn : strlen a + lit.length + strlen b < n) :
    Buffer.Holds ((mMalloc n).sprintf fmt [cstr a, cstr b])
      (cstr a ++ (lit.map byte ++ cstr b)) := by
  obtain ⟨hformat, hnul, hlen⟩ := format_strings lit a b hfmt hlit
  apply Buffer.sprintf_text hformat hnul
  rwa [hlen, mMalloc, Buffer.size_calloc]

theorem sprintf_string (hfmt : fmt.toList = '%' :: 's' :: lit)
    (hlit : '%' ∉ lit ∧ 0 ∉ lit.map byte) (hn : strlen a + lit.length < n) :
    Buffer.Holds ((mMalloc n).sprintf fmt [cstr a]) (cstr a ++ lit.map byte) := by
  obtain ⟨hformat, hnul, hlen⟩ := format_string lit a hfmt hlit
  apply Buffer.sprintf_text hformat hnul
  rwa [hlen, mMalloc, Buffer.size_calloc]

theorem snprintf_strings (hfmt : fmt.toList = '%' :: 's' :: (lit ++ ['%', 's']))
    (hlit : '%' ∉ lit ∧ 0 ∉ lit.map byte) (hn : strlen a + lit.length + strlen b < n) :
    Buffer.HoldsWhole ((Buffer.malloc n).snprintf n fmt [cstr a, cstr b])
      (cstr a ++ (lit.map byte ++ cstr b)) := by
  obtain ⟨hformat, hnul, hlen⟩ := format_strings lit a b hfmt hlit
  apply Buffer.snprintf_text hformat hnul (Buffer.size_malloc n)
  rwa [hlen]

end

/-! ## Paths -/

theorem sshd4aConfFile_holds (confPath fn : Bytes) :
    Buffer.Holds (sshd4aConfFile confPath fn) (cstr confPath ++ byte '/' :: cstr fn) := by
  apply sprintf_strings ['/'] confPath fn rfl (by decide)
  rw [List.length_singleton]
  omega

theorem sshd4aLibExePathBuffer_holds (libPath name : Bytes) :
    Buffer.HoldsWhole (sshd4aLibExePathBuffer libPath name)
      (cstr libPath ++ byte '/' :: cstr name) := by
  apply snprintf_strings ['/'] libPath name rfl (by decide)
  rw [List.length_singleton]
  omega

/-- `old_path[0]` tells whether there is a path. -/
theorem extendedPath_of_head (libPath : Bytes) {path : Option Bytes}
    (h : (path.getD []).headD 0 ≠ 0) :
    extendedPath libPath (path.map cstr) = cstr (path.getD []) ++ byte ':' :: libPath := by
  cases path with
  | none => exact absurd rfl h
  | some old =>
    cases old with
    | nil => exact absurd rfl h
    | cons c old =>
      have hc : c ≠ 0 := h
      rw [Option.map_some, Option.getD_some, cstr_cons hc]
      rfl

theorem extendedPath_of_nul (libPath : Bytes) {path : Option Bytes}
    (h : (path.getD []).headD 0 = 0) : extendedPath libPath (path.map cstr) = libPath := by
  cases path with
  | none => rfl
  | some old =>
    cases old with
    | nil => rfl
    | cons c old =>
      obtain rfl : c = 0 := h
      rfl

/-- The new `PATH`, with a colon only behind an old one that is not empty. -/
theorem newPathBuffer_holds (libPath : Bytes) (path : Option Bytes) :
    Buffer.HoldsWhole (newPathBuffer libPath path)
      (extendedPath (cstr libPath) (path.map cstr)) := by
  unfold newPathBuffer
  dsimp only
  split
  · rename_i hold
    rw [extendedPath_of_head _ hold]
    apply snprintf_strings [':'] (path.getD []) libPath rfl (by decide)
    rw [List.length_singleton]
    omega
  · rename_i hold
    have hpath : extendedPath (cstr libPath) (path.map cstr) = cstr libPath ++ [].map byte := by
      rw [extendedPath_of_nul _ (not_not.mp hold), List.map_nil, List.append_nil]
    rw [hpath]
    obtain ⟨hformat, hnul, hlen⟩ :=
      format_string [] libPath (show "%s".toList = _ from rfl) (by decide)
    apply Buffer.snprintf_text hformat hnul (Buffer.size_malloc _)
    rw [hlen, List.length_nil]
    omega

/-! ## Commands -/

section
variable {libPath cmd : Bytes}

/-- What a name with a space behind it is replaced by. -/
theorem exeToLib_strings {n : Nat} {fmt : String} {word : Bytes} (lit : List Char)
    (hword : word <+: cstr cmd) (hfmt : fmt.toList = '%' :: 's' :: (lit ++ ['%', 's']))
    (hlit : '%' ∉ lit ∧ 0 ∉ lit.map byte)
    (hn : strlen libPath + lit.length + (strlen cmd - word.length) < n) :
    Buffer.Holds ((mMalloc n).sprintf fmt [cstr libPath, cstr (cmd.drop word.length)])
      (cstr libPath ++ lit.map byte ++ (cstr cmd).drop word.length) := by
  have hdrop : cstr (cmd.drop word.length) = (cstr cmd).drop word.length :=
    cstr_drop hword.length_le
  have hlen : strlen (cmd.drop word.length) = strlen cmd - word.length := by
    rw [strlen, hdrop, List.length_drop, strlen]
  rw [List.append_assoc, ← hdrop]
  exact sprintf_strings lit libPath (cmd.drop word.length) hfmt hlit (by rwa [hlen])

theorem returnedText_of_holds {result : Option Buffer} {s : Bytes} (h : Buffer.Holds result s) :
    ∃ r, result.map some = some r ∧ returnedText cmd r = some s := by
  obtain ⟨t, rfl, htext⟩ := h
  exact ⟨some t, rfl, htext⟩

/-- **Every branch** of `sshd4a_exe_to_lib` has room for what it prints. -/
theorem sshd4aExeToLibBuffer_text (libPath cmd : Bytes) :
    ∃ r, sshd4aExeToLibBuffer libPath (some cmd) = some r ∧
      returnedText cmd r = some (sshd4aExeToLib (cstr libPath) (cstr cmd)) := by
  have hscp : strncmpEq cmd (ascii "scp ") 4 = true ↔ ascii "scp " <+: cstr cmd :=
    strncmpEq_iff rfl rfl
  have hrsync : strncmpEq cmd (ascii "rsync ") 6 = true ↔ ascii "rsync " <+: cstr cmd :=
    strncmpEq_iff rfl rfl
  have hsftp : strncmpEq cmd (ascii "sftp-server") 11 = true ↔ ascii "sftp-server" <+: cstr cmd :=
    strncmpEq_iff rfl rfl
  have hbusybox : strncmpEq cmd (ascii "busybox ") 8 = true ↔ ascii "busybox " <+: cstr cmd :=
    strncmpEq_iff rfl rfl
  unfold sshd4aExeToLibBuffer sshd4aExeToLib
  simp only [hscp, hrsync, hsftp, hbusybox]
  split
  · rename_i h
    refine returnedText_of_holds (exeToLib_strings "/libscp.so ".toList h rfl (by decide) ?_)
    have hlit : "/libscp.so ".toList.length = 11 := rfl
    omega
  · split
    · rename_i h
      refine returnedText_of_holds (exeToLib_strings "/librsync.so ".toList h rfl (by decide) ?_)
      have hlit : "/librsync.so ".toList.length = 13 := rfl
      have hword : (ascii "rsync ").length = 6 := rfl
      have hle : (ascii "rsync ").length ≤ strlen cmd := h.length_le
      omega
    · split
      · refine returnedText_of_holds
          (sprintf_string "/libsftp-server.so".toList libPath rfl (by decide) ?_)
        have hlit : "/libsftp-server.so".toList.length = 18 := rfl
        omega
      · split
        · rename_i h
          refine returnedText_of_holds
            (exeToLib_strings "/libbusybox.so ".toList h rfl (by decide) ?_)
          have hlit : "/libbusybox.so ".toList.length = 15 := rfl
          omega
        · split
          · refine returnedText_of_holds
              (sprintf_string "/libbusybox.so".toList libPath rfl (by decide) ?_)
            have hlit : "/libbusybox.so".toList.length = 14 := rfl
            omega
          · exact ⟨none, rfl, rfl⟩

end

/-! ## Variables -/

theorem copyText_text {s : Bytes} (hs : 0 ∉ s) : (copyText s).bind Buffer.text = some s :=
  (Buffer.store_nul hs (Buffer.size_calloc (s.length + 1))).bind_text

/-- A round of the loop stays inside the text. -/
theorem scanPair_subset (s : Bytes) :
    (scanPair s).name ⊆ s ∧ (scanPair s).value ⊆ s ∧ (scanPair s).rest ⊆ s := by
  have hname : s.takeWhile isNameByte ⊆ s := (List.takeWhile_prefix _).subset
  have hdrop : s.dropWhile isNameByte <:+ s := List.dropWhile_suffix _
  unfold scanPair
  cases hafter : s.dropWhile isNameByte with
  | nil => exact ⟨hname, List.nil_subset s, List.nil_subset s⟩
  | cons b after =>
    rw [hafter] at hdrop
    have hs : after <:+ s := (List.suffix_cons b after).trans hdrop
    dsimp only
    split
    · have hrest : (after.dropWhile fun c => !isEol c).dropWhile isEol <:+ s :=
        ((List.dropWhile_suffix _).trans (List.dropWhile_suffix _)).trans hs
      refine ⟨hname, ?_, hrest.subset⟩
      intro c hc
      exact hs.subset ((List.takeWhile_prefix _).subset hc)
    · exact ⟨hname, List.nil_subset s, ((List.dropWhile_suffix _).trans hdrop).subset⟩

/-- **Every round** has room for the name and for the value. -/
theorem setEnvBuffers_eq (s : Bytes) (hs : 0 ∉ s) (env : Environ) :
    setEnvBuffers s env = some (setEnvLoop s env) := by
  induction s, env using setEnvLoop.induct with
  | case1 env => rw [setEnvBuffers, setEnvLoop]
  | case2 env b s pair ih =>
    obtain ⟨hname, hvalue, hrest⟩ := scanPair_subset (b :: s)
    have ih := ih fun h => hs (hrest h)
    rw [setEnvBuffers, setEnvLoop]
    split
    · rename_i hempty
      rw [dif_pos (show pair.name = [] from hempty)] at ih
      exact ih
    · rename_i hne
      rw [dif_neg (show pair.name ≠ [] from hne)] at ih
      rw [copyText_text fun h => hs (hname h), copyText_text fun h => hs (hvalue h)]
      exact ih

theorem sshd4aSetEnvBuffers_eq (envVarList : Option Bytes) (confPath : Bytes) (env : Environ) :
    sshd4aSetEnvBuffers envVarList confPath env =
      some (sshd4aSetEnv (envVarList.map cstr) (cstr confPath) env) := by
  cases envVarList with
  | none => rfl
  | some s =>
    rw [sshd4aSetEnvBuffers, setEnvBuffers_eq _ (nul_notMem_cstr s)]
    rfl

/-! ## Passwords -/

theorem mStrdup_text (s : Bytes) : (mStrdup s).bind Buffer.text = some (cstr s) := by
  refine (Buffer.strcpy_holds (nul_notMem_cstr s) ?_).bind_text
  rw [mMalloc, Buffer.size_calloc]
  exact Nat.lt_succ_self _

theorem nul_notMem_base64Encode (bs : Bytes) : 0 ∉ base64Encode bs := by
  intro h
  have hall := base64Encode_all (q := fun b => b != 0) (by decide) bs 0 h
  cases hall

/-- Four characters for three bytes, and the NUL. -/
theorem base64EncodeInto_holds (input : Bytes) {out : Buffer} {outlen : Nat}
    (hroom : 4 * ((input.length + 2) / 3) + 1 ≤ outlen) (hsize : outlen ≤ out.size) :
    Buffer.Holds (base64EncodeInto input out outlen) (base64Encode input) := by
  unfold base64EncodeInto
  dsimp only
  rw [if_neg (Nat.not_lt.mpr hroom)]
  apply Buffer.strcpy_holds (nul_notMem_base64Encode input)
  rw [length_base64Encode]
  exact Nat.lt_of_lt_of_le (Nat.lt_of_succ_le hroom) hsize

/-- The hash of 64 bytes takes 89 of the 128 that are allocated. -/
theorem hashedTestcrypt_text (sha : Sha512) (password : Bytes) :
    (hashedTestcrypt sha password).bind Buffer.text = some (sha.base64 password) := by
  have hsize : (sha.digest password).length = sha512Hashsize := sha.hashsize password
  have hload : ((mMalloc sha512Hashsize).store 0 (sha.digest password)).bind
      (fun hash => hash.load sha512Hashsize) = some (sha.digest password) := by
    have h := Buffer.load_store (b := mMalloc sha512Hashsize) (s := sha.digest password)
      ((Buffer.size_calloc _).trans hsize.symm)
    rwa [hsize] at h
  have hroom : 4 * (((sha.digest password).length + 2) / 3) + 1 ≤ 2 * sha512Hashsize := by
    rw [hsize]
    decide
  unfold hashedTestcrypt
  dsimp only
  rw [hload]
  exact (base64EncodeInto_holds _ hroom (Nat.le_of_eq (Buffer.size_calloc _).symm)).bind_text

theorem plainTestcrypt_text {password : Bytes} (h : password.length = strlen password) :
    (plainTestcrypt password).bind Buffer.text = some (cstr password) := by
  refine (Buffer.strcpy_holds (nul_notMem_cstr password) ?_).bind_text
  rw [mMalloc, Buffer.size_calloc, h]
  exact Nat.lt_succ_self _

/-- The fields of a line are C strings. -/
theorem nul_notMem_password {users username : Option Bytes} {found : Option UserLine} {pass : Bytes}
    (h : sshd4aFindUser users username = .ok found)
    (hpass : found.bind UserLine.password = some pass) : 0 ∉ pass := by
  cases username with
  | none =>
    rw [sshd4aFindUser_none] at h
    split at h
    · cases h
      cases hpass
    · cases h
  | some u =>
    rw [sshd4aFindUser_some] at h
    obtain ⟨line, hfound, hpass⟩ := Option.bind_eq_some_iff.mp hpass
    rw [hfound] at h
    obtain ⟨text, htext, -⟩ := mem_userEntries_of_findUser (Except.ok.inj h)
    obtain ⟨-, rest, htok, rfl⟩ := lineEntry_eq_some.mp htext
    intro hnul
    have hmem := mem_of_mem_tokens (htok ▸ List.mem_cons_of_mem u (List.mem_of_getElem? hpass)) 0 hnul
    exact (mem_cstr hmem).2 rfl

section
variable (password : Bytes) (auth : AuthState)

/-- What is left of the password when nothing is known of the user. -/
theorem testcrypt_plain :
    (if password.length = strlen password then
      ((plainTestcrypt password).bind Buffer.text).map fun testcrypt =>
        (auth.pwPasswd, some testcrypt, auth)
     else some (auth.pwPasswd, none, auth)) =
      some (auth.pwPasswd,
        if password.length = strlen password then some (cstr password) else none, auth) := by
  split
  · rename_i hcomplete
    rw [plainTestcrypt_text hcomplete]
    rfl
  · rfl

theorem sshd4aSvrAuthPasswordBuffers_eq (sha : Sha512) (users : Option Bytes) :
    sshd4aSvrAuthPasswordBuffers sha users password auth =
      (sshd4aSvrAuthPassword sha users password auth).map some := by
  unfold sshd4aSvrAuthPasswordBuffers sshd4aSvrAuthPassword
  cases hfind : sshd4aFindUser users auth.username with
  | error stop => rfl
  | ok found =>
    dsimp only
    cases hpass : found.bind UserLine.password with
    | none => exact congrArg Except.ok (testcrypt_plain password auth)
    | some pass =>
      cases pass with
      | nil => exact congrArg Except.ok (testcrypt_plain password auth)
      | cons c cs =>
        have hcstr : cstr (c :: cs) = c :: cs :=
          cstr_eq_self.mpr (nul_notMem_password hfind hpass)
        refine congrArg Except.ok ?_
        rw [mStrdup_text, hcstr, Option.bind_some, hashedTestcrypt_text]
        show (if password.length = strlen password then _ else _) =
          some (_, if password.length = strlen password then _ else _, _)
        split
        · rfl
        · rfl

end

/-! ## All of them -/

/-- **The buffers fit**: every function gets the string it is for, whatever the lengths are, and
    where `snprintf` is called nothing is cut off. -/
theorem buffers_fit :
    (∀ confPath fn,
      Buffer.Holds (sshd4aConfFile confPath fn) (cstr confPath ++ byte '/' :: cstr fn)) ∧
    (∀ libPath name, Buffer.HoldsWhole (sshd4aLibExePathBuffer libPath name)
      (cstr libPath ++ byte '/' :: cstr name)) ∧
    (∀ libPath path, Buffer.HoldsWhole (newPathBuffer libPath path)
      (extendedPath (cstr libPath) (path.map cstr))) ∧
    (∀ libPath cmd, ∃ r, sshd4aExeToLibBuffer libPath (some cmd) = some r ∧
      returnedText cmd r = some (sshd4aExeToLib (cstr libPath) (cstr cmd))) ∧
    (∀ envVarList confPath env, sshd4aSetEnvBuffers envVarList confPath env =
      some (sshd4aSetEnv (envVarList.map cstr) (cstr confPath) env)) ∧
    ∀ sha users password auth, sshd4aSvrAuthPasswordBuffers sha users password auth =
      (sshd4aSvrAuthPassword sha users password auth).map some :=
  ⟨sshd4aConfFile_holds, sshd4aLibExePathBuffer_holds, newPathBuffer_holds,
    sshd4aExeToLibBuffer_text, sshd4aSetEnvBuffers_eq, fun sha users password auth =>
      sshd4aSvrAuthPasswordBuffers_eq password auth sha users⟩

end Sshd4a
