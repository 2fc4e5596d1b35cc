import Mathlib.Data.List.Find
import Mathlib.Data.List.Flatten
import Sshd4a.Native.Buf
import Sshd4a.Native.SuShell

/-!
# Agreeing on algorithms (`common-algo.c`)

Each side sends the names of its usable algorithms as one text with commas. Each takes the list of
the other apart and looks for the first name of the client's that the server has too. The loops run
over the own table with its unusable entries, which are `NULL` there, and over the names that came.

The proofs are about an `AlgoTable`, and the tables of the program are ones, whichever of their
entries the options and the host keys have made unusable.

- `negotiation_agrees`: both sides choose the same name, or none, and it is the first of the client's.
- `guess_verdict`: when the server's verdict on a guess is about the first of both lists.
-/

namespace Sshd4a

open Text Fallible

def maxProposedAlgo : Nat := 50

def comma : UInt8 := 44

/-- `algo_type`, without what it stands for. -/
structure AlgoType where
  name : Bytes
  usable : Bool := true
deriving DecidableEq, Repr

/-- An entry as the tables have it. -/
def AlgoType.named (name : String) : AlgoType := { name := ascii name }

inductive AlgoExit
  | buf (stop : Stop)
  | tooManyRemoteAlgorithms

/-! ## The lists -/

/-- The loop of `buf_put_algolist_all`. -/
def bufPutNames : Bool → List AlgoType → Buf → Except PacketExit Buf
  | _, [], buf => .ok buf
  | donefirst, algo :: rest, buf =>
    if algo.usable then do
      let buf ← if donefirst then buf.putbyte comma else pure buf
      let buf ← buf.putbytes algo.name
      bufPutNames true rest buf
    else bufPutNames donefirst rest buf

/-- The length is written over a placeholder when it is known. -/
def bufPutAlgolist (localalgos : List AlgoType) (buf : Buf) : Except PacketExit Buf := do
  let startpos := buf.pos
  let buf ← buf.putint 0
  let buf ← bufPutNames false localalgos buf
  let len := buf.pos - startpos - 4
  let buf ← buf.setpos startpos
  let buf ← buf.putint len
  buf.incrwritepos len

/-- The loop of `get_algolist` with `*ret_count`; `none` if there is a zero byte. -/
def splitNames : Nat → Bytes → Except AlgoExit (Option (List Bytes))
  | _, [] => .ok (some [[]])
  | retCount, c :: rest =>
    if c = 0 then .ok none
    else if c = comma then
      if maxProposedAlgo ≤ retCount then .error .tooManyRemoteAlgorithms
      else do
        let names ← splitNames (retCount + 1) rest
        return names.map ([] :: ·)
    else do
      let names ← splitNames retCount rest
      return names.map (List.modifyHead (c :: ·))

/-- The check of the length has no effect: `*ret_count` is set again after it. -/
def getAlgolist (algolist : Bytes) : Except AlgoExit (List Bytes) := do
  let names ← splitNames 1 algolist
  return names.getD []

/-- `localnames`: an unusable algorithm is `NULL`. -/
def localnames (localalgos : List AlgoType) : List (Option Bytes) :=
  localalgos.map fun algo => if algo.usable then some algo.name else none

/-- `servnames[j] && clinames[i]` and `strcmp`. -/
def sameName (serv cli : Option Bytes) : Bool := serv.isSome && cli.isSome && serv = cli

/-- The two loops: the places of the first match. -/
def firstMatch (servnames : List (Option Bytes)) : List (Option Bytes) → Option (Nat × Nat)
  | [] => none
  | cli :: rest =>
    match servnames.findIdx? (sameName · cli) with
    | some j => some (0, j)
    | none => (firstMatch servnames rest).map fun place => (place.1 + 1, place.2)

/-- The algorithm that is chosen, and `*goodguess`. -/
def matchAlgo (isServer : Bool) (localalgos : List AlgoType) (kexguess2 : Bool)
    (remotenames : List Bytes) : Option AlgoType × Bool :=
  let place := if isServer then firstMatch (localnames localalgos) (remotenames.map some)
    else firstMatch (remotenames.map some) (localnames localalgos)
  match place with
  | none => (none, false)
  | some (i, j) =>
    (localalgos[if isServer then j else i]?, if kexguess2 then i = 0 else i = 0 && j = 0)

def bufMatchAlgo (isServer : Bool) (localalgos : List AlgoType) (kexguess2 : Bool) (payload : Bytes) :
    Except AlgoExit ((Option AlgoType × Bool) × Bytes) := do
  let (algolist, rest) ← (match bufGetstring payload with
    | .ok answer => .ok answer
    | .error stop => .error (.buf stop))
  let remotenames ← getAlgolist algolist
  return (matchAlgo isServer localalgos kexguess2 remotenames, rest)

/-- The names that the loop writes. -/
def putNames : Bool → List AlgoType → Bytes
  | _, [] => []
  | donefirst, algo :: rest =>
    if algo.usable then (if donefirst then [comma] else []) ++ algo.name ++ putNames true rest
    else putNames donefirst rest

/-- What `buf_put_algolist` writes. -/
def sentAlgolist (localalgos : List AlgoType) : Bytes := sshString (putNames false localalgos)

/-- A table of a program: its names are not empty and have no commas, it fits `localnames`, and
    its list fits a string. -/
structure AlgoTable where
  algos : List AlgoType
  names : ∀ algo ∈ algos, algo.name ≠ [] ∧ comma ∉ algo.name ∧ 0 ∉ algo.name
  count : algos.length ≤ maxProposedAlgo
  short : (putNames false algos).length ≤ maxStringLen

def usableNames (localalgos : List AlgoType) : List Bytes :=
  (localalgos.filter (·.usable)).map (·.name)

/-! ## The tables of the program

What is built by default, with the settings of `localoptions.h`. -/

def sshciphers : List AlgoType :=
  [.named "chacha20-poly1305@openssh.com", .named "aes256-gcm@openssh.com",
    .named "aes128-gcm@openssh.com", .named "aes256-ctr", .named "aes128-ctr"]

def sshhashes : List AlgoType := [.named "hmac-sha2-256", .named "hmac-sha2-512"]

def sshCompress : List AlgoType := [.named "zlib@openssh.com", .named "zlib", .named "none"]

def sshNocompress : List AlgoType := [.named "none"]

def sigalgs : List AlgoType :=
  [.named "ssh-ed25519", .named "sk-ssh-ed25519@openssh.com", .named "ecdsa-sha2-nistp256",
    .named "ecdsa-sha2-nistp384", .named "ecdsa-sha2-nistp521",
    .named "sk-ecdsa-sha2-nistp256@openssh.com", .named "rsa-sha2-256"]

def kexguess2AlgoName : Bytes := ascii "kexguess2@matt.ucc.asn.au"

def sshExtInfoC : Bytes := ascii "ext-info-c"

def sshStrictKexC : Bytes := ascii "kex-strict-c-v00@openssh.com"

def sshStrictKexS : Bytes := ascii "kex-strict-s-v00@openssh.com"

/-- The arguments are `DROPBEAR_CLIENT` and `DROPBEAR_SERVER`. -/
def sshkex (dropbearClient dropbearServer : Bool) : List AlgoType :=
  [.named "sntrup761x25519-sha512", .named "sntrup761x25519-sha512@openssh.com",
    .named "mlkem768x25519-sha256", .named "curve25519-sha256",
    .named "curve25519-sha256@libssh.org", .named "ecdh-sha2-nistp521",
    .named "ecdh-sha2-nistp384", .named "ecdh-sha2-nistp256",
    .named "diffie-hellman-group14-sha256", { name := kexguess2AlgoName }]
  ++ (if dropbearClient then [{ name := sshExtInfoC }, { name := sshStrictKexC }] else [])
  ++ (if dropbearServer then [{ name := sshStrictKexS }] else [])

def sshciphersTable : AlgoTable := ⟨sshciphers, by decide +kernel, by decide, by decide +kernel⟩

def sshhashesTable : AlgoTable := ⟨sshhashes, by decide +kernel, by decide, by decide +kernel⟩

def sshCompressTable : AlgoTable := ⟨sshCompress, by decide +kernel, by decide, by decide +kernel⟩

def sshNocompressTable : AlgoTable :=
  ⟨sshNocompress, by decide +kernel, by decide, by decide +kernel⟩

def sigalgsTable : AlgoTable := ⟨sigalgs, by decide +kernel, by decide, by decide +kernel⟩

def sshkexTable (dropbearClient dropbearServer : Bool) : AlgoTable where
  algos := sshkex dropbearClient dropbearServer
  names := by cases dropbearClient <;> cases dropbearServer <;> decide +kernel
  count := by cases dropbearClient <;> cases dropbearServer <;> decide
  short := by cases dropbearClient <;> cases dropbearServer <;> decide +kernel

/-! ## A list that was sent is the list that is read -/

theorem putNames_true (localalgos : List AlgoType) :
    putNames true localalgos = ((usableNames localalgos).map (comma :: ·)).flatten := by
  induction localalgos with
  | nil => rfl
  | cons algo rest ih =>
    rw [putNames]
    split
    next husable => simp [usableNames, husable, ih]
    next husable => simp [usableNames, husable, ih]

theorem intercalate_comma (name : Bytes) (names : List Bytes) :
    [comma].intercalate (name :: names) = name ++ (names.map (comma :: ·)).flatten := by
  induction names generalizing name with
  | nil => simp [List.intercalate]
  | cons next more ih =>
    have hstep : [comma].intercalate (name :: next :: more)
        = name ++ comma :: [comma].intercalate (next :: more) := by
      simp [List.intercalate]
    rw [hstep, ih]
    simp

theorem putNames_false (localalgos : List AlgoType) :
    putNames false localalgos = [comma].intercalate (usableNames localalgos) := by
  induction localalgos with
  | nil => rfl
  | cons algo rest ih =>
    rw [putNames]
    split
    next husable =>
      rw [putNames_true]
      have hnames : usableNames (algo :: rest) = algo.name :: usableNames rest := by
        simp [usableNames, husable]
      rw [hnames, intercalate_comma]
      simp
    next husable =>
      have hnames : usableNames (algo :: rest) = usableNames rest := by
        simp [usableNames, husable]
      rw [hnames]
      exact ih

theorem length_putNames (localalgos : List AlgoType) :
    (putNames false localalgos).length
      = ((usableNames localalgos).map (comma :: ·)).flatten.length - 1 := by
  rw [putNames_false]
  cases usableNames localalgos with
  | nil => rfl
  | cons name names =>
    rw [intercalate_comma]
    simp

/-- What `usable` is cleared of, the list is shorter by. -/
def withUsable (keep : AlgoType → Bool) (localalgos : List AlgoType) : List AlgoType :=
  localalgos.map fun algo => { algo with usable := algo.usable && keep algo }

theorem usableNames_withUsable (keep : AlgoType → Bool) (localalgos : List AlgoType) :
    (usableNames (withUsable keep localalgos)).Sublist (usableNames localalgos) := by
  induction localalgos with
  | nil => exact .slnil
  | cons algo rest ih =>
    cases husable : algo.usable with
    | false => simpa [usableNames, withUsable, husable] using ih
    | true =>
      cases hkeep : keep algo with
      | true => simpa [usableNames, withUsable, husable, hkeep] using ih
      | false => simpa [usableNames, withUsable, husable, hkeep] using ih.cons algo.name

theorem length_putNames_withUsable (keep : AlgoType → Bool) (localalgos : List AlgoType) :
    (putNames false (withUsable keep localalgos)).length ≤ (putNames false localalgos).length := by
  rw [length_putNames, length_putNames]
  have hsub := (usableNames_withUsable keep localalgos).map (comma :: ·)
  exact Nat.sub_le_sub_right hsub.flatten.length_le 1

/-- The program only ever clears `usable`: what is kept is a table. -/
def AlgoTable.keep (table : AlgoTable) (keep : AlgoType → Bool) : AlgoTable where
  algos := withUsable keep table.algos
  names := by
    intro algo hmem
    obtain ⟨algo', hmem', rfl⟩ := List.mem_map.mp hmem
    exact table.names algo' hmem'
  count := by
    rw [withUsable, List.length_map]
    exact table.count
  short := Nat.le_trans (length_putNames_withUsable keep table.algos) table.short

def svrAlgosInitialise (sshkex : AlgoTable) : AlgoTable :=
  sshkex.keep fun algo => algo.name != sshExtInfoC && algo.name != sshStrictKexC

def cliAlgosInitialise (sshkex : AlgoTable) : AlgoTable :=
  sshkex.keep fun algo => algo.name != sshStrictKexS

theorem appends_bufPutNames (donefirst : Bool) (localalgos : List AlgoType) :
    Buf.Appends (bufPutNames donefirst localalgos) (putNames donefirst localalgos) := by
  induction localalgos generalizing donefirst with
  | nil => exact Buf.appends_nothing
  | cons algo rest ih =>
    cases husable : algo.usable with
    | false =>
      have hskip := ih donefirst
      simpa [bufPutNames, putNames, husable] using hskip
    | true =>
      have hname := (Buf.appends_putbytes algo.name).bind (ih true)
      cases donefirst with
      | false => simpa [bufPutNames, putNames, husable] using hname
      | true => simpa [bufPutNames, putNames, husable] using (Buf.appends_putbyte comma).bind hname

/-- **What is written is the list as a string.** -/
theorem appends_bufPutAlgolist (localalgos : List AlgoType) :
    Buf.Appends (bufPutAlgolist localalgos) (sentAlgolist localalgos) := by
  intro buf contents size h
  have hfilled := (Buf.appends_putint 0).bind (appends_bufPutNames false localalgos) buf _ _ h
  set names := putNames false localalgos
  rw [bufPutAlgolist]
  dsimp only
  rw [← bind_assoc]
  refine Meets.bind hfilled ?_
  intro buf₁ h₁
  have hlen : (contents ++ (store32h 0 ++ names)).length = contents.length + 4 + names.length := by
    simp only [List.length_append, Buf.length_store32h]
    omega
  have hmax : names.length ≤ bufMaxIncr := by
    have hsize := buf.size_le
    have hle := h₁.len_le
    rw [← Buf.size, h.size] at hsize
    exact Nat.le_trans (by omega) hsize
  have hback : buf₁.pos - buf.pos - 4 = names.length := by
    rw [h₁.pos, h.pos]
    omega
  rw [hback, h.pos]
  obtain ⟨buf₂, hpos, h₂⟩ := h₁.setpos (n := contents.length) (by omega)
  obtain ⟨buf₃, hput, h₃⟩ := h₂.putbytes (store32h names.length)
    (Nat.le_trans (Nat.le_of_eq (Buf.length_store32h _)) (by decide))
    (Nat.le_trans (by rw [hlen, Buf.length_store32h]; omega) h₁.len_le)
  rw [Ring.overwrite_middle rfl (by rfl), Buf.length_store32h] at h₃
  obtain ⟨buf₄, hincr, h₄⟩ := h₃.incrwritepos hmax
    (by simp only [List.length_append, Buf.length_store32h]; omega)
  rw [hpos, ok_bind, Buf.putint, hput, ok_bind, hincr, meets_ok]
  have hsent : sentAlgolist localalgos = store32h names.length ++ names := rfl
  rw [hsent]
  refine ⟨h₄.contents, h₄.pos.trans ?_, h₄.size⟩
  simp only [List.length_append, Buf.length_store32h]
  omega

theorem splitNames_spec {text : Bytes} (hzero : 0 ∉ text) {retCount : Nat}
    (hcount : retCount + (text.splitOn comma).length ≤ maxProposedAlgo + 1) :
    splitNames retCount text = .ok (some (text.splitOn comma)) := by
  induction text generalizing retCount with
  | nil => rfl
  | cons c rest ih =>
    have hrest : 0 ∉ rest := fun hmem => hzero (List.mem_cons_of_mem _ hmem)
    have hc : c ≠ 0 := fun hc => hzero (hc ▸ List.mem_cons_self)
    rw [splitNames, if_neg hc]
    by_cases hcomma : c = comma
    · have hsplit : (c :: rest).splitOn comma = [] :: rest.splitOn comma := by
        rw [List.splitOn_cons_eq_if_modifyHead, if_pos (by simp [hcomma])]
      rw [hsplit, List.length_cons] at hcount
      have hpos : (rest.splitOn comma).length ≠ 0 := by
        rw [ne_eq, List.length_eq_zero_iff]
        exact List.splitOn_ne_nil _ _
      rw [if_pos hcomma, if_neg (by omega), ih hrest (by omega), hsplit]
      rfl
    · have hsplit : (c :: rest).splitOn comma = (rest.splitOn comma).modifyHead (c :: ·) := by
        rw [List.splitOn_cons_eq_if_modifyHead, if_neg (by simp [hcomma])]
      rw [hsplit, List.length_modifyHead] at hcount
      rw [if_neg hcomma, ih hrest hcount, hsplit]
      rfl

theorem mem_usableNames {localalgos : List AlgoType} {name : Bytes} :
    name ∈ usableNames localalgos ↔ ∃ algo ∈ localalgos, algo.usable = true ∧ algo.name = name := by
  simp [usableNames, and_assoc]

/-- The names that come out at the other side: an empty list comes out as one empty name. -/
def AlgoTable.listed (table : AlgoTable) : List Bytes :=
  if usableNames table.algos = [] then [[]] else usableNames table.algos

theorem AlgoTable.splitOn (table : AlgoTable) :
    (putNames false table.algos).splitOn comma = table.listed := by
  rw [putNames_false, AlgoTable.listed]
  split
  next hnone =>
    rw [hnone]
    rfl
  next hsome =>
    apply List.splitOn_intercalate comma _ hsome
    intro name hmem
    obtain ⟨algo, halgo, -, rfl⟩ := mem_usableNames.mp hmem
    exact (table.names algo halgo).2.1

theorem AlgoTable.no_zero (table : AlgoTable) : 0 ∉ putNames false table.algos := by
  have hnames : ∀ localalgos : List AlgoType, (∀ algo ∈ localalgos, 0 ∉ algo.name) →
      ∀ donefirst, 0 ∉ putNames donefirst localalgos := by
    intro localalgos
    induction localalgos with
    | nil => exact fun _ _ => List.not_mem_nil
    | cons algo rest ih =>
      intro hall donefirst
      have hrest := ih fun a ha => hall a (List.mem_cons_of_mem _ ha)
      have hname := hall algo List.mem_cons_self
      rw [putNames]
      split
      next =>
        rw [List.mem_append, List.mem_append, not_or, not_or]
        refine ⟨⟨?_, hname⟩, hrest true⟩
        cases donefirst with
        | false => exact List.not_mem_nil
        | true => decide
      next => exact hrest donefirst
  exact hnames _ (fun algo hmem => (table.names algo hmem).2.2) false

theorem AlgoTable.length_listed (table : AlgoTable) : table.listed.length ≤ maxProposedAlgo := by
  rw [AlgoTable.listed]
  split
  next => decide
  next =>
    have hle := List.length_filter_le (·.usable) table.algos
    have hcount := table.count
    rw [usableNames, List.length_map]
    omega

/-- **A list that was sent is the list that is read.** -/
theorem AlgoTable.getAlgolist (table : AlgoTable) :
    getAlgolist (putNames false table.algos) = .ok table.listed := by
  have hcount : 1 + ((putNames false table.algos).splitOn comma).length ≤ maxProposedAlgo + 1 := by
    rw [table.splitOn]
    have := table.length_listed
    omega
  rw [Sshd4a.getAlgolist, splitNames_spec table.no_zero hcount, table.splitOn]
  rfl

theorem bufMatchAlgo_sent (remote : AlgoTable) (isServer : Bool) (localalgos : List AlgoType)
    (kexguess2 : Bool) (rest : Bytes) :
    bufMatchAlgo isServer localalgos kexguess2 (sentAlgolist remote.algos ++ rest)
      = .ok (matchAlgo isServer localalgos kexguess2 remote.listed, rest) := by
  rw [bufMatchAlgo, sentAlgolist, bufGetstring_sshString_short remote.short]
  simp only [ok_bind]
  rw [remote.getAlgolist]
  rfl

/-! ## The first match -/

theorem sameName_iff {serv cli : Option Bytes} :
    sameName serv cli = true ↔ ∃ name, serv = some name ∧ cli = some name := by
  cases serv with
  | none => simp [sameName]
  | some name =>
    cases cli with
    | none => simp [sameName]
    | some name' =>
      simp only [sameName, Option.isSome_some, Bool.and_self, Bool.true_and, decide_eq_true_eq,
        Option.some.injEq]
      constructor
      · rintro rfl
        exact ⟨name, rfl, rfl⟩
      · rintro ⟨other, rfl, rfl⟩
        rfl

variable {servnames clinames : List (Option Bytes)} {i j : Nat}

theorem not_mem_of_findIdx? {name : Bytes}
    (h : servnames.findIdx? (sameName · (some name)) = none) : some name ∉ servnames := by
  intro hmem
  have hfalse := List.findIdx?_eq_none_iff.mp h (some name) hmem
  rw [sameName_iff.mpr ⟨name, rfl, rfl⟩] at hfalse
  exact absurd hfalse (by simp)

/-- What the two loops find. -/
theorem firstMatch_some (h : firstMatch servnames clinames = some (i, j)) :
    ∃ name, clinames[i]? = some (some name) ∧ servnames[j]? = some (some name) ∧
      (clinames.filterMap id).find? (fun n => some n ∈ servnames) = some name := by
  induction clinames generalizing i j with
  | nil => exact absurd h (by simp [firstMatch])
  | cons cli rest ih =>
    rw [firstMatch] at h
    split at h
    next place hplace =>
      cases h
      obtain ⟨hlt, hsame, -⟩ := List.findIdx?_eq_some_iff_getElem.mp hplace
      obtain ⟨name, hserv, hcli⟩ := sameName_iff.mp hsame
      have hget : servnames[j]? = some (some name) := by
        rw [List.getElem?_eq_getElem hlt, hserv]
      refine ⟨name, by simp [hcli], hget, ?_⟩
      have hmem : some name ∈ servnames := List.mem_of_getElem? hget
      simp [hcli, hmem]
    next hnone =>
      obtain ⟨⟨i', j'⟩, hrest, hplace⟩ := Option.map_eq_some_iff.mp h
      cases hplace
      obtain ⟨name, hcli, hserv, hfind⟩ := ih hrest
      refine ⟨name, hcli, hserv, ?_⟩
      cases hfirst : cli with
      | none => simpa using hfind
      | some first =>
        have hnot := not_mem_of_findIdx? (hfirst ▸ hnone)
        simpa [hnot] using hfind

theorem firstMatch_none (h : firstMatch servnames clinames = none) :
    (clinames.filterMap id).find? (fun n => some n ∈ servnames) = none := by
  induction clinames with
  | nil => rfl
  | cons cli rest ih =>
    rw [firstMatch] at h
    split at h
    next => exact absurd h (by simp)
    next hnone =>
      have hrest := ih (Option.map_eq_none_iff.mp h)
      cases hfirst : cli with
      | none => simpa using hrest
      | some first =>
        have hnot := not_mem_of_findIdx? (hfirst ▸ hnone)
        simpa [hnot] using hrest

theorem filterMap_localnames (localalgos : List AlgoType) :
    (localnames localalgos).filterMap id = usableNames localalgos := by
  induction localalgos with
  | nil => rfl
  | cons algo rest ih =>
    have hcons : localnames (algo :: rest)
        = (if algo.usable then some algo.name else none) :: localnames rest := rfl
    rw [hcons]
    cases husable : algo.usable with
    | true => simpa [usableNames, husable] using ih
    | false => simpa [usableNames, husable] using ih

theorem mem_localnames {localalgos : List AlgoType} {name : Bytes} :
    some name ∈ localnames localalgos ↔ name ∈ usableNames localalgos := by
  rw [← filterMap_localnames, List.mem_filterMap]
  simp

theorem localnames_getElem? {localalgos : List AlgoType} {name : Bytes}
    (h : (localnames localalgos)[i]? = some (some name)) :
    ∃ algo, localalgos[i]? = some algo ∧ algo.usable = true ∧ algo.name = name := by
  rw [localnames, List.getElem?_map, Option.map_eq_some_iff] at h
  obtain ⟨algo, halgo, hname⟩ := h
  split at hname
  next husable => exact ⟨algo, halgo, husable, Option.some.inj hname⟩
  next => exact absurd hname (by simp)

/-- **The name that is chosen**: the first of the client's that the server has. -/
theorem matchAlgo_server (localalgos : List AlgoType) (kexguess2 : Bool) (remotenames : List Bytes) :
    (matchAlgo true localalgos kexguess2 remotenames).1.map (·.name)
      = remotenames.find? (· ∈ usableNames localalgos) := by
  have hnames : (remotenames.map some).filterMap id = remotenames := by simp
  cases hplace : firstMatch (localnames localalgos) (remotenames.map some) with
  | none =>
    have hfind := firstMatch_none hplace
    simp only [hnames, mem_localnames] at hfind
    simp [matchAlgo, hplace, hfind]
  | some place =>
    obtain ⟨name, -, hserv, hfind⟩ := firstMatch_some hplace
    obtain ⟨algo, halgo, -, hname⟩ := localnames_getElem? hserv
    simp only [hnames, mem_localnames] at hfind
    simp [matchAlgo, hplace, halgo, hname, hfind]

theorem matchAlgo_client (localalgos : List AlgoType) (kexguess2 : Bool) (remotenames : List Bytes) :
    (matchAlgo false localalgos kexguess2 remotenames).1.map (·.name)
      = (usableNames localalgos).find? (· ∈ remotenames) := by
  have hnames : ∀ name, some name ∈ remotenames.map some ↔ name ∈ remotenames := by simp
  cases hplace : firstMatch (remotenames.map some) (localnames localalgos) with
  | none =>
    have hfind := firstMatch_none hplace
    simp only [filterMap_localnames, hnames] at hfind
    simp [matchAlgo, hplace, hfind]
  | some place =>
    obtain ⟨name, hcli, -, hfind⟩ := firstMatch_some hplace
    obtain ⟨algo, halgo, -, hname⟩ := localnames_getElem? hcli
    simp only [filterMap_localnames, hnames] at hfind
    simp [matchAlgo, hplace, halgo, hname, hfind]

/-! ## Both sides -/

theorem AlgoTable.nil_not_mem (table : AlgoTable) : [] ∉ usableNames table.algos := by
  intro hmem
  obtain ⟨algo, halgo, -, hname⟩ := mem_usableNames.mp hmem
  exact (table.names algo halgo).1 hname

/-- The empty name of an empty list matches nothing. -/
theorem AlgoTable.mem_listed (table : AlgoTable) {name : Bytes} (hname : name ≠ []) :
    name ∈ table.listed ↔ name ∈ usableNames table.algos := by
  rw [AlgoTable.listed]
  split
  next hnone => simp [hnone, hname]
  next => exact Iff.rfl

theorem AlgoTable.find?_listed (client server : AlgoTable) :
    client.listed.find? (· ∈ usableNames server.algos)
      = (usableNames client.algos).find? (· ∈ usableNames server.algos) := by
  rw [AlgoTable.listed]
  split
  next hnone => simp [hnone, server.nil_not_mem]
  next => rfl

theorem matchAlgo_client_listed (client server : AlgoTable) (kexguess2 : Bool) :
    (matchAlgo false client.algos kexguess2 server.listed).1.map (·.name)
      = (usableNames client.algos).find? (· ∈ usableNames server.algos) := by
  rw [matchAlgo_client]
  apply List.find?_congr
  intro name hmem
  have hname : name ≠ [] := fun hnil => client.nil_not_mem (hnil ▸ hmem)
  simp [server.mem_listed hname]

theorem matchAlgo_server_listed (client server : AlgoTable) (kexguess2 : Bool) :
    (matchAlgo true server.algos kexguess2 client.listed).1.map (·.name)
      = (usableNames client.algos).find? (· ∈ usableNames server.algos) := by
  rw [matchAlgo_server, client.find?_listed server]

/-- **Both sides choose the same.** Whatever is in the tables of a client and a server and whichever
    entries are usable, each reads the list that the other has sent without an exit, and the
    algorithms they choose have the same name: the first usable one of the client's that is usable
    at the server. If there is none, neither chooses any. -/
theorem negotiation_agrees (client server : AlgoTable) (kexguess2 kexguess2' : Bool)
    (rest rest' : Bytes) :
    ∃ atClient atServer,
      bufMatchAlgo false client.algos kexguess2 (sentAlgolist server.algos ++ rest)
        = .ok (atClient, rest) ∧
      bufMatchAlgo true server.algos kexguess2' (sentAlgolist client.algos ++ rest')
        = .ok (atServer, rest') ∧
      atClient.1.map (·.name)
        = (usableNames client.algos).find? (· ∈ usableNames server.algos) ∧
      atServer.1.map (·.name) = atClient.1.map (·.name) := by
  refine ⟨_, _, bufMatchAlgo_sent server false _ _ _, bufMatchAlgo_sent client true _ _ _, ?_⟩
  rw [matchAlgo_client_listed, matchAlgo_server_listed]
  exact ⟨rfl, rfl⟩

/-- What `load_all_hostkeys` leaves usable if the only key is an ECDSA key of 256 bits. -/
def ecdsaOnly (algo : AlgoType) : Bool := algo.name == ascii "ecdsa-sha2-nistp256"

def ecdsaSigalgs : AlgoTable := sigalgsTable.keep ecdsaOnly

theorem usableNames_ecdsaSigalgs : usableNames ecdsaSigalgs.algos = [ascii "ecdsa-sha2-nistp256"] := by
  decide +kernel

/-- A client that prefers another key takes the one that the server has. -/
theorem negotiation_agrees_ecdsa : ∃ atClient atServer,
    bufMatchAlgo false sigalgs true (sentAlgolist ecdsaSigalgs.algos ++ []) = .ok (atClient, []) ∧
    bufMatchAlgo true ecdsaSigalgs.algos true (sentAlgolist sigalgs ++ []) = .ok (atServer, []) ∧
    atClient.1.map (·.name) = some (ascii "ecdsa-sha2-nistp256") ∧
    atServer.1.map (·.name) = some (ascii "ecdsa-sha2-nistp256") := by
  obtain ⟨atClient, atServer, hclient, hserver, hname, hsame⟩ :=
    negotiation_agrees sigalgsTable ecdsaSigalgs true true [] []
  have hfirst : (usableNames sigalgsTable.algos).find? (· ∈ usableNames ecdsaSigalgs.algos)
      = some (ascii "ecdsa-sha2-nistp256") := by
    rw [usableNames_ecdsaSigalgs]
    decide +kernel
  exact ⟨atClient, atServer, hclient, hserver, hname.trans hfirst, hsame.trans (hname.trans hfirst)⟩

/-! ## The guess -/

/-- Whether the first of the one list is the first of the other. -/
def sameFirst (client server : AlgoTable) : Bool :=
  (usableNames server.algos).head?.isSome &&
    (usableNames client.algos).head? = (usableNames server.algos).head?

theorem matchAlgo_guess2 (localalgos : List AlgoType) (remotenames : List Bytes) :
    (matchAlgo true localalgos true remotenames).2 = true ↔
      ∃ name, remotenames.head? = some name ∧ name ∈ usableNames localalgos := by
  cases remotenames with
  | nil => simp [matchAlgo, firstMatch]
  | cons name rest =>
    cases hplace : (localnames localalgos).findIdx? (sameName · (some name)) with
    | none =>
      have hnot : name ∉ usableNames localalgos :=
        fun hmem => not_mem_of_findIdx? hplace (mem_localnames.mpr hmem)
      cases hrest : firstMatch (localnames localalgos) (rest.map some) with
      | none => simp [matchAlgo, firstMatch, hplace, hrest, hnot]
      | some place => simp [matchAlgo, firstMatch, hplace, hrest, hnot]
    | some j =>
      obtain ⟨hlt, hsame, -⟩ := List.findIdx?_eq_some_iff_getElem.mp hplace
      obtain ⟨name', hserv, hname⟩ := sameName_iff.mp hsame
      have hmem : name ∈ usableNames localalgos := by
        rw [← mem_localnames, hname, ← hserv]
        exact List.getElem_mem hlt
      simp [matchAlgo, firstMatch, hplace, hmem]

theorem matchAlgo_guess (localalgos : List AlgoType) (remotenames : List Bytes) :
    (matchAlgo true localalgos false remotenames).2 = true ↔
      ∃ algo, localalgos.head? = some algo ∧ algo.usable = true ∧
        remotenames.head? = some algo.name := by
  constructor
  · intro hverdict
    cases hplace : firstMatch (localnames localalgos) (remotenames.map some) with
    | none => simp [matchAlgo, hplace] at hverdict
    | some place =>
      obtain ⟨i, j⟩ := place
      simp only [matchAlgo, if_true, hplace, Bool.false_eq_true, if_false, Bool.and_eq_true,
        decide_eq_true_eq] at hverdict
      obtain ⟨rfl, rfl⟩ := hverdict
      obtain ⟨name, hcli, hserv, -⟩ := firstMatch_some hplace
      obtain ⟨algo, halgo, husable, rfl⟩ := localnames_getElem? hserv
      refine ⟨algo, ?_, husable, ?_⟩
      · rw [List.head?_eq_getElem?]
        exact halgo
      · rw [List.getElem?_map, Option.map_eq_some_iff] at hcli
        obtain ⟨name, hname, hsome⟩ := hcli
        rw [List.head?_eq_getElem?, hname]
        exact hsome
  · rintro ⟨algo, halgo, husable, hname⟩
    obtain ⟨rest, rfl⟩ := List.head?_eq_some_iff.mp halgo
    obtain ⟨more, rfl⟩ := List.head?_eq_some_iff.mp hname
    have hsame : sameName (some algo.name) (some algo.name) = true := sameName_iff.mpr ⟨_, rfl, rfl⟩
    simp [matchAlgo, firstMatch, localnames, husable, List.findIdx?_cons, hsame]

theorem AlgoTable.head?_listed (table : AlgoTable) {name : Bytes} (hname : name ≠ []) :
    table.listed.head? = some name ↔ (usableNames table.algos).head? = some name := by
  rw [AlgoTable.listed]
  split
  next hnone => simp [hnone, hname.symm]
  next => exact Iff.rfl

/-- The first entry of the table, not the first name of the list, is compared. -/
theorem matchAlgo_guess_eq (client server : AlgoTable) :
    (matchAlgo true server.algos false client.listed).2
      = (server.algos.head?.any (·.usable) && sameFirst client server) := by
  rw [Bool.eq_iff_iff, matchAlgo_guess, Bool.and_eq_true]
  constructor
  · rintro ⟨algo, halgo, husable, hfirst⟩
    obtain ⟨more, hmore⟩ := List.head?_eq_some_iff.mp halgo
    have hname : algo.name ≠ [] := (server.names algo (List.mem_of_mem_head? halgo)).1
    have hserver : (usableNames server.algos).head? = some algo.name := by
      simp [usableNames, hmore, husable]
    refine ⟨by simp [halgo, husable], ?_⟩
    rw [sameFirst, hserver, (client.head?_listed hname).mp hfirst]
    simp
  · rintro ⟨husable, hsame⟩
    obtain ⟨algo, halgo, husable⟩ := (Option.any_eq_true _ _).mp husable
    obtain ⟨more, hmore⟩ := List.head?_eq_some_iff.mp halgo
    have hname : algo.name ≠ [] := (server.names algo (List.mem_of_mem_head? halgo)).1
    have hserver : (usableNames server.algos).head? = some algo.name := by
      simp [usableNames, hmore, husable]
    refine ⟨algo, halgo, husable, (client.head?_listed hname).mpr ?_⟩
    rw [sameFirst, hserver] at hsame
    simpa using hsame

/-- **What a guess is judged by.** With `kexguess2` a guess is good exactly if the first algorithm
    that the client lists is usable at the server. Without it, the server's verdict is whether both
    lists begin with the same name exactly if the first entry of its table is usable, or the lists
    begin differently anyway: an unusable first entry, which the server does not list, makes it
    ignore a packet that was guessed right. -/
theorem guess_verdict (client server : AlgoTable) (rest : Bytes) :
    ∃ atServer atServer',
      bufMatchAlgo true server.algos true (sentAlgolist client.algos ++ rest) = .ok (atServer, rest) ∧
      bufMatchAlgo true server.algos false (sentAlgolist client.algos ++ rest)
        = .ok (atServer', rest) ∧
      (atServer.2 = true ↔
        ∃ name ∈ usableNames server.algos, (usableNames client.algos).head? = some name) ∧
      (atServer'.2 = sameFirst client server ↔
        server.algos.head?.any (·.usable) = true ∨ sameFirst client server = false) := by
  refine ⟨_, _, bufMatchAlgo_sent client true _ _ _, bufMatchAlgo_sent client true _ _ _, ?_, ?_⟩
  · rw [matchAlgo_guess2]
    constructor
    · rintro ⟨name, hfirst, hmem⟩
      have hname : name ≠ [] := fun hnil => server.nil_not_mem (hnil ▸ hmem)
      exact ⟨name, hmem, (client.head?_listed hname).mp hfirst⟩
    · rintro ⟨name, hmem, hfirst⟩
      have hname : name ≠ [] := fun hnil => server.nil_not_mem (hnil ▸ hmem)
      exact ⟨name, (client.head?_listed hname).mpr hfirst, hmem⟩
  · rw [matchAlgo_guess_eq]
    cases server.algos.head?.any (·.usable) with
    | true => simp
    | false => cases sameFirst client server <;> simp

/-- Two sides whose only key is an ECDSA key: the guess is right, and without `kexguess2` the server
    takes it for wrong. -/
theorem guess_verdict_ecdsa : ∃ atServer atServer',
    bufMatchAlgo true ecdsaSigalgs.algos true (sentAlgolist ecdsaSigalgs.algos ++ [])
      = .ok (atServer, []) ∧
    bufMatchAlgo true ecdsaSigalgs.algos false (sentAlgolist ecdsaSigalgs.algos ++ [])
      = .ok (atServer', []) ∧
    sameFirst ecdsaSigalgs ecdsaSigalgs = true ∧ atServer.2 = true ∧ atServer'.2 = false := by
  obtain ⟨atServer, atServer', hmatch, hmatch', hguess2, hguess⟩ :=
    guess_verdict ecdsaSigalgs ecdsaSigalgs []
  have hsame : sameFirst ecdsaSigalgs ecdsaSigalgs = true := by
    rw [sameFirst, usableNames_ecdsaSigalgs]
    rfl
  have hunusable : ecdsaSigalgs.algos.head?.any (·.usable) = false := by decide +kernel
  refine ⟨atServer, atServer', hmatch, hmatch', hsame, hguess2.mpr ?_, ?_⟩
  · rw [usableNames_ecdsaSigalgs]
    exact ⟨_, List.mem_singleton_self _, rfl⟩
  · rw [hsame, hunusable] at hguess
    simpa using hguess

end Sshd4a
