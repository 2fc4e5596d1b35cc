import Sshd4a.Native.Algo
import Sshd4a.Native.Packet

/-!
# KEXINIT (`common-kex.c`)

`send_msg_kexinit` writes the lists of all kinds of algorithms to `ses.writepayload`, which takes
16384 bytes. `read_kex_algos` takes those of the other side apart in the same order and stops at the
first kind without a match. A cipher that has its own MAC needs none.

- `sendMsgKexinit_ok_iff`: a KEXINIT is sent exactly if its lists fit; those of the program do.
- `kexinit_agrees`: two sides that have read each other's KEXINIT have chosen the same algorithms for
  every kind and direction, or both exit over the same kind.
-/

namespace Sshd4a

open Text Fallible

/-- The tables of one side. -/
structure KexTables where
  sshkex : AlgoTable
  sigalgs : AlgoTable
  sshciphers : AlgoTable
  sshhashes : AlgoTable
  compressAlgosC2s : AlgoTable
  compressAlgosS2c : AlgoTable

/-- `erralgo` -/
inductive AlgoKind
  | kex
  | hostkey
  | encC2s
  | encS2c
  | macC2s
  | macS2c
  | compC2s
  | compS2c
deriving DecidableEq, Repr

inductive KexinitExit
  | algo (why : AlgoExit)
  | buf (stop : Stop)
  | noMatchingAlgo (erralgo : AlgoKind)

/-- `genrandom` and `buf_incrwritepos`. -/
def putCookie (cookie : Fin 16 → UInt8) (buf : Buf) : Except PacketExit Buf := do
  buf.getwriteptr 16
  let buf ← buf.store (List.ofFn cookie)
  buf.incrwritepos 16

def bufPutstring (str : Bytes) (buf : Buf) : Except PacketExit Buf := do
  let buf ← buf.putint str.length
  buf.putbytes str

/-- `send_msg_kexinit` up to `encrypt_packet`, with `ses.writepayload` as it finds it. -/
def KexTables.sendMsgKexinit (tables : KexTables) (cookie : Fin 16 → UInt8) (firstFollows : Bool)
    (writepayload : Buf) : Except PacketExit Buf := do
  let buf ← writepayload.putbyte sshMsgKexinit
  let buf ← putCookie cookie buf
  let buf ← bufPutAlgolist tables.sshkex.algos buf
  let buf ← bufPutAlgolist tables.sigalgs.algos buf
  let buf ← bufPutAlgolist tables.sshciphers.algos buf
  let buf ← bufPutAlgolist tables.sshciphers.algos buf
  let buf ← bufPutAlgolist tables.sshhashes.algos buf
  let buf ← bufPutAlgolist tables.sshhashes.algos buf
  let buf ← bufPutAlgolist tables.compressAlgosC2s.algos buf
  let buf ← bufPutAlgolist tables.compressAlgosS2c.algos buf
  let buf ← bufPutstring [] buf
  let buf ← bufPutstring [] buf
  let buf ← buf.putbyte (if firstFollows then 1 else 0)
  buf.putint 0

/-- What it writes after the type. -/
def kexinitPayload (tables : KexTables) (cookie : Fin 16 → UInt8) (firstFollows : Bool) : Bytes :=
  List.ofFn cookie ++ (sentAlgolist tables.sshkex.algos ++ (sentAlgolist tables.sigalgs.algos ++
    (sentAlgolist tables.sshciphers.algos ++ (sentAlgolist tables.sshciphers.algos ++
    (sentAlgolist tables.sshhashes.algos ++ (sentAlgolist tables.sshhashes.algos ++
    (sentAlgolist tables.compressAlgosC2s.algos ++ (sentAlgolist tables.compressAlgosS2c.algos ++
    (sshString [] ++ (sshString [] ++ ([if firstFollows then 1 else 0] ++ [0, 0, 0, 0])))))))))))

def AlgoTable.listLen (table : AlgoTable) : Nat := (putNames false table.algos).length

/-- All lists fit `ses.writepayload`: there are 62 bytes beside them. -/
def KexTables.Fits (tables : KexTables) : Prop :=
  62 + tables.sshkex.listLen + tables.sigalgs.listLen + 2 * tables.sshciphers.listLen
    + 2 * tables.sshhashes.listLen + tables.compressAlgosC2s.listLen
    + tables.compressAlgosS2c.listLen ≤ transMaxPayloadLen

def bufHasAlgo (payload algo : Bytes) : Except AlgoExit Bool := do
  let (algolist, _) ← (match bufGetstring payload with
    | .ok answer => .ok answer
    | .error stop => .error (.buf stop))
  let remotenames ← getAlgolist algolist
  return algo ∈ remotenames

def bufEatstring : Reader Unit := fun payload =>
  match bufGetint payload with
  | .error stop => .error stop
  | .ok (len, rest) =>
    match bufGetptr len rest with
    | .error stop => .error stop
    | .ok (_, rest) => .ok ((), rest)

/-- What was chosen; a cipher with its own MAC has no other. -/
structure Negotiated where
  kex : AlgoType
  hostkey : AlgoType
  cipherC2s : AlgoType
  cipherS2c : AlgoType
  macC2s : Option AlgoType
  macS2c : Option AlgoType
  compC2s : AlgoType
  compS2c : AlgoType
deriving DecidableEq, Repr

structure KexinitRead where
  algos : Negotiated
  strictKex : Bool
  firstFollows : Bool
  allgood : Bool

def exitOfAlgo {α : Type} : Except AlgoExit α → Except KexinitExit α
  | .ok a => .ok a
  | .error why => .error (.algo why)

def exitOfBuf {α : Type} : Except Stop α → Except KexinitExit α
  | .ok a => .ok a
  | .error stop => .error (.buf stop)

def requireAlgo (erralgo : AlgoKind) : Option AlgoType → Except KexinitExit AlgoType
  | some algo => .ok algo
  | none => .error (.noMatchingAlgo erralgo)

def requireMac (erralgo : AlgoKind) (aead : Bool) : Option AlgoType → Except KexinitExit (Option AlgoType)
  | some algo => .ok (if aead then none else some algo)
  | none => if aead then .ok none else .error (.noMatchingAlgo erralgo)

/-- Which algorithms have `data`, and which ciphers have `aead_crypt`. -/
structure AlgoData where
  hasData : AlgoType → Bool
  isAead : AlgoType → Bool

/-- The tables of the program: some names of `sshkex` stand for no key exchange. -/
def algoData : AlgoData where
  hasData algo := algo.name ∉ [kexguess2AlgoName, sshExtInfoC, sshStrictKexC, sshStrictKexS]
  isAead algo := algo.name ∈ [ascii "chacha20-poly1305@openssh.com", ascii "aes256-gcm@openssh.com",
    ascii "aes128-gcm@openssh.com"]

def readKexAlgos (data : AlgoData) (isServer : Bool) (tables : KexTables) (payload : Bytes) :
    Except KexinitExit KexinitRead := do
  let (_, payload) ← exitOfBuf (bufGetptr 16 payload)
  let kexguess2 ← exitOfAlgo (bufHasAlgo payload kexguess2AlgoName)
  let strictKex ← exitOfAlgo (bufHasAlgo payload (if isServer then sshStrictKexC else sshStrictKexS))
  let ((algo, kexGuess), payload) ← exitOfAlgo (bufMatchAlgo isServer tables.sshkex.algos kexguess2 payload)
  let kex ← requireAlgo .kex (algo.filter data.hasData)
  let ((algo, hostkeyGuess), payload) ←
    exitOfAlgo (bufMatchAlgo isServer tables.sigalgs.algos kexguess2 payload)
  let hostkey ← requireAlgo .hostkey algo
  let ((algo, _), payload) ← exitOfAlgo (bufMatchAlgo isServer tables.sshciphers.algos false payload)
  let cipherC2s ← requireAlgo .encC2s algo
  let ((algo, _), payload) ← exitOfAlgo (bufMatchAlgo isServer tables.sshciphers.algos false payload)
  let cipherS2c ← requireAlgo .encS2c algo
  let ((algo, _), payload) ← exitOfAlgo (bufMatchAlgo isServer tables.sshhashes.algos false payload)
  let macC2s ← requireMac .macC2s (data.isAead cipherC2s) algo
  let ((algo, _), payload) ← exitOfAlgo (bufMatchAlgo isServer tables.sshhashes.algos false payload)
  let macS2c ← requireMac .macS2c (data.isAead cipherS2c) algo
  let ((algo, _), payload) ←
    exitOfAlgo (bufMatchAlgo isServer tables.compressAlgosC2s.algos false payload)
  let compC2s ← requireAlgo .compC2s algo
  let ((algo, _), payload) ←
    exitOfAlgo (bufMatchAlgo isServer tables.compressAlgosS2c.algos false payload)
  let compS2c ← requireAlgo .compS2c algo
  let (_, payload) ← exitOfBuf (bufEatstring payload)
  let (_, payload) ← exitOfBuf (bufEatstring payload)
  let (firstFollows, payload) ← exitOfBuf (bufGetbool payload)
  let (_, _) ← exitOfBuf (bufGetint payload)
  return {
    algos := {
      kex := kex, hostkey := hostkey, cipherC2s := cipherC2s, cipherS2c := cipherS2c
      macC2s := macC2s, macS2c := macS2c, compC2s := compC2s, compS2c := compS2c }
    strictKex := strictKex
    firstFollows := firstFollows
    allgood := kexGuess && hostkeyGuess }

/-! ## What is sent -/

theorem appends_putCookie (cookie : Fin 16 → UInt8) :
    Buf.Appends (putCookie cookie) (List.ofFn cookie) := by
  have hlen : (List.ofFn cookie).length = 16 := List.length_ofFn
  intro buf contents size h
  have hput := Buf.appends_putbytes (List.ofFn cookie) buf contents size h
  simp only [Buf.putbytes, hlen] at hput
  rw [hlen]
  exact hput

theorem appends_bufPutstring (str : Bytes) : Buf.Appends (bufPutstring str) (sshString str) :=
  (Buf.appends_putint str.length).bind (Buf.appends_putbytes str)

theorem appends_sendMsgKexinit (tables : KexTables) (cookie : Fin 16 → UInt8) (firstFollows : Bool) :
    Buf.Appends (tables.sendMsgKexinit cookie firstFollows)
      (sshMsgKexinit :: kexinitPayload tables cookie firstFollows) :=
  (Buf.appends_putbyte sshMsgKexinit).bind <|
  (appends_putCookie cookie).bind <|
  (appends_bufPutAlgolist tables.sshkex.algos).bind <|
  (appends_bufPutAlgolist tables.sigalgs.algos).bind <|
  (appends_bufPutAlgolist tables.sshciphers.algos).bind <|
  (appends_bufPutAlgolist tables.sshciphers.algos).bind <|
  (appends_bufPutAlgolist tables.sshhashes.algos).bind <|
  (appends_bufPutAlgolist tables.sshhashes.algos).bind <|
  (appends_bufPutAlgolist tables.compressAlgosC2s.algos).bind <|
  (appends_bufPutAlgolist tables.compressAlgosS2c.algos).bind <|
  (appends_bufPutstring []).bind <|
  (appends_bufPutstring []).bind <|
  (Buf.appends_putbyte (if firstFollows then 1 else 0)).bind (Buf.appends_putint 0)

theorem length_sentAlgolist (table : AlgoTable) :
    (sentAlgolist table.algos).length = 4 + table.listLen := by
  rw [sentAlgolist, sshString, List.length_append, AlgoTable.listLen]
  rfl

theorem KexTables.fits_iff (tables : KexTables) (cookie : Fin 16 → UInt8) (firstFollows : Bool) :
    tables.Fits ↔
      (sshMsgKexinit :: kexinitPayload tables cookie firstFollows).length ≤ transMaxPayloadLen := by
  have hnil : (sshString []).length = 4 := rfl
  simp only [KexTables.Fits, kexinitPayload, List.length_cons, List.length_append, List.length_ofFn,
    length_sentAlgolist, hnil, List.length_nil]
  omega

/-- A KEXINIT is sent exactly if its lists fit. -/
theorem sendMsgKexinit_ok_iff (tables : KexTables) (cookie : Fin 16 → UInt8) (firstFollows : Bool)
    {writepayload : Buf} (hclear : writepayload.Shows [] 0 transMaxPayloadLen) :
    (∃ sent, tables.sendMsgKexinit cookie firstFollows writepayload = .ok sent) ↔ tables.Fits := by
  rw [tables.fits_iff cookie firstFollows]
  exact (appends_sendMsgKexinit tables cookie firstFollows).ok_iff hclear

theorem sendMsgKexinit_spec {tables : KexTables} (hfits : tables.Fits) (cookie : Fin 16 → UInt8)
    (firstFollows : Bool) {writepayload : Buf}
    (hclear : writepayload.Shows [] 0 transMaxPayloadLen) :
    ∃ sent, tables.sendMsgKexinit cookie firstFollows writepayload = .ok sent ∧
      sent.contents = sshMsgKexinit :: kexinitPayload tables cookie firstFollows := by
  obtain ⟨sent, hsent, hshows⟩ := (appends_sendMsgKexinit tables cookie firstFollows).run hclear
    ((tables.fits_iff cookie firstFollows).mp hfits)
  exact ⟨sent, hsent, hshows.contents⟩

/-- The tables of a server; `keep` are the entries of `sigalgs` that it has a key for. -/
def svrTables (dropbearClient : Bool) (keep : AlgoType → Bool) (compression : Bool) : KexTables where
  sshkex := svrAlgosInitialise (sshkexTable dropbearClient true)
  sigalgs := sigalgsTable.keep keep
  sshciphers := sshciphersTable
  sshhashes := sshhashesTable
  compressAlgosC2s := sshNocompressTable
  compressAlgosS2c := if compression then sshCompressTable else sshNocompressTable

def cliTables (dropbearServer : Bool) (compression : Bool) : KexTables where
  sshkex := cliAlgosInitialise (sshkexTable true dropbearServer)
  sigalgs := sigalgsTable
  sshciphers := sshciphersTable
  sshhashes := sshhashesTable
  compressAlgosC2s := if compression then sshCompressTable else sshNocompressTable
  compressAlgosS2c := if compression then sshCompressTable else sshNocompressTable

theorem listLen_keep (table : AlgoTable) (keep : AlgoType → Bool) :
    (table.keep keep).listLen ≤ table.listLen := length_putNames_withUsable keep table.algos

theorem listLen_sshkexTable (dropbearClient dropbearServer : Bool) :
    (sshkexTable dropbearClient dropbearServer).listLen ≤ 400 := by
  cases dropbearClient <;> cases dropbearServer <;> decide +kernel

theorem listLen_compress (compression : Bool) :
    (if compression then sshCompressTable else sshNocompressTable).listLen ≤ 26 := by
  cases compression <;> decide +kernel

theorem listLen_tables : sigalgsTable.listLen ≤ 200 ∧ sshciphersTable.listLen ≤ 200 ∧
    sshhashesTable.listLen ≤ 200 ∧ sshNocompressTable.listLen ≤ 200 := by
  decide +kernel

theorem svrTables_fits (dropbearClient : Bool) (keep : AlgoType → Bool) (compression : Bool) :
    (svrTables dropbearClient keep compression).Fits := by
  have hkex := listLen_keep (sshkexTable dropbearClient true)
    fun algo => algo.name != sshExtInfoC && algo.name != sshStrictKexC
  have hmax := listLen_sshkexTable dropbearClient true
  have hsig := listLen_keep sigalgsTable keep
  have hcompress := listLen_compress compression
  have htables := listLen_tables
  simp only [KexTables.Fits, svrTables, svrAlgosInitialise, transMaxPayloadLen]
  omega

theorem cliTables_fits (dropbearServer : Bool) (compression : Bool) :
    (cliTables dropbearServer compression).Fits := by
  have hkex := listLen_keep (sshkexTable true dropbearServer) fun algo => algo.name != sshStrictKexS
  have hmax := listLen_sshkexTable true dropbearServer
  have hcompress := listLen_compress compression
  have htables := listLen_tables
  simp only [KexTables.Fits, cliTables, cliAlgosInitialise, transMaxPayloadLen]
  omega

/-! ## What comes out at the other side -/

/-- An exit for want of a match. -/
def KexinitExit.IsNoMatch (why : KexinitExit) : Prop := ∃ erralgo, why = .noMatchingAlgo erralgo

theorem bufHasAlgo_sent (remote : AlgoTable) (algo rest : Bytes) :
    bufHasAlgo (sentAlgolist remote.algos ++ rest) algo = .ok (decide (algo ∈ remote.listed)) := by
  rw [bufHasAlgo, sentAlgolist, bufGetstring_sshString_short remote.short]
  simp only [ok_bind]
  rw [remote.getAlgolist]
  rfl

theorem eq_of_usable {algo algo' : AlgoType} (h : algo.usable = true) (h' : algo'.usable = true)
    (hname : algo.name = algo'.name) : algo = algo' := by
  cases algo
  cases algo'
  simp_all

theorem matchAlgo_usable {isServer kexguess2 : Bool} {localalgos : List AlgoType}
    {remotenames : List Bytes} {algo : AlgoType}
    (h : (matchAlgo isServer localalgos kexguess2 remotenames).1 = some algo) : algo.usable = true := by
  cases isServer with
  | true =>
    cases hplace : firstMatch (localnames localalgos) (remotenames.map some) with
    | none => simp [matchAlgo, hplace] at h
    | some place =>
      obtain ⟨name, -, hserv, -⟩ := firstMatch_some hplace
      obtain ⟨algo', halgo, husable, -⟩ := localnames_getElem? hserv
      simp [matchAlgo, hplace, halgo] at h
      exact h ▸ husable
  | false =>
    cases hplace : firstMatch (remotenames.map some) (localnames localalgos) with
    | none => simp [matchAlgo, hplace] at h
    | some place =>
      obtain ⟨name, hcli, -, -⟩ := firstMatch_some hplace
      obtain ⟨algo', halgo, husable, -⟩ := localnames_getElem? hcli
      simp [matchAlgo, hplace, halgo] at h
      exact h ▸ husable

/-- Both sides choose the same entry. -/
theorem matchAlgo_agree (client server : AlgoTable) (kexguess2 kexguess2' : Bool) :
    (matchAlgo false client.algos kexguess2 server.listed).1
      = (matchAlgo true server.algos kexguess2' client.listed).1 := by
  have hnames := (matchAlgo_client_listed client server kexguess2).trans
    (matchAlgo_server_listed client server kexguess2').symm
  cases hclient : (matchAlgo false client.algos kexguess2 server.listed).1 with
  | none =>
    rw [hclient] at hnames
    exact (Option.map_eq_none_iff.mp hnames.symm).symm
  | some algo =>
    rw [hclient] at hnames
    obtain ⟨algo', hserver, hname⟩ := Option.map_eq_some_iff.mp hnames.symm
    rw [hserver, eq_of_usable (matchAlgo_usable hclient) (matchAlgo_usable hserver) hname.symm]

theorem requireAlgo_coupled (erralgo : AlgoKind) (choice : Option AlgoType) :
    Coupled (requireAlgo erralgo choice) (requireAlgo erralgo choice) Eq KexinitExit.IsNoMatch := by
  cases choice with
  | none => exact .inr ⟨_, rfl, rfl, erralgo, rfl⟩
  | some algo => exact .ok rfl

theorem requireMac_coupled (erralgo : AlgoKind) (aead : Bool) (choice : Option AlgoType) :
    Coupled (requireMac erralgo aead choice) (requireMac erralgo aead choice) Eq
      KexinitExit.IsNoMatch := by
  cases choice with
  | some algo => exact .ok rfl
  | none =>
    cases aead with
    | true => exact .ok rfl
    | false => exact .inr ⟨_, rfl, rfl, erralgo, rfl⟩

theorem bufGetptr_cookie (cookie : Fin 16 → UInt8) (rest : Bytes) :
    bufGetptr 16 (List.ofFn cookie ++ rest) = .ok (List.ofFn cookie, rest) := by
  have hlen : (List.ofFn cookie).length = 16 := List.length_ofFn
  rw [bufGetptr, if_neg (by rw [List.length_append, hlen]; omega), List.take_left' hlen,
    List.drop_left' hlen]

theorem bufEatstring_nil (rest : Bytes) : bufEatstring (sshString [] ++ rest) = .ok ((), rest) := by
  rw [bufEatstring, bufGetint_sshString (by decide)]
  simp [bufGetptr]

/-- **Both sides read the same algorithms** out of what the other has written. -/
theorem readKexAlgos_agree (data : AlgoData) (client server : KexTables)
    (cookie cookie' : Fin 16 → UInt8) (firstFollows firstFollows' : Bool) :
    Coupled (readKexAlgos data false client (kexinitPayload server cookie firstFollows))
      (readKexAlgos data true server (kexinitPayload client cookie' firstFollows'))
      (fun atClient atServer => atClient.algos = atServer.algos ∧
        atClient.firstFollows = firstFollows ∧ atServer.firstFollows = firstFollows')
      KexinitExit.IsNoMatch := by
  simp only [readKexAlgos, kexinitPayload, bufGetptr_cookie, exitOfBuf, exitOfAlgo, ok_bind,
    bufHasAlgo_sent, bufMatchAlgo_sent, bufEatstring_nil]
  -- what each side requires is now the same choice, as the client's or as the server's match
  set guess := decide (kexguess2AlgoName ∈ client.sshkex.listed)
  simp only [matchAlgo_agree client.sshkex server.sshkex _ guess,
    matchAlgo_agree client.sigalgs server.sigalgs _ guess,
    matchAlgo_agree client.sshciphers server.sshciphers false false,
    matchAlgo_agree client.sshhashes server.sshhashes false false,
    matchAlgo_agree client.compressAlgosC2s server.compressAlgosC2s false false,
    matchAlgo_agree client.compressAlgosS2c server.compressAlgosS2c false false]
  refine (requireAlgo_coupled _ _).bind ?_
  intro kex _ hkex
  subst hkex
  refine (requireAlgo_coupled _ _).bind ?_
  intro hostkey _ hhostkey
  subst hhostkey
  refine (requireAlgo_coupled _ _).bind ?_
  intro cipherC2s _ hcipherC2s
  subst hcipherC2s
  refine (requireAlgo_coupled _ _).bind ?_
  intro cipherS2c _ hcipherS2c
  subst hcipherS2c
  refine (requireMac_coupled _ _ _).bind ?_
  intro macC2s _ hmacC2s
  subst hmacC2s
  refine (requireMac_coupled _ _ _).bind ?_
  intro macS2c _ hmacS2c
  subst hmacS2c
  refine (requireAlgo_coupled _ _).bind ?_
  intro compC2s _ hcompC2s
  subst hcompC2s
  refine (requireAlgo_coupled _ _).bind ?_
  intro compS2c _ hcompS2c
  subst hcompS2c
  left
  cases firstFollows with
  | true =>
    cases firstFollows' with
    | true => exact ⟨_, _, rfl, rfl, rfl, rfl, rfl⟩
    | false => exact ⟨_, _, rfl, rfl, rfl, rfl, rfl⟩
  | false =>
    cases firstFollows' with
    | true => exact ⟨_, _, rfl, rfl, rfl, rfl, rfl⟩
    | false => exact ⟨_, _, rfl, rfl, rfl, rfl, rfl⟩

/-- **Both sides end up with the same algorithms.** A client and a server whose lists fit send their
    KEXINIT. When each has read that of the other, they have chosen the same key exchange, host key,
    and for each direction the same cipher, MAC and compression, and each knows whether a guess
    follows. Or they both exit, for want of the same kind of algorithm. No list makes either of them
    exit for another reason. -/
theorem kexinit_agrees (data : AlgoData) {client server : KexTables} (hfits : client.Fits)
    (hfits' : server.Fits) (cookie cookie' : Fin 16 → UInt8) (firstFollows firstFollows' : Bool)
    {writepayload writepayload' : Buf} (hclear : writepayload.Shows [] 0 transMaxPayloadLen)
    (hclear' : writepayload'.Shows [] 0 transMaxPayloadLen) :
    ∃ sent sent',
      client.sendMsgKexinit cookie firstFollows writepayload = .ok sent ∧
      server.sendMsgKexinit cookie' firstFollows' writepayload' = .ok sent' ∧
      Coupled (readKexAlgos data false client sent'.contents.tail)
        (readKexAlgos data true server sent.contents.tail)
        (fun atClient atServer => atClient.algos = atServer.algos ∧
          atClient.firstFollows = firstFollows' ∧ atServer.firstFollows = firstFollows)
        KexinitExit.IsNoMatch := by
  obtain ⟨sent, hsent, hcontents⟩ := sendMsgKexinit_spec hfits cookie firstFollows hclear
  obtain ⟨sent', hsent', hcontents'⟩ := sendMsgKexinit_spec hfits' cookie' firstFollows' hclear'
  refine ⟨sent, sent', hsent, hsent', ?_⟩
  rw [hcontents, hcontents']
  exact readKexAlgos_agree data client server cookie' cookie firstFollows' firstFollows

/-- `dbclient` and a server whose only key is an ECDSA key. -/
theorem kexinit_agrees_ecdsa :
    ∃ (writepayload sent sent' : Buf) (atClient atServer : KexinitRead),
      (cliTables false true).sendMsgKexinit (fun _ => 0) false writepayload = .ok sent ∧
      (svrTables false ecdsaOnly true).sendMsgKexinit (fun _ => 0) false writepayload = .ok sent' ∧
      readKexAlgos algoData false (cliTables false true) sent'.contents.tail = .ok atClient ∧
      readKexAlgos algoData true (svrTables false ecdsaOnly true) sent.contents.tail = .ok atServer ∧
      atClient.algos = atServer.algos ∧
      atClient.algos.kex.name = ascii "sntrup761x25519-sha512" ∧
      atClient.algos.hostkey.name = ascii "ecdsa-sha2-nistp256" := by
  obtain ⟨writepayload, -, hclear⟩ := Buf.shows_new transMaxPayloadLen (by decide)
  have hfits := cliTables_fits false true
  have hfits' := svrTables_fits false ecdsaOnly true
  obtain ⟨sent, sent', hsent, hsent', hread⟩ := kexinit_agrees algoData hfits hfits' (fun _ => 0)
    (fun _ => 0) false false hclear hclear
  obtain ⟨_, hsame, hcontents⟩ := sendMsgKexinit_spec hfits' (fun _ => 0) false hclear
  cases hsent'.symm.trans hsame
  have hchosen : (readKexAlgos algoData false (cliTables false true) sent'.contents.tail).toOption.map
      (fun read => (read.algos.kex.name, read.algos.hostkey.name))
      = some (ascii "sntrup761x25519-sha512", ascii "ecdsa-sha2-nistp256") := by
    rw [hcontents]
    decide +kernel
  rcases hread with ⟨atClient, atServer, hclient, hserver, halgos, -, -⟩ | ⟨why, hclient, -, -⟩
  · rw [hclient] at hchosen
    obtain ⟨hkex, hhostkey⟩ := Prod.mk.inj (Option.some.inj hchosen)
    exact ⟨writepayload, sent, sent', atClient, atServer, hsent, hsent', hclient, hserver, halgos, hkex,
      hhostkey⟩
  · rw [hclient] at hchosen
    exact absurd hchosen (by simp [Except.toOption])

end Sshd4a
