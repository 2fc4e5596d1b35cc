import Sshd4a.Lib.Machine
import Sshd4a.Native.Session

/-!
# Handling a userauth request (`svr-auth.c`, `svr-authpasswd.c`, `svr-authpubkey.c`)

One function per function of the C, state passed explicitly. A function that can end the
process does so by setting `ended`; the only calls after which the C continues are
`checkusername` and `sshd4a_svr_auth_password`, and those answer an `Except`.

The public-key method is modelled up to the verdict of the key checks: parsing the key,
searching `authorized_keys` and verifying a signature come to one of the outcomes of
`PubkeyCheck`, which the environment chooses freely. Everything the method does to the session
after that verdict is modelled.

The file may be rewritten at any time, so a request carries the content its own reads see.
-/

namespace Sshd4a

open Text

def maxUsernameLen : Nat := 100
def dropbearMaxPasswordLen : Nat := 100
def maxPubkeyQueries : Nat := 15

def sshServiceConnection : Bytes :=
  ['s', 's', 'h', '-', 'c', 'o', 'n', 'n', 'e', 'c', 't', 'i', 'o', 'n'].map byte
def authMethodNone : Bytes := ['n', 'o', 'n', 'e'].map byte
def authMethodPubkey : Bytes := ['p', 'u', 'b', 'l', 'i', 'c', 'k', 'e', 'y'].map byte
def authMethodPassword : Bytes := ['p', 'a', 's', 's', 'w', 'o', 'r', 'd'].map byte

/-! ## Replies -/

/-- The name-list of `SSH_MSG_USERAUTH_FAILURE`. -/
def AuthTypes.methods (types : AuthTypes) : Bytes :=
  (if types.pubkey then
    authMethodPubkey ++ (if types.password then [byte ','] else [])
   else []) ++
  (if types.password then authMethodPassword else [])

/-- `send_msg_userauth_failure`. The delay is left out. -/
def sendMsgUserauthFailure (opts : SvrOpts) (partialSuccess incrfail : Bool) (s : Session) :
    Session :=
  let s := s.act (.userauthFailure s.authstate.authtypes.methods partialSuccess)
  let s :=
    if incrfail then
      { s with authstate := { s.authstate with failcount := s.authstate.failcount + 1 } }
    else s
  if opts.maxauthtries < s.authstate.failcount then
    s.stop (.exit (.maxAuthTries
      (s.authstate.pwName.getD (['i', 's', ' ', 'i', 'n', 'v', 'a', 'l', 'i', 'd'].map byte))))
  else s

def sendMsgUserauthSuccess (s : Session) : Session :=
  let s := s.act .userauthSuccess
  { s with
    authstate := { s.authstate with authdone := true }
    allowprivport := s.allowprivport || s.authstate.pwUid == 0 }

/-! ## `checkusername` -/

/-- `checkusername`: whether the name is good, with the state it leaves. -/
def checkusername (cfg : Config) (users : Option Bytes) (username : Bytes) (auth : AuthState) :
    Except Stop (Bool × AuthState) :=
  if maxUsernameLen < username.length then .ok (false, auth)
  else if (cstr username).length ≠ username.length then .error (.exit .usernameNullByte)
  else
    let checked : Except Stop AuthState :=
      match auth.username with
      -- first request
      | none => .ok { fillPasswd cfg users username auth with username := some username }
      | some known =>
        if username ≠ known then .error (.exit .multipleUsernames) else .ok auth
    match checked with
    | .error stop => .error stop
    | .ok auth =>
      if auth.checkusernameFailed then .ok (false, auth)
      else if auth.pwName.isNone then .ok (false, { auth with checkusernameFailed := true })
      else .ok (true, auth)

/-! ## The password method -/

/-- `constant_time_memcmp` over two buffers of one length. -/
def constantTimeMemcmp (a b : Bytes) : UInt8 :=
  (a.zip b).foldl (fun c (x, y) => c ||| (x ^^^ y)) 0

def constantTimeStrcmp (a b : Bytes) : UInt8 :=
  if a.length ≠ b.length then 1 else constantTimeMemcmp a b

/-- `sshd4a_svr_auth_password`: `passwdcrypt`, `testcrypt` and the state it leaves. A line with
    a password field chooses the comparison of hashes **and** overwrites `pw_passwd`; without
    one the password is compared as it is with whatever `pw_passwd` holds. -/
def sshd4aSvrAuthPassword (sha : Sha512) (users : Option Bytes) (password : Bytes)
    (auth : AuthState) : Except Stop (Option Bytes × Option Bytes × AuthState) :=
  match sshd4aFindUser users auth.username with
  | .error stop => .error stop
  | .ok found =>
    let complete := password.length = (cstr password).length
    match found.bind UserLine.password with
    | some (c :: cs) =>
      .ok (some (c :: cs),
        if complete then some (sha.base64 password) else none,
        { auth with pwPasswd := some (c :: cs) })
    | _ => .ok (auth.pwPasswd, if complete then some (cstr password) else none, auth)

/-- The end of `svr_auth_password`: the checks on the two strings and the comparison. -/
def comparePassword (opts : SvrOpts) (passwdcrypt testcrypt : Option Bytes) (s : Session) :
    Session :=
  match testcrypt with
  | none => sendMsgUserauthFailure opts false true s
  | some test =>
    match passwdcrypt with
    -- `passwdcrypt[0]`
    | none => s.stop .segv
    | some [] => sendMsgUserauthFailure opts false true s
    | some crypt =>
      if constantTimeStrcmp test crypt = 0 then
        if opts.multiauthmethod && s.authstate.authtypes.pubkey then
          sendMsgUserauthFailure opts true false
            { s with authstate := { s.authstate with
                authtypes := { s.authstate.authtypes with password := false } } }
        else sendMsgUserauthSuccess s
      else sendMsgUserauthFailure opts false true s

/-- `svr_auth_password` once a password of acceptable length was read for a valid user. -/
def tryPassword (sha : Sha512) (opts : SvrOpts) (users : Option Bytes) (password : Bytes)
    (s : Session) : Session :=
  let s := s.act (.authPassword s.authstate.username s.authstate.pwPasswd)
  match sshd4aSvrAuthPassword sha users password s.authstate with
  | .error stop => s.stop stop
  | .ok (passwdcrypt, testcrypt, auth) =>
    comparePassword opts passwdcrypt testcrypt { s with authstate := auth }

/-- `svr_auth_password`, reading the rest of the payload. -/
def svrAuthPassword (sha : Sha512) (opts : SvrOpts) (users : Option Bytes) (validUser : Bool)
    (payload : Bytes) (s : Session) : Session :=
  match bufGetbool payload with
  | .error stop => s.stop stop
  | .ok (changepw, payload) =>
    if changepw then sendMsgUserauthFailure opts false true s
    else
      match bufGetstring payload with
      | .error stop => s.stop stop
      | .ok (password, _) =>
        if !validUser || dropbearMaxPasswordLen < password.length then
          sendMsgUserauthFailure opts false true s
        else tryPassword sha opts users password s

/-! ## The public-key method -/

/-- What the key checks of one `publickey` request come to. -/
inductive PubkeyCheck
  /-- A `buf_get*` call exits. -/
  | malformed (reason : ExitReason)
  | unknownAlgorithm
  /-- `checkpubkey` fails. -/
  | keyRefused
  /-- `checkpubkey` succeeds and the request was a query. -/
  | keyOk
  /-- `buf_get_pub_key` fails. -/
  | badKey
  | badSignature
  | verified
deriving DecidableEq, Repr

def svrAuthPubkey (opts : SvrOpts) (validUser : Bool) (check : PubkeyCheck) (s : Session) :
    Session :=
  match check with
  | .malformed reason => s.stop (.exit reason)
  | check =>
    if !validUser then sendMsgUserauthFailure opts false false s
    else
      match check with
      | .malformed _ | .unknownAlgorithm => sendMsgUserauthFailure opts false false s
      | .keyRefused =>
        -- `MAX(0, MAX_PUBKEY_QUERIES - (int)svr_opts.maxauthtries)`
        let freeQueryLimit := max 0 ((maxPubkeyQueries : Int) - opts.maxauthtries.toBitVec.toInt)
        let incrfail := freeQueryLimit ≤ s.authstate.servPubkeyQueryCount.toNat
        let s := sendMsgUserauthFailure opts false incrfail s
        if s.ended.isSome then s
        else
          { s with authstate := { s.authstate with
              servPubkeyQueryCount := s.authstate.servPubkeyQueryCount + 1 } }
      | .keyOk => s.act .userauthPkOk
      | .badKey | .badSignature => sendMsgUserauthFailure opts false true s
      | .verified =>
        if opts.multiauthmethod && s.authstate.authtypes.password then
          sendMsgUserauthFailure opts true false
            { s with authstate := { s.authstate with
                authtypes := { s.authstate.authtypes with pubkey := false } } }
        else sendMsgUserauthSuccess s

/-! ## `recv_msg_userauth_request` -/

/-- One request: its payload after the message number, the file as the reads made while it is
    handled see it, and the verdict on the key it may carry. -/
structure Request where
  payload : Bytes
  users : Option Bytes
  pubkey : PubkeyCheck

/-- The three strings every request starts with, and what follows them. -/
structure Header where
  username : Bytes
  servicename : Bytes
  methodname : Bytes
  rest : Bytes

def readHeader (payload : Bytes) : Except Stop Header :=
  match bufGetstring payload with
  | .error stop => .error stop
  | .ok (username, payload) =>
    match bufGetstring payload with
    | .error stop => .error stop
    | .ok (servicename, payload) =>
      match bufGetstring payload with
      | .error stop => .error stop
      | .ok (methodname, payload) => .ok ⟨username, servicename, methodname, payload⟩

/-- The banner is sent with the first request and then forgotten. -/
def sendBanner (s : Session) : Session :=
  match s.banner with
  | none => s
  | some text => { s.act (.banner text) with banner := none }

/-- The choice of method, after `checkusername`. The first of the two password blocks of the
    source is compiled out of this build. -/
def dispatchMethod (sha : Sha512) (cfg : Config) (req : Request) (header : Header)
    (validUser : Bool) (s : Session) : Session :=
  let opts := cfg.svrOpts
  if header.methodname = authMethodNone then
    if validUser && opts.allowblankpass && !opts.noauthpass
        && !(opts.norootpass && s.authstate.pwUid == 0) then
      match s.authstate.pwPasswd with
      -- `pw_passwd[0]`
      | none => s.stop .segv
      | some [] => sendMsgUserauthSuccess s
      | some _ => sendMsgUserauthFailure opts false false s
    else sendMsgUserauthFailure opts false false s
  else if s.authstate.authtypes.pubkey && header.methodname = authMethodPubkey then
    svrAuthPubkey opts validUser req.pubkey s
  else if s.authstate.authtypes.password && header.methodname = authMethodPassword then
    -- the username is considered valid, regardless of what it was
    svrAuthPassword sha opts req.users true header.rest s
  else sendMsgUserauthFailure opts false true s

def recvMsgUserauthRequest (sha : Sha512) (cfg : Config) (req : Request) (s : Session) : Session :=
  if s.authstate.authdone then s
  else
    let s := sendBanner s
    match readHeader req.payload with
    | .error stop => s.stop stop
    | .ok header =>
      if header.servicename ≠ sshServiceConnection then s.stop (.exit .unknownService)
      else
        match checkusername cfg req.users header.username s.authstate with
        | .error stop => s.stop stop
        | .ok (validUser, auth) =>
          dispatchMethod sha cfg req header validUser { s with authstate := auth }

/-- A live session handles the next request; one that has ended handles none. -/
def step (sha : Sha512) (cfg : Config) (s : Session) (req : Request) : Option Session :=
  if s.ended.isSome then none else some (recvMsgUserauthRequest sha cfg req s)

/-- The payload of a password request. -/
def passwordPayload (username password : Bytes) : Bytes :=
  sshString username ++ (sshString sshServiceConnection ++
    (sshString authMethodPassword ++ (0 :: sshString password)))

end Sshd4a
