import Sshd4a.Lib.Base64
import Sshd4a.Native.Payload

/-!
# Authentication state of a session (`auth.h`, `common-session.c`, `jni-dropbear.c`)

The state that `recv_msg_userauth_request` and everything below it share is the global
`ses.authstate`. Its string fields are pointers, so each is an `Option`: `none` is NULL, and
which of them can still be NULL at which point is one of the things proved about the model.

Two things are recorded that the C does not keep. `branch` remembers which of the three arms of
`fill_passwd` set `pw_dir` and `pw_shell`: the strings alone do not tell, because the home
directory and shell of the plain user come from the app's preferences and may be anything.
`log` is the sequence of observable acts of the session (packets sent, entries into the
password check), which is what statements about a whole run are about.

The build sets `DROPBEAR_SVR_PASSWORD_AUTH` to 0, so of the command-line options for password
logins `-s` and `-g` are accepted and ignored and `-B` and `-t` are refused. `SvrOpts` carries
that as a field: a value with one of the four flags set cannot be built.
-/

namespace Sshd4a

open Text

/-! ## Configuration -/

/-- The part of `svr_opts` that authentication reads, as `svr_getopts` of this build can
    leave it. -/
structure SvrOpts where
  noauthpass : Bool := false
  norootpass : Bool := false
  allowblankpass : Bool := false
  multiauthmethod : Bool := false
  maxauthtries : UInt32
  banner : Option Bytes
  passwordFlags : noauthpass = false ∧ norootpass = false ∧ allowblankpass = false ∧
    multiauthmethod = false := by decide

/-- What `start_sshd` was called with. -/
structure Config where
  enableSingleUsePasswords : Bool
  enablePublicKeyAuth : Bool
  libPath : Bytes
  sshd4aHomePath : Bytes
  sshd4aShellExe : Bytes
  svrOpts : SvrOpts

/-- A server with or without single-use passwords, everything else as the app starts it. -/
def appConfig (singleUse : Bool) : Config where
  enableSingleUsePasswords := singleUse
  enablePublicKeyAuth := true
  libPath := ['/', 'l', 'i', 'b'].map byte
  sshd4aHomePath := ['/', 'h', 'o', 'm', 'e'].map byte
  sshd4aShellExe := ['s', 'h'].map byte
  svrOpts := { maxauthtries := 10, banner := none }

/-- `MAX_AUTH_TRIES`. -/
def maxAuthTries : UInt32 := 10

/-- What `svr_getopts` starts with. -/
def SvrOpts.defaults : SvrOpts where
  maxauthtries := maxAuthTries
  banner := none

/-- SHA-512 as the code relies on it: a function with `hashsize` 64. -/
structure Sha512 where
  digest : Bytes → Bytes
  hashsize : ∀ b, (digest b).length = 64

/-- What `sshd4a_svr_auth_password` compares with the password field. -/
def Sha512.base64 (sha : Sha512) (password : Bytes) : Bytes := base64Encode (sha.digest password)

/-! ## The state -/

/-- The flags of `authtypes` a server session uses. -/
structure AuthTypes where
  pubkey : Bool
  password : Bool
deriving DecidableEq, Repr

/-- The arm of `fill_passwd` that was taken. -/
inductive Branch
  | user
  | root
  | shell
deriving DecidableEq, Repr

structure AuthState where
  username : Option Bytes := none
  authtypes : AuthTypes := ⟨false, false⟩
  failcount : UInt32 := 0
  authdone : Bool := false
  checkusernameFailed : Bool := false
  servPubkeyQueryCount : UInt32 := 0
  pwUid : Nat := 0
  pwGid : Nat := 0
  pwDir : Option Bytes := none
  pwShell : Option Bytes := none
  pwName : Option Bytes := none
  pwPasswd : Option Bytes := none
  branch : Option Branch := none

/-- What a session does that can be observed. -/
inductive Act
  | banner (text : Bytes)
  /-- `sshd4a_svr_auth_password` is entered with these pointers in `ses.authstate`. -/
  | authPassword (username pwPasswd : Option Bytes)
  | userauthFailure (methods : Bytes) (partialSuccess : Bool)
  | userauthPkOk
  | userauthSuccess
deriving DecidableEq, Repr

structure Session where
  authstate : AuthState
  banner : Option Bytes
  allowprivport : Bool := false
  log : List Act := []
  /-- How the process ended, once it has. -/
  ended : Option Stop := none

def Session.act (s : Session) (a : Act) : Session := { s with log := s.log ++ [a] }

def Session.stop (s : Session) (why : Stop) : Session := { s with ended := some why }

/-! ## Initialisation -/

/-- `config_file_exists`: the file is there and has at least that many bytes. -/
def configFileExists (file : Option Bytes) (minChars : Nat) : Bool :=
  match file with
  | none => false
  | some content => minChars ≤ content.length

def tab64 : Bytes :=
  ['a', 'b', 'c', 'd', 'e', 'f', 'g', 'h', 'i', 'j', 'k', '!', 'm', 'n', 'o', 'p',
   'q', 'r', 's', 't', 'u', 'v', 'w', 'x', 'y', 'z', 'A', 'B', 'C', 'D', 'E', 'F',
   'G', 'H', '@', 'J', 'K', 'L', 'M', 'N', '#', 'P', 'Q', 'R', 'S', 'T', 'U', 'V',
   'W', 'X', 'Y', 'Z', '$', '%', '2', '3', '4', '5', '6', '7', '8', '9', '^', '&'].map byte

/-- `sshd4a_generate_single_use_password`, from the eight bytes `genrandom` delivers. -/
def sshd4aGenerateSingleUsePassword (random : Vector UInt8 8) : Bytes :=
  random.toList.map fun b => tab64.getD (b &&& 63).toNat 0

/-- What a session starts from: the two files at that moment, and the random bytes. -/
structure SessionStart where
  authorizedUsers : Option Bytes
  authorizedKeys : Option Bytes
  random : Vector UInt8 8

/-- The string the single-use password of the session is. -/
def SessionStart.genPass (start : SessionStart) : Bytes :=
  sshd4aGenerateSingleUsePassword start.random

/-- `sshd4a_svr_authinitialise`. -/
def sshd4aSvrAuthinitialise (cfg : Config) (start : SessionStart) (auth : AuthState) : AuthState :=
  let pubkey := cfg.enablePublicKeyAuth && configFileExists start.authorizedKeys 10
  let auth := { auth with authtypes := { auth.authtypes with pubkey := pubkey } }
  let auth :=
    if configFileExists start.authorizedUsers 3 then
      { auth with authtypes := { auth.authtypes with password := true } }
    else auth
  if cfg.enableSingleUsePasswords then
    { auth with
      authtypes := { auth.authtypes with password := true }
      pwPasswd := some start.genPass }
  else auth

/-- `svr_authinitialise`: everything zero, `AUTH_TYPE_PUBKEY` set, then the extension. -/
def svrAuthinitialise (cfg : Config) (start : SessionStart) : AuthState :=
  sshd4aSvrAuthinitialise cfg start { authtypes := ⟨true, false⟩ }

/-- A session before its first request. -/
def Session.init (cfg : Config) (start : SessionStart) : Session :=
  { authstate := svrAuthinitialise cfg start, banner := cfg.svrOpts.banner }

/-! ## `fill_passwd` -/

/-- `SSHD4A_ROOT_HOME`. -/
def sshd4aRootHome : Bytes :=
  ['/', 'd', 'a', 't', 'a', '/', 'l', 'o', 'c', 'a', 'l', '/', 't', 'm', 'p', '/',
   'S', 's', 'h', 'd', '4', 'a', '/', 'r', 'o', 'o', 't', '/', 'h', 'o', 'm', 'e'].map byte

/-- `SSHD4A_SHELL_HOME`. -/
def sshd4aShellHome : Bytes :=
  ['/', 'd', 'a', 't', 'a', '/', 'l', 'o', 'c', 'a', 'l', '/', 't', 'm', 'p', '/',
   'S', 's', 'h', 'd', '4', 'a', '/', 's', 'h', 'e', 'l', 'l', '/', 'h', 'o', 'm', 'e'].map byte

/-- `SSHD4A_ROOT_SHELL_LIB`. -/
def sshd4aRootShellLib : Bytes :=
  ['l', 'i', 'b', 's', 'u', 'r', 'o', 'o', 't', '.', 's', 'o'].map byte

/-- `SSHD4A_SHELL_SHELL_LIB`. -/
def sshd4aShellShellLib : Bytes :=
  ['l', 'i', 'b', 's', 'u', 's', 'h', 'e', 'l', 'l', '.', 's', 'o'].map byte

/-- `sshd4a_lib_exe_path`: `"%s/%s"`. -/
def sshd4aLibExePath (cfg : Config) (name : Bytes) : Bytes := cfg.libPath ++ byte '/' :: name

/-- The two `strcmp` tests on the role. -/
def branchOf (role : Bytes) : Branch :=
  if role = sshd4aRoleRoot then .root
  else if role = sshd4aRoleShell then .shell
  else .user

/-- `pw_dir` in each arm. -/
def Branch.pwDir (cfg : Config) : Branch → Bytes
  | .root => sshd4aRootHome
  | .shell => sshd4aShellHome
  | .user => cfg.sshd4aHomePath

/-- `pw_shell` in each arm. -/
def Branch.pwShell (cfg : Config) : Branch → Bytes
  | .root => sshd4aLibExePath cfg sshd4aRootShellLib
  | .shell => sshd4aLibExePath cfg sshd4aShellShellLib
  | .user => cfg.sshd4aShellExe

/-- The `"!!"` that `fill_passwd` puts where no password is known. -/
def passwdPlaceholder : Bytes := ['!', '!'].map byte

def fillPasswd (cfg : Config) (users : Option Bytes) (username : Bytes) (auth : AuthState) :
    AuthState :=
  let branch := branchOf (sshd4aGetRoleForUser users username)
  { auth with
    pwUid := 0
    pwGid := 0
    pwName := some username
    pwDir := some (branch.pwDir cfg)
    pwShell := some (branch.pwShell cfg)
    pwPasswd := some (auth.pwPasswd.getD passwdPlaceholder)
    branch := some branch }

end Sshd4a
