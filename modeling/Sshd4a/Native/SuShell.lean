import Mathlib.Data.List.TakeDrop
import Sshd4a.Native.Payload
import Sshd4a.Native.Session

/-!
# A command on its way to `su`

An `exec` request of a root or shell session crosses two programs. In the server,
`sessioncommand` takes the command from the packet, `run_shell_command` rewrites the names of
the bundled tools and hands the result to the login shell as the argument of `-c`; the login
shell is `su-login-shell.c`, compiled once per role, and it puts a `cd` in front and hands the
whole line to `su UID sh -c`.

Each stage has a limit of its own. The packet reader ends the session over `MAX_STRING_LEN`,
`sessioncommand` refuses over `MAX_CMD_LEN`, `sshd4a_exe_to_lib` can make a command longer, and
`su-login-shell.c` formats into 4096 bytes. `execRequest_iff` is what follows for the whole way:
the line arrives as it should exactly when it fits the last of these, and there is nothing on
the way that would refuse one that does not.
-/

namespace Sshd4a

open Text

/-- The bytes of an ASCII literal. -/
def ascii (s : String) : Bytes := s.toList.map byte

/-! ## The server -/

def maxCmdLen : Nat := 9000

/-- `sshd4a_exe_to_lib`. -/
def sshd4aExeToLib (libPath cmd : Bytes) : Bytes :=
  if ascii "scp " <+: cmd then libPath ++ ascii "/libscp.so " ++ cmd.drop 4
  else if ascii "rsync " <+: cmd then libPath ++ ascii "/librsync.so " ++ cmd.drop 6
  else if ascii "sftp-server" <+: cmd then libPath ++ ascii "/libsftp-server.so"
  else if ascii "busybox " <+: cmd then libPath ++ ascii "/libbusybox.so " ++ cmd.drop 8
  else if cmd = ascii "busybox" then libPath ++ ascii "/libbusybox.so"
  else cmd

/-- `expand_homedir_path_home`. -/
def expandHomedirPath (homedir : Option Bytes) (inpath : Bytes) : Bytes :=
  match homedir with
  | some homedir =>
    if ascii "~/" <+: inpath then homedir ++ byte '/' :: inpath.drop 2 else inpath
  | none => inpath

/-- What a session channel keeps of its command; `pid` is not zero once one runs. -/
structure ChanSess where
  pid : Nat := 0
  cmd : Option Bytes := none
  originalCommand : Option Bytes := none
deriving DecidableEq, Repr

/-- Where a command can come from beside the request: `-c` of the server, `command=` of the key
    the client used, and the home directory a path can be relative to. -/
structure CommandOpts where
  forcedCommand : Option Bytes := none
  pubkeyForcedCommand : Option Bytes := none
  homedir : Option Bytes := none

/-- The command of a request, as far as it is read from the packet; `none` is
    `DROPBEAR_FAILURE`. -/
def readCommand (cfg : Config) (opts : CommandOpts) (issubsys : Bool) (payload : Bytes)
    (chansess : ChanSess) : Except Stop (Option ChanSess) :=
  match chansess.cmd with
  | some _ =>
    -- `cmdlen` is 0 here, so a subsystem is never "sftp"
    .ok (if issubsys then none else some chansess)
  | none =>
    match bufGetstring payload with
    | .error stop => .error stop
    | .ok (cmd, _) =>
      if maxCmdLen < cmd.length then .ok none
      else if issubsys then
        if cmd = ascii "sftp" then
          let path := sshd4aExeToLib cfg.libPath (ascii "sftp-server")
          .ok (some { chansess with cmd := some (expandHomedirPath opts.homedir path) })
        else .ok none
      else .ok (some { chansess with cmd := some (cstr cmd) })

/-- A forced command in the place of the requested one. -/
def forceCommand (opts : CommandOpts) (chansess : ChanSess) : ChanSess :=
  match opts.forcedCommand.or opts.pubkeyForcedCommand with
  | some forced =>
    { chansess with cmd := some (cstr forced), originalCommand := some (chansess.cmd.getD []) }
  | none => chansess

/-- `sessioncommand` up to the fork; `none` is `DROPBEAR_FAILURE`. -/
def sessioncommand (cfg : Config) (opts : CommandOpts) (iscmd issubsys : Bool) (payload : Bytes)
    (chansess : ChanSess) : Except Stop (Option ChanSess) :=
  if chansess.pid ≠ 0 then .ok none
  else if iscmd then
    match readCommand cfg opts issubsys payload chansess with
    | .error stop => .error stop
    | .ok none => .ok none
    | .ok (some chansess) => .ok (some (forceCommand opts chansess))
  else .ok (some (forceCommand opts chansess))

/-- The argument vector of `execv(usershell, argv)`; `none` when shell access is disabled. -/
def runShellCommand (cfg : Config) (enableServiceShellAccess : Bool) (cmd : Option Bytes)
    (usershell : Bytes) : Option (List Bytes) :=
  let baseshell := usershell.rtakeWhile (fun b => b != byte '/')
  match cmd with
  | some cmd => some [baseshell, ascii "-c", sshd4aExeToLib cfg.libPath cmd]
  | none => if enableServiceShellAccess then some [byte '-' :: baseshell] else none

/-! ## `su-login-shell.c` -/

/-- The two roles whose login shell is this program. -/
inductive SuRole
  | root
  | shell
deriving DecidableEq, Repr

def SuRole.branch : SuRole → Branch
  | .root => .root
  | .shell => .shell

/-- `SSHD4A_TARGET_UID_STR`. -/
def SuRole.targetUid : SuRole → Bytes
  | .root => ascii "0"
  | .shell => ascii "2000"

/-- `SSHD4A_HOME_DIR`. -/
def SuRole.homeDir : SuRole → Bytes
  | .root => ascii "/data/local/tmp/Sshd4a/root/home"
  | .shell => ascii "/data/local/tmp/Sshd4a/shell/home"

/-- What is put in front of a command. -/
def SuRole.cd (role : SuRole) : Bytes := ascii "cd '" ++ role.homeDir ++ ascii "' 2>/dev/null; "

/-- `snprintf(buf, size, ..)`: what is in the buffer afterwards, as a C string. -/
def snprintf (size : Nat) (text : Bytes) : Bytes := text.take (size - 1)

/-- `sizeof(full_cmd)`. -/
def fullCmdSize : Nat := 4096

/-- `main`: the arguments of the `execlp` of `su`. -/
def suLoginShell (role : SuRole) (argv : List Bytes) : List Bytes :=
  match argv with
  | _ :: flag :: rest =>
    if flag = ascii "-c" then
      [ascii "su", role.targetUid, ascii "sh", ascii "-c",
        snprintf fullCmdSize (role.cd ++ rest.headD [])]
    else [ascii "su", role.targetUid, ascii "sh"]
  | _ => [ascii "su", role.targetUid, ascii "sh"]

/-! ## The whole way -/

/-- An `exec` request in a session of a role: what `su` is called with, if it is. -/
def execRequest (cfg : Config) (opts : CommandOpts) (enableServiceShellAccess : Bool)
    (role : SuRole) (payload : Bytes) (chansess : ChanSess) : Except Stop (Option (List Bytes)) :=
  match sessioncommand cfg opts true false payload chansess with
  | .error stop => .error stop
  | .ok none => .ok none
  | .ok (some chansess) =>
    .ok ((runShellCommand cfg enableServiceShellAccess chansess.cmd (role.branch.pwShell cfg)).map
      (suLoginShell role))

/-- The command a session runs: a forced one, or the one that was asked for. -/
def CommandOpts.inForce (opts : CommandOpts) (cmd : Bytes) : Bytes :=
  match opts.forcedCommand.or opts.pubkeyForcedCommand with
  | some forced => cstr forced
  | none => cmd

/-- The call of `su` a command is meant to lead to. -/
def suCall (role : SuRole) (line : Bytes) : List Bytes :=
  [ascii "su", role.targetUid, ascii "sh", ascii "-c", line]

/-- A command that is not too long gets through the server as it is. -/
theorem sessioncommand_exec (cfg : Config) (opts : CommandOpts) {cmd : Bytes}
    (hnul : 0 ∉ cmd) (hlen : cmd.length ≤ maxCmdLen) (rest : Bytes) :
    ∃ chansess, sessioncommand cfg opts true false (sshString cmd ++ rest) {} = .ok (some chansess) ∧
      chansess.cmd = some (opts.inForce cmd) := by
  have hread := bufGetstring_sshString_short (show cmd.length ≤ maxStringLen from hlen) rest
  have hnot : ¬ maxCmdLen < cmd.length := Nat.not_lt.mpr hlen
  have hcmd : cstr cmd = cmd := cstr_eq_self.mpr hnul
  unfold sessioncommand readCommand forceCommand CommandOpts.inForce
  simp only [ne_eq, not_true_eq_false, if_false, if_true, hread, hnot, hcmd, Bool.false_eq_true]
  cases opts.forcedCommand.or opts.pubkeyForcedCommand with
  | some forced => exact ⟨_, rfl, rfl⟩
  | none => exact ⟨_, rfl, rfl⟩

/-- What `su` is called with, for every command the server accepts. -/
theorem execRequest_eq (cfg : Config) (opts : CommandOpts) (access : Bool) (role : SuRole)
    {cmd : Bytes} (hnul : 0 ∉ cmd) (hlen : cmd.length ≤ maxCmdLen) (rest : Bytes) :
    execRequest cfg opts access role (sshString cmd ++ rest) {} = .ok (some (suCall role
      (snprintf fullCmdSize
        (role.cd ++ sshd4aExeToLib cfg.libPath (opts.inForce cmd))))) := by
  obtain ⟨chansess, hsession, hcmd⟩ := sessioncommand_exec cfg opts hnul hlen rest
  unfold execRequest
  rw [hsession]
  simp only [hcmd, runShellCommand, Option.map_some]
  rfl

theorem snprintf_eq_self_iff {size : Nat} (hsize : 0 < size) (text : Bytes) :
    snprintf size text = text ↔ text.length < size := by
  unfold snprintf
  rw [List.take_eq_self_iff]
  omega

/-- **A privileged command arrives unaltered exactly when** the line with the `cd` in front is
    shorter than the buffer of `su-login-shell.c`. -/
theorem execRequest_iff (cfg : Config) (opts : CommandOpts) (access : Bool) (role : SuRole)
    (cmd : Bytes) (hnul : 0 ∉ cmd) (hlen : cmd.length ≤ maxCmdLen) (rest : Bytes) :
    execRequest cfg opts access role (sshString cmd ++ rest) {} =
        .ok (some (suCall role (role.cd ++ sshd4aExeToLib cfg.libPath (opts.inForce cmd)))) ↔
      role.cd.length + (sshd4aExeToLib cfg.libPath (opts.inForce cmd)).length < fullCmdSize := by
  rw [execRequest_eq cfg opts access role hnul hlen rest]
  simp only [Except.ok.injEq, Option.some.injEq, suCall, List.cons.injEq, and_true, true_and]
  rw [snprintf_eq_self_iff (by decide), List.length_append]

theorem execRequest_iff_scp :
    execRequest (appConfig false) {} true .root (sshString (ascii "scp -t f") ++ []) {} =
      .ok (some (suCall .root
        (SuRole.cd .root ++ sshd4aExeToLib (appConfig false).libPath (ascii "scp -t f")))) :=
  (execRequest_iff (appConfig false) {} true .root (ascii "scp -t f") (by decide) (by decide)
    []).mpr (by decide)

/-- A command of 4096 bytes, less than half of what the server accepts. -/
def longCommand : Bytes := List.replicate 4096 (byte 'a')

theorem sshd4aExeToLib_longCommand (libPath : Bytes) :
    sshd4aExeToLib libPath longCommand = longCommand := by
  have hcons : longCommand = byte 'a' :: List.replicate 4095 (byte 'a') := rfl
  have hbusybox : longCommand ≠ ascii "busybox" := by
    intro h
    have := congrArg List.head? h
    rw [hcons] at this
    exact absurd this (by decide)
  have hfirst : ∀ p : Bytes, p ≠ [] ∧ p.head? ≠ some (byte 'a') → ¬ p <+: longCommand := by
    intro p hp h
    cases p with
    | nil => exact hp.1 rfl
    | cons b bs =>
      rw [hcons, List.cons_prefix_cons] at h
      exact hp.2 (congrArg some h.1)
  unfold sshd4aExeToLib
  rw [if_neg (hfirst _ (by decide)), if_neg (hfirst _ (by decide)),
    if_neg (hfirst _ (by decide)), if_neg (hfirst _ (by decide)), if_neg hbusybox]

/-- The server accepts it, and `sh` gets a shorter one. -/
theorem execRequest_longCommand :
    ∃ line, execRequest (appConfig false) {} true .root (sshString longCommand ++ []) {} =
        .ok (some (suCall .root line)) ∧
      line.length = 4095 ∧
      line ≠ SuRole.cd .root ++ sshd4aExeToLib (appConfig false).libPath longCommand := by
  have hnul : 0 ∉ longCommand := by
    intro h
    exact absurd (List.eq_of_mem_replicate h) (by decide)
  have hlen : longCommand.length = 4096 := List.length_replicate
  have hmax : longCommand.length ≤ maxCmdLen := by
    rw [hlen]
    decide
  refine ⟨_, execRequest_eq (appConfig false) {} true .root hnul hmax [], ?_, ?_⟩
  · show (snprintf fullCmdSize (SuRole.cd .root ++ sshd4aExeToLib _ longCommand)).length = _
    rw [sshd4aExeToLib_longCommand, snprintf, List.length_take, List.length_append, hlen]
    decide
  · show snprintf fullCmdSize (SuRole.cd .root ++ sshd4aExeToLib _ longCommand) ≠ _
    rw [ne_eq, snprintf_eq_self_iff (by decide), sshd4aExeToLib_longCommand, List.length_append,
      hlen]
    decide

end Sshd4a
