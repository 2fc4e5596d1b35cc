import Sshd4a.Native.Runopts
import Sshd4a.Native.Session

/-!
# From the command line to `svr_opts`

`svr_getopts` leaves what authentication reads in `svr_opts`. Of that, this build takes two things
from the command line: the banner and the number of tries. The flags `-s` and `-g` have a case in
the `switch` without a statement, because `DROPBEAR_SVR_PASSWORD_AUTH` is 0, and so leave no trace.
-/

namespace Sshd4a

open Text Runopts

/-- What `svr_getopts` asks of its platform. -/
structure Platform extends Libc where
  /-- The content of a banner file. -/
  readfile : Arg → Option Bytes

/-- `svr_opts.maxauthtries`; the checks have refused what is not a number. -/
def Platform.maxauthtries (platform : Platform) (opts : RunOpts) : UInt32 :=
  match opts.arg .maxauthtries with
  | none => maxAuthTries
  | some a => (platform.mStrToUint a).getD maxAuthTries

/-- `svr_opts` behind `svr_getopts`, whatever flags there were. -/
def Platform.svrOpts (platform : Platform) (opts : RunOpts) : SvrOpts :=
  { SvrOpts.defaults with
    maxauthtries := platform.maxauthtries opts
    banner := (opts.arg .bannerfile).bind platform.readfile }

/-- A 64-bit platform on which nothing went wrong before. -/
def arm64 : Platform where
  getgrnam := fun _ => false
  ulongMax := 0xFFFFFFFFFFFFFFFF
  errno := fun _ => .other
  readfile := fun _ => none

end Sshd4a
