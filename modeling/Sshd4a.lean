import Sshd4a.Lib.Split
import Sshd4a.Lib.LinkedMap
import Sshd4a.Lib.Base64
import Sshd4a.Lib.Machine
import Sshd4a.Native.Users
import Sshd4a.Native.Payload
import Sshd4a.Native.Session
import Sshd4a.Native.Userauth
import Sshd4a.Auth.Request
import Sshd4a.Auth.Password
import Sshd4a.Auth.Soundness
import Sshd4a.Auth.Privilege
import Sshd4a.App.SshdSettings
import Sshd4a.App.Format
import Sshd4a.Auth.Edits
import Sshd4a.App.Login
import Sshd4a.App.Agreement
import Sshd4a.App.Disk
import Sshd4a.App.Service
import Sshd4a.App.Import
import Sshd4a.App.Table
import Sshd4a.Native.SuShell
import Sshd4a.App.Options
import Sshd4a.App.Logger
import Sshd4a.App.Pkg
import Sshd4a.App.Settings
import Sshd4a.App.Throttle
import Sshd4a.App.OptionWords
import Sshd4a.App.PidFile
import Sshd4a.Native.Env
import Sshd4a.Native.Tools
import Sshd4a.Auth.Guessing
import Sshd4a.Auth.NoPassword
import Sshd4a.App.Lockout
import Sshd4a.App.PkgRepo
import Sshd4a.App.PkgInstall
import Sshd4a.Lib.StableSort
import Sshd4a.Prefs.SortSettings
import Sshd4a.Lib.Objects
import Sshd4a.Prefs.Adapter
import Sshd4a.App.OptionMatcher
import Sshd4a.Prefs.Values
import Sshd4a.Lib.Regex
import Sshd4a.Lib.Buffer
import Sshd4a.Native.Buffers
import Sshd4a.Native.ChannelPeer
import Sshd4a.Native.TransportGate
import Sshd4a.Native.KexOrder
import Sshd4a.Native.Algo
import Sshd4a.Native.Kexinit
