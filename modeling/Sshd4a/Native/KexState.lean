import Sshd4a.Lib.Fallible
import Sshd4a.Lib.Machine
import Sshd4a.Native.TransportGate

/-!
# The key exchange of the server (`process-packet.c`, `common-kex.c`, `svr-kex.c`)

`process_packet` looks at the type of a packet, at what is required next and at whether the next
packet is to be ignored, and calls a handler. The handlers of the exchange change these again. The
peer is free to send anything in any order, and between packets the server may start an exchange
of its own.

Of the data, this has what the order depends on. What `read_kex_algos` finds in the lists of the
peer and whether the value of KEXDH_INIT is good are the packet's; pointers that are `NULL` at times
are kept as such, and following one is `nullPointer`. The handlers of the other packets only tell
whether they exit and, for a request to authenticate, whether it succeeds.
-/

namespace Sshd4a.Kex

open Fallible

def sshMsgDisconnect : UInt8 := 1

def sshMsgIgnore : UInt8 := 2

def sshMsgUnimplemented : UInt8 := 3

def sshMsgDebug : UInt8 := 4

def sshMsgExtInfo : UInt8 := 7

def sshMsgKexdhInit : UInt8 := 30

def sshMsgKexdhReply : UInt8 := 31

/-- `SSH_MSG_USERAUTH_PK_OK` -/
def maxUnauthPacketType : UInt8 := 60

inductive KexExit
  | disconnectReceived
  | unexpectedPacketType (type expected : UInt8)
  | receivedBeforeUserauth (type : UInt8)
  | unexpectedKexinit
  | firstPacketWasntKexinit
  | noMatchingAlgo
  | prematureKexdhInit
  | badKexValue
  | unexpectedNewkeys
  | handlerExit
  | nullPointer
deriving DecidableEq, Repr

/-- `ses.newkeys`: whether `algo_kex` is set, and the two `valid`. -/
structure Newkeys where
  algoKex : Bool := false
  transValid : Bool := false
  recvValid : Bool := false
deriving DecidableEq, Repr

/-- What `ses` has of the exchange, with a record of the types that were received, those whose
    handler was called, and those the exchange has sent. -/
structure Ses where
  sentkexinit : Bool := false
  recvkexinit : Bool := false
  themFirstfollows : Bool := false
  sentnewkeys : Bool := false
  recvnewkeys : Bool := false
  donefirstkex : Bool := false
  donesecondkex : Bool := false
  recvfirstnewkeys : Bool := false
  strictKex : Bool := false
  allowExtInfo : Bool := false
  newkeys : Option Newkeys := none
  /-- Whether these are not `NULL`. -/
  transkexinit : Bool := false
  kexhashbuf : Bool := false
  hash : Bool := false
  requirenext : UInt8 := sshMsgKexinit
  ignorenext : Bool := false
  dataallowed : Bool := true
  authdone : Bool := false
  recvseq : Nat := 0
  /-- How often new keys were taken into use. -/
  recvEpoch : Nat := 0
  transEpoch : Nat := 0
  stopped : Option KexExit := none
  received : List UInt8 := []
  handled : List UInt8 := []
  sent : List UInt8 := []
  deferred : List UInt8 := []
deriving Repr

/-- `encrypt_packet`, as far as a message is sent or deferred. -/
def Ses.send (ses : Ses) (type : UInt8) : Ses :=
  if !ses.dataallowed && !packetIsOkayKex type then { ses with deferred := ses.deferred ++ [type] }
  else { ses with sent := ses.sent ++ [type] }

/-! ## `common-kex.c` -/

def sendMsgKexinit (ses : Ses) : Ses :=
  { ses.send sshMsgKexinit with
    transkexinit := true
    dataallowed := false
    sentkexinit := true
    newkeys := some {} }

def kexinitialise (ses : Ses) : Ses :=
  { ses with
    sentkexinit := false
    recvkexinit := false
    recvnewkeys := false
    sentnewkeys := false
    themFirstfollows := false }

def switchKeys (ses : Ses) : Except KexExit Ses :=
  if !(ses.sentkexinit && ses.recvkexinit) then .error .unexpectedNewkeys
  else match ses.newkeys with
    | none => if ses.recvnewkeys || ses.sentnewkeys then .error .nullPointer else .ok ses
    | some newkeys =>
      let recv := ses.recvnewkeys && newkeys.recvValid
      let trans := ses.sentnewkeys && newkeys.transValid
      let switched : Ses := { ses with
        recvEpoch := if recv then ses.recvEpoch + 1 else ses.recvEpoch
        transEpoch := if trans then ses.transEpoch + 1 else ses.transEpoch
        newkeys := some { newkeys with
          recvValid := if recv then false else newkeys.recvValid
          transValid := if trans then false else newkeys.transValid } }
      if ses.sentnewkeys && ses.recvnewkeys then .ok (kexinitialise { switched with newkeys := none })
      else .ok switched

/-- The keys come from `ses.hash`; both directions are then ready to switch. -/
def genNewKeys (ses : Ses) : Except KexExit Ses :=
  match ses.newkeys with
  | none => .error .nullPointer
  | some newkeys =>
    if newkeys.algoKex && ses.hash then
      .ok { ses with
        hash := false
        newkeys := some { newkeys with transValid := true, recvValid := true } }
    else .error .nullPointer

def sendMsgNewkeys (ses : Ses) : Except KexExit Ses := do
  let ses := ses.send sshMsgNewkeys
  let ses ← genNewKeys { ses with
    sentnewkeys := true
    donesecondkex := ses.donesecondkex || ses.donefirstkex
    donefirstkex := true
    dataallowed := true }
  switchKeys ses

def recvMsgNewkeys (ses : Ses) : Except KexExit Ses := do
  let ses ← switchKeys { ses with recvnewkeys := true }
  return { ses with
    recvseq := if ses.strictKex then 0 else ses.recvseq
    recvfirstnewkeys := true }

/-- What `read_kex_algos` finds: whether every list has a match, whether the peer offers strict
    exchanges and `ext-info-c`, and its guess. -/
structure KexAlgos where
  isMatch : Bool := true
  strict : Bool := false
  extInfo : Bool := false
  firstKexPacketFollows : Bool := false
  allgood : Bool := true
deriving DecidableEq, Repr

def readKexAlgos (algos : KexAlgos) (ses : Ses) : Except KexExit Ses :=
  if ses.newkeys.isNone then .error .nullPointer
  else if !algos.isMatch then .error .noMatchingAlgo
  else .ok { ses with
    newkeys := some { algoKex := true }
    allowExtInfo := ses.allowExtInfo || (!ses.donefirstkex && algos.extInfo)
    strictKex := ses.strictKex || (!ses.donefirstkex && algos.strict)
    themFirstfollows := ses.themFirstfollows || algos.firstKexPacketFollows
    ignorenext := ses.ignorenext || (algos.firstKexPacketFollows && !algos.allgood) }

/-- `recv_msg_kexinit` from the check for a second KEXINIT on. -/
def startExchange (algos : KexAlgos) (ses : Ses) : Except KexExit Ses :=
  if ses.recvkexinit then .error .unexpectedKexinit
  else if !ses.transkexinit then .error .nullPointer
  else do
    let ses ← readKexAlgos algos { ses with kexhashbuf := true }
    if ses.strictKex && !ses.donefirstkex && ses.recvseq != 1 then .error .firstPacketWasntKexinit
    else .ok { ses with
      requirenext := sshMsgKexdhInit
      transkexinit := false
      recvkexinit := true }

def recvMsgKexinit (algos : KexAlgos) (ses : Ses) : Except KexExit Ses :=
  startExchange algos (if ses.sentkexinit then ses else sendMsgKexinit ses)

/-! ## `svr-kex.c` -/

/-- `finish_kexhashbuf`, at the end of every way to combine the keys. -/
def finishKexhashbuf (ses : Ses) : Except KexExit Ses :=
  if ses.kexhashbuf then .ok { ses with kexhashbuf := false, hash := true } else .error .nullPointer

/-- The end of `recv_msg_kexdh_init`: `disable_sig_except(ses.newkeys->algo_signature)`. -/
def afterNewkeys (ses : Ses) : Except KexExit Ses :=
  let ses := if !ses.donesecondkex && ses.allowExtInfo then ses.send sshMsgExtInfo else ses
  if !ses.donesecondkex && ses.newkeys.isNone then .error .nullPointer
  else .ok { ses with requirenext := sshMsgNewkeys }

def recvMsgKexdhInit (valueOk : Bool) (ses : Ses) : Except KexExit Ses :=
  if !ses.recvkexinit then .error .prematureKexdhInit
  else if !ses.newkeys.any (·.algoKex) then .error .nullPointer
  else if !valueOk then .error .badKexValue
  else do
    let ses ← finishKexhashbuf ses
    let ses ← sendMsgNewkeys (ses.send sshMsgKexdhReply)
    afterNewkeys ses

/-! ## `process-packet.c` -/

/-- `svr_packettypes` -/
def svrPackettypes : List UInt8 :=
  [94, 93, 50, 5, 20, 30, 21, 80, 98, 90, 96, 97, 99, 100, 82, 81, 91, 92]

structure Incoming where
  type : UInt8
  algos : KexAlgos := {}
  valueOk : Bool := true
  /-- What the handler of another packet does. -/
  exits : Bool := false
  authenticates : Bool := false
deriving DecidableEq, Repr

inductive Verdict
  | out
  | unimplemented
  | handler
deriving DecidableEq, Repr

/-- `process_packet` up to the search for the handler. -/
def checkPacket (ses : Ses) (type : UInt8) : Except KexExit (Verdict × Ses) :=
  let firstStrictKex := ses.strictKex && !ses.recvfirstnewkeys
  if type = sshMsgDisconnect then .error .disconnectReceived
  else if !firstStrictKex
      && (type = sshMsgIgnore || type = sshMsgDebug || type = sshMsgUnimplemented) then
    .ok (.out, ses)
  else if ses.requirenext ≠ 0 && ses.requirenext ≠ type then
    if 1 ≤ type && type ≤ 49 && type ≠ sshMsgServiceRequest && type ≠ sshMsgServiceAccept
        && type ≠ sshMsgKexinit && !firstStrictKex then
      .ok (.unimplemented, ses)
    else .error (.unexpectedPacketType type ses.requirenext)
  else if ses.ignorenext then .ok (.out, { ses with ignorenext := false })
  else
    let ses := { ses with
      requirenext := if ses.requirenext ≠ 0 && ses.requirenext = type then 0 else ses.requirenext }
    if !ses.authdone && maxUnauthPacketType < type then .error (.receivedBeforeUserauth type)
    else .ok (if type ∈ svrPackettypes then .handler else .unimplemented, ses)

def handler (packet : Incoming) (ses : Ses) : Except KexExit Ses :=
  if packet.type = sshMsgKexinit then recvMsgKexinit packet.algos ses
  else if packet.type = sshMsgKexdhInit then recvMsgKexdhInit packet.valueOk ses
  else if packet.type = sshMsgNewkeys then recvMsgNewkeys ses
  else if packet.exits then .error .handlerExit
  else .ok { ses with
    authdone := ses.authdone || (packet.type = sshMsgUserauthRequest && packet.authenticates) }

/-- What a handler leaves, or the session it has ended. -/
def Ses.after (ses : Ses) : Except KexExit Ses → Ses
  | .error why => { ses with stopped := some why }
  | .ok ses => ses

def processPacket (packet : Incoming) (ses : Ses) : Ses :=
  match checkPacket ses packet.type with
  | .error why => { ses with stopped := some why }
  | .ok (.out, ses) => ses
  | .ok (.unimplemented, ses) => ses.send sshMsgUnimplemented
  | .ok (.handler, ses) =>
    let called := { ses with handled := ses.handled ++ [packet.type] }
    called.after (handler packet called)

/-- `decrypt_packet` counts a packet before it is processed. -/
def Ses.count (ses : Ses) (type : UInt8) : Ses :=
  { ses with recvseq := (ses.recvseq + 1) % 0x100000000, received := ses.received ++ [type] }

inductive KexEvent
  | packet (packet : Incoming)
  /-- `checktimeouts` -/
  | rekey
deriving DecidableEq, Repr

def step (ses : Ses) : KexEvent → Option Ses
  | .packet packet =>
    if ses.stopped.isNone then some (processPacket packet (ses.count packet.type)) else none
  | .rekey => if ses.stopped.isNone && !ses.sentkexinit then some (sendMsgKexinit ses) else none

/-- `svr_session` before its loop. -/
def start : Ses := sendMsgKexinit {}

end Sshd4a.Kex
