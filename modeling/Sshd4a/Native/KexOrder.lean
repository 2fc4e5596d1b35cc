import Mathlib.Data.List.Count
import Sshd4a.Native.KexState

/-!
# The order of a key exchange

Against any peer, the server is in one of four phases, and what it requires next, which flags are
set and which pointers are there follow from the phase (`Inv`). `processPacket_next` says what one
packet can do; every result is derived from it.

- `kex_never_faults`: no pointer is followed while it is `NULL`.
- `kex_handlers`: which handlers are called in which order.
- `kex_switches`: keys are changed with every NEWKEYS and only then.
- `strict_kex_opening`: what a strict exchange lets through before the first NEWKEYS.
-/

namespace Sshd4a.Kex

open Text Fallible

/-! ## Phases -/

inductive Phase
  | start
  | offered
  | answered
  | ready
deriving DecidableEq, Repr

/-- The phase after a handler was called; `none` if it must not be called there. -/
def phaseStep : Phase → UInt8 → Option Phase
  | .start, type => if type = sshMsgKexinit then some .offered else none
  | .offered, type => if type = sshMsgKexdhInit then some .answered else none
  | .answered, type => if type = sshMsgNewkeys then some .ready else none
  | .ready, type =>
    if type = sshMsgKexinit then some .offered
    else if type = sshMsgKexdhInit ∨ type = sshMsgNewkeys then none
    else some .ready

def Phase.requires : Phase → UInt8
  | .start => sshMsgKexinit
  | .offered => sshMsgKexdhInit
  | .answered => sshMsgNewkeys
  | .ready => 0

/-- KEXINIT has been received. -/
def Phase.exchanging : Phase → Bool
  | .start => false
  | .offered => true
  | .answered => true
  | .ready => false

def Phase.newkeys (sentkexinit : Bool) : Phase → Option Newkeys
  | .start => if sentkexinit then some {} else none
  | .offered => some { algoKex := true }
  | .answered => some { algoKex := true, recvValid := true }
  | .ready => if sentkexinit then some {} else none

/-- The types as payloads. -/
def payloads (types : List UInt8) : List Bytes := types.map fun type => [type]

structure Inv (phase : Phase) (s : Ses) : Prop where
  running : s.stopped = none
  requirenext : s.requirenext = phase.requires
  recvkexinit : s.recvkexinit = phase.exchanging
  sentnewkeys : s.sentnewkeys = decide (phase = .answered)
  recvnewkeys : s.recvnewkeys = false
  sentkexinit : phase ≠ .ready → s.sentkexinit = true
  dataallowed : s.dataallowed = (!s.sentkexinit || decide (phase = .answered))
  newkeys : s.newkeys = phase.newkeys s.sentkexinit
  transkexinit : s.transkexinit = (s.sentkexinit && !phase.exchanging)
  kexhashbuf : phase = .offered → s.kexhashbuf = true
  ignorenext : s.ignorenext = true → phase = .offered
  donefirstkex : phase = .start → s.donefirstkex = false
  donefirstkex' : phase = .answered ∨ phase = .ready → s.donefirstkex = true
  recvfirstnewkeys : phase ≠ .answered → s.recvfirstnewkeys = s.donefirstkex
  handled : Machine.run phaseStep .start s.handled = some phase
  deferred : s.deferred = []
  sent : Machine.run kexPhase false (payloads s.sent) = some (!s.dataallowed)
  recvEpoch : s.recvEpoch = s.handled.count sshMsgNewkeys
  transEpoch : s.transEpoch = s.sent.count sshMsgNewkeys
  epochs : s.transEpoch = s.recvEpoch + (decide (phase = .answered)).toNat
  auth : ∀ type ∈ s.handled, maxUnauthPacketType < type → s.authdone = true

variable {phase : Phase} {s : Ses} {type : UInt8}

theorem Inv.start : Inv .start start where
  running := rfl
  requirenext := rfl
  recvkexinit := rfl
  sentnewkeys := rfl
  recvnewkeys := rfl
  sentkexinit := fun _ => rfl
  dataallowed := rfl
  newkeys := rfl
  transkexinit := rfl
  kexhashbuf := fun hoffered => absurd hoffered (by decide)
  ignorenext := fun hset => absurd hset (by decide)
  donefirstkex := fun _ => rfl
  donefirstkex' := fun hlate => absurd hlate (by decide)
  recvfirstnewkeys := fun _ => rfl
  handled := rfl
  deferred := rfl
  sent := rfl
  recvEpoch := rfl
  transEpoch := rfl
  epochs := rfl
  auth := fun _ hmem => absurd hmem List.not_mem_nil

/-! ## Sending -/

/-- A message that may be sent during an exchange changes no phase. -/
theorem kexPhase_okay (h : packetIsOkayKex type = true) (hnewkeys : type ≠ sshMsgNewkeys)
    (exchanging : Bool) : kexPhase exchanging [type] = some exchanging := by
  have hkexinit : type ≠ sshMsgKexinit := by
    rintro rfl
    exact absurd h (by decide)
  rw [kexPhase, if_neg (by simpa using hkexinit), if_neg (by simpa using hnewkeys), if_neg]
  simp [deferrable, h]

theorem payloads_append (types : List UInt8) (type : UInt8) :
    payloads (types ++ [type]) = payloads types ++ [[type]] := List.map_append

theorem run_payloads_append {types : List UInt8} {exchanging after : Bool}
    (h : Machine.run kexPhase false (payloads types) = some exchanging)
    (hphase : kexPhase exchanging [type] = some after) :
    Machine.run kexPhase false (payloads (types ++ [type])) = some after := by
  rw [payloads_append, Machine.run_append, h, Option.bind_some, Machine.run_cons hphase]
  rfl

theorem Ses.send_okay (h : packetIsOkayKex type = true) :
    s.send type = { s with sent := s.sent ++ [type] } := by
  rw [Ses.send, h]
  simp

theorem Ses.send_allowed (h : s.dataallowed = true) :
    s.send type = { s with sent := s.sent ++ [type] } := by
  rw [Ses.send, h]
  simp

theorem Inv.send (h : Inv phase s) (hokay : packetIsOkayKex type = true)
    (hnewkeys : type ≠ sshMsgNewkeys) : Inv phase (s.send type) := by
  rw [Ses.send_okay hokay]
  refine { h with
    sent := run_payloads_append h.sent (kexPhase_okay hokay hnewkeys _)
    transEpoch := ?_ }
  rw [List.count_append, List.count_singleton, h.transEpoch]
  simp [hnewkeys]

theorem Inv.count (h : Inv phase s) (type : UInt8) : Inv phase (s.count type) := { h with }

/-- **A new exchange of the server's own** changes no phase. -/
theorem Inv.sendMsgKexinit (h : Inv phase s) (hsent : s.sentkexinit = false) :
    Inv phase (sendMsgKexinit s) := by
  have hready : phase = .ready := by
    by_contra hne
    rw [h.sentkexinit hne] at hsent
    exact absurd hsent (by simp)
  subst hready
  have hallowed : s.dataallowed = true := by
    rw [h.dataallowed, hsent]
    rfl
  have hsends := h.sent
  rw [hallowed] at hsends
  rw [Kex.sendMsgKexinit, Ses.send_allowed hallowed]
  refine { h with
    sentkexinit := fun _ => rfl
    dataallowed := rfl
    newkeys := rfl
    transkexinit := rfl
    sent := run_payloads_append hsends rfl
    transEpoch := ?_ }
  rw [List.count_append, h.transEpoch]
  rfl

/-! ## What a packet can do -/

/-- **The first half of `process_packet`**, by its ways out. -/
inductive Admits (s : Ses) (type : UInt8) : Verdict → Ses → Prop
  | skip (hloose : (s.strictKex && !s.recvfirstnewkeys) = false) : Admits s type .out s
  | unimplemented (hloose : (s.strictKex && !s.recvfirstnewkeys) = false) :
      Admits s type .unimplemented s
  | ignore (hignore : s.ignorenext = true) (hnext : s.requirenext = 0 ∨ s.requirenext = type) :
      Admits s type .out { s with ignorenext := false }
  | unknown (hnext : s.requirenext = 0 ∨ s.requirenext = type) (hunknown : type ∉ svrPackettypes) :
      Admits s type .unimplemented { s with requirenext := 0 }
  | handler (hignore : s.ignorenext = false) (hnext : s.requirenext = 0 ∨ s.requirenext = type)
      (hauth : maxUnauthPacketType < type → s.authdone = true) :
      Admits s type .handler { s with requirenext := 0 }

theorem checkPacket_meets (s : Ses) (type : UInt8) :
    Meets (checkPacket s type) (fun answer => Admits s type answer.1 answer.2) (· ≠ .nullPointer) := by
  rw [checkPacket]
  split
  next => exact KexExit.noConfusion
  next =>
    split
    next hskip =>
      simp only [Bool.and_eq_true, Bool.not_eq_true'] at hskip
      exact .skip hskip.1
    next =>
      split
      next =>
        split
        next hokay =>
          simp only [Bool.and_eq_true, Bool.not_eq_true'] at hokay
          exact .unimplemented hokay.2
        next => exact KexExit.noConfusion
      next hexpected =>
        have hnext : s.requirenext = 0 ∨ s.requirenext = type := by
          by_contra hne
          apply hexpected
          simpa [not_or] using hne
        have hcleared : (if (s.requirenext ≠ 0 && s.requirenext = type) = true then 0
            else s.requirenext) = 0 := by
          rcases hnext with hnext | hnext
          · simp [hnext]
          · simp only [hnext, decide_true, Bool.and_true, decide_eq_true_eq, ite_eq_left_iff,
              not_not, imp_self]
        split
        next hignore => exact .ignore hignore hnext
        next hignore =>
          simp only [hcleared]
          split
          next => exact KexExit.noConfusion
          next hauth =>
            split
            next =>
              refine .handler ((Bool.not_eq_true _).mp hignore) hnext ?_
              intro hlarge
              simpa [hlarge] using hauth
            next hunknown => exact .unknown hnext hunknown

/-- What a packet leaves alone unless it says otherwise. -/
structure Same (s s' : Ses) : Prop where
  received : s'.received = s.received
  recvseq : s'.recvseq = s.recvseq
  strictKex : s'.strictKex = s.strictKex
  recvfirstnewkeys : s'.recvfirstnewkeys = s.recvfirstnewkeys
  ignorenext : s'.ignorenext = s.ignorenext
  donefirstkex : s'.donefirstkex = s.donefirstkex

/-- **What a packet can do** to a session that has counted it and goes on. -/
inductive Moves (s : Ses) (type : UInt8) (phase : Phase) : Phase → Ses → Prop
  /-- Only outside of a first strict exchange. -/
  | stays {s' : Ses} (hloose : (s.strictKex && !s.recvfirstnewkeys) = false) (hsame : Same s s') :
      Moves s type phase phase s'
  | ignored (htype : type = sshMsgKexdhInit) (hphase : phase = .offered)
      (hignore : s.ignorenext = true) :
      Moves s type phase .offered { s with ignorenext := false }
  | kexinit {s' : Ses} (htype : type = sshMsgKexinit) (hphase : phase.exchanging = false)
      (hreceived : s'.received = s.received) (hseq : s'.recvseq = s.recvseq)
      (hfirst : s'.recvfirstnewkeys = s.recvfirstnewkeys)
      (hlater : s.recvfirstnewkeys = true → s'.strictKex = s.strictKex)
      (hstrict : s.recvfirstnewkeys = false → s'.strictKex = true → s.recvseq = 1) :
      Moves s type phase .offered s'
  | kexdhInit {s' : Ses} (htype : type = sshMsgKexdhInit) (hphase : phase = .offered)
      (hignore : s.ignorenext = false) (hreceived : s'.received = s.received)
      (hseq : s'.recvseq = s.recvseq) (hstrict : s'.strictKex = s.strictKex)
      (hfirst : s'.recvfirstnewkeys = s.recvfirstnewkeys) :
      Moves s type phase .answered s'
  | newkeys {s' : Ses} (htype : type = sshMsgNewkeys) (hphase : phase = .answered)
      (hreceived : s'.received = s.received) (hstrict : s'.strictKex = s.strictKex)
      (hfirst : s'.recvfirstnewkeys = true) :
      Moves s type phase .ready s'

/-- The session as a handler finds it. -/
def Ses.call (s : Ses) (type : UInt8) : Ses :=
  { s with requirenext := 0, handled := s.handled ++ [type] }

variable {phase' : Phase}

theorem Inv.handled_append (h : Inv phase s) (hphase : phaseStep phase type = some phase') :
    Machine.run phaseStep .start (s.handled ++ [type]) = some phase' := by
  rw [Machine.run_append, h.handled, Option.bind_some, Machine.run_cons hphase]
  rfl

theorem Inv.auth_append (h : Inv phase s) (htype : maxUnauthPacketType < type → s.authdone = true) :
    ∀ t ∈ s.handled ++ [type], maxUnauthPacketType < t → s.authdone = true := by
  intro t hmem hlarge
  rcases List.mem_append.mp hmem with hmem | hmem
  · exact h.auth t hmem hlarge
  · rw [List.mem_singleton.mp hmem] at hlarge
    exact htype hlarge

theorem count_append_of_ne {types : List UInt8} (h : type ≠ sshMsgNewkeys) :
    (types ++ [type]).count sshMsgNewkeys = types.count sshMsgNewkeys := by
  rw [List.count_append, List.count_singleton]
  simp [h]

theorem count_append_newkeys (types : List UInt8) :
    (types ++ [sshMsgNewkeys]).count sshMsgNewkeys = types.count sshMsgNewkeys + 1 := by
  rw [List.count_append, List.count_singleton]
  rfl

theorem phaseStep_kexinit (hphase : phase.exchanging = false) :
    phaseStep phase sshMsgKexinit = some .offered := by
  cases phase with
  | start => rfl
  | ready => rfl
  | offered => exact absurd hphase (by decide)
  | answered => exact absurd hphase (by decide)

/-! ### KEXINIT -/

/-- What KEXINIT comes to. -/
def Ses.offer (s : Ses) (algos : KexAlgos) : Ses :=
  { s with
    kexhashbuf := true
    newkeys := some { algoKex := true }
    allowExtInfo := s.allowExtInfo || (!s.donefirstkex && algos.extInfo)
    strictKex := s.strictKex || (!s.donefirstkex && algos.strict)
    themFirstfollows := s.themFirstfollows || algos.firstKexPacketFollows
    ignorenext := s.ignorenext || (algos.firstKexPacketFollows && !algos.allgood)
    requirenext := sshMsgKexdhInit
    transkexinit := false
    recvkexinit := true }

theorem Phase.ne_answered (hphase : phase.exchanging = false) : phase ≠ .answered := by
  intro hanswered
  subst hanswered
  exact absurd hphase (by decide)

theorem Inv.offer (h : Inv phase s) (hphase : phase.exchanging = false) (hsent : s.sentkexinit = true)
    (algos : KexAlgos) : Inv .offered ((s.call sshMsgKexinit).offer algos) := by
  have hanswered := Phase.ne_answered hphase
  exact {
    running := h.running
    requirenext := rfl
    recvkexinit := rfl
    sentnewkeys := by
      show s.sentnewkeys = false
      rw [h.sentnewkeys, decide_eq_false hanswered]
    recvnewkeys := h.recvnewkeys
    sentkexinit := fun _ => hsent
    dataallowed := by
      show s.dataallowed = _
      rw [h.dataallowed, decide_eq_false hanswered]
      rfl
    newkeys := rfl
    transkexinit := by simp [Ses.offer, Phase.exchanging]
    kexhashbuf := fun _ => rfl
    ignorenext := fun _ => rfl
    donefirstkex := fun hstart => absurd hstart (by simp)
    donefirstkex' := fun hlate => absurd hlate (by simp)
    recvfirstnewkeys := fun _ => h.recvfirstnewkeys hanswered
    handled := h.handled_append (phaseStep_kexinit hphase)
    deferred := h.deferred
    sent := h.sent
    recvEpoch := h.recvEpoch.trans (count_append_of_ne (by decide)).symm
    transEpoch := h.transEpoch
    epochs := by
      show s.transEpoch = s.recvEpoch + _
      rw [h.epochs, decide_eq_false hanswered]
      rfl
    auth := h.auth_append fun hlarge => absurd hlarge (by decide) }

theorem startExchange_meets {s₀ : Ses} (hsame : Same s₀ s) (h : Inv phase s)
    (hphase : phase.exchanging = false) (hsent : s.sentkexinit = true) (algos : KexAlgos) :
    Meets (startExchange algos (s.call sshMsgKexinit))
      (fun s' => Inv .offered s' ∧ Moves s₀ sshMsgKexinit phase .offered s') (· ≠ .nullPointer) := by
  have hnewkeys : s.newkeys.isNone = false := by
    rw [h.newkeys, hsent]
    cases phase <;> rfl
  have htrans : s.transkexinit = true := by
    rw [h.transkexinit, hsent, hphase]
    rfl
  have hfirst := h.recvfirstnewkeys (Phase.ne_answered hphase)
  rw [startExchange, if_neg (by simp [Ses.call, h.recvkexinit, hphase]),
    if_neg (by simp [Ses.call, htrans]), readKexAlgos, if_neg (by simp [Ses.call, hnewkeys])]
  split
  next => exact KexExit.noConfusion
  next =>
    rw [ok_bind]
    split
    next => exact KexExit.noConfusion
    next hseq =>
      simp only [Ses.call, Bool.and_eq_true, Bool.or_eq_true, Bool.not_eq_true', bne_iff_ne, ne_eq,
        not_and, not_not, and_imp] at hseq
      refine ⟨h.offer hphase hsent algos, ?_⟩
      refine .kexinit rfl hphase hsame.received hsame.recvseq hsame.recvfirstnewkeys ?_ ?_
      · intro hlater
        rw [← hsame.recvfirstnewkeys, hfirst] at hlater
        rw [← hsame.strictKex]
        simp [Ses.call, hlater]
      · intro hnone hstrict
        rw [← hsame.recvfirstnewkeys, hfirst] at hnone
        rw [← hsame.recvseq]
        refine hseq ?_ hnone
        simpa [Ses.call, hnone] using hstrict

theorem recvMsgKexinit_meets (h : Inv phase s) (hphase : phase.exchanging = false)
    (algos : KexAlgos) :
    Meets (recvMsgKexinit algos (s.call sshMsgKexinit))
      (fun s' => Inv .offered s' ∧ Moves s sshMsgKexinit phase .offered s') (· ≠ .nullPointer) := by
  rw [recvMsgKexinit]
  split
  next hsent => exact startExchange_meets ⟨rfl, rfl, rfl, rfl, rfl, rfl⟩ h hphase hsent algos
  next hsent =>
    have hnot : s.sentkexinit = false := (Bool.not_eq_true _).mp hsent
    have hallowed : s.dataallowed = true := by
      rw [h.dataallowed, hnot]
      rfl
    have hcall : (s.call sshMsgKexinit).dataallowed = true := hallowed
    have hcommutes : sendMsgKexinit (s.call sshMsgKexinit) = (sendMsgKexinit s).call sshMsgKexinit := by
      rw [sendMsgKexinit, sendMsgKexinit, Ses.send_allowed hcall, Ses.send_allowed hallowed]
      rfl
    have hsame : Same s (sendMsgKexinit s) := by
      rw [sendMsgKexinit, Ses.send_allowed hallowed]
      exact ⟨rfl, rfl, rfl, rfl, rfl, rfl⟩
    rw [hcommutes]
    exact startExchange_meets hsame (h.sendMsgKexinit hnot) hphase rfl algos

/-! ### KEXDH_INIT -/

/-- What an exchange that was offered comes to. -/
def Ses.answer (s : Ses) : Ses :=
  { s with
    kexhashbuf := false
    sentnewkeys := true
    donesecondkex := s.donesecondkex || s.donefirstkex
    donefirstkex := true
    dataallowed := true
    hash := false
    transEpoch := s.transEpoch + 1
    newkeys := some { algoKex := true, recvValid := true }
    sent := s.sent ++ [sshMsgKexdhReply] ++ [sshMsgNewkeys] }

theorem recvMsgKexdhInit_offered (h : Inv .offered s) :
    recvMsgKexdhInit true (s.call sshMsgKexdhInit)
      = afterNewkeys ((s.call sshMsgKexdhInit).answer) := by
  have hrecv : s.recvkexinit = true := h.recvkexinit
  have hsent : s.sentkexinit = true := h.sentkexinit (by decide)
  have hkeys : s.newkeys = some { algoKex := true } := h.newkeys
  have hnewkeys : s.recvnewkeys = false := h.recvnewkeys
  have hbuf : s.kexhashbuf = true := h.kexhashbuf rfl
  have hreply : packetIsOkayKex sshMsgKexdhReply = true := by decide
  have hsends : packetIsOkayKex sshMsgNewkeys = true := by decide
  simp [recvMsgKexdhInit, Ses.call, hrecv, hkeys, finishKexhashbuf, hbuf, sendMsgNewkeys,
    Ses.send_okay hreply, Ses.send_okay hsends, genNewKeys, switchKeys, hsent, hnewkeys, Ses.answer]

theorem Inv.answer (h : Inv .offered s) (hignore : s.ignorenext = false) :
    Inv .answered { (s.call sshMsgKexdhInit).answer with requirenext := sshMsgNewkeys } := by
  have hallowed : s.dataallowed = false := by
    rw [h.dataallowed, h.sentkexinit (by decide)]
    rfl
  have hsent := h.sent
  rw [hallowed] at hsent
  exact {
    running := h.running
    requirenext := rfl
    recvkexinit := h.recvkexinit
    sentnewkeys := rfl
    recvnewkeys := h.recvnewkeys
    sentkexinit := fun _ => h.sentkexinit (by decide)
    dataallowed := by simp [Ses.answer]
    newkeys := rfl
    transkexinit := h.transkexinit
    kexhashbuf := fun hoffered => absurd hoffered (by decide)
    ignorenext := fun hset => absurd (hignore.symm.trans hset) (by decide)
    donefirstkex := fun hstart => absurd hstart (by decide)
    donefirstkex' := fun _ => rfl
    recvfirstnewkeys := fun hne => absurd rfl hne
    handled := h.handled_append rfl
    deferred := h.deferred
    sent := run_payloads_append (run_payloads_append hsent rfl) rfl
    recvEpoch := h.recvEpoch.trans (count_append_of_ne (by decide)).symm
    transEpoch := by
      show s.transEpoch + 1 = _
      rw [h.transEpoch, Ses.answer, count_append_newkeys, count_append_of_ne (by decide)]
      rfl
    epochs := by
      show s.transEpoch + 1 = s.recvEpoch + 1
      rw [h.epochs]
      rfl
    auth := h.auth_append fun hlarge => absurd hlarge (by decide) }

theorem recvMsgKexdhInit_meets (h : Inv .offered s) (hignore : s.ignorenext = false)
    (valueOk : Bool) :
    Meets (recvMsgKexdhInit valueOk (s.call sshMsgKexdhInit))
      (fun s' => Inv .answered s' ∧ Moves s sshMsgKexdhInit .offered .answered s')
      (· ≠ .nullPointer) := by
  cases valueOk with
  | false =>
    have hrecv : s.recvkexinit = true := h.recvkexinit
    have hkeys : s.newkeys = some { algoKex := true } := h.newkeys
    rw [recvMsgKexdhInit, if_neg (by simp [Ses.call, hrecv]), if_neg (by simp [Ses.call, hkeys])]
    exact KexExit.noConfusion
  | true =>
    have hanswered := h.answer hignore
    have hinfo : packetIsOkayKex sshMsgExtInfo = true := by decide
    rw [recvMsgKexdhInit_offered h, afterNewkeys]
    split
    next =>
      have hsent := hanswered.send hinfo (by decide)
      rw [Ses.send_okay hinfo] at hsent
      rw [Ses.send_okay hinfo, if_neg (by simp [Ses.answer])]
      exact ⟨hsent, .kexdhInit rfl rfl hignore rfl rfl rfl rfl⟩
    next =>
      rw [if_neg (by simp [Ses.answer])]
      exact ⟨hanswered, .kexdhInit rfl rfl hignore rfl rfl rfl rfl⟩

/-! ### NEWKEYS -/

/-- What an exchange that was answered comes to. -/
def Ses.finish (s : Ses) : Ses :=
  kexinitialise { s with
    recvEpoch := s.recvEpoch + 1
    newkeys := none
    recvseq := if s.strictKex then 0 else s.recvseq
    recvfirstnewkeys := true }

theorem recvMsgNewkeys_answered (h : Inv .answered s) :
    recvMsgNewkeys (s.call sshMsgNewkeys) = .ok ((s.call sshMsgNewkeys).finish) := by
  have hrecv : s.recvkexinit = true := h.recvkexinit
  have hsent : s.sentkexinit = true := h.sentkexinit (by decide)
  have hkeys : s.newkeys = some { algoKex := true, recvValid := true } := h.newkeys
  have hnewkeys : s.sentnewkeys = true := h.sentnewkeys
  simp [recvMsgNewkeys, Ses.call, switchKeys, hrecv, hsent, hkeys, hnewkeys, kexinitialise, Ses.finish]

theorem Inv.finish (h : Inv .answered s) : Inv .ready ((s.call sshMsgNewkeys).finish) := by
  have hallowed : s.dataallowed = true := by
    rw [h.dataallowed]
    exact Bool.or_true _
  have htrans : s.transkexinit = false := by
    rw [h.transkexinit]
    exact Bool.and_false _
  exact {
    running := h.running
    requirenext := rfl
    recvkexinit := rfl
    sentnewkeys := rfl
    recvnewkeys := rfl
    sentkexinit := fun hne => absurd rfl hne
    dataallowed := hallowed
    newkeys := rfl
    transkexinit := htrans
    kexhashbuf := fun hoffered => absurd hoffered (by decide)
    ignorenext := fun hset => absurd (h.ignorenext hset) (by decide)
    donefirstkex := fun hstart => absurd hstart (by decide)
    donefirstkex' := fun _ => h.donefirstkex' (.inl rfl)
    recvfirstnewkeys := fun _ => (h.donefirstkex' (.inl rfl)).symm
    handled := h.handled_append rfl
    deferred := h.deferred
    sent := h.sent
    recvEpoch := by
      show s.recvEpoch + 1 = (s.handled ++ [sshMsgNewkeys]).count sshMsgNewkeys
      rw [count_append_newkeys, h.recvEpoch]
    transEpoch := h.transEpoch
    epochs := by
      show s.transEpoch = s.recvEpoch + 1 + 0
      rw [h.epochs]
      rfl
    auth := h.auth_append fun hlarge => absurd hlarge (by decide) }

/-! ### Every packet -/

/-- What a session comes to that goes on, or why it ends. A handler of the exchange that is called
    out of order ends it. -/
inductive Next (s : Ses) (type : UInt8) (phase : Phase) : Ses → Prop
  | goes {s' : Ses} (phase' : Phase) (hmoves : Moves s type phase phase' s') (hinv : Inv phase' s') :
      Next s type phase s'
  | stops {s' : Ses} {why : KexExit} (hwhy : why ≠ .nullPointer) (hstops : s'.stopped = some why)
      (hhandled : s'.handled = s.handled ∨ s'.handled = s.handled ++ [type] ∧
        ((phaseStep phase type).isSome = true ∨
          phase = .ready ∧ (type = sshMsgKexdhInit ∨ type = sshMsgNewkeys)))
      (hauth : ∀ t ∈ s'.handled, maxUnauthPacketType < t → s'.authdone = true) :
      Next s type phase s'

/-- A handler of the exchange, by its specification. -/
theorem Next.of_meets {x : Except KexExit Ses} (h : Inv phase s)
    (hx : Meets x (fun s' => Inv phase' s' ∧ Moves s type phase phase' s') (· ≠ .nullPointer))
    (hphase : phaseStep phase type = some phase')
    (hauth : maxUnauthPacketType < type → s.authdone = true) :
    Next s type phase ((s.call type).after x) := by
  cases x with
  | error why =>
    refine .stops hx rfl (.inr ⟨rfl, .inl ?_⟩) (h.auth_append hauth)
    rw [hphase]
    rfl
  | ok s' => exact .goes phase' hx.2 hx.1

theorem Inv.loose (h : Inv .ready s) : (s.strictKex && !s.recvfirstnewkeys) = false := by
  rw [h.recvfirstnewkeys (by decide), h.donefirstkex' (.inr rfl)]
  exact Bool.and_false _

/-- A packet that is not of the exchange. -/
theorem Inv.handle_other (h : Inv .ready s) (hkexinit : type ≠ sshMsgKexinit)
    (hinit : type ≠ sshMsgKexdhInit) (hnewkeys : type ≠ sshMsgNewkeys)
    (hauth : maxUnauthPacketType < type → s.authdone = true) (authenticates : Bool) :
    Inv .ready { s.call type with authdone := s.authdone || authenticates } := by
  have hphase : phaseStep .ready type = some .ready := by
    rw [phaseStep, if_neg hkexinit, if_neg (by simp [hinit, hnewkeys])]
  refine { h with
    requirenext := rfl
    handled := h.handled_append hphase
    recvEpoch := h.recvEpoch.trans (count_append_of_ne hnewkeys).symm
    auth := ?_ }
  intro t hmem hlarge
  rw [h.auth_append hauth t hmem hlarge]
  rfl

theorem handler_next {packet : Incoming} (h : Inv phase s) (hignore : s.ignorenext = false)
    (hnext : s.requirenext = 0 ∨ s.requirenext = packet.type)
    (hauth : maxUnauthPacketType < packet.type → s.authdone = true) :
    Next s packet.type phase ((s.call packet.type).after (handler packet (s.call packet.type))) := by
  rw [h.requirenext] at hnext
  rw [handler]
  split
  next htype =>
    rw [htype] at hnext hauth ⊢
    have hphase : phase.exchanging = false := by
      cases phase with
      | start => rfl
      | ready => rfl
      | offered => exact absurd hnext (by decide)
      | answered => exact absurd hnext (by decide)
    exact .of_meets h (recvMsgKexinit_meets h hphase _) (phaseStep_kexinit hphase) hauth
  next hkexinit =>
    split
    next htype =>
      rw [htype] at hnext hauth ⊢
      cases phase with
      | start => exact absurd hnext (by decide)
      | answered => exact absurd hnext (by decide)
      | offered => exact .of_meets h (recvMsgKexdhInit_meets h hignore _) rfl hauth
      | ready =>
        have hrecv : s.recvkexinit = false := h.recvkexinit
        rw [recvMsgKexdhInit, if_pos (by simp [Ses.call, hrecv])]
        exact .stops KexExit.noConfusion rfl (.inr ⟨rfl, .inr ⟨rfl, .inl rfl⟩⟩) (h.auth_append hauth)
    next hinit =>
      split
      next htype =>
        rw [htype] at hnext hauth ⊢
        cases phase with
        | start => exact absurd hnext (by decide)
        | offered => exact absurd hnext (by decide)
        | answered =>
          rw [recvMsgNewkeys_answered h]
          exact .goes .ready (.newkeys rfl rfl rfl rfl rfl) h.finish
        | ready =>
          have hrecv : s.recvkexinit = false := h.recvkexinit
          rw [recvMsgNewkeys, switchKeys, if_pos (by simp [Ses.call, hrecv])]
          exact .stops KexExit.noConfusion rfl (.inr ⟨rfl, .inr ⟨rfl, .inr rfl⟩⟩) (h.auth_append hauth)
      next hnewkeys =>
        have hready : phase = .ready := by
          cases phase with
          | ready => rfl
          | start => exact absurd (hnext.resolve_left (by decide)).symm hkexinit
          | offered => exact absurd (hnext.resolve_left (by decide)).symm hinit
          | answered => exact absurd (hnext.resolve_left (by decide)).symm hnewkeys
        subst hready
        have hstep : phaseStep .ready packet.type = some .ready := by
          rw [phaseStep, if_neg hkexinit, if_neg (by simp [hinit, hnewkeys])]
        split
        next =>
          refine .stops KexExit.noConfusion rfl (.inr ⟨rfl, .inl ?_⟩) (h.auth_append hauth)
          rw [hstep]
          rfl
        next =>
          refine .goes .ready (.stays h.loose ⟨rfl, rfl, rfl, rfl, rfl, rfl⟩) ?_
          exact h.handle_other hkexinit hinit hnewkeys hauth _

theorem same_send (hokay : packetIsOkayKex type = true) {s₀ : Ses} (hsame : Same s₀ s) :
    Same s₀ (s.send type) := by
  rw [Ses.send_okay hokay]
  exact ⟨hsame.received, hsame.recvseq, hsame.strictKex, hsame.recvfirstnewkeys, hsame.ignorenext,
    hsame.donefirstkex⟩

theorem processPacket_next (packet : Incoming) (h : Inv phase s) :
    Next s packet.type phase (processPacket packet s) := by
  have hmeets := checkPacket_meets s packet.type
  rw [processPacket]
  cases hchecked : checkPacket s packet.type with
  | error why =>
    rw [hchecked] at hmeets
    exact .stops hmeets rfl (.inl rfl) h.auth
  | ok answer =>
    rw [hchecked] at hmeets
    obtain ⟨verdict, s'⟩ := answer
    have hunimplemented : packetIsOkayKex sshMsgUnimplemented = true := by decide
    cases hmeets with
    | skip hloose => exact .goes phase (.stays hloose ⟨rfl, rfl, rfl, rfl, rfl, rfl⟩) h
    | unimplemented hloose =>
      refine .goes phase (.stays hloose ?_) (h.send hunimplemented (by decide))
      exact same_send hunimplemented ⟨rfl, rfl, rfl, rfl, rfl, rfl⟩
    | ignore hignore hnext =>
      have hoffered := h.ignorenext hignore
      subst hoffered
      rw [h.requirenext] at hnext
      have htype := (hnext.resolve_left (by decide)).symm
      exact .goes .offered (.ignored htype rfl hignore)
        { h with ignorenext := fun hset => absurd hset (by simp) }
    | unknown hnext hunknown =>
      have hready : phase = .ready := by
        rw [h.requirenext] at hnext
        cases phase with
        | ready => rfl
        | start => exact absurd (hnext.resolve_left (by decide) ▸ by decide) hunknown
        | offered => exact absurd (hnext.resolve_left (by decide) ▸ by decide) hunknown
        | answered => exact absurd (hnext.resolve_left (by decide) ▸ by decide) hunknown
      subst hready
      have hcleared : Inv .ready { s with requirenext := 0 } := { h with requirenext := rfl }
      refine .goes .ready (.stays h.loose ?_) (hcleared.send hunimplemented (by decide))
      exact same_send hunimplemented ⟨rfl, rfl, rfl, rfl, rfl, rfl⟩
    | handler hignore hnext hauth => exact handler_next h hignore hnext hauth

/-! ## What has been received -/

/-- The packets of a first strict exchange so far, one of them perhaps ignored. -/
def Phase.Opening (ignorenext : Bool) (opening : List UInt8) : Phase → Prop
  | .start => False
  | .offered => opening = [20] ∨ opening = [20, 30] ∧ ignorenext = false
  | .answered => opening = [20, 30] ∨ opening = [20, 30, 30]
  | .ready => False

/-- How the packets from KEXINIT on begin in a strict session, and what came later. -/
def Opened (phase : Phase) (s : Ses) (opening later : List UInt8) : Prop :=
  if s.recvfirstnewkeys then opening = [20, 30, 21] ∨ opening = [20, 30, 30, 21]
  else later = [] ∧ phase.Opening s.ignorenext opening

/-- The number of the next packet counts those received, modulo its size: a first packet is only
    known to be one up to that. -/
structure Numbers (phase : Phase) (s : Ses) : Prop where
  seq : s.recvfirstnewkeys = false → s.recvseq = s.received.length % 0x100000000
  strict : s.strictKex = true → ∃ before opening later, s.received = before ++ opening ++ later ∧
    before.length % 0x100000000 = 0 ∧ Opened phase s opening later

theorem Numbers.start : Numbers .start start :=
  ⟨fun _ => rfl, fun hstrict => absurd hstrict (by decide)⟩

variable {s' : Ses}

theorem Numbers.seq_count (h : Numbers phase s) (hreceived : s'.received = (s.count type).received)
    (hseq : s'.recvseq = (s.count type).recvseq) (hfirst : s'.recvfirstnewkeys = s.recvfirstnewkeys)
    (hnone : s'.recvfirstnewkeys = false) : s'.recvseq = s'.received.length % 0x100000000 := by
  rw [hfirst] at hnone
  have hold := h.seq hnone
  rw [hseq, hreceived, Ses.count, List.length_append]
  simp only [List.length_singleton]
  omega

/-- After the first NEWKEYS nothing is asked of the packets. -/
theorem Numbers.later (h : Numbers phase s) (hfirst : s.recvfirstnewkeys = true)
    (hstrict : s.strictKex = true) (hreceived : s'.received = (s.count type).received)
    (hfirst' : s'.recvfirstnewkeys = true) :
    ∃ before opening later, s'.received = before ++ opening ++ later ∧
      before.length % 0x100000000 = 0 ∧ Opened phase' s' opening later := by
  obtain ⟨before, opening, later, hall, hbefore, hopened⟩ := h.strict hstrict
  rw [Opened, if_pos hfirst] at hopened
  refine ⟨before, opening, later ++ [type], ?_, hbefore, ?_⟩
  · rw [hreceived, Ses.count, hall, List.append_assoc]
  · rw [Opened, if_pos hfirst']
    exact hopened

/-- One more packet, of the first exchange or later. -/
theorem Numbers.advance (h : Numbers phase s) (hstrict : s.strictKex = true)
    (hreceived : s'.received = (s.count type).received)
    (hkeep : s.recvfirstnewkeys = true → s'.recvfirstnewkeys = true)
    (hopens : s.recvfirstnewkeys = false → ∀ opening, phase.Opening s.ignorenext opening →
      Opened phase' s' (opening ++ [type]) []) :
    ∃ before opening later, s'.received = before ++ opening ++ later ∧
      before.length % 0x100000000 = 0 ∧ Opened phase' s' opening later := by
  cases hfirst : s.recvfirstnewkeys with
  | true => exact h.later hfirst hstrict hreceived (hkeep hfirst)
  | false =>
    obtain ⟨before, opening, later, hall, hbefore, hopened⟩ := h.strict hstrict
    rw [Opened, if_neg (by simp [hfirst])] at hopened
    obtain ⟨rfl, hopening⟩ := hopened
    refine ⟨before, opening ++ [type], [], ?_, hbefore, hopens hfirst opening hopening⟩
    rw [hreceived, Ses.count, hall, List.append_nil, List.append_nil, List.append_assoc]

theorem Moves.numbers (h : Numbers phase s) (hmoves : Moves (s.count type) type phase phase' s') :
    Numbers phase' s' := by
  cases hmoves with
  | stays hloose hsame =>
    refine ⟨h.seq_count hsame.received hsame.recvseq hsame.recvfirstnewkeys, ?_⟩
    intro hstrict
    rw [hsame.strictKex] at hstrict
    have hfirst : s.recvfirstnewkeys = true := by
      have hs : s.strictKex = true := hstrict
      simpa [Ses.count, hs] using hloose
    exact h.later hfirst hstrict hsame.received (hsame.recvfirstnewkeys.trans hfirst)
  | ignored htype hphase hignore =>
    subst htype hphase
    refine ⟨h.seq_count rfl rfl rfl, ?_⟩
    intro hstrict
    refine h.advance hstrict rfl id ?_
    intro hnone opening hopening
    have hset : s.ignorenext = true := hignore
    rw [Opened, if_neg (by simp [Ses.count, hnone])]
    rcases hopening with hopening | ⟨-, hnot⟩
    · subst hopening
      exact ⟨rfl, .inr ⟨rfl, rfl⟩⟩
    · exact absurd (hset.symm.trans hnot) (by decide)
  | kexinit htype hphase hreceived hseq hfirst hlater hfirstStrict =>
    subst htype
    refine ⟨h.seq_count hreceived hseq hfirst, ?_⟩
    intro hstrict
    cases hnone : s.recvfirstnewkeys with
    | true =>
      have hold : s.strictKex = true := (hlater hnone).symm.trans hstrict
      exact h.later hnone hold hreceived (hfirst.trans hnone)
    | false =>
      have hone : (s.count sshMsgKexinit).recvseq = 1 := hfirstStrict hnone hstrict
      have hold := h.seq hnone
      have hnew : s'.recvfirstnewkeys = false := hfirst.trans hnone
      refine ⟨s.received, [20], [], ?_, ?_, ?_⟩
      · rw [hreceived, Ses.count, List.append_nil]
        rfl
      · simp only [Ses.count] at hone
        omega
      · rw [Opened, if_neg (by simp [hnew])]
        exact ⟨rfl, .inl rfl⟩
  | kexdhInit htype hphase hignore hreceived hseq hstrictKex hfirst =>
    subst htype hphase
    refine ⟨h.seq_count hreceived hseq hfirst, ?_⟩
    intro hstrict
    refine h.advance (hstrictKex.symm.trans hstrict) hreceived hfirst.trans ?_
    intro hnone opening hopening
    have hnew : s'.recvfirstnewkeys = false := hfirst.trans hnone
    rw [Opened, if_neg (by simp [hnew])]
    rcases hopening with hopening | ⟨hopening, -⟩
    · subst hopening
      exact ⟨rfl, .inl rfl⟩
    · subst hopening
      exact ⟨rfl, .inr rfl⟩
  | newkeys htype hphase hreceived hstrictKex hfirst =>
    subst htype hphase
    refine ⟨fun hnone => absurd (hfirst.symm.trans hnone) (by decide), ?_⟩
    intro hstrict
    refine h.advance (hstrictKex.symm.trans hstrict) hreceived (fun _ => hfirst) ?_
    intro hnone opening hopening
    rw [Opened, if_pos hfirst]
    rcases hopening with hopening | hopening
    · subst hopening
      exact .inl rfl
    · subst hopening
      exact .inr rfl

/-! ## Every run -/

/-- What holds in every run. -/
inductive Good (s : Ses) : Prop
  | goes (phase : Phase) (hinv : Inv phase s) (hnumbers : Numbers phase s)
  | stopped (why : KexExit) (hwhy : why ≠ .nullPointer) (hstops : s.stopped = some why)
      (hhandled : (∃ phase, Machine.run phaseStep .start s.handled = some phase) ∨
        ∃ earlier type, s.handled = earlier ++ [type] ∧
          Machine.run phaseStep .start earlier = some .ready ∧
          (type = sshMsgKexdhInit ∨ type = sshMsgNewkeys))
      (hauth : ∀ type ∈ s.handled, maxUnauthPacketType < type → s.authdone = true)

theorem Good.step (h : Good s) {event : KexEvent} (hstep : step s event = some s') : Good s' := by
  cases h with
  | stopped why hwhy hstops =>
    cases event with
    | packet packet => exact absurd hstep (by simp [Kex.step, hstops])
    | rekey => exact absurd hstep (by simp [Kex.step, hstops])
  | goes phase hinv hnumbers =>
    cases event with
    | packet packet =>
      simp only [Kex.step, Option.ite_none_right_eq_some, Option.some.injEq] at hstep
      obtain ⟨-, rfl⟩ := hstep
      have hnext := processPacket_next packet (hinv.count packet.type)
      generalize processPacket packet (s.count packet.type) = after at hnext
      cases hnext with
      | goes phase' hmoves hinv' => exact .goes phase' hinv' (hmoves.numbers hnumbers)
      | stops hwhy hstops hhandled hauth =>
        refine .stopped _ hwhy hstops ?_ hauth
        rcases hhandled with hhandled | ⟨hhandled, hphase | ⟨hready, htype⟩⟩
        · exact .inl ⟨phase, hhandled ▸ hinv.handled⟩
        · obtain ⟨phase', hphase⟩ := Option.isSome_iff_exists.mp hphase
          exact .inl ⟨phase', hhandled ▸ hinv.handled_append hphase⟩
        · exact .inr ⟨s.handled, packet.type, hhandled, hready ▸ hinv.handled, htype⟩
    | rekey =>
      simp only [Kex.step, Option.ite_none_right_eq_some, Option.some.injEq, Bool.and_eq_true,
        Bool.not_eq_true'] at hstep
      obtain ⟨⟨-, hsent⟩, rfl⟩ := hstep
      refine .goes phase (hinv.sendMsgKexinit hsent) ?_
      have hallowed : s.dataallowed = true := by
        rw [hinv.dataallowed, hsent]
        rfl
      rw [sendMsgKexinit, Ses.send_allowed hallowed]
      exact ⟨hnumbers.seq, hnumbers.strict⟩

theorem good_run {events : List KexEvent} (hrun : Machine.run step start events = some s) : Good s :=
  Machine.run_invariant (fun _ _ _ hgood hstep => hgood.step hstep) (.goes .start Inv.start Numbers.start)
    hrun

/-- A session that goes on is in a phase. -/
theorem Good.exists_phase (h : Good s) (hrunning : s.stopped = none) : ∃ phase, Inv phase s ∧ Numbers phase s := by
  cases h with
  | goes phase hinv hnumbers => exact ⟨phase, hinv, hnumbers⟩
  | stopped why hwhy hstops => exact absurd (hrunning.symm.trans hstops) (by simp)

/-- **No pointer is followed while it is `NULL`**, whatever the peer sends and whenever the server
    starts an exchange of its own. -/
theorem kex_never_faults {events : List KexEvent}
    (hrun : Machine.run step start events = some s) : s.stopped ≠ some .nullPointer := by
  cases good_run hrun with
  | goes phase hinv =>
    rw [hinv.running]
    simp
  | stopped why hwhy hstops =>
    rw [hstops]
    intro hnull
    exact hwhy (Option.some.inj hnull)

/-- A strict first exchange with a wrong guess, a login and data, then an exchange that the server
    starts and the peer breaks with data. -/
def exampleSession : List KexEvent :=
  [.packet { type := 20, algos := { strict := true, firstKexPacketFollows := true, allgood := false } },
    .packet { type := 30 }, .packet { type := 30 }, .packet { type := 21 },
    .packet { type := 50, authenticates := true }, .packet { type := 94 }, .rekey,
    .packet { type := 94 }, .packet { type := 20 }, .packet { type := 30 }, .packet { type := 94 }]

theorem kex_never_faults_session :
    ∃ s, Machine.run step start exampleSession = some s ∧ s.stopped ≠ some .nullPointer := by
  have hsome : (Machine.run step start exampleSession).isSome = true := by decide +kernel
  obtain ⟨s, hrun⟩ := Option.isSome_iff_exists.mp hsome
  exact ⟨s, hrun, kex_never_faults hrun⟩

/-- **Handlers are called in order.** In every run the handlers that are called follow the phases:
    KEXINIT, KEXDH_INIT, NEWKEYS, then any others until the next KEXINIT. Nothing of authentication
    or of channels is handled before the first NEWKEYS or during an exchange. Where a handler is
    called that must not be, it is that of KEXDH_INIT or NEWKEYS with no exchange going on, and the
    session ends there. Messages of channels are handled only after authentication. -/
theorem kex_handlers {events : List KexEvent} (hrun : Machine.run step start events = some s) :
    ((∃ phase, Machine.run phaseStep .start s.handled = some phase) ∨
      ∃ earlier type, s.handled = earlier ++ [type] ∧
        Machine.run phaseStep .start earlier = some .ready ∧
        (type = sshMsgKexdhInit ∨ type = sshMsgNewkeys) ∧ s.stopped.isSome = true) ∧
      ∀ type ∈ s.handled, maxUnauthPacketType < type → s.authdone = true := by
  cases good_run hrun with
  | goes phase hinv => exact ⟨.inl ⟨phase, hinv.handled⟩, hinv.auth⟩
  | stopped why hwhy hstops hhandled hauth =>
    refine ⟨?_, hauth⟩
    rcases hhandled with hphase | ⟨earlier, type, hhandled, hready, htype⟩
    · exact .inl hphase
    · refine .inr ⟨earlier, type, hhandled, hready, htype, ?_⟩
      rw [hstops]
      rfl

theorem kex_handlers_session :
    ∃ s, Machine.run step start exampleSession = some s ∧
      ∀ type ∈ s.handled, maxUnauthPacketType < type → s.authdone = true := by
  have hsome : (Machine.run step start exampleSession).isSome = true := by decide +kernel
  obtain ⟨s, hrun⟩ := Option.isSome_iff_exists.mp hsome
  exact ⟨s, hrun, (kex_handlers hrun).2⟩

/-- **Keys change with NEWKEYS.** While a session goes on, what the exchange has sent was never
    deferred and follows the phases of the sender (KEXINIT only where data is allowed, NEWKEYS only
    where it is not); each NEWKEYS that was sent has changed the keys for sending and each one that
    was handled those for receiving, and the former are never behind and at most one ahead. -/
theorem kex_switches {events : List KexEvent} (hrun : Machine.run step start events = some s)
    (hrunning : s.stopped = none) :
    s.deferred = [] ∧ Machine.run kexPhase false (payloads s.sent) = some (!s.dataallowed) ∧
      s.transEpoch = s.sent.count sshMsgNewkeys ∧ s.recvEpoch = s.handled.count sshMsgNewkeys ∧
      s.recvEpoch ≤ s.transEpoch ∧ s.transEpoch ≤ s.recvEpoch + 1 := by
  obtain ⟨phase, hinv, -⟩ := (good_run hrun).exists_phase hrunning
  have hepochs := hinv.epochs
  have hone := Bool.toNat_le (decide (phase = .answered))
  exact ⟨hinv.deferred, hinv.sent, hinv.transEpoch, hinv.recvEpoch, by omega, by omega⟩

theorem kex_switches_session :
    ∃ s, Machine.run step start (exampleSession.take 10) = some s ∧ s.stopped = none ∧
      s.transEpoch ≤ s.recvEpoch + 1 := by
  have hsome : (Machine.run step start (exampleSession.take 10)).map (·.stopped) = some none := by
    decide +kernel
  obtain ⟨s, hrun, hrunning⟩ := Option.map_eq_some_iff.mp hsome
  exact ⟨s, hrun, hrunning, (kex_switches hrun hrunning).2.2.2.2.2⟩

/-- **A strict first exchange lets nothing else through.** If the session is strict, then from the
    KEXINIT on, the packets up to the first NEWKEYS are KEXINIT, KEXDH_INIT and NEWKEYS, with one
    more KEXDH_INIT if a wrong guess was ignored: nothing can be put in between. Before the KEXINIT
    there is nothing, or so many packets that their number starts again. -/
theorem strict_kex_opening {events : List KexEvent} (hrun : Machine.run step start events = some s)
    (hrunning : s.stopped = none) (hstrict : s.strictKex = true) :
    ∃ before opening later, s.received = before ++ opening ++ later ∧
      before.length % 0x100000000 = 0 ∧
      (s.recvfirstnewkeys = true → opening = [20, 30, 21] ∨ opening = [20, 30, 30, 21]) ∧
      (s.recvfirstnewkeys = false →
        later = [] ∧ (opening <+: [20, 30, 21] ∨ opening <+: [20, 30, 30, 21])) := by
  obtain ⟨phase, -, hnumbers⟩ := (good_run hrun).exists_phase hrunning
  obtain ⟨before, opening, later, hall, hbefore, hopened⟩ := hnumbers.strict hstrict
  refine ⟨before, opening, later, hall, hbefore, ?_, ?_⟩
  · intro hfirst
    rw [Opened, if_pos hfirst] at hopened
    exact hopened
  · intro hfirst
    rw [Opened, if_neg (by simp [hfirst])] at hopened
    refine ⟨hopened.1, ?_⟩
    cases phase with
    | start => exact absurd hopened.2 id
    | ready => exact absurd hopened.2 id
    | offered =>
      rcases hopened.2 with hopening | ⟨hopening, -⟩
      · exact .inl (hopening ▸ by decide)
      · exact .inl (hopening ▸ by decide)
    | answered =>
      rcases hopened.2 with hopening | hopening
      · exact .inl (hopening ▸ by decide)
      · exact .inr (hopening ▸ by decide)

theorem strict_kex_opening_session :
    ∃ s, Machine.run step start (exampleSession.take 10) = some s ∧ s.stopped = none ∧
      s.strictKex = true ∧ ∃ before opening later, s.received = before ++ opening ++ later ∧
        before.length % 0x100000000 = 0 ∧
        (s.recvfirstnewkeys = true → opening = [20, 30, 21] ∨ opening = [20, 30, 30, 21]) ∧
        (s.recvfirstnewkeys = false →
          later = [] ∧ (opening <+: [20, 30, 21] ∨ opening <+: [20, 30, 30, 21])) := by
  have hsome : (Machine.run step start (exampleSession.take 10)).map
      (fun s => (s.stopped, s.strictKex)) = some (none, true) := by
    decide +kernel
  obtain ⟨s, hrun, hs⟩ := Option.map_eq_some_iff.mp hsome
  obtain ⟨hrunning, hstrict⟩ := Prod.mk.inj hs
  exact ⟨s, hrun, hrunning, hstrict, strict_kex_opening hrun hrunning hstrict⟩

end Sshd4a.Kex
