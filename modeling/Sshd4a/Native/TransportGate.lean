import Sshd4a.Native.Transport

/-!
# What may be sent when (`packet.c`)

During a key exchange `encrypt_packet` lets only messages of the exchange through and keeps the
others for later. `Gate` is that decision alone, without packets: what is allowed, what is kept, and
the payloads that were asked for and let through so far. A direction of a connection takes its steps
(`Transport.gate_step`), unless it stops.

- `transport_replies`: nothing that was kept is lost or overtaken.
- `transport_silent`: between KEXINIT and NEWKEYS the receiver sees only messages of the exchange.
-/

namespace Sshd4a

open Text Fallible

variable {σ : Type} {schedule : Nat → KeyContext σ} {strict : Bool} {t t' : Transport σ}

structure Gate where
  dataallowed : Bool
  replies : List Bytes
  requested : List Bytes
  queued : List Bytes

/-- `none` where the event cannot happen. -/
def Gate.step (g : Gate) : TransportEvent → Option Gate
  | .send payload _ =>
    if ordinary payload then
      if !g.dataallowed && deferrable payload then
        some { g with replies := g.replies ++ [payload], requested := g.requested ++ [payload] }
      else some { g with requested := g.requested ++ [payload], queued := g.queued ++ [payload] }
    else none
  | .kexinit lists _ =>
    if g.dataallowed then
      some { g with
        dataallowed := false
        requested := g.requested ++ [sshMsgKexinit :: lists]
        queued := g.queued ++ [sshMsgKexinit :: lists] }
    else none
  | .newkeys _ =>
    if g.dataallowed then none
    else some { g with
      dataallowed := true
      requested := g.requested ++ [[sshMsgNewkeys]]
      queued := g.queued ++ [[sshMsgNewkeys]] }
  | .flush _ =>
    if g.dataallowed then some { g with replies := [], queued := g.queued ++ g.replies } else some g
  | .write _ => some g
  | .read _ => some g

def Transport.gate (t : Transport σ) : Gate where
  dataallowed := t.trans.dataallowed
  replies := t.trans.replyQueue
  requested := t.requested
  queued := t.queued

/-! ## A direction takes the steps of its gate -/

/-- What `encrypt_packet` does to the deferred payloads. -/
theorem encryptPacket_gate {random : Nat → UInt8} {ses ses' : Trans σ} {payload : Bytes}
    (h : encryptPacket random ses payload = .ok ses') :
    ses'.dataallowed = ses.dataallowed ∧
      ses'.replyQueue = if ses.defers payload then ses.replyQueue ++ [payload] else ses.replyQueue := by
  cases payload with
  | nil => exact absurd h (by simp [encryptPacket])
  | cons type rest =>
    have hhead : ses.defers (type :: rest) = (!ses.dataallowed && !packetIsOkayKex type) := rfl
    rw [encryptPacket] at h
    rw [hhead]
    split at h
    next hdefer =>
      rw [if_pos hdefer]
      rw [enqueueReplyPacket] at h
      split at h
      next => exact absurd h (by simp)
      next =>
        cases h
        exact ⟨rfl, rfl⟩
    next hsend =>
      rw [if_neg hsend]
      obtain ⟨writebuf, -, h⟩ := bind_eq_ok.mp h
      obtain ⟨sealed, -, h⟩ := bind_eq_ok.mp h
      obtain ⟨writebuf', -, h⟩ := bind_eq_ok.mp h
      cases h
      exact ⟨rfl, rfl⟩

theorem flushReplies_gate {random : Nat → UInt8} {ses ses' : Trans σ} {replies : List Bytes}
    (hallowed : ses.dataallowed = true) (h : flushReplies random ses replies = .ok ses') :
    ses'.dataallowed = true := by
  induction replies generalizing ses with
  | nil =>
    cases h
    exact hallowed
  | cons payload rest ih =>
    obtain ⟨ses₁, hencrypt, hrest⟩ := bind_eq_ok.mp h
    exact ih ((encryptPacket_gate hencrypt).1.trans hallowed) hrest

theorem writePacket_gate {ses : Trans σ} {answer : SockWrite} {written : Bytes × Trans σ}
    (h : writePacket ses answer = .ok written) :
    written.2.dataallowed = ses.dataallowed ∧ written.2.replyQueue = ses.replyQueue := by
  rw [writePacket] at h
  split at h
  next => exact absurd h (by simp)
  next =>
    obtain ⟨iov, -, h⟩ := bind_eq_ok.mp h
    cases answer with
    | again =>
      cases h
      exact ⟨rfl, rfl⟩
    | failed => exact absurd h (by simp)
    | wrote n =>
      obtain ⟨queue, -, h⟩ := bind_eq_ok.mp h
      split at h
      next => exact absurd h (by simp)
      next =>
        cases h
        exact ⟨rfl, rfl⟩

theorem sendMsgKexinit_gate {random : Nat → UInt8} {lists : Bytes} {ses ses' : Trans σ}
    (hallowed : ses.dataallowed = true) (h : sendMsgKexinit random lists ses = .ok ses') :
    ses'.dataallowed = false ∧ ses'.replyQueue = ses.replyQueue := by
  obtain ⟨ses₁, hencrypt, hses⟩ := bind_eq_ok.mp h
  obtain ⟨-, hreplies⟩ := encryptPacket_gate hencrypt
  rw [if_neg (by simp [Trans.defers, hallowed])] at hreplies
  cases hses
  exact ⟨rfl, hreplies⟩

theorem sendMsgNewkeys_gate {random : Nat → UInt8} {newkeys : KeyContext σ} {ses ses' : Trans σ}
    (h : sendMsgNewkeys random newkeys strict ses = .ok ses') :
    ses'.dataallowed = true ∧ ses'.replyQueue = ses.replyQueue := by
  obtain ⟨ses₁, hencrypt, hses⟩ := bind_eq_ok.mp h
  obtain ⟨-, hreplies⟩ := encryptPacket_gate hencrypt
  have hokay : packetIsOkayKex sshMsgNewkeys = true := by decide
  rw [if_neg (by simp [Trans.defers, hokay])] at hreplies
  cases hses
  exact ⟨rfl, hreplies⟩

theorem maybeFlushReplyQueue_gate {random : Nat → UInt8} {ses ses' : Trans σ}
    (h : maybeFlushReplyQueue random ses = .ok ses') :
    ses'.dataallowed = ses.dataallowed ∧
      ses'.replyQueue = if ses.dataallowed then [] else ses.replyQueue := by
  rw [maybeFlushReplyQueue] at h
  split at h
  next hallowed =>
    obtain ⟨ses₁, hreplies, hses⟩ := bind_eq_ok.mp h
    cases hses
    exact ⟨(flushReplies_gate hallowed hreplies).trans hallowed.symm, (if_pos hallowed).symm⟩
  next hallowed =>
    cases h
    exact ⟨rfl, (if_neg hallowed).symm⟩

/-- What the sender comes to, seen at its gate. -/
theorem Transport.gate_sends (t : Transport σ) (result : Except PacketExit (Trans σ))
    (requested queued : List Bytes) :
    ((t.sends result requested queued).stopped.isSome = true ∧
        (t.sends result requested queued).gate = t.gate) ∨
      ∃ ses', result = .ok ses' ∧ (t.sends result requested queued).gate = {
        dataallowed := ses'.dataallowed
        replies := ses'.replyQueue
        requested := t.requested ++ requested
        queued := t.queued ++ queued } := by
  cases result with
  | error why => exact .inl ⟨rfl, rfl⟩
  | ok ses' => exact .inr ⟨ses', rfl, rfl⟩

theorem Transport.gate_receives (t : Transport σ)
    (result : Except PacketExit (Option Buf × Recv σ × Sock)) :
    (t.receives schedule strict result).gate = t.gate := by
  cases result with
  | error why => rfl
  | ok answer =>
    obtain ⟨payload, recv, sock⟩ := answer
    cases payload with
    | none => rfl
    | some payload =>
      simp only [Transport.receives]
      split
      next => rfl
      next => rfl

/-- **A step of a direction** is a step of its gate, or the end. -/
theorem Transport.gate_step {event : TransportEvent} (hstep : t.step schedule strict event = some t') :
    (t'.stopped.isSome = true ∧ t'.gate = t.gate) ∨ t.gate.step event = some t'.gate := by
  cases event with
  | send payload random =>
    simp only [Transport.step, Option.ite_none_right_eq_some, Bool.and_eq_true,
      Option.some.injEq] at hstep
    obtain ⟨⟨-, hpayload⟩, rfl⟩ := hstep
    rcases Transport.gate_sends t (encryptPacket random t.trans payload) [payload]
      (if t.trans.defers payload then [] else [payload]) with hstops | ⟨ses', hencrypt, hgate⟩
    · exact .inl hstops
    · obtain ⟨hallowed, hreplies⟩ := encryptPacket_gate hencrypt
      have hdefers : (!t.gate.dataallowed && deferrable payload) = t.trans.defers payload := rfl
      right
      rw [hgate, hallowed, hreplies, Gate.step, if_pos hpayload, hdefers]
      split
      next => simp only [Transport.gate, List.append_nil]
      next => rfl
  | kexinit lists random =>
    simp only [Transport.step, Option.ite_none_right_eq_some, Bool.and_eq_true,
      Option.some.injEq] at hstep
    obtain ⟨⟨⟨-, hallowed⟩, -⟩, rfl⟩ := hstep
    rcases Transport.gate_sends t (sendMsgKexinit random lists t.trans) [sshMsgKexinit :: lists]
      [sshMsgKexinit :: lists] with hstops | ⟨ses', hsend, hgate⟩
    · exact .inl hstops
    · obtain ⟨hallowed', hreplies⟩ := sendMsgKexinit_gate hallowed hsend
      right
      rw [hgate, hallowed', hreplies, Gate.step, if_pos (show t.gate.dataallowed = true from hallowed)]
      rfl
  | newkeys random =>
    simp only [Transport.step, Option.ite_none_right_eq_some, Bool.and_eq_true, Bool.not_eq_true',
      Option.some.injEq] at hstep
    obtain ⟨⟨-, hallowed⟩, rfl⟩ := hstep
    rcases Transport.gate_sends t (sendMsgNewkeys random (schedule (t.transEpoch + 1)) strict t.trans)
      [[sshMsgNewkeys]] [[sshMsgNewkeys]] with hstops | ⟨ses', hsend, hgate⟩
    · exact .inl hstops
    · obtain ⟨hallowed', hreplies⟩ := sendMsgNewkeys_gate hsend
      rw [hallowed', hreplies] at hgate
      right
      rw [Gate.step, if_neg (by simp [Transport.gate, hallowed])]
      exact congrArg some hgate.symm
  | flush random =>
    simp only [Transport.step, Option.ite_none_right_eq_some, Option.some.injEq] at hstep
    obtain ⟨-, rfl⟩ := hstep
    rcases Transport.gate_sends t (maybeFlushReplyQueue random t.trans) []
      (if t.trans.dataallowed then t.trans.replyQueue else []) with hstops | ⟨ses', hflush, hgate⟩
    · exact .inl hstops
    · obtain ⟨hallowed', hreplies⟩ := maybeFlushReplyQueue_gate hflush
      right
      rw [hgate, hallowed', hreplies, List.append_nil, Gate.step]
      cases hallowed : t.trans.dataallowed with
      | true => simp [Transport.gate, hallowed]
      | false => simp [Transport.gate, hallowed]
  | write n =>
    simp only [Transport.step, Option.ite_none_right_eq_some] at hstep
    obtain ⟨-, hwrites⟩ := hstep
    cases hwrite : writePacket t.trans (if n = 0 then .again else .wrote n) with
    | error why =>
      rw [hwrite] at hwrites
      cases hwrites
      exact .inl ⟨rfl, rfl⟩
    | ok written =>
      obtain ⟨hallowed, hreplies⟩ := writePacket_gate hwrite
      rw [hwrite] at hwrites
      cases hwrites
      right
      simp only [Gate.step, Transport.gate, hallowed, hreplies]
  | read sizes =>
    simp only [Transport.step, Option.ite_none_right_eq_some, Option.some.injEq] at hstep
    obtain ⟨-, rfl⟩ := hstep
    right
    rw [Transport.gate_receives]
    rfl

/-! ## Nothing that was kept is lost or overtaken -/

/-- Deferred payloads go out before anything that could have been deferred: `session_loop` flushes
    right after the packet that ended the exchange is processed. -/
def Gate.Prompt (g : Gate) : TransportEvent → Prop
  | .send payload _ => g.dataallowed = true → deferrable payload = true → g.replies = []
  | .kexinit _ _ => g.replies = []
  | _ => True

instance (g : Gate) : ∀ event, Decidable (g.Prompt event)
  | .send payload _ =>
    inferInstanceAs (Decidable (g.dataallowed = true → deferrable payload = true → g.replies = []))
  | .kexinit _ _ => inferInstanceAs (Decidable (g.replies = []))
  | .newkeys _ => isTrue trivial
  | .flush _ => isTrue trivial
  | .write _ => isTrue trivial
  | .read _ => isTrue trivial

/-- Where the payloads that were asked for are. -/
structure Gate.Orderly (g : Gate) : Prop where
  waiting : ∀ payload ∈ g.replies, deferrable payload = true
  deferred : g.requested.filter deferrable = g.queued.filter deferrable ++ g.replies
  others : g.requested.filter (!deferrable ·) = g.queued.filter (!deferrable ·)

theorem Gate.Orderly.push {g : Gate} (h : g.Orderly) {payload : Bytes}
    (hempty : deferrable payload = true → g.replies = []) (allowed : Bool) :
    Gate.Orderly { g with
      dataallowed := allowed
      requested := g.requested ++ [payload]
      queued := g.queued ++ [payload] } := by
  refine ⟨h.waiting, ?_, ?_⟩
  · rw [List.filter_append, List.filter_append, h.deferred]
    cases hpayload : deferrable payload with
    | true => simp [hempty hpayload]
    | false => simp [hpayload]
  · rw [List.filter_append, List.filter_append, h.others]

theorem Gate.Orderly.step {g g' : Gate} (h : g.Orderly) {event : TransportEvent}
    (hprompt : g.Prompt event) (hstep : g.step event = some g') : g'.Orderly := by
  cases event with
  | send payload random =>
    simp only [Gate.step, Option.ite_none_right_eq_some] at hstep
    obtain ⟨-, hstep⟩ := hstep
    split at hstep
    next hdefer =>
      cases hstep
      obtain ⟨-, hpayload⟩ := Bool.and_eq_true_iff.mp hdefer
      refine ⟨?_, ?_, ?_⟩
      · intro reply hreply
        rcases List.mem_append.mp hreply with hreply | hreply
        · exact h.waiting reply hreply
        · rw [List.mem_singleton.mp hreply]
          exact hpayload
      · rw [List.filter_append, h.deferred, List.filter_singleton, hpayload, List.append_assoc]
        rfl
      · rw [List.filter_append, h.others, List.filter_singleton, hpayload, Bool.not_true]
        exact List.append_nil _
    next hsend =>
      cases hstep
      apply h.push
      intro hpayload
      apply hprompt _ hpayload
      simpa [hpayload] using hsend
  | kexinit lists random =>
    simp only [Gate.step, Option.ite_none_right_eq_some, Option.some.injEq] at hstep
    obtain ⟨-, rfl⟩ := hstep
    exact h.push (fun _ => hprompt) false
  | newkeys random =>
    simp only [Gate.step, Option.ite_none_left_eq_some, Option.some.injEq] at hstep
    obtain ⟨-, rfl⟩ := hstep
    exact h.push (fun hnewkeys => absurd hnewkeys (by decide)) true
  | flush random =>
    rw [Gate.step] at hstep
    split at hstep
    next =>
      cases hstep
      have hall : g.replies.filter deferrable = g.replies := List.filter_eq_self.mpr h.waiting
      have hnone : g.replies.filter (!deferrable ·) = [] := by
        rw [List.filter_eq_nil_iff]
        intro reply hreply
        rw [h.waiting reply hreply]
        exact Bool.false_ne_true
      refine ⟨fun _ hreply => absurd hreply List.not_mem_nil, ?_, ?_⟩
      · rw [List.filter_append, hall, List.append_nil]
        exact h.deferred
      · rw [List.filter_append, hnone, List.append_nil]
        exact h.others
    next =>
      cases hstep
      exact h
  | write n =>
    cases hstep
    exact h
  | read sizes =>
    cases hstep
    exact h

/-- **Nothing is lost or overtaken.** If replies are flushed promptly, then in every run the receiver
    has got a beginning of the deferrable payloads that the sender was asked for, in that order, and
    the same of the others. Once nothing is deferred, queued or on the wire it has got them all. -/
theorem transport_replies (hkeys : ∀ n, (schedule n).Lawful) {events : List TransportEvent}
    (hprompt : Machine.Along (Transport.step schedule strict) (fun t event => t.gate.Prompt event)
      (Transport.start schedule) events)
    (hrun : Machine.run (Transport.step schedule strict) (Transport.start schedule) events = some t) :
    t.delivered.filter deferrable <+: t.requested.filter deferrable ∧
      t.delivered.filter (!deferrable ·) <+: t.requested.filter (!deferrable ·) ∧
      (t.trans.replyQueue = [] → t.trans.writequeue = [] → t.stream = [] →
        t.delivered.filter deferrable = t.requested.filter deferrable ∧
          t.delivered.filter (!deferrable ·) = t.requested.filter (!deferrable ·)) := by
  have horderly : t.gate.Orderly := by
    refine Machine.Along.invariant (I := fun t : Transport σ => t.gate.Orderly) ?_ hprompt ?_ hrun
    · intro t event t' horderly hok hstep
      rcases Transport.gate_step hstep with ⟨-, hsame⟩ | hgate
      · rw [hsame]
        exact horderly
      · exact horderly.step hok hgate
    · exact ⟨fun _ hreply => absurd hreply List.not_mem_nil, rfl, rfl⟩
  obtain ⟨hbegins, hall⟩ := (Transport.good_run hkeys hrun).delivers
  have hdeferred := horderly.deferred
  have hothers := horderly.others
  simp only [Transport.gate] at hdeferred hothers
  refine ⟨?_, ?_, ?_⟩
  · rw [hdeferred]
    exact (hbegins.filter _).trans (List.prefix_append _ _)
  · rw [hothers]
    exact hbegins.filter _
  · intro hreplies hqueue hstream
    rw [hdeferred, hothers, hall hqueue hstream, hreplies, List.append_nil]
    exact ⟨rfl, rfl⟩

theorem transport_replies_exchange :
    ∃ t, Machine.run (Transport.step exampleSchedule true) (Transport.start exampleSchedule)
        exampleExchange = some t ∧
      t.delivered.filter deferrable <+: t.requested.filter deferrable := by
  have hsome : (Machine.run (Transport.step exampleSchedule true) (Transport.start exampleSchedule)
      exampleExchange).isSome = true := by decide +kernel
  have hprompt : Machine.Along (Transport.step exampleSchedule true)
      (fun t event => t.gate.Prompt event) (Transport.start exampleSchedule) exampleExchange := by
    decide +kernel
  obtain ⟨t, hrun⟩ := Option.isSome_iff_exists.mp hsome
  exact ⟨t, hrun, (transport_replies exampleSchedule_lawful hprompt hrun).1⟩

/-! ## Between KEXINIT and NEWKEYS -/

/-- Whether an exchange goes on after a payload; `none` if the payload must not come there. -/
def kexPhase (exchanging : Bool) (payload : Bytes) : Option Bool :=
  if payload.head? = some sshMsgKexinit then if exchanging then none else some true
  else if payload.head? = some sshMsgNewkeys then if exchanging then some false else none
  else if exchanging && deferrable payload then none
  else some exchanging

/-- What was let through follows the phases. -/
structure Gate.Phased (g : Gate) : Prop where
  phases : Machine.run kexPhase false g.queued = some (!g.dataallowed)
  replies : ∀ payload ∈ g.replies, ordinary payload = true

theorem kexPhase_ordinary {payload : Bytes} (h : ordinary payload = true) {exchanging : Bool}
    (hokay : exchanging = true → deferrable payload = false) :
    kexPhase exchanging payload = some exchanging := by
  obtain ⟨-, -, hkexinit, hnewkeys⟩ := ordinary_spec h
  rw [kexPhase, if_neg hkexinit, if_neg hnewkeys, if_neg]
  rw [Bool.and_eq_true]
  rintro ⟨hexchanging, hdefers⟩
  rw [hokay hexchanging] at hdefers
  exact Bool.false_ne_true hdefers

theorem run_kexPhase_ordinary {payloads : List Bytes} (h : ∀ payload ∈ payloads, ordinary payload = true) :
    Machine.run kexPhase false payloads = some false := by
  induction payloads with
  | nil => rfl
  | cons payload rest ih =>
    rw [Machine.run_cons (kexPhase_ordinary (h payload List.mem_cons_self) (by simp))]
    exact ih fun p hmem => h p (List.mem_cons_of_mem _ hmem)

/-- One more payload. -/
theorem Gate.Phased.push {g : Gate} (h : g.Phased) {payload : Bytes} {allowed : Bool}
    (hphase : kexPhase (!g.dataallowed) payload = some (!allowed)) (requested : List Bytes) :
    Gate.Phased { g with
      dataallowed := allowed
      requested := requested
      queued := g.queued ++ [payload] } := by
  refine ⟨?_, h.replies⟩
  rw [Machine.run_append, h.phases, Option.bind_some, Machine.run_cons hphase]
  rfl

theorem Gate.Phased.step {g g' : Gate} (h : g.Phased) {event : TransportEvent}
    (hstep : g.step event = some g') : g'.Phased := by
  cases event with
  | send payload random =>
    simp only [Gate.step, Option.ite_none_right_eq_some] at hstep
    obtain ⟨hpayload, hstep⟩ := hstep
    split at hstep
    next =>
      cases hstep
      refine ⟨h.phases, ?_⟩
      intro reply hreply
      rcases List.mem_append.mp hreply with hreply | hreply
      · exact h.replies reply hreply
      · rw [List.mem_singleton.mp hreply]
        exact hpayload
    next hsend =>
      cases hstep
      apply h.push
      apply kexPhase_ordinary hpayload
      intro hexchanging
      simpa [hexchanging] using hsend
  | kexinit lists random =>
    simp only [Gate.step, Option.ite_none_right_eq_some, Option.some.injEq] at hstep
    obtain ⟨hallowed, rfl⟩ := hstep
    apply h.push
    rw [hallowed]
    rfl
  | newkeys random =>
    simp only [Gate.step, Option.ite_none_left_eq_some, Option.some.injEq] at hstep
    obtain ⟨hallowed, rfl⟩ := hstep
    apply h.push
    rw [(Bool.not_eq_true _).mp hallowed]
    rfl
  | flush random =>
    rw [Gate.step] at hstep
    split at hstep
    next hallowed =>
      cases hstep
      refine ⟨?_, fun _ hreply => absurd hreply List.not_mem_nil⟩
      rw [Machine.run_append, h.phases, Option.bind_some, hallowed]
      exact run_kexPhase_ordinary h.replies
    next =>
      cases hstep
      exact h
  | write n =>
    cases hstep
    exact h
  | read sizes =>
    cases hstep
    exact h

theorem kexPhase_exchanging {payload : Bytes} {next : Bool} (h : kexPhase true payload = some next)
    (hnewkeys : payload.head? ≠ some sshMsgNewkeys) : next = true ∧ deferrable payload = false := by
  rw [kexPhase, if_neg hnewkeys] at h
  split at h
  next => exact absurd h (by simp)
  next =>
    split at h
    next => exact absurd h (by simp)
    next hokay =>
      cases h
      exact ⟨rfl, by simpa using hokay⟩

/-- Payloads that follow the phases stay in an exchange until NEWKEYS. -/
theorem run_kexPhase_exchanging {payloads : List Bytes} {phase : Bool}
    (hrun : Machine.run kexPhase true payloads = some phase)
    (hnewkeys : ∀ payload ∈ payloads, payload.head? ≠ some sshMsgNewkeys) : phase = true := by
  induction payloads with
  | nil =>
    cases hrun
    rfl
  | cons payload rest ih =>
    obtain ⟨next, hphase, hrest⟩ := Machine.run_cons_eq_some.mp hrun
    obtain ⟨rfl, -⟩ := kexPhase_exchanging hphase (hnewkeys payload List.mem_cons_self)
    exact ih hrest fun p hmem => hnewkeys p (List.mem_cons_of_mem _ hmem)

/-- **Silence during an exchange.** In every run, whatever the receiver has got after a KEXINIT and
    before the next NEWKEYS, that NEWKEYS included, is a message of the transport layer that may be
    sent during an exchange: no service request, no second KEXINIT, nothing of authentication and
    channels. -/
theorem transport_silent (hkeys : ∀ n, (schedule n).Lawful) {events : List TransportEvent}
    (hrun : Machine.run (Transport.step schedule strict) (Transport.start schedule) events = some t)
    {before between after : List Bytes} {kexinit payload : Bytes}
    (hdelivered : t.delivered = before ++ kexinit :: (between ++ payload :: after))
    (hkexinit : kexinit.head? = some sshMsgKexinit)
    (hbetween : ∀ p ∈ between, p.head? ≠ some sshMsgNewkeys) :
    payload.head?.all packetIsOkayKex = true := by
  have hphased : t.gate.Phased := by
    refine Machine.run_invariant (I := fun t : Transport σ => t.gate.Phased) ?_ ?_ hrun
    · intro t event t' hphased hstep
      rcases Transport.gate_step hstep with ⟨-, hsame⟩ | hgate
      · rw [hsame]
        exact hphased
      · exact hphased.step hgate
    · exact ⟨rfl, fun _ hreply => absurd hreply List.not_mem_nil⟩
  obtain ⟨⟨undelivered, hqueued⟩, -⟩ := (Transport.good_run hkeys hrun).delivers
  have hphases : Machine.run kexPhase false
      (before ++ kexinit :: (between ++ payload :: (after ++ undelivered)))
      = some (!t.trans.dataallowed) := by
    have hall : before ++ kexinit :: (between ++ payload :: (after ++ undelivered)) = t.queued := by
      rw [← hqueued, hdelivered]
      simp
    rw [hall]
    exact hphased.phases
  rw [Machine.run_append, Option.bind_eq_some_iff] at hphases
  obtain ⟨phase, -, hphases⟩ := hphases
  obtain ⟨exchanging, hstart, hphases⟩ := Machine.run_cons_eq_some.mp hphases
  have hexchanging : exchanging = true := by
    rw [kexPhase, if_pos hkexinit] at hstart
    split at hstart
    next => exact absurd hstart (by simp)
    next =>
      cases hstart
      rfl
  rw [hexchanging, Machine.run_append, Option.bind_eq_some_iff] at hphases
  obtain ⟨phase', hrest, hphases⟩ := hphases
  rw [run_kexPhase_exchanging hrest hbetween] at hphases
  obtain ⟨next, hpayload, -⟩ := Machine.run_cons_eq_some.mp hphases
  by_cases hnewkeys : payload.head? = some sshMsgNewkeys
  · rw [hnewkeys]
    decide
  · obtain ⟨-, hokay⟩ := kexPhase_exchanging hpayload hnewkeys
    simpa [deferrable] using hokay

theorem transport_silent_exchange :
    ∃ t, Machine.run (Transport.step exampleSchedule true) (Transport.start exampleSchedule)
        exampleExchange = some t ∧ t.delivered = [[2, 7, 7], [20, 1, 2, 3], [21], [94, 1, 2]] ∧
      packetIsOkayKex 21 = true := by
  have hsome : (Machine.run (Transport.step exampleSchedule true) (Transport.start exampleSchedule)
      exampleExchange).map (·.delivered) = some [[2, 7, 7], [20, 1, 2, 3], [21], [94, 1, 2]] := by
    decide +kernel
  obtain ⟨t, hrun, hdelivered⟩ := Option.map_eq_some_iff.mp hsome
  have hsplit : t.delivered = [[2, 7, 7]] ++ [20, 1, 2, 3] :: ([] ++ [21] :: [[94, 1, 2]]) := hdelivered
  exact ⟨t, hrun, hdelivered, transport_silent exampleSchedule_lawful hrun hsplit rfl (by simp)⟩

end Sshd4a
