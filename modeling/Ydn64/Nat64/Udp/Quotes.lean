import Ydn64.Nat64.Udp.IcmpErrors
import Ydn64.Nat64.Udp.Registry

/-!
# What the errors quote

A client finds the socket that an ICMPv6 error is about by the packet that the
error quotes, so the quoted packet has to be one of its own: from the client, to
the pool address that it wrote to, with its own ports or its own identifier.

Five places build an error.  Two of them report a packet that never left on the
IPv4 side, and quote it as the client sent it.  The other three turn the tuple of
the IPv4 side round: they quote a packet from the pool address of the egress
interface to the client.

`Traced` is the translator with two things beside its memory: the goroutines of
`forwardICMP` that have not sent yet, and a history of what the clients have
sent.  `quotes_own_iff` says for every error of every run whether it quotes a
packet of the history.
-/

namespace Ydn64.Nat64.Udp

open Ydn64.GoStd Ydn64.Config Ydn64.Lib

/-! ## Packets of a client -/

/-- The ports of a datagram, or the identifier of an echo request and what
follows it. -/
inductive Transport where
  | udp (srcPort dstPort : UInt16)
  | echo (id : UInt16) (rest : Bytes)
  deriving DecidableEq

/-- A packet, as far as an error has to name it. -/
structure ClientPacket where
  src : Addr16
  dst : Addr16
  transport : Transport
  deriving DecidableEq

/-- The first has the ports or the identifier of the second, and no bytes that the
second does not start with. -/
def Transport.Begins : Transport → Transport → Prop
  | .udp srcPort dstPort, .udp srcPort' dstPort' => srcPort = srcPort' ∧ dstPort = dstPort'
  | .echo id rest, .echo id' rest' => id = id' ∧ rest <+: rest'
  | _, _ => False

instance : ∀ a b : Transport, Decidable (a.Begins b)
  | .udp .., .udp .. => inferInstanceAs (Decidable (_ ∧ _))
  | .echo .., .echo .. => inferInstanceAs (Decidable (_ ∧ _))
  | .udp .., .echo .. => isFalse id
  | .echo .., .udp .. => isFalse id

/-- The packet that an error quotes, read off its bytes. -/
def quoted (pkt : Bytes) : Option ClientPacket :=
  let inner := pkt.drop 48
  let l4 := inner.drop 40
  if byteAt inner 6 = 17 then
    some ⟨addr16At inner 8, addr16At inner 24, .udp (uint16At l4 0) (uint16At l4 2)⟩
  else if byteAt inner 6 = 58 then
    some ⟨addr16At inner 8, addr16At inner 24, .echo (uint16At l4 4) (l4.drop 6)⟩
  else none

/-- What stands in a quote. -/
def quoteTransport : Quote → Transport
  | .udp srcPort dstPort _ _ => .udp srcPort dstPort
  | .echo id seq rest => .echo id (be16 seq.toNat ++ rest)

theorem quoted_quotedPacket {pkt : Bytes} {innerSrc innerDst : Addr16} {innerTTL : UInt8}
    {q : Quote} (hpkt : pkt.drop 48 = quotedPacket innerSrc innerDst innerTTL q) :
    quoted pkt = some ⟨innerSrc, innerDst, quoteTransport q⟩ := by
  unfold quoted
  dsimp only
  rw [hpkt, quotedPacket, FixedHeader.packet_next, FixedHeader.packet_src, FixedHeader.packet_dst,
    FixedHeader.packet_drop, FixedHeader.built_src, FixedHeader.built_dst]
  cases q with
  | udp srcPort dstPort len rest =>
    have hsrc : uint16At ((Quote.udp srcPort dstPort len rest).written innerSrc innerDst) 0 =
        UInt16.ofNat srcPort.toNat := uint16At_of_drop rfl
    have hdst : uint16At ((Quote.udp srcPort dstPort len rest).written innerSrc innerDst) 2 =
        UInt16.ofNat dstPort.toNat := uint16At_of_drop rfl
    rw [if_pos (show (Quote.udp srcPort dstPort len rest).proto = 17 from rfl), hsrc, hdst,
      UInt16.ofNat_toNat, UInt16.ofNat_toNat]
    rfl
  | echo id seq rest =>
    have hid : uint16At ((Quote.echo id seq rest).written innerSrc innerDst) 4 =
        UInt16.ofNat id.toNat := uint16At_of_drop rfl
    have hproto : (Quote.echo id seq rest).proto ≠ 17 := by
      show (58 : UInt8) ≠ 17
      decide
    rw [if_neg hproto, if_pos (show (Quote.echo id seq rest).proto = 58 from rfl), hid,
      UInt16.ofNat_toNat]
    rfl

theorem quoted_errorPacket (src dst : Addr16) (errType errCode : UInt8) (extra : Nat)
    (innerSrc innerDst : Addr16) (innerTTL : UInt8) (q : Quote) :
    let pkt := buildIPv6ICMPErrorPacket src dst errType errCode extra innerSrc innerDst innerTTL
      q.proto q.segment
    addr16At pkt 24 = dst ∧
      quoted pkt = some ⟨innerSrc, innerDst, quoteTransport (q.truncate 1184)⟩ := by
  refine ⟨(errorPacket_outer src dst errType errCode extra innerSrc innerDst innerTTL q).2.2, ?_⟩
  have hdrop : (buildIPv6ICMPErrorPacket src dst errType errCode extra innerSrc innerDst innerTTL
      q.proto q.segment).drop 48 =
        quotedPacket innerSrc innerDst innerTTL (q.truncate 1184) := by
    rw [(buildIPv6ICMPErrorPacket_eq src dst errType errCode extra innerSrc innerDst innerTTL q).1,
      show 48 = 40 + 8 from rfl, ← List.drop_drop, FixedHeader.packet_drop]
    rfl
  exact quoted_quotedPacket hdrop

/-! ## The translator with its history -/

/-- The error of `forwardICMP`, where the raw socket does not take the request. -/
def forwardICMPErrorPacket (sess : IcmpSession) (f : EchoForward) : Bytes :=
  let l4 := [128, 0, 0, 0] ++ be16 sess.clientID.toNat ++ be16 f.seq.toNat ++ f.data
  buildIPv6ICMPErrorPacket sess.pool6Src sess.yggDst 1 0 0 sess.yggDst sess.pool6Src 64 58 l4

/-- The translator, the requests that `forwardICMP` has yet to send, and what the
clients have sent so far.  The history is no part of the source. -/
structure Traced where
  core : State
  forwards : List EchoForward := []
  sent : List ClientPacket := []

/-- A step of the machine, or the end of a `forwardICMP`: whether the raw socket
took the request. -/
inductive TracedLabel where
  | core (l : Label)
  | forwardICMP (f : EchoForward) (ok : Bool)

/-- The first datagram of a flow. -/
def flowPacket (flow : UdpFlow) : ClientPacket :=
  ⟨flow.key.srcAddr, flow.pool6Src, .udp flow.key.srcPort flow.key.dstPort⟩

/-- The request of a session. -/
def requestPacket (sess : IcmpSession) (f : EchoForward) : ClientPacket :=
  ⟨sess.yggDst, sess.pool6Src, .echo sess.clientID (be16 f.seq.toNat ++ f.data)⟩

/-- The packet that arrives with an event, if the translator takes it. -/
def taken (svc : Service) : Label → Option ClientPacket
  | .datagram _ id => (parseUDPFlow svc id).map flowPacket
  | .echo (.request msg src dst _) =>
    (svc.pref64.extract dst.toList).map fun _ =>
      ⟨src, dst, .echo (uint16At msg 4) (be16 (uint16At msg 6).toNat ++ msg.drop 8)⟩
  | _ => none

/-- The interceptor has checked the addresses of an echo request before it hands
the request on. -/
def Checked (svc : Service) : Label → Prop
  | .echo (.request _ src dst _) => PairAdmitted svc src dst
  | _ => True

instance (svc : Service) : ∀ l, Decidable (Checked svc l)
  | .echo (.request _ src dst _) => inferInstanceAs (Decidable (PairAdmitted svc src dst))
  | .echo (.reply ..) | .echo (.expire ..) => isTrue trivial
  | .datagram .. | .thread .. | .cleanup _ | .inbound .. | .inboundRefused _ | .icmpError ..
  | .loopExit _ | .loopDelete _ | .advance _ | .reload _ | .tcpAdd _ | .tcpRemove _ =>
    isTrue trivial

/-- What an intercepted packet does to the tables is nothing, or the work of a
request whose addresses have been checked. -/
theorem interceptICMPPacket_checked (svc : Service) (icmpConn : Bool) (st : IcmpState)
    (reasm : ReasmTable) (pkt : Bytes) (now : Int) :
    let res := interceptICMPPacket svc icmpConn st reasm pkt now
    (res.st = st ∧ res.forward = none) ∨
      ∃ msg, Checked svc (.echo (.request msg (addr16At pkt 8) (addr16At pkt 24) now)) ∧
        (res.st, res.forward) =
          handleEchoRequest svc.pref64 st msg (addr16At pkt 8) (addr16At pkt 24) now := by
  unfold interceptICMPPacket
  dsimp only
  by_cases hshort : pkt.length < 48
  · rw [if_pos hshort]
    exact .inl ⟨rfl, rfl⟩
  rw [if_neg hshort]
  split
  · split_ifs with hdst hsrc hallowed hconn hignored
    case neg =>
      cases hpay : echoPayload reasm pkt _ (addr16At pkt 8) (addr16At pkt 24) now with
      | mk reasm' payload =>
        cases payload with
        | echo msg =>
          have hchecked :
              Checked svc (.echo (.request msg (addr16At pkt 8) (addr16At pkt 24) now)) :=
            ⟨by simpa using hdst, by simpa using hsrc, by simpa using hallowed⟩
          exact .inr ⟨msg, hchecked, Prod.mk.eta⟩
        | _ => exact .inl ⟨rfl, rfl⟩
    all_goals exact .inl ⟨rfl, rfl⟩
  · exact .inl ⟨rfl, rfl⟩

/-- The goroutine that a request starts. -/
def started (pref64 : Pref64) (icmp : IcmpState) : Label → Option EchoForward
  | .echo (.request msg src dst now) => (handleEchoRequest pref64 icmp msg src dst now).2
  | _ => none

/-- One step of the translator with its history. -/
def tracedStep (t : Traced) : TracedLabel → Option Traced
  | .core l =>
    if Checked t.core.mem.service l then
      (step t.core l).map fun s =>
        { core := s
          forwards := t.forwards ++ (started t.core.mem.service.pref64 t.core.mem.icmp l).toList
          sent := t.sent ++ (taken t.core.mem.service l).toList }
    else none
  | .forwardICMP f ok =>
    if f ∈ t.forwards then
      (t.core.mem.icmp.heap.lookup f.sess).map fun sess =>
        { t with
          core := { t.core with
            mem := if ok then t.core.mem
              else t.core.mem.injectError (forwardICMPErrorPacket sess f) }
          forwards := t.forwards.erase f }
    else none

/-- The translator when it starts. -/
def Traced.init (service : Service) (mtu : Nat) (clock : Int) : Traced where
  core := State.init service mtu clock

/-- The error quotes a packet that its addressee has sent, to the pool address of
an IPv4 destination. -/
def QuotesOwn (t : Traced) (pkt : Bytes) : Prop :=
  ∃ p ∈ t.sent, ∃ q ∈ quoted pkt, p.src = addr16At pkt 24 ∧ q.src = p.src ∧ q.dst = p.dst ∧
    q.transport.Begins p.transport ∧
    ∃ v4 ∈ t.core.mem.service.pref64.extract q.dst.toList,
      q.dst = t.core.mem.service.pref64.embed v4

instance (t : Traced) (pkt : Bytes) : Decidable (QuotesOwn t pkt) :=
  inferInstanceAs (Decidable (∃ p ∈ t.sent, _))

/-- The thread has no socket for its flow. -/
def Pc.lacksSocket : Pc → Bool
  | .bibError .. => true
  | _ => false

/-- The step reports a packet that the translator could not send: there was no
socket for its flow, or the raw socket did not take it. -/
def reportsUnsent (t : Traced) : TracedLabel → Bool
  | .core (.thread tid .next) => (t.core.threads.lookup tid).any Pc.lacksSocket
  | .forwardICMP _ _ => true
  | _ => false

/-- The step handles a datagram of the IPv4 side, which it may inject. -/
def TracedLabel.relays : TracedLabel → Bool
  | .core (.inbound ..) => true
  | _ => false

/-! ## The flow of a thread -/

/-- The flow that a thread goes back to after a `deleteSession`. -/
def After.flow? : After → Option UdpFlow
  | .admitLoop flow _ _ => some flow
  | .exit => none

/-- The flow of a thread that has not registered a session yet. -/
def Pc.flow? : Pc → Option UdpFlow
  | .srcCheck flow | .admitSession flow | .admitLoop flow _ _ | .evict flow _ _ _ _
  | .createEndpoint flow | .bibLoad flow _ | .bibProbe flow _ | .bibListen flow _ _
  | .bibBind flow _ _ _ _ _ | .bibTake flow _ _ _ | .bibPublish flow _ _
  | .bibSurplus flow _ _ _ | .bibError flow _ _ | .newSession flow _ _ => some flow
  | .delClose _ _ after | .delSession _ _ after | .delCounter _ _ after | .delSrc _ _ after
  | .delFlow _ _ after => after.flow?
  | _ => none

theorem After.flow?_of_pc {after : After} {pc : Pc} (h : after.pc = some pc) :
    pc.flow? = after.flow? := by
  cases after with
  | admitLoop flow max attempt =>
    obtain rfl := Option.some.inj h
    rfl
  | exit => cases h

theorem ReadStep.flow? {m : Memory} {pc pc' : Pc} {ev : Event} (h : ReadStep m pc ev (some pc'))
    {flow : UdpFlow} (hflow : pc'.flow? = some flow) : pc.flow? = some flow := by
  generalize hpc : some pc' = res at h
  cases h with
  | pick =>
    obtain rfl := Option.some.inj hpc
    rename_i oldest _
    cases oldest <;> exact hflow
  | bindErr =>
    obtain rfl := Option.some.inj hpc
    rename_i fallback _
    cases fallback <;> exact hflow
  | delLost => exact (After.flow?_of_pc hpc.symm).symm.trans hflow
  | _ => cases hpc <;> exact hflow

theorem ThreadStep.flow? {m m' : Memory} {pc pc' : Pc} {ev : Event}
    (h : ThreadStep m pc ev m' (some pc')) {flow : UdpFlow} (hflow : pc'.flow? = some flow) :
    pc.flow? = some flow := by
  generalize hpc : some pc' = res at h
  cases h with
  | read h =>
    subst hpc
    exact h.flow? hflow
  | delFlow => exact (After.flow?_of_pc hpc.symm).symm.trans hflow
  | _ => cases hpc <;> first | exact hflow | cases hflow

/-! ## The records of the echo sessions -/

/-- The second is the first with another stamp. -/
def SameSession (sess sess' : IcmpSession) : Prop :=
  sess' = { sess with lastSeenNs := sess'.lastSeenNs }

/-- A record that is there stays as it is, but for its stamp. -/
structure KeepsRecords (st st' : IcmpState) : Prop where
  nextRef : st.nextRef ≤ st'.nextRef
  heap : ∀ r sess, r < st.nextRef → st.heap.lookup r = some sess →
    ∃ sess', st'.heap.lookup r = some sess' ∧ SameSession sess sess'

theorem KeepsRecords.of_heap_eq {st st' : IcmpState} (hheap : st'.heap = st.heap)
    (hnext : st'.nextRef = st.nextRef) : KeepsRecords st st' :=
  ⟨hnext.ge, fun _ sess _ hs => ⟨sess, hheap ▸ hs, rfl⟩⟩

theorem keepsRecords_touch (st : IcmpState) (r : IcmpRef) (now : Int) :
    KeepsRecords st (st.touch r now) :=
  ⟨(touch_maps st r now).2.2.2.ge, fun _ _ _ hs => touch_heap r now hs⟩

theorem keepsRecords_publish (st : IcmpState) (n : UInt32) (qKey : IcmpQueryKey)
    (sess : IcmpSession) :
    KeepsRecords st ({ st with icmpNextID := n }.publish qKey sess) := by
  refine ⟨Nat.le_succ _, fun r s hr hs => ⟨s, ?_, rfl⟩⟩
  show (st.heap.insert st.nextRef sess).lookup r = some s
  rw [SyncMap.lookup_insert_eq_ite, if_neg hr.ne, hs]

theorem keepsRecords_register (st : IcmpState) (srcAddr pool6Src : Addr16) (dstIPv4 : Addr4)
    (clientID : UInt16) (now : Int) :
    KeepsRecords st (registerICMPSession st srcAddr pool6Src dstIPv4 clientID now).1 := by
  obtain ⟨r, -, hres⟩ | ⟨n, hres | ⟨cand, -, -, -, -, hres⟩⟩ :=
    registerICMPSession_cases st srcAddr pool6Src dstIPv4 clientID now
  · rw [hres]
    exact keepsRecords_touch st r now
  · rw [hres]
    exact .of_heap_eq rfl rfl
  · rw [hres]
    exact keepsRecords_publish st n _ _

theorem expireICMP_heap (st : IcmpState) (now : Int) (order : List IcmpQueryKey) :
    (expireICMP st now order).heap = st.heap ∧ (expireICMP st now order).nextRef = st.nextRef := by
  unfold expireICMP
  induction order generalizing st with
  | nil => exact ⟨rfl, rfl⟩
  | cons qk order ih =>
    have hone : ∀ cutoff, (expireICMPQuery st cutoff qk).heap = st.heap ∧
        (expireICMPQuery st cutoff qk).nextRef = st.nextRef := by
      intro cutoff
      unfold expireICMPQuery
      split
      · exact ⟨rfl, rfl⟩
      · split
        · exact ⟨rfl, rfl⟩
        · split_ifs <;> exact ⟨rfl, rfl⟩
    obtain ⟨hheap, hnext⟩ := ih (expireICMPQuery st (now - icmpSessionTimeout) qk)
    exact ⟨hheap.trans (hone _).1, hnext.trans (hone _).2⟩

/-- What `handleEchoRequest` does to the tables and hands on. -/
theorem handleEchoRequest_eq (pref64 : Pref64) (st : IcmpState) (msg : Bytes)
    (src dst : Addr16) (now : Int) :
    handleEchoRequest pref64 st msg src dst now =
      match pref64.extract dst.toList with
      | none => (st, none)
      | some dstIPv4 =>
        ((registerICMPSession st src dst dstIPv4 (uint16At msg 4) now).1,
          (registerICMPSession st src dst dstIPv4 (uint16At msg 4) now).2.map fun r =>
            ⟨r, dstIPv4, uint16At msg 6, msg.drop 8⟩) := by
  unfold handleEchoRequest
  cases pref64.extract dst.toList with
  | none => rfl
  | some dstIPv4 =>
    dsimp only
    generalize registerICMPSession st src dst dstIPv4 (uint16At msg 4) now = res
    obtain ⟨st', r⟩ := res
    cases r <;> rfl

theorem echoStep_keepsRecords {pref64 : Pref64} {mtu : Int} {st st' : IcmpState} {l : EchoLabel}
    (h : echoStep pref64 mtu st l = some st') : KeepsRecords st st' := by
  cases l with
  | request msg src dst now =>
    obtain rfl := Option.some.inj h
    rw [handleEchoRequest_eq]
    cases pref64.extract dst.toList with
    | none => exact .of_heap_eq rfl rfl
    | some dstIPv4 => exact keepsRecords_register st src dst dstIPv4 _ now
  | reply srcV4 echo ident now =>
    obtain rfl := Option.some.inj h
    unfold translateICMPv4Reply
    split
    · exact .of_heap_eq rfl rfl
    · split
      · exact .of_heap_eq rfl rfl
      · exact keepsRecords_touch st _ now
  | expire now order =>
    obtain rfl := Option.some.inj h
    obtain ⟨hheap, hnext⟩ := expireICMP_heap st now order
    exact .of_heap_eq hheap hnext

/-- The record of a request that is handed on carries its tuple. -/
theorem handleEchoRequest_started {pref64 : Pref64} {st : IcmpState} (hinv : EchoInv pref64 st)
    {msg : Bytes} {src dst : Addr16} {now : Int} {f : EchoForward}
    (h : (handleEchoRequest pref64 st msg src dst now).2 = some f) :
    let st' := (handleEchoRequest pref64 st msg src dst now).1
    f.sess < st'.nextRef ∧ ∃ sess, st'.heap.lookup f.sess = some sess ∧
      requestPacket sess f =
        ⟨src, dst, .echo (uint16At msg 4) (be16 (uint16At msg 6).toNat ++ msg.drop 8)⟩ := by
  rw [handleEchoRequest_eq] at h ⊢
  cases hext : pref64.extract dst.toList with
  | none =>
    rw [hext] at h
    cases h
  | some dstIPv4 =>
    rw [hext] at h
    dsimp only at h ⊢
    obtain ⟨r, hq, hres⟩ | ⟨n, hres | ⟨cand, -, hq, -, -, hres⟩⟩ :=
      registerICMPSession_cases st src dst dstIPv4 (uint16At msg 4) now
    · -- The session of an earlier request: its record has the same pool address.
      rw [hres] at h ⊢
      obtain rfl := Option.some.inj h
      obtain ⟨s, hs⟩ := hinv.query _ _ hq
      obtain ⟨s', hs', halloc⟩ := hs.touch r now
      refine ⟨?_, s', hs'.heap, ?_⟩
      · rw [(touch_maps st r now).2.2.2]
        exact hinv.fresh _ _ hq
      · rw [requestPacket, hs'.yggDst, hs'.clientID, pref64.extract_injective hs'.extract hext]
    · rw [hres] at h
      cases h
    · rw [hres] at h ⊢
      obtain rfl := Option.some.inj h
      exact ⟨Nat.lt_succ_self _, _, Finmap.lookup_insert _, rfl⟩

/-! ## The invariant -/

/-- A request on its way has a record, and the client has sent it. -/
def ForwardOk (t : Traced) (f : EchoForward) : Prop :=
  f.sess < t.core.mem.icmp.nextRef ∧
    ∃ sess, t.core.mem.icmp.heap.lookup f.sess = some sess ∧ requestPacket sess f ∈ t.sent

/-- What holds in every state of a run. -/
structure TracedInv (t : Traced) : Prop where
  sent : ∀ p ∈ t.sent, (∃ v4, t.core.mem.service.pref64.extract p.dst.toList = some v4) ∧
    t.core.mem.service.pool6Net.contains p.src.toList = false
  flows : ∀ tid pc flow, t.core.threads.lookup tid = some pc → pc.flow? = some flow →
    flowPacket flow ∈ t.sent
  echo : EchoInv t.core.mem.service.pref64 t.core.mem.icmp
  forwards : ∀ f ∈ t.forwards, ForwardOk t f

theorem TracedInv.init (service : Service) (mtu : Nat) (clock : Int) :
    TracedInv (Traced.init service mtu clock) where
  sent := fun _ h => by cases h
  flows := fun _ _ _ h => by cases h
  echo := EchoInv.init service.pref64 0
  forwards := fun _ h => by cases h

theorem TracedInv.src_ne_dst {t : Traced} (h : TracedInv t) {p : ClientPacket}
    (hp : p ∈ t.sent) : p.src ≠ p.dst := by
  obtain ⟨⟨v4, hext⟩, hsrc⟩ := h.sent p hp
  intro he
  have hdst := ((t.core.mem.service.pref64.extract_eq_some_iff p.dst v4).1 hext).1
  rw [← he] at hdst
  exact absurd (hdst.symm.trans hsrc) (by decide)

/-! ### Steps of the machine -/

theorem parseUDPFlow_eq_some {svc : Service} {id : EndpointID} {flow : UdpFlow}
    (h : parseUDPFlow svc id = some flow) :
    svc.pref64.extract flow.pool6Src.toList = some flow.key.dstAddr ∧
      svc.pool6Net.contains flow.key.srcAddr.toList = false := by
  unfold parseUDPFlow at h
  split_ifs at h with _ _ hsrc
  cases hext : svc.pref64.extract id.localAddress with
  | none =>
    rw [hext] at h
    cases h
  | some dstV4 =>
    rw [hext] at h
    dsimp only at h
    split_ifs at h
    obtain rfl := Option.some.inj h
    exact ⟨hext, Bool.eq_false_iff.2 hsrc⟩

theorem taken_ok {svc : Service} {l : Label} {p : ClientPacket} (hl : Checked svc l)
    (hp : taken svc l = some p) :
    (∃ v4, svc.pref64.extract p.dst.toList = some v4) ∧
      svc.pool6Net.contains p.src.toList = false := by
  cases l with
  | datagram tid id =>
    obtain ⟨flow, hflow, rfl⟩ := Option.map_eq_some_iff.1 hp
    obtain ⟨hext, hsrc⟩ := parseUDPFlow_eq_some hflow
    exact ⟨⟨_, hext⟩, hsrc⟩
  | echo e =>
    cases e with
    | request msg src dst now =>
      obtain ⟨v4, hext, rfl⟩ := Option.map_eq_some_iff.1 hp
      exact ⟨⟨v4, hext⟩, hl.2.1⟩
    | _ => cases hp
  | _ => cases hp

theorem ThreadStep.frame {m m' : Memory} {pc : Pc} {ev : Event} {pc' : Option Pc}
    (h : ThreadStep m pc ev m' pc') : m'.service = m.service ∧ m'.icmp = m.icmp := by
  cases h <;> exact ⟨rfl, rfl⟩

theorem CleanupStep.frame {m m' : Memory} {pc pc' : CleanupPc} {ev : CleanupEvent}
    (h : CleanupStep m pc ev m' pc') : m' = { m with
      epOpen := m'.epOpen, sockOpen := m'.sockOpen, bibs := m'.bibs } := by
  cases h <;> rfl

theorem step_pref64 {s s' : State} {l : Label} (h : step s l = some s') :
    s'.mem.service.pref64 = s.mem.service.pref64 := by
  cases step_cases h with
  | thread _ hts => rw [hts.frame.1]
  | cleanup hcs => rw [hcs.frame]
  | _ => rfl

theorem replyDatagram_icmp (m : Memory) (b : BibRef) (bk : BibKey) (raddr : V4Tuple)
    (payload : Bytes) (order : List V4Tuple) (accepted : Nat) :
    (replyDatagram m b bk raddr payload order accepted).icmp = m.icmp := by
  unfold replyDatagram relay injectUnsolicitedUDP
  dsimp only
  split
  · split
    · rfl
    · split_ifs <;> rfl
  · split_ifs <;> rfl

/-- The events that may inject a packet. -/
def Label.injects : Label → Bool
  | .thread .. | .icmpError .. | .inbound .. => true
  | _ => false

/-- Any other event injects nothing, and moves the tables of the echo translator
if it is an echo event. -/
theorem silent_frame {s s' : State} {l : Label} (hl : l.injects = false)
    (h : step s l = some s') :
    s'.mem.injected = s.mem.injected ∧ (s'.mem.icmp = s.mem.icmp ∨ ∃ e, l = .echo e ∧
      echoStep s.mem.service.pref64 s.mem.mtu s.mem.icmp e = some s'.mem.icmp) := by
  cases l with
  | inboundRefused b =>
    simp only [step] at h
    split at h
    · split_ifs at h
      cases h
      exact ⟨rfl, .inl rfl⟩
    · cases h
  | echo e =>
    simp only [step] at h
    split at h
    · cases h
    · rename_i icmp hicmp
      cases h
      exact ⟨rfl, .inr ⟨e, rfl, hicmp⟩⟩
  | cleanup ev =>
    cases step_cases h with
    | cleanup hcs =>
      rw [hcs.frame]
      exact ⟨rfl, .inl rfl⟩
    | inbound hin => cases hin
  | thread | icmpError | inbound => cases hl
  | _ =>
    cases step_cases h with
    | inbound hin => cases hin
    | _ => exact ⟨rfl, .inl rfl⟩

/-- Only an echo event moves the tables of the echo translator. -/
theorem step_icmp {s s' : State} {l : Label} (h : step s l = some s') :
    s'.mem.icmp = s.mem.icmp ∨ ∃ e, l = .echo e ∧
      echoStep s.mem.service.pref64 s.mem.mtu s.mem.icmp e = some s'.mem.icmp := by
  cases l with
  | inbound b raddr payload order accepted =>
    simp only [step] at h
    split at h
    · split_ifs at h
      cases h
      exact .inl (replyDatagram_icmp _ _ _ _ _ _ _)
    · cases h
  | icmpError srcV4 raw order =>
    simp only [step] at h
    split_ifs at h
    cases h
    obtain hm | ⟨pkt, -, hm⟩ := icmpv4Error_cases s.mem srcV4 raw order
    · exact .inl (congrArg Memory.icmp hm)
    · left
      show (icmpv4Error s.mem srcV4 raw order).icmp = s.mem.icmp
      rw [hm]
      rfl
  | thread tid ev =>
    cases step_cases h with
    | thread _ hts => exact .inl hts.frame.2
    | inbound hl => cases hl
  | _ => exact (silent_frame rfl h).2

/-- A thread that has a flow after a step had it before, or the flow has just
arrived. -/
theorem step_flow {s s' : State} {l : Label} (h : step s l = some s') {tid : Tid} {pc : Pc}
    {flow : UdpFlow} (ht : s'.threads.lookup tid = some pc) (hflow : pc.flow? = some flow) :
    (∃ pc₀, s.threads.lookup tid = some pc₀ ∧ pc₀.flow? = some flow) ∨
      taken s.mem.service l = some (flowPacket flow) := by
  cases step_cases h with
  | datagram _ hparse =>
    rw [SyncMap.lookup_insert_eq_ite] at ht
    split_ifs at ht
    · obtain rfl := Option.some.inj ht
      obtain rfl := Option.some.inj hflow
      exact .inr (Option.map_eq_some_iff.2 ⟨_, hparse, rfl⟩)
    · exact .inl ⟨pc, ht, hflow⟩
  | thread hlookup hts =>
    rw [lookup_setThread] at ht
    split_ifs at ht with htid
    · subst ht htid
      exact .inl ⟨_, hlookup, hts.flow? hflow⟩
    · exact .inl ⟨pc, ht, hflow⟩
  | _ => exact .inl ⟨pc, ht, hflow⟩

theorem ForwardOk.mono {t t' : Traced} {f : EchoForward} (h : ForwardOk t f)
    (hkeep : KeepsRecords t.core.mem.icmp t'.core.mem.icmp) (hsent : t.sent ⊆ t'.sent) :
    ForwardOk t' f := by
  obtain ⟨hlt, sess, hsess, hmem⟩ := h
  obtain ⟨sess', hsess', hsame⟩ := hkeep.heap f.sess sess hlt hsess
  refine ⟨hlt.trans_le hkeep.nextRef, sess', hsess', hsent ?_⟩
  have hpacket : requestPacket sess' f = requestPacket sess f := by
    rw [requestPacket, requestPacket, hsame]
  rw [hpacket]
  exact hmem

theorem step_keepsRecords {s s' : State} {l : Label} (h : step s l = some s') :
    KeepsRecords s.mem.icmp s'.mem.icmp := by
  obtain hicmp | ⟨e, -, hstep⟩ := step_icmp h
  · rw [hicmp]
    exact .of_heap_eq rfl rfl
  · exact echoStep_keepsRecords hstep

/-- The goroutine that a step starts has its request in the history. -/
theorem started_ok {t t' : Traced} {l : Label} {f : EchoForward} (hinv : TracedInv t)
    (hstep : step t.core l = some t'.core)
    (hf : started t.core.mem.service.pref64 t.core.mem.icmp l = some f)
    (hsent : t'.sent = t.sent ++ (taken t.core.mem.service l).toList) : ForwardOk t' f := by
  cases l with
  | echo e =>
    cases e with
    | request msg src dst now =>
      have hicmp : t'.core.mem.icmp =
          (handleEchoRequest t.core.mem.service.pref64 t.core.mem.icmp msg src dst now).1 := by
        simp only [step, echoStep] at hstep
        rw [← Option.some.inj hstep]
      obtain ⟨hlt, sess, hsess, hpacket⟩ := handleEchoRequest_started hinv.echo hf
      rw [← hicmp] at hlt hsess
      refine ⟨hlt, sess, hsess, ?_⟩
      rw [hsent, hpacket]
      refine List.mem_append_right _ (Option.mem_toList.2 ?_)
      cases hext : t.core.mem.service.pref64.extract dst.toList with
      | none =>
        rw [started, handleEchoRequest_eq, hext] at hf
        cases hf
      | some v4 =>
        show Option.map _ (t.core.mem.service.pref64.extract dst.toList) = some _
        rw [hext]
        rfl
    | _ => cases hf
  | _ => cases hf

theorem tracedStep_core {t t' : Traced} {l : Label} (h : tracedStep t (.core l) = some t') :
    Checked t.core.mem.service l ∧ step t.core l = some t'.core ∧
      t'.forwards = t.forwards ++ (started t.core.mem.service.pref64 t.core.mem.icmp l).toList ∧
      t'.sent = t.sent ++ (taken t.core.mem.service l).toList := by
  simp only [tracedStep] at h
  split_ifs at h with hl
  obtain ⟨s, hs, rfl⟩ := Option.map_eq_some_iff.1 h
  exact ⟨hl, hs, rfl, rfl⟩

theorem tracedStep_forwardICMP {t t' : Traced} {f : EchoForward} {ok : Bool}
    (h : tracedStep t (.forwardICMP f ok) = some t') :
    f ∈ t.forwards ∧ ∃ sess, t.core.mem.icmp.heap.lookup f.sess = some sess ∧
      t' = { t with
        core := { t.core with
          mem := if ok then t.core.mem
            else t.core.mem.injectError (forwardICMPErrorPacket sess f) }
        forwards := t.forwards.erase f } := by
  simp only [tracedStep] at h
  by_cases hf : f ∈ t.forwards
  · rw [if_pos hf] at h
    obtain ⟨sess, hs, rfl⟩ := Option.map_eq_some_iff.1 h
    exact ⟨hf, sess, hs, rfl⟩
  · rw [if_neg hf] at h
    cases h

theorem TracedInv.core {t t' : Traced} {l : Label} (hinv : TracedInv t)
    (h : tracedStep t (.core l) = some t') : TracedInv t' := by
  obtain ⟨hl, hstep, hforwards, hsent⟩ := tracedStep_core h
  have hpref := step_pref64 hstep
  have hsub : t.sent ⊆ t'.sent := by
    rw [hsent]
    exact List.subset_append_left _ _
  refine ⟨?_, ?_, ?_, ?_⟩
  · intro p hp
    have hok : (∃ v4, t.core.mem.service.pref64.extract p.dst.toList = some v4) ∧
        t.core.mem.service.pool6Net.contains p.src.toList = false := by
      rw [hsent] at hp
      obtain hp | hp := List.mem_append.1 hp
      · exact hinv.sent p hp
      · exact taken_ok hl (Option.mem_toList.1 hp)
    rw [Service.pool6Net, hpref]
    exact hok
  · intro tid pc flow ht hflow
    obtain ⟨pc₀, ht₀, hflow₀⟩ | htaken := step_flow hstep ht hflow
    · exact hsub (hinv.flows tid pc₀ flow ht₀ hflow₀)
    · rw [hsent, htaken]
      exact List.mem_append_right _ (List.mem_singleton_self _)
  · rw [hpref]
    obtain hicmp | ⟨e, -, hecho⟩ := step_icmp hstep
    · rw [hicmp]
      exact hinv.echo
    · exact echoStep_inv _ hinv.echo e hecho
  · intro f hf
    rw [hforwards] at hf
    obtain hf | hf := List.mem_append.1 hf
    · exact (hinv.forwards f hf).mono (step_keepsRecords hstep) hsub
    · exact started_ok hinv hstep (Option.mem_toList.1 hf) hsent

theorem TracedInv.forwardICMP {t t' : Traced} {f : EchoForward} {ok : Bool} (hinv : TracedInv t)
    (h : tracedStep t (.forwardICMP f ok) = some t') : TracedInv t' := by
  obtain ⟨-, sess, -, rfl⟩ := tracedStep_forwardICMP h
  -- An error moves the bucket and the output alone.
  cases ok with
  | true =>
    exact ⟨hinv.sent, hinv.flows, hinv.echo,
      fun g hg => hinv.forwards g (List.mem_of_mem_erase hg)⟩
  | false =>
    exact ⟨hinv.sent, hinv.flows, hinv.echo,
      fun g hg => hinv.forwards g (List.mem_of_mem_erase hg)⟩

theorem tracedStep_inv {t t' : Traced} {l : TracedLabel} (hinv : TracedInv t)
    (h : tracedStep t l = some t') : TracedInv t' := by
  cases l with
  | core l => exact hinv.core h
  | forwardICMP f ok => exact hinv.forwardICMP h

/-! ## Where an error comes from -/

/-- The error that a step builds: one case for each of the five places. -/
inductive Builds (t : Traced) : TracedLabel → Bytes → Prop
  | translateUDPQuotedError {srcV4 raw order inner v6Type v6Code extra key} :
      Builds t (.core (.icmpError srcV4 raw order))
        (udpQuotedErrorPacket t.core.mem.service.pref64 srcV4 inner v6Type v6Code extra key)
  | translateEchoQuotedError {srcV4 raw order inner v6Type v6Code extra pkt}
      (h : translateEchoQuotedError t.core.mem.service.pref64 t.core.mem.icmp srcV4 inner v6Type
        v6Code extra = some pkt) :
      Builds t (.core (.icmpError srcV4 raw order)) pkt
  | sendUDPFlowUnreachable {tid flow ep err v6Type v6Code}
      (h : t.core.threads.lookup tid = some (.bibError flow ep err)) :
      Builds t (.core (.thread tid .next))
        (udpFlowUnreachablePacket flow.pool6Src flow.key v6Type v6Code)
  | sendUDPPortRefused {tid localIP localPort key} :
      Builds t (.core (.thread tid (.wrote .refused)))
        (udpPortRefusedPacket t.core.mem.service.pref64 localIP localPort key)
  | forwardICMP {f sess} (hf : f ∈ t.forwards)
      (h : t.core.mem.icmp.heap.lookup f.sess = some sess) :
      Builds t (.forwardICMP f false) (forwardICMPErrorPacket sess f)

theorem ne_append_singleton (pkts : List Bytes) (pkt : Bytes) : pkts ≠ pkts ++ [pkt] := by
  simp

theorem injected_of_injectError {m : Memory} {pkt pkt' : Bytes}
    (h : (m.injectError pkt).injected = m.injected ++ [pkt']) : pkt' = pkt := by
  simp only [Memory.injectError] at h
  split_ifs at h
  · exact (List.singleton_inj.1 (List.append_cancel_left h)).symm
  · simp at h

/-- Of the steps of a thread, two inject a packet. -/
theorem threadStep_injects {m m' : Memory} {pc : Pc} {ev : Event} {pc' : Option Pc} {pkt : Bytes}
    (h : threadStep m pc ev = some (m', pc')) (hpkt : m'.injected = m.injected ++ [pkt]) :
    (∃ flow ep err v6Type v6Code, pc = .bibError flow ep err ∧ ev = .next ∧
        pkt = udpFlowUnreachablePacket flow.pool6Src flow.key v6Type v6Code) ∨
      ∃ localIP localPort key, ev = .wrote .refused ∧
        pkt = udpPortRefusedPacket m.service.pref64 localIP localPort key := by
  cases threadStep_cases h with
  | bibError =>
    obtain ⟨hm, -⟩ := Prod.mk.inj (Option.some.inj h)
    rw [← hm] at hpkt
    exact .inl ⟨_, _, _, _, _, rfl, rfl, injected_of_injectError hpkt⟩
  | writeRefused =>
    simp only [threadStep] at h
    split at h
    · cases h
    · split at h
      · cases h
      · split_ifs at h
        obtain ⟨hm, -⟩ := Prod.mk.inj (Option.some.inj h)
        rw [← hm] at hpkt
        exact .inr ⟨_, _, _, rfl, injected_of_injectError hpkt⟩
  | _ => exact absurd hpkt (ne_append_singleton _ _)

theorem step_thread {s s' : State} {tid : Tid} {ev : Event}
    (h : step s (.thread tid ev) = some s') :
    ∃ pc pc', s.threads.lookup tid = some pc ∧ threadStep s.mem pc ev = some (s'.mem, pc') := by
  simp only [step] at h
  cases ht : s.threads.lookup tid with
  | none =>
    rw [ht] at h
    cases h
  | some pc =>
    rw [ht] at h
    dsimp only at h
    cases hts : threadStep s.mem pc ev with
    | none =>
      rw [hts] at h
      cases h
    | some res =>
      rw [hts] at h
      rw [← Option.some.inj h]
      exact ⟨pc, res.2, rfl, hts⟩

theorem builds_of_icmpError {t : Traced} {srcV4 : Addr4} {raw : Bytes} {order : List SessionKey}
    {pkt : Bytes} (hpkt : (icmpv4Error t.core.mem srcV4 raw order).injected =
      t.core.mem.injected ++ [pkt]) : Builds t (.core (.icmpError srcV4 raw order)) pkt := by
  obtain hm | ⟨pkt', hhandle, hm⟩ := icmpv4Error_cases t.core.mem srcV4 raw order
  · rw [hm] at hpkt
    exact absurd hpkt (ne_append_singleton _ _)
  · rw [hm] at hpkt
    obtain rfl := injected_of_injectError hpkt
    obtain ⟨inner, v6Type, v6Code, extra, -, ⟨-, key, -, rfl⟩ | ⟨-, hecho⟩⟩ :=
      handleICMPv4Error_eq_some hhandle
    · exact .translateUDPQuotedError
    · exact .translateEchoQuotedError hecho

/-- Apart from a datagram of the IPv4 side, a packet that a step injects is an
error of one of the five places. -/
theorem builds_of_injected {t t' : Traced} {l : TracedLabel} {pkt : Bytes}
    (hl : l.relays = false) (h : tracedStep t l = some t')
    (hpkt : t'.core.mem.injected = t.core.mem.injected ++ [pkt]) : Builds t l pkt := by
  cases l with
  | forwardICMP f ok =>
    obtain ⟨hf, sess, hsess, rfl⟩ := tracedStep_forwardICMP h
    cases ok with
    | true => exact absurd hpkt (ne_append_singleton _ _)
    | false =>
      obtain rfl := injected_of_injectError hpkt
      exact .forwardICMP hf hsess
  | core l =>
    obtain ⟨-, hstep, -⟩ := tracedStep_core h
    generalize t'.core = s' at hstep hpkt
    cases l with
    | thread tid ev =>
      obtain ⟨pc, pc', ht, hts⟩ := step_thread hstep
      obtain ⟨flow, ep, err, _, _, rfl, rfl, rfl⟩ | ⟨_, _, _, rfl, rfl⟩ :=
        threadStep_injects hts hpkt
      · exact .sendUDPFlowUnreachable ht
      · exact .sendUDPPortRefused
    | icmpError srcV4 raw order =>
      simp only [step] at hstep
      split_ifs at hstep
      rw [← Option.some.inj hstep] at hpkt
      exact builds_of_icmpError hpkt
    | inbound b raddr payload order accepted => cases hl
    | _ =>
      rw [(silent_frame rfl hstep).1] at hpkt
      exact absurd hpkt (ne_append_singleton _ _)

/-! ## Which errors quote a packet of their addressee -/

theorem not_quotesOwn_of_reversed {t : Traced} (hinv : TracedInv t) (src dst : Addr16)
    (errType errCode : UInt8) (extra : Nat) (innerSrc : Addr16) (innerTTL : UInt8) (q : Quote) :
    ¬ QuotesOwn t (buildIPv6ICMPErrorPacket src dst errType errCode extra innerSrc dst innerTTL
      q.proto q.segment) := by
  obtain ⟨hto, hquoted⟩ :=
    quoted_errorPacket src dst errType errCode extra innerSrc dst innerTTL q
  rintro ⟨p, hp, c, hc, hsrc, -, hdst, -⟩
  rw [hquoted] at hc
  obtain rfl := Option.some.inj hc
  exact hinv.src_ne_dst hp ((hsrc.trans hto).trans hdst)

theorem quotesOwn_of_mem {t : Traced} (hinv : TracedInv t) {client pool6Src : Addr16}
    {q : Quote} {transport : Transport}
    (hp : ⟨client, pool6Src, transport⟩ ∈ t.sent)
    (hbegins : (quoteTransport (q.truncate 1184)).Begins transport)
    (errType errCode : UInt8) (extra : Nat) (innerTTL : UInt8) :
    QuotesOwn t (buildIPv6ICMPErrorPacket pool6Src client errType errCode extra client pool6Src
      innerTTL q.proto q.segment) := by
  obtain ⟨hto, hquoted⟩ :=
    quoted_errorPacket pool6Src client errType errCode extra client pool6Src innerTTL q
  obtain ⟨⟨v4, hext⟩, -⟩ := hinv.sent _ hp
  refine ⟨_, hp, _, hquoted, hto.symm, rfl, rfl, hbegins, v4, hext, ?_⟩
  exact ((t.core.mem.service.pref64.extract_eq_some_iff _ v4).1 hext).2.1

theorem Builds.quotesOwn_iff {t : Traced} {l : TracedLabel} {pkt : Bytes} (hinv : TracedInv t)
    (h : Builds t l pkt) : QuotesOwn t pkt ↔ reportsUnsent t l = true := by
  cases h with
  | @translateUDPQuotedError srcV4 raw order inner v6Type v6Code extra key =>
    refine iff_of_false ?_ Bool.false_ne_true
    exact not_quotesOwn_of_reversed hinv _ key.srcAddr _ _ _ _ _
      (.udp (uint16At inner.l4 0) key.srcPort inner.l4.length (inner.l4.drop 8))
  | translateEchoQuotedError hecho =>
    obtain ⟨-, sess, -, rfl⟩ := translateEchoQuotedError_eq_some hecho
    refine iff_of_false ?_ Bool.false_ne_true
    exact not_quotesOwn_of_reversed hinv _ _ _ _ _ _ _ (.echo _ _ _)
  | @sendUDPPortRefused tid localIP localPort key =>
    refine iff_of_false ?_ Bool.false_ne_true
    exact not_quotesOwn_of_reversed hinv _ key.srcAddr _ _ _ _ _ (.udp localPort key.srcPort 8 [])
  | @sendUDPFlowUnreachable tid flow ep err v6Type v6Code hpc =>
    refine iff_of_true ?_ ?_
    · exact quotesOwn_of_mem hinv (q := .udp flow.key.srcPort flow.key.dstPort 8 [])
        (hinv.flows tid _ flow hpc rfl) ⟨rfl, rfl⟩ _ _ _ _
    · rw [reportsUnsent, hpc]
      rfl
  | @forwardICMP f sess hf hsess =>
    obtain ⟨-, sess', hsess', hsent⟩ := hinv.forwards f hf
    obtain rfl := Option.some.inj (hsess.symm.trans hsess')
    refine iff_of_true ?_ rfl
    exact quotesOwn_of_mem hinv (q := .echo sess.clientID f.seq f.data) hsent
      ⟨rfl, (List.prefix_append_right_inj _).2 (List.take_prefix _ _)⟩ _ _ _ _

/-- In every run, whatever the clients send and whatever arrives on the IPv4 side:
an error that the translator injects quotes a packet of its addressee exactly when
it reports a packet that could not be sent. -/
theorem quotes_own_iff (service : Service) (mtu : Nat) (clock : Int) (ls : List TracedLabel)
    (t t' : Traced) (l : TracedLabel) (pkt : Bytes)
    (hrun : run tracedStep (Traced.init service mtu clock) ls = some t)
    (hstep : tracedStep t l = some t') (hl : l.relays = false)
    (hpkt : t'.core.mem.injected = t.core.mem.injected ++ [pkt]) :
    QuotesOwn t pkt ↔ reportsUnsent t l = true := by
  have hinv : TracedInv t :=
    run_invariant_of_step (fun _ _ _ hi hl => tracedStep_inv hi hl)
      (TracedInv.init service mtu clock) hrun
  exact (builds_of_injected hl hstep hpkt).quotesOwn_iff hinv

/-- The flow of a client finds no route to `1.2.3.4`. -/
def noRoute : List TracedLabel :=
  List.map .core (arrive 0 1 ++ nexts 0 1 ++ [.thread 0 (.probed (.error .enetunreach))])

/-- The error about it quotes the datagram of the client. -/
theorem quotes_own_noRoute :
    ∃ svc ∈ flowService 1,
      ∃ t ∈ run tracedStep (Traced.init svc 1280 0) noRoute,
      ∃ t' ∈ tracedStep t (.core (.thread 0 .next)), ∃ pkt ∈ t'.core.mem.injected,
        t'.core.mem.injected = t.core.mem.injected ++ [pkt] ∧
        reportsUnsent t (.core (.thread 0 .next)) = true ∧ QuotesOwn t pkt := by
  have hrun : ∃ svc ∈ flowService 1,
      ∃ t ∈ run tracedStep (Traced.init svc 1280 0) noRoute,
      ∃ t' ∈ tracedStep t (.core (.thread 0 .next)), ∃ pkt ∈ t'.core.mem.injected,
        t'.core.mem.injected = t.core.mem.injected ++ [pkt] ∧
        reportsUnsent t (.core (.thread 0 .next)) = true := by
    decide +kernel
  obtain ⟨svc, hsvc, t, ht, t', ht', pkt, hmem, hpkt, hunsent⟩ := hrun
  refine ⟨svc, hsvc, t, ht, t', ht', pkt, hmem, hpkt, hunsent, ?_⟩
  exact (quotes_own_iff svc 1280 0 noRoute t t' _ pkt ht ht' rfl hpkt).2 hunsent

/-- Port 1000 of a client has a session with port 53 of `1.2.3.4`, through port
40000 of `192.0.2.1`. -/
def oneSession : List TracedLabel :=
  List.map .core (arrive 0 1 ++ newMapping 0 40000 ++ nexts 0 5)

/-- `1.2.3.4` answers that its port is closed, and quotes the datagram. -/
def portClosed : TracedLabel :=
  .core (.icmpError (flowKey 1).dstAddr
    ([3, 3, 0, 0, 0, 0, 0, 0] ++
      [0x45, 0, 0, 28, 0, 0, 0, 0, 64, 17, 0, 0, 192, 0, 2, 1, 1, 2, 3, 4] ++
      [0x9c, 0x40, 0, 53, 0, 8, 0, 0]) [flowKey 1])

/-- The client has sent one datagram, from its port 1000 to port 53.  The error
quotes one from port 40000 of the egress address to port 1000 of the client. -/
theorem portClosed_quotes_reversed :
    ∃ svc ∈ flowService 1,
      ∃ t ∈ run tracedStep (Traced.init svc 1280 0) oneSession,
      ∃ t' ∈ tracedStep t portClosed, ∃ pkt ∈ t'.core.mem.injected,
        t'.core.mem.injected = t.core.mem.injected ++ [pkt] ∧
        t.sent = [⟨client 1, pingDst96, .udp 1000 53⟩] ∧
        quoted pkt = some ⟨svc.pref64.embed routeIP, client 1, .udp 40000 1000⟩ ∧
        ¬ QuotesOwn t pkt := by
  decide +kernel

end Ydn64.Nat64.Udp
