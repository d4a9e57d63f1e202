import Ydn64.Nat64.Udp.Setup

/-!
# The UDP translator as a machine

The flow threads of `Setup`, the reply loops with the handlers of inbound data
(`udpReplyLoop`, `demuxUDPReply`, `injectUnsolicitedUDP` and
`handleICMPv4Error`), and the cleanup goroutine of `src/nat64/service.go`, side
by side on one memory.  A label names the goroutine that moves and what the
environment decides, so a list of labels names at most one run.

The cleanup goroutine visits the entries of the two tables one by one, with
other goroutines running in between: it reads a stamp in one step and closes in
a later one.  A datagram that a reply loop has read is handled in one step; the
handler writes none of the tables.

Time is a label of its own and does not go back.
-/

namespace Ydn64.Nat64.Udp

open Ydn64.GoStd Ydn64.Config Ydn64.Lib

/-! ## Inbound datagrams -/

/-- The candidate of `demuxUDPReply` after the visit of one flow. -/
def candidate (m : Memory) (b : BibRef) (addr : Addr4) (acc : Option (SessRef × Int))
    (t : V4Tuple) : Option (SessRef × Int) :=
  match (m.flows b).lookup t with
  | none => acc
  | some r =>
    if (m.sessHeap r).map UdpSession.dstAddr = some addr then
      match acc with
      | none => some (r, m.sessSeen r)
      | some (_, seen) => if seen < m.sessSeen r then some (r, m.sessSeen r) else acc
    else acc

/-- `demuxUDPReply`.  `order` is the order in which it visits the flows. -/
def demuxUDPReply (m : Memory) (b : BibRef) (raddr : V4Tuple) (order : List V4Tuple) :
    Option SessRef :=
  match (m.flows b).lookup raddr with
  | some r => some r
  | none =>
    if m.service.settings.udpFiltering = .addressDependent then
      (order.foldl (candidate m b raddr.addr) none).map Prod.fst
    else none

/-- `injectUnsolicitedUDP`.  `accepted` is the number of packets that it hands
to `WritePacket` before one is refused. -/
def injectUnsolicitedUDP (m : Memory) (bk : BibKey) (raddr : V4Tuple) (payload : Bytes)
    (accepted : Nat) : Memory :=
  let (ok, eifLim) := m.eifLim.allowBudget m.clock eifRatePerSec eifBurst
  if ok then
    let pkt := buildIPv6UDPDatagram (m.service.pref64.embed raddr.addr) bk.srcAddr
      raddr.port bk.srcPort payload
    let ident := m.replyFragIdent + 1
    { m with
      eifLim
      replyFragIdent := ident
      injected := m.injected ++ (fragmentIPv6Packet pkt m.mtu ident).take accepted }
  else { m with eifLim }

/-- `conn6.Write` into the endpoint of a session. -/
def relay (m : Memory) (r : SessRef) (payload : Bytes) : Memory :=
  match m.sessHeap r with
  | none => m
  | some sess =>
    if m.epOpen sess.conn6 then { m with relayed := m.relayed ++ [(sess.conn6, payload)] }
    else m

/-- One datagram in `udpReplyLoop`. -/
def replyDatagram (m : Memory) (b : BibRef) (bk : BibKey) (raddr : V4Tuple) (payload : Bytes)
    (order : List V4Tuple) (accepted : Nat) : Memory :=
  match demuxUDPReply m b raddr order with
  | some r => relay m r payload
  | none =>
    if m.service.settings.udpFiltering = .endpointIndependent then
      injectUnsolicitedUDP m bk raddr payload accepted
    else m

/-- The scan of `translateUDPQuotedError`, in the order of its range. -/
def quotedSession (m : Memory) (order : List SessionKey) (inner : IcmpInnerPacket) :
    Option SessionKey :=
  order.find? fun key =>
    match (m.sessions.lookup key).bind m.sessHeap with
    | none => false
    | some sess =>
      sess.localPort = uint16At inner.l4 0 ∧ sess.localIP = inner.src ∧
        key.dstAddr = inner.dst ∧ key.dstPort = uint16At inner.l4 2

/-- One ICMPv4 error off the raw socket. -/
def icmpv4Error (m : Memory) (srcV4 : Addr4) (raw : Bytes) (order : List SessionKey) :
    Memory :=
  match handleICMPv4Error m.service.pref64 m.mtu (quotedSession m order) m.icmp srcV4 raw with
  | none => m
  | some pkt => m.injectError pkt

/-! ## Cleanup -/

/-- The next operation of `cleanupSessions`, as far as UDP goes. -/
inductive CleanupPc where
  | idle
  | sessScan (cutoff : Int) (scan : SyncMap.Scan SessionKey SessRef)
  | sessClose (cutoff : Int) (scan : SyncMap.Scan SessionKey SessRef) (r : SessRef)
  | bibScan (cutoff : Int) (scan : SyncMap.Scan BibKey BibRef)
  | bibClose (cutoff : Int) (scan : SyncMap.Scan BibKey BibRef) (bk : BibKey) (b : BibRef)
  | bibDelete (cutoff : Int) (scan : SyncMap.Scan BibKey BibRef) (bk : BibKey) (b : BibRef)
  -- the shutdown
  | stopSess (scan : SyncMap.Scan SessionKey SessRef)
  | stopBibs (scan : SyncMap.Scan BibKey BibRef)
  | stopped

/-- What the environment decides in a step of the cleanup goroutine. -/
inductive CleanupEvent where
  | tick
  | stop
  | next
  | visitSess (key : SessionKey)
  | visitBib (bk : BibKey)

/-- The cleanup goroutine takes its next operation. -/
def cleanupStep (m : Memory) : CleanupPc → CleanupEvent → Option (Memory × CleanupPc)
  | .idle, .tick =>
    some (m, if 0 < m.service.settings.udpTimeout then
      .sessScan (m.clock - m.service.settings.udpTimeout) (SyncMap.Scan.begin m.sessions)
      else .idle)
  | .idle, .stop => some (m, .stopSess (SyncMap.Scan.begin m.sessions))
  | .sessScan cutoff scan, .visitSess key =>
    match m.sessions.lookup key with
    | none => none
    | some r =>
      if key ∈ scan.visited then none
      else some (m, if m.sessSeen r < cutoff then .sessClose cutoff (scan.visit key) r
        else .sessScan cutoff (scan.visit key))
  | .sessScan cutoff scan, .next =>
    if scan.Complete m.sessions then some (m, .bibScan cutoff (SyncMap.Scan.begin m.bibs))
    else none
  | .sessClose cutoff scan r, .next =>
    match m.sessHeap r with
    | none => none
    | some sess => some (m.closeEp sess.conn6, .sessScan cutoff scan)
  | .bibScan cutoff scan, .visitBib bk =>
    match m.bibs.lookup bk with
    | none => none
    | some b =>
      if bk ∈ scan.visited then none
      else some (m, if m.bibSeen b < cutoff then .bibClose cutoff (scan.visit bk) bk b
        else .bibScan cutoff (scan.visit bk))
  | .bibScan _ scan, .next =>
    if scan.Complete m.bibs then some (m, .idle) else none
  | .bibClose cutoff scan bk b, .next =>
    match m.bibHeap b with
    | none => none
    | some bib => some (m.closeSock bib.uconn, .bibDelete cutoff scan bk b)
  | .bibDelete cutoff scan bk b, .next => some (m.deleteBib bk b, .bibScan cutoff scan)
  | .stopSess scan, .visitSess key =>
    match (m.sessions.lookup key).bind m.sessHeap with
    | none => none
    | some sess =>
      if key ∈ scan.visited then none
      else some (m.closeEp sess.conn6, .stopSess (scan.visit key))
  | .stopSess scan, .next =>
    if scan.Complete m.sessions then some (m, .stopBibs (SyncMap.Scan.begin m.bibs)) else none
  | .stopBibs scan, .visitBib bk =>
    match (m.bibs.lookup bk).bind m.bibHeap with
    | none => none
    | some bib =>
      if bk ∈ scan.visited then none
      else some (m.closeSock bib.uconn, .stopBibs (scan.visit bk))
  | .stopBibs scan, .next => if scan.Complete m.bibs then some (m, .stopped) else none
  | _, _ => none

/-! ## The machine -/

abbrev Tid := Nat

/-- A state of the translator.  `cutoff` is the cutoff of the last tick that has
ended. -/
structure State where
  mem : Memory
  threads : SyncMap Tid Pc := ∅
  cleanup : CleanupPc := .idle
  cutoff : Option Int := none

/-- Who moves, and what the environment decides. -/
inductive Label where
  | datagram (tid : Tid) (id : EndpointID)
  | thread (tid : Tid) (ev : Event)
  | cleanup (ev : CleanupEvent)
  | inbound (b : BibRef) (raddr : V4Tuple) (payload : Bytes) (order : List V4Tuple)
      (accepted : Nat)
  | inboundRefused (b : BibRef)
  | icmpError (srcV4 : Addr4) (raw : Bytes) (order : List SessionKey)
  | loopExit (b : BibRef)
  | loopDelete (b : BibRef)
  | advance (d : Nat)
  | reload (settings : Settings)
  | tcpAdd (src : Addr16)
  | tcpRemove (src : Addr16)
  | echo (l : EchoLabel)

/-- The cutoff of the last tick that has ended, after a step of the cleanup
goroutine. -/
def endedCutoff (old : Option Int) : CleanupPc → CleanupPc → Option Int
  | .bibScan cutoff _, .idle => some cutoff
  | _, _ => old

/-- The thread `tid` goes on at `pc`, or ends. -/
def setThread (threads : SyncMap Tid Pc) (tid : Tid) : Option Pc → SyncMap Tid Pc
  | none => threads.erase tid
  | some pc => threads.insert tid pc

/-- The reply loop is reading, and its socket is open. -/
def Memory.readable (m : Memory) (loop : ReplyLoop) (bib : UdpBIB) : Prop :=
  loop.pc = .reading ∧ m.sockOpen bib.uconn = true

instance (m : Memory) (loop : ReplyLoop) (bib : UdpBIB) :
    Decidable (m.readable loop bib) := inferInstanceAs (Decidable (_ ∧ _))

/-- One step of the translator, or `none` where it is not enabled. -/
def step (s : State) : Label → Option State
  | .datagram tid id =>
    match s.threads.lookup tid, parseUDPFlow s.mem.service id with
    | some _, _ => none
    | none, none => some s
    | none, some flow =>
      -- The forwarder sees datagrams that match no endpoint.
      if s.mem.demuxed flow.key then none
      else some { s with threads := s.threads.insert tid (.srcCheck flow) }
  | .thread tid ev =>
    match s.threads.lookup tid with
    | none => none
    | some pc =>
      match threadStep s.mem pc ev with
      | none => none
      | some (m, pc') => some { s with mem := m, threads := setThread s.threads tid pc' }
  | .cleanup ev =>
    match cleanupStep s.mem s.cleanup ev with
    | none => none
    | some (m, pc) =>
      some { s with mem := m, cleanup := pc, cutoff := endedCutoff s.cutoff s.cleanup pc }
  | .inbound b raddr payload order accepted =>
    match s.mem.loops b, s.mem.bibHeap b with
    | some loop, some bib =>
      if s.mem.readable loop bib ∧ ∀ t ∈ (s.mem.flows b).keys, t ∈ order then
        some { s with mem := replyDatagram s.mem b loop.bk raddr payload order accepted }
      else none
    | _, _ => none
  | .inboundRefused b =>
    match s.mem.loops b, s.mem.bibHeap b with
    | some loop, some bib => if s.mem.readable loop bib then some s else none
    | _, _ => none
  | .icmpError srcV4 raw order =>
    if ∀ key ∈ s.mem.sessions.keys, key ∈ order then
      some { s with mem := icmpv4Error s.mem srcV4 raw order }
    else none
  | .loopExit b =>
    match s.mem.loops b with
    | some ⟨bk, .reading⟩ => some { s with mem := s.mem.setLoop b ⟨bk, .exiting⟩ }
    | _ => none
  | .loopDelete b =>
    match s.mem.loops b with
    | some ⟨bk, .exiting⟩ =>
      some { s with mem := (s.mem.deleteBib bk b).setLoop b ⟨bk, .gone⟩ }
    | _ => none
  | .advance d => some { s with mem := { s.mem with clock := s.mem.clock + d } }
  | .reload settings =>
    some { s with mem := { s.mem with service := { s.mem.service with settings } } }
  | .tcpAdd src => some { s with mem := s.mem.addSrc src .srcTCP }
  | .tcpRemove src => some { s with mem := s.mem.removeSrc src .srcTCP }
  | .echo l =>
    match echoStep s.mem.service.pref64 s.mem.mtu s.mem.icmp l with
    | none => none
    | some icmp => some { s with mem := { s.mem with icmp } }

/-- The translator when it starts. -/
def State.init (service : Service) (mtu : Nat) (clock : Int) : State where
  mem := { service, mtu, clock }

end Ydn64.Nat64.Udp
