import Ydn64.Nat64.Udp.Machine

/-!
# What a step can do

The inversion of the step functions: one constructor for each transition, with
the guards under which it happens.  `ReadStep` lists the steps of a flow thread
that leave the memory alone and `ThreadStep` the others; `CleanupStep` does the
same for the cleanup goroutine.  Every invariant is proved over these relations
and never unfolds a step function.
-/

namespace Ydn64.Nat64.Udp

open Ydn64.GoStd Ydn64.Config Ydn64.Lib

/-! ## Flow threads -/

/-- The steps of a flow thread that only read. -/
inductive ReadStep (m : Memory) : Pc → Event → Option Pc → Prop
  | srcShed {flow} (h : shedsSource m flow = true) : ReadStep m (.srcCheck flow) .next none
  | srcPass {flow} : ReadStep m (.srcCheck flow) .next (some (.admitSession flow))
  | unlimited {flow} : ReadStep m (.admitSession flow) .next (some (.createEndpoint flow))
  | limited {flow max} : ReadStep m (.admitSession flow) .next (some (.admitLoop flow max 0))
  | admitOk {flow max attempt} (h : m.udpSessions < max) :
      ReadStep m (.admitLoop flow max attempt) .next (some (.createEndpoint flow))
  | admitEvict {flow max attempt} : ReadStep m (.admitLoop flow max attempt) .next
      (some (.evict flow max attempt (SyncMap.Scan.begin m.sessions) none))
  | admitShed {flow max attempt} : ReadStep m (.admitLoop flow max attempt) .next none
  | visit {flow max attempt scan oldest key r} (h : m.sessions.lookup key = some r) :
      ReadStep m (.evict flow max attempt scan oldest) (.visit key)
        (some (.evict flow max attempt (scan.visit key) (Oldest.update m oldest key r)))
  | pick {flow max attempt scan oldest} (h : scan.Complete m.sessions) :
      ReadStep m (.evict flow max attempt scan oldest) .next
        (some (evictPick flow max attempt oldest))
  | epFail {flow} : ReadStep m (.createEndpoint flow) (.created false) none
  | bibFound {flow ep b} (h : m.bibs.lookup (bibKey flow.key) = some b) :
      ReadStep m (.bibLoad flow ep) .next (some (.newSession flow ep b))
  | bibMissing {flow ep} (h : m.bibs.lookup (bibKey flow.key) = none) :
      ReadStep m (.bibLoad flow ep) .next (some (.bibProbe flow ep))
  | probeOk {flow ep bindIP} :
      ReadStep m (.bibProbe flow ep) (.probed (.ok bindIP)) (some (.bibListen flow ep bindIP))
  | probeErr {flow ep err} :
      ReadStep m (.bibProbe flow ep) (.probed (.error err)) (some (.bibError flow ep err))
  | listen {flow ep bindIP want} :
      ReadStep m (.bibListen flow ep bindIP) .next (some (.bibBind flow ep bindIP want 0 none))
  | bindErr {flow ep bindIP want attempt fallback err} :
      ReadStep m (.bibBind flow ep bindIP want attempt fallback) (.bound (.error err))
        (some (bindErr flow ep fallback err))
  | lose {flow ep b actual} (h : m.bibs.lookup (bibKey flow.key) = some actual) :
      ReadStep m (.bibPublish flow ep b) .next (some (.bibSurplus flow ep b actual))
  | stale {key r r₀} (h : m.sessions.lookup key = some r₀) :
      ReadStep m (.loadOrStore key r) .next (some (.store key r))
  | readErr {key r} : ReadStep m (.fwdRead key r) (.read none) (some (.delClose r key .exit))
  | readOk {key r buf sess} (hs : m.sessHeap r = some sess) (h : m.epOpen sess.conn6 = true) :
      ReadStep m (.fwdRead key r) (.read (some buf)) (some (.fwdStamp key r buf))
  | writeErr {key r buf} :
      ReadStep m (.fwdWrite key r buf) (.wrote .failed) (some (.delClose r key .exit))
  | delLost {r key after} (h : m.sessions.lookup key ≠ some r) :
      ReadStep m (.delSession r key after) .next after.pc

/-- The steps of a flow thread. -/
inductive ThreadStep (m : Memory) : Pc → Event → Memory → Option Pc → Prop
  | read {pc ev pc'} (h : ReadStep m pc ev pc') : ThreadStep m pc ev m pc'
  | epCreate {flow} (h : m.demuxed flow.key = false) :
      ThreadStep m (.createEndpoint flow) (.created true) (m.newEp flow.key)
        (some (.bibLoad flow m.nextRef))
  | bindMatch {flow ep bindIP want attempt fallback port} :
      ThreadStep m (.bibBind flow ep bindIP want attempt fallback) (.bound (.ok port))
        (m.newSock ⟨bindIP, port⟩) (some (.bibTake flow ep m.nextRef fallback))
  | bindRetry {flow ep bindIP want attempt fallback port} :
      ThreadStep m (.bibBind flow ep bindIP want attempt fallback) (.bound (.ok port))
        ((m.newSock ⟨bindIP, port⟩).closeFallback fallback)
        (some (.bibBind flow ep bindIP want (attempt + 1) (some m.nextRef)))
  | bindLast {flow ep bindIP want attempt fallback port} :
      ThreadStep m (.bibBind flow ep bindIP want attempt fallback) (.bound (.ok port))
        ((m.newSock ⟨bindIP, port⟩).closeFallback fallback)
        (some (.bibTake flow ep m.nextRef none))
  | take {flow ep sock leftover la} (h : m.sockets sock = some la) :
      ThreadStep m (.bibTake flow ep sock leftover) .next
        (m.newBib ⟨sock, la.localIP, la.localPort, leftover⟩)
        (some (.bibPublish flow ep m.nextRef))
  | publish {flow ep b} (h : m.bibs.lookup (bibKey flow.key) = none) :
      ThreadStep m (.bibPublish flow ep b) .next (m.publishBib (bibKey flow.key) b)
        (some (.newSession flow ep b))
  | surplus {flow ep b actual bib} (h : m.bibHeap b = some bib) :
      ThreadStep m (.bibSurplus flow ep b actual) .next (m.closeSock bib.uconn)
        (some (.newSession flow ep actual))
  | bibError {flow ep err pkt} :
      ThreadStep m (.bibError flow ep err) .next (m.injectError pkt) (some (.epClose ep))
  | epClose {ep} : ThreadStep m (.epClose ep) .next (m.closeEp ep) none
  | newSession {flow ep b bib} (h : m.bibHeap b = some bib) :
      ThreadStep m (.newSession flow ep b) .next
        (m.newSess ⟨b, ep, v4Tuple flow.key, flow.key.dstAddr, bib.localIP, bib.localPort⟩)
        (some (.loadOrStore flow.key m.nextRef))
  | fresh {key r} (h : m.sessions.lookup key = none) :
      ThreadStep m (.loadOrStore key r) .next (m.storeSession key r) (some (.addCounter key r))
  | store {key r} :
      ThreadStep m (.store key r) .next (m.storeSession key r) (some (.storeFlow key r))
  | addCounter {key r} :
      ThreadStep m (.addCounter key r) .next (m.addUdpSessions 1) (some (.addSrc key r))
  | addSrc {key r} :
      ThreadStep m (.addSrc key r) .next (m.addSrc key.srcAddr .srcUDP)
        (some (.storeFlow key r))
  | storeFlow {key r sess} (h : m.sessHeap r = some sess) :
      ThreadStep m (.storeFlow key r) .next (m.storeFlow sess.bib (v4Tuple key) r)
        (some (.touchBib key r))
  | touchBib {key r sess} (h : m.sessHeap r = some sess) :
      ThreadStep m (.touchBib key r) .next (m.touchBib sess.bib) (some (.fwdRead key r))
  | fwdStamp {key r buf} :
      ThreadStep m (.fwdStamp key r buf) .next (m.stampSess r) (some (.fwdTouch key r buf))
  | fwdTouch {key r buf sess} (h : m.sessHeap r = some sess) :
      ThreadStep m (.fwdTouch key r buf) .next (m.touchBib sess.bib) (some (.fwdWrite key r buf))
  | writeOk {key r buf sess bib} (hs : m.sessHeap r = some sess)
      (hb : m.bibHeap sess.bib = some bib) (h : m.sockOpen bib.uconn = true) :
      ThreadStep m (.fwdWrite key r buf) (.wrote .ok) (m.send bib.uconn sess.dst buf)
        (some (.fwdRead key r))
  | writeRefused {key r buf pkt} :
      ThreadStep m (.fwdWrite key r buf) (.wrote .refused) (m.injectError pkt)
        (some (.fwdRead key r))
  | delClose {r key after sess} (h : m.sessHeap r = some sess) :
      ThreadStep m (.delClose r key after) .next (m.closeEp sess.conn6)
        (some (.delSession r key after))
  | delWon {r key after} (h : m.sessions.lookup key = some r) :
      ThreadStep m (.delSession r key after) .next (m.eraseSession key)
        (some (.delCounter r key after))
  | delCounter {r key after} :
      ThreadStep m (.delCounter r key after) .next (m.addUdpSessions (-1))
        (some (.delSrc r key after))
  | delSrc {r key after} :
      ThreadStep m (.delSrc r key after) .next (m.removeSrc key.srcAddr .srcUDP)
        (some (.delFlow r key after))
  | delFlow {r key after sess} (h : m.sessHeap r = some sess) :
      ThreadStep m (.delFlow r key after) .next (m.deleteFlow sess.bib (v4Tuple key) r) after.pc

variable {m m' : Memory}

theorem readStep_srcCheck (flow : UdpFlow) : ReadStep m (.srcCheck flow) .next
    (if shedsSource m flow then none else some (.admitSession flow)) := by
  split_ifs with hs
  · exact .srcShed hs
  · exact .srcPass

theorem readStep_admitSession (flow : UdpFlow) (max : Int) : ReadStep m (.admitSession flow) .next
    (some (if max ≤ 0 then .createEndpoint flow else .admitLoop flow max 0)) := by
  split_ifs
  · exact .unlimited
  · exact .limited

theorem readStep_admitLoop (flow : UdpFlow) (max : Int) (attempt : Nat) :
    ReadStep m (.admitLoop flow max attempt) .next (admitStep m flow max attempt) := by
  unfold admitStep
  split_ifs with hlt
  · exact .admitOk hlt
  · exact .admitEvict
  · exact .admitShed

theorem readStep_bibLoad (flow : UdpFlow) (ep : EpRef) : ReadStep m (.bibLoad flow ep) .next
    (some (match m.bibs.lookup (bibKey flow.key) with
      | some b => .newSession flow ep b
      | none => .bibProbe flow ep)) := by
  cases hb : m.bibs.lookup (bibKey flow.key) with
  | none => exact .bibMissing hb
  | some b => exact .bibFound hb

theorem readStep_bibProbe (flow : UdpFlow) (ep : EpRef) (res : Except Errno Addr4) :
    ReadStep m (.bibProbe flow ep) (.probed res)
      (some (match res with
        | .ok bindIP => .bibListen flow ep bindIP
        | .error err => .bibError flow ep err)) := by
  cases res with
  | ok bindIP => exact .probeOk
  | error err => exact .probeErr

theorem threadStep_bindOk (flow : UdpFlow) (ep : EpRef) (bindIP : Addr4) (want : Option UInt16)
    (attempt : Nat) (fallback : Option SockRef) (port : UInt16) :
    ThreadStep m (.bibBind flow ep bindIP want attempt fallback) (.bound (.ok port))
      (bindOk m flow ep bindIP want attempt fallback port).1
      (some (bindOk m flow ep bindIP want attempt fallback port).2) := by
  unfold bindOk
  split_ifs
  · exact .bindMatch
  · exact .bindRetry
  · exact .bindLast

theorem threadStep_cases {pc : Pc} {ev : Event} {pc' : Option Pc}
    (h : threadStep m pc ev = some (m', pc')) : ThreadStep m pc ev m' pc' := by
  revert h
  -- The guards of a branch are those of its constructor.
  fun_cases threadStep m pc ev <;> rintro ⟨⟩ <;> first
    | exact .read (by constructor <;> assumption)
    | constructor <;> assumption
    | exact .epCreate (Bool.eq_false_iff.2 (by assumption))
    | exact .read (Bool.eq_false_iff.2 (by assumption) ▸ .epFail)
    | exact .read (readStep_srcCheck _)
    | exact .read (readStep_admitSession _ _)
    | exact .read (readStep_admitLoop _ _ _)
    | exact .read (readStep_bibLoad _ _)
    | exact .read (readStep_bibProbe _ _ _)
    | exact threadStep_bindOk ..

/-! ## The cleanup goroutine -/

/-- The steps of the cleanup goroutine. -/
inductive CleanupStep (m : Memory) : CleanupPc → CleanupEvent → Memory → CleanupPc → Prop
  | tick (h : 0 < m.service.settings.udpTimeout) :
      CleanupStep m .idle .tick m (.sessScan (m.clock - m.service.settings.udpTimeout)
        (SyncMap.Scan.begin m.sessions))
  | tickNever : CleanupStep m .idle .tick m .idle
  | stop : CleanupStep m .idle .stop m (.stopSess (SyncMap.Scan.begin m.sessions))
  | sessStale {cutoff scan key r} (h : m.sessions.lookup key = some r)
      (hs : m.sessSeen r < cutoff) :
      CleanupStep m (.sessScan cutoff scan) (.visitSess key) m
        (.sessClose cutoff (scan.visit key) r)
  | sessFresh {cutoff scan key} :
      CleanupStep m (.sessScan cutoff scan) (.visitSess key) m
        (.sessScan cutoff (scan.visit key))
  | sessDone {cutoff scan} (h : scan.Complete m.sessions) :
      CleanupStep m (.sessScan cutoff scan) .next m
        (.bibScan cutoff (SyncMap.Scan.begin m.bibs))
  | sessClose {cutoff scan r sess} (h : m.sessHeap r = some sess) :
      CleanupStep m (.sessClose cutoff scan r) .next (m.closeEp sess.conn6)
        (.sessScan cutoff scan)
  | bibStale {cutoff scan bk b} (h : m.bibs.lookup bk = some b) (hs : m.bibSeen b < cutoff) :
      CleanupStep m (.bibScan cutoff scan) (.visitBib bk) m
        (.bibClose cutoff (scan.visit bk) bk b)
  | bibFresh {cutoff scan bk b} (h : m.bibs.lookup bk = some b) (hs : cutoff ≤ m.bibSeen b) :
      CleanupStep m (.bibScan cutoff scan) (.visitBib bk) m (.bibScan cutoff (scan.visit bk))
  | bibDone {cutoff scan} (h : scan.Complete m.bibs) :
      CleanupStep m (.bibScan cutoff scan) .next m .idle
  | bibClose {cutoff scan bk b bib} (h : m.bibHeap b = some bib) :
      CleanupStep m (.bibClose cutoff scan bk b) .next (m.closeSock bib.uconn)
        (.bibDelete cutoff scan bk b)
  | bibDelete {cutoff scan bk b} :
      CleanupStep m (.bibDelete cutoff scan bk b) .next (m.deleteBib bk b)
        (.bibScan cutoff scan)
  | stopSess {scan key r sess} (h : m.sessions.lookup key = some r)
      (hs : m.sessHeap r = some sess) :
      CleanupStep m (.stopSess scan) (.visitSess key) (m.closeEp sess.conn6)
        (.stopSess (scan.visit key))
  | stopSessDone {scan} :
      CleanupStep m (.stopSess scan) .next m (.stopBibs (SyncMap.Scan.begin m.bibs))
  | stopBib {scan bk b bib} (h : m.bibs.lookup bk = some b) (hb : m.bibHeap b = some bib) :
      CleanupStep m (.stopBibs scan) (.visitBib bk) (m.closeSock bib.uconn)
        (.stopBibs (scan.visit bk))
  | stopBibsDone {scan} : CleanupStep m (.stopBibs scan) .next m .stopped

theorem cleanupStep_cases {pc pc' : CleanupPc} {ev : CleanupEvent}
    (h : cleanupStep m pc ev = some (m', pc')) : CleanupStep m pc ev m' pc' := by
  revert h
  fun_cases cleanupStep m pc ev <;> rintro ⟨⟩ <;> (try split_ifs) <;> first
    | constructor <;> assumption
    | exact .bibFresh (by assumption) (not_lt.1 (by assumption))
    | obtain ⟨_, hkey, hs⟩ := Option.bind_eq_some_iff.1 (by assumption)
      exact .stopSess hkey hs
    | obtain ⟨_, hkey, hb⟩ := Option.bind_eq_some_iff.1 (by assumption)
      exact .stopBib hkey hb

/-! ## Inbound events -/

/-- The fields of the memory that the synthesis paths write. -/
structure Side where
  errLim : ErrRateLimiter
  eifLim : ErrRateLimiter
  replyFragIdent : UInt32
  icmp : IcmpState
  relayed : List (EpRef × Bytes)
  injected : List Bytes

/-- Replace the fields of the synthesis paths. -/
def Memory.withSide (m : Memory) (x : Side) : Memory :=
  { m with
    errLim := x.errLim
    eifLim := x.eifLim
    replyFragIdent := x.replyFragIdent
    icmp := x.icmp
    relayed := x.relayed
    injected := x.injected }

/-- The fields of the synthesis paths. -/
def Memory.side (m : Memory) : Side :=
  ⟨m.errLim, m.eifLim, m.replyFragIdent, m.icmp, m.relayed, m.injected⟩

theorem injectError_eq_withSide (m : Memory) (pkt : Bytes) :
    ∃ x, m.injectError pkt = m.withSide x := ⟨(m.injectError pkt).side, rfl⟩

theorem relay_eq_withSide (m : Memory) (r : SessRef) (payload : Bytes) :
    ∃ x, relay m r payload = m.withSide x := by
  refine ⟨(relay m r payload).side, ?_⟩
  unfold relay
  split
  · rfl
  · split <;> rfl

theorem injectUnsolicitedUDP_eq_withSide (m : Memory) (bk : BibKey) (raddr : V4Tuple)
    (payload : Bytes) (accepted : Nat) :
    ∃ x, injectUnsolicitedUDP m bk raddr payload accepted = m.withSide x := by
  refine ⟨(injectUnsolicitedUDP m bk raddr payload accepted).side, ?_⟩
  unfold injectUnsolicitedUDP
  dsimp only
  split <;> rfl

/-- A datagram on the IPv4 side writes nothing but the fields of the synthesis
paths, whatever the filtering. -/
theorem replyDatagram_eq_withSide (m : Memory) (b : BibRef) (bk : BibKey) (raddr : V4Tuple)
    (payload : Bytes) (order : List V4Tuple) (accepted : Nat) :
    ∃ x, replyDatagram m b bk raddr payload order accepted = m.withSide x := by
  unfold replyDatagram
  split
  · exact relay_eq_withSide m _ payload
  · split
    · exact injectUnsolicitedUDP_eq_withSide m bk raddr payload accepted
    · exact ⟨m.side, rfl⟩

theorem icmpv4Error_eq_withSide (m : Memory) (srcV4 : Addr4) (raw : Bytes)
    (order : List SessionKey) : ∃ x, icmpv4Error m srcV4 raw order = m.withSide x := by
  unfold icmpv4Error
  split
  · exact ⟨m.side, rfl⟩
  · exact injectError_eq_withSide m _

/-- The events of the IPv4 side: datagrams, port-unreachable reads and ICMP
messages.  The end of a reply loop is none of them. -/
def Label.inboundEvent : Label → Bool
  | .inbound .. | .inboundRefused _ | .icmpError .. | .echo _ => true
  | _ => false

/-! ## The machine -/

theorem lookup_setThread (threads : SyncMap Tid Pc) (tid a : Tid) (pc' : Option Pc) :
    (setThread threads tid pc').lookup a = if a = tid then pc' else threads.lookup a := by
  cases pc' with
  | none => exact SyncMap.lookup_erase_eq_ite threads a tid
  | some pc => exact SyncMap.lookup_insert_eq_ite threads a tid pc

/-- The steps of the machine. -/
inductive Step (s : State) : Label → State → Prop
  | ignored {tid id} : Step s (.datagram tid id) s
  | datagram {tid id flow} (ht : s.threads.lookup tid = none)
      (hp : parseUDPFlow s.mem.service id = some flow) (hd : s.mem.demuxed flow.key = false) :
      Step s (.datagram tid id) { s with threads := s.threads.insert tid (.srcCheck flow) }
  | thread {tid ev pc m pc'} (ht : s.threads.lookup tid = some pc)
      (h : ThreadStep s.mem pc ev m pc') :
      Step s (.thread tid ev) { s with mem := m, threads := setThread s.threads tid pc' }
  | cleanup {ev m pc} (h : CleanupStep s.mem s.cleanup ev m pc) :
      Step s (.cleanup ev)
        { s with mem := m, cleanup := pc, cutoff := endedCutoff s.cutoff s.cleanup pc }
  | inbound {l x} (h : l.inboundEvent = true) : Step s l { s with mem := s.mem.withSide x }
  | loopExit {b bk} (h : s.mem.loops b = some ⟨bk, .reading⟩) :
      Step s (.loopExit b) { s with mem := s.mem.setLoop b ⟨bk, .exiting⟩ }
  | loopDelete {b bk} (h : s.mem.loops b = some ⟨bk, .exiting⟩) :
      Step s (.loopDelete b) { s with mem := (s.mem.deleteBib bk b).setLoop b ⟨bk, .gone⟩ }
  | advance {d : Nat} :
      Step s (.advance d) { s with mem := { s.mem with clock := s.mem.clock + d } }
  | reload {settings} : Step s (.reload settings)
      { s with mem := { s.mem with service := { s.mem.service with settings } } }
  | tcpAdd {src} : Step s (.tcpAdd src) { s with mem := s.mem.addSrc src .srcTCP }
  | tcpRemove {src} : Step s (.tcpRemove src) { s with mem := s.mem.removeSrc src .srcTCP }

theorem Step.of_withSide {s : State} {l : Label} {m : Memory} (hl : l.inboundEvent = true)
    (h : ∃ x, m = s.mem.withSide x) : Step s l { s with mem := m } := by
  obtain ⟨x, rfl⟩ := h
  exact .inbound hl

theorem step_cases {s s' : State} {l : Label} (h : step s l = some s') : Step s l s' := by
  revert h
  fun_cases step s l <;> rintro ⟨⟩ <;> first
    | exact .ignored
    | exact .datagram (by assumption) (by assumption) (Bool.eq_false_iff.2 (by assumption))
    | exact .thread (by assumption) (threadStep_cases (by assumption))
    | exact .cleanup (cleanupStep_cases (by assumption))
    | exact .of_withSide rfl (replyDatagram_eq_withSide ..)
    | exact .of_withSide rfl (icmpv4Error_eq_withSide ..)
    | exact .of_withSide rfl ⟨s.mem.side, rfl⟩
    | exact .of_withSide rfl ⟨{ s.mem.side with icmp := _ }, rfl⟩
    | constructor <;> assumption

end Ydn64.Nat64.Udp
