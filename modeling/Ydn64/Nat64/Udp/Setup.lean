import Ydn64.Nat64.Udp.Memory

/-!
# The goroutines of a UDP flow

`handleUDPForward` of `src/nat64/udp.go` with everything it calls, and the
forward loop that it ends in.  The handler runs in the packet path up to
`CreateEndpoint`, starts a goroutine for the rest, and that goroutine starts
the forward loop as its last action; so one flow is one thread of control, and
`Pc` is where it stands.

A step of a thread (`threadStep`) is one operation on the shared memory: one
call on a `sync.Map`, a counter or `srcTracker`, one stamp, one `Close`, one
system call.  What the environment decides, the answer of a system call or the
entry that an iteration visits next, is the event of the step.  The check of
the per-source ceiling, the visit of an entry together with the load of its
stamp, and the stamp of an object that no other goroutine can reach are one
step each.
-/

namespace Ydn64.Nat64.Udp

open Ydn64.GoStd Ydn64.Config Ydn64.Lib

/-! ## Control -/

/-- Where `deleteSession` returns to. -/
inductive After where
  | admitLoop (flow : UdpFlow) (max : Int) (attempt : Nat)
  | exit

/-- The oldest session that `evictOldestIdleUDPSession` has seen so far. -/
structure Oldest where
  key : SessionKey
  sess : SessRef
  seen : Int

/-- The next operation of a thread. -/
inductive Pc where
  -- `handleUDPForward` in the packet path
  | srcCheck (flow : UdpFlow)
  | admitSession (flow : UdpFlow)
  | admitLoop (flow : UdpFlow) (max : Int) (attempt : Nat)
  | evict (flow : UdpFlow) (max : Int) (attempt : Nat)
      (scan : SyncMap.Scan SessionKey SessRef) (oldest : Option Oldest)
  | createEndpoint (flow : UdpFlow)
  -- `getOrCreateBIB`
  | bibLoad (flow : UdpFlow) (ep : EpRef)
  | bibProbe (flow : UdpFlow) (ep : EpRef)
  | bibListen (flow : UdpFlow) (ep : EpRef) (bindIP : Addr4)
  | bibBind (flow : UdpFlow) (ep : EpRef) (bindIP : Addr4) (want : Option UInt16)
      (attempt : Nat) (fallback : Option SockRef)
  | bibTake (flow : UdpFlow) (ep : EpRef) (sock : SockRef) (leftover : Option SockRef)
  | bibPublish (flow : UdpFlow) (ep : EpRef) (b : BibRef)
  | bibSurplus (flow : UdpFlow) (ep : EpRef) (b actual : BibRef)
  | bibError (flow : UdpFlow) (ep : EpRef) (err : Errno)
  | epClose (ep : EpRef)
  -- the registration
  | newSession (flow : UdpFlow) (ep : EpRef) (b : BibRef)
  | loadOrStore (key : SessionKey) (r : SessRef)
  | store (key : SessionKey) (r : SessRef)
  | addCounter (key : SessionKey) (r : SessRef)
  | addSrc (key : SessionKey) (r : SessRef)
  | storeFlow (key : SessionKey) (r : SessRef)
  | touchBib (key : SessionKey) (r : SessRef)
  -- `udpForwardLoop`
  | fwdRead (key : SessionKey) (r : SessRef)
  | fwdStamp (key : SessionKey) (r : SessRef) (buf : Bytes)
  | fwdTouch (key : SessionKey) (r : SessRef) (buf : Bytes)
  | fwdWrite (key : SessionKey) (r : SessRef) (buf : Bytes)
  -- `deleteSession`
  | delClose (r : SessRef) (key : SessionKey) (after : After)
  | delSession (r : SessRef) (key : SessionKey) (after : After)
  | delCounter (r : SessRef) (key : SessionKey) (after : After)
  | delSrc (r : SessRef) (key : SessionKey) (after : After)
  | delFlow (r : SessRef) (key : SessionKey) (after : After)

/-- How a `WriteToUDP` ends. -/
inductive WriteResult where
  | ok
  | refused
  | failed
  deriving DecidableEq, Repr

/-- What the environment decides in a step of a thread. -/
inductive Event where
  | next
  | visit (key : SessionKey)
  | created (ok : Bool)
  | probed (res : Except Errno Addr4)
  | bound (res : Except Errno UInt16)
  | read (res : Option Bytes)
  | wrote (res : WriteResult)

/-- `math.MaxInt64`. -/
def maxInt64 : Int := 2 ^ 63 - 1

/-- The attempts of the loop in `admitUDPSession`. -/
def admitAttempts : Nat := 8

def bibParityAttempts : Nat := 8

/-- Where a thread goes after `deleteSession`. -/
def After.pc : After → Option Pc
  | .admitLoop flow max attempt => some (.admitLoop flow max attempt)
  | .exit => none

/-! ## The pieces of the handler -/

/-- The per-source check of `handleUDPForward` sheds the flow. -/
def shedsSource (m : Memory) (flow : UdpFlow) : Bool :=
  0 < m.service.settings.maxUDPSessionsPerSrc ∧
    m.service.settings.maxUDPSessionsPerSrc ≤
      SrcTracker.count m.srcCounts flow.key.srcAddr .srcUDP

/-- The loop of `admitUDPSession`, and the check after it. -/
def admitStep (m : Memory) (flow : UdpFlow) (max : Int) (attempt : Nat) : Option Pc :=
  if m.udpSessions < max then some (.createEndpoint flow)
  else if attempt < admitAttempts then
    some (.evict flow max attempt (SyncMap.Scan.begin m.sessions) none)
  else none

/-- One visit of `evictOldestIdleUDPSession`. -/
def Oldest.update (m : Memory) (oldest : Option Oldest) (key : SessionKey) (r : SessRef) :
    Option Oldest :=
  if m.sessSeen r < (oldest.map Oldest.seen).getD maxInt64 then some ⟨key, r, m.sessSeen r⟩
  else oldest

/-- The end of the iteration. -/
def evictPick (flow : UdpFlow) (max : Int) (attempt : Nat) : Option Oldest → Pc
  | none => .admitLoop flow max (attempt + 1)
  | some o => .delClose o.sess o.key (.admitLoop flow max (attempt + 1))

/-- The port has the wanted parity; without a wanted one every port has. -/
def parityOk (want : Option UInt16) (port : UInt16) : Bool :=
  want.all fun parity => port &&& 1 = parity

/-- A candidate of `listenBIBSocket` is bound; its reference is `m.nextRef`. -/
def bindOk (m : Memory) (flow : UdpFlow) (ep : EpRef) (bindIP : Addr4) (want : Option UInt16)
    (attempt : Nat) (fallback : Option SockRef) (port : UInt16) : Memory × Pc :=
  -- The match is returned with the candidate of the last round still open.
  if parityOk want port then
    (m.newSock ⟨bindIP, port⟩, .bibTake flow ep m.nextRef fallback)
  else
    ((m.newSock ⟨bindIP, port⟩).closeFallback fallback,
      if attempt + 1 < bibParityAttempts then
        .bibBind flow ep bindIP want (attempt + 1) (some m.nextRef)
      else .bibTake flow ep m.nextRef none)

/-- A bind of `listenBIBSocket` fails. -/
def bindErr (flow : UdpFlow) (ep : EpRef) (fallback : Option SockRef) (err : Errno) : Pc :=
  match fallback with
  | some sock => .bibTake flow ep sock none
  | none => .bibError flow ep err

/-! ## The step of a thread -/

/-- A thread takes its next operation: the memory afterwards and where the
thread goes, which is `none` where it ends. -/
def threadStep (m : Memory) : Pc → Event → Option (Memory × Option Pc)
  | .srcCheck flow, .next =>
    some (m, if shedsSource m flow then none else some (.admitSession flow))
  | .admitSession flow, .next =>
    some (m, some (if m.service.settings.maxUDPSessions ≤ 0 then .createEndpoint flow
      else .admitLoop flow m.service.settings.maxUDPSessions 0))
  | .admitLoop flow max attempt, .next => some (m, admitStep m flow max attempt)
  | .evict flow max attempt scan oldest, .visit key =>
    match m.sessions.lookup key with
    | none => none
    | some r =>
      if key ∈ scan.visited then none
      else some (m, some (.evict flow max attempt (scan.visit key)
        (Oldest.update m oldest key r)))
  | .evict flow max attempt scan oldest, .next =>
    if scan.Complete m.sessions then some (m, some (evictPick flow max attempt oldest))
    else none
  | .createEndpoint flow, .created ok =>
    if ok then
      if m.demuxed flow.key then none
      else some (m.newEp flow.key, some (.bibLoad flow m.nextRef))
    else some (m, none)
  | .bibLoad flow ep, .next =>
    some (m, some (match m.bibs.lookup (bibKey flow.key) with
      | some b => .newSession flow ep b
      | none => .bibProbe flow ep))
  | .bibProbe flow ep, .probed res =>
    some (m, some (match res with
      | .ok bindIP => .bibListen flow ep bindIP
      | .error err => .bibError flow ep err))
  | .bibListen flow ep bindIP, .next =>
    some (m, some (.bibBind flow ep bindIP
      (if m.service.settings.portParity = .preserve then some (flow.key.srcPort &&& 1)
        else none) 0 none))
  | .bibBind flow ep bindIP want attempt fallback, .bound res =>
    match res with
    | .ok port =>
      some ((bindOk m flow ep bindIP want attempt fallback port).1,
        some (bindOk m flow ep bindIP want attempt fallback port).2)
    | .error err => some (m, some (bindErr flow ep fallback err))
  | .bibTake flow ep sock leftover, .next =>
    match m.sockets sock with
    | none => none
    | some la =>
      some (m.newBib ⟨sock, la.localIP, la.localPort, leftover⟩,
        some (.bibPublish flow ep m.nextRef))
  | .bibPublish flow ep b, .next =>
    match m.bibs.lookup (bibKey flow.key) with
    | some actual => some (m, some (.bibSurplus flow ep b actual))
    | none => some (m.publishBib (bibKey flow.key) b, some (.newSession flow ep b))
  | .bibSurplus flow ep b actual, .next =>
    match m.bibHeap b with
    | none => none
    | some bib => some (m.closeSock bib.uconn, some (.newSession flow ep actual))
  | .bibError flow ep err, .next =>
    some (m.injectError (udpFlowUnreachablePacket flow.pool6Src flow.key
      (dialErrorToUnreachable err).1 (dialErrorToUnreachable err).2), some (.epClose ep))
  | .epClose ep, .next => some (m.closeEp ep, none)
  | .newSession flow ep b, .next =>
    match m.bibHeap b with
    | none => none
    | some bib =>
      some (m.newSess ⟨b, ep, v4Tuple flow.key, flow.key.dstAddr, bib.localIP, bib.localPort⟩,
        some (.loadOrStore flow.key m.nextRef))
  | .loadOrStore key r, .next =>
    match m.sessions.lookup key with
    | some _ => some (m, some (.store key r))
    | none => some (m.storeSession key r, some (.addCounter key r))
  | .store key r, .next => some (m.storeSession key r, some (.storeFlow key r))
  | .addCounter key r, .next => some (m.addUdpSessions 1, some (.addSrc key r))
  | .addSrc key r, .next => some (m.addSrc key.srcAddr .srcUDP, some (.storeFlow key r))
  | .storeFlow key r, .next =>
    match m.sessHeap r with
    | none => none
    | some sess => some (m.storeFlow sess.bib (v4Tuple key) r, some (.touchBib key r))
  | .touchBib key r, .next =>
    match m.sessHeap r with
    | none => none
    | some sess => some (m.touchBib sess.bib, some (.fwdRead key r))
  | .fwdRead key r, .read res =>
    match res with
    | none => some (m, some (.delClose r key .exit))
    | some buf =>
      match m.sessHeap r with
      | none => none
      | some sess => if m.epOpen sess.conn6 then some (m, some (.fwdStamp key r buf)) else none
  | .fwdStamp key r buf, .next => some (m.stampSess r, some (.fwdTouch key r buf))
  | .fwdTouch key r buf, .next =>
    match m.sessHeap r with
    | none => none
    | some sess => some (m.touchBib sess.bib, some (.fwdWrite key r buf))
  | .fwdWrite key r buf, .wrote res =>
    match m.sessHeap r with
    | none => none
    | some sess =>
      match m.bibHeap sess.bib with
      | none => none
      | some bib =>
        match res with
        | .failed => some (m, some (.delClose r key .exit))
        | .ok =>
          if m.sockOpen bib.uconn then
            some (m.send bib.uconn sess.dst buf, some (.fwdRead key r))
          else none
        | .refused =>
          if m.sockOpen bib.uconn then
            some (m.injectError (udpPortRefusedPacket m.service.pref64 sess.localIP
              sess.localPort key), some (.fwdRead key r))
          else none
  | .delClose r key after, .next =>
    match m.sessHeap r with
    | none => none
    | some sess => some (m.closeEp sess.conn6, some (.delSession r key after))
  | .delSession r key after, .next =>
    if m.sessions.lookup key = some r then
      some (m.eraseSession key, some (.delCounter r key after))
    else some (m, after.pc)
  | .delCounter r key after, .next => some (m.addUdpSessions (-1), some (.delSrc r key after))
  | .delSrc r key after, .next =>
    some (m.removeSrc key.srcAddr .srcUDP, some (.delFlow r key after))
  | .delFlow r key after, .next =>
    match m.sessHeap r with
    | none => none
    | some sess => some (m.deleteFlow sess.bib (v4Tuple key) r, after.pc)
  | _, _ => none

end Ydn64.Nat64.Udp
