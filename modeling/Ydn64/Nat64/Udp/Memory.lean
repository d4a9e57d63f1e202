import Ydn64.Nat64.Echo
import Ydn64.Nat64.IcmpErr
import Ydn64.Nat64.SrcTracker

/-!
# The shared memory of the UDP translator

The fields of `Service` in `src/nat64/service.go` that the goroutines of
`src/nat64/udp.go` share, and the atomic operations on them.

An object of the source is a reference here.  Its fields that never change
after construction stand in one record under the reference (`UdpSession`,
`UdpBIB`, `Socket`, the key of a gVisor endpoint), and every field that changes
is a map of its own from references (`sessSeen`, `bibSeen`, `flows`,
`sockOpen`, `epOpen`).  References are drawn from one counter, so an object is
new when its reference is `nextRef`.

`udpSessions` is an `atomic.Int64` of the source and an integer here.
-/

namespace Ydn64.Nat64.Udp

open Ydn64.GoStd Ydn64.Config Ydn64.Lib

/-! ## Keys and objects -/

/-- `bibKey`. -/
structure BibKey where
  srcAddr : Addr16
  srcPort : UInt16
  deriving DecidableEq

/-- `v4Tuple`. -/
structure V4Tuple where
  addr : Addr4
  port : UInt16
  deriving DecidableEq

/-- The client socket of a session. -/
def bibKey (key : SessionKey) : BibKey := ⟨key.srcAddr, key.srcPort⟩

/-- The destination of a session. -/
def v4Tuple (key : SessionKey) : V4Tuple := ⟨key.dstAddr, key.dstPort⟩

/-- A client socket and a destination make a session key. -/
def sessionKey (bk : BibKey) (t : V4Tuple) : SessionKey :=
  ⟨bk.srcAddr, bk.srcPort, t.addr, t.port⟩

@[simp] theorem sessionKey_bibKey_v4Tuple (key : SessionKey) :
    sessionKey (bibKey key) (v4Tuple key) = key := rfl

@[simp] theorem bibKey_sessionKey (bk : BibKey) (t : V4Tuple) :
    bibKey (sessionKey bk t) = bk := rfl

@[simp] theorem v4Tuple_sessionKey (bk : BibKey) (t : V4Tuple) :
    v4Tuple (sessionKey bk t) = t := rfl

abbrev EpRef := Nat
abbrev SockRef := Nat
abbrev BibRef := Nat
abbrev SessRef := Nat

/-- A bound `udp4` socket. -/
structure Socket where
  localIP : Addr4
  localPort : UInt16
  deriving DecidableEq

/-- The constant fields of `udpBIB`.  `leftover` is no field of the source: it
is the candidate that `listenBIBSocket` still held when it returned another
one, to which nothing refers afterwards. -/
structure UdpBIB where
  uconn : SockRef
  localIP : Addr4
  localPort : UInt16
  leftover : Option SockRef
  deriving DecidableEq

/-- The constant fields of `udpSession`. -/
structure UdpSession where
  bib : BibRef
  conn6 : EpRef
  dst : V4Tuple
  dstAddr : Addr4
  localIP : Addr4
  localPort : UInt16
  deriving DecidableEq

/-- Where a reply loop stands. -/
inductive LoopPc where
  | reading
  | exiting
  | gone
  deriving DecidableEq, Repr

/-- The reply loop of a BIB entry, with its argument `bk`. -/
structure ReplyLoop where
  bk : BibKey
  pc : LoopPc
  deriving DecidableEq

/-! ## The memory -/

structure Memory where
  service : Service
  mtu : Nat
  clock : Int
  nextRef : Nat := 0
  -- The tables and the counters beside them.
  sessions : SyncMap SessionKey SessRef := ∅
  bibs : SyncMap BibKey BibRef := ∅
  udpSessions : Int := 0
  srcCounts : SrcTracker := ∅
  -- The constant fields of the objects.
  endpoints : EpRef → Option SessionKey := fun _ => none
  sockets : SockRef → Option Socket := fun _ => none
  bibHeap : BibRef → Option UdpBIB := fun _ => none
  sessHeap : SessRef → Option UdpSession := fun _ => none
  -- The reply loops; an entry is published when its loop is started.
  loops : BibRef → Option ReplyLoop := fun _ => none
  -- History, and no field of the source: the session has been in the table.
  registered : SessRef → Bool := fun _ => false
  -- The fields that change.
  epOpen : EpRef → Bool := fun _ => false
  sockOpen : SockRef → Bool := fun _ => false
  sessSeen : SessRef → Int := fun _ => 0
  bibSeen : BibRef → Int := fun _ => 0
  flows : BibRef → SyncMap V4Tuple SessRef := fun _ => ∅
  -- What the forward loops have sent.
  sent : List (SockRef × V4Tuple × Bytes) := []
  -- The synthesis paths and their output.
  errLim : ErrRateLimiter := {}
  eifLim : ErrRateLimiter := {}
  replyFragIdent : UInt32 := 0
  icmp : IcmpState := IcmpState.init 0
  relayed : List (EpRef × Bytes) := []
  injected : List Bytes := []

namespace Memory

/-- The gVisor demuxer knows an endpoint of the tuple. -/
def demuxed (m : Memory) (key : SessionKey) : Bool :=
  (List.range m.nextRef).any fun ep => m.endpoints ep = some key && m.epOpen ep

/-- `conn6.Close`. -/
def closeEp (m : Memory) (ep : EpRef) : Memory :=
  { m with epOpen := Function.update m.epOpen ep false }

/-- `uconn.Close`. -/
def closeSock (m : Memory) (sock : SockRef) : Memory :=
  { m with sockOpen := Function.update m.sockOpen sock false }

/-- Close the candidate of the last round, if there is one. -/
def closeFallback (m : Memory) (fallback : Option SockRef) : Memory :=
  { m with
    sockOpen := fallback.elim m.sockOpen fun sock => Function.update m.sockOpen sock false }

/-- The new endpoint of `CreateEndpoint`; its reference is `m.nextRef`. -/
def newEp (m : Memory) (key : SessionKey) : Memory :=
  { m with
    endpoints := Function.update m.endpoints m.nextRef (some key)
    epOpen := Function.update m.epOpen m.nextRef true
    nextRef := m.nextRef + 1 }

/-- The new socket of `net.ListenUDP`. -/
def newSock (m : Memory) (sock : Socket) : Memory :=
  { m with
    sockets := Function.update m.sockets m.nextRef (some sock)
    sockOpen := Function.update m.sockOpen m.nextRef true
    nextRef := m.nextRef + 1 }

/-- A new BIB entry, touched and not published. -/
def newBib (m : Memory) (bib : UdpBIB) : Memory :=
  { m with
    bibHeap := Function.update m.bibHeap m.nextRef (some bib)
    bibSeen := Function.update m.bibSeen m.nextRef m.clock
    nextRef := m.nextRef + 1 }

/-- A new session, stamped and not registered. -/
def newSess (m : Memory) (sess : UdpSession) : Memory :=
  { m with
    sessHeap := Function.update m.sessHeap m.nextRef (some sess)
    sessSeen := Function.update m.sessSeen m.nextRef m.clock
    nextRef := m.nextRef + 1 }

/-- A BIB entry is stored in the map and its reply loop started. -/
def publishBib (m : Memory) (bk : BibKey) (b : BibRef) : Memory :=
  { m with
    bibs := m.bibs.insert bk b
    loops := Function.update m.loops b (some ⟨bk, .reading⟩) }

/-- `s.bibs.CompareAndDelete`. -/
def deleteBib (m : Memory) (bk : BibKey) (b : BibRef) : Memory :=
  { m with bibs := (SyncMap.compareAndDelete m.bibs bk b).1 }

/-- A reply loop moves. -/
def setLoop (m : Memory) (b : BibRef) (loop : ReplyLoop) : Memory :=
  { m with loops := Function.update m.loops b (some loop) }

def storeSession (m : Memory) (key : SessionKey) (r : SessRef) : Memory :=
  { m with
    sessions := m.sessions.insert key r
    registered := Function.update m.registered r true }

def eraseSession (m : Memory) (key : SessionKey) : Memory :=
  { m with sessions := m.sessions.erase key }

/-- `s.udpSessions.Add`. -/
def addUdpSessions (m : Memory) (d : Int) : Memory :=
  { m with udpSessions := m.udpSessions + d }

def addSrc (m : Memory) (src : Addr16) (kind : SrcKind) : Memory :=
  { m with srcCounts := SrcTracker.add m.srcCounts src kind }

def removeSrc (m : Memory) (src : Addr16) (kind : SrcKind) : Memory :=
  { m with srcCounts := SrcTracker.remove m.srcCounts src kind }

/-- `bib.flows.Store`. -/
def storeFlow (m : Memory) (b : BibRef) (t : V4Tuple) (r : SessRef) : Memory :=
  { m with flows := Function.update m.flows b ((m.flows b).insert t r) }

/-- `bib.flows.CompareAndDelete`. -/
def deleteFlow (m : Memory) (b : BibRef) (t : V4Tuple) (r : SessRef) : Memory :=
  { m with
    flows := Function.update m.flows b (SyncMap.compareAndDelete (m.flows b) t r).1 }

/-- `bib.touch`. -/
def touchBib (m : Memory) (b : BibRef) : Memory :=
  { m with bibSeen := Function.update m.bibSeen b m.clock }

/-- The stamp of a session is set to the time. -/
def stampSess (m : Memory) (r : SessRef) : Memory :=
  { m with sessSeen := Function.update m.sessSeen r m.clock }

/-- A datagram leaves on the IPv4 side. -/
def send (m : Memory) (sock : SockRef) (dst : V4Tuple) (payload : Bytes) : Memory :=
  { m with sent := m.sent ++ [(sock, dst, payload)] }

/-- Hand a synthesised error to `WritePacket`, if `errLim` has a token. -/
def injectError (m : Memory) (pkt : Bytes) : Memory :=
  { m with
    errLim := (m.errLim.allow m.clock).2
    injected := if (m.errLim.allow m.clock).1 then m.injected ++ [pkt] else m.injected }

end Memory

end Ydn64.Nat64.Udp
