import Ydn64.Config.AppConfig
import Ydn64.Lib.Run
import Ydn64.Lib.SyncMap

/-!
# The two listeners of the DNS server

`serveUDP`, `serveTCP` and `serveTCPConn` of `src/dns64/server.go`, with the
semaphore that both draw on.  A datagram has a goroutine of its own.  A TCP
connection has a reader and a goroutine for every query that the reader takes off
the pipeline; they share the slots of the connection, the wait group that the
reader waits on at the end, and the mutex around the writes and the flag `broken`.

The program counters (`UdpPc`, `ReaderPc`, `QueryPc` and those of the two accept
loops) stand at single operations on what is shared, and `step` lets any goroutine
move next.  What the network, the rate limiter and a client do is open: the label
says whether a read, a check, a wait or a write succeeds.  What a query asks and
what the answer is does not matter here.

`QueryMove` and `ReaderMove` say what one operation of a connection can do.
-/

namespace Ydn64.Dns64.Server

open Ydn64.Config Ydn64.Lib

def maxTCPQueriesInFlight : Nat := 32

/-! ## What everything shares -/

/-- The fields of `Service` that all goroutines share.  `querySem` is the capacity
of the semaphore, if there is one, and `tokens` its length. -/
structure Shared where
  querySem : Option Nat
  tokens : Nat := 0
  wg : Int := 0
  deriving DecidableEq

namespace Shared

/-- `tryAcquireQuery`; `none` is false. -/
def tryAcquireQuery (g : Shared) : Option Shared :=
  match g.querySem with
  | none => some g
  | some cap => if g.tokens < cap then some { g with tokens := g.tokens + 1 } else none

/-- `releaseQuery`; `none` where the receive blocks. -/
def releaseQuery (g : Shared) : Option Shared :=
  match g.querySem with
  | none => some g
  | some _ => if g.tokens = 0 then none else some { g with tokens := g.tokens - 1 }

/-- `s.wg.Add(1)`. -/
def wgAdd (g : Shared) : Shared := { g with wg := g.wg + 1 }

/-- `s.wg.Done()`. -/
def wgDone (g : Shared) : Shared := { g with wg := g.wg - 1 }

end Shared

/-! ## A datagram -/

/-- The next operation of the goroutine of a datagram. -/
inductive UdpPc where
  | unpack
  | tryAcquireQuery
  -- There was no slot.
  | shed
  | handle
  | pack
  | writeTo
  -- The deferred calls.
  | releaseQuery
  | wgDone
  | done
  deriving DecidableEq

/-- The goroutine of a datagram takes its next operation.  The second component
says that it has written a response. -/
def udpStep (g : Shared) (ok : Bool) : UdpPc → Option (Shared × Bool × UdpPc)
  | .unpack => some (g, false, if ok then .tryAcquireQuery else .wgDone)
  | .tryAcquireQuery =>
    match g.tryAcquireQuery with
    | none => some (g, false, .shed)
    | some g => some (g, false, .handle)
  | .shed => some (g, ok, .wgDone)
  | .handle => some (g, false, .pack)
  | .pack => some (g, false, if ok then .writeTo else .releaseQuery)
  | .writeTo => some (g, true, .releaseQuery)
  | .releaseQuery => g.releaseQuery.map fun g => (g, false, .wgDone)
  | .wgDone => some (g.wgDone, false, .done)
  | .done => none

/-! ## A connection -/

/-- A query of a connection, by its place in the pipeline. -/
abbrev QueryNo := Nat

/-- The next operation of the goroutine of a query. -/
inductive QueryPc where
  | handleVia
  -- `writeResponse`.
  | lock
  | checkBroken
  | writeMsg
  | markBroken
  | closeConn
  | unlock
  -- The deferred calls.
  | releaseSlot
  | handlersDone
  | wgDone
  | done
  deriving DecidableEq

/-- The next operation of the goroutine of a connection. -/
inductive ReaderPc where
  | readMsg
  | allow (q : QueryNo)
  | takeSlot (q : QueryNo)
  -- The slots were taken; the timer runs.
  | awaitSlot (q : QueryNo)
  | lock (q : QueryNo)
  | loadBroken (q : QueryNo)
  | unlock (q : QueryNo) (giveUp : Bool)
  | giveBackSlot
  | wgAdd (q : QueryNo)
  | handlersAdd (q : QueryNo)
  | start (q : QueryNo)
  -- The deferred calls of `serveTCPConn`.
  | closeConn
  | wait
  -- `serveTCPConn` has returned.
  | releaseQuery
  | wgDone
  | done
  deriving DecidableEq

/-- Who has locked `writeMu`. -/
inductive Owner where
  | reader
  | query (q : QueryNo)
  deriving DecidableEq

/-- The variables of `serveTCPConn`, where its reader stands and its queries.
`slots` is the length of the channel, `closed` says that the connection has been
closed, and `wire` is the history of its writes, the last one first, with their
results. -/
structure TcpConn where
  reader : ReaderPc := .readMsg
  nextQuery : QueryNo := 0
  slots : Nat := 0
  writeMu : Option Owner := none
  broken : Bool := false
  closed : Bool := false
  handlers : Int := 0
  queries : SyncMap QueryNo QueryPc := ∅
  wire : List (QueryNo × Bool) := []

/-- The goroutine of the query `q` takes its next operation.  A write to a
connection that has been closed fails. -/
def queryStep (g : Shared) (c : TcpConn) (q : QueryNo) (ok : Bool) :
    QueryPc → Option (Shared × TcpConn × QueryPc)
  | .handleVia => some (g, c, .lock)
  | .lock =>
    if c.writeMu = none then some (g, { c with writeMu := some (.query q) }, .checkBroken) else none
  | .checkBroken => some (g, c, if c.broken then .unlock else .writeMsg)
  | .writeMsg =>
    let sent := ok && !c.closed
    some (g, { c with wire := (q, sent) :: c.wire }, if sent then .unlock else .markBroken)
  | .markBroken => some (g, { c with broken := true }, .closeConn)
  | .closeConn => some (g, { c with closed := true }, .unlock)
  | .unlock => some (g, { c with writeMu := none }, .releaseSlot)
  | .releaseSlot =>
    if c.slots = 0 then none else some (g, { c with slots := c.slots - 1 }, .handlersDone)
  | .handlersDone => some (g, { c with handlers := c.handlers - 1 }, .wgDone)
  | .wgDone => some (g.wgDone, c, .done)
  | .done => none

/-- The goroutine of the connection takes its next operation.  A message that came
in before the connection was closed may still be read. -/
def readerStep (g : Shared) (c : TcpConn) (ok : Bool) :
    ReaderPc → Option (Shared × TcpConn × ReaderPc)
  | .readMsg =>
    if ok then some (g, { c with nextQuery := c.nextQuery + 1 }, .allow c.nextQuery)
    else some (g, c, .closeConn)
  | .allow q => some (g, c, if ok then .takeSlot q else .closeConn)
  | .takeSlot q =>
    if c.slots < maxTCPQueriesInFlight then some (g, { c with slots := c.slots + 1 }, .lock q)
    else some (g, c, .awaitSlot q)
  | .awaitSlot q =>
    if ok then
      if c.slots < maxTCPQueriesInFlight then some (g, { c with slots := c.slots + 1 }, .lock q)
      else none
    else some (g, c, .closeConn)
  | .lock q =>
    if c.writeMu = none then some (g, { c with writeMu := some .reader }, .loadBroken q) else none
  | .loadBroken q => some (g, c, .unlock q c.broken)
  | .unlock q giveUp =>
    some (g, { c with writeMu := none }, if giveUp then .giveBackSlot else .wgAdd q)
  | .giveBackSlot =>
    if c.slots = 0 then none else some (g, { c with slots := c.slots - 1 }, .closeConn)
  | .wgAdd q => some (g.wgAdd, c, .handlersAdd q)
  | .handlersAdd q => some (g, { c with handlers := c.handlers + 1 }, .start q)
  | .start q => some (g, { c with queries := c.queries.insert q .handleVia }, .readMsg)
  | .closeConn => some (g, { c with closed := true }, .wait)
  | .wait => if c.handlers = 0 then some (g, c, .releaseQuery) else none
  | .releaseQuery => g.releaseQuery.map fun g => (g, c, .wgDone)
  | .wgDone => some (g.wgDone, c, .done)
  | .done => none

/-- Who moves in a connection. -/
inductive ConnLabel where
  | reader (ok : Bool)
  | query (q : QueryNo) (ok : Bool)

def connStep (g : Shared) (c : TcpConn) : ConnLabel → Option (Shared × TcpConn)
  | .reader ok => (readerStep g c ok c.reader).map fun r => (r.1, { r.2.1 with reader := r.2.2 })
  | .query q ok =>
    (c.queries.lookup q).bind fun pc => (queryStep g c q ok pc).map fun r =>
      (r.1, { r.2.1 with queries := r.2.1.queries.insert q r.2.2 })

/-! ## The server -/

/-- The next operation of the loop of `serveUDP`. -/
inductive UdpLoopPc where
  | readFrom
  -- The source filter and the rate limit.
  | checks
  | maybeRefuseDenied
  | wgAdd
  | start
  | returned
  deriving DecidableEq

/-- The next operation of the loop of `serveTCP`. -/
inductive TcpLoopPc where
  | accept
  | isAllowed
  | tryAcquireQuery
  | wgAdd
  | start
  | returned
  deriving DecidableEq

/-- The server.  Datagrams and connections are numbered as they come, `nextDatagram`
and `nextConn` being those that the two loops are at.  `replies` is the history of
the writes to the UDP socket, each by its datagram. -/
structure State where
  shared : Shared
  serveUDP : UdpLoopPc := .readFrom
  nextDatagram : Nat := 0
  datagrams : SyncMap Nat UdpPc := ∅
  replies : List Nat := []
  serveTCP : TcpLoopPc := .accept
  nextConn : Nat := 0
  conns : SyncMap Nat TcpConn := ∅

/-- A new server, as `NewService` makes it. -/
def State.new (cfg : DNS64Config) : State where
  shared := { querySem := if 0 < cfg.maxQueries then some cfg.maxQueries.toNat else none }

/-- Who moves. -/
inductive Label where
  | serveUDP (ok : Bool)
  | datagram (n : Nat) (ok : Bool)
  | serveTCP (ok : Bool)
  | conn (n : Nat) (l : ConnLabel)

/-- The loop of `serveUDP` takes its next operation.  A denied datagram gets a
reply if the last one is long enough ago and the datagram is a query. -/
def serveUDPStep (s : State) (ok : Bool) : Option State :=
  match s.serveUDP with
  | .readFrom => some { s with serveUDP := if ok then .checks else .returned }
  | .checks => some { s with serveUDP := if ok then .wgAdd else .maybeRefuseDenied }
  | .maybeRefuseDenied =>
    some { s with
      serveUDP := .readFrom
      nextDatagram := s.nextDatagram + 1
      replies := if ok then s.nextDatagram :: s.replies else s.replies }
  | .wgAdd => some { s with shared := s.shared.wgAdd, serveUDP := .start }
  | .start =>
    some { s with
      serveUDP := .readFrom
      nextDatagram := s.nextDatagram + 1
      datagrams := s.datagrams.insert s.nextDatagram .unpack }
  | .returned => none

/-- The loop of `serveTCP` takes its next operation. -/
def serveTCPStep (s : State) (ok : Bool) : Option State :=
  match s.serveTCP with
  | .accept => some { s with serveTCP := if ok then .isAllowed else .returned }
  | .isAllowed => some { s with serveTCP := if ok then .tryAcquireQuery else .accept }
  | .tryAcquireQuery =>
    match s.shared.tryAcquireQuery with
    | none => some { s with serveTCP := .accept }
    | some g => some { s with shared := g, serveTCP := .wgAdd }
  | .wgAdd => some { s with shared := s.shared.wgAdd, serveTCP := .start }
  | .start =>
    some { s with
      serveTCP := .accept
      nextConn := s.nextConn + 1
      conns := s.conns.insert s.nextConn {} }
  | .returned => none

/-- One operation of one goroutine. -/
def step (s : State) : Label → Option State
  | .serveUDP ok => serveUDPStep s ok
  | .datagram n ok =>
    (s.datagrams.lookup n).bind fun pc => (udpStep s.shared ok pc).map fun r =>
      { s with
        shared := r.1
        replies := if r.2.1 then n :: s.replies else s.replies
        datagrams := s.datagrams.insert n r.2.2 }
  | .serveTCP ok => serveTCPStep s ok
  | .conn n l =>
    (s.conns.lookup n).bind fun c => (connStep s.shared c l).map fun r =>
      { s with shared := r.1, conns := s.conns.insert n r.2 }

end Ydn64.Dns64.Server
