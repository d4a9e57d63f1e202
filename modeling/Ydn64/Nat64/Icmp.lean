import Ydn64.Nat64.Settings
import Ydn64.Nat64.Reasm
import Ydn64.Lib.SyncMap

/-!
# The ICMP echo translator

`src/nat64/icmp.go` and the ICMP part of `cleanupSessions`.  A session is a
record that two maps point to, the slots by the identifier on the IPv4 side and
the queries by the client's own tuple, so the records stand in a heap and the
maps hold references to it.

`interceptICMPPacket` is cut at the point where the policy checks end: what
follows looks at the payload (`echoPayload`) and is the same for every pair of
addresses.
-/

namespace Ydn64.Nat64

open Ydn64.GoStd Ydn64.Config Ydn64.Lib

/-- `icmpSessionTimeout` in nanoseconds. -/
def icmpSessionTimeout : Int := 60 * 10 ^ 9
def maxICMPSessions : Int := 4096
def maxICMPIDAllocAttempts : Nat := 64

/-- `icmpSessionKey`. -/
structure IcmpSessionKey where
  dstAddr : Addr4
  id : UInt16
  deriving DecidableEq

/-- `icmpQueryKey`. -/
structure IcmpQueryKey where
  srcAddr : Addr16
  dstAddr : Addr4
  id : UInt16
  deriving DecidableEq

/-- `icmpSession`. -/
structure IcmpSession where
  pool6Src : Addr16
  yggDst : Addr16
  clientID : UInt16
  allocID : UInt16
  lastSeenNs : Int
  deriving DecidableEq

/-- A pointer to a session. -/
abbrev IcmpRef := Nat

/-- The state of the echo translator.  `heap` holds the sessions and `nextRef`
is the next unused reference. -/
structure IcmpState where
  icmpSessions : SyncMap IcmpSessionKey IcmpRef
  icmpQueries : SyncMap IcmpQueryKey IcmpRef
  icmpNextID : UInt32
  icmpCount : Int
  heap : SyncMap IcmpRef IcmpSession
  nextRef : IcmpRef
  deriving DecidableEq

/-- The state of a new service. -/
def IcmpState.init (icmpNextID : UInt32) : IcmpState where
  icmpSessions := ∅
  icmpQueries := ∅
  icmpNextID := icmpNextID
  icmpCount := 0
  heap := ∅
  nextRef := 0

/-- `atomic.StoreInt64(&sess.lastSeenNs, now)`. -/
def IcmpState.touch (st : IcmpState) (r : IcmpRef) (now : Int) : IcmpState :=
  match st.heap.lookup r with
  | none => st
  | some s => { st with heap := st.heap.insert r { s with lastSeenNs := now } }

/-! ## Requests -/

/-- The identifier that one round of the allocation loop tries. -/
def IcmpState.candidate (st : IcmpState) : UInt16 := (st.icmpNextID + 1).toUInt16

/-- Publish a new session: its slot, its query and the counter. -/
def IcmpState.publish (st : IcmpState) (qKey : IcmpQueryKey) (sess : IcmpSession) :
    IcmpState :=
  { st with
    icmpSessions := st.icmpSessions.insert ⟨qKey.dstAddr, sess.allocID⟩ st.nextRef
    icmpQueries := st.icmpQueries.insert qKey st.nextRef
    icmpCount := st.icmpCount + 1
    heap := st.heap.insert st.nextRef sess
    nextRef := st.nextRef + 1 }

/-- The allocation loop of `registerICMPSession`.  `sess` is the record without
its identifier. -/
def allocICMPSession (qKey : IcmpQueryKey) (sess : IcmpSession) :
    Nat → IcmpState → IcmpState × Option IcmpRef
  | 0, st => (st, none)
  | attempts + 1, st =>
    let cand := st.candidate
    let st := { st with icmpNextID := st.icmpNextID + 1 }
    let sKey : IcmpSessionKey := ⟨qKey.dstAddr, cand⟩
    if cand = 0 then allocICMPSession qKey sess attempts st
    else if st.icmpSessions.lookup sKey ≠ none then allocICMPSession qKey sess attempts st
    else (st.publish qKey { sess with allocID := cand }, some st.nextRef)

/-- `registerICMPSession`. -/
def registerICMPSession (st : IcmpState) (srcAddr pool6Src : Addr16) (dstIPv4 : Addr4)
    (clientID : UInt16) (now : Int) : IcmpState × Option IcmpRef :=
  let qKey : IcmpQueryKey := ⟨srcAddr, dstIPv4, clientID⟩
  match st.icmpQueries.lookup qKey with
  | some r => (st.touch r now, some r)
  | none =>
    if maxICMPSessions ≤ st.icmpCount then (st, none)
    else allocICMPSession qKey ⟨pool6Src, srcAddr, clientID, 0, now⟩
      maxICMPIDAllocAttempts st

/-- What `handleEchoRequest` hands to `forwardICMP`: the session, the IPv4
destination that the request is written to, its sequence number and its data. -/
structure EchoForward where
  sess : IcmpRef
  dstIPv4 : Addr4
  seq : UInt16
  data : Bytes
  deriving DecidableEq

/-- `handleEchoRequest` on a message of at least eight bytes.  The packet is
consumed in every case. -/
def handleEchoRequest (pref64 : Pref64) (st : IcmpState) (msg : Bytes)
    (srcAddr pool6Src : Addr16) (now : Int) : IcmpState × Option EchoForward :=
  match pref64.extract pool6Src.toList with
  | none => (st, none)
  | some dstIPv4 =>
    match registerICMPSession st srcAddr pool6Src dstIPv4 (uint16At msg 4) now with
    | (st, none) => (st, none)
    | (st, some r) => (st, some ⟨r, dstIPv4, uint16At msg 6, msg.drop 8⟩)

/-! ## The interceptor -/

/-- What becomes of an intercepted packet that the policy admits. -/
inductive Payload where
  /-- The packet is left to the stack. -/
  | pass
  /-- The packet is consumed. -/
  | drop
  /-- The packet completes an echo request. -/
  | echo (msg : Bytes)
  deriving DecidableEq

/-- A complete message that is to be an echo request. -/
def checkedEcho (src dst : Addr16) (msg : Bytes) : Payload :=
  if ipv6UpperLayerChecksum src.toList dst.toList 58 msg ≠ 0 then .drop else .echo msg

/-- The part of `interceptICMPPacket` after the policy checks. -/
def echoPayload (reasm : ReasmTable) (pkt : Bytes) (info : ChainInfo) (src dst : Addr16)
    (now : Int) : ReasmTable × Payload :=
  let plen := (uint16At pkt 4).toNat
  if plen < 8 ∨ pkt.length - 40 ≠ plen then (reasm, .drop)
  else if info.isFrag = false then
    let msg := pkt.drop info.l4Offset
    if msg.length < 8 then (reasm, .drop)
    else if byteAt msg 0 ≠ 128 then (reasm, .pass)
    else (reasm, checkedEcho src dst msg)
  else
    let key : ReasmKey := ⟨src, dst, info.fragIdent⟩
    let frag := pkt.drop info.l4Offset
    if frag = [] then ((reasm.cancel key).1, .drop)
    else if info.fragOffset = 0 ∧ byteAt frag 0 ≠ 128 then
      match reasm.cancel key with
      | (reasm, true) => (reasm, .drop)
      | (reasm, false) => (reasm, .pass)
    else match reasm.add key info.fragOffset info.fragMore frag now with
      | (reasm, none) => (reasm, .drop)
      | (reasm, some complete) =>
        if byteAt complete 0 ≠ 128 then (reasm, .drop)
        else (reasm, checkedEcho src dst complete)

/-- The sixteen bytes at an offset of a packet that has them. -/
def addr16At (pkt : Bytes) (i : Nat) : Addr16 :=
  List.Vector.ofFn fun k : Fin 16 => byteAt pkt (i + k)

/-- The four bytes at an offset. -/
def addr4At (pkt : Bytes) (i : Nat) : Addr4 :=
  List.Vector.ofFn fun k : Fin 4 => byteAt pkt (i + k)

/-- What one intercepted packet does: the tables after it, whether it was
consumed, and the request that goes out. -/
structure Intercepted where
  st : IcmpState
  reasm : ReasmTable
  consumed : Bool
  forward : Option EchoForward

/-- `interceptICMPPacket`.  `icmpConn` says whether the raw socket is there.
The ignored-destination check reads the last four bytes of the destination. -/
def interceptICMPPacket (svc : Service) (icmpConn : Bool) (st : IcmpState)
    (reasm : ReasmTable) (pkt : Bytes) (now : Int) : Intercepted :=
  let pass : Intercepted := ⟨st, reasm, false, none⟩
  let drop : Intercepted := ⟨st, reasm, true, none⟩
  if pkt.length < 48 then pass
  else match parseIPv6HeaderChain pkt with
    | (info, .icmpv6) =>
      let dst := addr16At pkt 24
      let src := addr16At pkt 8
      if !svc.pool6Net.contains dst.toList then pass
      else if svc.pool6Net.contains src.toList then drop
      else if !svc.settings.isAllowed src.toList then drop
      else if !icmpConn then drop
      else if svc.settings.isIgnoredDst (addr4At pkt 36).toList then drop
      else match echoPayload reasm pkt info src dst now with
        | (reasm, .pass) => ⟨st, reasm, false, none⟩
        | (reasm, .drop) => ⟨st, reasm, true, none⟩
        | (reasm, .echo msg) =>
          match handleEchoRequest svc.pref64 st msg src dst now with
          | (st, forward) => ⟨st, reasm, true, forward⟩
    | _ => pass

/-! ## Replies and expiry -/

/-- The body of an ICMPv4 echo reply, as the decoder gives it. -/
structure Echo where
  id : UInt16
  seq : UInt16
  data : Bytes
  deriving DecidableEq

/-- `translateICMPv4Reply`: the packets that it injects, if the reply belongs to
a session.  `ident` is the fragment identification it drew. -/
def translateICMPv4Reply (st : IcmpState) (mtu : Int) (ident : UInt32) (srcV4 : Addr4)
    (echo : Echo) (now : Int) : IcmpState × List Bytes :=
  match st.icmpSessions.lookup ⟨srcV4, echo.id⟩ with
  | none => (st, [])
  | some r =>
    match st.heap.lookup r with
    | none => (st, [])
    | some sess =>
      (st.touch r now,
        fragmentIPv6Packet
          (buildIPv6ICMPEchoReplyPacket sess.pool6Src sess.yggDst sess.clientID echo.seq
            echo.data) mtu ident)

/-- The visit of one query by the cleanup tick. -/
def expireICMPQuery (st : IcmpState) (icmpCutoff : Int) (qk : IcmpQueryKey) : IcmpState :=
  match st.icmpQueries.lookup qk with
  | none => st
  | some r =>
    match st.heap.lookup r with
    | none => st
    | some sess =>
      if sess.lastSeenNs < icmpCutoff then
        { st with
          icmpQueries := st.icmpQueries.erase qk
          icmpSessions := st.icmpSessions.erase ⟨qk.dstAddr, sess.allocID⟩
          icmpCount := st.icmpCount - 1 }
      else st

/-- The ICMP part of the cleanup tick, over the queries in the order of its
range. -/
def expireICMP (st : IcmpState) (now : Int) (order : List IcmpQueryKey) : IcmpState :=
  order.foldl (fun st qk => expireICMPQuery st (now - icmpSessionTimeout) qk) st

end Ydn64.Nat64
