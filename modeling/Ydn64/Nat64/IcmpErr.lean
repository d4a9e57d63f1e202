import Ydn64.Nat64.Admission
import Mathlib.Algebra.Field.Rat

/-!
# ICMP errors

`src/nat64/icmperr.go`: the token bucket of every synthesised error, the tables
that translate an ICMPv4 error, and the packets that the translator injects.
The handler reads two tables of the service, the UDP sessions and the echo
slots, and writes none; its result here is the packet that it hands to
`injectICMPv6`.

The bucket of the source counts tokens in `float64`; here they are rational.
-/

namespace Ydn64.Nat64

open Ydn64.GoStd Ydn64.Config

/-! ## The token bucket -/

/-- `errRateLimiter`.  `last` is `none` for the zero time. -/
structure ErrRateLimiter where
  tokens : ℚ := 0
  last : Option Int := none

/-- `allowBudget`: whether a token was there, and the bucket afterwards. -/
def ErrRateLimiter.allowBudget (r : ErrRateLimiter) (now : Int) (perSec burst : ℚ) :
    Bool × ErrRateLimiter :=
  let last := r.last.getD now
  let tokens := if r.last.isNone then burst else r.tokens
  let tokens := tokens + ((now - last : Int) : ℚ) / 10 ^ 9 * perSec
  let tokens := if burst < tokens then burst else tokens
  if tokens < 1 then (false, ⟨tokens, some now⟩) else (true, ⟨tokens - 1, some now⟩)

def icmpErrRatePerSec : ℚ := 50
def icmpErrBurst : ℚ := 100
def eifRatePerSec : ℚ := 100
def eifBurst : ℚ := 200

/-- `errRateLimiter.allow`. -/
def ErrRateLimiter.allow (r : ErrRateLimiter) (now : Int) : Bool × ErrRateLimiter :=
  r.allowBudget now icmpErrRatePerSec icmpErrBurst

/-! ## The translation tables -/

/-- `translateICMPv4ErrorType`. -/
def translateICMPv4ErrorType (typ code : UInt8) : Option (UInt8 × UInt8) :=
  if typ = 3 then
    if code ∈ [0, 1, 5, 6, 7, 8, 11, 12] then some (1, 0)
    else if code = 2 then some (4, 1)
    else if code = 3 then some (1, 4)
    else if code = 4 then some (2, 0)
    else if code ∈ [9, 10, 13, 15] then some (1, 1)
    else none
  else if typ = 11 then
    if 1 < code then none else some (3, code)
  else if typ = 12 then
    if code ∈ [0, 2] then some (4, 0) else none
  else none

/-- `remapV4ParamProblemPointer`. -/
def remapV4ParamProblemPointer (p : UInt8) : Option Nat :=
  if p = 0 then some 0
  else if p = 1 then some 1
  else if 2 ≤ p ∧ p ≤ 3 then some 4
  else if p = 8 then some 7
  else if p = 9 then some 6
  else if 12 ≤ p ∧ p ≤ 15 then some 8
  else if 16 ≤ p ∧ p ≤ 19 then some 24
  else none

/-- `rfc1191Plateaus`. -/
def rfc1191Plateaus : List Nat :=
  [65535, 32000, 17914, 8166, 4352, 2002, 1492, 1006, 508, 296, 68]

/-- The plateau that stands for an MTU of zero. -/
def plateauMTU (innerTotalLen : Nat) : Nat :=
  rfc1191Plateaus.foldl
    (fun m p => if p < innerTotalLen ∧ 1280 ≤ p ∧ m < p then p else m) 1280

/-- `ptbIPv6MTU`. -/
def ptbIPv6MTU (v4MTU innerTotalLen v6NextHopMTU : Nat) : Nat :=
  let m := if v4MTU = 0 then plateauMTU innerTotalLen else v4MTU
  let mtu := m + 20
  let mtu := if 0 < v6NextHopMTU ∧ v6NextHopMTU < mtu then v6NextHopMTU else mtu
  if mtu < 1280 then 1280 else mtu

/-! ## The quoted packet -/

/-- `icmpInnerPacket`. -/
structure IcmpInnerPacket where
  src : Addr4
  dst : Addr4
  proto : UInt8
  ttl : UInt8
  totalLen : Nat
  l4 : Bytes

/-- `parseICMPv4InnerPacket`. -/
def parseICMPv4InnerPacket (b : Bytes) : Option IcmpInnerPacket :=
  if b.length < 20 ∨ byteAt b 0 >>> 4 ≠ 4 then none
  else
    let ihl := (byteAt b 0 &&& 0x0f).toNat * 4
    if ihl < 20 ∨ b.length < ihl then none
    else
      let p : IcmpInnerPacket :=
        { src := addr4At b 12
          dst := addr4At b 16
          proto := byteAt b 9
          ttl := byteAt b 8
          totalLen := (uint16At b 2).toNat
          l4 := b.drop ihl }
      if p.proto ∉ [17, 1, 6] then none
      else if p.l4.length < 8 ∨ p.totalLen < ihl then none
      else some p

/-! ## The injected packets -/

/-- The packet of `translateUDPQuotedError` for the session under `key`. -/
def udpQuotedErrorPacket (pref64 : Pref64) (srcV4 : Addr4) (inner : IcmpInnerPacket)
    (v6Type v6Code : UInt8) (extra : Nat) (key : SessionKey) : Bytes :=
  let l4 := be16 (uint16At inner.l4 0).toNat ++ be16 key.srcPort.toNat ++
    be16 inner.l4.length ++ [0xff, 0xff] ++ inner.l4.drop 8
  buildIPv6ICMPErrorPacket (pref64.embed srcV4) key.srcAddr v6Type v6Code extra
    (pref64.embed inner.src) key.srcAddr inner.ttl 17 l4

/-- `translateEchoQuotedError`, up to the injection. -/
def translateEchoQuotedError (pref64 : Pref64) (icmp : IcmpState) (srcV4 : Addr4)
    (inner : IcmpInnerPacket) (v6Type v6Code : UInt8) (extra : Nat) : Option Bytes :=
  if byteAt inner.l4 0 ≠ 8 then none
  else
    match (icmp.icmpSessions.lookup ⟨inner.dst, uint16At inner.l4 4⟩).bind icmp.heap.lookup with
    | none => none
    | some sess =>
      let l4 := [128, 0, 0, 0] ++ be16 sess.clientID.toNat ++
        be16 (uint16At inner.l4 6).toNat ++ inner.l4.drop 8
      some (buildIPv6ICMPErrorPacket (pref64.embed srcV4) sess.yggDst v6Type v6Code extra
        (pref64.embed inner.src) sess.yggDst inner.ttl 58 l4)

/-- The type-specific word of the error, or `none` where the error is dropped. -/
def icmpErrorExtra (mtu : Nat) (raw : Bytes) (inner : IcmpInnerPacket)
    (v6Type v6Code : UInt8) : Option Nat :=
  if v6Type = 2 then some (ptbIPv6MTU (uint16At raw 6).toNat inner.totalLen mtu)
  else if v6Type = 4 ∧ v6Code = 1 then some 6
  else if v6Type = 4 then remapV4ParamProblemPointer (byteAt raw 4)
  else some 0

/-- `handleICMPv4Error`, up to the injection.  `findSession` is the scan of the
UDP sessions in `translateUDPQuotedError`. -/
def handleICMPv4Error (pref64 : Pref64) (mtu : Nat)
    (findSession : IcmpInnerPacket → Option SessionKey) (icmp : IcmpState) (srcV4 : Addr4)
    (raw : Bytes) : Option Bytes :=
  if raw.length < 8 then none
  else do
    let (v6Type, v6Code) ← translateICMPv4ErrorType (byteAt raw 0) (byteAt raw 1)
    let inner ← parseICMPv4InnerPacket (raw.drop 8)
    let extra ← icmpErrorExtra mtu raw inner v6Type v6Code
    if inner.proto = 17 then
      (findSession inner).map (udpQuotedErrorPacket pref64 srcV4 inner v6Type v6Code extra)
    else if inner.proto = 1 then
      translateEchoQuotedError pref64 icmp srcV4 inner v6Type v6Code extra
    else none

/-! ## Errors about the outbound socket -/

/-- The error numbers that `dialErrorToUnreachable` tells apart. -/
inductive Errno where
  | eacces
  | eperm
  | enetunreach
  | ehostunreach
  | enetdown
  | other
  deriving DecidableEq, Repr

/-- `dialErrorToUnreachable`. -/
def dialErrorToUnreachable : Errno → UInt8 × UInt8
  | .eacces | .eperm => (1, 1)
  | .enetunreach | .ehostunreach | .enetdown => (1, 0)
  | .other => (1, 3)

/-- The packet of `sendUDPFlowUnreachable`. -/
def udpFlowUnreachablePacket (pool6Src : Addr16) (key : SessionKey) (v6Type v6Code : UInt8) :
    Bytes :=
  buildIPv6ICMPErrorPacket pool6Src key.srcAddr v6Type v6Code 0 key.srcAddr pool6Src 64 17
    (be16 key.srcPort.toNat ++ be16 key.dstPort.toNat ++ be16 8 ++ [0xff, 0xff])

/-- The packet of `sendUDPPortRefused`. -/
def udpPortRefusedPacket (pref64 : Pref64) (localIP : Addr4) (localPort : UInt16)
    (key : SessionKey) : Bytes :=
  buildIPv6ICMPErrorPacket (pref64.embed key.dstAddr) key.srcAddr 1 4 0
    (pref64.embed localIP) key.srcAddr 64 17
    (be16 localPort.toNat ++ be16 key.srcPort.toNat ++ be16 8 ++ [0xff, 0xff])

end Ydn64.Nat64
