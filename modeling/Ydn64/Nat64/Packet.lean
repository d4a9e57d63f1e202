import Ydn64.GoStd.NetIP

/-!
# The packets that the translator reads and writes

`src/nat64/packet.go`, `src/nat64/ipv6chain.go` and the builder of
`src/nat64/icmperr.go`.  A packet is a list of bytes.  The builders of the
source write into a fresh slice at fixed offsets; here a packet is the
concatenation of its fields, and a field that is filled in last (a checksum) is
computed from the message with zeros in its place.

A read outside a slice would stop the source; the functions here answer zero
there, and the source guards each read by a length check first.
-/

namespace Ydn64.Nat64

open Ydn64.GoStd

/-! ## Numbers on the wire -/

/-- The byte at an offset. -/
def byteAt (b : Bytes) (i : Nat) : UInt8 := b.getD i 0

/-- `binary.BigEndian.Uint16`. -/
def uint16At (b : Bytes) (i : Nat) : UInt16 :=
  UInt16.ofNat ((byteAt b i).toNat * 256 + (byteAt b (i + 1)).toNat)

/-- `binary.BigEndian.Uint32`. -/
def uint32At (b : Bytes) (i : Nat) : UInt32 :=
  UInt32.ofNat ((uint16At b i).toNat * 65536 + (uint16At b (i + 2)).toNat)

/-- The bytes of `uint16(n)`. -/
def be16 (n : Nat) : Bytes := [UInt8.ofNat (n / 256), UInt8.ofNat n]

/-- The bytes of `uint32(n)`. -/
def be32 (n : Nat) : Bytes := be16 (n / 65536) ++ be16 n

/-- `binary.BigEndian.PutUint16` into a copy of the slice. -/
def putUint16 (b : Bytes) (i n : Nat) : Bytes :=
  (b.set i (UInt8.ofNat (n / 256))).set (i + 1) (UInt8.ofNat n)

/-! ## The checksum -/

/-- `addBytes`: the sum of the sixteen-bit words in a `uint32`. -/
def addBytes : Nat → Bytes → Nat
  | sum, [] => sum
  | sum, [b] => (sum + b.toNat * 256) % 2 ^ 32
  | sum, hi :: lo :: rest => addBytes ((sum + (hi.toNat * 256 + lo.toNat)) % 2 ^ 32) rest

/-- One round of the carry loop. -/
def foldCarry (sum : Nat) : Nat :=
  if 0xffff < sum then sum / 65536 + sum % 65536 else sum

/-- Two rounds end the carry loop for every `uint32`. -/
theorem foldCarry_foldCarry_le {sum : Nat} (h : sum < 2 ^ 32) :
    foldCarry (foldCarry sum) ≤ 0xffff := by
  unfold foldCarry
  split_ifs <;> omega

/-- `ipv6UpperLayerChecksum`. -/
def ipv6UpperLayerChecksum (src dst : Bytes) (nextHeader : UInt8) (upperLayer : Bytes) :
    UInt16 :=
  let sum := addBytes (addBytes (addBytes 0 src) dst) (be32 upperLayer.length)
  let sum := addBytes ((sum + nextHeader.toNat) % 2 ^ 32) upperLayer
  ~~~ UInt16.ofNat (foldCarry (foldCarry sum))

/-! ## Builders -/

/-- The fixed IPv6 header. -/
def ipv6Header (payloadLen : Nat) (nextHeader hopLimit : UInt8) (src dst : Addr16) :
    Bytes :=
  [0x60, 0, 0, 0] ++ be16 payloadLen ++ [nextHeader, hopLimit] ++ src.toList ++ dst.toList

/-- `buildIPv6UDPDatagram`. -/
def buildIPv6UDPDatagram (src dst : Addr16) (srcPort dstPort : UInt16) (payload : Bytes) :
    Bytes :=
  let udpLen := 8 + payload.length
  let ports := be16 srcPort.toNat ++ be16 dstPort.toNat ++ be16 udpLen
  let cs := ipv6UpperLayerChecksum src.toList dst.toList 17 (ports ++ [0, 0] ++ payload)
  -- A sum of zero is sent as all ones.
  let cs := if cs = 0 then 0xffff else cs
  ipv6Header udpLen 17 64 src dst ++ ports ++ be16 cs.toNat ++ payload

/-- `buildIPv6ICMPEchoReplyPacket`. -/
def buildIPv6ICMPEchoReplyPacket (src dst : Addr16) (id seq : UInt16) (data : Bytes) :
    Bytes :=
  let echo := be16 id.toNat ++ be16 seq.toNat ++ data
  let cs := ipv6UpperLayerChecksum src.toList dst.toList 58 ([129, 0, 0, 0] ++ echo)
  ipv6Header (8 + data.length) 58 64 src dst ++ [129, 0] ++ be16 cs.toNat ++ echo

def icmpErrMaxPacket : Nat := 1280
def icmpErrFixedLen : Nat := 88

/-- The quoted segment with its checksum rebuilt over the new addresses. -/
def quoteSegment (src dst : Addr16) (proto : UInt8) (seg : Bytes) : Bytes :=
  if proto = 17 then
    let seg := putUint16 seg 4 seg.length
    if uint16At seg 6 ≠ 0 then
      let cs := ipv6UpperLayerChecksum src.toList dst.toList 17 seg
      putUint16 seg 6 (if cs = 0 then 0xffff else cs).toNat
    else seg
  else if proto = 58 then
    let seg := putUint16 seg 2 0
    putUint16 seg 2 (ipv6UpperLayerChecksum src.toList dst.toList 58 seg).toNat
  else if proto = 6 then
    let seg := putUint16 seg 16 0
    putUint16 seg 16 (ipv6UpperLayerChecksum src.toList dst.toList 6 seg).toNat
  else seg

/-- `buildIPv6ICMPErrorPacket`. -/
def buildIPv6ICMPErrorPacket (src dst : Addr16) (errType errCode : UInt8) (extra : Nat)
    (innerSrc innerDst : Addr16) (innerTTL innerProto : UInt8) (innerL4 : Bytes) : Bytes :=
  let innerL4 := innerL4.take (icmpErrMaxPacket - icmpErrFixedLen)
  let quote := be32 extra ++
    ipv6Header innerL4.length innerProto innerTTL innerSrc innerDst ++
    quoteSegment innerSrc innerDst innerProto innerL4
  let cs := ipv6UpperLayerChecksum src.toList dst.toList 58
    ([errType, errCode, 0, 0] ++ quote)
  ipv6Header (icmpErrFixedLen + innerL4.length - 40) 58 64 src dst ++
    [errType, errCode] ++ be16 cs.toNat ++ quote

/-! ## The chain of extension headers -/

/-- `chainStatus`. -/
inductive ChainStatus where
  | icmpv6
  | other
  | invalid
  deriving DecidableEq, Repr

/-- `ipv6ChainInfo`. -/
structure ChainInfo where
  l4Offset : Nat := 0
  fragOffset : UInt16 := 0
  fragIdent : UInt32 := 0
  fragMore : Bool := false
  isFrag : Bool := false
  deriving DecidableEq, Repr

/-- The loop of `parseIPv6HeaderChain`.  `isFrag` doubles as `sawFrag`.  Every
round moves at least eight bytes on, so as many rounds as the packet has bytes
are enough. -/
def walkChain (pkt : Bytes) : Nat → UInt8 → Nat → ChainInfo → ChainInfo × ChainStatus
  | 0, _, _, info => (info, .invalid)
  | fuel + 1, nh, off, info =>
    if nh = 0 ∨ nh = 60 ∨ nh = 43 then
      let extLen := ((byteAt pkt (off + 1)).toNat + 1) * 8
      if pkt.length < off + 2 ∨ pkt.length < off + extLen then (info, .invalid)
      else walkChain pkt fuel (byteAt pkt off) (off + extLen) info
    else if nh = 44 then
      if info.isFrag ∨ pkt.length < off + 8 then (info, .invalid)
      else
        let word := uint16At pkt (off + 2)
        walkChain pkt fuel (byteAt pkt off) (off + 8)
          { info with
            isFrag := true
            fragOffset := word >>> 3
            fragMore := word &&& 1 ≠ 0
            fragIdent := uint32At pkt (off + 4) }
    else if nh = 58 then ({ info with l4Offset := off }, .icmpv6)
    else ({ info with l4Offset := off }, .other)

/-- `parseIPv6HeaderChain`. -/
def parseIPv6HeaderChain (pkt : Bytes) : ChainInfo × ChainStatus :=
  if pkt.length < 40 ∨ byteAt pkt 0 >>> 4 ≠ 6 then ({}, .invalid)
  else walkChain pkt pkt.length (byteAt pkt 6) 40 {}

/-! ## Fragmentation -/

/-- One fragment: bytes `sent` up to `stop` of the body. -/
def fragmentAt (pkt : Bytes) (ident : UInt32) (sent stop : Nat) : Bytes :=
  let body := pkt.drop 40
  let word := sent / 8 % 65536 * 8 % 65536 + if stop < body.length then 1 else 0
  pkt.take 4 ++ be16 (8 + (stop - sent)) ++ [44] ++ (pkt.drop 7).take 33 ++
    [58, 0] ++ be16 word ++ be32 ident.toNat ++ (body.drop sent).take (stop - sent)

/-- The loop of `fragmentIPv6Packet`; each round sends at least one byte. -/
def fragmentFrom (pkt : Bytes) (ident : UInt32) (perFrag : Nat) : Nat → Nat → List Bytes
  | 0, _ => []
  | fuel + 1, sent =>
    let len := pkt.length - 40
    if sent < len then
      fragmentAt pkt ident sent (min (sent + perFrag) len) ::
        fragmentFrom pkt ident perFrag fuel (min (sent + perFrag) len)
    else []

/-- `fragmentIPv6Packet`. -/
def fragmentIPv6Packet (pkt : Bytes) (mtu : Int) (ident : UInt32) : List Bytes :=
  if pkt.length ≤ 40 ∨ (pkt.length : Int) ≤ mtu then [pkt]
  else
    let perFrag := Int.tdiv (mtu - 48) 8 * 8
    if perFrag ≤ 0 then [] else fragmentFrom pkt ident perFrag.toNat pkt.length 0

end Ydn64.Nat64
