import Ydn64.Nat64.Datagram
import Ydn64.Nat64.Icmp

/-!
# What the parser reads in a well-formed packet

A sender writes a packet as a fixed header, a chain of extension headers and a
payload.  `FixedHeader.packet`, `encodeChain` and `fragmentPacket` say how; the
lemmas here are what `parseIPv6HeaderChain` makes of it.

The parser looks at a packet from an offset on, so each lemma about it takes the
packet as `pkt.drop off = field ++ rest`, and a field that has been read moves
`off` over it.
-/

namespace Ydn64.Nat64

open Ydn64.GoStd

/-! ## Fields -/

theorem byteAt_add (b : Bytes) (i k : Nat) : byteAt b (i + k) = byteAt (b.drop i) k := by
  unfold byteAt
  rw [List.getD_eq_getElem?_getD, List.getD_eq_getElem?_getD, List.getElem?_drop]

theorem byteAt_append_left {a : Bytes} {i : Nat} (h : i < a.length) (b : Bytes) :
    byteAt (a ++ b) i = byteAt a i := by
  unfold byteAt
  rw [List.getD_eq_getElem?_getD, List.getD_eq_getElem?_getD, List.getElem?_append_left h]

theorem uint16At_add (b : Bytes) (i k : Nat) : uint16At b (i + k) = uint16At (b.drop i) k := by
  unfold uint16At
  rw [Nat.add_assoc, byteAt_add, byteAt_add]

theorem addr16At_add (b : Bytes) (i k : Nat) : addr16At b (i + k) = addr16At (b.drop i) k := by
  unfold addr16At
  simp only [Nat.add_assoc, byteAt_add b i]

theorem addr16At_append_left {a : Bytes} {i : Nat} (hi : i + 16 ≤ a.length) (b : Bytes) :
    addr16At (a ++ b) i = addr16At a i := by
  unfold addr16At
  refine congrArg _ (funext fun k => ?_)
  exact byteAt_append_left (by omega) b

theorem byteAt_of_drop {b rest : Bytes} {i : Nat} {x : UInt8} (h : b.drop i = x :: rest) :
    byteAt b i = x := by
  rw [← Nat.add_zero i, byteAt_add, h]
  rfl

@[simp] theorem be16_length (n : Nat) : (be16 n).length = 2 := rfl

@[simp] theorem be32_length (n : Nat) : (be32 n).length = 4 := rfl

theorem uint16At_be16 (n : Nat) (rest : Bytes) : uint16At (be16 n ++ rest) 0 = UInt16.ofNat n := by
  unfold uint16At be16 byteAt
  apply UInt16.toNat_inj.mp
  simp only [List.cons_append, List.getD_cons_zero, List.getD_cons_succ, UInt8.toNat_ofNat',
    UInt16.toNat_ofNat']
  omega

theorem uint16At_of_drop {b rest : Bytes} {i n : Nat} (h : b.drop i = be16 n ++ rest) :
    uint16At b i = UInt16.ofNat n := by
  rw [← Nat.add_zero i, uint16At_add, h, uint16At_be16]

theorem uint32At_of_drop {b rest : Bytes} {i n : Nat} (h : b.drop i = be32 n ++ rest) :
    uint32At b i = UInt32.ofNat n := by
  have hlow : b.drop (i + 2) = be16 n ++ rest := by
    rw [← List.drop_drop, h]
    rfl
  rw [be32, List.append_assoc] at h
  rw [uint32At, uint16At_of_drop h, uint16At_of_drop hlow]
  apply UInt32.toNat_inj.mp
  simp only [UInt16.toNat_ofNat', UInt32.toNat_ofNat']
  omega

/-! ## The fixed header -/

/-- The fields of the fixed header that do not depend on what follows it. -/
structure FixedHeader where
  /-- Version, traffic class and flow label. -/
  lead : Bytes
  /-- Hop limit, source and destination. -/
  tail : Bytes
  lead_length : lead.length = 4
  tail_length : tail.length = 33
  version : byteAt lead 0 >>> 4 = 6

namespace FixedHeader

/-- The fixed header of a packet. -/
def ofPacket (pkt : Bytes) (hlen : 40 ≤ pkt.length) (hversion : byteAt pkt 0 >>> 4 = 6) :
    FixedHeader where
  lead := pkt.take 4
  tail := (pkt.drop 7).take 33
  lead_length := by
    rw [List.length_take]
    omega
  tail_length := by
    rw [List.length_take, List.length_drop]
    omega
  version := by
    rw [← hversion, byteAt, byteAt, List.getD_eq_getElem?_getD, List.getD_eq_getElem?_getD,
      List.getElem?_take_of_lt (by omega)]

/-- The fixed header that the builders write. -/
def built (hopLimit : UInt8) (src dst : Addr16) : FixedHeader where
  lead := [0x60, 0, 0, 0]
  tail := hopLimit :: (src.toList ++ dst.toList)
  lead_length := rfl
  tail_length := by rw [List.length_cons, List.length_append, src.toList_length, dst.toList_length]
  version := by decide

def src (h : FixedHeader) : Addr16 := addr16At h.tail 1

def dst (h : FixedHeader) : Addr16 := addr16At h.tail 17

/-- The packet with a payload that starts with the header `nh`. -/
def packet (h : FixedHeader) (nh : UInt8) (payload : Bytes) : Bytes :=
  h.lead ++ be16 payload.length ++ [nh] ++ h.tail ++ payload

theorem addr16At_toList (a : Addr16) (rest : Bytes) : addr16At (a.toList ++ rest) 0 = a := by
  rw [← List.Vector.ofFn_get a]
  refine congrArg _ (funext fun k => ?_)
  rw [Nat.zero_add, byteAt_append_left (by rw [List.Vector.toList_length]; exact k.2),
    List.Vector.ofFn_get, byteAt, List.getD_eq_getElem?_getD, List.Vector.get_eq_get_toList]
  simp

@[simp] theorem built_src (hopLimit : UInt8) (a b : Addr16) : (built hopLimit a b).src = a := by
  rw [src, built, show 1 = 1 + 0 from rfl, addr16At_add]
  exact addr16At_toList a b.toList

@[simp] theorem built_dst (hopLimit : UInt8) (a b : Addr16) : (built hopLimit a b).dst = b := by
  rw [dst, built, show 17 = 17 + 0 from rfl, addr16At_add, List.drop_succ_cons,
    List.drop_left' a.toList_length, ← List.append_nil b.toList]
  exact addr16At_toList b []

variable (h : FixedHeader) (nh : UInt8) (payload : Bytes)

@[simp] theorem packet_length : (h.packet nh payload).length = 40 + payload.length := by
  simp only [packet, List.length_append, h.lead_length, h.tail_length, be16_length,
    List.length_singleton]

@[simp] theorem packet_take_four : (h.packet nh payload).take 4 = h.lead := by
  simp only [packet, List.append_assoc]
  exact List.take_left' h.lead_length

theorem packet_drop_four :
    (h.packet nh payload).drop 4 = be16 payload.length ++ ([nh] ++ (h.tail ++ payload)) := by
  simp only [packet, List.append_assoc]
  exact List.drop_left' h.lead_length

theorem packet_drop_six : (h.packet nh payload).drop 6 = nh :: (h.tail ++ payload) := by
  rw [show 6 = 4 + 2 from rfl, ← List.drop_drop, packet_drop_four]
  rfl

theorem packet_drop_seven : (h.packet nh payload).drop 7 = h.tail ++ payload := by
  rw [show 7 = 6 + 1 from rfl, ← List.drop_drop, packet_drop_six]
  rfl

@[simp] theorem packet_tail : ((h.packet nh payload).drop 7).take 33 = h.tail := by
  rw [packet_drop_seven]
  exact List.take_left' h.tail_length

@[simp] theorem packet_drop : (h.packet nh payload).drop 40 = payload := by
  rw [show 40 = 7 + 33 from rfl, ← List.drop_drop, packet_drop_seven]
  exact List.drop_left' h.tail_length

theorem packet_version : byteAt (h.packet nh payload) 0 >>> 4 = 6 := by
  have hlead := h.lead_length
  simp only [packet, List.append_assoc]
  rw [byteAt_append_left (by omega), h.version]

theorem packet_next : byteAt (h.packet nh payload) 6 = nh :=
  byteAt_of_drop (h.packet_drop_six nh payload)

theorem packet_plen (hlen : payload.length ≤ 65535) :
    (uint16At (h.packet nh payload) 4).toNat = payload.length := by
  rw [uint16At_of_drop (h.packet_drop_four nh payload)]
  exact UInt16.toNat_ofNat_of_lt' (by show payload.length < 65536; omega)

theorem packet_src : addr16At (h.packet nh payload) 8 = h.src := by
  have htail := h.tail_length
  rw [show 8 = 7 + 1 from rfl, addr16At_add, packet_drop_seven,
    addr16At_append_left (by omega), src]

theorem packet_dst : addr16At (h.packet nh payload) 24 = h.dst := by
  have htail := h.tail_length
  rw [show 24 = 7 + 17 from rfl, addr16At_add, packet_drop_seven,
    addr16At_append_left (by omega), dst]

theorem ipv6Header_append (hopLimit : UInt8) (src dst : Addr16) :
    ipv6Header payload.length nh hopLimit src dst ++ payload =
      (built hopLimit src dst).packet nh payload := by
  simp only [ipv6Header, packet, built, List.append_assoc, List.cons_append, List.nil_append]

theorem parse_packet :
    parseIPv6HeaderChain (h.packet nh payload) =
      walkChain (h.packet nh payload) (40 + payload.length) nh 40 {} := by
  unfold parseIPv6HeaderChain
  rw [if_neg, h.packet_next, packet_length]
  rw [not_or, not_not]
  exact ⟨by rw [packet_length]; omega, h.packet_version nh payload⟩

end FixedHeader

/-! ## What the builders put behind the fixed header -/

/-- The Echo Reply of `buildIPv6ICMPEchoReplyPacket`. -/
def echoReplyMessage (src dst : Addr16) (id seq : UInt16) (data : Bytes) : Bytes :=
  let echo := be16 id.toNat ++ be16 seq.toNat ++ data
  let cs := ipv6UpperLayerChecksum src.toList dst.toList 58 ([129, 0, 0, 0] ++ echo)
  [129, 0] ++ be16 cs.toNat ++ echo

/-- The UDP segment of `buildIPv6UDPDatagram`. -/
def udpSegment (src dst : Addr16) (srcPort dstPort : UInt16) (payload : Bytes) : Bytes :=
  let ports := be16 srcPort.toNat ++ be16 dstPort.toNat ++ be16 (8 + payload.length)
  let cs := ipv6UpperLayerChecksum src.toList dst.toList 17 (ports ++ [0, 0] ++ payload)
  ports ++ be16 (if cs = 0 then 0xffff else cs).toNat ++ payload

theorem echoReplyMessage_length (src dst : Addr16) (id seq : UInt16) (data : Bytes) :
    (echoReplyMessage src dst id seq data).length = 8 + data.length := by
  simp only [echoReplyMessage, List.length_append, be16_length, List.length_cons, List.length_nil]
  omega

theorem udpSegment_length (src dst : Addr16) (srcPort dstPort : UInt16) (payload : Bytes) :
    (udpSegment src dst srcPort dstPort payload).length = 8 + payload.length := by
  simp only [udpSegment, List.length_append, be16_length]

theorem buildIPv6ICMPEchoReplyPacket_eq (src dst : Addr16) (id seq : UInt16) (data : Bytes) :
    buildIPv6ICMPEchoReplyPacket src dst id seq data =
      (FixedHeader.built 64 src dst).packet 58 (echoReplyMessage src dst id seq data) := by
  rw [← FixedHeader.ipv6Header_append, echoReplyMessage_length]
  simp only [buildIPv6ICMPEchoReplyPacket, echoReplyMessage, List.append_assoc]

theorem buildIPv6UDPDatagram_eq (src dst : Addr16) (srcPort dstPort : UInt16) (payload : Bytes) :
    buildIPv6UDPDatagram src dst srcPort dstPort payload =
      (FixedHeader.built 64 src dst).packet 17 (udpSegment src dst srcPort dstPort payload) := by
  rw [← FixedHeader.ipv6Header_append, udpSegment_length]
  simp only [buildIPv6UDPDatagram, udpSegment, List.append_assoc]

/-! ## Extension headers -/

/-- The extension headers that the parser walks over. -/
inductive ExtKind where
  | hopByHop
  | routing
  | destinationOptions
  deriving DecidableEq, Repr

/-- The Next Header value of an extension header. -/
def ExtKind.code : ExtKind → UInt8
  | .hopByHop => 0
  | .routing => 43
  | .destinationOptions => 60

/-- An extension header without its Next Header field.  Its length field counts
units of eight bytes after the first one. -/
structure ExtHeader where
  kind : ExtKind
  len : UInt8
  data : Bytes
  data_length : data.length + 2 = (len.toNat + 1) * 8

/-- The header on the wire. -/
def ExtHeader.encode (e : ExtHeader) (nh : UInt8) : Bytes := [nh, e.len] ++ e.data

/-- The Next Header value in front of a chain that ends in `last`. -/
def nextOf : List ExtHeader → UInt8 → UInt8
  | [], last => last
  | e :: _, _ => e.kind.code

/-- A chain of extension headers that ends in `last`. -/
def encodeChain : List ExtHeader → UInt8 → Bytes
  | [], _ => []
  | e :: es, last => e.encode (nextOf es last) ++ encodeChain es last

theorem ExtHeader.encode_length (e : ExtHeader) (nh : UInt8) :
    (e.encode nh).length = (e.len.toNat + 1) * 8 := by
  have := e.data_length
  simp only [encode, List.length_append, List.length_cons, List.length_nil]
  omega

theorem encodeChain_length_mod (es : List ExtHeader) (last : UInt8) :
    (encodeChain es last).length % 8 = 0 := by
  induction es with
  | nil => rfl
  | cons e es ih =>
    rw [encodeChain, List.length_append, e.encode_length]
    omega

theorem length_le_encodeChain_length (es : List ExtHeader) (last : UInt8) :
    es.length * 8 ≤ (encodeChain es last).length := by
  induction es with
  | nil => exact Nat.zero_le _
  | cons e es ih =>
    rw [encodeChain, List.length_append, e.encode_length, List.length_cons]
    omega

theorem length_of_drop {pkt rest : Bytes} {off : Nat} (h : pkt.drop off = rest)
    (hne : rest ≠ []) : pkt.length = off + rest.length := by
  have hlen := congrArg List.length h
  rw [List.length_drop] at hlen
  have := List.length_pos_of_ne_nil hne
  omega

theorem walkChain_ext {pkt rest : Bytes} {off : Nat} {e : ExtHeader} {nh : UInt8}
    (h : pkt.drop off = e.encode nh ++ rest) (fuel : Nat) (info : ChainInfo) :
    walkChain pkt (fuel + 1) e.kind.code off info =
      walkChain pkt fuel nh (off + (e.encode nh).length) info := by
  have hlen := length_of_drop h (by simp [ExtHeader.encode])
  have hcode : e.kind.code = 0 ∨ e.kind.code = 60 ∨ e.kind.code = 43 := by
    cases e.kind <;> decide
  have hnext : byteAt pkt off = nh := byteAt_of_drop h
  have hext : byteAt pkt (off + 1) = e.len := by
    rw [byteAt_add, h]
    rfl
  rw [List.length_append, e.encode_length] at hlen
  rw [walkChain, if_pos hcode, hext, e.encode_length]
  dsimp only
  rw [if_neg (by omega), hnext]

theorem walkChain_chain {pkt rest : Bytes} {es : List ExtHeader} {last : UInt8} {off : Nat}
    (h : pkt.drop off = encodeChain es last ++ rest) (fuel : Nat) (info : ChainInfo) :
    walkChain pkt (es.length + fuel) (nextOf es last) off info =
      walkChain pkt fuel last (off + (encodeChain es last).length) info := by
  induction es generalizing off with
  | nil => rw [List.length_nil, Nat.zero_add]; rfl
  | cons e es ih =>
    rw [encodeChain, List.append_assoc] at h
    have hnext : pkt.drop (off + (e.encode (nextOf es last)).length)
        = encodeChain es last ++ rest := by
      rw [← List.drop_drop, h]
      exact List.drop_left
    rw [List.length_cons, Nat.add_right_comm, nextOf, walkChain_ext h, ih hnext, encodeChain,
      List.length_append, Nat.add_assoc]

/-! ## Fragments -/

/-- The Fragment header of a fragment. -/
def fragmentHeader (nh : UInt8) (ident : UInt32) (f : Fragment) : Bytes :=
  [nh, 0] ++ be16 (f.offsetUnits.toNat * 8 + if f.more then 1 else 0) ++ be32 ident.toNat

/-- A fragment on the wire, after a chain of extension headers; `nh` is the first
header of what was fragmented. -/
def fragmentPacket (h : FixedHeader) (pre : List ExtHeader) (nh : UInt8) (ident : UInt32)
    (f : Fragment) : Bytes :=
  h.packet (nextOf pre 44) (encodeChain pre 44 ++ (fragmentHeader nh ident f ++ f.bytes))

/-- Where the bytes of a fragment begin. -/
def fragmentStart (pre : List ExtHeader) : Nat := 40 + (encodeChain pre 44).length + 8

/-- What the parser has read of a fragment after its Fragment header. -/
def fragmentInfo (ident : UInt32) (f : Fragment) : ChainInfo where
  fragOffset := f.offsetUnits
  fragIdent := ident
  fragMore := f.more
  isFrag := true

theorem fragmentHeader_length (nh : UInt8) (ident : UInt32) (f : Fragment) :
    (fragmentHeader nh ident f).length = 8 := rfl

theorem fragmentWord {off : UInt16} (more : Bool) (hoff : off.toNat < 8192) :
    UInt16.ofNat (off.toNat * 8 + if more then 1 else 0) >>> 3 = off ∧
      decide (UInt16.ofNat (off.toNat * 8 + if more then 1 else 0) &&& 1 ≠ 0) = more := by
  have hlt : off.toNat * 8 + (if more then 1 else 0) < UInt16.size := by
    show _ < 65536
    split <;> omega
  constructor
  · apply UInt16.toNat_inj.mp
    rw [UInt16.toNat_shiftRight, UInt16.toNat_ofNat_of_lt' hlt]
    show (_ : Nat) >>> 3 = _
    rw [Nat.shiftRight_eq_div_pow]
    split <;> omega
  · apply Bool.eq_iff_iff.mpr
    rw [decide_eq_true_iff, Ne, ← UInt16.toNat_inj, UInt16.toNat_and, UInt16.toNat_ofNat_of_lt' hlt]
    show ¬ (_ &&& 1 = 0) ↔ _
    rw [Nat.and_one_is_mod]
    cases more <;> simp <;> omega

theorem walkChain_fragment {pkt rest : Bytes} {off : Nat} {nh : UInt8} {ident : UInt32}
    {f : Fragment} (h : pkt.drop off = fragmentHeader nh ident f ++ rest)
    (hoff : f.offsetUnits.toNat < 8192) (fuel : Nat) :
    walkChain pkt (fuel + 1) 44 off {} =
      walkChain pkt fuel nh (off + 8) (fragmentInfo ident f) := by
  have hlen := length_of_drop h (by simp [fragmentHeader])
  rw [List.length_append, fragmentHeader_length] at hlen
  have hnext : byteAt pkt off = nh := byteAt_of_drop h
  have hword : uint16At pkt (off + 2) =
      UInt16.ofNat (f.offsetUnits.toNat * 8 + if f.more then 1 else 0) := by
    have hdrop : pkt.drop (off + 2) =
        be16 (f.offsetUnits.toNat * 8 + if f.more then 1 else 0) ++
          (be32 ident.toNat ++ rest) := by
      rw [← List.drop_drop, h]
      rfl
    exact uint16At_of_drop hdrop
  have hident : uint32At pkt (off + 4) = ident := by
    have hdrop : pkt.drop (off + 4) = be32 ident.toNat ++ rest := by
      rw [← List.drop_drop, h]
      rfl
    rw [uint32At_of_drop hdrop, UInt32.ofNat_toNat]
  obtain ⟨hshift, hflag⟩ := fragmentWord f.more hoff
  rw [walkChain, if_neg (by decide), if_pos rfl, if_neg (by simp; omega), hword, hident, hnext]
  dsimp only
  rw [hshift, hflag, fragmentInfo]

theorem fragmentPacket_length (h : FixedHeader) (pre : List ExtHeader) (nh : UInt8)
    (ident : UInt32) (f : Fragment) :
    (fragmentPacket h pre nh ident f).length = fragmentStart pre + f.bytes.length := by
  rw [fragmentPacket, FixedHeader.packet_length, List.length_append, List.length_append,
    fragmentHeader_length, fragmentStart]
  omega

theorem fragmentPacket_drop (h : FixedHeader) (pre : List ExtHeader) (nh : UInt8)
    (ident : UInt32) (f : Fragment) :
    (fragmentPacket h pre nh ident f).drop (fragmentStart pre) = f.bytes := by
  rw [fragmentPacket, fragmentStart, Nat.add_assoc, ← List.drop_drop, FixedHeader.packet_drop,
    ← List.drop_drop, List.drop_left]
  rfl

theorem parse_fragmentPacket (h : FixedHeader) (pre : List ExtHeader) (nh : UInt8)
    (ident : UInt32) {f : Fragment} (hoff : f.offsetUnits.toNat < 8192) :
    ∃ fuel, f.bytes.length < fuel ∧
      parseIPv6HeaderChain (fragmentPacket h pre nh ident f) =
        walkChain (fragmentPacket h pre nh ident f) fuel nh (fragmentStart pre)
          (fragmentInfo ident f) := by
  have hchain := length_le_encodeChain_length pre 44
  refine ⟨40 + (encodeChain pre 44).length - pre.length + 7 + f.bytes.length, by omega, ?_⟩
  have hdrop : (fragmentPacket h pre nh ident f).drop 40 =
      encodeChain pre 44 ++ (fragmentHeader nh ident f ++ f.bytes) := FixedHeader.packet_drop ..
  have hnext : (fragmentPacket h pre nh ident f).drop (40 + (encodeChain pre 44).length) =
      fragmentHeader nh ident f ++ f.bytes := by
    rw [← List.drop_drop, hdrop, List.drop_left]
  have hfuel : 40 + (encodeChain pre 44 ++ (fragmentHeader nh ident f ++ f.bytes)).length =
      pre.length + ((40 + (encodeChain pre 44).length - pre.length + 7 + f.bytes.length) + 1) := by
    rw [List.length_append, List.length_append, fragmentHeader_length]
    omega
  rw [fragmentPacket, FixedHeader.parse_packet, hfuel, ← fragmentPacket, walkChain_chain hdrop,
    walkChain_fragment hnext hoff, fragmentStart]

theorem parse_icmpv6Fragment (h : FixedHeader) (pre : List ExtHeader) (ident : UInt32)
    {f : Fragment} (hoff : f.offsetUnits.toNat < 8192) :
    parseIPv6HeaderChain (fragmentPacket h pre 58 ident f) =
      ({ fragmentInfo ident f with l4Offset := fragmentStart pre }, .icmpv6) := by
  obtain ⟨fuel, hfuel, hparse⟩ := parse_fragmentPacket h pre 58 ident hoff
  obtain ⟨fuel, rfl⟩ : ∃ k, fuel = k + 1 := ⟨fuel - 1, by omega⟩
  rw [hparse, walkChain, if_neg (by decide), if_neg (by decide), if_pos rfl]

end Ydn64.Nat64
