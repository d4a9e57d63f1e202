import Ydn64.Nat64.HeaderChain
import Ydn64.Nat64.IcmpErr
import Ydn64.Lib.OnesComplement

/-!
# The packets that the translator writes are valid

A receiver adds up the pseudo-header and the message of a packet in one's
complement and takes the message if the sum is all ones (`Verifies`).  The code
adds up in a `uint32`, folds the carries in at the end and writes the complement.
The two meet at the plain sum of the words: the receiver needs a multiple of
65535, and the complement of the folded sum makes it one.

A checksum field holds zero or, in a quoted UDP header, `0xffff` while the sum is
computed.  Both are multiples of 65535, so the sum does not see them.

`synthesised_wireValid` is the result for the three builders with all that their
callers pass.  The functions with `Checked` in their names do what the code does
and answer `none` where its accumulator would overflow or where it would read or
write outside a slice.
-/

namespace Ydn64.Nat64

open Ydn64.GoStd Ydn64.Config Ydn64.Lib

/-! ## The accumulator -/

/-- `addBytes` with every addition checked. -/
def addBytesChecked : Nat → Bytes → Option Nat
  | sum, [] => some sum
  | sum, [b] => if sum + b.toNat * 256 < 2 ^ 32 then some (sum + b.toNat * 256) else none
  | sum, hi :: lo :: rest =>
    if sum + (hi.toNat * 256 + lo.toNat) < 2 ^ 32 then
      addBytesChecked (sum + (hi.toNat * 256 + lo.toNat)) rest
    else none

theorem addBytes_eq (sum : Nat) (b : Bytes) (h : sum + (words b).sum < 2 ^ 32) :
    addBytes sum b = sum + (words b).sum ∧ addBytesChecked sum b = some (sum + (words b).sum) := by
  induction sum, b using addBytes.induct with
  | case1 sum => exact ⟨rfl, rfl⟩
  | case2 sum b =>
    simp only [words, List.sum_cons, List.sum_nil, Nat.add_zero] at h ⊢
    rw [addBytes, addBytesChecked, if_pos h, Nat.mod_eq_of_lt h]
    exact ⟨rfl, rfl⟩
  | case3 sum hi lo rest ih =>
    simp only [words, List.sum_cons] at h ⊢
    rw [← Nat.add_assoc sum] at h ⊢
    have hlt : sum + (hi.toNat * 256 + lo.toNat) < 2 ^ 32 :=
      Nat.lt_of_le_of_lt (Nat.le_add_right _ _) h
    rw [Nat.mod_eq_of_lt hlt] at ih
    rw [addBytes, addBytesChecked, if_pos hlt, Nat.mod_eq_of_lt hlt]
    exact ih h

/-- `ipv6UpperLayerChecksum` with every addition checked. -/
def ipv6UpperLayerChecksumChecked (src dst : Bytes) (nextHeader : UInt8) (upperLayer : Bytes) :
    Option UInt16 := do
  let sum ← addBytesChecked 0 src
  let sum ← addBytesChecked sum dst
  let sum ← addBytesChecked sum (be32 upperLayer.length)
  let sum ← if sum + nextHeader.toNat < 2 ^ 32 then some (sum + nextHeader.toNat) else none
  let sum ← addBytesChecked sum upperLayer
  some (~~~ UInt16.ofNat (foldCarry (foldCarry sum)))

/-! ## The sum of a message -/

/-- The pseudo-header of RFC 8200 section 8.1. -/
def pseudoHeader (src dst : Addr16) (nextHeader : UInt8) (len : Nat) : Bytes :=
  src.toList ++ dst.toList ++ be32 len ++ [0, 0, 0, nextHeader]

/-- The plain sum over the pseudo-header and the message. -/
def messageSum (src dst : Addr16) (nextHeader : UInt8) (msg : Bytes) : Nat :=
  (words (pseudoHeader src dst nextHeader msg.length ++ msg)).sum

/-- The checksum of the message is right. -/
def Verifies (src dst : Addr16) (nextHeader : UInt8) (msg : Bytes) : Prop :=
  ocSum 65535 (words (pseudoHeader src dst nextHeader msg.length ++ msg)) = 65535

section Sum

variable {src dst : Addr16} {nextHeader : UInt8}

theorem verifies_iff {msg : Bytes} :
    Verifies src dst nextHeader msg ↔
      0 < messageSum src dst nextHeader msg ∧ messageSum src dst nextHeader msg % 65535 = 0 :=
  ocSum_eq_allOnes_iff le_of_mem_words (by decide)

theorem messageSum_eq (msg : Bytes) :
    messageSum src dst nextHeader msg =
      (words src.toList).sum + (words dst.toList).sum + (words (be32 msg.length)).sum +
        nextHeader.toNat + (words msg).sum := by
  unfold messageSum pseudoHeader
  rw [words_append (by simp), words_append (by simp), words_append (by simp),
    words_append (by simp)]
  simp [List.sum_append, words, Nat.add_assoc]

theorem messageSum_lt {msg : Bytes} (hlen : msg.length ≤ 65535) :
    messageSum src dst nextHeader msg < 2 ^ 32 := by
  have hsrc := sum_words_le src.toList
  have hdst := sum_words_le dst.toList
  have hbe := sum_words_le (be32 msg.length)
  have hmsg := sum_words_le msg
  have hnext := nextHeader.toNat_lt
  rw [src.toList_length] at hsrc
  rw [dst.toList_length] at hdst
  rw [be32_length] at hbe
  rw [messageSum_eq]
  omega

/-- The code computes the plain sum. -/
theorem ipv6UpperLayerChecksum_eq {msg : Bytes} (hlen : msg.length ≤ 65535) :
    ipv6UpperLayerChecksum src.toList dst.toList nextHeader msg =
        ~~~ UInt16.ofNat (foldCarry (foldCarry (messageSum src dst nextHeader msg))) ∧
      ipv6UpperLayerChecksumChecked src.toList dst.toList nextHeader msg =
        some (ipv6UpperLayerChecksum src.toList dst.toList nextHeader msg) := by
  have hlt : messageSum src dst nextHeader msg < 2 ^ 32 := messageSum_lt hlen
  rw [messageSum_eq] at hlt ⊢
  obtain ⟨h1, h1'⟩ := addBytes_eq 0 src.toList (by omega)
  rw [Nat.zero_add] at h1 h1'
  obtain ⟨h2, h2'⟩ := addBytes_eq (words src.toList).sum dst.toList (by omega)
  obtain ⟨h3, h3'⟩ := addBytes_eq ((words src.toList).sum + (words dst.toList).sum)
    (be32 msg.length) (by omega)
  have h4 : (words src.toList).sum + (words dst.toList).sum + (words (be32 msg.length)).sum +
      nextHeader.toNat < 2 ^ 32 := by omega
  obtain ⟨h5, h5'⟩ := addBytes_eq _ msg hlt
  have heq : ipv6UpperLayerChecksum src.toList dst.toList nextHeader msg =
      ~~~ UInt16.ofNat (foldCarry (foldCarry
        ((words src.toList).sum + (words dst.toList).sum + (words (be32 msg.length)).sum +
          nextHeader.toNat + (words msg).sum))) := by
    unfold ipv6UpperLayerChecksum
    dsimp only
    rw [h1, h2, h3, Nat.mod_eq_of_lt h4, h5]
  refine ⟨heq, ?_⟩
  rw [heq]
  unfold ipv6UpperLayerChecksumChecked
  simp only [Option.bind_eq_bind, h1', Option.bind_some, h2', h3', if_pos h4, h5']

theorem foldCarry_mod (n : Nat) : foldCarry n % 65535 = n % 65535 := by
  unfold foldCarry
  split
  · exact div_add_mod_mod 65535 n
  · rfl

theorem messageSum_add_checksum {msg : Bytes} (hlen : msg.length ≤ 65535) :
    (messageSum src dst nextHeader msg +
      (ipv6UpperLayerChecksum src.toList dst.toList nextHeader msg).toNat) % 65535 = 0 := by
  have hlt : messageSum src dst nextHeader msg < 2 ^ 32 := messageSum_lt hlen
  have hle := foldCarry_foldCarry_le hlt
  have hmod := (foldCarry_mod (foldCarry (messageSum src dst nextHeader msg))).trans
    (foldCarry_mod _)
  rw [(ipv6UpperLayerChecksum_eq hlen).1, UInt16.toNat_not,
    UInt16.toNat_ofNat_of_lt' (by show _ < 65536; omega)]
  show (_ + (65535 - _)) % 65535 = 0
  omega

theorem sum_words_be16 {v : Nat} (hv : v ≤ 65535) : (words (be16 v)).sum = v := by
  simp only [be16, words, List.sum_cons, List.sum_nil, UInt8.toNat_ofNat']
  omega

theorem messageSum_field {a : Bytes} (ha : a.length % 2 = 0) (b : Bytes) {v : Nat}
    (hv : v ≤ 65535) :
    messageSum src dst nextHeader (a ++ (be16 v ++ b)) =
      messageSum src dst nextHeader (a ++ (be16 0 ++ b)) + v := by
  have hlen : (a ++ (be16 v ++ b)).length = (a ++ (be16 0 ++ b)).length := by simp
  rw [messageSum_eq, messageSum_eq, hlen, words_append ha, words_append ha,
    words_append (by simp), words_append (by simp)]
  simp only [List.sum_append, sum_words_be16 hv, sum_words_be16 (Nat.zero_le _)]
  omega

/-- A message verifies with its checksum in the field that held `v` when it was
computed, where `v` and the number written may be in either form of zero. -/
theorem verifies_of_checksum {a b : Bytes} {v c : Nat} (ha : a.length % 2 = 0)
    (hnext : nextHeader ≠ 0) (hv : v = 0 ∨ v = 65535) (hc : c ≤ 65535)
    (hlen : (a ++ (be16 v ++ b)).length ≤ 65535)
    (hmod : c % 65535 = (ipv6UpperLayerChecksum src.toList dst.toList nextHeader
      (a ++ (be16 v ++ b))).toNat % 65535) :
    Verifies src dst nextHeader (a ++ (be16 c ++ b)) := by
  have hsum : (messageSum src dst nextHeader (a ++ (be16 v ++ b)) + (ipv6UpperLayerChecksum
      src.toList dst.toList nextHeader (a ++ (be16 v ++ b))).toNat) % 65535 = 0 :=
    messageSum_add_checksum hlen
  have hpos : 0 < nextHeader.toNat := by
    apply Nat.pos_of_ne_zero
    intro hzero
    exact hnext (UInt8.toNat_inj.mp hzero)
  have hbase : nextHeader.toNat ≤ messageSum src dst nextHeader (a ++ (be16 0 ++ b)) := by
    rw [messageSum_eq]
    omega
  rw [messageSum_field ha b (by omega)] at hsum
  rw [verifies_iff, messageSum_field ha b hc]
  omega

end Sum

/-! ## The builders, checked -/

/-- `binary.BigEndian.Uint16` of a slice that may be too short. -/
def uint16AtChecked (b : Bytes) (i : Nat) : Option UInt16 :=
  if i + 2 ≤ b.length then some (uint16At b i) else none

/-- `binary.BigEndian.PutUint16` into a slice that may be too short. -/
def putUint16Checked (b : Bytes) (i n : Nat) : Option Bytes :=
  if i + 2 ≤ b.length then some (putUint16 b i n) else none

/-- `buildIPv6UDPDatagram`. -/
def buildIPv6UDPDatagramChecked (src dst : Addr16) (srcPort dstPort : UInt16)
    (payload : Bytes) : Option Bytes := do
  let udpLen := 8 + payload.length
  let ports := be16 srcPort.toNat ++ be16 dstPort.toNat ++ be16 udpLen
  let cs ← ipv6UpperLayerChecksumChecked src.toList dst.toList 17 (ports ++ [0, 0] ++ payload)
  let cs := if cs = 0 then 0xffff else cs
  some (ipv6Header udpLen 17 64 src dst ++ ports ++ be16 cs.toNat ++ payload)

/-- `buildIPv6ICMPEchoReplyPacket`. -/
def buildIPv6ICMPEchoReplyPacketChecked (src dst : Addr16) (id seq : UInt16) (data : Bytes) :
    Option Bytes := do
  let echo := be16 id.toNat ++ be16 seq.toNat ++ data
  let cs ← ipv6UpperLayerChecksumChecked src.toList dst.toList 58 ([129, 0, 0, 0] ++ echo)
  some (ipv6Header (8 + data.length) 58 64 src dst ++ [129, 0] ++ be16 cs.toNat ++ echo)

/-- The inner checksum of `buildIPv6ICMPErrorPacket`. -/
def quoteSegmentChecked (src dst : Addr16) (proto : UInt8) (seg : Bytes) : Option Bytes :=
  if proto = 17 then do
    let seg ← putUint16Checked seg 4 seg.length
    let word ← uint16AtChecked seg 6
    if word ≠ 0 then do
      let cs ← ipv6UpperLayerChecksumChecked src.toList dst.toList 17 seg
      putUint16Checked seg 6 (if cs = 0 then 0xffff else cs).toNat
    else some seg
  else if proto = 58 then do
    let seg ← putUint16Checked seg 2 0
    let cs ← ipv6UpperLayerChecksumChecked src.toList dst.toList 58 seg
    putUint16Checked seg 2 cs.toNat
  else if proto = 6 then do
    let seg ← putUint16Checked seg 16 0
    let cs ← ipv6UpperLayerChecksumChecked src.toList dst.toList 6 seg
    putUint16Checked seg 16 cs.toNat
  else some seg

/-- `buildIPv6ICMPErrorPacket`. -/
def buildIPv6ICMPErrorPacketChecked (src dst : Addr16) (errType errCode : UInt8) (extra : Nat)
    (innerSrc innerDst : Addr16) (innerTTL innerProto : UInt8) (innerL4 : Bytes) :
    Option Bytes := do
  let innerL4 := innerL4.take (icmpErrMaxPacket - icmpErrFixedLen)
  let seg ← quoteSegmentChecked innerSrc innerDst innerProto innerL4
  let quote := be32 extra ++ ipv6Header innerL4.length innerProto innerTTL innerSrc innerDst ++ seg
  let cs ← ipv6UpperLayerChecksumChecked src.toList dst.toList 58
    ([errType, errCode, 0, 0] ++ quote)
  some (ipv6Header (icmpErrFixedLen + innerL4.length - 40) 58 64 src dst ++
    [errType, errCode] ++ be16 cs.toNat ++ quote)

/-! ## Quoted segments -/

/-- The segments that the callers of `buildIPv6ICMPErrorPacket` build: a UDP header
with any length and the placeholder `0xffff` for a checksum, or the header of an
echo request with none, and as much as there is of what follows. -/
inductive Quote where
  | udp (srcPort dstPort : UInt16) (len : Nat) (rest : Bytes)
  | echo (id seq : UInt16) (rest : Bytes)

namespace Quote

def proto : Quote → UInt8
  | udp .. => 17
  | echo .. => 58

def segment : Quote → Bytes
  | udp srcPort dstPort len rest =>
    be16 srcPort.toNat ++ be16 dstPort.toNat ++ be16 len ++ [0xff, 0xff] ++ rest
  | echo id seq rest => [128, 0, 0, 0] ++ be16 id.toNat ++ be16 seq.toNat ++ rest

/-- The quote with at most `n` bytes after its header. -/
def truncate (n : Nat) : Quote → Quote
  | udp srcPort dstPort len rest => udp srcPort dstPort len (rest.take n)
  | echo id seq rest => echo id seq (rest.take n)

/-- The segment in the error, with its length and its checksum. -/
def written (src dst : Addr16) : Quote → Bytes
  | udp srcPort dstPort _ rest =>
    let ports := be16 srcPort.toNat ++ be16 dstPort.toNat ++ be16 (8 + rest.length)
    let cs := ipv6UpperLayerChecksum src.toList dst.toList 17 (ports ++ (be16 0xffff ++ rest))
    ports ++ (be16 (if cs = 0 then 0xffff else cs).toNat ++ rest)
  | echo id seq rest =>
    let echo := be16 id.toNat ++ be16 seq.toNat ++ rest
    let cs := ipv6UpperLayerChecksum src.toList dst.toList 58 ([128, 0] ++ (be16 0 ++ echo))
    [128, 0] ++ (be16 cs.toNat ++ echo)

/-- The bytes after the header. -/
def rest : Quote → Bytes
  | udp _ _ _ rest => rest
  | echo _ _ rest => rest

theorem segment_length (q : Quote) : q.segment.length = 8 + q.rest.length := by
  cases q <;> simp [segment, rest] <;> omega

theorem written_length (src dst : Addr16) (q : Quote) :
    (q.written src dst).length = 8 + q.rest.length := by
  cases q <;> simp [written, rest] <;> omega

theorem take_segment (n : Nat) (q : Quote) : q.segment.take (8 + n) = (q.truncate n).segment := by
  cases q with
  | udp srcPort dstPort len rest =>
    exact @List.take_length_add_append _
      (be16 srcPort.toNat ++ be16 dstPort.toNat ++ be16 len ++ [0xff, 0xff]) rest n
  | echo id seq rest =>
    exact @List.take_length_add_append _
      ([128, 0, 0, 0] ++ be16 id.toNat ++ be16 seq.toNat) rest n

end Quote

theorem putUint16_append {a b c : Bytes} {i v : Nat} (hi : a.length = i)
    (hc : c = a ++ (be16 v ++ b)) (n : Nat) :
    putUint16 c i n = a ++ (be16 n ++ b) ∧ putUint16Checked c i n = some (a ++ (be16 n ++ b)) := by
  have hput : putUint16 c i n = a ++ (be16 n ++ b) := by
    subst hi hc
    simp [putUint16, be16]
  refine ⟨hput, ?_⟩
  rw [putUint16Checked, hput, if_pos]
  rw [hc, ← hi]
  simp

theorem quoteSegment_udp (src dst : Addr16) (srcPort dstPort : UInt16) (len : Nat) (rest : Bytes) :
    quoteSegment src dst 17 (Quote.udp srcPort dstPort len rest).segment =
        (Quote.udp srcPort dstPort len rest).written src dst ∧
      (8 + rest.length ≤ 65535 →
        quoteSegmentChecked src dst 17 (Quote.udp srcPort dstPort len rest).segment =
          some ((Quote.udp srcPort dstPort len rest).written src dst)) := by
  have hlen : (Quote.udp srcPort dstPort len rest).segment.length = 8 + rest.length :=
    Quote.segment_length _
  -- The length field is written first, then the checksum over the placeholder.
  obtain ⟨hput, hput'⟩ := putUint16_append (i := 4) (v := len)
    (a := be16 srcPort.toNat ++ be16 dstPort.toNat) (b := be16 0xffff ++ rest)
    (c := (Quote.udp srcPort dstPort len rest).segment) rfl
    (by simp only [Quote.segment, List.append_assoc]; rfl) (8 + rest.length)
  rw [← List.append_assoc] at hput hput'
  have hdrop : (be16 srcPort.toNat ++ be16 dstPort.toNat ++ be16 (8 + rest.length) ++
      (be16 0xffff ++ rest)).drop 6 = be16 0xffff ++ rest := rfl
  have hcs := fun n => putUint16_append (i := 6) (v := 0xffff) (b := rest)
    (a := be16 srcPort.toNat ++ be16 dstPort.toNat ++ be16 (8 + rest.length)) rfl rfl n
  have hword : uint16At (be16 srcPort.toNat ++ be16 dstPort.toNat ++ be16 (8 + rest.length) ++
      (be16 0xffff ++ rest)) 6 ≠ 0 := by
    rw [uint16At_of_drop hdrop]
    decide
  unfold quoteSegment quoteSegmentChecked Quote.written
  rw [if_pos rfl, if_pos rfl, hlen, hput, hput']
  dsimp only [Option.bind_eq_bind, Option.bind_some]
  rw [if_pos hword, (hcs _).1]
  refine ⟨rfl, fun hle => ?_⟩
  rw [uint16AtChecked, if_pos (by simp; omega), Option.bind_some, if_pos hword,
    (ipv6UpperLayerChecksum_eq (by simp; omega)).2, Option.bind_some, (hcs _).2]

theorem quoteSegment_echo (src dst : Addr16) (id seq : UInt16) (rest : Bytes) :
    quoteSegment src dst 58 (Quote.echo id seq rest).segment =
        (Quote.echo id seq rest).written src dst ∧
      (8 + rest.length ≤ 65535 →
        quoteSegmentChecked src dst 58 (Quote.echo id seq rest).segment =
          some ((Quote.echo id seq rest).written src dst)) := by
  have hput := fun n => putUint16_append (i := 2) (v := 0) (a := [128, 0])
    (b := be16 id.toNat ++ be16 seq.toNat ++ rest)
    (c := (Quote.echo id seq rest).segment) rfl
    (by simp only [Quote.segment, List.append_assoc]; rfl) n
  have hcs := fun n => putUint16_append (i := 2) (v := 0) (a := [128, 0])
    (b := be16 id.toNat ++ be16 seq.toNat ++ rest) rfl rfl n
  unfold quoteSegment quoteSegmentChecked Quote.written
  rw [if_neg (by decide), if_pos rfl, if_neg (by decide), if_pos rfl, (hput 0).1, (hput 0).2]
  dsimp only [Option.bind_eq_bind, Option.bind_some]
  rw [(hcs _).1]
  refine ⟨rfl, fun hle => ?_⟩
  rw [(ipv6UpperLayerChecksum_eq (by simp; omega)).2, Option.bind_some, (hcs _).2]

theorem quoteSegment_quote (src dst : Addr16) (q : Quote) :
    quoteSegment src dst q.proto q.segment = q.written src dst ∧
      (8 + q.rest.length ≤ 65535 →
        quoteSegmentChecked src dst q.proto q.segment = some (q.written src dst)) := by
  cases q with
  | udp srcPort dstPort len rest => exact quoteSegment_udp src dst srcPort dstPort len rest
  | echo id seq rest => exact quoteSegment_echo src dst id seq rest

/-! ## What a receiver checks -/

/-- A packet with `proto` right after the fixed header: its lengths agree with its
size, its checksum verifies, and a UDP checksum is not zero. -/
structure WireValid (pkt : Bytes) (proto : UInt8) : Prop where
  length : 40 ≤ pkt.length
  version : byteAt pkt 0 >>> 4 = 6
  next : byteAt pkt 6 = proto
  plen : (uint16At pkt 4).toNat = pkt.length - 40
  checksum : Verifies (addr16At pkt 8) (addr16At pkt 24) proto (pkt.drop 40)
  udp : proto = 17 → (uint16At pkt 44).toNat = pkt.length - 40 ∧ uint16At pkt 46 ≠ 0

theorem wireValid_packet (h : FixedHeader) {proto : UInt8} {msg : Bytes}
    (hlen : msg.length ≤ 65535) (hsum : Verifies h.src h.dst proto msg)
    (hudp : proto = 17 → uint16At msg 4 = UInt16.ofNat msg.length ∧ uint16At msg 6 ≠ 0) :
    WireValid (h.packet proto msg) proto where
  length := by
    rw [h.packet_length]
    exact Nat.le_add_right 40 _
  version := h.packet_version proto msg
  next := h.packet_next proto msg
  plen := by
    rw [h.packet_plen proto msg hlen, h.packet_length, Nat.add_sub_cancel_left]
  checksum := by
    rw [h.packet_src, h.packet_dst, h.packet_drop]
    exact hsum
  udp := by
    intro hproto
    obtain ⟨hlenField, hzero⟩ := hudp hproto
    rw [show 44 = 40 + 4 from rfl, show 46 = 40 + 6 from rfl, uint16At_add, uint16At_add,
      h.packet_drop, h.packet_length, Nat.add_sub_cancel_left, hlenField]
    exact ⟨UInt16.toNat_ofNat_of_lt' (by show msg.length < 65536; omega), hzero⟩

theorem wireValid_built_udp (hopLimit : UInt8) {src dst : Addr16} {msg : Bytes}
    (hlen : msg.length ≤ 65535) (hsum : Verifies src dst 17 msg)
    (hfields : uint16At msg 4 = UInt16.ofNat msg.length ∧ uint16At msg 6 ≠ 0) :
    WireValid ((FixedHeader.built hopLimit src dst).packet 17 msg) 17 := by
  apply wireValid_packet _ hlen ?_ (fun _ => hfields)
  rwa [FixedHeader.built_src, FixedHeader.built_dst]

theorem wireValid_built_icmpv6 (hopLimit : UInt8) {src dst : Addr16} {msg : Bytes}
    (hlen : msg.length ≤ 65535) (hsum : Verifies src dst 58 msg) :
    WireValid ((FixedHeader.built hopLimit src dst).packet 58 msg) 58 := by
  apply wireValid_packet _ hlen ?_ (fun h => absurd h (by decide))
  rwa [FixedHeader.built_src, FixedHeader.built_dst]

/-- A UDP segment with its checksum in place of zero or of the placeholder. -/
theorem udp_valid (src dst : Addr16) (srcPort dstPort : UInt16) {rest : Bytes} {v : Nat}
    (hv : v = 0 ∨ v = 65535) (hlen : 8 + rest.length ≤ 65535) {cs : UInt16}
    (hcs : cs = ipv6UpperLayerChecksum src.toList dst.toList 17
      (be16 srcPort.toNat ++ be16 dstPort.toNat ++ be16 (8 + rest.length) ++ (be16 v ++ rest)))
    (seg : Bytes)
    (hseg : seg = be16 srcPort.toNat ++ be16 dstPort.toNat ++ be16 (8 + rest.length) ++
      (be16 (if cs = 0 then 0xffff else cs).toNat ++ rest)) :
    Verifies src dst 17 seg ∧ uint16At seg 4 = UInt16.ofNat seg.length ∧ uint16At seg 6 ≠ 0 := by
  have hsize : seg.length = 8 + rest.length := by
    rw [hseg]
    simp
    omega
  have hlt := (if cs = 0 then 0xffff else cs).toNat_lt
  refine ⟨?_, ?_, ?_⟩
  · rw [hseg]
    refine verifies_of_checksum (by simp) (by decide) hv (by omega) (by simp; omega) ?_
    rw [← hcs]
    split_ifs with hzero
    · rw [hzero]
      decide
    · rfl
  · rw [hsize, uint16At_of_drop (n := 8 + rest.length)]
    rw [hseg]
    rfl
  · have hdrop : seg.drop 6 = be16 (if cs = 0 then 0xffff else cs).toNat ++ rest := by
      rw [hseg]
      rfl
    rw [uint16At_of_drop hdrop, UInt16.ofNat_toNat]
    split_ifs with hzero
    · decide
    · exact hzero

theorem icmpv6_valid (src dst : Addr16) (type code : UInt8) (rest : Bytes)
    (hlen : 4 + rest.length ≤ 65535) :
    Verifies src dst 58 ([type, code] ++ (be16 (ipv6UpperLayerChecksum src.toList dst.toList 58
      ([type, code] ++ (be16 0 ++ rest))).toNat ++ rest)) := by
  have hlt := (ipv6UpperLayerChecksum src.toList dst.toList 58
    ([type, code] ++ (be16 0 ++ rest))).toNat_lt
  exact verifies_of_checksum (by simp) (by decide) (.inl rfl) (by omega) (by simp; omega) rfl

theorem buildIPv6UDPDatagram_valid (src dst : Addr16) (srcPort dstPort : UInt16)
    (payload : Bytes) (hlen : 8 + payload.length ≤ 65535) :
    WireValid (buildIPv6UDPDatagram src dst srcPort dstPort payload) 17 ∧
      buildIPv6UDPDatagramChecked src dst srcPort dstPort payload =
        some (buildIPv6UDPDatagram src dst srcPort dstPort payload) := by
  have hsize := udpSegment_length src dst srcPort dstPort payload
  obtain ⟨hsum, hfields⟩ := udp_valid src dst srcPort dstPort (v := 0) (.inl rfl) hlen rfl
    (udpSegment src dst srcPort dstPort payload)
    (by simp only [udpSegment, List.append_assoc]; rfl)
  constructor
  · rw [buildIPv6UDPDatagram_eq]
    exact wireValid_built_udp _ (by omega) hsum hfields
  · unfold buildIPv6UDPDatagramChecked
    dsimp only
    rw [(ipv6UpperLayerChecksum_eq (by simp; omega)).2]
    rfl

theorem buildIPv6ICMPEchoReplyPacket_valid (src dst : Addr16) (id seq : UInt16) (data : Bytes)
    (hlen : 8 + data.length ≤ 65535) :
    WireValid (buildIPv6ICMPEchoReplyPacket src dst id seq data) 58 ∧
      buildIPv6ICMPEchoReplyPacketChecked src dst id seq data =
        some (buildIPv6ICMPEchoReplyPacket src dst id seq data) := by
  have hsize := echoReplyMessage_length src dst id seq data
  have hsum : Verifies src dst 58 (echoReplyMessage src dst id seq data) :=
    icmpv6_valid src dst 129 0 (be16 id.toNat ++ be16 seq.toNat ++ data) (by simp; omega)
  constructor
  · rw [buildIPv6ICMPEchoReplyPacket_eq]
    exact wireValid_built_icmpv6 _ (by omega) hsum
  · unfold buildIPv6ICMPEchoReplyPacketChecked
    dsimp only
    rw [(ipv6UpperLayerChecksum_eq (by simp; omega)).2]
    rfl

/-! ## Errors -/

/-- What `buildIPv6ICMPErrorPacket` embeds. -/
def quotedPacket (innerSrc innerDst : Addr16) (innerTTL : UInt8) (q : Quote) : Bytes :=
  (FixedHeader.built innerTTL innerSrc innerDst).packet q.proto (q.written innerSrc innerDst)

/-- The error of `buildIPv6ICMPErrorPacket`. -/
def errorMessage (src dst : Addr16) (errType errCode : UInt8) (extra : Nat) (quoted : Bytes) :
    Bytes :=
  let cs := ipv6UpperLayerChecksum src.toList dst.toList 58
    ([errType, errCode] ++ (be16 0 ++ (be32 extra ++ quoted)))
  [errType, errCode] ++ (be16 cs.toNat ++ (be32 extra ++ quoted))

theorem errorMessage_length (src dst : Addr16) (errType errCode : UInt8) (extra : Nat)
    (quoted : Bytes) :
    (errorMessage src dst errType errCode extra quoted).length = 8 + quoted.length := by
  simp [errorMessage]
  omega

/-- The builder on a segment that its callers build: the error quotes the packet
with as much of the segment as fits. -/
theorem buildIPv6ICMPErrorPacket_eq (src dst : Addr16) (errType errCode : UInt8) (extra : Nat)
    (innerSrc innerDst : Addr16) (innerTTL : UInt8) (q : Quote) :
    buildIPv6ICMPErrorPacket src dst errType errCode extra innerSrc innerDst innerTTL q.proto
          q.segment =
        (FixedHeader.built 64 src dst).packet 58 (errorMessage src dst errType errCode extra
          (quotedPacket innerSrc innerDst innerTTL (q.truncate 1184))) ∧
      buildIPv6ICMPErrorPacketChecked src dst errType errCode extra innerSrc innerDst innerTTL
          q.proto q.segment =
        some (buildIPv6ICMPErrorPacket src dst errType errCode extra innerSrc innerDst innerTTL
          q.proto q.segment) := by
  have hproto : (q.truncate 1184).proto = q.proto := by cases q <;> rfl
  have htake : q.segment.take (icmpErrMaxPacket - icmpErrFixedLen) = (q.truncate 1184).segment :=
    q.take_segment 1184
  have hrest : (q.truncate 1184).rest.length ≤ 1184 := by
    cases q <;> exact List.length_take_le _ _
  have hlen := (q.truncate 1184).segment_length
  have hwritten := (q.truncate 1184).written_length innerSrc innerDst
  obtain ⟨hseg, hsegChecked⟩ := quoteSegment_quote innerSrc innerDst (q.truncate 1184)
  rw [hproto] at hseg hsegChecked
  have hquote : be32 extra ++ ipv6Header (q.truncate 1184).segment.length q.proto innerTTL innerSrc
      innerDst ++ (q.truncate 1184).written innerSrc innerDst =
        be32 extra ++ quotedPacket innerSrc innerDst innerTTL (q.truncate 1184) := by
    rw [quotedPacket, ← FixedHeader.ipv6Header_append, hwritten, hlen, hproto, List.append_assoc]
  have hquoted : (quotedPacket innerSrc innerDst innerTTL (q.truncate 1184)).length =
      48 + (q.truncate 1184).rest.length := by
    rw [quotedPacket, FixedHeader.packet_length, hwritten]
    omega
  have hplen : icmpErrFixedLen + (q.truncate 1184).segment.length - 40 =
      (errorMessage src dst errType errCode extra
        (quotedPacket innerSrc innerDst innerTTL (q.truncate 1184))).length := by
    rw [errorMessage_length, hquoted, hlen, icmpErrFixedLen]
    omega
  unfold buildIPv6ICMPErrorPacket buildIPv6ICMPErrorPacketChecked
  rw [htake]
  dsimp only
  rw [hseg, hsegChecked (by omega), hquote]
  constructor
  · rw [hplen, ← FixedHeader.ipv6Header_append]
    simp only [List.append_assoc]
    rfl
  · rw [Option.bind_eq_bind, Option.bind_some, hquote,
      (ipv6UpperLayerChecksum_eq (by simp [hquoted]; omega)).2]
    rfl

theorem quotedPacket_valid (innerSrc innerDst : Addr16) (innerTTL : UInt8) {q : Quote}
    (hlen : 8 + q.rest.length ≤ 65535) :
    WireValid (quotedPacket innerSrc innerDst innerTTL q) q.proto := by
  have hwritten := q.written_length innerSrc innerDst
  cases q with
  | udp srcPort dstPort len rest =>
    obtain ⟨hsum, hfields⟩ := udp_valid innerSrc innerDst srcPort dstPort (v := 65535) (.inr rfl)
      hlen rfl ((Quote.udp srcPort dstPort len rest).written innerSrc innerDst) rfl
    exact wireValid_built_udp _ (by omega) hsum hfields
  | echo id seq rest =>
    have hsum : Verifies innerSrc innerDst 58
        ((Quote.echo id seq rest).written innerSrc innerDst) :=
      icmpv6_valid innerSrc innerDst 128 0 (be16 id.toNat ++ be16 seq.toNat ++ rest)
        (by simp [Quote.rest] at hlen ⊢; omega)
    exact wireValid_built_icmpv6 _ (by omega) hsum

/-- An error, and the packet that it quotes. -/
theorem buildIPv6ICMPErrorPacket_valid (src dst : Addr16) (errType errCode : UInt8) (extra : Nat)
    (innerSrc innerDst : Addr16) (innerTTL : UInt8) (q : Quote) {pkt : Bytes}
    (hpkt : pkt = buildIPv6ICMPErrorPacket src dst errType errCode extra innerSrc innerDst innerTTL
      q.proto q.segment) :
    WireValid pkt 58 ∧ pkt.length ≤ 1280 ∧ WireValid (pkt.drop 48) q.proto := by
  rw [(buildIPv6ICMPErrorPacket_eq ..).1] at hpkt
  have hproto : (q.truncate 1184).proto = q.proto := by cases q <;> rfl
  have hrest : (q.truncate 1184).rest.length ≤ 1184 := by
    cases q <;> exact List.length_take_le _ _
  generalize q.truncate 1184 = q' at hpkt hproto hrest
  have hquoted : (quotedPacket innerSrc innerDst innerTTL q').length = 48 + q'.rest.length := by
    rw [quotedPacket, FixedHeader.packet_length, Quote.written_length]
    omega
  have hmsg := errorMessage_length src dst errType errCode extra
    (quotedPacket innerSrc innerDst innerTTL q')
  have hsum : Verifies src dst 58 (errorMessage src dst errType errCode extra
      (quotedPacket innerSrc innerDst innerTTL q')) :=
    icmpv6_valid src dst errType errCode
      (be32 extra ++ quotedPacket innerSrc innerDst innerTTL q') (by simp [hquoted]; omega)
  subst hpkt
  refine ⟨?_, ?_, ?_⟩
  · exact wireValid_built_icmpv6 _ (by omega) hsum
  · rw [FixedHeader.packet_length, hmsg, hquoted]
    omega
  · rw [show 48 = 40 + 8 from rfl, ← List.drop_drop, FixedHeader.packet_drop]
    show WireValid (quotedPacket innerSrc innerDst innerTTL q') q.proto
    rw [← hproto]
    exact quotedPacket_valid innerSrc innerDst innerTTL (by omega)

/-! ## All packets -/

/-- A packet that the translator synthesises, with what its callers pass. -/
inductive Synthesised where
  | udpDatagram (src dst : Addr16) (srcPort dstPort : UInt16) (payload : Bytes)
  | echoReply (src dst : Addr16) (id seq : UInt16) (data : Bytes)
  | error (src dst : Addr16) (errType errCode : UInt8) (extra : Nat)
      (innerSrc innerDst : Addr16) (innerTTL : UInt8) (quote : Quote)

namespace Synthesised

def packet : Synthesised → Bytes
  | udpDatagram src dst srcPort dstPort payload =>
    buildIPv6UDPDatagram src dst srcPort dstPort payload
  | echoReply src dst id seq data => buildIPv6ICMPEchoReplyPacket src dst id seq data
  | error src dst errType errCode extra innerSrc innerDst innerTTL quote =>
    buildIPv6ICMPErrorPacket src dst errType errCode extra innerSrc innerDst innerTTL quote.proto
      quote.segment

def packetChecked : Synthesised → Option Bytes
  | udpDatagram src dst srcPort dstPort payload =>
    buildIPv6UDPDatagramChecked src dst srcPort dstPort payload
  | echoReply src dst id seq data => buildIPv6ICMPEchoReplyPacketChecked src dst id seq data
  | error src dst errType errCode extra innerSrc innerDst innerTTL quote =>
    buildIPv6ICMPErrorPacketChecked src dst errType errCode extra innerSrc innerDst innerTTL
      quote.proto quote.segment

/-- The protocol of the packet. -/
def proto : Synthesised → UInt8
  | udpDatagram .. => 17
  | _ => 58

/-- The segment that an error quotes. -/
def quote? : Synthesised → Option Quote
  | error _ _ _ _ _ _ _ _ quote => some quote
  | _ => none

/-- A UDP payload and the data of an echo reply come out of an IPv4 packet; a
quoted segment may be of any length. -/
def InRange : Synthesised → Prop
  | udpDatagram _ _ _ _ payload => payload.length ≤ 65507
  | echoReply _ _ _ _ data => data.length ≤ 65527
  | error .. => True

end Synthesised

/-- Every packet that the translator synthesises is valid: the accumulator of its
checksums does not overflow, its lengths agree with its size, its checksum
verifies and a UDP checksum is not zero.  An error is at most 1280 bytes long, and
the packet that it embeds is valid too. -/
theorem synthesised_wireValid (s : Synthesised) (hs : s.InRange) :
    s.packetChecked = some s.packet ∧ WireValid s.packet s.proto ∧
      ∀ q ∈ s.quote?, s.packet.length ≤ 1280 ∧ WireValid (s.packet.drop 48) q.proto := by
  cases s with
  | udpDatagram src dst srcPort dstPort payload =>
    change payload.length ≤ 65507 at hs
    obtain ⟨hvalid, hchecked⟩ :=
      buildIPv6UDPDatagram_valid src dst srcPort dstPort payload (by omega)
    exact ⟨hchecked, hvalid, fun q hq => by cases hq⟩
  | echoReply src dst id seq data =>
    change data.length ≤ 65527 at hs
    obtain ⟨hvalid, hchecked⟩ :=
      buildIPv6ICMPEchoReplyPacket_valid src dst id seq data (by omega)
    exact ⟨hchecked, hvalid, fun q hq => by cases hq⟩
  | error src dst errType errCode extra innerSrc innerDst innerTTL quote =>
    obtain ⟨hvalid, hlen, hquoted⟩ := buildIPv6ICMPErrorPacket_valid src dst errType errCode extra
      innerSrc innerDst innerTTL quote rfl
    refine ⟨(buildIPv6ICMPErrorPacket_eq ..).2, hvalid, fun q hq => ?_⟩
    obtain rfl := Option.some.inj hq
    exact ⟨hlen, hquoted⟩

theorem synthesised_wireValid_udp :
    WireValid (buildIPv6UDPDatagram (.replicate 16 1) (.replicate 16 2) 53 4000 [7, 7, 7]) 17 :=
  (synthesised_wireValid (.udpDatagram (.replicate 16 1) (.replicate 16 2) 53 4000 [7, 7, 7])
    (by show 3 ≤ 65507; decide)).2.1

end Ydn64.Nat64
