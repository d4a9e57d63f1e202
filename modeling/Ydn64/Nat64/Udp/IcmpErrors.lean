import Ydn64.Nat64.Checksum
import Ydn64.Nat64.Udp.Machine

/-!
# Any ICMPv4 error off the raw socket

The raw socket hands every ICMPv4 message of the host to `handleICMPv4Error`, so
its bytes are anybody's.  `handleICMPv4ErrorChecked` is the handler with every
read of a slice checked; it answers `none` where the source would stop.

`icmpv4Error_outcome` says what one message can do: it stops nothing, it changes
no table and no stamp, and it reaches a client or costs a token only if the packet
that it quotes belongs to a live session (`QuotesClient`).
-/

namespace Ydn64.Nat64.Udp

open Ydn64.GoStd Ydn64.Config Ydn64.Lib

/-! ## The handler, checked -/

/-- The byte at an offset of a slice that may be too short. -/
def byteAtChecked (b : Bytes) (i : Nat) : Option UInt8 := b[i]?

/-- `b[i:]`. -/
def sliceFromChecked (b : Bytes) (i : Nat) : Option Bytes :=
  if i ≤ b.length then some (b.drop i) else none

/-- The four bytes that `copy` takes from `b[i:i+4]`. -/
def addr4AtChecked (b : Bytes) (i : Nat) : Option Addr4 :=
  if i + 4 ≤ b.length then some (addr4At b i) else none

/-- `parseICMPv4InnerPacket`. -/
def parseICMPv4InnerPacketChecked (b : Bytes) : Option (Option IcmpInnerPacket) :=
  if b.length < 20 then some none
  else do
    let first ← byteAtChecked b 0
    let ihl := (first &&& 0x0f).toNat * 4
    if first >>> 4 ≠ 4 ∨ ihl < 20 ∨ b.length < ihl then some none
    else do
      let proto ← byteAtChecked b 9
      let ttl ← byteAtChecked b 8
      let totalLen ← uint16AtChecked b 2
      let src ← addr4AtChecked b 12
      let dst ← addr4AtChecked b 16
      let l4 ← sliceFromChecked b ihl
      if proto ∉ [17, 1, 6] then some none
      else if l4.length < 8 ∨ totalLen.toNat < ihl then some none
      else some (some ⟨src, dst, proto, ttl, totalLen.toNat, l4⟩)

/-- The type-specific word. -/
def icmpErrorExtraChecked (mtu : Nat) (raw : Bytes) (inner : IcmpInnerPacket)
    (v6Type v6Code : UInt8) : Option (Option Nat) :=
  if v6Type = 2 then do
    let v4MTU ← uint16AtChecked raw 6
    some (some (ptbIPv6MTU v4MTU.toNat inner.totalLen mtu))
  else if v6Type = 4 ∧ v6Code = 1 then some (some 6)
  else if v6Type = 4 then do
    let pointer ← byteAtChecked raw 4
    some (remapV4ParamProblemPointer pointer)
  else some (some 0)

/-- `translateUDPQuotedError`, up to the injection.  The slice that it fills is as
long as the quoted segment. -/
def translateUDPQuotedErrorChecked (pref64 : Pref64)
    (findSession : IcmpInnerPacket → Option SessionKey) (srcV4 : Addr4)
    (inner : IcmpInnerPacket) (v6Type v6Code : UInt8) (extra : Nat) : Option (Option Bytes) := do
  let quotedSport ← uint16AtChecked inner.l4 0
  let _quotedDport ← uint16AtChecked inner.l4 2
  match findSession inner with
  | none => some none
  | some key =>
    let rest ← sliceFromChecked inner.l4 8
    let l4 := be16 quotedSport.toNat ++ be16 key.srcPort.toNat ++ be16 inner.l4.length ++
      [0xff, 0xff] ++ rest
    let pkt ← buildIPv6ICMPErrorPacketChecked (pref64.embed srcV4) key.srcAddr v6Type v6Code extra
      (pref64.embed inner.src) key.srcAddr inner.ttl 17 l4
    some (some pkt)

/-- `translateEchoQuotedError`, up to the injection. -/
def translateEchoQuotedErrorChecked (pref64 : Pref64) (icmp : IcmpState) (srcV4 : Addr4)
    (inner : IcmpInnerPacket) (v6Type v6Code : UInt8) (extra : Nat) : Option (Option Bytes) := do
  let type ← byteAtChecked inner.l4 0
  if type ≠ 8 then some none
  else
    let allocID ← uint16AtChecked inner.l4 4
    match (icmp.icmpSessions.lookup ⟨inner.dst, allocID⟩).bind icmp.heap.lookup with
    | none => some none
    | some sess =>
      let seq ← uint16AtChecked inner.l4 6
      let rest ← sliceFromChecked inner.l4 8
      let l4 := [128, 0, 0, 0] ++ be16 sess.clientID.toNat ++ be16 seq.toNat ++ rest
      let pkt ← buildIPv6ICMPErrorPacketChecked (pref64.embed srcV4) sess.yggDst v6Type v6Code
        extra (pref64.embed inner.src) sess.yggDst inner.ttl 58 l4
      some (some pkt)

/-- `handleICMPv4Error`, up to the injection. -/
def handleICMPv4ErrorChecked (pref64 : Pref64) (mtu : Nat)
    (findSession : IcmpInnerPacket → Option SessionKey) (icmp : IcmpState) (srcV4 : Addr4)
    (raw : Bytes) : Option (Option Bytes) :=
  if raw.length < 8 then some none
  else do
    let type ← byteAtChecked raw 0
    let code ← byteAtChecked raw 1
    match translateICMPv4ErrorType type code with
    | none => some none
    | some (v6Type, v6Code) =>
      let quoted ← sliceFromChecked raw 8
      match ← parseICMPv4InnerPacketChecked quoted with
      | none => some none
      | some inner =>
        match ← icmpErrorExtraChecked mtu raw inner v6Type v6Code with
        | none => some none
        | some extra =>
          if inner.proto = 17 then
            translateUDPQuotedErrorChecked pref64 findSession srcV4 inner v6Type v6Code extra
          else if inner.proto = 1 then
            translateEchoQuotedErrorChecked pref64 icmp srcV4 inner v6Type v6Code extra
          else some none

/-! ## No read is out of range -/

theorem byteAtChecked_eq {b : Bytes} {i : Nat} (h : i < b.length) :
    byteAtChecked b i = some (byteAt b i) := by
  rw [byteAtChecked, byteAt, List.getD_eq_getElem?_getD, List.getElem?_eq_getElem h]
  rfl

theorem uint16AtChecked_eq {b : Bytes} {i : Nat} (h : i + 2 ≤ b.length) :
    uint16AtChecked b i = some (uint16At b i) := if_pos h

theorem sliceFromChecked_eq {b : Bytes} {i : Nat} (h : i ≤ b.length) :
    sliceFromChecked b i = some (b.drop i) := if_pos h

theorem addr4AtChecked_eq {b : Bytes} {i : Nat} (h : i + 4 ≤ b.length) :
    addr4AtChecked b i = some (addr4At b i) := if_pos h

theorem parseICMPv4InnerPacketChecked_eq (b : Bytes) :
    parseICMPv4InnerPacketChecked b = some (parseICMPv4InnerPacket b) := by
  unfold parseICMPv4InnerPacketChecked parseICMPv4InnerPacket
  by_cases hshort : b.length < 20
  · rw [if_pos hshort, if_pos (.inl hshort)]
  rw [if_neg hshort, byteAtChecked_eq (by omega), Option.bind_eq_bind, Option.bind_some]
  dsimp only
  by_cases hversion : byteAt b 0 >>> 4 ≠ 4
  · rw [if_pos (.inl hversion), if_pos (.inr hversion)]
  rw [if_neg (by tauto : ¬ (b.length < 20 ∨ byteAt b 0 >>> 4 ≠ 4))]
  by_cases hihl : (byteAt b 0 &&& 0x0f).toNat * 4 < 20 ∨
      b.length < (byteAt b 0 &&& 0x0f).toNat * 4
  · rw [if_pos (.inr hihl), if_pos hihl]
  rw [if_neg (by tauto), if_neg hihl, byteAtChecked_eq (by omega), byteAtChecked_eq (by omega),
    uint16AtChecked_eq (by omega), addr4AtChecked_eq (by omega), addr4AtChecked_eq (by omega),
    sliceFromChecked_eq (by omega)]
  simp only [Option.bind_eq_bind, Option.bind_some]
  split_ifs <;> rfl

theorem eight_le_l4_length {b : Bytes} {inner : IcmpInnerPacket}
    (h : parseICMPv4InnerPacket b = some inner) : 8 ≤ inner.l4.length := by
  unfold parseICMPv4InnerPacket at h
  dsimp only at h
  split_ifs at h with _ _ _ hl4
  obtain rfl := Option.some.inj h
  dsimp only at hl4 ⊢
  omega

theorem icmpErrorExtraChecked_eq {raw : Bytes} (hlen : 8 ≤ raw.length) (mtu : Nat)
    (inner : IcmpInnerPacket) (v6Type v6Code : UInt8) :
    icmpErrorExtraChecked mtu raw inner v6Type v6Code =
      some (icmpErrorExtra mtu raw inner v6Type v6Code) := by
  unfold icmpErrorExtraChecked icmpErrorExtra
  rw [uint16AtChecked_eq (by omega), byteAtChecked_eq (by omega)]
  split_ifs <;> rfl

theorem translateUDPQuotedErrorChecked_eq {inner : IcmpInnerPacket} (hl4 : 8 ≤ inner.l4.length)
    (pref64 : Pref64) (findSession : IcmpInnerPacket → Option SessionKey) (srcV4 : Addr4)
    (v6Type v6Code : UInt8) (extra : Nat) :
    translateUDPQuotedErrorChecked pref64 findSession srcV4 inner v6Type v6Code extra =
      some ((findSession inner).map
        (udpQuotedErrorPacket pref64 srcV4 inner v6Type v6Code extra)) := by
  unfold translateUDPQuotedErrorChecked
  rw [uint16AtChecked_eq (by omega), uint16AtChecked_eq (by omega), sliceFromChecked_eq hl4]
  simp only [Option.bind_eq_bind, Option.bind_some]
  cases findSession inner with
  | none => rfl
  | some key =>
    have hbuild := (buildIPv6ICMPErrorPacket_eq (pref64.embed srcV4) key.srcAddr v6Type v6Code
      extra (pref64.embed inner.src) key.srcAddr inner.ttl
      (.udp (uint16At inner.l4 0) key.srcPort inner.l4.length (inner.l4.drop 8))).2
    exact congrArg (Option.bind · fun pkt => some (some pkt)) hbuild

theorem translateEchoQuotedErrorChecked_eq {inner : IcmpInnerPacket} (hl4 : 8 ≤ inner.l4.length)
    (pref64 : Pref64) (icmp : IcmpState) (srcV4 : Addr4) (v6Type v6Code : UInt8) (extra : Nat) :
    translateEchoQuotedErrorChecked pref64 icmp srcV4 inner v6Type v6Code extra =
      some (translateEchoQuotedError pref64 icmp srcV4 inner v6Type v6Code extra) := by
  unfold translateEchoQuotedErrorChecked translateEchoQuotedError
  rw [byteAtChecked_eq (by omega), uint16AtChecked_eq (by omega), uint16AtChecked_eq (by omega),
    sliceFromChecked_eq hl4]
  simp only [Option.bind_eq_bind, Option.bind_some]
  by_cases htype : byteAt inner.l4 0 ≠ 8
  · rw [if_pos htype, if_pos htype]
  rw [if_neg htype, if_neg htype]
  cases (icmp.icmpSessions.lookup ⟨inner.dst, uint16At inner.l4 4⟩).bind icmp.heap.lookup with
  | none => rfl
  | some sess =>
    have hbuild := (buildIPv6ICMPErrorPacket_eq (pref64.embed srcV4) sess.yggDst v6Type v6Code
      extra (pref64.embed inner.src) sess.yggDst inner.ttl
      (.echo sess.clientID (uint16At inner.l4 6) (inner.l4.drop 8))).2
    exact congrArg (Option.bind · fun pkt => some (some pkt)) hbuild

theorem handleICMPv4ErrorChecked_eq (pref64 : Pref64) (mtu : Nat)
    (findSession : IcmpInnerPacket → Option SessionKey) (icmp : IcmpState) (srcV4 : Addr4)
    (raw : Bytes) :
    handleICMPv4ErrorChecked pref64 mtu findSession icmp srcV4 raw =
      some (handleICMPv4Error pref64 mtu findSession icmp srcV4 raw) := by
  unfold handleICMPv4ErrorChecked handleICMPv4Error
  by_cases hshort : raw.length < 8
  · rw [if_pos hshort, if_pos hshort]
  rw [if_neg hshort, if_neg hshort, byteAtChecked_eq (by omega), byteAtChecked_eq (by omega),
    sliceFromChecked_eq (by omega)]
  simp only [Option.bind_eq_bind, Option.bind_some, parseICMPv4InnerPacketChecked_eq]
  cases translateICMPv4ErrorType (byteAt raw 0) (byteAt raw 1) with
  | none => rfl
  | some v6 =>
    cases hparse : parseICMPv4InnerPacket (raw.drop 8) with
    | none => rfl
    | some inner =>
      have hl4 := eight_le_l4_length hparse
      simp only [icmpErrorExtraChecked_eq (by omega : 8 ≤ raw.length), Option.bind_some]
      cases icmpErrorExtra mtu raw inner v6.1 v6.2 with
      | none => rfl
      | some extra =>
        simp only [translateUDPQuotedErrorChecked_eq hl4, translateEchoQuotedErrorChecked_eq hl4,
          Option.bind_some]
        split_ifs <;> rfl

/-! ## Whom an error is for -/

/-- The message quotes a datagram of a live UDP session, or an echo request of a
live slot, of the client. -/
def QuotesClient (m : Memory) (raw : Bytes) (client : Addr16) : Prop :=
  ∃ inner, parseICMPv4InnerPacket (raw.drop 8) = some inner ∧
    ((inner.proto = 17 ∧ ∃ key sess, (m.sessions.lookup key).bind m.sessHeap = some sess ∧
        sess.localPort = uint16At inner.l4 0 ∧ key.dstAddr = inner.dst ∧
        key.dstPort = uint16At inner.l4 2 ∧ key.srcAddr = client) ∨
      (inner.proto = 1 ∧ byteAt inner.l4 0 = 8 ∧ ∃ sess,
        (m.icmp.icmpSessions.lookup ⟨inner.dst, uint16At inner.l4 4⟩).bind m.icmp.heap.lookup =
            some sess ∧
        sess.yggDst = client))

/-- Where a packet of the handler comes from. -/
theorem handleICMPv4Error_eq_some {pref64 : Pref64} {mtu : Nat}
    {findSession : IcmpInnerPacket → Option SessionKey} {icmp : IcmpState} {srcV4 : Addr4}
    {raw pkt : Bytes}
    (h : handleICMPv4Error pref64 mtu findSession icmp srcV4 raw = some pkt) :
    ∃ inner v6Type v6Code extra, parseICMPv4InnerPacket (raw.drop 8) = some inner ∧
      ((inner.proto = 17 ∧ ∃ key, findSession inner = some key ∧
          pkt = udpQuotedErrorPacket pref64 srcV4 inner v6Type v6Code extra key) ∨
        (inner.proto = 1 ∧
          translateEchoQuotedError pref64 icmp srcV4 inner v6Type v6Code extra = some pkt)) := by
  unfold handleICMPv4Error at h
  split_ifs at h
  simp only [Option.bind_eq_bind, Option.bind_eq_some_iff] at h
  obtain ⟨⟨v6Type, v6Code⟩, _, inner, hparse, extra, _, hsend⟩ := h
  refine ⟨inner, v6Type, v6Code, extra, hparse, ?_⟩
  by_cases hudp : inner.proto = 17
  · rw [if_pos hudp, Option.map_eq_some_iff] at hsend
    obtain ⟨key, hkey, hpkt⟩ := hsend
    exact .inl ⟨hudp, key, hkey, hpkt.symm⟩
  · rw [if_neg hudp] at hsend
    split_ifs at hsend with hicmp
    exact .inr ⟨hicmp, hsend⟩

theorem translateEchoQuotedError_eq_some {pref64 : Pref64} {icmp : IcmpState} {srcV4 : Addr4}
    {inner : IcmpInnerPacket} {v6Type v6Code : UInt8} {extra : Nat} {pkt : Bytes}
    (h : translateEchoQuotedError pref64 icmp srcV4 inner v6Type v6Code extra = some pkt) :
    byteAt inner.l4 0 = 8 ∧ ∃ sess,
      (icmp.icmpSessions.lookup ⟨inner.dst, uint16At inner.l4 4⟩).bind icmp.heap.lookup =
          some sess ∧
      pkt = buildIPv6ICMPErrorPacket (pref64.embed srcV4) sess.yggDst v6Type v6Code extra
        (pref64.embed inner.src) sess.yggDst inner.ttl 58
        (Quote.echo sess.clientID (uint16At inner.l4 6) (inner.l4.drop 8)).segment := by
  unfold translateEchoQuotedError at h
  split_ifs at h with htype
  cases hsess : (icmp.icmpSessions.lookup ⟨inner.dst, uint16At inner.l4 4⟩).bind
      icmp.heap.lookup with
  | none =>
    rw [hsess] at h
    cases h
  | some sess =>
    rw [hsess] at h
    exact ⟨not_not.1 htype, sess, rfl, (Option.some.inj h).symm⟩

theorem quotedSession_eq_some {m : Memory} {order : List SessionKey} {inner : IcmpInnerPacket}
    {key : SessionKey} (h : quotedSession m order inner = some key) :
    ∃ sess, (m.sessions.lookup key).bind m.sessHeap = some sess ∧
      sess.localPort = uint16At inner.l4 0 ∧ sess.localIP = inner.src ∧
      key.dstAddr = inner.dst ∧ key.dstPort = uint16At inner.l4 2 := by
  have hfound := List.find?_some h
  cases hsess : (m.sessions.lookup key).bind m.sessHeap with
  | none =>
    rw [hsess] at hfound
    cases hfound
  | some sess =>
    rw [hsess] at hfound
    exact ⟨sess, rfl, of_decide_eq_true hfound⟩

theorem errorPacket_outer (src dst : Addr16) (errType errCode : UInt8) (extra : Nat)
    (innerSrc innerDst : Addr16) (innerTTL : UInt8) (q : Quote) :
    let pkt := buildIPv6ICMPErrorPacket src dst errType errCode extra innerSrc innerDst innerTTL
      q.proto q.segment
    byteAt pkt 0 >>> 4 = 6 ∧ addr16At pkt 8 = src ∧ addr16At pkt 24 = dst := by
  dsimp only
  rw [(buildIPv6ICMPErrorPacket_eq src dst errType errCode extra innerSrc innerDst innerTTL q).1,
    FixedHeader.packet_src, FixedHeader.packet_dst, FixedHeader.built_src, FixedHeader.built_dst]
  exact ⟨FixedHeader.packet_version _ _ _, rfl, rfl⟩

/-- A packet of the handler is for the client of a session that the message
quotes. -/
theorem handleICMPv4Error_addressed {m : Memory} {srcV4 : Addr4} {raw pkt : Bytes}
    {order : List SessionKey}
    (h : handleICMPv4Error m.service.pref64 m.mtu (quotedSession m order) m.icmp srcV4 raw =
      some pkt) :
    ∃ client, QuotesClient m raw client ∧ byteAt pkt 0 >>> 4 = 6 ∧
      addr16At pkt 8 = m.service.pref64.embed srcV4 ∧ addr16At pkt 24 = client := by
  obtain ⟨inner, v6Type, v6Code, extra, hparse, hudp | hecho⟩ := handleICMPv4Error_eq_some h
  · obtain ⟨hproto, key, hkey, rfl⟩ := hudp
    obtain ⟨sess, hsess, hport, _, hdst, hdport⟩ := quotedSession_eq_some hkey
    refine ⟨key.srcAddr, ⟨inner, hparse, .inl ?_⟩, ?_⟩
    · exact ⟨hproto, key, sess, hsess, hport, hdst, hdport, rfl⟩
    · exact errorPacket_outer _ _ _ _ _ _ _ _
        (.udp (uint16At inner.l4 0) key.srcPort inner.l4.length (inner.l4.drop 8))
  · obtain ⟨hproto, hsend⟩ := hecho
    obtain ⟨htype, sess, hsess, rfl⟩ := translateEchoQuotedError_eq_some hsend
    refine ⟨sess.yggDst, ⟨inner, hparse, .inr ⟨hproto, htype, sess, hsess, rfl⟩⟩, ?_⟩
    exact errorPacket_outer _ _ _ _ _ _ _ _ (.echo _ _ _)

/-! ## What one message can do -/

/-- The effect of a message on the memory. -/
structure IcmpErrorOutcome (m m' : Memory) (srcV4 : Addr4) (raw : Bytes) : Prop where
  -- Only the bucket and the output can change.
  frame : m' = { m with errLim := m'.errLim, injected := m'.injected }
  -- At most one packet goes out, to a client that the message quotes.
  emits : m'.injected = m.injected ∨
    ∃ pkt client, m'.injected = m.injected ++ [pkt] ∧ QuotesClient m raw client ∧
      byteAt pkt 0 >>> 4 = 6 ∧ addr16At pkt 8 = m.service.pref64.embed srcV4 ∧
      addr16At pkt 24 = client
  -- A message that quotes no live session does nothing at all.
  noise : (∀ client, ¬ QuotesClient m raw client) → m' = m

theorem icmpv4Error_cases (m : Memory) (srcV4 : Addr4) (raw : Bytes) (order : List SessionKey) :
    icmpv4Error m srcV4 raw order = m ∨
      ∃ pkt, handleICMPv4Error m.service.pref64 m.mtu (quotedSession m order) m.icmp srcV4 raw =
          some pkt ∧
        icmpv4Error m srcV4 raw order = m.injectError pkt := by
  unfold icmpv4Error
  cases hpkt : handleICMPv4Error m.service.pref64 m.mtu (quotedSession m order) m.icmp srcV4
      raw with
  | none => exact .inl rfl
  | some pkt => exact .inr ⟨pkt, rfl, rfl⟩

/-- Any message from anywhere, with the tables in any state and visited in any
order: the handler reads within its bounds, and this is all that it does. -/
theorem icmpv4Error_outcome (m : Memory) (srcV4 : Addr4) (raw : Bytes)
    (order : List SessionKey) :
    handleICMPv4ErrorChecked m.service.pref64 m.mtu (quotedSession m order) m.icmp srcV4 raw =
        some (handleICMPv4Error m.service.pref64 m.mtu (quotedSession m order) m.icmp srcV4 raw) ∧
      IcmpErrorOutcome m (icmpv4Error m srcV4 raw order) srcV4 raw := by
  refine ⟨handleICMPv4ErrorChecked_eq _ _ _ _ _ _, ?_⟩
  obtain hm | ⟨pkt, hpkt, hm⟩ := icmpv4Error_cases m srcV4 raw order
  · rw [hm]
    exact ⟨rfl, .inl rfl, fun _ => rfl⟩
  · rw [hm]
    obtain ⟨client, hclient, hpkt6⟩ := handleICMPv4Error_addressed hpkt
    refine ⟨rfl, ?_, fun hnone => absurd hclient (hnone client)⟩
    by_cases hallow : (m.errLim.allow m.clock).1 = true
    · exact .inr ⟨pkt, client, if_pos hallow, hclient, hpkt6⟩
    · exact .inl (if_neg hallow)

end Ydn64.Nat64.Udp
