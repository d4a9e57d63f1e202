import Ydn64.Nat64.Icmp

/-!
# The three admission paths

The policy of the translator is written out three times: in `handleTCP`, in
`parseUDPFlow` and in `interceptICMPPacket` with `handleEchoRequest`.  The first
two take the IPv4 destination from `Extract`.  The third checks the ignored
subnets on the last four bytes of the pool address, which hold the destination
in a /96 pool only, and forwards to the address from `Extract`.

`admission_agrees_iff` is the exact condition under which the three agree on a
pair of addresses, and `admissionAgrees_of_slash96` says that in a /96 pool they
always do.
-/

namespace Ydn64.Nat64

open Ydn64.GoStd Ydn64.Config

/-- `stack.TransportEndpointID`: the local side is the pool address. -/
structure EndpointID where
  localAddress : Bytes
  localPort : UInt16
  remoteAddress : Bytes
  remotePort : UInt16
  deriving DecidableEq

/-! ## TCP and UDP -/

/-- The checks before the ignored subnets admit the pair of addresses. -/
def PairAdmitted (svc : Service) (src dst : Addr16) : Prop :=
  svc.pool6Net.contains dst.toList = true ∧ svc.pool6Net.contains src.toList = false ∧
    svc.settings.isAllowed src.toList = true

instance (svc : Service) (src dst : Addr16) : Decidable (PairAdmitted svc src dst) :=
  inferInstanceAs (Decidable (_ ∧ _ ∧ _))

/-- The policy checks of `handleTCP`: the IPv4 address that it dials, or `none`
where it resets the connection. -/
def handleTCPTarget (svc : Service) (id : EndpointID) : Option Addr4 :=
  if !svc.pool6Net.contains id.localAddress then none
  else if svc.pool6Net.contains id.remoteAddress then none
  else if !svc.settings.isAllowed id.remoteAddress then none
  else match svc.pref64.extract id.localAddress with
    | none => none
    | some ipv4 => if svc.settings.isIgnoredDst ipv4.toList then none else some ipv4

/-- `sessionKey`. -/
structure SessionKey where
  srcAddr : Addr16
  srcPort : UInt16
  dstAddr : Addr4
  dstPort : UInt16
  deriving DecidableEq

/-- `udpFlow`. -/
structure UdpFlow where
  key : SessionKey
  pool6Src : Addr16
  deriving DecidableEq

/-- `parseUDPFlow`. -/
def parseUDPFlow (svc : Service) (id : EndpointID) : Option UdpFlow :=
  if h : id.localAddress.length = 16 ∧ id.remoteAddress.length = 16 then
    if !svc.pool6Net.contains id.localAddress then none
    else if svc.pool6Net.contains id.remoteAddress then none
    else if !svc.settings.isAllowed id.remoteAddress then none
    else match svc.pref64.extract id.localAddress with
      | none => none
      | some dstV4 =>
        if svc.settings.isIgnoredDst dstV4.toList then none
        else some
          { key := ⟨⟨id.remoteAddress, h.2⟩, id.remotePort, dstV4, id.localPort⟩
            pool6Src := ⟨id.localAddress, h.1⟩ }
  else none

/-! ## ICMP -/

/-- The packet is a well-formed echo request from `src` to `dst`: its header
chain ends in ICMPv6, and the part of the interceptor after the policy checks
ends with the complete message `msg`, whose checksum is right.  For a fragment
this is the one that completes the datagram. -/
structure EchoRequest (reasm : ReasmTable) (pkt : Bytes) (src dst : Addr16) (now : Int)
    (info : ChainInfo) (msg : Bytes) : Prop where
  length : 48 ≤ pkt.length
  chain : parseIPv6HeaderChain pkt = (info, .icmpv6)
  src_eq : addr16At pkt 8 = src
  dst_eq : addr16At pkt 24 = dst
  payload : (echoPayload reasm pkt info src dst now).2 = .echo msg

/-- The tables have room for the session of a request. -/
def HasRoom (pref64 : Pref64) (st : IcmpState) (src dst : Addr16) (id : UInt16)
    (now : Int) : Prop :=
  ∀ v4, pref64.extract dst.toList = some v4 →
    (registerICMPSession st src dst v4 id now).2 ≠ none

theorem addr4At_eq_drop (pkt : Bytes) :
    (addr4At pkt 36).toList = (addr16At pkt 24).toList.drop 12 := by
  simp [addr4At, addr16At, List.Vector.toList_ofFn, List.ofFn_succ]

theorem handleEchoRequest_forward {pref64 : Pref64} {st : IcmpState} {msg : Bytes}
    {src dst : Addr16} {now : Int}
    (hroom : HasRoom pref64 st src dst (uint16At msg 4) now) :
    (handleEchoRequest pref64 st msg src dst now).2.map EchoForward.dstIPv4
      = pref64.extract dst.toList := by
  unfold handleEchoRequest
  cases he : pref64.extract dst.toList with
  | none => rfl
  | some v4 =>
    have hr := hroom v4 he
    dsimp only
    generalize registerICMPSession st src dst v4 (uint16At msg 4) now = res at hr ⊢
    obtain ⟨st', r⟩ := res
    cases r with
    | none => exact absurd rfl hr
    | some r => rfl

/-- Where the interceptor sends a well-formed request: to the embedded address,
if the policy admits the pair of addresses. -/
theorem interceptICMPPacket_target {svc : Service} {st : IcmpState} {reasm : ReasmTable}
    {pkt msg : Bytes} {src dst : Addr16} {now : Int} {info : ChainInfo}
    (h : EchoRequest reasm pkt src dst now info msg)
    (hroom : HasRoom svc.pref64 st src dst (uint16At msg 4) now) :
    (interceptICMPPacket svc true st reasm pkt now).forward.map EchoForward.dstIPv4 =
      if PairAdmitted svc src dst ∧ svc.settings.isIgnoredDst (dst.toList.drop 12) = false
      then svc.pref64.extract dst.toList else none := by
  have hfwd := handleEchoRequest_forward hroom
  have hlast := addr4At_eq_drop pkt
  rw [h.dst_eq] at hlast
  have hpay := h.payload
  unfold interceptICMPPacket PairAdmitted
  rw [if_neg (by have := h.length; omega), h.chain]
  simp only [h.src_eq, h.dst_eq, hlast]
  generalize echoPayload reasm pkt info src dst now = res at hpay ⊢
  obtain ⟨reasm', payload⟩ := res
  obtain rfl : payload = .echo msg := hpay
  dsimp only
  split_ifs <;> simp_all

/-! ## Agreement -/

/-- The endpoint of a pair of addresses with some ports. -/
def endpoint (src dst : Addr16) (srcPort dstPort : UInt16) : EndpointID :=
  ⟨dst.toList, dstPort, src.toList, srcPort⟩

theorem handleTCPTarget_eq (svc : Service) (src dst : Addr16) (srcPort dstPort : UInt16) :
    handleTCPTarget svc (endpoint src dst srcPort dstPort) =
      if PairAdmitted svc src dst then
        (svc.pref64.extract dst.toList).filter fun v4 => !svc.settings.isIgnoredDst v4.toList
      else none := by
  unfold handleTCPTarget endpoint PairAdmitted
  cases svc.pref64.extract dst.toList <;> simp only [Option.filter] <;> split_ifs <;> simp_all

theorem parseUDPFlow_eq (svc : Service) (src dst : Addr16) (srcPort dstPort : UInt16) :
    (parseUDPFlow svc (endpoint src dst srcPort dstPort)).map (fun f => f.key.dstAddr) =
      if PairAdmitted svc src dst then
        (svc.pref64.extract dst.toList).filter fun v4 => !svc.settings.isIgnoredDst v4.toList
      else none := by
  have hlen : dst.toList.length = 16 ∧ src.toList.length = 16 := ⟨dst.2, src.2⟩
  unfold parseUDPFlow endpoint PairAdmitted
  rw [dif_pos hlen]
  cases svc.pref64.extract dst.toList <;> simp only [Option.filter] <;> split_ifs <;> simp_all

/-- The three paths agree on a pair of addresses: they admit it toward the same
IPv4 destination, which is the embedded address, and reach neither an ignored
destination nor serve a source that is in the pool or not allowed. -/
structure AdmissionAgrees (svc : Service) (src dst : Addr16) (srcPort dstPort : UInt16)
    (icmp : Option Addr4) : Prop where
  udp_eq : (parseUDPFlow svc (endpoint src dst srcPort dstPort)).map (fun f => f.key.dstAddr)
    = handleTCPTarget svc (endpoint src dst srcPort dstPort)
  icmp_eq : icmp = handleTCPTarget svc (endpoint src dst srcPort dstPort)
  reached : ∀ v4, v4 ∈ icmp ∨ v4 ∈ handleTCPTarget svc (endpoint src dst srcPort dstPort) ∨
      v4 ∈ (parseUDPFlow svc (endpoint src dst srcPort dstPort)).map (fun f => f.key.dstAddr) →
    svc.pref64.extract dst.toList = some v4 ∧ svc.settings.isIgnoredDst v4.toList = false ∧
      svc.pool6Net.contains src.toList = false ∧ svc.settings.isAllowed src.toList = true

theorem mem_target_iff {svc : Service} {src dst : Addr16} {v4 : Addr4} :
    v4 ∈ (if PairAdmitted svc src dst then
        (svc.pref64.extract dst.toList).filter fun v4 => !svc.settings.isIgnoredDst v4.toList
      else none) ↔
    PairAdmitted svc src dst ∧ svc.pref64.extract dst.toList = some v4 ∧
      svc.settings.isIgnoredDst v4.toList = false := by
  split_ifs with h
  · simp [h, Option.mem_def, Option.filter_eq_some_iff]
  · simp [h]

/-- Where the last four bytes of the destination are ignored just as the
embedded address is, the three paths agree. -/
theorem admissionAgrees_of_ignored_eq {svc : Service} {st : IcmpState}
    {reasm : ReasmTable} {pkt msg : Bytes} {src dst : Addr16} {now : Int}
    {info : ChainInfo} (h : EchoRequest reasm pkt src dst now info msg)
    (hroom : HasRoom svc.pref64 st src dst (uint16At msg 4) now)
    (srcPort dstPort : UInt16)
    (hc : PairAdmitted svc src dst → ∀ v4, svc.pref64.extract dst.toList = some v4 →
      svc.settings.isIgnoredDst (dst.toList.drop 12) = svc.settings.isIgnoredDst v4.toList) :
    AdmissionAgrees svc src dst srcPort dstPort
      ((interceptICMPPacket svc true st reasm pkt now).forward.map EchoForward.dstIPv4) := by
  have htcp := handleTCPTarget_eq svc src dst srcPort dstPort
  have hudp := (parseUDPFlow_eq svc src dst srcPort dstPort).trans htcp.symm
  have heq : (interceptICMPPacket svc true st reasm pkt now).forward.map
      EchoForward.dstIPv4 = handleTCPTarget svc (endpoint src dst srcPort dstPort) := by
    rw [interceptICMPPacket_target h hroom, htcp]
    by_cases hp : PairAdmitted svc src dst
    · rw [if_pos hp]
      cases hv4 : svc.pref64.extract dst.toList with
      | none => simp
      | some v4 =>
        have hig := hc hp v4 hv4
        cases hign : svc.settings.isIgnoredDst v4.toList <;> simp_all [Option.filter]
    · rw [if_neg hp, if_neg (fun hpi => hp hpi.1)]
  refine ⟨hudp, heq, fun v4 hv4 => ?_⟩
  rw [heq, hudp] at hv4
  have hv4 := hv4.elim id fun hv4 => hv4.elim id id
  rw [htcp, mem_target_iff] at hv4
  exact ⟨hv4.2.1, hv4.2.2, hv4.1.2.1, hv4.1.2.2⟩

theorem admissionAgrees_of_slash96 {svc : Service} {st : IcmpState} {reasm : ReasmTable}
    {pkt msg : Bytes} {src dst : Addr16} {now : Int} {info : ChainInfo}
    (hbits : svc.pref64.bits = 96) (h : EchoRequest reasm pkt src dst now info msg)
    (hroom : HasRoom svc.pref64 st src dst (uint16At msg 4) now)
    (srcPort dstPort : UInt16) :
    AdmissionAgrees svc src dst srcPort dstPort
      ((interceptICMPPacket svc true st reasm pkt now).forward.map EchoForward.dstIPv4) := by
  refine admissionAgrees_of_ignored_eq h hroom srcPort dstPort fun _ v4 hv4 => ?_
  rw [svc.pref64.extract_slash96 hbits hv4]

/-- For every pool, every policy and every pair of addresses, the three paths
agree exactly when the pair is refused before the ignored subnets are looked at,
or the last four bytes of the destination are ignored just as the embedded
address is. -/
theorem admission_agrees_iff {svc : Service} {st : IcmpState} {reasm : ReasmTable}
    {pkt msg : Bytes} {src dst : Addr16} {now : Int} {info : ChainInfo}
    (h : EchoRequest reasm pkt src dst now info msg)
    (hroom : HasRoom svc.pref64 st src dst (uint16At msg 4) now)
    (srcPort dstPort : UInt16) :
    AdmissionAgrees svc src dst srcPort dstPort
        ((interceptICMPPacket svc true st reasm pkt now).forward.map EchoForward.dstIPv4) ↔
      (PairAdmitted svc src dst → ∀ v4, svc.pref64.extract dst.toList = some v4 →
        svc.settings.isIgnoredDst (dst.toList.drop 12)
          = svc.settings.isIgnoredDst v4.toList) := by
  refine ⟨fun ha hp v4 hv4 => ?_, admissionAgrees_of_ignored_eq h hroom srcPort dstPort⟩
  have heq := ha.icmp_eq
  rw [interceptICMPPacket_target h hroom, handleTCPTarget_eq, if_pos hp, hv4] at heq
  cases hlast : svc.settings.isIgnoredDst (dst.toList.drop 12) <;>
    cases hign : svc.settings.isIgnoredDst v4.toList <;>
    simp_all [Option.filter]

/-! ## A ping through a /32 pool -/

/-- The NAT64 keys with a given pool. -/
def poolConfig (pool6 : String) : NAT64Config where
  enable := true
  pool6 := pool6
  udpTimeout := 300
  tcpTimeout := 7440
  udpFiltering := "address-dependent"
  portParity := "preserve"
  maxTCPClients := 1024
  maxUDPSessions := 4096
  maxUDPSessionsPerSrc := 256
  maxTCPConnectionsPerSrc := 128

/-- The client `200::1`. -/
def pingSrc : Addr16 := ⟨[2, 0, 0, 0, 0, 0, 0, 0, 0, 0, 0, 0, 0, 0, 0, 1], rfl⟩

/-- `10.0.0.1` in the pool `300:1::/32`. -/
def pingDst32 : Addr16 := ⟨[3, 0, 0, 1, 10, 0, 0, 1, 0, 0, 0, 0, 0, 0, 0, 0], rfl⟩

/-- `1.2.3.4` in the pool `300:1:2:3::/96`. -/
def pingDst96 : Addr16 := ⟨[3, 0, 0, 1, 0, 2, 0, 3, 0, 0, 0, 0, 1, 2, 3, 4], rfl⟩

/-- An echo request with identifier 7 and no data; `hi` and `lo` are its
checksum. -/
def pingMsg (hi lo : UInt8) : Bytes := [128, 0, hi, lo, 0, 7, 0, 1]

/-- The packet of that request. -/
def pingPacket (dst : Addr16) (hi lo : UInt8) : Bytes :=
  ipv6Header 8 58 64 pingSrc dst ++ pingMsg hi lo

theorem hasRoom_init (pref64 : Pref64) (src dst : Addr16) (id : UInt16) (now : Int) :
    HasRoom pref64 (IcmpState.init 0) src dst id now := by
  intro v4 _
  have hcand : (IcmpState.init 0).candidate ≠ 0 := by decide
  rw [registerICMPSession, maxICMPIDAllocAttempts]
  simp [IcmpState.init, maxICMPSessions, allocICMPSession, IcmpState.candidate] at hcand ⊢

/-- The paths agree on a ping to `1.2.3.4` through a /96 pool. -/
theorem admission_agrees_ping96 :
    ∃ svc ∈ (newService asciiCase (poolConfig "300:1:2:3::/96") ["200::/7"]
        ["10.0.0.0/8"]).toOption,
      AdmissionAgrees svc pingSrc pingDst96 1000 53
        ((interceptICMPPacket svc true (IcmpState.init 0) {}
          (pingPacket pingDst96 0x76 0xa8) 0).forward.map EchoForward.dstIPv4) := by
  have hsvc : ∃ svc ∈ (newService asciiCase (poolConfig "300:1:2:3::/96") ["200::/7"]
      ["10.0.0.0/8"]).toOption,
      svc.pref64.extract pingDst96.toList = some ⟨[1, 2, 3, 4], rfl⟩ ∧
        svc.settings.isIgnoredDst [1, 2, 3, 4] = false := by
    decide +kernel
  obtain ⟨svc, hmem, hext, hign⟩ := hsvc
  have hreq : EchoRequest {} (pingPacket pingDst96 0x76 0xa8) pingSrc pingDst96 0
      { l4Offset := 40 } (pingMsg 0x76 0xa8) :=
    ⟨by decide, by decide, by decide, by decide, by decide +kernel⟩
  refine ⟨svc, hmem, (admission_agrees_iff hreq (hasRoom_init _ _ _ _ _) 1000 53).2 ?_⟩
  intro _ v4 hv4
  obtain rfl := Option.some.inj (hext.symm.trans hv4)
  rfl

/-- With `10.0.0.0/8` ignored and a /32 pool, a ping to `10.0.0.1` is forwarded
to that address, which TCP and UDP refuse. -/
theorem ping_reaches_ignored :
    ∃ svc ∈ (newService asciiCase (poolConfig "300:1::/32") ["200::/7"]
        ["10.0.0.0/8"]).toOption,
      (interceptICMPPacket svc true (IcmpState.init 0) {}
        (pingPacket pingDst32 0x70 0xb2) 0).forward.map EchoForward.dstIPv4
          = some ⟨[10, 0, 0, 1], rfl⟩ ∧
      svc.settings.isIgnoredDst [10, 0, 0, 1] = true ∧
      handleTCPTarget svc (endpoint pingSrc pingDst32 1000 53) = none ∧
      parseUDPFlow svc (endpoint pingSrc pingDst32 1000 53) = none := by
  decide +kernel

end Ydn64.Nat64
