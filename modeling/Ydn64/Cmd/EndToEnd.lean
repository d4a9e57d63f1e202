import Ydn64.Cmd.ReloadAgree
import Ydn64.Dns64.Synthesis
import Ydn64.Nat64.Admission

/-!
# From a name to a connection

The resolver and the translator are two services with settings of their own.  A
client asks the first for an address and sends packets to the second, which knows
nothing of the query.  What makes the two fit is that one process starts and reloads
them.

* `SamePolicy`: they apply one list of allowed sources and one list of ignored
  subnets.  The start establishes it and every reload keeps it, also one that fails
  half way (`samePolicy_run`).
* `synthesised_carried`: an address that the resolver makes under the prefix of the
  pool leads the client, over TCP, UDP and, in a /96 pool, ICMP, to the very IPv4
  address that the name has.
* `keyed_start_serves_pool`: after a start with a private key, every name is in a
  zone with the prefix of the pool.  The two prefixes are read from two texts.
-/

namespace Ydn64.Cmd

open Ydn64.GoStd Ydn64.Config Ydn64.Lib

variable {uc : UnicodeCase}

/-! ## One policy -/

/-- The two services apply one policy. -/
structure SamePolicy (s : Services) : Prop where
  allowed : ∀ n ∈ s.nat64, ∀ d ∈ s.dns64, n.settings.allowedNets = d.allowedNets
  ignored : ∀ n ∈ s.nat64, ∀ d ∈ s.dns64, n.settings.ignoredDstNets = d.cfg.ignoredDstNets

theorem startNat64_eq_ok {c : AppConfig} {nat64 : Option Nat64.Service}
    (h : startNat64 uc c = .ok nat64) {n : Nat64.Service} (hn : n ∈ nat64) :
    parsePref64 c.nat64Pool = .ok n.pref64 ∧
      n.settings = Nat64.newSettings uc c.nat64 c.allowedSources c.ignoredList := by
  unfold startNat64 at h
  split_ifs at h
  · cases hs : Nat64.newService uc c.nat64 c.allowedSources c.ignoredList with
    | error e =>
      rw [hs] at h
      cases h
    | ok s =>
      rw [hs] at h
      cases h
      obtain rfl := Option.some.inj hn
      unfold Nat64.newService at hs
      cases hp : parsePref64 c.nat64.pool6 with
      | error e =>
        rw [hp] at hs
        cases hs
      | ok pref64 =>
        rw [hp] at hs
        obtain rfl := Except.ok.inj hs
        exact ⟨hp, rfl⟩
  · cases h
    cases hn

theorem startDns64_keys {o : MapOrder} {c : AppConfig} {dns64 : Option Dns64.Service}
    (h : startDns64 uc o c = .ok dns64) {d : Dns64.Service} (hd : d ∈ dns64) :
    d.allowedNets = parseIPNets c.allowedSources ∧
      ∃ ia, d.cfg = Dns64.newProxyConfig uc c.dns64 ia c.ignoredList := by
  rcases startDns64_eq_ok h with ⟨_, rfl⟩ | ⟨_, s, rfl, hs⟩
  · cases hd
  · obtain rfl := Option.some.inj hd
    obtain ⟨ia, _, rfl⟩ := Option.map_eq_some_iff.1 hs
    exact ⟨rfl, ia, rfl⟩

theorem samePolicy_start {ygg : YggKeys} {o : StartOrders} {env : Environment}
    {file : ConfFile} {p : Process} (h : start ygg uc o env file = .ok p) :
    SamePolicy p.services := by
  obtain ⟨c, _, _, hnat64, hdns64⟩ := start_eq_ok h
  constructor
  · intro n hn d hd
    rw [(startNat64_eq_ok hnat64 hn).2, (startDns64_keys hdns64 hd).1]
    rfl
  · intro n hn d hd
    obtain ⟨_, ia, hcfg⟩ := startDns64_keys hdns64 hd
    rw [(startNat64_eq_ok hnat64 hn).2, hcfg]
    rfl

/-- A reload hands both services the same lists, or leaves both alone. -/
theorem SamePolicy.reloadConfig {p : Process} (h : SamePolicy p.services) (r : Reload) :
    SamePolicy (reloadConfig uc p r).1.services := by
  unfold Cmd.reloadConfig
  cases reloadedConfig uc p.env r with
  | error e => exact h
  | ok c =>
    dsimp only
    cases hdns64 : reloadDns64 uc r.orders.serve c p.services.dns64 with
    | none => exact h
    | some dns64 =>
      have hkeys : ∀ d ∈ dns64, d.allowedNets = parseIPNets c.allowedSources ∧
          d.cfg.ignoredDstNets = parseIPNets c.ignoredList := by
        intro d hd
        cases hold : p.services.dns64 with
        | none =>
          rw [hold] at hdns64
          cases hdns64
          cases hd
        | some old =>
          rw [hold] at hdns64
          obtain ⟨new, hnew, rfl⟩ := Option.map_eq_some_iff.1 hdns64
          obtain rfl := Option.some.inj hd
          obtain ⟨ia, _, rfl⟩ := Option.map_eq_some_iff.1 hnew
          exact ⟨rfl, rfl⟩
      constructor
      · intro n hn d hd
        obtain ⟨old, _, rfl⟩ := Option.map_eq_some_iff.1 hn
        rw [(hkeys d hd).1]
        rfl
      · intro n hn d hd
        obtain ⟨old, _, rfl⟩ := Option.map_eq_some_iff.1 hn
        rw [(hkeys d hd).2]
        rfl

theorem samePolicy_run {ygg : YggKeys} {o : StartOrders} {env : Environment} {file : ConfFile}
    {p₀ p : Process} {reloads : List Reload} (hstart : start ygg uc o env file = .ok p₀)
    (hrun : run (reloadStep uc) p₀ reloads = some p) : SamePolicy p.services := by
  refine run_invariant_of_step (I := fun p => SamePolicy p.services) ?_ (samePolicy_start hstart)
    hrun
  intro q r q' h hl
  cases hl
  exact h.reloadConfig r

/-! ## The way through the translator -/

open Ydn64.Nat64 in
/-- The translator takes the packets that a client sends to a pool address to the
IPv4 address.  An echo request needs room in the table of sessions. -/
structure Carries (n : Nat64.Service) (src dst : Addr16) (v : Addr4) : Prop where
  tcp : ∀ srcPort dstPort, handleTCPTarget n (endpoint src dst srcPort dstPort) = some v
  udp : ∀ srcPort dstPort,
    (parseUDPFlow n (endpoint src dst srcPort dstPort)).map (fun f => f.key.dstAddr) = some v
  echo : n.pref64.bits = 96 → ∀ st reasm pkt now info msg,
    EchoRequest reasm pkt src dst now info msg →
    HasRoom n.pref64 st src dst (uint16At msg 4) now →
    (interceptICMPPacket n true st reasm pkt now).forward.map EchoForward.dstIPv4 = some v

/-- An address that the pool gives back leads an allowed client to what it stands
for. -/
theorem carries_of_extract {n : Nat64.Service} {src dst : Addr16} {v : Addr4}
    (hallowed : n.settings.isAllowed src.toList = true)
    (hsrc : n.pool6Net.contains src.toList = false)
    (hextract : n.pref64.extract dst.toList = some v)
    (hignored : n.settings.isIgnoredDst v.toList = false) : Carries n src dst v := by
  have hpair : Nat64.PairAdmitted n src dst :=
    ⟨((n.pref64.extract_eq_some_iff dst v).1 hextract).1, hsrc, hallowed⟩
  have hfilter : ((n.pref64.extract dst.toList).filter fun v4 =>
      !n.settings.isIgnoredDst v4.toList) = some v := by
    rw [hextract, Option.filter_some, hignored]
    rfl
  refine ⟨?_, ?_, ?_⟩
  · intro srcPort dstPort
    rw [Nat64.handleTCPTarget_eq, if_pos hpair, hfilter]
  · intro srcPort dstPort
    rw [Nat64.parseUDPFlow_eq, if_pos hpair, hfilter]
  · intro hbits st reasm pkt now info msg hreq hroom
    -- In a /96 pool the last four bytes are the embedded address.
    rw [Nat64.interceptICMPPacket_target hreq hroom, if_pos, hextract]
    rw [n.pref64.extract_slash96 hbits hextract]
    exact ⟨hpair, hignored⟩

/-! ## The answer of the resolver -/

section Answer

open Ydn64.Dns64

variable {lib : DnsLib} {s : ProxyState} {req : Msg} {q : Question} {via : Via} {z : Zone}
  {pref : Pref64} {upResp aResp : Msg}

theorem resolution_of_asksForA {cfg : ProxyConfig} (hpref : z.pref = some pref)
    (hasks : AsksForA cfg z (some upResp)) (hok : aResp.rcode = rcodeSuccess) :
    answerOf (resolution lib cfg req q z (some upResp) (some aResp)).resp =
        nonA aResp ++ synthesisedFrom lib cfg q pref upResp aResp ∧
      (resolution lib cfg req q z (some upResp) (some aResp)).panics =
        aResp.answer.any (synthesisPanics cfg) := by
  obtain ⟨_, ⟨⟩, hname, husable⟩ := hasks
  have hres : resolution lib cfg req q z (some upResp) (some aResp) =
      resolutionFromA lib cfg req q pref upResp (some aResp) := by
    rw [resolution, if_neg hname, husable, hpref]
  rw [hres, resolutionFromA_panics]
  refine ⟨?_, rfl⟩
  unfold resolutionFromA
  dsimp only
  split_ifs with hnone
  · rw [hnone.resolve_left (not_not.2 hok), List.append_nil]
    rfl
  · rfl

/-- A query for AAAA records that is left to the A records of a name: it is neither
static nor cached nor for `ipv4only.arpa.`, the first reply has nothing usable, and
the second one has A records as the library decodes them. -/
structure LeftToA (uc : UnicodeCase) (lib : DnsLib) (s : ProxyState) (req : Msg)
    (q : Question) (z : Zone) (upResp aResp : Msg) : Prop where
  query : req.AsksAAAA q
  static : s.static.lookup (staticKey uc q.name) = none
  name : isIPv4Only uc q.name = false
  miss : ∀ now, s.cache.get (cacheKeyFor { q with qtype := typeAAAA }) now = none
  zone : zoneFor uc s.cfg q.name = some z
  asks : AsksForA s.cfg z (some upResp)
  success : aResp.rcode = rcodeSuccess
  four : ∀ rr ∈ aResp.answer, ∀ addr, rr.a? = some addr → addr.length = 4
  owner : ∀ rr ∈ aResp.answer, rr.a?.isSome → rr.name ≠ "" ∧ lib.accepts rr.name = true

/-- Such a query is answered from the A records. -/
theorem LeftToA.answers (h : LeftToA uc lib s req q z upResp aResp) (via : Via)
    (hpref : z.pref = some pref) :
    Returns (echoing (pairForwarder (some upResp) (some aResp))) (handleVia uc lib req via) s ∧
    Ends (echoing (pairForwarder (some upResp) (some aResp)))
      (fun resp _ => resp.answer = nonA aResp ++
        synthesisedFrom lib s.cfg { q with qtype := typeAAAA } pref upResp aResp)
      (handleVia uc lib req via) s := by
  have hst : staticFor uc lib s.static req q = none := by
    simp [staticFor, staticReply, h.static]
  have hfresh : fresh uc lib s.cfg s.static (pairForwarder (some upResp) (some aResp)) req q =
      resolution lib s.cfg req { q with qtype := typeAAAA } z (some upResp) (some aResp) := by
    rw [fresh, hst, h.zone]
    dsimp only
    rw [h.name]
    rfl
  have hres : answerOf (resolution lib s.cfg req { q with qtype := typeAAAA } z (some upResp)
        (some aResp)).resp = _ ∧
      (resolution lib s.cfg req { q with qtype := typeAAAA } z (some upResp)
        (some aResp)).panics = _ := resolution_of_asksForA hpref h.asks h.success
  obtain ⟨hanswer, hpanics⟩ := hres
  have hsafe : aResp.answer.any (synthesisPanics s.cfg) = false := by
    rw [List.any_eq_false]
    intro rr hrr
    rw [synthesisPanics_of_four (h.four rr hrr)]
    exact Bool.false_ne_true
  have hf := pairForwarder_caseBlind (some upResp) (some aResp)
  constructor
  · refine returns_handleVia_aaaa hf h.query ?_
    rw [hfresh, hpanics, hsafe]
  · refine Prog.wp_mono (ends_fresh uc lib via hf h.query h.miss) fun resp _ hresp => ?_
    rw [hresp.1, freshAnswer, hfresh, hanswer]

theorem addr16_of_extract {ip : IP} {v : Addr4} (h : pref.extract ip = some v) :
    ∃ dst : Addr16, dst.toList = ip := by
  unfold Pref64.extract to16 at h
  split_ifs at h with hfour hsixteen
  · -- An IPv4 address is in no pool.
    dsimp only at h
    split_ifs at h with hmem
    have hlen : (v4InV6Prefix ++ ip).length = 16 := by
      rw [List.length_append, hfour]
      rfl
    have hnone := ((pref.contains_iff hlen).1 hmem.1).1
    rw [to4, if_neg (by omega), if_pos] at hnone
    · cases hnone
    · exact ⟨hlen, List.take_left' rfl⟩
  · exact ⟨⟨ip, hsixteen⟩, rfl⟩

/-- The record for an A record leads an allowed client to its address, or both are
unspecified. -/
theorem carries_of_standsFor {n : Nat64.Service} {src : Addr16} {cfg : ProxyConfig}
    {name : String} {maxTTL : UInt32} {rr rr' : RR} (h : StandsFor cfg name n.pref64 maxTTL rr rr')
    (hserved : isServed cfg rr = true)
    (hallowed : n.settings.isAllowed src.toList = true)
    (hsrc : n.pool6Net.contains src.toList = false)
    (hnets : n.settings.ignoredDstNets = cfg.ignoredDstNets) :
    ∃ v ip, rr.a? = some v.toList ∧ rr'.aaaa? = some ip ∧
      (v.toList = [0, 0, 0, 0] ∧ ip = List.replicate 16 0 ∨
        ∃ dst : Addr16, dst.toList = ip ∧ Carries n src dst v) := by
  obtain ⟨v, ip, ha, hdata, haddr⟩ := h.addr
  have haaaa : rr'.aaaa? = some ip := by
    rw [RR.aaaa?, hdata]
  refine ⟨v, ip, ha, haaaa, ?_⟩
  split_ifs at haddr with hzero
  · exact .inl ⟨hzero.2, haddr⟩
  · right
    obtain ⟨dst, rfl⟩ := addr16_of_extract haddr
    refine ⟨dst, rfl, carries_of_extract hallowed hsrc haddr ?_⟩
    rw [Nat64.Settings.isIgnoredDst, hnets]
    unfold isServed passesFilters at hserved
    rw [ha] at hserved
    simp only [Option.some.injEq, Bool.or_eq_true, Bool.and_eq_true, decide_eq_true_eq,
      Bool.not_eq_true'] at hserved
    exact (hserved.resolve_left hzero).2

end Answer

open Ydn64.Dns64 in
/-- What the resolver hands out, the translator carries.  After a start and any
sequence of reloads, a query from an allowed client that is left to the A records of a
name in a zone with the prefix of the pool is answered.  Every A record that is not
ignored has a record in the answer that leads the client to its address, and every
record of the answer is one of the forwarder's own, or the unspecified address, or
leads the client to the address of an A record. -/
theorem synthesised_carried (ygg : YggKeys) (uc : UnicodeCase) (lib : DnsLib)
    (o : StartOrders) (env : Environment) (file : ConfFile) (reloads : List Reload)
    (p₀ p : Process) (n : Nat64.Service) (d : Dns64.Service) (s : ProxyState) (req : Msg)
    (q : Question) (via : Via) (z : Zone) (upResp aResp : Msg) (src : Addr16)
    (hstart : start ygg uc o env file = .ok p₀)
    (hrun : run (reloadStep uc) p₀ reloads = some p) (hn : n ∈ p.services.nat64)
    (hd : d ∈ p.services.dns64) (hcfg : s.cfg = d.cfg)
    (hleft : LeftToA uc lib s req q z upResp aResp) (hpref : z.pref = some n.pref64)
    (hmap : ¬ n.pref64.ReachesMapped) (hallowed : anyContains d.allowedNets src.toList = true)
    (hsrc : n.pool6Net.contains src.toList = false) :
    Returns (echoing (pairForwarder (some upResp) (some aResp))) (handleVia uc lib req via) s ∧
    ∀ chances resp s', Prog.exec (proxyStep (echoing (pairForwarder (some upResp) (some aResp))))
        (handleVia uc lib req via) s chances = some (resp, s') →
      (∀ rr ∈ aResp.answer, ∀ v : Addr4, rr.a? = some v.toList → v.toList ≠ [0, 0, 0, 0] →
        anyContains d.cfg.ignoredDstNets v.toList = false →
        ∃ rr' ∈ resp.answer, rr'.name = rr.name ∧
          ∃ dst, rr'.aaaa? = some dst.toList ∧ Carries n src dst v) ∧
      ∀ rr' ∈ resp.answer, rr' ∈ aResp.answer ∨ rr'.aaaa? = some (List.replicate 16 0) ∨
        ∃ rr ∈ aResp.answer, ∃ v dst, rr.a? = some v.toList ∧ rr'.aaaa? = some dst.toList ∧
          Carries n src dst v := by
  obtain ⟨hsame, hignored⟩ := samePolicy_run hstart hrun
  have hnets : n.settings.ignoredDstNets = s.cfg.ignoredDstNets := by
    rw [hignored n hn d hd, hcfg]
  have hsrcAllowed : n.settings.isAllowed src.toList = true := by
    rw [Nat64.Settings.isAllowed, hsame n hn d hd]
    exact hallowed
  obtain ⟨hreturns, hends⟩ := hleft.answers via hpref
  refine ⟨hreturns, ?_⟩
  intro chances resp s' hexec
  have hanswer := Prog.wp_iff.1 hends chances resp s' hexec
  have hrecord : ∀ rr ∈ aResp.answer, if isServed s.cfg rr then
      ∃ rr', synthesised lib s.cfg q.name n.pref64 (synthesisTTL upResp.ns) rr = some rr' ∧
        StandsFor s.cfg q.name n.pref64 (synthesisTTL upResp.ns) rr rr'
      else synthesised lib s.cfg q.name n.pref64 (synthesisTTL upResp.ns) rr = none := by
    intro rr hrr
    refine synthesised_served (fun ha => ?_) (hleft.four rr hrr) fun v _ =>
      n.pref64.to4_embedInto hmap v
    obtain ⟨hne, haccepts⟩ := hleft.owner rr hrr ha
    rwa [ownerName, if_neg hne]
  constructor
  · intro rr hrr v ha hne hnot
    have hserved : isServed s.cfg rr = true := by
      have hun : isUnspecified v.toList = false :=
        Bool.eq_false_iff.2 fun h => hne ((isUnspecified_of_four v.2).1 h)
      unfold isServed passesFilters
      rw [ha, hcfg]
      simp [hun, hnot]
    have hstands := hrecord rr hrr
    rw [if_pos hserved] at hstands
    obtain ⟨rr', hsynth, hstands⟩ := hstands
    refine ⟨rr', ?_, ?_, ?_⟩
    · rw [hanswer]
      exact List.mem_append_right _ (List.mem_filterMap.2 ⟨rr, hrr, hsynth⟩)
    · rw [hstands.owner, ownerName, if_neg (hleft.owner rr hrr (by rw [ha]; rfl)).1]
    · obtain ⟨v', ip, ha', haaaa, hzero | ⟨dst, rfl, hcarries⟩⟩ :=
        carries_of_standsFor hstands hserved hsrcAllowed hsrc hnets
      · rw [ha, hzero.1] at ha'
        exact absurd (Option.some.inj ha') hne
      · obtain rfl := Subtype.ext (Option.some.inj (ha.symm.trans ha'))
        exact ⟨dst, haaaa, hcarries⟩
  · intro rr' hrr'
    rw [hanswer] at hrr'
    rcases List.mem_append.1 hrr' with hnonA | hsynth
    · exact .inl (List.mem_of_mem_filter hnonA)
    · right
      obtain ⟨rr, hrr, hsynth⟩ := List.mem_filterMap.1 hsynth
      have hstands := hrecord rr hrr
      split_ifs at hstands with hserved
      · obtain ⟨rr'', hsynth', hstands⟩ := hstands
        obtain rfl := Option.some.inj (hsynth.symm.trans hsynth')
        obtain ⟨v, ip, ha, haaaa, ⟨_, rfl⟩ | ⟨dst, rfl, hcarries⟩⟩ :=
          carries_of_standsFor hstands hserved hsrcAllowed hsrc hnets
        · exact .inl haaaa
        · exact .inr ⟨rr, hrr, v, dst, ha, haaaa, hcarries⟩
      · cases hstands.symm.trans hsynth

/-- A file with a zone under the prefix of the pool. -/
def poolZone : AppConfig :=
  { bothEnabled with dns64Zones := [{ domains := ["."], pref := "300:1:2:3::" }] }

/-- The reload of that file with another list of ignored subnets. -/
def ignoreTen : Reload where
  file := .decoded { poolZone with ignoredDstSubnets := some ["10.0.0.0/8"] }

open Ydn64.Dns64 in
/-- After the reload, `200::1` asks for a name with the address `192.0.2.1` and is
led there. -/
theorem synthesised_carried_ignoreTen :
    ∃ p ∈ (start sampleKeys asciiCase {} ⟨"", ""⟩ (.decoded poolZone)).toOption,
      ∃ n ∈ (reloadConfig asciiCase p ignoreTen).1.services.nat64,
      ∃ d ∈ (reloadConfig asciiCase p ignoreTen).1.services.dns64,
        Returns (echoing (pairForwarder (some {}) (some (oneAReply [192, 0, 2, 1]))))
          (handleVia asciiCase anyName sampleQuery .udp) (.new d.cfg d.cache) ∧
        ∀ chances resp s', Prog.exec (proxyStep (echoing (pairForwarder (some {})
            (some (oneAReply [192, 0, 2, 1]))))) (handleVia asciiCase anyName sampleQuery .udp)
            (.new d.cfg d.cache) chances = some (resp, s') →
          ∃ rr ∈ resp.answer, ∃ dst, rr.aaaa? = some dst.toList ∧
            Carries n Nat64.pingSrc dst ⟨[192, 0, 2, 1], rfl⟩ := by
  have hrun : ∃ p ∈ (start sampleKeys asciiCase {} ⟨"", ""⟩ (.decoded poolZone)).toOption,
      ∃ n ∈ (reloadConfig asciiCase p ignoreTen).1.services.nat64,
      ∃ d ∈ (reloadConfig asciiCase p ignoreTen).1.services.dns64,
      ∃ z ∈ zoneFor asciiCase d.cfg "a.example.", z.pref = some n.pref64 ∧
        ¬ n.pref64.ReachesMapped ∧ anyContains d.allowedNets Nat64.pingSrc.toList = true ∧
        n.pool6Net.contains Nat64.pingSrc.toList = false ∧
        anyContains d.cfg.ignoredDstNets [192, 0, 2, 1] = false := by
    decide +kernel
  obtain ⟨p, hp, n, hn, d, hd, z, hz, hpref, hmap, hallowed, hsrc, hignored⟩ := hrun
  have hleft : LeftToA asciiCase anyName (.new d.cfg d.cache) sampleQuery
      ⟨"a.example.", typeAAAA, classINET⟩ z {} (oneAReply [192, 0, 2, 1]) :=
    { query := ⟨rfl, rfl, .inl rfl, by decide⟩
      static := rfl
      name := by decide +kernel
      miss := fun _ => rfl
      zone := hz
      asks := ⟨{}, rfl, by decide, rfl⟩
      success := rfl
      four := by decide
      owner := by decide }
  obtain ⟨hreturns, hresp⟩ := synthesised_carried sampleKeys asciiCase anyName {} ⟨"", ""⟩
    (.decoded poolZone) [ignoreTen] p _ n d _ sampleQuery _ .udp z {} _ Nat64.pingSrc
    (toOption_eq_some hp) rfl hn hd rfl hleft hpref hmap hallowed hsrc
  refine ⟨p, hp, n, hn, d, hd, hreturns, ?_⟩
  intro chances resp s' hexec
  obtain ⟨rr, hrr, _, dst, haaaa, hcarries⟩ := (hresp chances resp s' hexec).1
    ⟨"a.example.", classINET, 60, .a [192, 0, 2, 1]⟩ (List.mem_singleton_self _)
    ⟨[192, 0, 2, 1], rfl⟩ rfl (by decide) hignored
  exact ⟨rr, hrr, dst, haaaa, hcarries⟩

/-! ## A start with a private key -/

theorem validate_nat64Pool {o : MapOrder} {c c' : AppConfig} (h : validate uc o c = .ok c') :
    c'.nat64Pool = c.nat64Pool ∧ c'.dns64Zones = c.dns64Zones := by
  rw [(validate_eq_ok_iff.1 h).2, complete_eq]
  unfold completeFront
  split_ifs <;> exact ⟨rfl, rfl⟩

/-- The pool and the zones of a start with a private key are those of the key. -/
theorem startConfig_keyed {ygg : YggKeys} {o : StartOrders} {env : Environment}
    {file : ConfFile} {c : AppConfig} (h : startConfig ygg uc o env file = .ok c)
    (hkey : env.privateKey ≠ "") :
    ∃ ip : IP, ip.length = 16 ∧ ip.drop 8 = List.replicate 8 0 ∧
      c.nat64Pool = ipString ip ++ "/96" ∧ c.dns64Zones = keyZones (ipString ip) := by
  obtain ⟨c₀, c₁, c₂, _, _, hprivate, hallowed⟩ := startConfig_eq_ok h
  have hlast : c.nat64Pool = c₂.nat64Pool ∧ c.dns64Zones = c₂.dns64Zones := by
    rcases overrideAllowed_eq_ok hallowed with ⟨_, rfl⟩ | ⟨_, hv⟩
    · exact ⟨rfl, rfl⟩
    · obtain ⟨hpool, hzones⟩ := validate_nat64Pool hv
      exact ⟨hpool, hzones⟩
  rcases overridePrivateKey_eq_ok hprivate with ⟨hnone, _⟩ |
    ⟨_, privKey, nodeIP, cidr, pool, _, hderive, hv⟩
  · exact absurd hnone hkey
  obtain ⟨hpool, hzones⟩ := validate_nat64Pool hv
  simp only [deriveFromPrivateKey, Prod.mk.injEq] at hderive
  obtain ⟨_, rfl, rfl⟩ := hderive
  refine ⟨(ygg.subnetForKey (privKey.drop 32)).toList ++ List.replicate 8 0, ?_, ?_, ?_, ?_⟩
  · rw [List.length_append, List.Vector.toList_length]
    rfl
  · exact List.drop_left' (List.Vector.toList_length _)
  · rw [hlast.1, hpool]
    rfl
  · rw [hlast.2, hzones]
    rfl

theorem slash_not_mem_ipString {ip : IP} (h : ip.length = 16) : '/' ∉ (ipString ip).toList := by
  intro hmem
  unfold ipString at hmem
  split at hmem
  · rename_i v4 _
    rw [String.toList_ofList] at hmem
    rcases ipv4Text_chars v4 '/' hmem with hd | hd
    · exact absurd hd (by decide)
    · exact absurd hd (by decide)
  · have hne : ip ≠ [] := by
      rintro rfl
      cases h
    rw [if_neg hne, if_pos h, String.toList_ofList] at hmem
    rcases ipv6Text_chars ip '/' hmem with hd | hd
    · exact absurd hd (by decide)
    · exact absurd hd (by decide)

/-- What `parsePref64` has read of an address with the length 96. -/
theorem parsePref64_slash96 {s : String} {ip : IP} {p : Pref64} (hs : '/' ∉ s.toList)
    (hp : parseIP s = some ip) (h6 : to4 ip = none) (h : parsePref64 (s ++ "/96") = .ok p) :
    parseCIDR (s ++ "/96") = some (ip, p.net) ∧ p.bits = 96 := by
  unfold parsePref64 at h
  split at h
  · cases h
  · rename_i ip' net hcidr
    obtain ⟨rfl, hmask⟩ := parseCIDR_slash96 hs hp h6 hcidr
    have hones : maskOnes net.mask = 96 := by
      rw [maskOnes, hmask, simpleMaskLength_cidrMask 96 (by decide)]
      rfl
    rw [dif_pos h6] at h
    split at h
    · cases h
    · split_ifs at h
      obtain rfl := Except.ok.inj h
      exact ⟨hcidr, hones⟩

/-- The prefix of a zone and the network of a pool are read alike: an address that
ends in four zero bytes, and the same address with its length. -/
theorem parsePref64Addr_of_slash96 {s : String} {ip : IP} {p : Pref64} (hs : '/' ∉ s.toList)
    (hp : parseIP s = some ip) (h6 : to4 ip = none) (hzero : ip.drop 12 = [0, 0, 0, 0])
    (h : parsePref64 (s ++ "/96") = .ok p) : parsePref64Addr s = .ok p := by
  obtain ⟨hcidr, hbits⟩ := parsePref64_slash96 hs hp h6 h
  unfold parsePref64Addr
  rw [dif_neg hs]
  split
  · rename_i hnone
    cases hp.symm.trans hnone
  · rename_i ip' hp'
    obtain rfl := Option.some.inj (hp.symm.trans hp')
    rw [dif_pos h6, if_neg (not_not.2 hzero)]
    split
    · rename_i hnone
      cases hcidr.symm.trans hnone
    · rename_i ip' net hcidr'
      obtain ⟨_, rfl⟩ := Prod.mk.inj (Option.some.inj (hcidr.symm.trans hcidr'))
      obtain ⟨net, bits, ok⟩ := p
      obtain rfl : bits = 96 := hbits
      rfl

theorem matchZone_keyZones (uc : UnicodeCase) (pool name : String) :
    ∃ z, Dns64.matchZone uc (Dns64.buildZones uc (keyZones pool)) name = some z ∧
      z.forwarder = "" ∧
      z.pref = if pool ≠ "" then (parsePref64Addr pool).toOption else none := by
  have hdot : Dns64.zoneDomain uc "." = "." := by
    rw [Dns64.zoneDomain, toLower_eq_self uc (by decide), if_pos rfl]
  refine ⟨⟨["."], "", if pool ≠ "" then (parsePref64Addr pool).toOption else none, false, false⟩,
    ?_, rfl, rfl⟩
  simp [Dns64.matchZone, Dns64.matchZoneFrom, Dns64.buildZones, keyZones, hdot]

/-- After a start with a private key, every name is in a zone with the prefix of the
pool, which is a /96, and its forwarder is the default one. -/
theorem keyed_start_serves_pool (ygg : YggKeys) (uc : UnicodeCase) (o : StartOrders)
    (env : Environment) (file : ConfFile) (p : Process) (n : Nat64.Service) (d : Dns64.Service)
    (hkey : env.privateKey ≠ "") (hstart : start ygg uc o env file = .ok p)
    (hn : n ∈ p.services.nat64) (hd : d ∈ p.services.dns64) :
    n.pref64.bits = 96 ∧ ∀ name, ∃ z, Dns64.zoneFor uc d.cfg name = some z ∧
      z.pref = some n.pref64 ∧ Dns64.serverFor d.cfg z = d.cfg.defaultForward := by
  obtain ⟨c, hc, _, hnat64, hdns64⟩ := start_eq_ok hstart
  obtain ⟨ip, hlen, htail, hpool, hzones⟩ := startConfig_keyed hc hkey
  obtain ⟨_, ia, hcfg⟩ := startDns64_keys hdns64 hd
  have hpref := (startNat64_eq_ok hnat64 hn).1
  rw [hpool] at hpref
  have hslash := slash_not_mem_ipString hlen
  have hparse := parseIP_ipString hlen
  have hzero : ip.drop 12 = [0, 0, 0, 0] := by
    rw [show 12 = 8 + 4 from rfl, ← List.drop_drop, htail]
    rfl
  have h6 : to4 ip = none := by
    refine to4_eq_none_of_length hlen fun hmapped => ?_
    have htake : (ip.take 12).drop 8 = [0, 0, 0, 0] := by
      rw [List.drop_take, htail]
      rfl
    rw [hmapped] at htake
    cases htake
  refine ⟨(parsePref64_slash96 hslash hparse h6 hpref).2, ?_⟩
  intro name
  obtain ⟨z, hz, hforwarder, hzpref⟩ := matchZone_keyZones uc (ipString ip) (toLower uc name)
  have hzn : z.pref = some n.pref64 := by
    rw [hzpref, parsePref64Addr_of_slash96 hslash hparse h6 hzero hpref, if_pos]
    · rfl
    · intro hempty
      rw [hempty] at hparse
      cases hparse
  refine ⟨z, Dns64.zoneFor_eq_some ?_ ?_, hzn, ?_⟩
  · rw [hcfg]
    unfold Dns64.newProxyConfig AppConfig.dns64
    dsimp only
    rw [hzones, hz]
  · simp [Dns64.Zone.blocked, hzn]
  · rw [Dns64.serverFor, if_neg (not_not.2 hforwarder)]

/-- The zone of the file is under another prefix, and the key replaces it. -/
theorem keyed_start_serves_pool_ownZone :
    ∃ p ∈ (start sampleKeys asciiCase {} keyEnvironment (.decoded ownZone)).toOption,
      ∃ n ∈ p.services.nat64, ∃ d ∈ p.services.dns64, n.pref64.bits = 96 ∧
        ∃ z, Dns64.zoneFor asciiCase d.cfg "a.example." = some z ∧ z.pref = some n.pref64 := by
  have hstart : ∃ p ∈ (start sampleKeys asciiCase {} keyEnvironment (.decoded ownZone)).toOption,
      p.services.nat64.isSome ∧ p.services.dns64.isSome := by
    decide +kernel
  obtain ⟨p, hp, hnat64, hdns64⟩ := hstart
  obtain ⟨n, hn⟩ := Option.isSome_iff_exists.1 hnat64
  obtain ⟨d, hd⟩ := Option.isSome_iff_exists.1 hdns64
  obtain ⟨hbits, hzones⟩ := keyed_start_serves_pool sampleKeys asciiCase {} keyEnvironment
    (.decoded ownZone) p n d (by decide) (toOption_eq_some hp) hn hd
  obtain ⟨z, hz, hpref, _⟩ := hzones "a.example."
  exact ⟨p, hp, n, hn, d, hd, hbits, z, hz, hpref⟩

end Ydn64.Cmd
