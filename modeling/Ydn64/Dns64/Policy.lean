import Ydn64.Dns64.Returns

/-!
# Which AAAA records are served

The policy of a zone on the AAAA records of an answer: they are synthesised
under the prefix of the zone, or the unspecified address under `process`, or the
forwarder's own where the zone returns IPv6 addresses and no exclusion takes
them (`PolicyAllows`).  An answer is put together from two replies.  The records
that went through `filterAAAA` and those that `synthesiseFromA` made keep to the
policy (`kept_allowed`, `synthesised_allowed`).  Two more lists go into an answer
as they are: the answer section of the request itself, if the name does not
exist, and the records of the A reply that are not A records
(`passedThrough`).  So the policy holds of the answer exactly if it holds of
these (`policy_iff`); an A reply with an AAAA record breaks it.
-/

namespace Ydn64.Dns64

open Ydn64.GoStd Ydn64.Config Ydn64.Lib
open Ydn64.Nat64 (second)

/-! ## The policy -/

/-- The address may be served from a zone, given the two replies. -/
inductive PolicyAllows (cfg : ProxyConfig) (z : Zone) (up6 up4 : Option Msg) (ip : IP) : Prop
  /-- The embedding of an address of the A reply that is not ignored. -/
  | synthesised (pref : Pref64) (aResp : Msg) (rr : RR) (addr : IP) (v : Addr4)
      (hpref : z.pref = some pref) (hup : up4 = some aResp) (hrr : rr ∈ aResp.answer)
      (ha : rr.a? = some addr) (hignored : anyContains cfg.ignoredDstNets addr = false)
      (hv : to4 addr = some v.toList) (hip : ip = (pref.embed v).toList)
  /-- The unspecified address, if the policy is to process it. -/
  | unspecified (hip : isUnspecified ip = true) (hia : cfg.ia = .process)
  /-- An address of the AAAA reply that is not excluded, in a zone that returns
  IPv6 addresses. -/
  | native (upResp : Msg) (rr : RR) (hzone : z.returnIPv6Addresses = true)
      (hup : up6 = some upResp) (hrr : rr ∈ upResp.answer) (haaaa : rr.aaaa? = some ip)
      (hexcluded : anyContains cfg.excludedAAAANets ip = false)

/-- Every AAAA record of a list may be served. -/
def AllAllowed (cfg : ProxyConfig) (z : Zone) (up6 up4 : Option Msg) (rrs : List RR) : Prop :=
  ∀ rr ∈ rrs, ∀ ip, rr.aaaa? = some ip → PolicyAllows cfg z up6 up4 ip

/-- The records of the answer that no filter has seen. -/
def passedThrough (cfg : ProxyConfig) (z : Zone) (req : Msg) : (up6 up4 : Option Msg) → List RR
  | none, _ => []
  | some upResp, up4 =>
    if upResp.rcode = rcodeNameError then req.answer
    else
      match usableFrom cfg z upResp with
      | some _ => []
      | none =>
        match z.pref with
        | none => []
        | some _ => up4.elim [] fun aResp =>
            if aResp.answer.any (synthesisPanics cfg) then [] else nonA aResp

section Policy

variable {lib : DnsLib} {cfg : ProxyConfig} {z : Zone} {up6 up4 : Option Msg} {req : Msg}
  {q : Question}

/-- What `filterAAAA` keeps is allowed. -/
theorem kept_allowed {upResp : Msg} :
    AllAllowed cfg z (some upResp) up4 (upResp.answer.filter (kept cfg z)) := by
  intro rr hrr ip hip
  obtain ⟨hmem, hkept⟩ := List.mem_filter.1 hrr
  rw [kept, excluded, hip] at hkept
  simp only [Bool.and_eq_true, Bool.not_eq_true'] at hkept
  obtain ⟨hexcluded, hpolicy⟩ := hkept
  split_ifs at hpolicy with hun
  · exact .unspecified hun (of_decide_eq_true hpolicy)
  · exact .native upResp rr hpolicy rfl hmem hip hexcluded

/-- What `synthesiseFromA` makes is allowed. -/
theorem synthesised_allowed {pref : Pref64} {upResp aResp : Msg} (hpref : z.pref = some pref) :
    AllAllowed cfg z up6 (some aResp) (synthesisedFrom lib cfg q pref upResp aResp) := by
  intro rr' hrr' ip' hip'
  obtain ⟨rr, hrr, hsynth⟩ := List.mem_filterMap.1 hrr'
  obtain ⟨addr, ip, ha, hdata, -, hcase⟩ := synthesised_eq_some hsynth
  rw [RR.aaaa?, hdata] at hip'
  obtain rfl : ip = ip' := Option.some.inj hip'
  rcases hcase with ⟨hia, rfl⟩ | ⟨hignored, v, hv, rfl⟩
  · exact .unspecified (by decide) hia
  · exact .synthesised pref aResp rr addr v hpref rfl hrr ha hignored hv rfl

theorem allAllowed_append {rrs rrs' : List RR} (h : AllAllowed cfg z up6 up4 rrs') :
    AllAllowed cfg z up6 up4 (rrs ++ rrs') ↔ AllAllowed cfg z up6 up4 rrs := by
  constructor
  · intro hall rr hrr
    exact hall rr (List.mem_append_left rrs' hrr)
  · intro hall rr hrr
    rcases List.mem_append.1 hrr with hrr | hrr
    · exact hall rr hrr
    · exact h rr hrr

theorem resolutionFromA_allowed_iff {pref : Pref64} {upResp aResp : Msg}
    (hpref : z.pref = some pref) :
    AllAllowed cfg z up6 (some aResp)
        (answerOf (resolutionFromA lib cfg req q pref upResp (some aResp)).resp) ↔
      AllAllowed cfg z up6 (some aResp) (nonA aResp) := by
  rw [resolutionFromA]
  dsimp only
  split_ifs
  · exact Iff.rfl
  · exact allAllowed_append (synthesised_allowed hpref)

/-- An answer keeps to the policy exactly if what is passed through does, and
nothing is where the handler panics. -/
theorem resolution_allowed_iff (lib : DnsLib) (q : Question) :
    ((resolution lib cfg req q z up6 up4).panics = false →
        AllAllowed cfg z up6 up4 (answerOf (resolution lib cfg req q z up6 up4).resp)) ↔
      AllAllowed cfg z up6 up4 (passedThrough cfg z req up6 up4) := by
  cases up6 with
  | none => simp [resolution, answerOf, passedThrough, AllAllowed]
  | some upResp =>
    rw [resolution, passedThrough]
    split_ifs with hname
    · simp [answerOf]
    · have hempty : AllAllowed cfg z (some upResp) up4 [] := by
        intro rr hrr
        cases hrr
      cases husable : usableFrom cfg z upResp with
      | some answer =>
        have hkept : AllAllowed cfg z (some upResp) up4 answer := by
          rw [usableFrom_eq_some husable]
          exact kept_allowed
        simp [answerOf, hkept, hempty]
      | none =>
        cases hpref : z.pref with
        | none => simp [answerOf, hempty]
        | some pref =>
          cases up4 with
          | none => simp [answerOf, hempty, resolutionFromA]
          | some aResp =>
            dsimp only [Option.elim]
            rw [resolutionFromA_allowed_iff hpref, resolutionFromA_panics]
            cases aResp.answer.any (synthesisPanics cfg) with
            | true => simp [hempty]
            | false => simp

end Policy

/-! ## Answers to one pair of replies -/

/-- Every AAAA record of the answer to a query keeps to the policy of the zone
of the name. -/
def PolicyComplete (uc : UnicodeCase) (lib : DnsLib) (s : ProxyState) (req : Msg)
    (q : Question) (via : Via) (up6 up4 : Option Msg) : Prop :=
  ∀ chances resp s',
    Prog.exec (proxyStep (echoing (pairForwarder up6 up4))) (handleVia uc lib req via) s chances =
      some (resp, s') →
    ∀ rr ∈ resp.answer, ∀ ip, rr.aaaa? = some ip →
      ∃ z, zoneFor uc s.cfg q.name = some z ∧ PolicyAllows s.cfg z up6 up4 ip

section Pair

variable (uc : UnicodeCase) (lib : DnsLib) (s : ProxyState) (req : Msg) (q : Question)
  (via : Via) (up6 up4 : Option Msg)

/-- A query for AAAA records of a name that is neither static nor
`ipv4only.arpa.` and that has no cached answer keeps to the policy exactly if
the records that are passed through do. -/
theorem policy_iff (hq : req.AsksAAAA q) (hstatic : s.static.lookup (staticKey uc q.name) = none)
    (hname : isIPv4Only uc q.name = false)
    (hmiss : ∀ now, s.cache.get (cacheKeyFor { q with qtype := typeAAAA }) now = none) :
    PolicyComplete uc lib s req q via up6 up4 ↔
      ∀ z, zoneFor uc s.cfg q.name = some z →
        AllAllowed s.cfg z up6 up4 (passedThrough s.cfg z req up6 up4) := by
  have hst : staticFor uc lib s.static req q = none := by
    simp [staticFor, staticReply, hstatic]
  have hends := ends_fresh uc lib via (pairForwarder_caseBlind up6 up4) hq hmiss
  have hfresh : ∀ z, zoneFor uc s.cfg q.name = some z →
      fresh uc lib s.cfg s.static (pairForwarder up6 up4) req q =
        resolution lib s.cfg req { q with qtype := typeAAAA } z up6 up4 := by
    intro z hz
    rw [fresh, hst, hz]
    dsimp only
    rw [hname]
    rfl
  constructor
  · intro hpolicy z hz
    refine (resolution_allowed_iff lib { q with qtype := typeAAAA }).1 fun hpanics => ?_
    have hreturns : Returns (echoing (pairForwarder up6 up4)) (handleVia uc lib req via) s := by
      apply returns_handleVia_aaaa (pairForwarder_caseBlind up6 up4) hq
      rw [hfresh z hz, hpanics]
    obtain ⟨chances, resp, s', hrun, hanswer, -⟩ := hreturns.exists_of_wp hends
    rw [freshAnswer, hfresh z hz] at hanswer
    intro rr hrr ip hip
    rw [← hanswer] at hrr
    obtain ⟨z', hz', hallowed⟩ := hpolicy chances resp s' hrun rr hrr ip hip
    obtain rfl : z = z' := Option.some.inj (hz.symm.trans hz')
    exact hallowed
  · intro hthrough chances resp s' hrun rr hrr ip hip
    obtain ⟨hanswer, hpanics⟩ := Prog.wp_iff.1 hends chances resp s' hrun
    cases hz : zoneFor uc s.cfg q.name with
    | none =>
      rw [hanswer, freshAnswer, fresh, hst, hz] at hrr
      cases hrr
    | some z =>
      rw [hfresh z hz] at hpanics
      rw [hanswer, freshAnswer, hfresh z hz] at hrr
      exact ⟨z, rfl, (resolution_allowed_iff lib _).2 (hthrough z hz) hpanics rr hrr ip hip⟩

end Pair

/-! ## An AAAA record in the A reply -/

def realAddress : IP := [0x20, 0x01, 0x0d, 0xb8] ++ List.replicate 12 1

/-- A reply to the A request that holds an A record and an AAAA record. -/
def mixedReply : Msg :=
  { response := true
    answer := [⟨"a.example.", classINET, 60, .a [192, 0, 2, 1]⟩,
      ⟨"a.example.", classINET, 60, .aaaa realAddress⟩] }

/-- The run of `sampleQuery` against `mixedReply`. -/
def mixedChances : List Chance :=
  idle 3 ++ lookupChances (Msg.replyTo {} sampleQuery) ++ idle 1 ++
    lookupChances (mixedReply.replyTo (sampleQuery.asking ⟨"a.example.", typeA, classINET⟩)) ++
    idle 2

theorem realAddress_not_allowed :
    ¬ PolicyAllows filteringConfig filteringZone (some {}) (some mixedReply) realAddress := by
  intro hallowed
  cases hallowed with
  | synthesised pref aResp rr addr v hpref hup hrr ha hignored hv hip =>
    obtain rfl := Option.some.inj hup
    have haddr : ∀ rr ∈ mixedReply.answer, ∀ addr ∈ rr.a?, to4 addr = some [192, 0, 2, 1] := by
      decide
    have hv4 : v.toList = [192, 0, 2, 1] :=
      Option.some.inj (hv.symm.trans (haddr rr hrr addr ha))
    have hembed : ∀ pref ∈ filteringZone.pref,
        (pref.embed (.cons 192 (.cons 0 (.cons 2 (.cons 1 .nil))))).toList ≠ realAddress := by
      decide +kernel
    obtain rfl : v = .cons 192 (.cons 0 (.cons 2 (.cons 1 .nil))) := Subtype.ext hv4
    exact hembed pref hpref hip.symm
  | unspecified hip hia => cases hia
  | native upResp rr hzone => cases hzone

/-- The AAAA record of the A reply is served from a zone that returns no IPv6
addresses. -/
theorem mixedReply_served :
    ¬ PolicyComplete asciiCase anyName (.new filteringConfig ⟨second, 0, none⟩) sampleQuery
      ⟨"a.example.", typeAAAA, classINET⟩ .udp (some {}) (some mixedReply) := by
  intro hpolicy
  have hrun : ∃ r ∈ Prog.exec (proxyStep (echoing (pairForwarder (some {}) (some mixedReply))))
      (handleVia asciiCase anyName sampleQuery .udp) (.new filteringConfig ⟨second, 0, none⟩)
      mixedChances, ∃ rr ∈ r.1.answer, rr.aaaa? = some realAddress := by
    decide +kernel
  obtain ⟨⟨resp, s'⟩, hrun, rr, hrr, hip⟩ := hrun
  obtain ⟨z, hz, hallowed⟩ := hpolicy mixedChances resp s' hrun rr hrr realAddress hip
  have hzone : zoneFor asciiCase filteringConfig "a.example." = some filteringZone := by
    decide +kernel
  obtain rfl := Option.some.inj (hzone.symm.trans hz)
  exact realAddress_not_allowed hallowed

/-- A reply to the A request that holds an A record only. -/
def plainReply : Msg :=
  { response := true, answer := [⟨"a.example.", classINET, 60, .a [192, 0, 2, 1]⟩] }

theorem policy_iff_plainReply :
    PolicyComplete asciiCase anyName (.new filteringConfig ⟨second, 0, none⟩) sampleQuery
      ⟨"a.example.", typeAAAA, classINET⟩ .udp (some {}) (some plainReply) := by
  refine (policy_iff asciiCase anyName _ sampleQuery _ .udp _ _ ⟨rfl, rfl, .inl rfl, by decide⟩
    rfl (by decide +kernel) (fun now => rfl)).2 fun z hz => ?_
  have hzone : zoneFor asciiCase filteringConfig "a.example." = some filteringZone := by
    decide +kernel
  obtain rfl : filteringZone = z := Option.some.inj (hzone.symm.trans hz)
  have hnone : passedThrough filteringConfig filteringZone sampleQuery (some {})
      (some plainReply) = [] := by
    decide +kernel
  intro rr hrr
  rw [ProxyState.new, hnone] at hrr
  cases hrr

end Ydn64.Dns64
