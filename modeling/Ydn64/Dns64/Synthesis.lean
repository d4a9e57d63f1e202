import Ydn64.Config.Embedding
import Ydn64.Dns64.Panics

/-!
# Synthesis by RFC 6147

What a query for AAAA records comes to when nothing is cached, for one pair of
replies (section 5.1 of RFC 6147).  A name error is passed on without a look at
the A records (`Synthesises.nxdomain`).  If the first reply leaves nothing
usable, the answer is made of the second: the records that are no A records, and
after them one AAAA record for every A record that is served, in order
(`AnswersFrom`).  `StandsFor` relates the two records: same owner, bounded TTL, and
an address of which the prefix gives the IPv4 address back.  It does so for every
address whose embedding does not read as IPv4 (`Pref64.extract_embed_iff`).

Which A records are served is a parameter of the statement.  Under `process` an
unspecified address becomes `::` before the ignored subnets are looked at, so it
is served also if an ignored subnet holds it (`isServed`).
-/

namespace Ydn64.Dns64

open Ydn64.GoStd Ydn64.Config Ydn64.Lib
open Ydn64.Nat64 (second)

/-! ## The statement -/

/-- The record is an A record that is neither dropped as unspecified nor in an
ignored subnet. -/
def passesFilters (cfg : ProxyConfig) (rr : RR) : Bool :=
  match rr.a? with
  | none => false
  | some addr =>
    !(isUnspecified addr && cfg.ia = .discard) && !anyContains cfg.ignoredDstNets addr

/-- The record is an A record with 0.0.0.0 under `process`, or passes the
filters. -/
def isServed (cfg : ProxyConfig) (rr : RR) : Bool :=
  cfg.ia = .process && rr.a? = some [0, 0, 0, 0] || passesFilters cfg rr

/-- The owner of a record, or the name of the question where it has none. -/
def ownerName (fallbackName : String) (rr : RR) : String :=
  if rr.name = "" then fallbackName else rr.name

/-- The AAAA record `rr'` stands for the A record `rr`. -/
structure StandsFor (cfg : ProxyConfig) (fallbackName : String) (pref : Pref64) (maxTTL : UInt32)
    (rr rr' : RR) : Prop where
  owner : rr'.name = ownerName fallbackName rr
  ttl : rr'.ttl.toNat = min rr.ttl.toNat maxTTL.toNat
  addr : ∃ (v : Addr4) (ip : IP), rr.a? = some v.toList ∧ rr'.data = .aaaa ip ∧
    if cfg.ia = .process ∧ v.toList = [0, 0, 0, 0] then ip = List.replicate 16 0
    else pref.extract ip = some v

/-- The response `resp` is made of the A reply. -/
structure AnswersFrom (cfg : ProxyConfig) (name : String) (pref : Pref64) (served : RR → Bool)
    (upResp aResp resp : Msg) : Prop where
  answer : ∃ synth, resp.answer = nonA aResp ++ synth ∧
    (aResp.rcode = rcodeSuccess →
      List.Forall₂ (StandsFor cfg name pref (synthesisTTL upResp.ns))
        (aResp.answer.filter served) synth) ∧
    (aResp.rcode ≠ rcodeSuccess → synth = [])
  rcode : resp.rcode = aResp.rcode
  noA : ∀ rr ∈ resp.answer, rr.a? = none

/-- The forwarder was asked for A records. -/
def AskedForA (es : List Exchanged) : Prop := ∃ e ∈ es, e.req.firstType = some typeA

/-- The result `r` of the exchanges `es` that brought the two replies. -/
structure Synthesises (cfg : ProxyConfig) (name : String) (z : Zone) (pref : Pref64)
    (served : RR → Bool) (upResp aResp : Msg) (r : Option Msg) (es : List Exchanged) : Prop where
  nxdomain : upResp.rcode = rcodeNameError →
    (∃ resp, r = some resp ∧ resp.rcode = rcodeNameError) ∧ ¬ AskedForA es
  synthesis : upResp.rcode ≠ rcodeNameError →
    upResp.rcode ≠ rcodeSuccess ∨ containsAAAA (upResp.answer.filter (kept cfg z)) = false →
    (∃ resp, r = some resp ∧ AnswersFrom cfg name pref served upResp aResp resp) ∧ AskedForA es

/-- The handler answers, and every answer is the synthesis of the two replies. -/
structure SynthesisComplete (uc : UnicodeCase) (lib : DnsLib) (s : ProxyState) (req : Msg)
    (q : Question) (z : Zone) (pref : Pref64) (server : String) (via : Via) (served : RR → Bool)
    (upResp aResp : Msg) : Prop where
  answers : Answers (echoing (pairForwarder (some upResp) (some aResp)))
    (handleAAAA uc lib req q z server via) s
  synthesises : ∀ chances r s',
    Prog.exec (proxyStep (echoing (pairForwarder (some upResp) (some aResp))))
      (handleAAAA uc lib req q z server via) s chances = some (r, s') →
    ∃ es, s'.log = s.log ++ es ∧ Synthesises s.cfg q.name z pref served upResp aResp r es

/-! ## One record -/

section Record

variable {lib : DnsLib} {cfg : ProxyConfig} {pref : Pref64} {fallbackName : String}
  {maxTTL : UInt32} {rr : RR}

theorem isUnspecified_of_four {addr : IP} (h : addr.length = 4) :
    isUnspecified addr = true ↔ addr = [0, 0, 0, 0] := by
  have hto4 : to4 addr = some addr := if_pos h
  have hne : addr ≠ List.replicate 16 0 := by
    rintro rfl
    simp at h
  rw [isUnspecified, hto4]
  simp only [Bool.or_eq_true, decide_eq_true_eq, Option.some.injEq, hne, or_false]

theorem synthesisedAddr_of_four (cfg : ProxyConfig) (ttl : UInt32) {name : String}
    (haccepts : lib.accepts name = true) {v : Addr4} (hnot4 : to4 (pref.embed v).toList = none) :
    if anyContains cfg.ignoredDstNets v.toList then
      synthesisedAddr lib cfg pref name ttl v.toList = none
    else ∃ ip, synthesisedAddr lib cfg pref name ttl v.toList =
      some ⟨name, classINET, ttl, .aaaa ip⟩ ∧ pref.extract ip = some v := by
  have hto4 : to4 v.toList = some v.toList := if_pos v.2
  have hv : (List.Vector.ofFn fun i : Fin 4 => v.toList.getD i 0) = v := by
    obtain ⟨l, hl⟩ := v
    obtain ⟨a, b, c, d, rfl⟩ := List.length_eq_four.1 hl
    rfl
  unfold synthesisedAddr
  split_ifs
  · rfl
  · refine ⟨(pref.embed v).toList, ?_, (pref.extract_embed_iff v).2 hnot4⟩
    rw [hto4, Option.bind_some, hv]
    exact lib.newAAAA_of_accepts ttl haccepts hnot4 (pref.embed v).2

/-- An A record that is served has a record that stands for it, and one that is
not has none. -/
theorem synthesised_served
    (hname : rr.a?.isSome → lib.accepts (ownerName fallbackName rr) = true)
    (h4 : ∀ addr, rr.a? = some addr → addr.length = 4)
    (hnot4 : ∀ v : Addr4, rr.a? = some v.toList → to4 (pref.embed v).toList = none) :
    if isServed cfg rr then ∃ rr', synthesised lib cfg fallbackName pref maxTTL rr = some rr' ∧
      StandsFor cfg fallbackName pref maxTTL rr rr'
    else synthesised lib cfg fallbackName pref maxTTL rr = none := by
  unfold isServed passesFilters synthesised
  cases ha : rr.a? with
  | none => simp
  | some addr =>
    have haccepts := hname (by rw [ha]; rfl)
    obtain ⟨v, rfl⟩ : ∃ v : Addr4, addr = v.toList := ⟨⟨addr, h4 addr ha⟩, rfl⟩
    have hun : isUnspecified v.toList = true ↔ v.toList = [0, 0, 0, 0] :=
      isUnspecified_of_four v.2
    have httl : (if maxTTL < rr.ttl then maxTTL else rr.ttl).toNat =
        min rr.ttl.toNat maxTTL.toNat := by
      split_ifs with hlt <;> rw [UInt32.lt_iff_toNat_lt] at hlt <;> omega
    dsimp only
    rw [← ownerName]
    generalize (if maxTTL < rr.ttl then maxTTL else rr.ttl) = ttl at httl ⊢
    have haddr := synthesisedAddr_of_four cfg ttl haccepts (hnot4 v ha)
    -- A record that is not turned into `::` is embedded unless it is ignored.
    have hembed : ¬ (cfg.ia = .process ∧ v.toList = [0, 0, 0, 0]) →
        if !anyContains cfg.ignoredDstNets v.toList then
          ∃ rr', synthesisedAddr lib cfg pref (ownerName fallbackName rr) ttl v.toList = some rr' ∧
            StandsFor cfg fallbackName pref maxTTL rr rr'
        else synthesisedAddr lib cfg pref (ownerName fallbackName rr) ttl v.toList = none := by
      intro hprocess
      cases hignored : anyContains cfg.ignoredDstNets v.toList with
      | true =>
        rw [hignored] at haddr
        exact haddr
      | false =>
        rw [hignored] at haddr
        obtain ⟨ip, hsome, hextract⟩ := haddr
        refine ⟨_, hsome, rfl, httl, v, ip, ha, rfl, ?_⟩
        rwa [if_neg hprocess]
    by_cases hzero : v.toList = [0, 0, 0, 0]
    · have hun' : isUnspecified v.toList = true := hun.2 hzero
      rw [if_pos hun']
      cases hia : cfg.ia with
      | discard => simp [hun']
      | process =>
        have hnew : lib.newAAAA (ownerName fallbackName rr) ttl (List.replicate 16 0) =
            some ⟨ownerName fallbackName rr, classINET, ttl, .aaaa (List.replicate 16 0)⟩ :=
          lib.newAAAA_of_accepts ttl haccepts (by decide) (by decide)
        simp only [hzero, decide_true, Bool.true_and, Bool.true_or, if_true]
        refine ⟨_, hnew, rfl, httl, v, _, ha, rfl, ?_⟩
        rw [if_pos ⟨hia, hzero⟩]
      | ignore =>
        have hnot : ¬ (cfg.ia = .process ∧ v.toList = [0, 0, 0, 0]) := by simp [hia]
        simpa [hun'] using hembed hnot
    · have hun' : isUnspecified v.toList = false := by
        rw [← Bool.not_eq_true, hun]
        exact hzero
      simpa [hun', hzero] using hembed fun h => hzero h.2

end Record

/-! ## The list of records -/

/-- A loop over a list that makes something of the elements that satisfy `p` and
drops the others. -/
theorem forall₂_filter_filterMap {α β : Type} {R : α → β → Prop} {p : α → Bool}
    {f : α → Option β} {l : List α}
    (h : ∀ a ∈ l, if p a then ∃ b, f a = some b ∧ R a b else f a = none) :
    List.Forall₂ R (l.filter p) (l.filterMap f) := by
  induction l with
  | nil => exact .nil
  | cons a l ih =>
    have htail := ih fun b hb => h b (List.mem_cons_of_mem a hb)
    have hhead := h a List.mem_cons_self
    cases hp : p a with
    | true =>
      rw [hp] at hhead
      obtain ⟨b, hb, hab⟩ := hhead
      rw [List.filter_cons_of_pos hp, List.filterMap_cons_some hb]
      exact .cons hab htail
    | false =>
      rw [hp] at hhead
      rw [List.filter_cons_of_neg (by simp [hp]), List.filterMap_cons_none hhead]
      exact htail

section Reply

variable {lib : DnsLib} {cfg : ProxyConfig} {pref : Pref64} {req : Msg} {q : Question}
  {upResp aResp : Msg}

theorem synthesisedFrom_no_a {rr : RR} (h : rr ∈ synthesisedFrom lib cfg q pref upResp aResp) :
    rr.a? = none := by
  obtain ⟨rr₀, -, hsynth⟩ := List.mem_filterMap.1 h
  obtain ⟨addr, ip, -, hdata, -⟩ := synthesised_eq_some hsynth
  rw [RR.a?, hdata]

theorem nonA_no_a {rr : RR} (h : rr ∈ nonA aResp) : rr.a? = none := by
  simpa using (List.mem_filter.1 h).2

theorem resolutionFromA_answersFrom {served : RR → Bool}
    (hserved : List.Forall₂ (StandsFor cfg q.name pref (synthesisTTL upResp.ns))
      (aResp.answer.filter served) (synthesisedFrom lib cfg q pref upResp aResp)) :
    ∃ resp, (resolutionFromA lib cfg req q pref upResp (some aResp)).resp = some resp ∧
      AnswersFrom cfg q.name pref served upResp aResp resp := by
  rw [resolutionFromA]
  dsimp only
  split_ifs with hnone
  · refine ⟨_, rfl, ⟨[], (List.append_nil _).symm, fun hrcode => ?_, fun _ => rfl⟩, rfl,
      fun rr hrr => nonA_no_a hrr⟩
    rcases hnone with hne | hnil
    · exact absurd hrcode hne
    · rwa [hnil] at hserved
  · have hrcode : aResp.rcode = rcodeSuccess := by
      by_contra hne
      exact hnone (.inl hne)
    refine ⟨_, rfl, ⟨_, rfl, fun _ => hserved, fun hne => absurd hrcode hne⟩, hrcode.symm,
      fun rr hrr => ?_⟩
    rcases List.mem_append.1 hrr with hrr | hrr
    · exact nonA_no_a hrr
    · exact synthesisedFrom_no_a hrr

end Reply

/-! ## The handler -/

section Handler

variable {net : Network} {uc : UnicodeCase} {lib : DnsLib} {s : ProxyState} {req : Msg}
  {q : Question} {z : Zone} {server : String} {via : Via}

theorem ends_handleAAAA_of_miss (hname : isIPv4Only uc q.name = false)
    (hmiss : ∀ now rrs, s.cache.get (cacheKeyFor q) now = some rrs →
      containsAAAA (servable s.cfg rrs) = false) {Q : Option Msg → ProxyState → Prop}
    (h : Ends net Q (resolveAAAA lib req q z server via) s) :
    Ends net Q (handleAAAA uc lib req q z server via) s := by
  simp only [handleAAAA, Request.load_value_bind, monadLift_self]
  rw [if_neg (by rw [hname]; exact Bool.false_ne_true), ends_bind, ends_cachedAAAA]
  refine ⟨fun _ => h, fun now rrs hget haaaa => ?_⟩
  rw [hmiss now rrs hget] at haaaa
  cases haaaa

theorem asksForA_iff {upResp : Msg} {cfg : ProxyConfig} :
    AsksForA cfg z (some upResp) ↔ upResp.rcode ≠ rcodeNameError ∧ (upResp.rcode ≠ rcodeSuccess ∨
      containsAAAA (upResp.answer.filter (kept cfg z)) = false) := by
  unfold AsksForA usableFrom
  simp only [Option.some.injEq, exists_eq_left', ite_eq_right_iff, reduceCtorEq, imp_false,
    not_and_or, Bool.not_eq_true]

end Handler

/-- DNS64 synthesis: the handler answers every query for a name other than
`ipv4only.arpa.` that is not cached, and the answer is the synthesis of the two
replies.  No A record of the reply may have an embedding that reads as IPv4. -/
theorem handleAAAA_synthesises (uc : UnicodeCase) (lib : DnsLib) (s : ProxyState) (req : Msg)
    (q : Question) (z : Zone) (pref : Pref64) (server : String) (via : Via) (upResp aResp : Msg)
    (hpref : z.pref = some pref) (htype : q.qtype = typeAAAA)
    (hname : isIPv4Only uc q.name = false)
    (hmiss : ∀ now rrs, s.cache.get (cacheKeyFor q) now = some rrs →
      containsAAAA (servable s.cfg rrs) = false)
    (h4 : ∀ rr ∈ aResp.answer, ∀ addr, rr.a? = some addr → addr.length = 4)
    (hnot4 : ∀ rr ∈ aResp.answer, ∀ v : Addr4, rr.a? = some v.toList →
      to4 (pref.embed v).toList = none)
    (howner : ∀ rr ∈ aResp.answer, rr.a?.isSome → lib.accepts (ownerName q.name rr) = true) :
    SynthesisComplete uc lib s req q z pref server via (isServed s.cfg) upResp aResp := by
  have hf := pairForwarder_caseBlind (some upResp) (some aResp)
  have hup6 : pairForwarder (some upResp) (some aResp) server (req.asking q) = some upResp :=
    if_pos (congrArg some htype)
  have hup4 : pairForwarder (some upResp) (some aResp) server (req.asking (aQuestion q)) =
      some aResp := rfl
  have hserved : List.Forall₂ (StandsFor s.cfg q.name pref (synthesisTTL upResp.ns))
      (aResp.answer.filter (isServed s.cfg)) (synthesisedFrom lib s.cfg q pref upResp aResp) :=
    forall₂_filter_filterMap fun rr hrr =>
      synthesised_served (howner rr hrr) (h4 rr hrr) (hnot4 rr hrr)
  constructor
  · have hsafe : Safe (echoing (pairForwarder (some upResp) (some aResp)))
        (handleAAAA uc lib req q z server via) s := by
      refine (safe_handleAAAA_iff uc lib s req q z server via hf).2 fun _ _ => ?_
      rw [hup6, hup4, ← Bool.not_eq_true, resolution_panics_iff hpref]
      rintro ⟨-, aResp', haResp, hany⟩
      obtain rfl := Option.some.inj haResp
      obtain ⟨rr, hrr, hpanics⟩ := List.any_eq_true.1 hany
      rw [synthesisPanics_of_four (h4 rr hrr)] at hpanics
      cases hpanics
    exact ⟨hsafe, returns_of_safe (echoing_replies _) hsafe⟩
  · refine Prog.wp_iff.1 (ends_handleAAAA_of_miss hname hmiss
      (Prog.wp_mono ends_resolveAAAA fun r s' hr => ?_))
    obtain ⟨up6, up4, es6, es4, hres, hes4⟩ := hr
    have hresp := hres.resp
    rw [hres.of_echoing hf, hup6, hup4] at hresp
    have hup : AsksForA s.cfg z up6 ↔ AsksForA s.cfg z (some upResp) := by
      rw [hres.first.of_echoing hf, hup6, Option.map_some, asksForA_iff, asksForA_iff]
      exact Iff.rfl
    rw [hpref, hup] at hes4
    refine ⟨es6 ++ es4, hres.moves.log, fun hnx => ⟨?_, ?_⟩, fun hne hunusable => ⟨?_, ?_⟩⟩
    · rw [hresp, resolution, if_pos hnx]
      exact ⟨_, rfl, rfl⟩
    · have hnil : es4 = [] := by
        by_contra hcons
        exact (asksForA_iff.1 (hes4.1 hcons).2).1 hnx
      rintro ⟨e, he, hfirst⟩
      rw [hnil, List.append_nil] at he
      rw [hres.first.firstType he] at hfirst
      rw [Msg.firstType, Msg.asking, List.head?_cons, Option.map_some, htype] at hfirst
      exact absurd hfirst (by decide)
    · obtain ⟨upResp', hsome, -, husable⟩ := asksForA_iff.2 ⟨hne, hunusable⟩
      obtain rfl := Option.some.inj hsome
      rw [hresp, resolution, if_neg hne, husable, hpref]
      exact resolutionFromA_answersFrom hserved
    · have hcons := hes4.2 ⟨rfl, asksForA_iff.2 ⟨hne, hunusable⟩⟩
      rcases hres.second with hsecond | ⟨hnil, -⟩
      · obtain ⟨e, he⟩ := List.exists_mem_of_ne_nil es4 hcons
        exact ⟨e, List.mem_append_right es6 he, hsecond.firstType he⟩
      · exact absurd hnil hcons

theorem handleAAAA_synthesises_oneAReply :
    ∃ pref, filteringZone.pref = some pref ∧
      SynthesisComplete asciiCase anyName (.new filteringConfig ⟨second, 0, none⟩) sampleQuery
        ⟨"a.example.", typeAAAA, classINET⟩ filteringZone pref "192.0.2.53:53" .udp
        (isServed filteringConfig) {} (oneAReply [192, 0, 2, 1]) := by
  obtain ⟨pref, hpref⟩ : ∃ pref, filteringZone.pref = some pref :=
    Option.isSome_iff_exists.1 (by decide +kernel)
  have hmap : ∀ pref ∈ filteringZone.pref, ¬ pref.ReachesMapped := by decide +kernel
  refine ⟨pref, hpref, handleAAAA_synthesises asciiCase anyName _ sampleQuery _ _ pref _ .udp _ _
    hpref rfl (by decide +kernel) nofun ?_ ?_ ?_⟩
  · decide +kernel
  · exact fun _ _ v _ => pref.to4_embedInto (hmap pref hpref) v
  · decide +kernel

/-! ## An unspecified address in an ignored subnet -/

/-- The configuration that processes unspecified addresses and ignores their
subnet. -/
def processingConfig : ProxyConfig :=
  { filteringConfig with ia := .process, ignoredDstNets := parseIPNets ["0.0.0.0/8"] }

/-- The run of `sampleQuery` against an A record with 0.0.0.0. -/
def unspecifiedChances : List Chance :=
  idle 1 ++ lookupChances (Msg.replyTo {} sampleQuery) ++ idle 1 ++
    lookupChances ((oneAReply [0, 0, 0, 0]).replyTo
      (sampleQuery.asking ⟨"a.example.", typeA, classINET⟩)) ++
    idle 2

/-- The record is served although its address lies in an ignored subnet. -/
theorem unspecified_served_though_ignored :
    ¬ ∃ pref, filteringZone.pref = some pref ∧
      SynthesisComplete asciiCase anyName (.new processingConfig ⟨second, 0, none⟩) sampleQuery
        ⟨"a.example.", typeAAAA, classINET⟩ filteringZone pref "192.0.2.53:53" .udp
        (passesFilters processingConfig) {} (oneAReply [0, 0, 0, 0]) := by
  rintro ⟨pref, -, hcomplete⟩
  have hrun : ∃ r ∈ Prog.exec (proxyStep (echoing (pairForwarder (some {})
      (some (oneAReply [0, 0, 0, 0])))))
      (handleAAAA asciiCase anyName sampleQuery ⟨"a.example.", typeAAAA, classINET⟩ filteringZone
        "192.0.2.53:53" .udp) (.new processingConfig ⟨second, 0, none⟩) unspecifiedChances,
      (answerOf r.1).length = 1 := by
    decide +kernel
  obtain ⟨⟨r, s'⟩, hrun, hone⟩ := hrun
  obtain ⟨es, -, hsynth⟩ := hcomplete.synthesises unspecifiedChances r s' hrun
  obtain ⟨⟨resp, rfl, hfrom⟩, -⟩ := hsynth.synthesis (by decide) (.inr (by decide))
  obtain ⟨synth, hanswer, hserved, -⟩ := hfrom.answer
  have hfilter : (oneAReply [0, 0, 0, 0]).answer.filter (passesFilters processingConfig) = [] := by
    decide +kernel
  have hsynth := hserved rfl
  rw [hfilter, List.forall₂_nil_left_iff] at hsynth
  rw [answerOf, Option.map_some, Option.getD_some, hanswer, hsynth] at hone
  cases hone

end Ydn64.Dns64
