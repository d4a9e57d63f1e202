import Ydn64.Dns64.Returns

/-!
# The cache and what clients see

Two clients that ask for the same name share an entry of the cache, whatever
flags and options they send.  The forwarders answer by a function of what they
read of a request (`RequestView`), so a query without a cache has one answer
(`uncachedAnswer`), and the question is whether the cache changes it.

Every entry is the fresh answer of an earlier query for its name
(`CacheFresh`, kept by `cacheFresh_step`).  It is the fresh answer of the later
query too if both sent the same flags and options, and it is served whole if no
exclusion takes a record that is made of the forwarder's A records (`Spared`).
`transparent` is the result for a run and the query after it; without the first
condition one client is served what another one asked for.
-/

namespace Ydn64.Dns64

open Ydn64.GoStd Ydn64.Config Ydn64.Lib
open Ydn64.Nat64 (second)

/-! ## What a forwarder reads -/

/-- The DO bit, the CD bit and the EDNS options of a request. -/
structure ClientFlags where
  dnssecOk : Bool
  checkingDisabled : Bool
  options : List EdnsOption
  deriving DecidableEq

def Msg.clientFlags (m : Msg) : ClientFlags where
  dnssecOk := m.opt?.any RR.isDo
  checkingDisabled := m.checkingDisabled
  options :=
    match m.opt?.map RR.data with
    | some (.opt options) => options
    | _ => []

/-- A name without its case. -/
def foldName (name : String) : List Char := name.toList.map Char.toLower

/-- The part of a request that decides the reply. -/
structure RequestView where
  question : Option (List Char × UInt16 × UInt16)
  flags : ClientFlags
  deriving DecidableEq

def Msg.view (m : Msg) : RequestView where
  question := m.question.head?.map fun q => (foldName q.name, q.qtype, q.qclass)
  flags := m.clientFlags

/-- Forwarders that answer by what they read. -/
def upstream (up : String → RequestView → Option Msg) : Forwarder :=
  fun server req => up server req.view

theorem toLower_flipCase (c : Char) : (flipCase c).toLower = c.toLower := by
  have hascii : ∀ n, n < 128 → (flipCase (Char.ofNat n)).toLower = (Char.ofNat n).toLower := by
    decide +kernel
  by_cases hc : c.toNat < 128
  · have := hascii c.toNat hc
    rwa [Char.ofNat_toNat] at this
  · have hlower : ¬('a' ≤ c ∧ c ≤ 'z') := by
      intro h
      have hz : c.toNat ≤ 122 := h.2
      omega
    have hupper : ¬('A' ≤ c ∧ c ≤ 'Z') := by
      intro h
      have hz : c.toNat ≤ 90 := h.2
      omega
    rw [flipCase, if_neg hlower, if_neg hupper]

theorem foldName_flipName (name : String) (flips : List Bool) :
    foldName (flipName name flips) = foldName name := by
  unfold foldName flipName
  have hfst : name.toList = name.toList.zipIdx.map Prod.fst := by
    rw [List.zipIdx_map_fst]
  conv_rhs => rw [hfst]
  rw [String.toList_ofList, List.map_map, List.map_map]
  apply List.map_congr_left
  intro ci _
  simp only [Function.comp_apply]
  split_ifs
  · exact toLower_flipCase ci.1
  · rfl

theorem Msg.view_respelled (req : Msg) (id : UInt16) (flips : List Bool) :
    (req.respelled id flips).view = req.view := by
  unfold Msg.respelled Msg.setQname Msg.view
  cases hq : req.question with
  | nil => simp [Msg.clientFlags, Msg.opt?]
  | cons q qs =>
    simp [hq, Msg.clientFlags, Msg.opt?, Msg.qname, foldName_flipName]

theorem upstream_caseBlind (up : String → RequestView → Option Msg) : CaseBlind (upstream up) := by
  intro server req id flips
  rw [upstream, upstream, Msg.view_respelled]

/-! ## Answers without a cache -/

/-- The answer that is relayed as it is. -/
def relayedAnswer (uc : UnicodeCase) (lib : DnsLib) (cfg : ProxyConfig)
    (static : SyncMap String IP) (f : Forwarder) (req : Msg) (q : Question) : List RR :=
  match staticFor uc lib static req q with
  | some resp => resp.answer
  | none => ((zoneFor uc cfg q.name).map fun z => answerOf (f (serverFor cfg z) req)).getD []

/-- The answer to a query of type AAAA or ANY without a cache. -/
def uncachedAnswer (uc : UnicodeCase) (lib : DnsLib) (cfg : ProxyConfig)
    (static : SyncMap String IP) (f : Forwarder) (req : Msg) (q : Question) : List RR :=
  if q.qclass = classINET ∧ req.validates = false then
    freshAnswer uc lib cfg static f req q
  else relayedAnswer uc lib cfg static f req q

section Uncached

variable {uc : UnicodeCase} {lib : DnsLib} {f : Forwarder} {s : ProxyState} {req : Msg}
  {q : Question} {via : Via}

theorem ends_relayed (hf : CaseBlind f) (hq : req.question.head? = some q)
    (htype : q.qtype = typeAAAA ∨ q.qtype = typeANY)
    (hrelay : ¬(q.qclass = classINET ∧ req.validates = false)) :
    Ends (echoing f) (fun resp s' => resp.answer = relayedAnswer uc lib s.cfg s.static f req q ∧
        s'.cfg = s.cfg ∧ s'.static = s.static ∧ s'.cache = s.cache)
      (handleVia uc lib req via) s := by
  obtain ⟨qs, hqs⟩ := List.head?_eq_some_iff.1 hq
  refine ends_handleVia hqs ?_ ?_ ?_
  · intro resp hst
    rw [relayedAnswer, hst]
    exact ⟨rfl, rfl, rfl, rfl⟩
  · intro hst hz
    rw [relayedAnswer, hst, hz]
    exact ⟨rfl, rfl, rfl, rfl⟩
  · intro hst z hz
    rw [dispatch_relayed htype hrelay, relayedAnswer, hst, hz]
    simp only [finish_answer]
    exact ends_bind.2 (Prog.wp_mono (ends_passThrough hf) fun r s' hr => hr)

/-- From an empty cache, every run of a query of type AAAA or ANY answers
`uncachedAnswer`. -/
theorem ends_uncached (hf : CaseBlind f) (hq : req.question.head? = some q)
    (htype : q.qtype = typeAAAA ∨ q.qtype = typeANY)
    (hmiss : ∀ k now, s.cache.get k now = none) :
    Ends (echoing f) (fun resp _ => resp.answer = uncachedAnswer uc lib s.cfg s.static f req q)
      (handleVia uc lib req via) s := by
  unfold uncachedAnswer
  split_ifs with hplain
  · have hasks : req.AsksAAAA q := ⟨hq, hplain.1, htype, hplain.2⟩
    exact Prog.wp_mono (ends_fresh uc lib via hf hasks fun now => hmiss _ now)
      fun resp s' h => h.1
  · exact Prog.wp_mono (ends_relayed hf hq htype hplain) fun resp s' h => h.1

end Uncached

/-! ## What an entry holds -/

section Stored

variable {uc : UnicodeCase} {lib : DnsLib} {cfg : ProxyConfig} {static : SyncMap String IP}
  {req req' : Msg} {q q' : Question} {z : Zone} {up6 up4 : Option Msg} {rrs : List RR}

theorem resolutionFromA_stored {pref : Pref64} {upResp : Msg}
    (h : (resolutionFromA lib cfg req q pref upResp up4).stored = some rrs) (req' : Msg) :
    answerOf (resolutionFromA lib cfg req q pref upResp up4).resp = rrs ∧
      (resolutionFromA lib cfg req' q pref upResp up4).stored = some rrs ∧
      (resolutionFromA lib cfg req' q pref upResp up4).panics =
        (resolutionFromA lib cfg req q pref upResp up4).panics := by
  cases up4 with
  | none => cases h
  | some aResp =>
    simp only [resolutionFromA] at h ⊢
    split_ifs at h ⊢ with hnone
    obtain rfl := Option.some.inj h
    exact ⟨rfl, rfl, rfl⟩

/-- What is stored is what is answered, and it does not depend on the request
but through the replies. -/
theorem resolution_stored (h : (resolution lib cfg req q z up6 up4).stored = some rrs)
    (req' : Msg) :
    answerOf (resolution lib cfg req q z up6 up4).resp = rrs ∧
      (resolution lib cfg req' q z up6 up4).stored = some rrs ∧
      (resolution lib cfg req' q z up6 up4).panics =
        (resolution lib cfg req q z up6 up4).panics := by
  cases up6 with
  | none => cases h
  | some upResp =>
    simp only [resolution] at h ⊢
    split_ifs at h ⊢ with hname
    cases husable : usableFrom cfg z upResp with
    | some answer =>
      rw [husable] at h
      obtain rfl := Option.some.inj h
      exact ⟨rfl, rfl, rfl⟩
    | none =>
      rw [husable] at h
      cases hpref : z.pref with
      | none =>
        rw [hpref] at h
        cases h
      | some pref =>
        rw [hpref] at h
        exact resolutionFromA_stored h req'

/-- No excluded subnet holds what the resolver makes of an A reply: an AAAA record
that came with it, an embedded address, or `::` under `process`. -/
structure Spared (cfg : ProxyConfig) (pref : Pref64) (aResp : Msg) : Prop where
  relayed : ∀ rr ∈ aResp.answer, excluded cfg.excludedAAAANets rr = false
  embedded : ∀ rr ∈ aResp.answer, ∀ addr v, rr.a? = some addr → to4 addr = some v.toList →
    anyContains cfg.excludedAAAANets (pref.embed v).toList = false
  unspecified : cfg.ia = .process →
    anyContains cfg.excludedAAAANets (List.replicate 16 0) = false

/-- Then no exclusion takes a record that is stored: those of the first reply have
passed the filter, and those of the second are spared. -/
theorem Spared.of_stored (h : (resolution lib cfg req q z up6 up4).stored = some rrs)
    (hspared : ∀ pref aResp, z.pref = some pref → up4 = some aResp → Spared cfg pref aResp)
    {rr : RR} (hrr : rr ∈ rrs) : excluded cfg.excludedAAAANets rr = false := by
  cases up6 with
  | none => cases h
  | some upResp =>
    simp only [resolution] at h
    split_ifs at h with hname
    cases husable : usableFrom cfg z upResp with
    | some answer =>
      rw [husable] at h
      obtain rfl := Option.some.inj h
      rw [usableFrom_eq_some husable] at hrr
      have hkept := (List.mem_filter.1 hrr).2
      simp only [kept, Bool.and_eq_true, Bool.not_eq_true'] at hkept
      exact hkept.1
    | none =>
      rw [husable] at h
      cases hpref : z.pref with
      | none =>
        rw [hpref] at h
        cases h
      | some pref =>
        rw [hpref] at h
        cases hup4 : up4 with
        | none =>
          rw [hup4] at h
          cases h
        | some aResp =>
          rw [hup4] at h
          have hs := hspared pref aResp hpref hup4
          simp only [resolutionFromA] at h
          split_ifs at h
          obtain rfl := Option.some.inj h
          rcases List.mem_append.1 hrr with hnonA | hsynth
          · exact hs.relayed rr (List.mem_of_mem_filter hnonA)
          · obtain ⟨rr₀, hrr₀, hsome⟩ := List.mem_filterMap.1 hsynth
            obtain ⟨addr, ip, ha, hdata, -, haddr⟩ := synthesised_eq_some hsome
            rw [excluded, RR.aaaa?, hdata]
            rcases haddr with ⟨hia, rfl⟩ | ⟨-, v, hv, rfl⟩
            · exact hs.unspecified hia
            · exact hs.embedded rr₀ hrr₀ addr v ha hv

theorem Msg.AsksAAAA.question_eq (hq : req.AsksAAAA q) (hq' : req'.AsksAAAA q')
    (hname : q.name = q'.name) : { q with qtype := typeAAAA } = { q' with qtype := typeAAAA } := by
  rw [Question.mk.injEq]
  exact ⟨hname, rfl, hq.qclass.trans hq'.qclass.symm⟩

theorem staticFor_aaaa_eq_none_iff (hq : req.AsksAAAA q) :
    staticFor uc lib static req q = none ↔ static.lookup (staticKey uc q.name) = none := by
  have htype : staticType q = typeAAAA := by
    unfold staticType
    rcases hq.qtype with ht | ht
    · rw [ht]
      rfl
    · rw [if_pos ht]
  rw [staticFor_eq_none_iff hq.qclass]
  simp [htype]

theorem fresh_eq_resolution {f : Forwarder}
    (h : (fresh uc lib cfg static f req q).stored = some rrs) :
    staticFor uc lib static req q = none ∧ isIPv4Only uc q.name = false ∧
      ∃ z, zoneFor uc cfg q.name = some z := by
  unfold fresh at h
  cases hst : staticFor uc lib static req q with
  | some resp =>
    rw [hst] at h
    cases h
  | none =>
    rw [hst] at h
    cases hz : zoneFor uc cfg q.name with
    | none =>
      rw [hz] at h
      cases h
    | some z =>
      rw [hz] at h
      cases hname : isIPv4Only uc q.name with
      | true =>
        dsimp only at h
        rw [hname] at h
        cases h
      | false => exact ⟨rfl, rfl, z, rfl⟩

theorem fresh_of_zone {f : Forwarder} (hst : staticFor uc lib static req q = none)
    (hname : isIPv4Only uc q.name = false) (hz : zoneFor uc cfg q.name = some z) :
    fresh uc lib cfg static f req q = resolution lib cfg req { q with qtype := typeAAAA } z
      (f (serverFor cfg z) (req.asking { q with qtype := typeAAAA }))
      (f (serverFor cfg z) (req.asking (aQuestion { q with qtype := typeAAAA }))) := by
  unfold fresh
  rw [hst, hz]
  dsimp only
  rw [hname]
  rfl

theorem freshAnswer_of_stored {f : Forwarder}
    (h : (fresh uc lib cfg static f req q).stored = some rrs) :
    freshAnswer uc lib cfg static f req q = rrs := by
  obtain ⟨hst, hname, z, hz⟩ := fresh_eq_resolution h
  rw [fresh_of_zone hst hname hz] at h
  rw [freshAnswer, fresh_of_zone hst hname hz]
  exact (resolution_stored h req).1

/-- The fresh answers of two queries for one name with the same flags. -/
theorem fresh_stored {up : String → RequestView → Option Msg} (hq : req.AsksAAAA q)
    (hq' : req'.AsksAAAA q') (hname : q.name = q'.name)
    (hflags : req.clientFlags = req'.clientFlags)
    (h : (fresh uc lib cfg static (upstream up) req q).stored = some rrs) :
    (fresh uc lib cfg static (upstream up) req' q').stored = some rrs ∧
      (fresh uc lib cfg static (upstream up) req' q').panics =
        (fresh uc lib cfg static (upstream up) req q).panics := by
  obtain ⟨hst, honly, z, hz⟩ := fresh_eq_resolution h
  have hst' : staticFor uc lib static req' q' = none := by
    rw [staticFor_aaaa_eq_none_iff hq', ← hname]
    exact (staticFor_aaaa_eq_none_iff hq).1 hst
  have hview : ∀ q'' server, upstream up server (req'.asking q'') =
      upstream up server (req.asking q'') := by
    intro q'' server
    change up server ⟨_, req'.clientFlags⟩ = up server ⟨_, req.clientFlags⟩
    rw [hflags]
    rfl
  rw [fresh_of_zone hst honly hz] at h ⊢
  rw [fresh_of_zone hst' (hname ▸ honly) (hname ▸ hz), hview, hview,
    ← hq.question_eq hq' hname]
  exact (resolution_stored h req').2

end Stored

/-! ## Runs -/

/-- The event is a query of type AAAA or ANY, or a tick of the janitor. -/
def ProxyEvent.AsksForAAAA : ProxyEvent → Prop
  | .query req _ _ => ∃ q, req.question.head? = some q ∧ (q.qtype = typeAAAA ∨ q.qtype = typeANY)
  | .janitor _ => True
  | _ => False

section Runs

variable {uc : UnicodeCase} {lib : DnsLib} {cfg : ProxyConfig} {static : SyncMap String IP}
  {up : String → RequestView → Option Msg}

/-- Every entry of the cache is the fresh answer of a query among the events. -/
structure CacheFresh (uc : UnicodeCase) (lib : DnsLib) (cfg : ProxyConfig)
    (static : SyncMap String IP) (up : String → RequestView → Option Msg) (evs : List ProxyEvent)
    (s : ProxyState) : Prop where
  cfg_eq : s.cfg = cfg
  static_eq : s.static = static
  entries : ∀ k it, s.cache.items.lookup k = some it → ∃ req q via chances,
    .query req via chances ∈ evs ∧ req.AsksAAAA q ∧ k = ⟨q.name, typeAAAA⟩ ∧
      (fresh uc lib cfg static (upstream up) req q).stored = some it.value ∧
      (fresh uc lib cfg static (upstream up) req q).panics = false

variable {evs : List ProxyEvent} {s s' : ProxyState} {req : Msg} {q : Question} {via : Via}
  {chances : List Chance}

theorem CacheFresh.moves {es : List Exchanged} (hs : CacheFresh uc lib cfg static up evs s)
    (hev : .query req via chances ∈ evs) (hq : req.AsksAAAA q)
    (hpanics : (fresh uc lib cfg static (upstream up) req q).panics = false)
    (h : Moves s s' es ⟨q.name, typeAAAA⟩
      (fresh uc lib cfg static (upstream up) req q).stored) :
    CacheFresh uc lib cfg static up evs s' := by
  refine ⟨h.cfg.trans hs.cfg_eq, h.static.trans hs.static_eq, fun k it hit => ?_⟩
  have hstores := h.stores
  cases hstored : (fresh uc lib cfg static (upstream up) req q).stored with
  | none =>
    rw [hstored] at hstores
    rw [hstores.1] at hit
    exact hs.entries k it hit
  | some rrs =>
    rw [hstored] at hstores
    obtain ⟨⟨now, now', victim, hset⟩, -⟩ := hstores
    rcases Cache.lookup_of_set hset hit with ⟨hk, hvalue⟩ | ⟨-, hold⟩
    · exact ⟨req, q, via, chances, hev, hq, hk, by rw [hvalue, hstored], hpanics⟩
    · exact hs.entries k it hold

theorem CacheFresh.ends (hs : CacheFresh uc lib cfg static up evs s)
    (hev : .query req via chances ∈ evs) (hq : req.question.head? = some q)
    (htype : q.qtype = typeAAAA ∨ q.qtype = typeANY) :
    Ends (echoing (upstream up)) (fun _ s' => CacheFresh uc lib cfg static up evs s')
      (handleVia uc lib req via) s := by
  by_cases hplain : q.qclass = classINET ∧ req.validates = false
  · have hasks : req.AsksAAAA q := ⟨hq, hplain.1, htype, hplain.2⟩
    refine ends_handleVia_aaaa (Q := fun _ s' => CacheFresh uc lib cfg static up evs s') hasks
      (fun _ _ => hs) (fun _ _ => hs) fun hst z hz r s' hhandled => ?_
    cases hhandled with
    | ipv4only hname => exact hs
    | cached hname now rrs hget haaaa => exact hs
    | resolved hname r s' up6 up4 es6 es4 hres =>
      have hmoves := hres.moves
      have hsound := hres.sound
      rw [hres.of_echoing (upstream_caseBlind up), hs.cfg_eq] at hmoves hsound
      rw [hs.static_eq] at hst
      rw [hs.cfg_eq] at hz
      rw [← fresh_of_zone hst hname hz] at hmoves hsound
      exact hs.moves hev hasks hsound hmoves
  · refine Prog.wp_mono (ends_relayed (upstream_caseBlind up) hq htype hplain) fun resp s' h => ?_
    obtain ⟨-, hcfg, hstatic, hcache⟩ := h
    refine ⟨hcfg.trans hs.cfg_eq, hstatic.trans hs.static_eq, ?_⟩
    rw [hcache]
    exact hs.entries

theorem cacheFresh_step {ev : ProxyEvent} (hs : CacheFresh uc lib cfg static up evs s)
    (hev : ev ∈ evs) (hasks : ev.AsksForAAAA)
    (h : proxyEventStep (echoing (upstream up)) uc lib s ev = some s') :
    CacheFresh uc lib cfg static up evs s' := by
  cases ev with
  | query req via chances =>
    obtain ⟨q, hq, htype⟩ := hasks
    obtain ⟨⟨resp, s₁⟩, hserve, rfl⟩ := Option.map_eq_some_iff.1 h
    have hs₀ : CacheFresh uc lib cfg static up evs { s with log := [] } :=
      ⟨hs.cfg_eq, hs.static_eq, hs.entries⟩
    exact Prog.wp_iff.1 (hs₀.ends hev hq htype) chances resp s₁ hserve
  | janitor now =>
    obtain rfl := Option.some.inj h
    exact ⟨hs.cfg_eq, hs.static_eq, fun k it hit => hs.entries k it (Cache.lookup_of_live hit)⟩
  | install cfg static => exact hasks.elim
  | flush defaultExp purgeInterval maxEntries => exact hasks.elim

/-- After queries of type AAAA and ANY, every entry of the cache is the fresh
answer of one of them. -/
theorem cacheFresh_run {settings : CacheSettings} (hevs : ∀ ev ∈ evs, ev.AsksForAAAA)
    (hrun : run (proxyEventStep (echoing (upstream up)) uc lib)
      { ProxyState.new cfg settings with static } evs = some s) :
    CacheFresh uc lib cfg static up evs s := by
  have hall : ∀ (evs' : List ProxyEvent) (s₀ : ProxyState), evs' ⊆ evs →
      CacheFresh uc lib cfg static up evs s₀ →
      run (proxyEventStep (echoing (upstream up)) uc lib) s₀ evs' = some s →
      CacheFresh uc lib cfg static up evs s := by
    intro evs'
    induction evs' with
    | nil =>
      intro s₀ _ hs₀ hrun
      obtain rfl := Option.some.inj hrun
      exact hs₀
    | cons ev evs' ih =>
      intro s₀ hsub hs₀ hrun
      obtain ⟨s₁, hstep, hrun⟩ := run_cons hrun
      have hev : ev ∈ evs := hsub List.mem_cons_self
      exact ih s₁ (fun e he => hsub (List.mem_cons_of_mem ev he))
        (cacheFresh_step hs₀ hev (hevs ev hev) hstep) hrun
  exact hall evs _ (fun _ h => h) ⟨rfl, rfl, fun k it hit => by cases hit⟩ hrun

/-! ## Transparency -/

/-- The proxy with nothing cached. -/
def ProxyState.emptied (s : ProxyState) : ProxyState :=
  { s with cache := .new s.cache.settings }

/-- The answer section is, up to the TTLs, the one of every run of the query
with nothing cached, and there is such a run. -/
def Transparent (net : Network) (uc : UnicodeCase) (lib : DnsLib) (s : ProxyState)
    (req : Msg) (via : Via) (resp : Msg) : Prop :=
  (∃ chances r, serve net uc lib s.emptied req via chances = some r) ∧
    ∀ chances resp' s', serve net uc lib s.emptied req via chances = some (resp', s') →
      resp.answer.map RR.untimed = resp'.answer.map RR.untimed

/-- The answer that the cache gives is the fresh one. -/
theorem CacheFresh.cached (hs : CacheFresh uc lib cfg static up evs s) (hasks : req.AsksAAAA q)
    (hflags : ∀ req₀ via₀ chances₀ q₀, .query req₀ via₀ chances₀ ∈ evs → req₀.AsksAAAA q₀ →
      q₀.name = q.name → req₀.clientFlags = req.clientFlags)
    (hspared : ∀ z pref aResp, zoneFor uc cfg q.name = some z → z.pref = some pref →
      up (serverFor cfg z) (req.asking (aQuestion q)).view = some aResp → Spared cfg pref aResp)
    {now : Int} {rrs : List RR}
    (hget : s.cache.get ⟨q.name, typeAAAA⟩ now = some rrs) :
    (servable cfg rrs).map RR.untimed =
        (freshAnswer uc lib cfg static (upstream up) req q).map RR.untimed ∧
      (fresh uc lib cfg static (upstream up) req q).panics = false := by
  obtain ⟨it, dec, hit, rfl⟩ := Cache.get_eq_some hget
  obtain ⟨req₀, q₀, via₀, chances₀, hev, hasks₀, hk, hstored, hpanics⟩ := hs.entries _ it hit
  have hname : q₀.name = q.name := (CacheKey.mk.inj hk).1.symm
  obtain ⟨hstored', hpanics'⟩ := fresh_stored hasks₀ hasks hname
    (hflags req₀ via₀ chances₀ q₀ hev hasks₀ hname) hstored
  have hfresh := freshAnswer_of_stored hstored'
  have hkept : ∀ rr ∈ it.value, excluded cfg.excludedAAAANets rr = false := by
    obtain ⟨hst, hname, z, hz⟩ := fresh_eq_resolution hstored'
    rw [fresh_of_zone hst hname hz] at hstored'
    exact fun rr hrr => Spared.of_stored hstored'
      (fun pref aResp hpref haResp => hspared z pref aResp hz hpref haResp) hrr
  rw [hfresh]
  refine ⟨?_, hpanics'.trans hpanics⟩
  have hall : servable cfg (it.value.map fun rr => rr.decrement dec) =
      it.value.map fun rr => rr.decrement dec := by
    apply List.filter_eq_self.2
    intro rr' hrr'
    obtain ⟨rr, hrr, rfl⟩ := List.mem_map.1 hrr'
    have hsame : excluded cfg.excludedAAAANets (rr.decrement dec) =
        excluded cfg.excludedAAAANets rr := rfl
    rw [hsame, hkept rr hrr]
    rfl
  rw [hall, List.map_map]
  rfl

/-- What a query may share with the earlier ones.  Those for its name sent the
flags and options that it sends, and no exclusion takes what is made of the A records
that the forwarder has for it. -/
structure Unmixed (uc : UnicodeCase) (cfg : ProxyConfig)
    (up : String → RequestView → Option Msg) (evs : List ProxyEvent)
    (req : Msg) (q : Question) : Prop where
  flags : ∀ req₀ via₀ chances₀ q₀, .query req₀ via₀ chances₀ ∈ evs → req₀.AsksAAAA q₀ →
    q₀.name = q.name → req₀.clientFlags = req.clientFlags
  spared : ∀ z pref aResp, zoneFor uc cfg q.name = some z → z.pref = some pref →
    up (serverFor cfg z) (req.asking (aQuestion q)).view = some aResp → Spared cfg pref aResp

theorem CacheFresh.ends_answer (hs : CacheFresh uc lib cfg static up evs s)
    (hasks : req.AsksAAAA q) (hunmixed : Unmixed uc cfg up evs req q) :
    Ends (echoing (upstream up))
      (fun resp _ => resp.answer.map RR.untimed =
          (freshAnswer uc lib cfg static (upstream up) req q).map RR.untimed ∧
        (fresh uc lib cfg static (upstream up) req q).panics = false)
      (handleVia uc lib req via) s := by
  refine ends_handleVia_aaaa (Q := fun answer _ => answer.map RR.untimed = _ ∧ _) hasks ?_ ?_ ?_
  · intro resp hst
    rw [hs.static_eq] at hst
    rw [freshAnswer, fresh, hst]
    exact ⟨rfl, rfl⟩
  · intro hst hz
    rw [hs.static_eq] at hst
    rw [hs.cfg_eq] at hz
    rw [freshAnswer, fresh, hst, hz]
    exact ⟨rfl, rfl⟩
  · intro hst z hz r s' hhandled
    rw [hs.static_eq] at hst
    rw [hs.cfg_eq] at hz
    cases hhandled with
    | ipv4only hname =>
      rw [freshAnswer, fresh, hst, hz]
      dsimp only
      rw [hname]
      exact ⟨rfl, rfl⟩
    | cached hname now rrs hget haaaa =>
      rw [hs.cfg_eq]
      exact hs.cached hasks hunmixed.flags hunmixed.spared hget
    | resolved hname r s' up6 up4 es6 es4 hres =>
      rw [freshAnswer, fresh_of_zone hst hname hz, ← hs.cfg_eq,
        ← hres.of_echoing (upstream_caseBlind up), ← hres.resp]
      exact ⟨rfl, hres.sound⟩

/-- After any queries of type AAAA and ANY, a further one is answered as if
nothing were cached, if it shares no entry with a query that sent other flags or
options, and no exclusion takes what is made of the A records. -/
theorem transparent {settings : CacheSettings} {resp : Msg} (hevs : ∀ ev ∈ evs, ev.AsksForAAAA)
    (hrun : run (proxyEventStep (echoing (upstream up)) uc lib)
      { ProxyState.new cfg settings with static } evs = some s)
    (hq : req.question.head? = some q) (htype : q.qtype = typeAAAA ∨ q.qtype = typeANY)
    (hserve : serve (echoing (upstream up)) uc lib s req via chances = some (resp, s'))
    (hunmixed : req.AsksAAAA q → Unmixed uc cfg up evs req q) :
    Transparent (echoing (upstream up)) uc lib s req via resp := by
  have hs := cacheFresh_run hevs hrun
  have hs₀ : CacheFresh uc lib cfg static up evs { s with log := [] } :=
    ⟨hs.cfg_eq, hs.static_eq, hs.entries⟩
  have hf := upstream_caseBlind up
  have huncached : ∀ chances' resp' s'',
      serve (echoing (upstream up)) uc lib s.emptied req via chances' = some (resp', s'') →
      resp'.answer = uncachedAnswer uc lib cfg static (upstream up) req q := by
    intro chances' resp' s'' hserve'
    rw [← hs.cfg_eq, ← hs.static_eq]
    exact Prog.wp_iff.1 (ends_uncached (s := { s.emptied with log := [] }) hf hq htype
      fun _ _ => rfl) chances' resp' s'' hserve'
  have hanswer : resp.answer.map RR.untimed =
        (uncachedAnswer uc lib cfg static (upstream up) req q).map RR.untimed ∧
      Returns (echoing (upstream up)) (handleVia uc lib req via)
        { s.emptied with log := [] } := by
    by_cases hplain : q.qclass = classINET ∧ req.validates = false
    · have hasks : req.AsksAAAA q := ⟨hq, hplain.1, htype, hplain.2⟩
      obtain ⟨hanswer, hpanics⟩ := Prog.wp_iff.1 (hs₀.ends_answer hasks (hunmixed hasks))
        chances resp s' hserve
      rw [uncachedAnswer, if_pos hplain]
      refine ⟨hanswer, returns_handleVia_aaaa hf hasks ?_⟩
      rw [← hs.cfg_eq, ← hs.static_eq] at hpanics
      exact hpanics
    · obtain ⟨hanswer, -⟩ := Prog.wp_iff.1
        (ends_relayed (s := { s with log := [] }) hf hq htype hplain) chances resp s' hserve
      obtain ⟨qs, hqs⟩ := List.head?_eq_some_iff.1 hq
      rw [uncachedAnswer, if_neg hplain, hanswer, ← hs.cfg_eq, ← hs.static_eq]
      refine ⟨rfl, returns_handleVia (echoing_replies _) hqs fun _ z _ => ?_⟩
      rw [dispatch_relayed htype hplain]
      exact (total_lookup (echoing_replies _) _ _ _ _).map
  refine ⟨hanswer.2, fun chances' resp' s'' hserve' => ?_⟩
  rw [hanswer.1, huncached chances' resp' s'' hserve']

end Runs

/-! ## Two clients -/

/-- A forwarder that answers by the options of the client: the A record is
`192.0.2.2` with an option and `192.0.2.1` without. -/
def subnetReply (v : RequestView) : Msg :=
  if v.question.map (fun q => q.2.1) = some typeAAAA then {}
  else { answer := [⟨"a.example.", classINET, 60,
    .a [192, 0, 2, if v.flags.options = [] then 1 else 2]⟩] }

def subnetUpstream (_ : String) (v : RequestView) : Option Msg := some (subnetReply v)

/-- The query with a client subnet. -/
def subnetQuery : Msg :=
  { sampleQuery with extra := [⟨".", 4096, 0, .opt [⟨8, [0, 1, 24, 0, 203, 0, 113]⟩]⟩] }

/-- The choices of a query that is resolved against `subnetUpstream`. -/
def subnetChances (req : Msg) : List Chance :=
  let aReq := req.asking ⟨"a.example.", typeA, classINET⟩
  idle 3 ++ lookupChances ((subnetReply req.view).replyTo req) ++ idle 1 ++
    lookupChances ((subnetReply aReq.view).replyTo aReq) ++ idle 2

/-- The client without an option is served the answer for the other's subnet. -/
theorem subnet_shared :
    ∃ s ∈ run (proxyEventStep (echoing (upstream subnetUpstream)) asciiCase anyName)
        (.new filteringConfig ⟨second, 0, none⟩)
        [.query subnetQuery .udp (subnetChances subnetQuery)],
      ∃ r ∈ serve (echoing (upstream subnetUpstream)) asciiCase anyName s sampleQuery .udp (idle 4),
        ¬ Transparent (echoing (upstream subnetUpstream)) asciiCase anyName s sampleQuery .udp
          r.1 := by
  have hruns :
      ∃ s ∈ run (proxyEventStep (echoing (upstream subnetUpstream)) asciiCase anyName)
          (.new filteringConfig ⟨second, 0, none⟩)
          [.query subnetQuery .udp (subnetChances subnetQuery)],
        ∃ r ∈ serve (echoing (upstream subnetUpstream)) asciiCase anyName s sampleQuery .udp
            (idle 4),
          ∃ r' ∈ serve (echoing (upstream subnetUpstream)) asciiCase anyName s.emptied sampleQuery
              .udp (subnetChances sampleQuery),
            r.1.answer.map RR.untimed ≠ r'.1.answer.map RR.untimed := by
    decide +kernel
  obtain ⟨s, hs, r, hr, ⟨resp', s'⟩, hr', hne⟩ := hruns
  exact ⟨s, hs, r, hr, fun h => hne (h.2 _ resp' s' hr')⟩

/-- Two clients without options share the entry. -/
theorem transparent_sampleQuery :
    ∃ s ∈ run (proxyEventStep (echoing (upstream subnetUpstream)) asciiCase anyName)
        (.new filteringConfig ⟨second, 0, none⟩)
        [.query sampleQuery .udp (subnetChances sampleQuery)],
      ∃ r ∈ serve (echoing (upstream subnetUpstream)) asciiCase anyName s sampleQuery .udp (idle 4),
        Transparent (echoing (upstream subnetUpstream)) asciiCase anyName s sampleQuery .udp
          r.1 := by
  have hruns :
      ∃ s ∈ run (proxyEventStep (echoing (upstream subnetUpstream)) asciiCase anyName)
          (.new filteringConfig ⟨second, 0, none⟩)
          [.query sampleQuery .udp (subnetChances sampleQuery)],
        (serve (echoing (upstream subnetUpstream)) asciiCase anyName s sampleQuery .udp
            (idle 4)).isSome := by
    decide +kernel
  obtain ⟨s, hs, hsome⟩ := hruns
  obtain ⟨⟨resp, s'⟩, hr⟩ := Option.isSome_iff_exists.1 hsome
  have hrun : run (proxyEventStep (echoing (upstream subnetUpstream)) asciiCase anyName)
      { ProxyState.new filteringConfig ⟨second, 0, none⟩ with static := ∅ }
      [.query sampleQuery .udp (subnetChances sampleQuery)] = some s := hs
  refine ⟨s, hs, (resp, s'), hr, ?_⟩
  refine transparent (q := ⟨"a.example.", typeAAAA, classINET⟩) ?_ hrun rfl (.inl rfl) hr
    fun _ => ⟨?_, ?_⟩
  · intro ev hev
    obtain rfl := List.mem_singleton.1 hev
    exact ⟨_, rfl, .inl rfl⟩
  · intro req₀ via₀ chances₀ q₀ hev _ _
    obtain ⟨rfl, -, -⟩ := ProxyEvent.query.inj (List.mem_singleton.1 hev)
    rfl
  · intro z pref aResp _ _ _
    refine ⟨fun rr _ => ?_, fun _ _ _ _ _ _ => rfl, fun _ => rfl⟩
    unfold excluded
    split <;> rfl

end Ydn64.Dns64
