import Ydn64.Nat64.Settings
import Ydn64.Lib.SyncMap

/-!
# The settings of the DNS64 service

`src/dns64`: the part of the resolver that the configuration determines.
`NewService` builds it and `Reload` replaces it, all but the listen address and
the query semaphore.  The zone table is resolved by `buildZones`, and the static
table is normalised once more by `parseStaticEntries`; two names that meet there
leave the one that the iteration visits last.
-/

namespace Ydn64.Dns64

open Ydn64.GoStd Ydn64.Config Ydn64.Lib
open Ydn64.Nat64 (seconds)

/-! ## Zones -/

/-- `InvalidAddress`. -/
inductive InvalidAddress where
  | ignore
  | process
  | discard
  deriving DecidableEq, Repr

/-- `parseIA`; `none` is its error. -/
def parseIA (uc : UnicodeCase) (s : String) : Option InvalidAddress :=
  let word := toLower uc s
  if word = "ignore" ∨ word = "" then some .ignore
  else if word = "process" then some .process
  else if word = "discard" then some .discard
  else none

/-- `zone`. -/
structure Zone where
  domains : List String
  forwarder : String
  pref : Option Pref64
  returnIPv4Addresses : Bool
  returnIPv6Addresses : Bool
  deriving DecidableEq

/-- How `buildZones` writes a domain: in lower case and, but for the catch-all,
without a leading dot. -/
def zoneDomain (uc : UnicodeCase) (d : String) : String :=
  if toLower uc d = "." then "." else trimPrefixDot (toLower uc d)

/-- `buildZones`. -/
def buildZones (uc : UnicodeCase) (zones : List ZoneConfig) : List Zone :=
  zones.map fun z =>
    { domains := z.domains.map (zoneDomain uc)
      forwarder := z.forwarder
      pref := if z.pref ≠ "" then (parsePref64Addr z.pref).toOption else none
      returnIPv4Addresses := z.returnIPv4Addresses
      returnIPv6Addresses := z.returnIPv6Addresses }

/-! ## The static table -/

/-- The entry that `parseStaticEntries` makes, if it makes one. -/
def staticEntry (uc : UnicodeCase) (e : String × String) : Option (String × IP) :=
  if staticKey uc e.1 = "" then none
  else (parseIP (trimSpace e.2)).map fun ip => (staticKey uc e.1, ip)

theorem staticEntry_eq_some_iff {uc : UnicodeCase} {e : String × String} {k : String} {ip : IP} :
    staticEntry uc e = some (k, ip) ↔
      staticKey uc e.1 = k ∧ k ≠ "" ∧ parseIP (trimSpace e.2) = some ip := by
  unfold staticEntry
  split_ifs with hkey
  · refine iff_of_false (by simp) ?_
    rintro ⟨rfl, hne, -⟩
    exact hne hkey
  · constructor
    · intro h
      obtain ⟨ip', hip, hpair⟩ := Option.map_eq_some_iff.1 h
      obtain ⟨rfl, rfl⟩ := Prod.mk.inj hpair
      exact ⟨rfl, hkey, hip⟩
    · rintro ⟨rfl, -, hip⟩
      rw [hip, Option.map_some]

/-- Write the entries into a map in turn. -/
def storeAll (m : SyncMap String IP) (entries : List (String × IP)) : SyncMap String IP :=
  entries.foldl (fun m e => m.insert e.1 e.2) m

/-- `parseStaticEntries`. -/
def parseStaticEntries (uc : UnicodeCase) (o : MapOrder) (static : List (String × String)) :
    SyncMap String IP :=
  storeAll ∅ ((o.order static).filterMap (staticEntry uc))

theorem storeAll_append (m : SyncMap String IP) (l l' : List (String × IP)) :
    storeAll m (l ++ l') = storeAll (storeAll m l) l' :=
  List.foldl_append

theorem lookup_storeAll_concat (m : SyncMap String IP) (l : List (String × IP))
    (e : String × IP) : (storeAll m (l ++ [e])).lookup e.1 = some e.2 := by
  rw [storeAll_append]
  exact Finmap.lookup_insert _

theorem mem_of_lookup_storeAll {l : List (String × IP)} {k : String} {ip : IP}
    (h : (storeAll ∅ l).lookup k = some ip) : (k, ip) ∈ l := by
  induction l using List.reverseRecOn with
  | nil => cases h
  | append_singleton l e ih =>
    rw [storeAll_append] at h
    have hins : (storeAll (storeAll ∅ l) [e]) = (storeAll ∅ l).insert e.1 e.2 := rfl
    rw [hins, SyncMap.lookup_insert_eq_ite] at h
    rw [List.mem_append, List.mem_singleton]
    split_ifs at h with hk
    · obtain rfl := Option.some.inj h
      exact .inr (by rw [hk])
    · exact .inl (ih h)

theorem lookup_storeAll_ne_none {l : List (String × IP)} {k : String} {ip : IP}
    (h : (k, ip) ∈ l) : (storeAll ∅ l).lookup k ≠ none := by
  induction l using List.reverseRecOn with
  | nil => cases h
  | append_singleton l e ih =>
    have hins : (storeAll ∅ (l ++ [e])) = (storeAll ∅ l).insert e.1 e.2 := by
      rw [storeAll_append]
      rfl
    rw [hins, SyncMap.lookup_insert_eq_ite]
    split_ifs with hk
    · exact Option.some_ne_none _
    · rw [List.mem_append, List.mem_singleton] at h
      rcases h with h | rfl
      · exact ih h
      · exact absurd rfl hk

/-- The entries that `parseStaticEntries` writes for a static table. -/
def staticEntries (uc : UnicodeCase) (static : List (String × String)) :
    List (String × IP) :=
  static.filterMap (staticEntry uc)

/-- Two static tables serve the same names, and no two of their entries give
one name two addresses. -/
structure StaticAgree (uc : UnicodeCase) (l l' : List (String × String)) : Prop where
  names : ∀ k, (∃ ip, (k, ip) ∈ staticEntries uc l) ↔ ∃ ip, (k, ip) ∈ staticEntries uc l'
  addrs : ∀ k ip ip', (k, ip) ∈ staticEntries uc l → (k, ip') ∈ staticEntries uc l' →
    ip = ip'

/-- The order that visits one entry last. -/
def lastly (e : String × String) : MapOrder where
  order := fun l => if e ∈ l then l.erase e ++ [e] else l
  perm := fun l => by
    split
    next h => exact (List.perm_append_singleton e _).trans (List.perm_cons_erase h).symm
    next => exact .refl l

theorem lookup_parseStaticEntries_lastly {uc : UnicodeCase} {e : String × String}
    {l : List (String × String)} {k : String} {ip : IP} (he : e ∈ l)
    (hentry : staticEntry uc e = some (k, ip)) :
    (parseStaticEntries uc (lastly e) l).lookup k = some ip := by
  have horder : (lastly e).order l = l.erase e ++ [e] := if_pos he
  have hsingle : [e].filterMap (staticEntry uc) = [(k, ip)] := by
    rw [List.filterMap_cons_some hentry, List.filterMap_nil]
  rw [parseStaticEntries, horder, List.filterMap_append, hsingle]
  exact lookup_storeAll_concat _ _ (k, ip)

theorem mem_filterMap_order {uc : UnicodeCase} (o : MapOrder)
    {l : List (String × String)} {p : String × IP} :
    p ∈ (o.order l).filterMap (staticEntry uc) ↔ p ∈ staticEntries uc l :=
  ((o.perm l).filterMap _).mem_iff

/-- The tables that two ranges build are equal whatever their orders exactly
when the static tables agree. -/
theorem parseStaticEntries_eq_iff {uc : UnicodeCase} {l l' : List (String × String)} :
    (∀ o o', parseStaticEntries uc o l = parseStaticEntries uc o' l') ↔
      StaticAgree uc l l' := by
  constructor
  · intro h
    -- A name without an entry on one side is not found on that side.
    have hnames : ∀ {a b : List (String × String)} {k : String} {ip : IP},
        parseStaticEntries uc default a = parseStaticEntries uc default b →
        (k, ip) ∈ staticEntries uc a → ∃ ip, (k, ip) ∈ staticEntries uc b := by
      intro a b k ip hab hmem
      have hfound := lookup_storeAll_ne_none ((mem_filterMap_order default).2 hmem)
      change (parseStaticEntries uc default a).lookup k ≠ none at hfound
      rw [hab] at hfound
      obtain ⟨ip', hip'⟩ := Option.ne_none_iff_exists'.1 hfound
      exact ⟨ip', (mem_filterMap_order default).1 (mem_of_lookup_storeAll hip')⟩
    refine ⟨fun k => ⟨?_, ?_⟩, ?_⟩
    · rintro ⟨ip, hmem⟩
      exact hnames (h default default) hmem
    · rintro ⟨ip, hmem⟩
      exact hnames (h default default).symm hmem
    · intro k ip ip' hmem hmem'
      obtain ⟨e, he, hentry⟩ := List.mem_filterMap.1 hmem
      obtain ⟨e', he', hentry'⟩ := List.mem_filterMap.1 hmem'
      have hl := lookup_parseStaticEntries_lastly he hentry
      rw [h (lastly e) (lastly e'), lookup_parseStaticEntries_lastly he' hentry'] at hl
      exact (Option.some.inj hl).symm
  · intro h o o'
    refine Finmap.ext_lookup fun k => ?_
    cases hl : (parseStaticEntries uc o l).lookup k with
    | none =>
      cases hl' : (parseStaticEntries uc o' l').lookup k with
      | none => rfl
      | some ip' =>
        have hmem' := (mem_filterMap_order o').1 (mem_of_lookup_storeAll hl')
        obtain ⟨ip, hmem⟩ := (h.names k).2 ⟨ip', hmem'⟩
        exact absurd hl (lookup_storeAll_ne_none ((mem_filterMap_order o).2 hmem))
    | some ip =>
      have hmem := (mem_filterMap_order o).1 (mem_of_lookup_storeAll hl)
      obtain ⟨ip', hmem'⟩ := (h.names k).1 ⟨ip, hmem⟩
      have hne : (parseStaticEntries uc o' l').lookup k ≠ none :=
        lookup_storeAll_ne_none ((mem_filterMap_order o').2 hmem')
      obtain ⟨ip2, hip2⟩ := Option.ne_none_iff_exists'.1 hne
      have hmem2 := (mem_filterMap_order o').1 (mem_of_lookup_storeAll hip2)
      rw [hip2, h.addrs k ip ip2 hmem hmem2]

theorem StaticAgree.perm {uc : UnicodeCase} {l₁ l₂ l₁' l₂' : List (String × String)}
    (h : StaticAgree uc l₁ l₁') (hp : l₁.Perm l₂) (hp' : l₁'.Perm l₂') :
    StaticAgree uc l₂ l₂' := by
  have hmem : ∀ p, p ∈ staticEntries uc l₂ ↔ p ∈ staticEntries uc l₁ :=
    fun p => (hp.filterMap _).mem_iff.symm
  have hmem' : ∀ p, p ∈ staticEntries uc l₂' ↔ p ∈ staticEntries uc l₁' :=
    fun p => (hp'.filterMap _).mem_iff.symm
  refine ⟨fun k => ?_, fun k ip ip' hi hi' => ?_⟩
  · simp only [hmem, hmem']
    exact h.names k
  · exact h.addrs k ip ip' ((hmem _).1 hi) ((hmem' _).1 hi')

/-! ## The proxy, the cache and the rate limiter -/

/-- `proxyConfig`. -/
structure ProxyConfig where
  zones : List Zone
  defaultForward : String
  ia : InvalidAddress
  ignoredDstNets : List IPNet
  excludedAAAANets : List IPNet
  deriving DecidableEq

/-- The settings of `dnsCache`.  `ticker` is the period of the janitor, if one
runs; a maximum of zero means none. -/
structure CacheSettings where
  defaultExp : Int
  maxEntries : Int
  ticker : Option Int
  deriving DecidableEq

/-- `newCache`. -/
def newCache (defaultExp purgeInterval maxEntries : Int) : CacheSettings where
  defaultExp := defaultExp
  maxEntries := if 0 < maxEntries then maxEntries else 0
  ticker := if 0 < purgeInterval then some purgeInterval else none

/-- `dnsCache.Reload`. -/
def CacheSettings.reload (c : CacheSettings) (defaultExp purgeInterval maxEntries : Int) :
    CacheSettings where
  defaultExp := defaultExp
  maxEntries := if 0 < maxEntries then maxEntries else c.maxEntries
  ticker := if c.ticker.isSome ∧ 0 < purgeInterval then some purgeInterval else c.ticker

theorem newCache_reload (exp purge maxEntries : Int) :
    (newCache exp purge maxEntries).reload exp purge maxEntries
      = newCache exp purge maxEntries := by
  simp only [newCache, CacheSettings.reload]
  congr 1
  · split_ifs <;> rfl
  · split_ifs <;> simp_all

/-- The settings of `srcRateLimiter`, as the integers that are converted to
`float64`. -/
structure RateSettings where
  rate : Int
  burst : Int
  deriving DecidableEq

def rateLimitMinBurst : Int := 10

/-- `srcRateLimiter.update`. -/
def RateSettings.update (l : RateSettings) (ratePerSec : Int) : RateSettings :=
  if ratePerSec ≤ 0 then { l with rate := 0 }
  else { rate := ratePerSec,
         burst := max (Int.bmod (2 * ratePerSec) (2 ^ 64)) rateLimitMinBurst }

/-- `newSrcRateLimiter`. -/
def newSrcRateLimiter (ratePerSec : Int) : RateSettings :=
  RateSettings.update ⟨0, 0⟩ ratePerSec

theorem newSrcRateLimiter_update (n : Int) :
    (newSrcRateLimiter n).update n = newSrcRateLimiter n := by
  simp only [newSrcRateLimiter, RateSettings.update]
  split_ifs <;> rfl

/-! ## The service -/

/-- The fields of `Service` that come from the configuration.  The capacity of
`querySem` is `none` where there is no semaphore. -/
structure Service where
  listenAddr : String
  querySem : Option Nat
  allowedNets : List IPNet
  cfg : ProxyConfig
  static : SyncMap String IP
  cache : CacheSettings
  rateLimit : RateSettings
  deriving DecidableEq

/-- The proxy configuration that `NewService` and `Reload` build. -/
def newProxyConfig (uc : UnicodeCase) (cfg : DNS64Config) (ia : InvalidAddress)
    (ignoredDstSubnets : List String) : ProxyConfig where
  zones := buildZones uc cfg.zones
  defaultForward := cfg.default
  ia := ia
  ignoredDstNets := parseIPNets ignoredDstSubnets
  excludedAAAANets := parseIPNets cfg.excludedAAAASubnets

/-- `NewService`; `none` is its error.  `o` is the order of the `range` over
the static table. -/
def newService (uc : UnicodeCase) (o : MapOrder) (cfg : DNS64Config)
    (allowedSources ignoredDstSubnets : List String) : Option Service :=
  (parseIA uc cfg.invalidAddress).map fun ia =>
    { listenAddr := cfg.listen
      querySem := if 0 < cfg.maxQueries then some cfg.maxQueries.toNat else none
      allowedNets := parseIPNets allowedSources
      cfg := newProxyConfig uc cfg ia ignoredDstSubnets
      static := parseStaticEntries uc o cfg.static
      cache := newCache (seconds cfg.cacheExp) (seconds cfg.cachePurge) cfg.maxCacheEntries
      rateLimit := newSrcRateLimiter cfg.rateLimit }

/-- `Service.Reload`; `none` is its error, which leaves the service alone. -/
def Service.reload (uc : UnicodeCase) (o : MapOrder) (s : Service) (cfg : DNS64Config)
    (allowedSources ignoredDstSubnets : List String) : Option Service :=
  (parseIA uc cfg.invalidAddress).map fun ia =>
    { s with
      allowedNets := parseIPNets allowedSources
      cfg := newProxyConfig uc cfg ia ignoredDstSubnets
      static := parseStaticEntries uc o cfg.static
      cache := s.cache.reload (seconds cfg.cacheExp) (seconds cfg.cachePurge)
        cfg.maxCacheEntries
      rateLimit := s.rateLimit.update cfg.rateLimit }

/-- A reload of a new service with keys that differ in the zones and the static
table, and in keys that it does not read, leaves the service as it was exactly
when the two resolve to the same tables. -/
theorem reload_newService_iff {uc : UnicodeCase} {o : MapOrder} {cfg : DNS64Config}
    {allowed ignored : List String} {s : Service}
    (hs : newService uc o cfg allowed ignored = some s) (o' : MapOrder) (listen : String)
    (zones : List ZoneConfig) (static : List (String × String)) :
    ∃ s', s.reload uc o' { cfg with listen := listen, zones := zones, static := static }
        allowed ignored = some s' ∧
      (s' = s ↔ buildZones uc zones = buildZones uc cfg.zones ∧
        parseStaticEntries uc o' static = parseStaticEntries uc o cfg.static) := by
  obtain ⟨ia, hia, rfl⟩ := Option.map_eq_some_iff.1 hs
  refine ⟨_, Option.map_eq_some_iff.2 ⟨ia, hia, rfl⟩, ?_⟩
  simp only [Service.mk.injEq, newProxyConfig, ProxyConfig.mk.injEq, newCache_reload,
    newSrcRateLimiter_update, true_and, and_true]

end Ydn64.Dns64
