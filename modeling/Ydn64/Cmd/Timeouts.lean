import Ydn64.Cmd.ReloadPromise
import Ydn64.Nat64.Icmp

/-!
# The durations that the services compute

Validation checks the timeouts as numbers of seconds and puts no upper bound on
them; `NewService` and `Reload` of `src/nat64/service.go` and
`src/dns64/server.go` multiply them by `time.Second` in an `int64`.

* `seconds_eq_iff`: the product is exact up to `maxSeconds` and for no larger
  number.
* `cleanupInterval_pos`: a product that has wrapped is still a multiple of 512
  nanoseconds, so half of a positive one is positive, and `cleanupSessions` makes
  its ticker.
* `timeouts_exact_iff`: the three durations are those of the validated keys
  exactly if the raw keys are at most `maxSeconds`.
-/

namespace Ydn64.Cmd

open Ydn64.GoStd Ydn64.Config Ydn64.Lib
open Ydn64.Nat64 (second seconds icmpSessionTimeout)

variable {uc : UnicodeCase}

/-! ## Seconds in an `int64` -/

/-- The most seconds whose nanoseconds fit. -/
def maxSeconds : Int := (2 ^ 63 - 1) / second

theorem seconds_eq_iff {n : Int} (hn : 0 ≤ n) :
    seconds n = n * second ↔ n ≤ maxSeconds := by
  unfold seconds maxSeconds second
  rw [Int.bmod_def]
  split_ifs <;> omega

theorem seconds_dvd (n : Int) : 512 ∣ seconds n := by
  unfold seconds second
  rw [Int.bmod_def]
  split_ifs <;> omega

/-! ## The ticker of the cleanup -/

/-- The interval is lowered to half of a timeout, if that is set and shorter. -/
def halfTimeout (interval t : Int) : Int :=
  if 0 < t ∧ t.tdiv 2 < interval then t.tdiv 2 else interval

/-- The interval that `cleanupSessions` passes to `time.NewTicker`. -/
def cleanupInterval (s : Nat64.Settings) : Int :=
  let interval := icmpSessionTimeout.tdiv 2
  let interval := halfTimeout interval s.udpTimeout
  halfTimeout interval s.tcpTimeout

theorem halfTimeout_pos {interval : Int} (h : 0 < interval) (n : Int) :
    0 < halfTimeout interval (seconds n) := by
  have hdvd := seconds_dvd n
  unfold halfTimeout
  split_ifs with ht
  · rw [Int.tdiv_eq_ediv_of_nonneg (by omega)]
    omega
  · exact h

theorem cleanupInterval_pos (uc : UnicodeCase) (cfg : NAT64Config) (allowed ignored : List String) :
    0 < cleanupInterval (Nat64.newSettings uc cfg allowed ignored) :=
  halfTimeout_pos (halfTimeout_pos (by decide) cfg.udpTimeout) cfg.tcpTimeout

/-! ## The services of a configuration -/

/-- The services that a start or a reload leaves with the keys `c`. -/
inductive ComputedFrom (uc : UnicodeCase) (c : AppConfig) :
    Nat64.Service → Dns64.Service → Prop
  | started {o : MapOrder} {n : Nat64.Service} {d : Dns64.Service}
      (hn : Nat64.newService uc c.nat64 c.allowedSources c.ignoredList = .ok n)
      (hd : Dns64.newService uc o c.dns64 c.allowedSources c.ignoredList = some d) :
      ComputedFrom uc c n d
  | reloaded {o : MapOrder} (n₀ : Nat64.Service) {d₀ d : Dns64.Service}
      (hd : d₀.reload uc o c.dns64 c.allowedSources c.ignoredList = some d) :
      ComputedFrom uc c (n₀.reload uc c.nat64 c.allowedSources c.ignoredList) d

theorem ComputedFrom.settings {c : AppConfig} {n : Nat64.Service} {d : Dns64.Service}
    (h : ComputedFrom uc c n d) :
    n.settings = Nat64.newSettings uc c.nat64 c.allowedSources c.ignoredList ∧
      d.cache.defaultExp = seconds c.dns64CacheExpiration := by
  cases h with
  | started hn hd =>
    unfold Nat64.newService at hn
    obtain ⟨ia, -, rfl⟩ := Option.map_eq_some_iff.1 hd
    cases hp : parsePref64 c.nat64.pool6 with
    | error e =>
      rw [hp] at hn
      cases hn
    | ok pref64 =>
      rw [hp] at hn
      cases hn
      exact ⟨rfl, rfl⟩
  | reloaded n₀ hd =>
    obtain ⟨ia, -, rfl⟩ := Option.map_eq_some_iff.1 hd
    exact ⟨rfl, rfl⟩

theorem exists_parseIA {s : String} (h : toLower uc (invalidAddressOr s) ∈ invalidAddressWords) :
    ∃ ia, Dns64.parseIA uc (invalidAddressOr s) = some ia := by
  unfold Dns64.parseIA
  simp only [invalidAddressWords, List.mem_cons, List.not_mem_nil, or_false] at h
  rcases h with h | h | h <;> rw [h] <;> exact ⟨_, rfl⟩

theorem complete_pool_policy (uc : UnicodeCase) (o : MapOrder) {c : AppConfig}
    (hd : c.dns64Enable = true) :
    (complete uc o c).nat64Pool = c.nat64Pool ∧
      (complete uc o c).dns64InvalidAddress = invalidAddressOr c.dns64InvalidAddress := by
  rw [complete_eq, if_pos hd]
  unfold completeFront
  split_ifs <;> exact ⟨rfl, rfl⟩

theorem exists_computedFrom {o : MapOrder} {c₀ c : AppConfig} (hv : validate uc o c₀ = .ok c)
    (hn : c₀.nat64Enable = true) (hd : c₀.dns64Enable = true) :
    ∃ n d, ComputedFrom uc c n d := by
  obtain ⟨hvalid, rfl⟩ := validate_eq_ok_iff.1 hv
  obtain ⟨hpool, hpolicy⟩ := complete_pool_policy uc o hd
  obtain ⟨pref64, hpref⟩ := (hvalid.nat64 hn).pool.2
  obtain ⟨ia, hia⟩ := exists_parseIA (hvalid.dns64 hd).policy
  rw [← hpool] at hpref
  rw [← hpolicy] at hia
  refine ⟨_, _, .started (o := o) (congrArg (Except.map _) hpref) (congrArg (Option.map _) hia)⟩

/-! ## Exact durations -/

/-- The durations of the services are those of the keys, and meet the floors of
validation. -/
structure ExactTimeouts (c : AppConfig) (n : Nat64.Service) (d : Dns64.Service) : Prop where
  udp : n.settings.udpTimeout = c.nat64UdpTimeout * second
  udpFloor : 120 * second ≤ n.settings.udpTimeout
  tcp : n.settings.tcpTimeout = c.nat64TcpTimeout * second
  tcpFloor : 7440 * second ≤ n.settings.tcpTimeout
  cache : d.cache.defaultExp = c.dns64CacheExpiration * second
  cachePos : 0 < d.cache.defaultExp

/-- The raw keys fit. -/
structure TimeoutsFit (c₀ : AppConfig) : Prop where
  udp : c₀.nat64UdpTimeout ≤ maxSeconds
  tcp : c₀.nat64TcpTimeout ≤ maxSeconds
  cache : c₀.dns64CacheExpiration ≤ maxSeconds

/-- A key with a default that fits.  A duration that is exact meets the floor that
the key meets. -/
theorem exact_positiveOr_iff {dflt t floor : Int} (hfit : dflt ≤ maxSeconds) (hfloor : 0 < floor)
    (hkey : floor ≤ positiveOr dflt t) :
    (seconds (positiveOr dflt t) = positiveOr dflt t * second ∧
      floor * second ≤ seconds (positiveOr dflt t)) ↔ t ≤ maxSeconds := by
  have hexact : seconds (positiveOr dflt t) = positiveOr dflt t * second ↔ t ≤ maxSeconds := by
    rw [seconds_eq_iff (by omega)]
    unfold positiveOr at hkey ⊢
    split_ifs at hkey ⊢ <;> omega
  refine ⟨fun h => hexact.mp h.1, fun ht => ⟨hexact.mpr ht, ?_⟩⟩
  rw [hexact.mpr ht]
  unfold second
  omega

theorem validated_timeouts {o : MapOrder} {c₀ c : AppConfig} (hv : validate uc o c₀ = .ok c)
    (hn : c₀.nat64Enable = true) (hd : c₀.dns64Enable = true) :
    (c.nat64UdpTimeout = positiveOr 300 c₀.nat64UdpTimeout ∧
      c.nat64TcpTimeout = positiveOr defaultNat64TcpTimeout c₀.nat64TcpTimeout ∧
      c.dns64CacheExpiration = positiveOr 300 c₀.dns64CacheExpiration) ∧
    120 ≤ positiveOr 300 c₀.nat64UdpTimeout ∧
    7440 ≤ positiveOr defaultNat64TcpTimeout c₀.nat64TcpTimeout ∧
    1 ≤ positiveOr 300 c₀.dns64CacheExpiration := by
  have hpassed := passed_one hv
  have hnat64 := hpassed.nat64_keys
  have hdns64 := hpassed.dns64_keys
  rw [if_pos hn, Prod.mk.injEq, Prod.mk.injEq] at hnat64
  rw [if_pos hd, Prod.mk.injEq] at hdns64
  have hok := ((validate_eq_ok_iff.1 hv).1.nat64 hn).completeNat64
  refine ⟨⟨hnat64.1, hnat64.2.1, hdns64.2⟩, ?_, ?_, ?_⟩
  · exact hok.udpTimeout (positiveOr_pos (by decide) _)
  · exact hok.tcpTimeout (positiveOr_pos (by decide) _)
  · exact positiveOr_pos (by decide) _

/-- The durations of one start or reload. -/
theorem exactTimeouts_iff {o : MapOrder} {c₀ c : AppConfig} (hv : validate uc o c₀ = .ok c)
    (hn : c₀.nat64Enable = true) (hd : c₀.dns64Enable = true) {n : Nat64.Service}
    {d : Dns64.Service} (h : ComputedFrom uc c n d) :
    ExactTimeouts c n d ↔ TimeoutsFit c₀ := by
  obtain ⟨⟨hudp, htcp, hcache⟩, hudpFloor, htcpFloor, hcacheFloor⟩ := validated_timeouts hv hn hd
  obtain ⟨hsettings, hexp⟩ := h.settings
  have hu : n.settings.udpTimeout = seconds c.nat64UdpTimeout := by
    rw [hsettings]
    rfl
  have ht : n.settings.tcpTimeout = seconds c.nat64TcpTimeout := by
    rw [hsettings]
    rfl
  have hudpIff := exact_positiveOr_iff (by decide) (by decide) hudpFloor
  have htcpIff := exact_positiveOr_iff (by decide) (by decide) htcpFloor
  have hcacheIff := exact_positiveOr_iff (by decide) (by decide) hcacheFloor
  rw [← hudp, ← hu] at hudpIff
  rw [← htcp, ← ht] at htcpIff
  rw [← hcache, ← hexp] at hcacheIff
  constructor
  · intro hx
    refine ⟨hudpIff.mp ⟨hx.udp, hx.udpFloor⟩, htcpIff.mp ⟨hx.tcp, hx.tcpFloor⟩, ?_⟩
    refine hcacheIff.mp ⟨hx.cache, ?_⟩
    have hpos := hx.cachePos
    have hexact := hx.cache
    unfold second at hexact ⊢
    omega
  · intro hfit
    obtain ⟨hxudp, hxudpFloor⟩ := hudpIff.mpr hfit.udp
    obtain ⟨hxtcp, hxtcpFloor⟩ := htcpIff.mpr hfit.tcp
    obtain ⟨hxcache, hxcacheFloor⟩ := hcacheIff.mpr hfit.cache
    refine ⟨hxudp, hxudpFloor, hxtcp, hxtcpFloor, hxcache, ?_⟩
    unfold second at hxcacheFloor
    omega

/-- For every file with both services enabled that validation accepts, with the
keys `c`: both services are made, the interval of the cleanup is positive, and the
three durations of whatever a start or a reload computes are exact, and meet the
floors, exactly if the raw keys fit. -/
theorem timeouts_exact_iff {o : MapOrder} {c₀ c : AppConfig} (hv : validate uc o c₀ = .ok c)
    (hn : c₀.nat64Enable = true) (hd : c₀.dns64Enable = true) :
    (∃ n d, ComputedFrom uc c n d) ∧
    (∀ n d, ComputedFrom uc c n d → 0 < cleanupInterval n.settings) ∧
    ((∀ n d, ComputedFrom uc c n d → ExactTimeouts c n d) ↔ TimeoutsFit c₀) := by
  have hexists := exists_computedFrom hv hn hd
  refine ⟨hexists, fun n d h => ?_, fun hexact => ?_, fun hfit n d h => ?_⟩
  · rw [h.settings.1]
    exact cleanupInterval_pos uc _ _ _
  · obtain ⟨n, d, h⟩ := hexists
    exact (exactTimeouts_iff hv hn hd h).mp (hexact n d h)
  · exact (exactTimeouts_iff hv hn hd h).mpr hfit

/-- The defaults are exact. -/
theorem timeouts_exact_defaults :
    ∃ c ∈ (validate asciiCase default bothEnabled).toOption,
      ∀ n d, ComputedFrom asciiCase c n d → ExactTimeouts c n d := by
  have hv : ∃ c ∈ (validate asciiCase default bothEnabled).toOption, True := by decide +kernel
  obtain ⟨c, hc, -⟩ := hv
  refine ⟨c, hc, (timeouts_exact_iff (toOption_eq_some hc) rfl rfl).2.2.mpr ?_⟩
  exact ⟨by decide, by decide, by decide⟩

/-- A file whose UDP timeout is the first one that does not fit. -/
def longTimeout : AppConfig := { bothEnabled with nat64UdpTimeout := 9223372037 }

/-- Validation accepts the file, and the timeout of the service is negative. -/
theorem longTimeout_wraps :
    ∃ c ∈ (validate asciiCase default longTimeout).toOption,
      ∃ n ∈ (Nat64.newService asciiCase c.nat64 c.allowedSources c.ignoredList).toOption,
      ∃ d ∈ Dns64.newService asciiCase default c.dns64 c.allowedSources c.ignoredList,
        n.settings.udpTimeout = -9223372036709551616 ∧ ComputedFrom asciiCase c n d ∧
          ¬ ExactTimeouts c n d := by
  have hruns : ∃ c ∈ (validate asciiCase default longTimeout).toOption,
      ∃ n ∈ (Nat64.newService asciiCase c.nat64 c.allowedSources c.ignoredList).toOption,
      ∃ d ∈ Dns64.newService asciiCase default c.dns64 c.allowedSources c.ignoredList,
        n.settings.udpTimeout = -9223372036709551616 := by
    decide +kernel
  obtain ⟨c, hc, n, hn, d, hd, hval⟩ := hruns
  refine ⟨c, hc, n, hn, d, hd, hval, .started (toOption_eq_some hn) hd, fun hx => ?_⟩
  have hfloor := hx.udpFloor
  rw [hval] at hfloor
  exact absurd hfloor (by decide)

end Ydn64.Cmd
