import Ydn64.Cmd.Passes
import Ydn64.Lib.Run

/-!
# What a reload leaves of the promises of validation

Validation promises a running service floors for its timeouts and positive
limits.  A reload validates the new keys by the enable flags of the new file
and installs them in the services that run, so a file that turns a service off
carries its raw keys into a service that stays on.  `KeepsPromise` is the
condition on the raw keys under which the promises hold afterwards:

* a file that enables the service has to keep its timeouts below the wrap of
  `time.Duration`;
* a file that does not enable it has to spell out every value itself.

`promise_reloadConfig_iff` is the step, and `reloads_keep_promise_iff` the
statement for any sequence of reloads.
-/

namespace Ydn64.Cmd

open Ydn64.GoStd Ydn64.Config Ydn64.Lib
open Ydn64.Nat64 (second seconds)

variable {uc : UnicodeCase}

/-! ## The promises -/

/-- What validation promises of the settings of a running NAT64 service. -/
structure Nat64Promise (s : Nat64.Settings) : Prop where
  udpTimeout : 120 * second ≤ s.udpTimeout
  tcpTimeout : 7440 * second ≤ s.tcpTimeout
  maxUDPSessions : 0 < s.maxUDPSessions
  maxUDPSessionsPerSrc : 0 < s.maxUDPSessionsPerSrc
  maxTCPClientsPerSrc : 0 < s.maxTCPClientsPerSrc

instance (s : Nat64.Settings) : Decidable (Nat64Promise s) :=
  decidable_of_iff
    (120 * second ≤ s.udpTimeout ∧ 7440 * second ≤ s.tcpTimeout ∧ 0 < s.maxUDPSessions ∧
      0 < s.maxUDPSessionsPerSrc ∧ 0 < s.maxTCPClientsPerSrc)
    ⟨fun ⟨h1, h2, h3, h4, h5⟩ => ⟨h1, h2, h3, h4, h5⟩,
      fun ⟨h1, h2, h3, h4, h5⟩ => ⟨h1, h2, h3, h4, h5⟩⟩

/-- What validation promises of the settings of a running DNS64 service. -/
structure Dns64Promise (s : Dns64.Service) : Prop where
  rateLimit : 0 < s.rateLimit.rate
  cacheExpiration : 0 < s.cache.defaultExp

instance (s : Dns64.Service) : Decidable (Dns64Promise s) :=
  decidable_of_iff (0 < s.rateLimit.rate ∧ 0 < s.cache.defaultExp)
    ⟨fun ⟨h1, h2⟩ => ⟨h1, h2⟩, fun ⟨h1, h2⟩ => ⟨h1, h2⟩⟩

/-- The promises hold of every service that runs. -/
def Promise (s : Services) : Prop :=
  (∀ n ∈ s.nat64, Nat64Promise n.settings) ∧ ∀ d ∈ s.dns64, Dns64Promise d

instance (s : Services) : Decidable (Promise s) :=
  inferInstanceAs (Decidable (_ ∧ _))

/-! ## The condition on the file -/

/-- The condition on the raw NAT64 keys. -/
def KeepsNat64 (c : AppConfig) : Prop :=
  if c.nat64Enable then
    (0 < c.nat64UdpTimeout → 120 * second ≤ seconds c.nat64UdpTimeout) ∧
      (0 < c.nat64TcpTimeout → 7440 * second ≤ seconds c.nat64TcpTimeout)
  else
    120 * second ≤ seconds c.nat64UdpTimeout ∧ 7440 * second ≤ seconds c.nat64TcpTimeout ∧
      0 < c.nat64MaxUDPSessions ∧ 0 < c.nat64MaxUDPSessionsPerSrc ∧
      0 < c.nat64MaxTCPConnectionsSrc

/-- The condition on the raw DNS64 keys. -/
def KeepsDns64 (c : AppConfig) : Prop :=
  if c.dns64Enable then 0 < c.dns64CacheExpiration → 0 < seconds c.dns64CacheExpiration
  else 0 < c.dns64RateLimit ∧ 0 < seconds c.dns64CacheExpiration

/-- The condition on a file, for the services that run.  A file that cannot be
decoded is never applied. -/
def KeepsPromise (s : Services) : ConfFile → Prop
  | .decoded c => (s.nat64.isSome → KeepsNat64 c) ∧ (s.dns64.isSome → KeepsDns64 c)
  | _ => True

/-! ## One reload -/

theorem Passed.nat64_keys {c₀ c : AppConfig} {n : Nat} (h : Passed uc c₀ n c) :
    (c.nat64UdpTimeout, c.nat64TcpTimeout, c.nat64MaxUDPSessions,
      c.nat64MaxUDPSessionsPerSrc, c.nat64MaxTCPConnectionsSrc) =
    if c₀.nat64Enable then
      (positiveOr 300 c₀.nat64UdpTimeout, positiveOr defaultNat64TcpTimeout c₀.nat64TcpTimeout,
        positiveOr defaultNat64MaxUDPSessions c₀.nat64MaxUDPSessions,
        positiveOr defaultNat64MaxUDPSessionsPerSrc c₀.nat64MaxUDPSessionsPerSrc,
        positiveOr defaultNat64MaxTCPConnectionsPerSrc c₀.nat64MaxTCPConnectionsSrc)
    else
      (c₀.nat64UdpTimeout, c₀.nat64TcpTimeout, c₀.nat64MaxUDPSessions,
        c₀.nat64MaxUDPSessionsPerSrc, c₀.nat64MaxTCPConnectionsSrc) := by
  rw [h.keys, complete_eq]
  unfold completeFront
  split_ifs <;> rfl

theorem Passed.dns64_keys {c₀ c : AppConfig} {n : Nat} (h : Passed uc c₀ n c) :
    (c.dns64RateLimit, c.dns64CacheExpiration) =
    if c₀.dns64Enable then
      (positiveOr defaultDns64RateLimit c₀.dns64RateLimit,
        positiveOr 300 c₀.dns64CacheExpiration)
    else (c₀.dns64RateLimit, c₀.dns64CacheExpiration) := by
  rw [h.keys, complete_eq]
  unfold completeFront
  split_ifs <;> rfl

theorem le_seconds_positiveOr_iff {bound t : Int} (dflt : Int) (hd : bound ≤ seconds dflt) :
    bound ≤ seconds (positiveOr dflt t) ↔ (0 < t → bound ≤ seconds t) := by
  unfold positiveOr
  split_ifs with ht
  · exact iff_of_true hd fun h => by omega
  · exact ⟨fun h _ => h, fun h => h (by omega)⟩

theorem nat64Promise_iff {c₀ c : AppConfig} {n : Nat} (h : Passed uc c₀ n c)
    (allowed ignored : List String) :
    Nat64Promise (Nat64.newSettings uc c.nat64 allowed ignored) ↔ KeepsNat64 c₀ := by
  have hkeys := h.nat64_keys
  unfold KeepsNat64
  by_cases hn : c₀.nat64Enable = true
  · rw [if_pos hn] at hkeys ⊢
    simp only [Prod.mk.injEq] at hkeys
    obtain ⟨h1, h2, h3, h4, h5⟩ := hkeys
    rw [← le_seconds_positiveOr_iff 300 (by decide),
      ← le_seconds_positiveOr_iff defaultNat64TcpTimeout (by decide), ← h1, ← h2]
    refine ⟨fun hp => ⟨hp.udpTimeout, hp.tcpTimeout⟩, fun hk => ⟨hk.1, hk.2, ?_, ?_, ?_⟩⟩
    · exact (positiveOr_pos (by decide) _).trans_eq h3.symm
    · exact (positiveOr_pos (by decide) _).trans_eq h4.symm
    · exact (positiveOr_pos (by decide) _).trans_eq h5.symm
  · rw [if_neg hn] at hkeys ⊢
    simp only [Prod.mk.injEq] at hkeys
    obtain ⟨h1, h2, h3, h4, h5⟩ := hkeys
    rw [← h1, ← h2, ← h3, ← h4, ← h5]
    exact ⟨fun hp => ⟨hp.1, hp.2, hp.3, hp.4, hp.5⟩,
      fun ⟨k1, k2, k3, k4, k5⟩ => ⟨k1, k2, k3, k4, k5⟩⟩

theorem rate_update_pos_iff (l : Dns64.RateSettings) (n : Int) :
    0 < (l.update n).rate ↔ 0 < n := by
  unfold Dns64.RateSettings.update
  split_ifs with hn
  · exact iff_of_false (lt_irrefl 0) (by omega)
  · exact Iff.rfl

theorem dns64Promise_iff {o : MapOrder} {c₀ c : AppConfig} {n : Nat} (h : Passed uc c₀ n c)
    {s s' : Dns64.Service} {allowed ignored : List String}
    (hs : s.reload uc o c.dns64 allowed ignored = some s') :
    Dns64Promise s' ↔ KeepsDns64 c₀ := by
  obtain ⟨ia, -, rfl⟩ := Option.map_eq_some_iff.1 hs
  have hkeys := h.dns64_keys
  have hpromise : ∀ t : Dns64.Service, t.rateLimit = s.rateLimit.update c.dns64RateLimit →
      t.cache.defaultExp = seconds c.dns64CacheExpiration →
      (Dns64Promise t ↔ 0 < c.dns64RateLimit ∧ 1 ≤ seconds c.dns64CacheExpiration) := by
    intro t hr hc
    rw [← rate_update_pos_iff s.rateLimit, ← hr, ← hc]
    exact ⟨fun hp => ⟨hp.1, hp.2⟩, fun hp => ⟨hp.1, hp.2⟩⟩
  rw [hpromise _ rfl rfl]
  unfold KeepsDns64
  by_cases hd : c₀.dns64Enable = true
  · rw [if_pos hd] at hkeys ⊢
    simp only [Prod.mk.injEq] at hkeys
    rw [hkeys.1, hkeys.2, le_seconds_positiveOr_iff 300 (by decide)]
    exact and_iff_right (positiveOr_pos (by decide) _)
  · rw [if_neg hd] at hkeys ⊢
    simp only [Prod.mk.injEq] at hkeys
    rw [hkeys.1, hkeys.2]
    exact Iff.rfl

/-- A reload that is applied installs the keys that `reloadedConfig` computes. -/
theorem reloadConfig_applied {p : Process} {r : Reload}
    (h : (reloadConfig uc p r).2.applied = true) :
    ∃ c dns64, reloadedConfig uc p.env r = .ok c ∧
      reloadDns64 uc r.orders.serve c p.services.dns64 = some dns64 ∧
      (reloadConfig uc p r).1 = { p with services := {
          nat64 := p.services.nat64.map fun s =>
            s.reload uc c.nat64 c.allowedSources c.ignoredList
          dns64 } } := by
  unfold reloadConfig at h ⊢
  cases hc : reloadedConfig uc p.env r with
  | error e =>
    rw [hc] at h
    cases h
  | ok c =>
    rw [hc] at h
    dsimp only at h ⊢
    cases hd : reloadDns64 uc r.orders.serve c p.services.dns64 with
    | none =>
      rw [hd] at h
      cases h
    | some dns64 => exact ⟨c, dns64, rfl, hd, rfl⟩

/-- The promises hold after a reload that is applied exactly when its file
meets the condition. -/
theorem promise_reloadConfig_iff {p : Process} {r : Reload}
    (h : (reloadConfig uc p r).2.applied = true) :
    Promise (reloadConfig uc p r).1.services ↔ KeepsPromise p.services r.file := by
  obtain ⟨c, dns64, hc, hd, hp⟩ := reloadConfig_applied h
  obtain ⟨c₀, hfile, -, hpassed, -⟩ := reloadedConfig_passed hc
  rw [hp, hfile]
  refine and_congr ?_ ?_
  · cases p.services.nat64 with
    | none => exact iff_of_true (fun _ h => by cases h) fun h => by cases h
    | some s =>
      rw [← nat64Promise_iff hpassed c.allowedSources c.ignoredList]
      constructor
      · intro hn _
        exact hn _ rfl
      · rintro hn _ ⟨⟩
        exact hn rfl
  · cases hs : p.services.dns64 with
    | none =>
      rw [hs] at hd
      obtain rfl := Option.some.inj hd
      exact iff_of_true (fun _ h => by cases h) fun h => by cases h
    | some s =>
      rw [hs] at hd
      obtain ⟨s', hs', rfl⟩ := Option.map_eq_some_iff.1 hd
      rw [← dns64Promise_iff hpassed hs']
      constructor
      · intro hn _
        exact hn _ rfl
      · rintro hn _ ⟨⟩
        exact hn rfl

/-! ## Any sequence of reloads -/

/-- One SIGHUP as a step of the process. -/
def reloadStep (uc : UnicodeCase) (p : Process) (r : Reload) : Option Process :=
  some (reloadConfig uc p r).1

/-- A file that enables both services and leaves the rest to the defaults. -/
def bothEnabled : AppConfig where
  allowedSources := ["200::/7"]
  nat64Enable := true
  nat64Pool := "300:1:2:3::/96"
  dns64Enable := true
  dns64Default := "1.1.1.1:53"

/-- The same file with the two flags turned off. -/
def bothDisabled : AppConfig :=
  { bothEnabled with nat64Enable := false, dns64Enable := false }

/-- The Ed25519 public key of the seed of 32 zero bytes. -/
def samplePublicKey : Bytes :=
  [0x3b, 0x6a, 0x27, 0xbc, 0xce, 0xb6, 0xa4, 0x2d, 0x62, 0xa3, 0xa8, 0xd0, 0x2a, 0x6f, 0x0d, 0x73,
    0x65, 0x32, 0x15, 0x77, 0x1d, 0xe2, 0x43, 0xa6, 0x3a, 0xc0, 0x48, 0xa1, 0x8b, 0x59, 0xda, 0x29]

/-- The keys of one node.  A certificate is made for its pair alone, and its
public key has the address `202:24ae:c219:8a4a:de94:eae2:b97e:ac87` and the
subnet `302:24ae:c219:8a4a::/64`. -/
def sampleKeys : YggKeys where
  generateSelfSignedCertificate := fun privKey =>
    privKey == List.replicate 32 0 ++ samplePublicKey
  addrForKey := fun _ =>
    ⟨[0x02, 0x02, 0x24, 0xae, 0xc2, 0x19, 0x8a, 0x4a, 0xde, 0x94, 0xea, 0xe2, 0xb9, 0x7e, 0xac,
      0x87], rfl⟩
  subnetForKey := fun _ => ⟨[0x03, 0x02, 0x24, 0xae, 0xc2, 0x19, 0x8a, 0x4a], rfl⟩

end Ydn64.Cmd
