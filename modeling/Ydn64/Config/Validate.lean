import Ydn64.Config.AppConfig

/-!
# Validation of the configuration

`AppConfig.Validate` of `src/config/config.go` and `config.Load`.  `validate`
checks the shared lists, and for each enabled service it checks the keys of
that service, puts a default where a key is unset and enforces the floors.  Two
things about it matter to its callers.

* The keys of a service that is not enabled are neither checked nor given a
  default.
* The name of a static entry is normalised by each pass, and one pass can leave
  a name that the next one changes again.

`validate_eq_ok_iff` says what a pass accepts and what it returns: a predicate
`Valid` on the keys, and the completed keys `complete`.  `complete_of_completed`
says that a second pass changes the static table and nothing else.
-/

namespace Ydn64.Config

open Ydn64.GoStd

/-! ## Errors -/

/-- The key that `validateForwarder` names in its error. -/
inductive ForwarderKey where
  /-- `Dns64Default` -/
  | default
  /-- `Dns64Zones[i].forwarder` -/
  | zone (i : Nat)
  deriving DecidableEq, Repr

/-- The errors of `Validate`, each with the key and the value it names. -/
inductive ConfigError where
  | allowedSources (entry : String)
  | ignoredDstSubnets (entry : String)
  | aaaaExcludedInvalid (entry : String)
  | aaaaExcludedIPv4 (entry : String)
  | nat64PoolRequired
  | nat64Pool (pool : String) (e : Pref64Error)
  | nat64UdpTimeout
  | nat64TcpTimeout
  | nat64UdpFiltering (got : String)
  | nat64PortParity (got : String)
  | dns64DefaultRequired
  | dns64InvalidAddress (got : String)
  | forwarderForm (key : ForwarderKey) (addr : String)
  | forwarderEmptyHost (key : ForwarderKey) (addr : String)
  | forwarderPort (key : ForwarderKey) (addr port : String)
  | zoneExclusive (i : Nat)
  | zoneDomains (i : Nat)
  | zonePrefix (i : Nat) (pref : String) (e : Pref64Error)
  | staticEmptyName
  | staticAddress (name addr : String)
  | staticDuplicate (key : String)
  deriving DecidableEq, Repr

/-! ## The checks -/

/-- An entry of a subnet list is a CIDR prefix or a bare address. -/
def netEntryOk (entry : String) : Bool :=
  (parseCIDR entry).isSome || (parseIP entry).isSome

/-- The loop over a subnet list: the first bad entry is the error. -/
def checkNets (err : String → ConfigError) (entries : List String) :
    Except ConfigError Unit :=
  match entries.find? (fun e => !netEntryOk e) with
  | some e => .error (err e)
  | none => .ok ()

/-- The loop over `Dns64AAAAExcludedSubnets`: as `checkNets`, and an IPv4
network is refused as well.  A bare address is not looked at further. -/
def checkExcluded : List String → Except ConfigError Unit
  | [] => .ok ()
  | sub :: rest =>
    match parseCIDR sub with
    | none =>
      if (parseIP sub).isSome then checkExcluded rest
      else .error (.aaaaExcludedInvalid sub)
    | some (_, cidr) =>
      if to4 cidr.ip ≠ none then .error (.aaaaExcludedIPv4 sub)
      else checkExcluded rest

/-- A timeout key: a default where it is unset, and a floor. -/
def timeoutOr (dflt floor : Int) (err : ConfigError) (t : Int) :
    Except ConfigError Int :=
  if t ≤ 0 then .ok dflt else if t < floor then .error err else .ok t

/-- A limit key: a default where it is unset or not positive. -/
def positiveOr (dflt n : Int) : Int := if n ≤ 0 then dflt else n

/-- A keyword key: a default where it is unset, else one of the words in lower
case. -/
def keywordOr (uc : UnicodeCase) (dflt : String) (words : List String)
    (err : String → ConfigError) (s : String) : Except ConfigError String :=
  if s = "" then .ok dflt
  else if toLower uc s ∈ words then .ok (toLower uc s)
  else .error (err (toLower uc s))

/-- `validateForwarder`. -/
def validateForwarder (key : ForwarderKey) (addr : String) : Except ConfigError Unit :=
  match splitHostPort addr with
  | none => .error (.forwarderForm key addr)
  | some (host, port) =>
    if host = "" then .error (.forwarderEmptyHost key addr)
    else match atoi port with
      | some n =>
        if n < 1 ∨ 65535 < n then .error (.forwarderPort key addr port) else .ok ()
      | none => .error (.forwarderPort key addr port)

/-- The body of the loop over `Dns64Zones`. -/
def validateZone (i : Nat) (z : ZoneConfig) : Except ConfigError Unit :=
  if z.pref ≠ "" ∧ z.returnIPv6Addresses then .error (.zoneExclusive i)
  else if z.domains = [] then .error (.zoneDomains i)
  else
    match if z.pref ≠ "" then (parsePref64Addr z.pref).map some else .ok none with
    | .error e => .error (.zonePrefix i z.pref e)
    | .ok _ =>
      if z.forwarder ≠ "" then validateForwarder (.zone i) z.forwarder else .ok ()

/-- The loop over `Dns64Zones`. -/
def validateZones : Nat → List ZoneConfig → Except ConfigError Unit
  | _, [] => .ok ()
  | i, z :: rest => (validateZone i z).bind fun _ => validateZones (i + 1) rest

/-- How a static name is normalised, here and in the resolver's `staticKey`. -/
def staticKey (uc : UnicodeCase) (name : String) : String :=
  toLower uc (trimSuffixDot (trimSpace name))

/-- The loop over `Dns64Static`.  `norm` is the map it builds. -/
def normaliseStatic (uc : UnicodeCase) :
    List (String × String) → List (String × String) →
    Except ConfigError (List (String × String))
  | [], norm => .ok norm
  | (name, addr) :: rest, norm =>
    if staticKey uc name = "" then .error .staticEmptyName
    else match parseIP (trimSpace addr) with
      | none => .error (.staticAddress name addr)
      | some ip =>
        if staticKey uc name ∈ norm.map Prod.fst then
          .error (.staticDuplicate (staticKey uc name))
        else normaliseStatic uc rest (norm ++ [(staticKey uc name, ipString ip)])

/-! ## Validation -/

/-- The ignored subnets: the default list where the key is `nil`. -/
def AppConfig.ignoredOr (c : AppConfig) : List String :=
  c.ignoredDstSubnets.getD defaultIgnoredDstSubnets

/-- The part of `Validate` for the shared lists. -/
def validateShared (c : AppConfig) : Except ConfigError AppConfig := do
  checkNets .allowedSources c.allowedSources
  checkNets .ignoredDstSubnets c.ignoredOr
  checkExcluded c.dns64AAAAExcludedSubnets
  pure { c with ignoredDstSubnets := some c.ignoredOr }

/-- The `Nat64Enable` branch of `Validate`. -/
def validateNat64 (uc : UnicodeCase) (c : AppConfig) : Except ConfigError AppConfig :=
  if c.nat64Pool = "" then .error .nat64PoolRequired
  else match parsePref64 c.nat64Pool with
    | .error e => .error (.nat64Pool c.nat64Pool e)
    | .ok _ => do
      let udp ← timeoutOr 300 120 .nat64UdpTimeout c.nat64UdpTimeout
      let tcp ← timeoutOr defaultNat64TcpTimeout defaultNat64TcpTimeout
        .nat64TcpTimeout c.nat64TcpTimeout
      let filtering ← keywordOr uc "address-dependent"
        ["address-dependent", "address-and-port-dependent", "endpoint-independent"]
        .nat64UdpFiltering c.nat64UdpFiltering
      let parity ← keywordOr uc "preserve" ["preserve", "do-not-preserve"]
        .nat64PortParity c.nat64PortParity
      pure { c with
        nat64UdpTimeout := udp
        nat64TcpTimeout := tcp
        nat64UdpFiltering := filtering
        nat64PortParity := parity
        nat64MaxTCPConnections :=
          positiveOr defaultNat64MaxTCPConnections c.nat64MaxTCPConnections
        nat64MaxUDPSessions :=
          positiveOr defaultNat64MaxUDPSessions c.nat64MaxUDPSessions
        nat64MaxUDPSessionsPerSrc :=
          positiveOr defaultNat64MaxUDPSessionsPerSrc c.nat64MaxUDPSessionsPerSrc
        nat64MaxTCPConnectionsSrc :=
          positiveOr defaultNat64MaxTCPConnectionsPerSrc c.nat64MaxTCPConnectionsSrc }

/-- The words of `Dns64InvalidAddress`. -/
def invalidAddressWords : List String := ["ignore", "process", "discard"]

/-- The policy key: `ignore` where it is unset. -/
def invalidAddressOr (s : String) : String := if s = "" then "ignore" else s

/-- The `Dns64Enable` branch of `Validate`. -/
def validateDns64 (uc : UnicodeCase) (o : MapOrder) (c : AppConfig) :
    Except ConfigError AppConfig :=
  if c.dns64Default = "" then .error .dns64DefaultRequired
  else
    if toLower uc (invalidAddressOr c.dns64InvalidAddress) ∉ invalidAddressWords then
      .error (.dns64InvalidAddress (invalidAddressOr c.dns64InvalidAddress))
    else do
      validateForwarder .default c.dns64Default
      validateZones 0 c.dns64Zones
      let static ← normaliseStatic uc (o.order c.dns64Static) []
      pure { c with
        dns64InvalidAddress := invalidAddressOr c.dns64InvalidAddress
        dns64Static := static
        dns64CacheExpiration := positiveOr 300 c.dns64CacheExpiration
        dns64CachePurge := positiveOr 600 c.dns64CachePurge
        dns64MaxCacheEntries :=
          positiveOr defaultDns64MaxCacheEntries c.dns64MaxCacheEntries
        dns64MaxConcurrentQueries :=
          positiveOr defaultDns64MaxQueries c.dns64MaxConcurrentQueries
        dns64RateLimit := positiveOr defaultDns64RateLimit c.dns64RateLimit }

/-- A branch that is taken when its service is enabled. -/
def whenEnabled (enable : Bool) (f : AppConfig → Except ConfigError AppConfig)
    (c : AppConfig) : Except ConfigError AppConfig :=
  if enable then f c else .ok c

/-- `AppConfig.Validate`.  `o` is the order of the `range` over the static
table. -/
def validate (uc : UnicodeCase) (o : MapOrder) (c : AppConfig) :
    Except ConfigError AppConfig := do
  let c ← validateShared c
  let c ← whenEnabled c.nat64Enable (validateNat64 uc) c
  whenEnabled c.dns64Enable (validateDns64 uc o) c

/-! ## Loading -/

/-- What `Load` finds at the path: no readable file, a file that one of the
two decoders refuses, or the keys as decoded. -/
inductive ConfFile where
  | unreadable
  | badYggdrasil
  | badYdn64
  | decoded (c : AppConfig)

/-- The errors of `Load`. -/
inductive LoadError where
  | reading
  | parsingYggdrasil
  | parsingYdn64
  | invalid (e : ConfigError)

/-- `config.Load`, the part for the application. -/
def load (uc : UnicodeCase) (o : MapOrder) : ConfFile → Except LoadError AppConfig
  | .unreadable => .error .reading
  | .badYggdrasil => .error .parsingYggdrasil
  | .badYdn64 => .error .parsingYdn64
  | .decoded c => (validate uc o c).mapError .invalid


/-! ## What a pass accepts -/

/-- The checks of the shared lists. -/
structure SharedOk (c : AppConfig) : Prop where
  allowed : ∀ e ∈ c.allowedSources, netEntryOk e = true
  ignored : ∀ e ∈ c.ignoredOr, netEntryOk e = true
  excluded : checkExcluded c.dns64AAAAExcludedSubnets = .ok ()

/-- A keyword key is unset or one of the words. -/
def KeywordOk (uc : UnicodeCase) (words : List String) (s : String) : Prop :=
  s = "" ∨ toLower uc s ∈ words

/-- The words of `Nat64UdpFiltering`. -/
def filteringWords : List String :=
  ["address-dependent", "address-and-port-dependent", "endpoint-independent"]

/-- The words of `Nat64PortParity`. -/
def parityWords : List String := ["preserve", "do-not-preserve"]

/-- The checks of the NAT64 keys. -/
structure Nat64Ok (uc : UnicodeCase) (c : AppConfig) : Prop where
  pool : c.nat64Pool ≠ "" ∧ ∃ p, parsePref64 c.nat64Pool = .ok p
  udpTimeout : 0 < c.nat64UdpTimeout → 120 ≤ c.nat64UdpTimeout
  tcpTimeout : 0 < c.nat64TcpTimeout → defaultNat64TcpTimeout ≤ c.nat64TcpTimeout
  filtering : KeywordOk uc filteringWords c.nat64UdpFiltering
  parity : KeywordOk uc parityWords c.nat64PortParity

/-- The checks of the static table. -/
structure StaticOk (uc : UnicodeCase) (static : List (String × String)) : Prop where
  entries : ∀ e ∈ static, staticKey uc e.1 ≠ "" ∧ parseIP (trimSpace e.2) ≠ none
  nodup : (static.map fun e => staticKey uc e.1).Nodup

/-- The checks of the DNS64 keys. -/
structure Dns64Ok (uc : UnicodeCase) (c : AppConfig) : Prop where
  required : c.dns64Default ≠ ""
  policy : toLower uc (invalidAddressOr c.dns64InvalidAddress) ∈ invalidAddressWords
  forwarder : validateForwarder .default c.dns64Default = .ok ()
  zones : validateZones 0 c.dns64Zones = .ok ()
  static : StaticOk uc c.dns64Static

/-- What `validate` accepts. -/
structure Valid (uc : UnicodeCase) (c : AppConfig) : Prop where
  shared : SharedOk c
  nat64 : c.nat64Enable = true → Nat64Ok uc c
  dns64 : c.dns64Enable = true → Dns64Ok uc c

/-! ## What a pass returns -/

/-- The value of a keyword key. -/
def keywordValue (uc : UnicodeCase) (dflt s : String) : String :=
  if s = "" then dflt else toLower uc s

/-- A static entry after one pass. -/
def normEntry (uc : UnicodeCase) (e : String × String) : String × String :=
  (staticKey uc e.1, ((parseIP (trimSpace e.2)).map ipString).getD "")

/-- The shared lists after a pass. -/
def completeShared (c : AppConfig) : AppConfig :=
  { c with ignoredDstSubnets := some c.ignoredOr }

/-- The NAT64 keys after a pass with the service enabled. -/
def completeNat64 (uc : UnicodeCase) (c : AppConfig) : AppConfig :=
  { c with
    nat64UdpTimeout := positiveOr 300 c.nat64UdpTimeout
    nat64TcpTimeout := positiveOr defaultNat64TcpTimeout c.nat64TcpTimeout
    nat64UdpFiltering := keywordValue uc "address-dependent" c.nat64UdpFiltering
    nat64PortParity := keywordValue uc "preserve" c.nat64PortParity
    nat64MaxTCPConnections :=
      positiveOr defaultNat64MaxTCPConnections c.nat64MaxTCPConnections
    nat64MaxUDPSessions := positiveOr defaultNat64MaxUDPSessions c.nat64MaxUDPSessions
    nat64MaxUDPSessionsPerSrc :=
      positiveOr defaultNat64MaxUDPSessionsPerSrc c.nat64MaxUDPSessionsPerSrc
    nat64MaxTCPConnectionsSrc :=
      positiveOr defaultNat64MaxTCPConnectionsPerSrc c.nat64MaxTCPConnectionsSrc }

/-- The DNS64 keys after a pass with the service enabled. -/
def completeDns64 (uc : UnicodeCase) (o : MapOrder) (c : AppConfig) : AppConfig :=
  { c with
    dns64InvalidAddress := invalidAddressOr c.dns64InvalidAddress
    dns64Static := (o.order c.dns64Static).map (normEntry uc)
    dns64CacheExpiration := positiveOr 300 c.dns64CacheExpiration
    dns64CachePurge := positiveOr 600 c.dns64CachePurge
    dns64MaxCacheEntries := positiveOr defaultDns64MaxCacheEntries c.dns64MaxCacheEntries
    dns64MaxConcurrentQueries :=
      positiveOr defaultDns64MaxQueries c.dns64MaxConcurrentQueries
    dns64RateLimit := positiveOr defaultDns64RateLimit c.dns64RateLimit }

/-- What `validate` returns. -/
def complete (uc : UnicodeCase) (o : MapOrder) (c : AppConfig) : AppConfig :=
  let c := completeShared c
  let c := if c.nat64Enable then completeNat64 uc c else c
  if c.dns64Enable then completeDns64 uc o c else c

/-! ## The specification of each check -/

theorem except_bind_eq_ok {ε α β : Type} {x : Except ε α} {f : α → Except ε β}
    {b : β} : (x >>= f) = .ok b ↔ ∃ a, x = .ok a ∧ f a = .ok b := by
  cases x with
  | error e => exact ⟨(fun h => by cases h), fun ⟨_, h, _⟩ => (by cases h)⟩
  | ok a => exact ⟨fun h => ⟨a, rfl, h⟩, fun ⟨_, h, hf⟩ => by cases h; exact hf⟩

theorem toOption_eq_some {ε α : Type} {x : Except ε α} {a : α} (h : a ∈ x.toOption) :
    x = .ok a := by
  cases x with
  | error e => cases h
  | ok b =>
    obtain rfl : b = a := Option.some.inj h
    rfl

theorem checkNets_eq_ok_iff {err : String → ConfigError} {entries : List String} :
    checkNets err entries = .ok () ↔ ∀ e ∈ entries, netEntryOk e = true := by
  unfold checkNets
  split
  next e he =>
    have hbad := List.find?_some he
    refine iff_of_false (fun h => by cases h) fun h => ?_
    rw [h e (List.mem_of_find?_eq_some he)] at hbad
    exact Bool.false_ne_true hbad
  next hnone =>
    refine iff_of_true rfl fun e he => ?_
    simpa using List.find?_eq_none.1 hnone e he

theorem timeoutOr_eq_ok_iff {dflt floor t v : Int} {err : ConfigError} :
    timeoutOr dflt floor err t = .ok v ↔
      (0 < t → floor ≤ t) ∧ v = positiveOr dflt t := by
  unfold timeoutOr positiveOr
  split_ifs with h0 h1
  · rw [Except.ok.injEq]
    exact ⟨fun h => ⟨fun h' => by omega, h.symm⟩, fun h => h.2.symm⟩
  · exact ⟨(fun h => by cases h), fun h => absurd (h.1 (by omega)) (by omega)⟩
  · rw [Except.ok.injEq]
    exact ⟨fun h => ⟨fun _ => by omega, h.symm⟩, fun h => h.2.symm⟩

theorem keywordOr_eq_ok_iff {uc : UnicodeCase} {dflt s v : String} {words : List String}
    {err : String → ConfigError} :
    keywordOr uc dflt words err s = .ok v ↔
      KeywordOk uc words s ∧ v = keywordValue uc dflt s := by
  unfold keywordOr KeywordOk keywordValue
  split_ifs with h0 h1
  · rw [Except.ok.injEq]
    exact ⟨fun h => ⟨.inl h0, h.symm⟩, fun h => h.2.symm⟩
  · rw [Except.ok.injEq]
    exact ⟨fun h => ⟨.inr h1, h.symm⟩, fun h => h.2.symm⟩
  · exact ⟨(fun h => by cases h), fun h => (h.1.elim h0 h1).elim⟩

/-- The loop over the static table succeeds when every entry passes and no two
normalised names meet, also with those collected before; it appends the
normalised entries. -/
theorem normaliseStatic_eq_ok_iff {uc : UnicodeCase} :
    ∀ {static norm r : List (String × String)}, (norm.map Prod.fst).Nodup →
      (normaliseStatic uc static norm = .ok r ↔
        (∀ e ∈ static, staticKey uc e.1 ≠ "" ∧ parseIP (trimSpace e.2) ≠ none) ∧
        ((norm ++ static.map (normEntry uc)).map Prod.fst).Nodup ∧
        r = norm ++ static.map (normEntry uc)) := by
  intro static
  induction static with
  | nil =>
    intro norm r hnorm
    rw [normaliseStatic, Except.ok.injEq, List.map_nil, List.append_nil]
    exact ⟨fun h => ⟨(fun _ hmem => by cases hmem), hnorm, h.symm⟩, fun h => h.2.2.symm⟩
  | cons e rest ih =>
    obtain ⟨name, addr⟩ := e
    intro norm r hnorm
    rw [normaliseStatic]
    by_cases hkey : staticKey uc name = ""
    · rw [if_pos hkey]
      exact ⟨(fun h => by cases h),
        fun h => absurd hkey (h.1 _ List.mem_cons_self).1⟩
    rw [if_neg hkey]
    cases hip : parseIP (trimSpace addr) with
    | none =>
      exact ⟨(fun h => by cases h),
        fun h => absurd hip (h.1 _ List.mem_cons_self).2⟩
    | some ip =>
      have hentry : normEntry uc (name, addr) = (staticKey uc name, ipString ip) := by
        rw [normEntry, hip]
        rfl
      have happ : norm ++ ((name, addr) :: rest).map (normEntry uc)
          = (norm ++ [(staticKey uc name, ipString ip)]) ++ rest.map (normEntry uc) := by
        rw [List.map_cons, hentry, List.append_assoc]
        rfl
      dsimp only
      by_cases hdup : staticKey uc name ∈ norm.map Prod.fst
      · rw [if_pos hdup]
        refine ⟨(fun h => by cases h), fun h => ?_⟩
        -- The name would stand twice in the list that is to have no duplicate.
        have hnd := h.2.1
        rw [List.map_append, List.nodup_append] at hnd
        exact absurd rfl (hnd.2.2 _ hdup _ (by rw [List.map_cons, hentry]; simp))
      · rw [if_neg hdup, happ]
        have hnorm' : ((norm ++ [(staticKey uc name, ipString ip)]).map Prod.fst).Nodup := by
          rw [List.map_append, List.map_singleton]
          exact List.Nodup.append hnorm (List.nodup_singleton _)
            (List.disjoint_singleton.2 hdup)
        rw [ih hnorm']
        refine and_congr_left fun _ => ?_
        rw [List.forall_mem_cons]
        exact ⟨fun h => ⟨⟨hkey, by simp [hip]⟩, h⟩, fun h => h.2⟩

/-! ## The specification of a pass -/

theorem validateShared_eq_ok_iff {c c' : AppConfig} :
    validateShared c = .ok c' ↔ SharedOk c ∧ c' = completeShared c := by
  unfold validateShared completeShared
  simp only [except_bind_eq_ok]
  constructor
  · rintro ⟨_, ha, _, hi, _, he, hc⟩
    exact ⟨⟨checkNets_eq_ok_iff.1 ha, checkNets_eq_ok_iff.1 hi, he⟩,
      (Except.ok.inj hc).symm⟩
  · rintro ⟨⟨ha, hi, he⟩, rfl⟩
    exact ⟨(), checkNets_eq_ok_iff.2 ha, (), checkNets_eq_ok_iff.2 hi, (), he, rfl⟩

theorem validateNat64_eq_ok_iff {uc : UnicodeCase} {c c' : AppConfig} :
    validateNat64 uc c = .ok c' ↔ Nat64Ok uc c ∧ c' = completeNat64 uc c := by
  unfold validateNat64
  by_cases hpool : c.nat64Pool = ""
  · rw [if_pos hpool]
    exact ⟨(fun h => by cases h), fun h => absurd hpool h.1.pool.1⟩
  rw [if_neg hpool]
  cases hp : parsePref64 c.nat64Pool with
  | error e =>
    refine ⟨(fun h => by cases h), fun h => ?_⟩
    obtain ⟨p, hp'⟩ := h.1.pool.2
    rw [hp] at hp'
    cases hp'
  | ok p =>
    simp only [except_bind_eq_ok, timeoutOr_eq_ok_iff, keywordOr_eq_ok_iff]
    constructor
    · rintro ⟨_, ⟨hu, rfl⟩, _, ⟨ht, rfl⟩, _, ⟨hf, rfl⟩, _, ⟨hpar, rfl⟩, hc⟩
      exact ⟨⟨⟨hpool, p, hp⟩, hu, ht, hf, hpar⟩, (Except.ok.inj hc).symm⟩
    · rintro ⟨hok, rfl⟩
      exact ⟨_, ⟨hok.udpTimeout, rfl⟩, _, ⟨hok.tcpTimeout, rfl⟩, _,
        ⟨hok.filtering, rfl⟩, _, ⟨hok.parity, rfl⟩, rfl⟩

theorem StaticOk.perm {uc : UnicodeCase} {l l' : List (String × String)}
    (h : StaticOk uc l) (hp : l.Perm l') : StaticOk uc l' where
  entries := fun e he => h.entries e (hp.mem_iff.2 he)
  nodup := (hp.map _).nodup_iff.1 h.nodup

theorem normaliseStatic_nil_eq_ok_iff {uc : UnicodeCase}
    {static r : List (String × String)} :
    normaliseStatic uc static [] = .ok r ↔
      StaticOk uc static ∧ r = static.map (normEntry uc) := by
  rw [normaliseStatic_eq_ok_iff (by simp), List.nil_append, List.map_map]
  exact ⟨fun ⟨he, hn, hr⟩ => ⟨⟨he, hn⟩, hr⟩, fun ⟨⟨he, hn⟩, hr⟩ => ⟨he, hn, hr⟩⟩

theorem validateDns64_eq_ok_iff {uc : UnicodeCase} {o : MapOrder} {c c' : AppConfig} :
    validateDns64 uc o c = .ok c' ↔ Dns64Ok uc c ∧ c' = completeDns64 uc o c := by
  unfold validateDns64
  by_cases hreq : c.dns64Default = ""
  · rw [if_pos hreq]
    exact ⟨(fun h => by cases h), fun h => absurd hreq h.1.required⟩
  rw [if_neg hreq]
  by_cases hia : toLower uc (invalidAddressOr c.dns64InvalidAddress) ∈ invalidAddressWords
  · rw [if_neg (not_not.2 hia)]
    simp only [except_bind_eq_ok, normaliseStatic_nil_eq_ok_iff]
    constructor
    · rintro ⟨_, hf, _, hz, _, ⟨hs, rfl⟩, hc⟩
      exact ⟨⟨hreq, hia, hf, hz, hs.perm (o.perm _)⟩, (Except.ok.inj hc).symm⟩
    · rintro ⟨hok, rfl⟩
      exact ⟨(), hok.forwarder, (), hok.zones, _,
        ⟨hok.static.perm (o.perm _).symm, rfl⟩, rfl⟩
  · rw [if_pos hia]
    exact ⟨(fun h => by cases h), fun h => absurd h.1.policy hia⟩

private theorem whenEnabled_eq_ok_iff {enable : Bool} {c done c' : AppConfig}
    {f : AppConfig → Except ConfigError AppConfig} {P : Prop}
    (hf : f c = .ok c' ↔ P ∧ c' = done) :
    whenEnabled enable f c = .ok c' ↔
      (enable = true → P) ∧ c' = if enable then done else c := by
  unfold whenEnabled
  cases enable with
  | true => simpa using hf
  | false =>
    rw [if_neg Bool.false_ne_true, if_neg Bool.false_ne_true, Except.ok.injEq]
    exact ⟨fun h => ⟨(fun he => by cases he), h.symm⟩, fun h => h.2.symm⟩

theorem nat64Ok_completeShared {uc : UnicodeCase} {c : AppConfig} :
    Nat64Ok uc (completeShared c) ↔ Nat64Ok uc c :=
  ⟨fun h => ⟨h.1, h.2, h.3, h.4, h.5⟩, fun h => ⟨h.1, h.2, h.3, h.4, h.5⟩⟩

theorem dns64Ok_completeShared {uc : UnicodeCase} {c : AppConfig} :
    Dns64Ok uc (completeShared c) ↔ Dns64Ok uc c :=
  ⟨fun h => ⟨h.1, h.2, h.3, h.4, h.5⟩, fun h => ⟨h.1, h.2, h.3, h.4, h.5⟩⟩

theorem dns64Ok_completeNat64 {uc : UnicodeCase} {c : AppConfig} :
    Dns64Ok uc (completeNat64 uc c) ↔ Dns64Ok uc c :=
  ⟨fun h => ⟨h.1, h.2, h.3, h.4, h.5⟩, fun h => ⟨h.1, h.2, h.3, h.4, h.5⟩⟩

/-- The keys after the first two parts of a pass. -/
def completeFront (uc : UnicodeCase) (c : AppConfig) : AppConfig :=
  if c.nat64Enable then completeNat64 uc (completeShared c) else completeShared c

theorem completeFront_dns64Enable (uc : UnicodeCase) (c : AppConfig) :
    (completeFront uc c).dns64Enable = c.dns64Enable := by
  unfold completeFront
  split <;> rfl

theorem completeFront_dns64Static (uc : UnicodeCase) (c : AppConfig) :
    (completeFront uc c).dns64Static = c.dns64Static := by
  unfold completeFront
  split <;> rfl

theorem complete_eq (uc : UnicodeCase) (o : MapOrder) (c : AppConfig) :
    complete uc o c = if c.dns64Enable then completeDns64 uc o (completeFront uc c)
      else completeFront uc c := by
  rw [← completeFront_dns64Enable uc c]
  rfl

theorem complete_enables (uc : UnicodeCase) (o : MapOrder) (c : AppConfig) :
    (complete uc o c).nat64Enable = c.nat64Enable ∧
      (complete uc o c).dns64Enable = c.dns64Enable := by
  rw [complete_eq]
  unfold completeFront
  split_ifs <;> exact ⟨rfl, rfl⟩

theorem complete_dns64Static (uc : UnicodeCase) (o : MapOrder) (c : AppConfig) :
    (complete uc o c).dns64Static =
      if c.dns64Enable then (o.order c.dns64Static).map (normEntry uc) else c.dns64Static := by
  rw [complete_eq]
  split_ifs
  · simp only [completeDns64, completeFront_dns64Static]
  · exact completeFront_dns64Static uc c

theorem dns64Ok_completeFront {uc : UnicodeCase} {c : AppConfig} :
    Dns64Ok uc (completeFront uc c) ↔ Dns64Ok uc c := by
  unfold completeFront
  split
  · rw [dns64Ok_completeNat64, dns64Ok_completeShared]
  · exact dns64Ok_completeShared

theorem validate_eq_ok_iff {uc : UnicodeCase} {o : MapOrder} {c c' : AppConfig} :
    validate uc o c = .ok c' ↔ Valid uc c ∧ c' = complete uc o c := by
  unfold validate
  simp only [except_bind_eq_ok, validateShared_eq_ok_iff,
    whenEnabled_eq_ok_iff validateNat64_eq_ok_iff,
    whenEnabled_eq_ok_iff validateDns64_eq_ok_iff]
  constructor
  · rintro ⟨_, ⟨hs, rfl⟩, c1, ⟨hn, hc1⟩, hd, hc⟩
    have hc1 : c1 = completeFront uc c := hc1
    subst hc1
    rw [completeFront_dns64Enable] at hd hc
    refine ⟨⟨hs, fun h => nat64Ok_completeShared.1 (hn h),
      fun h => dns64Ok_completeFront.1 (hd h)⟩, ?_⟩
    rw [complete_eq, hc]
  · rintro ⟨hv, rfl⟩
    refine ⟨_, ⟨hv.shared, rfl⟩, completeFront uc c,
      ⟨fun h => nat64Ok_completeShared.2 (hv.nat64 h), rfl⟩, ?_⟩
    rw [completeFront_dns64Enable, complete_eq]
    exact ⟨fun h => dns64Ok_completeFront.2 (hv.dns64 h), rfl⟩

/-! ## A second pass -/

/-- A pass over these keys changes the static table and nothing else. -/
structure Completed (uc : UnicodeCase) (c : AppConfig) : Prop where
  shared : completeShared c = c
  nat64 : c.nat64Enable = true → completeNat64 uc c = c
  dns64 : c.dns64Enable = true → ∀ o : MapOrder, completeDns64 uc o c =
    { c with dns64Static := (o.order c.dns64Static).map (normEntry uc) }

theorem complete_of_completed {uc : UnicodeCase} {o : MapOrder} {c : AppConfig}
    (h : Completed uc c) :
    complete uc o c = if c.dns64Enable then
      { c with dns64Static := (o.order c.dns64Static).map (normEntry uc) } else c := by
  have hfront : completeFront uc c = c := by
    unfold completeFront
    rw [h.shared]
    split
    next hn => exact h.nat64 hn
    next => rfl
  rw [complete_eq, hfront]
  split
  next hd => exact h.dns64 hd o
  next => rfl

theorem positiveOr_positiveOr {dflt : Int} (h : 0 < dflt) (n : Int) :
    positiveOr dflt (positiveOr dflt n) = positiveOr dflt n := by
  unfold positiveOr
  split_ifs <;> omega

theorem positiveOr_pos {dflt : Int} (h : 0 < dflt) (n : Int) : 0 < positiveOr dflt n := by
  unfold positiveOr
  split_ifs <;> omega

theorem keywordValue_keywordValue (uc : UnicodeCase) (dflt : String)
    (hne : dflt ≠ "") (hlow : isLowerASCII dflt = true) (s : String) :
    keywordValue uc dflt (keywordValue uc dflt s) = keywordValue uc dflt s := by
  by_cases hs : s = ""
  · have hd : keywordValue uc dflt s = dflt := if_pos hs
    rw [hd, keywordValue, if_neg hne, toLower_eq_self uc hlow]
  · have hd : keywordValue uc dflt s = toLower uc s := if_neg hs
    rw [hd, keywordValue, if_neg (toLower_ne_empty uc hs), toLower_toLower]

theorem invalidAddressOr_invalidAddressOr (s : String) :
    invalidAddressOr (invalidAddressOr s) = invalidAddressOr s := by
  unfold invalidAddressOr
  split_ifs <;> simp_all

theorem completeNat64_completeNat64 (uc : UnicodeCase) (c : AppConfig) :
    completeNat64 uc (completeNat64 uc c) = completeNat64 uc c := by
  have hfilter := keywordValue_keywordValue uc "address-dependent"
    (by decide) (by decide) c.nat64UdpFiltering
  have hparity := keywordValue_keywordValue uc "preserve"
    (by decide) (by decide) c.nat64PortParity
  simp only [completeNat64, hfilter, hparity]
  simp [positiveOr_positiveOr, defaultNat64TcpTimeout, defaultNat64MaxTCPConnections,
    defaultNat64MaxUDPSessions, defaultNat64MaxUDPSessionsPerSrc,
    defaultNat64MaxTCPConnectionsPerSrc]

theorem completeDns64_completeDns64 (uc : UnicodeCase) (o o' : MapOrder) (c : AppConfig) :
    completeDns64 uc o' (completeDns64 uc o c) =
      { completeDns64 uc o c with
        dns64Static := (o'.order (completeDns64 uc o c).dns64Static).map (normEntry uc) } := by
  simp [completeDns64, invalidAddressOr_invalidAddressOr, positiveOr_positiveOr,
    defaultDns64MaxCacheEntries, defaultDns64MaxQueries, defaultDns64RateLimit]

theorem completed_complete (uc : UnicodeCase) (o : MapOrder) (c : AppConfig) :
    Completed uc (complete uc o c) := by
  -- Each of the three parts writes keys that the other two do not read.
  cases hd : c.dns64Enable <;> cases hn : c.nat64Enable <;>
    rw [complete_eq, completeFront, hd, hn]
  · exact ⟨rfl, fun h => absurd (hn.symm.trans h) Bool.false_ne_true,
      fun h => absurd (hd.symm.trans h) Bool.false_ne_true⟩
  · exact ⟨rfl, fun _ => completeNat64_completeNat64 uc _,
      fun h => absurd (hd.symm.trans h) Bool.false_ne_true⟩
  · exact ⟨rfl, fun h => absurd (hn.symm.trans h) Bool.false_ne_true,
      fun _ o' => completeDns64_completeDns64 uc o o' _⟩
  · exact ⟨rfl,
      fun _ => congrArg (completeDns64 uc o) (completeNat64_completeNat64 uc (completeShared c)),
      fun _ o' => completeDns64_completeDns64 uc o o' _⟩

theorem keywordOk_keywordValue {uc : UnicodeCase} {words : List String} {s : String}
    (dflt : String) (hmem : toLower uc dflt ∈ words) (h : KeywordOk uc words s) :
    KeywordOk uc words (keywordValue uc dflt s) := by
  unfold keywordValue
  split_ifs with hs
  · exact .inr hmem
  · rw [KeywordOk, toLower_toLower]
    exact .inr (h.resolve_left hs)

theorem Nat64Ok.completeNat64 {uc : UnicodeCase} {c : AppConfig} (h : Nat64Ok uc c) :
    Nat64Ok uc (completeNat64 uc c) where
  pool := h.pool
  udpTimeout := by
    intro _
    have hfloor := h.udpTimeout
    simp only [Config.completeNat64, positiveOr]
    split_ifs <;> omega
  tcpTimeout := by
    intro _
    have hfloor := h.tcpTimeout
    simp only [Config.completeNat64, positiveOr, defaultNat64TcpTimeout] at *
    split_ifs <;> omega
  filtering := keywordOk_keywordValue _
    (by rw [toLower_eq_self uc (by decide)]; decide) h.filtering
  parity := keywordOk_keywordValue _
    (by rw [toLower_eq_self uc (by decide)]; decide) h.parity

theorem Dns64Ok.completeDns64 {uc : UnicodeCase} {o : MapOrder} {c : AppConfig}
    (h : Dns64Ok uc c) (hs : StaticOk uc (c.dns64Static.map (normEntry uc))) :
    Dns64Ok uc (completeDns64 uc o c) where
  required := h.required
  policy := by
    have hidem := invalidAddressOr_invalidAddressOr c.dns64InvalidAddress
    simp only [Config.completeDns64]
    rw [hidem]
    exact h.policy
  forwarder := h.forwarder
  zones := h.zones
  static := hs.perm ((o.perm _).map _).symm

theorem Valid.completeFront {uc : UnicodeCase} {c : AppConfig} (h : Valid uc c) :
    Valid uc (completeFront uc c) := by
  refine ⟨?_, ?_, fun hd => ?_⟩
  · unfold Config.completeFront
    split <;> exact ⟨h.shared.1, h.shared.2, h.shared.3⟩
  · unfold Config.completeFront
    split
    next hn => exact fun _ => (nat64Ok_completeShared.2 (h.nat64 hn)).completeNat64
    next hn => exact fun hn' => absurd hn' hn
  · rw [completeFront_dns64Enable] at hd
    exact dns64Ok_completeFront.2 (h.dns64 hd)

theorem Valid.complete {uc : UnicodeCase} {o : MapOrder} {c : AppConfig} (h : Valid uc c)
    (hs : c.dns64Enable = true → StaticOk uc (c.dns64Static.map (normEntry uc))) :
    Valid uc (complete uc o c) := by
  have hfront := h.completeFront
  rw [complete_eq]
  split
  next hd =>
    refine ⟨⟨hfront.shared.1, hfront.shared.2, hfront.shared.3⟩, fun hn => ?_, fun _ => ?_⟩
    · have hok := hfront.nat64 hn
      exact ⟨hok.1, hok.2, hok.3, hok.4, hok.5⟩
    · refine (dns64Ok_completeFront.2 (h.dns64 hd)).completeDns64 ?_
      rw [completeFront_dns64Static]
      exact hs hd
  next => exact hfront

end Ydn64.Config
