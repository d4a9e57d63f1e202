import Ydn64.Config.Pref64

/-!
# The configuration keys

`src/config/config.go`: the keys of the configuration file as the decoder
leaves them, the views of them that the two services receive, and the key
override of the environment.

A `nil` list of ignored subnets means the default list and an empty one means
no subnet, so that key is an `Option`.  The static table is a Go map, given as
the list of its entries; each `range` over it takes them in an order of its
own, which is a `MapOrder`.
-/

namespace Ydn64.Config

open Ydn64.GoStd

/-! ## The keys -/

/-- `ZoneConfig`. -/
structure ZoneConfig where
  domains : List String
  forwarder : String := ""
  pref : String := ""
  returnIPv4Addresses : Bool := false
  returnIPv6Addresses : Bool := false
  deriving DecidableEq, Repr

/-- `AppConfig`. -/
structure AppConfig where
  allowedSources : List String := []
  /-- `none` is `nil`. -/
  ignoredDstSubnets : Option (List String) := none
  nat64Enable : Bool := false
  nat64Pool : String := ""
  nat64UdpTimeout : Int := 0
  nat64TcpTimeout : Int := 0
  nat64UdpFiltering : String := ""
  nat64PortParity : String := ""
  nat64MaxTCPConnections : Int := 0
  nat64MaxUDPSessions : Int := 0
  nat64MaxUDPSessionsPerSrc : Int := 0
  nat64MaxTCPConnectionsSrc : Int := 0
  dns64Enable : Bool := false
  dns64Listen : String := ""
  dns64Default : String := ""
  dns64CacheExpiration : Int := 0
  dns64CachePurge : Int := 0
  dns64MaxCacheEntries : Int := 0
  dns64MaxConcurrentQueries : Int := 0
  dns64RateLimit : Int := 0
  dns64InvalidAddress : String := ""
  dns64AAAAExcludedSubnets : List String := []
  dns64Zones : List ZoneConfig := []
  dns64Static : List (String × String) := []
  deriving DecidableEq, Repr

/-- `NAT64Config`. -/
structure NAT64Config where
  enable : Bool
  pool6 : String
  udpTimeout : Int
  tcpTimeout : Int
  udpFiltering : String
  portParity : String
  maxTCPClients : Int
  maxUDPSessions : Int
  maxUDPSessionsPerSrc : Int
  maxTCPConnectionsPerSrc : Int
  deriving DecidableEq, Repr

/-- `DNS64Config`. -/
structure DNS64Config where
  enable : Bool
  listen : String
  default : String
  cacheExp : Int
  cachePurge : Int
  maxCacheEntries : Int
  maxQueries : Int
  rateLimit : Int
  invalidAddress : String
  excludedAAAASubnets : List String
  zones : List ZoneConfig
  static : List (String × String)
  deriving DecidableEq, Repr

/-- `AppConfig.NAT64`. -/
def AppConfig.nat64 (c : AppConfig) : NAT64Config where
  enable := c.nat64Enable
  pool6 := c.nat64Pool
  udpTimeout := c.nat64UdpTimeout
  tcpTimeout := c.nat64TcpTimeout
  udpFiltering := c.nat64UdpFiltering
  portParity := c.nat64PortParity
  maxTCPClients := c.nat64MaxTCPConnections
  maxUDPSessions := c.nat64MaxUDPSessions
  maxUDPSessionsPerSrc := c.nat64MaxUDPSessionsPerSrc
  maxTCPConnectionsPerSrc := c.nat64MaxTCPConnectionsSrc

/-- `AppConfig.DNS64`. -/
def AppConfig.dns64 (c : AppConfig) : DNS64Config where
  enable := c.dns64Enable
  listen := c.dns64Listen
  default := c.dns64Default
  cacheExp := c.dns64CacheExpiration
  cachePurge := c.dns64CachePurge
  maxCacheEntries := c.dns64MaxCacheEntries
  maxQueries := c.dns64MaxConcurrentQueries
  rateLimit := c.dns64RateLimit
  invalidAddress := c.dns64InvalidAddress
  excludedAAAASubnets := c.dns64AAAAExcludedSubnets
  zones := c.dns64Zones
  static := c.dns64Static

/-- The entries of `IgnoredDstSubnets`; a `nil` list has none. -/
def AppConfig.ignoredList (c : AppConfig) : List String := c.ignoredDstSubnets.getD []

/-- The order in which one `range` over a map of strings visits the entries.
The runtime picks any. -/
structure MapOrder where
  order : List (String × String) → List (String × String)
  perm : ∀ l, (order l).Perm l

/-- The entries as listed. -/
instance : Inhabited MapOrder := ⟨⟨id, fun l => .refl l⟩⟩

/-! ## Defaults -/

def defaultDns64MaxCacheEntries : Int := 4096
def defaultDns64MaxQueries : Int := 512
def defaultNat64MaxTCPConnections : Int := 1024
def defaultNat64MaxUDPSessions : Int := 4096
def defaultNat64TcpTimeout : Int := 7440
def defaultDns64RateLimit : Int := 50
def defaultNat64MaxUDPSessionsPerSrc : Int := 256
def defaultNat64MaxTCPConnectionsPerSrc : Int := 128

/-- `DefaultIgnoredDstSubnets`. -/
def defaultIgnoredDstSubnets : List String :=
  ["10.0.0.0/8", "172.16.0.0/12", "192.168.0.0/16", "127.0.0.0/8",
   "169.254.0.0/16", "100.64.0.0/10", "0.0.0.0/8", "224.0.0.0/4",
   "240.0.0.0/4", "255.255.255.255/32", "192.0.0.0/24", "198.18.0.0/15",
   "192.88.99.0/24"]

/-! ## Subnet lists -/

/-- `ParseIPNets`: bare addresses and prefixes; other entries are skipped. -/
def parseIPNets (entries : List String) : List IPNet :=
  entries.filterMap fun entry =>
    match parseIP entry with
    | some ip =>
      match to4 ip with
      | some ip4 => some ⟨ip4, cidrMask 32 32⟩
      | none => some ⟨ip, cidrMask 128 128⟩
    | none => (parseCIDR entry).map Prod.snd

theorem parseIPNets_wellFormed {entries : List String} {n : IPNet} (h : n ∈ parseIPNets entries) :
    n.WellFormed := by
  obtain ⟨entry, -, hn⟩ := List.mem_filterMap.1 h
  cases hip : parseIP entry with
  | none =>
    rw [hip] at hn
    obtain ⟨⟨ip, n'⟩, hcidr, rfl⟩ := Option.map_eq_some_iff.1 hn
    exact parseCIDR_wellFormed hcidr
  | some ip =>
    rw [hip] at hn
    dsimp only at hn
    cases hto4 : to4 ip with
    | some ip4 =>
      rw [hto4] at hn
      obtain rfl := Option.some.inj hn
      exact ⟨to4_length hto4, .inl rfl⟩
    | none =>
      rw [hto4] at hn
      obtain rfl := Option.some.inj hn
      exact ⟨parseIP_length hip, .inr rfl⟩

/-! ## The private key override -/

/-- `ParsePrivateKeyHex`: 64 bytes in hexadecimal. -/
def parsePrivateKeyHex (s : String) : Option Bytes :=
  (hexDecode s.toList).filter fun raw => raw.length = 64

/-- The functions of the Yggdrasil library that the override calls: whether a
certificate for the key can be made, and the address and the subnet that belong
to a public key. -/
structure YggKeys where
  generateSelfSignedCertificate : Bytes → Bool
  addrForKey : Bytes → Addr16
  subnetForKey : Bytes → List.Vector UInt8 8

/-- `DeriveFromPrivateKey`: the address of the node, its pool and the prefix of
the pool, as texts.  The public key is the second half of the private one. -/
def deriveFromPrivateKey (ygg : YggKeys) (privKey : Bytes) :
    String × String × String :=
  let pubKey := privKey.drop 32
  let pool6IP := (ygg.subnetForKey pubKey).toList ++ List.replicate 8 0
  (ipString (ygg.addrForKey pubKey).toList, ipString pool6IP ++ "/96",
    ipString pool6IP)

/-- The single zone that the override installs. -/
def keyZones (pool6Prefix : String) : List ZoneConfig :=
  [{ domains := ["."], returnIPv4Addresses := false, pref := pool6Prefix }]

/-- `ApplyPrivateKeyOverride`. -/
def AppConfig.applyPrivateKeyOverride (c : AppConfig)
    (nodeIP pool6CIDR pool6Prefix : String) : AppConfig :=
  { c with
    nat64Pool := pool6CIDR
    dns64Listen := "[" ++ nodeIP ++ "]:53"
    dns64Zones := keyZones pool6Prefix }

end Ydn64.Config
