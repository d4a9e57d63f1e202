import Ydn64.Config.Validate

/-!
# The settings of the NAT64 service

`src/nat64/service.go`: the part of the service that the configuration
determines.  The pool is read once when the service is made; the settings are
made by the same expression at start and on every reload, and a reload installs
what it is given.  A limit of zero or less means no limit.

A duration is a number of nanoseconds in an `int64`, and the product with
`time.Second` wraps.
-/

namespace Ydn64.Nat64

open Ydn64.GoStd Ydn64.Config

/-- `time.Second` in nanoseconds. -/
def second : Int := 10 ^ 9

/-- `time.Duration(n) * time.Second`. -/
def seconds (n : Int) : Int := Int.bmod (n * second) (2 ^ 64)

/-- `udpFilterMode`. -/
inductive UdpFilterMode where
  | addressDependent
  | addressAndPortDependent
  | endpointIndependent
  deriving DecidableEq, Repr

/-- `parseUDPFilterMode`. -/
def parseUDPFilterMode (uc : UnicodeCase) (s : String) : UdpFilterMode :=
  let word := toLower uc (trimSpace s)
  if word = "address-and-port-dependent" then .addressAndPortDependent
  else if word = "endpoint-independent" then .endpointIndependent
  else .addressDependent

/-- `portParityMode`. -/
inductive PortParityMode where
  | preserve
  | doNotPreserve
  deriving DecidableEq, Repr

/-- `parsePortParity`. -/
def parsePortParity (s : String) : PortParityMode :=
  if equalFold (trimSpace s) "do-not-preserve" then .doNotPreserve else .preserve

/-- `nat64Settings`. -/
structure Settings where
  allowedNets : List IPNet
  ignoredDstNets : List IPNet
  udpTimeout : Int
  tcpTimeout : Int
  udpFiltering : UdpFilterMode
  portParity : PortParityMode
  maxUDPSessions : Int
  maxUDPSessionsPerSrc : Int
  maxTCPClientsPerSrc : Int
  deriving DecidableEq, Repr

/-- The settings that `NewService` and `Reload` build from a configuration. -/
def newSettings (uc : UnicodeCase) (cfg : NAT64Config) (allowedSources : List String)
    (ignoredDstSubnets : List String) : Settings where
  allowedNets := parseIPNets allowedSources
  ignoredDstNets := parseIPNets ignoredDstSubnets
  udpTimeout := seconds cfg.udpTimeout
  tcpTimeout := seconds cfg.tcpTimeout
  udpFiltering := parseUDPFilterMode uc cfg.udpFiltering
  portParity := parsePortParity cfg.portParity
  maxUDPSessions := cfg.maxUDPSessions
  maxUDPSessionsPerSrc := cfg.maxUDPSessionsPerSrc
  maxTCPClientsPerSrc := cfg.maxTCPConnectionsPerSrc

/-- `isAllowed`. -/
def Settings.isAllowed (s : Settings) (ip : IP) : Bool := anyContains s.allowedNets ip

/-- `isIgnoredDst`. -/
def Settings.isIgnoredDst (s : Settings) (ip : IP) : Bool := anyContains s.ignoredDstNets ip

/-- The fields of `Service` that come from the configuration.  The capacity of
`tcpSem` is `none` where there is no semaphore. -/
structure Service where
  pref64 : Pref64
  tcpSem : Option Nat
  settings : Settings
  deriving DecidableEq

/-- `NewService`.  It reads the pool twice, as a network and as a prefix, and
the network of the prefix is that network. -/
def newService (uc : UnicodeCase) (cfg : NAT64Config) (allowedSources : List String)
    (ignoredDstSubnets : List String) : Except Pref64Error Service :=
  (parsePref64 cfg.pool6).map fun pref64 =>
    { pref64
      tcpSem := if 0 < cfg.maxTCPClients then some cfg.maxTCPClients.toNat else none
      settings := newSettings uc cfg allowedSources ignoredDstSubnets }

/-- `pool6Net`. -/
def Service.pool6Net (s : Service) : IPNet := s.pref64.net

/-- `Service.Reload`. -/
def Service.reload (uc : UnicodeCase) (s : Service) (cfg : NAT64Config)
    (allowedSources ignoredDstSubnets : List String) : Service :=
  { s with settings := newSettings uc cfg allowedSources ignoredDstSubnets }

end Ydn64.Nat64
