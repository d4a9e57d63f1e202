import Ydn64.Dns64.Settings

/-!
# Start and reload of the process

`cmd/ydn64/main.go`.  `main` loads the configuration, applies the overrides of
the environment, each followed by another pass of validation, and makes the
enabled services.  `reloadConfig` answers SIGHUP: it loads the file again and
hands the new keys to the services that run.  The two paths are written
separately, and this file keeps them so.

A range over the static table picks its own order, so the start and each reload
carry one order for every range they make.
-/

namespace Ydn64.Cmd

open Ydn64.GoStd Ydn64.Config

/-! ## The environment -/

/-- The variables `YDN64_PRIVATE_KEY` and `YDN64_ALLOWED_SOURCES`; an unset one
is the empty text. -/
structure Environment where
  privateKey : String
  allowedSources : String
  deriving DecidableEq, Repr

/-- `splitEnvList`. -/
def splitEnvList (v : String) : List String :=
  ((fieldsFunc (fun r => r == ',' || isSpace r) v).map trimSpace).filter (· ≠ "")

/-- The override of `YDN64_ALLOWED_SOURCES`, the same at start and on reload. -/
def overrideAllowed (uc : UnicodeCase) (o : MapOrder) (env : Environment)
    (c : AppConfig) : Except ConfigError AppConfig :=
  if env.allowedSources = "" then .ok c
  else validate uc o { c with allowedSources := splitEnvList env.allowedSources }

/-! ## Start -/

/-- The fatal errors of the start. -/
inductive StartError where
  | load (e : LoadError)
  | privateKeyInvalid
  | certificate
  | invalidAfterPrivateKey (e : ConfigError)
  | allowedSourcesInvalid (e : ConfigError)
  | nat64Service (e : Pref64Error)
  | dns64Service

/-- The orders of the ranges over the static table during the start: one for
each pass of validation and one for the resolver. -/
structure StartOrders where
  load : MapOrder := default
  privateKey : MapOrder := default
  allowedSources : MapOrder := default
  serve : MapOrder := default

/-- The override of `YDN64_PRIVATE_KEY`, which only the start applies. -/
def overridePrivateKey (ygg : YggKeys) (uc : UnicodeCase) (o : MapOrder)
    (env : Environment) (c : AppConfig) : Except StartError AppConfig :=
  if env.privateKey = "" then .ok c
  else match parsePrivateKeyHex env.privateKey with
    | none => .error .privateKeyInvalid
    | some privKey =>
      if ygg.generateSelfSignedCertificate privKey then
        match deriveFromPrivateKey ygg privKey with
        | (nodeIP, pool6CIDR, pool6Prefix) =>
          (validate uc o (c.applyPrivateKeyOverride nodeIP pool6CIDR pool6Prefix)).mapError
            .invalidAfterPrivateKey
      else .error .certificate

/-- The configuration that `main` ends up with. -/
def startConfig (ygg : YggKeys) (uc : UnicodeCase) (o : StartOrders) (env : Environment)
    (file : ConfFile) : Except StartError AppConfig := do
  let c ← (load uc o.load file).mapError .load
  let c ← overridePrivateKey ygg uc o.privateKey env c
  (overrideAllowed uc o.allowedSources env c).mapError .allowedSourcesInvalid

/-- The services that run. -/
structure Services where
  nat64 : Option Nat64.Service
  dns64 : Option Dns64.Service
  deriving DecidableEq

/-- The running process: the environment, the configurations that the services
were started with, and the services. -/
structure Process where
  env : Environment
  runningNat64Cfg : NAT64Config
  runningDNS64Cfg : DNS64Config
  services : Services
  deriving DecidableEq

/-- The NAT64 service of a configuration, if it is enabled. -/
def startNat64 (uc : UnicodeCase) (c : AppConfig) : Except StartError (Option Nat64.Service) :=
  if c.nat64Enable then
    match Nat64.newService uc c.nat64 c.allowedSources c.ignoredList with
    | .error e => .error (.nat64Service e)
    | .ok s => .ok (some s)
  else .ok none

/-- The DNS64 service of a configuration, if it is enabled. -/
def startDns64 (uc : UnicodeCase) (o : MapOrder) (c : AppConfig) :
    Except StartError (Option Dns64.Service) :=
  if c.dns64Enable then
    match Dns64.newService uc o c.dns64 c.allowedSources c.ignoredList with
    | none => .error .dns64Service
    | some s => .ok (some s)
  else .ok none

/-- `main` up to the running services. -/
def start (ygg : YggKeys) (uc : UnicodeCase) (o : StartOrders) (env : Environment)
    (file : ConfFile) : Except StartError Process := do
  let c ← startConfig ygg uc o env file
  let nat64 ← startNat64 uc c
  let dns64 ← startDns64 uc o.serve c
  pure { env, runningNat64Cfg := c.nat64, runningDNS64Cfg := c.dns64,
         services := { nat64, dns64 } }

/-! ## Reload -/

/-- The orders of the ranges over the static table during one reload. -/
structure ReloadOrders where
  load : MapOrder := default
  allowedSources : MapOrder := default
  serve : MapOrder := default

/-- One SIGHUP: the file that the reload finds, and its orders. -/
structure Reload where
  file : ConfFile
  orders : ReloadOrders := {}

/-- What `reloadConfig` warns about before it applies the new keys. -/
inductive ReloadWarning where
  | allowedSourcesEmpty
  | nat64Enable (old new : Bool)
  | nat64Pool (old new : String)
  | dns64Enable (old new : Bool)
  | dns64Listen (old new : String)
  | nat64MaxTCPConnections (old new : Int)
  | dns64MaxConcurrentQueries (old new : Int)
  deriving DecidableEq, Repr

/-- Why a reload is given up before it reaches the services. -/
inductive ReloadAbort where
  | loadFailed (e : LoadError)
  | allowedSourcesInvalid (e : ConfigError)

/-- How a reload ends. -/
inductive ReloadOutcome where
  | aborted (e : ReloadAbort)
  | dns64Failed (warnings : List ReloadWarning)
  | reloaded (warnings : List ReloadWarning)

/-- The reload was not aborted. -/
def ReloadOutcome.applied : ReloadOutcome → Bool
  | .reloaded _ => true
  | _ => false

/-- A warning where a key that cannot change differs. -/
def warnChange {α : Type} [DecidableEq α] (w : α → α → ReloadWarning) (old new : α) :
    List ReloadWarning :=
  if new ≠ old then [w old new] else []

/-- The warnings of a reload. -/
def reloadWarnings (p : Process) (c : AppConfig) : List ReloadWarning :=
  (if c.allowedSources = [] then [.allowedSourcesEmpty] else []) ++
    warnChange .nat64Enable p.runningNat64Cfg.enable c.nat64.enable ++
    warnChange .nat64Pool p.runningNat64Cfg.pool6 c.nat64.pool6 ++
    warnChange .dns64Enable p.runningDNS64Cfg.enable c.dns64.enable ++
    warnChange .dns64Listen p.runningDNS64Cfg.listen c.dns64.listen ++
    warnChange .nat64MaxTCPConnections p.runningNat64Cfg.maxTCPClients
      c.nat64.maxTCPClients ++
    warnChange .dns64MaxConcurrentQueries p.runningDNS64Cfg.maxQueries c.dns64.maxQueries

/-- The DNS64 part of a reload; `none` is the error of the service. -/
def reloadDns64 (uc : UnicodeCase) (o : MapOrder) (c : AppConfig) :
    Option Dns64.Service → Option (Option Dns64.Service)
  | none => some none
  | some s => (s.reload uc o c.dns64 c.allowedSources c.ignoredList).map some

/-- The configuration that `reloadConfig` computes. -/
def reloadedConfig (uc : UnicodeCase) (env : Environment) (r : Reload) :
    Except ReloadAbort AppConfig := do
  let c ← (load uc r.orders.load r.file).mapError .loadFailed
  (overrideAllowed uc r.orders.allowedSources env c).mapError .allowedSourcesInvalid

/-- `reloadConfig`.  DNS64 goes first, since its part can fail. -/
def reloadConfig (uc : UnicodeCase) (p : Process) (r : Reload) : Process × ReloadOutcome :=
  match reloadedConfig uc p.env r with
  | .error e => (p, .aborted e)
  | .ok c =>
    match reloadDns64 uc r.orders.serve c p.services.dns64 with
    | none => (p, .dns64Failed (reloadWarnings p c))
    | some dns64 =>
      ({ p with services := {
          nat64 := p.services.nat64.map fun s =>
            s.reload uc c.nat64 c.allowedSources c.ignoredList
          dns64 } },
        .reloaded (reloadWarnings p c))

end Ydn64.Cmd
