import Ydn64.Dns64.Cache
import Ydn64.Lib.Prog

/-!
# The DNS64 proxy

`src/dns64/proxy.go` and the zone match of `zones.go`.  A query handler is a
program over the operations that it shares with the rest of the process: loads
of the two atomic pointers, the cache, the health record of a forwarder, random
choices and the exchange with a forwarder (`ProxyOp`).  Between two operations
the handler only computes, so a run of the handlers beside each other is an
interleaving of their operations.

The configuration pointer is loaded anew wherever the source calls
`p.cfg.Load()`: for the zone, for the default forwarder, for the exclusion set,
for every unspecified address and for every synthesised record.

A handler is written once for every way to get at its request (`Request`): most
results take the request as a value, and `Ydn64.Dns64.Objects` takes it as an object.

`panic` is the index out of range that `Embed` runs into for an A record without
an address; no world answers it.
-/

namespace Ydn64.Dns64

open Ydn64.GoStd Ydn64.Config Ydn64.Lib

/-! ## Zones -/

/-- `zone.blocked`. -/
def Zone.blocked (z : Zone) : Bool :=
  z.pref = none && !z.returnIPv4Addresses && !z.returnIPv6Addresses

/-- A domain of a zone matches a name without its trailing dot.  A query name is
ASCII in the library's text form, and `EqualFold` is symmetric. -/
def domainMatches (uc : UnicodeCase) (name d : String) : Bool :=
  equalFold (toLower uc d) name || ("." ++ toLower uc d).toList.isSuffixOf name.toList

/-- The loop of `matchZone`: the first zone with a domain that matches, or else
the last one that lists the catch-all. -/
def matchZoneFrom (uc : UnicodeCase) (name : String) :
    (defaultZone : Option Zone) → List Zone → Option Zone
  | defaultZone, [] => defaultZone
  | defaultZone, z :: zones =>
    if z.domains.any fun d => d ≠ "." && domainMatches uc name d then some z
    else matchZoneFrom uc name (if "." ∈ z.domains then some z else defaultZone) zones

/-- `matchZone`. -/
def matchZone (uc : UnicodeCase) (zones : List Zone) (fqdn : String) : Option Zone :=
  matchZoneFrom uc (trimSuffixDot (toLower uc fqdn)) none zones

/-! ## The operations -/

/-- The answer of a forwarder: a message, or an error that may come with a part
of one. -/
inductive Reply where
  | ok (resp : Msg)
  | failed (part : Option Msg)
  deriving DecidableEq

/-- What a handler does besides computing. -/
inductive ProxyOp where
  /-- `p.cfg.Load()` -/
  | loadConfig
  /-- `p.static.Load()` -/
  | loadStatic
  | cacheGet (k : CacheKey)
  | cacheSet (k : CacheKey) (rrs : List RR)
  /-- `dns.Id()` -/
  | drawId
  /-- `x20StateFor(server).active(time.Now())` -/
  | x20Active (server : String)
  /-- `x20StateFor(server).record(ok)` -/
  | x20Record (server : String) (ok : Bool)
  | randomizeNameCase (name : String)
  /-- `lookupUpstream` -/
  | exchange (server : String) (req : Msg) (via : Via)
  | panic
  deriving DecidableEq

@[reducible] def ProxyOp.Ans : ProxyOp → Type
  | loadConfig => ProxyConfig
  | loadStatic => SyncMap String IP
  | cacheGet _ => Option (List RR)
  | cacheSet _ _ => Unit
  | drawId => UInt16
  | x20Active _ => Bool
  | x20Record _ _ => Unit
  | randomizeNameCase _ => String
  | exchange _ _ _ => Reply
  | panic => Empty

/-- A handler. -/
abbrev Handler := Prog ProxyOp.Ans

def loadConfig : Handler ProxyConfig := .perform ProxyOp.loadConfig
def loadStatic : Handler (SyncMap String IP) := .perform ProxyOp.loadStatic
def cacheGet (k : CacheKey) : Handler (Option (List RR)) := .perform (ProxyOp.cacheGet k)
def cacheSet (k : CacheKey) (rrs : List RR) : Handler Unit := .perform (ProxyOp.cacheSet k rrs)
def drawId : Handler UInt16 := .perform ProxyOp.drawId
def x20Active (server : String) : Handler Bool := .perform (ProxyOp.x20Active server)
def x20Record (server : String) (ok : Bool) : Handler Unit := .perform (ProxyOp.x20Record server ok)
def randomizeNameCase (name : String) : Handler String := .perform (ProxyOp.randomizeNameCase name)
def lookupUpstream (server : String) (req : Msg) (via : Via) : Handler Reply :=
  .perform (ProxyOp.exchange server req via)
def indexOutOfRange {α : Type} : Handler α := .call ProxyOp.panic Empty.elim

/-! ## The exchange with a forwarder -/

/-- The name of the first question. -/
def Msg.qname (m : Msg) : String := (m.question.head?.map Question.name).getD ""

/-- The name that goes out, and whether the reply must echo it. -/
def sentName (server : String) (req : Msg) : Handler (String × Bool) :=
  if req.question = [] then pure (req.qname, false)
  else do
    if ← x20Active server then
      let name ← randomizeNameCase req.qname
      pure (name, true)
    else pure (req.qname, false)

/-- A truncated reply over UDP is replaced by a complete one over TCP. -/
def retryTCP (server : String) (sent : Msg) (via : Via) (first : Reply) : Handler Reply :=
  match first with
  | .failed part => pure (.failed part)
  | .ok resp =>
    if via ≠ .tcp ∧ resp.truncated then do
      match ← lookupUpstream server sent .tcp with
      | .ok full => pure (if full.truncated then .ok resp else .ok full)
      | .failed _ => pure (.ok resp)
    else pure (.ok resp)

/-- The reply echoes the name, or has no question to echo it in. -/
def echoes (resp : Msg) (name : String) : Bool :=
  resp.question = [] || resp.qname = name

/-- The end of `lookup`: the reply under the ID and the name of the request, if
it passes the check for the name that went out. -/
def acceptReply (server : String) (req : Msg) (name : String) (check : Bool) :
    Reply → Handler (Option Msg)
  | .failed none => pure none
  | .failed (some part) =>
    if check then do
      x20Record server (echoes part name)
      pure none
    else pure none
  | .ok resp =>
    if check then do
      x20Record server (echoes resp name)
      pure (if echoes resp name then some ({ resp with id := req.id }.setQname req.qname) else none)
    else pure (some { resp with id := req.id })

/-- `lookup`; `none` is its error. -/
def lookup (server : String) (req : Msg) (via : Via) : Handler (Option Msg) := do
  let id ← drawId
  let (name, check) ← sentName server req
  let sent := { req with id }.setQname name
  let first ← lookupUpstream server sent via
  let reply ← retryTCP server sent via first
  acceptReply server req name check reply

/-- `getForwarder`. -/
def getForwarder (z : Zone) : Handler String :=
  if z.forwarder ≠ "" then pure z.forwarder
  else do
    let cfg ← loadConfig
    pure cfg.defaultForward

/-- `dnssecValidatingClient`. -/
def dnssecValidatingClient (lib : DnsLib) (req : Msg) : Bool :=
  req.checkingDisabled &&
    match lib.isEdns0 req with
    | none => false
    | some opt => opt.isDo

theorem dnssecValidatingClient_eq (lib : DnsLib) (req : Msg) :
    dnssecValidatingClient lib req = req.validates := by
  unfold dnssecValidatingClient Msg.validates
  rw [lib.isEdns0_eq]
  cases req.opt? <;> rfl

/-! ## Filters and synthesis -/

/-- `IP.IsUnspecified`. -/
def isUnspecified (ip : IP) : Bool :=
  to4 ip = some [0, 0, 0, 0] || ip = List.replicate 16 0

/-- `containsAAAA`. -/
def containsAAAA (rrs : List RR) : Bool := rrs.any fun rr => rr.aaaa?.isSome

/-- The record is an AAAA record inside one of the networks. -/
def excluded (nets : List IPNet) (rr : RR) : Bool :=
  match rr.aaaa? with
  | none => false
  | some ip => anyContains nets ip

/-- `dropExcludedAAAA`. -/
def dropExcludedAAAA (rrs : List RR) : Handler (List RR) := do
  let cfg ← loadConfig
  pure (rrs.filter fun rr => !excluded cfg.excludedAAAANets rr)

/-- Whether `filterAAAA` keeps a record that is not excluded. -/
def keepAAAA (z : Zone) (rr : RR) : Handler Bool :=
  match rr.aaaa? with
  | none => pure true
  | some ip =>
    if isUnspecified ip then do
      let cfg ← loadConfig
      pure (cfg.ia = .process)
    else pure z.returnIPv6Addresses

/-- The loop of `filterAAAA`. -/
def filterLoop (z : Zone) : List RR → Handler (List RR)
  | [] => pure []
  | rr :: rrs => do
    let keep ← keepAAAA z rr
    let rest ← filterLoop z rrs
    pure (if keep then rr :: rest else rest)

/-- `filterAAAA`. -/
def filterAAAA (rrs : List RR) (z : Zone) : Handler (List RR) := do
  let out ← dropExcludedAAAA rrs
  filterLoop z out

/-- `isIgnoredDst`. -/
def isIgnoredDst (ip : IP) : Handler Bool := do
  let cfg ← loadConfig
  pure (anyContains cfg.ignoredDstNets ip)

/-- `makeSynthesisedAAAA` on the four-byte form of an address, which `Embed`
takes of it. -/
def makeSynthesisedAAAA (pref : Pref64) (ipv4 : IP) : Handler Addr16 :=
  match to4 ipv4 with
  | none => indexOutOfRange
  | some v4 => pure (pref.embed (List.Vector.ofFn fun i => v4.getD i 0))

section Records

variable (lib : DnsLib)

/-- The synthesis of an address that the policy on unspecified ones lets pass. -/
def synthesiseAddr (pref : Pref64) (name : String) (ttl : UInt32) (ipv4 : IP) :
    Handler (Option RR) := do
  if ← isIgnoredDst ipv4 then pure none
  else
    let synth ← makeSynthesisedAAAA pref ipv4
    pure (lib.newAAAA name ttl synth.toList)

/-- One turn of the loop of `synthesiseFromA`. -/
def synthesiseOne (fallbackName : String) (pref : Pref64) (maxTTL : UInt32) (rr : RR) :
    Handler (Option RR) :=
  match rr.a? with
  | none => pure none
  | some ipv4 => do
    let name := if rr.name = "" then fallbackName else rr.name
    let ttl := if maxTTL < rr.ttl then maxTTL else rr.ttl
    if isUnspecified ipv4 then
      match (← loadConfig).ia with
      | .discard => pure none
      | .process => pure (lib.newAAAA name ttl (.replicate 16 0))
      | .ignore => synthesiseAddr lib pref name ttl ipv4
    else synthesiseAddr lib pref name ttl ipv4

/-- `synthesiseFromA`. -/
def synthesiseFromA (fallbackName : String) (pref : Pref64) (maxTTL : UInt32) :
    List RR → Handler (List RR)
  | [] => pure []
  | rr :: rrs => do
    let synth ← synthesiseOne lib fallbackName pref maxTTL rr
    let rest ← synthesiseFromA fallbackName pref maxTTL rrs
    pure (synth.toList ++ rest)

/-- The bound on the TTL of a synthesised record: that of the first SOA in the
authority section of the AAAA reply, or 600. -/
def synthesisTTL (ns : List RR) : UInt32 :=
  ((ns.find? RR.isSOA).map RR.ttl).getD 600

end Records

/-! ## The handlers -/

/-- How a handler gets at its request: it reads it, and it asks a forwarder with a
copy to which it has made the assignments `f`. -/
structure Request (M : Type → Type) where
  load : M Msg
  lookup (server : String) (f : Msg → Msg) (via : Via) : M (Option Msg)

/-- A request that is a value. -/
def Request.value (req : Msg) : Request Handler where
  load := pure req
  lookup server f via := Dns64.lookup server (f req) via

instance : Coe Msg (Request Handler) := ⟨Request.value⟩

theorem Request.load_value_bind {α : Type} (req : Msg) (f : Msg → Handler α) :
    ((value req).load >>= f) = f req := rfl

/-- `ipv4OnlyARPAIPs`. -/
def ipv4OnlyARPAIPs : List Addr4 :=
  [170, 171].map fun b => .cons 192 (.cons 0 (.cons 0 (.cons b .nil)))

/-- The name is that of RFC 7050, which is answered locally. -/
@[irreducible] def isIPv4Only (uc : UnicodeCase) (name : String) : Bool :=
  toLower uc name = "ipv4only.arpa."

/-- `cacheKeyFor`. -/
def cacheKeyFor (q : Question) : CacheKey := ⟨q.name, q.qtype⟩

section Handlers

variable {M : Type → Type} [Monad M] [MonadLiftT Handler M] (uc : UnicodeCase) (lib : DnsLib)

/-- The local answer to an AAAA query for `ipv4only.arpa.`. -/
def ipv4OnlyAAAA (req : Msg) (q : Question) (z : Zone) : Msg :=
  let answer := match z.pref with
    | none => []
    | some pref => ipv4OnlyARPAIPs.filterMap fun ip4 =>
        lib.newAAAA q.name 60 (pref.embed ip4).toList
  { (req.setQtype typeAAAA) with
    response := true
    rcode := rcodeSuccess
    answer := req.answer ++ answer }

/-- A cached answer that has a usable record under the current exclusions. -/
def cachedAAAA (q : Question) : Handler (Option (List RR)) := do
  match ← cacheGet (cacheKeyFor q) with
  | none => pure none
  | some cached =>
    let answer ← dropExcludedAAAA cached
    pure (if containsAAAA answer then some answer else none)

/-- The AAAA records of the forwarder that the zone lets pass; none unless the
reply is a success. -/
def usableAAAA (upResp : Msg) (z : Zone) : Handler (Option (List RR)) :=
  if upResp.rcode = rcodeSuccess then do
    let answer ← filterAAAA upResp.answer z
    pure (if containsAAAA answer then some answer else none)
  else pure none

/-- `passThrough`. -/
def passThrough (r : Request M) (server : String) (via : Via) : M (Option Msg) :=
  r.lookup server (fun req => req) via

/-- The synthesis part of `handleAAAA`, after an AAAA reply with nothing
usable. -/
def answerFromA (r : Request M) (q : Question) (pref : Pref64) (server : String) (via : Via)
    (upResp : Msg) : M (Option Msg) := do
  match ← r.lookup server ({ · with question := [⟨q.name, typeA, q.qclass⟩] }) via with
  | none => pure none
  | some aResp =>
    let synth ← synthesiseFromA lib q.name pref (synthesisTTL upResp.ns) aResp.answer
    let nonA := aResp.answer.filter fun rr => rr.a?.isNone
    let req ← r.load
    let resp := { (req.setQtype typeAAAA) with
      response := true
      ns := aResp.ns
      extra := aResp.extra }
    if aResp.rcode ≠ rcodeSuccess ∨ synth = [] then
      pure (some { resp with rcode := aResp.rcode, answer := nonA })
    else
      cacheSet (cacheKeyFor q) (nonA ++ synth)
      pure (some { resp with rcode := rcodeSuccess, answer := nonA ++ synth })

/-- The part of `handleAAAA` behind the cache. -/
def resolveAAAA (r : Request M) (q : Question) (z : Zone) (server : String) (via : Via) :
    M (Option Msg) := do
  match ← r.lookup server ({ · with question := [q] }) via with
  | none => pure none
  | some upResp =>
    if upResp.rcode = rcodeNameError then
      let req ← r.load
      pure (some { (req.setQtype typeAAAA) with
        response := true
        rcode := rcodeNameError
        ns := upResp.ns
        extra := upResp.extra })
    else
      match ← usableAAAA upResp z with
      | some answer =>
        cacheSet (cacheKeyFor q) answer
        let req ← r.load
        pure (some { (req.setQtype typeAAAA) with
          response := true
          answer := answer
          extra := upResp.extra })
      | none =>
        match z.pref with
        | none =>
          let req ← r.load
          pure (some { (req.setQtype typeAAAA) with response := true, answer := [] })
        | some pref => answerFromA lib r q pref server via upResp

/-- `handleAAAA`. -/
def handleAAAA (r : Request M) (q : Question) (z : Zone) (server : String) (via : Via) :
    M (Option Msg) := do
  if isIPv4Only uc q.name then
    let req ← r.load
    pure (some (ipv4OnlyAAAA lib req q z))
  else
    match ← cachedAAAA q with
    | some answer =>
      let req ← r.load
      pure (some { (req.setQtype typeAAAA) with response := true, answer := answer })
    | none => resolveAAAA lib r q z server via

/-- `handleA`. -/
def handleA (r : Request M) (q : Question) (z : Zone) (server : String) (via : Via) :
    M (Option Msg) := do
  if isIPv4Only uc q.name then
    let req ← r.load
    pure (some { (req.setQtype typeA) with
      response := true
      rcode := rcodeSuccess
      answer := req.answer ++ ipv4OnlyARPAIPs.filterMap fun ip4 => lib.newA q.name 60 ip4.toList })
  else
    match ← r.lookup server ({ · with question := [q] }) via with
    | none => pure none
    | some resp =>
      pure (some (if z.returnIPv4Addresses then resp else { resp with answer := [] }))

/-- `nibbleVal`. -/
def nibbleVal (c : Char) : Option Nat :=
  if '0' ≤ c ∧ c ≤ '9' then some (c.toNat - '0'.toNat)
  else if 'a' ≤ c ∧ c ≤ 'f' then some (c.toNat - 'a'.toNat + 10)
  else none

/-- The address whose nibbles, from the last to the first, are given. -/
def ofNibbles (vs : List Nat) : IP :=
  (List.range 16).map fun j => UInt8.ofNat (vs.getD (30 - 2 * j) 0 + 16 * vs.getD (31 - 2 * j) 0)

/-- `ptrToIPv6`. -/
@[irreducible] def ptrToIPv6 (ptr : String) : Option IP :=
  let cs := (toLower uc ptr).toList
  let suffix := ".ip6.arpa.".toList
  if suffix.isSuffixOf cs then
    let nibbles := (cs.take (cs.length - suffix.length)).splitOn '.'
    if nibbles.length ≠ 32 then none
    else
      (nibbles.mapM fun nb =>
        match nb with
        | [c] => nibbleVal c
        | _ => none).map ofNibbles
  else none

/-- `reversePTR`. -/
def reversePTR (ptrName : String) : Handler (Option Addr4) :=
  match ptrToIPv6 uc ptrName with
  | none => pure none
  | some ip6 => do
    let cfg ← loadConfig
    pure (cfg.zones.findSome? fun z => z.pref.bind fun pref => pref.extract ip6)

/-- The record that stands for a PTR record in the answer to a pool query. -/
def rewritePTR (name : String) (rr : RR) : Option RR :=
  match rr.ptr? with
  | none => none
  | some target => lib.newPTR name target

/-- `handlePTR`; the original question is kept from the copy. -/
def handlePTR (r : Request M) (q : Question) (server : String) (via : Via) : M (Option Msg) := do
  match ← reversePTR uc q.name with
  | none => passThrough r server via
  | some ipv4 =>
    let req ← r.load
    match ← r.lookup server
        ({ · with question := [⟨lib.reverseAddr ipv4, typePTR, q.qclass⟩] }) via with
    | none => pure none
    | some resp =>
      let resp := { resp with
        question := req.question
        answer := resp.answer.filterMap (rewritePTR lib req.qname) }
      pure (some (resp.setQtype typePTR))

/-- The type that a static record is looked up for. -/
def staticType (q : Question) : UInt16 := if q.qtype = typeANY then typeAAAA else q.qtype

/-- The part of `staticAnswer` behind the load. -/
def staticReply (static : SyncMap String IP) (req : Msg) (q : Question) : Option Msg :=
  match static.lookup (staticKey uc q.name) with
  | none => none
  | some ip =>
    let resp := { req with response := true }
    let rr :=
      if staticType q = typeA then (to4 ip).bind (lib.newA q.name 300)
      else if to4 ip = none then lib.newAAAA q.name 300 ip
      else none
    match rr with
    | none => some resp
    | some rr => some { resp with answer := [rr] }

/-- `staticAnswer`; `none` where the query is not served statically. -/
def staticAnswer (req : Msg) (q : Question) : Handler (Option Msg) :=
  if q.qclass ≠ classINET then pure none
  else if staticType q ≠ typeA ∧ staticType q ≠ typeAAAA then pure none
  else do
    let static ← loadStatic
    pure (staticReply uc lib static req q)

/-- The switch of `handleVia` on the type of the query, with the mark of a reply
that is relayed as it is. -/
def dispatch (r : Request M) (q : Question) (z : Zone) (server : String) (via : Via) :
    M (Option Msg × Bool) := do
  let req ← r.load
  if q.qclass ≠ classINET then
    pure (← passThrough r server via, false)
  else if q.qtype = typeAAAA then
    if dnssecValidatingClient lib req then pure (← passThrough r server via, true)
    else pure (← handleAAAA uc lib r q z server via, false)
  else if q.qtype = typeANY then
    if dnssecValidatingClient lib req then pure (← passThrough r server via, true)
    else
      let resp ← handleAAAA uc lib r { q with qtype := typeAAAA } z server via
      pure (resp.map fun resp => resp.setQtype typeANY, false)
  else if q.qtype = typeA then pure (← handleA uc lib r q z server via, false)
  else if q.qtype = typePTR then pure (← handlePTR uc lib r q server via, false)
  else pure (← passThrough r server via, false)

/-- The end of `handleVia`. -/
def finish (req : Msg) (proxied : Bool) : Option Msg → Msg
  | none => lib.setRcode req rcodeServerFailure
  | some resp =>
    { resp with
      recursionAvailable := true
      authenticatedData := proxied && resp.authenticatedData }

theorem finish_none (req : Msg) (proxied : Bool) :
    finish lib req proxied none = req.emptyReply rcodeServerFailure :=
  lib.setRcode_eq _ _

/-- `handleVia`. -/
def handleVia (r : Request M) (via : Via) : M Msg := do
  match (← r.load).question with
  | [] => pure (lib.setRcode (← r.load) rcodeFormatError)
  | q :: _ =>
    match ← staticAnswer uc lib (← r.load) q with
    | some resp => pure { resp with recursionAvailable := true, authenticatedData := false }
    | none =>
      let cfg ← loadConfig
      match matchZone uc cfg.zones (toLower uc q.name) with
      | none => pure (lib.setRcode (← r.load) rcodeNameError)
      | some z =>
        if z.blocked then pure (lib.setRcode (← r.load) rcodeNameError)
        else
          let server ← getForwarder z
          let (resp, proxied) ← dispatch uc lib r q z server via
          pure (finish lib (← r.load) proxied resp)

theorem handleVia_of_nil {req : Msg} (hq : req.question = []) (via : Via) :
    (handleVia uc lib req via : Handler Msg) = .ret (req.emptyReply rcodeFormatError) := by
  simp only [handleVia, Request.load_value_bind]
  rw [hq, ← lib.setRcode_eq]
  rfl

end Handlers

end Ydn64.Dns64
