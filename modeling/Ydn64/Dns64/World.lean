import Ydn64.Dns64.Proxy

/-!
# Queries one after the other

The proxy with its shared objects, when one query runs at a time.  `proxyStep`
carries out the operations of a handler: a load answers what is installed, the
cache is the one of `Ydn64.Dns64.Cache`, and a forwarder answers what the label
says, if the network `net` allows it.  `ProxyState.log` and `ProxyState.origins`
are histories that the code does not keep: the exchanges of the query, and for a
key of the cache the exchanges that its last `set` came after.

Each operation has a rule that computes the weakest precondition of its call.
From them come the specifications that the later modules use.

* `ends_lookup`: a lookup changes nothing but the health record and the log, and
  what it answers is the reply of the forwarder under the client's ID and name.
* `ends_filterAAAA` and `ends_synthesiseFromA`: under one configuration the two
  loops are a filter and a map over the records, `kept` and `synthesised`.
* `ends_handleVia`: a static answer, no zone, or the handler of the query type
  with the zone and the forwarder of the configuration.
-/

namespace Ydn64.Dns64

open Ydn64.GoStd Ydn64.Config Ydn64.Lib
open Ydn64.Nat64 (second)

/-! ## The 0x20 health record -/

/-- `x20State`; `none` is the zero time, before every other. -/
structure X20State where
  strikes : Nat := 0
  disabledUntil : Option Int := none
  deriving DecidableEq, Repr

def x20MaxConsecutiveFailures : Nat := 3

def x20DisableDuration : Int := 60 * second

/-- `x20State.active`. -/
def X20State.active (s : X20State) (now : Int) : Bool :=
  match s.disabledUntil with
  | none => true
  | some until' => until' < now

/-- `x20State.record`. -/
def X20State.record (s : X20State) (ok : Bool) (now : Int) : X20State :=
  if ok then { s with strikes := 0 }
  else if x20MaxConsecutiveFailures ≤ s.strikes + 1 then
    ⟨0, some (now + x20DisableDuration)⟩
  else { s with strikes := s.strikes + 1 }

/-- The other case of an ASCII letter. -/
def flipCase (c : Char) : Char :=
  if 'a' ≤ c ∧ c ≤ 'z' then Char.ofNat (c.toNat - 32)
  else if 'A' ≤ c ∧ c ≤ 'Z' then Char.ofNat (c.toNat + 32)
  else c

/-- `randomizeNameCase`, with the coins that it throws. -/
def flipName (name : String) (flips : List Bool) : String :=
  String.ofList (name.toList.zipIdx.map fun ci =>
    if flips.getD ci.2 false then flipCase ci.1 else ci.1)

theorem flipName_nil (name : String) : flipName name [] = name := by
  simp [flipName, List.zipIdx_map_fst]

/-! ## The state and its operations -/

/-- One exchange with a forwarder. -/
structure Exchanged where
  server : String
  req : Msg
  via : Via
  reply : Reply
  deriving DecidableEq

/-- The objects that the handlers share, and the two histories. -/
structure ProxyState where
  cfg : ProxyConfig
  static : SyncMap String IP
  cache : Cache
  x20 : SyncMap String X20State := ∅
  log : List Exchanged := []
  origins : SyncMap CacheKey (List Exchanged) := ∅

/-- A proxy that has just been built, without static entries. -/
def ProxyState.new (cfg : ProxyConfig) (settings : CacheSettings) : ProxyState where
  cfg := cfg
  static := ∅
  cache := .new settings

/-- `x20StateFor`. -/
def ProxyState.x20StateFor (s : ProxyState) (server : String) : X20State :=
  (s.x20.lookup server).getD {}

/-- What the code does not determine: the clock, the random choices, the entry
that an eviction takes and the reply of a forwarder. -/
structure Chance where
  now : Int := 0
  now' : Int := 0
  id : UInt16 := 0
  flips : List Bool := []
  victim : CacheKey := ⟨"", 0⟩
  reply : Reply := .failed none

/-- Which replies a forwarder may give. -/
abbrev Network := String → Msg → Via → Reply → Bool

/-- Forwarders that answer anything. -/
def anyReply : Network := fun _ _ _ _ => true

/-- One operation of a handler. -/
def proxyStep (net : Network) (s : ProxyState) :
    (op : ProxyOp) → Chance → Option (op.Ans × ProxyState)
  | .loadConfig, _ => some (s.cfg, s)
  | .loadStatic, _ => some (s.static, s)
  | .cacheGet k, c => some (s.cache.get k c.now, s)
  | .cacheSet k rrs, c =>
    (s.cache.set k rrs c.now c.now' c.victim).map fun cache =>
      ((), { s with cache, origins := s.origins.insert k s.log })
  | .drawId, c => some (c.id, s)
  | .x20Active server, c => some ((s.x20StateFor server).active c.now, s)
  | .x20Record server ok, c =>
    some ((), { s with x20 := s.x20.insert server ((s.x20StateFor server).record ok c.now) })
  | .randomizeNameCase name, c => some (flipName name c.flips, s)
  | .exchange server req via, c =>
    if net server req via c.reply then
      some (c.reply, { s with log := s.log ++ [⟨server, req, via, c.reply⟩] })
    else none
  | .panic, _ => none

section Rules

variable {net : Network} {α : Type} {s : ProxyState}

/-- A query handler from `s` ends in `Q`. -/
abbrev Ends (net : Network) (Q : α → ProxyState → Prop) (p : Handler α) (s : ProxyState) : Prop :=
  Prog.wp (proxyStep net) Q p s

@[simp] theorem ends_pure {Q : α → ProxyState → Prop} {a : α} :
    Ends net Q (pure a) s ↔ Q a s :=
  Iff.rfl

theorem ends_bind {β : Type} {Q : β → ProxyState → Prop} {p : Handler α} {f : α → Handler β} :
    Ends net Q (p >>= f) s ↔ Ends net (fun a => Ends net Q (f a)) p s :=
  Prog.wp_bind

@[simp] theorem ends_loadConfig {Q : ProxyConfig → ProxyState → Prop} :
    Ends net Q loadConfig s ↔ Q s.cfg s := by
  constructor
  · intro h
    exact h {} _ rfl
  · intro h c r hr
    obtain rfl := Option.some.inj hr
    exact h

@[simp] theorem ends_loadStatic {Q : SyncMap String IP → ProxyState → Prop} :
    Ends net Q loadStatic s ↔ Q s.static s := by
  constructor
  · intro h
    exact h {} _ rfl
  · intro h c r hr
    obtain rfl := Option.some.inj hr
    exact h

theorem ends_cacheGet {k : CacheKey} {Q : Option (List RR) → ProxyState → Prop} :
    Ends net Q (cacheGet k) s ↔ ∀ now, Q (s.cache.get k now) s := by
  constructor
  · intro h now
    exact h { now } _ rfl
  · intro h c r hr
    obtain rfl := Option.some.inj hr
    exact h c.now

theorem ends_cacheSet {k : CacheKey} {rrs : List RR} {Q : Unit → ProxyState → Prop}
    (h : ∀ now now' victim cache, s.cache.set k rrs now now' victim = some cache →
      Q () { s with cache, origins := s.origins.insert k s.log }) :
    Ends net Q (cacheSet k rrs) s := by
  intro c r hr
  obtain ⟨cache, hset, rfl⟩ := Option.map_eq_some_iff.1 hr
  exact h c.now c.now' c.victim cache hset

theorem ends_drawId {Q : UInt16 → ProxyState → Prop} (h : ∀ id, Q id s) :
    Ends net Q drawId s := by
  intro c r hr
  obtain rfl := Option.some.inj hr
  exact h c.id

theorem ends_lookupUpstream {server : String} {req : Msg} {via : Via}
    {Q : Reply → ProxyState → Prop}
    (h : ∀ reply, net server req via reply = true →
      Q reply { s with log := s.log ++ [⟨server, req, via, reply⟩] }) :
    Ends net Q (lookupUpstream server req via) s := by
  intro c r hr
  simp only [proxyStep] at hr
  split_ifs at hr with hnet
  obtain rfl := Option.some.inj hr
  exact h c.reply hnet

theorem ends_x20Active {server : String} {Q : Bool → ProxyState → Prop} (h : ∀ b, Q b s) :
    Ends net Q (x20Active server) s := by
  intro c r hr
  obtain rfl := Option.some.inj hr
  exact h _

theorem ends_randomizeNameCase {name : String} {Q : String → ProxyState → Prop}
    (h : ∀ flips, Q (flipName name flips) s) : Ends net Q (randomizeNameCase name) s := by
  intro c r hr
  obtain rfl := Option.some.inj hr
  exact h c.flips

theorem ends_x20Record {server : String} {ok : Bool} {Q : Unit → ProxyState → Prop}
    (h : ∀ x20, Q () { s with x20 }) : Ends net Q (x20Record server ok) s := by
  intro c r hr
  obtain rfl := Option.some.inj hr
  exact h _

/-- The name that goes out is a spelling of the client's, and the client's own
where no echo is asked for. -/
theorem ends_sentName {server : String} {req : Msg} {Q : String × Bool → ProxyState → Prop}
    (h : ∀ flips check, (check = false → flips = []) → Q (flipName req.qname flips, check) s) :
    Ends net Q (sentName server req) s := by
  have hplain : Q (req.qname, false) s := by
    have := h [] false fun _ => rfl
    rwa [flipName_nil] at this
  unfold sentName
  split_ifs with hq
  · exact hplain
  · refine ends_bind.2 (ends_x20Active fun active => ?_)
    split_ifs
    · refine ends_bind.2 (ends_randomizeNameCase fun flips => ?_)
      exact h flips true fun hc => by cases hc
    · exact hplain

/-! ## Lookups -/

/-- The message of a reply. -/
def Reply.msg? : Reply → Option Msg
  | .ok resp => some resp
  | .failed _ => none

/-- The reply that a lookup goes by: of two exchanges the second one, over TCP,
if it brought a complete message. -/
def usedReply : List Exchanged → Option Msg
  | [] => none
  | [e] => e.reply.msg?
  | e :: e' :: _ =>
    match e'.reply with
    | .ok full => if full.truncated then e.reply.msg? else some full
    | .failed _ => e.reply.msg?

/-- The request as it goes out: under another ID and in another spelling. -/
def Msg.respelled (req : Msg) (id : UInt16) (flips : List Bool) : Msg :=
  { req with id }.setQname (flipName req.qname flips)

/-- The message under the ID and the question of a request. -/
def Msg.replyTo (m req : Msg) : Msg := { m with id := req.id, question := req.question }

/-- What a lookup makes of its exchanges: each is with the forwarder, for some
spelling of the request, and the answer is the reply under the ID of the
request.  If the forwarder echoes the question, a reply is never refused. -/
structure LookedUp (net : Network) (server : String) (req : Msg) (es : List Exchanged)
    (r : Option Msg) : Prop where
  sent : ∀ e ∈ es, e.server = server ∧ (∃ id flips, e.req = req.respelled id flips) ∧
    net e.server e.req e.via e.reply = true
  used : ∀ m, r = some m → ∃ m', usedReply es = some m' ∧
    m = { m' with id := req.id, question := m.question }
  echoed : (∀ e ∈ es, ∀ m, e.reply.msg? = some m → m.question = e.req.question) →
    r = (usedReply es).map fun m => m.replyTo req
  ne_nil : es ≠ []

/-- A lookup leaves all but the health record and the log. -/
structure Looked (net : Network) (s : ProxyState) (server : String) (req : Msg)
    (r : Option Msg) (s' : ProxyState) : Prop where
  cfg : s'.cfg = s.cfg
  static : s'.static = s.static
  cache : s'.cache = s.cache
  origins : s'.origins = s.origins
  log : ∃ es, s'.log = s.log ++ es ∧ LookedUp net server req es r

theorem ends_retryTCP {server : String} {sent : Msg} {via : Via} {e : Exchanged}
    {Q : Reply → ProxyState → Prop}
    (h : ∀ es, (∀ e' ∈ es, e'.server = server ∧ e'.req = sent ∧
        net e'.server e'.req e'.via e'.reply = true) →
      ∀ reply, reply.msg? = usedReply (e :: es) → Q reply { s with log := s.log ++ es }) :
    Ends net Q (retryTCP server sent via e.reply) s := by
  have hnone : ∀ reply, reply.msg? = e.reply.msg? → Q reply s := by
    intro reply hr
    have := h [] (by simp) reply hr
    simpa using this
  unfold retryTCP
  cases hfirst : e.reply with
  | failed part => exact hnone _ (by rw [hfirst])
  | ok resp =>
    rw [hfirst] at hnone
    dsimp only
    split_ifs with htc
    · refine ends_bind.2 (ends_lookupUpstream fun reply hnet => ?_)
      have hes := h [⟨server, sent, .tcp, reply⟩] (by simpa using hnet)
      cases reply with
      | failed part => exact hes _ (by rw [usedReply, hfirst])
      | ok full =>
        refine hes _ ?_
        simp only [usedReply, hfirst]
        split_ifs <;> rfl
    · exact hnone _ rfl

theorem usedReply_mem {es : List Exchanged} (h : es ≠ []) :
    ∃ e ∈ es, usedReply es = e.reply.msg? := by
  match es with
  | [] => exact absurd rfl h
  | [e] => exact ⟨e, List.mem_singleton_self e, rfl⟩
  | e :: e' :: es =>
    have hfst : e ∈ e :: e' :: es := List.mem_cons_self
    simp only [usedReply]
    split
    next full hfull =>
      split_ifs
      · exact ⟨e, hfst, rfl⟩
      · refine ⟨e', List.mem_cons_of_mem e List.mem_cons_self, ?_⟩
        rw [hfull, Reply.msg?]
    next => exact ⟨e, hfst, rfl⟩

theorem Msg.setQname_eq (m : Msg) (name : String) :
    m.setQname name = { m with question := (m.setQname name).question } := by
  unfold Msg.setQname
  split <;> rfl

/-- The name of the request turns the question as it was sent into that of the
request. -/
theorem Msg.setQname_of_respelled {req m : Msg} {id : UInt16} {flips : List Bool}
    (h : m.question = (req.respelled id flips).question) :
    (m.setQname req.qname).question = req.question := by
  unfold Msg.respelled Msg.setQname at h
  unfold Msg.setQname Msg.qname
  cases hq : req.question with
  | nil => simp_all
  | cons q qs => simp_all

theorem echoes_of_respelled {req m : Msg} {id : UInt16} {flips : List Bool}
    (h : m.question = (req.respelled id flips).question) :
    echoes m (flipName req.qname flips) = true := by
  unfold Msg.respelled Msg.setQname at h
  unfold echoes Msg.qname
  cases hq : req.question with
  | nil => simp_all
  | cons q qs => simp_all [Msg.qname]

theorem Msg.respelled_nil_question (req : Msg) (id : UInt16) :
    (req.respelled id []).question = req.question := by
  unfold Msg.respelled Msg.setQname Msg.qname
  rw [flipName_nil]
  cases hq : req.question with
  | nil => simp
  | cons q qs => simp

/-- What `lookup` makes of the message of a reply. -/
def accepted (req : Msg) (name : String) (check : Bool) (m : Msg) : Option Msg :=
  if check then
    if echoes m name then some ({ m with id := req.id }.setQname req.qname) else none
  else some { m with id := req.id }

theorem ends_acceptReply {server : String} {req : Msg} {name : String} {check : Bool}
    {reply : Reply} {Q : Option Msg → ProxyState → Prop}
    (h : ∀ x20, Q (reply.msg?.bind (accepted req name check)) { s with x20 }) :
    Ends net Q (acceptReply server req name check reply) s := by
  cases reply with
  | failed part =>
    cases part with
    | none => exact h s.x20
    | some part =>
      unfold acceptReply
      split_ifs
      · exact ends_bind.2 (ends_x20Record h)
      · exact h s.x20
  | ok resp =>
    unfold acceptReply
    cases check with
    | true => exact ends_bind.2 (ends_x20Record h)
    | false => exact h s.x20

theorem accepted_eq {req m m' : Msg} {name : String} {check : Bool}
    (h : accepted req name check m' = some m) :
    m = { m' with id := req.id, question := m.question } := by
  unfold accepted at h
  split_ifs at h
  · obtain rfl := Option.some.inj h
    exact Msg.setQname_eq _ _
  · obtain rfl := Option.some.inj h
    rfl

/-- The echo of the question that was sent is accepted under the question of the
request. -/
theorem accepted_of_respelled {req m : Msg} {id : UInt16} {flips : List Bool} {check : Bool}
    (hcheck : check = false → flips = [])
    (h : m.question = (req.respelled id flips).question) :
    accepted req (flipName req.qname flips) check m = some (m.replyTo req) := by
  unfold accepted Msg.replyTo
  cases check with
  | false =>
    rw [hcheck rfl, Msg.respelled_nil_question] at h
    rw [if_neg Bool.false_ne_true, ← h]
  | true =>
    have hname : ({ m with id := req.id }.setQname req.qname).question = req.question :=
      Msg.setQname_of_respelled (m := { m with id := req.id }) h
    rw [if_pos rfl, if_pos (echoes_of_respelled h), Msg.setQname_eq, hname]

theorem lookedUp_accepted {server : String} {req : Msg} {es : List Exchanged} {id : UInt16}
    {flips : List Bool} {check : Bool} (hcheck : check = false → flips = [])
    (hsent : ∀ e ∈ es, e.server = server ∧ e.req = req.respelled id flips ∧
      net e.server e.req e.via e.reply = true) (hes : es ≠ []) :
    LookedUp net server req es
      ((usedReply es).bind (accepted req (flipName req.qname flips) check)) where
  sent := by
    intro e he
    obtain ⟨hserver, hreq, hnet⟩ := hsent e he
    exact ⟨hserver, ⟨id, flips, hreq⟩, hnet⟩
  used := by
    intro m hm
    obtain ⟨m', hused, hm'⟩ := Option.bind_eq_some_iff.1 hm
    exact ⟨m', hused, accepted_eq hm'⟩
  echoed := by
    intro hecho
    cases hused : usedReply es with
    | none => rfl
    | some m =>
      -- A forwarder that echoes the question echoes the name that was sent.
      obtain ⟨e, he, hm⟩ := usedReply_mem hes
      have hquestion : m.question = (req.respelled id flips).question := by
        rw [hecho e he m (hm.symm.trans hused), (hsent e he).2.1]
      exact accepted_of_respelled hcheck hquestion
  ne_nil := hes

/-- A lookup makes one or two exchanges for one spelling of the request, and its
answer is what it accepts of the reply that it goes by. -/
theorem ends_lookup_of {server : String} {req : Msg} {via : Via}
    {Q : Option Msg → ProxyState → Prop}
    (h : ∀ id flips check es x20, (check = false → flips = []) →
      (∀ e ∈ es, e.server = server ∧ e.req = req.respelled id flips ∧
        net e.server e.req e.via e.reply = true) → es ≠ [] →
      Q ((usedReply es).bind (accepted req (flipName req.qname flips) check))
        { s with x20, log := s.log ++ es }) :
    Ends net Q (lookup server req via) s := by
  unfold lookup
  refine ends_bind.2 (ends_drawId fun id => ?_)
  refine ends_bind.2 (ends_sentName fun flips check hcheck => ?_)
  dsimp only
  refine ends_bind.2 (ends_lookupUpstream fun first hnet => ?_)
  refine ends_bind.2 (ends_retryTCP
    (e := ⟨server, req.respelled id flips, via, first⟩) fun es hes reply hmsg => ?_)
  have hsent : ∀ e ∈ ⟨server, req.respelled id flips, via, first⟩ :: es, e.server = server ∧
      e.req = req.respelled id flips ∧ net e.server e.req e.via e.reply = true := by
    intro e he
    rcases List.mem_cons.1 he with rfl | he
    · exact ⟨rfl, rfl, hnet⟩
    · exact hes e he
  refine ends_acceptReply fun x20 => ?_
  rw [hmsg, List.append_assoc]
  exact h id flips check _ x20 hcheck hsent (List.cons_ne_nil _ es)

theorem ends_lookup (server : String) (req : Msg) (via : Via) :
    Ends net (Looked net s server req) (lookup server req via) s :=
  ends_lookup_of fun _ _ _ es _ hcheck hsent hes =>
    ⟨rfl, rfl, rfl, rfl, es, rfl, lookedUp_accepted hcheck hsent hes⟩

/-! ## The loops under one configuration -/

/-- Whether a record of the AAAA reply survives `filterAAAA`. -/
def kept (cfg : ProxyConfig) (z : Zone) (rr : RR) : Bool :=
  !excluded cfg.excludedAAAANets rr &&
    match rr.aaaa? with
    | none => true
    | some ip => if isUnspecified ip then cfg.ia = .process else z.returnIPv6Addresses

theorem ends_dropExcludedAAAA {rrs : List RR} {Q : List RR → ProxyState → Prop} :
    Ends net Q (dropExcludedAAAA rrs) s ↔
      Q (rrs.filter fun rr => !excluded s.cfg.excludedAAAANets rr) s := by
  unfold dropExcludedAAAA
  rw [ends_bind, ends_loadConfig, ends_pure]

theorem ends_keepAAAA {z : Zone} {rr : RR} {Q : Bool → ProxyState → Prop}
    (hrr : excluded s.cfg.excludedAAAANets rr = false) :
    Ends net Q (keepAAAA z rr) s ↔ Q (kept s.cfg z rr) s := by
  unfold keepAAAA kept
  rw [hrr]
  cases rr.aaaa? with
  | none => exact Iff.rfl
  | some ip =>
    dsimp only
    split_ifs
    · rw [ends_bind, ends_loadConfig]
      simp
    · simp

theorem ends_filterLoop {z : Zone} {rrs : List RR} {Q : List RR → ProxyState → Prop}
    (hrrs : ∀ rr ∈ rrs, excluded s.cfg.excludedAAAANets rr = false) :
    Ends net Q (filterLoop z rrs) s ↔ Q (rrs.filter (kept s.cfg z)) s := by
  induction rrs generalizing Q with
  | nil => exact Iff.rfl
  | cons rr rrs ih =>
    rw [filterLoop, ends_bind, ends_keepAAAA (hrrs rr List.mem_cons_self), ends_bind,
      ih fun rr' hrr' => hrrs rr' (List.mem_cons_of_mem rr hrr'), List.filter_cons, ends_pure]

theorem ends_filterAAAA {z : Zone} {rrs : List RR} {Q : List RR → ProxyState → Prop} :
    Ends net Q (filterAAAA rrs z) s ↔ Q (rrs.filter (kept s.cfg z)) s := by
  have hfilter : (rrs.filter fun rr => !excluded s.cfg.excludedAAAANets rr).filter (kept s.cfg z)
      = rrs.filter (kept s.cfg z) := by
    rw [List.filter_filter]
    apply List.filter_congr
    intro rr _
    unfold kept
    cases excluded s.cfg.excludedAAAANets rr <;> simp
  rw [filterAAAA, ends_bind, ends_dropExcludedAAAA, ends_filterLoop, hfilter]
  intro rr hrr
  simpa using (List.mem_filter.1 hrr).2

/-- The AAAA record for the address of an A record that is not dropped as
unspecified. -/
def synthesisedAddr (lib : DnsLib) (cfg : ProxyConfig) (pref : Pref64) (name : String)
    (ttl : UInt32) (ipv4 : IP) : Option RR :=
  if anyContains cfg.ignoredDstNets ipv4 then none
  else (to4 ipv4).bind fun v4 =>
    lib.newAAAA name ttl (pref.embed (List.Vector.ofFn fun i => v4.getD i 0)).toList

/-- The AAAA record that `synthesiseFromA` makes of a record, if it makes one. -/
def synthesised (lib : DnsLib) (cfg : ProxyConfig) (fallbackName : String) (pref : Pref64)
    (maxTTL : UInt32) (rr : RR) : Option RR :=
  match rr.a? with
  | none => none
  | some ipv4 =>
    let name := if rr.name = "" then fallbackName else rr.name
    let ttl := if maxTTL < rr.ttl then maxTTL else rr.ttl
    if isUnspecified ipv4 then
      match cfg.ia with
      | .discard => none
      | .process => lib.newAAAA name ttl (.replicate 16 0)
      | .ignore => synthesisedAddr lib cfg pref name ttl ipv4
    else synthesisedAddr lib cfg pref name ttl ipv4

theorem synthesisedAddr_eq_some {lib : DnsLib} {cfg : ProxyConfig} {pref : Pref64}
    {name : String} {ttl : UInt32} {ipv4 : IP} {rr : RR}
    (h : synthesisedAddr lib cfg pref name ttl ipv4 = some rr) :
    anyContains cfg.ignoredDstNets ipv4 = false ∧ ∃ v : Addr4, to4 ipv4 = some v.toList ∧
      rr = ⟨name, classINET, ttl, .aaaa (pref.embed v).toList⟩ := by
  unfold synthesisedAddr at h
  split_ifs at h with hignored
  obtain ⟨v4, hv4, hnew⟩ := Option.bind_eq_some_iff.1 h
  have hv : (List.Vector.ofFn fun i : Fin 4 => v4.getD i 0) = ⟨v4, to4_length hv4⟩ := by
    obtain ⟨a, b, c, d, rfl⟩ := List.length_eq_four.1 (to4_length hv4)
    rfl
  rw [hv] at hnew
  exact ⟨by simpa using hignored, ⟨v4, to4_length hv4⟩, hv4, (lib.newAAAA_eq_some hnew).symm⟩

/-- A synthesised record comes from an A record, with its TTL or the bound if
that is smaller.  Its address is the unspecified one under `process`, or the
embedding of an address that is not ignored. -/
theorem synthesised_eq_some {lib : DnsLib} {cfg : ProxyConfig} {fallbackName : String}
    {pref : Pref64} {maxTTL : UInt32} {rr rr' : RR}
    (h : synthesised lib cfg fallbackName pref maxTTL rr = some rr') :
    ∃ addr ip, rr.a? = some addr ∧ rr'.data = .aaaa ip ∧
      rr'.ttl = (if maxTTL < rr.ttl then maxTTL else rr.ttl) ∧
      (cfg.ia = .process ∧ ip = List.replicate 16 0 ∨
        anyContains cfg.ignoredDstNets addr = false ∧ ∃ v : Addr4, to4 addr = some v.toList ∧
          ip = (pref.embed v).toList) := by
  unfold synthesised at h
  cases ha : rr.a? with
  | none =>
    rw [ha] at h
    cases h
  | some addr =>
    rw [ha] at h
    dsimp only at h
    refine ⟨addr, ?_⟩
    generalize (if rr.name = "" then fallbackName else rr.name) = name at h
    generalize (if maxTTL < rr.ttl then maxTTL else rr.ttl) = ttl at h
    have haddr : synthesisedAddr lib cfg pref name ttl addr = some rr' →
        ∃ ip, some addr = some addr ∧ rr'.data = .aaaa ip ∧ rr'.ttl = ttl ∧
          (cfg.ia = .process ∧ ip = List.replicate 16 0 ∨
            anyContains cfg.ignoredDstNets addr = false ∧ ∃ v : Addr4,
              to4 addr = some v.toList ∧ ip = (pref.embed v).toList) := by
      intro haddr
      obtain ⟨hignored, v, hv, rfl⟩ := synthesisedAddr_eq_some haddr
      exact ⟨_, rfl, rfl, rfl, .inr ⟨hignored, v, hv, rfl⟩⟩
    split_ifs at h with hun
    · cases hia : cfg.ia with
      | discard =>
        rw [hia] at h
        cases h
      | process =>
        rw [hia] at h
        obtain rfl := lib.newAAAA_eq_some h
        exact ⟨_, rfl, rfl, rfl, .inl ⟨rfl, rfl⟩⟩
      | ignore =>
        rw [hia] at h haddr
        exact haddr h
    · exact haddr h

/-- `Embed` is called for an address that it has no four bytes of. -/
def embedPanics (cfg : ProxyConfig) (ipv4 : IP) : Bool :=
  !anyContains cfg.ignoredDstNets ipv4 && (to4 ipv4).isNone

/-- The turn of the loop for a record panics. -/
def synthesisPanics (cfg : ProxyConfig) (rr : RR) : Bool :=
  match rr.a? with
  | none => false
  | some ipv4 => (!isUnspecified ipv4 || cfg.ia = .ignore) && embedPanics cfg ipv4

section Synthesis

variable {lib : DnsLib} {pref : Pref64} {ttl : UInt32}

/-- A run that gets past the synthesis has an address to embed. -/
theorem ends_synthesiseAddr {name : String} {ipv4 : IP} {Q : Option RR → ProxyState → Prop}
    (h : embedPanics s.cfg ipv4 = false → Q (synthesisedAddr lib s.cfg pref name ttl ipv4) s) :
    Ends net Q (synthesiseAddr lib pref name ttl ipv4) s := by
  unfold synthesiseAddr isIgnoredDst
  unfold synthesisedAddr embedPanics at h
  rw [ends_bind, ends_bind, ends_loadConfig, ends_pure]
  cases hig : anyContains s.cfg.ignoredDstNets ipv4 with
  | true =>
    rw [hig, if_pos rfl] at h
    exact h rfl
  | false =>
    rw [hig, if_neg Bool.false_ne_true] at h
    rw [if_neg Bool.false_ne_true, ends_bind]
    unfold makeSynthesisedAAAA
    cases hv4 : to4 ipv4 with
    | none =>
      intro c r hr
      cases hr
    | some v4 =>
      rw [hv4] at h
      exact h rfl

theorem ends_synthesiseOne {fallbackName : String} {rr : RR} {Q : Option RR → ProxyState → Prop}
    (h : synthesisPanics s.cfg rr = false →
      Q (synthesised lib s.cfg fallbackName pref ttl rr) s) :
    Ends net Q (synthesiseOne lib fallbackName pref ttl rr) s := by
  unfold synthesiseOne
  unfold synthesised synthesisPanics at h
  cases hrr : rr.a? with
  | none =>
    rw [hrr] at h
    exact h rfl
  | some ipv4 =>
    rw [hrr] at h
    dsimp only at h ⊢
    generalize (if rr.name = "" then fallbackName else rr.name) = name at h ⊢
    generalize (if ttl < rr.ttl then ttl else rr.ttl) = ttl' at h ⊢
    split_ifs at h ⊢ with hun
    · rw [ends_bind, ends_loadConfig]
      cases hia : s.cfg.ia with
      | discard =>
        rw [hia] at h
        exact h (by simp [hun])
      | process =>
        rw [hia] at h
        exact h (by simp [hun])
      | ignore =>
        rw [hia] at h
        exact ends_synthesiseAddr fun hp => h (by simp [hp])
    · exact ends_synthesiseAddr fun hp => h (by simp [hp])

theorem ends_synthesiseFromA {fallbackName : String} {rrs : List RR}
    {Q : List RR → ProxyState → Prop}
    (h : rrs.any (synthesisPanics s.cfg) = false →
      Q (rrs.filterMap (synthesised lib s.cfg fallbackName pref ttl)) s) :
    Ends net Q (synthesiseFromA lib fallbackName pref ttl rrs) s := by
  induction rrs generalizing Q with
  | nil => exact h rfl
  | cons rr rrs ih =>
    rw [synthesiseFromA, ends_bind]
    refine ends_synthesiseOne fun hrr => ?_
    rw [ends_bind]
    refine ih fun hrrs => ?_
    have hall := h (by rw [List.any_cons, hrr, hrrs]; rfl)
    rw [List.filterMap_cons] at hall
    cases hsynth : synthesised lib s.cfg fallbackName pref ttl rr with
    | none =>
      rw [hsynth] at hall
      exact hall
    | some rr' =>
      rw [hsynth] at hall
      exact hall

end Synthesis

/-! ## The front of a query -/

section Front

variable {uc : UnicodeCase} {lib : DnsLib} {req : Msg} {q : Question} {via : Via}

/-- The static answer to a query, if it has one. -/
def staticFor (uc : UnicodeCase) (lib : DnsLib) (static : SyncMap String IP) (req : Msg)
    (q : Question) : Option Msg :=
  if q.qclass ≠ classINET then none
  else if staticType q ≠ typeA ∧ staticType q ≠ typeAAAA then none
  else staticReply uc lib static req q

theorem staticFor_eq_none_iff {static : SyncMap String IP} (hclass : q.qclass = classINET) :
    staticFor uc lib static req q = none ↔
      (staticType q ≠ typeA ∧ staticType q ≠ typeAAAA) ∨
        static.lookup (staticKey uc q.name) = none := by
  unfold staticFor
  rw [if_neg (not_not.2 hclass)]
  split_ifs with htype
  · exact iff_of_true rfl (.inl htype)
  · rw [or_iff_right htype, staticReply]
    cases static.lookup (staticKey uc q.name) with
    | none => exact iff_of_true rfl rfl
    | some ip =>
      refine iff_of_false ?_ (Option.some_ne_none ip)
      dsimp only
      split <;> exact Option.some_ne_none _

/-- The IPv4 address whose PTR records stand for those of the name, if the name
is that of a pool address. -/
def reversedFor (uc : UnicodeCase) (cfg : ProxyConfig) (name : String) : Option Addr4 :=
  (ptrToIPv6 uc name).bind fun ip6 =>
    cfg.zones.findSome? fun z => z.pref.bind fun pref => pref.extract ip6

theorem ends_reversePTR {name : String} {Q : Option Addr4 → ProxyState → Prop} :
    Ends net Q (reversePTR uc name) s ↔ Q (reversedFor uc s.cfg name) s := by
  unfold reversePTR reversedFor
  cases ptrToIPv6 uc name with
  | none => exact Iff.rfl
  | some ip6 => rw [ends_bind, ends_loadConfig, ends_pure, Option.bind_some]

/-- The zone that serves a name; a blocked zone serves none. -/
def zoneFor (uc : UnicodeCase) (cfg : ProxyConfig) (name : String) : Option Zone :=
  (matchZone uc cfg.zones (toLower uc name)).filter fun z => !z.blocked

theorem zoneFor_eq_some {uc : UnicodeCase} {cfg : ProxyConfig} {name : String} {z : Zone}
    (hz : matchZone uc cfg.zones (toLower uc name) = some z) (hb : ¬ z.blocked = true) :
    zoneFor uc cfg name = some z := by
  rw [zoneFor, hz, Option.filter_some, if_pos (by simpa using hb)]

/-- The forwarder of a zone. -/
def serverFor (cfg : ProxyConfig) (z : Zone) : String :=
  if z.forwarder ≠ "" then z.forwarder else cfg.defaultForward

theorem ends_staticAnswer {Q : Option Msg → ProxyState → Prop} :
    Ends net Q (staticAnswer uc lib req q) s ↔ Q (staticFor uc lib s.static req q) s := by
  unfold staticAnswer staticFor
  split_ifs with hclass htype
  · exact Iff.rfl
  · exact Iff.rfl
  · rw [ends_bind, ends_loadStatic, ends_pure]

theorem ends_getForwarder {z : Zone} {Q : String → ProxyState → Prop} :
    Ends net Q (getForwarder z) s ↔ Q (serverFor s.cfg z) s := by
  unfold getForwarder serverFor
  split_ifs
  · exact Iff.rfl
  · rw [ends_bind, ends_loadConfig, ends_pure]

/-- A query for AAAA or any records of another class, or of a validating client, is
relayed; the reply to a validating client is marked. -/
theorem dispatch_relayed {z : Zone} {server : String}
    (htype : q.qtype = typeAAAA ∨ q.qtype = typeANY)
    (hrelay : ¬(q.qclass = classINET ∧ req.validates = false)) :
    (dispatch uc lib req q z server via : Handler _) =
      passThrough req server via >>= fun r => pure (r, decide (q.qclass = classINET)) := by
  simp only [dispatch, Request.load_value_bind]
  by_cases hclass : q.qclass = classINET
  · have hval : req.validates = true := by
      simpa [hclass] using hrelay
    rw [if_neg (not_not.2 hclass), dnssecValidatingClient_eq, hval, decide_eq_true hclass]
    rcases htype with ht | ht
    · rw [if_pos ht, if_pos rfl]
    · rw [if_neg (by rw [ht]; decide), if_pos ht, if_pos rfl]
  · rw [if_pos hclass, decide_eq_false hclass]

theorem ends_handleVia {qs : List Question} (hq : req.question = q :: qs)
    {Q : Msg → ProxyState → Prop}
    (hstatic : ∀ resp, staticFor uc lib s.static req q = some resp →
      Q { resp with recursionAvailable := true, authenticatedData := false } s)
    (hnone : staticFor uc lib s.static req q = none → zoneFor uc s.cfg q.name = none →
      Q (req.emptyReply rcodeNameError) s)
    (hzone : staticFor uc lib s.static req q = none → ∀ z, zoneFor uc s.cfg q.name = some z →
      Ends net (fun r s' => Q (finish lib req r.2 r.1) s')
        (dispatch uc lib req q z (serverFor s.cfg z) via) s) :
    Ends net Q (handleVia uc lib req via) s := by
  simp only [handleVia, Request.load_value_bind, monadLift_self, lib.setRcode_eq]
  rw [hq]
  refine ends_bind.2 (ends_staticAnswer.2 ?_)
  cases hst : staticFor uc lib s.static req q with
  | some resp => exact hstatic resp hst
  | none =>
    refine ends_bind.2 (ends_loadConfig.2 ?_)
    cases hz : matchZone uc s.cfg.zones (toLower uc q.name) with
    | none => exact hnone hst (by rw [zoneFor, hz]; rfl)
    | some z =>
      dsimp only
      split_ifs with hb
      · exact hnone hst (by rw [zoneFor, hz, Option.filter_some, hb]; rfl)
      · rw [ends_bind, ends_getForwarder, ends_bind]
        exact hzone hst z (zoneFor_eq_some hz hb)

/-- The records of an answer, none for an error. -/
def answerOf (r : Option Msg) : List RR := (r.map Msg.answer).getD []

@[simp] theorem finish_answer (proxied : Bool) (r : Option Msg) :
    (finish lib req proxied r).answer = answerOf r := by
  cases r with
  | none => rw [finish_none]; rfl
  | some m => rfl

end Front

end Rules

/-! ## Events -/

/-- What happens to the proxy between two queries, or a query.  `install` stores
a configuration and a static table; the flush that comes with them in
`Service.Reload` is `flush`. -/
inductive ProxyEvent where
  | query (req : Msg) (via : Via) (chances : List Chance)
  | janitor (now : Int)
  | install (cfg : ProxyConfig) (static : SyncMap String IP)
  | flush (defaultExp purgeInterval maxEntries : Int)

/-- One query; its exchanges are logged from the start. -/
def serve (net : Network) (uc : UnicodeCase) (lib : DnsLib) (s : ProxyState) (req : Msg)
    (via : Via) (chances : List Chance) : Option (Msg × ProxyState) :=
  Prog.exec (proxyStep net) (handleVia uc lib req via) { s with log := [] } chances

def proxyEventStep (net : Network) (uc : UnicodeCase) (lib : DnsLib) (s : ProxyState) :
    ProxyEvent → Option ProxyState
  | .query req via chances => (serve net uc lib s req via chances).map Prod.snd
  | .janitor now => some { s with cache := s.cache.janitor now }
  | .install cfg static => some { s with cfg, static }
  | .flush defaultExp purgeInterval maxEntries =>
    some { s with cache := s.cache.reload defaultExp purgeInterval maxEntries }

/-! ## A sample proxy -/

/-- A library that takes every name. -/
def anyName : DnsLib where
  accepts _ := true
  newAAAA name ttl addr :=
    if to4 addr = none ∧ addr.length = 16 then some ⟨name, classINET, ttl, .aaaa addr⟩ else none
  newA name ttl v4 := some ⟨name, classINET, ttl, .a (v4InV6Prefix ++ v4)⟩
  newPTR name target := some ⟨name, classINET, defaultTTL, .ptr target⟩
  reverseAddr v4 :=
    String.join (v4.toList.reverse.map fun b => toString b.toNat ++ ".") ++ "in-addr.arpa."
  setRcode := Msg.emptyReply
  isEdns0 := Msg.opt?
  newOPT udpSize dnssecOK options :=
    ⟨".", UInt16.ofNat udpSize, if dnssecOK then 0x8000 else 0, .opt options⟩
  newAAAA_eq_some h := by
    split_ifs at h
    exact Option.some.inj h
  newAAAA_of_accepts _ _ _ hto4 hlength := if_pos ⟨hto4, hlength⟩
  newPTR_eq_some h := Option.some.inj h
  setRcode_eq _ _ := rfl
  isEdns0_eq _ := rfl
  newOPT_data _ _ _ := rfl
  newOPT_isDo _ dnssecOK _ := by cases dnssecOK <;> simp [RR.isDo]

/-- A catch-all zone that synthesises and does not return IPv6 addresses. -/
def filteringZone : Zone where
  domains := ["."]
  forwarder := "192.0.2.53:53"
  pref := (parsePref64 "64:ff9b::/96").toOption
  returnIPv4Addresses := true
  returnIPv6Addresses := false

def filteringConfig : ProxyConfig where
  zones := [filteringZone]
  defaultForward := "192.0.2.53:53"
  ia := .ignore
  ignoredDstNets := []
  excludedAAAANets := []

def sampleQuery : Msg := { question := [⟨"a.example.", typeAAAA, classINET⟩] }

/-- The choices of operations that need none. -/
def idle (n : Nat) : List Chance := List.replicate n {}

/-- The choices of a lookup that brings the message. -/
def lookupChances (m : Msg) : List Chance := idle 3 ++ [{ reply := .ok m }] ++ idle 1

end Ydn64.Dns64
