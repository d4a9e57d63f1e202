import Ydn64.Dns64.World

/-!
# AAAA queries

`handleAAAA` under one configuration.  What it makes of the two replies is a
function of them, `resolution`: the answer, and the records that go into the
cache.  `ends_resolveAAAA` says that every run of `resolveAAAA` is two lookups,
or one if the first reply settles the query, and `resolution` of what they
brought.  `ends_handleAAAA` puts the local answer and the cache in front of it,
and `ends_handleVia_aaaa` the rest of `handleVia`.

A forwarder that answers by a fixed function is a `Forwarder`; with one in the
network the lookups bring what the function says (`LookedUp.of_echoing`).
-/

namespace Ydn64.Dns64

open Ydn64.GoStd Ydn64.Config Ydn64.Lib

/-! ## The answer as a function of the replies -/

/-- The request with another question. -/
def Msg.asking (req : Msg) (q : Question) : Msg := { req with question := [q] }

/-- The question of the second lookup. -/
def aQuestion (q : Question) : Question := ⟨q.name, typeA, q.qclass⟩

/-- A response, the records that the cache gets, and whether the handler panics
instead. -/
structure Resolution where
  resp : Option Msg
  stored : Option (List RR) := none
  panics : Bool := false

section Replies

variable (lib : DnsLib) (cfg : ProxyConfig) (req : Msg) (q : Question)

/-- The records that `synthesiseFromA` makes of a reply. -/
def synthesisedFrom (pref : Pref64) (upResp aResp : Msg) : List RR :=
  aResp.answer.filterMap (synthesised lib cfg q.name pref (synthesisTTL upResp.ns))

/-- The records of the A reply that are passed through. -/
def nonA (aResp : Msg) : List RR := aResp.answer.filter fun rr => rr.a?.isNone

/-- What `answerFromA` makes of the second reply. -/
def resolutionFromA (pref : Pref64) (upResp : Msg) : Option Msg → Resolution
  | none => { resp := none }
  | some aResp =>
    let synth := synthesisedFrom lib cfg q pref upResp aResp
    let resp := { (req.setQtype typeAAAA) with
      response := true
      ns := aResp.ns
      extra := aResp.extra }
    if aResp.rcode ≠ rcodeSuccess ∨ synth = [] then
      { resp := some { resp with rcode := aResp.rcode, answer := nonA aResp }
        panics := aResp.answer.any (synthesisPanics cfg) }
    else
      { resp := some { resp with rcode := rcodeSuccess, answer := nonA aResp ++ synth }
        stored := some (nonA aResp ++ synth)
        panics := aResp.answer.any (synthesisPanics cfg) }

/-- The usable records of the first reply, none unless it is a success. -/
def usableFrom (z : Zone) (upResp : Msg) : Option (List RR) :=
  if upResp.rcode = rcodeSuccess ∧ containsAAAA (upResp.answer.filter (kept cfg z)) then
    some (upResp.answer.filter (kept cfg z))
  else none

/-- What `resolveAAAA` makes of the two replies. -/
def resolution (z : Zone) : (up6 up4 : Option Msg) → Resolution
  | none, _ => { resp := none }
  | some upResp, up4 =>
    if upResp.rcode = rcodeNameError then
      { resp := some { (req.setQtype typeAAAA) with
          response := true
          rcode := rcodeNameError
          ns := upResp.ns
          extra := upResp.extra } }
    else
      match usableFrom cfg z upResp with
      | some answer =>
        { resp := some { (req.setQtype typeAAAA) with
            response := true
            answer := answer
            extra := upResp.extra }
          stored := some answer }
      | none =>
        match z.pref with
        | none =>
          { resp := some { (req.setQtype typeAAAA) with response := true, answer := [] } }
        | some pref => resolutionFromA lib cfg req q pref upResp up4

variable {lib cfg req q} in
theorem resolutionFromA_panics {pref : Pref64} {upResp aResp : Msg} :
    (resolutionFromA lib cfg req q pref upResp (some aResp)).panics =
      aResp.answer.any (synthesisPanics cfg) := by
  rw [resolutionFromA]
  dsimp only
  split_ifs <;> rfl

variable {cfg} in
theorem usableFrom_eq_some {z : Zone} {upResp : Msg} {rrs : List RR}
    (h : usableFrom cfg z upResp = some rrs) : rrs = upResp.answer.filter (kept cfg z) := by
  unfold usableFrom at h
  split_ifs at h
  exact (Option.some.inj h).symm

/-- The first reply leaves the query to the A records. -/
def AsksForA (z : Zone) (up6 : Option Msg) : Prop :=
  ∃ upResp, up6 = some upResp ∧ upResp.rcode ≠ rcodeNameError ∧ usableFrom cfg z upResp = none

end Replies

/-! ## Runs of the handler -/

section Runs

variable {net : Network} {uc : UnicodeCase} {lib : DnsLib} {s s' : ProxyState} {req : Msg}
  {q : Question} {z : Zone} {server : String} {via : Via} {r : Option Msg}

/-- How the cache and its history change: not at all, or by one `set`. -/
def Stores (s s' : ProxyState) (k : CacheKey) : Option (List RR) → Prop
  | none => s'.cache = s.cache ∧ s'.origins = s.origins
  | some rrs => (∃ now now' victim, s.cache.set k rrs now now' victim = some s'.cache) ∧
      s'.origins = s.origins.insert k s'.log

/-- A part of a handler that makes the exchanges `es`, and after them stores
records under `k` or does not. -/
structure Moves (s s' : ProxyState) (es : List Exchanged) (k : CacheKey)
    (stored : Option (List RR)) : Prop where
  cfg : s'.cfg = s.cfg
  static : s'.static = s.static
  log : s'.log = s.log ++ es
  stores : Stores s s' k stored

theorem Moves.trans {s₁ s₂ s₃ : ProxyState} {es es' : List Exchanged} {k : CacheKey}
    {stored : Option (List RR)} (h : Moves s₁ s₂ es k none) (h' : Moves s₂ s₃ es' k stored) :
    Moves s₁ s₃ (es ++ es') k stored where
  cfg := h'.cfg.trans h.cfg
  static := h'.static.trans h.static
  log := by rw [h'.log, h.log, List.append_assoc]
  stores := by
    obtain ⟨hcache, horigins⟩ := h.stores
    have hstores := h'.stores
    unfold Stores at hstores ⊢
    rwa [hcache, horigins] at hstores

/-- The query is resolved from `up6` and `up4`.  Where the first reply settles
it, there is no second exchange and `up4` is anything. -/
structure Resolved (net : Network) (lib : DnsLib) (s : ProxyState) (req : Msg) (q : Question)
    (z : Zone) (server : String) (r : Option Msg) (s' : ProxyState)
    (up6 up4 : Option Msg) (es6 es4 : List Exchanged) : Prop where
  first : LookedUp net server (req.asking q) es6 up6
  second : LookedUp net server (req.asking (aQuestion q)) es4 up4 ∨ es4 = [] ∧
    ∀ up, resolution lib s.cfg req q z up6 up = resolution lib s.cfg req q z up6 up4
  resp : r = (resolution lib s.cfg req q z up6 up4).resp
  sound : (resolution lib s.cfg req q z up6 up4).panics = false
  moves : Moves s s' (es6 ++ es4) (cacheKeyFor q) (resolution lib s.cfg req q z up6 up4).stored

theorem Looked.moves {k : CacheKey} (h : Looked net s server req r s') :
    ∃ es, Moves s s' es k none ∧ LookedUp net server req es r := by
  obtain ⟨es, hlog, hes⟩ := h.log
  exact ⟨es, ⟨h.cfg, h.static, hlog, h.cache, h.origins⟩, hes⟩

theorem ends_cacheSet_moves {k : CacheKey} {rrs : List RR} {Q : Unit → ProxyState → Prop}
    (h : ∀ s', Moves s s' [] k (some rrs) → Q () s') : Ends net Q (cacheSet k rrs) s := by
  apply ends_cacheSet
  intro now now' victim cache hset
  refine h _ ⟨rfl, rfl, ?_, ⟨now, now', victim, hset⟩, rfl⟩
  simp

theorem ends_usableAAAA {upResp : Msg} {Q : Option (List RR) → ProxyState → Prop} :
    Ends net Q (usableAAAA upResp z) s ↔ Q (usableFrom s.cfg z upResp) s := by
  unfold usableAAAA usableFrom
  by_cases hrcode : upResp.rcode = rcodeSuccess
  · simp only [hrcode, if_true, true_and]
    rw [ends_bind, ends_filterAAAA, ends_pure]
  · simp only [hrcode, if_false, false_and, ends_pure]

theorem ends_answerFromA {pref : Pref64} {upResp : Msg} :
    Ends net (fun r s' => ∃ up4 es4, LookedUp net server (req.asking (aQuestion q)) es4 up4 ∧
        r = (resolutionFromA lib s.cfg req q pref upResp up4).resp ∧
        (resolutionFromA lib s.cfg req q pref upResp up4).panics = false ∧
        Moves s s' es4 (cacheKeyFor q) (resolutionFromA lib s.cfg req q pref upResp up4).stored)
      (answerFromA lib req q pref server via upResp) s := by
  simp only [answerFromA, Request.load_value_bind]
  refine ends_bind.2 (Prog.wp_mono (ends_lookup _ _ _) fun up4 s₁ hlook => ?_)
  obtain ⟨es4, hmoves, hlooked⟩ := hlook.moves (k := cacheKeyFor q)
  cases up4 with
  | none => exact ⟨none, es4, hlooked, rfl, rfl, hmoves⟩
  | some aResp =>
    refine ends_bind.2 (ends_synthesiseFromA ?_)
    rw [hmoves.cfg]
    intro hpanics
    split_ifs with hnone
    · have hres : resolutionFromA lib s.cfg req q pref upResp (some aResp) = ⟨some _, none, _⟩ :=
        if_pos hnone
      refine ⟨some aResp, es4, hlooked, ?_, ?_, ?_⟩
      · rw [hres]
        rfl
      · rwa [hres]
      · rwa [hres]
    · have hres : resolutionFromA lib s.cfg req q pref upResp (some aResp) =
          ⟨some _, some _, _⟩ := if_neg hnone
      refine ends_bind.2 (ends_cacheSet_moves fun s₂ hset => ?_)
      refine ⟨some aResp, es4, hlooked, ?_, ?_, ?_⟩
      · rw [hres]
        rfl
      · rwa [hres]
      · rw [hres, ← List.append_nil es4]
        exact hmoves.trans hset

theorem ends_resolveAAAA :
    Ends net (fun r s' => ∃ up6 up4 es6 es4,
        Resolved net lib s req q z server r s' up6 up4 es6 es4 ∧
        (es4 ≠ [] ↔ z.pref.isSome ∧ AsksForA s.cfg z up6))
      (resolveAAAA lib req q z server via) s := by
  unfold resolveAAAA
  refine ends_bind.2 (Prog.wp_mono (ends_lookup _ _ _) fun up6 s₁ hlook => ?_)
  obtain ⟨es6, hmoves, hlooked⟩ := hlook.moves (k := cacheKeyFor q)
  -- The ways that end with the first reply.
  have hfirst : ∀ res : Resolution, (∀ up4, resolution lib s.cfg req q z up6 up4 = res) →
      res.panics = false → ¬ (z.pref.isSome ∧ AsksForA s.cfg z up6) →
      ∀ s', Moves s s' es6 (cacheKeyFor q) res.stored →
      ∃ up6 up4 es6 es4, Resolved net lib s req q z server res.resp s' up6 up4 es6 es4 ∧
        (es4 ≠ [] ↔ z.pref.isSome ∧ AsksForA s.cfg z up6) := by
    intro res hres hpanics hasks s' hm
    refine ⟨up6, none, es6, [], ⟨hlooked, .inr ⟨rfl, fun up => ?_⟩, ?_, ?_, ?_⟩, ?_⟩
    · rw [hres, hres]
    · rw [hres]
    · rw [hres, hpanics]
    · rw [hres, List.append_nil]
      exact hm
    · simpa using hasks
  cases up6 with
  | none =>
    refine hfirst { resp := none } (fun _ => rfl) rfl ?_ _ hmoves
    rintro ⟨-, upResp, hup, -⟩
    cases hup
  | some upResp =>
    dsimp only
    split_ifs with hname
    · refine hfirst ⟨some _, none, false⟩ (fun _ => if_pos hname) rfl ?_ _ hmoves
      rintro ⟨-, upResp, ⟨⟩, hne, -⟩
      exact hne hname
    · refine ends_bind.2 (ends_usableAAAA.2 ?_)
      rw [hmoves.cfg]
      cases husable : usableFrom s.cfg z upResp with
      | some answer =>
        refine ends_bind.2 (ends_cacheSet_moves fun s₂ hset => ?_)
        refine hfirst ⟨some _, some answer, false⟩ (fun up4 => ?_) rfl ?_ _ ?_
        · rw [resolution, if_neg hname, husable]
        · rintro ⟨-, upResp, ⟨⟩, -, hnone⟩
          rw [husable] at hnone
          cases hnone
        · rw [← List.append_nil es6]
          exact hmoves.trans hset
      | none =>
        cases hpref : z.pref with
        | none =>
          rw [hpref] at hfirst
          refine hfirst ⟨some _, none, false⟩ (fun up4 => ?_) rfl ?_ _ hmoves
          · rw [resolution, if_neg hname, husable, hpref]
          · rintro ⟨⟨⟩, -⟩
        | some pref =>
          have hres : ∀ up4, resolution lib s.cfg req q z (some upResp) up4 =
              resolutionFromA lib s.cfg req q pref upResp up4 := by
            intro up4
            rw [resolution, if_neg hname, husable, hpref]
          refine Prog.wp_mono ends_answerFromA fun r s₂ hfrom => ?_
          obtain ⟨up4, es4, hlooked4, hr, hpanics, hset⟩ := hfrom
          rw [hmoves.cfg, ← hres] at hr hpanics hset
          refine ⟨some upResp, up4, es6, es4, ⟨hlooked, .inl hlooked4, hr, hpanics,
            hmoves.trans hset⟩, ?_⟩
          exact iff_of_true hlooked4.ne_nil ⟨rfl, upResp, rfl, hname, husable⟩

/-- The records of a cached answer that are still served. -/
def servable (cfg : ProxyConfig) (rrs : List RR) : List RR :=
  rrs.filter fun rr => !excluded cfg.excludedAAAANets rr

/-- The three ways of `handleAAAA` to an answer. -/
inductive Handled (net : Network) (uc : UnicodeCase) (lib : DnsLib) (s : ProxyState)
    (req : Msg) (q : Question) (z : Zone) (server : String) : Option Msg → ProxyState → Prop
  | ipv4only (hname : isIPv4Only uc q.name = true) :
    Handled net uc lib s req q z server (some (ipv4OnlyAAAA lib req q z)) s
  | cached (hname : isIPv4Only uc q.name = false) (now : Int) (rrs : List RR)
      (hget : s.cache.get (cacheKeyFor q) now = some rrs)
      (haaaa : containsAAAA (servable s.cfg rrs) = true) :
    Handled net uc lib s req q z server
      (some { (req.setQtype typeAAAA) with response := true, answer := servable s.cfg rrs }) s
  | resolved (hname : isIPv4Only uc q.name = false) (r : Option Msg) (s' : ProxyState)
      (up6 up4 : Option Msg) (es6 es4 : List Exchanged)
      (h : Resolved net lib s req q z server r s' up6 up4 es6 es4) :
    Handled net uc lib s req q z server r s'

/-- The query is not answered from the cache at some time. -/
def CacheMisses (s : ProxyState) (q : Question) : Prop :=
  ∃ now, ∀ rrs, s.cache.get (cacheKeyFor q) now = some rrs →
    containsAAAA (servable s.cfg rrs) = false

theorem ends_cachedAAAA {Q : Option (List RR) → ProxyState → Prop} :
    Ends net Q (cachedAAAA q) s ↔ (CacheMisses s q → Q none s) ∧
      ∀ now rrs, s.cache.get (cacheKeyFor q) now = some rrs →
        containsAAAA (servable s.cfg rrs) = true → Q (some (servable s.cfg rrs)) s := by
  -- What a `get` at a time comes to.
  have hget : ∀ now, Ends net Q (match s.cache.get (cacheKeyFor q) now with
      | none => pure none
      | some cached => do
        let answer ← dropExcludedAAAA cached
        pure (if containsAAAA answer then some answer else none)) s ↔
      Q (((s.cache.get (cacheKeyFor q) now).map (servable s.cfg)).filter containsAAAA) s := by
    intro now
    cases s.cache.get (cacheKeyFor q) now with
    | none => exact Iff.rfl
    | some rrs =>
      rw [ends_bind, ends_dropExcludedAAAA, ends_pure, Option.map_some, Option.filter_some]
      exact Iff.rfl
  unfold cachedAAAA
  rw [ends_bind, ends_cacheGet]
  refine (forall_congr' hget).trans ⟨?_, ?_⟩
  · intro h
    refine ⟨?_, fun now rrs hrrs haaaa => ?_⟩
    · rintro ⟨now, hmiss⟩
      have hnow := h now
      cases hrrs : s.cache.get (cacheKeyFor q) now with
      | none => rwa [hrrs] at hnow
      | some rrs =>
        rw [hrrs, Option.map_some, Option.filter_some, hmiss rrs hrrs] at hnow
        exact hnow
    · have hnow := h now
      rw [hrrs, Option.map_some, Option.filter_some, haaaa] at hnow
      exact hnow
  · rintro ⟨hmiss, hhit⟩ now
    cases hrrs : s.cache.get (cacheKeyFor q) now with
    | none => exact hmiss ⟨now, fun rrs h => by rw [hrrs] at h; cases h⟩
    | some rrs =>
      rw [Option.map_some, Option.filter_some]
      cases haaaa : containsAAAA (servable s.cfg rrs) with
      | true => exact hhit now rrs hrrs haaaa
      | false =>
        refine hmiss ⟨now, fun rrs' h => ?_⟩
        obtain rfl := Option.some.inj (hrrs.symm.trans h)
        exact haaaa

theorem ends_handleAAAA :
    Ends net (Handled net uc lib s req q z server) (handleAAAA uc lib req q z server via) s := by
  unfold handleAAAA
  cases hname : isIPv4Only uc q.name with
  | true => exact .ipv4only hname
  | false =>
    have hresolve : Ends net (Handled net uc lib s req q z server)
        (resolveAAAA lib req q z server via) s := by
      refine Prog.wp_mono ends_resolveAAAA fun r s' hr => ?_
      obtain ⟨up6, up4, es6, es4, hres, -⟩ := hr
      exact .resolved hname r s' up6 up4 es6 es4 hres
    refine ends_bind.2 (ends_cachedAAAA.2 ⟨fun _ => hresolve, fun now rrs hget haaaa => ?_⟩)
    exact .cached hname now rrs hget haaaa

/-- A query for the AAAA records of a name: class IN, type AAAA or ANY, and not
from a validating client. -/
structure Msg.AsksAAAA (req : Msg) (q : Question) : Prop where
  head : req.question.head? = some q
  qclass : q.qclass = classINET
  qtype : q.qtype = typeAAAA ∨ q.qtype = typeANY
  plain : req.validates = false

theorem ends_dispatch_aaaa (hq : req.AsksAAAA q) {Q : List RR → ProxyState → Prop}
    (h : ∀ r s', Handled net uc lib s req { q with qtype := typeAAAA } z server r s' →
      Q (answerOf r) s') :
    Ends net (fun r s' => Q (answerOf r.1) s') (dispatch uc lib req q z server via) s := by
  simp only [dispatch, Request.load_value_bind]
  rw [if_neg (not_not.2 hq.qclass), dnssecValidatingClient_eq, hq.plain]
  rcases hq.qtype with ht | ht
  · have hq' : { q with qtype := typeAAAA } = q := by rw [← ht]
    rw [if_pos ht, if_neg Bool.false_ne_true, ends_bind]
    rw [hq'] at h
    exact Prog.wp_mono ends_handleAAAA h
  · rw [if_neg (by rw [ht]; decide), if_pos ht, if_neg Bool.false_ne_true, ends_bind]
    refine Prog.wp_mono ends_handleAAAA fun r s' hr => ?_
    have := h r s' hr
    cases r with
    | none => exact this
    | some m => simpa [answerOf] using this

theorem ends_handleVia_aaaa (hq : req.AsksAAAA q) {Q : List RR → ProxyState → Prop}
    (hstatic : ∀ resp, staticFor uc lib s.static req q = some resp → Q resp.answer s)
    (hnone : staticFor uc lib s.static req q = none → zoneFor uc s.cfg q.name = none → Q [] s)
    (hzone : staticFor uc lib s.static req q = none → ∀ z, zoneFor uc s.cfg q.name = some z →
      ∀ r s', Handled net uc lib s req { q with qtype := typeAAAA } z (serverFor s.cfg z) r s' →
        Q (answerOf r) s') :
    Ends net (fun resp s' => Q resp.answer s') (handleVia uc lib req via) s := by
  obtain ⟨qs, hqs⟩ := List.head?_eq_some_iff.1 hq.head
  refine ends_handleVia hqs hstatic hnone fun hst z hz => ?_
  simp only [finish_answer]
  exact ends_dispatch_aaaa hq (hzone hst z hz)

end Runs

/-! ## Forwarders -/

/-- A forwarder answers a request by a function of it. -/
abbrev Forwarder := String → Msg → Option Msg

/-- The network of forwarders that answer by `f`, under the ID and the question
of the request. -/
def echoing (f : Forwarder) : Network := fun server req _ reply =>
  reply.msg? = (f server req).map fun m => m.replyTo req

/-- The answer does not depend on the ID and the spelling of the name. -/
def CaseBlind (f : Forwarder) : Prop :=
  ∀ server req id flips, f server (req.respelled id flips) = f server req

/-- The type of the first question. -/
def Msg.firstType (m : Msg) : Option UInt16 := m.question.head?.map Question.qtype

theorem Msg.firstType_respelled (req : Msg) (id : UInt16) (flips : List Bool) :
    (req.respelled id flips).firstType = req.firstType := by
  unfold Msg.respelled Msg.setQname Msg.firstType
  cases req.question <;> rfl

theorem LookedUp.firstType {net : Network} {server : String} {req : Msg} {es : List Exchanged}
    {r : Option Msg} (h : LookedUp net server req es r) {e : Exchanged} (he : e ∈ es) :
    e.req.firstType = req.firstType := by
  obtain ⟨-, ⟨id, flips, hreq⟩, -⟩ := h.sent e he
  rw [hreq, Msg.firstType_respelled]

/-- The forwarder that answers `up6` to an AAAA request and `up4` to any other. -/
def pairForwarder (up6 up4 : Option Msg) : Forwarder := fun _ req =>
  if req.firstType = some typeAAAA then up6 else up4

theorem pairForwarder_caseBlind (up6 up4 : Option Msg) : CaseBlind (pairForwarder up6 up4) := by
  intro server req id flips
  rw [pairForwarder, pairForwarder, Msg.firstType_respelled]

section Forwarders

variable {f : Forwarder} {lib : DnsLib} {server : String} {req : Msg} {es : List Exchanged}
  {r : Option Msg}

theorem LookedUp.of_echoing (hf : CaseBlind f) (h : LookedUp (echoing f) server req es r) :
    r = (f server req).map fun m => m.replyTo req := by
  have hreply : ∀ e ∈ es, e.reply.msg? = (f server req).map fun m => m.replyTo e.req := by
    intro e he
    obtain ⟨hserver, ⟨id, flips, hreq⟩, hnet⟩ := h.sent e he
    have hmsg : e.reply.msg? = (f e.server e.req).map fun m => m.replyTo e.req := by
      simpa [echoing] using hnet
    rw [hmsg, hserver, hreq, hf]
  have hechoed : r = (usedReply es).map fun m => m.replyTo req := by
    apply h.echoed
    intro e he m hm
    rw [hreply e he] at hm
    obtain ⟨m', -, rfl⟩ := Option.map_eq_some_iff.1 hm
    rfl
  obtain ⟨e, he, hused⟩ := usedReply_mem h.ne_nil
  rw [hechoed, hused, hreply e he, Option.map_map]
  rfl

theorem ends_lookup_echoing {via : Via} {s : ProxyState} (hf : CaseBlind f)
    {Q : Option Msg → ProxyState → Prop}
    (h : ∀ s', s'.cfg = s.cfg → s'.static = s.static → s'.cache = s.cache →
      Q ((f server req).map fun m => m.replyTo req) s') :
    Ends (echoing f) Q (lookup server req via) s := by
  refine Prog.wp_mono (ends_lookup server req via) fun r s' hlook => ?_
  obtain ⟨es, -, hes⟩ := hlook.log
  rw [hes.of_echoing hf]
  exact h s' hlook.cfg hlook.static hlook.cache

theorem ends_passThrough {via : Via} {s : ProxyState} (hf : CaseBlind f) :
    Ends (echoing f) (fun r s' => answerOf r = answerOf (f server req) ∧ s'.cfg = s.cfg ∧
        s'.static = s.static ∧ s'.cache = s.cache) (passThrough req server via) s := by
  refine ends_lookup_echoing hf fun s' hcfg hstatic hcache => ⟨?_, hcfg, hstatic, hcache⟩
  cases f server req <;> rfl

@[simp] theorem resolution_replyTo {cfg : ProxyConfig} {q : Question} {z : Zone} (m6 m4 : Msg)
    (up6 up4 : Option Msg) :
    resolution lib cfg req q z (up6.map fun m => m.replyTo m6) (up4.map fun m => m.replyTo m4) =
      resolution lib cfg req q z up6 up4 := by
  cases up6 with
  | none => rfl
  | some m => cases up4 <;> rfl

theorem Resolved.of_echoing {s s' : ProxyState} {q : Question} {z : Zone} {up6 up4 : Option Msg}
    {es6 es4 : List Exchanged} (hf : CaseBlind f)
    (h : Resolved (echoing f) lib s req q z server r s' up6 up4 es6 es4) :
    resolution lib s.cfg req q z up6 up4 = resolution lib s.cfg req q z
      (f server (req.asking q)) (f server (req.asking (aQuestion q))) := by
  obtain rfl := h.first.of_echoing hf
  rcases h.second with hsnd | ⟨-, hind⟩
  · obtain rfl := hsnd.of_echoing hf
    exact resolution_replyTo _ _ _ _
  · rw [← hind ((f server (req.asking (aQuestion q))).map fun m => m.replyTo req)]
    exact resolution_replyTo _ _ _ _

/-- What a query for AAAA records comes to when nothing is cached.  Only the
answer section of the response counts. -/
def fresh (uc : UnicodeCase) (lib : DnsLib) (cfg : ProxyConfig) (static : SyncMap String IP)
    (f : Forwarder) (req : Msg) (q : Question) : Resolution :=
  match staticFor uc lib static req q with
  | some resp => { resp := some resp }
  | none =>
    match zoneFor uc cfg q.name with
    | none => { resp := none }
    | some z =>
      let q := { q with qtype := typeAAAA }
      if isIPv4Only uc q.name then { resp := some (ipv4OnlyAAAA lib req q z) }
      else resolution lib cfg req q z (f (serverFor cfg z) (req.asking q))
        (f (serverFor cfg z) (req.asking (aQuestion q)))

/-- The answer section when nothing is cached. -/
def freshAnswer (uc : UnicodeCase) (lib : DnsLib) (cfg : ProxyConfig)
    (static : SyncMap String IP) (f : Forwarder) (req : Msg) (q : Question) : List RR :=
  answerOf (fresh uc lib cfg static f req q).resp

/-- A query for AAAA records gets its fresh answer if the cache has none. -/
theorem ends_fresh (uc : UnicodeCase) (lib : DnsLib) (via : Via) {s : ProxyState}
    {q : Question} (hf : CaseBlind f) (hq : req.AsksAAAA q)
    (hmiss : ∀ now, s.cache.get (cacheKeyFor { q with qtype := typeAAAA }) now = none) :
    Ends (echoing f) (fun resp _ => resp.answer = freshAnswer uc lib s.cfg s.static f req q ∧
        (fresh uc lib s.cfg s.static f req q).panics = false)
      (handleVia uc lib req via) s := by
  refine ends_handleVia_aaaa (Q := fun answer _ => answer = _ ∧ _) hq ?_ ?_ ?_
  · intro resp hst
    rw [freshAnswer, fresh, hst]
    exact ⟨rfl, rfl⟩
  · intro hst hz
    rw [freshAnswer, fresh, hst, hz]
    exact ⟨rfl, rfl⟩
  · intro hst z hz r s' hhandled
    rw [freshAnswer, fresh, hst, hz]
    cases hhandled with
    | ipv4only hname =>
      dsimp only
      rw [hname]
      exact ⟨rfl, rfl⟩
    | cached hname now rrs hget haaaa =>
      rw [hmiss now] at hget
      cases hget
    | resolved hname r s' up6 up4 es6 es4 hres =>
      dsimp only
      rw [hname, if_neg Bool.false_ne_true, ← hres.of_echoing hf, ← hres.resp]
      exact ⟨rfl, hres.sound⟩

end Forwarders

end Ydn64.Dns64
