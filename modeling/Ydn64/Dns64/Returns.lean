import Ydn64.Dns64.Resolve

/-!
# Queries that are answered

The rules of `Ydn64.Dns64.World` speak about the runs that end.  Here are the
handlers that have such a run, in a network that always gives some reply.  The
world carries out every operation but the panic (`proxyStep_enabled`), so a
handler returns if no run of it comes to the panic (`returns_of_safe`).  Only
the synthesis can, for an A record without an address, and
`safe_handleAAAA_iff` says when: the first reply leaves the query open, and such
a record stands in the second.  `returns_handleVia_aaaa` is the result for whole
queries.
-/

namespace Ydn64.Dns64

open Ydn64.GoStd Ydn64.Config Ydn64.Lib

/-- Some run of the handler from `s` ends. -/
abbrev Returns {α : Type} (net : Network) (p : Handler α) (s : ProxyState) : Prop :=
  Prog.Runs (proxyStep net) p s

/-- Some run of the handler ends, whatever the state is. -/
def Total {α : Type} (net : Network) (p : Handler α) : Prop := ∀ s, Returns net p s

/-- The network always gives some reply, be it an error. -/
def Network.Replies (net : Network) : Prop :=
  ∀ server req via, ∃ reply, net server req via reply = true

/-- The operation is the panic. -/
def ProxyOp.Panics (op : ProxyOp) : Prop := op = .panic

instance : DecidablePred ProxyOp.Panics := fun op => inferInstanceAs (Decidable (op = .panic))

/-- No run of the handler from `s` comes to the panic. -/
abbrev Safe {α : Type} (net : Network) (p : Handler α) (s : ProxyState) : Prop :=
  Prog.Avoids (proxyStep net) ProxyOp.Panics p s

theorem Cache.exists_set (c : Cache) (k : CacheKey) (rrs : List RR) (now now' : Int) :
    ∃ victim cache, c.set k rrs now now' victim = some cache := by
  have hroom : ∃ victim items, c.makeRoomLocked k now' victim = some items := by
    unfold Cache.makeRoomLocked
    split_ifs with hroom hthere hlive
    · exact ⟨k, _, rfl⟩
    · exact ⟨k, _, rfl⟩
    · exact ⟨k, _, rfl⟩
    · obtain ⟨victim, hvictim⟩ := SyncMap.exists_lookup_of_size (m := c.live now') (by omega)
      exact ⟨victim, _, if_pos hvictim⟩
  obtain ⟨victim, items, hitems⟩ := hroom
  exact ⟨victim, _, by rw [Cache.set, hitems, Option.map_some]⟩

/-- The operation is an exchange with a forwarder. -/
def ProxyOp.isExchange : ProxyOp → Bool
  | exchange _ _ _ => true
  | _ => false

/-- The operation is one that a world may refuse. -/
def ProxyOp.Refusable : ProxyOp → Prop
  | exchange _ _ _ => True
  | panic => True
  | _ => False

theorem proxyStep_enabled_of_local (net : Network) (s : ProxyState) (op : ProxyOp)
    (hop : ¬ op.Refusable) : ∃ c r, proxyStep net s op c = some r := by
  cases op with
  | loadConfig | loadStatic | cacheGet k => exact ⟨{}, _, rfl⟩
  | cacheSet k rrs =>
    obtain ⟨victim, cache, hset⟩ := s.cache.exists_set k rrs 0 0
    exact ⟨{ victim }, _, by rw [proxyStep, hset, Option.map_some]⟩
  | drawId | x20Active server | x20Record server ok | randomizeNameCase name => exact ⟨{}, _, rfl⟩
  | exchange server req via => exact absurd trivial hop
  | panic => exact absurd trivial hop

theorem proxyStep_enabled {net : Network} (hnet : net.Replies) (s : ProxyState) (op : ProxyOp)
    (hop : ¬ op.Panics) : ∃ c r, proxyStep net s op c = some r := by
  cases op with
  | exchange server req via =>
    obtain ⟨reply, hreply⟩ := hnet server req via
    exact ⟨{ reply }, _, by rw [proxyStep, if_pos hreply]⟩
  | panic => exact absurd rfl hop
  | _ => exact proxyStep_enabled_of_local net s _ id

section Safe

variable {α β : Type} {net : Network} {p : Handler α} {s : ProxyState}

theorem safe_bind_iff {f : α → Handler β} :
    Safe net (p >>= f) s ↔ Safe net p s ∧ Ends net (fun a s' => Safe net (f a) s') p s :=
  Prog.avoids_bind_iff

theorem safe_bind_iff_of_ends (hnet : net.Replies) {f : α → Handler β}
    {Q : α → ProxyState → Prop} {R : Prop} (hp : Safe net p s) (hQ : Ends net Q p s)
    (hf : ∀ a s', Q a s' → (Safe net (f a) s' ↔ R)) : Safe net (p >>= f) s ↔ R :=
  Prog.avoids_bind_iff_of_wp (proxyStep_enabled hnet) hp hQ hf

theorem safe_bind_of_never {f : α → Handler β} (hp : p.Never ProxyOp.Panics) :
    Safe net (p >>= f) s ↔ Ends net (fun a s' => Safe net (f a) s') p s :=
  safe_bind_iff.trans (and_iff_right (hp.avoids s))

theorem returns_of_safe (hnet : net.Replies) (h : Safe net p s) : Returns net p s :=
  Prog.runs_of_avoids (proxyStep_enabled hnet) h

theorem total_of_never (hnet : net.Replies) (h : p.Never ProxyOp.Panics) : Total net p :=
  fun s => returns_of_safe hnet (h.avoids s)

end Safe

/-! ## Handlers without the panic -/

section Never

variable {bad : ProxyOp → Prop}

theorem never_pure {α : Type} (a : α) : (pure a : Handler α).Never bad := trivial

theorem never_dropExcludedAAAA (h : ¬ bad .loadConfig) (rrs : List RR) :
    (dropExcludedAAAA rrs).Never bad :=
  (Prog.never_perform h).bind fun _ => trivial

theorem never_keepAAAA (h : ¬ bad .loadConfig) (z : Zone) (rr : RR) :
    (keepAAAA z rr).Never bad := by
  unfold keepAAAA
  cases rr.aaaa? with
  | none => exact never_pure _
  | some ip =>
    dsimp only
    split_ifs
    · exact (Prog.never_perform h).bind fun _ => trivial
    · exact never_pure _

theorem never_filterLoop (h : ¬ bad .loadConfig) (z : Zone) (rrs : List RR) :
    (filterLoop z rrs).Never bad := by
  induction rrs with
  | nil => exact never_pure _
  | cons rr rrs ih => exact (never_keepAAAA h z rr).bind fun _ => ih.bind fun _ => trivial

theorem never_usableAAAA (h : ¬ bad .loadConfig) (upResp : Msg) (z : Zone) :
    (usableAAAA upResp z).Never bad := by
  unfold usableAAAA filterAAAA
  split_ifs
  · refine Prog.Never.bind ?_ fun _ => trivial
    exact (never_dropExcludedAAAA h _).bind fun out => never_filterLoop h z out
  · exact never_pure _

theorem never_cachedAAAA (h : ¬ bad .loadConfig) (hget : ∀ k, ¬ bad (.cacheGet k))
    (q : Question) : (cachedAAAA q).Never bad := by
  refine (Prog.never_perform (hget _)).bind fun cached => ?_
  cases cached with
  | none => exact never_pure _
  | some rrs => exact (never_dropExcludedAAAA h rrs).bind fun _ => trivial

theorem never_staticAnswer (h : ¬ bad .loadStatic) (uc : UnicodeCase) (lib : DnsLib)
    (req : Msg) (q : Question) : (staticAnswer uc lib req q).Never bad := by
  unfold staticAnswer
  split_ifs
  · exact never_pure _
  · exact never_pure _
  · exact (Prog.never_perform h).bind fun _ => trivial

theorem never_getForwarder (h : ¬ bad .loadConfig) (z : Zone) : (getForwarder z).Never bad := by
  unfold getForwarder
  split_ifs
  · exact never_pure _
  · exact (Prog.never_perform h).bind fun _ => trivial

theorem never_sentName (hactive : ∀ server, ¬ bad (.x20Active server))
    (hcase : ∀ name, ¬ bad (.randomizeNameCase name)) (server : String) (req : Msg) :
    (sentName server req).Never bad := by
  unfold sentName
  split_ifs
  · exact never_pure _
  · refine (Prog.never_perform (hactive server)).bind fun active => ?_
    split_ifs
    · exact (Prog.never_perform (hcase _)).bind fun _ => trivial
    · exact never_pure _

end Never

/-- A lookup neither panics nor loads the configuration. -/
theorem never_lookup_of {bad : ProxyOp → Prop}
    (hbad : ∀ op, bad op → op = .panic ∨ op = .loadConfig) (server : String) (req : Msg)
    (via : Via) : (lookup server req via).Never bad := by
  have hnot : ∀ op : ProxyOp, op ≠ .panic → op ≠ .loadConfig → ¬ bad op :=
    fun op hpanic hload h => (hbad op h).elim hpanic hload
  have hperform : ∀ op : ProxyOp, op ≠ .panic → op ≠ .loadConfig →
      (Prog.perform op : Handler op.Ans).Never bad :=
    fun op hpanic hload => Prog.never_perform (hnot op hpanic hload)
  unfold lookup
  refine (hperform .drawId nofun nofun).bind fun id => ?_
  refine (never_sentName (fun _ => hnot _ nofun nofun) (fun _ => hnot _ nofun nofun) server
    req).bind fun sent => ?_
  refine (hperform (.exchange _ _ _) nofun nofun).bind fun first => ?_
  refine Prog.Never.bind ?_ fun reply => ?_
  · unfold retryTCP
    cases first with
    | failed part => exact never_pure _
    | ok resp =>
      dsimp only
      split_ifs
      · refine (hperform (.exchange _ _ _) nofun nofun).bind fun reply => ?_
        cases reply <;> exact never_pure _
      · exact never_pure _
  · unfold acceptReply
    rcases reply with resp | part | part
    · split_ifs
      · exact (hperform (.x20Record _ _) nofun nofun).bind fun _ => trivial
      · exact never_pure _
    · exact never_pure _
    · split_ifs
      · exact (hperform (.x20Record _ _) nofun nofun).bind fun _ => trivial
      · exact never_pure _

theorem never_lookup (server : String) (req : Msg) (via : Via) :
    (lookup server req via).Never ProxyOp.Panics :=
  never_lookup_of (fun _ h => .inl h) server req via

theorem total_lookup {net : Network} (hnet : net.Replies) (server : String) (req : Msg)
    (via : Via) : Total net (lookup server req via) :=
  total_of_never hnet (never_lookup server req via)

/-! ## The synthesis -/

section Synthesis

variable {net : Network} {lib : DnsLib} {s : ProxyState} {pref : Pref64} {ttl : UInt32}

theorem safe_synthesiseAddr_iff {name : String} {ipv4 : IP} :
    Safe net (synthesiseAddr lib pref name ttl ipv4) s ↔ embedPanics s.cfg ipv4 = false := by
  have hload : (isIgnoredDst ipv4).Never ProxyOp.Panics :=
    Prog.Never.bind (Prog.never_perform nofun) fun _ => trivial
  unfold synthesiseAddr embedPanics
  rw [safe_bind_of_never hload, isIgnoredDst, ends_bind, ends_loadConfig, ends_pure]
  cases anyContains s.cfg.ignoredDstNets ipv4 with
  | true => exact iff_of_true (Prog.avoids_ret _ _) rfl
  | false =>
    rw [if_neg Bool.false_ne_true]
    unfold makeSynthesisedAAAA
    cases to4 ipv4 with
    | none => exact iff_of_false (fun h => (Prog.avoids_call_iff.1 h).1 rfl) (by simp)
    | some v4 => exact iff_of_true (Prog.avoids_ret _ _) rfl

theorem safe_synthesiseOne_iff {fallbackName : String} {rr : RR} :
    Safe net (synthesiseOne lib fallbackName pref ttl rr) s ↔
      synthesisPanics s.cfg rr = false := by
  unfold synthesiseOne synthesisPanics
  cases rr.a? with
  | none => exact iff_of_true (Prog.avoids_ret _ _) rfl
  | some ipv4 =>
    dsimp only
    generalize (if rr.name = "" then fallbackName else rr.name) = name
    generalize (if ttl < rr.ttl then ttl else rr.ttl) = ttl'
    split_ifs with hun
    · have hload : (loadConfig : Handler _).Never ProxyOp.Panics := Prog.never_perform nofun
      rw [safe_bind_of_never hload, ends_loadConfig, hun]
      cases s.cfg.ia with
      | discard => exact iff_of_true (Prog.avoids_ret _ _) rfl
      | process => exact iff_of_true (Prog.avoids_ret _ _) rfl
      | ignore => simpa using safe_synthesiseAddr_iff
    · rw [Bool.not_eq_true] at hun
      rw [hun]
      simpa using safe_synthesiseAddr_iff

theorem safe_synthesiseFromA_iff (hnet : net.Replies) {fallbackName : String} {rrs : List RR} :
    Safe net (synthesiseFromA lib fallbackName pref ttl rrs) s ↔
      rrs.any (synthesisPanics s.cfg) = false := by
  induction rrs with
  | nil => exact iff_of_true (Prog.avoids_ret _ _) rfl
  | cons rr rrs ih =>
    rw [synthesiseFromA, List.any_cons, Bool.or_eq_false_iff]
    by_cases hone : synthesisPanics s.cfg rr = false
    · rw [and_iff_right hone]
      refine safe_bind_iff_of_ends hnet (safe_synthesiseOne_iff.2 hone)
        (ends_synthesiseOne (Q := fun _ s' => s' = s) fun _ => rfl) fun synth s' hs' => ?_
      subst hs'
      rw [← ih, safe_bind_iff]
      exact and_iff_left (Prog.wp_of_forall (fun _ _ => Prog.avoids_ret _ _) _ _)
    · refine iff_of_false (fun h => hone ?_) fun h => hone h.1
      exact safe_synthesiseOne_iff.1 (safe_bind_iff.1 h).1

end Synthesis

/-! ## Forwarders that answer by a function -/

section Forwarders

variable {f : Forwarder} {uc : UnicodeCase} {lib : DnsLib} {s : ProxyState} {req : Msg}
  {q : Question} {z : Zone} {server : String} {via : Via}

theorem echoing_replies (f : Forwarder) : (echoing f).Replies := by
  intro server req via
  cases hf : f server req with
  | none => exact ⟨.failed none, by simp [echoing, hf, Reply.msg?]⟩
  | some m => exact ⟨.ok (m.replyTo req), by simp [echoing, hf, Reply.msg?]⟩

/-- A handler that looks something up is safe if what follows is, with what the
forwarder answers. -/
theorem safe_lookup_bind_iff (hf : CaseBlind f) (req : Msg) {α : Type} {k : Option Msg → Handler α}
    {R : Prop} (h : ∀ s', s'.cfg = s.cfg →
      (Safe (echoing f) (k ((f server req).map fun m => m.replyTo req)) s' ↔ R)) :
    Safe (echoing f) (lookup server req via >>= k) s ↔ R := by
  refine safe_bind_iff_of_ends (echoing_replies f) ((never_lookup server req via).avoids s)
    (ends_lookup server req via) fun up s' hlook => ?_
  obtain ⟨es, -, hes⟩ := hlook.log
  rw [hes.of_echoing hf]
  exact h s' hlook.cfg

theorem safe_cacheSet_pure {net : Network} {α : Type} (k : CacheKey) (rrs : List RR) (a : α) :
    Safe net (cacheSet k rrs >>= fun _ => pure a) s :=
  (Prog.Never.bind (Prog.never_perform nofun) fun _ => never_pure a).avoids s

theorem safe_answerFromA_iff (hf : CaseBlind f) {pref : Pref64} {upResp : Msg} :
    Safe (echoing f) (answerFromA lib req q pref server via upResp) s ↔
      (resolutionFromA lib s.cfg req q pref upResp
        ((f server (req.asking (aQuestion q))).map fun m =>
          m.replyTo (req.asking (aQuestion q)))).panics = false := by
  simp only [answerFromA, Request.load_value_bind, monadLift_self]
  refine safe_lookup_bind_iff hf (req.asking (aQuestion q)) fun s' hs' => ?_
  cases f server (req.asking (aQuestion q)) with
  | none => exact iff_of_true (Prog.avoids_ret _ _) rfl
  | some m =>
    rw [Option.map_some, resolutionFromA_panics, ← hs']
    dsimp only
    rw [safe_bind_iff, safe_synthesiseFromA_iff (echoing_replies f)]
    refine and_iff_left (Prog.wp_of_forall (fun synth s₂ => ?_) _ _)
    split_ifs
    · exact Prog.avoids_ret _ _
    · exact safe_cacheSet_pure _ _ _

theorem safe_resolveAAAA_iff (hf : CaseBlind f) :
    Safe (echoing f) (resolveAAAA lib req q z server via) s ↔
      (resolution lib s.cfg req q z (f server (req.asking q))
        (f server (req.asking (aQuestion q)))).panics = false := by
  rw [← resolution_replyTo (req.asking q) (req.asking (aQuestion q))]
  simp only [resolveAAAA, Request.load_value_bind, monadLift_self]
  refine safe_lookup_bind_iff hf (req.asking q) fun s' hs' => ?_
  cases f server (req.asking q) with
  | none => exact iff_of_true (Prog.avoids_ret _ _) rfl
  | some m =>
    rw [Option.map_some, ← hs']
    generalize m.replyTo (req.asking q) = upResp
    rw [resolution]
    dsimp only
    split_ifs with hname
    · exact iff_of_true (Prog.avoids_ret _ _) rfl
    · have hload : ¬ ProxyOp.loadConfig.Panics := by
        intro h
        cases h
      rw [safe_bind_of_never (never_usableAAAA hload upResp z), ends_usableAAAA]
      cases usableFrom s'.cfg z upResp with
      | some answer => exact iff_of_true (safe_cacheSet_pure _ _ _) rfl
      | none =>
        cases z.pref with
        | none => exact iff_of_true (Prog.avoids_ret _ _) rfl
        | some pref => exact safe_answerFromA_iff hf

theorem safe_handleAAAA_iff (uc : UnicodeCase) (lib : DnsLib) (s : ProxyState) (req : Msg)
    (q : Question) (z : Zone) (server : String) (via : Via) (hf : CaseBlind f) :
    Safe (echoing f) (handleAAAA uc lib req q z server via) s ↔
      (isIPv4Only uc q.name = false → CacheMisses s q →
        (resolution lib s.cfg req q z (f server (req.asking q))
          (f server (req.asking (aQuestion q)))).panics = false) := by
  simp only [handleAAAA, Request.load_value_bind, monadLift_self]
  cases isIPv4Only uc q.name with
  | true => exact iff_of_true (Prog.avoids_ret _ _) (fun h => by cases h)
  | false =>
    have hcached : (cachedAAAA q).Never ProxyOp.Panics := never_cachedAAAA nofun (fun _ => nofun) q
    rw [if_neg Bool.false_ne_true, safe_bind_of_never hcached, ends_cachedAAAA,
      safe_resolveAAAA_iff hf]
    exact ⟨fun h _ => h.1, fun h => ⟨h rfl, fun _ _ _ _ => Prog.avoids_ret _ _⟩⟩

theorem returns_handleVia {qs : List Question} {net : Network} (hnet : net.Replies)
    (hq : req.question = q :: qs)
    (h : staticFor uc lib s.static req q = none → ∀ z, zoneFor uc s.cfg q.name = some z →
      Returns net (dispatch uc lib req q z (serverFor s.cfg z) via) s) :
    Returns net (handleVia uc lib req via) s := by
  have hstatic : ¬ ProxyOp.loadStatic.Panics := fun h => by cases h
  have hload : ¬ ProxyOp.loadConfig.Panics := fun h => by cases h
  simp only [handleVia, Request.load_value_bind, monadLift_self]
  rw [hq]
  refine Prog.runs_bind (total_of_never hnet (never_staticAnswer hstatic uc lib req q) s)
    (ends_staticAnswer.2 ?_)
  cases hst : staticFor uc lib s.static req q with
  | some resp => exact Prog.runs_ret _ _
  | none =>
    refine Prog.runs_bind (total_of_never hnet (Prog.never_perform hload) s)
      (ends_loadConfig.2 ?_)
    cases hz : matchZone uc s.cfg.zones (toLower uc q.name) with
    | none => exact Prog.runs_ret _ _
    | some z =>
      dsimp only
      split_ifs with hb
      · exact Prog.runs_ret _ _
      · refine Prog.runs_bind (total_of_never hnet (never_getForwarder hload z) s)
          (ends_getForwarder.2 ?_)
        exact Prog.runs_bind (h hst z (zoneFor_eq_some hz hb))
          (Prog.wp_of_forall (fun _ _ => Prog.runs_ret _ _) _ _)

theorem Returns.map {α β : Type} {net : Network} {p : Handler α} {g : α → β}
    (h : Returns net p s) : Returns net (p >>= fun a => pure (g a)) s :=
  Prog.runs_bind h (Prog.wp_of_forall (fun _ _ => Prog.runs_ret _ _) _ _)

theorem returns_handleVia_aaaa (hf : CaseBlind f) (hq : req.AsksAAAA q)
    (h : (fresh uc lib s.cfg s.static f req q).panics = false) :
    Returns (echoing f) (handleVia uc lib req via) s := by
  obtain ⟨qs, hqs⟩ := List.head?_eq_some_iff.1 hq.head
  refine returns_handleVia (echoing_replies f) hqs fun hst z hz => ?_
  have hhandle : Returns (echoing f)
      (handleAAAA uc lib req { q with qtype := typeAAAA } z (serverFor s.cfg z) via) s := by
    refine returns_of_safe (echoing_replies f)
      ((safe_handleAAAA_iff _ _ _ _ _ _ _ _ hf).2 fun hname _ => ?_)
    rw [fresh, hst, hz] at h
    dsimp only at h hname
    rw [hname] at h
    exact h
  simp only [dispatch, Request.load_value_bind]
  rw [if_neg (not_not.2 hq.qclass), dnssecValidatingClient_eq, hq.plain]
  rcases hq.qtype with ht | ht
  · have hq' : { q with qtype := typeAAAA } = q := by rw [← ht]
    rw [hq'] at hhandle
    rw [if_pos ht, if_neg Bool.false_ne_true]
    exact hhandle.map
  · rw [if_neg (by rw [ht]; decide), if_pos ht, if_neg Bool.false_ne_true]
    exact hhandle.map

end Forwarders

end Ydn64.Dns64
