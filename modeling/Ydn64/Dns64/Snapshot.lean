import Ydn64.Dns64.Returns

/-!
# One query and the reloads beside it

A handler loads the configuration anew wherever it needs a part of it, and
`proxy.reload` may store another one between two loads.  `switchStep` is the
world of one query in which this happens: before every operation any number of
configurations may be stored.  The history keeps what was installed and what the
query has loaded.

A handler reads a part of each configuration that it loads: the zones at the first
load, the default forwarder if the zone has none of its own, and the filters in the
loops over records.  If the later configurations have with the first one in common
what is read of them (`ReadsAlike`), the run is one with the first one held fixed
(`single_snapshot`).  If they have not, the response may be that of no configuration
at all: the zone and its prefix come from the one and the default forwarder from the
other.
-/

namespace Ydn64.Dns64

open Ydn64.GoStd Ydn64.Config Ydn64.Lib
open Ydn64.Nat64 (second)

/-! ## The world -/

/-- The proxy, the configurations that were installed during the query, and
those that it loaded. -/
structure SwitchState where
  base : ProxyState
  installed : List ProxyConfig
  loads : List ProxyConfig := []

/-- The reloads before an operation, and the choices of the operation. -/
structure Switch where
  reloads : List ProxyConfig := []
  chance : Chance := {}

/-- The configuration after the reloads. -/
def SwitchState.current (s : SwitchState) (l : Switch) : ProxyConfig :=
  l.reloads.getLastD s.base.cfg

/-- What the query has loaded after an operation. -/
def loadsAfter (loads : List ProxyConfig) (cfg : ProxyConfig) : ProxyOp → List ProxyConfig
  | .loadConfig => loads ++ [cfg]
  | _ => loads

/-- The reloads, and then one operation of the handler. -/
def switchStep (net : Network) (s : SwitchState) (op : ProxyOp) (l : Switch) :
    Option (op.Ans × SwitchState) :=
  (proxyStep net { s.base with cfg := s.current l } op l.chance).map fun r =>
    (r.1, { base := r.2
            installed := s.installed ++ l.reloads
            loads := loadsAfter s.loads (s.current l) op })

/-- The query before its first operation. -/
def SwitchState.start (base : ProxyState) : SwitchState where
  base := base
  installed := [base.cfg]

/-- The response is one that the query gets while one of the configurations is
held fixed. -/
def SingleSnapshot (net : Network) (uc : UnicodeCase) (lib : DnsLib) (base : ProxyState)
    (req : Msg) (via : Via) (installed : List ProxyConfig) (resp : Msg) : Prop :=
  ∃ c ∈ installed, ∃ chances s',
    Prog.exec (proxyStep net) (handleVia uc lib req via) { base with cfg := c } chances =
      some (resp, s')

/-! ## What is read of a configuration -/

/-- The configuration `c'`, loaded later, is as good to a query as the configuration
`c` of its first load. -/
structure ReadsAlike (uc : UnicodeCase) (q : Question) (c c' : ProxyConfig) : Prop where
  /-- The default forwarder is read if the zone has no forwarder. -/
  forward : ∀ z, zoneFor uc c q.name = some z → z.forwarder = "" →
    c'.defaultForward = c.defaultForward
  /-- The policy and the two lists of subnets are read for AAAA records. -/
  filters : q.qtype = typeAAAA ∨ q.qtype = typeANY → c'.ia = c.ia ∧
    c'.ignoredDstNets = c.ignoredDstNets ∧ c'.excludedAAAANets = c.excludedAAAANets
  /-- The zones are read again for the address of a PTR query. -/
  zones : q.qtype = typePTR → c'.zones = c.zones

/-- The answers that the two runs get: the same, but for loads. -/
def answersAlike (R : ProxyConfig → Prop) (c : ProxyConfig) :
    (op : ProxyOp) → op.Ans → op.Ans → Prop
  | .loadConfig, a, a' => R a ∧ a' = c
  | _, a, a' => a = a'

section Insensitive

variable {R : ProxyConfig → Prop} {c : ProxyConfig}

theorem insensitive_load {α : Type} {f : ProxyConfig → Handler α}
    (hsame : ∀ c', R c' → f c' = f c) (hf : ∀ c', (f c').Insensitive (answersAlike R c)) :
    (loadConfig >>= f).Insensitive (answersAlike R c) := by
  refine ⟨fun a a' hok => ?_, hf⟩
  obtain ⟨ha, rfl⟩ : R a ∧ a' = c := hok
  exact hsame a ha

theorem insensitive_of_never {α : Type} {p : Handler α}
    (h : p.Never (· = .loadConfig)) : p.Insensitive (answersAlike R c) := by
  refine Prog.Insensitive.of_never h fun op hop a a' hok => ?_
  cases op with
  | loadConfig => exact absurd rfl hop
  | _ => exact hok

theorem insensitive_lookup (server : String) (req : Msg) (via : Via) :
    (lookup server req via).Insensitive (answersAlike R c) :=
  insensitive_of_never (never_lookup_of (fun _ h => .inr h) server req via)

theorem insensitive_cacheGet (k : CacheKey) :
    (cacheGet k).Insensitive (answersAlike R c) :=
  insensitive_of_never (Prog.never_perform nofun)

theorem insensitive_cacheSet (k : CacheKey) (rrs : List RR) :
    (cacheSet k rrs).Insensitive (answersAlike R c) :=
  insensitive_of_never (Prog.never_perform nofun)

theorem insensitive_getForwarder {z : Zone}
    (h : z.forwarder = "" → ∀ c', R c' → c'.defaultForward = c.defaultForward) :
    (getForwarder z).Insensitive (answersAlike R c) := by
  unfold getForwarder
  split_ifs with hz
  · trivial
  · refine insensitive_load (fun c' hc' => ?_) fun _ => trivial
    rw [h (not_not.1 hz) c' hc']

theorem insensitive_reversePTR (uc : UnicodeCase) (name : String)
    (h : ∀ c', R c' → c'.zones = c.zones) :
    (reversePTR uc name).Insensitive (answersAlike R c) := by
  unfold reversePTR
  cases ptrToIPv6 uc name with
  | none => trivial
  | some ip6 =>
    refine insensitive_load (fun c' hc' => ?_) fun _ => trivial
    rw [h c' hc']

section Filters

variable (hfilters : ∀ c', R c' → c'.ia = c.ia ∧ c'.ignoredDstNets = c.ignoredDstNets ∧
  c'.excludedAAAANets = c.excludedAAAANets)
include hfilters

theorem insensitive_dropExcludedAAAA (rrs : List RR) :
    (dropExcludedAAAA rrs).Insensitive (answersAlike R c) := by
  refine insensitive_load (fun c' hc' => ?_) fun _ => trivial
  rw [(hfilters c' hc').2.2]

theorem insensitive_filterAAAA (z : Zone) (rrs : List RR) :
    (filterAAAA rrs z).Insensitive (answersAlike R c) := by
  refine (insensitive_dropExcludedAAAA hfilters rrs).bind fun out => ?_
  induction out with
  | nil => trivial
  | cons rr out ih =>
    refine Prog.Insensitive.bind ?_ fun keep => ih.bind fun rest => trivial
    unfold keepAAAA
    cases rr.aaaa? with
    | none => trivial
    | some ip =>
      dsimp only
      split_ifs
      · refine insensitive_load (fun c' hc' => ?_) fun _ => trivial
        rw [(hfilters c' hc').1]
      · trivial

theorem insensitive_synthesiseAddr (lib : DnsLib) (pref : Pref64) (name : String)
    (ttl : UInt32) (ipv4 : IP) :
    (synthesiseAddr lib pref name ttl ipv4).Insensitive (answersAlike R c) := by
  refine Prog.Insensitive.bind ?_ fun ignored => ?_
  · refine insensitive_load (fun c' hc' => ?_) fun _ => trivial
    rw [(hfilters c' hc').2.1]
  · split_ifs
    · trivial
    · refine Prog.Insensitive.bind ?_ fun _ => trivial
      unfold makeSynthesisedAAAA
      cases to4 ipv4 with
      | none => exact ⟨fun a => a.elim, fun a => a.elim⟩
      | some v4 => trivial

theorem insensitive_synthesiseFromA (lib : DnsLib) (fallbackName : String) (pref : Pref64)
    (maxTTL : UInt32) (rrs : List RR) :
    (synthesiseFromA lib fallbackName pref maxTTL rrs).Insensitive (answersAlike R c) := by
  induction rrs with
  | nil => trivial
  | cons rr rrs ih =>
    refine Prog.Insensitive.bind ?_ fun synth => ih.bind fun rest => trivial
    unfold synthesiseOne
    cases rr.a? with
    | none => trivial
    | some ipv4 =>
      dsimp only
      by_cases hzero : isUnspecified ipv4 = true
      · rw [if_pos hzero]
        refine insensitive_load (fun c' hc' => ?_) fun c' => ?_
        · rw [(hfilters c' hc').1]
        · cases c'.ia with
          | ignore => exact insensitive_synthesiseAddr hfilters lib pref _ _ ipv4
          | discard | process => trivial
      · rw [if_neg hzero]
        exact insensitive_synthesiseAddr hfilters lib pref _ _ ipv4

theorem insensitive_answerFromA (lib : DnsLib) (req : Msg) (q : Question) (pref : Pref64)
    (server : String) (via : Via) (upResp : Msg) :
    (answerFromA lib req q pref server via upResp : Handler _).Insensitive (answersAlike R c) := by
  refine (insensitive_lookup _ _ _).bind fun r => ?_
  cases r with
  | none => trivial
  | some aResp =>
    refine (insensitive_synthesiseFromA hfilters lib _ pref _ _).bind fun synth => ?_
    dsimp only
    split_ifs
    · trivial
    · exact (insensitive_cacheSet _ _).bind fun _ => trivial

theorem insensitive_resolveAAAA (lib : DnsLib) (req : Msg) (q : Question) (z : Zone)
    (server : String) (via : Via) :
    (resolveAAAA lib req q z server via : Handler _).Insensitive (answersAlike R c) := by
  refine (insensitive_lookup _ _ _).bind fun r => ?_
  cases r with
  | none => trivial
  | some upResp =>
    dsimp only
    split_ifs
    · trivial
    · refine Prog.Insensitive.bind ?_ fun usable => ?_
      · unfold usableAAAA
        split_ifs
        · exact (insensitive_filterAAAA hfilters z _).bind fun _ => trivial
        · trivial
      · cases usable with
        | some answer => exact (insensitive_cacheSet _ _).bind fun _ => trivial
        | none =>
          cases z.pref with
          | none => trivial
          | some pref => exact insensitive_answerFromA hfilters lib req q pref server via upResp

theorem insensitive_handleAAAA (uc : UnicodeCase) (lib : DnsLib) (req : Msg) (q : Question)
    (z : Zone) (server : String) (via : Via) :
    (handleAAAA uc lib req q z server via : Handler _).Insensitive (answersAlike R c) := by
  unfold handleAAAA
  split_ifs
  · trivial
  · refine Prog.Insensitive.bind ?_ fun cached => ?_
    · refine (insensitive_cacheGet _).bind fun entry => ?_
      cases entry with
      | none => trivial
      | some rrs => exact (insensitive_dropExcludedAAAA hfilters rrs).bind fun _ => trivial
    · cases cached with
      | some answer => trivial
      | none => exact insensitive_resolveAAAA hfilters lib req q z server via

end Filters

theorem insensitive_handlePTR (uc : UnicodeCase) (lib : DnsLib) (req : Msg) (q : Question)
    (server : String) (via : Via) (h : ∀ c', R c' → c'.zones = c.zones) :
    (handlePTR uc lib req q server via : Handler _).Insensitive (answersAlike R c) := by
  refine (insensitive_reversePTR uc q.name h).bind fun found => ?_
  cases found with
  | none => exact insensitive_lookup _ _ _
  | some ipv4 =>
    refine (insensitive_lookup _ _ _).bind fun r => ?_
    cases r <;> trivial

end Insensitive

/-- Behind the first load a query does not tell configurations apart that are
alike to it. -/
theorem insensitive_dispatch (uc : UnicodeCase) (lib : DnsLib) (req : Msg) (q : Question)
    (z : Zone) (server : String) (via : Via) (c : ProxyConfig) :
    (dispatch uc lib req q z server via : Handler _).Insensitive
      (answersAlike (ReadsAlike uc q c) c) := by
  have hrelay := fun b : Bool =>
    (insensitive_lookup (R := ReadsAlike uc q c) (c := c) server req via).bind
      (f := fun r => pure (r, b)) fun _ => trivial
  simp only [dispatch, Request.load_value_bind]
  split_ifs with hclass h6 hvalid hany hvalid hA hptr
  · exact hrelay false
  · exact hrelay true
  · exact (insensitive_handleAAAA (fun c' h => h.filters (.inl h6)) uc lib req q z server via).bind
      fun _ => trivial
  · exact hrelay true
  · exact (insensitive_handleAAAA (fun c' h => h.filters (.inr hany)) uc lib req _ z server
      via).bind fun _ => trivial
  · refine Prog.Insensitive.bind ?_ fun _ => trivial
    unfold handleA
    by_cases hown : isIPv4Only uc q.name = true
    · rw [if_pos hown]
      trivial
    · rw [if_neg hown]
      refine (insensitive_lookup _ _ _).bind fun r => ?_
      cases r <;> trivial
  · exact (insensitive_handlePTR uc lib req q server via fun c' h => h.zones hptr).bind
      fun _ => trivial
  · exact hrelay false

/-- A program whose first load settles how it goes on: from then on it satisfies
`K` of the configuration that was loaded. -/
def SettledBy {α : Type} (K : ProxyConfig → Handler α → Prop) : Handler α → Prop
  | .ret _ => True
  | .call .loadConfig k => ∀ c, K c (k c)
  | .call _ k => ∀ ans, SettledBy K (k ans)

theorem settledBy_staticAnswer {K : ProxyConfig → Handler Msg → Prop} {uc : UnicodeCase}
    {lib : DnsLib} {req : Msg} {q : Question} {f : Option Msg → Handler Msg}
    (hf : ∀ r, SettledBy K (f r)) : SettledBy K (staticAnswer uc lib req q >>= f) := by
  unfold staticAnswer
  split_ifs
  · exact hf none
  · exact hf none
  · exact fun static => hf _

/-- The first load of a query is the one for its zone. -/
theorem settledBy_handleVia {uc : UnicodeCase} {lib : DnsLib} {req : Msg} {q : Question}
    {qs : List Question} (hq : req.question = q :: qs) (via : Via) :
    SettledBy (fun c p => p.Insensitive (answersAlike (ReadsAlike uc q c) c))
      (handleVia uc lib req via) := by
  simp only [handleVia, Request.load_value_bind, monadLift_self]
  rw [hq]
  refine settledBy_staticAnswer fun r => ?_
  cases r with
  | some resp => trivial
  | none =>
    intro c
    dsimp only [Prog.bind]
    cases hz : matchZone uc c.zones (toLower uc q.name) with
    | none => trivial
    | some z =>
      dsimp only
      split_ifs with hb
      · trivial
      · refine (insensitive_getForwarder fun hnone c' h => ?_).bind fun server =>
          (insensitive_dispatch uc lib req q z server via c).bind fun _ => trivial
        exact h.forward z (zoneFor_eq_some hz hb) hnone

/-! ## Runs -/

/-- No operation but a load depends on the configuration. -/
theorem proxyStep_config {net : Network} {base : ProxyState} {op : ProxyOp} {ch : Chance}
    {r : op.Ans × ProxyState} (h : proxyStep net base op ch = some r) (c : ProxyConfig)
    (hload : op = .loadConfig → base.cfg = c) :
    proxyStep net { base with cfg := c } op ch = some (r.1, { r.2 with cfg := c }) := by
  cases op with
  | loadConfig =>
    obtain rfl := Option.some.inj h
    obtain rfl := hload rfl
    rfl
  | cacheSet k rrs =>
    obtain ⟨cache, hset, rfl⟩ := Option.map_eq_some_iff.1 h
    simp only [proxyStep, hset, Option.map_some]
  | exchange server req via =>
    simp only [proxyStep] at h ⊢
    split_ifs at h ⊢
    obtain rfl := Option.some.inj h
    rfl
  | panic => cases h
  | _ =>
    obtain rfl := Option.some.inj h
    rfl

theorem subset_loadsAfter (loads : List ProxyConfig) (cfg : ProxyConfig) (op : ProxyOp) :
    loads ⊆ loadsAfter loads cfg op := by
  cases op with
  | loadConfig => exact List.subset_append_left loads [cfg]
  | _ => exact List.Subset.refl loads

section Switch

variable {net : Network} {uc : UnicodeCase} {lib : DnsLib} {base : ProxyState} {req resp : Msg}
  {via : Via} {ls : List Switch} {s s' : SwitchState}

theorem switchStep_eq_some {op : ProxyOp} {l : Switch} {r : op.Ans × SwitchState}
    (h : switchStep net s op l = some r) :
    proxyStep net { s.base with cfg := s.current l } op l.chance = some (r.1, r.2.base) ∧
      r.2.installed = s.installed ++ l.reloads ∧
      r.2.loads = loadsAfter s.loads (s.current l) op := by
  obtain ⟨r', hr', rfl⟩ := Option.map_eq_some_iff.1 h
  exact ⟨hr', rfl, rfl⟩

/-- The configuration is installed, and so is what was loaded. -/
structure Installed (s : SwitchState) : Prop where
  cfg : s.base.cfg ∈ s.installed
  loads : s.loads ⊆ s.installed

theorem proxyStep_cfg {op : ProxyOp} {ch : Chance} {r : op.Ans × ProxyState}
    (h : proxyStep net base op ch = some r) : r.2.cfg = base.cfg := by
  have hfix := proxyStep_config h base.cfg fun _ => rfl
  rw [h] at hfix
  rw [(Prod.ext_iff.1 (Option.some.inj hfix)).2]

theorem installed_step {op : ProxyOp} {l : Switch} {r : op.Ans × SwitchState} (hs : Installed s)
    (h : switchStep net s op l = some r) : Installed r.2 := by
  obtain ⟨hstep, hinstalled, hloads⟩ := switchStep_eq_some h
  have hcurrent : s.current l ∈ s.installed ++ l.reloads := getLastD_mem_append hs.cfg _
  refine ⟨?_, ?_⟩
  · rw [hinstalled, proxyStep_cfg hstep]
    exact hcurrent
  · rw [hinstalled, hloads]
    have hold : s.loads ⊆ s.installed ++ l.reloads :=
      fun c hc => List.mem_append_left _ (hs.loads hc)
    cases op with
    | loadConfig => exact List.append_subset.2 ⟨hold, by simpa using hcurrent⟩
    | _ => exact hold

theorem loads_of_exec {α : Type} {p : Handler α} {a : α}
    (hrun : Prog.exec (switchStep net) p s ls = some (a, s')) : s.loads <+: s'.loads := by
  refine Prog.wp_iff.1 (Prog.wp_invariant (I := fun t => s.loads <+: t.loads) ?_ p
    (List.prefix_refl _)) ls a s' hrun
  intro t op l r ht hr
  rw [(switchStep_eq_some hr).2.2]
  refine ht.trans ?_
  cases op with
  | loadConfig => exact List.prefix_append _ _
  | _ => exact List.prefix_refl _

/-- A program that does not tell the loaded configurations from `c` runs as with `c`
held fixed. -/
theorem exec_fixed {α : Type} {R : ProxyConfig → Prop} {c : ProxyConfig} {p : Handler α} {a : α}
    (hp : p.Insensitive (answersAlike R c))
    (hrun : Prog.exec (switchStep net) p s ls = some (a, s')) (hR : ∀ c' ∈ s'.loads, R c') :
    ∃ t', Prog.exec (proxyStep net) p { s.base with cfg := c } (ls.map Switch.chance) =
      some (a, t') := by
  have hback : ∀ (s : SwitchState) op l (r : op.Ans × SwitchState), switchStep net s op l = some r →
      (∀ c' ∈ r.2.loads, R c') → ∀ c' ∈ s.loads, R c' := by
    intro s op l r hr hloads c' hc'
    rw [(switchStep_eq_some hr).2.2] at hloads
    exact hloads c' (subset_loadsAfter _ _ op hc')
  have hstep : ∀ (s : SwitchState) (t : ProxyState) op l (r : op.Ans × SwitchState),
      t = { s.base with cfg := c } → switchStep net s op l = some r → (∀ c' ∈ r.2.loads, R c') →
      ∃ r', proxyStep net t op l.chance = some r' ∧ answersAlike R c op r.1 r'.1 ∧
        r'.2 = { r.2.base with cfg := c } := by
    rintro s _ op l r rfl hr hloads
    obtain ⟨hproxy, -, hafter⟩ := switchStep_eq_some hr
    by_cases hop : op = .loadConfig
    · subst hop
      obtain ⟨-, hbase⟩ := Prod.mk.inj (Option.some.inj hproxy)
      rw [hafter] at hloads
      refine ⟨(c, { s.base with cfg := c }), rfl, ⟨?_, rfl⟩, ?_⟩
      · rw [← (Prod.mk.inj (Option.some.inj hproxy)).1]
        exact hloads (s.current l) (List.mem_append_right _ (List.mem_singleton_self _))
      · rw [← hbase]
    · refine ⟨_, proxyStep_config hproxy c fun h => absurd h hop, ?_, rfl⟩
      cases op with
      | loadConfig => exact absurd rfl hop
      | _ => exact rfl
  obtain ⟨t', ht', -⟩ := Prog.exec_simulation (P := fun s => ∀ c' ∈ s.loads, R c')
    (R := fun s t => t = { s.base with cfg := c }) (g := Switch.chance) hback hstep hp hrun hR rfl
  exact ⟨t', ht'⟩

/-- A program that its first load settles runs as with the configuration of that
load held fixed, if the later ones are alike. -/
theorem exec_settled {α : Type} {R : ProxyConfig → ProxyConfig → Prop} {p : Handler α} {a : α}
    (hp : SettledBy (fun c p => p.Insensitive (answersAlike (R c) c)) p)
    (hrun : Prog.exec (switchStep net) p s ls = some (a, s')) (hnone : s.loads = [])
    (hinstalled : Installed s')
    (hR : ∀ c ∈ s'.loads.head?, ∀ c' ∈ s'.loads, R c c') :
    ∃ c ∈ s'.installed, ∃ t',
      Prog.exec (proxyStep net) p { s.base with cfg := c } (ls.map Switch.chance) =
        some (a, t') := by
  induction p generalizing s ls with
  | ret b =>
    obtain ⟨rfl, rfl, rfl⟩ := Prog.exec_ret hrun
    exact ⟨s.base.cfg, hinstalled.cfg, s.base, rfl⟩
  | call op k ih =>
    obtain ⟨l, ls', r, rfl, hr, hrun⟩ := Prog.exec_call hrun
    obtain ⟨hproxy, -, hafter⟩ := switchStep_eq_some hr
    by_cases hop : op = .loadConfig
    · subst hop
      obtain ⟨hans, hbase⟩ := Prod.mk.inj (Option.some.inj hproxy)
      rw [hnone] at hafter
      -- The configuration of the first load stays the first that was loaded.
      have hprefix := loads_of_exec hrun
      rw [hafter] at hprefix
      obtain ⟨rest, hloads⟩ := hprefix
      have hhead : s'.loads.head? = some (s.current l) := by
        rw [← hloads]
        rfl
      have hmem : s.current l ∈ s'.loads := List.mem_of_head? hhead
      rw [← hans] at hrun
      obtain ⟨t', ht'⟩ := exec_fixed (hp (s.current l)) hrun (hR _ hhead)
      refine ⟨s.current l, hinstalled.loads hmem, t', ?_⟩
      rw [List.map_cons, Prog.exec]
      rw [← hbase] at ht'
      exact ht'
    · have hkeeps : r.2.loads = [] ∧ SettledBy (fun c p => p.Insensitive (answersAlike (R c) c))
          (k r.1) := by
        cases op with
        | loadConfig => exact absurd rfl hop
        | _ => exact ⟨hafter.trans hnone, hp r.1⟩
      obtain ⟨c, hc, t', ht'⟩ := ih r.1 hkeeps.2 hrun hkeeps.1
      refine ⟨c, hc, t', ?_⟩
      rw [List.map_cons, Prog.exec, proxyStep_config hproxy c fun h => absurd h hop]
      exact ht'

/-- If the configurations that a query loads are alike to it, the response is that
of a query with one configuration held fixed. -/
theorem single_snapshot
    (hrun : Prog.exec (switchStep net) (handleVia uc lib req via) (.start base) ls =
      some (resp, s'))
    (halike : ∀ q ∈ req.question.head?, ∀ c ∈ s'.loads.head?, ∀ c' ∈ s'.loads,
      ReadsAlike uc q c c') :
    SingleSnapshot net uc lib base req via s'.installed resp := by
  have hinstalled : Installed s' := by
    have hstart : Installed (.start base) := ⟨List.mem_singleton_self _, List.nil_subset _⟩
    exact Prog.wp_iff.1 (Prog.wp_invariant (fun s op l r hs hr => installed_step hs hr) _ hstart)
      ls resp s' hrun
  cases hq : req.question with
  | nil =>
    have hret := handleVia_of_nil uc lib hq via
    rw [hret] at hrun
    obtain ⟨-, rfl, rfl⟩ := Prog.exec_ret hrun
    exact ⟨base.cfg, hinstalled.cfg, [], base, by rw [hret]; rfl⟩
  | cons q qs =>
    have hhead : q ∈ req.question.head? := by
      rw [hq]
      exact rfl
    obtain ⟨c, hc, t', ht'⟩ := exec_settled (settledBy_handleVia hq via) hrun rfl hinstalled
      (halike q hhead)
    exact ⟨c, hc, _, t', ht'⟩

end Switch

/-! ## A reload between two loads -/

/-- A catch-all zone without a forwarder of its own. -/
def defaultZone (pref : String) : Zone where
  domains := ["."]
  forwarder := ""
  pref := (parsePref64 pref).toOption
  returnIPv4Addresses := true
  returnIPv6Addresses := false

def oldConfig : ProxyConfig :=
  { filteringConfig with zones := [defaultZone "64:ff9b::/96"], defaultForward := "192.0.2.53:53" }

def newConfig : ProxyConfig :=
  { filteringConfig with
    zones := [defaultZone "2001:db8::/96"], defaultForward := "198.51.100.53:53" }

/-- The two default forwarders know different addresses for the name. -/
def splitForwarder : Forwarder := fun server req =>
  if req.firstType = some typeAAAA then some {}
  else some { answer := [⟨"a.example.", classINET, 60,
    .a [192, 0, 2, if server = "192.0.2.53:53" then 1 else 2]⟩] }

theorem splitForwarder_caseBlind : CaseBlind splitForwarder := by
  intro server req id flips
  rw [splitForwarder, splitForwarder, Msg.firstType_respelled]

/-- The choices of `sampleQuery`, with reloads after the load for the zone.  There
are `loads` loads of the default forwarder. -/
def switches (loads : Nat) (reloads : List ProxyConfig) (server : String) : List Switch :=
  let aReq := sampleQuery.asking ⟨"a.example.", typeA, classINET⟩
  let reply := ((splitForwarder server aReq).getD {}).replyTo aReq
  (idle 2).map (Switch.mk []) ++ [⟨reloads, {}⟩] ++
    (idle loads ++ lookupChances (Msg.replyTo {} sampleQuery) ++ idle 1 ++ lookupChances reply ++
      idle 2).map (Switch.mk [])

/-- The answer is under the old prefix with the address that the new forwarder
knows. -/
theorem mixed_snapshot :
    ∃ r ∈ Prog.exec (switchStep (echoing splitForwarder))
        (handleVia asciiCase anyName sampleQuery .udp) (.start (.new oldConfig ⟨second, 0, none⟩))
        (switches 1 [newConfig] "198.51.100.53:53"),
      ¬ SingleSnapshot (echoing splitForwarder) asciiCase anyName
        (.new oldConfig ⟨second, 0, none⟩) sampleQuery .udp r.2.installed r.1 := by
  have hrun : ∃ r ∈ Prog.exec (switchStep (echoing splitForwarder))
      (handleVia asciiCase anyName sampleQuery .udp) (.start (.new oldConfig ⟨second, 0, none⟩))
      (switches 1 [newConfig] "198.51.100.53:53"), r.2.installed = [oldConfig, newConfig] ∧
        ∀ c ∈ [oldConfig, newConfig], r.1.answer ≠ freshAnswer asciiCase anyName c ∅ splitForwarder
          sampleQuery ⟨"a.example.", typeAAAA, classINET⟩ := by
    decide +kernel
  obtain ⟨r, hr, hinstalled, hne⟩ := hrun
  refine ⟨r, hr, ?_⟩
  rw [hinstalled]
  rintro ⟨c, hc, chances, s', hfixed⟩
  have hasks : sampleQuery.AsksAAAA ⟨"a.example.", typeAAAA, classINET⟩ :=
    ⟨rfl, rfl, .inl rfl, by decide⟩
  have hends := ends_fresh asciiCase anyName .udp splitForwarder_caseBlind hasks
    (s := { ProxyState.new oldConfig ⟨second, 0, none⟩ with cfg := c }) fun _ => rfl
  exact hne c hc (Prog.wp_iff.1 hends chances r.1 s' hfixed).1

/-- The old configuration with a forwarder in its zone. -/
def ownForwarder : ProxyConfig :=
  { oldConfig with zones := [{ defaultZone "64:ff9b::/96" with forwarder := "192.0.2.53:53" }] }

/-- The reload changes the prefix and the default forwarder after the zone was
found, and the query does not see it. -/
theorem single_snapshot_ownForwarder :
    ∃ r ∈ Prog.exec (switchStep (echoing splitForwarder))
        (handleVia asciiCase anyName sampleQuery .udp)
        (.start (.new ownForwarder ⟨second, 0, none⟩))
        (switches 0 [newConfig] "192.0.2.53:53"),
      newConfig ∈ r.2.loads ∧ SingleSnapshot (echoing splitForwarder) asciiCase anyName
        (.new ownForwarder ⟨second, 0, none⟩) sampleQuery .udp r.2.installed r.1 := by
  have hrun : ∃ r ∈ Prog.exec (switchStep (echoing splitForwarder))
      (handleVia asciiCase anyName sampleQuery .udp)
      (.start (.new ownForwarder ⟨second, 0, none⟩))
      (switches 0 [newConfig] "192.0.2.53:53"),
      newConfig ∈ r.2.loads ∧ r.2.loads.head? = some ownForwarder ∧
        ∀ c ∈ r.2.loads, c = ownForwarder ∨ c = newConfig := by
    decide +kernel
  obtain ⟨r, hr, hnew, hhead, hloads⟩ := hrun
  have hzone : ∀ z ∈ zoneFor asciiCase ownForwarder "a.example.", z.forwarder ≠ "" := by
    decide +kernel
  refine ⟨r, hr, hnew, single_snapshot hr fun q hq c hc c' hc' => ?_⟩
  obtain rfl := Option.some.inj hq
  rw [hhead] at hc
  obtain rfl := Option.some.inj hc
  refine ⟨fun z hz hnone => absurd hnone (hzone z hz), fun _ => ?_, fun hptr => ?_⟩
  · rcases hloads c' hc' with rfl | rfl <;> exact ⟨rfl, rfl, rfl⟩
  · exact absurd hptr (by decide)

end Ydn64.Dns64
