import Ydn64.Cmd.ReloadPromise

/-!
# A reload of an unchanged file and environment

The start and a reload compute the configuration by two separate paths.  They
agree on every key of NAT64 and on all keys of DNS64 but two.

* The private key of the environment replaces the zones at the start, and the
  reload does not apply it, so the zones of the file come back.
* Each pass of validation normalises the static names once, and the key
  override costs the start one pass more.

`reload_keeps_services_iff` is the exact condition.
-/

namespace Ydn64.Cmd

open Ydn64.GoStd Ydn64.Config Ydn64.Dns64

variable {uc : UnicodeCase}

/-! ## The keys on which the two paths agree -/

theorem Passed.newSettings_eq {c₀ c c' : AppConfig} {n m : Nat} (h : Passed uc c₀ n c)
    (h' : Passed uc c₀ m c') (ha : c'.allowedSources = c.allowedSources) :
    Nat64.newSettings uc c'.nat64 c'.allowedSources c'.ignoredList
      = Nat64.newSettings uc c.nat64 c.allowedSources c.ignoredList := by
  rw [h.keys, h'.keys, ha]
  rfl

theorem Passed.dns64_eq {c₀ c c' : AppConfig} {n m : Nat} (h : Passed uc c₀ n c)
    (h' : Passed uc c₀ m c') :
    c'.dns64 = { c.dns64 with
      listen := c'.dns64Listen, zones := c'.dns64Zones, static := c'.dns64Static } := by
  rw [h.keys, h'.keys]
  rfl

theorem Passed.ignoredList_eq {c₀ c c' : AppConfig} {n m : Nat} (h : Passed uc c₀ n c)
    (h' : Passed uc c₀ m c') : c'.ignoredList = c.ignoredList := by
  rw [h.keys, h'.keys]
  rfl

/-! ## The start -/

theorem start_eq_ok {ygg : YggKeys} {o : StartOrders} {env : Environment}
    {file : ConfFile} {p : Process} (h : start ygg uc o env file = .ok p) :
    ∃ c, startConfig ygg uc o env file = .ok c ∧ p.env = env ∧
      startNat64 uc c = .ok p.services.nat64 ∧
      startDns64 uc o.serve c = .ok p.services.dns64 := by
  unfold start at h
  obtain ⟨c, hc, h⟩ := except_bind_eq_ok.1 h
  obtain ⟨nat64, hn, h⟩ := except_bind_eq_ok.1 h
  obtain ⟨dns64, hd, h⟩ := except_bind_eq_ok.1 h
  obtain rfl := Except.ok.inj h
  exact ⟨c, hc, rfl, hn, hd⟩

theorem start_serve {ygg : YggKeys} {o : StartOrders} {env : Environment}
    {file : ConfFile} {p : Process} (h : start ygg uc o env file = .ok p)
    (serve : MapOrder) : ∃ p', start ygg uc { o with serve := serve } env file = .ok p' := by
  obtain ⟨c, hc, -, hn, hd⟩ := start_eq_ok h
  have hc' : startConfig ygg uc { o with serve := serve } env file = .ok c := hc
  have hd' : ∃ d, startDns64 uc serve c = .ok d := by
    unfold startDns64 at hd ⊢
    split_ifs at hd ⊢
    · unfold Dns64.newService at hd ⊢
      cases hia : parseIA uc c.dns64.invalidAddress with
      | none =>
        rw [hia] at hd
        cases hd
      | some ia => exact ⟨_, rfl⟩
    · exact ⟨_, rfl⟩
  obtain ⟨d, hd'⟩ := hd'
  unfold start
  rw [hc']
  simp only [bind, Except.bind, hn, hd']
  exact ⟨_, rfl⟩

theorem startNat64_reload {c c' : AppConfig} {nat64 : Option Nat64.Service}
    (h : startNat64 uc c = .ok nat64)
    (hset : Nat64.newSettings uc c'.nat64 c'.allowedSources c'.ignoredList
      = Nat64.newSettings uc c.nat64 c.allowedSources c.ignoredList) :
    (nat64.map fun s => s.reload uc c'.nat64 c'.allowedSources c'.ignoredList) = nat64 := by
  unfold startNat64 at h
  split_ifs at h
  · cases hs : Nat64.newService uc c.nat64 c.allowedSources c.ignoredList with
    | error e =>
      rw [hs] at h
      cases h
    | ok s =>
      rw [hs] at h
      obtain rfl := Except.ok.inj h
      unfold Nat64.newService at hs
      cases hp : parsePref64 c.nat64.pool6 with
      | error e =>
        rw [hp] at hs
        cases hs
      | ok pref64 =>
        rw [hp] at hs
        obtain rfl := Except.ok.inj hs
        rw [Option.map_some, Nat64.Service.reload, hset]
  · obtain rfl := Except.ok.inj h
    rfl

theorem startDns64_eq_ok {o : MapOrder} {c : AppConfig} {dns64 : Option Dns64.Service}
    (h : startDns64 uc o c = .ok dns64) :
    (c.dns64Enable = false ∧ dns64 = none) ∨
      (c.dns64Enable = true ∧ ∃ s, dns64 = some s ∧
        newService uc o c.dns64 c.allowedSources c.ignoredList = some s) := by
  unfold startDns64 at h
  split_ifs at h with hd
  · refine .inr ⟨hd, ?_⟩
    cases hs : Dns64.newService uc o c.dns64 c.allowedSources c.ignoredList with
    | none =>
      rw [hs] at h
      cases h
    | some s =>
      rw [hs] at h
      exact ⟨s, (Except.ok.inj h).symm, rfl⟩
  · exact .inl ⟨Bool.eq_false_iff.2 hd, (Except.ok.inj h).symm⟩

/-! ## The reload -/

/-- The services after a reload of the file they were started with are what
they were exactly when the zones and the static table resolve to the same. -/
theorem services_reloadConfig_iff {ygg : YggKeys} {o : StartOrders} {env : Environment}
    {c₀ c c' : AppConfig} {p : Process} {ro : ReloadOrders}
    (h : start ygg uc o env (.decoded c₀) = .ok p)
    (hc : startConfig ygg uc o env (.decoded c₀) = .ok c)
    (hc' : reloadedConfig uc env ⟨.decoded c₀, ro⟩ = .ok c') :
    (reloadConfig uc p ⟨.decoded c₀, ro⟩).1.services = p.services ↔
      (c₀.dns64Enable = true →
        buildZones uc c₀.dns64Zones = buildZones uc (startZones ygg env c₀) ∧
        parseStaticEntries uc ro.serve c'.dns64Static
          = parseStaticEntries uc o.serve c.dns64Static) := by
  obtain ⟨c1, hc1, henv, hn, hd⟩ := start_eq_ok h
  obtain rfl : c1 = c := Except.ok.inj (hc1.symm.trans hc)
  obtain ⟨hpass, ha, hz⟩ := startConfig_passed hc
  obtain ⟨_, hfile, -, hpass', ha', hz'⟩ := reloadedConfig_passed hc'
  obtain rfl := ConfFile.decoded.inj hfile
  have hallowed : c'.allowedSources = c1.allowedSources := ha'.trans ha.symm
  have hnat := startNat64_reload hn (hpass.newSettings_eq hpass' hallowed)
  have hred : ∀ dns64, reloadDns64 uc ro.serve c' p.services.dns64 = some dns64 →
      ((reloadConfig uc p ⟨.decoded c₀, ro⟩).1.services = p.services ↔
        dns64 = p.services.dns64) := by
    intro dns64 hdns
    unfold reloadConfig
    rw [henv, hc']
    dsimp only
    rw [hdns]
    dsimp only
    rw [hnat]
    exact ⟨fun he => congrArg Services.dns64 he, fun he => by rw [he]⟩
  rcases startDns64_eq_ok hd with ⟨hen, hnone⟩ | ⟨hen, s, hsome, hs⟩
  · rw [hred none (by rw [hnone]; rfl), hnone]
    exact iff_of_true rfl fun hd₀ =>
      absurd (hpass.dns64Enable.trans hd₀) (by rw [hen]; exact Bool.false_ne_true)
  · obtain ⟨s', hs', hiff⟩ := reload_newService_iff hs ro.serve c'.dns64Listen
      c'.dns64Zones c'.dns64Static
    rw [← hpass.dns64_eq hpass', ← hallowed, ← hpass.ignoredList_eq hpass'] at hs'
    have hdns : reloadDns64 uc ro.serve c' p.services.dns64 = some (some s') := by
      rw [hsome]
      exact Option.map_eq_some_iff.2 ⟨s', hs', rfl⟩
    rw [hred _ hdns, hsome, Option.some.injEq, hiff, hz']
    have hzones : c1.dns64.zones = startZones ygg env c₀ := hz
    rw [hzones]
    exact ⟨fun hk _ => hk, fun hk => hk (hpass.dns64Enable.symm.trans hen)⟩

/-- The zones and the static table of a file resolve to the same at the start
and on a reload, whatever the orders of the ranges. -/
structure TablesAgree (uc : UnicodeCase) (ygg : YggKeys) (env : Environment)
    (c₀ : AppConfig) : Prop where
  zones : buildZones uc c₀.dns64Zones = buildZones uc (startZones ygg env c₀)
  static : StaticAgree uc (c₀.dns64Static.map (normEntry uc)^[reloadPasses env])
    (c₀.dns64Static.map (normEntry uc)^[startPasses env])

/-- Where they do, a reload with the file and the environment unchanged leaves
every setting of the services as the start installed it. -/
theorem services_reloadConfig_of_agree {ygg : YggKeys} {o : StartOrders} {env : Environment}
    {c₀ : AppConfig} {p : Process} (ro : ReloadOrders)
    (hp : start ygg uc o env (.decoded c₀) = .ok p)
    (hcond : c₀.dns64Enable = true → TablesAgree uc ygg env c₀) :
    (reloadConfig uc p ⟨.decoded c₀, ro⟩).1.services = p.services := by
  obtain ⟨c, hc, -⟩ := start_eq_ok hp
  obtain ⟨c', hc'⟩ := reloadedConfig_of_start hc ro
  obtain ⟨_, hfile, -, hpass', -⟩ := reloadedConfig_passed hc'
  obtain rfl := ConfFile.decoded.inj hfile
  refine (services_reloadConfig_iff hp hc hc').2 fun hd => ⟨(hcond hd).zones, ?_⟩
  have hagree : StaticAgree uc c'.dns64Static c.dns64Static :=
    (hcond hd).static.perm (hpass'.static hd).symm
      ((startConfig_passed hc).1.static hd).symm
  exact parseStaticEntries_eq_iff.2 hagree _ _

theorem iterate_normEntry_fst {e : String × String}
    (h : staticKey uc (staticKey uc e.1) = staticKey uc e.1) (n : Nat) :
    ((normEntry uc)^[n + 1] e).1 = staticKey uc e.1 := by
  induction n with
  | zero => rfl
  | succ n ih =>
    rw [Function.iterate_succ_apply']
    exact (congrArg (staticKey uc) ih).trans h

theorem staticAgree_self {static : List (String × String)} (h : StaticOk uc static)
    (hnames : ∀ e ∈ static, staticKey uc (staticKey uc e.1) = staticKey uc e.1) (n : Nat) :
    StaticAgree uc (static.map (normEntry uc)^[n + 1]) (static.map (normEntry uc)^[n + 1]) := by
  refine ⟨fun k => Iff.rfl, fun k ip ip' hip hip' => ?_⟩
  have hkey : ∀ ip, (k, ip) ∈ staticEntries uc (static.map (normEntry uc)^[n + 1]) →
      ∃ e ∈ static, staticKey uc e.1 = k ∧
        staticEntry uc ((normEntry uc)^[n + 1] e) = some (k, ip) := by
    intro ip hip
    obtain ⟨_, he, hentry⟩ := List.mem_filterMap.1 hip
    obtain ⟨e, hmem, rfl⟩ := List.mem_map.1 he
    obtain ⟨hk, -⟩ := staticEntry_eq_some_iff.1 hentry
    rw [iterate_normEntry_fst (hnames e hmem), hnames e hmem] at hk
    exact ⟨e, hmem, hk, hentry⟩
  obtain ⟨e, hmem, hk, hentry⟩ := hkey ip hip
  obtain ⟨e', hmem', hk', hentry'⟩ := hkey ip' hip'
  obtain rfl := List.inj_on_of_nodup_map h.nodup hmem hmem' (hk.trans hk'.symm)
  exact congrArg Prod.snd (Option.some.inj (hentry.symm.trans hentry'))

/-- Without a private key in the environment, and with static names that one
pass normalises for good, every reload of the file that was started keeps every
setting of the services. -/
theorem reload_keeps_services_of_no_key {ygg : YggKeys} {o : StartOrders} {env : Environment}
    {c₀ : AppConfig} {p : Process} (ro : ReloadOrders)
    (h : start ygg uc o env (.decoded c₀) = .ok p) (hkey : env.privateKey = "")
    (hnames : ∀ e ∈ c₀.dns64Static, staticKey uc (staticKey uc e.1) = staticKey uc e.1) :
    (reloadConfig uc p ⟨.decoded c₀, ro⟩).1.services = p.services := by
  refine services_reloadConfig_of_agree ro h fun hd => ?_
  obtain ⟨c, hc, -⟩ := start_eq_ok h
  obtain ⟨c', hc'⟩ := reloadedConfig_of_start hc ro
  obtain ⟨_, hfile, hvalid, -⟩ := reloadedConfig_passed hc'
  obtain rfl := ConfFile.decoded.inj hfile
  refine ⟨?_, ?_⟩
  · unfold startZones
    rw [hkey]
    rfl
  · -- Without the key the start makes the passes of a reload, one at least.
    have hpasses : startPasses env = reloadPasses env := by
      unfold startPasses reloadPasses
      rw [if_pos hkey]
    have hone : reloadPasses env = (if env.allowedSources = "" then 0 else 1) + 1 :=
      Nat.add_comm _ _
    rw [hpasses, hone]
    exact staticAgree_self (hvalid.dns64 hd).static hnames _

/-- For every file and environment that the start accepts, a reload with both
unchanged leaves every setting of the services as the start installed it,
exactly when DNS64 is off or its zones and its static table resolve to the same
on the two paths. -/
theorem reload_keeps_services_iff {ygg : YggKeys} {o₀ : StartOrders} {env : Environment}
    {c₀ : AppConfig} {p₀ : Process}
    (h : start ygg uc o₀ env (.decoded c₀) = .ok p₀) :
    (∀ o ro p, start ygg uc o env (.decoded c₀) = .ok p →
        (reloadConfig uc p ⟨.decoded c₀, ro⟩).1.services = p.services) ↔
      (c₀.dns64Enable = true → TablesAgree uc ygg env c₀) := by
  constructor
  · intro hall hd
    obtain ⟨c, hc, -⟩ := start_eq_ok h
    obtain ⟨c', hc'⟩ := reloadedConfig_of_start hc {}
    obtain ⟨_, hfile, -, hpass', -⟩ := reloadedConfig_passed hc'
    obtain rfl := ConfFile.decoded.inj hfile
    -- The two ranges of the resolver may take any orders.
    have hserve : ∀ o o', buildZones uc c₀.dns64Zones = buildZones uc (startZones ygg env c₀) ∧
        parseStaticEntries uc o' c'.dns64Static = parseStaticEntries uc o c.dns64Static := by
      intro o o'
      obtain ⟨p, hp⟩ := start_serve h o
      have hro : reloadedConfig uc env ⟨.decoded c₀, { serve := o' }⟩ = .ok c' := hc'
      exact (services_reloadConfig_iff hp hc hro).1 (hall _ _ _ hp) hd
    refine ⟨(hserve default default).1, ?_⟩
    have hagree : StaticAgree uc c'.dns64Static c.dns64Static :=
      parseStaticEntries_eq_iff.1 fun o o' => (hserve o' o).2
    exact hagree.perm (hpass'.static hd) ((startConfig_passed hc).1.static hd)
  · intro hcond o ro p hp
    exact services_reloadConfig_of_agree ro hp hcond

/-- With no override and no static entries the start and the reload agree. -/
theorem reload_keeps_services_bothEnabled :
    ∃ p ∈ (start sampleKeys asciiCase {} ⟨"", ""⟩ (.decoded bothEnabled)).toOption,
      (reloadConfig asciiCase p ⟨.decoded bothEnabled, {}⟩).1.services = p.services := by
  have hstart : ∃ p ∈ (start sampleKeys asciiCase {} ⟨"", ""⟩ (.decoded bothEnabled)).toOption,
      p.env = ⟨"", ""⟩ := by
    decide +kernel
  obtain ⟨p, hp, -⟩ := hstart
  have hok := toOption_eq_some hp
  refine ⟨p, hp, (reload_keeps_services_iff hok).2 (fun _ => ⟨?_, ?_, ?_⟩) {} {} p hok⟩
  · decide +kernel
  · exact fun k => Iff.rfl
  · exact fun k ip ip' hip => by cases hip

/-- A file with a zone of its own. -/
def ownZone : AppConfig :=
  { bothEnabled with dns64Zones := [{ domains := ["."], pref := "300:9:9:9::" }] }

/-- The environment with the private key of the node: the seed of 32 zero bytes
and its public key. -/
def keyEnvironment : Environment where
  privateKey := "0000000000000000000000000000000000000000000000000000000000000000" ++
    "3b6a27bcceb6a42d62a3a8d02a6f0d73653215771de243a63ac048a18b59da29"
  allowedSources := ""

/-- With a private key in the environment the reload is applied and replaces
the zones of the start by those of the file. -/
theorem reload_forgets_private_key :
    ∃ p ∈ (start sampleKeys asciiCase {} keyEnvironment (.decoded ownZone)).toOption,
      (reloadConfig asciiCase p ⟨.decoded ownZone, {}⟩).2.applied = true ∧
      (reloadConfig asciiCase p ⟨.decoded ownZone, {}⟩).1.services ≠ p.services := by
  decide +kernel

end Ydn64.Cmd
