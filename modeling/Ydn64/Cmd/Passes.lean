import Ydn64.Cmd.Process

/-!
# The configuration after some passes of validation

The start validates the keys one, two or three times and a reload once or
twice, with overrides in between.  `Passed uc c₀ n c` says that `c` comes from
the decoded keys `c₀` by `n` passes and overrides of the five keys that the
environment can change: all other keys are those of one pass over `c₀`, and the
static table is that of `c₀` with its entries normalised `n` times.

* `startConfig_passed` and `reloadedConfig_passed`: the two paths.
* `reloadedConfig_of_start`: a file and environment that the start accepts are
  accepted by a reload.
-/

namespace Ydn64.Cmd

open Ydn64.GoStd Ydn64.Config

variable {uc : UnicodeCase}

private theorem mapError_eq_ok {ε ε' α : Type} {f : ε → ε'} {x : Except ε α} {a : α}
    (h : x.mapError f = .ok a) : x = .ok a := by
  cases x with
  | error e => cases h
  | ok b =>
    obtain rfl : b = a := Except.ok.inj h
    rfl

/-- Replace the keys that an override or a pass can change. -/
def withKeys (c : AppConfig) (allowed : List String) (pool listen : String)
    (zones : List ZoneConfig) (static : List (String × String)) : AppConfig :=
  { c with
    allowedSources := allowed
    nat64Pool := pool
    dns64Listen := listen
    dns64Zones := zones
    dns64Static := static }

theorem completed_withKeys {c : AppConfig} (h : Completed uc c) (allowed : List String)
    (pool listen : String) (zones : List ZoneConfig) (static : List (String × String)) :
    Completed uc (withKeys c allowed pool listen zones static) where
  shared := by
    have hcomm : completeShared (withKeys c allowed pool listen zones static)
        = withKeys (completeShared c) allowed pool listen zones static := rfl
    rw [hcomm, h.shared]
  nat64 := by
    intro hn
    have hcomm : completeNat64 uc (withKeys c allowed pool listen zones static)
        = withKeys (completeNat64 uc c) allowed pool listen zones static := rfl
    rw [hcomm, h.nat64 hn]
  dns64 := by
    intro hd o
    have hcomm : completeDns64 uc o (withKeys c allowed pool listen zones static)
        = withKeys (completeDns64 uc o c) allowed pool listen zones
            ((o.order static).map (normEntry uc)) := rfl
    rw [hcomm, h.dns64 hd o]
    rfl

/-- The keys `c` come from `c₀` by `n` passes and overrides. -/
structure Passed (uc : UnicodeCase) (c₀ : AppConfig) (n : Nat) (c : AppConfig) : Prop where
  keys : c = withKeys (complete uc default c₀) c.allowedSources c.nat64Pool c.dns64Listen
    c.dns64Zones c.dns64Static
  static : c₀.dns64Enable = true →
    c.dns64Static.Perm (c₀.dns64Static.map (normEntry uc)^[n])

theorem Passed.dns64Enable {c₀ c : AppConfig} {n : Nat} (h : Passed uc c₀ n c) :
    c.dns64Enable = c₀.dns64Enable := by
  rw [h.keys]
  exact (complete_enables uc default c₀).2

theorem Passed.completed {c₀ c : AppConfig} {n : Nat} (h : Passed uc c₀ n c) :
    Completed uc c := by
  rw [h.keys]
  exact completed_withKeys (completed_complete uc default c₀) _ _ _ _ _

theorem passed_one {o : MapOrder} {c₀ c : AppConfig} (h : validate uc o c₀ = .ok c) :
    Passed uc c₀ 1 c := by
  obtain ⟨_, rfl⟩ := validate_eq_ok_iff.1 h
  refine ⟨?_, fun hd => ?_⟩
  · rw [complete_eq, complete_eq]
    split_ifs <;> rfl
  · rw [complete_dns64Static, if_pos hd]
    exact (o.perm _).map _

theorem Passed.override {c₀ c : AppConfig} {n : Nat} (h : Passed uc c₀ n c)
    (allowed : List String) (pool listen : String) (zones : List ZoneConfig) :
    Passed uc c₀ n (withKeys c allowed pool listen zones c.dns64Static) where
  keys := by
    conv_lhs => rw [h.keys]
    rfl
  static := h.static

theorem Passed.validate {o : MapOrder} {c₀ c c' : AppConfig} {n : Nat}
    (h : Passed uc c₀ n c) (hv : validate uc o c = .ok c') :
    Passed uc c₀ (n + 1) c' ∧ c'.allowedSources = c.allowedSources ∧
      c'.dns64Zones = c.dns64Zones := by
  obtain ⟨_, rfl⟩ := validate_eq_ok_iff.1 hv
  rw [complete_of_completed h.completed]
  by_cases hd : c.dns64Enable = true
  · rw [if_pos hd]
    refine ⟨⟨?_, fun hd₀ => ?_⟩, rfl, rfl⟩
    · conv_lhs => rw [h.keys]
      rfl
    · refine ((o.perm _).map _).trans (((h.static hd₀).map _).trans ?_)
      rw [List.map_map, ← Function.iterate_succ']
  · rw [if_neg hd]
    exact ⟨⟨h.keys, fun hd₀ => absurd (h.dns64Enable.trans hd₀) hd⟩, rfl, rfl⟩

/-! ## The two overrides -/

theorem overrideAllowed_eq_ok {o : MapOrder} {env : Environment} {c c' : AppConfig}
    (h : overrideAllowed uc o env c = .ok c') :
    (env.allowedSources = "" ∧ c' = c) ∨
      (env.allowedSources ≠ "" ∧ Config.validate uc o
        { c with allowedSources := splitEnvList env.allowedSources } = .ok c') := by
  unfold overrideAllowed at h
  split_ifs at h with he
  · exact .inl ⟨he, (Except.ok.inj h).symm⟩
  · exact .inr ⟨he, h⟩

theorem overridePrivateKey_eq_ok {ygg : YggKeys} {o : MapOrder} {env : Environment}
    {c c' : AppConfig} (h : overridePrivateKey ygg uc o env c = .ok c') :
    (env.privateKey = "" ∧ c' = c) ∨
      (env.privateKey ≠ "" ∧ ∃ privKey nodeIP pool6CIDR pool6Prefix,
        parsePrivateKeyHex env.privateKey = some privKey ∧
        deriveFromPrivateKey ygg privKey = (nodeIP, pool6CIDR, pool6Prefix) ∧
        Config.validate uc o (c.applyPrivateKeyOverride nodeIP pool6CIDR pool6Prefix)
          = .ok c') := by
  unfold overridePrivateKey at h
  split_ifs at h with he
  · exact .inl ⟨he, (Except.ok.inj h).symm⟩
  refine .inr ⟨he, ?_⟩
  cases hk : parsePrivateKeyHex env.privateKey with
  | none =>
    rw [hk] at h
    cases h
  | some privKey =>
    rw [hk] at h
    dsimp only at h
    split_ifs at h
    exact ⟨privKey, _, _, _, rfl, rfl, mapError_eq_ok h⟩

/-! ## The two paths -/

/-- The passes of validation that the start makes. -/
def startPasses (env : Environment) : Nat :=
  1 + (if env.privateKey = "" then 0 else 1) + (if env.allowedSources = "" then 0 else 1)

/-- The passes of validation that a reload makes. -/
def reloadPasses (env : Environment) : Nat :=
  1 + (if env.allowedSources = "" then 0 else 1)

/-- The allowed sources in effect. -/
def effectiveAllowed (env : Environment) (c₀ : AppConfig) : List String :=
  if env.allowedSources = "" then c₀.allowedSources else splitEnvList env.allowedSources

/-- The zones in effect after the start: those of the key, if one is given. -/
def startZones (ygg : YggKeys) (env : Environment) (c₀ : AppConfig) : List ZoneConfig :=
  match parsePrivateKeyHex env.privateKey with
  | none => c₀.dns64Zones
  | some privKey => keyZones (deriveFromPrivateKey ygg privKey).2.2

theorem load_eq_ok {o : MapOrder} {file : ConfFile} {c : AppConfig}
    (h : load uc o file = .ok c) :
    ∃ c₀, file = .decoded c₀ ∧ Config.validate uc o c₀ = .ok c := by
  cases file with
  | decoded c₀ => exact ⟨c₀, rfl, mapError_eq_ok h⟩
  | unreadable | badYggdrasil | badYdn64 => cases h

theorem complete_allowedSources_zones (uc : UnicodeCase) (o : MapOrder) (c : AppConfig) :
    (complete uc o c).allowedSources = c.allowedSources ∧
      (complete uc o c).dns64Zones = c.dns64Zones := by
  rw [complete_eq]
  unfold completeFront
  split_ifs <;> exact ⟨rfl, rfl⟩

theorem Passed.overrideAllowed {o : MapOrder} {env : Environment} {c₀ c c' : AppConfig}
    {n : Nat} (h : Passed uc c₀ n c) (hc : c.allowedSources = c₀.allowedSources)
    (hv : overrideAllowed uc o env c = .ok c') :
    Passed uc c₀ (n + if env.allowedSources = "" then 0 else 1) c' ∧
      c'.allowedSources = effectiveAllowed env c₀ ∧ c'.dns64Zones = c.dns64Zones := by
  unfold effectiveAllowed
  rcases overrideAllowed_eq_ok hv with ⟨he, rfl⟩ | ⟨he, hv⟩
  · rw [if_pos he, if_pos he]
    exact ⟨h, hc, rfl⟩
  · rw [if_neg he, if_neg he]
    exact (h.override (splitEnvList env.allowedSources) c.nat64Pool c.dns64Listen
      c.dns64Zones).validate hv

theorem Passed.overridePrivateKey {ygg : YggKeys} {o : MapOrder} {env : Environment}
    {c₀ c c' : AppConfig} {n : Nat} (h : Passed uc c₀ n c)
    (hz : c.dns64Zones = c₀.dns64Zones)
    (hv : overridePrivateKey ygg uc o env c = .ok c') :
    Passed uc c₀ (n + if env.privateKey = "" then 0 else 1) c' ∧
      c'.allowedSources = c.allowedSources ∧ c'.dns64Zones = startZones ygg env c₀ := by
  unfold startZones
  rcases overridePrivateKey_eq_ok hv with ⟨he, rfl⟩ | ⟨he, key, ip, cidr, pool, hkey, hd, hv⟩
  · rw [if_pos he, he]
    exact ⟨h, rfl, hz⟩
  · rw [if_neg he, hkey]
    obtain ⟨hp, ha, hz'⟩ := (h.override c.allowedSources cidr ("[" ++ ip ++ "]:53")
      (keyZones pool)).validate hv
    refine ⟨hp, ha, ?_⟩
    simp only [hd]
    exact hz'

theorem startConfig_eq_ok {ygg : YggKeys} {o : StartOrders} {env : Environment}
    {file : ConfFile} {c : AppConfig} (h : startConfig ygg uc o env file = .ok c) :
    ∃ c₀ c₁ c₂, file = .decoded c₀ ∧ Config.validate uc o.load c₀ = .ok c₁ ∧
      overridePrivateKey ygg uc o.privateKey env c₁ = .ok c₂ ∧
      overrideAllowed uc o.allowedSources env c₂ = .ok c := by
  unfold startConfig at h
  obtain ⟨c₁, h1, h⟩ := except_bind_eq_ok.1 h
  obtain ⟨c₂, h2, h⟩ := except_bind_eq_ok.1 h
  obtain ⟨c₀, hfile, h0⟩ := load_eq_ok (mapError_eq_ok h1)
  exact ⟨c₀, c₁, c₂, hfile, h0, h2, mapError_eq_ok h⟩

theorem startConfig_passed {ygg : YggKeys} {o : StartOrders} {env : Environment}
    {c₀ c : AppConfig} (h : startConfig ygg uc o env (.decoded c₀) = .ok c) :
    Passed uc c₀ (startPasses env) c ∧ c.allowedSources = effectiveAllowed env c₀ ∧
      c.dns64Zones = startZones ygg env c₀ := by
  obtain ⟨_, c₁, c₂, hfile, h0, h1, h2⟩ := startConfig_eq_ok h
  obtain rfl := ConfFile.decoded.inj hfile
  have hkeys := complete_allowedSources_zones uc o.load c₀
  rw [← (validate_eq_ok_iff.1 h0).2] at hkeys
  obtain ⟨hp1, ha1, hz1⟩ := (passed_one h0).overridePrivateKey hkeys.2 h1
  obtain ⟨hp2, ha2, hz2⟩ := hp1.overrideAllowed (ha1.trans hkeys.1) h2
  exact ⟨hp2, ha2, hz2.trans hz1⟩

theorem reloadedConfig_passed {env : Environment} {r : Reload} {c : AppConfig}
    (h : reloadedConfig uc env r = .ok c) :
    ∃ c₀, r.file = .decoded c₀ ∧ Valid uc c₀ ∧ Passed uc c₀ (reloadPasses env) c ∧
      c.allowedSources = effectiveAllowed env c₀ ∧ c.dns64Zones = c₀.dns64Zones := by
  unfold reloadedConfig at h
  obtain ⟨c₁, h1, h⟩ := except_bind_eq_ok.1 h
  obtain ⟨c₀, hfile, h0⟩ := load_eq_ok (mapError_eq_ok h1)
  have hkeys := complete_allowedSources_zones uc r.orders.load c₀
  rw [← (validate_eq_ok_iff.1 h0).2] at hkeys
  obtain ⟨hp, ha, hz⟩ := (passed_one h0).overrideAllowed hkeys.1 (mapError_eq_ok h)
  exact ⟨c₀, hfile, (validate_eq_ok_iff.1 h0).1, hp, ha, hz.trans hkeys.2⟩

/-! ## A reload of what the start accepted -/

theorem valid_allowedSources {c : AppConfig} {allowed : List String} (h : Valid uc c)
    (ha : ∀ e ∈ allowed, netEntryOk e = true) :
    Valid uc { c with allowedSources := allowed } where
  shared := ⟨ha, h.shared.2, h.shared.3⟩
  nat64 := fun hn => ⟨(h.nat64 hn).1, (h.nat64 hn).2, (h.nat64 hn).3, (h.nat64 hn).4,
    (h.nat64 hn).5⟩
  dns64 := fun hd => ⟨(h.dns64 hd).1, (h.dns64 hd).2, (h.dns64 hd).3, (h.dns64 hd).4,
    (h.dns64 hd).5⟩

/-- A pass over keys that come from one pass has checked the static table that
one pass leaves. -/
theorem Passed.staticOk {o : MapOrder} {c₀ c c' : AppConfig} (h : Passed uc c₀ 1 c)
    (hv : Config.validate uc o c = .ok c') (hd : c₀.dns64Enable = true) :
    StaticOk uc (c₀.dns64Static.map (normEntry uc)) :=
  ((validate_eq_ok_iff.1 hv).1.dns64 (h.dns64Enable.trans hd)).static.perm (h.static hd)

/-- A file and an environment that the start accepts are accepted by a reload,
whatever the orders of its ranges. -/
theorem reloadedConfig_of_start {ygg : YggKeys} {o : StartOrders} {env : Environment}
    {c₀ c : AppConfig} (h : startConfig ygg uc o env (.decoded c₀) = .ok c)
    (ro : ReloadOrders) : ∃ c', reloadedConfig uc env ⟨.decoded c₀, ro⟩ = .ok c' := by
  obtain ⟨_, c₁, c₂, hfile, h0, h1, h2⟩ := startConfig_eq_ok h
  obtain rfl := ConfFile.decoded.inj hfile
  have hv := (validate_eq_ok_iff.1 h0).1
  have hload : Config.validate uc ro.load c₀ = .ok (complete uc ro.load c₀) :=
    validate_eq_ok_iff.2 ⟨hv, rfl⟩
  have hred : reloadedConfig uc env ⟨.decoded c₀, ro⟩
      = (Cmd.overrideAllowed uc ro.allowedSources env (complete uc ro.load c₀)).mapError
          .allowedSourcesInvalid := by
    simp only [reloadedConfig, load, hload]
    rfl
  rw [hred]
  rcases overrideAllowed_eq_ok h2 with ⟨he, _⟩ | ⟨he, h2⟩
  · rw [Cmd.overrideAllowed, if_pos he]
    exact ⟨_, rfl⟩
  -- The start checked the static table of a second pass, in the pass after
  -- the key override or in this one.
  have hstatic : c₀.dns64Enable = true →
      StaticOk uc (c₀.dns64Static.map (normEntry uc)) := by
    intro hd
    rcases overridePrivateKey_eq_ok h1 with ⟨_, rfl⟩ | ⟨_, _, ip, cidr, pool, _, _, h1⟩
    · exact ((passed_one h0).override (splitEnvList env.allowedSources) _ _ _).staticOk h2 hd
    · exact ((passed_one h0).override _ cidr ("[" ++ ip ++ "]:53")
        (keyZones pool)).staticOk h1 hd
  have hallowed := (validate_eq_ok_iff.1 h2).1.shared.allowed
  have hvalid := valid_allowedSources (hv.complete (o := ro.load) hstatic) hallowed
  rw [Cmd.overrideAllowed, if_neg he, validate_eq_ok_iff.2 ⟨hvalid, rfl⟩]
  exact ⟨_, rfl⟩

end Ydn64.Cmd
