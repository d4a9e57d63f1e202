import Ydn64.Dns64.Resolve

/-!
# Queries beside `Service.Reload`

Any number of queries in flight, each with the rest of its handler, and one
`Service.Reload` at a time.  A `Reload` stores the configuration, then the static
table, then the settings of the cache, and flushes the cache last; the other
objects that it replaces are not read by a handler.

Configurations are numbered in the order in which they are stored.  The history
keeps, for each query, the number of the last `Reload` that had returned when it
started and that of the oldest configuration it has loaded, and for each entry of
the cache the oldest configuration that its query had loaded when it stored it.
A hit is fresh if the entry is not older than the last `Reload` before the query
(`FreshHit`).

A query that loaded its zone before a `Reload` may store its answer after the
flush.  This is the only way to a stale entry: while no query stores an answer
from before the last flush (`NotLate`), entries are never older than the flush
(`freshEntries_step`), so every hit is fresh (`hits_fresh`).
-/

namespace Ydn64.Dns64

open Ydn64.GoStd Ydn64.Config Ydn64.Lib
open Ydn64.Nat64 (second)

/-! ## The machine -/

/-- How far a `Service.Reload` has got. -/
inductive ReloadPhase where
  | idle
  | stored
  | staticSet
  | settingsSet
  | flushed
  deriving DecidableEq

/-- A query in flight.  `started` and `oldest` are its histories. -/
structure Flight where
  rest : Handler Msg
  started : Nat
  oldest : Option Nat := none

/-- The proxy with its queries in flight.  `version` counts the configurations
that were stored; `flushedAt` and `returned` are its values at the last flush and
at the last return of a `Reload`; `versions` is the history of the entries. -/
structure ReloadState where
  base : ProxyState
  phase : ReloadPhase := .idle
  version : Nat := 0
  flushedAt : Nat := 0
  returned : Nat := 0
  flights : SyncMap Nat Flight := ∅
  versions : SyncMap CacheKey Nat := ∅

inductive ReloadLabel where
  /-- `proxy.reload` -/
  | store (cfg : ProxyConfig)
  /-- `proxy.setStatic` -/
  | setStatic (static : SyncMap String IP)
  /-- The stores of `dnsCache.Reload`. -/
  | setSettings (defaultExp purgeInterval maxEntries : Int)
  /-- The flush of `dnsCache.Reload`. -/
  | flush
  | reloaded
  | start (id : Nat) (req : Msg) (via : Via)
  /-- The next operation of a query. -/
  | op (id : Nat) (chance : Chance)
  | finish (id : Nat)

/-- The oldest configuration after an operation. -/
def Flight.oldestAfter (f : Flight) (version : Nat) : ProxyOp → Option Nat
  | .loadConfig => some (f.oldest.getD version)
  | _ => f.oldest

/-- The history of the entries after an operation. -/
def Flight.versionsAfter (f : Flight) (version : Nat) (versions : SyncMap CacheKey Nat) :
    ProxyOp → SyncMap CacheKey Nat
  | .cacheSet k _ => versions.insert k (f.oldest.getD version)
  | _ => versions

/-- One operation of a query in flight. -/
def Flight.step (net : Network) (s : ReloadState) (id : Nat) (f : Flight) (ch : Chance) :
    Option ReloadState :=
  match f.rest with
  | .ret _ => none
  | .call op k => (proxyStep net s.base op ch).map fun r =>
      { s with
        base := r.2
        flights := s.flights.insert id ⟨k r.1, f.started, f.oldestAfter s.version op⟩
        versions := f.versionsAfter s.version s.versions op }

def reloadStep (net : Network) (uc : UnicodeCase) (lib : DnsLib) (s : ReloadState) :
    ReloadLabel → Option ReloadState
  | .store cfg =>
    if s.phase = .idle then
      some { s with base := { s.base with cfg }, phase := .stored, version := s.version + 1 }
    else none
  | .setStatic static =>
    if s.phase = .stored then
      some { s with base := { s.base with static }, phase := .staticSet }
    else none
  | .setSettings defaultExp purgeInterval maxEntries =>
    if s.phase = .staticSet then
      let settings := s.base.cache.settings.reload defaultExp purgeInterval maxEntries
      some { s with
        base := { s.base with cache := { s.base.cache with settings } }
        phase := .settingsSet }
    else none
  | .flush =>
    if s.phase = .settingsSet then
      some { s with
        base := { s.base with cache := { s.base.cache with items := ∅ } }
        phase := .flushed
        flushedAt := s.version }
    else none
  | .reloaded =>
    if s.phase = .flushed then some { s with phase := .idle, returned := s.version } else none
  | .start id req via =>
    if s.flights.lookup id = none then
      some { s with flights := s.flights.insert id ⟨handleVia uc lib req via, s.returned, none⟩ }
    else none
  | .op id ch => (s.flights.lookup id).bind fun f => f.step net s id ch
  | .finish id =>
    match s.flights.lookup id with
    | some ⟨.ret _, _, _⟩ => some { s with flights := s.flights.erase id }
    | _ => none

/-- The proxy before the first query. -/
def ReloadState.new (cfg : ProxyConfig) (static : SyncMap String IP) (settings : CacheSettings) :
    ReloadState where
  base := { ProxyState.new cfg settings with static }

/-! ## Hits and stores -/

/-- The key that the next operation of a query looks up. -/
def Flight.getsKey (f : Flight) : Option CacheKey :=
  match f.rest with
  | .call (.cacheGet k) _ => some k
  | _ => none

/-- The key that the next operation of a query stores under. -/
def Flight.setsKey (f : Flight) : Option CacheKey :=
  match f.rest with
  | .call (.cacheSet k _) _ => some k
  | _ => none

/-- If the next operation of the query is answered from the cache, the answer
was computed under no configuration that is older than the last `Reload` before
the query. -/
def FreshHit (s : ReloadState) : ReloadLabel → Prop
  | .op id ch => ∀ f ∈ s.flights.lookup id, ∀ k ∈ f.getsKey, (s.base.cache.get k ch.now).isSome →
      ∃ v ∈ s.versions.lookup k, f.started ≤ v
  | _ => True

/-- If the next operation of the query is a `set`, it has loaded no configuration
that is older than the last flush. -/
def NotLate (s : ReloadState) : ReloadLabel → Prop
  | .op id _ => ∀ f ∈ s.flights.lookup id, f.setsKey.isSome → s.flushedAt ≤ f.oldest.getD s.version
  | _ => True

/-- Every entry is as new as the last flush, and every query as old as the last
`Reload` that has returned. -/
structure FreshEntries (s : ReloadState) : Prop where
  returned_le : s.returned ≤ s.flushedAt
  flushed_le : s.flushedAt ≤ s.version
  current : s.phase = .flushed → s.flushedAt = s.version
  started : ∀ id f, s.flights.lookup id = some f → f.started ≤ s.returned
  entries : ∀ k it, s.base.cache.items.lookup k = some it →
    ∃ v, s.versions.lookup k = some v ∧ s.flushedAt ≤ v

section Steps

variable {net : Network} {uc : UnicodeCase} {lib : DnsLib} {s s' : ReloadState}

theorem proxyStep_cache {base : ProxyState} {op : ProxyOp} {ch : Chance}
    {r : op.Ans × ProxyState} (h : proxyStep net base op ch = some r) :
    (∃ k rrs, op = .cacheSet k rrs ∧
        base.cache.set k rrs ch.now ch.now' ch.victim = some r.2.cache) ∨
      r.2.cache = base.cache ∧ ∀ k rrs, op ≠ .cacheSet k rrs := by
  cases op with
  | cacheSet k rrs =>
    obtain ⟨cache, hset, rfl⟩ := Option.map_eq_some_iff.1 h
    exact .inl ⟨k, rrs, rfl, hset⟩
  | exchange server req via =>
    simp only [proxyStep] at h
    split_ifs at h
    obtain rfl := Option.some.inj h
    exact .inr ⟨rfl, fun k rrs hop => by cases hop⟩
  | panic => cases h
  | _ =>
    obtain rfl := Option.some.inj h
    exact .inr ⟨rfl, fun k rrs hop => by cases hop⟩

/-- One operation of a query keeps the entries fresh, unless it stores late. -/
theorem FreshEntries.flight {id : Nat} {f : Flight} {ch : Chance} (hs : FreshEntries s)
    (hf : s.flights.lookup id = some f)
    (hlate : f.setsKey.isSome → s.flushedAt ≤ f.oldest.getD s.version)
    (h : f.step net s id ch = some s') : FreshEntries s' := by
  unfold Flight.step at h
  cases hrest : f.rest with
  | ret resp =>
    rw [hrest] at h
    cases h
  | call op k =>
    rw [hrest] at h
    obtain ⟨r, hr, rfl⟩ := Option.map_eq_some_iff.1 h
    refine ⟨hs.returned_le, hs.flushed_le, hs.current, ?_, ?_⟩
    · intro id' f' hf'
      rw [SyncMap.lookup_insert_eq_ite] at hf'
      split_ifs at hf'
      · obtain rfl := Option.some.inj hf'
        exact hs.started id f hf
      · exact hs.started id' f' hf'
    · intro key it hit
      rcases proxyStep_cache hr with ⟨k', rrs, rfl, hset⟩ | ⟨hcache, hop⟩
      · simp only [Flight.versionsAfter, SyncMap.lookup_insert_eq_ite]
        rcases Cache.lookup_of_set hset hit with ⟨rfl, -⟩ | ⟨hkey, hold⟩
        · rw [if_pos rfl]
          refine ⟨_, rfl, hlate ?_⟩
          rw [Flight.setsKey, hrest]
          rfl
        · rw [if_neg hkey]
          exact hs.entries key it hold
      · have hversions : f.versionsAfter s.version s.versions op = s.versions := by
          cases op with
          | cacheSet k' rrs => exact absurd rfl (hop k' rrs)
          | _ => rfl
        simp only [hversions]
        rw [hcache] at hit
        exact hs.entries key it hit

theorem freshEntries_step {l : ReloadLabel} (hs : FreshEntries s) (hlate : NotLate s l)
    (h : reloadStep net uc lib s l = some s') : FreshEntries s' := by
  have hle := hs.returned_le
  have hle' := hs.flushed_le
  cases l with
  | store cfg =>
    simp only [reloadStep] at h
    split_ifs at h with hphase
    obtain rfl := Option.some.inj h
    exact ⟨hle, Nat.le_succ_of_le hle', (fun hp => by cases hp), hs.started, hs.entries⟩
  | setStatic static | setSettings defaultExp purgeInterval maxEntries =>
    simp only [reloadStep] at h
    split_ifs at h with hphase
    obtain rfl := Option.some.inj h
    exact ⟨hle, hle', (fun hp => by cases hp), hs.started, hs.entries⟩
  | flush =>
    simp only [reloadStep] at h
    split_ifs at h with hphase
    obtain rfl := Option.some.inj h
    exact ⟨hle.trans hle', le_refl _, fun _ => rfl, hs.started, fun k it hit => by cases hit⟩
  | reloaded =>
    simp only [reloadStep] at h
    split_ifs at h with hphase
    obtain rfl := Option.some.inj h
    refine ⟨(hs.current hphase).ge, hle', (fun hp => by cases hp), fun id f hf => ?_, hs.entries⟩
    exact (hs.started id f hf).trans (hle.trans hle')
  | start id req via =>
    simp only [reloadStep] at h
    split_ifs at h with hfree
    obtain rfl := Option.some.inj h
    refine ⟨hle, hle', hs.current, fun id' f hf => ?_, hs.entries⟩
    rw [SyncMap.lookup_insert_eq_ite] at hf
    split_ifs at hf
    · obtain rfl := Option.some.inj hf
      exact le_refl _
    · exact hs.started id' f hf
  | op id ch =>
    obtain ⟨f, hf, hstep⟩ := Option.bind_eq_some_iff.1 h
    exact hs.flight hf (hlate f hf) hstep
  | finish id =>
    simp only [reloadStep] at h
    split at h
    · obtain rfl := Option.some.inj h
      refine ⟨hle, hle', hs.current, fun id' f hf => ?_, hs.entries⟩
      exact hs.started id' f (SyncMap.lookup_of_erase hf)
    · cases h

/-- In a run in which no query stores an answer from before the last flush, no
query is answered from the cache with an answer that is older than the last
`Reload` before it. -/
theorem hits_fresh {cfg : ProxyConfig} {static : SyncMap String IP} {settings : CacheSettings}
    {ls : List ReloadLabel} (hlate : AllSteps (reloadStep net uc lib) NotLate
      (.new cfg static settings) ls)
    (hrun : run (reloadStep net uc lib) (.new cfg static settings) ls = some s) (l : ReloadLabel) :
    FreshHit s l := by
  have hstart : FreshEntries (.new cfg static settings) := by
    refine ⟨le_refl _, le_refl _, fun _ => rfl, fun id f hf => ?_, fun k it hit => ?_⟩
    · cases hf
    · cases hit
  have hs : FreshEntries s :=
    run_invariant (fun s l s' hs hl hstep => freshEntries_step hs hl hstep) hstart hlate hrun
  cases l with
  | op id ch =>
    intro f hf k hk hhit
    obtain ⟨rrs, hget⟩ := Option.isSome_iff_exists.1 hhit
    obtain ⟨it, -, hit, -⟩ := Cache.get_eq_some hget
    obtain ⟨v, hv, hle⟩ := hs.entries k it hit
    exact ⟨v, hv, (hs.started id f hf).trans (hs.returned_le.trans hle)⟩
  | _ => trivial

end Steps

/-! ## A late store -/

instance FreshHit.decidable (s : ReloadState) : (l : ReloadLabel) → Decidable (FreshHit s l)
  | .op id ch => inferInstanceAs (Decidable (∀ f ∈ s.flights.lookup id, ∀ k ∈ f.getsKey,
      (s.base.cache.get k ch.now).isSome → ∃ v ∈ s.versions.lookup k, f.started ≤ v))
  | .store _ | .setStatic _ | .setSettings _ _ _ | .flush | .reloaded | .start _ _ _ | .finish _ =>
    isTrue trivial

instance NotLate.decidable (s : ReloadState) : (l : ReloadLabel) → Decidable (NotLate s l)
  | .op id _ => inferInstanceAs (Decidable (∀ f ∈ s.flights.lookup id, f.setsKey.isSome →
      s.flushedAt ≤ f.oldest.getD s.version))
  | .store _ | .setStatic _ | .setSettings _ _ _ | .flush | .reloaded | .start _ _ _ | .finish _ =>
    isTrue trivial

/-- The sample configuration with another prefix. -/
def renumberedConfig : ProxyConfig :=
  { filteringConfig with
    zones := [{ filteringZone with pref := (parsePref64 "2001:db8::/96").toOption }] }

/-- A `Service.Reload` without a query in between. -/
def wholeReload : List ReloadLabel :=
  [.store renumberedConfig, .setStatic ∅, .setSettings second 0 0, .flush, .reloaded]

/-- The query up to the point where it stores its answer. -/
def untilStore (id : Nat) : List ReloadLabel :=
  let aReq := sampleQuery.asking ⟨"a.example.", typeA, classINET⟩
  let aReply : Msg := { answer := [⟨"a.example.", classINET, 60, .a [192, 0, 2, 1]⟩] }
  .start id sampleQuery .udp ::
    (idle 3 ++ lookupChances (Msg.replyTo {} sampleQuery) ++ idle 1 ++
      lookupChances (aReply.replyTo aReq) ++ idle 1).map (.op id)

/-- A query up to its look into the cache. -/
def untilGet (id : Nat) : List ReloadLabel :=
  .start id sampleQuery .udp :: (idle 2).map (.op id)

/-- The first query stores its answer after the `Reload`, and the second one,
which starts after it, gets an address under the old prefix. -/
theorem late_store_served :
    ∃ s ∈ run (reloadStep anyReply asciiCase anyName)
        (.new filteringConfig ∅ ⟨second, 0, none⟩)
        (untilStore 0 ++ wholeReload ++ [.op 0 {}] ++ untilGet 1),
      s.base.cfg = renumberedConfig ∧
      (s.base.cache.get ⟨"a.example.", typeAAAA⟩ 0).map (fun rrs => rrs.map RR.aaaa?) =
        some [some ([0, 0x64, 0xff, 0x9b] ++ List.replicate 8 0 ++ [192, 0, 2, 1])] ∧
      ¬ FreshHit s (.op 1 {}) := by
  decide +kernel

/-- After the `Reload` one query stores its answer, and the other one is answered
from the cache. -/
theorem hits_fresh_wholeReload :
    ∃ s ∈ run (reloadStep anyReply asciiCase anyName)
        (.new filteringConfig ∅ ⟨second, 0, none⟩)
        (wholeReload ++ untilStore 0 ++ [.op 0 {}] ++ untilGet 1),
      (s.base.cache.get ⟨"a.example.", typeAAAA⟩ 0).isSome ∧ FreshHit s (.op 1 {}) := by
  have hrun : ∃ s ∈ run (reloadStep anyReply asciiCase anyName)
      (.new filteringConfig ∅ ⟨second, 0, none⟩)
      (wholeReload ++ untilStore 0 ++ [.op 0 {}] ++ untilGet 1),
      (s.base.cache.get ⟨"a.example.", typeAAAA⟩ 0).isSome := by
    decide +kernel
  obtain ⟨s, hs, hhit⟩ := hrun
  exact ⟨s, hs, hhit, hits_fresh (by decide +kernel) hs _⟩

end Ydn64.Dns64
