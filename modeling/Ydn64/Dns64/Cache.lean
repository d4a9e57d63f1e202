import Ydn64.Dns64.Message
import Ydn64.Dns64.Settings
import Ydn64.Lib.Run

/-!
# The answer cache

`src/dns64/cache.go`.  An entry holds the records of one answer, the time of its
expiry and its effective lifetime; the time of the `set` itself is not stored,
and `get` reconstructs the age of an entry from the other two.  Expired entries
are removed lazily: `get` skips them, the janitor deletes them, and so does a
`set` that finds the cache full.  If that leaves no room, the entry that the
`range` visits first goes.

The module compares the cache with the map that it is meant to be.
`CacheRun.latest` records the last `set` of every key since the last `Reload`
and when it was.  `Backed` is the relation between the two: every entry of the
cache is the last `set` of its key.  Each operation keeps it (`backed_step`),
and a `get` from a backed cache misses or answers the last `set`, aged by whole
seconds (`get_of_backed`).

Times are Unix times in nanoseconds.
-/

namespace Ydn64.Dns64

open Ydn64.GoStd Ydn64.Lib
open Ydn64.Nat64 (second)

/-! ## The cache -/

/-- `cacheKey`. -/
structure CacheKey where
  name : String
  qtype : UInt16
  deriving DecidableEq, Repr

/-- `cacheItem`. -/
structure CacheItem where
  value : List RR
  /-- Zero means never. -/
  expiration : Int
  ttl : Int
  deriving DecidableEq, Repr

/-- `it.expiration > 0 && now > it.expiration`. -/
def CacheItem.expired (it : CacheItem) (now : Int) : Bool :=
  0 < it.expiration && it.expiration < now

/-- `dnsCache`. -/
structure Cache where
  items : SyncMap CacheKey CacheItem
  settings : CacheSettings
  deriving DecidableEq

/-- `minRRTTL`. -/
def minRRTTL : List RR → Int
  | [] => 0
  | rr :: rrs =>
    (rrs.foldl (fun ttl rr => if rr.ttl < ttl then rr.ttl else ttl) rr.ttl).toNat * second

/-- The lifetime of an entry under a default expiration that is positive. -/
def lifetime (defaultExp : Int) (rrs : List RR) : Int :=
  if 0 < minRRTTL rrs ∧ minRRTTL rrs < defaultExp then minRRTTL rrs else defaultExp

/-- The entry that `set` makes of the records at a time. -/
def newItem (defaultExp : Int) (rrs : List RR) (now : Int) : CacheItem :=
  if 0 < defaultExp then ⟨rrs, now + lifetime defaultExp rrs, lifetime defaultExp rrs⟩
  else ⟨rrs, 0, 0⟩

/-- A copy of the record with the TTL that is left after `dec` seconds. -/
def RR.decrement (rr : RR) (dec : UInt32) : RR :=
  { rr with ttl := if rr.ttl ≤ dec then 0 else rr.ttl - dec }

theorem RR.decrement_zero (rr : RR) : rr.decrement 0 = rr := by
  unfold RR.decrement
  split_ifs with h
  · rw [← UInt32.le_zero_iff.1 h]
  · simp

namespace Cache

/-- `newCache` with no entries. -/
def new (settings : CacheSettings) : Cache := ⟨∅, settings⟩

/-- The entries without the expired ones. -/
def live (c : Cache) (now : Int) : SyncMap CacheKey CacheItem :=
  c.items.filter fun it => !it.expired now

/-- `makeRoomLocked`.  `victim` is the entry that the last `range` visits first,
and `none` is a victim that is not there. -/
def makeRoomLocked (c : Cache) (k : CacheKey) (now : Int) (victim : CacheKey) :
    Option (SyncMap CacheKey CacheItem) :=
  if c.settings.maxEntries ≤ 0 ∨ (c.items.size : Int) < c.settings.maxEntries then some c.items
  else if c.items.lookup k ≠ none then some c.items
  else if ((c.live now).size : Int) < c.settings.maxEntries then some (c.live now)
  else if (c.live now).lookup victim ≠ none then some ((c.live now).erase victim)
  else none

/-- `set`, which reads the clock before it takes the lock and once more in
`makeRoomLocked`. -/
def set (c : Cache) (k : CacheKey) (rrs : List RR) (now now' : Int) (victim : CacheKey) :
    Option Cache :=
  (c.makeRoomLocked k now' victim).map fun items =>
    { c with items := items.insert k (newItem c.settings.defaultExp rrs now) }

/-- `get`. -/
def get (c : Cache) (k : CacheKey) (now : Int) : Option (List RR) :=
  match c.items.lookup k with
  | none => none
  | some item =>
    if item.expired now then none
    else if item.ttl ≤ 0 ∨ item.expiration ≤ 0 then some item.value
    else
      let elapsed := max (item.ttl - (item.expiration - now)) 0
      some (item.value.map fun rr => rr.decrement (UInt32.ofNat (elapsed / second).toNat))

/-- One tick of `janitor`. -/
def janitor (c : Cache) (now : Int) : Cache := { c with items := c.live now }

/-- `dnsCache.Reload`. -/
def reload (c : Cache) (defaultExp purgeInterval maxEntries : Int) : Cache :=
  ⟨∅, c.settings.reload defaultExp purgeInterval maxEntries⟩

/-! ### Room for an entry -/

/-- The ways through `makeRoomLocked`: there is room or the key is there
already, the expired entries make room, or a live entry goes because every entry
is live and the cache is full. -/
theorem makeRoomLocked_cases {c : Cache} {k victim : CacheKey} {now : Int}
    {items : SyncMap CacheKey CacheItem} (h : c.makeRoomLocked k now victim = some items) :
    (items = c.items ∧
        (0 < c.settings.maxEntries → (c.items.size : Int) < c.settings.maxEntries ∨
          c.items.lookup k ≠ none)) ∨
      (items = c.live now ∧ c.items.lookup k = none ∧
        (items.size : Int) < c.settings.maxEntries) ∨
      (items = (c.live now).erase victim ∧ c.items.lookup k = none ∧
        (c.live now).lookup victim ≠ none ∧ 0 < c.settings.maxEntries ∧
        c.settings.maxEntries ≤ (c.live now).size) := by
  unfold makeRoomLocked at h
  split_ifs at h with hroom hthere hlive hvictim <;> obtain rfl := Option.some.inj h
  · refine .inl ⟨rfl, fun hpos => .inl ?_⟩
    omega
  · exact .inl ⟨rfl, fun _ => .inr hthere⟩
  · exact .inr (.inl ⟨rfl, not_not.1 hthere, hlive⟩)
  · refine .inr (.inr ⟨rfl, not_not.1 hthere, hvictim, ?_, ?_⟩) <;> omega

theorem lookup_of_live {c : Cache} {now : Int} {k : CacheKey} {it : CacheItem}
    (h : (c.live now).lookup k = some it) : c.items.lookup k = some it :=
  (SyncMap.lookup_filter_eq_some_iff.1 h).1

/-- `makeRoomLocked` only deletes. -/
theorem lookup_of_makeRoomLocked {c : Cache} {k k' victim : CacheKey} {now : Int}
    {it : CacheItem} {items : SyncMap CacheKey CacheItem}
    (h : c.makeRoomLocked k now victim = some items) (hk : items.lookup k' = some it) :
    c.items.lookup k' = some it := by
  rcases makeRoomLocked_cases h with ⟨rfl, -⟩ | ⟨rfl, -⟩ | ⟨rfl, -⟩
  · exact hk
  · exact lookup_of_live hk
  · exact lookup_of_live (SyncMap.lookup_of_erase hk)

/-- An entry after a `set` is the new one, or it was there before. -/
theorem lookup_of_set {c c' : Cache} {k k' victim : CacheKey} {rrs : List RR} {now now' : Int}
    {it : CacheItem} (h : c.set k rrs now now' victim = some c')
    (hk : c'.items.lookup k' = some it) :
    k' = k ∧ it.value = rrs ∨ k' ≠ k ∧ c.items.lookup k' = some it := by
  obtain ⟨items, hitems, rfl⟩ := Option.map_eq_some_iff.1 h
  rw [SyncMap.lookup_insert_eq_ite] at hk
  split_ifs at hk with hkey
  · refine .inl ⟨hkey, ?_⟩
    rw [← Option.some.inj hk]
    unfold newItem
    split_ifs <;> rfl
  · exact .inr ⟨hkey, lookup_of_makeRoomLocked hitems hk⟩

/-- What `get` answers are the records of an entry, perhaps aged. -/
theorem get_eq_some {c : Cache} {k : CacheKey} {now : Int} {rrs : List RR}
    (h : c.get k now = some rrs) :
    ∃ it dec, c.items.lookup k = some it ∧ rrs = it.value.map fun rr => rr.decrement dec := by
  unfold get at h
  cases hit : c.items.lookup k with
  | none =>
    rw [hit] at h
    cases h
  | some it =>
    rw [hit] at h
    dsimp only at h
    split_ifs at h
    · refine ⟨it, 0, rfl, ?_⟩
      rw [← Option.some.inj h, List.map_congr_left fun rr _ => RR.decrement_zero rr, List.map_id']
    · exact ⟨it, _, rfl, (Option.some.inj h).symm⟩

/-- After `makeRoomLocked` an insert stays within the bound. -/
theorem size_insert_makeRoomLocked {c : Cache} {k victim : CacheKey} {now : Int}
    {items : SyncMap CacheKey CacheItem} (it : CacheItem) (hpos : 0 < c.settings.maxEntries)
    (hle : (c.items.size : Int) ≤ c.settings.maxEntries)
    (h : c.makeRoomLocked k now victim = some items) :
    (SyncMap.size (items.insert k it) : Int) ≤ c.settings.maxEntries := by
  cases hk : items.lookup k with
  | some old =>
    -- The entry takes the place of the old one.
    rw [SyncMap.size_insert_of_some hk]
    rcases makeRoomLocked_cases h with ⟨rfl, -⟩ | ⟨rfl, hnone, -⟩ | ⟨rfl, hnone, -⟩
    · exact hle
    · rw [lookup_of_live hk] at hnone
      cases hnone
    · rw [lookup_of_live (SyncMap.lookup_of_erase hk)] at hnone
      cases hnone
  | none =>
    rw [SyncMap.size_insert_fresh hk]
    rcases makeRoomLocked_cases h with ⟨rfl, hroom⟩ | ⟨rfl, -, hlt⟩ | ⟨rfl, -, hvictim, -, -⟩
    · rcases hroom hpos with hlt | hthere
      · omega
      · exact absurd hk hthere
    · omega
    · obtain ⟨v, hv⟩ := Option.ne_none_iff_exists'.1 hvictim
      have hsize : (c.live now).size ≤ c.items.size := SyncMap.size_filter_le _ _
      rw [SyncMap.size_erase hv]
      omega

end Cache

theorem lifetime_pos {d : Int} (hd : 0 < d) (rrs : List RR) : 0 < lifetime d rrs := by
  unfold lifetime
  split_ifs with h
  · exact h.1
  · exact hd

theorem lifetime_le (d : Int) (rrs : List RR) : lifetime d rrs ≤ d := by
  unfold lifetime
  split_ifs with h
  · exact h.2.le
  · exact le_refl d

/-! ## The map that the cache stands for -/

/-- The cache with the last `set` of every key since the last `Reload`, the time
of that `set`, and the clock. -/
structure CacheRun where
  cache : Cache
  latest : SyncMap CacheKey (List RR × Int)
  clock : Int
  deriving DecidableEq

/-- The operations on the cache, with the clock that each of them reads. -/
inductive CacheOp where
  | set (k : CacheKey) (rrs : List RR) (now now' : Int) (victim : CacheKey)
  | get (k : CacheKey) (now : Int)
  | janitor (now : Int)
  | reload (defaultExp purgeInterval maxEntries : Int)

def cacheStep (s : CacheRun) : CacheOp → Option CacheRun
  | .set k rrs now now' victim =>
    (s.cache.set k rrs now now' victim).map fun cache =>
      ⟨cache, s.latest.insert k (rrs, now), now'⟩
  | .get _ now => some { s with clock := now }
  | .janitor now => some { s with cache := s.cache.janitor now, clock := now }
  | .reload defaultExp purgeInterval maxEntries =>
    some { s with
      cache := s.cache.reload defaultExp purgeInterval maxEntries
      latest := ∅ }

/-- A default expiration that is positive and below 2^32 seconds. -/
def ExpOk (defaultExp : Int) : Prop := 0 < defaultExp ∧ defaultExp < 4294967296 * second

instance (defaultExp : Int) : Decidable (ExpOk defaultExp) :=
  inferInstanceAs (Decidable (_ ∧ _))

/-- The clock does not go back, and the expiration of a `Reload` is in range. -/
def CacheOp.Timed (s : CacheRun) : CacheOp → Prop
  | .set _ _ now now' _ => s.clock ≤ now ∧ now ≤ now'
  | .get _ now => s.clock ≤ now
  | .janitor now => s.clock ≤ now
  | .reload defaultExp _ _ => ExpOk defaultExp

instance (s : CacheRun) : (op : CacheOp) → Decidable (op.Timed s)
  | .set _ _ _ _ _ => inferInstanceAs (Decidable (_ ∧ _))
  | .get _ _ => inferInstanceAs (Decidable (_ ≤ _))
  | .janitor _ => inferInstanceAs (Decidable (_ ≤ _))
  | .reload _ _ _ => inferInstanceAs (Decidable (ExpOk _))

/-- The records of a `set` as a reader should see them `age` nanoseconds later:
each TTL is down by the whole seconds, but not below zero. -/
def aged (age : Int) (rrs : List RR) : List RR :=
  rrs.map fun rr => { rr with ttl := UInt32.ofNat (rr.ttl.toNat - (age / second).toNat) }

/-- An entry is the last `set` of its key, made under a default expiration in
range, at a time that has passed. -/
structure Backed (s : CacheRun) : Prop where
  exp : ExpOk s.cache.settings.defaultExp
  clock : 0 ≤ s.clock
  items : ∀ k it, s.cache.items.lookup k = some it → ∃ rrs now,
    s.latest.lookup k = some (rrs, now) ∧ 0 ≤ now ∧ now ≤ s.clock ∧
      it = newItem s.cache.settings.defaultExp rrs now
  bounded : 0 < s.cache.settings.maxEntries →
    (s.cache.items.size : Int) ≤ s.cache.settings.maxEntries

theorem Backed.lifetime_pos {s : CacheRun} (h : Backed s) {k : CacheKey} {it : CacheItem}
    (hk : s.cache.items.lookup k = some it) : 0 < it.ttl ∧ 0 < it.expiration := by
  obtain ⟨rrs, now, _, hpos, _, rfl⟩ := h.items k it hk
  have hlife := Dns64.lifetime_pos h.exp.1 rrs
  rw [newItem, if_pos h.exp.1]
  dsimp only
  omega

theorem backed_step {s s' : CacheRun} {op : CacheOp} (h : Backed s) (htimed : op.Timed s)
    (hs : cacheStep s op = some s') : Backed s' := by
  cases op with
  | set k rrs now now' victim =>
    obtain ⟨cache, hset, rfl⟩ := Option.map_eq_some_iff.1 hs
    obtain ⟨items, hroom, rfl⟩ := Option.map_eq_some_iff.1 hset
    have hclock := h.clock
    have hnow := htimed.1
    have hnow' := htimed.2
    refine ⟨h.exp, by dsimp only; omega, ?_, ?_⟩
    · intro k' it hk'
      dsimp only at hk' ⊢
      rw [SyncMap.lookup_insert_eq_ite] at hk' ⊢
      split_ifs at hk' ⊢ with heq
      · exact ⟨rrs, now, rfl, by omega, hnow', (Option.some.inj hk').symm⟩
      · obtain ⟨rrs', at', hlatest, hpos, hle, hit⟩ :=
          h.items k' it (Cache.lookup_of_makeRoomLocked hroom hk')
        exact ⟨rrs', at', hlatest, hpos, by omega, hit⟩
    · intro hpos
      exact Cache.size_insert_makeRoomLocked (c := s.cache) _ hpos (h.bounded hpos) hroom
  | get k now =>
    obtain rfl := Option.some.inj hs
    have hclock := h.clock
    have hnow : s.clock ≤ now := htimed
    refine ⟨h.exp, by dsimp only; omega, ?_, h.bounded⟩
    intro k' it hk'
    obtain ⟨rrs, at', hlatest, hpos, hle, hit⟩ := h.items k' it hk'
    exact ⟨rrs, at', hlatest, hpos, le_trans hle hnow, hit⟩
  | janitor now =>
    obtain rfl := Option.some.inj hs
    have hclock := h.clock
    have hnow : s.clock ≤ now := htimed
    refine ⟨h.exp, by dsimp only; omega, ?_, ?_⟩
    · intro k' it hk'
      obtain ⟨rrs, at', hlatest, hpos, hle, hit⟩ := h.items k' it (Cache.lookup_of_live hk')
      exact ⟨rrs, at', hlatest, hpos, le_trans hle hnow, hit⟩
    · intro hpos
      have hsize : (s.cache.live now).size ≤ s.cache.items.size := SyncMap.size_filter_le _ _
      have hle := h.bounded hpos
      dsimp only [Cache.janitor]
      omega
  | reload defaultExp purgeInterval maxEntries =>
    obtain rfl := Option.some.inj hs
    refine ⟨htimed, h.clock, ?_, ?_⟩
    · intro k' it hk'
      cases hk'
    · intro hpos
      exact hpos.le

/-! ## What a reader sees -/

theorem RR.decrement_ofNat (rr : RR) {n : Nat} (hn : n < 4294967296) :
    rr.decrement (UInt32.ofNat n) = { rr with ttl := UInt32.ofNat (rr.ttl.toNat - n) } := by
  have hofNat : (UInt32.ofNat n).toNat = n := UInt32.toNat_ofNat_of_lt' hn
  have hlt : rr.ttl.toNat - n < 4294967296 := by
    have := rr.ttl.toNat_lt
    omega
  unfold RR.decrement
  congr 1
  apply UInt32.toNat.inj
  rw [UInt32.toNat_ofNat_of_lt' hlt]
  split_ifs with hle
  · rw [UInt32.le_iff_toNat_le, hofNat] at hle
    rw [Nat.sub_eq_zero_of_le hle]
    rfl
  · rw [UInt32.le_iff_toNat_le, hofNat, not_le] at hle
    rw [UInt32.toNat_sub_of_le _ _ (by rw [UInt32.le_iff_toNat_le]; omega), hofNat]

/-- A `get` misses or answers the last `set` of the key, aged by the time since. -/
theorem get_of_backed {s : CacheRun} (h : Backed s) (k : CacheKey) {now : Int}
    (hnow : s.clock ≤ now) :
    s.cache.get k now = none ∨ ∃ rrs at', s.latest.lookup k = some (rrs, at') ∧
      s.cache.get k now = some (aged (now - at') rrs) := by
  unfold Cache.get
  cases hk : s.cache.items.lookup k with
  | none => exact .inl rfl
  | some it =>
    obtain ⟨rrs, at', hlatest, hpos, hle, rfl⟩ := h.items k it hk
    have hlife := lifetime_pos h.exp.1 rrs
    have hlong := lifetime_le s.cache.settings.defaultExp rrs
    have hexp := h.exp.2
    rw [newItem, if_pos h.exp.1]
    generalize lifetime s.cache.settings.defaultExp rrs = life at hlife hlong ⊢
    dsimp only
    by_cases hdead : CacheItem.expired ⟨rrs, at' + life, life⟩ now = true
    · rw [if_pos hdead]
      exact .inl rfl
    · refine .inr ⟨rrs, at', hlatest, ?_⟩
      rw [if_neg hdead, if_neg (by omega)]
      -- The lifetime and the expiry give back the time of the `set`.
      have helapsed : max (life - (at' + life - now)) 0 = now - at' := by omega
      have hshort : now - at' ≤ life := by
        simp only [CacheItem.expired, Bool.and_eq_true, decide_eq_true_eq, not_and] at hdead
        have := hdead (by omega)
        omega
      have hn : ((now - at') / second).toNat < 4294967296 := by
        have hdiv : (now - at') / second < 4294967296 := by
          rw [Int.ediv_lt_iff_lt_mul (by decide)]
          omega
        omega
      rw [helapsed, aged]
      congr 1
      apply List.map_congr_left
      intro rr _
      exact rr.decrement_ofNat hn

/-- Why an operation may take an entry away: all entries go, the entry had
expired, or a new key is set and the cache is full of live entries. -/
inductive Evicts (s s' : CacheRun) (it : CacheItem) : CacheOp → Prop where
  | reload (exp purge maxEntries : Int) : Evicts s s' it (.reload exp purge maxEntries)
  | janitor {now : Int} (h : it.expired now = true) : Evicts s s' it (.janitor now)
  | purged {k : CacheKey} {rrs : List RR} {now now' : Int} {victim : CacheKey}
      (h : it.expired now' = true) : Evicts s s' it (.set k rrs now now' victim)
  | full {k : CacheKey} {rrs : List RR} {now now' : Int} {victim : CacheKey}
      (hnew : s.cache.items.lookup k = none) (hpos : 0 < s.cache.settings.maxEntries)
      (hfull : s.cache.settings.maxEntries ≤ (s.cache.live now').size)
      (hleft : ∀ k' it', s'.cache.items.lookup k' = some it' →
        k' = k ∨ it'.expired now' = false) :
      Evicts s s' it (.set k rrs now now' victim)

theorem evicts_of_lookup {s s' : CacheRun} {op : CacheOp} {k : CacheKey} {it : CacheItem}
    (hs : cacheStep s op = some s') (hk : s.cache.items.lookup k = some it)
    (hgone : s'.cache.items.lookup k = none) : Evicts s s' it op := by
  cases op with
  | get k' now =>
    obtain rfl := Option.some.inj hs
    rw [hk] at hgone
    cases hgone
  | reload exp purge maxEntries => exact .reload exp purge maxEntries
  | janitor now =>
    obtain rfl := Option.some.inj hs
    have hdead := SyncMap.of_lookup_filter_eq_none hgone hk
    exact .janitor (by simpa using hdead)
  | set k' rrs now now' victim =>
    obtain ⟨cache, hset, rfl⟩ := Option.map_eq_some_iff.1 hs
    obtain ⟨items, hroom, rfl⟩ := Option.map_eq_some_iff.1 hset
    rw [SyncMap.lookup_insert_eq_ite] at hgone
    split_ifs at hgone with heq
    rcases Cache.makeRoomLocked_cases hroom with ⟨rfl, -⟩ | ⟨rfl, -⟩ | ⟨rfl, hnew, -, hpos, hfull⟩
    · rw [hk] at hgone
      cases hgone
    · have hdead := SyncMap.of_lookup_filter_eq_none hgone hk
      exact .purged (by simpa using hdead)
    · refine .full hnew hpos hfull ?_
      intro k'' it' hk''
      rw [SyncMap.lookup_insert_eq_ite] at hk''
      split_ifs at hk'' with heq'
      · exact .inl heq'
      · have hlive := SyncMap.lookup_filter_eq_some_iff.1 (SyncMap.lookup_of_erase hk'')
        exact .inr (by simpa using hlive.2)

/-- A `set` of a key that is there touches no other key. -/
theorem lookup_set_of_mem {s s' : CacheRun} {k k' victim : CacheKey} {rrs : List RR}
    {now now' : Int} (hk : s.cache.items.lookup k ≠ none)
    (hs : cacheStep s (.set k rrs now now' victim) = some s') (hne : k' ≠ k) :
    s'.cache.items.lookup k' = s.cache.items.lookup k' := by
  obtain ⟨cache, hset, rfl⟩ := Option.map_eq_some_iff.1 hs
  obtain ⟨items, hroom, rfl⟩ := Option.map_eq_some_iff.1 hset
  rw [SyncMap.lookup_insert_eq_ite, if_neg hne]
  rcases Cache.makeRoomLocked_cases hroom with ⟨rfl, -⟩ | ⟨-, hnone, -⟩ | ⟨-, hnone, -⟩
  · rfl
  · exact absurd hnone hk
  · exact absurd hnone hk

/-! ## Records as objects -/

/-- The records behind a list of pointers. -/
def PointsTo (heap : List RR) : List Nat → List RR → Prop :=
  List.Forall₂ fun p rr => heap[p]? = some rr

/-- The loop of `get` on a heap: every record is copied, and the TTL of the copy is
written.  The loop ends at a pointer to nothing. -/
def copyAged (dec : UInt32) : List RR → List Nat → List RR × List Nat
  | heap, [] => (heap, [])
  | heap, p :: ps =>
    match heap[p]? with
    | none => (heap, [])
    | some rr =>
      let (heap', out) := copyAged dec ((heap ++ [rr]).set heap.length (rr.decrement dec)) ps
      (heap', heap.length :: out)

theorem getElem?_mono {α : Type} {l l' : List α} (h : l <+: l') {i : Nat} {a : α}
    (hi : l[i]? = some a) : l'[i]? = some a := by
  obtain ⟨t, rfl⟩ := h
  rw [List.getElem?_append_left (List.getElem?_eq_some_iff.1 hi).1]
  exact hi

/-- Every object stays as it was, and the pointers are to the aged copies. -/
theorem copyAged_spec (dec : UInt32) {heap : List RR} {ps : List Nat} {rrs : List RR}
    (h : PointsTo heap ps rrs) :
    heap <+: (copyAged dec heap ps).1 ∧
      PointsTo (copyAged dec heap ps).1 (copyAged dec heap ps).2
        (rrs.map fun rr => rr.decrement dec) := by
  induction ps generalizing heap rrs with
  | nil =>
    cases h
    exact ⟨List.prefix_rfl, .nil⟩
  | cons p ps ih =>
    cases h with
    | @cons _ rr _ rrs hp hps =>
      have hset : (heap ++ [rr]).set heap.length (rr.decrement dec) =
          heap ++ [rr.decrement dec] := by simp
      have hgrown : PointsTo (heap ++ [rr.decrement dec]) ps rrs :=
        hps.imp fun _ _ hq => getElem?_mono (List.prefix_append _ _) hq
      obtain ⟨hgrow, hout⟩ := ih hgrown
      rw [copyAged, hp]
      dsimp only
      rw [hset]
      refine ⟨(List.prefix_append _ _).trans hgrow, .cons ?_ hout⟩
      exact getElem?_mono hgrow (by simp)

/-! ## Whole runs -/

/-- The cache is a bounded, forgetful view of the map of the last `set`s. -/
structure Refines (s : CacheRun) : Prop where
  /-- A `get` misses or answers the last `set`, each TTL down by the whole seconds. -/
  get : ∀ k now, s.clock ≤ now → s.cache.get k now = none ∨ ∃ rrs at',
    s.latest.lookup k = some (rrs, at') ∧ s.cache.get k now = some (aged (now - at') rrs)
  /-- A `get` leaves the entries alone. -/
  get_keeps : ∀ k now s', cacheStep s (.get k now) = some s' → s'.cache = s.cache
  /-- It does not hand out the records of an entry, but copies, and writes to those. -/
  get_copies : ∀ k it, s.cache.items.lookup k = some it → (0 < it.ttl ∧ 0 < it.expiration) ∧
    ∀ dec heap ps, PointsTo heap ps it.value → heap <+: (copyAged dec heap ps).1 ∧
      PointsTo (copyAged dec heap ps).1 (copyAged dec heap ps).2
        (it.value.map fun rr => rr.decrement dec)
  bounded : 0 < s.cache.settings.maxEntries →
    (s.cache.items.size : Int) ≤ s.cache.settings.maxEntries
  /-- A `set` of a key that is there removes no other key. -/
  set_keeps : ∀ k rrs now now' victim s', s.cache.items.lookup k ≠ none →
    cacheStep s (.set k rrs now now' victim) = some s' →
    ∀ k', k' ≠ k → s'.cache.items.lookup k' = s.cache.items.lookup k'
  /-- A live entry is evicted only if none has expired and the cache is full. -/
  evicts : ∀ op s' k it, cacheStep s op = some s' → s.cache.items.lookup k = some it →
    s'.cache.items.lookup k = none → Evicts s s' it op

/-- A new cache, before its first operation. -/
def cacheStart (defaultExp purgeInterval maxEntries : Int) : CacheRun :=
  ⟨Cache.new (newCache defaultExp purgeInterval maxEntries), ∅, 0⟩

theorem backed_cacheStart {defaultExp : Int} (hexp : ExpOk defaultExp)
    (purgeInterval maxEntries : Int) :
    Backed (cacheStart defaultExp purgeInterval maxEntries) := by
  refine ⟨hexp, le_refl 0, ?_, ?_⟩
  · intro k it hk
    cases hk
  · intro hpos
    exact hpos.le

/-- Whatever operations a cache has seen, at times that do not go back and with
default expirations in range, it refines the map of the last `set`s. -/
theorem cache_refines {defaultExp purgeInterval maxEntries : Int} (hexp : ExpOk defaultExp)
    {ops : List CacheOp} {s : CacheRun}
    (htimed : AllSteps cacheStep (fun s op => op.Timed s)
      (cacheStart defaultExp purgeInterval maxEntries) ops)
    (hrun : run cacheStep (cacheStart defaultExp purgeInterval maxEntries) ops = some s) :
    Refines s := by
  have hbacked : Backed s :=
    run_invariant (fun s op s' hb ht hs => backed_step hb ht hs)
      (backed_cacheStart hexp purgeInterval maxEntries) htimed hrun
  exact
    { get := fun k now hnow => get_of_backed hbacked k hnow
      get_keeps := fun k now s' hs => by rw [← Option.some.inj hs]
      get_copies := fun k it hk =>
        ⟨hbacked.lifetime_pos hk, fun dec _ _ hps => copyAged_spec dec hps⟩
      bounded := hbacked.bounded
      set_keeps := fun k rrs now now' victim s' hk hs k' hne => lookup_set_of_mem hk hs hne
      evicts := fun op s' k it hs hk hgone => evicts_of_lookup hs hk hgone }

/-- Two keys and one slot: the second `set` evicts, the `Reload` flushes. -/
def slotOps : List CacheOp :=
  let rrs : List RR := [⟨"a.", classINET, 30, .aaaa (.replicate 16 1)⟩]
  [.reload (60 * second) 0 1,
    .set ⟨"a.", typeAAAA⟩ rrs (5 * second) (5 * second) ⟨"a.", typeAAAA⟩,
    .set ⟨"b.", typeAAAA⟩ rrs (6 * second) (6 * second) ⟨"a.", typeAAAA⟩,
    .get ⟨"b.", typeAAAA⟩ (8 * second)]

theorem cache_refines_slotOps : ∃ s, run cacheStep (cacheStart (60 * second) 0 0) slotOps = some s ∧
    s.cache.get ⟨"a.", typeAAAA⟩ (9 * second) = none ∧
    (s.cache.get ⟨"b.", typeAAAA⟩ (9 * second)).map (fun rrs => rrs.map RR.ttl) = some [27] ∧
    Refines s := by
  have hrun : ∃ s ∈ run cacheStep (cacheStart (60 * second) 0 0) slotOps,
      s.cache.get ⟨"a.", typeAAAA⟩ (9 * second) = none ∧
      (s.cache.get ⟨"b.", typeAAAA⟩ (9 * second)).map (fun rrs => rrs.map RR.ttl) = some [27] := by
    decide +kernel
  obtain ⟨s, hrun, ha, hb⟩ := hrun
  exact ⟨s, hrun, ha, hb, cache_refines (by decide) (by decide +kernel) hrun⟩

end Ydn64.Dns64
