import Ydn64.Dns64.Cache

/-!
# How long a cached answer is served

An entry should be served no longer than the default expiration and no longer
than any of its records is valid (`Overdue`).  `set` takes the smaller of the
default expiration and the smallest TTL, but it reads a smallest TTL of zero as
the sign of an empty list, and then the default expiration stands alone.

`lifetime_le_ttl` is the bound where no TTL is zero.  An entry does not change
until its key is set again (`lookup_of_cacheStep`), so the bound holds along
every run from the `set` on.  `served_in_time_iff` says that it holds under no
other condition, but for clocks before 1970, where an expiry looks like none.
-/

namespace Ydn64.Dns64

open Ydn64.GoStd Ydn64.Lib
open Ydn64.Nat64 (second)

/-! ## The smallest TTL -/

/-- The minimum that the loop of `minRRTTL` keeps. -/
def minTTL (ttl : UInt32) (rrs : List RR) : UInt32 :=
  rrs.foldl (fun ttl rr => if rr.ttl < ttl then rr.ttl else ttl) ttl

theorem minTTL_cons (ttl : UInt32) (rr : RR) (rrs : List RR) :
    minTTL ttl (rr :: rrs) = minTTL (if rr.ttl < ttl then rr.ttl else ttl) rrs := rfl

theorem minTTL_le (rrs : List RR) : ∀ ttl, minTTL ttl rrs ≤ ttl := by
  induction rrs with
  | nil => exact fun ttl => UInt32.le_refl ttl
  | cons rr rrs ih =>
    intro ttl
    rw [minTTL_cons]
    refine UInt32.le_trans (ih _) ?_
    split_ifs with hlt
    · exact UInt32.le_of_lt hlt
    · exact UInt32.le_refl ttl

theorem minTTL_le_of_mem {rrs : List RR} {rr : RR} (h : rr ∈ rrs) :
    ∀ ttl, minTTL ttl rrs ≤ rr.ttl := by
  induction rrs with
  | nil => cases h
  | cons rr' rrs ih =>
    intro ttl
    rw [minTTL_cons]
    rcases List.mem_cons.1 h with rfl | h
    · refine UInt32.le_trans (minTTL_le rrs _) ?_
      split_ifs with hlt
      · exact UInt32.le_refl rr.ttl
      · exact UInt32.not_lt.1 hlt
    · exact ih h _

theorem minTTL_mem (rrs : List RR) :
    ∀ ttl, minTTL ttl rrs = ttl ∨ ∃ rr ∈ rrs, minTTL ttl rrs = rr.ttl := by
  induction rrs with
  | nil => exact fun ttl => .inl rfl
  | cons rr rrs ih =>
    intro ttl
    rw [minTTL_cons]
    rcases ih (if rr.ttl < ttl then rr.ttl else ttl) with heq | ⟨rr', hmem, heq⟩
    · rw [heq]
      split_ifs
      · exact .inr ⟨rr, List.mem_cons_self, rfl⟩
      · exact .inl rfl
    · exact .inr ⟨rr', List.mem_cons_of_mem rr hmem, heq⟩

theorem minRRTTL_le {rrs : List RR} {rr : RR} (h : rr ∈ rrs) :
    minRRTTL rrs ≤ rr.ttl.toNat * second := by
  cases rrs with
  | nil => cases h
  | cons rr' rrs =>
    have hle : minTTL rr'.ttl rrs ≤ rr.ttl := by
      rcases List.mem_cons.1 h with rfl | h
      · exact minTTL_le rrs _
      · exact minTTL_le_of_mem h _
    rw [UInt32.le_iff_toNat_le] at hle
    have hsecond : 0 ≤ second := by decide
    exact mul_le_mul_of_nonneg_right (Int.ofNat_le.2 hle) hsecond

theorem minRRTTL_mem {rrs : List RR} (h : rrs ≠ []) :
    ∃ rr ∈ rrs, minRRTTL rrs = rr.ttl.toNat * second := by
  cases rrs with
  | nil => exact absurd rfl h
  | cons rr rrs =>
    rcases minTTL_mem rrs rr.ttl with heq | ⟨rr', hmem, heq⟩
    · exact ⟨rr, List.mem_cons_self, congrArg (fun ttl : UInt32 => (ttl.toNat : Int) * second) heq⟩
    · exact ⟨rr', List.mem_cons_of_mem rr hmem,
        congrArg (fun ttl : UInt32 => (ttl.toNat : Int) * second) heq⟩

/-! ## The lifetime of an entry -/

theorem lifetime_le_ttl {d : Int} {rrs : List RR} (hne : ∀ rr ∈ rrs, rr.ttl ≠ 0) {rr : RR}
    (h : rr ∈ rrs) : lifetime d rrs ≤ rr.ttl.toNat * second := by
  have hle := minRRTTL_le h
  have hpos : 0 < minRRTTL rrs := by
    obtain ⟨rr', hmem, heq⟩ := minRRTTL_mem (List.ne_nil_of_mem h)
    have hnat : rr'.ttl.toNat ≠ 0 := fun h0 => hne rr' hmem (UInt32.toNat.inj h0)
    rw [heq]
    exact mul_pos (by omega) (by decide)
  unfold lifetime
  split_ifs with hmin
  · exact hle
  · omega

theorem lifetime_of_zero {d : Int} {rrs : List RR} {rr : RR} (h : rr ∈ rrs) (h0 : rr.ttl = 0) :
    lifetime d rrs = d := by
  have hle := minRRTTL_le h
  have hzero : ((rr.ttl.toNat : Int) * second) = 0 := by
    rw [h0]
    decide
  unfold lifetime
  rw [if_neg]
  omega

/-- At `now` the entry of a `set` at `t` is past the default expiration or past
the TTL of one of its records. -/
def Overdue (d : Int) (rrs : List RR) (t now : Int) : Prop :=
  t + d < now ∨ ∃ rr ∈ rrs, t + rr.ttl.toNat * second < now

/-! ## Runs after a `set` -/

/-- The operation sets the key. -/
def CacheOp.sets (k : CacheKey) : CacheOp → Bool
  | .set k' _ _ _ _ => k' = k
  | _ => false

theorem lookup_of_cacheStep {s s' : CacheRun} {op : CacheOp} {k : CacheKey} {it : CacheItem}
    (hop : op.sets k = false) (hs : cacheStep s op = some s')
    (hk : s'.cache.items.lookup k = some it) : s.cache.items.lookup k = some it := by
  cases op with
  | set k' rrs now now' victim =>
    obtain ⟨cache, hset, rfl⟩ := Option.map_eq_some_iff.1 hs
    rcases Cache.lookup_of_set hset hk with ⟨rfl, -⟩ | ⟨-, hold⟩
    · simp [CacheOp.sets] at hop
    · exact hold
  | get k' now =>
    obtain rfl := Option.some.inj hs
    exact hk
  | janitor now =>
    obtain rfl := Option.some.inj hs
    exact Cache.lookup_of_live hk
  | reload defaultExp purgeInterval maxEntries =>
    obtain rfl := Option.some.inj hs
    cases hk

/-- From the `set` on, and until the key is set again, no `get` answers an entry
that is overdue. -/
def ServedInTime (s : CacheRun) (k : CacheKey) (d : Int) (rrs : List RR) (t : Int) : Prop :=
  ∀ ops s', AllSteps cacheStep (fun _ op => op.sets k = false) s ops →
    run cacheStep s ops = some s' →
    ∀ now, s'.cache.get k now ≠ none → ¬ Overdue d rrs t now

/-- A `get` answers an entry that has not expired. -/
theorem get_ne_none_iff {c : Cache} {k : CacheKey} {now : Int} :
    c.get k now ≠ none ↔ ∃ it, c.items.lookup k = some it ∧ it.expired now = false := by
  unfold Cache.get
  cases c.items.lookup k with
  | none => simp
  | some it =>
    dsimp only
    split_ifs with hdead hplain
    · simp [hdead]
    · simp [hdead]
    · simp [hdead]

theorem expired_newItem {d t now : Int} {rrs : List RR} (hd : 0 < d) :
    (newItem d rrs t).expired now = false ↔
      t + lifetime d rrs ≤ 0 ∨ now ≤ t + lifetime d rrs := by
  rw [newItem, if_pos hd]
  simp only [CacheItem.expired, Bool.and_eq_false_iff, decide_eq_false_iff_not, not_lt]

/-- The entries of a `set` are served in time exactly if none of its records has
a TTL of zero and its expiry is after 1970. -/
theorem served_in_time_iff {s s' : CacheRun} {k victim : CacheKey} {rrs : List RR} {t t' : Int}
    (hd : 0 < s.cache.settings.defaultExp)
    (hset : cacheStep s (.set k rrs t t' victim) = some s') :
    ServedInTime s' k s.cache.settings.defaultExp rrs t ↔
      (∀ rr ∈ rrs, rr.ttl ≠ 0) ∧ 0 < t + lifetime s.cache.settings.defaultExp rrs := by
  obtain ⟨cache, hcache, rfl⟩ := Option.map_eq_some_iff.1 hset
  obtain ⟨items, -, rfl⟩ := Option.map_eq_some_iff.1 hcache
  generalize s.cache.settings.defaultExp = d at hd ⊢
  have hnew : Finmap.lookup k (items.insert k (newItem d rrs t)) = some (newItem d rrs t) :=
    Finmap.lookup_insert _
  constructor
  · -- The entry is there right after the `set`.
    intro hserved
    have hlife : ∀ now, (newItem d rrs t).expired now = false → ¬ Overdue d rrs t now :=
      fun now hlive => hserved [] _ trivial rfl now (get_ne_none_iff.2 ⟨_, hnew, hlive⟩)
    have hpast : 0 < t + lifetime d rrs := by
      by_contra hneg
      refine hlife (t + d + 1) ((expired_newItem hd).2 (.inl (by omega))) (.inl (by omega))
    refine ⟨fun rr hrr h0 => ?_, hpast⟩
    have hd' := lifetime_of_zero (d := d) hrr h0
    refine hlife (t + d) ((expired_newItem hd).2 (.inr (by omega))) (.inr ⟨rr, hrr, ?_⟩)
    rw [h0]
    simpa using hd
  · rintro ⟨hne, hpast⟩ ops s' hops hrun now hget hover
    have hkept : ∀ it, s'.cache.items.lookup k = some it → it = newItem d rrs t := by
      refine run_invariant
        (I := fun s => ∀ it, s.cache.items.lookup k = some it → it = newItem d rrs t)
        (fun s₁ op s₂ hI hop hs it hit => hI it (lookup_of_cacheStep hop hs hit)) ?_ hops hrun
      intro it hit
      exact Option.some.inj (hit.symm.trans hnew)
    obtain ⟨it, hit, hlive⟩ := get_ne_none_iff.1 hget
    rw [hkept it hit, expired_newItem hd] at hlive
    have hnow : now ≤ t + lifetime d rrs := by omega
    have hle := lifetime_le d rrs
    rcases hover with hover | ⟨rr, hrr, hover⟩
    · omega
    · have := lifetime_le_ttl (d := d) hne hrr
      omega

/-! ## A record that is not to be cached -/

/-- An answer of one record with the given TTL. -/
def oneRecord (ttl : UInt32) : List RR := [⟨"a.", classINET, ttl, .aaaa (.replicate 16 1)⟩]

theorem served_in_time_iff_oneRecord :
    ∃ s ∈ cacheStep (cacheStart (60 * second) 0 0)
        (.set ⟨"a.", typeAAAA⟩ (oneRecord 30) (5 * second) (5 * second) ⟨"", 0⟩),
      ServedInTime s ⟨"a.", typeAAAA⟩ (60 * second) (oneRecord 30) (5 * second) := by
  have hset : ∃ s ∈ cacheStep (cacheStart (60 * second) 0 0)
      (.set ⟨"a.", typeAAAA⟩ (oneRecord 30) (5 * second) (5 * second) ⟨"", 0⟩), True := by
    decide +kernel
  obtain ⟨s, hs, -⟩ := hset
  exact ⟨s, hs, (served_in_time_iff (by decide) hs).2 ⟨by decide, by decide⟩⟩

/-- A record of TTL zero is served for the default expiration. -/
theorem zeroTTL_overdue :
    ∃ s ∈ cacheStep (cacheStart (60 * second) 0 0)
        (.set ⟨"a.", typeAAAA⟩ (oneRecord 0) (5 * second) (5 * second) ⟨"", 0⟩),
      ¬ ServedInTime s ⟨"a.", typeAAAA⟩ (60 * second) (oneRecord 0) (5 * second) := by
  have hset : ∃ s ∈ cacheStep (cacheStart (60 * second) 0 0)
      (.set ⟨"a.", typeAAAA⟩ (oneRecord 0) (5 * second) (5 * second) ⟨"", 0⟩),
      s.cache.get ⟨"a.", typeAAAA⟩ (60 * second) ≠ none := by
    decide +kernel
  obtain ⟨s, hs, hget⟩ := hset
  refine ⟨s, hs, fun hserved => ?_⟩
  exact hserved [] s trivial rfl (60 * second) hget
    (.inr ⟨_, List.mem_singleton_self _, by decide⟩)

end Ydn64.Dns64
