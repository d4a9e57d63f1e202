import Mathlib.Algebra.Field.Rat
import Mathlib.Algebra.Order.Ring.Rat
import Mathlib.Tactic.NormNum
import Mathlib.Tactic.Linarith
import Ydn64.Dns64.Settings
import Ydn64.Lib.Meter

/-!
# The rate limiter of the resolver

`src/dns64/ratelimit.go`: a token bucket for every source.  A source without a
bucket gets a full one.  Once the map holds `maxRateBuckets` entries, a new
source first makes the limiter sweep out the buckets that nobody has touched for
`rateBucketIdle`.  The source counts tokens in `float64`; here they are rational.

`allowWith` takes the sweep as an argument: `allow` is the limiter of the source,
and with a sweep that deletes nothing it is the one to compare it with.
`sweep_unobservable` says that the two give the same answers.  What makes it true
is that a bucket idle for five minutes is full again at any rate of one token a
second or more (`SrcBucket.spend_of_idle`), under whatever rate it is looked at.

The sweep is all that limits the map, and it keeps the buckets of active sources: a
new source is let in also if it finds nothing idle.  So the number of buckets is
bounded by `maxRateBuckets` or by the sources that called within `rateBucketIdle`
(`buckets_bounded`), and it stays at `maxRateBuckets` exactly as long as every new
source finds room.
-/

namespace Ydn64.Dns64

open Ydn64.GoStd Ydn64.Lib
open Ydn64.Nat64 (second)

/-! ## The limiter -/

def maxRateBuckets : Nat := 8192

def rateBucketIdle : Int := 300 * second

/-- `srcBucket`. -/
structure SrcBucket where
  tokens : ℚ
  last : Int
  deriving DecidableEq

abbrev SrcBuckets := SyncMap Addr16 SrcBucket

/-- `srcRateLimiter`. -/
structure SrcRateLimiter where
  buckets : SrcBuckets := ∅
  rate : ℚ := 0
  burst : ℚ := 0

/-- The seconds from one time to another. -/
def secondsBetween (last now : Int) : ℚ := ((now - last : Int) : ℚ) / 10 ^ 9

/-- The end of `allow`: refill the bucket and take a token, if one is there. -/
def SrcBucket.spend (b : SrcBucket) (rate burst : ℚ) (now : Int) : Bool × SrcBucket :=
  let tokens := b.tokens + secondsBetween b.last now * rate
  let tokens := if burst < tokens then burst else tokens
  if tokens < 1 then (false, ⟨tokens, now⟩) else (true, ⟨tokens - 1, now⟩)

/-- The burst for a rate.  The product is one of 64 bits. -/
def burstFor (ratePerSec : Int) : ℚ :=
  let burst : ℚ := (Int.bmod (2 * ratePerSec) 18446744073709551616 : Int)
  if burst < rateLimitMinBurst then rateLimitMinBurst else burst

namespace SrcRateLimiter

/-- `update`. -/
def update (l : SrcRateLimiter) (ratePerSec : Int) : SrcRateLimiter :=
  if ratePerSec ≤ 0 then { l with rate := 0 }
  else
    { buckets := l.buckets.mapValues fun b =>
        if burstFor ratePerSec < b.tokens then { b with tokens := burstFor ratePerSec } else b
      rate := ratePerSec
      burst := burstFor ratePerSec }

/-- `newSrcRateLimiter`. -/
def new (ratePerSec : Int) : SrcRateLimiter := update {} ratePerSec

/-- `sweepLocked`. -/
def sweepLocked (buckets : SrcBuckets) (now : Int) : SrcBuckets :=
  buckets.filter fun b => !decide (b.last < now - rateBucketIdle)

/-- The map and the bucket that `allow` goes on with. -/
def bucketFor (sweep : SrcBuckets → Int → SrcBuckets) (l : SrcRateLimiter) (src : Addr16)
    (now : Int) : SrcBuckets × SrcBucket :=
  match l.buckets.lookup src with
  | some b => (l.buckets, b)
  | none =>
    (if maxRateBuckets ≤ SyncMap.size l.buckets then sweep l.buckets now else l.buckets,
      ⟨l.burst, now⟩)

/-- `allow` with some sweep. -/
def allowWith (sweep : SrcBuckets → Int → SrcBuckets) (l : SrcRateLimiter) (src : Addr16)
    (now : Int) : Bool × SrcRateLimiter :=
  if l.rate ≤ 0 then (true, l)
  else
    let (buckets, b) := bucketFor sweep l src now
    let (ok, b) := b.spend l.rate l.burst now
    (ok, { l with buckets := buckets.insert src b })

/-- `allow`. -/
def allow : SrcRateLimiter → Addr16 → Int → Bool × SrcRateLimiter := allowWith sweepLocked

end SrcRateLimiter

/-! ## One bucket -/

namespace SrcBucket

variable {b : SrcBucket} {rate burst : ℚ} {now : Int}

/-- What the bucket holds when it is looked at. -/
def held (b : SrcBucket) (rate burst : ℚ) (now : Int) : ℚ :=
  refill rate burst b.tokens (secondsBetween b.last now)

theorem spend_eq (b : SrcBucket) (rate burst : ℚ) (now : Int) :
    b.spend rate burst now =
      if b.held rate burst now < 1 then (false, ⟨b.held rate burst now, now⟩)
      else (true, ⟨b.held rate burst now - 1, now⟩) := by
  have hheld : (if burst < b.tokens + secondsBetween b.last now * rate then burst
      else b.tokens + secondsBetween b.last now * rate) = b.held rate burst now := by
    unfold held refill
    split_ifs with hlt
    · rw [min_eq_left hlt.le]
    · rw [min_eq_right (not_lt.1 hlt)]
  unfold spend
  dsimp only
  rw [hheld]

theorem secondsBetween_nonneg {last now : Int} (h : last ≤ now) : 0 ≤ secondsBetween last now := by
  unfold secondsBetween
  exact div_nonneg (Int.cast_nonneg (Int.sub_nonneg.2 h)) (by norm_num)

theorem secondsBetween_self (now : Int) : secondsBetween now now = 0 := by
  simp [secondsBetween]

theorem le_secondsBetween_of_idle {last now : Int} (h : last < now - rateBucketIdle) :
    300 ≤ secondsBetween last now := by
  unfold secondsBetween
  have hdiff : (300 * 10 ^ 9 : Int) ≤ now - last := by
    unfold rateBucketIdle second at h
    omega
  have hcast : (300 * 10 ^ 9 : ℚ) ≤ ((now - last : Int) : ℚ) := by exact_mod_cast hdiff
  rw [le_div_iff₀ (by norm_num)]
  exact hcast

theorem held_of_idle (hidle : b.last < now - rateBucketIdle) (htokens : 0 ≤ b.tokens)
    (hrate : 0 ≤ rate) (hburst : burst ≤ 300 * rate) : b.held rate burst now = burst := by
  apply refill_eq_burst
  have hgrown := mul_le_mul_of_nonneg_right (le_secondsBetween_of_idle hidle) hrate
  linarith

theorem held_new (rate burst : ℚ) (now : Int) :
    (⟨burst, now⟩ : SrcBucket).held rate burst now = burst := by
  unfold held
  rw [secondsBetween_self]
  exact refill_zero le_rfl

theorem spend_of_idle (hidle : b.last < now - rateBucketIdle) (htokens : 0 ≤ b.tokens)
    (hrate : 0 ≤ rate) (hburst : burst ≤ 300 * rate) :
    b.spend rate burst now = (⟨burst, now⟩ : SrcBucket).spend rate burst now := by
  rw [spend_eq, spend_eq, held_of_idle hidle htokens hrate hburst, held_new]

theorem spend_last (b : SrcBucket) (rate burst : ℚ) (now : Int) :
    (b.spend rate burst now).2.last = now := by
  rw [spend_eq]
  split_ifs <;> rfl

theorem spend_tokens (b : SrcBucket) (rate burst : ℚ) (now : Int) :
    (b.spend rate burst now).2.tokens + (if (b.spend rate burst now).1 then 1 else 0) =
      b.held rate burst now := by
  rw [spend_eq]
  by_cases hlt : b.held rate burst now < 1
  · simp [hlt]
  · simp [hlt]

theorem spend_nonneg (h : 0 ≤ b.held rate burst now) : 0 ≤ (b.spend rate burst now).2.tokens := by
  rw [spend_eq]
  split_ifs with hlt
  · exact h
  · exact sub_nonneg.2 (not_lt.1 hlt)

theorem spend_le (b : SrcBucket) (rate burst : ℚ) (now : Int) :
    (b.spend rate burst now).2.tokens ≤ burst := by
  have hheld := spend_tokens b rate burst now
  have hburst : b.held rate burst now ≤ burst := refill_le_burst ..
  split_ifs at hheld <;> linarith

end SrcBucket

/-! ## Every limiter -/

theorem le_burstFor (ratePerSec : Int) : 10 ≤ burstFor ratePerSec := by
  unfold burstFor rateLimitMinBurst
  push_cast
  split_ifs with hlt
  · exact le_rfl
  · exact not_lt.1 hlt

theorem burstFor_le {ratePerSec : Int} (h : 0 < ratePerSec) :
    burstFor ratePerSec ≤ max (2 * (ratePerSec : ℚ)) 10 := by
  have hwrap : Int.bmod (2 * ratePerSec) 18446744073709551616 ≤ 2 * ratePerSec := by
    unfold Int.bmod
    dsimp only
    split_ifs <;> omega
  have hcast : ((Int.bmod (2 * ratePerSec) 18446744073709551616 : Int) : ℚ) ≤ 2 * ratePerSec := by
    exact_mod_cast hwrap
  unfold burstFor rateLimitMinBurst
  push_cast
  split_ifs
  · exact le_max_right _ _
  · exact le_max_of_le_left hcast

theorem burstFor_le_idle {ratePerSec : Int} (h : 0 < ratePerSec) :
    burstFor ratePerSec ≤ 300 * ratePerSec := by
  have hone : (1 : ℚ) ≤ ratePerSec := by exact_mod_cast h
  refine (burstFor_le h).trans (max_le ?_ ?_) <;> linarith

namespace SrcRateLimiter

/-- `update` sets the rate and the burst of `RateSettings.update`, converted. -/
theorem update_settings {l : SrcRateLimiter} {settings : RateSettings}
    (hburst : l.burst = settings.burst) (ratePerSec : Int) :
    (l.update ratePerSec).rate = (settings.update ratePerSec).rate ∧
      (l.update ratePerSec).burst = (settings.update ratePerSec).burst := by
  unfold update RateSettings.update
  split_ifs with hoff
  · exact ⟨by simp, hburst⟩
  · refine ⟨rfl, ?_⟩
    show burstFor ratePerSec = _
    unfold burstFor
    by_cases hlt : Int.bmod (2 * ratePerSec) (2 ^ 64) < rateLimitMinBurst
    · rw [max_eq_right hlt.le]
      exact if_pos (by exact_mod_cast hlt)
    · rw [max_eq_left (not_lt.1 hlt)]
      exact if_neg (by exact_mod_cast hlt)

/-- What holds of a limiter at every time from `t` on. -/
structure Sound (l : SrcRateLimiter) (t : Int) : Prop where
  tokens : ∀ src b, l.buckets.lookup src = some b → 0 ≤ b.tokens ∧ b.tokens ≤ l.burst
  last : ∀ src b, l.buckets.lookup src = some b → b.last ≤ t
  rate : l.rate = 0 ∨ ∃ ratePerSec : Int, 0 < ratePerSec ∧ l.rate = ratePerSec ∧
    l.burst = burstFor ratePerSec

/-- The sweep only deletes. -/
def Deletes (sweep : SrcBuckets → Int → SrcBuckets) : Prop :=
  ∀ buckets now src b, (sweep buckets now).lookup src = some b → buckets.lookup src = some b

theorem deletes_sweepLocked : Deletes sweepLocked := by
  intro buckets now src b h
  exact (SyncMap.lookup_filter_eq_some_iff.1 h).1

/-- The sweep that deletes nothing. -/
def keepAll (buckets : SrcBuckets) (_now : Int) : SrcBuckets := buckets

theorem deletes_keepAll : Deletes keepAll := fun _ _ _ _ h => h

section Invariant

variable {l : SrcRateLimiter} {t : Int} {sweep : SrcBuckets → Int → SrcBuckets}

theorem Sound.mono (h : l.Sound t) {t' : Int} (ht : t ≤ t') : l.Sound t' :=
  ⟨h.tokens, fun src b hl => (h.last src b hl).trans ht, h.rate⟩

/-- A limiter that limits has a rate of at least one and a burst that it refills
in five minutes. -/
theorem Sound.enabled (h : l.Sound t) (hrate : ¬ l.rate ≤ 0) :
    1 ≤ l.rate ∧ 10 ≤ l.burst ∧ l.burst ≤ 300 * l.rate := by
  rcases h.rate with hzero | ⟨ratePerSec, hpos, hr, hb⟩
  · exact absurd hzero.le hrate
  · rw [hr, hb]
    exact ⟨by exact_mod_cast hpos, le_burstFor _, burstFor_le_idle hpos⟩

theorem bucketFor_snd (sweep : SrcBuckets → Int → SrcBuckets) (l : SrcRateLimiter) (src : Addr16)
    (now : Int) :
    (l.bucketFor sweep src now).2 = (l.buckets.lookup src).getD ⟨l.burst, now⟩ := by
  unfold SrcRateLimiter.bucketFor
  cases l.buckets.lookup src with
  | some b => rfl
  | none => rfl

theorem Sound.bucketFor (h : l.Sound t) (hrate : ¬ l.rate ≤ 0) (src : Addr16) :
    0 ≤ (l.bucketFor sweep src t).2.held l.rate l.burst t := by
  have ⟨hone, hburst, _⟩ := h.enabled hrate
  rw [bucketFor_snd]
  cases hl : l.buckets.lookup src with
  | some b =>
    exact refill_nonneg (by linarith) (by linarith) (h.tokens src b hl).1
      (SrcBucket.secondsBetween_nonneg (h.last src b hl))
  | none =>
    rw [Option.getD_none, SrcBucket.held_new]
    linarith

theorem lookup_bucketFor (hsweep : Deletes sweep) {src src' : Addr16} {b : SrcBucket} {now : Int}
    (h : (l.bucketFor sweep src now).1.lookup src' = some b) :
    l.buckets.lookup src' = some b := by
  unfold bucketFor at h
  cases hl : l.buckets.lookup src with
  | some b' =>
    rw [hl] at h
    exact h
  | none =>
    rw [hl] at h
    dsimp only at h
    split_ifs at h
    · exact hsweep _ _ _ _ h
    · exact h

theorem allowWith_of_enabled (hrate : ¬ l.rate ≤ 0) (src : Addr16) (now : Int) :
    l.allowWith sweep src now =
      (((l.bucketFor sweep src now).2.spend l.rate l.burst now).1,
        { l with
          buckets := (l.bucketFor sweep src now).1.insert src
            ((l.bucketFor sweep src now).2.spend l.rate l.burst now).2 }) := by
  rw [allowWith, if_neg hrate]

theorem allowWith_of_disabled (hrate : l.rate ≤ 0) (src : Addr16) (now : Int) :
    l.allowWith sweep src now = (true, l) := if_pos hrate

theorem allowWith_settings (sweep : SrcBuckets → Int → SrcBuckets) (l : SrcRateLimiter)
    (src : Addr16) (now : Int) :
    (l.allowWith sweep src now).2.rate = l.rate ∧
      (l.allowWith sweep src now).2.burst = l.burst := by
  by_cases hrate : l.rate ≤ 0
  · rw [allowWith_of_disabled hrate]
    exact ⟨rfl, rfl⟩
  · rw [allowWith_of_enabled hrate]
    exact ⟨rfl, rfl⟩

theorem lookup_allowWith (hsweep : Deletes sweep) {src src' : Addr16} {b : SrcBucket} {now : Int}
    (h : (l.allowWith sweep src now).2.buckets.lookup src' = some b) :
    l.buckets.lookup src' = some b ∨ src' = src ∧ b.last = now := by
  by_cases hrate : l.rate ≤ 0
  · rw [allowWith_of_disabled hrate] at h
    exact .inl h
  rw [allowWith_of_enabled hrate] at h
  dsimp only at h
  rw [SyncMap.lookup_insert_eq_ite] at h
  split_ifs at h with hsrc
  · rw [← Option.some.inj h, SrcBucket.spend_last]
    exact .inr ⟨hsrc, rfl⟩
  · exact .inl (lookup_bucketFor hsweep h)

theorem Sound.allowWith (h : l.Sound t) (hsweep : Deletes sweep) (src : Addr16) :
    (l.allowWith sweep src t).2.Sound t := by
  by_cases hrate : l.rate ≤ 0
  · rw [allowWith_of_disabled hrate]
    exact h
  have hlast : ∀ src' b, (l.allowWith sweep src t).2.buckets.lookup src' = some b → b.last ≤ t := by
    intro src' b hl
    rcases lookup_allowWith hsweep hl with hl | ⟨-, hb⟩
    · exact h.last src' b hl
    · exact hb.le
  rw [allowWith_of_enabled hrate] at hlast ⊢
  refine ⟨fun src' b hl => ?_, hlast, h.rate⟩
  rw [SyncMap.lookup_insert_eq_ite] at hl
  split_ifs at hl with hsrc
  · rw [← Option.some.inj hl]
    exact ⟨SrcBucket.spend_nonneg (h.bucketFor hrate src), SrcBucket.spend_le ..⟩
  · exact h.tokens src' b (lookup_bucketFor hsweep hl)

theorem Sound.update (h : l.Sound t) (ratePerSec : Int) : (l.update ratePerSec).Sound t := by
  unfold SrcRateLimiter.update
  split_ifs with hoff
  · exact ⟨h.tokens, h.last, .inl rfl⟩
  · have hburst := le_burstFor ratePerSec
    refine ⟨fun src b hl => ?_, fun src b hl => ?_, .inr ⟨ratePerSec, not_le.1 hoff, rfl, rfl⟩⟩
    · rw [SyncMap.lookup_mapValues] at hl
      obtain ⟨b', hl', rfl⟩ := Option.map_eq_some_iff.1 hl
      split_ifs with hover
      · exact ⟨by linarith, le_rfl⟩
      · exact ⟨(h.tokens src b' hl').1, not_lt.1 hover⟩
    · rw [SyncMap.lookup_mapValues] at hl
      obtain ⟨b', hl', rfl⟩ := Option.map_eq_some_iff.1 hl
      split_ifs
      · exact h.last src b' hl'
      · exact h.last src b' hl'

theorem Sound.new (ratePerSec t : Int) : (SrcRateLimiter.new ratePerSec).Sound t := by
  have hempty : ({} : SrcRateLimiter).Sound t :=
    ⟨fun _ _ hl => absurd hl (by simp), fun _ _ hl => absurd hl (by simp), .inl rfl⟩
  exact hempty.update ratePerSec

end Invariant

end SrcRateLimiter

/-! ## With and without the sweep -/

/-- A call of the limiter. -/
inductive LimiterCall where
  | allow (src : Addr16) (now : Int)
  | update (ratePerSec : Int)

namespace LimiterCall

/-- The time of a call. -/
def time? : LimiterCall → Option Int
  | .allow _ now => some now
  | .update _ => none

/-- The limiter after a call. -/
def apply (sweep : SrcBuckets → Int → SrcBuckets) (l : SrcRateLimiter) :
    LimiterCall → SrcRateLimiter
  | .allow src now => (l.allowWith sweep src now).2
  | .update ratePerSec => l.update ratePerSec

/-- The answer to a call, if it has one. -/
def answer? (sweep : SrcBuckets → Int → SrcBuckets) (l : SrcRateLimiter) :
    LimiterCall → Option Bool
  | .allow src now => some (l.allowWith sweep src now).1
  | .update _ => none

end LimiterCall

/-- The answers to a sequence of calls. -/
def SrcRateLimiter.answers (sweep : SrcBuckets → Int → SrcBuckets) :
    SrcRateLimiter → List LimiterCall → List (Option Bool)
  | _, [] => []
  | l, c :: cs => c.answer? sweep l :: answers sweep (c.apply sweep l) cs

namespace SrcRateLimiter

/-- The limiter `l` has what the limiter `l'` has, but for buckets that are idle
at `now`. -/
structure Swept (l l' : SrcRateLimiter) (now : Int) : Prop where
  rate : l.rate = l'.rate
  burst : l.burst = l'.burst
  buckets : ∀ src, l.buckets.lookup src = l'.buckets.lookup src ∨
    l.buckets.lookup src = none ∧
      ∃ b, l'.buckets.lookup src = some b ∧ b.last < now - rateBucketIdle

section Simulation

variable {l l' : SrcRateLimiter} {now : Int}

theorem Swept.refl (l : SrcRateLimiter) (now : Int) : Swept l l now :=
  ⟨rfl, rfl, fun _ => .inl rfl⟩

theorem Swept.mono (h : Swept l l' now) {now' : Int} (ht : now ≤ now') : Swept l l' now' := by
  refine ⟨h.rate, h.burst, fun src => ?_⟩
  rcases h.buckets src with heq | ⟨hnone, b, hb, hidle⟩
  · exact .inl heq
  · exact .inr ⟨hnone, b, hb, by omega⟩

theorem Swept.sweepLocked (h : Swept l l' now) (src : Addr16) :
    (SrcRateLimiter.sweepLocked l.buckets now).lookup src = l'.buckets.lookup src ∨
      (SrcRateLimiter.sweepLocked l.buckets now).lookup src = none ∧
        ∃ b, l'.buckets.lookup src = some b ∧ b.last < now - rateBucketIdle := by
  cases hs : (SrcRateLimiter.sweepLocked l.buckets now).lookup src with
  | some b =>
    have hl := deletes_sweepLocked _ _ _ _ hs
    rcases h.buckets src with heq | ⟨hnone, -⟩
    · exact .inl (hl.symm.trans heq)
    · rw [hl] at hnone
      cases hnone
  | none =>
    cases hl' : l'.buckets.lookup src with
    | none => exact .inl rfl
    | some b =>
      refine .inr ⟨rfl, b, rfl, ?_⟩
      rcases h.buckets src with heq | ⟨-, b', hb', hidle⟩
      · -- It was there and went in this sweep.
        have hgone := SyncMap.of_lookup_filter_eq_none hs (heq.trans hl')
        simpa using hgone
      · rw [hl'] at hb'
        rwa [Option.some.inj hb']

theorem Swept.lookup_bucketFor (h : Swept l l' now) (src src' : Addr16) :
    (l.bucketFor SrcRateLimiter.sweepLocked src now).1.lookup src' = l'.buckets.lookup src' ∨
      (l.bucketFor SrcRateLimiter.sweepLocked src now).1.lookup src' = none ∧
        ∃ b, l'.buckets.lookup src' = some b ∧ b.last < now - rateBucketIdle := by
  unfold SrcRateLimiter.bucketFor
  cases l.buckets.lookup src with
  | some b => exact h.buckets src'
  | none =>
    dsimp only
    split_ifs
    · exact h.sweepLocked src'
    · exact h.buckets src'

theorem bucketFor_keepAll (l : SrcRateLimiter) (src : Addr16) (now : Int) :
    (l.bucketFor keepAll src now).1 = l.buckets := by
  unfold SrcRateLimiter.bucketFor keepAll
  cases l.buckets.lookup src with
  | some b => rfl
  | none => exact ite_self _

theorem Swept.spend_eq (h : Swept l l' now) (hs : l'.Sound now) (hrate : ¬ l'.rate ≤ 0)
    (src : Addr16) :
    (l.bucketFor SrcRateLimiter.sweepLocked src now).2.spend l.rate l.burst now =
      (l'.bucketFor keepAll src now).2.spend l'.rate l'.burst now := by
  obtain ⟨hone, -, hburst⟩ := hs.enabled hrate
  rw [bucketFor_snd, bucketFor_snd, h.rate, h.burst]
  rcases h.buckets src with heq | ⟨hnone, b, hb, hidle⟩
  · rw [heq]
  · rw [hnone, hb]
    exact (SrcBucket.spend_of_idle hidle (hs.tokens src b hb).1 (by linarith) hburst).symm

theorem Swept.allowWith (h : Swept l l' now) (hs : l'.Sound now) (src : Addr16) :
    (l.allowWith SrcRateLimiter.sweepLocked src now).1 = (l'.allowWith keepAll src now).1 ∧
      Swept (l.allowWith SrcRateLimiter.sweepLocked src now).2
        (l'.allowWith keepAll src now).2 now := by
  by_cases hrate : l'.rate ≤ 0
  · rw [allowWith_of_disabled hrate, allowWith_of_disabled (h.rate ▸ hrate)]
    exact ⟨rfl, h⟩
  rw [allowWith_of_enabled hrate, allowWith_of_enabled (h.rate ▸ hrate),
    h.spend_eq hs hrate src, bucketFor_keepAll]
  refine ⟨rfl, h.rate, h.burst, fun src' => ?_⟩
  dsimp only
  rw [SyncMap.lookup_insert_eq_ite, SyncMap.lookup_insert_eq_ite]
  split_ifs with hsrc
  · exact .inl rfl
  · exact h.lookup_bucketFor src src'

theorem Swept.update (h : Swept l l' now) (ratePerSec : Int) :
    Swept (l.update ratePerSec) (l'.update ratePerSec) now := by
  unfold SrcRateLimiter.update
  split_ifs
  · exact ⟨rfl, h.burst, h.buckets⟩
  · refine ⟨rfl, rfl, fun src => ?_⟩
    dsimp only
    rw [SyncMap.lookup_mapValues, SyncMap.lookup_mapValues]
    rcases h.buckets src with heq | ⟨hnone, b, hb, hidle⟩
    · rw [heq]
      exact .inl rfl
    · rw [hnone, hb]
      refine .inr ⟨rfl, _, rfl, ?_⟩
      dsimp only
      split_ifs <;> exact hidle

end Simulation

end SrcRateLimiter

/-! ## The number of buckets -/

/-- The calls of the limiter as steps. -/
def limiterStep (l : SrcRateLimiter) (c : LimiterCall) : Option SrcRateLimiter :=
  some (c.apply SrcRateLimiter.sweepLocked l)

/-- A source without a bucket that comes to a full map finds an idle bucket
there. -/
def FindsRoom (l : SrcRateLimiter) : LimiterCall → Prop
  | .allow src now =>
    0 < l.rate → l.buckets.lookup src = none → maxRateBuckets ≤ SyncMap.size l.buckets →
      ∃ src' b, l.buckets.lookup src' = some b ∧ b.last < now - rateBucketIdle
  | .update _ => True

namespace SrcRateLimiter

variable {l : SrcRateLimiter} {src : Addr16}

theorem lookup_new (ratePerSec : Int) (src : Addr16) :
    (new ratePerSec).buckets.lookup src = none := by
  unfold new update
  split_ifs <;> rfl

theorem size_new_le (ratePerSec : Int) :
    SyncMap.size (new ratePerSec).buckets ≤ maxRateBuckets := by
  unfold new update
  split_ifs <;> exact Nat.zero_le _

theorem size_sweepLocked_lt_iff (buckets : SrcBuckets) (now : Int) :
    SyncMap.size (sweepLocked buckets now) < SyncMap.size buckets ↔
      ∃ src b, buckets.lookup src = some b ∧ b.last < now - rateBucketIdle := by
  constructor
  · intro hlt
    by_contra hnone
    have hself : sweepLocked buckets now = buckets := by
      refine SyncMap.filter_eq_self fun src b hb => ?_
      simpa using fun hidle => hnone ⟨src, b, hb, hidle⟩
    rw [hself] at hlt
    exact lt_irrefl _ hlt
  · rintro ⟨src, b, hb, hidle⟩
    exact SyncMap.size_filter_lt hb (by simpa using hidle)

theorem size_allow_of_some {b : SrcBucket} (hb : l.buckets.lookup src = some b) (now : Int) :
    SyncMap.size (l.allow src now).2.buckets = SyncMap.size l.buckets := by
  by_cases hrate : l.rate ≤ 0
  · rw [allow, allowWith_of_disabled hrate]
  · rw [allow, allowWith_of_enabled hrate, bucketFor, hb]
    exact SyncMap.size_insert_of_some hb

theorem size_allow_of_none (hrate : ¬ l.rate ≤ 0) (hnone : l.buckets.lookup src = none)
    (now : Int) :
    SyncMap.size (l.allow src now).2.buckets =
      (if maxRateBuckets ≤ SyncMap.size l.buckets then
        SyncMap.size (sweepLocked l.buckets now) else SyncMap.size l.buckets) + 1 := by
  have hfresh : (l.bucketFor sweepLocked src now).1.lookup src = none := by
    rw [Option.eq_none_iff_forall_ne_some]
    intro b hb
    rw [lookup_bucketFor deletes_sweepLocked hb] at hnone
    cases hnone
  have hsize := SyncMap.size_insert_fresh
    (v := ((l.bucketFor sweepLocked src now).2.spend l.rate l.burst now).2) hfresh
  rw [allow, allowWith_of_enabled hrate]
  dsimp only
  rw [bucketFor, hnone] at hsize ⊢
  dsimp only at hsize ⊢
  split_ifs at hsize ⊢ <;> omega

/-- One call keeps the bound exactly if it finds room. -/
theorem size_apply_le_iff (h : SyncMap.size l.buckets ≤ maxRateBuckets) (c : LimiterCall) :
    SyncMap.size (c.apply sweepLocked l).buckets ≤ maxRateBuckets ↔ FindsRoom l c := by
  cases c with
  | update ratePerSec =>
    refine iff_of_true ?_ trivial
    show SyncMap.size (l.update ratePerSec).buckets ≤ maxRateBuckets
    unfold update
    split_ifs
    · exact h
    · rw [SyncMap.size_mapValues]
      exact h
  | allow src now =>
    show SyncMap.size (l.allow src now).2.buckets ≤ _ ↔ _
    simp only [FindsRoom]
    by_cases hrate : l.rate ≤ 0
    · rw [allow, allowWith_of_disabled hrate]
      exact iff_of_true h fun hpos => absurd hpos (not_lt.2 hrate)
    cases hb : l.buckets.lookup src with
    | some b =>
      rw [size_allow_of_some hb]
      exact iff_of_true h fun _ hnone => by cases hnone
    | none =>
      rw [size_allow_of_none hrate hb, ← size_sweepLocked_lt_iff]
      have hpos := not_le.1 hrate
      by_cases hfull : maxRateBuckets ≤ SyncMap.size l.buckets
      · rw [if_pos hfull]
        simp only [hpos, hfull, true_imp_iff]
        omega
      · rw [if_neg hfull]
        exact iff_of_true (by omega) fun _ _ hle => absurd hle hfull

end SrcRateLimiter

/-- The map keeps to `maxRateBuckets` exactly in the runs in which every new source
finds room. -/
theorem bounded_iff (ratePerSec : Int) (calls : List LimiterCall) :
    AllSteps limiterStep (fun l c =>
        SyncMap.size (c.apply SrcRateLimiter.sweepLocked l).buckets ≤ maxRateBuckets)
      (.new ratePerSec) calls ↔
      AllSteps limiterStep FindsRoom (.new ratePerSec) calls := by
  suffices hfrom : ∀ l : SrcRateLimiter, SyncMap.size l.buckets ≤ maxRateBuckets →
      (AllSteps limiterStep (fun l c =>
          SyncMap.size (c.apply SrcRateLimiter.sweepLocked l).buckets ≤ maxRateBuckets) l calls ↔
        AllSteps limiterStep FindsRoom l calls) by
    exact hfrom _ (SrcRateLimiter.size_new_le ratePerSec)
  induction calls with
  | nil => exact fun _ _ => Iff.rfl
  | cons c cs ih =>
    intro l hsize
    unfold AllSteps
    rw [SrcRateLimiter.size_apply_le_iff hsize]
    refine and_congr_right fun hroom => forall_congr' fun l' => imp_congr_right fun hstep => ?_
    apply ih
    rw [← Option.some.inj hstep]
    exact (SrcRateLimiter.size_apply_le_iff hsize c).2 hroom

/-! ### The callers -/

/-- The source of a call at the time or later. -/
def LimiterCall.callerSince? (t : Int) : LimiterCall → Option Addr16
  | .allow src now => if t ≤ now then some src else none
  | .update _ => none

/-- The sources that have called at the time or later. -/
def callersSince (t : Int) (calls : List LimiterCall) : Finset Addr16 :=
  (calls.filterMap (·.callerSince? t)).toFinset

theorem mem_callersSince {t now : Int} {src : Addr16} {calls : List LimiterCall}
    (hcall : LimiterCall.allow src now ∈ calls) (ht : t ≤ now) : src ∈ callersSince t calls := by
  rw [callersSince, List.mem_toFinset, List.mem_filterMap]
  exact ⟨_, hcall, if_pos ht⟩

/-- Some call of the sequence had at least so many different callers in the time of
`rateBucketIdle` before it. -/
def ManyCallers (calls : List LimiterCall) (n : Nat) : Prop :=
  ∃ pre src now post, calls = pre ++ .allow src now :: post ∧
    n ≤ (callersSince (now - rateBucketIdle) (pre ++ [.allow src now])).card

theorem ManyCallers.append {calls : List LimiterCall} {n : Nat} (h : ManyCallers calls n)
    (more : List LimiterCall) : ManyCallers (calls ++ more) n := by
  obtain ⟨pre, src, now, post, rfl, hn⟩ := h
  exact ⟨pre, src, now, post ++ more, by simp, hn⟩

/-- What the calls so far say about the map: a bucket was last touched by a call of
its source, and the map is in its bound or had as many callers. -/
structure Recorded (calls : List LimiterCall) (l : SrcRateLimiter) : Prop where
  touched : ∀ src b, l.buckets.lookup src = some b → LimiterCall.allow src b.last ∈ calls
  size : SyncMap.size l.buckets ≤ maxRateBuckets ∨ ManyCallers calls (SyncMap.size l.buckets)

namespace Recorded

variable {calls : List LimiterCall} {l : SrcRateLimiter}

theorem of_size_le {l' : SrcRateLimiter} {c : LimiterCall} (h : Recorded calls l)
    (hsize : SyncMap.size l'.buckets = SyncMap.size l.buckets)
    (htouched : ∀ src b, l'.buckets.lookup src = some b →
      LimiterCall.allow src b.last ∈ calls ++ [c]) : Recorded (calls ++ [c]) l' := by
  refine ⟨htouched, ?_⟩
  rw [hsize]
  exact h.size.imp_right (·.append [c])

theorem update (h : Recorded calls l) (ratePerSec : Int) :
    Recorded (calls ++ [.update ratePerSec]) (l.update ratePerSec) := by
  unfold SrcRateLimiter.update
  split_ifs
  · exact h.of_size_le rfl fun src b hb => List.mem_append_left _ (h.touched src b hb)
  · refine h.of_size_le (SyncMap.size_mapValues _ _) fun src b hb => List.mem_append_left _ ?_
    rw [SyncMap.lookup_mapValues] at hb
    obtain ⟨b₀, hb₀, rfl⟩ := Option.map_eq_some_iff.1 hb
    have hlast := h.touched src b₀ hb₀
    split_ifs <;> exact hlast

/-- After a sweep for a new source, every bucket has a caller in the time of
`rateBucketIdle` before the call. -/
theorem callers_of_full (h : Recorded calls l) {src : Addr16} {now : Int} (hrate : ¬ l.rate ≤ 0)
    (hnone : l.buckets.lookup src = none) (hfull : maxRateBuckets ≤ SyncMap.size l.buckets) :
    SyncMap.size (l.allow src now).2.buckets ≤
      (callersSince (now - rateBucketIdle) (calls ++ [.allow src now])).card := by
  refine SyncMap.size_le_card fun src' b hb => ?_
  rw [SrcRateLimiter.allow, SrcRateLimiter.allowWith_of_enabled hrate] at hb
  dsimp only at hb
  rw [SyncMap.lookup_insert_eq_ite, SrcRateLimiter.bucketFor, hnone] at hb
  dsimp only at hb
  rw [if_pos hfull] at hb
  have hidle : 0 ≤ rateBucketIdle := by decide
  split_ifs at hb with hsrc
  · subst hsrc
    exact mem_callersSince (List.mem_append_right _ (List.mem_singleton_self _)) (by omega)
  · obtain ⟨hb, hfresh⟩ := SyncMap.lookup_filter_eq_some_iff.1 hb
    have hcall := List.mem_append_left [LimiterCall.allow src now] (h.touched src' b hb)
    exact mem_callersSince hcall (by simpa using hfresh)

theorem allow (h : Recorded calls l) (src : Addr16) (now : Int) :
    Recorded (calls ++ [.allow src now]) (l.allow src now).2 := by
  have htouched : ∀ src' b, (l.allow src now).2.buckets.lookup src' = some b →
      LimiterCall.allow src' b.last ∈ calls ++ [.allow src now] := by
    intro src' b hb
    rcases SrcRateLimiter.lookup_allowWith SrcRateLimiter.deletes_sweepLocked hb with
      hb | ⟨rfl, rfl⟩
    · exact List.mem_append_left _ (h.touched src' b hb)
    · exact List.mem_append_right _ (List.mem_singleton_self _)
  by_cases hrate : l.rate ≤ 0
  · refine h.of_size_le ?_ htouched
    rw [SrcRateLimiter.allow, SrcRateLimiter.allowWith_of_disabled hrate]
  cases hb : l.buckets.lookup src with
  | some b => exact h.of_size_le (SrcRateLimiter.size_allow_of_some hb now) htouched
  | none =>
    refine ⟨htouched, ?_⟩
    by_cases hfull : maxRateBuckets ≤ SyncMap.size l.buckets
    · exact .inr ⟨calls, src, now, [], rfl, h.callers_of_full hrate hb hfull⟩
    · rw [SrcRateLimiter.size_allow_of_none hrate hb, if_neg hfull]
      exact .inl (by omega)

theorem run {l' : SrcRateLimiter} {more : List LimiterCall} (h : Recorded calls l)
    (hrun : Lib.run limiterStep l more = some l') : Recorded (calls ++ more) l' := by
  induction more generalizing calls l with
  | nil =>
    obtain rfl : l = l' := Option.some.inj hrun
    rw [List.append_nil]
    exact h
  | cons c more ih =>
    obtain ⟨l₁, hl₁, hrun⟩ := run_cons hrun
    obtain rfl : c.apply SrcRateLimiter.sweepLocked l = l₁ := Option.some.inj hl₁
    rw [List.append_cons]
    refine ih ?_ hrun
    cases c with
    | allow src now => exact h.allow src now
    | update ratePerSec => exact h.update ratePerSec

end Recorded

/-- The map has no more buckets than `maxRateBuckets`, or than the sources that had
called in the time of `rateBucketIdle` before some call.  It keeps to
`maxRateBuckets` exactly in the runs in which every new source finds room. -/
theorem buckets_bounded (ratePerSec : Int) (calls : List LimiterCall) :
    (∃ l, Lib.run limiterStep (.new ratePerSec) calls = some l ∧
      (SyncMap.size l.buckets ≤ maxRateBuckets ∨
        ManyCallers calls (SyncMap.size l.buckets))) ∧
    (AllSteps limiterStep (fun l c =>
        SyncMap.size (c.apply SrcRateLimiter.sweepLocked l).buckets ≤ maxRateBuckets)
      (.new ratePerSec) calls ↔
      AllSteps limiterStep FindsRoom (.new ratePerSec) calls) := by
  refine ⟨?_, bounded_iff ratePerSec calls⟩
  obtain ⟨l, hrun⟩ := exists_run (fun l c => ⟨_, rfl⟩) calls (SrcRateLimiter.new ratePerSec)
  have hnew : Recorded [] (SrcRateLimiter.new ratePerSec) := by
    refine ⟨fun src b hb => ?_, .inl (SrcRateLimiter.size_new_le ratePerSec)⟩
    rw [SrcRateLimiter.lookup_new] at hb
    cases hb
  exact ⟨l, hrun, (hnew.run hrun).size⟩

/-! ### A flood -/

/-- The addresses of one subnet. -/
def floodSource (i : Nat) : Addr16 :=
  ⟨3 :: (List.replicate 13 0 ++ [UInt8.ofNat (i / 256), UInt8.ofNat i]), rfl⟩

theorem floodSource_inj {i j : Nat} (hi : i < 65536) (hj : j < 65536)
    (h : floodSource i = floodSource j) : i = j := by
  have hbytes := congrArg List.Vector.toList h
  simp only [floodSource, List.Vector.toList_mk, List.cons.injEq, true_and,
    List.append_cancel_left_eq, and_true] at hbytes
  have hhigh := congrArg UInt8.toNat hbytes.1
  have hlow := congrArg UInt8.toNat hbytes.2
  rw [UInt8.toNat_ofNat', UInt8.toNat_ofNat'] at hhigh hlow
  omega

/-- Each of the first `n` addresses asks once, all at one time. -/
def flood (n : Nat) : List LimiterCall := (List.range n).map fun i => .allow (floodSource i) 0

/-- Sources that all come at one time all get a bucket and keep it, and nobody else
gets one. -/
theorem run_flood {srcs : List Addr16} (hsrcs : srcs.Nodup) {l : SrcRateLimiter} (now : Int)
    (hrate : ¬ l.rate ≤ 0) (hfresh : ∀ src ∈ srcs, l.buckets.lookup src = none)
    (hlast : ∀ src b, l.buckets.lookup src = some b → b.last = now) :
    ∃ l', run limiterStep l (srcs.map fun src => .allow src now) = some l' ∧ l'.rate = l.rate ∧
      SyncMap.size l'.buckets = SyncMap.size l.buckets + srcs.length ∧
      ∀ src b, l'.buckets.lookup src = some b →
        b.last = now ∧ (src ∈ srcs ∨ l.buckets.lookup src ≠ none) := by
  induction srcs generalizing l with
  | nil => exact ⟨l, rfl, rfl, rfl, fun src b hb => ⟨hlast src b hb, .inr (by simp [hb])⟩⟩
  | cons src srcs ih =>
    obtain ⟨hsrc, hsrcs⟩ := List.nodup_cons.1 hsrcs
    have hnone : l.buckets.lookup src = none := hfresh src List.mem_cons_self
    -- Nobody is idle, so nothing is swept.
    have hswept : SyncMap.size (SrcRateLimiter.sweepLocked l.buckets now) =
        SyncMap.size l.buckets := by
      refine le_antisymm (SyncMap.size_filter_le _ _) (not_lt.1 fun hlt => ?_)
      obtain ⟨src', b, hb, hidle⟩ := (SrcRateLimiter.size_sweepLocked_lt_iff _ _).1 hlt
      rw [hlast src' b hb, rateBucketIdle, second] at hidle
      omega
    have hsize := SrcRateLimiter.size_allow_of_none hrate hnone now
    rw [hswept, ite_self] at hsize
    have hsettings : (l.allow src now).2.rate = l.rate :=
      (SrcRateLimiter.allowWith_settings _ l src now).1
    have hrate' : ¬ (l.allow src now).2.rate ≤ 0 := by
      rw [hsettings]
      exact hrate
    have hafter : ∀ {src' b}, (l.allow src now).2.buckets.lookup src' = some b →
        l.buckets.lookup src' = some b ∨ src' = src ∧ b.last = now :=
      SrcRateLimiter.lookup_allowWith SrcRateLimiter.deletes_sweepLocked
    have hfresh' : ∀ src' ∈ srcs, (l.allow src now).2.buckets.lookup src' = none := by
      intro src' hsrc'
      rw [Option.eq_none_iff_forall_ne_some]
      intro b hb
      rcases hafter hb with hb | ⟨rfl, -⟩
      · rw [hfresh src' (List.mem_cons_of_mem _ hsrc')] at hb
        cases hb
      · exact hsrc hsrc'
    have hlast' : ∀ src' b, (l.allow src now).2.buckets.lookup src' = some b → b.last = now := by
      intro src' b hb
      rcases hafter hb with hb | ⟨-, hnow⟩
      · exact hlast src' b hb
      · exact hnow
    obtain ⟨l', hrun, hsame, hsize', hbuckets⟩ := ih hsrcs hrate' hfresh' hlast'
    refine ⟨l', hrun, hsame.trans hsettings, ?_, fun src' b hb => ?_⟩
    · rw [hsize', hsize, List.length_cons]
      omega
    · obtain ⟨hnow, hfrom⟩ := hbuckets src' b hb
      refine ⟨hnow, hfrom.elim (fun h => .inl (List.mem_cons_of_mem _ h)) fun h => ?_⟩
      obtain ⟨b', hb'⟩ := Option.ne_none_iff_exists'.1 h
      rcases hafter hb' with hb' | ⟨rfl, -⟩
      · exact .inr (by simp [hb'])
      · exact .inl List.mem_cons_self

theorem run_flood_subnet {n : Nat} (hn : n ≤ 65536) :
    ∃ l, run limiterStep (.new 1) (flood n) = some l ∧ l.rate = 1 ∧ SyncMap.size l.buckets = n ∧
      ∀ src b, l.buckets.lookup src = some b → b.last = 0 ∧ ∃ i < n, src = floodSource i := by
  have hnodup : ((List.range n).map floodSource).Nodup := by
    refine List.Nodup.map_on (fun i hi j hj h => ?_) List.nodup_range
    rw [List.mem_range] at hi hj
    exact floodSource_inj (by omega) (by omega) h
  have hempty := SrcRateLimiter.lookup_new 1
  have hrate : (SrcRateLimiter.new 1).rate = 1 := Int.cast_one
  obtain ⟨l, hrun, hsame, hsize, hbuckets⟩ := run_flood hnodup 0 (by rw [hrate]; norm_num)
    (fun src _ => hempty src)
    fun src b hb => absurd (hempty src) (by rw [hb]; exact Option.some_ne_none b)
  rw [List.map_map] at hrun
  refine ⟨l, hrun, hsame.trans hrate, ?_, fun src b hb => ?_⟩
  · rw [hsize, List.length_map, List.length_range]
    exact Nat.zero_add n
  · obtain ⟨hlast, hmem⟩ := hbuckets src b hb
    obtain ⟨i, hi, rfl⟩ := List.mem_map.1 (hmem.resolve_right (not_not.2 (hempty src)))
    exact ⟨hlast, i, List.mem_range.1 hi, rfl⟩

theorem flood_overflows :
    ∃ l, run limiterStep (.new 1) (flood 8193) = some l ∧
      maxRateBuckets < SyncMap.size l.buckets := by
  obtain ⟨l, hrun, -, hsize, -⟩ := run_flood_subnet (n := 8193) (by omega)
  refine ⟨l, hrun, ?_⟩
  rw [hsize]
  decide

/-! ## The answers -/

/-- The sweep is not to be seen: the answers are those of a limiter that keeps
every bucket. -/
theorem sweep_unobservable (ratePerSec : Int) (calls : List LimiterCall)
    (hsorted : calls.Pairwise fun c c' => ∀ t ∈ c.time?, ∀ t' ∈ c'.time?, t ≤ t') :
    (SrcRateLimiter.new ratePerSec).answers SrcRateLimiter.sweepLocked calls =
      (SrcRateLimiter.new ratePerSec).answers SrcRateLimiter.keepAll calls := by
  suffices hsim : ∀ l l' : SrcRateLimiter,
      (∀ c ∈ calls, ∀ t ∈ c.time?, SrcRateLimiter.Swept l l' t ∧ l'.Sound t) →
      l.answers SrcRateLimiter.sweepLocked calls = l'.answers SrcRateLimiter.keepAll calls by
    exact hsim _ _ fun _ _ t _ => ⟨.refl _ t, .new ratePerSec t⟩
  induction hsorted with
  | nil => exact fun _ _ _ => rfl
  | @cons c cs hfirst _ ih =>
    intro l l' h
    unfold SrcRateLimiter.answers
    cases c with
    | allow src now =>
      obtain ⟨hswept, hsound⟩ := h _ List.mem_cons_self now rfl
      obtain ⟨hanswer, hswept'⟩ := hswept.allowWith hsound src
      have htail := ih _ _ fun c' hc' t ht =>
        have hle : now ≤ t := hfirst c' hc' now rfl t ht
        ⟨hswept'.mono hle, (hsound.allowWith SrcRateLimiter.deletes_keepAll src).mono hle⟩
      exact congrArg₂ List.cons (congrArg some hanswer) htail
    | update ratePerSec =>
      have htail := ih _ _ fun c' hc' t ht =>
        have hbefore := h c' (List.mem_cons_of_mem _ hc') t ht
        ⟨hbefore.1.update ratePerSec, hbefore.2.update ratePerSec⟩
      exact congrArg (List.cons none) htail

/-- A flood that fills the map, and one more source when all of it is idle. -/
def floodAndIdle : List LimiterCall :=
  flood 8192 ++ [.allow (floodSource 8192) (400 * second)]

/-- The last call sweeps every bucket but its own. -/
theorem sweep_unobservable_floodAndIdle :
    (SrcRateLimiter.new 1).answers SrcRateLimiter.sweepLocked floodAndIdle =
        (SrcRateLimiter.new 1).answers SrcRateLimiter.keepAll floodAndIdle ∧
      ∃ l, run limiterStep (.new 1) (flood 8192) = some l ∧ SyncMap.size l.buckets = 8192 ∧
        SyncMap.size (l.allow (floodSource 8192) (400 * second)).2.buckets = 1 := by
  refine ⟨sweep_unobservable 1 floodAndIdle ?_, ?_⟩
  · have htime : ∀ c ∈ flood 8192, c.time? = some 0 := by
      intro c hc
      obtain ⟨i, -, rfl⟩ := List.mem_map.1 hc
      rfl
    refine List.pairwise_append.2 ⟨?_, List.pairwise_singleton _ _, fun c hc c' hc' => ?_⟩
    · refine List.pairwise_of_forall_mem_list fun c hc c' hc' => ?_
      rw [htime c hc, htime c' hc']
      rintro _ ⟨⟩ _ ⟨⟩
      exact le_refl 0
    · obtain rfl := List.mem_singleton.1 hc'
      rw [htime c hc]
      rintro _ ⟨⟩ _ ⟨⟩
      decide
  · obtain ⟨l, hrun, hrate, hsize, hbuckets⟩ := run_flood_subnet (n := 8192) (by omega)
    refine ⟨l, hrun, hsize, ?_⟩
    have hnone : l.buckets.lookup (floodSource 8192) = none := by
      rw [Option.eq_none_iff_forall_ne_some]
      intro b hb
      obtain ⟨-, i, hi, heq⟩ := hbuckets _ b hb
      exact absurd (floodSource_inj (by omega) (by omega) heq) (by omega)
    have hswept : SyncMap.size (SrcRateLimiter.sweepLocked l.buckets (400 * second)) = 0 := by
      refine SyncMap.size_filter_eq_zero fun src b hb => ?_
      rw [(hbuckets src b hb).1]
      decide
    rw [SrcRateLimiter.size_allow_of_none (by rw [hrate]; norm_num) hnone, hsize, hswept]
    rfl

end Ydn64.Dns64
