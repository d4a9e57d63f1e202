import Ydn64.Nat64.IcmpErr
import Ydn64.Dns64.RateLimit

/-!
# What a token bucket lets through

The limiter of the ICMP errors (`src/nat64/icmperr.go`) is one bucket; the limiter
of the resolver (`src/dns64/ratelimit.go`) has one for every source.  To the
caller both are a bucket that may be missing and that is full when it is: the
zero value of the first, a source that is new or has been swept in the second.
`Slot` is that view, and a call is the same in both (`Slot.call`).

`Slot.pays` is the step: what a call spends is gone from the budget.  A sweep that
another source brings about deletes only buckets that are full again, so it does
not move the budget of their sources (`Slot.budget_of_idle`).  With that both
limiters are meters, and `token_bucket_bound` is the rule for metered runs.
-/

namespace Ydn64.Dns64

open Ydn64.GoStd Ydn64.Lib
open Ydn64.Nat64 (ErrRateLimiter second)

/-- A time in seconds. -/
def seconds (t : Int) : ℚ := (t : ℚ) / 10 ^ 9

theorem seconds_le_seconds {t t' : Int} : seconds t ≤ seconds t' ↔ t ≤ t' := by
  unfold seconds
  rw [div_le_div_iff_of_pos_right (by norm_num)]
  exact Int.cast_le

theorem secondsBetween_eq (last now : Int) :
    secondsBetween last now = seconds now - seconds last := by
  unfold secondsBetween seconds
  rw [Int.cast_sub, sub_div]

/-! ## A bucket that may be missing -/

abbrev Slot := Option SrcBucket

namespace Slot

variable {rate burst : ℚ} {o : Slot} {now : Int} {t t' : ℚ}

/-- The answer to a call, and the bucket that it leaves. -/
def call (o : Slot) (rate burst : ℚ) (now : Int) : Bool × SrcBucket :=
  (o.getD ⟨burst, now⟩).spend rate burst now

/-- What the caller has left at a time. -/
def budget (rate burst : ℚ) (o : Slot) (t : ℚ) : ℚ :=
  o.elim burst fun b => refill rate burst b.tokens (t - seconds b.last)

/-- The bucket is in range and was last touched at `t` or before. -/
def AsOf (burst : ℚ) (o : Slot) (t : ℚ) : Prop :=
  ∀ b ∈ o, 0 ≤ b.tokens ∧ b.tokens ≤ burst ∧ seconds b.last ≤ t

theorem AsOf.mono (h : AsOf burst o t) (ht : t ≤ t') : AsOf burst o t' :=
  fun b hb => ⟨(h b hb).1, (h b hb).2.1, (h b hb).2.2.trans ht⟩

theorem asOf_none : AsOf burst none t := fun _ hb => absurd hb (Option.not_mem_none _)

theorem budget_nonneg (hrate : 0 ≤ rate) (hburst : 0 ≤ burst) (h : AsOf burst o t) :
    0 ≤ budget rate burst o t := by
  cases o with
  | none => exact hburst
  | some b =>
    obtain ⟨htokens, -, hlast⟩ := h b rfl
    exact refill_nonneg hrate hburst htokens (sub_nonneg.2 hlast)

theorem budget_le (o : Slot) (t : ℚ) : budget rate burst o t ≤ burst := by
  cases o with
  | none => exact le_rfl
  | some b => exact refill_le_burst ..

theorem budget_grows (hrate : 0 ≤ rate) (o : Slot) (ht : t ≤ t') :
    budget rate burst o t' ≤ budget rate burst o t + rate * (t' - t) := by
  cases o with
  | none => exact le_add_of_nonneg_right (mul_nonneg hrate (sub_nonneg.2 ht))
  | some b => exact refill_grows hrate ht

theorem budget_eq_held (o : Slot) :
    budget rate burst o (seconds now) = (o.getD ⟨burst, now⟩).held rate burst now := by
  cases o with
  | none => exact (SrcBucket.held_new rate burst now).symm
  | some b =>
    show refill _ _ _ _ = refill _ _ _ _
    rw [secondsBetween_eq]
    rfl

theorem asOf_call (hrate : 0 ≤ rate) (hburst : 0 ≤ burst) (h : AsOf burst o (seconds now)) :
    AsOf burst (some (o.call rate burst now).2) (seconds now) := by
  intro b hb
  have hheld := budget_nonneg hrate hburst h
  rw [budget_eq_held] at hheld
  rw [← Option.some.inj hb]
  refine ⟨SrcBucket.spend_nonneg hheld, SrcBucket.spend_le .., ?_⟩
  rw [call, SrcBucket.spend_last]

theorem pays (o : Slot) :
    budget rate burst (some (o.call rate burst now).2) (seconds now) +
      (if (o.call rate burst now).1 then 1 else 0) = budget rate burst o (seconds now) := by
  have hspent := SrcBucket.spend_tokens (o.getD ⟨burst, now⟩) rate burst now
  have hle := SrcBucket.spend_le (o.getD ⟨burst, now⟩) rate burst now
  rw [budget_eq_held o, ← hspent]
  show refill _ _ _ _ + _ = _
  rw [call, SrcBucket.spend_last, sub_self, refill_zero hle]

theorem budget_of_idle {b : SrcBucket} (hidle : b.last < now - rateBucketIdle)
    (htokens : 0 ≤ b.tokens) (hrate : 0 ≤ rate) (hburst : burst ≤ 300 * rate) :
    budget rate burst (some b) (seconds now) = budget rate burst none (seconds now) := by
  rw [budget_eq_held]
  exact SrcBucket.held_of_idle hidle htokens hrate hburst

end Slot

/-! ## The limiter of the ICMP errors -/

namespace ErrBucket

variable {perSec burst : ℚ}

/-- The limiter as a bucket that is missing before the first call. -/
def slot (r : ErrRateLimiter) : Slot := r.last.map fun last => ⟨r.tokens, last⟩

theorem tokens_of_slot {r : ErrRateLimiter} {b : SrcBucket} (h : slot r = some b) :
    r.tokens = b.tokens := by
  obtain ⟨last, -, rfl⟩ := Option.map_eq_some_iff.1 h
  rfl

/-- The calls of the limiter as steps. -/
def step (perSec burst : ℚ) (r : ErrRateLimiter) (now : Int) : Option ErrRateLimiter :=
  some (r.allowBudget now perSec burst).2

theorem allowBudget_eq (perSec burst : ℚ) (r : ErrRateLimiter) (now : Int) :
    (r.allowBudget now perSec burst).1 = ((slot r).call perSec burst now).1 ∧
      slot (r.allowBudget now perSec burst).2 = some ((slot r).call perSec burst now).2 := by
  unfold ErrRateLimiter.allowBudget Slot.call SrcBucket.spend slot
  obtain ⟨tokens, last⟩ := r
  cases last with
  | none =>
    dsimp only [Option.getD, Option.isNone, Option.map, secondsBetween]
    simp only [if_true]
    split_ifs <;> exact ⟨rfl, rfl⟩
  | some last =>
    dsimp only [Option.getD, Option.isNone, Option.map, secondsBetween]
    simp only [Bool.false_eq_true, if_false]
    split_ifs <;> exact ⟨rfl, rfl⟩

/-- The tokens are in range, and those of the bucket are. -/
structure AsOf (burst : ℚ) (r : ErrRateLimiter) (t : ℚ) : Prop where
  tokens : 0 ≤ r.tokens ∧ r.tokens ≤ burst
  slot : Slot.AsOf burst (slot r) t

theorem AsOf.allowBudget (hrate : 0 ≤ perSec) (hburst : 0 ≤ burst) {r : ErrRateLimiter} {now : Int}
    (h : AsOf burst r (seconds now)) :
    AsOf burst (r.allowBudget now perSec burst).2 (seconds now) := by
  have hslot := (allowBudget_eq perSec burst r now).2
  have hcall := Slot.asOf_call hrate hburst h.slot
  have hrange := hcall _ rfl
  rw [← tokens_of_slot hslot] at hrange
  exact ⟨⟨hrange.1, hrange.2.1⟩, hslot ▸ hcall⟩

/-- The limiter as a meter. -/
def meter (hrate : 0 ≤ perSec) (hburst : 0 ≤ burst) :
    Meter (step perSec burst) seconds (fun r now => (r.allowBudget now perSec burst).1)
      perSec burst where
  budget r t := Slot.budget perSec burst (slot r) t
  AsOf := AsOf burst
  rate_nonneg := hrate
  burst_nonneg := hburst
  asOf_mono _ _ _ h ht := ⟨h.tokens, h.slot.mono ht⟩
  nonneg _ _ h := Slot.budget_nonneg hrate hburst h.slot
  le_burst r t _ := Slot.budget_le (slot r) t
  grows r _ _ _ ht := Slot.budget_grows hrate (slot r) ht
  asOf_step r now r' h hstep := by
    rw [← Option.some.inj hstep]
    exact h.allowBudget hrate hburst
  pays r now r' h hstep := by
    obtain ⟨hanswer, hslot⟩ := allowBudget_eq perSec burst r now
    rw [← Option.some.inj hstep, hslot, hanswer]
    exact (Slot.pays (slot r)).le

end ErrBucket

/-! ## The limiter of the resolver -/

namespace SrcRateLimiter

variable {ratePerSec : Int} {l : SrcRateLimiter}

/-- The calls of the sources as steps. -/
def allowStep (l : SrcRateLimiter) (c : Addr16 × Int) : Option SrcRateLimiter :=
  some (l.allow c.1 c.2).2

/-- A call of `src` that is answered with true. -/
def allows (src : Addr16) (l : SrcRateLimiter) (c : Addr16 × Int) : Bool :=
  decide (c.1 = src) && (l.allow c.1 c.2).1

theorem allow_eq_call (hrate : ¬ l.rate ≤ 0) (src : Addr16) (now : Int) :
    (l.allow src now).1 = (Slot.call (l.buckets.lookup src) l.rate l.burst now).1 ∧
      (l.allow src now).2.buckets.lookup src =
        some (Slot.call (l.buckets.lookup src) l.rate l.burst now).2 := by
  rw [allow, allowWith_of_enabled hrate, bucketFor_snd]
  refine ⟨rfl, ?_⟩
  dsimp only
  rw [SyncMap.lookup_insert_eq_ite, if_pos rfl]
  rfl

theorem lookup_allow_of_ne (hrate : ¬ l.rate ≤ 0) {src src' : Addr16} (hne : src ≠ src')
    (now : Int) :
    (l.allow src' now).2.buckets.lookup src = l.buckets.lookup src ∨
      (l.allow src' now).2.buckets.lookup src = none ∧
        ∃ b, l.buckets.lookup src = some b ∧ b.last < now - rateBucketIdle := by
  rw [allow, allowWith_of_enabled hrate]
  dsimp only
  rw [SyncMap.lookup_insert_eq_ite, if_neg hne]
  exact (Swept.refl l now).lookup_bucketFor src' src

/-- The limiter runs at the rate, and the bucket of `src` is in range. -/
structure AsOf (ratePerSec : Int) (src : Addr16) (l : SrcRateLimiter) (t : ℚ) : Prop where
  rate : l.rate = ratePerSec
  burst : l.burst = burstFor ratePerSec
  slot : Slot.AsOf l.burst (l.buckets.lookup src) t

/-- What the source has left at a time. -/
def budget (src : Addr16) (l : SrcRateLimiter) (t : ℚ) : ℚ :=
  Slot.budget l.rate l.burst (l.buckets.lookup src) t

namespace AsOf

variable {src src' : Addr16} {now : Int} {t : ℚ}

theorem rate_pos (h : AsOf ratePerSec src l t) (hpos : 0 < ratePerSec) : 0 < l.rate := by
  rw [h.rate]
  exact_mod_cast hpos

theorem burst_nonneg (h : AsOf ratePerSec src l t) : 0 ≤ l.burst := by
  rw [h.burst]
  exact le_trans (by norm_num) (le_burstFor ratePerSec)

theorem of_slot (h : AsOf ratePerSec src l t)
    (hslot : Slot.AsOf l.burst ((l.allow src' now).2.buckets.lookup src) t) :
    AsOf ratePerSec src (l.allow src' now).2 t := by
  obtain ⟨hrate, hburst⟩ := allowWith_settings sweepLocked l src' now
  exact ⟨hrate.trans h.rate, hburst.trans h.burst, hburst ▸ hslot⟩

theorem budget_allow (l : SrcRateLimiter) :
    budget src (l.allow src' now).2 t =
      Slot.budget l.rate l.burst ((l.allow src' now).2.buckets.lookup src) t := by
  obtain ⟨hrate, hburst⟩ := allowWith_settings sweepLocked l src' now
  rw [budget, allow, hrate, hburst]

theorem allow_self (hpos : 0 < ratePerSec) (h : AsOf ratePerSec src l (seconds now)) :
    AsOf ratePerSec src (l.allow src now).2 (seconds now) ∧
      budget src (l.allow src now).2 (seconds now) + (if (l.allow src now).1 then 1 else 0) =
        budget src l (seconds now) := by
  have hrate := h.rate_pos hpos
  obtain ⟨hanswer, hleft⟩ := allow_eq_call (not_le.2 hrate) src now
  constructor
  · apply h.of_slot
    rw [hleft]
    exact Slot.asOf_call hrate.le h.burst_nonneg h.slot
  · rw [budget_allow, hleft, hanswer]
    exact Slot.pays _

theorem allow_of_ne (hpos : 0 < ratePerSec) (hne : src ≠ src')
    (h : AsOf ratePerSec src l (seconds now)) :
    AsOf ratePerSec src (l.allow src' now).2 (seconds now) ∧
      budget src (l.allow src' now).2 (seconds now) = budget src l (seconds now) := by
  have hrate := h.rate_pos hpos
  rcases lookup_allow_of_ne (not_le.2 hrate) hne now with heq | ⟨hnone, b, hb, hidle⟩
  · constructor
    · exact h.of_slot (heq ▸ h.slot)
    · rw [budget_allow, heq]
      rfl
  · have hfill : l.burst ≤ 300 * l.rate := by
      rw [h.burst, h.rate]
      exact burstFor_le_idle hpos
    constructor
    · apply h.of_slot
      rw [hnone]
      exact Slot.asOf_none
    · rw [budget_allow, budget, hnone, hb]
      exact (Slot.budget_of_idle hidle (h.slot b hb).1 hrate.le hfill).symm

theorem step (hpos : 0 < ratePerSec) (src : Addr16) (l : SrcRateLimiter) (c : Addr16 × Int)
    (l' : SrcRateLimiter) (h : AsOf ratePerSec src l (seconds c.2)) (hl : allowStep l c = some l') :
    AsOf ratePerSec src l' (seconds c.2) ∧
      budget src l' (seconds c.2) + (if allows src l c then 1 else 0) ≤
        budget src l (seconds c.2) := by
  obtain ⟨src', now⟩ := c
  rw [← Option.some.inj hl]
  unfold allows
  by_cases hsrc : src' = src
  · rw [hsrc, decide_eq_true rfl, Bool.true_and]
    exact ⟨(h.allow_self hpos).1, (h.allow_self hpos).2.le⟩
  · rw [decide_eq_false hsrc, Bool.false_and]
    have hother := h.allow_of_ne hpos (Ne.symm hsrc)
    refine ⟨hother.1, ?_⟩
    simpa using hother.2.le

end AsOf

/-- A source's share of the limiter as a meter. -/
def meter (hpos : 0 < ratePerSec) (src : Addr16) :
    Meter allowStep (fun c => seconds c.2) (allows src) ratePerSec (burstFor ratePerSec) where
  budget := budget src
  AsOf := AsOf ratePerSec src
  rate_nonneg := by exact_mod_cast hpos.le
  burst_nonneg := le_trans (by norm_num) (le_burstFor ratePerSec)
  asOf_mono _ _ _ h ht := ⟨h.rate, h.burst, h.slot.mono ht⟩
  nonneg _ _ h := Slot.budget_nonneg (h.rate_pos hpos).le h.burst_nonneg h.slot
  le_burst l t h := h.burst ▸ Slot.budget_le (l.buckets.lookup src) t
  grows l _ _ h ht := h.rate ▸ Slot.budget_grows (h.rate_pos hpos).le (l.buckets.lookup src) ht
  asOf_step l c l' h hl := (AsOf.step hpos src l c l' h hl).1
  pays l c l' h hl := (AsOf.step hpos src l c l' h hl).2

theorem asOf_new (hpos : 0 < ratePerSec) (src : Addr16) (t : ℚ) :
    AsOf ratePerSec src (.new ratePerSec) t := by
  unfold SrcRateLimiter.new update
  rw [if_neg (not_le.2 hpos)]
  exact ⟨rfl, rfl, Slot.asOf_none⟩

end SrcRateLimiter

/-! ## The bound -/

/-- Token buckets keep to their range, and in a window of `T` seconds let at most
`burst + rate * T` calls through: those of one limiter of ICMP errors, and those of
one source of the resolver, whatever the other sources do. -/
theorem token_bucket_bound :
    (∀ perSec burst : ℚ, 0 ≤ perSec → 0 ≤ burst →
      ∀ calls : List Int, calls.Pairwise (· ≤ ·) →
      ∃ r, run (ErrBucket.step perSec burst) {} calls = some r ∧
        (0 ≤ r.tokens ∧ r.tokens ≤ burst) ∧
        ∀ w T : ℚ, 0 ≤ T →
          (countSteps (ErrBucket.step perSec burst)
            (spendsIn seconds (fun r now => (r.allowBudget now perSec burst).1) w T) {} calls : ℚ) ≤
              burst + perSec * T) ∧
    ∀ ratePerSec : Int, 0 < ratePerSec →
      ∀ calls : List (Addr16 × Int), calls.Pairwise (fun c c' => c.2 ≤ c'.2) →
      ∃ l, run SrcRateLimiter.allowStep (.new ratePerSec) calls = some l ∧
        (∀ src b, l.buckets.lookup src = some b →
          0 ≤ b.tokens ∧ b.tokens ≤ max (2 * (ratePerSec : ℚ)) 10) ∧
        ∀ (src : Addr16) (w T : ℚ), 0 ≤ T →
          (countSteps SrcRateLimiter.allowStep
            (spendsIn (fun c => seconds c.2) (SrcRateLimiter.allows src) w T)
            (.new ratePerSec) calls : ℚ) ≤ max (2 * (ratePerSec : ℚ)) 10 + ratePerSec * T := by
  constructor
  · intro perSec burst hrate hburst calls hsorted
    have hsorted' : calls.Pairwise fun now now' => seconds now ≤ seconds now' :=
      hsorted.imp seconds_le_seconds.2
    have hstart : ∀ t, (ErrBucket.meter hrate hburst).AsOf {} t :=
      fun _ => ⟨⟨le_rfl, hburst⟩, Slot.asOf_none⟩
    have htotal : ∀ r now, ∃ r', ErrBucket.step perSec burst r now = some r' :=
      fun _ _ => ⟨_, rfl⟩
    obtain ⟨r, hrun⟩ := exists_run htotal calls {}
    refine ⟨r, hrun, ?_, fun w T hT => ?_⟩
    · obtain ⟨t, h⟩ := (ErrBucket.meter hrate hburst).exists_asOf (fun _ _ => hstart _)
        ⟨0, hstart 0⟩ hsorted' hrun
      exact h.tokens
    · exact (ErrBucket.meter hrate hburst).count_le hT (fun _ _ => hstart _) hsorted' hrun
  · intro ratePerSec hpos calls hsorted
    have hsorted' : calls.Pairwise fun c c' => seconds c.2 ≤ seconds c'.2 :=
      hsorted.imp seconds_le_seconds.2
    have hburst := burstFor_le hpos
    have htotal : ∀ l c, ∃ l', SrcRateLimiter.allowStep l c = some l' := fun _ _ => ⟨_, rfl⟩
    obtain ⟨l, hrun⟩ := exists_run htotal calls (.new ratePerSec)
    refine ⟨l, hrun, fun src b hb => ?_, fun src w T hT => ?_⟩
    · obtain ⟨t, h⟩ := (SrcRateLimiter.meter hpos src).exists_asOf
        (fun _ _ => SrcRateLimiter.asOf_new hpos src _)
        ⟨0, SrcRateLimiter.asOf_new hpos src 0⟩ hsorted' hrun
      obtain ⟨hnonneg, hle, -⟩ := h.slot b hb
      exact ⟨hnonneg, (hle.trans_eq h.burst).trans hburst⟩
    · have hcount := (SrcRateLimiter.meter hpos src).count_le (w := w) hT
        (fun _ _ => SrcRateLimiter.asOf_new hpos src _) hsorted' hrun
      linarith

theorem token_bucket_bound_second :
    (countSteps (ErrBucket.step 50 100)
      (spendsIn seconds (fun r now => (r.allowBudget now 50 100).1) 0 1) {} [0, 0, second] : ℚ) ≤
        150 ∧
    (countSteps SrcRateLimiter.allowStep
      (spendsIn (fun c => seconds c.2) (SrcRateLimiter.allows (floodSource 1)) 0 1) (.new 6)
      [(floodSource 1, 0), (floodSource 2, 0), (floodSource 1, second)] : ℚ) ≤ 18 := by
  constructor
  · obtain ⟨r, -, -, hcount⟩ := token_bucket_bound.1 50 100 (by norm_num) (by norm_num)
      [0, 0, second] (by decide)
    linarith [hcount 0 1 (by norm_num)]
  · obtain ⟨l, -, -, hcount⟩ := token_bucket_bound.2 6 (by norm_num)
      [(floodSource 1, 0), (floodSource 2, 0), (floodSource 1, second)] (by decide)
    have h := hcount (floodSource 1) 0 1 (by norm_num)
    norm_num at h
    exact_mod_cast h

end Ydn64.Dns64
