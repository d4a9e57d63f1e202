import Mathlib.Algebra.Order.Ring.Defs
import Mathlib.Tactic.Linarith
import Mathlib.Tactic.Ring
import Ydn64.Lib.Run

/-!
# Metered runs

A system whose steps happen at times, and some of whose steps spend one unit of a
budget.  Between steps the budget grows with the time, at most at `rate`, and it
never exceeds `burst`.  A token bucket is such a system, and so is a table of
them seen through one of its keys.

`Meter` says what has to be shown of one step.  `Meter.count_le` is the bound on
a whole run: in any window of length `T` at most `burst + rate * T` steps spend.
The window may start anywhere.  Before it the budget is forgotten (`le_burst`);
inside it every step is paid from what was there at its start and what has grown
since.

`refill` is the growth of a token bucket.
-/

namespace Ydn64.Lib

variable {S L K : Type} [CommRing K] [LinearOrder K] [IsStrictOrderedRing K]

/-- A budget for the steps that `spends` picks out. -/
structure Meter (step : S → L → Option S) (time : L → K) (spends : S → L → Bool)
    (rate burst : K) where
  /-- What is left in a state at a time. -/
  budget : S → K → K
  /-- The state is one that a time finds, if nothing happens before. -/
  AsOf : S → K → Prop
  rate_nonneg : 0 ≤ rate
  burst_nonneg : 0 ≤ burst
  asOf_mono : ∀ s t t', AsOf s t → t ≤ t' → AsOf s t'
  nonneg : ∀ s t, AsOf s t → 0 ≤ budget s t
  le_burst : ∀ s t, AsOf s t → budget s t ≤ burst
  grows : ∀ s t t', AsOf s t → t ≤ t' → budget s t' ≤ budget s t + rate * (t' - t)
  asOf_step : ∀ s l s', AsOf s (time l) → step s l = some s' → AsOf s' (time l)
  pays : ∀ s l s', AsOf s (time l) → step s l = some s' →
    budget s' (time l) + (if spends s l then 1 else 0) ≤ budget s (time l)

/-- The steps that spend in the window of length `T` from `w` on. -/
def spendsIn (time : L → K) (spends : S → L → Bool) (w T : K) (s : S) (l : L) : Bool :=
  spends s l && decide (w ≤ time l ∧ time l ≤ w + T)

namespace Meter

variable {step : S → L → Option S} {time : L → K} {spends : S → L → Bool} {rate burst : K}
  {w T : K}

omit [IsStrictOrderedRing K] in
/-- A step outside the window does not count. -/
theorem spendsIn_eq_false {l : L} (h : time l < w ∨ w + T < time l) (s : S) :
    spendsIn time spends w T s l = false := by
  unfold spendsIn
  rw [Bool.and_eq_false_iff, decide_eq_false_iff_not, not_and_or, not_le, not_le]
  exact .inr h

omit [IsStrictOrderedRing K] in
/-- After the window no step counts. -/
theorem count_eq_zero {ls : List L} (h : ∀ l ∈ ls, w + T < time l) (s : S) :
    countSteps step (spendsIn time spends w T) s ls = 0 := by
  induction ls generalizing s with
  | nil => rfl
  | cons l ls ih =>
    rw [countSteps, spendsIn_eq_false (.inr (h l List.mem_cons_self))]
    cases step s l with
    | none => rfl
    | some s' =>
      show 0 + countSteps _ _ s' ls = 0
      rw [ih fun l' hl' => h l' (List.mem_cons_of_mem _ hl')]

variable (m : Meter step time spends rate burst)

/-- One step in the window and the count of what follows are paid from the
budget that the step finds. -/
theorem count_cons_le {s s' : S} {l : L} {ls : List L} (hs : m.AsOf s (time l))
    (hl : step s l = some s')
    (hrest : (countSteps step (spendsIn time spends w T) s' ls : K) ≤
      m.budget s' (time l) + rate * (w + T - time l)) :
    (countSteps step (spendsIn time spends w T) s (l :: ls) : K) ≤
      m.budget s (time l) + rate * (w + T - time l) := by
  have hpays := m.pays s l s' hs hl
  have hmark : ((if spendsIn time spends w T s l then 1 else 0 : Nat) : K) ≤
      if spends s l then 1 else 0 := by
    unfold spendsIn
    cases spends s l with
    | false => simp
    | true => simp only [Bool.true_and, if_true]; split <;> simp
  rw [countSteps_cons hl, Nat.cast_add]
  linarith

/-- Inside the window the count is paid from the budget and its growth. -/
theorem count_le_budget {ls : List L} {s t : S} {c : K} (hs : m.AsOf s c) (hw : w ≤ c)
    (hc : c ≤ w + T) (htimes : ∀ l ∈ ls, c ≤ time l)
    (hsorted : ls.Pairwise fun l l' => time l ≤ time l') (hrun : run step s ls = some t) :
    (countSteps step (spendsIn time spends w T) s ls : K) ≤
      m.budget s c + rate * (w + T - c) := by
  induction ls generalizing s c with
  | nil =>
    have hbudget := m.nonneg s c hs
    have hgrowth : 0 ≤ rate * (w + T - c) := mul_nonneg m.rate_nonneg (by linarith)
    rw [countSteps, Nat.cast_zero]
    linarith
  | cons l ls ih =>
    obtain ⟨s', hl, hrun⟩ := run_cons hrun
    obtain ⟨hfirst, hsorted⟩ := List.pairwise_cons.1 hsorted
    have hct : c ≤ time l := htimes l List.mem_cons_self
    rcases le_or_gt (time l) (w + T) with hin | hafter
    · have hs' := m.asOf_mono s c (time l) hs hct
      have hgrows := m.grows s c (time l) hs hct
      have hrest := ih (m.asOf_step s l s' hs' hl) (hw.trans hct) hin hfirst hsorted hrun
      have hpaid := m.count_cons_le hs' hl hrest
      calc (countSteps step (spendsIn time spends w T) s (l :: ls) : K)
        _ ≤ m.budget s (time l) + rate * (w + T - time l) := hpaid
        _ ≤ m.budget s c + rate * (time l - c) + rate * (w + T - time l) := by linarith
        _ = m.budget s c + rate * (w + T - c) := by ring
    · have hzero : ∀ l' ∈ l :: ls, w + T < time l' :=
        List.forall_mem_cons.2 ⟨hafter, fun l' hl' => hafter.trans_le (hfirst l' hl')⟩
      have hbudget := m.nonneg s c hs
      have hgrowth : 0 ≤ rate * (w + T - c) := mul_nonneg m.rate_nonneg (by linarith)
      rw [count_eq_zero hzero, Nat.cast_zero]
      linarith

omit [IsStrictOrderedRing K] in
/-- A run at times that do not decrease ends in a state that some time finds. -/
theorem exists_asOf {ls : List L} {s t : S} (hs : ∀ l ∈ ls, m.AsOf s (time l))
    (hstart : ∃ c, m.AsOf s c) (hsorted : ls.Pairwise fun l l' => time l ≤ time l')
    (hrun : run step s ls = some t) : ∃ c, m.AsOf t c := by
  induction ls generalizing s with
  | nil =>
    rw [run, Option.some.injEq] at hrun
    rw [← hrun]
    exact hstart
  | cons l ls ih =>
    obtain ⟨s', hl, hrun⟩ := run_cons hrun
    obtain ⟨hfirst, hsorted⟩ := List.pairwise_cons.1 hsorted
    have hs' := m.asOf_step s l s' (hs l List.mem_cons_self) hl
    exact ih (fun l' hl' => m.asOf_mono s' _ _ hs' (hfirst l' hl')) ⟨_, hs'⟩ hsorted hrun

/-- In a run at times that do not decrease, at most `burst + rate * T` steps spend
in a window of length `T`. -/
theorem count_le {ls : List L} {s t : S} (hT : 0 ≤ T) (hs : ∀ l ∈ ls, m.AsOf s (time l))
    (hsorted : ls.Pairwise fun l l' => time l ≤ time l') (hrun : run step s ls = some t) :
    (countSteps step (spendsIn time spends w T) s ls : K) ≤ burst + rate * T := by
  have hbound : 0 ≤ burst + rate * T :=
    add_nonneg m.burst_nonneg (mul_nonneg m.rate_nonneg hT)
  induction ls generalizing s with
  | nil =>
    rw [countSteps, Nat.cast_zero]
    exact hbound
  | cons l ls ih =>
    obtain ⟨s', hl, hrun⟩ := run_cons hrun
    obtain ⟨hfirst, hsorted⟩ := List.pairwise_cons.1 hsorted
    have hsl := hs l List.mem_cons_self
    have hs' := m.asOf_step s l s' hsl hl
    rcases lt_or_ge (time l) w with hbefore | hw
    · rw [countSteps_cons hl, spendsIn_eq_false (.inl hbefore)]
      have hrest := ih (fun l' hl' => m.asOf_mono s' _ _ hs' (hfirst l' hl')) hsorted hrun
      simpa using hrest
    rcases le_or_gt (time l) (w + T) with hin | hafter
    · have hrest := m.count_le_budget hs' hw hin hfirst hsorted hrun
      have hpaid := m.count_cons_le hsl hl hrest
      have hburst := m.le_burst s (time l) hsl
      have hgrowth : rate * (w + T - time l) ≤ rate * T :=
        mul_le_mul_of_nonneg_left (by linarith) m.rate_nonneg
      linarith
    · have hzero : ∀ l' ∈ l :: ls, w + T < time l' :=
        List.forall_mem_cons.2 ⟨hafter, fun l' hl' => hafter.trans_le (hfirst l' hl')⟩
      rw [count_eq_zero hzero, Nat.cast_zero]
      exact hbound

end Meter

/-! ## Buckets -/

/-- What a bucket holds after some time. -/
def refill (rate burst tokens elapsed : K) : K := min burst (tokens + elapsed * rate)

section Refill

variable {rate burst tokens elapsed : K}

omit [IsStrictOrderedRing K] in
theorem refill_le_burst (rate burst tokens elapsed : K) :
    refill rate burst tokens elapsed ≤ burst := min_le_left _ _

theorem refill_nonneg (hrate : 0 ≤ rate) (hburst : 0 ≤ burst) (htokens : 0 ≤ tokens)
    (helapsed : 0 ≤ elapsed) : 0 ≤ refill rate burst tokens elapsed :=
  le_min hburst (add_nonneg htokens (mul_nonneg helapsed hrate))

omit [IsStrictOrderedRing K] in
theorem refill_eq_burst (h : burst ≤ tokens + elapsed * rate) :
    refill rate burst tokens elapsed = burst := min_eq_left h

omit [IsStrictOrderedRing K] in
theorem refill_zero (h : tokens ≤ burst) : refill rate burst tokens 0 = tokens := by
  rw [refill, zero_mul, add_zero, min_eq_right h]

/-- A bucket fills at the rate. -/
theorem refill_grows {t t' last : K} (hrate : 0 ≤ rate) (h : t ≤ t') :
    refill rate burst tokens (t' - last) ≤
      refill rate burst tokens (t - last) + rate * (t' - t) := by
  have hgrowth : 0 ≤ rate * (t' - t) := mul_nonneg hrate (sub_nonneg.2 h)
  unfold refill
  rw [← min_add_add_right]
  refine min_le_min (by linarith) (le_of_eq ?_)
  ring

end Refill

end Ydn64.Lib
