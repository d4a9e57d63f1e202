import Ydn64.GoStd.NetIP
import Ydn64.Lib.SyncMap

/-!
# Live resources per client address

`src/nat64/persource.go`.  `srcTracker` keeps a count of UDP sessions and one of
TCP connections for every client.  Its map is behind a mutex, so each of the
three methods is one atomic operation.  `remove` ignores a count that is zero
already, and it prunes a client with nothing left.

A reader sees the map through `count` only: `count_add` and `count_remove` say
what the two writers do to it.
-/

namespace Ydn64.Nat64

open Ydn64.GoStd Ydn64.Lib

/-- `srcKind`. -/
inductive SrcKind where
  | srcUDP
  | srcTCP
  deriving DecidableEq, Repr

/-- `[srcKindCount]int64`. -/
structure SrcCounts where
  udp : Int := 0
  tcp : Int := 0
  deriving DecidableEq

namespace SrcCounts

def get (c : SrcCounts) : SrcKind → Int
  | .srcUDP => c.udp
  | .srcTCP => c.tcp

def add (c : SrcCounts) (kind : SrcKind) (d : Int) : SrcCounts :=
  match kind with
  | .srcUDP => { c with udp := c.udp + d }
  | .srcTCP => { c with tcp := c.tcp + d }

theorem get_add (c : SrcCounts) (kind kind' : SrcKind) (d : Int) :
    (c.add kind d).get kind' = c.get kind' + if kind' = kind then d else 0 := by
  cases kind <;> cases kind' <;> simp [add, get]

end SrcCounts

/-- `srcTracker`. -/
abbrev SrcTracker := SyncMap Addr16 SrcCounts

namespace SrcTracker

/-- `t.counts[src]`, which is zero for a client that is not there. -/
def counts (t : SrcTracker) (src : Addr16) : SrcCounts := (t.lookup src).getD {}

/-- `srcTracker.add`. -/
def add (t : SrcTracker) (src : Addr16) (kind : SrcKind) : SrcTracker :=
  t.insert src ((counts t src).add kind 1)

/-- `srcTracker.remove`. -/
def remove (t : SrcTracker) (src : Addr16) (kind : SrcKind) : SrcTracker :=
  match t.lookup src with
  | none => t
  | some c =>
    if c.get kind ≤ 0 then t
    else if (c.add kind (-1)).udp = 0 ∧ (c.add kind (-1)).tcp = 0 then t.erase src
    else t.insert src (c.add kind (-1))

/-- `srcTracker.count`. -/
def count (t : SrcTracker) (src : Addr16) (kind : SrcKind) : Int := (counts t src).get kind

theorem count_add (t : SrcTracker) (src src' : Addr16) (kind kind' : SrcKind) :
    count (add t src kind) src' kind' =
      count t src' kind' + if src' = src ∧ kind' = kind then 1 else 0 := by
  unfold count
  rw [add, counts, SyncMap.lookup_insert_eq_ite]
  by_cases h : src' = src
  · subst h
    rw [if_pos rfl, Option.getD_some, SrcCounts.get_add]
    simp
  · rw [if_neg h, if_neg fun hc => h hc.1, add_zero]
    rfl

/-- The counts after a `remove`; a pruned client has counts of zero. -/
theorem counts_remove (t : SrcTracker) (src src' : Addr16) (kind : SrcKind) :
    counts (remove t src kind) src' =
      if src' = src ∧ 0 < count t src kind then (counts t src').add kind (-1)
      else counts t src' := by
  unfold remove
  cases hc : t.lookup src with
  | none =>
    have hzero : count t src kind = 0 := by
      rw [count, counts, hc]
      cases kind <;> rfl
    rw [hzero, if_neg fun h => absurd h.2 (lt_irrefl 0)]
  | some c =>
    have hcs : counts t src = c := by rw [counts, hc, Option.getD_some]
    dsimp only
    rw [count, hcs]
    by_cases hle : c.get kind ≤ 0
    · rw [if_pos hle, if_neg fun h => by omega]
    · rw [if_neg hle]
      by_cases h : src' = src
      · rw [h, hcs, if_pos (⟨rfl, not_le.1 hle⟩ : src = src ∧ 0 < c.get kind)]
        split_ifs with hzero
        · rw [counts, Finmap.lookup_erase, Option.getD_none]
          generalize c.add kind (-1) = c' at hzero
          cases c'
          simp_all
        · rw [counts, Finmap.lookup_insert, Option.getD_some]
      · have hout : ¬(src' = src ∧ 0 < c.get kind) := fun hs => h hs.1
        rw [if_neg hout]
        split_ifs with hzero
        · rw [counts, SyncMap.lookup_erase_eq_ite, if_neg h, counts]
        · rw [counts, SyncMap.lookup_insert_eq_ite, if_neg h, counts]

/-- `remove` takes one from a positive count and ignores any other. -/
theorem count_remove (t : SrcTracker) (src src' : Addr16) (kind kind' : SrcKind) :
    count (remove t src kind) src' kind' =
      count t src' kind' -
        if src' = src ∧ kind' = kind ∧ 0 < count t src kind then 1 else 0 := by
  rw [count, counts_remove]
  by_cases h : src' = src ∧ 0 < count t src kind
  · rw [if_pos h, SrcCounts.get_add, count]
    simp only [h.1, h.2, true_and, and_true]
    split_ifs <;> omega
  · rw [if_neg h, if_neg fun hc => h ⟨hc.1, hc.2.2⟩, sub_zero, count]

/-- No client has a negative count, and none is there with nothing left. -/
def Pruned (t : SrcTracker) : Prop :=
  ∀ src c, t.lookup src = some c → 0 ≤ c.udp ∧ 0 ≤ c.tcp ∧ 0 < c.udp + c.tcp

theorem Pruned.nonneg {t : SrcTracker} (h : Pruned t) (src : Addr16) :
    0 ≤ (counts t src).udp ∧ 0 ≤ (counts t src).tcp := by
  unfold counts
  cases hc : t.lookup src with
  | none => exact ⟨le_refl 0, le_refl 0⟩
  | some c => exact ⟨(h src c hc).1, (h src c hc).2.1⟩

theorem Pruned.add {t : SrcTracker} (h : Pruned t) (src : Addr16) (kind : SrcKind) :
    Pruned (add t src kind) := by
  intro src' c hc
  rw [SrcTracker.add, SyncMap.lookup_insert_eq_ite] at hc
  split_ifs at hc
  · obtain rfl := Option.some.inj hc
    have hnonneg := h.nonneg src
    cases kind <;> simp only [SrcCounts.add] <;> omega
  · exact h src' c hc

theorem Pruned.remove {t : SrcTracker} (h : Pruned t) (src : Addr16) (kind : SrcKind) :
    Pruned (remove t src kind) := by
  unfold SrcTracker.remove
  cases hsrc : t.lookup src with
  | none => exact h
  | some c =>
    have hold := h src c hsrc
    dsimp only
    split_ifs with hle hzero
    · exact h
    · intro src' c' hc'
      exact h src' c' (SyncMap.lookup_of_erase hc')
    · intro src' c' hc'
      rw [SyncMap.lookup_insert_eq_ite] at hc'
      split_ifs at hc'
      · obtain rfl := Option.some.inj hc'
        cases kind <;> simp only [SrcCounts.add, SrcCounts.get] at hle hzero ⊢ <;> omega
      · exact h src' c' hc'

theorem Pruned.lookup_eq_none {t : SrcTracker} (h : Pruned t) {src : Addr16}
    (hudp : count t src .srcUDP = 0) (htcp : count t src .srcTCP = 0) : t.lookup src = none := by
  unfold count counts at hudp htcp
  cases hc : t.lookup src with
  | none => rfl
  | some c =>
    have hpos := h src c hc
    rw [hc] at hudp htcp
    simp only [Option.getD_some, SrcCounts.get] at hudp htcp
    omega

end SrcTracker

end Ydn64.Nat64
